import RtcTunnel.Driver.EngineOrder
import RtcTunnel.Stack.Runs

/-!
# A connection at rest

When no code of a connection is running and none is scheduled, nothing is left between
the socket, the tunnel and the caller: each datagram that came in has been fed to the tunnel,
and each event that the tunnel pushed has been answered.
-/

namespace RtcTunnel.Stack

open RtcTunnel.Core
open RtcTunnel.Abi (toWord)
open RtcTunnel.Abi.Instance (crossed)
open RtcTunnel.Base.Run
open RtcTunnel.Direct (DirectTunnel Layers BuildHost)
open RtcTunnel.Direct.DirectTunnel (pushed)
open RtcTunnel.Driver
open RtcTunnel.Driver.Connection (WholeOrOff received step)

set_option autoImplicit false

variable {L : Layers} {cipherSuite : L.dtls.Endpoint → SocketAddr → Option Text}

/-- A message that is not accepted leaves the queue alone. -/
theorem events_send_refused (s : WasmTunnelEngine (direct L cipherSuite)) (data : Bytes)
    (h : (s.send data).1 ≠ sendAccepted) :
    (tunnelOf (s.send data).2).events = (tunnelOf s).events := by
  have hr : ((tunnelOf s).send data).1 ≠ .accepted := fun hr =>
    h ((sendCode_accepted _).mpr hr)
  exact congrArg View.queue (DirectTunnel.view_send_refused hr)

/-- **The engine over a direct tunnel has the queue of its tunnel.** -/
def eventQueue (cipherSuite : L.dtls.Endpoint → SocketAddr → Option Text) :
    EventQueue (engine (direct L cipherSuite)) where
  events s := (tunnelOf s).events.map crossed
  real s hm := by
    obtain ⟨event, _, he⟩ := List.mem_map.mp hm
    exact Abi.Instance.crossed_ne_none event he
  pollNil s h := by
    have hnil : (tunnelOf s).events = [] := List.map_eq_nil_iff.mp h
    refine ⟨?_, ?_⟩
    · show (tunnelOf s).events.head?.elim .none crossed = .none
      rw [hnil]
      rfl
    · show (tunnelOf s).events.tail.map crossed = []
      rw [hnil]
      rfl
  pollCons s e es h := by
    obtain ⟨event, rest, hq, he, hes⟩ := List.map_eq_cons_iff.mp h
    refine ⟨?_, ?_⟩
    · show (tunnelOf s).events.head?.elim .none crossed = e
      rw [hq, ← he]
      rfl
    · show (tunnelOf s).events.tail.map crossed = es
      rw [hq, ← hes]
      rfl
  drainEvents drain hd s size hp hl _ := by
    cases hd
    obtain ⟨hfst, hsnd, _⟩ := WasmTunnelEngine.pull_eq (directContract L cipherSuite) s (toWord size).toNat
    rw [WasmTunnelEngine.toWord_whole hp hl] at hfst hsnd
    refine ⟨?_, ?_⟩
    · show (WasmTunnelEngine.pull s (toWord size).toNat).1 = _
      rw [WasmTunnelEngine.toWord_whole hp hl, hfst, List.map_take]
      rfl
    · show (tunnelOf (WasmTunnelEngine.pull s (toWord size).toNat).2).events.map crossed = _
      rw [WasmTunnelEngine.toWord_whole hp hl]
      have hq : (tunnelOf (WasmTunnelEngine.pull s size.whole).2).events =
        (tunnelOf s).events.drop size.whole := congrArg View.queue hsnd
      rw [hq, List.map_drop]
  nextDeadline s :=
    congrArg (fun v : View => v.queue.map crossed) (DirectTunnel.view_nextDeadline (tunnelOf s))
  send s data h := congrArg (List.map crossed) (events_send_refused s data h)
  negotiatedCipherSuite f hf s := by
    cases hf
    exact congrArg (fun t : DirectTunnel L => t.events.map crossed) (tunnel_negotiatedCipherSuite s)
  bufferedBytes f hf s := by
    cases hf
    rfl
  droppedDatagrams f hf s := by
    cases hf
    rfl

theorem events_step (t : DirectTunnel L) (op : DirectTunnel.Op) (hpoll : t.polledBy op = []) :
    t.events <+: (t.step op).events := by
  obtain ⟨es, he, _⟩ := DirectTunnel.queue_step t op
  rw [hpoll] at he
  exact ⟨es, he⟩

/-- **It is a queue**: the tunnel pushes behind what waits, and a batch is the front. -/
theorem fifo (cipherSuite : L.dtls.Endpoint → SocketAddr → Option Text) :
    Fifo (eventQueue cipherSuite) where
  feed {s t} h := by
    cases h with
    | input now data => exact (events_step _ (.receive (WasmTunnelEngine.clock now) data) rfl).map _
    | inputDeferred hf now data =>
      cases hf
      exact (events_step _ (.receiveDeferred (WasmTunnelEngine.clock now) data) rfl).map _
    | finishInputBatch hf =>
      cases hf
      exact (events_step _ .finishInputBatch rfl).map _
    | tick now => exact (events_step _ (.tick (WasmTunnelEngine.clock now)) rfl).map _
  send s data := (events_step (tunnelOf s) (.send data) rfl).map _
  close s := (events_step (tunnelOf s) .close rfl).map _
  drain f hf s size := by
    cases hf
    obtain ⟨hfst, hsnd, _⟩ :=
      WasmTunnelEngine.pull_eq (directContract L cipherSuite) s (toWord size).toNat
    have hevents : (tunnelOf (WasmTunnelEngine.pull s (toWord size).toNat).2).events =
        (tunnelOf s).events.drop (toWord size).toNat := congrArg View.queue hsnd
    show (tunnelOf s).events.map crossed = (WasmTunnelEngine.pull s (toWord size).toNat).1 ++
      (tunnelOf (WasmTunnelEngine.pull s (toWord size).toNat).2).events.map crossed
    rw [hfst, hevents, ← List.map_append]
    exact congrArg (List.map crossed) (List.take_append_drop _ (tunnelOf s).events).symm

variable {h : BuildHost} {config : TunnelConfig} {localAddr : SocketAddr} {nowMs : UInt64}
  {c : DirectTunnel.Constructor} {t : DirectTunnel L} {options : ResolvedOptions}
  {labels : List Connection.Label}

/-- A connection in turn makes the calls that the events of its tunnel ask for, in their order. -/
theorem engineOrder_tunnel (cipherSuite : L.dtls.Endpoint → SocketAddr → Option Text)
    (t : DirectTunnel L) (hsize : WholeOrOff options) (hraise : ∀ l ∈ labels, l.isRaise = false)
    (hturn : Meets step (fun d l => d.outOfTurn l = false) (connect cipherSuite options t) labels) :
    (connect cipherSuite options t).EngineOrder (eventQueue cipherSuite) labels :=
  Connection.engineOrder_run (fifo cipherSuite) hsize _ hraise hturn

/-- Nothing is held back by code that is suspended. -/
theorem calls_idle {E : EngineApi} {d : Connection E} {events : List EngineEvent}
    (h : d.InTurn events) (hi : d.idle = true) (hc : d.closed = false) :
    d.calls = events.filter EngineEvent.isCall := by
  have hs : d.stack = [] := List.isEmpty_iff.mp hi
  obtain ⟨rest, hev, hrest⟩ := h.open hc
  have hcounts : events.filter EngineEvent.counts = d.calls := by
    rcases hrest with rfl | ⟨_, reason, tasks, hst⟩
    · rw [hev, hs]
      exact (List.append_nil _).trans (List.append_nil _)
    · exact absurd (hs.symm.trans hst) (by simp)
  have hcall : ∀ e : EngineEvent, (e.isCall && e.counts) = e.isCall := by
    intro e
    cases e <;> rfl
  have hfilter : events.filter EngineEvent.isCall =
      (events.filter EngineEvent.counts).filter EngineEvent.isCall := by
    rw [List.filter_filter]
    simp only [hcall]
  rw [hfilter, hcounts]
  exact (List.filter_eq_self.mpr (Connection.calls_isCall d)).symm

/-- A connection at rest caught up: its tunnel was fed all that the socket received, and has
nothing left to hand out. -/
theorem fed_at_rest (hc : DirectTunnel.construct L h config localAddr nowMs c = .ok t)
    (cipherSuite : L.dtls.Endpoint → SocketAddr → Option Text)
    (hsize : WholeOrOff options) (hraise : ∀ l ∈ labels, l.isRaise = false)
    (hquiet : (run step (connect cipherSuite options t) labels).Quiet) :
    (tunnelOps (connect cipherSuite options t) labels).filterMap opFeeds =
        received (connect cipherSuite options t) labels ∧
      (tunnelOf (run step (connect cipherSuite options t) labels).engine).events = [] := by
  obtain ⟨_, hfed, _, _⟩ := runs_tunnel hc cipherSuite options labels
  have hcaught := Connection.caughtUp_run hsize (eventQueue cipherSuite)
    (created (B := direct L cipherSuite) t) labels hraise
  have hall := hcaught.fed hquiet.open
  rw [hcaught.inbound hquiet, List.append_nil] at hall
  exact ⟨hfed.trans hall, List.map_eq_nil_iff.mp (hcaught.events hquiet)⟩

theorem calls_at_rest (hc : DirectTunnel.construct L h config localAddr nowMs c = .ok t)
    (cipherSuite : L.dtls.Endpoint → SocketAddr → Option Text)
    (hraise : ∀ l ∈ labels, l.isRaise = false)
    (hturn : Meets step (fun d l => d.outOfTurn l = false) (connect cipherSuite options t) labels)
    (hquiet : (run step (connect cipherSuite options t) labels).Quiet)
    (hempty : (tunnelOf (run step (connect cipherSuite options t) labels).engine).events = []) :
    (run step (connect cipherSuite options t) labels).calls =
      ((pushed (tunnelOf (run step (connect cipherSuite options t) labels).engine)).map
        crossed).filter EngineEvent.isCall := by
  obtain ⟨_, _, _, hpushed⟩ := runs_tunnel hc cipherSuite options labels
  have hin := Connection.inTurn_run (Connection.inTurn_start options _) hraise hturn
  rw [hempty, List.map_nil, List.append_nil] at hpushed
  rw [hpushed]
  exact calls_idle hin hquiet.idle hquiet.open

/-- **Nothing is left undone at rest.** In a run without exceptions over a tunnel that was
built, with events taken one by one or in batches of a whole size below 2³² and no pump over
another, whenever the connection is open and no code of it is running or scheduled, the tunnel
was fed every datagram that the socket received, in order, its queue is empty, and the calls of
`endpoint.send` and `onPacket` answer every datagram and message that the tunnel has ever
pushed, in order. -/
theorem done_at_rest (hc : DirectTunnel.construct L h config localAddr nowMs c = .ok t)
    (cipherSuite : L.dtls.Endpoint → SocketAddr → Option Text)
    (hsize : WholeOrOff options) (hraise : ∀ l ∈ labels, l.isRaise = false)
    (hturn : Meets step (fun d l => d.outOfTurn l = false) (connect cipherSuite options t) labels)
    (hquiet : (run step (connect cipherSuite options t) labels).Quiet) :
    let d := run step (connect cipherSuite options t) labels
    (tunnelOps (connect cipherSuite options t) labels).filterMap opFeeds =
        received (connect cipherSuite options t) labels ∧
      (tunnelOf d.engine).events = [] ∧
      d.calls = ((pushed (tunnelOf d.engine)).map crossed).filter EngineEvent.isCall := by
  intro d
  obtain ⟨hfed, hempty⟩ := fed_at_rest hc cipherSuite hsize hraise hquiet
  exact ⟨hfed, hempty, calls_at_rest hc cipherSuite hraise hturn hquiet hempty⟩

/-- Two messages come in one datagram. -/
def readsTwo : List Connection.Label :=
  opening ++ [.datagram (.finite 4) [23, 3, 0, 3, 7]] ++ Script.settle

theorem quiet_two :
    (run step (connect (fun _ _ => none) Script.batched Direct.Script.dialer) readsTwo).Quiet :=
  ⟨by decide +kernel, by decide +kernel, by decide +kernel, by decide +kernel⟩

theorem done_at_rest_two :
    received (connect (fun _ _ => none) Script.batched Direct.Script.dialer) readsTwo =
      [[0], [22, 7], [23, 2], [23, 3, 0, 3, 7]] := by
  have hraise : ∀ l ∈ readsTwo, l.isRaise = false := by decide +kernel
  have h := done_at_rest Direct.Script.build_dialer (fun _ _ => none)
    (fun _ => ⟨by decide +kernel, by decide +kernel⟩) hraise (by decide +kernel) quiet_two
  rw [← h.1]
  decide +kernel

end RtcTunnel.Stack
