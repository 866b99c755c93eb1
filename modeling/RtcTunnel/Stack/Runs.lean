import RtcTunnel.Direct.Transparency
import RtcTunnel.Driver.History
import RtcTunnel.Driver.Order
import RtcTunnel.Stack.Settling

/-!
# Runs of a tunnel

A connection over the direct backend only calls the operations of its tunnel. So whatever
a connection does is a run of the tunnel: with the datagrams the connection fed, the messages it
logged as accepted, and the events it was handed.
-/

namespace RtcTunnel.Stack

open RtcTunnel.Core
open RtcTunnel.Abi (pullEvents pullEvents_none pullEvents_some toWord)
open RtcTunnel.Abi.Instance (crossed)
open RtcTunnel.Base.Run
open RtcTunnel.Direct (DirectTunnel Layers BuildHost)
open RtcTunnel.Direct.DirectTunnel (Op accepted acceptedBy polledBy pushed)
open RtcTunnel.Driver
open RtcTunnel.Driver.Connection (start step)

set_option autoImplicit false

/-- The operations behind a logged effect. A batch takes so many events. -/
def callOps (now size : F64) : Effect → List Op
  | .engine (.input data) => [.receive (WasmTunnelEngine.clock now) data]
  | .engine (.inputDeferred data) => [.receiveDeferred (WasmTunnelEngine.clock now) data]
  | .engine .finishInputBatch => [.finishInputBatch]
  | .engine .tick => [.tick (WasmTunnelEngine.clock now)]
  | .engine (.send packet _) => [.send packet.data]
  | .engine .nextDeadline => [.nextDeadline]
  | .engine .pollEvent => [.pollEvent]
  | .engine .drainEvents => List.replicate (toWord size).toNat .pollEvent
  | .engine .close => [.close]
  | _ => []

/-- The datagram that an operation feeds. -/
def opFeeds : Op → Option Bytes
  | .receive _ data => some data
  | .receiveDeferred _ data => some data
  | _ => none

theorem opFeeds_callOps (now size : F64) (e : Effect) :
    (callOps now size e).filterMap opFeeds = e.feeds.toList := by
  cases e with
  | engine c =>
    cases c with
    | drainEvents =>
      refine List.filterMap_eq_nil_iff.mpr fun op hop => ?_
      rw [List.eq_of_mem_replicate hop]
      rfl
    | _ => rfl
  | _ => rfl

variable {L : Layers} {cipherSuite : L.dtls.Endpoint → SocketAddr → Option Text}

theorem accepted_append (t : DirectTunnel L) (ops ops' : List Op) :
    accepted t (ops ++ ops') =
      accepted t ops ++ accepted (run DirectTunnel.step t ops) ops' := by
  induction ops generalizing t with
  | nil => rfl
  | cons op ops ih =>
    rw [List.cons_append, accepted, accepted, ih, List.append_assoc]
    rfl

/-- These operations lead from one tunnel to the other; they accept these messages and hand out
these events. -/
structure Ran (t : DirectTunnel L) (ops : List Op) (accepts : List Bytes)
    (out : List EngineEvent) (r : DirectTunnel L) : Prop where
  tunnel : r = run DirectTunnel.step t ops
  accepts : accepted t ops = accepts
  polled : (outputs DirectTunnel.step polledBy t ops).map crossed = out

theorem Ran.refl (t : DirectTunnel L) : Ran t [] [] [] t := ⟨rfl, rfl, rfl⟩

theorem Ran.trans {t m r : DirectTunnel L} {ops ops' : List Op} {accepts accepts' : List Bytes}
    {out out' : List EngineEvent} (h : Ran t ops accepts out m) (h' : Ran m ops' accepts' out' r) :
    Ran t (ops ++ ops') (accepts ++ accepts') (out ++ out') r := by
  obtain ⟨rfl, rfl, rfl⟩ := h
  obtain ⟨rfl, rfl, rfl⟩ := h'
  refine ⟨(run_append _ t ops ops').symm, accepted_append t ops ops', ?_⟩
  rw [outputs_append, List.map_append]

/-- One operation that neither sends nor polls. -/
theorem Ran.silent {t : DirectTunnel L} {op : Op} (ha : t.acceptedBy op = [])
    (hp : t.polledBy op = []) : Ran t [op] [] [] (t.step op) := by
  refine ⟨rfl, ?_, ?_⟩
  · rw [accepted, ha]
    rfl
  · rw [outputs, hp]
    rfl

/-- One event polled. -/
theorem Ran.poll (t : DirectTunnel L) :
    Ran t [.pollEvent] [] ((t.events.head?.toList).map crossed) t.pollEvent.2 :=
  ⟨rfl, rfl, congrArg (List.map crossed) (List.append_nil _)⟩

theorem pollEvent_nil {t : DirectTunnel L} (h : t.events = []) : t.pollEvent = (none, t) := by
  have hsame : { t with events := t.events.tail } = t := by rw [h, List.tail_nil, ← h]
  exact Prod.ext (congrArg List.head? h) hsame

/-- An empty queue stays as it is. -/
theorem Ran.idle {t : DirectTunnel L} (h : t.events = []) (max : Nat) :
    Ran t (List.replicate max .pollEvent) [] [] t := by
  induction max with
  | zero => exact .refl t
  | succ max ih =>
    have hpoll := Ran.poll t
    rw [h, pollEvent_nil h] at hpoll
    exact hpoll.trans ih

/-- A batch is so many events polled. -/
theorem ran_pullEvents (max : Nat) (t : DirectTunnel L) :
    Ran t (List.replicate max .pollEvent) []
      ((pullEvents DirectTunnel.pollEvent max t).1.map crossed)
      (pullEvents DirectTunnel.pollEvent max t).2 := by
  induction max generalizing t with
  | zero => exact .refl t
  | succ max ih =>
    have hpoll := Ran.poll t
    cases hq : t.events with
    | nil =>
      rw [pullEvents_none (pollEvent_nil hq)]
      exact .idle hq (max + 1)
    | cons event rest =>
      have hsome : t.pollEvent = (some event, t.pollEvent.2) := by
        show (t.events.head?, t.pollEvent.2) = _
        rw [hq]
        rfl
      rw [hq] at hpoll
      rw [pullEvents_some hsome]
      exact hpoll.trans (ih t.pollEvent.2)

variable {now size : F64}

theorem sendCode_accepted (r : SendResult) :
    WasmTunnelEngine.sendCode r = sendAccepted ↔ r = .accepted := by
  cases r <;> simp [WasmTunnelEngine.sendCode, sendAccepted, sendBackpressure, sendTooLarge, sendNotOpen]

/-- The name of the cipher suite is read, whether or not it is kept. -/
theorem tunnel_negotiatedCipherSuite (s : WasmTunnelEngine (direct L cipherSuite)) :
    s.negotiatedCipherSuite.2.tunnel = s.tunnel := by
  have hname : ∀ s : WasmTunnelEngine (direct L cipherSuite), s.cipherName.2.tunnel = s.tunnel := by
    intro s
    unfold WasmTunnelEngine.cipherName
    split <;> rfl
  unfold WasmTunnelEngine.negotiatedCipherSuite
  dsimp only
  split
  · exact hname s
  · exact (hname _).trans (hname s)

/-- The tunnel of the engine. -/
def tunnelOf (s : (engine (direct L cipherSuite)).State) : DirectTunnel L :=
  WasmTunnelEngine.tunnel (B := direct L cipherSuite) s

/-- A batch leaves the tunnel as it was, without the front of its queue. -/
theorem tunnel_pull (s : WasmTunnelEngine (direct L cipherSuite)) (max : Nat) :
    (s.pull max).2 =
      { s with tunnel := { tunnelOf s with events := (tunnelOf s).events.drop max } } := by
  have hpull := Abi.Instance.pullEvents_eq max (tunnelOf s)
  have hsnd : (pullEvents (direct L cipherSuite).pollEvent max s.tunnel).2 =
      { tunnelOf s with events := (tunnelOf s).events.drop max } := congrArg Prod.snd hpull
  rw [WasmTunnelEngine.pull, hsnd]

/-- **A call of the engine is a run of its tunnel.** -/
theorem ran_made {s t : (engine (direct L cipherSuite)).State} {e : Effect}
    {out : List EngineEvent} (h : (engine (direct L cipherSuite)).Made now size s e out t) :
    Ran (tunnelOf s) (callOps now size e) (e.accepts.map (·.data)).toList out (tunnelOf t) := by
  cases h with
  | input data => exact .silent rfl rfl
  | inputDeferred hf data =>
    cases hf
    exact .silent rfl rfl
  | finishInputBatch hf =>
    cases hf
    exact .silent rfl rfl
  | tick => exact .silent rfl rfl
  | send packet =>
    refine ⟨rfl, ?_, rfl⟩
    show (if ((tunnelOf s).send packet.data).1 = .accepted then [packet.data] else []) ++ [] = _
    have hcode : (Effect.engine (.send packet
        ((engine (direct L cipherSuite)).send s packet.data).1)).accepts =
      if ((tunnelOf s).send packet.data).1 = .accepted then some packet else none :=
        if_congr (sendCode_accepted _) rfl rfl
    rw [hcode, List.append_nil]
    split <;> rfl
  | nextDeadline => exact .silent rfl rfl
  | pollEvent =>
    refine ⟨rfl, rfl, ?_⟩
    show ((tunnelOf s).events.head?.toList ++ []).map crossed =
      if (tunnelOf s).events.head?.elim .none crossed = .none then []
        else [(tunnelOf s).events.head?.elim .none crossed]
    rw [List.append_nil]
    cases (tunnelOf s).events.head? with
    | none => rfl
    | some event => exact (if_neg (Abi.Instance.crossed_ne_none event)).symm
  | drainEvents hf =>
    cases hf
    exact ran_pullEvents _ s.tunnel
  | close => exact .silent rfl rfl
  | bufferedBytes hf =>
    cases hf
    exact .refl _
  | droppedDatagrams hf =>
    cases hf
    exact .refl _
  | negotiatedCipherSuite hf =>
    cases hf
    have htunnel := tunnel_negotiatedCipherSuite (L := L) s
    exact ⟨htunnel, rfl, rfl⟩
  | dispose =>
    have htunnel := WasmTunnelEngine.tunnel_dispose (B := direct L cipherSuite) s
    exact ⟨htunnel, rfl, rfl⟩
  | apart e he =>
    cases e with
    | engine c => cases he
    | dispose => cases he
    | _ => exact .refl _

theorem ran_history {s t : (engine (direct L cipherSuite)).State} {es : List Effect}
    {out : List EngineEvent} (h : (engine (direct L cipherSuite)).History now size s es out t) :
    Ran (tunnelOf s) (es.flatMap (callOps now size)) ((es.filterMap Effect.accepts).map (·.data)) out
      (tunnelOf t) := by
  induction h with
  | nil s => exact .refl _
  | @cons s t u e es out outs hm hs ih =>
    have hall := (ran_made hm).trans ih
    have haccepts : (e.accepts.map (·.data)).toList ++ (es.filterMap Effect.accepts).map (·.data) =
        ((e :: es).filterMap Effect.accepts).map (·.data) := by
      rw [List.filterMap_cons]
      cases e.accepts <;> rfl
    rw [haccepts] at hall
    exact hall

/-- The operations on the tunnel behind a step. -/
def stepOps (d : Connection (engine (direct L cipherSuite))) (l : Connection.Label) : List Op :=
  (d.logs l).flatMap (callOps l.now d.options.eventBatchSize)

/-- Those behind a run. -/
def tunnelOps (d : Connection (engine (direct L cipherSuite))) (labels : List Connection.Label) :
    List Op := outputs step stepOps d labels

theorem ran_run (d : Connection (engine (direct L cipherSuite))) (labels : List Connection.Label) :
    Ran (tunnelOf d.engine) (tunnelOps d labels)
      (((outputs step Connection.logs d labels).filterMap Effect.accepts).map (·.data))
      (d.handedOut labels) (tunnelOf (run step d labels).engine) := by
  induction labels generalizing d with
  | nil => exact .refl _
  | cons l labels ih =>
    have hstep := ran_history (Connection.log_step d l).2
    have hall := hstep.trans (ih (d.step l))
    rw [← List.map_append, ← List.filterMap_append] at hall
    exact hall

/-- The datagrams fed in a run. -/
theorem opFeeds_run (d : Connection (engine (direct L cipherSuite)))
    (labels : List Connection.Label) :
    (tunnelOps d labels).filterMap opFeeds =
      (outputs step Connection.logs d labels).filterMap Effect.feeds := by
  have heach : ∀ (now size : F64) (es : List Effect),
      (es.flatMap (callOps now size)).filterMap opFeeds = es.filterMap Effect.feeds := by
    intro now size es
    induction es with
    | nil => rfl
    | cons e es ih =>
      rw [List.flatMap_cons, List.filterMap_append, opFeeds_callOps, ih, List.filterMap_cons]
      cases e.feeds <;> rfl
  induction labels generalizing d with
  | nil => rfl
  | cons l labels ih =>
    rw [tunnelOps, outputs, outputs, List.filterMap_append, List.filterMap_append, ← ih, stepOps,
      heach]
    rfl

/-- A tunnel that was built has pushed nothing and written nothing. -/
theorem log_construct {h : BuildHost} {config : TunnelConfig} {localAddr : SocketAddr}
    {nowMs : UInt64} {c : DirectTunnel.Constructor} {t : DirectTunnel L}
    (hc : DirectTunnel.construct L h config localAddr nowMs c = .ok t) :
    t.log = [] ∧ t.events = [] := by
  obtain ⟨_, _, _, _, _, _, _, _, ht⟩ := DirectTunnel.built_construct hc
  rw [ht]
  exact ⟨rfl, rfl⟩

/-- The connection of a tunnel. -/
def connect (cipherSuite : L.dtls.Endpoint → SocketAddr → Option Text) (options : ResolvedOptions)
    (t : DirectTunnel L) : Connection (engine (direct L cipherSuite)) :=
  start options (created (B := direct L cipherSuite) t)

/-- The runs of a connection and of its tunnel go together. -/
theorem runs_tunnel {h : BuildHost} {config : TunnelConfig} {localAddr : SocketAddr}
    {nowMs : UInt64} {c : DirectTunnel.Constructor} {t : DirectTunnel L}
    (hc : DirectTunnel.construct L h config localAddr nowMs c = .ok t)
    (cipherSuite : L.dtls.Endpoint → SocketAddr → Option Text) (options : ResolvedOptions)
    (labels : List Connection.Label) :
    let d := run step (connect cipherSuite options t) labels
    let ops := tunnelOps (connect cipherSuite options t) labels
    tunnelOf d.engine = run DirectTunnel.step t ops ∧
      ops.filterMap opFeeds = d.fed ∧
      accepted t ops = d.accepted.map (·.data) ∧
      (pushed (tunnelOf d.engine)).map crossed =
        (connect cipherSuite options t).handedOut labels ++
          (tunnelOf d.engine).events.map crossed := by
  intro d ops
  obtain ⟨htunnel, haccepts, hpolled⟩ := ran_run (connect cipherSuite options t) labels
  have hlog : d.log = outputs step Connection.logs (connect cipherSuite options t) labels :=
    Connection.log_run (connect cipherSuite options t) labels
  obtain ⟨es, hes, hpushed⟩ := DirectTunnel.queue_run t ops
  have hnone : pushed t = [] := DirectTunnel.pushed_construct hc
  refine ⟨htunnel, ?_, ?_, ?_⟩
  · rw [Connection.fed, hlog]
    exact opFeeds_run (connect cipherSuite options t) labels
  · rw [Connection.accepted, hlog]
    exact haccepts
  · have hout : (outputs DirectTunnel.step polledBy t ops).map crossed =
      (connect cipherSuite options t).handedOut labels := hpolled
    have htunnel : tunnelOf d.engine = run DirectTunnel.step t ops := htunnel
    rw [(log_construct hc).2, List.nil_append] at hes
    rw [htunnel, hpushed, hnone, List.nil_append, hes, List.map_append, hout]

/-- **A connection runs its tunnel.** Whatever a connection over a tunnel that was built does,
the tunnel has run the operations behind the logged calls and no others. It was fed the
datagrams that the connection fed, in order; it accepted the messages that are logged as accepted,
in order; and the events it has pushed are those the connection was handed, in order, and behind
them those that are still in its queue. A call behind `dispose` is one of the tunnel as it was
left: what the source does with a freed handle is not modelled. -/
theorem connection_runs_tunnel {h : BuildHost} {config : TunnelConfig} {localAddr : SocketAddr}
    {nowMs : UInt64} {c : DirectTunnel.Constructor} {t : DirectTunnel L}
    (hc : DirectTunnel.construct L h config localAddr nowMs c = .ok t)
    (cipherSuite : L.dtls.Endpoint → SocketAddr → Option Text) (options : ResolvedOptions)
    (labels : List Connection.Label) :
    let d := run step (connect cipherSuite options t) labels
    let ops := tunnelOps (connect cipherSuite options t) labels
    (tunnelOf d.engine).Reachable ∧ tunnelOf d.engine = run DirectTunnel.step t ops ∧
      ops.filterMap opFeeds = d.fed ∧
      accepted t ops = d.accepted.map (·.data) ∧
      (pushed (tunnelOf d.engine)).map crossed =
        (connect cipherSuite options t).handedOut labels ++
          (tunnelOf d.engine).events.map crossed := by
  have hruns := runs_tunnel hc cipherSuite options labels
  exact ⟨⟨h, config, localAddr, nowMs, c, t, _, hc, hruns.1⟩, hruns⟩

/-- The dialer's channel opens, and the caller gets the handle. -/
def opening : List Connection.Label :=
  Script.steps 5 ++ [.datagram (.finite 1) [0]] ++ Script.settle ++
    [.datagram (.finite 2) [22, 7]] ++ Script.settle ++ [.datagram (.finite 3) [23, 2]] ++
    Script.settle ++ [.resume]

/-- Two messages are sent. -/
def sendsTwo : List Connection.Label :=
  opening ++ [.send [0]] ++ Script.settle ++ [.send [7]] ++ Script.settle

theorem connection_runs_tunnel_two :
    accepted Direct.Script.dialer
      (tunnelOps (connect (fun _ _ => none) Script.batched Direct.Script.dialer) sendsTwo) =
        [[0], [7]] := by
  have h := connection_runs_tunnel Direct.Script.build_dialer (fun _ _ => none) Script.batched sendsTwo
  rw [h.2.2.2.1]
  decide +kernel

end RtcTunnel.Stack
