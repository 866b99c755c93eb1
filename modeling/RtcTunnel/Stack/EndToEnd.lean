import RtcTunnel.Driver.Packets
import RtcTunnel.Stack.Quiet

/-!
# From one caller to the other

Two connections over direct tunnels. The stream of one tunnel hands over chunks that the other
has written, once each and in order: then what the caller of one end is given are messages that
the engine of the other has accepted, in order; and at rest, with nothing left on the way, they
are all of them.
-/

namespace RtcTunnel.Stack

open RtcTunnel.Core
open RtcTunnel.Abi.Instance (crossed)
open RtcTunnel.Base.Run
open RtcTunnel.Direct (DirectTunnel Layers BuildHost Inbox)
open RtcTunnel.Direct.DirectTunnel (Delivery HandsOver chunk deliver encodeMessage messages pushed
  written)
open RtcTunnel.Driver
open RtcTunnel.Driver.Connection (WholeOrOff step)

set_option autoImplicit false

variable {L R : Layers}

/-- The messages of a tunnel, as its host sees them. -/
theorem messages_crossed (es : List Event) :
    (es.map crossed).filterMap EngineEvent.message? = messages es := by
  rw [List.filterMap_map, messages]
  congr 1
  funext e
  cases e <;> rfl

/-- The chunks of a tunnel are the messages its connection had accepted. -/
theorem written_connection {h : BuildHost} {config : TunnelConfig} {localAddr : SocketAddr}
    {nowMs : UInt64} {c : DirectTunnel.Constructor} {t : DirectTunnel L}
    (hc : DirectTunnel.construct L h config localAddr nowMs c = .ok t)
    (cipherSuite : L.dtls.Endpoint → SocketAddr → Option Text) (options : ResolvedOptions)
    (labels : List Connection.Label) :
    let d := run step (connect cipherSuite options t) labels
    written (tunnelOf d.engine) = (d.accepted.map (·.data)).map encodeMessage ∧
      ∀ data ∈ d.accepted.map (·.data), data.length ≤ Core.maxMessageSize := by
  intro d
  obtain ⟨htunnel, _, haccepted, _⟩ := runs_tunnel hc cipherSuite options labels
  have hnone : written t = [] := by
    rw [written, (log_construct hc).1]
    rfl
  have hwritten : written (tunnelOf d.engine) = written t ++ (DirectTunnel.accepted t
      (tunnelOps (connect cipherSuite options t) labels)).map encodeMessage :=
    htunnel ▸ DirectTunnel.written_run t _
  rw [haccepted, hnone, List.nil_append] at hwritten
  exact ⟨hwritten, haccepted ▸ DirectTunnel.length_accepted⟩

/-- The deliveries of a run, without their chunks, are its operations. -/
theorem run_deliver (t : DirectTunnel R) (ds : List (Delivery R)) :
    run deliver t ds = run DirectTunnel.step t (ds.map Prod.fst) := by
  rw [run, run, List.foldl_map]
  rfl

section Ends

variable {h h' : BuildHost} {config config' : TunnelConfig} {localAddr localAddr' : SocketAddr}
  {nowMs nowMs' : UInt64} {c c' : DirectTunnel.Constructor} {s : DirectTunnel L}
  {r : DirectTunnel R} {sends receives : List Connection.Label} {ds : List (Delivery R)}

/-- What the receiving tunnel has pushed, and what waits on its stream, are the first of the
messages that the sender's engine accepted. -/
theorem received_connection (I : Inbox R.sctp)
    (hs : DirectTunnel.construct L h config localAddr nowMs c = .ok s)
    (hr : DirectTunnel.construct R h' config' localAddr' nowMs' c' = .ok r)
    (cipherSuite : L.dtls.Endpoint → SocketAddr → Option Text)
    (cipherSuite' : R.dtls.Endpoint → SocketAddr → Option Text) (options options' : ResolvedOptions)
    (hops : ds.map Prod.fst = tunnelOps (connect cipherSuite' options' r) receives)
    (hd : Meets deliver (HandsOver I) r ds)
    (hchunks : (ds.flatMap Prod.snd).map (chunk I) <+:
      written (tunnelOf (run step (connect cipherSuite options s) sends).engine)) :
    let sender := run step (connect cipherSuite options s) sends
    let receiver := run step (connect cipherSuite' options' r) receives
    messages (pushed (tunnelOf receiver.engine)) ++
        ((tunnelOf receiver.engine).inStream I).filterMap I.message =
      (sender.accepted.map (·.data)).take (ds.flatMap Prod.snd).length := by
  intro sender receiver
  obtain ⟨hwritten, hshort⟩ := written_connection hs cipherSuite options sends
  obtain ⟨htunnel, _, _, _⟩ := runs_tunnel hr cipherSuite' options' receives
  have htunnel : tunnelOf receiver.engine = run deliver r ds := by
    rw [run_deliver, hops]
    exact htunnel
  rw [hwritten] at hchunks
  have htake := List.prefix_iff_eq_take.mp hchunks
  rw [List.length_map, ← List.map_take] at htake
  obtain ⟨hmessages, hfit⟩ := DirectTunnel.message_chunks I htake fun data hm =>
    hshort data (List.mem_of_mem_take hm)
  have hempty : r.inStream I = [] := by
    have hnone : r.association = none :=
      Option.not_isSome_iff_eq_none.mp
        (Bool.eq_false_iff.mp (DirectTunnel.fresh_construct hr).association)
    rw [DirectTunnel.inStream, hnone]
    rfl
  have hpushed : r.received = [] := by
    rw [DirectTunnel.received, DirectTunnel.pushed_construct hr]
    rfl
  have hall := DirectTunnel.received_run I hd (by rwa [hempty, List.nil_append])
  rw [hempty, List.nil_append, hpushed, List.nil_append, hmessages, ← htunnel] at hall
  exact hall

/-- **From one caller to the other.** The receiver's run has no exceptions, and in it no pump takes
events over what an outer one has in hand or behind the close, and none is closed over. Where the
stream of the receiving tunnel hands over chunks that the sending tunnel wrote, once each and in
order, the receiving caller is given messages that the sender's engine accepted, in order, from the
first on; under the policy to drop these are the messages that `handle.send` took. If the receiver
takes events one by one or in batches of a whole size below 2³², then once all chunks were handed
over and none waits on the stream, the receiver at rest has been given all of them. -/
theorem end_to_end (I : Inbox R.sctp)
    (hs : DirectTunnel.construct L h config localAddr nowMs c = .ok s)
    (hr : DirectTunnel.construct R h' config' localAddr' nowMs' c' = .ok r)
    (cipherSuite : L.dtls.Endpoint → SocketAddr → Option Text)
    (cipherSuite' : R.dtls.Endpoint → SocketAddr → Option Text) (options options' : ResolvedOptions)
    (hraise : ∀ l ∈ receives, l.isRaise = false)
    (hturn : Meets step (fun d l => d.outOfTurn l = false) (connect cipherSuite' options' r) receives)
    (hops : ds.map Prod.fst = tunnelOps (connect cipherSuite' options' r) receives)
    (hd : Meets deliver (HandsOver I) r ds)
    (hchunks : (ds.flatMap Prod.snd).map (chunk I) <+:
      written (tunnelOf (run step (connect cipherSuite options s) sends).engine)) :
    let sender := run step (connect cipherSuite options s) sends
    let receiver := run step (connect cipherSuite' options' r) receives
    receiver.packets <+: sender.accepted.map (·.data) ∧
      (options.backpressure = .drop → sender.accepted = sender.taken) ∧
      (WholeOrOff options' → receiver.Quiet →
        (tunnelOf receiver.engine).inStream I = [] →
        (ds.flatMap Prod.snd).map (chunk I) = written (tunnelOf sender.engine) →
        receiver.packets = sender.accepted.map (·.data)) := by
  intro sender receiver
  have hall : messages (pushed (tunnelOf receiver.engine)) ++
      ((tunnelOf receiver.engine).inStream I).filterMap I.message =
        (sender.accepted.map (·.data)).take (ds.flatMap Prod.snd).length :=
    received_connection I hs hr cipherSuite cipherSuite' options options' hops hd hchunks
  refine ⟨?_, fun hp => (Connection.unqueued_run options _ sends hp).taken, ?_⟩
  · obtain ⟨_, _, _, hpushed⟩ := runs_tunnel hr cipherSuite' options' receives
    have hin := Connection.inTurn_run (Connection.inTurn_start options' _) hraise hturn
    have hhanded : ((connect cipherSuite' options' r).handedOut receives).filterMap
        EngineEvent.message? <+: messages (pushed (tunnelOf receiver.engine)) := by
      rw [← messages_crossed, hpushed]
      exact (List.prefix_append _ _).filterMap _
    have hfirst : messages (pushed (tunnelOf receiver.engine)) <+: sender.accepted.map (·.data) := by
      refine List.IsPrefix.trans ?_ (List.take_prefix (ds.flatMap Prod.snd).length _)
      exact ⟨_, hall⟩
    exact (hin.packets.trans hhanded).trans hfirst
  · intro hsize hquiet hempty hwhole
    obtain ⟨_, hnone⟩ := fed_at_rest hr cipherSuite' hsize hraise hquiet
    have hcalls := calls_at_rest hr cipherSuite' hraise hturn hquiet hnone
    have hpackets : receiver.packets = messages (pushed (tunnelOf receiver.engine)) := by
      rw [Connection.packets_eq, hcalls, Connection.messages_isCall, messages_crossed]
    have hlength : (ds.flatMap Prod.snd).length = (sender.accepted.map (·.data)).length := by
      have hlen := congrArg List.length hwhole
      rw [(written_connection hs cipherSuite options sends).1] at hlen
      rwa [List.length_map, List.length_map] at hlen
    rw [hempty, List.filterMap_nil, List.append_nil, hlength, List.take_length] at hall
    exact hpackets.trans hall

end Ends

section Two

open Direct.DirectTunnel (Op waitingIn)
open Direct.Script (dialer waitingMessages)

instance : DecidableEq Direct.Script.layers.sctp.Chunks :=
  inferInstanceAs (DecidableEq (Direct.Ppi × Option Bytes))

instance (t : DirectTunnel Direct.Script.layers) (d : Delivery Direct.Script.layers) :
    Decidable (HandsOver waitingMessages t d) := inferInstanceAs (Decidable (_ = _))

/-- The chunks that a datagram brings. -/
def broughtBy : Op → List Direct.Script.layers.sctp.Chunks
  | .receive _ [23, 3, b, 3, b'] =>
    [((.binary, some [b]) : Direct.Ppi × Option Bytes), ((.binary, some [b']) : Direct.Ppi × Option Bytes)]
  | _ => []

/-- Batches of four events. -/
def fours : ResolvedOptions := { Script.batched with eventBatchSize := .finite 4 }

def receiving : Connection (engine scripted) := connect (fun _ _ => none) fours dialer

def deliveries : List (Delivery Direct.Script.layers) :=
  (tunnelOps receiving readsTwo).map fun op => (op, broughtBy op)

theorem end_to_end_two : (run step receiving readsTwo).packets = [[0], [7]] := by
  have hsent : ((run step (connect (fun _ _ => none) Script.batched dialer) sendsTwo).accepted.map
      (·.data)) = [[0], [7]] := by decide +kernel
  have hchunks : (deliveries.flatMap Prod.snd).map (chunk waitingMessages) =
      written (tunnelOf (run step (connect (fun _ _ => none) Script.batched dialer) sendsTwo).engine) := by
    decide +kernel
  have hops : deliveries.map Prod.fst = tunnelOps receiving readsTwo := by
    rw [deliveries, List.map_map]
    exact List.map_id _
  have hfirst : (deliveries.flatMap Prod.snd).map (chunk waitingMessages) <+:
      written (tunnelOf (run step (connect (fun _ _ => none) Script.batched dialer) sendsTwo).engine) :=
    ⟨[], by rw [List.append_nil, hchunks]⟩
  have hraise : ∀ l ∈ readsTwo, l.isRaise = false := by decide +kernel
  have h := end_to_end waitingMessages Direct.Script.build_dialer Direct.Script.build_dialer
    (fun _ _ => none) (fun _ _ => none) Script.batched fours hraise (by decide +kernel) hops
    (by decide +kernel) hfirst
  rw [← hsent]
  exact h.2.2 (fun _ => ⟨by decide +kernel, by decide +kernel⟩)
    ⟨by decide +kernel, by decide +kernel, by decide +kernel, by decide +kernel⟩ (by decide +kernel)
    hchunks

end Two

end RtcTunnel.Stack
