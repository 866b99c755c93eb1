import RtcTunnel.Base.Mailbox
import RtcTunnel.Direct.Pump

/-!
# Layers that accumulate

What a layer still has to hand out is one thing, what it makes of the next
datagram another. `Accumulates` says of the layers that the second does not
depend on how much of the first has been polled: a core of each layer decides,
polling keeps the core, and an association appends what a datagram adds. Two
tunnels that differ only in what was polled then stay so, and each is a mailbox.
-/

namespace RtcTunnel.Direct

open RtcTunnel.Core
open RtcTunnel.Base (Mailbox)

set_option autoImplicit false

/-- A reading of the layers: the core that decides what a datagram adds, and what waits
in an association. -/
structure Views (L : Layers) where
  IceCore : Type
  DtlsCore : Type
  EndpointCore : Type
  AssociationCore : Type
  ice : L.ice.Agent → IceCore
  dtls : L.dtls.Endpoint → DtlsCore
  endpoint : L.sctp.Endpoint → EndpointCore
  core : L.sctp.Association → AssociationCore
  notices : L.sctp.Association → List SctpEvent
  waiting : UInt16 → L.sctp.Association → List L.sctp.Chunks
  /-- The notices and messages that an event for the association adds. -/
  added : AssociationCore → L.sctp.AssociationEvent →
    List SctpEvent × (UInt16 → List L.sctp.Chunks)

/-- The association hands out nothing of what the views tell. -/
structure Views.Keeps {L : Layers} (V : Views L) (a b : L.sctp.Association) : Prop where
  core : V.core b = V.core a
  notices : V.notices b = V.notices a
  waiting : ∀ id, V.waiting id b = V.waiting id a

theorem Views.Keeps.refl {L : Layers} {V : Views L} (a : L.sctp.Association) : V.Keeps a a :=
  ⟨rfl, rfl, fun _ => rfl⟩

theorem Views.Keeps.trans {L : Layers} {V : Views L} {a b c : L.sctp.Association}
    (h : V.Keeps a b) (h' : V.Keeps b c) : V.Keeps a c :=
  ⟨h'.core.trans h.core, h'.notices.trans h.notices, fun id => (h'.waiting id).trans (h.waiting id)⟩

/-- **What is assumed of the layers.** -/
structure Accumulates {L : Layers} (V : Views L) : Prop where
  iceRead : ∀ a b, V.ice a = V.ice b → ∀ now localAddr remote datagram,
    V.ice (L.ice.handleRead a now localAddr remote datagram).1 =
      V.ice (L.ice.handleRead b now localAddr remote datagram).1
  pairSelected : ∀ a b, V.ice a = V.ice b → L.ice.pairSelected a = L.ice.pairSelected b
  iceEvents : ∀ a, V.ice (L.ice.events.poll a).2 = V.ice a
  iceWrites : ∀ a, V.ice (L.ice.writes.poll a).2 = V.ice a
  dtlsRead : ∀ d e, V.dtls d = V.dtls e → ∀ now remote datagram,
    V.dtls (L.dtls.read d now remote datagram).1 = V.dtls (L.dtls.read e now remote datagram).1 ∧
      (L.dtls.read d now remote datagram).2 = (L.dtls.read e now remote datagram).2
  dtlsWrite : ∀ d now remote raw, V.dtls (L.dtls.write d now remote raw).1 = V.dtls d
  dtlsTransmits : ∀ d, V.dtls (L.dtls.transmits.poll d).2 = V.dtls d
  endpointHandle : ∀ e f, V.endpoint e = V.endpoint f → ∀ now remote datagram,
    V.endpoint (L.sctp.handle e now remote datagram).1 =
        V.endpoint (L.sctp.handle f now remote datagram).1 ∧
      (L.sctp.handle e now remote datagram).2 = (L.sctp.handle f now remote datagram).2
  endpointEvent : ∀ e handle event,
    V.endpoint (L.sctp.handleEndpointEvent e handle event) = V.endpoint e
  handleEvent : ∀ a b, V.core a = V.core b → ∀ event,
    V.core (L.sctp.handleEvent a event) = V.core (L.sctp.handleEvent b event)
  noticesAdded : ∀ a event,
    V.notices (L.sctp.handleEvent a event) = V.notices a ++ (V.added (V.core a) event).1
  waitingAdded : ∀ id a event,
    V.waiting id (L.sctp.handleEvent a event) = V.waiting id a ++ (V.added (V.core a) event).2 id
  /-- A message that can be read is announced. -/
  announced : ∀ core event id, (V.added core event).2 id ≠ [] →
    .readable id ∈ (V.added core event).1
  announcedNew : ∀ e now remote datagram handle a id,
    (L.sctp.handle e now remote datagram).2 = some (handle, .newAssociation a) →
      V.waiting id a ≠ [] → .readable id ∈ V.notices a
  events : L.sctp.events.Queues V.notices
  eventsCore : ∀ a, V.core (L.sctp.events.poll a).2 = V.core a
  eventsWaiting : ∀ id a, V.waiting id (L.sctp.events.poll a).2 = V.waiting id a
  endpointEvents : ∀ a, V.Keeps a (L.sctp.endpointEvents.poll a).2
  transmits : ∀ now a, V.Keeps a ((L.sctp.transmits now).poll a).2
  /-- `read_sctp` takes the messages of a stream in turn. -/
  read : ∀ id, (L.sctp.readSctp id).Queues (L.sctp.hasStream · id = true) (V.waiting id)
  readCore : ∀ id a, V.core ((L.sctp.readSctp id).poll a).2 = V.core a
  readNotices : ∀ id a, V.notices ((L.sctp.readSctp id).poll a).2 = V.notices a
  noStream : ∀ id a, L.sctp.hasStream a id = false → V.waiting id a = []

namespace DirectTunnel

variable {L : Layers}

/-- What a chunk of a stream decodes to; `none` where `read_stream` fails on it. -/
def decodeChunk (L : Layers) (chunks : L.sctp.Chunks) : Option (List Event) :=
  match readChunk L chunks [] with
  | (out, .ok ()) => some out
  | (_, .error _) => none

/-- A round of the loop adds to the messages what it would start with. -/
theorem readChunk_append (c : L.sctp.Chunks) (msgs : List Event) :
    readChunk L c msgs = (msgs ++ (readChunk L c []).1, (readChunk L c []).2) := by
  unfold readChunk
  cases L.sctp.ppi c with
  | other => rw [List.append_nil]
  | binaryEmpty => rfl
  | stringEmpty => rfl
  | _ =>
    dsimp only
    cases L.sctp.toPayload c maxMessageSize with
    | ok payload => rfl
    | error e => rw [List.append_nil]

theorem readChunk_of_some {c : L.sctp.Chunks} {out : List Event} (h : decodeChunk L c = some out)
    (msgs : List Event) : readChunk L c msgs = (msgs ++ out, .ok ()) := by
  rw [readChunk_append]
  unfold decodeChunk at h
  split at h
  · rename_i hr
    cases h
    rw [hr]
  · cases h

theorem readChunk_of_none {c : L.sctp.Chunks} (h : decodeChunk L c = none) (msgs : List Event) :
    ∃ e, readChunk L c msgs = (msgs, .error e) := by
  unfold decodeChunk readChunk at h
  unfold readChunk
  cases hp : L.sctp.ppi c with
  | binary =>
    cases hq : L.sctp.toPayload c maxMessageSize with
    | ok payload =>
      rw [hp, hq] at h
      cases h
    | error e => exact ⟨_, rfl⟩
  | string =>
    cases hq : L.sctp.toPayload c maxMessageSize with
    | ok payload =>
      rw [hp, hq] at h
      cases h
    | error e => exact ⟨_, rfl⟩
  | _ =>
    rw [hp] at h
    cases h

/-- `reader` hands out what `read_sctp` does. -/
theorem reader_queues {id : UInt16} {P : L.sctp.Association → Prop}
    {view : L.sctp.Association → List L.sctp.Chunks} (hq : (L.sctp.readSctp id).Queues P view) :
    (reader L id).Queues P view where
  keep := hq.keep
  nil a hs hw := by
    obtain ⟨hp, hn⟩ := hq.nil a hs hw
    refine ⟨?_, hn⟩
    show configError "sctp read" ((L.sctp.readSctp id).poll a).1 = .ok none
    rw [hp]
    rfl
  cons a c cs hs hw := by
    obtain ⟨hp, hn⟩ := hq.cons a c cs hs hw
    refine ⟨?_, hn⟩
    show configError "sctp read" ((L.sctp.readSctp id).poll a).1 = .ok (some c)
    rw [hp]
    rfl

/-- The loop of `read_stream` is a reading of what waits on the stream. -/
theorem forEach_reader {id : UInt16} {P : L.sctp.Association → Prop}
    {view : L.sctp.Association → List L.sctp.Chunks} (hq : (L.sctp.readSctp id).Queues P view)
    (association : L.sctp.Association) (hs : P association) :
    ((reader L id).forEach (readChunk L) association []).1.2 =
        (Mailbox.read (decodeChunk L) (view association)).1 ∧
      view ((reader L id).forEach (readChunk L) association []).1.1 =
        (Mailbox.read (decodeChunk L) (view association)).2 :=
  Mailbox.forEach_read (decodeChunk L) (reader_queues hq)
    (fun _ _ b h => readChunk_of_some h b) (fun _ b h => readChunk_of_none h b) association [] hs

def notices (V : Views L) (t : DirectTunnel L) : List SctpEvent :=
  (t.association.map V.notices).getD []

def waiting (V : Views L) (t : DirectTunnel L) : List L.sctp.Chunks :=
  (t.association.map (V.waiting t.streamId)).getD []

/-- What waits for the next pump. -/
def mailbox (V : Views L) (t : DirectTunnel L) : Mailbox L.sctp.Chunks where
  lost := decide (.associationLost ∈ t.notices V)
  readable := decide (.readable t.streamId ∈ t.notices V)
  items := t.waiting V

/-- Two tunnels on which a datagram has the same effect. -/
structure Alike (V : Views L) (u b : DirectTunnel L) : Prop where
  ice : V.ice u.ice = V.ice b.ice
  dtls : V.dtls u.dtls = V.dtls b.dtls
  sctp : u.sctp.map V.endpoint = b.sctp.map V.endpoint
  association : u.association.map V.core = b.association.map V.core
  localAddr : u.localAddr = b.localAddr
  remoteAddr : u.remoteAddr = b.remoteAddr
  streamId : u.streamId = b.streamId
  epoch : u.epoch = b.epoch
  dtlsStarted : u.dtlsStarted = b.dtlsStarted
  channelDialed : u.channelDialed = b.channelDialed
  opened : u.opened = b.opened

variable {V : Views L}

theorem Alike.refl (t : DirectTunnel L) : Alike V t t := by
  constructor <;> rfl

theorem Alike.trans {a b c : DirectTunnel L} (h : Alike V a b) (h' : Alike V b c) : Alike V a c :=
  ⟨h.1.trans h'.1, h.2.trans h'.2, h.3.trans h'.3, h.4.trans h'.4, h.5.trans h'.5, h.6.trans h'.6,
    h.7.trans h'.7, h.8.trans h'.8, h.9.trans h'.9, h.10.trans h'.10, h.11.trans h'.11⟩

/-- The phases behind the opening. -/
structure Ready (t : DirectTunnel L) : Prop where
  dtlsStarted : t.dtlsStarted = true
  channelDialed : t.channelDialed = true
  opened : t.opened = true

theorem Alike.ready {u b : DirectTunnel L} (h : Alike V u b) (hb : b.Ready) : u.Ready :=
  ⟨h.dtlsStarted.trans hb.1, h.channelDialed.trans hb.2, h.opened.trans hb.3⟩

/-- A part of a pump that takes nothing out of the mailbox. -/
structure Keeps (V : Views L) (t r : DirectTunnel L) : Prop where
  alike : Alike V r t
  mailbox : r.mailbox V = t.mailbox V

theorem Keeps.refl (t : DirectTunnel L) : Keeps V t t := ⟨.refl t, rfl⟩

theorem Keeps.trans {a b c : DirectTunnel L} (h : Keeps V a b) (h' : Keeps V b c) : Keeps V a c :=
  ⟨h'.alike.trans h.alike, h'.mailbox.trans h.mailbox⟩

end DirectTunnel

end RtcTunnel.Direct
