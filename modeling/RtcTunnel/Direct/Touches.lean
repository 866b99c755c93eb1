import RtcTunnel.Direct.Lifecycle
import RtcTunnel.Direct.Parameters

/-!
# The calls taken apart

A `Touch` is one call into a layer, or one assignment between two of them, with the
guard under which the source reaches it. Every call of a tunnel is a sequence of
touches (`touches_call`), so what is to hold of a layer throughout a run is proved
of the calls into it, and nowhere else.
-/

namespace RtcTunnel.Direct

open RtcTunnel.Core
open RtcTunnel.Base (Outcome)
open RtcTunnel.Base.Poll (TrySource)
open Relation (ReflTransGen)

set_option autoImplicit false

/-- A call into an association that neither writes a message nor opens a stream. -/
inductive AssociationCall (S : SctpApi) : S.Association → S.Association → Prop where
  | events (a : S.Association) : AssociationCall S a (S.events.poll a).2
  | endpointEvents (a : S.Association) : AssociationCall S a (S.endpointEvents.poll a).2
  | handleEvent (a : S.Association) (event : S.AssociationEvent) :
      AssociationCall S a (S.handleEvent a event)
  | readSctp (id : UInt16) (a : S.Association) : AssociationCall S a ((S.readSctp id).poll a).2
  | transmits (now : Instant) (a : S.Association) :
      AssociationCall S a ((S.transmits now).poll a).2
  | handleTimeout (now : Instant) (a : S.Association) :
      AssociationCall S a (S.handleTimeout a now)

namespace DirectTunnel

variable {L : Layers}

/-- The DTLS endpoint is the one a read left that reported a completed handshake. -/
def HandshakeReported (t : DirectTunnel L) : Prop :=
  ∃ d now datagram events, L.dtls.read d now t.remoteAddr datagram = (t.dtls, .ok events) ∧
    .handshakeComplete ∈ events

/-- The SCTP endpoint is the one a datagram left that brought this association. -/
def AssociationReported (t : DirectTunnel L) (handle : L.sctp.Handle)
    (association : L.sctp.Association) : Prop :=
  ∃ endpoint endpoint' now datagram, t.sctp = some endpoint' ∧
    L.sctp.handle endpoint now t.remoteAddr datagram =
      (endpoint', some (handle, .newAssociation association))

inductive Touch : DirectTunnel L → DirectTunnel L → Prop where
  | clock (t : DirectTunnel L) (now : Instant) : Touch t { t with lastNow := now }
  | drop (t : DirectTunnel L) :
      Touch t { t with droppedDatagrams := saturatingSucc t.droppedDatagrams }
  | iceRead (t : DirectTunnel L) (now : Instant) (datagram : Bytes)
      (hd : isStun datagram = true) :
      Touch t { t with ice := (L.ice.handleRead t.ice now t.localAddr t.remoteAddr datagram).1 }
  | iceTimeout (t : DirectTunnel L) (now : Instant) :
      Touch t { t with ice := (L.ice.handleTimeout t.ice now).1 }
  | iceEvents (t : DirectTunnel L) :
      Touch t { t with ice := (L.ice.events.drain t.ice).2
                       trace := t.observed (L.ice.events.drain t.ice).1 }
  | iceWrites (t : DirectTunnel L) : Touch t t.drainIceWrites
  | iceDeadline (t : DirectTunnel L) : Touch t { t with ice := (L.ice.pollTimeout t.ice).2 }
  | iceClose (t : DirectTunnel L) : Touch t { t with ice := (L.ice.close t.ice).1 }
  | serve (t : DirectTunnel L) (hr : t.role = .answerer) (hp : L.ice.pairSelected t.ice = true)
      (hs : t.dtlsStarted = false) : Touch t { t with dtlsStarted := true }
  | connect (t : DirectTunnel L) (config : HandshakeConfig) (hr : t.role = .offerer)
      (hc : t.dtlsConfig = some config) (hp : L.ice.pairSelected t.ice = true)
      (hs : t.dtlsStarted = false) (d : L.dtls.Endpoint) (ok : Bool)
      (hd : (L.dtls.connect t.dtls t.lastNow t.remoteAddr config).1 = d)
      (hok : (L.dtls.connect t.dtls t.lastNow t.remoteAddr config).2.isOk = ok) :
      Touch t ({ t with dtls := d, dtlsStarted := ok }.record (.dtlsConnect t.remoteAddr ok))
  | dtlsRead (t : DirectTunnel L) (now : Instant) (datagram : Bytes)
      (hp : L.ice.pairSelected t.ice = true) :
      Touch t { t with dtls := (L.dtls.read t.dtls now t.remoteAddr datagram).1 }
  | handshake (t : DirectTunnel L) (now : Instant) (hr : t.HandshakeReported)
      (hs : t.dtlsStarted = true ∨ t.role = .offerer) :
      Touch t ({ t with dtlsConnected := true, trace := t.trace.observeDtls (t.ms now) }.record
        (.handshakeComplete (L.dtls.peerCertificates t.dtls t.remoteAddr)))
  | dtlsWrite (t : DirectTunnel L) (raw : Bytes) (hs : t.dtlsStarted = true) :
      Touch t { t with dtls := (L.dtls.write t.dtls t.lastNow t.remoteAddr raw).1 }
  | dtlsTimeout (t : DirectTunnel L) (now : Instant) (hs : t.dtlsStarted = true) :
      Touch t { t with dtls := (L.dtls.handleTimeout t.dtls t.remoteAddr now).1 }
  | dtlsTransmits (t : DirectTunnel L) : Touch t t.drainDtlsTransmits
  | sctpConnect (t : DirectTunnel L) (endpoint : L.sctp.Endpoint) (handle : L.sctp.Handle)
      (association : L.sctp.Association) (hr : t.role = .offerer) (hd : t.dtlsConnected = true)
      (he : t.sctp = none)
      (hc : L.sctp.connect (L.sctp.new none) t.lastNow t.transportConfig t.remoteAddr =
        (endpoint, .ok (handle, association))) :
      Touch t ({ t with sctp := some endpoint, association := some association
                        associationHandle := some handle }.record (.sctpConnect true))
  | sctpRefused (t : DirectTunnel L) (endpoint : L.sctp.Endpoint) (hr : t.role = .offerer)
      (hd : t.dtlsConnected = true) (he : t.sctp = none) :
      Touch t ({ t with sctp := some endpoint }.record (.sctpConnect false))
  | sctpServe (t : DirectTunnel L) (hr : t.role = .answerer) (hd : t.dtlsConnected = true)
      (he : t.sctp = none) :
      Touch t { t with sctp := some (L.sctp.new (some t.transportConfig))
                       sctpConfig := some t.transportConfig }
  | sctpHandle (t : DirectTunnel L) (endpoint : L.sctp.Endpoint) (now : Instant)
      (datagram : Bytes) (he : t.sctp = some endpoint) :
      Touch t { t with sctp := some (L.sctp.handle endpoint now t.remoteAddr datagram).1 }
  | accept (t : DirectTunnel L) (handle : L.sctp.Handle) (association : L.sctp.Association)
      (hr : t.AssociationReported handle association) :
      Touch t ({ t with association := some association
                        associationHandle := some handle }.record .newAssociation)
  | endpointEvent (t : DirectTunnel L) (endpoint : L.sctp.Endpoint) (handle : L.sctp.Handle)
      (event : L.sctp.EndpointEvent) (he : t.sctp = some endpoint)
      (hh : t.associationHandle = some handle) :
      Touch t { t with sctp := some (L.sctp.handleEndpointEvent endpoint handle event) }
  | association (t : DirectTunnel L) (association next : L.sctp.Association)
      (ha : t.association = some association) (hc : AssociationCall L.sctp association next) :
      Touch t { t with association := some next }
  | connected (t : DirectTunnel L) (hs : t.dtlsStarted = true)
      (ha : t.association.isSome = true) : Touch t t.observeConnected
  | finish (t : DirectTunnel L) (reason : CloseReason) (hf : t.finished = false)
      (hr : reason ≠ .failure) : Touch t ({ t with finished := true }.push (.closed reason))
  | messages (t : DirectTunnel L) (msgs : List Bytes) (ha : t.association.isSome = true) :
      Touch t (t.pushAll (msgs.map .message))
  | dialNothing (t : DirectTunnel L) (hc : t.sctpConnected = true)
      (hd : t.channelDialed = false) (ha : t.association = none) :
      Touch t { t with channelDialed := true }
  | openStream (t : DirectTunnel L) (association next : L.sctp.Association) (ok : Bool)
      (hc : t.sctpConnected = true) (hd : t.channelDialed = false)
      (ha : t.association = some association)
      (hn : (L.sctp.openStream association t.streamId .binary).1 = next)
      (hok : (L.sctp.openStream association t.streamId .binary).2.isOk = ok) :
      Touch t ({ t with channelDialed := true, association := some next }.record
        (.openStream t.streamId .binary ok))
  | setReliability (t : DirectTunnel L) (association next : L.sctp.Association) (ok : Bool)
      (hd : t.channelDialed = true) (ha : t.association = some association)
      (hn : (L.sctp.setReliabilityParams association t.streamId (!t.ordered) t.reliability.1
        t.reliability.2).1 = next) :
      Touch t ({ t with association := some next }.record
        (.setReliabilityParams (!t.ordered) t.reliability.1 t.reliability.2 ok))
  | «open» (t : DirectTunnel L) (hc : t.sctpConnected = true) (hd : t.channelDialed = true)
      (ho : t.opened = false) :
      Touch t ({ t with opened := true, trace := t.trace.observeOpen (t.ms t.lastNow) }.push
        .opened)
  | pollEvent (t : DirectTunnel L) : Touch t t.pollEvent.2

/-- Some touches lead from one tunnel to the other. -/
def Touches (t r : DirectTunnel L) : Prop := ReflTransGen Touch t r

theorem Touches.refl (t : DirectTunnel L) : t.Touches t := ReflTransGen.refl

theorem Touches.trans {a b c : DirectTunnel L} (h : a.Touches b) (h' : b.Touches c) :
    a.Touches c := ReflTransGen.trans h h'

theorem Touch.one {t r : DirectTunnel L} (h : Touch t r) : t.Touches r := ReflTransGen.single h

theorem Touches.touch {a b c : DirectTunnel L} (h : a.Touches b) (h' : Touch b c) :
    a.Touches c := ReflTransGen.tail h h'

/-- What every touch keeps, every sequence of touches keeps. -/
theorem Touches.keeps {I : DirectTunnel L → Prop} (keep : ∀ a b, Touch a b → I a → I b)
    {t r : DirectTunnel L} (h : t.Touches r) (ht : I t) : I r :=
  Base.Run.moves_invariant keep h ht

theorem touches_startDtls (t : DirectTunnel L) (hp : L.ice.pairSelected t.ice = true)
    (hs : t.dtlsStarted = false) : t.Touches t.startDtls := by
  unfold startDtls activateDtls
  split
  · rename_i hr
    exact (Touch.serve t hr hp hs).one
  · rename_i hr
    split
    · have hsame : { t with dtlsStarted := false } = t := by rw [← hs]
      rw [hsame]
      exact .refl t
    · rename_i config hc
      exact (Touch.connect t config hr hc hp hs _ _ rfl rfl).one

theorem touches_startSctp (t : DirectTunnel L) (hd : t.dtlsConnected = true)
    (he : t.sctp = none) : t.Touches t.startSctp.1 := by
  unfold startSctp
  split
  · rename_i hr
    dsimp only
    split
    · rename_i handle association hc
      exact (Touch.sctpConnect t _ handle association hr hd he (Prod.ext rfl hc)).one
    · exact (Touch.sctpRefused t _ hr hd he).one
  · rename_i hr
    exact (Touch.sctpServe t hr hd he).one

theorem touches_feedSctp (t : DirectTunnel L) (now : Instant) (datagram : Bytes) :
    t.Touches (t.feedSctp now datagram) := by
  unfold feedSctp
  split
  · exact .refl t
  · rename_i endpoint he
    have hh := (Touch.sctpHandle t endpoint now datagram he).one
    dsimp only
    split
    · rename_i handle association hr
      exact hh.touch (.accept _ handle association
        ⟨endpoint, _, now, datagram, rfl, Prod.ext rfl hr⟩)
    · rename_i handle event hr
      cases ha : t.association with
      | none =>
        have hn : { t with sctp := some (L.sctp.handle endpoint now t.remoteAddr datagram).1 } =
            { t with sctp := some (L.sctp.handle endpoint now t.remoteAddr datagram).1,
                     association := none } := by rw [← ha]
        rw [Option.map_none, ← hn]
        exact hh
      | some association => exact hh.touch (.association _ association _ ha (.handleEvent _ event))
    · exact hh
    · exact hh

theorem dtls_startSctp (t : DirectTunnel L) :
    t.startSctp.1.dtls = t.dtls ∧ t.startSctp.1.dtlsStarted = t.dtlsStarted := by
  unfold startSctp
  split
  · dsimp only
    split <;> exact ⟨rfl, rfl⟩
  · exact ⟨rfl, rfl⟩

theorem dtls_feedDtlsEvent (t : DirectTunnel L) (now : Instant) (e : DtlsEvent) :
    (t.feedDtlsEvent now e).1.dtls = t.dtls ∧
      (t.feedDtlsEvent now e).1.dtlsStarted = t.dtlsStarted := by
  cases e with
  | handshakeComplete =>
    unfold feedDtlsEvent
    dsimp only
    split
    · exact dtls_startSctp _
    · exact ⟨rfl, rfl⟩
  | applicationData data =>
    show (t.feedSctp now data).dtls = t.dtls ∧ (t.feedSctp now data).dtlsStarted = t.dtlsStarted
    unfold feedSctp
    split
    · exact ⟨rfl, rfl⟩
    · dsimp only
      split <;> exact ⟨rfl, rfl⟩
  | other => exact ⟨rfl, rfl⟩

theorem touches_feedDtlsEvent (t : DirectTunnel L) (now : Instant) (e : DtlsEvent)
    (hs : t.dtlsStarted = true ∨ t.role = .offerer)
    (hr : e = .handshakeComplete → t.HandshakeReported) :
    t.Touches (t.feedDtlsEvent now e).1 := by
  cases e with
  | handshakeComplete =>
    have hh := (Touch.handshake t now (hr rfl) hs).one
    unfold feedDtlsEvent
    dsimp only
    split
    · rename_i he
      exact hh.trans (touches_startSctp _ rfl (Option.isNone_iff_eq_none.mp he))
    · exact hh
  | applicationData data => exact touches_feedSctp t now data
  | other => exact .refl t

theorem touches_feedDtlsEvents (now : Instant) (es : List DtlsEvent) (t : DirectTunnel L)
    (hs : t.dtlsStarted = true ∨ t.role = .offerer)
    (hr : .handshakeComplete ∈ es → t.HandshakeReported) :
    t.Touches (feedDtlsEvents now es t).1 := by
  induction es generalizing t with
  | nil => exact .refl t
  | cons e es ih =>
    have he := touches_feedDtlsEvent t now e hs fun h => hr (h ▸ List.mem_cons_self ..)
    obtain ⟨hd, hst⟩ := dtls_feedDtlsEvent t now e
    have hp := parameters_feedDtlsEvent t now e
    rw [feedDtlsEvents]
    generalize t.feedDtlsEvent now e = r at he hd hst hp
    obtain ⟨s, _ | _⟩ := r
    · exact he
    · have hd : s.dtls = t.dtls := hd
      have hst : s.dtlsStarted = t.dtlsStarted := hst
      have ha : s.remoteAddr = t.remoteAddr := congrArg Parameters.remoteAddr hp
      have hrole : s.role = t.role := congrArg Parameters.role hp
      refine he.trans (ih s (by rw [hst, hrole]; exact hs) fun hm => ?_)
      obtain ⟨d, i, datagram, events, hread, hin⟩ := hr (List.mem_cons_of_mem _ hm)
      exact ⟨d, i, datagram, events, by rw [ha, hd, hread], hin⟩

theorem touches_feedDtls (t : DirectTunnel L) (now : Instant) (datagram : Bytes)
    (hp : L.ice.pairSelected t.ice = true) (hs : t.dtlsStarted = true ∨ t.role = .offerer) :
    t.Touches (t.feedDtls now datagram).1 := by
  have hread := (Touch.dtlsRead t now datagram hp).one
  unfold feedDtls
  dsimp only
  split
  · exact hread
  · rename_i events he
    refine hread.trans (touches_feedDtlsEvents now events _ hs fun hm => ?_)
    exact ⟨t.dtls, now, datagram, events, Prod.ext rfl he, hm⟩

/-- The loops over an association are calls into it. -/
theorem touches_association (t : DirectTunnel L) {association next : L.sctp.Association}
    (ha : t.association = some association)
    (h : ReflTransGen (AssociationCall L.sctp) association next) :
    t.Touches { t with association := some next } := by
  induction h with
  | refl =>
    have hsame : { t with association := some association } = t := by rw [← ha]
    rw [hsame]
    exact .refl t
  | tail _ hc ih => exact ih.touch (.association _ _ _ rfl hc)

theorem calls_polled (association : L.sctp.Association) :
    ReflTransGen (AssociationCall L.sctp) association
      (L.sctp.endpointEvents.drain (L.sctp.events.drain association).2).2 := by
  have he : ReflTransGen (AssociationCall L.sctp) association
      (L.sctp.events.drain association).2 :=
    L.sctp.events.drain_induction (P := ReflTransGen (AssociationCall L.sctp) association)
      (fun a h => h.tail (.events a)) .refl
  exact L.sctp.endpointEvents.drain_induction
    (P := ReflTransGen (AssociationCall L.sctp) association)
    (fun a h => h.tail (.endpointEvents a)) he

theorem touches_endpointEvents (t : DirectTunnel L) (endpoint : L.sctp.Endpoint)
    (handle : L.sctp.Handle) (events : List L.sctp.EndpointEvent)
    (he : t.sctp = some endpoint) (hh : t.associationHandle = some handle) :
    t.Touches { t with sctp := some (events.foldl
      (fun e ev => L.sctp.handleEndpointEvent e handle ev) endpoint) } := by
  induction events generalizing t endpoint with
  | nil =>
    have hsame : { t with sctp := some endpoint } = t := by rw [← he]
    rw [List.foldl_nil, hsame]
    exact .refl t
  | cons ev events ih =>
    exact (Touch.endpointEvent t endpoint handle ev he hh).one.trans (ih _ _ rfl hh)

/-- The endpoint events on their way to the endpoint, if there are both. -/
theorem touches_toEndpoint (t : DirectTunnel L) (events : List L.sctp.EndpointEvent)
    (sctp : Option L.sctp.Endpoint) (handle : Option L.sctp.Handle) (hs : t.sctp = sctp)
    (hh : t.associationHandle = handle) :
    t.Touches { t with sctp := sctp.map fun endpoint =>
      match handle with
      | some handle => events.foldl (fun e ev => L.sctp.handleEndpointEvent e handle ev) endpoint
      | none => endpoint } := by
  have hsame : { t with sctp := sctp } = t := by rw [← hs]
  cases sctp with
  | none =>
    rw [Option.map_none, hsame]
    exact .refl t
  | some endpoint =>
    cases handle with
    | none =>
      rw [Option.map_some, hsame]
      exact .refl t
    | some handle => exact touches_endpointEvents t endpoint handle events hs hh

theorem touches_pollAssociation (t : DirectTunnel L) : t.Touches t.pollAssociation.2 := by
  unfold pollAssociation
  split
  · exact .refl t
  · rename_i association ha
    exact (touches_association t ha (calls_polled association)).trans
      (touches_toEndpoint { t with association := some _ } _ t.sctp t.associationHandle rfl rfl)

theorem touches_finish (t : DirectTunnel L) {reason : CloseReason} (hr : reason ≠ .failure) :
    t.Touches (t.finish reason) := by
  unfold finish
  split
  · exact .refl t
  · rename_i hf
    exact (Touch.finish t reason (by simpa using hf) hr).one

theorem touches_readStream (t : DirectTunnel L) : t.Touches t.readStream.1 := by
  unfold readStream
  split
  · exact .refl t
  · rename_i association ha
    split
    · have hc : ReflTransGen (AssociationCall L.sctp) association
          ((reader L t.streamId).forEach (readChunk L) association []).1.1 :=
        TrySource.forEach_induction (reader L t.streamId) (readChunk L)
          (P := fun a _ => ReflTransGen (AssociationCall L.sctp) association a)
          (fun a _ h => h.tail (.readSctp t.streamId a)) (fun _ _ _ h => h) .refl
      obtain ⟨msgs, hm⟩ := forEach_messages L t.streamId association
      dsimp only
      rw [hm]
      exact (touches_association t ha hc).touch (.messages _ msgs rfl)
    · exact .refl t

theorem touches_openStream (t : DirectTunnel L) (hc : t.sctpConnected = true)
    (hd : t.channelDialed = false) : t.Touches t.openStream.1 := by
  unfold openStream
  dsimp only
  split
  · rename_i ha
    exact (Touch.dialNothing t hc hd ha).one
  · rename_i association ha
    cases hr : L.sctp.openStream association t.streamId .binary with
    | mk a r =>
      cases r with
      | error e =>
        exact (Touch.openStream t association a false hc hd ha (by rw [hr]) (by rw [hr]; rfl)).one
      | ok u =>
        have ho := (Touch.openStream t association a true hc hd ha (by rw [hr])
          (by rw [hr]; rfl)).one
        exact ho.touch (.setReliability _ a _ _ rfl rfl rfl)

theorem touches_writeRaws (t : DirectTunnel L) (raws : List Bytes) (hs : t.dtlsStarted = true) :
    t.Touches { t with dtls := (writeRaws L t.lastNow t.remoteAddr raws t.dtls).1 } := by
  induction raws generalizing t with
  | nil => exact .refl t
  | cons raw raws ih =>
    have hw := (Touch.dtlsWrite t raw hs).one
    rw [writeRaws]
    cases hr : (L.dtls.write t.dtls t.lastNow t.remoteAddr raw).2 with
    | error e => exact hw
    | ok u => exact hw.trans (ih { t with dtls := _ } hs)

theorem touches_drainSctpTransmits (t : DirectTunnel L) : t.Touches t.drainSctpTransmits.1 := by
  unfold drainSctpTransmits
  split
  · exact .refl t
  · rename_i association ha
    dsimp only
    refine TrySource.forEach_induction _ _
      (P := fun a d => t.Touches { t with association := some a, dtls := d }) ?_ ?_ ?_
    · intro a d h
      exact h.touch (.association _ a _ rfl (.transmits t.lastNow a))
    · intro a transmit d h
      cases transmit with
      | rawEncode raws =>
        dsimp only
        split
        · rename_i hs
          exact h.trans (touches_writeRaws { t with association := some a, dtls := d } raws hs)
        · exact h
      | other => exact h
    · have hsame : { t with association := some association, dtls := t.dtls } = t := by rw [← ha]
      rw [hsame]
      exact .refl t

theorem touches_maybeOpen (t : DirectTunnel L) : t.Touches t.maybeOpen := by
  unfold maybeOpen
  split
  · exact .refl t
  · rename_i ho
    split
    · rename_i h
      simp only [Bool.and_eq_true] at h
      exact (Touch.open t h.1 h.2 (by simpa using ho)).one
    · exact .refl t

theorem touches_handleTimeouts (t : DirectTunnel L) (now : Instant) :
    t.Touches (t.handleTimeouts now) := by
  have hi := (Touch.iceTimeout t now).one
  have ha : ∀ s : DirectTunnel L,
      s.Touches { s with association := s.association.map (L.sctp.handleTimeout · now) } := by
    intro s
    cases h : s.association with
    | none =>
      have hsame : { s with association := none } = s := by rw [← h]
      rw [Option.map_none, hsame]
      exact .refl s
    | some association => exact (Touch.association s association _ h (.handleTimeout now _)).one
  unfold handleTimeouts
  dsimp only
  split
  · rename_i hs
    exact (hi.touch (.dtlsTimeout _ now hs)).trans (ha _)
  · exact hi.trans (ha _)

theorem touches_nextDeadline (t : DirectTunnel L) : t.Touches t.nextDeadline.2 := by
  unfold nextDeadline
  split
  · exact .refl t
  · exact (Touch.iceDeadline t).one

/-- **Every call is a sequence of touches.** -/
theorem touches_call {t r : DirectTunnel L} (h : Call t r) : t.Touches r := by
  cases h with
  | clock now => exact (Touch.clock t now).one
  | iceRead now datagram hd => exact (Touch.iceRead t now datagram hd).one
  | startDtls hp hs => exact touches_startDtls t hp hs
  | feedDtls now datagram hd hp hs => exact touches_feedDtls t now datagram hp hs
  | drop => exact (Touch.drop t).one
  | drainIceEvents => exact drainIceEvents_eq t ▸ (Touch.iceEvents t).one
  | drainIceWrites => exact (Touch.iceWrites t).one
  | pollAssociation hs => exact touches_pollAssociation t
  | observeConnected hs ha => exact (Touch.connected t hs ha).one
  | finish reason hr => exact touches_finish t hr
  | readStream => exact touches_readStream t
  | openStream hc hd => exact touches_openStream t hc hd
  | drainSctpTransmits => exact touches_drainSctpTransmits t
  | drainDtlsTransmits => exact (Touch.dtlsTransmits t).one
  | maybeOpen => exact touches_maybeOpen t
  | handleTimeouts now => exact touches_handleTimeouts t now
  | closeIce => exact (Touch.iceClose t).one
  | pollEvent => exact (Touch.pollEvent t).one
  | nextDeadline => exact touches_nextDeadline t

theorem Calls.touches {t r : DirectTunnel L} (h : t.Calls r) : t.Touches r :=
  h.keeps (I := t.Touches) (fun _ _ hc ht => ht.trans (touches_call hc)) (.refl t)

/-- What every touch and the write of a message keep, every operation but a setter keeps. -/
theorem step_keeps_touch {I : DirectTunnel L → Prop} (touch : ∀ a b, Touch a b → I a → I b)
    {t : DirectTunnel L} {op : Op}
    (write : ∀ data w, op = .send data → Write data t w → I t → I w)
    (h : op.isSetting = false) (ht : I t) : I (t.step op) :=
  step_keeps (fun _ _ hc => (touches_call hc).keeps touch) write h ht

end DirectTunnel

end RtcTunnel.Direct
