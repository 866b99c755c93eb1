import RtcTunnel.Direct.Accumulate

/-!
# A datagram on two tunnels

Two open tunnels that are alike take a datagram the same way: what it adds to the
mailbox of one it adds to that of the other, and they stay alike.
-/

namespace RtcTunnel.Direct

open RtcTunnel.Core

set_option autoImplicit false

namespace DirectTunnel

variable {L : Layers} {V : Views L}

/-- What a part of an input adds to the mailbox. -/
structure Adds (V : Views L) (t r : DirectTunnel L) (fresh : Bool) (ns : List SctpEvent)
    (items : List L.sctp.Chunks) : Prop where
  notices : r.notices V = if fresh then ns else t.notices V ++ ns
  waiting : r.waiting V = if fresh then items else t.waiting V ++ items
  announced : items ≠ [] → .readable t.streamId ∈ ns
  log : ∃ es, r.log = t.log ++ es ∧ (.newAssociation ∈ es ↔ fresh = true)
  streamId : r.streamId = t.streamId

theorem Adds.nothing {t r : DirectTunnel L} (ha : r.association = t.association)
    (hid : r.streamId = t.streamId)
    (hl : ∃ es, r.log = t.log ++ es ∧ .newAssociation ∉ es) : Adds V t r false [] [] := by
  obtain ⟨es, hlog, hn⟩ := hl
  refine ⟨?_, ?_, fun h => absurd rfl h, ⟨es, hlog, by simp [hn]⟩, hid⟩
  · simp [DirectTunnel.notices, ha]
  · simp [DirectTunnel.waiting, ha, hid]

theorem Adds.trans {a b c : DirectTunnel L} {f f' : Bool} {ns ns' : List SctpEvent}
    {items items' : List L.sctp.Chunks} (h : Adds V a b f ns items)
    (h' : Adds V b c f' ns' items') :
    Adds V a c (f || f') (if f' then ns' else ns ++ ns') (if f' then items' else items ++ items') := by
  obtain ⟨es, hes, hf⟩ := h.log
  obtain ⟨es', hes', hf'⟩ := h'.log
  have hann := h'.announced
  rw [h.streamId] at hann
  refine ⟨?_, ?_, ?_, ⟨es ++ es', ?_, ?_⟩, h'.streamId.trans h.streamId⟩
  · rw [h'.notices, h.notices]
    cases f <;> cases f' <;> simp
  · rw [h'.waiting, h.waiting]
    cases f <;> cases f' <;> simp
  · cases f' with
    | true => exact hann
    | false =>
      simp only [Bool.false_eq_true, if_false]
      intro hne
      by_cases hi : items = []
      · exact List.mem_append_right _ (hann fun hi' => hne (by rw [hi, hi']; rfl))
      · exact List.mem_append_left _ (h.announced hi)
  · rw [hes', hes, List.append_assoc]
  · rw [List.mem_append, hf, hf', Bool.or_eq_true]

/-- The same part of an input on two tunnels adds the same and leaves them alike. -/
structure Together (V : Views L) (u b u' b' : DirectTunnel L) : Prop where
  alike : Alike V u' b'
  adds : ∃ fresh ns items, Adds V u u' fresh ns items ∧ Adds V b b' fresh ns items

theorem Together.trans {u b u' b' u'' b'' : DirectTunnel L} (h : Together V u b u' b')
    (h' : Together V u' b' u'' b'') : Together V u b u'' b'' := by
  obtain ⟨f, ns, items, hu, hb⟩ := h.adds
  obtain ⟨f', ns', items', hu', hb'⟩ := h'.adds
  exact ⟨h'.alike, _, _, _, hu.trans hu', hb.trans hb'⟩

theorem Together.nothing {u b u' b' : DirectTunnel L} (h : Alike V u' b')
    (hu : u'.association = u.association) (hb : b'.association = b.association)
    (hiu : u'.streamId = u.streamId) (hib : b'.streamId = b.streamId)
    (hlu : ∃ es, u'.log = u.log ++ es ∧ .newAssociation ∉ es)
    (hlb : ∃ es, b'.log = b.log ++ es ∧ .newAssociation ∉ es) : Together V u b u' b' :=
  ⟨h, false, [], [], .nothing hu hiu hlu, .nothing hb hib hlb⟩

section FeedSctp

variable {t : DirectTunnel L} {e : L.sctp.Endpoint} {now : Instant} {datagram : Bytes}

theorem feedSctp_nothing (he : t.sctp = some e)
    (hr : (L.sctp.handle e now t.remoteAddr datagram).2 = none ∨
      ∃ handle, (L.sctp.handle e now t.remoteAddr datagram).2 = some (handle, .other)) :
    t.feedSctp now datagram =
      { t with sctp := some (L.sctp.handle e now t.remoteAddr datagram).1 } := by
  unfold feedSctp
  rw [he]
  dsimp only
  rcases hr with hr | ⟨handle, hr⟩ <;> rw [hr]

theorem feedSctp_new {handle : L.sctp.Handle} {association : L.sctp.Association}
    (he : t.sctp = some e) (hr : (L.sctp.handle e now t.remoteAddr datagram).2 =
      some (handle, .newAssociation association)) :
    t.feedSctp now datagram = { t with
      sctp := some (L.sctp.handle e now t.remoteAddr datagram).1
      association := some association
      associationHandle := some handle }.record .newAssociation := by
  unfold feedSctp
  rw [he]
  dsimp only
  rw [hr]

theorem feedSctp_event {handle : L.sctp.Handle} {event : L.sctp.AssociationEvent}
    (he : t.sctp = some e) (hr : (L.sctp.handle e now t.remoteAddr datagram).2 =
      some (handle, .associationEvent event)) :
    t.feedSctp now datagram = { t with
      sctp := some (L.sctp.handle e now t.remoteAddr datagram).1
      association := t.association.map (L.sctp.handleEvent · event) } := by
  unfold feedSctp
  rw [he]
  dsimp only
  rw [hr]

end FeedSctp

theorem isSome_feedSctp (t : DirectTunnel L) (now : Instant) (datagram : Bytes)
    (hs : t.sctp.isSome = true) : (t.feedSctp now datagram).sctp.isSome = true := by
  unfold feedSctp
  split
  · exact hs
  · dsimp only
    split <;> rfl

theorem feedDtls_error {t : DirectTunnel L} {now : Instant} {datagram : Bytes} {e : String}
    (hr : (L.dtls.read t.dtls now t.remoteAddr datagram).2 = .error e) :
    (t.feedDtls now datagram).1 =
      { t with dtls := (L.dtls.read t.dtls now t.remoteAddr datagram).1 } := by
  unfold feedDtls
  dsimp only
  rw [hr]

theorem feedDtls_ok {t : DirectTunnel L} {now : Instant} {datagram : Bytes}
    {events : List DtlsEvent}
    (hr : (L.dtls.read t.dtls now t.remoteAddr datagram).2 = .ok events) :
    (t.feedDtls now datagram).1 = (feedDtlsEvents now events
      { t with dtls := (L.dtls.read t.dtls now t.remoteAddr datagram).1 }).1 := by
  unfold feedDtls
  dsimp only
  rw [hr]

theorem ingest_eq (t : DirectTunnel L) (now : Instant) (datagram : Bytes) :
    ∃ n, t.ingest now datagram = { (t.dispatch now datagram).1 with droppedDatagrams := n } := by
  unfold ingest
  dsimp only
  split
  · exact ⟨_, rfl⟩
  · exact ⟨_, rfl⟩

section Input

variable (hA : Accumulates V)
include hA

theorem adds_event {t : DirectTunnel L} {x : L.sctp.Association} {id : UInt16}
    {core : V.AssociationCore} (hx : t.association = some x) (hid : t.streamId = id)
    (hcore : V.core x = core) (event : L.sctp.AssociationEvent) (sctp : Option L.sctp.Endpoint) :
    Adds V t { t with sctp := sctp, association := t.association.map (L.sctp.handleEvent · event) }
      false (V.added core event).1 ((V.added core event).2 id) := by
  subst hid hcore
  refine ⟨?_, ?_, hA.announced _ event _, ⟨[], (List.append_nil _).symm, by simp⟩, rfl⟩
  · rw [notices, notices, hx]
    exact hA.noticesAdded x event
  · rw [waiting, waiting, hx]
    exact hA.waitingAdded t.streamId x event

theorem together_feedSctp {u b : DirectTunnel L} (h : Alike V u b) (hs : u.sctp.isSome = true)
    (now : Instant) (datagram : Bytes) :
    Together V u b (u.feedSctp now datagram) (b.feedSctp now datagram) := by
  obtain ⟨e, he⟩ := Option.isSome_iff_exists.mp hs
  have hef := h.sctp
  rw [he] at hef
  obtain ⟨f, hf, hfe⟩ := Option.map_eq_some_iff.mp hef.symm
  obtain ⟨hnext, hres⟩ := hA.endpointHandle e f hfe.symm now u.remoteAddr datagram
  have hsctp : (some (L.sctp.handle e now u.remoteAddr datagram).1).map V.endpoint =
      (some (L.sctp.handle f now b.remoteAddr datagram).1).map V.endpoint := by
    rw [← h.remoteAddr]
    exact congrArg some hnext
  rw [h.remoteAddr] at hres
  have nothing : ((L.sctp.handle f now b.remoteAddr datagram).2 = none ∨
      ∃ handle, (L.sctp.handle f now b.remoteAddr datagram).2 = some (handle, .other)) →
      Together V u b (u.feedSctp now datagram) (b.feedSctp now datagram) := by
    intro hr
    have hu := feedSctp_nothing he (by rw [h.remoteAddr, hres]; exact hr)
    rw [hu, feedSctp_nothing hf hr]
    exact .nothing ⟨h.ice, h.dtls, hsctp, h.association, h.localAddr, h.remoteAddr, h.streamId,
      h.epoch, h.dtlsStarted, h.channelDialed, h.opened⟩ rfl rfl rfl rfl
      ⟨[], (List.append_nil _).symm, nofun⟩ ⟨[], (List.append_nil _).symm, nofun⟩
  cases hr : (L.sctp.handle f now b.remoteAddr datagram).2 with
  | none => exact nothing (.inl hr)
  | some result =>
    obtain ⟨handle, event⟩ := result
    cases event with
    | other => exact nothing (.inr ⟨handle, hr⟩)
    | newAssociation association =>
      have hu := feedSctp_new he (by rw [h.remoteAddr, hres]; exact hr)
      have hann := hA.announcedNew f now b.remoteAddr datagram handle association b.streamId hr
      rw [hu, feedSctp_new hf hr]
      refine ⟨⟨h.ice, h.dtls, hsctp, rfl, h.localAddr, h.remoteAddr, h.streamId, h.epoch,
        h.dtlsStarted, h.channelDialed, h.opened⟩, true, V.notices association,
        V.waiting b.streamId association, ?_, ?_⟩
      · refine ⟨rfl, ?_, h.streamId ▸ hann, ⟨[.newAssociation], rfl, by simp⟩, rfl⟩
        rw [← h.streamId]
        rfl
      · exact ⟨rfl, rfl, hann, ⟨[.newAssociation], rfl, by simp⟩, rfl⟩
    | associationEvent event =>
      have hu := feedSctp_event he (by rw [h.remoteAddr, hres]; exact hr)
      have hmap := h.association
      rw [hu, feedSctp_event hf hr]
      rcases Option.eq_none_or_eq_some u.association with ha | ⟨x, ha⟩
      · rw [ha] at hmap
        have hb : b.association = none := Option.map_eq_none_iff.mp hmap.symm
        refine .nothing ⟨h.ice, h.dtls, hsctp, ?_, h.localAddr, h.remoteAddr, h.streamId, h.epoch,
          h.dtlsStarted, h.channelDialed, h.opened⟩ ?_ ?_ rfl rfl
          ⟨[], (List.append_nil _).symm, nofun⟩ ⟨[], (List.append_nil _).symm, nofun⟩
        · rw [ha, hb]
        · rw [ha]
          rfl
        · rw [hb]
          rfl
      · rw [ha] at hmap
        obtain ⟨y, hy, hyx⟩ := Option.map_eq_some_iff.mp hmap.symm
        have hcore : (u.association.map (L.sctp.handleEvent · event)).map V.core =
            (b.association.map (L.sctp.handleEvent · event)).map V.core := by
          rw [ha, hy]
          exact congrArg some (hA.handleEvent x y hyx.symm event)
        exact ⟨⟨h.ice, h.dtls, hsctp, hcore, h.localAddr, h.remoteAddr, h.streamId, h.epoch,
          h.dtlsStarted, h.channelDialed, h.opened⟩, false, _, _,
          adds_event hA ha h.streamId hyx.symm event _, adds_event hA hy rfl rfl event _⟩

/-- One DTLS event. A handshake on a tunnel that has its endpoint starts nothing. -/
theorem together_feedDtlsEvent {u b : DirectTunnel L} (h : Alike V u b)
    (hs : u.sctp.isSome = true) (now : Instant) (event : DtlsEvent) :
    Together V u b (u.feedDtlsEvent now event).1 (b.feedDtlsEvent now event).1 ∧
      (u.feedDtlsEvent now event).2 = .ok () ∧ (b.feedDtlsEvent now event).2 = .ok () ∧
      (u.feedDtlsEvent now event).1.sctp.isSome = true := by
  have hsb : b.sctp.isSome = true := by
    rw [← Option.isSome_map (f := V.endpoint), ← h.sctp, Option.isSome_map]
    exact hs
  cases event with
  | other =>
    exact ⟨.nothing h rfl rfl rfl rfl ⟨[], (List.append_nil _).symm, nofun⟩
      ⟨[], (List.append_nil _).symm, nofun⟩, rfl, rfl, hs⟩
  | applicationData data =>
    have ht := together_feedSctp hA h hs now data
    exact ⟨ht, rfl, rfl, isSome_feedSctp u now data hs⟩
  | handshakeComplete =>
    have started : ∀ t : DirectTunnel L, t.sctp.isSome = true →
        t.feedDtlsEvent now .handshakeComplete = ({ t with
          dtlsConnected := true
          trace := t.trace.observeDtls (t.ms now) }.record
            (.handshakeComplete (L.dtls.peerCertificates t.dtls t.remoteAddr)), .ok ()) := by
      intro t ht
      unfold feedDtlsEvent
      have hn : t.sctp.isNone = false := by rw [Option.isNone_eq_false_iff]; exact ht
      simp only [record, hn, Bool.false_eq_true, if_false]
    rw [started u hs, started b hsb]
    refine ⟨.nothing ?_ rfl rfl rfl rfl ⟨[_], rfl, by simp⟩ ⟨[_], rfl, by simp⟩, rfl, rfl, hs⟩
    exact ⟨h.ice, h.dtls, h.sctp, h.association, h.localAddr, h.remoteAddr, h.streamId, h.epoch,
      h.dtlsStarted, h.channelDialed, h.opened⟩

theorem together_feedDtlsEvents (now : Instant) (events : List DtlsEvent) {u b : DirectTunnel L}
    (h : Alike V u b) (hs : u.sctp.isSome = true) :
    Together V u b (feedDtlsEvents now events u).1 (feedDtlsEvents now events b).1 := by
  induction events generalizing u b with
  | nil =>
    exact .nothing h rfl rfl rfl rfl ⟨[], (List.append_nil _).symm, nofun⟩
      ⟨[], (List.append_nil _).symm, nofun⟩
  | cons event events ih =>
    obtain ⟨ht, hu, hb, hs'⟩ := together_feedDtlsEvent hA h hs now event
    rw [feedDtlsEvents, feedDtlsEvents]
    revert ht hu hb hs'
    generalize u.feedDtlsEvent now event = r
    generalize b.feedDtlsEvent now event = q
    obtain ⟨r, x⟩ := r
    obtain ⟨q, y⟩ := q
    rintro ht rfl rfl hs'
    exact ht.trans (ih ht.alike hs')

theorem together_feedDtls {u b : DirectTunnel L} (h : Alike V u b) (hs : u.sctp.isSome = true)
    (now : Instant) (datagram : Bytes) :
    Together V u b (u.feedDtls now datagram).1 (b.feedDtls now datagram).1 := by
  obtain ⟨hd, hr⟩ := hA.dtlsRead u.dtls b.dtls h.dtls now u.remoteAddr datagram
  rw [h.remoteAddr] at hd hr
  have ha : Alike V { u with dtls := (L.dtls.read u.dtls now u.remoteAddr datagram).1 }
      { b with dtls := (L.dtls.read b.dtls now b.remoteAddr datagram).1 } := by
    refine ⟨h.ice, ?_, h.sctp, h.association, h.localAddr, h.remoteAddr, h.streamId, h.epoch,
      h.dtlsStarted, h.channelDialed, h.opened⟩
    rw [h.remoteAddr]
    exact hd
  have none : Together V u b { u with dtls := (L.dtls.read u.dtls now u.remoteAddr datagram).1 }
      { b with dtls := (L.dtls.read b.dtls now b.remoteAddr datagram).1 } :=
    .nothing ha rfl rfl rfl rfl ⟨[], (List.append_nil _).symm, nofun⟩
      ⟨[], (List.append_nil _).symm, nofun⟩
  cases hb : (L.dtls.read b.dtls now b.remoteAddr datagram).2 with
  | error e =>
    rw [feedDtls_error (by rw [h.remoteAddr, hr]; exact hb), feedDtls_error hb]
    exact none
  | ok events =>
    rw [feedDtls_ok (by rw [h.remoteAddr, hr]; exact hb), feedDtls_ok hb]
    exact none.trans (together_feedDtlsEvents hA now events none.alike hs)

theorem together_dispatch {u b : DirectTunnel L} (h : Alike V u b) (hb : b.Ready)
    (hs : u.sctp.isSome = true) (now : Instant) (datagram : Bytes) :
    Together V u b (u.dispatch now datagram).1 (b.dispatch now datagram).1 := by
  have hu := h.ready hb
  have same : Together V u b u b := .nothing h rfl rfl rfl rfl
    ⟨[], (List.append_nil _).symm, nofun⟩ ⟨[], (List.append_nil _).symm, nofun⟩
  have hsel := hA.pairSelected u.ice b.ice h.ice
  unfold dispatch
  rw [hsel]
  by_cases hst : isStun datagram = true
  · rw [if_pos hst, if_pos hst]
    refine .nothing ⟨?_, h.dtls, h.sctp, h.association, h.localAddr, h.remoteAddr, h.streamId,
      h.epoch, h.dtlsStarted, h.channelDialed, h.opened⟩ rfl rfl rfl rfl
      ⟨[], (List.append_nil _).symm, nofun⟩ ⟨[], (List.append_nil _).symm, nofun⟩
    show V.ice (L.ice.handleRead u.ice now u.localAddr u.remoteAddr datagram).1 =
      V.ice (L.ice.handleRead b.ice now b.localAddr b.remoteAddr datagram).1
    rw [h.localAddr, h.remoteAddr]
    exact hA.iceRead u.ice b.ice h.ice now _ _ datagram
  · rw [if_neg hst, if_neg hst]
    by_cases hd : isDtls datagram = true
    · rw [if_pos hd, if_pos hd]
      by_cases hp : L.ice.pairSelected b.ice = true
      · rw [if_pos hp, if_pos hp, if_pos hu.dtlsStarted, if_pos hb.dtlsStarted]
        exact together_feedDtls hA h hs now datagram
      · rw [if_neg hp, if_neg hp]
        exact same
    · rw [if_neg hd, if_neg hd]
      exact same

/-- **A datagram adds the same to two tunnels that are alike**, and leaves them alike. -/
theorem together_ingest {u b : DirectTunnel L} (h : Alike V u b) (hb : b.Ready)
    (hs : u.sctp.isSome = true) (now : Instant) (datagram : Bytes) :
    Together V u b (u.ingest now datagram) (b.ingest now datagram) := by
  obtain ⟨m, hm⟩ := ingest_eq u now datagram
  obtain ⟨n, hn⟩ := ingest_eq b now datagram
  obtain ⟨ha, fresh, ns, items, hau, hab⟩ := together_dispatch hA h hb hs now datagram
  rw [hm, hn]
  exact ⟨⟨ha.1, ha.2, ha.3, ha.4, ha.5, ha.6, ha.7, ha.8, ha.9, ha.10, ha.11⟩, fresh, ns, items,
    ⟨hau.1, hau.2, hau.3, hau.4, hau.5⟩, ⟨hab.1, hab.2, hab.3, hab.4, hab.5⟩⟩

end Input

end DirectTunnel

end RtcTunnel.Direct
