import RtcTunnel.Direct.Accumulate

/-!
# The pump of an open tunnel

Behind the opening a pump does three things to what waits: it takes every notice,
reads the stream if one of them says so, and finishes if one says that the
association is lost. That is a look at the mailbox.
-/

namespace RtcTunnel.Direct

open RtcTunnel.Core
open RtcTunnel.Base (Outcome Mailbox)
open RtcTunnel.Base.Poll (TrySource)

set_option autoImplicit false

namespace DirectTunnel

variable {L : Layers} {V : Views L}

theorem alike_observeSctpEvents (t : DirectTunnel L) (events : List SctpEvent) :
    Alike V (t.observeSctpEvents events) t := by
  unfold observeSctpEvents finish
  dsimp only
  repeat' split
  all_goals constructor <;> rfl

theorem keeps_of_association {t r : DirectTunnel L} {association : L.sctp.Association}
    (ha : t.association = some association)
    (hr : ∃ a d, r = { t with association := some a, dtls := d } ∧ V.Keeps association a ∧
      V.dtls d = V.dtls t.dtls) : Keeps V t r := by
  obtain ⟨a, d, rfl, hk, hd⟩ := hr
  have hcore : (some a).map V.core = t.association.map V.core := by
    rw [ha]
    exact congrArg some hk.core
  refine ⟨⟨rfl, hd, rfl, hcore, rfl, rfl, rfl, rfl, rfl, rfl, rfl⟩, ?_⟩
  have hn : ({ t with association := some a, dtls := d } : DirectTunnel L).notices V = t.notices V := by
    rw [notices, notices, ha]
    exact hk.notices
  have hw : ({ t with association := some a, dtls := d } : DirectTunnel L).waiting V = t.waiting V := by
    rw [waiting, waiting, ha]
    exact hk.waiting t.streamId
  rw [mailbox, mailbox, hn, hw]

theorem drainChannel_of_ready {t : DirectTunnel L} (h : t.Ready) : t.drainChannel = (t, .ok ()) := by
  rw [drainChannel, h.channelDialed]
  simp

theorem maybeOpen_of_ready {t : DirectTunnel L} (h : t.Ready) : t.maybeOpen = t := by
  rw [maybeOpen, if_pos h.opened]

theorem keeps_andThen {t : DirectTunnel L} {r : Outcome (DirectTunnel L) TunnelError}
    {k : DirectTunnel L → Outcome (DirectTunnel L) TunnelError}
    (hr : t.Ready → Keeps V t r.1) (hk : ∀ s, s.Ready → Keeps V s (k s).1) :
    t.Ready → Keeps V t (r.andThen k).1 :=
  Outcome.andThen_related (R := fun a b => a.Ready → Keeps V a b)
    (fun hab hbc ha => (hab ha).trans (hbc ((hab ha).alike.ready ha))) (s := t) hr hk

section Pump

variable (hA : Accumulates V)
include hA

theorem keeps_drainIceEvents (t : DirectTunnel L) : Keeps V t t.drainIceEvents := by
  have hi : V.ice (L.ice.events.drain t.ice).2 = V.ice t.ice :=
    L.ice.events.drain_induction (P := fun a => V.ice a = V.ice t.ice)
      (fun a h => (hA.iceEvents a).trans h) rfl
  rw [drainIceEvents_eq]
  exact ⟨⟨hi, rfl, rfl, rfl, rfl, rfl, rfl, rfl, rfl, rfl, rfl⟩, rfl⟩

theorem keeps_drainIceWrites (t : DirectTunnel L) : Keeps V t t.drainIceWrites := by
  have hi : V.ice (L.ice.writes.drain t.ice).2 = V.ice t.ice :=
    L.ice.writes.drain_induction (P := fun a => V.ice a = V.ice t.ice)
      (fun a h => (hA.iceWrites a).trans h) rfl
  exact ⟨⟨hi, rfl, rfl, rfl, rfl, rfl, rfl, rfl, rfl, rfl, rfl⟩, rfl⟩

theorem keeps_pumpIce (t : DirectTunnel L) (hs : t.dtlsStarted = true) : Keeps V t t.pumpIce := by
  have h := (keeps_drainIceEvents hA t).trans (keeps_drainIceWrites hA _)
  have hd : t.drainIceEvents.drainIceWrites.dtlsStarted = true := h.alike.dtlsStarted.trans hs
  unfold pumpIce
  simp only [hd, Bool.not_true, Bool.and_false, Bool.false_eq_true, if_false]
  exact h

theorem keeps_endpointEvents (association : L.sctp.Association) :
    V.Keeps association (L.sctp.endpointEvents.drain association).2 :=
  L.sctp.endpointEvents.drain_induction (P := V.Keeps association)
    (fun a h => h.trans (hA.endpointEvents a)) (.refl association)

/-- The association behind the two polling loops: its notices are gone. -/
theorem polled_views (association : L.sctp.Association) :
    V.core (polled L association) = V.core association ∧ V.notices (polled L association) = [] ∧
      ∀ id, V.waiting id (polled L association) = V.waiting id association := by
  have hk := keeps_endpointEvents hA (L.sctp.events.drain association).2
  have hc : V.core (L.sctp.events.drain association).2 = V.core association :=
    L.sctp.events.drain_induction (P := fun a => V.core a = V.core association)
      (fun a h => (hA.eventsCore a).trans h) rfl
  have hw : ∀ id, V.waiting id (L.sctp.events.drain association).2 = V.waiting id association :=
    fun id => L.sctp.events.drain_induction
      (P := fun a => V.waiting id a = V.waiting id association)
      (fun a h => (hA.eventsWaiting id a).trans h) rfl
  exact ⟨hk.core.trans hc, hk.notices.trans (hA.events.drain association).2,
    fun id => (hk.waiting id).trans (hw id)⟩

theorem sctpEvents_eq (t : DirectTunnel L) : t.sctpEvents = t.notices V := by
  unfold sctpEvents notices
  cases t.association with
  | none => rfl
  | some association => exact (hA.events.drain association).1

/-- The two polling loops take the notices and nothing else. -/
theorem alike_pollAssociation (t : DirectTunnel L) : Alike V t.pollAssociation.2 t ∧
    t.pollAssociation.2.notices V = [] ∧ t.pollAssociation.2.waiting V = t.waiting V := by
  cases ha : t.association with
  | none =>
    have he : t.pollAssociation.2 = t := by
      unfold pollAssociation
      rw [ha]
    rw [he]
    refine ⟨.refl t, ?_, rfl⟩
    rw [notices, ha]
    rfl
  | some association =>
    obtain ⟨hc, hn, hw⟩ := polled_views hA association
    have hp := pollAssociation_association t
    have hid : t.pollAssociation.2.streamId = t.streamId := (mute_pollAssociation t).steady.streamId
    have hsctp : t.pollAssociation.2.sctp.map V.endpoint = t.sctp.map V.endpoint := by
      have hf : ∀ (handle : L.sctp.Handle) (es : List L.sctp.EndpointEvent) (e : L.sctp.Endpoint),
          V.endpoint (es.foldl (fun e ev => L.sctp.handleEndpointEvent e handle ev) e) =
            V.endpoint e := by
        intro handle es
        induction es with
        | nil => exact fun _ => rfl
        | cons ev es ih => exact fun e => (ih _).trans (hA.endpointEvent e handle ev)
      unfold pollAssociation
      rw [ha]
      cases t.sctp with
      | none => rfl
      | some endpoint =>
        cases t.associationHandle with
        | none => rfl
        | some handle => exact congrArg some (hf handle _ endpoint)
    rw [ha] at hp
    have hcore : t.pollAssociation.2.association.map V.core = t.association.map V.core := by
      rw [hp, ha]
      exact congrArg some hc
    refine ⟨?_, ?_, ?_⟩
    · refine ⟨?_, ?_, hsctp, hcore, ?_, ?_, hid, ?_, ?_, ?_, ?_⟩
      all_goals
        unfold pollAssociation
        rw [ha]
    · rw [notices, hp]
      exact hn
    · rw [waiting, waiting, hp, ha, hid]
      exact hw t.streamId

theorem inbox_eq (id : UInt16) (association : L.sctp.Association) :
    inbox L id association = (Mailbox.read (decodeChunk L) (V.waiting id association)).1 := by
  cases hs : L.sctp.hasStream association id with
  | true =>
    rw [inbox, hs]
    exact (forEach_reader (hA.read id) association hs).1
  | false =>
    rw [inbox, hs, hA.noStream id association hs]
    rfl

theorem alike_readStream (t : DirectTunnel L) : Alike V t.readStream.1 t ∧
    t.readStream.1.notices V = t.notices V ∧
    t.readStream.1.waiting V = (Mailbox.read (decodeChunk L) (t.waiting V)).2 := by
  cases ha : t.association with
  | none =>
    have he : t.readStream.1 = t := by
      unfold readStream
      rw [ha]
    rw [he]
    refine ⟨.refl t, rfl, ?_⟩
    rw [waiting, ha]
    rfl
  | some association =>
    cases hs : L.sctp.hasStream association t.streamId with
    | false =>
      have he : t.readStream.1 = t := by
        unfold readStream
        rw [ha]
        dsimp only
        rw [hs]
        rfl
      rw [he]
      refine ⟨.refl t, rfl, ?_⟩
      rw [waiting, ha]
      dsimp only [Option.map_some, Option.getD_some]
      rw [hA.noStream _ _ hs]
      rfl
    | true =>
      have he : t.readStream.1 = { t with
          association := some ((reader L t.streamId).forEach (readChunk L) association []).1.1
          }.pushAll ((reader L t.streamId).forEach (readChunk L) association []).1.2 := by
        unfold readStream
        rw [ha]
        dsimp only
        rw [hs]
        rfl
      have hk := TrySource.forEach_induction (reader L t.streamId) (readChunk L)
        (P := fun a _ => V.core a = V.core association ∧ V.notices a = V.notices association)
        (fun a _ h => ⟨(hA.readCore t.streamId a).trans h.1, (hA.readNotices t.streamId a).trans h.2⟩)
        (fun _ _ _ h => h) (s := association) (b := []) ⟨rfl, rfl⟩
      have hw := (forEach_reader (hA.read t.streamId) association hs).2
      have hassoc : t.readStream.1.association =
          some ((reader L t.streamId).forEach (readChunk L) association []).1.1 := by rw [he]; rfl
      have hid : t.readStream.1.streamId = t.streamId := by rw [he]; rfl
      refine ⟨?_, ?_, ?_⟩
      · have hcore : t.readStream.1.association.map V.core = t.association.map V.core := by
          rw [hassoc, ha]
          exact congrArg some hk.1
        refine ⟨?_, ?_, ?_, hcore, ?_, ?_, hid, ?_, ?_, ?_, ?_⟩
        all_goals
          rw [he]
          rfl
      · rw [notices, notices, hassoc, ha]
        exact hk.2
      · rw [waiting, waiting, hassoc, ha, hid]
        exact hw

/-- `drain_sctp` empties the mailbox. -/
theorem alike_drainSctp (t : DirectTunnel L) : Alike V t.drainSctp.1 t ∧
    t.drainSctp.1.mailbox V = (t.mailbox V).emptied (decodeChunk L) := by
  obtain ⟨hp, hn, hw⟩ := alike_pollAssociation hA t
  have ho := (alike_observeSctpEvents t.pollAssociation.2 (t.notices V)).trans hp
  have hassoc := association_observeSctpEvents t.pollAssociation.2 (t.notices V)
  have hid := streamId_observeSctpEvents t.pollAssociation.2 (t.notices V)
  have hno : (t.pollAssociation.2.observeSctpEvents (t.notices V)).notices V = [] := by
    rw [notices, hassoc]
    exact hn
  have hwo : (t.pollAssociation.2.observeSctpEvents (t.notices V)).waiting V = t.waiting V := by
    rw [waiting, hassoc, hid]
    exact hw
  have hs := ho.streamId
  unfold drainSctp
  dsimp only
  rw [pollAssociation_events, sctpEvents_eq hA, hs, Mailbox.emptied, mailbox, mailbox]
  by_cases hr : .readable t.streamId ∈ t.notices V
  · obtain ⟨hra, hrn, hrw⟩ := alike_readStream hA (t.pollAssociation.2.observeSctpEvents (t.notices V))
    rw [if_pos hr, hrn, hno, hrw, hwo]
    exact ⟨hra.trans ho, by simp [hr]⟩
  · rw [if_neg hr, hno, hwo]
    exact ⟨ho, by simp [hr]⟩

theorem dtls_writeRaws (now : Instant) (remote : SocketAddr) (raws : List Bytes)
    (d : L.dtls.Endpoint) : V.dtls (writeRaws L now remote raws d).1 = V.dtls d := by
  induction raws generalizing d with
  | nil => rfl
  | cons raw raws ih =>
    rw [writeRaws, Outcome.andThen_unchanged V.dtls ih]
    exact hA.dtlsWrite d now remote raw

theorem keeps_drainSctpTransmits (t : DirectTunnel L) : Keeps V t t.drainSctpTransmits.1 := by
  unfold drainSctpTransmits
  split
  · exact .refl t
  · rename_i association ha
    refine keeps_of_association ha ⟨_, _, rfl, ?_⟩
    refine TrySource.forEach_induction _ _
      (P := fun a d => V.Keeps association a ∧ V.dtls d = V.dtls t.dtls) ?_ ?_ ⟨.refl _, rfl⟩
    · exact fun a d h => ⟨h.1.trans (hA.transmits t.lastNow a), h.2⟩
    · intro a transmit d h
      refine ⟨h.1, ?_⟩
      cases transmit with
      | rawEncode raws =>
        dsimp only
        split
        · exact (dtls_writeRaws hA _ _ raws d).trans h.2
        · exact h.2
      | other => exact h.2

theorem keeps_drainDtlsTransmits (t : DirectTunnel L) : Keeps V t t.drainDtlsTransmits := by
  have hd : V.dtls (L.dtls.transmits.drain t.dtls).2 = V.dtls t.dtls :=
    L.dtls.transmits.drain_induction (P := fun d => V.dtls d = V.dtls t.dtls)
      (fun d h => (hA.dtlsTransmits d).trans h) rfl
  exact ⟨⟨rfl, hd, rfl, rfl, rfl, rfl, rfl, rfl, rfl, rfl, rfl⟩, rfl⟩

/-- The stages behind `drain_sctp`, failing or not, take nothing out of the mailbox. -/
theorem keeps_stages (r : Outcome (DirectTunnel L) TunnelError) (h : r.1.Ready) :
    Keeps V r.1 ((r.andThen drainChannel).andThen drainSctpTransmits).1 := by
  refine keeps_andThen (keeps_andThen (fun _ => .refl _) ?_) ?_ h
  · intro s hs
    rw [drainChannel_of_ready hs]
    exact .refl s
  · exact fun s _ => keeps_drainSctpTransmits hA s

/-- **The pump of an open tunnel empties the mailbox** and changes nothing that the next
datagram depends on. -/
theorem alike_pump (t : DirectTunnel L) (h : t.Ready) : Alike V t.pump.1 t ∧
    t.pump.1.mailbox V = (t.mailbox V).emptied (decodeChunk L) := by
  have hi := keeps_pumpIce hA t h.dtlsStarted
  have hr := hi.alike.ready h
  obtain ⟨ha, hm⟩ := alike_drainSctp hA t.pumpIce
  have hk : Keeps V t.pumpIce.drainSctp.1 t.pump.1 := by
    rw [pump, hr.dtlsStarted]
    refine keeps_andThen (keeps_andThen (keeps_stages hA _) ?_) ?_ (ha.ready hr)
    · exact fun s _ => keeps_drainDtlsTransmits hA s
    · intro s hs
      rw [maybeOpen_of_ready hs]
      exact .refl s
  exact ⟨hk.alike.trans (ha.trans hi.alike), by rw [hk.mailbox, hm, hi.mailbox]⟩

/-- Nothing but datagrams leaves the last stage of an open tunnel. -/
theorem flushOut_datagrams (t : DirectTunnel L) (h : t.Ready) :
    ∀ e ∈ flushOut t, ∃ d, e = .sendDatagram d := by
  have hr := (keeps_pumpIce hA t h.dtlsStarted).alike.ready h
  have ha := (alike_drainSctp hA t.pumpIce).1
  have hk := keeps_stages hA t.pumpIce.drainSctp (ha.ready hr)
  have hs := (hk.alike.ready (ha.ready hr)).opened
  have hst : t.started = true := hr.dtlsStarted
  intro e he
  unfold flushOut flushed at he
  rw [hst] at he
  revert he hs
  generalize (t.pumpIce.drainSctp.andThen drainChannel).andThen drainSctpTransmits = r
  obtain ⟨s, x | u⟩ := r
  · intro _ he
    cases he
  · intro hs he
    have hs : s.opened = true := hs
    simp only [if_true, hs, Bool.not_true, Bool.false_and, Bool.false_eq_true, if_false,
      List.append_nil] at he
    obtain ⟨d, _, rfl⟩ := List.mem_map.mp he
    exact ⟨d, rfl⟩

theorem loses_eq (t : DirectTunnel L) (h : t.Ready) : t.loses = (t.mailbox V).lost := by
  have hst : t.started = true := ((keeps_pumpIce hA t h.dtlsStarted).alike.ready h).dtlsStarted
  rw [loses, hst, Bool.true_and, sctpEvents_eq hA, mailbox]

theorem readOut_eq (t : DirectTunnel L) (h : t.Ready) :
    readOut t = (t.mailbox V).out (decodeChunk L) := by
  have hst : t.started = true := ((keeps_pumpIce hA t h.dtlsStarted).alike.ready h).dtlsStarted
  have hw : (t.association.map fun association => inbox L t.streamId (polled L association)).getD []
      = (Mailbox.read (decodeChunk L) (t.waiting V)).1 := by
    cases ha : t.association with
    | none =>
      rw [waiting, ha]
      rfl
    | some association =>
      rw [waiting, ha, Option.map_some, Option.getD_some, inbox_eq hA,
        (polled_views hA association).2.2]
      rfl
  rw [readOut, hst, Bool.true_and, sctpEvents_eq hA, hw]
  rfl

end Pump

end DirectTunnel

end RtcTunnel.Direct
