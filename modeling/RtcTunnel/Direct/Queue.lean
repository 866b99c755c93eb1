import RtcTunnel.Core.View
import RtcTunnel.Direct.Lifecycle
import RtcTunnel.Direct.Pump

/-!
# The event queue

No operation but `pollEvent` takes an event off the queue. What a part of an operation adds
to it tells of the flags that the part raised.
-/

namespace RtcTunnel.Direct

open RtcTunnel.Core
open RtcTunnel.Base (Outcome)
open RtcTunnel.Base.Run

set_option autoImplicit false

namespace DirectTunnel

variable {L : Layers}

def view (t : DirectTunnel L) : View where
  opened := t.opened
  finished := t.finished
  queue := t.events

/-- A part of an operation that keeps the queue and adds to it. -/
structure Grows (t r : DirectTunnel L) : Prop where
  view : t.view.Grows r.view
  pushed : ∃ es, r.events = t.events ++ es ∧ pushed r = pushed t ++ es

theorem Grows.refl (t : DirectTunnel L) : t.Grows t :=
  ⟨View.Grows.refl t.view, [], (List.append_nil _).symm, (List.append_nil _).symm⟩

theorem Grows.trans {a b c : DirectTunnel L} (h : a.Grows b) (h' : b.Grows c) : a.Grows c := by
  obtain ⟨es, he, hp⟩ := h.pushed
  obtain ⟨fs, he', hp'⟩ := h'.pushed
  refine ⟨h.view.trans h'.view, es ++ fs, ?_, ?_⟩
  · rw [he', he, List.append_assoc]
  · rw [hp', hp, List.append_assoc]

theorem Grows.of_view {t r : DirectTunnel L} (h : r.view = t.view)
    (hp : DirectTunnel.pushed r = DirectTunnel.pushed t) : t.Grows r :=
  ⟨View.Grows.of_eq h, [], (congrArg View.queue h).trans (List.append_nil _).symm,
    hp.trans (List.append_nil _).symm⟩

/-- A part that starts behind an assignment to other fields. -/
theorem Grows.behind {t s r : DirectTunnel L} (h : s.Grows r) (hv : s.view = t.view)
    (hl : s.log = t.log) : t.Grows r := (Grows.of_view hv (pushed_of_log hl)).trans h

theorem grows_pushAll (t : DirectTunnel L) {es : List Event} (h : ∀ e ∈ es, e.settles = false) :
    t.Grows (t.pushAll es) := ⟨View.grows_append t.view h, es, rfl, pushed_pushAll t es⟩

theorem grows_finish (t : DirectTunnel L) (reason : CloseReason) : t.Grows (t.finish reason) := by
  unfold finish
  split
  · exact .refl t
  · rename_i hf
    exact ⟨View.grows_finish (a := t.view) (Bool.eq_false_iff.mpr hf) reason, [.closed reason], rfl,
      pushed_push { t with finished := true } (.closed reason)⟩

theorem view_startDtls (t : DirectTunnel L) : t.startDtls.view = t.view := by
  unfold startDtls activateDtls
  split
  · rfl
  · split <;> rfl

theorem view_startSctp (t : DirectTunnel L) : t.startSctp.1.view = t.view := by
  unfold startSctp
  split
  · dsimp only
    split <;> rfl
  · rfl

theorem view_feedSctp (t : DirectTunnel L) (now : Instant) (datagram : Bytes) :
    (t.feedSctp now datagram).view = t.view := by
  unfold feedSctp
  split
  · rfl
  · dsimp only
    split <;> rfl

theorem view_feedDtlsEvent (t : DirectTunnel L) (now : Instant) (e : DtlsEvent) :
    (t.feedDtlsEvent now e).1.view = t.view := by
  cases e with
  | handshakeComplete =>
    unfold feedDtlsEvent
    dsimp only
    split
    · exact view_startSctp _
    · rfl
  | applicationData data => exact view_feedSctp t now data
  | other => rfl

theorem view_feedDtlsEvents (now : Instant) (es : List DtlsEvent) (t : DirectTunnel L) :
    (feedDtlsEvents now es t).1.view = t.view := by
  induction es generalizing t with
  | nil => rfl
  | cons e es ih =>
    rw [feedDtlsEvents, Outcome.andThen_unchanged view ih]
    exact view_feedDtlsEvent t now e

theorem view_feedDtls (t : DirectTunnel L) (now : Instant) (datagram : Bytes) :
    (t.feedDtls now datagram).1.view = t.view := by
  unfold feedDtls
  dsimp only
  split
  · rfl
  · exact view_feedDtlsEvents now _ { t with dtls := (L.dtls.read t.dtls now t.remoteAddr datagram).1 }

theorem view_dispatch (t : DirectTunnel L) (now : Instant) (datagram : Bytes) :
    (t.dispatch now datagram).1.view = t.view := by
  unfold dispatch
  split
  · rfl
  · split
    · split
      · refine (view_feedDtls _ now datagram).trans ?_
        split
        · rfl
        · exact view_startDtls t
      · rfl
    · rfl

/-- A datagram that comes in is announced by the pump, if at all. -/
theorem view_ingest (t : DirectTunnel L) (now : Instant) (datagram : Bytes) :
    (t.ingest now datagram).view = t.view := by
  unfold ingest
  dsimp only
  split
  · exact view_dispatch t now datagram
  · exact view_dispatch t now datagram

theorem view_drainIceEvents (t : DirectTunnel L) : t.drainIceEvents.view = t.view := by
  rw [drainIceEvents_eq]
  rfl

theorem grows_drainIceWrites (t : DirectTunnel L) : t.Grows t.drainIceWrites :=
  (grows_pushAll { t with ice := (L.ice.writes.drain t.ice).2 }
    (View.settles_datagrams (L.ice.writes.drain t.ice).1)).behind rfl rfl

theorem grows_drainDtlsTransmits (t : DirectTunnel L) : t.Grows t.drainDtlsTransmits :=
  (grows_pushAll { t with dtls := (L.dtls.transmits.drain t.dtls).2 }
    (View.settles_datagrams (L.dtls.transmits.drain t.dtls).1)).behind rfl rfl

theorem grows_pumpIce (t : DirectTunnel L) : t.Grows t.pumpIce := by
  have h := (Grows.of_view (view_drainIceEvents t) (mute_drainIceEvents t).pushed).trans
    (grows_drainIceWrites t.drainIceEvents)
  unfold pumpIce
  dsimp only
  split
  · exact h.trans (.of_view (view_startDtls _) (mute_startDtls _).pushed)
  · exact h

theorem grows_readStream (t : DirectTunnel L) : t.Grows t.readStream.1 := by
  unfold readStream
  split
  · exact .refl t
  · rename_i association ha
    split
    · obtain ⟨msgs, hm⟩ := forEach_messages L t.streamId association
      dsimp only
      rw [hm]
      exact (grows_pushAll { t with association := _ } (View.settles_messages msgs)).behind rfl rfl
    · exact .refl t

theorem view_pollAssociation (t : DirectTunnel L) : t.pollAssociation.2.view = t.view := by
  unfold pollAssociation
  split <;> rfl

theorem grows_observeSctpEvents (t : DirectTunnel L) (events : List SctpEvent) :
    t.Grows (t.observeSctpEvents events) := by
  have hc : t.Grows (if .connected ∈ events then t.observeConnected else t) := by
    split
    · exact .of_view rfl (mute_record t (e := .sctpConnected) (by simp)).pushed
    · exact .refl t
  unfold observeSctpEvents
  dsimp only
  split
  · exact hc.trans (grows_finish _ .remote)
  · exact hc

theorem grows_drainSctp (t : DirectTunnel L) : t.Grows t.drainSctp.1 := by
  have h := (Grows.of_view (view_pollAssociation t) (mute_pollAssociation t).pushed).trans
    (grows_observeSctpEvents t.pollAssociation.2 t.pollAssociation.1)
  unfold drainSctp
  dsimp only
  split
  · exact h.trans (grows_readStream _)
  · exact h

theorem view_openStream (t : DirectTunnel L) : t.openStream.1.view = t.view := by
  unfold openStream
  dsimp only
  split
  · rfl
  · split <;> rfl

theorem view_drainChannel (t : DirectTunnel L) : t.drainChannel.1.view = t.view := by
  unfold drainChannel
  split
  · exact view_openStream t
  · rfl

theorem view_drainSctpTransmits (t : DirectTunnel L) : t.drainSctpTransmits.1.view = t.view := by
  unfold drainSctpTransmits
  split <;> rfl

theorem grows_maybeOpen (t : DirectTunnel L) : t.Grows t.maybeOpen := by
  unfold maybeOpen
  split
  · exact .refl t
  · rename_i ho
    split
    · exact ⟨View.grows_open (a := t.view) (Bool.eq_false_iff.mpr ho), [.opened], rfl,
        pushed_push { t with opened := true, trace := t.trace.observeOpen (t.ms t.lastNow) } .opened⟩
    · exact .refl t

theorem grows_andThen {t : DirectTunnel L} {r : Outcome (DirectTunnel L) TunnelError}
    {k : DirectTunnel L → Outcome (DirectTunnel L) TunnelError}
    (hr : t.Grows r.1) (hk : ∀ s, Grows s (k s).1) : t.Grows (r.andThen k).1 :=
  Outcome.andThen_related (R := Grows) Grows.trans (s := t) hr hk

theorem grows_pumpStarted (t : DirectTunnel L) : t.Grows t.pumpStarted.1 := by
  refine grows_andThen (grows_andThen (grows_andThen (grows_drainSctp t) ?_) ?_) ?_
  · exact fun s => .of_view (view_drainChannel s) (pushed_drainChannel s)
  · exact fun s => .of_view (view_drainSctpTransmits s) (mute_drainSctpTransmits s).pushed
  · exact grows_drainDtlsTransmits

theorem grows_pump (t : DirectTunnel L) : t.Grows t.pump.1 := by
  refine (grows_pumpIce t).trans (grows_andThen ?_ grows_maybeOpen)
  split
  · exact grows_pumpStarted _
  · exact .refl _

theorem grows_ingest (t : DirectTunnel L) (now : Instant) (datagram : Bytes) :
    t.Grows ({ t with lastNow := now }.ingest now datagram) :=
  .of_view (view_ingest { t with lastNow := now } now datagram)
    (mute_ingest { t with lastNow := now } now datagram).pushed

theorem grows_receive (t : DirectTunnel L) (nowMs : UInt64) (datagram : Bytes) :
    t.Grows (t.receive nowMs datagram) := by
  unfold receive
  split
  · exact .refl t
  · exact (grows_ingest t _ datagram).trans (grows_pump _)

theorem grows_receiveDeferred (t : DirectTunnel L) (nowMs : UInt64) (datagram : Bytes) :
    t.Grows (t.receiveDeferred nowMs datagram) := by
  unfold receiveDeferred
  split
  · exact .refl t
  · dsimp only
    split
    · exact grows_ingest t _ datagram
    · exact (grows_ingest t _ datagram).trans (grows_pump _)

theorem grows_finishInputBatch (t : DirectTunnel L) : t.Grows t.finishInputBatch := by
  unfold finishInputBatch
  split
  · exact .refl t
  · exact grows_pump t

theorem view_handleTimeouts (t : DirectTunnel L) (now : Instant) :
    (t.handleTimeouts now).view = t.view := by
  unfold handleTimeouts
  dsimp only
  split <;> rfl

theorem grows_handleTimeouts (t : DirectTunnel L) (now : Instant) :
    t.Grows ({ t with lastNow := now }.handleTimeouts now) :=
  .of_view (view_handleTimeouts { t with lastNow := now } now)
    (mute_handleTimeouts { t with lastNow := now } now).pushed

theorem grows_tick (t : DirectTunnel L) (nowMs : UInt64) : t.Grows (t.tick nowMs) := by
  unfold tick
  split
  · exact .refl t
  · have h := (grows_handleTimeouts t (t.epoch.addMillis nowMs)).trans (grows_pump _)
    dsimp only
    split
    · exact h.trans (grows_finish _ .timeout)
    · exact h

theorem grows_flushAfterSend (t : DirectTunnel L) : t.Grows t.flushAfterSend :=
  ((Grows.of_view (view_drainChannel t) (pushed_drainChannel t)).trans
    (.of_view (view_drainSctpTransmits _) (mute_drainSctpTransmits _).pushed)).trans
    (grows_drainDtlsTransmits _)

/-- A message that is not accepted leaves the queue and the flags as they are. -/
theorem view_send_refused {t : DirectTunnel L} {data : Bytes} (h : (t.send data).1 ≠ .accepted) :
    (t.send data).2.view = t.view := by
  rcases send_cases t data with ⟨_, hr, _⟩ | ⟨association, _, ⟨_, hr⟩ | ⟨_, hr⟩⟩
  · rw [hr]
  · rw [hr]
    rfl
  · exact absurd (by rw [hr]) h

theorem grows_send (t : DirectTunnel L) (data : Bytes) : t.Grows (t.send data).2 := by
  rcases send_cases t data with ⟨_, hr, _⟩ | ⟨association, _, ⟨_, hr⟩ | ⟨_, hr⟩⟩
  · rw [hr]
    exact .refl t
  · rw [hr]
    exact .of_view rfl rfl
  · rw [hr]
    have hwrite : t.Grows ({ t with association := some (t.writeMessage association data).1 }.record
        (.writeChunk (encodeMessage data).2 (encodeMessage data).1)) :=
      .of_view rfl (mute_record { t with association := some (t.writeMessage association data).1 }
        (by simp)).pushed
    exact hwrite.trans (grows_flushAfterSend _)

theorem grows_close (t : DirectTunnel L) : t.Grows t.close := by
  unfold close
  split
  · exact .refl t
  · exact (grows_finish { t with ice := (L.ice.close t.ice).1 } .local).behind rfl rfl

theorem view_nextDeadline (t : DirectTunnel L) : t.nextDeadline.2.view = t.view := by
  unfold nextDeadline
  split <;> rfl

/-- The event that an operation takes off the queue. -/
def polledBy (t : DirectTunnel L) : Op → List Event
  | .pollEvent => t.events.head?.toList
  | _ => []

/-- An operation pushes events behind the queue, and may take its front. -/
theorem queue_step (t : DirectTunnel L) (op : Op) :
    ∃ es, t.events ++ es = t.polledBy op ++ (t.step op).events ∧
      pushed (t.step op) = pushed t ++ es := by
  have grown : ∀ {r : DirectTunnel L}, t.Grows r →
      ∃ es, t.events ++ es = [] ++ r.events ∧ pushed r = pushed t ++ es := by
    intro r h
    obtain ⟨es, he, hp⟩ := h.pushed
    exact ⟨es, he.symm, hp⟩
  cases op with
  | receive nowMs datagram => exact grown (grows_receive t nowMs datagram)
  | receiveDeferred nowMs datagram => exact grown (grows_receiveDeferred t nowMs datagram)
  | finishInputBatch => exact grown (grows_finishInputBatch t)
  | tick nowMs => exact grown (grows_tick t nowMs)
  | send data => exact grown (grows_send t data)
  | close => exact grown (grows_close t)
  | nextDeadline =>
    refine grown (.of_view (view_nextDeadline t) ?_)
    show pushed t.nextDeadline.2 = pushed t
    unfold nextDeadline
    split <;> rfl
  | pollEvent =>
    refine ⟨[], ?_, (List.append_nil _).symm⟩
    show t.events ++ [] = t.events.head?.toList ++ t.events.tail
    cases t.events <;> simp
  | applyRemoteAnswerSdp sdp =>
    refine grown (.of_view ?_ ?_)
    · rw [step, applyRemoteAnswerSdp]
      split <;> rfl
    · rw [step, applyRemoteAnswerSdp]
      split <;> rfl
  | setRemote remote => exact grown (.of_view rfl rfl)
  | setRemoteIceCredentials ufrag pwd => exact grown (.of_view rfl rfl)
  | setSendBufferCap cap => exact grown (.of_view rfl rfl)

/-- **Nothing is lost in the queue**: what is taken off it and what it still holds are what was
in it and what was pushed, in their order. -/
theorem queue_run (t : DirectTunnel L) (ops : List Op) :
    ∃ es, t.events ++ es = outputs step polledBy t ops ++ (run step t ops).events ∧
      pushed (run step t ops) = pushed t ++ es := by
  induction ops generalizing t with
  | nil => exact ⟨[], List.append_nil _, (List.append_nil _).symm⟩
  | cons op ops ih =>
    obtain ⟨es, he, hp⟩ := queue_step t op
    obtain ⟨fs, hf, hq⟩ := ih (t.step op)
    refine ⟨es ++ fs, ?_, ?_⟩
    · rw [← List.append_assoc, he, List.append_assoc, hf, outputs, List.append_assoc, run_cons]
    · rw [run_cons, hq, hp, List.append_assoc]

end DirectTunnel

end RtcTunnel.Direct
