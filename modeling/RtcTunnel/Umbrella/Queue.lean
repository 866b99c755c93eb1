import RtcTunnel.Core.View
import RtcTunnel.Umbrella.Tunnel

/-!
# The event queue of the umbrella tunnel

As in the direct backend, the queue only grows but for `pollEvent`, and a flag goes up
together with its event.
-/

namespace RtcTunnel.Umbrella

open RtcTunnel.Core

set_option autoImplicit false

namespace Tunnel

variable {P : PeerConnectionApi}

def view (t : Tunnel P) : View where
  opened := t.opened
  finished := t.finished
  queue := t.events

/-- A part of an operation that keeps the queue and adds to it, and the clock of the tunnel. -/
structure Grows (t r : Tunnel P) : Prop where
  view : t.view.Grows r.view
  epoch : r.epoch = t.epoch
  handshakeDeadline : r.handshakeDeadline = t.handshakeDeadline

theorem Grows.refl (t : Tunnel P) : t.Grows t := ⟨View.Grows.refl t.view, rfl, rfl⟩

theorem Grows.trans {a b c : Tunnel P} (h : a.Grows b) (h' : b.Grows c) : a.Grows c :=
  ⟨h.view.trans h'.view, h'.epoch.trans h.epoch, h'.handshakeDeadline.trans h.handshakeDeadline⟩

/-- Another peer connection and another time. -/
theorem grows_fields (t : Tunnel P) (pc : P.Pc) (now : Instant) :
    t.Grows { t with lastNow := now, pc := pc } := ⟨View.Grows.refl t.view, rfl, rfl⟩

theorem grows_push (t : Tunnel P) {e : Event} (h : e.settles = false) : t.Grows (t.push e) :=
  ⟨View.grows_append t.view (List.forall_mem_singleton.mpr h), rfl, rfl⟩

theorem grows_open {t : Tunnel P} (ho : t.opened = false) :
    t.Grows ({ t with opened := true }.push .opened) :=
  ⟨View.grows_open (a := t.view) ho, rfl, rfl⟩

theorem grows_finish (t : Tunnel P) (reason : CloseReason) : t.Grows (t.finish reason) := by
  unfold finish
  split
  · exact .refl t
  · rename_i hf
    exact ⟨View.grows_finish (a := t.view) (Bool.eq_false_iff.mpr hf) reason, rfl, rfl⟩

theorem grows_maybeOpen (t : Tunnel P) : t.Grows t.maybeOpen := by
  unfold maybeOpen refreshOpened
  split
  · exact .refl t
  · rename_i ho
    cases hc : t.channelOpen with
    | true => exact grows_open (Bool.eq_false_iff.mpr ho)
    | false =>
      simp only [Bool.false_eq_true, if_false, ho]
      exact .refl t

theorem grows_handleEvent (t : Tunnel P) (event : PeerConnectionEvent) :
    t.Grows (t.handleEvent event) := by
  cases event with
  | onDataChannel event =>
    cases event with
    | onOpen =>
      show t.Grows (if t.opened then t else { t with opened := true }.push .opened)
      split
      · exact .refl t
      · rename_i ho
        exact grows_open (Bool.eq_false_iff.mpr ho)
    | onClose => exact grows_finish t .remote
    | _ => exact .refl t
  | onConnectionStateChange state =>
    cases state with
    | connected => exact grows_maybeOpen t
    | failed => exact grows_finish t .failure
    | disconnected => exact grows_finish t .remote
    | closed => exact grows_finish t .remote
    | _ => exact .refl t
  | onIceConnectionStateChange state =>
    cases state with
    | failed => exact grows_finish t .failure
    | _ => exact .refl t
  | other => exact .refl t

theorem grows_drainEvents (t : Tunnel P) : t.Grows t.drainEvents := by
  have h := P.events.walk_induction eventBody (P := fun _ b r => b.Grows r) .refl
    (fun _ _ _ b _ => .refl b) (fun pc event _ b b' r hb hr => ?_) t.pc t
  · exact h.trans (grows_fields _ _ _)
  · unfold eventBody at hb
    split at hb
    · cases hb
    · cases hb
      exact ((grows_fields b pc b.lastNow).trans (grows_handleEvent _ event)).trans hr

theorem grows_drainWrites (t : Tunnel P) : t.Grows t.drainWrites :=
  ⟨View.grows_append t.view (View.settles_datagrams (P.writes.drain t.pc).1), rfl, rfl⟩

theorem grows_drainReads (t : Tunnel P) : t.Grows t.drainReads := by
  have h := P.reads.walk_induction readBody (P := fun _ b r => b.Grows r) .refl
    (fun _ _ _ b _ => .refl b) (fun _ message _ b b' r hb hr => ?_) t.pc t
  · exact h.trans (grows_fields _ _ _)
  · unfold readBody at hb
    split at hb
    · cases hb
    · cases hb
      cases message with
      | dataChannelMessage data =>
        exact (grows_push b (e := .message data) rfl).trans hr
      | other => exact hr

theorem grows_sampleHandshake (t : Tunnel P) : t.Grows t.sampleHandshake := by
  unfold sampleHandshake
  split
  · exact .refl t
  · exact ⟨View.Grows.refl t.view, rfl, rfl⟩

theorem grows_drain (t : Tunnel P) : t.Grows t.drain :=
  (((((grows_drainWrites t).trans (grows_drainEvents _)).trans (grows_drainWrites _)).trans
    (grows_drainReads _)).trans (grows_maybeOpen _)).trans (grows_sampleHandshake _)

theorem grows_ingest (t : Tunnel P) (now : Instant) (datagram : Bytes) :
    t.Grows ({ t with lastNow := now }.ingest now datagram) := by
  unfold ingest
  dsimp only
  split
  · exact grows_fields t _ now
  · exact ⟨View.Grows.refl t.view, rfl, rfl⟩

theorem grows_receive (t : Tunnel P) (nowMs : UInt64) (datagram : Bytes) :
    t.Grows (t.receive nowMs datagram) := by
  unfold receive
  split
  · exact .refl t
  · exact (grows_ingest t _ datagram).trans (grows_drain _)

theorem grows_receiveDeferred (t : Tunnel P) (nowMs : UInt64) (datagram : Bytes) :
    t.Grows (t.receiveDeferred nowMs datagram) := by
  unfold receiveDeferred
  split
  · exact .refl t
  · dsimp only
    split
    · exact (grows_fields t t.pc _).trans (grows_receive _ nowMs datagram)
    · exact grows_ingest t _ datagram

theorem grows_finishInputBatch (t : Tunnel P) : t.Grows t.finishInputBatch := by
  unfold finishInputBatch
  split
  · exact .refl t
  · exact grows_drain t

theorem grows_tick (t : Tunnel P) (nowMs : UInt64) : t.Grows (t.tick nowMs) := by
  have h := grows_fields t (P.handleTimeout t.pc (t.epoch.addMillis nowMs)).1
    (t.epoch.addMillis nowMs)
  unfold tick
  split
  · exact .refl t
  · dsimp only
    split
    · exact h.trans (grows_finish _ .timeout)
    · exact h.trans (grows_drain _)

theorem grows_send (t : Tunnel P) (message : Bytes) : t.Grows (t.send message).2 := by
  have h : t.Grows (if t.opened then t else t.maybeOpen) := by
    split
    · exact .refl t
    · exact grows_maybeOpen t
  unfold send
  split
  · exact .refl t
  · dsimp only
    generalize (if t.opened then t else t.maybeOpen) = m at h ⊢
    split
    · exact h
    · split
      · exact h
      · split
        · exact h
        · split
          · exact h
          · exact (h.trans (grows_fields m _ m.lastNow)).trans (grows_drain _)

theorem grows_close (t : Tunnel P) : t.Grows t.close := by
  unfold close
  split
  · exact .refl t
  · exact (grows_fields t (P.close t.pc).1 t.lastNow).trans (grows_finish _ .local)

end Tunnel

end RtcTunnel.Umbrella
