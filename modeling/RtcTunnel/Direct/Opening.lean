import RtcTunnel.Direct.Answers
import RtcTunnel.Direct.Script

/-!
# Opened before data

`read_stream` runs before `maybe_open` in a pump. `Opened` comes before every
message exactly when no message waits for a pump of an unopened tunnel.
-/

namespace RtcTunnel.Direct

open RtcTunnel.Core
open RtcTunnel.Base (Outcome)
open RtcTunnel.Base.Run

set_option autoImplicit false

/-- Every message comes behind `Opened`. -/
def OpenedPrecedesData (events : List Event) : Prop :=
  Precedes (fun e => e = .opened) (fun e => e.isMessage = true) events

instance (events : List Event) : Decidable (OpenedPrecedesData events) :=
  inferInstanceAs (Decidable (Precedes _ _ _))

namespace DirectTunnel

variable {L : Layers}

/-- A pump of the operation on an unopened tunnel finds no message waiting on a stream that the
association reports readable. -/
def ReadsWhenOpen (t : DirectTunnel L) (op : Op) : Prop :=
  ∀ s, t.pumpEntry op = some s → s.opened = false → s.runningDtls.isSome = true →
    .readable s.streamId ∈ s.sctpEvents → ∀ association, s.association = some association →
      ¬ MessageWaits L s.streamId (polled L association)

theorem not_message_datagrams (ds : List Bytes) :
    ∀ e ∈ ds.map Event.sendDatagram, ¬ e.isMessage = true := by
  intro e he
  obtain ⟨d, _, rfl⟩ := List.mem_map.mp he
  exact Bool.false_ne_true

theorem not_message_flushOut (t : DirectTunnel L) : ∀ e ∈ flushOut t, ¬ e.isMessage = true := by
  intro e he
  rcases mem_flushOut he with ⟨d, rfl⟩ | rfl
  · exact Bool.false_ne_true
  · exact Bool.false_ne_true

theorem not_message_timeoutOut (s : DirectTunnel L) (epoch : Instant) (op : Op) :
    ∀ e ∈ timeoutOut s epoch op, ¬ e.isMessage = true := by
  intro e he
  rcases timeoutOut_cases s epoch op with h | h
  · rw [h] at he
    cases he
  · rw [h] at he
    rw [List.mem_singleton.mp he]
    exact Bool.false_ne_true

/-- An operation that reads no message keeps the order. -/
theorem precedes_step_pump {t s : DirectTunnel L} {op : Op} (hr : t.life.Recorded)
    (hp : t.pumpEntry op = some s) (h : OpenedPrecedesData (pushed t)) :
    OpenedPrecedesData (pushed (t.step op)) ↔ (s.opened = false → readOut s = []) := by
  obtain ⟨hq, hf⟩ := mute_pumpEntry hp
  have hfs := hq.steady.finished.trans hf
  have hbefore : ∀ e ∈ iceOut s ++ (if s.loses then [Event.closed .remote] else []),
      ¬ e.isMessage = true ∧ e ≠ .opened := by
    intro e he
    rcases List.mem_append.mp he with he | he
    · obtain ⟨d, rfl⟩ := mem_iceOut he
      exact ⟨Bool.false_ne_true, nofun⟩
    · split at he
      · rw [List.mem_singleton.mp he]
        exact ⟨Bool.false_ne_true, nofun⟩
      · cases he
  have hafter : ∀ e ∈ flushOut s ++ timeoutOut s t.epoch op, ¬ e.isMessage = true := by
    intro e he
    exact (List.mem_append.mp he).elim (not_message_flushOut s e) (not_message_timeoutOut s _ op e)
  have he : pushed (t.step op) = pushed t ++
      (iceOut s ++ (if s.loses then [Event.closed .remote] else [])) ++ readOut s ++
        (flushOut s ++ timeoutOut s t.epoch op) := by
    rw [pushed_step_pump hp, pushed_pump s hfs, hq.pushed]
    simp
  have hb : OpenedPrecedesData (pushed t ++
      (iceOut s ++ (if s.loses then [Event.closed .remote] else []))) :=
    precedes_append h (.inl (precedes_of_forall fun e he => (hbefore e he).1))
  rw [he]
  cases ho : s.opened with
  | true =>
    have hto : t.opened = true := hq.steady.opened.symm.trans ho
    have hmem : .opened ∈ pushed t := mem_pushed.mpr (hr.opened.mp hto)
    refine ⟨nofun, fun _ => ?_⟩
    refine precedes_append (precedes_append hb (.inr ⟨.opened, ?_, rfl⟩))
      (.inl (precedes_of_forall hafter))
    exact List.mem_append_left _ hmem
  | false =>
    have hto : t.opened = false := hq.steady.opened.symm.trans ho
    have hnone : ∀ e ∈ pushed t ++ (iceOut s ++
        (if s.loses then [Event.closed .remote] else [])), e ≠ .opened := by
      intro e he
      rcases List.mem_append.mp he with he | he
      · rintro rfl
        have hop : t.opened = true := hr.opened.mpr (mem_pushed.mp he)
        rw [hto] at hop
        cases hop
      · exact (hbefore e he).2
    constructor
    · intro h _
      cases hm : readOut s with
      | nil => rfl
      | cons m ms =>
        rw [hm] at h
        obtain ⟨data, rfl⟩ := mem_readOut (t := s) (hm ▸ List.mem_cons_self ..)
        obtain ⟨e, he, rfl⟩ := h _ (.message data) (ms ++ (flushOut s ++ timeoutOut s t.epoch op))
          (List.append_assoc _ _ _) rfl
        exact absurd rfl (hnone _ he)
    · intro h
      rw [h rfl, List.append_nil]
      exact precedes_append hb (.inl (precedes_of_forall hafter))

theorem precedes_step_none {t : DirectTunnel L} {op : Op} (hp : t.pumpEntry op = none)
    (h : OpenedPrecedesData (pushed t)) : OpenedPrecedesData (pushed (t.step op)) := by
  obtain ⟨ds, closed, hd, hc, _⟩ := pushed_step_none hp
  rw [hd]
  refine precedes_append h (.inl (precedes_of_forall fun e he => ?_))
  rcases List.mem_append.mp he with he | he
  · exact not_message_datagrams ds e he
  · rcases hc with rfl | ⟨_, rfl⟩
    · cases he
    · rw [List.mem_singleton.mp he]
      exact Bool.false_ne_true

theorem precedes_step (t : DirectTunnel L) (op : Op) (hr : t.life.Recorded)
    (h : OpenedPrecedesData (pushed t)) :
    OpenedPrecedesData (pushed (t.step op)) ↔ t.ReadsWhenOpen op := by
  cases hp : t.pumpEntry op with
  | none =>
    refine ⟨fun _ s hs => ?_, fun _ => precedes_step_none hp h⟩
    rw [hp] at hs
    cases hs
  | some s =>
    rw [precedes_step_pump hr hp h, readOut_eq_nil_iff]
    constructor
    · intro hs r hr
      rw [hp] at hr
      cases hr
      exact hs
    · exact fun hs => hs s hp

/-- **No message comes before `Opened` exactly when none waits, reported by the association, for a
pump of an unopened tunnel.** -/
theorem opened_precedes_data {h : BuildHost} {config : TunnelConfig} {localAddr : SocketAddr}
    {nowMs : UInt64} {c : Constructor} {t : DirectTunnel L}
    (hc : construct L h config localAddr nowMs c = .ok t) (ops : List Op) :
    OpenedPrecedesData (pushed (run step t ops)) ↔ Meets step ReadsWhenOpen t ops := by
  refine iff_meets (J := fun t => t.life.Recorded)
    (I := fun t => OpenedPrecedesData (pushed t)) ?_ precedes_step ?_ ?_ ?_
  · exact fun t op => recorded_step op
  · intro t op _ ht
    obtain ⟨es, he⟩ := pushed_prefix_step t op
    rw [he] at ht
    exact ht.of_append
  · exact (fresh_construct hc).recorded
  · rw [pushed_construct hc]
    exact precedes_nil

/-- DATA behind the open channel keeps the order. -/
theorem opened_precedes_data_late : Meets step ReadsWhenOpen Script.dialer
    [.receive 1 [0], .receive 2 [22, 7], .receive 3 [23, 2], .receive 4 [23, 3, 9]] :=
  (opened_precedes_data Script.build_dialer _).mp (by decide +kernel)

/-- DATA bundled with the end of the SCTP handshake. -/
def dataWithConnected : List Op :=
  [.receive 1 [0], .receive 2 [22, 7], .receive 3 [23, 2, 3, 9], .tick 4]

/-- It is read by the pump that sees `Connected`, before that pump could open. -/
theorem message_before_opened :
    ∃ t, construct Script.layers Script.host Script.config Script.localAddr 0 .new = .ok t ∧
      pushed (run step t dataWithConnected) =
        [.sendDatagram [1], .sendDatagram [22], .message [9], .opened] ∧
      ¬ OpenedPrecedesData (pushed (run step t dataWithConnected)) :=
  ⟨Script.dialer, Script.build_dialer, by decide +kernel⟩

end DirectTunnel

end RtcTunnel.Direct
