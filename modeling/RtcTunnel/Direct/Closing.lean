import RtcTunnel.Direct.Answers
import RtcTunnel.Direct.Script

/-!
# The close of a tunnel

`finish` runs in the middle of a pump, and the pump goes on. The close is the
last event of a run exactly when, in every pump that finds the association lost,
no message waits, DTLS has nothing to send and the channel does not open.
-/

namespace RtcTunnel.Direct

open RtcTunnel.Core
open RtcTunnel.Base (Outcome)
open RtcTunnel.Base.Run

set_option autoImplicit false

/-- No event, a second close included, follows a close. -/
def ClosedIsTerminal (events : List Event) : Prop := Terminal (fun e => e.isClosed = true) events

instance (events : List Event) : Decidable (ClosedIsTerminal events) :=
  inferInstanceAs (Decidable (List.Pairwise _ _))

namespace DirectTunnel

variable {L : Layers}

/-- Behind a lost association no message waits, and when reading, opening and writing go through,
DTLS has nothing to send and the tunnel does not open. -/
structure NothingLeft (t : DirectTunnel L) (dtls : L.dtls.Endpoint) : Prop where
  read : .readable t.streamId ∈ t.sctpEvents → ∀ association, t.association = some association →
    ¬ MessageWaits L t.streamId (polled L association)
  send : ∀ left next, t.Input true left → t.Written left dtls next →
    (L.dtls.transmits.poll next).1 = none
  «open» : ∀ left next, t.Input true left → t.Written left dtls next →
    t.opened = true ∨ ¬ t.IsConnected

/-- A pump of the operation that finds the association lost comes last. -/
def LossComesLast (t : DirectTunnel L) (op : Op) : Prop :=
  ∀ s dtls, t.pumpEntry op = some s → s.runningDtls = some dtls → .associationLost ∈ s.sctpEvents →
    s.NothingLeft dtls

theorem nothingLeft_iff {t : DirectTunnel L} {dtls : L.dtls.Endpoint}
    (hd : t.runningDtls = some dtls) : t.NothingLeft dtls ↔ readOut t ++ flushOut t = [] := by
  rw [List.append_eq_nil_iff, readOut_eq_nil_iff, flushOut_eq_nil_iff hd, hd]
  constructor
  · exact fun h => ⟨fun _ => h.read, fun left next hl hw => ⟨h.send left next hl hw,
      h.open left next hl hw⟩⟩
  · exact fun h => ⟨h.1 rfl, fun left next hl hw => (h.2 left next hl hw).1,
      fun left next hl hw => (h.2 left next hl hw).2⟩

/-- What is behind the loss is what the answers of the layers leave. -/
theorem loses_nothingLeft_iff (t : DirectTunnel L) :
    (t.loses = true → readOut t ++ flushOut t = []) ↔ ∀ dtls, t.runningDtls = some dtls →
      .associationLost ∈ t.sctpEvents → t.NothingLeft dtls := by
  have hstarted := started_iff t
  unfold loses
  cases hd : t.runningDtls with
  | none =>
    rw [hd] at hstarted
    simp [hstarted]
  | some dtls =>
    rw [hd] at hstarted
    simp [hstarted, nothingLeft_iff hd]

theorem not_closed_datagrams (ds : List Bytes) :
    ∀ e ∈ ds.map Event.sendDatagram, ¬ e.isClosed = true := by
  intro e he
  obtain ⟨d, _, rfl⟩ := List.mem_map.mp he
  exact Bool.false_ne_true

theorem not_closed_iceOut (t : DirectTunnel L) : ∀ e ∈ iceOut t, ¬ e.isClosed = true :=
  not_closed_datagrams _

theorem not_closed_rest (t : DirectTunnel L) :
    ∀ e ∈ readOut t ++ flushOut t, ¬ e.isClosed = true := by
  intro e he
  rcases List.mem_append.mp he with he | he
  · obtain ⟨m, rfl⟩ := mem_readOut he
    exact Bool.false_ne_true
  · rcases mem_flushOut he with ⟨d, rfl⟩ | rfl
    · exact Bool.false_ne_true
    · exact Bool.false_ne_true

/-- An unfinished tunnel has pushed no close. -/
theorem not_closed_of_recorded {t : DirectTunnel L} (h : t.life.Recorded)
    (hf : t.finished = false) : ∀ e ∈ pushed t, ¬ e.isClosed = true := by
  intro e he hc
  cases e with
  | closed reason =>
    have hfin : t.finished = true := h.finished.mpr ⟨reason, mem_pushed.mp he⟩
    rw [hf] at hfin
    cases hfin
  | _ => cases hc

theorem terminal_step_none {t : DirectTunnel L} {op : Op} (hu : t.life.Recorded)
    (ht : ClosedIsTerminal (pushed t)) (hp : t.pumpEntry op = none) :
    ClosedIsTerminal (pushed (t.step op)) := by
  obtain ⟨ds, closed, hp, hc, hn⟩ := pushed_step_none hp
  rw [hp]
  cases hf : t.finished with
  | true =>
    obtain ⟨rfl, rfl⟩ := hn hf
    simpa using ht
  | false =>
    have hq := not_closed_of_recorded hu hf
    rcases hc with rfl | ⟨rfl, rfl⟩
    · refine terminal_of_forall fun e he => ?_
      rw [List.append_nil, List.mem_append] at he
      exact he.elim (hq e) (not_closed_datagrams ds e)
    · exact terminal_append_singleton hq

theorem timeoutOut_of_finished {s : DirectTunnel L} (epoch : Instant) (op : Op)
    (hf : s.pump.1.finished = true) : timeoutOut s epoch op = [] := by
  cases op with
  | tick nowMs => simp [timeoutOut, hf]
  | _ => rfl

/-- The close stays last in a pump exactly when a loss it finds comes last. -/
theorem terminal_step_pump {t s : DirectTunnel L} {op : Op} (hu : t.life.Recorded)
    (hp : t.pumpEntry op = some s) :
    ClosedIsTerminal (pushed (t.step op)) ↔
      (s.loses = true → readOut s ++ flushOut s = []) := by
  obtain ⟨hq, hf⟩ := mute_pumpEntry hp
  have hfs := hq.steady.finished.trans hf
  have hb := not_closed_of_recorded hu hf
  have hi := not_closed_iceOut s
  have hr := not_closed_rest s
  have hbi : ∀ e ∈ pushed t ++ iceOut s, ¬ e.isClosed = true := by
    intro e he
    exact (List.mem_append.mp he).elim (hb e) (hi e)
  rw [pushed_step_pump hp, pushed_pump s hfs, hq.pushed]
  cases hl : s.loses with
  | true =>
    have hfin : s.pump.1.finished = true := by rw [finished_pump, hl, Bool.or_true]
    have he : pushed t ++ (iceOut s ++ (if true = true then [.closed .remote] else []) ++
        readOut s ++ flushOut s) ++ timeoutOut s t.epoch op =
        (pushed t ++ iceOut s) ++ .closed .remote :: (readOut s ++ flushOut s) := by
      rw [timeoutOut_of_finished t.epoch op hfin]
      simp
    rw [he, ClosedIsTerminal, terminal_append_cons hbi rfl]
    exact ⟨fun h _ => h, fun h => h rfl⟩
  | false =>
    have hn : ∀ e ∈ (pushed t ++ iceOut s) ++ (readOut s ++ flushOut s), ¬ e.isClosed = true := by
      intro e he
      exact (List.mem_append.mp he).elim (hbi e) (hr e)
    have he : pushed t ++ (iceOut s ++ (if false = true then [.closed .remote] else []) ++
        readOut s ++ flushOut s) = (pushed t ++ iceOut s) ++ (readOut s ++ flushOut s) := by
      simp
    rw [he]
    refine ⟨nofun, fun _ => ?_⟩
    rcases timeoutOut_cases s t.epoch op with h | h <;> rw [h]
    · rw [List.append_nil]
      exact terminal_of_forall hn
    · exact terminal_append_singleton hn

theorem terminal_step (t : DirectTunnel L) (op : Op) (hu : t.life.Recorded)
    (ht : ClosedIsTerminal (pushed t)) :
    ClosedIsTerminal (pushed (t.step op)) ↔ t.LossComesLast op := by
  cases hp : t.pumpEntry op with
  | none =>
    refine ⟨fun _ s dtls hs => ?_, fun _ => terminal_step_none hu ht hp⟩
    rw [hp] at hs
    cases hs
  | some s =>
    rw [terminal_step_pump hu hp, loses_nothingLeft_iff]
    constructor
    · intro h r dtls hr
      rw [hp] at hr
      cases hr
      exact h dtls
    · exact fun h dtls => h s dtls hp

/-- **The close is the last event of a run exactly when, in every pump that finds the association
lost, no message waits, DTLS has nothing to send and the channel does not open.** -/
theorem closed_is_terminal {h : BuildHost} {config : TunnelConfig} {localAddr : SocketAddr}
    {nowMs : UInt64} {c : Constructor} {t : DirectTunnel L}
    (hc : construct L h config localAddr nowMs c = .ok t) (ops : List Op) :
    ClosedIsTerminal (pushed (run step t ops)) ↔ Meets step LossComesLast t ops := by
  refine iff_meets (J := fun t => t.life.Recorded)
    (I := fun t => ClosedIsTerminal (pushed t)) ?_ terminal_step ?_ ?_ ?_
  · exact fun t op => recorded_step op
  · intro t op _ ht
    obtain ⟨es, he⟩ := pushed_prefix_step t op
    rw [he] at ht
    exact (terminal_append.mp ht).1
  · exact (fresh_construct hc).recorded
  · rw [pushed_construct hc]
    exact terminal_nil

/-- The loss alone, behind the open channel, leaves nothing to hand out. -/
theorem closed_is_terminal_lost : Meets step LossComesLast Script.dialer
    [.receive 1 [0], .receive 2 [22, 7], .receive 3 [23, 2], .receive 4 [23, 4]] :=
  (closed_is_terminal Script.build_dialer _).mp (by decide +kernel)

/-- The association of an open channel reports a message and its own loss in one drain. -/
def lossBehindMessage : List Op :=
  [.receive 1 [0], .receive 2 [22, 7], .receive 3 [23, 2], .receive 4 [23, 3, 9, 4]]

/-- The message comes out behind the close. -/
theorem message_after_closed :
    ∃ t, construct Script.layers Script.host Script.config Script.localAddr 0 .new = .ok t ∧
      pushed (run step t lossBehindMessage) =
        [.sendDatagram [1], .sendDatagram [22], .opened, .closed .remote, .message [9]] ∧
      ¬ ClosedIsTerminal (pushed (run step t lossBehindMessage)) :=
  ⟨Script.dialer, Script.build_dialer, by decide +kernel⟩

end DirectTunnel

end RtcTunnel.Direct
