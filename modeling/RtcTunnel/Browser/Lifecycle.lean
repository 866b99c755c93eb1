import Mathlib.Algebra.Ring.Nat
import RtcTunnel.Base.Run
import RtcTunnel.Browser.Connection

/-!
# The lifecycle of a browser connection

The three flags of the provider count how often things happened. `Ledger` is what each of
them stands for, with the ends that are still under way.
-/

namespace RtcTunnel.Browser

open RtcTunnel.Core
open RtcTunnel.Base.Run

set_option autoImplicit false

def Effect.isEnded : Effect → Bool
  | .ended _ => true
  | _ => false

def Effect.isReject : Effect → Bool
  | .reject _ => true
  | _ => false

def Effect.isOnClose : Effect → Bool
  | .onClose _ => true
  | _ => false

/-- What the caller is told at the end. -/
def Effect.tells (e : Effect) : Bool := e.isReject || e.isOnClose

/-- What does not happen behind the end. -/
def Effect.traffic : Effect → Bool
  | .resolve => true
  | .onOpen => true
  | .onPacket _ => true
  | .channelSend _ => true
  | _ => false

/-- The end that a task carries on with. -/
def Task.ending : Task → Option Ending
  | .callback => none
  | .closePc by' => some by'
  | .report by' => some by'

def Task.isEnding : Task → Bool
  | .callback => false
  | _ => true

def Task.isClosePc : Task → Bool
  | .closePc _ => true
  | _ => false

/-- The calls and callbacks that a task makes, with itself. -/
def Task.steps : Task → Nat
  | .callback => 1
  | .closePc _ => 4
  | .report _ => 2

theorem Task.isEnding_of_ending {t : Task} {e : Ending} (h : t.ending = some e) :
    t.isEnding = true := by
  cases t with
  | callback => cases h
  | _ => rfl

namespace Connection

/-- What the flags stand for. -/
structure Ledger (d : Connection) : Prop where
  resolve : d.log.count .resolve = d.opened.toNat
  onOpen : d.log.count .onOpen = d.opened.toNat
  rejects : d.log.countP Effect.isReject + d.opened.toNat = d.settled.toNat
  fired : d.opened = true → d.fired = true
  ended : d.log.countP Effect.isEnded = d.closed.toNat
  channel : d.log.count .channelClose = d.closed.toNat
  pc : d.log.count .pcClose + d.stack.countP Task.isClosePc = d.closed.toNat
  told : d.log.countP Effect.tells + d.stack.countP Task.isEnding = d.closed.toNat
  /-- The end under way is the one that set `closed`. -/
  tasks : ∀ t ∈ d.stack, ∀ e, t.ending = some e → .ended e ∈ d.log
  reasons : ∀ reason, .onClose reason ∈ d.log → ∃ e : Ending, .ended e ∈ d.log ∧ reason = e.reason
  byHandle : .ended .local ∈ d.log → d.opened = true
  after : Precedes (· = .onOpen) (fun e => e.isOnClose = true) d.log
  silent : d.log.Pairwise fun a b => a.isEnded = true ∨ a.tells = true → b.traffic = false

variable {d : Connection}

theorem ledger_start : start.Ledger where
  resolve := rfl
  onOpen := rfl
  rejects := rfl
  fired := nofun
  ended := rfl
  channel := rfl
  pc := rfl
  told := rfl
  tasks := nofun
  reasons := nofun
  byHandle := nofun
  after := precedes_nil
  silent := .nil

theorem Ledger.opened_iff (h : d.Ledger) : d.opened = true ↔ .onOpen ∈ d.log := by
  rw [← List.count_pos_iff, h.onOpen]
  cases d.opened <;> decide

/-- Nothing that is told at the end is told before. -/
theorem Ledger.quiet (h : d.Ledger) (hc : d.closed = false) :
    ∀ e ∈ d.log, ¬ (e.isEnded = true ∨ e.tells = true) := by
  have he := h.ended
  have ht := h.told
  rw [hc] at he ht
  have ht : d.log.countP Effect.tells = 0 := by
    simp only [Bool.toNat_false] at ht
    omega
  intro e hm hn
  rcases hn with hn | hn
  · exact List.countP_eq_zero.mp he e hm hn
  · exact List.countP_eq_zero.mp ht e hm hn

/-- What is told at the end ends the history. -/
theorem Ledger.silent_end (h : d.Ledger) {es : List Effect} (he : ∀ e ∈ es, e.traffic = false) :
    (d.log ++ es).Pairwise fun a b => a.isEnded = true ∨ a.tells = true → b.traffic = false := by
  refine List.pairwise_append.mpr ⟨h.silent, ?_, fun _ _ b hb _ => he b hb⟩
  exact List.pairwise_iff_forall_sublist.mpr fun hs _ =>
    he _ (hs.subset (List.mem_cons_of_mem _ (List.mem_cons_self ..)))

theorem after_append {log es : List Effect}
    (h : Precedes (· = .onOpen) (fun e : Effect => e.isOnClose = true) log)
    (he : ∀ e ∈ es, e.isOnClose = false) :
    Precedes (· = .onOpen) (fun e : Effect => e.isOnClose = true) (log ++ es) :=
  precedes_append h (.inl (precedes_of_forall fun e hm hq => absurd ((he e hm).symm.trans hq) nofun))

/-- The end sets `closed` and closes the channel. -/
theorem Ledger.shut_step (h : d.Ledger) (hc : d.closed = false) (e : Ending)
    (he : e = .local → d.opened = true) : (d.shut e).Ledger := by
  have hended := h.ended
  have hchannel := h.channel
  have hpc := h.pc
  have htold := h.told
  rw [hc] at hended hchannel hpc htold
  simp only [Bool.toNat_false] at hended hchannel hpc htold
  have hnone : ∀ e', .ended e' ∉ d.log := fun e' hm => h.quiet hc _ hm (.inl rfl)
  show ({ d with
    closed := true, timerArmed := false, log := d.log ++ [.ended e] ++ [.channelClose]
    stack := .callback :: .closePc e :: d.stack } : Connection).Ledger
  rw [List.append_assoc, List.singleton_append]
  refine ⟨?_, ?_, ?_, h.fired, ?_, ?_, ?_, ?_, ?_, ?_, ?_, ?_, ?_⟩
  · simp [List.count_append, h.resolve]
  · simp [List.count_append, h.onOpen]
  · simp [List.countP_append, ← h.rejects, Effect.isReject]
  · simp [List.countP_append, List.countP_cons, Effect.isEnded, hended]
  · simp [List.count_append, hchannel]
  · simp [List.count_append, List.countP_cons, Task.isClosePc]
    omega
  · have hl : [Effect.ended e, .channelClose].countP Effect.tells = 0 := rfl
    have hs : (Task.callback :: .closePc e :: d.stack).countP Task.isEnding =
        d.stack.countP Task.isEnding + 1 := by
      simp [List.countP_cons, Task.isEnding]
    show (d.log ++ [Effect.ended e, .channelClose]).countP Effect.tells +
      (Task.callback :: .closePc e :: d.stack).countP Task.isEnding = 1
    rw [List.countP_append, hl, hs]
    omega
  · have hstack : d.stack.countP Task.isEnding = 0 := by omega
    intro t hm e' he'
    simp only [List.mem_cons] at hm
    rcases hm with rfl | rfl | hm
    · cases he'
    · cases he'
      exact List.mem_append_right _ (List.mem_cons_self ..)
    · exact absurd (Task.isEnding_of_ending he') (List.countP_eq_zero.mp hstack t hm)
  · intro reason hm
    obtain ⟨e', he', _⟩ := h.reasons reason (by simpa using hm)
    exact absurd he' (hnone e')
  · intro hm
    rcases List.mem_append.mp hm with hm | hm
    · exact absurd hm (hnone _)
    · simp only [List.mem_cons, Effect.ended.injEq, reduceCtorEq, List.not_mem_nil, or_false] at hm
      exact he hm.symm
  · exact after_append h.after (List.forall_mem_cons.mpr ⟨rfl, List.forall_mem_singleton.mpr rfl⟩)
  · exact h.silent_end (List.forall_mem_cons.mpr ⟨rfl, List.forall_mem_singleton.mpr rfl⟩)

/-- How many tasks are ahead of the stack, those a task leaves behind included. -/
def work (d : Connection) : Nat := (d.stack.map Task.steps).sum

/-- What the caller of a connection and its platform see of it. -/
structure Orderly (d : Connection) : Prop where
  settles : d.log.count .resolve + d.log.countP Effect.isReject ≤ 1
  resolves : .resolve ∈ d.log → d.fired = true
  resolved_before : d.log.Pairwise fun a b => a.isEnded = true → b ≠ .resolve
  rejects : d.idle = true → ∀ reason, .ended (.failed reason) ∈ d.log → .resolve ∉ d.log →
    ∃ message, .reject message ∈ d.log
  onOpen_once : d.log.count .onOpen ≤ 1
  onClose_once : d.log.countP Effect.isOnClose ≤ 1
  onClose_after : Precedes (· = .onOpen) (fun e => e.isOnClose = true) d.log
  onPacket_before : d.log.Pairwise fun a b => a.isOnClose = true → ∀ data, b ≠ .onPacket data
  reason : ∀ e : Ending, .ended e ∈ d.log → ∀ reason, .onClose reason ∈ d.log → reason = e.reason
  told : d.idle = true → .ended .local ∈ d.log → .onClose "local".toList ∈ d.log
  ended_once : d.log.countP Effect.isEnded ≤ 1
  channelClose : d.log.count .channelClose = d.log.countP Effect.isEnded
  pcClose : d.log.count .pcClose ≤ d.log.countP Effect.isEnded
  pcClose_idle : d.idle = true → d.log.count .pcClose = d.log.countP Effect.isEnded
  sent_before : d.log.Pairwise fun a b => a.isEnded = true → ∀ data, b ≠ .channelSend data

end Connection

end RtcTunnel.Browser
