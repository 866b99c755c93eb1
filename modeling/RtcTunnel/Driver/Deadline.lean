import RtcTunnel.Driver.Action
import RtcTunnel.Driver.Script
import RtcTunnel.Driver.Silence

/-!
# The wake-up timer

`schedule` arms the timer for the engine's deadline, or keeps the one that fires before
it. It runs at the head of each pump. What moves the deadline behind it, or without a
pump to follow, is seen by no timer.
-/

namespace RtcTunnel.Driver

open RtcTunnel.Core
open RtcTunnel.Base.Run

set_option autoImplicit false

namespace EngineApi

variable {E : EngineApi}

def deadline (E : EngineApi) (s : E.State) : Option F64 := (E.nextDeadline s).1

/-- Only an input, a tick, a send or a close moves the deadline. -/
structure Steady (E : EngineApi) : Prop where
  nextDeadline : ∀ s, E.deadline (E.nextDeadline s).2 = E.deadline s
  pollEvent : ∀ s, E.deadline (E.pollEvent s).2 = E.deadline s
  drainEvents : ∀ drain, E.drainEvents = some drain →
    ∀ s max, E.deadline (drain s max).2 = E.deadline s
  negotiatedCipherSuite : ∀ f, E.negotiatedCipherSuite = some f →
    ∀ s, E.deadline (f s).2 = E.deadline s
  bufferedBytes : ∀ f, E.bufferedBytes = some f → ∀ s, E.deadline (f s).2 = E.deadline s
  droppedDatagrams : ∀ f, E.droppedDatagrams = some f → ∀ s, E.deadline (f s).2 = E.deadline s

/-- The engine behind the sends of a flush. -/
def flushed (E : EngineApi) : List Packet → E.State → E.State
  | [], s => s
  | next :: rest, s =>
    if (E.send s next.data).1 = sendBackpressure then (E.send s next.data).2
    else E.flushed rest (E.send s next.data).2

end EngineApi

namespace Connection

variable {E : EngineApi}

/-- Whatever the engine's deadline, a timer is armed that fires no later. -/
def Punctual (d : Connection E) : Prop :=
  ∀ deadline, E.deadline d.engine = some deadline → deadline ≠ .nan →
    d.timerArmed = true ∧ ∃ scheduled, d.scheduledDeadline = some scheduled ∧
      scheduled.le deadline = true

/-- The recorded deadline of the armed timer is at most `deadline`. -/
def firesBy (d : Connection E) (deadline : F64) : Bool :=
  d.timerArmed && d.scheduledDeadline.any (·.le deadline)

/-- The engine's deadline is earlier in `s` than it is now, and earlier than that of the
timer if it is kept. -/
def hastens (d : Connection E) (s : E.State) (kept : Bool) : Bool :=
  (E.deadline s).any fun deadline =>
    deadline ≠ .nan && !(E.deadline d.engine).any (·.le deadline) &&
      !(kept && d.firesBy deadline)

/-- A send hastens the deadline with no pump to come: one of the flush, which is behind
`schedule`, or one of `handle.send` that the engine does not accept. (No timer is kept for
a deadline that is NaN.) -/
def unnoticed (d : Connection E) : Label → Bool
  | .advance _ =>
    d.stack.head? = some .pump && !d.closed && !d.outboundScheduled &&
      d.options.backpressure = .queue &&
        d.hastens (E.flushed d.queue (E.nextDeadline d.engine).2)
          (E.deadline d.engine ≠ some .nan)
  | .send data =>
    d.outside && d.handed && !d.closed && d.opened && !d.outboundScheduled &&
      (E.send d.engine data).1 ≠ sendAccepted && d.hastens (E.send d.engine data).2 true
  | _ => false

/-- Between two pumps: a pump is under way or to come, or the timer is right. -/
def OnTime (d : Connection E) : Prop :=
  d.closed = true ∨ d.outboundScheduled = true ∨ d.stack.head? = some .pump ∨ d.Punctual

variable {d r : Connection E}

theorem firesBy_iff {deadline : F64} : d.firesBy deadline = true ↔
    d.timerArmed = true ∧ ∃ scheduled, d.scheduledDeadline = some scheduled ∧
      scheduled.le deadline = true := by
  rw [firesBy, Bool.and_eq_true, Option.any_eq_true]

theorem Punctual.firesBy (h : d.Punctual) {deadline : F64}
    (hd : E.deadline d.engine = some deadline) (hn : deadline ≠ .nan) :
    d.firesBy deadline = true := firesBy_iff.mpr (h deadline hd hn)

theorem firesBy_later {x y : F64} (h : d.firesBy x = true) (hle : x.le y = true) :
    d.firesBy y = true := by
  obtain ⟨ht, a, ha, hx⟩ := firesBy_iff.mp h
  exact firesBy_iff.mpr ⟨ht, a, ha, F64.le_trans hx hle⟩

theorem firesBy_waking {s : E.State} (hw : r.waking = { d.waking with engine := s }) (x : F64) :
    r.firesBy x = d.firesBy x := by
  have ht : r.timerArmed = d.timerArmed := congrArg Waking.timerArmed hw
  have hs : r.scheduledDeadline = d.scheduledDeadline := congrArg Waking.scheduledDeadline hw
  rw [firesBy, firesBy, ht, hs]

/-- With the same timer and a deadline that is no earlier. -/
theorem Punctual.keep (h : d.Punctual) {s : E.State}
    (hw : r.waking = { d.waking with engine := s }) (hs : d.hastens s true = false) :
    r.Punctual := by
  intro x hx hn
  have he : r.engine = s := congrArg Waking.engine hw
  rw [he] at hx
  rw [← firesBy_iff, firesBy_waking hw]
  rw [hastens, hx, Option.any_some, Bool.true_and, Bool.and_eq_false_iff,
    Bool.and_eq_false_iff] at hs
  rcases hs with (hs | hs) | hs
  · simp [hn] at hs
  · rw [Bool.not_eq_false', Option.any_eq_true] at hs
    obtain ⟨y, hy, hle⟩ := hs
    exact firesBy_later (h.firesBy hy (F64.ne_nan_of_le hle)) hle
  · simpa using hs

theorem hastens_same {s : E.State} {kept : Bool} (h : E.deadline s = E.deadline d.engine) :
    d.hastens s kept = false := by
  rw [hastens, h]
  cases E.deadline d.engine with
  | none => rfl
  | some x =>
    by_cases hn : x = .nan
    · simp [hn]
    · simp [F64.le_refl hn]

theorem flushFrom_waking (queue : List Packet) (d : Connection E) :
    (flushFrom queue d).waking = { d.waking with engine := E.flushed queue d.engine } := by
  induction queue generalizing d with
  | nil => rfl
  | cons next rest ih =>
    rw [flushFrom, EngineApi.flushed]
    split
    · rfl
    · rw [ih]
      rfl

theorem schedule_engine (d : Connection E) (now : F64) (hc : d.closed = false) :
    (d.schedule now).engine = (E.nextDeadline d.engine).2 := by
  rw [schedule, if_neg (by simp [hc])]
  dsimp only
  split
  · rfl
  · split
    · rfl
    · show (d.call .nextDeadline (E.nextDeadline d.engine).2).cancelArmed.engine = _
      unfold cancelArmed
      split <;> rfl

/-- `schedule` leaves a timer that fires by the deadline, -/
theorem schedule_fires {deadline : F64} (now : F64) (hc : d.closed = false)
    (hd : E.deadline d.engine = some deadline) (hn : deadline ≠ .nan) :
    (d.schedule now).firesBy deadline = true := by
  rw [schedule, if_neg (by simp [hc])]
  dsimp only
  have hr : (E.nextDeadline d.engine).1 = some deadline := hd
  rw [hr]
  dsimp only
  split
  · rename_i hf
    exact hf
  · exact F64.le_refl hn

/-- and gives up the one there was only for an earlier one. -/
theorem schedule_keeps {x : F64} (now : F64) (hc : d.closed = false) (hf : d.firesBy x = true)
    (hd : E.deadline d.engine ≠ some .nan) : (d.schedule now).firesBy x = true := by
  cases hr : E.deadline d.engine with
  | none =>
    have hr' : (E.nextDeadline d.engine).1 = none := hr
    rw [schedule, if_neg (by simp [hc])]
    dsimp only
    rw [hr']
    exact hf
  | some y =>
    have hn : y ≠ .nan := fun hy => hd (by rw [hr, hy])
    have hy := schedule_fires now hc hr hn
    by_cases hk : d.firesBy y = true
    · have hr' : (E.nextDeadline d.engine).1 = some y := hr
      rw [schedule, if_neg (by simp [hc])]
      dsimp only
      rw [hr']
      dsimp only
      rw [if_pos (by exact hk)]
      exact hf
    · obtain ⟨ht, a, ha, hax⟩ := firesBy_iff.mp hf
      have hya : y.le a = true := by
        refine (F64.le_total hn (F64.ne_nan_of_le hax)).resolve_right fun hay => hk ?_
        exact firesBy_iff.mpr ⟨ht, a, ha, hay⟩
      exact firesBy_later hy (F64.le_trans hya hax)

theorem punctual_schedule (hE : E.Steady) (now : F64) (hc : d.closed = false) :
    (d.schedule now).Punctual := by
  intro x hx hn
  rw [schedule_engine d now hc, hE.nextDeadline] at hx
  exact firesBy_iff.mp (schedule_fires now hc hx hn)

/-- A pump is on time unless its flush hastens the deadline. -/
theorem punctual_pumpHead (hE : E.Steady) (now : F64) (hc : d.closed = false)
    (hu : d.options.backpressure = .queue →
      d.hastens (E.flushed d.queue (E.nextDeadline d.engine).2)
        (E.deadline d.engine ≠ some .nan) = false) : (d.pumpHead now).Punctual := by
  unfold pumpHead
  dsimp only
  split
  · rename_i hb
    rw [(inside_schedule d now).options] at hb
    have hw := flushFrom_waking (d.schedule now).queue (d.schedule now)
    rw [(frame_schedule d now).queue, schedule_engine d now hc] at hw
    have he : (flushFrom d.queue (d.schedule now)).engine =
        E.flushed d.queue (E.nextDeadline d.engine).2 := congrArg Waking.engine hw
    intro x hx hn
    rw [flushQueue, (frame_schedule d now).queue] at hx ⊢
    rw [← firesBy_iff, firesBy_waking hw]
    rw [he] at hx
    have hs := hu hb
    rw [hastens, hx, Option.any_some, Bool.and_eq_false_iff, Bool.and_eq_false_iff] at hs
    rcases hs with (hs | hs) | hs
    · simp [hn] at hs
    · rw [Bool.not_eq_false', Option.any_eq_true] at hs
      obtain ⟨y, hy, hle⟩ := hs
      exact firesBy_later (schedule_fires now hc hy (F64.ne_nan_of_le hle)) hle
    · rw [Bool.not_eq_false', Bool.and_eq_true, decide_eq_true_eq] at hs
      exact schedule_keeps now hc hs.2 hs.1
  · exact punctual_schedule hE now hc

/-- A step that is no pump, with the timer left as it is. -/
theorem OnTime.keep (h : d.OnTime) (hp : d.stack.head? ≠ some .pump) (hc : r.closed = d.closed)
    {s : E.State} (hw : r.waking = { d.waking with engine := s })
    (hs : d.outboundScheduled = false → d.closed = false → d.hastens s true = false) :
    r.OnTime := by
  rcases h with h | h | h | h
  · exact .inl (hc.trans h)
  · exact .inr (.inl ((congrArg Waking.outboundScheduled hw).trans h))
  · exact absurd h hp
  · by_cases ho : d.outboundScheduled = true
    · exact .inr (.inl ((congrArg Waking.outboundScheduled hw).trans ho))
    · by_cases hcl : d.closed = true
      · exact .inl (hc.trans hcl)
      · exact .inr (.inr (.inr (h.keep hw (hs (by simpa using ho) (by simpa using hcl)))))

theorem onTime_pushed {m : Connection E} {tasks : List Task} : (m.push (.pump :: tasks)).OnTime :=
  .inr (.inr (.inl rfl))

theorem handleSend_waking (d : Connection E) (data : Bytes) :
    (d.handleSend data).waking = d.waking ∨
      (d.handleSend data).stack.head? = some .pump ∨
      (d.handleSend data).outboundScheduled = true ∨
      d.closed = false ∧ d.opened = true ∧ (E.send d.engine data).1 ≠ sendAccepted ∧
        (d.handleSend data).waking = { d.waking with engine := (E.send d.engine data).2 } := by
  unfold handleSend
  dsimp only
  split
  · exact .inl rfl
  · rename_i ho
    simp only [Bool.or_eq_true, not_or, Bool.not_eq_true, Bool.not_eq_false'] at ho
    split
    · unfold schedulePump
      split
      · exact .inr (.inl rfl)
      · exact .inr (.inr (.inl rfl))
    · rename_i hr
      refine .inr (.inr (.inr ⟨ho.1, ho.2, hr, ?_⟩))
      split
      · rfl
      · split
        · split
          · split <;> rfl
          · rfl
        · rfl

theorem closed_handleSend (d : Connection E) (data : Bytes) :
    (d.handleSend data).closed = d.closed := by
  obtain ⟨m, hm, hr⟩ := inside_handleSend d data
  rcases hr with hr | hr
  · rw [hr, hm.closed]
  · rw [hr]
    exact hm.closed

theorem ask_waking {α : Type} (h : r.waking = { d.waking with engine := r.engine })
    (hd : E.deadline r.engine = E.deadline d.engine) {method : Option (E.State → α × E.State)}
    (hm : ∀ f, method = some f → ∀ s, E.deadline (f s).2 = E.deadline s) (c : EngineCall) :
    (r.ask c method).2.waking = { d.waking with engine := (r.ask c method).2.engine } ∧
      E.deadline (r.ask c method).2.engine = E.deadline d.engine := by
  cases method with
  | none => exact ⟨h, hd⟩
  | some f => exact ⟨congrArg (fun w => { w with engine := (f r.engine).2 }) h, (hm f rfl _).trans hd⟩

theorem handleStats_waking (hE : E.Steady) (d : Connection E) :
    d.handleStats.waking = { d.waking with engine := d.handleStats.engine } ∧
      E.deadline d.handleStats.engine = E.deadline d.engine := by
  have h := ask_waking (d := d) rfl rfl hE.negotiatedCipherSuite .negotiatedCipherSuite
  have h' := ask_waking h.1 h.2 hE.bufferedBytes .bufferedBytes
  exact ask_waking h'.1 h'.2 hE.droppedDatagrams .droppedDatagrams

theorem settle_waking (d : Connection E) (p : Promise) : (d.settle p).waking = d.waking := by
  unfold settle
  split <;> rfl

theorem executorRest_waking (d : Connection E) : d.executorRest.waking = d.waking := by
  unfold executorRest
  split
  · exact settle_waking d _
  · split
    · exact settle_waking d _
    · rfl

theorem outboundScheduled_pumpHead (d : Connection E) (now : F64) :
    (d.pumpHead now).outboundScheduled = d.outboundScheduled := by
  have hs : (d.schedule now).outboundScheduled = d.outboundScheduled := by
    unfold schedule
    split
    · rfl
    · dsimp only
      split
      · rfl
      · split
        · rfl
        · show (d.call .nextDeadline (E.nextDeadline d.engine).2).cancelArmed.outboundScheduled = _
          unfold cancelArmed
          split <;> rfl
  unfold pumpHead
  dsimp only
  split
  · have hw := flushFrom_waking (d.schedule now).queue (d.schedule now)
    exact (congrArg Waking.outboundScheduled hw).trans hs
  · exact hs

theorem applyEvent_waking (d : Connection E) (event : EngineEvent) (rest : Task) :
    (d.applyEvent event rest).waking = d.waking ∧
      (d.applyEvent event rest).closed = d.closed := by
  cases event with
  | opened =>
    unfold applyEvent
    dsimp only
    split <;> exact ⟨rfl, rfl⟩
  | _ => exact ⟨rfl, rfl⟩

theorem raise_waking (d : Connection E) : d.raise.waking = d.waking ∧ d.raise.closed = d.closed := by
  unfold raise
  split
  · exact ⟨rfl, rfl⟩
  · dsimp only
    split
    · exact ⟨settle_waking _ _, congrArg Status.closed (settle_status _).1⟩
    · exact ⟨rfl, rfl⟩
  · exact ⟨rfl, rfl⟩

theorem onTime_step (hE : E.Steady) (hl : d.Ledger) (l : Label) (h : d.OnTime)
    (hu : d.unnoticed l = false) : (d.step l).OnTime := by
  have hact := action_step d l
  generalize d.step l = r at hact ⊢
  have same : ∀ {r : Connection E}, d.stack.head? ≠ some .pump → r.closed = d.closed →
      r.waking = d.waking → r.OnTime :=
    fun hp hc hw => h.keep hp hc (s := d.engine) hw fun _ _ => hastens_same rfl
  have still : ∀ {r : Connection E} {task : Task} {rest : List Task}, d.stack = task :: rest →
      task ≠ .pump → r.closed = d.closed → r.waking = d.waking → r.OnTime := by
    intro r task rest hs ht hc hw
    refine same (fun hp => ht ?_) hc hw
    rw [hs] at hp
    exact Option.some.inj hp
  have outer : d.outside = true → d.stack.head? ≠ some .pump := by
    intro ho hp
    rw [outside, hp] at ho
    cases hs : d.stack with
    | nil => rw [hs] at hp; cases hp
    | cons t rest => rw [hs] at ho; cases ho
  cases hact with
  | nothing => exact h
  | send data ho hh =>
    have hp := outer ho
    have hc := closed_handleSend d data
    rcases handleSend_waking d data with hw | hw | hw | ⟨hopen, hopened, hr, hw⟩
    · exact same hp hc hw
    · exact .inr (.inr (.inl hw))
    · exact .inr (.inl hw)
    · refine h.keep hp hc hw fun hout _ => ?_
      rw [unnoticed] at hu
      simpa [ho, hh, hopen, hopened, hout, hr] using hu
  | close => exact onTime_pushed
  | stats ho hh =>
    obtain ⟨hw, hd⟩ := handleStats_waking hE d
    exact h.keep (outer ho) (inside_handleStats d).closed hw fun _ _ => hastens_same hd
  | error message ho => exact same (outer ho) rfl rfl
  | feed => exact onTime_pushed
  | wait _ m hi hm hw => exact same (outer (outside_of_idle hi)) hm.closed hw
  | resume hi => exact same (outer (outside_of_idle hi)) rfl rfl
  | ret rest hs => exact still hs (by simp) rfl rfl
  | raise =>
    by_cases hp : d.stack.head? = some .pump
    · have hr : d.raise = d := by
        unfold raise
        split
        · rename_i hs
          rw [hs] at hp
          cases hp
        · rename_i hs
          rw [hs] at hp
          cases hp
        · rfl
      rw [hr]
      exact h
    · exact same hp (raise_waking d).2 (raise_waking d).1
  | idles now task rest hs ht =>
    cases ht with
    | pump hc => exact .inl hc
    | drainLoop _ => exact still hs (by simp) rfl rfl
    | finish reason hc => exact .inl hc
    | apply => exact still hs (by simp) rfl rfl
  | pump now rest hs hc =>
    by_cases hout : d.outboundScheduled = true
    · refine .inr (.inl ?_)
      show (pumpHead { d with stack := rest } now).outboundScheduled = true
      exact (outboundScheduled_pumpHead _ now).trans hout
    · refine .inr (.inr (.inr ?_))
      have hm : (pumpHead { d with stack := rest } now).Punctual := by
        refine punctual_pumpHead hE now hc fun hb => ?_
        have hb : d.options.backpressure = .queue := hb
        show d.hastens (E.flushed d.queue (E.nextDeadline d.engine).2)
          (E.deadline d.engine ≠ some .nan) = false
        rw [unnoticed, hs] at hu
        simpa [hc, hout, hb] using hu
      exact hm
  | drain now events engine short rest hs hc hd hshort =>
    obtain ⟨drain, hd, hr⟩ := hd
    have hdead : E.deadline engine = E.deadline d.engine := by
      rw [← hE.drainEvents drain hd d.engine d.options.eventBatchSize, hr]
    refine h.keep ?_ rfl (s := engine) rfl fun _ _ => hastens_same hdead
    rw [hs]
    simp
  | poll now event engine rest hs hp he =>
    have hdead : E.deadline engine = E.deadline d.engine := by
      rw [← hE.pollEvent d.engine, hp]
    refine h.keep ?_ rfl (s := engine) rfl fun _ _ => hastens_same hdead
    rw [hs]
    simp
  | pollNone now engine rest hs hp =>
    have hdead : E.deadline engine = E.deadline d.engine := by
      rw [← hE.pollEvent d.engine, hp]
    refine h.keep ?_ rfl (s := engine) rfl fun _ _ => hastens_same hdead
    rw [hs]
    simp
  | apply now event events source rest hs =>
    obtain ⟨hw, hc⟩ := applyEvent_waking { d with stack := rest } event (.apply events source)
    exact still hs (by simp) hc hw
  | loop now source loop rest hs hl => exact still hs (by simp) rfl rfl
  | settleOpen now rest hs =>
    exact still hs (by simp) (congrArg Status.closed (settle_status _).1) (settle_waking _ _)
  | finish now reason rest hs hc =>
    exact .inl (congrArg Status.closed (finish_status (d := { d with stack := rest }) reason hc).1)
  | finishRest now reason rest hs =>
    exact .inl ((finishRest_fields d rest reason).1.trans (hl.closing hs))
  | executorRest now rest hs =>
    exact still hs (by simp) (congrArg Status.closed (executorRest_status (d := { d with stack := rest })).1)
      (executorRest_waking _)

/-- **The timer is never too late** in a run of which no step hastens the engine's deadline
unnoticed. -/
theorem timer_on_time (hE : E.Steady) (options : ResolvedOptions) (engine : E.State)
    (labels : List Label)
    (hu : Meets step (fun d l => d.unnoticed l = false) (start options engine) labels) :
    (run step (start options engine) labels).closed = false →
    (run step (start options engine) labels).idle = true →
    (run step (start options engine) labels).outboundScheduled = false →
    (run step (start options engine) labels).Punctual := by
  intro hc hi ho
  have h := invariant_of_meets (I := fun d => d.Ledger ∧ d.OnTime)
    (fun d l hd hu => ⟨ledger_turn (turn_step d l) hd.1, onTime_step hE hd.1 l hd.2 hu⟩)
    ⟨ledger_start options engine, .inr (.inr (.inl rfl))⟩ hu
  rcases h.2 with h | h | h | h
  · exact absurd (hc.symm.trans h) nofun
  · exact absurd (ho.symm.trans h) nofun
  · rw [List.isEmpty_iff.mp hi] at h
    cases h
  · exact h

theorem steady_timed : Script.timed.Steady where
  nextDeadline _ := rfl
  pollEvent _ := rfl
  drainEvents _ hd _ _ := Option.some.inj hd ▸ rfl
  negotiatedCipherSuite := nofun
  bufferedBytes _ hf _ := Option.some.inj hf ▸ rfl
  droppedDatagrams := nofun

/-- A message fills the engine and its timer is armed; a second one waits in the queue. -/
def secondWaits : List Label :=
  Script.opening ++ [.send [1, 2, 3, 4]] ++ Script.settle ++ [.send [5]]

theorem timer_on_time_waiting :
    (run step (Script.timing Script.batched) secondWaits).timerArmed = true ∧
      (run step (Script.timing Script.batched) secondWaits).Punctual :=
  ⟨by decide +kernel,
    timer_on_time steady_timed _ _ secondWaits (by decide +kernel) (by decide +kernel)
      (by decide +kernel) (by decide +kernel)⟩

/-- The timer fires, and then the acknowledgement comes. -/
def secondFlushed : List Label :=
  secondWaits ++ [.timer (.finite 10)] ++ Script.settle ++ [.datagram (.finite 20) [3]] ++ Script.settle

/-- The flush behind the acknowledgement sends the second message, which is due at 10, and
the timer stays at 100. -/
theorem timer_too_late :
    (run step (Script.timing Script.batched) secondFlushed).closed = false ∧
      (run step (Script.timing Script.batched) secondFlushed).idle = true ∧
      (run step (Script.timing Script.batched) secondFlushed).inboundScheduled = false ∧
      (run step (Script.timing Script.batched) secondFlushed).outboundScheduled = false ∧
      (run step (Script.timing Script.batched) secondFlushed).scheduledDeadline = some (.finite 100) ∧
      ¬ (run step (Script.timing Script.batched) secondFlushed).Punctual := by
  refine ⟨by decide +kernel, by decide +kernel, by decide +kernel, by decide +kernel,
    by decide +kernel, fun h => ?_⟩
  have hd : Script.timed.deadline (run step (Script.timing Script.batched) secondFlushed).engine =
      some (.finite 10) := by decide +kernel
  exact absurd (h.firesBy hd nofun) (by decide +kernel)

end Connection

end RtcTunnel.Driver
