import RtcTunnel.Driver.Deferral
import RtcTunnel.Driver.Settlement

/-!
# The handshake deadline

An engine that waits for its channel wants a tick by the handshake deadline, and that
tick ends the wait. So no pending promise is left without a timer, and none outlasts
the timer that fires at the deadline.
-/

namespace RtcTunnel.Driver

open RtcTunnel.Core
open RtcTunnel.Base.Run

set_option autoImplicit false

/-- An event that settles the promise. -/
def EngineEvent.settles : EngineEvent → Bool
  | .opened => true
  | .closed _ => true
  | _ => false

/-- The handshake of an engine with its deadline at `limit`. It is `waiting` until it emits
`Opened` or `Closed`; from then on, until it has handed that event out, it is `announced`. In
batches it does so if their size is a whole number below 2³². -/
structure Handshake (E : EngineApi) (limit : F64) where
  waiting : E.State → Prop
  announced : E.State → Prop
  due : ∀ s, waiting s → ∃ deadline, E.deadline s = some deadline ∧ deadline.le limit = true
  feed : ∀ s t, E.Feed s t → (waiting s → waiting t ∨ announced t) ∧ (announced s → announced t)
  timeout : ∀ s now, waiting s → limit.le now = true → announced (E.tick s now)
  nextDeadline : ∀ s, (waiting s → waiting (E.nextDeadline s).2) ∧
    (announced s → announced (E.nextDeadline s).2)
  pollEvent : ∀ s event t, E.pollEvent s = (event, t) → event.settles = false →
    (waiting s → waiting t ∨ event ≠ .none ∧ announced t) ∧
      (announced s → event ≠ .none ∧ announced t)
  drainEvents : ∀ drain, E.drainEvents = some drain →
    ∀ s size, size.isPositive = true → size.lt (.ofInt 4294967296) = true → size.isWhole = true →
      ∀ events t, drain s size = (events, t) → events.any EngineEvent.settles = false →
        (waiting s → waiting t ∨ (F64.ofInt events.length).lt size = false ∧ announced t) ∧
          (announced s → (F64.ofInt events.length).lt size = false ∧ announced t)

namespace Handshake

variable {E : EngineApi} {limit : F64} (K : Handshake E limit)

theorem feeds {s t : E.State} (h : E.Feeds s t) :
    (K.waiting s → K.waiting t ∨ K.announced t) ∧ (K.announced s → K.announced t) := by
  induction h with
  | refl => exact ⟨.inl, id⟩
  | tail _ hf ih =>
    obtain ⟨hw, ha⟩ := K.feed _ _ hf
    exact ⟨fun h => (ih.1 h).elim hw (.inr ∘ ha), fun h => ha (ih.2 h)⟩

/-- The same engine once it has emitted the event: there is no waiting any more. -/
def spent : Handshake E limit where
  waiting _ := False
  announced := K.announced
  due _ := False.elim
  feed s t h := ⟨False.elim, (K.feed s t h).2⟩
  timeout _ _ := False.elim
  nextDeadline s := ⟨False.elim, (K.nextDeadline s).2⟩
  pollEvent s event t hp he := ⟨False.elim, (K.pollEvent s event t hp he).2⟩
  drainEvents drain hd s size hp hl hw events t hr he :=
    ⟨False.elim, (K.drainEvents drain hd s size hp hl hw events t hr he).2⟩

end Handshake

/-- A task that will settle the promise: a close, or an event in hand. -/
def Task.ends : Task → Bool
  | .finish _ => true
  | .apply events _ => events.any EngineEvent.settles
  | _ => false

/-- A task that goes on to take events off the engine. -/
def Task.loops (E : EngineApi) : Task → Bool
  | .pump => true
  | .drainLoop => E.drainEvents.isSome
  | .pollLoop => true
  | .apply _ (.batch short) => !short && E.drainEvents.isSome
  | .apply _ .poll => true
  | _ => false

namespace Connection

variable {E : EngineApi} {limit : F64}

/-- Something is under way to settle the promise, or the timer is armed for the handshake
deadline or before. -/
def Underway (K : Handshake E limit) (d : Connection E) : Prop :=
  (∃ t ∈ d.stack, t.ends = true) ∨
  (K.announced d.engine ∧ ∃ t ∈ d.stack, t.loops E = true) ∨
  (K.waiting d.engine ∧ (d.stack.head? = some .pump ∨ d.firesBy limit = true))

/-- So it is while the promise is pending. -/
def Bounded (K : Handshake E limit) (d : Connection E) : Prop :=
  d.promise = .pending → d.opened = false → d.closed = false → d.Underway K

variable {d r : Connection E} {K : Handshake E limit}

/-- Nothing is sent before the channel is open. -/
def Unsent (d : Connection E) : Prop := d.opened = false → d.queue = []

theorem queue_flushFrom_nil (d : Connection E) (h : d.queue = []) : d.flushQueue = d := by
  rw [flushQueue, h]
  rfl

theorem unsent_step (l : Label) (h : d.Unsent) : (d.step l).Unsent := by
  have hlater := later_step d l
  have hturn := turn_step d l
  generalize d.step l = r at hlater hturn ⊢
  intro ho
  have hd : d.opened = false := by
    by_contra hn
    exact absurd ((hlater.opened (by simpa using hn)).symm.trans ho) nofun
  have hq := h hd
  cases hturn with
  | inert _ _ closed disposed queue => exact queue.trans hq
  | flush now m rest loop hs hc hb hm hl =>
    have hmq : m.queue = [] := hm.queue.trans hq
    rw [queue_flushFrom_nil m hmq]
    exact hmq
  | send data =>
    rw [handleSend]
    dsimp only
    rw [if_pos (by simp [hd])]
    exact hq
  | finish now reason rest hs hc => exact (finish_queue rest reason hc).1
  | finishRest now reason rest hs => exact (finishRest_queue d rest reason).1.trans hq

/-- A task that neither settles the promise nor goes on to the engine. -/
theorem Underway.pop {top : Task} {rest : List Task} (h : d.Underway K)
    (hs : d.stack = top :: rest) (he : top.ends = false) (ht : top.loops E = false)
    (above : List Task) (hr : r.stack = above ++ rest) (hw : r.waking = d.waking) :
    r.Underway K := by
  have hengine : r.engine = d.engine := congrArg Waking.engine hw
  have below : ∀ t ∈ d.stack, t ≠ top → t ∈ r.stack := by
    intro t hm hne
    rw [hs] at hm
    rw [hr]
    exact List.mem_append_right _ ((List.mem_cons.mp hm).resolve_left hne)
  rcases h with ⟨t, hm, hte⟩ | ⟨ha, t, hm, htl⟩ | ⟨hwait, hf⟩
  · refine .inl ⟨t, below t hm ?_, hte⟩
    rintro rfl
    exact absurd (he.symm.trans hte) nofun
  · refine .inr (.inl ⟨hengine ▸ ha, t, below t hm ?_, htl⟩)
    rintro rfl
    exact absurd (ht.symm.trans htl) nofun
  · refine .inr (.inr ⟨hengine ▸ hwait, .inr ?_⟩)
    rcases hf with hf | hf
    · rw [hs] at hf
      obtain rfl : top = .pump := Option.some.inj hf
      cases ht
    · exact (firesBy_waking hw limit).trans hf

/-- A task that goes on with another that does as much. -/
theorem Underway.replace {top t' : Task} {rest : List Task} (h : d.Underway K)
    (hs : d.stack = top :: rest) (hp : top ≠ .pump) (he : top.ends = true → t'.ends = true)
    (ht : top.loops E = true → t'.loops E = true) (above : List Task)
    (hr : r.stack = above ++ t' :: rest) (hw : r.waking = d.waking) : r.Underway K := by
  have hengine : r.engine = d.engine := congrArg Waking.engine hw
  have hmem : t' ∈ r.stack := hr ▸ List.mem_append_right _ (List.mem_cons_self ..)
  have below : ∀ t ∈ rest, t ∈ r.stack := fun t hm =>
    hr ▸ List.mem_append_right _ (List.mem_cons_of_mem _ hm)
  rcases h with ⟨t, hm, hte⟩ | ⟨ha, t, hm, htl⟩ | ⟨hwait, hf⟩
  · rw [hs] at hm
    rcases List.mem_cons.mp hm with rfl | hm
    · exact .inl ⟨t', hmem, he hte⟩
    · exact .inl ⟨t, below t hm, hte⟩
  · rw [hs] at hm
    rcases List.mem_cons.mp hm with rfl | hm
    · exact .inr (.inl ⟨hengine ▸ ha, t', hmem, ht htl⟩)
    · exact .inr (.inl ⟨hengine ▸ ha, t, below t hm, htl⟩)
  · refine .inr (.inr ⟨hengine ▸ hwait, .inr ?_⟩)
    rcases hf with hf | hf
    · rw [hs] at hf
      exact absurd (Option.some.inj hf) hp
    · exact (firesBy_waking hw limit).trans hf

/-- At the top level only a timer is left to wait for. -/
theorem Underway.idle (h : d.Underway K) (hi : d.idle = true) :
    K.waiting d.engine ∧ d.firesBy limit = true := by
  have hs : d.stack = [] := List.isEmpty_iff.mp hi
  rcases h with ⟨t, hm, _⟩ | ⟨_, t, hm, _⟩ | ⟨hwait, hf⟩
  · rw [hs] at hm
    cases hm
  · rw [hs] at hm
    cases hm
  · refine ⟨hwait, hf.resolve_left fun hf => ?_⟩
    rw [hs] at hf
    cases hf

theorem underway_pumped {m : Connection E} (h : K.waiting m.engine ∨ K.announced m.engine) :
    (m.push [.pump]).Underway K := by
  rcases h with h | h
  · exact .inr (.inr ⟨h, .inl rfl⟩)
  · exact .inr (.inl ⟨h, .pump, List.mem_cons_self .., rfl⟩)

theorem useBatch_loops (d : Connection E) : d.pumpLoop.loops E = true := by
  unfold pumpLoop
  split
  · rename_i hu
    rw [useBatch, Bool.and_eq_true] at hu
    exact hu.2
  · rfl

/-- The head of a pump arms the timer by the handshake deadline. -/
theorem Underway.pump {rest : List Task} (h : d.Underway K) (now : F64)
    (hs : d.stack = .pump :: rest) (hc : d.closed = false) (hq : d.queue = []) :
    (({ d with stack := rest }.pumpHead now).push [d.pumpLoop]).Underway K := by
  have hq' : (schedule { d with stack := rest } now).queue = [] :=
    (frame_schedule { d with stack := rest } now).queue.trans hq
  have hhead : pumpHead { d with stack := rest } now = schedule { d with stack := rest } now := by
    unfold pumpHead
    dsimp only
    split
    · exact queue_flushFrom_nil _ hq'
    · rfl
  rw [hhead]
  have hengine := schedule_engine { d with stack := rest } now hc
  have hstack := (inside_schedule { d with stack := rest } now).stack
  rcases h with ⟨t, hm, hte⟩ | ⟨ha, t, hm, htl⟩ | ⟨hwait, _⟩
  · rw [hs] at hm
    rcases List.mem_cons.mp hm with rfl | hm
    · cases hte
    · exact .inl ⟨t, List.mem_cons_of_mem _ (hstack ▸ hm), hte⟩
  · refine .inr (.inl ⟨?_, d.pumpLoop, List.mem_cons_self .., useBatch_loops d⟩)
    exact hengine ▸ (K.nextDeadline d.engine).2 ha
  · refine .inr (.inr ⟨hengine ▸ (K.nextDeadline d.engine).1 hwait, .inr ?_⟩)
    obtain ⟨deadline, hd, hle⟩ := K.due d.engine hwait
    exact firesBy_later (schedule_fires now hc hd (F64.ne_nan_of_le hle)) hle

/-- Events taken off the engine settle the promise, or leave it to those behind them. -/
theorem Underway.taken {m : Connection E} {top : Task} {rest : List Task} {events : List EngineEvent}
    {source : Source} (h : d.Underway K) (hs : d.stack = top :: rest) (hp : top ≠ .pump)
    (he : top.ends = false) (hm : m.stack = rest) (hf : m.firesBy limit = d.firesBy limit)
    (hsource : (events.any EngineEvent.settles = false) →
      (K.waiting d.engine → K.waiting m.engine ∨
        (Task.apply events source).loops E = true ∧ K.announced m.engine) ∧
      (K.announced d.engine → (Task.apply events source).loops E = true ∧ K.announced m.engine)) :
    (m.push [.apply events source]).Underway K := by
  have hmem : .apply events source ∈ (m.push [.apply events source]).stack := List.mem_cons_self ..
  by_cases hset : events.any EngineEvent.settles = true
  · exact .inl ⟨_, hmem, hset⟩
  · obtain ⟨hwait, hann⟩ := hsource (by simpa using hset)
    have announced : (Task.apply events source).loops E = true ∧ K.announced m.engine →
        (m.push [.apply events source]).Underway K := fun h => .inr (.inl ⟨h.2, _, hmem, h.1⟩)
    rcases h with ⟨t, hmt, hte⟩ | ⟨ha, _⟩ | ⟨hw, hfire⟩
    · rw [hs] at hmt
      rcases List.mem_cons.mp hmt with rfl | hmt
      · exact absurd (he.symm.trans hte) nofun
      · exact .inl ⟨t, List.mem_cons_of_mem _ (hm ▸ hmt), hte⟩
    · exact announced (hann ha)
    · rcases hwait hw with hw | ha
      · refine .inr (.inr ⟨hw, .inr ?_⟩)
        rcases hfire with hfire | hfire
        · rw [hs] at hfire
          exact absurd (Option.some.inj hfire) hp
        · exact hf.trans hfire
      · exact announced ha

theorem apply_loops {events : List EngineEvent} {source : Source} :
    (Task.apply events source).loops E = (Task.apply [] source).loops E := by
  cases source <;> rfl

theorem bounded_step (l : Label) (hraise : l.isRaise = false) (hd : d.Orderly)
    (hsize : WholeOrOff d.options) (hbatches : d.Batches) (hu : d.Unsent) (h : d.Bounded K) :
    (d.step l).Bounded K := by
  obtain ⟨hl, hb⟩ := hd
  have hlater := later_step d l
  have hact := action_step d l
  generalize d.step l = r at hlater hact ⊢
  intro hp ho hc
  have hpd : d.promise = .pending := by
    by_contra hn
    exact hn ((hlater.promise hn).symm.trans hp)
  have hod : d.opened = false := by
    by_contra hn
    exact absurd ((hlater.opened (by simpa using hn)).symm.trans ho) (by simp)
  have hcd : d.closed = false := by
    by_contra hn
    exact absurd ((hlater.closed (by simpa using hn)).symm.trans hc) (by simp)
  have unhanded : d.handed = true → r.Underway K :=
    fun hh => absurd (hpd.symm.trans (hb.handed hh)) (by simp)
  have h := h hpd hod hcd
  cases hact with
  | nothing => exact h
  | send data ho hh => exact unhanded hh
  | close ho hh => exact unhanded hh
  | stats ho hh => exact unhanded hh
  | error message ho => exact .inl ⟨.finish message, List.mem_cons_self .., rfl⟩
  | feed _ m hi hm hf => exact underway_pumped ((K.feeds hf).1 (h.idle hi).1)
  | wait _ m hi hm hw =>
    have hengine : r.engine = d.engine := congrArg Waking.engine hw
    obtain ⟨hwait, hfire⟩ := h.idle hi
    refine .inr (.inr ⟨?_, .inr ((firesBy_waking hw limit).trans hfire)⟩)
    rw [hengine]
    exact hwait
  | resume hi hres => exact absurd (hpd.symm.trans hres) (by simp)
  | ret rest hs => exact h.pop hs rfl rfl [] rfl rfl
  | raise => cases hraise
  | idles now task rest hs ht =>
    cases ht with
    | pump hcl => exact absurd (hcd.symm.trans hcl) (by simp)
    | drainLoop hd =>
      have hnone : E.drainEvents = none := hd.resolve_left fun hcl => absurd (hcd.symm.trans hcl) (by simp)
      refine h.pop hs rfl ?_ [] rfl rfl
      rw [Task.loops, hnone]
      rfl
    | finish reason hcl => exact absurd (hcd.symm.trans hcl) (by simp)
    | apply => exact h.pop hs rfl rfl [] rfl rfl
  | pump now rest hs hcl => exact h.pump now hs hcl (hu hod)
  | drain now events engine short rest hs hcl hd hshort =>
    obtain ⟨drain, hd, hr⟩ := hd
    refine h.taken (m := { d with stack := rest }.call .drainEvents engine) hs (by simp) rfl rfl rfl
      fun hev => ?_
    obtain ⟨hpos, hlt, hwhole⟩ := hbatches.size hsize hs
    obtain ⟨hw, ha⟩ := K.drainEvents drain hd d.engine _ hpos hlt hwhole events engine hr hev
    have loops : (F64.ofInt events.length).lt d.options.eventBatchSize = false →
        (Task.apply events (.batch short)).loops E = true := by
      intro hn
      rw [Task.loops, hshort, hn, hd]
      rfl
    exact ⟨fun h => (hw h).imp_right fun h => ⟨loops h.1, h.2⟩,
      fun h => ⟨loops (ha h).1, (ha h).2⟩⟩
  | poll now event engine rest hs hpoll hne =>
    refine h.taken (m := { d with stack := rest }.call .pollEvent engine) hs (by simp) rfl rfl rfl fun hev => ?_
    have hev : event.settles = false := by simpa using hev
    obtain ⟨hw, ha⟩ := K.pollEvent d.engine event engine hpoll hev
    exact ⟨fun h => (hw h).imp_right fun h => ⟨rfl, h.2⟩, fun h => ⟨rfl, (ha h).2⟩⟩
  | pollNone now engine rest hs hpoll =>
    obtain ⟨hw, ha⟩ := K.pollEvent d.engine .none engine hpoll rfl
    rcases h with ⟨t, hm, hte⟩ | ⟨hann, _⟩ | ⟨hwait, hf⟩
    · rw [hs] at hm
      rcases List.mem_cons.mp hm with rfl | hm
      · cases hte
      · exact .inl ⟨t, hm, hte⟩
    · exact absurd rfl (ha hann).1
    · refine .inr (.inr ⟨(hw hwait).resolve_right fun hn => hn.1 rfl, .inr ?_⟩)
      rcases hf with hf | hf
      · rw [hs] at hf
        cases hf
      · exact hf
  | apply now event events source rest hs =>
    have loops : (Task.apply (event :: events) source).loops E = true →
        (Task.apply events source).loops E = true :=
      fun h => (apply_loops.trans apply_loops.symm).trans h
    have ends : event.settles = false → (Task.apply (event :: events) source).ends = true →
        (Task.apply events source).ends = true := by
      intro he hany
      rw [Task.ends, List.any_cons, he] at hany
      exact hany
    cases event with
    | none => exact h.replace hs (by simp) (ends rfl) loops [] rfl rfl
    | datagram data => exact h.replace hs (by simp) (ends rfl) loops [.callback] rfl rfl
    | message data => exact h.replace hs (by simp) (ends rfl) loops [.callback] rfl rfl
    | closed reason => exact .inl ⟨.finish (Driver.closeReason reason), List.mem_cons_self .., rfl⟩
    | opened =>
      have hn : ({ d with stack := rest }.applyEvent .opened (.apply events source)).opened = true := by
        rw [applyEvent, if_neg (by simp [hod])]
        rfl
      exact absurd (ho.symm.trans hn) (by simp)
  | loop now source loop rest hs hloop =>
    refine h.replace hs (by simp) (absurd · Bool.false_ne_true) ?_ [] rfl rfl
    rcases source with (_ | _) | _ <;> cases hloop
    · exact fun hb => hb
    · exact id
  | settleOpen now rest hs =>
    obtain ⟨hst, _, _⟩ := settle_status (d := { d with stack := rest }) .resolved
    have hr := congrArg Status.promise hst
    exact absurd (hp.symm.trans (hr.trans (if_pos hpd))) (by simp)
  | finish now reason rest hs hcl =>
    obtain ⟨hst, _, _⟩ := finish_status (d := { d with stack := rest }) reason hcl
    exact absurd (hc.symm.trans (congrArg Status.closed hst)) (by simp)
  | finishRest now reason rest hs => exact absurd (hcd.symm.trans (hl.closing hs)) (by simp)
  | executorRest now rest hs =>
    have hst := (executorRest_status (d := { d with stack := rest })).1
    exact h.pop hs rfl rfl [] (congrArg Status.stack hst) (executorRest_waking _)

/-- The endpoint reports its errors while no code of the driver is running. -/
def betweenTurns (d : Connection E) : Label → Bool
  | .error _ => d.idle
  | _ => true

end Connection

/-- A task that takes events or closes. -/
def Task.busy : Task → Bool
  | .pump => true
  | .drainLoop => true
  | .pollLoop => true
  | .apply _ _ => true
  | .finish _ => true
  | _ => false

/-- A pump behind its first check of `closed`. -/
def Task.inPump : Task → Bool
  | .drainLoop => true
  | .pollLoop => true
  | .apply _ _ => true
  | _ => false

namespace Connection

variable {E : EngineApi} {limit : F64} {d r : Connection E} {K : Handshake E limit}

/-- Before the channel opens no pump runs inside another, nor a close inside a pump. -/
def Single (d : Connection E) : Prop :=
  d.opened = false →
    d.stack.countP Task.busy ≤ 1 ∧ (d.closed = true → ∀ t ∈ d.stack, t.inPump = false)

theorem busy_of_inPump {t : Task} (h : t.inPump = true) : t.busy = true := by
  cases t with
  | drainLoop => rfl
  | pollLoop => rfl
  | apply events source => rfl
  | _ => cases h

theorem Single.pop {top : Task} {rest : List Task} (h : d.Single) (ho : d.opened = false)
    (hs : d.stack = top :: rest) (above : List Task) (hr : r.stack = above ++ rest)
    (hc : r.closed = d.closed) (hb : above.countP Task.busy ≤ [top].countP Task.busy)
    (ha : d.closed = true → ∀ t ∈ above, t.inPump = false) : r.Single := by
  intro _
  obtain ⟨hcount, hclosed⟩ := h ho
  rw [hs] at hcount hclosed
  constructor
  · rw [List.countP_cons, ← List.countP_singleton] at hcount
    rw [hr, List.countP_append]
    omega
  · intro hcl t hm
    rw [hr] at hm
    rcases List.mem_append.mp hm with hm | hm
    · exact ha (hc ▸ hcl) t hm
    · exact hclosed (hc ▸ hcl) t (List.mem_cons_of_mem _ hm)

theorem Single.enter (hi : d.idle = true) (above : List Task) (hr : r.stack = above ++ d.stack)
    (hb : above.countP Task.busy ≤ 1) (ha : ∀ t ∈ above, t.inPump = false) : r.Single := by
  have hs : d.stack = [] := List.isEmpty_iff.mp hi
  rw [hs, List.append_nil] at hr
  intro _
  rw [hr]
  exact ⟨hb, fun _ => ha⟩

theorem single_step (l : Label) (hraise : l.isRaise = false) (hb : d.Balance)
    (hturn : d.betweenTurns l = true) (h : d.Single) : (d.step l).Single := by
  have hlater := later_step d l
  have hact := action_step d l
  generalize d.step l = r at hlater hact ⊢
  by_cases ho : d.opened = true
  · exact fun hn => absurd ((hlater.opened ho).symm.trans hn) (by simp)
  have ho : d.opened = false := by simpa using ho
  have unhanded : d.handed = true → r.Single :=
    fun hh => absurd ((hb.resolved (hb.handed hh)).symm.trans ho) (by simp)
  cases hact with
  | nothing => exact h
  | send data ho hh => exact unhanded hh
  | close ho hh => exact unhanded hh
  | stats ho hh => exact unhanded hh
  | error message _ =>
    exact Single.enter hturn [.finish message] rfl (Nat.le_refl _) (List.forall_mem_singleton.mpr rfl)
  | feed _ m hi hm hf =>
    exact Single.enter hi [.pump] (congrArg (Task.pump :: ·) hm.stack) (Nat.le_refl _)
      (List.forall_mem_singleton.mpr rfl)
  | wait _ m hi hm hw => exact Single.enter hi [] hm.stack (Nat.zero_le _) (by simp)
  | resume hi hp => exact absurd ((hb.resolved hp).symm.trans ho) (by simp)
  | ret rest hs => exact h.pop ho hs [] rfl rfl (Nat.zero_le _) fun _ => by simp
  | raise => cases hraise
  | idles now task rest hs ht => exact h.pop ho hs [] rfl rfl (Nat.zero_le _) fun _ => by simp
  | pump now rest hs hcl =>
    have hm := inside_pumpHead { d with stack := rest } now
    refine h.pop ho hs [d.pumpLoop] (congrArg (d.pumpLoop :: ·) hm.stack) hm.closed ?_
      fun hn => absurd (hcl.symm.trans hn) (by simp)
    unfold pumpLoop
    split <;> exact Nat.le_refl _
  | drain now events engine short rest hs hcl hd hshort =>
    exact h.pop ho hs [.apply events (.batch short)] rfl rfl (Nat.le_refl _)
      fun hn => absurd (hcl.symm.trans hn) (by simp)
  | poll now event engine rest hs hp he =>
    refine h.pop ho hs [.apply [event] .poll] rfl rfl (Nat.le_refl _) fun hn => ?_
    exact absurd ((h ho).2 hn .pollLoop (hs ▸ List.mem_cons_self ..)) Bool.false_ne_true.symm
  | pollNone now engine rest hs hp => exact h.pop ho hs [] rfl rfl (Nat.zero_le _) fun _ => by simp
  | apply now event events source rest hs =>
    have open' : ∀ above : List Task, d.closed = true → ∀ t ∈ above, t.inPump = false :=
      fun above hn => absurd ((h ho).2 hn (.apply (event :: events) source)
        (hs ▸ List.mem_cons_self ..)) Bool.false_ne_true.symm
    cases event with
    | none => exact h.pop ho hs [_] rfl rfl (Nat.le_refl _) (open' _)
    | datagram data => exact h.pop ho hs [.callback, _] rfl rfl (Nat.le_refl _) (open' _)
    | message data => exact h.pop ho hs [.callback, _] rfl rfl (Nat.le_refl _) (open' _)
    | closed reason => exact h.pop ho hs [_] rfl rfl (Nat.le_refl _) (open' _)
    | opened =>
      intro hn
      rw [applyEvent, if_neg (by simp [ho])] at hn
      cases hn
  | loop now source loop rest hs hloop =>
    refine h.pop ho hs [loop] rfl rfl ?_ fun hn => ?_
    · rcases source with (_ | _) | _ <;> cases hloop <;> exact Nat.le_refl _
    · exact absurd ((h ho).2 hn (.apply [] source) (hs ▸ List.mem_cons_self ..)) Bool.false_ne_true.symm
  | settleOpen now rest hs =>
    obtain ⟨hst, _, _⟩ := settle_status (d := { d with stack := rest }) .resolved
    exact h.pop ho hs [] (congrArg Status.stack hst) (congrArg Status.closed hst) (Nat.zero_le _)
      fun _ => by simp
  | finish now reason rest hs hcl =>
    obtain ⟨hst, _, _⟩ := finish_status (d := { d with stack := rest }) reason hcl
    have hstack : ({ d with stack := rest }.finish reason).stack =
        .callback :: .finishRest reason :: rest := congrArg Status.stack hst
    -- The close was the only task of its kind.
    have hzero : rest.countP Task.busy = 0 := by
      have hcount := (h ho).1
      rw [hs, List.countP_cons_of_pos rfl] at hcount
      omega
    intro _
    rw [hstack]
    refine ⟨Nat.le_trans (Nat.le_of_eq hzero) (Nat.zero_le _), fun _ => ?_⟩
    refine List.forall_mem_cons.mpr ⟨rfl, List.forall_mem_cons.mpr ⟨rfl, fun t hm => ?_⟩⟩
    by_contra hn
    exact List.countP_eq_zero.mp hzero t hm (busy_of_inPump (by simpa using hn))
  | finishRest now reason rest hs =>
    obtain ⟨hst, _, _⟩ := finishRest_status (d := { d with stack := rest }) reason
    have ho' : ¬ ({ d with stack := rest } : Connection E).opened = true := by
      show ¬ d.opened = true
      simp [ho]
    rw [if_neg ho'] at hst
    exact h.pop ho hs [] (congrArg Status.stack hst) (congrArg Status.closed hst) (Nat.zero_le _)
      fun _ => by simp
  | executorRest now rest hs =>
    have hst := (executorRest_status (d := { d with stack := rest })).1
    exact h.pop ho hs [] (congrArg Status.stack hst) (congrArg Status.closed hst) (Nat.zero_le _)
      fun _ => by simp

/-- No `Opened` is applied behind a close then. -/
theorem Single.opensClosed (h : d.Single) (l : Label) : d.opensClosed l = false := by
  cases l with
  | advance now =>
    rw [Connection.opensClosed]
    split
    · rename_i events source rest hs
      rw [Bool.and_eq_false_iff, Bool.not_eq_false']
      by_cases ho : d.opened = true
      · exact .inr ho
      · refine .inl ?_
        by_contra hc
        have hin := (h (by simpa using ho)).2 (by simpa using hc) _ (hs ▸ List.mem_cons_self ..)
        cases hin
    · rfl
  | _ => rfl

/-- What holds of a connection with such an engine. -/
structure Settling (K : Handshake E limit) (d : Connection E) : Prop extends d.Orderly where
  size : WholeOrOff d.options
  batches : d.Batches
  unsent : d.Unsent
  bounded : d.Bounded K

theorem settling_start {options : ResolvedOptions} (hsize : WholeOrOff options) {engine : E.State}
    (hw : K.waiting engine) : (start options engine).Settling K where
  toOrderly := orderly_start options engine
  size := hsize
  batches := batches_start options engine
  unsent _ := rfl
  bounded _ _ _ := .inr (.inr ⟨hw, .inl rfl⟩)

theorem settling_step (l : Label) (hraise : l.isRaise = false) (hc : d.opensClosed l = false)
    (h : d.Settling K) : (d.step l).Settling K where
  toOrderly := orderly_step l hraise hc h.toOrderly
  size := by
    rw [(kept_turn (turn_step d l)).1]
    exact h.size
  batches := batches_step l hraise h.batches
  unsent := unsent_step l h.unsent
  bounded := bounded_step l hraise h.toOrderly h.size h.batches h.unsent h.bounded

theorem settling_run {labels : List Label} (h : d.Settling K)
    (hraise : ∀ l ∈ labels, l.isRaise = false)
    (hc : Meets step (fun d l => d.opensClosed l = false) d labels) :
    (run step d labels).Settling K :=
  invariant_of_meets (fun _ l h hm => settling_step l hm.1 hm.2 h) h
    ((meets_iff_forall (C := fun l : Label => l.isRaise = false)).mpr hraise |>.and hc)

/-- A promise that is pending at the top level has its timer. -/
theorem Settling.pending (h : d.Settling K) (hi : d.idle = true) (hp : d.promise = .pending) :
    d.opened = false ∧ d.closed = false ∧ K.waiting d.engine ∧ d.firesBy limit = true := by
  obtain ⟨hc, hn⟩ := h.settledOnce.settled hi hp
  have ho : d.opened = false := by
    by_contra ho
    exact hn (h.balance.opened_iff.mp (by simpa using ho))
  exact ⟨ho, hc, (h.bounded hp ho hc).idle hi⟩

/-- A tick at the handshake deadline ends the wait. -/
theorem Settling.timer (h : d.Settling K) {now : F64} (hi : d.idle = true)
    (hp : d.promise = .pending) (hnow : limit.le now = true) :
    (d.step (.timer now)).Settling K.spent := by
  obtain ⟨_, _, hwait, hfire⟩ := h.pending hi hp
  have hs : d.step (.timer now) = d.timerFires now := by
    rw [step, if_pos (by rw [hi, (firesBy_iff.mp hfire).1]; rfl)]
  have hnext := settling_step (.timer now) rfl rfl h
  refine ⟨hnext.toOrderly, hnext.size, hnext.batches, hnext.unsent, fun _ _ _ => ?_⟩
  rw [hs]
  exact .inr (.inl ⟨K.timeout d.engine now hwait hnow, .pump, List.mem_cons_self .., rfl⟩)

theorem promise_run {labels : List Label} (hp : d.promise ≠ .pending) :
    (run step d labels).promise = d.promise :=
  invariant (I := fun r : Connection E => r.promise = d.promise)
    (fun r l hr => ((later_step r l).promise (hr ▸ hp)).trans hr) labels rfl

theorem single_run {labels : List Label} (h : d.Orderly) (hs : d.Single)
    (hraise : ∀ l ∈ labels, l.isRaise = false)
    (hturn : Meets step (fun d l => d.betweenTurns l = true) d labels) :
    Meets step (fun d l => d.opensClosed l = false) d labels := by
  induction labels generalizing d with
  | nil => trivial
  | cons l labels ih =>
    obtain ⟨hl, hraise⟩ := List.forall_mem_cons.mp hraise
    have hopen := hs.opensClosed l
    exact ⟨hopen, ih (orderly_step l hl hopen h) (single_step l hl h.balance hturn.1 hs) hraise
      hturn.2⟩

/-- **The promise settles, and the callbacks balance.** In a run without exceptions that
applies no `Opened` to a connection closed before, what the caller is told is in order, and a
settled promise stays as it is. If events are taken one by one or in batches of a whole size
below 2³², then while the promise is pending between turns the timer is armed for the handshake
deadline or before; and behind a timer that fires at the deadline it is settled as soon as no
code is running. An endpoint that reports its errors between turns never has an `Opened`
applied behind a close. -/
theorem settles_and_balances {limit : F64} (K : Handshake E limit) (options : ResolvedOptions)
    (engine : E.State) (hw : K.waiting engine) (labels : List Label)
    (hraise : ∀ l ∈ labels, l.isRaise = false) :
    (Meets step (fun d l => d.betweenTurns l = true) (start options engine) labels →
      Meets step (fun d l => d.opensClosed l = false) (start options engine) labels) ∧
    (Meets step (fun d l => d.opensClosed l = false) (start options engine) labels →
      (run step (start options engine) labels).SettledOnce ∧
      (∀ before after, labels = before ++ after →
        (run step (start options engine) before).promise ≠ .pending →
        (run step (start options engine) labels).promise =
          (run step (start options engine) before).promise) ∧
      (WholeOrOff options →
        ((run step (start options engine) labels).idle = true →
          (run step (start options engine) labels).promise = .pending →
          (run step (start options engine) labels).timerArmed = true ∧
            ∃ scheduled,
              (run step (start options engine) labels).scheduledDeadline = some scheduled ∧
                scheduled.le limit = true) ∧
        ∀ before now after, labels = before ++ .timer now :: after → limit.le now = true →
          (run step (start options engine) before).idle = true →
          (run step (start options engine) before).promise = .pending →
          (run step (start options engine) labels).idle = true →
          (run step (start options engine) labels).promise ≠ .pending)) := by
  have hstart := orderly_start options engine
  refine ⟨single_run hstart (fun _ => ⟨Nat.le_refl 1, nofun⟩) hraise, fun hopens => ?_⟩
  refine ⟨(orderly_run hstart hraise hopens).settledOnce, ?_, fun hsize => ⟨?_, ?_⟩⟩
  · rintro before after rfl hp
    rw [run_append]
    exact promise_run hp
  · intro hi hp
    have h := settling_run (settling_start hsize hw) hraise hopens
    exact firesBy_iff.mp (h.pending hi hp).2.2.2
  · rintro before now after rfl hnow hi hp hend hpend
    obtain ⟨hbefore, hafter⟩ := meets_append.mp hopens
    have hraise' := List.forall_mem_append.mp hraise
    have hthen := settling_run (settling_start hsize hw) hraise'.1 hbefore
    have hticked := hthen.timer hi hp hnow
    have hlast := settling_run hticked (List.forall_mem_cons.mp hraise'.2).2 hafter.2
    rw [run_append, run_cons] at hend hpend
    exact (hlast.pending hend hpend).2.2.1

/-- The dialing engine waits for its peer. -/
def Awaiting (s : Script.Dial) : Prop := s.settled = false ∧ s.events = []

/-- The event that ends the wait of the dialing engine is among those it has. -/
def Announced (s : Script.Dial) : Prop :=
  s.settled = true ∧ .none ∉ s.events ∧ s.events.any EngineEvent.settles = true

theorem dial_input (s : Script.Dial) (data : Bytes) :
    (Awaiting s → Awaiting (s.input data) ∨ Announced (s.input data)) ∧
      (Announced s → Announced (s.input data)) := by
  unfold Script.Dial.input
  split
  · split
    · exact ⟨.inl, id⟩
    · rename_i hs
      refine ⟨fun h => .inr ?_, fun h => absurd h.1 hs⟩
      rw [Announced, h.2]
      decide
  · exact ⟨.inl, id⟩

theorem dial_tick (s : Script.Dial) (now : F64) :
    (Awaiting s →
      Awaiting (s.tick now) ∧ now.lt (.finite 50) = true ∨ Announced (s.tick now)) ∧
    (Announced s → Announced (s.tick now)) := by
  unfold Script.Dial.tick
  split
  · rename_i hs
    refine ⟨fun h => .inl ⟨h, ?_⟩, id⟩
    rw [h.1] at hs
    exact hs
  · rename_i hs
    refine ⟨fun h => .inr ?_, fun h => absurd (by rw [h.1]; rfl) hs⟩
    rw [Announced, h.2]
    decide

theorem dial_poll {s : Script.Dial} (h : Announced s)
    (he : (s.events.headD .none).settles = false) :
    s.events.headD .none ≠ .none ∧ Announced { s with events := s.events.tail } := by
  obtain ⟨settled, events⟩ := s
  obtain ⟨hs, hn, hany⟩ := h
  cases events with
  | nil => cases hany
  | cons e events =>
    have he : e.settles = false := he
    refine ⟨fun hx => hn (hx ▸ List.mem_cons_self ..), hs, fun hm => hn (List.mem_cons_of_mem _ hm), ?_⟩
    simpa [he] using hany

/-- A short batch of the dialing engine would leave nothing to settle the promise. -/
theorem dial_drain {s : Script.Dial} {size : F64} (hp : size.isPositive = true)
    (hw : size.isWhole = true) (h : Announced s)
    (he : (s.events.take size.whole).any EngineEvent.settles = false) :
    (F64.ofInt (s.events.take size.whole).length).lt size = false ∧
      Announced { s with events := s.events.drop size.whole } := by
  obtain ⟨hs, hn, hany⟩ := h
  rw [← List.take_append_drop size.whole s.events, List.any_append, he, Bool.false_or] at hany
  refine ⟨Bool.eq_false_iff.mpr fun hlt => ?_, hs, fun hm => hn (List.mem_of_mem_drop hm), hany⟩
  rw [F64.lt_of_isWhole hp hw, List.length_take] at hlt
  rw [List.drop_eq_nil_iff.mpr (by omega)] at hany
  cases hany

theorem dial_feed {s t : Script.dialing.State} (h : Script.dialing.Feed s t) :
    (Awaiting s → Awaiting t ∨ Announced t) ∧ (Announced s → Announced t) := by
  cases h with
  | input now data => exact dial_input s data
  | inputDeferred hf => cases hf
  | finishInputBatch hf => cases hf
  | tick now =>
    obtain ⟨hw, ha⟩ := dial_tick s now
    exact ⟨fun h => (hw h).imp_left And.left, ha⟩

theorem dial_due {s : Script.Dial} (h : s.settled = false) :
    Script.dialing.deadline s = some (.finite 50) := by
  refine if_neg ?_
  rw [h]
  exact Bool.false_ne_true

theorem dial_timeout {s : Script.Dial} {now : F64} (h : Awaiting s)
    (hnow : F64.le (.finite 50) now = true) : Announced (s.tick now) := by
  refine ((dial_tick s now).1 h).resolve_left fun hn => ?_
  have hlt := hn.2
  rw [F64.lt, Bool.and_eq_true, hnow] at hlt
  cases hlt.2

theorem dial_handed {drain : Script.Dial → F64 → List EngineEvent × Script.Dial}
    (hd : Script.dialing.drainEvents = some drain) {s t : Script.Dial} {size : F64}
    {events : List EngineEvent} (hp : size.isPositive = true) (hw : size.isWhole = true)
    (hr : drain s size = (events, t)) (he : events.any EngineEvent.settles = false) :
    (Awaiting s → Awaiting t ∨ (F64.ofInt events.length).lt size = false ∧ Announced t) ∧
      (Announced s → (F64.ofInt events.length).lt size = false ∧ Announced t) := by
  cases hd
  cases hr
  refine ⟨fun h => .inl ⟨h.1, ?_⟩, fun h => dial_drain hp hw h he⟩
  show s.events.drop size.whole = []
  rw [h.2, List.drop_nil]

theorem dial_polled {s t : Script.Dial} {event : EngineEvent}
    (hr : (s.events.headD .none, { s with events := s.events.tail }) = (event, t))
    (he : event.settles = false) :
    (Awaiting s → Awaiting t ∨ event ≠ .none ∧ Announced t) ∧
      (Announced s → event ≠ .none ∧ Announced t) := by
  cases hr
  refine ⟨fun h => .inl ⟨h.1, ?_⟩, fun h => dial_poll h he⟩
  show s.events.tail = []
  rw [h.2]
  rfl

def dialHandshake : Handshake Script.dialing (.finite 50) where
  waiting := Awaiting
  announced := Announced
  due _ h := ⟨_, dial_due h.1, rfl⟩
  feed _ _ := dial_feed
  timeout _ _ := dial_timeout
  nextDeadline _ := ⟨id, id⟩
  pollEvent _ _ _ := dial_polled
  drainEvents _ hd _ _ hp _ hw _ _ hr := dial_handed hd hp hw hr

/-- Nobody answers, and the timer fires. -/
def unanswered : List Label := Script.steps 5 ++ [.timer (.finite 50)] ++ Script.settle

theorem settles_and_balances_unanswered :
    (run step (Script.dialed Script.batched) unanswered).SettledOnce ∧
      (run step (Script.dialed Script.batched) unanswered).promise ≠ .pending ∧
      (run step (Script.dialed Script.batched) unanswered).promise =
        .rejected (.closedBeforeOpening "timeout".toList) := by
  have hraise : ∀ l ∈ unanswered, l.isRaise = false := by decide +kernel
  have hopens : Meets step (fun d l => d.opensClosed l = false) (Script.dialed Script.batched)
      unanswered := by decide +kernel
  obtain ⟨honce, _, htimer⟩ :=
    (settles_and_balances dialHandshake Script.batched _ ⟨rfl, rfl⟩ unanswered hraise).2 hopens
  have hsize : WholeOrOff Script.batched := fun _ => ⟨by decide +kernel, by decide +kernel⟩
  refine ⟨honce, ?_, by decide +kernel⟩
  exact (htimer hsize).2 (Script.steps 5) (.finite 50) Script.settle rfl (by decide +kernel)
    (by decide +kernel) (by decide +kernel) (by decide +kernel)

/-- A batch brings a datagram and then `Opened`, and the endpoint reports an error from
inside `send`. -/
def failsInSend : List Label :=
  Script.steps 5 ++ [.datagram (.finite 0) [0]] ++ Script.steps 3 ++ [.error "gone".toList] ++
    Script.settle

/-- `onOpen` is called behind the rejection, and `onClose` is not. And where half an event is asked
for, nobody hears that the handshake has timed out, and no timer is left. -/
theorem opened_after_rejection :
    (∀ l ∈ failsInSend, l.isRaise = false) ∧
      (run step (Script.dialed Script.batched) failsInSend).promise =
        .rejected (.closedBeforeOpening "gone".toList) ∧
      .onOpen ∈ (run step (Script.dialed Script.batched) failsInSend).log ∧
      ¬ (run step (Script.dialed Script.batched) failsInSend).SettledOnce ∧
      (run step (Script.dialed halved) unanswered).idle = true ∧
      (run step (Script.dialed halved) unanswered).promise = .pending ∧
      (run step (Script.dialed halved) unanswered).timerArmed = false := by
  have hp : (run step (Script.dialed Script.batched) failsInSend).promise =
      .rejected (.closedBeforeOpening "gone".toList) := by decide +kernel
  have ho : .onOpen ∈ (run step (Script.dialed Script.batched) failsInSend).log := by
    decide +kernel
  exact ⟨by decide +kernel, hp, ho, fun h => (h.rejected _ hp).2.1 ho, by decide +kernel,
    by decide +kernel, by decide +kernel⟩

end Connection

end RtcTunnel.Driver
