import RtcTunnel.Driver.Machine

/-!
# What a step leaves alone

Most of the driver touches neither the queue of messages nor the close. `Frame`
says so of one piece of code; the steps that do more are the sends, the flush of
the queue, and the two halves of `finish`.
-/

namespace RtcTunnel.Driver

open RtcTunnel.Core

set_option autoImplicit false

/-- An effect that belongs neither to a message on its way out nor to the close. -/
def Effect.inert : Effect → Bool
  | .dispose => false
  | .onClose _ => false
  | .sent _ _ => false
  | .engine (.send _ _) => false
  | _ => true

def Task.closes : Task → Bool
  | .finishRest _ => true
  | _ => false

/-- How many closes are under way. -/
def closings (stack : List Task) : Nat := stack.countP Task.closes

theorem closings_cons (task : Task) (rest : List Task) :
    closings (task :: rest) = closings rest + if task.closes then 1 else 0 := List.countP_cons

namespace Connection

variable {E : EngineApi}

/-- Code that keeps the queue, the close and the stack, with inert effects only. -/
structure Frame (d r : Connection E) : Prop where
  closed : r.closed = d.closed
  disposed : r.disposed = d.disposed
  queue : r.queue = d.queue
  sends : r.sends = d.sends
  options : r.options = d.options
  stack : r.stack = d.stack
  timer : d.closed = true → d.timerArmed = false → r.timerArmed = false
  log : ∃ es, r.log = d.log ++ es ∧ ∀ e ∈ es, e.inert = true

theorem Frame.refl (d : Connection E) : d.Frame d :=
  ⟨rfl, rfl, rfl, rfl, rfl, rfl, fun _ => id, [], (List.append_nil _).symm, nofun⟩

theorem Frame.trans {a b c : Connection E} (h : a.Frame b) (h' : b.Frame c) : a.Frame c := by
  obtain ⟨es, hes, he⟩ := h.log
  obtain ⟨fs, hfs, hf⟩ := h'.log
  refine ⟨h'.closed.trans h.closed, h'.disposed.trans h.disposed, h'.queue.trans h.queue,
    h'.sends.trans h.sends, h'.options.trans h.options, h'.stack.trans h.stack,
    fun hc ht => h'.timer (h.closed.trans hc) (h.timer hc ht), es ++ fs, ?_, ?_⟩
  · rw [hfs, hes, List.append_assoc]
  · intro e hm
    exact (List.mem_append.mp hm).elim (he e) (hf e)

theorem Frame.record {d r : Connection E} (h : d.Frame r) {e : Effect} (he : e.inert = true) :
    d.Frame (r.record e) :=
  h.trans ⟨rfl, rfl, rfl, rfl, rfl, rfl, fun _ => id, [e], rfl,
    fun _ hm => List.mem_singleton.mp hm ▸ he⟩

theorem Frame.call {d r : Connection E} (h : d.Frame r) {c : EngineCall}
    (hc : (Effect.engine c).inert = true) (engine : E.State) : d.Frame (r.call c engine) :=
  h.trans ⟨rfl, rfl, rfl, rfl, rfl, rfl, fun _ => id, [.engine c], rfl,
    fun _ hm => List.mem_singleton.mp hm ▸ hc⟩

/-- A change of fields that the frame is not about. -/
theorem Frame.fields {d r s : Connection E} (h : d.Frame r) (hc : s.closed = r.closed)
    (hd : s.disposed = r.disposed) (hq : s.queue = r.queue) (hs : s.sends = r.sends)
    (ho : s.options = r.options) (ht : s.stack = r.stack)
    (htimer : r.closed = true → r.timerArmed = false → s.timerArmed = false)
    (hl : s.log = r.log) : d.Frame s :=
  h.trans ⟨hc, hd, hq, hs, ho, ht, htimer, [], by rw [hl, List.append_nil], nofun⟩

/-- The same with one inert effect. -/
theorem Frame.emit {d r s : Connection E} (h : d.Frame r) {e : Effect} (he : e.inert = true)
    (hc : s.closed = r.closed) (hd : s.disposed = r.disposed) (hq : s.queue = r.queue)
    (hs : s.sends = r.sends) (ho : s.options = r.options) (ht : s.stack = r.stack)
    (htimer : r.closed = true → r.timerArmed = false → s.timerArmed = false)
    (hl : s.log = r.log ++ [e]) : d.Frame s :=
  h.trans ⟨hc, hd, hq, hs, ho, ht, htimer, [e], hl, fun _ hm => List.mem_singleton.mp hm ▸ he⟩

theorem frame_settle (d : Connection E) (p : Promise) : d.Frame (d.settle p) := by
  unfold settle
  split
  · exact (Frame.refl d).fields rfl rfl rfl rfl rfl rfl (fun _ => id) rfl
  · exact .refl d

theorem frame_cancelArmed (d : Connection E) : d.Frame d.cancelArmed := by
  unfold cancelArmed
  split
  · exact (Frame.refl d).record rfl
  · exact .refl d

theorem frame_clearTimer (d : Connection E) : d.Frame d.clearTimer :=
  (frame_cancelArmed d).fields rfl rfl rfl rfl rfl rfl (fun _ _ => rfl) rfl

theorem frame_schedule (d : Connection E) (now : F64) : d.Frame (d.schedule now) := by
  unfold schedule
  split
  · exact .refl d
  · rename_i hopen
    have hc : d.Frame (d.call .nextDeadline (E.nextDeadline d.engine).2) :=
      (Frame.refl d).call rfl _
    dsimp only
    split
    · exact hc
    · split
      · exact hc
      · have ha := hc.trans (frame_cancelArmed _)
        refine ha.emit (e := .setTimer _ now) rfl rfl rfl rfl rfl rfl rfl (fun h => ?_) rfl
        exact absurd (ha.closed.symm.trans h) hopen

theorem frame_executorRest (d : Connection E) : d.Frame d.executorRest := by
  unfold executorRest
  split
  · exact frame_settle d _
  · split
    · exact frame_settle d _
    · exact .refl d

theorem frame_ask {α : Type} {d r : Connection E} (h : d.Frame r) {c : EngineCall}
    (hc : (Effect.engine c).inert = true) (method : Option (E.State → α × E.State)) :
    d.Frame (r.ask c method).2 := by
  unfold ask
  cases method with
  | none => exact h
  | some f => exact h.call hc _

theorem frame_handleStats (d : Connection E) : d.Frame d.handleStats :=
  (frame_ask (frame_ask (frame_ask (.refl d) rfl _) rfl _) rfl _).record rfl

theorem frame_foldl (f : Connection E → Bytes → Connection E)
    (hf : ∀ (c : Connection E) data, c.Frame (f c data)) (datagrams : List Bytes)
    (d : Connection E) : d.Frame (datagrams.foldl f d) := by
  induction datagrams generalizing d with
  | nil => exact .refl d
  | cons data datagrams ih => exact (hf d data).trans (ih _)

theorem frame_feed (d : Connection E) (now : F64) : d.Frame (d.feed now) := by
  unfold feed
  split
  · rename_i inputDeferred finishInputBatch _ _
    have hf := frame_foldl (fun d data => d.call (.inputDeferred data)
      (inputDeferred d.engine now data)) (fun c _ => (Frame.refl c).call rfl _) d.inbound d
    exact hf.emit (e := .engine .finishInputBatch) rfl rfl rfl rfl rfl rfl rfl (fun _ => id) rfl
  · have hf := frame_foldl (fun d data => d.call (.input data) (E.input d.engine now data))
      (fun c _ => (Frame.refl c).call rfl _) d.inbound d
    exact hf.fields rfl rfl rfl rfl rfl rfl (fun _ => id) rfl

theorem closings_push (d : Connection E) {tasks : List Task}
    (h : ∀ t ∈ tasks, t.closes = false) : closings (d.push tasks).stack = closings d.stack := by
  have hz : tasks.countP Task.closes = 0 := by
    rw [List.countP_eq_zero]
    intro t ht
    simp [h t ht]
  rw [closings, push, List.countP_append, hz, Nat.zero_add]
  rfl

theorem closings_unwind (stack : List Task) : closings (unwind stack).1 ≤ closings stack := by
  induction stack with
  | nil => exact Nat.le_refl _
  | cons task rest ih =>
    have hrest : closings rest ≤ closings (task :: rest) := by
      rw [closings_cons]
      omega
    cases task with
    | callback => exact Nat.le_refl _
    | executorRest => exact hrest
    | _ => exact ih.trans hrest

/-- **What one step can do.** -/
inductive Turn (d : Connection E) : Label → Connection E → Prop where
  /-- Anything that leaves the queue, the sends and the close alone. -/
  | inert (l : Label) (r : Connection E) (closed : r.closed = d.closed) (disposed : r.disposed = d.disposed)
      (queue : r.queue = d.queue) (sends : r.sends = d.sends) (options : r.options = d.options)
      (stack : closings r.stack ≤ closings d.stack)
      (timer : d.closed = true → d.timerArmed = false → r.timerArmed = false)
      (log : ∃ es, r.log = d.log ++ es ∧ ∀ e ∈ es, e.inert = true) : Turn d l r
  /-- The pump of an open connection whose policy is to queue. -/
  | flush (now : F64) (m : Connection E) (rest : List Task) (loop : Task) (hs : d.stack = .pump :: rest)
      (hc : d.closed = false) (hb : d.options.backpressure = .queue)
      (hm : Frame { d with stack := rest } m) (hl : loop.closes = false) :
      Turn d (.advance now) (m.flushQueue.push [loop])
  | send (data : Bytes) : Turn d (.send data) (d.handleSend data)
  | finish (now : F64) (reason : Text) (rest : List Task) (hs : d.stack = .finish reason :: rest)
      (hc : d.closed = false) : Turn d (.advance now) ({ d with stack := rest }.finish reason)
  | finishRest (now : F64) (reason : Text) (rest : List Task)
      (hs : d.stack = .finishRest reason :: rest) :
      Turn d (.advance now) ({ d with stack := rest }.finishRest reason)

theorem Turn.of_frame {d m r : Connection E} {l : Label} {rest tasks : List Task}
    (hm : Frame { d with stack := rest } m) (hr : r = m.push tasks)
    (hs : closings rest ≤ closings d.stack) (ht : ∀ t ∈ tasks, t.closes = false) : Turn d l r := by
  subst hr
  refine .inert l _ hm.closed hm.disposed hm.queue hm.sends hm.options ?_ hm.timer hm.log
  rw [closings_push m ht, hm.stack]
  exact hs

/-- Code that pushes nothing. -/
theorem Turn.over {d m : Connection E} {l : Label} {rest : List Task}
    (hm : Frame { d with stack := rest } m) (hs : closings rest ≤ closings d.stack) : Turn d l m :=
  .inert l m hm.closed hm.disposed hm.queue hm.sends hm.options (hm.stack ▸ hs) hm.timer hm.log

theorem Turn.same (d : Connection E) (l : Label) : Turn d l d :=
  .inert l d rfl rfl rfl rfl rfl (Nat.le_refl _) (fun _ => id) ⟨[], (List.append_nil _).symm, nofun⟩

/-- A frame in place. -/
theorem Turn.stay {d m r : Connection E} {l : Label} {tasks : List Task} (hm : d.Frame m)
    (hr : r = m.push tasks) (ht : ∀ t ∈ tasks, t.closes = false) : Turn d l r := by
  have hm' : Frame { d with stack := d.stack } m := hm
  exact .of_frame hm' hr (Nat.le_refl _) ht

theorem Turn.frame {d m : Connection E} {l : Label} (hm : d.Frame m) : Turn d l m :=
  .over hm (Nat.le_refl _)

section Exec

variable {d : Connection E} {l : Label} {rest : List Task}

theorem turn_pump (now : F64) (hs : d.stack = .pump :: rest) :
    Turn d (.advance now) ({ d with stack := rest }.pump now) := by
  have hle : closings rest ≤ closings d.stack := by
    rw [hs]
    exact Nat.le_refl _
  have hm := frame_schedule { d with stack := rest } now
  have hloop : ∀ b : Bool, (if b then Task.drainLoop else .pollLoop).closes = false := by decide
  unfold pump
  split
  · exact .over (.refl _) hle
  · rename_i hc
    dsimp only
    split
    · rename_i hb
      rw [hm.options] at hb
      exact .flush now _ rest _ hs (by simpa using hc) hb hm (hloop _)
    · exact .of_frame hm rfl hle (List.forall_mem_singleton.mpr (hloop _))

theorem turn_drainLoop (hs : d.stack = .drainLoop :: rest) :
    Turn d l ({ d with stack := rest }.drainLoop) := by
  have hle : closings rest ≤ closings d.stack := by
    rw [hs]
    exact Nat.le_refl _
  unfold drainLoop
  split
  · exact .over (.refl _) hle
  · split
    · exact .over (.refl _) hle
    · exact .of_frame ((Frame.refl _).call rfl _) rfl hle (List.forall_mem_singleton.mpr rfl)

theorem turn_pollLoop (hs : d.stack = .pollLoop :: rest) :
    Turn d l ({ d with stack := rest }.pollLoop) := by
  have hle : closings rest ≤ closings d.stack := by
    rw [hs]
    exact Nat.le_refl _
  have hc := (Frame.refl { d with stack := rest }).call (c := .pollEvent) rfl
    (E.pollEvent d.engine).2
  unfold pollLoop
  dsimp only
  split
  · exact .over hc hle
  · exact .of_frame hc rfl hle (List.forall_mem_singleton.mpr rfl)

theorem turn_apply {events : List EngineEvent} {source : Source}
    (hs : d.stack = .apply events source :: rest) :
    Turn d l ({ d with stack := rest }.apply events source) := by
  have hle : closings rest ≤ closings d.stack := by
    rw [hs]
    exact Nat.le_refl _
  have hr := Frame.refl { d with stack := rest }
  have two : ∀ t : Task, t.closes = false → ∀ x ∈ [Task.callback, t], x.closes = false := by
    intro t ht x hx
    simp only [List.mem_cons, List.not_mem_nil, or_false] at hx
    rcases hx with rfl | rfl
    · rfl
    · exact ht
  cases events with
  | nil =>
    cases source with
    | batch short =>
      unfold apply
      cases short with
      | true => exact .over hr hle
      | false => exact .of_frame hr rfl hle (List.forall_mem_singleton.mpr rfl)
    | poll => exact .of_frame hr rfl hle (List.forall_mem_singleton.mpr rfl)
  | cons event events =>
    cases event with
    | none => exact .of_frame hr rfl hle (List.forall_mem_singleton.mpr rfl)
    | datagram data => exact .of_frame (hr.record rfl) rfl hle (two _ rfl)
    | message data => exact .of_frame (hr.record rfl) rfl hle (two _ rfl)
    | closed reason => exact .of_frame hr rfl hle (List.forall_mem_singleton.mpr rfl)
    | opened =>
      unfold apply applyEvent
      dsimp only
      split
      · exact .of_frame hr rfl hle (List.forall_mem_singleton.mpr rfl)
      · have hfields := hr.fields (s := { d with stack := rest, opened := true })
          rfl rfl rfl rfl rfl rfl (fun _ => id) rfl
        refine .of_frame (hfields.record (e := .onOpen) rfl) rfl hle ?_
        intro x hx
        simp only [List.mem_cons, List.not_mem_nil, or_false] at hx
        rcases hx with rfl | rfl | rfl <;> rfl

end Exec

theorem turn_raise (d : Connection E) : Turn d .raise d.raise := by
  unfold raise
  split
  · rename_i reason rest hs
    refine .over (.refl { d with stack := .finishRest reason :: rest }) ?_
    rw [hs]
    exact Nat.le_refl _
  · rename_i rest _ hs
    have hle : closings (unwind rest).1 ≤ closings d.stack := by
      rw [hs]
      exact closings_unwind rest
    dsimp only
    split
    · exact .over (frame_settle _ _) hle
    · exact .over (.refl _) hle
  · exact .same d _

theorem turn_advance (d : Connection E) (now : F64) : Turn d (.advance now) (d.step (.advance now)) := by
  cases hs : d.stack with
  | nil =>
    rw [step, hs]
    exact .same d _
  | cons task rest =>
    have hle : closings rest ≤ closings d.stack := by
      rw [hs, closings_cons]
      omega
    rw [step, hs]
    cases task with
    | callback => exact .same d _
    | pump => exact turn_pump now hs
    | drainLoop => exact turn_drainLoop hs
    | pollLoop => exact turn_pollLoop hs
    | apply events source => exact turn_apply hs
    | settleOpen => exact .over (frame_settle _ _) hle
    | finish reason =>
      by_cases hc : d.closed = true
      · have he : { d with stack := rest }.finish reason = { d with stack := rest } := if_pos hc
        change Turn d (.advance now) ({ d with stack := rest }.finish reason)
        rw [he]
        exact .over (.refl _) hle
      · exact .finish _ reason rest hs (by simpa using hc)
    | finishRest reason => exact .finishRest _ reason rest hs
    | executorRest => exact .over (frame_executorRest _) hle

theorem turn_handleClose (d : Connection E) (l : Label) : Turn d l d.handleClose := by
  unfold handleClose
  split
  · exact .same d _
  · refine .stay ((Frame.refl d).call rfl _) rfl ?_
    intro x hx
    simp only [List.mem_cons, List.not_mem_nil, or_false] at hx
    rcases hx with rfl | rfl <;> rfl

theorem turn_onMessage (d : Connection E) (l : Label) (now : F64) (data : Bytes) :
    Turn d l (d.onMessage now data) := by
  unfold onMessage
  split
  · exact .same d _
  · split
    · exact .stay ((Frame.refl d).call rfl _) rfl (List.forall_mem_singleton.mpr rfl)
    · exact .frame ((Frame.refl d).fields rfl rfl rfl rfl rfl rfl (fun _ => id) rfl)

theorem turn_flushInbound (d : Connection E) (l : Label) (now : F64) :
    Turn d l (d.flushInbound now) := by
  have hf : d.Frame { d with inboundScheduled := false } :=
    (Frame.refl d).fields rfl rfl rfl rfl rfl rfl (fun _ => id) rfl
  unfold flushInbound
  dsimp only
  split
  · exact .frame hf
  · exact .stay (hf.trans (frame_feed _ now)) rfl (List.forall_mem_singleton.mpr rfl)

theorem turn_flushOutbound (d : Connection E) (l : Label) : Turn d l d.flushOutbound :=
  .stay (m := { d with outboundScheduled := false })
    ((Frame.refl d).fields rfl rfl rfl rfl rfl rfl (fun _ => id) rfl) rfl (List.forall_mem_singleton.mpr rfl)

theorem turn_timerFires (d : Connection E) (l : Label) (now : F64) :
    Turn d l (d.timerFires now) := by
  have hf : d.Frame { d with timerArmed := false, scheduledDeadline := none } :=
    (Frame.refl d).fields rfl rfl rfl rfl rfl rfl (fun _ _ => rfl) rfl
  exact .stay (hf.call rfl _) rfl (List.forall_mem_singleton.mpr rfl)

theorem turn_step (d : Connection E) (l : Label) : Turn d l (d.step l) := by
  cases l with
  | advance now => exact turn_advance d now
  | ret =>
    rw [step]
    split
    · rename_i rest hs
      refine .over (.refl _) ?_
      rw [hs]
      exact Nat.le_refl _
    · exact .same d _
  | raise => exact turn_raise d
  | send data =>
    rw [step]
    split
    · exact .send data
    · exact .same d _
  | close =>
    rw [step]
    split
    · exact turn_handleClose d _
    · exact .same d _
  | stats =>
    rw [step]
    split
    · exact .frame (frame_handleStats d)
    · exact .same d _
  | error message =>
    rw [step]
    split
    · exact .stay (.refl d) rfl (List.forall_mem_singleton.mpr rfl)
    · exact .same d _
  | datagram now data =>
    rw [step]
    split
    · exact turn_onMessage d _ now data
    · exact .same d _
  | flushInbound now =>
    rw [step]
    split
    · exact turn_flushInbound d _ now
    · exact .same d _
  | flushOutbound =>
    rw [step]
    split
    · exact turn_flushOutbound d _
    · exact .same d _
  | timer now =>
    rw [step]
    split
    · exact turn_timerFires d _ now
    · exact .same d _
  | resume =>
    rw [step]
    split
    · exact .frame ((Frame.refl d).fields rfl rfl rfl rfl rfl rfl (fun _ => id) rfl)
    · exact .same d _

theorem finish_open {d : Connection E} (rest : List Task) (reason : Text) (hc : d.closed = false) :
    ({ d with stack := rest }.finish reason).closed = true ∧
      ({ d with stack := rest }.finish reason).disposed = d.disposed ∧
      ({ d with stack := rest }.finish reason).timerArmed = false ∧
      ({ d with stack := rest }.finish reason).stack = .callback :: .finishRest reason :: rest ∧
      ∃ es, ({ d with stack := rest }.finish reason).log = d.log ++ es ∧
        ∀ e ∈ es, e.inert = true := by
  have hf := (frame_clearTimer { d with stack := rest, closed := true, closeReason := some reason })
  obtain ⟨es, hlog, he⟩ := hf.log
  rw [finish, if_neg (by simp [hc])]
  refine ⟨hf.closed, hf.disposed, rfl, ?_, es ++ [.endpointClose], ?_, ?_⟩
  · rw [push]
    exact congrArg _ (congrArg _ hf.stack)
  · rw [push, record]
    simp only [hlog, List.append_assoc]
  · intro e hm
    rcases List.mem_append.mp hm with hm | hm
    · exact he e hm
    · exact List.mem_singleton.mp hm ▸ rfl

theorem finishRest_log (d : Connection E) (rest : List Task) (reason : Text) :
    ({ d with stack := rest }.finishRest reason).log = d.log ++
      (.dispose :: if d.opened then [.onClose reason] else []) := by
  unfold finishRest
  dsimp only
  split
  · rename_i ho
    have ho' : d.opened = true := ho
    rw [if_pos ho']
    simp [push, record]
  · rename_i ho
    have ho' : ¬ d.opened = true := ho
    rw [if_neg ho']
    unfold settleClosed settle
    split <;> rfl

theorem finishRest_fields (d : Connection E) (rest : List Task) (reason : Text) :
    ({ d with stack := rest }.finishRest reason).closed = d.closed ∧
      ({ d with stack := rest }.finishRest reason).disposed = true ∧
      ({ d with stack := rest }.finishRest reason).timerArmed = d.timerArmed ∧
      closings ({ d with stack := rest }.finishRest reason).stack = closings rest := by
  unfold finishRest
  dsimp only
  split
  · exact ⟨rfl, rfl, rfl, rfl⟩
  · unfold settleClosed settle
    split <;> exact ⟨rfl, rfl, rfl, rfl⟩

/-- Neither half sends: the first drops the queue and the second finds it as it is. -/
theorem finish_queue {d : Connection E} (rest : List Task) (reason : Text) (hc : d.closed = false) :
    ({ d with stack := rest }.finish reason).queue = [] ∧
      ({ d with stack := rest }.finish reason).sends = d.sends ∧
      ({ d with stack := rest }.finish reason).options = d.options := by
  have hf := (frame_clearTimer { d with stack := rest, closed := true, closeReason := some reason })
  rw [finish, if_neg (by simp [hc])]
  exact ⟨rfl, hf.sends, hf.options⟩

theorem finishRest_queue (d : Connection E) (rest : List Task) (reason : Text) :
    ({ d with stack := rest }.finishRest reason).queue = d.queue ∧
      ({ d with stack := rest }.finishRest reason).sends = d.sends ∧
      ({ d with stack := rest }.finishRest reason).options = d.options := by
  unfold finishRest
  dsimp only
  split
  · exact ⟨rfl, rfl, rfl⟩
  · unfold settleClosed settle
    split <;> exact ⟨rfl, rfl, rfl⟩

end Connection

end RtcTunnel.Driver
