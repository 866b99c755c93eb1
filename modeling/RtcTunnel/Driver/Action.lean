import Mathlib.Logic.Relation
import RtcTunnel.Driver.Machine

/-!
# What one step does

Most of the driver's code runs from one call outside to the next and leaves the
connection's status alone: it talks to the engine and to the timer. `Action` lists the
steps with such code summed up, and every step is one of them.
-/

namespace RtcTunnel.Driver

open RtcTunnel.Core

set_option autoImplicit false

/-- An effect of code between two calls outside. -/
def Effect.inside : Effect → Bool
  | .engine _ => true
  | .cancelTimer => true
  | .setTimer _ _ => true
  | .sent _ _ => true
  | .stats _ => true
  | _ => false

/-- The loop that goes on behind the events in hand, unless they were the last. -/
def Source.loop : Source → Option Task
  | .batch true => none
  | .batch false => some .drainLoop
  | .poll => some .pollLoop

/-- A call that feeds the engine. -/
inductive EngineApi.Feed (E : EngineApi) (s : E.State) : E.State → Prop where
  | input (now : F64) (data : Bytes) : Feed E s (E.input s now data)
  | inputDeferred {f : E.State → F64 → Bytes → E.State} (h : E.inputDeferred = some f) (now : F64)
      (data : Bytes) : Feed E s (f s now data)
  | finishInputBatch {f : E.State → E.State} (h : E.finishInputBatch = some f) : Feed E s (f s)
  | tick (now : F64) : Feed E s (E.tick s now)

/-- Any number of them. -/
abbrev EngineApi.Feeds (E : EngineApi) : E.State → E.State → Prop := Relation.ReflTransGen E.Feed

namespace Connection

variable {E : EngineApi}

/-- How far the connection is, and where its code goes on. -/
structure Status where
  closed : Bool
  disposed : Bool
  opened : Bool
  closeReason : Option Text
  promise : Promise
  handed : Bool
  options : ResolvedOptions
  stack : List Task

def status (d : Connection E) : Status where
  closed := d.closed
  disposed := d.disposed
  opened := d.opened
  closeReason := d.closeReason
  promise := d.promise
  handed := d.handed
  options := d.options
  stack := d.stack

/-- What decides when the driver wakes up. -/
structure Waking (E : EngineApi) where
  engine : E.State
  timerArmed : Bool
  scheduledDeadline : Option F64
  outboundScheduled : Bool

def waking (d : Connection E) : Waking E where
  engine := d.engine
  timerArmed := d.timerArmed
  scheduledDeadline := d.scheduledDeadline
  outboundScheduled := d.outboundScheduled

/-- Code between two calls outside. It arms no timer once closed. -/
structure Inside (d r : Connection E) : Prop where
  status : r.status = d.status
  timer : d.closed = true → d.timerArmed = false → r.timerArmed = false
  log : ∃ es, r.log = d.log ++ es ∧ ∀ e ∈ es, e.inside = true

variable {d r s : Connection E}

theorem Inside.closed (h : d.Inside r) : r.closed = d.closed := congrArg Status.closed h.status
theorem Inside.disposed (h : d.Inside r) : r.disposed = d.disposed :=
  congrArg Status.disposed h.status
theorem Inside.opened (h : d.Inside r) : r.opened = d.opened := congrArg Status.opened h.status
theorem Inside.promise (h : d.Inside r) : r.promise = d.promise := congrArg Status.promise h.status
theorem Inside.handed (h : d.Inside r) : r.handed = d.handed := congrArg Status.handed h.status
theorem Inside.options (h : d.Inside r) : r.options = d.options := congrArg Status.options h.status
theorem Inside.stack (h : d.Inside r) : r.stack = d.stack := congrArg Status.stack h.status

theorem Inside.refl (d : Connection E) : d.Inside d :=
  ⟨rfl, fun _ => id, [], (List.append_nil _).symm, nofun⟩

theorem Inside.trans (h : d.Inside r) (h' : r.Inside s) : d.Inside s := by
  obtain ⟨es, hes, he⟩ := h.log
  obtain ⟨fs, hfs, hf⟩ := h'.log
  refine ⟨h'.status.trans h.status, fun hc ht => h'.timer (h.closed.trans hc) (h.timer hc ht),
    es ++ fs, ?_, ?_⟩
  · rw [hfs, hes, List.append_assoc]
  · intro e hm
    exact (List.mem_append.mp hm).elim (he e) (hf e)

/-- Fields change that the status does not show. -/
theorem Inside.fields (h : d.Inside r) (hl : s.log = r.log) (hs : s.status = r.status)
    (ht : s.timerArmed = r.timerArmed) : d.Inside s :=
  h.trans ⟨hs, fun _ h => ht.trans h, [], by rw [hl, List.append_nil], nofun⟩

/-- The same with one effect. -/
theorem Inside.emit (h : d.Inside r) {e : Effect} (he : e.inside = true)
    (hl : s.log = r.log ++ [e]) (hs : s.status = r.status) (ht : s.timerArmed = r.timerArmed) :
    d.Inside s :=
  h.trans ⟨hs, fun _ h => ht.trans h, [e], hl, List.forall_mem_singleton.mpr he⟩

theorem Inside.call (h : d.Inside r) (c : EngineCall) (engine : E.State) :
    d.Inside (r.call c engine) := h.emit (e := .engine c) rfl rfl rfl rfl

theorem inside_cancelArmed (d : Connection E) : d.Inside d.cancelArmed := by
  unfold cancelArmed
  split
  · exact (Inside.refl d).emit (e := .cancelTimer) rfl rfl rfl rfl
  · exact .refl d

theorem inside_schedule (d : Connection E) (now : F64) : d.Inside (d.schedule now) := by
  unfold schedule
  split
  · exact .refl d
  · rename_i hopen
    have hc := (Inside.refl d).call .nextDeadline (E.nextDeadline d.engine).2
    dsimp only
    split
    · exact hc
    · split
      · exact hc
      · have ha := hc.trans (inside_cancelArmed _)
        refine ha.trans ⟨rfl, fun h => ?_, [.setTimer _ now], rfl, List.forall_mem_singleton.mpr rfl⟩
        exact absurd (ha.closed.symm.trans h) hopen

theorem inside_flushFrom (queue : List Packet) (d : Connection E) :
    d.Inside (flushFrom queue d) := by
  induction queue generalizing d with
  | nil => exact .refl d
  | cons next rest ih =>
    have hc := (Inside.refl d).call (.send next (E.send d.engine next.data).1)
      (E.send d.engine next.data).2
    rw [flushFrom]
    split
    · exact hc
    · have hs : d.Inside ((d.call (.send next (E.send d.engine next.data).1)
        (E.send d.engine next.data).2).shift next rest) := hc.fields rfl rfl rfl
      exact hs.trans (ih _)

/-- `pump` up to its loop. -/
def pumpHead (d : Connection E) (now : F64) : Connection E :=
  let d := d.schedule now
  if d.options.backpressure = .queue then d.flushQueue else d

theorem inside_pumpHead (d : Connection E) (now : F64) : d.Inside (d.pumpHead now) := by
  unfold pumpHead
  dsimp only
  split
  · exact (inside_schedule d now).trans (inside_flushFrom _ _)
  · exact inside_schedule d now

/-- Its loop. -/
def pumpLoop (d : Connection E) : Task := if d.useBatch then .drainLoop else .pollLoop

theorem pump_eq (d : Connection E) (now : F64) (hc : d.closed = false) :
    d.pump now = (d.pumpHead now).push [d.pumpLoop] := by
  have hu : (d.pumpHead now).useBatch = d.useBatch := by
    rw [useBatch, useBatch, (inside_pumpHead d now).options]
  rw [pumpLoop, ← hu, pump, if_neg (by simp [hc])]
  rfl

theorem inside_ask {α : Type} (h : d.Inside r) (c : EngineCall)
    (method : Option (E.State → α × E.State)) : d.Inside (r.ask c method).2 := by
  unfold ask
  cases method with
  | none => exact h
  | some f => exact h.call c _

theorem inside_handleStats (d : Connection E) : d.Inside d.handleStats :=
  (inside_ask (inside_ask (inside_ask (.refl d) _ _) _ _) _ _).emit (e := .stats _) rfl rfl rfl rfl

theorem inside_foldl {f : Connection E → Bytes → Connection E}
    (hf : ∀ (c : Connection E) data, c.Inside (f c data)) (datagrams : List Bytes)
    (d : Connection E) : d.Inside (datagrams.foldl f d) := by
  induction datagrams generalizing d with
  | nil => exact .refl d
  | cons data datagrams ih => exact (hf d data).trans (ih _)

theorem inside_feed (d : Connection E) (now : F64) : d.Inside (d.feed now) := by
  unfold feed
  split
  · rename_i inputDeferred finishInputBatch _ _
    have h := inside_foldl (f := fun d data => d.call (.inputDeferred data)
      (inputDeferred d.engine now data)) (fun c _ => (Inside.refl c).call _ _) d.inbound d
    exact h.emit (e := .engine .finishInputBatch) rfl rfl rfl rfl
  · have h := inside_foldl (f := fun d data => d.call (.input data) (E.input d.engine now data))
      (fun c _ => (Inside.refl c).call _ _) d.inbound d
    exact h.fields rfl rfl rfl

theorem feeds_foldl {f : Connection E → Bytes → Connection E}
    (hf : ∀ (c : Connection E) data, E.Feed c.engine (f c data).engine) (datagrams : List Bytes)
    (d : Connection E) : E.Feeds d.engine (datagrams.foldl f d).engine := by
  induction datagrams generalizing d with
  | nil => exact .refl
  | cons data datagrams ih => exact .head (hf d data) (ih _)

theorem feeds_feed (d : Connection E) (now : F64) : E.Feeds d.engine (d.feed now).engine := by
  unfold feed
  split
  · rename_i inputDeferred finishInputBatch hi hf
    have h := feeds_foldl (f := fun d data => d.call (.inputDeferred data)
      (inputDeferred d.engine now data)) (fun c data => .inputDeferred hi now data) d.inbound d
    exact .tail h (.finishInputBatch hf)
  · exact feeds_foldl (f := fun d data => d.call (.input data) (E.input d.engine now data))
      (fun c data => .input now data) d.inbound d

/-- `handle.send` calls nobody outside; at most it starts a pump. -/
theorem inside_handleSend (d : Connection E) (data : Bytes) :
    ∃ m : Connection E, d.Inside m ∧
      (d.handleSend data = m ∨ d.handleSend data = m.push [.pump]) := by
  have hd : d.Inside { d with sends := d.sends + 1 } := (Inside.refl d).fields rfl rfl rfl
  have hc := hd.call (.send ⟨d.sends, data⟩ (E.send d.engine data).1) (E.send d.engine data).2
  have sent : ∀ {r s : Connection E} {outcome : SendOutcome}, d.Inside r →
      s.log = r.log ++ [.sent ⟨d.sends, data⟩ outcome] → s.status = r.status →
      s.timerArmed = r.timerArmed → d.Inside s :=
    fun h hl hs ht => h.emit (e := .sent _ _) rfl hl hs ht
  have stays : ∀ {s : Connection E}, d.Inside s →
      ∃ m : Connection E, d.Inside m ∧ (s = m ∨ s = m.push [.pump]) :=
    fun h => ⟨_, h, .inl rfl⟩
  have starts : ∀ {m : Connection E}, d.Inside m →
      ∃ m' : Connection E, d.Inside m' ∧ (m.push [.pump] = m' ∨ m.push [.pump] = m'.push [.pump]) :=
    fun h => ⟨_, h, .inr rfl⟩
  unfold handleSend
  dsimp only
  split
  · exact stays (sent hd rfl rfl rfl)
  · split
    · unfold schedulePump
      split
      · exact starts (sent hc rfl rfl rfl)
      · exact stays (sent hc rfl rfl rfl)
    · split
      · exact stays (sent hc rfl rfl rfl)
      · split
        · split
          · split
            · exact stays (sent hc rfl rfl rfl)
            · exact stays (sent hc rfl rfl rfl)
          · exact stays (sent hc rfl rfl rfl)
        · exact stays (sent hc rfl rfl rfl)

/-- Code that finds nothing to do: it was closed before, or the loop is over. -/
inductive Idles (d : Connection E) : Task → Prop where
  | pump (hc : d.closed = true) : Idles d .pump
  | drainLoop (h : d.closed = true ∨ E.drainEvents = none) : Idles d .drainLoop
  | finish (reason : Text) (hc : d.closed = true) : Idles d (.finish reason)
  | apply : Idles d (.apply [] (.batch true))

/-- **What one step can do.** -/
inductive Action (d : Connection E) : Label → Connection E → Prop where
  | nothing (l : Label) (h : (∀ now, l ≠ .advance now) ∨ d.outside = true) : Action d l d
  | send (data : Bytes) (ho : d.outside = true) (hh : d.handed = true) :
      Action d (.send data) (d.handleSend data)
  | close (ho : d.outside = true) (hh : d.handed = true) (hc : d.closed = false) :
      Action d .close ((d.call .close (E.close d.engine)).push [.pump, .finish "local".toList])
  | stats (ho : d.outside = true) (hh : d.handed = true) : Action d .stats d.handleStats
  | error (message : Text) (ho : d.outside = true) :
      Action d (.error message) (d.push [.finish message])
  /-- A datagram or a turn of the event loop that reaches the engine. -/
  | feed (l : Label) (m : Connection E) (hi : d.idle = true) (hm : d.Inside m)
      (hf : E.Feeds d.engine m.engine) : Action d l (m.push [.pump])
  /-- One that does not. -/
  | wait (l : Label) (m : Connection E) (hi : d.idle = true) (hm : d.Inside m)
      (hw : m.waking = d.waking) : Action d l m
  | resume (hi : d.idle = true) (hp : d.promise = .resolved) :
      Action d .resume { d with handed := true }
  | ret (rest : List Task) (hs : d.stack = .callback :: rest) :
      Action d .ret { d with stack := rest }
  | raise : Action d .raise d.raise
  | idles (now : F64) (task : Task) (rest : List Task) (hs : d.stack = task :: rest)
      (ht : d.Idles task) : Action d (.advance now) { d with stack := rest }
  | pump (now : F64) (rest : List Task) (hs : d.stack = .pump :: rest) (hc : d.closed = false) :
      Action d (.advance now) (({ d with stack := rest }.pumpHead now).push [d.pumpLoop])
  | drain (now : F64) (events : List EngineEvent) (engine : E.State) (short : Bool)
      (rest : List Task) (hs : d.stack = .drainLoop :: rest) (hc : d.closed = false)
      (hd : ∃ drain, E.drainEvents = some drain ∧
        drain d.engine d.options.eventBatchSize = (events, engine))
      (hshort : short = (F64.ofInt events.length).lt d.options.eventBatchSize) :
      Action d (.advance now)
        (({ d with stack := rest }.call .drainEvents engine).push [.apply events (.batch short)])
  | poll (now : F64) (event : EngineEvent) (engine : E.State) (rest : List Task)
      (hs : d.stack = .pollLoop :: rest) (hp : E.pollEvent d.engine = (event, engine))
      (he : event ≠ .none) : Action d (.advance now)
        (({ d with stack := rest }.call .pollEvent engine).push [.apply [event] .poll])
  | pollNone (now : F64) (engine : E.State) (rest : List Task) (hs : d.stack = .pollLoop :: rest)
      (hp : E.pollEvent d.engine = (.none, engine)) :
      Action d (.advance now) ({ d with stack := rest }.call .pollEvent engine)
  | apply (now : F64) (event : EngineEvent) (events : List EngineEvent) (source : Source)
      (rest : List Task) (hs : d.stack = .apply (event :: events) source :: rest) :
      Action d (.advance now) ({ d with stack := rest }.applyEvent event (.apply events source))
  | loop (now : F64) (source : Source) (loop : Task) (rest : List Task)
      (hs : d.stack = .apply [] source :: rest) (hl : source.loop = some loop) :
      Action d (.advance now) ({ d with stack := rest }.push [loop])
  | settleOpen (now : F64) (rest : List Task) (hs : d.stack = .settleOpen :: rest) :
      Action d (.advance now) { d with stack := rest }.settleOpen
  | finish (now : F64) (reason : Text) (rest : List Task) (hs : d.stack = .finish reason :: rest)
      (hc : d.closed = false) : Action d (.advance now) ({ d with stack := rest }.finish reason)
  | finishRest (now : F64) (reason : Text) (rest : List Task)
      (hs : d.stack = .finishRest reason :: rest) :
      Action d (.advance now) ({ d with stack := rest }.finishRest reason)
  | executorRest (now : F64) (rest : List Task) (hs : d.stack = .executorRest :: rest) :
      Action d (.advance now) { d with stack := rest }.executorRest

section Exec

variable {rest : List Task} (now : F64)

theorem action_pump (hs : d.stack = .pump :: rest) :
    Action d (.advance now) ({ d with stack := rest }.pump now) := by
  by_cases hc : d.closed = true
  · have he : { d with stack := rest }.pump now = { d with stack := rest } := if_pos hc
    rw [he]
    exact .idles now .pump rest hs (.pump hc)
  · simp only [Bool.not_eq_true] at hc
    rw [pump_eq { d with stack := rest } now hc]
    exact .pump now rest hs hc

theorem action_drainLoop (hs : d.stack = .drainLoop :: rest) :
    Action d (.advance now) { d with stack := rest }.drainLoop := by
  by_cases hc : d.closed = true
  · have he : { d with stack := rest }.drainLoop = { d with stack := rest } := if_pos hc
    rw [he]
    exact .idles now .drainLoop rest hs (.drainLoop (.inl hc))
  · rw [drainLoop, if_neg hc]
    simp only [Bool.not_eq_true] at hc
    split
    · rename_i hd
      exact .idles now .drainLoop rest hs (.drainLoop (.inr hd))
    · rename_i drain hd
      exact .drain now _ _ _ rest hs hc ⟨drain, hd, rfl⟩ rfl

theorem action_pollLoop (hs : d.stack = .pollLoop :: rest) :
    Action d (.advance now) { d with stack := rest }.pollLoop := by
  rw [pollLoop]
  dsimp only
  split
  · rename_i he
    exact .pollNone now _ rest hs (Prod.ext he rfl)
  · rename_i he
    exact .poll now _ _ rest hs rfl he

theorem action_apply {events : List EngineEvent} {source : Source}
    (hs : d.stack = .apply events source :: rest) :
    Action d (.advance now) ({ d with stack := rest }.apply events source) := by
  cases events with
  | cons event events => exact .apply now event events source rest hs
  | nil =>
    cases source with
    | poll => exact .loop now .poll .pollLoop rest hs rfl
    | batch short =>
      cases short with
      | true => exact .idles now _ rest hs .apply
      | false => exact .loop now (.batch false) .drainLoop rest hs rfl

end Exec

theorem action_advance (d : Connection E) (now : F64) :
    Action d (.advance now) (d.step (.advance now)) := by
  rw [step]
  cases hs : d.stack with
  | nil => exact .nothing _ (.inr (by rw [outside, hs]; rfl))
  | cons task rest =>
    cases task with
    | callback => exact .nothing _ (.inr (by rw [outside, hs]; rfl))
    | pump => exact action_pump now hs
    | drainLoop => exact action_drainLoop now hs
    | pollLoop => exact action_pollLoop now hs
    | apply events source => exact action_apply now hs
    | settleOpen => exact .settleOpen now rest hs
    | executorRest => exact .executorRest now rest hs
    | finishRest reason => exact .finishRest now reason rest hs
    | finish reason =>
      show Action d (.advance now) ({ d with stack := rest }.finish reason)
      by_cases hc : d.closed = true
      · have he : { d with stack := rest }.finish reason = { d with stack := rest } := if_pos hc
        rw [he]
        exact .idles now _ rest hs (.finish reason hc)
      · exact .finish now reason rest hs (by simpa using hc)

theorem outside_of_idle (hi : d.idle = true) : d.outside = true := by
  rw [outside, ← idle, hi, Bool.true_or]

theorem action_onMessage (l : Label) (now : F64) (data : Bytes) (hi : d.idle = true) :
    Action d l (d.onMessage now data) := by
  unfold onMessage
  split
  · exact .nothing l (.inr (outside_of_idle hi))
  · split
    · exact .feed l _ hi ((Inside.refl d).call _ _) (.single (.input now data))
    · exact .wait l _ hi ((Inside.refl d).fields rfl rfl rfl) rfl

theorem action_flushInbound (l : Label) (now : F64) (hi : d.idle = true) :
    Action d l (d.flushInbound now) := by
  have hf : d.Inside { d with inboundScheduled := false } := (Inside.refl d).fields rfl rfl rfl
  unfold flushInbound
  dsimp only
  split
  · exact .wait l _ hi hf rfl
  · exact .feed l _ hi (hf.trans (inside_feed _ now))
      (feeds_feed { d with inboundScheduled := false } now)

theorem action_timerFires (l : Label) (now : F64) (hi : d.idle = true) :
    Action d l (d.timerFires now) := by
  have hf : d.Inside { d with timerArmed := false, scheduledDeadline := none } :=
    ⟨rfl, fun _ _ => rfl, [], (List.append_nil _).symm, nofun⟩
  exact .feed l _ hi (hf.call .tick _) (.single (.tick now))

/-- Every step is one of them. -/
theorem action_step (d : Connection E) (l : Label) : Action d l (d.step l) := by
  cases l with
  | advance now => exact action_advance d now
  | ret =>
    rw [step]
    split
    · rename_i rest hs
      exact .ret rest hs
    · exact .nothing _ (.inl nofun)
  | raise => exact .raise
  | send data =>
    rw [step]
    split
    · rename_i h
      rw [Bool.and_eq_true] at h
      exact .send data h.1 h.2
    · exact .nothing _ (.inl nofun)
  | close =>
    rw [step]
    split
    · rename_i h
      rw [Bool.and_eq_true] at h
      unfold handleClose
      split
      · exact .nothing _ (.inl nofun)
      · rename_i hc
        exact .close h.1 h.2 (by simpa using hc)
    · exact .nothing _ (.inl nofun)
  | stats =>
    rw [step]
    split
    · rename_i h
      rw [Bool.and_eq_true] at h
      exact .stats h.1 h.2
    · exact .nothing _ (.inl nofun)
  | error message =>
    rw [step]
    split
    · rename_i h
      exact .error message h
    · exact .nothing _ (.inl nofun)
  | datagram now data =>
    rw [step]
    split
    · rename_i h
      exact action_onMessage _ now data h
    · exact .nothing _ (.inl nofun)
  | flushInbound now =>
    rw [step]
    split
    · rename_i h
      rw [Bool.and_eq_true] at h
      exact action_flushInbound _ now h.1
    · exact .nothing _ (.inl nofun)
  | flushOutbound =>
    rw [step]
    split
    · rename_i h
      rw [Bool.and_eq_true] at h
      exact .feed _ _ h.1 ((Inside.refl d).fields (s := { d with outboundScheduled := false })
        rfl rfl rfl) .refl
    · exact .nothing _ (.inl nofun)
  | timer now =>
    rw [step]
    split
    · rename_i h
      rw [Bool.and_eq_true] at h
      exact action_timerFires _ now h.1
    · exact .nothing _ (.inl nofun)
  | resume =>
    rw [step]
    split
    · rename_i h
      rw [Bool.and_eq_true, decide_eq_true_eq] at h
      exact .resume h.1 h.2
    · exact .nothing _ (.inl nofun)

/-- The first half of the close: `closed` is set, the timer is gone, and the endpoint is
being closed. -/
theorem finish_status (reason : Text) (hc : d.closed = false) :
    (d.finish reason).status = { d.status with
      closed := true, closeReason := some reason
      stack := .callback :: .finishRest reason :: d.stack } ∧
    (d.finish reason).timerArmed = false ∧
    (d.finish reason).log =
      d.log ++ ((if d.timerArmed then [.cancelTimer] else []) ++ [.endpointClose]) := by
  rw [finish, if_neg (by simp [hc])]
  unfold clearTimer cancelArmed
  by_cases ht : d.timerArmed = true
  · simp only [ht, if_true]
    exact ⟨rfl, rfl, List.append_assoc _ _ _⟩
  · simp only [ht, if_false, Bool.false_eq_true]
    exact ⟨rfl, rfl, rfl⟩

theorem settle_status (p : Promise) : (d.settle p).status =
    { d.status with promise := if d.promise = .pending then p else d.promise } ∧
      (d.settle p).timerArmed = d.timerArmed ∧ (d.settle p).log = d.log := by
  unfold settle
  split <;> exact ⟨rfl, rfl, rfl⟩

/-- The second half: the engine is disposed of, and the caller is told. -/
theorem finishRest_status (reason : Text) :
    (d.finishRest reason).status =
        (if d.opened then { d.status with disposed := true, stack := .callback :: d.stack }
        else { d.status with
          disposed := true
          promise := if d.promise = .pending then
            .rejected (.closedBeforeOpening (d.closeReason.getD "unknown".toList))
          else d.promise }) ∧
      (d.finishRest reason).timerArmed = d.timerArmed ∧
      (d.finishRest reason).log =
        d.log ++ (.dispose :: if d.opened then [.onClose reason] else []) := by
  have hs := settle_status (d := { d with
    engine := E.dispose d.engine, disposed := true }.record .dispose)
    (.rejected (.closedBeforeOpening (d.closeReason.getD "unknown".toList)))
  unfold finishRest
  dsimp only
  by_cases ho : d.opened = true
  · have ho' : ({ d with engine := E.dispose d.engine, disposed := true }.record .dispose).opened =
      true := ho
    rw [if_pos ho', if_pos ho, if_pos ho]
    exact ⟨rfl, rfl, by simp [push, record]⟩
  · have ho' : ¬ ({ d with engine := E.dispose d.engine, disposed := true }.record
      .dispose).opened = true := ho
    rw [if_neg ho', if_neg ho, if_neg ho]
    exact hs

theorem executorRest_status : d.executorRest.status = { d.status with
      promise := if d.promise = .pending then
          if d.opened then .resolved
          else if d.closed then
            .rejected (.closedBeforeOpening (d.closeReason.getD "unknown".toList))
          else .pending
        else d.promise } ∧
    d.executorRest.timerArmed = d.timerArmed ∧ d.executorRest.log = d.log := by
  unfold executorRest
  by_cases ho : d.opened = true
  · simp only [ho, if_true]
    exact settle_status _
  · by_cases hc : d.closed = true
    · simp only [ho, hc, if_true, Bool.false_eq_true, if_false]
      exact settle_status _
    · rw [if_neg ho, if_neg hc, if_neg ho, if_neg hc]
      refine ⟨?_, rfl, rfl⟩
      split
      · rename_i hp
        exact congrArg (fun p => { d.status with promise := p }) hp
      · rfl

/-- What is once so: a connection that is open or closed stays that, and a settled promise
stays as it is. -/
structure Later (d r : Connection E) : Prop where
  opened : d.opened = true → r.opened = true
  closed : d.closed = true → r.closed = true
  promise : d.promise ≠ .pending → r.promise = d.promise

theorem Later.refl (d : Connection E) : d.Later d := ⟨id, id, fun _ => rfl⟩

theorem Later.push {m : Connection E} (h : d.Later m) (tasks : List Task) :
    d.Later (m.push tasks) := ⟨h.opened, h.closed, h.promise⟩

theorem Inside.later {m : Connection E} {rest : List Task} (h : Inside { d with stack := rest } m) :
    d.Later m := ⟨h.opened.trans, h.closed.trans, fun _ => h.promise⟩

theorem later_settle {p : Promise} (d : Connection E) : d.Later (d.settle p) := by
  obtain ⟨hs, _, _⟩ := settle_status (d := d) p
  exact ⟨(congrArg Status.opened hs).trans, (congrArg Status.closed hs).trans,
    fun hp => (congrArg Status.promise hs).trans (if_neg hp)⟩

theorem later_raise (d : Connection E) : d.Later d.raise := by
  unfold raise
  split
  · exact ⟨id, id, fun _ => rfl⟩
  · rename_i rest _ _
    dsimp only
    split
    · have h := later_settle (p := .rejected .thrown) { d with stack := (unwind rest).1 }
      exact ⟨h.opened, h.closed, h.promise⟩
    · exact ⟨id, id, fun _ => rfl⟩
  · exact .refl d

theorem later_step (d : Connection E) (l : Label) : d.Later (d.step l) := by
  have hact := action_step d l
  generalize d.step l = r at hact ⊢
  have inside : ∀ {m : Connection E}, d.Inside m → d.Later m := by
    intro m h
    have hm : Inside { d with stack := d.stack } m := h
    exact hm.later
  have popped : ∀ rest : List Task, d.Later { d with stack := rest } :=
    fun rest => (Inside.refl { d with stack := rest }).later
  cases hact with
  | nothing => exact .refl d
  | send data =>
    obtain ⟨m, hm, hr⟩ := inside_handleSend d data
    rcases hr with hr | hr
    · rw [hr]
      exact inside hm
    · rw [hr]
      exact (inside hm).push _
  | close => exact (inside ((Inside.refl d).call .close _)).push _
  | stats => exact inside (inside_handleStats d)
  | error message => exact (Later.refl d).push _
  | feed _ m hi hm hf => exact (inside hm).push _
  | wait _ m hi hm hw => exact inside hm
  | resume => exact ⟨id, id, fun _ => rfl⟩
  | ret rest hs => exact popped rest
  | raise => exact later_raise d
  | idles now task rest hs ht => exact popped rest
  | pump now rest hs hc => exact (inside_pumpHead { d with stack := rest } now).later.push _
  | drain now events engine short rest hs hc hd hshort =>
    exact ((Inside.refl { d with stack := rest }).call .drainEvents engine).later.push _
  | poll now event engine rest hs hp he =>
    exact ((Inside.refl { d with stack := rest }).call .pollEvent engine).later.push _
  | pollNone now engine rest hs hp =>
    exact ((Inside.refl { d with stack := rest }).call .pollEvent engine).later
  | apply now event events source rest hs =>
    cases event with
    | opened =>
      unfold applyEvent
      dsimp only
      split
      · exact (popped rest).push _
      · exact ⟨fun _ => rfl, id, fun _ => rfl⟩
    | _ => exact ⟨id, id, fun _ => rfl⟩
  | loop now source loop rest hs hl => exact (popped rest).push _
  | settleOpen now rest hs =>
    have h := later_settle (p := .resolved) { d with stack := rest }
    exact ⟨h.opened, h.closed, h.promise⟩
  | finish now reason rest hs hc =>
    obtain ⟨hs, _, _⟩ := finish_status (d := { d with stack := rest }) reason hc
    exact ⟨(congrArg Status.opened hs).trans, fun _ => congrArg Status.closed hs,
      fun _ => congrArg Status.promise hs⟩
  | finishRest now reason rest hs =>
    obtain ⟨hs, _, _⟩ := finishRest_status (d := { d with stack := rest }) reason
    by_cases ho : d.opened = true
    · have ho' : ({ d with stack := rest } : Connection E).opened = true := ho
      rw [if_pos ho'] at hs
      exact ⟨(congrArg Status.opened hs).trans, (congrArg Status.closed hs).trans,
        fun _ => congrArg Status.promise hs⟩
    · have ho' : ¬ ({ d with stack := rest } : Connection E).opened = true := ho
      rw [if_neg ho'] at hs
      exact ⟨(congrArg Status.opened hs).trans, (congrArg Status.closed hs).trans,
        fun hp => (congrArg Status.promise hs).trans (if_neg hp)⟩
  | executorRest now rest hs =>
    obtain ⟨hs, _, _⟩ := executorRest_status (d := { d with stack := rest })
    exact ⟨(congrArg Status.opened hs).trans, (congrArg Status.closed hs).trans,
      fun hp => (congrArg Status.promise hs).trans (if_neg hp)⟩

end Connection

end RtcTunnel.Driver
