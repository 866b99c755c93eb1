import RtcTunnel.Driver.Deferral
import RtcTunnel.Driver.Settlement

/-!
# The size of a batch is not seen

`pump` takes the events off its engine in batches of some size or one by one. As long as the
callbacks return at once, neither the caller nor the peer nor the engine can tell: what a
connection does from one idle state to the next is one step of a machine without batches.
-/

namespace RtcTunnel.Driver

open RtcTunnel.Core
open RtcTunnel.Base.Run

set_option autoImplicit false

/-- An effect that does not show how events are taken, nor what the clock says. -/
def Effect.visible : Effect → Bool
  | .engine .pollEvent => false
  | .engine .drainEvents => false
  | .setTimer _ _ => false
  | _ => true

namespace Connection

variable {E : EngineApi} {d r : Connection E}

/-- A connection without its size of a batch and what is not visible. -/
def bare (d : Connection E) : Connection E :=
  { d with
    options := { d.options with eventBatchSize := .nan }
    log := d.log.filter Effect.visible }

theorem bare_bare (d : Connection E) : d.bare.bare = d.bare := by
  unfold bare
  rw [List.filter_filter]
  simp only [Bool.and_self]

theorem bare_ite {c : Prop} [Decidable c] (a b : Connection E) :
    (if c then a else b).bare = if c then a.bare else b.bare := by
  split <;> rfl

theorem bare_record (d : Connection E) (e : Effect) : (d.record e).bare = (d.bare.record e).bare := by
  unfold bare record
  dsimp only
  rw [List.filter_append, List.filter_append, List.filter_filter]
  simp only [Bool.and_self]

theorem bare_hidden (d : Connection E) {e : Effect} (he : e.visible = false) :
    (d.record e).bare = d.bare := by
  unfold bare record
  dsimp only
  rw [List.filter_append, List.filter_cons_of_neg (by rw [he]; exact Bool.false_ne_true),
    List.filter_nil, List.append_nil]

theorem bare_call (d : Connection E) (c : EngineCall) (engine : E.State) :
    (d.call c engine).bare = (d.bare.call c engine).bare :=
  bare_record { d with engine := engine } _

theorem bare_cancelArmed (d : Connection E) : d.cancelArmed.bare = d.bare.cancelArmed.bare := by
  unfold cancelArmed
  rw [bare_ite, bare_ite, bare_bare]
  exact if_congr Iff.rfl (bare_record d _) rfl

/-- The time only shows in the delay of a timer. -/
theorem bare_schedule (d : Connection E) (now now' : F64) :
    (d.schedule now).bare = (d.bare.schedule now').bare := by
  have hcall := bare_call d .nextDeadline (E.nextDeadline d.engine).2
  unfold schedule
  rw [bare_ite, bare_ite, bare_bare]
  refine if_congr Iff.rfl rfl ?_
  have heq : E.nextDeadline d.bare.engine = E.nextDeadline d.engine := rfl
  dsimp only
  rw [heq]
  cases (E.nextDeadline d.engine).1 with
  | none => exact hcall
  | some deadline =>
    dsimp only
    rw [bare_ite, bare_ite]
    refine if_congr Iff.rfl hcall ?_
    rw [bare_hidden _ rfl, bare_hidden _ rfl]
    have hcancel : ∀ m m' : Connection E, m.bare = m'.bare → m.cancelArmed.bare = m'.cancelArmed.bare := by
      intro m m' h
      rw [bare_cancelArmed m, h, ← bare_cancelArmed m']
    exact congrArg (fun m : Connection E =>
      { m with timerArmed := true, scheduledDeadline := some deadline }) (hcancel _ _ hcall)

theorem bare_flushFrom (queue : List Packet) (d : Connection E) :
    (flushFrom queue d).bare = (flushFrom queue d.bare).bare := by
  induction queue generalizing d with
  | nil => exact (bare_bare d).symm
  | cons next rest ih =>
    have hcall := bare_call d (.send next (E.send d.engine next.data).1) (E.send d.engine next.data).2
    unfold flushFrom
    dsimp only
    rw [bare_ite, bare_ite]
    refine if_congr Iff.rfl hcall ?_
    rw [ih, ih (shift (call d.bare _ _) next rest)]
    exact congrArg (fun m : Connection E => (flushFrom rest (m.shift next rest)).bare) hcall

theorem bare_pumpHead (d : Connection E) (now now' : F64) :
    (d.pumpHead now).bare = (d.bare.pumpHead now').bare := by
  have hs := bare_schedule d now now'
  have hflush : ∀ m : Connection E, m.flushQueue.bare = m.bare.flushQueue.bare :=
    fun m => bare_flushFrom m.queue m
  have hbackpressure : (d.bare.schedule now').options.backpressure =
      (d.schedule now).options.backpressure :=
    (congrArg (fun m : Connection E => m.options.backpressure) hs).symm
  unfold pumpHead
  dsimp only
  rw [bare_ite, bare_ite, hbackpressure]
  refine if_congr Iff.rfl ?_ hs
  rw [hflush, hs, ← hflush]

theorem bare_push (d : Connection E) (tasks : List Task) :
    (d.push tasks).bare = (d.bare.push tasks).bare :=
  congrArg (fun m : Connection E => m.push tasks) (bare_bare d).symm

theorem bare_schedulePump (d : Connection E) : d.schedulePump.bare = d.bare.schedulePump.bare := by
  unfold schedulePump
  rw [bare_ite, bare_ite]
  exact if_congr Iff.rfl (bare_push d _) (bare_bare { d with outboundScheduled := true }).symm

theorem bare_handleSend (d : Connection E) (data : Bytes) :
    (d.handleSend data).bare = (d.bare.handleSend data).bare := by
  have hcall := bare_call { d with sends := d.sends + 1 }
    (.send ⟨d.sends, data⟩ (E.send d.engine data).1) (E.send d.engine data).2
  have hrecord : ∀ (e : Effect) {m m' : Connection E}, m.bare = m'.bare →
      (m.record e).bare = (m'.record e).bare := by
    intro e m m' h
    rw [bare_record m, h, ← bare_record m']
  have hpump : ∀ {m m' : Connection E}, m.bare = m'.bare →
      m.schedulePump.bare = m'.schedulePump.bare := by
    intro m m' h
    rw [bare_schedulePump m, h, ← bare_schedulePump m']
  have hrefused := congrArg (fun m : Connection E =>
    { m with refusedSends := m.refusedSends + 1 }) hcall
  have hqueued := congrArg (fun m : Connection E =>
    { m with
      queue := m.queue ++ [(⟨d.sends, data⟩ : Packet)]
      queuedBytes := m.queuedBytes + data.length }) hcall
  unfold handleSend
  dsimp only
  simp only [bare_ite]
  refine if_congr Iff.rfl (bare_record { d with sends := d.sends + 1 } _) ?_
  refine if_congr Iff.rfl (hpump (hrecord _ hcall)) (if_congr Iff.rfl (hrecord _ hcall) ?_)
  refine if_congr Iff.rfl (if_congr Iff.rfl ?_ ?_) (hrecord _ hcall)
  · exact if_congr Iff.rfl (hrecord _ hrefused) (hrecord _ hqueued)
  · exact hrecord _ hrefused

theorem engine_of_bare {m m' : Connection E} (h : m.bare = m'.bare) : m.engine = m'.engine := by
  show m.bare.engine = m'.bare.engine
  rw [h]

theorem call_of_bare {m m' : Connection E} (h : m.bare = m'.bare) (c : EngineCall)
    (f : E.State → E.State) : (m.call c (f m.engine)).bare = (m'.call c (f m'.engine)).bare := by
  rw [bare_call m, h, engine_of_bare h, ← bare_call m']

theorem ask_of_bare {α : Type} {m m' : Connection E} (h : m.bare = m'.bare) (c : EngineCall)
    (method : Option (E.State → α × E.State)) :
    (m.ask c method).1 = (m'.ask c method).1 ∧
      (m.ask c method).2.bare = (m'.ask c method).2.bare := by
  cases method with
  | none => exact ⟨rfl, h⟩
  | some f =>
    exact ⟨congrArg (fun s => some (f s).1) (engine_of_bare h),
      call_of_bare h c fun s => (f s).2⟩

theorem bare_handleStats (d : Connection E) : d.handleStats.bare = d.bare.handleStats.bare := by
  obtain ⟨hsuite, h₁⟩ := ask_of_bare (bare_bare d).symm .negotiatedCipherSuite E.negotiatedCipherSuite
  obtain ⟨hbuffered, h₂⟩ := ask_of_bare h₁ .bufferedBytes E.bufferedBytes
  obtain ⟨hdropped, h₃⟩ := ask_of_bare h₂ .droppedDatagrams E.droppedDatagrams
  have hrefused : d.bare.refusedSends = d.refusedSends := rfl
  unfold handleStats
  dsimp only
  rw [hsuite, hbuffered, hdropped, hrefused, bare_record, h₃, ← bare_record]

theorem bare_onMessage (d : Connection E) (now : F64) (data : Bytes) :
    (d.onMessage now data).bare = (d.bare.onMessage now data).bare := by
  have hcall := bare_call d (.input data) (E.input d.engine now data)
  unfold onMessage
  rw [bare_ite, bare_ite, bare_ite, bare_ite]
  refine if_congr Iff.rfl (bare_bare d).symm (if_congr Iff.rfl ?_ ?_)
  · exact congrArg (fun m : Connection E => m.push [.pump]) hcall
  · exact (bare_bare { d with inbound := d.inbound ++ [data], inboundScheduled := true }).symm

theorem bare_foldl {f : Connection E → Bytes → Connection E}
    (hf : ∀ (c : Connection E) data, (f c data).bare = (f c.bare data).bare) (datagrams : List Bytes)
    {m m' : Connection E} (h : m.bare = m'.bare) :
    (datagrams.foldl f m).bare = (datagrams.foldl f m').bare := by
  induction datagrams generalizing m m' with
  | nil => exact h
  | cons data datagrams ih =>
    refine ih ?_
    rw [hf m, h, ← hf m']

theorem bare_feed (d : Connection E) (now : F64) : (d.feed now).bare = (d.bare.feed now).bare := by
  have hfold := fun (c : Bytes → EngineCall) (g : E.State → F64 → Bytes → E.State) =>
    bare_foldl (f := fun m data => m.call (c data) (g m.engine now data))
      (fun m data => bare_call m _ _) d.inbound (bare_bare d).symm
  have hemptied : ∀ {m m' : Connection E}, m.bare = m'.bare →
      { m with inbound := [] }.bare = { m' with inbound := [] }.bare := fun h =>
    congrArg (fun m : Connection E => { m with inbound := [] }) h
  unfold feed
  split
  · rename_i inputDeferred finishInputBatch hi hf
    exact call_of_bare (hemptied (hfold .inputDeferred inputDeferred)) .finishInputBatch
      finishInputBatch
  · exact hemptied (hfold .input E.input)

theorem bare_flushInbound (d : Connection E) (now : F64) :
    (d.flushInbound now).bare = (d.bare.flushInbound now).bare := by
  unfold flushInbound
  dsimp only
  rw [bare_ite, bare_ite]
  refine if_congr Iff.rfl (bare_bare { d with inboundScheduled := false }).symm ?_
  exact congrArg (fun m : Connection E => m.push [.pump]) (bare_feed { d with inboundScheduled := false } now)

/-- Code of the driver that goes on, or a callback that returns. -/
def Label.inert : Label → Bool
  | .advance _ => true
  | .ret => true
  | _ => false

/-- What comes from outside does the same to connections that differ in their batches. -/
theorem bare_step (d : Connection E) {l : Label} (hl : l.inert = false) (hr : l.isRaise = false) :
    (d.step l).bare = (d.bare.step l).bare := by
  cases l with
  | advance now => cases hl
  | ret => cases hl
  | raise => cases hr
  | send data =>
    rw [step, step, bare_ite, bare_ite]
    exact if_congr Iff.rfl (bare_handleSend d data) (bare_bare d).symm
  | close =>
    have hclose : d.handleClose.bare = d.bare.handleClose.bare := by
      unfold handleClose
      rw [bare_ite, bare_ite]
      exact if_congr Iff.rfl (bare_bare d).symm
        (congrArg (fun m : Connection E => m.push [.pump, .finish "local".toList])
          (bare_call d .close (E.close d.engine)))
    rw [step, step, bare_ite, bare_ite]
    exact if_congr Iff.rfl hclose (bare_bare d).symm
  | stats =>
    rw [step, step, bare_ite, bare_ite]
    exact if_congr Iff.rfl (bare_handleStats d) (bare_bare d).symm
  | error message =>
    rw [step, step, bare_ite, bare_ite]
    exact if_congr Iff.rfl (bare_push d _) (bare_bare d).symm
  | datagram now data =>
    rw [step, step, bare_ite, bare_ite]
    exact if_congr Iff.rfl (bare_onMessage d now data) (bare_bare d).symm
  | flushInbound now =>
    rw [step, step, bare_ite, bare_ite]
    exact if_congr Iff.rfl (bare_flushInbound d now) (bare_bare d).symm
  | flushOutbound =>
    rw [step, step, bare_ite, bare_ite]
    exact if_congr Iff.rfl (bare_push { d with outboundScheduled := false } _) (bare_bare d).symm
  | timer now =>
    have hcall := bare_call { d with timerArmed := false, scheduledDeadline := none } .tick
      (E.tick d.engine now)
    rw [step, step, bare_ite, bare_ite]
    exact if_congr Iff.rfl (congrArg (fun m : Connection E => m.push [.pump]) hcall)
      (bare_bare d).symm
  | resume =>
    rw [step, step, bare_ite, bare_ite]
    exact if_congr Iff.rfl (bare_bare { d with handed := true }).symm (bare_bare d).symm

/-- The effect of an event, with the callback that it calls already over. -/
def told (d : Connection E) : EngineEvent → Connection E
  | .datagram data => d.record (.endpointSend data)
  | .opened => if d.opened then d else { d with opened := true }.record .onOpen
  | .message data => d.record (.onPacket data)
  | .closed _ => d
  | .none => d

def toldAll (d : Connection E) (events : List EngineEvent) : Connection E := events.foldl told d

theorem told_of_bare {m m' : Connection E} (h : m.bare = m'.bare) (event : EngineEvent) :
    (m.told event).bare = (m'.told event).bare := by
  have hrecord : ∀ {r r' : Connection E} (e : Effect), r.bare = r'.bare →
      (r.record e).bare = (r'.record e).bare := by
    intro r r' e hr
    rw [bare_record r, hr, ← bare_record r']
  cases event with
  | datagram data => exact hrecord _ h
  | message data => exact hrecord _ h
  | closed reason => exact h
  | none => exact h
  | opened =>
    have ho : m.opened = m'.opened := by
      show m.bare.opened = m'.bare.opened
      rw [h]
    unfold told
    dsimp only
    rw [bare_ite, bare_ite, ho]
    refine if_congr Iff.rfl h (hrecord _ ?_)
    exact congrArg (fun r : Connection E => { r with opened := true }) h

theorem toldAll_of_bare {m m' : Connection E} (h : m.bare = m'.bare) (events : List EngineEvent) :
    (m.toldAll events).bare = (m'.toldAll events).bare := by
  induction events generalizing m m' with
  | nil => exact h
  | cons event events ih => exact ih (told_of_bare h event)

theorem toldAll_append (d : Connection E) (events more : List EngineEvent) :
    d.toldAll (events ++ more) = (d.toldAll events).toldAll more := List.foldl_append

/-- Events leave the engine alone. -/
theorem toldAll_engine (d : Connection E) (events : List EngineEvent) (s : E.State) :
    { d.toldAll events with engine := s } = { d with engine := s }.toldAll events ∧
      (d.toldAll events).engine = d.engine := by
  induction events generalizing d with
  | nil => exact ⟨rfl, rfl⟩
  | cons event events ih =>
    obtain ⟨hset, hengine⟩ := ih (d.told event)
    have hone : { d.told event with engine := s } = { d with engine := s }.told event ∧
        (d.told event).engine = d.engine := by
      cases event with
      | opened =>
        unfold told
        dsimp only
        split <;> exact ⟨rfl, rfl⟩
      | _ => exact ⟨rfl, rfl⟩
    refine ⟨?_, hengine.trans hone.2⟩
    rw [toldAll, List.foldl_cons, ← toldAll, hset, hone.1]
    rfl

end Connection

/-- **What is assumed of the engine**: taking events off it does nothing else to it. `emptied`
is what is left of it once none is left to take. -/
structure Empties {E : EngineApi} (Q : EventQueue E) where
  emptied : E.State → E.State
  empty : ∀ s, Q.events s = [] → emptied s = s
  poll : ∀ s, emptied (E.pollEvent s).2 = emptied s
  drain : ∀ f, E.drainEvents = some f → ∀ s size, emptied (f s size).2 = emptied s

/-- A task that the turn does not wait for. -/
def Task.side : Task → Bool
  | .callback => true
  | .settleOpen => true
  | .executorRest => true
  | _ => false

namespace Connection

variable {E : EngineApi} {Q : EventQueue E} (Z : Empties Q) {d r : Connection E}

/-- The connection once its engine is empty and every event is told. -/
def toldOut (d : Connection E) : Connection E :=
  { d with engine := Z.emptied d.engine }.toldAll (Q.events d.engine)

/-- What is left of the turn, by the task that it waits for. -/
def ending (task : Option Task) (d : Connection E) : Connection E :=
  match task with
  | some .pump => toldOut Z (d.pumpHead (.ofInt 0))
  | some .drainLoop => toldOut Z d
  | some .pollLoop => toldOut Z d
  | some (.apply events source) =>
    if source.loop.isSome then toldOut Z (d.toldAll events) else d.toldAll events
  | _ => d

def work (d : Connection E) : Option Task := (d.stack.filter (!·.side)).head?

/-- A connection with nothing on its stack and its promise open. -/
def fresh (d : Connection E) : Connection E := { d with stack := [], promise := .pending }

/-- The promise of an open connection between turns. -/
def settled (d : Connection E) : Connection E :=
  { d with promise := if d.opened then .resolved else .pending }

/-- **The end of the turn** that the connection is in. -/
def final (d : Connection E) : Connection E := (ending Z d.work d.fresh).settled.bare

theorem toldOut_of_bare {m m' : Connection E} (h : m.bare = m'.bare) :
    (toldOut Z m).bare = (toldOut Z m').bare := by
  rw [toldOut, toldOut, engine_of_bare h]
  exact toldAll_of_bare (congrArg (fun r : Connection E =>
    { r with engine := Z.emptied m'.engine }) h) _

theorem ending_of_bare {m m' : Connection E} (h : m.bare = m'.bare) (task : Option Task) :
    (ending Z task m).bare = (ending Z task m').bare := by
  unfold ending
  split
  · refine toldOut_of_bare Z ?_
    rw [bare_pumpHead m (.ofInt 0) (.ofInt 0), h, ← bare_pumpHead m']
  · exact toldOut_of_bare Z h
  · exact toldOut_of_bare Z h
  · rw [bare_ite, bare_ite]
    exact if_congr Iff.rfl (toldOut_of_bare Z (toldAll_of_bare h _)) (toldAll_of_bare h _)
  · exact h

theorem settled_of_bare {m m' : Connection E} (h : m.bare = m'.bare) :
    m.settled.bare = m'.settled.bare :=
  congrArg (fun r : Connection E => r.settled) h

/-- Where a turn ends does not show in the size of its batches. -/
theorem final_of_bare {m m' : Connection E} (h : m.bare = m'.bare) : final Z m = final Z m' := by
  have hw : m.work = m'.work := by
    show m.bare.work = m'.bare.work
    rw [h]
  have hfresh : m.fresh.bare = m'.fresh.bare := congrArg (fun r : Connection E => r.fresh) h
  rw [final, final, hw]
  exact settled_of_bare (ending_of_bare Z hfresh _)

/-- One task at a time. -/
def OneTask (d : Connection E) : Prop := (d.stack.filter (!·.side)).length ≤ 1

/-- The connection is closed, or closes before the turn is over. -/
def Doomed (d : Connection E) : Prop := d.closed = true ∨ ∃ reason, d.work = some (.finish reason)

theorem fresh_ite {c : Prop} [Decidable c] (a b : Connection E) :
    (if c then a else b).fresh = if c then a.fresh else b.fresh := by
  split <;> rfl

theorem fresh_cancelArmed (d : Connection E) : d.cancelArmed.fresh = d.fresh.cancelArmed :=
  fresh_ite _ _

theorem fresh_schedule (d : Connection E) (now : F64) :
    (d.schedule now).fresh = d.fresh.schedule now := by
  unfold schedule
  rw [fresh_ite]
  refine if_congr Iff.rfl rfl ?_
  have heq : E.nextDeadline d.fresh.engine = E.nextDeadline d.engine := rfl
  dsimp only
  rw [heq]
  cases (E.nextDeadline d.engine).1 with
  | none => rfl
  | some deadline =>
    dsimp only
    rw [fresh_ite]
    refine if_congr Iff.rfl rfl ?_
    exact congrArg (fun m : Connection E =>
      { m with timerArmed := true, scheduledDeadline := some deadline }.record
        (.setTimer deadline now)) (fresh_cancelArmed _)

theorem fresh_flushFrom (queue : List Packet) (d : Connection E) :
    (flushFrom queue d).fresh = flushFrom queue d.fresh := by
  induction queue generalizing d with
  | nil => rfl
  | cons next rest ih =>
    unfold flushFrom
    dsimp only
    rw [fresh_ite]
    exact if_congr Iff.rfl rfl (ih _)

theorem fresh_pumpHead (d : Connection E) (now : F64) :
    (d.pumpHead now).fresh = d.fresh.pumpHead now := by
  unfold pumpHead
  dsimp only
  rw [fresh_ite, ← fresh_schedule]
  exact if_congr Iff.rfl (fresh_flushFrom _ _) rfl

/-- The task on top is the work, or it is none of it. -/
theorem OneTask.top (h : d.OneTask) {task : Task} {rest : List Task}
    (hs : d.stack = task :: rest) (hside : task.side = false) :
    d.work = some task ∧ rest.filter (!·.side) = [] := by
  have hone : (d.stack.filter (!·.side)).length ≤ 1 := h
  rw [hs, List.filter_cons_of_pos (by rw [hside]; rfl), List.length_cons] at hone
  refine ⟨?_, List.length_eq_zero_iff.mp (by omega)⟩
  rw [work, hs, List.filter_cons_of_pos (by rw [hside]; rfl)]
  rfl

/-- What comes in the place of the task on top. -/
theorem OneTask.replace (h : d.OneTask) {task : Task} {rest : List Task} (above : List Task)
    (hs : d.stack = task :: rest) (hside : task.side = false) (hr : r.stack = above ++ rest)
    (hone : (above.filter (!·.side)).length ≤ 1) :
    r.OneTask ∧ r.work = (above.filter (!·.side)).head? := by
  obtain ⟨_, hrest⟩ := h.top hs hside
  have hfilter : r.stack.filter (!·.side) = above.filter (!·.side) := by
    rw [hr, List.filter_append, hrest, List.append_nil]
  exact ⟨by rw [OneTask, hfilter]; exact hone, by rw [work, hfilter]⟩

/-- A task that the turn does not wait for goes. -/
theorem OneTask.drop (h : d.OneTask) {task : Task} {rest : List Task}
    (hs : d.stack = task :: rest) (hside : task.side = true) (hr : r.stack = rest) : r.OneTask ∧ r.work = d.work := by
  have hfilter : r.stack.filter (!·.side) = d.stack.filter (!·.side) := by
    rw [hr, hs, List.filter_cons_of_neg (by rw [hside]; exact Bool.false_ne_true)]
  exact ⟨by rw [OneTask, hfilter]; exact h, by rw [work, hfilter, work]⟩

/-- A step within a turn leaves the end of the turn where it was, unless the turn closes the
connection. -/
structure Goes (d r : Connection E) : Prop where
  turn : r.OneTask
  same : r.Doomed ∨ final Z r = final Z d
  doomed : d.Doomed → r.Doomed

/-- The end of a turn stays where it is if the work and all it needs does. -/
theorem final_eq {w : Option Task} (hw : r.work = w)
    (h : (ending Z w r.fresh).bare = (ending Z d.work d.fresh).bare) : final Z r = final Z d := by
  rw [final, final, hw]
  exact settled_of_bare h

theorem Goes.refl (h : d.OneTask) : Goes Z d d := ⟨h, .inr rfl, id⟩

/-- Code of a closed connection that finds nothing to do. -/
theorem goes_idle (h : d.OneTask) {task : Task} {rest : List Task} (hs : d.stack = task :: rest)
    (hside : task.side = false) (hc : d.closed = true) : Goes Z d { d with stack := rest } :=
  ⟨(h.replace (r := { d with stack := rest }) [] hs hside rfl (Nat.zero_le 1)).1,
    .inl (.inl hc), fun _ => .inl hc⟩

/-- A task that is over, or goes on with another one. -/
theorem goes_work (h : d.OneTask) {task : Task} {rest : List Task} (above : List Task)
    (hs : d.stack = task :: rest) (hside : task.side = false) (hr : r.stack = above ++ rest)
    (hone : (above.filter (!·.side)).length ≤ 1)
    (hclosed : d.closed = true → r.closed = true) (hfinish : ∀ reason, task ≠ .finish reason)
    (hsame : (ending Z (above.filter (!·.side)).head? r.fresh).bare =
      (ending Z (some task) d.fresh).bare) : Goes Z d r := by
  obtain ⟨hw, _⟩ := h.top hs hside
  obtain ⟨hturn, hwork⟩ := h.replace above hs hside hr hone
  refine ⟨hturn, .inr (final_eq Z hwork (hw ▸ hsame)), fun hd => ?_⟩
  rcases hd with hd | ⟨reason, hd⟩
  · exact .inl (hclosed hd)
  · exact absurd (Option.some.inj (hw.symm.trans hd)) (hfinish reason)

section Tasks

variable {rest : List Task} (now : F64)

theorem pumpLoop_cases (d : Connection E) : d.pumpLoop = .drainLoop ∨ d.pumpLoop = .pollLoop := by
  unfold pumpLoop
  split
  · exact .inl rfl
  · exact .inr rfl

theorem goes_pump (h : d.OneTask) (hs : d.stack = .pump :: rest) :
    Goes Z d ({ d with stack := rest }.pump now) := by
  rcases Bool.eq_false_or_eq_true d.closed with hc | hc
  · have he : { d with stack := rest }.pump now = { d with stack := rest } := if_pos hc
    rw [he]
    exact goes_idle Z h hs rfl hc
  · have hi := inside_pumpHead { d with stack := rest } now
    have hfresh : ({ d with stack := rest }.pumpHead now).fresh = d.fresh.pumpHead now :=
      fresh_pumpHead { d with stack := rest } now
    have htime : (toldOut Z (d.fresh.pumpHead now)).bare =
        (toldOut Z (d.fresh.pumpHead (.ofInt 0))).bare := by
      refine toldOut_of_bare Z ?_
      rw [bare_pumpHead d.fresh now (.ofInt 0), ← bare_pumpHead d.fresh (.ofInt 0) (.ofInt 0)]
    rw [pump_eq { d with stack := rest } now hc]
    show Goes Z d (({ d with stack := rest }.pumpHead now).push [d.pumpLoop])
    generalize { d with stack := rest }.pumpHead now = m at hi hfresh ⊢
    have hstack : (m.push [d.pumpLoop]).stack = [d.pumpLoop] ++ rest :=
      congrArg ([d.pumpLoop] ++ ·) hi.stack
    have hclosed : d.closed = true → (m.push [d.pumpLoop]).closed = true := fun hd => hi.closed.trans hd
    rw [← hfresh] at htime
    rcases d.pumpLoop_cases with hl | hl
    · rw [hl] at hstack hclosed ⊢
      exact goes_work Z h [.drainLoop] hs rfl hstack (Nat.le_refl 1) hclosed (by simp) htime
    · rw [hl] at hstack hclosed ⊢
      exact goes_work Z h [.pollLoop] hs rfl hstack (Nat.le_refl 1) hclosed (by simp) htime

theorem toldOut_toldAll (d : Connection E) (events : List EngineEvent) :
    toldOut Z (d.toldAll events) =
      { d with engine := Z.emptied d.engine }.toldAll (events ++ Q.events d.engine) := by
  obtain ⟨hset, hengine⟩ := toldAll_engine d events (Z.emptied d.engine)
  rw [toldOut, hengine, hset, toldAll_append]

/-- Events taken off the engine are told all the same. -/
theorem told_taken {c : EngineCall} (hc : (Effect.engine c).visible = false) {d : Connection E}
    {s : E.State} {taken : List EngineEvent} (hs : Z.emptied s = Z.emptied d.engine)
    (ht : taken ++ Q.events s = Q.events d.engine) :
    (toldOut Z ((d.call c s).toldAll taken)).bare = (toldOut Z d).bare := by
  rw [toldOut_toldAll, show (d.call c s).engine = s from rfl, hs, ht]
  exact toldAll_of_bare (bare_hidden { d with engine := Z.emptied d.engine } hc) _

/-- Where they were the last, that is all. -/
theorem told_last {c : EngineCall} (hc : (Effect.engine c).visible = false) {d : Connection E}
    {s : E.State} (hs : Z.emptied s = Z.emptied d.engine) (he : Q.events s = [])
    {taken : List EngineEvent} (ht : taken ++ Q.events s = Q.events d.engine) :
    ((d.call c s).toldAll taken).bare = (toldOut Z d).bare := by
  have hengine : s = Z.emptied d.engine := (Z.empty s he).symm.trans hs
  rw [he, List.append_nil] at ht
  rw [toldOut, ← ht, ← hengine]
  exact toldAll_of_bare (bare_hidden { d with engine := s } hc) _

theorem goes_drainLoop (h : d.OneTask) (hb : d.Batches) (hsize : WholeOrOff d.options)
    (hs : d.stack = .drainLoop :: rest) : Goes Z d { d with stack := rest }.drainLoop := by
  rcases Bool.eq_false_or_eq_true d.closed with hc | hc
  · have he : { d with stack := rest }.drainLoop = { d with stack := rest } := if_pos hc
    rw [he]
    exact goes_idle Z h hs rfl hc
  · obtain ⟨hp, hl, hw⟩ := hb.size hsize hs
    have hd := (Bool.and_eq_true_iff.mp (hb .drainLoop (hs ▸ List.mem_cons_self ..) rfl)).2
    obtain ⟨drain, hd⟩ := Option.isSome_iff_exists.mp hd
    have hemptied := Z.drain drain hd d.engine d.options.eventBatchSize
    have htaken : (drain d.engine d.options.eventBatchSize).1 ++
        Q.events (drain d.engine d.options.eventBatchSize).2 = Q.events d.engine := by
      obtain ⟨htake, hdrop⟩ := Q.drainEvents drain hd d.engine _ hp hl hw
      rw [htake, hdrop, List.take_append_drop]
    have hlast := drained_drain (Q := Q) hp hl hw hd (s := d.engine)
    have he : { d with stack := rest }.drainLoop =
        ({ d with stack := rest }.call .drainEvents
          (drain d.engine d.options.eventBatchSize).2).push
            [.apply (drain d.engine d.options.eventBatchSize).1
              (.batch ((F64.ofInt (drain d.engine d.options.eventBatchSize).1.length).lt
                d.options.eventBatchSize))] := by
      rw [drainLoop, if_neg (by rw [hc]; exact Bool.false_ne_true), hd]
    rw [he]
    refine goes_work Z h [_] hs rfl rfl (Nat.le_refl 1) id (by simp) ?_
    cases hshort : (F64.ofInt (drain d.engine d.options.eventBatchSize).1.length).lt
        d.options.eventBatchSize with
    | true => exact told_last Z (d := d.fresh) rfl hemptied (hlast hshort) htaken
    | false => exact told_taken Z (d := d.fresh) rfl hemptied htaken

theorem goes_pollLoop (h : d.OneTask) (hs : d.stack = .pollLoop :: rest) :
    Goes Z d { d with stack := rest }.pollLoop := by
  have hemptied := Z.poll d.engine
  unfold pollLoop
  dsimp only
  cases hq : Q.events d.engine with
  | nil =>
    obtain ⟨hnone, hq'⟩ := Q.pollNil d.engine hq
    rw [if_pos hnone]
    refine goes_work Z h [] hs rfl rfl (Nat.zero_le 1) id (by simp) ?_
    exact told_last Z (c := .pollEvent) (d := d.fresh) rfl hemptied hq'
      (by rw [List.nil_append, hq']; exact hq.symm)
  | cons e es =>
    obtain ⟨hsome, hq'⟩ := Q.pollCons d.engine e es hq
    have hne : (E.pollEvent d.engine).1 ≠ .none := by
      rw [hsome]
      rintro rfl
      exact Q.real d.engine (hq ▸ List.mem_cons_self ..)
    rw [if_neg hne]
    refine goes_work Z h [.apply [(E.pollEvent d.engine).1] .poll] hs rfl rfl (Nat.le_refl 1)
      id (by simp) ?_
    exact told_taken Z (c := .pollEvent) (d := d.fresh) (s := (E.pollEvent d.engine).2) rfl hemptied
      (by rw [hq', hsome]; exact hq.symm)

/-- An event that does not close is told, and the ones behind it stay in hand. -/
theorem applyEvent_told (d : Connection E) {event : EngineEvent} (he : event.isClosed = false)
    (next : Task) : ∃ above : List Task, (∀ t ∈ above, t.side = true) ∧
      (d.applyEvent event next).stack = above ++ next :: d.stack ∧
      (d.applyEvent event next).fresh = d.fresh.told event := by
  have hside : ∀ t ∈ [Task.callback], t.side = true := List.forall_mem_singleton.mpr rfl
  cases event with
  | none => exact ⟨[], by simp, rfl, rfl⟩
  | datagram data => exact ⟨[.callback], hside, rfl, rfl⟩
  | message data => exact ⟨[.callback], hside, rfl, rfl⟩
  | closed reason => cases he
  | opened =>
    unfold applyEvent told
    dsimp only
    by_cases ho : d.opened = true
    · have ho' : d.fresh.opened = true := ho
      rw [if_pos ho, if_pos ho']
      exact ⟨[], by simp, rfl, rfl⟩
    · have ho' : ¬ d.fresh.opened = true := ho
      rw [if_neg ho, if_neg ho']
      exact ⟨[.callback, .settleOpen], by simp [Task.side], rfl, rfl⟩

theorem applyEvent_closed (d : Connection E) (event : EngineEvent) (next : Task) :
    (d.applyEvent event next).closed = d.closed := by
  cases event with
  | opened =>
    unfold applyEvent
    dsimp only
    split <;> rfl
  | _ => rfl

theorem goes_apply (h : d.OneTask) {events : List EngineEvent} {source : Source}
    (hs : d.stack = .apply events source :: rest) :
    Goes Z d ({ d with stack := rest }.apply events source) := by
  cases events with
  | nil =>
    cases source with
    | poll =>
      exact goes_work Z h [.pollLoop] hs rfl rfl (Nat.le_refl 1) id (by simp) rfl
    | batch short =>
      cases short with
      | true => exact goes_work Z h [] hs rfl rfl (Nat.zero_le 1) id (by simp) rfl
      | false =>
        exact goes_work Z h [.drainLoop] hs rfl rfl (Nat.le_refl 1) id (by simp) rfl
  | cons event events =>
    show Goes Z d ({ d with stack := rest }.applyEvent event (.apply events source))
    cases he : event.isClosed with
    | false =>
      obtain ⟨above, hside, hstack, hfresh⟩ :=
        applyEvent_told { d with stack := rest } he (.apply events source)
      have hclosed := applyEvent_closed { d with stack := rest } event (.apply events source)
      have hfilter : (above ++ [Task.apply events source]).filter (!·.side) =
          [.apply events source] := by
        rw [List.filter_append, List.filter_eq_nil_iff.mpr fun t ht => by simp [hside t ht]]
        rfl
      refine goes_work Z h (above ++ [.apply events source]) hs rfl
        (by rw [hstack, List.append_assoc]; rfl) (by rw [hfilter]; rfl)
        (fun hc => hclosed.trans hc) (by simp) ?_
      rw [hfilter, hfresh]
      rfl
    | true =>
      cases event with
      | closed reason =>
        obtain ⟨hturn, hwork⟩ := h.replace
          (r := { d with stack := rest }.applyEvent (.closed reason) (.apply events source))
          [.finish (Driver.closeReason reason)] hs rfl rfl (Nat.le_refl 1)
        exact ⟨hturn, .inl (.inr ⟨_, hwork⟩), fun _ => .inr ⟨_, hwork⟩⟩
      | _ => cases he

/-- The close, from its first half on. -/
theorem goes_finish {reason : Text} (h : d.OneTask) (hs : d.stack = .finish reason :: rest) :
    Goes Z d ({ d with stack := rest }.finish reason) := by
  rcases Bool.eq_false_or_eq_true d.closed with hc | hc
  · have he : { d with stack := rest }.finish reason = { d with stack := rest } := if_pos hc
    rw [he]
    exact goes_idle Z h hs rfl hc
  · obtain ⟨hst, _, _⟩ := finish_status (d := { d with stack := rest }) reason hc
    have hclosed := congrArg Status.closed hst
    have hturn := h.replace [.callback, .finishRest reason] hs rfl (congrArg Status.stack hst)
      (Nat.le_refl 1)
    exact ⟨hturn.1, .inl (.inl hclosed), fun _ => .inl hclosed⟩

theorem goes_finishRest {reason : Text} (h : d.OneTask) (hl : d.Ledger)
    (hs : d.stack = .finishRest reason :: rest) :
    Goes Z d ({ d with stack := rest }.finishRest reason) := by
  have hclosed := (finishRest_fields d rest reason).1.trans (hl.closing hs)
  obtain ⟨above, hstack, hside⟩ : ∃ above : List Task,
      ({ d with stack := rest }.finishRest reason).stack = above ++ rest ∧
        (above = [] ∨ above = [.callback]) := by
    unfold finishRest
    dsimp only
    split
    · exact ⟨[.callback], rfl, .inr rfl⟩
    · refine ⟨[], ?_, .inl rfl⟩
      unfold settleClosed settle
      split <;> rfl
  have hturn : ({ d with stack := rest }.finishRest reason).OneTask := by
    rcases hside with rfl | rfl
    · exact (h.replace [] hs rfl hstack (Nat.zero_le 1)).1
    · exact (h.replace [.callback] hs rfl hstack (Nat.zero_le 1)).1
  exact ⟨hturn, .inl (.inl hclosed), fun _ => .inl hclosed⟩

/-- What settles the promise is no part of the turn. -/
theorem goes_aside {task : Task} (h : d.OneTask) (hs : d.stack = task :: rest)
    (hside : task.side = true) (hr : r.stack = rest) (hclosed : r.closed = d.closed)
    (hfresh : r.fresh = d.fresh) : Goes Z d r := by
  obtain ⟨hturn, hwork⟩ := h.drop hs hside hr
  refine ⟨hturn, .inr (final_eq Z hwork (by rw [hfresh])), fun hd => ?_⟩
  rcases hd with hd | hd
  · exact .inl (hclosed.trans hd)
  · exact .inr (hwork ▸ hd)

theorem fresh_settle (d : Connection E) (p : Promise) : (d.settle p).fresh = d.fresh := by
  unfold settle
  split <;> rfl

/-- **A step of the driver's own code**, or a callback that returns. -/
theorem goes_step (h : d.OneTask) (hb : d.Batches) (hl : d.Ledger) (hsize : WholeOrOff d.options)
    {l : Label} (hi : l.inert = true) : Goes Z d (d.step l) := by
  cases l with
  | advance now =>
    rw [step]
    split
    · exact Goes.refl Z h
    · exact Goes.refl Z h
    · rename_i task rest hcallback hs
      have settled : ∀ p, (settle { d with stack := rest } p).status = { d.status with
          stack := rest, promise := if d.promise = .pending then p else d.promise } := fun p =>
        (settle_status (d := { d with stack := rest }) p).1
      cases task with
      | callback => exact absurd rfl hcallback
      | pump => exact goes_pump Z now h hs
      | drainLoop => exact goes_drainLoop Z h hb hsize hs
      | pollLoop => exact goes_pollLoop Z h hs
      | apply events source => exact goes_apply Z h hs
      | settleOpen =>
        have hst := settled .resolved
        exact goes_aside Z h hs rfl (congrArg Status.stack hst) (congrArg Status.closed hst)
          (fresh_settle _ _)
      | finish reason => exact goes_finish Z h hs
      | finishRest reason => exact goes_finishRest Z h hl hs
      | executorRest =>
        have hst := (executorRest_status (d := { d with stack := rest })).1
        refine goes_aside Z h hs rfl (congrArg Status.stack hst) (congrArg Status.closed hst) ?_
        show ({ d with stack := rest }.executorRest).fresh = d.fresh
        unfold executorRest
        split
        · exact fresh_settle _ _
        · split
          · exact fresh_settle _ _
          · rfl
  | ret =>
    rw [step]
    split
    · rename_i rest hs
      exact goes_aside Z h hs rfl rfl rfl rfl
    · exact Goes.refl Z h
  | _ => cases hi

end Tasks

/-- What starts a turn of a connection that stays open. -/
def Label.starts : Label → Bool
  | .send _ => true
  | .stats => true
  | .datagram _ _ => true
  | .flushInbound _ => true
  | .flushOutbound => true
  | .timer _ => true
  | .resume => true
  | _ => false

theorem Label.of_starts {l : Label} (h : l.starts = true) : l.inert = false ∧ l.isRaise = false := by
  cases l <;> first | exact ⟨rfl, rfl⟩ | cases h

/-- The callbacks return at once, and turns start one after the other. -/
def InTurns (d : Connection E) (l : Label) : Prop :=
  l.inert = true ∨ l.starts = true ∧ d.idle = true

instance decidableInTurns (d : Connection E) (l : Label) : Decidable (d.InTurns l) :=
  inferInstanceAs (Decidable (_ ∨ _ ∧ _))

/-- One turn of a connection that has no batches. -/
def turn (c : Connection E) (l : Label) : Connection E := final Z (c.step l)

/-- What starts a turn leaves no more than one pump to do. -/
theorem starts_stack {l : Label} (hs : l.starts = true) (hi : d.idle = true) :
    (d.step l).stack = [] ∨ (d.step l).stack = [.pump] := by
  have hnil : d.stack = [] := List.isEmpty_iff.mp hi
  have pumped : ∀ {m : Connection E}, d.Inside m → (m.push [.pump]).stack = [.pump] := fun hm =>
    congrArg (Task.pump :: ·) (hm.stack.trans hnil)
  have hact := action_step d l
  generalize d.step l = r at hact ⊢
  cases hact with
  | nothing => exact .inl hnil
  | send data ho hh =>
    obtain ⟨m, hm, hr | hr⟩ := inside_handleSend d data
    · exact .inl (hr ▸ hm.stack.trans hnil)
    · exact .inr (hr ▸ pumped hm)
  | stats ho hh => exact .inl ((inside_handleStats d).stack.trans hnil)
  | feed _ m hi hm hf => exact .inr (pumped hm)
  | wait _ m hi hm hw => exact .inl (hm.stack.trans hnil)
  | resume hi hp => exact .inl hnil
  | _ => cases hs

theorem oneTask_starts {l : Label} (hs : l.starts = true) (hi : d.idle = true) :
    (d.step l).OneTask := by
  rcases starts_stack hs hi with hstack | hstack
  · rw [OneTask, hstack]
    exact Nat.zero_le 1
  · rw [OneTask, hstack]
    exact Nat.le_refl 1

/-- Between turns nothing is left to do. -/
theorem final_idle (hi : d.idle = true) (hc : d.closed = false) (hb : d.Balance) :
    final Z d = d.bare := by
  have hnil : d.stack = [] := List.isEmpty_iff.mp hi
  have hp : (if d.opened then Promise.resolved else .pending) = d.promise := by
    cases hp : d.promise with
    | resolved => rw [if_pos (hb.resolved hp)]
    | rejected why => exact absurd (hc.symm.trans (hb.rejected why hp).1) Bool.false_ne_true
    | pending =>
      refine if_neg fun ho => ?_
      have hm := hb.opening hp ho
      rw [hnil] at hm
      cases hm
  rw [final, work, hnil]
  show ({ d with stack := [], promise := if d.opened then Promise.resolved else .pending }).bare = _
  rw [hp, ← hnil]

theorem closed_of_doomed (hd : d.Doomed) (hi : d.idle = true) : d.closed = true := by
  rcases hd with hd | ⟨reason, hd⟩
  · exact hd
  · rw [work, List.isEmpty_iff.mp hi] at hd
    cases hd

/-- What a run goes on with. -/
structure Turning (options : ResolvedOptions) (d : Connection E) : Prop where
  options : d.options = options
  ledger : d.Ledger
  batches : d.Batches
  turn : d.OneTask

/-- The label of a turn throws nothing. -/
theorem InTurns.calm {l : Label} (hl : d.InTurns l) : l.isRaise = false := by
  rcases hl with hl | ⟨hl, _⟩
  · cases l <;> first | rfl | cases hl
  · exact (Label.of_starts hl).2

include Z in
theorem turning_step {options : ResolvedOptions} (hsize : WholeOrOff options) {l : Label}
    (h : d.Turning options) (hl : d.InTurns l) : (d.step l).Turning options where
  options := (kept_turn (turn_step d l)).1.trans h.options
  ledger := ledger_turn (turn_step d l) h.ledger
  batches := batches_step l hl.calm h.batches
  turn := by
    rcases hl with hl | ⟨hl, hi⟩
    · exact (goes_step Z h.turn h.batches h.ledger (h.options ▸ hsize) hl).turn
    · exact oneTask_starts hl hi

include Z in
/-- A connection that is to close has closed when the run ends. -/
theorem closed_run {options : ResolvedOptions} (hsize : WholeOrOff options) (labels : List Label)
    (h : d.Turning options) (hd : d.Doomed) (hm : Meets step InTurns d labels)
    (hi : (run step d labels).idle = true) : (run step d labels).closed = true := by
  induction labels generalizing d with
  | nil => exact closed_of_doomed hd hi
  | cons l labels ih =>
    refine ih (turning_step Z hsize h hm.1) ?_ hm.2 hi
    rcases hm.1 with hl | ⟨_, hidle⟩
    · exact (goes_step Z h.turn h.batches h.ledger (h.options ▸ hsize) hl).doomed hd
    · exact .inl ((later_step d l).closed (closed_of_doomed hd hidle))

theorem balance_turns {options : ResolvedOptions} {l : Label} (h : d.Turning options)
    (hb : d.Balance) (hc : d.closed = false) (hl : d.InTurns l) : (d.step l).Balance := by
  refine balance_step l h.ledger hb hl.calm ?_
  unfold opensClosed
  split
  · split
    · rw [hc, Bool.false_and]
    · rfl
  · rfl

include Z in
theorem open_run {options : ResolvedOptions} (hsize : WholeOrOff options) (labels : List Label)
    (h : d.Turning options) (hm : Meets step InTurns d labels)
    (hi : (run step d labels).idle = true) (hc : (run step d labels).closed = false) :
    d.closed = false :=
  Bool.eq_false_iff.mpr fun hd =>
    Bool.eq_false_iff.mp hc (closed_run Z hsize labels h (.inl hd) hm hi)

include Z in
theorem balance_run {options : ResolvedOptions} (hsize : WholeOrOff options) (labels : List Label)
    (h : d.Turning options) (hb : d.Balance) (hm : Meets step InTurns d labels)
    (hi : (run step d labels).idle = true) (hc : (run step d labels).closed = false) :
    (run step d labels).Balance := by
  induction labels generalizing d with
  | nil => exact hb
  | cons l labels ih =>
    have hopen := open_run Z hsize (l :: labels) h hm hi hc
    exact ih (turning_step Z hsize h hm.1) (balance_turns h hb hopen hm.1) hm.2 hi hc

/-- **A run goes from turn to turn** as one without batches does. -/
theorem final_run {options : ResolvedOptions} (hsize : WholeOrOff options) (labels : List Label)
    (h : d.Turning options) (hb : d.Balance) (hm : Meets step InTurns d labels)
    (hi : (run step d labels).idle = true) (hc : (run step d labels).closed = false) :
    final Z (run step d labels) =
      run (turn Z) (final Z d) (labels.filter fun l => !l.inert) := by
  induction labels generalizing d with
  | nil => rfl
  | cons l labels ih =>
    have hopen := open_run Z hsize (l :: labels) h hm hi hc
    have hnext := turning_step Z hsize h hm.1
    have hrun := ih hnext (balance_turns h hb hopen hm.1) hm.2 hi hc
    rw [run_cons, hrun]
    rcases hm.1 with hl | ⟨hl, hidle⟩
    · rw [List.filter_cons_of_neg (by rw [hl]; exact Bool.false_ne_true)]
      rcases (goes_step Z h.turn h.batches h.ledger (h.options ▸ hsize) hl).same with hd | hs
      · exact absurd (closed_run Z hsize labels hnext hd hm.2 hi) (Bool.eq_false_iff.mp hc)
      · rw [hs]
    · obtain ⟨hinert, hraise⟩ := Label.of_starts hl
      rw [List.filter_cons_of_pos (by rw [hinert]; rfl), run_cons, turn, final_idle Z hidle hopen hb,
        final_of_bare Z (bare_step d hinert hraise)]

/-- A run from turn to turn that ends between two turns, with the connection open. -/
structure Rested (options : ResolvedOptions) (engine : E.State) (labels : List Label) : Prop where
  turns : Meets step InTurns (start options engine) labels
  idle : (run step (start options engine) labels).idle = true
  «open» : (run step (start options engine) labels).closed = false

theorem turning_start (options : ResolvedOptions) (engine : E.State) :
    (start options engine).Turning options where
  options := rfl
  ledger := ledger_start options engine
  batches := batches_start options engine
  turn := Nat.le_refl 1

theorem Rested.final {options : ResolvedOptions} {engine : E.State} {labels : List Label}
    (h : Rested options engine labels) (hwhole : WholeOrOff options) :
    (run step (start options engine) labels).bare =
      run (turn Z) (final Z (start options engine)) (labels.filter fun l => !l.inert) := by
  have hu := turning_start options engine
  have hb := balance_start options engine
  have hrun := final_run Z hwhole labels hu hb h.turns h.idle h.open
  have hbalance := balance_run Z hwhole labels hu hb h.turns h.idle h.open
  rw [← final_idle Z h.idle h.open hbalance, hrun]

/-- **The size of a batch is not seen.** Two connections that differ in the size of their
batches and are given the same from outside, turn by turn, are the same whenever both are
idle: what the caller was told, what was sent to the peer, what the engine was asked. -/
theorem size_unseen (Z : Empties Q) (options : ResolvedOptions) (size : F64) (engine : E.State)
    (hwhole : WholeOrOff options) (hsize : WholeOrOff { options with eventBatchSize := size })
    {labels labels' : List Label}
    (hsame : labels.filter (fun l => !l.inert) = labels'.filter fun l => !l.inert)
    (h : Rested options engine labels)
    (h' : Rested { options with eventBatchSize := size } engine labels') :
    (run step (start options engine) labels).bare =
      (run step (start { options with eventBatchSize := size } engine) labels').bare := by
  have hstart : final Z (start options engine) =
      final Z (start { options with eventBatchSize := size } engine) := final_of_bare Z rfl
  rw [h.final Z hwhole, h'.final Z hsize, hsame, hstart]

end Connection

end RtcTunnel.Driver
