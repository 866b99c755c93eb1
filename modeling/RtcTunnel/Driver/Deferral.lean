import RtcTunnel.Driver.Deadline
import RtcTunnel.Driver.Events
import RtcTunnel.Driver.Ledger

/-!
# Work that is put off

A datagram may wait in `inbound` for its flush, and a pump may be put off to a flush of its
own. Both flushes are announced by a flag that the flush clears. What is behind neither
flag has reached the engine, and what the engine queued has left it again, as long as the
driver and the engine mean the same by the size of a batch.
-/

namespace RtcTunnel.Driver

open RtcTunnel.Core
open RtcTunnel.Base.Run

set_option autoImplicit false

/-- **What is assumed of the engine**: it has a queue of events, which only an input, a tick,
an accepted send and a close fill and only `pollEvent` and `drainEvents` empty. A batch of a
whole size below 2³² has as many events, unless the queue is shorter. -/
structure EventQueue (E : EngineApi) where
  events : E.State → List EngineEvent
  real : ∀ s, .none ∉ events s
  pollNil : ∀ s, events s = [] →
    (E.pollEvent s).1 = .none ∧ events (E.pollEvent s).2 = []
  pollCons : ∀ s e es, events s = e :: es →
    (E.pollEvent s).1 = e ∧ events (E.pollEvent s).2 = es
  drainEvents : ∀ drain, E.drainEvents = some drain → ∀ s size, size.isPositive = true →
    size.lt (.ofInt 4294967296) = true → size.isWhole = true →
      (drain s size).1 = (events s).take size.whole ∧
        events (drain s size).2 = (events s).drop size.whole
  nextDeadline : ∀ s, events (E.nextDeadline s).2 = events s
  send : ∀ s data, (E.send s data).1 ≠ sendAccepted → events (E.send s data).2 = events s
  negotiatedCipherSuite : ∀ f, E.negotiatedCipherSuite = some f →
    ∀ s, events (f s).2 = events s
  bufferedBytes : ∀ f, E.bufferedBytes = some f → ∀ s, events (f s).2 = events s
  droppedDatagrams : ∀ f, E.droppedDatagrams = some f → ∀ s, events (f s).2 = events s

/-- A task of the loop over batches. -/
def Task.batches : Task → Bool
  | .drainLoop => true
  | .apply _ (.batch _) => true
  | _ => false

/-- The task ends with the engine drained, or the connection closed. -/
def Task.drains (E : EngineApi) : Task → Bool
  | .pump => true
  | .drainLoop => E.drainEvents.isSome
  | .pollLoop => true
  | .apply _ .poll => true
  | .apply _ (.batch short) => !short && E.drainEvents.isSome
  | .finish _ => true
  | _ => false

namespace Connection

variable {E : EngineApi} {d r : Connection E}

/-- No code of the driver is running, none is scheduled, and the connection is not closed. -/
structure Quiet (d : Connection E) : Prop where
  «open» : d.closed = false
  idle : d.idle = true
  inbound : d.inboundScheduled = false
  outbound : d.outboundScheduled = false

/-- Of these datagrams none is lost, nor is an event of the engine. -/
structure CaughtUp (Q : EventQueue E) (d : Connection E) (received : List Bytes) : Prop where
  fed : d.closed = false → d.fed ++ d.inbound = received
  inbound : d.Quiet → d.inbound = []
  events : d.Quiet → Q.events d.engine = []

/-- What is assumed of the size of a batch: without one, events are taken one by one. -/
def WholeOrOff (options : ResolvedOptions) : Prop :=
  options.eventBatchSize.isPositive = true →
    options.eventBatchSize.lt (.ofInt 4294967296) = true ∧ options.eventBatchSize.isWhole = true

/-- The loop over batches only runs where events are taken in batches. -/
def Batches (d : Connection E) : Prop := ∀ t ∈ d.stack, t.batches = true → d.useBatch = true

/-- The datagrams received since the handlers were installed. -/
def received (d : Connection E) (labels : List Label) : List Bytes := outputs step receives d labels

theorem fed_record (d : Connection E) (e : Effect) :
    (d.record e).fed = d.fed ++ e.feeds.toList := by
  rw [fed, record, List.filterMap_append, fed]
  cases h : e.feeds <;> simp [h]

theorem incoming_call (d : Connection E) {c : EngineCall} (hc : (Effect.engine c).feeds = none)
    (engine : E.State) : (d.call c engine).incoming = d.incoming := by
  have h := fed_record { d with engine := engine } (.engine c)
  rw [hc] at h
  rw [incoming, call, h]
  exact congrArg (fun fed => Incoming.mk d.inbound d.inboundScheduled fed) (List.append_nil _)

theorem incoming_record (d : Connection E) {e : Effect} (he : e.feeds = none) :
    (d.record e).incoming = d.incoming := by
  rw [incoming, fed_record, he]
  exact congrArg (fun fed => Incoming.mk d.inbound d.inboundScheduled fed) (List.append_nil _)

theorem incoming_flushFrom (queue : List Packet) (d : Connection E) :
    (flushFrom queue d).incoming = d.incoming := by
  induction queue generalizing d with
  | nil => rfl
  | cons next rest ih =>
    have hc := incoming_call d (c := .send next (E.send d.engine next.data).1) rfl
      (E.send d.engine next.data).2
    rw [flushFrom]
    split
    · exact hc
    · exact (ih _).trans hc

theorem incoming_finish (d : Connection E) (reason : Text) :
    (d.finish reason).incoming = d.incoming := by
  have ha := (aside_cancelArmed { d with closed := true, closeReason := some reason }).incoming
  unfold finish
  split
  · rfl
  · exact (incoming_record _ rfl).trans ha

theorem incoming_schedulePump (d : Connection E) : d.schedulePump.incoming = d.incoming := by
  unfold schedulePump
  split <;> rfl

theorem incoming_handleSend (d : Connection E) (data : Bytes) :
    (d.handleSend data).incoming = d.incoming := by
  have hc := incoming_call { d with sends := d.sends + 1 }
    (c := .send ⟨d.sends, data⟩ (E.send d.engine data).1) rfl (E.send d.engine data).2
  have answered : ∀ {r : Connection E} {outcome : SendOutcome}, r.incoming = d.incoming →
      (r.record (.sent ⟨d.sends, data⟩ outcome)).incoming = d.incoming :=
    fun h => (incoming_record _ rfl).trans h
  unfold handleSend
  dsimp only
  split
  · exact answered rfl
  · split
    · exact (incoming_schedulePump _).trans (answered hc)
    · split
      · exact answered hc
      · split
        · split
          · split
            · exact answered hc
            · exact answered hc
          · exact answered hc
        · exact answered hc

/-- What the flush of the inbound buffer feeds is the buffer, in its order. -/
theorem feed_spec (d : Connection E) (now : F64) :
    (d.feed now).fed = d.fed ++ d.inbound ∧ (d.feed now).inbound = [] ∧
      (d.feed now).inboundScheduled = d.inboundScheduled := by
  have hfold : ∀ (f : Connection E → Bytes → Connection E),
      (∀ c data, (f c data).fed = c.fed ++ [data] ∧
        (f c data).inboundScheduled = c.inboundScheduled) →
      ∀ (datagrams : List Bytes) (c : Connection E),
        (datagrams.foldl f c).fed = c.fed ++ datagrams ∧
          (datagrams.foldl f c).inboundScheduled = c.inboundScheduled := by
    intro f hf datagrams
    induction datagrams with
    | nil => exact fun c => ⟨(List.append_nil _).symm, rfl⟩
    | cons data datagrams ih =>
      intro c
      obtain ⟨h, hs⟩ := ih (f c data)
      obtain ⟨hd, hds⟩ := hf c data
      rw [List.foldl_cons, h, hs, hd, hds, List.append_assoc]
      exact ⟨rfl, rfl⟩
  unfold feed
  split
  · rename_i inputDeferred finishInputBatch _ _
    obtain ⟨h, hs⟩ := hfold (fun d data => d.call (.inputDeferred data)
      (inputDeferred d.engine now data)) (fun c data => ⟨fed_record { c with engine := _ } _, rfl⟩)
      d.inbound d
    refine ⟨?_, rfl, hs⟩
    refine (congrArg Incoming.fed (incoming_call _ rfl _)).trans ?_
    exact h
  · obtain ⟨h, hs⟩ := hfold (fun d data => d.call (.input data) (E.input d.engine now data))
      (fun c data => ⟨fed_record { c with engine := _ } _, rfl⟩) d.inbound d
    exact ⟨h, rfl, hs⟩

/-- A datagram waits behind a scheduled flush, and only where input is coalesced. -/
structure Buffers (d : Connection E) : Prop where
  scheduled : d.closed = false → d.inbound ≠ [] → d.inboundScheduled = true
  direct : d.options.inputBatch = .off → d.inbound = []

theorem buffers_of_incoming (h : d.Buffers) (hr : r.incoming = d.incoming)
    (ho : r.options = d.options) (hc : r.closed = false → d.closed = false) : r.Buffers := by
  have hi : r.inbound = d.inbound := congrArg Incoming.inbound hr
  have hs : r.inboundScheduled = d.inboundScheduled := congrArg Incoming.inboundScheduled hr
  refine ⟨?_, ?_⟩
  · rw [hi, hs]
    exact fun hopen => h.scheduled (hc hopen)
  · rw [hi, ho]
    exact h.direct

theorem incoming_flushQueue (m : Connection E) (tasks : List Task) (hm : d.Aside m) :
    (m.flushQueue.push tasks).incoming = d.incoming :=
  (incoming_flushFrom m.queue m).trans hm.incoming

theorem buffers_onMessage (now : F64) (data : Bytes) (h : d.Buffers) :
    (d.onMessage now data).Buffers := by
  unfold onMessage
  split
  · exact h
  · split
    · exact ⟨h.scheduled, h.direct⟩
    · rename_i hoff
      exact ⟨fun _ _ => rfl, fun ho => absurd ho hoff⟩

theorem buffers_flushInbound (now : F64) (h : d.Buffers) : (d.flushInbound now).Buffers := by
  obtain ⟨_, hi, _⟩ := feed_spec { d with inboundScheduled := false } now
  unfold flushInbound
  dsimp only
  split
  · rename_i hnone
    refine ⟨fun hc hne => ?_, h.direct⟩
    have hc : d.closed = false := hc
    have hne : d.inbound ≠ [] := hne
    simp [hc, hne] at hnone
  · exact ⟨fun _ hne => absurd hi hne, fun _ => hi⟩

theorem buffers_posting {l : Label} (hp : d.Posting l r) (ho : r.options = d.options)
    (hlater : r.closed = false → d.closed = false) (h : d.Buffers) : r.Buffers := by
  cases hp with
  | aside _ _ ha hg hr => exact buffers_of_incoming h ha.incoming ho hlater
  | flush now m tasks hm hc =>
    exact buffers_of_incoming h (incoming_flushQueue m tasks hm) ho hlater
  | finish now reason m hm hc =>
    exact buffers_of_incoming h ((incoming_finish m reason).trans hm.incoming) ho hlater
  | send data hs => exact buffers_of_incoming h (incoming_handleSend d data) ho hlater
  | receive now data hi => exact buffers_onMessage now data h
  | flushInbound now hi hs => exact buffers_flushInbound now h

/-- Datagrams that are fed or wait to be. -/
def arrived (d : Connection E) : List Bytes := d.fed ++ d.inbound

theorem arrived_of_incoming (hr : r.incoming = d.incoming) : r.arrived = d.arrived := by
  have hi : r.inbound = d.inbound := congrArg Incoming.inbound hr
  have hf : r.fed = d.fed := congrArg Incoming.fed hr
  rw [arrived, arrived, hi, hf]

theorem arrived_onMessage (now : F64) (data : Bytes) (h : d.Buffers) (hc : d.closed = false) :
    (d.onMessage now data).arrived = d.arrived ++ [data] := by
  unfold onMessage
  rw [if_neg (by simp [hc])]
  split
  · rename_i hoff
    have hf := fed_record { d with engine := E.input d.engine now data } (.engine (.input data))
    have hi : d.inbound = [] := h.direct hoff
    show ({ d with engine := E.input d.engine now data }.record (.engine (.input data))).fed ++
      d.inbound = d.fed ++ d.inbound ++ [data]
    rw [hf, hi, List.append_nil, List.append_nil]
    rfl
  · show d.fed ++ (d.inbound ++ [data]) = d.fed ++ d.inbound ++ [data]
    rw [List.append_assoc]

theorem arrived_flushInbound (now : F64) : (d.flushInbound now).arrived = d.arrived := by
  obtain ⟨hf, hi, _⟩ := feed_spec { d with inboundScheduled := false } now
  unfold flushInbound
  dsimp only
  split
  · rfl
  · show (feed { d with inboundScheduled := false } now).fed ++
      (feed { d with inboundScheduled := false } now).inbound = d.arrived
    rw [hf, hi, List.append_nil]
    rfl

/-- Every datagram that comes before the close is fed or waits. -/
theorem arrived_posting {l : Label} (hp : d.Posting l r) (h : d.Buffers) (hc : d.closed = false) :
    r.arrived = d.arrived ++ d.receives l := by
  cases hp with
  | aside _ _ ha hg hr => rw [arrived_of_incoming ha.incoming, hr, List.append_nil]
  | flush now m tasks hm hc =>
    rw [arrived_of_incoming (incoming_flushQueue m tasks hm)]
    exact (List.append_nil _).symm
  | finish now reason m hm hc =>
    rw [arrived_of_incoming ((incoming_finish m reason).trans hm.incoming)]
    exact (List.append_nil _).symm
  | send data hs =>
    rw [arrived_of_incoming (incoming_handleSend d data)]
    exact (List.append_nil _).symm
  | receive now data hi =>
    rw [arrived_onMessage now data h hc, receives, hi]
    rfl
  | flushInbound now hi hs =>
    rw [arrived_flushInbound]
    exact (List.append_nil _).symm

/-- Until the close, the engine is drained, or code that drains it is running or scheduled. -/
def Drained (Q : EventQueue E) (d : Connection E) : Prop :=
  d.closed = true ∨ d.outboundScheduled = true ∨ (∃ t ∈ d.stack, t.drains E = true) ∨
    Q.events d.engine = []

variable {Q : EventQueue E}

theorem drained_push {m : Connection E} {t : Task} (ht : t.drains E = true) :
    (m.push [t]).Drained Q := .inr (.inr (.inl ⟨t, List.mem_cons_self .., ht⟩))

/-- The task on top makes place for others. -/
theorem Drained.replace (h : d.Drained Q) {task : Task} {rest : List Task}
    (hs : d.stack = task :: rest) (hc : r.closed = d.closed)
    (ho : r.outboundScheduled = d.outboundScheduled) (he : r.engine = d.engine)
    (hr : ∀ t ∈ rest, t ∈ r.stack)
    (ht : task.drains E = true → ∃ t ∈ r.stack, t.drains E = true) : r.Drained Q := by
  rcases h with h | h | ⟨t, hm, h⟩ | h
  · exact .inl (hc.trans h)
  · exact .inr (.inl (ho.trans h))
  · rw [hs] at hm
    rcases List.mem_cons.mp hm with rfl | hm
    · exact .inr (.inr (.inl (ht h)))
    · exact .inr (.inr (.inl ⟨t, hr t hm, h⟩))
  · exact .inr (.inr (.inr (by rw [he, h])))

/-- Code that leaves the engine's events and the tasks alone. -/
theorem Drained.keep (h : d.Drained Q) (hc : r.closed = d.closed)
    (ho : r.outboundScheduled = d.outboundScheduled) (hs : ∀ t ∈ d.stack, t ∈ r.stack)
    (he : Q.events r.engine = Q.events d.engine) : r.Drained Q := by
  rcases h with h | h | ⟨t, hm, h⟩ | h
  · exact .inl (hc.trans h)
  · exact .inr (.inl (ho.trans h))
  · exact .inr (.inr (.inl ⟨t, hs t hm, h⟩))
  · exact .inr (.inr (.inr (he.trans h)))

theorem drains_pumpLoop (d : Connection E) : d.pumpLoop.drains E = true := by
  unfold pumpLoop useBatch
  split
  · rename_i h
    exact (Bool.and_eq_true_iff.mp h).2
  · rfl

/-- The events behind the next one stay in hand, or a `Closed` gives them up. -/
theorem applyEvent_stack (d : Connection E) (event : EngineEvent) (events : List EngineEvent)
    (source : Source) :
    (∀ t ∈ d.stack, t ∈ (d.applyEvent event (.apply events source)).stack) ∧
      ((Task.apply (event :: events) source).drains E = true →
        ∃ t ∈ (d.applyEvent event (.apply events source)).stack, t.drains E = true) := by
  have behind : ∀ (above : List Task) {r : Connection E}, r.stack = above ++ d.stack →
      (.apply events source ∈ above ∨ ∃ reason, .finish reason ∈ above) →
      (∀ t ∈ d.stack, t ∈ r.stack) ∧
        ((Task.apply (event :: events) source).drains E = true →
          ∃ t ∈ r.stack, t.drains E = true) := by
    intro above r hr ha
    rw [hr]
    refine ⟨fun t ht => List.mem_append_right _ ht, fun hd => ?_⟩
    rcases ha with ha | ⟨reason, ha⟩
    · refine ⟨_, List.mem_append_left _ ha, ?_⟩
      cases source <;> exact hd
    · exact ⟨_, List.mem_append_left _ ha, rfl⟩
  cases event with
  | none => exact behind [.apply events source] rfl (.inl (by simp))
  | datagram data => exact behind [.callback, .apply events source] rfl (.inl (by simp))
  | message data => exact behind [.callback, .apply events source] rfl (.inl (by simp))
  | closed reason =>
    exact behind [.finish (Driver.closeReason reason)] rfl (.inr ⟨Driver.closeReason reason, by simp⟩)
  | opened =>
    unfold applyEvent
    dsimp only
    split
    · exact behind [.apply events source] rfl (.inl (by simp))
    · exact behind [.callback, .settleOpen, .apply events source] rfl (.inl (by simp))

/-- An event puts the events behind it on top, and tasks that are no loop. -/
theorem applyEvent_above (d : Connection E) (event : EngineEvent) (next : Task) :
    ∃ above : List Task, (∀ t ∈ above, t = next ∨ t.batches = false) ∧
      (d.applyEvent event next).stack = above ++ d.stack := by
  cases event with
  | none => exact ⟨[next], by simp, rfl⟩
  | datagram data => exact ⟨[.callback, next], by simp [Task.batches], rfl⟩
  | message data => exact ⟨[.callback, next], by simp [Task.batches], rfl⟩
  | closed reason => exact ⟨[.finish (Driver.closeReason reason)], by simp [Task.batches], rfl⟩
  | opened =>
    unfold applyEvent
    dsimp only
    split
    · exact ⟨[next], by simp, rfl⟩
    · exact ⟨[.callback, .settleOpen, next], by simp [Task.batches], rfl⟩

theorem drains_loop {source : Source} {loop : Task} (events : List EngineEvent)
    (hl : source.loop = some loop) (h : (Task.apply events source).drains E = true) :
    loop.drains E = true := by
  cases source with
  | poll => cases hl; rfl
  | batch short =>
    cases short with
    | true => cases hl
    | false => cases hl; exact h

theorem events_ask {α : Type} {method : Option (E.State → α × E.State)} {c : EngineCall}
    (hm : ∀ f, method = some f → ∀ s, Q.events (f s).2 = Q.events s) (d : Connection E) :
    Q.events (d.ask c method).2.engine = Q.events d.engine := by
  cases method with
  | none => rfl
  | some f => exact hm f rfl _

theorem outboundScheduled_ask {α : Type} (d : Connection E) (c : EngineCall)
    (method : Option (E.State → α × E.State)) :
    (d.ask c method).2.outboundScheduled = d.outboundScheduled := by
  cases method <;> rfl

theorem outboundScheduled_handleStats (d : Connection E) :
    d.handleStats.outboundScheduled = d.outboundScheduled :=
  (outboundScheduled_ask _ _ _).trans
    ((outboundScheduled_ask _ _ _).trans (outboundScheduled_ask d _ _))

theorem events_handleStats (Q : EventQueue E) (d : Connection E) :
    Q.events d.handleStats.engine = Q.events d.engine :=
  (events_ask Q.droppedDatagrams _).trans
    ((events_ask Q.bufferedBytes _).trans (events_ask Q.negotiatedCipherSuite d))

theorem drained_handleSend (data : Bytes) (h : d.Drained Q) : (d.handleSend data).Drained Q := by
  have hc := closed_handleSend d data
  obtain ⟨m, hm, hr⟩ := inside_handleSend d data
  rcases hr with hr | hr
  · have hs : ∀ t ∈ d.stack, t ∈ (d.handleSend data).stack := by
      rw [hr, hm.stack]
      exact fun t ht => ht
    rcases handleSend_waking d data with hw | hw | hw | ⟨_, _, hne, hw⟩
    · refine h.keep hc (congrArg Waking.outboundScheduled hw) hs ?_
      rw [show (d.handleSend data).engine = d.engine from congrArg Waking.engine hw]
    · exact .inr (.inr (.inl ⟨.pump, List.mem_of_mem_head? hw, rfl⟩))
    · exact .inr (.inl hw)
    · refine h.keep hc (congrArg Waking.outboundScheduled hw) hs ?_
      rw [show (d.handleSend data).engine = _ from congrArg Waking.engine hw]
      exact Q.send d.engine data hne
  · rw [hr]
    exact drained_push rfl

/-- The batch that ends the loop leaves nothing behind. -/
theorem drained_drain {size : F64} (hp : size.isPositive = true)
    (hl : size.lt (.ofInt 4294967296) = true) (hw : size.isWhole = true)
    {drain : E.State → F64 → List EngineEvent × E.State} (hd : E.drainEvents = some drain)
    {s : E.State} (hshort : (F64.ofInt (drain s size).1.length).lt size = true) :
    Q.events (drain s size).2 = [] := by
  obtain ⟨ht, hrest⟩ := Q.drainEvents drain hd s size hp hl hw
  rw [ht, F64.lt_of_isWhole hp hw, List.length_take] at hshort
  rw [hrest, List.drop_eq_nil_iff]
  omega

/-- The size of the batch that the loop asks for. -/
theorem Batches.size (h : d.Batches) (hsize : WholeOrOff d.options) {rest : List Task}
    (hs : d.stack = .drainLoop :: rest) : d.options.eventBatchSize.isPositive = true ∧
      d.options.eventBatchSize.lt (.ofInt 4294967296) = true ∧
      d.options.eventBatchSize.isWhole = true := by
  have hp := (Bool.and_eq_true_iff.mp (h .drainLoop (hs ▸ List.mem_cons_self ..) rfl)).1
  exact ⟨hp, hsize hp⟩

theorem drained_step (hsize : WholeOrOff d.options) (hb : d.Batches) (hled : d.Ledger) {l : Label}
    (hraise : l.isRaise = false) (h : d.Drained Q) : (d.step l).Drained Q := by
  have hact := action_step d l
  generalize d.step l = r at hact ⊢
  cases hact with
  | nothing => exact h
  | send data ho hh => exact drained_handleSend data h
  | close => exact .inr (.inr (.inl ⟨.pump, List.mem_cons_self .., rfl⟩))
  | stats ho hh =>
    have hs := inside_handleStats d
    exact h.keep hs.closed (outboundScheduled_handleStats d) (fun t ht => hs.stack ▸ ht)
      (events_handleStats Q d)
  | error message ho => exact drained_push rfl
  | feed => exact drained_push rfl
  | wait _ m hi hm hw =>
    exact h.keep hm.closed (congrArg Waking.outboundScheduled hw) (fun t ht => hm.stack ▸ ht)
      (congrArg (fun w => Q.events w.engine) hw)
  | resume hi => exact h.keep rfl rfl (fun _ => id) rfl
  | ret rest hs => exact h.replace hs rfl rfl rfl (fun _ => id) nofun
  | raise => cases hraise
  | idles now task rest hs ht =>
    cases ht with
    | pump hc => exact .inl hc
    | drainLoop hn =>
      rcases hn with hc | hn
      · exact .inl hc
      · refine h.replace hs rfl rfl rfl (fun _ => id) fun ht => ?_
        rw [Task.drains, hn] at ht
        cases ht
    | finish reason hc => exact .inl hc
    | apply => exact h.replace hs rfl rfl rfl (fun _ => id) nofun
  | pump now rest hs hc => exact drained_push (drains_pumpLoop d)
  | drain now events engine short rest hs hc hd hshort =>
    obtain ⟨drain, hd, hr⟩ := hd
    obtain ⟨hp, hl, hw⟩ := hb.size hsize hs
    cases short with
    | false => exact drained_push (t := .apply events (.batch false)) (by simp [Task.drains, hd])
    | true =>
      have hr₁ : (drain d.engine d.options.eventBatchSize).1 = events := congrArg Prod.fst hr
      have hr₂ : (drain d.engine d.options.eventBatchSize).2 = engine := congrArg Prod.snd hr
      have he := drained_drain (Q := Q) hp hl hw hd (s := d.engine) (by rw [hr₁, ← hshort])
      exact .inr (.inr (.inr (hr₂ ▸ he)))
  | poll now event engine rest hs hp' he => exact drained_push (t := .apply [event] .poll) rfl
  | pollNone now engine rest hs hp' =>
    refine .inr (.inr (.inr ?_))
    cases hev : Q.events d.engine with
    | nil =>
      have hn := (Q.pollNil d.engine hev).2
      rw [hp'] at hn
      exact hn
    | cons e es =>
      have hn := (Q.pollCons d.engine e es hev).1
      rw [hp'] at hn
      refine absurd ?_ (Q.real d.engine)
      rw [hev, ← hn]
      exact List.mem_cons_self ..
  | apply now event events source rest hs =>
    obtain ⟨hw, hc⟩ := applyEvent_waking { d with stack := rest } event (.apply events source)
    obtain ⟨hrest, hdrains⟩ := applyEvent_stack { d with stack := rest } event events source
    exact h.replace hs hc (congrArg Waking.outboundScheduled hw) (congrArg Waking.engine hw) hrest
      hdrains
  | loop now source loop rest hs hl =>
    refine h.replace hs rfl rfl rfl (fun t ht => List.mem_cons_of_mem _ ht) fun ht => ?_
    exact ⟨loop, List.mem_cons_self .., drains_loop [] hl ht⟩
  | settleOpen now rest hs =>
    have hs' := settle_status (d := { d with stack := rest }) .resolved
    have hw := settle_waking { d with stack := rest } .resolved
    refine h.replace hs (congrArg Status.closed hs'.1) (congrArg Waking.outboundScheduled hw)
      (congrArg Waking.engine hw) (fun t ht => ?_) nofun
    rw [show (settleOpen { d with stack := rest }).stack = rest from congrArg Status.stack hs'.1]
    exact ht
  | finish now reason rest hs hc =>
    exact .inl (congrArg Status.closed (finish_status (d := { d with stack := rest }) reason hc).1)
  | finishRest now reason rest hs =>
    exact .inl ((finishRest_fields d rest reason).1.trans (hled.closing hs))
  | executorRest now rest hs =>
    have hs' := (executorRest_status (d := { d with stack := rest })).1
    have hw := executorRest_waking { d with stack := rest }
    refine h.replace hs (congrArg Status.closed hs') (congrArg Waking.outboundScheduled hw)
      (congrArg Waking.engine hw) (fun t ht => ?_) nofun
    rw [show (executorRest { d with stack := rest }).stack = rest from congrArg Status.stack hs']
    exact ht

/-- Both stores, with the constants of the connection. -/
structure Tidy (Q : EventQueue E) (options : ResolvedOptions) (d : Connection E) : Prop where
  options : d.options = options
  ledger : d.Ledger
  buffers : d.Buffers
  batches : d.Batches
  drained : d.Drained Q

variable {options : ResolvedOptions}

theorem open_of_step (l : Label) (hc : (d.step l).closed = false) : d.closed = false :=
  Bool.eq_false_iff.mpr fun ho => Bool.eq_false_iff.mp hc ((later_step d l).closed ho)

theorem buffers_step (l : Label) (h : d.Buffers) : (d.step l).Buffers :=
  buffers_posting (posting_step d l) (kept_turn (turn_step d l)).1 (open_of_step l) h

theorem batches_step (l : Label) (hraise : l.isRaise = false) (h : d.Batches) :
    (d.step l).Batches := by
  have hoptions := (kept_turn (turn_step d l)).1
  have hact := action_step d l
  generalize d.step l = r at hact hoptions ⊢
  have huse : r.useBatch = d.useBatch := by rw [useBatch, useBatch, hoptions]
  have batched : ∀ above rest : List Task, (∀ t ∈ above, t.batches = true → d.useBatch = true) →
      r.stack = above ++ rest → (∀ t ∈ rest, t ∈ d.stack) → r.Batches := by
    intro above rest ha hr hs t ht hb
    rw [huse]
    rw [hr] at ht
    exact (List.mem_append.mp ht).elim (ha t · hb) fun ht => h t (hs t ht) hb
  have kept : ∀ above : List Task, (∀ t ∈ above, t.batches = false) → r.stack = above ++ d.stack →
      r.Batches := fun above ha hr =>
    batched above d.stack (fun t ht hb => absurd ((ha t ht).symm.trans hb) Bool.false_ne_true) hr
      fun _ ht => ht
  have top : ∀ {task : Task} {rest : List Task}, d.stack = task :: rest → ∀ above : List Task,
      (∀ t ∈ above, t.batches = true → d.useBatch = true) → r.stack = above ++ rest → r.Batches :=
    fun {_ rest} hs above ha hr => batched above rest ha hr fun _ ht => hs ▸ List.mem_cons_of_mem _ ht
  have same : r.stack = d.stack → r.Batches :=
    kept [] fun t ht => absurd ht List.not_mem_nil
  have popped : ∀ {task : Task} {rest : List Task}, d.stack = task :: rest → r.stack = rest →
      r.Batches := fun hs => top hs [] fun t ht => absurd ht List.not_mem_nil
  have drains : ∀ {rest : List Task}, d.stack = .drainLoop :: rest → d.useBatch = true :=
    fun hs => h .drainLoop (hs ▸ List.mem_cons_self ..) rfl
  cases hact with
  | nothing => exact h
  | send data ho hh =>
    obtain ⟨m, hm, hr | hr⟩ := inside_handleSend d data
    · exact same (hr ▸ hm.stack)
    · exact kept [.pump] (by simp [Task.batches]) (by rw [hr, push, hm.stack])
  | close => exact kept [.pump, .finish "local".toList] (by simp [Task.batches]) rfl
  | stats => exact same (inside_handleStats d).stack
  | error message ho => exact kept [.finish message] (by simp [Task.batches]) rfl
  | feed _ m hi hm hf =>
    exact kept [.pump] (by simp [Task.batches]) (congrArg (Task.pump :: ·) hm.stack)
  | wait _ m hi hm hw => exact same hm.stack
  | resume => exact h
  | ret rest hs => exact popped hs rfl
  | raise => cases hraise
  | idles now task rest hs ht => exact popped hs rfl
  | pump now rest hs hc =>
    have hm := inside_pumpHead { d with stack := rest } now
    refine top hs [d.pumpLoop] (List.forall_mem_singleton.mpr fun hb => ?_)
      (congrArg (d.pumpLoop :: ·) hm.stack)
    unfold pumpLoop at hb
    split at hb
    · assumption
    · cases hb
  | drain now events engine short rest hs =>
    exact top hs [_] (List.forall_mem_singleton.mpr fun _ => drains hs) rfl
  | poll now event engine rest hs =>
    exact top hs [.apply [event] .poll] (by simp [Task.batches]) rfl
  | pollNone now engine rest hs => exact popped hs rfl
  | apply now event events source rest hs =>
    have hheld : (Task.apply events source).batches = true → d.useBatch = true := by
      intro hb
      refine h _ (hs ▸ List.mem_cons_self ..) ?_
      cases source <;> exact hb
    obtain ⟨above, ha, hr⟩ := applyEvent_above { d with stack := rest } event (.apply events source)
    refine top hs above (fun t ht hb => ?_) hr
    rcases ha t ht with rfl | ht
    · exact hheld hb
    · exact absurd (ht.symm.trans hb) Bool.false_ne_true
  | loop now source loop rest hs hl =>
    refine top hs [loop] (List.forall_mem_singleton.mpr fun hb => ?_) rfl
    refine h _ (hs ▸ List.mem_cons_self ..) ?_
    cases source with
    | batch short => rfl
    | poll =>
      cases hl
      cases hb
  | settleOpen now rest hs =>
    exact popped hs
      (congrArg Status.stack (settle_status (d := { d with stack := rest }) .resolved).1)
  | finish now reason rest hs hc =>
    refine top hs [.callback, .finishRest reason] (by simp [Task.batches]) ?_
    exact congrArg Status.stack (finish_status (d := { d with stack := rest }) reason hc).1
  | finishRest now reason rest hs =>
    have hst := congrArg Status.stack (finishRest_status (d := { d with stack := rest }) reason).1
    by_cases ho : ({ d with stack := rest } : Connection E).opened = true
    · rw [if_pos ho] at hst
      exact top hs [.callback] (by simp [Task.batches]) hst
    · rw [if_neg ho] at hst
      exact popped hs hst
  | executorRest now rest hs =>
    exact popped hs
      (congrArg Status.stack (executorRest_status (d := { d with stack := rest })).1)

theorem batches_start (options : ResolvedOptions) (engine : E.State) :
    (start options engine).Batches := by
  simp [Batches, start, Task.batches]

theorem tidy_step (hsize : WholeOrOff options) {l : Label} (hraise : l.isRaise = false)
    (h : d.Tidy Q options) : (d.step l).Tidy Q options where
  options := (kept_turn (turn_step d l)).1.trans h.options
  ledger := ledger_turn (turn_step d l) h.ledger
  buffers := buffers_step l h.buffers
  batches := batches_step l hraise h.batches
  drained := drained_step (h.options ▸ hsize) h.batches h.ledger hraise h.drained

theorem tidy_start (Q : EventQueue E) (options : ResolvedOptions) (engine : E.State) :
    (start options engine).Tidy Q options where
  options := rfl
  ledger := ledger_start options engine
  buffers := ⟨fun _ h => absurd rfl h, fun _ => rfl⟩
  batches := batches_start options engine
  drained := .inr (.inr (.inl ⟨.pump, List.mem_cons_self .., rfl⟩))

theorem Tidy.events (h : d.Tidy Q options) (hq : d.Quiet) : Q.events d.engine = [] := by
  rcases h.drained with h | h | ⟨t, hm, _⟩ | h
  · exact absurd (hq.open.symm.trans h) nofun
  · exact absurd (hq.outbound.symm.trans h) nofun
  · rw [List.isEmpty_iff.mp hq.idle] at hm
    cases hm
  · exact h

theorem Buffers.inbound (h : d.Buffers) (hq : d.Quiet) : d.inbound = [] := by
  by_contra hne
  exact absurd (hq.inbound.symm.trans (h.scheduled hq.open hne)) nofun

theorem tidy_run (hsize : WholeOrOff options) (Q : EventQueue E) (engine : E.State)
    (labels : List Label) (hraise : ∀ l ∈ labels, l.isRaise = false) :
    (run step (start options engine) labels).Tidy Q options :=
  invariant_of_meets (I := Tidy Q options) (C := fun _ l => Label.isRaise l = false)
    (fun _ _ h hr => tidy_step hsize hr h) (tidy_start Q options engine)
    (meets_iff_forall.mpr hraise)

/-- With a whole batch size nothing is lost. -/
theorem caughtUp_run (hsize : WholeOrOff options) (Q : EventQueue E) (engine : E.State)
    (labels : List Label) (hraise : ∀ l ∈ labels, l.isRaise = false) :
    (run step (start options engine) labels).CaughtUp Q (received (start options engine) labels) := by
  have h := tidy_run hsize Q engine labels hraise
  refine ⟨fun hc => ?_, h.buffers.inbound, h.events⟩
  exact history_outputs (I := Buffers) (J := fun d => d.closed = false) arrived
    (fun d l h => buffers_step l h) (fun d l => open_of_step l)
    (fun d l hb hc => arrived_posting (posting_step d l) hb (open_of_step l hc))
    (tidy_start Q options engine).buffers hc

end Connection

namespace Script

/-- An engine that answers each byte of a datagram with a datagram. -/
def burst : EngineApi where
  State := List Bytes
  input s _ data := s ++ data.map fun b => [b]
  inputDeferred := none
  finishInputBatch := none
  tick s _ := s
  send s _ := (sendNotOpen, s)
  nextDeadline s := (none, s)
  pollEvent s := ((s.head?.map .datagram).getD .none, s.tail)
  drainEvents := some fun s size => ((s.take size.whole).map .datagram, s.drop size.whole)
  close s := s
  dispose s := s
  bufferedBytes := none
  droppedDatagrams := none
  negotiatedCipherSuite := none

def bursts : EventQueue burst where
  events (s : List Bytes) := s.map .datagram
  real s h := by
    obtain ⟨_, _, h⟩ := List.mem_map.mp h
    cases h
  pollNil (s : List Bytes) h := by
    rw [List.map_eq_nil_iff.mp h]
    exact ⟨rfl, rfl⟩
  pollCons (s : List Bytes) e es h := by
    cases s with
    | nil => cases h
    | cons b s =>
      obtain ⟨rfl, rfl⟩ := List.cons.inj h
      exact ⟨rfl, rfl⟩
  drainEvents drain hd (s : List Bytes) size _ _ _ := by
    cases hd
    exact ⟨List.map_take, List.map_drop⟩
  nextDeadline _ := rfl
  send _ _ _ := rfl
  negotiatedCipherSuite := nofun
  bufferedBytes := nofun
  droppedDatagrams := nofun

end Script

namespace Connection

open Script (burst)

/-- A connection over the engine that bursts, with nothing stored and its channel not open. -/
structure At (options : ResolvedOptions) (events : List Bytes) (stack : List Task)
    (d : Connection burst) : Prop where
  options : d.options = options
  closed : d.closed = false
  opened : d.opened = false
  engine : d.engine = events
  queue : d.queue = []
  inbound : d.inbound = []
  inboundScheduled : d.inboundScheduled = false
  outboundScheduled : d.outboundScheduled = false
  stack : d.stack = stack

variable {options : ResolvedOptions} {events : List Bytes} {rest : List Task} {d : Connection burst}

theorem at_pump (hp : options.eventBatchSize.isPositive = true)
    (h : At options events (.pump :: rest) d) :
    At options events (.drainLoop :: rest) (d.step (.advance (.finite 0))) := by
  obtain ⟨ho, hc, hopen, he, hq, hi, his, hos, hs⟩ := h
  have hloop : ({ d with stack := rest } : Connection burst).pumpLoop = .drainLoop := by
    have hd : burst.drainEvents.isSome = true := rfl
    simp [pumpLoop, useBatch, ho, hp, hd]
  have hhead : ({ d with stack := rest } : Connection burst).pumpHead (.finite 0) =
      { d with stack := rest }.call .nextDeadline d.engine := by
    have hsched : ({ d with stack := rest } : Connection burst).schedule (.finite 0) =
        { d with stack := rest }.call .nextDeadline d.engine := by
      rw [schedule, if_neg (by simp [hc])]
      rfl
    unfold pumpHead
    rw [hsched]
    dsimp only
    split
    · show flushFrom d.queue _ = _
      rw [hq]
      rfl
    · rfl
  rw [step, hs]
  show At options events (.drainLoop :: rest) (pump { d with stack := rest } (.finite 0))
  rw [pump_eq { d with stack := rest } _ hc, hhead, hloop]
  exact ⟨ho, hc, hopen, he, hq, hi, his, hos, rfl⟩

/-- A batch shorter than its size, as the driver reads it, ends the loop. -/
theorem at_drain (hx : (F64.ofInt (events.take options.eventBatchSize.whole).length).lt
      options.eventBatchSize = true) (h : At options events (.drainLoop :: rest) d) :
    At options (events.drop options.eventBatchSize.whole)
      (.apply ((events.take options.eventBatchSize.whole).map .datagram) (.batch true) :: rest)
      (d.step (.advance (.finite 0))) := by
  obtain ⟨ho, hc, hopen, he, hq, hi, his, hos, hs⟩ := h
  have hx' : (F64.ofInt ((events.take options.eventBatchSize.whole).map
      EngineEvent.datagram).length).lt options.eventBatchSize = true := by
    rw [List.length_map]
    exact hx
  subst ho he
  rw [step, hs]
  show At d.options (d.engine.drop d.options.eventBatchSize.whole) _
    (drainLoop { d with stack := rest })
  rw [drainLoop, if_neg (by simp [hc])]
  refine ⟨rfl, hc, hopen, rfl, hq, hi, his, hos, ?_⟩
  show Task.apply _ (.batch _) :: rest = _
  rw [← hx']

theorem at_apply {data : Bytes} {more : List EngineEvent} {source : Source}
    (h : At options events (.apply (.datagram data :: more) source :: rest) d) :
    At options events (.apply more source :: rest) (run step d [.advance (.finite 0), .ret]) := by
  obtain ⟨ho, hc, hopen, he, hq, hi, his, hos, hs⟩ := h
  rw [run_cons, step, hs]
  exact ⟨ho, hc, hopen, he, hq, hi, his, hos, rfl⟩

theorem at_applied {source : Source} (datagrams : List Bytes)
    (h : At options events (.apply (datagrams.map .datagram) source :: rest) d) :
    At options events (.apply [] source :: rest)
      (run step d (List.replicate datagrams.length [.advance (.finite 0), .ret]).flatten) := by
  induction datagrams generalizing d with
  | nil => exact h
  | cons data datagrams ih =>
    rw [List.length_cons, List.replicate_succ, List.flatten_cons, run_append]
    exact ih (at_apply h)

theorem at_over (h : At options events (.apply [] (.batch true) :: rest) d) :
    At options events rest (d.step (.advance (.finite 0))) := by
  obtain ⟨ho, hc, hopen, he, hq, hi, his, hos, hs⟩ := h
  rw [step, hs]
  exact ⟨ho, hc, hopen, he, hq, hi, his, hos, rfl⟩

/-- A pump with a batch of so many datagrams. -/
def pumping (n : Nat) : List Label :=
  Script.steps 2 ++ (List.replicate n [.advance (.finite 0), .ret]).flatten ++ Script.steps 1

theorem at_pumping (hp : options.eventBatchSize.isPositive = true)
    (hx : (F64.ofInt (events.take options.eventBatchSize.whole).length).lt
      options.eventBatchSize = true) (h : At options events (.pump :: rest) d) :
    At options (events.drop options.eventBatchSize.whole) rest
      (run step d (pumping (events.take options.eventBatchSize.whole).length)) := by
  rw [pumping, run_append, run_append]
  exact at_over (at_applied _ (at_drain hx (at_pump hp h)))

theorem at_executorRest (h : At options events (.executorRest :: rest) d) :
    At options events rest (d.step (.advance (.finite 0))) := by
  obtain ⟨ho, hc, hopen, he, hq, hi, his, hos, hs⟩ := h
  have hrest : ({ d with stack := rest } : Connection burst).executorRest = { d with stack := rest } := by
    rw [executorRest, if_neg (by simp [hopen]), if_neg (by simp [hc])]
  rw [step, hs]
  show At options events rest (executorRest { d with stack := rest })
  rw [hrest]
  exact ⟨ho, hc, hopen, he, hq, hi, his, hos, rfl⟩

/-- A datagram and, where input is coalesced, its flush. -/
def arriving (options : ResolvedOptions) (data : Bytes) : List Label :=
  if options.inputBatch = .off then [.datagram (.finite 0) data]
  else [.datagram (.finite 0) data, .flushInbound (.finite 0)]

theorem at_arriving (data : Bytes) (h : At options events [] d) :
    At options (events ++ data.map fun b => [b]) [.pump] (run step d (arriving options data)) := by
  obtain ⟨ho, hc, hopen, he, hq, hi, his, hos, hs⟩ := h
  have hidle : d.idle = true := by rw [idle, hs]; rfl
  unfold arriving
  split
  · rename_i hoff
    show At options _ _ (d.step (.datagram (.finite 0) data))
    rw [step, if_pos hidle, onMessage, if_neg (by simp [hc]), if_pos (ho ▸ hoff)]
    subst he
    exact ⟨ho, hc, hopen, rfl, hq, hi, his, hos, congrArg (Task.pump :: ·) hs⟩
  · rename_i hon
    have hwaits : d.step (.datagram (.finite 0) data) =
        { d with inbound := [data], inboundScheduled := true } := by
      rw [step, if_pos hidle, onMessage, if_neg (by simp [hc]), if_neg (ho.symm ▸ hon), hi]
      rfl
    rw [run_cons, hwaits]
    show At options _ _ (step { d with inbound := [data], inboundScheduled := true }
      (.flushInbound (.finite 0)))
    have hready : (({ d with inbound := [data], inboundScheduled := true } : Connection burst).idle &&
        ({ d with inbound := [data], inboundScheduled := true } : Connection burst).inboundScheduled) =
        true := Bool.and_eq_true_iff.mpr ⟨hidle, rfl⟩
    rw [step, if_pos hready, flushInbound]
    dsimp only
    rw [if_neg (by simp [hc])]
    subst he
    exact ⟨ho, hc, hopen, rfl, hq, rfl, rfl, hos, congrArg (Task.pump :: ·) hs⟩

/-- The connection opens its sockets, and one datagram brings a burst that is one longer
than a batch. -/
def bursting (options : ResolvedOptions) : List Label :=
  pumping 0 ++ Script.steps 1 ++
    arriving options (List.replicate (options.eventBatchSize.whole + 1) 0) ++
      pumping options.eventBatchSize.whole

theorem bursting_calm (options : ResolvedOptions) : ∀ l ∈ bursting options, l.isRaise = false := by
  have hsteps : ∀ n, ∀ l ∈ Script.steps n, l.isRaise = false := by
    intro n l hm
    rw [(List.mem_replicate.mp hm).2]
    rfl
  have hpump : ∀ n, ∀ l ∈ pumping n, l.isRaise = false := by
    intro n l hm
    rcases List.mem_append.mp hm with hm | hm
    · rcases List.mem_append.mp hm with hm | hm
      · exact hsteps 2 l hm
      · obtain ⟨ls, hls, hm⟩ := List.mem_flatten.mp hm
        rw [(List.mem_replicate.mp hls).2] at hm
        simp only [List.mem_cons, List.not_mem_nil, or_false] at hm
        rcases hm with rfl | rfl <;> rfl
    · exact hsteps 1 l hm
  intro l hm
  rcases List.mem_append.mp hm with hm | hm
  · rcases List.mem_append.mp hm with hm | hm
    · exact (List.mem_append.mp hm).elim (hpump 0 l) (hsteps 1 l)
    · unfold arriving at hm
      split at hm
      · rw [List.mem_singleton.mp hm]
        rfl
      · simp only [List.mem_cons, List.not_mem_nil, or_false] at hm
        rcases hm with rfl | rfl <;> rfl
  · exact hpump _ l hm

/-- The engine keeps the last event of the burst. -/
theorem at_bursting (hp : options.eventBatchSize.isPositive = true)
    (hl : options.eventBatchSize.lt (.ofInt 4294967296) = true)
    (hw : options.eventBatchSize.isWhole = false) :
    At options [[0]] [] (run step (start (E := burst) options []) (bursting options)) := by
  have hstart : At options [] [.pump, .executorRest] (start (E := burst) options []) :=
    ⟨rfl, rfl, rfl, rfl, rfl, rfl, rfl, rfl, rfl⟩
  have hnone : (([] : List Bytes).take options.eventBatchSize.whole).length = 0 := by simp
  have hdial := at_pumping hp (by rw [hnone]; exact F64.zero_lt hp) hstart
  rw [hnone, List.drop_nil] at hdial
  have hburst := at_arriving (List.replicate (options.eventBatchSize.whole + 1) 0)
    (at_executorRest hdial)
  rw [List.nil_append, List.map_replicate] at hburst
  have hlen : ((List.replicate (options.eventBatchSize.whole + 1) [(0 : UInt8)]).take
      options.eventBatchSize.whole).length = options.eventBatchSize.whole := by simp
  have hlost := at_pumping hp (by rw [hlen]; exact F64.whole_lt hp hl hw) hburst
  rw [hlen, List.drop_replicate, Nat.add_sub_cancel_left] at hlost
  rw [bursting, run_append, run_append, run_append]
  exact hlost

/-- **Nothing that is put off is lost, exactly for the whole batch sizes.** -/
theorem caughtUp_iff (options : ResolvedOptions)
    (hp : options.eventBatchSize.isPositive = true)
    (hl : options.eventBatchSize.lt (.ofInt 4294967296) = true) :
    (∀ (E : EngineApi) (Q : EventQueue E) (engine : E.State) (labels : List Label),
      (∀ l ∈ labels, l.isRaise = false) →
        (run step (start options engine) labels).CaughtUp Q
          (received (start options engine) labels)) ↔
      options.eventBatchSize.isWhole = true := by
  constructor
  · intro h
    by_contra hw
    have hc := h burst Script.bursts [] (bursting options) (bursting_calm options)
    obtain ⟨ho, hcl, hopen, he, hq, hi, his, hos, hs⟩ :=
      at_bursting hp hl (Bool.eq_false_iff.mpr hw)
    have hevents := hc.events ⟨hcl, by rw [idle, hs]; rfl, his, hos⟩
    rw [he] at hevents
    cases hevents
  · exact fun hw E Q engine labels => caughtUp_run (fun _ => ⟨hl, hw⟩) Q engine labels

/-- Half an event for a batch. -/
def halved : ResolvedOptions := { Script.batched with eventBatchSize := .finite (1 / 2) }

/-- One datagram has come, no flush is scheduled and no code is running, and the engine's
answer is still in its queue. -/
theorem answer_left_behind :
    (run step (start (E := burst) halved []) (bursting halved)).Quiet ∧
      ¬ (run step (start (E := burst) halved []) (bursting halved)).CaughtUp Script.bursts
        (received (start (E := burst) halved []) (bursting halved)) := by
  have hq : (run step (start (E := burst) halved []) (bursting halved)).Quiet :=
    ⟨by decide +kernel, by decide +kernel, by decide +kernel, by decide +kernel⟩
  refine ⟨hq, fun h => ?_⟩
  exact absurd (h.events hq) (by decide +kernel)

/-- A burst of one event more than a batch, in batches of 64. -/
theorem caughtUp_iff_batched :
    (run step (start (E := burst) Script.batched []) (bursting Script.batched)).CaughtUp
      Script.bursts (received (start (E := burst) Script.batched []) (bursting Script.batched)) :=
  (caughtUp_iff Script.batched (by decide +kernel) (by decide +kernel)).mpr (by decide +kernel) burst
    Script.bursts [] (bursting Script.batched) (bursting_calm Script.batched)

end Connection

end RtcTunnel.Driver
