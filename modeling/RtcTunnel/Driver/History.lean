import RtcTunnel.Driver.Events

/-!
# The history of an engine

A connection logs every call of its engine. The engine is what the calls in the log have made
of the one it was created with; the clock of a call is that of the step that makes it.
-/

namespace RtcTunnel.Driver

open RtcTunnel.Core
open RtcTunnel.Base.Run

set_option autoImplicit false

/-- An effect that no method of the engine is behind. -/
def Effect.apart : Effect → Bool
  | .engine _ => false
  | .dispose => false
  | _ => true

/-- What one logged effect makes of the engine, at a time and with batches of a size, and the
events that the engine hands out. -/
inductive EngineApi.Made (E : EngineApi) (now size : F64) (s : E.State) :
    Effect → List EngineEvent → E.State → Prop where
  | input (data : Bytes) : Made E now size s (.engine (.input data)) [] (E.input s now data)
  | inputDeferred {f : E.State → F64 → Bytes → E.State} (hf : E.inputDeferred = some f)
      (data : Bytes) : Made E now size s (.engine (.inputDeferred data)) [] (f s now data)
  | finishInputBatch {f : E.State → E.State} (hf : E.finishInputBatch = some f) :
      Made E now size s (.engine .finishInputBatch) [] (f s)
  | tick : Made E now size s (.engine .tick) [] (E.tick s now)
  | send (packet : Packet) :
      Made E now size s (.engine (.send packet (E.send s packet.data).1)) []
        (E.send s packet.data).2
  | nextDeadline : Made E now size s (.engine .nextDeadline) [] (E.nextDeadline s).2
  | pollEvent : Made E now size s (.engine .pollEvent)
      (if (E.pollEvent s).1 = .none then [] else [(E.pollEvent s).1]) (E.pollEvent s).2
  | drainEvents {f : E.State → F64 → List EngineEvent × E.State} (hf : E.drainEvents = some f) :
      Made E now size s (.engine .drainEvents) (f s size).1 (f s size).2
  | close : Made E now size s (.engine .close) [] (E.close s)
  | bufferedBytes {f : E.State → Nat × E.State} (hf : E.bufferedBytes = some f) :
      Made E now size s (.engine .bufferedBytes) [] (f s).2
  | droppedDatagrams {f : E.State → Nat × E.State} (hf : E.droppedDatagrams = some f) :
      Made E now size s (.engine .droppedDatagrams) [] (f s).2
  | negotiatedCipherSuite {f : E.State → Option Text × E.State}
      (hf : E.negotiatedCipherSuite = some f) :
      Made E now size s (.engine .negotiatedCipherSuite) [] (f s).2
  | dispose : Made E now size s .dispose [] (E.dispose s)
  | apart (e : Effect) (he : e.apart = true) : Made E now size s e [] s

/-- What a list of them makes of it. -/
inductive EngineApi.History (E : EngineApi) (now size : F64) :
    E.State → List Effect → List EngineEvent → E.State → Prop where
  | nil (s : E.State) : History E now size s [] [] s
  | cons {s t u : E.State} {e : Effect} {es : List Effect} {out outs : List EngineEvent}
      (h : E.Made now size s e out t) (hs : History E now size t es outs u) :
      History E now size s (e :: es) (out ++ outs) u

theorem EngineApi.Made.one {E : EngineApi} {now size : F64} {s t : E.State} {e : Effect}
    {out : List EngineEvent} (h : E.Made now size s e out t) : E.History now size s [e] out t := by
  have hc := History.cons h (.nil t)
  rwa [List.append_nil] at hc

theorem EngineApi.History.append {E : EngineApi} {now size : F64} {s t u : E.State}
    {es fs : List Effect} {out outs : List EngineEvent} (h : E.History now size s es out t)
    (h' : E.History now size t fs outs u) : E.History now size s (es ++ fs) (out ++ outs) u := by
  induction h with
  | nil s => exact h'
  | cons h _ ih =>
    rw [List.append_assoc]
    exact .cons h (ih h')

namespace Connection

variable {E : EngineApi}

/-- The clock that a step reads. -/
def Label.now : Label → F64
  | .advance now => now
  | .datagram now _ => now
  | .flushInbound now => now
  | .timer now => now
  | _ => .ofInt 0

/-- What has been logged since is what has been made of the engine, and these events were handed
out meanwhile. -/
def Follows (now : F64) (d : Connection E) (out : List EngineEvent) (r : Connection E) : Prop :=
  r.options = d.options ∧
    ∃ es, r.log = d.log ++ es ∧ E.History now d.options.eventBatchSize d.engine es out r.engine

variable {now : F64} {d r m : Connection E} {out outs : List EngineEvent}

theorem Follows.refl (d : Connection E) : d.Follows now [] d :=
  ⟨rfl, [], (List.append_nil _).symm, .nil _⟩

theorem Follows.trans (h : d.Follows now out m) (h' : m.Follows now outs r) :
    d.Follows now (out ++ outs) r := by
  obtain ⟨ho, es, hlog, hes⟩ := h
  obtain ⟨ho', fs, hlog', hfs⟩ := h'
  refine ⟨ho'.trans ho, es ++ fs, ?_, hes.append (ho ▸ hfs)⟩
  rw [hlog', hlog, List.append_assoc]

/-- Nothing is handed out. -/
theorem Follows.and (h : d.Follows now out m) (h' : m.Follows now [] r) : d.Follows now out r := by
  have hall := h.trans h'
  rwa [List.append_nil] at hall

/-- Other fields change. -/
theorem Follows.fields (h : d.Follows now out m) (hl : r.log = m.log) (he : r.engine = m.engine)
    (ho : r.options = m.options) : d.Follows now out r := by
  refine h.and ⟨ho, [], hl.trans (List.append_nil _).symm, ?_⟩
  rw [he]
  exact .nil _

/-- One call. -/
theorem Follows.call (h : d.Follows now out m) {c : EngineCall} {engine : E.State}
    (hc : E.Made now m.options.eventBatchSize m.engine (.engine c) [] engine) :
    d.Follows now out (m.call c engine) := h.and ⟨rfl, [.engine c], rfl, hc.one⟩

/-- One effect that leaves the engine alone. -/
theorem Follows.emit (h : d.Follows now out m) {e : Effect} (he : e.apart = true)
    (hl : r.log = m.log ++ [e]) (hengine : r.engine = m.engine) (ho : r.options = m.options) :
    d.Follows now out r := by
  refine h.and ⟨ho, [e], hl, ?_⟩
  rw [hengine]
  exact (EngineApi.Made.apart e he).one

theorem Follows.record (h : d.Follows now out m) {e : Effect} (he : e.apart = true) :
    d.Follows now out (m.record e) := h.emit he rfl rfl rfl

theorem Follows.push (h : d.Follows now out m) (tasks : List Task) :
    d.Follows now out (m.push tasks) := h.fields rfl rfl rfl

theorem follows_settle (h : d.Follows now out m) (p : Promise) : d.Follows now out (m.settle p) := by
  unfold settle
  split
  · exact h.fields rfl rfl rfl
  · exact h

theorem follows_cancelArmed (h : d.Follows now out m) : d.Follows now out m.cancelArmed := by
  unfold cancelArmed
  split
  · exact h.record rfl
  · exact h

theorem follows_schedule (h : d.Follows now out m) (clock : F64) : d.Follows now out (m.schedule clock) := by
  unfold schedule
  split
  · exact h
  · have hc := h.call (c := .nextDeadline) .nextDeadline
    dsimp only
    split
    · exact hc
    · split
      · exact hc
      · exact ((follows_cancelArmed hc).fields rfl rfl rfl).record rfl

theorem follows_flushFrom (queue : List Packet) (h : d.Follows now out m) :
    d.Follows now out (flushFrom queue m) := by
  induction queue generalizing m with
  | nil => exact h
  | cons next rest ih =>
    have hc := h.call (.send next)
    rw [flushFrom]
    split
    · exact hc
    · exact ih (hc.fields rfl rfl rfl)

theorem follows_pump (h : d.Follows now out m) (clock : F64) : d.Follows now out (m.pump clock) := by
  unfold pump
  split
  · exact h
  · refine Follows.push ?_ _
    split
    · exact follows_flushFrom _ (follows_schedule h clock)
    · exact follows_schedule h clock

/-- A call that hands out events. -/
theorem Follows.hands (h : d.Follows now [] m) {c : EngineCall} {engine : E.State}
    (hc : E.Made now m.options.eventBatchSize m.engine (.engine c) out engine) :
    d.Follows now out (m.call c engine) :=
  (List.nil_append out) ▸ h.trans ⟨rfl, [.engine c], rfl, hc.one⟩

/-- The events a round of the loop over batches takes. -/
def drainTakes (m : Connection E) : List EngineEvent :=
  if m.closed then []
  else (E.drainEvents.map fun drain => (drain m.engine m.options.eventBatchSize).1).getD []

theorem follows_drainLoop (h : d.Follows now [] m) : d.Follows now m.drainTakes m.drainLoop := by
  unfold drainLoop drainTakes
  split
  · exact h
  · split
    · rename_i hd
      rw [hd]
      exact h
    · rename_i drain hd
      rw [hd]
      exact (h.hands (.drainEvents hd)).push _

theorem follows_pollLoop (h : d.Follows now [] m) : d.Follows now
    (if (E.pollEvent m.engine).1 = .none then [] else [(E.pollEvent m.engine).1]) m.pollLoop := by
  have hc := h.hands (c := .pollEvent) .pollEvent
  unfold pollLoop
  dsimp only
  generalize (if (E.pollEvent m.engine).1 = .none then [] else [(E.pollEvent m.engine).1]) = out
    at hc ⊢
  split
  · exact hc
  · exact hc.push _

theorem follows_applyEvent (h : d.Follows now out m) (event : EngineEvent) (rest : Task) :
    d.Follows now out (m.applyEvent event rest) := by
  cases event with
  | none => exact h.push _
  | datagram data => exact (h.record rfl).push _
  | message data => exact (h.record rfl).push _
  | closed reason => exact h.push _
  | opened =>
    unfold applyEvent
    dsimp only
    split
    · exact h.push _
    · exact h.emit (e := .onOpen) rfl rfl rfl rfl

theorem follows_apply (h : d.Follows now out m) (events : List EngineEvent) (source : Source) :
    d.Follows now out (m.apply events source) := by
  cases events with
  | cons event events => exact follows_applyEvent h event _
  | nil =>
    cases source with
    | poll => exact h.push _
    | batch short =>
      unfold apply
      dsimp only
      split
      · exact h
      · exact h.push _

theorem follows_finish (h : d.Follows now out m) (reason : Text) : d.Follows now out (m.finish reason) := by
  unfold finish
  split
  · exact h
  · have hc := follows_cancelArmed (h.fields (r := { m with closed := true, closeReason := some reason })
      rfl rfl rfl)
    exact hc.emit (e := .endpointClose) rfl rfl rfl rfl

theorem follows_finishRest (h : d.Follows now out m) (reason : Text) :
    d.Follows now out (m.finishRest reason) := by
  have hdispose : d.Follows now out
      ({ m with engine := E.dispose m.engine, disposed := true }.record .dispose) :=
    h.and ⟨rfl, [.dispose], rfl, EngineApi.Made.dispose.one⟩
  unfold finishRest
  dsimp only
  split
  · exact (hdispose.record rfl).push _
  · exact follows_settle hdispose _

theorem follows_executorRest (h : d.Follows now out m) : d.Follows now out m.executorRest := by
  unfold executorRest
  split
  · exact follows_settle h _
  · split
    · exact follows_settle h _
    · exact h

theorem follows_schedulePump (h : d.Follows now out m) : d.Follows now out m.schedulePump := by
  unfold schedulePump
  split
  · exact h.push _
  · exact h.fields rfl rfl rfl

theorem follows_handleSend (h : d.Follows now out m) (data : Bytes) :
    d.Follows now out (m.handleSend data) := by
  have hs := h.fields (r := { m with sends := m.sends + 1 }) rfl rfl rfl
  unfold handleSend
  dsimp only
  split
  · exact hs.record rfl
  · have hc := hs.call (.send ⟨m.sends, data⟩)
    split
    · exact follows_schedulePump (hc.record rfl)
    · split
      · exact hc.record rfl
      · split
        · split
          · split
            · exact (hc.fields rfl rfl rfl).record rfl
            · exact (hc.fields rfl rfl rfl).record rfl
          · exact (hc.fields rfl rfl rfl).record rfl
        · exact hc.record rfl

theorem follows_ask {α : Type} (h : d.Follows now out m) {c : EngineCall}
    {method : Option (E.State → α × E.State)}
    (hc : ∀ f, method = some f → ∀ size, E.Made now size m.engine (.engine c) [] (f m.engine).2) :
    d.Follows now out (m.ask c method).2 := by
  unfold ask
  cases hm : method with
  | none => exact h
  | some f => exact h.call (hc f hm _)

theorem follows_handleStats (h : d.Follows now out m) : d.Follows now out m.handleStats := by
  have hsuite := follows_ask h (c := .negotiatedCipherSuite) fun _ hf _ => .negotiatedCipherSuite hf
  have hbuffered := follows_ask hsuite (c := .bufferedBytes) fun _ hf _ => .bufferedBytes hf
  have hdropped := follows_ask hbuffered (c := .droppedDatagrams) fun _ hf _ => .droppedDatagrams hf
  exact hdropped.record rfl

theorem follows_onMessage (h : d.Follows now out m) (data : Bytes) :
    d.Follows now out (m.onMessage now data) := by
  unfold onMessage
  split
  · exact h
  · split
    · exact (h.call (.input data)).push _
    · exact h.fields rfl rfl rfl

theorem follows_foldl {f : Connection E → Bytes → Connection E}
    (hf : ∀ {c : Connection E} data, d.Follows now out c → d.Follows now out (f c data))
    (datagrams : List Bytes) (h : d.Follows now out m) : d.Follows now out (datagrams.foldl f m) := by
  induction datagrams generalizing m with
  | nil => exact h
  | cons data datagrams ih => exact ih (hf data h)

theorem follows_feed (h : d.Follows now out m) : d.Follows now out (m.feed now) := by
  unfold feed
  split
  · rename_i f g hf hg
    have hall := follows_foldl (f := fun c data => c.call (.inputDeferred data) (f c.engine now data))
      (fun data hc => hc.call (.inputDeferred hf data)) m.inbound h
    exact (hall.fields rfl rfl rfl).call (.finishInputBatch hg)
  · have hall := follows_foldl (f := fun c data => c.call (.input data) (E.input c.engine now data))
      (fun data hc => hc.call (.input data)) m.inbound h
    exact hall.fields rfl rfl rfl

theorem follows_flushInbound (h : d.Follows now out m) : d.Follows now out (m.flushInbound now) := by
  have hs := h.fields (r := { m with inboundScheduled := false }) rfl rfl rfl
  unfold flushInbound
  dsimp only
  split
  · exact hs
  · exact (follows_feed hs).push _

theorem follows_raise (h : d.Follows now out m) : d.Follows now out m.raise := by
  unfold raise
  split
  · exact h.fields rfl rfl rfl
  · rename_i rest _ _
    have hs := h.fields (r := { m with stack := (unwind rest).1 }) rfl rfl rfl
    dsimp only
    split
    · exact follows_settle hs _
    · exact hs
  · exact h

theorem follows_ite {c : Prop} [Decidable c] {a b : Connection E} (ha : d.Follows now out a)
    (hb : d.Follows now out b) : d.Follows now out (if c then a else b) := by
  split
  · exact ha
  · exact hb

/-- **Every step logs what it makes of the engine**, and takes what the engine hands out. -/
theorem follows_step (d : Connection E) (l : Label) : d.Follows l.now (d.takes l) (d.step l) := by
  have h : d.Follows l.now [] d := .refl d
  cases l with
  | advance now =>
    rw [step, takes]
    cases hs : d.stack with
    | nil => exact h
    | cons task rest =>
      have ht := h.fields (r := { d with stack := rest }) rfl rfl rfl
      cases task with
      | callback => exact h
      | pump => exact follows_pump ht now
      | drainLoop => exact follows_drainLoop ht
      | pollLoop => exact follows_pollLoop ht
      | apply events source => exact follows_apply ht events source
      | settleOpen => exact follows_settle ht _
      | finish reason => exact follows_finish ht reason
      | finishRest reason => exact follows_finishRest ht reason
      | executorRest => exact follows_executorRest ht
  | ret =>
    rw [step]
    split
    · exact h.fields rfl rfl rfl
    · exact h
  | raise => exact follows_raise h
  | send data => exact follows_ite (follows_handleSend h data) h
  | close =>
    refine follows_ite ?_ h
    unfold handleClose
    split
    · exact h
    · exact (h.call .close).push _
  | stats => exact follows_ite (follows_handleStats h) h
  | error message => exact follows_ite (h.push _) h
  | datagram now data => exact follows_ite (follows_onMessage h data) h
  | flushInbound now => exact follows_ite (follows_flushInbound h) h
  | flushOutbound =>
    have hs := h.fields (r := { d with outboundScheduled := false }) rfl rfl rfl
    exact follows_ite (hs.push _) h
  | timer now =>
    have hs := h.fields (r := { d with timerArmed := false, scheduledDeadline := none }) rfl rfl rfl
    exact follows_ite ((hs.call .tick).push _) h
  | resume => exact follows_ite (h.fields rfl rfl rfl) h

/-- What a step logs. -/
def logs (d : Connection E) (l : Label) : List Effect := (d.step l).log.drop d.log.length

theorem log_step (d : Connection E) (l : Label) : (d.step l).log = d.log ++ d.logs l ∧
    E.History l.now d.options.eventBatchSize d.engine (d.logs l) (d.takes l)
      (d.step l).engine := by
  obtain ⟨_, es, hlog, hes⟩ := follows_step d l
  have hlogs : d.logs l = es := by
    rw [logs, hlog, List.drop_left]
  rw [hlogs]
  exact ⟨hlog, hes⟩

theorem log_run (d : Connection E) (labels : List Label) :
    (run step d labels).log = d.log ++ outputs step logs d labels := by
  induction labels generalizing d with
  | nil => exact (List.append_nil _).symm
  | cons l labels ih => rw [run_cons, ih, (log_step d l).1, List.append_assoc, outputs]

end Connection

end RtcTunnel.Driver
