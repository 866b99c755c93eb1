import RtcTunnel.Driver.Action

/-!
# Events in turn

A pump applies the events it has in hand one by one, and a callback may start a pump
of its own before it returns. What the outer pump still has in hand is then older than
what the inner one takes off the engine.
-/

namespace RtcTunnel.Driver

open RtcTunnel.Core
open RtcTunnel.Base.Run

set_option autoImplicit false

/-- An event that the pump answers with a call of `endpoint.send` or `onPacket`. -/
def EngineEvent.isCall : EngineEvent → Bool
  | .datagram _ => true
  | .message _ => true
  | _ => false

def EngineEvent.isClosed : EngineEvent → Bool
  | .closed _ => true
  | _ => false

/-- An event that matters to the calls: it makes one or ends them. -/
def EngineEvent.counts (e : EngineEvent) : Bool := e.isCall || e.isClosed

/-- The event that a call answers. -/
def Effect.answers : Effect → Option EngineEvent
  | .endpointSend data => some (.datagram data)
  | .onPacket data => some (.message data)
  | _ => none

/-- The datagrams and messages in front of the first `Closed`. -/
def seen (events : List EngineEvent) : List EngineEvent :=
  (events.takeWhile (!·.isClosed)).filter EngineEvent.isCall

/-- The next event makes a call. -/
def leads (events : List EngineEvent) : Bool := events.head?.any EngineEvent.isCall

/-- The events a suspended pump still has in hand. -/
def Task.held : Task → List EngineEvent
  | .apply events _ => events.filter EngineEvent.counts
  | _ => []

/-- What the suspended pumps have in hand, the innermost first. -/
def segments (stack : List Task) : List (List EngineEvent) :=
  (stack.map Task.held).filter (!·.isEmpty)

namespace Connection

def Label.isRaise : Label → Bool
  | .raise => true
  | _ => false

variable {E : EngineApi}

/-- The calls made so far, as the events they answer. -/
def calls (d : Connection E) : List EngineEvent := d.log.filterMap Effect.answers

/-- The events a step takes off the engine. -/
def takes (d : Connection E) : Label → List EngineEvent
  | .advance _ =>
    match d.stack with
    | .drainLoop :: _ =>
      if d.closed then []
      else (E.drainEvents.map fun drain => (drain d.engine d.options.eventBatchSize).1).getD []
    | .pollLoop :: _ =>
      if (E.pollEvent d.engine).1 = .none then [] else [(E.pollEvent d.engine).1]
    | _ => []
  | _ => []

/-- All that a run takes off the engine, in the order the engine hands it out. -/
def handedOut (d : Connection E) : List Label → List EngineEvent
  | [] => []
  | l :: ls => d.takes l ++ handedOut (d.step l) ls

/-- The step sets `closed`. -/
def closes (d : Connection E) : Label → Bool
  | .advance _ =>
    match d.stack with
    | .finish _ :: _ => !d.closed
    | _ => false
  | _ => false

/-- The step takes events to apply while an outer pump has events in hand or the
connection is closed; or it closes the connection while a pump has calls to make. -/
def outOfTurn (d : Connection E) (l : Label) : Bool :=
  (leads ((d.takes l).filter EngineEvent.counts) && (d.closed || !(segments d.stack).isEmpty)) ||
    (d.closes l && (segments d.stack).any leads)

end Connection

theorem segments_cons (t : Task) (rest : List Task) :
    segments (t :: rest) = if t.held = [] then segments rest else t.held :: segments rest := by
  unfold segments
  rw [List.map_cons, List.filter_cons]
  cases t.held <;> rfl

theorem segments_ne_nil {stack : List Task} {s : List EngineEvent} (h : s ∈ segments stack) :
    s ≠ [] := by
  intro hn
  have hf := (List.mem_filter.mp h).2
  rw [hn] at hf
  cases hf

theorem seen_eq (events : List EngineEvent) :
    seen events = (events.filter EngineEvent.counts).takeWhile EngineEvent.isCall := by
  unfold seen
  induction events with
  | nil => rfl
  | cons e events ih =>
    cases e with
    | closed reason => rfl
    | none => exact ih
    | opened => exact ih
    | datagram data => exact congrArg (_ :: ·) ih
    | message data => exact congrArg (_ :: ·) ih

/-- Calls, and behind them nothing or a `Closed`, are what is seen of the events. -/
theorem seen_of_counts {events calls rest : List EngineEvent}
    (h : events.filter EngineEvent.counts = calls ++ rest)
    (hc : ∀ e ∈ calls, e.isCall = true) :
    calls <+: seen events ∧ (leads rest = false → calls = seen events) := by
  rw [seen_eq, h, List.takeWhile_append_of_pos hc]
  refine ⟨List.prefix_append _ _, fun hl => ?_⟩
  cases rest with
  | nil => exact (List.append_nil _).symm
  | cons e rest =>
    have hl : e.isCall = false := hl
    rw [List.takeWhile_cons, hl]
    exact (List.append_nil _).symm

/-- What the pumps have in hand makes no call next, the outermost first, if none does. -/
theorem leads_flatten {segments : List (List EngineEvent)} {rest : List EngineEvent}
    (hn : ∀ s ∈ segments, s ≠ []) (hs : ∀ s ∈ segments, leads s = false)
    (hr : leads rest = false) : leads (segments.reverse.flatten ++ rest) = false := by
  cases hl : segments.reverse with
  | nil => exact hr
  | cons s outer =>
    have hm : s ∈ segments := List.mem_reverse.mp (hl ▸ List.mem_cons_self ..)
    have hsl := hs s hm
    cases s with
    | nil => exact absurd rfl (hn _ hm)
    | cons e s => exact hsl

namespace Connection

variable {E : EngineApi} {d : Connection E}

theorem takes_outside (ho : d.outside = true) (l : Label) : d.takes l = [] := by
  cases l with
  | advance now =>
    rw [takes]
    cases hs : d.stack with
    | nil => rfl
    | cons task rest =>
      rw [outside, hs] at ho
      cases task with
      | callback => rfl
      | _ => cases ho
  | _ => rfl

theorem takes_nothing {l : Label} (h : (∀ now, l ≠ .advance now) ∨ d.outside = true) :
    d.takes l = [] := by
  rcases h with h | h
  · cases l with
    | advance now => exact absurd rfl (h now)
    | _ => rfl
  · exact takes_outside h l

/-- The calls in hand and those that were made are the events handed out. -/
structure InTurn (d : Connection E) (events : List EngineEvent) : Prop where
  /-- Until the close nothing is missing but what stands behind a `Closed`. -/
  «open» : d.closed = false → ∃ rest, events.filter EngineEvent.counts =
      d.calls ++ (segments d.stack).reverse.flatten ++ rest ∧
    (rest = [] ∨ leads rest = false ∧ ∃ reason tasks, d.stack = .finish reason :: tasks)
  closed : d.closed = true → (∃ rest, events.filter EngineEvent.counts = d.calls ++ rest ∧
    leads rest = false) ∧ ∀ s ∈ segments d.stack, leads s = false
  /-- Only the outermost pump that has something in hand may have a call to make. -/
  nested : (segments d.stack).Pairwise fun s _ => leads s = false
  unclosed : d.closed = false → .endpointClose ∉ d.log
  cut : d.log.Pairwise fun a b => a = .endpointClose → b.answers = none

theorem inTurn_start (options : ResolvedOptions) (engine : E.State) :
    (start options engine).InTurn [] where
  «open» _ := ⟨[], rfl, .inl rfl⟩
  closed := nofun
  nested := .nil
  unclosed _ := List.not_mem_nil
  cut := .nil

theorem Inside.silent {d r : Connection E} (h : d.Inside r) :
    ∃ es, r.log = d.log ++ es ∧ ∀ e ∈ es, e.answers = none ∧ e ≠ .endpointClose := by
  obtain ⟨es, hl, he⟩ := h.log
  refine ⟨es, hl, fun e hm => ?_⟩
  have hin := he e hm
  cases e with
  | endpointSend data => cases hin
  | onPacket data => cases hin
  | endpointClose => cases hin
  | _ => exact ⟨rfl, nofun⟩

theorem calls_silent {r : Connection E} {es : List Effect} (hl : r.log = d.log ++ es)
    (he : ∀ e ∈ es, e.answers = none ∧ e ≠ .endpointClose) : r.calls = d.calls := by
  rw [calls, hl, List.filterMap_append, List.filterMap_eq_nil_iff.mpr fun e hm => (he e hm).1,
    List.append_nil, calls]

theorem cut_silent {log es : List Effect}
    (hc : log.Pairwise fun a b => a = .endpointClose → b.answers = none)
    (he : ∀ e ∈ es, e.answers = none) :
    (log ++ es).Pairwise fun a b => a = .endpointClose → b.answers = none := by
  refine List.pairwise_append.mpr ⟨hc, ?_, fun _ _ b hb _ => he b hb⟩
  exact List.pairwise_iff_forall_sublist.mpr fun hs _ =>
    he _ (hs.subset (List.mem_cons_of_mem _ (List.mem_cons_self ..)))

/-- A step that makes no call, does not close, and leaves what is in hand. -/
theorem InTurn.silent {r : Connection E} {events : List EngineEvent} (h : d.InTurn events)
    (hc : r.closed = d.closed) (hs : segments r.stack = segments d.stack)
    (hl : ∃ es, r.log = d.log ++ es ∧ ∀ e ∈ es, e.answers = none ∧ e ≠ .endpointClose)
    (hf : ∀ reason tasks, d.stack = .finish reason :: tasks → d.closed = true) :
    r.InTurn events := by
  obtain ⟨es, hlog, he⟩ := hl
  have hcalls := calls_silent hlog he
  refine ⟨fun ho => ?_, fun hcl => ?_, ?_, fun ho => ?_, ?_⟩
  · rw [hc] at ho
    obtain ⟨rest, hev, hr⟩ := h.open ho
    refine ⟨rest, by rw [hcalls, hs, hev], .inl ?_⟩
    rcases hr with hr | ⟨_, reason, tasks, hst⟩
    · exact hr
    · exact absurd ((hf reason tasks hst).symm.trans ho) nofun
  · rw [hcalls, hs]
    exact h.closed (hc ▸ hcl)
  · rw [hs]
    exact h.nested
  · rw [hlog, List.mem_append]
    rintro (hm | hm)
    · exact h.unclosed (hc ▸ ho) hm
    · exact (he _ hm).2 rfl
  · rw [hlog]
    exact cut_silent h.cut fun e hm => (he e hm).1

theorem segments_skip {t : Task} {rest : List Task} (h : t.held = []) :
    segments (t :: rest) = segments rest := by
  rw [segments_cons, if_pos h]

theorem segments_above {above rest : List Task} (h : ∀ t ∈ above, t.held = []) :
    segments (above ++ rest) = segments rest := by
  induction above with
  | nil => rfl
  | cons t above ih =>
    obtain ⟨ht, h⟩ := List.forall_mem_cons.mp h
    rw [List.cons_append, segments_skip ht, ih h]

/-- A step that takes events off the engine. -/
theorem InTurn.take {r : Connection E} {events taken : List EngineEvent} {source : Source}
    {top : Task} {rest : List Task} (h : d.InTurn events) (hs : d.stack = top :: rest)
    (ht : top.held = []) (hf : ∀ reason, top ≠ .finish reason)
    (hr : r.stack = .apply taken source :: rest) (hc : r.closed = d.closed)
    (hl : ∃ es, r.log = d.log ++ es ∧ ∀ e ∈ es, e.answers = none ∧ e ≠ .endpointClose)
    (hturn : leads (taken.filter EngineEvent.counts) = true →
      d.closed = false ∧ segments d.stack = []) : r.InTurn (events ++ taken) := by
  obtain ⟨es, hlog, he⟩ := hl
  have hcalls := calls_silent hlog he
  have hsd : segments d.stack = segments rest := by rw [hs, segments_skip ht]
  have hsr : segments r.stack = if taken.filter EngineEvent.counts = [] then segments rest
      else taken.filter EngineEvent.counts :: segments rest := by rw [hr, segments_cons]; rfl
  have hflat : (segments r.stack).reverse.flatten =
      (segments rest).reverse.flatten ++ taken.filter EngineEvent.counts := by
    rw [hsr]
    split
    · rename_i hn
      rw [hn, List.append_nil]
    · simp
  refine ⟨fun ho => ?_, fun hcl => ?_, ?_, fun ho => ?_, ?_⟩
  · rw [hc] at ho
    obtain ⟨left, hev, hleft⟩ := h.open ho
    refine ⟨[], ?_, .inl rfl⟩
    rcases hleft with hleft | ⟨_, reason, tasks, hst⟩
    · subst hleft
      rw [List.filter_append, hev, hcalls, hflat, hsd]
      simp only [List.append_nil, List.append_assoc]
    · exact absurd (List.cons.inj (hs.symm.trans hst)).1 (hf reason)
  · rw [hc] at hcl
    obtain ⟨⟨left, hev, hleft⟩, hseg⟩ := h.closed hcl
    have hno : leads (taken.filter EngineEvent.counts) = false := by
      by_contra hn
      exact absurd ((hturn (by simpa using hn)).1.symm.trans hcl) nofun
    refine ⟨⟨left ++ taken.filter EngineEvent.counts, ?_, ?_⟩, ?_⟩
    · rw [List.filter_append, hev, hcalls, List.append_assoc]
    · cases left with
      | nil => exact hno
      | cons e left => exact hleft
    · rw [hsd] at hseg
      rw [hsr]
      split
      · exact hseg
      · exact List.forall_mem_cons.mpr ⟨hno, hseg⟩
  · have hn := h.nested
    rw [hsd] at hn
    rw [hsr]
    split
    · exact hn
    · refine List.pairwise_cons.mpr ⟨fun s hm => ?_, hn⟩
      by_contra hlead
      have hnil := (hturn (by simpa using hlead)).2
      rw [hsd] at hnil
      rw [hnil] at hm
      cases hm
  · rw [hlog, List.mem_append]
    rintro (hm | hm)
    · exact h.unclosed (hc ▸ ho) hm
    · exact (he _ hm).2 rfl
  · rw [hlog]
    exact cut_silent h.cut fun e hm => (he e hm).1

/-- A step that makes the call of the next event in hand. -/
theorem InTurn.answer {events rest : List EngineEvent} {event : EngineEvent} {source : Source}
    {tasks : List Task} {e : Effect} (h : d.InTurn events)
    (hs : d.stack = .apply (event :: rest) source :: tasks) (hcall : event.isCall = true)
    (he : e.answers = some event) :
    (({ d with stack := tasks }.record e).push [.callback, .apply rest source]).InTurn events := by
  have hcounts : event.counts = true := by rw [EngineEvent.counts, hcall, Bool.true_or]
  have hheld : (Task.apply (event :: rest) source).held =
      event :: rest.filter EngineEvent.counts := by
    rw [Task.held, List.filter_cons, if_pos hcounts]
  have hsd : segments d.stack = (event :: rest.filter EngineEvent.counts) :: segments tasks := by
    rw [hs, segments_cons, hheld, if_neg (List.cons_ne_nil _ _)]
  have ho : d.closed = false := by
    by_contra hc
    have hseg := (h.closed (by simpa using hc)).2
    rw [hsd] at hseg
    exact absurd (hcall.symm.trans ((List.forall_mem_cons.mp hseg).1)) (by simp)
  have hnil : segments tasks = [] := by
    have hn := h.nested
    rw [hsd, List.pairwise_cons] at hn
    exact List.eq_nil_iff_forall_not_mem.mpr fun s hm =>
      absurd (hcall.symm.trans (hn.1 s hm)) (by simp)
  have hsr : segments (.callback :: .apply rest source :: tasks) =
      if rest.filter EngineEvent.counts = [] then [] else [rest.filter EngineEvent.counts] := by
    rw [segments_skip rfl, segments_cons, hnil]
    rfl
  have hclose : .endpointClose ∉ d.log := h.unclosed ho
  obtain ⟨left, hev, hleft⟩ := h.open ho
  have hcalls : ({ d with stack := tasks }.record e).calls = d.calls ++ [event] := by
    rw [calls, record, List.filterMap_append, List.filterMap_cons, he]
    rfl
  have hne : e ≠ .endpointClose := by
    rintro rfl
    cases he
  refine ⟨fun _ => ⟨[], ?_, .inl rfl⟩, fun hc => absurd (ho.symm.trans hc) (by simp), ?_, ?_, ?_⟩
  · rcases hleft with hleft | ⟨_, reason, others, hst⟩
    · subst hleft
      rw [hev, hsd, hnil]
      show _ = ({ d with stack := tasks }.record e).calls ++
        (segments (.callback :: .apply rest source :: tasks)).reverse.flatten ++ []
      rw [hcalls, hsr]
      split
      · rename_i hn
        simp [hn]
      · simp
    · cases hs.symm.trans hst
  · show List.Pairwise _ (segments (.callback :: .apply rest source :: tasks))
    rw [hsr]
    split
    · exact .nil
    · exact List.pairwise_singleton _ _
  · intro _ hm
    rcases List.mem_append.mp hm with hm | hm
    · exact hclose hm
    · exact hne (List.mem_singleton.mp hm).symm
  · refine List.pairwise_append.mpr ⟨h.cut, List.pairwise_singleton _ _, ?_⟩
    intro a ha _ _ hn
    exact absurd (hn ▸ ha) hclose

/-- The first half of the close, with no call in hand. -/
theorem InTurn.finish {events : List EngineEvent} {reason : Text} {tasks : List Task}
    (h : d.InTurn events) (hs : d.stack = .finish reason :: tasks) (ho : d.closed = false)
    (hturn : ∀ s ∈ segments d.stack, leads s = false) :
    ({ d with stack := tasks }.finish reason).InTurn events := by
  obtain ⟨hst, _, hlog⟩ := finish_status (d := { d with stack := tasks }) reason ho
  have hclosed : ({ d with stack := tasks }.finish reason).closed = true :=
    congrArg Status.closed hst
  have hstack : ({ d with stack := tasks }.finish reason).stack =
      .callback :: .finishRest reason :: tasks := congrArg Status.stack hst
  have hseg : segments ({ d with stack := tasks }.finish reason).stack = segments d.stack := by
    rw [hstack, hs, segments_skip rfl, segments_skip rfl, segments_skip rfl]
  have hes : ∀ e ∈ (if d.timerArmed then [Effect.cancelTimer] else []) ++ [.endpointClose],
      e.answers = none := by
    intro e hm
    rcases List.mem_append.mp hm with hm | hm
    · split at hm
      · exact List.mem_singleton.mp hm ▸ rfl
      · cases hm
    · exact List.mem_singleton.mp hm ▸ rfl
  have hcalls : ({ d with stack := tasks }.finish reason).calls = d.calls := by
    rw [calls, hlog, List.filterMap_append, List.filterMap_eq_nil_iff.mpr hes, List.append_nil]
    rfl
  obtain ⟨left, hev, hleft⟩ := h.open ho
  refine ⟨fun hn => absurd (hclosed.symm.trans hn) nofun, fun _ => ⟨?_, ?_⟩, ?_,
    fun hn => absurd (hclosed.symm.trans hn) nofun, ?_⟩
  · refine ⟨(segments d.stack).reverse.flatten ++ left, by rw [hcalls, hev, List.append_assoc], ?_⟩
    refine leads_flatten (fun s => segments_ne_nil) hturn ?_
    rcases hleft with hleft | hleft
    · exact hleft ▸ rfl
    · exact hleft.1
  · rw [hseg]
    exact hturn
  · rw [hseg]
    exact h.nested
  · rw [hlog]
    exact cut_silent h.cut hes

/-- `Closed` ends the events of a pump. -/
theorem InTurn.stop {events rest : List EngineEvent} {code : Nat} {source : Source}
    {tasks : List Task} {reason : Text} (h : d.InTurn events)
    (hs : d.stack = .apply (.closed code :: rest) source :: tasks) :
    ({ d with stack := tasks }.push [.finish reason]).InTurn events := by
  have hsd : segments d.stack =
      (.closed code :: rest.filter EngineEvent.counts) :: segments tasks := by
    rw [hs, segments_cons]
    exact if_neg (List.cons_ne_nil _ _)
  have hsr : segments ({ d with stack := tasks }.push [.finish reason]).stack = segments tasks :=
    segments_skip (t := .finish reason) rfl
  have hn := h.nested
  rw [hsd, List.pairwise_cons] at hn
  refine ⟨fun ho => ?_, fun hc => ⟨(h.closed hc).1, ?_⟩, hsr ▸ hn.2, h.unclosed, h.cut⟩
  · obtain ⟨left, hev, hleft⟩ := h.open ho
    rcases hleft with hleft | ⟨_, other, others, hst⟩
    · refine ⟨.closed code :: rest.filter EngineEvent.counts, ?_, .inr ⟨rfl, reason, tasks, rfl⟩⟩
      subst hleft
      rw [hsr, hev, hsd]
      simp only [List.reverse_cons, List.flatten_append, List.flatten_cons, List.flatten_nil,
        List.append_nil, List.append_assoc]
      rfl
    · exact nomatch (List.cons.inj (hs.symm.trans hst)).1
  · have hseg := (h.closed hc).2
    rw [hsd] at hseg
    rw [hsr]
    exact fun s hm => hseg s (List.mem_cons_of_mem _ hm)

/-- An event that makes no call and is no `Closed`. -/
theorem InTurn.pass {r : Connection E} {events rest : List EngineEvent} {event : EngineEvent}
    {source : Source} {tasks : List Task} (h : d.InTurn events)
    (hs : d.stack = .apply (event :: rest) source :: tasks) (he : event.counts = false)
    (above : List Task) (hr : r.stack = above ++ .apply rest source :: tasks)
    (ha : ∀ t ∈ above, t.held = []) (hc : r.closed = d.closed)
    (hl : ∃ es, r.log = d.log ++ es ∧ ∀ e ∈ es, e.answers = none ∧ e ≠ .endpointClose) :
    r.InTurn events := by
  refine h.silent hc ?_ hl fun reason others hst => nomatch (List.cons.inj (hs.symm.trans hst)).1
  have hheld : (Task.apply (event :: rest) source).held = (Task.apply rest source).held := by
    rw [Task.held, Task.held, List.filter_cons, he]
    rfl
  rw [hr, hs, segments_above ha, segments_cons, segments_cons, hheld]

/-- A task that holds no events, and is no loop. -/
theorem takes_top {top : Task} {rest : List Task} (hs : d.stack = top :: rest)
    (hd : top ≠ .drainLoop) (hp : top ≠ .pollLoop) (now : F64) : d.takes (.advance now) = [] := by
  rw [takes, hs]
  cases top with
  | drainLoop => exact absurd rfl hd
  | pollLoop => exact absurd rfl hp
  | _ => rfl

/-- Silent code in place of a task that holds no events, with tasks that hold none. -/
theorem InTurn.replace {r : Connection E} {events : List EngineEvent} {top : Task}
    {rest : List Task} (h : d.InTurn events) (hs : d.stack = top :: rest) (ht : top.held = [])
    (hf : ∀ reason, top = .finish reason → d.closed = true) (above : List Task)
    (hr : r.stack = above ++ rest) (ha : ∀ t ∈ above, t.held = []) (hc : r.closed = d.closed)
    (hl : ∃ es, r.log = d.log ++ es ∧ ∀ e ∈ es, e.answers = none ∧ e ≠ .endpointClose) :
    r.InTurn events := by
  refine h.silent hc ?_ hl fun reason tasks hst => hf reason (List.cons.inj (hs.symm.trans hst)).1
  rw [hr, segments_above ha, hs, segments_skip ht]

/-- A method of the handle or a turn of the event loop, with the code it starts. -/
theorem InTurn.enter {m : Connection E} {events : List EngineEvent} (h : d.InTurn events)
    (ho : d.outside = true) (hm : d.Inside m) (above : List Task)
    (ha : ∀ t ∈ above, t.held = []) : (m.push above).InTurn events := by
  refine h.silent hm.closed ?_ hm.silent fun reason tasks hst => ?_
  · show segments (above ++ m.stack) = _
    rw [segments_above ha, hm.stack]
  · rw [outside, hst] at ho
    cases ho

theorem inTurn_of_turn {l : Label} {taken : List EngineEvent} (hturn : d.outOfTurn l = false)
    (ht : d.takes l = taken) (hlead : leads (taken.filter EngineEvent.counts) = true) :
    d.closed = false ∧ segments d.stack = [] := by
  rw [outOfTurn, ht, hlead, Bool.true_and, Bool.or_eq_false_iff, Bool.or_eq_false_iff] at hturn
  simpa using hturn.1

theorem inTurn_step {events : List EngineEvent} (l : Label) (h : d.InTurn events)
    (hraise : l.isRaise = false) (hturn : d.outOfTurn l = false) :
    (d.step l).InTurn (events ++ d.takes l) := by
  have hact := action_step d l
  generalize d.step l = r at hact ⊢
  have plain : d.takes l = [] → r.InTurn events → r.InTurn (events ++ d.takes l) := by
    intro ht hr
    rwa [ht, List.append_nil]
  have self : ∀ rest : List Task, ∃ es, ({ d with stack := rest } : Connection E).log =
      d.log ++ es ∧ ∀ e ∈ es, e.answers = none ∧ e ≠ .endpointClose :=
    fun rest => ⟨[], (List.append_nil _).symm, by simp⟩
  have one : ∀ t : Task, t.held = [] → ∀ x ∈ [t], x.held = [] :=
    fun t ht => List.forall_mem_singleton.mpr ht
  cases hact with
  | nothing _ hn => exact plain (takes_nothing hn) h
  | send data ho hh =>
    obtain ⟨m, hm, hr⟩ := inside_handleSend d data
    refine plain (takes_outside ho _) ?_
    rcases hr with hr | hr
    · rw [hr]
      exact h.enter ho hm [] (by simp)
    · rw [hr]
      exact h.enter ho hm _ (one _ rfl)
  | close ho hh hc =>
    refine plain (takes_outside ho _) (h.enter ho ((Inside.refl d).call _ _) _ ?_)
    exact List.forall_mem_cons.mpr ⟨rfl, one _ rfl⟩
  | stats ho hh =>
    exact plain (takes_outside ho _) (h.enter ho (inside_handleStats d) [] (by simp))
  | error message ho => exact plain (takes_outside ho _) (h.enter ho (.refl d) _ (one _ rfl))
  | feed _ m hi hm hf =>
    have ho := outside_of_idle hi
    exact plain (takes_outside ho _) (h.enter ho hm _ (one _ rfl))
  | wait _ m hi hm hw =>
    have ho := outside_of_idle hi
    exact plain (takes_outside ho _) (h.enter ho hm [] (by simp))
  | resume hi hp =>
    refine plain (takes_outside (outside_of_idle hi) _) ?_
    refine h.silent rfl rfl (self d.stack) fun reason tasks hst => ?_
    rw [idle, hst] at hi
    cases hi
  | ret rest hs => exact plain rfl (h.replace hs rfl (by simp) [] rfl (by simp) rfl (self rest))
  | raise => cases hraise
  | idles now task rest hs ht =>
    have hheld : task.held = [] := by cases ht <;> rfl
    have htakes : d.takes (.advance now) = [] := by
      rw [takes, hs]
      cases ht with
      | drainLoop ht =>
        rcases ht with ht | ht
        · exact if_pos ht
        · simp only [ht, Option.map_none, Option.getD_none, ite_self]
      | _ => rfl
    refine plain htakes (h.replace hs hheld ?_ [] rfl (by simp) rfl (self rest))
    rintro reason rfl
    cases ht with
    | finish _ hc => exact hc
  | pump now rest hs hc =>
    have hm := inside_pumpHead { d with stack := rest } now
    refine plain (takes_top hs (by simp) (by simp) now) ?_
    refine h.replace hs rfl (by simp) [d.pumpLoop] (congrArg (d.pumpLoop :: ·) hm.stack) (one _ ?_)
      hm.closed hm.silent
    unfold pumpLoop
    split <;> rfl
  | drain now taken engine short rest hs hc hd hshort =>
    obtain ⟨drain, hd, hr⟩ := hd
    have htakes : d.takes (.advance now) = taken := by
      rw [takes, hs]
      simp only [hc, hd, Bool.false_eq_true, if_false, Option.map_some, Option.getD_some, hr]
    have hinside : Inside { d with stack := rest } ({ d with stack := rest }.call .drainEvents engine) :=
      (Inside.refl _).call .drainEvents engine
    rw [htakes]
    exact h.take hs rfl (by simp) rfl rfl hinside.silent (inTurn_of_turn hturn htakes)
  | poll now event engine rest hs hp he =>
    have htakes : d.takes (.advance now) = [event] := by
      rw [takes, hs]
      simp only [hp, if_neg he]
    have hinside : Inside { d with stack := rest } ({ d with stack := rest }.call .pollEvent engine) :=
      (Inside.refl _).call .pollEvent engine
    rw [htakes]
    exact h.take hs rfl (by simp) rfl rfl hinside.silent (inTurn_of_turn hturn htakes)
  | pollNone now engine rest hs hp =>
    have htakes : d.takes (.advance now) = [] := by
      rw [takes, hs]
      simp only [hp, if_true]
    have hinside : Inside { d with stack := rest } ({ d with stack := rest }.call .pollEvent engine) :=
      (Inside.refl _).call .pollEvent engine
    exact plain htakes (h.replace hs rfl (by simp) [] rfl (by simp) rfl hinside.silent)
  | apply now event left source tasks hs =>
    refine plain (takes_top hs (by simp) (by simp) now) ?_
    cases event with
    | datagram data => exact h.answer (e := .endpointSend data) hs rfl rfl
    | message data => exact h.answer (e := .onPacket data) hs rfl rfl
    | closed code => exact h.stop hs
    | none => exact h.pass hs rfl [] rfl (by simp) rfl (self tasks)
    | opened =>
      unfold applyEvent
      dsimp only
      split
      · exact h.pass hs rfl [] rfl (by simp) rfl (self tasks)
      · refine h.pass hs rfl [.callback, .settleOpen] rfl ?_ rfl ?_
        · exact List.forall_mem_cons.mpr ⟨rfl, one _ rfl⟩
        · exact ⟨[.onOpen], rfl, List.forall_mem_singleton.mpr ⟨rfl, by simp⟩⟩
  | loop now source loop rest hs hl =>
    refine plain (takes_top hs (by simp) (by simp) now) ?_
    refine h.replace hs rfl (by simp) [loop] rfl (one _ ?_) rfl (self rest)
    rcases source with (_ | _) | _ <;> cases hl <;> rfl
  | settleOpen now rest hs =>
    refine plain (takes_top hs (by simp) (by simp) now) ?_
    obtain ⟨hst, _, hlog⟩ := settle_status (d := { d with stack := rest }) .resolved
    exact h.replace hs rfl (by simp) [] (congrArg Status.stack hst) (by simp) (congrArg Status.closed hst)
      ⟨[], hlog.trans (List.append_nil _).symm, by simp⟩
  | finish now reason rest hs hc =>
    refine plain (takes_top hs (by simp) (by simp) now) (h.finish hs hc fun s hm => ?_)
    have hcloses : d.closes (.advance now) = true := by
      rw [closes, hs]
      simp only [hc, Bool.not_false]
    rw [outOfTurn, hcloses, Bool.true_and, Bool.or_eq_false_iff, List.any_eq_false] at hturn
    simpa using hturn.2 s hm
  | finishRest now reason rest hs =>
    refine plain (takes_top hs (by simp) (by simp) now) ?_
    obtain ⟨hst, _, hlog⟩ := finishRest_status (d := { d with stack := rest }) reason
    by_cases ho : d.opened = true
    · have ho' : ({ d with stack := rest } : Connection E).opened = true := ho
      rw [if_pos ho'] at hst hlog
      refine h.replace hs rfl (by simp) [.callback] (congrArg Status.stack hst) (one _ rfl)
        (congrArg Status.closed hst) ⟨_, hlog, ?_⟩
      exact List.forall_mem_cons.mpr ⟨⟨rfl, by simp⟩, List.forall_mem_singleton.mpr ⟨rfl, by simp⟩⟩
    · have ho' : ¬ ({ d with stack := rest } : Connection E).opened = true := ho
      rw [if_neg ho'] at hst hlog
      exact h.replace hs rfl (by simp) [] (congrArg Status.stack hst) (by simp)
        (congrArg Status.closed hst) ⟨_, hlog, List.forall_mem_singleton.mpr ⟨rfl, by simp⟩⟩
  | executorRest now rest hs =>
    refine plain (takes_top hs (by simp) (by simp) now) ?_
    obtain ⟨hst, _, hlog⟩ := executorRest_status (d := { d with stack := rest })
    exact h.replace hs rfl (by simp) [] (congrArg Status.stack hst) (by simp) (congrArg Status.closed hst)
      ⟨[], hlog.trans (List.append_nil _).symm, by simp⟩

theorem inTurn_run {events : List EngineEvent} {labels : List Label} (h : d.InTurn events)
    (hraise : ∀ l ∈ labels, l.isRaise = false)
    (hturn : Meets step (fun d l => d.outOfTurn l = false) d labels) :
    (run step d labels).InTurn (events ++ d.handedOut labels) := by
  induction labels generalizing d events with
  | nil => exact (List.append_nil events).symm ▸ h
  | cons l labels ih =>
    obtain ⟨hl, hraise⟩ := List.forall_mem_cons.mp hraise
    rw [run_cons, handedOut, ← List.append_assoc]
    exact ih (inTurn_step l h hl hturn.1) hraise hturn.2

theorem calls_isCall (d : Connection E) : ∀ e ∈ d.calls, e.isCall = true := by
  intro event hm
  obtain ⟨e, _, he⟩ := List.mem_filterMap.mp hm
  cases e with
  | endpointSend data => exact Option.some.inj he ▸ rfl
  | onPacket data => exact Option.some.inj he ▸ rfl
  | _ => cases he

/-- In turn, the calls are those of the events, -/
theorem InTurn.order {events : List EngineEvent} (h : d.InTurn events) : d.calls <+: seen events := by
  have hcall := calls_isCall d
  cases hc : d.closed with
  | true =>
    obtain ⟨rest, hev, _⟩ := (h.closed hc).1
    exact (seen_of_counts hev hcall).1
  | false =>
    obtain ⟨rest, hev, _⟩ := h.open hc
    rw [List.append_assoc] at hev
    exact (seen_of_counts hev hcall).1

/-- and of all of them between turns. -/
theorem InTurn.settled {events : List EngineEvent} (h : d.InTurn events) (hi : d.idle = true) :
    d.calls = seen events := by
  have hcall := calls_isCall d
  cases hc : d.closed with
  | true =>
    obtain ⟨rest, hev, hrest⟩ := (h.closed hc).1
    exact (seen_of_counts hev hcall).2 hrest
  | false =>
    obtain ⟨rest, hev, hrest⟩ := h.open hc
    rw [List.append_assoc] at hev
    refine (seen_of_counts hev hcall).2 ?_
    have hstack : d.stack = [] := List.isEmpty_iff.mp hi
    rcases hrest with hrest | ⟨_, reason, tasks, hst⟩
    · rw [hstack, hrest]
      rfl
    · exact absurd (hstack.symm.trans hst) nofun

end Connection

end RtcTunnel.Driver
