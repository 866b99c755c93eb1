import RtcTunnel.Driver.Deferral
import RtcTunnel.Driver.History

/-!
# Events in engine order

The queue of an engine grows behind the events that wait in it, and the driver takes them off
its front. So the calls of a run answer all that the engine has queued, in its order, however
the driver takes it.
-/

namespace RtcTunnel.Driver

open RtcTunnel.Core
open RtcTunnel.Base.Run

set_option autoImplicit false

/-- **What is assumed of the engine** with this queue: it queues events behind those that wait,
and what `drainEvents` hands out is the front of the queue. -/
structure Fifo {E : EngineApi} (Q : EventQueue E) : Prop where
  feed : ∀ {s t}, E.Feed s t → Q.events s <+: Q.events t
  send : ∀ s data, Q.events s <+: Q.events (E.send s data).2
  close : ∀ s, Q.events s <+: Q.events (E.close s)
  drain : ∀ f, E.drainEvents = some f → ∀ s size,
    Q.events s = (f s size).1 ++ Q.events (f s size).2

variable {E : EngineApi} {Q : EventQueue E}

/-- What a call hands out and leaves behind starts with what waited before it. -/
theorem EngineApi.Made.fifo (hQ : Fifo Q) {now size : F64} {s t : E.State} {e : Effect}
    {out : List EngineEvent} (h : E.Made now size s e out t) (he : e ≠ .dispose) :
    Q.events s <+: out ++ Q.events t := by
  have kept : ∀ {r : E.State}, Q.events r = Q.events s → Q.events s <+: [] ++ Q.events r :=
    fun hr => hr ▸ List.prefix_refl _
  cases h with
  | input data => exact hQ.feed (.input now data)
  | inputDeferred hf data => exact hQ.feed (.inputDeferred hf now data)
  | finishInputBatch hf => exact hQ.feed (.finishInputBatch hf)
  | tick => exact hQ.feed (.tick now)
  | send packet => exact hQ.send s packet.data
  | nextDeadline => exact kept (Q.nextDeadline s)
  | close => exact hQ.close s
  | bufferedBytes hf => exact kept (Q.bufferedBytes _ hf s)
  | droppedDatagrams hf => exact kept (Q.droppedDatagrams _ hf s)
  | negotiatedCipherSuite hf => exact kept (Q.negotiatedCipherSuite _ hf s)
  | dispose => exact absurd rfl he
  | apart => exact List.prefix_refl _
  | drainEvents hf => exact hQ.drain _ hf s size ▸ List.prefix_refl _
  | pollEvent =>
    cases hev : Q.events s with
    | nil => exact List.nil_prefix
    | cons event events =>
      obtain ⟨hpoll, hrest⟩ := Q.pollCons s event events hev
      have hne : event ≠ .none := by
        rintro rfl
        exact Q.real s (hev ▸ List.mem_cons_self ..)
      rw [hpoll, if_neg hne, hrest]
      exact List.prefix_refl _

theorem EngineApi.History.fifo (hQ : Fifo Q) {now size : F64} {s t : E.State} {es : List Effect}
    {out : List EngineEvent} (h : E.History now size s es out t) (he : .dispose ∉ es) :
    Q.events s <+: out ++ Q.events t := by
  induction h with
  | nil => exact List.prefix_refl _
  | cons h hs ih =>
    have hrest := ih fun hm => he (List.mem_cons_of_mem _ hm)
    have hfirst := h.fifo hQ fun hd => he (hd ▸ List.mem_cons_self ..)
    rw [List.append_assoc]
    exact hfirst.trans ((List.prefix_append_right_inj _).mpr hrest)

theorem seen_mono {events more : List EngineEvent} (h : events <+: more) :
    seen events <+: seen more := by
  obtain ⟨rest, rfl⟩ := h
  unfold seen
  rw [List.takeWhile_append]
  split
  · rename_i hall
    rw [(List.takeWhile_prefix _).eq_of_length hall, List.filter_append]
    exact List.prefix_append _ _
  · exact List.prefix_refl _

/-- Nothing is seen behind a `Closed`. -/
theorem seen_append {events : List EngineEvent} (h : events.any EngineEvent.isClosed = true)
    (more : List EngineEvent) : seen (events ++ more) = seen events := by
  unfold seen
  rw [List.takeWhile_append, if_neg]
  intro hlen
  have hall := List.takeWhile_eq_self_iff.mp ((List.takeWhile_prefix _).eq_of_length hlen)
  obtain ⟨e, hm, he⟩ := List.any_eq_true.mp h
  exact absurd he (by simpa using hall e hm)

namespace Connection

variable {d : Connection E}

/-- The events that the engine queues in a step of an open connection, taken off again or not. -/
def emits (Q : EventQueue E) (d : Connection E) (l : Label) : List EngineEvent :=
  if d.closed then []
  else (d.takes l ++ Q.events (d.step l).engine).drop (Q.events d.engine).length

/-- **The engine's sequence**: all that it has queued, up to the close of the connection. -/
def emitted (Q : EventQueue E) (d : Connection E) (labels : List Label) : List EngineEvent :=
  Q.events d.engine ++ outputs step (emits Q) d labels

/-- The events that a step of an open connection takes off the engine. -/
def collects (d : Connection E) (l : Label) : List EngineEvent := if d.closed then [] else d.takes l

/-- What the driver takes of the engine's sequence. -/
def collected (d : Connection E) (labels : List Label) : List EngineEvent :=
  outputs step collects d labels

/-- No code of the driver is running, and no pump is to come that would take events: none is
scheduled, or the engine has closed the connection. -/
structure Settled (d : Connection E) (labels : List Label) : Prop where
  idle : (run step d labels).idle = true
  caught : (run step d labels).closed = false ∧ (run step d labels).outboundScheduled = false ∨
    (d.collected labels).any EngineEvent.isClosed = true

/-- **The calls are those of the engine's sequence**, in its order, up to the close. A pump may be
behind at first, but does not stay so, and nothing is cut off but what it had not taken when
the connection closed. -/
structure EngineOrder (Q : EventQueue E) (d : Connection E) (labels : List Label) : Prop where
  order : (run step d labels).calls <+: seen (d.emitted Q labels)
  settled : d.Settled labels → (run step d labels).calls = seen (d.emitted Q labels)
  front : d.collected labels <+: d.emitted Q labels
  idle : (run step d labels).idle = true → (run step d labels).calls = seen (d.collected labels)
  cut : (run step d labels).log.Pairwise fun a b => a = .endpointClose → b.answers = none

theorem disposed_turn {r : Connection E} {l : Label} (h : d.Ledger) (ht : Turn d l r)
    (hc : d.closed = false) : r.disposed = d.disposed := by
  cases ht with
  | inert _ r closed disposed => exact disposed
  | flush _ m rest loop hs hopen hb hm => exact (sends_flushFrom m.queue m).disposed.trans hm.disposed
  | send data => exact (sends_handleSend d data).disposed
  | finish _ reason rest hs hopen => exact (finish_open rest reason hopen).2.1
  | finishRest _ reason rest hs => exact absurd (hc.symm.trans (h.closing hs)) Bool.false_ne_true

/-- A step takes from the front of the queue, and the engine queues behind it. -/
theorem emits_step (hQ : Fifo Q) (h : d.Ledger) (l : Label) (hc : d.closed = false) :
    Q.events d.engine ++ d.emits Q l = d.takes l ++ Q.events (d.step l).engine := by
  obtain ⟨hlog, hmade⟩ := log_step d l
  have hnot : .dispose ∉ d.logs l := by
    intro hm
    have hd : (d.step l).disposed = true :=
      (ledger_turn (turn_step d l) h).disposed.mpr (hlog ▸ List.mem_append_right _ hm)
    rw [disposed_turn h (turn_step d l) hc] at hd
    exact absurd (hc.symm.trans (h.closed hd)) Bool.false_ne_true
  obtain ⟨new, hnew⟩ := hmade.fifo hQ hnot
  rw [emits, if_neg (by rw [hc]; exact Bool.false_ne_true), ← hnew, List.drop_left]

theorem closed_later (l : Label) (hc : d.closed = true) : (d.step l).closed = true :=
  (later_step d l).closed hc

/-- What was taken is the front of the engine's sequence, and the rest of it waits until the
close. -/
theorem emitted_run (hQ : Fifo Q) (h : d.Ledger) (labels : List Label) :
    ∃ rest, d.emitted Q labels = d.collected labels ++ rest ∧
      ((run step d labels).closed = false → rest = Q.events (run step d labels).engine) := by
  induction labels generalizing d with
  | nil => exact ⟨Q.events d.engine, List.append_nil _, fun _ => rfl⟩
  | cons l labels ih =>
    cases hc : d.closed with
    | true =>
      have nothing : ∀ out : Connection E → Label → List EngineEvent,
          (∀ s l, s.closed = true → out s l = []) → outputs step out d (l :: labels) = [] :=
        fun out hout => outputs_eq_nil (J := fun s : Connection E => s.closed = true)
          (fun _ l => closed_later l) hout hc _
      have hemits := nothing (emits Q) fun _ _ hc => if_pos hc
      have hcollects : d.collected (l :: labels) = [] := nothing collects fun _ _ hc => if_pos hc
      refine ⟨Q.events d.engine, by rw [emitted, hemits, hcollects, List.append_nil]; rfl, ?_⟩
      have hend : (run step d (l :: labels)).closed = true :=
        invariant (I := fun d : Connection E => d.closed = true) (fun _ l => closed_later l) _ hc
      exact fun ho => absurd (ho.symm.trans hend) Bool.false_ne_true
    | false =>
      obtain ⟨rest, heq, hrest⟩ := ih (ledger_turn (turn_step d l) h)
      have hcollects : d.collects l = d.takes l := by rw [collects, hc]; rfl
      refine ⟨rest, ?_, hrest⟩
      calc d.emitted Q (l :: labels)
          = (Q.events d.engine ++ d.emits Q l) ++ outputs step (emits Q) (d.step l) labels :=
            (List.append_assoc ..).symm
        _ = d.takes l ++ (d.step l).emitted Q labels := by
            rw [emits_step hQ h l hc, List.append_assoc, emitted]
        _ = d.takes l ++ ((d.step l).collected labels ++ rest) := by rw [heq]
        _ = d.collected (l :: labels) ++ rest := by
            rw [← List.append_assoc, ← hcollects]
            rfl

/-- Once closed, a connection in turn makes no more calls, whatever it still takes. -/
theorem InTurn.ignore {events : List EngineEvent} {l : Label} (h : d.InTurn events)
    (hturn : d.outOfTurn l = false) (hc : d.closed = true)
    (h' : (d.step l).InTurn (events ++ d.takes l)) : (d.step l).InTurn events := by
  have hclosed := closed_later l hc
  obtain ⟨⟨rest, hev, hrest⟩, _⟩ := h.closed hc
  obtain ⟨⟨rest', hev', _⟩, hseg⟩ := h'.closed hclosed
  obtain ⟨more, hmore⟩ : ∃ more, (d.step l).calls = d.calls ++ more := by
    rw [calls, (log_step d l).1, List.filterMap_append]
    exact ⟨_, rfl⟩
  have htakes : leads ((d.takes l).filter EngineEvent.counts) = false := by
    rw [outOfTurn, hc, Bool.true_or, Bool.and_true, Bool.or_eq_false_iff] at hturn
    exact hturn.1
  have hleads : leads (rest ++ (d.takes l).filter EngineEvent.counts) = false := by
    cases rest with
    | nil => exact htakes
    | cons e rest => exact hrest
  have hnil : more = [] := by
    have heq : rest ++ (d.takes l).filter EngineEvent.counts = more ++ rest' := by
      rw [List.filter_append, hev, hmore, List.append_assoc, List.append_assoc] at hev'
      exact List.append_cancel_left hev'
    cases more with
    | nil => rfl
    | cons e more =>
      have he : e.isCall = true := calls_isCall (d.step l) e (hmore ▸ by simp)
      rw [heq] at hleads
      exact absurd (he.symm.trans hleads) Bool.false_ne_true.symm
  rw [hnil, List.append_nil] at hmore
  exact
    { «open» := fun ho => absurd (ho.symm.trans hclosed) Bool.false_ne_true
      closed := fun _ => ⟨⟨rest, by rw [hev, hmore], hrest⟩, hseg⟩
      nested := h'.nested
      unclosed := h'.unclosed
      cut := h'.cut }

theorem inTurn_collected {events : List EngineEvent} {labels : List Label} (h : d.InTurn events)
    (hraise : ∀ l ∈ labels, l.isRaise = false)
    (hturn : Meets step (fun d l => d.outOfTurn l = false) d labels) :
    (run step d labels).InTurn (events ++ d.collected labels) := by
  induction labels generalizing d events with
  | nil => exact (List.append_nil events).symm ▸ h
  | cons l labels ih =>
    obtain ⟨hl, hraise⟩ := List.forall_mem_cons.mp hraise
    have hnext : (d.step l).InTurn (events ++ d.collects l) := by
      have hs := inTurn_step l h hl hturn.1
      unfold collects
      split
      · rename_i hc
        rw [List.append_nil]
        exact h.ignore hturn.1 hc hs
      · exact hs
    have hall := ih hnext hraise hturn.2
    rwa [List.append_assoc] at hall

variable {options : ResolvedOptions}

/-- Where no pump is to come, the engine has nothing left that would be seen. -/
theorem seen_emitted (hQ : Fifo Q) (hsize : WholeOrOff options) {engine : E.State}
    {labels : List Label} (hraise : ∀ l ∈ labels, l.isRaise = false)
    (hs : (start options engine).Settled labels) :
    seen ((start options engine).emitted Q labels) = seen ((start options engine).collected labels) ∧
      ((run step (start options engine) labels).closed = false →
        (run step (start options engine) labels).outboundScheduled = false →
        (start options engine).emitted Q labels = (start options engine).collected labels) := by
  obtain ⟨rest, heq, hrest⟩ := emitted_run hQ (ledger_start options engine) labels
  have hopen : (run step (start options engine) labels).closed = false →
      (run step (start options engine) labels).outboundScheduled = false →
      (start options engine).emitted Q labels = (start options engine).collected labels := by
    intro hc ho
    have hnone : Q.events (run step (start options engine) labels).engine = [] := by
      rcases (tidy_run hsize Q engine labels hraise).drained with h | h | ⟨t, hm, _⟩ | h
      · exact absurd (hc.symm.trans h) Bool.false_ne_true
      · exact absurd (ho.symm.trans h) Bool.false_ne_true
      · rw [List.isEmpty_iff.mp hs.idle] at hm
        cases hm
      · exact h
    rw [heq, hrest hc, hnone, List.append_nil]
  refine ⟨?_, hopen⟩
  rcases hs.caught with ⟨hc, ho⟩ | hclosed
  · rw [hopen hc ho]
  · rw [heq, seen_append hclosed]

theorem engineOrder_run (hQ : Fifo Q) (hsize : WholeOrOff options) (engine : E.State)
    {labels : List Label} (hraise : ∀ l ∈ labels, l.isRaise = false)
    (hturn : Meets step (fun d l => d.outOfTurn l = false) (start options engine) labels) :
    (start options engine).EngineOrder Q labels := by
  have h := inTurn_collected (inTurn_start options engine) hraise hturn
  rw [List.nil_append] at h
  obtain ⟨rest, heq, _⟩ := emitted_run hQ (ledger_start options engine) labels
  have hfront : (start options engine).collected labels <+: (start options engine).emitted Q labels :=
    ⟨rest, heq.symm⟩
  exact
    { order := h.order.trans (seen_mono hfront)
      settled := fun hs => (h.settled hs.idle).trans (seen_emitted hQ hsize hraise hs).1.symm
      front := hfront
      idle := h.settled
      cut := h.cut }

/-- **Events in engine order.** While no pump takes events to apply over what an outer one
has in hand or behind the close, and none is closed over, a run calls `endpoint.send` and
`onPacket` for the datagrams and messages that the engine queues, in their order, up to the
close. Two such runs whose engines queue the same make the same calls, and take the same
events if neither closes, be they batched or polled. -/
theorem events_in_order (hQ : Fifo Q) (options : ResolvedOptions) (hsize : WholeOrOff options)
    (engine : E.State) (labels : List Label) (hraise : ∀ l ∈ labels, l.isRaise = false)
    (hturn : Meets step (fun d l => d.outOfTurn l = false) (start options engine) labels) :
    (start options engine).EngineOrder Q labels ∧
      ∀ {F : EngineApi} {Q' : EventQueue F} (options' : ResolvedOptions) (engine' : F.State)
        (labels' : List Label), Fifo Q' → WholeOrOff options' →
        (∀ l ∈ labels', l.isRaise = false) →
        Meets step (fun d l => d.outOfTurn l = false) (start options' engine') labels' →
        (start options' engine').emitted Q' labels' = (start options engine).emitted Q labels →
        (start options engine).Settled labels → (start options' engine').Settled labels' →
        (run step (start options' engine') labels').calls =
            (run step (start options engine) labels).calls ∧
          ((run step (start options engine) labels).Quiet →
            (run step (start options' engine') labels').Quiet →
            (start options' engine').collected labels' = (start options engine).collected labels) := by
  have h := engineOrder_run hQ hsize engine hraise hturn
  refine ⟨h, fun options' engine' labels' hQ' hsize' hraise' hturn' hsame hs hs' => ⟨?_, ?_⟩⟩
  · have h' := engineOrder_run hQ' hsize' engine' hraise' hturn'
    rw [h'.settled hs', h.settled hs, hsame]
  · intro hq hq'
    have hall := (seen_emitted hQ hsize hraise hs).2 hq.open hq.outbound
    have hall' := (seen_emitted hQ' hsize' hraise' hs').2 hq'.open hq'.outbound
    rw [← hall', ← hall, hsame]

end Connection

namespace Script

/-- The queue of the engine that answers what it sends. -/
def echoQueue : EventQueue echo where
  events (s : State) := s.events
  real (s : State) := s.real
  pollNil (s : State) h := by
    refine ⟨?_, ?_⟩
    · show s.events.headD .none = .none
      rw [h]
      rfl
    · show s.events.drop 1 = []
      rw [h]
      rfl
  pollCons (s : State) e es h := by
    refine ⟨?_, ?_⟩
    · show s.events.headD .none = e
      rw [h]
      rfl
    · show s.events.drop 1 = es
      rw [h]
      rfl
  drainEvents drain hd (s : State) size _ _ _ := by
    cases hd
    exact ⟨rfl, rfl⟩
  nextDeadline _ := rfl
  send (s : State) data hr := by
    have hcode : ¬ (s.send data).1 = sendAccepted := hr
    show (if (s.send data).1 = sendAccepted then _ else (s.send data).2).events = s.events
    rw [if_neg hcode]
    unfold State.send at hcode ⊢
    split
    · rename_i hroom
      exact absurd (by rw [if_pos hroom]) hcode
    · rfl
  negotiatedCipherSuite := nofun
  bufferedBytes f hf s := by
    cases hf
    rfl
  droppedDatagrams := nofun

theorem input_events (s : State) (data : Bytes) : s.events <+: (s.input data).events := by
  unfold State.input
  split
  · exact List.prefix_append _ _
  · exact List.prefix_append _ _
  · exact List.prefix_append _ _
  · exact List.prefix_refl _
  · exact List.prefix_refl _

theorem send_events (s : State) (data : Bytes) : (s.send data).2.events = s.events := by
  unfold State.send
  split <;> rfl

theorem echo_fifo : Fifo echoQueue where
  feed {s t} h := by
    cases h with
    | input now data => exact input_events s data
    | inputDeferred h => cases h
    | finishInputBatch h => cases h
    | tick now => exact List.prefix_refl _
  send (s : State) data := by
    show s.events <+: (if (s.send data).1 = sendAccepted then (s.send data).2.raise [.datagram data]
      (by simp) else (s.send data).2).events
    split
    · exact send_events s data ▸ List.prefix_append _ _
    · exact send_events s data ▸ List.prefix_refl _
  close s := List.prefix_append _ _
  drain f hf (s : State) size := by
    cases hf
    exact (List.take_append_drop size.whole s.events).symm

end Script

namespace Connection

/-- Two messages arrive, and the caller answers the first from its `onPacket`. -/
def answered : List Label :=
  Script.opening ++ [.datagram (.finite 0) [1, 7, 8]] ++ Script.steps 3 ++ [.send [5]] ++
    Script.settle

/-- Batches, with the pump of a send put off. -/
def deferred : ResolvedOptions := { Script.batched with sendBatch := .macrotask }

/-- The same, up to the flush that the answer waits for. -/
def answeredLater : List Label := answered ++ [.flushOutbound] ++ Script.settle

/-- Polled, the answer leaves behind the second message; and so it does in batches where it
waits for a pump of its own. -/
theorem events_in_order_polled :
    (Script.echoing Script.single).EngineOrder Script.echoQueue answered ∧
      (run step (Script.echoing Script.single) answered).calls =
        [.message [7], .message [8], .datagram [5]] ∧
      (run step (Script.echoing deferred) answeredLater).calls =
        (run step (Script.echoing Script.single) answered).calls := by
  have h := events_in_order (E := Script.echo) Script.echo_fifo Script.single (fun hp => absurd hp (by decide +kernel))
    Script.State.empty answered (by decide +kernel) (by decide +kernel)
  refine ⟨h.1, by decide +kernel, ?_⟩
  have hturn : Meets step (fun d l => d.outOfTurn l = false) (Script.echoing deferred)
      answeredLater := by decide +kernel
  have hsame : (Script.echoing deferred).emitted Script.echoQueue answeredLater =
      (Script.echoing Script.single).emitted Script.echoQueue answered := by decide +kernel
  have hs : (Script.echoing Script.single).Settled answered :=
    ⟨by decide +kernel, .inl ⟨by decide +kernel, by decide +kernel⟩⟩
  have hs' : (Script.echoing deferred).Settled answeredLater :=
    ⟨by decide +kernel, .inl ⟨by decide +kernel, by decide +kernel⟩⟩
  exact (h.2 (F := Script.echo) deferred Script.State.empty answeredLater Script.echo_fifo
    (fun _ => ⟨by decide +kernel, by decide +kernel⟩) (by decide +kernel) hturn hsame hs hs').1

/-- In a batch, it is the nested pump that takes the answer off the engine; and a close from
`onPacket` does not keep the rest of the batch from being delivered. -/
theorem answered_out_of_order :
    (run step (Script.echoing Script.batched) answered).calls =
        [.message [7], .datagram [5], .message [8]] ∧
      seen ((Script.echoing Script.batched).emitted Script.echoQueue answered) =
        [.message [7], .message [8], .datagram [5]] ∧
      ¬ (Script.echoing Script.batched).EngineOrder Script.echoQueue answered ∧
      ¬ (Script.echoing Script.batched).EngineOrder Script.echoQueue (Script.opening ++
          [.datagram (.finite 0) [1, 7, 8]] ++ Script.steps 3 ++ [.close] ++ Script.settle) := by
  refine ⟨by decide +kernel, by decide +kernel, fun h => ?_, fun h => ?_⟩
  · have hs : (Script.echoing Script.batched).Settled answered :=
      ⟨by decide +kernel, .inl ⟨by decide +kernel, by decide +kernel⟩⟩
    exact absurd (h.settled hs) (by decide +kernel)
  · exact absurd h.cut (by decide +kernel)

end Connection

end RtcTunnel.Driver
