import RtcTunnel.Driver.Frame
import RtcTunnel.Driver.Script

/-!
# The order of sends

Two paths lead into the engine: the direct call in `handle.send`, and the flush
of the queue in `pump`. The flush hands over the queue from its front. The direct
call does not look at the queue.
-/

namespace RtcTunnel.Driver

open RtcTunnel.Core
open RtcTunnel.Base.Run

set_option autoImplicit false

/-- The message that the engine accepts. -/
def Effect.accepts : Effect → Option Packet
  | .engine (.send packet result) => if result = sendAccepted then some packet else none
  | _ => none

/-- The message that `handle.send` takes: it reached the engine or the queue. -/
def Effect.takes : Effect → Option Packet
  | .sent packet .accepted => some packet
  | .sent packet .queued => some packet
  | _ => none

theorem Effect.accepts_of_inert {e : Effect} (h : e.inert = true) : e.accepts = none := by
  cases e with
  | engine c =>
    cases c with
    | send packet result => cases h
    | _ => rfl
  | _ => rfl

theorem Effect.takes_of_inert {e : Effect} (h : e.inert = true) : e.takes = none := by
  cases e with
  | sent packet outcome => cases h
  | _ => rfl

namespace Connection

variable {E : EngineApi}

/-- What the engine accepted, in the order it did. -/
def accepted (d : Connection E) : List Packet := d.log.filterMap Effect.accepts

/-- What `handle.send` took, in the order of the calls. -/
def taken (d : Connection E) : List Packet := d.log.filterMap Effect.takes

/-- The engine has the front of what was taken and the queue has the rest. -/
def InOrder (d : Connection E) : Prop := d.accepted ++ d.queue = d.taken

instance (d : Connection E) : Decidable d.InOrder := inferInstanceAs (Decidable (_ = _))

/-- What a step adds to the two histories and makes of the queue. -/
structure Moves (d r : Connection E) (accepts takes queue : List Packet) : Prop where
  accepted : r.accepted = d.accepted ++ accepts
  taken : r.taken = d.taken ++ takes
  queue : r.queue = queue

theorem moves_of_log {d r : Connection E} {queue : List Packet} (es : List Effect)
    (hl : r.log = d.log ++ es) (hq : r.queue = queue) :
    d.Moves r (es.filterMap Effect.accepts) (es.filterMap Effect.takes) queue := by
  refine ⟨?_, ?_, hq⟩
  · rw [accepted, hl, List.filterMap_append, accepted]
  · rw [taken, hl, List.filterMap_append, taken]

theorem moves_inert {d r : Connection E} (hq : r.queue = d.queue)
    (hl : ∃ es, r.log = d.log ++ es ∧ ∀ e ∈ es, e.inert = true) : d.Moves r [] [] d.queue := by
  obtain ⟨es, hlog, he⟩ := hl
  have hm := moves_of_log es hlog hq
  have ha : es.filterMap Effect.accepts = [] :=
    List.filterMap_eq_nil_iff.mpr fun e h => Effect.accepts_of_inert (he e h)
  have ht : es.filterMap Effect.takes = [] :=
    List.filterMap_eq_nil_iff.mpr fun e h => Effect.takes_of_inert (he e h)
  rwa [ha, ht] at hm

/-- The flush moves a front of the queue into the engine and nothing else. -/
theorem moves_flushFrom (hE : AcceptsOrWaits E) (queue : List Packet) (d : Connection E)
    (hq : d.queue = queue) :
    ∃ front rest, queue = front ++ rest ∧ d.Moves (flushFrom queue d) front [] rest := by
  induction queue generalizing d with
  | nil =>
    refine ⟨[], [], rfl, ?_⟩
    exact moves_of_log [] (List.append_nil _).symm hq
  | cons next rest ih =>
    rcases hE d.engine next.data with hr | hr
    · have hstep : flushFrom (next :: rest) d = flushFrom rest
          ((d.call (.send next sendAccepted) (E.send d.engine next.data).2).shift next rest) := by
        rw [flushFrom, hr]
        rfl
      have hc := moves_of_log (d := d)
        (r := (d.call (.send next sendAccepted) (E.send d.engine next.data).2).shift next rest)
        [.engine (.send next sendAccepted)] rfl rfl
      obtain ⟨front, tail, hsplit, hm⟩ := ih _ hc.queue
      refine ⟨next :: front, tail, by rw [hsplit, List.cons_append], ?_⟩
      rw [hstep]
      refine ⟨?_, ?_, hm.queue⟩
      · rw [hm.accepted, hc.accepted, List.append_assoc]
        rfl
      · rw [hm.taken, hc.taken, List.append_assoc]
        rfl
    · have hstep : flushFrom (next :: rest) d =
          d.call (.send next sendBackpressure) (E.send d.engine next.data).2 := by
        rw [flushFrom, hr]
        rfl
      refine ⟨[], next :: rest, rfl, ?_⟩
      rw [hstep]
      exact moves_of_log [.engine (.send next sendBackpressure)] rfl hq

/-- The message of the next `handle.send`. -/
def packet (d : Connection E) (data : Bytes) : Packet := ⟨d.sends, data⟩

theorem schedulePump_kept (d : Connection E) : d.schedulePump.log = d.log ∧
    d.schedulePump.queue = d.queue ∧ d.schedulePump.sends = d.sends ∧
    d.schedulePump.closed = d.closed ∧ d.schedulePump.options = d.options := by
  unfold schedulePump
  split <;> exact ⟨rfl, rfl, rfl, rfl, rfl⟩

/-- The direct call: the engine accepts, whatever waits in the queue. -/
theorem moves_accepted {d : Connection E} {data : Bytes} (hc : d.closed = false)
    (ho : d.opened = true) (hr : (E.send d.engine data).1 = sendAccepted) :
    d.Moves (d.handleSend data) [d.packet data] [d.packet data] d.queue := by
  have he : d.handleSend data =
      (({ d with sends := d.sends + 1 }.call (.send (d.packet data) sendAccepted)
        (E.send d.engine data).2).record (.sent (d.packet data) .accepted)).schedulePump := by
    rw [handleSend, if_neg (by simp [hc, ho])]
    dsimp only
    rw [hr, if_pos rfl]
    rfl
  have hk := schedulePump_kept
    (({ d with sends := d.sends + 1 }.call (.send (d.packet data) sendAccepted)
      (E.send d.engine data).2).record (.sent (d.packet data) .accepted))
  rw [he]
  refine moves_of_log
    [.engine (.send (d.packet data) sendAccepted), .sent (d.packet data) .accepted] ?_ hk.2.1
  rw [hk.1]
  exact List.append_assoc ..

/-- Any other call leaves the message out or puts it at the end of the queue. -/
theorem moves_waits (hE : AcceptsOrWaits E) {d : Connection E} {data : Bytes}
    (hp : d.options.backpressure = .queue)
    (hn : ¬ (d.closed = false ∧ d.opened = true ∧ (E.send d.engine data).1 = sendAccepted)) :
    d.Moves (d.handleSend data) [] [] d.queue ∨
      d.Moves (d.handleSend data) [] [d.packet data] (d.queue ++ [d.packet data]) := by
  by_cases ho : (d.closed || !d.opened) = true
  · left
    have he : d.handleSend data = { d with sends := d.sends + 1 }.record
        (.sent (d.packet data) .ignored) := if_pos ho
    rw [he]
    exact moves_of_log [.sent (d.packet data) .ignored] rfl rfl
  · have hopen : d.closed = false ∧ d.opened = true := by simpa using ho
    have hr : (E.send d.engine data).1 = sendBackpressure :=
      (hE d.engine data).resolve_left fun hr => hn ⟨hopen.1, hopen.2, hr⟩
    rw [handleSend, if_neg ho]
    dsimp only
    rw [hr, if_neg (by decide), if_neg (by decide), if_pos rfl]
    split
    · split
      · left
        exact moves_of_log [.engine (.send (d.packet data) sendBackpressure),
          .sent (d.packet data) .refused] (List.append_assoc ..) rfl
      · right
        exact moves_of_log [.engine (.send (d.packet data) sendBackpressure),
          .sent (d.packet data) .queued] (List.append_assoc ..) rfl
    · rename_i hq
      exact absurd hp hq

theorem handleSend_kept (d : Connection E) (data : Bytes) :
    (d.handleSend data).sends = d.sends + 1 ∧ (d.handleSend data).closed = d.closed ∧
      (d.handleSend data).options = d.options := by
  unfold handleSend
  dsimp only
  split
  · exact ⟨rfl, rfl, rfl⟩
  · split
    · exact (schedulePump_kept _).2.2
    · split
      · exact ⟨rfl, rfl, rfl⟩
      · split
        · split
          · split <;> exact ⟨rfl, rfl, rfl⟩
          · exact ⟨rfl, rfl, rfl⟩
        · exact ⟨rfl, rfl, rfl⟩

theorem flushFrom_kept (queue : List Packet) (d : Connection E) :
    (flushFrom queue d).sends = d.sends ∧ (flushFrom queue d).closed = d.closed ∧
      (flushFrom queue d).options = d.options := by
  induction queue generalizing d with
  | nil => exact ⟨rfl, rfl, rfl⟩
  | cons next rest ih =>
    rw [flushFrom]
    split
    · exact ⟨rfl, rfl, rfl⟩
    · exact ih _

/-- `handle.send` reaches the engine past a message that waits. -/
def Overtakes (d : Connection E) : Label → Prop
  | .send data => d.outside = true ∧ d.handed = true ∧ d.closed = false ∧ d.opened = true ∧
      (E.send d.engine data).1 = sendAccepted ∧ d.queue ≠ []
  | _ => False

/-- The connection closes over messages that wait, and drops them. -/
def Discards (d : Connection E) : Label → Prop
  | .advance _ => (∃ reason rest, d.stack = .finish reason :: rest) ∧ d.closed = false ∧
      d.queue ≠ []
  | _ => False

/-- The books of the sends. -/
structure Books (d : Connection E) : Prop where
  policy : d.options.backpressure = .queue
  fresh : ∀ p ∈ d.queue, p.id < d.sends
  balanced : d.closed = false → d.accepted.length + d.queue.length = d.taken.length

/-- **What one step makes of the messages.** -/
inductive Motion (d : Connection E) (l : Label) (r : Connection E) : Prop where
  /-- A front of the queue goes to the engine. -/
  | hands (front rest : List Packet) (hq : d.queue = front ++ rest) (h : d.Moves r front [] rest)
  | queues (data : Bytes) (h : d.Moves r [] [d.packet data] (d.queue ++ [d.packet data]))
      (hs : d.sends < r.sends)
  | direct (data : Bytes) (h : d.Moves r [d.packet data] [d.packet data] d.queue)
      (ho : d.queue ≠ [] → d.Overtakes l)
  | discards (hc : d.closed = false) (hr : r.closed = true) (h : d.Moves r [] [] [])
      (hd : d.queue ≠ [] → d.Discards l)

theorem moves_finish {d : Connection E} (rest : List Task) (reason : Text) (hc : d.closed = false) :
    d.Moves ({ d with stack := rest }.finish reason) [] [] [] := by
  obtain ⟨_, _, _, _, hlog⟩ := finish_open rest reason hc
  obtain ⟨ha, ht, hq⟩ := moves_inert (d := { d with queue := [] }) (finish_queue rest reason hc).1 hlog
  exact ⟨ha, ht, hq⟩

theorem moves_finishRest (d : Connection E) (rest : List Task) (reason : Text) :
    d.Moves ({ d with stack := rest }.finishRest reason) [] [] d.queue := by
  have hm := moves_of_log _ (finishRest_log d rest reason) (finishRest_queue d rest reason).1
  cases ho : d.opened with
  | false =>
    rw [ho] at hm
    exact hm
  | true =>
    rw [ho] at hm
    exact hm

theorem motion_turn (hE : AcceptsOrWaits E) {d r : Connection E} {l : Label} (ht : Turn d l r)
    (hl : ∀ data, l ≠ .send data) : d.Motion l r := by
  cases ht with
  | inert _ r closed disposed queue sends options stack timer log =>
    exact .hands [] d.queue rfl (moves_inert queue log)
  | flush now m rest loop hs hc hb hm hloop =>
    have hi := moves_inert (d := d) hm.queue hm.log
    obtain ⟨front, tail, hsplit, hf⟩ := moves_flushFrom hE m.queue m rfl
    refine .hands front tail (hi.queue ▸ hsplit) ⟨?_, ?_, hf.queue⟩
    · rw [← List.append_nil d.accepted, ← hi.accepted]
      exact hf.accepted
    · rw [← List.append_nil d.taken, ← hi.taken]
      exact hf.taken
  | send data => exact absurd rfl (hl data)
  | finish now reason rest hs hc =>
    exact .discards hc (finish_open rest reason hc).1 (moves_finish rest reason hc)
      fun hq => ⟨⟨reason, rest, hs⟩, hc, hq⟩
  | finishRest now reason rest hs => exact .hands [] d.queue rfl (moves_finishRest d rest reason)

theorem motion_step (hE : AcceptsOrWaits E) {d : Connection E} (l : Label) (hb : d.Books) :
    d.Motion l (d.step l) := by
  cases l with
  | send data =>
    rw [step]
    split
    · rename_i hg
      rw [Bool.and_eq_true] at hg
      by_cases ha : d.closed = false ∧ d.opened = true ∧ (E.send d.engine data).1 = sendAccepted
      · obtain ⟨hc, ho, hr⟩ := ha
        exact .direct data (moves_accepted hc ho hr) fun hq => ⟨hg.1, hg.2, hc, ho, hr, hq⟩
      · rcases moves_waits hE hb.policy ha with hm | hm
        · exact .hands [] d.queue rfl hm
        · exact .queues data hm (Nat.lt_of_lt_of_eq (Nat.lt_succ_self _) (handleSend_kept d data).1.symm)
    · exact .hands [] d.queue rfl (moves_of_log [] (List.append_nil _).symm rfl)
  | _ => exact motion_turn hE (turn_step d _) (by simp)

theorem books_start (options : ResolvedOptions) (engine : E.State)
    (hp : options.backpressure = .queue) : (start options engine).Books where
  policy := hp
  fresh := nofun
  balanced _ := rfl

/-- What no step takes back. -/
theorem kept_turn {d r : Connection E} {l : Label} (ht : Turn d l r) :
    r.options = d.options ∧ d.sends ≤ r.sends ∧ (d.closed = true → r.closed = true) := by
  cases ht with
  | inert _ r closed disposed queue sends options stack timer log =>
    exact ⟨options, Nat.le_of_eq sends.symm, fun hc => closed.trans hc⟩
  | flush now m rest loop hs hc hb hm hl =>
    obtain ⟨hsends, hclosed, hoptions⟩ := flushFrom_kept m.queue m
    refine ⟨hoptions.trans hm.options, Nat.le_of_eq (hsends.trans hm.sends).symm, fun hc' => ?_⟩
    exact hclosed.trans (hm.closed.trans hc')
  | send data =>
    obtain ⟨hsends, hclosed, hoptions⟩ := handleSend_kept d data
    exact ⟨hoptions, hsends ▸ Nat.le_succ _, fun hc => hclosed.trans hc⟩
  | finish now reason rest hs hc =>
    obtain ⟨_, hsends, hoptions⟩ := finish_queue rest reason hc
    exact ⟨hoptions, Nat.le_of_eq hsends.symm, fun _ => (finish_open rest reason hc).1⟩
  | finishRest now reason rest hs =>
    obtain ⟨_, hsends, hoptions⟩ := finishRest_queue d rest reason
    refine ⟨hoptions, Nat.le_of_eq hsends.symm, fun hc => ?_⟩
    exact (finishRest_fields d rest reason).1.trans hc

theorem books_step (hE : AcceptsOrWaits E) {d : Connection E} (l : Label) (hb : d.Books) :
    (d.step l).Books := by
  obtain ⟨hoptions, hsends, hclosed⟩ := kept_turn (turn_step d l)
  have hp := hoptions ▸ hb.policy
  have balanced : (d.step l).closed = false →
      d.accepted.length + d.queue.length = d.taken.length := fun hr =>
    hb.balanced (Bool.eq_false_iff.mpr fun hc => Bool.eq_false_iff.mp hr (hclosed hc))
  cases motion_step hE l hb with
  | hands front rest hq hm =>
    refine ⟨hp, fun p hmem => ?_, fun hr => ?_⟩
    · rw [hm.queue] at hmem
      exact (hb.fresh p (hq ▸ List.mem_append_right front hmem)).trans_le hsends
    · have hlen := balanced hr
      rw [hq, List.length_append] at hlen
      rw [hm.accepted, hm.taken, hm.queue, List.append_nil, List.length_append]
      omega
  | queues data hm hs =>
    refine ⟨hp, fun p hmem => ?_, fun hr => ?_⟩
    · rw [hm.queue] at hmem
      rcases List.mem_append.mp hmem with hmem | hmem
      · exact (hb.fresh p hmem).trans_le hsends
      · exact List.mem_singleton.mp hmem ▸ hs
    · have hlen := balanced hr
      rw [hm.accepted, hm.taken, hm.queue, List.append_nil, List.length_append, List.length_append]
      omega
  | direct data hm _ =>
    refine ⟨hp, fun p hmem => ?_, fun hr => ?_⟩
    · rw [hm.queue] at hmem
      exact (hb.fresh p hmem).trans_le hsends
    · have hlen := balanced hr
      rw [hm.accepted, hm.taken, hm.queue, List.length_append, List.length_append]
      simp only [List.length_singleton]
      omega
  | discards hc hr hm _ =>
    refine ⟨hp, fun p hmem => ?_, fun hopen => ?_⟩
    · rw [hm.queue] at hmem
      cases hmem
    · rw [hr] at hopen
      cases hopen

theorem Overtakes.waits {d : Connection E} {l : Label} (h : d.Overtakes l) : d.queue ≠ [] := by
  cases l with
  | send data => exact h.2.2.2.2.2
  | _ => exact absurd h id

theorem moves_overtaking {d : Connection E} {l : Label} (h : d.Overtakes l) :
    ∃ data, d.Moves (d.step l) [d.packet data] [d.packet data] d.queue := by
  cases l with
  | send data =>
    obtain ⟨ho, hh, hc, hopen, hr, _⟩ := h
    refine ⟨data, ?_⟩
    rw [step, ho, hh]
    exact moves_accepted hc hopen hr
  | _ => exact absurd h id

theorem Discards.closed {d : Connection E} {l : Label} (h : d.Discards l) : d.closed = false := by
  cases l with
  | advance now => exact h.2.1
  | _ => exact absurd h id

theorem Discards.waits {d : Connection E} {l : Label} (h : d.Discards l) : d.queue ≠ [] := by
  cases l with
  | advance now => exact h.2.2
  | _ => exact absurd h id

theorem moves_discarding {d : Connection E} {l : Label} (h : d.Discards l) :
    d.Moves (d.step l) [] [] [] := by
  cases l with
  | advance now =>
    obtain ⟨⟨reason, rest, hs⟩, hc, _⟩ := h
    rw [step, hs]
    exact moves_finish rest reason hc
  | _ => exact absurd h id

theorem Books.not_mem {d : Connection E} (hb : d.Books) (data : Bytes) : d.packet data ∉ d.queue :=
  fun hm => Nat.lt_irrefl _ (hb.fresh _ hm)

theorem Books.drained {d : Connection E} (hb : d.Books) (hc : d.closed = false)
    (h : d.accepted = d.taken) : d.queue = [] := by
  have hlen := hb.balanced hc
  rw [h] at hlen
  exact List.length_eq_zero_iff.mp (by omega)

/-- A message that waits while a later one is accepted is out of order. -/
theorem not_overtaken {p : Packet} {taken queue front : List Packet} (hp : p ∉ queue)
    (h : front ++ [p] ++ queue = taken ++ [p]) : queue = [] ∧ front = taken := by
  cases hq : queue.getLast? with
  | none =>
    have he : queue = [] := List.getLast?_eq_none_iff.mp hq
    subst he
    rw [List.append_nil] at h
    exact ⟨rfl, List.append_cancel_right h⟩
  | some last =>
    have hl := congrArg List.getLast? h
    rw [List.getLast?_append, hq, List.getLast?_concat] at hl
    have he : last = p := by simpa using hl
    exact absurd (he ▸ List.mem_of_getLast? hq) hp

theorem inOrder_of_step (hE : AcceptsOrWaits E) {d : Connection E} (l : Label) (hb : d.Books)
    (h : (d.step l).InOrder) : d.InOrder := by
  cases motion_step hE l hb with
  | hands front rest hq hm =>
    rw [InOrder, hm.accepted, hm.taken, hm.queue, List.append_nil, List.append_assoc] at h
    rw [InOrder, hq]
    exact h
  | queues data hm hs =>
    rw [InOrder, hm.accepted, hm.taken, hm.queue, List.append_nil, ← List.append_assoc] at h
    exact List.append_cancel_right h
  | direct data hm ho =>
    rw [InOrder, hm.accepted, hm.taken, hm.queue] at h
    obtain ⟨hq, ha⟩ := not_overtaken (hb.not_mem data) h
    rw [InOrder, hq, List.append_nil]
    exact ha
  | discards hc hr hm hd =>
    rw [InOrder, hm.accepted, hm.taken, hm.queue, List.append_nil, List.append_nil,
      List.append_nil] at h
    rw [InOrder, hb.drained hc h, List.append_nil]
    exact h

theorem inOrder_step (hE : AcceptsOrWaits E) {d : Connection E} (l : Label) (hb : d.Books)
    (h : d.InOrder) : (d.step l).InOrder ↔ ¬ (d.Overtakes l ∨ d.Discards l) := by
  constructor
  · rintro hs (ho | hd)
    · obtain ⟨data, hm⟩ := moves_overtaking ho
      rw [InOrder, hm.accepted, hm.taken, hm.queue] at hs
      exact ho.waits (not_overtaken (hb.not_mem data) hs).1
    · have hm := moves_discarding hd
      rw [InOrder, hm.accepted, hm.taken, hm.queue, List.append_nil, List.append_nil,
        List.append_nil] at hs
      exact hd.waits (hb.drained hd.closed hs)
  · intro hn
    have empty : (d.queue ≠ [] → d.Overtakes l ∨ d.Discards l) → d.queue = [] :=
      fun hq => by_contra fun hne => hn (hq hne)
    cases motion_step hE l hb with
    | hands front rest hq hm =>
      rw [InOrder, hm.accepted, hm.taken, hm.queue, List.append_nil, List.append_assoc, ← hq]
      exact h
    | queues data hm hs =>
      rw [InOrder, hm.accepted, hm.taken, hm.queue, List.append_nil, ← List.append_assoc, h]
    | direct data hm ho =>
      have hq := empty fun hne => .inl (ho hne)
      rw [InOrder, hm.accepted, hm.taken, hm.queue, ← h, hq, List.append_nil, List.append_nil]
    | discards hc hr hm hd =>
      have hq := empty fun hne => .inr (hd hne)
      rw [InOrder, hm.accepted, hm.taken, hm.queue, ← h, hq]

/-- **Queue policy and the order of sends.** With an engine that accepts or waits, a
run keeps the order exactly when no message is sent past the queue and the
connection does not close over a queue that still holds messages. -/
theorem sends_in_order (hE : AcceptsOrWaits E) (options : ResolvedOptions) (engine : E.State)
    (labels : List Label) (hp : options.backpressure = .queue) :
    (run step (start options engine) labels).InOrder ↔
      Meets step (fun d l => ¬ (d.Overtakes l ∨ d.Discards l)) (start options engine) labels := by
  refine iff_meets ?_ ?_ ?_ (books_start options engine hp) rfl
  · exact fun d l hb => books_step hE l hb
  · exact fun d l hb h => inOrder_step hE l hb h
  · exact fun d l hb h => inOrder_of_step hE l hb h

/-- Three bytes leave one free of the cap of four: the second message waits, and the
third, of one byte, is accepted. -/
def overtaking : List Label :=
  Script.opening ++ [.send [1, 1, 1]] ++ Script.settle ++
    [.send [2, 2, 2]] ++ [.send [3]]

theorem send_overtaken :
    ¬ (run step (Script.connection Script.batched) overtaking).InOrder := by
  decide +kernel

/-- The second message waits, and goes to the engine with the next pump behind an
acknowledgement. -/
def waiting : List Label :=
  Script.opening ++ [.send [1, 1, 1]] ++ Script.settle ++ [.send [2, 2, 2]] ++
    [.datagram (.finite 0) [3]] ++ Script.settle ++ [.send [3]]

theorem sends_in_order_waiting :
    (run step (Script.connection Script.batched) waiting).accepted.map (·.data) =
        [[1, 1, 1], [2, 2, 2], [3]] ∧
      Meets step (fun d l => ¬ (d.Overtakes l ∨ d.Discards l))
        (Script.connection Script.batched) waiting :=
  ⟨by decide +kernel,
    (sends_in_order Script.accepts_or_waits Script.batched _ waiting rfl).mp (by decide +kernel)⟩

end Connection

end RtcTunnel.Driver
