import Mathlib.Data.List.Basic

/-!
# Draining a polled queue

A sans-I/O component hands out what it has produced one item at a time, and its
owner empties it in a `while let` loop. `Source` is such a component together
with a bound on how much it still has to give, so that the loop is a function.
`TrySource` is the same for a `poll` that may fail, walked by a body that may
fail as well: the loop then stops where the error appeared.
-/

namespace RtcTunnel.Base.Poll

set_option autoImplicit false

variable {σ α β ε : Type}

/-- A component that is polled until it answers `none`. The answer `none` may
still change the component. -/
structure Source (σ α : Type) where
  poll : σ → Option α × σ
  pending : σ → Nat
  pending_lt : ∀ {s : σ} {a : α}, (poll s).1 = some a → pending (poll s).2 < pending s

/-- A part of a larger value that can be read and replaced. -/
structure Slot (σ β : Type) where
  get : σ → β
  set : σ → β → σ
  get_set : ∀ s b, get (set s b) = b
  set_get : ∀ s, set s (get s) = s
  set_set : ∀ s b c, set (set s b) c = set s c

namespace Source

/-- A component with nothing to give. -/
def empty (σ α : Type) : Source σ α where
  poll s := (none, s)
  pending _ := 0
  pending_lt := nofun

/-- A list kept in a slot, handed out from its front. -/
def queue (slot : Slot σ (List α)) : Source σ α where
  poll s :=
    match slot.get s with
    | [] => (none, s)
    | a :: l => (some a, slot.set s l)
  pending s := (slot.get s).length
  pending_lt {s a} h := by
    cases hs : slot.get s with
    | nil => rw [hs] at h; cases h
    | cons b l => simp only [slot.get_set, List.length_cons, Nat.lt_succ_self]

variable (q : Source σ α)

/-- A component with a note beside it, which polling leaves alone. -/
def beside (ν : Type) : Source (σ × ν) α where
  poll s := ((q.poll s.1).1, (q.poll s.1).2, s.2)
  pending s := q.pending s.1
  pending_lt := q.pending_lt

/-- At most `n` rounds of `while let Some(a) = s.poll()`. -/
def rounds : Nat → σ → List α × σ
  | 0, s => ([], s)
  | n + 1, s =>
    match q.poll s with
    | (none, s') => ([], s')
    | (some a, s') => (a :: (rounds n s').1, (rounds n s').2)

/-- The whole loop: everything handed out, in order, and the emptied component. -/
def drain (s : σ) : List α × σ := q.rounds (q.pending s + 1) s

/-- What a successful poll leaves is less. -/
theorem pending_next {s s' : σ} {a : α} (h : q.poll s = (some a, s')) :
    q.pending s' < q.pending s := by
  have hp := q.pending_lt (s := s) (a := a) (by rw [h])
  simpa only [h] using hp

theorem rounds_stable : ∀ {n m : Nat} {s : σ},
    q.pending s < n → q.pending s < m → q.rounds n s = q.rounds m s := by
  intro n
  induction n with
  | zero => intro m s hn; omega
  | succ n ih =>
    intro m s hn hm
    cases m with
    | zero => omega
    | succ m =>
      cases hp : q.poll s with
      | mk o s' =>
        cases o with
        | none => simp only [rounds, hp]
        | some a =>
          have hlt := q.pending_next hp
          simp only [rounds, hp, ih (m := m) (s := s') (by omega) (by omega)]

/-- Induction on what the component still has to give. -/
theorem poll_induction {P : σ → Prop} (last : ∀ s s', q.poll s = (none, s') → P s)
    (next : ∀ s a s', q.poll s = (some a, s') → P s' → P s) (s : σ) : P s := by
  have hr : ∀ (n : Nat) (s : σ), q.pending s < n → P s := by
    intro n
    induction n with
    | zero => intro s hn; omega
    | succ n ih =>
      intro s hn
      cases hp : q.poll s with
      | mk o s' =>
        cases o with
        | none => exact last s s' hp
        | some a =>
          have hlt := q.pending_next hp
          exact next s a s' hp (ih s' (by omega))
  exact hr _ s (Nat.lt_succ_self _)

theorem drain_none {s s' : σ} (h : q.poll s = (none, s')) : q.drain s = ([], s') := by
  simp only [drain, rounds, h]

theorem drain_some {s s' : σ} {a : α} (h : q.poll s = (some a, s')) :
    q.drain s = (a :: (q.drain s').1, (q.drain s').2) := by
  have hlt := q.pending_next h
  have hs : q.rounds (q.pending s) s' = q.drain s' := q.rounds_stable hlt (Nat.lt_succ_self _)
  rw [drain, rounds]
  simp only [h, hs]

theorem queue_poll (slot : Slot σ (List α)) (s : σ) :
    (queue slot).poll s = ((slot.get s).head?, slot.set s (slot.get s).tail) := by
  cases hs : slot.get s with
  | nil =>
    have hset : slot.set s [] = s := by rw [← hs, slot.set_get]
    simp only [queue, hs, List.head?_nil, List.tail_nil, hset]
  | cons a l => simp only [queue, hs, List.head?_cons, List.tail_cons]

/-- Polling a queue changes what lies in its slot and nothing else. -/
theorem queue_keeps (slot : Slot σ (List α)) {γ : Type} (f : σ → γ)
    (h : ∀ s l, f (slot.set s l) = f s) (s : σ) : f ((queue slot).poll s).2 = f s := by
  rw [queue_poll, h]

/-- Induction along the loop. -/
theorem drain_induction {P : σ → Prop} (step : ∀ s, P s → P (q.poll s).2) {s : σ} (h : P s) :
    P (q.drain s).2 := by
  revert h
  apply q.poll_induction (P := fun s => P s → P (q.drain s).2)
  · intro s s' hp h
    have hs := step s h
    rw [hp] at hs
    rw [q.drain_none hp]
    exact hs
  · intro s a s' hp ih h
    have hs := step s h
    rw [hp] at hs
    rw [q.drain_some hp]
    exact ih hs

/-- A component that answered `none` answers `none` again. -/
def Fused : Prop := ∀ s, (q.poll s).1 = none → (q.poll (q.poll s).2).1 = none

/-- A drained component has nothing left. -/
theorem Fused.drained {q : Source σ α} (h : q.Fused) (s : σ) :
    (q.poll (q.drain s).2).1 = none := by
  apply q.poll_induction (P := fun s => (q.poll (q.drain s).2).1 = none)
  · intro s s' hp
    have hs := h s (by rw [hp])
    rw [hp] at hs
    rw [q.drain_none hp]
    exact hs
  · intro s a s' hp ih
    rw [q.drain_some hp]
    exact ih

theorem drain_eq_nil {s : σ} : (q.drain s).1 = [] ↔ (q.poll s).1 = none := by
  cases hp : q.poll s with
  | mk o s' =>
    cases o with
    | none => simp only [q.drain_none hp]
    | some a => simp only [q.drain_some hp, reduceCtorEq]

theorem fused_queue (slot : Slot σ (List α)) : (queue slot).Fused := by
  intro s h
  rw [queue_poll] at h ⊢
  show (slot.get ((queue slot).poll s).2).head? = none
  rw [queue_poll, slot.get_set, List.head?_eq_none_iff.mp h]
  rfl

/-- The component hands out a list from its front, and has nothing left behind `none`. -/
structure Queues (view : σ → List α) : Prop where
  nil : ∀ s, view s = [] → (q.poll s).1 = none ∧ view (q.poll s).2 = []
  cons : ∀ s a as, view s = a :: as → (q.poll s).1 = some a ∧ view (q.poll s).2 = as

theorem Queues.drain {q : Source σ α} {view : σ → List α} (h : q.Queues view) (s : σ) :
    (q.drain s).1 = view s ∧ view (q.drain s).2 = [] := by
  generalize hv : view s = l
  induction l generalizing s with
  | nil =>
    obtain ⟨hp, hn⟩ := h.nil s hv
    rw [q.drain_none (Prod.ext hp rfl)]
    exact ⟨rfl, hn⟩
  | cons a as ih =>
    obtain ⟨hp, hn⟩ := h.cons s a as hv
    obtain ⟨hf, hs⟩ := ih _ hn
    rw [q.drain_some (Prod.ext hp rfl), hf]
    exact ⟨rfl, hs⟩

theorem queues_queue (slot : Slot σ (List α)) : (queue slot).Queues slot.get where
  nil s h := by
    have hp : (queue slot).poll s = (none, s) := by simp only [queue, h]
    rw [hp]
    exact ⟨rfl, h⟩
  cons s a as h := by
    have hp : (queue slot).poll s = (some a, slot.set s as) := by simp only [queue, h]
    rw [hp]
    exact ⟨rfl, slot.get_set s as⟩

section Walk

variable (body : σ → α → β → Option β)

/-- At most `n` rounds of `while let Some(a) = s.poll() { body(s, a) }`. The body
reads the component it polled, and leaves the loop by `none`. -/
def walkRounds : Nat → σ → β → σ × β
  | 0, s, b => (s, b)
  | n + 1, s, b =>
    match q.poll s with
    | (none, s') => (s', b)
    | (some a, s') =>
      match body s' a b with
      | none => (s', b)
      | some b' => walkRounds n s' b'

/-- The whole loop, left early when the body asks for it. -/
def walk (s : σ) (b : β) : σ × β := q.walkRounds body (q.pending s + 1) s b

theorem walkRounds_stable : ∀ {n m : Nat} {s : σ} {b : β},
    q.pending s < n → q.pending s < m → q.walkRounds body n s b = q.walkRounds body m s b := by
  intro n
  induction n with
  | zero => intro m s b hn; omega
  | succ n ih =>
    intro m s b hn hm
    cases m with
    | zero => omega
    | succ m =>
      cases hp : q.poll s with
      | mk o s' =>
        cases o with
        | none => simp only [walkRounds, hp]
        | some a =>
          have hlt := q.pending_next hp
          cases hb : body s' a b with
          | none => simp only [walkRounds, hp, hb]
          | some b' =>
            simp only [walkRounds, hp, hb]
            exact ih (by omega) (by omega)

theorem walk_none {s s' : σ} (b : β) (h : q.poll s = (none, s')) : q.walk body s b = (s', b) := by
  simp only [walk, walkRounds, h]

theorem walk_break {s s' : σ} {a : α} {b : β} (h : q.poll s = (some a, s'))
    (hb : body s' a b = none) : q.walk body s b = (s', b) := by
  simp only [walk, walkRounds, h, hb]

theorem walk_next {s s' : σ} {a : α} {b b' : β} (h : q.poll s = (some a, s'))
    (hb : body s' a b = some b') : q.walk body s b = q.walk body s' b' := by
  have hlt := q.pending_next h
  rw [walk, walkRounds]
  simp only [h, hb]
  exact q.walkRounds_stable body hlt (Nat.lt_succ_self _)

/-- The body sees the items of `drain` in their order: what it makes of the first
item, and what the loop makes of the rest. -/
theorem walk_induction {P : List α → β → β → Prop} (nil : ∀ b, P [] b b)
    (stop : ∀ s a as b, body s a b = none → P (a :: as) b b)
    (next : ∀ s a as b b' r, body s a b = some b' → P as b' r → P (a :: as) b r)
    (s : σ) (b : β) : P (q.drain s).1 b (q.walk body s b).2 := by
  revert b
  apply q.poll_induction (P := fun s => ∀ b, P (q.drain s).1 b (q.walk body s b).2)
  · intro s s' hp b
    rw [q.drain_none hp, q.walk_none body b hp]
    exact nil b
  · intro s a s' hp ih b
    rw [q.drain_some hp]
    cases hb : body s' a b with
    | none =>
      rw [q.walk_break body hp hb]
      exact stop s' a _ b hb
    | some b' =>
      rw [q.walk_next body hp hb]
      exact next s' a _ b b' _ hb (ih b')

/-- Two bodies that leave the loop together leave the component alike. -/
theorem walk_related {γ : Type} (body' : σ → α → γ → Option γ) {R : β → γ → Prop}
    (hbody : ∀ s a b c, R b c → Option.Rel R (body s a b) (body' s a c)) (s : σ) {b : β} {c : γ}
    (h : R b c) : (q.walk body s b).1 = (q.walk body' s c).1 ∧
      R (q.walk body s b).2 (q.walk body' s c).2 := by
  revert b c
  apply q.poll_induction (P := fun s => ∀ {b c}, R b c → (q.walk body s b).1 = (q.walk body' s c).1 ∧
    R (q.walk body s b).2 (q.walk body' s c).2)
  · intro s s' hp b c h
    rw [q.walk_none body b hp, q.walk_none body' c hp]
    exact ⟨rfl, h⟩
  · intro s a s' hp ih b c h
    have hrel := hbody s' a b c h
    generalize hb : body s' a b = o, hc : body' s' a c = o' at hrel
    cases hrel with
    | none =>
      rw [q.walk_break body hp hb, q.walk_break body' hp hc]
      exact ⟨rfl, h⟩
    | some h' =>
      rw [q.walk_next body hp hb, q.walk_next body' hp hc]
      exact ih h'

end Walk

end Source

/-- A component whose `poll` may fail. -/
structure TrySource (σ ε α : Type) where
  poll : σ → Except ε (Option α) × σ
  pending : σ → Nat
  pending_lt : ∀ {s : σ} {a : α}, (poll s).1 = .ok (some a) → pending (poll s).2 < pending s

/-- An infallible source seen as a fallible one. -/
def Source.lift (ε : Type) (q : Source σ α) : TrySource σ ε α where
  poll s := (.ok (q.poll s).1, (q.poll s).2)
  pending := q.pending
  pending_lt h := q.pending_lt (Except.ok.inj h)

namespace TrySource

/-- A component with a note beside it, which polling leaves alone. -/
def beside (q : TrySource σ ε α) (ν : Type) : TrySource (σ × ν) ε α where
  poll s := ((q.poll s.1).1, (q.poll s.1).2, s.2)
  pending s := q.pending s.1
  pending_lt := q.pending_lt

variable (q : TrySource σ ε α) (body : α → β → β × Except ε Unit)

/-- What a successful poll leaves is less. -/
theorem pending_next {s s' : σ} {a : α} (h : q.poll s = (.ok (some a), s')) :
    q.pending s' < q.pending s := by
  have hp := q.pending_lt (s := s) (a := a) (by rw [h])
  simpa only [h] using hp

/-- At most `n` rounds of `while let Some(a) = s.poll()? { body(a)? }`. The
accumulator `β` is whatever else the body touches. -/
def rounds : Nat → σ → β → (σ × β) × Except ε Unit
  | 0, s, b => ((s, b), .ok ())
  | n + 1, s, b =>
    match q.poll s with
    | (.error e, s') => ((s', b), .error e)
    | (.ok none, s') => ((s', b), .ok ())
    | (.ok (some a), s') =>
      match body a b with
      | (b', .error e) => ((s', b'), .error e)
      | (b', .ok ()) => rounds n s' b'

/-- The whole loop, left early by the first error of `poll` or of the body. -/
def forEach (s : σ) (b : β) : (σ × β) × Except ε Unit := q.rounds body (q.pending s + 1) s b

theorem rounds_stable : ∀ {n m : Nat} {s : σ} {b : β},
    q.pending s < n → q.pending s < m → q.rounds body n s b = q.rounds body m s b := by
  intro n
  induction n with
  | zero => intro m s b hn; omega
  | succ n ih =>
    intro m s b hn hm
    cases m with
    | zero => omega
    | succ m =>
      cases hp : q.poll s with
      | mk o s' =>
        cases o with
        | error e => simp only [rounds, hp]
        | ok o =>
          cases o with
          | none => simp only [rounds, hp]
          | some a =>
            have hlt := q.pending_next hp
            cases hb : body a b with
            | mk b' r =>
              cases r with
              | error e => simp only [rounds, hp, hb]
              | ok u =>
                simp only [rounds, hp, hb]
                exact ih (by omega) (by omega)

theorem forEach_none {s s' : σ} (b : β) (h : q.poll s = (.ok none, s')) :
    q.forEach body s b = ((s', b), .ok ()) := by
  simp only [forEach, rounds, h]

theorem forEach_stop {s s' : σ} {a : α} {b b' : β} {e : ε} (h : q.poll s = (.ok (some a), s'))
    (hb : body a b = (b', .error e)) : q.forEach body s b = ((s', b'), .error e) := by
  simp only [forEach, rounds, h, hb]

theorem forEach_next {s s' : σ} {a : α} {b b' : β} (h : q.poll s = (.ok (some a), s'))
    (hb : body a b = (b', .ok ())) : q.forEach body s b = q.forEach body s' b' := by
  have hlt := q.pending_next h
  rw [forEach, rounds]
  simp only [h, hb]
  exact q.rounds_stable body hlt (Nat.lt_succ_self _)

theorem forEach_error {s s' : σ} {e : ε} (b : β) (h : q.poll s = (.error e, s')) :
    q.forEach body s b = ((s', b), .error e) := by
  simp only [forEach, rounds, h]

/-- A loop whose parts never fail is a fold over what is drained. -/
theorem forEach_lift {q : Source σ α} {body : α → β → β × Except ε Unit} {f : β → α → β}
    (h : ∀ a b, body a b = (f b a, .ok ())) (s : σ) : ∀ b : β,
    (q.lift ε).forEach body s b = (((q.drain s).2, (q.drain s).1.foldl f b), .ok ()) := by
  have hl : ∀ s o s', q.poll s = (o, s') → (q.lift ε).poll s = (.ok o, s') := by
    intro s o s' hp
    show (Except.ok (q.poll s).1, (q.poll s).2) = _
    rw [hp]
  apply q.poll_induction (P := fun s => ∀ b : β, (q.lift ε).forEach body s b =
    (((q.drain s).2, (q.drain s).1.foldl f b), .ok ()))
  · intro s s' hp b
    rw [(q.lift ε).forEach_none body b (hl _ _ _ hp), q.drain_none hp, List.foldl_nil]
  · intro s a s' hp ih b
    rw [(q.lift ε).forEach_next body (hl _ _ _ hp) (h a b), q.drain_some hp, List.foldl_cons]
    exact ih (f b a)

/-- Whatever every `poll` and every round of the body preserve holds when the
loop ends, with or without an error. -/
theorem forEach_induction {P : σ → β → Prop}
    (hpoll : ∀ s b, P s b → P (q.poll s).2 b) (hbody : ∀ s a b, P s b → P s (body a b).1)
    {s : σ} {b : β} (h : P s b) :
    P (q.forEach body s b).1.1 (q.forEach body s b).1.2 := by
  have hr : ∀ (n : Nat) (s : σ) (b : β), P s b →
      P (q.rounds body n s b).1.1 (q.rounds body n s b).1.2 := by
    intro n
    induction n with
    | zero => intro s b hs; exact hs
    | succ n ih =>
      intro s b hs
      have hn := hpoll s b hs
      cases hp : q.poll s with
      | mk o s' =>
        rw [hp] at hn
        cases o with
        | error e => simpa only [rounds, hp] using hn
        | ok o =>
          cases o with
          | none => simpa only [rounds, hp] using hn
          | some a =>
            have hb := hbody s' a b hn
            cases hf : body a b with
            | mk b' r =>
              rw [hf] at hb
              cases r with
              | error e => simpa only [rounds, hp, hf] using hb
              | ok u => simpa only [rounds, hp, hf] using ih s' b' hb
  exact hr _ s b h

/-- Induction on what the component still has to give. -/
theorem poll_induction {P : σ → Prop}
    (next : ∀ s, (∀ a s', q.poll s = (.ok (some a), s') → P s') → P s) (s : σ) : P s := by
  have hr : ∀ (n : Nat) (s : σ), q.pending s < n → P s := by
    intro n
    induction n with
    | zero => intro s hn; omega
    | succ n ih =>
      intro s hn
      refine next s fun a s' hp => ih s' ?_
      have hlt := q.pending_next hp
      omega
  exact hr _ s (Nat.lt_succ_self _)

/-- The component is read to its end, or up to a failing poll or an item that is not taken. -/
inductive Reads (takes : α → Prop) : σ → Bool → σ → Prop where
  | done {s s' : σ} (hp : q.poll s = (.ok none, s')) : Reads takes s true s'
  | failed {s s' : σ} {e : ε} (hp : q.poll s = (.error e, s')) : Reads takes s false s'
  | refused {s s' : σ} {a : α} (hp : q.poll s = (.ok (some a), s')) (ha : ¬ takes a) :
      Reads takes s false s'
  | next {s s' r : σ} {a : α} {ok : Bool} (hp : q.poll s = (.ok (some a), s')) (ha : takes a)
      (hr : Reads takes s' ok r) : Reads takes s ok r

/-- An item that counts comes, behind items that are passed over. -/
inductive Comes (counts passes : α → Prop) : σ → Prop where
  | now {s s' : σ} {a : α} (hp : q.poll s = (.ok (some a), s')) (ha : counts a) :
      Comes counts passes s
  | later {s s' : σ} {a : α} (hp : q.poll s = (.ok (some a), s')) (ha : passes a)
      (hc : Comes counts passes s') : Comes counts passes s

/-- The loop reads as far as its body takes what it is given. -/
theorem reads_iff {takes : α → Prop} (hb : ∀ a b, (body a b).2.isOk = true ↔ takes a) (s : σ) :
    ∀ (b : β) (ok : Bool) (r : σ), q.Reads takes s ok r ↔
      (q.forEach body s b).1.1 = r ∧ (q.forEach body s b).2.isOk = ok := by
  apply q.poll_induction (P := fun s => ∀ (b : β) (ok : Bool) (r : σ), q.Reads takes s ok r ↔
    (q.forEach body s b).1.1 = r ∧ (q.forEach body s b).2.isOk = ok)
  intro s ih b ok r
  cases hp : q.poll s with
  | mk o s' =>
    match o with
    | .error e =>
      rw [q.forEach_error body b hp]
      constructor
      · rintro (hq | hq | ⟨hq, _⟩ | ⟨hq, _, _⟩) <;> cases hp.symm.trans hq
        exact ⟨rfl, rfl⟩
      · rintro ⟨rfl, rfl⟩
        exact .failed hp
    | .ok none =>
      rw [q.forEach_none body b hp]
      constructor
      · rintro (hq | hq | ⟨hq, _⟩ | ⟨hq, _, _⟩) <;> cases hp.symm.trans hq
        exact ⟨rfl, rfl⟩
      · rintro ⟨rfl, rfl⟩
        exact .done hp
    | .ok (some a) =>
      have ha := hb a b
      cases hf : body a b with
      | mk b' o =>
        rw [hf] at ha
        cases o with
        | error e =>
          have hn : ¬ takes a := fun h => Bool.false_ne_true (ha.mpr h)
          rw [q.forEach_stop body hp hf]
          constructor
          · rintro (hq | hq | ⟨hq, _⟩ | ⟨hq, ht, _⟩) <;> cases hp.symm.trans hq
            · exact ⟨rfl, rfl⟩
            · exact absurd ht hn
          · rintro ⟨rfl, rfl⟩
            exact .refused hp hn
        | ok u =>
          have ht : takes a := ha.mp rfl
          rw [q.forEach_next body hp hf, ← ih a s' hp]
          constructor
          · rintro (hq | hq | ⟨hq, hn⟩ | ⟨hq, _, hr⟩) <;> cases hp.symm.trans hq
            · exact absurd ht hn
            · exact hr
          · exact .next hp ht

/-- What the loop collects: something exactly when an item that counts comes before the first one
that stops it. -/
theorem comes_iff (counts passes : α → Prop) {E : β → Prop}
    (keep : ∀ a b, ¬ E b → ¬ E (body a b).1) (count : ∀ a b, counts a → ¬ E (body a b).1)
    (pass : ∀ a b, ¬ counts a → E b → E (body a b).1 ∧ ((body a b).2.isOk = true ↔ passes a))
    (s : σ) : ∀ b, E b → (q.Comes counts passes s ↔ ¬ E (q.forEach body s b).1.2) := by
  have hkeep : ∀ s b, ¬ E b → ¬ E (q.forEach body s b).1.2 := fun s b hn =>
    q.forEach_induction body (P := fun _ b => ¬ E b) (fun _ _ h => h) (fun _ a b h => keep a b h) hn
  apply q.poll_induction (P := fun s => ∀ b, E b →
    (q.Comes counts passes s ↔ ¬ E (q.forEach body s b).1.2))
  intro s ih b he
  cases hp : q.poll s with
  | mk o s' =>
    match o with
    | .error e =>
      rw [q.forEach_error body b hp]
      refine ⟨?_, fun hn => absurd he hn⟩
      rintro (⟨hq, _⟩ | ⟨hq, _, _⟩) <;> cases hp.symm.trans hq
    | .ok none =>
      rw [q.forEach_none body b hp]
      refine ⟨?_, fun hn => absurd he hn⟩
      rintro (⟨hq, _⟩ | ⟨hq, _, _⟩) <;> cases hp.symm.trans hq
    | .ok (some a) =>
      by_cases hc : counts a
      · refine ⟨fun _ => ?_, fun _ => .now hp hc⟩
        have hn := count a b hc
        cases hf : body a b with
        | mk b' o =>
          rw [hf] at hn
          cases o with
          | error e =>
            rw [q.forEach_stop body hp hf]
            exact hn
          | ok u =>
            rw [q.forEach_next body hp hf]
            exact hkeep s' b' hn
      · obtain ⟨hempty, hok⟩ := pass a b hc he
        cases hf : body a b with
        | mk b' o =>
          rw [hf] at hempty hok
          cases o with
          | error e =>
            have hn : ¬ passes a := fun h => Bool.false_ne_true (hok.mpr h)
            rw [q.forEach_stop body hp hf]
            refine ⟨?_, fun h => absurd hempty h⟩
            rintro (⟨hq, h⟩ | ⟨hq, h, _⟩) <;> cases hp.symm.trans hq
            · exact absurd h hc
            · exact absurd h hn
          | ok u =>
            rw [q.forEach_next body hp hf, ← ih a s' hp b' hempty]
            constructor
            · rintro (⟨hq, h⟩ | ⟨hq, _, h⟩) <;> cases hp.symm.trans hq
              · exact absurd h hc
              · exact h
            · exact .later hp (hok.mp rfl)

/-- The component hands out a list from its front, as long as it satisfies `P`. -/
structure Queues (P : σ → Prop) (view : σ → List α) : Prop where
  keep : ∀ s, P s → P (q.poll s).2
  nil : ∀ s, P s → view s = [] → (q.poll s).1 = .ok none ∧ view (q.poll s).2 = []
  cons : ∀ s a as, P s → view s = a :: as → (q.poll s).1 = .ok (some a) ∧ view (q.poll s).2 = as

end TrySource

end RtcTunnel.Base.Poll
