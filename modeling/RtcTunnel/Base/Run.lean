import Mathlib.Logic.Relation

/-!
# Runs of a machine and orders in a history

A machine is a function `step` from a state and an input to the next state; a
run feeds it a list of inputs. An input that the machine cannot take leaves the
state as it is. The rules below lift what one step preserves to whole runs,
under a condition that every step of the run meets, and carry a run of a
concrete machine over to an abstract one. The last section is about orders
between the entries of a list that only grows at its end.
-/

namespace RtcTunnel.Base.Run

set_option autoImplicit false

section Machine

variable {σ ι τ : Type} (step : σ → ι → σ)

def run (s : σ) (is : List ι) : σ := is.foldl step s

@[simp] theorem run_nil (s : σ) : run step s [] = s := rfl

@[simp] theorem run_cons (s : σ) (i : ι) (is : List ι) :
    run step s (i :: is) = run step (step s i) is := rfl

theorem run_append (s : σ) (is js : List ι) :
    run step s (is ++ js) = run step (run step s is) js := List.foldl_append

/-- Every step of the run, taken where the run takes it, meets `C`. -/
def Meets (C : σ → ι → Prop) : σ → List ι → Prop
  | _, [] => True
  | s, i :: is => C s i ∧ Meets C (step s i) is

instance decidableMeets {C : σ → ι → Prop} [∀ s i, Decidable (C s i)] :
    ∀ (s : σ) (is : List ι), Decidable (Meets step C s is)
  | _, [] => .isTrue trivial
  | s, i :: is => @instDecidableAnd _ _ _ (decidableMeets (step s i) is)

variable {step}

theorem Meets.and {C D : σ → ι → Prop} :
    ∀ {s : σ} {is : List ι}, Meets step C s is → Meets step D s is →
      Meets step (fun s i => C s i ∧ D s i) s is
  | _, [], _, _ => trivial
  | _, _ :: _, hc, hd => ⟨⟨hc.1, hd.1⟩, hc.2.and hd.2⟩

theorem meets_append {C : σ → ι → Prop} {s : σ} {is js : List ι} :
    Meets step C s (is ++ js) ↔ Meets step C s is ∧ Meets step C (run step s is) js := by
  induction is generalizing s with
  | nil => exact ⟨fun h => ⟨trivial, h⟩, fun h => h.2⟩
  | cons i is ih => exact ⟨fun h => ⟨⟨h.1, (ih.mp h.2).1⟩, (ih.mp h.2).2⟩,
      fun h => ⟨h.1.1, ih.mpr ⟨h.1.2, h.2⟩⟩⟩

/-- The same at each place of the run. -/
theorem meets_iff_split {C : σ → ι → Prop} {s : σ} {is : List ι} :
    Meets step C s is ↔
      ∀ front i back, is = front ++ i :: back → C (run step s front) i := by
  constructor
  · rintro h front i back rfl
    exact (meets_append.mp h).2.1
  · intro h
    induction is generalizing s with
    | nil => exact trivial
    | cons i is ih =>
      exact ⟨h [] i is rfl, ih fun front j back he => h (i :: front) j back (by rw [he]; rfl)⟩

/-- Two conditions that agree where `J` holds, which every step keeps. -/
theorem meets_congr {J : σ → Prop} {C D : σ → ι → Prop} (keep : ∀ s i, J s → J (step s i))
    (agree : ∀ s i, J s → (C s i ↔ D s i)) {s : σ} {is : List ι} (hj : J s) :
    Meets step C s is ↔ Meets step D s is := by
  induction is generalizing s with
  | nil => exact Iff.rfl
  | cons i is ih => exact and_congr (agree s i hj) (ih (keep s i hj))

/-- A condition on the inputs alone. -/
theorem meets_iff_forall {C : ι → Prop} {s : σ} {is : List ι} :
    Meets step (fun _ i => C i) s is ↔ ∀ i ∈ is, C i := by
  induction is generalizing s with
  | nil => simp [Meets]
  | cons i is ih => rw [Meets, ih, List.forall_mem_cons]

theorem invariant_of_meets {I : σ → Prop} {C : σ → ι → Prop}
    (keep : ∀ s i, I s → C s i → I (step s i)) :
    ∀ {s : σ} {is : List ι}, I s → Meets step C s is → I (run step s is) := by
  intro s is
  induction is generalizing s with
  | nil => intro h _; exact h
  | cons i is ih =>
    intro h hm
    exact ih (keep s i h hm.1) hm.2

theorem invariant {I : σ → Prop} (keep : ∀ s i, I s → I (step s i)) {s : σ} (is : List ι)
    (h : I s) : I (run step s is) := by
  induction is generalizing s with
  | nil => exact h
  | cons i is ih => exact ih (keep s i h)

/-- A property that no later step restores, and that a step keeps exactly when it meets `C`,
holds at the end of a run over the inputs of `A` exactly when every step of the run meets `C`. -/
theorem iff_meets_among {A : ι → Prop} {I J : σ → Prop} {C : σ → ι → Prop}
    (keep : ∀ s i, A i → J s → J (step s i))
    (exact : ∀ s i, A i → J s → I s → (I (step s i) ↔ C s i))
    (back : ∀ s i, A i → J s → I (step s i) → I s) {s : σ} {is : List ι} (ha : ∀ i ∈ is, A i)
    (hj : J s) (hi : I s) : I (run step s is) ↔ Meets step C s is := by
  have back_run : ∀ (is : List ι) (s : σ), (∀ i ∈ is, A i) → J s → I (run step s is) → I s := by
    intro is
    induction is with
    | nil => exact fun s _ _ h => h
    | cons i is ih =>
      intro s ha hs h
      obtain ⟨hai, ha⟩ := List.forall_mem_cons.mp ha
      exact back s i hai hs (ih _ ha (keep s i hai hs) h)
  induction is generalizing s with
  | nil => exact ⟨fun _ => trivial, fun _ => hi⟩
  | cons i is ih =>
    obtain ⟨hai, ha⟩ := List.forall_mem_cons.mp ha
    constructor
    · intro h
      have hs := back_run is _ ha (keep s i hai hj) h
      exact ⟨(exact s i hai hj hi).mp hs, (ih ha (keep s i hai hj) hs).mp h⟩
    · intro h
      have hs := (exact s i hai hj hi).mpr h.1
      exact (ih ha (keep s i hai hj) hs).mpr h.2

/-- The same over all inputs. -/
theorem iff_meets {I J : σ → Prop} {C : σ → ι → Prop} (keep : ∀ s i, J s → J (step s i))
    (exact : ∀ s i, J s → I s → (I (step s i) ↔ C s i))
    (back : ∀ s i, J s → I (step s i) → I s) {s : σ} {is : List ι} (hj : J s) (hi : I s) :
    I (run step s is) ↔ Meets step C s is :=
  iff_meets_among (A := fun _ => True) (fun s i _ => keep s i) (fun s i _ => exact s i)
    (fun s i _ => back s i) (fun _ _ => trivial) hj hi

/-- A property that one step keeps exactly when it meets `C` holds everywhere in a run exactly
when every step of the run meets `C`. -/
theorem always_iff_meets {I : σ → Prop} {C : σ → ι → Prop}
    (exact : ∀ s i, I s → (I (step s i) ↔ C s i)) {s : σ} {is : List ι} (hi : I s) :
    (∀ front back, is = front ++ back → I (run step s front)) ↔ Meets step C s is := by
  induction is generalizing s with
  | nil =>
    refine ⟨fun _ => trivial, fun _ front back h => ?_⟩
    rw [(List.append_eq_nil_iff.mp h.symm).1]
    exact hi
  | cons i is ih =>
    constructor
    · intro h
      have hs : I (step s i) := h [i] is rfl
      exact ⟨(exact s i hi).mp hs, (ih hs).mp fun front back he =>
        h (i :: front) back (by rw [he, List.cons_append])⟩
    · intro h front back he
      cases front with
      | nil => exact hi
      | cons j front =>
        rw [List.cons_append] at he
        obtain ⟨rfl, hfront⟩ := List.cons.inj he
        exact (ih ((exact s i hi).mpr h.1)).mpr h.2 front back hfront

/-- What the steps of a run give out, in order. -/
def outputs {α : Type} (step : σ → ι → σ) (out : σ → ι → List α) : σ → List ι → List α
  | _, [] => []
  | s, i :: is => out s i ++ outputs step out (step s i) is

theorem outputs_append {α : Type} (out : σ → ι → List α) (s : σ) (is js : List ι) :
    outputs step out s (is ++ js) = outputs step out s is ++ outputs step out (run step s is) js := by
  induction is generalizing s with
  | nil => rfl
  | cons i is ih => rw [List.cons_append, outputs, outputs, ih, List.append_assoc, run_cons]

/-- Nothing is given out from where a step gives out nothing and `J` lasts. -/
theorem outputs_eq_nil {α : Type} {out : σ → ι → List α} {J : σ → Prop}
    (keep : ∀ s i, J s → J (step s i)) (quiet : ∀ s i, J s → out s i = []) {s : σ} (hj : J s)
    (is : List ι) : outputs step out s is = [] := by
  induction is generalizing s with
  | nil => rfl
  | cons i is ih => rw [outputs, quiet s i hj, ih (keep s i hj), List.append_nil]

/-- A history to which every step adds what it gives out, as long as `J` lasts. -/
theorem history_outputs {α : Type} {out : σ → ι → List α} {I J : σ → Prop}
    (history : σ → List α) (keep : ∀ s i, I s → I (step s i)) (back : ∀ s i, J (step s i) → J s)
    (exact : ∀ s i, I s → J (step s i) → history (step s i) = history s ++ out s i) {s : σ}
    {is : List ι} (hi : I s) (hj : J (run step s is)) :
    history (run step s is) = history s ++ outputs step out s is := by
  have back_run : ∀ (is : List ι) (s : σ), J (run step s is) → J s := by
    intro is
    induction is with
    | nil => exact fun s h => h
    | cons i is ih => exact fun s h => back s i (ih _ h)
  induction is generalizing s with
  | nil => exact (List.append_nil _).symm
  | cons i is ih =>
    rw [run_cons, ih (keep s i hi) hj, exact s i hi (back_run is _ hj), outputs, List.append_assoc]

/-- A machine whose every step is a sequence of abstract moves runs as such a
sequence. -/
theorem simulates (abstract : σ → τ) {Move : τ → τ → Prop}
    (sim : ∀ s i, Relation.ReflTransGen Move (abstract s) (abstract (step s i)))
    (s : σ) (is : List ι) :
    Relation.ReflTransGen Move (abstract s) (abstract (run step s is)) := by
  induction is generalizing s with
  | nil => exact .refl
  | cons i is ih => exact (sim s i).trans (ih (step s i))

/-- What each abstract move preserves, a sequence of moves preserves. -/
theorem moves_invariant {Move : τ → τ → Prop} {I : τ → Prop}
    (keep : ∀ a b, Move a b → I a → I b) {a b : τ} (h : Relation.ReflTransGen Move a b)
    (ha : I a) : I b := by
  induction h with
  | refl => exact ha
  | tail _ hm ih => exact keep _ _ hm ih

end Machine

section History

variable {α : Type} {p q : α → Prop} {l r : List α}

/-- Nothing follows an entry that satisfies `p`. -/
def Terminal (p : α → Prop) (l : List α) : Prop := l.Pairwise fun a _ => ¬ p a

theorem terminal_nil : Terminal p [] := List.Pairwise.nil

theorem terminal_append :
    Terminal p (l ++ r) ↔ Terminal p l ∧ Terminal p r ∧ (r = [] ∨ ∀ a ∈ l, ¬ p a) := by
  rw [Terminal, List.pairwise_append]
  refine and_congr_right fun _ => and_congr_right fun _ => ?_
  constructor
  · intro h
    cases r with
    | nil => exact .inl rfl
    | cons b r => exact .inr fun a ha => h a ha b (List.mem_cons_self ..)
  · rintro (rfl | h) a ha b hb
    · cases hb
    · exact h a ha

theorem terminal_of_forall (h : ∀ a ∈ l, ¬ p a) : Terminal p l :=
  List.pairwise_iff_forall_sublist.mpr fun hs => h _ (hs.subset (List.mem_cons_self ..))

/-- The first entry that satisfies `p` ends the list. -/
theorem terminal_append_cons {c : α} (hl : ∀ a ∈ l, ¬ p a) (hc : p c) :
    Terminal p (l ++ c :: r) ↔ r = [] := by
  rw [terminal_append]
  constructor
  · rintro ⟨_, h, _⟩
    cases r with
    | nil => rfl
    | cons b r => exact absurd hc (List.rel_of_pairwise_cons h (List.mem_cons_self ..))
  · rintro rfl
    exact ⟨terminal_of_forall hl, List.pairwise_singleton _ c, .inr hl⟩

theorem terminal_append_singleton {c : α} (hl : ∀ a ∈ l, ¬ p a) : Terminal p (l ++ [c]) :=
  terminal_append.mpr ⟨terminal_of_forall hl, List.pairwise_singleton _ c, .inr hl⟩

/-- Every entry that satisfies `q` has an entry that satisfies `p` before it. -/
def Precedes (p q : α → Prop) (l : List α) : Prop :=
  ∀ before a after, l = before ++ a :: after → q a → ∃ b ∈ before, p b

theorem precedes_nil : Precedes p q [] := by
  intro before a after h
  simp at h

theorem precedes_iff_take :
    Precedes p q l ↔ ∀ i : Fin l.length, q (l.get i) → ∃ b ∈ l.take i, p b := by
  constructor
  · intro h i hq
    refine h (l.take i) (l.get i) (l.drop (i + 1)) ?_ hq
    rw [List.get_eq_getElem, List.getElem_cons_drop i.isLt, List.take_append_drop]
  · rintro h before a after rfl hq
    have hi : before.length < (before ++ a :: after).length := by simp
    obtain ⟨b, hb, hp⟩ := h ⟨before.length, hi⟩ (by simpa using hq)
    exact ⟨b, by simpa using hb, hp⟩

instance decidablePrecedes [DecidablePred p] [DecidablePred q] : Decidable (Precedes p q l) :=
  decidable_of_iff _ precedes_iff_take.symm

theorem precedes_append (hl : Precedes p q l) (hr : Precedes p q r ∨ ∃ b ∈ l, p b) :
    Precedes p q (l ++ r) := by
  intro before a after he hq
  rcases List.append_eq_append_iff.mp he with ⟨m, hb, hm⟩ | ⟨m, hl', hm⟩
  · rcases hr with hr | ⟨b, hb', hp⟩
    · obtain ⟨b, hbm, hp⟩ := hr m a after hm hq
      exact ⟨b, hb ▸ List.mem_append_right l hbm, hp⟩
    · exact ⟨b, hb ▸ List.mem_append_left m hb', hp⟩
  · cases m with
    | nil =>
      simp only [List.nil_append] at hm
      simp only [List.append_nil] at hl'
      rcases hr with hr | ⟨b, hb', hp⟩
      · obtain ⟨b, hbm, _⟩ := hr [] a after (by simpa using hm.symm) hq
        cases hbm
      · exact ⟨b, hl' ▸ hb', hp⟩
    | cons x m =>
      obtain ⟨hx, _⟩ := List.cons.inj hm
      subst hx
      exact hl before a m hl' hq

theorem precedes_of_forall (h : ∀ a ∈ l, ¬ q a) : Precedes p q l := by
  intro before a after he hq
  exact absurd hq (h a (he ▸ by simp))

theorem Precedes.of_append (h : Precedes p q (l ++ r)) : Precedes p q l := by
  intro before a after he hq
  exact h before a (after ++ r) (by rw [he]; simp) hq

theorem Precedes.not_mem_of_forall (h : Precedes p q l) (hp : ∀ a ∈ l, ¬ p a) :
    ∀ a ∈ l, ¬ q a := by
  intro a ha hq
  obtain ⟨before, after, rfl⟩ := List.append_of_mem ha
  obtain ⟨b, hb, hpb⟩ := h before a after rfl hq
  exact hp b (List.mem_append_left _ hb) hpb

end History

end RtcTunnel.Base.Run
