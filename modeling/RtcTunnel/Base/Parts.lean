import RtcTunnel.Base.Run

/-!
# A machine of many parts

A machine that holds a list of smaller machines. An input makes new parts or is for one part,
and then moves that part as the part moves on its own. Whatever is done with the others in
between, a part makes its own run.
-/

namespace RtcTunnel.Base.Run

set_option autoImplicit false

/-- What an input is for. -/
inductive Deed (π κ : Type) where
  | make (parts : List π)
  | own (k : Nat) (input : κ)

variable {σ ι π κ γ : Type}

def Deed.made : Deed π κ → List π
  | .make parts => parts
  | .own _ _ => []

/-- The input of the `k`-th part. -/
def Deed.input (k : Nat) : Deed π κ → List κ
  | .make _ => []
  | .own j input => if j = k then [input] else []

/-- Each step is one of the parts, as long as it meets `C`. -/
structure OfParts (step : σ → ι → σ) (C : σ → ι → Prop) (I : σ → Prop) (deed : ι → Deed π κ)
    (parts : σ → List π) (part : π → κ → π) (answers : Nat → σ → ι → List γ)
    (answer : π → κ → List γ) : Prop where
  keep : ∀ s i, I s → C s i → I (step s i)
  make : ∀ s i made, I s → C s i → deed i = .make made →
    parts (step s i) = parts s ++ made ∧ ∀ k, answers k s i = []
  own : ∀ s i j input, I s → C s i → deed i = .own j input → ∃ p, (parts s)[j]? = some p ∧
    parts (step s i) = (parts s).set j (part p input) ∧ answers j s i = answer p input ∧
    ∀ k, k ≠ j → answers k s i = []

variable {step : σ → ι → σ} {C : σ → ι → Prop} {I : σ → Prop} {deed : ι → Deed π κ}
  {parts : σ → List π} {part : π → κ → π} {answers : Nat → σ → ι → List γ} {answer : π → κ → List γ}

/-- **A part runs as it does on its own**, from where it is or is made on. -/
theorem OfParts.part_run (h : OfParts step C I deed parts part answers answer) {s : σ} {is : List ι}
    (hi : I s) (hm : Meets step C s is) {k : Nat} {p : π}
    (hp : (parts s ++ is.flatMap fun i => (deed i).made)[k]? = some p) :
    outputs step (answers k) s is = outputs part answer p (is.flatMap fun i => (deed i).input k) ∧
      (parts (run step s is))[k]? = some (run part p (is.flatMap fun i => (deed i).input k)) := by
  induction is generalizing s p with
  | nil =>
    rw [List.flatMap_nil, List.append_nil] at hp
    exact ⟨rfl, hp⟩
  | cons i is ih =>
    obtain ⟨hc, hm⟩ := hm
    rw [List.flatMap_cons] at hp ⊢
    cases hd : deed i with
    | make made =>
      obtain ⟨hparts, hnone⟩ := h.make s i made hi hc hd
      rw [hd, Deed.made, ← List.append_assoc, ← hparts] at hp
      obtain ⟨hout, hend⟩ := ih (h.keep s i hi hc) hm hp
      refine ⟨?_, hend⟩
      rw [outputs, hnone, hout]
      rfl
    | own j input =>
      obtain ⟨q, hq, hparts, hanswer, hothers⟩ := h.own s i j input hi hc hd
      obtain ⟨hlt, _⟩ := List.getElem?_eq_some_iff.mp hq
      rw [hd, Deed.made, List.nil_append] at hp
      by_cases hjk : j = k
      · subst hjk
        rw [List.getElem?_append_left hlt, hq] at hp
        cases hp
        have hnext : (parts (step s i) ++ is.flatMap fun i => (deed i).made)[j]? =
            some (part p input) := by
          rw [hparts, List.getElem?_append_left (by rw [List.length_set]; exact hlt),
            List.getElem?_set_self hlt]
        obtain ⟨hout, hend⟩ := ih (h.keep s i hi hc) hm hnext
        rw [Deed.input, if_pos rfl]
        refine ⟨?_, hend⟩
        rw [outputs, hout, hanswer]
        rfl
      · have hnext : (parts (step s i) ++ is.flatMap fun i => (deed i).made)[k]? = some p := by
          rw [hparts, List.getElem?_append, List.length_set, List.getElem?_set_ne hjk,
            ← List.getElem?_append]
          exact hp
        obtain ⟨hout, hend⟩ := ih (h.keep s i hi hc) hm hnext
        rw [Deed.input, if_neg hjk]
        refine ⟨?_, hend⟩
        rw [outputs, hout, hothers k (Ne.symm hjk)]
        rfl

/-- No part is lost, and none comes that was not made. -/
theorem OfParts.length_run (h : OfParts step C I deed parts part answers answer) {s : σ}
    {is : List ι} (hi : I s) (hm : Meets step C s is) :
    (parts (Run.run step s is)).length =
      (parts s).length + (is.flatMap fun i => (deed i).made).length := by
  induction is generalizing s with
  | nil => rfl
  | cons i is ih =>
    obtain ⟨hc, hm⟩ := hm
    rw [run_cons, ih (h.keep s i hi hc) hm, List.flatMap_cons, List.length_append]
    cases hd : deed i with
    | make made =>
      obtain ⟨hparts, _⟩ := h.make s i made hi hc hd
      rw [hparts, List.length_append, Deed.made, Nat.add_assoc]
    | own j input =>
      obtain ⟨_, _, hparts, _⟩ := h.own s i j input hi hc hd
      rw [hparts, List.length_set, Deed.made, List.length_nil, Nat.zero_add]

end RtcTunnel.Base.Run
