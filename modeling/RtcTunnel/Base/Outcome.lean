import Mathlib.Data.List.Basic

/-!
# Methods that may fail halfway

A method on `&mut self` that returns `Result<()>` leaves its changes in place
when it fails. `Outcome` is what such a call leaves behind, and `andThen` is
`?` followed by the rest of the caller.
-/

namespace RtcTunnel.Base

set_option autoImplicit false

abbrev Outcome (σ ε : Type) := σ × Except ε Unit

/-- The value of a call that is known to have succeeded. -/
def okValue {ε α : Type} : (r : Except ε α) → r.isOk = true → α
  | .ok a, _ => a

theorem eq_ok_okValue {ε α : Type} : ∀ (r : Except ε α) (h : r.isOk = true), r = .ok (okValue r h)
  | .ok _, _ => rfl

/-- A sequence of fallible calls succeeds when both parts do. -/
theorem bind_ok {ε α β : Type} {x : Except ε α} {f : α → Except ε β} {b : β}
    (h : x >>= f = .ok b) : ∃ a, x = .ok a ∧ f a = .ok b := by
  cases x with
  | error e => cases h
  | ok a => exact ⟨a, rfl, h⟩

namespace Outcome

variable {σ ε : Type}

def andThen (r : Outcome σ ε) (k : σ → Outcome σ ε) : Outcome σ ε :=
  match r with
  | (s, .ok ()) => k s
  | (s, .error e) => (s, .error e)

@[simp] theorem andThen_ok (s : σ) (u : Unit) (k : σ → Outcome σ ε) :
    andThen (s, .ok u) k = k s := rfl

@[simp] theorem andThen_error (s : σ) (e : ε) (k : σ → Outcome σ ε) :
    andThen (s, .error e) k = (s, .error e) := rfl

theorem andThen_keeps {P : σ → Prop} {r : Outcome σ ε} {k : σ → Outcome σ ε}
    (hr : P r.1) (hk : ∀ s, P s → P (k s).1) : P (andThen r k).1 := by
  obtain ⟨s, _ | _⟩ := r
  · exact hr
  · exact hk s hr

/-- What the second part does not change is what the first part left. -/
theorem andThen_unchanged {β : Type} (f : σ → β) {r : Outcome σ ε} {k : σ → Outcome σ ε}
    (hk : ∀ s, f (k s).1 = f s) : f (andThen r k).1 = f r.1 := by
  obtain ⟨s, _ | _⟩ := r
  · rfl
  · exact hk s

/-- A relation that both parts keep, and that composes, the whole keeps. -/
theorem andThen_related {R : σ → σ → Prop} (trans : ∀ {a b c}, R a b → R b c → R a c)
    {s : σ} {r : Outcome σ ε} {k : σ → Outcome σ ε}
    (hr : R s r.1) (hk : ∀ t, R t (k t).1) : R s (andThen r k).1 := by
  obtain ⟨t, _ | _⟩ := r
  · exact hr
  · exact trans hr (hk t)

end Outcome

end RtcTunnel.Base
