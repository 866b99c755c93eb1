import Mathlib.Algebra.Ring.Nat
import RtcTunnel.Core.Net

/-!
# Numbers that are written and read back

`Nat.toDigits` writes what `readNumber` reads, whatever stands behind the number, as long as
it does not begin with another digit.
-/

namespace RtcTunnel.Core.Net

set_option autoImplicit false

/-- The text does not go on with a digit. -/
def NoDigit (radix : Nat) (rest : Text) : Prop := ∀ c ∈ rest.head?, toDigit radix c = none

theorem noDigit_nil (radix : Nat) : NoDigit radix [] := fun _ h => by cases h

theorem noDigit_cons {radix : Nat} {c : Char} (h : toDigit radix c = none) (rest : Text) :
    NoDigit radix (c :: rest) := fun _ hc => Option.some.inj hc ▸ h

theorem toDigit_digitChar {radix d : Nat} (hr : radix ≤ 16) (hd : d < radix) :
    toDigit radix (Nat.digitChar d) = some d := by
  have hall : ∀ d < 16, toDigit 16 (Nat.digitChar d) = some d := by decide
  have h16 := hall d (by omega)
  unfold toDigit at h16 ⊢
  obtain ⟨hs, _⟩ := Option.filter_eq_some_iff.mp h16
  exact Option.filter_eq_some_iff.mpr ⟨hs, decide_eq_true hd⟩

theorem takeDigits_of_noDigit {radix : Nat} {rest : Text} (h : NoDigit radix rest) :
    takeDigits radix rest = ([], rest) := by
  cases rest with
  | nil => rfl
  | cons c rest => rw [takeDigits, h c rfl]

theorem takeDigits_map {radix : Nat} (hr : radix ≤ 16) {rest : Text} (hrest : NoDigit radix rest)
    {ds : List Nat} (hds : ∀ d ∈ ds, d < radix) :
    takeDigits radix (ds.map Nat.digitChar ++ rest) = (ds, rest) := by
  induction ds with
  | nil => exact takeDigits_of_noDigit hrest
  | cons d ds ih =>
    rw [List.map_cons, List.cons_append, takeDigits,
      toDigit_digitChar hr (hds d (List.mem_cons_self ..)),
      ih fun e he => hds e (List.mem_cons_of_mem _ he)]

/-- The digits of a number, most significant first. -/
theorem toDigits_eq_map {radix : Nat} (hr : 1 < radix) (n : Nat) :
    ∃ ds, Nat.toDigits radix n = ds.map Nat.digitChar ∧ (∀ d ∈ ds, d < radix) ∧
      ofDigits radix ds = n := by
  induction n using Nat.base_induction radix hr with
  | single m hm =>
    refine ⟨[m], Nat.toDigits_of_lt_base hm, by simpa using hm, ?_⟩
    simp [ofDigits]
  | digit m k hk hm ih =>
    obtain ⟨ds, hds, hlt, hval⟩ := ih
    refine ⟨ds ++ [k], ?_, ?_, ?_⟩
    · rw [← Nat.toDigits_append_toDigits hr hm hk, hds, Nat.toDigits_of_lt_base hk,
        List.map_append]
      rfl
    · intro d hd
      rcases List.mem_append.mp hd with hd | hd
      · exact hlt d hd
      · rw [List.mem_singleton.mp hd]
        exact hk
    · rw [ofDigits, List.foldl_append, ← ofDigits, hval, List.foldl_cons, List.foldl_nil,
        Nat.mul_comm]

theorem head?_toDigits_ne {radix n : Nat} (hr : 1 < radix) (h16 : radix ≤ 16) (hn : 0 < n) :
    (Nat.toDigits radix n).head? ≠ some '0' := by
  induction n using Nat.base_induction radix hr with
  | single m hm =>
    have hall : ∀ d < 16, 0 < d → Nat.digitChar d ≠ '0' := by decide
    rw [Nat.toDigits_of_lt_base hm]
    exact fun h => hall m (by omega) hn (Option.some.inj h)
  | digit m k hk hm ih =>
    rw [← Nat.toDigits_append_toDigits hr hm hk, List.head?_append,
      Option.or_of_isSome (by simp)]
    exact ih hm

/-- **A number is read back.** -/
theorem readNumber_toDigits {radix n : Nat} (maxDigits : Option Nat) (allowZeroPrefix : Bool)
    (max : Nat) {rest : Text} (hr : 1 < radix) (h16 : radix ≤ 16) (hmax : n ≤ max)
    (hlen : ∀ k ∈ maxDigits, 0 < k ∧ n < radix ^ k) (hrest : NoDigit radix rest) :
    readNumber radix maxDigits allowZeroPrefix max (Nat.toDigits radix n ++ rest) =
      some (n, rest) := by
  obtain ⟨ds, hds, hlt, hval⟩ := toDigits_eq_map hr n
  have hlength : ds.length = (Nat.toDigits radix n).length := by rw [hds, List.length_map]
  have hzero : ((Nat.toDigits radix n ++ rest).head? == some '0' && decide (1 < ds.length)) =
      false := by
    by_cases hn : n = 0
    · have hone : ds.length = 1 := by rw [hlength, hn, Nat.toDigits_zero]; rfl
      simp [hone]
    · have hne := head?_toDigits_ne hr h16 (Nat.pos_of_ne_zero hn)
      rw [List.head?_append, Option.or_of_isSome (by simp)]
      simp [hne]
  have hdigits : maxDigits.any (· < ds.length) = false := by
    cases maxDigits with
    | none => rfl
    | some k =>
      obtain ⟨hk, hlt⟩ := hlen k rfl
      have hle := (Nat.length_toDigits_le_iff hr hk).mpr hlt
      simp only [Option.any_some, decide_eq_false_iff_not]
      omega
  have hempty : ds.isEmpty = false := by
    cases ds with
    | nil => exact absurd hds Nat.toDigits_ne_nil
    | cons d ds => rfl
  have hread : takeDigits radix (Nat.toDigits radix n ++ rest) = (ds, rest) := by
    rw [hds, takeDigits_map h16 hrest hlt]
  simp only [readNumber, hread, hval, Bool.and_assoc, hzero, hempty, hdigits]
  simp [hmax]

end RtcTunnel.Core.Net
