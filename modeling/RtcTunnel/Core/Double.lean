import RtcTunnel.Core.Number

/-!
# Integers as doubles

A count crosses into the host as a double, which holds 53 bits of it, and the clock of the
host crosses into the module as a whole number of milliseconds.
-/

namespace RtcTunnel.Core

set_option autoImplicit false

namespace F64

/-- The integer nearest to `n` that a double holds, ties to even. -/
def round (n : Nat) : Nat :=
  if n < 2 ^ 53 then n
  else
    let unit := 2 ^ (n.log2 - 52)
    let kept := n / unit
    if unit < 2 * (n % unit) ∨ unit = 2 * (n % unit) ∧ kept % 2 = 1 then (kept + 1) * unit
    else kept * unit

/-- `n as f64` -/
def ofNat (n : Nat) : F64 := .ofInt (round n)

theorem round_eq {n : Nat} (h : n ≤ 2 ^ 53) : round n = n := by
  unfold round
  by_cases hn : n < 2 ^ 53
  · rw [if_pos hn]
  · obtain rfl : n = 2 ^ 53 := by omega
    decide +kernel

theorem ofNat_eq {n : Nat} (h : n ≤ 2 ^ 53) : ofNat n = .ofInt n := by rw [ofNat, round_eq h]

/-- A count is not negative. -/
theorem ofNat_nonneg (n : Nat) : (ofNat n).lt (.ofInt 0) = false := by
  have h : (ofInt 0).le (ofNat n) = true := ofInt_le.mpr (Int.natCast_nonneg _)
  rw [lt, h]
  exact Bool.and_false _

/-- The clock of the module is not behind a number of milliseconds that the host reached. -/
theorem le_toU64 {n : Nat} {now : F64} (hn : n ≤ u64Max) (h : (ofInt n).le now = true) :
    n ≤ now.maxZero.toU64.toNat := by
  by_cases hpos : now.isPositive = true
  · have hmax : now.maxZero = now := by
      rcases now with _ | (_ | _) | q
      · cases hpos
      · rfl
      · cases hpos
      · have hq : (0 : Rat) < q := of_decide_eq_true hpos
        rw [maxZero, max_eq_left hq.le]
    rw [hmax]
    exact (isGreatest_toU64 hpos).2 ⟨h, hn⟩
  · rcases now with _ | (_ | _) | q
    · cases h
    · exact absurd rfl hpos
    · cases h
    · have hq : ¬ (0 : Rat) < q := fun hq => hpos (decide_eq_true hq)
      have hle : ((n : Int) : Rat) ≤ q := of_decide_eq_true h
      have hz : ((n : Int) : Rat) ≤ 0 := hle.trans (not_lt.mp hq)
      have : (n : Int) ≤ 0 := by exact_mod_cast hz
      omega

end F64

end RtcTunnel.Core
