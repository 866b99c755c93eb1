import Mathlib.Data.Rat.Floor

/-!
# Double precision numbers

A double as the value it stands for. The conversions of the program truncate,
compare and clamp; none of them rounds, so the finite values need no format.
-/

namespace RtcTunnel.Core

set_option autoImplicit false

inductive F64 where
  | nan
  | infinite (negative : Bool)
  | finite (q : Rat)
  deriving DecidableEq

namespace F64

/-- `x > 0.0` -/
def isPositive : F64 → Bool
  | .nan => false
  | .infinite negative => !negative
  | .finite q => 0 < q

def isFinite : F64 → Bool
  | .finite _ => true
  | _ => false

/-- `x.max(0.0)`, which is the other operand when one is NaN. -/
def maxZero : F64 → F64
  | .nan => .finite 0
  | .infinite negative => if negative then .finite 0 else .infinite false
  | .finite q => .finite (max q 0)

/-- `x <= y` -/
def le : F64 → F64 → Bool
  | .nan, _ => false
  | _, .nan => false
  | .infinite true, _ => true
  | _, .infinite false => true
  | .finite p, .finite q => p ≤ q
  | _, _ => false

theorem le_refl {x : F64} (h : x ≠ .nan) : x.le x = true := by
  rcases x with _ | (_ | _) | q
  · exact absurd rfl h
  · rfl
  · rfl
  · exact decide_eq_true Rat.le_refl

theorem le_trans {x y z : F64} (h : x.le y = true) (h' : y.le z = true) : x.le z = true := by
  rcases x with _ | (_ | _) | p <;> rcases y with _ | (_ | _) | q <;>
    rcases z with _ | (_ | _) | r <;>
    simp only [le, decide_eq_true_eq, Bool.false_eq_true] at h h' ⊢
  exact Rat.le_trans h h'

theorem ne_nan_of_le {x y : F64} (h : x.le y = true) : x ≠ .nan := by
  rintro rfl
  cases h

theorem le_total {x y : F64} (hx : x ≠ .nan) (hy : y ≠ .nan) : x.le y = true ∨ y.le x = true := by
  rcases x with _ | (_ | _) | p
  · exact absurd rfl hx
  · rcases y with _ | (_ | _) | q
    · exact absurd rfl hy
    all_goals exact .inr rfl
  · rcases y with _ | (_ | _) | q
    · exact absurd rfl hy
    all_goals exact .inl rfl
  · rcases y with _ | (_ | _) | q
    · exact absurd rfl hy
    · exact .inl rfl
    · exact .inr rfl
    · simp only [le, decide_eq_true_eq]
      exact Rat.le_total

theorem ne_nan_of_ge {x y : F64} (h : x.le y = true) : y ≠ .nan := by
  rintro rfl
  rcases x with _ | (_ | _) | q <;> cases h

/-- `x < y` -/
def lt (x y : F64) : Bool := x.le y && !y.le x

theorem le_of_not_lt {x y : F64} (hx : x ≠ .nan) (hy : y ≠ .nan) (h : x.lt y = false) :
    y.le x = true := by
  rcases le_total hx hy with hle | hle
  · simpa [lt, hle] using h
  · exact hle

/-- An integer of at most 53 bits, as every length and count of the program is. -/
def ofInt (n : Int) : F64 := .finite n

theorem ofInt_le {m n : Int} : (ofInt m).le (ofInt n) = true ↔ m ≤ n := by
  simp only [ofInt, le, decide_eq_true_eq, Int.cast_le]

/-- The whole part, which a conversion to an integer keeps of a positive number. -/
def whole : F64 → Nat
  | .finite q => q.floor.toNat
  | _ => 0

def isWhole : F64 → Bool
  | .finite q => q.isInt
  | _ => false

theorem whole_cast {q : Rat} (h : (finite q).isPositive = true) :
    (((finite q).whole : Int) : Rat) = (q.floor : Int) := by
  have hq : (0 : Rat) < q := of_decide_eq_true h
  have hf : 0 ≤ q.floor := Rat.le_floor_iff.mpr hq.le
  rw [whole, Int.toNat_of_nonneg hf]

theorem whole_le {x : F64} (h : x.isPositive = true) : (ofInt x.whole).le x = true := by
  rcases x with _ | (_ | _) | q
  · cases h
  · rfl
  · cases h
  · simp only [ofInt, le, decide_eq_true_eq]
    rw [whole_cast h]
    exact Rat.floor_le q

theorem floor_of_isWhole {q : Rat} : (finite q).isWhole = true ↔ (q.floor : Rat) = q := by
  have hd : (finite q).isWhole = true ↔ q.den = 1 := by
    simp only [isWhole, Rat.isInt, beq_iff_eq]
  rw [hd]
  constructor
  · intro h
    rw [Rat.floor_def, h, Nat.cast_one, Int.ediv_one]
    exact (Rat.den_eq_one_iff q).mp h
  · intro h
    rw [← h]
    exact Rat.den_intCast _

/-- Below a whole number is below its whole part, -/
theorem lt_of_isWhole {x : F64} (h : x.isPositive = true) (hw : x.isWhole = true) {n : Nat} :
    (ofInt n).lt x = true ↔ n < x.whole := by
  rcases x with _ | (_ | _) | q
  · cases hw
  · cases hw
  · cases hw
  · have hx : finite q = ofInt ((finite q).whole : Nat) := by
      rw [ofInt, whole_cast h, floor_of_isWhole.mp hw]
    have hle : ∀ m k : Nat, (ofInt m).le (ofInt k) = true ↔ m ≤ k := by
      intro m k
      rw [ofInt_le, Int.ofNat_le]
    rw [lt, Bool.and_eq_true, Bool.not_eq_true', hx, hle, ← Bool.not_eq_true, hle, ← hx]
    omega

/-- and a number with a fraction is above its own. -/
theorem whole_lt {x : F64} (h : x.isPositive = true) (hl : x.lt (.ofInt 4294967296) = true)
    (hw : x.isWhole = false) : (ofInt x.whole).lt x = true := by
  rcases x with _ | (_ | _) | q
  · cases h
  · cases hl
  · cases h
  · have hle := whole_le h
    rw [lt, Bool.and_eq_true, Bool.not_eq_true']
    refine ⟨hle, Bool.eq_false_iff.mpr fun hge => ?_⟩
    have hne : ¬ (q.floor : Rat) = q := fun hf => Bool.eq_false_iff.mp hw (floor_of_isWhole.mpr hf)
    simp only [ofInt, le, decide_eq_true_eq] at hge
    rw [whole_cast h] at hge
    exact hne (le_antisymm (Rat.floor_le q) hge)

theorem zero_lt {x : F64} (h : x.isPositive = true) : (ofInt 0).lt x = true := by
  rcases x with _ | (_ | _) | q
  · cases h
  · rfl
  · cases h
  · have hq : (0 : Rat) < q := of_decide_eq_true h
    simp [lt, ofInt, le, hq, hq.le]

def u64Max : Nat := 18446744073709551615

/-- `x as u64`: truncation toward zero that stops at both ends, NaN to zero. -/
def toU64 : F64 → UInt64
  | .nan => 0
  | .infinite negative => if negative then 0 else UInt64.ofNat u64Max
  | .finite q => UInt64.ofNat (min q.floor.toNat u64Max)

/-- The largest count in reach that is not above a positive number. -/
theorem isGreatest_toU64 {x : F64} (h : x.isPositive = true) :
    IsGreatest {n : Nat | (ofInt n).le x = true ∧ n ≤ u64Max} x.toU64.toNat := by
  have hround : ∀ n ≤ u64Max, (UInt64.ofNat n).toNat = n := by
    intro n hn
    rw [UInt64.toNat_ofNat', Nat.mod_eq_of_lt]
    unfold u64Max at hn
    omega
  rcases x with _ | (_ | _) | q
  · cases h
  · have hmax : (F64.infinite false).toU64.toNat = u64Max := hround u64Max le_rfl
    rw [hmax]
    exact ⟨⟨rfl, le_rfl⟩, fun n hn => hn.2⟩
  · cases h
  · have hto : (finite q).toU64.toNat = min q.floor.toNat u64Max := hround _ (Nat.min_le_right ..)
    have hpos : 0 ≤ q.floor := Rat.le_floor_iff.mpr (of_decide_eq_true h : (0 : Rat) < q).le
    have hle : ∀ n : Nat, (ofInt n).le (finite q) = true ↔ n ≤ q.floor.toNat := by
      intro n
      simp only [ofInt, le, decide_eq_true_eq]
      rw [← Rat.le_floor_iff]
      omega
    rw [hto]
    exact ⟨⟨(hle _).mpr (Nat.min_le_left ..), Nat.min_le_right ..⟩,
      fun n hn => Nat.le_min.mpr ⟨(hle n).mp hn.1, hn.2⟩⟩

end F64

end RtcTunnel.Core
