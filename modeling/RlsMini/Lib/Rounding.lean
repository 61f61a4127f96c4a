import Mathlib.Algebra.Order.Round
import Mathlib.Tactic.Linarith

/-!
# Rounding half away from zero

`roundAway` is the nearest integer, and of two that are equally near the one
further from zero; `truncate` drops the fraction.  They are the `round` and the
conversion to an integer of C on numbers without rounding errors.  Mathlib's
`round` takes the halves upwards.
-/

namespace RlsMini.Rounding

variable {K : Type*} [Field K] [LinearOrder K] [FloorRing K]

/-- The nearest integer, halves away from zero. -/
def roundAway (x : K) : ℤ := if 0 ≤ x then ⌊x + 1 / 2⌋ else ⌈x - 1 / 2⌉

/-- The integer between `x` and zero that is next to `x`. -/
def truncate (x : K) : ℤ := if 0 ≤ x then ⌊x⌋ else ⌈x⌉

variable {x : K}

theorem roundAway_of_nonneg (h : 0 ≤ x) : roundAway x = ⌊x + 1 / 2⌋ := if_pos h

theorem roundAway_of_neg (h : x < 0) : roundAway x = ⌈x - 1 / 2⌉ := if_neg (not_le.mpr h)

variable [IsStrictOrderedRing K]

@[simp] theorem truncate_intCast (n : ℤ) : truncate (n : K) = n := by
  unfold truncate
  split
  · exact Int.floor_intCast n
  · exact Int.ceil_intCast n

theorem abs_roundAway_sub (x : K) : |(roundAway x : K) - x| ≤ 1 / 2 := by
  rw [abs_le]
  rcases le_or_gt 0 x with h | h
  · have hle := Int.floor_le (x + 1 / 2)
    have hlt := Int.lt_floor_add_one (x + 1 / 2)
    rw [roundAway_of_nonneg h]
    constructor <;> linarith
  · have hle := Int.le_ceil (x - 1 / 2)
    have hlt := Int.ceil_lt_add_one (x - 1 / 2)
    rw [roundAway_of_neg h]
    constructor <;> linarith

/-- The values that are rounded to a non-negative integer. -/
theorem roundAway_nonneg_iff : 0 ≤ roundAway x ↔ -(1 / 2) < x := by
  rcases le_or_gt 0 x with h | h
  · rw [roundAway_of_nonneg h]
    refine iff_of_true (Int.floor_nonneg.mpr (by linarith)) (by linarith)
  · rw [roundAway_of_neg h, ← Int.sub_one_lt_iff, Int.lt_ceil]
    push_cast
    constructor <;> intro h' <;> linarith

/-- The values that are rounded below a positive integer. -/
theorem roundAway_lt_iff {n : ℤ} (hn : 0 < n) : roundAway x < n ↔ x < n - 1 / 2 := by
  have hone : (1 : K) ≤ n := by exact_mod_cast hn
  rcases le_or_gt 0 x with h | h
  · rw [roundAway_of_nonneg h, Int.floor_lt]
    constructor <;> intro h' <;> linarith
  · have hceil : ⌈x - 1 / 2⌉ ≤ 0 := Int.ceil_le.mpr (by push_cast; linarith)
    rw [roundAway_of_neg h]
    exact iff_of_true (by omega) (by linarith)

/-- Rounding does not pass an integer. -/
theorem le_roundAway {n : ℤ} (h : (n : K) ≤ x) : n ≤ roundAway x := by
  rcases le_or_gt 0 x with h' | h'
  · rw [roundAway_of_nonneg h', Int.le_floor]
    linarith
  · rw [roundAway_of_neg h', Int.le_ceil_iff]
    linarith

theorem roundAway_intCast (n : ℤ) : roundAway (n : K) = n := by
  have hle : n ≤ roundAway (n : K) := le_roundAway le_rfl
  have herr := abs_le.mp (abs_roundAway_sub (n : K))
  have hlt : (roundAway (n : K) : K) < (n + 1 : ℤ) := by
    push_cast
    linarith [herr.2]
  rw [Int.cast_lt] at hlt
  omega

/-- What is nearer to an integer than half is rounded to it. -/
theorem roundAway_eq_of_abs_sub_lt {n : ℤ} (h : |x - n| < 1 / 2) : roundAway x = n := by
  have herr := abs_le.mp (abs_roundAway_sub x)
  rw [abs_lt] at h
  have hlow : ((n - 1 : ℤ) : K) < roundAway x := by
    push_cast
    linarith [herr.1, h.1]
  have hhigh : (roundAway x : K) < (n + 1 : ℤ) := by
    push_cast
    linarith [herr.2, h.2]
  rw [Int.cast_lt] at hlow hhigh
  omega

/-- The values that are rounded to zero. -/
theorem roundAway_eq_zero_iff : roundAway x = 0 ↔ |x| < 1 / 2 := by
  have hpos : 0 ≤ roundAway x ↔ -(1 / 2) < x := roundAway_nonneg_iff
  have hlt : roundAway x < 1 ↔ x < 1 / 2 := by
    rw [roundAway_lt_iff one_pos]
    push_cast
    constructor <;> intro h <;> linarith
  rw [abs_lt, ← hpos, ← hlt]
  omega

end RlsMini.Rounding
