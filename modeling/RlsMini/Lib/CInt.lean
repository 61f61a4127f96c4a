import Mathlib.Algebra.Group.Int.Defs
import Mathlib.Algebra.Group.Nat.Defs
import Mathlib.Data.List.Basic

/-!
# C integers

`Int32` and `Int64` wrap around as the machine words behind C's `int` and
`loff_t` do.  The lemmas below say when an operation on them is the operation
on the integers: no bound is crossed.  `%` on `Int32` truncates towards zero,
as C's does.
-/

namespace RlsMini.CInt

theorem toInt_add_one {x : Int32} (h : x.toInt < 2 ^ 31 - 1) :
    (x + 1).toInt = x.toInt + 1 := by
  have hlow := x.le_toInt
  rw [Int32.toInt_add, Int32.toInt_one, Int.bmod_eq_of_le (by omega) (by omega)]

theorem toInt_sub_one {x : Int32} (h : 0 ≤ x.toInt) : (x - 1).toInt = x.toInt - 1 := by
  have hhigh := x.toInt_lt
  rw [Int32.toInt_sub, Int32.toInt_one, Int.bmod_eq_of_le (by omega) (by omega)]

theorem toInt_add {x y : Int32} (hlow : -2 ^ 31 ≤ x.toInt + y.toInt)
    (hhigh : x.toInt + y.toInt < 2 ^ 31) : (x + y).toInt = x.toInt + y.toInt := by
  rw [Int32.toInt_add, Int.bmod_eq_of_le (by omega) (by omega)]

/-- On non-negative operands `%` is the remainder of the natural numbers. -/
theorem toInt_mod_of_nat {x y : Int32} {a b : Nat} (hx : x.toInt = a) (hy : y.toInt = b) :
    (x % y).toInt = (a % b : Nat) := by
  rw [Int32.toInt_mod, hx, hy, Int.ofNat_tmod]

theorem eq_zero_iff_toInt {x : Int32} : x = 0 ↔ x.toInt = 0 := by
  rw [← Int32.toInt_inj, Int32.toInt_zero]

theorem ofNat_succ (n : Nat) : Int32.ofNat (n + 1) = Int32.ofNat n + 1 := by
  rw [Int32.ofNat_add]
  rfl

/-- An `int` that counts less than `2 ^ 32` things is 0 only when there are
none. -/
theorem ofNat_eq_zero_iff {n : Nat} (hn : n < 2 ^ 32) : Int32.ofNat n = 0 ↔ n = 0 := by
  constructor
  · intro h
    have hvalue : (Int32.ofNat n).toInt = 0 := by
      rw [h]
      rfl
    have hsize : Int32.size = 4294967296 := rfl
    rw [Int32.toInt_ofNat', Int.bmod_def, hsize] at hvalue
    omega
  · rintro rfl
    rfl

/-- An integer converted to `int` and on to `uint32_t`. -/
theorem toNat_toUInt32_ofInt (n : Int) : ((Int32.ofInt n).toUInt32.toNat : Int) = n % 2 ^ 32 := by
  have hword : (Int32.ofInt n).toUInt32.toNat = (BitVec.ofInt 32 n).toNat := rfl
  rw [hword, BitVec.toNat_ofInt]
  omega

/-- A `uint32_t` converted to `int`. -/
theorem toInt_toInt32 (x : UInt32) :
    x.toInt32.toInt = if x.toNat < 2 ^ 31 then (x.toNat : Int) else x.toNat - 2 ^ 32 := by
  have h : x.toInt32.toInt = x.toBitVec.toInt := rfl
  rw [h, BitVec.toInt_eq_toNat_cond, UInt32.toNat_toBitVec]
  split <;> split <;> omega

end RlsMini.CInt
