import Mathlib.Data.Nat.Bitwise

/-!
# Bit-fields of a number

`slice` is the value of the field of `width` bits from bit `lsb` on, and
`mask` selects it.  A field is taken out with a mask and a shift, and fields
that do not overlap are put together with `|||`; the lemmas turn the two into
arithmetic.
-/

namespace RlsMini.BitFields

/-- The `width` bits of `n` from bit `lsb` on. -/
def slice (n width lsb : Nat) : Nat := n / 2 ^ lsb % 2 ^ width

/-- The bits of a field. -/
def mask (width lsb : Nat) : Nat := (2 ^ width - 1) * 2 ^ lsb

/-- A mask and a shift take the field out. -/
theorem and_mask_shiftRight (n width lsb : Nat) :
    (n &&& mask width lsb) >>> lsb = slice n width lsb := by
  have hmask : mask width lsb >>> lsb = 2 ^ width - 1 := by
    rw [mask, Nat.shiftRight_eq_div_pow, Nat.mul_div_cancel _ (Nat.two_pow_pos lsb)]
  rw [Nat.shiftRight_and_distrib, hmask, Nat.and_two_pow_sub_one_eq_mod,
    Nat.shiftRight_eq_div_pow, slice]

/-- A mask from bit 0 on keeps the remainder. -/
theorem and_mask_zero (n width : Nat) : n &&& mask width 0 = n % 2 ^ width := by
  rw [mask, Nat.pow_zero, Nat.mul_one, Nat.and_two_pow_sub_one_eq_mod]

/-- A field above the bits of `a`. -/
theorem or_field {a lsb : Nat} (h : a < 2 ^ lsb) (b : Nat) :
    a ||| b * 2 ^ lsb = a + b * 2 ^ lsb := by
  rw [Nat.lor_comm, Nat.mul_comm b, ← Nat.two_pow_add_eq_or_of_lt h, Nat.add_comm]

end RlsMini.BitFields
