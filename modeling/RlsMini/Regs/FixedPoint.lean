import Mathlib.Data.Rat.Floor
import RlsMini.Lib.CInt
import RlsMini.Lib.Rounding
import RlsMini.Regs.Codecs
import RlsMini.Regs.Stack

/-!
# Fixed point through a register

The conversions of `misc.h` on any type of floating-point numbers, and on exact
numbers, where a value can be followed from a setter of `axi_dsp.cpp` to the
getter of the same register.

A coefficient is stored as 16 bits in two's complement and read as a number
from 0 to 65535, so the negative ones come back 4 too large.  The compensation
reference also comes back without its scale.  An angle is converted by way of
`int32_t`, which leaves out the upper half of the circle.
-/

namespace RlsMini.Regs

open Rounding BitFields CInt

/-! ## The conversions -/

/-- The operations on `float` that the conversions are made of. -/
structure FloatArith (F : Type) where
  /-- The value of an integer, of any type. -/
  ofInt : Int → F
  mul : F → F → F
  div : F → F → F
  roundf : F → F
  /-- The conversion to `int32_t`, where it is defined. -/
  toInt32 : F → Option Int32

namespace FloatArith

section Conversions

variable {F : Type} (fa : FloatArith F)

/-- `1UL << ord`. -/
def unit (ord : Nat) : F := fa.ofInt ((1 : UInt64) <<< UInt64.ofNat ord).toNat

/-- `float_to_fix`, where it is defined. -/
def floatToFix (flt : F) (ord : Nat) : Option Int32 :=
  fa.toInt32 (fa.roundf (fa.mul flt (fa.unit ord)))

/-- `fix_to_float`. -/
def fixToFloat (fix : Int32) (ord : Nat) : F := fa.div (fa.ofInt fix.toInt) (fa.unit ord)

/-- `deg_to_fix`, where it is defined: the `int32_t` is returned as a
`uint32_t`. -/
def degToFix (ph : F) (ord : Nat) : Option UInt32 :=
  (fa.toInt32 (fa.roundf (fa.mul (fa.div ph (fa.ofInt 360)) (fa.unit ord)))).map Int32.toUInt32

/-- `fix_to_deg`. -/
def fixToDeg (num : UInt32) (ord : Nat) : F :=
  fa.mul (fa.div (fa.ofInt num.toNat) (fa.unit ord)) (fa.ofInt 360)

/-- The conversions for the library.  Where one is undefined its result may be
anything. -/
def ops (undef : F → Int32) : FloatOps F where
  floatToFix flt ord := (fa.floatToFix flt ord).getD (undef flt)
  fixToFloat := fa.fixToFloat
  degToFix ph ord := (fa.degToFix ph ord).getD (undef ph).toUInt32
  fixToDeg := fa.fixToDeg
  ofUInt32 num := fa.ofInt num.toNat

end Conversions

/-- Exact arithmetic, rounding half away from zero. -/
def exact : FloatArith ℚ where
  ofInt n := n
  mul x y := x * y
  div x y := x / y
  roundf x := roundAway x
  toInt32 x :=
    if Int32.minValue.toInt ≤ truncate x ∧ truncate x ≤ Int32.maxValue.toInt then
      some (Int32.ofInt (truncate x))
    else none

/-- The shift stays within the 64 bits. -/
theorem exact_unit {ord : Nat} (hord : ord < 64) : exact.unit ord = 2 ^ ord := by
  have hpow : 1 * 2 ^ ord < 2 ^ 64 := by
    rw [Nat.one_mul]
    exact Nat.pow_lt_pow_right (by omega) hord
  have hunit : ((1 : UInt64) <<< UInt64.ofNat ord).toNat = 2 ^ ord := by
    rw [UInt64.toNat_shiftLeft, UInt64.toNat_ofNat_of_lt' (by show ord < 2 ^ 64; omega),
      Nat.mod_eq_of_lt hord, Nat.shiftLeft_eq]
    exact (Nat.mod_eq_of_lt hpow).trans (Nat.one_mul _)
  simp only [unit, exact, hunit]
  push_cast
  rfl

/-- A rounded value within `int32_t`. -/
theorem exact_toInt32 {x : ℚ} (h : -2 ^ 31 ≤ roundAway x ∧ roundAway x < 2 ^ 31) :
    exact.toInt32 (exact.roundf x) = some (Int32.ofInt (roundAway x)) := by
  have hmin : Int32.minValue.toInt = -2 ^ 31 := by decide
  have hmax : Int32.maxValue.toInt = 2 ^ 31 - 1 := by decide
  simp only [exact, truncate_intCast, hmin, hmax]
  rw [if_pos (by omega)]

/-- A rounded value outside of `int32_t`. -/
theorem exact_toInt32_none {x : ℚ} (h : 2 ^ 31 ≤ roundAway x) :
    exact.toInt32 (exact.roundf x) = none := by
  have hmax : Int32.maxValue.toInt = 2 ^ 31 - 1 := by decide
  simp only [exact, truncate_intCast, hmax]
  rw [if_neg (by omega)]

end FloatArith

/-! ## One register -/

section Register

variable {s : Stack} {off : UInt32} (val : UInt32)

/-- What is written to a register is stored. -/
theorem regs_axiWrite (hmode : s.mode = .readWrite) (hreg : rlsMiniPl.IsReg off.toNat)
    (hoff : off.toNat ≠ 0) :
    (axiWrite (rlsMiniPl.stackOs 0) 0 val off s).2.file.regs off = val := by
  obtain ⟨s', hwrite, -, hregs⟩ := Driver.regWrite_register val hmode hreg hoff
  rw [axiWrite, hwrite, hregs]
  exact Registers.set_self _ _ _

/-- What is written to a register is read back. -/
theorem axiRead_axiWrite (raw : UInt32) (hmode : s.mode = .readWrite)
    (hreg : rlsMiniPl.IsReg off.toNat) (hoff : off.toNat ≠ 0) :
    (axiRead (rlsMiniPl.stackOs 0) 0 raw off
      (axiWrite (rlsMiniPl.stackOs 0) 0 val off s).2).2.1 = val := by
  obtain ⟨s', hwrite, hmode', hregs⟩ := Driver.regWrite_register val hmode hreg hoff
  have hopen : s'.mode ≠ .closed := by rw [hmode']; decide
  obtain ⟨s'', hread, -, -⟩ := Driver.regRead_register raw hopen hreg
  rw [axiRead, axiWrite, hwrite, hread, hregs]
  exact Registers.set_self _ _ _

end Register

/-! ## Coefficients -/

/-- The values of the format: 16 bits, signed, 2^14 for 1. -/
def InFormat (x : ℚ) : Prop := -2 ≤ x ∧ x < 2 - 1 / 2 ^ 15

/-- The 16 bits that are stored for a value, as a number from 0 on. -/
def half (x : ℚ) : Int := roundAway (x * 2 ^ 14) % 2 ^ 16

section Coefficients

variable {x : ℚ}

theorem InFormat.roundAway (h : InFormat x) :
    -2 ^ 15 ≤ roundAway (x * 2 ^ 14) ∧ roundAway (x * 2 ^ 14) < 2 ^ 15 := by
  obtain ⟨hlow, hhigh⟩ := h
  constructor
  · apply le_roundAway
    push_cast
    linarith
  · rw [roundAway_lt_iff (by omega)]
    push_cast
    linarith

theorem InFormat.floatToFix (h : InFormat x) :
    FloatArith.exact.floatToFix x 14 = some (Int32.ofInt (Rounding.roundAway (x * 2 ^ 14))) := by
  obtain ⟨hlow, hhigh⟩ := h.roundAway
  rw [FloatArith.floatToFix, FloatArith.exact_unit (by omega)]
  exact FloatArith.exact_toInt32 (x := x * 2 ^ 14) ⟨by omega, by omega⟩

/-- The low half of the word. -/
theorem toUInt32_ofInt_mod (n : Int) :
    (((Int32.ofInt n).toUInt32.toNat % 2 ^ 16 : Nat) : Int) = n % 2 ^ 16 := by
  have hword := toNat_toUInt32_ofInt n
  omega

theorem half_of_nonneg (h : InFormat x) (hpos : 0 ≤ roundAway (x * 2 ^ 14)) :
    half x = roundAway (x * 2 ^ 14) := by
  obtain ⟨-, hhigh⟩ := h.roundAway
  exact Int.emod_eq_of_lt hpos (by omega)

theorem half_of_neg (h : InFormat x) (hneg : roundAway (x * 2 ^ 14) < 0) :
    half x = roundAway (x * 2 ^ 14) + 2 ^ 16 := by
  obtain ⟨hlow, -⟩ := h.roundAway
  unfold half
  omega

/-- Rounding is off by half of the last bit at most. -/
theorem abs_roundAway_div_sub (x : ℚ) :
    |(roundAway (x * 2 ^ 14) : ℚ) / 2 ^ 14 - x| ≤ 1 / 2 ^ 15 := by
  have herr := abs_roundAway_sub (x * 2 ^ 14)
  rw [abs_le] at herr ⊢
  constructor <;> linarith [herr.1, herr.2]

/-- The values that are stored as they are meant to be read. -/
theorem roundAway_mul_nonneg_iff : 0 ≤ roundAway (x * 2 ^ 14) ↔ -(1 / 2 ^ 15) < x := by
  rw [roundAway_nonneg_iff]
  constructor <;> intro h <;> linarith

/-- A half that is read without its sign. -/
theorem half_near_iff (h : InFormat x) :
    |(half x : ℚ) / 2 ^ 14 - x| ≤ 1 / 2 ^ 15 ↔ -(1 / 2 ^ 15) < x := by
  have herr := abs_roundAway_div_sub x
  rw [← roundAway_mul_nonneg_iff]
  rcases Int.lt_or_le (roundAway (x * 2 ^ 14)) 0 with hneg | hpos
  · refine iff_of_false ?_ (Int.not_le.mpr hneg)
    rw [half_of_neg h hneg, abs_le]
    rw [abs_le] at herr
    push_cast
    intro hnear
    linarith [herr.1, hnear.2]
  · rw [half_of_nonneg h hpos]
    exact iff_of_true herr hpos

/-- A half that is read without its sign and its scale. -/
theorem half_unscaled_near_iff (h : InFormat x) :
    |(half x : ℚ) - x| ≤ 1 / 2 ^ 15 ↔ |x| < 1 / 2 ^ 15 := by
  have hzero : |x| < 1 / 2 ^ 15 ↔ roundAway (x * 2 ^ 14) = 0 := by
    rw [roundAway_eq_zero_iff, abs_lt, abs_lt]
    constructor <;> intro h' <;> constructor <;> linarith [h'.1, h'.2]
  have herr : |(roundAway (x * 2 ^ 14) : ℚ) - x * 2 ^ 14| ≤ 1 / 2 := abs_roundAway_sub _
  rw [abs_le] at herr
  rw [hzero]
  rcases Int.lt_trichotomy (roundAway (x * 2 ^ 14)) 0 with hneg | heq | hpos
  · refine iff_of_false ?_ (by omega)
    have hle : (-2 ^ 15 : ℚ) ≤ roundAway (x * 2 ^ 14) := by exact_mod_cast h.roundAway.1
    have hx := h.2
    rw [half_of_neg h hneg, abs_le]
    push_cast
    intro hnear
    have hle' := hnear.2
    generalize roundAway (x * 2 ^ 14) = r at hle hle'
    linarith
  · have hnear := half_of_nonneg h (Int.le_of_eq heq.symm)
    rw [heq] at hnear herr
    refine iff_of_true ?_ heq
    rw [hnear, abs_le]
    push_cast at herr ⊢
    constructor <;> linarith [herr.1, herr.2]
  · refine iff_of_false ?_ (by omega)
    have hone : (1 : ℚ) ≤ roundAway (x * 2 ^ 14) := by exact_mod_cast hpos
    rw [half_of_nonneg h (Int.le_of_lt hpos), abs_le]
    intro hnear
    have hle := hnear.2
    generalize roundAway (x * 2 ^ 14) = r at herr hone hle
    linarith [herr.1]

/-! ### Words -/

variable {F : Type} (fl : FloatOps F) (num : CmplxF64 F)

theorem toNat_cmplxRaw :
    (cmplxRaw fl num).toNat = (fl.floatToFix num.real 14).toUInt32.toNat % 2 ^ 16 +
      (fl.floatToFix num.imag 14).toUInt32.toNat % 2 ^ 16 * 2 ^ 16 :=
  toNat_field_or_field (by omega) _ _

theorem toNat_shiftRight_16 (w : UInt32) : (w >>> 16).toNat = w.toNat / 2 ^ 16 := by
  rw [UInt32.toNat_shiftRight]
  exact Nat.shiftRight_eq_div_pow w.toNat 16

/-- The low half is the real part. -/
theorem cmplxRaw_low :
    ((cmplxRaw fl num) &&& 0xffff).toNat = (fl.floatToFix num.real 14).toUInt32.toNat % 2 ^ 16 := by
  rw [toNat_and_mask _ 0xffff 16 rfl, toNat_cmplxRaw]
  omega

/-- The high half is the imaginary part. -/
theorem cmplxRaw_high :
    ((cmplxRaw fl num) >>> 16).toNat = (fl.floatToFix num.imag 14).toUInt32.toNat % 2 ^ 16 := by
  rw [toNat_shiftRight_16, toNat_cmplxRaw]
  omega

/-- A half as `int32_t`. -/
theorem toInt_toInt32_of_lt {w : UInt32} (h : w.toNat < 2 ^ 16) : w.toInt32.toInt = w.toNat := by
  show w.toBitVec.toInt = w.toBitVec.toNat
  exact BitVec.toInt_eq_toNat_of_lt (by show 2 * w.toNat < 2 ^ 32; omega)

variable (undef : ℚ → Int32)

/-- The stored bits of a value of the format. -/
theorem InFormat.stored (h : InFormat x) :
    ((((FloatArith.exact.ops undef).floatToFix x 14).toUInt32.toNat % 2 ^ 16 : Nat) : Int) =
      half x := by
  show ((((FloatArith.exact.floatToFix x 14).getD (undef x)).toUInt32.toNat % 2 ^ 16 : Nat) : Int) =
    half x
  rw [h.floatToFix]
  exact toUInt32_ofInt_mod _

/-- What the getters make of a half. -/
theorem exact_fixToFloat {w : UInt32} {n : Int} (hlt : w.toNat < 2 ^ 16)
    (hw : (w.toNat : Int) = n) :
    (FloatArith.exact.ops undef).fixToFloat w.toInt32 14 = (n : ℚ) / 2 ^ 14 := by
  show FloatArith.exact.div (FloatArith.exact.ofInt w.toInt32.toInt) (FloatArith.exact.unit 14) = _
  rw [FloatArith.exact_unit (by omega), toInt_toInt32_of_lt hlt, hw]
  rfl

end Coefficients

/-! ### Writing and reading -/

section Coefficients

variable (undef : ℚ → Int32) (raw : UInt32) (s : Stack) (addr : UInt32)

/-- The word that `write_cmplx_num` leaves in its register. -/
def storedCmplx (num : CmplxF64 ℚ) : UInt32 :=
  (writeCmplxNum (FloatArith.exact.ops undef) (rlsMiniPl.stackOs 0) 0 num addr s).file.regs addr

/-- What `read_cmplx_num` returns behind `write_cmplx_num`. -/
def cmplxReadBack (num : CmplxF64 ℚ) : CmplxF64 ℚ :=
  (readCmplxNum (FloatArith.exact.ops undef) (rlsMiniPl.stackOs 0) 0 raw addr
    (writeCmplxNum (FloatArith.exact.ops undef) (rlsMiniPl.stackOs 0) 0 num addr s)).1

/-- What `axi_dsp_get_compensation_ref` returns behind
`axi_dsp_set_compensation_ref`. -/
def refReadBack (ref : ℚ) : ℚ :=
  (axiDspGetCompensationRef (FloatArith.exact.ops undef) (rlsMiniPl.stackOs 0) 0 raw
    (axiDspSetCompensationRef (FloatArith.exact.ops undef) (rlsMiniPl.stackOs 0) 0 ref s)).1

variable {s addr}

theorem storedCmplx_eq (num : CmplxF64 ℚ) (hmode : s.mode = .readWrite)
    (hreg : rlsMiniPl.IsReg addr.toNat) (haddr : addr.toNat ≠ 0) :
    storedCmplx undef s addr num = cmplxRaw (FloatArith.exact.ops undef) num :=
  regs_axiWrite _ hmode hreg haddr

/-- A pair comes back as its stored halves. -/
theorem cmplxReadBack_eq {x y : ℚ} (hmode : s.mode = .readWrite)
    (hreg : rlsMiniPl.IsReg addr.toNat) (haddr : addr.toNat ≠ 0) (hx : InFormat x)
    (hy : InFormat y) :
    cmplxReadBack undef raw s addr ⟨x, y⟩ = ⟨half x / 2 ^ 14, half y / 2 ^ 14⟩ := by
  have hlow := cmplxRaw_low (FloatArith.exact.ops undef) ⟨x, y⟩
  have hhigh := cmplxRaw_high (FloatArith.exact.ops undef) ⟨x, y⟩
  have hhigh' : ((cmplxRaw (FloatArith.exact.ops undef) ⟨x, y⟩) >>> 16 &&& 0xffff).toNat = _ :=
    (toNat_and_mask _ 0xffff 16 rfl).trans (by rw [hhigh, Nat.mod_mod])
  simp only [cmplxReadBack, readCmplxNum, writeCmplxNum, axiRead_axiWrite _ raw hmode hreg haddr]
  congr 1
  · refine exact_fixToFloat undef (by rw [hlow]; omega) ?_
    rw [hlow]
    exact hx.stored undef
  · refine exact_fixToFloat undef (by rw [hhigh']; omega) ?_
    rw [hhigh']
    exact hy.stored undef

/-- The compensation reference comes back as its stored bits. -/
theorem refReadBack_eq {ref : ℚ} (hmode : s.mode = .readWrite) (href : InFormat ref) :
    refReadBack undef raw s ref = half ref := by
  have hbits := toNat_extract ((FloatArith.exact.ops undef).floatToFix ref 14).toUInt32
    0xffff 16 0 rfl (by decide)
  have hreg : rlsMiniPl.IsReg CSR_COMPENSATION_REFERENCE_ADDR.toNat := by decide
  have haddr : CSR_COMPENSATION_REFERENCE_ADDR.toNat ≠ 0 := by decide
  simp only [refReadBack, axiDspGetCompensationRef, axiDspSetCompensationRef,
    axiRead_axiWrite _ raw hmode hreg haddr]
  show (((extract ((FloatArith.exact.ops undef).floatToFix ref 14).toUInt32 0xffff 0).toNat : Int)
    : ℚ) = half ref
  rw [hbits, ← href.stored undef]
  simp [slice]

end Coefficients

/-- A pair of coefficients survives exactly if neither is negative, apart from
those that are rounded to zero; the compensation reference only if it is
rounded to zero.  The halves of a pair are stored independently. -/
theorem coefficients_survive_iff (undef : ℚ → Int32) (raw : UInt32) (s : Stack) (addr : UInt32)
    (hmode : s.mode = .readWrite) (hreg : rlsMiniPl.IsReg addr.toNat) (haddr : addr.toNat ≠ 0)
    (x y ref : ℚ) (hx : InFormat x) (hy : InFormat y) (href : InFormat ref) :
    (|(cmplxReadBack undef raw s addr ⟨x, y⟩).real - x| ≤ 1 / 2 ^ 15 ∧
        |(cmplxReadBack undef raw s addr ⟨x, y⟩).imag - y| ≤ 1 / 2 ^ 15 ↔
      -(1 / 2 ^ 15) < x ∧ -(1 / 2 ^ 15) < y) ∧
    (∀ y', storedCmplx undef s addr ⟨x, y⟩ &&& 0xffff =
      storedCmplx undef s addr ⟨x, y'⟩ &&& 0xffff) ∧
    (∀ x', storedCmplx undef s addr ⟨x, y⟩ >>> 16 = storedCmplx undef s addr ⟨x', y⟩ >>> 16) ∧
    (|refReadBack undef raw s ref - ref| ≤ 1 / 2 ^ 15 ↔ |ref| < 1 / 2 ^ 15) := by
  refine ⟨?_, fun y' => ?_, fun x' => ?_, ?_⟩
  · rw [cmplxReadBack_eq undef raw hmode hreg haddr hx hy]
    exact and_congr (half_near_iff hx) (half_near_iff hy)
  · rw [storedCmplx_eq undef _ hmode hreg haddr, storedCmplx_eq undef _ hmode hreg haddr,
      ← UInt32.toNat_inj, cmplxRaw_low, cmplxRaw_low]
  · rw [storedCmplx_eq undef _ hmode hreg haddr, storedCmplx_eq undef _ hmode hreg haddr,
      ← UInt32.toNat_inj, cmplxRaw_high, cmplxRaw_high]
  · rw [refReadBack_eq undef raw hmode href]
    exact half_unscaled_near_iff href

/-- A descriptor of the driver that has been opened for writing. -/
def openedStack : Stack := ⟨Driver.opened fun _ => 0, .readWrite⟩

theorem coefficients_survive_half :
    |(cmplxReadBack (fun _ => 0) 0 openedStack 0x14 ⟨1 / 2, 1⟩).real - 1 / 2| ≤ 1 / 2 ^ 15 ∧
      |(cmplxReadBack (fun _ => 0) 0 openedStack 0x14 ⟨1 / 2, 1⟩).imag - 1| ≤ 1 / 2 ^ 15 := by
  refine (coefficients_survive_iff (fun _ => 0) 0 openedStack 0x14 rfl (by decide) (by decide)
    (1 / 2) 1 0 ⟨?_, ?_⟩ ⟨?_, ?_⟩ ⟨?_, ?_⟩).1.mpr ⟨?_, ?_⟩ <;> norm_num

theorem half_of_mul_eq {x : ℚ} {n : Int} (h : x * 2 ^ 14 = n) : half x = n % 2 ^ 16 := by
  rw [half, h, roundAway_intCast]

/-- The coefficient -1/2 comes back as 7/2, and the compensation reference 1/2
as 8192. -/
theorem coefficients_lose_sign_and_scale :
    InFormat (-1 / 2) ∧ InFormat 0 ∧ InFormat (1 / 2) ∧
      cmplxReadBack (fun _ => 0) 0 openedStack 0x14 ⟨-1 / 2, 0⟩ = ⟨7 / 2, 0⟩ ∧
      ¬ |(cmplxReadBack (fun _ => 0) 0 openedStack 0x14 ⟨-1 / 2, 0⟩).real - (-1 / 2)|
        ≤ 1 / 2 ^ 15 ∧
      refReadBack (fun _ => 0) 0 openedStack (1 / 2) = 8192 ∧
      ¬ |refReadBack (fun _ => 0) 0 openedStack (1 / 2) - 1 / 2| ≤ 1 / 2 ^ 15 := by
  have hneg : InFormat (-1 / 2) := ⟨by norm_num, by norm_num⟩
  have hzero : InFormat 0 := ⟨by norm_num, by norm_num⟩
  have hpos : InFormat (1 / 2) := ⟨by norm_num, by norm_num⟩
  have hback : cmplxReadBack (fun _ => 0) 0 openedStack 0x14 ⟨-1 / 2, 0⟩ = ⟨7 / 2, 0⟩ := by
    rw [cmplxReadBack_eq _ _ rfl (by decide) (by decide) hneg hzero,
      half_of_mul_eq (x := -1 / 2) (n := -8192) (by norm_num),
      half_of_mul_eq (x := 0) (n := 0) (by norm_num)]
    norm_num
  have href : refReadBack (fun _ => 0) 0 openedStack (1 / 2) = 8192 := by
    rw [refReadBack_eq _ _ rfl hpos, half_of_mul_eq (x := 1 / 2) (n := 8192) (by norm_num)]
    norm_num
  refine ⟨hneg, hzero, hpos, hback, ?_, href, ?_⟩
  · rw [hback]
    norm_num
  · rw [href]
    norm_num

/-! ## Angles -/

/-- An angle as a number of steps, 2^32 of them for a turn. -/
def steps (a : ℚ) : ℚ := a / 360 * 2 ^ 32

section Angles

variable {a : ℚ}

theorem exact_degToFix (a : ℚ) :
    FloatArith.exact.degToFix a 32 =
      (FloatArith.exact.toInt32 (FloatArith.exact.roundf (steps a))).map Int32.toUInt32 := by
  rw [FloatArith.degToFix, FloatArith.exact_unit (by omega)]
  rfl

/-- The angles whose steps are within `int32_t`. -/
theorem roundAway_steps_lt_iff : roundAway (steps a) < 2 ^ 31 ↔ a < 180 - 360 / 2 ^ 33 := by
  rw [roundAway_lt_iff (by omega), steps]
  push_cast
  constructor <;> intro h <;> linarith

theorem roundAway_steps_nonneg (h : 0 ≤ a) : 0 ≤ roundAway (steps a) := by
  rw [roundAway_nonneg_iff, steps]
  have hpos : 0 ≤ a / 360 * 2 ^ 32 := by positivity
  linarith

/-- The steps of the lower half of the circle. -/
theorem degToFix_of_lt (hlow : 0 ≤ a) (hlt : roundAway (steps a) < 2 ^ 31) :
    FloatArith.exact.degToFix a 32 = some (Int32.ofInt (roundAway (steps a))).toUInt32 := by
  have hpos := roundAway_steps_nonneg hlow
  rw [exact_degToFix, FloatArith.exact_toInt32 ⟨by omega, hlt⟩]
  rfl

/-- The upper half of the circle. -/
theorem degToFix_of_le (hle : 2 ^ 31 ≤ roundAway (steps a)) :
    FloatArith.exact.degToFix a 32 = none := by
  rw [exact_degToFix, FloatArith.exact_toInt32_none hle]
  rfl

variable (undef : ℚ → Int32) (raw : UInt32) (s : Stack) (addr : UInt32)

/-- What `read_angle` returns behind `write_angle`. -/
def angleReadBack (a : ℚ) : ℚ :=
  (readAngle (FloatArith.exact.ops undef) (rlsMiniPl.stackOs 0) 0 raw addr
    (writeAngle (FloatArith.exact.ops undef) (rlsMiniPl.stackOs 0) 0 a addr s)).1

variable {s addr}

theorem angleReadBack_eq (hmode : s.mode = .readWrite) (hreg : rlsMiniPl.IsReg addr.toNat)
    (haddr : addr.toNat ≠ 0) (hlow : 0 ≤ a) (hlt : roundAway (steps a) < 2 ^ 31) :
    angleReadBack undef raw s addr a = roundAway (steps a) / 2 ^ 32 * 360 := by
  have hword : (FloatArith.exact.ops undef).degToFix a ANGLE_ORD =
      (Int32.ofInt (roundAway (steps a))).toUInt32 := by
    show (FloatArith.exact.degToFix a 32).getD (undef a).toUInt32 = _
    rw [degToFix_of_lt hlow hlt]
    rfl
  simp only [angleReadBack, readAngle, writeAngle, axiRead_axiWrite _ raw hmode hreg haddr, hword]
  show ((((Int32.ofInt (roundAway (steps a))).toUInt32.toNat : Int) : ℚ) /
    FloatArith.exact.unit 32) * ((360 : Int) : ℚ) = _
  have hpos := roundAway_steps_nonneg hlow
  rw [toNat_toUInt32_ofInt, Int.emod_eq_of_lt hpos (by omega), FloatArith.exact_unit (by omega)]
  norm_num

end Angles

/-- An angle survives exactly if it is rounded to less than half a turn. -/
theorem angle_survives_iff (undef : ℚ → Int32) (raw : UInt32) (s : Stack) (addr : UInt32)
    (hmode : s.mode = .readWrite) (hreg : rlsMiniPl.IsReg addr.toNat) (haddr : addr.toNat ≠ 0)
    (a : ℚ) (hlow : 0 ≤ a) :
    ((FloatArith.exact.degToFix a ANGLE_ORD).isSome ∧
        ∃ k : Int, |angleReadBack undef raw s addr a - a - 360 * k| ≤ 360 / 2 ^ 33) ↔
      a < 180 - 360 / 2 ^ 33 := by
  rw [← roundAway_steps_lt_iff]
  constructor
  · intro hback
    by_contra hle
    have hsome := hback.1
    rw [ANGLE_ORD, degToFix_of_le (Int.not_lt.mp hle)] at hsome
    exact Bool.noConfusion hsome
  · intro hlt
    refine ⟨?_, 0, ?_⟩
    · rw [ANGLE_ORD, degToFix_of_lt hlow hlt]
      rfl
    · have herr : |(roundAway (steps a) : ℚ) - steps a| ≤ 1 / 2 := abs_roundAway_sub _
      rw [angleReadBack_eq undef raw hmode hreg haddr hlow hlt]
      generalize roundAway (steps a) = r at herr
      rw [steps, abs_le] at herr
      rw [abs_le]
      push_cast
      constructor <;> linarith [herr.1, herr.2]

theorem angle_survives_ninety :
    (FloatArith.exact.degToFix 90 ANGLE_ORD).isSome ∧
      ∃ k : Int, |angleReadBack (fun _ => 0) 0 openedStack 0x138 90 - 90 - 360 * k| ≤
        360 / 2 ^ 33 := by
  refine (angle_survives_iff (fun _ => 0) 0 openedStack 0x138 rfl (by decide) (by decide) 90
    ?_).mpr ?_ <;> norm_num

/-- 270 degrees are three quarters of 2^32 steps, which is no `int32_t`. -/
theorem angle_270_undefined :
    FloatArith.exact.degToFix 270 ANGLE_ORD = none ∧
      ¬ ∀ a : ℚ, 0 ≤ a → a < 360 → (FloatArith.exact.degToFix a ANGLE_ORD).isSome := by
  have hsteps : steps 270 = (3221225472 : Int) := by
    rw [steps]
    norm_num
  have hnone : FloatArith.exact.degToFix 270 ANGLE_ORD = none := by
    refine degToFix_of_le ?_
    rw [hsteps, roundAway_intCast]
    decide
  refine ⟨hnone, fun hall => ?_⟩
  have hsome := hall 270 (by norm_num) (by norm_num)
  rw [hnone] at hsome
  exact Bool.noConfusion hsome

end RlsMini.Regs
