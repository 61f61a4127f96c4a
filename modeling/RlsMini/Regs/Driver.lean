import Mathlib.Algebra.Group.Int.Defs
import Mathlib.Algebra.Group.Nat.Defs
import Mathlib.Data.List.Basic

/-!
# The register drivers

`rls_mini_pl.c` and `axi_multiplier.c` implement the same file operations on
two register maps: `llseek`, `read` and `write` of one 32-bit register at the
position of the handle.  They differ in the highest register and in how
`reg_is_valid` tests an offset; `Driver` holds the two, with the proof that
the test accepts exactly the register addresses.

`position` and the offset passed to `read` and `write` are `loff_t`; the
operations narrow it to `u32` before they test it.
-/

namespace RlsMini.Regs

/-! ## The register maps -/

/-- The errors of the file operations. -/
inductive Errno where
  | EINVAL
  | EACCES
  | EFAULT
  | EBADF
  deriving DecidableEq, Repr

def CSR_IP_VER_ADDR : UInt32 := 0x0

/-- The register map of a driver. -/
structure Driver where
  /-- `REG_MAX_OFFSET`. -/
  regMaxOffset : Nat
  regIsValid : UInt32 → Bool
  max_lt : regMaxOffset < 2 ^ 31
  max_aligned : regMaxOffset % 4 = 0
  regIsValid_iff : ∀ off, regIsValid off = true ↔ off.toNat % 4 = 0 ∧ off.toNat ≤ regMaxOffset

/-- `reg_is_writable`. -/
def regIsWritable (off : UInt32) : Bool := off ≠ CSR_IP_VER_ADDR

namespace RlsMiniPl

def REG_MAX_OFFSET : UInt32 := 0x170
def REG_MIN_OFFSET : UInt32 := CSR_IP_VER_ADDR

def regIsValid (off : UInt32) : Bool :=
  if off % 4 ≠ 0 then false
  else if off < REG_MIN_OFFSET ∨ off > REG_MAX_OFFSET then false
  else true

theorem regIsValid_iff (off : UInt32) :
    regIsValid off = true ↔ off.toNat % 4 = 0 ∧ off.toNat ≤ 0x170 := by
  have hmod : off % 4 = 0 ↔ off.toNat % 4 = 0 := by
    rw [← UInt32.toNat_inj, UInt32.toNat_mod]
    rfl
  have hmax : off > REG_MAX_OFFSET ↔ 0x170 < off.toNat := UInt32.lt_iff_toNat_lt
  have hmin : ¬ off < REG_MIN_OFFSET := by
    rw [UInt32.lt_iff_toNat_lt]
    exact Nat.not_lt_zero _
  unfold regIsValid
  split
  · rename_i hne
    rw [ne_eq, hmod] at hne
    simp [hne]
  · rename_i heq
    rw [ne_eq, not_not, hmod] at heq
    split
    · rename_i hout
      rcases hout with hlow | hhigh
      · exact absurd hlow hmin
      · rw [hmax] at hhigh
        simp; omega
    · rename_i hin
      rw [not_or, hmax] at hin
      simp; omega

end RlsMiniPl

namespace AxiMultiplier

/-- `CSR_IP_VER_ADDR`, `CSR_KILL_ADDR`, `CSR_TEST_POINT_ADDR`,
`CSR_CHANNEL_ADDR` and `CSR_MULT0_ADDR` to `CSR_MULT7_ADDR`: the cases of
`reg_is_valid`. -/
def registers : List UInt32 :=
  [0x0, 0x4, 0x8, 0xc, 0x10, 0x14, 0x18, 0x1c, 0x20, 0x24, 0x28, 0x2c]

def regIsValid (off : UInt32) : Bool := off ∈ registers

theorem regIsValid_iff (off : UInt32) :
    regIsValid off = true ↔ off.toNat % 4 = 0 ∧ off.toNat ≤ 0x2c := by
  unfold regIsValid
  rw [decide_eq_true_iff]
  constructor
  · intro hmem
    have hall : registers.all (fun r => decide (r.toNat % 4 = 0 ∧ r.toNat ≤ 0x2c)) = true := by
      decide
    exact of_decide_eq_true (List.all_eq_true.mp hall off hmem)
  · rintro ⟨hmod, hmax⟩
    have hall : ∀ k : Fin 12, UInt32.ofNat (4 * k.val) ∈ registers := by decide
    have hmem := hall ⟨off.toNat / 4, by omega⟩
    have hoff : 4 * (off.toNat / 4) = off.toNat := by omega
    rwa [hoff, UInt32.ofNat_toNat] at hmem

end AxiMultiplier

/-- `rls_mini_pl.c`. -/
def rlsMiniPl : Driver where
  regMaxOffset := 0x170
  regIsValid := RlsMiniPl.regIsValid
  max_lt := by decide
  max_aligned := by decide
  regIsValid_iff := RlsMiniPl.regIsValid_iff

/-- `axi_multiplier.c`. -/
def axiMultiplier : Driver where
  regMaxOffset := 0x2c
  regIsValid := AxiMultiplier.regIsValid
  max_lt := by decide
  max_aligned := by decide
  regIsValid_iff := AxiMultiplier.regIsValid_iff

/-! ## The file operations -/

/-- The registers of the device, by offset from `base`. -/
abbrev Registers := UInt32 → UInt32

/-- `writel(value, base + off)`. -/
def Registers.set (regs : Registers) (off value : UInt32) : Registers :=
  fun o => if o = off then value else regs o

@[simp] theorem Registers.set_self (regs : Registers) (off value : UInt32) :
    regs.set off value off = value := if_pos rfl

theorem Registers.set_of_ne {off o : UInt32} (h : o ≠ off) (regs : Registers) (value : UInt32) :
    regs.set off value o = regs o := if_neg h

def SEEK_SET : Int32 := 0

namespace Driver

variable (dr : Driver)

/-- `axi_llseek`: the result and `filp->f_pos`. -/
def llseek (fPos off : Int64) (whence : Int32) : Except Errno Int64 × Int64 :=
  if whence = SEEK_SET then
    let newpos := off
    if newpos < 0 ∨ newpos > Int64.ofNat dr.regMaxOffset then (.error .EINVAL, fPos)
    else if newpos.toUInt64 % 4 ≠ 0 then (.error .EINVAL, fPos)
    else (.ok newpos, newpos)
  else (.error .EINVAL, fPos)

/-- `u32 reg_off = *off`. -/
def regOff (off : Int64) : UInt32 := off.toUInt64.toUInt32

/-- `rls_mini_pl_read` and `axi_mult_read`: the result, the word copied to the
user, and `*off`.  `uncopied` is the result of `copy_to_user`. -/
def read (regs : Registers) (len uncopied : Nat) (off : Int64) :
    Except Errno Nat × Option UInt32 × Int64 :=
  let regOff := regOff off
  if len < 4 then (.error .EINVAL, none, off)
  else if !dr.regIsValid regOff then (.error .EINVAL, none, off)
  else
    let value := regs regOff
    if uncopied ≠ 0 then (.error .EFAULT, none, off)
    else (.ok 4, some value, off + 4)

/-- `rls_mini_pl_write` and `axi_mult_write`: the result, the registers, and
`*off`.  `value` is the word at `buf` and `uncopied` the result of
`copy_from_user`. -/
def write (regs : Registers) (len uncopied : Nat) (value : UInt32) (off : Int64) :
    Except Errno Nat × Registers × Int64 :=
  let regOff := regOff off
  if len < 4 then (.error .EINVAL, regs, off)
  else if !dr.regIsValid regOff then (.error .EINVAL, regs, off)
  else if !regIsWritable regOff then (.error .EACCES, regs, off)
  else if uncopied ≠ 0 then (.error .EFAULT, regs, off)
  else (.ok 4, regs.set regOff value, off + 4)

/-- The addresses of the register map. -/
def IsReg (a : Int) : Prop := 0 ≤ a ∧ a ≤ dr.regMaxOffset ∧ a % 4 = 0

instance (a : Int) : Decidable (dr.IsReg a) := by
  unfold IsReg
  infer_instance

variable {dr}

/-! ## Positions -/

theorem toNat_toUInt64 {off : Int64} (h : 0 ≤ off.toInt) :
    off.toUInt64.toNat = off.toInt.toNat := by
  rw [Int64.toNat_toUInt64_of_le (by rw [Int64.le_iff_toInt_le]; exact h), ← Int64.toNat_toInt]

/-- Narrowing to `u32` keeps an offset that fits. -/
theorem toNat_regOff {off : Int64} (h : 0 ≤ off.toInt) (hlt : off.toInt < 2 ^ 32) :
    (regOff off).toNat = off.toInt.toNat := by
  rw [regOff, UInt64.toNat_toUInt32, toNat_toUInt64 h]
  omega

theorem regIsValid_regOff {off : Int64} (h : 0 ≤ off.toInt) (hlt : off.toInt < 2 ^ 32) :
    dr.regIsValid (regOff off) = true ↔ dr.IsReg off.toInt := by
  rw [dr.regIsValid_iff, toNat_regOff h hlt, IsReg]
  omega

theorem regIsWritable_regOff {off : Int64} (h : 0 ≤ off.toInt) (hlt : off.toInt < 2 ^ 32) :
    regIsWritable (regOff off) = true ↔ off.toInt ≠ 0 := by
  have hzero : regOff off = CSR_IP_VER_ADDR ↔ (regOff off).toNat = 0 := by
    rw [← UInt32.toNat_inj]
    rfl
  rw [regIsWritable, decide_eq_true_iff, ne_eq, hzero, toNat_regOff h hlt]
  omega

/-- `llseek` accepts the register addresses, from the start of the file. -/
theorem llseek_eq (fPos off : Int64) (whence : Int32) :
    dr.llseek fPos off whence =
      if whence = SEEK_SET ∧ dr.IsReg off.toInt then (.ok off, off)
      else (.error .EINVAL, fPos) := by
  have hmax := dr.max_lt
  have hlow : off < 0 ↔ off.toInt < 0 := by rw [Int64.lt_iff_toInt_lt, Int64.toInt_zero]
  have hhigh : off > Int64.ofNat dr.regMaxOffset ↔ (dr.regMaxOffset : Int) < off.toInt := by
    rw [gt_iff_lt, Int64.lt_iff_toInt_lt, Int64.toInt_ofNat_of_lt (by omega)]
  simp only [llseek, hlow, hhigh]
  by_cases hset : whence = SEEK_SET
  · simp only [hset, true_and, if_true]
    by_cases hout : off.toInt < 0 ∨ (dr.regMaxOffset : Int) < off.toInt
    · rw [if_pos hout, if_neg (by unfold IsReg; omega)]
    · have halign : off.toUInt64 % 4 ≠ 0 ↔ off.toInt % 4 ≠ 0 := by
        rw [ne_eq, ← UInt64.toNat_inj, UInt64.toNat_mod, toNat_toUInt64 (by omega)]
        show ¬ off.toInt.toNat % 4 = 0 ↔ _
        omega
      simp only [if_neg hout, halign]
      by_cases hmod : off.toInt % 4 = 0
      · rw [if_neg (not_not_intro hmod), if_pos (by unfold IsReg; omega)]
      · rw [if_pos hmod, if_neg (by unfold IsReg; omega)]
  · rw [if_neg hset, if_neg (fun h => hset h.1)]

variable (dr)

/-- The positions a handle can have: the register addresses and the end
behind the last one. -/
def InRange (off : Int64) : Prop :=
  0 ≤ off.toInt ∧ off.toInt ≤ dr.regMaxOffset + 4 ∧ off.toInt % 4 = 0

/-- What `read` and `write` ask for, the permission apart. -/
def Accepts (len uncopied : Nat) (off : Int64) : Prop :=
  4 ≤ len ∧ dr.IsReg off.toInt ∧ uncopied = 0

variable {dr} {off : Int64}

theorem inRange_zero : dr.InRange 0 := by
  unfold InRange
  rw [Int64.toInt_zero]
  omega

theorem InRange.lt (h : dr.InRange off) : off.toInt < 2 ^ 32 := by
  have hmax := dr.max_lt
  have hle := h.2.1
  omega

theorem IsReg.inRange (h : dr.IsReg off.toInt) : dr.InRange off :=
  ⟨h.1, by have := h.2.1; omega, h.2.2⟩

/-- A position moves on by one register. -/
theorem IsReg.toInt_add_four (h : dr.IsReg off.toInt) : (off + 4).toInt = off.toInt + 4 := by
  have hmax := dr.max_lt
  have hlow := h.1
  have hhigh := h.2.1
  have hfour : (4 : Int64).toInt = 4 := by decide
  rw [Int64.toInt_add, hfour, Int.bmod_eq_of_le (by omega) (by omega)]

theorem IsReg.inRange_add_four (h : dr.IsReg off.toInt) : dr.InRange (off + 4) := by
  have hadd := h.toInt_add_four
  obtain ⟨hlow, hhigh, halign⟩ := h
  refine ⟨?_, ?_, ?_⟩ <;> rw [hadd] <;> omega

/-! ## What `read` and `write` do -/

theorem read_ok {regs : Registers} {len uncopied : Nat} (h : dr.Accepts len uncopied off) :
    dr.read regs len uncopied off = (.ok 4, some (regs (regOff off)), off + 4) := by
  obtain ⟨hlen, hreg, hcopy⟩ := h
  have hrange := hreg.inRange
  have hvalid := (regIsValid_regOff hrange.1 hrange.lt).mpr hreg
  simp [read, Nat.not_lt.mpr hlen, hvalid, hcopy]

theorem read_error (hrange : dr.InRange off) {regs : Registers} {len uncopied : Nat}
    (h : ¬ dr.Accepts len uncopied off) :
    ∃ e, dr.read regs len uncopied off = (.error e, none, off) := by
  have hvalid : dr.regIsValid (regOff off) = true ↔ dr.IsReg off.toInt :=
    regIsValid_regOff hrange.1 hrange.lt
  simp only [read]
  split
  · exact ⟨_, rfl⟩
  · rename_i hlen
    split
    · exact ⟨_, rfl⟩
    · rename_i hok
      rw [Bool.not_eq_true', Bool.not_eq_false, hvalid] at hok
      split
      · exact ⟨_, rfl⟩
      · rename_i hcopy
        exact absurd ⟨Nat.not_lt.mp hlen, hok, not_not.mp hcopy⟩ h

theorem write_ok {regs : Registers} {len uncopied : Nat} {value : UInt32}
    (h : dr.Accepts len uncopied off) (hwritable : off.toInt ≠ 0) :
    dr.write regs len uncopied value off = (.ok 4, regs.set (regOff off) value, off + 4) := by
  obtain ⟨hlen, hreg, hcopy⟩ := h
  have hrange := hreg.inRange
  have hvalid := (regIsValid_regOff hrange.1 hrange.lt).mpr hreg
  have hperm := (regIsWritable_regOff hrange.1 hrange.lt).mpr hwritable
  simp [write, Nat.not_lt.mpr hlen, hvalid, hperm, hcopy]

theorem write_error (hrange : dr.InRange off) {regs : Registers} {len uncopied : Nat}
    {value : UInt32} (h : ¬ (dr.Accepts len uncopied off ∧ off.toInt ≠ 0)) :
    ∃ e, dr.write regs len uncopied value off = (.error e, regs, off) := by
  have hvalid : dr.regIsValid (regOff off) = true ↔ dr.IsReg off.toInt :=
    regIsValid_regOff hrange.1 hrange.lt
  have hperm := regIsWritable_regOff hrange.1 hrange.lt
  simp only [write]
  split
  · exact ⟨_, rfl⟩
  · rename_i hlen
    split
    · exact ⟨_, rfl⟩
    · rename_i hok
      rw [Bool.not_eq_true', Bool.not_eq_false, hvalid] at hok
      split
      · exact ⟨_, rfl⟩
      · rename_i hwritable
        rw [Bool.not_eq_true', Bool.not_eq_false, hperm] at hwritable
        split
        · exact ⟨_, rfl⟩
        · rename_i hcopy
          exact absurd ⟨⟨Nat.not_lt.mp hlen, hok, not_not.mp hcopy⟩, hwritable⟩ h

end Driver

end RlsMini.Regs
