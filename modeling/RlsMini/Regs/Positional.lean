import RlsMini.Regs.Driver

/-!
# Reads and writes at an offset

`pread` and `pwrite` hand their offset to the `read` and `write` of the driver
without a call of `llseek`.  The two operations narrow it to `u32` before they
test it, so the offsets 2^32 apart are all taken for the one register below
2^32.

`Driver.accessAt` is `Driver.read` and `Driver.write` with the accesses of the
device on record: a `read` whose user copy fails has accessed it.  `Keeps` is
what an operation at an offset should do, and `keeps_iff` says when it does it.
-/

namespace RlsMini.Regs

/-! ## Operations with their device accesses -/

/-- An access of the device, by offset from `base`. -/
inductive DeviceAccess where
  | readl (off : UInt32)
  | writel (off value : UInt32)
  deriving DecidableEq, Repr

/-- The register that is accessed. -/
def DeviceAccess.reg : DeviceAccess → UInt32
  | .readl off => off
  | .writel off _ => off

/-- A call of `read` or `write`: the length, the result of the user copy, and
the word at `buf` of a `write`. -/
inductive OffsetOp where
  | read (len uncopied : Nat)
  | write (len uncopied : Nat) (value : UInt32)

def OffsetOp.len : OffsetOp → Nat
  | .read len _ => len
  | .write len _ _ => len

def OffsetOp.IsWrite : OffsetOp → Prop
  | .read _ _ => False
  | .write _ _ _ => True

/-- What an operation returns and leaves. -/
structure OffsetResult where
  ret : Except Errno Nat
  /-- The word copied to the user. -/
  data : Option UInt32 := none
  regs : Registers
  /-- `*off`. -/
  off : Int64
  device : List DeviceAccess := []

namespace Driver

variable (dr : Driver)

/-- `rls_mini_pl_read` and `axi_mult_read`, `rls_mini_pl_write` and
`axi_mult_write`. -/
def accessAt (regs : Registers) (off : Int64) : OffsetOp → OffsetResult
  | .read len uncopied =>
      let regOff := regOff off
      if len < 4 then { ret := .error .EINVAL, regs := regs, off := off }
      else if !dr.regIsValid regOff then { ret := .error .EINVAL, regs := regs, off := off }
      else
        let value := regs regOff
        let device := [.readl regOff]
        if uncopied ≠ 0 then
          { ret := .error .EFAULT, regs := regs, off := off, device := device }
        else
          { ret := .ok 4, data := some value, regs := regs, off := off + 4, device := device }
  | .write len uncopied value =>
      let regOff := regOff off
      if len < 4 then { ret := .error .EINVAL, regs := regs, off := off }
      else if !dr.regIsValid regOff then { ret := .error .EINVAL, regs := regs, off := off }
      else if !regIsWritable regOff then { ret := .error .EACCES, regs := regs, off := off }
      else if uncopied ≠ 0 then { ret := .error .EFAULT, regs := regs, off := off }
      else
        { ret := .ok 4, regs := regs.set regOff value, off := off + 4,
          device := [.writel regOff value] }

/-- Without the record it is `Driver.read`. -/
theorem accessAt_read (regs : Registers) (len uncopied : Nat) (off : Int64) :
    dr.read regs len uncopied off =
      let r := dr.accessAt regs off (.read len uncopied)
      (r.ret, r.data, r.off) := by
  simp only [read, accessAt]
  split
  · rfl
  · split
    · rfl
    · split <;> rfl

/-- Without the record it is `Driver.write`. -/
theorem accessAt_write (regs : Registers) (len uncopied : Nat) (value : UInt32) (off : Int64) :
    dr.write regs len uncopied value off =
      let r := dr.accessAt regs off (.write len uncopied value)
      (r.ret, r.regs, r.off) := by
  simp only [write, accessAt]
  split
  · rfl
  · split
    · rfl
    · split
      · rfl
      · split <;> rfl

/-! ## What should hold -/

/-- The offset names a register that the operation may access. -/
def Names (off : Int64) (op : OffsetOp) : Prop :=
  dr.IsReg off.toInt ∧ (op.IsWrite → off.toInt ≠ CSR_IP_VER_ADDR.toNat)

/-- The device is accessed only if the offset names a register, and then just
that register; at every other offset the operation returns an error and
changes nothing. -/
structure Keeps (regs : Registers) (off : Int64) (op : OffsetOp) : Prop where
  accessed : ∀ a ∈ (dr.accessAt regs off op).device,
    dr.Names off op ∧ (a.reg.toNat : Int) = off.toInt
  changed : ∀ o, (dr.accessAt regs off op).regs o ≠ regs o → (o.toNat : Int) = off.toInt
  rejected : ¬ dr.Names off op →
    ((dr.accessAt regs off op).ret = .error .EINVAL ∨
      (dr.accessAt regs off op).ret = .error .EACCES) ∧
    (dr.accessAt regs off op).data = none ∧ (dr.accessAt regs off op).regs = regs ∧
    (dr.accessAt regs off op).off = off

/-- The length, or the low half of the offset, is rejected. -/
def Rejects (off : Int64) (op : OffsetOp) : Prop :=
  op.len < 4 ∨ dr.regIsValid (regOff off) = false ∨
    (op.IsWrite ∧ regIsWritable (regOff off) = false)

variable {dr} {regs : Registers} {off : Int64} {op : OffsetOp}

/-- A rejected operation does nothing. -/
theorem accessAt_of_rejects (regs : Registers) (h : dr.Rejects off op) :
    ∃ e, (e = .EINVAL ∨ e = .EACCES) ∧
      dr.accessAt regs off op = { ret := .error e, regs := regs, off := off } := by
  cases op with
  | read len uncopied =>
      refine ⟨.EINVAL, Or.inl rfl, ?_⟩
      rcases h with hlen | hvalid | ⟨hwrite, -⟩
      · simp only [accessAt, if_pos (show len < 4 from hlen)]
      · simp [accessAt, hvalid]
      · exact absurd hwrite id
  | write len uncopied value =>
      by_cases hlen : len < 4
      · exact ⟨.EINVAL, Or.inl rfl, by simp only [accessAt, if_pos hlen]⟩
      · by_cases hvalid : dr.regIsValid (regOff off) = true
        · have hwritable : regIsWritable (regOff off) = false := by
            rcases h with hlen' | hinvalid | ⟨-, hwritable⟩
            · exact absurd hlen' hlen
            · rw [hvalid] at hinvalid
              exact Bool.noConfusion hinvalid
            · exact hwritable
          exact ⟨.EACCES, Or.inr rfl, by simp [accessAt, hlen, hvalid, hwritable]⟩
        · rw [Bool.not_eq_true] at hvalid
          exact ⟨.EINVAL, Or.inl rfl, by simp [accessAt, hvalid]⟩

theorem keeps_of_rejects (h : dr.Rejects off op) : dr.Keeps regs off op := by
  obtain ⟨e, he, heq⟩ := accessAt_of_rejects regs h
  refine ⟨?_, ?_, fun _ => ?_⟩
  · rw [heq]
    exact fun a ha => absurd ha List.not_mem_nil
  · rw [heq]
    exact fun o ho => absurd rfl ho
  · rw [heq]
    refine ⟨?_, rfl, rfl, rfl⟩
    rcases he with rfl | rfl
    · exact Or.inl rfl
    · exact Or.inr rfl

/-- An operation that is not rejected accesses the register in the low half of
its offset, or its user copy fails. -/
theorem accessAt_of_not_rejects (regs : Registers) (h : ¬ dr.Rejects off op) :
    (∀ a ∈ (dr.accessAt regs off op).device, a.reg = regOff off) ∧
      (∀ o, (dr.accessAt regs off op).regs o ≠ regs o → o = regOff off) ∧
      ((dr.accessAt regs off op).device ≠ [] ∨
        (dr.accessAt regs off op).ret = .error .EFAULT) := by
  simp only [Rejects, not_or, Nat.not_lt, Bool.not_eq_false] at h
  obtain ⟨hlen, hvalid, hwritable⟩ := h
  cases op with
  | read len uncopied =>
      have hlen' : ¬ len < 4 := Nat.not_lt.mpr hlen
      by_cases hcopy : uncopied = 0
      · simp [accessAt, hlen', hvalid, hcopy, DeviceAccess.reg]
      · simp [accessAt, hlen', hvalid, hcopy, DeviceAccess.reg]
  | write len uncopied value =>
      have hlen' : ¬ len < 4 := Nat.not_lt.mpr hlen
      have hperm : regIsWritable (regOff off) = true :=
        Bool.not_eq_false _ ▸ fun hno => hwritable ⟨trivial, hno⟩
      by_cases hcopy : uncopied = 0
      · refine ⟨?_, ?_, ?_⟩
        · simp [accessAt, hlen', hvalid, hperm, hcopy, DeviceAccess.reg]
        · intro o ho
          by_contra hne
          refine ho ?_
          simp [accessAt, hlen', hvalid, hperm, hcopy, Registers.set_of_ne hne]
        · simp [accessAt, hlen', hvalid, hperm, hcopy]
      · simp [accessAt, hlen', hvalid, hperm, hcopy]

/-- The half of the offset that is tested is not the offset. -/
theorem not_names_of_le (hoff : 2 ^ 32 ≤ off.toInt) (op : OffsetOp) : ¬ dr.Names off op := by
  intro hnames
  have hmax := hnames.1.2.1
  have hlt := dr.max_lt
  omega

/-- Below 2^32 nothing is lost. -/
theorem keeps_of_lt (hlow : 0 ≤ off.toInt) (hlt : off.toInt < 2 ^ 32) (op : OffsetOp) :
    dr.Keeps regs off op := by
  by_cases hrejects : dr.Rejects off op
  · exact keeps_of_rejects hrejects
  · obtain ⟨hdevice, hregs, -⟩ := accessAt_of_not_rejects regs hrejects
    have hoff : ((regOff off).toNat : Int) = off.toInt := by
      rw [toNat_regOff hlow hlt]
      omega
    have hnames : dr.Names off op := by
      simp only [Rejects, not_or, Bool.not_eq_false] at hrejects
      obtain ⟨-, hvalid, hperm⟩ := hrejects
      refine ⟨(regIsValid_regOff hlow hlt).mp hvalid, fun hwrite => ?_⟩
      have hwritable : regIsWritable (regOff off) = true := by
        by_contra hno
        exact hperm ⟨hwrite, Bool.not_eq_true _ ▸ hno⟩
      exact (regIsWritable_regOff hlow hlt).mp hwritable
    refine ⟨fun a ha => ⟨hnames, ?_⟩, fun o ho => ?_, fun hno => absurd hnames hno⟩
    · rw [hdevice a ha, hoff]
    · rw [hregs o ho, hoff]

/-- An operation keeps to the register of its offset exactly if the offset is
below 2^32 or the operation is rejected. -/
theorem keeps_iff (hlow : 0 ≤ off.toInt) :
    dr.Keeps regs off op ↔ off.toInt < 2 ^ 32 ∨ dr.Rejects off op := by
  constructor
  · intro hkeeps
    by_contra hno
    rw [not_or, Int.not_lt] at hno
    obtain ⟨hhigh, hrejects⟩ := hno
    have hnames : ¬ dr.Names off op := not_names_of_le hhigh op
    obtain ⟨-, -, hdone⟩ := accessAt_of_not_rejects regs hrejects
    rcases hdone with haccess | hfault
    · obtain ⟨a, ha⟩ := List.exists_mem_of_ne_nil _ haccess
      exact hnames (hkeeps.accessed a ha).1
    · obtain ⟨hret, -⟩ := hkeeps.rejected hnames
      rw [hfault] at hret
      rcases hret with h | h <;> cases h
  · intro h
    rcases h with hlt | hrejects
    · exact keeps_of_lt hlow hlt op
    · exact keeps_of_rejects hrejects

end Driver

/-- Both drivers, at every offset that `pread` and `pwrite` can hand them:
no register is accessed under the offset of another, as long as the offset is
below 2^32 or the operation is rejected, and only so long. -/
theorem positional_access_iff (regs : Registers) (off : Int64) (op : OffsetOp)
    (hlow : 0 ≤ off.toInt) :
    (rlsMiniPl.Keeps regs off op ↔ off.toInt < 2 ^ 32 ∨ rlsMiniPl.Rejects off op) ∧
    (axiMultiplier.Keeps regs off op ↔ off.toInt < 2 ^ 32 ∨ axiMultiplier.Rejects off op) :=
  ⟨Driver.keeps_iff hlow, Driver.keeps_iff hlow⟩

/-- Far behind the registers a read of two bytes is rejected. -/
theorem positional_access_short :
    rlsMiniPl.Keeps (fun _ => 0) 0x100000004 (.read 2 0) ∧
      axiMultiplier.Keeps (fun _ => 0) 0x100000004 (.read 2 0) := by
  obtain ⟨hpl, hmult⟩ :=
    positional_access_iff (fun _ => 0) 0x100000004 (.read 2 0) (by decide)
  exact ⟨hpl.mpr (Or.inr (Or.inl (by decide))), hmult.mpr (Or.inr (Or.inl (by decide)))⟩

/-- A word written at the offset 2^32 + 4 goes to the register at 4, on both
drivers. -/
theorem write_aliases_register :
    (rlsMiniPl.accessAt (fun _ => 0) 0x100000004 (.write 4 0 7)).device = [.writel 0x4 7] ∧
      ¬ rlsMiniPl.Keeps (fun _ => 0) 0x100000004 (.write 4 0 7) ∧
      (axiMultiplier.accessAt (fun _ => 0) 0x100000004 (.write 4 0 7)).device = [.writel 0x4 7] ∧
      ¬ axiMultiplier.Keeps (fun _ => 0) 0x100000004 (.write 4 0 7) := by
  have hpl : (rlsMiniPl.accessAt (fun _ => 0) 0x100000004 (.write 4 0 7)).device =
      [.writel 0x4 7] := by decide
  have hmult : (axiMultiplier.accessAt (fun _ => 0) 0x100000004 (.write 4 0 7)).device =
      [.writel 0x4 7] := by decide
  refine ⟨hpl, fun hkeeps => ?_, hmult, fun hkeeps => ?_⟩
  · obtain ⟨-, hreg⟩ :=
      hkeeps.accessed (.writel 0x4 7) (by rw [hpl]; exact List.mem_singleton_self _)
    exact absurd hreg (by decide)
  · obtain ⟨-, hreg⟩ :=
      hkeeps.accessed (.writel 0x4 7) (by rw [hmult]; exact List.mem_singleton_self _)
    exact absurd hreg (by decide)

end RlsMini.Regs
