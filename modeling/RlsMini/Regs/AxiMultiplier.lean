import RlsMini.Regs.Stack

/-!
# The settings of the multiplier

`axi_multiplier.c` of the library on a descriptor of the multiplier.  The
device keeps the declared fields of a word that is written to one of its
registers, and may clear the reserved bits.  A negative multiplier is written
with its sign in the reserved bits, so what `axi_multiplier_get_mult` reads
can be another word than the one that was written.

`Settings` is what the multiplier is for: two selectors, a kill switch and
eight factors, each of which keeps its last value.  The calls on the
descriptor refine it.
-/

namespace RlsMini.Regs.AxiMultiplier

def CSR_KILL_ADDR : UInt32 := 0x4
def CSR_TEST_POINT_ADDR : UInt32 := 0x8
def CSR_CHANNEL_ADDR : UInt32 := 0xc
def CSR_MULT0_ADDR : UInt32 := 0x10

/-! ## The library -/

section Library

variable {σ : Type} (os : Posix σ)

/-- `axi_multiplier_init`: the result and `fd`. -/
def axiMultiplierInit (s : σ) : FdErr × Int32 × σ :=
  let (fd, s) := os.openDevice false s
  if fd < 0 then (.FD_ERR_NO_DEVICE, fd, s) else (.FD_ERR_NONE, fd, s)

variable (fd : Int32)

section Getters

-- the local variable of a getter, which `axi_multiplier_read` fills
variable (raw : UInt32)

/-- `axi_multiplier_get_ip_ver`: `ver_maj` and `ver_min`. -/
def axiMultiplierGetIpVer (s : σ) : UInt16 × UInt16 × σ :=
  let (_, ver, s) := axiMultiplierRead os fd raw CSR_IP_VER_ADDR s
  (((0xFFFF : UInt32) &&& (ver >>> 16)).toUInt16, ((0xFFFF : UInt32) &&& ver).toUInt16, s)

/-- `axi_multiplier_get_kill`. -/
def axiMultiplierGetKill (s : σ) : UInt32 × σ :=
  let (_, kill, s) := axiMultiplierRead os fd raw CSR_KILL_ADDR s
  (kill, s)

/-- `axi_multiplier_get_tp`. -/
def axiMultiplierGetTp (s : σ) : UInt32 × σ :=
  let (_, tp, s) := axiMultiplierRead os fd raw CSR_TEST_POINT_ADDR s
  (tp, s)

/-- `axi_multiplier_get_ch`. -/
def axiMultiplierGetCh (s : σ) : UInt32 × σ :=
  let (_, ch, s) := axiMultiplierRead os fd raw CSR_CHANNEL_ADDR s
  (ch, s)

/-- `axi_multiplier_get_mult`. -/
def axiMultiplierGetMult (chNum : UInt32) (s : σ) : Int16 × σ :=
  let regmapOffset := CSR_MULT0_ADDR + 4 * chNum
  let (_, data, s) := axiMultiplierRead os fd raw regmapOffset s
  (data.toUInt16.toInt16, s)

end Getters

/-- `axi_multiplier_set_kill`. -/
def axiMultiplierSetKill (s : σ) : σ := (axiMultiplierWrite os fd 1 CSR_KILL_ADDR s).2

/-- `axi_multiplier_reset_kill`. -/
def axiMultiplierResetKill (s : σ) : σ := (axiMultiplierWrite os fd 0 CSR_KILL_ADDR s).2

/-- `axi_multiplier_reset`. -/
def axiMultiplierReset (s : σ) : σ :=
  axiMultiplierResetKill os fd (axiMultiplierSetKill os fd s)

/-- `axi_multiplier_set_tp`. -/
def axiMultiplierSetTp (tp : UInt32) (s : σ) : σ :=
  (axiMultiplierWrite os fd tp CSR_TEST_POINT_ADDR s).2

/-- `axi_multiplier_set_ch`. -/
def axiMultiplierSetCh (ch : UInt32) (s : σ) : σ :=
  (axiMultiplierWrite os fd ch CSR_CHANNEL_ADDR s).2

/-- `axi_multiplier_set_mult`. -/
def axiMultiplierSetMult (val : Int16) (chNum : UInt32) (s : σ) : σ :=
  let valU32 := val.toInt32.toUInt32
  let regmapOffset := CSR_MULT0_ADDR + 4 * chNum
  (axiMultiplierWrite os fd valU32 regmapOffset s).2

end Library

/-! ## The device -/

/-- The declared bits of the registers that can be written: `KILL`,
`TEST_POINT` of `test_point` and of `channel`, and `MULT0` to `MULT7`. -/
def fieldMask (off : UInt32) : UInt32 :=
  if off = CSR_KILL_ADDR then 0x1
  else if off = CSR_TEST_POINT_ADDR ∨ off = CSR_CHANNEL_ADDR then 0x7
  else 0xffff

/-- What a device keeps of the words that are written to it.  It need not
clear the same reserved bits every time. -/
structure Keeper where
  /-- What is kept of write number `n`, of `val` to the register at `off`. -/
  keep : (n : Nat) → (off val : UInt32) → UInt32
  field : ∀ n off val, keep n off val &&& fieldMask off = val &&& fieldMask off
  /-- No bit is set that was not written. -/
  clears : ∀ n off val, keep n off val &&& ~~~ val = 0

/-- The device, the descriptor on it, and the number of writes so far. -/
structure Opened where
  stack : Stack
  written : Nat

/-- The system calls, with every user copy successful.  The driver does not
look at the word it writes, so it may as well write what the device keeps. -/
def Keeper.os (d : Keeper) : Posix Opened where
  openDevice readOnly s :=
    (3, { s with stack :=
      ⟨Driver.opened s.stack.file.regs, if readOnly then .readOnly else .readWrite⟩ })
  lseek fd off whence s :=
    let (n, stack) := (axiMultiplier.stackOs 0).lseek fd off whence s.stack
    (n, { s with stack := stack })
  read fd s :=
    let (n, rd, stack) := (axiMultiplier.stackOs 0).read fd s.stack
    (n, rd, { s with stack := stack })
  write fd val s :=
    let kept := d.keep s.written (Driver.regOff (s.stack.file.position ())) val
    let (n, stack) := (axiMultiplier.stackOs 0).write fd kept s.stack
    (n, ⟨stack, s.written + 1⟩)
  close fd s := { s with stack := (axiMultiplier.stackOs 0).close fd s.stack }

/-! ## The settings -/

/-- A test point or a channel. -/
abbrev Below8 := { n : UInt32 // n < 8 }

/-- What the multiplier is set to. -/
@[ext]
structure Settings where
  ipVer : UInt16 × UInt16
  kill : UInt32
  tp : UInt32
  ch : UInt32
  mult : Below8 → Int16

/-- A call of the library. -/
inductive Call where
  | setMult (val : Int16) (ch : Below8)
  | setTp (tp : Below8)
  | setCh (ch : Below8)
  | setKill
  | resetKill
  | reset
  | getIpVer
  | getKill
  | getTp
  | getCh
  | getMult (ch : Below8)
  deriving DecidableEq, Repr

/-- What a call makes of the settings. -/
def Settings.step (t : Settings) : Call → Settings
  | .setMult val ch => { t with mult := fun c => if c = ch then val else t.mult c }
  | .setTp tp => { t with tp := tp }
  | .setCh ch => { t with ch := ch }
  | .setKill => { t with kill := 1 }
  | .resetKill => { t with kill := 0 }
  | .reset => { t with kill := 0 }
  | .getIpVer => t
  | .getKill => t
  | .getTp => t
  | .getCh => t
  | .getMult _ => t

section Calls

variable (d : Keeper) (fd : Int32) (raw : UInt32)

/-- The state after a call. -/
def Call.exec (s : Opened) : Call → Opened
  | .setMult val ch => axiMultiplierSetMult d.os fd val ch s
  | .setTp tp => axiMultiplierSetTp d.os fd tp s
  | .setCh ch => axiMultiplierSetCh d.os fd ch s
  | .setKill => axiMultiplierSetKill d.os fd s
  | .resetKill => axiMultiplierResetKill d.os fd s
  | .reset => axiMultiplierReset d.os fd s
  | .getIpVer => (axiMultiplierGetIpVer d.os fd raw s).2.2
  | .getKill => (axiMultiplierGetKill d.os fd raw s).2
  | .getTp => (axiMultiplierGetTp d.os fd raw s).2
  | .getCh => (axiMultiplierGetCh d.os fd raw s).2
  | .getMult ch => (axiMultiplierGetMult d.os fd raw ch s).2

/-- What the getters return. -/
def readings (s : Opened) : Settings where
  ipVer := ((axiMultiplierGetIpVer d.os fd raw s).1, (axiMultiplierGetIpVer d.os fd raw s).2.1)
  kill := (axiMultiplierGetKill d.os fd raw s).1
  tp := (axiMultiplierGetTp d.os fd raw s).1
  ch := (axiMultiplierGetCh d.os fd raw s).1
  mult ch := (axiMultiplierGetMult d.os fd raw ch s).1

end Calls

/-! ## Words -/

/-- A word whose bits are all declared is kept as it is. -/
theorem Keeper.keep_eq (d : Keeper) {off val : UInt32} (hfield : val &&& fieldMask off = val)
    (n : Nat) : d.keep n off val = val := by
  have hsplit : d.keep n off val =
      (d.keep n off val &&& val) ||| (d.keep n off val &&& ~~~ val) := by
    apply UInt32.toBitVec_inj.mp
    ext i hi
    simp only [UInt32.toBitVec_or, UInt32.toBitVec_and, UInt32.toBitVec_not, BitVec.getElem_or,
      BitVec.getElem_and, BitVec.getElem_not]
    cases val.toBitVec[i] <;> simp
  have hwithin : d.keep n off val &&& val = val := by
    calc d.keep n off val &&& val = d.keep n off val &&& (val &&& fieldMask off) := by rw [hfield]
      _ = (d.keep n off val &&& fieldMask off) &&& val := by
        rw [UInt32.and_comm val, UInt32.and_assoc]
      _ = val := by rw [d.field, hfield, UInt32.and_self]
  rw [hsplit, hwithin, d.clears, UInt32.or_zero]

theorem and_seven_of_lt {n : UInt32} (hn : n < 8) : n &&& 0x7 = n := by
  rw [UInt32.lt_iff_toNat_lt] at hn
  rw [← UInt32.toNat_inj, UInt32.toNat_and]
  exact (Nat.and_two_pow_sub_one_eq_mod n.toNat 3).trans (Nat.mod_eq_of_lt hn)

theorem toUInt16_and_mask (w : UInt32) : (w &&& 0xffff).toUInt16 = w.toUInt16 := by
  rw [UInt32.toUInt16_and]
  exact UInt16.and_neg_one

/-- The lower half of a sign-extended multiplier. -/
theorem toUInt16_signExtend (val : Int16) : val.toInt32.toUInt32.toUInt16 = val.toUInt16 := by
  apply UInt16.toBitVec_inj.mp
  show BitVec.setWidth 16 (BitVec.signExtend 32 val.toBitVec) = val.toBitVec
  ext i hi
  have hlt : i < 32 := by omega
  rw [BitVec.getElem_setWidth, BitVec.getLsbD_eq_getElem hlt, BitVec.getElem_signExtend, dif_pos hi]

/-- What is kept of a multiplier is read back as the multiplier. -/
theorem Keeper.keep_mult (d : Keeper) {off : UInt32} (hmask : fieldMask off = 0xffff) (n : Nat)
    (val : Int16) : (d.keep n off val.toInt32.toUInt32).toUInt16.toInt16 = val := by
  have hkept := d.field n off val.toInt32.toUInt32
  rw [hmask] at hkept
  rw [← toUInt16_and_mask, hkept, toUInt16_and_mask, toUInt16_signExtend, Int16.toInt16_toUInt16]

/-! ## Addresses -/

/-- The address of a multiplier. -/
def multAddr (ch : Below8) : UInt32 := CSR_MULT0_ADDR + 4 * ch.val

theorem toNat_multAddr (ch : Below8) : (multAddr ch).toNat = 16 + 4 * ch.val.toNat := by
  have hlt : ch.val.toNat < 8 := UInt32.lt_iff_toNat_lt.mp ch.property
  rw [multAddr, UInt32.toNat_add, UInt32.toNat_mul]
  show (16 + 4 * ch.val.toNat % 2 ^ 32) % 2 ^ 32 = 16 + 4 * ch.val.toNat
  omega

theorem multAddr_injective {c ch : Below8} (h : multAddr c = multAddr ch) : c = ch := by
  have hnat : (multAddr c).toNat = (multAddr ch).toNat := by rw [h]
  rw [toNat_multAddr, toNat_multAddr] at hnat
  apply Subtype.ext
  rw [← UInt32.toNat_inj]
  omega

theorem multAddr_ne {off : UInt32} (hoff : off.toNat < 16) (ch : Below8) : off ≠ multAddr ch := by
  intro h
  rw [h, toNat_multAddr] at hoff
  omega

theorem isReg_multAddr (ch : Below8) : axiMultiplier.IsReg (multAddr ch).toNat := by
  have hlt : ch.val.toNat < 8 := UInt32.lt_iff_toNat_lt.mp ch.property
  rw [toNat_multAddr]
  refine ⟨?_, ?_, ?_⟩
  · omega
  · show ((16 + 4 * ch.val.toNat : Nat) : Int) ≤ (0x2c : Nat)
    omega
  · omega

theorem fieldMask_multAddr (ch : Below8) : fieldMask (multAddr ch) = 0xffff := by
  have hkill : multAddr ch ≠ CSR_KILL_ADDR := (multAddr_ne (by decide) ch).symm
  have htp : multAddr ch ≠ CSR_TEST_POINT_ADDR := (multAddr_ne (by decide) ch).symm
  have hch : multAddr ch ≠ CSR_CHANNEL_ADDR := (multAddr_ne (by decide) ch).symm
  rw [fieldMask, if_neg hkill, if_neg (not_or.mpr ⟨htp, hch⟩)]

/-! ## One access -/

section Access

variable (d : Keeper) (fd : Int32) {s : Opened} {off : UInt32}

/-- A read goes through to the descriptor. -/
theorem regRead_os_eq (raw : UInt32) :
    regRead d.os fd raw off s =
      let r := regRead (axiMultiplier.stackOs 0) 0 raw off s.stack
      (r.1, r.2.1, { s with stack := r.2.2 }) := by
  have hlift : ∀ (p : Prop) [Decidable p] (x y : FdErr × UInt32 × Stack),
      (if p then (x.1, x.2.1, { s with stack := x.2.2 })
        else (y.1, y.2.1, { s with stack := y.2.2 })) =
      let r := if p then x else y
      ((r.1, r.2.1, { s with stack := r.2.2 }) : FdErr × UInt32 × Opened) := by
    intro p _ x y
    split <;> rfl
  exact hlift _ (_, _, _) (_, _, _)

/-- A write goes through with what the device keeps. -/
theorem regWrite_os_eq (val : UInt32)
    (hoff : Driver.regOff ((axiMultiplier.seek s.stack off).file.position ()) = off) :
    regWrite d.os fd val off s =
      let r := regWrite (axiMultiplier.stackOs 0) 0 (d.keep s.written off val) off s.stack
      (r.1, ⟨r.2, s.written + 1⟩) := by
  have hlift : ∀ (p : Prop) [Decidable p] (x y : FdErr × Stack),
      (if p then (x.1, ⟨x.2, s.written + 1⟩) else (y.1, ⟨y.2, s.written + 1⟩)) =
      let r := if p then x else y
      ((r.1, ⟨r.2, s.written + 1⟩) : FdErr × Opened) := by
    intro p _ x y
    split <;> rfl
  have hseek : ((axiMultiplier.stackOs 0).lseek fd (Int64.ofNat off.toNat) SEEK_SET s.stack).2 =
      axiMultiplier.seek s.stack off := Driver.lseek_eq fd s.stack off
  rw [← hseek] at hoff
  have hkept : regWrite d.os fd val off s =
      let stack := ((axiMultiplier.stackOs 0).lseek fd (Int64.ofNat off.toNat) SEEK_SET s.stack).2
      let kept := d.keep s.written (Driver.regOff (stack.file.position ())) val
      let r := regWrite (axiMultiplier.stackOs 0) 0 kept off s.stack
      (r.1, ⟨r.2, s.written + 1⟩) := hlift _ (_, _) (_, _)
  rw [hkept]
  simp only [hoff]

/-- A write of a register on a good descriptor stores what the device keeps. -/
theorem regWrite_os (val : UInt32) (hmode : s.stack.mode = .readWrite)
    (hreg : axiMultiplier.IsReg off.toNat) (hoff : off.toNat ≠ 0) :
    ∃ s', regWrite d.os fd val off s = (.FD_ERR_NONE, s') ∧ s'.stack.mode = .readWrite ∧
      s'.stack.file.regs = s.stack.file.regs.set off (d.keep s.written off val) := by
  obtain ⟨stack, hwrite, hmode', hregs⟩ :=
    Driver.regWrite_register (d.keep s.written off val) hmode hreg hoff
  have hopen : s.stack.mode ≠ .closed := by rw [hmode]; decide
  have hposition : Driver.regOff ((axiMultiplier.seek s.stack off).file.position ()) = off := by
    rw [Driver.seek_position hopen hreg, Driver.regOff_ofNat_toNat]
  rw [regWrite_os_eq d fd val hposition, hwrite]
  exact ⟨_, rfl, hmode', hregs⟩

/-- A read of a register on an open descriptor. -/
theorem regRead_os (raw : UInt32) (hmode : s.stack.mode = .readWrite)
    (hreg : axiMultiplier.IsReg off.toNat) :
    ∃ s', regRead d.os fd raw off s = (.FD_ERR_NONE, s.stack.file.regs off, s') ∧
      s'.stack.mode = .readWrite ∧ s'.stack.file.regs = s.stack.file.regs := by
  have hopen : s.stack.mode ≠ .closed := by rw [hmode]; decide
  obtain ⟨stack, hread, hmode', hregs⟩ := Driver.regRead_register raw hopen hreg
  rw [regRead_os_eq, hread]
  exact ⟨_, rfl, hmode'.trans hmode, hregs⟩

end Access

/-! ## The settings in the registers -/

/-- The settings that the registers hold. -/
def Settings.ofRegs (regs : Registers) : Settings where
  ipVer := (((0xFFFF : UInt32) &&& (regs CSR_IP_VER_ADDR >>> 16)).toUInt16,
    ((0xFFFF : UInt32) &&& regs CSR_IP_VER_ADDR).toUInt16)
  kill := regs CSR_KILL_ADDR
  tp := regs CSR_TEST_POINT_ADDR
  ch := regs CSR_CHANNEL_ADDR
  mult ch := (regs (multAddr ch)).toUInt16.toInt16

section Registers

variable (regs : Registers) (w : UInt32)

/-- A register below the multipliers holds one setting. -/
theorem ofRegs_set_low {off : UInt32} (hoff : off.toNat < 16) :
    (Settings.ofRegs (regs.set off w)).mult = (Settings.ofRegs regs).mult := by
  funext ch
  show ((regs.set off w) (multAddr ch)).toUInt16.toInt16 = _
  rw [Registers.set_of_ne (multAddr_ne hoff ch).symm]
  rfl

theorem ofRegs_set_kill :
    Settings.ofRegs (regs.set CSR_KILL_ADDR w) = { Settings.ofRegs regs with kill := w } := by
  ext1
  · rfl
  · rfl
  · rfl
  · rfl
  · exact ofRegs_set_low regs w (by decide)

theorem ofRegs_set_tp :
    Settings.ofRegs (regs.set CSR_TEST_POINT_ADDR w) = { Settings.ofRegs regs with tp := w } := by
  ext1
  · rfl
  · rfl
  · rfl
  · rfl
  · exact ofRegs_set_low regs w (by decide)

theorem ofRegs_set_ch :
    Settings.ofRegs (regs.set CSR_CHANNEL_ADDR w) = { Settings.ofRegs regs with ch := w } := by
  ext1
  · rfl
  · rfl
  · rfl
  · rfl
  · exact ofRegs_set_low regs w (by decide)

/-- The multipliers are kept apart. -/
theorem ofRegs_set_mult (ch : Below8) :
    Settings.ofRegs (regs.set (multAddr ch) w) =
      { Settings.ofRegs regs with
        mult := fun c =>
          if c = ch then w.toUInt16.toInt16 else (Settings.ofRegs regs).mult c } := by
  have hlow : ∀ off : UInt32, off.toNat < 16 → (regs.set (multAddr ch) w) off = regs off :=
    fun off hoff => Registers.set_of_ne (multAddr_ne hoff ch) regs w
  ext1
  · simp only [Settings.ofRegs, hlow CSR_IP_VER_ADDR (by decide)]
  · exact hlow CSR_KILL_ADDR (by decide)
  · exact hlow CSR_TEST_POINT_ADDR (by decide)
  · exact hlow CSR_CHANNEL_ADDR (by decide)
  · funext c
    show ((regs.set (multAddr ch) w) (multAddr c)).toUInt16.toInt16 = if c = ch then _ else _
    by_cases hc : c = ch
    · rw [if_pos hc, hc, Registers.set_self]
    · rw [if_neg hc, Registers.set_of_ne (fun haddr => hc (multAddr_injective haddr))]
      rfl

end Registers

/-! ## One call -/

section Step

variable (d : Keeper) (fd : Int32) (raw : UInt32) {s : Opened}

/-- On a good descriptor the getters return the settings in the registers. -/
theorem readings_eq (hmode : s.stack.mode = .readWrite) :
    readings d fd raw s = .ofRegs s.stack.file.regs := by
  have hread : ∀ off : UInt32, axiMultiplier.IsReg off.toNat →
      (axiMultiplierRead d.os fd raw off s).2.1 = s.stack.file.regs off := by
    intro off hreg
    obtain ⟨s', hread, -, -⟩ := regRead_os d fd raw hmode hreg
    rw [axiMultiplierRead, hread]
  ext1
  · simp only [readings, axiMultiplierGetIpVer, hread CSR_IP_VER_ADDR (by decide),
      Settings.ofRegs]
  · simp only [readings, axiMultiplierGetKill, hread CSR_KILL_ADDR (by decide), Settings.ofRegs]
  · simp only [readings, axiMultiplierGetTp, hread CSR_TEST_POINT_ADDR (by decide),
      Settings.ofRegs]
  · simp only [readings, axiMultiplierGetCh, hread CSR_CHANNEL_ADDR (by decide), Settings.ofRegs]
  · funext ch
    have hmult : (axiMultiplierRead d.os fd raw (CSR_MULT0_ADDR + 4 * ch.val) s).2.1 =
        s.stack.file.regs (multAddr ch) := hread (multAddr ch) (isReg_multAddr ch)
    simp only [readings, axiMultiplierGetMult, hmult, Settings.ofRegs]

/-- A getter leaves the registers alone. -/
theorem read_spec (off : UInt32) (hmode : s.stack.mode = .readWrite)
    (hreg : axiMultiplier.IsReg off.toNat) :
    (axiMultiplierRead d.os fd raw off s).2.2.stack.mode = .readWrite ∧
      (axiMultiplierRead d.os fd raw off s).2.2.stack.file.regs = s.stack.file.regs := by
  obtain ⟨s', hread, hmode', hregs⟩ := regRead_os d fd raw hmode hreg
  rw [axiMultiplierRead, hread]
  exact ⟨hmode', hregs⟩

/-- A setter stores what the device keeps of its word. -/
theorem write_spec (off val : UInt32) (hmode : s.stack.mode = .readWrite)
    (hreg : axiMultiplier.IsReg off.toNat) (hoff : off.toNat ≠ 0) :
    (axiMultiplierWrite d.os fd val off s).2.stack.mode = .readWrite ∧
      (axiMultiplierWrite d.os fd val off s).2.stack.file.regs =
        s.stack.file.regs.set off (d.keep s.written off val) := by
  obtain ⟨s', hwrite, hmode', hregs⟩ := regWrite_os d fd val hmode hreg hoff
  rw [axiMultiplierWrite, hwrite]
  exact ⟨hmode', hregs⟩

/-- The state is good and its registers hold the settings `t`. -/
structure Holds (s : Opened) (t : Settings) : Prop where
  mode : s.stack.mode = .readWrite
  regs : Settings.ofRegs s.stack.file.regs = t

variable {d fd raw} {t : Settings}

theorem Holds.setKill (h : Holds s t) :
    Holds (axiMultiplierSetKill d.os fd s) { t with kill := 1 } := by
  obtain ⟨hmode, hregs⟩ := write_spec d fd CSR_KILL_ADDR 1 h.mode (by decide) (by decide)
  refine ⟨hmode, ?_⟩
  rw [axiMultiplierSetKill, hregs, d.keep_eq (by decide), ofRegs_set_kill, h.regs]

theorem Holds.resetKill (h : Holds s t) :
    Holds (axiMultiplierResetKill d.os fd s) { t with kill := 0 } := by
  obtain ⟨hmode, hregs⟩ := write_spec d fd CSR_KILL_ADDR 0 h.mode (by decide) (by decide)
  refine ⟨hmode, ?_⟩
  rw [axiMultiplierResetKill, hregs, d.keep_eq (by decide), ofRegs_set_kill, h.regs]

theorem Holds.setTp (h : Holds s t) (tp : Below8) :
    Holds (axiMultiplierSetTp d.os fd tp s) { t with tp := tp } := by
  obtain ⟨hmode, hregs⟩ :=
    write_spec d fd CSR_TEST_POINT_ADDR tp.val h.mode (by decide) (by decide)
  have hfield : tp.val &&& fieldMask CSR_TEST_POINT_ADDR = tp.val := and_seven_of_lt tp.property
  refine ⟨hmode, ?_⟩
  rw [axiMultiplierSetTp, hregs, d.keep_eq hfield, ofRegs_set_tp, h.regs]

theorem Holds.setCh (h : Holds s t) (ch : Below8) :
    Holds (axiMultiplierSetCh d.os fd ch s) { t with ch := ch } := by
  obtain ⟨hmode, hregs⟩ :=
    write_spec d fd CSR_CHANNEL_ADDR ch.val h.mode (by decide) (by decide)
  have hfield : ch.val &&& fieldMask CSR_CHANNEL_ADDR = ch.val := and_seven_of_lt ch.property
  refine ⟨hmode, ?_⟩
  rw [axiMultiplierSetCh, hregs, d.keep_eq hfield, ofRegs_set_ch, h.regs]

theorem Holds.setMult (h : Holds s t) (val : Int16) (ch : Below8) :
    Holds (axiMultiplierSetMult d.os fd val ch s)
      { t with mult := fun c => if c = ch then val else t.mult c } := by
  have hne : (multAddr ch).toNat ≠ 0 := by
    rw [toNat_multAddr]
    omega
  obtain ⟨hmode, hregs⟩ :=
    write_spec d fd (multAddr ch) val.toInt32.toUInt32 h.mode (isReg_multAddr ch) hne
  refine ⟨hmode, ?_⟩
  show Settings.ofRegs (axiMultiplierWrite d.os fd _ (multAddr ch) s).2.stack.file.regs = _
  rw [hregs, ofRegs_set_mult, d.keep_mult (fieldMask_multAddr ch), h.regs]

/-- A getter keeps the settings. -/
theorem Holds.read (h : Holds s t) (off : UInt32) (hreg : axiMultiplier.IsReg off.toNat) :
    Holds (axiMultiplierRead d.os fd raw off s).2.2 t := by
  obtain ⟨hmode, hregs⟩ := read_spec d fd raw off h.mode hreg
  exact ⟨hmode, by rw [hregs, h.regs]⟩

/-- Every call does to the registers what it does to the settings. -/
theorem Holds.exec (h : Holds s t) (c : Call) : Holds (c.exec d fd raw s) (t.step c) := by
  cases c with
  | setMult val ch => exact h.setMult val ch
  | setTp tp => exact h.setTp tp
  | setCh ch => exact h.setCh ch
  | setKill => exact h.setKill
  | resetKill => exact h.resetKill
  | reset => exact h.setKill.resetKill
  | getIpVer =>
      simp only [Call.exec, axiMultiplierGetIpVer]
      exact h.read CSR_IP_VER_ADDR (by decide)
  | getKill =>
      simp only [Call.exec, axiMultiplierGetKill]
      exact h.read CSR_KILL_ADDR (by decide)
  | getTp =>
      simp only [Call.exec, axiMultiplierGetTp]
      exact h.read CSR_TEST_POINT_ADDR (by decide)
  | getCh =>
      simp only [Call.exec, axiMultiplierGetCh]
      exact h.read CSR_CHANNEL_ADDR (by decide)
  | getMult ch =>
      simp only [Call.exec, axiMultiplierGetMult]
      exact h.read (multAddr ch) (isReg_multAddr ch)

/-- A sequence of calls. -/
theorem Holds.run (h : Holds s t) (calls : List Call) :
    Holds (Machine.run (Call.exec d fd raw) s calls) (Machine.run Settings.step t calls) := by
  induction calls generalizing s t with
  | nil => exact h
  | cons c calls ih => exact ih (h.exec c)

end Step

/-- On a descriptor that has been opened the getters return the settings: after
every sequence of calls each of them returns what it returned at first, with
the last value of every setter in its place. -/
theorem multiplier_settings_read_back (d : Keeper) (raw : UInt32) (s : Opened)
    (calls : List Call) :
    let (err, fd, s) := axiMultiplierInit d.os s
    err = .FD_ERR_NONE ∧
      readings d fd raw (Machine.run (Call.exec d fd raw) s calls) =
        Machine.run Settings.step (readings d fd raw s) calls := by
  have hopened : Holds (axiMultiplierInit d.os s).2.2 (.ofRegs s.stack.file.regs) := ⟨rfl, rfl⟩
  have hrun : Holds (Machine.run (Call.exec d 3 raw) (axiMultiplierInit d.os s).2.2 calls) _ :=
    hopened.run calls
  refine ⟨rfl, ?_⟩
  show readings d 3 raw (Machine.run (Call.exec d 3 raw) (axiMultiplierInit d.os s).2.2 calls) =
    Machine.run Settings.step (readings d 3 raw (axiMultiplierInit d.os s).2.2) calls
  rw [readings_eq d 3 raw hrun.mode, hrun.regs, readings_eq d 3 raw hopened.mode, hopened.regs]

/-- A device that keeps the declared fields only. -/
def Keeper.fieldsOnly : Keeper where
  keep _ off val := val &&& fieldMask off
  field _ off val := by rw [UInt32.and_assoc, UInt32.and_self]
  clears _ off val := by
    rw [UInt32.and_comm val, UInt32.and_assoc]
    simp

-- a negative multiplier comes back without its upper half
example :
    let s : Opened := ⟨⟨Driver.opened fun _ => 0, .readWrite⟩, 0⟩
    let s := axiMultiplierSetMult Keeper.fieldsOnly.os 3 (-5) 7 s
    s.stack.file.regs 0x2c = 0xfffb ∧
      (axiMultiplierGetMult Keeper.fieldsOnly.os 3 0 7 s).1 = -5 := by
  decide

end RlsMini.Regs.AxiMultiplier
