import RlsMini.Regs.Access
import RlsMini.Regs.Handles

/-!
# A library over its driver

One descriptor on one device: the library's calls go through the kernel to the
file operations of the driver.  A failed `lseek` leaves the position where the
earlier accesses have left it, and the word is then transferred there.

`Exact` is what an access should do, `Meets` when it does it, and
`exact_iff_meets` that the two agree in every state a run reaches.
-/

namespace RlsMini.Regs

/-- The state of the descriptor. -/
inductive Mode where
  | readWrite
  | readOnly
  | closed
  deriving DecidableEq, Repr

/-- The device and the descriptor that the library has opened on it. -/
structure Stack where
  file : Handles Unit
  mode : Mode

namespace Driver

variable (dr : Driver)

/-- The result of a system call: a count, a position or -1. -/
def sysResult (r : Reply) : Int64 :=
  match r.ret with
  | .ok n => n
  | .error _ => -1

/-- The system calls on the descriptor.  `uncopied` is the outcome of the user
copy, if the call gets that far.  The kernel rejects every call on a closed
descriptor, and `write` on a read-only one. -/
def stackOs (uncopied : Nat) : Posix Stack where
  openDevice _ s := (-1, s)
  lseek _ off whence s :=
    if s.mode = .closed then (-1, s)
    else
      let (r, file) := dr.exec s.file (.llseek () off whence)
      (sysResult r, { s with file := file })
  read _ s :=
    if s.mode = .closed then (-1, 0, s)
    else
      let (r, file) := dr.exec s.file (.read () 4 uncopied)
      (sysResult r, r.data.getD 0, { s with file := file })
  write _ val s :=
    if s.mode ≠ .readWrite then (-1, s)
    else
      let (r, file) := dr.exec s.file (.write () 4 uncopied val)
      (sysResult r, { s with file := file })
  close _ s := { s with mode := .closed }

end Driver

/-- A call of the access functions.  `val` of a read is what `*val` holds
before. -/
inductive RegCall where
  | write (val off : UInt32) (uncopied : Nat)
  | read (val off : UInt32) (uncopied : Nat)

namespace Driver

variable (dr : Driver)

/-- A call: the error, `*val` behind it, and the state.  On `rls_mini_pl` the
two functions are `axi_write` and `axi_read`, on `axi_multiplier`
`axi_multiplier_write` and `axi_multiplier_read`. -/
def access (s : Stack) : RegCall → FdErr × UInt32 × Stack
  | .write val off uncopied =>
      let (err, s) := regWrite (dr.stackOs uncopied) 0 val off s
      (err, val, s)
  | .read val off uncopied => regRead (dr.stackOs uncopied) 0 val off s

/-- The state after a call. -/
def accessStep (s : Stack) (call : RegCall) : Stack := (dr.access s call).2.2

/-- The access is exact or has no effect. -/
def Exact (s : Stack) (call : RegCall) : Prop :=
  match call with
  | .write val off _ =>
      ((dr.access s call).1 = .FD_ERR_NONE →
        dr.IsReg off.toNat ∧ (dr.accessStep s call).file.regs off = val ∧
          ∀ o, o ≠ off → (dr.accessStep s call).file.regs o = s.file.regs o) ∧
      ((dr.access s call).1 ≠ .FD_ERR_NONE → (dr.accessStep s call).file.regs = s.file.regs)
  | .read _ off _ =>
      (dr.access s call).1 = .FD_ERR_NONE →
        dr.IsReg off.toNat ∧ (dr.access s call).2.1 = s.file.regs off

/-- The transfer of a `write` succeeds at the present position. -/
def Writable (uncopied : Nat) (s : Stack) : Prop :=
  s.mode = .readWrite ∧ dr.Accepts 4 uncopied (s.file.position ()) ∧
    (s.file.position ()).toInt ≠ 0

/-- The transfer of a `read` succeeds at the present position. -/
def Readable (uncopied : Nat) (s : Stack) : Prop :=
  s.mode ≠ .closed ∧ dr.Accepts 4 uncopied (s.file.position ())

/-- The offset is a register address, or the transfer at the position that the
earlier accesses have left is rejected. -/
def Meets (s : Stack) : RegCall → Prop
  | .write _ off uncopied => dr.IsReg off.toNat ∨ ¬ dr.Writable uncopied s
  | .read _ off uncopied => dr.IsReg off.toNat ∨ ¬ dr.Readable uncopied s

/-! ## One access -/

/-- The state behind `lseek`. -/
def seek (s : Stack) (off : UInt32) : Stack :=
  if s.mode ≠ .closed ∧ dr.IsReg off.toNat then
    { s with file := s.file.setPosition () (Int64.ofNat off.toNat) }
  else s

variable {dr} {s : Stack} {off : UInt32} {uncopied : Nat}

theorem toInt_ofNat_toNat (off : UInt32) : (Int64.ofNat off.toNat).toInt = off.toNat := by
  have hlt := off.toNat_lt
  exact Int64.toInt_ofNat_of_lt (by omega)

theorem regOff_ofNat_toNat (off : UInt32) : regOff (Int64.ofNat off.toNat) = off := by
  have hlt := off.toNat_lt
  have hvalue := toInt_ofNat_toNat off
  rw [← UInt32.toNat_inj, toNat_regOff (by omega) (by omega), hvalue, Int.toNat_natCast]

theorem lseek_eq (fd : Int32) (s : Stack) (off : UInt32) :
    ((dr.stackOs uncopied).lseek fd (Int64.ofNat off.toNat) SEEK_SET s).2 = dr.seek s off := by
  unfold seek
  simp only [stackOs]
  by_cases hclosed : s.mode = .closed
  · rw [if_pos hclosed, if_neg (fun h => h.1 hclosed)]
  · rw [if_neg hclosed]
    by_cases hreg : dr.IsReg off.toNat
    · have hallows : dr.Allows s.file (.llseek () (Int64.ofNat off.toNat) SEEK_SET) :=
        ⟨rfl, by rw [toInt_ofNat_toNat]; exact hreg⟩
      rw [if_pos ⟨hclosed, hreg⟩, exec_of_allows hallows]
      rfl
    · have heq : dr.llseek (s.file.position ()) (Int64.ofNat off.toNat) SEEK_SET =
          (.error .EINVAL, s.file.position ()) := by
        rw [llseek_eq, toInt_ofNat_toNat]
        exact if_neg (fun h => hreg h.2)
      rw [if_neg (fun h => hreg h.2)]
      simp only [exec, heq, Handles.setPosition_self]

@[simp] theorem seek_mode (s : Stack) (off : UInt32) : (dr.seek s off).mode = s.mode := by
  unfold seek
  split <;> rfl

@[simp] theorem seek_regs (s : Stack) (off : UInt32) :
    (dr.seek s off).file.regs = s.file.regs := by
  unfold seek
  split <;> rfl

/-- A register address is reached, if the descriptor is open. -/
theorem seek_position (hopen : s.mode ≠ .closed) (hreg : dr.IsReg off.toNat) :
    (dr.seek s off).file.position () = Int64.ofNat off.toNat := by
  rw [seek, if_pos ⟨hopen, hreg⟩]
  rfl

theorem seek_of_not_isReg (hreg : ¬ dr.IsReg off.toNat) : dr.seek s off = s :=
  if_neg (fun h => hreg h.2)

theorem seek_inRange (hrange : ∀ h, dr.InRange (s.file.position h)) (off : UInt32) (h : Unit) :
    dr.InRange ((dr.seek s off).file.position h) := by
  unfold seek
  split
  · rename_i hok
    have hreg : dr.IsReg (Int64.ofNat off.toNat).toInt := by
      rw [toInt_ofNat_toNat]
      exact hok.2
    exact hreg.inRange
  · exact hrange h

theorem regWrite_ok {val : UInt32} (h : dr.Writable uncopied (dr.seek s off)) :
    regWrite (dr.stackOs uncopied) 0 val off s =
      (.FD_ERR_NONE,
        { dr.seek s off with
          file := (effect (dr.seek s off).file (.write () 4 uncopied val)).2 }) := by
  obtain ⟨hmode, hallows⟩ := h
  have hwrite : (dr.stackOs uncopied).write 0 val (dr.seek s off) =
      (4, { dr.seek s off with
        file := (effect (dr.seek s off).file (.write () 4 uncopied val)).2 }) := by
    simp only [stackOs]
    have hexec : dr.exec (dr.seek s off).file (.write () 4 uncopied val) =
        effect (dr.seek s off).file (.write () 4 uncopied val) := exec_of_allows hallows
    rw [if_neg (not_not_intro hmode), hexec]
    rfl
  simp only [regWrite, lseek_eq, hwrite]
  rfl

theorem regWrite_error {val : UInt32} (hrange : ∀ h, dr.InRange (s.file.position h))
    (h : ¬ dr.Writable uncopied (dr.seek s off)) :
    regWrite (dr.stackOs uncopied) 0 val off s =
      (.FD_ERR_WRITE, { dr.seek s off with mode := .closed }) := by
  have hwrite : (dr.stackOs uncopied).write 0 val (dr.seek s off) = (-1, dr.seek s off) := by
    simp only [stackOs]
    by_cases hmode : (dr.seek s off).mode = .readWrite
    · obtain ⟨e, heq⟩ : ∃ e, dr.exec (dr.seek s off).file (.write () 4 uncopied val) =
          ({ ret := .error e }, (dr.seek s off).file) :=
        exec_of_not_allows (seek_inRange hrange off) (fun hallows => h ⟨hmode, hallows⟩)
      rw [if_neg (not_not_intro hmode), heq]
      rfl
    · rw [if_pos hmode]
  simp only [regWrite, lseek_eq, hwrite]
  rfl

theorem regRead_ok {val : UInt32} (h : dr.Readable uncopied (dr.seek s off)) :
    regRead (dr.stackOs uncopied) 0 val off s =
      (.FD_ERR_NONE, s.file.regs (regOff ((dr.seek s off).file.position ())),
        { dr.seek s off with file := (effect (dr.seek s off).file (.read () 4 uncopied)).2 }) := by
  obtain ⟨hmode, hallows⟩ := h
  have hread : (dr.stackOs uncopied).read 0 (dr.seek s off) =
      (4, s.file.regs (regOff ((dr.seek s off).file.position ())),
        { dr.seek s off with file := (effect (dr.seek s off).file (.read () 4 uncopied)).2 }) := by
    simp only [stackOs]
    have hexec : dr.exec (dr.seek s off).file (.read () 4 uncopied) =
        effect (dr.seek s off).file (.read () 4 uncopied) := exec_of_allows hallows
    rw [if_neg hmode, hexec]
    simp only [effect, seek_regs]
    rfl
  simp only [regRead, lseek_eq, hread]
  rfl

theorem regRead_error {val : UInt32} (hrange : ∀ h, dr.InRange (s.file.position h))
    (h : ¬ dr.Readable uncopied (dr.seek s off)) :
    regRead (dr.stackOs uncopied) 0 val off s =
      (.FD_ERR_READ, val, { dr.seek s off with mode := .closed }) := by
  have hread : ∃ rd, (dr.stackOs uncopied).read 0 (dr.seek s off) =
      (-1, rd, dr.seek s off) := by
    simp only [stackOs]
    by_cases hmode : (dr.seek s off).mode = .closed
    · exact ⟨0, by rw [if_pos hmode]⟩
    · obtain ⟨e, heq⟩ : ∃ e, dr.exec (dr.seek s off).file (.read () 4 uncopied) =
          ({ ret := .error e }, (dr.seek s off).file) :=
        exec_of_not_allows (seek_inRange hrange off) (fun hallows => h ⟨hmode, hallows⟩)
      exact ⟨0, by rw [if_neg hmode, heq]; rfl⟩
  obtain ⟨rd, heq⟩ := hread
  simp only [regRead, lseek_eq, heq]
  rfl

/-- A write of a register other than `IP_VER` on a good descriptor. -/
theorem regWrite_register (val : UInt32) (hmode : s.mode = .readWrite)
    (hreg : dr.IsReg off.toNat) (hoff : off.toNat ≠ 0) :
    ∃ s', regWrite (dr.stackOs 0) 0 val off s = (.FD_ERR_NONE, s') ∧ s'.mode = .readWrite ∧
      s'.file.regs = s.file.regs.set off val := by
  have hopen : s.mode ≠ .closed := by rw [hmode]; decide
  have hposition := seek_position hopen hreg
  have hwritable : dr.Writable 0 (dr.seek s off) := by
    refine ⟨by rw [seek_mode, hmode], ⟨Nat.le_refl 4, ?_, rfl⟩, ?_⟩
    · rw [hposition, toInt_ofNat_toNat]
      exact hreg
    · rw [hposition, toInt_ofNat_toNat]
      exact_mod_cast hoff
  refine ⟨_, regWrite_ok hwritable, by rw [← hmode, ← seek_mode s off], ?_⟩
  show (dr.seek s off).file.regs.set (regOff ((dr.seek s off).file.position ())) val = _
  rw [seek_regs, hposition, regOff_ofNat_toNat]

/-- A read of a register on an open descriptor. -/
theorem regRead_register (val : UInt32) (hopen : s.mode ≠ .closed)
    (hreg : dr.IsReg off.toNat) :
    ∃ s', regRead (dr.stackOs 0) 0 val off s = (.FD_ERR_NONE, s.file.regs off, s') ∧
      s'.mode = s.mode ∧ s'.file.regs = s.file.regs := by
  have hposition := seek_position hopen hreg
  have hreadable : dr.Readable 0 (dr.seek s off) := by
    refine ⟨by rw [seek_mode]; exact hopen, ⟨Nat.le_refl 4, ?_, rfl⟩⟩
    rw [hposition, toInt_ofNat_toNat]
    exact hreg
  have hread : regRead (dr.stackOs 0) 0 val off s = _ := regRead_ok hreadable
  rw [hposition, regOff_ofNat_toNat] at hread
  exact ⟨_, hread, seek_mode s off, seek_regs s off⟩

/-! ## Exact accesses -/

/-- An access is exact when its offset is a register address. -/
theorem exact_write_of_isReg (hrange : ∀ h, dr.InRange (s.file.position h)) (val : UInt32)
    (hreg : dr.IsReg off.toNat) : dr.Exact s (.write val off uncopied) := by
  simp only [Exact, accessStep, access]
  by_cases hwritable : dr.Writable uncopied (dr.seek s off)
  · have hopen : s.mode ≠ .closed := by
      have hmode := hwritable.1
      rw [seek_mode] at hmode
      rw [hmode]
      decide
    have hset : (effect (dr.seek s off).file (.write () 4 uncopied val)).2.regs =
        s.file.regs.set off val := by
      show (dr.seek s off).file.regs.set (regOff ((dr.seek s off).file.position ())) val = _
      rw [seek_regs, seek_position hopen hreg, regOff_ofNat_toNat]
    rw [regWrite_ok hwritable]
    refine ⟨fun _ => ⟨hreg, ?_, ?_⟩, fun herr => absurd rfl herr⟩
    · show (effect (dr.seek s off).file (.write () 4 uncopied val)).2.regs off = val
      rw [hset, Registers.set_self]
    · intro o ho
      show (effect (dr.seek s off).file (.write () 4 uncopied val)).2.regs o = s.file.regs o
      rw [hset, Registers.set_of_ne ho]
  · rw [regWrite_error hrange hwritable]
    exact ⟨fun hok => FdErr.noConfusion hok, fun _ => seek_regs s off⟩

theorem exact_read_of_isReg (hrange : ∀ h, dr.InRange (s.file.position h)) (val : UInt32)
    (hreg : dr.IsReg off.toNat) : dr.Exact s (.read val off uncopied) := by
  simp only [Exact, access]
  by_cases hreadable : dr.Readable uncopied (dr.seek s off)
  · have hopen : s.mode ≠ .closed := by
      have hmode := hreadable.1
      rwa [seek_mode] at hmode
    rw [regRead_ok hreadable, seek_position hopen hreg, regOff_ofNat_toNat]
    exact fun _ => ⟨hreg, rfl⟩
  · rw [regRead_error hrange hreadable]
    exact fun hok => FdErr.noConfusion hok

/-- In range, an access is exact exactly when its offset is a register address
or the transfer is rejected. -/
theorem exact_iff_meets (hrange : ∀ h, dr.InRange (s.file.position h)) (call : RegCall) :
    dr.Exact s call ↔ dr.Meets s call := by
  cases call with
  | write val off uncopied =>
      by_cases hreg : dr.IsReg off.toNat
      · exact iff_of_true (exact_write_of_isReg hrange val hreg) (Or.inl hreg)
      · have hseek := seek_of_not_isReg (s := s) hreg
        by_cases hwritable : dr.Writable uncopied s
        · refine iff_of_false ?_ ?_
          · intro hexact
            have hok : (dr.access s (.write val off uncopied)).1 = .FD_ERR_NONE := by
              simp only [access]
              rw [regWrite_ok (by rw [hseek]; exact hwritable)]
            exact hreg (hexact.1 hok).1
          · rintro (hreg' | hnot)
            · exact hreg hreg'
            · exact hnot hwritable
        · refine iff_of_true ?_ (Or.inr hwritable)
          simp only [Exact, accessStep, access]
          rw [regWrite_error hrange (by rw [hseek]; exact hwritable)]
          exact ⟨fun hok => FdErr.noConfusion hok, fun _ => seek_regs s off⟩
  | read val off uncopied =>
      by_cases hreg : dr.IsReg off.toNat
      · exact iff_of_true (exact_read_of_isReg hrange val hreg) (Or.inl hreg)
      · have hseek := seek_of_not_isReg (s := s) hreg
        by_cases hreadable : dr.Readable uncopied s
        · refine iff_of_false ?_ ?_
          · intro hexact
            have hok : (dr.access s (.read val off uncopied)).1 = .FD_ERR_NONE := by
              simp only [access]
              rw [regRead_ok (by rw [hseek]; exact hreadable)]
            exact hreg (hexact hok).1
          · rintro (hreg' | hnot)
            · exact hreg hreg'
            · exact hnot hreadable
        · refine iff_of_true ?_ (Or.inr hreadable)
          simp only [Exact, access]
          rw [regRead_error hrange (by rw [hseek]; exact hreadable)]
          exact fun hok => FdErr.noConfusion hok

/-- A write access of a register, whatever comes of it. -/
theorem accessStep_write (hrange : ∀ h, dr.InRange (s.file.position h)) (val : UInt32)
    (uncopied : Nat) (hreg : dr.IsReg off.toNat) (hoff : off.toNat ≠ 0) :
    let ok := s.mode = .readWrite ∧ uncopied = 0
    (dr.accessStep s (.write val off uncopied)).mode = (if ok then .readWrite else .closed) ∧
      (dr.accessStep s (.write val off uncopied)).file.regs =
        if ok then s.file.regs.set off val else s.file.regs := by
  intro ok
  by_cases hok : ok
  · obtain ⟨hmode, rfl⟩ := hok
    obtain ⟨stack, hwrite, hmode', hregs⟩ := regWrite_register val hmode hreg hoff
    have hstack : dr.accessStep s (.write val off 0) = stack := congrArg Prod.snd hwrite
    rw [hstack, if_pos ⟨hmode, rfl⟩, if_pos ⟨hmode, rfl⟩]
    exact ⟨hmode', hregs⟩
  · have hnot : ¬ dr.Writable uncopied (dr.seek s off) := by
      intro hwritable
      have hmode := hwritable.1
      rw [seek_mode] at hmode
      exact hok ⟨hmode, hwritable.2.1.2.2⟩
    have hstack : dr.accessStep s (.write val off uncopied) =
        { dr.seek s off with mode := .closed } := congrArg Prod.snd (regWrite_error hrange hnot)
    rw [hstack, if_neg hok, if_neg hok]
    exact ⟨rfl, seek_regs s off⟩

/-- A read access of a register: `*val` behind it, and the state. -/
theorem access_read (hrange : ∀ h, dr.InRange (s.file.position h)) (val : UInt32)
    (uncopied : Nat) (hreg : dr.IsReg off.toNat) :
    let ok := s.mode ≠ .closed ∧ uncopied = 0
    (dr.access s (.read val off uncopied)).2.1 = (if ok then s.file.regs off else val) ∧
      (dr.accessStep s (.read val off uncopied)).mode = (if ok then s.mode else .closed) ∧
      (dr.accessStep s (.read val off uncopied)).file.regs = s.file.regs := by
  intro ok
  by_cases hok : ok
  · obtain ⟨hopen, rfl⟩ := hok
    obtain ⟨stack, hread, hmode, hregs⟩ := regRead_register val hopen hreg
    have haccess : dr.access s (.read val off 0) = (.FD_ERR_NONE, s.file.regs off, stack) := hread
    rw [accessStep, haccess, if_pos ⟨hopen, rfl⟩, if_pos ⟨hopen, rfl⟩]
    exact ⟨rfl, hmode, hregs⟩
  · have hnot : ¬ dr.Readable uncopied (dr.seek s off) := by
      intro hreadable
      have hmode := hreadable.1
      rw [seek_mode] at hmode
      exact hok ⟨hmode, hreadable.2.2.2⟩
    have haccess : dr.access s (.read val off uncopied) =
        (.FD_ERR_READ, val, { dr.seek s off with mode := .closed }) := regRead_error hrange hnot
    rw [accessStep, haccess, if_neg hok, if_neg hok]
    exact ⟨rfl, rfl, seek_regs s off⟩

/-! ## Runs -/

/-- An access keeps the position in range. -/
theorem inRange_accessStep (hrange : ∀ h, dr.InRange (s.file.position h)) (call : RegCall)
    (h : Unit) : dr.InRange ((dr.accessStep s call).file.position h) := by
  cases call with
  | write val off uncopied =>
      have hseek := seek_inRange hrange off
      simp only [accessStep, access]
      by_cases hwritable : dr.Writable uncopied (dr.seek s off)
      · rw [regWrite_ok hwritable]
        exact hwritable.2.1.2.1.inRange_add_four
      · rw [regWrite_error hrange hwritable]
        exact hseek h
  | read val off uncopied =>
      have hseek := seek_inRange hrange off
      simp only [accessStep, access]
      by_cases hreadable : dr.Readable uncopied (dr.seek s off)
      · rw [regRead_ok hreadable]
        exact hreadable.2.2.1.inRange_add_four
      · rw [regRead_error hrange hreadable]
        exact hseek h

/-- A run of accesses on a descriptor that has just been opened is exact in
every call exactly when every call meets the condition. -/
theorem along_exact_iff (dr : Driver) (mode : Mode) (regs : Registers) (calls : List RegCall) :
    Machine.Along dr.accessStep dr.Exact ⟨opened regs, mode⟩ calls ↔
      Machine.Along dr.accessStep dr.Meets ⟨opened regs, mode⟩ calls := by
  have hstep : ∀ (s : Stack) (call : RegCall), (∀ h, dr.InRange (s.file.position h)) →
      ∀ h, dr.InRange ((dr.accessStep s call).file.position h) :=
    fun _ call hrange => inRange_accessStep hrange call
  have hagree : ∀ (s : Stack) (call : RegCall), (∀ h, dr.InRange (s.file.position h)) →
      (dr.Exact s call ↔ dr.Meets s call) :=
    fun _ call hrange => exact_iff_meets hrange call
  refine Machine.along_congr (I := fun s : Stack => ∀ h, dr.InRange (s.file.position h))
    hstep hagree ?_ calls
  exact fun _ => inRange_zero

end Driver

/-- Register access through the library and the driver, on both stacks and
over every history of accesses: it is exact or has no effect as long as the
offsets are register addresses or the transfers are rejected, and only so
long. -/
theorem register_access_exact_iff (mode : Mode) (regs : Registers) (calls : List RegCall) :
    (Machine.Along rlsMiniPl.accessStep rlsMiniPl.Exact ⟨Driver.opened regs, mode⟩ calls ↔
      Machine.Along rlsMiniPl.accessStep rlsMiniPl.Meets ⟨Driver.opened regs, mode⟩ calls) ∧
    (Machine.Along axiMultiplier.accessStep axiMultiplier.Exact ⟨Driver.opened regs, mode⟩ calls ↔
      Machine.Along axiMultiplier.accessStep axiMultiplier.Meets ⟨Driver.opened regs, mode⟩
        calls) :=
  ⟨rlsMiniPl.along_exact_iff mode regs calls, axiMultiplier.along_exact_iff mode regs calls⟩

/-- The stack after a write at offset 4, which leaves the position 8. -/
def afterWriteAtFour : Stack :=
  rlsMiniPl.accessStep ⟨Driver.opened fun _ => 0, .readWrite⟩ (.write 1 0x4 0)

/-- A write of 7 at the offset 2, which is no register, then reports success
and has written the register at 8. -/
theorem write_at_two_is_not_exact :
    (rlsMiniPl.access afterWriteAtFour (.write 7 0x2 0)).1 = .FD_ERR_NONE ∧
      (rlsMiniPl.accessStep afterWriteAtFour (.write 7 0x2 0)).file.regs 0x8 = 7 ∧
      ¬ rlsMiniPl.Exact afterWriteAtFour (.write 7 0x2 0) := by
  have hok : (rlsMiniPl.access afterWriteAtFour (.write 7 0x2 0)).1 = .FD_ERR_NONE := by decide
  have hwritten : (rlsMiniPl.accessStep afterWriteAtFour (.write 7 0x2 0)).file.regs 0x8 = 7 := by
    decide
  refine ⟨hok, hwritten, fun hexact => ?_⟩
  exact absurd (hexact.1 hok).1 (by decide)

end RlsMini.Regs
