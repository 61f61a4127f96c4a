import RlsMini.Regs.Driver
import RlsMini.Lib.Machine

/-!
# Open handles

Any number of handles are open on one device.  The kernel keeps a position for
each: it passes the position to `read` and `write`, and stores it back when
they succeed; `llseek` sets it itself.

`Contract dr s` collects what a call can do in the state `s`.  All of it
follows from the position of the handle lying in `Driver.InRange`, and that is
the invariant of every run.
-/

namespace RlsMini.Regs

variable {H : Type} [DecidableEq H]

/-! ## Calls -/

/-- A call on a handle, with the outcome of the user copy where there is
one. -/
inductive FileOp (H : Type) where
  | llseek (h : H) (off : Int64) (whence : Int32)
  | read (h : H) (len uncopied : Nat)
  | write (h : H) (len uncopied : Nat) (value : UInt32)

/-- What a call returns, with the word a `read` leaves in the user's buffer. -/
structure Reply where
  ret : Except Errno Int64
  data : Option UInt32 := none

/-- The call returns no error. -/
def Reply.Succeeds (r : Reply) : Prop := ∃ n, r.ret = .ok n

/-- The registers and the positions of the handles. -/
structure Handles (H : Type) where
  regs : Registers
  position : H → Int64

/-- The state with the position of one handle moved. -/
def Handles.setPosition (s : Handles H) (h : H) (off : Int64) : Handles H :=
  { s with position := fun x => if x = h then off else s.position x }

theorem Handles.setPosition_position (s : Handles H) (h x : H) (off : Int64) :
    (s.setPosition h off).position x = if x = h then off else s.position x := rfl

/-- Setting the position a handle has changes nothing. -/
@[simp] theorem Handles.setPosition_self (s : Handles H) (h : H) :
    s.setPosition h (s.position h) = s := by
  have hposition : (fun x => if x = h then s.position h else s.position x) = s.position := by
    funext x
    split
    · rename_i heq
      rw [heq]
    · rfl
  show { s with position := _ } = s
  rw [hposition]

@[simp] theorem Handles.setPosition_setPosition (s : Handles H) (h : H) (off off' : Int64) :
    (s.setPosition h off).setPosition h off' = s.setPosition h off' := by
  have hposition : (fun x => if x = h then off' else (s.setPosition h off).position x) =
      (s.setPosition h off').position := by
    funext x
    simp only [setPosition_position]
    split <;> rfl
  show { s with position := _ } = _
  rw [hposition]
  rfl

namespace Driver

variable (dr : Driver)

/-- A call through the kernel. -/
def exec (s : Handles H) : FileOp H → Reply × Handles H
  | .llseek h off whence =>
      let (ret, fPos) := dr.llseek (s.position h) off whence
      ({ ret := ret }, s.setPosition h fPos)
  | .read h len uncopied =>
      match dr.read s.regs len uncopied (s.position h) with
      | (.ok n, data, off) => ({ ret := .ok (Int64.ofNat n), data := data }, s.setPosition h off)
      | (.error e, data, _) => ({ ret := .error e, data := data }, s)
  | .write h len uncopied value =>
      match dr.write s.regs len uncopied value (s.position h) with
      | (.ok n, regs, off) =>
          ({ ret := .ok (Int64.ofNat n) }, { s with regs := regs }.setPosition h off)
      | (.error e, regs, _) => ({ ret := .error e }, { s with regs := regs })

/-- The state after a call. -/
def step (s : Handles H) (op : FileOp H) : Handles H := (dr.exec s op).2

/-! ## What a call does -/

/-- When a call succeeds. -/
def Allows (s : Handles H) : FileOp H → Prop
  | .llseek _ off whence => whence = SEEK_SET ∧ dr.IsReg off.toInt
  | .read h len uncopied => dr.Accepts len uncopied (s.position h)
  | .write h len uncopied _ => dr.Accepts len uncopied (s.position h) ∧ (s.position h).toInt ≠ 0

/-- What a successful call returns and leaves. -/
def effect (s : Handles H) : FileOp H → Reply × Handles H
  | .llseek h off _ => ({ ret := .ok off }, s.setPosition h off)
  | .read h _ _ =>
      ({ ret := .ok 4, data := some (s.regs (regOff (s.position h))) },
        s.setPosition h (s.position h + 4))
  | .write h _ _ value =>
      ({ ret := .ok 4 },
        { s with regs := s.regs.set (regOff (s.position h)) value }.setPosition h
          (s.position h + 4))

variable {dr} {s : Handles H} {op : FileOp H}

theorem exec_of_allows (h : dr.Allows s op) : dr.exec s op = effect s op := by
  cases op with
  | llseek h' off whence =>
      obtain ⟨rfl, hreg⟩ := h
      have heq : dr.llseek (s.position h') off SEEK_SET = (.ok off, off) := by
        rw [llseek_eq, if_pos ⟨rfl, hreg⟩]
      simp only [exec, heq, effect]
  | read h' len uncopied =>
      simp only [exec, read_ok h, effect]
      rfl
  | write h' len uncopied value =>
      simp only [exec, write_ok h.1 h.2, effect]
      rfl

/-- A call that is not allowed returns an error and changes nothing. -/
theorem exec_of_not_allows (hrange : ∀ h, dr.InRange (s.position h)) (h : ¬ dr.Allows s op) :
    ∃ e, dr.exec s op = ({ ret := .error e }, s) := by
  cases op with
  | llseek h' off whence =>
      have heq : dr.llseek (s.position h') off whence = (.error .EINVAL, s.position h') := by
        rw [llseek_eq]
        exact if_neg h
      exact ⟨.EINVAL, by simp only [exec, heq, Handles.setPosition_self]⟩
  | read h' len uncopied =>
      obtain ⟨e, heq⟩ : ∃ e, dr.read s.regs len uncopied (s.position h') =
          (.error e, none, s.position h') := read_error (hrange h') h
      exact ⟨e, by simp only [exec, heq]⟩
  | write h' len uncopied value =>
      obtain ⟨e, heq⟩ : ∃ e, dr.write s.regs len uncopied value (s.position h') =
          (.error e, s.regs, s.position h') := write_error (hrange h') h
      exact ⟨e, by simp only [exec, heq]⟩

theorem effect_succeeds (s : Handles H) (op : FileOp H) : (effect s op).1.Succeeds := by
  cases op with
  | llseek h off whence => exact ⟨off, rfl⟩
  | read h len uncopied => exact ⟨4, rfl⟩
  | write h len uncopied value => exact ⟨4, rfl⟩

/-- A call succeeds exactly when it is allowed. -/
theorem succeeds_iff (hrange : ∀ h, dr.InRange (s.position h)) (op : FileOp H) :
    (dr.exec s op).1.Succeeds ↔ dr.Allows s op := by
  by_cases h : dr.Allows s op
  · rw [exec_of_allows h]
    exact iff_of_true (effect_succeeds s op) h
  · obtain ⟨e, heq⟩ := exec_of_not_allows hrange h
    rw [heq]
    refine iff_of_false ?_ h
    rintro ⟨n, hn⟩
    cases hn

/-- A call changes nothing, or it is allowed and has its effect. -/
theorem step_cases (hrange : ∀ h, dr.InRange (s.position h)) (op : FileOp H) :
    (¬ dr.Allows s op ∧ dr.step s op = s) ∨
      (dr.Allows s op ∧ dr.step s op = (effect s op).2) := by
  by_cases h : dr.Allows s op
  · exact Or.inr ⟨h, by rw [step, exec_of_allows h]⟩
  · obtain ⟨e, heq⟩ := exec_of_not_allows hrange h
    exact Or.inl ⟨h, by rw [step, heq]⟩

/-! ## The contract -/

variable (dr) in
/-- What every call does in the state `s`. -/
structure Contract (s : Handles H) : Prop where
  position : ∀ h, 0 ≤ (s.position h).toInt ∧ (s.position h).toInt ≤ dr.regMaxOffset + 4 ∧
    (s.position h).toInt % 4 = 0
  llseek : ∀ h off whence, (dr.exec s (.llseek h off whence)).1.Succeeds ↔
    whence = SEEK_SET ∧ dr.IsReg off.toInt
  read : ∀ h len uncopied, (dr.exec s (.read h len uncopied)).1.Succeeds ↔
    4 ≤ len ∧ dr.IsReg (s.position h).toInt ∧ uncopied = 0
  write : ∀ h len uncopied value, (dr.exec s (.write h len uncopied value)).1.Succeeds ↔
    (4 ≤ len ∧ dr.IsReg (s.position h).toInt ∧ uncopied = 0) ∧ (s.position h).toInt ≠ 0
  /-- A successful `write` changes the register at the position of its handle,
  which moves on by 4, and nothing else. -/
  writes : ∀ h len uncopied value, (dr.exec s (.write h len uncopied value)).1.Succeeds →
    ∃ off : UInt32, off.toNat = (s.position h).toInt ∧
      (dr.step s (.write h len uncopied value)).regs = s.regs.set off value ∧
      ((dr.step s (.write h len uncopied value)).position h).toInt =
        (s.position h).toInt + 4 ∧
      ∀ x, x ≠ h → (dr.step s (.write h len uncopied value)).position x = s.position x
  error : ∀ op, ¬ (dr.exec s op).1.Succeeds → dr.step s op = s
  ipVer : ∀ op, (dr.step s op).regs CSR_IP_VER_ADDR = s.regs CSR_IP_VER_ADDR

/-- A call keeps every position in range. -/
theorem inRange_step (hrange : ∀ h, dr.InRange (s.position h)) (op : FileOp H) (x : H) :
    dr.InRange ((dr.step s op).position x) := by
  have hmoved : ∀ (regs : Registers) (h : H) (off : Int64), dr.InRange off →
      dr.InRange (({ s with regs := regs }.setPosition h off).position x) := by
    intro regs h off hoff
    rw [Handles.setPosition_position]
    split
    · exact hoff
    · exact hrange x
  rcases step_cases hrange op with ⟨-, heq⟩ | ⟨hallows, heq⟩
  · rw [heq]
    exact hrange x
  · rw [heq]
    cases op with
    | llseek h off whence => exact hmoved s.regs h off hallows.2.inRange
    | read h len uncopied => exact hmoved s.regs h _ hallows.2.1.inRange_add_four
    | write h len uncopied value => exact hmoved _ h _ hallows.1.2.1.inRange_add_four

/-- No call writes `IP_VER`. -/
theorem step_ipVer (hrange : ∀ h, dr.InRange (s.position h)) (op : FileOp H) :
    (dr.step s op).regs CSR_IP_VER_ADDR = s.regs CSR_IP_VER_ADDR := by
  rcases step_cases hrange op with ⟨-, heq⟩ | ⟨hallows, heq⟩
  · rw [heq]
  · rw [heq]
    cases op with
    | llseek h off whence => rfl
    | read h len uncopied => rfl
    | write h len uncopied value =>
        have hperm := (regIsWritable_regOff (hrange h).1 (hrange h).lt).mpr hallows.2
        rw [regIsWritable, decide_eq_true_iff] at hperm
        exact Registers.set_of_ne (Ne.symm hperm) s.regs value

/-- With the positions in range, every call keeps the contract. -/
theorem contract (hrange : ∀ h, dr.InRange (s.position h)) : dr.Contract s where
  position := hrange
  llseek _ _ _ := succeeds_iff hrange _
  read _ _ _ := succeeds_iff hrange _
  write _ _ _ _ := succeeds_iff hrange _
  writes h len uncopied value hsucceeds := by
    have hallows := (succeeds_iff hrange _).mp hsucceeds
    have hlow := (hrange h).1
    rw [step, exec_of_allows hallows]
    refine ⟨regOff (s.position h), ?_, rfl, ?_, ?_⟩
    · rw [toNat_regOff hlow (hrange h).lt]
      omega
    · show ((Handles.setPosition _ h (s.position h + 4)).position h).toInt = _
      rw [Handles.setPosition_position, if_pos rfl]
      exact hallows.1.2.1.toInt_add_four
    · intro x hx
      show (Handles.setPosition _ h (s.position h + 4)).position x = _
      rw [Handles.setPosition_position, if_neg hx]
  error op hfails := by
    rcases step_cases hrange op with ⟨-, heq⟩ | ⟨hallows, -⟩
    · exact heq
    · exact absurd ((succeeds_iff hrange op).mpr hallows) hfails
  ipVer := step_ipVer hrange

variable (dr)

/-- Handles that have just been opened. -/
def opened (regs : Registers) : Handles H where
  regs := regs
  position _ := 0

/-- Along every run the contract holds and `IP_VER` keeps its value. -/
theorem contract_run (regs : Registers) (ops : List (FileOp H)) :
    dr.Contract (Machine.run dr.step (opened regs) ops) ∧
      (Machine.run dr.step (opened regs) ops).regs CSR_IP_VER_ADDR = regs CSR_IP_VER_ADDR := by
  have hstep : ∀ (s : Handles H) (op : FileOp H),
      (∀ h, dr.InRange (s.position h)) ∧ s.regs CSR_IP_VER_ADDR = regs CSR_IP_VER_ADDR →
      (∀ h, dr.InRange ((dr.step s op).position h)) ∧
        (dr.step s op).regs CSR_IP_VER_ADDR = regs CSR_IP_VER_ADDR := by
    rintro s op ⟨hrange, hver⟩
    exact ⟨inRange_step hrange op, by rw [step_ipVer hrange op, hver]⟩
  have hinv := Machine.invariant_run hstep (s := opened regs) ⟨fun _ => inRange_zero, rfl⟩ ops
  exact ⟨contract hinv.1, hinv.2⟩

end Driver

/-- Both drivers keep the contract of their file operations on every number of
handles and every interleaving of calls on them. -/
theorem file_operations_keep_contract (H : Type) [DecidableEq H] (regs : Registers)
    (ops : List (FileOp H)) :
    (rlsMiniPl.Contract (Machine.run rlsMiniPl.step (Driver.opened regs) ops) ∧
      (Machine.run rlsMiniPl.step (Driver.opened regs) ops).regs CSR_IP_VER_ADDR =
        regs CSR_IP_VER_ADDR) ∧
    (axiMultiplier.Contract (Machine.run axiMultiplier.step (Driver.opened regs) ops) ∧
      (Machine.run axiMultiplier.step (Driver.opened regs) ops).regs CSR_IP_VER_ADDR =
        regs CSR_IP_VER_ADDR) :=
  ⟨rlsMiniPl.contract_run regs ops, axiMultiplier.contract_run regs ops⟩

end RlsMini.Regs
