import RlsMini.Regs.Calls
import RlsMini.Regs.Stack

/-!
# The library stops at the first failed transfer

A failed transfer closes the descriptor, and no function of `axi_dsp.cpp` opens
it again.  The functions that follow are called all the same, and each of their
transfers fails on the closed descriptor.

`Session` is one opening of `rls_mini_pl`, with outcomes given in advance for
the `open` calls and the user copies.  Of the accesses of any sequence of calls,
those before the first failure are carried out and the rest have no effect
(`calls_stop_at_failure`).
-/

namespace RlsMini.Regs

/-! ## One opening of the device -/

/-- The descriptor, and how many transfers have been asked for. -/
structure Session where
  stack : Stack
  transfers : Nat := 0

namespace Session

/-- The device with the registers `regs`, before it is opened. -/
def unopened (regs : Registers) : Session where
  stack := ⟨Driver.opened regs, .closed⟩

/-- The mode that `axi_dsp_init` gets the descriptor in, if `opens` is the
outcome of `open`, for a read-only descriptor or not. -/
def initMode (opens : Bool → Bool) : Mode :=
  if opens false then .readWrite else if opens true then .readOnly else .closed

end Session

/-- The system calls.  `copies n` bytes are left over by the user copy of
transfer `n`, if it gets that far. -/
def sessionOs (opens : Bool → Bool) (copies : Nat → Nat) : Posix Session where
  openDevice readOnly s :=
    if opens readOnly then
      let mode := if readOnly then Mode.readOnly else .readWrite
      (3, { s with stack := ⟨Driver.opened s.stack.file.regs, mode⟩ })
    else (-1, s)
  lseek fd off whence s :=
    let (n, stack) := (rlsMiniPl.stackOs 0).lseek fd off whence s.stack
    (n, { s with stack := stack })
  read fd s :=
    let (n, rd, stack) := (rlsMiniPl.stackOs (copies s.transfers)).read fd s.stack
    (n, rd, ⟨stack, s.transfers + 1⟩)
  write fd val s :=
    let (n, stack) := (rlsMiniPl.stackOs (copies s.transfers)).write fd val s.stack
    (n, ⟨stack, s.transfers + 1⟩)
  close fd s := { s with stack := (rlsMiniPl.stackOs 0).close fd s.stack }

/-! ## What should come of a sequence of accesses -/

namespace DspAccess

/-- The access names a register that it may use. -/
def OnRegister : DspAccess → Prop
  | .write _ off => rlsMiniPl.IsReg off.toNat ∧ off.toNat ≠ 0
  | .read _ off => rlsMiniPl.IsReg off.toNat
  | .close => False

/-- The descriptor allows the access. -/
def Allowed (mode : Mode) : DspAccess → Prop
  | .write _ _ => mode = .readWrite
  | .read _ _ => mode ≠ .closed
  | .close => False

instance (mode : Mode) (a : DspAccess) : Decidable (a.Allowed mode) := by
  cases a <;> unfold Allowed <;> infer_instance

/-- The access on plain registers. -/
def store (regs : Registers) : DspAccess → Registers
  | .write val off => regs.set off val
  | .read _ _ => regs
  | .close => regs

end DspAccess

/-- The accesses before the first failure, from transfer `t` on. -/
def served (copies : Nat → Nat) (mode : Mode) : (t : Nat) → List DspAccess → Nat
  | _, [] => 0
  | t, a :: rest =>
      if a.Allowed mode ∧ copies t = 0 then served copies mode (t + 1) rest + 1 else 0

theorem served_le (copies : Nat → Nat) (mode : Mode) (t : Nat) (accesses : List DspAccess) :
    served copies mode t accesses ≤ accesses.length := by
  induction accesses generalizing t with
  | nil => exact Nat.le_refl 0
  | cons a rest ih =>
      unfold served
      split
      · exact Nat.succ_le_succ (ih (t + 1))
      · exact Nat.zero_le _

/-- Nothing fails exactly if each access is allowed and each copy is whole. -/
theorem served_eq_length_iff (copies : Nat → Nat) (mode : Mode) (t : Nat)
    (accesses : List DspAccess) :
    served copies mode t accesses = accesses.length ↔
      (∀ a ∈ accesses, a.Allowed mode) ∧ ∀ n, n < accesses.length → copies (t + n) = 0 := by
  induction accesses generalizing t with
  | nil => simp [served]
  | cons a rest ih =>
      unfold served
      split
      · rename_i hok
        rw [List.length_cons, Nat.add_right_cancel_iff, ih (t + 1), List.forall_mem_cons]
        constructor
        · intro hrest
          refine ⟨⟨hok.1, hrest.1⟩, fun n hn => ?_⟩
          cases n with
          | zero => exact hok.2
          | succ n =>
              have hcopy := hrest.2 n (by omega)
              rwa [Nat.add_right_comm] at hcopy
        · intro hall
          refine ⟨hall.1.2, fun n hn => ?_⟩
          have hcopy := hall.2 (n + 1) (by omega)
          rwa [Nat.add_right_comm]
      · rename_i hfails
        refine iff_of_false (by rw [List.length_cons]; omega) fun hall => hfails ?_
        exact ⟨hall.1 a List.mem_cons_self, hall.2 0 (by rw [List.length_cons]; omega)⟩

/-! ## One access -/

/-- What an access finds: transfer `t` is next, on a descriptor of that mode. -/
structure Session.At (s : Session) (t : Nat) (mode : Mode) (regs : Registers) : Prop where
  transfers : s.transfers = t
  mode : s.stack.mode = mode
  regs : s.stack.file.regs = regs
  inRange : ∀ h, rlsMiniPl.InRange (s.stack.file.position h)

section Exec

variable (opens : Bool → Bool) (copies : Nat → Nat) (fd : Int32) {s : Session} {t : Nat}
  {mode : Mode} {regs : Registers}

/-- The access of a session, as an access of the stack. -/
theorem regWrite_session (val off : UInt32) :
    (regWrite (sessionOs opens copies) fd val off s).2 =
      ⟨rlsMiniPl.accessStep s.stack (.write val off (copies s.transfers)), s.transfers + 1⟩ := by
  rw [regWrite_snd]
  show _ = Session.mk
    (regWrite (rlsMiniPl.stackOs (copies s.transfers)) 0 val off s.stack).2 _
  rw [regWrite_snd]
  exact (apply_ite (Session.mk · (s.transfers + 1)) _ _ _).symm

theorem regRead_session (val off : UInt32) :
    (regRead (sessionOs opens copies) fd val off s).2.2 =
      ⟨rlsMiniPl.accessStep s.stack (.read val off (copies s.transfers)), s.transfers + 1⟩ := by
  rw [regRead_snd]
  show _ = Session.mk
    (regRead (rlsMiniPl.stackOs (copies s.transfers)) 0 val off s.stack).2.2 _
  rw [regRead_snd]
  exact (apply_ite (Session.mk · (s.transfers + 1)) _ _ _).symm

/-- An access that is allowed and copied whole. -/
theorem Session.At.exec_ok (h : s.At t mode regs) {a : DspAccess} (hreg : a.OnRegister)
    (hallowed : a.Allowed mode) (hcopy : copies t = 0) :
    (a.exec (sessionOs opens copies) fd s).At (t + 1) mode (a.store regs) := by
  cases a with
  | write val off =>
      show ((regWrite (sessionOs opens copies) fd val off s).2).At _ _ _
      have hok : s.stack.mode = .readWrite ∧ copies t = 0 := ⟨h.mode.trans hallowed, hcopy⟩
      obtain ⟨hmode, hregs⟩ := Driver.accessStep_write h.inRange val (copies t) hreg.1 hreg.2
      rw [if_pos hok] at hmode hregs
      rw [regWrite_session, h.transfers]
      exact ⟨rfl, hmode.trans hallowed.symm, h.regs ▸ hregs,
        Driver.inRange_accessStep h.inRange _⟩
  | read raw off =>
      show ((regRead (sessionOs opens copies) fd raw off s).2.2).At _ _ _
      have hok : s.stack.mode ≠ .closed ∧ copies t = 0 := ⟨h.mode.symm ▸ hallowed, hcopy⟩
      obtain ⟨-, hmode, hregs⟩ := Driver.access_read h.inRange raw (copies t) hreg
      rw [if_pos hok] at hmode
      rw [regRead_session, h.transfers]
      exact ⟨rfl, hmode.trans h.mode, hregs.trans h.regs, Driver.inRange_accessStep h.inRange _⟩
  | close => exact hallowed.elim

/-- An access that is not allowed, or not copied whole. -/
theorem Session.At.exec_fails (h : s.At t mode regs) {a : DspAccess} (hreg : a.OnRegister)
    (hfails : ¬ (a.Allowed mode ∧ copies t = 0)) :
    (a.exec (sessionOs opens copies) fd s).At (t + 1) .closed regs := by
  cases a with
  | write val off =>
      show ((regWrite (sessionOs opens copies) fd val off s).2).At _ _ _
      have hnot : ¬ (s.stack.mode = .readWrite ∧ copies t = 0) := by
        rw [h.mode]
        exact hfails
      obtain ⟨hmode, hregs⟩ := Driver.accessStep_write h.inRange val (copies t) hreg.1 hreg.2
      rw [if_neg hnot] at hmode hregs
      rw [regWrite_session, h.transfers]
      exact ⟨rfl, hmode, hregs.trans h.regs, Driver.inRange_accessStep h.inRange _⟩
  | read raw off =>
      show ((regRead (sessionOs opens copies) fd raw off s).2.2).At _ _ _
      have hnot : ¬ (s.stack.mode ≠ .closed ∧ copies t = 0) := by
        rw [h.mode]
        exact hfails
      obtain ⟨-, hmode, hregs⟩ := Driver.access_read h.inRange raw (copies t) hreg
      rw [if_neg hnot] at hmode
      rw [regRead_session, h.transfers]
      exact ⟨rfl, hmode, hregs.trans h.regs, Driver.inRange_accessStep h.inRange _⟩
  | close => exact hreg.elim

/-! ## Runs -/

/-- On a closed descriptor nothing is served. -/
theorem served_closed (copies : Nat → Nat) (t : Nat) (accesses : List DspAccess) :
    served copies .closed t accesses = 0 := by
  cases accesses with
  | nil => rfl
  | cons a rest =>
      unfold served
      refine if_neg fun hok => ?_
      cases a with
      | write val off => exact Mode.noConfusion hok.1
      | read raw off => exact hok.1 rfl
      | close => exact hok.1

/-- The accesses before the first failure are carried out, the others are
not. -/
theorem Session.At.run (h : s.At t mode regs) {accesses : List DspAccess}
    (hregs : ∀ a ∈ accesses, a.OnRegister) :
    (Machine.run (DspAccess.exec (sessionOs opens copies) fd) s accesses).At
      (t + accesses.length)
      (if served copies mode t accesses = accesses.length then mode else .closed)
      (Machine.run DspAccess.store regs (accesses.take (served copies mode t accesses))) := by
  induction accesses generalizing s t mode regs with
  | nil =>
      simp only [served, List.length_nil, if_true, Nat.add_zero]
      exact h
  | cons a rest ih =>
      obtain ⟨ha, hrest⟩ := List.forall_mem_cons.mp hregs
      have hcount : t + (a :: rest).length = t + 1 + rest.length := by
        rw [List.length_cons]
        omega
      rw [Machine.run_cons, hcount]
      unfold served
      split
      · rename_i hok
        have hnext := ih (h.exec_ok opens copies fd ha hok.1 hok.2) hrest
        simp only [List.length_cons, Nat.add_right_cancel_iff]
        exact hnext
      · rename_i hfails
        have hnext := ih (h.exec_fails opens copies fd ha hfails) hrest
        rw [served_closed, ite_self] at hnext
        rw [if_neg (by rw [List.length_cons]; omega)]
        exact hnext

end Exec

/-! ## Calls of the library -/

/-- The call names registers that it may use, and does not close the
descriptor. -/
def Call.OnRegisters {F : Type} : Call F → Prop
  | .set c => rlsMiniPl.IsReg c.addr.toNat ∧ c.addr.toNat ≠ 0
  | .get _ g => rlsMiniPl.IsReg g.addr.toNat
  | .kill => True
  | .apply _ => True
  | .deinit => False

section Calls

variable {F : Type} (fl : FloatOps F)

theorem Call.OnRegisters.accesses {σ : Type} (os : Posix σ) (fd : Int32) {c : Call F}
    (h : c.OnRegisters) (s : σ) : ∀ a ∈ c.accesses fl os fd s, a.OnRegister := by
  have hkill : rlsMiniPl.IsReg CSR_KILL_ADDR.toNat ∧ CSR_KILL_ADDR.toNat ≠ 0 := by decide
  have happly : rlsMiniPl.IsReg CSR_APPLY_ADDR.toNat ∧ CSR_APPLY_ADDR.toNat ≠ 0 := by decide
  intro a ha
  cases c with
  | set c => exact List.mem_singleton.mp ha ▸ h
  | get raw g => exact List.mem_singleton.mp ha ▸ h
  | kill =>
      simp only [Call.accesses, List.mem_cons, List.not_mem_nil, or_false] at ha
      rcases ha with rfl | rfl <;> exact hkill
  | apply raw =>
      simp only [Call.accesses, List.mem_cons, List.not_mem_nil, or_false] at ha
      rcases ha with rfl | rfl
      · exact happly.1
      · exact happly
  | deinit => exact h.elim

theorem onRegister_allAccesses {σ : Type} (os : Posix σ) (fd : Int32) {calls : List (Call F)}
    (h : ∀ c ∈ calls, c.OnRegisters) (s : σ) :
    ∀ a ∈ allAccesses fl os fd s calls, a.OnRegister := by
  induction calls generalizing s with
  | nil =>
      intro a ha
      exact absurd ha List.not_mem_nil
  | cons c calls ih =>
      obtain ⟨hc, hcalls⟩ := List.forall_mem_cons.mp h
      intro a ha
      rcases List.mem_append.mp ha with hfirst | hrest
      · exact hc.accesses fl os fd s a hfirst
      · exact ih hcalls _ a hrest

/-- The calls make their accesses up to the first failure. -/
theorem Session.At.run_calls {opens : Bool → Bool} {copies : Nat → Nat} {fd : Int32}
    {s : Session} {t : Nat} {mode : Mode} {regs : Registers} (h : s.At t mode regs)
    {calls : List (Call F)} (hcalls : ∀ c ∈ calls, c.OnRegisters) {accesses : List DspAccess}
    (haccesses : allAccesses fl (sessionOs opens copies) fd s calls = accesses) :
    (Machine.run (Call.exec fl (sessionOs opens copies) fd) s calls).At (t + accesses.length)
      (if served copies mode t accesses = accesses.length then mode else .closed)
      (Machine.run DspAccess.store regs (accesses.take (served copies mode t accesses))) := by
  rw [run_calls_eq, haccesses]
  exact h.run opens copies fd (haccesses ▸ onRegister_allAccesses fl _ fd hcalls s)

theorem DspAccess.OnRegister.allowed {a : DspAccess} (h : a.OnRegister) :
    a.Allowed .readWrite := by
  cases a with
  | write val off => rfl
  | read raw off => exact Mode.noConfusion
  | close => exact h.elim

/-- On a read-write descriptor, with every copy whole, all accesses are
made. -/
theorem Session.At.run_calls_ok {opens : Bool → Bool} {copies : Nat → Nat} {fd : Int32}
    {s : Session} {t : Nat} {regs : Registers} (h : s.At t .readWrite regs)
    {calls : List (Call F)} (hcalls : ∀ c ∈ calls, c.OnRegisters) {accesses : List DspAccess}
    (haccesses : allAccesses fl (sessionOs opens copies) fd s calls = accesses)
    (hcopies : ∀ n, n < accesses.length → copies (t + n) = 0) :
    (Machine.run (Call.exec fl (sessionOs opens copies) fd) s calls).At (t + accesses.length)
      .readWrite (Machine.run DspAccess.store regs accesses) := by
  have hon : ∀ a ∈ accesses, a.OnRegister :=
    haccesses ▸ onRegister_allAccesses fl _ fd hcalls s
  have hserved := (served_eq_length_iff copies .readWrite t accesses).mpr
    ⟨fun a ha => (hon a ha).allowed, hcopies⟩
  have hrun := h.run_calls fl hcalls haccesses
  rwa [hserved, if_pos rfl, List.take_length] at hrun

/-- The descriptor and the session behind `axi_dsp_init`. -/
def initialised (opens : Bool → Bool) (copies : Nat → Nat) (regs : Registers) : Int32 × Session :=
  (axiDspInit (sessionOs opens copies) (Session.unopened regs)).2

theorem initialised_at (opens : Bool → Bool) (copies : Nat → Nat) (regs : Registers) :
    (initialised opens copies regs).2.At 0 (Session.initMode opens) regs := by
  have hrange : ∀ h : Unit, rlsMiniPl.InRange ((Driver.opened regs).position h) :=
    fun _ => Driver.inRange_zero
  rw [initialised, axiDspInit_snd]
  simp only [sessionOs, Session.initMode]
  cases hwrite : opens false with
  | true => exact ⟨rfl, rfl, rfl, hrange⟩
  | false =>
      cases hread : opens true with
      | true => exact ⟨rfl, rfl, rfl, hrange⟩
      | false => exact ⟨rfl, rfl, rfl, hrange⟩

end Calls

/-- Behind any sequence of calls, the registers are as the accesses before the
first failed transfer leave them, and the descriptor is closed if there was
one. -/
theorem calls_stop_at_failure {F : Type} (fl : FloatOps F) (opens : Bool → Bool)
    (copies : Nat → Nat) (regs : Registers) (calls : List (Call F))
    (hcalls : ∀ c ∈ calls, c.OnRegisters) :
    let os := sessionOs opens copies
    let start := initialised opens copies regs
    let final := Machine.run (Call.exec fl os start.1) start.2 calls
    let accesses := allAccesses fl os start.1 start.2 calls
    let k := served copies (Session.initMode opens) 0 accesses
    final.stack.file.regs = Machine.run DspAccess.store regs (accesses.take k) ∧
      final.stack.mode = if k = accesses.length then Session.initMode opens else .closed := by
  intro os start final accesses k
  have hstart : start.2.At 0 (Session.initMode opens) regs := initialised_at opens copies regs
  have hrun : final.At _ _ _ := hstart.run_calls fl hcalls rfl
  exact ⟨hrun.regs, hrun.mode⟩

/-- The fourth transfer fails: the last write is not made. -/
theorem calls_stop_at_failure_three :
    let os := sessionOs (fun _ => true) fun n => if n = 3 then 4 else 0
    let start := initialised (fun _ => true) (fun n => if n = 3 then 4 else 0) fun _ => 0
    let calls : List (Call Unit) := [.kill, .set (.testPoint 5), .set (.channel 2)]
    let final := Machine.run (Call.exec noFloat os start.1) start.2 calls
    let accesses := allAccesses noFloat os start.1 start.2 calls
    let k := served (fun n => if n = 3 then 4 else 0) (Session.initMode fun _ => true) 0 accesses
    final.stack.file.regs = Machine.run DspAccess.store (fun _ => 0) (accesses.take k) ∧
      final.stack.mode =
        if k = accesses.length then Session.initMode fun _ => true else .closed := by
  refine calls_stop_at_failure noFloat _ _ _ _ fun c hc => ?_
  simp only [List.mem_cons, List.not_mem_nil, or_false] at hc
  rcases hc with rfl | rfl | rfl
  · exact trivial
  · exact (by decide : rlsMiniPl.IsReg 8 ∧ 8 ≠ 0)
  · exact (by decide : rlsMiniPl.IsReg 12 ∧ 12 ≠ 0)

end RlsMini.Regs
