import RlsMini.Lib.Simulation
import RlsMini.Regs.Lifetime
import RlsMini.Regs.Stack

/-!
# Users with handles of their own

Any number of users access the registers of one device through the library,
each on a descriptor of its own.  An access is two system calls, `lseek` and
the transfer, and `close` when the transfer fails; a schedule is the order in
which the users come to their system calls.

`Users.step` makes one system call, `Users.whole` a whole access.  The position
that `lseek` sets belongs to the handle, so nobody else can move it: in every
schedule the accesses behave as if each were made at once, when it comes to its
transfer (`accesses_one_by_one`), and the registers behave as plain memory
(`registers_behave_as_memory`).
-/

namespace RlsMini.Regs

/-! ## Users -/

/-- Where a user stands in an access: before `lseek`, before the transfer, with
the position before `lseek`, or before `close`, with what the access returns. -/
inductive AccessStage where
  | seek
  | transfer (before : Int64)
  | close (err : FdErr) (val : UInt32)

/-- A user: the accesses to be made, the present one first, and what those made
so far have returned. -/
structure User where
  todo : List RegCall
  stage : AccessStage := .seek
  done : List (FdErr × UInt32) := []

/-- The device and its users, with the state of their descriptors. -/
structure Users (C : Type) where
  file : Handles C
  mode : C → Mode
  user : C → User

/-- The offset that an access seeks to. -/
def RegCall.off : RegCall → UInt32
  | .write _ off _ => off
  | .read _ off _ => off

/-- The outcome of the user copy. -/
def RegCall.uncopied : RegCall → Nat
  | .write _ _ uncopied => uncopied
  | .read _ _ uncopied => uncopied

section Step

variable {C : Type} [DecidableEq C]

namespace Driver

variable (dr : Driver)

/-- The system calls on the descriptor of a user. -/
def userOs (c : C) (uncopied : Nat) : Posix (Handles C × Mode) where
  openDevice _ s := (-1, s)
  lseek _ off whence s :=
    if s.2 = .closed then (-1, s)
    else
      let (r, file) := dr.exec s.1 (.llseek c off whence)
      (sysResult r, file, s.2)
  read _ s :=
    if s.2 = .closed then (-1, 0, s)
    else
      let (r, file) := dr.exec s.1 (.read c 4 uncopied)
      (sysResult r, r.data.getD 0, file, s.2)
  write _ val s :=
    if s.2 ≠ .readWrite then (-1, s)
    else
      let (r, file) := dr.exec s.1 (.write c 4 uncopied val)
      (sysResult r, file, s.2)
  close _ s := (s.1, .closed)

/-- The transfer of an access: the error, `*val`, and the descriptor, which is
not closed yet. -/
def transfer (c : C) (s : Handles C × Mode) : RegCall → FdErr × UInt32 × Handles C × Mode
  | .write val _ uncopied =>
      let (n, s) := (dr.userOs c uncopied).write 0 val s
      (if n ≠ 4 then .FD_ERR_WRITE else .FD_ERR_NONE, val, s)
  | .read val _ uncopied =>
      let (n, rd, s) := (dr.userOs c uncopied).read 0 s
      if n ≠ 4 then (.FD_ERR_READ, val, s) else (.FD_ERR_NONE, rd, s)

/-- An access of a user at once. -/
def userAccess (c : C) (s : Handles C × Mode) : RegCall → FdErr × UInt32 × Handles C × Mode
  | .write val off uncopied =>
      let (err, s) := regWrite (dr.userOs c uncopied) 0 val off s
      (err, val, s)
  | .read val off uncopied => regRead (dr.userOs c uncopied) 0 val off s

end Driver

namespace Users

variable (dr : Driver)

/-- The users before their first access. -/
def start (regs : Registers) (mode : C → Mode) (todo : C → List RegCall) : Users C where
  file := Driver.opened regs
  mode := mode
  user c := { todo := todo c }

/-- The state with the descriptor and the progress of one user changed. -/
def put (s : Users C) (c : C) (desc : Handles C × Mode) (user : User) : Users C where
  file := desc.1
  mode := Function.update s.mode c desc.2
  user := Function.update s.user c user

/-- A user makes its next system call. -/
def step (s : Users C) (c : C) : Users C :=
  match s.user c with
  | { todo := [], .. } => s
  | { todo := call :: rest, stage := .seek, done := done } =>
      s.put c
        ((dr.userOs c call.uncopied).lseek 0 (Int64.ofNat call.off.toNat) SEEK_SET
          (s.file, s.mode c)).2
        { todo := call :: rest, stage := .transfer (s.file.position c), done := done }
  | { todo := call :: rest, stage := .transfer _, done := done } =>
      let (err, val, desc) := dr.transfer c (s.file, s.mode c) call
      if err = .FD_ERR_NONE then s.put c desc { todo := rest, done := done ++ [(err, val)] }
      else s.put c desc { todo := call :: rest, stage := .close err val, done := done }
  | { todo := call :: rest, stage := .close err val, done := done } =>
      s.put c ((dr.userOs c call.uncopied).close 0 (s.file, s.mode c))
        { todo := rest, done := done ++ [(err, val)] }

/-- A user makes its next access at once. -/
def whole (s : Users C) (c : C) : Users C :=
  match s.user c with
  | { todo := [], .. } => s
  | { todo := call :: rest, done := done, .. } =>
      let (err, val, desc) := dr.userAccess c (s.file, s.mode c) call
      s.put c desc { todo := rest, done := done ++ [(err, val)] }

end Users

end Step

/-! ## One system call -/

section Calls

variable {C : Type} [DecidableEq C] {dr : Driver} {c : C}

namespace Driver

variable {s s' : Handles C} {op : FileOp C}

/-- An operation moves the position of its own handle only. -/
theorem exec_position_of_ne {x : C} (h : x ≠ op.handle) :
    (dr.exec s op).2.position x = s.position x := by
  cases op with
  | llseek h' off whence => exact if_neg h
  | read h' len uncopied =>
      simp only [exec]
      split
      · exact if_neg h
      · rfl
  | write h' len uncopied value =>
      simp only [exec]
      split
      · exact if_neg h
      · rfl

/-- An operation looks at the registers and at the position of its own
handle. -/
theorem exec_congr (dr : Driver) (hregs : s.regs = s'.regs)
    (hposition : s.position op.handle = s'.position op.handle) :
    (dr.exec s op).1 = (dr.exec s' op).1 ∧ (dr.exec s op).2.regs = (dr.exec s' op).2.regs ∧
      (dr.exec s op).2.position op.handle = (dr.exec s' op).2.position op.handle := by
  cases op with
  | llseek h off whence =>
      simp only [FileOp.handle] at hposition
      simp only [exec, FileOp.handle, Handles.setPosition_position, if_true, hposition]
      exact ⟨trivial, hregs, trivial⟩
  | read h len uncopied =>
      simp only [FileOp.handle] at hposition
      simp only [exec, FileOp.handle, hregs, hposition]
      split
      · exact ⟨rfl, hregs, (if_pos rfl).trans (if_pos rfl).symm⟩
      · exact ⟨rfl, hregs, hposition⟩
  | write h len uncopied value =>
      simp only [FileOp.handle] at hposition
      simp only [exec, FileOp.handle, hregs, hposition]
      split
      · exact ⟨rfl, rfl, (if_pos rfl).trans (if_pos rfl).symm⟩
      · exact ⟨rfl, rfl, hposition⟩

/-- The position behind `lseek`. -/
def sought (dr : Driver) (mode : Mode) (off : UInt32) (before : Int64) : Int64 :=
  if mode = .closed then before else (dr.llseek before (Int64.ofNat off.toNat) SEEK_SET).2

theorem userOs_lseek (uncopied : Nat) (fd : Int32) (off : UInt32) (file : Handles C)
    (mode : Mode) :
    ((dr.userOs c uncopied).lseek fd (Int64.ofNat off.toNat) SEEK_SET (file, mode)).2 =
      (file.setPosition c (dr.sought mode off (file.position c)), mode) := by
  unfold sought
  simp only [userOs]
  split
  · rw [Handles.setPosition_self]
  · rfl

/-- An access is `lseek` and the transfer, and `close` behind an error. -/
theorem userAccess_eq (s : Handles C × Mode) (call : RegCall) :
    dr.userAccess c s call =
      let desc := ((dr.userOs c call.uncopied).lseek 0 (Int64.ofNat call.off.toNat) SEEK_SET s).2
      let (err, val, desc) := dr.transfer c desc call
      (err, val,
        if err = .FD_ERR_NONE then desc else (dr.userOs c call.uncopied).close 0 desc) := by
  cases call with
  | write val off uncopied =>
      generalize hdesc :
        ((dr.userOs c uncopied).lseek 0 (Int64.ofNat off.toNat) SEEK_SET s).2 = desc
      have haccess : dr.userAccess c s (.write val off uncopied) =
          let t := (dr.userOs c uncopied).write 0 val desc
          let r := if t.1 ≠ 4 then (FdErr.FD_ERR_WRITE, (dr.userOs c uncopied).close 0 t.2)
            else (.FD_ERR_NONE, t.2)
          (r.1, val, r.2) := by
        rw [← hdesc]
        rfl
      simp only [RegCall.off, RegCall.uncopied, hdesc, haccess, transfer]
      split <;> rfl
  | read val off uncopied =>
      generalize hdesc :
        ((dr.userOs c uncopied).lseek 0 (Int64.ofNat off.toNat) SEEK_SET s).2 = desc
      have haccess : dr.userAccess c s (.read val off uncopied) =
          let t := (dr.userOs c uncopied).read 0 desc
          if t.1 ≠ 4 then (.FD_ERR_READ, val, (dr.userOs c uncopied).close 0 t.2.2)
          else (.FD_ERR_NONE, t.2.1, t.2.2) := by
        rw [← hdesc]
        rfl
      simp only [RegCall.off, RegCall.uncopied, hdesc, haccess, transfer]
      split <;> rfl

/-- A transfer leaves the other handles and the mode alone. -/
theorem transfer_frame (s : Handles C × Mode) (call : RegCall) :
    (∀ x, x ≠ c → (dr.transfer c s call).2.2.1.position x = s.1.position x) ∧
      (dr.transfer c s call).2.2.2 = s.2 := by
  cases call with
  | write val off uncopied =>
      simp only [transfer, userOs]
      split
      · exact ⟨fun _ _ => rfl, rfl⟩
      · exact ⟨fun x hx => exec_position_of_ne hx, rfl⟩
  | read val off uncopied =>
      simp only [transfer, userOs]
      split
      · exact ⟨fun _ _ => rfl, rfl⟩
      · split
        · exact ⟨fun x hx => exec_position_of_ne hx, rfl⟩
        · exact ⟨fun x hx => exec_position_of_ne hx, rfl⟩

/-- A transfer looks at the registers and at the position of its own handle. -/
theorem transfer_congr (dr : Driver) (mode : Mode) (hregs : s.regs = s'.regs)
    (hposition : s.position c = s'.position c) (call : RegCall) :
    (dr.transfer c (s, mode) call).1 = (dr.transfer c (s', mode) call).1 ∧
      (dr.transfer c (s, mode) call).2.1 = (dr.transfer c (s', mode) call).2.1 ∧
      (dr.transfer c (s, mode) call).2.2.1.regs = (dr.transfer c (s', mode) call).2.2.1.regs ∧
      (dr.transfer c (s, mode) call).2.2.1.position c =
        (dr.transfer c (s', mode) call).2.2.1.position c := by
  cases call with
  | write val off uncopied =>
      have hop : (FileOp.write c 4 uncopied val).handle = c := rfl
      obtain ⟨hreply, hregs', hposition'⟩ := dr.exec_congr hregs (hop ▸ hposition)
      simp only [transfer, userOs]
      split
      · exact ⟨rfl, trivial, hregs, hposition⟩
      · exact ⟨by rw [hreply], trivial, hregs', hposition'⟩
  | read val off uncopied =>
      have hop : (FileOp.read c 4 uncopied).handle = c := rfl
      obtain ⟨hreply, hregs', hposition'⟩ := dr.exec_congr hregs (hop ▸ hposition)
      simp only [transfer, userOs]
      split
      · exact ⟨rfl, rfl, hregs, hposition⟩
      · rw [hreply]
        split
        · exact ⟨rfl, rfl, hregs', hposition'⟩
        · exact ⟨rfl, rfl, hregs', hposition'⟩

end Driver

/-! ## Whole accesses -/

/-- The position that a user's handle has as far as whole accesses go. -/
def User.position (u : User) (position : Int64) : Int64 :=
  match u.stage with
  | .transfer before => before
  | .seek | .close _ _ => position

/-- The mode likewise: a transfer that has failed has closed the
descriptor. -/
def User.mode (u : User) (mode : Mode) : Mode :=
  match u.stage with
  | .close _ _ => .closed
  | .seek | .transfer _ => mode

/-- The user with the accesses that have come to their transfers. -/
def User.settled (u : User) : User :=
  match u.stage with
  | .close err val => { todo := u.todo.tail, done := u.done ++ [(err, val)] }
  | .seek | .transfer _ => { todo := u.todo, done := u.done }

/-- The state as far as whole accesses go. -/
def Users.settled (s : Users C) : Users C where
  file :=
    { regs := s.file.regs
      position := fun x => (s.user x).position (s.file.position x) }
  mode x := (s.user x).mode (s.mode x)
  user x := (s.user x).settled

/-- A user whose next system call is a transfer makes an access. -/
def Users.transfers (s : Users C) (c : C) : List C :=
  match s.user c with
  | { todo := _ :: _, stage := .transfer _, .. } => [c]
  | _ => []

/-- Before its transfer the handle of a user is where the `lseek` of the access
has put it. -/
def User.Sought (dr : Driver) (u : User) (position : Int64) (mode : Mode) : Prop :=
  ∀ call rest before, u.todo = call :: rest → u.stage = .transfer before →
    position = dr.sought mode call.off before

/-- All handles are where they have been put. -/
def Users.Sought (dr : Driver) (s : Users C) : Prop :=
  ∀ x, (s.user x).Sought dr (s.file.position x) (s.mode x)

variable {s : Users C}

namespace Users

theorem put_user_self (desc : Handles C × Mode) (u : User) : (s.put c desc u).user c = u :=
  Function.update_self _ _ _

theorem put_user_of_ne {x : C} (h : x ≠ c) (desc : Handles C × Mode) (u : User) :
    (s.put c desc u).user x = s.user x :=
  Function.update_of_ne h _ _

theorem put_mode_self (desc : Handles C × Mode) (u : User) : (s.put c desc u).mode c = desc.2 :=
  Function.update_self _ _ _

theorem put_mode_of_ne {x : C} (h : x ≠ c) (desc : Handles C × Mode) (u : User) :
    (s.put c desc u).mode x = s.mode x :=
  Function.update_of_ne h _ _

/-- A system call of one user leaves the others where they are. -/
theorem settled_put {desc : Handles C × Mode} {u : User}
    (hother : ∀ x, x ≠ c → desc.1.position x = s.file.position x) :
    (s.put c desc u).settled = s.settled.put c
      ({ regs := desc.1.regs
         position := Function.update s.settled.file.position c (u.position (desc.1.position c)) },
        u.mode desc.2) u.settled := by
  have hposition : (fun x => ((s.put c desc u).user x).position (desc.1.position x)) =
      Function.update s.settled.file.position c (u.position (desc.1.position c)) := by
    funext x
    by_cases hx : x = c
    · rw [hx, put_user_self, Function.update_self]
    · rw [put_user_of_ne hx, hother x hx, Function.update_of_ne hx]
      rfl
  have hmode : (fun x => ((s.put c desc u).user x).mode ((s.put c desc u).mode x)) =
      Function.update s.settled.mode c (u.mode desc.2) := by
    funext x
    by_cases hx : x = c
    · rw [hx, put_user_self, put_mode_self, Function.update_self]
    · rw [put_user_of_ne hx, put_mode_of_ne hx, Function.update_of_ne hx]
      rfl
  have huser : (fun x => ((s.put c desc u).user x).settled) =
      Function.update s.settled.user c u.settled := by
    funext x
    by_cases hx : x = c
    · rw [hx, put_user_self, Function.update_self]
    · rw [put_user_of_ne hx, Function.update_of_ne hx]
      rfl
  unfold settled put at *
  simp only at hposition hmode huser ⊢
  rw [hposition, hmode, huser]

/-- A system call that is no transfer. -/
theorem settled_put_of_eq {desc : Handles C × Mode} {u : User}
    (hother : ∀ x, x ≠ c → desc.1.position x = s.file.position x)
    (hregs : desc.1.regs = s.file.regs)
    (hposition : u.position (desc.1.position c) = (s.user c).position (s.file.position c))
    (hmode : u.mode desc.2 = (s.user c).mode (s.mode c))
    (huser : u.settled = (s.user c).settled) : (s.put c desc u).settled = s.settled := by
  rw [settled_put hother, hregs, hposition, hmode, huser]
  have hput : ∀ t : Users C, t.put c
      ({ regs := t.file.regs
         position := Function.update t.file.position c (t.file.position c) }, t.mode c)
      (t.user c) = t := by
    intro t
    unfold put
    simp only [Function.update_eq_self]
  exact hput s.settled

/-- A state of the descriptor that differs from `file` in one handle at
most. -/
theorem handles_eq_update {file file' : Handles C}
    (hother : ∀ x, x ≠ c → file'.position x = file.position x) :
    file' = { regs := file'.regs
              position := Function.update file.position c (file'.position c) } := by
  have hposition : file'.position = Function.update file.position c (file'.position c) := by
    funext x
    by_cases hx : x = c
    · rw [hx, Function.update_self]
    · rw [hother x hx, Function.update_of_ne hx]
  rw [← hposition]

/-- A system call of one user leaves the handles of the others where they have
been put. -/
theorem Sought.put (h : s.Sought dr) {desc : Handles C × Mode} {u : User}
    (hother : ∀ x, x ≠ c → desc.1.position x = s.file.position x)
    (hself : u.Sought dr (desc.1.position c) desc.2) : (s.put c desc u).Sought dr := by
  intro x
  by_cases hx : x = c
  · rw [hx, put_user_self, put_mode_self]
    exact hself
  · rw [put_user_of_ne hx, put_mode_of_ne hx]
    show (s.user x).Sought dr (desc.1.position x) (s.mode x)
    rw [hother x hx]
    exact h x

/-- `lseek` of one user. -/
theorem lseek_frame (dr : Driver) (c : C) (uncopied : Nat) (off : UInt32) (file : Handles C)
    (mode : Mode) :
    let desc := ((dr.userOs c uncopied).lseek 0 (Int64.ofNat off.toNat) SEEK_SET (file, mode)).2
    (∀ x, x ≠ c → desc.1.position x = file.position x) ∧ desc.1.regs = file.regs ∧
      desc.1.position c = dr.sought mode off (file.position c) ∧ desc.2 = mode := by
  intro desc
  have hdesc : desc = _ := Driver.userOs_lseek uncopied 0 off file mode
  rw [hdesc]
  exact ⟨fun x hx => if_neg hx, rfl, if_pos rfl, rfl⟩

/-! ### What a user does next -/

section Next

variable {call : RegCall} {rest : List RegCall} {before : Int64} {err : FdErr} {val : UInt32}
  {done : List (FdErr × UInt32)} {stage : AccessStage}

theorem step_idle (huser : s.user c = { todo := [], stage := stage, done := done }) :
    step dr s c = s := by
  simp only [step, huser]

theorem step_seek (huser : s.user c = { todo := call :: rest, stage := .seek, done := done }) :
    step dr s c = s.put c
      ((dr.userOs c call.uncopied).lseek 0 (Int64.ofNat call.off.toNat) SEEK_SET
        (s.file, s.mode c)).2
      { todo := call :: rest, stage := .transfer (s.file.position c), done := done } := by
  simp only [step, huser]

theorem step_transfer
    (huser : s.user c = { todo := call :: rest, stage := .transfer before, done := done }) :
    step dr s c =
      let t := dr.transfer c (s.file, s.mode c) call
      s.put c t.2.2
        (if t.1 = .FD_ERR_NONE then { todo := rest, done := done ++ [(t.1, t.2.1)] }
          else { todo := call :: rest, stage := .close t.1 t.2.1, done := done }) := by
  simp only [step, huser]
  split <;> rfl

theorem step_close
    (huser : s.user c = { todo := call :: rest, stage := .close err val, done := done }) :
    step dr s c = s.put c (s.file, .closed) { todo := rest, done := done ++ [(err, val)] } := by
  simp only [step, huser]
  rfl

theorem whole_access (huser : s.user c = { todo := call :: rest, stage := stage, done := done }) :
    whole dr s c =
      let r := dr.userAccess c (s.file, s.mode c) call
      s.put c r.2.2 { todo := rest, done := done ++ [(r.1, r.2.1)] } := by
  simp only [whole, huser]

/-- The transfer of a user, seen as a whole access. -/
theorem settled_step_transfer (h : s.Sought dr)
    (huser : s.user c = { todo := call :: rest, stage := .transfer before, done := done }) :
    (step dr s c).settled = whole dr s.settled c := by
  -- Both make the same transfer, from the position that `lseek` has set.
  have hbefore : s.settled.file.position c = before := by
    show (s.user c).position _ = _
    rw [huser]
    rfl
  have hmode : s.settled.mode c = s.mode c := by
    show (s.user c).mode _ = _
    rw [huser]
    rfl
  have hsettled : s.settled.user c = { todo := call :: rest, done := done } := by
    show (s.user c).settled = _
    rw [huser]
    rfl
  obtain ⟨hothers, hregs, hposition, hmodes⟩ :=
    lseek_frame dr c call.uncopied call.off s.settled.file (s.mode c)
  rw [step_transfer huser, whole_access hsettled, hmode, Driver.userAccess_eq]
  generalize ((dr.userOs c call.uncopied).lseek 0 (Int64.ofNat call.off.toNat) SEEK_SET
    (s.settled.file, s.mode c)).2 = desc at hothers hregs hposition hmodes ⊢
  obtain ⟨file, mode⟩ := desc
  simp only at hothers hregs hposition hmodes
  rw [hmodes]
  have hsame : s.file.regs = file.regs := hregs.symm
  have hsought : s.file.position c = file.position c := by
    rw [hposition, hbefore]
    exact h c call rest before (by rw [huser]) (by rw [huser])
  obtain ⟨herr, hval, hregs', hposition'⟩ :=
    dr.transfer_congr (s.mode c) hsame hsought call
  obtain ⟨hframe, hkept⟩ := dr.transfer_frame (c := c) (s.file, s.mode c) call
  obtain ⟨hframe', hkept'⟩ := dr.transfer_frame (c := c) (file, s.mode c) call
  have hothers' : ∀ x, x ≠ c →
      (dr.transfer c (file, s.mode c) call).2.2.1.position x = s.settled.file.position x :=
    fun x hx => (hframe' x hx).trans (hothers x hx)
  have hfile := handles_eq_update hothers'
  rw [← hregs', ← hposition'] at hfile
  dsimp only
  rw [settled_put hframe, hkept, ← herr, ← hval]
  by_cases hok : (dr.transfer c (s.file, s.mode c) call).1 = .FD_ERR_NONE
  · rw [if_pos hok, if_pos hok]
    have hdesc : (dr.transfer c (file, s.mode c) call).2.2 = (_, s.mode c) := Prod.ext hfile hkept'
    rw [hdesc]
    rfl
  · rw [if_neg hok, if_neg hok]
    have hdesc : (dr.userOs c call.uncopied).close 0 (dr.transfer c (file, s.mode c) call).2.2 =
        (_, .closed) := Prod.ext hfile rfl
    rw [hdesc]
    rfl

end Next

/-- Every system call is a whole access, or nothing. -/
theorem step_refines (dr : Driver) :
    Machine.Refines (step dr) (whole dr) (Sought dr) settled (transfers (C := C)) where
  keep s c h := by
    cases hu : s.user c with
    | mk todo stage done =>
        cases todo with
        | nil =>
            rw [step_idle hu]
            exact h
        | cons call rest =>
            cases stage with
            | seek =>
                obtain ⟨hother, -, hposition, hmode⟩ :=
                  lseek_frame dr c call.uncopied call.off s.file (s.mode c)
                rw [step_seek hu]
                refine h.put hother fun call' rest' before htodo hstage => ?_
                obtain ⟨rfl, -⟩ := List.cons.inj htodo
                rw [hposition, hmode, AccessStage.transfer.inj hstage]
            | transfer before =>
                rw [step_transfer hu]
                refine h.put (dr.transfer_frame _ call).1 fun call' rest' before' _ hstage => ?_
                split at hstage <;> cases hstage
            | close err val =>
                rw [step_close hu]
                refine h.put (fun _ _ => rfl) fun call' rest' before' _ hstage => ?_
                cases hstage
  simulate s c h := by
    cases hu : s.user c with
    | mk todo stage done =>
        cases todo with
        | nil => simp only [step_idle hu, transfers, hu, Machine.run_nil]
        | cons call rest =>
            cases stage with
            | seek =>
                obtain ⟨hother, hregs, -, hmode⟩ :=
                  lseek_frame dr c call.uncopied call.off s.file (s.mode c)
                simp only [step_seek hu, transfers, hu, Machine.run_nil]
                refine settled_put_of_eq hother hregs ?_ ?_ ?_
                · rw [hu]
                  rfl
                · rw [hu]
                  exact hmode
                · rw [hu]
                  rfl
            | transfer before =>
                simp only [transfers, hu, Machine.run_cons, Machine.run_nil]
                exact settled_step_transfer h hu
            | close err val =>
                simp only [step_close hu, transfers, hu, Machine.run_nil]
                refine settled_put_of_eq (fun _ _ => rfl) rfl ?_ ?_ ?_
                · rw [hu]
                  rfl
                · rw [hu]
                  rfl
                · rw [hu]
                  rfl

omit [DecidableEq C] in
theorem start_sought (regs : Registers) (mode : C → Mode) (todo : C → List RegCall) :
    (start regs mode todo).Sought dr := by
  intro x call rest before _ hstage
  cases hstage

end Users

/-- The users that come to a transfer in a schedule, in the order in which they
do. -/
def transferOrder (dr : Driver) (s : Users C) (schedule : List C) : List C :=
  Machine.coarse (Users.step dr) Users.transfers s schedule

/-- In every schedule of system calls the accesses behave as if each were made
at once: the registers are the same, and so are the position, the mode and the
results of every user that is between two accesses. -/
theorem accesses_one_by_one (dr : Driver) (regs : Registers) (mode : C → Mode)
    (todo : C → List RegCall) (schedule : List C) :
    let start := Users.start regs mode todo
    let s := Machine.run (Users.step dr) start schedule
    let t := Machine.run (Users.whole dr) start (transferOrder dr start schedule)
    s.file.regs = t.file.regs ∧
      ∀ c, (s.user c).stage = .seek →
        s.file.position c = t.file.position c ∧ s.mode c = t.mode c ∧ s.user c = t.user c := by
  intro start s t
  have hrun : s.settled = t :=
    (Users.step_refines dr).abs_run (Users.start_sought regs mode todo) schedule
  rw [← hrun]
  refine ⟨rfl, fun c hseek => ?_⟩
  simp only [Users.settled, User.position, User.mode, User.settled, hseek, true_and]
  rw [← hseek]

/-! ## The registers as memory -/

/-- An access that a user has made, with what it has returned. -/
structure Entry (C : Type) where
  user : C
  call : RegCall
  err : FdErr
  val : UInt32

namespace Entry

omit [DecidableEq C]

/-- The access returns what it returns on plain memory, or the error of a
failed transfer. -/
def Plain (regs : Registers) (e : Entry C) : Prop :=
  match e.call with
  | .write val _ _ => e.val = val ∧ (e.err = .FD_ERR_NONE ∨ e.err = .FD_ERR_WRITE)
  | .read val off _ =>
      (e.err = .FD_ERR_NONE ∧ e.val = regs off) ∨ (e.err = .FD_ERR_READ ∧ e.val = val)

/-- The memory behind the access. -/
def store (regs : Registers) (e : Entry C) : Registers :=
  match e.call with
  | .write val off _ => if e.err = .FD_ERR_NONE then regs.set off val else regs
  | .read _ _ _ => regs

end Entry

/-- The accesses that a user has made. -/
def entriesOf (c : C) (entries : List (Entry C)) : List (Entry C) :=
  entries.filter fun e => e.user = c

/-! ### The stack of one user -/

/-- The calls of `os` are those of `os'` on the states seen through `view`. -/
structure Posix.Simulates {σ τ : Type} (os : Posix σ) (os' : Posix τ) (view : σ → τ) : Prop where
  lseek : ∀ fd off whence s, os'.lseek fd off whence (view s) =
    ((os.lseek fd off whence s).1, view (os.lseek fd off whence s).2)
  read : ∀ fd s, os'.read fd (view s) =
    ((os.read fd s).1, (os.read fd s).2.1, view (os.read fd s).2.2)
  write : ∀ fd val s, os'.write fd val (view s) =
    ((os.write fd val s).1, view (os.write fd val s).2)
  close : ∀ fd s, os'.close fd (view s) = view (os.close fd s)

theorem Posix.Simulates.regWrite {σ τ : Type} {os : Posix σ} {os' : Posix τ} {view : σ → τ}
    (h : os.Simulates os' view) (fd : Int32) (val off : UInt32) (s : σ) :
    Regs.regWrite os' fd val off (view s) =
      ((Regs.regWrite os fd val off s).1, view (Regs.regWrite os fd val off s).2) := by
  simp only [Regs.regWrite, h.lseek, h.write, h.close]
  split <;> rfl

theorem Posix.Simulates.regRead {σ τ : Type} {os : Posix σ} {os' : Posix τ} {view : σ → τ}
    (h : os.Simulates os' view) (fd : Int32) (val off : UInt32) (s : σ) :
    Regs.regRead os' fd val off (view s) =
      ((Regs.regRead os fd val off s).1, (Regs.regRead os fd val off s).2.1,
        view (Regs.regRead os fd val off s).2.2) := by
  simp only [Regs.regRead, h.lseek, h.read, h.close]
  split <;> rfl

/-- The device and one descriptor. -/
def ownStack (c : C) (s : Handles C × Mode) : Stack where
  file := { regs := s.1.regs, position := fun _ => s.1.position c }
  mode := s.2

namespace Driver

/-- The calls of a user are those on the stack of its own. -/
theorem userOs_simulates (dr : Driver) (c : C) (uncopied : Nat) :
    (dr.userOs c uncopied).Simulates (dr.stackOs uncopied) (ownStack c) where
  lseek fd off whence s := by
    simp only [stackOs, userOs, ownStack]
    split
    · rfl
    · simp only [exec, Handles.setPosition, if_true]
  read fd s := by
    simp only [stackOs, userOs, ownStack]
    split
    · rfl
    · simp only [exec]
      split <;> simp only [Handles.setPosition, if_true]
  write fd val s := by
    simp only [stackOs, userOs, ownStack]
    split
    · rfl
    · simp only [exec]
      split <;> simp only [Handles.setPosition, if_true]
  close fd s := rfl

/-- An access of a user is an access on the stack of its own. -/
theorem access_ownStack (dr : Driver) (c : C) (s : Handles C × Mode) (call : RegCall) :
    dr.access (ownStack c s) call =
      ((dr.userAccess c s call).1, (dr.userAccess c s call).2.1,
        ownStack c (dr.userAccess c s call).2.2) := by
  cases call with
  | write val off uncopied =>
      simp only [access, userAccess, (dr.userOs_simulates c uncopied).regWrite]
  | read val off uncopied => exact (dr.userOs_simulates c uncopied).regRead 0 val off s

variable {s : Stack}

omit [DecidableEq C] in
/-- An access to a register is one on plain memory, or fails. -/
theorem access_plain (hrange : ∀ h, dr.InRange (s.file.position h)) {call : RegCall}
    (hreg : dr.IsReg call.off.toNat) (c : C) :
    let e : Entry C := ⟨c, call, (dr.access s call).1, (dr.access s call).2.1⟩
    e.Plain s.file.regs ∧ (dr.access s call).2.2.file.regs = e.store s.file.regs := by
  intro e
  cases call with
  | write val off uncopied =>
      obtain ⟨hdone, hfailed⟩ : dr.Exact s (.write val off uncopied) :=
        exact_write_of_isReg hrange val hreg
      have herr : e.err = .FD_ERR_NONE ∨ e.err = .FD_ERR_WRITE := by
        simp only [e, access, regWrite]
        split
        · exact Or.inr rfl
        · exact Or.inl rfl
      refine ⟨⟨rfl, herr⟩, ?_⟩
      simp only [Entry.store, e]
      split
      · rename_i hok
        obtain ⟨-, hset, hothers⟩ := hdone hok
        funext o
        by_cases ho : o = off
        · rw [ho, Registers.set_self]
          exact hset
        · rw [Registers.set_of_ne ho]
          exact hothers o ho
      · rename_i hfail
        exact hfailed hfail
  | read val off uncopied =>
      have hexact : dr.Exact s (.read val off uncopied) := exact_read_of_isReg hrange val hreg
      by_cases hreadable : dr.Readable uncopied (dr.seek s off)
      · have hread : dr.access s (.read val off uncopied) = _ := regRead_ok hreadable
        have hok : (dr.access s (.read val off uncopied)).1 = .FD_ERR_NONE := by rw [hread]
        refine ⟨Or.inl ⟨hok, (hexact hok).2⟩, ?_⟩
        rw [hread]
        exact seek_regs s off
      · have hread : dr.access s (.read val off uncopied) = _ := regRead_error hrange hreadable
        refine ⟨Or.inr ⟨?_, ?_⟩, ?_⟩
        · show (dr.access s (.read val off uncopied)).1 = _
          rw [hread]
        · show (dr.access s (.read val off uncopied)).2.1 = _
          rw [hread]
        · rw [hread]
          exact seek_regs s off

/-- An access of a user to a register likewise; it leaves the handles of all
users in range. -/
theorem userAccess_plain {file : Handles C} (mode : Mode) (c : C)
    (hrange : ∀ x, dr.InRange (file.position x)) {call : RegCall}
    (hreg : dr.IsReg call.off.toNat) :
    let r := dr.userAccess c (file, mode) call
    let e : Entry C := ⟨c, call, r.1, r.2.1⟩
    e.Plain file.regs ∧ r.2.2.1.regs = e.store file.regs ∧
      ∀ x, dr.InRange (r.2.2.1.position x) := by
  intro r e
  have hown := dr.access_ownStack c (file, mode) call
  have hplain := access_plain (s := ownStack c (file, mode)) (fun _ => hrange c) hreg c
  have hstep := inRange_accessStep (s := ownStack c (file, mode)) (fun _ => hrange c) call ()
  rw [accessStep] at hstep
  rw [hown] at hplain hstep
  refine ⟨hplain.1, hplain.2, fun x => ?_⟩
  by_cases hx : x = c
  · rw [hx]
    exact hstep
  · have hother : r.2.2.1.position x = file.position x := by
      obtain ⟨hseek, -⟩ := Users.lseek_frame dr c call.uncopied call.off file mode
      have hframe := (dr.transfer_frame (c := c) ((dr.userOs c call.uncopied).lseek 0
        (Int64.ofNat call.off.toNat) SEEK_SET (file, mode)).2 call).1 x hx
      have hr : r = _ := userAccess_eq (file, mode) call
      rw [hr]
      dsimp only
      split
      · exact hframe.trans (hseek x hx)
      · exact hframe.trans (hseek x hx)
    rw [hother]
    exact hrange x

end Driver

/-! ### All users -/

theorem entriesOf_concat (c : C) (entries : List (Entry C)) (e : Entry C) :
    entriesOf c (entries ++ [e]) =
      if e.user = c then entriesOf c entries ++ [e] else entriesOf c entries := by
  unfold entriesOf
  rw [List.filter_append, List.filter_singleton]
  by_cases h : e.user = c
  · simp only [h, decide_true, if_true, cond_true]
  · simp only [h, decide_false, if_false, cond_false, List.append_nil]

/-- The accesses made so far, as entries on a memory that began as `regs`. -/
structure Recorded (dr : Driver) (regs : Registers) (todo : C → List RegCall) (t : Users C)
    (entries : List (Entry C)) : Prop where
  plain : Machine.Along Entry.store Entry.Plain regs entries
  regs : Machine.run Entry.store regs entries = t.file.regs
  range : ∀ x, dr.InRange (t.file.position x)
  calls : ∀ c, (entriesOf c entries).map Entry.call ++ (t.user c).todo = todo c
  results : ∀ c, (entriesOf c entries).map (fun e => (e.err, e.val)) = (t.user c).done

theorem recorded_start (regs : Registers) (mode : C → Mode) (todo : C → List RegCall) :
    Recorded dr regs todo (Users.start regs mode todo) [] where
  plain := trivial
  regs := rfl
  range _ := Driver.inRange_zero
  calls _ := rfl
  results _ := rfl

/-- A whole access is the next entry. -/
theorem Recorded.whole {regs : Registers} {todo : C → List RegCall} {t : Users C}
    {entries : List (Entry C)} (h : Recorded dr regs todo t entries)
    (hreg : ∀ c, ∀ call ∈ todo c, dr.IsReg call.off.toNat) (c : C) :
    ∃ entries', Recorded dr regs todo (t.whole dr c) entries' := by
  cases hu : t.user c with
  | mk calls stage done =>
      cases calls with
      | nil =>
          have hidle : t.whole dr c = t := by simp only [Users.whole, hu]
          rw [hidle]
          exact ⟨entries, h⟩
      | cons call rest =>
          have hcalls := h.calls c
          have hresults := h.results c
          rw [hu] at hcalls hresults
          have hmem : call ∈ todo c := by
            rw [← hcalls]
            exact List.mem_append_right _ List.mem_cons_self
          obtain ⟨hplain, hstore, hrange⟩ :=
            Driver.userAccess_plain (t.mode c) c h.range (hreg c call hmem)
          rw [Users.whole_access hu]
          generalize dr.userAccess c (t.file, t.mode c) call = r at hplain hstore hrange
          refine ⟨entries ++ [⟨c, call, r.1, r.2.1⟩], ?_, ?_, hrange, fun x => ?_, fun x => ?_⟩
          · rw [Machine.along_concat, h.regs]
            exact ⟨h.plain, hplain⟩
          · rw [Machine.run_concat, h.regs]
            exact hstore.symm
          · dsimp only
            rw [entriesOf_concat]
            by_cases hx : x = c
            · rw [hx, if_pos rfl, Users.put_user_self, List.map_append, List.append_assoc]
              exact hcalls
            · rw [if_neg (Ne.symm hx), Users.put_user_of_ne hx]
              exact h.calls x
          · dsimp only
            rw [entriesOf_concat]
            by_cases hx : x = c
            · rw [hx, if_pos rfl, Users.put_user_self, List.map_append, hresults]
              rfl
            · rw [if_neg (Ne.symm hx), Users.put_user_of_ne hx]
              exact h.results x

/-- When all accesses are to registers, any schedule of system calls is one of
accesses on plain memory: there is an order of the accesses made, which keeps
that of every user, in which every read that succeeds returns the word stored
last, and accesses that fail store nothing. -/
theorem registers_behave_as_memory (dr : Driver) (regs : Registers) (mode : C → Mode)
    (todo : C → List RegCall) (hreg : ∀ c, ∀ call ∈ todo c, dr.IsReg call.off.toNat)
    (schedule : List C) :
    let s := Machine.run (Users.step dr) (Users.start regs mode todo) schedule
    ∃ entries : List (Entry C), Machine.Along Entry.store Entry.Plain regs entries ∧
      Machine.run Entry.store regs entries = s.file.regs ∧
      ∀ c, (entriesOf c entries).map Entry.call ++ (s.user c).settled.todo = todo c ∧
        (entriesOf c entries).map (fun e => (e.err, e.val)) = (s.user c).settled.done := by
  intro s
  have hrun : s.settled = Machine.run (Users.whole dr) (Users.start regs mode todo)
      (transferOrder dr (Users.start regs mode todo) schedule) :=
    (Users.step_refines dr).abs_run (Users.start_sought regs mode todo) schedule
  obtain ⟨entries, hentries⟩ : ∃ entries, Recorded dr regs todo s.settled entries := by
    rw [hrun]
    refine Machine.invariant_run (I := fun t => ∃ entries, Recorded dr regs todo t entries)
      (fun t c h => ?_) ⟨[], recorded_start regs mode todo⟩ _
    obtain ⟨entries, hentries⟩ := h
    exact hentries.whole hreg c
  exact ⟨entries, hentries.plain, hentries.regs, fun c => ⟨hentries.calls c, hentries.results c⟩⟩

/-- Two users of one register: one writes it, the other reads it in between. -/
theorem registers_behave_as_memory_two :
    let todo : Bool → List RegCall := fun c =>
      if c then [.write 7 0x4 0, .write 9 0x4 0] else [.read 0 0x4 0]
    let s := Machine.run (Users.step rlsMiniPl)
      (Users.start (fun _ => 0) (fun _ => .readWrite) todo) [true, false, true, true, false, true]
    ∃ entries : List (Entry Bool), Machine.Along Entry.store Entry.Plain (fun _ => 0) entries ∧
      Machine.run Entry.store (fun _ => 0) entries = s.file.regs ∧
      ∀ c, (entriesOf c entries).map Entry.call ++ (s.user c).settled.todo = todo c ∧
        (entriesOf c entries).map (fun e => (e.err, e.val)) = (s.user c).settled.done :=
  registers_behave_as_memory rlsMiniPl (fun _ => 0) (fun _ => .readWrite) _ (by decide) _

end Calls

end RlsMini.Regs
