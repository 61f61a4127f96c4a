import RlsMini.Regs.Calls

/-!
# The descriptor of the library among those of the process

The library keeps its descriptor in a static variable that it never resets.
Here its system calls meet a table of descriptors, shared with the rest of the
process, in which the kernel hands out numbers that have become free again.

`Process.inSession` says how far the library can go on: the device has been
opened, no transfer has failed and nothing has been closed since.  Calls in
the session are on the own descriptor, and all others are not
(`DspAccess.exec_tied`, `run_owned_iff`).
-/

namespace RlsMini.Regs

/-! ## The table of descriptors -/

/-- Who has opened a descriptor. -/
inductive Owner where
  | library
  | other
  deriving DecidableEq, Repr

/-- What the rest of the process does, with descriptors of its own. -/
inductive OtherOp where
  | openFile (fd : Int32)
  | closeFile (fd : Int32)
  deriving DecidableEq, Repr

/-- The open descriptors. -/
abbrev FdTable := Int32 → Option Owner

/-- A descriptor that is handed out is free, and one that the rest of the
process closes is not the library's. -/
def OtherOp.exec (table : FdTable) : OtherOp → FdTable
  | .openFile fd =>
      if 0 ≤ fd ∧ table fd = none then Function.update table fd (some .other) else table
  | .closeFile fd =>
      if table fd = some .other then Function.update table fd none else table

/-- What the kernel and the rest of the process do at one system call. -/
structure Outcome where
  /-- Operations between the system call before and this one. -/
  others : List OtherOp := []
  /-- The descriptor that an `open` hands out, if it is free. -/
  fd : Int32 := -1
  ret : Int64 := -1
  /-- The word that is read. -/
  word : UInt32 := 0

/-- The system calls on a descriptor. -/
inductive SysCall where
  | lseek
  | read
  | write
  | close
  deriving DecidableEq, Repr

/-- A system call of the library, with the owner that its descriptor has at
this time. -/
structure Issue where
  call : SysCall
  owner : Option Owner
  deriving DecidableEq, Repr

/-- The process. -/
structure Process where
  table : FdTable
  /-- The outcomes of the system calls to come. -/
  kernel : Nat → Outcome
  /-- The device has been opened for reading only. -/
  readOnly : Bool := false
  /-- The library has opened the device, and since then no transfer of it has
  failed and it has closed nothing. -/
  inSession : Bool := false
  issued : List Issue := []

namespace Process

/-- A process that has files open. -/
def start (files : Int32 → Bool) (kernel : Nat → Outcome) : Process where
  table fd := if 0 ≤ fd ∧ files fd = true then some .other else none
  kernel := kernel

/-- The outcome of the next system call, and the process at its time. -/
def enter (s : Process) : Outcome × Process :=
  (s.kernel 0,
    { s with
      table := Machine.run OtherOp.exec s.table (s.kernel 0).others
      kernel := fun n => s.kernel (n + 1) })

/-- A system call on a descriptor goes on record. -/
def issue (call : SysCall) (fd : Int32) (s : Process) : Process :=
  { s with issued := s.issued ++ [⟨call, s.table fd⟩] }

/-- A transfer of `n` bytes. -/
def transfer (n : Int64) (s : Process) : Process :=
  { s with inSession := s.inSession && n == 4 }

/-- What `read` returns: it fails on a descriptor that is not open. -/
def readRet (fd : Int32) (o : Outcome) (s : Process) : Int64 :=
  if s.table fd = none then -1 else o.ret

/-- What `write` returns: it fails on a descriptor that is not open and on one
that is open for reading only. -/
def writeRet (fd : Int32) (o : Outcome) (s : Process) : Int64 :=
  if s.table fd = none ∨ s.table fd = some .library ∧ s.readOnly = true then -1 else o.ret

end Process

/-- The system calls of the process. -/
def processOs : Posix Process where
  openDevice readOnly s :=
    let (o, s) := s.enter
    if 0 ≤ o.fd ∧ s.table o.fd = none then
      (o.fd, { s with
        table := Function.update s.table o.fd (some .library)
        readOnly := readOnly
        inSession := true })
    else (-1, s)
  lseek fd _ _ s :=
    let (o, s) := s.enter
    (o.ret, s.issue .lseek fd)
  read fd s :=
    let (o, s) := s.enter
    let n := s.readRet fd o
    (n, o.word, (s.issue .read fd).transfer n)
  write fd _ s :=
    let (o, s) := s.enter
    let n := s.writeRet fd o
    (n, (s.issue .write fd).transfer n)
  close fd s :=
    let (_, s) := s.enter
    { s.issue .close fd with
      table := Function.update s.table fd none
      inSession := false }

/-! ## System calls -/

section SysCalls

variable {fd : Int32} {s s' s'' : Process}

/-- The library has its descriptor open. -/
def Process.Owns (s : Process) (fd : Int32) : Prop := s.table fd = some .library

/-- An entry that is not the library's, before and after, is replaced. -/
theorem owns_update {table : FdTable} {fd' : Int32} {o : Option Owner}
    (hold : table fd' ≠ some .library) (hnew : o ≠ some .library) :
    Function.update table fd' o fd = some .library ↔ table fd = some .library := by
  by_cases heq : fd = fd'
  · rw [heq, Function.update_self]
    exact iff_of_false hnew hold
  · rw [Function.update_of_ne heq]

theorem owns_otherOp (table : FdTable) (op : OtherOp) :
    OtherOp.exec table op fd = some .library ↔ table fd = some .library := by
  cases op with
  | openFile fd' =>
      simp only [OtherOp.exec]
      split
      · rename_i hfree
        apply owns_update
        · rw [hfree.2]
          decide
        · decide
      · exact Iff.rfl
  | closeFile fd' =>
      simp only [OtherOp.exec]
      split
      · rename_i hother
        apply owns_update
        · rw [hother]
          decide
        · decide
      · exact Iff.rfl

/-- The rest of the process leaves the descriptor of the library alone. -/
theorem owns_run (table : FdTable) (ops : List OtherOp) :
    Machine.run OtherOp.exec table ops fd = some .library ↔ table fd = some .library := by
  induction ops generalizing table with
  | nil => exact Iff.rfl
  | cons op ops ih => rw [Machine.run_cons, ih, owns_otherOp]

@[simp] theorem owns_enter : s.enter.2.Owns fd ↔ s.Owns fd := owns_run s.table _

@[simp] theorem owns_issue (call : SysCall) (fd' : Int32) :
    (s.issue call fd').Owns fd ↔ s.Owns fd := Iff.rfl

@[simp] theorem owns_transfer (n : Int64) : (s.transfer n).Owns fd ↔ s.Owns fd := Iff.rfl

/-- From `s` to `s'` the library makes the calls `calls`, all on its own
descriptor or, if it has none in `s`, all on another one. -/
def Issues (fd : Int32) (s s' : Process) (calls : List SysCall) : Prop :=
  ∃ new : List Issue, s'.issued = s.issued ++ new ∧ new.map Issue.call = calls ∧
    ∀ i ∈ new, (i.owner = some .library ↔ s.Owns fd)

theorem Issues.trans {calls calls' : List SysCall} (h : Issues fd s s' calls)
    (howns : s'.Owns fd ↔ s.Owns fd) (h' : Issues fd s' s'' calls') :
    Issues fd s s'' (calls ++ calls') := by
  obtain ⟨new, hissued, hcalls, howner⟩ := h
  obtain ⟨new', hissued', hcalls', howner'⟩ := h'
  refine ⟨new ++ new', ?_, ?_, ?_⟩
  · rw [hissued', hissued, List.append_assoc]
  · rw [List.map_append, hcalls, hcalls']
  · intro i hi
    rcases List.mem_append.mp hi with hnew | hnew'
    · exact howner i hnew
    · exact (howner' i hnew').trans howns

theorem issues_enter (call : SysCall) : Issues fd s (s.enter.2.issue call fd) [call] := by
  refine ⟨[⟨call, s.enter.2.table fd⟩], rfl, rfl, ?_⟩
  intro i hi
  rw [List.mem_singleton] at hi
  rw [hi]
  exact owns_enter

/-- A register access whose transfer `call` gives `n`. -/
def Process.accessed (fd : Int32) (call : SysCall) (n : Int64) (s : Process) : Process :=
  let s := s.enter.2.issue .lseek fd
  let s := (s.enter.2.issue call fd).transfer n
  if n = 4 then s else processOs.close fd s

theorem axiWrite_eq (val off : UInt32) :
    ∃ n, (axiWrite processOs fd val off s).2 = s.accessed fd .write n := by
  let t := (s.enter.2.issue .lseek fd).enter
  exact ⟨t.2.writeRet fd t.1, regWrite_snd val off s⟩

theorem axiRead_eq (raw off : UInt32) :
    ∃ n, (axiRead processOs fd raw off s).2.2 = s.accessed fd .read n := by
  let t := (s.enter.2.issue .lseek fd).enter
  exact ⟨t.2.readRet fd t.1, regRead_snd raw off s⟩

/-- Closing the descriptor is the end of the session. -/
theorem issues_close : Issues fd s (processOs.close fd s) [.close] := issues_enter .close

theorem not_owns_close : ¬ (processOs.close fd s).Owns fd := by
  have htable : (processOs.close fd s).table fd = none := Function.update_self _ _ _
  intro howns
  exact absurd (htable.symm.trans howns) (by decide)

end SysCalls

/-! ## Accesses -/

section Accesses

variable {fd : Int32} {s : Process}

/-- The library is in the session as long as it owns its descriptor. -/
def Process.Tied (fd : Int32) (s : Process) : Prop := s.inSession = true ↔ s.Owns fd

/-- From `s` to `s'` the library makes some calls, and if it is in the session
in `s` it closes the descriptor exactly when it leaves the session. -/
structure Accesses (fd : Int32) (s s' : Process) : Prop where
  issues : ∃ calls, calls ≠ [] ∧ Issues fd s s' calls ∧
    (s.inSession = true → calls.count .close + s'.inSession.toNat = 1)
  tied : s'.Tied fd

theorem accesses_accessed (htied : s.Tied fd) {call : SysCall} (hcall : call ≠ .close) (n : Int64) :
    Accesses fd s (s.accessed fd call n) := by
  have hseek : Issues fd s (s.enter.2.issue .lseek fd) [.lseek] := issues_enter .lseek
  generalize ht : s.enter.2.issue .lseek fd = t at hseek
  have htOwns : t.Owns fd ↔ s.Owns fd := by rw [← ht, owns_issue, owns_enter]
  have htransfer : Issues fd t ((t.enter.2.issue call fd).transfer n) [call] := issues_enter call
  generalize hu : (t.enter.2.issue call fd).transfer n = u at htransfer
  have huOwns : u.Owns fd ↔ s.Owns fd := by
    rw [← hu, owns_transfer, owns_issue, owns_enter, htOwns]
  have huSession : u.inSession = (s.inSession && n == 4) := by rw [← hu, ← ht]; rfl
  have hissues := hseek.trans htOwns htransfer
  have haccessed : s.accessed fd call n = if n = 4 then u else processOs.close fd u := by
    rw [← hu, ← ht]
    rfl
  have hcount : [.lseek, call].count SysCall.close = 0 := by
    rw [List.count_eq_zero, List.mem_pair, not_or]
    exact ⟨by decide, hcall.symm⟩
  rw [haccessed]
  by_cases hn : n = 4
  · have hsession : u.inSession = s.inSession := by rw [huSession, hn]; simp
    rw [if_pos hn]
    refine ⟨⟨[.lseek, call], List.cons_ne_nil _ _, hissues, ?_⟩, ?_⟩
    · intro hin
      rw [hcount, hsession, hin]
      rfl
    · rw [Process.Tied, hsession, huOwns]
      exact htied
  · rw [if_neg hn]
    refine ⟨⟨[.lseek, call] ++ [.close], List.cons_ne_nil _ _,
      hissues.trans huOwns issues_close, ?_⟩, ?_⟩
    · intro _
      rw [List.count_append, hcount]
      rfl
    · exact iff_of_false Bool.false_ne_true not_owns_close

/-- What every access does. -/
theorem DspAccess.exec_tied (a : DspAccess) (htied : s.Tied fd) :
    Accesses fd s (a.exec processOs fd s) := by
  cases a with
  | write val off =>
      obtain ⟨n, heq⟩ : ∃ n, (axiWrite processOs fd val off s).2 = s.accessed fd .write n :=
        axiWrite_eq val off
      show Accesses fd s (axiWrite processOs fd val off s).2
      rw [heq]
      exact accesses_accessed htied (by decide) n
  | read raw off =>
      obtain ⟨n, heq⟩ : ∃ n, (axiRead processOs fd raw off s).2.2 = s.accessed fd .read n :=
        axiRead_eq raw off
      show Accesses fd s (axiRead processOs fd raw off s).2.2
      rw [heq]
      exact accesses_accessed htied (by decide) n
  | close =>
      refine ⟨⟨_, List.cons_ne_nil _ _, issues_close, fun _ => rfl⟩, ?_⟩
      exact iff_of_false Bool.false_ne_true not_owns_close

/-- So far every call has been on the own descriptor. -/
def Process.Owned (s : Process) : Prop := ∀ i ∈ s.issued, i.owner = some .library

/-- How often the library has closed its descriptor. -/
def Process.closes (s : Process) : Nat := (s.issued.map Issue.call).count .close

/-- The calls of an access are on the own descriptor if it is made in the
session. -/
theorem Accesses.owned_iff {s' : Process} (h : Accesses fd s s') (htied : s.Tied fd) :
    s'.Owned ↔ s.Owned ∧ s.inSession = true := by
  obtain ⟨calls, hne, ⟨new, hissued, hcalls, howner⟩, -⟩ := h.issues
  constructor
  · intro howned
    refine ⟨fun i hi => howned i ?_, ?_⟩
    · rw [hissued]
      exact List.mem_append_left _ hi
    · obtain ⟨i, hi⟩ : ∃ i, i ∈ new := by
        apply List.exists_mem_of_ne_nil
        rintro rfl
        exact hne hcalls.symm
      have hmem : i ∈ s'.issued := by
        rw [hissued]
        exact List.mem_append_right _ hi
      exact htied.mpr ((howner i hi).mp (howned i hmem))
  · rintro ⟨howned, hin⟩ i hi
    rw [hissued] at hi
    rcases List.mem_append.mp hi with hold | hnew
    · exact howned i hold
    · exact (howner i hnew).mpr (htied.mp hin)

/-- In the session, either the session goes on or the descriptor has been
closed once more. -/
theorem Accesses.closes_add {s' : Process} (h : Accesses fd s s') (hin : s.inSession = true) :
    s'.closes + s'.inSession.toNat = s.closes + s.inSession.toNat := by
  obtain ⟨calls, -, ⟨new, hissued, hcalls, -⟩, hcount⟩ := h.issues
  have hcloses : s'.closes = s.closes + calls.count .close := by
    rw [Process.closes, hissued, List.map_append, List.count_append, hcalls]
    rfl
  rw [hcloses, Nat.add_assoc, hcount hin, hin]
  rfl

/-! ## Runs -/

/-- The accesses of a run are on the own descriptor if all of them are made in
the session, and only then. -/
theorem run_owned_iff (accesses : List DspAccess) (htied : s.Tied fd) :
    (Machine.run (DspAccess.exec processOs fd) s accesses).Owned ↔
      s.Owned ∧
        Machine.Along (DspAccess.exec processOs fd) (fun s _ => s.inSession = true) s accesses := by
  induction accesses generalizing s with
  | nil => simp
  | cons a accesses ih =>
      have haccess := a.exec_tied htied
      rw [Machine.run_cons, ih haccess.tied, haccess.owned_iff htied, Machine.along_cons, and_assoc]

theorem run_closes (accesses : List DspAccess) (htied : s.Tied fd)
    (hin : Machine.Along (DspAccess.exec processOs fd) (fun s _ => s.inSession = true) s accesses) :
    (Machine.run (DspAccess.exec processOs fd) s accesses).closes ≤
      s.closes + s.inSession.toNat := by
  induction accesses generalizing s with
  | nil => exact Nat.le_add_right _ _
  | cons a accesses ih =>
      have haccess := a.exec_tied htied
      rw [Machine.run_cons, ← haccess.closes_add hin.1]
      exact ih haccess.tied hin.2

end Accesses

/-! ## The library in a process -/

/-- Without a descriptor the library is not in the session. -/
structure Process.Unopened (s : Process) : Prop where
  free : ∀ fd, ¬ s.Owns fd
  session : s.inSession = false

theorem unopened_start (files : Int32 → Bool) (kernel : Nat → Outcome) :
    (Process.start files kernel).Unopened := by
  refine ⟨fun fd howns => ?_, rfl⟩
  have htable : (if 0 ≤ fd ∧ files fd = true then some Owner.other else none) =
      some .library := howns
  split at htable
  · exact absurd htable (by decide)
  · exact absurd htable (by decide)

/-- An `open` of the device succeeds or changes nothing for the library. -/
theorem openDevice_cases (readOnly : Bool) {s : Process} (hs : s.Unopened) :
    (processOs.openDevice readOnly s).2.issued = s.issued ∧
      ((processOs.openDevice readOnly s).2.Tied (processOs.openDevice readOnly s).1) ∧
      ((processOs.openDevice readOnly s).1 < 0 → (processOs.openDevice readOnly s).2.Unopened) := by
  simp only [processOs]
  split
  · rename_i hfree
    refine ⟨rfl, iff_of_true rfl (Function.update_self _ _ _), fun hneg => ?_⟩
    exact absurd hfree.1 (Int32.not_le.mpr hneg)
  · have hunopened : s.enter.2.Unopened :=
      ⟨fun fd howns => hs.free fd (owns_enter.mp howns), hs.session⟩
    refine ⟨rfl, iff_of_false ?_ (hunopened.free _), fun _ => hunopened⟩
    rw [hunopened.session]
    exact Bool.false_ne_true

section Library

variable (files : Int32 → Bool) (kernel : Nat → Outcome)

/-- `axi_dsp_init` in a process with the files `files`: the result, the
descriptor that the library keeps, and the process. -/
def openedBy : FdErr × Int32 × Process := axiDspInit processOs (.start files kernel)

/-- After `axi_dsp_init` the library is in the session exactly if it owns the
descriptor that it keeps. -/
theorem openedBy_spec :
    (openedBy files kernel).2.2.issued = [] ∧
      (openedBy files kernel).2.2.Tied (openedBy files kernel).2.1 := by
  obtain ⟨hissued, htied, hunopened⟩ := openDevice_cases false (unopened_start files kernel)
  have hinit : (axiDspInit processOs (.start files kernel)).2 = _ := axiDspInit_snd _
  unfold openedBy
  rw [hinit]
  by_cases hneg : (processOs.openDevice false (.start files kernel)).1 < 0
  · obtain ⟨hissued', htied', -⟩ := openDevice_cases true (hunopened hneg)
    rw [if_pos hneg]
    exact ⟨hissued'.trans hissued, htied'⟩
  · rw [if_neg hneg]
    exact ⟨hissued, htied⟩

end Library

/-- Every system call that the library has made on a descriptor was on one that
it had opened and not yet closed, and it has closed it at most once. -/
structure UsesOwnDescriptor (s : Process) : Prop where
  owned : s.Owned
  closedOnce : s.closes ≤ 1

/-- `axi_dsp_init` and then `calls`, with every outcome of the system calls and
every interleaving with the rest of the process: the library stays on its own
descriptor exactly when every access is made in the session. -/
theorem library_uses_own_descriptor_iff {F : Type} (fl : FloatOps F) (files : Int32 → Bool)
    (kernel : Nat → Outcome) (calls : List (Call F)) :
    let fd := (openedBy files kernel).2.1
    let s := (openedBy files kernel).2.2
    UsesOwnDescriptor (Machine.run (Call.exec fl processOs fd) s calls) ↔
      Machine.Along (DspAccess.exec processOs fd) (fun s _ => s.inSession = true) s
        (allAccesses fl processOs fd s calls) := by
  intro fd s
  obtain ⟨hissued, htied⟩ := openedBy_spec files kernel
  have howned : s.Owned := by
    intro i hi
    have hempty : s.issued = [] := hissued
    rw [hempty] at hi
    exact absurd hi List.not_mem_nil
  have hcloses : s.closes = 0 := by
    have hempty : s.issued = [] := hissued
    rw [Process.closes, hempty]
    rfl
  rw [run_calls_eq]
  constructor
  · intro huses
    exact ((run_owned_iff _ htied).mp huses.owned).2
  · intro hin
    refine ⟨(run_owned_iff _ htied).mpr ⟨howned, hin⟩, ?_⟩
    calc _ ≤ s.closes + s.inSession.toNat := run_closes _ htied hin
      _ = s.inSession.toNat := by rw [hcloses, Nat.zero_add]
      _ ≤ 1 := Bool.toNat_le s.inSession

/-- The system calls of two calls of `axi_dsp_set_channel`.  The first write
fails, and before the second call another file is opened under the number that
has become free. -/
def reusedNumber : Nat → Outcome
  | 0 => { fd := 3 }
  | 1 => { ret := 0xc }
  | 2 => { ret := -1 }
  | 3 => { ret := 0 }
  | 4 => { others := [.openFile 3], ret := 0xc }
  | _ => { ret := 4 }

/-- The second call writes into the other file. -/
theorem second_call_writes_other_file :
    let fd := (openedBy (fun _ => false) reusedNumber).2.1
    let s := Machine.run (Call.exec noFloat processOs fd)
      (openedBy (fun _ => false) reusedNumber).2.2 [.set (.channel 1), .set (.channel 1)]
    s.issued = [⟨.lseek, some .library⟩, ⟨.write, some .library⟩, ⟨.close, some .library⟩,
      ⟨.lseek, some .other⟩, ⟨.write, some .other⟩] ∧ ¬ UsesOwnDescriptor s := by
  intro fd s
  have hissued : s.issued = [⟨.lseek, some .library⟩, ⟨.write, some .library⟩,
      ⟨.close, some .library⟩, ⟨.lseek, some .other⟩, ⟨.write, some .other⟩] := by decide
  refine ⟨hissued, fun huses => ?_⟩
  have howner := huses.owned ⟨.write, some .other⟩ (by rw [hissued]; decide)
  exact absurd howner (by decide)

end RlsMini.Regs
