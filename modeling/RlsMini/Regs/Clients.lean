import RlsMini.Regs.AxiDsp
import RlsMini.Regs.Stack

/-!
# Clients that apply at the same time

Changes of the signal processor's registers are applied by inverting the
register `APPLY`.  `axi_dsp_apply` reads it and writes the inverse; the driver
holds its lock for each of the two accesses and not in between.

Every client has a handle of its own and makes its calls one after another.  A
schedule is the order in which the clients come to their file operations.
`Consistent` is the invariant of every schedule in which no request has been
lost so far: `APPLY` tells the parity of the completed calls, and what a
client has read tells the parity at its read.
-/

namespace RlsMini.Regs

/-! ## A call in four operations -/

/-- The position of `APPLY`. -/
def applyPosition : Int64 := Int64.ofNat CSR_APPLY_ADDR.toNat

/-- `(!apply) & 0x01`. -/
def nextApply (apply : UInt32) : UInt32 := (if apply = 0 then 1 else 0) &&& 0x01

/-- Which of its file operations a client makes next: `axi_read` seeks and
reads, `axi_write` seeks and writes. -/
inductive CallStage where
  | seekRead
  | read
  | seekWrite
  | write
  deriving DecidableEq, Repr

/-- A client in its `axi_dsp_apply` call. -/
structure Client where
  stage : CallStage := .seekRead
  /-- What `axi_dsp_get_apply` has returned. -/
  apply : UInt32 := 0
  /-- The calls of all clients that were complete when it did. -/
  since : Nat := 0

/-- The clients and the device. -/
structure Clients (C : Type) where
  file : Handles C
  client : C → Client
  /-- The completed calls, and the changes of `APPLY`. -/
  completed : Nat
  toggles : Nat

section Step

variable {C : Type} [DecidableEq C]

/-- The clients when no call has begun. -/
def Clients.idle (file : Handles C) : Clients C where
  file := file
  client _ := {}
  completed := 0
  toggles := 0

/-- The file operation that a client makes next. -/
def Clients.nextOp (s : Clients C) (c : C) : FileOp C :=
  match (s.client c).stage with
  | .seekRead => .llseek c applyPosition SEEK_SET
  | .read => .read c 4 0
  | .seekWrite => .llseek c applyPosition SEEK_SET
  | .write => .write c 4 0 (nextApply (s.client c).apply)

/-- The client behind its next file operation. -/
def Clients.nextClient (s : Clients C) (c : C) : Client :=
  match (s.client c).stage with
  | .seekRead => { s.client c with stage := .read }
  | .read =>
      { stage := .seekWrite
        apply := ((rlsMiniPl.exec s.file (s.nextOp c)).1.data).getD (s.client c).apply
        since := s.completed }
  | .seekWrite => { s.client c with stage := .write }
  | .write => { s.client c with stage := .seekRead }

/-- A client makes its next file operation. -/
def Clients.step (s : Clients C) (c : C) : Clients C :=
  let file := (rlsMiniPl.exec s.file (s.nextOp c)).2
  { file := file
    client := fun x => if x = c then s.nextClient c else s.client x
    completed := if (s.client c).stage = .write then s.completed + 1 else s.completed
    toggles :=
      if file.regs CSR_APPLY_ADDR ≠ s.file.regs CSR_APPLY_ADDR then s.toggles + 1
      else s.toggles }

/-- Between the read and the write of a call, an even number of other calls
has been completed. -/
def Clients.EvenSince (s : Clients C) (c : C) : Prop :=
  (s.client c).stage = .write → (s.completed - (s.client c).since) % 2 = 0

instance (s : Clients C) (c : C) : Decidable (s.EvenSince c) :=
  inferInstanceAs (Decidable (_ → _))

/-! ## The value of `APPLY` -/

/-- `APPLY` after `n` inversions. -/
def applyAt (first : UInt32) (n : Nat) : UInt32 := if n % 2 = 0 then first else nextApply first

theorem nextApply_applyAt {first : UInt32} (hbit : first = 0 ∨ first = 1) (n : Nat) :
    nextApply (applyAt first n) = applyAt first (n + 1) := by
  unfold applyAt
  rcases Nat.mod_two_eq_zero_or_one n with heven | hodd
  · rw [if_pos heven, if_neg (by omega)]
  · rw [if_neg (by omega), if_pos (by omega)]
    rcases hbit with rfl | rfl <;> decide

/-- The value tells the parity. -/
theorem applyAt_eq_iff {first : UInt32} (hbit : first = 0 ∨ first = 1) (m n : Nat) :
    applyAt first m = applyAt first n ↔ m % 2 = n % 2 := by
  have hne : first ≠ nextApply first := by rcases hbit with rfl | rfl <;> decide
  unfold applyAt
  split
  · split
    · exact iff_of_true rfl (by omega)
    · exact iff_of_false hne (by omega)
  · split
    · exact iff_of_false hne.symm (by omega)
    · exact iff_of_true rfl (by omega)

/-! ## One operation -/

theorem toInt_applyPosition : applyPosition.toInt = CSR_APPLY_ADDR.toNat :=
  Driver.toInt_ofNat_toNat CSR_APPLY_ADDR

theorem regOff_applyPosition : Driver.regOff applyPosition = CSR_APPLY_ADDR :=
  Driver.regOff_ofNat_toNat CSR_APPLY_ADDR

theorem isReg_apply : rlsMiniPl.IsReg (CSR_APPLY_ADDR.toNat : Int) := by decide

theorem accepts_apply : rlsMiniPl.Accepts 4 0 applyPosition := by
  refine ⟨Nat.le_refl 4, ?_, rfl⟩
  rw [toInt_applyPosition]
  exact isReg_apply

theorem exec_seek (file : Handles C) (c : C) :
    rlsMiniPl.exec file (.llseek c applyPosition SEEK_SET) =
      ({ ret := .ok applyPosition }, file.setPosition c applyPosition) := by
  have hallows : rlsMiniPl.Allows file (.llseek c applyPosition SEEK_SET) := by
    refine ⟨rfl, ?_⟩
    rw [toInt_applyPosition]
    exact isReg_apply
  exact Driver.exec_of_allows hallows

/-- A read at `APPLY`. -/
theorem exec_read {file : Handles C} {c : C} (hposition : file.position c = applyPosition) :
    rlsMiniPl.exec file (.read c 4 0) =
      ({ ret := .ok 4, data := some (file.regs CSR_APPLY_ADDR) },
        file.setPosition c (applyPosition + 4)) := by
  have hallows : rlsMiniPl.Allows file (.read c 4 0) := by
    show rlsMiniPl.Accepts 4 0 (file.position c)
    rw [hposition]
    exact accepts_apply
  rw [Driver.exec_of_allows hallows]
  simp only [Driver.effect, hposition, regOff_applyPosition]

/-- A write at `APPLY`. -/
theorem exec_write {file : Handles C} {c : C} (hposition : file.position c = applyPosition)
    (value : UInt32) :
    rlsMiniPl.exec file (.write c 4 0 value) =
      ({ ret := .ok 4 },
        { file with regs := file.regs.set CSR_APPLY_ADDR value }.setPosition c
          (applyPosition + 4)) := by
  have hallows : rlsMiniPl.Allows file (.write c 4 0 value) := by
    show rlsMiniPl.Accepts 4 0 (file.position c) ∧ (file.position c).toInt ≠ 0
    rw [hposition]
    exact ⟨accepts_apply, by decide⟩
  rw [Driver.exec_of_allows hallows]
  simp only [Driver.effect, hposition, regOff_applyPosition]

/-- The state with one client changed. -/
def Clients.setClient (s : Clients C) (c : C) (client : Client) : Clients C :=
  { s with client := fun x => if x = c then client else s.client x }

section Turns

variable {s : Clients C} {c : C}

/-- An operation that is no write changes the file position and the client. -/
theorem step_of_regs {file : Handles C} (hstage : (s.client c).stage ≠ .write)
    (hfile : (rlsMiniPl.exec s.file (s.nextOp c)).2 = file) (hregs : file.regs = s.file.regs) :
    s.step c = { s.setClient c (s.nextClient c) with file := file } := by
  unfold Clients.step
  simp only [hfile, hregs, if_neg hstage, ne_eq, not_true_eq_false, if_false]
  rfl

theorem step_of_seekRead (hstage : (s.client c).stage = .seekRead) :
    s.step c = { s.setClient c { s.client c with stage := .read } with
      file := s.file.setPosition c applyPosition } := by
  have hop : s.nextOp c = .llseek c applyPosition SEEK_SET := by simp only [Clients.nextOp, hstage]
  have hnext : s.nextClient c = { s.client c with stage := .read } := by
    simp only [Clients.nextClient, hstage]
  have hfile : (rlsMiniPl.exec s.file (s.nextOp c)).2 = s.file.setPosition c applyPosition := by
    rw [hop, exec_seek]
  rw [step_of_regs (by rw [hstage]; decide) hfile rfl, hnext]

theorem step_of_read (hstage : (s.client c).stage = .read)
    (hposition : s.file.position c = applyPosition) :
    s.step c = { s.setClient c ⟨.seekWrite, s.file.regs CSR_APPLY_ADDR, s.completed⟩ with
      file := s.file.setPosition c (applyPosition + 4) } := by
  have hop : s.nextOp c = .read c 4 0 := by simp only [Clients.nextOp, hstage]
  have hnext : s.nextClient c = ⟨.seekWrite, s.file.regs CSR_APPLY_ADDR, s.completed⟩ := by
    simp only [Clients.nextClient, hstage, hop, exec_read hposition, Option.getD_some]
  have hfile : (rlsMiniPl.exec s.file (s.nextOp c)).2 =
      s.file.setPosition c (applyPosition + 4) := by
    rw [hop, exec_read hposition]
  rw [step_of_regs (by rw [hstage]; decide) hfile rfl, hnext]

theorem step_of_seekWrite (hstage : (s.client c).stage = .seekWrite) :
    s.step c = { s.setClient c { s.client c with stage := .write } with
      file := s.file.setPosition c applyPosition } := by
  have hop : s.nextOp c = .llseek c applyPosition SEEK_SET := by simp only [Clients.nextOp, hstage]
  have hnext : s.nextClient c = { s.client c with stage := .write } := by
    simp only [Clients.nextClient, hstage]
  have hfile : (rlsMiniPl.exec s.file (s.nextOp c)).2 = s.file.setPosition c applyPosition := by
    rw [hop, exec_seek]
  rw [step_of_regs (by rw [hstage]; decide) hfile rfl, hnext]

/-- The write completes the call, and changes `APPLY` if the register still
holds what the client has read. -/
theorem step_of_write (hstage : (s.client c).stage = .write)
    (hposition : s.file.position c = applyPosition) :
    s.step c = { s.setClient c { s.client c with stage := .seekRead } with
      file := { s.file with
        regs := s.file.regs.set CSR_APPLY_ADDR (nextApply (s.client c).apply) }.setPosition c
          (applyPosition + 4)
      completed := s.completed + 1
      toggles := if nextApply (s.client c).apply ≠ s.file.regs CSR_APPLY_ADDR then s.toggles + 1
        else s.toggles } := by
  have hop : s.nextOp c = .write c 4 0 (nextApply (s.client c).apply) := by
    simp only [Clients.nextOp, hstage]
  have hnext : s.nextClient c = { s.client c with stage := .seekRead } := by
    simp only [Clients.nextClient, hstage]
  have hregs : (s.file.regs.set CSR_APPLY_ADDR (nextApply (s.client c).apply)) CSR_APPLY_ADDR =
      nextApply (s.client c).apply := Registers.set_self _ _ _
  unfold Clients.step
  rw [hop, exec_write hposition, hnext, if_pos hstage]
  simp only [Handles.setPosition, hregs]
  rfl

/-- The four turns of a call that no other one comes into. -/
theorem run_of_call (hstage : (s.client c).stage = .seekRead) :
    (Machine.run Clients.step s [c, c, c, c]).file =
      { s.file with
        regs := s.file.regs.set CSR_APPLY_ADDR
          (nextApply (s.file.regs CSR_APPLY_ADDR)) }.setPosition c (applyPosition + 4) := by
  have hself : ∀ (t : Clients C) (client : Client), (t.setClient c client).client c = client :=
    fun _ _ => if_pos rfl
  have hmoved : ∀ (file : Handles C) (off : Int64), (file.setPosition c off).position c = off :=
    fun _ _ => if_pos rfl
  have h1 := step_of_seekRead hstage
  have hstage1 : ((s.step c).client c).stage = .read := by
    rw [h1]
    exact congrArg Client.stage (hself s _)
  have hposition1 : (s.step c).file.position c = applyPosition := by
    rw [h1]
    exact hmoved _ _
  have h2 := step_of_read hstage1 hposition1
  have hclient2 : ((s.step c).step c).client c =
      ⟨.seekWrite, s.file.regs CSR_APPLY_ADDR, s.completed⟩ := by
    rw [h2, h1]
    exact hself _ _
  have h3 := step_of_seekWrite (congrArg Client.stage hclient2)
  have hclient3 : (((s.step c).step c).step c).client c =
      ⟨.write, s.file.regs CSR_APPLY_ADDR, s.completed⟩ := by
    rw [h3, hclient2]
    exact hself _ _
  have hposition3 : (((s.step c).step c).step c).file.position c = applyPosition := by
    rw [h3]
    exact hmoved _ _
  have hfile3 : (((s.step c).step c).step c).file = s.file.setPosition c applyPosition := by
    rw [h3, h2, h1]
    simp only [Handles.setPosition_setPosition]
  have h4 := step_of_write (congrArg Client.stage hclient3) hposition3
  simp only [Machine.run_cons, Machine.run_nil]
  rw [h4, hclient3, hfile3]
  exact Handles.setPosition_setPosition
    { s.file with
      regs := s.file.regs.set CSR_APPLY_ADDR (nextApply (s.file.regs CSR_APPLY_ADDR)) } c
    applyPosition (applyPosition + 4)

end Turns

/-! ## The call of the library -/

/-- A call of `axi_dsp_apply` on a handle is four turns of its client. -/
theorem axiDspApply_eq (s : Clients Unit) (hstage : (s.client ()).stage = .seekRead)
    (raw : UInt32) :
    axiDspApply (rlsMiniPl.stackOs 0) 0 raw ⟨s.file, .readWrite⟩ =
      ⟨(Machine.run Clients.step s [(), (), (), ()]).file, .readWrite⟩ := by
  have hseek : ∀ file : Handles Unit, rlsMiniPl.seek ⟨file, .readWrite⟩ CSR_APPLY_ADDR =
      ⟨file.setPosition () applyPosition, .readWrite⟩ :=
    fun _ => if_pos ⟨Mode.noConfusion, isReg_apply⟩
  have hread : regRead (rlsMiniPl.stackOs 0) 0 raw CSR_APPLY_ADDR ⟨s.file, .readWrite⟩ =
      (.FD_ERR_NONE, s.file.regs CSR_APPLY_ADDR,
        ⟨s.file.setPosition () (applyPosition + 4), .readWrite⟩) := by
    rw [Driver.regRead_ok (by rw [hseek]; exact ⟨Mode.noConfusion, accepts_apply⟩), hseek]
    show (FdErr.FD_ERR_NONE, s.file.regs (Driver.regOff applyPosition), Stack.mk
      ((s.file.setPosition () applyPosition).setPosition () (applyPosition + 4)) .readWrite) = _
    rw [regOff_applyPosition, Handles.setPosition_setPosition]
  have hwrite : ∀ (file : Handles Unit) (val : UInt32),
      regWrite (rlsMiniPl.stackOs 0) 0 val CSR_APPLY_ADDR ⟨file, .readWrite⟩ =
        (.FD_ERR_NONE, ⟨{ file with regs := file.regs.set CSR_APPLY_ADDR val }.setPosition ()
          (applyPosition + 4), .readWrite⟩) := by
    intro file val
    have hwritable :
        rlsMiniPl.Writable 0 (rlsMiniPl.seek ⟨file, .readWrite⟩ CSR_APPLY_ADDR) := by
      rw [hseek]
      refine ⟨rfl, accepts_apply, ?_⟩
      show applyPosition.toInt ≠ 0
      decide
    rw [Driver.regWrite_ok hwritable, hseek]
    show (FdErr.FD_ERR_NONE, Stack.mk
      ({ file with
        regs := file.regs.set (Driver.regOff applyPosition) val }.setPosition () applyPosition
        |>.setPosition () (applyPosition + 4)) .readWrite) = _
    rw [regOff_applyPosition, Handles.setPosition_setPosition]
  simp only [axiDspApply, axiDspGetApply, readU32, axiRead, axiWrite, hread, hwrite]
  rw [run_of_call hstage]
  show Stack.mk ({ s.file with
    regs := s.file.regs.set CSR_APPLY_ADDR _ }.setPosition () (applyPosition + 4)
    |>.setPosition () (applyPosition + 4)) .readWrite = _
  rw [Handles.setPosition_setPosition]
  rfl

/-! ## Schedules without a loss -/

/-- What a client that has read knows of `APPLY`, and where a client that has
sought is. -/
structure Client.Knows (first : UInt32) (completed : Nat) (position : Int64)
    (client : Client) : Prop where
  since_le : client.since ≤ completed
  apply : client.stage = .seekWrite ∨ client.stage = .write →
    client.apply = applyAt first client.since
  position : client.stage = .read ∨ client.stage = .write → position = applyPosition

/-- No request has been lost, and `APPLY` tells the parity of the completed
calls. -/
structure Clients.Consistent (first : UInt32) (s : Clients C) : Prop where
  toggles : s.toggles = s.completed
  apply : s.file.regs CSR_APPLY_ADDR = applyAt first s.completed
  clients : ∀ x, (s.client x).Knows first s.completed (s.file.position x)

section Invariant

variable {first : UInt32} {s : Clients C} {c : C}

omit [DecidableEq C] in
theorem consistent_idle {file : Handles C} (hfirst : file.regs CSR_APPLY_ADDR = first) :
    (Clients.idle file).Consistent first where
  toggles := rfl
  apply := hfirst
  clients _ :=
    { since_le := Nat.le_refl 0
      apply := by
        intro hstage
        rcases hstage with hstage | hstage <;> exact CallStage.noConfusion hstage
      position := by
        intro hstage
        rcases hstage with hstage | hstage <;> exact CallStage.noConfusion hstage }

/-- The turn of one client leaves the others what they know. -/
theorem knows_of_turn {completed : Nat} {client : Client} {file : Handles C} {off : Int64}
    (hclients : ∀ x, (s.client x).Knows first s.completed (s.file.position x))
    (hle : s.completed ≤ completed) (hposition : file.position = s.file.position)
    (hclient : client.Knows first completed off) (x : C) :
    ((s.setClient c client).client x).Knows first completed
      ((file.setPosition c off).position x) := by
  rw [Handles.setPosition_position, hposition]
  by_cases hx : x = c
  · rw [if_pos hx, show (s.setClient c client).client x = client from if_pos hx]
    exact hclient
  · rw [if_neg hx, show (s.setClient c client).client x = s.client x from if_neg hx]
    exact { hclients x with since_le := Nat.le_trans (hclients x).since_le hle }

/-- A turn that is no write keeps the invariant, and so does a write behind an
even number of other calls. -/
theorem Clients.Consistent.step (hbit : first = 0 ∨ first = 1) (h : s.Consistent first)
    (heven : s.EvenSince c) : (s.step c).Consistent first := by
  have hknows := h.clients c
  cases hstage : (s.client c).stage with
  | seekRead =>
      rw [step_of_seekRead hstage]
      refine ⟨h.toggles, h.apply, knows_of_turn h.clients (Nat.le_refl _) rfl ?_⟩
      refine ⟨hknows.since_le, ?_, fun _ => rfl⟩
      intro hnext
      rcases hnext with hnext | hnext <;> exact CallStage.noConfusion hnext
  | read =>
      rw [step_of_read hstage (hknows.position (Or.inl hstage))]
      refine ⟨h.toggles, h.apply, knows_of_turn h.clients (Nat.le_refl _) rfl ?_⟩
      refine ⟨Nat.le_refl _, fun _ => h.apply, ?_⟩
      intro hnext
      rcases hnext with hnext | hnext <;> exact CallStage.noConfusion hnext
  | seekWrite =>
      rw [step_of_seekWrite hstage]
      refine ⟨h.toggles, h.apply, knows_of_turn h.clients (Nat.le_refl _) rfl ?_⟩
      exact ⟨hknows.since_le, fun _ => hknows.apply (Or.inl hstage), fun _ => rfl⟩
  | write =>
      -- the register still holds the parity that the client has read
      have hparity : (s.client c).since % 2 = s.completed % 2 := by
        have hle := hknows.since_le
        have hmod := heven hstage
        omega
      have hread : (s.client c).apply = applyAt first s.completed := by
        rw [hknows.apply (Or.inr hstage)]
        exact (applyAt_eq_iff hbit _ _).mpr hparity
      have hwritten : nextApply (s.client c).apply = applyAt first (s.completed + 1) := by
        rw [hread, nextApply_applyAt hbit]
      have hchanged : nextApply (s.client c).apply ≠ s.file.regs CSR_APPLY_ADDR := by
        rw [hwritten, h.apply]
        intro heq
        have hmod := (applyAt_eq_iff hbit _ _).mp heq
        omega
      rw [step_of_write hstage (hknows.position (Or.inr hstage))]
      refine ⟨?_, ?_, knows_of_turn h.clients (Nat.le_succ _) rfl ?_⟩
      · show (if _ then s.toggles + 1 else s.toggles) = s.completed + 1
        rw [if_pos hchanged, h.toggles]
      · exact (Registers.set_self s.file.regs CSR_APPLY_ADDR _).trans hwritten
      · refine ⟨Nat.le_succ_of_le hknows.since_le, ?_, ?_⟩
        · intro hnext
          rcases hnext with hnext | hnext <;> exact CallStage.noConfusion hnext
        · intro hnext
          rcases hnext with hnext | hnext <;> exact CallStage.noConfusion hnext

/-- A write behind an odd number of other calls changes nothing: the register
already holds the value. -/
theorem Clients.Consistent.evenSince_of_toggles (hbit : first = 0 ∨ first = 1)
    (h : s.Consistent first) (htoggles : (s.step c).toggles = (s.step c).completed) :
    s.EvenSince c := by
  intro hstage
  have hknows := h.clients c
  by_contra hodd
  have hparity : ((s.client c).since + 1) % 2 = s.completed % 2 := by
    have hle := hknows.since_le
    omega
  have hsame : nextApply (s.client c).apply = s.file.regs CSR_APPLY_ADDR := by
    rw [hknows.apply (Or.inr hstage), nextApply_applyAt hbit, h.apply]
    exact (applyAt_eq_iff hbit _ _).mpr hparity
  rw [step_of_write hstage (hknows.position (Or.inr hstage))] at htoggles
  have hlost : s.toggles = s.completed + 1 :=
    (if_neg (not_not_intro hsame)).symm.trans htoggles
  have hcount := h.toggles
  omega

end Invariant

end Step

/-- Any number of clients, each with a handle of its own, in any order of
their file operations: in every state so far `APPLY` has changed as often as
calls were completed, exactly if every call so far was completed behind an
even number of other calls since its read. -/
theorem apply_requests_kept_iff {C : Type} [DecidableEq C] (file : Handles C)
    (hbit : file.regs CSR_APPLY_ADDR = 0 ∨ file.regs CSR_APPLY_ADDR = 1) (turns : List C) :
    (∀ pre post, turns = pre ++ post →
        (Machine.run Clients.step (Clients.idle file) pre).toggles =
          (Machine.run Clients.step (Clients.idle file) pre).completed) ↔
      Machine.Along Clients.step Clients.EvenSince (Clients.idle file) turns := by
  symm
  refine Machine.along_iff_forall_prefix_of
    (I := Clients.Consistent (file.regs CSR_APPLY_ADDR)) (J := fun s => s.toggles = s.completed)
    ?_ ?_ ?_ (consistent_idle rfl) turns
  · exact fun s h => h.toggles
  · exact fun s c h heven => h.step hbit heven
  · exact fun s c h htoggles => h.evenSince_of_toggles hbit htoggles

/-- Two clients in the eight turns of their calls. -/
def twoClients (turns : List (Fin 2)) : Clients (Fin 2) :=
  Machine.run Clients.step (Clients.idle (Driver.opened fun _ => 0)) turns

/-- One behind the other, both change the register. -/
theorem apply_requests_kept_sequential :
    (twoClients [0, 0, 0, 0, 1, 1, 1, 1]).toggles =
      (twoClients [0, 0, 0, 0, 1, 1, 1, 1]).completed := by
  have heven : Machine.Along Clients.step Clients.EvenSince
      (Clients.idle (Driver.opened fun _ => 0)) [(0 : Fin 2), 0, 0, 0, 1, 1, 1, 1] := by
    decide
  exact (apply_requests_kept_iff (Driver.opened fun _ => 0) (Or.inl rfl) _).mpr heven _ []
    (List.append_nil _).symm

/-- When both read before either writes, both write 1. -/
theorem apply_request_lost :
    (twoClients [0, 0, 1, 1, 0, 0, 1, 1]).completed = 2 ∧
      (twoClients [0, 0, 1, 1, 0, 0, 1, 1]).toggles = 1 := by
  decide

end RlsMini.Regs
