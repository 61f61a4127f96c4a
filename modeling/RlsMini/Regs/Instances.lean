import RlsMini.Regs.Users

/-!
# An instance as a file with handles

`Kernel` has instances that come and go, and handles that are opened, released
and opened again.  What happens to one instance in the course of such a run is
a run of `Handles`: to open a handle is to seek to the beginning, and events
elsewhere are nothing (`instance_runs_as_handles`).  So what holds along every
run of file operations holds of every instance, however it is probed, opened
and removed, as long as nothing is used that has been released.
-/

namespace RlsMini.Regs

variable {H : Type} [DecidableEq H]

/-- The file operations of an event on an instance. -/
def Kernel.operations (d : Nat) (s : Kernel H) : Event H → List (FileOp H)
  | .openHandle h d' =>
      if d' = d ∧ (s.device d').held.cdev = true ∧ s.privateData h = none then
        [.llseek h 0 SEEK_SET]
      else []
  | .file op => if s.privateData op.handle = some d then [op] else []
  | .core _ _ => []
  | .release _ => []

/-- The registers of the instance are those of the file, and so are the
positions of the handles that are open on it. -/
structure InstanceOf (dr : Driver) (d : Nat) (s : Kernel H) (t : Handles H) : Prop where
  regs : (s.device d).regs = t.regs
  position : ∀ h, s.privateData h = some d → s.position h = t.position h
  range : ∀ h, dr.InRange (t.position h)

section Step

variable {dr : Driver} {d : Nat} {s : Kernel H} {t : Handles H}

omit [DecidableEq H] in
/-- `probe` and `remove` do not touch the registers. -/
theorem Device.regs_advance (ok : Bool) (d : Device) : (d.advance ok).regs = d.regs := by
  obtain ⟨stage, held, regs⟩ := d
  cases stage <;> cases ok <;> rfl

/-- To open a handle is to seek to the beginning. -/
theorem Driver.step_seek_zero (dr : Driver) (t : Handles H) (h : H) :
    dr.step t (.llseek h 0 SEEK_SET) = t.setPosition h 0 := by
  have hallows : dr.Allows t (.llseek h 0 SEEK_SET) := by
    refine ⟨rfl, ?_⟩
    rw [Int64.toInt_zero]
    exact ⟨Int.le_refl 0, Int.natCast_nonneg _, rfl⟩
  rw [Driver.step, Driver.exec_of_allows hallows]
  rfl

omit [DecidableEq H] in
theorem InstanceOf.core (h : InstanceOf dr d s t) (d' : Nat) (ok : Bool) :
    InstanceOf dr d (s.advance d' ok) t where
  regs := by
    by_cases heq : d = d'
    · subst heq
      simp only [Kernel.advance, Function.update_self, Device.regs_advance]
      exact h.regs
    · simp only [Kernel.advance, Function.update_of_ne heq]
      exact h.regs
  position := h.position
  range := h.range

theorem InstanceOf.openHandle (h : InstanceOf dr d s t) (h' : H) (d' : Nat) :
    InstanceOf dr d (s.axiOpen h' d')
      (Machine.run dr.step t (s.operations d (.openHandle h' d'))) := by
  simp only [Kernel.operations, Kernel.axiOpen]
  by_cases hopen : (s.device d').held.cdev = true ∧ s.privateData h' = none
  · rw [if_pos hopen]
    by_cases heq : d' = d
    · rw [if_pos ⟨heq, hopen⟩, Machine.run_cons, Machine.run_nil, dr.step_seek_zero]
      refine ⟨h.regs, fun x hx => ?_, fun x => ?_⟩
      · by_cases hx' : x = h'
        · rw [hx', Handles.setPosition_position, if_pos rfl]
          exact Function.update_self _ _ _
        · rw [Handles.setPosition_position, if_neg hx']
          dsimp only at hx ⊢
          rw [Function.update_of_ne hx'] at hx ⊢
          exact h.position x hx
      · rw [Handles.setPosition_position]
        split
        · exact Driver.inRange_zero
        · exact h.range x
    · rw [if_neg (fun hboth => heq hboth.1), Machine.run_nil]
      refine ⟨h.regs, fun x hx => ?_, h.range⟩
      have hx' : x ≠ h' := by
        intro hsame
        dsimp only at hx
        rw [hsame, Function.update_self] at hx
        exact heq (Option.some.inj hx)
      dsimp only at hx ⊢
      rw [Function.update_of_ne hx'] at hx ⊢
      exact h.position x hx
  · rw [if_neg hopen, if_neg (fun hboth => hopen hboth.2)]
    exact h

theorem InstanceOf.file (h : InstanceOf dr d s t) {op : FileOp H} (hsafe : Safe s (.file op)) :
    InstanceOf dr d (s.fileOp dr op) (Machine.run dr.step t (s.operations d (.file op))) := by
  cases hdata : s.privateData op.handle with
  | none =>
      simp only [Kernel.operations, Kernel.fileOp, hdata]
      rw [if_neg (Option.some_ne_none d).symm]
      exact h
  | some d' =>
      have hlive : ¬ (op.usesDevice = true ∧ ¬ s.Live d') := fun hdead =>
        hdead.2 (hsafe hdead.1 d' hdata)
      simp only [Kernel.operations, Kernel.fileOp, hdata]
      rw [if_neg hlive]
      by_cases heq : d' = d
      · subst heq
        rw [if_pos rfl, Machine.run_cons, Machine.run_nil]
        obtain ⟨-, hregs, hposition⟩ := dr.exec_congr (s := ⟨(s.device d').regs, s.position⟩)
          h.regs (h.position op.handle hdata)
        refine ⟨?_, fun x hx => ?_, Driver.inRange_step h.range op⟩
        · simp only [Function.update_self]
          exact hregs
        · by_cases hx' : x = op.handle
          · rw [hx']
            exact hposition
          · have hstill : (dr.exec t op).2.position x = t.position x :=
              Driver.exec_position_of_ne hx'
            exact (Driver.exec_position_of_ne hx').trans ((h.position x hx).trans hstill.symm)
      · rw [if_neg (fun hsome => heq (Option.some.inj hsome)), Machine.run_nil]
        refine ⟨?_, fun x hx => ?_, h.range⟩
        · simp only [Function.update_of_ne (Ne.symm heq)]
          exact h.regs
        · have hx' : x ≠ op.handle := by
            intro hsame
            dsimp only at hx
            rw [hsame, hdata] at hx
            exact heq (Option.some.inj hx)
          exact (Driver.exec_position_of_ne hx').trans (h.position x hx)

theorem InstanceOf.release (h : InstanceOf dr d s t) (h' : H) :
    InstanceOf dr d (s.axiRelease h') t := by
  refine ⟨h.regs, fun x hx => ?_, h.range⟩
  by_cases hx' : x = h'
  · simp only [Kernel.axiRelease, hx', Function.update_self] at hx
    exact absurd hx.symm (Option.some_ne_none d)
  · simp only [Kernel.axiRelease, Function.update_of_ne hx'] at hx
    exact h.position x hx

theorem InstanceOf.handle (h : InstanceOf dr d s t) {e : Event H} (hsafe : Safe s e) :
    InstanceOf dr d (dr.handle s e) (Machine.run dr.step t (s.operations d e)) := by
  cases e with
  | core d' ok => exact h.core d' ok
  | openHandle h' d' => exact h.openHandle h' d'
  | file op => exact h.file hsafe
  | release h' => exact h.release h'

end Step

/-- In every interleaving of the driver core and the clients in which nothing is
used that has been released, each instance is a file with handles: its
registers, and the positions of the handles open on it, are what its file
operations make of them.  So those positions are in range, and `IP_VER` keeps
its value over the life of the instance. -/
theorem instance_runs_as_handles (dr : Driver) (regs : Nat → Registers) (events : List (Event H))
    (hsafe : Machine.Along dr.handle Safe (Kernel.start regs) events) (d : Nat) :
    let s := Machine.run dr.handle (Kernel.start regs) events
    let t := Machine.run dr.step (Driver.opened (regs d))
      (Machine.coarse dr.handle (Kernel.operations d) (Kernel.start regs) events)
    (s.device d).regs = t.regs ∧
      (∀ h, s.privateData h = some d → s.position h = t.position h ∧ dr.InRange (s.position h)) ∧
      (s.device d).regs CSR_IP_VER_ADDR = regs d CSR_IP_VER_ADDR := by
  intro s t
  have hstart : InstanceOf dr d (Kernel.start regs : Kernel H) (Driver.opened (regs d)) :=
    ⟨rfl, fun _ _ => rfl, fun _ => Driver.inRange_zero⟩
  have hrun : InstanceOf dr d s t :=
    Machine.related_run (R := InstanceOf dr d) (fun _ _ _ hsafe h => h.handle hsafe) hstart hsafe
  refine ⟨hrun.regs, fun h hopen => ?_, ?_⟩
  · have hposition := hrun.position h hopen
    exact ⟨hposition, hposition ▸ hrun.range h⟩
  · rw [hrun.regs]
    exact (dr.contract_run (regs d) _).2

/-- A device is probed, a client writes `KILL` on it and closes it, and opens it
once more. -/
def openedTwice : List (Event Bool) :=
  List.replicate 6 (.core 0 true) ++
    [.openHandle true 0, .file (.llseek true 4 SEEK_SET), .file (.write true 4 0 1),
      .release true, .openHandle true 0, .file (.read true 4 0)]

theorem instance_runs_as_handles_openedTwice :
    let s := Machine.run rlsMiniPl.handle (Kernel.start fun _ _ => 0) openedTwice
    let t := Machine.run rlsMiniPl.step (Driver.opened fun _ => 0)
      (Machine.coarse rlsMiniPl.handle (Kernel.operations 0) (Kernel.start fun _ _ => 0)
        openedTwice)
    (s.device 0).regs = t.regs ∧
      (∀ h, s.privateData h = some 0 →
        s.position h = t.position h ∧ rlsMiniPl.InRange (s.position h)) ∧
      (s.device 0).regs CSR_IP_VER_ADDR = 0 := by
  have hunused : Machine.Along rlsMiniPl.handle Unused (Kernel.start fun _ _ => 0)
      openedTwice := by
    refine ⟨?_, ?_, ?_, ?_, ?_, ?_, trivial, trivial, trivial, trivial, trivial, trivial,
      trivial⟩ <;> exact fun hend => absurd hend (by decide)
  refine instance_runs_as_handles rlsMiniPl (fun _ _ => 0) openedTwice ?_ 0
  refine Machine.along_iff_forall_split.mpr fun pre e post hsplit => ?_
  exact (Kernel.safe_run_iff rlsMiniPl (fun _ _ => 0) openedTwice).mpr hunused pre (e :: post)
    hsplit e

end RlsMini.Regs
