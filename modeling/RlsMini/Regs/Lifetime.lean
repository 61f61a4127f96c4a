import RlsMini.Regs.Handles
import Mathlib.Logic.Function.Basic

/-!
# The life of a device

The driver core probes a device and removes it again, statement by statement,
while clients open handles and use them.  `axi_open` keeps a pointer to the
device structure in the handle; nothing counts the handles, so the structure
can go while there are some.

`rls_mini_pl.c` and `axi_multiplier.c` have the same `probe` and `remove`, so
`Device.advance` is both.  A binding of a driver to a device is an instance
with a structure of its own; a number is not used again for another one.
-/

namespace RlsMini.Regs

/-! ## Probe and remove -/

/-- The statement that `probe` or `remove` executes next.  `remove` ends like
the error path of `probe`. -/
inductive Stage where
  | kzalloc
  | ioremap
  | allocChrdevRegion
  | cdevAdd
  | classCreate
  | deviceCreate
  /-- `probe` has returned 0, and `remove` has not been called. -/
  | bound
  | classDestroy
  | cdevDel
  | unregisterChrdevRegion
  /-- `remove` has returned or `probe` has failed: the driver core releases
  what is managed. -/
  | devresRelease
  | released
  deriving DecidableEq, Repr

/-- What an instance holds. -/
structure Resources where
  /-- The structure, of `devm_kzalloc`. -/
  memory : Bool := false
  /-- The mapping of the registers, of `devm_ioremap_resource`. -/
  mapping : Bool := false
  region : Bool := false
  /-- The character device can be opened. -/
  cdev : Bool := false
  cls : Bool := false
  node : Bool := false
  deriving DecidableEq, Repr

/-- An instance, with the registers it leads to. -/
structure Device where
  stage : Stage := .kzalloc
  held : Resources := {}
  regs : Registers

/-- The next statement of `rls_mini_pl_probe` and `rls_mini_pl_remove`, or of
`axi_mult_probe` and `axi_mult_remove`; `ok` says whether what it asks for is
there. -/
def Device.advance (ok : Bool) (d : Device) : Device :=
  match d.stage with
  | .kzalloc =>
      if ok then { d with held.memory := true, stage := .ioremap }
      else { d with stage := .devresRelease }
  | .ioremap =>
      if ok then { d with held.mapping := true, stage := .allocChrdevRegion }
      else { d with stage := .devresRelease }
  | .allocChrdevRegion =>
      if ok then { d with held.region := true, stage := .cdevAdd }
      else { d with stage := .devresRelease }
  | .cdevAdd =>
      if ok then { d with held.cdev := true, stage := .classCreate }
      else { d with stage := .unregisterChrdevRegion }
  | .classCreate =>
      if ok then { d with held.cls := true, stage := .deviceCreate }
      else { d with stage := .cdevDel }
  | .deviceCreate =>
      if ok then { d with held.node := true, stage := .bound }
      else { d with stage := .classDestroy }
  | .bound => { d with held.node := false, stage := .classDestroy }
  | .classDestroy => { d with held.cls := false, stage := .cdevDel }
  | .cdevDel => { d with held.cdev := false, stage := .unregisterChrdevRegion }
  | .unregisterChrdevRegion => { d with held.region := false, stage := .devresRelease }
  | .devresRelease =>
      { d with held.mapping := false, held.memory := false, stage := .released }
  | .released => d

/-- What an instance can hold before a statement. -/
def Stage.Holds (r : Resources) : Stage → Prop
  | .kzalloc => r = {}
  | .ioremap => r = { memory := true }
  | .allocChrdevRegion => r = { memory := true, mapping := true }
  | .cdevAdd => r = { memory := true, mapping := true, region := true }
  | .classCreate => r = { memory := true, mapping := true, region := true, cdev := true }
  | .deviceCreate =>
      r = { memory := true, mapping := true, region := true, cdev := true, cls := true }
  | .bound =>
      r = { memory := true, mapping := true, region := true, cdev := true, cls := true,
            node := true }
  | .classDestroy =>
      r = { memory := true, mapping := true, region := true, cdev := true, cls := true }
  | .cdevDel => r = { memory := true, mapping := true, region := true, cdev := true }
  | .unregisterChrdevRegion => r = { memory := true, mapping := true, region := true }
  | .devresRelease => ∃ memory mapping, r = { memory := memory, mapping := mapping }
  | .released => r = {}

/-- Every statement undoes or requests the right thing. -/
theorem Device.holds_advance {d : Device} (h : d.stage.Holds d.held) (ok : Bool) :
    (d.advance ok).stage.Holds (d.advance ok).held := by
  obtain ⟨stage, held, regs⟩ := d
  cases stage with
  | devresRelease =>
      obtain ⟨memory, mapping, rfl⟩ := h
      rfl
  | _ => cases ok <;> simp_all [Stage.Holds, Device.advance]

/-- An instance that can be opened holds its structure and its mapping. -/
theorem Device.live_of_cdev {d : Device} (h : d.stage.Holds d.held) (hcdev : d.held.cdev = true) :
    d.held.memory = true ∧ d.held.mapping = true := by
  obtain ⟨stage, held, regs⟩ := d
  cases stage with
  | devresRelease =>
      obtain ⟨memory, mapping, rfl⟩ := h
      exact absurd hcdev Bool.false_ne_true
  | _ => simp_all [Stage.Holds]

/-- Only the end of an instance releases its structure or its mapping. -/
theorem Device.live_advance {d : Device} (hstage : d.stage ≠ .devresRelease) (ok : Bool)
    (h : d.held.memory = true ∧ d.held.mapping = true) :
    (d.advance ok).held.memory = true ∧ (d.advance ok).held.mapping = true := by
  obtain ⟨stage, held, regs⟩ := d
  cases stage with
  | devresRelease => exact absurd rfl hstage
  | _ => cases ok <;> simp_all [Device.advance]

/-! ## Clients -/

/-- The handle of a call. -/
def FileOp.handle {H : Type} : FileOp H → H
  | .llseek h _ _ => h
  | .read h _ _ => h
  | .write h _ _ _ => h

/-- `read` and `write` use the structure that `private_data` points to. -/
def FileOp.usesDevice {H : Type} : FileOp H → Bool
  | .llseek _ _ _ => false
  | .read _ _ _ => true
  | .write _ _ _ _ => true

/-- A step of the driver core or of a client. -/
inductive Event (H : Type) where
  /-- The next statement of `probe` or `remove` of an instance. -/
  | core (d : Nat) (ok : Bool)
  | openHandle (h : H) (d : Nat)
  | file (op : FileOp H)
  | release (h : H)

/-- The instances, and the handles with their `private_data`. -/
structure Kernel (H : Type) where
  device : Nat → Device
  privateData : H → Option Nat
  position : H → Int64

namespace Kernel

variable {H : Type}

/-- Before anything is probed. -/
def start (regs : Nat → Registers) : Kernel H where
  device d := { regs := regs d }
  privateData _ := none
  position _ := 0

/-- The structure of an instance and its mapping have not been released. -/
def Live (s : Kernel H) (d : Nat) : Prop :=
  (s.device d).held.memory = true ∧ (s.device d).held.mapping = true

instance (s : Kernel H) (d : Nat) : Decidable (s.Live d) :=
  inferInstanceAs (Decidable (_ ∧ _))

/-- A statement of the driver. -/
def advance (s : Kernel H) (d : Nat) (ok : Bool) : Kernel H :=
  { s with device := Function.update s.device d ((s.device d).advance ok) }

variable [DecidableEq H]

/-- `axi_open`: the kernel calls it for a character device that can be opened,
on a handle that is not in use. -/
def axiOpen (s : Kernel H) (h : H) (d : Nat) : Kernel H :=
  if (s.device d).held.cdev = true ∧ s.privateData h = none then
    { s with
      privateData := Function.update s.privateData h (some d)
      position := Function.update s.position h 0 }
  else s

/-- `axi_release`; after it the handle is gone. -/
def axiRelease (s : Kernel H) (h : H) : Kernel H :=
  { s with privateData := Function.update s.privateData h none }

/-- A file operation on an open handle.  What a structure does that has been
released is undefined; here it is nothing. -/
def fileOp (dr : Driver) (s : Kernel H) (op : FileOp H) : Kernel H :=
  match s.privateData op.handle with
  | none => s
  | some d =>
      if op.usesDevice = true ∧ ¬ s.Live d then s
      else
        let t := dr.step ⟨(s.device d).regs, s.position⟩ op
        { s with
          device := Function.update s.device d { s.device d with regs := t.regs }
          position := t.position }

end Kernel

variable {H : Type} [DecidableEq H]

/-- One event. -/
def Driver.handle (dr : Driver) (s : Kernel H) : Event H → Kernel H
  | .core d ok => s.advance d ok
  | .openHandle h d => s.axiOpen h d
  | .file op => s.fileOp dr op
  | .release h => s.axiRelease h

/-- The event does not use a structure that has been released. -/
def Safe (s : Kernel H) : Event H → Prop
  | .file op => op.usesDevice = true → ∀ d, s.privateData op.handle = some d → s.Live d
  | _ => True

/-- What an instance holds is released only when no handle is open on it. -/
def Unused (s : Kernel H) : Event H → Prop
  | .core d _ => (s.device d).stage = .devresRelease → ∀ h, s.privateData h ≠ some d
  | _ => True

/-! ## Runs -/

namespace Kernel

variable {dr : Driver} {s : Kernel H}

/-- Every instance holds what its statement says. -/
def Consistent (s : Kernel H) : Prop := ∀ d, (s.device d).stage.Holds (s.device d).held

/-- Every open handle points to a structure that has not been released. -/
def NoDangling (s : Kernel H) : Prop := ∀ h d, s.privateData h = some d → s.Live d

omit [DecidableEq H] in
theorem consistent_start (regs : Nat → Registers) : (start regs : Kernel H).Consistent :=
  fun _ => rfl

omit [DecidableEq H] in
theorem noDangling_start (regs : Nat → Registers) : (start regs : Kernel H).NoDangling :=
  fun _ _ h => nomatch h

/-- A file operation changes registers and positions. -/
theorem fileOp_frame (dr : Driver) (s : Kernel H) (op : FileOp H) :
    (s.fileOp dr op).privateData = s.privateData ∧
      ∀ d, ((s.fileOp dr op).device d).stage = (s.device d).stage ∧
        ((s.fileOp dr op).device d).held = (s.device d).held := by
  unfold fileOp
  split
  · exact ⟨rfl, fun _ => ⟨rfl, rfl⟩⟩
  · rename_i d' _
    split
    · exact ⟨rfl, fun _ => ⟨rfl, rfl⟩⟩
    · refine ⟨rfl, fun d => ?_⟩
      by_cases heq : d = d'
      · subst heq
        simp
      · simp [Function.update_of_ne heq]

theorem consistent_handle (h : s.Consistent) (e : Event H) : (dr.handle s e).Consistent := by
  intro d
  cases e with
  | core d' ok =>
      show ((s.advance d' ok).device d).stage.Holds ((s.advance d' ok).device d).held
      by_cases heq : d = d'
      · subst heq
        simp only [advance, Function.update_self]
        exact Device.holds_advance (h d) ok
      · simp only [advance, Function.update_of_ne heq]
        exact h d
  | openHandle h' d' =>
      simp only [Driver.handle, axiOpen]
      split
      · exact h d
      · exact h d
  | file op =>
      obtain ⟨hstage, hheld⟩ := (fileOp_frame dr s op).2 d
      show ((s.fileOp dr op).device d).stage.Holds ((s.fileOp dr op).device d).held
      rw [hstage, hheld]
      exact h d
  | release h' => exact h d

omit [DecidableEq H] in
theorem live_advance_of_ne {d d' : Nat} (hne : d' ≠ d) (ok : Bool) :
    (s.advance d ok).Live d' ↔ s.Live d' := by
  simp only [Live, advance, Function.update_of_ne hne]

omit [DecidableEq H] in
theorem live_advance {d d' : Nat} (hstage : (s.device d).stage ≠ .devresRelease) (ok : Bool)
    (h : s.Live d') : (s.advance d ok).Live d' := by
  by_cases heq : d' = d
  · subst heq
    show ((s.advance d' ok).device d').held.memory = true ∧ _
    simp only [advance, Function.update_self]
    exact Device.live_advance hstage ok h
  · exact (live_advance_of_ne heq ok).mpr h

omit [DecidableEq H] in
theorem not_live_advance {d : Nat} (hstage : (s.device d).stage = .devresRelease) (ok : Bool) :
    ¬ (s.advance d ok).Live d := by
  simp [Live, advance, Device.advance, hstage]

/-- A device that can be opened is live, so a new handle is not dangling. -/
theorem noDangling_axiOpen (hconsistent : s.Consistent) (h : s.NoDangling) (h' : H) (d : Nat) :
    (s.axiOpen h' d).NoDangling := by
  unfold axiOpen
  split
  · rename_i hcdev
    intro x d' hopen
    by_cases heq : x = h'
    · have hd : d = d' := by simpa [heq] using hopen
      subst hd
      exact Device.live_of_cdev (hconsistent d) hcdev.1
    · simp only [Function.update_of_ne heq] at hopen
      exact h x d' hopen
  · exact h

theorem noDangling_fileOp (h : s.NoDangling) (op : FileOp H) : (s.fileOp dr op).NoDangling := by
  obtain ⟨hdata, hdevice⟩ := fileOp_frame dr s op
  intro x d hopen
  rw [hdata] at hopen
  show ((s.fileOp dr op).device d).held.memory = true ∧
    ((s.fileOp dr op).device d).held.mapping = true
  rw [(hdevice d).2]
  exact h x d hopen

theorem noDangling_axiRelease (h : s.NoDangling) (h' : H) : (s.axiRelease h').NoDangling := by
  intro x d hopen
  by_cases heq : x = h'
  · simp [axiRelease, heq] at hopen
  · simp only [axiRelease, Function.update_of_ne heq] at hopen
    exact h x d hopen

/-- No handle is left dangling by a step exactly if what it releases is
unused. -/
theorem unused_iff (hconsistent : s.Consistent) (h : s.NoDangling) (e : Event H) :
    Unused s e ↔ (dr.handle s e).NoDangling := by
  cases e with
  | core d ok =>
      by_cases hstage : (s.device d).stage = .devresRelease
      · constructor
        · intro hunused h' d' hopen
          have hne : d' ≠ d := by
            rintro rfl
            exact hunused hstage h' hopen
          exact (live_advance_of_ne hne ok).mpr (h h' d' hopen)
        · intro hnone _ h' hopen
          exact not_live_advance hstage ok (hnone h' d hopen)
      · refine iff_of_true (fun hend => absurd hend hstage) ?_
        intro h' d' hopen
        exact live_advance hstage ok (h h' d' hopen)
  | openHandle h' d => exact iff_of_true trivial (noDangling_axiOpen hconsistent h h' d)
  | file op => exact iff_of_true trivial (noDangling_fileOp h op)
  | release h' => exact iff_of_true trivial (noDangling_axiRelease h h')

omit [DecidableEq H] in
/-- Whatever a client does next is safe exactly if no handle is dangling. -/
theorem noDangling_iff_safe : s.NoDangling ↔ ∀ e, Safe s e := by
  constructor
  · intro h e
    cases e with
    | file op => exact fun _ d hopen => h op.handle d hopen
    | _ => trivial
  · intro hsafe h d hopen
    exact hsafe (.file (.read h 4 0)) rfl d hopen

variable (dr) in
/-- Wherever a run stands, what comes next is safe, exactly if along the run
only unused instances are released. -/
theorem safe_run_iff (regs : Nat → Registers) (events : List (Event H)) :
    (∀ pre post, events = pre ++ post → ∀ e, Safe (Machine.run dr.handle (start regs) pre) e) ↔
      Machine.Along dr.handle Unused (start regs) events := by
  rw [Machine.along_iff_forall_prefix (I := NoDangling) (C := Consistent)
    (fun _ e h => consistent_handle h e) (fun _ e hc h => unused_iff hc h e)
    (consistent_start regs) (noDangling_start regs)]
  simp only [noDangling_iff_safe]

variable (dr) in
/-- A run that releases only unused instances uses no released structure. -/
theorem safe_along_of_unused {regs : Nat → Registers} {events : List (Event H)}
    (h : Machine.Along dr.handle Unused (start regs) events) :
    Machine.Along dr.handle Safe (start regs) events := by
  refine Machine.along_iff_forall_split.mpr ?_
  intro pre e post hsplit
  exact (safe_run_iff dr regs events).mpr h pre (e :: post) hsplit e

/-- An instance that is gone has given back everything it held. -/
theorem released_run (regs : Nat → Registers) (events : List (Event H)) (d : Nat)
    (hreleased : ((Machine.run dr.handle (start regs) events).device d).stage = .released) :
    ((Machine.run dr.handle (start regs) events).device d).held = {} := by
  have hstep : ∀ (s : Kernel H) (e : Event H), s.Consistent → (dr.handle s e).Consistent :=
    fun _ e h => consistent_handle h e
  have hconsistent := Machine.invariant_run hstep (consistent_start regs) events d
  rw [hreleased] at hconsistent
  exact hconsistent

end Kernel

/-- For both drivers and every interleaving of the driver core and the clients:
no `read` or `write` uses a structure that has been released, wherever the run
stands, exactly if what an instance holds is released only while no handle is
open on it. -/
theorem open_handles_reach_live_device_iff (H : Type) [DecidableEq H] (regs : Nat → Registers)
    (events : List (Event H)) :
    ((∀ pre post, events = pre ++ post →
        ∀ e, Safe (Machine.run rlsMiniPl.handle (Kernel.start regs) pre) e) ↔
      Machine.Along rlsMiniPl.handle Unused (Kernel.start regs) events) ∧
    ((∀ pre post, events = pre ++ post →
        ∀ e, Safe (Machine.run axiMultiplier.handle (Kernel.start regs) pre) e) ↔
      Machine.Along axiMultiplier.handle Unused (Kernel.start regs) events) :=
  ⟨Kernel.safe_run_iff rlsMiniPl regs events, Kernel.safe_run_iff axiMultiplier regs events⟩

/-- A client opens the device that has been probed, and the device is removed. -/
def removedWhileOpen : List (Event Unit) :=
  List.replicate 6 (.core 0 true) ++ [.openHandle () 0] ++ List.replicate 5 (.core 0 true)

/-- A client opens the device as soon as it is there, and `class_create`
fails. -/
def failedWhileOpen : List (Event Unit) :=
  List.replicate 4 (.core 0 true) ++ [.openHandle () 0, .core 0 false] ++
    List.replicate 3 (.core 0 true)

/-- The handle is still open, and a `read` on it uses the released structure. -/
theorem read_after_remove :
    ¬ Safe (Machine.run rlsMiniPl.handle (Kernel.start fun _ _ => 0) removedWhileOpen)
        (.file (.read () 4 0)) ∧
      ¬ Safe (Machine.run axiMultiplier.handle (Kernel.start fun _ _ => 0) failedWhileOpen)
        (.file (.read () 4 0)) := by
  constructor
  · intro hsafe
    have hlive := hsafe rfl 0 (by decide)
    exact absurd hlive.1 (by decide)
  · intro hsafe
    have hlive := hsafe rfl 0 (by decide)
    exact absurd hlive.1 (by decide)

end RlsMini.Regs
