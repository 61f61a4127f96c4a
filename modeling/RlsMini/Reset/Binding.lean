import Mathlib.Data.Finset.Card
import RlsMini.Lib.Simulation
import RlsMini.Reset.Resets

/-!
# The life of the reset attribute

The driver core binds `pl_reset.c` to the device and takes it off again, while
users open the attribute `reset` and write to it.  The kernel counts the calls
that are in `reset_store`.  `device_remove_file` lets no further call in: such a
call gets `ENODEV`.  It returns when the last one is out, and only then are the
GPIO and the structure released.

`reset_store` uses `priv` and `priv->reset_gpiod` without a lock.
`binding_keeps_calls` says that it finds both in every call, that for these
calls the binding is the device of `PlReset`, and what is left when it is gone.
`binding_released` says that the wait of `device_remove_file` ends.
-/

namespace RlsMini.Reset

def ENODEV : Int := 19

instance : DecidablePred Stage.Inside
  | .entered | .low | .slept | .high => isTrue trivial
  | .waiting | .returned _ => isFalse id

/-- What `reset_pl` returns. -/
inductive PlResetErr where
  | PL_RESET_ERR_NONE
  | PL_RESET_ERR_WRITE
  | PL_RESET_ERR_NO_DEVICE
  deriving DecidableEq, Repr

/-- `fd` is what `open` returns, and `n` what `write` returns on it. -/
def resetPl (fd n : Int) : PlResetErr :=
  if fd < 0 then .PL_RESET_ERR_NO_DEVICE
  else if n < 0 then .PL_RESET_ERR_WRITE
  else .PL_RESET_ERR_NONE

theorem resetPl_eq_none {fd n : Int} : resetPl fd n = .PL_RESET_ERR_NONE ↔ 0 ≤ fd ∧ 0 ≤ n := by
  unfold resetPl
  split
  · simp
    omega
  · split
    · simp
      omega
    · simp
      omega

/-! ## Probe and remove -/

/-- The statement that the driver core executes next. -/
inductive CoreStage where
  | kzalloc
  | setDrvdata
  | gpiodGet
  | createFile
  /-- `pl_reset_probe` has returned 0; the next statement is
  `device_remove_file` of `pl_reset_remove`. -/
  | bound
  /-- `device_remove_file` waits for the calls that are inside. -/
  | drain
  /-- `remove` has returned or `probe` has failed: the driver core releases
  what is managed and clears the driver data. -/
  | devresRelease
  | released
  deriving DecidableEq, Repr

/-- `pl_reset_probe` is under way. -/
def CoreStage.Probing : CoreStage → Prop
  | .kzalloc | .setDrvdata | .gpiodGet | .createFile => True
  | .bound | .drain | .devresRelease | .released => False

/-- `priv->reset_gpiod`. -/
inductive Gpiod where
  | null
  | errPtr
  | desc
  deriving DecidableEq, Repr

/-- What a binding holds. -/
structure Held where
  /-- The structure, of `devm_kzalloc`. -/
  memory : Bool := false
  /-- `dev_get_drvdata` returns the structure. -/
  drvdata : Bool := false
  gpiod : Gpiod := .null
  /-- The GPIO is requested. -/
  requested : Bool := false
  /-- The attribute is there. -/
  attr : Bool := false
  deriving DecidableEq, Repr

/-- A binding of the driver to the device, with the line and the calls. -/
structure Binding (C φ : Type) where
  core : CoreStage
  held : Held
  /-- The calls that the kernel counts as being inside. -/
  active : Nat
  /-- Whether a file is open on the attribute. -/
  opened : φ → Bool
  line : Bool
  stage : C → Stage
  holder : φ → Option C

/-- A step of the driver core or of a user. -/
inductive Event (C φ : Type) where
  /-- The next statement of `probe` or `remove`; `ok` says whether what it asks
  for is there. -/
  | core (ok : Bool)
  | openFile (f : φ)
  | call (c : C)
  deriving DecidableEq, Repr

namespace Binding

variable {C φ : Type}

/-- Before `probe`. -/
def start (line : Bool) : Binding C φ where
  core := .kzalloc
  held := {}
  active := 0
  opened _ := false
  line := line
  stage _ := .waiting
  holder _ := none

/-- The next statement of `pl_reset_probe` or `pl_reset_remove`. -/
def advance (ok : Bool) (b : Binding C φ) : Binding C φ :=
  match b.core with
  | .kzalloc =>
      if ok then { b with held.memory := true, core := .setDrvdata }
      else { b with core := .devresRelease }
  | .setDrvdata => { b with held.drvdata := true, core := .gpiodGet }
  | .gpiodGet =>
      -- `GPIOD_OUT_LOW`; what is assigned on failure is not the null pointer
      if ok then
        { b with held.gpiod := .desc, held.requested := true, line := false, core := .createFile }
      else { b with held.gpiod := .errPtr, core := .devresRelease }
  | .createFile =>
      if ok then { b with held.attr := true, core := .bound }
      else { b with core := .devresRelease }
  | .bound => { b with held.attr := false, core := .drain }
  | .drain => if b.active = 0 then { b with core := .devresRelease } else b
  | .devresRelease =>
      { b with
        held := { b.held with
          requested := false, gpiod := .null, memory := false, drvdata := false }
        core := .released }
  | .released => b

/-- What `reset_store` works on: `ready` is the outcome of its check. -/
def driver (b : Binding C φ) : PlReset C φ where
  ready := b.held.drvdata && decide (b.held.gpiod ≠ .null)
  line := b.line
  stage := b.stage
  holder := b.holder

/-- The call is made through a file that is open and free. -/
def Arrives (file : C → φ) (b : Binding C φ) (c : C) : Prop :=
  b.stage c = .waiting ∧ b.opened (file c) = true ∧ b.holder (file c) = none

section Step

variable [DecidableEq C] [DecidableEq φ] (file : C → φ) (count : C → Nat) (b : Binding C φ)

instance (c : C) : Decidable (b.Arrives file c) := inferInstanceAs (Decidable (_ ∧ _ ∧ _))

/-- A call takes its next step.  The kernel lets it in as long as the attribute
is there. -/
def callStep (c : C) : Binding C φ :=
  if (b.stage c).Inside then
    let t := b.driver.step file count c
    { b with
      line := t.line
      stage := t.stage
      holder := t.holder
      active := if (t.stage c).Inside then b.active else b.active - 1 }
  else if b.Arrives file c then
    if b.held.attr then
      { b with
        stage := fun x => if x = c then .entered else b.stage x
        holder := fun f => if f = file c then some c else b.holder f
        active := b.active + 1 }
    else { b with stage := fun x => if x = c then .returned (-ENODEV) else b.stage x }
  else b

/-- One event.  A file can be opened as long as the attribute is there. -/
def step : Event C φ → Binding C φ
  | .core ok => b.advance ok
  | .openFile f =>
      if b.held.attr then { b with opened := fun x => if x = f then true else b.opened x } else b
  | .call c => b.callStep file count c

/-- The call that takes a step in `reset_store`, or is let in. -/
def reaches : Event C φ → List C
  | .core _ => []
  | .openFile _ => []
  | .call c =>
      if (b.stage c).Inside ∨ (b.Arrives file c ∧ b.held.attr = true) then [c] else []

end Step

end Binding

/-! ## What a binding holds -/

/-- A binding with everything that `reset_store` uses. -/
def Held.bound (attr : Bool) : Held where
  memory := true
  drvdata := true
  gpiod := .desc
  requested := true
  attr := attr

/-- What a binding can hold before a statement. -/
def CoreStage.Holds (held : Held) : CoreStage → Prop
  | .kzalloc => held = {}
  | .setDrvdata => held = { memory := true }
  | .gpiodGet => held = { memory := true, drvdata := true }
  | .createFile => held = .bound false
  | .bound => held = .bound true
  | .drain => held = .bound false
  | .devresRelease => held.attr = false
  | .released => held = {}

namespace Binding

variable {C φ : Type} {b : Binding C φ}

/-- Every statement requests or undoes the right thing. -/
theorem holds_advance (h : b.core.Holds b.held) (ok : Bool) :
    (b.advance ok).core.Holds (b.advance ok).held := by
  obtain ⟨core, held, active, opened, line, stage, holder⟩ := b
  cases core with
  | drain =>
      obtain rfl : held = .bound false := h
      simp only [advance]
      split <;> rfl
  | devresRelease =>
      obtain ⟨memory, drvdata, gpiod, requested, attr⟩ := held
      obtain rfl : attr = false := h
      rfl
  | released => exact h
  | _ =>
      obtain rfl := h
      cases ok <;> rfl

/-- The driver core leaves the calls alone. -/
theorem advance_calls (b : Binding C φ) (ok : Bool) :
    (b.advance ok).stage = b.stage ∧ (b.advance ok).holder = b.holder ∧
      (b.advance ok).active = b.active := by
  unfold advance
  cases b.core with
  | drain => dsimp only; split <;> exact ⟨rfl, rfl, rfl⟩
  | setDrvdata | bound | devresRelease | released => exact ⟨rfl, rfl, rfl⟩
  | kzalloc | gpiodGet | createFile => cases ok <;> exact ⟨rfl, rfl, rfl⟩

/-- The driver core drives the line when it requests the GPIO, and at no other
time. -/
theorem advance_line (b : Binding C φ) (ok : Bool) :
    (b.core = .gpiodGet ∧ (b.advance ok).line = false) ∨
      ((b.advance ok).line = b.line ∧
        ((b.advance ok).held.requested = true → b.held.requested = true)) := by
  unfold advance
  cases hcore : b.core with
  | drain => dsimp only; split <;> exact Or.inr ⟨rfl, id⟩
  | gpiodGet =>
      cases ok with
      | true => exact Or.inl ⟨rfl, rfl⟩
      | false => exact Or.inr ⟨rfl, id⟩
  | setDrvdata | bound | released => exact Or.inr ⟨rfl, id⟩
  | devresRelease => exact Or.inr ⟨rfl, fun h => absurd h Bool.false_ne_true⟩
  | kzalloc | createFile => cases ok <;> exact Or.inr ⟨rfl, id⟩

/-- `probe` is not called again. -/
theorem probing_of_advance (b : Binding C φ) (ok : Bool) (h : (b.advance ok).core.Probing) :
    b.core.Probing := by
  unfold advance at h
  cases hcore : b.core with
  | kzalloc | setDrvdata | gpiodGet | createFile => trivial
  | drain =>
      simp only [hcore] at h
      split at h
      · exact h
      · rw [hcore] at h
        exact h
  | bound | devresRelease =>
      simp only [hcore] at h
      exact h
  | released =>
      simp only [hcore] at h
      exact h

/-- While the GPIO is requested, `reset_store` finds what it checks. -/
theorem driver_ready {attr : Bool} (h : b.held = .bound attr) : b.driver.ready = true := by
  show (b.held.drvdata && decide (b.held.gpiod ≠ .null)) = true
  rw [h]
  rfl

end Binding

/-! ## The calls of a binding -/

section Calls

variable {C φ : Type} [DecidableEq C] [DecidableEq φ]

/-- The calls of the binding `b`, against the device `t` of the calls alone. -/
structure RunsAs (file : C → φ) (count : C → Nat) (b : Binding C φ) (t : PlReset C φ) : Prop where
  settled : t.Settled file count
  holds : b.core.Holds b.held
  /-- A call that is refused is none for the device. -/
  stage : ∀ x, b.stage x = t.stage x ∨ (b.stage x = .returned (-ENODEV) ∧ t.stage x = .waiting)
  holder : b.holder = t.holder
  counted : ∃ l : Finset C, l.card = b.active ∧ ∀ x, x ∈ l ↔ (b.stage x).Inside
  inside : ∀ x, (b.stage x).Inside → b.core = .bound ∨ b.core = .drain
  probing : b.core.Probing → t = probed
  line : (b.held.requested = true ∨ ∃ x, t.stage x ≠ .waiting) → t.line = b.line

variable {file : C → φ} {count : C → Nat} {b : Binding C φ} {t : PlReset C φ} {c : C}

omit [DecidableEq C] [DecidableEq φ] in
theorem runsAs_start (line : Bool) : RunsAs file count (.start line) (probed : PlReset C φ) where
  settled := PlReset.settled_probed file count
  holds := rfl
  stage _ := Or.inl rfl
  holder := rfl
  counted := ⟨∅, rfl, fun x => iff_of_false (Finset.notMem_empty x) id⟩
  inside _ h := absurd h id
  probing _ := rfl
  line h := by
    rcases h with hrequested | ⟨x, hx⟩
    · exact absurd hrequested Bool.false_ne_true
    · exact absurd rfl hx

namespace RunsAs

omit [DecidableEq C] [DecidableEq φ] in
/-- A call that is inside is so for the device. -/
theorem stage_of_inside (h : RunsAs file count b t) (hc : (b.stage c).Inside) :
    t.stage c = b.stage c := by
  rcases h.stage c with hsame | ⟨hrefused, -⟩
  · exact hsame.symm
  · rw [hrefused] at hc
    exact absurd hc id

omit [DecidableEq C] [DecidableEq φ] in
theorem inside_iff (h : RunsAs file count b t) (x : C) :
    (t.stage x).Inside ↔ (b.stage x).Inside := by
  rcases h.stage x with hsame | ⟨hrefused, hwaiting⟩
  · rw [hsame]
  · rw [hrefused, hwaiting]
    exact Iff.rfl

omit [DecidableEq C] [DecidableEq φ] in
/-- As long as a call is inside, all is there that it uses. -/
theorem held_of_inside (h : RunsAs file count b t) (hc : (b.stage c).Inside) :
    ∃ attr, b.held = .bound attr := by
  have hholds := h.holds
  rcases h.inside c hc with hcore | hcore
  · rw [hcore] at hholds
    exact ⟨true, hholds⟩
  · rw [hcore] at hholds
    exact ⟨false, hholds⟩

omit [DecidableEq C] [DecidableEq φ] in
/-- When the kernel counts no call, none is inside. -/
theorem not_inside (h : RunsAs file count b t) (hactive : b.active = 0) (x : C) :
    ¬ (b.stage x).Inside := by
  obtain ⟨l, hcard, hmem⟩ := h.counted
  have hnone : l = ∅ := Finset.card_eq_zero.mp (hcard.trans hactive)
  rw [← hmem x, hnone]
  exact Finset.notMem_empty x

omit [DecidableEq C] [DecidableEq φ] in
/-- A statement of the driver core. -/
theorem advance (h : RunsAs file count b t) (ok : Bool) :
    RunsAs file count (b.advance ok) t := by
  obtain ⟨hstage, hholder, hactive⟩ := b.advance_calls ok
  refine ⟨h.settled, Binding.holds_advance h.holds ok, ?_, ?_, ?_, ?_, ?_, ?_⟩
  · rw [hstage]
    exact h.stage
  · rw [hholder]
    exact h.holder
  · rw [hstage, hactive]
    exact h.counted
  · intro x hx
    rw [hstage] at hx
    rcases h.inside x hx with hcore | hcore
    · right
      simp only [Binding.advance, hcore]
    · have hbusy : b.active ≠ 0 := fun hzero => h.not_inside hzero x hx
      right
      simp only [Binding.advance, hcore, if_neg hbusy]
  · intro hprobing
    exact h.probing (b.probing_of_advance ok hprobing)
  · intro hline
    rcases b.advance_line ok with ⟨hcore, hlow⟩ | ⟨hsame, hrequested⟩
    · have hprobed := h.probing (by rw [hcore]; trivial)
      rw [hlow, hprobed]
      rfl
    · rw [hsame]
      exact h.line (hline.imp_left hrequested)

omit [DecidableEq C] [DecidableEq φ] in
/-- A call that is refused. -/
theorem refuse [DecidableEq C] (h : RunsAs file count b t) (hc : b.stage c = .waiting) :
    RunsAs file count
      { b with stage := fun x => if x = c then .returned (-ENODEV) else b.stage x } t := by
  have hwaiting : t.stage c = .waiting := by
    rcases h.stage c with hsame | ⟨-, hwaiting⟩
    · rw [← hsame, hc]
    · exact hwaiting
  have hinside : ∀ x, ((if x = c then .returned (-ENODEV) else b.stage x) : Stage).Inside ↔
      (b.stage x).Inside := by
    intro x
    split
    · rename_i hxc
      rw [hxc, hc]
      exact Iff.rfl
    · exact Iff.rfl
  refine ⟨h.settled, h.holds, ?_, h.holder, ?_, ?_, h.probing, h.line⟩
  · intro x
    by_cases hxc : x = c
    · rw [hxc]
      exact Or.inr ⟨if_pos rfl, hwaiting⟩
    · dsimp only
      rw [if_neg hxc]
      exact h.stage x
  · obtain ⟨l, hcard, hmem⟩ := h.counted
    exact ⟨l, hcard, fun x => (hmem x).trans (hinside x).symm⟩
  · intro x hx
    exact h.inside x ((hinside x).mp hx)

omit [DecidableEq C] [DecidableEq φ] in
/-- The attribute is there only between `probe` and `remove`. -/
theorem core_of_attr (h : RunsAs file count b t) (hattr : b.held.attr = true) :
    b.core = .bound := by
  have hholds := h.holds
  cases hcore : b.core with
  | bound => rfl
  | devresRelease =>
      rw [hcore] at hholds
      exact absurd (hattr.symm.trans hholds) Bool.noConfusion
  | _ =>
      rw [hcore] at hholds
      rw [hholds] at hattr
      exact absurd hattr Bool.false_ne_true

/-- A call that is let in. -/
theorem enter (h : RunsAs file count b t) (hc : b.Arrives file c) (hattr : b.held.attr = true) :
    RunsAs file count
      { b with
        stage := fun x => if x = c then .entered else b.stage x
        holder := fun f => if f = file c then some c else b.holder f
        active := b.active + 1 } (t.step file count c) := by
  obtain ⟨hwaiting, -, hfree⟩ := hc
  have hcore := h.core_of_attr hattr
  have hout : ¬ (b.stage c).Inside := by
    rw [hwaiting]
    exact id
  have hstage : t.stage c = .waiting := by
    rcases h.stage c with hsame | ⟨-, hsame⟩
    · rw [← hsame, hwaiting]
    · exact hsame
  have hfree' : t.holder (file c) = none := by rw [← h.holder, hfree]
  have hnext : t.nextStage file count c = .entered := by
    simp only [PlReset.nextStage, hstage, if_pos hfree']
  refine ⟨h.settled.step, h.holds, ?_, ?_, ?_, fun _ _ => Or.inl hcore, ?_, ?_⟩
  · intro x
    by_cases hxc : x = c
    · rw [hxc, PlReset.stage_step_self, hnext]
      exact Or.inl (if_pos rfl)
    · rw [PlReset.stage_step_of_ne hxc]
      dsimp only
      rw [if_neg hxc]
      exact h.stage x
  · show _ = t.nextHolder file c
    simp only [PlReset.nextHolder, hstage, if_pos hfree', h.holder]
  · obtain ⟨l, hcard, hmem⟩ := h.counted
    refine ⟨insert c l, ?_, fun x => ?_⟩
    · rw [Finset.card_insert_of_notMem fun hin => hout ((hmem c).mp hin), hcard]
    · rw [Finset.mem_insert, hmem x]
      by_cases hxc : x = c
      · dsimp only
        rw [if_pos hxc]
        exact iff_of_true (Or.inl hxc) trivial
      · dsimp only
        rw [if_neg hxc, or_iff_right hxc]
  · intro hprobing
    dsimp only at hprobing
    rw [hcore] at hprobing
    exact absurd hprobing id
  · intro _
    have hholds := h.holds
    rw [hcore] at hholds
    have hrequested : b.held.requested = true := by
      rw [hholds]
      rfl
    show t.nextLine c = b.line
    rw [PlReset.nextLine_of_ne (by simp [hstage]) (by simp [hstage])]
    exact h.line (Or.inl hrequested)

/-- A step in `reset_store`. -/
theorem storeStep (h : RunsAs file count b t) (hc : (b.stage c).Inside) :
    RunsAs file count
      { b with
        line := (b.driver.step file count c).line
        stage := (b.driver.step file count c).stage
        holder := (b.driver.step file count c).holder
        active := if ((b.driver.step file count c).stage c).Inside then b.active
          else b.active - 1 } (t.step file count c) := by
  obtain ⟨attr, hheld⟩ := h.held_of_inside hc
  have hrequested : b.held.requested = true := by
    rw [hheld]
    rfl
  have hline := h.line (Or.inl hrequested)
  have hstage : t.stage c = b.driver.stage c := h.stage_of_inside hc
  have hready : t.ready = b.driver.ready := h.settled.ready.trans (Binding.driver_ready hheld).symm
  have hholder : t.holder = b.driver.holder := h.holder.symm
  have hnext : b.driver.nextStage file count c = t.nextStage file count c := by
    simp only [PlReset.nextStage, hstage, hready, hholder]
  have hself : (b.driver.step file count c).stage c = t.nextStage file count c :=
    PlReset.stage_step_self.trans hnext
  refine ⟨h.settled.step, h.holds, ?_, ?_, ?_, ?_, ?_, ?_⟩
  · intro x
    by_cases hxc : x = c
    · rw [hxc]
      exact Or.inl (hself.trans PlReset.stage_step_self.symm)
    · rw [PlReset.stage_step_of_ne hxc]
      dsimp only
      rw [PlReset.stage_step_of_ne hxc]
      exact h.stage x
  · show b.driver.nextHolder file c = t.nextHolder file c
    simp only [PlReset.nextHolder, hstage, hready, hholder]
  · obtain ⟨l, hcard, hmem⟩ := h.counted
    have hin : c ∈ l := (hmem c).mpr hc
    dsimp only
    split
    · rename_i hstill
      refine ⟨l, hcard, fun x => ?_⟩
      by_cases hxc : x = c
      · rw [hxc]
        exact iff_of_true hin hstill
      · rw [PlReset.stage_step_of_ne hxc]
        exact hmem x
    · rename_i hleft
      refine ⟨l.erase c, ?_, fun x => ?_⟩
      · rw [Finset.card_erase_of_mem hin, hcard]
      · by_cases hxc : x = c
        · rw [hxc]
          exact iff_of_false (Finset.notMem_erase c l) hleft
        · rw [PlReset.stage_step_of_ne hxc, Finset.mem_erase]
          exact (and_iff_right hxc).trans (hmem x)
  · intro _ _
    exact h.inside c hc
  · intro hprobing
    dsimp only at hprobing
    rcases h.inside c hc with hcore | hcore
    · rw [hcore] at hprobing
      exact absurd hprobing id
    · rw [hcore] at hprobing
      exact absurd hprobing id
  · intro _
    show t.nextLine c = b.driver.nextLine c
    have hline' : t.line = b.driver.line := hline
    simp only [PlReset.nextLine, hstage, hready, hline']

/-- One event. -/
theorem step (h : RunsAs file count b t) (e : Event C φ) :
    RunsAs file count (b.step file count e)
      (Machine.run (PlReset.step file count) t (b.reaches file e)) := by
  cases e with
  | core ok => exact h.advance ok
  | openFile f =>
      simp only [Binding.step, Binding.reaches]
      split
      · exact ⟨h.settled, h.holds, h.stage, h.holder, h.counted, h.inside, h.probing, h.line⟩
      · exact h
  | call c =>
      simp only [Binding.step, Binding.reaches, Binding.callStep]
      by_cases hinside : (b.stage c).Inside
      · rw [if_pos hinside, if_pos (Or.inl hinside)]
        exact h.storeStep hinside
      · rw [if_neg hinside]
        by_cases harrives : b.Arrives file c
        · rw [if_pos harrives]
          by_cases hattr : b.held.attr = true
          · rw [if_pos hattr, if_pos (Or.inr ⟨harrives, hattr⟩)]
            exact h.enter harrives hattr
          · rw [if_neg hattr, if_neg (not_or.mpr ⟨hinside, fun hboth => hattr hboth.2⟩)]
            exact h.refuse harrives.1
        · rw [if_neg harrives, if_neg (not_or.mpr ⟨hinside, fun hboth => harrives hboth.1⟩)]
          exact h

omit [DecidableEq C] [DecidableEq φ] in
/-- Of the calls that have returned, the device has served those that did not
fail. -/
theorem returned_iff (h : RunsAs file count b t) {ret : Int} (hc : b.stage c = .returned ret) :
    0 ≤ ret ↔ t.stage c = .returned (count c) := by
  rcases h.stage c with hsame | ⟨hrefused, hwaiting⟩
  · have hstage : t.stage c = .returned ret := hsame.symm.trans hc
    have hret := h.settled.ret c ret hstage
    rw [hstage, hret]
    exact iff_of_true (Int.natCast_nonneg _) rfl
  · have hret : -ENODEV = ret := Stage.returned.inj (hrefused.symm.trans hc)
    rw [hwaiting, ← hret]
    exact iff_of_false (by decide) Stage.noConfusion

end RunsAs

/-- In every interleaving of the driver core and the users, and whatever fails:
the structure, the driver data and the GPIO are there as long as a call is
inside, so no call returns `EINVAL`; the calls that are let in, and the line,
are those of the device `PlReset`, and `reset_pl` reports success for these calls
and no others; and a binding that is gone holds nothing, has no call inside, and
has left the line high if a call has returned.  It is the kernel's part that
`device_remove_file` refuses new calls with `ENODEV` and waits for those inside,
and that what is managed is released only then. -/
theorem binding_keeps_calls (file : C → φ) (count : C → Nat) (line : Bool)
    (events : List (Event C φ)) :
    let b := Machine.run (Binding.step file count) (.start line) events
    let t := Machine.run (PlReset.step file count) probed
      (Machine.coarse (Binding.step file count) (Binding.reaches file) (.start line) events)
    (∀ x, (b.stage x).Inside → ∃ attr, b.held = .bound attr) ∧
      (∀ x ret, b.stage x = .returned ret → ret = count x ∨ ret = -ENODEV) ∧
      (∀ x, b.stage x = t.stage x ∨ (b.stage x = .returned (-ENODEV) ∧ t.stage x = .waiting)) ∧
      (∀ x ret fd, b.stage x = .returned ret → 0 ≤ fd →
        (resetPl fd ret = .PL_RESET_ERR_NONE ↔ t.stage x = .returned (count x))) ∧
      ((∃ x, t.stage x ≠ .waiting) → t.line = b.line) ∧
      (b.core = .released →
        b.held = {} ∧ (∀ x, ¬ (b.stage x).Inside) ∧
          ((∃ x, b.stage x = .returned (count x)) → b.line = true)) := by
  intro b t
  have hrun : RunsAs file count b t :=
    Machine.related_run (R := RunsAs file count) (P := fun _ _ => True)
      (fun _ _ e _ h => h.step e) (runsAs_start line)
      (Machine.along_iff_forall_split.mpr fun _ _ _ _ => trivial)
  have hret : ∀ x ret, b.stage x = .returned ret → ret = count x ∨ ret = -ENODEV := by
    intro x ret hx
    rcases hrun.stage x with hsame | ⟨hrefused, -⟩
    · exact Or.inl (hrun.settled.ret x ret (hsame ▸ hx))
    · rw [hrefused] at hx
      exact Or.inr (Stage.returned.inj hx).symm
  refine ⟨fun x => hrun.held_of_inside, hret, hrun.stage, fun x ret fd hx hfd => ?_,
    fun hsome => hrun.line (Or.inr hsome), fun hreleased => ?_⟩
  · rw [resetPl_eq_none, ← hrun.returned_iff hx]
    exact and_iff_right hfd
  have hholds := hrun.holds
  rw [hreleased] at hholds
  have hnone : ∀ x, ¬ (b.stage x).Inside := by
    intro x hx
    rcases hrun.inside x hx with hcore | hcore
    · exact CoreStage.noConfusion (hreleased.symm.trans hcore)
    · exact CoreStage.noConfusion (hreleased.symm.trans hcore)
  refine ⟨hholds, hnone, fun hsome => ?_⟩
  obtain ⟨x, hx⟩ := hsome
  have hserved := (hrun.returned_iff hx).mp (Int.natCast_nonneg _)
  have hbegun : t.stage x ≠ .waiting := by
    simp [hserved]
  rw [← hrun.line (Or.inr ⟨x, hbegun⟩)]
  refine hrun.settled.high (fun y hy => hnone y ?_) ⟨x, by rw [hserved]; trivial⟩
  exact (hrun.inside_iff y).mp hy.inside

/-! ## A binding comes to its end -/

/-- The statements that are still ahead. -/
def CoreStage.ahead : CoreStage → ℕ
  | .kzalloc => 7
  | .setDrvdata => 6
  | .gpiodGet => 5
  | .createFile => 4
  | .bound => 3
  | .drain => 2
  | .devresRelease => 1
  | .released => 0

namespace Binding

/-- The driver core has nothing to do: it waits for a call, or the binding is
gone. -/
def Rests (b : Binding C φ) : Prop := b.core = .released ∨ (b.core = .drain ∧ b.active ≠ 0)

omit [DecidableEq C] [DecidableEq φ] in
theorem core_advance (b : Binding C φ) (ok : Bool) :
    (b.Rests ∧ b.advance ok = b) ∨
      ((b.advance ok).core.ahead < b.core.ahead ∧ (b.advance ok).opened = b.opened) := by
  obtain ⟨core, held, active, opened, line, stage, holder⟩ := b
  cases core with
  | released => exact Or.inl ⟨Or.inl rfl, rfl⟩
  | drain =>
      by_cases hactive : active = 0
      · refine Or.inr ?_
        simp only [advance, if_pos hactive]
        exact ⟨Nat.lt_succ_self 1, trivial⟩
      · refine Or.inl ⟨Or.inr ⟨rfl, hactive⟩, ?_⟩
        simp only [advance, if_neg hactive]
  | setDrvdata | bound | devresRelease => exact Or.inr ⟨Nat.lt_succ_self _, rfl⟩
  | kzalloc | gpiodGet | createFile =>
      refine Or.inr ?_
      cases ok with
      | true => exact ⟨Nat.lt_succ_self _, rfl⟩
      | false => exact ⟨by simp [advance, CoreStage.ahead], rfl⟩

omit [DecidableEq C] [DecidableEq φ] in
/-- A call that is inside comes one step closer to its end. -/
theorem ahead_storeStep {file : C → φ} {count : C → Nat} {b : Binding C φ}
    {attr : Bool} {c : C} (hheld : b.held = .bound attr) (hc : (b.stage c).Inside) :
    (b.driver.nextStage file count c).ahead < (b.stage c).ahead :=
  PlReset.ahead_nextStage_lt (driver_ready hheld) (PlReset.canGo_of_inside hc)

section Fintype

variable [Fintype C] [Fintype φ]

/-- What the driver core and the calls have ahead, and the files that have not
been opened. -/
def ahead (b : Binding C φ) : ℕ :=
  b.core.ahead + ∑ x, (b.stage x).ahead + ∑ f, if b.opened f then 0 else 1

/-- A step that changes the binding brings it closer to its end. -/
theorem step_eq_or_ahead_lt {file : C → φ} {count : C → Nat} {b : Binding C φ} {t : PlReset C φ}
    (h : RunsAs file count b t) (e : Event C φ) :
    b.step file count e = b ∨ (b.step file count e).ahead < b.ahead := by
  cases e with
  | core ok =>
      rcases b.core_advance ok with ⟨-, hsame⟩ | ⟨hlt, hopened⟩
      · exact Or.inl hsame
      · refine Or.inr ?_
        show (b.advance ok).ahead < b.ahead
        unfold ahead
        rw [(b.advance_calls ok).1, hopened]
        omega
  | openFile f =>
      simp only [step]
      split
      · by_cases hopened : b.opened f = true
        · left
          have hsame : (fun x => if x = f then true else b.opened x) = b.opened := by
            funext x
            split
            · rename_i hx
              rw [hx, hopened]
            · rfl
          rw [hsame]
        · refine Or.inr (Nat.add_lt_add_left (Machine.sum_lt_of_step f ?_ fun x hx => ?_) _)
          · simp [hopened]
          · simp only [if_neg hx]
      · exact Or.inl rfl
  | call c =>
      have hcall : ∀ b' : Binding C φ, b'.core = b.core → b'.opened = b.opened →
          (b'.stage c).ahead < (b.stage c).ahead → (∀ x, x ≠ c → b'.stage x = b.stage x) →
          b'.ahead < b.ahead := by
        intro b' hcore hopened hlt hother
        have hsum : ∑ x, (b'.stage x).ahead < ∑ x, (b.stage x).ahead :=
          Machine.sum_lt_of_step c hlt fun x hx => by rw [hother x hx]
        unfold ahead
        rw [hcore, hopened]
        omega
      simp only [step, callStep]
      split
      · rename_i hinside
        obtain ⟨attr, hheld⟩ := h.held_of_inside hinside
        refine Or.inr (hcall _ rfl rfl ?_ fun x hx => PlReset.stage_step_of_ne hx)
        have hself : (b.driver.step file count c).stage c = _ := PlReset.stage_step_self
        dsimp only
        rw [hself]
        exact ahead_storeStep hheld hinside
      · split
        · rename_i harrives
          split
          · refine Or.inr (hcall _ rfl rfl ?_ fun x hx => if_neg hx)
            dsimp only
            rw [if_pos rfl, harrives.1]
            exact Nat.lt_succ_self 4
          · refine Or.inr (hcall _ rfl rfl ?_ fun x hx => if_neg hx)
            dsimp only
            rw [if_pos rfl, harrives.1]
            exact Nat.succ_pos 4
        · exact Or.inl rfl

end Fintype

end Binding

/-- As long as the driver core goes on, and with every call that is made, a
binding comes to its end: `device_remove_file`, which lets no new call in,
returns, whatever the users do. -/
theorem binding_released [Fintype C] [Fintype φ] (file : C → φ) (count : C → Nat) (line : Bool)
    {turns : ℕ → Event C φ} (hcore : ∀ n, ∃ m, n ≤ m ∧ ∃ ok, turns m = .core ok)
    (hcalls : ∀ c n, ∃ m, n ≤ m ∧ turns m = .call c) :
    ∃ n, ∀ m, n ≤ m →
      (Machine.run (Binding.step file count) (.start line) (Machine.upTo turns m)).core =
        .released := by
  have hprogress : ∀ b : Binding C φ, (∃ t, RunsAs file count b t) → ¬ b.core = .released →
      ∃ kind : Event C φ → Prop, (∀ n, ∃ m, n ≤ m ∧ kind (turns m)) ∧
        ∀ e, kind e → b.step file count e ≠ b := by
    rintro b ⟨t, h⟩ hmore
    by_cases hwait : b.core = .drain ∧ b.active ≠ 0
    · -- The kernel counts a call, and the call can go on.
      obtain ⟨l, hcard, hmem⟩ := h.counted
      obtain ⟨c, hc⟩ : l.Nonempty := by
        rw [← Finset.card_ne_zero, hcard]
        exact hwait.2
      have hinside := (hmem c).mp hc
      obtain ⟨attr, hheld⟩ := h.held_of_inside hinside
      refine ⟨fun e => e = .call c, hcalls c, ?_⟩
      rintro e rfl heq
      have hlt : (b.driver.nextStage file count c).ahead < (b.stage c).ahead :=
        Binding.ahead_storeStep hheld hinside
      have hstage : (b.step file count (.call c)).stage c = b.driver.nextStage file count c := by
        simp only [Binding.step, Binding.callStep, if_pos hinside]
        exact PlReset.stage_step_self
      rw [← hstage, heq] at hlt
      exact Nat.lt_irrefl _ hlt
    · refine ⟨fun e => ∃ ok, e = .core ok, hcore, ?_⟩
      rintro e ⟨ok, rfl⟩ heq
      rcases b.core_advance ok with ⟨hrests, -⟩ | ⟨hlt, -⟩
      · exact hrests.elim hmore hwait
      · have heq' : b.advance ok = b := heq
        rw [heq'] at hlt
        exact Nat.lt_irrefl _ hlt
  have hvariant : ∀ (b : Binding C φ) (e : Event C φ), (∃ t, RunsAs file count b t) →
      b.step file count e = b ∨ (b.step file count e).ahead < b.ahead :=
    fun b e h => Binding.step_eq_or_ahead_lt h.choose_spec e
  have hstays : ∀ (b : Binding C φ) (e : Event C φ), b.core = .released →
      (b.step file count e).core = .released := by
    intro b e hgone
    cases e with
    | core ok =>
        show (b.advance ok).core = .released
        simp only [Binding.advance, hgone]
    | openFile f =>
        simp only [Binding.step]
        split <;> exact hgone
    | call c =>
        simp only [Binding.step, Binding.callStep]
        split
        · exact hgone
        · split
          · split <;> exact hgone
          · exact hgone
  obtain ⟨n, -, hn⟩ := Machine.eventually_of_variant (fun _ e h => ⟨_, h.choose_spec.step e⟩)
    hvariant hprogress ⟨probed, runsAs_start line⟩ 0
  exact ⟨n, fun m hnm => Machine.stays_upTo hstays hnm hn⟩

/-- One user writes through one file, with a turn for the driver core, for the
file and for the call by turns. -/
theorem binding_released_one :
    ∃ n, ∀ m, n ≤ m →
      (Machine.run (Binding.step id fun _ => 1) (.start false)
        (Machine.upTo (fun n => if n % 3 = 0 then Event.core true
          else if n % 3 = 1 then .openFile () else .call ()) m)).core = .released := by
  refine binding_released id (fun _ => 1) false (fun n => ⟨3 * n, by omega, true, ?_⟩)
    fun c n => ⟨3 * n + 2, by omega, ?_⟩
  · rw [if_pos (by omega)]
  · rw [if_neg (by omega), if_neg (by omega)]

end Calls

end RlsMini.Reset
