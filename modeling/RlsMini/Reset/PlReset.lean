import RlsMini.Lib.Machine

/-!
# The reset line

`pl_reset.c`: a write to the attribute `reset` drives the line low, sleeps, and
drives it high again.  The kernel makes the writes through one open file one
after another.  The driver has no lock of its own, and `reset_pl` opens a file
for every call, so calls of different users are in their steps at the same
time.

A schedule is the order in which calls take their steps.  Any number of calls
may be under way; `C` names them, and `file` is the open file of each.
-/

namespace RlsMini.Reset

def EINVAL : Int := 22

/-- Where a call of `reset_store` stands. -/
inductive Stage where
  | waiting
  | entered
  | low
  | slept
  | high
  | returned (ret : Int)
  deriving DecidableEq, Repr

/-- The call has driven the line low and has not yet driven it high. -/
def Stage.Pulses : Stage → Prop
  | .low | .slept => True
  | .waiting | .entered | .high | .returned _ => False

/-- The call has its open file to itself. -/
def Stage.Inside : Stage → Prop
  | .entered | .low | .slept | .high => True
  | .waiting | .returned _ => False

/-- The call is done with the line. -/
def Stage.Served : Stage → Prop
  | .high | .returned _ => True
  | .waiting | .entered | .low | .slept => False

theorem Stage.Pulses.inside {stage : Stage} (h : stage.Pulses) : stage.Inside := by
  cases stage with
  | low => trivial
  | slept => trivial
  | _ => exact absurd h id

/-- The device, the calls, and the call that each open file is in. -/
structure PlReset (C φ : Type) where
  /-- `priv` and `priv->reset_gpiod` are set. -/
  ready : Bool
  line : Bool
  stage : C → Stage
  holder : φ → Option C

/-- The device after a successful `pl_reset_probe`: the line is an output and
low. -/
def probed {C φ : Type} : PlReset C φ where
  ready := true
  line := false
  stage _ := .waiting
  holder _ := none

namespace PlReset

/-! ## What should hold -/

section Whole

variable {C φ : Type} (s : PlReset C φ) (c : C)

/-- The line is low as long as a call means it to be. -/
def PulsesWhole : Prop := ∀ x, (s.stage x).Pulses → s.line = false

/-- When all calls that have begun have returned, the line is high. -/
def HighAtRest : Prop :=
  (∀ x, s.stage x = .waiting ∨ ∃ ret, s.stage x = .returned ret) →
    (∃ x ret, s.stage x = .returned ret) → s.line = true

/-- A call that is about to drive the line high is the only one that has driven
it low. -/
def Alone : Prop := s.stage c = .slept → ∀ x, x ≠ c → ¬ (s.stage x).Pulses

/-- When no call holds the line low, it is as the last one has left it. -/
def LeftHigh : Prop :=
  (∀ x, ¬ (s.stage x).Pulses) → (∃ x, (s.stage x).Served) → s.line = true

variable {s} in
/-- The calls that return with the line as they have left it. -/
theorem LeftHigh.highAtRest (h : s.LeftHigh) : s.HighAtRest := by
  intro hall hsome
  obtain ⟨x, ret, hx⟩ := hsome
  refine h (fun y => ?_) ⟨x, by rw [hx]; trivial⟩
  rcases hall y with hy | ⟨ret', hy⟩
  · rw [hy]
    exact id
  · rw [hy]
    exact id

/-- Every open file knows the call that is in it. -/
def Held (file : C → φ) : Prop :=
  ∀ x, (s.stage x).Inside → s.holder (file x) = some x

variable {s} in
/-- Through one open file no two calls are in their pulses at a time. -/
theorem Held.eq_of_pulses {file : C → φ} (h : s.Held file) {x y : C} (hfile : file x = file y)
    (hx : (s.stage x).Pulses) (hy : (s.stage y).Pulses) : x = y := by
  have hx' := h x hx.inside
  rw [hfile, h y hy.inside] at hx'
  exact (Option.some.inj hx').symm

end Whole

end PlReset

/-! ## The steps of a call -/

namespace PlReset

section Next

variable {C φ : Type} (file : C → φ) (count : C → Nat) (s : PlReset C φ) (c : C)

/-- The call behind its next step. -/
def nextStage : Stage :=
  match s.stage c with
  | .waiting => if s.holder (file c) = none then .entered else .waiting
  | .entered => if !s.ready then .returned (-EINVAL) else .low
  | .low => .slept
  | .slept => .high
  | .high => .returned (count c)
  | .returned ret => .returned ret

/-- `gpiod_set_value_cansleep`. -/
def nextLine : Bool :=
  match s.stage c with
  | .entered => if !s.ready then s.line else false
  | .slept => true
  | .waiting | .low | .high | .returned _ => s.line

variable {file count s c}

/-- The steps behind which a call holds the line low. -/
theorem pulses_nextStage_iff (hready : s.ready = true) :
    (s.nextStage file count c).Pulses ↔ s.stage c = .entered ∨ s.stage c = .low := by
  cases hstage : s.stage c with
  | waiting =>
      simp only [nextStage, hstage]
      split <;> simp [Stage.Pulses]
  | entered => simp [nextStage, hstage, hready, Stage.Pulses]
  | _ => simp [nextStage, hstage, Stage.Pulses]

/-- A call that is done with the line was so before, or has just driven it
high. -/
theorem served_nextStage (hready : s.ready = true) (h : (s.nextStage file count c).Served) :
    (s.stage c).Served ∨ s.stage c = .slept := by
  cases hstage : s.stage c with
  | waiting =>
      simp only [nextStage, hstage] at h
      split at h <;> exact absurd h id
  | entered =>
      simp only [nextStage, hstage, hready] at h
      exact absurd h id
  | low =>
      simp only [nextStage, hstage] at h
      exact absurd h id
  | slept => exact Or.inr rfl
  | high => exact Or.inl trivial
  | returned ret => exact Or.inl trivial

theorem nextLine_of_entered (hready : s.ready = true) (h : s.stage c = .entered) :
    s.nextLine c = false := by
  simp only [nextLine, h, hready, Bool.not_true, Bool.false_eq_true, if_false]

theorem nextLine_of_slept (h : s.stage c = .slept) : s.nextLine c = true := by
  simp only [nextLine, h]

theorem nextLine_of_ne (hentered : s.stage c ≠ .entered) (hslept : s.stage c ≠ .slept) :
    s.nextLine c = s.line := by
  cases hstage : s.stage c with
  | entered => exact absurd hstage hentered
  | slept => exact absurd hstage hslept
  | _ => simp only [nextLine, hstage]

variable [DecidableEq φ]

variable (file s c) in
/-- The open file is taken when the call begins and given back when it
returns. -/
def nextHolder : φ → Option C :=
  match s.stage c with
  | .waiting =>
      if s.holder (file c) = none then fun f => if f = file c then some c else s.holder f
      else s.holder
  | .entered => if !s.ready then fun f => if f = file c then none else s.holder f else s.holder
  | .high => fun f => if f = file c then none else s.holder f
  | .low | .slept | .returned _ => s.holder

/-- A call that is inside has just taken its open file, or has had it. -/
theorem inside_nextStage (h : (s.nextStage file count c).Inside) :
    s.nextHolder file c (file c) = some c ∨
      ((s.stage c).Inside ∧ s.nextHolder file c = s.holder) := by
  cases hstage : s.stage c with
  | waiting =>
      simp only [nextStage, hstage] at h
      simp only [nextHolder, hstage]
      split at h
      · rename_i hfree
        rw [if_pos hfree]
        exact Or.inl (if_pos rfl)
      · exact absurd h id
  | entered =>
      simp only [nextStage, hstage] at h
      simp only [nextHolder, hstage]
      split at h
      · exact absurd h id
      · rename_i hready
        exact Or.inr ⟨trivial, if_neg hready⟩
  | low => exact Or.inr ⟨trivial, by simp only [nextHolder, hstage]⟩
  | slept => exact Or.inr ⟨trivial, by simp only [nextHolder, hstage]⟩
  | high =>
      simp only [nextStage, hstage] at h
      exact absurd h id
  | returned ret =>
      simp only [nextStage, hstage] at h
      exact absurd h id

/-- Only the file of the call can change hands. -/
theorem nextHolder_of_ne {f : φ} (h : f ≠ file c) : s.nextHolder file c f = s.holder f := by
  cases hstage : s.stage c with
  | waiting =>
      simp only [nextHolder, hstage]
      split
      · exact if_neg h
      · rfl
  | entered =>
      simp only [nextHolder, hstage]
      split
      · exact if_neg h
      · rfl
  | high =>
      simp only [nextHolder, hstage]
      exact if_neg h
  | _ => simp only [nextHolder, hstage]

/-- A call that is not inside leaves a file that is taken. -/
theorem nextHolder_of_not_inside (hout : ¬ (s.stage c).Inside) (htaken : s.holder (file c) ≠ none) :
    s.nextHolder file c = s.holder := by
  cases hstage : s.stage c with
  | waiting =>
      simp only [nextHolder, hstage]
      exact if_neg htaken
  | returned ret => simp only [nextHolder, hstage]
  | _ =>
      rw [hstage] at hout
      exact absurd trivial hout

end Next

end PlReset

section Step

variable {C φ : Type} [DecidableEq C] [DecidableEq φ]

namespace PlReset

variable (file : C → φ) (count : C → Nat) (s : PlReset C φ) (c : C)

/-- A call takes its next step. -/
def step : PlReset C φ where
  ready := s.ready
  line := s.nextLine c
  stage x := if x = c then s.nextStage file count c else s.stage x
  holder := s.nextHolder file c

/-! ## One step -/

variable {file count s c}

theorem stage_step_self : (s.step file count c).stage c = s.nextStage file count c := if_pos rfl

theorem stage_step_of_ne {x : C} (h : x ≠ c) : (s.step file count c).stage x = s.stage x := if_neg h

/-- Every step leaves the line high when no call holds it low. -/
theorem LeftHigh.step (h : s.LeftHigh) (hready : s.ready = true) :
    (s.step file count c).LeftHigh := by
  intro hnone hsome
  have hself := hnone c
  rw [stage_step_self, pulses_nextStage_iff hready, not_or] at hself
  obtain ⟨hentered, hlow⟩ := hself
  show s.nextLine c = true
  by_cases hslept : s.stage c = .slept
  · exact nextLine_of_slept hslept
  · rw [nextLine_of_ne hentered hslept]
    refine h (fun x => ?_) ?_
    · by_cases hx : x = c
      · rw [hx]
        intro hpulses
        cases hstage : s.stage c with
        | low => exact hlow hstage
        | slept => exact hslept hstage
        | _ => rw [hstage] at hpulses; exact hpulses
      · rw [← stage_step_of_ne hx]
        exact hnone x
    · obtain ⟨x, hx⟩ := hsome
      by_cases hxc : x = c
      · rw [hxc, stage_step_self] at hx
        exact ⟨c, (served_nextStage hready hx).resolve_right hslept⟩
      · rw [stage_step_of_ne hxc] at hx
        exact ⟨x, hx⟩

/-- A step of a call that meets the condition keeps the pulses whole. -/
theorem PulsesWhole.step (h : s.PulsesWhole) (hready : s.ready = true) (halone : s.Alone c) :
    (s.step file count c).PulsesWhole := by
  intro x hx
  show s.nextLine c = false
  by_cases hentered : s.stage c = .entered
  · exact nextLine_of_entered hready hentered
  · by_cases hxc : x = c
    · rw [hxc, stage_step_self, pulses_nextStage_iff hready] at hx
      have hlow := hx.resolve_left hentered
      rw [nextLine_of_ne hentered (by rw [hlow]; exact Stage.noConfusion)]
      exact h c (by rw [hlow]; trivial)
    · rw [stage_step_of_ne hxc] at hx
      have hslept : s.stage c ≠ .slept := fun hstage => halone hstage x hxc hx
      rw [nextLine_of_ne hentered hslept]
      exact h x hx

/-- A call that drives the line high while another one holds it low cuts that
pulse short. -/
theorem alone_of_pulsesWhole_step (h : (s.step file count c).PulsesWhole) : s.Alone c := by
  intro hstage x hxc hx
  have hline : s.nextLine c = false := h x (by rw [stage_step_of_ne hxc]; exact hx)
  rw [nextLine_of_slept hstage] at hline
  exact Bool.noConfusion hline

end PlReset

/-- Calls of any number of users: every pulse is whole and the line is high at
rest, wherever the schedule stands, exactly if no call drives the line high
while another one holds it low. -/
theorem reset_pulses_whole_iff (file : C → φ) (count : C → Nat) (schedule : List C) :
    (∀ pre post, schedule = pre ++ post →
        (Machine.run (PlReset.step file count) probed pre).PulsesWhole ∧
          (Machine.run (PlReset.step file count) probed pre).HighAtRest) ↔
      Machine.Along (PlReset.step file count) PlReset.Alone probed schedule := by
  symm
  refine Machine.along_iff_forall_prefix_of
    (I := fun s : PlReset C φ => s.ready = true ∧ s.PulsesWhole ∧ s.LeftHigh)
    (J := fun s : PlReset C φ => s.PulsesWhole ∧ s.HighAtRest) ?_ ?_ ?_ ?_ schedule
  · intro s h
    obtain ⟨-, hwhole, hleft⟩ := h
    exact ⟨hwhole, hleft.highAtRest⟩
  · intro s c h halone
    obtain ⟨hready, hwhole, hleft⟩ := h
    exact ⟨hready, hwhole.step hready halone, hleft.step hready⟩
  · intro s c _ hnext
    exact PlReset.alone_of_pulsesWhole_step hnext.1
  · refine ⟨rfl, fun x hx => absurd hx id, fun _ hsome => ?_⟩
    obtain ⟨x, hx⟩ := hsome
    exact absurd hx id

/-- Two calls through files of their own: the first drives the line high while
the second holds it low. -/
theorem reset_pulse_cut_short :
    (Machine.run (PlReset.step id fun _ => 1) probed
        [false, false, true, true, false, false]).stage true = .low ∧
      (Machine.run (PlReset.step id fun _ => 1) probed
        [false, false, true, true, false, false]).line = true ∧
      ¬ (Machine.run (PlReset.step id fun _ => 1) probed
        [false, false, true, true, false, false]).PulsesWhole := by
  have hstage : (Machine.run (PlReset.step id fun _ => 1) probed
      [false, false, true, true, false, false]).stage true = .low := rfl
  have hline : (Machine.run (PlReset.step id fun _ => 1) probed
      [false, false, true, true, false, false]).line = true := rfl
  refine ⟨hstage, hline, fun hwhole => ?_⟩
  have hlow := hwhole true (by rw [hstage]; trivial)
  rw [hline] at hlow
  exact Bool.noConfusion hlow

/-! ## One open file -/

namespace PlReset

variable {file : C → φ} {count : C → Nat} {s : PlReset C φ} {c : C}

/-- A step of a call keeps the files of the others. -/
theorem Held.step (h : s.Held file) : (s.step file count c).Held file := by
  intro x hx
  show s.nextHolder file c (file x) = some x
  by_cases hxc : x = c
  · rw [hxc, stage_step_self] at hx
    rw [hxc]
    rcases inside_nextStage hx with htaken | ⟨hinside, hkept⟩
    · exact htaken
    · rw [hkept]
      exact h c hinside
  · rw [stage_step_of_ne hxc] at hx
    have hx' := h x hx
    by_cases hfile : file x = file c
    · rw [hfile] at hx' ⊢
      have hout : ¬ (s.stage c).Inside := by
        intro hc
        rw [h c hc] at hx'
        exact hxc (Option.some.inj hx').symm
      rw [nextHolder_of_not_inside hout (by rw [hx']; exact Option.some_ne_none x), hx']
    · rw [nextHolder_of_ne hfile, hx']

end PlReset

/-- When all calls go through one open file, their pulses are whole in every
schedule. -/
theorem reset_pulses_whole_of_one_file (file : C → φ) (count : C → Nat)
    (hone : ∀ x y, file x = file y) (schedule : List C) :
    Machine.Along (PlReset.step file count) PlReset.Alone probed schedule := by
  rw [Machine.along_iff_forall_split]
  intro pre c post _ hslept x hxc hx
  have hheld : (Machine.run (PlReset.step file count) probed pre).Held file :=
    Machine.invariant_run (I := fun s : PlReset C φ => s.Held file) (fun _ _ h => h.step)
      (fun x hx => absurd hx id) pre
  exact hxc (hheld.eq_of_pulses (hone x c) hx (by rw [hslept]; trivial))

end Step

end RlsMini.Reset
