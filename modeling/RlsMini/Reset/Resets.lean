import RlsMini.Lib.Fairness
import RlsMini.Reset.PlReset
import Mathlib.Data.Set.Card

/-!
# The resets that the device sees

The device is reset when the line goes from low to high.  A call drives the
line low once and high once, but a call that drives it high when it is high
already is no reset for the device.

`step_cases` says what a step can be, and the books of a run are kept from it:
every call that is done was a reset or was missed, and a reset is missed for
every call but one that has driven the line low when it was low.
`resets_seen_iff` puts the two together.
-/

namespace RlsMini.Reset

section Resets

variable {C φ : Type} [DecidableEq C] [DecidableEq φ]

namespace PlReset

/-! ## What a step can be -/

/-- The calls that hold the line low. -/
def pulsing (s : PlReset C φ) : Set C := {x | (s.stage x).Pulses}

/-- The calls that are done with the line. -/
def served (s : PlReset C φ) : Set C := {x | (s.stage x).Served}

/-- The calls that have begun. -/
def begun (s : PlReset C φ) : Set C := {x | s.stage x ≠ .waiting}

variable (file : C → φ) (count : C → Nat)

/-- A reset of the device. -/
def Rises (s : PlReset C φ) (c : C) : Prop := s.line = false ∧ (s.step file count c).line = true

instance (s : PlReset C φ) (c : C) : Decidable (s.Rises file count c) := by
  unfold Rises
  infer_instance

/-- The number of resets of the device in a schedule. -/
def resetsSeen (schedule : List C) : ℕ :=
  Machine.countAlong (PlReset.step file count) (PlReset.Rises file count) probed schedule

variable {file count} {s : PlReset C φ} {c : C}

/-- The device is set up, and finitely many calls have begun. -/
structure Sound (s : PlReset C φ) : Prop where
  ready : s.ready = true
  finite : s.begun.Finite

theorem Sound.step (h : s.Sound) : (s.step file count c).Sound := by
  refine ⟨h.ready, (h.finite.insert c).subset fun x hx => ?_⟩
  by_cases hxc : x = c
  · exact Or.inl hxc
  · refine Or.inr ?_
    show s.stage x ≠ .waiting
    rw [← stage_step_of_ne hxc]
    exact hx

omit [DecidableEq C] [DecidableEq φ] in
theorem Sound.finite_pulsing (h : s.Sound) : s.pulsing.Finite := by
  refine h.finite.subset fun x hx => ?_
  intro hwaiting
  have hpulses : (s.stage x).Pulses := hx
  rw [hwaiting] at hpulses
  exact hpulses

omit [DecidableEq C] [DecidableEq φ] in
theorem Sound.finite_served (h : s.Sound) : s.served.Finite := by
  refine h.finite.subset fun x hx => ?_
  intro hwaiting
  have hserved : (s.stage x).Served := hx
  rw [hwaiting] at hserved
  exact hserved

/-- What a step makes of a set of calls that is told by their stages. -/
theorem setOf_step {P : Stage → Prop} (hself : P (s.nextStage file count c) ↔ P (s.stage c)) :
    {x | P ((s.step file count c).stage x)} = {x | P (s.stage x)} := by
  ext x
  show P ((s.step file count c).stage x) ↔ P (s.stage x)
  by_cases hxc : x = c
  · rw [hxc, stage_step_self]
    exact hself
  · rw [stage_step_of_ne hxc]

theorem setOf_step_insert {P : Stage → Prop} (hself : P (s.nextStage file count c)) :
    {x | P ((s.step file count c).stage x)} = insert c {x | P (s.stage x)} := by
  ext x
  show P ((s.step file count c).stage x) ↔ x = c ∨ P (s.stage x)
  by_cases hxc : x = c
  · rw [hxc, stage_step_self]
    exact iff_of_true hself (Or.inl rfl)
  · rw [stage_step_of_ne hxc]
    exact (or_iff_right hxc).symm

theorem setOf_step_remove {P : Stage → Prop} (hself : ¬ P (s.nextStage file count c)) :
    {x | P ((s.step file count c).stage x)} = {x | P (s.stage x)} \ {c} := by
  ext x
  show P ((s.step file count c).stage x) ↔ P (s.stage x) ∧ x ≠ c
  by_cases hxc : x = c
  · rw [hxc, stage_step_self]
    exact iff_of_false hself fun h => h.2 rfl
  · rw [stage_step_of_ne hxc]
    exact (and_iff_left hxc).symm

omit [DecidableEq C] [DecidableEq φ] in
/-- The steps that leave the line alone leave a call in or out of its
pulse. -/
theorem nextStage_of_ne (file : C → φ) (count : C → Nat) (hentered : s.stage c ≠ .entered)
    (hslept : s.stage c ≠ .slept) :
    ((s.nextStage file count c).Pulses ↔ (s.stage c).Pulses) ∧
      ((s.nextStage file count c).Served ↔ (s.stage c).Served) := by
  cases hstage : s.stage c with
  | entered => exact absurd hstage hentered
  | slept => exact absurd hstage hslept
  | waiting =>
      simp only [nextStage, hstage]
      split
      · exact ⟨Iff.rfl, Iff.rfl⟩
      · exact ⟨Iff.rfl, Iff.rfl⟩
  | low =>
      simp only [nextStage, hstage]
      exact ⟨Iff.rfl, Iff.rfl⟩
  | high =>
      simp only [nextStage, hstage]
      exact ⟨Iff.rfl, Iff.rfl⟩
  | returned ret => simp only [nextStage, hstage, and_self]

/-- A call drives the line low, or it drives the line high, or it leaves the
line alone. -/
theorem step_cases (hready : s.ready = true) (file : C → φ) (count : C → Nat) (c : C) :
    (s.stage c = .entered ∧ (s.step file count c).line = false ∧
      (s.step file count c).pulsing = insert c s.pulsing ∧ c ∉ s.pulsing ∧
      (s.step file count c).served = s.served) ∨
    (s.stage c = .slept ∧ (s.step file count c).line = true ∧
      (s.step file count c).pulsing = s.pulsing \ {c} ∧ c ∈ s.pulsing ∧
      (s.step file count c).served = insert c s.served ∧ c ∉ s.served) ∨
    (s.stage c ≠ .entered ∧ s.stage c ≠ .slept ∧ (s.step file count c).line = s.line ∧
      (s.step file count c).pulsing = s.pulsing ∧ (s.step file count c).served = s.served) := by
  by_cases hentered : s.stage c = .entered
  · have hnext : s.nextStage file count c = .low := by simp [nextStage, hentered, hready]
    refine Or.inl ⟨hentered, nextLine_of_entered hready hentered, ?_, ?_, ?_⟩
    · exact setOf_step_insert (by rw [hnext]; trivial)
    · show ¬ (s.stage c).Pulses
      rw [hentered]
      exact id
    · exact setOf_step (by rw [hnext, hentered]; exact Iff.rfl)
  · by_cases hslept : s.stage c = .slept
    · have hnext : s.nextStage file count c = .high := by simp [nextStage, hslept]
      refine Or.inr (Or.inl ⟨hslept, nextLine_of_slept hslept, ?_, ?_, ?_, ?_⟩)
      · exact setOf_step_remove (by rw [hnext]; exact id)
      · show (s.stage c).Pulses
        rw [hslept]
        trivial
      · exact setOf_step_insert (by rw [hnext]; trivial)
      · show ¬ (s.stage c).Served
        rw [hslept]
        exact id
    · have hnext := nextStage_of_ne file count hentered hslept
      exact Or.inr (Or.inr ⟨hentered, hslept, nextLine_of_ne hentered hslept,
        setOf_step hnext.1, setOf_step hnext.2⟩)

/-! ## The books of a run -/

/-- The call drives the line high when it is high already. -/
abbrev Missed (s : PlReset C φ) (c : C) : Prop := s.stage c = .slept ∧ s.line = true

/-- The call drives the line low when it is low already. -/
abbrev Doubled (s : PlReset C φ) (c : C) : Prop := s.stage c = .entered ∧ s.line = false

omit [DecidableEq C] [DecidableEq φ] in
theorem sound_probed : (probed : PlReset C φ).Sound := by
  refine ⟨rfl, ?_⟩
  have hnone : (probed : PlReset C φ).begun = ∅ := Set.eq_empty_of_forall_notMem fun x hx => hx rfl
  rw [hnone]
  exact Set.finite_empty

/-- A reset is a call that drives a low line high. -/
theorem rises_iff (h : s.Sound) : s.Rises file count c ↔ s.stage c = .slept ∧ ¬ s.line = true := by
  unfold Rises
  rw [Bool.not_eq_true]
  rcases s.step_cases h.ready file count c with ⟨hentered, hline, -⟩ | ⟨hslept, hline, -⟩ |
    ⟨-, hslept, hline, -⟩
  · rw [hline, hentered]
    exact iff_of_false (fun h => Bool.noConfusion h.2) fun h => Stage.noConfusion h.1
  · rw [hline, hslept]
    exact ⟨fun h => ⟨rfl, h.1⟩, fun h => ⟨h.2, rfl⟩⟩
  · rw [hline]
    exact iff_of_false (fun h => Bool.noConfusion (h.1.symm.trans h.2)) fun h => hslept h.1

/-- The calls that are done have driven the line high. -/
theorem served_run (file : C → φ) (count : C → Nat) (schedule : List C) :
    (Machine.run (PlReset.step file count) probed schedule).served.ncard =
      Machine.countAlong (PlReset.step file count) (fun s c => s.stage c = .slept) probed
        schedule := by
  have hstep : ∀ (s : PlReset C φ) c, s.Sound →
      (s.step file count c).served.ncard + (if False then 1 else 0) =
        s.served.ncard + if s.stage c = .slept then 1 else 0 := by
    intro s c h
    rw [if_neg not_false, Nat.add_zero]
    rcases s.step_cases h.ready file count c with ⟨hentered, -, -, -, hserved⟩ |
      ⟨hslept, -, -, -, hserved, hnew⟩ | ⟨-, hslept, -, -, hserved⟩
    · rw [hserved, hentered, if_neg nofun, Nat.add_zero]
    · rw [hserved, Set.ncard_insert_of_notMem hnew h.finite_served, if_pos hslept]
    · rw [hserved, if_neg hslept, Nat.add_zero]
  have hbalance := Machine.balance_run (I := PlReset.Sound)
    (f := fun s : PlReset C φ => s.served.ncard) (Q := fun _ _ => False) (fun _ _ h => h.step)
    hstep sound_probed schedule
  have hnone : (probed : PlReset C φ).served = ∅ :=
    Set.eq_empty_of_forall_notMem fun x hx => absurd hx id
  rw [hnone, Set.ncard_empty, Nat.zero_add,
    (Machine.countAlong_eq_zero_iff _ _).mpr (Machine.along_iff_forall_split.mpr
      fun _ _ _ _ => not_false)] at hbalance
  exact hbalance

/-- Every call that is done with the line was a reset, or it was missed. -/
theorem served_balance (file : C → φ) (count : C → Nat) (schedule : List C) :
    (Machine.run (PlReset.step file count) probed schedule).served.ncard =
      resetsSeen file count schedule +
        Machine.countAlong (PlReset.step file count) PlReset.Missed probed schedule := by
  have hseen : resetsSeen file count schedule = Machine.countAlong (PlReset.step file count)
      (fun s c => s.stage c = .slept ∧ ¬ s.line = true) probed schedule :=
    Machine.countAlong_congr (I := PlReset.Sound) (fun _ _ h => h.step) (fun _ _ h => rises_iff h)
      sound_probed schedule
  rw [hseen, Nat.add_comm, served_run]
  exact (Machine.countAlong_and_add _ _).symm

/-- The calls that hold the line low, and with them the line, against the calls
that were no change of it. -/
theorem pulsing_balance (file : C → φ) (count : C → Nat) (schedule : List C) :
    (Machine.run (PlReset.step file count) probed schedule).pulsing.ncard +
        (Machine.run (PlReset.step file count) probed schedule).line.toNat +
        Machine.countAlong (PlReset.step file count) PlReset.Missed probed schedule =
      Machine.countAlong (PlReset.step file count) PlReset.Doubled probed schedule := by
  have hstep : ∀ (s : PlReset C φ) c, s.Sound →
      (s.step file count c).pulsing.ncard + (s.step file count c).line.toNat +
          (if s.Missed c then 1 else 0) =
        s.pulsing.ncard + s.line.toNat + if s.Doubled c then 1 else 0 := by
    intro s c h
    rcases s.step_cases h.ready file count c with ⟨hentered, hline, hpulsing, hnew, -⟩ |
      ⟨hslept, hline, hpulsing, hold, -⟩ | ⟨hentered, hslept, hline, hpulsing, -⟩
    · have hmissed : ¬ s.Missed c := fun h => Stage.noConfusion (hentered.symm.trans h.1)
      rw [if_neg hmissed, hline, hpulsing, Set.ncard_insert_of_notMem hnew h.finite_pulsing]
      rcases Bool.eq_false_or_eq_true s.line with hlow | hlow <;> simp [hentered, hlow]
    · have hdoubled : ¬ s.Doubled c := fun h => Stage.noConfusion (hslept.symm.trans h.1)
      have hone := Set.ncard_sdiff_singleton_add_one hold h.finite_pulsing
      rw [if_neg hdoubled, hline, hpulsing, ← hone]
      rcases Bool.eq_false_or_eq_true s.line with hlow | hlow <;> simp [hslept, hlow]
    · rw [if_neg fun h => hslept h.1, if_neg fun h => hentered h.1, hline, hpulsing]
  have hbalance := Machine.balance_run (I := PlReset.Sound)
    (f := fun s : PlReset C φ => s.pulsing.ncard + s.line.toNat) (fun _ _ h => h.step)
    hstep sound_probed schedule
  have hnone : (probed : PlReset C φ).pulsing = ∅ :=
    Set.eq_empty_of_forall_notMem fun x hx => absurd hx id
  rw [hnone, Set.ncard_empty] at hbalance
  exact hbalance.trans (Nat.zero_add _)

/-- As long as the calls leave each other alone, none is missed. -/
theorem along_not_missed_of_alone {schedule : List C} (hready : s.ready = true)
    (hwhole : s.PulsesWhole)
    (halone : Machine.Along (PlReset.step file count) PlReset.Alone s schedule) :
    Machine.Along (PlReset.step file count) (fun s c => ¬ s.Missed c) s schedule := by
  induction schedule generalizing s with
  | nil => trivial
  | cons c schedule ih =>
      obtain ⟨hc, hrest⟩ := halone
      refine ⟨fun hmissed => ?_, ih hready (hwhole.step hready hc) hrest⟩
      have hlow := hwhole c (by rw [hmissed.1]; trivial)
      rw [hmissed.2] at hlow
      exact Bool.noConfusion hlow

/-- Where a pulse is cut short, two calls have found the line low. -/
theorem two_le_doubled (file : C → φ) (count : C → Nat) (pre : List C) (c : C)
    (h : ¬ (Machine.run (PlReset.step file count) probed pre).Alone c) :
    2 ≤ Machine.countAlong (PlReset.step file count) PlReset.Doubled probed (pre ++ [c]) := by
  have hsound : (Machine.run (PlReset.step file count) probed pre).Sound :=
    Machine.invariant_run (I := PlReset.Sound) (fun _ _ h => h.step) sound_probed pre
  have hbalance := pulsing_balance file count (pre ++ [c])
  rw [Machine.run_concat] at hbalance
  generalize Machine.run (PlReset.step file count) probed pre = s at h hsound hbalance
  simp only [Alone, not_forall, not_not] at h
  obtain ⟨hslept, x, hxc, hx⟩ := h
  have hline : (s.step file count c).line = true := nextLine_of_slept hslept
  have hpulsing : 0 < (s.step file count c).pulsing.ncard := by
    refine (Set.ncard_pos hsound.step.finite_pulsing).mpr ⟨x, ?_⟩
    show ((s.step file count c).stage x).Pulses
    rw [stage_step_of_ne hxc]
    exact hx
  rw [hline, Bool.toNat_true] at hbalance
  omega

end PlReset

/-- When all calls that have begun have returned, the device has seen at most
as many resets as there were calls, and as many exactly if no call has driven
the line high while another one held it low. -/
theorem resets_seen_iff (file : C → φ) (count : C → Nat) (schedule : List C)
    (hrest : ∀ x, (Machine.run (PlReset.step file count) probed schedule).stage x = .waiting ∨
      ∃ ret, (Machine.run (PlReset.step file count) probed schedule).stage x = .returned ret) :
    let calls : Set C :=
      {x | ∃ ret, (Machine.run (PlReset.step file count) probed schedule).stage x = .returned ret}
    PlReset.resetsSeen file count schedule ≤ calls.ncard ∧
      (PlReset.resetsSeen file count schedule = calls.ncard ↔
        Machine.Along (PlReset.step file count) PlReset.Alone probed schedule) := by
  intro calls
  have hcalls : calls = (Machine.run (PlReset.step file count) probed schedule).served := by
    ext x
    constructor
    · intro hx
      obtain ⟨ret, hret⟩ := hx
      show (Stage.Served _)
      rw [hret]
      trivial
    · intro hx
      refine (hrest x).resolve_left fun hwaiting => ?_
      have hserved : (Stage.Served _) := hx
      rw [hwaiting] at hserved
      exact hserved
  have hserved := PlReset.served_balance file count schedule
  have hbalance := PlReset.pulsing_balance file count schedule
  have hnone : (Machine.run (PlReset.step file count) probed schedule).pulsing = ∅ := by
    refine Set.eq_empty_of_forall_notMem fun x hx => ?_
    have hpulses : (Stage.Pulses _) := hx
    rcases hrest x with hwaiting | ⟨ret, hret⟩
    · rw [hwaiting] at hpulses
      exact hpulses
    · rw [hret] at hpulses
      exact hpulses
  rw [hnone, Set.ncard_empty, Nat.zero_add] at hbalance
  rw [hcalls]
  refine ⟨by omega, fun hall => ?_, fun halone => ?_⟩
  · rw [Machine.along_iff_forall_split]
    intro pre c post hsplit
    by_contra hcut
    have htwo := PlReset.two_le_doubled file count pre c hcut
    obtain ⟨more, hmore⟩ : ∃ more,
        Machine.countAlong (PlReset.step file count) PlReset.Doubled probed schedule =
          Machine.countAlong (PlReset.step file count) PlReset.Doubled probed (pre ++ [c]) +
            more := by
      rw [hsplit, List.append_cons]
      exact ⟨_, Machine.countAlong_append _ _ _⟩
    have hline := (Machine.run (PlReset.step file count) probed schedule).line.toNat_le
    omega
  · have hnone := (Machine.countAlong_eq_zero_iff _ _).mpr
      (PlReset.along_not_missed_of_alone rfl (fun x hx => absurd hx id) halone)
    omega

/-- Two calls through files of their own, step by step in turn. -/
theorem resets_seen_two :
    let schedule := [false, true, false, true, false, true, false, true, false, true]
    let calls : Set Bool :=
      {x | ∃ ret, (Machine.run (PlReset.step id fun _ => 1) probed schedule).stage x =
        .returned ret}
    PlReset.resetsSeen id (fun _ => 1) schedule ≤ calls.ncard ∧
      (PlReset.resetsSeen id (fun _ => 1) schedule = calls.ncard ↔
        Machine.Along (PlReset.step id fun _ => 1) PlReset.Alone probed schedule) :=
  resets_seen_iff _ _ _ fun x => Or.inr ⟨1, by cases x <;> rfl⟩

/-! ## Every call returns -/

/-- The steps that are still ahead. -/
def Stage.ahead : Stage → ℕ
  | .waiting => 5
  | .entered => 4
  | .low => 3
  | .slept => 2
  | .high => 1
  | .returned _ => 0

namespace PlReset

variable {file : C → φ} {count : C → Nat} {s : PlReset C φ} {c : C}

/-- An open file is with a call of its own that is inside, the calls have
returned what they were given, and the line is as they have left it. -/
structure Settled (file : C → φ) (count : C → Nat) (s : PlReset C φ) : Prop where
  ready : s.ready = true
  holder : ∀ f x, s.holder f = some x → file x = f ∧ (s.stage x).Inside
  ret : ∀ x ret, s.stage x = .returned ret → ret = count x
  high : s.LeftHigh

omit [DecidableEq C] in
/-- The call that has the file behind a step is inside: it has just begun, or
it has had the file and keeps it. -/
theorem Settled.nextHolder (h : s.Settled file count) {f : φ} {x : C}
    (hf : s.nextHolder file c f = some x) :
    (x = c ∧ file x = f ∧ (s.nextStage file count c).Inside) ∨
      (x ≠ c ∧ s.holder f = some x) := by
  by_cases hfc : f = file c
  · have hkept : s.holder f = some x → (s.stage c).Inside → (s.nextStage file count c).Inside →
        (x = c ∧ file x = f ∧ (s.nextStage file count c).Inside) ∨
          (x ≠ c ∧ s.holder f = some x) := by
      intro hold _ hinside
      by_cases hxc : x = c
      · exact Or.inl ⟨hxc, (h.holder f x hold).1, hinside⟩
      · exact Or.inr ⟨hxc, hold⟩
    have hout : s.holder f = some x → ¬ (s.stage c).Inside → x ≠ c := by
      intro hold hnot hxc
      exact hnot (hxc ▸ (h.holder f x hold).2)
    cases hstage : s.stage c with
    | waiting =>
        simp only [PlReset.nextHolder, hstage] at hf
        simp only [nextStage, hstage]
        split at hf
        · rename_i hfree
          have hxc : c = x := Option.some.inj ((if_pos hfc).symm.trans hf)
          rw [if_pos hfree]
          exact Or.inl ⟨hxc.symm, by rw [← hxc, hfc], trivial⟩
        · exact Or.inr ⟨hout hf (by rw [hstage]; exact id), hf⟩
    | entered =>
        simp only [PlReset.nextHolder, hstage, h.ready, Bool.not_true, Bool.false_eq_true,
          if_false] at hf
        refine hkept hf (by rw [hstage]; trivial) ?_
        simp only [nextStage, hstage, h.ready]
        trivial
    | low =>
        simp only [PlReset.nextHolder, hstage] at hf
        exact hkept hf (by rw [hstage]; trivial) (by simp only [nextStage, hstage]; trivial)
    | slept =>
        simp only [PlReset.nextHolder, hstage] at hf
        exact hkept hf (by rw [hstage]; trivial) (by simp only [nextStage, hstage]; trivial)
    | high =>
        simp only [PlReset.nextHolder, hstage, if_pos hfc] at hf
        cases hf
    | returned ret =>
        simp only [PlReset.nextHolder, hstage] at hf
        exact Or.inr ⟨hout hf (by rw [hstage]; exact id), hf⟩
  · rw [nextHolder_of_ne hfc] at hf
    refine Or.inr ⟨fun hxc => hfc ?_, hf⟩
    rw [← hxc]
    exact (h.holder f x hf).1.symm

theorem Settled.step (h : s.Settled file count) : (s.step file count c).Settled file count where
  ready := h.ready
  holder f x hf := by
    rcases h.nextHolder hf with ⟨hxc, hfile, hinside⟩ | ⟨hxc, hold⟩
    · refine ⟨hfile, ?_⟩
      rw [hxc, stage_step_self]
      exact hinside
    · rw [stage_step_of_ne hxc]
      exact h.holder f x hold
  ret x ret hret := by
    by_cases hxc : x = c
    · rw [hxc, stage_step_self] at hret
      rw [hxc]
      cases hstage : s.stage c with
      | high =>
          simp only [nextStage, hstage, Stage.returned.injEq] at hret
          exact hret.symm
      | returned r =>
          simp only [nextStage, hstage, Stage.returned.injEq] at hret
          rw [← hret]
          exact h.ret c r hstage
      | waiting =>
          simp only [nextStage, hstage] at hret
          split at hret <;> cases hret
      | entered => simp [nextStage, hstage, h.ready] at hret
      | low | slept => simp [nextStage, hstage] at hret
    · rw [stage_step_of_ne hxc] at hret
      exact h.ret x ret hret
  high := h.high.step h.ready

omit [DecidableEq C] [DecidableEq φ] in
theorem settled_probed (file : C → φ) (count : C → Nat) :
    (probed : PlReset C φ).Settled file count where
  ready := rfl
  holder _ _ hf := by cases hf
  ret _ _ hret := by cases hret
  high _ hsome := by
    obtain ⟨x, hx⟩ := hsome
    exact absurd hx id

/-- A call that is not done, and does not wait for its open file. -/
def CanGo (file : C → φ) (s : PlReset C φ) (c : C) : Prop :=
  match s.stage c with
  | .returned _ => False
  | .waiting => s.holder (file c) = none
  | .entered | .low | .slept | .high => True

theorem step_of_not_canGo (h : ¬ s.CanGo file c) : s.step file count c = s := by
  unfold CanGo at h
  have hsame : s.nextStage file count c = s.stage c → s.nextLine c = s.line →
      s.nextHolder file c = s.holder → s.step file count c = s := by
    intro hstage hline hholder
    unfold PlReset.step
    rw [hline, hholder, hstage]
    have hstages : (fun x => if x = c then s.stage c else s.stage x) = s.stage := by
      funext x
      split
      · rename_i hxc
        rw [hxc]
      · rfl
    rw [hstages]
  cases hstage : s.stage c with
  | returned ret =>
      exact hsame (by simp only [nextStage, hstage]) (by simp only [nextLine, hstage])
        (by simp only [PlReset.nextHolder, hstage])
  | waiting =>
      rw [hstage] at h
      refine hsame ?_ (by simp only [nextLine, hstage]) ?_
      · simp only [nextStage, hstage]
        exact if_neg h
      · simp only [PlReset.nextHolder, hstage]
        exact if_neg h
  | entered | low | slept | high => simp [hstage] at h

omit [DecidableEq C] [DecidableEq φ] in
/-- A call that can go on comes one step closer to its end. -/
theorem ahead_nextStage_lt (hready : s.ready = true) (h : s.CanGo file c) :
    (s.nextStage file count c).ahead < (s.stage c).ahead := by
  unfold CanGo at h
  cases hstage : s.stage c with
  | waiting =>
      rw [hstage] at h
      simp only [nextStage, hstage]
      rw [if_pos h]
      exact Nat.lt_succ_self 4
  | entered =>
      simp only [nextStage, hstage, hready]
      exact Nat.lt_succ_self 3
  | low =>
      simp only [nextStage, hstage]
      exact Nat.lt_succ_self 2
  | slept =>
      simp only [nextStage, hstage]
      exact Nat.lt_succ_self 1
  | high =>
      simp only [nextStage, hstage]
      exact Nat.lt_succ_self 0
  | returned ret => simp [hstage] at h

/-- All calls have returned. -/
def AllReturned (s : PlReset C φ) : Prop := ∀ x, ∃ ret, s.stage x = .returned ret

omit [DecidableEq C] [DecidableEq φ] in
theorem canGo_of_inside (h : (s.stage c).Inside) : s.CanGo file c := by
  unfold CanGo
  cases hstage : s.stage c <;> simp [hstage, Stage.Inside] at h ⊢

omit [DecidableEq C] [DecidableEq φ] in
/-- As long as not all calls have returned, a call that is inside can go on, or
any that has not begun. -/
theorem Settled.exists_canGo (h : s.Settled file count) (hmore : ¬ s.AllReturned) :
    ∃ c, s.CanGo file c := by
  by_cases hinside : ∃ c, (s.stage c).Inside
  · obtain ⟨c, hc⟩ := hinside
    exact ⟨c, canGo_of_inside hc⟩
  · obtain ⟨c, hc⟩ := not_forall.mp hmore
    refine ⟨c, ?_⟩
    unfold CanGo
    cases hstage : s.stage c with
    | returned ret => exact hc ⟨ret, hstage⟩
    | waiting =>
        show s.holder (file c) = none
        by_contra htaken
        obtain ⟨x, hx⟩ := Option.ne_none_iff_exists'.mp htaken
        exact hinside ⟨x, (h.holder _ x hx).2⟩
    | entered | low | slept | high => trivial

section Fintype

variable [Fintype C]

/-- The steps that the calls have ahead together. -/
def ahead (s : PlReset C φ) : ℕ := ∑ x, (s.stage x).ahead

theorem step_eq_or_ahead_lt (hready : s.ready = true) (file : C → φ) (count : C → Nat) (c : C) :
    s.step file count c = s ∨ (s.step file count c).ahead < s.ahead := by
  by_cases hgo : s.CanGo file c
  · refine Or.inr (Machine.sum_lt_of_step c ?_ fun x hx => ?_)
    · rw [stage_step_self]
      exact ahead_nextStage_lt hready hgo
    · rw [stage_step_of_ne hx]
  · exact Or.inl (step_of_not_canGo hgo)

end Fintype

end PlReset

/-- As long as every call gets its turns, all of them return what they were
given to write, and they leave the line high. -/
theorem reset_calls_return [Fintype C] (file : C → φ) (count : C → Nat) {turns : ℕ → C}
    (hfair : Machine.Fair turns) :
    ∃ n, ∀ m, n ≤ m → ∀ c,
      (Machine.run (PlReset.step file count) probed (Machine.upTo turns m)).stage c =
          .returned (count c) ∧
        (Machine.run (PlReset.step file count) probed (Machine.upTo turns m)).line = true := by
  have hsettled : ∀ schedule,
      (Machine.run (PlReset.step file count) probed schedule).Settled file count :=
    Machine.invariant_run (I := fun s : PlReset C φ => s.Settled file count) (fun _ _ h => h.step)
      (PlReset.settled_probed file count)
  have hprogress : ∀ s : PlReset C φ, s.Settled file count → ¬ s.AllReturned →
      ∃ c, s.step file count c ≠ s := by
    intro s h hmore
    obtain ⟨c, hgo⟩ := h.exists_canGo hmore
    refine ⟨c, fun heq => ?_⟩
    have hlt : (s.nextStage file count c).ahead < _ := PlReset.ahead_nextStage_lt h.ready hgo
    rw [← PlReset.stage_step_self, heq] at hlt
    exact Nat.lt_irrefl _ hlt
  obtain ⟨n, -, hn⟩ := hfair.eventually_of_variant (fun _ _ h => h.step)
    (fun s c (h : PlReset.Settled file count s) => s.step_eq_or_ahead_lt h.ready file count c)
    hprogress (PlReset.settled_probed file count) 0
  refine ⟨n, fun m hnm c => ?_⟩
  have hall : PlReset.AllReturned
      (Machine.run (PlReset.step file count) probed (Machine.upTo turns m)) := by
    refine Machine.stays_upTo (fun s c hall => ?_) hnm hn
    have hstill : s.step file count c = s := by
      refine PlReset.step_of_not_canGo fun hgo => ?_
      obtain ⟨ret, hret⟩ := hall c
      unfold PlReset.CanGo at hgo
      rw [hret] at hgo
      exact hgo
    rw [hstill]
    exact hall
  have hs := hsettled (Machine.upTo turns m)
  obtain ⟨ret, hret⟩ := hall c
  exact ⟨by rw [hret, hs.ret c ret hret],
    hs.high.highAtRest (fun x => Or.inr (hall x)) ⟨c, ret, hret⟩⟩

/-- Three calls through one open file, by turns. -/
theorem reset_calls_return_three :
    ∃ n, ∀ m, n ≤ m → ∀ c : Fin 3,
      (Machine.run (PlReset.step (fun _ => ()) fun _ => 1) probed
          (Machine.upTo (fun n => Fin.ofNat 3 n) m)).stage c = .returned (1 : Nat) ∧
        (Machine.run (PlReset.step (fun _ => ()) fun _ => 1) probed
          (Machine.upTo (fun n => Fin.ofNat 3 n) m)).line = true :=
  reset_calls_return (fun _ => ()) (fun _ => 1) fun c n =>
    ⟨3 * n + c, by omega, by ext; simp [Fin.ofNat]⟩

end Resets

end RlsMini.Reset
