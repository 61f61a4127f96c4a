import RlsMini.Lib.Machine

/-!
# One machine seen as another

A fine-grained machine refines a coarse one when every step of it is, seen
through an abstraction function, a list of steps of the coarse machine: none
where the step only prepares something, one where it takes effect.

`Refines.abs_run` carries this over to runs, with the labels of the coarse run
in the order of the fine one; `related_run` does so for a relation between the
states.
-/

namespace RlsMini.Machine

variable {σ τ α β : Type*}

/-- Seen through `abs`, a step from a state with `I` is the steps `labels` of
the machine `spec`. -/
structure Refines (step : σ → α → σ) (spec : τ → β → τ) (I : σ → Prop) (abs : σ → τ)
    (labels : σ → α → List β) : Prop where
  keep : ∀ s a, I s → I (step s a)
  simulate : ∀ s a, I s → abs (step s a) = run spec (abs s) (labels s a)

/-- The labels of the coarse machine along a run of the fine one. -/
def coarse (step : σ → α → σ) (labels : σ → α → List β) : σ → List α → List β
  | _, [] => []
  | s, a :: as => labels s a ++ coarse step labels (step s a) as

section Refines

variable {step : σ → α → σ} {spec : τ → β → τ} {I : σ → Prop} {abs : σ → τ}
  {labels : σ → α → List β}

@[simp] theorem coarse_nil (s : σ) : coarse step labels s [] = [] := rfl

theorem coarse_cons (s : σ) (a : α) (as : List α) :
    coarse step labels s (a :: as) = labels s a ++ coarse step labels (step s a) as := rfl

/-- The labels of a longer run come behind those of the shorter one. -/
theorem coarse_append (s : σ) (as bs : List α) :
    coarse step labels s (as ++ bs) =
      coarse step labels s as ++ coarse step labels (run step s as) bs := by
  induction as generalizing s with
  | nil => rfl
  | cons a as ih => rw [List.cons_append, coarse_cons, coarse_cons, ih, List.append_assoc, run_cons]

theorem coarse_concat (s : σ) (as : List α) (a : α) :
    coarse step labels s (as ++ [a]) =
      coarse step labels s as ++ labels (run step s as) a := by
  rw [coarse_append, coarse_cons, coarse_nil, List.append_nil]

/-- The simulation rule for runs. -/
theorem Refines.abs_run (h : Refines step spec I abs labels) {s : σ} (hs : I s) (as : List α) :
    abs (run step s as) = run spec (abs s) (coarse step labels s as) := by
  induction as generalizing s with
  | nil => rfl
  | cons a as ih => rw [run_cons, ih (h.keep s a hs), h.simulate s a hs, coarse_cons, run_append]

/-- The simulation rule for a relation, along the runs with `P`. -/
theorem related_run {R : σ → τ → Prop} {P : σ → α → Prop}
    (hstep : ∀ s t a, P s a → R s t → R (step s a) (run spec t (labels s a))) {s : σ} {t : τ}
    (h : R s t) {as : List α} (hall : Along step P s as) :
    R (run step s as) (run spec t (coarse step labels s as)) := by
  induction as generalizing s t with
  | nil => exact h
  | cons a as ih =>
      obtain ⟨ha, hrest⟩ := hall
      rw [run_cons, coarse_cons, run_append]
      exact ih (hstep s t a ha h) hrest

theorem Refines.keep_run (h : Refines step spec I abs labels) {s : σ} (hs : I s)
    (as : List α) : I (run step s as) :=
  invariant_run h.keep hs as

end Refines

end RlsMini.Machine
