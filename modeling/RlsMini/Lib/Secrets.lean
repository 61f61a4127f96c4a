import RlsMini.Lib.Machine

/-!
# Machines with a secret

The step function of such a machine depends on a secret, and its states keep a
log that only grows.  A run conceals the secret when it leaves the same log
under every secret.

`conceals_iff` reduces the statement about two runs to one about single steps:
a label either makes the same step under every secret, or has two secrets
whose logs part there.
-/

namespace RlsMini.Machine

variable {σ α γ ω : Type*}

/-- The run leaves the same log under every secret. -/
def Conceals (step : γ → σ → α → σ) (log : σ → List ω) (s : σ) (as : List α) : Prop :=
  ∀ g g', log (run (step g) s as) = log (run (step g') s as)

/-- The step leaves logs of which neither continues the other. -/
def Parts (step : γ → σ → α → σ) (log : σ → List ω) (s : σ) (a : α) : Prop :=
  ∃ g g', ¬ log (step g s a) <+: log (step g' s a) ∧ ¬ log (step g' s a) <+: log (step g s a)

section Conceals

variable {step : γ → σ → α → σ} {log : σ → List ω} {P : α → Prop}

/-- A run continues the log. -/
theorem log_prefix_run (hgrow : ∀ g s a, log s <+: log (step g s a)) (g : γ) (s : σ)
    (as : List α) : log s <+: log (run (step g) s as) := by
  induction as generalizing s with
  | nil => exact List.prefix_rfl
  | cons a as ih => exact (hgrow g s a).trans (ih (step g s a))

/-- Steps that are the same under every secret make the same run. -/
theorem run_eq_of_forall (hsame : ∀ s a, P a → ∀ g g', step g s a = step g' s a) {as : List α}
    (hall : ∀ a ∈ as, P a) (s : σ) (g g' : γ) : run (step g) s as = run (step g') s as := by
  induction as generalizing s with
  | nil => rfl
  | cons a as ih =>
      rw [List.forall_mem_cons] at hall
      rw [run_cons, run_cons, hsame s a hall.1 g g', ih hall.2]

/-- Behind a step that is the same under every secret the rest conceals it. -/
theorem Conceals.tail {s : σ} {a : α} {as : List α} (h : Conceals step log s (a :: as))
    (hsame : ∀ g g', step g s a = step g' s a) (g₀ : γ) :
    Conceals step log (step g₀ s a) as := by
  intro g g'
  have heq := h g g'
  rwa [run_cons, run_cons, hsame g g₀, hsame g' g₀] at heq

/-- Where the logs part they stay apart. -/
theorem Conceals.not_parts {s : σ} {a : α} {as : List α} (h : Conceals step log s (a :: as))
    (hgrow : ∀ g s a, log s <+: log (step g s a)) : ¬ Parts step log s a := by
  intro hparts
  obtain ⟨g, g', hno, hno'⟩ := hparts
  have hprefix := log_prefix_run hgrow g (step g s a) as
  have hprefix' := log_prefix_run hgrow g' (step g' s a) as
  have heq := h g g'
  rw [run_cons, run_cons] at heq
  rw [heq] at hprefix
  rcases List.prefix_or_prefix_of_prefix hprefix hprefix' with hle | hle
  · exact hno hle
  · exact hno' hle

/-- The rule for two runs. -/
theorem conceals_iff [Nonempty γ] (hgrow : ∀ g s a, log s <+: log (step g s a))
    (hsame : ∀ s a, P a → ∀ g g', step g s a = step g' s a)
    (hparts : ∀ s a, ¬ P a → Parts step log s a) (s : σ) (as : List α) :
    Conceals step log s as ↔ ∀ a ∈ as, P a := by
  constructor
  · intro h
    induction as generalizing s with
    | nil => exact fun a ha => absurd ha List.not_mem_nil
    | cons a as ih =>
        obtain ⟨g₀⟩ := ‹Nonempty γ›
        have ha : P a := by
          by_contra hno
          exact h.not_parts hgrow (hparts s a hno)
        exact List.forall_mem_cons.mpr ⟨ha, ih _ (h.tail (hsame s a ha) g₀)⟩
  · intro hall g g'
    rw [run_eq_of_forall hsame hall s g g']

end Conceals

end RlsMini.Machine
