import RlsMini.Lib.Machine
import Mathlib.Algebra.Order.BigOperators.Group.Finset
import Mathlib.Data.Fintype.Basic
import Mathlib.Data.List.Count
import Mathlib.Data.Nat.Init
import Mathlib.Logic.Function.Iterate

/-!
# Endless schedules

A schedule gives the label of every step.  It is fair when every label comes
again and again.  Two rules say what a schedule brings about.

* `eventually_of_variant`: steps that change the state lower a variant, and
  where the goal is not reached some label that comes again changes the state.
* `run_component`: a part of the state that only one label moves has been moved
  as often as the label has come.
-/

namespace RlsMini.Machine

variable {σ τ α : Type*}

/-- Every label comes again and again. -/
def Fair (schedule : ℕ → α) : Prop := ∀ a n, ∃ m, n ≤ m ∧ schedule m = a

/-- The first `n` labels. -/
def upTo (schedule : ℕ → α) (n : ℕ) : List α := (List.range n).map schedule

section Schedule

variable {schedule : ℕ → α} {step : σ → α → σ}

theorem upTo_succ (n : ℕ) : upTo schedule (n + 1) = upTo schedule n ++ [schedule n] := by
  rw [upTo, List.range_succ, List.map_append]
  rfl

@[simp] theorem run_upTo_succ (s : σ) (n : ℕ) :
    run step s (upTo schedule (n + 1)) = step (run step s (upTo schedule n)) (schedule n) := by
  rw [upTo_succ, run_concat]

/-! ## Variants -/

variable {I Goal : σ → Prop} {variant : σ → ℕ}

/-- The rule of the variant: where the goal is not reached, all labels of some
kind change the state, and the kind comes again and again. -/
theorem eventually_of_variant (hkeep : ∀ s a, I s → I (step s a))
    (hvariant : ∀ s a, I s → step s a = s ∨ variant (step s a) < variant s)
    (hprogress : ∀ s, I s → ¬ Goal s → ∃ kind : α → Prop,
      (∀ n, ∃ m, n ≤ m ∧ kind (schedule m)) ∧ ∀ a, kind a → step s a ≠ s)
    {s : σ} (hs : I s) (n : ℕ) : ∃ m, n ≤ m ∧ Goal (run step s (upTo schedule m)) := by
  generalize hv : variant (run step s (upTo schedule n)) = v
  induction v using Nat.strong_induction_on generalizing n with
  | _ v ih =>
      have hI : ∀ k, I (run step s (upTo schedule k)) := fun k => invariant_run hkeep hs _
      by_cases hgoal : Goal (run step s (upTo schedule n))
      · exact ⟨n, Nat.le_refl n, hgoal⟩
      obtain ⟨kind, hagain, hchange⟩ := hprogress _ (hI n) hgoal
      obtain ⟨m, hnm, hm⟩ := hagain n
      -- By the turn `m` of that kind at the latest the state has changed.
      obtain ⟨k, hnk, hlt⟩ : ∃ k, n ≤ k ∧
          variant (run step s (upTo schedule (k + 1))) < variant (run step s (upTo schedule k)) ∧
          run step s (upTo schedule k) = run step s (upTo schedule n) := by
        by_contra hno
        have hstuck : ∀ k, n ≤ k →
            run step s (upTo schedule k) = run step s (upTo schedule n) := by
          intro k hnk
          induction k, hnk using Nat.le_induction with
          | base => rfl
          | succ k hnk ihk =>
              rcases hvariant _ (schedule k) (hI k) with hsame | hlower
              · rw [run_upTo_succ, hsame, ihk]
              · exact absurd ⟨k, hnk, by rw [run_upTo_succ]; exact hlower, ihk⟩ hno
        have hnext := hstuck (m + 1) (by omega)
        rw [run_upTo_succ, hstuck m hnm] at hnext
        exact hchange _ hm hnext
      obtain ⟨hlower, hsame⟩ := hlt
      rw [hsame, hv] at hlower
      obtain ⟨j, hkj, hj⟩ := ih _ hlower (k + 1) rfl
      exact ⟨j, by omega, hj⟩

/-- The rule of the variant on a fair schedule. -/
theorem Fair.eventually_of_variant (hfair : Fair schedule) (hkeep : ∀ s a, I s → I (step s a))
    (hvariant : ∀ s a, I s → step s a = s ∨ variant (step s a) < variant s)
    (hprogress : ∀ s, I s → ¬ Goal s → ∃ a, step s a ≠ s) {s : σ} (hs : I s) (n : ℕ) :
    ∃ m, n ≤ m ∧ Goal (run step s (upTo schedule m)) := by
  refine Machine.eventually_of_variant hkeep hvariant (fun s hI hgoal => ?_) hs n
  obtain ⟨a, ha⟩ := hprogress s hI hgoal
  exact ⟨fun b => b = a, hfair a, fun b hb => hb ▸ ha⟩

/-- What steps keep holds from its first moment on. -/
theorem stays_upTo (hkeep : ∀ s a, Goal s → Goal (step s a)) {s : σ} {n m : ℕ} (h : n ≤ m)
    (hgoal : Goal (run step s (upTo schedule n))) : Goal (run step s (upTo schedule m)) := by
  induction m, h using Nat.le_induction with
  | base => exact hgoal
  | succ m _ ih =>
      rw [run_upTo_succ]
      exact hkeep _ _ ih

end Schedule

/-- The variant of a system of processes: what its processes have left to do.
It drops when one of them goes on and the others stay where they are. -/
theorem sum_lt_of_step {ι : Type*} [Fintype ι] {left left' : ι → ℕ} (i : ι)
    (hlt : left' i < left i) (hother : ∀ j, j ≠ i → left' j = left j) :
    ∑ j, left' j < ∑ j, left j := by
  refine Finset.sum_lt_sum (fun j _ => ?_) ⟨i, Finset.mem_univ i, hlt⟩
  by_cases hj : j = i
  · rw [hj]
    exact Nat.le_of_lt hlt
  · exact Nat.le_of_eq (hother j hj)

/-! ## Counting turns -/

section Count

variable [DecidableEq α] {step : σ → α → σ}

/-- A part of the state that only one label moves. -/
theorem run_component {view : σ → τ} {move : τ → τ} {a : α}
    (hmove : ∀ s, view (step s a) = move (view s))
    (hstay : ∀ s b, b ≠ a → view (step s b) = view s) (s : σ) (as : List α) :
    view (run step s as) = move^[as.count a] (view s) := by
  induction as generalizing s with
  | nil => rfl
  | cons b as ih =>
      rw [run_cons, ih]
      by_cases hb : b = a
      · rw [hb, hmove, List.count_cons_self, Function.iterate_succ_apply]
      · rw [hstay s b hb, List.count_cons_of_ne hb]

end Count

end RlsMini.Machine
