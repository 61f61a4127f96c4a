import Mathlib.Data.List.Basic
import Mathlib.Data.List.Induction

/-!
# Runs of a deterministic machine

A machine is a step function `σ → α → σ` on states and labels.  A label
carries everything the step does not decide itself: the operation, its
arguments and the outcome of the calls it makes.  A run is a list of labels.

`Along step P s as` says that `P` holds of every label of the run `as` in the
state it is taken from.  It serves both as a hypothesis on the environment and
as a property of the run, and `along_congr`, `along_iff_forall_prefix_of` and
`along_iff_forall_prefix` are the rules that go from the one to the other.
`history_iff_forall_prefix` is the rule for a condition that can be read off
the labels alone.

`countAlong step P s as` counts the labels of which `P` holds, and
`balance_run` keeps the books of a run.
-/

namespace RlsMini.Machine

variable {σ α : Type*}

/-- The state after the labels `as`. -/
def run (step : σ → α → σ) (s : σ) (as : List α) : σ := as.foldl step s

section Run

variable (step : σ → α → σ)

@[simp] theorem run_nil (s : σ) : run step s [] = s := rfl

@[simp] theorem run_cons (s : σ) (a : α) (as : List α) :
    run step s (a :: as) = run step (step s a) as := rfl

theorem run_append (s : σ) (as bs : List α) :
    run step s (as ++ bs) = run step (run step s as) bs :=
  List.foldl_append

@[simp] theorem run_concat (s : σ) (as : List α) (a : α) :
    run step s (as ++ [a]) = step (run step s as) a := by
  simp [run_append]

end Run

/-- `P` holds of every label of the run, in the state before it. -/
def Along (step : σ → α → σ) (P : σ → α → Prop) : σ → List α → Prop
  | _, [] => True
  | s, a :: as => P s a ∧ Along step P (step s a) as

/-- Whether a decidable property holds along a run. -/
instance Along.decidable (step : σ → α → σ) (P : σ → α → Prop) [∀ s a, Decidable (P s a)] :
    (s : σ) → (as : List α) → Decidable (Along step P s as)
  | _, [] => inferInstanceAs (Decidable True)
  | s, a :: as =>
      have := Along.decidable step P (step s a) as
      inferInstanceAs (Decidable (P s a ∧ Along step P (step s a) as))

section Along

variable {step : σ → α → σ} {P Q : σ → α → Prop} {I : σ → Prop}

@[simp] theorem along_nil (s : σ) : Along step P s [] := trivial

@[simp] theorem along_cons {s : σ} {a : α} {as : List α} :
    Along step P s (a :: as) ↔ P s a ∧ Along step P (step s a) as := Iff.rfl

theorem along_append {s : σ} {as bs : List α} :
    Along step P s (as ++ bs) ↔
      Along step P s as ∧ Along step P (run step s as) bs := by
  induction as generalizing s with
  | nil => simp
  | cons a as ih => simp [ih, and_assoc]

theorem along_concat {s : σ} {as : List α} {a : α} :
    Along step P s (as ++ [a]) ↔ Along step P s as ∧ P (run step s as) a := by
  simp [along_append]

/-- A run along which `P` holds satisfies `P` at every position. -/
theorem along_iff_forall_split {s : σ} {as : List α} :
    Along step P s as ↔
      ∀ pre a post, as = pre ++ a :: post → P (run step s pre) a := by
  constructor
  · intro h pre a post hsplit
    subst hsplit
    exact (along_append.mp h).2.1
  · intro h
    induction as generalizing s with
    | nil => trivial
    | cons a as ih =>
        refine ⟨h [] a as rfl, ih ?_⟩
        intro pre b post hsplit
        exact h (a :: pre) b post (by simp [hsplit])

/-- The invariant rule: what every step keeps holds after every run. -/
theorem invariant_run (hstep : ∀ s a, I s → I (step s a)) {s : σ} (hs : I s)
    (as : List α) : I (run step s as) := by
  induction as generalizing s with
  | nil => exact hs
  | cons a as ih => exact ih (hstep s a hs)

/-- Two properties of steps that agree under an invariant hold along the same
runs. -/
theorem along_congr (hstep : ∀ s a, I s → I (step s a)) (h : ∀ s a, I s → (P s a ↔ Q s a))
    {s : σ} (hs : I s) (as : List α) : Along step P s as ↔ Along step Q s as := by
  induction as generalizing s with
  | nil => exact Iff.rfl
  | cons a as ih =>
      rw [along_cons, along_cons, h s a hs, ih (hstep s a hs)]

/-- A condition on steps that is just what a property needs: it keeps an
invariant that implies the property, and without it the next state does not
have the property.  It holds along a run exactly if the property holds
wherever the run stands. -/
theorem along_iff_forall_prefix_of {J : σ → Prop} (hIJ : ∀ s, I s → J s)
    (hkeep : ∀ s a, I s → P s a → I (step s a)) (hbreak : ∀ s a, I s → J (step s a) → P s a)
    {s : σ} (hI : I s) (as : List α) :
    Along step P s as ↔ ∀ pre post, as = pre ++ post → J (run step s pre) := by
  induction as generalizing s with
  | nil =>
      refine iff_of_true trivial ?_
      intro pre post hsplit
      obtain ⟨rfl, -⟩ := List.append_eq_nil_iff.mp hsplit.symm
      exact hIJ s hI
  | cons a as ih =>
      constructor
      · rintro ⟨ha, has⟩ pre post hsplit
        cases pre with
        | nil => exact hIJ s hI
        | cons b pre =>
            obtain ⟨rfl, hsplit'⟩ := List.cons.inj hsplit
            exact (ih (hkeep s a hI ha)).mp has pre post hsplit'
      · intro hall
        have ha : P s a := hbreak s a hI (hall [a] as rfl)
        refine ⟨ha, (ih (hkeep s a hI ha)).mpr ?_⟩
        intro pre post hsplit
        exact hall (a :: pre) post (congrArg (a :: ·) hsplit)

/-- A condition on steps that is just what an invariant needs: it holds along
a run exactly if the invariant holds wherever the run stands. -/
theorem along_iff_forall_prefix {C : σ → Prop} (hC : ∀ s a, C s → C (step s a))
    (h : ∀ s a, C s → I s → (P s a ↔ I (step s a))) {s : σ} (hs : C s) (hI : I s)
    (as : List α) :
    Along step P s as ↔ ∀ pre post, as = pre ++ post → I (run step s pre) := by
  refine along_iff_forall_prefix_of (I := fun s => C s ∧ I s) (fun _ h => h.2) ?_ ?_ ⟨hs, hI⟩ as
  · intro s a hs ha
    exact ⟨hC s a hs.1, (h s a hs.1 hs.2).mp ha⟩
  · intro s a hs hnext
    exact (h s a hs.1 hs.2).mpr hnext

/-- A condition on the labels so far that is just what a property needs: while
it holds, the state is in an invariant that implies the property, and a label
that breaks it leaves a state without the property. -/
theorem history_iff_forall_prefix {C : List α → Prop} {J : σ → Prop} {H : List α → σ → Prop}
    (hbefore : ∀ as a, C (as ++ [a]) → C as) (hHJ : ∀ as s, H as s → J s)
    (hkeep : ∀ as s a, H as s → C (as ++ [a]) → H (as ++ [a]) (step s a))
    (hbreak : ∀ as s a, C as → H as s → J (step s a) → C (as ++ [a]))
    {s : σ} (hC : C []) (hH : H [] s) (as : List α) :
    C as ↔ ∀ pre post, as = pre ++ post → J (run step s pre) := by
  have hinv : ∀ bs, C bs → H bs (run step s bs) := by
    intro bs
    induction bs using List.reverseRecOn with
    | nil => exact fun _ => hH
    | append_singleton bs b ih =>
        intro hbs
        rw [run_concat]
        exact hkeep bs _ b (ih (hbefore bs b hbs)) hbs
  induction as using List.reverseRecOn with
  | nil =>
      refine iff_of_true hC ?_
      intro pre post hsplit
      obtain ⟨rfl, -⟩ := List.append_eq_nil_iff.mp hsplit.symm
      exact hHJ [] s hH
  | append_singleton as a ih =>
      constructor
      · intro has pre post hsplit
        rcases List.eq_nil_or_concat post with rfl | ⟨post, b, rfl⟩
        · rw [List.append_nil] at hsplit
          rw [← hsplit]
          exact hHJ _ _ (hinv _ has)
        · rw [List.concat_eq_append, ← List.append_assoc] at hsplit
          obtain ⟨hsplit', -⟩ := List.append_inj' hsplit rfl
          exact ih.mp (hbefore as a has) pre post hsplit'
      · intro hall
        have has : C as := ih.mpr fun pre post hsplit =>
          hall pre (post ++ [a]) (by rw [hsplit, List.append_assoc])
        refine hbreak as _ a has (hinv as has) ?_
        have hlast := hall (as ++ [a]) [] (List.append_nil _).symm
        rwa [run_concat] at hlast

end Along

/-- The number of labels of the run of which `P` holds, in the state before
them. -/
def countAlong (step : σ → α → σ) (P : σ → α → Prop) [∀ s a, Decidable (P s a)] :
    σ → List α → ℕ
  | _, [] => 0
  | s, a :: as => (if P s a then 1 else 0) + countAlong step P (step s a) as

section Count

variable {step : σ → α → σ} {P Q : σ → α → Prop} [∀ s a, Decidable (P s a)]
  [∀ s a, Decidable (Q s a)] {I : σ → Prop}

theorem countAlong_cons (s : σ) (a : α) (as : List α) :
    countAlong step P s (a :: as) =
      (if P s a then 1 else 0) + countAlong step P (step s a) as := rfl

theorem countAlong_append (s : σ) (as bs : List α) :
    countAlong step P s (as ++ bs) =
      countAlong step P s as + countAlong step P (run step s as) bs := by
  induction as generalizing s with
  | nil => exact (Nat.zero_add _).symm
  | cons a as ih =>
      rw [List.cons_append, countAlong_cons, countAlong_cons, ih, Nat.add_assoc, run_cons]

/-- Two properties that agree under an invariant hold equally often. -/
theorem countAlong_congr (hkeep : ∀ s a, I s → I (step s a)) (h : ∀ s a, I s → (P s a ↔ Q s a))
    {s : σ} (hs : I s) (as : List α) : countAlong step P s as = countAlong step Q s as := by
  induction as generalizing s with
  | nil => rfl
  | cons a as ih =>
      rw [countAlong_cons, countAlong_cons, ih (hkeep s a hs), if_congr (h s a hs) rfl rfl]

/-- A property holds as often as with another one and without it. -/
theorem countAlong_and_add (s : σ) (as : List α) :
    countAlong step (fun s a => P s a ∧ Q s a) s as +
      countAlong step (fun s a => P s a ∧ ¬ Q s a) s as = countAlong step P s as := by
  induction as generalizing s with
  | nil => rfl
  | cons a as ih =>
      rw [countAlong_cons, countAlong_cons, countAlong_cons, ← ih]
      by_cases hP : P s a
      · by_cases hQ : Q s a
        · rw [if_pos ⟨hP, hQ⟩, if_neg fun h => h.2 hQ, if_pos hP]
          omega
        · rw [if_neg fun h => hQ h.2, if_pos ⟨hP, hQ⟩, if_pos hP]
          omega
      · rw [if_neg fun h => hP h.1, if_neg fun h => hP h.1, if_neg hP]
        omega

theorem countAlong_eq_zero_iff (s : σ) (as : List α) :
    countAlong step P s as = 0 ↔ Along step (fun s a => ¬ P s a) s as := by
  induction as generalizing s with
  | nil => exact iff_of_true rfl trivial
  | cons a as ih =>
      rw [countAlong_cons, along_cons, ← ih, Nat.add_eq_zero_iff]
      refine and_congr_left fun _ => ?_
      split
      · rename_i hP
        exact iff_of_false Nat.one_ne_zero (not_not_intro hP)
      · rename_i hP
        exact iff_of_true rfl hP

/-- The rule of the balance: `f` goes up by one where `P` holds, and down by
one where `Q` does. -/
theorem balance_run {f : σ → ℕ} (hkeep : ∀ s a, I s → I (step s a))
    (hstep : ∀ s a, I s →
      f (step s a) + (if Q s a then 1 else 0) = f s + if P s a then 1 else 0)
    {s : σ} (hs : I s) (as : List α) :
    f (run step s as) + countAlong step Q s as = f s + countAlong step P s as := by
  induction as generalizing s with
  | nil => rfl
  | cons a as ih =>
      have hone := hstep s a hs
      have hrest := ih (hkeep s a hs)
      rw [run_cons, countAlong_cons, countAlong_cons]
      omega

end Count

end RlsMini.Machine
