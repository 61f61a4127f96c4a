import RlsMini.Lib.Fairness
import Mathlib.Order.Lattice.Nat

/-!
# Machines whose labels commute

In a machine whose processes only wait for one another, a label that can move
keeps its move while others make theirs, and two moves give the same state in
both orders.  Such a machine has one end at most: the schedules that bring it
to rest bring it to the same state, and if there is one, then every fair
schedule does.

`Moves n s t` is the yardstick: `n` moves lead from `s` to the state of rest
`t`.
-/

namespace RlsMini.Machine

variable {σ α : Type*}

/-- The labels commute in the states with `I`.  `CanMove s a` says that `a`
does not wait in `s`. -/
structure Commuting (step : σ → α → σ) (CanMove : σ → α → Prop) (I : σ → Prop) : Prop where
  keep : ∀ s a, I s → I (step s a)
  wait : ∀ s a, I s → ¬ CanMove s a → step s a = s
  stays : ∀ s a b, I s → a ≠ b → CanMove s a → CanMove s b → CanMove (step s a) b
  commute : ∀ s a b, I s → a ≠ b → CanMove s a → CanMove s b →
    step (step s a) b = step (step s b) a

/-- All labels wait. -/
def AtRest (CanMove : σ → α → Prop) (s : σ) : Prop := ∀ a, ¬ CanMove s a

/-- With `n` moves the machine comes to rest in `t`. -/
inductive Moves (step : σ → α → σ) (CanMove : σ → α → Prop) : ℕ → σ → σ → Prop
  | rest {t : σ} (h : AtRest CanMove t) : Moves step CanMove 0 t t
  | move {n : ℕ} {s t : σ} (a : α) (ha : CanMove s a) (h : Moves step CanMove n (step s a) t) :
      Moves step CanMove (n + 1) s t

section Commuting

variable {step : σ → α → σ} {CanMove : σ → α → Prop} {I : σ → Prop} {s t : σ} {n : ℕ}

/-- Whatever moves first, one move less is left. -/
theorem Commuting.moves_of_canMove (h : Commuting step CanMove I) (hs : I s)
    (hmoves : Moves step CanMove n s t) {b : α} (hb : CanMove s b) :
    ∃ k, n = k + 1 ∧ Moves step CanMove k (step s b) t := by
  induction hmoves with
  | rest hrest => exact absurd hb (hrest b)
  | @move n s t a ha hnext ih =>
      refine ⟨n, rfl, ?_⟩
      by_cases hab : a = b
      · rw [← hab]
        exact hnext
      · -- `b` still moves behind `a`, and then `a` behind `b`.
        obtain ⟨k, hk, hthen⟩ := ih (h.keep s a hs) (h.stays s a b hs hab ha hb)
        rw [h.commute s a b hs hab ha hb] at hthen
        rw [hk]
        exact .move a (h.stays s b a hs (Ne.symm hab) hb ha) hthen

/-- No step leads away from the state of rest. -/
theorem Commuting.moves_run (h : Commuting step CanMove I) (hs : I s)
    (hmoves : Moves step CanMove n s t) (as : List α) :
    ∃ k, k ≤ n ∧ Moves step CanMove k (run step s as) t := by
  induction as generalizing s n with
  | nil => exact ⟨n, Nat.le_refl n, hmoves⟩
  | cons a as ih =>
      rw [run_cons]
      by_cases ha : CanMove s a
      · obtain ⟨k, hk, hnext⟩ := h.moves_of_canMove hs hmoves ha
        obtain ⟨j, hj, hthen⟩ := ih (h.keep s a hs) hnext
        exact ⟨j, by omega, hthen⟩
      · rw [h.wait s a hs ha]
        exact ih hs hmoves

/-- A schedule that comes to rest, seen as moves. -/
theorem Commuting.moves_of_atRest (h : Commuting step CanMove I) (hs : I s) {as : List α}
    (hrest : AtRest CanMove (run step s as)) :
    ∃ n, Moves step CanMove n s (run step s as) := by
  induction as generalizing s with
  | nil => exact ⟨0, .rest hrest⟩
  | cons a as ih =>
      rw [run_cons] at hrest ⊢
      obtain ⟨n, hn⟩ := ih (h.keep s a hs) hrest
      by_cases ha : CanMove s a
      · exact ⟨n + 1, .move a ha hn⟩
      · rw [h.wait s a hs ha] at hn ⊢
        exact ⟨n, hn⟩

theorem Moves.eq_of_atRest (hmoves : Moves step CanMove n s t) (hrest : AtRest CanMove s) :
    s = t := by
  cases hmoves with
  | rest => rfl
  | move a ha => exact absurd ha (hrest a)

/-- All schedules that come to rest come to the same state. -/
theorem Commuting.atRest_unique (h : Commuting step CanMove I) (hs : I s) {as bs : List α}
    (ha : AtRest CanMove (run step s as)) (hb : AtRest CanMove (run step s bs)) :
    run step s as = run step s bs := by
  obtain ⟨n, hn⟩ := h.moves_of_atRest hs ha
  obtain ⟨k, -, hk⟩ := h.moves_run hs hn bs
  exact (hk.eq_of_atRest hb).symm

/-- The least number of moves to a state of rest. -/
noncomputable def movesLeft (step : σ → α → σ) (CanMove : σ → α → Prop) (t s : σ) : ℕ :=
  sInf {n | Moves step CanMove n s t}

theorem Commuting.movesLeft_lt (h : Commuting step CanMove I) (hs : I s)
    (hmoves : ∃ n, Moves step CanMove n s t) {a : α} (ha : CanMove s a) :
    movesLeft step CanMove t (step s a) < movesLeft step CanMove t s := by
  have hleast : Moves step CanMove (movesLeft step CanMove t s) s t := Nat.sInf_mem hmoves
  obtain ⟨k, hk, hnext⟩ := h.moves_of_canMove hs hleast ha
  have hle : movesLeft step CanMove t (step s a) ≤ k := Nat.sInf_le hnext
  omega

/-- If one schedule comes to rest, every fair one does. -/
theorem Commuting.fair_atRest (h : Commuting step CanMove I) (hs : I s) {as : List α}
    (hrest : AtRest CanMove (run step s as)) {schedule : ℕ → α} (hfair : Fair schedule) :
    ∃ m, AtRest CanMove (run step s (upTo schedule m)) := by
  generalize ht : run step s as = t at hrest
  let J : σ → Prop := fun s => I s ∧ ∃ n, Moves step CanMove n s t
  have hkeep : ∀ s a, J s → J (step s a) := by
    intro s a hJ
    obtain ⟨hI, n, hn⟩ := hJ
    obtain ⟨k, -, hk⟩ := h.moves_run hI hn [a]
    exact ⟨h.keep s a hI, k, hk⟩
  have hvariant : ∀ s a, J s → step s a = s ∨
      movesLeft step CanMove t (step s a) < movesLeft step CanMove t s := by
    intro s a hJ
    by_cases ha : CanMove s a
    · exact Or.inr (h.movesLeft_lt hJ.1 hJ.2 ha)
    · exact Or.inl (h.wait s a hJ.1 ha)
  have hprogress : ∀ s, J s → ¬ AtRest CanMove s → ∃ a, step s a ≠ s := by
    intro s hJ hmore
    obtain ⟨a, ha⟩ := not_forall_not.mp hmore
    refine ⟨a, fun heq => ?_⟩
    have hlt := h.movesLeft_lt hJ.1 hJ.2 ha
    rw [heq] at hlt
    exact Nat.lt_irrefl _ hlt
  have hstart : J s := by
    obtain ⟨n, hn⟩ := h.moves_of_atRest hs (ht ▸ hrest)
    exact ⟨hs, n, ht ▸ hn⟩
  obtain ⟨m, -, hm⟩ := hfair.eventually_of_variant hkeep hvariant hprogress hstart 0
  exact ⟨m, hm⟩

end Commuting

end RlsMini.Machine
