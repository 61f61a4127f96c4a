import RlsMini.Lib.Machine

/-!
# Brackets of many kinds

A word of openings and closings, read from left to right by a stack that holds
what is open: a closing has to be that of the last thing opened.  A word that
leaves the stack empty is well nested.
-/

namespace RlsMini

variable {α : Type*}

/-- The opening or the closing of `a`. -/
inductive Bracket (α : Type*) where
  | opens (a : α)
  | closes (a : α)
  deriving DecidableEq, Repr

/-- The words in which everything is closed, what is opened last first. -/
inductive WellNested : List (Bracket α) → Prop where
  | nil : WellNested []
  | wrap (a : α) {w w' : List (Bracket α)} (h : WellNested w) (h' : WellNested w') :
      WellNested (.opens a :: w ++ .closes a :: w')

/-- The word closes what is on the stack, in its order, and is well nested
otherwise. -/
def ClosesAll : List α → List (Bracket α) → Prop
  | [], w => WellNested w
  | a :: stack, w => ∃ u v, w = u ++ .closes a :: v ∧ WellNested u ∧ ClosesAll stack v

/-- Something more may be opened and closed first. -/
theorem ClosesAll.wrap {stack : List α} {u v : List (Bracket α)} (a : α) (hu : WellNested u)
    (hv : ClosesAll stack v) : ClosesAll stack (.opens a :: u ++ .closes a :: v) := by
  cases stack with
  | nil => exact WellNested.wrap a hu hv
  | cons b stack =>
      obtain ⟨u', v', rfl, hu', hv'⟩ := hv
      refine ⟨.opens a :: u ++ .closes a :: u', v', ?_, .wrap a hu hu', hv'⟩
      simp only [List.append_assoc, List.cons_append]

namespace Bracket

variable [DecidableEq α]

/-- What is open, the last thing first; `none` behind a closing that does not
match. -/
def step : Option (List α) → Bracket α → Option (List α)
  | some stack, .opens a => some (a :: stack)
  | some (b :: stack), .closes a => if a = b then some stack else none
  | some [], .closes _ => none
  | none, _ => none

theorem run_none (w : List (Bracket α)) : Machine.run step none w = none := by
  induction w with
  | nil => rfl
  | cons x w ih => exact ih

/-- A word that empties the stack closes all that is on it. -/
theorem closesAll_of_run {stack : List α} {w : List (Bracket α)}
    (h : Machine.run step (some stack) w = some []) : ClosesAll stack w := by
  induction w generalizing stack with
  | nil =>
      obtain rfl : stack = [] := Option.some.inj h
      exact .nil
  | cons x w ih =>
      rw [Machine.run_cons] at h
      cases x with
      | opens a =>
          obtain ⟨u, v, rfl, hu, hv⟩ := ih h
          exact hv.wrap a hu
      | closes a =>
          cases stack with
          | nil =>
              rw [step, run_none] at h
              exact nomatch h
          | cons b stack =>
              simp only [step] at h
              split at h
              · rename_i heq
                exact heq ▸ ⟨[], w, rfl, .nil, ih h⟩
              · rw [run_none] at h
                exact nomatch h

theorem wellNested_of_run {w : List (Bracket α)} (h : Machine.run step (some []) w = some []) :
    WellNested w :=
  closesAll_of_run h

end Bracket

end RlsMini
