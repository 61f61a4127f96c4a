import Mathlib.Data.List.Infix
import Mathlib.InformationTheory.Coding.UniquelyDecodable

/-!
# Prefix codes

A set of codewords none of which is empty or begins with another one.  The
words of such a code can be written one behind the other without anything in
between: the text determines them.
-/

namespace RlsMini

open InformationTheory

variable {α : Type*} {S : Set (List α)}

/-- No codeword is empty, and none is a proper prefix of another. -/
structure PrefixCode (S : Set (List α)) : Prop where
  nil_notMem : [] ∉ S
  eq_of_prefix : ∀ w ∈ S, ∀ w' ∈ S, w <+: w' → w = w'

/-- Two codewords with which one text begins are the same. -/
theorem PrefixCode.eq_of_append_eq (h : PrefixCode S) {w w' rest rest' : List α} (hw : w ∈ S)
    (hw' : w' ∈ S) (heq : w ++ rest = w' ++ rest') : w = w' := by
  have hprefix : w <+: w' ++ rest' := heq ▸ List.prefix_append w rest
  rcases List.prefix_or_prefix_of_prefix hprefix (List.prefix_append w' rest') with hle | hge
  · exact h.eq_of_prefix w hw w' hw' hle
  · exact (h.eq_of_prefix w' hw' w hw hge).symm

theorem PrefixCode.uniquelyDecodable (h : PrefixCode S) : UniquelyDecodable S := by
  intro L L' hL hL' heq
  -- A text that is used up leaves no room for a codeword.
  have hnil : ∀ (w : List α) (rest : List (List α)), w ∈ S → [] ≠ (w :: rest).flatten := by
    intro w rest hw hempty
    rw [List.flatten_cons] at hempty
    exact h.nil_notMem ((List.append_eq_nil_iff.mp hempty.symm).1 ▸ hw)
  induction L generalizing L' with
  | nil =>
      cases L' with
      | nil => rfl
      | cons w' rest' => exact absurd heq (hnil w' rest' (hL' w' List.mem_cons_self))
  | cons w rest ih =>
      cases L' with
      | nil => exact absurd heq.symm (hnil w rest (hL w List.mem_cons_self))
      | cons w' rest' =>
          rw [List.flatten_cons, List.flatten_cons] at heq
          have hhead : w = w' :=
            h.eq_of_append_eq (hL w List.mem_cons_self) (hL' w' List.mem_cons_self) heq
          rw [hhead] at heq
          have htail : rest = rest' :=
            ih rest' (fun v hv => hL v (List.mem_cons_of_mem w hv))
              (fun v hv => hL' v (List.mem_cons_of_mem w' hv)) (List.append_cancel_left heq)
          rw [hhead, htail]

end RlsMini
