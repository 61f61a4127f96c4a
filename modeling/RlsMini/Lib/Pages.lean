import Mathlib.Algebra.Order.Floor.Div
import Mathlib.Algebra.Order.Ring.Nat
import Mathlib.Data.Nat.Basic

/-!
# Mapped pages

An address space as the set of its mapped pages.  Mapping and unmapping a
range act on every page the range meets, so lengths are rounded up to pages.

`unmapped_iff` compares the two roundings: unmapping `u` bytes at the start of
a mapping of `m` bytes releases all of it exactly when both lengths round up
to the same number of pages, or the second to more.
-/

namespace RlsMini.Pages

/-- The pages of `pageSize` bytes that the range `[addr, addr + len)` meets. -/
def pagesOf (pageSize addr len : Nat) : Set Nat :=
  { p | p * pageSize < addr + len ∧ addr < (p + 1) * pageSize }

/-- The mapped pages after mapping a range. -/
def map (pageSize addr len : Nat) (mapped : Set Nat) : Set Nat :=
  mapped ∪ pagesOf pageSize addr len

/-- The mapped pages after unmapping a range. -/
def unmap (pageSize addr len : Nat) (mapped : Set Nat) : Set Nat :=
  mapped \ pagesOf pageSize addr len

theorem mul_lt_iff_lt_ceilDiv {pageSize len n : Nat} (hsize : 0 < pageSize) :
    n * pageSize < len ↔ n < len ⌈/⌉ pageSize := by
  rw [← not_le, ← not_le, not_iff_not, ceilDiv_le_iff_le_smul hsize, smul_eq_mul, Nat.mul_comm]

/-- A range that starts on a page boundary has its pages there on. -/
theorem mem_pagesOf_aligned {pageSize start len p : Nat} (hsize : 0 < pageSize) :
    p ∈ pagesOf pageSize (start * pageSize) len ↔
      start ≤ p ∧ p - start < len ⌈/⌉ pageSize := by
  have hle : start * pageSize < (p + 1) * pageSize ↔ start ≤ p := by
    rw [Nat.mul_lt_mul_right hsize]
    exact Nat.lt_succ_iff
  show p * pageSize < start * pageSize + len ∧ start * pageSize < (p + 1) * pageSize ↔ _
  rw [hle, and_comm]
  refine and_congr_right fun h => ?_
  have hsub : (p - start) * pageSize = p * pageSize - start * pageSize := Nat.sub_mul _ _ _
  have hmono : start * pageSize ≤ p * pageSize := Nat.mul_le_mul_right _ h
  rw [← mul_lt_iff_lt_ceilDiv hsize]
  omega

/-- Unmapping the first `u` bytes of a mapping of `m` bytes leaves no page of
it exactly when `u` has as many pages as `m`. -/
theorem unmapped_iff {pageSize start m u : Nat} (hsize : 0 < pageSize) :
    unmap pageSize (start * pageSize) u (map pageSize (start * pageSize) m ∅) = ∅ ↔
      m ⌈/⌉ pageSize ≤ u ⌈/⌉ pageSize := by
  rw [unmap, map, Set.empty_union, Set.sdiff_eq_empty]
  constructor
  · intro hsub
    by_contra hlt
    -- The first page behind the unmapped ones is still there.
    have hmem := hsub ((mem_pagesOf_aligned hsize).mpr
      ⟨Nat.le_add_right start (u ⌈/⌉ pageSize), by omega⟩)
    have hlt' := ((mem_pagesOf_aligned hsize).mp hmem).2
    omega
  · intro hle p hp
    rw [mem_pagesOf_aligned hsize] at hp ⊢
    exact ⟨hp.1, lt_of_lt_of_le hp.2 hle⟩

end RlsMini.Pages
