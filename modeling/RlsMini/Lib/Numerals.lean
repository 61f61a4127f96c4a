import Mathlib.Algebra.BigOperators.Intervals
import Mathlib.Algebra.BigOperators.Ring.Finset
import Mathlib.Algebra.Order.Ring.Nat

/-!
# Numerals

`value b n d` is the number whose digits in base `b` are `d 0, …, d (n - 1)`,
the least significant first.  The same number is denoted by the digits in
reverse order, read one after another (`numeral_reverse`), and by words of `w`
digits each (`sum_words`).
-/

namespace RlsMini.Numerals

/-- The number with the digits `d 0` to `d (n - 1)` in base `b`. -/
def value (b n : Nat) (d : Nat → Nat) : Nat := ∑ i ∈ Finset.range n, d i * b ^ i

@[simp] theorem value_zero (b : Nat) (d : Nat → Nat) : value b 0 d = 0 := rfl

theorem value_succ (b n : Nat) (d : Nat → Nat) :
    value b (n + 1) d = value b n d + d n * b ^ n := Finset.sum_range_succ _ _

/-- The digits from `n` on are those of another number. -/
theorem value_add (b n m : Nat) (d : Nat → Nat) :
    value b (n + m) d = value b n d + value b m (fun i => d (n + i)) * b ^ n := by
  unfold value
  rw [Finset.sum_range_add, Finset.sum_mul]
  congr 1
  apply Finset.sum_congr rfl
  intro i _
  rw [pow_add, Nat.mul_assoc, Nat.mul_comm (b ^ i)]

/-- A number of `n` digits. -/
theorem value_lt {b n : Nat} {d : Nat → Nat} (hd : ∀ i, i < n → d i < b) : value b n d < b ^ n := by
  induction n with
  | zero => exact Nat.one_pos
  | succ n ih =>
      have hlow := ih fun i hi => hd i (Nat.lt_succ_of_lt hi)
      have hdigit : (d n + 1) * b ^ n ≤ b * b ^ n :=
        Nat.mul_le_mul_right _ (hd n (Nat.lt_succ_self n))
      rw [Nat.succ_mul] at hdigit
      rw [value_succ, pow_succ, Nat.mul_comm (b ^ n)]
      omega

/-! ## Most significant digit first -/

/-- The number that a list of digits denotes, read from the first to the
last. -/
def numeral (b : Nat) (ds : List Nat) : Nat := ds.foldl (fun v d => b * v + d) 0

theorem numeral_concat (b : Nat) (ds : List Nat) (d : Nat) :
    numeral b (ds ++ [d]) = b * numeral b ds + d := by
  simp [numeral]

/-- The digits in reverse order. -/
theorem numeral_reverse (b n : Nat) (d : Nat → Nat) :
    numeral b ((List.range n).map fun k => d (n - 1 - k)) = value b n d := by
  induction n generalizing d with
  | zero => rfl
  | succ n ih =>
      have hshift : (List.range n).map (fun k => d (n + 1 - 1 - k)) =
          (List.range n).map fun k => d (n - 1 - k + 1) := by
        apply List.map_congr_left
        intro k hk
        have hlt := List.mem_range.mp hk
        congr 1
        omega
      have hlast : d (n + 1 - 1 - n) = d 0 := congrArg d (by omega)
      rw [List.range_succ, List.map_append, List.map_singleton, numeral_concat, hshift,
        ih (fun i => d (i + 1)), hlast, Nat.add_comm n 1, value_add, value_succ, value_zero,
        pow_zero, pow_one]
      have hcomm : (fun i => d (i + 1)) = fun i => d (1 + i) :=
        funext fun i => congrArg d (Nat.add_comm i 1)
      rw [hcomm, Nat.mul_comm b]
      omega

/-! ## Words -/

/-- Of `n` digits, those that are in the `m` first words of `w` digits. -/
theorem sum_words (b w n m : Nat) (d : Nat → Nat) :
    ∑ j ∈ Finset.range m, value b (min w (n - w * j)) (fun p => d (w * j + p)) * b ^ (w * j) =
      value b (min n (w * m)) d := by
  induction m with
  | zero => simp
  | succ m ih =>
      rw [Finset.sum_range_succ, ih, Nat.mul_succ]
      rcases Nat.le_total n (w * m) with hle | hle
      · have hnone : min w (n - w * m) = 0 := by omega
        rw [hnone, value_zero, Nat.zero_mul, Nat.add_zero, Nat.min_eq_left hle,
          Nat.min_eq_left (by omega)]
      · have hmin : min n (w * m + w) = w * m + min w (n - w * m) := by omega
        rw [hmin, value_add, Nat.min_eq_right hle]

end RlsMini.Numerals
