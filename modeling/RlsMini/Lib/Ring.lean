import Mathlib.Data.List.Nodup
import Mathlib.Data.Nat.ModEq

/-!
# Windows of a ring

Item `k` of a stream lives in slot `k % size` of a ring.  `slots size first
count` lists the slots of the `count` items from `first` on, oldest first.
The lemmas say what the two ends of the window do and when its slots are
distinct.
-/

namespace RlsMini.Ring

/-- The slots of the items `first .. first + count - 1`, oldest first. -/
def slots (size first count : Nat) : List Nat :=
  (List.range' first count).map (· % size)

/-- The oldest item leaves the window. -/
theorem slots_succ (size first count : Nat) :
    slots size first (count + 1) = first % size :: slots size (first + 1) count := by
  simp [slots, List.range'_succ]

/-- The next item enters the window. -/
theorem slots_concat (size first count : Nat) :
    slots size first (count + 1) = slots size first count ++ [(first + count) % size] := by
  simp [slots, List.range'_concat]

/-- Two items of one window share a slot only when they are the same item. -/
theorem mod_injOn {size first count i j : Nat} (hcount : count ≤ size)
    (hi : first ≤ i ∧ i < first + count) (hj : first ≤ j ∧ j < first + count)
    (heq : i % size = j % size) : i = j := by
  have hlt : ∀ a b, a ≤ b → b < a + size → a % size = b % size → a = b := by
    intro a b hab hb hmod
    have hdvd : size ∣ b - a := (Nat.modEq_iff_dvd' hab).mp hmod
    have hzero : b - a = 0 := Nat.eq_zero_of_dvd_of_lt hdvd (by omega)
    omega
  rcases Nat.le_total i j with hij | hij
  · exact hlt i j hij (by omega) heq
  · exact (hlt j i hij (by omega) heq.symm).symm

/-- Different items of one window are in different slots. -/
theorem slot_ne {size first count i j : Nat} (hcount : count ≤ size)
    (hi : first ≤ i ∧ i < first + count) (hj : first ≤ j ∧ j < first + count) (hne : i ≠ j) :
    ((i % size : Nat) : Int) ≠ (j % size : Nat) := by
  intro heq
  exact hne (mod_injOn hcount hi hj (by exact_mod_cast heq))

/-- A window no longer than the ring uses every slot at most once. -/
theorem nodup_slots {size first count : Nat} (hcount : count ≤ size) :
    (slots size first count).Nodup := by
  refine List.Nodup.map_on ?_ List.nodup_range'
  intro i hi j hj heq
  rw [List.mem_range'_1] at hi hj
  exact mod_injOn hcount hi hj heq

/-- While the window is shorter than the ring, the slot of the next item is
free. -/
theorem next_notMem_slots {size first count : Nat} (hcount : count < size) :
    (first + count) % size ∉ slots size first count := by
  intro hmem
  have h : (slots size first (count + 1)).Nodup := nodup_slots hcount
  rw [slots_concat, List.nodup_append] at h
  exact h.2.2 _ hmem _ (by simp) rfl

end RlsMini.Ring
