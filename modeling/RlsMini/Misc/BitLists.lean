import RlsMini.Lib.BitFields
import RlsMini.Lib.CInt
import RlsMini.Lib.Numerals

/-!
# Lists of bits

`misc.cpp` writes a list of bits, the least significant first, as a string of
digits with `misc_to_binstr` and as words of 16 bits with
`misc_arr_bin2uint16`.  The string is filled from its end and read from its
start; a bit of a word is set in the word that holds its position.

`WordsUpTo` is what the words hold in the middle of the loop: of every word the
bits that have been seen so far.
-/

namespace RlsMini.Misc

open BitFields Numerals

/-! ## Loops over arrays -/

section Loop

variable {σ : Type} {body : σ → Nat → σ} {I : Nat → σ → Prop}

/-- `for (int i = 0; i < n; i++)`. -/
def forInt (n : Int32) (body : σ → Nat → σ) (s : σ) : σ :=
  (List.range n.toInt.toNat).foldl body s

/-- What holds at first and is kept by every round holds in the end. -/
theorem forInt_induction {n : Int32} {s : σ} (hfirst : I 0 s)
    (hround : ∀ i s, i < n.toInt.toNat → I i s → I (i + 1) (body s i)) :
    I n.toInt.toNat (forInt n body s) := by
  unfold forInt
  generalize n.toInt.toNat = m at hround ⊢
  induction m with
  | zero => exact hfirst
  | succ m ih =>
      rw [List.range_succ, List.foldl_append]
      exact hround m _ (Nat.lt_succ_self m) (ih fun i s hi => hround i s (Nat.lt_succ_of_lt hi))

end Loop

/-! ## The encoders -/

/-- `misc_to_binstr`: the memory behind it, by index from `result`. -/
def miscToBinstr (a : Nat → Int32) (len : Int32) (result : Int → UInt8) : Int → UInt8 :=
  let result := forInt len (fun result i =>
    Function.update result (len.toInt - 1 - i) (a i + 0x30).toUInt32.toUInt8) result
  Function.update result len.toInt 0

/-- `misc_arr_bin2uint16`: the result, and the memory by index from
`result`. -/
def miscArrBin2uint16 (bits : Nat → UInt32) (len : Int32) (result : Int → UInt16)
    (resLen : Int32) : Bool × (Int → UInt16) :=
  if resLen * 16 < len then (false, result)
  else
    let result := forInt resLen (fun result i => Function.update result (i : Int) 0) result
    let result := forInt len (fun result i =>
      if bits i ≠ 0 then
        let wordIndex : Int := (i / 16 : Nat)
        let bitPosition := i % 16
        Function.update result wordIndex
          ((result wordIndex).toUInt32 ||| (bits i <<< UInt32.ofNat bitPosition)).toUInt16
      else result) result
    (true, result)

/-! ## The string -/

/-- The memory holds the string `cs` with its terminating NUL. -/
structure HoldsString (mem : Int → UInt8) (cs : List UInt8) : Prop where
  chars : ∀ k, (h : k < cs.length) → mem k = cs[k]
  nul : mem cs.length = 0
  noNul : 0 ∉ cs

/-- The value of a digit. -/
def digitVal (c : UInt8) : Nat := c.toNat - 0x30

/-- The character of a bit. -/
def bitChar (bit : UInt32) : UInt8 := if bit = 0 then 0x30 else 0x31

theorem digitVal_bitChar {bit : UInt32} (hbit : bit = 0 ∨ bit = 1) :
    digitVal (bitChar bit) = bit.toNat := by
  rcases hbit with rfl | rfl <;> rfl

/-- The characters of the first `i` bits are at the end. -/
theorem miscToBinstr_eq {a : Nat → Int32} {bits : Nat → UInt32} {len : Int32}
    (hlen : 0 ≤ len.toInt) (hbits : ∀ i, i < len.toInt.toNat → bits i = 0 ∨ bits i = 1)
    (ha : ∀ i, i < len.toInt.toNat → a i = (bits i).toInt32) (result : Int → UInt8) :
    HoldsString (miscToBinstr a len result)
      ((List.range len.toInt.toNat).map fun k => bitChar (bits (len.toInt.toNat - 1 - k))) := by
  have hchar : ∀ i, i < len.toInt.toNat → (a i + 0x30).toUInt32.toUInt8 = bitChar (bits i) := by
    intro i hi
    rw [ha i hi]
    rcases hbits i hi with h | h <;> rw [h] <;> rfl
  have hfilled : ∀ j, j < len.toInt.toNat →
      forInt len (fun result i =>
        Function.update result (len.toInt - 1 - i) (a i + 0x30).toUInt32.toUInt8) result
        (len.toInt - 1 - j) = bitChar (bits j) := by
    refine forInt_induction
      (I := fun i (mem : Int → UInt8) => ∀ j, j < i → mem (len.toInt - 1 - j) = bitChar (bits j))
      (fun j hj => absurd hj (Nat.not_lt_zero j)) ?_
    intro i mem hi hmem j hj
    rcases Nat.lt_succ_iff_lt_or_eq.mp hj with hlt | rfl
    · rw [Function.update_of_ne (by omega)]
      exact hmem j hlt
    · rw [Function.update_self]
      exact hchar j hi
  refine ⟨fun k hk => ?_, ?_, ?_⟩
  · rw [List.length_map, List.length_range] at hk
    rw [miscToBinstr, Function.update_of_ne (by omega), List.getElem_map, List.getElem_range]
    have hindex : (k : Int) = len.toInt - 1 - (len.toInt.toNat - 1 - k : Nat) := by omega
    rw [hindex]
    exact hfilled _ (by omega)
  · rw [List.length_map, List.length_range, miscToBinstr, Int.toNat_of_nonneg hlen,
      Function.update_self]
  · rw [List.mem_map]
    intro hmem
    obtain ⟨k, -, hk⟩ := hmem
    unfold bitChar at hk
    split at hk <;> exact absurd hk (by decide)

/-! ## The words -/

/-- The bits from `i` on are still missing in the words at `mem`. -/
structure WordsUpTo (bits : Nat → UInt32) (m i : Nat) (result mem : Int → UInt16) : Prop where
  word : ∀ j, j < m →
    (mem j).toNat = value 2 (min 16 (i - 16 * j)) fun p => (bits (16 * j + p)).toNat
  other : ∀ k : Int, (k < 0 ∨ m ≤ k) → mem k = result k

section Words

variable {bits : Nat → UInt32} {m i : Nat} {result mem : Int → UInt16}

/-- A bit above those of the word. -/
theorem toNat_setBit {w : UInt16} {p : Nat} (hp : p < 16) (hw : w.toNat < 2 ^ p) :
    (w.toUInt32 ||| ((1 : UInt32) <<< UInt32.ofNat p)).toUInt16.toNat = w.toNat + 1 * 2 ^ p := by
  have hpow : 2 ^ p ≤ 2 ^ 15 := Nat.pow_le_pow_right (by omega) (by omega)
  have hshift : ((1 : UInt32) <<< UInt32.ofNat p).toNat = 1 * 2 ^ p := by
    have hlt : 1 * 2 ^ p < 2 ^ 32 := by omega
    rw [UInt32.toNat_shiftLeft, UInt32.toNat_ofNat_of_lt' (by show p < 2 ^ 32; omega),
      Nat.mod_eq_of_lt (a := p) (by omega), Nat.shiftLeft_eq]
    exact Nat.mod_eq_of_lt hlt
  rw [UInt32.toNat_toUInt16, UInt32.toNat_or, UInt16.toNat_toUInt32, hshift, or_field hw]
  omega

/-- The loop that clears the words. -/
theorem wordsUpTo_zero (resLen : Int32) :
    WordsUpTo bits resLen.toInt.toNat 0 result
      (forInt resLen (fun result i => Function.update result (i : Int) 0) result) := by
  have hcleared : (∀ j, j < resLen.toInt.toNat →
      forInt resLen (fun result i => Function.update result (i : Int) 0) result (j : Nat) = 0) ∧
      ∀ k : Int, (k < 0 ∨ resLen.toInt.toNat ≤ k) →
        forInt resLen (fun result i => Function.update result (i : Int) 0) result k = result k := by
    refine forInt_induction (I := fun i (mem : Int → UInt16) =>
      (∀ j, j < i → mem (j : Nat) = 0) ∧ ∀ k : Int, (k < 0 ∨ i ≤ k) → mem k = result k)
      ⟨fun j hj => absurd hj (Nat.not_lt_zero j), fun _ _ => rfl⟩ ?_
    intro i mem _ hmem
    obtain ⟨hzero, hother⟩ := hmem
    refine ⟨fun j hj => ?_, fun k hk => ?_⟩
    · rcases Nat.lt_succ_iff_lt_or_eq.mp hj with hlt | rfl
      · rw [Function.update_of_ne (by omega)]
        exact hzero j hlt
      · exact Function.update_self _ _ _
    · rw [Function.update_of_ne (by omega)]
      exact hother k (by omega)
  refine ⟨fun j hj => ?_, hcleared.2⟩
  rw [hcleared.1 j hj, Nat.zero_sub, Nat.min_zero, value_zero]
  rfl

/-- The next bit is put into its word. -/
theorem WordsUpTo.round (h : WordsUpTo bits m i result mem) (hi : i < 16 * m)
    (hbits : ∀ k, k ≤ i → bits k = 0 ∨ bits k = 1) :
    WordsUpTo bits m (i + 1) result
      (if bits i ≠ 0 then
        Function.update mem ((i / 16 : Nat) : Int)
          ((mem ((i / 16 : Nat) : Int)).toUInt32 |||
            (bits i <<< UInt32.ofNat (i % 16))).toUInt16
      else mem) := by
  have hposition : 16 * (i / 16) + i % 16 = i := Nat.div_add_mod i 16
  have hword := h.word (i / 16) (by omega)
  have hcount : min 16 (i - 16 * (i / 16)) = i % 16 := by omega
  have hcount' : min 16 (i + 1 - 16 * (i / 16)) = i % 16 + 1 := by omega
  rw [hcount] at hword
  -- A word other than that of bit `i` has the same bits as before.
  have hsame : ∀ j, j ≠ i / 16 → min 16 (i + 1 - 16 * j) = min 16 (i - 16 * j) := by
    intro j hj
    omega
  rcases hbits i (Nat.le_refl i) with hzero | hone
  · rw [if_neg (not_not_intro hzero)]
    refine ⟨fun j hj => ?_, h.other⟩
    by_cases hj' : j = i / 16
    · rw [hj', hword, hcount', value_succ, hposition, hzero, UInt32.toNat_zero, Nat.zero_mul,
        Nat.add_zero]
    · rw [hsame j hj']
      exact h.word j hj
  · rw [if_pos (by rw [hone]; decide), hone]
    refine ⟨fun j hj => ?_, fun k hk => ?_⟩
    · by_cases hj' : j = i / 16
      · have hlt : (mem ((i / 16 : Nat) : Int)).toNat < 2 ^ (i % 16) := by
          rw [hword]
          refine value_lt fun p hp => ?_
          rcases hbits (16 * (i / 16) + p) (by omega) with hb | hb <;> rw [hb] <;> decide
        rw [hj', Function.update_self, toNat_setBit (Nat.mod_lt i (by omega)) hlt, hword, hcount',
          value_succ, hposition, hone]
        rfl
      · rw [Function.update_of_ne (by omega), hsame j hj']
        exact h.word j hj
    · rw [Function.update_of_ne (by omega)]
      exact h.other k hk

/-- What `misc_arr_bin2uint16` leaves when there is room for the bits. -/
theorem miscArrBin2uint16_eq (bits : Nat → UInt32) (result : Int → UInt16) {len resLen : Int32}
    (hroom : ¬ resLen * 16 < len)
    (hlen : len.toInt.toNat ≤ 16 * resLen.toInt.toNat)
    (hbits : ∀ i, i < len.toInt.toNat → bits i = 0 ∨ bits i = 1) :
    (miscArrBin2uint16 bits len result resLen).1 = true ∧
      WordsUpTo bits resLen.toInt.toNat len.toInt.toNat result
        (miscArrBin2uint16 bits len result resLen).2 := by
  rw [miscArrBin2uint16, if_neg hroom]
  refine ⟨rfl, forInt_induction (I := fun i mem =>
    WordsUpTo bits resLen.toInt.toNat i result mem) (wordsUpTo_zero resLen) ?_⟩
  intro i mem hi hmem
  exact hmem.round (by omega) fun k hk => hbits k (by omega)

/-- The words denote the number of the bits. -/
theorem WordsUpTo.sum_eq (h : WordsUpTo bits m i result mem) (hi : i ≤ 16 * m) :
    ∑ j ∈ Finset.range m, (mem j).toNat * 2 ^ (16 * j) =
      ∑ k ∈ Finset.range i, (bits k).toNat * 2 ^ k := by
  have hwords : ∑ j ∈ Finset.range m, (mem j).toNat * 2 ^ (16 * j) =
      ∑ j ∈ Finset.range m,
        value 2 (min 16 (i - 16 * j)) (fun p => (bits (16 * j + p)).toNat) * 2 ^ (16 * j) := by
    apply Finset.sum_congr rfl
    intro j hj
    rw [h.word j (Finset.mem_range.mp hj)]
  rw [hwords, sum_words 2 16 i m fun k => (bits k).toNat, Nat.min_eq_left hi]
  rfl

end Words

/-- Both encoders denote the number of the bits. -/
theorem bit_lists_agree (a : Nat → Int32) (bits : Nat → UInt32) (len resLen : Int32)
    (str : Int → UInt8) (result : Int → UInt16) (hlen : 0 ≤ len.toInt)
    (hlow : -2 ^ 31 ≤ 16 * resLen.toInt) (hhigh : 16 * resLen.toInt < 2 ^ 31)
    (hbits : ∀ i, i < len.toInt.toNat → bits i = 0 ∨ bits i = 1)
    (ha : ∀ i, i < len.toInt.toNat → a i = (bits i).toInt32) :
    (len.toInt ≤ 16 * resLen.toInt →
      (miscArrBin2uint16 bits len result resLen).1 = true ∧
      ∑ j ∈ Finset.range resLen.toInt.toNat,
          ((miscArrBin2uint16 bits len result resLen).2 j).toNat * 2 ^ (16 * j) =
        ∑ i ∈ Finset.range len.toInt.toNat, (bits i).toNat * 2 ^ i ∧
      ∃ cs, HoldsString (miscToBinstr a len str) cs ∧ (cs.length : Int) = len.toInt ∧
        (∀ c ∈ cs, c = 0x30 ∨ c = 0x31) ∧
        numeral 2 (cs.map digitVal) =
          ∑ i ∈ Finset.range len.toInt.toNat, (bits i).toNat * 2 ^ i) ∧
    (16 * resLen.toInt < len.toInt →
      miscArrBin2uint16 bits len result resLen = (false, result)) := by
  have hproduct : (resLen * 16).toInt = 16 * resLen.toInt := by
    have hsixteen : (16 : Int32).toInt = 16 := by decide
    rw [Int32.toInt_mul, hsixteen, Int.bmod_eq_of_le (by omega) (by omega), Int.mul_comm]
  have htest : resLen * 16 < len ↔ 16 * resLen.toInt < len.toInt := by
    rw [Int32.lt_iff_toInt_lt, hproduct]
  refine ⟨fun hroom => ?_, fun hfull => ?_⟩
  · obtain ⟨htrue, hwords⟩ :=
      miscArrBin2uint16_eq bits result (by rw [htest]; omega) (by omega) hbits
    refine ⟨htrue, hwords.sum_eq (by omega), _, miscToBinstr_eq hlen hbits ha str, ?_, ?_, ?_⟩
    · rw [List.length_map, List.length_range]
      omega
    · intro c hc
      obtain ⟨k, -, rfl⟩ := List.mem_map.mp hc
      unfold bitChar
      split
      · exact Or.inl rfl
      · exact Or.inr rfl
    · rw [List.map_map]
      have hdigits : (List.range len.toInt.toNat).map
            (digitVal ∘ fun k => bitChar (bits (len.toInt.toNat - 1 - k))) =
          (List.range len.toInt.toNat).map fun k => (bits (len.toInt.toNat - 1 - k)).toNat := by
        apply List.map_congr_left
        intro k hk
        have hlt := List.mem_range.mp hk
        exact digitVal_bitChar (hbits _ (by omega))
      rw [hdigits, numeral_reverse 2 _ fun i => (bits i).toNat]
      rfl
  · rw [miscArrBin2uint16, if_pos (htest.mpr hfull)]

/-- Ones and zeros by turns. -/
def byTurns (i : Nat) : UInt32 := if i % 2 = 0 then 1 else 0

theorem byTurns_bit (i : Nat) : byTurns i = 0 ∨ byTurns i = 1 := by
  unfold byTurns
  split
  · exact Or.inr rfl
  · exact Or.inl rfl

/-- Twenty bits need two words. -/
theorem bit_lists_agree_twenty :
    let res := (miscArrBin2uint16 byTurns 20 (fun _ => 7) 2).2
    (miscArrBin2uint16 byTurns 20 (fun _ => 7) 2).1 = true ∧
      (res 0).toNat + (res 1).toNat * 2 ^ 16 = 0x55555 ∧
      (∃ cs, HoldsString (miscToBinstr (fun i => (byTurns i).toInt32) 20 fun _ => 7) cs ∧
        (cs.length : Int) = 20 ∧ numeral 2 (cs.map digitVal) = 0x55555) ∧
      miscArrBin2uint16 byTurns 20 (fun _ => 7) 1 = (false, fun _ => 7) := by
  intro res
  have hsum : ∑ i ∈ Finset.range (20 : Int32).toInt.toNat, (byTurns i).toNat * 2 ^ i = 0x55555 := by
    decide +kernel
  have hagree := fun resLen hlow hhigh => bit_lists_agree (fun i => (byTurns i).toInt32) byTurns 20
    resLen (fun _ => 7) (fun _ => 7) (by decide) hlow hhigh (fun i _ => byTurns_bit i)
    fun _ _ => rfl
  obtain ⟨htrue, hwords, cs, hcs, hlength, -, hvalue⟩ :=
    (hagree 2 (by decide) (by decide)).1 (by decide)
  rw [hsum] at hwords hvalue
  refine ⟨htrue, ?_, ⟨cs, hcs, hlength, hvalue⟩, (hagree 1 (by decide) (by decide)).2 (by decide)⟩
  rw [← hwords]
  show _ = ∑ j ∈ Finset.range 2, (res j).toNat * 2 ^ (16 * j)
  rw [Finset.sum_range_succ, Finset.sum_range_one, Nat.mul_zero, Nat.pow_zero, Nat.mul_one,
    Nat.cast_zero, Nat.cast_one, Nat.mul_one]

end RlsMini.Misc
