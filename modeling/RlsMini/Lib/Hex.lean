import Mathlib.Algebra.Group.Nat.Defs
import Mathlib.Data.List.Basic

/-!
# Hexadecimal text

Fixed-width upper-case hexadecimal numbers as `printf` writes them, digits in
either case as a reader accepts them, and text as a list of newline-terminated
lines.  The result is the round trip `readHexLines_hexLines`: a text of
fixed-width lines reads back, line by line, as the numbers it was written
from.
-/

namespace RlsMini.Hex

/-! ## Digits -/

/-- The upper-case digit of a number below 16. -/
def hexDigit (d : Nat) : Char :=
  if d < 10 then Char.ofNat (48 + d) else Char.ofNat (55 + d)

/-- The value of a hexadecimal digit of either case. -/
def hexVal (c : Char) : Option Nat :=
  if 48 ≤ c.toNat ∧ c.toNat ≤ 57 then some (c.toNat - 48)
  else if 65 ≤ c.toNat ∧ c.toNat ≤ 70 then some (c.toNat - 55)
  else if 97 ≤ c.toNat ∧ c.toNat ≤ 102 then some (c.toNat - 87)
  else none

theorem hexVal_hexDigit : ∀ d, d < 16 → hexVal (hexDigit d) = some d := by decide

theorem hexDigit_ne_newline : ∀ d, d < 16 → hexDigit d ≠ '\n' := by decide

/-! ## Numbers -/

/-- The last `width` hexadecimal digits of `n`, most significant first. -/
def hex : Nat → Nat → List Char
  | 0, _ => []
  | width + 1, n => hex width (n / 16) ++ [hexDigit (n % 16)]

/-- The number a list of digits denotes, on top of the digits already read. -/
def readHexFrom : Nat → List Char → Option Nat
  | acc, [] => some acc
  | acc, c :: cs => (hexVal c).bind fun d => readHexFrom (16 * acc + d) cs

/-- The number a list of digits denotes, or `none` when a character is not a
digit. -/
def readHex (cs : List Char) : Option Nat := readHexFrom 0 cs

theorem newline_notMem_hex (width n : Nat) : '\n' ∉ hex width n := by
  induction width generalizing n with
  | zero => simp [hex]
  | succ width ih =>
      rw [hex, List.mem_append, List.mem_singleton, not_or]
      exact ⟨ih (n / 16), (hexDigit_ne_newline _ (Nat.mod_lt n (by decide))).symm⟩

theorem readHexFrom_append (acc : Nat) (cs ds : List Char) :
    readHexFrom acc (cs ++ ds) =
      (readHexFrom acc cs).bind fun acc' => readHexFrom acc' ds := by
  induction cs generalizing acc with
  | nil => rfl
  | cons c cs ih =>
      cases hc : hexVal c with
      | none => simp [readHexFrom, hc]
      | some d => simp [readHexFrom, hc, ih]

theorem readHex_hex (width n : Nat) : readHex (hex width n) = some (n % 16 ^ width) := by
  unfold readHex
  induction width generalizing n with
  | zero => simp [hex, readHexFrom, Nat.mod_one]
  | succ width ih =>
      have hdigit : hexVal (hexDigit (n % 16)) = some (n % 16) :=
        hexVal_hexDigit _ (Nat.mod_lt n (by decide))
      have hsplit : n % 16 ^ (width + 1) = 16 * (n / 16 % 16 ^ width) + n % 16 := by
        rw [Nat.pow_succ, Nat.mul_comm (16 ^ width) 16, Nat.mod_mul]
        omega
      simp [hex, readHexFrom_append, ih, readHexFrom, hdigit, hsplit]

/-! ## Lines -/

/-- The lines of a text; a last line without a newline counts as a line. -/
def lines : List Char → List (List Char)
  | [] => []
  | c :: cs =>
      if c = '\n' then [] :: lines cs
      else match lines cs with
        | [] => [[c]]
        | l :: ls => (c :: l) :: ls

theorem lines_append_newline (line rest : List Char) (hline : '\n' ∉ line) :
    lines (line ++ '\n' :: rest) = line :: lines rest := by
  induction line with
  | nil => simp [lines]
  | cons c line ih =>
      have hc : c ≠ '\n' := fun h => hline (by simp [h])
      have htail := ih (fun h => hline (List.mem_cons_of_mem c h))
      simp [lines, hc, htail]

/-- A text read back line by line as hexadecimal numbers. -/
def readHexLines (text : List Char) : Option (List Nat) :=
  (lines text).mapM readHex

/-- One number on a line of its own, as `fprintf` with a zero-padded `X`
conversion and a newline writes it. -/
def hexLine (width n : Nat) : List Char := hex width n ++ ['\n']

/-- Fixed-width lines read back as the numbers they were written from. -/
theorem readHexLines_hexLines (width : Nat) (ns : List Nat)
    (hns : ∀ n ∈ ns, n < 16 ^ width) :
    readHexLines (ns.flatMap (hexLine width)) = some ns := by
  unfold readHexLines
  induction ns with
  | nil => rfl
  | cons n ns ih =>
      have hn : n % 16 ^ width = n := Nat.mod_eq_of_lt (hns n (by simp))
      have htail := ih (fun m hm => hns m (List.mem_cons_of_mem n hm))
      rw [List.flatMap_cons, hexLine, List.append_assoc, List.singleton_append,
        lines_append_newline _ _ (newline_notMem_hex width n), List.mapM_cons,
        readHex_hex, hn, htail]
      rfl

end RlsMini.Hex
