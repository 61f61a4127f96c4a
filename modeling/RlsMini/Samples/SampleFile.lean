import RlsMini.Dma.Proxy
import RlsMini.Lib.Hex
import Mathlib.Data.Fin.Rev
import Mathlib.Data.List.GetD
import Mathlib.Data.List.TakeWhile

/-!
# The sample file

`misc_read_8chs_from_file` reads the rows of eight channels from a text file:
it skips `sample_offset` rows, fills the eight buffers with the next ones and
pads them with zeros.  Both loops read the file with `fgets` and count a row
for every result of at least 64 characters.

A file is a list of `Char`, each of which stands for one `char`, a byte of the
file: `fgets` and `strlen` count bytes.

`rows` lists the rows of a file the way the function counts them.
`rows_skipLoop` and `readLoop_eq` say what the two loops do in terms of it,
and `miscRead8chsFromFile_half` what the whole call leaves in the buffers.
-/

namespace RlsMini.Samples

open RlsMini.Dma RlsMini.Hex

/-! ## C strings and `fgets` -/

/-- At most `room` characters, up to and with the first newline, and what is
left of the file. -/
def readLine : (room : Nat) → List Char → List Char × List Char
  | 0, cs => ([], cs)
  | _ + 1, [] => ([], [])
  | room + 1, c :: cs =>
      if c = '\n' then ([c], cs)
      else
        let (line, rest) := readLine room cs
        (c :: line, rest)

/-- `fgets(line, sizeof(line), fp)` with `char line[256]`, at the position
whose characters are still to come. -/
def fgets (rest : List Char) : Option (List Char × List Char) :=
  if rest = [] then none else some (readLine 255 rest)

theorem length_readLine_le (room : Nat) (cs : List Char) :
    (readLine room cs).2.length ≤ cs.length := by
  induction room generalizing cs with
  | zero => exact Nat.le_refl _
  | succ room ih =>
      cases cs with
      | nil => exact Nat.le_refl _
      | cons c cs =>
          rw [readLine]
          split
          · simp
          · have := ih cs
            simp only [List.length_cons]
            omega

/-- Every successful `fgets` moves the position. -/
theorem length_fgets_lt {rest line rest' : List Char} (h : fgets rest = some (line, rest')) :
    rest'.length < rest.length := by
  unfold fgets at h
  split at h
  · contradiction
  · rename_i hne
    obtain ⟨c, cs, rfl⟩ := List.exists_cons_of_ne_nil hne
    rw [Option.some.injEq] at h
    have hrest : rest' = (readLine 255 (c :: cs)).2 := by rw [h]
    have hle := length_readLine_le 254 cs
    rw [hrest, readLine]
    split
    · simp
    · simp only [List.length_cons]
      omega

/-- The characters before the terminating NUL. -/
def cString (line : List Char) : List Char := line.takeWhile (· ≠ '\x00')

def isSpace (c : Char) : Bool := c = ' ' || (9 ≤ c.toNat && c.toNat ≤ 13)

/-- `strtoul(s, NULL, 16)` with a 64-bit `unsigned long`: white space, a sign,
the prefix `0x` when a digit follows it, and digits up to the first character
that is none.  A value that does not fit gives `ULONG_MAX`. -/
def strtoul16 (s : List Char) : UInt64 :=
  let s := (cString s).dropWhile isSpace
  let (negative, s) := match s with
    | '-' :: s => (true, s)
    | '+' :: s => (false, s)
    | s => (false, s)
  let s := match s with
    | '0' :: x :: c :: s =>
        if (x = 'x' ∨ x = 'X') ∧ (hexVal c).isSome then c :: s else '0' :: x :: c :: s
    | s => s
  let value := (s.map hexVal).takeWhile Option.isSome |>.foldl (fun v d => 16 * v + d.getD 0) 0
  if 2 ^ 64 ≤ value then UInt64.ofNat (2 ^ 64 - 1)
  else if negative then 0 - UInt64.ofNat value
  else UInt64.ofNat value

/-! ### Digits -/

theorem cString_eq {line : List Char} (hnul : '\x00' ∉ line) : cString line = line := by
  unfold cString
  rw [List.takeWhile_eq_self_iff]
  intro c hc
  rw [decide_eq_true_iff]
  exact fun heq => hnul (heq ▸ hc)

/-- No hexadecimal digit is a space, a sign, a line end, a NUL or an `x`. -/
theorem ne_of_isSome_hexVal {c d : Char} (hc : (hexVal c).isSome = true) (hd : hexVal d = none) :
    c ≠ d := by
  intro heq
  rw [heq, hd] at hc
  contradiction

theorem isSpace_of_isSome_hexVal {c : Char} (hc : (hexVal c).isSome = true) :
    isSpace c = false := by
  have hspace : c ≠ ' ' := ne_of_isSome_hexVal hc (by decide)
  unfold hexVal at hc
  unfold isSpace
  grind

/-- The digits that `readHex` reads are those that `strtoul` adds up. -/
theorem foldl_digits {digits : List Char} {acc n : Nat} (h : readHexFrom acc digits = some n) :
    ((digits.map hexVal).takeWhile Option.isSome).foldl (fun v d => 16 * v + d.getD 0) acc = n := by
  induction digits generalizing acc with
  | nil => exact Option.some.inj h
  | cons c digits ih =>
      cases hc : hexVal c with
      | none => simp [readHexFrom, hc] at h
      | some d =>
          simp only [readHexFrom, hc, Option.bind_some] at h
          simpa [hc] using ih h

theorem isSome_of_readHexFrom {digits : List Char} {acc n : Nat}
    (h : readHexFrom acc digits = some n) : ∀ c ∈ digits, (hexVal c).isSome = true := by
  induction digits generalizing acc with
  | nil => exact fun c hc => absurd hc List.not_mem_nil
  | cons c digits ih =>
      cases hc : hexVal c with
      | none => simp [readHexFrom, hc] at h
      | some d =>
          simp only [readHexFrom, hc, Option.bind_some] at h
          intro x hx
          rcases List.mem_cons.mp hx with rfl | hx
          · rw [hc]
            rfl
          · exact ih h x hx

/-- Digits have no sign. -/
theorem sign_of_digits : ∀ s : List Char, (∀ c ∈ s, (hexVal c).isSome = true) →
    (match s with
      | '-' :: s => (true, s)
      | '+' :: s => (false, s)
      | s => (false, s)) = (false, s) := by
  intro s hs
  split
  · exact absurd rfl (ne_of_isSome_hexVal (hs _ List.mem_cons_self) (d := '-') (by decide))
  · exact absurd rfl (ne_of_isSome_hexVal (hs _ List.mem_cons_self) (d := '+') (by decide))
  · rfl

/-- Digits have no prefix `0x`. -/
theorem prefix_of_digits : ∀ s : List Char, (∀ c ∈ s, (hexVal c).isSome = true) →
    (match s with
      | '0' :: x :: c :: s =>
          if (x = 'x' ∨ x = 'X') ∧ (hexVal c).isSome then c :: s else '0' :: x :: c :: s
      | s => s) = s := by
  intro s hs
  split
  · rename_i x c s
    have hx : (hexVal x).isSome = true := hs x (by simp)
    have hlower : x ≠ 'x' := ne_of_isSome_hexVal hx (by decide)
    have hupper : x ≠ 'X' := ne_of_isSome_hexVal hx (by decide)
    exact if_neg (fun hp => hp.1.elim hlower hupper)
  · rfl

/-- `strtoul` of digits is the number that they denote. -/
theorem strtoul16_of_readHex {digits : List Char} {n : Nat} (h : readHex digits = some n)
    (hlt : n < 2 ^ 64) : strtoul16 digits = UInt64.ofNat n := by
  have hdigits := isSome_of_readHexFrom h
  have hnul : '\x00' ∉ digits := fun hmem =>
    ne_of_isSome_hexVal (hdigits _ hmem) (d := '\x00') (by decide) rfl
  have hspace : digits.dropWhile isSpace = digits := by
    cases digits with
    | nil => rfl
    | cons c digits =>
        rw [List.dropWhile_cons, isSpace_of_isSome_hexVal (hdigits c List.mem_cons_self)]
        rfl
  unfold strtoul16
  rw [cString_eq hnul, hspace]
  dsimp only
  rw [sign_of_digits digits hdigits, prefix_of_digits digits hdigits, foldl_digits h,
    if_neg (by omega)]
  rfl

/-! ## Rows -/

/-- One sample of one channel: two `int16_t` values. -/
structure Sample where
  re : UInt16
  im : UInt16
  deriving DecidableEq, Repr

/-- The samples of the eight columns of a line. -/
abbrev Row := Fin 8 → Sample

/-- The row of a file that has none. -/
def zeroRow : Row := fun _ => ⟨0, 0⟩

/-- The length of a line without its line end, as both loops compute it. -/
def lineLen (cs : List Char) : Nat :=
  let len := (cString cs).length
  let len :=
    if 0 < len ∧ (cs[len - 1]? = some '\n' ∨ cs[len - 1]? = some '\r') then len - 1 else len
  if 0 < len ∧ cs[len - 1]? = some '\r' then len - 1 else len

/-- `(int16_t)strtoul(hex, NULL, 16)` of the four characters at `offset`. -/
def hexAt (line : List Char) (offset : Nat) : UInt16 :=
  (strtoul16 ((line.drop offset).take 4)).toUInt16

/-- The row of a line: column `ch` has its imaginary part first. -/
def parseRow (line : List Char) : Row := fun ch =>
  { re := hexAt line ((ch.val * 2 + 1) * 4)
    im := hexAt line (ch.val * 2 * 4) }

/-- The rows of a file, in order. -/
def rows (rest : List Char) : List Row :=
  match h : fgets rest with
  | none => []
  | some (line, rest') =>
      have := length_fgets_lt h
      if 64 ≤ lineLen line then parseRow (line.take (lineLen line)) :: rows rest' else rows rest'
termination_by rest.length

/-! ## Reading a file into the buffers -/

/-- The `while` loop that skips rows. -/
def skipLoop (sampleOffset samplesSkipped : Nat) (rest : List Char) : List Char :=
  if samplesSkipped < sampleOffset then
    match h : fgets rest with
    | none => rest
    | some (line, rest') =>
        have := length_fgets_lt h
        if 64 ≤ lineLen line then skipLoop sampleOffset (samplesSkipped + 1) rest'
        else skipLoop sampleOffset samplesSkipped rest'
  else rest
termination_by rest.length

/-- Store a row as sample `i` of the eight buffers: `buf16[ch]` is
`buffers[7 - ch]`. -/
def storeRow (row : Row) (i : Nat) (buffers : Fin 8 → Ram) : Fin 8 → Ram := fun k h =>
  if h = (i * 2 : Nat) then (row k.rev).re
  else if h = (i * 2 + 1 : Nat) then (row k.rev).im
  else buffers k h

/-- The `while` loop that reads rows: the final `sample_count` and the
buffers. -/
def readLoop (maxSamples sampleCount : Nat) (rest : List Char) (buffers : Fin 8 → Ram) :
    Nat × (Fin 8 → Ram) :=
  if sampleCount < maxSamples then
    match h : fgets rest with
    | none => (sampleCount, buffers)
    | some (line, rest') =>
        have := length_fgets_lt h
        -- The line end is cut off by a NUL before the length is tested.
        let line := line.take (lineLen line)
        if line.length < 64 then readLoop maxSamples sampleCount rest' buffers
        else
          readLoop maxSamples (sampleCount + 1) rest' (storeRow (parseRow line) sampleCount buffers)
  else (sampleCount, buffers)
termination_by rest.length

/-- `misc_read_8chs_from_file`.  `file` is the text behind `filename`, and
`none` when it cannot be opened.  `buffers` are the halfwords from the eight
buffer pointers on. -/
def miscRead8chsFromFile (file : Option (List Char)) (buffers : Fin 8 → Ram)
    (bufferSizeBytes sampleOffset : Nat) : Int × (Fin 8 → Ram) :=
  match file with
  | none => (-1, buffers)
  | some text =>
      let maxInt16Elements := bufferSizeBytes / 2
      let maxSamples := maxInt16Elements / 2
      let rest := skipLoop sampleOffset 0 text
      let (sampleCount, buffers) := readLoop maxSamples 0 rest buffers
      -- Pad remaining space in each buffer with zeros.
      (0, fun k h =>
        if (sampleCount * 2 : Nat) ≤ h ∧ h < maxInt16Elements then 0 else buffers k h)

/-! ## What is read -/

/-- Row `n` of a file, which goes on with zero rows. -/
def fileRow (text : List Char) (n : Nat) : Row := (rows text).getD n zeroRow

/-- Halfword `h` of a row stored in buffer `k`. -/
def Row.half (row : Row) (k : Fin 8) (h : Nat) : UInt16 :=
  if h % 2 = 0 then (row k.rev).re else (row k.rev).im

@[simp] theorem zeroRow_half (k : Fin 8) (h : Nat) : zeroRow.half k h = 0 := by
  unfold Row.half
  split <;> rfl

theorem rows_of_fgets_none {rest : List Char} (h : fgets rest = none) : rows rest = [] := by
  rw [rows]
  split
  · rfl
  · rename_i heq
    rw [h] at heq
    contradiction

theorem rows_of_fgets_some {rest line rest' : List Char} (h : fgets rest = some (line, rest')) :
    rows rest =
      if 64 ≤ lineLen line then parseRow (line.take (lineLen line)) :: rows rest'
      else rows rest' := by
  rw [rows]
  split
  · rename_i heq
    rw [h] at heq
    contradiction
  · rename_i line' rest'' heq
    rw [h, Option.some.injEq, Prod.mk.injEq] at heq
    obtain ⟨rfl, rfl⟩ := heq
    rfl

theorem lineLen_le (line : List Char) : lineLen line ≤ line.length := by
  have hle : (cString line).length ≤ line.length :=
    List.Sublist.length_le (List.takeWhile_sublist _)
  unfold lineLen
  grind

/-- Skipping rows drops them. -/
theorem rows_skipLoop (sampleOffset samplesSkipped : Nat) (rest : List Char) :
    rows (skipLoop sampleOffset samplesSkipped rest) =
      (rows rest).drop (sampleOffset - samplesSkipped) := by
  fun_induction skipLoop sampleOffset samplesSkipped rest with
  | case1 skipped rest hmore hnone =>
      rw [rows_of_fgets_none hnone, List.drop_nil]
  | case2 skipped rest hmore line rest' hline hlt hlong ih =>
      have hsub : sampleOffset - skipped = sampleOffset - (skipped + 1) + 1 := by omega
      rw [ih, rows_of_fgets_some hline, if_pos hlong, hsub, List.drop_succ_cons]
  | case3 skipped rest hmore line rest' hline hlt hshort ih =>
      rw [ih, rows_of_fgets_some hline, if_neg hshort]
  | case4 skipped rest hdone =>
      rw [Nat.sub_eq_zero_of_le (Nat.le_of_not_lt hdone), List.drop_zero]

theorem storeRow_natCast (row : Row) (i : Nat) (buffers : Fin 8 → Ram) (k : Fin 8) (h : Nat) :
    storeRow row i buffers k h = if h / 2 = i then row.half k h else buffers k h := by
  unfold storeRow Row.half
  have heven : ((h : Int) = (i * 2 : Nat)) ↔ h / 2 = i ∧ h % 2 = 0 := by omega
  have hodd : ((h : Int) = (i * 2 + 1 : Nat)) ↔ h / 2 = i ∧ h % 2 ≠ 0 := by omega
  simp only [heven, hodd]
  by_cases hi : h / 2 = i <;> by_cases hpar : h % 2 = 0 <;> simp [hi, hpar]

/-- The rows read are the rows of the file, as far as there is room. -/
theorem readLoop_eq (maxSamples sampleCount : Nat) (rest : List Char) (buffers : Fin 8 → Ram)
    (hroom : sampleCount ≤ maxSamples) :
    (readLoop maxSamples sampleCount rest buffers).1 =
        min maxSamples (sampleCount + (rows rest).length) ∧
      ∀ (k : Fin 8) (h : Nat),
        (readLoop maxSamples sampleCount rest buffers).2 k h =
          if sampleCount ≤ h / 2 ∧ h / 2 < min maxSamples (sampleCount + (rows rest).length) then
            ((rows rest).getD (h / 2 - sampleCount) zeroRow).half k h
          else buffers k h := by
  fun_induction readLoop maxSamples sampleCount rest buffers with
  | case1 count rest buffers hmore hnone =>
      rw [rows_of_fgets_none hnone]
      refine ⟨by simp; omega, ?_⟩
      intro k h
      rw [if_neg (by simp; omega)]
  | case2 count rest buffers hmore line₀ rest' hline hlt line hshort ih =>
      have hlen : ¬ 64 ≤ lineLen line₀ := by
        rw [List.length_take, Nat.min_eq_left (lineLen_le line₀)] at hshort
        omega
      rw [rows_of_fgets_some hline, if_neg hlen]
      exact ih hroom
  | case3 count rest buffers hmore line₀ rest' hline hlt line hlong ih =>
      have hlen : 64 ≤ lineLen line₀ := by
        rw [List.length_take, Nat.min_eq_left (lineLen_le line₀)] at hlong
        omega
      obtain ⟨hcount, hhalf⟩ := ih (by omega)
      rw [rows_of_fgets_some hline, if_pos hlen]
      refine ⟨by rw [hcount, List.length_cons]; omega, ?_⟩
      intro k h
      rw [hhalf k h, storeRow_natCast, List.length_cons]
      rcases Nat.lt_trichotomy (h / 2) count with hbefore | hthis | hafter
      · rw [if_neg (by omega), if_neg (by omega), if_neg (by omega)]
      · rw [if_neg (by omega), if_pos hthis, if_pos (by omega), hthis, Nat.sub_self]
        rfl
      · have hsub : h / 2 - count = h / 2 - (count + 1) + 1 := by omega
        by_cases hread : h / 2 < min maxSamples (count + 1 + (rows rest').length)
        · rw [if_pos (by omega), if_pos (by omega), hsub, List.getD_cons_succ]
        · rw [if_neg (by omega), if_neg (by omega), if_neg (by omega)]
  | case4 count rest buffers hdone =>
      refine ⟨by omega, ?_⟩
      intro k h
      rw [if_neg (by omega)]

/-- What a call that opens the file leaves in the buffers: the rows from
`sample_offset` on, and zeros behind the last whole sample. -/
theorem miscRead8chsFromFile_half (text : List Char) (buffers : Fin 8 → Ram)
    (bufferSizeBytes sampleOffset : Nat) (k : Fin 8) {h : Nat} (hh : h < bufferSizeBytes / 2) :
    (miscRead8chsFromFile (some text) buffers bufferSizeBytes sampleOffset).2 k h =
      if h / 2 < bufferSizeBytes / 2 / 2 then (fileRow text (sampleOffset + h / 2)).half k h
      else 0 := by
  obtain ⟨hcount, hhalf⟩ := readLoop_eq (bufferSizeBytes / 2 / 2) 0
    (skipLoop sampleOffset 0 text) buffers (Nat.zero_le _)
  rw [rows_skipLoop, Nat.sub_zero, Nat.zero_add] at hcount hhalf
  simp only [miscRead8chsFromFile, hcount, hhalf, Nat.zero_le, true_and, Nat.sub_zero]
  have hrow : ((rows text).drop sampleOffset).getD (h / 2) zeroRow =
      fileRow text (sampleOffset + h / 2) := by
    rw [fileRow, List.getD_eq_getElem?_getD, List.getElem?_drop, List.getD_eq_getElem?_getD]
  have hpad : (((min (bufferSizeBytes / 2 / 2) ((rows text).drop sampleOffset).length * 2 : Nat) :
      Int) ≤ h ∧ (h : Int) < (bufferSizeBytes / 2 : Nat)) ↔
        ¬ h / 2 < min (bufferSizeBytes / 2 / 2) ((rows text).drop sampleOffset).length := by
    omega
  by_cases hread : h / 2 < min (bufferSizeBytes / 2 / 2) ((rows text).drop sampleOffset).length
  · rw [if_neg (fun hp => hpad.mp hp hread), if_pos hread, if_pos (by omega), hrow]
  · rw [if_pos (hpad.mpr hread)]
    split
    · -- The rows have run out.
      rw [← hrow, List.getD_eq_default _ _ (by omega), zeroRow_half]
    · rfl

/-- Nothing else in the buffers is written. -/
theorem miscRead8chsFromFile_of_not_lt (file : Option (List Char)) (buffers : Fin 8 → Ram)
    (bufferSizeBytes sampleOffset : Nat) (k : Fin 8) {h : Nat} (hh : bufferSizeBytes / 2 ≤ h) :
    (miscRead8chsFromFile file buffers bufferSizeBytes sampleOffset).2 k h = buffers k h := by
  cases file with
  | none => rfl
  | some text =>
      obtain ⟨hcount, hhalf⟩ := readLoop_eq (bufferSizeBytes / 2 / 2) 0
        (skipLoop sampleOffset 0 text) buffers (Nat.zero_le _)
      simp only [miscRead8chsFromFile]
      rw [if_neg (by omega), hhalf, if_neg (by omega)]

theorem readLoop_of_neg (maxSamples sampleCount : Nat) (rest : List Char) (buffers : Fin 8 → Ram)
    (k : Fin 8) {h : Int} (hh : h < 0) :
    (readLoop maxSamples sampleCount rest buffers).2 k h = buffers k h := by
  fun_induction readLoop maxSamples sampleCount rest buffers with
  | case1 count rest buffers hmore hnone => rfl
  | case2 count rest buffers hmore line₀ rest' hline hlt line hshort ih => exact ih
  | case3 count rest buffers hmore line₀ rest' hline hlt line hlong ih =>
      rw [ih, storeRow, if_neg (by omega), if_neg (by omega)]
  | case4 count rest buffers hdone => rfl

/-- Nor is anything before them. -/
theorem miscRead8chsFromFile_of_neg (file : Option (List Char)) (buffers : Fin 8 → Ram)
    (bufferSizeBytes sampleOffset : Nat) (k : Fin 8) {h : Int} (hh : h < 0) :
    (miscRead8chsFromFile file buffers bufferSizeBytes sampleOffset).2 k h = buffers k h := by
  cases file with
  | none => rfl
  | some text =>
      simp only [miscRead8chsFromFile]
      rw [if_neg (by omega), readLoop_of_neg _ _ _ _ k hh]

end RlsMini.Samples
