import RlsMini.Samples.Lines

/-!
# From the text to the buffers

A list of rows is rendered as a text of one line a row, with short lines
anywhere in between, and `misc_read_8chs_from_file` gets the rows back.
`Renders rs text` is the format, and `rows_of_renders` says that the rows of
a rendering are the rows that were rendered.

Of any file at all, reading some rows and then the ones behind them is the
same as reading them at once: `read_in_pieces`.
-/

namespace RlsMini.Samples

open RlsMini.Dma RlsMini.Hex

/-! ## Renderings -/

/-- A line of 64 digits: four for the imaginary and four for the real part of
each column, in two's complement. -/
structure RendersRow (row : Row) (line : List Char) : Prop where
  length : line.length = 64
  digits : ∀ c ∈ line, (hexVal c).isSome = true
  im : ∀ ch : Fin 8, readHex ((line.drop (ch.val * 8)).take 4) = some (row ch).im.toNat
  re : ∀ ch : Fin 8, readHex ((line.drop (ch.val * 8 + 4)).take 4) = some (row ch).re.toNat

/-- A line that is no row. -/
structure IsShort (line : List Char) : Prop where
  length : line.length < 64
  newline : '\n' ∉ line
  nul : '\x00' ∉ line

/-- LF or CRLF. -/
def lineEnd (crlf : Bool) : List Char := if crlf then ['\r', '\n'] else ['\n']

/-- The text is a rendering of the rows: one line a row and short lines in
between, each with a line end, which the last one may lack. -/
inductive Renders : List Row → List Char → Prop where
  | nil : Renders [] []
  | lastRow {row line} : RendersRow row line → Renders [row] line
  | lastShort {line} : IsShort line → Renders [] line
  | row {row line rs text} (crlf : Bool) : RendersRow row line → Renders rs text →
      Renders (row :: rs) (line ++ lineEnd crlf ++ text)
  | short {line rs text} (crlf : Bool) : IsShort line → Renders rs text →
      Renders rs (line ++ lineEnd crlf ++ text)

/-! ## The rows of a rendering -/

section Rows

variable {row : Row} {line : List Char}

theorem RendersRow.newline (h : RendersRow row line) : '\n' ∉ line := fun hmem =>
  ne_of_isSome_hexVal (h.digits _ hmem) hexVal_newline rfl

theorem RendersRow.nul (h : RendersRow row line) : '\x00' ∉ line := fun hmem =>
  ne_of_isSome_hexVal (h.digits _ hmem) (d := '\x00') (by decide) rfl

/-- Four digits are read as the halfword that they denote. -/
theorem hexAt_eq {offset : Nat} {w : UInt16}
    (h : readHex ((line.drop offset).take 4) = some w.toNat) : hexAt line offset = w := by
  have hlt := w.toNat_lt
  rw [hexAt, strtoul16_of_readHex h (by omega), ← UInt16.toNat_inj, UInt64.toNat_toUInt16,
    UInt64.toNat_ofNat']
  omega

theorem RendersRow.parseRow_eq (h : RendersRow row line) : parseRow line = row := by
  funext ch
  have him : hexAt line (ch.val * 2 * 4) = (row ch).im := by
    rw [show ch.val * 2 * 4 = ch.val * 8 by omega]
    exact hexAt_eq (h.im ch)
  have hre : hexAt line ((ch.val * 2 + 1) * 4) = (row ch).re := by
    rw [show (ch.val * 2 + 1) * 4 = ch.val * 8 + 4 by omega]
    exact hexAt_eq (h.re ch)
  rw [parseRow, him, hre]

theorem nul_notMem_lineEnd (hnul : '\x00' ∉ line) (crlf : Bool) :
    '\x00' ∉ line ++ lineEnd crlf := by
  rw [List.mem_append, not_or]
  exact ⟨hnul, by cases crlf <;> decide⟩

/-- The line end is cut off. -/
theorem lineLen_lineEnd_le (hnul : '\x00' ∉ line) (crlf : Bool) :
    lineLen (line ++ lineEnd crlf) ≤ line.length := by
  unfold lineLen
  rw [cString_eq (nul_notMem_lineEnd hnul crlf)]
  cases crlf <;> simp only [lineEnd] <;> grind

theorem isLine_lineEnd (hnl : '\n' ∉ line) (crlf : Bool) : IsLine (line ++ lineEnd crlf) := by
  cases crlf with
  | false => exact ⟨line, hnl, Or.inr rfl⟩
  | true =>
      refine ⟨line ++ ['\r'], ?_, Or.inr (List.append_assoc line ['\r'] ['\n']).symm⟩
      rw [List.mem_append, not_or]
      exact ⟨hnl, by decide⟩

theorem rows_lineEnd (hnl : '\n' ∉ line) (crlf : Bool) (text : List Char) :
    rows (line ++ lineEnd crlf ++ text) = rows (line ++ lineEnd crlf) ++ rows text := by
  cases crlf with
  | false =>
      rw [show line ++ lineEnd false ++ text = line ++ '\n' :: text by simp [lineEnd]]
      exact rows_append hnl text
  | true =>
      have hbody : '\n' ∉ line ++ ['\r'] := by
        rw [List.mem_append, not_or]
        exact ⟨hnl, by decide⟩
      have hsplit : ∀ text, line ++ lineEnd true ++ text = (line ++ ['\r']) ++ '\n' :: text := by
        intro text
        simp [lineEnd]
      have hend := hsplit []
      rw [List.append_nil] at hend
      rw [hsplit, hend]
      exact rows_append hbody text

/-- A rendered row, with what is left of its line end, is read as the row. -/
theorem RendersRow.rows_line (h : RendersRow row line) {e : List Char}
    (hline : IsLine (line ++ e)) (hnul : '\x00' ∉ line ++ e) (hlen : lineLen (line ++ e) ≤ 64)
    (he : e.length ≤ 2) : rows (line ++ e) = [row] := by
  have hlength : (line ++ e).length = 64 + e.length := by rw [List.length_append, h.length]
  have htake : (line ++ e).take 64 = line := by
    rw [← h.length]
    exact List.take_left
  have hhex : StartsHex (line ++ e) := by
    refine ⟨by omega, ?_⟩
    rw [htake, List.all_eq_true]
    exact h.digits
  have hge : 64 ≤ lineLen (line ++ e) := hhex.le_lineLen hnul
  have hshort : (line ++ e).length ≤ 255 := by omega
  rw [hline.rows_eq, List.take_of_length_le hshort, List.drop_eq_nil_of_le hshort, rows_nil,
    List.append_nil, pieceRows, if_pos hge, Nat.le_antisymm hlen hge, htake, h.parseRow_eq]

/-- A short line gives no row. -/
theorem IsShort.rows_line (h : IsShort line) {e : List Char} (hline : IsLine (line ++ e))
    (hnul : '\x00' ∉ line ++ e) (hlen : lineLen (line ++ e) ≤ line.length) :
    rows (line ++ e) = [] :=
  (rows_eq_nil_iff hline hnul).mpr (Nat.lt_of_le_of_lt hlen h.length)

end Rows

/-- The rows of a rendering are the rows that were rendered. -/
theorem rows_of_renders {rs : List Row} {text : List Char} (h : Renders rs text) :
    rows text = rs := by
  induction h with
  | nil => exact rows_nil
  | @lastRow row line hrow =>
      have hend := List.append_nil line
      rw [← hend]
      exact hrow.rows_line ⟨line, hrow.newline, Or.inl hend⟩ (by rw [hend]; exact hrow.nul)
        (by rw [hend, ← hrow.length]; exact lineLen_le line) (Nat.zero_le _)
  | @lastShort line hshort =>
      have hend := List.append_nil line
      rw [← hend]
      exact hshort.rows_line ⟨line, hshort.newline, Or.inl hend⟩ (by rw [hend]; exact hshort.nul)
        (by rw [hend]; exact lineLen_le line)
  | @row row line rs text crlf hrow htext ih =>
      have hlen := lineLen_lineEnd_le hrow.nul crlf
      rw [hrow.length] at hlen
      rw [rows_lineEnd hrow.newline, ih, hrow.rows_line (isLine_lineEnd hrow.newline crlf)
        (nul_notMem_lineEnd hrow.nul crlf) hlen (by cases crlf <;> decide)]
      rfl
  | @short line rs text crlf hshort htext ih =>
      rw [rows_lineEnd hshort.newline, ih, hshort.rows_line (isLine_lineEnd hshort.newline crlf)
        (nul_notMem_lineEnd hshort.nul crlf) (lineLen_lineEnd_le hshort.nul crlf)]
      rfl

/-! ## What a call leaves -/

section Call

variable (text : List Char) (buffers : Fin 8 → Ram) (bufferSizeBytes sampleOffset : Nat)

/-- The halfwords behind a call that opens the file. -/
def loaded : Fin 8 → Ram :=
  (miscRead8chsFromFile (some text) buffers bufferSizeBytes sampleOffset).2

/-- A sample is the one of its row. -/
theorem loaded_sample (ch : Fin 8) {i : Nat} (hi : i < bufferSizeBytes / 2 / 2) :
    loaded text buffers bufferSizeBytes sampleOffset ch.rev (2 * i : Nat) =
        (fileRow text (sampleOffset + i) ch).re ∧
      loaded text buffers bufferSizeBytes sampleOffset ch.rev (2 * i + 1 : Nat) =
        (fileRow text (sampleOffset + i) ch).im := by
  have hre := miscRead8chsFromFile_half text buffers bufferSizeBytes sampleOffset ch.rev
    (h := 2 * i) (by omega)
  have him := miscRead8chsFromFile_half text buffers bufferSizeBytes sampleOffset ch.rev
    (h := 2 * i + 1) (by omega)
  rw [if_pos (by omega), Row.half, Fin.rev_rev, if_pos (by omega),
    show 2 * i / 2 = i by omega] at hre
  rw [if_pos (by omega), Row.half, Fin.rev_rev, if_neg (by omega),
    show (2 * i + 1) / 2 = i by omega] at him
  exact ⟨hre, him⟩

end Call

/-- The rows of a rendering come back: behind a call the buffers hold the rows
from `sample_offset` on as far as there is room, then zeros, and nothing else
is written. -/
theorem sample_file_round_trip {rs : List Row} {text : List Char} (hrenders : Renders rs text)
    (buffers : Fin 8 → Ram) (bufferSizeBytes sampleOffset : Nat) :
    let (ret, after) := miscRead8chsFromFile (some text) buffers bufferSizeBytes sampleOffset
    let elements := bufferSizeBytes / 2
    ret = 0 ∧
      (∀ (k : Fin 8) (h : Int), h < 0 ∨ elements ≤ h → after k h = buffers k h) ∧
      (∀ (ch : Fin 8) (i : Nat), i < elements / 2 →
        after (7 - ch) (2 * i : Nat) = (rs.getD (sampleOffset + i) zeroRow ch).re ∧
          after (7 - ch) (2 * i + 1 : Nat) = (rs.getD (sampleOffset + i) zeroRow ch).im) ∧
      ∀ (k : Fin 8) (h : Nat), 2 * (elements / 2) ≤ h → h < elements → after k h = 0 := by
  have hrev : ∀ ch : Fin 8, 7 - ch = ch.rev := by decide
  refine ⟨rfl, ?_, ?_, ?_⟩
  · rintro k h (hneg | hbehind)
    · exact miscRead8chsFromFile_of_neg (some text) buffers bufferSizeBytes sampleOffset k hneg
    · obtain ⟨n, rfl⟩ := Int.eq_ofNat_of_zero_le (show 0 ≤ h by omega)
      exact miscRead8chsFromFile_of_not_lt (some text) buffers bufferSizeBytes sampleOffset k
        (Int.ofNat_le.mp hbehind)
  · intro ch i hi
    rw [hrev, ← rows_of_renders hrenders]
    exact loaded_sample text buffers bufferSizeBytes sampleOffset ch hi
  · intro k h hlast hh
    have hhalf := miscRead8chsFromFile_half text buffers bufferSizeBytes sampleOffset k hh
    rwa [if_neg (by omega)] at hhalf

/-- A row of the samples 1 - 5i. -/
def sampleRow : Row := fun _ => { re := 0x0001, im := 0xfffb }

def sampleLine : List Char := (List.replicate 8 ['F', 'f', 'f', 'b', '0', '0', '0', '1']).flatten

theorem sampleLine_renders : RendersRow sampleRow sampleLine where
  length := by decide
  digits := List.all_eq_true.mp (by decide : sampleLine.all (fun c => (hexVal c).isSome) = true)
  im := by decide
  re := by decide

/-- A comment and two rows, read from the second row on into seven bytes: a
sample and one halfword more. -/
theorem sample_file_round_trip_two :
    let (ret, after) := miscRead8chsFromFile
      (some (['#'] ++ lineEnd false ++ (sampleLine ++ lineEnd true ++ sampleLine)))
      (fun _ _ => 7) 7 1
    ret = 0 ∧ after 7 0 = 0x0001 ∧ after 7 1 = 0xfffb ∧ after 0 2 = 0 ∧ after 0 3 = 7 := by
  have hrenders : Renders [sampleRow, sampleRow]
      (['#'] ++ lineEnd false ++ (sampleLine ++ lineEnd true ++ sampleLine)) :=
    .short false ⟨by decide, by decide, by decide⟩
      (.row true sampleLine_renders (.lastRow sampleLine_renders))
  obtain ⟨hret, hframe, hsamples, hzeros⟩ := sample_file_round_trip hrenders (fun _ _ => 7) 7 1
  obtain ⟨hre, him⟩ := hsamples 0 0 (by decide)
  exact ⟨hret, hre, him, hzeros 0 2 (by decide) (by decide), hframe 0 3 (Or.inr (by decide))⟩

/-! ## Reading in pieces -/

/-- The rows that a call leaves in buffers with room for `m` of them. -/
def rowsRead (text : List Char) (buffers : Fin 8 → Ram) (sampleOffset m : Nat) (slack : Fin 4) :
    List Row :=
  let after := loaded text buffers (4 * m + slack) sampleOffset
  (List.range m).map fun i ch =>
    { re := after ch.rev (2 * i : Nat)
      im := after ch.rev (2 * i + 1 : Nat) }

/-- They are rows of the file. -/
theorem rowsRead_eq (text : List Char) (buffers : Fin 8 → Ram) (sampleOffset m : Nat)
    (slack : Fin 4) :
    rowsRead text buffers sampleOffset m slack =
      (List.range m).map fun i => fileRow text (sampleOffset + i) := by
  refine List.map_congr_left fun i hi => ?_
  rw [List.mem_range] at hi
  funext ch
  obtain ⟨hre, him⟩ := loaded_sample text buffers (4 * m + slack) sampleOffset ch (i := i)
    (by omega)
  rw [hre, him]

/-- Reading `m₁` rows and then the `m₂` rows behind them leaves the same rows
as reading all of them at once, whatever the file holds and whatever has been
in the buffers. -/
theorem read_in_pieces (text : List Char) (buffers₁ buffers₂ buffers : Fin 8 → Ram)
    (sampleOffset m₁ m₂ : Nat) (slack₁ slack₂ slack : Fin 4) :
    rowsRead text buffers₁ sampleOffset m₁ slack₁ ++
        rowsRead text buffers₂ (sampleOffset + m₁) m₂ slack₂ =
      rowsRead text buffers sampleOffset (m₁ + m₂) slack := by
  rw [rowsRead_eq, rowsRead_eq, rowsRead_eq, List.range_add, List.map_append, List.map_map]
  congr 1
  refine List.map_congr_left fun i _ => ?_
  show fileRow text (sampleOffset + m₁ + i) = fileRow text (sampleOffset + (m₁ + i))
  rw [Nat.add_assoc]

end RlsMini.Samples
