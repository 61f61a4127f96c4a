import RlsMini.Samples.SampleFile

/-!
# Lines and rows

What `fgets` returns of a line of the file, and how many rows the line gives.
`fgets` hands a line out in pieces of 255 characters, and every piece counts
for itself, so a long line can give several rows; what the characters are is
not looked at.

`rows_eq_nil_iff` says which lines give no row, and
`accepts_line_format_iff` in which files the rows are just the lines that
start with 64 hexadecimal digits.
-/

namespace RlsMini.Samples

open RlsMini.Dma RlsMini.Hex

/-! ## What `fgets` returns of a line -/

/-- A line with its newline, read into `room` characters. -/
theorem readLine_newline {line : List Char} (hline : '\n' ∉ line) (room : Nat)
    (rest : List Char) :
    readLine room (line ++ '\n' :: rest) =
      ((line ++ ['\n']).take room, (line ++ ['\n']).drop room ++ rest) := by
  induction line generalizing room with
  | nil =>
      cases room with
      | zero => rfl
      | succ room => simp [readLine]
  | cons c line ih =>
      have hc : c ≠ '\n' := fun heq => hline (by simp [heq])
      have htail : '\n' ∉ line := fun hmem => hline (List.mem_cons_of_mem c hmem)
      cases room with
      | zero => simp [readLine]
      | succ room => simp [readLine, hc, ih htail]

/-- A last line without a newline. -/
theorem readLine_last {line : List Char} (hline : '\n' ∉ line) (room : Nat) :
    readLine room line = (line.take room, line.drop room) := by
  induction line generalizing room with
  | nil => cases room <;> rfl
  | cons c line ih =>
      have hc : c ≠ '\n' := fun heq => hline (by simp [heq])
      have htail : '\n' ∉ line := fun hmem => hline (List.mem_cons_of_mem c hmem)
      cases room with
      | zero => rfl
      | succ room => simp [readLine, hc, ih htail]

/-- A line of the file, with its newline if it has one. -/
def IsLine (line : List Char) : Prop :=
  ∃ body, '\n' ∉ body ∧ (line = body ∨ line = body ++ ['\n'])

/-- What is left of a line is a line. -/
theorem IsLine.drop {line : List Char} (h : IsLine line) (n : Nat) : IsLine (line.drop n) := by
  obtain ⟨body, hbody, rfl | rfl⟩ := h
  · exact ⟨line.drop n, fun hmem => hbody (List.mem_of_mem_drop hmem), Or.inl rfl⟩
  · by_cases hn : n ≤ body.length
    · refine ⟨body.drop n, fun hmem => hbody (List.mem_of_mem_drop hmem), Or.inr ?_⟩
      exact List.drop_append_of_le_length hn
    · refine ⟨[], List.not_mem_nil, Or.inl ?_⟩
      rw [List.drop_eq_nil_iff, List.length_append, List.length_singleton]
      omega

/-! ## The rows of a line -/

/-- The row of what `fgets` has returned, if it counts. -/
def pieceRows (line : List Char) : List Row :=
  if 64 ≤ lineLen line then [parseRow (line.take (lineLen line))] else []

theorem rows_of_fgets {rest line rest' : List Char} (h : fgets rest = some (line, rest')) :
    rows rest = pieceRows line ++ rows rest' := by
  rw [rows_of_fgets_some h, pieceRows]
  split <;> rfl

@[simp] theorem rows_nil : rows [] = [] := rows_of_fgets_none rfl

/-- A line is read in pieces of 255 characters. -/
theorem IsLine.rows_eq {line : List Char} (h : IsLine line) :
    rows line = pieceRows (line.take 255) ++ rows (line.drop 255) := by
  by_cases hne : line = []
  · subst hne
    rfl
  · have hread : readLine 255 line = (line.take 255, line.drop 255) := by
      obtain ⟨body, hbody, rfl | rfl⟩ := h
      · exact readLine_last hbody 255
      · rw [readLine_newline hbody 255 [], List.append_nil]
    exact rows_of_fgets (by rw [fgets, if_neg hne, hread])

/-- The rows of a line do not depend on what follows it. -/
theorem rows_append {body : List Char} (hbody : '\n' ∉ body) (rest : List Char) :
    rows (body ++ '\n' :: rest) = rows (body ++ ['\n']) ++ rows rest := by
  induction hn : body.length using Nat.strongRecOn generalizing body with
  | ind n ih =>
      have hread : fgets (body ++ '\n' :: rest) =
          some ((body ++ ['\n']).take 255, (body ++ ['\n']).drop 255 ++ rest) := by
        rw [fgets, if_neg (by simp), readLine_newline hbody]
      have hline : IsLine (body ++ ['\n']) := ⟨body, hbody, Or.inr rfl⟩
      rw [rows_of_fgets hread, hline.rows_eq, List.append_assoc]
      congr 1
      by_cases hlong : 255 ≤ body.length
      · have htail : '\n' ∉ body.drop 255 := fun hmem => hbody (List.mem_of_mem_drop hmem)
        have hlen : (body.drop 255).length < n := by
          rw [List.length_drop]
          omega
        rw [List.drop_append_of_le_length hlong, List.append_assoc, List.singleton_append]
        exact ih _ hlen htail rfl
      · have hdone : (body ++ ['\n']).drop 255 = [] := by
          rw [List.drop_eq_nil_iff, List.length_append, List.length_singleton]
          omega
        rw [hdone, List.nil_append, rows_nil, List.nil_append]

/-! ## Which lines give a row -/

/-- At most two characters are taken for the line end. -/
theorem length_le_lineLen {line : List Char} (hnul : '\x00' ∉ line) :
    line.length ≤ lineLen line + 2 := by
  unfold lineLen
  rw [cString_eq hnul]
  grind

/-- A character that is no line end is not cut off. -/
theorem le_lineLen {cs : List Char} (hnul : '\x00' ∉ cs) {n : Nat} {c : Char}
    (hc : cs[n]? = some c) (hnl : c ≠ '\n') (hcr : c ≠ '\r') : n + 1 ≤ lineLen cs := by
  unfold lineLen
  rw [cString_eq hnul]
  grind

theorem notMem_take {line : List Char} {c : Char} (h : c ∉ line) (n : Nat) : c ∉ line.take n :=
  fun hmem => h (List.mem_of_mem_take hmem)

theorem notMem_drop {line : List Char} {c : Char} (h : c ∉ line) (n : Nat) : c ∉ line.drop n :=
  fun hmem => h (List.mem_of_mem_drop hmem)

/-- A line gives no row exactly if it is shorter than 64 characters. -/
theorem rows_eq_nil_iff {line : List Char} (h : IsLine line) (hnul : '\x00' ∉ line) :
    rows line = [] ↔ lineLen line < 64 := by
  have hlen := length_le_lineLen hnul
  rw [h.rows_eq, List.append_eq_nil_iff]
  by_cases hlong : line.length ≤ 255
  · rw [List.take_of_length_le hlong, List.drop_eq_nil_of_le hlong, rows_nil, pieceRows]
    split
    · exact iff_of_false (fun hnil => List.cons_ne_nil _ _ hnil.1) (by omega)
    · exact iff_of_true ⟨rfl, rfl⟩ (by omega)
  · -- the first piece is full
    have hpiece := length_le_lineLen (notMem_take hnul 255)
    rw [List.length_take] at hpiece
    rw [pieceRows, if_pos (by omega)]
    exact iff_of_false (fun hnil => List.cons_ne_nil _ _ hnil.1) (by omega)

/-- The first 64 characters are hexadecimal digits. -/
def StartsHex (line : List Char) : Prop :=
  64 ≤ line.length ∧ (line.take 64).all (fun c => (hexVal c).isSome) = true

instance (line : List Char) : Decidable (StartsHex line) :=
  inferInstanceAs (Decidable (_ ∧ _))

theorem hexVal_newline : hexVal '\n' = none := by decide

theorem hexVal_return : hexVal '\r' = none := by decide

/-- Digits are not cut off. -/
theorem StartsHex.le_lineLen {cs : List Char} (h : StartsHex cs) (hnul : '\x00' ∉ cs) :
    64 ≤ lineLen cs := by
  have hlt : 63 < cs.length := h.1
  have hdigit : (hexVal cs[63]).isSome = true := by
    apply List.all_eq_true.mp h.2
    rw [List.mem_take_iff_getElem]
    exact ⟨63, by omega, rfl⟩
  exact Samples.le_lineLen hnul (List.getElem?_eq_getElem hlt)
    (ne_of_isSome_hexVal hdigit hexVal_newline) (ne_of_isSome_hexVal hdigit hexVal_return)

/-- A line that starts with 64 digits gives a row, and another one for what is
left behind 255 characters if that is not shorter than 64. -/
theorem length_rows_of_startsHex {line : List Char} (h : IsLine line) (hnul : '\x00' ∉ line)
    (hhex : StartsHex line) :
    (rows line).length = 1 ↔ lineLen (line.drop 255) < 64 := by
  have hfirst : StartsHex (line.take 255) := by
    obtain ⟨hlen, hall⟩ := hhex
    refine ⟨?_, ?_⟩
    · rw [List.length_take]
      omega
    · rwa [List.take_take, Nat.min_eq_left (by decide)]
  have hpiece : 64 ≤ lineLen (line.take 255) := hfirst.le_lineLen (notMem_take hnul 255)
  rw [← rows_eq_nil_iff (h.drop 255) (notMem_drop hnul 255), h.rows_eq, pieceRows, if_pos hpiece,
    List.length_append, List.length_singleton, ← List.length_eq_zero_iff]
  omega

/-- A line gives one row or none, as its first 64 characters say. -/
def AsFormat (line : List Char) : Prop :=
  (rows line).length = if StartsHex line then 1 else 0

/-- What the format does not count is shorter than 64 characters: what is
behind the first 255 characters of a line that starts with 64 digits, and the
whole of any other line. -/
def ShortRest (line : List Char) : Prop :=
  lineLen (if StartsHex line then line.drop 255 else line) < 64

instance (line : List Char) : Decidable (ShortRest line) :=
  inferInstanceAs (Decidable (_ < _))

theorem asFormat_iff {line : List Char} (h : IsLine line) (hnul : '\x00' ∉ line) :
    AsFormat line ↔ ShortRest line := by
  unfold AsFormat ShortRest
  split
  · rename_i hhex
    exact length_rows_of_startsHex h hnul hhex
  · rw [List.length_eq_zero_iff]
    exact rows_eq_nil_iff h hnul

/-! ## The lines of a file -/

/-- The lines of a file, each with its newline if it has one. -/
def physicalLines : List Char → List (List Char)
  | [] => []
  | c :: cs =>
      if c = '\n' then [c] :: physicalLines cs
      else
        match physicalLines cs with
        | [] => [[c]]
        | line :: lines => (c :: line) :: lines

theorem physicalLines_newline {body : List Char} (hbody : '\n' ∉ body) (rest : List Char) :
    physicalLines (body ++ '\n' :: rest) = (body ++ ['\n']) :: physicalLines rest := by
  induction body with
  | nil => rfl
  | cons c body ih =>
      have hc : c ≠ '\n' := fun heq => hbody (by simp [heq])
      have htail := ih (fun hmem => hbody (List.mem_cons_of_mem c hmem))
      simp [physicalLines, hc, htail]

theorem physicalLines_last {body : List Char} (hbody : '\n' ∉ body) (hne : body ≠ []) :
    physicalLines body = [body] := by
  induction body with
  | nil => exact absurd rfl hne
  | cons c body ih =>
      have hc : c ≠ '\n' := fun heq => hbody (by simp [heq])
      by_cases hempty : body = []
      · subst hempty
        simp [physicalLines, hc]
      · have htail := ih (fun hmem => hbody (List.mem_cons_of_mem c hmem)) hempty
        simp [physicalLines, hc, htail]

/-- A file is a last line, or a line and the rest of the file. -/
theorem lines_induction {P : List Char → Prop} (hlast : ∀ body, '\n' ∉ body → P body)
    (hline : ∀ body rest, '\n' ∉ body → P rest → P (body ++ '\n' :: rest)) (text : List Char) :
    P text := by
  induction hn : text.length using Nat.strongRecOn generalizing text with
  | ind n ih =>
      by_cases hmem : '\n' ∈ text
      · obtain ⟨body, rest, rfl, hbody⟩ := List.eq_append_cons_of_mem hmem
        refine hline body rest hbody (ih rest.length ?_ rest rfl)
        rw [← hn, List.length_append, List.length_cons]
        omega
      · exact hlast text hmem

theorem flatten_physicalLines (text : List Char) : (physicalLines text).flatten = text := by
  induction text using lines_induction with
  | hlast body hbody =>
      by_cases hne : body = []
      · subst hne
        rfl
      · rw [physicalLines_last hbody hne, List.flatten_singleton]
  | hline body rest hbody ih =>
      rw [physicalLines_newline hbody, List.flatten_cons, ih, List.append_assoc,
        List.singleton_append]

/-- From the start of a line on, the rows of the line come first. -/
theorem rows_at_line {text : List Char} {pre post : List (List Char)} {line : List Char}
    (hsplit : physicalLines text = pre ++ line :: post) :
    IsLine line ∧ rows (line ++ post.flatten) = rows line ++ rows post.flatten := by
  induction text using lines_induction generalizing pre with
  | hlast body hbody =>
      by_cases hne : body = []
      · subst hne
        exact absurd hsplit (by simp [physicalLines])
      · rw [physicalLines_last hbody hne, eq_comm, List.append_eq_singleton_iff] at hsplit
        obtain ⟨-, hcons⟩ | ⟨-, hcons⟩ := hsplit
        · obtain ⟨rfl, rfl⟩ := List.cons.inj hcons
          refine ⟨⟨_, hbody, Or.inl rfl⟩, ?_⟩
          rw [List.flatten_nil, List.append_nil, rows_nil, List.append_nil]
        · exact absurd hcons (List.cons_ne_nil _ _)
  | hline body rest hbody ih =>
      rw [physicalLines_newline hbody] at hsplit
      cases pre with
      | nil =>
          obtain ⟨rfl, hpost⟩ := List.cons.inj hsplit
          have hrest : post.flatten = rest := by rw [← hpost, flatten_physicalLines]
          refine ⟨⟨body, hbody, Or.inr rfl⟩, ?_⟩
          rw [List.append_assoc, List.singleton_append, hrest]
          exact rows_append hbody rest
      | cons first pre =>
          exact ih (List.cons.inj hsplit).2

/-! ## The format -/

/-- The number of lines of the format. -/
def formatLines (text : List Char) : Nat := (physicalLines text).countP fun line => StartsHex line

/-- The rows that the two loops count are the lines that start with 64
hexadecimal digits. -/
structure AcceptsFormat (text : List Char) : Prop where
  /-- From the start of a line on, one row more is read than from its end, or
  as many. -/
  line : ∀ pre line post, physicalLines text = pre ++ line :: post →
    (rows (line ++ post.flatten)).length =
      (if StartsHex line then 1 else 0) + (rows post.flatten).length
  /-- What is left to read when `sample_offset` rows are skipped. -/
  total : ∀ sampleOffset maxSamples buffers,
    (readLoop maxSamples 0 (skipLoop sampleOffset 0 text) buffers).1 =
      min maxSamples (formatLines text - sampleOffset)

section Format

variable {text : List Char}

theorem notMem_of_mem_physicalLines (hnul : '\x00' ∉ text) {line : List Char}
    (hline : line ∈ physicalLines text) : '\x00' ∉ line := by
  intro hmem
  apply hnul
  rw [← flatten_physicalLines text]
  exact List.mem_flatten_of_mem hline hmem

/-- When every line counts as the format says, so does the file. -/
theorem length_rows_eq (h : ∀ line ∈ physicalLines text, AsFormat line) :
    (rows text).length = formatLines text := by
  have hsuffix : ∀ post pre, physicalLines text = pre ++ post →
      (rows post.flatten).length = post.countP fun line => StartsHex line := by
    intro post
    induction post with
    | nil =>
        intro pre _
        rw [List.flatten_nil, rows_nil]
        rfl
    | cons line post ih =>
        intro pre hsplit
        have hmem : line ∈ physicalLines text := by
          rw [hsplit]
          simp
        have hpost := ih (pre ++ [line]) (by rw [hsplit, List.append_assoc, List.singleton_append])
        rw [List.flatten_cons, (rows_at_line hsplit).2, List.length_append, h line hmem, hpost,
          List.countP_cons]
        simp only [decide_eq_true_eq]
        omega
  have hall := hsuffix (physicalLines text) [] rfl
  rwa [flatten_physicalLines] at hall

/-- The loops accept the lines of the format and nothing else exactly if no
line has 64 characters that the format does not count. -/
theorem accepts_line_format_iff (hnul : '\x00' ∉ text) :
    AcceptsFormat text ↔ ∀ line ∈ physicalLines text, ShortRest line := by
  have hformat : ∀ line ∈ physicalLines text, (AsFormat line ↔ ShortRest line) := by
    intro line hmem
    obtain ⟨pre, post, hsplit⟩ := List.append_of_mem hmem
    exact asFormat_iff (rows_at_line hsplit).1 (notMem_of_mem_physicalLines hnul hmem)
  constructor
  · intro h line hmem
    obtain ⟨pre, post, hsplit⟩ := List.append_of_mem hmem
    have hline := h.line pre line post hsplit
    rw [(rows_at_line hsplit).2, List.length_append] at hline
    exact (hformat line hmem).mp (Nat.add_right_cancel hline)
  · intro h
    have hall : ∀ line ∈ physicalLines text, AsFormat line :=
      fun line hmem => (hformat line hmem).mpr (h line hmem)
    constructor
    · intro pre line post hsplit
      have hmem : line ∈ physicalLines text := by
        rw [hsplit]
        simp
      rw [(rows_at_line hsplit).2, List.length_append, hall line hmem]
    · intro sampleOffset maxSamples buffers
      obtain ⟨hcount, -⟩ := readLoop_eq maxSamples 0 (skipLoop sampleOffset 0 text) buffers
        (Nat.zero_le _)
      rw [hcount, rows_skipLoop, List.length_drop, length_rows_eq hall, Nat.zero_add, Nat.sub_zero]

end Format

/-- 64 zeros with something behind them, and a short line. -/
theorem accepts_line_format_zeros :
    AcceptsFormat (List.replicate 64 '0' ++ ' ' :: '\n' :: 'x' :: []) := by
  refine (accepts_line_format_iff (by decide)).mpr fun line hline => ?_
  have hall : (physicalLines (List.replicate 64 '0' ++ ' ' :: '\n' :: 'x' :: [])).all
      (fun line => decide (ShortRest line)) = true := by decide
  exact of_decide_eq_true (List.all_eq_true.mp hall line hline)

/-- A line of 64 letters. -/
def letterLine : List Char := List.replicate 64 'z' ++ ['\n']

/-- It counts as a row. -/
theorem letter_line_counts : ¬ AcceptsFormat letterLine := by
  intro h
  have hcount := h.line [] letterLine [] (by decide)
  rw [List.flatten_nil, List.append_nil, if_neg (by decide), rows_nil] at hcount
  have hnil : rows letterLine = [] := List.length_eq_zero_iff.mp hcount
  have hline : IsLine letterLine := ⟨List.replicate 64 'z', by decide, Or.inr rfl⟩
  have hshort : lineLen letterLine < 64 := (rows_eq_nil_iff hline (by decide)).mp hnil
  exact absurd hshort (by decide)

end RlsMini.Samples
