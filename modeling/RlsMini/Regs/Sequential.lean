import Mathlib.Data.List.Induction
import RlsMini.Regs.Users

/-!
# What one handle sees

What a call returns, and where it leaves the position, depends on the position
of its handle alone: not on the other handles, and not on what is in the
registers.  So in every run the calls on a handle return what they would if
there were no others (`calls_on_others_unseen`); only the words that `read`
delivers tell of them.

A handle that is never sought reads the register map from one end to the other
and then `EINVAL` for ever; a read that fails leaves it where it is.  It cannot
be written: it stands on `IP_VER` (`unsought_handles`).
-/

namespace RlsMini.Regs

variable {H : Type} [DecidableEq H]

/-- The calls of a run on one handle. -/
def ownCalls (h : H) (ops : List (FileOp H)) : List (FileOp H) :=
  ops.filter fun op => op.handle = h

theorem ownCalls_concat (h : H) (ops : List (FileOp H)) (op : FileOp H) :
    ownCalls h (ops ++ [op]) =
      if op.handle = h then ownCalls h ops ++ [op] else ownCalls h ops := by
  unfold ownCalls
  rw [List.filter_append, List.filter_singleton]
  by_cases heq : op.handle = h
  · simp only [heq, decide_true, cond_true, if_true]
  · simp only [heq, decide_false, cond_false, if_false, List.append_nil]

namespace Driver

variable (dr : Driver)

/-! ## A handle by itself -/

/-- A call on a handle at `off`, on a device of zeros: the result and the
position behind it. -/
def alone (off : Int64) (op : FileOp H) : Except Errno Int64 × Int64 :=
  let (reply, s) := dr.exec ⟨fun _ => 0, fun _ => off⟩ op
  (reply.ret, s.position op.handle)

/-- Only the word that `read` delivers depends on the registers. -/
theorem read_congr (regs regs' : Registers) (len uncopied : Nat) (off : Int64) :
    (dr.read regs len uncopied off).1 = (dr.read regs' len uncopied off).1 ∧
      (dr.read regs len uncopied off).2.2 = (dr.read regs' len uncopied off).2.2 := by
  simp only [read]
  split_ifs <;> exact ⟨rfl, rfl⟩

theorem write_congr (regs regs' : Registers) (len uncopied : Nat) (value : UInt32)
    (off : Int64) :
    (dr.write regs len uncopied value off).1 = (dr.write regs' len uncopied value off).1 ∧
      (dr.write regs len uncopied value off).2.2 = (dr.write regs' len uncopied value off).2.2 := by
  simp only [write]
  split_ifs <;> exact ⟨rfl, rfl⟩

/-- The result and the position do not depend on the registers. -/
theorem exec_eq_alone (s : Handles H) (op : FileOp H) :
    ((dr.exec s op).1.ret, (dr.exec s op).2.position op.handle) =
      dr.alone (s.position op.handle) op := by
  cases op with
  | llseek h off whence =>
      simp only [alone, exec, FileOp.handle, Handles.setPosition_position, if_true]
  | read h len uncopied =>
      obtain ⟨hret, hoff⟩ := dr.read_congr s.regs (fun _ => 0) len uncopied (s.position h)
      simp only [alone, exec, FileOp.handle]
      generalize dr.read s.regs len uncopied (s.position h) = t at hret hoff ⊢
      generalize dr.read (fun _ => 0) len uncopied (s.position h) = t' at hret hoff ⊢
      obtain ⟨ret, data, off⟩ := t
      obtain ⟨ret', data', off'⟩ := t'
      obtain rfl : ret = ret' := hret
      obtain rfl : off = off' := hoff
      cases ret <;> simp only [Handles.setPosition_position, if_true]
  | write h len uncopied value =>
      obtain ⟨hret, hoff⟩ := dr.write_congr s.regs (fun _ => 0) len uncopied value (s.position h)
      simp only [alone, exec, FileOp.handle]
      generalize dr.write s.regs len uncopied value (s.position h) = t at hret hoff ⊢
      generalize dr.write (fun _ => 0) len uncopied value (s.position h) = t' at hret hoff ⊢
      obtain ⟨ret, data, off⟩ := t
      obtain ⟨ret', data', off'⟩ := t'
      obtain rfl : ret = ret' := hret
      obtain rfl : off = off' := hoff
      cases ret <;> simp only [Handles.setPosition_position, if_true]

/-- The results of the calls on `h` along a run. -/
def resultsOf (h : H) : Handles H → List (FileOp H) → List (Except Errno Int64) :=
  Machine.coarse dr.step fun s op => if op.handle = h then [(dr.exec s op).1.ret] else []

/-- The results of calls on a handle by itself. -/
def aloneResults : Int64 → List (FileOp H) → List (Except Errno Int64) :=
  Machine.coarse (fun off op => (dr.alone off op).2) fun off op => [(dr.alone off op).1]

/-- A handle sees the run as if its calls were the only ones. -/
theorem run_alone (h : H) (s : Handles H) (ops : List (FileOp H)) :
    dr.resultsOf h s ops = dr.aloneResults (s.position h) (ownCalls h ops) ∧
      (Machine.run dr.step s ops).position h =
        Machine.run (fun off op => (dr.alone off op).2) (s.position h) (ownCalls h ops) := by
  induction ops generalizing s with
  | nil => exact ⟨rfl, rfl⟩
  | cons op ops ih =>
      obtain ⟨hresults, hposition⟩ := ih (dr.step s op)
      by_cases heq : op.handle = h
      · have hone := dr.exec_eq_alone s op
        rw [heq] at hone
        have hret : (dr.exec s op).1.ret = (dr.alone (s.position h) op).1 := congrArg Prod.fst hone
        have hnext : (dr.step s op).position h = (dr.alone (s.position h) op).2 :=
          congrArg Prod.snd hone
        have hown : ownCalls h (op :: ops) = op :: ownCalls h ops :=
          List.filter_cons_of_pos (decide_eq_true heq)
        rw [hnext] at hresults hposition
        rw [hown, Machine.run_cons, Machine.run_cons, hposition]
        refine ⟨?_, rfl⟩
        rw [resultsOf, aloneResults, Machine.coarse_cons, Machine.coarse_cons, if_pos heq, hret]
        exact congrArg ((dr.alone (s.position h) op).1 :: ·) hresults
      · have hnext : (dr.step s op).position h = s.position h :=
          exec_position_of_ne (Ne.symm heq)
        have hown : ownCalls h (op :: ops) = ownCalls h ops :=
          List.filter_cons_of_neg (by rw [decide_eq_true_iff]; exact heq)
        rw [hnext] at hresults hposition
        rw [hown, Machine.run_cons, hposition]
        refine ⟨?_, rfl⟩
        rw [resultsOf, Machine.coarse_cons, if_neg heq]
        exact hresults

end Driver

/-- Two runs in which the calls on a handle are the same, on any two devices and
with anything in between on other handles: each of these calls returns the same
in both, and the handle comes to the same position. -/
theorem calls_on_others_unseen (dr : Driver) (h : H) (regs regs' : Registers)
    (ops ops' : List (FileOp H)) (hown : ownCalls h ops = ownCalls h ops') :
    dr.resultsOf h (Driver.opened regs) ops = dr.resultsOf h (Driver.opened regs') ops' ∧
      (Machine.run dr.step (Driver.opened regs) ops).position h =
        (Machine.run dr.step (Driver.opened regs') ops').position h := by
  obtain ⟨hresults, hposition⟩ := dr.run_alone h (Driver.opened regs) ops
  obtain ⟨hresults', hposition'⟩ := dr.run_alone h (Driver.opened regs') ops'
  rw [hresults, hresults', hposition, hposition', hown]
  exact ⟨rfl, rfl⟩

/-- The other handle writes `TEST_POINT` in one of the runs. -/
theorem calls_on_others_unseen_two :
    let ops : List (FileOp Bool) := [.read true 4 0, .llseek false 8 SEEK_SET, .read true 4 0,
      .write false 4 0 3, .read true 4 0]
    let ops' : List (FileOp Bool) := [.read true 4 0, .read true 4 0, .read true 4 0]
    rlsMiniPl.resultsOf true (Driver.opened fun _ => 0) ops =
        rlsMiniPl.resultsOf true (Driver.opened fun _ => 7) ops' ∧
      (Machine.run rlsMiniPl.step (Driver.opened fun _ => 0) ops).position true =
        (Machine.run rlsMiniPl.step (Driver.opened fun _ => 7) ops').position true :=
  calls_on_others_unseen rlsMiniPl true _ _ _ _ rfl

/-! ## Handles that are never sought -/

namespace Driver

variable {dr : Driver} {off : Int64} {regs : Registers} {len uncopied : Nat}

/-- Behind the last register. -/
theorem read_past (hrange : dr.InRange off) (hlen : 4 ≤ len) (h : ¬ dr.IsReg off.toInt) :
    dr.read regs len uncopied off = (.error .EINVAL, none, off) := by
  have hvalid : dr.regIsValid (regOff off) = false :=
    Bool.eq_false_iff.mpr fun hok => h ((regIsValid_regOff hrange.1 hrange.lt).mp hok)
  simp only [read]
  rw [if_neg (Nat.not_lt.mpr hlen), if_pos (by rw [hvalid]; rfl)]

/-- The word cannot be copied out. -/
theorem read_uncopied (hlen : 4 ≤ len) (hreg : dr.IsReg off.toInt) (hcopy : uncopied ≠ 0) :
    dr.read regs len uncopied off = (.error .EFAULT, none, off) := by
  have hvalid := (regIsValid_regOff hreg.1 hreg.inRange.lt).mpr hreg
  simp only [read]
  rw [if_neg (Nat.not_lt.mpr hlen), if_neg (by rw [hvalid]; exact Bool.false_ne_true),
    if_pos hcopy]

/-- `IP_VER` is refused before the word is looked at. -/
theorem write_zero (dr : Driver) (regs : Registers) (len uncopied : Nat) (value : UInt32) :
    dr.write regs len uncopied value 0 =
      (.error (if len < 4 then .EINVAL else .EACCES), regs, 0) := by
  have hreg : dr.IsReg (0 : Int64).toInt := by
    rw [Int64.toInt_zero]
    exact ⟨Int.le_refl 0, Int.natCast_nonneg _, rfl⟩
  have hvalid := (regIsValid_regOff hreg.1 hreg.inRange.lt).mpr hreg
  have hperm : regIsWritable (regOff 0) = false := rfl
  simp only [write]
  split
  · rfl
  · rw [if_neg (by rw [hvalid]; exact Bool.false_ne_true), if_pos (by rw [hperm]; rfl)]

end Driver

/-- The calls on `h` are reads. -/
def OnlyReads (h : H) (ops : List (FileOp H)) : Prop :=
  ∀ op ∈ ownCalls h ops, ∃ len uncopied, op = .read h len uncopied

/-- The calls on `h` are writes. -/
def OnlyWrites (h : H) (ops : List (FileOp H)) : Prop :=
  ∀ op ∈ ownCalls h ops, ∃ len uncopied value, op = .write h len uncopied value

/-- The call asks for a word that can be copied out. -/
def FileOp.IsWholeRead : FileOp H → Bool
  | .read _ len uncopied => decide (4 ≤ len ∧ uncopied = 0)
  | _ => false

/-- The whole reads of a run on `h`. -/
def wholeReads (h : H) (ops : List (FileOp H)) : Nat := (ownCalls h ops).countP FileOp.IsWholeRead

theorem wholeReads_concat (h : H) (ops : List (FileOp H)) (op : FileOp H) :
    wholeReads h (ops ++ [op]) =
      wholeReads h ops + if op.handle = h ∧ op.IsWholeRead = true then 1 else 0 := by
  unfold wholeReads
  rw [ownCalls_concat]
  by_cases heq : op.handle = h
  · rw [if_pos heq, List.countP_append, List.countP_singleton]
    simp only [heq, true_and]
  · rw [if_neg heq, if_neg fun hboth => heq hboth.1, Nat.add_zero]

namespace Driver

variable {dr : Driver} {regs : Registers} {r w : H} {ops : List (FileOp H)}

/-- A reader behind `n` whole reads. -/
def ReadsNext (dr : Driver) (n : Nat) (off : Int64) : Prop :=
  off.toInt = min (4 * n : Int) (dr.regMaxOffset + 4)

theorem ReadsNext.inRange {n : Nat} {off : Int64} (h : dr.ReadsNext n off) : dr.InRange off := by
  have hmax := dr.max_aligned
  unfold ReadsNext at h
  refine ⟨?_, ?_, ?_⟩ <;> omega

theorem ReadsNext.isReg_iff {n : Nat} {off : Int64} (h : dr.ReadsNext n off) :
    dr.IsReg off.toInt ↔ 4 * n ≤ dr.regMaxOffset := by
  have hmax := dr.max_aligned
  unfold ReadsNext at h
  unfold IsReg
  omega

/-- What a reader gets behind `n` whole reads. -/
theorem ReadsNext.exec {n : Nat} {s : Handles H} (h : dr.ReadsNext n (s.position r))
    (len uncopied : Nat) :
    dr.exec s (.read r len uncopied) =
      if len < 4 ∨ dr.regMaxOffset < 4 * n then ({ ret := .error .EINVAL }, s)
      else if uncopied ≠ 0 then ({ ret := .error .EFAULT }, s)
      else
        ({ ret := .ok 4, data := some (s.regs (UInt32.ofNat (4 * n))) },
          s.setPosition r (s.position r + 4)) := by
  by_cases hlen : len < 4
  · have hshort : dr.read s.regs len uncopied (s.position r) =
        (.error .EINVAL, none, s.position r) := if_pos hlen
    rw [if_pos (Or.inl hlen)]
    simp only [Driver.exec, hshort]
  · have hlong := Nat.not_lt.mp hlen
    by_cases hreg : dr.IsReg (s.position r).toInt
    · have hle := h.isReg_iff.mp hreg
      rw [if_neg (by omega)]
      by_cases hcopy : uncopied = 0
      · have hallows : dr.Allows s (.read r len uncopied) := ⟨hlong, hreg, hcopy⟩
        have hoff : regOff (s.position r) = UInt32.ofNat (4 * n) := by
          have hmax := dr.max_lt
          have hnat := toNat_regOff h.inRange.1 h.inRange.lt
          rw [← UInt32.toNat_inj, hnat, UInt32.toNat_ofNat_of_lt' (by show 4 * n < 2 ^ 32; omega)]
          unfold ReadsNext at h
          omega
        rw [exec_of_allows hallows, if_neg (not_not_intro hcopy), effect, hoff]
      · have hfault : dr.read s.regs len uncopied (s.position r) =
            (.error .EFAULT, none, s.position r) := read_uncopied hlong hreg hcopy
        rw [if_pos hcopy]
        simp only [Driver.exec, hfault]
    · have hend : dr.regMaxOffset < 4 * n := Nat.not_le.mp (mt h.isReg_iff.mpr hreg)
      have hpast : dr.read s.regs len uncopied (s.position r) =
          (.error .EINVAL, none, s.position r) := read_past h.inRange hlong hreg
      rw [if_pos (Or.inr hend)]
      simp only [Driver.exec, hpast]

/-- A whole read moves the reader on, as far as the end, and no other read
does. -/
theorem ReadsNext.succ {n : Nat} {s : Handles H} (h : dr.ReadsNext n (s.position r))
    (len uncopied : Nat) :
    dr.ReadsNext (n + if (FileOp.read r len uncopied).IsWholeRead = true then 1 else 0)
      ((dr.step s (.read r len uncopied)).position r) := by
  have hmax := dr.max_aligned
  have hwhole : (FileOp.read r len uncopied).IsWholeRead = true ↔ 4 ≤ len ∧ uncopied = 0 :=
    decide_eq_true_iff
  rw [step, h.exec len uncopied]
  by_cases hbad : len < 4 ∨ dr.regMaxOffset < 4 * n
  · rw [if_pos hbad]
    show dr.ReadsNext _ (s.position r)
    unfold ReadsNext at h ⊢
    split
    · rename_i hyes
      rw [hwhole] at hyes
      omega
    · exact h
  · rw [if_neg hbad]
    by_cases hcopy : uncopied = 0
    · have hadd := IsReg.toInt_add_four (h.isReg_iff.mpr (by omega))
      rw [if_pos (hwhole.mpr ⟨by omega, hcopy⟩), if_neg (not_not_intro hcopy),
        Handles.setPosition_position, if_pos rfl]
      unfold ReadsNext at h ⊢
      rw [hadd]
      omega
    · rw [if_neg fun hyes => hcopy (hwhole.mp hyes).2, if_pos hcopy]
      exact h

/-- Where a reader stands in a run. -/
theorem readsNext_run (dr : Driver) (regs : Registers) (hreads : OnlyReads r ops) :
    dr.ReadsNext (wholeReads r ops) ((Machine.run dr.step (opened regs) ops).position r) := by
  induction ops using List.reverseRecOn with
  | nil =>
      show (0 : Int64).toInt = _
      rw [Int64.toInt_zero]
      show (0 : Int) = min (4 * (0 : Nat) : Int) (dr.regMaxOffset + 4)
      omega
  | append_singleton ops op ih =>
      unfold OnlyReads at hreads
      rw [ownCalls_concat] at hreads
      rw [wholeReads_concat, Machine.run_concat]
      by_cases heq : op.handle = r
      · rw [if_pos heq, List.forall_mem_append] at hreads
        obtain ⟨len, uncopied, rfl⟩ := hreads.2 op (List.mem_singleton_self op)
        have hnext := (ih hreads.1).succ len uncopied
        simp only [FileOp.handle, true_and]
        exact hnext
      · rw [if_neg heq] at hreads
        rw [if_neg fun hboth => heq hboth.1, step, exec_position_of_ne (Ne.symm heq)]
        exact ih hreads

/-- A writer is always refused. -/
theorem exec_write_zero {s : Handles H} (h : s.position w = 0) (len uncopied : Nat)
    (value : UInt32) :
    dr.exec s (.write w len uncopied value) =
      ({ ret := .error (if len < 4 then .EINVAL else .EACCES) }, s) := by
  simp only [exec, h, write_zero]

/-- A writer never leaves `IP_VER`. -/
theorem position_run_of_onlyWrites (dr : Driver) (regs : Registers) (hwrites : OnlyWrites w ops) :
    (Machine.run dr.step (opened regs) ops).position w = 0 := by
  induction ops using List.reverseRecOn with
  | nil => rfl
  | append_singleton ops op ih =>
      unfold OnlyWrites at hwrites
      rw [ownCalls_concat] at hwrites
      rw [Machine.run_concat, step]
      by_cases heq : op.handle = w
      · rw [if_pos heq, List.forall_mem_append] at hwrites
        obtain ⟨len, uncopied, value, rfl⟩ := hwrites.2 op (List.mem_singleton_self op)
        rw [exec_write_zero (ih hwrites.1)]
        exact ih hwrites.1
      · rw [if_neg heq] at hwrites
        rw [exec_position_of_ne (Ne.symm heq)]
        exact ih hwrites

end Driver

section Split

variable {h : H} {pre post : List (FileOp H)}

theorem ownCalls_append (h : H) (pre post : List (FileOp H)) :
    ownCalls h (pre ++ post) = ownCalls h pre ++ ownCalls h post :=
  List.filter_append ..

/-- What holds of the calls on a handle holds of those before. -/
theorem forall_ownCalls_of_append {P : FileOp H → Prop}
    (hall : ∀ op ∈ ownCalls h (pre ++ post), P op) : ∀ op ∈ ownCalls h pre, P op := by
  rw [ownCalls_append] at hall
  exact fun op hop => hall op (List.mem_append_left _ hop)

end Split

/-- In every run, whatever is done on other handles.  A handle that is only read
gets the registers one after the other, each as it is at that time, and behind
the last one `EINVAL`; a read of less than a word, or one that cannot be copied
out, fails and leaves the handle where it is.  A handle that is only written gets
`EACCES`, or `EINVAL` for less than a word, and nothing changes. -/
theorem unsought_handles (dr : Driver) (regs : Registers) (r w : H) (ops : List (FileOp H))
    (hreads : OnlyReads r ops) (hwrites : OnlyWrites w ops) :
    (∀ pre len uncopied post, ops = pre ++ .read r len uncopied :: post →
      let s := Machine.run dr.step (Driver.opened regs) pre
      let n := wholeReads r pre
      (dr.exec s (.read r len uncopied)).1 =
        if len < 4 ∨ dr.regMaxOffset < 4 * n then { ret := .error .EINVAL }
        else if uncopied ≠ 0 then { ret := .error .EFAULT }
        else { ret := .ok 4, data := some (s.regs (UInt32.ofNat (4 * n))) }) ∧
    ∀ pre len uncopied value post, ops = pre ++ .write w len uncopied value :: post →
      let s := Machine.run dr.step (Driver.opened regs) pre
      dr.exec s (.write w len uncopied value) =
        ({ ret := .error (if len < 4 then .EINVAL else .EACCES) }, s) := by
  constructor
  · intro pre len uncopied post hsplit s n
    rw [hsplit] at hreads
    have hnext : dr.ReadsNext n (s.position r) :=
      Driver.readsNext_run dr regs (forall_ownCalls_of_append hreads)
    rw [hnext.exec len uncopied]
    split
    · rfl
    · split <;> rfl
  · intro pre len uncopied value post hsplit s
    rw [hsplit] at hwrites
    exact Driver.exec_write_zero
      (Driver.position_run_of_onlyWrites dr regs (forall_ownCalls_of_append hwrites)) len uncopied
      value

/-- A reader, one of whose reads is short and one of which cannot be copied out,
and a writer. -/
def readerAndWriter : List (FileOp Bool) :=
  [.read true 4 0, .read true 2 0, .write false 4 0 5, .read true 4 1, .read true 8 0]

theorem readerAndWriter_only :
    OnlyReads true readerAndWriter ∧ OnlyWrites false readerAndWriter := by
  have hreads : ownCalls true readerAndWriter =
      [.read true 4 0, .read true 2 0, .read true 4 1, .read true 8 0] := rfl
  have hwrites : ownCalls false readerAndWriter = [.write false 4 0 5] := rfl
  constructor
  · intro op hop
    rw [hreads] at hop
    simp only [List.mem_cons, List.not_mem_nil, or_false] at hop
    rcases hop with rfl | rfl | rfl | rfl
    · exact ⟨4, 0, rfl⟩
    · exact ⟨2, 0, rfl⟩
    · exact ⟨4, 1, rfl⟩
    · exact ⟨8, 0, rfl⟩
  · intro op hop
    rw [hwrites] at hop
    exact ⟨4, 0, 5, List.mem_singleton.mp hop⟩

/-- The last read gets the second register. -/
theorem unsought_handles_two :
    let s := Machine.run rlsMiniPl.step (Driver.opened fun off => off) (readerAndWriter.take 4)
    let s' := Machine.run rlsMiniPl.step (Driver.opened fun off => off) (readerAndWriter.take 2)
    (rlsMiniPl.exec s (.read true 8 0)).1 = { ret := .ok 4, data := some (s.regs 4) } ∧
      rlsMiniPl.exec s' (.write false 4 0 5) = ({ ret := .error .EACCES }, s') := by
  intro s s'
  obtain ⟨hread, hwrite⟩ := unsought_handles rlsMiniPl (fun off => off) true false readerAndWriter
    readerAndWriter_only.1 readerAndWriter_only.2
  exact ⟨hread _ 8 0 [] rfl, hwrite _ 4 0 5 [.read true 4 1, .read true 8 0] rfl⟩

end RlsMini.Regs
