import RlsMini.Dma.Detections
import RlsMini.Dma.Dump
import RlsMini.Dma.MainEnds
import RlsMini.Lib.PrefixCode

/-!
# What `main` leaves in its output file

A run of `main` may come to any state, with any status of any transfer.  In
each state the output file holds the messages of the transfers completed so
far, in order and whole, and `fflush` has put all but the last nine of them on
disk (`output_holds_messages`).

A message says itself how long it is: its test point is in the header, and the
number of detections behind it.  So the saved messages are a prefix code, and
the file determines them (`output_determines_messages`).
-/

namespace RlsMini.Dma

open RlsMini RlsMini.CInt RlsMini.Hex

/-! ## The messages of a file -/

/-- A message that fits in a buffer: a detection message has no more than 306
detections. -/
def Fits (words : Nat → UInt32) : Prop :=
  (Header.ofWords words).tp = TP_WORK.toNat →
    (WorkPosthdr.ofWords words).nWorkPackets.toNat ≤ 306

theorem Fits.savedLength_le {words : Nat → UInt32} {nSamps : Int32} (h : Fits words)
    (hn : nSamps.toInt ≤ 928) : savedLength nSamps words ≤ 928 := by
  unfold savedLength
  split
  · rename_i htp
    have hle := h htp
    simp only [workLength, HDR_SIZE]
    omega
  · exact hn

/-- Every saved message holds its whole header. -/
theorem HDR_SIZE_le_savedLength {nSamps : Int32} (hn : (HDR_SIZE : Int) ≤ nSamps.toInt)
    (words : Nat → UInt32) : (HDR_SIZE : Int) ≤ savedLength nSamps words := by
  unfold savedLength
  split
  · simp only [workLength]
    omega
  · exact hn

theorem length_savedPrefix (nSamps : Int32) (words : Nat → UInt32) :
    (savedPrefix nSamps words).length = (savedLength nSamps words).toNat := by
  rw [savedPrefix, List.length_map, List.length_range]

/-- The words of a saved message. -/
theorem getElem?_savedPrefix {nSamps : Int32} {words : Nat → UInt32} {w : Nat}
    (hw : (w : Int) < savedLength nSamps words) :
    (savedPrefix nSamps words)[w]? = some (words w) := by
  rw [savedPrefix, List.getElem?_map, List.getElem?_range (by omega)]
  rfl

/-- Two messages of which one begins as the other is saved are saved with one
length. -/
theorem savedLength_eq_of_prefix {nSamps : Int32} (hn : (HDR_SIZE : Int) ≤ nSamps.toInt)
    {words words' : Nat → UInt32}
    (h : savedPrefix nSamps words <+: savedPrefix nSamps words') :
    savedLength nSamps words = savedLength nSamps words' := by
  have hheader := HDR_SIZE_le_savedLength hn words
  have hle := h.length_le
  rw [length_savedPrefix, length_savedPrefix] at hle
  simp only [HDR_SIZE] at hheader
  obtain ⟨rest, hrest⟩ := h
  have hword : ∀ w : Nat, (w : Int) < savedLength nSamps words → words w = words' w := by
    intro w hw
    have hsame : (savedPrefix nSamps words ++ rest)[w]? = (savedPrefix nSamps words)[w]? :=
      List.getElem?_append_left (by rw [length_savedPrefix]; omega)
    rw [hrest, getElem?_savedPrefix hw, getElem?_savedPrefix (by omega)] at hsame
    exact (Option.some.inj hsame).symm
  have htp : (Header.ofWords words).tp = (Header.ofWords words').tp := by
    simp only [Header.ofWords, hword 5 (by omega)]
  by_cases hwork : (Header.ofWords words).tp = TP_WORK.toNat
  · have hlength : savedLength nSamps words =
        workLength (WorkPosthdr.ofWords words).nWorkPackets.toNat := if_pos hwork
    have hcount : words 7 = words' 7 := by
      refine hword 7 ?_
      rw [hlength]
      simp only [workLength, HDR_SIZE]
      omega
    have hpackets : (WorkPosthdr.ofWords words).nWorkPackets =
        (WorkPosthdr.ofWords words').nWorkPackets := hcount
    rw [hlength, hpackets, savedLength, if_pos (htp ▸ hwork)]
  · rw [savedLength, savedLength, if_neg hwork, if_neg (htp ▸ hwork)]

theorem toNat_injective : Function.Injective UInt32.toNat := fun _ _ => UInt32.toNat_inj.mp

/-- The words that are saved of the messages, a codeword for each. -/
def savedCode (nSamps : Int32) : Set (List Nat) :=
  Set.range fun words => (savedPrefix nSamps words).map UInt32.toNat

theorem savedCode_prefixCode {nSamps : Int32} (hn : (HDR_SIZE : Int) ≤ nSamps.toInt) :
    PrefixCode (savedCode nSamps) where
  nil_notMem := by
    intro hnil
    obtain ⟨words, hwords⟩ := hnil
    have hheader := HDR_SIZE_le_savedLength hn words
    have hlength := congrArg List.length hwords
    rw [List.length_map, length_savedPrefix] at hlength
    simp only [HDR_SIZE, List.length_nil] at hheader hlength
    omega
  eq_of_prefix := by
    intro w hw w' hw' hprefix
    obtain ⟨words, rfl⟩ := hw
    obtain ⟨words', rfl⟩ := hw'
    have hsaved : savedPrefix nSamps words <+: savedPrefix nSamps words' :=
      (List.prefix_map_iff_of_injective toNat_injective).mp hprefix
    refine hprefix.eq_of_length ?_
    rw [List.length_map, List.length_map, length_savedPrefix, length_savedPrefix,
      savedLength_eq_of_prefix hn hsaved]

/-- The saved words determine how many messages there are, and each of them. -/
theorem savedWords_inj {nSamps : Int32} (hn : (HDR_SIZE : Int) ≤ nSamps.toInt)
    {message message' : Nat → Nat → UInt32} {n n' : Nat}
    (h : savedWords nSamps message n = savedWords nSamps message' n') :
    n = n' ∧ ∀ k, k < n → savedPrefix nSamps (message k) = savedPrefix nSamps (message' k) := by
  have hcode : ∀ (message : Nat → Nat → UInt32) (n : Nat), ∀ w ∈ (List.range n).map
      (fun k => (savedPrefix nSamps (message k)).map UInt32.toNat), w ∈ savedCode nSamps := by
    intro message n w hw
    obtain ⟨k, -, rfl⟩ := List.mem_map.mp hw
    exact Set.mem_range_self (message k)
  have hlists := (savedCode_prefixCode hn).uniquelyDecodable _ _ (hcode message n)
    (hcode message' n') h
  have hcount : n = n' := by
    have hlength := congrArg List.length hlists
    rwa [List.length_map, List.length_map, List.length_range, List.length_range] at hlength
  refine ⟨hcount, fun k hk => ?_⟩
  have hword := congrArg (·[k]?) hlists
  simp only [List.getElem?_map, List.getElem?_range hk, List.getElem?_range (hcount ▸ hk),
    Option.map_some, Option.some.injEq] at hword
  exact List.map_injective_iff.mpr toNat_injective hword

/-! ## The file behind a turn of the thread -/

/-- The messages that `fflush` has put on disk, of `n` that are written: it is
called behind every tenth, from the first one on. -/
def flushedMessages (n : Nat) : Nat := 10 * ((n + 9) / 10) - 9

theorem flushedMessages_succ (n : Nat) :
    flushedMessages (n + 1) = if n % 10 = 0 then n + 1 else flushedMessages n := by
  unfold flushedMessages
  split <;> omega

/-- The lines of the first `n` messages. -/
def savedText (nSamps : Int32) (message : Nat → Nat → UInt32) (n : Nat) : List Char :=
  (savedWords nSamps message n).flatMap (hexLine 8)

theorem savedText_succ (nSamps : Int32) (message : Nat → Nat → UInt32) (n : Nat) :
    savedText nSamps message (n + 1) = savedText nSamps message n ++
      (savedPrefix nSamps (message n)).flatMap fun w => hexLine 8 w.toNat := by
  rw [savedText, savedWords_succ, List.flatMap_append, List.flatMap_map]
  rfl

theorem savedText_isPrefix (nSamps : Int32) (message : Nat → Nat → UInt32) {m n : Nat}
    (hmn : m ≤ n) : savedText nSamps message m <+: savedText nSamps message n := by
  induction n, hmn using Nat.le_induction with
  | base => exact List.prefix_rfl
  | succ n _ ih =>
      rw [savedText_succ]
      exact ih.trans (List.prefix_append _ _)

theorem readHexLines_savedText (nSamps : Int32) (message : Nat → Nat → UInt32) (n : Nat) :
    readHexLines (savedText nSamps message n) = some (savedWords nSamps message n) :=
  readHexLines_hexLines _ _ fun _ hw => savedWords_lt hw

/-- The transfers that a channel has completed. -/
def Sys.completed (s : Sys) : Nat := s.ch.counter.toInt.toNat

section Turn

variable (d : ProxyDriver) (message : Nat → Nat → UInt32)

/-- The file holds the messages of the transfers that are complete. -/
structure Recorded (s : Sys) : Prop where
  completed : ∀ k, k < s.completed → d.status k = .PROXY_NO_ERROR
  text : s.dump.text = savedText s.obj.nSampsPerBuf message s.completed
  flushed : s.dump.flushed =
    (savedText s.obj.nSampsPerBuf message (flushedMessages s.completed)).length

/-- Why the thread stops: the next transfer has failed, or the limit is
reached. -/
def Over (s : Sys) : Prop :=
  d.status s.completed ≠ .PROXY_NO_ERROR ∨
    s.obj.numTransfers ≠ 0 ∧ (s.completed : Int) = max 1 s.obj.numTransfers.toInt

/-- What a call of `run` finds: the oldest transfer is waited for in its
buffer, and the limit is not reached. -/
structure Waiting (size first : Nat) (s : Sys) : Prop where
  serves : ∃ count, Serves size first count s
  bufferId : s.ch.inProgressCount ≠ 0 → s.ch.bufferId.toInt = (first % size : Nat)
  finishes : s.proxy.finishes = first
  next_lt : s.ch.inProgressCount ≠ 0 → first + 1 < 2 ^ 31
  more : s.obj.numTransfers ≠ 0 →
    s.ch.inProgressCount ≠ 0 ∧ (first : Int) < max 1 s.obj.numTransfers.toInt

variable {d message} {size first : Nat} {s : Sys}

/-- `run` completes transfers only while it waits. -/
theorem run_counter (d : ProxyDriver) (s : Sys) :
    (s.run d).2.ch.counter = (s.waitForTransfer d).2.ch.counter := by
  simp only [Sys.run]
  split
  · rfl
  · split <;> rfl

theorem run_stops_iff (d : ProxyDriver) (s : Sys) :
    (s.run d).1 = true ↔ (s.waitForTransfer d).1 ≠ .PROXY_NO_ERROR ∨
      s.obj.numTransfers ≠ 0 ∧ s.obj.numTransfers ≤ (s.waitForTransfer d).2.ch.counter := by
  have hobj : (s.waitForTransfer d).2.obj = s.obj := waitForTransfer_obj
  simp only [Sys.run, hobj, ge_iff_le]
  split
  · rename_i hstop
    exact iff_of_true rfl hstop
  · rename_i hgo
    exact iff_of_false Bool.false_ne_true hgo

/-! ### What is on disk -/

theorem saveWords_flushed (d : ProxyDriver) (b : Int) (n i : Nat) (s : Sys) :
    (s.saveWords d b n i).dump.flushed = s.dump.flushed := by
  induction n generalizing i s with
  | zero => rfl
  | succ n ih =>
      rw [Sys.saveWords, ih]
      rfl

/-- `save_buf_to_file` puts all that is written on disk when `counter` is a
multiple of ten, and nothing otherwise. -/
theorem saveBufToFile_flushed (d : ProxyDriver) (b : Int) (n : Int32)
    (hfile : s.obj.dumpFile = true) :
    (s.saveBufToFile d b n).dump.flushed =
      if s.ch.counter % 10 = 0 then (s.saveBufToFile d b n).dump.text.length
      else s.dump.flushed := by
  have hch := (frame_saveWords d b n.toInt64.toUInt64.toNat 0 s).ch
  simp only [Sys.saveBufToFile, if_pos hfile, hch]
  split
  · rfl
  · exact saveWords_flushed d b _ 0 s

theorem saveReceived_flushed (d : ProxyDriver) (b : Int) (hfile : s.obj.dumpFile = true) :
    (s.saveReceived d b).dump.flushed =
      if s.ch.counter % 10 = 0 then (s.saveReceived d b).dump.text.length
      else s.dump.flushed := by
  have hread : ∀ s', Frame s s' → s'.dump = s.dump → ∀ n,
      ((s'.printHdr d b).saveBufToFile d b n).dump.flushed =
        if s.ch.counter % 10 = 0 then ((s'.printHdr d b).saveBufToFile d b n).dump.text.length
        else s.dump.flushed := by
    intro s' hframe hdump n
    have hprint := hframe.trans (frame_printHdr d b s')
    rw [saveBufToFile_flushed d b n (by rw [hprint.obj]; exact hfile), hprint.ch, printHdr_dump,
      hdump]
  simp only [Sys.saveReceived]
  split
  · exact hread _ ((frame_readStruct d b 0 HDR_SIZE s).trans (frame_readStruct d b HDR_SIZE 2 _))
      rfl _
  · exact hread _ (frame_readStruct d b 0 HDR_SIZE s) rfl _

/-- What a turn that completes a transfer puts on disk. -/
theorem run_flushed (hprogress : s.ch.inProgressCount ≠ 0)
    (hok : d.status s.proxy.finishes = .PROXY_NO_ERROR) (hsave : s.obj.flagSaveBuf = true)
    (hfile : s.obj.dumpFile = true) :
    (s.run d).2.dump.flushed =
      if s.ch.counter % 10 = 0 then (s.run d).2.dump.text.length else s.dump.flushed := by
  have hreceived : s.received d = (s.finishXfer d).2.saveReceived d s.ch.bufferId.toInt := by
    rw [Sys.received, if_pos hsave]
  rw [run_dump, waitForTransfer_ok hprogress hok]
  show (s.received d).dump.flushed = if _ then (s.received d).dump.text.length else _
  rw [hreceived]
  exact saveReceived_flushed d _ hfile

/-! ### One turn -/

/-- Before the first transfer is complete, the file is empty. -/
theorem recorded_of_completed_eq_zero (hcompleted : s.completed = 0) (hdump : s.dump = {}) :
    Recorded d message s where
  completed k hk := by
    rw [hcompleted] at hk
    exact absurd hk (Nat.not_lt_zero k)
  text := by
    rw [hdump, hcompleted]
    rfl
  flushed := by
    rw [hdump, hcompleted]
    rfl

/-- A turn that completes no transfer leaves the file alone. -/
theorem Recorded.congr {s' : Sys} (h : Recorded d message s) (hobj : s'.obj = s.obj)
    (hcounter : s'.ch.counter = s.ch.counter) (hdump : s'.dump = s.dump) :
    Recorded d message s' := by
  have hcompleted : s'.completed = s.completed := congrArg (fun c => c.toInt.toNat) hcounter
  exact
    { completed := by rw [hcompleted]; exact h.completed
      text := by rw [hdump, hobj, hcompleted]; exact h.text
      flushed := by rw [hdump, hobj, hcompleted]; exact h.flushed }

theorem Waiting.completed (h : Waiting size first s) : s.completed = first := by
  obtain ⟨count, hserves⟩ := h.serves
  rw [Sys.completed, hserves.counter, Int.toNat_natCast]

/-- A transfer in progress is on the ring. -/
theorem Waiting.serves_succ (h : Waiting size first s) (hprogress : s.ch.inProgressCount ≠ 0) :
    ∃ count, Serves size first (count + 1) s := by
  obtain ⟨count, hserves⟩ := h.serves
  cases count with
  | zero => exact absurd (eq_zero_iff_toInt.mpr hserves.inProgressCount) hprogress
  | succ count => exact ⟨count, hserves⟩

/-- A turn without a transfer in progress, which only a thread without a limit
makes. -/
theorem Waiting.run_idle (h : Waiting size first s) (hrecorded : Recorded d message s)
    (hidle : s.ch.inProgressCount = 0) :
    (s.run d).1 = false ∧ Recorded d message (s.run d).2 := by
  have hwait := waitForTransfer_idle (d := d) hidle
  constructor
  · rw [← Bool.not_eq_true, run_stops_iff, hwait]
    intro hstops
    rcases hstops with herr | ⟨hlimit, -⟩
    · exact herr rfl
    · exact (h.more hlimit).1 hidle
  · refine hrecorded.congr (run_obj d s) ?_ ?_
    · rw [run_counter, hwait]
    · rw [run_dump, hwait]

/-- A turn that meets an error. -/
theorem Waiting.run_error (h : Waiting size first s) (hrecorded : Recorded d message s)
    (hprogress : s.ch.inProgressCount ≠ 0) (herr : d.status first ≠ .PROXY_NO_ERROR) :
    Recorded d message (s.run d).2 ∧ Over d (s.run d).2 := by
  have hwait := waitForTransfer_error hprogress (d := d) (by rw [h.finishes]; exact herr)
  have hcounter : (s.run d).2.ch.counter = s.ch.counter := by
    rw [run_counter, hwait]
    rfl
  constructor
  · refine hrecorded.congr (run_obj d s) hcounter ?_
    rw [run_dump, hwait]
    rfl
  · have hcompleted : (s.run d).2.completed = first := by
      rw [Sys.completed, hcounter]
      exact h.completed
    refine Or.inl ?_
    rw [hcompleted]
    exact herr

/-- A turn that completes a transfer. -/
theorem Waiting.run_next (h : Waiting size first s) (hrecorded : Recorded d message s)
    (hprogress : s.ch.inProgressCount ≠ 0) (hok : d.status first = .PROXY_NO_ERROR)
    (hdeliver : Delivers d message) (hsave : s.obj.flagSaveBuf = true)
    (hfile : s.obj.dumpFile = true)
    (hlow : 0 ≤ savedLength s.obj.nSampsPerBuf (message first))
    (hfit : savedLength s.obj.nSampsPerBuf (message first) ≤ 928) :
    Recorded d message (s.run d).2 ∧ ((s.run d).1 = true → Over d (s.run d).2) := by
  obtain ⟨count, hserves⟩ := h.serves_succ hprogress
  have hid := h.bufferId hprogress
  have hlt := h.next_lt hprogress
  have hcompleted := h.completed
  have hok' : d.status s.proxy.finishes = .PROXY_NO_ERROR := by rw [h.finishes]; exact hok
  obtain ⟨hstatus, hserves', -⟩ := hserves.wait hid hlt hok'
  have hcounter : (s.run d).2.ch.counter.toInt = first + 1 := by
    rw [run_counter]
    exact hserves'.counter
  have hnext : (s.run d).2.completed = first + 1 := by
    rw [Sys.completed, hcounter]
    omega
  have htext := hserves.run_text hid h.finishes hok hdeliver hsave hfile hlow hfit
  rw [hrecorded.text, hcompleted, ← savedText_succ] at htext
  refine ⟨?_, fun hstop => Or.inr ?_⟩
  · refine
      { completed := ?_
        text := by rw [htext, run_obj, hnext]
        flushed := ?_ }
    · intro k hk
      rw [hnext] at hk
      rcases Nat.lt_succ_iff_lt_or_eq.mp hk with hlt' | heq
      · exact hrecorded.completed k (hcompleted.symm ▸ hlt')
      · exact heq ▸ hok
    · have hmod : s.ch.counter % 10 = 0 ↔ first % 10 = 0 := by
        rw [eq_zero_iff_toInt, toInt_mod_of_nat hserves.counter (b := 10) rfl]
        omega
      rw [run_flushed hprogress hok' hsave hfile, htext, hrecorded.flushed, run_obj, hnext,
        hcompleted, flushedMessages_succ]
      simp only [hmod]
      split <;> rfl
  · rw [run_stops_iff, hstatus] at hstop
    rw [run_obj, hnext]
    rcases hstop with herr | ⟨hlimit, hreached⟩
    · exact absurd rfl herr
    · obtain ⟨-, hmore⟩ := h.more hlimit
      rw [Int32.le_iff_toInt_le, hserves'.counter] at hreached
      refine ⟨hlimit, ?_⟩
      push_cast at hreached ⊢
      omega

/-! ### Every turn -/

/-- A channel whose buffers are saved to a file that is open, with a length
that `main` may set. -/
structure Saves (s : Sys) : Prop where
  flagSaveBuf : s.obj.flagSaveBuf = true
  dumpFile : s.obj.dumpFile = true
  low : (HDR_SIZE : Int) ≤ s.obj.nSampsPerBuf.toInt
  high : s.obj.nSampsPerBuf.toInt ≤ 928

theorem Saves.congr {s' : Sys} (h : Saves s) (hobj : s'.obj = s.obj) : Saves s' :=
  ⟨hobj ▸ h.flagSaveBuf, hobj ▸ h.dumpFile, hobj ▸ h.low, hobj ▸ h.high⟩

theorem Waiting.run_recorded (h : Waiting size first s) (hrecorded : Recorded d message s)
    (hsaves : Saves s) (hdeliver : Delivers d message) (hfits : Fits (message first)) :
    Recorded d message (s.run d).2 ∧ ((s.run d).1 = true → Over d (s.run d).2) := by
  by_cases hprogress : s.ch.inProgressCount = 0
  · obtain ⟨hgo, hrun⟩ := h.run_idle (d := d) hrecorded hprogress
    exact ⟨hrun, fun hstop => absurd hstop (by rw [hgo]; exact Bool.false_ne_true)⟩
  · by_cases hok : d.status first = .PROXY_NO_ERROR
    · have hheader := HDR_SIZE_le_savedLength hsaves.low (message first)
      exact h.run_next hrecorded hprogress hok hdeliver hsaves.flagSaveBuf hsaves.dumpFile
        (by omega) (hfits.savedLength_le hsaves.high)
    · obtain ⟨hrun, hover⟩ := h.run_error hrecorded hprogress hok
      exact ⟨hrun, fun _ => hover⟩

/-- Without a limit, a thread that runs on has met no error. -/
theorem Sys.Ready.ok_of_running (h : s.Ready) (hzero : s.obj.numTransfers = 0) {n : Nat}
    (hgo : (s.thread d n).1 = false) :
    ∀ k, k < min n s.ch.bufferCount.toInt.toNat → d.status k = .PROXY_NO_ERROR := by
  induction n with
  | zero =>
      intro k hk
      omega
  | succ n ih =>
      have hbefore : (s.thread d n).1 = false := by
        by_contra hstop
        rw [thread_succ_of_stopped (Bool.eq_true_of_not_eq_false hstop)] at hgo
        exact hstop hgo
      intro k hk
      obtain ⟨-, hdraining, hfinishes⟩ := h.thread_emptying (d := d) hzero n (ih hbefore)
      rcases Nat.lt_or_ge k (min n s.ch.bufferCount.toInt.toNat) with hlt | hge
      · exact ih hbefore k hlt
      · have hk' : min n s.ch.bufferCount.toInt.toNat = k := by omega
        rw [hk'] at hdraining hfinishes
        by_contra herr
        have hprogress : (s.thread d n).2.ch.inProgressCount ≠ 0 := by
          rw [ne_eq, eq_zero_iff_toInt, hdraining.serves.inProgressCount]
          omega
        rw [thread_succ_of_running hbefore, ← Bool.not_eq_true, run_stops_iff,
          waitForTransfer_error hprogress (by rw [hfinishes]; exact herr), hfinishes] at hgo
        exact hgo (Or.inl herr)

/-- Every turn of the thread finds a transfer to wait for, whatever the limit
is, or has nothing to do. -/
theorem Sys.Ready.waiting_of_running (h : s.Ready) {n : Nat} (hgo : (s.thread d n).1 = false)
    (hobj : (s.thread d n).2.obj = s.obj) :
    ∃ first, Waiting s.ch.bufferCount.toInt.toNat first (s.thread d n).2 := by
  have hone := h.one_le
  have hlimit := s.obj.numTransfers.toInt_lt
  have hsize := s.ch.bufferCount.toInt_lt
  rcases Int.lt_trichotomy s.obj.numTransfers.toInt 0 with hneg | hzero | hpos
  · -- Below zero, the first turn is the last.
    obtain ⟨hserves, hbuffer, -, hfinishes⟩ := h.begin (d := d)
    have hn : n = 0 := by
      by_contra hne
      have hstop := h.stops_of_neg d (Int32.lt_iff_toInt_lt.mpr hneg)
      rw [thread_of_stopped (by omega) hstop, hstop] at hgo
      exact Bool.noConfusion hgo
    have hcount : beginCount s.ch.bufferCount.toInt.toNat s.obj.numTransfers.toInt = 0 + 1 := by
      unfold beginCount
      rw [if_neg (by omega)]
      omega
    rw [hcount] at hserves
    rw [hn] at hobj ⊢
    exact ⟨0,
      { serves := ⟨_, hserves⟩
        bufferId := fun _ => by
          rw [Nat.zero_mod]
          exact congrArg Int32.toInt hbuffer
        finishes := hfinishes
        next_lt := fun _ => by omega
        more := fun _ => ⟨hserves.inProgressCount_ne_zero, by rw [hobj]; omega⟩ }⟩
  · have hnone : s.obj.numTransfers = 0 := eq_zero_iff_toInt.mpr hzero
    obtain ⟨-, hdraining, hfinishes⟩ :=
      h.thread_emptying (d := d) hnone n (h.ok_of_running hnone hgo)
    have hinside : (s.thread d n).2.ch.inProgressCount ≠ 0 →
        min n s.ch.bufferCount.toInt.toNat < s.ch.bufferCount.toInt.toNat := by
      intro hprogress
      by_contra hge
      refine hprogress (eq_zero_iff_toInt.mpr ?_)
      rw [hdraining.serves.inProgressCount]
      omega
    exact ⟨_,
      { serves := ⟨_, hdraining.serves⟩
        bufferId := fun hprogress => by
          rw [Nat.mod_eq_of_lt (hinside hprogress)]
          exact hdraining.bufferId (hinside hprogress)
        finishes := hfinishes
        next_lt := fun hprogress => by
          have hlt := hinside hprogress
          omega
        more := fun hne => absurd hdraining.numTransfers hne }⟩
  · have hreceiving := h.receiving_of_running (Int32.le_iff_toInt_le.mpr hpos) hgo
    have hmore := hreceiving.more
    exact ⟨n,
      { serves := ⟨_, hreceiving.serves⟩
        bufferId := fun _ => hreceiving.bufferId
        finishes := hreceiving.finishes
        next_lt := fun _ => by omega
        more := fun _ =>
          ⟨(hreceiving.serves_succ hone).inProgressCount_ne_zero, by rw [hobj]; omega⟩ }⟩

/-- The file behind every turn of the thread. -/
theorem Sys.Ready.thread_recorded (h : s.Ready) (hsaves : Saves s) (hdump : s.dump = {})
    (hdeliver : Delivers d message) (hfits : ∀ k, Fits (message k)) (n : Nat) :
    (s.thread d n).2.obj = s.obj ∧ Recorded d message (s.thread d n).2 ∧
      ((s.thread d n).1 = true → Over d (s.thread d n).2) := by
  induction n with
  | zero =>
      have hbegin := begin_frame d s
      have hcompleted : (s.begin d).completed = 0 := by
        obtain ⟨hserves, -⟩ := h.begin (d := d)
        rw [Sys.completed, hserves.counter]
        rfl
      refine ⟨hbegin.obj, ?_, fun hstop => Bool.noConfusion hstop⟩
      show Recorded d message (s.begin d)
      exact recorded_of_completed_eq_zero hcompleted (hbegin.dump.trans hdump)
  | succ n ih =>
      obtain ⟨hobj, hrecorded, hover⟩ := ih
      by_cases hstop : (s.thread d n).1 = true
      · rw [thread_succ_of_stopped hstop]
        exact ⟨hobj, hrecorded, hover⟩
      · have hgo : (s.thread d n).1 = false := Bool.eq_false_iff.mpr hstop
        obtain ⟨first, hwaiting⟩ := h.waiting_of_running hgo hobj
        rw [thread_succ_of_running hgo]
        exact ⟨(run_obj d _).trans hobj,
          hwaiting.run_recorded hrecorded (hsaves.congr hobj) hdeliver (hfits first)⟩

end Turn

/-! ## The file in `main` -/

/-- The receive channel in the course of its thread.  Behind the end of the
thread it is cleaned up, which leaves the counter and the file alone. -/
inductive Follows (d : ProxyDriver) (s₀ : Sys) : ThreadPhase → Sys → Prop
  | created : Follows d s₀ .created s₀
  | running (n : Nat) (h : (s₀.thread d n).1 = false) :
      Follows d s₀ .running (s₀.thread d n).2
  | stopped (n : Nat) (h : (s₀.thread d n).1 = true) : Follows d s₀ .stopped (s₀.thread d n).2
  | ended (n : Nat) (h : (s₀.thread d n).1 = true) (s : Sys)
      (hobj : s.obj = (s₀.thread d n).2.obj)
      (hcounter : s.ch.counter = (s₀.thread d n).2.ch.counter)
      (hdump : s.dump = (s₀.thread d n).2.dump) : Follows d s₀ .ended s

section Main

variable {o : Outside} {m : MainState} {s₀ : Sys}

theorem Follows.threadStep (h : Follows (o.driver 0) s₀ m.phase m.rx) :
    Follows (o.driver 0) s₀ (threadStep o m).phase (threadStep o m).rx := by
  obtain ⟨phase, rx, tx, i, loaded, loads, cleaned⟩ := m
  cases h with
  | created => exact .running 0 rfl
  | running n hgo =>
      have hnext := thread_succ_of_running hgo
      simp only [Dma.threadStep]
      show Follows _ _ (if ((s₀.thread (o.driver 0) n).2.run (o.driver 0)).1 then _ else _)
        ((s₀.thread (o.driver 0) n).2.run (o.driver 0)).2
      rw [← hnext]
      split
      · rename_i hstop
        exact .stopped (n + 1) hstop
      · rename_i hgo'
        exact .running (n + 1) (Bool.eq_false_iff.mpr hgo')
  | stopped n hstop => exact .ended n hstop _ rfl rfl rfl
  | ended n hstop s hobj hcounter hdump => exact .ended n hstop _ hobj hcounter hdump

theorem Follows.mainStep (h : Follows (o.driver 0) s₀ m.phase m.rx) :
    Follows (o.driver 0) s₀ (mainStep o m).phase (mainStep o m).rx := by
  by_cases hmore : m.i < o.numTransfers.toNat
  · obtain ⟨hphase, hrx⟩ := mainStep_receive (o := o) hmore
    rw [hphase, hrx]
    exact h
  · rcases mainStep_done hmore with hsame | ⟨hended, hcleanup⟩
    · rw [hsame]
      exact h
    · rw [hcleanup]
      show Follows _ _ m.phase m.rx.cleanup
      rw [hended] at h ⊢
      cases h with
      | ended n hstop _ hobj hcounter hdump => exact .ended n hstop _ hobj hcounter hdump

theorem run_follows (o : Outside) (turns : List Turn) :
    Follows (o.driver 0) (mainStart o).rx (Machine.run (step o) (mainStart o) turns).phase
      (Machine.run (step o) (mainStart o) turns).rx := by
  refine Machine.invariant_run
    (I := fun m : MainState => Follows (o.driver 0) (mainStart o).rx m.phase m.rx) ?_ .created turns
  intro m turn h
  cases turn with
  | thread => exact h.threadStep
  | main => exact h.mainStep

/-- The file in every state of `main`. -/
theorem Follows.recorded {d : ProxyDriver} {message : Nat → Nat → UInt32} {phase : ThreadPhase}
    {s : Sys} (h : Follows d s₀ phase s) (hready : s₀.Ready) (hsaves : Saves s₀)
    (hdump : s₀.dump = {}) (hdeliver : Delivers d message) (hfits : ∀ k, Fits (message k)) :
    s.obj = s₀.obj ∧ Recorded d message s ∧ (phase = .ended → Over d s) := by
  have hthread := hready.thread_recorded hsaves hdump hdeliver hfits
  cases h with
  | created =>
      have hcompleted : s₀.completed = 0 := by
        rw [Sys.completed, hready.counter]
        rfl
      exact ⟨rfl, recorded_of_completed_eq_zero hcompleted hdump,
        fun hended => ThreadPhase.noConfusion hended⟩
  | running n hgo =>
      obtain ⟨hobj, hrecorded, -⟩ := hthread n
      exact ⟨hobj, hrecorded, fun hended => ThreadPhase.noConfusion hended⟩
  | stopped n hstop =>
      obtain ⟨hobj, hrecorded, -⟩ := hthread n
      exact ⟨hobj, hrecorded, fun hended => ThreadPhase.noConfusion hended⟩
  | ended n hstop s hobj' hcounter hdump' =>
      obtain ⟨hobj, hrecorded, hover⟩ := hthread n
      have hcompleted : s.completed = (s₀.thread d n).2.completed :=
        congrArg (fun c => c.toInt.toNat) hcounter
      refine ⟨hobj'.trans hobj, hrecorded.congr hobj' hcounter hdump', fun _ => ?_⟩
      rw [Over, hcompleted, hobj']
      exact hover hstop

end Main

/-- What `main` meets outside when its receive channel is set up, its output
file is open, and the device sends `message` after `message`. -/
structure Receives (o : Outside) (message : Nat → Nat → UInt32) : Prop where
  rx : InitOk (o.fd 0) (o.ptr 0)
  opened : o.opened = true
  delivers : Delivers (o.driver 0) message
  fits : ∀ k, Fits (message k)

/-- Every test point saves the header at least, and no more than a buffer
holds. -/
theorem rxPlan_fst_toInt (testPoint numTransfers : UInt32) :
    (HDR_SIZE : Int) ≤ (rxPlan testPoint numTransfers).1.toInt32.toInt ∧
      (rxPlan testPoint numTransfers).1.toInt32.toInt ≤ 928 := by
  simp only [rxPlan]
  split_ifs <;> dsimp only <;> decide

section Output

variable {o o' : Outside} {message message' : Nat → Nat → UInt32}

theorem Receives.recorded (h : Receives o message) (turns : List Turn) :
    let m := Machine.run (step o) (mainStart o) turns
    m.rx.obj = (mainStart o).rx.obj ∧ Recorded (o.driver 0) message m.rx ∧
      (m.phase = .ended → Over (o.driver 0) m.rx) := by
  obtain ⟨hlow, hhigh⟩ := rxPlan_fst_toInt o.testPoint o.numTransfers
  exact (run_follows o turns).recorded (mainStart_ready h.rx) ⟨rfl, h.opened, hlow, hhigh⟩ rfl
    h.delivers h.fits

theorem Receives.text (h : Receives o message) (turns : List Turn) :
    let m := Machine.run (step o) (mainStart o) turns
    m.rx.dump.text =
      savedText (rxPlan o.testPoint o.numTransfers).1.toInt32 message m.rx.completed := by
  intro m
  obtain ⟨hobj, hrecorded, -⟩ := h.recorded turns
  have hnSamps : m.rx.obj.nSampsPerBuf = (rxPlan o.testPoint o.numTransfers).1.toInt32 :=
    congrArg Members.nSampsPerBuf hobj
  exact hnSamps ▸ hrecorded.text

/-- In every state of `main` the output file holds the messages of the
transfers completed so far, in order and whole; at most the last nine are not
on disk.  The thread goes on until a transfer fails or the limit is reached. -/
theorem output_holds_messages (h : Receives o message) (turns : List Turn) :
    let m := Machine.run (step o) (mainStart o) turns
    let nSamps := (rxPlan o.testPoint o.numTransfers).1.toInt32
    let limit := (rxPlan o.testPoint o.numTransfers).2.toInt32
    let n := m.rx.completed
    (∀ k, k < n → (o.driver 0).status k = .PROXY_NO_ERROR) ∧
      readHexLines m.rx.dump.text = some (savedWords nSamps message n) ∧
      readHexLines (m.rx.dump.text.take m.rx.dump.flushed) =
        some (savedWords nSamps message (flushedMessages n)) ∧
      n ≤ flushedMessages n + 9 ∧
      (m.phase = .ended → (o.driver 0).status n ≠ .PROXY_NO_ERROR ∨
        limit ≠ 0 ∧ (n : Int) = max 1 limit.toInt) := by
  intro m nSamps limit n
  obtain ⟨hobj, hrecorded, hover⟩ := h.recorded turns
  have hnSamps : m.rx.obj.nSampsPerBuf = nSamps := congrArg Members.nSampsPerBuf hobj
  have hlimit : m.rx.obj.numTransfers = limit := congrArg Members.numTransfers hobj
  have htext : m.rx.dump.text = savedText nSamps message n := h.text turns
  have hflushed : m.rx.dump.flushed =
      (savedText nSamps message (flushedMessages n)).length := hnSamps ▸ hrecorded.flushed
  have hle : flushedMessages n ≤ n ∧ n ≤ flushedMessages n + 9 := by
    unfold flushedMessages
    omega
  have htake : m.rx.dump.text.take m.rx.dump.flushed =
      savedText nSamps message (flushedMessages n) := by
    rw [htext, hflushed]
    exact (List.prefix_iff_eq_take.mp (savedText_isPrefix nSamps message hle.1)).symm
  refine ⟨hrecorded.completed, ?_, ?_, hle.2, fun hended => ?_⟩
  · rw [htext]
    exact readHexLines_savedText nSamps message n
  · rw [htake]
    exact readHexLines_savedText nSamps message _
  · rw [← hlimit]
    exact hover hended

/-- What is saved of the messages is a prefix code.  So two runs of `main` that
save with one length and have left the same text have completed the same number
of transfers, with the same messages as far as they are saved. -/
theorem output_determines_messages (h : Receives o message) (h' : Receives o' message')
    (hplan : (rxPlan o.testPoint o.numTransfers).1 = (rxPlan o'.testPoint o'.numTransfers).1)
    (turns turns' : List Turn)
    (htext : (Machine.run (step o) (mainStart o) turns).rx.dump.text =
      (Machine.run (step o') (mainStart o') turns').rx.dump.text) :
    let nSamps := (rxPlan o.testPoint o.numTransfers).1.toInt32
    let n := (Machine.run (step o) (mainStart o) turns).rx.completed
    PrefixCode (savedCode nSamps) ∧
      n = (Machine.run (step o') (mainStart o') turns').rx.completed ∧
      ∀ k, k < n → savedPrefix nSamps (message k) = savedPrefix nSamps (message' k) := by
  intro nSamps n
  rw [h.text, h'.text, ← hplan] at htext
  have hwords := congrArg readHexLines htext
  rw [readHexLines_savedText, readHexLines_savedText] at hwords
  have hlow := (rxPlan_fst_toInt o.testPoint o.numTransfers).1
  exact ⟨savedCode_prefixCode hlow, savedWords_inj hlow (Option.some.inj hwords)⟩

/-- As long as no transfer fails, every turn of the thread behind `begin`
completes one. -/
theorem Receives.completed_of_ok (h : Receives o message)
    (hok : ∀ k, (o.driver 0).status k = .PROXY_NO_ERROR) {n : Nat}
    (hn : (n : Int) < (rxPlan o.testPoint o.numTransfers).2.toInt32.toInt) (turns : List Turn)
    (hturns : turns.count .thread = n + 1) :
    (Machine.run (step o) (mainStart o) turns).rx.completed = n := by
  have hready := mainStart_ready h.rx
  have hlimit : (mainStart o).rx.obj.numTransfers =
      (rxPlan o.testPoint o.numTransfers).2.toInt32 := rfl
  obtain ⟨hgo, hreceiving⟩ := hready.thread_receiving (d := o.driver 0) (n := n)
    (by rw [hlimit, Int32.le_iff_toInt_le, Int32.toInt_one]; omega) hok
    (by rw [hlimit]; omega)
  have hrun := run_receiving o turns
  rw [hturns, receiveMove_of_running hgo] at hrun
  unfold MainState.receiving at hrun
  obtain ⟨hphase, hrx⟩ := Prod.mk.inj hrun
  rw [if_neg (by rw [hphase]; exact fun hended => ThreadPhase.noConfusion hended)] at hrx
  rw [Option.some.inj hrx, Sys.completed, hreceiving.serves.counter, Int.toNat_natCast]

end Output

/-- `withoutFile` with three transfers, for which twelve messages of two
kinds are planned; the eleventh does not come. -/
def withMessages : Outside :=
  { withoutFile with
    numTransfers := 3
    driver := fun _ =>
      { status := fun n => if n = 10 then .PROXY_TIMEOUT else .PROXY_NO_ERROR
        deliver := fun k h _ => halfOf (alternating k) h
        scribble := fun _ _ old => old } }

theorem withMessages_receives : Receives withMessages alternating where
  rx := ⟨by decide, Option.some_ne_none _⟩
  opened := rfl
  delivers _ _ _ := rfl
  fits k _ := by
    show (1 : UInt32).toNat ≤ 306
    decide

theorem output_holds_messages_withMessages :
    let m := Machine.run (step withMessages) (mainStart withMessages)
      [.thread, .main, .thread, .main, .thread]
    let nSamps := (rxPlan withMessages.testPoint withMessages.numTransfers).1.toInt32
    let limit := (rxPlan withMessages.testPoint withMessages.numTransfers).2.toInt32
    let n := m.rx.completed
    (∀ k, k < n → (withMessages.driver 0).status k = .PROXY_NO_ERROR) ∧
      readHexLines m.rx.dump.text = some (savedWords nSamps alternating n) ∧
      readHexLines (m.rx.dump.text.take m.rx.dump.flushed) =
        some (savedWords nSamps alternating (flushedMessages n)) ∧
      n ≤ flushedMessages n + 9 ∧
      (m.phase = .ended → (withMessages.driver 0).status n ≠ .PROXY_NO_ERROR ∨
        limit ≠ 0 ∧ (n : Int) = max 1 limit.toInt) :=
  output_holds_messages withMessages_receives _

/-- `withMessages` with other messages, all of which come. -/
def withSteady (message : Nat → Nat → UInt32) : Outside :=
  { withMessages with driver := fun _ => .quiet fun k h _ => halfOf (message k) h }

/-- The messages `alternating`, with something else behind what is saved. -/
def withTail (k w : Nat) : UInt32 := if w = 900 then 1 else alternating k w

theorem savedPrefix_withTail (k : Nat) :
    savedPrefix 238 (withTail k) = savedPrefix 238 (alternating k) := by
  have hfields : ∀ w, w < 8 → withTail k w = alternating k w := fun w hw => if_neg (by omega)
  have hlength : savedLength 238 (withTail k) = savedLength 238 (alternating k) := by
    unfold savedLength
    rw [tp_congr hfields, nWorkPackets_congr hfields]
  have hle : savedLength 238 (alternating k) ≤ 238 := by
    unfold savedLength
    split
    · show ((workLength (1 : UInt32).toNat : Nat) : Int) ≤ 238
      decide
    · decide
  rw [savedPrefix, savedPrefix, hlength]
  apply List.map_congr_left
  intro w hw
  rw [List.mem_range] at hw
  exact if_neg (by omega)

theorem withSteady_receives (message : Nat → Nat → UInt32)
    (hone : ∀ k, message k 7 = 1) : Receives (withSteady message) message where
  rx := withMessages_receives.rx
  opened := rfl
  delivers _ _ _ := rfl
  fits k _ := by
    show (message k 7).toNat ≤ 306
    rw [hone]
    decide

theorem withSteady_plan (message : Nat → Nat → UInt32) :
    (rxPlan (withSteady message).testPoint (withSteady message).numTransfers).1.toInt32 = 238 := by
  show (rxPlan TP_BYPASS 3).1.toInt32 = 238
  decide

/-- Three turns of the thread: `begin`, and two messages. -/
theorem withSteady_two (message : Nat → Nat → UInt32) (hone : ∀ k, message k 7 = 1)
    (turns : List Turn) (hturns : turns.count .thread = 3) :
    let m := Machine.run (step (withSteady message)) (mainStart (withSteady message)) turns
    m.rx.completed = 2 ∧ m.rx.dump.text = savedText 238 message 2 := by
  intro m
  have h := withSteady_receives message hone
  have hlimit : ((2 : Nat) : Int) < (rxPlan TP_BYPASS 3).2.toInt32.toInt := by decide
  have htwo : m.rx.completed = 2 := h.completed_of_ok (fun _ => rfl) hlimit turns hturns
  refine ⟨htwo, ?_⟩
  rw [← withSteady_plan message, ← htwo]
  exact h.text turns

/-- Two messages each, under two schedules; the messages differ behind what is
saved. -/
theorem output_determines_messages_withTail :
    let m := Machine.run (step (withSteady alternating)) (mainStart (withSteady alternating))
      [.thread, .main, .thread, .thread]
    let m' := Machine.run (step (withSteady withTail)) (mainStart (withSteady withTail))
      [.main, .thread, .thread, .main, .thread]
    m.rx.completed = 2 ∧ PrefixCode (savedCode 238) ∧ m.rx.completed = m'.rx.completed ∧
      ∀ k, k < m.rx.completed → savedPrefix 238 (alternating k) = savedPrefix 238 (withTail k) := by
  have hone : ∀ k, alternating k 7 = 1 := fun _ => rfl
  have hone' : ∀ k, withTail k 7 = 1 := fun _ => rfl
  obtain ⟨htwo, hsaved⟩ := withSteady_two alternating hone [.thread, .main, .thread, .thread] rfl
  obtain ⟨-, hsaved'⟩ := withSteady_two withTail hone' [.main, .thread, .thread, .main, .thread] rfl
  have hsame : savedText 238 alternating 2 = savedText 238 withTail 2 := by
    rw [savedText, savedText, savedWords, savedWords]
    simp only [savedPrefix_withTail]
  have hboth := output_determines_messages (withSteady_receives alternating hone)
    (withSteady_receives withTail hone') rfl _ _ (hsaved.trans (hsame.trans hsaved'.symm))
  rw [withSteady_plan] at hboth
  exact ⟨htwo, hboth⟩

end RlsMini.Dma
