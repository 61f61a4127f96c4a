import RlsMini.Dma.Frame

/-!
# The words that are read of a received message

Printing and saving a received buffer reads words of it, and the message
itself decides how many: `print_work` takes its loop bound from the
post-header, and `wait_for_transfer` computes the bound of `save_buf_to_file`
from the same field.

`messageReads` lists the words, in order, and `saveReceived_accesses` says
that the log of a message grows by exactly these.  `Sys.received_console` is
the corresponding list of what is printed.
-/

namespace RlsMini.Dma

/-! ## The lists -/

/-- The words of detection `i`. -/
def packetReads (i : Nat) : List Nat := List.range' (HDR_SIZE + 2 + 3 * i) 3

/-- The words that `print_hdr` reads, with those of `print_work`. -/
def printedReads (words : Nat → UInt32) : List Nat :=
  List.range' 0 HDR_SIZE ++
    if (Header.ofWords words).tp = TP_WORK.toNat then
      List.range' HDR_SIZE 2 ++
        (List.range (WorkPosthdr.ofWords words).nWorkPackets.toNat).flatMap packetReads
    else []

/-- The words that `wait_for_transfer` reads to measure a message. -/
def measuredReads (words : Nat → UInt32) : List Nat :=
  List.range' 0 HDR_SIZE ++
    if (Header.ofWords words).tp = TP_WORK.toNat then List.range' HDR_SIZE 2 else []

/-- The words that are read of a message that has been received. -/
def messageReads (dumpFile : Bool) (nSamps : Int32) (words : Nat → UInt32) : List Nat :=
  measuredReads words ++ printedReads words ++
    if dumpFile then List.range (nSampsToSave nSamps words).toInt64.toUInt64.toNat else []

/-- What is printed of a message. -/
def reports (words : Nat → UInt32) : List Report :=
  .header (Header.ofWords words) ::
    if (Header.ofWords words).tp = TP_WORK.toNat then
      .posthdr (WorkPosthdr.ofWords words) ::
        (List.range (WorkPosthdr.ofWords words).nWorkPackets.toNat).map fun i =>
          .packet (i + 1) (WorkPacket.ofWords words i)
    else []

theorem packetReads_congr {words words' : Nat → UInt32} {i : Nat}
    (h : ∀ w ∈ packetReads i, words w = words' w) :
    WorkPacket.ofWords words i = WorkPacket.ofWords words' i := by
  have hbase : HDR_SIZE + sizeofWorkPosthdr / 4 + sizeofWorkPacket / 4 * i =
      HDR_SIZE + 2 + 3 * i := rfl
  have hmem : ∀ k, k < 3 →
      words (HDR_SIZE + 2 + 3 * i + k) = words' (HDR_SIZE + 2 + 3 * i + k) := by
    intro k hk
    apply h
    rw [packetReads, List.mem_range'_1]
    omega
  have hfirst := hmem 0 (by decide)
  rw [Nat.add_zero] at hfirst
  simp only [WorkPacket.ofWords, hbase, hfirst, hmem 1 (by decide), hmem 2 (by decide)]

/-- A detection of a message that fits is read from the buffer. -/
theorem workPacket_congr {words words' : Nat → UInt32} {n i : Nat} (hi : i < n)
    (hfit : workLength n ≤ 928) (h : ∀ w, w < 928 → words w = words' w) :
    WorkPacket.ofWords words i = WorkPacket.ofWords words' i := by
  apply packetReads_congr
  intro w hw
  rw [packetReads, List.mem_range'_1, HDR_SIZE] at hw
  simp only [workLength, HDR_SIZE] at hfit
  exact h w (by omega)

theorem header_congr {words words' : Nat → UInt32} (h : ∀ w, w < 8 → words w = words' w) :
    Header.ofWords words = Header.ofWords words' := by
  simp only [Header.ofWords, h 0 (by decide), h 1 (by decide), h 2 (by decide), h 3 (by decide),
    h 4 (by decide), h 5 (by decide)]

theorem workPosthdr_congr {words words' : Nat → UInt32} (h : ∀ w, w < 8 → words w = words' w) :
    WorkPosthdr.ofWords words = WorkPosthdr.ofWords words' := by
  simp only [WorkPosthdr.ofWords, HDR_SIZE, h 6 (by decide), h (6 + 1) (by decide)]

theorem messageReads_congr {dumpFile : Bool} {nSamps : Int32} {words words' : Nat → UInt32}
    (h : ∀ w, w < 8 → words w = words' w) :
    messageReads dumpFile nSamps words = messageReads dumpFile nSamps words' := by
  simp only [messageReads, measuredReads, printedReads, header_congr h, workPosthdr_congr h,
    nSampsToSave_congr h]

theorem reports_congr {words words' : Nat → UInt32}
    (hfit : workLength (WorkPosthdr.ofWords words).nWorkPackets.toNat ≤ 928)
    (h : ∀ w, w < 928 → words w = words' w) : reports words = reports words' := by
  have hhead : ∀ w, w < 8 → words w = words' w := fun w hw => h w (by omega)
  have hpackets : (List.range (WorkPosthdr.ofWords words).nWorkPackets.toNat).map
        (fun i => Report.packet (i + 1) (WorkPacket.ofWords words i)) =
      (List.range (WorkPosthdr.ofWords words).nWorkPackets.toNat).map
        fun i => Report.packet (i + 1) (WorkPacket.ofWords words' i) := by
    apply List.map_congr_left
    intro i hi
    rw [workPacket_congr (List.mem_range.mp hi) hfit h]
  rw [reports, reports, hpackets, header_congr hhead, workPosthdr_congr hhead]

/-! ## What is read -/

section Reads

variable (d : ProxyDriver)

theorem printPackets_accesses (b : Int) (n i : Nat) (s : Sys) :
    (s.printPackets d b n i).accesses = s.accesses ++
      ((List.range' i n).flatMap packetReads).map (.word s.ch.bufPtr b) := by
  induction n generalizing i s with
  | zero => simp [Sys.printPackets]
  | succ n ih =>
      rw [Sys.printPackets, ih, List.range'_succ, List.flatMap_cons, List.map_append,
        ← List.append_assoc]
      rfl

/-- The words of a buffer that is not in flight, as a read at any later
moment finds them. -/
theorem readStruct_words {b : Int} {base count : Nat} {s : Sys} (hidle : s.proxy.busy b = false)
    {w : Nat} (hw : w < 928) : (s.readStruct d b base count).1 w = s.proxy.ram.word b w :=
  Proxy.tick_word hidle hw

theorem printWork_accesses {b : Int} {s : Sys} (hidle : s.proxy.busy b = false) :
    (s.printWork d b).accesses = s.accesses ++
      (List.range' HDR_SIZE 2 ++
        (List.range (WorkPosthdr.ofWords (s.proxy.ram.word b)).nWorkPackets.toNat).flatMap
          packetReads).map (.word s.ch.bufPtr b) := by
  have hwords : ∀ w, w < 8 → (s.readStruct d b HDR_SIZE 2).1 w = s.proxy.ram.word b w :=
    fun w hw => readStruct_words d hidle (by omega)
  simp only [Sys.printWork]
  rw [printPackets_accesses, workPosthdr_congr hwords, ← List.range_eq_range', List.map_append,
    ← List.append_assoc]
  rfl

theorem printHdr_accesses {b : Int} {s : Sys} (hidle : s.proxy.busy b = false) :
    (s.printHdr d b).accesses = s.accesses ++
      (printedReads (s.proxy.ram.word b)).map (.word s.ch.bufPtr b) := by
  have hwords : ∀ w, w < 8 → (s.readStruct d b 0 HDR_SIZE).1 w = s.proxy.ram.word b w :=
    fun w hw => readStruct_words d hidle (by omega)
  have hread := frame_readStruct d b 0 HDR_SIZE s
  have hnext : ∀ w, w < 8 →
      (s.readStruct d b 0 HDR_SIZE).2.proxy.ram.word b w = s.proxy.ram.word b w :=
    fun w hw => hread.word b w hidle (by omega)
  simp only [Sys.printHdr, printedReads]
  rw [header_congr hwords]
  split
  · rw [printWork_accesses d (by exact hidle)]
    simp only [Sys.print, workPosthdr_congr hnext, List.map_append, ← List.append_assoc]
    rfl
  · rw [List.append_nil]
    rfl

theorem saveWords_accesses (b : Int) (n i : Nat) (s : Sys) :
    (s.saveWords d b n i).accesses = s.accesses ++
      (List.range' i n).map (.word s.ch.bufPtr b) := by
  induction n generalizing i s with
  | zero => simp [Sys.saveWords]
  | succ n ih =>
      rw [Sys.saveWords, ih, List.range'_succ, List.map_cons, List.append_cons]
      rfl

theorem saveBufToFile_accesses (b : Int) (n : Int32) (s : Sys) :
    (s.saveBufToFile d b n).accesses = s.accesses ++
      (if s.obj.dumpFile then List.range n.toInt64.toUInt64.toNat else []).map
        (.word s.ch.bufPtr b) := by
  have hsave := saveWords_accesses d b n.toInt64.toUInt64.toNat 0 s
  rw [← List.range_eq_range'] at hsave
  simp only [Sys.saveBufToFile]
  split
  · split
    · exact hsave
    · exact hsave
  · rw [List.map_nil, List.append_nil]

/-- The words that printing and saving read once a message is measured. -/
private theorem printHdr_save_accesses {b : Int} {n : Int32} {s s' : Sys} (hframe : Frame s s')
    (hidle : s.proxy.busy b = false) :
    ((s'.printHdr d b).saveBufToFile d b n).accesses = s'.accesses ++
      (printedReads (s.proxy.ram.word b) ++
        if s.obj.dumpFile then List.range n.toInt64.toUInt64.toNat else []).map
          (.word s.ch.bufPtr b) := by
  have hidle' : s'.proxy.busy b = false := by rw [hframe.busy]; exact hidle
  have hprint := frame_printHdr d b s'
  have hwords : ∀ w, w < 8 → s'.proxy.ram.word b w = s.proxy.ram.word b w :=
    fun w hw => hframe.word b w hidle (by omega)
  have hreads : printedReads (s'.proxy.ram.word b) = printedReads (s.proxy.ram.word b) := by
    simp only [printedReads, header_congr hwords, workPosthdr_congr hwords]
  rw [saveBufToFile_accesses, printHdr_accesses d hidle', hprint.obj, hprint.ch, hframe.obj,
    hframe.ch, hreads, List.append_assoc, ← List.map_append]

/-- A received message is read word by word as `messageReads` says. -/
theorem saveReceived_accesses {b : Int} {s : Sys} (hidle : s.proxy.busy b = false) :
    (s.saveReceived d b).accesses = s.accesses ++
      (messageReads s.obj.dumpFile s.obj.nSampsPerBuf (s.proxy.ram.word b)).map
        (.word s.ch.bufPtr b) := by
  have hread := frame_readStruct d b 0 HDR_SIZE s
  have hread' := hread.trans (frame_readStruct d b HDR_SIZE 2 _)
  have hwords : ∀ w, w < 8 → (s.readStruct d b 0 HDR_SIZE).1 w = s.proxy.ram.word b w :=
    fun w hw => readStruct_words d hidle (by omega)
  have hwords' : ∀ w, w < 8 →
      ((s.readStruct d b 0 HDR_SIZE).2.readStruct d b HDR_SIZE 2).1 w = s.proxy.ram.word b w := by
    intro w hw
    rw [readStruct_words d (by exact hidle) (by omega)]
    exact hread.word b w hidle (by omega)
  simp only [Sys.saveReceived, messageReads, measuredReads]
  rw [tp_congr hwords]
  split
  · rw [printHdr_save_accesses d hread' hidle, nSampsToSave_congr hwords']
    simp only [List.map_append, ← List.append_assoc]
    rfl
  · rw [printHdr_save_accesses d hread hidle, nSampsToSave_congr hwords]
    simp only [List.map_append, List.append_nil, ← List.append_assoc]
    rfl

/-- The accesses of a `wait_for_transfer` whose transfer ends without an
error: the status, and the words of the message if it is saved. -/
theorem waitForTransfer_accesses {s : Sys} (hprogress : s.ch.inProgressCount ≠ 0)
    (hok : d.status s.proxy.finishes = .PROXY_NO_ERROR) :
    (s.waitForTransfer d).2.accesses = s.accesses ++
      .states s.ch.bufPtr s.ch.bufferId.toInt ::
        (if s.obj.flagSaveBuf then
          messageReads s.obj.dumpFile s.obj.nSampsPerBuf
            ((s.finishXfer d).2.proxy.ram.word s.ch.bufferId.toInt)
        else []).map (.word s.ch.bufPtr s.ch.bufferId.toInt) := by
  have hidle : (s.finishXfer d).2.proxy.busy s.ch.bufferId.toInt = false := by
    show (s.proxy.finishXfer d _).busy _ = false
    rw [Proxy.finishXfer_busy hok, if_pos rfl]
  rw [waitForTransfer_ok hprogress hok, List.append_cons]
  show (s.received d).accesses = _
  unfold Sys.received
  split
  · exact saveReceived_accesses d hidle
  · rw [List.map_nil, List.append_nil]
    rfl

/-! ## What is printed -/

theorem printPackets_console {b : Int} {n i : Nat} {s : Sys} (hidle : s.proxy.busy b = false)
    (hfit : workLength (i + n) ≤ 928) :
    (s.printPackets d b n i).console = s.console ++
      (List.range' i n).map fun i =>
        .packet (i + 1) (WorkPacket.ofWords (s.proxy.ram.word b) i) := by
  induction n generalizing i s with
  | zero => simp [Sys.printPackets]
  | succ n ih =>
      have hframe := (frame_readStruct d b (HDR_SIZE + 2 + 3 * i) 3 s).trans
        (frame_print (.packet (i + 1)
          (.ofWords (s.readStruct d b (HDR_SIZE + 2 + 3 * i) 3).1 i)) _)
      have hfirst : WorkPacket.ofWords (s.readStruct d b (HDR_SIZE + 2 + 3 * i) 3).1 i =
          WorkPacket.ofWords (s.proxy.ram.word b) i :=
        workPacket_congr (by omega) hfit fun w hw => readStruct_words d hidle hw
      have hsum : i + 1 + n = i + (n + 1) := by omega
      rw [Sys.printPackets, ih (by rw [hframe.busy]; exact hidle) (by rw [hsum]; exact hfit),
        List.range'_succ, List.map_cons, List.append_cons]
      congr 1
      · show s.console ++ [Report.packet _ _] = _
        rw [hfirst]
      · apply List.map_congr_left
        intro j hj
        rw [List.mem_range'_1] at hj
        rw [workPacket_congr (by omega) hfit fun w hw => hframe.word b w hidle hw]

theorem printWork_console {b : Int} {s : Sys} (hidle : s.proxy.busy b = false)
    (hfit : workLength (WorkPosthdr.ofWords (s.proxy.ram.word b)).nWorkPackets.toNat ≤ 928) :
    (s.printWork d b).console = s.console ++
      .posthdr (WorkPosthdr.ofWords (s.proxy.ram.word b)) ::
        (List.range (WorkPosthdr.ofWords (s.proxy.ram.word b)).nWorkPackets.toNat).map fun i =>
          .packet (i + 1) (WorkPacket.ofWords (s.proxy.ram.word b) i) := by
  have hwords : ∀ w, w < 8 → (s.readStruct d b HDR_SIZE 2).1 w = s.proxy.ram.word b w :=
    fun w hw => readStruct_words d hidle (by omega)
  have hpacket : ∀ i ∈ List.range (WorkPosthdr.ofWords (s.proxy.ram.word b)).nWorkPackets.toNat,
      WorkPacket.ofWords ((s.readStruct d b HDR_SIZE 2).2.proxy.ram.word b) i =
        WorkPacket.ofWords (s.proxy.ram.word b) i := by
    intro i hi
    rw [List.mem_range] at hi
    exact workPacket_congr hi hfit fun w hw => (frame_readStruct d b HDR_SIZE 2 s).word b w hidle hw
  simp only [Sys.printWork]
  rw [workPosthdr_congr hwords, printPackets_console d (by exact hidle)
    (by rw [Nat.zero_add]; exact hfit), ← List.range_eq_range', List.append_cons]
  congr 1
  apply List.map_congr_left
  intro i hi
  exact congrArg (Report.packet (i + 1)) (hpacket i hi)

/-- A message whose detections fit in the buffer is printed as it is. -/
theorem printHdr_console {b : Int} {s : Sys} (hidle : s.proxy.busy b = false)
    (hfit : workLength (WorkPosthdr.ofWords (s.proxy.ram.word b)).nWorkPackets.toNat ≤ 928) :
    (s.printHdr d b).console = s.console ++ reports (s.proxy.ram.word b) := by
  have hread := frame_readStruct d b 0 HDR_SIZE s
  have hwords : ∀ w, w < 8 → (s.readStruct d b 0 HDR_SIZE).1 w = s.proxy.ram.word b w :=
    fun w hw => readStruct_words d hidle (by omega)
  have hnext : ∀ w, w < 928 →
      (s.readStruct d b 0 HDR_SIZE).2.proxy.ram.word b w = s.proxy.ram.word b w :=
    fun w hw => hread.word b w hidle hw
  have hposthdr : WorkPosthdr.ofWords ((s.readStruct d b 0 HDR_SIZE).2.proxy.ram.word b) =
      WorkPosthdr.ofWords (s.proxy.ram.word b) :=
    workPosthdr_congr fun w hw => hnext w (by omega)
  have hpacket : ∀ i ∈ List.range (WorkPosthdr.ofWords (s.proxy.ram.word b)).nWorkPackets.toNat,
      WorkPacket.ofWords ((s.readStruct d b 0 HDR_SIZE).2.proxy.ram.word b) i =
        WorkPacket.ofWords (s.proxy.ram.word b) i := by
    intro i hi
    rw [List.mem_range] at hi
    exact workPacket_congr hi hfit hnext
  simp only [Sys.printHdr, reports]
  rw [header_congr hwords]
  split
  · rw [printWork_console d (by exact hidle) (by rw [← hposthdr] at hfit; exact hfit)]
    simp only [Sys.print]
    rw [hposthdr, List.append_cons s.console]
    congr 2
    apply List.map_congr_left
    intro i hi
    exact congrArg (Report.packet (i + 1)) (hpacket i hi)
  · rfl

theorem saveWords_console (b : Int) (n i : Nat) (s : Sys) :
    (s.saveWords d b n i).console = s.console := by
  induction n generalizing i s with
  | zero => rfl
  | succ n ih => rw [Sys.saveWords, ih]; rfl

/-- Saving prints nothing. -/
theorem saveBufToFile_console (b : Int) (n : Int32) (s : Sys) :
    (s.saveBufToFile d b n).console = s.console := by
  have hsave := saveWords_console d b n.toInt64.toUInt64.toNat 0 s
  simp only [Sys.saveBufToFile]
  split
  · split
    · exact hsave
    · exact hsave
  · rfl

/-- What the save path prints of a message. -/
theorem saveReceived_console {b : Int} {s : Sys} (hidle : s.proxy.busy b = false)
    (hfit : workLength (WorkPosthdr.ofWords (s.proxy.ram.word b)).nWorkPackets.toNat ≤ 928) :
    (s.saveReceived d b).console = s.console ++ reports (s.proxy.ram.word b) := by
  have hprint : ∀ s', Frame s s' → s'.console = s.console →
      (s'.printHdr d b).console = s.console ++ reports (s.proxy.ram.word b) := by
    intro s' hframe hconsole
    have hwords : ∀ w, w < 928 → s'.proxy.ram.word b w = s.proxy.ram.word b w :=
      fun w hw => hframe.word b w hidle hw
    have hposthdr : WorkPosthdr.ofWords (s'.proxy.ram.word b) =
        WorkPosthdr.ofWords (s.proxy.ram.word b) :=
      workPosthdr_congr fun w hw => hwords w (by omega)
    rw [printHdr_console d (by rw [hframe.busy]; exact hidle) (by rw [hposthdr]; exact hfit),
      hconsole, reports_congr hfit fun w hw => (hwords w hw).symm]
  have hread := frame_readStruct d b 0 HDR_SIZE s
  simp only [Sys.saveReceived]
  rw [saveBufToFile_console]
  split
  · exact hprint _ (hread.trans (frame_readStruct d b HDR_SIZE 2 _)) rfl
  · exact hprint _ hread rfl

end Reads

end RlsMini.Dma
