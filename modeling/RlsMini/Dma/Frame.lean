import RlsMini.Dma.Channel

/-!
# What printing and saving leave alone

`wait_for_transfer` reads the received buffer, prints it and writes it to the
dump file.  Time passes meanwhile, and the driver may change every buffer in
flight.  `Frame s s'` lists what stays: the object, the calls, the driver's
records and the words of every buffer that is not in flight.

`saveReceived_text` says what is written: a buffer that is not in flight is
saved as the lines of its saved prefix.

`LoopFrame` and `LengthsSet` are the same for the loops of `begin` and `init`
over the buffers.
-/

namespace RlsMini.Dma

open RlsMini.Hex

/-- What no read of a buffer and no output changes. -/
structure Frame (s s' : Sys) : Prop where
  ch : s'.ch = s.ch
  obj : s'.obj = s.obj
  calls : s'.calls = s.calls
  resources : s'.resources = s.resources
  states : s'.proxy.states = s.proxy.states
  busy : s'.proxy.busy = s.proxy.busy
  owner : s'.proxy.owner = s.proxy.owner
  starts : s'.proxy.starts = s.proxy.starts
  finishes : s'.proxy.finishes = s.proxy.finishes
  word : ∀ b w, s.proxy.busy b = false → w < 928 →
    s'.proxy.ram.word b w = s.proxy.ram.word b w

namespace Frame

theorem refl (s : Sys) : Frame s s :=
  ⟨rfl, rfl, rfl, rfl, rfl, rfl, rfl, rfl, rfl, fun _ _ _ _ => rfl⟩

theorem trans {s s' s'' : Sys} (h : Frame s s') (h' : Frame s' s'') : Frame s s'' where
  ch := h'.ch.trans h.ch
  obj := h'.obj.trans h.obj
  calls := h'.calls.trans h.calls
  resources := h'.resources.trans h.resources
  states := h'.states.trans h.states
  busy := h'.busy.trans h.busy
  owner := h'.owner.trans h.owner
  starts := h'.starts.trans h.starts
  finishes := h'.finishes.trans h.finishes
  word b w hidle hw := by
    have hidle' : s'.proxy.busy b = false := by rw [h.busy]; exact hidle
    rw [h'.word b w hidle' hw, h.word b w hidle hw]

end Frame

section Operations

variable (d : ProxyDriver)

theorem frame_readWord (b : Int) (w : Nat) (s : Sys) : Frame s (s.readWord d b w).2 :=
  ⟨rfl, rfl, rfl, rfl, rfl, rfl, rfl, rfl, rfl, fun _ _ hidle hw => Proxy.tick_word hidle hw⟩

theorem frame_readStruct (b : Int) (base count : Nat) (s : Sys) :
    Frame s (s.readStruct d b base count).2 :=
  ⟨rfl, rfl, rfl, rfl, rfl, rfl, rfl, rfl, rfl, fun _ _ hidle hw => Proxy.tick_word hidle hw⟩

theorem frame_print (report : Report) (s : Sys) : Frame s (s.print report) :=
  ⟨rfl, rfl, rfl, rfl, rfl, rfl, rfl, rfl, rfl, fun _ _ _ _ => rfl⟩

theorem frame_printPackets (b : Int) (n i : Nat) (s : Sys) :
    Frame s (s.printPackets d b n i) := by
  induction n generalizing i s with
  | zero => exact Frame.refl s
  | succ n ih =>
      rw [Sys.printPackets]
      exact ((frame_readStruct d b _ 3 s).trans (frame_print _ _)).trans (ih (i + 1) _)

theorem frame_printWork (b : Int) (s : Sys) : Frame s (s.printWork d b) :=
  ((frame_readStruct d b HDR_SIZE 2 s).trans (frame_print _ _)).trans
    (frame_printPackets d b _ 0 _)

theorem frame_printHdr (b : Int) (s : Sys) : Frame s (s.printHdr d b) := by
  have h := frame_readStruct d b 0 HDR_SIZE s
  simp only [Sys.printHdr]
  split
  · exact (h.trans (frame_print _ _)).trans (frame_printWork d b _)
  · exact h.trans (frame_print _ _)

theorem frame_saveWords (b : Int) (n i : Nat) (s : Sys) : Frame s (s.saveWords d b n i) := by
  induction n generalizing i s with
  | zero => exact Frame.refl s
  | succ n ih =>
      rw [Sys.saveWords]
      refine (frame_readWord d b i s).trans (Frame.trans ?_ (ih (i + 1) _))
      exact ⟨rfl, rfl, rfl, rfl, rfl, rfl, rfl, rfl, rfl, fun _ _ _ _ => rfl⟩

theorem frame_saveBufToFile (b : Int) (n : Int32) (s : Sys) :
    Frame s (s.saveBufToFile d b n) := by
  have h := frame_saveWords d b n.toInt64.toUInt64.toNat 0 s
  simp only [Sys.saveBufToFile]
  split
  · split
    · exact h.trans ⟨rfl, rfl, rfl, rfl, rfl, rfl, rfl, rfl, rfl, fun _ _ _ _ => rfl⟩
    · exact h
  · exact Frame.refl s

theorem frame_saveReceived (b : Int) (s : Sys) : Frame s (s.saveReceived d b) := by
  have h := frame_readStruct d b 0 HDR_SIZE s
  simp only [Sys.saveReceived]
  split
  · have h' := h.trans (frame_readStruct d b HDR_SIZE 2 _)
    exact (h'.trans (frame_printHdr d b _)).trans (frame_saveBufToFile d b _ _)
  · exact (h.trans (frame_printHdr d b _)).trans (frame_saveBufToFile d b _ _)

/-! ## The three outcomes of `wait_for_transfer` -/

/-- The state after a transfer without error is printed and saved, before the
counters move. -/
def Sys.received (s : Sys) : Sys :=
  if s.obj.flagSaveBuf then (s.finishXfer d).2.saveReceived d s.ch.bufferId.toInt
  else (s.finishXfer d).2

theorem frame_received (s : Sys) : Frame (s.finishXfer d).2 (s.received d) := by
  unfold Sys.received
  split
  · exact frame_saveReceived d _ _
  · exact Frame.refl _

variable {d} {s : Sys}

theorem waitForTransfer_idle (hidle : s.ch.inProgressCount = 0) :
    s.waitForTransfer d = (.PROXY_NO_ERROR, s) := by
  simp [Sys.waitForTransfer, hidle]

theorem waitForTransfer_error (hprogress : s.ch.inProgressCount ≠ 0)
    (herr : d.status s.proxy.finishes ≠ .PROXY_NO_ERROR) :
    s.waitForTransfer d = (d.status s.proxy.finishes, (s.finishXfer d).2) := by
  have hstatus : (s.finishXfer d).1 = d.status s.proxy.finishes := Proxy.finishXfer_status
  simp only [Sys.waitForTransfer, if_pos hprogress]
  rw [if_pos (by rw [hstatus]; exact herr), hstatus]

theorem waitForTransfer_ok (hprogress : s.ch.inProgressCount ≠ 0)
    (hok : d.status s.proxy.finishes = .PROXY_NO_ERROR) :
    s.waitForTransfer d =
      (.PROXY_NO_ERROR,
        { s.received d with
          ch := { s.ch with
            inProgressCount := s.ch.inProgressCount - 1
            counter := s.ch.counter + 1 } }) := by
  have hstatus : (s.finishXfer d).1 = d.status s.proxy.finishes := Proxy.finishXfer_status
  have hch : (s.received d).ch = s.ch := (frame_received d s).ch
  have hsave : (if (s.finishXfer d).2.obj.flagSaveBuf then
      (s.finishXfer d).2.saveReceived d (s.finishXfer d).2.ch.bufferId.toInt
      else (s.finishXfer d).2) = s.received d := rfl
  simp only [Sys.waitForTransfer, if_pos hprogress]
  rw [if_neg (by rw [hstatus]; exact not_not_intro hok), hsave, hch]

/-- `wait_for_transfer` moves none of the members that configure the channel. -/
theorem waitForTransfer_obj : (s.waitForTransfer d).2.obj = s.obj := by
  by_cases hprogress : s.ch.inProgressCount = 0
  · rw [waitForTransfer_idle hprogress]
  · by_cases hok : d.status s.proxy.finishes = .PROXY_NO_ERROR
    · rw [waitForTransfer_ok hprogress hok]
      exact (frame_received d s).obj
    · rw [waitForTransfer_error hprogress hok]
      rfl

/-- The call of a `wait_for_transfer` with a transfer in progress. -/
theorem waitForTransfer_calls (hprogress : s.ch.inProgressCount ≠ 0) :
    (s.waitForTransfer d).2.calls = s.calls ++
      [.finish s.ch.bufferId.toInt (d.status s.proxy.finishes)] := by
  have hfinish : (s.finishXfer d).2.calls = s.calls ++
      [.finish s.ch.bufferId.toInt (d.status s.proxy.finishes)] := by
    show s.calls ++ [Call.finish _ ((s.proxy.finishXfer d _).states _).status] = _
    rw [Proxy.finishXfer_status]
  by_cases hok : d.status s.proxy.finishes = .PROXY_NO_ERROR
  · rw [waitForTransfer_ok hprogress hok]
    exact (frame_received d s).calls.trans hfinish
  · rw [waitForTransfer_error hprogress hok]
    exact hfinish

/-- `wait_for_transfer` leaves the cursor alone. -/
theorem waitForTransfer_cursor (d : ProxyDriver) (s : Sys) :
    (s.waitForTransfer d).2.ch.bufferId = s.ch.bufferId ∧
      (s.waitForTransfer d).2.ch.bufferCount = s.ch.bufferCount := by
  by_cases hprogress : s.ch.inProgressCount = 0
  · rw [waitForTransfer_idle hprogress]
    exact ⟨rfl, rfl⟩
  · by_cases hok : d.status s.proxy.finishes = .PROXY_NO_ERROR
    · rw [waitForTransfer_ok hprogress hok]
      exact ⟨rfl, rfl⟩
    · rw [waitForTransfer_error hprogress hok]
      exact ⟨rfl, rfl⟩

variable (d)

/-! ## What is written to the dump file -/

theorem printPackets_dump (b : Int) (n i : Nat) (s : Sys) :
    (s.printPackets d b n i).dump = s.dump := by
  induction n generalizing i s with
  | zero => rfl
  | succ n ih => rw [Sys.printPackets, ih]; rfl

theorem printHdr_dump (b : Int) (s : Sys) : (s.printHdr d b).dump = s.dump := by
  simp only [Sys.printHdr]
  split
  · simp only [Sys.printWork, printPackets_dump]; rfl
  · rfl

/-- A buffer that is not in flight is written word by word. -/
theorem saveWords_text {b : Int} {n i : Nat} (hidle : s.proxy.busy b = false)
    (hn : i + n ≤ 928) :
    (s.saveWords d b n i).dump.text = s.dump.text ++
      (List.range' i n).flatMap fun w => hexLine 8 (s.proxy.ram.word b w).toNat := by
  induction n generalizing i s with
  | zero => simp [Sys.saveWords]
  | succ n ih =>
      have hword : ∀ w, w < 928 → (s.proxy.tick d).ram.word b w = s.proxy.ram.word b w :=
        fun w hw => Proxy.tick_word hidle hw
      rw [Sys.saveWords, ih (by exact hidle) (by omega)]
      simp only [Sys.readWord, hword i (by omega), List.range'_succ, List.flatMap_cons,
        List.append_assoc]
      congr 2
      apply List.flatMap_congr
      intro w hw
      rw [List.mem_range'_1] at hw
      rw [hword w (by omega)]

/-- The flush moves no text. -/
theorem saveBufToFile_text {b : Int} {n : Int32} (hfile : s.obj.dumpFile = true) :
    (s.saveBufToFile d b n).dump.text =
      (s.saveWords d b n.toInt64.toUInt64.toNat 0).dump.text := by
  simp only [Sys.saveBufToFile, hfile, if_true]
  split <;> rfl

/-- The loop bound of `save_buf_to_file` is its argument, when that is not
negative. -/
theorem toNat_toSizeT {n : Int32} (hn : 0 ≤ n.toInt) :
    n.toInt64.toUInt64.toNat = n.toInt.toNat := by
  have hlt := n.toInt_lt
  rw [Int64.toNat_toUInt64_of_le (by rw [Int64.le_iff_toInt_le]; simpa using hn)]
  rw [← Int64.toNat_toInt, Int32.toInt_toInt64]

/-- Printing and saving, from a state in which only time has passed. -/
private theorem printHdr_save_text {b : Int} {n : Int32} {s' : Sys} (hframe : Frame s s')
    (hdump : s'.dump = s.dump) (hidle : s.proxy.busy b = false)
    (hfile : s.obj.dumpFile = true) (hn : 0 ≤ n.toInt) (hfit : n.toInt ≤ 928) :
    ((s'.printHdr d b).saveBufToFile d b n).dump.text = s.dump.text ++
      (List.range n.toInt.toNat).flatMap fun w =>
        hexLine 8 (s.proxy.ram.word b w).toNat := by
  have hprint := hframe.trans (frame_printHdr d b s')
  have hidle' : (s'.printHdr d b).proxy.busy b = false := by rw [hprint.busy]; exact hidle
  have hfile' : (s'.printHdr d b).obj.dumpFile = true := by rw [hprint.obj]; exact hfile
  rw [saveBufToFile_text d hfile', saveWords_text d hidle' (by rw [toNat_toSizeT hn]; omega),
    printHdr_dump, hdump, toNat_toSizeT hn, ← List.range_eq_range']
  congr 1
  apply List.flatMap_congr
  intro w hw
  rw [List.mem_range] at hw
  rw [hprint.word b w hidle (by omega)]

/-- A received message whose saved length fits in the buffer is saved as the
lines of its saved prefix. -/
theorem saveReceived_text {b : Int} {words : Nat → UInt32}
    (hidle : s.proxy.busy b = false) (hfile : s.obj.dumpFile = true)
    (hwords : ∀ w, w < 928 → s.proxy.ram.word b w = words w)
    (hlow : 0 ≤ savedLength s.obj.nSampsPerBuf words)
    (hfit : savedLength s.obj.nSampsPerBuf words ≤ 928) :
    (s.saveReceived d b).dump.text = s.dump.text ++
      (savedPrefix s.obj.nSampsPerBuf words).flatMap fun w => hexLine 8 w.toNat := by
  have hn : ∀ words', (∀ w, w < 8 → words' w = words w) →
      (nSampsToSave s.obj.nSampsPerBuf words').toInt =
        savedLength s.obj.nSampsPerBuf words := by
    intro words' heq
    rw [nSampsToSave_congr heq, toInt_nSampsToSave (by omega)]
  -- Whatever has been read of the buffer so far, it reads as the message.
  have hread : ∀ s', Frame s s' → s'.dump = s.dump → ∀ words',
      (∀ w, w < 8 → words' w = words w) →
      ((s'.printHdr d b).saveBufToFile d b
          (nSampsToSave s.obj.nSampsPerBuf words')).dump.text = s.dump.text ++
        (savedPrefix s.obj.nSampsPerBuf words).flatMap fun w => hexLine 8 w.toNat := by
    intro s' hframe hdump words' heq
    have hlen := hn words' heq
    rw [printHdr_save_text d hframe hdump hidle hfile (by omega) (by omega), hlen,
      savedPrefix, List.flatMap_map]
    congr 1
    apply List.flatMap_congr
    intro w hw
    rw [List.mem_range] at hw
    rw [hwords w (by omega)]
  have htick : ∀ w, w < 8 → (s.readStruct d b 0 HDR_SIZE).1 w = words w := by
    intro w hw
    rw [← hwords w (by omega)]
    exact Proxy.tick_word hidle (by omega)
  have htick' : ∀ w, w < 8 →
      ((s.readStruct d b 0 HDR_SIZE).2.readStruct d b HDR_SIZE 2).1 w = words w := by
    intro w hw
    rw [← htick w hw]
    exact Proxy.tick_word (by exact hidle) (by omega)
  simp only [Sys.saveReceived]
  split
  · exact hread _ ((frame_readStruct d b 0 HDR_SIZE s).trans (frame_readStruct d b HDR_SIZE 2 _))
      rfl _ htick'
  · exact hread _ (frame_readStruct d b 0 HDR_SIZE s) rfl _ htick

end Operations

/-! ## The loops over the buffers -/

/-- What the loops of `init` and `begin` leave alone, and what they access. -/
structure LoopFrame (s s' : Sys) : Prop where
  obj : s'.obj = s.obj
  dump : s'.dump = s.dump
  console : s'.console = s.console
  resources : s'.resources = s.resources
  fd : s'.ch.fd = s.ch.fd
  bufPtr : s'.ch.bufPtr = s.ch.bufPtr
  bufferCount : s'.ch.bufferCount = s.ch.bufferCount
  accesses : ∃ bs : List Int, s'.accesses = s.accesses ++ bs.map (.states s.ch.bufPtr)

/-- What the loop of `init` leaves alone: it only sets lengths. -/
structure LengthsSet (s s' : Sys) : Prop extends LoopFrame s s' where
  inProgressCount : s'.ch.inProgressCount = s.ch.inProgressCount
  counter : s'.ch.counter = s.ch.counter
  calls : s'.calls = s.calls
  starts : s'.proxy.starts = s.proxy.starts
  finishes : s'.proxy.finishes = s.proxy.finishes

theorem LoopFrame.refl (s : Sys) : LoopFrame s s :=
  ⟨rfl, rfl, rfl, rfl, rfl, rfl, rfl, [], (List.append_nil _).symm⟩

theorem LoopFrame.trans {s s' s'' : Sys} (h : LoopFrame s s') (h' : LoopFrame s' s'') :
    LoopFrame s s'' where
  obj := h'.obj.trans h.obj
  dump := h'.dump.trans h.dump
  console := h'.console.trans h.console
  resources := h'.resources.trans h.resources
  fd := h'.fd.trans h.fd
  bufPtr := h'.bufPtr.trans h.bufPtr
  bufferCount := h'.bufferCount.trans h.bufferCount
  accesses := by
    obtain ⟨bs, hbs⟩ := h.accesses
    obtain ⟨bs', hbs'⟩ := h'.accesses
    exact ⟨bs ++ bs', by rw [hbs', hbs, h.bufPtr, List.map_append, List.append_assoc]⟩

theorem LengthsSet.trans {s s' s'' : Sys} (h : LengthsSet s s') (h' : LengthsSet s' s'') :
    LengthsSet s s'' where
  toLoopFrame := h.toLoopFrame.trans h'.toLoopFrame
  inProgressCount := h'.inProgressCount.trans h.inProgressCount
  counter := h'.counter.trans h.counter
  calls := h'.calls.trans h.calls
  starts := h'.starts.trans h.starts
  finishes := h'.finishes.trans h.finishes

theorem initLoop_lengthsSet (fuel : Nat) (s : Sys) : LengthsSet s (s.initLoop fuel) := by
  induction fuel generalizing s with
  | zero => exact ⟨LoopFrame.refl s, rfl, rfl, rfl, rfl, rfl⟩
  | succ fuel ih =>
      simp only [Sys.initLoop]
      split
      · refine LengthsSet.trans ?_ (ih _)
        exact ⟨⟨rfl, rfl, rfl, rfl, rfl, rfl, rfl, [_], rfl⟩, rfl, rfl, rfl, rfl, rfl⟩
      · exact ⟨LoopFrame.refl s, rfl, rfl, rfl, rfl, rfl⟩

theorem beginLoop_frame (d : ProxyDriver) (fuel : Nat) (s : Sys) :
    LoopFrame s (s.beginLoop d fuel) := by
  induction fuel generalizing s with
  | zero => exact LoopFrame.refl s
  | succ fuel ih =>
      simp only [Sys.beginLoop]
      split
      · split
        · exact ⟨rfl, rfl, rfl, rfl, rfl, rfl, rfl, [_], rfl⟩
        · refine LoopFrame.trans ?_ (ih _)
          exact ⟨rfl, rfl, rfl, rfl, rfl, rfl, rfl, [_], rfl⟩
      · exact LoopFrame.refl s

theorem begin_frame (d : ProxyDriver) (s : Sys) : LoopFrame s (s.begin d) := by
  have hloop := beginLoop_frame d s.ch.bufferCount.toNatClampNeg
    { s with ch := { s.ch with bufferId := 0 } }
  exact ⟨hloop.obj, hloop.dump, hloop.console, hloop.resources, hloop.fd, hloop.bufPtr,
    hloop.bufferCount, hloop.accesses⟩

/-- What every `init` takes over and leaves alone, whether it succeeds or
not. -/
structure InitFrame (cfg : ChConfig) (s s' : Sys) : Prop where
  bufferCount : s'.ch.bufferCount = cfg.bufferCount
  inProgressCount : s'.ch.inProgressCount = s.ch.inProgressCount
  counter : s'.ch.counter = s.ch.counter
  calls : s'.calls = s.calls
  finishes : s'.proxy.finishes = s.proxy.finishes

theorem init_frame (cfg : ChConfig) (fd : Int32) (ptr : Option Nat) (s : Sys) :
    InitFrame cfg s (Sys.init cfg fd ptr s).2 := by
  simp only [Sys.init]
  split
  · exact ⟨rfl, rfl, rfl, rfl, rfl⟩
  · split
    · exact ⟨rfl, rfl, rfl, rfl, rfl⟩
    · have hloop := fun fuel s => initLoop_lengthsSet fuel s
      exact ⟨(hloop _ _).bufferCount, (hloop _ _).inProgressCount, (hloop _ _).counter,
        (hloop _ _).calls, (hloop _ _).finishes⟩

end RlsMini.Dma
