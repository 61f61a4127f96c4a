import RlsMini.Dma.Accesses
import RlsMini.Dma.RxPlan
import Mathlib.Data.Nat.Bitwise

/-!
# Detection messages

At the work test point a message carries a list of detections, and its
post-header says how many.  The documentation gives the place of every field
in bits, while the program reads packed structures.  `HoldsMessage` is the
documented layout, and `HoldsMessage.header`, `HoldsMessage.posthdr` and
`HoldsMessage.packet` say that the structures are read back exactly.

A buffer has room for 306 detections.  `wait_for_transfer` does not compare
the count with that: `wait_reads_within_buffer_iff` is the exact bound up to
which it stays inside the buffer.
-/

namespace RlsMini.Dma

/-! ## Bits of a message -/

/-- Bit `j` of a message: word after word, the lowest bit of a word first. -/
def messageBit (words : Nat → UInt32) (j : Nat) : Bool :=
  (words (j / 32)).toNat.testBit (j % 32)

/-- `value` lies in the `width` bits from bit `offset` on. -/
structure FieldAt (words : Nat → UInt32) (offset width value : Nat) : Prop where
  lt : value < 2 ^ width
  bit : ∀ t, t < width → messageBit words (offset + t) = value.testBit t

theorem testBit_bits (w : UInt32) (lsb width t : Nat) :
    (bits w lsb width).testBit t = (decide (t < width) && w.toNat.testBit (lsb + t)) := by
  rw [bits, Nat.testBit_mod_two_pow, Nat.testBit_div_two_pow, Nat.add_comm]

/-- A field inside one word. -/
theorem FieldAt.bits_eq {words : Nat → UInt32} {offset width value : Nat}
    (h : FieldAt words offset width value) (hfit : offset % 32 + width ≤ 32) :
    bits (words (offset / 32)) (offset % 32) width = value := by
  apply Nat.eq_of_testBit_eq
  intro t
  rw [testBit_bits]
  by_cases ht : t < width
  · have hword : (offset + t) / 32 = offset / 32 := by omega
    have hplace : (offset + t) % 32 = offset % 32 + t := by omega
    rw [← h.bit t ht, messageBit, hword, hplace, decide_eq_true ht, Bool.true_and]
  · have hlt : value < 2 ^ t :=
      Nat.lt_of_lt_of_le h.lt (Nat.pow_le_pow_right (by decide) (Nat.le_of_not_lt ht))
    rw [decide_eq_false ht, Bool.false_and, Nat.testBit_lt_two_pow hlt]

/-- A whole word. -/
theorem FieldAt.word_eq {words : Nat → UInt32} {k : Nat} {value : UInt32}
    (h : FieldAt words (32 * k) 32 value.toNat) : words k = value := by
  have hbits := h.bits_eq (by omega)
  have hword : 32 * k / 32 = k := by omega
  have hplace : 32 * k % 32 = 0 := by omega
  have hlt := (words k).toNat_lt
  rw [hword, hplace, bits, Nat.pow_zero, Nat.div_one, Nat.mod_eq_of_lt hlt] at hbits
  exact UInt32.toNat.inj hbits

/-- Two words, the low one first. -/
theorem FieldAt.twoWords_eq {words : Nat → UInt32} {k : Nat} {value : UInt64}
    (h : FieldAt words (32 * k) 64 value.toNat) :
    (words k).toNat + 2 ^ 32 * (words (k + 1)).toNat = value.toNat := by
  apply Nat.eq_of_testBit_eq
  intro t
  have hlow := (words k).toNat_lt
  rw [Nat.add_comm, Nat.testBit_two_pow_mul_add _ hlow]
  by_cases ht : t < 64
  · rw [← h.bit t ht, messageBit]
    by_cases hfirst : t < 32
    · have hword : (32 * k + t) / 32 = k := by omega
      have hplace : (32 * k + t) % 32 = t := by omega
      rw [if_pos hfirst, hword, hplace]
    · have hword : (32 * k + t) / 32 = k + 1 := by omega
      have hplace : (32 * k + t) % 32 = t - 32 := by omega
      rw [if_neg hfirst, hword, hplace]
  · have hle : 2 ^ 64 ≤ 2 ^ t := Nat.pow_le_pow_right (by decide) (Nat.le_of_not_lt ht)
    have hhigh : (words (k + 1)).toNat < 2 ^ (t - 32) :=
      Nat.lt_of_lt_of_le (words (k + 1)).toNat_lt
        (Nat.pow_le_pow_right (by decide) (by omega))
    rw [if_neg (by omega), Nat.testBit_lt_two_pow hhigh,
      Nat.testBit_lt_two_pow (Nat.lt_of_lt_of_le value.toNat_lt hle)]

/-! ## The documented layout -/

/-- A message of the work test point. -/
structure WorkMessage where
  header : Header
  packetNumber : UInt32
  packets : List WorkPacket

/-- The header, in the first six words. -/
structure HeaderAt (words : Nat → UInt32) (hdr : Header) : Prop where
  delHigh : FieldAt words 0 32 hdr.delHigh.toNat
  delLow : FieldAt words 32 32 hdr.delLow.toNat
  packetNumber : FieldAt words 64 32 hdr.packetNumber.toNat
  timestamp : FieldAt words 96 64 hdr.timestamp.toNat
  channel : FieldAt words 160 16 hdr.channel
  tp : FieldAt words 176 16 hdr.tp

/-- A record of the table of the main message, from bit `base` on.  The eleven
bits behind it are padding. -/
structure PacketAt (words : Nat → UInt32) (base : Nat) (packet : WorkPacket) : Prop where
  mainAmplitude : FieldAt words base 32 packet.mainAmplitude.toNat
  neighborAmplitude : FieldAt words (base + 32) 32 packet.neighborAmplitude.toNat
  range : FieldAt words (base + 64) 8 packet.range
  mainDiagramNumber : FieldAt words (base + 72) 3 packet.mainDiagramNumber
  neighborDiagramSide : FieldAt words (base + 75) 1 packet.neighborDiagramSide
  frequencyChannel : FieldAt words (base + 76) 9 packet.frequencyChannel

/-- A buffer holds a message: the header, the post-header with the number of
records, and the records one after another. -/
structure HoldsMessage (words : Nat → UInt32) (m : WorkMessage) : Prop where
  headerAt : HeaderAt words m.header
  tp : m.header.tp = TP_WORK.toNat
  packetNumberAt : FieldAt words 192 32 m.packetNumber.toNat
  countAt : FieldAt words 224 32 m.packets.length
  packetAt : ∀ i (hi : i < m.packets.length), PacketAt words (256 + 96 * i) m.packets[i]

/-! ## The structures read the layout back -/

section Decoding

variable {words : Nat → UInt32} {m : WorkMessage}

theorem HeaderAt.ofWords_eq {hdr : Header} (h : HeaderAt words hdr) :
    Header.ofWords words = hdr := by
  have hdelHigh : words 0 = hdr.delHigh := h.delHigh.word_eq
  have hdelLow : words 1 = hdr.delLow := h.delLow.word_eq
  have hpacketNumber : words 2 = hdr.packetNumber := h.packetNumber.word_eq
  have htimestamp : (words 3).toNat + 2 ^ 32 * (words 4).toNat = hdr.timestamp.toNat :=
    h.timestamp.twoWords_eq
  have hchannel : bits (words 5) 0 16 = hdr.channel := h.channel.bits_eq (by decide)
  have htp : bits (words 5) 16 16 = hdr.tp := h.tp.bits_eq (by decide)
  simp only [Header.ofWords, hdelHigh, hdelLow, hpacketNumber, htimestamp, hchannel, htp,
    UInt64.ofNat_toNat]

theorem PacketAt.ofWords_eq {packet : WorkPacket} {i : Nat}
    (h : PacketAt words (256 + 96 * i) packet) : WorkPacket.ofWords words i = packet := by
  have hbase : HDR_SIZE + sizeofWorkPosthdr / 4 + sizeofWorkPacket / 4 * i = 8 + 3 * i := rfl
  have hmain : words (8 + 3 * i) = packet.mainAmplitude := by
    have hoffset : 256 + 96 * i = 32 * (8 + 3 * i) := by omega
    exact FieldAt.word_eq (hoffset ▸ h.mainAmplitude)
  have hneighbor : words (8 + 3 * i + 1) = packet.neighborAmplitude := by
    have hoffset : 256 + 96 * i + 32 = 32 * (8 + 3 * i + 1) := by omega
    exact FieldAt.word_eq (hoffset ▸ h.neighborAmplitude)
  -- The four bit-fields share the third word of the record.
  have hfield : ∀ lsb width value, lsb < 32 ∧ lsb + width ≤ 32 →
      FieldAt words (256 + 96 * i + (64 + lsb)) width value →
      bits (words (8 + 3 * i + 2)) lsb width = value := by
    intro lsb width value hfit hat
    have hword : (256 + 96 * i + (64 + lsb)) / 32 = 8 + 3 * i + 2 := by omega
    have hplace : (256 + 96 * i + (64 + lsb)) % 32 = lsb := by omega
    have hbits := hat.bits_eq (by omega)
    rwa [hword, hplace] at hbits
  simp only [WorkPacket.ofWords, hbase, hmain, hneighbor,
    hfield 0 8 _ (by decide) h.range, hfield 8 3 _ (by decide) h.mainDiagramNumber,
    hfield 11 1 _ (by decide) h.neighborDiagramSide, hfield 12 9 _ (by decide) h.frequencyChannel]

theorem HoldsMessage.posthdr (h : HoldsMessage words m) :
    WorkPosthdr.ofWords words = ⟨m.packetNumber, UInt32.ofNat m.packets.length⟩ := by
  have hnumber : words 6 = m.packetNumber := h.packetNumberAt.word_eq
  have hcount : words 7 = UInt32.ofNat m.packets.length := by
    apply FieldAt.word_eq (k := 7)
    rw [UInt32.toNat_ofNat_of_lt' h.countAt.lt]
    exact h.countAt
  simp only [WorkPosthdr.ofWords, HDR_SIZE, hnumber, hcount]

theorem HoldsMessage.nWorkPackets (h : HoldsMessage words m) :
    (WorkPosthdr.ofWords words).nWorkPackets.toNat = m.packets.length := by
  rw [h.posthdr]
  exact UInt32.toNat_ofNat_of_lt' h.countAt.lt

/-- What is printed of a message is the message. -/
theorem HoldsMessage.reports (h : HoldsMessage words m) :
    reports words = .header m.header ::
      .posthdr ⟨m.packetNumber, UInt32.ofNat m.packets.length⟩ ::
        m.packets.mapIdx fun i packet => .packet (i + 1) packet := by
  have hheader := h.headerAt.ofWords_eq
  rw [Dma.reports, hheader, if_pos h.tp, h.nWorkPackets, h.posthdr]
  congr 2
  apply List.ext_getElem
  · rw [List.length_map, List.length_range, List.length_mapIdx]
  · intro i hi hi'
    rw [List.getElem_map, List.getElem_range, List.getElem_mapIdx]
    rw [List.length_mapIdx] at hi'
    rw [(h.packetAt i hi').ofWords_eq]

end Decoding

/-! ## What `wait_for_transfer` does with a message -/

/-- The words of the buffer when its transfer has finished. -/
def Sys.message (d : ProxyDriver) (s : Sys) : Nat → UInt32 :=
  (s.finishXfer d).2.proxy.ram.word s.ch.bufferId.toInt

/-- The bound of the loop of `save_buf_to_file`: the `int` argument as a
`size_t`. -/
def saveBound (nSamps : Int32) (words : Nat → UInt32) : Nat :=
  (nSampsToSave nSamps words).toInt64.toUInt64.toNat

/-- Only the words of the buffer are read, and the word count of a detection
message is the bound that `save_buf_to_file` works with. -/
structure ReadsWithinBuffer (d : ProxyDriver) (s : Sys) (words : Nat → UInt32) : Prop where
  reads : ∀ w, .word s.ch.bufPtr s.ch.bufferId.toInt w ∈
    (s.waitForTransfer d).2.accesses.drop s.accesses.length → w < BUFFER_SIZE / 4
  count : (Header.ofWords words).tp = TP_WORK.toNat → saveBound s.obj.nSampsPerBuf words =
    workLength (WorkPosthdr.ofWords words).nWorkPackets.toNat

/-- `n_samps_per_buf` is at most that of the search test point. -/
theorem rxPlan_fst_le (testPoint numTransfers : UInt32) :
    (rxPlan testPoint numTransfers).1.toNat ≤ 711 := by
  simp only [rxPlan]
  split_ifs <;> dsimp only <;> decide

theorem saveBound_eq {nSamps : Int32} {words : Nat → UInt32}
    (hlow : 0 ≤ savedLength nSamps words) (hlt : savedLength nSamps words < 2 ^ 31) :
    saveBound nSamps words = (savedLength nSamps words).toNat := by
  have hvalue := toInt_nSampsToSave hlt
  rw [saveBound, toNat_toSizeT (by omega), hvalue]

theorem measuredReads_lt {words : Nat → UInt32} {w : Nat} (hw : w ∈ measuredReads words) :
    w < 8 := by
  simp only [measuredReads, List.mem_append, List.mem_range'_1, HDR_SIZE] at hw
  rcases hw with hheader | hposthdr
  · omega
  · split at hposthdr
    · rw [List.mem_range'_1] at hposthdr
      omega
    · exact absurd hposthdr List.not_mem_nil

/-- What is printed lies in the header, or in the message that the post-header
announces. -/
theorem printedReads_lt {words : Nat → UInt32} {w : Nat} (hw : w ∈ printedReads words) :
    w < 8 ∨ ((Header.ofWords words).tp = TP_WORK.toNat ∧
      w < workLength (WorkPosthdr.ofWords words).nWorkPackets.toNat) := by
  simp only [printedReads, List.mem_append, List.mem_range'_1, HDR_SIZE] at hw
  rcases hw with hheader | hwork
  · exact Or.inl (by omega)
  · split at hwork
    · rename_i htp
      rw [List.mem_append, List.mem_range'_1, List.mem_flatMap] at hwork
      rcases hwork with hposthdr | ⟨i, hi, hpacket⟩
      · exact Or.inl (by omega)
      · rw [List.mem_range] at hi
        rw [packetReads, List.mem_range'_1] at hpacket
        refine Or.inr ⟨htp, ?_⟩
        simp only [workLength]
        omega
    · exact absurd hwork List.not_mem_nil

/-- Detection 306 ends behind the last word of the buffer. -/
theorem mem_messageReads_of_many (dumpFile : Bool) (nSamps : Int32) {words : Nat → UInt32}
    (htp : (Header.ofWords words).tp = TP_WORK.toNat)
    (hmany : 306 < (WorkPosthdr.ofWords words).nWorkPackets.toNat) :
    928 ∈ messageReads dumpFile nSamps words := by
  simp only [messageReads, printedReads, if_pos htp, List.mem_append, List.mem_flatMap]
  refine Or.inl (Or.inr (Or.inr (Or.inr ⟨306, List.mem_range.mpr hmany, ?_⟩)))
  decide

/-- The reads of a message stay inside the buffer up to 306 detections. -/
theorem messageReads_lt_iff (dumpFile : Bool) {nSamps : Int32} {words : Nat → UInt32}
    (hlow : 0 ≤ nSamps.toInt) (hplan : nSamps.toInt ≤ 711) :
    (∀ w ∈ messageReads dumpFile nSamps words, w < 928) ↔
      (Header.ofWords words).tp ≠ TP_WORK.toNat ∨
        (WorkPosthdr.ofWords words).nWorkPackets.toNat ≤ 306 := by
  constructor
  · intro hreads
    by_contra hmany
    rw [not_or, not_not, Nat.not_le] at hmany
    exact absurd (hreads 928 (mem_messageReads_of_many _ _ hmany.1 hmany.2)) (by decide)
  · intro hfits w hw
    have hsaved : 0 ≤ savedLength nSamps words ∧ savedLength nSamps words ≤ 928 := by
      unfold savedLength
      simp only [workLength, HDR_SIZE]
      split
      · rename_i htp
        rcases hfits with hne | hfew
        · exact absurd htp hne
        · omega
      · omega
    have hbound := saveBound_eq hsaved.1 (by omega)
    simp only [messageReads, List.mem_append] at hw
    rcases hw with (hmeasured | hprinted) | hdumped
    · have := measuredReads_lt hmeasured
      omega
    · rcases printedReads_lt hprinted with hhead | ⟨htp, hbody⟩
      · omega
      · rcases hfits with hne | hfew
        · exact absurd htp hne
        · simp only [workLength, HDR_SIZE] at hbody
          omega
    · split at hdumped
      · rw [List.mem_range] at hdumped
        change w < saveBound nSamps words at hdumped
        omega
      · exact absurd hdumped List.not_mem_nil

section Wait

variable {d : ProxyDriver} {s : Sys} {words : Nat → UInt32}
  (hprogress : s.ch.inProgressCount ≠ 0) (hok : d.status s.proxy.finishes = .PROXY_NO_ERROR)
  (hsave : s.obj.flagSaveBuf = true)
  (hwords : ∀ w, w < BUFFER_SIZE / 4 → s.message d w = words w)

include hprogress hok hsave hwords

/-- The accesses of a saved message, behind those made before. -/
theorem wait_reads :
    (s.waitForTransfer d).2.accesses.drop s.accesses.length =
      .states s.ch.bufPtr s.ch.bufferId.toInt ::
        (messageReads s.obj.dumpFile s.obj.nSampsPerBuf words).map
          (.word s.ch.bufPtr s.ch.bufferId.toInt) := by
  have hhead : ∀ w, w < 8 → s.message d w = words w :=
    fun w hw => hwords w (by simp only [BUFFER_SIZE]; omega)
  rw [waitForTransfer_accesses d hprogress hok, List.drop_left, if_pos hsave,
    ← messageReads_congr hhead]
  rfl

/-- Processing a received message stays inside its buffer, and its word count
is not changed on the way, exactly if the message is no detection message or
has at most 306 detections. -/
theorem wait_reads_within_buffer_iff (testPoint numTransfers : UInt32)
    (hplan : s.obj.nSampsPerBuf = (rxPlan testPoint numTransfers).1.toInt32) :
    ReadsWithinBuffer d s words ↔
      (Header.ofWords words).tp ≠ TP_WORK.toNat ∨
        (WorkPosthdr.ofWords words).nWorkPackets.toNat ≤ 306 := by
  have hle := rxPlan_fst_le testPoint numTransfers
  have hnSamps : 0 ≤ s.obj.nSampsPerBuf.toInt ∧ s.obj.nSampsPerBuf.toInt ≤ 711 := by
    rw [hplan, CInt.toInt_toInt32, if_pos (by omega)]
    omega
  rw [← messageReads_lt_iff s.obj.dumpFile hnSamps.1 hnSamps.2]
  have hreads : (∀ w, .word s.ch.bufPtr s.ch.bufferId.toInt w ∈
        (s.waitForTransfer d).2.accesses.drop s.accesses.length → w < BUFFER_SIZE / 4) ↔
      ∀ w ∈ messageReads s.obj.dumpFile s.obj.nSampsPerBuf words, w < 928 := by
    rw [wait_reads hprogress hok hsave hwords]
    simp [BUFFER_SIZE]
  constructor
  · intro h
    exact hreads.mp h.reads
  · intro hlt
    refine ⟨hreads.mpr hlt, fun htp => ?_⟩
    have hfew := (messageReads_lt_iff _ hnSamps.1 hnSamps.2).mp hlt
    rcases hfew with hne | hfew
    · exact absurd htp hne
    have hsaved : savedLength s.obj.nSampsPerBuf words =
        workLength (WorkPosthdr.ofWords words).nWorkPackets.toNat := if_pos htp
    rw [saveBound_eq (by omega) (by rw [hsaved]; simp only [workLength, HDR_SIZE]; omega), hsaved,
      Int.toNat_natCast]

end Wait

/-! ## A receive channel at work -/

/-- A driver that delivers one message again and again. -/
def ProxyDriver.sending (words : Nat → UInt32) : ProxyDriver := .quiet fun _ h _ => halfOf words h

/-- The receive channel of a detection run, with all its buffers started. -/
def workChannel (words : Nat → UInt32) : Sys :=
  (rxChannel TP_WORK 100 4 0 true).begin (.sending words)

theorem workChannel_frame (words : Nat → UInt32) :
    LoopFrame (rxChannel TP_WORK 100 4 0 true) (workChannel words) :=
  begin_frame _ _

theorem workChannel_saves (words : Nat → UInt32) :
    (workChannel words).obj.flagSaveBuf = true ∧ (workChannel words).obj.dumpFile = true := by
  rw [(workChannel_frame words).obj]
  exact ⟨rfl, rfl⟩

theorem workChannel_nSampsPerBuf (words : Nat → UInt32) :
    (workChannel words).obj.nSampsPerBuf = (rxPlan TP_WORK 100).1.toInt32 := by
  rw [(workChannel_frame words).obj]
  rfl

/-- Eight transfers are in flight. -/
theorem workChannel_serves (words : Nat → UInt32) :
    Serves 8 0 8 (workChannel words) ∧ (workChannel words).ch.bufferId = 0 := by
  have hready : (rxChannel TP_WORK 100 4 0 true).Ready :=
    rxChannel_ready TP_WORK 100 0 true (by decide)
  have hsize : (rxChannel TP_WORK 100 4 0 true).ch.bufferCount.toInt.toNat = 8 := rfl
  have hlimit : (rxChannel TP_WORK 100 4 0 true).obj.numTransfers.toInt = 20 := rfl
  obtain ⟨hserves, hbuffer, -⟩ := hready.begin (d := .sending words)
  rw [hsize, hlimit] at hserves
  exact ⟨hserves, hbuffer⟩

theorem sending_status (words : Nat → UInt32) (n : Nat) :
    (ProxyDriver.sending words).status n = .PROXY_NO_ERROR := rfl

theorem workChannel_progress (words : Nat → UInt32) :
    (workChannel words).ch.inProgressCount ≠ 0 :=
  (workChannel_serves words).1.inProgressCount_ne_zero

theorem workChannel_message (words : Nat → UInt32) (w : Nat) (hw : w < BUFFER_SIZE / 4) :
    (workChannel words).message (.sending words) w = words w := by
  obtain ⟨hserves, hbuffer⟩ := workChannel_serves words
  have hbusy : (workChannel words).proxy.busy (workChannel words).ch.bufferId.toInt = true := by
    have hoffset : (0 : Int32).toInt = (0 % 8 : Nat) := rfl
    rw [hbuffer, hoffset]
    exact hserves.busy 0 (Nat.le_refl 0) (by omega)
  exact Proxy.finishXfer_word (sending_status words _) hbusy (fun _ _ => rfl) hw

/-- A message of zeros, but for the post-header, which announces `n`
detections. -/
def announcing (n : UInt32) (w : Nat) : UInt32 := if w = 7 then n else 0

theorem wait_reads_within_buffer_full :
    ReadsWithinBuffer (.sending (announcing 306)) (workChannel (announcing 306))
      (announcing 306) :=
  (wait_reads_within_buffer_iff (workChannel_progress (announcing 306)) (sending_status _ _)
    (workChannel_saves (announcing 306)).1 (workChannel_message (announcing 306))
    TP_WORK 100 (workChannel_nSampsPerBuf _)).mpr (Or.inr (by decide))

/-- With 307 detections word 928 is read, which is no word of the buffer. -/
theorem wait_reads_behind_buffer :
    ¬ ReadsWithinBuffer (.sending (announcing 307)) (workChannel (announcing 307))
      (announcing 307) := by
  intro h
  have hlast : 928 ∈ messageReads (workChannel (announcing 307)).obj.dumpFile
      (workChannel (announcing 307)).obj.nSampsPerBuf (announcing 307) :=
    mem_messageReads_of_many _ _ (by decide) (by decide)
  have hlt := h.reads 928 (by
    rw [wait_reads (workChannel_progress _) (sending_status _ _)
      (workChannel_saves (announcing 307)).1 (workChannel_message (announcing 307))]
    exact List.mem_cons_of_mem _ (List.mem_map.mpr ⟨928, hlast, rfl⟩))
  exact absurd hlt (by decide)

/-! ## A message is decoded and measured exactly -/

/-- A detection message with at most 306 records is printed as it is, measured
exactly, and saved whole with nothing behind it. -/
theorem wait_decodes_message {d : ProxyDriver} {s : Sys} {words : Nat → UInt32}
    (hprogress : s.ch.inProgressCount ≠ 0) (hok : d.status s.proxy.finishes = .PROXY_NO_ERROR)
    (hsave : s.obj.flagSaveBuf = true)
    (hwords : ∀ w, w < BUFFER_SIZE / 4 → s.message d w = words w) {m : WorkMessage}
    (hfew : m.packets.length ≤ 306)
    (hholds : HoldsMessage words m) :
    (s.waitForTransfer d).2.console = s.console ++ .header m.header ::
        .posthdr ⟨m.packetNumber, UInt32.ofNat m.packets.length⟩ ::
          m.packets.mapIdx (fun i packet => .packet (i + 1) packet) ∧
      (nSampsToSave s.obj.nSampsPerBuf words).toInt = 8 + 3 * m.packets.length ∧
      (s.obj.dumpFile = true → (s.waitForTransfer d).2.dump.text = s.dump.text ++
        (List.range (8 + 3 * m.packets.length)).flatMap fun w =>
          Hex.hexLine 8 (words w).toNat) := by
  have hidle : (s.finishXfer d).2.proxy.busy s.ch.bufferId.toInt = false := by
    show (s.proxy.finishXfer d _).busy _ = false
    rw [Proxy.finishXfer_busy hok, if_pos rfl]
  have hsaved : savedLength s.obj.nSampsPerBuf words = (8 + 3 * m.packets.length : Nat) := by
    rw [savedLength, hholds.headerAt.ofWords_eq, if_pos hholds.tp, hholds.nWorkPackets]
    rfl
  have hfit : workLength (WorkPosthdr.ofWords words).nWorkPackets.toNat ≤ 928 := by
    rw [hholds.nWorkPackets]
    simp only [workLength, HDR_SIZE]
    omega
  have hreports : reports (s.message d) = reports words :=
    (reports_congr hfit fun w hw => (hwords w hw).symm).symm
  have hposthdr : WorkPosthdr.ofWords (s.message d) = WorkPosthdr.ofWords words :=
    workPosthdr_congr fun w hw => hwords w (by simp only [BUFFER_SIZE]; omega)
  have hreceived : s.received d = (s.finishXfer d).2.saveReceived d s.ch.bufferId.toInt :=
    if_pos hsave
  rw [waitForTransfer_ok hprogress hok]
  refine ⟨?_, ?_, fun hfile => ?_⟩
  · show (s.received d).console = _
    rw [hreceived, saveReceived_console d hidle (by rw [← hposthdr] at hfit; exact hfit),
      ← hholds.reports, ← hreports]
    rfl
  · rw [toInt_nSampsToSave (by rw [hsaved]; omega), hsaved]
    push_cast
    rfl
  · show (s.received d).dump.text = _
    have hlength : savedLength (s.finishXfer d).2.obj.nSampsPerBuf words =
        (8 + 3 * m.packets.length : Nat) := hsaved
    rw [hreceived, saveReceived_text d hidle hfile hwords (by rw [hlength]; omega)
      (by rw [hlength]; omega), savedPrefix, hlength, Int.toNat_natCast, List.flatMap_map]
    rfl

/-- Packet 5, with two detections; padding bits are set, and a word is left
behind the message. -/
def twoDetections : WorkMessage where
  header := ⟨7, 9, 41, 0x180000000, 2, 0⟩
  packetNumber := 5
  packets := [⟨1000, 900, 77, 3, 1, 260⟩, ⟨5, 0xffffffff, 200, 6, 0, 511⟩]

def twoDetectionsWords (w : Nat) : UInt32 :=
  [7, 9, 41, 0x80000000, 1, 2, 5, 2, 1000, 900, 0x304b4d, 5, 0xffffffff, 0x801ff6c8, 17].getD w 0

theorem twoDetections_packets :
    PacketAt twoDetectionsWords 256 ⟨1000, 900, 77, 3, 1, 260⟩ ∧
      PacketAt twoDetectionsWords 352 ⟨5, 0xffffffff, 200, 6, 0, 511⟩ := by
  constructor
  · constructor <;> exact ⟨by decide, by decide⟩
  · constructor <;> exact ⟨by decide, by decide⟩

theorem twoDetections_holds : HoldsMessage twoDetectionsWords twoDetections where
  headerAt := by constructor <;> exact ⟨by decide, by decide⟩
  tp := by decide
  packetNumberAt := ⟨by decide, by decide⟩
  countAt := ⟨by decide, by decide⟩
  packetAt := by
    intro i hi
    have htwo : twoDetections.packets.length = 2 := rfl
    have hcases : i = 0 ∨ i = 1 := by omega
    rcases hcases with rfl | rfl
    · exact twoDetections_packets.1
    · exact twoDetections_packets.2

theorem wait_decodes_message_two :
    ((workChannel twoDetectionsWords).waitForTransfer (.sending twoDetectionsWords)).2.console =
        [.header ⟨7, 9, 41, 0x180000000, 2, 0⟩, .posthdr ⟨5, 2⟩,
          .packet 1 ⟨1000, 900, 77, 3, 1, 260⟩, .packet 2 ⟨5, 0xffffffff, 200, 6, 0, 511⟩] ∧
      ((workChannel twoDetectionsWords).waitForTransfer
          (.sending twoDetectionsWords)).2.dump.text =
        (List.range 14).flatMap fun w => Hex.hexLine 8 (twoDetectionsWords w).toNat := by
  obtain ⟨hsave, hfile⟩ := workChannel_saves twoDetectionsWords
  obtain ⟨hconsole, -, hdump⟩ := wait_decodes_message (workChannel_progress twoDetectionsWords)
    (sending_status _ _) hsave (workChannel_message twoDetectionsWords) (by decide)
    twoDetections_holds
  rw [(workChannel_frame twoDetectionsWords).console] at hconsole
  rw [(workChannel_frame twoDetectionsWords).dump] at hdump
  exact ⟨hconsole, hdump hfile⟩

end RlsMini.Dma
