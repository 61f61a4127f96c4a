import RlsMini.Dma.Proxy

/-!
# Messages of the receive channel

`axi_dsp.h` declares the packed structures that a received buffer is read
through: the header, and for messages of the work test point the post-header
and the detections behind it.  All of them are multiples of a word, so the
model reads them from words.  Bit-fields follow the little-endian packed
layout: the first field of a unit takes its lowest bits.
-/

namespace RlsMini.Dma

/-! ## Test points -/

def TP_WORK : UInt32 := 0
def TP_BYPASS : UInt32 := 1
def TP_CUT : UInt32 := 2
def TP_FAPCH : UInt32 := 3
def TP_LOU : UInt32 := 4
def TP_SF : UInt32 := 5
def TP_DDR : UInt32 := 6
def TP_FFT : UInt32 := 7
def TP_MAX : UInt32 := 8
def TP_FIND : UInt32 := 9
def TP_RANK : UInt32 := 10
def TP_APU : UInt32 := 11

/-! ## Packed structures -/

/-- `HDR_SIZE`, in words. -/
def HDR_SIZE : Nat := 6

/-- `sizeof(work_posthdr)`. -/
def sizeofWorkPosthdr : Nat := 8

/-- `sizeof(work_packet)`: two words and 32 bits of bit-fields. -/
def sizeofWorkPacket : Nat := 12

/-- Bits `lsb .. lsb + width - 1` of a word. -/
def bits (w : UInt32) (lsb width : Nat) : Nat := w.toNat / 2 ^ lsb % 2 ^ width

/-- `struct header`. -/
structure Header where
  delHigh : UInt32
  delLow : UInt32
  packetNumber : UInt32
  timestamp : UInt64
  channel : Nat
  tp : Nat
  deriving DecidableEq, Repr

/-- The header at the start of a buffer. -/
def Header.ofWords (words : Nat → UInt32) : Header where
  delHigh := words 0
  delLow := words 1
  packetNumber := words 2
  timestamp := UInt64.ofNat ((words 3).toNat + 2 ^ 32 * (words 4).toNat)
  channel := bits (words 5) 0 16
  tp := bits (words 5) 16 16

/-- `struct work_posthdr`. -/
structure WorkPosthdr where
  packetNumber : UInt32
  nWorkPackets : UInt32
  deriving DecidableEq, Repr

/-- The post-header, `HDR_SIZE` words into the buffer. -/
def WorkPosthdr.ofWords (words : Nat → UInt32) : WorkPosthdr where
  packetNumber := words HDR_SIZE
  nWorkPackets := words (HDR_SIZE + 1)

/-- `struct work_packet`, without its padding. -/
structure WorkPacket where
  mainAmplitude : UInt32
  neighborAmplitude : UInt32
  range : Nat
  mainDiagramNumber : Nat
  neighborDiagramSide : Nat
  frequencyChannel : Nat
  deriving DecidableEq, Repr

/-- Packet `i` of the array behind the post-header. -/
def WorkPacket.ofWords (words : Nat → UInt32) (i : Nat) : WorkPacket :=
  let base := HDR_SIZE + sizeofWorkPosthdr / 4 + sizeofWorkPacket / 4 * i
  { mainAmplitude := words base
    neighborAmplitude := words (base + 1)
    range := bits (words (base + 2)) 0 8
    mainDiagramNumber := bits (words (base + 2)) 8 3
    neighborDiagramSide := bits (words (base + 2)) 11 1
    frequencyChannel := bits (words (base + 2)) 12 9 }

/-! ## What is saved of a message -/

/-- The words of a detection message: the header, the post-header and three
words for each detection. -/
def workLength (n : Nat) : Nat := HDR_SIZE + 2 + 3 * n

/-- The words that are saved of a message when `nSampsPerBuf` is
`nSamps`. -/
def savedLength (nSamps : Int32) (words : Nat → UInt32) : Int :=
  if (Header.ofWords words).tp = TP_WORK.toNat then
    workLength (WorkPosthdr.ofWords words).nWorkPackets.toNat
  else nSamps.toInt

/-- The saved prefix of a message. -/
def savedPrefix (nSamps : Int32) (words : Nat → UInt32) : List UInt32 :=
  (List.range (savedLength nSamps words).toNat).map words

/-- `n_samps_to_save` as `wait_for_transfer` computes it: a `size_t` sum
narrowed to `int`. -/
def nSampsToSave (nSamps : Int32) (words : Nat → UInt32) : Int32 :=
  if (Header.ofWords words).tp = TP_WORK.toNat then
    Int32.ofNat (HDR_SIZE + (sizeofWorkPosthdr +
      (WorkPosthdr.ofWords words).nWorkPackets.toNat * sizeofWorkPacket) / 4)
  else nSamps

/-- `HDR_SIZE + (sizeof(work_posthdr) + n * sizeof(work_packet)) / 4` is the
length of the message: the byte sizes are whole words. -/
theorem workLength_eq (n : Nat) :
    HDR_SIZE + (sizeofWorkPosthdr + n * sizeofWorkPacket) / 4 = workLength n := by
  simp only [HDR_SIZE, sizeofWorkPosthdr, sizeofWorkPacket, workLength]
  omega

/-- As long as the saved length is an `int`, no bit of it is lost. -/
theorem toInt_nSampsToSave {nSamps : Int32} {words : Nat → UInt32}
    (h : savedLength nSamps words < 2 ^ 31) :
    (nSampsToSave nSamps words).toInt = savedLength nSamps words := by
  unfold savedLength at h ⊢
  unfold nSampsToSave
  rw [workLength_eq]
  split at h
  · rename_i htp
    rw [if_pos htp, if_pos htp, Int32.toInt_ofNat_of_lt (by omega)]
  · rename_i htp
    rw [if_neg htp, if_neg htp]

/-- The fields that decide the saved length are in the first eight words. -/
theorem tp_congr {words words' : Nat → UInt32} (h : ∀ w, w < 8 → words w = words' w) :
    (Header.ofWords words).tp = (Header.ofWords words').tp := by
  simp only [Header.ofWords, h 5 (by decide)]

theorem nWorkPackets_congr {words words' : Nat → UInt32}
    (h : ∀ w, w < 8 → words w = words' w) :
    (WorkPosthdr.ofWords words).nWorkPackets =
      (WorkPosthdr.ofWords words').nWorkPackets := by
  simp only [WorkPosthdr.ofWords, HDR_SIZE, h (6 + 1) (by decide)]

theorem nSampsToSave_congr {nSamps : Int32} {words words' : Nat → UInt32}
    (h : ∀ w, w < 8 → words w = words' w) :
    nSampsToSave nSamps words = nSampsToSave nSamps words' := by
  unfold nSampsToSave
  rw [tp_congr h, nWorkPackets_congr h]

end RlsMini.Dma
