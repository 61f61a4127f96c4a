import Mathlib.Data.List.Basic
import Mathlib.Tactic.Ring

/-!
# The buffers shared with the DMA proxy driver

`dma-proxy.h` lays out the region that `dma_channel::init` maps: an array
`buffers` of 928-word buffers and an array `states` with a status and a length
for each buffer.  The region is shared with the driver and with the DMA
engine, which work while the program runs.

The model keeps `buffers` as one flat array of halfwords, so that the word
view of the receive side and the `int16_t` view of the sample loader are two
views of one memory.  Indices are `Int`: the array bounds of the source are
not built in.

The driver is not part of this repository.  What it does is a `ProxyDriver`:
the status that each `FINISH_XFER` leaves, the data that a completed transfer
leaves in its buffer, and whatever it does to a buffer before that.
-/

namespace RlsMini.Dma

/-! ## `dma-proxy.h` -/

/-- Bytes of one buffer: `sizeof(unsigned int) * 232 * 4`. -/
def BUFFER_SIZE : Nat := 4 * 232 * 4

/-- Buffers that the driver shares. -/
def BUFFER_COUNT : Nat := 32

/-- Buffers that the program uses on a transmit channel. -/
def TX_BUFFER_COUNT : Nat := 1

/-- Buffers that the program uses on the receive channel. -/
def RX_BUFFER_COUNT : Nat := 8

/-- The size of a type with the given alignment. -/
def alignUp (size align : Nat) : Nat := (size + align - 1) / align * align

/-- `sizeof(channel_buffer)`, which is aligned to 64 bytes. -/
def sizeofChannelBuffer : Nat := alignUp BUFFER_SIZE 64

/-- `sizeof(channel_buffer_state)`: the status and the length. -/
def sizeofChannelBufferState : Nat := 4 + 4

/-- `sizeof(channel_contagious_buffer)`. -/
def sizeofChannelContagiousBuffer : Nat :=
  alignUp (BUFFER_COUNT * sizeofChannelBuffer + BUFFER_COUNT * sizeofChannelBufferState) 64

/-- The alignment adds no padding: consecutive buffers are contiguous. -/
theorem sizeofChannelBuffer_eq : sizeofChannelBuffer = BUFFER_SIZE := by decide

/-- `enum proxy_status`. -/
inductive ProxyStatus where
  | PROXY_NO_ERROR
  | PROXY_BUSY
  | PROXY_TIMEOUT
  | PROXY_ERROR
  deriving DecidableEq, Repr

/-- `struct channel_buffer_state`. -/
structure ChannelBufferState where
  status : ProxyStatus
  length : UInt32

/-! ## Halfwords and words -/

/-- The halfwords of one buffer. -/
def halfwordsPerBuffer : Nat := 1856

theorem halfwordsPerBuffer_eq : 2 * halfwordsPerBuffer = sizeofChannelBuffer := by decide

/-- The contents of `buffers`, by halfword. -/
abbrev Ram := Int → UInt16

/-- Halfword `h` of buffer `b`. -/
def halfIndex (b : Int) (h : Nat) : Int := halfwordsPerBuffer * b + h

/-- The buffer that a halfword belongs to. -/
def bufferOf (i : Int) : Int := i / halfwordsPerBuffer

@[simp] theorem bufferOf_halfIndex {b : Int} {h : Nat} (hh : h < halfwordsPerBuffer) :
    bufferOf (halfIndex b h) = b := by
  simp only [bufferOf, halfIndex, halfwordsPerBuffer] at hh ⊢
  omega

/-- A little-endian word from its two halfwords. -/
def joinHalves (low high : UInt16) : UInt32 :=
  UInt32.ofNat (low.toNat + 65536 * high.toNat)

/-- Halfword `h` of a list of words. -/
def halfOf (words : Nat → UInt32) (h : Nat) : UInt16 :=
  if h % 2 = 0 then (words (h / 2)).toUInt16 else (words (h / 2) >>> 16).toUInt16

/-- Word `w` of buffer `b`: `buffers[b].buffer[w]`. -/
def Ram.word (ram : Ram) (b : Int) (w : Nat) : UInt32 :=
  joinHalves (ram (halfIndex b (2 * w))) (ram (halfIndex b (2 * w + 1)))

theorem joinHalves_halfOf (words : Nat → UInt32) (w : Nat) :
    joinHalves (halfOf words (2 * w)) (halfOf words (2 * w + 1)) = words w := by
  have hlow : 2 * w / 2 = w := by omega
  have hhigh : (2 * w + 1) / 2 = w := by omega
  have hodd : (2 * w + 1) % 2 = 1 := by omega
  apply UInt32.toNat.inj
  have hlt := (words w).toNat_lt
  simp only [joinHalves, halfOf, hlow, hhigh, hodd, Nat.mul_mod_right, if_true,
    Nat.one_ne_zero, if_false, UInt32.toNat_ofNat', UInt32.toNat_toUInt16,
    UInt32.toNat_shiftRight]
  have hshift : (16 : UInt32).toNat % 32 = 16 := by decide
  rw [hshift, Nat.shiftRight_eq_div_pow]
  omega

/-! ## The driver -/

/-- What the driver and the DMA engine do to the buffers of one channel. -/
structure ProxyDriver where
  /-- The status left by the `n`-th `FINISH_XFER` of the channel. -/
  status : Nat → ProxyStatus
  /-- What the completed `k`-th transfer leaves in halfword `h` of its buffer,
  from what was there. -/
  deliver : (k h : Nat) → UInt16 → UInt16
  /-- What happens, at a moment of the run, to a halfword of a buffer in
  flight. -/
  scribble : (clock : Nat) → (i : Int) → UInt16 → UInt16

/-- A driver without an error. -/
def ProxyDriver.quiet (deliver : (k h : Nat) → UInt16 → UInt16) : ProxyDriver where
  status _ := .PROXY_NO_ERROR
  deliver := deliver
  scribble _ _ old := old

/-- A driver whose `n`-th `FINISH_XFER` ends with `status`. -/
def ProxyDriver.failingAt (n : Nat) (status : ProxyStatus) : ProxyDriver where
  status k := if k = n then status else .PROXY_NO_ERROR
  deliver _ _ old := old
  scribble _ _ old := old

/-- The region shared with the driver, with the driver's own records. -/
structure Proxy where
  /-- `buffers`, by halfword. -/
  ram : Ram
  /-- `states`. -/
  states : Int → ChannelBufferState
  /-- The buffers handed to the driver and not yet given back. -/
  busy : Int → Bool
  /-- The transfer that last took a buffer. -/
  owner : Int → Nat
  /-- The `START_XFER` and the `FINISH_XFER` calls so far. -/
  starts : Nat
  finishes : Nat
  clock : Nat

namespace Proxy

/-- The region of a device that has just been opened. -/
def opened : Proxy where
  ram _ := 0
  states _ := ⟨.PROXY_NO_ERROR, 0⟩
  busy _ := false
  owner _ := 0
  starts := 0
  finishes := 0
  clock := 0

variable (d : ProxyDriver)

/-- Time passes.  The driver may have changed the buffers in flight, and no
others. -/
def tick (p : Proxy) : Proxy :=
  { p with
    ram := fun i => if p.busy (bufferOf i) then d.scribble p.clock i (p.ram i) else p.ram i
    clock := p.clock + 1 }

/-- `ioctl(fd, START_XFER, &b)`. -/
def startXfer (b : Int) (p : Proxy) : Proxy :=
  let p := p.tick d
  { p with
    busy := fun x => if x = b then true else p.busy x
    owner := fun x => if x = b then p.starts else p.owner x
    starts := p.starts + 1 }

/-- `ioctl(fd, FINISH_XFER, &b)`: the call returns when the transfer is over,
with its status in `states`.  Only a transfer without error gives the buffer
back. -/
def finishXfer (b : Int) (p : Proxy) : Proxy :=
  let p := p.tick d
  let status := d.status p.finishes
  let p := { p with
    states := fun x => if x = b then { p.states b with status := status } else p.states x
    finishes := p.finishes + 1 }
  if status = .PROXY_NO_ERROR ∧ p.busy b then
    { p with
      ram := fun i =>
        if bufferOf i = b then
          d.deliver (p.owner b) (i - halfIndex b 0).toNat (p.ram i)
        else p.ram i
      busy := fun x => if x = b then false else p.busy x }
  else p

/-- `ioctl(fd, XFER, &b)`: start a transfer and wait for it. -/
def xfer (b : Int) (p : Proxy) : Proxy := (p.startXfer d b).finishXfer d b

/-- `buf_ptr->states[b].length = length`. -/
def setLength (b : Int) (length : UInt32) (p : Proxy) : Proxy :=
  { p with
    states := fun x => if x = b then { p.states b with length := length } else p.states x }

variable {d} {p : Proxy} {b : Int}

@[simp] theorem tick_busy : (p.tick d).busy = p.busy := rfl
@[simp] theorem tick_owner : (p.tick d).owner = p.owner := rfl
@[simp] theorem tick_finishes : (p.tick d).finishes = p.finishes := rfl

/-- A buffer that is not in flight keeps its words. -/
theorem tick_word (hidle : p.busy b = false) {w : Nat} (hw : w < 928) :
    (p.tick d).ram.word b w = p.ram.word b w := by
  have hlow : bufferOf (halfIndex b (2 * w)) = b :=
    bufferOf_halfIndex (by simp only [halfwordsPerBuffer]; omega)
  have hhigh : bufferOf (halfIndex b (2 * w + 1)) = b :=
    bufferOf_halfIndex (by simp only [halfwordsPerBuffer]; omega)
  simp [tick, Ram.word, hlow, hhigh, hidle]

@[simp] theorem startXfer_busy (x : Int) :
    (p.startXfer d b).busy x = if x = b then true else p.busy x := rfl
@[simp] theorem startXfer_owner (x : Int) :
    (p.startXfer d b).owner x = if x = b then p.starts else p.owner x := rfl
@[simp] theorem startXfer_starts : (p.startXfer d b).starts = p.starts + 1 := rfl
@[simp] theorem startXfer_finishes : (p.startXfer d b).finishes = p.finishes := rfl

@[simp] theorem finishXfer_starts : (p.finishXfer d b).starts = p.starts := by
  simp only [finishXfer]; split <;> rfl

@[simp] theorem finishXfer_finishes : (p.finishXfer d b).finishes = p.finishes + 1 := by
  simp only [finishXfer]; split <;> rfl

@[simp] theorem finishXfer_owner : (p.finishXfer d b).owner = p.owner := by
  simp only [finishXfer]; split <;> rfl

/-- The status read after `FINISH_XFER` is the one the driver reports for that
call. -/
@[simp] theorem finishXfer_status :
    ((p.finishXfer d b).states b).status = d.status p.finishes := by
  simp only [finishXfer]; split <;> simp

/-- A transfer without error gives its buffer back. -/
theorem finishXfer_busy (hok : d.status p.finishes = .PROXY_NO_ERROR) (x : Int) :
    (p.finishXfer d b).busy x = if x = b then false else p.busy x := by
  simp only [finishXfer, tick_finishes, hok, tick_busy, true_and]
  split
  · rfl
  · by_cases hx : x = b <;> simp_all

/-- A transfer without error leaves the delivered words in its buffer. -/
theorem finishXfer_word (hok : d.status p.finishes = .PROXY_NO_ERROR)
    (hbusy : p.busy b = true) {words : Nat → UInt32}
    (hdeliver : ∀ h old, d.deliver (p.owner b) h old = halfOf words h)
    {w : Nat} (hw : w < 928) : (p.finishXfer d b).ram.word b w = words w := by
  have hlow : bufferOf (halfIndex b (2 * w)) = b :=
    bufferOf_halfIndex (by simp only [halfwordsPerBuffer]; omega)
  have hhigh : bufferOf (halfIndex b (2 * w + 1)) = b :=
    bufferOf_halfIndex (by simp only [halfwordsPerBuffer]; omega)
  have hoffset : ∀ h : Nat, (halfIndex b h - halfIndex b 0).toNat = h := by
    intro h
    simp only [halfIndex]
    omega
  simp only [finishXfer, tick_finishes, hok, tick_busy, hbusy, and_self, if_true, Ram.word,
    hlow, hhigh, tick_owner, hdeliver, hoffset]
  exact joinHalves_halfOf words w

end Proxy

end RlsMini.Dma
