import RlsMini.Dma.Message
import RlsMini.Lib.CInt
import RlsMini.Lib.Hex

/-!
# The class `dma_channel`

`Sys` is one `dma_channel` object together with everything outside that it
acts on: the region shared with the proxy driver, the dump file, the console
and the calls into the kernel.  Each method of the class is a function on
`Sys`.  The `int` members are `Int32`; they wrap around as the machine words
do.

Three logs record what a method does outside the object.  `calls` lists the
`ioctl` calls on the proxy device, `accesses` the uses of the mapped arrays,
and `resources` the calls that acquire and release the descriptor and the
mapping.
-/

namespace RlsMini.Dma

open RlsMini.Hex

/-! ## The object -/

/-- `struct ch_config`. -/
structure ChConfig where
  devnode : String := ""
  bufferSize : Int32 := 0
  bufferCount : Int32 := 0
  deriving DecidableEq, Repr

/-- `struct channel`, with the initial values of its members. -/
structure Channel where
  /-- The address of the mapping; `none` is the null pointer. -/
  bufPtr : Option Nat := none
  fd : Int32 := -1
  bufferSize : Int32 := 0
  counter : Int32 := 0
  bufferId : Int32 := 0
  inProgressCount : Int32 := 0
  bufferCount : Int32 := 1
  deriving DecidableEq, Repr

/-- The other members of `dma_channel`. -/
structure Members where
  numTransfers : Int32 := 0
  flagSaveBuf : Bool := false
  /-- Whether `dump_file` is not null. -/
  dumpFile : Bool := false
  nSampsPerBuf : Int32 := 232
  config : ChConfig := {}
  deriving DecidableEq, Repr

/-- The stream behind `dump_file`: its text, and how much of it `fflush` has
put on disk. -/
structure DumpFile where
  text : List Char := []
  flushed : Nat := 0

/-- An `ioctl` call on the proxy device. -/
inductive Call where
  | start (b : Int)
  | finish (b : Int) (status : ProxyStatus)
  | xfer (b : Int) (status : ProxyStatus)
  deriving DecidableEq, Repr

/-- A use of an array of the mapping at `ptr`. -/
inductive Access where
  | states (ptr : Option Nat) (b : Int)
  | word (ptr : Option Nat) (b : Int) (w : Nat)
  deriving DecidableEq, Repr

/-- A call that acquires or releases the resources of a channel. -/
inductive ResCall where
  | open (fd : Int32)
  | mmap (ptr : Option Nat) (length : Nat)
  | munmap (ptr : Option Nat) (length : Nat)
  | close (fd : Int32)
  deriving DecidableEq, Repr

/-- What is printed of a received message. -/
inductive Report where
  | header (hdr : Header)
  | posthdr (work : WorkPosthdr)
  | packet (number : Nat) (packet : WorkPacket)
  deriving DecidableEq, Repr

/-- A `dma_channel` object and what it acts on. -/
structure Sys where
  ch : Channel := {}
  obj : Members := {}
  proxy : Proxy
  dump : DumpFile := {}
  calls : List Call := []
  accesses : List Access := []
  resources : List ResCall := []
  console : List Report := []

namespace Sys

variable (d : ProxyDriver)

/-! ## Reading and saving a received buffer -/

/-- One read of `buffers[b].buffer[w]`. -/
def readWord (b : Int) (w : Nat) (s : Sys) : UInt32 × Sys :=
  let p := s.proxy.tick d
  (p.ram.word b w,
    { s with proxy := p, accesses := s.accesses ++ [.word s.ch.bufPtr b w] })

/-- One read of a structure of `count` words at word `base` of buffer `b`. -/
def readStruct (b : Int) (base count : Nat) (s : Sys) : (Nat → UInt32) × Sys :=
  let p := s.proxy.tick d
  (p.ram.word b,
    { s with
      proxy := p
      accesses := s.accesses ++
        (List.range' base count).map (Access.word s.ch.bufPtr b) })

def print (report : Report) (s : Sys) : Sys :=
  { s with console := s.console ++ [report] }

/-- The packet loop of `print_work`, with `n` packets to go from packet `i`
on. -/
def printPackets (b : Int) : (n i : Nat) → Sys → Sys
  | 0, _, s => s
  | n + 1, i, s =>
      let (words, s) := s.readStruct d b (HDR_SIZE + 2 + 3 * i) 3
      printPackets b n (i + 1) (s.print (.packet (i + 1) (.ofWords words i)))

/-- `print_work`, on the buffer that the post-header belongs to. -/
def printWork (b : Int) (s : Sys) : Sys :=
  let (words, s) := s.readStruct d b HDR_SIZE 2
  let work := WorkPosthdr.ofWords words
  printPackets d b work.nWorkPackets.toNat 0 (s.print (.posthdr work))

/-- `print_hdr`. -/
def printHdr (b : Int) (s : Sys) : Sys :=
  let (words, s) := s.readStruct d b 0 HDR_SIZE
  let hdr := Header.ofWords words
  let s := s.print (.header hdr)
  if hdr.tp = TP_WORK.toNat then s.printWork d b else s

/-- The loop of `save_buf_to_file`, with `n` words to go from word `i` on. -/
def saveWords (b : Int) : (n i : Nat) → Sys → Sys
  | 0, _, s => s
  | n + 1, i, s =>
      let (word, s) := s.readWord d b i
      saveWords b n (i + 1)
        { s with dump := { s.dump with text := s.dump.text ++ hexLine 8 word.toNat } }

/-- `save_buf_to_file`.  The loop compares a `size_t` with the `int` argument,
which is converted to `size_t`. -/
def saveBufToFile (b : Int) (n : Int32) (s : Sys) : Sys :=
  if s.obj.dumpFile then
    let s := s.saveWords d b n.toInt64.toUInt64.toNat 0
    if s.ch.counter % 10 = 0 then
      { s with dump := { s.dump with flushed := s.dump.text.length } }
    else s
  else s

/-- The save path of `wait_for_transfer`. -/
def saveReceived (b : Int) (s : Sys) : Sys :=
  let (words, s) := s.readStruct d b 0 HDR_SIZE
  let (words, s) :=
    if (Header.ofWords words).tp = TP_WORK.toNat then s.readStruct d b HDR_SIZE 2
    else (words, s)
  let n := nSampsToSave s.obj.nSampsPerBuf words
  (s.printHdr d b).saveBufToFile d b n

/-! ## Transfers -/

/-- `start_transfer_for_buf`. -/
def startTransferForBuf (b : Int32) (s : Sys) : Sys :=
  { s with
    proxy := s.proxy.startXfer d b.toInt
    calls := s.calls ++ [.start b.toInt]
    ch := { s.ch with inProgressCount := s.ch.inProgressCount + 1 } }

/-- `start_transfer`. -/
def startTransfer (s : Sys) : Sys :=
  let s := { s with ch := { s.ch with bufferId := s.ch.counter % s.ch.bufferCount } }
  { s with
    proxy := s.proxy.startXfer d s.ch.bufferId.toInt
    calls := s.calls ++ [.start s.ch.bufferId.toInt]
    ch := { s.ch with inProgressCount := s.ch.inProgressCount + 1 } }

/-- `ioctl(ch.fd, FINISH_XFER, &ch.buffer_id)` and the read of the status it
leaves. -/
def finishXfer (s : Sys) : ProxyStatus × Sys :=
  let b := s.ch.bufferId.toInt
  let p := s.proxy.finishXfer d b
  let status := (p.states b).status
  (status,
    { s with
      proxy := p
      calls := s.calls ++ [.finish b status]
      accesses := s.accesses ++ [.states s.ch.bufPtr b] })

/-- `wait_for_transfer`.  The result 0 is `PROXY_NO_ERROR`. -/
def waitForTransfer (s : Sys) : ProxyStatus × Sys :=
  if s.ch.inProgressCount ≠ 0 then
    let (status, s) := s.finishXfer d
    if status ≠ .PROXY_NO_ERROR then (status, s)
    else
      let s := if s.obj.flagSaveBuf then s.saveReceived d s.ch.bufferId.toInt else s
      (.PROXY_NO_ERROR,
        { s with
          ch := { s.ch with
            inProgressCount := s.ch.inProgressCount - 1
            counter := s.ch.counter + 1 } })
  else (.PROXY_NO_ERROR, s)

/-- `ch.buf_ptr->states[b].length = ch.buffer_size`. -/
def setLength (b : Int32) (s : Sys) : Sys :=
  { s with
    proxy := s.proxy.setLength b.toInt s.ch.bufferSize.toUInt32
    accesses := s.accesses ++ [.states s.ch.bufPtr b.toInt] }

/-- `ioctl(ch.fd, XFER, &ch.buffer_id)`. -/
def xfer (s : Sys) : Sys :=
  let b := s.ch.bufferId.toInt
  let p := s.proxy.xfer d b
  { s with
    proxy := p
    calls := s.calls ++ [.xfer b (p.states b).status] }

/-- `single_transfer_one_buf`. -/
def singleTransferOneBuf (s : Sys) : Sys :=
  let s := (s.setLength s.ch.bufferId).xfer d
  { s with
    ch := { s.ch with
      bufferId := (s.ch.bufferId + 1) % s.ch.bufferCount
      counter := s.ch.counter + 1 } }

/-- The loop of `single_transfer_all_bufs`.  The fuel bounds the number of
buffers. -/
def singleTransferLoop : (fuel : Nat) → Sys → Sys
  | 0, s => s
  | fuel + 1, s =>
      if s.ch.bufferId < s.ch.bufferCount then
        let s := (s.setLength s.ch.bufferId).xfer d
        singleTransferLoop fuel
          { s with
            ch := { s.ch with
              counter := s.ch.counter + 1
              bufferId := s.ch.bufferId + 1 } }
      else s

/-- `single_transfer_all_bufs`. -/
def singleTransferAllBufs (s : Sys) : Sys :=
  singleTransferLoop d s.ch.bufferCount.toNatClampNeg
    { s with ch := { s.ch with bufferId := 0 } }

/-! ## The thread -/

/-- The loop of `begin`.  The fuel bounds the number of buffers. -/
def beginLoop : (fuel : Nat) → Sys → Sys
  | 0, s => s
  | fuel + 1, s =>
      if s.ch.bufferId < s.ch.bufferCount then
        let s := s.setLength s.ch.bufferId
        let s := s.startTransferForBuf d s.ch.bufferId
        if s.obj.numTransfers ≠ 0 ∧ s.ch.inProgressCount ≥ s.obj.numTransfers then s
        else beginLoop fuel { s with ch := { s.ch with bufferId := s.ch.bufferId + 1 } }
      else s

/-- `begin`, which `PIThread` calls once when the thread starts. -/
def begin (s : Sys) : Sys :=
  let s := beginLoop d s.ch.bufferCount.toNatClampNeg
    { s with ch := { s.ch with bufferId := 0 } }
  { s with ch := { s.ch with bufferId := 0 } }

/-- `run`, which `PIThread` calls again and again.  The Boolean is whether it
called `stop`. -/
def run (s : Sys) : Bool × Sys :=
  let (status, s) := s.waitForTransfer d
  if status ≠ .PROXY_NO_ERROR ∨
      (s.obj.numTransfers ≠ 0 ∧ s.ch.counter ≥ s.obj.numTransfers) then (true, s)
  else
    let s :=
      if s.obj.numTransfers ≠ 0 ∧
          s.ch.counter + s.ch.inProgressCount < s.obj.numTransfers then
        s.startTransferForBuf d s.ch.bufferId
      else s
    (false, { s with ch := { s.ch with bufferId := (s.ch.bufferId + 1) % s.ch.bufferCount } })

/-- One turn of the loop of `PIThread`: nothing happens after `stop`. -/
def turn (t : Bool × Sys) : Bool × Sys := if t.1 then t else t.2.run d

/-- The thread after `begin` and `n` turns. -/
def thread (s : Sys) (n : Nat) : Bool × Sys := (turn d)^[n] (false, s.begin d)

/-! ## Setting up and releasing -/

/-- The loop of `init` that sets the lengths. -/
def initLoop : (fuel : Nat) → Sys → Sys
  | 0, s => s
  | fuel + 1, s =>
      if s.ch.bufferId < s.ch.bufferCount then
        let s := s.setLength s.ch.bufferId
        initLoop fuel { s with ch := { s.ch with bufferId := s.ch.bufferId + 1 } }
      else s

/-- `init`.  `fd` is the result of `open` and `ptr` the result of `mmap`,
where `none` is `MAP_FAILED`. -/
def init (cfg : ChConfig) (fd : Int32) (ptr : Option Nat) (s : Sys) : Int32 × Sys :=
  let s :=
    { s with
      obj := { s.obj with config := cfg }
      ch := { s.ch with
        bufferCount := cfg.bufferCount
        bufferSize := cfg.bufferSize
        fd := fd }
      resources := s.resources ++ [.open fd] }
  if s.ch.fd < 1 then (-1, s)
  else
    let s :=
      { s with
        ch := { s.ch with bufPtr := ptr }
        resources := s.resources ++ [.mmap ptr sizeofChannelContagiousBuffer] }
    if s.ch.bufPtr = none then (-1, s)
    else
      (0, initLoop s.ch.bufferCount.toNatClampNeg { s with ch := { s.ch with bufferId := 0 } })

/-- `cleanup`. -/
def cleanup (s : Sys) : Sys :=
  { s with
    ch := { s.ch with bufPtr := none }
    resources := s.resources ++
      [.munmap s.ch.bufPtr
        (sizeofChannelBuffer * s.ch.bufferCount.toInt64.toUInt64.toNat % 2 ^ 64),
       .close s.ch.fd] }

/-- `end`, which `PIThread` calls once after `stop`. -/
def threadEnd (s : Sys) : Sys := s.cleanup

/-- `set_num_transfers`. -/
def setNumTransfers (n : Int32) (s : Sys) : Sys :=
  { s with obj := { s.obj with numTransfers := n } }

/-- `set_save_to_file`.  `opened` is whether `fopen` succeeds. -/
def setSaveToFile (opened : Bool) (nSamps : Int32) (s : Sys) : Sys :=
  { s with
    obj := { s.obj with flagSaveBuf := true, nSampsPerBuf := nSamps, dumpFile := opened }
    dump := {} }

end Sys

end RlsMini.Dma
