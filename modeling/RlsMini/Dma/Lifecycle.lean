import RlsMini.Dma.RxPlan
import RlsMini.Dma.Transmit
import RlsMini.Lib.Pages

/-!
# The resources of the channels

`init` opens the device and maps `sizeof(channel_contagious_buffer)` bytes;
`cleanup` unmaps `sizeof(channel_buffer) * buffer_count` bytes and closes the
descriptor.  A transmit channel is cleaned up once, by the last loop of
`main`.  The receive channel is cleaned up twice: `PIThread` calls `end` when
the thread has stopped, and the loop of `main` comes to it afterwards.

`Run.Valid.final_resources` gives the log of every channel at the end of
`main`, and the results about what is released are read off it.
-/

namespace RlsMini.Dma

open RlsMini.Pages

/-! ## What is released -/

def ResCall.isMunmap : ResCall → Bool
  | .munmap _ _ => true
  | _ => false

/-- The mapped pages after a call, from those before it.  The null pointer is
address 0. -/
def pageStep (pageSize : Nat) (mapped : Set Nat) : ResCall → Set Nat
  | .mmap (some ptr) length => map pageSize ptr length mapped
  | .munmap ptr length => unmap pageSize (ptr.getD 0) length mapped
  | _ => mapped

/-- The pages that the calls of a channel leave mapped. -/
def mappedPages (pageSize : Nat) (calls : List ResCall) : Set Nat :=
  Machine.run (pageStep pageSize) ∅ calls

/-- The calls of a channel close its descriptor once, do not unmap what is
unmapped already, and leave nothing mapped. -/
structure Released (pageSize : Nat) (fd : Int32) (calls : List ResCall) : Prop where
  closedOnce : calls.count (.close fd) = 1
  unmappedOnce : ∀ pre ptr length post, calls = pre ++ .munmap ptr length :: post →
    ∀ call ∈ pre, call.isMunmap = false
  nothingMapped : mappedPages pageSize calls = ∅

/-! ## What transfers leave alone -/

/-- The members that `cleanup` uses, and the calls made so far. -/
structure Keeps (s s' : Sys) : Prop where
  resources : s'.resources = s.resources
  fd : s'.ch.fd = s.ch.fd
  bufPtr : s'.ch.bufPtr = s.ch.bufPtr
  bufferCount : s'.ch.bufferCount = s.ch.bufferCount

namespace Keeps

theorem refl (s : Sys) : Keeps s s := ⟨rfl, rfl, rfl, rfl⟩

theorem trans {s s' s'' : Sys} (h : Keeps s s') (h' : Keeps s' s'') : Keeps s s'' :=
  ⟨h'.resources.trans h.resources, h'.fd.trans h.fd, h'.bufPtr.trans h.bufPtr,
    h'.bufferCount.trans h.bufferCount⟩

end Keeps

section Transfers

variable (d : ProxyDriver)

theorem keeps_waitForTransfer (s : Sys) : Keeps s (s.waitForTransfer d).2 := by
  by_cases hprogress : s.ch.inProgressCount = 0
  · rw [waitForTransfer_idle hprogress]
    exact Keeps.refl s
  · by_cases hok : d.status s.proxy.finishes = .PROXY_NO_ERROR
    · rw [waitForTransfer_ok hprogress hok]
      exact ⟨(frame_received d s).resources, rfl, rfl, rfl⟩
    · rw [waitForTransfer_error hprogress hok]
      exact ⟨rfl, rfl, rfl, rfl⟩

theorem keeps_run (s : Sys) : Keeps s (s.run d).2 := by
  have hwait := keeps_waitForTransfer d s
  simp only [Sys.run]
  split
  · exact hwait
  · split
    · exact hwait.trans ⟨rfl, rfl, rfl, rfl⟩
    · exact hwait.trans ⟨rfl, rfl, rfl, rfl⟩

theorem LoopFrame.keeps {s s' : Sys} (h : LoopFrame s s') : Keeps s s' :=
  ⟨h.resources, h.fd, h.bufPtr, h.bufferCount⟩

/-- The whole thread, up to any turn. -/
theorem keeps_thread (s : Sys) (n : Nat) : Keeps s (s.thread d n).2 := by
  induction n with
  | zero => exact (begin_frame d s).keeps
  | succ n ih =>
      by_cases hstop : (s.thread d n).1 = true
      · rw [thread_succ_of_stopped hstop]
        exact ih
      · rw [thread_succ_of_running (Bool.eq_false_iff.mpr hstop)]
        exact ih.trans (keeps_run d _)

end Transfers

/-- The transmit loop of `main`, up to any iteration. -/
theorem keeps_txLoop (d : Fin 8 → ProxyDriver) (file : Nat → Option (List Char)) (T : Nat)
    (st : TxState) (i : Nat) (k : Fin 8) :
    Keeps (st.channels k) ((txLoop d file T st i).channels k) := by
  induction i with
  | zero => exact Keeps.refl _
  | succ i ih =>
      have hreload : Keeps ((txLoop d file T st i).channels k)
          ((reloadIfDue file T i (txLoop d file T st i)).channels k) := by
        unfold reloadIfDue
        split
        · exact ⟨rfl, rfl, rfl, rfl⟩
        · exact Keeps.refl _
      refine (ih.trans hreload).trans ?_
      have hwait := keeps_waitForTransfer (d k)
        (((reloadIfDue file T i (txLoop d file T st i)).channels k).startTransfer (d k))
      exact ⟨hwait.resources, hwait.fd, hwait.bufPtr, hwait.bufferCount⟩

/-! ## The log of a channel -/

/-- The calls of a successful `init`. -/
def acquired (fd : Int32) (ptr : Nat) : List ResCall :=
  [.open fd, .mmap (some ptr) sizeofChannelContagiousBuffer]

/-- The calls of one `cleanup` with `B` buffers. -/
def released (fd : Int32) (ptr : Option Nat) (B : Nat) : List ResCall :=
  [.munmap ptr (sizeofChannelBuffer * B), .close fd]

/-- A channel that has been initialised and not cleaned up. -/
structure Acquired (fd : Int32) (ptr B : Nat) (s : Sys) : Prop where
  resources : s.resources = acquired fd ptr
  fd : s.ch.fd = fd
  bufPtr : s.ch.bufPtr = some ptr
  bufferCount : s.ch.bufferCount = Int32.ofNat B

theorem Acquired.keeps {fd : Int32} {ptr B : Nat} {s s' : Sys} (h : Acquired fd ptr B s)
    (hkeeps : Keeps s s') : Acquired fd ptr B s' :=
  ⟨hkeeps.resources.trans h.resources, hkeeps.fd.trans h.fd, hkeeps.bufPtr.trans h.bufPtr,
    hkeeps.bufferCount.trans h.bufferCount⟩

theorem acquired_init {cfg : ChConfig} {fd : Int32} {ptr B : Nat} {p : Proxy} (hfd : 1 ≤ fd)
    (hcount : cfg.bufferCount = Int32.ofNat B) :
    Acquired fd ptr B (Sys.init cfg fd (some ptr) { proxy := p }).2 := by
  rw [init_eq hfd]
  refine Acquired.keeps ?_ (initLoop_lengthsSet _ _).keeps
  exact ⟨rfl, rfl, rfl, hcount⟩

/-- The length that `cleanup` computes as a `size_t`. -/
theorem cleanup_length {B : Nat} (hB : B ≤ BUFFER_COUNT) :
    sizeofChannelBuffer * (Int32.ofNat B).toInt64.toUInt64.toNat % 2 ^ 64 =
      sizeofChannelBuffer * B := by
  have hsize : sizeofChannelBuffer = 3712 := by decide
  have hvalue : (Int32.ofNat B).toInt = B :=
    Int32.toInt_ofNat_of_lt (by simp only [BUFFER_COUNT] at hB; omega)
  rw [toNat_toSizeT (by omega), hvalue, hsize, Int.toNat_natCast]
  simp only [BUFFER_COUNT] at hB
  omega

/-- The first `cleanup` of a channel. -/
theorem Acquired.cleanup {fd : Int32} {ptr B : Nat} {s : Sys} (h : Acquired fd ptr B s)
    (hB : B ≤ BUFFER_COUNT) :
    s.cleanup.resources = acquired fd ptr ++ released fd (some ptr) B := by
  simp only [Sys.cleanup, h.resources, h.fd, h.bufPtr, h.bufferCount, cleanup_length hB, released]

/-- A second `cleanup`, which finds the null pointer. -/
theorem Acquired.cleanup_cleanup {fd : Int32} {ptr B : Nat} {s : Sys} (h : Acquired fd ptr B s)
    (hB : B ≤ BUFFER_COUNT) :
    s.cleanup.cleanup.resources =
      acquired fd ptr ++ released fd (some ptr) B ++ released fd none B := by
  have hagain : s.cleanup.cleanup.resources = s.cleanup.resources ++ released fd none B := by
    simp only [Sys.cleanup, h.fd, h.bufferCount, cleanup_length hB, released]
  rw [hagain, h.cleanup hB]

/-! ## Once and twice -/

/-- One `cleanup` closes the descriptor once and unmaps once; what it leaves
mapped depends on how the two lengths round up to pages. -/
theorem released_once_iff {pageSize start B : Nat} (fd : Int32) (hsize : 0 < pageSize) :
    Released pageSize fd
        (acquired fd (start * pageSize) ++ released fd (some (start * pageSize)) B) ↔
      sizeofChannelContagiousBuffer ⌈/⌉ pageSize ≤ sizeofChannelBuffer * B ⌈/⌉ pageSize := by
  have hmapped : mappedPages pageSize
      (acquired fd (start * pageSize) ++ released fd (some (start * pageSize)) B) =
        unmap pageSize (start * pageSize) (sizeofChannelBuffer * B)
          (map pageSize (start * pageSize) sizeofChannelContagiousBuffer ∅) := rfl
  have hempty : mappedPages pageSize
      (acquired fd (start * pageSize) ++ released fd (some (start * pageSize)) B) = ∅ ↔ _ :=
    hmapped ▸ unmapped_iff hsize
  rw [← hempty]
  constructor
  · intro h
    exact h.nothingMapped
  · intro h
    refine ⟨?_, ?_, h⟩
    · simp [acquired, released]
    · intro pre ptr length post hsplit call hcall
      have hcount : (acquired fd (start * pageSize) ++
          released fd (some (start * pageSize)) B).countP ResCall.isMunmap = 1 := rfl
      rw [hsplit, List.countP_append, List.countP_cons_of_pos rfl] at hcount
      by_contra hmunmap
      have hpos : 0 < pre.countP ResCall.isMunmap :=
        List.countP_pos_iff.mpr ⟨call, hcall, Bool.eq_true_of_not_eq_false hmunmap⟩
      omega

/-- Two calls of `cleanup` close the descriptor twice. -/
theorem not_released_twice {pageSize B ptr : Nat} (fd : Int32) :
    ¬ Released pageSize fd
      (acquired fd ptr ++ released fd (some ptr) B ++ released fd none B) := by
  intro h
  have hcount := h.closedOnce
  simp [acquired, released] at hcount

/-! ## A run of `main` -/

/-- The receive channel is `dma_channels[0]`. -/
abbrev rxIndex : Fin 9 := 0

/-- What a run of `main` depends on. -/
structure Run where
  rxBufferCount : Nat
  txBufferCount : Nat
  testPoint : UInt32
  numTransfers : UInt32
  fd : Fin 9 → Int32
  ptr : Fin 9 → Nat
  /-- Whether `fopen` has given `dump_file`. -/
  opened : Bool
  /-- The input file, as each reload finds it. -/
  file : Nat → Option (List Char)
  ram : Fin 8 → Ram
  driver : Fin 9 → ProxyDriver

namespace Run

variable (r : Run)

/-- The receive thread after `turns` turns. -/
def receive (turns : Nat) : Bool × Sys :=
  (rxStart r.rxBufferCount r.testPoint r.numTransfers (r.fd 0) (r.ptr 0) r.opened).thread
    (r.driver 0) turns

/-- The transmit channels after the loop. -/
def transmitted : TxState :=
  txLoop (fun k => r.driver k.succ) r.file r.txBufferCount
    (txStart r.txBufferCount r.numTransfers (fun k => r.fd k.succ) (fun k => r.ptr k.succ) r.ram)
    r.numTransfers.toNat

/-- The channels at the end of `main`, when the receive thread has stopped
after `turns` turns: the thread has called `end`, and the last loop has called
`cleanup` for every channel. -/
def final (turns : Nat) : Fin 9 → Sys :=
  Fin.cons (r.receive turns).2.threadEnd.cleanup fun k => (r.transmitted.channels k).cleanup

/-- The run comes to the end of `main` and has released what it acquired. -/
def ReleasesAll (pageSize : Nat) : Prop :=
  ∃ turns, (r.receive turns).1 = true ∧
    ∀ k, Released pageSize (r.fd k) (r.final turns k).resources

/-- Every `init` succeeds, on page-aligned mappings and allowed buffer
counts. -/
structure Valid (pageSize : Nat) : Prop where
  pageSize_pos : 0 < pageSize
  rx : 1 ≤ r.rxBufferCount ∧ r.rxBufferCount ≤ BUFFER_COUNT
  tx : 1 ≤ r.txBufferCount ∧ r.txBufferCount ≤ BUFFER_COUNT
  fd : ∀ k, 1 ≤ r.fd k
  ptr : ∀ k, pageSize ∣ r.ptr k

variable {r} {pageSize : Nat}

theorem Valid.receive_acquired (h : r.Valid pageSize) (turns : Nat) :
    Acquired (r.fd 0) (r.ptr 0) r.rxBufferCount (r.receive turns).2 := by
  have hinit : Acquired (r.fd 0) (r.ptr 0) r.rxBufferCount
      (Sys.init (rxConfig r.rxBufferCount) (r.fd 0) (some (r.ptr 0)) { proxy := .opened }).2 :=
    acquired_init (h.fd 0) rfl
  refine Acquired.keeps ?_ (keeps_thread _ _ _)
  exact ⟨hinit.resources, hinit.fd, hinit.bufPtr, hinit.bufferCount⟩

theorem Valid.transmitted_acquired (h : r.Valid pageSize) (k : Fin 8) :
    Acquired (r.fd k.succ) (r.ptr k.succ) r.txBufferCount (r.transmitted.channels k) := by
  have hinit : Acquired (r.fd k.succ) (r.ptr k.succ) r.txBufferCount
      (txChannel r.txBufferCount k (r.fd k.succ) (r.ptr k.succ) (r.ram k)) :=
    acquired_init (h.fd k.succ) rfl
  refine Acquired.keeps ?_ (keeps_txLoop _ _ _ _ _ k)
  exact ⟨hinit.resources, hinit.fd, hinit.bufPtr, hinit.bufferCount⟩

/-- The calls of the nine channels at the end of `main`. -/
theorem Valid.final_resources (h : r.Valid pageSize) (turns : Nat) :
    (r.final turns 0).resources = acquired (r.fd 0) (r.ptr 0) ++
        released (r.fd 0) (some (r.ptr 0)) r.rxBufferCount ++
        released (r.fd 0) none r.rxBufferCount ∧
      ∀ k : Fin 8, (r.final turns k.succ).resources = acquired (r.fd k.succ) (r.ptr k.succ) ++
        released (r.fd k.succ) (some (r.ptr k.succ)) r.txBufferCount :=
  ⟨(h.receive_acquired turns).cleanup_cleanup h.rx.2,
    fun k => (h.transmitted_acquired k).cleanup h.tx.2⟩

/-- The transmit channels are released as far as the rounding of the two
lengths lets them. -/
theorem Valid.transmit_released_iff (h : r.Valid pageSize) (turns : Nat) (k : Fin 8) :
    Released pageSize (r.fd k.succ) (r.final turns k.succ).resources ↔
      sizeofChannelContagiousBuffer ⌈/⌉ pageSize ≤
        sizeofChannelBuffer * r.txBufferCount ⌈/⌉ pageSize := by
  obtain ⟨start, hstart⟩ := h.ptr k.succ
  rw [(h.final_resources turns).2 k, hstart, Nat.mul_comm]
  exact released_once_iff (r.fd k.succ) h.pageSize_pos

/-- The end of `main` finds the descriptor of the receive channel closed twice
and its null mapping unmapped, whatever the run. -/
theorem Valid.receive_not_released (h : r.Valid pageSize) (turns : Nat) :
    ¬ Released pageSize (r.fd 0) (r.final turns 0).resources := by
  rw [(h.final_resources turns).1]
  exact not_released_twice (r.fd 0)

end Run

/-- No run of `main` releases its channels exactly once and completely. -/
theorem main_never_releases_all (r : Run) (pageSize : Nat) (h : r.Valid pageSize) :
    ¬ r.ReleasesAll pageSize := by
  rintro ⟨turns, -, hreleased⟩
  exact h.receive_not_released turns (hreleased 0)

/-- A run with the buffer counts of `main` and no error, one transmit buffer
at the bypass test point. -/
def bypassRun : Run where
  rxBufferCount := RX_BUFFER_COUNT
  txBufferCount := TX_BUFFER_COUNT
  testPoint := TP_BYPASS
  numTransfers := 1
  fd k := Int32.ofNat (k.val + 3)
  ptr k := 4096 * (32 * k.val + 16)
  opened := true
  file _ := some []
  ram _ _ := 0
  driver _ := .reader

theorem bypassRun_valid : bypassRun.Valid 4096 where
  pageSize_pos := by decide
  rx := by decide
  tx := by decide
  fd := by decide
  ptr _ := Dvd.intro _ rfl

theorem main_never_releases_all_bypass : ¬ bypassRun.ReleasesAll 4096 :=
  main_never_releases_all bypassRun 4096 bypassRun_valid

/-- The run comes to its end and closes descriptor 3 twice, the second time
after unmapping the null pointer. -/
theorem bypassRun_not_released :
    (bypassRun.receive 4).1 = true ∧
      (bypassRun.final 4 0).resources =
        [.open 3, .mmap (some 65536) 119040, .munmap (some 65536) 29696, .close 3,
          .munmap none 29696, .close 3] ∧
      ¬ Released 4096 3 (bypassRun.final 4 0).resources := by
  have hresources := (bypassRun_valid.final_resources 4).1
  refine ⟨?_, hresources, bypassRun_valid.receive_not_released 4⟩
  have hready : (rxStart RX_BUFFER_COUNT TP_BYPASS 1 3 65536 true).Ready :=
    rxChannel_ready TP_BYPASS 1 65536 true (by decide)
  exact (hready.thread_last (by decide) fun _ => rfl).1

end RlsMini.Dma
