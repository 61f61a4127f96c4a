import RlsMini.Dma.ReceiveRing

/-!
# The receive thread

`PIThread` calls `begin` once and then `run` until `stop`.  With a limit
`total ≥ 1` the thread keeps `Receiving`: when `first` transfers are complete,
the transfers below `min total (first + size)` are started.  `run` completes
one transfer and starts at most one, in the buffer it has just emptied.

`receive_ring_discipline` reads the ring off every state of the thread,
whatever statuses the driver reports.
-/

namespace RlsMini.Dma

open RlsMini RlsMini.CInt

/-! ## `init` leaves a ready channel -/

/-- Setting the lengths moves `buffer_id` and nothing else that counts
transfers. -/
theorem LengthsSet.ready {s s' : Sys} (hset : LengthsSet s s') (h : s.Ready) : s'.Ready where
  bufferCount := by rw [hset.bufferCount]; exact h.bufferCount
  counter := hset.counter.trans h.counter
  inProgressCount := hset.inProgressCount.trans h.inProgressCount
  calls := hset.calls.trans h.calls
  starts := hset.starts.trans h.starts
  finishes := hset.finishes.trans h.finishes

/-- A new object that has opened the device as `fd` and mapped it at `ptr`. -/
def Sys.mapped (cfg : ChConfig) (fd : Int32) (ptr : Nat) (p : Proxy) : Sys where
  ch :=
    { bufferCount := cfg.bufferCount, bufferSize := cfg.bufferSize, fd := fd, bufPtr := some ptr }
  obj := { config := cfg }
  proxy := p
  resources := [.open fd, .mmap (some ptr) sizeofChannelContagiousBuffer]

/-- A successful `init` of a new object comes to the loop. -/
theorem init_eq {cfg : ChConfig} {fd : Int32} {ptr : Nat} {p : Proxy} (hfd : 1 ≤ fd) :
    (Sys.init cfg fd (some ptr) { proxy := p }).2 =
      (Sys.mapped cfg fd ptr p).initLoop cfg.bufferCount.toNatClampNeg := by
  have hopen : ¬ fd < 1 := Int32.not_lt.mpr hfd
  simp only [Sys.init, if_neg hopen, reduceCtorEq, if_false]
  rfl

/-- A successful `init` of a new object takes its configuration over. -/
theorem init_bufferCount_obj {cfg : ChConfig} {fd : Int32} {ptr : Nat} {p : Proxy}
    (hfd : 1 ≤ fd) :
    (Sys.init cfg fd (some ptr) { proxy := p }).2.ch.bufferCount = cfg.bufferCount ∧
      (Sys.init cfg fd (some ptr) { proxy := p }).2.obj = { config := cfg } := by
  rw [init_eq hfd]
  have hset := initLoop_lengthsSet cfg.bufferCount.toNatClampNeg (Sys.mapped cfg fd ptr p)
  exact ⟨hset.bufferCount, hset.obj⟩

/-- A successful `init` of a new object leaves a ready channel. -/
theorem init_ready {cfg : ChConfig} {fd : Int32} {ptr : Nat} {p : Proxy}
    (hcount : 1 ≤ cfg.bufferCount) (hfd : 1 ≤ fd) (hstarts : p.starts = 0)
    (hfinishes : p.finishes = 0) : (Sys.init cfg fd (some ptr) { proxy := p }).2.Ready := by
  rw [init_eq hfd]
  exact (initLoop_lengthsSet _ _).ready ⟨hcount, rfl, rfl, rfl, hstarts, hfinishes⟩

theorem Sys.Ready.setNumTransfers {s : Sys} (h : s.Ready) (n : Int32) :
    (s.setNumTransfers n).Ready :=
  ⟨h.bufferCount, h.counter, h.inProgressCount, h.calls, h.starts, h.finishes⟩

theorem Sys.Ready.setSaveToFile {s : Sys} (h : s.Ready) (opened : Bool) (nSamps : Int32) :
    (s.setSaveToFile opened nSamps).Ready :=
  ⟨h.bufferCount, h.counter, h.inProgressCount, h.calls, h.starts, h.finishes⟩

/-! ## `run` -/

/-- `run` moves none of the members that configure the thread. -/
theorem run_obj (d : ProxyDriver) (s : Sys) : (s.run d).2.obj = s.obj := by
  simp only [Sys.run]
  split
  · exact waitForTransfer_obj
  · split <;> exact waitForTransfer_obj

/-- The state of the thread with `first` of `total` transfers complete. -/
structure Receiving (size total first : Nat) (s : Sys) : Prop where
  serves : Serves size first (min total (first + size) - first) s
  bufferId : s.ch.bufferId.toInt = (first % size : Nat)
  numTransfers : s.obj.numTransfers.toInt = total
  finishes : s.proxy.finishes = first
  more : first < total

section Run

variable {d : ProxyDriver} {size total first : Nat} {s : Sys}

theorem Receiving.total_lt (h : Receiving size total first s) : total < 2 ^ 31 := by
  have hlt := s.obj.numTransfers.toInt_lt
  have heq := h.numTransfers
  omega

/-- A transfer is in flight as long as the limit is not reached. -/
theorem Receiving.serves_succ (h : Receiving size total first s) (hsize : 1 ≤ size) :
    Serves size first (min total (first + size) - (first + 1) + 1) s := by
  have hmore := h.more
  have heq : min total (first + size) - (first + 1) + 1 = min total (first + size) - first := by
    omega
  rw [heq]
  exact h.serves

/-- The last transfer completes: `run` stops. -/
theorem Receiving.run_last (h : Receiving size total first s) (hsize : 1 ≤ size)
    (hok : d.status first = .PROXY_NO_ERROR) (hlast : first + 1 = total) :
    (s.run d).1 = true ∧ Serves size total 0 (s.run d).2 ∧
      (s.run d).2.obj = s.obj ∧ (s.run d).2.proxy.finishes = total := by
  have htotal := h.total_lt
  obtain ⟨hstatus, hserves, -, hobj, hfinishes⟩ :=
    (h.serves_succ hsize).wait h.bufferId (by omega) (by rw [h.finishes]; exact hok)
  have hzero : min total (first + size) - (first + 1) = 0 := by omega
  rw [hzero, hlast] at hserves
  have hreached : (s.waitForTransfer d).2.obj.numTransfers ≠ 0 ∧
      (s.waitForTransfer d).2.ch.counter ≥ (s.waitForTransfer d).2.obj.numTransfers := by
    rw [hobj]
    constructor
    · rw [ne_eq, eq_zero_iff_toInt, h.numTransfers]
      omega
    · rw [ge_iff_le, Int32.le_iff_toInt_le, hserves.counter, h.numTransfers]
  have hrun : s.run d = (true, (s.waitForTransfer d).2) := by
    simp only [Sys.run]
    rw [if_pos (Or.inr hreached)]
  rw [hrun]
  exact ⟨rfl, hserves, hobj, by rw [hfinishes, h.finishes, hlast]⟩

/-- A transfer before the last one completes: `run` starts the next transfer,
if one is left, in the buffer that is free now. -/
theorem Receiving.run_next (h : Receiving size total first s) (hsize : 1 ≤ size)
    (hok : d.status first = .PROXY_NO_ERROR) (hnext : first + 1 < total) :
    (s.run d).1 = false ∧ Receiving size total (first + 1) (s.run d).2 ∧
      (s.run d).2.obj = s.obj := by
  have htotal := h.total_lt
  obtain ⟨hstatus, hserves, hbuffer, hobj, hfinishes⟩ :=
    (h.serves_succ hsize).wait h.bufferId (by omega) (by rw [h.finishes]; exact hok)
  generalize hs' : (s.waitForTransfer d).2 = s' at hserves hbuffer hobj hfinishes
  have hgo : ¬ ((s.waitForTransfer d).1 ≠ .PROXY_NO_ERROR ∨
      (s'.obj.numTransfers ≠ 0 ∧ s'.ch.counter ≥ s'.obj.numTransfers)) := by
    rintro (herr | ⟨-, hge⟩)
    · exact herr hstatus
    · rw [ge_iff_le, Int32.le_iff_toInt_le, hobj, h.numTransfers, hserves.counter] at hge
      omega
  have hsum : (s'.ch.counter + s'.ch.inProgressCount).toInt = (min total (first + size) : Nat) := by
    have hc := hserves.counter
    have hp := hserves.inProgressCount
    rw [CInt.toInt_add (by omega) (by omega), hc, hp]
    omega
  have hleft : (s'.obj.numTransfers ≠ 0 ∧
      s'.ch.counter + s'.ch.inProgressCount < s'.obj.numTransfers) ↔
        first + size < total := by
    rw [ne_eq, eq_zero_iff_toInt, Int32.lt_iff_toInt_lt, hsum, hobj, h.numTransfers]
    omega
  have hid : ((s'.ch.bufferId + 1) % s'.ch.bufferCount).toInt = ((first + 1) % size : Nat) :=
    hserves.next_bufferId hsize (by rw [hbuffer, h.bufferId])
  by_cases hroom : first + size < total
  · have hrun : s.run d = (false,
        { s'.startTransferForBuf d s'.ch.bufferId with
          ch := { (s'.startTransferForBuf d s'.ch.bufferId).ch with
            bufferId := (s'.ch.bufferId + 1) % s'.ch.bufferCount } }) := by
      simp only [Sys.run, hs', if_neg hgo, if_pos (hleft.mpr hroom)]
      rfl
    rw [hrun]
    -- The buffer just emptied is the slot of the transfer that is started.
    have hslot : s'.ch.bufferId.toInt =
        ((first + 1 + (min total (first + size) - (first + 1))) % size : Nat) := by
      have heq : first + 1 + (min total (first + size) - (first + 1)) = first + size := by omega
      rw [heq, Nat.add_mod_right, hbuffer, h.bufferId]
    have hstart := hserves.start (d := d) (by omega) hslot
    have heq : min total (first + size) - (first + 1) + 1 =
        min total (first + 1 + size) - (first + 1) := by omega
    rw [heq] at hstart
    exact ⟨rfl, ⟨hstart.setBufferId _, hid, by rw [← h.numTransfers, ← hobj]; rfl,
      by rw [← h.finishes, ← hfinishes]; rfl, hnext⟩, hobj⟩
  · have hrun : s.run d = (false,
        { s' with
          ch := { s'.ch with
            bufferId := (s'.ch.bufferId + 1) % s'.ch.bufferCount } }) := by
      simp only [Sys.run, hs', if_neg hgo, if_neg (fun hr => hroom (hleft.mp hr))]
    rw [hrun]
    have heq : min total (first + size) - (first + 1) =
        min total (first + 1 + size) - (first + 1) := by omega
    rw [heq] at hserves
    exact ⟨rfl, ⟨hserves.setBufferId _, hid, by rw [← h.numTransfers, ← hobj],
      hfinishes.trans (by rw [h.finishes]), hnext⟩, hobj⟩

/-- An error: `run` stops, and the failed wait has moved no counter. -/
theorem Receiving.run_error (h : Receiving size total first s) (hsize : 1 ≤ size)
    (herr : d.status first ≠ .PROXY_NO_ERROR) :
    (s.run d).1 = true ∧
      Serves size first (min total (first + size) - first) (s.run d).2 ∧
      (s.run d).2.ch = s.ch ∧ (s.run d).2.obj = s.obj := by
  have hmore := h.more
  obtain ⟨hstatus, hserves, hch, hobj⟩ :=
    (h.serves_succ hsize).wait_error h.bufferId (by rw [h.finishes]; exact herr)
  have hrun : s.run d = (true, (s.waitForTransfer d).2) := by
    simp only [Sys.run]
    rw [if_pos (Or.inl hstatus)]
  have heq : min total (first + size) - (first + 1) + 1 = min total (first + size) - first := by
    omega
  rw [heq] at hserves
  rw [hrun]
  exact ⟨rfl, hserves, hch, hobj⟩

end Run

/-! ## The thread -/

theorem thread_succ (d : ProxyDriver) (s : Sys) (n : Nat) :
    s.thread d (n + 1) = Sys.turn d (s.thread d n) :=
  Function.iterate_succ_apply' _ _ _

/-- After `stop` the thread stands still. -/
theorem thread_succ_of_stopped {d : ProxyDriver} {s : Sys} {n : Nat}
    (h : (s.thread d n).1 = true) : s.thread d (n + 1) = s.thread d n := by
  rw [thread_succ, Sys.turn, if_pos h]

theorem thread_succ_of_running {d : ProxyDriver} {s : Sys} {n : Nat}
    (h : (s.thread d n).1 = false) : s.thread d (n + 1) = (s.thread d n).2.run d := by
  rw [thread_succ, Sys.turn, h]
  rfl

/-- The thread stands still from any turn on at which it has stopped. -/
theorem thread_of_stopped {d : ProxyDriver} {s : Sys} {m n : Nat} (hmn : m ≤ n)
    (h : (s.thread d m).1 = true) : s.thread d n = s.thread d m := by
  induction n, hmn using Nat.le_induction with
  | base => rfl
  | succ n _ ih => rw [thread_succ_of_stopped (by rw [ih]; exact h), ih]

/-- `begin` starts the receiving phase, if there is anything to receive. -/
theorem Sys.Ready.receiving {d : ProxyDriver} {s : Sys} (h : s.Ready)
    (hN : 1 ≤ s.obj.numTransfers) :
    Receiving s.ch.bufferCount.toInt.toNat s.obj.numTransfers.toInt.toNat 0 (s.begin d) := by
  obtain ⟨hserves, hbuffer, hobj, hfinishes⟩ := h.begin (d := d)
  have hone : (1 : Int) ≤ s.obj.numTransfers.toInt := Int32.le_iff_toInt_le.mp hN
  have hcount : beginCount s.ch.bufferCount.toInt.toNat s.obj.numTransfers.toInt =
      min s.obj.numTransfers.toInt.toNat (0 + s.ch.bufferCount.toInt.toNat) - 0 := by
    unfold beginCount
    rw [if_neg (by omega)]
    omega
  exact
    { serves := hcount ▸ hserves
      bufferId := by rw [hbuffer, Nat.zero_mod]; rfl
      numTransfers := by rw [hobj]; omega
      finishes := hfinishes
      more := by omega }

theorem Sys.Ready.one_le {s : Sys} (h : s.Ready) : 1 ≤ s.ch.bufferCount.toInt.toNat := by
  have hone : (1 : Int) ≤ s.ch.bufferCount.toInt := Int32.le_iff_toInt_le.mp h.bufferCount
  omega

/-- What every turn of the thread keeps: it is receiving, or it has stopped
with the ring of some number of completed transfers. -/
inductive ThreadInv (size total : Nat) : Bool × Sys → Prop
  | receiving {s : Sys} (first : Nat) (h : Receiving size total first s) :
      ThreadInv size total (false, s)
  | stopped {s : Sys} (first : Nat) (hle : first ≤ total)
      (h : Serves size first (min total (first + size) - first) s) :
      ThreadInv size total (true, s)

theorem ThreadInv.of_running {size total : Nat} {t : Bool × Sys} (h : ThreadInv size total t)
    (hgo : t.1 = false) : ∃ first, Receiving size total first t.2 := by
  cases h with
  | receiving first h => exact ⟨first, h⟩
  | stopped => exact Bool.noConfusion hgo

/-- A turn keeps the invariant, whatever status it meets. -/
theorem ThreadInv.turn {d : ProxyDriver} {size total : Nat} {t : Bool × Sys}
    (h : ThreadInv size total t) (hsize : 1 ≤ size) : ThreadInv size total (Sys.turn d t) := by
  cases h with
  | stopped first hle h => exact .stopped first hle h
  | @receiving s first h =>
      have hmore := h.more
      show ThreadInv size total (s.run d)
      have hpair : s.run d = ((s.run d).1, (s.run d).2) := rfl
      rw [hpair]
      by_cases hok : d.status first = .PROXY_NO_ERROR
      · rcases Nat.lt_or_ge (first + 1) total with hnext | hlast
        · obtain ⟨hgo, hreceiving, -⟩ := h.run_next hsize hok hnext
          rw [hgo]
          exact .receiving (first + 1) hreceiving
        · obtain ⟨hstop, hserves, -⟩ := h.run_last hsize hok (by omega)
          rw [hstop]
          refine .stopped total (Nat.le_refl _) ?_
          rw [Nat.min_eq_left (Nat.le_add_right _ _), Nat.sub_self]
          exact hserves
      · obtain ⟨hstop, hserves, -⟩ := h.run_error hsize hok
        rw [hstop]
        exact .stopped first (by omega) hserves

theorem Sys.Ready.threadInv {s : Sys} (h : s.Ready) (hN : 1 ≤ s.obj.numTransfers)
    (d : ProxyDriver) (n : Nat) :
    ThreadInv s.ch.bufferCount.toInt.toNat s.obj.numTransfers.toInt.toNat (s.thread d n) := by
  induction n with
  | zero => exact .receiving 0 (h.receiving hN)
  | succ n ih =>
      rw [thread_succ]
      exact ih.turn h.one_le

/-- Without errors, turn `n` completes transfer `n`. -/
theorem Sys.Ready.thread_receiving {d : ProxyDriver} {s : Sys} (h : s.Ready)
    (hN : 1 ≤ s.obj.numTransfers) (hok : ∀ n, d.status n = .PROXY_NO_ERROR) {n : Nat}
    (hn : n < s.obj.numTransfers.toInt.toNat) :
    (s.thread d n).1 = false ∧
      Receiving s.ch.bufferCount.toInt.toNat s.obj.numTransfers.toInt.toNat n
        (s.thread d n).2 := by
  induction n with
  | zero => exact ⟨rfl, h.receiving hN⟩
  | succ n ih =>
      obtain ⟨hgo, hreceiving⟩ := ih (by omega)
      rw [thread_succ_of_running hgo]
      obtain ⟨hgo', hreceiving', -⟩ := hreceiving.run_next h.one_le (hok n) hn
      exact ⟨hgo', hreceiving'⟩

/-- Without errors, the thread stops with the ring empty in the turn that
completes the last transfer. -/
theorem Sys.Ready.thread_last {d : ProxyDriver} {s : Sys} (h : s.Ready)
    (hN : 1 ≤ s.obj.numTransfers) (hok : ∀ n, d.status n = .PROXY_NO_ERROR) :
    (s.thread d s.obj.numTransfers.toInt.toNat).1 = true ∧
      Serves s.ch.bufferCount.toInt.toNat s.obj.numTransfers.toInt.toNat 0
        (s.thread d s.obj.numTransfers.toInt.toNat).2 ∧
      (s.thread d s.obj.numTransfers.toInt.toNat).2.proxy.finishes =
        s.obj.numTransfers.toInt.toNat := by
  have hone : (1 : Int) ≤ s.obj.numTransfers.toInt := Int32.le_iff_toInt_le.mp hN
  obtain ⟨n, hn⟩ : ∃ n, s.obj.numTransfers.toInt.toNat = n + 1 :=
    ⟨s.obj.numTransfers.toInt.toNat - 1, by omega⟩
  obtain ⟨hgo, hreceiving⟩ := h.thread_receiving hN hok (n := n) (by omega)
  obtain ⟨hstop, hserves, -, hfinishes⟩ := hreceiving.run_last h.one_le (hok n) hn.symm
  have hlast : s.thread d s.obj.numTransfers.toInt.toNat = (s.thread d n).2.run d := by
    rw [hn, thread_succ_of_running hgo]
  rw [hlast]
  exact ⟨hstop, hserves, hfinishes⟩

/-- Without errors, the thread stops after exactly as many turns as there are
transfers. -/
theorem Sys.Ready.thread_stopped_iff {d : ProxyDriver} {s : Sys} (h : s.Ready)
    (hN : 1 ≤ s.obj.numTransfers) (hok : ∀ n, d.status n = .PROXY_NO_ERROR) (n : Nat) :
    (s.thread d n).1 = true ↔ s.obj.numTransfers.toInt.toNat ≤ n := by
  constructor
  · intro hstop
    by_contra hlt
    obtain ⟨hgo, -⟩ := h.thread_receiving hN hok (Nat.lt_of_not_le hlt)
    rw [hgo] at hstop
    exact Bool.noConfusion hstop
  · intro hle
    obtain ⟨hstop, -⟩ := h.thread_last hN hok
    rw [thread_of_stopped hle hstop]
    exact hstop

/-! ## The discipline of the ring -/

/-- The ring as it can be read off the members and the calls: how many
transfers are started, which buffers are in flight in which order, and that
every call so far kept to that order. -/
structure RingState (size total : Int) (s : Sys) : Prop where
  started : s.ch.counter.toInt + s.ch.inProgressCount.toInt =
    min total (s.ch.counter.toInt + size)
  flight : inFlight s.calls = (List.range s.ch.inProgressCount.toInt.toNat).map
    (fun j : Nat => (s.ch.counter.toInt + j) % size)
  finishOldest : ∀ pre b status post, s.calls = pre ++ .finish b status :: post →
    (inFlight pre).head? = some b
  startIdle : ∀ pre b post, s.calls = pre ++ .start b :: post → b ∉ inFlight pre

theorem Serves.ringState {size total first : Nat} {s : Sys} (hle : first ≤ total)
    (h : Serves size first (min total (first + size) - first) s) : RingState size total s where
  started := by
    rw [h.counter, h.inProgressCount]
    omega
  flight := by
    rw [h.flight, h.counter, h.inProgressCount, Int.toNat_natCast, Ring.slots,
      List.range'_eq_map_range, List.map_map, List.map_map]
    apply List.map_congr_left
    intro j _
    show (((first + j) % size : Nat) : Int) = _
    push_cast
    rfl
  finishOldest := fun _ _ _ _ hsplit => h.disciplined.finish_oldest hsplit
  startIdle := fun _ _ _ hsplit => h.disciplined.start_idle hsplit

theorem ThreadInv.ringState {size total : Nat} {t : Bool × Sys} (h : ThreadInv size total t) :
    RingState size total t.2 := by
  cases h with
  | receiving first h => exact h.serves.ringState (Nat.le_of_lt h.more)
  | stopped first hle h => exact h.ringState hle

/-- The receive thread keeps the ring in every state it reaches, whatever
statuses the driver reports.  Without errors it stops after one turn for each
transfer, with the ring empty; an error stops it with its counters unmoved. -/
theorem receive_ring_discipline (d : ProxyDriver) (s : Sys) (h : s.Ready)
    (hN : 1 ≤ s.obj.numTransfers) :
    (∀ n, RingState s.ch.bufferCount.toInt s.obj.numTransfers.toInt (s.thread d n).2) ∧
    ((∀ n, d.status n = .PROXY_NO_ERROR) → ∀ n,
      ((s.thread d n).1 = true ↔ s.obj.numTransfers.toInt.toNat ≤ n) ∧
      ((s.thread d n).1 = true →
        (s.thread d n).2.calls.countP Call.isStart = s.obj.numTransfers.toInt.toNat ∧
        (s.thread d n).2.calls.countP Call.isFinish = s.obj.numTransfers.toInt.toNat ∧
        (s.thread d n).2.ch.inProgressCount = 0)) ∧
    (∀ n, (s.thread d n).1 = false →
      d.status (s.thread d n).2.proxy.finishes ≠ .PROXY_NO_ERROR →
      (s.thread d (n + 1)).1 = true ∧
      (s.thread d (n + 1)).2.ch.counter = (s.thread d n).2.ch.counter ∧
      (s.thread d (n + 1)).2.ch.inProgressCount = (s.thread d n).2.ch.inProgressCount) := by
  have hone : (1 : Int) ≤ s.obj.numTransfers.toInt := Int32.le_iff_toInt_le.mp hN
  have hsize := h.one_le
  have hinv := h.threadInv hN d
  refine ⟨?_, ?_, ?_⟩
  · intro n
    have hring := (hinv n).ringState
    rwa [Int.toNat_of_nonneg (by omega), Int.toNat_of_nonneg (by omega)] at hring
  · intro hok n
    refine ⟨h.thread_stopped_iff hN hok n, ?_⟩
    intro hstop
    have hle := (h.thread_stopped_iff hN hok n).mp hstop
    obtain ⟨hlast, hserves, hfinishes⟩ := h.thread_last hN hok
    rw [thread_of_stopped hle hlast]
    refine ⟨by rw [hserves.starts, Nat.add_zero], by rw [hserves.finishes, hfinishes], ?_⟩
    rw [eq_zero_iff_toInt, hserves.inProgressCount]
    rfl
  · intro n hgo herr
    obtain ⟨first, hreceiving⟩ := (hinv n).of_running hgo
    rw [hreceiving.finishes] at herr
    obtain ⟨hstop, -, hch, -⟩ := hreceiving.run_error hsize herr
    rw [thread_succ_of_running hgo, hch]
    exact ⟨hstop, rfl, rfl⟩

/-- A channel of three buffers after `init`, with a limit of seven transfers. -/
def sevenOverThree : Sys :=
  (Sys.init { bufferSize := 3712, bufferCount := 3 } 4 (some 0) { proxy := .opened }).2
    |>.setNumTransfers 7

theorem sevenOverThree_ready : sevenOverThree.Ready :=
  (init_ready (by decide) (by decide) rfl rfl).setNumTransfers 7

/-- Seven transfers over three buffers, where the sixth one times out: the
state behind it. -/
theorem receive_ring_discipline_sevenOverThree :
    RingState 3 7 (sevenOverThree.thread (.failingAt 5 .PROXY_TIMEOUT) 6).2 :=
  (receive_ring_discipline (.failingAt 5 .PROXY_TIMEOUT) sevenOverThree sevenOverThree_ready
    (by decide)).1 6

end RlsMini.Dma
