import RlsMini.Dma.RxPlan
import Mathlib.Data.List.Chain

/-!
# Which buffer is next

Two ways of using the ring go wrong where the number of completed transfers
and the number of started ones part.

Without a limit `begin` fills the ring, and `run` starts no transfer: it asks
for `num_transfers` first, where `begin` and the test for the end take 0 for no
limit.  `Draining` follows the ring until it is empty.

`start_transfer` takes the buffer from the number of completed transfers.
`Alternating` is the invariant of the calls with a wait between any two starts:
on the idle channel this number is that of the starts.
`pipelined_starts_in_order_iff` says that the order of the buffers holds for no
other calls.
-/

namespace RlsMini.Dma

open RlsMini RlsMini.CInt

/-! ## The order of the buffers -/

/-- The buffers that the `FINISH_XFER` calls name. -/
def finishedBuffers (calls : List Call) : List Int :=
  calls.filterMap fun
    | .finish b _ => some b
    | _ => none

/-- Item `k` of the list is buffer `k % size`. -/
def InOrder (size : Nat) (bs : List Int) : Prop :=
  bs = (List.range bs.length).map fun k : Nat => ((k % size : Nat) : Int)

theorem finishedBuffers_append (calls calls' : List Call) :
    finishedBuffers (calls ++ calls') = finishedBuffers calls ++ finishedBuffers calls' :=
  List.filterMap_append

theorem inOrder_nil (size : Nat) : InOrder size [] := rfl

/-- The next item of a list in order. -/
theorem inOrder_concat {size : Nat} {bs : List Int} {b : Int} :
    InOrder size (bs ++ [b]) ↔ InOrder size bs ∧ b = (bs.length % size : Nat) := by
  unfold InOrder
  rw [List.length_append, List.length_singleton, List.range_succ, List.map_append]
  constructor
  · intro h
    obtain ⟨hbs, hb⟩ := List.append_inj' h rfl
    exact ⟨hbs, List.singleton_inj.mp hb⟩
  · intro h
    obtain ⟨hbs, hb⟩ := h
    rw [← hbs, hb]
    rfl

/-- One pass over the buffers. -/
theorem inOrder_range (size : Nat) : InOrder size ((List.range size).map Nat.cast) := by
  unfold InOrder
  rw [List.length_map, List.length_range]
  apply List.map_congr_left
  intro k hk
  rw [Nat.mod_eq_of_lt (List.mem_range.mp hk)]

/-! ## Receiving without a limit -/

section Unlimited

variable {d : ProxyDriver} {size first : Nat} {s : Sys}

/-- The loop of `begin` starts the buffers from `count` on. -/
theorem beginLoop_startedBuffers (fuel count : Nat) (hsize : s.ch.bufferCount.toInt = size)
    (hb : s.ch.bufferId.toInt = count) (hfuel : size ≤ count + fuel)
    (hzero : s.obj.numTransfers = 0) :
    startedBuffers (s.beginLoop d fuel).calls =
        startedBuffers s.calls ++ (List.range' count (size - count)).map Nat.cast ∧
      finishedBuffers (s.beginLoop d fuel).calls = finishedBuffers s.calls := by
  induction fuel generalizing s count with
  | zero =>
      have hnone : size - count = 0 := by omega
      rw [hnone, List.range'_zero, List.map_nil, List.append_nil]
      exact ⟨rfl, rfl⟩
  | succ fuel ih =>
      have hlt : s.ch.bufferId < s.ch.bufferCount ↔ count < size := by
        rw [Int32.lt_iff_toInt_lt, hb, hsize, Int.ofNat_lt]
      by_cases hcount : count < size
      · have hnext : (s.ch.bufferId + 1).toInt = (count + 1 : Nat) := by
          have hmax := s.ch.bufferCount.toInt_lt
          rw [toInt_add_one (by omega), hb]
          omega
        have hgo : ¬ (s.obj.numTransfers ≠ 0 ∧
            s.ch.inProgressCount + 1 ≥ s.obj.numTransfers) := fun h => h.1 hzero
        have hloop : s.beginLoop d (fuel + 1) = Sys.beginLoop d fuel
            { (s.setLength s.ch.bufferId).startTransferForBuf d s.ch.bufferId with
              ch := { s.ch with
                inProgressCount := s.ch.inProgressCount + 1
                bufferId := s.ch.bufferId + 1 } } := by
          simp only [Sys.beginLoop, if_pos (hlt.mpr hcount)]
          exact if_neg hgo
        have hmore : size - count = size - (count + 1) + 1 := by omega
        obtain ⟨hstarted, hfinished⟩ := ih (count + 1)
          (s := { (s.setLength s.ch.bufferId).startTransferForBuf d s.ch.bufferId with
            ch := { s.ch with
              inProgressCount := s.ch.inProgressCount + 1
              bufferId := s.ch.bufferId + 1 } })
          hsize hnext (by omega) hzero
        rw [hloop, hstarted, hfinished]
        refine ⟨?_, ?_⟩
        · show startedBuffers (s.calls ++ [.start s.ch.bufferId.toInt]) ++ _ = _
          rw [startedBuffers_append, hb, hmore, List.range'_succ, List.map_cons,
            List.append_assoc]
          rfl
        · show finishedBuffers (s.calls ++ [.start s.ch.bufferId.toInt]) = _
          rw [finishedBuffers_append]
          exact List.append_nil _
      · have hnone : size - count = 0 := by omega
        have hloop : s.beginLoop d (fuel + 1) = s := by
          simp only [Sys.beginLoop, if_neg (fun hb' => hcount (hlt.mp hb'))]
        rw [hloop, hnone, List.range'_zero, List.map_nil, List.append_nil]
        exact ⟨rfl, rfl⟩

/-- What `begin` starts without a limit. -/
theorem begin_startedBuffers (d : ProxyDriver) (h : s.Ready) (hzero : s.obj.numTransfers = 0) :
    startedBuffers (s.begin d).calls =
        (List.range s.ch.bufferCount.toInt.toNat).map Nat.cast ∧
      finishedBuffers (s.begin d).calls = [] := by
  have hone := h.one_le
  have hsize : s.ch.bufferCount.toInt = s.ch.bufferCount.toInt.toNat := by omega
  have hloop := beginLoop_startedBuffers (d := d) s.ch.bufferCount.toNatClampNeg 0
    (s := { s with ch := { s.ch with bufferId := 0 } }) hsize rfl
    (by rw [← Int32.toNat_toInt, Nat.zero_add]) hzero
  obtain ⟨hstarted, hfinished⟩ := hloop
  refine ⟨hstarted.trans ?_, hfinished.trans ?_⟩
  · show startedBuffers s.calls ++ _ = _
    rw [h.calls, Nat.sub_zero, List.range_eq_range']
    rfl
  · show finishedBuffers s.calls = []
    rw [h.calls]
    rfl

/-- Without a limit, `first` transfers are complete and none has been started
since `begin`. -/
structure Draining (size first : Nat) (s : Sys) : Prop where
  serves : Serves size first (size - first) s
  bufferId : first < size → s.ch.bufferId.toInt = first
  numTransfers : s.obj.numTransfers = 0

/-- Without a limit `run` waits and moves on; it starts nothing. -/
theorem run_unlimited (hzero : s.obj.numTransfers = 0)
    (hstatus : (s.waitForTransfer d).1 = .PROXY_NO_ERROR) :
    s.run d = (false,
      { (s.waitForTransfer d).2 with
        ch := { (s.waitForTransfer d).2.ch with
          bufferId := ((s.waitForTransfer d).2.ch.bufferId + 1) %
            (s.waitForTransfer d).2.ch.bufferCount } }) := by
  have hnone : (s.waitForTransfer d).2.obj.numTransfers = 0 := by rw [waitForTransfer_obj, hzero]
  simp only [Sys.run, hstatus, hnone]
  simp

/-- While the ring is not empty, `run` completes the oldest transfer. -/
theorem Draining.run (h : Draining size first s)
    (hok : d.status s.proxy.finishes = .PROXY_NO_ERROR) (hmore : first < size) :
    Draining size (first + 1) (s.run d).2 := by
  have hserves : Serves size first (size - (first + 1) + 1) s := by
    have heq : size - (first + 1) + 1 = size - first := by omega
    rw [heq]
    exact h.serves
  have hsize := hserves.bufferCount
  have hlt := s.ch.bufferCount.toInt_lt
  have hbuffer : s.ch.bufferId.toInt = (first % size : Nat) := by
    rw [Nat.mod_eq_of_lt hmore]
    exact h.bufferId hmore
  obtain ⟨hstatus, hwait, hbuffer', hobj, -⟩ := hserves.wait hbuffer (by omega) hok
  rw [run_unlimited h.numTransfers hstatus]
  refine ⟨hwait.setBufferId _, fun hnext => ?_, hobj ▸ h.numTransfers⟩
  have hid := hwait.next_bufferId (by omega) (by rw [hbuffer', hbuffer])
  rw [Nat.mod_eq_of_lt hnext] at hid
  exact hid

/-- When the ring is empty, `run` does nothing any more. -/
theorem Draining.run_empty (h : Draining size size s) : Draining size size (s.run d).2 := by
  have hserves : Serves size size 0 s := by
    have hnone := h.serves
    rwa [Nat.sub_self] at hnone
  have hidle : s.ch.inProgressCount = 0 := by
    rw [eq_zero_iff_toInt, hserves.inProgressCount]
    rfl
  have hwait := waitForTransfer_idle (d := d) hidle
  rw [run_unlimited h.numTransfers (by rw [hwait]), hwait]
  exact ⟨h.serves.setBufferId _, fun hlt => absurd hlt (Nat.lt_irrefl _), h.numTransfers⟩

/-- Without a limit and without errors, the transfers that `begin` has started
are completed one in a turn, and then no more. -/
theorem Sys.Ready.thread_draining (h : s.Ready) (hzero : s.obj.numTransfers = 0)
    (hok : ∀ n, d.status n = .PROXY_NO_ERROR) (n : Nat) :
    Draining s.ch.bufferCount.toInt.toNat (min n s.ch.bufferCount.toInt.toNat)
      (s.thread d n).2 := by
  induction n with
  | zero =>
      obtain ⟨hserves, hbuffer, hobj, -⟩ := h.begin (d := d)
      have hall : beginCount s.ch.bufferCount.toInt.toNat s.obj.numTransfers.toInt =
          s.ch.bufferCount.toInt.toNat := if_pos (eq_zero_iff_toInt.mp hzero)
      rw [hall] at hserves
      rw [Nat.zero_min]
      exact ⟨hserves, fun _ => by rw [show (s.thread d 0).2 = s.begin d from rfl, hbuffer]; rfl,
        hobj ▸ hzero⟩
  | succ n ih =>
      rw [thread_succ_of_running (thread_running_of_zero hok hzero n)]
      rcases Nat.lt_or_ge n s.ch.bufferCount.toInt.toNat with hlt | hge
      · rw [Nat.min_eq_left (Nat.le_of_lt hlt)] at ih
        rw [Nat.min_eq_left hlt]
        exact ih.run (hok _) hlt
      · rw [Nat.min_eq_right hge] at ih
        rw [Nat.min_eq_right (by omega)]
        exact ih.run_empty

/-- The ring of an unlimited run after `n` calls of `run`: it is full, every
call has completed one transfer, and transfer `k` uses buffer `k % size`. -/
structure RingFull (size n : Nat) (s : Sys) : Prop where
  inProgressCount : s.ch.inProgressCount.toInt = size
  counter : s.ch.counter = Int32.ofNat n
  finishes : s.calls.countP Call.isFinish = n
  started : InOrder size (startedBuffers s.calls)
  finished : InOrder size (finishedBuffers s.calls)

/-- `begin` fills the ring. -/
theorem Sys.Ready.begin_full (h : s.Ready) (hzero : s.obj.numTransfers = 0) :
    RingFull s.ch.bufferCount.toInt.toNat 0 (s.begin d) := by
  obtain ⟨hserves, -, -, hfinishes⟩ := h.begin (d := d)
  obtain ⟨hstarted, hfinished⟩ := begin_startedBuffers d h hzero
  have hall : beginCount s.ch.bufferCount.toInt.toNat s.obj.numTransfers.toInt =
      s.ch.bufferCount.toInt.toNat := if_pos (eq_zero_iff_toInt.mp hzero)
  rw [hall] at hserves
  exact
    { inProgressCount := hserves.inProgressCount
      counter := eq_zero_iff_toInt.mpr hserves.counter
      finishes := by rw [hserves.finishes, hfinishes]
      started := by rw [hstarted]; exact inOrder_range _
      finished := by rw [hfinished]; exact inOrder_nil _ }

end Unlimited

/-- The ring of an unlimited run is full right behind `begin`, and after no
call of `run`. -/
theorem unlimited_ring_full_iff (d : ProxyDriver) (s : Sys) (h : s.Ready)
    (hzero : s.obj.numTransfers = 0) (hok : ∀ n, d.status n = .PROXY_NO_ERROR) (n : Nat) :
    (∀ m, m ≤ n → RingFull s.ch.bufferCount.toInt.toNat m (s.thread d m).2) ↔ n = 0 := by
  constructor
  · intro hfull
    by_contra hn
    have hone := (hfull 1 (Nat.one_le_iff_ne_zero.mpr hn)).inProgressCount
    have hsize := h.one_le
    rw [(h.thread_draining hzero hok 1).serves.inProgressCount] at hone
    omega
  · intro hn m hm
    rw [hn] at hm
    rw [Nat.le_zero.mp hm]
    exact h.begin_full hzero

/-- A driver that completes every transfer and leaves the buffers as they are. -/
def ProxyDriver.completing : ProxyDriver :=
  .quiet fun _ _ old => old

/-- A channel of three buffers after `init`, with the default limit. -/
def unlimitedOverThree : Sys :=
  (Sys.init { bufferSize := 3712, bufferCount := 3 } 4 (some 0) { proxy := .opened }).2

theorem unlimitedOverThree_ready : unlimitedOverThree.Ready :=
  init_ready (by decide) (by decide) rfl rfl

theorem unlimited_ring_full_three : RingFull 3 0 (unlimitedOverThree.thread .completing 0).2 :=
  (unlimited_ring_full_iff .completing unlimitedOverThree unlimitedOverThree_ready rfl
    (fun _ => rfl) 0).mpr rfl 0 (Nat.le_refl 0)

/-- One call of `run` leaves two of the three buffers in flight, and three
calls none. -/
theorem unlimited_ring_drains :
    (unlimitedOverThree.thread .completing 1).2.ch.inProgressCount = 2 ∧
      (unlimitedOverThree.thread .completing 4).2.ch.inProgressCount = 0 ∧
      (unlimitedOverThree.thread .completing 4).2.ch.counter = 3 ∧
      ¬ RingFull 3 1 (unlimitedOverThree.thread .completing 1).2 := by
  have hdraining := fun n => unlimitedOverThree_ready.thread_draining
    (d := .completing) rfl (fun _ => rfl) n
  have hone := (hdraining 1).serves.inProgressCount
  refine ⟨Int32.toInt_inj.mp hone, Int32.toInt_inj.mp (hdraining 4).serves.inProgressCount,
    Int32.toInt_inj.mp (hdraining 4).serves.counter, fun hfull => ?_⟩
  have hthree := hfull.inProgressCount
  rw [hone] at hthree
  exact absurd hthree (by decide)

/-! ## Starting and waiting in any order -/

/-- A call of the program that transmits. -/
inductive PipeCall where
  | startTransfer
  | waitForTransfer
  deriving DecidableEq, Repr

/-- The state after a call. -/
def pipeStep (d : ProxyDriver) (s : Sys) : PipeCall → Sys
  | .startTransfer => s.startTransfer d
  | .waitForTransfer => (s.waitForTransfer d).2

/-- Every `START_XFER` so far names a buffer that is not in flight, every
`FINISH_XFER` the oldest one in flight, and start `k` uses buffer
`k % size`. -/
structure BuffersInOrder (size : Nat) (s : Sys) : Prop where
  disciplined : Disciplined s.calls
  started : InOrder size (startedBuffers s.calls)

/-- Between any two starts there is a wait. -/
def WaitsBetween (calls : List PipeCall) : Prop :=
  calls.IsChain fun before after => before = .startTransfer → after = .waitForTransfer

instance (calls : List PipeCall) : Decidable (WaitsBetween calls) := by
  unfold WaitsBetween
  infer_instance

/-- The starts that `counter`, an `int`, can number.  The one behind `INT_MAX`
finds it at `INT_MIN`, which is one more good index if the number of buffers
divides it.  A single buffer needs no number. -/
def CounterLasts (size starts : Nat) : Prop :=
  size = 1 ∨ starts ≤ 2 ^ 31 ∨ (size ∣ 2 ^ 31 ∧ starts ≤ 2 ^ 31 + 1)

instance (size starts : Nat) : Decidable (CounterLasts size starts) := by
  unfold CounterLasts
  infer_instance

/-- The calls that take the buffers in their turn. -/
structure TakesTurns (size : Nat) (calls : List PipeCall) : Prop where
  waits : WaitsBetween calls
  lasts : CounterLasts size (calls.count .startTransfer)

theorem waitsBetween_concat {calls : List PipeCall} {c : PipeCall} :
    WaitsBetween (calls ++ [c]) ↔ WaitsBetween calls ∧
      (calls.getLast? = some .startTransfer → c = .waitForTransfer) := by
  unfold WaitsBetween
  rw [List.isChain_append]
  refine and_congr_right fun _ => ?_
  constructor
  · intro h hlast
    exact h.2 _ hlast _ rfl rfl
  · intro h
    refine ⟨List.isChain_singleton _, ?_⟩
    intro x hx y hy hstart
    obtain rfl : c = y := Option.some.inj hy
    exact h (hstart ▸ hx)

theorem takesTurns_nil (size : Nat) : TakesTurns size [] :=
  ⟨List.isChain_nil, Or.inr (Or.inl (Nat.zero_le _))⟩

theorem CounterLasts.of_le {size starts starts' : Nat} (h : CounterLasts size starts')
    (hle : starts ≤ starts') : CounterLasts size starts := by
  rcases h with hone | hstarts | ⟨hdvd, hstarts⟩
  · exact Or.inl hone
  · exact Or.inr (Or.inl (hle.trans hstarts))
  · exact Or.inr (Or.inr ⟨hdvd, hle.trans hstarts⟩)

theorem TakesTurns.of_concat {size : Nat} {calls : List PipeCall} {c : PipeCall}
    (h : TakesTurns size (calls ++ [c])) : TakesTurns size calls := by
  refine ⟨(waitsBetween_concat.mp h.waits).1, h.lasts.of_le ?_⟩
  rw [List.count_append]
  exact Nat.le_add_right _ _

section Pipeline

variable {d : ProxyDriver} {size : Nat} {s : Sys} {calls : List PipeCall}

/-- The remainder that C takes of a negative number. -/
theorem neg_tmod_natCast (n size : Nat) : (-(n : Int)).tmod size = -((n % size : Nat) : Int) := by
  rw [Int.neg_tmod, Int.ofNat_tmod]

/-- A `counter` that has numbered all starts gives the next one its buffer
exactly if it lasts for this one. -/
theorem startBuffer_eq_iff (hone : 1 ≤ size) (hsize : s.ch.bufferCount.toInt = size) {k : Nat}
    (hcounter : s.ch.counter = Int32.ofNat k) (hlasts : CounterLasts size k) :
    (s.ch.counter % s.ch.bufferCount).toInt = (k % size : Nat) ↔ CounterLasts size (k + 1) := by
  have hcases : size = 1 ∨ k < 2 ^ 31 ∨ k = 2 ^ 31 ∨
      (1 < size ∧ size ∣ 2 ^ 31 ∧ k = 2 ^ 31 + 1) := by
    rcases hlasts with heq | hle | ⟨hdvd, hle⟩ <;> omega
  rw [hcounter]
  rcases hcases with rfl | hlt | rfl | ⟨hmany, hdvd, rfl⟩
  · refine iff_of_true ?_ (Or.inl rfl)
    rw [Int32.toInt_mod, hsize, Nat.mod_one]
    exact Int.tmod_one _
  · exact iff_of_true (toInt_mod_of_nat (Int32.toInt_ofNat_of_lt hlt) hsize) (Or.inr (Or.inl hlt))
  · -- The counter has just passed `INT_MAX`.
    have hmin : (Int32.ofNat (2 ^ 31)).toInt = -((2 ^ 31 : Nat) : Int) := by decide
    rw [Int32.toInt_mod, hsize, hmin, neg_tmod_natCast]
    constructor
    · intro heq
      exact Or.inr (Or.inr ⟨Nat.dvd_of_mod_eq_zero (by omega), Nat.le_refl _⟩)
    · intro hnext
      have hdvd : size ∣ 2 ^ 31 := by
        rcases hnext with rfl | hle | ⟨hdvd, -⟩
        · exact Nat.one_dvd _
        · exact absurd hle (Nat.not_succ_le_self _)
        · exact hdvd
      rw [Nat.mod_eq_zero_of_dvd hdvd]
      rfl
  · have hmin : (Int32.ofNat (2 ^ 31 + 1)).toInt = -((2 ^ 31 - 1 : Nat) : Int) := by decide
    have hrem : (2 ^ 31 + 1) % size = 1 := by
      rw [Nat.add_mod, Nat.mod_eq_zero_of_dvd hdvd, Nat.zero_add, Nat.mod_mod,
        Nat.mod_eq_of_lt hmany]
    rw [Int32.toInt_mod, hsize, hmin, neg_tmod_natCast, hrem]
    refine iff_of_false (by omega) ?_
    rintro (heq | hle | ⟨-, hle⟩) <;> omega

/-- The channel behind calls with a wait between any two starts.  Behind a start
one transfer is in progress, and it is in the buffer that `start_transfer`
would take again.  Otherwise none is, and `counter` is the number of starts. -/
structure Alternating (size : Nat) (calls : List PipeCall) (s : Sys) : Prop where
  bufferCount : s.ch.bufferCount.toInt = size
  inOrder : BuffersInOrder size s
  starts : (startedBuffers s.calls).length = calls.count .startTransfer
  phase :
    (calls.getLast? ≠ some .startTransfer ∧ s.ch.inProgressCount = 0 ∧
      s.ch.counter = Int32.ofNat (calls.count .startTransfer) ∧ inFlight s.calls = []) ∨
    (calls.getLast? = some .startTransfer ∧ s.ch.inProgressCount = 1 ∧
      s.ch.counter + 1 = Int32.ofNat (calls.count .startTransfer) ∧
      s.ch.bufferId = s.ch.counter % s.ch.bufferCount ∧
      inFlight s.calls = [s.ch.bufferId.toInt])

theorem startTransfer_calls : (s.startTransfer d).calls =
    s.calls ++ [.start (s.ch.counter % s.ch.bufferCount).toInt] := rfl

theorem count_concat_start (calls : List PipeCall) :
    (calls ++ [PipeCall.startTransfer]).count .startTransfer =
      calls.count .startTransfer + 1 := by
  rw [List.count_append]
  rfl

theorem count_concat_wait (calls : List PipeCall) :
    (calls ++ [PipeCall.waitForTransfer]).count .startTransfer =
      calls.count .startTransfer := by
  rw [List.count_append]
  rfl

/-- A start in its turn finds the channel idle, and `counter` at its number. -/
theorem Alternating.startTransfer (h : Alternating size calls s) (hone : 1 ≤ size)
    (hturn : TakesTurns size (calls ++ [.startTransfer])) :
    Alternating size (calls ++ [.startTransfer]) (s.startTransfer d) := by
  have hcount := count_concat_start calls
  have hlast : calls.getLast? ≠ some .startTransfer := fun hstart =>
    PipeCall.noConfusion ((waitsBetween_concat.mp hturn.waits).2 hstart)
  obtain ⟨-, hidle, hcounter, hflight⟩ := h.phase.resolve_right fun hbusy => hlast hbusy.1
  have hnext := hturn.lasts
  rw [hcount] at hnext
  have hbuffer := (startBuffer_eq_iff hone h.bufferCount hcounter
    hturn.of_concat.lasts).mpr hnext
  refine ⟨h.bufferCount, ⟨?_, ?_⟩, ?_, Or.inr ⟨List.getLast?_concat .., ?_, ?_, rfl, ?_⟩⟩
  · rw [startTransfer_calls]
    refine disciplined_concat.mpr ⟨h.inOrder.disciplined, ?_⟩
    rw [FlightOk, hflight]
    exact List.not_mem_nil
  · rw [startTransfer_calls, startedBuffers_append]
    refine inOrder_concat.mpr ⟨h.inOrder.started, ?_⟩
    rw [h.starts]
    exact hbuffer
  · rw [startTransfer_calls, startedBuffers_append, List.length_append, h.starts, hcount]
    rfl
  · show s.ch.inProgressCount + 1 = 1
    rw [hidle]
    rfl
  · show s.ch.counter + 1 = _
    rw [hcounter, hcount, ofNat_succ]
  · rw [startTransfer_calls, inFlight_concat, hflight]
    rfl

/-- A wait, with or without a transfer in progress. -/
theorem Alternating.waitForTransfer (h : Alternating size calls s)
    (hok : ∀ n, d.status n = .PROXY_NO_ERROR) :
    Alternating size (calls ++ [.waitForTransfer]) (s.waitForTransfer d).2 := by
  have hcount := count_concat_wait calls
  have hlast : (calls ++ [PipeCall.waitForTransfer]).getLast? ≠ some .startTransfer := by
    rw [List.getLast?_concat]
    exact fun heq => PipeCall.noConfusion (Option.some.inj heq)
  rcases h.phase with ⟨-, hidle, hcounter, hflight⟩ | ⟨-, hone, hcounter, -, hflight⟩
  · rw [waitForTransfer_idle hidle]
    refine ⟨h.bufferCount, h.inOrder, ?_, Or.inl ⟨hlast, hidle, ?_, hflight⟩⟩
    · rw [hcount, h.starts]
    · rw [hcount, hcounter]
  · have hprogress : s.ch.inProgressCount ≠ 0 := by
      rw [hone]
      decide
    have hcalls : (s.waitForTransfer d).2.calls =
        s.calls ++ [.finish s.ch.bufferId.toInt .PROXY_NO_ERROR] := by
      rw [waitForTransfer_calls hprogress, hok]
    have hstarted : startedBuffers (s.waitForTransfer d).2.calls = startedBuffers s.calls := by
      rw [hcalls, startedBuffers_append]
      exact List.append_nil _
    refine ⟨?_, ⟨?_, ?_⟩, ?_, Or.inl ⟨hlast, ?_, ?_, ?_⟩⟩
    · rw [(waitForTransfer_cursor d s).2]
      exact h.bufferCount
    · rw [hcalls]
      refine disciplined_concat.mpr ⟨h.inOrder.disciplined, ?_⟩
      rw [FlightOk, hflight]
      rfl
    · rw [hstarted]
      exact h.inOrder.started
    · rw [hstarted, hcount, h.starts]
    · rw [waitForTransfer_ok hprogress (hok _)]
      show s.ch.inProgressCount - 1 = 0
      rw [hone]
      rfl
    · rw [waitForTransfer_ok hprogress (hok _), hcount]
      exact hcounter
    · rw [hcalls, inFlight_concat, hflight, flightStep, if_pos rfl, List.erase_cons_head]

/-- A start that keeps the order is in its turn: with a transfer in progress it
would take the buffer of this one. -/
theorem Alternating.takesTurns (h : Alternating size calls s) (hone : 1 ≤ size)
    (hturn : TakesTurns size calls) (hnext : BuffersInOrder size (s.startTransfer d)) :
    TakesTurns size (calls ++ [.startTransfer]) := by
  obtain ⟨hdisciplined, hstarted⟩ := hnext
  rw [startTransfer_calls] at hdisciplined hstarted
  rcases h.phase with ⟨hlast, -, hcounter, -⟩ | ⟨-, -, -, hbuffer, hflight⟩
  · refine ⟨waitsBetween_concat.mpr ⟨hturn.waits, fun hstart => absurd hstart hlast⟩, ?_⟩
    rw [startedBuffers_append] at hstarted
    have hindex := (inOrder_concat.mp hstarted).2
    rw [h.starts] at hindex
    rw [count_concat_start]
    exact (startBuffer_eq_iff hone h.bufferCount hcounter hturn.lasts).mp hindex
  · obtain ⟨-, hfree⟩ := disciplined_concat.mp hdisciplined
    rw [FlightOk, hflight, ← hbuffer] at hfree
    exact absurd (List.mem_singleton_self _) hfree

theorem TakesTurns.concat_wait (h : TakesTurns size calls) :
    TakesTurns size (calls ++ [.waitForTransfer]) := by
  refine ⟨waitsBetween_concat.mpr ⟨h.waits, fun _ => rfl⟩, ?_⟩
  rw [count_concat_wait]
  exact h.lasts

theorem Sys.Ready.alternating (h : s.Ready) :
    Alternating s.ch.bufferCount.toInt.toNat [] s where
  bufferCount := by
    have hone := h.one_le
    omega
  inOrder := by
    refine ⟨?_, ?_⟩
    · rw [h.calls]
      trivial
    · rw [h.calls]
      exact inOrder_nil _
  starts := by
    rw [h.calls]
    rfl
  phase := Or.inl ⟨(Option.some_ne_none _).symm, h.inProgressCount, h.counter,
    by rw [h.calls]; rfl⟩

end Pipeline

/-- Starts and waits in any order: every buffer is taken in its turn exactly if
there is a wait between any two starts, and there are no more starts than
`counter` can number. -/
theorem pipelined_starts_in_order_iff (d : ProxyDriver) (s : Sys) (h : s.Ready)
    (hok : ∀ n, d.status n = .PROXY_NO_ERROR) (calls : List PipeCall) :
    (∀ pre post, calls = pre ++ post →
        BuffersInOrder s.ch.bufferCount.toInt.toNat (Machine.run (pipeStep d) s pre)) ↔
      WaitsBetween calls ∧
        CounterLasts s.ch.bufferCount.toInt.toNat (calls.count .startTransfer) := by
  have hone : 1 ≤ s.ch.bufferCount.toInt.toNat := by
    have hpos := h.one_le
    omega
  have hturns : TakesTurns s.ch.bufferCount.toInt.toNat calls ↔
      ∀ pre post, calls = pre ++ post →
        BuffersInOrder s.ch.bufferCount.toInt.toNat (Machine.run (pipeStep d) s pre) := by
    refine Machine.history_iff_forall_prefix (H := Alternating s.ch.bufferCount.toInt.toNat)
      (fun _ _ h => h.of_concat) (fun _ _ h => h.inOrder) ?_ ?_ (takesTurns_nil _) h.alternating
      calls
    · intro calls s' c h' hturn
      cases c with
      | startTransfer => exact h'.startTransfer hone hturn
      | waitForTransfer => exact h'.waitForTransfer hok
    · intro calls s' c hturn h' hnext
      cases c with
      | startTransfer => exact h'.takesTurns hone hturn hnext
      | waitForTransfer => exact hturn.concat_wait
  rw [← hturns]
  exact ⟨fun h => ⟨h.waits, h.lasts⟩, fun h => ⟨h.1, h.2⟩⟩

/-- Three transfers over three buffers, one after another. -/
theorem pipelined_starts_one_by_one :
    BuffersInOrder 3 (Machine.run (pipeStep .completing) unlimitedOverThree
      [.startTransfer, .waitForTransfer, .startTransfer, .waitForTransfer, .startTransfer]) :=
  (pipelined_starts_in_order_iff .completing unlimitedOverThree unlimitedOverThree_ready
    (fun _ => rfl) _).mpr ⟨by decide, by decide⟩ _ [] (List.append_nil _).symm

/-- Two transfers started one behind the other are both in buffer 0. -/
theorem pipelined_starts_share_buffer :
    (Machine.run (pipeStep .completing) unlimitedOverThree
      [.startTransfer, .startTransfer]).calls = [.start 0, .start 0] ∧
      ¬ BuffersInOrder 3 (Machine.run (pipeStep .completing) unlimitedOverThree
        [.startTransfer, .startTransfer]) := by
  have hcalls : (Machine.run (pipeStep .completing) unlimitedOverThree
      [.startTransfer, .startTransfer]).calls = [.start 0, .start 0] := rfl
  have hsplit : (Machine.run (pipeStep .completing) unlimitedOverThree
      [.startTransfer, .startTransfer]).calls = [.start 0] ++ .start 0 :: [] := hcalls
  refine ⟨hcalls, fun horder => ?_⟩
  have hidle := horder.disciplined.start_idle hsplit
  exact hidle (List.mem_singleton_self _)

end RlsMini.Dma
