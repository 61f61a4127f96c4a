import RlsMini.Dma.Frame
import RlsMini.Lib.Machine
import RlsMini.Lib.Ring

/-!
# The ring of buffers

`begin`, `run`, `wait_for_transfer` and `start_transfer_for_buf` each move a
different one of `buffer_id`, `counter` and `in_progress_count`.  Together
they keep a ring: transfer `k` uses buffer `k % buffer_count`, and the
transfers in flight are the consecutive ones from `counter` on.

`Serves size first count s` is that invariant: the transfers below `first`
are complete and the next `count` are in flight, oldest first.  The driver's
records are part of it, since they say which transfer a buffer belongs to.
`Serves.start` and the two `Serves.wait` lemmas are the steps, and the rest of
the module follows `begin` and `run` with them.

The phases of a run are told apart by `Receiving`: with the limit `total`, the
transfers below `min total (first + size)` are started when `first` are
complete.  The same formula covers the filling, the steady and the draining
ring.
-/

namespace RlsMini.Dma

open RlsMini RlsMini.CInt

/-! ## The buffers in flight -/

/-- The effect of a call on the buffers in flight, oldest first.  Only a
transfer without error leaves them. -/
def flightStep (flight : List Int) : Call → List Int
  | .start b => flight ++ [b]
  | .finish b status => if status = .PROXY_NO_ERROR then flight.erase b else flight
  | .xfer b status => if status = .PROXY_NO_ERROR then flight else flight ++ [b]

/-- The buffers started and not yet finished without error. -/
def inFlight (calls : List Call) : List Int := Machine.run flightStep [] calls

/-- A call that starts an idle buffer or finishes the oldest one. -/
def FlightOk (flight : List Int) : Call → Prop
  | .start b => b ∉ flight
  | .finish b _ => flight.head? = some b
  | .xfer b _ => b ∉ flight

/-- Every call starts an idle buffer or finishes the oldest one. -/
def Disciplined (calls : List Call) : Prop := Machine.Along flightStep FlightOk [] calls

def Call.isStart : Call → Bool
  | .start _ => true
  | _ => false

def Call.isFinish : Call → Bool
  | .finish _ _ => true
  | _ => false

@[simp] theorem inFlight_concat (calls : List Call) (call : Call) :
    inFlight (calls ++ [call]) = flightStep (inFlight calls) call :=
  Machine.run_concat _ _ _ _

theorem disciplined_concat {calls : List Call} {call : Call} :
    Disciplined (calls ++ [call]) ↔ Disciplined calls ∧ FlightOk (inFlight calls) call :=
  Machine.along_concat

/-- Every `FINISH_XFER` of a disciplined log names the oldest buffer in
flight. -/
theorem Disciplined.finish_oldest {calls pre post : List Call} {b : Int}
    {status : ProxyStatus} (h : Disciplined calls)
    (hsplit : calls = pre ++ .finish b status :: post) : (inFlight pre).head? = some b :=
  Machine.along_iff_forall_split.mp h pre (.finish b status) post hsplit

/-- No `START_XFER` of a disciplined log names a buffer in flight. -/
theorem Disciplined.start_idle {calls pre post : List Call} {b : Int}
    (h : Disciplined calls) (hsplit : calls = pre ++ .start b :: post) : b ∉ inFlight pre :=
  Machine.along_iff_forall_split.mp h pre (.start b) post hsplit

/-- The buffers that the `START_XFER` calls name. -/
def startedBuffers (calls : List Call) : List Int :=
  calls.filterMap fun
    | .start b => some b
    | _ => none

theorem startedBuffers_append (calls calls' : List Call) :
    startedBuffers (calls ++ calls') = startedBuffers calls ++ startedBuffers calls' :=
  List.filterMap_append

/-! ## The invariant -/

/-- The transfers below `first` are complete and the next `count` are in
flight, transfer `k` in buffer `k % size`. -/
structure Serves (size first count : Nat) (s : Sys) : Prop where
  bufferCount : s.ch.bufferCount.toInt = size
  counter : s.ch.counter.toInt = first
  inProgressCount : s.ch.inProgressCount.toInt = count
  le : count ≤ size
  flight : inFlight s.calls = (Ring.slots size first count).map Nat.cast
  disciplined : Disciplined s.calls
  starts : s.calls.countP Call.isStart = first + count
  finishes : s.calls.countP Call.isFinish = s.proxy.finishes
  taken : s.proxy.starts = first + count
  busy : ∀ k, first ≤ k → k < first + count → s.proxy.busy (k % size : Nat) = true
  owner : ∀ k, first ≤ k → k < first + count → s.proxy.owner (k % size : Nat) = k

/-- The invariant reads only the `int` members it names, the calls and the
driver's records. -/
theorem Serves.congr {size first count : Nat} {s s' : Sys} (h : Serves size first count s)
    (hsize : s'.ch.bufferCount = s.ch.bufferCount) (hcounter : s'.ch.counter = s.ch.counter)
    (hcount : s'.ch.inProgressCount = s.ch.inProgressCount) (hcalls : s'.calls = s.calls)
    (hbusy : s'.proxy.busy = s.proxy.busy) (howner : s'.proxy.owner = s.proxy.owner)
    (hstarts : s'.proxy.starts = s.proxy.starts)
    (hfinishes : s'.proxy.finishes = s.proxy.finishes) : Serves size first count s' where
  bufferCount := by rw [hsize]; exact h.bufferCount
  counter := by rw [hcounter]; exact h.counter
  inProgressCount := by rw [hcount]; exact h.inProgressCount
  le := h.le
  flight := by rw [hcalls]; exact h.flight
  disciplined := by rw [hcalls]; exact h.disciplined
  starts := by rw [hcalls]; exact h.starts
  finishes := by rw [hcalls, hfinishes]; exact h.finishes
  taken := by rw [hstarts]; exact h.taken
  busy := by rw [hbusy]; exact h.busy
  owner := by rw [howner]; exact h.owner

theorem Serves.setLength {size first count : Nat} {s : Sys} (h : Serves size first count s)
    (b : Int32) : Serves size first count (s.setLength b) :=
  h.congr rfl rfl rfl rfl rfl rfl rfl rfl

/-- `buffer_id` is not part of the invariant. -/
theorem Serves.setBufferId {size first count : Nat} {s : Sys} (h : Serves size first count s)
    (b : Int32) : Serves size first count { s with ch := { s.ch with bufferId := b } } :=
  h.congr rfl rfl rfl rfl rfl rfl rfl rfl

section Steps

variable {d : ProxyDriver} {size first count : Nat} {s : Sys}

/-- `buffer_id` moves on to the slot of the next transfer. -/
theorem Serves.next_bufferId (h : Serves size first count s) (hsize : 1 ≤ size) {k : Nat}
    (hb : s.ch.bufferId.toInt = (k % size : Nat)) :
    ((s.ch.bufferId + 1) % s.ch.bufferCount).toInt = ((k + 1) % size : Nat) := by
  have hlt : k % size < size := Nat.mod_lt _ hsize
  have hmax := s.ch.bufferCount.toInt_lt
  have hcount := h.bufferCount
  have hsucc : (s.ch.bufferId + 1).toInt = (k % size + 1 : Nat) := by
    rw [toInt_add_one (by omega), hb]
    omega
  rw [toInt_mod_of_nat hsucc hcount, Nat.mod_add_mod]

/-- Starting the next transfer of the ring. -/
theorem Serves.start (h : Serves size first count s) (hcount : count < size) {b : Int32}
    (hb : b.toInt = ((first + count) % size : Nat)) :
    Serves size first (count + 1) (s.startTransferForBuf d b) := by
  have hsize := h.bufferCount
  have hlt := s.ch.bufferCount.toInt_lt
  have hprogress : (s.ch.inProgressCount + 1).toInt = (count + 1 : Nat) := by
    have hp := h.inProgressCount
    rw [toInt_add_one (by omega), hp]
    omega
  have hnew : (((first + count) % size : Nat) : Int) ∉ inFlight s.calls := by
    rw [h.flight, List.mem_map]
    rintro ⟨slot, hslot, heq⟩
    have hnat : slot = (first + count) % size := by exact_mod_cast heq
    exact Ring.next_notMem_slots hcount (hnat ▸ hslot)
  -- The new transfer takes its slot from none of the transfers in flight.
  have hother : ∀ k, first ≤ k → k < first + count →
      ((k % size : Nat) : Int) ≠ ((first + count) % size : Nat) := by
    intro k hk hk'
    exact Ring.slot_ne hcount ⟨hk, by omega⟩ ⟨by omega, by omega⟩ (by omega)
  refine
    { bufferCount := hsize
      counter := h.counter
      inProgressCount := hprogress
      le := hcount
      flight := ?_
      disciplined := ?_
      starts := ?_
      finishes := ?_
      taken := ?_
      busy := ?_
      owner := ?_ }
  · simp only [Sys.startTransferForBuf, inFlight_concat, flightStep, h.flight, hb,
      Ring.slots_concat, List.map_append, List.map_cons, List.map_nil]
  · simp only [Sys.startTransferForBuf]
    exact disciplined_concat.mpr ⟨h.disciplined, by rw [hb]; exact hnew⟩
  · simp [Sys.startTransferForBuf, Call.isStart, h.starts]
    omega
  · simpa [Sys.startTransferForBuf, Call.isFinish] using h.finishes
  · simp only [Sys.startTransferForBuf, Proxy.startXfer_starts, h.taken]
    omega
  · intro k hk hk'
    simp only [Sys.startTransferForBuf, Proxy.startXfer_busy, hb]
    split
    · rfl
    · rename_i hne
      rcases Nat.lt_or_ge k (first + count) with hlt' | hge
      · exact h.busy k hk hlt'
      · exact absurd (by rw [show k = first + count by omega]) hne
  · intro k hk hk'
    simp only [Sys.startTransferForBuf, Proxy.startXfer_owner, hb]
    rcases Nat.lt_or_ge k (first + count) with hlt' | hge
    · rw [if_neg (hother k hk hlt')]
      exact h.owner k hk hlt'
    · have hk'' : k = first + count := by omega
      rw [if_pos (by rw [hk'']), h.taken, hk'']

/-- The oldest buffer in flight is the one that `wait_for_transfer` names. -/
theorem Serves.head_flight (h : Serves size first (count + 1) s) :
    inFlight s.calls =
      ((first % size : Nat) : Int) :: (Ring.slots size (first + 1) count).map Nat.cast := by
  rw [h.flight, Ring.slots_succ, List.map_cons]

/-- The oldest transfer completes. -/
theorem Serves.finish (h : Serves size first (count + 1) s)
    (hb : s.ch.bufferId.toInt = (first % size : Nat)) (hfirst : first + 1 < 2 ^ 31)
    (hok : d.status s.proxy.finishes = .PROXY_NO_ERROR) :
    Serves size (first + 1) count
      { (s.finishXfer d).2 with
        ch := { s.ch with
          inProgressCount := s.ch.inProgressCount - 1
          counter := s.ch.counter + 1 } } := by
  have hle := h.le
  have hcounter : (s.ch.counter + 1).toInt = (first + 1 : Nat) := by
    have hc := h.counter
    rw [toInt_add_one (by omega), hc]
    omega
  have hprogress : (s.ch.inProgressCount - 1).toInt = count := by
    have hp := h.inProgressCount
    rw [toInt_sub_one (by omega), hp]
    omega
  have hother : ∀ k, first + 1 ≤ k → k < first + 1 + count →
      ((k % size : Nat) : Int) ≠ (first % size : Nat) := by
    intro k hk hk'
    have hwindow : first ≤ k ∧ k < first + (count + 1) := ⟨by omega, by omega⟩
    exact Ring.slot_ne hle hwindow ⟨by omega, by omega⟩ (by omega)
  refine
    { bufferCount := h.bufferCount
      counter := hcounter
      inProgressCount := hprogress
      le := by omega
      flight := ?_
      disciplined := ?_
      starts := ?_
      finishes := ?_
      taken := ?_
      busy := ?_
      owner := ?_ }
  · simp only [Sys.finishXfer, inFlight_concat, Proxy.finishXfer_status, hok, flightStep,
      if_true, h.head_flight, hb, List.erase_cons_head]
  · simp only [Sys.finishXfer]
    refine disciplined_concat.mpr ⟨h.disciplined, ?_⟩
    rw [FlightOk, h.head_flight, hb, List.head?_cons]
  · simp only [Sys.finishXfer, List.countP_append, h.starts]
    simp [Call.isStart]
    omega
  · simp only [Sys.finishXfer, List.countP_append, h.finishes, Proxy.finishXfer_finishes]
    simp [Call.isFinish]
  · simp only [Sys.finishXfer, Proxy.finishXfer_starts, h.taken]
    omega
  · intro k hk hk'
    simp only [Sys.finishXfer]
    rw [Proxy.finishXfer_busy hok, hb, if_neg (hother k hk hk')]
    exact h.busy k (by omega) (by omega)
  · intro k hk hk'
    simp only [Sys.finishXfer, Proxy.finishXfer_owner]
    exact h.owner k (by omega) (by omega)

/-- The oldest transfer fails: nothing moves. -/
theorem Serves.fail (h : Serves size first (count + 1) s)
    (hb : s.ch.bufferId.toInt = (first % size : Nat))
    (herr : d.status s.proxy.finishes ≠ .PROXY_NO_ERROR) :
    Serves size first (count + 1) (s.finishXfer d).2 := by
  have hproxy : (s.proxy.finishXfer d s.ch.bufferId.toInt).busy = s.proxy.busy := by
    simp [Proxy.finishXfer, herr]
  refine
    { bufferCount := h.bufferCount
      counter := h.counter
      inProgressCount := h.inProgressCount
      le := h.le
      flight := ?_
      disciplined := ?_
      starts := ?_
      finishes := ?_
      taken := ?_
      busy := ?_
      owner := ?_ }
  · simpa only [Sys.finishXfer, inFlight_concat, Proxy.finishXfer_status, flightStep,
      if_neg herr] using h.flight
  · simp only [Sys.finishXfer]
    refine disciplined_concat.mpr ⟨h.disciplined, ?_⟩
    rw [FlightOk, h.head_flight, hb, List.head?_cons]
  · simp only [Sys.finishXfer, List.countP_append, h.starts]
    simp [Call.isStart]
  · simp only [Sys.finishXfer, List.countP_append, h.finishes, Proxy.finishXfer_finishes]
    simp [Call.isFinish]
  · simpa only [Sys.finishXfer, Proxy.finishXfer_starts] using h.taken
  · simpa only [Sys.finishXfer, hproxy] using h.busy
  · simpa only [Sys.finishXfer, Proxy.finishXfer_owner] using h.owner

/-! ## `wait_for_transfer` on the ring -/

theorem Serves.inProgressCount_ne_zero (h : Serves size first (count + 1) s) :
    s.ch.inProgressCount ≠ 0 := by
  rw [ne_eq, eq_zero_iff_toInt, h.inProgressCount]
  omega

/-- `wait_for_transfer` without error. -/
theorem Serves.wait (h : Serves size first (count + 1) s)
    (hb : s.ch.bufferId.toInt = (first % size : Nat)) (hfirst : first + 1 < 2 ^ 31)
    (hok : d.status s.proxy.finishes = .PROXY_NO_ERROR) :
    (s.waitForTransfer d).1 = .PROXY_NO_ERROR ∧
      Serves size (first + 1) count (s.waitForTransfer d).2 ∧
      (s.waitForTransfer d).2.ch.bufferId = s.ch.bufferId ∧
      (s.waitForTransfer d).2.obj = s.obj ∧
      (s.waitForTransfer d).2.proxy.finishes = s.proxy.finishes + 1 := by
  have hframe := frame_received d s
  rw [waitForTransfer_ok h.inProgressCount_ne_zero hok]
  refine ⟨rfl, ?_, rfl, hframe.obj, ?_⟩
  · exact (h.finish hb hfirst hok).congr rfl rfl rfl hframe.calls hframe.busy hframe.owner
      hframe.starts hframe.finishes
  · exact hframe.finishes.trans Proxy.finishXfer_finishes

/-- `wait_for_transfer` with an error. -/
theorem Serves.wait_error (h : Serves size first (count + 1) s)
    (hb : s.ch.bufferId.toInt = (first % size : Nat))
    (herr : d.status s.proxy.finishes ≠ .PROXY_NO_ERROR) :
    (s.waitForTransfer d).1 ≠ .PROXY_NO_ERROR ∧
      Serves size first (count + 1) (s.waitForTransfer d).2 ∧
      (s.waitForTransfer d).2.ch = s.ch ∧
      (s.waitForTransfer d).2.obj = s.obj := by
  rw [waitForTransfer_error h.inProgressCount_ne_zero herr]
  exact ⟨herr, h.fail hb herr, rfl, rfl⟩

end Steps

/-! ## `begin` -/

/-- A channel on which no transfer has been made: `counter` and
`in_progress_count` have their initial values, and the driver has no call on
record. -/
structure Sys.Ready (s : Sys) : Prop where
  bufferCount : 1 ≤ s.ch.bufferCount
  counter : s.ch.counter = 0
  inProgressCount : s.ch.inProgressCount = 0
  calls : s.calls = []
  starts : s.proxy.starts = 0
  finishes : s.proxy.finishes = 0

/-- The buffers that `begin` starts: all of them without a limit, else as many
as the limit asks for.  The loop tests the limit after a start, so it always
starts one. -/
def beginCount (size : Nat) (limit : Int) : Nat :=
  if limit = 0 then size else min size (max limit 1).toNat

/-- The loop of `begin` runs out of buffers. -/
theorem beginCount_eq_size {size : Nat} {limit : Int}
    (hmore : limit ≠ 0 → (size : Int) < max limit 1) : beginCount size limit = size := by
  unfold beginCount
  split
  · rfl
  · rename_i hlimit
    have := hmore hlimit
    omega

/-- The loop of `begin` meets the limit. -/
theorem beginCount_eq_succ {size count : Nat} {limit : Int} (hlimit : limit ≠ 0)
    (hmore : (count : Int) < max limit 1) (hmet : limit ≤ (count + 1 : Nat))
    (hcount : count < size) : beginCount size limit = count + 1 := by
  unfold beginCount
  rw [if_neg hlimit]
  omega

section Begin

variable {d : ProxyDriver} {size : Nat}

theorem Sys.Ready.serves {s : Sys} (h : s.Ready) :
    Serves s.ch.bufferCount.toInt.toNat 0 0 s where
  bufferCount := by
    have hle := Int32.le_iff_toInt_le.mp h.bufferCount
    rw [Int32.toInt_one] at hle
    omega
  counter := by rw [h.counter]; rfl
  inProgressCount := by rw [h.inProgressCount]; rfl
  le := Nat.zero_le _
  flight := by rw [h.calls]; rfl
  disciplined := by rw [h.calls]; trivial
  starts := by rw [h.calls]; rfl
  finishes := by rw [h.calls, h.finishes]; rfl
  taken := h.starts
  busy := fun k hk hk' => absurd hk' (by omega)
  owner := fun k hk hk' => absurd hk' (by omega)

/-- The loop of `begin`, with `count` buffers started: `buffer_id` is the next
one.  The induction is on the fuel, which covers the buffers left. -/
theorem beginLoop_serves (fuel count : Nat) {s : Sys} (h : Serves size 0 count s)
    (hb : s.ch.bufferId.toInt = count) (hfuel : size ≤ count + fuel)
    (hmore : s.obj.numTransfers.toInt ≠ 0 → (count : Int) < max s.obj.numTransfers.toInt 1) :
    Serves size 0 (beginCount size s.obj.numTransfers.toInt) (s.beginLoop d fuel) ∧
      (s.beginLoop d fuel).obj = s.obj ∧
      (s.beginLoop d fuel).proxy.finishes = s.proxy.finishes := by
  have hle := h.le
  induction fuel generalizing s count with
  | zero =>
      obtain rfl : count = size := by omega
      rw [beginCount_eq_size hmore]
      exact ⟨h, rfl, rfl⟩
  | succ fuel ih =>
      have hlt : s.ch.bufferId < s.ch.bufferCount ↔ count < size := by
        rw [Int32.lt_iff_toInt_lt, hb, h.bufferCount, Int.ofNat_lt]
      by_cases hcount : count < size
      · have hstart : Serves size 0 (count + 1)
            ((s.setLength s.ch.bufferId).startTransferForBuf d s.ch.bufferId) :=
          (h.setLength _).start hcount
            (by rw [hb, Nat.zero_add, Nat.mod_eq_of_lt hcount])
        have hnext : (s.ch.bufferId + 1).toInt = (count + 1 : Nat) := by
          have hsize := h.bufferCount
          have hmax := s.ch.bufferCount.toInt_lt
          rw [toInt_add_one (by omega), hb]
          omega
        have hlimit : s.obj.numTransfers ≠ 0 ↔ s.obj.numTransfers.toInt ≠ 0 :=
          not_congr eq_zero_iff_toInt
        have hmet : (s.ch.inProgressCount + 1 ≥ s.obj.numTransfers) ↔
            s.obj.numTransfers.toInt ≤ (count + 1 : Nat) := by
          have hprogress : (s.ch.inProgressCount + 1).toInt = (count + 1 : Nat) :=
            hstart.inProgressCount
          rw [ge_iff_le, Int32.le_iff_toInt_le, hprogress]
        simp only [Sys.beginLoop, if_pos (hlt.mpr hcount)]
        split
        · rename_i hstop
          have hstop' := hlimit.mp hstop.1
          rw [beginCount_eq_succ hstop' (hmore hstop') (hmet.mp hstop.2) hcount]
          exact ⟨hstart, rfl, rfl⟩
        · rename_i hgo
          refine ih (count + 1) (hstart.setBufferId _) hnext (by omega) ?_ hstart.le
          intro hne
          have hnot : ¬ s.obj.numTransfers.toInt ≤ (count + 1 : Nat) :=
            fun hle' => hgo ⟨hlimit.mpr hne, hmet.mpr hle'⟩
          have := Int.not_le.mp hnot
          exact lt_of_lt_of_le this (le_max_left _ _)
      · obtain rfl : count = size := by omega
        have hloop : s.beginLoop d (fuel + 1) = s := by
          simp only [Sys.beginLoop, if_neg (fun hb' => hcount (hlt.mp hb'))]
        rw [hloop, beginCount_eq_size hmore]
        exact ⟨h, rfl, rfl⟩

/-- What `begin` leaves: the first buffers of the ring are started and
`buffer_id` names the oldest one. -/
theorem Sys.Ready.begin {s : Sys} (h : s.Ready) :
    Serves s.ch.bufferCount.toInt.toNat 0
        (beginCount s.ch.bufferCount.toInt.toNat s.obj.numTransfers.toInt) (s.begin d) ∧
      (s.begin d).ch.bufferId = 0 ∧ (s.begin d).obj = s.obj ∧
      (s.begin d).proxy.finishes = 0 := by
  have hserves := h.serves.setBufferId 0
  have hfuel : s.ch.bufferCount.toInt.toNat ≤ 0 + s.ch.bufferCount.toNatClampNeg := by
    rw [Nat.zero_add, ← Int32.toNat_toInt]
  obtain ⟨hloop, hobj, hfinishes⟩ :=
    beginLoop_serves (d := d) _ 0 hserves rfl hfuel (fun _ => by omega)
  exact ⟨hloop.setBufferId 0, rfl, hobj, hfinishes.trans h.finishes⟩

end Begin

end RlsMini.Dma
