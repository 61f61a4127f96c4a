import RlsMini.Dma.Api
import RlsMini.Dma.Lockstep

/-!
# Two ways to transfer

`single_transfer_all_bufs` makes one blocking transfer with each buffer of the
ring.  The transmit loop starts a transfer and waits for it, again and again,
and takes the buffer from its counter.

The two do the same to the device, the buffers and the counters as long as no
transfer fails.  `wait_for_transfer` looks at the status, and
`single_transfer_all_bufs` does not: behind a failure they part for good
(`blocking_agrees_iff`).
-/

namespace RlsMini.Dma

open RlsMini.CInt

/-! ## The two ways -/

namespace Sys

variable (d : ProxyDriver)

/-- The body of the loop of `single_transfer_all_bufs`. -/
def transferOne (s : Sys) : Sys :=
  let s := (s.setLength s.ch.bufferId).xfer d
  { s with ch := { s.ch with counter := s.ch.counter + 1, bufferId := s.ch.bufferId + 1 } }

/-- `start_transfer` and then `wait_for_transfer`. -/
def startAndWait (s : Sys) : Sys := ((s.startTransfer d).waitForTransfer d).2

end Sys

/-- The transfers that a call starts and finishes: `XFER` does both. -/
def Call.halves : Call → List Call
  | .start b => [.start b]
  | .finish b status => [.finish b status]
  | .xfer b status => [.start b, .finish b status]

/-- The shared region, the counters, and what has been asked of the driver are
the same. -/
structure Agree (s t : Sys) : Prop where
  proxy : s.proxy = t.proxy
  counter : s.ch.counter = t.ch.counter
  inProgressCount : s.ch.inProgressCount = t.ch.inProgressCount
  calls : s.calls.flatMap Call.halves = t.calls.flatMap Call.halves

/-! ## One transfer -/

section Transfer

variable {d : ProxyDriver} {size i : Nat} {s t : Sys}

/-- A length that is set already. -/
theorem Proxy.setLength_self {p : Proxy} {b : Int} {length : UInt32}
    (h : (p.states b).length = length) : p.setLength b length = p := by
  have hstates : (fun x => if x = b then { p.states b with length := length } else p.states x) =
      p.states := by
    funext x
    split
    · rename_i heq
      rw [heq, ← h]
    · rfl
  unfold Proxy.setLength
  rw [hstates]

/-- A transfer leaves the lengths alone. -/
theorem Proxy.finishXfer_length (d : ProxyDriver) (p : Proxy) (b x : Int) :
    ((p.finishXfer d b).states x).length = (p.states x).length := by
  have hstates : ∀ status, (if x = b then { p.states b with status := status }
      else p.states x).length = (p.states x).length := by
    intro status
    split
    · rename_i heq
      rw [heq]
    · rfl
  simp only [Proxy.finishXfer]
  split
  · exact hstates _
  · exact hstates _

/-- The lengths of the ring are set. -/
def LengthsReady (size : Nat) (s : Sys) : Prop :=
  ∀ b, IsBuffer size b → (s.proxy.states b).length = s.ch.bufferSize.toUInt32

theorem LengthsReady.transferOne (h : LengthsReady size s)
    (hb : IsBuffer size s.ch.bufferId.toInt) :
    (s.transferOne d).proxy =
        (s.proxy.startXfer d s.ch.bufferId.toInt).finishXfer d s.ch.bufferId.toInt ∧
      LengthsReady size (s.transferOne d) := by
  have hself : s.proxy.setLength s.ch.bufferId.toInt s.ch.bufferSize.toUInt32 = s.proxy :=
    Proxy.setLength_self (h _ hb)
  have hproxy : (s.transferOne d).proxy =
      (s.proxy.startXfer d s.ch.bufferId.toInt).finishXfer d s.ch.bufferId.toInt := by
    show ((s.proxy.setLength s.ch.bufferId.toInt s.ch.bufferSize.toUInt32).startXfer d _).finishXfer
      d _ = _
    rw [hself]
    rfl
  refine ⟨hproxy, fun b hb' => ?_⟩
  rw [hproxy, Proxy.finishXfer_length]
  exact h b hb'

/-- Two channels of one ring that agree, with `i` transfers complete and none
in progress. -/
structure Paired (size i : Nat) (s t : Sys) : Prop extends Agree s t where
  bufferCount : s.ch.bufferCount.toInt = size
  bufferCount_eq : t.ch.bufferCount = s.ch.bufferCount
  lengths : LengthsReady size s
  unsaved : t.obj.flagSaveBuf = false
  completed : s.ch.counter.toInt = i
  idle : s.ch.inProgressCount = 0
  finishes : s.proxy.finishes = i

/-- A transfer without error, made in both ways. -/
theorem Paired.transfer (h : Paired size i s t) (hsize : 0 < size)
    (hcursor : s.ch.bufferId.toInt = (i % size : Nat)) (hi : i + 1 < 2 ^ 31)
    (hok : d.status i = .PROXY_NO_ERROR) :
    Paired size (i + 1) (s.transferOne d) (t.startAndWait d) := by
  have hb : IsBuffer size s.ch.bufferId.toInt := by
    have hlt := Nat.mod_lt i hsize
    unfold IsBuffer
    omega
  obtain ⟨hproxy, hlengths⟩ := h.lengths.transferOne (d := d) hb
  -- `start_transfer` takes the same buffer.
  have hindex : (t.ch.counter % t.ch.bufferCount).toInt = s.ch.bufferId.toInt := by
    rw [← h.counter, h.bufferCount_eq, toInt_mod_of_nat h.completed h.bufferCount, hcursor]
  have hstarted : (t.startTransfer d).proxy = s.proxy.startXfer d s.ch.bufferId.toInt := by
    show t.proxy.startXfer d (t.ch.counter % t.ch.bufferCount).toInt = _
    rw [hindex, h.proxy]
  have hprogress : (t.startTransfer d).ch.inProgressCount = 1 := by
    show t.ch.inProgressCount + 1 = 1
    rw [← h.inProgressCount, h.idle]
    rfl
  have hne : (t.startTransfer d).ch.inProgressCount ≠ 0 := by
    rw [hprogress]
    decide
  have hfinishes : (t.startTransfer d).proxy.finishes = i := by
    rw [hstarted, Proxy.startXfer_finishes, h.finishes]
  have hwait := waitForTransfer_ok hne (by rw [hfinishes]; exact hok)
  have hreceived : (t.startTransfer d).received d = ((t.startTransfer d).finishXfer d).2 :=
    if_neg (by
      show ¬ t.obj.flagSaveBuf = true
      rw [h.unsaved]
      exact Bool.false_ne_true)
  have hsplit : (t.startAndWait d).proxy =
      (s.proxy.startXfer d s.ch.bufferId.toInt).finishXfer d s.ch.bufferId.toInt := by
    rw [Sys.startAndWait, hwait, hreceived]
    show (t.startTransfer d).proxy.finishXfer d (t.ch.counter % t.ch.bufferCount).toInt = _
    rw [hindex, hstarted]
  have hcounter : (t.startAndWait d).ch.counter = t.ch.counter + 1 := by
    rw [Sys.startAndWait, hwait]
    rfl
  have hidle : (t.startAndWait d).ch.inProgressCount = 0 := by
    rw [Sys.startAndWait, hwait]
    show (t.startTransfer d).ch.inProgressCount - 1 = 0
    rw [hprogress]
    rfl
  have hcalls : (t.startAndWait d).calls =
      t.calls ++ [.start s.ch.bufferId.toInt] ++ [.finish s.ch.bufferId.toInt (d.status i)] := by
    rw [Sys.startAndWait, waitForTransfer_calls hne, hfinishes]
    show t.calls ++ [.start (t.ch.counter % t.ch.bufferCount).toInt] ++
      [.finish (t.ch.counter % t.ch.bufferCount).toInt (d.status i)] = _
    rw [hindex]
  have hxfer : (s.transferOne d).calls = s.calls ++ [.xfer s.ch.bufferId.toInt (d.status i)] := by
    show s.calls ++ [.xfer s.ch.bufferId.toInt
      ((s.transferOne d).proxy.states s.ch.bufferId.toInt).status] = _
    rw [hproxy, Proxy.finishXfer_status, Proxy.startXfer_finishes, h.finishes]
  refine
    { proxy := hproxy.trans hsplit.symm
      counter := ?_
      inProgressCount := h.idle.trans hidle.symm
      calls := ?_
      bufferCount := h.bufferCount
      bufferCount_eq := (waitForTransfer_cursor d (t.startTransfer d)).2.trans h.bufferCount_eq
      lengths := hlengths
      unsaved := ?_
      completed := ?_
      idle := h.idle
      finishes := ?_ }
  · rw [hcounter, ← h.counter]
    rfl
  · rw [hxfer, hcalls, List.append_assoc, List.flatMap_append, List.flatMap_append, h.calls]
    rfl
  · have hobj : (t.startAndWait d).obj = t.obj := waitForTransfer_obj
    rw [hobj]
    exact h.unsaved
  · show (s.ch.counter + 1).toInt = _
    have hlt := h.completed
    rw [toInt_add_one (by omega)]
    omega
  · rw [hproxy, Proxy.finishXfer_finishes, Proxy.startXfer_finishes, h.finishes]

end Transfer

/-! ## A pass over the ring -/

section Pass

variable {d : ProxyDriver} {size : Nat}

/-- The rule of the loop: what is kept from buffer to buffer holds behind the
last one. -/
theorem singleTransferLoop_rule {P : Nat → Sys → Prop}
    (hcursor : ∀ j s, P j s → s.ch.bufferCount.toInt = size ∧ s.ch.bufferId.toInt = j)
    (hstep : ∀ j s, j < size → P j s → P (j + 1) (s.transferOne d)) (fuel : Nat) {j : Nat}
    {s : Sys} (hj : j ≤ size) (hfuel : size ≤ j + fuel) (h : P j s) :
    P size (s.singleTransferLoop d fuel) := by
  induction fuel generalizing j s with
  | zero =>
      obtain rfl : j = size := by omega
      exact h
  | succ fuel ih =>
      obtain ⟨hcount, hid⟩ := hcursor j s h
      have hlt : s.ch.bufferId < s.ch.bufferCount ↔ j < size := by
        rw [Int32.lt_iff_toInt_lt, hid, hcount, Int.ofNat_lt]
      by_cases hmore : j < size
      · have hloop : s.singleTransferLoop d (fuel + 1) =
            (s.transferOne d).singleTransferLoop d fuel := by
          simp only [Sys.singleTransferLoop, if_pos (hlt.mpr hmore)]
          rfl
        rw [hloop]
        exact ih hmore (by omega) (hstep j s hmore h)
      · obtain rfl : j = size := by omega
        have hloop : s.singleTransferLoop d (fuel + 1) = s := by
          simp only [Sys.singleTransferLoop, if_neg (fun hb => hmore (hlt.mp hb))]
        rw [hloop]
        exact h

/-- The rule of a pass. -/
theorem singleTransferAllBufs_rule (size : Nat) {P : Nat → Sys → Prop}
    (hcursor : ∀ j s, P j s → s.ch.bufferCount.toInt = size ∧ s.ch.bufferId.toInt = j)
    (hstep : ∀ j s, j < size → P j s → P (j + 1) (s.transferOne d)) {s : Sys}
    (h : P 0 { s with ch := { s.ch with bufferId := 0 } }) :
    P size (s.singleTransferAllBufs d) := by
  have hcount : s.ch.bufferCount.toInt = size := (hcursor 0 _ h).1
  refine singleTransferLoop_rule hcursor hstep _ (Nat.zero_le size) ?_ h
  rw [← Int32.toNat_toInt, hcount]
  omega

/-- A cursor moves on by one buffer. -/
theorem toInt_bufferId_transferOne {s : Sys} {j : Nat} (hcount : s.ch.bufferCount.toInt = size)
    (hid : s.ch.bufferId.toInt = j) (hj : j < size) :
    (s.transferOne d).ch.bufferId.toInt = (j + 1 : Nat) := by
  have hmax := s.ch.bufferCount.toInt_lt
  show (s.ch.bufferId + 1).toInt = _
  rw [toInt_add_one (by omega), hid]
  omega

/-- A pass counts one transfer for each buffer, whatever their statuses. -/
theorem counter_singleTransferAllBufs {s : Sys} (hcount : s.ch.bufferCount.toInt = size) :
    (s.singleTransferAllBufs d).ch.counter = s.ch.counter + Int32.ofNat size ∧
      (s.singleTransferAllBufs d).ch.bufferCount = s.ch.bufferCount := by
  have hrule := singleTransferAllBufs_rule (d := d) size (s := s)
    (P := fun j t => (t.ch.counter = s.ch.counter + Int32.ofNat j ∧
      t.ch.bufferCount = s.ch.bufferCount) ∧ t.ch.bufferId.toInt = j)
    (fun j t h => ⟨h.1.2 ▸ hcount, h.2⟩) ?_ ?_
  · exact hrule.1
  · intro j t hj h
    refine ⟨⟨?_, h.1.2⟩, toInt_bufferId_transferOne (h.1.2 ▸ hcount) h.2 hj⟩
    show t.ch.counter + 1 = _
    rw [h.1.1, ofNat_succ, Int32.add_assoc]
  · exact ⟨⟨(Int32.add_zero _).symm, rfl⟩, rfl⟩

/-- A pass without an error, made in both ways. -/
theorem Paired.pass {m : Nat} {s t : Sys} (h : Paired size (m * size) s t) (hsize : 0 < size)
    (hmax : (m + 1) * size < 2 ^ 31)
    (hok : ∀ k, k < (m + 1) * size → d.status k = .PROXY_NO_ERROR) :
    Paired size ((m + 1) * size) (s.singleTransferAllBufs d) ((Sys.startAndWait d)^[size] t) := by
  have hsucc : (m + 1) * size = m * size + size := Nat.succ_mul m size
  have hrule := singleTransferAllBufs_rule (d := d) size (s := s)
    (P := fun j s' => Paired size (m * size + j) s' ((Sys.startAndWait d)^[j] t) ∧
      s'.ch.bufferId.toInt = j)
    (fun j s' h => ⟨h.1.bufferCount, h.2⟩) ?_ ?_
  · rw [hsucc]
    exact hrule.1
  · intro j s' hj h
    obtain ⟨hpaired, hid⟩ := h
    refine ⟨?_, toInt_bufferId_transferOne hpaired.bufferCount hid hj⟩
    rw [Function.iterate_succ_apply']
    refine hpaired.transfer hsize ?_ (by omega) (hok _ (by omega))
    rw [hid, Nat.mul_add_mod', Nat.mod_eq_of_lt hj]
  · exact ⟨{ h with }, rfl⟩

end Pass

/-! ## Runs -/

section Runs

variable {d : ProxyDriver} {size : Nat}

/-- The loop of `init` sets the lengths of all buffers from the cursor on. -/
theorem initLoop_lengthsReady (fuel : Nat) {s : Sys} {j : Nat}
    (hcount : s.ch.bufferCount.toInt = size) (hid : s.ch.bufferId.toInt = j)
    (hfuel : size ≤ j + fuel) (hset : ∀ b, IsBuffer size b → b < j →
      (s.proxy.states b).length = s.ch.bufferSize.toUInt32) :
    LengthsReady size (s.initLoop fuel) := by
  induction fuel generalizing s j with
  | zero => exact fun b hb => hset b hb (by unfold IsBuffer at hb; omega)
  | succ fuel ih =>
      have hlt : s.ch.bufferId < s.ch.bufferCount ↔ j < size := by
        rw [Int32.lt_iff_toInt_lt, hid, hcount, Int.ofNat_lt]
      by_cases hmore : j < size
      · have hmax := s.ch.bufferCount.toInt_lt
        have hnext : (s.ch.bufferId + 1).toInt = (j + 1 : Nat) := by
          rw [toInt_add_one (by omega), hid]
          omega
        simp only [Sys.initLoop, if_pos (hlt.mpr hmore)]
        refine ih hcount hnext (by omega) fun b hb hbj => ?_
        show (if b = s.ch.bufferId.toInt then _ else s.proxy.states b).length = _
        split
        · rfl
        · exact hset b hb (by omega)
      · simp only [Sys.initLoop, if_neg (fun hb => hmore (hlt.mp hb))]
        exact fun b hb => hset b hb (by unfold IsBuffer at hb; omega)

/-- A channel that has just been set up, which saves nothing. -/
def blockingStart (cfg : ChConfig) (fd : Int32) (ptr : Nat) (ram : Ram) : Sys :=
  (Sys.init cfg fd (some ptr) { proxy := { Proxy.opened with ram := ram } }).2

/-- The channel agrees with itself. -/
theorem blockingStart_paired {cfg : ChConfig} {fd : Int32} (ptr : Nat) (ram : Ram) (hfd : 1 ≤ fd)
    (hcount : cfg.bufferCount.toInt = size) :
    Paired size 0 (blockingStart cfg fd ptr ram) (blockingStart cfg fd ptr ram) := by
  have hset := initLoop_lengthsSet cfg.bufferCount.toNatClampNeg
    (Sys.mapped cfg fd ptr { Proxy.opened with ram := ram })
  have hlengths := initLoop_lengthsReady cfg.bufferCount.toNatClampNeg (j := 0)
    (s := Sys.mapped cfg fd ptr { Proxy.opened with ram := ram }) hcount rfl
    (by rw [← Int32.toNat_toInt, hcount]; omega)
    (fun b hb hneg => by unfold IsBuffer at hb; omega)
  unfold blockingStart
  rw [init_eq hfd]
  exact
    { proxy := rfl
      counter := rfl
      inProgressCount := rfl
      calls := rfl
      bufferCount := by rw [hset.bufferCount]; exact hcount
      bufferCount_eq := rfl
      lengths := hlengths
      unsaved := by rw [hset.obj]; rfl
      completed := by rw [hset.counter]; rfl
      idle := hset.inProgressCount
      finishes := hset.finishes }

theorem blockingStart_behind (cfg : ChConfig) (fd : Int32) (ptr : Nat) (ram : Ram) :
    Behind d 0 (blockingStart cfg fd ptr ram) := by
  have hinit := init_frame cfg fd (some ptr) { proxy := { Proxy.opened with ram := ram } }
  exact ⟨hinit.inProgressCount, hinit.counter, hinit.finishes⟩

/-- The counters behind any number of rounds of `start_transfer` and
`wait_for_transfer`. -/
theorem Behind.rounds {s : Sys} (h : Behind d 0 s) {n : Nat} (hn : n < 2 ^ 32) :
    Behind d n ((Sys.startAndWait d)^[n] s) := by
  induction n with
  | zero => exact h
  | succ n ih =>
      rw [Function.iterate_succ_apply']
      exact (ih (by omega)).transfer hn

/-- The counter behind any number of passes. -/
theorem counter_passes {s : Sys} (hcount : s.ch.bufferCount.toInt = size) (n : Nat) :
    ((Sys.singleTransferAllBufs d)^[n] s).ch.counter =
        s.ch.counter + Int32.ofNat (n * size) ∧
      ((Sys.singleTransferAllBufs d)^[n] s).ch.bufferCount = s.ch.bufferCount := by
  induction n with
  | zero =>
      rw [Nat.zero_mul]
      exact ⟨(Int32.add_zero _).symm, rfl⟩
  | succ n ih =>
      obtain ⟨hcounter, hsame⟩ := ih
      have hcount' : ((Sys.singleTransferAllBufs d)^[n] s).ch.bufferCount.toInt = size :=
        hsame ▸ hcount
      obtain ⟨hnext, hkeep⟩ := counter_singleTransferAllBufs (d := d) hcount'
      rw [Function.iterate_succ_apply', hnext, hkeep, hcounter, Nat.succ_mul, Int32.ofNat_add,
        Int32.add_assoc]
      exact ⟨rfl, hsame⟩

/-- Passes without an error. -/
theorem Paired.passes {s t : Sys} (h : Paired size 0 s t) (hsize : 0 < size) {n : Nat}
    (hmax : n * size < 2 ^ 31) (hok : ∀ k, k < n * size → d.status k = .PROXY_NO_ERROR) :
    Paired size (n * size) ((Sys.singleTransferAllBufs d)^[n] s)
      ((Sys.startAndWait d)^[n * size] t) := by
  induction n with
  | zero =>
      rw [Nat.zero_mul]
      exact h
  | succ n ih =>
      have hsucc : (n + 1) * size = n * size + size := Nat.succ_mul n size
      have hbefore := ih (by omega) fun k hk => hok k (by omega)
      have hrounds : (Sys.startAndWait d)^[(n + 1) * size] t =
          (Sys.startAndWait d)^[size] ((Sys.startAndWait d)^[n * size] t) := by
        rw [hsucc, Nat.add_comm, Function.iterate_add_apply]
      rw [Function.iterate_succ_apply', hrounds]
      exact hbefore.pass hsize hmax hok

end Runs

/-- `n` calls of `single_transfer_all_bufs` do the same as `n` rings of
`start_transfer` and `wait_for_transfer` exactly if none of the transfers
fails. -/
theorem blocking_agrees_iff (d : ProxyDriver) (cfg : ChConfig) (fd : Int32) (ptr : Nat)
    (ram : Ram) {size : Nat} (hfd : 1 ≤ fd) (hsize : 1 ≤ size)
    (hcount : cfg.bufferCount.toInt = size) (n : Nat) (hmax : n * size < 2 ^ 31) :
    Agree ((Sys.singleTransferAllBufs d)^[n] (blockingStart cfg fd ptr ram))
        ((Sys.startAndWait d)^[n * size] (blockingStart cfg fd ptr ram)) ↔
      ∀ k, k < n * size → d.status k = .PROXY_NO_ERROR := by
  have hpaired := blockingStart_paired ptr ram hfd hcount
  constructor
  · intro hagree
    have hbehind : Behind d (n * size) _ :=
      (blockingStart_behind cfg fd ptr ram).rounds (by omega)
    have hpasses := (counter_passes (d := d) hpaired.bufferCount n).1
    have hzero : (blockingStart cfg fd ptr ram).ch.counter = 0 := by
      rw [← Int32.toInt_inj, hpaired.completed]
      rfl
    have hcounter := hagree.counter
    rw [hpasses, hbehind.counter, hzero, Int32.zero_add, ← Int32.toInt_inj,
      Int32.toInt_ofNat_of_lt (by omega), Int32.toInt_ofNat_of_lt (by omega)] at hcounter
    have hle := d.errors_le (n * size)
    exact (d.errors_eq_zero_iff (n * size)).mp (by omega)
  · intro hok
    exact (hpaired.passes hsize hmax hok).toAgree

/-- Two passes over the transmit ring of a driver that reports no error. -/
theorem blocking_agrees_reader :
    Agree ((Sys.singleTransferAllBufs .reader)^[2] (blockingStart (txConfig 3 0) 4 0 fun _ => 0))
        ((Sys.startAndWait .reader)^[2 * 3] (blockingStart (txConfig 3 0) 4 0 fun _ => 0)) ↔
      ∀ k, k < 2 * 3 → (ProxyDriver.reader).status k = .PROXY_NO_ERROR :=
  blocking_agrees_iff .reader (txConfig 3 0) 4 0 (fun _ => 0) (by decide) (by decide) rfl 2
    (by decide)

end RlsMini.Dma
