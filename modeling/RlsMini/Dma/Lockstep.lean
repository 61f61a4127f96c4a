import RlsMini.Dma.Transmit

/-!
# The eight transmit channels side by side

In every iteration `main` starts a transfer on each channel and waits for it.
`wait_for_transfer` returns before it moves the two counters when the driver
reports an error, and `main` does not look at its result.  The channel then
counts one transfer in progress for good, and it is one completed transfer
behind the others.

`Behind d i s` gives both counters of a channel after `i` iterations in terms
of the errors its driver has reported.  What the eight channels have in common
is read off it.
-/

namespace RlsMini.Dma

open RlsMini.CInt

/-! ## Errors of a driver -/

/-- The errors among the first `n` statuses of a driver. -/
def ProxyDriver.errors (d : ProxyDriver) (n : Nat) : Nat :=
  (List.range n).countP fun k => d.status k ≠ .PROXY_NO_ERROR

namespace ProxyDriver

variable (d : ProxyDriver)

theorem errors_succ (n : Nat) :
    d.errors (n + 1) = d.errors n + if d.status n = .PROXY_NO_ERROR then 0 else 1 := by
  rw [errors, List.range_succ, List.countP_append, List.countP_singleton]
  by_cases hok : d.status n = .PROXY_NO_ERROR
  · rw [if_neg (by simp [hok]), if_pos hok]
    rfl
  · rw [if_pos (by simp [hok]), if_neg hok]
    rfl

theorem errors_le (n : Nat) : d.errors n ≤ n := by
  have hle : d.errors n ≤ (List.range n).length := List.countP_le_length
  rwa [List.length_range] at hle

theorem errors_eq_zero_iff (n : Nat) :
    d.errors n = 0 ↔ ∀ k, k < n → d.status k = .PROXY_NO_ERROR := by
  rw [errors, List.countP_eq_zero]
  simp

end ProxyDriver

/-! ## One channel -/

/-- A channel after `i` rounds of `start_transfer` and `wait_for_transfer`: a
transfer that ended with an error is still counted in progress. -/
structure Behind (d : ProxyDriver) (i : Nat) (s : Sys) : Prop where
  inProgressCount : s.ch.inProgressCount = Int32.ofNat (d.errors i)
  counter : s.ch.counter = Int32.ofNat (i - d.errors i)
  finishes : s.proxy.finishes = i

/-- A round of the loop. -/
theorem Behind.transfer {d : ProxyDriver} {i : Nat} {s : Sys} (h : Behind d i s)
    (hi : i + 1 < 2 ^ 32) : Behind d (i + 1) ((s.startTransfer d).waitForTransfer d).2 := by
  have hle := d.errors_le i
  have hstarted : (s.startTransfer d).ch.inProgressCount = Int32.ofNat (d.errors i + 1) := by
    rw [ofNat_succ, ← h.inProgressCount]
    rfl
  have hprogress : (s.startTransfer d).ch.inProgressCount ≠ 0 := by
    rw [hstarted, ne_eq, ofNat_eq_zero_iff (by omega)]
    exact Nat.succ_ne_zero _
  have hfinishes : (s.startTransfer d).proxy.finishes = i := h.finishes
  have hfinished : ((s.startTransfer d).finishXfer d).2.proxy.finishes = i + 1 := by
    rw [← hfinishes]
    exact Proxy.finishXfer_finishes
  by_cases hok : d.status i = .PROXY_NO_ERROR
  · have herrors : d.errors (i + 1) = d.errors i := by rw [d.errors_succ, if_pos hok, Nat.add_zero]
    rw [waitForTransfer_ok hprogress (by rw [hfinishes]; exact hok)]
    refine ⟨?_, ?_, ?_⟩
    · show (s.startTransfer d).ch.inProgressCount - 1 = _
      rw [hstarted, herrors, ofNat_succ, Int32.add_sub_cancel]
    · show s.ch.counter + 1 = _
      have hsub : i + 1 - d.errors i = i - d.errors i + 1 := by omega
      rw [h.counter, herrors, hsub, ofNat_succ]
    · show ((s.startTransfer d).received d).proxy.finishes = i + 1
      rw [(frame_received d (s.startTransfer d)).finishes, hfinished]
  · have herrors : d.errors (i + 1) = d.errors i + 1 := by rw [d.errors_succ, if_neg hok]
    rw [waitForTransfer_error hprogress (by rw [hfinishes]; exact hok)]
    refine ⟨?_, ?_, hfinished⟩
    · rw [herrors, ← hstarted]
      rfl
    · show s.ch.counter = _
      have hsub : i + 1 - (d.errors i + 1) = i - d.errors i := by omega
      rw [h.counter, herrors, hsub]

/-! ## The loop -/

/-- A reload moves no counter. -/
theorem Behind.reloadIfDue {d : ProxyDriver} {i j T : Nat} {file : Nat → Option (List Char)}
    {st : TxState} {k : Fin 8} (h : Behind d i (st.channels k)) :
    Behind d i ((reloadIfDue file T j st).channels k) := by
  unfold Dma.reloadIfDue
  split
  · exact ⟨h.inProgressCount, h.counter, h.finishes⟩
  · exact h

section Loop

variable (d : Fin 8 → ProxyDriver) (file : Nat → Option (List Char)) (T : Nat)
  (numTransfers : UInt32) (fd : Fin 8 → Int32) (ptr : Fin 8 → Nat) (ram : Fin 8 → Ram)

theorem txStart_behind (k : Fin 8) :
    Behind (d k) 0 ((txStart T numTransfers fd ptr ram).channels k) := by
  have hinit := init_frame (txConfig T k) (fd k) (some (ptr k))
    { proxy := { Proxy.opened with ram := ram k } }
  exact ⟨hinit.inProgressCount, hinit.counter, hinit.finishes⟩

/-- The counters of every channel after every iteration of the loop. -/
theorem txLoop_behind {i : Nat} (hi : i < 2 ^ 32) (k : Fin 8) :
    Behind (d k) i ((txLoop d file T (txStart T numTransfers fd ptr ram) i).channels k) := by
  induction i with
  | zero => exact txStart_behind d T numTransfers fd ptr ram k
  | succ i ih =>
      have hbefore := ih (by omega)
      exact hbefore.reloadIfDue.transfer hi

/-- The channels have the same number of completed transfers and none in
progress. -/
structure InLockstep (st : TxState) : Prop where
  inProgressCount : ∀ k, (st.channels k).ch.inProgressCount = 0
  counter : ∀ k l, (st.channels k).ch.counter = (st.channels l).ch.counter

/-- Iteration `i` starts its transfers on idle channels and leaves the
channels in lockstep. -/
def KeepsLockstep (st : TxState) (i : Nat) : Prop :=
  (∀ k, ((txReady d file T st i).channels k).ch.inProgressCount = 0) ∧
    InLockstep (txLoop d file T st (i + 1))

/-- The channels stay in lockstep exactly as long as no transfer of any of
them ends with an error. -/
theorem transmit_channels_in_lockstep_iff :
    (∀ i, i < numTransfers.toNat →
        KeepsLockstep d file T (txStart T numTransfers fd ptr ram) i) ↔
      ∀ i, i < numTransfers.toNat → ∀ k, (d k).status i = .PROXY_NO_ERROR := by
  have hnum := numTransfers.toNat_lt
  constructor
  · intro hall i hi k
    obtain ⟨-, hlock⟩ := hall i hi
    have hbehind := txLoop_behind d file T numTransfers fd ptr ram (by omega : i + 1 < 2 ^ 32) k
    have hidle := hlock.inProgressCount k
    have hle := (d k).errors_le (i + 1)
    rw [hbehind.inProgressCount, ofNat_eq_zero_iff (by omega)] at hidle
    exact ((d k).errors_eq_zero_iff (i + 1)).mp hidle i (Nat.lt_succ_self i)
  · intro hok i hi
    have hnone : ∀ j, j ≤ i + 1 → ∀ k, (d k).errors j = 0 := by
      intro j hj k
      exact ((d k).errors_eq_zero_iff j).mpr fun n hn => hok n (by omega) k
    have hbehind := fun j (hj : j ≤ i + 1) =>
      txLoop_behind d file T numTransfers fd ptr ram (by omega : j < 2 ^ 32)
    refine ⟨fun k => ?_, fun k => ?_, fun k l => ?_⟩
    · have hready : Behind (d k) i
          ((txReady d file T (txStart T numTransfers fd ptr ram) i).channels k) :=
        (hbehind i (by omega) k).reloadIfDue
      rw [hready.inProgressCount, hnone i (by omega) k]
      rfl
    · rw [(hbehind (i + 1) (by omega) k).inProgressCount, hnone (i + 1) (by omega) k]
      rfl
    · rw [(hbehind (i + 1) (by omega) k).counter, (hbehind (i + 1) (by omega) l).counter,
        hnone (i + 1) (by omega) k, hnone (i + 1) (by omega) l]

end Loop

/-- A driver that only reads, and reports a timeout for its first transfer. -/
def firstTimesOut : ProxyDriver := .failingAt 0 .PROXY_TIMEOUT

/-- The first transfer of channel 7 times out: from then on that channel
counts a transfer in progress and is one transfer behind channel 0. -/
theorem transmit_channels_lose_lockstep :
    ¬ ∀ i, i < (2 : UInt32).toNat →
      KeepsLockstep (fun k => if k = 7 then firstTimesOut else .reader) (fun _ => some []) 1
        (txStart 1 2 (fun _ => 4) (fun _ => 0) fun _ _ => 0) i := by
  intro hall
  have hcounter := (hall 1 (by decide)).2.counter 7 0
  have hseven := txLoop_behind (fun k => if k = 7 then firstTimesOut else .reader)
    (fun _ => some []) 1 2 (fun _ => 4) (fun _ => 0) (fun _ _ => 0) (by decide : 2 < 2 ^ 32) 7
  have hzero := txLoop_behind (fun k => if k = 7 then firstTimesOut else .reader)
    (fun _ => some []) 1 2 (fun _ => 4) (fun _ => 0) (fun _ _ => 0) (by decide : 2 < 2 ^ 32) 0
  rw [hseven.counter, hzero.counter] at hcounter
  exact absurd hcounter (by decide)

end RlsMini.Dma
