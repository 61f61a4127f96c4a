import RlsMini.Dma.Lockstep

/-!
# Buffers in flight in the transmit loop

`main` fills the buffers of the transmit channels and hands one of each to the
driver in every iteration.  It never asks whether the driver still has a
buffer: a transfer that ended without error has given its buffer back, and
`main` does not look at the others.

`InFlight d i s` says what the driver has of a channel after `i` iterations.
It is nothing after a transfer without error.  After a failed one it is the
buffer of that transfer, which is also the buffer of the next transfer,
because `counter` has not moved.
-/

namespace RlsMini.Dma

open RlsMini.CInt

namespace Proxy

variable {d : ProxyDriver} {p : Proxy} {b : Int}

/-- A transfer with an error keeps its buffer. -/
theorem finishXfer_busy_of_error (herr : d.status p.finishes ≠ .PROXY_NO_ERROR) :
    (p.finishXfer d b).busy = p.busy := by
  simp only [finishXfer, tick_finishes]
  rw [if_neg fun h => herr h.1]
  rfl

end Proxy

/-! ## One channel -/

/-- The buffer that the next `start_transfer` hands to the driver. -/
def Sys.nextBuffer (s : Sys) : Int := (s.ch.counter % s.ch.bufferCount).toInt

/-- Transfer `i` of the channel ends with an error. -/
def ProxyDriver.failsAt (d : ProxyDriver) (i : Nat) : Prop := d.status i ≠ .PROXY_NO_ERROR

instance (d : ProxyDriver) (i : Nat) : Decidable (d.failsAt i) :=
  inferInstanceAs (Decidable (_ ≠ _))

/-- The buffers of a channel that the driver has after `i` iterations. -/
structure InFlight (d : ProxyDriver) (T i : Nat) (s : Sys) : Prop extends Behind d i s where
  bufferCount : s.ch.bufferCount = Int32.ofNat T
  busy : ∀ b, s.proxy.busy b = true ↔ b = s.nextBuffer ∧ ∃ j, i = j + 1 ∧ d.failsAt j

namespace InFlight

variable {d : ProxyDriver} {T i : Nat} {s : Sys}

/-- Once the transfer of the iteration is started, the driver has its buffer
and no other: what it had before is the same buffer. -/
theorem startTransfer_busy (h : InFlight d T i s) (b : Int) :
    (s.startTransfer d).proxy.busy b = true ↔ b = s.nextBuffer := by
  show (if b = s.nextBuffer then true else s.proxy.busy b) = true ↔ b = s.nextBuffer
  split
  · rename_i hb
    exact iff_of_true rfl hb
  · rename_i hb
    constructor
    · intro hbusy
      exact ((h.busy b).mp hbusy).1
    · intro hb'
      exact absurd hb' hb

/-- The transfer of an iteration. -/
theorem transfer (h : InFlight d T i s) (hi : i + 1 < 2 ^ 32) :
    InFlight d T (i + 1) ((s.startTransfer d).waitForTransfer d).2 := by
  have hbehind := h.toBehind.transfer hi
  have hle := d.errors_le i
  have hprogress : (s.startTransfer d).ch.inProgressCount ≠ 0 := by
    show s.ch.inProgressCount + 1 ≠ 0
    rw [h.inProgressCount, ← ofNat_succ, ne_eq, ofNat_eq_zero_iff (by omega)]
    exact Nat.succ_ne_zero _
  have hfinishes : (s.startTransfer d).proxy.finishes = i := h.finishes
  have hstarted := h.startTransfer_busy
  by_cases hok : d.status i = .PROXY_NO_ERROR
  · have hstatus : d.status (s.startTransfer d).proxy.finishes = .PROXY_NO_ERROR := by
      rw [hfinishes]
      exact hok
    refine ⟨hbehind, ?_, fun b => ?_⟩
    · rw [(waitForTransfer_cursor d (s.startTransfer d)).2]
      exact h.bufferCount
    · have hback : ((s.startTransfer d).waitForTransfer d).2.proxy.busy b = false := by
        rw [waitForTransfer_ok hprogress hstatus]
        show ((s.startTransfer d).received d).proxy.busy b = false
        rw [(frame_received d (s.startTransfer d)).busy]
        show ((s.startTransfer d).proxy.finishXfer d s.nextBuffer).busy b = false
        rw [Proxy.finishXfer_busy hstatus]
        split
        · rfl
        · rename_i hb
          exact Bool.eq_false_iff.mpr fun hbusy => hb ((hstarted b).mp hbusy)
      rw [hback]
      refine iff_of_false Bool.false_ne_true ?_
      rintro ⟨-, j, hj, hfails⟩
      obtain rfl : i = j := Nat.succ.inj hj
      exact hfails hok
  · have hstatus : d.status (s.startTransfer d).proxy.finishes ≠ .PROXY_NO_ERROR := by
      rw [hfinishes]
      exact hok
    rw [waitForTransfer_error hprogress hstatus] at hbehind ⊢
    refine ⟨hbehind, h.bufferCount, fun b => ?_⟩
    have hkept : ((s.startTransfer d).finishXfer d).2.proxy.busy b =
        (s.startTransfer d).proxy.busy b :=
      congrFun (Proxy.finishXfer_busy_of_error hstatus) b
    rw [hkept, hstarted b]
    constructor
    · intro hb
      exact ⟨hb, i, rfl, hok⟩
    · intro hb
      exact hb.1

/-- The loader changes the words of the buffers only. -/
theorem reloadIfDue {T' j : Nat} {file : Nat → Option (List Char)} {st : TxState} {k : Fin 8}
    (h : InFlight d T i (st.channels k)) :
    InFlight d T i ((Dma.reloadIfDue file T' j st).channels k) := by
  unfold Dma.reloadIfDue
  split
  · exact ⟨⟨h.inProgressCount, h.counter, h.finishes⟩, h.bufferCount, h.busy⟩
  · exact h

end InFlight

/-! ## A channel that has just been set up -/

theorem initLoop_busy (fuel : Nat) (s : Sys) : (s.initLoop fuel).proxy.busy = s.proxy.busy := by
  induction fuel generalizing s with
  | zero => rfl
  | succ fuel ih =>
      simp only [Sys.initLoop]
      split
      · rw [ih]
        rfl
      · rfl

theorem init_busy (cfg : ChConfig) (fd : Int32) (ptr : Option Nat) (s : Sys) :
    (Sys.init cfg fd ptr s).2.proxy.busy = s.proxy.busy := by
  simp only [Sys.init]
  split
  · rfl
  · split
    · rfl
    · rw [initLoop_busy]

/-! ## The loop -/

/-- Iteration `i` loads over a buffer that the driver has: a reload is due, the
file opens, and the buffer is one of the `T` that the loader fills. -/
def LoadsInFlight (file : Nat → Option (List Char)) (T i : Nat) (st : TxState) : Prop :=
  i % T = 0 ∧ (file st.cnt).isSome ∧
    ∃ k b, 0 ≤ b ∧ b < (T : Int) ∧ (st.channels k).proxy.busy b = true

section Loop

variable (d : Fin 8 → ProxyDriver) (file : Nat → Option (List Char)) {T : Nat}
  (numTransfers : UInt32) (fd : Fin 8 → Int32) (ptr : Fin 8 → Nat) (ram : Fin 8 → Ram)

theorem txStart_inFlight (k : Fin 8) :
    InFlight (d k) T 0 ((txStart T numTransfers fd ptr ram).channels k) where
  toBehind := txStart_behind d T numTransfers fd ptr ram k
  bufferCount :=
    (init_frame (txConfig T k) (fd k) (some (ptr k))
      { proxy := { Proxy.opened with ram := ram k } }).bufferCount
  busy b := by
    have hidle : (txChannel T k (fd k) (ptr k) (ram k)).proxy.busy b = false := by
      rw [txChannel, init_busy]
      rfl
    refine iff_of_false ?_ ?_
    · show ¬ (txChannel T k (fd k) (ptr k) (ram k)).proxy.busy b = true
      rw [hidle]
      exact Bool.false_ne_true
    · rintro ⟨-, j, hj, -⟩
      exact absurd hj (Nat.succ_ne_zero j).symm

/-- What the driver has of every channel before every iteration. -/
theorem txLoop_inFlight {i : Nat} (hi : i < 2 ^ 32) (k : Fin 8) :
    InFlight (d k) T i ((txLoop d file T (txStart T numTransfers fd ptr ram) i).channels k) := by
  induction i with
  | zero => exact txStart_inFlight d numTransfers fd ptr ram k
  | succ i ih =>
      have hbefore := ih (by omega)
      exact hbefore.reloadIfDue.transfer hi

/-- The reloads before iteration `i`. -/
theorem txLoop_cnt (i : Nat) :
    (txLoop d file T (txStart T numTransfers fd ptr ram) i).cnt =
      if i % T = 0 then i / T else i / T + 1 := by
  induction i with
  | zero =>
      rw [Nat.zero_mod, if_pos rfl, Nat.zero_div]
      rfl
  | succ i ih =>
      have hreloaded : (txLoop d file T (txStart T numTransfers fd ptr ram) (i + 1)).cnt =
          i / T + 1 := by
        show (reloadIfDue file T i _).cnt = _
        unfold reloadIfDue
        by_cases hdue : i % T = 0
        · rw [if_pos hdue] at ih ⊢
          rw [reload, ih]
        · rw [if_neg hdue] at ih ⊢
          exact ih
      rw [hreloaded]
      split
      · rename_i hdue
        rw [Nat.succ_div_of_mod_eq_zero hdue]
      · rename_i hdue
        rw [Nat.succ_div_of_mod_ne_zero hdue]

end Loop

/-- The next buffer is one of the channel's, as long as `counter` is not
negative. -/
theorem InFlight.nextBuffer_mem {d : ProxyDriver} {T i : Nat} {s : Sys} (h : InFlight d T i s)
    (hT : 1 ≤ T) (hmax : T < 2 ^ 31) (hi : i < 2 ^ 31) :
    0 ≤ s.nextBuffer ∧ s.nextBuffer < T := by
  have hle := d.errors_le i
  have hnext : s.nextBuffer = ((i - d.errors i) % T : Nat) := by
    rw [Sys.nextBuffer, h.counter, h.bufferCount]
    exact toInt_mod_of_nat (Int32.toInt_ofNat_of_lt (by omega)) (Int32.toInt_ofNat_of_lt hmax)
  have hlt : (i - d.errors i) % T < T := Nat.mod_lt _ hT
  omega

/-- What the transmit loop does with a buffer that the driver still has.
Iteration `i` loads over one exactly when it reloads right after a failed
transfer, before `counter` can pass `INT_MAX`; and it hands the driver one that
the driver has exactly on the channels whose last transfer failed. -/
theorem transmit_reuses_buffers_iff (d : Fin 8 → ProxyDriver) (file : Nat → Option (List Char))
    (T : Nat) (hT : 1 ≤ T) (hmax : T ≤ BUFFER_COUNT) (numTransfers : UInt32)
    (fd : Fin 8 → Int32) (ptr : Fin 8 → Nat) (ram : Fin 8 → Ram) (i : Nat)
    (hi : i < numTransfers.toNat) :
    (i < 2 ^ 31 →
      (LoadsInFlight file T i (txLoop d file T (txStart T numTransfers fd ptr ram) i) ↔
        i % T = 0 ∧ (file (i / T)).isSome ∧ ∃ k j, i = j + 1 ∧ (d k).failsAt j)) ∧
    ∀ k b, ((txReady d file T (txStart T numTransfers fd ptr ram) i).channels k).proxy.busy b
        = true ↔
      b = ((txReady d file T (txStart T numTransfers fd ptr ram) i).channels k).nextBuffer ∧
        ∃ j, i = j + 1 ∧ (d k).failsAt j := by
  have hbuffers : T < 2 ^ 31 := by
    simp only [BUFFER_COUNT] at hmax
    omega
  have hnum := numTransfers.toNat_lt
  have hbefore := fun k =>
    txLoop_inFlight d file numTransfers fd ptr ram (T := T) (i := i) (by omega) k
  constructor
  · intro hint
    unfold LoadsInFlight
    refine and_congr_right fun hdue => ?_
    rw [txLoop_cnt, if_pos hdue]
    refine and_congr_right fun _ => ?_
    constructor
    · rintro ⟨k, b, -, -, hbusy⟩
      exact ⟨k, (((hbefore k).busy b).mp hbusy).2⟩
    · rintro ⟨k, hfailed⟩
      obtain ⟨hlow, hhigh⟩ := (hbefore k).nextBuffer_mem hT hbuffers hint
      exact ⟨k, _, hlow, hhigh, ((hbefore k).busy _).mpr ⟨rfl, hfailed⟩⟩
  · intro k
    have hready : InFlight (d k) T i
        ((txReady d file T (txStart T numTransfers fd ptr ram) i).channels k) :=
      (hbefore k).reloadIfDue
    exact hready.busy

/-- One buffer a channel, as in the repository: the first transfer of
channel 7 times out, and iteration 1 loads over its buffer. -/
theorem transmit_reuses_buffers_timeout :
    LoadsInFlight (fun _ => some []) 1 1
      (txLoop (fun k => if k = 7 then firstTimesOut else .reader) (fun _ => some []) 1
        (txStart 1 2 (fun _ => 4) (fun _ => 0) fun _ _ => 0) 1) :=
  ((transmit_reuses_buffers_iff (fun k => if k = 7 then firstTimesOut else .reader)
    (fun _ => some []) 1 (by decide) (by decide) 2 (fun _ => 4) (fun _ => 0)
    (fun _ _ => 0) 1 (by decide)).1 (by decide)).mpr
    ⟨rfl, rfl, 7, 0, rfl, by decide⟩

end RlsMini.Dma
