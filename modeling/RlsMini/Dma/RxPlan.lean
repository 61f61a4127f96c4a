import RlsMini.Dma.Receive

/-!
# The receive plan of `main`

`main` turns the number of transmit buffers into the number of receive
transfers in `uint32_t`, hands it to `set_num_transfers` as an `int`, and
starts the thread.  `begin` and `run` read the limit 0 as no limit at all, and
they only look at it after a transfer.

`StopsAfter d s n` says that the thread stops with exactly `n` transfers
completed.  The three lemmas `stopsAfter_iff_of_pos`, `not_stopsAfter_of_zero`
and `stopsAfter_iff_of_neg` give its meaning for every limit, and the rest is
arithmetic on the plan.
-/

namespace RlsMini.Dma

open RlsMini.CInt

/-! ## The plan -/

def N_SAMPS_IN_TX_BUF : UInt32 := 232
def N_PACKS_IN_TX_BUF : UInt32 := 4

/-- `n_samps_per_buf` and `num_rx_transfer` as `main` computes them. -/
def rxPlan (testPoint numTransfers : UInt32) : UInt32 × UInt32 :=
  let numRxTransfer := numTransfers * N_PACKS_IN_TX_BUF
  let (nSampsPerBuf, numRxTransfer) :=
    if testPoint = TP_WORK then (UInt32.ofNat sizeofWorkPosthdr, numRxTransfer / 20)
    else if testPoint = TP_BYPASS then (N_SAMPS_IN_TX_BUF, numRxTransfer)
    else if testPoint ∈ [TP_CUT, TP_FAPCH, TP_LOU, TP_SF] then (141, numRxTransfer)
    else if testPoint ∈ [TP_DDR, TP_FFT] then (512, numRxTransfer / 20)
    else if testPoint ∈ [TP_MAX, TP_RANK, TP_APU] then (141, numRxTransfer / 20)
    else if testPoint = TP_FIND then (141 * 5, numRxTransfer / 20)
    else (141, numRxTransfer)
  (nSampsPerBuf + UInt32.ofNat HDR_SIZE, numRxTransfer)

/-- `rx_config`, for `B` buffers. -/
def rxConfig (B : Nat) : ChConfig where
  devnode := "/dev/dma_proxy_rx"
  bufferSize := Int32.ofNat BUFFER_SIZE
  bufferCount := Int32.ofNat B

/-- `dma_channels[0]`, with `B` buffers, when `main` starts it: `init` has
opened the device as `fd` and mapped it at `ptr`, and `fopen` has given
`dump_file` or not. -/
def rxStart (B : Nat) (testPoint numTransfers : UInt32) (fd : Int32) (ptr : Nat)
    (opened : Bool) : Sys :=
  (Sys.init (rxConfig B) fd (some ptr) { proxy := .opened }).2
    |>.setSaveToFile opened (rxPlan testPoint numTransfers).1.toInt32
    |>.setNumTransfers (rxPlan testPoint numTransfers).2.toInt32

/-- `dma_channels[0]` with the buffers `main` gives it. -/
def rxChannel (testPoint numTransfers : UInt32) (fd : Int32) (ptr : Nat) (opened : Bool) : Sys :=
  rxStart RX_BUFFER_COUNT testPoint numTransfers fd ptr opened

/-- The test points whose messages cover twenty transmit packets. -/
def decimatedTestPoints : List UInt32 :=
  [TP_WORK, TP_DDR, TP_FFT, TP_MAX, TP_RANK, TP_APU, TP_FIND]

/-- The planned number of receive transfers, over the integers. -/
def plannedTransfers (testPoint numTransfers : UInt32) : Nat :=
  if testPoint ∈ decimatedTestPoints then 4 * numTransfers.toNat / 20
  else 4 * numTransfers.toNat

theorem rxPlan_snd (testPoint numTransfers : UInt32) :
    (rxPlan testPoint numTransfers).2 =
      if testPoint ∈ decimatedTestPoints then numTransfers * 4 / 20 else numTransfers * 4 := by
  by_cases hdecimated : testPoint ∈ decimatedTestPoints
  · rw [if_pos hdecimated]
    simp only [decimatedTestPoints, List.mem_cons, List.not_mem_nil, or_false] at hdecimated
    rcases hdecimated with rfl | rfl | rfl | rfl | rfl | rfl | rfl <;> rfl
  · rw [if_neg hdecimated]
    simp only [decimatedTestPoints, List.mem_cons, List.not_mem_nil, or_false, not_or]
      at hdecimated
    obtain ⟨hwork, hddr, hfft, hmax, hrank, hapu, hfind⟩ := hdecimated
    simp only [rxPlan, List.mem_cons, List.not_mem_nil, or_false, hwork, hddr, hfft, hmax,
      hrank, hapu, hfind, or_self, if_false]
    split
    · rfl
    · split <;> rfl

theorem rxChannel_ready (testPoint numTransfers : UInt32) {fd : Int32} (ptr : Nat)
    (opened : Bool) (hfd : 1 ≤ fd) : (rxChannel testPoint numTransfers fd ptr opened).Ready := by
  refine Sys.Ready.setNumTransfers (Sys.Ready.setSaveToFile ?_ _ _) _
  exact init_ready (by decide) hfd rfl rfl

/-! ## When the thread stops -/

/-- The thread stops, and exactly `n` transfers are complete when it does. -/
def StopsAfter (d : ProxyDriver) (s : Sys) (n : Nat) : Prop :=
  ∃ turns, (s.thread d turns).1 = true ∧ (∀ m, m < turns → (s.thread d m).1 = false) ∧
    (s.thread d turns).2.calls.countP Call.isFinish = n

/-- A thread stops once, with one number of completed transfers. -/
theorem StopsAfter.unique {d : ProxyDriver} {s : Sys} {m n : Nat} (hm : StopsAfter d s m)
    (hn : StopsAfter d s n) : m = n := by
  obtain ⟨tm, hstop, hbefore, rfl⟩ := hm
  obtain ⟨tn, hstop', hbefore', rfl⟩ := hn
  have hle : ∀ a b, (s.thread d a).1 = true → (∀ m, m < b → (s.thread d m).1 = false) →
      b ≤ a := by
    intro a b ha hb
    by_contra hlt
    rw [hb a (Nat.lt_of_not_le hlt)] at ha
    exact Bool.noConfusion ha
  have heq : tm = tn :=
    Nat.le_antisymm (hle _ _ hstop' hbefore) (hle _ _ hstop hbefore')
  rw [heq]

section Limit

variable {d : ProxyDriver} {s : Sys} (h : s.Ready) (hok : ∀ n, d.status n = .PROXY_NO_ERROR)

include h hok

/-- A positive limit is met exactly. -/
theorem stopsAfter_iff_of_pos (hpos : 1 ≤ s.obj.numTransfers) (n : Nat) :
    StopsAfter d s n ↔ n = s.obj.numTransfers.toInt.toNat := by
  have hmeets : StopsAfter d s s.obj.numTransfers.toInt.toNat := by
    obtain ⟨hstop, hserves, hfinishes⟩ := h.thread_last hpos hok
    refine ⟨_, hstop, fun m hm => (h.thread_receiving hpos hok hm).1, ?_⟩
    rw [hserves.finishes, hfinishes]
  constructor
  · intro hstops
    exact hstops.unique hmeets
  · rintro rfl
    exact hmeets

omit h in
/-- Without a limit `run` never stops. -/
theorem run_zero {s : Sys} (hzero : s.obj.numTransfers = 0) : (s.run d).1 = false := by
  have hwait : (s.waitForTransfer d).1 = .PROXY_NO_ERROR := by
    by_cases hprogress : s.ch.inProgressCount = 0
    · rw [waitForTransfer_idle hprogress]
    · rw [waitForTransfer_ok hprogress (hok _)]
  have hobj : (s.waitForTransfer d).2.obj.numTransfers = 0 := by
    rw [waitForTransfer_obj, hzero]
  simp only [Sys.run]
  rw [if_neg]
  rintro (herr | ⟨hlimit, -⟩)
  · exact herr hwait
  · exact hlimit hobj

omit h in
/-- Without a limit the thread runs on. -/
theorem thread_running_of_zero (hzero : s.obj.numTransfers = 0) (n : Nat) :
    (s.thread d n).1 = false := by
  have hgo : (s.thread d n).1 = false ∧ (s.thread d n).2.obj.numTransfers = 0 := by
    induction n with
    | zero =>
        refine ⟨rfl, ?_⟩
        show (s.begin d).obj.numTransfers = 0
        rw [(begin_frame d s).obj, hzero]
    | succ n ih =>
        rw [thread_succ_of_running ih.1]
        exact ⟨run_zero hok ih.2, by rw [run_obj]; exact ih.2⟩
  exact hgo.1

omit h in
/-- A limit of zero is no limit. -/
theorem not_stopsAfter_of_zero (hzero : s.obj.numTransfers = 0) (n : Nat) :
    ¬ StopsAfter d s n := by
  rintro ⟨turns, hstop, -, -⟩
  rw [thread_running_of_zero hok hzero turns] at hstop
  exact Bool.noConfusion hstop

/-- A negative limit lets one transfer through. -/
theorem stopsAfter_iff_of_neg (hneg : s.obj.numTransfers < 0) (n : Nat) :
    StopsAfter d s n ↔ n = 1 := by
  have hlt : s.obj.numTransfers.toInt < 0 := Int32.lt_iff_toInt_lt.mp hneg
  have hmeets : StopsAfter d s 1 := by
    obtain ⟨hserves, hbuffer, hobj, hfinishes⟩ := h.begin (d := d)
    have hone := h.one_le
    have hcount : beginCount s.ch.bufferCount.toInt.toNat s.obj.numTransfers.toInt = 0 + 1 := by
      unfold beginCount
      rw [if_neg (by omega)]
      omega
    rw [hcount] at hserves
    obtain ⟨hstatus, hserves', -, hobj', hfinishes'⟩ :=
      hserves.wait (d := d) (by rw [hbuffer, Nat.zero_mod]; rfl) (by omega) (hok _)
    have hreached : ((s.begin d).waitForTransfer d).2.obj.numTransfers ≠ 0 ∧
        ((s.begin d).waitForTransfer d).2.ch.counter ≥
          ((s.begin d).waitForTransfer d).2.obj.numTransfers := by
      rw [hobj', hobj]
      constructor
      · rw [ne_eq, eq_zero_iff_toInt]
        omega
      · rw [ge_iff_le, Int32.le_iff_toInt_le, hserves'.counter]
        omega
    have hrun : (s.begin d).run d = (true, ((s.begin d).waitForTransfer d).2) := by
      simp only [Sys.run]
      rw [if_pos (Or.inr hreached)]
    have hturn : s.thread d 1 = (true, ((s.begin d).waitForTransfer d).2) := by
      rw [← hrun]
      exact thread_succ_of_running rfl
    refine ⟨1, by rw [hturn], ?_, ?_⟩
    · intro m hm
      obtain rfl : m = 0 := by omega
      rfl
    · rw [hturn, hserves'.finishes, hfinishes', hfinishes]
  constructor
  · intro hstops
    exact hstops.unique hmeets
  · rintro rfl
    exact hmeets

end Limit

/-! ## The plan and the thread -/

/-- The limit that reaches the thread, before it is read as an `int`. -/
theorem rxPlan_toNat (testPoint numTransfers : UInt32) :
    (rxPlan testPoint numTransfers).2.toNat =
      if testPoint ∈ decimatedTestPoints then 4 * numTransfers.toNat % 2 ^ 32 / 20
      else 4 * numTransfers.toNat % 2 ^ 32 := by
  have hmul : (numTransfers * 4).toNat = 4 * numTransfers.toNat % 2 ^ 32 := by
    rw [UInt32.toNat_mul, Nat.mul_comm]
    rfl
  rw [rxPlan_snd]
  split
  · rw [UInt32.toNat_div, hmul]
    rfl
  · exact hmul

/-- The plans that survive the conversions and are not read as a missing
limit. -/
def PlanFits (testPoint numTransfers : UInt32) : Prop :=
  if testPoint ∈ decimatedTestPoints then
    5 ≤ numTransfers.toNat ∧ numTransfers.toNat < 2 ^ 30
  else numTransfers.toNat < 2 ^ 29

instance (testPoint numTransfers : UInt32) : Decidable (PlanFits testPoint numTransfers) := by
  unfold PlanFits
  infer_instance

/-- A plan that fits is the limit of the thread. -/
theorem PlanFits.limit {testPoint numTransfers : UInt32} (hnum : 1 ≤ numTransfers.toNat)
    (hfits : PlanFits testPoint numTransfers) :
    1 ≤ plannedTransfers testPoint numTransfers ∧
      (rxPlan testPoint numTransfers).2.toInt32.toInt =
        plannedTransfers testPoint numTransfers := by
  rw [toInt_toInt32, rxPlan_toNat]
  unfold PlanFits at hfits
  unfold plannedTransfers
  split at hfits
  · rename_i hdecimated
    rw [if_pos hdecimated, if_pos hdecimated]
    constructor
    · omega
    · rw [if_pos (by omega)]
      omega
  · rename_i hdecimated
    rw [if_neg hdecimated, if_neg hdecimated]
    constructor
    · omega
    · rw [if_pos (by omega)]
      omega

/-- A plan that does not fit reaches the thread as no limit, or as a limit
other than the planned one. -/
theorem limit_of_not_planFits {testPoint numTransfers : UInt32}
    (hfits : ¬ PlanFits testPoint numTransfers) :
    (rxPlan testPoint numTransfers).2.toInt32.toInt = 0 ∨
      (1 < plannedTransfers testPoint numTransfers ∧
        (rxPlan testPoint numTransfers).2.toInt32.toInt <
          plannedTransfers testPoint numTransfers) := by
  have hlt := numTransfers.toNat_lt
  rw [toInt_toInt32, rxPlan_toNat]
  unfold PlanFits at hfits
  unfold plannedTransfers
  split at hfits
  · rename_i hdecimated
    rw [if_pos hdecimated, if_pos hdecimated, if_pos (by omega)]
    omega
  · rename_i hdecimated
    rw [if_neg hdecimated, if_neg hdecimated]
    refine Or.inr ⟨by omega, ?_⟩
    split <;> omega

/-- The receive thread that `main` starts completes the planned number of
transfers and stops, exactly when the plan fits. -/
theorem receive_thread_meets_plan_iff (d : ProxyDriver)
    (hok : ∀ n, d.status n = .PROXY_NO_ERROR) (testPoint numTransfers : UInt32)
    (hnum : 1 ≤ numTransfers.toNat) (fd : Int32) (hfd : 1 ≤ fd) (ptr : Nat) (opened : Bool) :
    StopsAfter d (rxChannel testPoint numTransfers fd ptr opened)
        (plannedTransfers testPoint numTransfers) ↔
      PlanFits testPoint numTransfers := by
  have hready := rxChannel_ready testPoint numTransfers ptr opened hfd
  have hlimit : (rxChannel testPoint numTransfers fd ptr opened).obj.numTransfers =
      (rxPlan testPoint numTransfers).2.toInt32 := rfl
  constructor
  · intro hstops
    by_contra hfits
    rcases limit_of_not_planFits hfits with hzero | ⟨hplanned, hless⟩
    · exact not_stopsAfter_of_zero hok (by rw [hlimit, eq_zero_iff_toInt, hzero]) _ hstops
    · rw [← hlimit] at hless
      rcases Int.lt_trichotomy
        (rxChannel testPoint numTransfers fd ptr opened).obj.numTransfers.toInt 0
        with hneg | hzero | hpos
      · have hone := (stopsAfter_iff_of_neg hready hok (Int32.lt_iff_toInt_lt.mpr hneg) _).mp hstops
        omega
      · exact not_stopsAfter_of_zero hok (eq_zero_iff_toInt.mpr hzero) _ hstops
      · have hmeets :=
          (stopsAfter_iff_of_pos hready hok (Int32.le_iff_toInt_le.mpr hpos) _).mp hstops
        omega
  · intro hfits
    obtain ⟨hone, hmeets⟩ := hfits.limit hnum
    rw [← hlimit] at hmeets
    refine (stopsAfter_iff_of_pos hready hok ?_ _).mpr (by rw [hmeets, Int.toNat_natCast])
    rw [Int32.le_iff_toInt_le, hmeets]
    show (1 : Int) ≤ _
    exact_mod_cast hone

/-- A detection run of 100 transmit buffers: 20 receive transfers. -/
theorem receive_thread_meets_plan_work :
    StopsAfter (.quiet fun _ _ old => old) (rxChannel TP_WORK 100 4 0 true) 20 :=
  (receive_thread_meets_plan_iff (.quiet fun _ _ old => old) (fun _ => rfl) TP_WORK 100
    (by decide) 4 (by decide) 0 true).mpr (by decide)

/-- One transmit buffer at the work test point is a fifth of a receive
transfer: the plan is rounded to the limit 0, and the thread never stops. -/
theorem receive_thread_never_stops :
    plannedTransfers TP_WORK 1 = 0 ∧
      ¬ StopsAfter (.quiet fun _ _ old => old) (rxChannel TP_WORK 1 4 0 true)
        (plannedTransfers TP_WORK 1) ∧
      ∀ n, ((rxChannel TP_WORK 1 4 0 true).thread (.quiet fun _ _ old => old) n).1 = false :=
  ⟨rfl, not_stopsAfter_of_zero (fun _ => rfl) rfl _, thread_running_of_zero (fun _ => rfl) rfl⟩

end RlsMini.Dma
