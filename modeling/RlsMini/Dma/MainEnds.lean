import RlsMini.Dma.BufferOrder
import RlsMini.Dma.MainRun
import RlsMini.Lib.Commuting

/-!
# Whether `main` ends, and in which state

Behind the transmit loop `main` waits for the receive thread, so it ends if
the thread does.  `thread_stops_iff` says when that is: with any limit other
than 0, and without a limit only if one of the transfers of `begin` fails.

The turns of the two threads commute until the last loop of `main`.  So the
order of the turns decides neither whether `main` ends nor anything of the
state in which it does.
-/

namespace RlsMini.Dma

open RlsMini RlsMini.CInt

/-! ## When the receive thread stops -/

section Stops

variable {d : ProxyDriver} {s : Sys}

/-- A thread that runs on has had no error, and completed a transfer in every
turn. -/
theorem Sys.Ready.receiving_of_running (h : s.Ready) (hN : 1 ≤ s.obj.numTransfers) {n : Nat}
    (hgo : (s.thread d n).1 = false) :
    Receiving s.ch.bufferCount.toInt.toNat s.obj.numTransfers.toInt.toNat n (s.thread d n).2 := by
  induction n with
  | zero => exact h.receiving hN
  | succ n ih =>
      have hbefore : (s.thread d n).1 = false := by
        by_contra hstop
        rw [thread_succ_of_stopped (Bool.eq_true_of_not_eq_false hstop)] at hgo
        exact hstop hgo
      have hreceiving := ih hbefore
      have hmore := hreceiving.more
      rw [thread_succ_of_running hbefore] at hgo ⊢
      by_cases hok : d.status n = .PROXY_NO_ERROR
      · rcases Nat.lt_or_ge (n + 1) s.obj.numTransfers.toInt.toNat with hnext | hlast
        · exact (hreceiving.run_next h.one_le hok hnext).2.1
        · rw [(hreceiving.run_last h.one_le hok (by omega)).1] at hgo
          exact Bool.noConfusion hgo
      · rw [(hreceiving.run_error h.one_le hok).1] at hgo
        exact Bool.noConfusion hgo

/-- A positive limit stops the thread at the latest when it is reached. -/
theorem Sys.Ready.stops_of_pos (d : ProxyDriver) (h : s.Ready) (hN : 1 ≤ s.obj.numTransfers) :
    (s.thread d s.obj.numTransfers.toInt.toNat).1 = true := by
  by_contra hgo
  exact Nat.lt_irrefl _ (h.receiving_of_running hN (Bool.eq_false_iff.mpr hgo)).more

/-- A negative limit stops the thread in its first turn. -/
theorem Sys.Ready.stops_of_neg (d : ProxyDriver) (h : s.Ready) (hneg : s.obj.numTransfers < 0) :
    (s.thread d 1).1 = true := by
  have hlt : s.obj.numTransfers.toInt < 0 := Int32.lt_iff_toInt_lt.mp hneg
  have hone := h.one_le
  obtain ⟨hserves, hbuffer, hobj, hfinishes⟩ := h.begin (d := d)
  have hcount : beginCount s.ch.bufferCount.toInt.toNat s.obj.numTransfers.toInt = 0 + 1 := by
    unfold beginCount
    rw [if_neg (by omega)]
    omega
  rw [hcount] at hserves
  have hid : (s.begin d).ch.bufferId.toInt = (0 % s.ch.bufferCount.toInt.toNat : Nat) := by
    rw [hbuffer, Nat.zero_mod]
    rfl
  rw [thread_succ_of_running rfl]
  show ((s.begin d).run d).1 = true
  simp only [Sys.run]
  by_cases hok : d.status (s.begin d).proxy.finishes = .PROXY_NO_ERROR
  · obtain ⟨-, hwaited, -, hobj', -⟩ := hserves.wait hid (by omega) hok
    have hlimit : ((s.begin d).waitForTransfer d).2.obj.numTransfers ≠ 0 := by
      rw [hobj', hobj, ne_eq, eq_zero_iff_toInt]
      omega
    have hreached : ((s.begin d).waitForTransfer d).2.ch.counter ≥
        ((s.begin d).waitForTransfer d).2.obj.numTransfers := by
      rw [hobj', hobj, ge_iff_le, Int32.le_iff_toInt_le, hwaited.counter]
      omega
    rw [if_pos (Or.inr ⟨hlimit, hreached⟩)]
  · rw [if_pos (Or.inl (hserves.wait_error hid hok).1)]

/-- Without a limit, the transfers of `begin` are completed one in a turn, as
long as the driver reports no error. -/
theorem Sys.Ready.thread_emptying (h : s.Ready) (hzero : s.obj.numTransfers = 0) (n : Nat)
    (hok : ∀ k, k < min n s.ch.bufferCount.toInt.toNat → d.status k = .PROXY_NO_ERROR) :
    (s.thread d n).1 = false ∧
      Draining s.ch.bufferCount.toInt.toNat (min n s.ch.bufferCount.toInt.toNat)
        (s.thread d n).2 ∧
      (s.thread d n).2.proxy.finishes = min n s.ch.bufferCount.toInt.toNat := by
  induction n with
  | zero =>
      obtain ⟨hserves, hbuffer, hobj, hfinishes⟩ := h.begin (d := d)
      have hall : beginCount s.ch.bufferCount.toInt.toNat s.obj.numTransfers.toInt =
          s.ch.bufferCount.toInt.toNat := if_pos (eq_zero_iff_toInt.mp hzero)
      rw [hall] at hserves
      rw [Nat.zero_min]
      exact ⟨rfl, ⟨hserves, fun _ => congrArg Int32.toInt hbuffer, hobj ▸ hzero⟩, hfinishes⟩
  | succ n ih =>
      obtain ⟨hgo, hdraining, hfinishes⟩ := ih fun k hk => hok k (by omega)
      rw [thread_succ_of_running hgo]
      rcases Nat.lt_or_ge n s.ch.bufferCount.toInt.toNat with hlt | hge
      · rw [Nat.min_eq_left (Nat.le_of_lt hlt)] at hdraining hfinishes
        rw [Nat.min_eq_left hlt] at hok ⊢
        have hstatus : d.status (s.thread d n).2.proxy.finishes = .PROXY_NO_ERROR := by
          rw [hfinishes]
          exact hok n (Nat.lt_succ_self n)
        have hprogress : (s.thread d n).2.ch.inProgressCount ≠ 0 := by
          rw [ne_eq, eq_zero_iff_toInt, hdraining.serves.inProgressCount]
          omega
        have hwait := waitForTransfer_ok hprogress hstatus
        refine ⟨?_, hdraining.run hstatus hlt, ?_⟩
        · rw [run_unlimited hdraining.numTransfers (by rw [hwait])]
        · rw [run_unlimited hdraining.numTransfers (by rw [hwait]), hwait]
          show ((s.thread d n).2.received d).proxy.finishes = n + 1
          rw [(frame_received d _).finishes]
          exact Proxy.finishXfer_finishes.trans (congrArg (· + 1) hfinishes)
      · rw [Nat.min_eq_right hge] at hdraining hfinishes
        rw [Nat.min_eq_right (by omega)]
        have hidle : (s.thread d n).2.ch.inProgressCount = 0 := by
          rw [eq_zero_iff_toInt, hdraining.serves.inProgressCount, Nat.sub_self]
          rfl
        have hwait := waitForTransfer_idle (d := d) hidle
        refine ⟨?_, hdraining.run_empty, ?_⟩
        · rw [run_unlimited hdraining.numTransfers (by rw [hwait])]
        · rw [run_unlimited hdraining.numTransfers (by rw [hwait]), hwait]
          exact hfinishes

/-- Without a limit only an error stops the thread, and only one of the
transfers of `begin` can bring it. -/
theorem Sys.Ready.stops_iff_of_zero (d : ProxyDriver) (h : s.Ready)
    (hzero : s.obj.numTransfers = 0) :
    (∃ n, (s.thread d n).1 = true) ↔
      ∃ k, k < s.ch.bufferCount.toInt.toNat ∧ d.status k ≠ .PROXY_NO_ERROR := by
  constructor
  · intro hstops
    obtain ⟨n, hn⟩ := hstops
    by_contra hno
    push Not at hno
    obtain ⟨hgo, -⟩ := h.thread_emptying (d := d) hzero n fun k hk => hno k (by omega)
    rw [hgo] at hn
    exact Bool.noConfusion hn
  · intro hfails
    classical
    -- The first error is met in the turn of its transfer.
    obtain ⟨hlt, herr⟩ := Nat.find_spec hfails
    have hbefore : ∀ k, k < Nat.find hfails → d.status k = .PROXY_NO_ERROR := by
      intro k hk
      by_contra hne
      exact Nat.find_min hfails hk ⟨by omega, hne⟩
    generalize Nat.find hfails = k at hlt herr hbefore
    obtain ⟨hgo, hdraining, hfinishes⟩ :=
      h.thread_emptying (d := d) hzero k fun j hj => hbefore j (by omega)
    rw [Nat.min_eq_left (Nat.le_of_lt hlt)] at hdraining hfinishes
    have hprogress : (s.thread d k).2.ch.inProgressCount ≠ 0 := by
      rw [ne_eq, eq_zero_iff_toInt, hdraining.serves.inProgressCount]
      omega
    refine ⟨k + 1, ?_⟩
    rw [thread_succ_of_running hgo]
    simp only [Sys.run]
    rw [waitForTransfer_error hprogress (by rw [hfinishes]; exact herr),
      if_pos (Or.inl (by rw [hfinishes]; exact herr))]

/-- When the thread stops, for every limit and whatever the driver reports. -/
theorem Sys.Ready.thread_stops_iff (d : ProxyDriver) (h : s.Ready) :
    (∃ n, (s.thread d n).1 = true) ↔ s.obj.numTransfers ≠ 0 ∨
      ∃ k, k < s.ch.bufferCount.toInt.toNat ∧ d.status k ≠ .PROXY_NO_ERROR := by
  by_cases hzero : s.obj.numTransfers = 0
  · rw [h.stops_iff_of_zero d hzero]
    exact (or_iff_right (not_not_intro hzero)).symm
  · refine iff_of_true ?_ (Or.inl hzero)
    rcases Int.lt_trichotomy s.obj.numTransfers.toInt 0 with hneg | heq | hpos
    · exact ⟨_, h.stops_of_neg d (Int32.lt_iff_toInt_lt.mpr hneg)⟩
    · exact absurd (eq_zero_iff_toInt.mpr heq) hzero
    · exact ⟨_, h.stops_of_pos d (Int32.le_iff_toInt_le.mpr hpos)⟩

end Stops

/-! ## The receive channel under its thread -/

/-- The next call of `PIThread`, as long as it has not called `end`. -/
def receiveMove (d : ProxyDriver) : ThreadPhase × Option Sys → ThreadPhase × Option Sys
  | (.created, some s) => (.running, some (s.begin d))
  | (.running, some s) => (if (s.run d).1 then .stopped else .running, some (s.run d).2)
  | (.stopped, some _) => (.ended, none)
  | view => view

/-- The receive channel while its thread has it. -/
def MainState.receiving (m : MainState) : ThreadPhase × Option Sys :=
  (m.phase, if m.phase = .ended then none else some m.rx)

section Receiving

variable {d : ProxyDriver} {s : Sys}

/-- The channel of a thread that runs on. -/
theorem receiveMove_of_running {n : Nat} (hgo : (s.thread d n).1 = false) :
    (receiveMove d)^[n + 1] (.created, some s) = (.running, some (s.thread d n).2) := by
  induction n with
  | zero => rfl
  | succ n ih =>
      have hbefore : (s.thread d n).1 = false := by
        by_contra hstop
        rw [thread_succ_of_stopped (Bool.eq_true_of_not_eq_false hstop)] at hgo
        exact hstop hgo
      rw [thread_succ_of_running hbefore] at hgo ⊢
      rw [Function.iterate_succ_apply', ih hbefore]
      simp only [receiveMove, hgo, Bool.false_eq_true, if_false]

/-- A thread that has stopped ends. -/
theorem receiveMove_of_stopped {n : Nat} (hstop : (s.thread d n).1 = true) :
    (receiveMove d)^[n + 2] (.created, some s) = (.ended, none) := by
  induction n with
  | zero => exact Bool.noConfusion hstop
  | succ n ih =>
      rw [Function.iterate_succ_apply']
      by_cases hbefore : (s.thread d n).1 = true
      · rw [ih hbefore]
        rfl
      · have hgo : (s.thread d n).1 = false := Bool.eq_false_iff.mpr hbefore
        rw [thread_succ_of_running hgo] at hstop
        rw [Function.iterate_succ_apply', receiveMove_of_running hgo]
        simp only [receiveMove, hstop, if_true]

/-- The thread comes to its end exactly if it stops. -/
theorem exists_receiveMove_ended_iff :
    (∃ n, ((receiveMove d)^[n] (.created, some s)).1 = .ended) ↔
      ∃ n, (s.thread d n).1 = true := by
  constructor
  · intro hends
    obtain ⟨n, hn⟩ := hends
    by_contra hno
    push Not at hno
    cases n with
    | zero => cases hn
    | succ n =>
        rw [receiveMove_of_running (Bool.eq_false_iff.mpr (hno n))] at hn
        cases hn
  · intro hstops
    obtain ⟨n, hn⟩ := hstops
    exact ⟨n + 2, by rw [receiveMove_of_stopped hn]⟩

end Receiving

/-! ## The turns commute -/

/-- Whether a thread of `main` does not wait. -/
def CanGo (o : Outside) (m : MainState) : Turn → Prop
  | .thread => m.phase ≠ .ended
  | .main => m.i < o.numTransfers.toNat ∨ (m.phase = .ended ∧ ¬ m.cleaned = true)

section Commuting

variable {o : Outside} {m : MainState}

theorem threadStep_of_ended (hended : m.phase = .ended) : threadStep o m = m := by
  simp only [threadStep, hended]

/-- The transmit loop does not look at the receive channel, nor the thread at
the transmit loop. -/
theorem threadStep_mainStep (hmore : m.i < o.numTransfers.toNat) :
    threadStep o (mainStep o m) = mainStep o (threadStep o m) := by
  obtain ⟨-, hi, hloaded, -⟩ := threadStep_tx o m
  unfold mainStep
  rw [hi, hloaded, if_pos hmore, if_pos hmore]
  unfold threadStep loadStep
  cases hphase : m.phase <;> split_ifs <;> simp only [hphase]

/-- In the transmit loop the receive channel is left alone. -/
theorem mainStep_receive (hmore : m.i < o.numTransfers.toNat) :
    (mainStep o m).phase = m.phase ∧ (mainStep o m).rx = m.rx := by
  unfold mainStep loadStep
  rw [if_pos hmore]
  split_ifs <;> exact ⟨rfl, rfl⟩

theorem main_commuting (o : Outside) :
    Machine.Commuting (step o) (CanGo o) fun _ => True where
  keep _ _ _ := trivial
  wait m turn _ hwait := by
    cases turn with
    | thread => exact threadStep_of_ended (not_not.mp hwait)
    | main =>
        obtain ⟨hdone, hcleaned⟩ := not_or.mp hwait
        simp only [step, mainStep, if_neg hdone, if_neg hcleaned]
  stays m a b _ hab ha hb := by
    cases a <;> cases b
    · exact absurd rfl hab
    · refine Or.inl ?_
      rw [step, (threadStep_tx o m).2.1]
      exact hb.resolve_right fun h => ha h.1
    · have hmore := ha.resolve_right fun h => hb h.1
      rw [CanGo, step, (mainStep_receive hmore).1]
      exact hb
    · exact absurd rfl hab
  commute m a b _ hab ha hb := by
    cases a <;> cases b
    · exact absurd rfl hab
    · exact (threadStep_mainStep (hb.resolve_right fun h => ha h.1)).symm
    · exact threadStep_mainStep (ha.resolve_right fun h => hb h.1)
    · exact absurd rfl hab

/-! ## The end of `main` -/

/-- The last loop comes behind the other two. -/
def AfterLast (o : Outside) (m : MainState) : Prop :=
  m.cleaned = true → m.phase = .ended ∧ ¬ m.i < o.numTransfers.toNat

theorem AfterLast.threadStep (h : AfterLast o m) : AfterLast o (threadStep o m) := by
  intro hcleaned
  have hsame : (Dma.threadStep o m).cleaned = m.cleaned := by
    unfold Dma.threadStep
    split <;> rfl
  rw [hsame] at hcleaned
  rw [threadStep_of_ended (h hcleaned).1]
  exact h hcleaned

theorem AfterLast.mainStep (h : AfterLast o m) : AfterLast o (mainStep o m) := by
  intro hcleaned
  by_cases hmore : m.i < o.numTransfers.toNat
  · have hsame : (Dma.mainStep o m).cleaned = m.cleaned := by
      unfold Dma.mainStep Dma.loadStep
      rw [if_pos hmore]
      split_ifs <;> rfl
    rw [hsame] at hcleaned
    exact absurd hmore (h hcleaned).2
  · rcases mainStep_done hmore with hsame | ⟨hended, hcleanup⟩
    · rw [hsame] at hcleaned ⊢
      exact h hcleaned
    · rw [hcleanup]
      exact ⟨hended, hmore⟩

theorem run_afterLast (o : Outside) (turns : List Turn) :
    AfterLast o (Machine.run (step o) (mainStart o) turns) := by
  refine Machine.invariant_run (I := AfterLast o) ?_ (fun h => Bool.noConfusion h) turns
  intro m turn h
  cases turn with
  | thread => exact h.threadStep
  | main => exact h.mainStep

/-- Nothing is left to do exactly when the last loop is done. -/
theorem AfterLast.atRest_iff (h : AfterLast o m) :
    Machine.AtRest (CanGo o) m ↔ m.cleaned = true := by
  constructor
  · intro hrest
    have hended : m.phase = .ended := not_not.mp (hrest .thread)
    by_contra hcleaned
    exact hrest .main (Or.inr ⟨hended, hcleaned⟩)
  · intro hcleaned turn
    obtain ⟨hended, hdone⟩ := h hcleaned
    cases turn with
    | thread => exact not_not_intro hended
    | main => exact fun hgo => hgo.elim hdone fun hlast => hlast.2 hcleaned

theorem threadStep_receiving (o : Outside) (m : MainState) :
    (threadStep o m).receiving = receiveMove (o.driver 0) m.receiving := by
  unfold threadStep MainState.receiving
  cases hphase : m.phase with
  | created => rfl
  | running =>
      simp only [receiveMove, reduceCtorEq, if_false]
      split
      · rfl
      · rfl
  | stopped => rfl
  | ended => simp only [hphase]; rfl

theorem mainStep_receiving (o : Outside) (m : MainState) :
    (mainStep o m).receiving = m.receiving := by
  unfold MainState.receiving
  by_cases hmore : m.i < o.numTransfers.toNat
  · obtain ⟨hphase, hrx⟩ := mainStep_receive (o := o) hmore
    rw [hphase, hrx]
  · rcases mainStep_done hmore with hsame | ⟨hended, hcleanup⟩
    · rw [hsame]
    · rw [hcleanup, if_pos hended, if_pos hended]

/-- The receive channel has made the turns of its thread. -/
theorem run_receiving (o : Outside) (turns : List Turn) :
    (Machine.run (step o) (mainStart o) turns).receiving =
      (receiveMove (o.driver 0))^[turns.count .thread] (.created, some (mainStart o).rx) := by
  refine Machine.run_component (threadStep_receiving o) (fun m turn hturn => ?_) _ turns
  cases turn with
  | thread => exact absurd rfl hturn
  | main => exact mainStep_receiving o m

theorem run_threadTurns_i (o : Outside) (m : MainState) (n : Nat) :
    (Machine.run (step o) m (List.replicate n .thread)).i = m.i := by
  induction n generalizing m with
  | zero => rfl
  | succ n ih =>
      rw [List.replicate_succ, Machine.run_cons, ih]
      exact (threadStep_tx o m).2.1

/-- Some order of the turns brings `main` to its end exactly if the receive
thread stops. -/
theorem exists_cleaned_iff (o : Outside) :
    (∃ turns, (Machine.run (step o) (mainStart o) turns).cleaned = true) ↔
      ∃ n, ((mainStart o).rx.thread (o.driver 0) n).1 = true := by
  rw [← exists_receiveMove_ended_iff]
  constructor
  · intro hends
    obtain ⟨turns, hcleaned⟩ := hends
    refine ⟨turns.count .thread, ?_⟩
    rw [← run_receiving]
    exact (run_afterLast o turns hcleaned).1
  · intro hends
    obtain ⟨n, hn⟩ := hends
    have hphase := congrArg Prod.fst (run_receiving o
      (List.replicate (2 * o.numTransfers.toNat) .main ++ List.replicate n .thread))
    rw [List.count_append, List.count_replicate_self,
      List.count_replicate, if_neg (by decide), Nat.zero_add, hn] at hphase
    have hi : (Machine.run (step o) (mainStart o)
        (List.replicate (2 * o.numTransfers.toNat) .main ++ List.replicate n .thread)).i =
          o.numTransfers.toNat := by
      rw [Machine.run_append, run_threadTurns_i]
      exact (run_mainTurns o (Nat.le_refl _)).1
    refine ⟨List.replicate (2 * o.numTransfers.toNat) .main ++ List.replicate n .thread ++ [.main],
      ?_⟩
    rw [Machine.run_concat]
    generalize Machine.run (step o) (mainStart o)
      (List.replicate (2 * o.numTransfers.toNat) .main ++ List.replicate n .thread) = m at hphase hi
    have hended : m.phase = .ended := hphase
    simp only [step, mainStep, hi, hended, Nat.lt_irrefl, if_false, true_and]
    split
    · rfl
    · rename_i hcleaned
      exact not_not.mp hcleaned

end Commuting

/-- `main` has one end at most: however its two threads take turns, the
channels, the drivers, the dump file and all calls made are the same at the
end. -/
theorem main_end_unique (o : Outside) :
    ∃ final, ∀ turns, (Machine.run (step o) (mainStart o) turns).cleaned = true →
      Machine.run (step o) (mainStart o) turns = final := by
  by_cases hends : ∃ turns, (Machine.run (step o) (mainStart o) turns).cleaned = true
  · obtain ⟨turns, hturns⟩ := hends
    refine ⟨Machine.run (step o) (mainStart o) turns, fun turns' hturns' => ?_⟩
    exact (main_commuting o).atRest_unique trivial ((run_afterLast o turns').atRest_iff.mpr hturns')
      ((run_afterLast o turns).atRest_iff.mpr hturns)
  · exact ⟨mainStart o, fun turns hturns => absurd ⟨turns, hturns⟩ hends⟩

/-- The receive channel behind a successful `init`. -/
theorem mainStart_ready {o : Outside} (h : InitOk (o.fd 0) (o.ptr 0)) :
    (mainStart o).rx.Ready := by
  obtain ⟨hfd, hptr⟩ := h
  obtain ⟨address, haddress⟩ := Option.ne_none_iff_exists'.mp hptr
  have hrx : (mainStart o).rx =
      rxChannel o.testPoint o.numTransfers (o.fd 0) address o.opened := by
    unfold mainStart rxChannel rxStart
    rw [haddress]
  exact hrx ▸ rxChannel_ready _ _ _ _ hfd

/-- As long as both threads get their turns, `main` comes to its end exactly if
the receive thread has a limit, or one of the transfers that it starts at first
fails.  Only the receive channel must be set up; whether the input file opens
does not matter. -/
theorem main_ends_iff (o : Outside) (h : InitOk (o.fd 0) (o.ptr 0)) {turns : ℕ → Turn}
    (hfair : Machine.Fair turns) :
    (∃ n, (Machine.run (step o) (mainStart o) (Machine.upTo turns n)).cleaned = true) ↔
      (rxPlan o.testPoint o.numTransfers).2 ≠ 0 ∨
        ∃ k, k < RX_BUFFER_COUNT ∧ (o.driver 0).status k ≠ .PROXY_NO_ERROR := by
  have hready := mainStart_ready h
  have hcount : (mainStart o).rx.ch.bufferCount.toInt.toNat = RX_BUFFER_COUNT :=
    congrArg (fun n : Int32 => n.toInt.toNat) (init_frame _ _ _ _).bufferCount
  have hlimit : (mainStart o).rx.obj.numTransfers = 0 ↔
      (rxPlan o.testPoint o.numTransfers).2 = 0 := by
    constructor
    · intro hzero
      exact UInt32.toBitVec_inj.mp (Int32.toBitVec_inj.mpr hzero)
    · intro hzero
      exact congrArg UInt32.toInt32 hzero
  have hstops := hready.thread_stops_iff (o.driver 0)
  rw [hcount, ne_eq, hlimit, ← exists_cleaned_iff] at hstops
  rw [ne_eq, ← hstops]
  constructor
  · intro hends
    obtain ⟨n, hn⟩ := hends
    exact ⟨_, hn⟩
  · intro hends
    obtain ⟨order, horder⟩ := hends
    obtain ⟨n, hn⟩ := (main_commuting o).fair_atRest trivial
      ((run_afterLast o order).atRest_iff.mpr horder) hfair
    exact ⟨n, (run_afterLast o _).atRest_iff.mp hn⟩

/-- There is no input file, and the threads take turns one by one. -/
theorem main_ends_withoutFile :
    ∃ n, (Machine.run (step withoutFile) (mainStart withoutFile)
      (Machine.upTo (fun n => if n % 2 = 0 then .thread else .main) n)).cleaned = true := by
  refine (main_ends_iff withoutFile ⟨by decide, Option.some_ne_none _⟩ fun turn n => ?_).mpr
    (Or.inl (by decide))
  cases turn with
  | thread => exact ⟨2 * n, by omega, if_pos (by omega)⟩
  | main => exact ⟨2 * n + 1, by omega, if_neg (by omega)⟩

end RlsMini.Dma
