import RlsMini.Dma.Api
import RlsMini.Dma.Lifecycle

/-!
# `main` with failing steps

`init` leaves the mapping of a channel null when `open` or `mmap` fails, and
`misc_read_8chs_from_file` leaves the buffers alone when the input file cannot
be opened.  Both return an error, and `main` looks at neither.

A run of `main` is a list of turns of its two threads: the receive thread,
which is `PIThread`, and the thread of `main` with the transmit loop.  They
share no channel until the receive thread has ended.  `Safe` is what should
hold wherever a run stands, and `main_safe_iff` says which outcomes of the
calls make it hold in every run.
-/

namespace RlsMini.Dma

open RlsMini.Samples

/-! ## Accesses through the null pointer -/

/-- The mapping that an access goes through. -/
def Access.ptr : Access → Option Nat
  | .states ptr _ => ptr
  | .word ptr _ _ => ptr

/-- No access so far has gone through the null pointer. -/
def Mapped (s : Sys) : Prop := ∀ access ∈ s.accesses, access.ptr ≠ none

section Channels

variable {d : ProxyDriver} {s : Sys}

theorem Mapped.waitForTransfer (h : Mapped s) (hptr : s.ch.bufPtr ≠ none) :
    Mapped (s.waitForTransfer d).2 := by
  by_cases hprogress : s.ch.inProgressCount = 0
  · rw [waitForTransfer_idle hprogress]
    exact h
  · by_cases hok : d.status s.proxy.finishes = .PROXY_NO_ERROR
    · intro access hmem
      rw [waitForTransfer_accesses d hprogress hok, List.mem_append, List.mem_cons,
        List.mem_map] at hmem
      rcases hmem with hold | rfl | ⟨w, -, rfl⟩
      · exact h access hold
      · exact hptr
      · exact hptr
    · rw [waitForTransfer_error hprogress hok]
      exact forall_mem_concat h hptr

/-- The loops only go through the mapping of the channel. -/
theorem LoopFrame.mapped {s s' : Sys} (hloop : LoopFrame s s') (h : Mapped s)
    (hptr : s.ch.bufPtr ≠ none) : Mapped s' := by
  obtain ⟨bs, hbs⟩ := hloop.accesses
  intro access hmem
  rw [hbs, List.mem_append, List.mem_map] at hmem
  rcases hmem with hold | ⟨b, -, rfl⟩
  · exact h access hold
  · exact hptr

theorem Mapped.run (h : Mapped s) (hptr : s.ch.bufPtr ≠ none) : Mapped (s.run d).2 := by
  have hwait : Mapped (s.waitForTransfer d).2 := h.waitForTransfer hptr
  simp only [Sys.run]
  split
  · exact hwait
  · split
    · exact hwait
    · exact hwait

/-- `begin` sets the length of buffer 0 at least. -/
theorem begin_accesses (hcount : 1 ≤ s.ch.bufferCount) :
    .states s.ch.bufPtr 0 ∈ (s.begin d).accesses := by
  obtain ⟨fuel, hfuel⟩ : ∃ fuel, s.ch.bufferCount.toNatClampNeg = fuel + 1 := by
    have hone : (1 : Int) ≤ s.ch.bufferCount.toInt := Int32.le_iff_toInt_le.mp hcount
    exact Nat.exists_eq_succ_of_ne_zero (by rw [← Int32.toNat_toInt]; omega)
  have hlt : (0 : Int32) < s.ch.bufferCount := by
    have hone : (1 : Int) ≤ s.ch.bufferCount.toInt := Int32.le_iff_toInt_le.mp hcount
    rw [Int32.lt_iff_toInt_lt, Int32.toInt_zero]
    omega
  have hset : Access.states s.ch.bufPtr 0 ∈
      ({ s with ch := { s.ch with bufferId := 0 } }.setLength 0).accesses :=
    List.mem_append_right _ (List.mem_singleton_self _)
  simp only [Sys.begin, hfuel, Sys.beginLoop, if_pos hlt]
  split
  · exact hset
  · obtain ⟨bs, hbs⟩ := (beginLoop_frame d fuel _).accesses
    rw [hbs]
    exact List.mem_append_left _ hset

/-! ## Whether `init` succeeds -/

/-- The outcome of the two calls of an `init` that succeeds. -/
def InitOk (fd : Int32) (ptr : Option Nat) : Prop := 1 ≤ fd ∧ ptr ≠ none

/-- A successful `init` leaves a mapping, and it has used no other. -/
theorem init_mapped {cfg : ChConfig} {fd : Int32} {ptr : Option Nat} {p : Proxy}
    (h : InitOk fd ptr) :
    (Sys.init cfg fd ptr { proxy := p }).2.ch.bufPtr ≠ none ∧
      Mapped (Sys.init cfg fd ptr { proxy := p }).2 := by
  obtain ⟨hfd, hptr⟩ := h
  obtain ⟨address, rfl⟩ := Option.ne_none_iff_exists'.mp hptr
  rw [init_eq hfd]
  have hloop := initLoop_lengthsSet cfg.bufferCount.toNatClampNeg (Sys.mapped cfg fd address p)
  refine ⟨?_, hloop.mapped (fun access hmem => absurd hmem List.not_mem_nil)
    (Option.some_ne_none address)⟩
  rw [hloop.bufPtr]
  exact Option.some_ne_none address

/-- A failed `init` leaves the null pointer, and it has used no mapping. -/
theorem init_failed {cfg : ChConfig} {fd : Int32} {ptr : Option Nat} {p : Proxy}
    (h : ¬ InitOk fd ptr) :
    (Sys.init cfg fd ptr { proxy := p }).2.ch.bufPtr = none ∧
      (Sys.init cfg fd ptr { proxy := p }).2.accesses = [] := by
  simp only [Sys.init]
  split
  · exact ⟨rfl, rfl⟩
  · rename_i hfd
    have hnull : ptr = none := by
      by_contra hptr
      exact h ⟨Int32.not_lt.mp hfd, hptr⟩
    rw [if_pos hnull]
    exact ⟨hnull, rfl⟩

/-- `init` itself goes through no null pointer, whether it succeeds or not. -/
theorem mapped_init (cfg : ChConfig) (fd : Int32) (ptr : Option Nat) (p : Proxy) :
    Mapped (Sys.init cfg fd ptr { proxy := p }).2 := by
  by_cases h : InitOk fd ptr
  · exact (init_mapped h).2
  · intro access hmem
    rw [(init_failed h).2] at hmem
    exact absurd hmem List.not_mem_nil

end Channels

/-! ## The two threads -/

/-- What a run of `main` finds outside: its arguments, the results of the nine
`open` and `mmap` calls of `init` and of the `fopen` calls, and the drivers. -/
structure Outside where
  testPoint : UInt32
  numTransfers : UInt32
  fd : Fin 9 → Int32
  /-- The results of `mmap`; `none` is `MAP_FAILED`. -/
  ptr : Fin 9 → Option Nat
  /-- Whether `fopen` has given `dump_file`. -/
  opened : Bool
  /-- The input file as each reload finds it; `none` when it cannot be
  opened. -/
  file : Nat → Option (List Char)
  ram : Fin 8 → Ram
  driver : Fin 9 → ProxyDriver

/-- Where the receive thread is: `PIThread` calls `begin`, then `run` until it
is stopped, then `end`. -/
inductive ThreadPhase where
  | created
  | running
  | stopped
  | ended
  deriving DecidableEq, Repr

/-- The state of `main` from `dma_channels[0]->start()` on. -/
structure MainState where
  phase : ThreadPhase
  rx : Sys
  tx : TxState
  /-- The iteration of the transmit loop. -/
  i : Nat
  /-- Whether the reload test of the iteration is done. -/
  loaded : Bool
  /-- What the calls of `misc_read_8chs_from_file` have returned. -/
  loads : List Int
  /-- Whether the last loop has cleaned the channels up. -/
  cleaned : Bool

/-- Which of the two threads goes on. -/
inductive Turn where
  | thread
  | main
  deriving DecidableEq, Repr

section Threads

variable (o : Outside)

/-- The channels when the two threads start. -/
def mainStart : MainState where
  phase := .created
  rx := (Sys.init (rxConfig RX_BUFFER_COUNT) (o.fd rxIndex) (o.ptr rxIndex) { proxy := .opened }).2
    |>.setSaveToFile o.opened (rxPlan o.testPoint o.numTransfers).1.toInt32
    |>.setNumTransfers (rxPlan o.testPoint o.numTransfers).2.toInt32
  tx :=
    { channels := fun k => (Sys.init (txConfig TX_BUFFER_COUNT k) (o.fd k.succ) (o.ptr k.succ)
        { proxy := { Proxy.opened with ram := o.ram k } }).2.setNumTransfers o.numTransfers.toInt32
      cnt := 0 }
  i := 0
  loaded := false
  loads := []
  cleaned := false

/-- The next call of `PIThread` on the receive channel. -/
def threadStep (m : MainState) : MainState :=
  match m.phase with
  | .created => { m with phase := .running, rx := m.rx.begin (o.driver rxIndex) }
  | .running =>
      let (stop, rx) := m.rx.run (o.driver rxIndex)
      { m with phase := if stop then .stopped else .running, rx := rx }
  | .stopped => { m with phase := .ended, rx := m.rx.threadEnd }
  | .ended => m

/-- What `misc_read_8chs_from_file` returns in a reload. -/
def reloadResult (file : Nat → Option (List Char)) (T : Nat) (st : TxState) : Int :=
  (miscRead8chsFromFile (file st.cnt) (fun k => (st.channels k).proxy.ram) (BUFFER_SIZE * T)
    (BUFFER_SIZE / 4 * T * st.cnt)).1

/-- The words of the buffers at `ptr` that a call with this result has
written: all of them, if the file was opened. -/
def loaderAccesses (T : Nat) (result : Int) (ptr : Option Nat) : List Access :=
  if result = 0 then
    (List.range (BUFFER_SIZE / 4 * T)).map fun w =>
      .word ptr (w / (BUFFER_SIZE / 4) : Nat) (w % (BUFFER_SIZE / 4))
  else []

/-- A reload, with what it accesses. -/
def loadStep (m : MainState) : MainState :=
  let result := reloadResult o.file TX_BUFFER_COUNT m.tx
  let tx := reload o.file TX_BUFFER_COUNT m.tx
  { m with
    tx := { tx with
      channels := fun k => { tx.channels k with
        accesses := (tx.channels k).accesses ++
          loaderAccesses TX_BUFFER_COUNT result (tx.channels k).ch.bufPtr } }
    loads := m.loads ++ [result]
    loaded := true }

/-- The next part of the transmit loop: the reload test of an iteration, or
its transfers; behind the loop, the wait for the receive thread and the last
cleanup loop. -/
def mainStep (m : MainState) : MainState :=
  if m.i < o.numTransfers.toNat then
    if m.loaded then
      { m with
        tx := transmit (fun k => o.driver k.succ) m.tx
        i := m.i + 1
        loaded := false }
    else if m.i % TX_BUFFER_COUNT = 0 then loadStep o m
    else { m with loaded := true }
  else if m.phase = .ended ∧ ¬ m.cleaned then
    { m with
      rx := m.rx.cleanup
      tx := { m.tx with channels := fun k => (m.tx.channels k).cleanup }
      cleaned := true }
  else m

def step (m : MainState) : Turn → MainState
  | .thread => threadStep o m
  | .main => mainStep o m

end Threads

/-! ## What should hold -/

/-- Nothing has been accessed through the null pointer, and every
`START_XFER` of a transmit channel names a buffer that the reload which covers
its iteration has filled. -/
structure Safe (m : MainState) : Prop where
  rx : Mapped m.rx
  tx : ∀ k, Mapped (m.tx.channels k)
  filled : ∀ k i b, (startedBuffers (m.tx.channels k).calls)[i]? = some b →
    IsBuffer TX_BUFFER_COUNT b ∧ m.loads[i / TX_BUFFER_COUNT]? = some 0

/-- The outcomes that `main` gets by with: the receive channel is set up, and
unless there is nothing to transmit, so are the transmit channels, and every
reload of the loop opens the file. -/
structure SetUp (o : Outside) : Prop where
  rx : InitOk (o.fd 0) (o.ptr 0)
  tx : o.numTransfers ≠ 0 → ∀ k : Fin 8, InitOk (o.fd k.succ) (o.ptr k.succ)
  file : ∀ i, i < o.numTransfers.toNat → o.file (i / TX_BUFFER_COUNT) ≠ none

/-! ## How far a run is -/

section Progress

variable {d : ProxyDriver}

/-- A round of a transmit channel starts its one buffer. -/
theorem startedBuffers_transfer {s : Sys} (hcount : s.ch.bufferCount = 1) :
    startedBuffers ((s.startTransfer d).waitForTransfer d).2.calls =
        startedBuffers s.calls ++ [0] ∧
      ((s.startTransfer d).waitForTransfer d).2.ch.bufferCount = 1 := by
  have hbuffer : (s.ch.counter % s.ch.bufferCount).toInt = 0 := by
    rw [hcount, Int32.toInt_mod, Int32.toInt_one, Int.tmod_one]
  have hstart : startedBuffers (s.startTransfer d).calls = startedBuffers s.calls ++ [0] := by
    show startedBuffers (s.calls ++ [.start (s.ch.counter % s.ch.bufferCount).toInt]) = _
    rw [startedBuffers_append, hbuffer]
    rfl
  refine ⟨?_, (waitForTransfer_cursor d _).2.trans hcount⟩
  rw [← hstart]
  by_cases hprogress : (s.startTransfer d).ch.inProgressCount = 0
  · rw [waitForTransfer_idle hprogress]
  · rw [waitForTransfer_calls hprogress, startedBuffers_append]
    exact List.append_nil _

/-- What a reload of the transmit loop returns. -/
def loadResult (o : Outside) (q : Nat) : Int := if o.file q = none then -1 else 0

theorem reloadResult_eq (o : Outside) (T : Nat) (st : TxState) :
    reloadResult o.file T st = loadResult o st.cnt := by
  unfold reloadResult loadResult
  split
  · rename_i hnone
    rw [hnone]
    rfl
  · rename_i hsome
    obtain ⟨text, htext⟩ := Option.ne_none_iff_exists'.mp hsome
    rw [htext]
    rfl

/-- Where the transmit loop stands, whatever has failed. -/
structure Progress (o : Outside) (m : MainState) : Prop where
  i_le : m.i ≤ o.numTransfers.toNat
  loaded : m.loaded = true → m.i < o.numTransfers.toNat
  cnt : m.tx.cnt = m.i + m.loaded.toNat
  loads : m.loads = (List.range (m.i + m.loaded.toNat)).map (loadResult o)
  started : ∀ k, startedBuffers (m.tx.channels k).calls = List.replicate m.i 0
  bufferCount : ∀ k, (m.tx.channels k).ch.bufferCount = 1

variable {o : Outside} {m : MainState}

theorem mainStart_progress (o : Outside) : Progress o (mainStart o) where
  i_le := Nat.zero_le _
  loaded := fun h => Bool.noConfusion h
  cnt := rfl
  loads := rfl
  started k := by
    show startedBuffers (Sys.init _ _ _ _).2.calls = _
    rw [(init_frame _ _ _ _).calls]
    rfl
  bufferCount k := (init_frame _ _ _ _).bufferCount

/-- The receive thread touches nothing of the transmit loop. -/
theorem threadStep_tx (o : Outside) (m : MainState) :
    (threadStep o m).tx = m.tx ∧ (threadStep o m).i = m.i ∧
      (threadStep o m).loaded = m.loaded ∧ (threadStep o m).loads = m.loads := by
  unfold threadStep
  split <;> exact ⟨rfl, rfl, rfl, rfl⟩

theorem Progress.threadStep (h : Progress o m) : Progress o (threadStep o m) := by
  obtain ⟨htx, hi, hloaded, hloads⟩ := threadStep_tx o m
  exact ⟨by rw [hi]; exact h.i_le, by rw [hi, hloaded]; exact h.loaded,
    by rw [htx, hi, hloaded]; exact h.cnt, by rw [hi, hloaded, hloads]; exact h.loads,
    by rw [htx, hi]; exact h.started, by rw [htx]; exact h.bufferCount⟩

/-- A reload test comes before the transfers of its iteration. -/
theorem mainStep_load (hmore : m.i < o.numTransfers.toNat) (hloaded : m.loaded = false) :
    mainStep o m = loadStep o m := by
  unfold mainStep
  rw [if_pos hmore, hloaded, if_neg Bool.false_ne_true, TX_BUFFER_COUNT, Nat.mod_one, if_pos rfl]

theorem mainStep_transmit (hmore : m.i < o.numTransfers.toNat) (hloaded : m.loaded = true) :
    mainStep o m = { m with
      tx := transmit (fun k => o.driver k.succ) m.tx
      i := m.i + 1
      loaded := false } := by
  unfold mainStep
  rw [if_pos hmore, if_pos hloaded]

theorem mainStep_done (hdone : ¬ m.i < o.numTransfers.toNat) :
    mainStep o m = m ∨ m.phase = .ended ∧ mainStep o m = { m with
      rx := m.rx.cleanup
      tx := { m.tx with channels := fun k => (m.tx.channels k).cleanup }
      cleaned := true } := by
  unfold mainStep
  rw [if_neg hdone]
  split
  · rename_i hcleanup
    exact Or.inr ⟨hcleanup.1, rfl⟩
  · exact Or.inl rfl

theorem Progress.loadStep (h : Progress o m) (hmore : m.i < o.numTransfers.toNat)
    (hloaded : m.loaded = false) : Progress o (loadStep o m) where
  i_le := h.i_le
  loaded := fun _ => hmore
  cnt := by
    have hcnt := h.cnt
    rw [hloaded, Bool.toNat_false, Nat.add_zero] at hcnt
    show m.tx.cnt + 1 = m.i + 1
    rw [hcnt]
  loads := by
    have hcnt := h.cnt
    have hloads := h.loads
    rw [hloaded] at hcnt hloads
    show m.loads ++ [reloadResult o.file TX_BUFFER_COUNT m.tx] =
      (List.range (m.i + 1)).map (loadResult o)
    rw [reloadResult_eq, hcnt, hloads, List.range_succ, List.map_append]
    rfl
  started := h.started
  bufferCount := h.bufferCount

theorem Progress.mainStep (h : Progress o m) : Progress o (mainStep o m) := by
  by_cases hmore : m.i < o.numTransfers.toNat
  · by_cases hloaded : m.loaded = true
    · rw [mainStep_transmit hmore hloaded]
      have hcnt := h.cnt
      have hloads := h.loads
      rw [hloaded] at hcnt hloads
      refine ⟨hmore, fun h => Bool.noConfusion h, hcnt, hloads, fun k => ?_, fun k => ?_⟩
      · have hstarted := (startedBuffers_transfer (d := o.driver k.succ) (h.bufferCount k)).1
        rw [h.started k, ← List.replicate_succ'] at hstarted
        exact hstarted
      · exact (startedBuffers_transfer (h.bufferCount k)).2
    · rw [mainStep_load hmore (Bool.eq_false_iff.mpr hloaded)]
      exact h.loadStep hmore (Bool.eq_false_iff.mpr hloaded)
  · rcases mainStep_done hmore with hsame | ⟨-, hcleanup⟩
    · rw [hsame]
      exact h
    · rw [hcleanup]
      exact ⟨h.i_le, h.loaded, h.cnt, h.loads, h.started, h.bufferCount⟩

/-- Every run of the two threads. -/
theorem run_progress (o : Outside) (turns : List Turn) :
    Progress o (Machine.run (step o) (mainStart o) turns) := by
  refine Machine.invariant_run (I := Progress o) ?_ (mainStart_progress o) turns
  intro m turn h
  cases turn with
  | thread => exact h.threadStep
  | main => exact h.mainStep

/-! ## A run whose steps all succeed -/

/-- The channels that are still in use have a mapping, and nothing has gone
through the null pointer. -/
structure Grounded (o : Outside) (m : MainState) : Prop where
  rxPtr : m.phase ≠ .ended → m.rx.ch.bufPtr ≠ none
  rx : Mapped m.rx
  txPtr : m.i < o.numTransfers.toNat → ∀ k, (m.tx.channels k).ch.bufPtr ≠ none
  tx : ∀ k, Mapped (m.tx.channels k)

theorem ne_zero_of_lt {n : UInt32} {i : Nat} (h : i < n.toNat) : n ≠ 0 := by
  rintro rfl
  exact absurd h (Nat.not_lt_zero i)

theorem SetUp.grounded (h : SetUp o) : Grounded o (mainStart o) where
  rxPtr := fun _ => (init_mapped h.rx).1
  rx := (init_mapped h.rx).2
  txPtr := fun hmore k => (init_mapped (h.tx (ne_zero_of_lt hmore) k)).1
  tx _ := mapped_init _ _ _ _

theorem Grounded.threadStep (h : Grounded o m) : Grounded o (threadStep o m) := by
  unfold Dma.threadStep
  split
  · rename_i hphase
    have hptr : m.rx.ch.bufPtr ≠ none := h.rxPtr (by rw [hphase]; decide)
    have hbegin := begin_frame (o.driver 0) m.rx
    refine ⟨fun _ => ?_, hbegin.mapped h.rx hptr, h.txPtr, h.tx⟩
    show (m.rx.begin (o.driver 0)).ch.bufPtr ≠ none
    rw [hbegin.bufPtr]
    exact hptr
  · rename_i hphase
    have hptr : m.rx.ch.bufPtr ≠ none := h.rxPtr (by rw [hphase]; decide)
    refine ⟨fun _ => ?_, h.rx.run hptr, h.txPtr, h.tx⟩
    show (m.rx.run (o.driver 0)).2.ch.bufPtr ≠ none
    rw [(keeps_run (o.driver 0) m.rx).bufPtr]
    exact hptr
  · exact ⟨fun hphase => absurd rfl hphase, h.rx, h.txPtr, h.tx⟩
  · exact h

theorem Grounded.loadStep (h : Grounded o m) (hmore : m.i < o.numTransfers.toNat) :
    Grounded o (loadStep o m) := by
  refine ⟨h.rxPtr, h.rx, h.txPtr, fun k access hmem => ?_⟩
  rcases List.mem_append.mp hmem with hold | hnew
  · exact h.tx k access hold
  · simp only [loaderAccesses] at hnew
    split at hnew
    · obtain ⟨w, -, rfl⟩ := List.mem_map.mp hnew
      exact h.txPtr hmore k
    · exact absurd hnew List.not_mem_nil

theorem Grounded.mainStep (h : Grounded o m) : Grounded o (mainStep o m) := by
  by_cases hmore : m.i < o.numTransfers.toNat
  · by_cases hloaded : m.loaded = true
    · rw [mainStep_transmit hmore hloaded]
      refine ⟨h.rxPtr, h.rx, fun _ k => ?_, fun k => ?_⟩
      · have hkeeps := keeps_waitForTransfer (o.driver k.succ)
          ((m.tx.channels k).startTransfer (o.driver k.succ))
        show (Sys.waitForTransfer (o.driver k.succ) _).2.ch.bufPtr ≠ none
        rw [hkeeps.bufPtr]
        exact h.txPtr hmore k
      · exact Mapped.waitForTransfer (s := (m.tx.channels k).startTransfer (o.driver k.succ))
          (h.tx k) (h.txPtr hmore k)
    · rw [mainStep_load hmore (Bool.eq_false_iff.mpr hloaded)]
      exact h.loadStep hmore
  · rcases mainStep_done hmore with hsame | ⟨hended, hcleanup⟩
    · rw [hsame]
      exact h
    · rw [hcleanup]
      exact ⟨fun hphase => absurd hended hphase, h.rx, fun hi => absurd hi hmore, h.tx⟩

theorem SetUp.run_grounded (h : SetUp o) (turns : List Turn) :
    Grounded o (Machine.run (step o) (mainStart o) turns) := by
  refine Machine.invariant_run (I := Grounded o) ?_ h.grounded turns
  intro m turn hm
  cases turn with
  | thread => exact hm.threadStep
  | main => exact hm.mainStep

/-- Where the loop stands, the buffers it has started were filled. -/
theorem Progress.filled_iff (h : Progress o m) (k : Fin 8) :
    (∀ i b, (startedBuffers (m.tx.channels k).calls)[i]? = some b →
        IsBuffer TX_BUFFER_COUNT b ∧ m.loads[i / TX_BUFFER_COUNT]? = some 0) ↔
      ∀ i, i < m.i → o.file (i / TX_BUFFER_COUNT) ≠ none := by
  have hresult : ∀ i, i < m.i → (m.loads[i / TX_BUFFER_COUNT]? = some 0 ↔
      o.file (i / TX_BUFFER_COUNT) ≠ none) := by
    intro i hi
    rw [h.loads, TX_BUFFER_COUNT, Nat.div_one, List.getElem?_map,
      List.getElem?_range (Nat.lt_add_right _ hi), Option.map_some, Option.some.injEq, loadResult]
    split
    · rename_i hnone
      simp [hnone]
    · rename_i hsome
      simp [hsome]
  rw [h.started k]
  constructor
  · intro hall i hi
    have hstarted : (List.replicate m.i (0 : Int))[i]? = some 0 := by
      rw [List.getElem?_replicate, if_pos hi]
    exact (hresult i hi).mp (hall i 0 hstarted).2
  · intro hfile i b hstarted
    rw [List.getElem?_replicate] at hstarted
    split at hstarted
    · rename_i hi
      obtain rfl := Option.some.inj hstarted
      exact ⟨by unfold IsBuffer; decide, (hresult i hi).mpr (hfile i hi)⟩
    · contradiction

/-- Two turns of the main thread are an iteration of the loop. -/
theorem run_mainTurns (o : Outside) {n : Nat} (hn : n ≤ o.numTransfers.toNat) :
    (Machine.run (step o) (mainStart o) (List.replicate (2 * n) .main)).i = n ∧
      (Machine.run (step o) (mainStart o) (List.replicate (2 * n) .main)).loaded = false := by
  induction n with
  | zero => exact ⟨rfl, rfl⟩
  | succ n ih =>
      obtain ⟨hi, hloaded⟩ := ih (by omega)
      have hturns : List.replicate (2 * (n + 1)) Turn.main =
          List.replicate (2 * n) .main ++ [.main] ++ [.main] := by
        rw [Nat.mul_succ, List.replicate_succ', List.replicate_succ']
      have hload := mainStep_load (o := o) (by rw [hi]; omega) hloaded
      have hsame : (loadStep o (Machine.run (step o) (mainStart o)
          (List.replicate (2 * n) .main))).i = n := hi
      have hmore : (loadStep o (Machine.run (step o) (mainStart o)
          (List.replicate (2 * n) .main))).i < o.numTransfers.toNat := by
        rw [hsame]
        omega
      have htransmit := mainStep_transmit (o := o) hmore rfl
      rw [hturns, Machine.run_concat, Machine.run_concat]
      simp only [step]
      rw [hload, htransmit]
      exact ⟨congrArg (· + 1) hi, rfl⟩

/-- The receive thread uses its mapping at once. -/
theorem initOk_rx_of_safe (h : Safe (Machine.run (step o) (mainStart o) [.thread])) :
    InitOk (o.fd 0) (o.ptr 0) := by
  by_contra hfailed
  have hnull : (mainStart o).rx.ch.bufPtr = none := (init_failed hfailed).1
  have hcount : (mainStart o).rx.ch.bufferCount = 8 := (init_frame _ _ _ _).bufferCount
  have hused := begin_accesses (d := o.driver 0) (s := (mainStart o).rx) (by rw [hcount]; decide)
  exact h.rx _ hused hnull

/-- The first reload uses the mapping of every transmit channel. -/
theorem initOk_tx_of_safe (hnum : 0 < o.numTransfers.toNat) (hfile : o.file 0 ≠ none)
    (h : Safe (Machine.run (step o) (mainStart o) [.main])) (k : Fin 8) :
    InitOk (o.fd k.succ) (o.ptr k.succ) := by
  by_contra hfailed
  have hnull : ((mainStart o).tx.channels k).ch.bufPtr = none := (init_failed hfailed).1
  have hload : Machine.run (step o) (mainStart o) [.main] = loadStep o (mainStart o) :=
    mainStep_load hnum rfl
  have hresult : reloadResult o.file TX_BUFFER_COUNT (mainStart o).tx = 0 := by
    rw [reloadResult_eq]
    exact if_neg hfile
  have hused : Access.word none 0 0 ∈
      ((loadStep o (mainStart o)).tx.channels k).accesses := by
    show _ ∈ ((mainStart o).tx.channels k).accesses ++ loaderAccesses TX_BUFFER_COUNT
      (reloadResult o.file TX_BUFFER_COUNT (mainStart o).tx)
      ((mainStart o).tx.channels k).ch.bufPtr
    rw [hresult, hnull, loaderAccesses, if_pos rfl]
    exact List.mem_append_right _ (List.mem_map.mpr ⟨0, List.mem_range.mpr (by decide), rfl⟩)
  rw [hload] at h
  exact h.tx k _ hused rfl

end Progress

/-- Every run of the two threads is safe exactly if the steps that `main`
depends on succeed. -/
theorem main_safe_iff (o : Outside) :
    (∀ turns, Safe (Machine.run (step o) (mainStart o) turns)) ↔ SetUp o := by
  constructor
  · intro hsafe
    have hfile : ∀ i, i < o.numTransfers.toNat → o.file (i / TX_BUFFER_COUNT) ≠ none := by
      intro i hi
      have hturns := run_mainTurns o (by omega : i + 1 ≤ o.numTransfers.toNat)
      have hprogress := run_progress o (List.replicate (2 * (i + 1)) .main)
      exact (hprogress.filled_iff 0).mp ((hsafe _).filled 0) i (by rw [hturns.1]; omega)
    refine ⟨initOk_rx_of_safe (hsafe _), fun hnum k => ?_, hfile⟩
    have hpos : 0 < o.numTransfers.toNat := by
      rw [Nat.pos_iff_ne_zero, ne_eq, ← UInt32.toNat_zero, UInt32.toNat_inj]
      exact hnum
    exact initOk_tx_of_safe hpos (hfile 0 hpos) (hsafe _) k
  · intro hsetUp turns
    have hprogress := run_progress o turns
    have hgrounded := hsetUp.run_grounded turns
    refine ⟨hgrounded.rx, hgrounded.tx, fun k => (hprogress.filled_iff k).mpr fun i hi => ?_⟩
    have hle := hprogress.i_le
    exact hsetUp.file i (by omega)

/-- One transfer at the bypass test point; the input file cannot be opened. -/
def withoutFile : Outside where
  testPoint := TP_BYPASS
  numTransfers := 1
  fd k := Int32.ofNat (k.val + 3)
  ptr k := some (4096 * (32 * k.val + 16))
  opened := true
  file _ := none
  ram _ _ := 0
  driver _ := .reader

/-- The first transfer is started all the same, in buffers that nobody has
filled. -/
theorem main_starts_unfilled :
    ((Machine.run (step withoutFile) (mainStart withoutFile) [.main, .main]).loads = [-1] ∧
      startedBuffers ((Machine.run (step withoutFile) (mainStart withoutFile)
        [.main, .main]).tx.channels 7).calls = [0]) ∧
      ¬ ∀ turns, Safe (Machine.run (step withoutFile) (mainStart withoutFile) turns) := by
  have hprogress := run_progress withoutFile [.main, .main]
  have hturns := run_mainTurns withoutFile (n := 1) (by decide)
  have hi : (Machine.run (step withoutFile) (mainStart withoutFile) [.main, .main]).i = 1 :=
    hturns.1
  have hloaded : (Machine.run (step withoutFile) (mainStart withoutFile)
      [.main, .main]).loaded = false := hturns.2
  refine ⟨⟨?_, ?_⟩, fun hsafe => ?_⟩
  · rw [hprogress.loads, hi, hloaded]
    decide
  · rw [hprogress.started, hi]
    rfl
  · exact (hprogress.filled_iff 7).mp ((hsafe _).filled 7) 0 (by rw [hi]; decide) rfl

end RlsMini.Dma
