import RlsMini.Dma.Accesses
import RlsMini.Dma.Receive

/-!
# The methods of `dma_channel` in any order

`buffer_id` is the loop variable of `init`, `begin` and
`single_transfer_all_bufs`, the cursor of `run` and `single_transfer_one_buf`,
and the index of `start_transfer`.  The loops of `init` and
`single_transfer_all_bufs` leave it one past the last buffer, and only `begin`
sets it back.

`CursorIn B s` is the invariant of every order of calls: `buffer_id` is a
buffer or the one past the last.  `Guarded` says which calls are safe in a
state, and `api_indices_below_iff` that these are the only ones.  By
`pastEnd_apiStep_iff` the calls so far tell where the cursor is.
-/

namespace RlsMini.Dma

open RlsMini.CInt

/-! ## Indices -/

/-- The buffer that a call names. -/
def Call.index : Call → Int
  | .start b => b
  | .finish b _ => b
  | .xfer b _ => b

/-- The buffer whose state or words are used. -/
def Access.index : Access → Int
  | .states _ b => b
  | .word _ b _ => b

/-- `b` is one of the first `B` buffers. -/
def IsBuffer (B : Nat) (b : Int) : Prop := 0 ≤ b ∧ b < B

/-- Every index used so far is that of a buffer. -/
structure IndicesBelow (B : Nat) (s : Sys) : Prop where
  calls : ∀ call ∈ s.calls, IsBuffer B call.index
  accesses : ∀ access ∈ s.accesses, IsBuffer B access.index

theorem forall_mem_concat {α : Type} {P : α → Prop} {l : List α} {a : α} (hl : ∀ x ∈ l, P x)
    (ha : P a) : ∀ x ∈ l ++ [a], P x := by
  intro x hx
  rcases List.mem_append.mp hx with hx | hx
  · exact hl x hx
  · rw [List.mem_singleton.mp hx]
    exact ha

section Operations

variable {d : ProxyDriver} {B : Nat} {s : Sys}

theorem IndicesBelow.setLength (h : IndicesBelow B s) {b : Int32} (hb : IsBuffer B b.toInt) :
    IndicesBelow B (s.setLength b) :=
  ⟨h.calls, forall_mem_concat h.accesses hb⟩

theorem IndicesBelow.startTransferForBuf (h : IndicesBelow B s) {b : Int32}
    (hb : IsBuffer B b.toInt) : IndicesBelow B (s.startTransferForBuf d b) :=
  ⟨forall_mem_concat h.calls hb, h.accesses⟩

theorem IndicesBelow.startTransfer (h : IndicesBelow B s)
    (hb : IsBuffer B (s.ch.counter % s.ch.bufferCount).toInt) :
    IndicesBelow B (s.startTransfer d) :=
  ⟨forall_mem_concat h.calls hb, h.accesses⟩

theorem IndicesBelow.xfer (h : IndicesBelow B s) (hb : IsBuffer B s.ch.bufferId.toInt) :
    IndicesBelow B (s.xfer d) :=
  ⟨forall_mem_concat h.calls hb, h.accesses⟩

theorem IndicesBelow.waitForTransfer (h : IndicesBelow B s)
    (hb : s.ch.inProgressCount = 0 ∨ IsBuffer B s.ch.bufferId.toInt) :
    IndicesBelow B (s.waitForTransfer d).2 := by
  by_cases hprogress : s.ch.inProgressCount = 0
  · rw [waitForTransfer_idle hprogress]
    exact h
  have hbuffer := hb.resolve_left hprogress
  refine ⟨?_, ?_⟩
  · rw [waitForTransfer_calls hprogress]
    exact forall_mem_concat h.calls hbuffer
  · by_cases hok : d.status s.proxy.finishes = .PROXY_NO_ERROR
    · rw [waitForTransfer_accesses d hprogress hok]
      intro access hmem
      rw [List.mem_append, List.mem_cons, List.mem_map] at hmem
      rcases hmem with hold | rfl | ⟨w, -, rfl⟩
      · exact h.accesses access hold
      · exact hbuffer
      · exact hbuffer
    · rw [waitForTransfer_error hprogress hok]
      exact forall_mem_concat h.accesses hbuffer

/-- With a transfer in progress `wait_for_transfer` uses the cursor. -/
theorem IndicesBelow.of_waitForTransfer (h : IndicesBelow B (s.waitForTransfer d).2)
    (hprogress : s.ch.inProgressCount ≠ 0) : IsBuffer B s.ch.bufferId.toInt := by
  have hcalls := h.calls
  rw [waitForTransfer_calls hprogress] at hcalls
  exact hcalls _ (List.mem_append_right _ (List.mem_singleton_self _))

/-! ## The cursor -/

/-- The cursor is a buffer or the one past the last, and every index used so
far is that of a buffer. -/
structure CursorIn (B : Nat) (s : Sys) : Prop where
  bufferCount : s.ch.bufferCount.toInt = B
  low : 0 ≤ s.ch.bufferId.toInt
  high : s.ch.bufferId.toInt ≤ B
  indices : IndicesBelow B s

/-- The cursor is where the loops of `init` and `single_transfer_all_bufs`
leave it. -/
def PastEnd (s : Sys) : Prop := s.ch.bufferId = s.ch.bufferCount

/-- A cursor that is not past the end is a buffer. -/
theorem CursorIn.not_pastEnd_iff (h : CursorIn B s) :
    ¬ PastEnd s ↔ IsBuffer B s.ch.bufferId.toInt := by
  have heq : s.ch.bufferId = s.ch.bufferCount ↔ s.ch.bufferId.toInt = B := by
    rw [← Int32.toInt_inj, h.bufferCount]
  have hlow := h.low
  have hhigh := h.high
  rw [PastEnd, heq, IsBuffer]
  omega

/-- A cursor that has come to the number of buffers. -/
theorem CursorIn.pastEnd_of_le (h : CursorIn B s) (hle : (B : Int) ≤ s.ch.bufferId.toInt) :
    PastEnd s := by
  by_contra hset
  exact Int.not_lt.mpr hle (h.not_pastEnd_iff.mp hset).2

/-- The test of the three loops. -/
theorem CursorIn.lt_iff (h : CursorIn B s) :
    s.ch.bufferId < s.ch.bufferCount ↔ IsBuffer B s.ch.bufferId.toInt := by
  have hlow := h.low
  rw [Int32.lt_iff_toInt_lt, h.bufferCount, IsBuffer]
  omega

theorem toInt_succ (hmax : B ≤ BUFFER_COUNT) {b : Int32} (hhigh : b.toInt ≤ B) :
    (b + 1).toInt = b.toInt + 1 := by
  simp only [BUFFER_COUNT] at hmax
  exact toInt_add_one (by omega)

/-- The cursor wraps around to a buffer. -/
theorem CursorIn.next (h : CursorIn B s) (hB : 1 ≤ B) (hmax : B ≤ BUFFER_COUNT) :
    IsBuffer B ((s.ch.bufferId + 1) % s.ch.bufferCount).toInt := by
  have hlow := h.low
  have hsucc := toInt_succ hmax h.high
  have hmod : ((s.ch.bufferId + 1) % s.ch.bufferCount).toInt =
      ((s.ch.bufferId.toInt.toNat + 1) % B : Nat) :=
    toInt_mod_of_nat (by omega) h.bufferCount
  have hlt : (s.ch.bufferId.toInt.toNat + 1) % B < B := Nat.mod_lt _ hB
  rw [hmod, IsBuffer]
  omega

/-- `counter % buffer_count` is a buffer unless `counter` is negative. -/
theorem isBuffer_mod_iff (hB : 1 ≤ B) {counter bufferCount : Int32}
    (hcount : bufferCount.toInt = B) :
    IsBuffer B (counter % bufferCount).toInt ↔
      0 ≤ counter.toInt ∨ (B : Int) ∣ counter.toInt := by
  rw [Int32.toInt_mod, hcount, IsBuffer]
  have hlt : counter.toInt.tmod B < B := Int.tmod_lt_of_pos _ (by omega)
  rcases Int.lt_or_le counter.toInt 0 with hneg | hpos
  · have hle : counter.toInt.tmod B ≤ 0 := by
      have := Int.tmod_nonneg (B : Int) (Int.neg_nonneg_of_nonpos (Int.le_of_lt hneg))
      rw [Int.neg_tmod] at this
      omega
    rw [Int.dvd_iff_tmod_eq_zero]
    omega
  · have hge := Int.tmod_nonneg (B : Int) hpos
    omega

/-- A cursor that has been set to a buffer. -/
theorem CursorIn.of_isBuffer (hcount : s.ch.bufferCount.toInt = B)
    (hb : IsBuffer B s.ch.bufferId.toInt) (h : IndicesBelow B s) : CursorIn B s :=
  ⟨hcount, hb.1, Int.le_of_lt hb.2, h⟩

/-- The cursor moves on in a loop. -/
theorem CursorIn.succ (hmax : B ≤ BUFFER_COUNT) (hcount : s.ch.bufferCount.toInt = B)
    (hb : IsBuffer B s.ch.bufferId.toInt) (h : IndicesBelow B s) :
    CursorIn B { s with ch := { s.ch with bufferId := s.ch.bufferId + 1 } } := by
  obtain ⟨hlow, hlt⟩ := hb
  have hsucc := toInt_succ hmax (Int.le_of_lt hlt)
  refine ⟨hcount, ?_, ?_, h.calls, h.accesses⟩
  · show 0 ≤ (s.ch.bufferId + 1).toInt
    omega
  · show (s.ch.bufferId + 1).toInt ≤ B
    omega

/-! ## The loops -/

theorem CursorIn.initLoop (hmax : B ≤ BUFFER_COUNT) (fuel : Nat) {s : Sys} (h : CursorIn B s) :
    CursorIn B (s.initLoop fuel) := by
  induction fuel generalizing s with
  | zero => exact h
  | succ fuel ih =>
      simp only [Sys.initLoop]
      split
      · rename_i hmore
        have hb := h.lt_iff.mp hmore
        have hset : IndicesBelow B (s.setLength s.ch.bufferId) := h.indices.setLength hb
        exact ih (CursorIn.succ (s := s.setLength s.ch.bufferId) hmax h.bufferCount hb hset)
      · exact h

theorem CursorIn.beginLoop (hmax : B ≤ BUFFER_COUNT) (fuel : Nat) {s : Sys}
    (h : CursorIn B s) : CursorIn B (s.beginLoop d fuel) := by
  induction fuel generalizing s with
  | zero => exact h
  | succ fuel ih =>
      simp only [Sys.beginLoop]
      split
      · rename_i hmore
        have hb := h.lt_iff.mp hmore
        have hstarted : IndicesBelow B
            ((s.setLength s.ch.bufferId).startTransferForBuf d s.ch.bufferId) :=
          (h.indices.setLength hb).startTransferForBuf hb
        split
        · exact CursorIn.of_isBuffer h.bufferCount hb hstarted
        · refine ih (CursorIn.succ (s := (s.setLength s.ch.bufferId).startTransferForBuf d
            s.ch.bufferId) hmax h.bufferCount hb hstarted)
      · exact h

theorem CursorIn.singleTransferLoop (hmax : B ≤ BUFFER_COUNT) (fuel : Nat) {s : Sys}
    (h : CursorIn B s) : CursorIn B (s.singleTransferLoop d fuel) := by
  induction fuel generalizing s with
  | zero => exact h
  | succ fuel ih =>
      simp only [Sys.singleTransferLoop]
      split
      · rename_i hmore
        have hb := h.lt_iff.mp hmore
        have hdone : IndicesBelow B ((s.setLength s.ch.bufferId).xfer d) :=
          (h.indices.setLength hb).xfer hb
        have hsucc : CursorIn B { (s.setLength s.ch.bufferId).xfer d with
            ch := { s.ch with bufferId := s.ch.bufferId + 1 } } :=
          CursorIn.succ (s := (s.setLength s.ch.bufferId).xfer d) hmax h.bufferCount hb hdone
        exact ih ⟨hsucc.bufferCount, hsucc.low, hsucc.high, hsucc.indices.calls,
          hsucc.indices.accesses⟩
      · exact h

/-- `init` leaves the cursor past the end. -/
theorem CursorIn.pastEnd_initLoop (hmax : B ≤ BUFFER_COUNT) (fuel : Nat) {s : Sys}
    (h : CursorIn B s) (hfuel : (B : Int) ≤ s.ch.bufferId.toInt + fuel) :
    PastEnd (s.initLoop fuel) := by
  induction fuel generalizing s with
  | zero => exact h.pastEnd_of_le (by omega)
  | succ fuel ih =>
      simp only [Sys.initLoop]
      split
      · rename_i hmore
        have hb := h.lt_iff.mp hmore
        have hsucc := toInt_succ hmax h.high
        have hset : IndicesBelow B (s.setLength s.ch.bufferId) := h.indices.setLength hb
        refine ih (CursorIn.succ (s := s.setLength s.ch.bufferId) hmax h.bufferCount hb hset) ?_
        show (B : Int) ≤ (s.ch.bufferId + 1).toInt + fuel
        omega
      · rename_i hdone
        exact not_not.mp (mt h.not_pastEnd_iff.mp (mt h.lt_iff.mpr hdone))

/-- So does `single_transfer_all_bufs`. -/
theorem CursorIn.pastEnd_singleTransferLoop (hmax : B ≤ BUFFER_COUNT) (fuel : Nat) {s : Sys}
    (h : CursorIn B s) (hfuel : (B : Int) ≤ s.ch.bufferId.toInt + fuel) :
    PastEnd (s.singleTransferLoop d fuel) := by
  induction fuel generalizing s with
  | zero => exact h.pastEnd_of_le (by omega)
  | succ fuel ih =>
      simp only [Sys.singleTransferLoop]
      split
      · rename_i hmore
        have hsucc := toInt_succ hmax h.high
        have hnext : CursorIn B (s.singleTransferLoop d 1) := h.singleTransferLoop hmax 1
        simp only [Sys.singleTransferLoop, if_pos hmore] at hnext
        refine ih hnext ?_
        show (B : Int) ≤ (s.ch.bufferId + 1).toInt + fuel
        omega
      · rename_i hdone
        exact not_not.mp (mt h.not_pastEnd_iff.mp (mt h.lt_iff.mpr hdone))

/-- The loops start at buffer 0. -/
theorem CursorIn.reset (h : CursorIn B s) :
    CursorIn B { s with ch := { s.ch with bufferId := 0 } } := by
  refine ⟨h.bufferCount, Int.le_refl 0, ?_, h.indices.calls, h.indices.accesses⟩
  show (0 : Int) ≤ B
  omega

end Operations

/-! ## Calls -/

/-- A call of the methods behind a successful `init`, which may be configured
at any time. -/
inductive ApiCall (B : Nat) where
  | begin
  | run
  | startTransfer
  | startTransferForBuf (b : Int32) (hb : IsBuffer B b.toInt)
  | waitForTransfer
  | singleTransferOneBuf
  | singleTransferAllBufs
  | setNumTransfers (n : Int32)
  | setSaveToFile (opened : Bool) (nSamps : Int32)

section Api

variable (d : ProxyDriver) {B : Nat}

/-- The state after a call. -/
def apiStep (s : Sys) : ApiCall B → Sys
  | .begin => s.begin d
  | .run => (s.run d).2
  | .startTransfer => s.startTransfer d
  | .startTransferForBuf b _ => s.startTransferForBuf d b
  | .waitForTransfer => (s.waitForTransfer d).2
  | .singleTransferOneBuf => s.singleTransferOneBuf d
  | .singleTransferAllBufs => s.singleTransferAllBufs d
  | .setNumTransfers n => s.setNumTransfers n
  | .setSaveToFile opened nSamps => s.setSaveToFile opened nSamps

/-- The calls that are safe in a state.  With the cursor past the end no call
may use it: `wait_for_transfer` uses it while a transfer is in progress, `run`
also to start the next transfer, and `single_transfer_one_buf` always.
`start_transfer` must not find a negative `counter`, unless it is a multiple
of the number of buffers. -/
def Guarded (s : Sys) : ApiCall B → Prop
  | .startTransfer => 0 ≤ s.ch.counter.toInt ∨ (B : Int) ∣ s.ch.counter.toInt
  | .waitForTransfer => s.ch.inProgressCount = 0 ∨ ¬ PastEnd s
  | .run =>
      s.ch.inProgressCount = 0 ∧
          (s.obj.numTransfers = 0 ∨ s.ch.counter ≥ s.obj.numTransfers) ∨
        ¬ PastEnd s
  | .singleTransferOneBuf => ¬ PastEnd s
  | _ => True

variable {d} {s : Sys}

theorem CursorIn.waitForTransfer (h : CursorIn B s)
    (hb : s.ch.inProgressCount = 0 ∨ IsBuffer B s.ch.bufferId.toInt) :
    CursorIn B (s.waitForTransfer d).2 := by
  obtain ⟨hcursor, hcount⟩ := waitForTransfer_cursor d s
  refine ⟨?_, ?_, ?_, h.indices.waitForTransfer hb⟩
  · rw [hcount]
    exact h.bufferCount
  · rw [hcursor]
    exact h.low
  · rw [hcursor]
    exact h.high

/-- The cursor of `run` moves on. -/
theorem CursorIn.advance (hB : 1 ≤ B) (hmax : B ≤ BUFFER_COUNT) (h : CursorIn B s) :
    CursorIn B { s with
      ch := { s.ch with bufferId := (s.ch.bufferId + 1) % s.ch.bufferCount } } :=
  ⟨h.bufferCount, (h.next hB hmax).1, Int.le_of_lt (h.next hB hmax).2, h.indices.calls,
    h.indices.accesses⟩

theorem CursorIn.startTransferForBuf (h : CursorIn B s) {b : Int32} (hb : IsBuffer B b.toInt) :
    CursorIn B (s.startTransferForBuf d b) :=
  ⟨h.bufferCount, h.low, h.high, h.indices.startTransferForBuf hb⟩

theorem CursorIn.run (hB : 1 ≤ B) (hmax : B ≤ BUFFER_COUNT) (h : CursorIn B s)
    (hguard : Guarded s (.run : ApiCall B)) : CursorIn B (s.run d).2 := by
  have hb : s.ch.inProgressCount = 0 ∨ IsBuffer B s.ch.bufferId.toInt := by
    rcases hguard with hidle | hset
    · exact Or.inl hidle.1
    · exact Or.inr (h.not_pastEnd_iff.mp hset)
  have hwait : CursorIn B (s.waitForTransfer d).2 := h.waitForTransfer hb
  simp only [Sys.run]
  split
  · exact hwait
  · rename_i hgo
    split
    · rename_i hstart
      -- A transfer is started in the buffer of the cursor.
      have hset : IsBuffer B (s.waitForTransfer d).2.ch.bufferId.toInt := by
        rcases hguard with ⟨hidle, hlimit⟩ | hset
        · rw [waitForTransfer_idle hidle] at hgo hstart
          rcases hlimit with hnone | hreached
          · exact absurd hnone hstart.1
          · exact absurd (Or.inr ⟨hstart.1, hreached⟩) hgo
        · rw [(waitForTransfer_cursor d s).1]
          exact h.not_pastEnd_iff.mp hset
      exact (hwait.startTransferForBuf hset).advance hB hmax
    · exact hwait.advance hB hmax

/-- The indices that `run` uses are in range only if the call is safe. -/
theorem CursorIn.guarded_run (h : CursorIn B s) (hrun : IndicesBelow B (s.run d).2) :
    Guarded s (.run : ApiCall B) := by
  by_contra hguard
  simp only [Guarded, not_or, not_not, not_and, ge_iff_le, Int32.not_le] at hguard
  obtain ⟨hneeds, hpast⟩ := hguard
  have hnot : ¬ IsBuffer B s.ch.bufferId.toInt := fun hb => h.not_pastEnd_iff.mpr hb hpast
  by_cases hidle : s.ch.inProgressCount = 0
  · obtain ⟨hlimit, hmore⟩ := hneeds hidle
    have hgo : ¬ ((s.waitForTransfer d).1 ≠ .PROXY_NO_ERROR ∨
        ((s.waitForTransfer d).2.obj.numTransfers ≠ 0 ∧
          (s.waitForTransfer d).2.ch.counter ≥ (s.waitForTransfer d).2.obj.numTransfers)) := by
      rw [waitForTransfer_idle hidle]
      rintro (herr | ⟨-, hreached⟩)
      · exact herr rfl
      · exact absurd hreached (Int32.not_le.mpr hmore)
    have hstart : (s.waitForTransfer d).2.obj.numTransfers ≠ 0 ∧
        (s.waitForTransfer d).2.ch.counter + (s.waitForTransfer d).2.ch.inProgressCount <
          (s.waitForTransfer d).2.obj.numTransfers := by
      rw [waitForTransfer_idle hidle]
      refine ⟨hlimit, ?_⟩
      rw [hidle, Int32.add_zero]
      exact hmore
    simp only [Sys.run, if_neg hgo, if_pos hstart] at hrun
    have hused := hrun.calls (.start s.ch.bufferId.toInt) (by
      rw [waitForTransfer_idle hidle]
      exact List.mem_append_right _ (List.mem_singleton_self _))
    exact hnot hused
  · have hwait : IndicesBelow B (s.waitForTransfer d).2 := by
      simp only [Sys.run] at hrun
      split at hrun
      · exact hrun
      · split at hrun
        · exact ⟨fun call hmem => hrun.calls call (List.mem_append_left _ hmem), hrun.accesses⟩
        · exact ⟨hrun.calls, hrun.accesses⟩
    exact hnot (hwait.of_waitForTransfer hidle)

/-- A safe call keeps the cursor and the indices in range. -/
theorem CursorIn.apiStep (hB : 1 ≤ B) (hmax : B ≤ BUFFER_COUNT) (h : CursorIn B s)
    (call : ApiCall B) (hguard : Guarded s call) : CursorIn B (apiStep d s call) := by
  cases call with
  | begin =>
      have hloop : CursorIn B _ := h.reset.beginLoop (d := d) hmax s.ch.bufferCount.toNatClampNeg
      exact hloop.reset
  | run => exact h.run hB hmax hguard
  | startTransfer =>
      have hb := (isBuffer_mod_iff hB h.bufferCount).mpr hguard
      exact ⟨h.bufferCount, hb.1, Int.le_of_lt hb.2, h.indices.startTransfer hb⟩
  | startTransferForBuf b hb => exact h.startTransferForBuf hb
  | waitForTransfer =>
      exact h.waitForTransfer (hguard.imp_right h.not_pastEnd_iff.mp)
  | singleTransferOneBuf =>
      have hb := h.not_pastEnd_iff.mp hguard
      have hdone : IndicesBelow B ((s.setLength s.ch.bufferId).xfer d) :=
        (h.indices.setLength hb).xfer hb
      exact ⟨h.bufferCount, (h.next hB hmax).1, Int.le_of_lt (h.next hB hmax).2, hdone.calls,
        hdone.accesses⟩
  | singleTransferAllBufs => exact h.reset.singleTransferLoop hmax _
  | setNumTransfers n =>
      exact ⟨h.bufferCount, h.low, h.high, h.indices.calls, h.indices.accesses⟩
  | setSaveToFile opened nSamps =>
      exact ⟨h.bufferCount, h.low, h.high, h.indices.calls, h.indices.accesses⟩

/-- Whether the cursor is past the end behind a call. -/
def LeavesPastEnd (d : ProxyDriver) (s : Sys) : ApiCall B → Prop
  | .begin | .startTransfer | .singleTransferOneBuf => False
  | .singleTransferAllBufs => True
  | .run => (s.run d).1 = true ∧ PastEnd s
  | .startTransferForBuf _ _ | .waitForTransfer | .setNumTransfers _ | .setSaveToFile _ _ =>
      PastEnd s

/-- A `run` that stops leaves the cursor where it is, and any other one moves
it on to a buffer. -/
theorem CursorIn.pastEnd_run (hB : 1 ≤ B) (hmax : B ≤ BUFFER_COUNT) (h : CursorIn B s) :
    PastEnd (s.run d).2 ↔ (s.run d).1 = true ∧ PastEnd s := by
  obtain ⟨hcursor, hcount⟩ := waitForTransfer_cursor d s
  simp only [Sys.run]
  split
  · rw [PastEnd, hcursor, hcount]
    exact (and_iff_right rfl).symm
  · refine iff_of_false ?_ fun hstop => Bool.noConfusion hstop.1
    have hmoved : ∀ s' : Sys, s'.ch.bufferId = s.ch.bufferId →
        s'.ch.bufferCount = s.ch.bufferCount →
        (s'.ch.bufferId + 1) % s'.ch.bufferCount ≠ s'.ch.bufferCount := by
      intro s' hid hsize heq
      rw [hid, hsize] at heq
      have hlt := (h.next hB hmax).2
      rw [heq, h.bufferCount] at hlt
      exact Int.lt_irrefl _ hlt
    split
    · exact hmoved ((s.waitForTransfer d).2.startTransferForBuf d _) hcursor hcount
    · exact hmoved (s.waitForTransfer d).2 hcursor hcount

/-- Which calls set the cursor past the end, and which set it back. -/
theorem CursorIn.pastEnd_apiStep_iff (hB : 1 ≤ B) (hmax : B ≤ BUFFER_COUNT) (h : CursorIn B s)
    (call : ApiCall B) (hguard : Guarded s call) :
    PastEnd (Dma.apiStep d s call) ↔ LeavesPastEnd d s call := by
  have hafter := h.apiStep (d := d) hB hmax call hguard
  cases call with
  | begin =>
      refine iff_of_false (hafter.not_pastEnd_iff.mpr ?_) id
      exact ⟨Int.le_refl 0, Int.natCast_pos.mpr hB⟩
  | startTransfer =>
      refine iff_of_false (hafter.not_pastEnd_iff.mpr ?_) id
      exact (isBuffer_mod_iff hB h.bufferCount).mpr hguard
  | singleTransferOneBuf =>
      exact iff_of_false (hafter.not_pastEnd_iff.mpr (h.next hB hmax)) id
  | singleTransferAllBufs =>
      refine iff_of_true (h.reset.pastEnd_singleTransferLoop hmax _ ?_) trivial
      have hcount := h.bufferCount
      show (B : Int) ≤ 0 + (s.ch.bufferCount.toNatClampNeg : Int)
      rw [← Int32.toNat_toInt]
      omega
  | run => exact h.pastEnd_run hB hmax
  | waitForTransfer =>
      obtain ⟨hcursor, hcount⟩ := waitForTransfer_cursor d s
      show (s.waitForTransfer d).2.ch.bufferId = (s.waitForTransfer d).2.ch.bufferCount ↔ _
      rw [hcursor, hcount]
      exact Iff.rfl
  | startTransferForBuf b hb => exact Iff.rfl
  | setNumTransfers n => exact Iff.rfl
  | setSaveToFile opened nSamps => exact Iff.rfl

/-- A call that leaves the indices in range is safe. -/
theorem CursorIn.guarded (hB : 1 ≤ B) (h : CursorIn B s) (call : ApiCall B)
    (hnext : IndicesBelow B (Dma.apiStep d s call)) : Guarded s call := by
  cases call with
  | run => exact h.guarded_run hnext
  | startTransfer =>
      have hb := hnext.calls (.start (s.ch.counter % s.ch.bufferCount).toInt)
        (List.mem_append_right _ (List.mem_singleton_self _))
      exact (isBuffer_mod_iff hB h.bufferCount).mp hb
  | waitForTransfer =>
      by_cases hidle : s.ch.inProgressCount = 0
      · exact Or.inl hidle
      · exact Or.inr (h.not_pastEnd_iff.mpr (hnext.of_waitForTransfer hidle))
  | singleTransferOneBuf =>
      have hb := hnext.accesses (.states s.ch.bufPtr s.ch.bufferId.toInt)
        (List.mem_append_right _ (List.mem_singleton_self _))
      exact h.not_pastEnd_iff.mpr hb
  | _ => trivial

end Api

/-! ## Every order of calls -/

/-- The channel behind a successful `init` with `B` buffers. -/
def initialised (cfg : ChConfig) (fd : Int32) (ptr : Nat) (p : Proxy) : Sys :=
  (Sys.init cfg fd (some ptr) { proxy := p }).2

theorem mapped_cursorIn {B : Nat} (hmax : B ≤ BUFFER_COUNT) {cfg : ChConfig}
    (hcfg : cfg.bufferCount = Int32.ofNat B) (fd : Int32) (ptr : Nat) (p : Proxy) :
    CursorIn B (Sys.mapped cfg fd ptr p) := by
  refine ⟨?_, Int.le_refl 0, ?_, ?_, ?_⟩
  · show cfg.bufferCount.toInt = B
    simp only [BUFFER_COUNT] at hmax
    rw [hcfg, Int32.toInt_ofNat_of_lt (by omega)]
  · show (0 : Int) ≤ B
    omega
  · exact fun call hmem => absurd hmem List.not_mem_nil
  · exact fun access hmem => absurd hmem List.not_mem_nil

theorem initialised_cursorIn {B : Nat} (hmax : B ≤ BUFFER_COUNT) {cfg : ChConfig}
    (hcfg : cfg.bufferCount = Int32.ofNat B) {fd : Int32} (hfd : 1 ≤ fd) (ptr : Nat) (p : Proxy) :
    CursorIn B (initialised cfg fd ptr p) := by
  rw [initialised, init_eq hfd]
  exact (mapped_cursorIn hmax hcfg fd ptr p).initLoop hmax _

/-- The first call finds the cursor past the end. -/
theorem initialised_pastEnd {B : Nat} (hmax : B ≤ BUFFER_COUNT) {cfg : ChConfig}
    (hcfg : cfg.bufferCount = Int32.ofNat B) {fd : Int32} (hfd : 1 ≤ fd) (ptr : Nat) (p : Proxy) :
    PastEnd (initialised cfg fd ptr p) := by
  have hmapped := mapped_cursorIn hmax hcfg fd ptr p
  rw [initialised, init_eq hfd]
  refine hmapped.pastEnd_initLoop hmax _ ?_
  have hcount : cfg.bufferCount.toInt = B := hmapped.bufferCount
  show (B : Int) ≤ 0 + (cfg.bufferCount.toNatClampNeg : Int)
  rw [← Int32.toNat_toInt]
  omega

/-- Whatever methods are called behind `init`, in whatever order, every index
that is used is that of a buffer exactly if every call is safe in the state it
is made in. -/
theorem api_indices_below_iff (d : ProxyDriver) {B : Nat} (hB : 1 ≤ B) (hmax : B ≤ BUFFER_COUNT)
    (cfg : ChConfig) (hcfg : cfg.bufferCount = Int32.ofNat B) (fd : Int32) (hfd : 1 ≤ fd)
    (ptr : Nat) (p : Proxy) (calls : List (ApiCall B)) :
    (∀ pre post, calls = pre ++ post →
        IndicesBelow B (Machine.run (apiStep d) (initialised cfg fd ptr p) pre)) ↔
      Machine.Along (apiStep d) Guarded (initialised cfg fd ptr p) calls := by
  refine (Machine.along_iff_forall_prefix_of (I := CursorIn B) (fun _ h => h.indices) ?_ ?_
    (initialised_cursorIn hmax hcfg hfd ptr p) calls).symm
  · exact fun s call h hguard => h.apiStep hB hmax call hguard
  · exact fun s call h hnext => h.guarded hB call hnext

/-- `main`'s receive channel: `begin`, a turn of the thread, and a transfer
through `start_transfer`. -/
theorem api_indices_below_receive :
    IndicesBelow 8 (Machine.run (apiStep (.quiet fun _ _ old => old))
      (initialised ⟨"/dev/dma_proxy_rx", 3712, 8⟩ 4 0 .opened)
      ([.begin, .run, .startTransfer, .waitForTransfer] : List (ApiCall 8))) := by
  have hguarded : Machine.Along (apiStep (.quiet fun _ _ old => old)) Guarded
      (initialised ⟨"/dev/dma_proxy_rx", 3712, 8⟩ 4 0 .opened)
      ([.begin, .run, .startTransfer, .waitForTransfer] : List (ApiCall 8)) :=
    ⟨trivial, Or.inr (by unfold PastEnd; decide), Or.inl (by decide),
      Or.inr (by unfold PastEnd; decide), trivial⟩
  exact (api_indices_below_iff (.quiet fun _ _ old => old) (by decide) (by decide)
    ⟨"/dev/dma_proxy_rx", 3712, 8⟩ rfl 4 (by decide) 0 .opened _).mpr hguarded _ []
    (List.append_nil _).symm

/-- `single_transfer_one_buf` right behind `init` uses the buffer past the
last. -/
theorem single_transfer_past_end :
    ¬ ∀ pre post, ([.singleTransferOneBuf] : List (ApiCall 8)) = pre ++ post →
      IndicesBelow 8 (Machine.run (apiStep (.quiet fun _ _ old => old))
        (initialised ⟨"/dev/dma_proxy_rx", 3712, 8⟩ 4 0 .opened) pre) := by
  intro hall
  have hcalls := (hall [.singleTransferOneBuf] [] rfl).calls (.xfer 8 .PROXY_NO_ERROR) (by decide)
  exact absurd hcalls.2 (by decide)

end RlsMini.Dma
