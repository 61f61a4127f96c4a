import RlsMini.Lib.Fairness
import RlsMini.Lib.Simulation
import RlsMini.Regs.Positional
import Mathlib.Logic.Function.Basic

/-!
# The lock of the drivers

The drivers hold `d->lock` for the one access of the device that a `read` or a
`write` makes.  Any number of calls may be under way, each with an offset of
its own; a schedule is the order in which they take their steps.

`LockStep` has the statements of the two functions as steps.  `atomicStep`
makes a whole call at once, as `Driver.accessAt` does.  A call takes effect
when it accesses the device, or when it is rejected, and in the order of these
moments the calls behave as if they were made one after another.
-/

namespace RlsMini.Regs

/-! ## The statements -/

/-- What the caller gets: the result, the word copied, and `*off`. -/
structure Returned where
  ret : Except Errno Nat
  data : Option UInt32 := none
  off : Int64

/-- Where a call of `read` or `write` stands. -/
inductive OpStage where
  | entered
  | locking
  | locked
  | unlocking (value : UInt32)
  | copying (value : UInt32)
  | returned (r : Returned)

/-- The call holds the lock. -/
def OpStage.Holds : OpStage → Prop
  | .locked | .unlocking _ => True
  | .entered | .locking | .copying _ | .returned _ => False

/-- The device, the lock, and the calls. -/
structure Locking (C : Type) where
  regs : Registers
  holder : Option C := none
  stage : C → OpStage
  /-- The accesses of the device so far. -/
  device : List DeviceAccess := []

/-- A call with its handle's offset. -/
structure OffsetCall where
  off : Int64
  op : OffsetOp

namespace OffsetCall

variable (dr : Driver) (call : OffsetCall)

/-- The tests before the lock is taken, and the `copy_from_user` of a
`write`. -/
def enter : OpStage :=
  let regOff := Driver.regOff call.off
  match call.op with
  | .read len _ =>
      if len < 4 then .returned { ret := .error .EINVAL, off := call.off }
      else if !dr.regIsValid regOff then .returned { ret := .error .EINVAL, off := call.off }
      else .locking
  | .write len uncopied _ =>
      if len < 4 then .returned { ret := .error .EINVAL, off := call.off }
      else if !dr.regIsValid regOff then .returned { ret := .error .EINVAL, off := call.off }
      else if !regIsWritable regOff then .returned { ret := .error .EACCES, off := call.off }
      else if uncopied ≠ 0 then .returned { ret := .error .EFAULT, off := call.off }
      else .locking

/-- `readl` or `writel`: the word, the registers, and the access. -/
def touch (regs : Registers) : UInt32 × Registers × DeviceAccess :=
  let regOff := Driver.regOff call.off
  match call.op with
  | .read _ _ => (regs regOff, regs, .readl regOff)
  | .write _ _ value => (value, regs.set regOff value, .writel regOff value)

/-- The `copy_to_user` of a `read`, and what is returned. -/
def leave (value : UInt32) : Returned :=
  match call.op with
  | .read _ uncopied =>
      if uncopied ≠ 0 then { ret := .error .EFAULT, off := call.off }
      else { ret := .ok 4, data := some value, off := call.off + 4 }
  | .write _ _ _ => { ret := .ok 4, off := call.off + 4 }

end OffsetCall

section Step

variable {C : Type} [DecidableEq C]

namespace Locking

/-- Calls that have just been made. -/
def entered (regs : Registers) : Locking C where
  regs := regs
  stage _ := .entered

/-- The state with a call at another statement. -/
def goto (s : Locking C) (c : C) (stage : OpStage) : Locking C :=
  { s with stage := Function.update s.stage c stage }

end Locking

/-- A call makes its next statement.  `mutex_lock` waits for the lock. -/
def lockStep (dr : Driver) (call : C → OffsetCall) (s : Locking C) (c : C) : Locking C :=
  match s.stage c with
  | .entered => s.goto c ((call c).enter dr)
  | .locking => if s.holder = none then { s.goto c .locked with holder := some c } else s
  | .locked =>
      let (value, regs, access) := (call c).touch s.regs
      { s.goto c (.unlocking value) with regs := regs, device := s.device ++ [access] }
  | .unlocking value => { s.goto c (.copying value) with holder := none }
  | .copying value => s.goto c (.returned ((call c).leave value))
  | .returned _ => s

/-! ## One call after another -/

/-- The device, and the calls that have been made. -/
structure Atomic (C : Type) where
  regs : Registers
  result : C → Option Returned := fun _ => none
  device : List DeviceAccess := []

/-- A call is made at once, as `Driver.accessAt` makes it. -/
def atomicStep (dr : Driver) (call : C → OffsetCall) (t : Atomic C) (c : C) : Atomic C :=
  let r := dr.accessAt t.regs (call c).off (call c).op
  { regs := r.regs
    result := Function.update t.result c (some ⟨r.ret, r.data, r.off⟩)
    device := t.device ++ r.device }

end Step

/-! ## One call -/

namespace OffsetCall

variable {dr : Driver} {call : OffsetCall}

/-- A call is rejected, or it goes on to the lock. -/
theorem enter_cases (dr : Driver) (call : OffsetCall) :
    (∃ r, call.enter dr = .returned r) ∨ call.enter dr = .locking := by
  obtain ⟨off, op⟩ := call
  cases op with
  | read len uncopied =>
      simp only [enter]
      split_ifs with hlen hvalid
      · exact Or.inl ⟨_, rfl⟩
      · exact Or.inl ⟨_, rfl⟩
      · exact Or.inr rfl
  | write len uncopied value =>
      simp only [enter]
      split_ifs with hlen hvalid hwritable hcopy
      · exact Or.inl ⟨_, rfl⟩
      · exact Or.inl ⟨_, rfl⟩
      · exact Or.inl ⟨_, rfl⟩
      · exact Or.inl ⟨_, rfl⟩
      · exact Or.inr rfl

/-- A rejected call does not come to the device. -/
theorem accessAt_of_enter_returned {r : Returned} (h : call.enter dr = .returned r)
    (regs : Registers) :
    dr.accessAt regs call.off call.op =
      { ret := r.ret, data := r.data, regs := regs, off := r.off } := by
  obtain ⟨off, op⟩ := call
  cases op with
  | read len uncopied =>
      simp only [enter] at h
      simp only [Driver.accessAt]
      split_ifs at h ⊢ with hlen hvalid <;> cases h <;> rfl
  | write len uncopied value =>
      simp only [enter] at h
      simp only [Driver.accessAt]
      split_ifs at h ⊢ with hlen hvalid hwritable hcopy <;> cases h <;> rfl

/-- A call that goes on to the lock makes one access and returns. -/
theorem accessAt_of_enter_locking (h : call.enter dr = .locking) (regs : Registers) :
    dr.accessAt regs call.off call.op =
      { ret := (call.leave (call.touch regs).1).ret
        data := (call.leave (call.touch regs).1).data
        regs := (call.touch regs).2.1
        off := (call.leave (call.touch regs).1).off
        device := [(call.touch regs).2.2] } := by
  obtain ⟨off, op⟩ := call
  cases op with
  | read len uncopied =>
      simp only [enter] at h
      simp only [Driver.accessAt, touch, leave]
      split_ifs at h ⊢ with hlen hvalid hcopy <;> rfl
  | write len uncopied value =>
      simp only [enter] at h
      simp only [Driver.accessAt, touch, leave]
      split_ifs at h ⊢ with hlen hvalid hwritable hcopy
      rfl

end OffsetCall

/-! ## Any number of calls -/

section Runs

variable {C : Type} [DecidableEq C] {dr : Driver} {call : C → OffsetCall} {s : Locking C} {c : C}

/-- The lock is with the one call that is in its access, and no call comes to
the lock that should have been rejected. -/
structure Locking.Consistent (dr : Driver) (call : C → OffsetCall) (s : Locking C) : Prop where
  holder : ∀ x, s.holder = some x ↔ (s.stage x).Holds
  passed : ∀ x, s.stage x = .locking ∨ s.stage x = .locked → (call x).enter dr = .locking

theorem Locking.goto_stage_self (s : Locking C) (c : C) (stage : OpStage) :
    (s.goto c stage).stage c = stage :=
  Function.update_self _ _ _

theorem Locking.goto_stage_of_ne {x : C} (h : x ≠ c) (s : Locking C) (stage : OpStage) :
    (s.goto c stage).stage x = s.stage x :=
  Function.update_of_ne h _ _

/-- The invariant of a step: the call keeps to it at its new statement, and the
lock has changed hands with it. -/
theorem Locking.Consistent.goto (h : s.Consistent dr call) {s' : Locking C} {stage : OpStage}
    (hstage : s'.stage = Function.update s.stage c stage)
    (hpassed : stage = .locking ∨ stage = .locked → (call c).enter dr = .locking)
    (hself : s'.holder = some c ↔ stage.Holds)
    (hother : ∀ x, x ≠ c → (s'.holder = some x ↔ s.holder = some x)) :
    s'.Consistent dr call := by
  refine ⟨fun x => ?_, fun x hx => ?_⟩
  · by_cases hxc : x = c
    · rw [hxc, hstage, Function.update_self]
      exact hself
    · rw [hstage, Function.update_of_ne hxc, hother x hxc]
      exact h.holder x
  · rw [hstage] at hx
    by_cases hxc : x = c
    · rw [hxc, Function.update_self] at hx
      rw [hxc]
      exact hpassed hx
    · rw [Function.update_of_ne hxc] at hx
      exact h.passed x hx

theorem Locking.Consistent.lockStep (h : s.Consistent dr call) :
    (lockStep dr call s c).Consistent dr call := by
  have hheld := h.holder c
  cases hstage : s.stage c with
  | entered =>
      rw [hstage] at hheld
      simp only [Regs.lockStep, hstage]
      rcases (call c).enter_cases dr with ⟨r, hr⟩ | hpass
      · rw [hr]
        exact h.goto rfl (by rintro (h | h) <;> cases h) hheld fun _ _ => Iff.rfl
      · rw [hpass]
        exact h.goto rfl (fun _ => hpass) hheld fun _ _ => Iff.rfl
  | locking =>
      simp only [Regs.lockStep, hstage]
      split
      · rename_i hfree
        refine h.goto rfl (fun _ => h.passed c (Or.inl hstage)) (iff_of_true rfl trivial) ?_
        intro x hx
        rw [hfree]
        exact iff_of_false (fun heq => hx (Option.some.inj heq).symm) (Option.some_ne_none x).symm
      · exact h
  | locked =>
      rw [hstage] at hheld
      simp only [Regs.lockStep, hstage]
      exact h.goto rfl (by rintro (h | h) <;> cases h) hheld fun _ _ => Iff.rfl
  | unlocking value =>
      rw [hstage] at hheld
      simp only [Regs.lockStep, hstage]
      refine h.goto rfl (by rintro (h | h) <;> cases h) (iff_of_false nofun id) fun x hx => ?_
      rw [hheld.mpr trivial]
      exact iff_of_false nofun fun heq => hx (Option.some.inj heq).symm
  | copying value =>
      rw [hstage] at hheld
      simp only [Regs.lockStep, hstage]
      exact h.goto rfl (by rintro (h | h) <;> cases h) hheld fun _ _ => Iff.rfl
  | returned r =>
      simp only [Regs.lockStep, hstage]
      exact h

omit [DecidableEq C] in
theorem Locking.consistent_entered (dr : Driver) (call : C → OffsetCall) (regs : Registers) :
    (Locking.entered regs).Consistent dr call :=
  ⟨fun _ => iff_of_false nofun id, fun x hx => by rcases hx with h | h <;> cases h⟩

omit [DecidableEq C] in
/-- No two calls are between `mutex_lock` and `mutex_unlock`. -/
theorem Locking.Consistent.exclusive (h : s.Consistent dr call) {x y : C}
    (hx : (s.stage x).Holds) (hy : (s.stage y).Holds) : x = y := by
  have hholder := (h.holder x).mpr hx
  rw [(h.holder y).mpr hy] at hholder
  exact (Option.some.inj hholder).symm

/-! ### The moments of effect -/

/-- What a call returns, once it has taken effect. -/
def OpStage.result (call : OffsetCall) : OpStage → Option Returned
  | .entered | .locking | .locked => none
  | .unlocking value | .copying value => some (call.leave value)
  | .returned r => some r

/-- The calls as they have taken effect. -/
def Locking.abs (call : C → OffsetCall) (s : Locking C) : Atomic C where
  regs := s.regs
  result c := (s.stage c).result (call c)
  device := s.device

/-- The call that takes effect in a step. -/
def takesEffect (dr : Driver) (call : C → OffsetCall) (s : Locking C) (c : C) : List C :=
  match s.stage c, (call c).enter dr with
  | .entered, .returned _ => [c]
  | .locked, _ => [c]
  | _, _ => []

/-- The result of one call has changed. -/
theorem Locking.abs_result_goto (s : Locking C) (c : C) (stage : OpStage) :
    (fun x => ((s.goto c stage).stage x).result (call x)) =
      Function.update (fun x => (s.stage x).result (call x)) c (stage.result (call c)) := by
  funext x
  by_cases hx : x = c
  · rw [hx, Function.update_self, goto_stage_self]
  · rw [Function.update_of_ne hx, goto_stage_of_ne hx]

/-- A step that is no moment of effect. -/
theorem Locking.abs_goto_of_eq (s : Locking C) (c : C) {stage : OpStage}
    (h : stage.result (call c) = (s.stage c).result (call c)) :
    (s.goto c stage).abs call = s.abs call := by
  show Atomic.mk _ _ _ = Atomic.mk _ _ _
  rw [abs_result_goto, h, Function.update_eq_self]
  rfl

/-- Every step is the whole call at once, or nothing. -/
theorem lockStep_refines (dr : Driver) (call : C → OffsetCall) :
    Machine.Refines (lockStep dr call) (atomicStep dr call) (Locking.Consistent dr call)
      (Locking.abs call) (takesEffect dr call) where
  keep _ _ h := h.lockStep
  simulate s c h := by
    cases hstage : s.stage c with
    | entered =>
        rcases (call c).enter_cases dr with ⟨r, hr⟩ | hpass
        · simp only [lockStep, takesEffect, hstage, hr, Machine.run_cons, Machine.run_nil,
            atomicStep, Locking.abs, OffsetCall.accessAt_of_enter_returned hr,
            Locking.abs_result_goto, List.append_nil]
          rfl
        · simp only [lockStep, takesEffect, hstage, hpass, Machine.run_nil]
          exact s.abs_goto_of_eq c (by rw [hstage]; rfl)
    | locking =>
        simp only [lockStep, takesEffect, hstage, Machine.run_nil]
        split
        · exact s.abs_goto_of_eq c (by rw [hstage]; rfl)
        · rfl
    | locked =>
        have hpass := h.passed c (Or.inr hstage)
        simp only [lockStep, takesEffect, hstage, Machine.run_cons, Machine.run_nil, atomicStep,
          Locking.abs, OffsetCall.accessAt_of_enter_locking hpass, Locking.abs_result_goto]
        rfl
    | unlocking value =>
        simp only [lockStep, takesEffect, hstage, Machine.run_nil]
        exact s.abs_goto_of_eq c (by rw [hstage]; rfl)
    | copying value =>
        simp only [lockStep, takesEffect, hstage, Machine.run_nil]
        exact s.abs_goto_of_eq c (by rw [hstage]; rfl)
    | returned r => simp only [lockStep, takesEffect, hstage, Machine.run_nil]

/-! ### The order of the calls -/

/-- The calls that have taken effect in a schedule, in the order in which they
have. -/
def inEffect (dr : Driver) (call : C → OffsetCall) (regs : Registers) (schedule : List C) :
    List C :=
  Machine.coarse (lockStep dr call) (takesEffect dr call) (.entered regs) schedule

/-- The state behind a schedule. -/
def behind (dr : Driver) (call : C → OffsetCall) (regs : Registers) (schedule : List C) :
    Locking C :=
  Machine.run (lockStep dr call) (.entered regs) schedule

/-- The calls made one after another in the order of a list. -/
def oneByOne (dr : Driver) (call : C → OffsetCall) (regs : Registers) (order : List C) :
    Atomic C :=
  Machine.run (atomicStep dr call) { regs := regs } order

variable {regs : Registers} {schedule : List C}

omit [DecidableEq C] in
/-- What takes effect is the call itself, for the first time. -/
theorem takesEffect_cases (dr : Driver) (call : C → OffsetCall) (s : Locking C) (c : C) :
    takesEffect dr call s c = [] ∨
      (takesEffect dr call s c = [c] ∧ (s.stage c).result (call c) = none) := by
  unfold takesEffect
  split
  · rename_i hstage hr
    exact Or.inr ⟨rfl, by rw [hstage]; rfl⟩
  · rename_i hstage
    exact Or.inr ⟨rfl, by rw [hstage]; rfl⟩
  · exact Or.inl rfl

/-- The schedule, seen as one call after another. -/
theorem abs_behind (dr : Driver) (call : C → OffsetCall) (regs : Registers) (schedule : List C) :
    (behind dr call regs schedule).abs call =
      oneByOne dr call regs (inEffect dr call regs schedule) :=
  (lockStep_refines dr call).abs_run (Locking.consistent_entered dr call regs) schedule

/-- The calls with a result are those that have been made. -/
theorem oneByOne_result (dr : Driver) (call : C → OffsetCall) (regs : Registers)
    (order : List C) (c : C) :
    (oneByOne dr call regs order).result c ≠ none ↔ c ∈ order := by
  induction order using List.reverseRecOn with
  | nil => exact iff_of_false (not_not_intro rfl) List.not_mem_nil
  | append_singleton order x ih =>
      have hstep : oneByOne dr call regs (order ++ [x]) =
          atomicStep dr call (oneByOne dr call regs order) x := Machine.run_concat _ _ _ _
      rw [hstep, List.mem_append, List.mem_singleton, ← ih]
      simp only [atomicStep]
      by_cases hx : c = x
      · rw [hx, Function.update_self]
        exact iff_of_true (Option.some_ne_none _) (Or.inr rfl)
      · rw [Function.update_of_ne hx]
        exact (or_iff_left hx).symm

/-- A call has taken effect exactly if it has a result. -/
theorem mem_inEffect_iff (c : C) :
    c ∈ inEffect dr call regs schedule ↔
      ((behind dr call regs schedule).stage c).result (call c) ≠ none := by
  rw [← oneByOne_result dr call regs, ← abs_behind]
  rfl

/-- No call takes effect twice. -/
theorem inEffect_nodup (dr : Driver) (call : C → OffsetCall) (regs : Registers)
    (schedule : List C) : (inEffect dr call regs schedule).Nodup := by
  induction schedule using List.reverseRecOn with
  | nil => exact List.nodup_nil
  | append_singleton schedule c ih =>
      have hnext : inEffect dr call regs (schedule ++ [c]) = inEffect dr call regs schedule ++
          takesEffect dr call (behind dr call regs schedule) c := Machine.coarse_concat _ _ _
      rw [hnext]
      rcases takesEffect_cases dr call (behind dr call regs schedule) c with hno | ⟨hc, hfresh⟩
      · rw [hno, List.append_nil]
        exact ih
      · rw [hc, List.nodup_append_comm, List.singleton_append, List.nodup_cons]
        exact ⟨fun hmem => (mem_inEffect_iff c).mp hmem hfresh, ih⟩

/-- Any number of calls of `read` and `write` behave as if each were made at
once, in the order in which they take effect: the registers, the accesses of
the device and what every call returns are the same.  The order respects that
of calls of which one has returned before the other has begun, and no two calls
are in their accesses at a time. -/
theorem operations_one_by_one (dr : Driver) (call : C → OffsetCall) (regs : Registers)
    (schedule : List C) :
    let s := behind dr call regs schedule
    let order := inEffect dr call regs schedule
    let t := oneByOne dr call regs order
    order.Nodup ∧ s.regs = t.regs ∧ s.device = t.device ∧
      (∀ c r, s.stage c = .returned r → t.result c = some r) ∧
      (∀ x y, (s.stage x).Holds → (s.stage y).Holds → x = y) ∧
      ∀ pre post x y r, schedule = pre ++ post → (behind dr call regs pre).stage x = .returned r →
        (behind dr call regs pre).stage y = .entered →
        ∃ before after, order = before ++ after ∧ x ∈ before ∧ y ∉ before := by
  have habs := abs_behind dr call regs schedule
  refine ⟨inEffect_nodup dr call regs schedule, ?_, ?_, ?_, ?_, ?_⟩
  · rw [← habs]
    rfl
  · rw [← habs]
    rfl
  · intro c r hr
    rw [← habs]
    show ((behind dr call regs schedule).stage c).result (call c) = some r
    rw [hr]
    rfl
  · intro x y hx hy
    have hconsistent : (behind dr call regs schedule).Consistent dr call :=
      (lockStep_refines dr call).keep_run (Locking.consistent_entered dr call regs) schedule
    exact hconsistent.exclusive hx hy
  · intro pre post x y r hsplit hx hy
    refine ⟨inEffect dr call regs pre,
      Machine.coarse (lockStep dr call) (takesEffect dr call) (behind dr call regs pre) post,
      ?_, (mem_inEffect_iff x).mpr ?_, fun hmem => ?_⟩
    · rw [hsplit]
      exact Machine.coarse_append _ _ _
    · rw [hx]
      exact Option.some_ne_none r
    · have hresult := (mem_inEffect_iff y).mp hmem
      rw [hy] at hresult
      exact hresult rfl

/-! ### Every call returns -/

/-- The statements that are still ahead. -/
def OpStage.ahead : OpStage → ℕ
  | .entered => 5
  | .locking => 4
  | .locked => 3
  | .unlocking _ => 2
  | .copying _ => 1
  | .returned _ => 0

/-- A call that is neither done nor waiting for the lock. -/
def Locking.CanGo (s : Locking C) (c : C) : Prop :=
  match s.stage c with
  | .returned _ => False
  | .locking => s.holder = none
  | .entered | .locked | .unlocking _ | .copying _ => True

theorem lockStep_stage_of_ne {x : C} (h : x ≠ c) :
    (lockStep dr call s c).stage x = s.stage x := by
  unfold lockStep
  split
  · exact Locking.goto_stage_of_ne h _ _
  · split
    · exact Locking.goto_stage_of_ne h _ _
    · rfl
  · exact Locking.goto_stage_of_ne h _ _
  · exact Locking.goto_stage_of_ne h _ _
  · exact Locking.goto_stage_of_ne h _ _
  · rfl

theorem lockStep_of_not_canGo (h : ¬ s.CanGo c) : lockStep dr call s c = s := by
  unfold Locking.CanGo at h
  cases hstage : s.stage c with
  | returned r => simp only [lockStep, hstage]
  | locking =>
      rw [hstage] at h
      simp only [lockStep, hstage]
      exact if_neg h
  | entered | locked | unlocking | copying => simp [hstage] at h

/-- A call that can go on comes one statement closer to its end. -/
theorem ahead_lockStep_lt (h : s.CanGo c) :
    ((lockStep dr call s c).stage c).ahead < (s.stage c).ahead := by
  unfold Locking.CanGo at h
  cases hstage : s.stage c with
  | entered =>
      simp only [lockStep, hstage, Locking.goto_stage_self]
      rcases (call c).enter_cases dr with ⟨r, hr⟩ | hpass
      · rw [hr]
        exact Nat.succ_pos 4
      · rw [hpass]
        exact Nat.lt_succ_self 4
  | locking =>
      rw [hstage] at h
      simp only [lockStep, hstage]
      rw [if_pos h]
      simp only [Locking.goto_stage_self]
      exact Nat.lt_succ_self 3
  | locked =>
      simp only [lockStep, hstage, Locking.goto_stage_self]
      exact Nat.lt_succ_self 2
  | unlocking value =>
      simp only [lockStep, hstage, Locking.goto_stage_self]
      exact Nat.lt_succ_self 1
  | copying value =>
      simp only [lockStep, hstage, Locking.goto_stage_self]
      exact Nat.lt_succ_self 0
  | returned r => simp [hstage] at h

/-- Nothing is left to do. -/
def Locking.Done (s : Locking C) : Prop :=
  s.holder = none ∧ ∀ c, ∃ r, s.stage c = .returned r

omit [DecidableEq C] in
/-- As long as not all is done, the call that has the lock can go on, or any
call that has not returned. -/
theorem Locking.Consistent.exists_canGo (h : s.Consistent dr call) (hdone : ¬ s.Done) :
    ∃ c, s.CanGo c := by
  cases hholder : s.holder with
  | some c =>
      have hholds := (h.holder c).mp hholder
      refine ⟨c, ?_⟩
      unfold CanGo
      cases hstage : s.stage c <;> simp [hstage, OpStage.Holds] at hholds ⊢
  | none =>
      obtain ⟨c, hc⟩ : ∃ c, ∀ r, s.stage c ≠ .returned r := by
        by_contra hno
        push Not at hno
        exact hdone ⟨hholder, hno⟩
      refine ⟨c, ?_⟩
      unfold CanGo
      cases hstage : s.stage c with
      | returned r => exact hc r hstage
      | locking => exact hholder
      | entered | locked | unlocking | copying => trivial

theorem Locking.Done.lockStep (h : s.Done) : lockStep dr call s c = s := by
  obtain ⟨r, hr⟩ := h.2 c
  simp only [Regs.lockStep, hr]

theorem Locking.Consistent.exists_lockStep_ne (h : s.Consistent dr call) (hdone : ¬ s.Done) :
    ∃ c, Regs.lockStep dr call s c ≠ s := by
  obtain ⟨c, hgo⟩ := h.exists_canGo hdone
  refine ⟨c, fun heq => ?_⟩
  have hlt : ((Regs.lockStep dr call s c).stage c).ahead < _ := ahead_lockStep_lt hgo
  rw [heq] at hlt
  exact Nat.lt_irrefl _ hlt

section Fintype

variable [Fintype C]

/-- The statements that the calls have ahead together. -/
def Locking.ahead (s : Locking C) : ℕ := ∑ c, (s.stage c).ahead

theorem lockStep_eq_or_ahead_lt (s : Locking C) (c : C) :
    lockStep dr call s c = s ∨ (lockStep dr call s c).ahead < s.ahead := by
  by_cases hgo : s.CanGo c
  · refine Or.inr (Machine.sum_lt_of_step c (ahead_lockStep_lt hgo) fun x hx => ?_)
    rw [lockStep_stage_of_ne hx]
  · exact Or.inl (lockStep_of_not_canGo hgo)

/-- As long as every call gets its turns, all of them return, whatever the
order; each has then taken effect, and the lock is free. -/
theorem operations_return (dr : Driver) (call : C → OffsetCall) (regs : Registers)
    {turns : ℕ → C} (hfair : Machine.Fair turns) :
    ∃ n, ∀ m, n ≤ m →
      let s := behind dr call regs (Machine.upTo turns m)
      s.holder = none ∧ (∀ c, ∃ r, s.stage c = .returned r) ∧
        ∀ c, c ∈ inEffect dr call regs (Machine.upTo turns m) := by
  have hreach : ∃ n, 0 ≤ n ∧ (behind dr call regs (Machine.upTo turns n)).Done :=
    hfair.eventually_of_variant (lockStep_refines dr call).keep
      (fun s c _ => lockStep_eq_or_ahead_lt s c) (fun _ h => h.exists_lockStep_ne)
      (Locking.consistent_entered dr call regs) 0
  obtain ⟨n, -, hn⟩ := hreach
  refine ⟨n, fun m hnm => ?_⟩
  have hdone : (behind dr call regs (Machine.upTo turns m)).Done :=
    Machine.stays_upTo (fun s c h => by rw [h.lockStep]; exact h) hnm hn
  refine ⟨hdone.1, hdone.2, fun c => (mem_inEffect_iff c).mpr ?_⟩
  obtain ⟨r, hr⟩ := hdone.2 c
  rw [hr]
  exact Option.some_ne_none r

end Fintype

/-- Two writes of one register, by turns. -/
theorem operations_return_two :
    ∃ n, ∀ m, n ≤ m →
      let call : Bool → OffsetCall := fun c => ⟨0, .write 4 0 (if c then 1 else 2)⟩
      let s := behind rlsMiniPl call (fun _ => 0) (Machine.upTo (fun n => n % 2 == 0) m)
      s.holder = none ∧ (∀ c, ∃ r, s.stage c = .returned r) ∧
        ∀ c, c ∈ inEffect rlsMiniPl call (fun _ => 0)
          (Machine.upTo (fun n => n % 2 == 0) m) :=
  operations_return _ _ _ fun c n => ⟨2 * n + (!c).toNat, by omega, by cases c <;> simp⟩

end Runs

end RlsMini.Regs
