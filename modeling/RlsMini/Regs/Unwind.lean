import Mathlib.Data.List.Induction
import RlsMini.Lib.Brackets
import RlsMini.Lib.Simulation
import RlsMini.Regs.Lifetime

/-!
# What `probe` acquires is given back in reverse order

`probe` asks for six things one after the other, and each of the requests can
fail.  Its error path, `remove` and the driver core give back what there is.

Seen through what an instance holds, its statements open and close brackets
(`statements_refine_brackets`).  So in every run, with clients in between and
whatever fails, nothing is acquired twice, everything is given back before what
it was acquired on top of, and an instance that is gone has given back
everything (`resources_unwound`).
-/

namespace RlsMini.Regs

/-- What `probe` asks for. -/
inductive Resource where
  | memory
  | mapping
  | region
  | cdev
  | cls
  | node
  deriving DecidableEq, Repr

/-- The order in which `probe` does. -/
def Resource.order : List Resource := [.memory, .mapping, .region, .cdev, .cls, .node]

/-- The statement that asks for it. -/
def Resource.stage : Resource → Stage
  | .memory => .kzalloc
  | .mapping => .ioremap
  | .region => .allocChrdevRegion
  | .cdev => .cdevAdd
  | .cls => .classCreate
  | .node => .deviceCreate

def Resources.has (held : Resources) : Resource → Bool
  | .memory => held.memory
  | .mapping => held.mapping
  | .region => held.region
  | .cdev => held.cdev
  | .cls => held.cls
  | .node => held.node

/-- What is held, the last thing first. -/
def Resources.stack (held : Resources) : List Resource := Resource.order.reverse.filter held.has

/-- What a statement acquires and gives back; the driver core releases managed
things in the reverse order. -/
def Device.changes (ok : Bool) (d : Device) : List (Bracket Resource) :=
  let held' := (d.advance ok).held
  (Resource.order.filter fun r => !d.held.has r && held'.has r).map .opens ++
    (Resource.order.reverse.filter fun r => d.held.has r && !held'.has r).map .closes

/-! ## One statement -/

/-- How far an instance has come. -/
def Stage.rank : Stage → Nat
  | .kzalloc => 0
  | .ioremap => 1
  | .allocChrdevRegion => 2
  | .cdevAdd => 3
  | .classCreate => 4
  | .deviceCreate => 5
  | .bound => 6
  | .classDestroy => 7
  | .cdevDel => 8
  | .unregisterChrdevRegion => 9
  | .devresRelease => 10
  | .released => 11

theorem Stage.rank_le (stage : Stage) : stage.rank ≤ 11 := by
  cases stage <;> decide

theorem Stage.eq_released_iff {stage : Stage} : stage = .released ↔ stage.rank = 11 := by
  cases stage <;> decide

theorem Resource.rank_stage_lt (r : Resource) : r.stage.rank < 6 := by
  cases r <;> decide

namespace Device

/-- Every statement brings the instance further, until it is gone. -/
theorem rank_advance (d : Device) (ok : Bool) :
    d.stage.rank < (d.advance ok).stage.rank ∨ (d.advance ok).stage.rank = 11 := by
  obtain ⟨stage, held, regs⟩ := d
  cases stage <;> cases ok <;> simp [advance, Stage.rank]

/-- The changes of a statement, on the stack of what is held. -/
theorem run_changes {d : Device} (h : d.stage.Holds d.held) (ok : Bool) :
    Machine.run Bracket.step (some d.held.stack) (d.changes ok) =
      some (d.advance ok).held.stack := by
  obtain ⟨stage, held, regs⟩ := d
  cases stage with
  | devresRelease =>
      obtain ⟨memory, mapping, rfl⟩ := h
      cases memory <;> cases mapping <;> rfl
  | _ =>
      obtain rfl := h
      cases ok <;> rfl

/-- A thing is acquired by its own statement only, and once. -/
theorem count_changes {d : Device} (h : d.stage.Holds d.held) (ok : Bool) (r : Resource) :
    (d.changes ok).count (.opens r) = if d.stage = r.stage ∧ ok = true then 1 else 0 := by
  obtain ⟨stage, held, regs⟩ := d
  cases stage with
  | devresRelease =>
      obtain ⟨memory, mapping, rfl⟩ := h
      cases memory <;> cases mapping <;> cases r <;> rfl
  | _ =>
      obtain rfl := h
      cases ok <;> cases r <;> rfl

end Device

/-! ## Runs -/

/-- The event is a statement of `probe` or `remove` of the instance. -/
def Event.isCore {H : Type} (d : Nat) : Event H → Bool
  | .core d' _ => d' = d
  | _ => false

section Runs

variable {H : Type} [DecidableEq H] (dr : Driver) (d : Nat)

/-- What an event acquires and gives back for an instance. -/
def Kernel.changes (s : Kernel H) : Event H → List (Bracket Resource)
  | .core d' ok => if d' = d then (s.device d).changes ok else []
  | _ => []

variable {d}

/-- A client leaves the instance where it is. -/
theorem Driver.handle_of_not_isCore {s : Kernel H} {e : Event H} (he : e.isCore d = false) :
    ((dr.handle s e).device d).stage = (s.device d).stage ∧
      ((dr.handle s e).device d).held = (s.device d).held := by
  cases e with
  | core d' ok =>
      have hne : d ≠ d' := fun heq => of_decide_eq_false he heq.symm
      have hother : (dr.handle s (.core d' ok)).device d = s.device d :=
        Function.update_of_ne hne _ _
      rw [hother]
      exact ⟨rfl, rfl⟩
  | openHandle h d' =>
      simp only [handle, Kernel.axiOpen]
      split <;> exact ⟨rfl, rfl⟩
  | file op => exact (Kernel.fileOp_frame dr s op).2 d
  | release h => exact ⟨rfl, rfl⟩

omit [DecidableEq H] in
theorem Kernel.changes_of_not_isCore (s : Kernel H) {e : Event H} (he : e.isCore d = false) :
    s.changes d e = [] := by
  cases e with
  | core d' ok => exact if_neg (of_decide_eq_false he)
  | _ => rfl

/-- An event is a statement of the instance, or leaves it where it is. -/
theorem Kernel.handle_cases (s : Kernel H) (e : Event H) :
    (∃ ok, e.isCore d = true ∧ s.changes d e = (s.device d).changes ok ∧
      (dr.handle s e).device d = (s.device d).advance ok) ∨
    (e.isCore d = false ∧ s.changes d e = [] ∧
      ((dr.handle s e).device d).stage = (s.device d).stage ∧
      ((dr.handle s e).device d).held = (s.device d).held) := by
  cases he : e.isCore d with
  | false => exact Or.inr ⟨rfl, s.changes_of_not_isCore he, dr.handle_of_not_isCore he⟩
  | true =>
      cases e with
      | core d' ok =>
          obtain rfl : d' = d := of_decide_eq_true he
          exact Or.inl ⟨ok, rfl, if_pos rfl, Function.update_self ..⟩
      | _ => exact Bool.noConfusion he

/-- Seen through what an instance holds, the driver is a machine of brackets. -/
theorem statements_refine_brackets (d : Nat) :
    Machine.Refines dr.handle Bracket.step (Kernel.Consistent (H := H))
      (fun s => some (s.device d).held.stack) (Kernel.changes d) where
  keep _ e h := Kernel.consistent_handle h e
  simulate s e h := by
    rcases s.handle_cases dr e with ⟨ok, -, hchanges, hdevice⟩ | ⟨-, hchanges, -, hheld⟩
    · rw [hchanges, hdevice]
      exact (Device.run_changes (h d) ok).symm
    · rw [hchanges, hheld]
      rfl

/-- A thing is acquired at its own stage, and not again. -/
theorem count_changes_run (regs : Nat → Registers) (events : List (Event H)) (d : Nat)
    (r : Resource) :
    let s := Machine.run dr.handle (Kernel.start regs) events
    let log := Machine.coarse dr.handle (Kernel.changes d) (Kernel.start regs) events
    log.count (.opens r) ≤ if (s.device d).stage.rank ≤ r.stage.rank then 0 else 1 := by
  induction events using List.reverseRecOn with
  | nil =>
      show 0 ≤ _
      exact Nat.zero_le _
  | append_singleton events e ih =>
      intro s log
      have hconsistent : (Machine.run dr.handle (Kernel.start regs) events).Consistent :=
        (statements_refine_brackets dr d).keep_run (Kernel.consistent_start regs) events
      have hlog : log = _ := Machine.coarse_concat _ events e
      have hs : s = _ := Machine.run_concat dr.handle _ events e
      dsimp only at ih
      rw [hlog, hs, List.count_append]
      generalize Machine.run dr.handle (Kernel.start regs) events = t at ih hconsistent ⊢
      rcases t.handle_cases dr e with ⟨ok, -, hchanges, hdevice⟩ | ⟨-, hchanges, hstage, -⟩
      · have hrank := (t.device d).rank_advance ok
        have hlt := r.rank_stage_lt
        rw [hchanges, hdevice, Device.count_changes (hconsistent d)]
        by_cases hat : (t.device d).stage = r.stage ∧ ok = true
        · have heq : (t.device d).stage.rank = r.stage.rank := congrArg Stage.rank hat.1
          rw [if_pos (Nat.le_of_eq heq)] at ih
          rw [if_pos hat, if_neg (by omega)]
          omega
        · rw [if_neg hat]
          split at ih
          · omega
          · rw [if_neg (by omega)]
            omega
      · rw [hchanges, hstage, List.count_nil]
        exact ih

/-- Eleven statements are enough for every way through `probe` and `remove`. -/
theorem rank_run (regs : Nat → Registers) (events : List (Event H)) (d : Nat) :
    min 11 (events.countP (Event.isCore d)) ≤
      ((Machine.run dr.handle (Kernel.start regs) events).device d).stage.rank := by
  induction events using List.reverseRecOn with
  | nil => exact Nat.zero_le _
  | append_singleton events e ih =>
      rw [Machine.run_concat, List.countP_append, List.countP_singleton]
      generalize Machine.run dr.handle (Kernel.start regs) events = t at ih ⊢
      rcases t.handle_cases dr e with ⟨ok, hcore, -, hdevice⟩ | ⟨hcore, -, hstage, -⟩
      · have hrank := (t.device d).rank_advance ok
        rw [hcore, if_pos rfl, hdevice]
        omega
      · rw [hcore, if_neg Bool.false_ne_true, hstage]
        exact ih

/-- In every interleaving of the driver core and the clients, and whatever
fails: what an instance gives back is what it acquired last; nothing is acquired
twice; an instance that is gone has given back all it acquired; and eleven
statements are enough for that. -/
theorem resources_unwound (regs : Nat → Registers) (events : List (Event H)) (d : Nat) :
    let s := Machine.run dr.handle (Kernel.start regs) events
    let log := Machine.coarse dr.handle (Kernel.changes d) (Kernel.start regs) events
    Machine.run Bracket.step (some []) log = some (s.device d).held.stack ∧
      (∀ r, log.count (.opens r) ≤ 1) ∧
      ((s.device d).stage = .released → WellNested log) ∧
      (11 ≤ events.countP (Event.isCore d) → (s.device d).stage = .released) := by
  intro s log
  have hrun : Machine.run Bracket.step (some []) log = some (s.device d).held.stack :=
    ((statements_refine_brackets dr d).abs_run (Kernel.consistent_start regs) events).symm
  refine ⟨hrun, fun r => ?_, fun hreleased => ?_, fun hcount => ?_⟩
  · have hcount : log.count (.opens r) ≤ _ := count_changes_run dr regs events d r
    split at hcount <;> omega
  · have hheld : (s.device d).held = {} := Kernel.released_run regs events d hreleased
    rw [hheld] at hrun
    exact Bracket.wellNested_of_run hrun
  · have hrank : min 11 _ ≤ (s.device d).stage.rank := rank_run dr regs events d
    have hle := Stage.rank_le (s.device d).stage
    rw [Stage.eq_released_iff]
    omega

end Runs

end RlsMini.Regs
