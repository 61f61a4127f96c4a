import RlsMini.Regs.Calls
import RlsMini.Regs.Stack

/-!
# Reading back what was set

Setters and getters of `axi_dsp.cpp` on an open descriptor of `rls_mini_pl`,
with every word that goes through the descriptor on record.

A setter writes one register and a getter reads one, so all that matters is
which.  `Pair.setAddr_injective` keeps the setters apart, so every register
holds the word its setter was last called with, and a getter reads back the
register of its `Pair.source`.
-/

namespace RlsMini.Regs

/-! ## The record of the descriptor -/

/-- A word that was transferred. -/
inductive Transfer where
  | wrote (val : UInt32)
  | read (val : UInt32)
  deriving DecidableEq, Repr

/-- The system calls with a record of the transfers that succeed. -/
def Posix.logged {σ : Type} (os : Posix σ) : Posix (σ × List Transfer) where
  openDevice readOnly s :=
    let (fd, t) := os.openDevice readOnly s.1
    (fd, t, s.2)
  lseek fd off whence s :=
    let (n, t) := os.lseek fd off whence s.1
    (n, t, s.2)
  read fd s :=
    let (n, rd, t) := os.read fd s.1
    (n, rd, t, if n = 4 then s.2 ++ [.read rd] else s.2)
  write fd val s :=
    let (n, t) := os.write fd val s.1
    (n, t, if n = 4 then s.2 ++ [.wrote val] else s.2)
  close fd s := (os.close fd s.1, s.2)

section Logged

variable {σ : Type} {os : Posix σ} {fd : Int32} {val off : UInt32} {s s' : σ}

theorem regWrite_logged (h : regWrite os fd val off s = (.FD_ERR_NONE, s')) (log : List Transfer) :
    regWrite os.logged fd val off (s, log) = (.FD_ERR_NONE, s', log ++ [.wrote val]) := by
  simp only [regWrite] at h
  simp only [regWrite, Posix.logged]
  split at h
  · rw [Prod.mk.injEq] at h
    exact absurd h.1 (by decide)
  · rename_i hn
    rw [Prod.mk.injEq] at h
    rw [if_neg hn, if_pos (not_not.mp hn), h.2]

theorem regRead_logged {rd : UInt32} (h : regRead os fd val off s = (.FD_ERR_NONE, rd, s'))
    (log : List Transfer) :
    regRead os.logged fd val off (s, log) = (.FD_ERR_NONE, rd, s', log ++ [.read rd]) := by
  simp only [regRead] at h
  simp only [regRead, Posix.logged]
  split at h
  · rw [Prod.mk.injEq] at h
    exact absurd h.1 (by decide)
  · rename_i hn
    rw [Prod.mk.injEq, Prod.mk.injEq] at h
    rw [if_neg hn, if_pos (not_not.mp hn), h.2.1, h.2.2]

end Logged

/-- The descriptor on `rls_mini_pl`, with the transfers so far. -/
abbrev Dsp := Stack × List Transfer

/-- The system calls, with every user copy successful. -/
def dspOs : Posix Dsp := (rlsMiniPl.stackOs 0).logged

/-- A read-write descriptor that has just been opened. -/
def Dsp.opened (regs : Registers) : Dsp := (⟨Driver.opened regs, .readWrite⟩, [])

/-! ## Setters and getters -/

/-- What a getter and its setter are about, with the index. -/
inductive Pair where
  | testPoint
  | channel
  | compensationMode
  | manualCompensation (ch : Fin 8)
  | diagram (k ch : Fin 8)
  | motionSelector
  | diagramAngle (ch : Fin 8)
  | outputSource
  | apuRank
  | detectorLevel (num : Fin 2)
  | azimuthAngle
  | compensationRef
  deriving DecidableEq, Repr

/-- A call of a setter. -/
inductive SetCall (F : Type) where
  | testPoint (tp : UInt32)
  | channel (ch : UInt32)
  | compensationMode (mode : UInt32)
  | manualCompensation (manualComp : CmplxF64 F) (ch : Fin 8)
  | diagram (k : Fin 8) (diagram : CmplxF64 F) (ch : Fin 8)
  | motionSelector (filter onoff : UInt32)
  | diagramAngle (angle : F) (ch : Fin 8)
  | outputSource (src srcChannel rangeGate : UInt32)
  | apuRank (rank window : UInt32)
  | detectorLevel (level : UInt32) (num : Fin 2)
  | azimuthAngle (angle : F)
  | compensationRef (ref : F)

/-- An index as it is passed. -/
def index {n : Nat} (i : Fin n) : UInt32 := UInt32.ofNat i.val

/-- The call of the library. -/
def SetCall.setter {F : Type} : SetCall F → Setter F
  | .testPoint tp => .testPoint tp
  | .channel ch => .channel ch
  | .compensationMode mode => .compensationMode mode
  | .manualCompensation num ch => .manualCompensation num (index ch)
  | .diagram k num ch => .diagram k num (index ch)
  | .motionSelector filter onoff => .motionSelector filter onoff
  | .diagramAngle angle ch => .diagramAngle angle (index ch)
  | .outputSource src srcChannel rangeGate => .outputSource src srcChannel rangeGate
  | .apuRank rank window => .apuRank rank window
  | .detectorLevel level num => .detectorLevel level (index num)
  | .azimuthAngle angle => .azimuthAngle angle
  | .compensationRef ref => .compensationRef ref

/-- The getter of a pair. -/
def Pair.getter : Pair → Getter
  | .testPoint => .testPoint
  | .channel => .channel
  | .compensationMode => .compensationMode
  | .manualCompensation ch => .manualCompensation (index ch)
  | .diagram k ch => .diagram k (index ch)
  | .motionSelector => .motionSelector
  | .diagramAngle ch => .diagramAngle (index ch)
  | .outputSource => .outputSource
  | .apuRank => .apuRank
  | .detectorLevel num => .detectorLevel (index num)
  | .azimuthAngle => .azimuthAngle
  | .compensationRef => .compensationRef

section Calls

variable {F : Type} (fl : FloatOps F)

/-- The state after a call of a setter. -/
def SetCall.exec (s : Dsp) (c : SetCall F) : Dsp := c.setter.exec fl dspOs 0 s

/-- The state after a call of the getter. -/
def Pair.get (raw : UInt32) (s : Dsp) (p : Pair) : Dsp := p.getter.exec fl dspOs 0 raw s

/-- The pair a setter belongs to. -/
def SetCall.pair : SetCall F → Pair
  | .testPoint _ => .testPoint
  | .channel _ => .channel
  | .compensationMode _ => .compensationMode
  | .manualCompensation _ ch => .manualCompensation ch
  | .diagram k _ ch => .diagram k ch
  | .motionSelector _ _ => .motionSelector
  | .diagramAngle _ ch => .diagramAngle ch
  | .outputSource _ _ _ => .outputSource
  | .apuRank _ _ => .apuRank
  | .detectorLevel _ num => .detectorLevel num
  | .azimuthAngle _ => .azimuthAngle
  | .compensationRef _ => .compensationRef

end Calls

/-! ## Addresses -/

namespace Pair

/-- The register that the setter writes. -/
def setAddr : Pair → UInt32
  | .testPoint => CSR_TEST_POINT_ADDR
  | .channel => CSR_CHANNEL_ADDR
  | .compensationMode => CSR_COMPENSATION_MODE_ADDR
  | .manualCompensation ch => CSR_MANUAL_COMPENSATION_0_ADDR + index ch * 4
  | .diagram k ch => diagramAddr k + index ch * 4
  | .motionSelector => CSR_MOTION_SELECTOR_ADDR
  | .diagramAngle ch => CSR_DIAGRAM_ANGLE_0_ADDR + index ch * 4
  | .outputSource => CSR_OUTPUT_SOURCE_ADDR
  | .apuRank => CSR_APU_RANK_ADDR
  | .detectorLevel num => CSR_DETECTOR_LEVEL_0_ADDR + index num * 4
  | .azimuthAngle => CSR_AZIMUTH_ANGLE_ADDR
  | .compensationRef => CSR_COMPENSATION_REFERENCE_ADDR

/-- The offset of the register that the setter writes. -/
def offset : Pair → Nat
  | .testPoint => 8
  | .channel => 12
  | .compensationMode => 16
  | .manualCompensation ch => 20 + 4 * ch
  | .diagram k ch => 52 + 32 * k + 4 * ch
  | .motionSelector => 308
  | .diagramAngle ch => 312 + 4 * ch
  | .outputSource => 344
  | .apuRank => 348
  | .detectorLevel num => 352 + 4 * num
  | .azimuthAngle => 360
  | .compensationRef => 368

theorem toNat_setAddr (p : Pair) : p.setAddr.toNat = p.offset := by
  cases p with
  | manualCompensation ch => revert ch; decide
  | diagram k ch => revert k ch; decide
  | diagramAngle ch => revert ch; decide
  | detectorLevel num => revert num; decide
  | _ => rfl

/-- The banks of registers lie behind one another. -/
theorem setAddr_injective {p q : Pair} (h : p.setAddr = q.setAddr) : p = q := by
  have hoffset : p.offset = q.offset := by rw [← toNat_setAddr, ← toNat_setAddr, h]
  cases p <;> cases q <;> simp only [offset] at hoffset <;>
    first
      | rfl
      | (exfalso; omega)
      | (congr 1 <;> apply Fin.ext <;> omega)

theorem setAddr_isReg (p : Pair) : rlsMiniPl.IsReg p.setAddr.toNat := by
  rw [toNat_setAddr]
  cases p <;> simp only [offset, Driver.IsReg, rlsMiniPl] <;> omega

theorem setAddr_ne_zero (p : Pair) : p.setAddr.toNat ≠ 0 := by
  rw [toNat_setAddr]
  cases p <;> simp only [offset] <;> omega

/-- The pair whose setter writes the register that the getter reads. -/
def source : Pair → Pair
  | .apuRank => .outputSource
  | .detectorLevel num => if num = 0 then .outputSource else .apuRank
  | p => p

theorem addr_getter (p : Pair) : p.getter.addr = p.source.setAddr := by
  cases p with
  | detectorLevel num => revert num; decide
  | _ => rfl

/-- The getters of two pairs read the register of another pair. -/
theorem source_eq_self_iff (p : Pair) :
    p.source = p ↔ p ≠ .apuRank ∧ ∀ num, p ≠ .detectorLevel num := by
  cases p with
  | apuRank => decide
  | detectorLevel num => revert num; decide
  | _ => simp [source]

end Pair

/-! ## One call -/

section Step

variable {F : Type} (fl : FloatOps F) {s : Dsp}

theorem SetCall.addr_setter (c : SetCall F) : c.setter.addr = c.pair.setAddr := by
  cases c <;> rfl

/-- What a setter does on a good descriptor. -/
theorem SetCall.exec_spec (c : SetCall F) (hmode : s.1.mode = .readWrite) :
    (c.exec fl s).1.mode = .readWrite ∧
      (c.exec fl s).1.file.regs = s.1.file.regs.set c.pair.setAddr (c.setter.word fl) ∧
      (c.exec fl s).2 = s.2 ++ [.wrote (c.setter.word fl)] := by
  obtain ⟨s', hwrite, hmode', hregs⟩ :=
    Driver.regWrite_register (c.setter.word fl) hmode c.pair.setAddr_isReg c.pair.setAddr_ne_zero
  have hlogged : regWrite dspOs 0 (c.setter.word fl) c.pair.setAddr s = _ :=
    regWrite_logged hwrite s.2
  rw [SetCall.exec, c.setter.exec_eq fl, c.addr_setter, hlogged]
  exact ⟨hmode', hregs, rfl⟩

/-- What a getter reads on an open descriptor. -/
theorem Pair.get_log (raw : UInt32) (p : Pair) (hmode : s.1.mode = .readWrite) :
    (p.get fl raw s).2 = s.2 ++ [.read (s.1.file.regs p.source.setAddr)] := by
  have hopen : s.1.mode ≠ .closed := by rw [hmode]; decide
  obtain ⟨s', hread, -, -⟩ := Driver.regRead_register raw hopen p.source.setAddr_isReg
  have hlogged : regRead dspOs 0 raw p.source.setAddr s = _ := regRead_logged hread s.2
  rw [Pair.get, p.getter.exec_eq fl, p.addr_getter, hlogged]

/-! ## Sequences of setters -/

/-- The word of a pair behind a call of a setter. -/
def SetCall.latest (p : Pair) (w : UInt32) (c : SetCall F) : UInt32 :=
  if c.pair = p then c.setter.word fl else w

/-- The word that the last call of the setter of `p` writes, or else the word
of its register at the start. -/
def lastSet (regs : Registers) (calls : List (SetCall F)) (p : Pair) : UInt32 :=
  Machine.run (SetCall.latest fl p) (regs p.setAddr) calls

/-- A setter gives its register the new word and leaves the others alone. -/
theorem SetCall.exec_regs (c : SetCall F) (hmode : s.1.mode = .readWrite) (p : Pair) :
    (c.exec fl s).1.file.regs p.setAddr = c.latest fl p (s.1.file.regs p.setAddr) := by
  obtain ⟨-, hregs, -⟩ := c.exec_spec fl hmode
  rw [hregs, SetCall.latest]
  by_cases hpair : c.pair = p
  · rw [if_pos hpair, ← hpair, Registers.set_self]
  · have hne : p.setAddr ≠ c.pair.setAddr := fun haddr =>
      hpair (Pair.setAddr_injective haddr).symm
    rw [if_neg hpair, Registers.set_of_ne hne]

/-- Setters keep the descriptor good. -/
theorem run_mode (calls : List (SetCall F)) (hmode : s.1.mode = .readWrite) :
    (Machine.run (SetCall.exec fl) s calls).1.mode = .readWrite :=
  Machine.invariant_run (I := fun s : Dsp => s.1.mode = .readWrite)
    (fun _ c h => (c.exec_spec fl h).1) hmode calls

/-- Every register holds the word that its setter was last called with. -/
theorem run_regs (calls : List (SetCall F)) (hmode : s.1.mode = .readWrite) (p : Pair) :
    (Machine.run (SetCall.exec fl) s calls).1.file.regs p.setAddr =
      lastSet fl s.1.file.regs calls p := by
  induction calls generalizing s with
  | nil => rfl
  | cons c calls ih =>
      obtain ⟨hmode', -, -⟩ := c.exec_spec fl hmode
      rw [Machine.run_cons, ih hmode', lastSet, lastSet, Machine.run_cons, c.exec_regs fl hmode]

/-- Later calls of other setters do not matter. -/
theorem lastSet_append_cons (regs : Registers) (pre : List (SetCall F)) {c : SetCall F}
    {post : List (SetCall F)} (hother : ∀ c' ∈ post, c'.pair ≠ c.pair) :
    lastSet fl regs (pre ++ c :: post) c.pair = c.setter.word fl := by
  have hkeep : ∀ w, Machine.run (SetCall.latest fl c.pair) w post = w := by
    intro w
    induction post generalizing w with
    | nil => rfl
    | cons c' post ih =>
        have hne : c'.pair ≠ c.pair := hother c' List.mem_cons_self
        rw [Machine.run_cons, SetCall.latest, if_neg hne]
        exact ih (fun c'' hc'' => hother c'' (List.mem_cons_of_mem c' hc'')) w
  rw [lastSet, Machine.run_append, Machine.run_cons, hkeep, SetCall.latest, if_pos rfl]

end Step

section Pairs

variable {F : Type} (fl : FloatOps F) (regs : Registers) (raw : UInt32)

/-- After the setters `pre`, then `c`, then `post`, the getter of the pair of
`c` reads the word that `c` wrote. -/
def ReadsBack (pre : List (SetCall F)) (c : SetCall F) (post : List (SetCall F)) : Prop :=
  let before := Machine.run (SetCall.exec fl) (.opened regs) pre
  let after := Machine.run (SetCall.exec fl) (c.exec fl before) post
  ∃ w, (c.exec fl before).2 = before.2 ++ [.wrote w] ∧
    (c.pair.get fl raw after).2 = after.2 ++ [.read w]

/-- The getter reads the last word of its source. -/
theorem readsBack_iff (pre : List (SetCall F)) (c : SetCall F) (post : List (SetCall F)) :
    ReadsBack fl regs raw pre c post ↔
      lastSet fl regs (pre ++ c :: post) c.pair.source = c.setter.word fl := by
  have hbefore := run_mode fl pre (s := .opened regs) rfl
  obtain ⟨hmode, -, hlog⟩ := c.exec_spec fl hbefore
  have hregs := run_regs fl (pre ++ c :: post) (s := .opened regs) rfl c.pair.source
  rw [Machine.run_append, Machine.run_cons] at hregs
  have hread := Pair.get_log fl raw c.pair (run_mode fl post hmode)
  rw [hregs] at hread
  constructor
  · rintro ⟨w, hwrote, hreadw⟩
    have hw := List.append_cancel_left (hlog.symm.trans hwrote)
    have hw' := List.append_cancel_left (hread.symm.trans hreadw)
    rw [List.singleton_inj, Transfer.wrote.injEq] at hw
    rw [List.singleton_inj, Transfer.read.injEq] at hw'
    exact hw'.trans hw.symm
  · intro hlast
    refine ⟨c.setter.word fl, hlog, ?_⟩
    rw [← hlast]
    exact hread

/-- After every sequence of setters the getter of a pair reads back the word
that the last call of its setter wrote, except for `apu_rank` and
`detector_level`: their getters read the register of another pair, and it is
only the same word if the setter of that pair has put it there. -/
theorem getter_reads_back_iff (pre : List (SetCall F)) (c : SetCall F) (post : List (SetCall F))
    (hlast : ∀ c' ∈ post, c'.pair ≠ c.pair) :
    ReadsBack fl regs raw pre c post ↔
      (c.pair ≠ .apuRank ∧ ∀ num, c.pair ≠ .detectorLevel num) ∨
        lastSet fl regs (pre ++ c :: post) c.pair.source = c.setter.word fl := by
  rw [readsBack_iff, ← Pair.source_eq_self_iff]
  constructor
  · exact Or.inr
  · rintro (hsource | hsame)
    · rw [hsource]
      exact lastSet_append_cons fl regs pre hlast
    · exact hsame

end Pairs

/-- A detector level behind an output source and before an APU rank. -/
theorem getter_reads_back_detector :
    ReadsBack noFloat (fun _ => 0) 0 [.outputSource 1 0 0] (.channel 3) [.apuRank 10 15] ∧
      ¬ ReadsBack noFloat (fun _ => 0) 0 [.outputSource 1 0 0] (.detectorLevel 36 0)
        [.apuRank 10 15] := by
  constructor
  · exact (getter_reads_back_iff noFloat _ 0 _ _ _ (by decide)).mpr (Or.inl (by decide))
  · rw [getter_reads_back_iff noFloat _ 0 _ _ _ (by decide)]
    decide

/-- `axi_dsp_set_output_source(1, 0, 0)` and `axi_dsp_set_apu_rank(10, 15)`:
`axi_dsp_get_apu_rank` reads the output source. -/
theorem apu_rank_reads_output_source :
    (Pair.get noFloat 0
      (Machine.run (SetCall.exec noFloat) (.opened fun _ => 0)
        [.outputSource 1 0 0, .apuRank 10 15])
      .apuRank).2 = [.wrote 1, .wrote 0xf0a, .read 1] ∧
      ¬ ReadsBack noFloat (fun _ => 0) 0 [.outputSource 1 0 0] (.apuRank 10 15) [] := by
  refine ⟨by decide, ?_⟩
  rw [readsBack_iff]
  decide

end RlsMini.Regs
