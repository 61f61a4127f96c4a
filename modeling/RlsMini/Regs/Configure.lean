import RlsMini.Regs.FailStop
import RlsMini.Regs.FixedPoint
import RlsMini.Regs.ReadBack
import Mathlib.Data.Fin.VecNotation

/-!
# The configuration that `main` makes

Between `axi_dsp_init` and the DMA channels, `main` stops the processor, sets
the output source, the coefficients of the eight channels and the detector, and
at last inverts `APPLY`.  That takes 83 transfers, and `main` looks at the
result of none of them.

Each of the registers is set once, so a configuration without a failure leaves
in each the word of its setter.  With a failure the descriptor is closed before
`axi_dsp_apply` comes to its write: `configuration_applied_iff` says that
`APPLY` changes only if the whole configuration is in the registers.
-/

namespace RlsMini.Regs

/-! ## The tables of `main` -/

/-- `NUM_CHANNELS_TX`. -/
def NUM_CHANNELS_TX : Nat := 8

def manualComp : CmplxF64 ℚ := ⟨1, 0⟩

def diagrams0All : Fin 8 → CmplxF64 ℚ :=
  ![⟨0.5250, 0.8511⟩, ⟨0.7470, 0.6648⟩, ⟨0.9063, 0.4226⟩, ⟨0.9894, 0.1449⟩,
    ⟨0.9894, -0.1449⟩, ⟨0.9063, -0.4226⟩, ⟨0.7470, -0.6648⟩, ⟨0.5250, -0.8511⟩]

def diagrams1All : Fin 8 → CmplxF64 ℚ :=
  ![⟨-0.9925, 0.1220⟩, ⟨-0.5529, 0.8333⟩, ⟨0.2733, 0.9619⟩, ⟨0.9084, 0.4181⟩,
    ⟨0.9084, -0.4181⟩, ⟨0.2733, -0.9619⟩, ⟨-0.5529, -0.8333⟩, ⟨-0.9925, -0.1220⟩]

def diagrams2All : Fin 8 → CmplxF64 ℚ :=
  ![⟨0.2031, -0.9792⟩, ⟨-0.9321, -0.3621⟩, ⟨-0.5111, 0.8595⟩, ⟨0.7633, 0.6461⟩,
    ⟨0.7633, -0.6461⟩, ⟨-0.5111, -0.8595⟩, ⟨-0.9321, 0.3621⟩, ⟨0.2031, 0.9792⟩]

def diagrams3All : Fin 8 → CmplxF64 ℚ :=
  ![⟨0.9349, 0.3549⟩, ⟨0.0347, -0.9994⟩, ⟨-0.9573, 0.2891⟩, ⟨0.5821, 0.8131⟩,
    ⟨0.5821, -0.8131⟩, ⟨-0.9573, -0.2891⟩, ⟨0.0347, 0.9994⟩, ⟨0.9349, -0.3549⟩]

def diagrams4All : Fin 8 → CmplxF64 ℚ :=
  ![⟨-0.2890, 0.9573⟩, ⟨0.8944, -0.4473⟩, ⟨-0.9394, -0.3430⟩, ⟨0.3958, 0.9183⟩,
    ⟨0.3958, -0.9183⟩, ⟨-0.9394, 0.3430⟩, ⟨0.8944, 0.4473⟩, ⟨-0.2890, -0.9573⟩]

def diagrams5All : Fin 8 → CmplxF64 ℚ :=
  ![⟨-0.9984, 0.0558⟩, ⟨0.9175, 0.3977⟩, ⟨-0.6420, -0.7667⟩, ⟨0.2303, 0.9731⟩,
    ⟨0.2303, -0.9731⟩, ⟨-0.6420, 0.7667⟩, ⟨0.9175, -0.3977⟩, ⟨-0.9984, -0.0558⟩]

def diagrams6All : Fin 8 → CmplxF64 ℚ :=
  ![⟨-0.6639, -0.7478⟩, ⟨0.4957, 0.8685⟩, ⟨-0.3062, -0.9520⟩, ⟨0.1035, 0.9946⟩,
    ⟨0.1035, -0.9946⟩, ⟨-0.3062, 0.9520⟩, ⟨0.4957, -0.8685⟩, ⟨-0.6639, 0.7478⟩]

def diagrams7All : Fin 8 → CmplxF64 ℚ :=
  ![⟨-0.1767, -0.9843⟩, ⟨0.1265, 0.9920⟩, ⟨-0.0761, -0.9971⟩, ⟨0.0254, 0.9997⟩,
    ⟨0.0254, -0.9997⟩, ⟨-0.0761, 0.9971⟩, ⟨0.1265, -0.9920⟩, ⟨-0.1767, 0.9843⟩]

def diagramsAll : Fin 8 → Fin 8 → CmplxF64 ℚ :=
  ![diagrams0All, diagrams1All, diagrams2All, diagrams3All, diagrams4All, diagrams5All,
    diagrams6All, diagrams7All]

/-! ## The calls of `main` -/

/-- The setters for channel `i`. -/
def channelSettings (i : Fin 8) : List (SetCall ℚ) :=
  [.manualCompensation manualComp i, .diagram 0 (diagrams0All i) i, .diagram 1 (diagrams1All i) i,
    .diagram 2 (diagrams2All i) i, .diagram 3 (diagrams3All i) i, .diagram 4 (diagrams4All i) i,
    .diagram 5 (diagrams5All i) i, .diagram 6 (diagrams6All i) i, .diagram 7 (diagrams7All i) i]

/-- The setters behind `axi_dsp_get_output_source`. -/
def laterSettings : List (SetCall ℚ) :=
  (List.finRange NUM_CHANNELS_TX).flatMap channelSettings ++
    [.compensationMode 0, .compensationRef 0.0157, .apuRank 10 15,
      .detectorLevel 36 ⟨0, Nat.two_pos⟩, .detectorLevel 0 ⟨1, Nat.one_lt_two⟩]

/-- All setters of the configuration. -/
def settings (testPoint channel rangeGate : UInt32) : List (SetCall ℚ) :=
  .outputSource testPoint channel rangeGate :: laterSettings

/-- The calls of `main` before `axi_dsp_apply`; `raw` is the variable of
`axi_dsp_get_output_source`. -/
def settingCalls (testPoint channel rangeGate raw : UInt32) : List (Call ℚ) :=
  [.kill, .set (SetCall.outputSource testPoint channel rangeGate).setter,
    .get raw .outputSource] ++ laterSettings.map fun c => .set c.setter

/-- The configuration, up to the DMA channels; `raw'` is the variable of
`axi_dsp_get_apply`. -/
def configuration (testPoint channel rangeGate raw raw' : UInt32) : List (Call ℚ) :=
  settingCalls testPoint channel rangeGate raw ++ [.apply raw']

/-- The pairs that are set, in the order of the calls. -/
def settingPairs : List Pair :=
  .outputSource :: ((List.finRange 8).flatMap fun i =>
    .manualCompensation i :: (List.finRange 8).map (Pair.diagram · i)) ++
      [.compensationMode, .compensationRef, .apuRank, .detectorLevel ⟨0, Nat.two_pos⟩,
        .detectorLevel ⟨1, Nat.one_lt_two⟩]

theorem map_pair_settings (testPoint channel rangeGate : UInt32) :
    (settings testPoint channel rangeGate).map SetCall.pair = settingPairs := rfl

/-- No register is set twice. -/
theorem settingPairs_nodup : settingPairs.Nodup := by decide

/-! ## The accesses of the configuration -/

section Accesses

variable {F σ : Type} (fl : FloatOps F) (os : Posix σ) (fd : Int32)

/-- The access of a setter. -/
def SetCall.access (c : SetCall F) : DspAccess := .write (c.setter.word fl) c.pair.setAddr

theorem allAccesses_append (s : σ) (calls calls' : List (Call F)) :
    allAccesses fl os fd s (calls ++ calls') = allAccesses fl os fd s calls ++
      allAccesses fl os fd (Machine.run (Call.exec fl os fd) s calls) calls' := by
  induction calls generalizing s with
  | nil => rfl
  | cons c calls ih =>
      rw [List.cons_append, allAccesses, allAccesses, ih, List.append_assoc]
      rfl

theorem allAccesses_setters (s : σ) (calls : List (SetCall F)) :
    allAccesses fl os fd s (calls.map fun c => .set c.setter) =
      calls.map (SetCall.access fl) := by
  induction calls generalizing s with
  | nil => rfl
  | cons c calls ih =>
      rw [List.map_cons, allAccesses, ih]
      show [DspAccess.write (c.setter.word fl) c.setter.addr] ++ _ = _
      rw [c.addr_setter]
      rfl

/-- A register that an access does not write. -/
def DspAccess.Spares (o : UInt32) : DspAccess → Prop
  | .write _ off => o ≠ off
  | .read _ _ => True
  | .close => True

theorem run_store_of_spares {o : UInt32} {accesses : List DspAccess}
    (h : ∀ a ∈ accesses, a.Spares o) (regs : Registers) :
    Machine.run DspAccess.store regs accesses o = regs o := by
  induction accesses generalizing regs with
  | nil => rfl
  | cons a rest ih =>
      obtain ⟨ha, hrest⟩ := List.forall_mem_cons.mp h
      rw [Machine.run_cons, ih hrest]
      cases a with
      | write val off => exact Registers.set_of_ne ha _ _
      | read raw off => rfl
      | close => rfl

/-- Setters leave in a register the word that it is set to last. -/
theorem run_store_setters (calls : List (SetCall F)) (regs : Registers) (p : Pair) :
    Machine.run DspAccess.store regs (calls.map (SetCall.access fl)) p.setAddr =
      lastSet fl regs calls p := by
  induction calls generalizing regs with
  | nil => rfl
  | cons c calls ih =>
      rw [List.map_cons, Machine.run_cons, ih, lastSet, lastSet, Machine.run_cons]
      congr 1
      show regs.set c.pair.setAddr (c.setter.word fl) p.setAddr = c.latest fl p (regs p.setAddr)
      rw [SetCall.latest]
      by_cases hpair : c.pair = p
      · rw [if_pos hpair, ← hpair, Registers.set_self]
      · rw [if_neg hpair, Registers.set_of_ne fun h => hpair (Pair.setAddr_injective h).symm]

/-- A register that is set once holds the word of its setter. -/
theorem lastSet_of_nodup {calls : List (SetCall F)} (h : (calls.map SetCall.pair).Nodup)
    {c : SetCall F} (hc : c ∈ calls) (regs : Registers) :
    lastSet fl regs calls c.pair = c.setter.word fl := by
  obtain ⟨pre, post, rfl⟩ := List.append_of_mem hc
  refine lastSet_append_cons fl regs pre fun c' hc' heq => ?_
  rw [List.map_append, List.map_cons, List.nodup_append, List.nodup_cons] at h
  exact h.2.1.1 (heq ▸ List.mem_map_of_mem hc')

end Accesses

/-- No setter writes `KILL` or `APPLY`. -/
theorem Pair.setAddr_ne (p : Pair) : p.setAddr ≠ CSR_KILL_ADDR ∧ p.setAddr ≠ CSR_APPLY_ADDR := by
  have hkill : CSR_KILL_ADDR.toNat = 4 := rfl
  have happly : CSR_APPLY_ADDR.toNat = 364 := rfl
  rw [ne_eq, ne_eq, ← UInt32.toNat_inj, ← UInt32.toNat_inj, p.toNat_setAddr, hkill, happly]
  cases p <;> simp only [offset] <;> omega

section Configuration

variable (fl : FloatOps ℚ) (testPoint channel rangeGate raw raw' : UInt32)

/-- The accesses before `axi_dsp_apply`. -/
def settingAccesses : List DspAccess :=
  [.write 0 CSR_KILL_ADDR, .write 1 CSR_KILL_ADDR,
    SetCall.access fl (.outputSource testPoint channel rangeGate),
    .read raw CSR_OUTPUT_SOURCE_ADDR] ++ laterSettings.map (SetCall.access fl)

theorem allAccesses_settingCalls {σ : Type} (os : Posix σ) (fd : Int32) (s : σ) :
    allAccesses fl os fd s (settingCalls testPoint channel rangeGate raw) =
      settingAccesses fl testPoint channel rangeGate raw := by
  rw [settingCalls, settingAccesses, allAccesses_append, allAccesses_setters]
  rfl

theorem length_settingAccesses :
    (settingAccesses fl testPoint channel rangeGate raw).length = 81 := by
  rw [settingAccesses, List.length_append, List.length_map]
  rfl

/-- The accesses on the registers alone: `KILL` is 1, each setting is in its
register, and nothing else has changed. -/
theorem run_store_settingAccesses (regs : Registers) :
    let final := Machine.run DspAccess.store regs
      (settingAccesses fl testPoint channel rangeGate raw)
    final CSR_KILL_ADDR = 1 ∧
      (∀ c ∈ settings testPoint channel rangeGate, final c.pair.setAddr = c.setter.word fl) ∧
      ∀ o, o ≠ CSR_KILL_ADDR → (∀ p ∈ settingPairs, o ≠ p.setAddr) → final o = regs o := by
  -- The read of the output source changes nothing.
  have hrun : Machine.run DspAccess.store regs
      (settingAccesses fl testPoint channel rangeGate raw) =
        Machine.run DspAccess.store ((regs.set CSR_KILL_ADDR 0).set CSR_KILL_ADDR 1)
          ((settings testPoint channel rangeGate).map (SetCall.access fl)) := rfl
  have hspares : ∀ o, (∀ p ∈ settingPairs, o ≠ p.setAddr) →
      ∀ a ∈ (settings testPoint channel rangeGate).map (SetCall.access fl), a.Spares o := by
    intro o ho a ha
    obtain ⟨c, hc, rfl⟩ := List.mem_map.mp ha
    refine ho c.pair ?_
    rw [← map_pair_settings testPoint channel rangeGate]
    exact List.mem_map_of_mem hc
  intro final
  refine ⟨?_, fun c hc => ?_, fun o hkill ho => ?_⟩
  · have hsame := run_store_of_spares (hspares CSR_KILL_ADDR fun p _ => p.setAddr_ne.1.symm)
      ((regs.set CSR_KILL_ADDR 0).set CSR_KILL_ADDR 1)
    rw [Registers.set_self] at hsame
    exact (congrFun hrun CSR_KILL_ADDR).trans hsame
  · have hnodup : ((settings testPoint channel rangeGate).map SetCall.pair).Nodup :=
      map_pair_settings testPoint channel rangeGate ▸ settingPairs_nodup
    rw [← lastSet_of_nodup fl hnodup hc ((regs.set CSR_KILL_ADDR 0).set CSR_KILL_ADDR 1),
      ← run_store_setters]
    exact congrFun hrun _
  · have hsame := run_store_of_spares (hspares o ho)
      ((regs.set CSR_KILL_ADDR 0).set CSR_KILL_ADDR 1)
    rw [Registers.set_of_ne hkill, Registers.set_of_ne hkill] at hsame
    exact (congrFun hrun o).trans hsame

/-! ## The run of the configuration -/

/-- What a read access gives. -/
theorem regRead_value {σ : Type} (os : Posix σ) (fd : Int32) (val off : UInt32) (s : σ) :
    (regRead os fd val off s).2.1 =
      let t := os.read fd (os.lseek fd (Int64.ofNat off.toNat) SEEK_SET s).2
      if t.1 = 4 then t.2.1 else val := by
  simp only [regRead]
  split
  · rfl
  · rename_i hn
    rw [if_pos (not_not.mp hn)]

/-- `axi_dsp_get_apply` when its transfer succeeds. -/
theorem Session.At.getApply {opens : Bool → Bool} {copies : Nat → Nat} {fd : Int32} {s : Session}
    {t : Nat} {mode : Mode} {regs : Registers} (h : s.At t mode regs) (hopen : mode ≠ .closed)
    (hcopy : copies t = 0) :
    (axiDspGetApply (sessionOs opens copies) fd raw' s).1 = regs CSR_APPLY_ADDR := by
  have hreg : rlsMiniPl.IsReg CSR_APPLY_ADDR.toNat := by decide
  have hopen' : s.stack.mode ≠ .closed := h.mode.symm ▸ hopen
  obtain ⟨stack, hread, -, -⟩ := Driver.regRead_register raw' hopen' hreg
  have hvalue : (regRead (sessionOs opens copies) fd raw' CSR_APPLY_ADDR s).2.1 =
      (regRead (rlsMiniPl.stackOs (copies s.transfers)) 0 raw' CSR_APPLY_ADDR s.stack).2.1 := by
    rw [regRead_value, regRead_value]
    rfl
  show (regRead (sessionOs opens copies) fd raw' CSR_APPLY_ADDR s).2.1 = _
  rw [hvalue, h.transfers, hcopy, hread, h.regs]

theorem onRegisters_configuration :
    ∀ c ∈ configuration testPoint channel rangeGate raw raw', c.OnRegisters := by
  have hset : ∀ c : SetCall ℚ, (Call.set c.setter).OnRegisters := by
    intro c
    show rlsMiniPl.IsReg c.setter.addr.toNat ∧ c.setter.addr.toNat ≠ 0
    rw [c.addr_setter]
    exact ⟨c.pair.setAddr_isReg, c.pair.setAddr_ne_zero⟩
  have hget : (Call.get (F := ℚ) raw .outputSource).OnRegisters := by
    show rlsMiniPl.IsReg CSR_OUTPUT_SOURCE_ADDR.toNat
    decide
  intro c hc
  simp only [configuration, settingCalls, List.mem_append, List.mem_cons, List.not_mem_nil,
    or_false, List.mem_map] at hc
  rcases hc with ((rfl | rfl | rfl) | ⟨c, -, rfl⟩) | rfl
  · exact trivial
  · exact hset _
  · exact hget
  · exact hset c
  · exact trivial

/-- The session when `main` comes to the DMA channels. -/
def configured (opens : Bool → Bool) (copies : Nat → Nat) (regs : Registers) : Session :=
  Machine.run (Call.exec fl (sessionOs opens copies) (initialised opens copies regs).1)
    (initialised opens copies regs).2 (configuration testPoint channel rangeGate raw raw')

variable (opens : Bool → Bool) (copies : Nat → Nat) (regs : Registers)

/-- The accesses of the configuration: those of the settings, and the two of
`axi_dsp_apply`. -/
theorem allAccesses_configuration (fd : Int32) (s : Session) :
    ∃ v, allAccesses fl (sessionOs opens copies) fd s
        (configuration testPoint channel rangeGate raw raw') =
      (settingAccesses fl testPoint channel rangeGate raw ++ [.read raw' CSR_APPLY_ADDR]) ++
        [.write v CSR_APPLY_ADDR] ∧
      v = (if (axiDspGetApply (sessionOs opens copies) fd raw'
        (Machine.run (Call.exec fl (sessionOs opens copies) fd) s
          (settingCalls testPoint channel rangeGate raw))).1 = 0 then 1 else 0) &&& 0x01 := by
  refine ⟨_, ?_, rfl⟩
  rw [configuration, allAccesses_append, allAccesses_settingCalls, List.append_assoc]
  rfl

/-- The settings leave `APPLY` alone. -/
theorem settingAccesses_spares :
    ∀ a ∈ settingAccesses fl testPoint channel rangeGate raw, a.Spares CSR_APPLY_ADDR := by
  have hsetter : ∀ c : SetCall ℚ, (c.access fl).Spares CSR_APPLY_ADDR :=
    fun c => c.pair.setAddr_ne.2.symm
  have hkill : CSR_APPLY_ADDR ≠ CSR_KILL_ADDR := by decide
  intro a ha
  simp only [settingAccesses, List.mem_append, List.mem_cons, List.not_mem_nil, or_false,
    List.mem_map] at ha
  rcases ha with (rfl | rfl | rfl | rfl) | ⟨c, -, rfl⟩
  · exact hkill
  · exact hkill
  · exact hsetter _
  · exact trivial
  · exact hsetter c

/-- With every transfer successful, `APPLY` is written last, and with its
inverse. -/
theorem configured_whole (hopens : opens false = true) (hcopies : ∀ n, n < 83 → copies n = 0) :
    (configured fl testPoint channel rangeGate raw raw' opens copies regs).stack.file.regs =
      (Machine.run DspAccess.store regs
        (settingAccesses fl testPoint channel rangeGate raw)).set CSR_APPLY_ADDR
          (if regs CSR_APPLY_ADDR = 0 then 1 else 0) := by
  have hstart := initialised_at opens copies regs
  have hmode : Session.initMode opens = .readWrite := if_pos hopens
  rw [hmode] at hstart
  unfold configured
  generalize initialised opens copies regs = start at hstart
  have hcalls := onRegisters_configuration testPoint channel rangeGate raw raw'
  have hcopies' : ∀ n, n < 83 → copies (0 + n) = 0 := by
    intro n hn
    rw [Nat.zero_add]
    exact hcopies n hn
  have hlength := length_settingAccesses fl testPoint channel rangeGate raw
  -- The settings are made, so `axi_dsp_get_apply` reads `APPLY` as it was.
  have hsettings := hstart.run_calls_ok fl (fun c hc => hcalls c (List.mem_append_left _ hc))
    (allAccesses_settingCalls fl testPoint channel rangeGate raw (sessionOs opens copies) start.1
      start.2)
    (fun n hn => hcopies' n (Nat.lt_of_lt_of_le (hlength ▸ hn) (by decide)))
  rw [hlength] at hsettings
  obtain ⟨v, haccesses, hv⟩ := allAccesses_configuration fl testPoint channel rangeGate raw raw'
    opens copies start.1 start.2
  have hspares :=
    run_store_of_spares (settingAccesses_spares fl testPoint channel rangeGate raw) regs
  have hopen : Mode.readWrite ≠ .closed := by decide
  rw [hsettings.getApply raw' hopen (hcopies' 81 (by decide)), hspares] at hv
  have hword : v = if regs CSR_APPLY_ADDR = 0 then 1 else 0 := by
    rw [hv]
    split <;> rfl
  have hrun := hstart.run_calls_ok fl hcalls haccesses fun n hn => hcopies' n (by
    rwa [List.length_append, List.length_append, hlength] at hn)
  have hlast : ∀ r : Registers, Machine.run DspAccess.store (Machine.run DspAccess.store r
      [.read raw' CSR_APPLY_ADDR]) [.write v CSR_APPLY_ADDR] = r.set CSR_APPLY_ADDR v :=
    fun _ => rfl
  rw [hrun.regs, Machine.run_append, Machine.run_append, hlast, hword]

/-- With a failure before it, `APPLY` is not written. -/
theorem configured_failed (hfails : ¬ (opens false = true ∧ ∀ n, n < 83 → copies n = 0)) :
    (configured fl testPoint channel rangeGate raw raw' opens copies regs).stack.file.regs
      CSR_APPLY_ADDR = regs CSR_APPLY_ADDR := by
  have hstart := initialised_at opens copies regs
  unfold configured
  generalize initialised opens copies regs = start at hstart
  have hcalls := onRegisters_configuration testPoint channel rangeGate raw raw'
  obtain ⟨v, haccesses, -⟩ := allAccesses_configuration fl testPoint channel rangeGate raw raw'
    opens copies start.1 start.2
  have hrun := hstart.run_calls fl hcalls haccesses
  rw [hrun.regs]
  have hlength : (settingAccesses fl testPoint channel rangeGate raw ++
      [DspAccess.read raw' CSR_APPLY_ADDR]).length = 82 := by
    rw [List.length_append, length_settingAccesses]
    rfl
  -- The first access that is not carried out is one of the 83.
  have hserved : served copies (Session.initMode opens) 0
      ((settingAccesses fl testPoint channel rangeGate raw ++
        [.read raw' CSR_APPLY_ADDR]) ++ [.write v CSR_APPLY_ADDR]) ≤ 82 := by
    have hle := served_le copies (Session.initMode opens) 0
      ((settingAccesses fl testPoint channel rangeGate raw ++
        [.read raw' CSR_APPLY_ADDR]) ++ [.write v CSR_APPLY_ADDR])
    have hall := served_eq_length_iff copies (Session.initMode opens) 0
      ((settingAccesses fl testPoint channel rangeGate raw ++
        [.read raw' CSR_APPLY_ADDR]) ++ [.write v CSR_APPLY_ADDR])
    rw [List.length_append, hlength, List.length_singleton] at hle hall
    by_contra hmore
    obtain ⟨hallowed, hcopies⟩ := hall.mp (by omega)
    have hwrite : Session.initMode opens = .readWrite :=
      hallowed (.write v CSR_APPLY_ADDR) (List.mem_append_right _ (List.mem_singleton_self _))
    refine hfails ⟨?_, fun n hn => ?_⟩
    · unfold Session.initMode at hwrite
      split at hwrite
      · assumption
      · split at hwrite <;> exact Mode.noConfusion hwrite
    · rw [← Nat.zero_add n]
      exact hcopies n hn
  rw [List.take_append_of_le_length (by omega)]
  refine run_store_of_spares (fun a ha => ?_) regs
  rcases List.mem_append.mp (List.mem_of_mem_take ha) with hsetting | hread
  · exact settingAccesses_spares fl testPoint channel rangeGate raw a hsetting
  · exact List.mem_singleton.mp hread ▸ trivial

end Configuration

/-- `APPLY` changes exactly if the device is opened for writing and all 83
transfers of the configuration succeed; then `KILL` is 1, every setting is in
its register, and no other register has changed. -/
theorem configuration_applied_iff (fl : FloatOps ℚ)
    (testPoint channel rangeGate raw raw' : UInt32) (opens : Bool → Bool) (copies : Nat → Nat)
    (regs : Registers) :
    let final :=
      (configured fl testPoint channel rangeGate raw raw' opens copies regs).stack.file.regs
    (final CSR_APPLY_ADDR ≠ regs CSR_APPLY_ADDR ↔
      opens false = true ∧ ∀ n, n < 83 → copies n = 0) ∧
    (final CSR_APPLY_ADDR ≠ regs CSR_APPLY_ADDR →
      final CSR_APPLY_ADDR = (if regs CSR_APPLY_ADDR = 0 then 1 else 0) ∧
        final CSR_KILL_ADDR = 1 ∧
        (∀ c ∈ settings testPoint channel rangeGate, final c.pair.setAddr = c.setter.word fl) ∧
        ∀ o, o ≠ CSR_KILL_ADDR → o ≠ CSR_APPLY_ADDR → (∀ p ∈ settingPairs, o ≠ p.setAddr) →
          final o = regs o) := by
  intro final
  by_cases hwhole : opens false = true ∧ ∀ n, n < 83 → copies n = 0
  · have hfinal : final = _ :=
      configured_whole fl testPoint channel rangeGate raw raw' opens copies regs hwhole.1 hwhole.2
    obtain ⟨hkill, hsettings, hother⟩ :=
      run_store_settingAccesses fl testPoint channel rangeGate raw regs
    have happly : final CSR_APPLY_ADDR = if regs CSR_APPLY_ADDR = 0 then 1 else 0 := by
      rw [hfinal, Registers.set_self]
    have hchanged : final CSR_APPLY_ADDR ≠ regs CSR_APPLY_ADDR := by
      rw [happly]
      split
      · rename_i hzero
        rw [hzero]
        decide
      · rename_i hne
        exact fun h => hne h.symm
    refine ⟨iff_of_true hchanged hwhole, fun _ => ⟨happly, ?_, fun c hc => ?_, ?_⟩⟩
    · rw [hfinal, Registers.set_of_ne (by decide)]
      exact hkill
    · rw [hfinal, Registers.set_of_ne c.pair.setAddr_ne.2]
      exact hsettings c hc
    · intro o hnkill hnapply ho
      rw [hfinal, Registers.set_of_ne hnapply]
      exact hother o hnkill ho
  · have hsame : final CSR_APPLY_ADDR = regs CSR_APPLY_ADDR :=
      configured_failed fl testPoint channel rangeGate raw raw' opens copies regs hwhole
    exact ⟨iff_of_false (not_not_intro hsame) hwhole, fun hchanged => absurd hsame hchanged⟩

/-! ## The coefficients in the registers -/

/-- A half of a word, as a signed number with 14 binary places. -/
def fixedHalf (w : UInt32) : ℚ := (w.toUInt16.toInt16.toInt : ℚ) / 2 ^ 14

section Halves

open RlsMini.Rounding

variable {x : ℚ} (undef : ℚ → Int32)

theorem toInt_toInt16 (w : UInt32) {n : Int} (h : (w.toNat % 2 ^ 16 : Nat) = n % 2 ^ 16)
    (hlow : -2 ^ 15 ≤ n) (hhigh : n < 2 ^ 15) : w.toUInt16.toInt16.toInt = n := by
  have hword : w.toUInt16.toInt16.toInt = w.toUInt16.toBitVec.toInt := rfl
  have hnat : w.toUInt16.toBitVec.toNat = w.toNat % 2 ^ 16 := UInt32.toNat_toUInt16 w
  rw [hword, BitVec.toInt_eq_toNat_cond, hnat]
  split <;> omega

/-- The stored bits of a value of the format, read with their sign. -/
theorem InFormat.fixedHalf_eq (h : InFormat x) {w : UInt32} (hw : (w.toNat % 2 ^ 16 : Nat) =
    ((FloatArith.exact.ops undef).floatToFix x 14).toUInt32.toNat % 2 ^ 16) :
    fixedHalf w = Rounding.roundAway (x * 2 ^ 14) / 2 ^ 14 := by
  obtain ⟨hlow, hhigh⟩ := h.roundAway
  have hbits : ((w.toNat % 2 ^ 16 : Nat) : Int) = Rounding.roundAway (x * 2 ^ 14) % 2 ^ 16 := by
    rw [hw]
    exact h.stored undef
  rw [fixedHalf, toInt_toInt16 w hbits hlow hhigh]

end Halves

/-! ### The literals of `main` -/

/-- The conversions for literals: `narrow` makes the `float` of a literal, and
the arithmetic with it is exact, since it scales by a power of two. -/
def narrowed (narrow : ℚ → ℚ) (undef : ℚ → Int32) : FloatOps ℚ :=
  { FloatArith.exact.ops undef with
    floatToFix := fun flt ord => (FloatArith.exact.ops undef).floatToFix (narrow flt) ord }

/-- A literal is rounded to `double` first, and then to `float`. -/
def Narrows (narrow : ℚ → ℚ) : Prop :=
  ∀ x, |x| ≤ 1 → |narrow x - x| ≤ 1 / 2 ^ 54 + 1 / 2 ^ 25

/-- Decimal numbers with four places, up to 1. -/
def FourPlaces (x : ℚ) : Prop := |x| ≤ 1 ∧ (x * 10 ^ 4).den = 1

section Literals

open RlsMini.Rounding

variable {x y : ℚ}

/-- In units of the last place, four decimals are never near a half: with 625
for the denominator they keep away from it by 1/1250, which is more than
`float` can shift them. -/
theorem FourPlaces.roundAway_eq (h : FourPlaces x) (hy : |y - x| ≤ 1 / 2 ^ 54 + 1 / 2 ^ 25) :
    roundAway (y * 2 ^ 14) = roundAway (x * 2 ^ 14) := by
  obtain ⟨-, hden⟩ := h
  obtain ⟨m, hm⟩ : ∃ m : Int, x * 10 ^ 4 = m := ⟨_, ((Rat.den_eq_one_iff _).mp hden).symm⟩
  have herr := abs_le.mp (abs_roundAway_sub (x * 2 ^ 14))
  generalize roundAway (x * 2 ^ 14) = n at herr ⊢
  -- The distance to the nearest integer, in units of 1/625.
  have hx : (n : ℚ) - x * 2 ^ 14 = (625 * n - 1024 * m : Int) / 625 := by
    push_cast
    rw [← hm]
    ring
  rw [hx] at herr
  have hlow : -312 ≤ 625 * n - 1024 * m := by
    have hlt : ((-313 : Int) : ℚ) < (625 * n - 1024 * m : Int) := by
      push_cast at herr ⊢
      linarith [herr.1]
    have hint := Int.cast_lt.mp hlt
    omega
  have hhigh : 625 * n - 1024 * m ≤ 312 := by
    have hlt : ((625 * n - 1024 * m : Int) : ℚ) < (313 : Int) := by
      push_cast at herr ⊢
      linarith [herr.2]
    have hint := Int.cast_lt.mp hlt
    omega
  have hlow' : (-312 : ℚ) ≤ (625 * n - 1024 * m : Int) := by exact_mod_cast hlow
  have hhigh' : ((625 * n - 1024 * m : Int) : ℚ) ≤ 312 := by exact_mod_cast hhigh
  rw [abs_le] at hy
  refine roundAway_eq_of_abs_sub_lt ?_
  rw [abs_lt]
  constructor <;> linarith [hy.1, hy.2]

theorem FourPlaces.inFormat (h : FourPlaces x) (hy : |y - x| ≤ 1 / 2 ^ 54 + 1 / 2 ^ 25) :
    InFormat y := by
  have hx := abs_le.mp h.1
  rw [abs_le] at hy
  constructor <;> linarith [hx.1, hx.2, hy.1, hy.2]

/-- A part of a coefficient is stored as near as the format allows. -/
theorem FourPlaces.fixedHalf_near (h : FourPlaces x) {narrow : ℚ → ℚ} (hnarrow : Narrows narrow)
    (undef : ℚ → Int32) {w : UInt32} (hw : (w.toNat % 2 ^ 16 : Nat) =
      ((narrowed narrow undef).floatToFix x 14).toUInt32.toNat % 2 ^ 16) :
    |fixedHalf w - x| ≤ 1 / 2 ^ 15 := by
  have hnear := hnarrow x h.1
  rw [(h.inFormat hnear).fixedHalf_eq undef hw, h.roundAway_eq hnear]
  exact abs_roundAway_div_sub x

/-- Both parts of a coefficient. -/
theorem cmplxRaw_near {num : CmplxF64 ℚ} (hreal : FourPlaces num.real)
    (himag : FourPlaces num.imag) {narrow : ℚ → ℚ} (hnarrow : Narrows narrow)
    (undef : ℚ → Int32) :
    |fixedHalf (cmplxRaw (narrowed narrow undef) num) - num.real| ≤ 1 / 2 ^ 15 ∧
      |fixedHalf (cmplxRaw (narrowed narrow undef) num >>> 16) - num.imag| ≤ 1 / 2 ^ 15 := by
  constructor
  · refine hreal.fixedHalf_near hnarrow undef ?_
    rw [toNat_cmplxRaw]
    omega
  · refine himag.fixedHalf_near hnarrow undef ?_
    rw [cmplxRaw_high]
    omega

end Literals

theorem diagramsAll_fourPlaces (k i : Fin 8) :
    FourPlaces (diagramsAll k i).real ∧ FourPlaces (diagramsAll k i).imag := by
  unfold FourPlaces
  revert k i
  decide +kernel

theorem diagram_mem_settings (testPoint channel rangeGate : UInt32) (k i : Fin 8) :
    SetCall.diagram k (diagramsAll k i) i ∈ settings testPoint channel rangeGate := by
  refine List.mem_cons_of_mem _ (List.mem_append_left _ ?_)
  have hchannel : channelSettings i = .manualCompensation manualComp i ::
      (List.finRange 8).map fun k => .diagram k (diagramsAll k i) i := rfl
  refine List.mem_flatMap.mpr ⟨i, List.mem_finRange i, ?_⟩
  rw [hchannel]
  exact List.mem_cons_of_mem _ (List.mem_map_of_mem (List.mem_finRange k))

/-- When the configuration is applied, the register of each diagram and channel
holds the coefficient of the table of `main`, to half of the last place in both
parts, and `float` costs nothing of it. -/
theorem configured_coefficients {narrow : ℚ → ℚ} (hnarrow : Narrows narrow) (undef : ℚ → Int32)
    (testPoint channel rangeGate raw raw' : UInt32) (opens : Bool → Bool) (copies : Nat → Nat)
    (regs : Registers) :
    let final := (configured (narrowed narrow undef) testPoint channel rangeGate raw raw'
      opens copies regs).stack.file.regs
    final CSR_APPLY_ADDR ≠ regs CSR_APPLY_ADDR → ∀ k i : Fin 8,
      |fixedHalf (final (diagramAddr k + index i * 4)) - (diagramsAll k i).real| ≤ 1 / 2 ^ 15 ∧
        |fixedHalf (final (diagramAddr k + index i * 4) >>> 16) - (diagramsAll k i).imag| ≤
          1 / 2 ^ 15 := by
  intro final hchanged k i
  have hwhole : opens false = true ∧ ∀ n, n < 83 → copies n = 0 := by
    by_contra hfails
    exact hchanged (configured_failed _ testPoint channel rangeGate raw raw' opens copies regs
      hfails)
  have hfinal : final = _ := configured_whole _ testPoint channel rangeGate raw raw' opens copies
    regs hwhole.1 hwhole.2
  obtain ⟨-, hsettings, -⟩ := run_store_settingAccesses (narrowed narrow undef) testPoint
    channel rangeGate raw regs
  have hword : final (diagramAddr k + index i * 4) =
      cmplxRaw (narrowed narrow undef) (diagramsAll k i) := by
    have hset := hsettings _ (diagram_mem_settings testPoint channel rangeGate k i)
    have haddr : (SetCall.diagram k (diagramsAll k i) i).pair.setAddr =
        diagramAddr k + index i * 4 := rfl
    rw [haddr] at hset
    rw [hfinal, Registers.set_of_ne (haddr ▸ (Pair.diagram k i).setAddr_ne.2)]
    exact hset
  obtain ⟨hreal, himag⟩ := diagramsAll_fourPlaces k i
  rw [hword]
  exact cmplxRaw_near hreal himag hnarrow undef

section Places

open RlsMini.Rounding

/-- The nearest number with `p` binary places. -/
def toPlaces (p : ℕ) (x : ℚ) : ℚ := roundAway (x * 2 ^ p) / 2 ^ p

theorem abs_toPlaces_sub (p : ℕ) (x : ℚ) : |toPlaces p x - x| ≤ 1 / 2 ^ (p + 1) := by
  have hpos : (0 : ℚ) < 2 ^ p := by positivity
  have hscaled : toPlaces p x - x = (roundAway (x * 2 ^ p) - x * 2 ^ p) / 2 ^ p := by
    unfold toPlaces
    field_simp
  rw [hscaled, abs_div, abs_of_pos hpos, div_le_iff₀ hpos, pow_succ]
  refine (abs_roundAway_sub (x * 2 ^ p)).trans (le_of_eq ?_)
  field_simp

/-- A literal is a `double` first, and then a `float`. -/
theorem narrows_toPlaces : Narrows fun x => toPlaces 24 (toPlaces 53 x) := by
  intro x _
  have hdouble := abs_toPlaces_sub 53 x
  have hfloat := abs_toPlaces_sub 24 (toPlaces 53 x)
  have htriangle := abs_sub_le (toPlaces 24 (toPlaces 53 x)) (toPlaces 53 x) x
  linarith

end Places

/-- A device of zeros that lets every transfer through. -/
theorem configured_coefficients_whole :
    let narrow := fun x => toPlaces 24 (toPlaces 53 x)
    let final := (configured (narrowed narrow fun _ => 0) 0 0 0 0 0
      (fun _ => true) (fun _ => 0) fun _ => 0).stack.file.regs
    ∀ k i : Fin 8,
      |fixedHalf (final (diagramAddr k + index i * 4)) - (diagramsAll k i).real| ≤ 1 / 2 ^ 15 ∧
        |fixedHalf (final (diagramAddr k + index i * 4) >>> 16) - (diagramsAll k i).imag| ≤
          1 / 2 ^ 15 := by
  refine configured_coefficients narrows_toPlaces (fun _ => 0) 0 0 0 0 0 (fun _ => true)
    (fun _ => 0) (fun _ => 0) ?_
  rw [configured_whole _ 0 0 0 0 0 (fun _ => true) (fun _ => 0) _ rfl fun _ _ => rfl,
    Registers.set_self]
  decide

end RlsMini.Regs
