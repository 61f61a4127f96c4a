import RlsMini.Lib.Machine
import RlsMini.Regs.AxiDsp

/-!
# The calls of the library

The functions of `axi_dsp.cpp` that use the descriptor, as calls with their
arguments, and what each of them does with it: `Call.exec_eq` says that a call
is the run of its accesses.  A setter is one write and a getter is one read;
`axi_dsp_kill` and `axi_dsp_apply` are two accesses, and the second is made
whether or not the first succeeds.
-/

namespace RlsMini.Regs

/-- Floating-point operations for calls that use none. -/
def noFloat : FloatOps Unit where
  floatToFix _ _ := 0
  fixToFloat _ _ := ()
  degToFix _ _ := 0
  fixToDeg _ _ := ()
  ofUInt32 _ := ()

/-- What is done with the descriptor at one time. -/
inductive DspAccess where
  | write (val off : UInt32)
  | read (raw off : UInt32)
  | close
  deriving DecidableEq, Repr

/-- The register of a diagram and channel 0. -/
def diagramAddr : Fin 8 → UInt32
  | 0 => CSR_DIAGRAM_0_0_ADDR
  | 1 => CSR_DIAGRAM_1_0_ADDR
  | 2 => CSR_DIAGRAM_2_0_ADDR
  | 3 => CSR_DIAGRAM_3_0_ADDR
  | 4 => CSR_DIAGRAM_4_0_ADDR
  | 5 => CSR_DIAGRAM_5_0_ADDR
  | 6 => CSR_DIAGRAM_6_0_ADDR
  | 7 => CSR_DIAGRAM_7_0_ADDR

/-- A setter with its arguments. -/
inductive Setter (F : Type) where
  | testPoint (tp : UInt32)
  | channel (channel : UInt32)
  | compensationMode (compensationMode : UInt32)
  | manualCompensation (manualComp : CmplxF64 F) (channel : UInt32)
  | diagram (k : Fin 8) (diagram : CmplxF64 F) (channel : UInt32)
  | motionSelector (filter onoff : UInt32)
  | diagramAngle (angle : F) (channel : UInt32)
  | outputSource (src srcChannel rangeGate : UInt32)
  | apuRank (rank window : UInt32)
  | detectorLevel (level num : UInt32)
  | azimuthAngle (angle : F)
  | compensationRef (ref : F)

/-- A getter with its argument. -/
inductive Getter where
  | ipVer
  | kill
  | testPoint
  | channel
  | compensationMode
  | manualCompensation (channel : UInt32)
  | diagram (k : Fin 8) (channel : UInt32)
  | motionSelector
  | diagramAngle (channel : UInt32)
  | outputSource
  | apuRank
  | detectorLevel (num : UInt32)
  | azimuthAngle
  | compensationRef
  | apply
  deriving DecidableEq, Repr

/-- A call; `raw` is what is in the uninitialised variable of a read. -/
inductive Call (F : Type) where
  | set (c : Setter F)
  | get (raw : UInt32) (g : Getter)
  | kill
  | apply (raw : UInt32)
  | deinit

section Calls

variable {F σ : Type} (fl : FloatOps F) (os : Posix σ) (fd : Int32)

/-- One access. -/
def DspAccess.exec (s : σ) : DspAccess → σ
  | .write val off => (axiWrite os fd val off s).2
  | .read raw off => (axiRead os fd raw off s).2.2
  | .close => os.close fd s

/-! ## Setters -/

/-- `axi_dsp_set_diagram_0` to `axi_dsp_set_diagram_7`. -/
def setDiagram (k : Fin 8) (diagram : CmplxF64 F) (channel : UInt32) (s : σ) : σ :=
  match k with
  | 0 => axiDspSetDiagram0 fl os fd diagram channel s
  | 1 => axiDspSetDiagram1 fl os fd diagram channel s
  | 2 => axiDspSetDiagram2 fl os fd diagram channel s
  | 3 => axiDspSetDiagram3 fl os fd diagram channel s
  | 4 => axiDspSetDiagram4 fl os fd diagram channel s
  | 5 => axiDspSetDiagram5 fl os fd diagram channel s
  | 6 => axiDspSetDiagram6 fl os fd diagram channel s
  | 7 => axiDspSetDiagram7 fl os fd diagram channel s

/-- The state after the setter. -/
def Setter.exec (s : σ) : Setter F → σ
  | .testPoint tp => axiDspSetTestPoint os fd tp s
  | .channel ch => axiDspSetChannel os fd ch s
  | .compensationMode mode => axiDspSetCompensationMode os fd mode s
  | .manualCompensation num ch => axiDspSetManualCompensation fl os fd num ch s
  | .diagram k num ch => setDiagram fl os fd k num ch s
  | .motionSelector filter onoff => axiDspSetMotionSelector os fd filter onoff s
  | .diagramAngle angle ch => axiDspSetDiagramAngle fl os fd angle ch s
  | .outputSource src srcChannel rangeGate =>
      axiDspSetOutputSource os fd src srcChannel rangeGate s
  | .apuRank rank window => axiDspSetApuRank os fd rank window s
  | .detectorLevel level num => axiDspSetDetectorLevel os fd level num s
  | .azimuthAngle angle => axiDspSetAzimuthAngle fl os fd angle s
  | .compensationRef ref => axiDspSetCompensationRef fl os fd ref s

/-- The word that a setter writes. -/
def Setter.word : Setter F → UInt32
  | .testPoint tp => tp
  | .channel ch => ch
  | .compensationMode mode => mode
  | .manualCompensation num _ => cmplxRaw fl num
  | .diagram _ num _ => cmplxRaw fl num
  | .motionSelector filter onoff => CsrMotionSelector.raw ⟨filter, onoff⟩
  | .diagramAngle angle _ => fl.degToFix angle ANGLE_ORD
  | .outputSource src srcChannel rangeGate => CsrOutputSource.raw ⟨src, srcChannel, rangeGate⟩
  | .apuRank rank window => CsrApuRank.raw ⟨rank, window⟩
  | .detectorLevel level _ => level * ((1 : UInt32) <<< 24)
  | .azimuthAngle angle => fl.degToFix angle ANGLE_ORD
  | .compensationRef ref => (fl.floatToFix ref COMPENSATION_REFERENCE_ORD).toUInt32

/-- The register that a setter writes. -/
def Setter.addr : Setter F → UInt32
  | .testPoint _ => CSR_TEST_POINT_ADDR
  | .channel _ => CSR_CHANNEL_ADDR
  | .compensationMode _ => CSR_COMPENSATION_MODE_ADDR
  | .manualCompensation _ ch => CSR_MANUAL_COMPENSATION_0_ADDR + ch * 4
  | .diagram k _ ch => diagramAddr k + ch * 4
  | .motionSelector _ _ => CSR_MOTION_SELECTOR_ADDR
  | .diagramAngle _ ch => CSR_DIAGRAM_ANGLE_0_ADDR + ch * 4
  | .outputSource _ _ _ => CSR_OUTPUT_SOURCE_ADDR
  | .apuRank _ _ => CSR_APU_RANK_ADDR
  | .detectorLevel _ num => CSR_DETECTOR_LEVEL_0_ADDR + num * 4
  | .azimuthAngle _ => CSR_AZIMUTH_ANGLE_ADDR
  | .compensationRef _ => CSR_COMPENSATION_REFERENCE_ADDR

/-- A setter is one write. -/
theorem Setter.exec_eq (c : Setter F) (s : σ) :
    c.exec fl os fd s = (regWrite os fd (c.word fl) c.addr s).2 := by
  cases c with
  | diagram k num channel =>
      show setDiagram fl os fd k num channel s = _
      unfold setDiagram
      split <;> rfl
  | _ => rfl

/-! ## Getters -/

/-- `axi_dsp_get_diagram_0` to `axi_dsp_get_diagram_7`. -/
def getDiagram (k : Fin 8) (raw channel : UInt32) (s : σ) : CmplxF64 F × σ :=
  match k with
  | 0 => axiDspGetDiagram0 fl os fd raw channel s
  | 1 => axiDspGetDiagram1 fl os fd raw channel s
  | 2 => axiDspGetDiagram2 fl os fd raw channel s
  | 3 => axiDspGetDiagram3 fl os fd raw channel s
  | 4 => axiDspGetDiagram4 fl os fd raw channel s
  | 5 => axiDspGetDiagram5 fl os fd raw channel s
  | 6 => axiDspGetDiagram6 fl os fd raw channel s
  | 7 => axiDspGetDiagram7 fl os fd raw channel s

/-- The state after the getter. -/
def Getter.exec (raw : UInt32) (s : σ) : Getter → σ
  | .ipVer => (axiDspGetIpVer os fd raw s).2
  | .kill => (axiDspGetKill os fd raw s).2
  | .testPoint => (axiDspGetTestPoint os fd raw s).2
  | .channel => (axiDspGetChannel os fd raw s).2
  | .compensationMode => (axiDspGetCompensationMode os fd raw s).2
  | .manualCompensation ch => (axiDspGetManualCompensation fl os fd raw ch s).2
  | .diagram k ch => (getDiagram fl os fd k raw ch s).2
  | .motionSelector => (axiDspGetMotionSelector os fd raw s).2
  | .diagramAngle ch => (axiDspGetDiagramAngle fl os fd raw ch s).2
  | .outputSource => (axiDspGetOutputSource os fd raw s).2
  | .apuRank => (axiDspGetApuRank os fd raw s).2
  | .detectorLevel num => (axiDspGetDetectorLevel os fd raw num s).2
  | .azimuthAngle => (axiDspGetAzimuthAngle fl os fd raw s).2
  | .compensationRef => (axiDspGetCompensationRef fl os fd raw s).2
  | .apply => (axiDspGetApply os fd raw s).2

/-- The register that a getter reads. -/
def Getter.addr : Getter → UInt32
  | .ipVer => CSR_IP_VER_ADDR
  | .kill => CSR_KILL_ADDR
  | .testPoint => CSR_TEST_POINT_ADDR
  | .channel => CSR_CHANNEL_ADDR
  | .compensationMode => CSR_COMPENSATION_MODE_ADDR
  | .manualCompensation ch => CSR_MANUAL_COMPENSATION_0_ADDR + ch * 4
  | .diagram k ch => diagramAddr k + ch * 4
  | .motionSelector => CSR_MOTION_SELECTOR_ADDR
  | .diagramAngle ch => CSR_DIAGRAM_ANGLE_0_ADDR + ch * 4
  | .outputSource => CSR_OUTPUT_SOURCE_ADDR
  | .apuRank => CSR_OUTPUT_SOURCE_ADDR
  | .detectorLevel num => CSR_OUTPUT_SOURCE_ADDR + num * 4
  | .azimuthAngle => CSR_AZIMUTH_ANGLE_ADDR
  | .compensationRef => CSR_COMPENSATION_REFERENCE_ADDR
  | .apply => CSR_APPLY_ADDR

/-- A getter is one read. -/
theorem Getter.exec_eq (raw : UInt32) (g : Getter) (s : σ) :
    g.exec fl os fd raw s = (regRead os fd raw g.addr s).2.2 := by
  cases g with
  | diagram k channel =>
      show (getDiagram fl os fd k raw channel s).2 = _
      unfold getDiagram
      split <;> rfl
  | _ => rfl

/-! ## Calls -/

/-- The state after a call. -/
def Call.exec (s : σ) : Call F → σ
  | .set c => c.exec fl os fd s
  | .get raw g => g.exec fl os fd raw s
  | .kill => axiDspKill os fd s
  | .apply raw => axiDspApply os fd raw s
  | .deinit => axiDspDeinit os fd s

/-- The accesses of a call that is made in the state `s`. -/
def Call.accesses (s : σ) : Call F → List DspAccess
  | .set c => [.write (c.word fl) c.addr]
  | .get raw g => [.read raw g.addr]
  | .kill => [.write 0 CSR_KILL_ADDR, .write 1 CSR_KILL_ADDR]
  | .apply raw =>
      let apply := (axiDspGetApply os fd raw s).1
      [.read raw CSR_APPLY_ADDR, .write ((if apply = 0 then 1 else 0) &&& 0x01) CSR_APPLY_ADDR]
  | .deinit => [.close]

/-- A call is the run of its accesses. -/
theorem Call.exec_eq (c : Call F) (s : σ) :
    c.exec fl os fd s = Machine.run (DspAccess.exec os fd) s (c.accesses fl os fd s) := by
  cases c with
  | set c => exact c.exec_eq fl os fd s
  | get raw g => exact g.exec_eq fl os fd raw s
  | kill => rfl
  | apply raw => rfl
  | deinit => rfl

/-- The accesses of a run of calls. -/
def allAccesses (s : σ) : List (Call F) → List DspAccess
  | [] => []
  | c :: calls => c.accesses fl os fd s ++ allAccesses (c.exec fl os fd s) calls

/-- A run of calls is the run of its accesses. -/
theorem run_calls_eq (s : σ) (calls : List (Call F)) :
    Machine.run (Call.exec fl os fd) s calls =
      Machine.run (DspAccess.exec os fd) s (allAccesses fl os fd s calls) := by
  induction calls generalizing s with
  | nil => rfl
  | cons c calls ih =>
      rw [Machine.run_cons, ih, allAccesses, Machine.run_append, c.exec_eq fl os fd s]

end Calls

end RlsMini.Regs
