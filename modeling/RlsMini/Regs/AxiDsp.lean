import RlsMini.Regs.Access

/-!
# The library of the signal processor

`axi_dsp.cpp`: the descriptor, one getter for each register and one setter for
each that is meant to be set, all of them on the access functions of
`RlsMini.Regs.Access`.  The conversions between `float` and fixed point are a
parameter.

A getter reads into a local variable that is not initialised.  The variable is
the argument `raw`: a getter whose read fails goes on with it.
-/

namespace RlsMini.Regs

/-! ## Registers -/

def CSR_KILL_ADDR : UInt32 := 0x4
def CSR_TEST_POINT_ADDR : UInt32 := 0x8
def CSR_CHANNEL_ADDR : UInt32 := 0xc
def CSR_COMPENSATION_MODE_ADDR : UInt32 := 0x10
def CSR_MANUAL_COMPENSATION_0_ADDR : UInt32 := 0x14
def CSR_DIAGRAM_0_0_ADDR : UInt32 := 0x34
def CSR_DIAGRAM_1_0_ADDR : UInt32 := 0x54
def CSR_DIAGRAM_2_0_ADDR : UInt32 := 0x74
def CSR_DIAGRAM_3_0_ADDR : UInt32 := 0x94
def CSR_DIAGRAM_4_0_ADDR : UInt32 := 0xb4
def CSR_DIAGRAM_5_0_ADDR : UInt32 := 0xd4
def CSR_DIAGRAM_6_0_ADDR : UInt32 := 0xf4
def CSR_DIAGRAM_7_0_ADDR : UInt32 := 0x114
def CSR_MOTION_SELECTOR_ADDR : UInt32 := 0x134
def CSR_DIAGRAM_ANGLE_0_ADDR : UInt32 := 0x138
def CSR_OUTPUT_SOURCE_ADDR : UInt32 := 0x158
def CSR_APU_RANK_ADDR : UInt32 := 0x15c
def CSR_DETECTOR_LEVEL_0_ADDR : UInt32 := 0x160
def CSR_AZIMUTH_ANGLE_ADDR : UInt32 := 0x168
def CSR_APPLY_ADDR : UInt32 := 0x16c
def CSR_COMPENSATION_REFERENCE_ADDR : UInt32 := 0x170

/-- A bit-field of `width` bits at bit `lsb`: the low bits of the value it is
set to. -/
def field (value : UInt32) (width lsb : Nat) : UInt32 :=
  UInt32.ofNat (value.toNat % 2 ^ width * 2 ^ lsb)

/-- `(raw & mask) >> lsb`. -/
def extract (raw mask lsb : UInt32) : UInt32 := (raw &&& mask) >>> lsb

structure CsrIpVer where
  minVer : UInt32
  majVer : UInt32
  deriving DecidableEq, Repr

structure CsrMotionSelector where
  filter : UInt32
  onoff : UInt32
  deriving DecidableEq, Repr

structure CsrOutputSource where
  source : UInt32
  sourceChannel : UInt32
  rangeGate : UInt32
  deriving DecidableEq, Repr

structure CsrApuRank where
  rank : UInt32
  window : UInt32
  deriving DecidableEq, Repr

/-- The word of a motion selector, reserved bits zero. -/
def CsrMotionSelector.raw (r : CsrMotionSelector) : UInt32 :=
  field r.filter 8 0 ||| field r.onoff 1 8

/-- The word of an output source, padding zero. -/
def CsrOutputSource.raw (r : CsrOutputSource) : UInt32 :=
  field r.source 16 0 ||| field r.sourceChannel 3 16 ||| field r.rangeGate 8 19

/-- The word of an APU rank, reserved bits zero. -/
def CsrApuRank.raw (r : CsrApuRank) : UInt32 := field r.rank 8 0 ||| field r.window 8 8

/-! ## Fixed point -/

/-- The conversions of `misc.h`, on a type of floating-point numbers. -/
structure FloatOps (F : Type) where
  floatToFix : F → (ord : Nat) → Int32
  fixToFloat : Int32 → (ord : Nat) → F
  degToFix : F → (ord : Nat) → UInt32
  fixToDeg : UInt32 → (ord : Nat) → F
  /-- The conversion of a `uint32_t` to `float`. -/
  ofUInt32 : UInt32 → F

/-- `cmplx_f64`. -/
structure CmplxF64 (F : Type) where
  real : F
  imag : F

def MANUAL_COMPENSATION_ORD : Nat := 14
def ANGLE_ORD : Nat := 32
def COMPENSATION_REFERENCE_ORD : Nat := 14

section Library

variable {F σ : Type} (fl : FloatOps F) (os : Posix σ) (fd : Int32)

/-- The word of a complex number: the real part is the low half. -/
def cmplxRaw (num : CmplxF64 F) : UInt32 :=
  field (fl.floatToFix num.real MANUAL_COMPENSATION_ORD).toUInt32 16 0 |||
    field (fl.floatToFix num.imag MANUAL_COMPENSATION_ORD).toUInt32 16 16

/-- `write_cmplx_num`. -/
def writeCmplxNum (num : CmplxF64 F) (addr : UInt32) (s : σ) : σ :=
  (axiWrite os fd (cmplxRaw fl num) addr s).2

/-- `write_angle`. -/
def writeAngle (angle : F) (addr : UInt32) (s : σ) : σ :=
  (axiWrite os fd (fl.degToFix angle ANGLE_ORD) addr s).2

/-! ## The descriptor -/

/-- `axi_dsp_init`: the result and `fd`. -/
def axiDspInit (s : σ) : FdErr × Int32 × σ :=
  let (fd, s) := os.openDevice false s
  if fd < 0 then
    let (fd, s) := os.openDevice true s
    if fd < 0 then (.FD_ERR_NO_DEVICE, fd, s) else (.FD_ERR_NONE, fd, s)
  else (.FD_ERR_NONE, fd, s)

variable {os} in
/-- The descriptor and the state behind `axi_dsp_init`. -/
theorem axiDspInit_snd (s : σ) :
    (axiDspInit os s).2 =
      let t := os.openDevice false s
      if t.1 < 0 then os.openDevice true t.2 else t := by
  simp only [axiDspInit]
  split
  · split <;> rfl
  · rfl

/-- `axi_dsp_deinit`. -/
def axiDspDeinit (s : σ) : σ := os.close fd s

/-! ## Getters -/

section Getters

variable (raw : UInt32)

/-- `read_cmplx_num`. -/
def readCmplxNum (addr : UInt32) (s : σ) : CmplxF64 F × σ :=
  let (_, raw, s) := axiRead os fd raw addr s
  let real := (raw &&& 0xFFFF).toInt32
  let imag := ((raw >>> 16) &&& 0xFFFF).toInt32
  (⟨fl.fixToFloat real MANUAL_COMPENSATION_ORD, fl.fixToFloat imag MANUAL_COMPENSATION_ORD⟩, s)

/-- `read_angle`. -/
def readAngle (addr : UInt32) (s : σ) : F × σ :=
  let (_, raw, s) := axiRead os fd raw addr s
  (fl.fixToDeg raw ANGLE_ORD, s)

/-- `read_u32`. -/
def readU32 (addr : UInt32) (s : σ) : UInt32 × σ :=
  let (_, raw, s) := axiRead os fd raw addr s
  (raw, s)

/-- `axi_dsp_get_ip_ver`. -/
def axiDspGetIpVer (s : σ) : CsrIpVer × σ :=
  let (_, raw, s) := axiRead os fd raw CSR_IP_VER_ADDR s
  (⟨raw &&& 0xFFFF, (raw >>> 16) &&& 0xFFFF⟩, s)

/-- `axi_dsp_get_kill`. -/
def axiDspGetKill (s : σ) : UInt32 × σ := readU32 os fd raw CSR_KILL_ADDR s

/-- `axi_dsp_get_test_point`. -/
def axiDspGetTestPoint (s : σ) : UInt32 × σ := readU32 os fd raw CSR_TEST_POINT_ADDR s

/-- `axi_dsp_get_channel`. -/
def axiDspGetChannel (s : σ) : UInt32 × σ := readU32 os fd raw CSR_CHANNEL_ADDR s

/-- `axi_dsp_get_compensation_mode`. -/
def axiDspGetCompensationMode (s : σ) : UInt32 × σ :=
  readU32 os fd raw CSR_COMPENSATION_MODE_ADDR s

/-- `axi_dsp_get_manual_compensation`. -/
def axiDspGetManualCompensation (channel : UInt32) (s : σ) : CmplxF64 F × σ :=
  readCmplxNum fl os fd raw (CSR_MANUAL_COMPENSATION_0_ADDR + channel * 4) s

/-- `axi_dsp_get_diagram_0`. -/
def axiDspGetDiagram0 (channel : UInt32) (s : σ) : CmplxF64 F × σ :=
  readCmplxNum fl os fd raw (CSR_DIAGRAM_0_0_ADDR + channel * 4) s

/-- `axi_dsp_get_diagram_1`. -/
def axiDspGetDiagram1 (channel : UInt32) (s : σ) : CmplxF64 F × σ :=
  readCmplxNum fl os fd raw (CSR_DIAGRAM_1_0_ADDR + channel * 4) s

/-- `axi_dsp_get_diagram_2`. -/
def axiDspGetDiagram2 (channel : UInt32) (s : σ) : CmplxF64 F × σ :=
  readCmplxNum fl os fd raw (CSR_DIAGRAM_2_0_ADDR + channel * 4) s

/-- `axi_dsp_get_diagram_3`. -/
def axiDspGetDiagram3 (channel : UInt32) (s : σ) : CmplxF64 F × σ :=
  readCmplxNum fl os fd raw (CSR_DIAGRAM_3_0_ADDR + channel * 4) s

/-- `axi_dsp_get_diagram_4`. -/
def axiDspGetDiagram4 (channel : UInt32) (s : σ) : CmplxF64 F × σ :=
  readCmplxNum fl os fd raw (CSR_DIAGRAM_4_0_ADDR + channel * 4) s

/-- `axi_dsp_get_diagram_5`. -/
def axiDspGetDiagram5 (channel : UInt32) (s : σ) : CmplxF64 F × σ :=
  readCmplxNum fl os fd raw (CSR_DIAGRAM_5_0_ADDR + channel * 4) s

/-- `axi_dsp_get_diagram_6`. -/
def axiDspGetDiagram6 (channel : UInt32) (s : σ) : CmplxF64 F × σ :=
  readCmplxNum fl os fd raw (CSR_DIAGRAM_6_0_ADDR + channel * 4) s

/-- `axi_dsp_get_diagram_7`. -/
def axiDspGetDiagram7 (channel : UInt32) (s : σ) : CmplxF64 F × σ :=
  readCmplxNum fl os fd raw (CSR_DIAGRAM_7_0_ADDR + channel * 4) s

/-- `axi_dsp_get_motion_selector`. -/
def axiDspGetMotionSelector (s : σ) : CsrMotionSelector × σ :=
  let (_, raw, s) := axiRead os fd raw CSR_MOTION_SELECTOR_ADDR s
  (⟨extract raw 0xff 0, extract raw 0x100 8⟩, s)

/-- `axi_dsp_get_diagram_angle`. -/
def axiDspGetDiagramAngle (channel : UInt32) (s : σ) : F × σ :=
  readAngle fl os fd raw (CSR_DIAGRAM_ANGLE_0_ADDR + channel * 4) s

/-- `axi_dsp_get_output_source`. -/
def axiDspGetOutputSource (s : σ) : CsrOutputSource × σ :=
  let (_, raw, s) := axiRead os fd raw CSR_OUTPUT_SOURCE_ADDR s
  (⟨extract raw 0xffff 0, extract raw 0x00070000 16, extract raw 0x00F80000 19⟩, s)

/-- `axi_dsp_get_apu_rank`. -/
def axiDspGetApuRank (s : σ) : CsrApuRank × σ :=
  let (_, raw, s) := axiRead os fd raw CSR_OUTPUT_SOURCE_ADDR s
  (⟨extract raw 0xff 0, extract raw 0xff00 8⟩, s)

/-- `axi_dsp_get_detector_level`. -/
def axiDspGetDetectorLevel (num : UInt32) (s : σ) : UInt32 × σ :=
  readU32 os fd raw (CSR_OUTPUT_SOURCE_ADDR + num * 4) s

/-- `axi_dsp_get_azimuth_angle`. -/
def axiDspGetAzimuthAngle (s : σ) : F × σ := readAngle fl os fd raw CSR_AZIMUTH_ANGLE_ADDR s

/-- `axi_dsp_get_compensation_ref`. -/
def axiDspGetCompensationRef (s : σ) : F × σ :=
  let (_, raw, s) := axiRead os fd raw CSR_COMPENSATION_REFERENCE_ADDR s
  (fl.ofUInt32 (extract raw 0xffff 0), s)

/-- `axi_dsp_get_apply`. -/
def axiDspGetApply (s : σ) : UInt32 × σ := readU32 os fd raw CSR_APPLY_ADDR s

end Getters

/-! ## Setters -/

/-- `axi_dsp_set_test_point`. -/
def axiDspSetTestPoint (tp : UInt32) (s : σ) : σ := (axiWrite os fd tp CSR_TEST_POINT_ADDR s).2

/-- `axi_dsp_set_channel`. -/
def axiDspSetChannel (channel : UInt32) (s : σ) : σ :=
  (axiWrite os fd channel CSR_CHANNEL_ADDR s).2

/-- `axi_dsp_set_compensation_mode`. -/
def axiDspSetCompensationMode (compensationMode : UInt32) (s : σ) : σ :=
  (axiWrite os fd compensationMode CSR_COMPENSATION_MODE_ADDR s).2

/-- `axi_dsp_set_manual_compensation`. -/
def axiDspSetManualCompensation (manualComp : CmplxF64 F) (channel : UInt32) (s : σ) : σ :=
  writeCmplxNum fl os fd manualComp (CSR_MANUAL_COMPENSATION_0_ADDR + channel * 4) s

/-- `axi_dsp_set_diagram_0`. -/
def axiDspSetDiagram0 (diagram : CmplxF64 F) (channel : UInt32) (s : σ) : σ :=
  writeCmplxNum fl os fd diagram (CSR_DIAGRAM_0_0_ADDR + channel * 4) s

/-- `axi_dsp_set_diagram_1`. -/
def axiDspSetDiagram1 (diagram : CmplxF64 F) (channel : UInt32) (s : σ) : σ :=
  writeCmplxNum fl os fd diagram (CSR_DIAGRAM_1_0_ADDR + channel * 4) s

/-- `axi_dsp_set_diagram_2`. -/
def axiDspSetDiagram2 (diagram : CmplxF64 F) (channel : UInt32) (s : σ) : σ :=
  writeCmplxNum fl os fd diagram (CSR_DIAGRAM_2_0_ADDR + channel * 4) s

/-- `axi_dsp_set_diagram_3`. -/
def axiDspSetDiagram3 (diagram : CmplxF64 F) (channel : UInt32) (s : σ) : σ :=
  writeCmplxNum fl os fd diagram (CSR_DIAGRAM_3_0_ADDR + channel * 4) s

/-- `axi_dsp_set_diagram_4`. -/
def axiDspSetDiagram4 (diagram : CmplxF64 F) (channel : UInt32) (s : σ) : σ :=
  writeCmplxNum fl os fd diagram (CSR_DIAGRAM_4_0_ADDR + channel * 4) s

/-- `axi_dsp_set_diagram_5`. -/
def axiDspSetDiagram5 (diagram : CmplxF64 F) (channel : UInt32) (s : σ) : σ :=
  writeCmplxNum fl os fd diagram (CSR_DIAGRAM_5_0_ADDR + channel * 4) s

/-- `axi_dsp_set_diagram_6`. -/
def axiDspSetDiagram6 (diagram : CmplxF64 F) (channel : UInt32) (s : σ) : σ :=
  writeCmplxNum fl os fd diagram (CSR_DIAGRAM_6_0_ADDR + channel * 4) s

/-- `axi_dsp_set_diagram_7`. -/
def axiDspSetDiagram7 (diagram : CmplxF64 F) (channel : UInt32) (s : σ) : σ :=
  writeCmplxNum fl os fd diagram (CSR_DIAGRAM_7_0_ADDR + channel * 4) s

/-- `axi_dsp_set_motion_selector`. -/
def axiDspSetMotionSelector (filter onoff : UInt32) (s : σ) : σ :=
  (axiWrite os fd (CsrMotionSelector.raw ⟨filter, onoff⟩) CSR_MOTION_SELECTOR_ADDR s).2

/-- `axi_dsp_set_diagram_angle`. -/
def axiDspSetDiagramAngle (angle : F) (channel : UInt32) (s : σ) : σ :=
  writeAngle fl os fd angle (CSR_DIAGRAM_ANGLE_0_ADDR + channel * 4) s

/-- `axi_dsp_set_output_source`. -/
def axiDspSetOutputSource (src srcChannel rangeGate : UInt32) (s : σ) : σ :=
  (axiWrite os fd (CsrOutputSource.raw ⟨src, srcChannel, rangeGate⟩) CSR_OUTPUT_SOURCE_ADDR s).2

/-- `axi_dsp_set_apu_rank`. -/
def axiDspSetApuRank (rank window : UInt32) (s : σ) : σ :=
  (axiWrite os fd (CsrApuRank.raw ⟨rank, window⟩) CSR_APU_RANK_ADDR s).2

/-- `axi_dsp_set_detector_level`. -/
def axiDspSetDetectorLevel (level num : UInt32) (s : σ) : σ :=
  (axiWrite os fd (level * ((1 : UInt32) <<< 24)) (CSR_DETECTOR_LEVEL_0_ADDR + num * 4) s).2

/-- `axi_dsp_set_azimuth_angle`. -/
def axiDspSetAzimuthAngle (angle : F) (s : σ) : σ :=
  writeAngle fl os fd angle CSR_AZIMUTH_ANGLE_ADDR s

/-- `axi_dsp_set_compensation_ref`. -/
def axiDspSetCompensationRef (ref : F) (s : σ) : σ :=
  (axiWrite os fd (fl.floatToFix ref COMPENSATION_REFERENCE_ORD).toUInt32
    CSR_COMPENSATION_REFERENCE_ADDR s).2

/-! ## Commands -/

/-- `axi_dsp_kill`. -/
def axiDspKill (s : σ) : σ :=
  let (_, s) := axiWrite os fd 0 CSR_KILL_ADDR s
  (axiWrite os fd 1 CSR_KILL_ADDR s).2

/-- `axi_dsp_apply`. -/
def axiDspApply (raw : UInt32) (s : σ) : σ :=
  let (apply, s) := axiDspGetApply os fd raw s
  let prevApply := (if apply = 0 then 1 else 0) &&& 0x01
  (axiWrite os fd prevApply CSR_APPLY_ADDR s).2

end Library

end RlsMini.Regs
