import RlsMini.Lib.Secrets
import RlsMini.Regs.Calls
import RlsMini.Regs.FixedPoint

/-!
# Uninitialised variables

`axi_read` leaves its output alone when the read fails, and none of its
callers looks at the result: a getter then returns what its local variable
`raw` held before, and `axi_dsp_apply` writes its inverse to the device.

The contents of `raw` and `rd` are the secret of a run; the values returned and
the words passed to `write` are its log.  A call keeps the secret exactly if
the read it makes delivers its four bytes.
-/

namespace RlsMini.Regs

/-! ## The device -/

/-- A device behind the descriptor.  What it does may depend on the outcome of
the call. -/
structure RegDevice (D : Type) where
  lseek : (off : Int64) → (result : Int64) → D → D
  /-- The word that a `read` of four bytes delivers. -/
  word : D → UInt32
  /-- What any other `read` leaves of the buffer. -/
  short : (n : Int64) → (rd : UInt32) → D → UInt32
  read : (n : Int64) → D → D
  write : (val : UInt32) → (n : Int64) → D → D
  close : D → D

/-- What a getter returns. -/
inductive Value (F : Type) where
  | ipVer (v : CsrIpVer)
  | word (w : UInt32)
  | cmplx (num : CmplxF64 F)
  | motionSelector (r : CsrMotionSelector)
  | real (x : F)
  | outputSource (r : CsrOutputSource)
  | apuRank (r : CsrApuRank)

/-- What can be seen of a run. -/
inductive Seen (F : Type) where
  | returned (v : Value F)
  | written (val : UInt32)

/-- The device in a run: the calls made so far, the system calls that the
present one has made, and what has been seen. -/
structure Traced (F D : Type) where
  dev : D
  made : Nat := 0
  sys : Nat := 0
  log : List (Seen F) := []

section Run

variable {F D : Type}

/-- The system calls of one call.  `outcome` holds their results in order, and
`rd` is what the variable of `axi_read` holds before. -/
def RegDevice.os (dev : RegDevice D) (outcome : Nat → Int64) (rd : UInt32) :
    Posix (Traced F D) where
  openDevice _ s := (-1, s)
  lseek _ off _ s :=
    let result := outcome s.sys
    (result, { s with dev := dev.lseek off result s.dev, sys := s.sys + 1 })
  read _ s :=
    let n := outcome s.sys
    let buf := if n = 4 then dev.word s.dev else dev.short n rd s.dev
    (n, buf, { s with dev := dev.read n s.dev, sys := s.sys + 1 })
  write _ val s :=
    let n := outcome s.sys
    (n, { s with
      dev := dev.write val n s.dev, sys := s.sys + 1, log := s.log ++ [.written val] })
  close _ s := { s with dev := dev.close s.dev }

/-! ## Calls -/

section Getters

variable {σ : Type} (fl : FloatOps F) (os : Posix σ) (fd : Int32) (raw : UInt32) (s : σ)

/-- What the getter returns. -/
def Getter.value : Getter → Value F
  | .ipVer => .ipVer (axiDspGetIpVer os fd raw s).1
  | .kill => .word (axiDspGetKill os fd raw s).1
  | .testPoint => .word (axiDspGetTestPoint os fd raw s).1
  | .channel => .word (axiDspGetChannel os fd raw s).1
  | .compensationMode => .word (axiDspGetCompensationMode os fd raw s).1
  | .manualCompensation ch => .cmplx (axiDspGetManualCompensation fl os fd raw ch s).1
  | .diagram k ch => .cmplx (getDiagram fl os fd k raw ch s).1
  | .motionSelector => .motionSelector (axiDspGetMotionSelector os fd raw s).1
  | .diagramAngle ch => .real (axiDspGetDiagramAngle fl os fd raw ch s).1
  | .outputSource => .outputSource (axiDspGetOutputSource os fd raw s).1
  | .apuRank => .apuRank (axiDspGetApuRank os fd raw s).1
  | .detectorLevel num => .word (axiDspGetDetectorLevel os fd raw num s).1
  | .azimuthAngle => .real (axiDspGetAzimuthAngle fl os fd raw s).1
  | .compensationRef => .real (axiDspGetCompensationRef fl os fd raw s).1
  | .apply => .word (axiDspGetApply os fd raw s).1

/-- What the getter makes of a word. -/
def Getter.decode (w : UInt32) : Getter → Value F
  | .ipVer => .ipVer ⟨w &&& 0xFFFF, (w >>> 16) &&& 0xFFFF⟩
  | .manualCompensation _ | .diagram _ _ =>
      .cmplx ⟨fl.fixToFloat (w &&& 0xFFFF).toInt32 MANUAL_COMPENSATION_ORD,
        fl.fixToFloat ((w >>> 16) &&& 0xFFFF).toInt32 MANUAL_COMPENSATION_ORD⟩
  | .motionSelector => .motionSelector (.ofRaw w)
  | .diagramAngle _ | .azimuthAngle => .real (fl.fixToDeg w ANGLE_ORD)
  | .outputSource => .outputSource (.ofRaw w)
  | .apuRank => .apuRank (.ofRaw w)
  | .compensationRef => .real (fl.ofUInt32 (extract w 0xffff 0))
  | .kill | .testPoint | .channel | .compensationMode | .detectorLevel _ | .apply => .word w

/-- The value depends on the word that the read leaves. -/
theorem Getter.value_eq (g : Getter) :
    g.value fl os fd raw s = g.decode fl (regRead os fd raw g.addr s).2.1 := by
  cases g with
  | diagram k channel =>
      show Value.cmplx (getDiagram fl os fd k raw channel s).1 = _
      unfold getDiagram
      split <;> rfl
  | _ => rfl

end Getters

/-- A call of the library, the descriptor's functions apart. -/
inductive DspCall (F : Type) where
  | set (c : Setter F)
  | get (g : Getter)
  | apply

/-- The call reads a register. -/
def DspCall.Reads : DspCall F → Prop
  | .set _ => False
  | .get _ => True
  | .apply => True

/-- A call with the results of its system calls: `lseek` and the transfer, for
`axi_dsp_apply` twice. -/
structure DspStep (F : Type) where
  call : DspCall F
  outcome : Nat → Int64

/-- The read of the call, if it makes one, delivers its four bytes. -/
def DspStep.Delivered (c : DspStep F) : Prop := c.call.Reads → c.outcome 1 = 4

/-- What the local variables of a call hold before they are assigned. -/
structure Locals where
  raw : UInt32
  rd : UInt32

section Step

variable (fl : FloatOps F) (dev : RegDevice D) (fd : Int32)

/-- One call.  `locals` gives the contents of the local variables by the number
of the call. -/
def dspStep (locals : Nat → Locals) (s : Traced F D) (c : DspStep F) : Traced F D :=
  let l := locals s.made
  let os := dev.os c.outcome l.rd
  let s := { s with made := s.made + 1, sys := 0 }
  match c.call with
  | .set setter => setter.exec fl os fd s
  | .get g =>
      let v := g.value fl os fd l.raw s
      let s := g.exec fl os fd l.raw s
      { s with log := s.log ++ [.returned v] }
  | .apply => axiDspApply os fd l.raw s

end Step

/-! ## One read -/

section Read

variable (dev : RegDevice D) (fd : Int32) (off : UInt32) (s : Traced F D) {outcome : Nat → Int64}

/-- A read that delivers its word does not depend on the variables. -/
theorem regRead_delivered (h : outcome (s.sys + 1) = 4) (raw raw' rd rd' : UInt32) :
    regRead (dev.os outcome rd) fd raw off s = regRead (dev.os outcome rd') fd raw' off s := by
  simp only [regRead, RegDevice.os, h]
  rfl

/-- Any other read leaves the variable of the caller as it is. -/
theorem regRead_not_delivered (h : outcome (s.sys + 1) ≠ 4) (raw rd : UInt32) :
    (regRead (dev.os outcome rd) fd raw off s).2.1 = raw := by
  simp only [regRead, RegDevice.os, ne_eq, h, not_false_eq_true, if_true]

/-- Nothing is seen of a read alone. -/
theorem regRead_log (raw rd : UInt32) :
    (regRead (dev.os outcome rd) fd raw off s).2.2.log = s.log := by
  rw [regRead_snd]
  show (if outcome (s.sys + 1) = 4 then _ else _ : Traced F D).log = s.log
  split <;> rfl

/-- The word of a write is seen. -/
theorem regWrite_log (val rd : UInt32) :
    (regWrite (dev.os outcome rd) fd val off s).2.log = s.log ++ [.written val] := by
  rw [regWrite_snd]
  show (if outcome (s.sys + 1) = 4 then _ else _ : Traced F D).log = _
  split <;> rfl

end Read

/-! ## One call -/

section Call

variable {fl : FloatOps F} {dev : RegDevice D} {fd : Int32}

/-- What is seen of a call. -/
def DspStep.seen (fl : FloatOps F) (dev : RegDevice D) (fd : Int32) (l : Locals) (s : Traced F D)
    (c : DspStep F) : Seen F :=
  let os := dev.os c.outcome l.rd
  match c.call with
  | .set setter => .written (setter.word fl)
  | .get g => .returned (g.value fl os fd l.raw s)
  | .apply => .written ((if (axiDspGetApply os fd l.raw s).1 = 0 then 1 else 0) &&& 0x01)

/-- A call adds one entry to the log. -/
theorem dspStep_log (locals : Nat → Locals) (s : Traced F D) (c : DspStep F) :
    (dspStep fl dev fd locals s c).log =
      s.log ++ [c.seen fl dev fd (locals s.made) { s with made := s.made + 1, sys := 0 }] := by
  obtain ⟨call, outcome⟩ := c
  cases call with
  | set setter =>
      simp only [dspStep, setter.exec_eq, DspStep.seen]
      exact regWrite_log _ _ _ _ _ _
  | get g =>
      simp only [dspStep, g.exec_eq, DspStep.seen, regRead_log]
  | apply =>
      simp only [dspStep, DspStep.seen]
      refine (regWrite_log _ _ _ _ _ _).trans ?_
      exact congrArg (· ++ [_]) (regRead_log _ _ _ _ _ _)

/-- A call whose read delivers does not depend on the variables. -/
theorem dspStep_delivered {c : DspStep F} (h : c.Delivered) (s : Traced F D)
    (locals locals' : Nat → Locals) :
    dspStep fl dev fd locals s c = dspStep fl dev fd locals' s c := by
  obtain ⟨call, outcome⟩ := c
  cases call with
  | set setter =>
      simp only [dspStep, setter.exec_eq]
      rfl
  | get g =>
      have hread := fun off => regRead_delivered dev fd off { s with made := s.made + 1, sys := 0 }
        (h trivial) (locals s.made).raw (locals' s.made).raw (locals s.made).rd (locals' s.made).rd
      simp only [dspStep, g.exec_eq, g.value_eq, hread]
  | apply =>
      have hread := fun off => regRead_delivered dev fd off { s with made := s.made + 1, sys := 0 }
        (h trivial) (locals s.made).raw (locals' s.made).raw (locals s.made).rd (locals' s.made).rd
      simp only [dspStep, axiDspApply, axiDspGetApply, readU32, axiRead, hread]
      rfl

/-- The conversions tell 0 from 1. -/
structure FloatOps.Tells (fl : FloatOps F) : Prop where
  fixToFloat : fl.fixToFloat 0 MANUAL_COMPENSATION_ORD ≠ fl.fixToFloat 1 MANUAL_COMPENSATION_ORD
  fixToDeg : fl.fixToDeg 0 ANGLE_ORD ≠ fl.fixToDeg 1 ANGLE_ORD
  ofUInt32 : fl.ofUInt32 0 ≠ fl.ofUInt32 1

/-- Every getter tells the word 0 from the word 1. -/
theorem Getter.decode_zero_ne_one (h : fl.Tells) (g : Getter) : g.decode fl 0 ≠ g.decode fl 1 := by
  cases g with
  | manualCompensation ch =>
      intro heq
      exact h.fixToFloat (congrArg CmplxF64.real (Value.cmplx.inj heq))
  | diagram k ch =>
      intro heq
      exact h.fixToFloat (congrArg CmplxF64.real (Value.cmplx.inj heq))
  | diagramAngle ch => exact fun heq => h.fixToDeg (Value.real.inj heq)
  | azimuthAngle => exact fun heq => h.fixToDeg (Value.real.inj heq)
  | compensationRef => exact fun heq => h.ofUInt32 (Value.real.inj heq)
  | ipVer => exact fun heq => absurd (Value.ipVer.inj heq) (by decide)
  | motionSelector => exact fun heq => absurd (Value.motionSelector.inj heq) (by decide)
  | outputSource => exact fun heq => absurd (Value.outputSource.inj heq) (by decide)
  | apuRank => exact fun heq => absurd (Value.apuRank.inj heq) (by decide)
  | _ => exact fun heq => absurd (Value.word.inj heq) (by decide)

/-- Without a delivery a call shows what its variable held: 0 and 1 are seen as
different values. -/
theorem seen_ne_of_not_delivered (dev : RegDevice D) (fd : Int32) (hfl : fl.Tells) {c : DspStep F}
    (h : ¬ c.Delivered) {s : Traced F D} (hsys : s.sys = 0) :
    c.seen fl dev fd ⟨0, 0⟩ s ≠ c.seen fl dev fd ⟨1, 0⟩ s := by
  obtain ⟨call, outcome⟩ := c
  obtain ⟨hreads, hn⟩ : call.Reads ∧ outcome 1 ≠ 4 := Classical.not_imp.mp h
  have hn' : outcome (s.sys + 1) ≠ 4 := by
    rw [hsys]
    exact hn
  have hraw := fun off raw => regRead_not_delivered dev fd off s hn' raw 0
  cases call with
  | set setter => exact absurd hreads id
  | get g =>
      simp only [DspStep.seen, g.value_eq, hraw]
      exact fun heq => g.decode_zero_ne_one hfl (Seen.returned.inj heq)
  | apply =>
      simp only [DspStep.seen, axiDspGetApply, readU32, axiRead, hraw]
      exact fun heq => absurd (Seen.written.inj heq) (by decide)

theorem not_prefix_of_ne {ω : Type} {l : List ω} {a b : ω} (h : a ≠ b) :
    ¬ l ++ [a] <+: l ++ [b] := by
  rw [List.prefix_append_right_inj, List.cons_prefix_cons]
  exact fun heq => h heq.1

/-- Without a delivery the logs part. -/
theorem dspStep_parts (hfl : fl.Tells) {c : DspStep F} (h : ¬ c.Delivered) (s : Traced F D) :
    Machine.Parts (dspStep fl dev fd) Traced.log s c := by
  have hne := seen_ne_of_not_delivered dev fd hfl h (s := { s with made := s.made + 1, sys := 0 })
    rfl
  refine ⟨fun _ => ⟨0, 0⟩, fun _ => ⟨1, 0⟩, ?_, ?_⟩
  · rw [dspStep_log, dspStep_log]
    exact not_prefix_of_ne hne
  · rw [dspStep_log, dspStep_log]
    exact not_prefix_of_ne hne.symm

end Call

end Run

/-- Two runs of the same calls with the same outcomes show the same exactly if
every read that a getter or `axi_dsp_apply` makes delivers its four bytes. -/
theorem runs_show_same_iff {F D : Type} (fl : FloatOps F) (hfl : fl.Tells) (dev : RegDevice D)
    (fd : Int32) (d : D) (calls : List (DspStep F)) :
    (∀ locals locals' : Nat → Locals,
        (Machine.run (dspStep fl dev fd locals) { dev := d } calls).log =
          (Machine.run (dspStep fl dev fd locals') { dev := d } calls).log) ↔
      ∀ c ∈ calls, c.Delivered := by
  have : Nonempty (Nat → Locals) := ⟨fun _ => ⟨0, 0⟩⟩
  refine Machine.conceals_iff (fun locals s c => ?_) (fun s c h => dspStep_delivered h s)
    (fun s c h => dspStep_parts hfl h s) { dev := d } calls
  rw [dspStep_log]
  exact List.prefix_append _ _

/-! ## A device of one word -/

/-- A device that keeps the last word written. -/
def oneWord : RegDevice UInt32 where
  lseek _ _ w := w
  word w := w
  short _ rd _ := rd
  read _ w := w
  write val _ _ := val
  close w := w

/-- Exact conversions; an undefined one gives 0. -/
def exactOps : FloatOps ℚ := FloatArith.exact.ops fun _ => 0

theorem exactOps_tells : exactOps.Tells := by
  refine ⟨?_, ?_, ?_⟩
  · show ((0 : Int) : ℚ) / FloatArith.exact.unit 14 ≠ ((1 : Int) : ℚ) / FloatArith.exact.unit 14
    rw [FloatArith.exact_unit (by omega)]
    norm_num
  · show ((0 : Int) : ℚ) / FloatArith.exact.unit 32 * ((360 : Int) : ℚ) ≠
      ((1 : Int) : ℚ) / FloatArith.exact.unit 32 * ((360 : Int) : ℚ)
    rw [FloatArith.exact_unit (by omega)]
    norm_num
  · show ((0 : Int) : ℚ) ≠ ((1 : Int) : ℚ)
    norm_num

/-- What is seen of the calls on the device with the word 5. -/
def shown (calls : List (DspStep ℚ)) (locals : Nat → Locals) : List (Seen ℚ) :=
  (Machine.run (dspStep exactOps oneWord 3 locals) { dev := 5 } calls).log

/-- `axi_dsp_apply` twice, each time with all transfers complete. -/
theorem runs_show_same_apply :
    shown [⟨.apply, fun _ => 4⟩, ⟨.apply, fun _ => 4⟩] (fun _ => ⟨0, 0⟩) =
      shown [⟨.apply, fun _ => 4⟩, ⟨.apply, fun _ => 4⟩] fun _ => ⟨7, 7⟩ := by
  refine (runs_show_same_iff exactOps exactOps_tells oneWord 3 5 _).mpr ?_ _ _
  intro c hc
  rw [List.mem_cons, List.mem_singleton, or_self] at hc
  rw [hc]
  exact fun _ => rfl

/-- When its read fails, a getter returns what its variable held, and
`axi_dsp_apply` writes the inverse of it. -/
theorem failed_read_shows_variable :
    shown [⟨.get .kill, fun _ => -1⟩, ⟨.apply, fun _ => -1⟩] (fun _ => ⟨0, 0⟩) =
        [.returned (.word 0), .written 1] ∧
      shown [⟨.get .kill, fun _ => -1⟩, ⟨.apply, fun _ => -1⟩] (fun _ => ⟨1, 0⟩) =
        [.returned (.word 1), .written 0] ∧
      ¬ ∀ locals locals' : Nat → Locals,
        shown [⟨.get .kill, fun _ => -1⟩, ⟨.apply, fun _ => -1⟩] locals =
          shown [⟨.get .kill, fun _ => -1⟩, ⟨.apply, fun _ => -1⟩] locals' := by
  have hzero : shown [⟨.get .kill, fun _ => -1⟩, ⟨.apply, fun _ => -1⟩] (fun _ => ⟨0, 0⟩) =
      [.returned (.word 0), .written 1] := rfl
  have hone : shown [⟨.get .kill, fun _ => -1⟩, ⟨.apply, fun _ => -1⟩] (fun _ => ⟨1, 0⟩) =
      [.returned (.word 1), .written 0] := rfl
  refine ⟨hzero, hone, fun hall => ?_⟩
  have heq := hall (fun _ => ⟨0, 0⟩) fun _ => ⟨1, 0⟩
  rw [hzero, hone] at heq
  exact absurd (Value.word.inj (Seen.returned.inj (List.cons.inj heq).1)) (by decide)

end RlsMini.Regs
