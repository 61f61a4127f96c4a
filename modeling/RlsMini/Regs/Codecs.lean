import RlsMini.Lib.BitFields
import RlsMini.Regs.AxiDsp

/-!
# The packed registers

A setter of `axi_dsp.cpp` builds the word of `motion_selector`,
`output_source` and `apu_rank` from bit-fields, and a getter takes it apart
with masks and shifts of its own.  `raw` is the first and `ofRaw` the second.

The two layouts agree but for `RANGE_GATE`, a field of eight bits under a mask
of five.
-/

namespace RlsMini.Regs

open BitFields

/-! ## What the getters extract -/

/-- The fields that `axi_dsp_get_motion_selector` extracts. -/
def CsrMotionSelector.ofRaw (raw : UInt32) : CsrMotionSelector :=
  ⟨extract raw 0xff 0, extract raw 0x100 8⟩

/-- The fields that `axi_dsp_get_output_source` extracts. -/
def CsrOutputSource.ofRaw (raw : UInt32) : CsrOutputSource :=
  ⟨extract raw 0xffff 0, extract raw 0x00070000 16, extract raw 0x00F80000 19⟩

/-- The fields that `axi_dsp_get_apu_rank` extracts. -/
def CsrApuRank.ofRaw (raw : UInt32) : CsrApuRank := ⟨extract raw 0xff 0, extract raw 0xff00 8⟩

section Getters

variable {σ : Type} (os : Posix σ) (fd : Int32) (raw : UInt32) (s : σ)

theorem axiDspGetMotionSelector_fst :
    (axiDspGetMotionSelector os fd raw s).1 =
      .ofRaw (axiRead os fd raw CSR_MOTION_SELECTOR_ADDR s).2.1 := rfl

theorem axiDspGetOutputSource_fst :
    (axiDspGetOutputSource os fd raw s).1 =
      .ofRaw (axiRead os fd raw CSR_OUTPUT_SOURCE_ADDR s).2.1 := rfl

theorem axiDspGetApuRank_fst :
    (axiDspGetApuRank os fd raw s).1 =
      .ofRaw (axiRead os fd raw CSR_OUTPUT_SOURCE_ADDR s).2.1 := rfl

end Getters

/-! ## The declared widths -/

/-- The values fit their bit-fields. -/
def CsrMotionSelector.Fits (r : CsrMotionSelector) : Prop :=
  r.filter.toNat < 2 ^ 8 ∧ r.onoff.toNat < 2 ^ 1

/-- The values fit their bit-fields. -/
def CsrOutputSource.Fits (r : CsrOutputSource) : Prop :=
  r.source.toNat < 2 ^ 16 ∧ r.sourceChannel.toNat < 2 ^ 3 ∧ r.rangeGate.toNat < 2 ^ 8

/-- The values fit their bit-fields. -/
def CsrApuRank.Fits (r : CsrApuRank) : Prop := r.rank.toNat < 2 ^ 8 ∧ r.window.toNat < 2 ^ 8

/-- The bits of `motion_selector` that are not reserved. -/
def CsrMotionSelector.declared : UInt32 := 0x000001ff

/-- The bits of `output_source` that are not padding. -/
def CsrOutputSource.declared : UInt32 := 0x07ffffff

/-- The bits of `apu_rank` that are not reserved. -/
def CsrApuRank.declared : UInt32 := 0x0000ffff

/-! ## Words as numbers -/

/-- A bit-field within the word. -/
theorem toNat_field {width lsb : Nat} (h : width + lsb ≤ 32) (value : UInt32) :
    (field value width lsb).toNat = value.toNat % 2 ^ width * 2 ^ lsb := by
  have hlt : value.toNat % 2 ^ width * 2 ^ lsb < 2 ^ 32 := by
    calc value.toNat % 2 ^ width * 2 ^ lsb < 2 ^ width * 2 ^ lsb :=
          Nat.mul_lt_mul_of_pos_right (Nat.mod_lt _ (Nat.two_pow_pos width)) (Nat.two_pow_pos lsb)
      _ = 2 ^ (width + lsb) := (Nat.pow_add 2 width lsb).symm
      _ ≤ 2 ^ 32 := Nat.pow_le_pow_right (by omega) h
  rw [field, UInt32.toNat_ofNat_of_lt' hlt]

/-- What a getter extracts with the mask of a field. -/
theorem toNat_extract (raw m : UInt32) (width : Nat) (lsb : UInt32)
    (hmask : m.toNat = mask width lsb.toNat) (hlsb : lsb.toNat < 32) :
    (extract raw m lsb).toNat = slice raw.toNat width lsb.toNat := by
  rw [extract, UInt32.toNat_shiftRight, UInt32.toNat_and, hmask, Nat.mod_eq_of_lt hlsb,
    and_mask_shiftRight]

/-- Two bit-fields, the second above the first. -/
theorem toNat_field_or_field {v w : Nat} (h : w + v ≤ 32) (low high : UInt32) :
    (field low v 0 ||| field high w v).toNat =
      low.toNat % 2 ^ v + high.toNat % 2 ^ w * 2 ^ v := by
  rw [UInt32.toNat_or, toNat_field (by omega), toNat_field h, Nat.pow_zero, Nat.mul_one]
  exact or_field (Nat.mod_lt _ (Nat.two_pow_pos v)) _

/-- The low bits of a word. -/
theorem toNat_and_mask (w m : UInt32) (width : Nat) (hmask : m.toNat = mask width 0) :
    (w &&& m).toNat = w.toNat % 2 ^ width := by
  rw [UInt32.toNat_and, hmask, and_mask_zero]

theorem CsrMotionSelector.toNat_raw (r : CsrMotionSelector) :
    r.raw.toNat = r.filter.toNat % 2 ^ 8 + r.onoff.toNat % 2 ^ 1 * 2 ^ 8 :=
  toNat_field_or_field (by omega) r.filter r.onoff

theorem CsrOutputSource.toNat_raw (r : CsrOutputSource) :
    r.raw.toNat = r.source.toNat % 2 ^ 16 + r.sourceChannel.toNat % 2 ^ 3 * 2 ^ 16 +
      r.rangeGate.toNat % 2 ^ 8 * 2 ^ 19 := by
  rw [raw, UInt32.toNat_or, toNat_field_or_field (by omega), toNat_field (by omega),
    or_field (by omega)]

theorem CsrApuRank.toNat_raw (r : CsrApuRank) :
    r.raw.toNat = r.rank.toNat % 2 ^ 8 + r.window.toNat % 2 ^ 8 * 2 ^ 8 :=
  toNat_field_or_field (by omega) r.rank r.window

section OfRaw

variable (w : UInt32)

theorem CsrMotionSelector.toNat_ofRaw :
    (ofRaw w).filter.toNat = w.toNat % 2 ^ 8 ∧ (ofRaw w).onoff.toNat = w.toNat / 2 ^ 8 % 2 ^ 1 := by
  have hfilter := toNat_extract w 0xff 8 0 rfl (by decide)
  have honoff := toNat_extract w 0x100 1 8 rfl (by decide)
  refine ⟨hfilter.trans ?_, honoff⟩
  exact congrArg (· % 2 ^ 8) (Nat.div_one w.toNat)

/-- The mask of `RANGE_GATE` has five bits. -/
theorem CsrOutputSource.toNat_ofRaw :
    (ofRaw w).source.toNat = w.toNat % 2 ^ 16 ∧
      (ofRaw w).sourceChannel.toNat = w.toNat / 2 ^ 16 % 2 ^ 3 ∧
      (ofRaw w).rangeGate.toNat = w.toNat / 2 ^ 19 % 2 ^ 5 := by
  have hsource := toNat_extract w 0xffff 16 0 rfl (by decide)
  have hchannel := toNat_extract w 0x00070000 3 16 rfl (by decide)
  have hgate := toNat_extract w 0x00F80000 5 19 rfl (by decide)
  refine ⟨hsource.trans ?_, hchannel, hgate⟩
  exact congrArg (· % 2 ^ 16) (Nat.div_one w.toNat)

theorem CsrApuRank.toNat_ofRaw :
    (ofRaw w).rank.toNat = w.toNat % 2 ^ 8 ∧ (ofRaw w).window.toNat = w.toNat / 2 ^ 8 % 2 ^ 8 := by
  have hrank := toNat_extract w 0xff 8 0 rfl (by decide)
  have hwindow := toNat_extract w 0xff00 8 8 rfl (by decide)
  refine ⟨hrank.trans ?_, hwindow⟩
  exact congrArg (· % 2 ^ 8) (Nat.div_one w.toNat)

end OfRaw

/-! ## The codecs -/

/-- A motion selector comes back as it was packed. -/
theorem CsrMotionSelector.ofRaw_raw {r : CsrMotionSelector} (h : r.Fits) : ofRaw r.raw = r := by
  obtain ⟨hfilter, honoff⟩ := toNat_ofRaw r.raw
  obtain ⟨hfilter', honoff'⟩ := h
  rw [r.toNat_raw] at hfilter honoff
  rw [mk.injEq, ← UInt32.toNat_inj, ← UInt32.toNat_inj]
  refine ⟨hfilter.trans ?_, honoff.trans ?_⟩
  · omega
  · omega

theorem CsrMotionSelector.raw_ofRaw (w : UInt32) : (ofRaw w).raw = w &&& declared := by
  obtain ⟨hfilter, honoff⟩ := toNat_ofRaw w
  have hdeclared := toNat_and_mask w declared 9 rfl
  rw [← UInt32.toNat_inj, toNat_raw, hfilter, honoff, hdeclared]
  omega

/-- An APU rank comes back as it was packed. -/
theorem CsrApuRank.ofRaw_raw {r : CsrApuRank} (h : r.Fits) : ofRaw r.raw = r := by
  obtain ⟨hrank, hwindow⟩ := toNat_ofRaw r.raw
  obtain ⟨hrank', hwindow'⟩ := h
  rw [r.toNat_raw] at hrank hwindow
  rw [mk.injEq, ← UInt32.toNat_inj, ← UInt32.toNat_inj]
  refine ⟨hrank.trans ?_, hwindow.trans ?_⟩
  · omega
  · omega

theorem CsrApuRank.raw_ofRaw (w : UInt32) : (ofRaw w).raw = w &&& declared := by
  obtain ⟨hrank, hwindow⟩ := toNat_ofRaw w
  have hdeclared := toNat_and_mask w declared 16 rfl
  rw [← UInt32.toNat_inj, toNat_raw, hrank, hwindow, hdeclared]
  omega

/-- An output source comes back with the low five bits of its range gate. -/
theorem CsrOutputSource.ofRaw_raw_iff {r : CsrOutputSource} (h : r.Fits) :
    ofRaw r.raw = r ↔ r.rangeGate.toNat < 2 ^ 5 := by
  obtain ⟨hsource, hchannel, hgate⟩ := toNat_ofRaw r.raw
  obtain ⟨hsource', hchannel', hgate'⟩ := h
  rw [r.toNat_raw] at hsource hchannel hgate
  rw [mk.injEq, ← UInt32.toNat_inj, ← UInt32.toNat_inj, ← UInt32.toNat_inj, hsource, hchannel,
    hgate]
  omega

theorem CsrOutputSource.raw_ofRaw_iff (w : UInt32) :
    (ofRaw w).raw = w &&& declared ↔ w.toNat / 2 ^ 24 % 2 ^ 3 = 0 := by
  obtain ⟨hsource, hchannel, hgate⟩ := toNat_ofRaw w
  have hdeclared := toNat_and_mask w declared 27 rfl
  rw [← UInt32.toNat_inj, toNat_raw, hsource, hchannel, hgate, hdeclared]
  omega

/-- Extracting and packing are inverse on motion selectors and APU ranks, on
output sources exactly where the range gate stays within the five bits of its
mask. -/
theorem packed_codecs_inverse_iff (m : CsrMotionSelector) (a : CsrApuRank) (o : CsrOutputSource)
    (w : UInt32) (hm : m.Fits) (ha : a.Fits) (ho : o.Fits) :
    (CsrMotionSelector.ofRaw m.raw = m ∧
      (CsrMotionSelector.ofRaw w).raw = w &&& CsrMotionSelector.declared) ∧
    (CsrApuRank.ofRaw a.raw = a ∧ (CsrApuRank.ofRaw w).raw = w &&& CsrApuRank.declared) ∧
    (CsrOutputSource.ofRaw o.raw = o ↔ o.rangeGate.toNat < 2 ^ 5) ∧
    ((CsrOutputSource.ofRaw w).raw = w &&& CsrOutputSource.declared ↔
      w.toNat / 2 ^ 24 % 2 ^ 3 = 0) :=
  ⟨⟨CsrMotionSelector.ofRaw_raw hm, CsrMotionSelector.raw_ofRaw w⟩,
    ⟨CsrApuRank.ofRaw_raw ha, CsrApuRank.raw_ofRaw w⟩,
    CsrOutputSource.ofRaw_raw_iff ho, CsrOutputSource.raw_ofRaw_iff w⟩

/-- The last range gate that comes back. -/
theorem packed_codecs_gate_31 :
    CsrMotionSelector.ofRaw (CsrMotionSelector.raw ⟨255, 1⟩) = ⟨255, 1⟩ ∧
      CsrApuRank.ofRaw (CsrApuRank.raw ⟨255, 255⟩) = ⟨255, 255⟩ ∧
      CsrOutputSource.ofRaw (CsrOutputSource.raw ⟨3, 7, 31⟩) = ⟨3, 7, 31⟩ := by
  obtain ⟨⟨hmotion, -⟩, ⟨hrank, -⟩, hsource, -⟩ := packed_codecs_inverse_iff ⟨255, 1⟩ ⟨255, 255⟩
    ⟨3, 7, 31⟩ 0 ⟨by decide, by decide⟩ ⟨by decide, by decide⟩ ⟨by decide, by decide, by decide⟩
  exact ⟨hmotion, hrank, hsource.mpr (by decide)⟩

/-- The range gate 32 comes back as 0, and the word with the highest bit of
the field alone is packed as 0. -/
theorem packed_codecs_gate_32 :
    CsrOutputSource.ofRaw (CsrOutputSource.raw ⟨0, 0, 32⟩) = ⟨0, 0, 0⟩ ∧
      (¬ ∀ r : CsrOutputSource, r.Fits → CsrOutputSource.ofRaw r.raw = r) ∧
      (CsrOutputSource.ofRaw 0x04000000).raw = 0 ∧
      ¬ ∀ w, (CsrOutputSource.ofRaw w).raw = w &&& CsrOutputSource.declared := by
  have hgate : CsrOutputSource.ofRaw (CsrOutputSource.raw ⟨0, 0, 32⟩) = ⟨0, 0, 0⟩ := by decide
  have hword : (CsrOutputSource.ofRaw 0x04000000).raw = 0 := by decide
  refine ⟨hgate, fun hall => ?_, hword, fun hall => ?_⟩
  · have hback := hall ⟨0, 0, 32⟩ ⟨by decide, by decide, by decide⟩
    rw [hgate] at hback
    exact absurd hback (by decide)
  · have hback := hall 0x04000000
    rw [hword] at hback
    exact absurd hback (by decide)

end RlsMini.Regs
