import RosCanopen.Lib.Rounding
import Mathlib.Data.Sign.Basic
import Mathlib.Algebra.Order.Ring.Rat
import Mathlib.Data.Rat.Floor
import Mathlib.Tactic.Positivity

/-!
# A proportional channel of the remote receiver

`normalize` makes a value between -1 and 1 of a raw byte, each side of the centre on its own
scale.  The quotient is rounded to a `float`; of the rounding only the order is used, and that it
keeps the numbers of the format.

## Main definitions

* `AxisSpec` — the channel, its centre and its dead band.
* `normalize` — the value of a raw byte.
* `normalize_mono` — the value goes with the byte.
-/

namespace RosCanopen.Cia401

open Lib

/-- One proportional channel. -/
structure AxisSpec where
  sub : BitVec 8 := 1
  center : BitVec 8 := 0x80
  deadband : BitVec 8 := 0
  invert : Bool := false
  deriving DecidableEq

/-- The finite numbers of `float`. -/
def float32 : Set ℚ :=
  { x | ∃ m e : ℤ, |m| < 2 ^ 24 ∧ -149 ≤ e ∧ e ≤ 104 ∧ x = m * 2 ^ e }

/-- The eighth binary place is one of `float`. -/
theorem mem_float32 {m : ℤ} (hm : |m| ≤ 256) : (m / 256 : ℚ) ∈ float32 := by
  refine ⟨m, -8, by omega, by omega, by omega, ?_⟩
  rw [zpow_neg, div_eq_mul_inv]
  norm_num

namespace AxisSpec
variable (axis : AxisSpec)

/-- How far a raw byte is from the centre. -/
def delta (raw : BitVec 8) : ℤ := raw.toNat - axis.center.toNat

/-- The byte is in the dead band. -/
def Rests (raw : BitVec 8) : Prop := |axis.delta raw| ≤ axis.deadband.toNat

instance (raw : BitVec 8) : Decidable (axis.Rests raw) := inferInstanceAs (Decidable (_ ≤ _))

/-- The scale of the side that the byte is on. -/
def span (raw : BitVec 8) : ℤ :=
  if axis.delta raw > 0 then 255 - axis.center.toNat else axis.center.toNat

end AxisSpec

/-- `normalize` -/
def normalize (f : Rounded float32) (raw : BitVec 8) (axis : AxisSpec) : ℚ :=
  if axis.Rests raw then 0
  else if axis.span raw ≤ 0 then 0
  else
    let normalized := clamp (-1) 1 (f.round (axis.delta raw / axis.span raw))
    if axis.invert then -normalized else normalized

/-! ## The value and the byte -/

namespace AxisSpec
variable {axis : AxisSpec} {f : Rounded float32} {raw raw' : BitVec 8}

/-- A byte outside of the dead band is on a side with a scale, and within it. -/
theorem span_of_pos (hpos : 0 < axis.delta raw) :
    axis.span raw = 255 - axis.center.toNat ∧ axis.delta raw ≤ axis.span raw := by
  have hraw := raw.isLt
  have hspan : axis.span raw = 255 - axis.center.toNat := if_pos hpos
  refine ⟨hspan, ?_⟩
  rw [hspan, delta]
  omega

theorem span_of_neg (hneg : axis.delta raw < 0) :
    axis.span raw = axis.center.toNat ∧ -axis.delta raw ≤ axis.span raw := by
  have hspan : axis.span raw = axis.center.toNat := if_neg (by omega)
  refine ⟨hspan, ?_⟩
  rw [hspan, delta]
  omega

/-- The value before it is inverted. -/
def scaled (axis : AxisSpec) (f : Rounded float32) (raw : BitVec 8) : ℚ :=
  if axis.Rests raw then 0 else clamp (-1) 1 (f.round (axis.delta raw / axis.span raw))

theorem delta_ne_zero (h : ¬axis.Rests raw) : axis.delta raw ≠ 0 := by
  intro hzero
  rw [Rests, hzero] at h
  simp at h

theorem scaled_of_pos (h : ¬axis.Rests raw) (hpos : 0 < axis.delta raw) :
    (1 / 256 : ℚ) ≤ axis.scaled f raw := by
  obtain ⟨hspan, hle⟩ := span_of_pos hpos
  have hcenter : axis.span raw ≤ 256 := by omega
  have hquotient : (1 / 256 : ℚ) ≤ axis.delta raw / axis.span raw := by
    have hspan0 : (0 : ℚ) < axis.span raw := by exact_mod_cast hpos.trans_le hle
    have hone : (1 : ℚ) ≤ axis.delta raw := by exact_mod_cast hpos
    have hspan1 : (axis.span raw : ℚ) ≤ 256 := by exact_mod_cast hcenter
    rw [div_le_div_iff₀ (by norm_num) hspan0]
    linarith
  have hformat : (1 / 256 : ℚ) ∈ float32 := by
    have hone := mem_float32 (m := 1) (by norm_num)
    rwa [Int.cast_one] at hone
  rw [scaled, if_neg h]
  exact le_clamp (by norm_num) (f.le_round hformat hquotient)

theorem scaled_of_neg (h : ¬axis.Rests raw) (hneg : axis.delta raw < 0) :
    axis.scaled f raw ≤ (-1 / 256 : ℚ) := by
  obtain ⟨hspan, hle⟩ := span_of_neg hneg
  have hcenter : axis.span raw ≤ 256 := by
    have hlt := axis.center.isLt
    omega
  have hquotient : (axis.delta raw / axis.span raw : ℚ) ≤ -1 / 256 := by
    have hspan0 : (0 : ℚ) < axis.span raw := by exact_mod_cast (neg_pos.mpr hneg).trans_le hle
    have hone : (axis.delta raw : ℚ) ≤ -1 := by exact_mod_cast Int.le_sub_one_of_lt hneg
    have hspan1 : (axis.span raw : ℚ) ≤ 256 := by exact_mod_cast hcenter
    rw [div_le_div_iff₀ hspan0 (by norm_num)]
    linarith
  have hformat : (-1 / 256 : ℚ) ∈ float32 := by
    have hone := mem_float32 (m := -1) (by norm_num)
    rwa [Int.cast_neg, Int.cast_one] at hone
  rw [scaled, if_neg h]
  exact clamp_le (by norm_num) (f.round_le hformat hquotient)

theorem scaled_of_rests (h : axis.Rests raw) : axis.scaled f raw = 0 := if_pos h

theorem abs_scaled_le : |axis.scaled f raw| ≤ 1 := by
  rw [scaled]
  split
  · norm_num
  · rw [abs_le]
    exact ⟨le_max_left _ _, max_le (by norm_num) (min_le_left _ _)⟩

/-- **The value goes with the byte.** -/
theorem scaled_mono (axis : AxisSpec) (f : Rounded float32) (hraw : raw.toNat ≤ raw'.toNat) :
    axis.scaled f raw ≤ axis.scaled f raw' := by
  have hdelta : axis.delta raw ≤ axis.delta raw' := by
    rw [delta, delta]
    omega
  by_cases hrest : axis.Rests raw
  · rw [scaled_of_rests hrest]
    by_cases hrest' : axis.Rests raw'
    · rw [scaled_of_rests hrest']
    · have hpos : 0 < axis.delta raw' := by
        rw [Rests, abs_le] at hrest hrest'
        omega
      exact le_trans (by norm_num) (scaled_of_pos hrest' hpos)
  · by_cases hrest' : axis.Rests raw'
    · rw [scaled_of_rests hrest']
      have hneg : axis.delta raw < 0 := by
        rw [Rests, abs_le] at hrest hrest'
        omega
      exact (scaled_of_neg hrest hneg).trans (by norm_num)
    · have hne := delta_ne_zero hrest
      have hne' := delta_ne_zero hrest'
      -- on one side the scale is the same
      have hside : axis.span raw = axis.span raw' → 0 < axis.span raw →
          axis.scaled f raw ≤ axis.scaled f raw' := by
        intro hspan hpos
        rw [scaled, scaled, if_neg hrest, if_neg hrest', hspan]
        rw [hspan] at hpos
        refine clamp_mono (-1) 1 (f.mono ?_)
        have hle : (axis.delta raw : ℚ) ≤ axis.delta raw' := by exact_mod_cast hdelta
        have hspan0 : (0 : ℚ) < axis.span raw' := by exact_mod_cast hpos
        gcongr
      by_cases hpos : 0 < axis.delta raw
      · have hpos' : 0 < axis.delta raw' := by omega
        obtain ⟨hspan, hle⟩ := span_of_pos hpos
        exact hside (hspan.trans (span_of_pos hpos').1.symm) (by omega)
      · have hneg : axis.delta raw < 0 := by omega
        by_cases hpos' : 0 < axis.delta raw'
        · have hle := scaled_of_neg (f := f) hrest hneg
          have hle' := scaled_of_pos (f := f) hrest' hpos'
          linarith
        · have hneg' : axis.delta raw' < 0 := by omega
          obtain ⟨hspan, hle⟩ := span_of_neg hneg
          exact hside (hspan.trans (span_of_neg hneg').1.symm) (by omega)

end AxisSpec

section Normalize
variable {axis : AxisSpec} {f : Rounded float32} {raw raw' : BitVec 8}

/-- The guard of the scale is never taken. -/
theorem normalize_eq (f : Rounded float32) (raw : BitVec 8) (axis : AxisSpec) :
    normalize f raw axis =
      if axis.invert then -axis.scaled f raw else axis.scaled f raw := by
  by_cases hrest : axis.Rests raw
  · rw [normalize, if_pos hrest, AxisSpec.scaled_of_rests hrest]
    simp
  · have hspan : ¬axis.span raw ≤ 0 := by
      have hne := AxisSpec.delta_ne_zero hrest
      by_cases hpos : 0 < axis.delta raw
      · have hle := (AxisSpec.span_of_pos hpos).2
        omega
      · have hle := (AxisSpec.span_of_neg (show axis.delta raw < 0 by omega)).2
        omega
    rw [normalize, if_neg hrest, if_neg hspan, AxisSpec.scaled, if_neg hrest]

theorem normalize_of_rests (h : axis.Rests raw) : normalize f raw axis = 0 := if_pos h

/-- A value is between -1 and 1. -/
theorem abs_normalize_le (f : Rounded float32) (raw : BitVec 8) (axis : AxisSpec) :
    |normalize f raw axis| ≤ 1 := by
  rw [normalize_eq]
  split
  · rw [abs_neg]
    exact AxisSpec.abs_scaled_le
  · exact AxisSpec.abs_scaled_le

/-- Outside of the dead band the value has the sign of the side. -/
theorem sign_normalize (h : ¬axis.Rests raw) :
    SignType.sign (normalize f raw axis) =
      if axis.invert then -SignType.sign (axis.delta raw) else SignType.sign (axis.delta raw) := by
  have hscaled : SignType.sign (axis.scaled f raw) = SignType.sign (axis.delta raw) := by
    have hne := AxisSpec.delta_ne_zero h
    by_cases hpos : 0 < axis.delta raw
    · have hle := AxisSpec.scaled_of_pos (f := f) h hpos
      rw [sign_pos hpos, sign_pos (by linarith)]
    · have hneg : axis.delta raw < 0 := by omega
      have hle := AxisSpec.scaled_of_neg (f := f) h hneg
      rw [sign_neg hneg, sign_neg (by linarith)]
  rw [normalize_eq]
  split
  · rw [Left.sign_neg, hscaled]
  · exact hscaled

/-- **The value goes with the byte**, or against it if it is inverted. -/
theorem normalize_mono (f : Rounded float32) (axis : AxisSpec) (hraw : raw.toNat ≤ raw'.toNat) :
    if axis.invert then normalize f raw' axis ≤ normalize f raw axis
    else normalize f raw axis ≤ normalize f raw' axis := by
  have hle := AxisSpec.scaled_mono axis f hraw
  rw [normalize_eq, normalize_eq]
  by_cases hinvert : axis.invert = true
  · simp only [hinvert, if_true]
    exact neg_le_neg hle
  · simp only [hinvert]
    exact hle

end Normalize

end RosCanopen.Cia401
