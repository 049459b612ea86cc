import RosCanopen.Bridge.Codec
import RosCanopen.Bridge.Waiting
import RosCanopen.Lib.Cast
import RosCanopen.Lib.Rounding
import Mathlib.Data.Rat.Floor
import Mathlib.Tactic.FieldSimp
import Mathlib.Tactic.Ring

/-!
# The inclinometer

`Inclinometer410` reads slopes and writes presets and offsets.  An offset in radians is divided by
the resolution and rounded, and the number is narrowed to an `int32_t`, and once more to an
`int16_t` where the register has 16 bits.  A `double` is a number of an ordered field here, and
`M_PI` any of its positive numbers.

## Main definitions

* `Cia410RegisterMap`, `Inclinometer410` — the objects of the device, and the wrapper.
* `radiansToRaw`, `readSlopeRad` — the conversions.
* `writePresetOrOffset`, `setLongOffsetRad`, `setLateralOffsetRad` — the writes.
* `OffsetKept` — an offset is written as it was asked for, or not at all.
* `InReach` — the offsets that come through the narrowing.
-/

namespace RosCanopen.Cia410

open Lib Bridge

structure Cia410RegisterMap where
  slopeLongIndex : BitVec 16 := 0x6010
  slopeLongBits : BitVec 8 := 32
  slopeLateralIndex : BitVec 16 := 0x6110
  slopeLateralBits : BitVec 8 := 32
  slopeLongPresetIndex : BitVec 16 := 0x6030
  slopeLateralPresetIndex : BitVec 16 := 0x6130
  slopeLongOffsetIndex : BitVec 16 := 0x6040
  slopeLateralOffsetIndex : BitVec 16 := 0x6140
  presetBits : BitVec 8 := 32
  offsetBits : BitVec 8 := 32

structure Inclinometer410 (K : Type) where
  /-- A null pointer is `none`. -/
  driver : Option DriverNode
  registers : Cia410RegisterMap
  degPerLsb : K

namespace Inclinometer410

/-- `write_preset_or_offset`, which takes every exception for a failure. -/
def writePresetOrOffset {K : Type} (ic : Inclinometer410 K) (index : BitVec 16) (raw : BitVec 32)
    (bits : BitVec 8) (answer : Option (Except ErrorCode Value)) (s : DictionaryState) :
    Bool × DictionaryState × List TransferEvent :=
  match ic.driver with
  | none => (false, s, [])
  | some b =>
      if index = 0 then (false, s, [])
      else
        let (result, rest) :=
          if bits = 16 then
            b.getSdoWriteTyped (index, 0) .integer16 ((raw.setWidth 16).setWidth 64) answer s
          else b.getSdoWriteTyped (index, 0) .integer32 (raw.setWidth 64) answer s
        (result.getD false, rest)

section Presets
variable {K : Type} (ic : Inclinometer410 K) (answer : Option (Except ErrorCode Value))
  (s : DictionaryState)

/-- `zero_long` -/
def zeroLong : Bool × DictionaryState × List TransferEvent :=
  ic.writePresetOrOffset ic.registers.slopeLongPresetIndex 0 ic.registers.presetBits answer s

/-- `zero_lateral` -/
def zeroLateral : Bool × DictionaryState × List TransferEvent :=
  ic.writePresetOrOffset ic.registers.slopeLateralPresetIndex 0 ic.registers.presetBits answer s

end Presets

section Conversions
variable {K : Type} [Field K] [LinearOrder K] [FloorRing K] (pi : K) (ic : Inclinometer410 K)

/-- `DEG_TO_RAD` -/
def degToRad : K := pi / 180

/-- `RAD_TO_DEG` -/
def radToDeg : K := 180 / pi

/-- The slope that a raw value stands for, in radians. -/
def slopeRad (raw : ℤ) : K := raw * ic.degPerLsb * degToRad pi

/-- `read_slope_rad` -/
def readSlopeRad (index : BitVec 16) (bits : BitVec 8) (reply : Reply) (s : DictionaryState) :
    CallResult K :=
  match ic.driver with
  | none => (some 0, s, [])
  | some b =>
      if index = 0 then (some 0, s, [])
      else if b.hasObject (index, 0) then
        if bits = 16 then
          let (raw, rest) := b.callGetValue (index, 0) .integer16 reply s
          (raw.map fun value => ic.slopeRad pi (value.setWidth 16).toInt, rest)
        else
          let (raw, rest) := b.callGetValue (index, 0) .integer32 reply s
          (raw.map fun value => ic.slopeRad pi (value.setWidth 32).toInt, rest)
      else (some 0, s, [])

/-- `radians_to_raw`; the `long` of `std::lround` is narrowed modulo its width. -/
def radiansToRaw (radians : K) : BitVec 32 :=
  if ic.degPerLsb = 0 then 0
  else BitVec.ofInt 32 (lround (radians * radToDeg pi / ic.degPerLsb))

/-- `set_long_offset_rad` -/
def setLongOffsetRad (radians : K) (answer : Option (Except ErrorCode Value))
    (s : DictionaryState) : Bool × DictionaryState × List TransferEvent :=
  ic.writePresetOrOffset ic.registers.slopeLongOffsetIndex (ic.radiansToRaw pi radians)
    ic.registers.offsetBits answer s

/-- `set_lateral_offset_rad` -/
def setLateralOffsetRad (radians : K) (answer : Option (Except ErrorCode Value))
    (s : DictionaryState) : Bool × DictionaryState × List TransferEvent :=
  ic.writePresetOrOffset ic.registers.slopeLateralOffsetIndex (ic.radiansToRaw pi radians)
    ic.registers.offsetBits answer s

end Conversions

/-- A write reaches the bus: there are a driver, an index and the object, and the submission does
not throw. -/
def submits {K : Type} (ic : Inclinometer410 K) (index : BitVec 16)
    (answer : Option (Except ErrorCode Value)) : Bool :=
  ic.driver.any fun b => index ≠ 0 && b.hasObject (index, 0) && answer.isSome

end Inclinometer410

/-- The width of a register, of 16 bits or of 32. -/
def registerWidth (bits : BitVec 8) : ℕ := if bits = 16 then 16 else 32

/-! ## What is asked of an offset -/

section Offsets
variable {K : Type} [Field K] [LinearOrder K]

/-- The raw value is one of the register; it stands for the offset in degrees up to half of the
resolution, and reads back so, or it is the end of the register that is nearest; and it has not
the opposite sign. -/
structure Represents (pi degPerLsb radians : K) (w : ℕ) (raw : ℤ) : Prop where
  fits : (IntType.mk true w).Fits raw
  near : (|raw * degPerLsb - radians * Inclinometer410.radToDeg pi| ≤ |degPerLsb| / 2 ∧
      |raw * degPerLsb * Inclinometer410.degToRad pi - radians| ≤
        |degPerLsb| * Inclinometer410.degToRad pi / 2) ∨
    (raw = (IntType.mk true w).min ∨ raw = (IntType.mk true w).max) ∧
      ∀ other : ℤ, (IntType.mk true w).Fits other →
        |raw * degPerLsb - radians * Inclinometer410.radToDeg pi| ≤
          |other * degPerLsb - radians * Inclinometer410.radToDeg pi|
  sign : 0 ≤ raw * degPerLsb * radians

/-- What is written represents the offset, and without a write the call returns `false`. -/
structure OffsetKept (pi : K) (ic : Inclinometer410 K) (radians : K)
    (run : Bool × DictionaryState × List TransferEvent) : Prop where
  written : ∀ object value, .submitted object (some value) ∈ run.2.2 →
    Represents pi ic.degPerLsb radians (registerWidth ic.registers.offsetBits)
      (value.setWidth (registerWidth ic.registers.offsetBits)).toInt
  refused : (∀ object value, .submitted object (some value) ∉ run.2.2) → run.1 = false

/-- The offset, in units of the resolution, comes through the narrowing: its rounding is a value
of the register, or is beyond one of its ends by whole turns. -/
def InReach [FloorRing K] (w : ℕ) (units : K) : Prop :=
  RoundsInto (IntType.mk true w).min (IntType.mk true w).max units ∨
    ∃ k : ℕ, lround units = (IntType.mk true w).max + 2 ^ w * k ∨
      lround units = (IntType.mk true w).min - 2 ^ w * k

end Offsets

/-! ## What is written -/

section Writes
variable {K : Type} {ic : Inclinometer410 K} {index : BitVec 16} {raw : BitVec 32}
  {bits : BitVec 8} {answer : Option (Except ErrorCode Value)} {s : DictionaryState}

/-- The value of a write, as the object's type has it. -/
def sentValue (raw : BitVec 32) (bits : BitVec 8) : Value :=
  if bits = 16 then (raw.setWidth 16).setWidth 64 else raw.setWidth 64

theorem registerWidth_pos (bits : BitVec 8) : 0 < registerWidth bits := by
  unfold registerWidth
  split
  · decide
  · decide

/-- What is written is the word of the number, as wide as the register. -/
theorem setWidth_sentValue (n : ℤ) (bits : BitVec 8) :
    (sentValue (BitVec.ofInt 32 n) bits).setWidth (registerWidth bits) =
      BitVec.ofInt (registerWidth bits) n := by
  by_cases hbits : bits = 16
  · have hwidth : registerWidth bits = 16 := if_pos hbits
    rw [hwidth, sentValue, if_pos hbits, BitVec.setWidth_setWidth_of_le _ (by decide),
      BitVec.setWidth_eq, IntType.setWidth_ofInt (by decide)]
  · have hwidth : registerWidth bits = 32 := if_neg hbits
    rw [hwidth, sentValue, if_neg hbits, BitVec.setWidth_setWidth_of_le _ (by decide),
      BitVec.setWidth_eq]

variable (raw bits answer s) in
theorem writePresetOrOffset_of_driver {b : DriverNode} (hdriver : ic.driver = some b)
    (hindex : index ≠ 0) : ∃ type, ic.writePresetOrOffset index raw bits answer s =
      ((b.getSdoWriteTyped (index, 0) type (sentValue raw bits) answer s).1.getD false,
        (b.getSdoWriteTyped (index, 0) type (sentValue raw bits) answer s).2) := by
  rw [Inclinometer410.writePresetOrOffset, hdriver]
  simp only [if_neg hindex]
  by_cases hbits : bits = 16
  · exact ⟨.integer16, by simp only [sentValue, if_pos hbits]⟩
  · exact ⟨.integer32, by simp only [sentValue, if_neg hbits]⟩

variable (raw bits answer s) in
/-- Without a driver or an index nothing happens. -/
theorem writePresetOrOffset_of_off (h : ic.driver = none ∨ index = 0) :
    ic.writePresetOrOffset index raw bits answer s = (false, s, []) ∧
      ic.submits index answer = false := by
  unfold Inclinometer410.writePresetOrOffset Inclinometer410.submits
  rcases h with hdriver | hindex
  · simp [hdriver]
  · cases ic.driver with
    | none => simp
    | some b => simp [hindex]

theorem submits_of_driver {b : DriverNode} (hdriver : ic.driver = some b) (hindex : index ≠ 0) :
    ic.submits index answer = (b.hasObject (index, 0) && answer.isSome) := by
  simp only [Inclinometer410.submits, hdriver, Option.any_some, decide_eq_true hindex,
    Bool.true_and]

/-- **A write** is one request for the object, if it reaches the bus. -/
theorem submitted_writePresetOrOffset (object : ObjectId) (value : Value) :
    .submitted object (some value) ∈ (ic.writePresetOrOffset index raw bits answer s).2.2 ↔
      ic.submits index answer = true ∧ object = (index, 0) ∧ value = sentValue raw bits := by
  by_cases hoff : ic.driver = none ∨ index = 0
  · obtain ⟨hrun, hsubmits⟩ := writePresetOrOffset_of_off raw bits answer s hoff
    simp [hrun, hsubmits]
  · obtain ⟨hdriver, hindex⟩ := not_or.mp hoff
    obtain ⟨b, hdriver⟩ := Option.ne_none_iff_exists'.mp hdriver
    obtain ⟨type, hrun⟩ := writePresetOrOffset_of_driver raw bits answer s hdriver hindex
    rw [hrun, submits_of_driver hdriver hindex, Bool.and_eq_true]
    exact b.submitted_getSdoWriteTyped type _ answer s object value

theorem result_of_not_submits (hsubmits : ic.submits index answer = false) :
    (ic.writePresetOrOffset index raw bits answer s).1 = false := by
  by_cases hoff : ic.driver = none ∨ index = 0
  · rw [(writePresetOrOffset_of_off raw bits answer s hoff).1]
  · obtain ⟨hdriver, hindex⟩ := not_or.mp hoff
    obtain ⟨b, hdriver⟩ := Option.ne_none_iff_exists'.mp hdriver
    obtain ⟨type, hrun⟩ := writePresetOrOffset_of_driver raw bits answer s hdriver hindex
    rw [submits_of_driver hdriver hindex] at hsubmits
    rw [hrun]
    exact DriverNode.result_getSdoWriteTyped hsubmits

end Writes

/-! ## What comes through the narrowing -/

section Numbers
variable {K : Type} [Field K] [LinearOrder K] [IsStrictOrderedRing K]
variable {pi d radians : K} {w : ℕ}

open Inclinometer410

/-- The offset, in units of the resolution. -/
def unitsOf (pi d radians : K) : K := radians * radToDeg pi / d

theorem signed_min_nonpos (w : ℕ) : (IntType.mk true w).min ≤ 0 := by
  have hpow : (0 : ℤ) < 2 ^ (w - 1) := by positivity
  have hmin : (IntType.mk true w).min = -2 ^ (w - 1) := rfl
  omega

theorem signed_max_nonneg (w : ℕ) : 0 ≤ (IntType.mk true w).max := by
  have hpow : (0 : ℤ) < 2 ^ (w - 1) := by positivity
  have hmax : (IntType.mk true w).max = 2 ^ (w - 1) - 1 := rfl
  omega

/-- A distance in degrees is one in units. -/
theorem abs_degrees (hd : d ≠ 0) (raw : K) :
    |raw * d - radians * radToDeg pi| = |raw - unitsOf pi d radians| * |d| := by
  rw [← abs_mul, sub_mul, unitsOf, div_mul_cancel₀ _ hd]

/-- And one in radians is one in degrees. -/
theorem abs_radians (hpi : 0 < pi) (raw : K) :
    |raw * degToRad pi - radians| = |raw - radians * radToDeg pi| * degToRad pi := by
  have hscale : 0 < degToRad pi := div_pos hpi (by norm_num)
  have hinverse : radToDeg pi * degToRad pi = 1 := by
    unfold radToDeg degToRad
    field_simp
  rw [← abs_of_pos hscale, ← abs_mul, abs_of_pos hscale, sub_mul, mul_assoc radians, hinverse,
    mul_one]

/-- A raw value of the sign of the units has the sign of the offset. -/
theorem sign_of_units (hpi : 0 < pi) (hd : d ≠ 0) {raw : K}
    (hraw : 0 ≤ raw * unitsOf pi d radians) : 0 ≤ raw * d * radians := by
  have hradians : radians = unitsOf pi d radians * d * degToRad pi := by
    unfold unitsOf radToDeg degToRad
    field_simp
  have hscale : 0 < degToRad pi := div_pos hpi (by norm_num)
  calc (0 : K) ≤ raw * unitsOf pi d radians * (d * d) * degToRad pi :=
        mul_nonneg (mul_nonneg hraw (mul_self_nonneg d)) hscale.le
    _ = raw * d * (unitsOf pi d radians * d * degToRad pi) := by ring
    _ = raw * d * radians := by rw [← hradians]

variable [FloorRing K]

/-- A rounding fits if the number is within half a unit of the range. -/
theorem fits_lround_iff (x : K) : (IntType.mk true w).Fits (lround x) ↔
    RoundsInto (IntType.mk true w).min (IntType.mk true w).max x := by
  rw [IntType.Fits, roundsInto_iff (signed_min_nonpos w) (signed_max_nonneg w)]

/-- A rounding that fits represents the offset. -/
theorem represents_lround (hpi : 0 < pi) (hd : d ≠ 0)
    (hfits : (IntType.mk true w).Fits (lround (unitsOf pi d radians))) :
    Represents pi d radians w (lround (unitsOf pi d radians)) := by
  have hclose : |(lround (unitsOf pi d radians) : K) * d - radians * radToDeg pi| ≤ |d| / 2 := by
    rw [abs_degrees hd]
    have hhalf := mul_le_mul_of_nonneg_right (abs_lround_sub_le (unitsOf pi d radians))
      (abs_nonneg d)
    linarith
  have hscale : 0 < degToRad pi := div_pos hpi (by norm_num)
  refine ⟨hfits, .inl ⟨hclose, ?_⟩, sign_of_units hpi hd (lround_mul_self_nonneg _)⟩
  rw [abs_radians hpi]
  have hscaled := mul_le_mul_of_nonneg_right hclose hscale.le
  linarith

/-- The upper end represents every offset beyond it. -/
theorem represents_max (hpi : 0 < pi) (hd : d ≠ 0)
    (hbeyond : ((IntType.mk true w).max : K) ≤ unitsOf pi d radians) :
    Represents pi d radians w (IntType.mk true w).max := by
  have hmax : (0 : K) ≤ (IntType.mk true w).max := by exact_mod_cast signed_max_nonneg w
  refine ⟨⟨IntType.min_le_max _, le_rfl⟩, .inr ⟨.inr rfl, fun other hother => ?_⟩,
    sign_of_units hpi hd (mul_nonneg hmax (hmax.trans hbeyond))⟩
  rw [abs_degrees hd, abs_degrees hd]
  have hcast : (other : K) ≤ (IntType.mk true w).max := by exact_mod_cast hother.2
  refine mul_le_mul_of_nonneg_right ?_ (abs_nonneg d)
  rw [abs_of_nonpos (by linarith), abs_of_nonpos (by linarith)]
  linarith

/-- And so does the lower end. -/
theorem represents_min (hpi : 0 < pi) (hd : d ≠ 0)
    (hbeyond : unitsOf pi d radians ≤ (IntType.mk true w).min) :
    Represents pi d radians w (IntType.mk true w).min := by
  have hmin : ((IntType.mk true w).min : K) ≤ 0 := by exact_mod_cast signed_min_nonpos w
  refine ⟨⟨le_rfl, IntType.min_le_max _⟩, .inr ⟨.inl rfl, fun other hother => ?_⟩,
    sign_of_units hpi hd (mul_nonneg_of_nonpos_of_nonpos hmin (hbeyond.trans hmin))⟩
  rw [abs_degrees hd, abs_degrees hd]
  have hcast : ((IntType.mk true w).min : K) ≤ other := by exact_mod_cast hother.1
  refine mul_le_mul_of_nonneg_right ?_ (abs_nonneg d)
  rw [abs_of_nonneg (by linarith), abs_of_nonneg (by linarith)]
  linarith

/-- Beyond the range, only the end that is nearest represents an offset: a word is a turn away
from its number. -/
theorem eq_end_of_represents (hd : d ≠ 0) (hw : 0 < w)
    (hfits : ¬ (IntType.mk true w).Fits (lround (unitsOf pi d radians)))
    (hrep : Represents pi d radians w (BitVec.ofInt w (lround (unitsOf pi d radians))).toInt) :
    (BitVec.ofInt w (lround (unitsOf pi d radians))).toInt = (IntType.mk true w).max ∧
        (IntType.mk true w).max < lround (unitsOf pi d radians) ∨
      (BitVec.ofInt w (lround (unitsOf pi d radians))).toInt = (IntType.mk true w).min ∧
        lround (unitsOf pi d radians) < (IntType.mk true w).min := by
  have hround := abs_le.mp (abs_lround_sub_le (unitsOf pi d radians))
  have hturn := IntType.le_abs_of_not_fits hw hfits
  have hnear := hrep.near
  simp only [abs_degrees hd] at hnear
  have hpos : 0 < |d| := abs_pos.mpr hd
  have hends := IntType.min_le_max ⟨true, w⟩
  generalize (BitVec.ofInt w (lround (unitsOf pi d radians))).toInt = raw at *
  generalize hn : lround (unitsOf pi d radians) = n at *
  rcases hnear with ⟨hclose, -⟩ | ⟨-, hnearest⟩
  · have hclose : |(raw : K) - unitsOf pi d radians| ≤ 1 / 2 := by
      refine le_of_mul_le_mul_right ?_ hpos
      linarith
    have hclose := abs_le.mp hclose
    have htwo : (2 : ℤ) ^ 1 ≤ 2 ^ w := pow_le_pow_right₀ (by norm_num) hw
    have hdist : |((raw - n : ℤ) : K)| ≤ 1 := by
      push_cast
      exact abs_le.mpr ⟨by linarith, by linarith⟩
    have hdist : |raw - n| ≤ 1 := by exact_mod_cast hdist
    omega
  · by_cases hhigh : (IntType.mk true w).max < n
    · have hcast : ((IntType.mk true w).max : K) + 1 ≤ n := by exact_mod_cast hhigh
      have hraw : (raw : K) ≤ (IntType.mk true w).max := by exact_mod_cast hrep.fits.2
      have hle := le_of_mul_le_mul_right (hnearest _ ⟨hends, le_rfl⟩) hpos
      rw [abs_of_nonpos (by linarith), abs_of_nonpos (by linarith)] at hle
      have heq : (raw : K) = (IntType.mk true w).max := by linarith
      exact .inl ⟨by exact_mod_cast heq, hhigh⟩
    · have hlow : n < (IntType.mk true w).min := by
        by_contra hle
        exact hfits ⟨not_lt.mp hle, not_lt.mp hhigh⟩
      have hcast : (n : K) + 1 ≤ (IntType.mk true w).min := by exact_mod_cast hlow
      have hraw : ((IntType.mk true w).min : K) ≤ raw := by exact_mod_cast hrep.fits.1
      have hle := le_of_mul_le_mul_right (hnearest _ ⟨le_rfl, hends⟩) hpos
      rw [abs_of_nonneg (by linarith), abs_of_nonneg (by linarith)] at hle
      have heq : (raw : K) = (IntType.mk true w).min := by linarith
      exact .inr ⟨by exact_mod_cast heq, hlow⟩

/-- **What is written represents the offset iff the offset is in reach.** -/
theorem represents_iff (hpi : 0 < pi) (hd : d ≠ 0) (hw : 0 < w) :
    Represents pi d radians w (BitVec.ofInt w (lround (unitsOf pi d radians))).toInt ↔
      InReach w (unitsOf pi d radians) := by
  have hround := abs_le.mp (abs_lround_sub_le (unitsOf pi d radians))
  have hword : ∀ n : ℤ, (IntType.mk true w).Fits n → (BitVec.ofInt w n).toInt = n :=
    fun n => IntType.value_ofInt (t := ⟨true, w⟩) hw
  have hends := IntType.min_le_max ⟨true, w⟩
  by_cases hfits : (IntType.mk true w).Fits (lround (unitsOf pi d radians))
  · rw [hword _ hfits]
    exact iff_of_true (represents_lround hpi hd hfits) (.inl ((fits_lround_iff _).mp hfits))
  · rw [InReach, ← fits_lround_iff, or_iff_right hfits]
    constructor
    · intro hrep
      obtain ⟨k, hk⟩ := IntType.exists_turns w (lround (unitsOf pi d radians))
      have hpow : (0 : ℤ) < 2 ^ w := by positivity
      rcases eq_end_of_represents hd hw hfits hrep with ⟨hmax, hhigh⟩ | ⟨hmin, hlow⟩
      · rw [hmax] at hk
        have hk0 : 0 ≤ k := by
          by_contra hneg
          have hle := Int.mul_nonpos_of_nonneg_of_nonpos hpow.le (Int.le_of_lt (not_le.mp hneg))
          omega
        exact ⟨k.toNat, .inl (by rw [Int.toNat_of_nonneg hk0]; exact hk)⟩
      · rw [hmin] at hk
        have hk0 : 0 ≤ -k := by
          by_contra hneg
          have hle := Int.mul_nonneg hpow.le (by omega : 0 ≤ k)
          omega
        refine ⟨(-k).toNat, .inr ?_⟩
        rw [Int.toNat_of_nonneg hk0, mul_neg, sub_neg_eq_add]
        exact hk
    · rintro ⟨k, hmax | hmin⟩
      · have hturns : (0 : ℤ) ≤ 2 ^ w * k := by positivity
        have hhigh : (IntType.mk true w).max < lround (unitsOf pi d radians) := by
          by_contra hle
          exact hfits ⟨by omega, not_lt.mp hle⟩
        have hcast : ((IntType.mk true w).max : K) + 1 ≤ lround (unitsOf pi d radians) := by
          exact_mod_cast hhigh
        rw [hmax, IntType.ofInt_add_turns, hword _ ⟨hends, le_rfl⟩]
        exact represents_max hpi hd (by linarith)
      · have hturns : (0 : ℤ) ≤ 2 ^ w * k := by positivity
        have hlow : lround (unitsOf pi d radians) < (IntType.mk true w).min := by
          by_contra hle
          exact hfits ⟨not_lt.mp hle, by omega⟩
        have hcast : (lround (unitsOf pi d radians) : K) + 1 ≤ (IntType.mk true w).min := by
          exact_mod_cast hlow
        rw [hmin, sub_eq_add_neg, ← mul_neg, IntType.ofInt_add_turns, hword _ ⟨le_rfl, hends⟩]
        exact represents_min hpi hd (by linarith)

/-- **An offset is kept iff it is in reach, or its write does not reach the bus.** -/
theorem offsetKept_iff (hpi : 0 < pi) (ic : Inclinometer410 K) (hd : ic.degPerLsb ≠ 0)
    (radians : K) (index : BitVec 16) (answer : Option (Except ErrorCode Value))
    (s : DictionaryState) :
    OffsetKept pi ic radians (ic.writePresetOrOffset index (ic.radiansToRaw pi radians)
        ic.registers.offsetBits answer s) ↔
      (ic.submits index answer = true →
        InReach (registerWidth ic.registers.offsetBits) (unitsOf pi ic.degPerLsb radians)) := by
  have hraw : ic.radiansToRaw pi radians =
      BitVec.ofInt 32 (lround (unitsOf pi ic.degPerLsb radians)) := if_neg hd
  rw [← represents_iff hpi hd (registerWidth_pos _), ← setWidth_sentValue, ← hraw]
  constructor
  · intro hkept hsubmits
    exact hkept.written _ _ ((submitted_writePresetOrOffset _ _).mpr ⟨hsubmits, rfl, rfl⟩)
  · intro hrep
    refine ⟨fun object value hmem => ?_, fun hnone => ?_⟩
    · obtain ⟨hsubmits, -, rfl⟩ := (submitted_writePresetOrOffset object value).mp hmem
      exact hrep hsubmits
    · refine result_of_not_submits (Bool.eq_false_iff.mpr fun hsubmits => ?_)
      exact hnone _ _ ((submitted_writePresetOrOffset _ _).mpr ⟨hsubmits, rfl, rfl⟩)

/-- **Both offsets are exact or refused, as far as they are in reach of the register.** -/
theorem offsets_exact_iff (hpi : 0 < pi) (ic : Inclinometer410 K) (hd : ic.degPerLsb ≠ 0)
    (radians : K) (answer : Option (Except ErrorCode Value)) (s : DictionaryState) :
    (OffsetKept pi ic radians (ic.setLongOffsetRad pi radians answer s) ↔
      (ic.submits ic.registers.slopeLongOffsetIndex answer = true →
        InReach (registerWidth ic.registers.offsetBits) (unitsOf pi ic.degPerLsb radians))) ∧
    (OffsetKept pi ic radians (ic.setLateralOffsetRad pi radians answer s) ↔
      (ic.submits ic.registers.slopeLateralOffsetIndex answer = true →
        InReach (registerWidth ic.registers.offsetBits) (unitsOf pi ic.degPerLsb radians))) :=
  ⟨offsetKept_iff hpi ic hd radians _ answer s, offsetKept_iff hpi ic hd radians _ answer s⟩

end Numbers

/-- The `double` that `M_PI` is. -/
def mPi : ℚ := 884279719003555 / 281474976710656

/-- A device with registers of 16 bits for the offsets, and a thousandth of a degree a unit. -/
def fineInclinometer : Inclinometer410 ℚ where
  driver := some (uniform .integer16)
  registers := { offsetBits := 16 }
  degPerLsb := 1 / 1000

theorem fineInclinometer_units (n : ℚ) :
    unitsOf mPi fineInclinometer.degPerLsb (n * (mPi / 180)) = n * 1000 := by
  unfold unitsOf Inclinometer410.radToDeg fineInclinometer mPi
  field_simp

/-- A degree is in reach. -/
theorem offsets_exact_one_degree :
    OffsetKept mPi fineInclinometer (1 * (mPi / 180))
      (fineInclinometer.setLongOffsetRad mPi (1 * (mPi / 180)) (some (.ok 0)) unwritten) ∧
    OffsetKept mPi fineInclinometer (1 * (mPi / 180))
      (fineInclinometer.setLateralOffsetRad mPi (1 * (mPi / 180)) (some (.ok 0)) unwritten) := by
  have hpi : 0 < mPi := by norm_num [mPi]
  have hd : fineInclinometer.degPerLsb ≠ 0 := by norm_num [fineInclinometer]
  have hreach : InReach 16 (unitsOf mPi fineInclinometer.degPerLsb (1 * (mPi / 180))) := by
    rw [fineInclinometer_units]
    exact .inl (by norm_num [RoundsInto, IntType.min, IntType.max])
  have hboth := offsets_exact_iff hpi fineInclinometer hd (1 * (mPi / 180)) (some (.ok 0)) unwritten
  exact ⟨hboth.1.mpr fun _ => hreach, hboth.2.mpr fun _ => hreach⟩

/-- Of 45 degrees, less than the half turn of the slopes, the word of 16 bits makes -20.536. -/
theorem offset_wraps :
    ¬ OffsetKept mPi fineInclinometer (45 * (mPi / 180))
      (fineInclinometer.setLongOffsetRad mPi (45 * (mPi / 180)) (some (.ok 0)) unwritten) := by
  have hpi : 0 < mPi := by norm_num [mPi]
  have hd : fineInclinometer.degPerLsb ≠ 0 := by norm_num [fineInclinometer]
  intro hkept
  have hreach := (offsetKept_iff hpi fineInclinometer hd _ _ _ _).mp hkept (by decide)
  rw [fineInclinometer_units] at hreach
  have hunits : (45 * 1000 : ℚ) = (45000 : ℤ) := by norm_num
  rw [hunits] at hreach
  rcases hreach with hrange | ⟨k, hhigh | hlow⟩
  · norm_num [RoundsInto, IntType.max, registerWidth, fineInclinometer] at hrange
  · rw [lround_intCast] at hhigh
    norm_num [IntType.max, registerWidth, fineInclinometer] at hhigh
    omega
  · rw [lround_intCast] at hlow
    norm_num [IntType.min, registerWidth, fineInclinometer] at hlow
    omega

end RosCanopen.Cia410
