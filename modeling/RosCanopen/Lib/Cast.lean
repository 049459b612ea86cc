import Mathlib.Algebra.Order.Floor.Ring
import Mathlib.Algebra.Order.Field.Basic
import Mathlib.Data.BitVec
import Mathlib.Data.Int.ConditionallyCompleteOrder
import Mathlib.Tactic.Linarith
import Mathlib.Tactic.NormNum

/-!
# Integers of a fixed width, and numbers

A fixed-width integer type gives each of its words a value.  A number is converted to
the type by dropping its fraction, which is defined only where the result is a value of
the type.  A word survives the way through the numbers and back; between a signed and an
unsigned type of one width it does just when its top bit is clear.

## Main definitions

* `IntType` — signed or unsigned, of a width; `IntType.value`, `IntType.Fits`.
* `truncate`, `IntType.cast` — the conversion from a number.
* `patch` — a word with its low part replaced.
-/

namespace RosCanopen.Lib

/-- A fixed-width integer type. -/
structure IntType where
  signed : Bool
  width : ℕ
  deriving DecidableEq

/-- Drop the fraction. -/
def truncate {K : Type*} [Field K] [LinearOrder K] [FloorRing K] (x : K) : ℤ :=
  if 0 ≤ x then ⌊x⌋ else ⌈x⌉

@[simp] theorem truncate_intCast {K : Type*} [Field K] [LinearOrder K] [IsStrictOrderedRing K]
    [FloorRing K] (n : ℤ) : truncate (n : K) = n := by
  rw [truncate, Int.floor_intCast, Int.ceil_intCast, ite_self]

theorem truncate_mono {K : Type*} [Field K] [LinearOrder K] [IsStrictOrderedRing K]
    [FloorRing K] : Monotone (truncate : K → ℤ) := by
  intro x y hxy
  by_cases hx : 0 ≤ x
  · rw [truncate, truncate, if_pos hx, if_pos (hx.trans hxy)]
    exact Int.floor_mono hxy
  · by_cases hy : 0 ≤ y
    · have hnonpos : ⌈x⌉ ≤ 0 := Int.ceil_le.mpr (by simpa using (not_le.mp hx).le)
      rw [truncate, truncate, if_neg hx, if_pos hy]
      exact hnonpos.trans (Int.floor_nonneg.mpr hy)
    · rw [truncate, truncate, if_neg hx, if_neg hy]
      exact Int.ceil_mono hxy

namespace IntType

def min (t : IntType) : ℤ := if t.signed then -2 ^ (t.width - 1) else 0

def max (t : IntType) : ℤ := if t.signed then 2 ^ (t.width - 1) - 1 else 2 ^ t.width - 1

/-- The number is a value of the type. -/
def Fits (t : IntType) (n : ℤ) : Prop := t.min ≤ n ∧ n ≤ t.max

instance (t : IntType) (n : ℤ) : Decidable (t.Fits n) := inferInstanceAs (Decidable (_ ∧ _))

/-- The values of the type. -/
abbrev Number (t : IntType) : Type := { n : ℤ // t.Fits n }

theorem min_le_max (t : IntType) : t.min ≤ t.max := by
  have hhalf : (0 : ℤ) < 2 ^ (t.width - 1) := by positivity
  have hfull : (0 : ℤ) < 2 ^ t.width := by positivity
  unfold min max
  split
  · omega
  · omega

/-- `std::numeric_limits::min` -/
def lowest (t : IntType) : t.Number := ⟨t.min, le_rfl, t.min_le_max⟩

/-- `std::numeric_limits::max` -/
def highest (t : IntType) : t.Number := ⟨t.max, t.min_le_max, le_rfl⟩

/-- The value of a word. -/
def value (t : IntType) (x : BitVec t.width) : ℤ := if t.signed then x.toInt else x.toNat

/-- The conversion of a number: toward zero, and undefined out of the range. -/
def cast {K : Type*} [Field K] [LinearOrder K] [FloorRing K] (t : IntType) (x : K) :
    Option (BitVec t.width) :=
  if t.Fits (truncate x) then some (BitVec.ofInt t.width (truncate x)) else none

section Words
variable {w : ℕ} {K : Type*} [Field K] [LinearOrder K] [IsStrictOrderedRing K] [FloorRing K]

theorem fits_unsigned {n : ℤ} : (IntType.mk false w).Fits n ↔ 0 ≤ n ∧ n < 2 ^ w := by
  have hmin : (IntType.mk false w).min = 0 := rfl
  have hmax : (IntType.mk false w).max = 2 ^ w - 1 := rfl
  rw [Fits, hmin, hmax, Int.le_sub_one_iff]

theorem fits_signed {n : ℤ} :
    (IntType.mk true w).Fits n ↔ -2 ^ (w - 1) ≤ n ∧ n < 2 ^ (w - 1) := by
  have hmin : (IntType.mk true w).min = -2 ^ (w - 1) := rfl
  have hmax : (IntType.mk true w).max = 2 ^ (w - 1) - 1 := rfl
  rw [Fits, hmin, hmax, Int.le_sub_one_iff]

theorem value_unsigned (x : BitVec w) : (IntType.mk false w).value x = x.toNat := rfl

theorem value_signed (x : BitVec w) : (IntType.mk true w).value x = x.toInt := rfl

theorem fits_value {t : IntType} (hw : 0 < t.width) (x : BitVec t.width) : t.Fits (t.value x) := by
  obtain ⟨signed, w⟩ := t
  cases signed with
  | false =>
      rw [fits_unsigned, value_unsigned]
      exact ⟨Int.natCast_nonneg _, by exact_mod_cast x.isLt⟩
  | true =>
      rw [fits_signed, value_signed]
      exact ⟨BitVec.le_toInt x, BitVec.toInt_lt⟩

theorem ofInt_value {t : IntType} (x : BitVec t.width) : BitVec.ofInt t.width (t.value x) = x := by
  obtain ⟨signed, w⟩ := t
  cases signed with
  | false =>
      rw [value_unsigned, BitVec.ofInt_natCast, BitVec.ofNat_toNat, BitVec.setWidth_eq]
  | true => exact BitVec.ofInt_toInt

/-- A word survives the way through the numbers. -/
theorem cast_value {t : IntType} (hw : 0 < t.width) (x : BitVec t.width) :
    t.cast (t.value x : K) = some x := by
  rw [cast, truncate_intCast, if_pos (fits_value hw x), ofInt_value]

/-- A value of the type survives the way through a word. -/
theorem value_ofInt {t : IntType} (hw : 0 < t.width) {n : ℤ} (hn : t.Fits n) :
    t.value (BitVec.ofInt t.width n) = n := by
  obtain ⟨signed, w⟩ := t
  cases signed with
  | false =>
      have hfits := fits_unsigned.mp hn
      rw [value_unsigned, BitVec.toNat_ofInt]
      push_cast
      rw [Int.emod_eq_of_lt hfits.1 hfits.2, Int.toNat_of_nonneg hfits.1]
  | true =>
      have hfits := fits_signed.mp hn
      have hpos : 0 < w := hw
      have hpow : (2 : ℤ) ^ w = 2 * 2 ^ (w - 1) := by
        rw [← pow_succ', Nat.sub_add_cancel hpos]
      rw [value_signed, BitVec.toInt_ofInt]
      exact Int.bmod_eq_of_le (by push_cast; omega) (by push_cast; omega)

theorem toNat_ofInt (hw : 0 < w) {n : ℤ} (hn : (IntType.mk false w).Fits n) :
    ((BitVec.ofInt w n).toNat : ℤ) = n := by
  have hvalue := value_ofInt (t := ⟨false, w⟩) hw hn
  rwa [value_unsigned] at hvalue

/-- A narrower word of a number is the narrower word of its wider word. -/
theorem setWidth_ofInt {v : ℕ} (hv : w ≤ v) (n : ℤ) :
    (BitVec.ofInt v n).setWidth w = BitVec.ofInt w n := by
  have hdvd : ((2 ^ w : ℕ) : ℤ) ∣ ((2 ^ v : ℕ) : ℤ) := by exact_mod_cast Nat.pow_dvd_pow 2 hv
  apply BitVec.eq_of_toInt_eq
  rw [BitVec.toInt_setWidth, BitVec.toInt_ofInt, BitVec.toNat_ofInt,
    Int.toNat_of_nonneg (Int.emod_nonneg _ (by positivity)), ← Int.emod_bmod,
    Int.emod_emod_of_dvd _ hdvd, Int.emod_bmod]

/-- A number is its word and some whole turns. -/
theorem exists_turns (w : ℕ) (n : ℤ) : ∃ k : ℤ, n = (BitVec.ofInt w n).toInt + 2 ^ w * k := by
  refine ⟨Int.bdiv n (2 ^ w), ?_⟩
  rw [BitVec.toInt_ofInt, Int.bmod_eq_self_sub_mul_bdiv]
  push_cast
  omega

/-- Whole turns do not show in the word. -/
theorem ofInt_add_turns (w : ℕ) (n k : ℤ) :
    BitVec.ofInt w (n + 2 ^ w * k) = BitVec.ofInt w n := by
  apply BitVec.eq_of_toInt_eq
  rw [BitVec.toInt_ofInt, BitVec.toInt_ofInt]
  exact_mod_cast Int.add_mul_bmod_self_left n (2 ^ w) k

/-- What is no value of the type is a turn at least away from its word. -/
theorem le_abs_of_not_fits (hw : 0 < w) {n : ℤ} (hn : ¬ (IntType.mk true w).Fits n) :
    2 ^ w ≤ |(BitVec.ofInt w n).toInt - n| := by
  obtain ⟨k, hk⟩ := exists_turns w n
  have hturns : (BitVec.ofInt w n).toInt - n = -(2 ^ w * k) := by omega
  have hne : k ≠ 0 := by
    rintro rfl
    rw [mul_zero, add_zero] at hk
    rw [hk] at hn
    exact hn (fits_value (t := ⟨true, w⟩) hw _)
  rw [hturns, abs_neg, abs_mul, abs_of_pos (by positivity)]
  exact le_mul_of_one_le_right (by positivity) (Int.one_le_abs hne)

/-- The value of a word of one signedness is one of the other iff its top bit is clear. -/
theorem fits_swap (hw : 0 < w) (signed : Bool) (x : BitVec w) :
    (IntType.mk (!signed) w).Fits ((IntType.mk signed w).value x) ↔ x.toNat < 2 ^ (w - 1) := by
  have hpow : 2 ^ w = 2 * 2 ^ (w - 1) := by
    rw [← Nat.pow_succ', Nat.succ_eq_add_one, Nat.sub_add_cancel hw]
  have hlt := x.isLt
  have hcast : ((2 ^ w : ℕ) : ℤ) = 2 ^ w := by push_cast; rfl
  have hhalf : ((2 ^ (w - 1) : ℕ) : ℤ) = 2 ^ (w - 1) := by push_cast; rfl
  cases signed with
  | false =>
      show (IntType.mk true w).Fits ((IntType.mk false w).value x) ↔ _
      rw [fits_signed, value_unsigned]
      omega
  | true =>
      show (IntType.mk false w).Fits ((IntType.mk true w).value x) ↔ _
      rw [fits_unsigned, value_signed, BitVec.toInt_eq_toNat_cond]
      split <;> omega

/-- Such a word has one value. -/
theorem value_swap (hw : 0 < w) {signed : Bool} {x : BitVec w} (hx : x.toNat < 2 ^ (w - 1)) :
    (IntType.mk signed w).value x = (IntType.mk (!signed) w).value x := by
  have hpow : 2 ^ w = 2 * 2 ^ (w - 1) := by
    rw [← Nat.pow_succ', Nat.succ_eq_add_one, Nat.sub_add_cancel hw]
  have hvalue : x.toInt = x.toNat := by
    rw [BitVec.toInt_eq_toNat_cond, if_pos (by omega)]
  cases signed with
  | false => exact hvalue.symm
  | true => exact hvalue

/-- **Through the numbers to the other signedness**: the same word, or undefined. -/
theorem cast_swap (hw : 0 < w) (signed : Bool) (x : BitVec w) :
    (IntType.mk (!signed) w).cast ((IntType.mk signed w).value x : K) =
      if x.toNat < 2 ^ (w - 1) then some x else none := by
  by_cases hx : x.toNat < 2 ^ (w - 1)
  · rw [value_swap hw hx, if_pos hx]
    exact cast_value (t := ⟨!signed, w⟩) hw x
  · rw [cast, truncate_intCast, if_neg (mt (fits_swap hw signed x).mp hx), if_neg hx]

end Words
end IntType

/-! ## Copying into the low part of a word -/

/-- The low `w` bits of `old` replaced by `x`. -/
def patch {w n : ℕ} (x : BitVec w) (old : BitVec n) : BitVec n :=
  BitVec.ofNat n (x.toNat + old.toNat / 2 ^ w * 2 ^ w)

/-- A copy of the whole width leaves nothing of the old word. -/
@[simp] theorem patch_full {n : ℕ} (x old : BitVec n) : patch x old = x := by
  rw [patch, Nat.div_eq_of_lt old.isLt, Nat.zero_mul, Nat.add_zero, BitVec.ofNat_toNat,
    BitVec.setWidth_eq]

section
variable {w n : ℕ} (hw : w ≤ n) (x : BitVec w) (old : BitVec n)
include hw

theorem toNat_patch : (patch x old).toNat = x.toNat + old.toNat / 2 ^ w * 2 ^ w := by
  have hpow : 2 ^ n = 2 ^ (n - w) * 2 ^ w := by rw [← Nat.pow_add, Nat.sub_add_cancel hw]
  have hdiv : old.toNat / 2 ^ w < 2 ^ (n - w) := by
    rw [Nat.div_lt_iff_lt_mul (Nat.two_pow_pos w), ← hpow]
    exact old.isLt
  have hmul : (old.toNat / 2 ^ w + 1) * 2 ^ w ≤ 2 ^ n := by
    rw [hpow]
    exact Nat.mul_le_mul_right _ hdiv
  have hx := x.isLt
  rw [Nat.add_mul, Nat.one_mul] at hmul
  rw [patch, BitVec.toNat_ofNat, Nat.mod_eq_of_lt (by omega)]

/-- The copy, and above it the old word. -/
theorem getLsbD_patch (i : ℕ) :
    (patch x old).getLsbD i = if i < w then x.getLsbD i else old.getLsbD i := by
  have hcomm : x.toNat + old.toNat / 2 ^ w * 2 ^ w = 2 ^ w * (old.toNat / 2 ^ w) + x.toNat := by
    rw [Nat.add_comm, Nat.mul_comm]
  rw [BitVec.getLsbD, toNat_patch hw, hcomm, Nat.testBit_two_pow_mul_add _ x.isLt]
  by_cases hi : i < w
  · rw [if_pos hi, if_pos hi, BitVec.getLsbD]
  · rw [if_neg hi, if_neg hi, Nat.testBit_div_two_pow, Nat.sub_add_cancel (Nat.le_of_not_lt hi),
      BitVec.getLsbD]

/-- What was copied is there. -/
theorem setWidth_patch : (patch x old).setWidth w = x := by
  apply BitVec.eq_of_getLsbD_eq
  intro i hi
  simp [getLsbD_patch hw, hi]

/-- From a bit on the old word is left iff the copy has there what the old word had. -/
theorem patch_ushiftRight_eq_iff (k : ℕ) :
    patch x old >>> k = old >>> k ↔ x >>> k = old.setWidth w >>> k := by
  constructor
  · intro heq
    apply BitVec.eq_of_getLsbD_eq
    intro i hi
    have hbit := congrArg (BitVec.getLsbD · i) heq
    simp only [BitVec.getLsbD_ushiftRight, getLsbD_patch hw, BitVec.getLsbD_setWidth] at hbit ⊢
    by_cases hk : k + i < w
    · simpa [hk] using hbit
    · simp [hk, BitVec.getLsbD_of_ge _ _ (Nat.le_of_not_lt hk)]
  · intro heq
    apply BitVec.eq_of_getLsbD_eq
    intro i hi
    have hbit := congrArg (BitVec.getLsbD · i) heq
    simp only [BitVec.getLsbD_ushiftRight, getLsbD_patch hw, BitVec.getLsbD_setWidth] at hbit ⊢
    by_cases hk : k + i < w
    · simpa [hk] using hbit
    · simp [hk]

/-- What is left of the old word is what stands above the copy. -/
theorem patch_eq_patch_iff (old' : BitVec n) :
    patch x old = patch x old' ↔ old >>> w = old' >>> w := by
  have habove : ∀ o : BitVec n, patch x o >>> w = o >>> w := by
    intro o
    rw [patch_ushiftRight_eq_iff hw]
    simp [BitVec.ushiftRight_eq_zero]
  constructor
  · intro heq
    rw [← habove old, heq, habove]
  · intro heq
    apply BitVec.eq_of_getLsbD_eq
    intro i hi
    rw [getLsbD_patch hw, getLsbD_patch hw]
    by_cases hlow : i < w
    · rw [if_pos hlow, if_pos hlow]
    · have hbit := congrArg (BitVec.getLsbD · (i - w)) heq
      simp only [BitVec.getLsbD_ushiftRight, Nat.add_sub_cancel' (Nat.le_of_not_lt hlow)] at hbit
      rw [if_neg hlow, if_neg hlow, hbit]

end

end RosCanopen.Lib
