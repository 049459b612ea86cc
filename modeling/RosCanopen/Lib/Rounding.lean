import Mathlib.Algebra.Order.Floor.Ring
import Mathlib.Algebra.Order.Field.Basic
import Mathlib.Data.Int.ConditionallyCompleteOrder
import Mathlib.Tactic.Linarith
import Mathlib.Tactic.NormNum

/-!
# Rounding half away from zero, and clamping

The exact counterpart of `std::lround` over any ordered field with a floor, and of
`std::clamp` over any linear order.  Both are monotone and keep the sign, so a
saturating conversion does not reverse.

## Main definitions

* `lround x` — the nearest integer, halves away from zero.
* `clamp lo hi a` — the nearest element of the interval from `lo` to `hi`.
* `Rounded format` — any rounding that keeps the order and the numbers of a format.
-/

namespace RosCanopen.Lib

section Lround
variable {K : Type*} [Field K] [LinearOrder K] [IsStrictOrderedRing K] [FloorRing K]

/-- The nearest integer, halves away from zero. -/
def lround (x : K) : ℤ := if 0 ≤ x then ⌊x + 1 / 2⌋ else ⌈x - 1 / 2⌉

theorem lround_nonneg {x : K} (hx : 0 ≤ x) : 0 ≤ lround x := by
  rw [lround, if_pos hx]
  exact Int.floor_nonneg.mpr (by linarith)

theorem lround_nonpos {x : K} (hx : x ≤ 0) : lround x ≤ 0 := by
  rcases hx.lt_or_eq with hneg | rfl
  · rw [lround, if_neg (not_le.mpr hneg)]
    exact Int.ceil_le.mpr (by push_cast; linarith)
  · rw [lround, if_pos le_rfl]
    exact Int.lt_add_one_iff.mp (Int.floor_lt.mpr (by norm_num))

theorem lround_mono : Monotone (lround : K → ℤ) := by
  intro x y hxy
  by_cases hx : 0 ≤ x
  · rw [lround, lround, if_pos hx, if_pos (hx.trans hxy)]
    exact Int.floor_mono (by linarith)
  · by_cases hy : 0 ≤ y
    · exact (lround_nonpos (le_of_not_ge hx)).trans (lround_nonneg hy)
    · rw [lround, lround, if_neg hx, if_neg hy]
      exact Int.ceil_mono (by linarith)

/-- Rounding moves a number by half at the most. -/
theorem abs_lround_sub_le (x : K) : |(lround x : K) - x| ≤ 1 / 2 := by
  rw [abs_le]
  by_cases hx : 0 ≤ x
  · rw [lround, if_pos hx]
    have hle := Int.floor_le (x + 1 / 2)
    have hlt := Int.lt_floor_add_one (x + 1 / 2)
    constructor <;> linarith
  · rw [lround, if_neg hx]
    have hle := Int.le_ceil (x - 1 / 2)
    have hlt := Int.ceil_lt_add_one (x - 1 / 2)
    constructor <;> linarith

theorem lround_le_iff {x : K} {n : ℤ} (hn : 0 ≤ n) : lround x ≤ n ↔ x < n + 1 / 2 := by
  by_cases hx : 0 ≤ x
  · rw [lround, if_pos hx, ← Int.lt_add_one_iff, Int.floor_lt]
    push_cast
    constructor <;> intro h <;> linarith
  · have hcast : (0 : K) ≤ n := by exact_mod_cast hn
    exact iff_of_true ((lround_nonpos (le_of_not_ge hx)).trans hn) (by linarith)

theorem le_lround_iff {x : K} {n : ℤ} (hn : n ≤ 0) : n ≤ lround x ↔ n - 1 / 2 < x := by
  by_cases hx : 0 ≤ x
  · have hcast : (n : K) ≤ 0 := by exact_mod_cast hn
    exact iff_of_true (hn.trans (lround_nonneg hx)) (by linarith)
  · rw [lround, if_neg hx, ← Int.sub_one_lt_iff, Int.lt_ceil]
    push_cast
    constructor <;> intro h <;> linarith

/-- The numbers that are rounded to an integer from `lo` to `hi`. -/
def RoundsInto (lo hi : ℤ) (x : K) : Prop := (lo : K) - 1 / 2 < x ∧ x < hi + 1 / 2

theorem roundsInto_iff {lo hi : ℤ} (hlo : lo ≤ 0) (hhi : 0 ≤ hi) {x : K} :
    RoundsInto lo hi x ↔ lo ≤ lround x ∧ lround x ≤ hi := by
  rw [RoundsInto, le_lround_iff hlo, lround_le_iff hhi]

@[simp] theorem lround_intCast (n : ℤ) : lround (n : K) = n := by
  have hdist : |((lround (n : K) - n : ℤ) : K)| < 1 := by
    push_cast
    exact (abs_lround_sub_le (n : K)).trans_lt (by norm_num)
  have hdist : |lround (n : K) - n| < 1 := by exact_mod_cast hdist
  have hbounds := abs_lt.mp hdist
  omega

/-- A rounded number has the sign of the number, or none. -/
theorem lround_mul_self_nonneg (x : K) : 0 ≤ (lround x : K) * x := by
  rcases le_total 0 x with hx | hx
  · exact mul_nonneg (by exact_mod_cast lround_nonneg hx) hx
  · exact mul_nonneg_of_nonpos_of_nonpos (by exact_mod_cast lround_nonpos hx) hx

end Lround

section Clamp
variable {α : Type*} [LinearOrder α]

/-- The nearest element of the interval from `lo` to `hi`. -/
def clamp (lo hi a : α) : α := max lo (min hi a)

theorem clamp_mono (lo hi : α) : Monotone (clamp lo hi) := fun _ _ h =>
  max_le_max le_rfl (min_le_min le_rfl h)

/-- `std::clamp` by its comparisons. -/
theorem clamp_eq_ite {lo hi : α} (h : lo ≤ hi) (a : α) :
    clamp lo hi a = if a < lo then lo else if hi < a then hi else a := by
  rw [clamp]
  split_ifs with hlo hhi
  · exact max_eq_left ((min_le_right _ _).trans hlo.le)
  · rw [min_eq_left hhi.le, max_eq_right h]
  · rw [min_eq_right (not_lt.mp hhi), max_eq_right (not_lt.mp hlo)]

theorem le_clamp {lo hi a b : α} (hb : b ≤ hi) (ha : b ≤ a) : b ≤ clamp lo hi a :=
  (le_min hb ha).trans (le_max_right _ _)

theorem clamp_le {lo hi a b : α} (hb : lo ≤ b) (ha : a ≤ b) : clamp lo hi a ≤ b :=
  max_le hb ((min_le_right _ _).trans ha)

end Clamp
/-! ## Rounding to a number format -/

/-- A rounding to a format: it keeps the order, and the numbers of the format. -/
structure Rounded {K : Type*} [Preorder K] (format : Set K) where
  round : K → K
  mono : Monotone round
  exact : ∀ x ∈ format, round x = x

namespace Rounded
variable {K : Type*} [Preorder K] {format : Set K} (f : Rounded format) {x y : K}

theorem round_le (hy : y ∈ format) (hxy : x ≤ y) : f.round x ≤ y :=
  (f.mono hxy).trans_eq (f.exact y hy)

theorem le_round (hy : y ∈ format) (hxy : y ≤ x) : y ≤ f.round x :=
  (f.exact y hy).ge.trans (f.mono hxy)

/-- The rounding that is none. -/
def identity (format : Set K) : Rounded format where
  round := id
  mono := monotone_id
  exact _ _ := rfl

end Rounded

end RosCanopen.Lib
