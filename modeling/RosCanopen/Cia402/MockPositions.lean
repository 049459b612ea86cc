import RosCanopen.Lib.Cast
import RosCanopen.Lib.March
import Mathlib.Algebra.Order.Archimedean.Basic

/-!
# The cyclic and the interpolated position mode of the fake slave

Both loops go to a new target by equal steps until they are within a thousandth of it.  In
the interpolated mode a step is a twentieth of the way.  In the cyclic mode it is what the
speed of the move makes in a cycle of ten milliseconds, and the move is to take one
interpolation period; the inner loop ends only when some number of cycles comes near that
period, and it tests neither the state nor the mode.  The inner loops also end when `rclcpp`
shuts down, which is left out: here it stays ok.

Numbers are those of any ordered field with a floor, so the results are about the formulas,
not about their rounding.  With the doubles of the source the steps add up with an error, so
the last position may lie behind the target by that, and the count that is truncated from it
one count behind.

## Main definitions

* `CyclicPosition` — what `run_cyclic_position_mode` reads at its start.
* `CyclicPosition.move`, `CyclicPosition.pass`, `CyclicPosition.run` — its loops.
* `interpolatedPass`, `interpolatedRun` — the loops of `run_interpolated_position_mode`.
-/

namespace RosCanopen.Cia402

open Lib

/-- What `run_cyclic_position_mode` reads at its start. -/
structure CyclicPosition (K : Type*) where
  cp_min_position : K
  cp_max_position : K
  cp_interpolation_period : K
  cp_offset : K

namespace CyclicPosition

section Model
variable {K : Type*} [Field K] [LinearOrder K]

/-- The objects, as the loop converts them: the limits by a division of integers. -/
def read (min_pos max_pos offset : ℤ) (int_period : ℕ) (index : ℤ) : CyclicPosition K where
  cp_min_position := (min_pos.tdiv 1000 : ℤ)
  cp_max_position := (max_pos.tdiv 1000 : ℤ)
  cp_interpolation_period := int_period * 10 ^ index
  cp_offset := offset / 1000

variable (c : CyclicPosition K)

/-- The target of the object 0x607A, by a division of integers. -/
def target (act_pos : ℤ) : K := (act_pos.tdiv 1000 : ℤ) - c.cp_offset

/-- `increment`, with a `control_cycle_period` of a hundredth. -/
def increment (actual_position target_position : K) : K :=
  1 / 100 * ((target_position - actual_position) / c.cp_interpolation_period)

/-- The inner loop, and the positions that it goes through. -/
def move (fuel : ℕ) (actual_position target_position : K) : Option (List K) :=
  march (1 / 1000) (c.increment actual_position target_position) target_position fuel
    actual_position

/-- The test in front of the inner loop. -/
def Follows (actual_position target_position : K) : Prop :=
  target_position < c.cp_max_position ∧ c.cp_min_position < target_position ∧
    1 / 1000 < |target_position - actual_position|

instance (actual_position target_position : K) :
    Decidable (c.Follows actual_position target_position) :=
  inferInstanceAs (Decidable (_ ∧ _))

/-- A pass of the outer loop, and the positions that it goes through. -/
def pass (fuel : ℕ) (actual_position : K) (act_pos : ℤ) : Option (List K) :=
  if c.Follows actual_position (c.target act_pos) then
    c.move fuel actual_position (c.target act_pos)
  else some []

/-- Passes with the targets that they find, and the positions that they all go through. -/
def run (fuel : ℕ) : K → List ℤ → Option (List K)
  | _, [] => some []
  | actual_position, act_pos :: targets => do
      let positions ← c.pass fuel actual_position act_pos
      let rest ← run fuel (lastFrom actual_position positions) targets
      return positions ++ rest

section Registers
variable [FloorRing K]

/-- What an increment writes to the actual position: the cast is of the position, in front of
the multiplication. -/
def writesPosition (actual_position : K) : ℤ := truncate actual_position * 1000

/-- What a pass writes to the actual velocity, likewise. -/
def writesVelocity (actual_position target_position : K) : ℤ :=
  truncate ((target_position - actual_position) / c.cp_interpolation_period) * 1000

end Registers

variable [IsStrictOrderedRing K] {c} {x t : K}

/-! ## When a move ends -/

theorem near_iff (hperiod : 0 < c.cp_interpolation_period) (n : ℕ) :
    Near (1 / 1000) (c.increment x t) t x n ↔
      |c.cp_interpolation_period - n / 100| * |t - x| ≤ c.cp_interpolation_period / 1000 := by
  have heq : x + n * c.increment x t - t =
      -((c.cp_interpolation_period - n / 100) * (t - x) / c.cp_interpolation_period) := by
    rw [increment]
    field_simp
    ring
  rw [Near, heq, abs_neg, abs_div, abs_mul, abs_of_pos hperiod, div_le_iff₀ hperiod]
  rw [one_div_mul_eq_div]

/-- **A move ends just when some number of cycles is near the interpolation period**, the
nearer the longer its way. -/
theorem move_ends_iff (hperiod : 0 < c.cp_interpolation_period) :
    (∃ fuel l, c.move fuel x t = some l) ↔
      ∃ n : ℕ, |c.cp_interpolation_period - n / 100| * |t - x| ≤
        c.cp_interpolation_period / 1000 := by
  rw [show (∃ fuel l, c.move fuel x t = some l) ↔ ∃ n, Near (1 / 1000) (c.increment x t) t x n
    from marchEnds_iff]
  exact exists_congr fun n => near_iff hperiod n

theorem move_of_period {N : ℕ} (hN : 0 < N) (hperiod : c.cp_interpolation_period = N / 100)
    (x t : K) : c.increment x t = (t - x) / N := by
  have hcast : (N : K) ≠ 0 := Nat.cast_ne_zero.mpr hN.ne'
  rw [increment, hperiod]
  field_simp

/-- A number that is no natural number keeps a distance from all of them. -/
theorem exists_distance [FloorRing K] {q : K} (hq : 0 ≤ q) (hnot : ∀ n : ℕ, q ≠ n) :
    ∃ d, 0 < d ∧ ∀ n : ℕ, d ≤ |q - n| := by
  have hle := Nat.floor_le hq
  have hlt := Nat.lt_floor_add_one q
  have hpos : 0 < q - ⌊q⌋₊ := by
    refine sub_pos.mpr (lt_of_le_of_ne hle ?_)
    exact (hnot _).symm
  refine ⟨min (q - ⌊q⌋₊) (⌊q⌋₊ + 1 - q), lt_min hpos (sub_pos.mpr hlt), ?_⟩
  intro n
  by_cases hn : n ≤ ⌊q⌋₊
  · have hcast : (n : K) ≤ ⌊q⌋₊ := Nat.cast_le.mpr hn
    calc _ ≤ q - ⌊q⌋₊ := min_le_left _ _
      _ ≤ q - n := by linarith
      _ ≤ |q - n| := le_abs_self _
  · have hcast : ((⌊q⌋₊ + 1 : ℕ) : K) ≤ n := Nat.cast_le.mpr (by omega)
    push_cast at hcast
    calc _ ≤ ⌊q⌋₊ + 1 - q := min_le_right _ _
      _ ≤ -(q - n) := by linarith
      _ ≤ |q - n| := neg_le_abs _

/-- With no period, or one below zero, a move does not come nearer. -/
theorem not_move_ends (hperiod : c.cp_interpolation_period ≤ 0) :
    ¬ ∃ fuel l, c.move fuel 0 1 = some l := by
  have hincrement : c.increment 0 1 ≤ 0 := by
    rw [increment]
    exact mul_nonpos_of_nonneg_of_nonpos (by norm_num)
      (div_nonpos_of_nonneg_of_nonpos (by norm_num) hperiod)
  intro hends
  obtain ⟨n, hn⟩ := marchEnds_iff.mp hends
  have hback := mul_nonpos_of_nonneg_of_nonpos (Nat.cast_nonneg (α := K) n) hincrement
  have hnear := (abs_le.mp hn).1
  norm_num at hnear
  linarith

/-- **All moves end just when the interpolation period is a whole number of cycles.**  With any
other period, zero among them, the inner loop runs off on every move that is long enough, and
as long as `rclcpp` is ok `OnWrite`, which joins its thread, does not return. -/
theorem moves_end_iff [FloorRing K] :
    (∀ x t, ∃ fuel l, c.move fuel x t = some l) ↔
      ∃ N : ℕ, 0 < N ∧ c.cp_interpolation_period = N / 100 := by
  constructor
  · intro hends
    have hperiod : 0 < c.cp_interpolation_period := by
      by_contra hnot
      exact not_move_ends (not_lt.mp hnot) (hends 0 1)
    by_contra hnone
    have hnot : ∀ n : ℕ, 100 * c.cp_interpolation_period ≠ n := by
      intro n hn
      have hpos : 0 < n := by
        have hcast : (0 : K) < n := by rw [← hn]; positivity
        exact Nat.cast_pos.mp hcast
      exact hnone ⟨n, hpos, by rw [← hn]; ring⟩
    obtain ⟨d, hd, hfar⟩ := exists_distance (mul_nonneg (by norm_num) hperiod.le) hnot
    obtain ⟨n, hn⟩ := (move_ends_iff hperiod (x := 0)
      (t := c.cp_interpolation_period / d)).mp (hends 0 _)
    have heq : |100 * c.cp_interpolation_period - n| =
        100 * |c.cp_interpolation_period - n / 100| := by
      rw [← abs_of_pos (show (0 : K) < 100 by norm_num), ← abs_mul,
        abs_of_pos (show (0 : K) < 100 by norm_num)]
      congr 1
      ring
    have hle := hfar n
    rw [heq] at hle
    rw [sub_zero, abs_of_pos (div_pos hperiod hd), mul_div_assoc', div_le_iff₀ hd] at hn
    have hmul := mul_le_mul_of_nonneg_right hle hperiod.le
    have hpd := mul_pos hperiod hd
    nlinarith
  · intro ⟨N, hN, heq⟩ x t
    have hcast : (0 : K) < N := Nat.cast_pos.mpr hN
    have hperiod : 0 < c.cp_interpolation_period := by
      rw [heq]
      positivity
    refine (move_ends_iff hperiod).mpr ⟨N, ?_⟩
    rw [heq, sub_self, abs_zero, zero_mul]
    positivity

/-- A period of four milliseconds. -/
theorem moves_end_iff_four :
    (∀ x t : ℚ, ∃ fuel l, (read (-5000) 5000 0 4 (-3)).move fuel x t = some l) ↔
      ∃ N : ℕ, 0 < N ∧
        (read (-5000) 5000 0 4 (-3) : CyclicPosition ℚ).cp_interpolation_period = N / 100 :=
  moves_end_iff

/-! ## Runs -/

theorem pass_within {N : ℕ} (hN : 0 < N) (hperiod : c.cp_interpolation_period = N / 100)
    (hx : x ∈ Set.Icc c.cp_min_position c.cp_max_position) (act_pos : ℤ) :
    ∃ l, c.pass (N + 1) x act_pos = some l ∧
      (∀ y ∈ l, y ∈ Set.Icc c.cp_min_position c.cp_max_position) ∧
      (c.target act_pos ∈ Set.Ioo c.cp_min_position c.cp_max_position →
        |lastFrom x l - c.target act_pos| ≤ 1 / 1000) ∧
      (c.target act_pos ∉ Set.Ioo c.cp_min_position c.cp_max_position → l = []) := by
  by_cases hfollows : c.Follows x (c.target act_pos)
  · obtain ⟨n, -, hmarch, hnear, hchain⟩ :=
      march_divided (1 / 1000) (by norm_num) hN x (c.target act_pos)
    rw [pass, if_pos hfollows, move, move_of_period hN hperiod, hmarch _ (Nat.lt_succ_self N)]
    refine ⟨_, rfl, ?_, ?_, ?_⟩
    · intro y hy
      have ht : c.target act_pos ∈ Set.Icc c.cp_min_position c.cp_max_position :=
        ⟨hfollows.2.1.le, hfollows.1.le⟩
      exact Set.uIcc_subset_Icc hx ht (mem_of_isChain hchain y hy)
    · intro _
      rw [lastFrom_marched]
      exact hnear
    · intro hout
      exact absurd ⟨hfollows.2.1, hfollows.1⟩ hout
  · rw [pass, if_neg hfollows]
    refine ⟨[], rfl, fun y hy => absurd hy List.not_mem_nil, ?_, fun _ => rfl⟩
    intro hin
    rw [abs_sub_comm]
    by_contra hfar
    exact hfollows ⟨hin.2, hin.1, lt_of_not_ge hfar⟩

/-- **The cyclic mode follows its targets within the limits.**  With an interpolation period of
a whole number of cycles, for any targets one after the other: every inner loop ends; no
position that is gone through leaves the software limits; and at the end the position is
within a thousandth of the last target, if that lies between the limits. -/
theorem run_within {N : ℕ} (hN : 0 < N) (hperiod : c.cp_interpolation_period = N / 100)
    (hx : x ∈ Set.Icc c.cp_min_position c.cp_max_position) (targets : List ℤ) :
    ∃ l, c.run (N + 1) x targets = some l ∧
      (∀ y ∈ l, y ∈ Set.Icc c.cp_min_position c.cp_max_position) ∧
      ∀ act_pos, targets.getLast? = some act_pos →
        c.target act_pos ∈ Set.Ioo c.cp_min_position c.cp_max_position →
        |lastFrom x l - c.target act_pos| ≤ 1 / 1000 := by
  induction targets generalizing x with
  | nil => exact ⟨[], rfl, fun y hy => absurd hy List.not_mem_nil, fun _ h => by cases h⟩
  | cons act_pos targets ih =>
      obtain ⟨l, hpass, hmem, hnear, -⟩ := pass_within hN hperiod hx act_pos
      obtain ⟨l', hrun, hmem', hnear'⟩ := ih (lastFrom_mem hx hmem)
      refine ⟨l ++ l', by simp [run, hpass, hrun], ?_, ?_⟩
      · intro y hy
        rcases List.mem_append.mp hy with hy | hy
        · exact hmem y hy
        · exact hmem' y hy
      · intro act hact hin
        rw [lastFrom_append]
        cases targets with
        | nil =>
            obtain rfl : act_pos = act := Option.some.inj hact
            obtain rfl : l' = [] := (Option.some.inj hrun).symm
            exact hnear hin
        | cons a targets =>
            rw [List.getLast?_cons_cons] at hact
            exact hnear' act hact hin

/-- Limits of five, and a period of two cycles. -/
theorem run_within_two : ∃ l, (read (-5000) 5000 0 2 (-2) : CyclicPosition ℚ).run (2 + 1) 0
      [3000, 9000, -2000] = some l ∧
    (∀ y ∈ l, y ∈ Set.Icc (-5) 5) ∧
    ∀ act_pos, [3000, 9000, -2000].getLast? = some act_pos →
      (read (-5000) 5000 0 2 (-2) : CyclicPosition ℚ).target act_pos ∈ Set.Ioo (-5) 5 →
      |lastFrom 0 l - (read (-5000) 5000 0 2 (-2) : CyclicPosition ℚ).target act_pos| ≤
        1 / 1000 := by
  have hmin : (read (-5000) 5000 0 2 (-2) : CyclicPosition ℚ).cp_min_position = -5 := by
    rw [read, show Int.tdiv (-5000) 1000 = -5 by decide]
    norm_num
  have hmax : (read (-5000) 5000 0 2 (-2) : CyclicPosition ℚ).cp_max_position = 5 := by
    rw [read, show Int.tdiv 5000 1000 = 5 by decide]
    norm_num
  have hrun := run_within (c := (read (-5000) 5000 0 2 (-2) : CyclicPosition ℚ)) (N := 2) (x := 0)
    (by norm_num) (by norm_num [read]) (by rw [hmin, hmax]; norm_num) [3000, 9000, -2000]
  rw [hmin, hmax] at hrun
  exact hrun

end Model
end CyclicPosition

/-! ## The interpolated position mode -/

section Interpolated
variable {K : Type*} [Field K] [LinearOrder K]

/-- A pass of the outer loop of `run_interpolated_position_mode`, and the positions that it goes
through before it takes the target itself, added up exactly. -/
def interpolatedPass (fuel : ℕ) (actual_position target_position : K) : Option (List K) :=
  if target_position ≠ actual_position then
    march (1 / 1000) ((target_position - actual_position) / 20) target_position fuel
      actual_position
  else some []

/-- Passes with the targets that they find, and the positions that each goes through. -/
def interpolatedRun (fuel : ℕ) : K → List ℤ → Option (List (List K))
  | _, [] => some []
  | actual_position, target :: targets => do
      let target_position : K := target / 1000
      let positions ← interpolatedPass fuel actual_position target_position
      let rest ← interpolatedRun fuel target_position targets
      return positions :: rest

/-- What the passes write to the actual position. -/
def writesInterpolated [FloorRing K] (actual_position : K) : ℤ := truncate (actual_position * 1000)

/-- Each pass goes straight from the target before to its own, in twenty steps at the most, and
what it writes last is the target, but for one. -/
def Interpolated [FloorRing K] : K → List ℤ → List (List K) → Prop
  | _, [], passes => passes = []
  | _, _ :: _, [] => False
  | actual_position, target :: targets, positions :: rest =>
      positions.length ≤ 20 ∧
      (actual_position :: positions).IsChain (fun a b => b ∈ Set.uIcc a (target / 1000 : K)) ∧
      (positions ≠ [] →
        |writesInterpolated (lastFrom actual_position positions) - target| ≤ 1) ∧
      Interpolated (target / 1000 : K) targets rest

variable [IsStrictOrderedRing K] [FloorRing K]

/-- A number near an integer is truncated to the integer, or to one of its neighbours. -/
theorem abs_truncate_sub_le {y : K} {n : ℤ} (hy : |y - n| ≤ 1) : |truncate y - n| ≤ 1 := by
  obtain ⟨hlow, hhigh⟩ := abs_le.mp hy
  have hup : truncate y ≤ n + 1 := by
    have hmono := truncate_mono (show y ≤ ((n + 1 : ℤ) : K) by push_cast; linarith)
    rwa [truncate_intCast] at hmono
  have hdown : n - 1 ≤ truncate y := by
    have hmono := truncate_mono (show ((n - 1 : ℤ) : K) ≤ y by push_cast; linarith)
    rwa [truncate_intCast] at hmono
  exact abs_le.mpr ⟨by omega, by omega⟩

/-- **The interpolated mode goes to each of its targets**, when the steps add up exactly. -/
theorem interpolatedRun_follows (x : K) (targets : List ℤ) :
    ∃ passes, interpolatedRun 21 x targets = some passes ∧ Interpolated x targets passes := by
  induction targets generalizing x with
  | nil => exact ⟨[], rfl, rfl⟩
  | cons target targets ih =>
      obtain ⟨rest, hrun, hfollows⟩ := ih (target / 1000 : K)
      by_cases hnew : (target / 1000 : K) ≠ x
      · obtain ⟨n, hn, hmarch, hnear, hchain⟩ :=
          march_divided (1 / 1000 : K) (by norm_num) (show 0 < 20 by norm_num) x
            (target / 1000 : K)
        push_cast at hmarch hnear hchain
        have hpass := hmarch 21 (by norm_num)
        have heq : interpolatedRun 21 x (target :: targets) =
            some (marched ((target / 1000 - x) / 20) x n :: rest) := by
          simp only [interpolatedRun, interpolatedPass, if_pos hnew, hpass, hrun]
          rfl
        refine ⟨_, heq, ?_, hchain, ?_, hfollows⟩
        · simpa [marched] using hn
        · intro _
          refine abs_truncate_sub_le ?_
          rw [lastFrom_marched]
          have hscale : (x + n * ((target / 1000 - x) / 20)) * 1000 - target =
              (x + n * ((target / 1000 - x) / 20) - target / 1000) * 1000 := by ring
          rw [hscale, abs_mul, abs_of_pos (show (0 : K) < 1000 by norm_num)]
          have hle : |x + n * ((target / 1000 - x) / 20) - target / 1000| ≤ 1 / 1000 := hnear
          linarith
      · have heq : interpolatedRun 21 x (target :: targets) = some ([] :: rest) := by
          simp only [interpolatedRun, interpolatedPass, if_neg hnew, hrun]
          rfl
        refine ⟨_, heq, Nat.zero_le _, List.IsChain.singleton _, ?_, hfollows⟩
        intro hne
        exact absurd rfl hne

theorem interpolatedRun_follows_three :
    ∃ passes : List (List ℚ), interpolatedRun 21 0 [1000, 999, -40] = some passes ∧
      Interpolated 0 [1000, 999, -40] passes :=
  interpolatedRun_follows 0 [1000, 999, -40]

end Interpolated
end RosCanopen.Cia402
