import Mathlib.Algebra.Order.Floor.Ring
import Mathlib.Order.Interval.Set.UnorderedInterval
import Mathlib.Algebra.Order.Field.Basic
import Mathlib.Data.Int.ConditionallyCompleteOrder
import Mathlib.Tactic.FieldSimp
import Mathlib.Tactic.Linarith
import Mathlib.Tactic.Ring

/-!
# Going by equal steps until near a target

A loop adds the same step again and again until it is within a tolerance of its target.  It
ends just when some multiple of the step comes so near, and it goes through the multiples up
to the first that does.

## Main definitions

* `march` — the loop, and the numbers that it goes through.
* `lastFrom` — where it is then.
* `marchEnds_iff` — when it ends.
-/

namespace RosCanopen.Lib

section Way
variable {K : Type*}

/-- Where one is after going through a list. -/
def lastFrom (x : K) (l : List K) : K := (x :: l).getLast (List.cons_ne_nil _ _)

theorem lastFrom_append (x : K) (l l' : List K) :
    lastFrom x (l ++ l') = lastFrom (lastFrom x l) l' := by
  induction l generalizing x with
  | nil => rfl
  | cons y l ih => exact ih y

variable {x target : K}

/-- What all keep, the last one keeps. -/
theorem lastFrom_mem {s : Set K} {l : List K} (hx : x ∈ s) (hl : ∀ y ∈ l, y ∈ s) :
    lastFrom x l ∈ s := by
  rcases List.mem_cons.mp (List.getLast_mem (List.cons_ne_nil x l)) with heq | hin
  · rw [lastFrom, heq]
    exact hx
  · exact hl _ hin

variable [LinearOrder K]

/-- What goes straight to the target lies on the way there. -/
theorem mem_of_isChain {l : List K}
    (h : (x :: l).IsChain fun a b => b ∈ Set.uIcc a target) : ∀ y ∈ l, y ∈ Set.uIcc x target := by
  induction l generalizing x with
  | nil => intro y hy; cases hy
  | cons z l ih =>
      obtain ⟨hz, hrest⟩ := List.isChain_cons_cons.mp h
      intro y hy
      rcases List.mem_cons.mp hy with rfl | hy
      · exact hz
      · exact Set.uIcc_subset_uIcc_right hz (ih hrest y hy)

end Way

section March
variable {K : Type*} [Field K] {tolerance step target x : K} {n fuel : ℕ}

/-- The first `n` numbers that a march goes through. -/
def marched (step x : K) (n : ℕ) : List K := (List.range n).map fun i : ℕ => x + (i + 1) * step

theorem marched_succ (step x : K) (n : ℕ) :
    marched step x (n + 1) = (x + step) :: marched step (x + step) n := by
  rw [marched, List.range_succ_eq_map, List.map_cons, List.map_map, marched]
  congr 1
  · push_cast
    ring
  · refine List.map_congr_left ?_
    intro i _
    simp only [Function.comp_apply]
    push_cast
    ring

/-- Where a march ends. -/
theorem lastFrom_marched (step x : K) (n : ℕ) : lastFrom x (marched step x n) = x + n * step := by
  induction n generalizing x with
  | zero => simp [marched, lastFrom]
  | succ n ih =>
      have hlast := ih (x + step)
      rw [lastFrom] at hlast
      simp only [lastFrom, marched_succ, List.getLast_cons_cons, hlast]
      push_cast
      ring

variable [LinearOrder K]

/-- `while (|x - target| > tolerance) x += step`, with the numbers that it goes through. -/
def march (tolerance step target : K) : ℕ → K → Option (List K)
  | 0, _ => none
  | fuel + 1, x =>
      if tolerance < |x - target| then
        (march tolerance step target fuel (x + step)).map fun l => (x + step) :: l
      else some []

/-- After `n` steps the target is near. -/
def Near (tolerance step target x : K) (n : ℕ) : Prop := |x + n * step - target| ≤ tolerance

theorem near_succ : Near tolerance step target x (n + 1) ↔
    Near tolerance step target (x + step) n := by
  have heq : x + ((n + 1 : ℕ) : K) * step - target = x + step + n * step - target := by
    push_cast
    ring
  rw [Near, Near, heq]

/-- **The loop goes through the multiples of its step up to the first that is near.** -/
theorem march_eq_marched (hnear : Near tolerance step target x n)
    (hfirst : ∀ m < n, ¬ Near tolerance step target x m) (hfuel : n < fuel) :
    march tolerance step target fuel x = some (marched step x n) := by
  induction n generalizing x fuel with
  | zero =>
      obtain ⟨fuel, rfl⟩ : ∃ k, fuel = k + 1 := ⟨fuel - 1, by omega⟩
      have hle : |x - target| ≤ tolerance := by simpa [Near] using hnear
      rw [march, if_neg (not_lt.mpr hle)]
      rfl
  | succ n ih =>
      obtain ⟨fuel, rfl⟩ : ∃ k, fuel = k + 1 := ⟨fuel - 1, by omega⟩
      have hfar : tolerance < |x - target| := by
        have hzero := hfirst 0 (Nat.succ_pos n)
        simpa [Near] using hzero
      have hrest := ih (near_succ.mp hnear)
        (fun m hm h => hfirst (m + 1) (Nat.succ_lt_succ hm) (near_succ.mpr h))
        (Nat.lt_of_succ_lt_succ hfuel)
      rw [march, if_pos hfar, hrest, Option.map_some, marched_succ]

/-- A loop that ends has come near. -/
theorem exists_near_of_march {l : List K} (h : march tolerance step target fuel x = some l) :
    ∃ n, Near tolerance step target x n := by
  induction fuel generalizing x l with
  | zero => cases h
  | succ fuel ih =>
      rw [march] at h
      split at h
      · obtain ⟨l', hrest, -⟩ := Option.map_eq_some_iff.mp h
        obtain ⟨n, hn⟩ := ih hrest
        exact ⟨n + 1, near_succ.mpr hn⟩
      · next hnear => exact ⟨0, by simpa [Near] using hnear⟩

/-- **The loop ends just when some multiple of the step comes near.** -/
theorem marchEnds_iff : (∃ fuel l, march tolerance step target fuel x = some l) ↔
    ∃ n, Near tolerance step target x n := by
  constructor
  · intro ⟨fuel, l, h⟩
    exact exists_near_of_march h
  · intro hex
    classical
    exact ⟨Nat.find hex + 1, _, march_eq_marched (Nat.find_spec hex)
      (fun m hm => Nat.find_min hex hm) (Nat.lt_succ_self _)⟩

variable [IsStrictOrderedRing K]

/-- Steps that add up to the way go straight to the target. -/
theorem isChain_marched {N : ℕ} (htarget : target = x + N * step) (hn : n ≤ N) :
    (x :: marched step x n).IsChain fun a b => b ∈ Set.uIcc a target := by
  induction n generalizing x N with
  | zero => exact List.IsChain.singleton _
  | succ n ih =>
      obtain ⟨N, rfl⟩ : ∃ k, N = k + 1 := ⟨N - 1, by omega⟩
      have hrest : target = x + step + N * step := by
        rw [htarget]
        push_cast
        ring
      rw [marched_succ]
      refine List.IsChain.cons_cons ?_ (ih hrest (by omega))
      have hN : (0 : K) ≤ N := Nat.cast_nonneg N
      by_cases hstep : 0 ≤ step
      · have hmul := mul_nonneg hN hstep
        exact Set.mem_uIcc.mpr (Or.inl ⟨by linarith, by linarith⟩)
      · have hmul := mul_nonpos_of_nonneg_of_nonpos hN (le_of_not_ge hstep)
        exact Set.mem_uIcc.mpr (Or.inr ⟨by linarith, by linarith⟩)

/-- **A way that is divided into equal steps is gone to its end**, but for the tolerance, in no
more than these steps, and straight. -/
theorem march_divided {N : ℕ} (tolerance : K) (htolerance : 0 ≤ tolerance) (hN : 0 < N)
    (x target : K) :
    ∃ n ≤ N, (∀ fuel, N < fuel → march tolerance ((target - x) / N) target fuel x =
        some (marched ((target - x) / N) x n)) ∧
      Near tolerance ((target - x) / N) target x n ∧
      (x :: marched ((target - x) / N) x n).IsChain fun a b => b ∈ Set.uIcc a target := by
  have hcast : (N : K) ≠ 0 := Nat.cast_ne_zero.mpr hN.ne'
  have htarget : target = x + N * ((target - x) / N) := by
    field_simp
    ring
  have hlast : Near tolerance ((target - x) / N) target x N := by
    rw [Near, ← htarget, sub_self, abs_zero]
    exact htolerance
  classical
  have hex : ∃ n, Near tolerance ((target - x) / N) target x n := ⟨N, hlast⟩
  have hle : Nat.find hex ≤ N := Nat.find_min' hex hlast
  refine ⟨Nat.find hex, hle, ?_, Nat.find_spec hex, isChain_marched htarget hle⟩
  intro fuel hfuel
  exact march_eq_marched (Nat.find_spec hex) (fun m hm => Nat.find_min hex hm)
    (hle.trans_lt hfuel)

end March
end RosCanopen.Lib
