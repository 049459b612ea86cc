import RosCanopen.Cia402.Mode
import RosCanopen.Lib.Cast
import RosCanopen.Lib.System

/-!
# The target that a mode keeps

`ModeTargetHelper` converts a target with `boost::numeric_cast` and turns the two overflows that
the cast throws into the ends of the target's type.  It sets a flag with every target that it has
stored, and `start` clears the flag.  The constructor initialises neither.

## Main definitions

* `boostNumericCast` — the cast, with what it throws.
* `ModeTargetHelper`, with `setTarget` and `start` — the helper for a target of any type.
* `ModeTargetHelper.after` — the helper after a history of calls.
* `Saturates` — the target and the flag are those of the values that were set.
-/

namespace RosCanopen.Cia402

open Lib

/-- The limits of an integer type. -/
def limitsOf (t : IntType) : Limits := ⟨t.min, t.max⟩

/-- The exceptions of `boost::numeric_cast`. -/
inductive BadNumericCast
  | negativeOverflow
  | positiveOverflow
  | other

/-- `boost::numeric_cast`: the fraction is dropped, and what is then out of the range is thrown.
A NaN is not given to it. -/
def boostNumericCast (t : IntType) : Double → Except BadNumericCast t.Number
  | .nan => .error .other
  | .inf true => .error .negativeOverflow
  | .inf false => .error .positiveOverflow
  | .fin q =>
      if h : t.Fits (truncate q) then .ok ⟨truncate q, h⟩
      else if truncate q < t.min then .error .negativeOverflow
      else .error .positiveOverflow

/-- `ModeTargetHelper`, by the type of its target. -/
structure ModeTargetHelper (t : IntType) where
  target : t.Number
  hasTarget : Bool

/-- A call of one of the functions that change the helper. -/
inductive TargetCall
  | setTarget (val : Double)
  | start
  deriving DecidableEq

namespace ModeTargetHelper
variable {t : IntType}

/-- `ModeTargetHelper::setTarget` -/
def setTarget (s : ModeTargetHelper t) (val : Double) : ModeTargetHelper t × Bool :=
  if val = .nan then (s, false)
  else
    match boostNumericCast t val with
    | .ok target => (⟨target, true⟩, true)
    | .error .negativeOverflow => (⟨t.lowest, true⟩, true)
    | .error .positiveOverflow => (⟨t.highest, true⟩, true)
    | .error .other => (s, false)

/-- `ModeTargetHelper::start` -/
def start (s : ModeTargetHelper t) : ModeTargetHelper t × Bool :=
  ({ s with hasTarget := false }, true)

def call (s : ModeTargetHelper t) : TargetCall → ModeTargetHelper t × Bool
  | .setTarget val => s.setTarget val
  | .start => s.start

/-- The helper after a history of calls, newest first, from what the memory held. -/
def after (memory : ModeTargetHelper t) : List TargetCall → ModeTargetHelper t
  | [] => memory
  | c :: h => ((after memory h).call c).1

/-- What the modes keep of it. -/
def toTargetHelper (s : ModeTargetHelper t) : TargetHelper := ⟨s.target, s.hasTarget⟩

end ModeTargetHelper

/-! ## What is asked of it -/

/-- `<=` of the values of a `double`. -/
def Double.le : Double → Double → Bool
  | .nan, _ => false
  | _, .nan => false
  | .inf true, _ => true
  | _, .inf false => true
  | .fin p, .fin q => p ≤ q
  | _, _ => false

/-- The value that a call sets, unless it is a NaN. -/
def TargetCall.value : TargetCall → Option Double
  | .setTarget val => if val = .nan then none else some val
  | .start => none

/-- A value has been set since the last call of `start`, or since the beginning. -/
def setSinceStart (h : List TargetCall) : Bool :=
  since (fun c => decide (c ≠ .start)) (fun c => c.value.isSome) h

/-- After the calls, the target is that of the last value, clamped to the type; there is a target
when one has been set since the last `start`, and none before the first; a NaN is all that is
refused, and changes nothing; and the target is a monotone function of the value. -/
structure Saturates {t : IntType} (memory : ModeTargetHelper t) (h : List TargetCall) :
    Prop where
  target : ∀ val, h.findSome? TargetCall.value = some val →
    numericCast (limitsOf t) val = some (memory.after h).target.1
  hasTarget : (memory.after h).hasTarget = true ↔ .start ∈ h ∧ setSinceStart h = true
  refuses : ∀ val, ((memory.after h).setTarget val).2 = false ↔ val = .nan
  unchanged : ((memory.after h).setTarget .nan).1 = memory.after h
  mono : ∀ v w : Double, v.le w = true →
    ((memory.after h).setTarget v).1.target.1 ≤ ((memory.after h).setTarget w).1.target.1

/-! ## A call -/

section Calls
variable {t : IntType} {s : ModeTargetHelper t} {val : Double}

/-- Catching the overflows clamps. -/
theorem exists_setTarget (s : ModeTargetHelper t) (hval : val ≠ .nan) :
    ∃ n : t.Number, numericCast (limitsOf t) val = some n.1 ∧
      s.setTarget val = (⟨n, true⟩, true) := by
  rw [ModeTargetHelper.setTarget, if_neg hval]
  cases val with
  | nan => exact absurd rfl hval
  | inf negative =>
      cases negative with
      | true => exact ⟨t.lowest, rfl, rfl⟩
      | false => exact ⟨t.highest, rfl, rfl⟩
  | fin q =>
      have hclamp := clamp_eq_ite t.min_le_max (truncate q)
      by_cases hfits : t.Fits (truncate q)
      · refine ⟨⟨truncate q, hfits⟩, congrArg some ?_, by simp [boostNumericCast, hfits]⟩
        exact hclamp.trans (by rw [if_neg hfits.1.not_gt, if_neg hfits.2.not_gt])
      · by_cases hlow : truncate q < t.min
        · refine ⟨t.lowest, congrArg some ?_, by simp [boostNumericCast, hfits, hlow]⟩
          exact hclamp.trans (if_pos hlow)
        · have hhigh : t.max < truncate q := by
            by_contra hle
            exact hfits ⟨not_lt.mp hlow, not_lt.mp hle⟩
          refine ⟨t.highest, congrArg some ?_, by simp [boostNumericCast, hfits, hlow]⟩
          exact hclamp.trans (by rw [if_neg hlow, if_pos hhigh]; rfl)

@[simp] theorem setTarget_nan (s : ModeTargetHelper t) : s.setTarget .nan = (s, false) := rfl

/-- **The helper is the one of the modes**, for a target of the type. -/
theorem setTarget_toTargetHelper (s : ModeTargetHelper t) (val : Double) :
    ((s.setTarget val).1.toTargetHelper, (s.setTarget val).2) =
      s.toTargetHelper.setTarget (limitsOf t) val := by
  by_cases hval : val = .nan
  · subst hval
    rfl
  · obtain ⟨n, hn, hset⟩ := exists_setTarget s hval
    rw [hset, TargetHelper.setTarget, hn]
    rfl

theorem start_toTargetHelper (s : ModeTargetHelper t) :
    s.start.1.toTargetHelper = s.toTargetHelper.start := rfl

theorem setTarget_eq_false_iff (s : ModeTargetHelper t) :
    (s.setTarget val).2 = false ↔ val = .nan := by
  by_cases hval : val = .nan
  · simp [hval]
  · obtain ⟨n, -, hset⟩ := exists_setTarget s hval
    simp [hset, hval]

/-- The converted target is a monotone function of the value. -/
theorem numericCast_mono {v w : Double} (hle : v.le w = true) {m n : ℤ}
    (hm : numericCast (limitsOf t) v = some m) (hn : numericCast (limitsOf t) w = some n) :
    m ≤ n := by
  have hlow : ∀ a : ℤ, t.min ≤ clamp t.min t.max a := fun a => le_max_left _ _
  have hhigh : ∀ a : ℤ, clamp t.min t.max a ≤ t.max := fun a =>
    max_le t.min_le_max (min_le_left _ _)
  cases v with
  | nan => cases hm
  | inf negative =>
      cases negative with
      | true =>
          obtain rfl : t.min = m := Option.some.inj hm
          cases w with
          | nan => cases hn
          | inf negative =>
              cases negative with
              | true => exact (Option.some.inj hn).le
              | false => exact t.min_le_max.trans (Option.some.inj hn).le
          | fin q => exact (hlow _).trans (Option.some.inj hn).le
      | false =>
          obtain rfl : t.max = m := Option.some.inj hm
          cases w with
          | nan => cases hn
          | inf negative =>
              cases negative with
              | true => cases hle
              | false => exact (Option.some.inj hn).le
          | fin q => cases hle
  | fin p =>
      obtain rfl := Option.some.inj hm
      cases w with
      | nan => cases hn
      | inf negative =>
          cases negative with
          | true => cases hle
          | false => exact (hhigh _).trans (Option.some.inj hn).le
      | fin q =>
          have hpq : p ≤ q := of_decide_eq_true hle
          exact (clamp_mono _ _ (truncate_mono hpq)).trans (Option.some.inj hn).le

theorem setTarget_mono (s : ModeTargetHelper t) {v w : Double} (hle : v.le w = true) :
    (s.setTarget v).1.target.1 ≤ (s.setTarget w).1.target.1 := by
  have hv : v ≠ .nan := by
    rintro rfl
    cases hle
  have hw : w ≠ .nan := by
    rintro rfl
    cases v with
    | nan => cases hle
    | inf negative => cases negative <;> cases hle
    | fin q => cases hle
  obtain ⟨m, hm, hsetv⟩ := exists_setTarget s hv
  obtain ⟨n, hn, hsetw⟩ := exists_setTarget s hw
  rw [hsetv, hsetw]
  exact numericCast_mono hle hm hn

end Calls

/-! ## A history of calls -/

section Histories
variable {t : IntType} {memory : ModeTargetHelper t} {h : List TargetCall}

/-- There is a target since a value was set, or what the memory held before the first `start`. -/
theorem hasTarget_after (memory : ModeTargetHelper t) (h : List TargetCall) :
    (memory.after h).hasTarget =
      (setSinceStart h || (decide (.start ∉ h) && memory.hasTarget)) := by
  induction h with
  | nil => simp [ModeTargetHelper.after, setSinceStart]
  | cons c h ih =>
      cases c with
      | start => simp [ModeTargetHelper.after, ModeTargetHelper.call, ModeTargetHelper.start,
          setSinceStart, TargetCall.value]
      | setTarget val =>
          by_cases hval : val = .nan
          · subst hval
            simpa [ModeTargetHelper.after, ModeTargetHelper.call, setSinceStart,
              TargetCall.value] using ih
          · obtain ⟨n, -, hset⟩ := exists_setTarget (memory.after h) hval
            simp [ModeTargetHelper.after, ModeTargetHelper.call, hset, setSinceStart,
              TargetCall.value, hval]

/-- The target is that of the last value. -/
theorem target_after (memory : ModeTargetHelper t) (h : List TargetCall) {val : Double}
    (hlast : h.findSome? TargetCall.value = some val) :
    numericCast (limitsOf t) val = some (memory.after h).target.1 := by
  induction h with
  | nil => cases hlast
  | cons c h ih =>
      cases c with
      | start => exact ih hlast
      | setTarget v =>
          by_cases hv : v = .nan
          · subst hv
            exact ih hlast
          · obtain ⟨n, hn, hset⟩ := exists_setTarget (memory.after h) hv
            have hval : v = val := by simpa [TargetCall.value, hv] using hlast
            rw [← hval, hn]
            simp only [ModeTargetHelper.after, ModeTargetHelper.call, hset]

/-- Without a `start`, a value has been set since the beginning iff there is a last one. -/
theorem setSinceStart_of_not_mem (hstart : TargetCall.start ∉ h) :
    setSinceStart h = (h.findSome? TargetCall.value).isSome := by
  induction h with
  | nil => rfl
  | cons c h ih =>
      have hc : c ≠ .start := fun heq => hstart (heq ▸ List.mem_cons_self)
      have ih := ih fun hmem => hstart (List.mem_cons_of_mem _ hmem)
      rw [setSinceStart] at ih ⊢
      cases hvalue : c.value with
      | none => simpa [hc, hvalue] using ih
      | some v => simp [hvalue]

/-- All but the flag is as it should be after any calls. -/
theorem saturates_of_flag
    (hflag : (memory.after h).hasTarget = true ↔ .start ∈ h ∧ setSinceStart h = true) :
    Saturates memory h where
  target _ hlast := target_after memory h hlast
  hasTarget := hflag
  refuses _ := setTarget_eq_false_iff _
  unchanged := by rw [setTarget_nan]
  mono _ _ hle := setTarget_mono _ hle

end Histories

/-- **The target saturates, and the flag tells of it, once `start` has been called.**  Before
that, only if the memory of the flag happened to be false and no value has been set. -/
theorem targets_saturate_iff {t : IntType} (memory : ModeTargetHelper t) (h : List TargetCall) :
    Saturates memory h ↔ .start ∈ h ∨
      memory.hasTarget = false ∧ ∀ c ∈ h, c.value = none := by
  have hflag := hasTarget_after memory h
  by_cases hstart : TargetCall.start ∈ h
  · have hkept : (memory.after h).hasTarget = setSinceStart h := by simpa [hstart] using hflag
    exact iff_of_true (saturates_of_flag (by simp [hkept, hstart])) (.inl hstart)
  · have hnone : setSinceStart h = false ↔ ∀ c ∈ h, c.value = none := by
      rw [setSinceStart_of_not_mem hstart, Option.isSome_eq_false_iff, Option.isNone_iff_eq_none,
        List.findSome?_eq_none_iff]
    constructor
    · intro hsaturates
      have hfalse : (memory.after h).hasTarget = false := by
        rw [Bool.eq_false_iff]
        exact fun htrue => hstart (hsaturates.hasTarget.mp htrue).1
      rw [hflag, Bool.or_eq_false_iff, hnone] at hfalse
      exact .inr ⟨by simpa [hstart] using hfalse.2, hfalse.1⟩
    · intro hquiet
      obtain ⟨hmemory, hvalues⟩ := hquiet.resolve_left hstart
      have hfalse : (memory.after h).hasTarget = false := by
        rw [hflag, hnone.mpr hvalues, hmemory]
        simp
      exact saturates_of_flag (by simp [hfalse, hstart])

/-- The helper is made where the memory of the flag is not zero. -/
theorem uninitialised_target : ¬ Saturates (t := ⟨true, 16⟩) ⟨IntType.highest _, true⟩ [] := by
  intro hsaturates
  have hstarted := (hsaturates.hasTarget.mp rfl).1
  cases hstarted

end RosCanopen.Cia402
