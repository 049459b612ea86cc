import RosCanopen.Lib.Cast
import RosCanopen.Lib.Kinematics
import Mathlib.Tactic.FieldSimp
import Mathlib.Tactic.LinearCombination
import Mathlib.Analysis.Real.Sqrt

/-!
# The motion generator of the fake slave

`MotionGenerator` moves to a set point at limited speed and acceleration: it brakes if it
has to, accelerates, cruises and decelerates, or decelerates at once if the way is short.
An `update` with a new set point plans from where the last one has left off; the others
evaluate the plan at the time since then.

The `abs` of the source is that of `int`, so that a plan covers whole units only.  The
profiled position mode makes a generator for each move, at rest, and gives it one set point:
then the plan falls short of the set point by the fraction of a unit, and the update after
its end makes up for it.

Numbers are those of any ordered field with a floor, and `sqrt` is any function with the
property of a square root, so the results are about the formulas, not about their rounding.

## Main definitions

* `MotionGenerator` — the members.
* `MotionGenerator.replan`, `calculateTrapezoidalProfile`, `update` — as in the source.
* `MotionGenerator.segments` — the plan as segments of constant acceleration.
* `run_profiled_position_move`, `wholeUnits` — a move, and where its plan ends.
-/

namespace RosCanopen.Cia402

open Lib

/-- The members of `MotionGenerator`. -/
structure MotionGenerator (K : Type*) where
  maxVel : K
  maxAcc : K
  initPos : K
  pos : K
  vel : K
  acc : K
  oldPos : K
  oldPosRef : K
  oldVel : K
  dBrk : K
  dAcc : K
  dVel : K
  dDec : K
  dTot : K
  tBrk : K
  tAcc : K
  tVel : K
  tDec : K
  velSt : K
  oldTime : K
  lastTime : K
  deltaTime : K
  /-- 1 = positive change, -1 = negative change. -/
  signM : ℤ
  /-- true = trapezoidal, false = triangular. -/
  shape : Bool
  isFinished : Bool

namespace MotionGenerator

section Model

-- one proof for the numeral in all the halves
local instance atLeastTwo_two : Nat.AtLeastTwo 2 := inferInstance

variable {K : Type*} [Field K] [LinearOrder K]

section Update
variable [FloorRing K]

/-- `abs`, unqualified: the one of `int`, to which a `double` is converted. -/
def intAbs (aVal : K) : K := (|truncate aVal| : ℤ)

/-- `sign`. -/
def sign (aVal : K) : ℤ := if aVal < 0 then -1 else if 0 < aVal then 1 else 0

/-- The constructor, at a time. -/
def construct (aMaxVel aMaxAcc aInitPos time : K) : MotionGenerator K where
  maxVel := aMaxVel
  maxAcc := aMaxAcc
  initPos := aInitPos
  pos := aInitPos
  vel := 0
  acc := 0
  oldPos := aInitPos
  oldPosRef := aInitPos
  oldVel := 0
  dBrk := 0
  dAcc := 0
  dVel := 0
  dDec := 0
  dTot := 0
  tBrk := 0
  tAcc := 0
  tVel := 0
  tDec := 0
  velSt := 0
  oldTime := time
  lastTime := time
  deltaTime := 0
  signM := 1
  shape := true
  isFinished := false

/-- Shift the state variables. -/
def shift (g : MotionGenerator K) (posRef : K) : MotionGenerator K :=
  { g with
    isFinished := false
    oldPosRef := posRef
    oldPos := g.pos
    oldVel := g.vel
    oldTime := g.lastTime }

/-- Braking time and distance, the sign of the motion, and the acceleration to full speed. -/
def planBraking (g : MotionGenerator K) (posRef : K) : MotionGenerator K :=
  let tBrk := intAbs g.oldVel / g.maxAcc
  let dBrk := tBrk * intAbs g.oldVel / 2
  let signM := sign (posRef - (g.oldPos + sign g.oldVel * dBrk))
  if signM ≠ sign g.oldVel then  -- means brake is needed
    let tAcc := g.maxVel / g.maxAcc
    { g with tBrk := tBrk, dBrk := dBrk, signM := signM, tAcc := tAcc,
             dAcc := tAcc * (g.maxVel / 2) }
  else
    let tAcc := (g.maxVel - intAbs g.oldVel) / g.maxAcc
    { g with tBrk := 0, dBrk := 0, signM := signM, tAcc := tAcc,
             dAcc := tAcc * (g.maxVel + intAbs g.oldVel) / 2 }

/-- The total distance after braking, and what is left for full speed. -/
def planCruise (g : MotionGenerator K) (posRef : K) : MotionGenerator K :=
  let dTot := intAbs (posRef - g.oldPos + g.signM * g.dBrk)
  let tDec := g.maxVel / g.maxAcc
  let dDec := tDec * g.maxVel / 2
  let dVel := dTot - (g.dAcc + dDec)
  { g with dTot := dTot, tDec := tDec, dDec := dDec, dVel := dVel, tVel := dVel / g.maxVel }

/-- Recalculate distances and periods of a motion without cruise. -/
def planTriangle (sqrt : K → K) (g : MotionGenerator K) (posRef : K) : MotionGenerator K :=
  let g :=
    if g.signM ≠ sign g.oldVel then  -- means brake is needed
      let velSt := sqrt (g.maxAcc * g.dTot)
      let tAcc := velSt / g.maxAcc
      { g with velSt := velSt, tAcc := tAcc, dAcc := tAcc * (velSt / 2) }
    else
      let dTot := intAbs (posRef - g.oldPos)
      let velSt := sqrt (g.oldVel * g.oldVel / 2 + g.maxAcc * dTot)
      let tAcc := (velSt - intAbs g.oldVel) / g.maxAcc
      { g with tBrk := 0, dBrk := 0, dTot := dTot, velSt := velSt, tAcc := tAcc,
               dAcc := tAcc * (velSt + intAbs g.oldVel) / 2 }
  let tDec := g.velSt / g.maxAcc
  { g with shape := false, tDec := tDec, dDec := tDec * g.velSt / 2 }

/-- The reference changed. -/
def replan (sqrt : K → K) (g : MotionGenerator K) (posRef : K) : MotionGenerator K :=
  let g := ((g.shift posRef).planBraking posRef).planCruise posRef
  if 0 < g.tVel then { g with shape := true } else g.planTriangle sqrt posRef

/-- The set point is reached. -/
def arrive (g : MotionGenerator K) (posRef : K) : MotionGenerator K :=
  { g with pos := posRef, vel := 0, acc := 0, isFinished := true }

/-- `calculateTrapezoidalProfile`. -/
def calculateTrapezoidalProfile (g : MotionGenerator K) (posRef : K) : MotionGenerator K :=
  let t := g.deltaTime
  let accelerating : MotionGenerator K :=
    { g with
      pos := g.oldPos + g.oldVel * t + g.signM * g.maxAcc * t * t / 2
      vel := g.oldVel + g.signM * g.maxAcc * t
      acc := g.signM * g.maxAcc }
  if g.shape then
    let tRun := t - g.tBrk - g.tAcc
    let tEnd := tRun - g.tVel
    if t ≤ g.tBrk + g.tAcc then accelerating
    else if g.tBrk + g.tAcc < t ∧ t < g.tBrk + g.tAcc + g.tVel then
      { g with
        pos := g.oldPos + g.signM * (-g.dBrk + g.dAcc + g.maxVel * tRun)
        vel := g.signM * g.maxVel
        acc := 0 }
    else if g.tBrk + g.tAcc + g.tVel ≤ t ∧ t < g.tBrk + g.tAcc + g.tVel + g.tDec then
      { g with
        pos := g.oldPos + g.signM *
          (-g.dBrk + g.dAcc + g.dVel + g.maxVel * tEnd - g.maxAcc * tEnd * tEnd / 2)
        vel := g.signM * (g.maxVel - g.maxAcc * tEnd)
        acc := -g.signM * g.maxAcc }
    else g.arrive posRef
  else
    let tEnd := t - g.tBrk - g.tAcc
    if t ≤ g.tBrk + g.tAcc then accelerating
    else if g.tBrk + g.tAcc < t ∧ t < g.tBrk + g.tAcc + g.tDec then
      { g with
        pos := g.oldPos + g.signM *
          (-g.dBrk + g.dAcc + g.velSt * tEnd - g.maxAcc * tEnd * tEnd / 2)
        vel := g.signM * (g.velSt - g.maxAcc * tEnd)
        acc := -g.signM * g.maxAcc }
    else g.arrive posRef

/-- Calculate the new set point, at a time, and update the last time. -/
def advance (g : MotionGenerator K) (posRef time : K) : MotionGenerator K :=
  let g := { g with deltaTime := time - g.oldTime }
  { g.calculateTrapezoidalProfile posRef with lastTime := time }

/-- `update`, at a time; the position that it returns is the member `pos`. -/
def update (sqrt : K → K) (g : MotionGenerator K) (posRef time : K) : MotionGenerator K :=
  if g.oldPosRef ≠ posRef then  -- reference changed
    (g.replan sqrt posRef).advance posRef time
  else g.advance posRef time

end Update

/-! ## Plans from rest -/

section Plan
variable {g : MotionGenerator K} {p : K}

/-- Position and velocity. -/
def motion (g : MotionGenerator K) : Motion K := ⟨g.pos, g.vel⟩

/-- Where the plan starts. -/
def start (g : MotionGenerator K) : Motion K := ⟨g.oldPos, g.oldVel⟩

/-- Where the plan ends. -/
def goal (g : MotionGenerator K) : K := g.oldPos + g.signM * g.dTot

/-- The plan after the acceleration: cruise unless the way is short, and decelerate. -/
def slowing (g : MotionGenerator K) : List (Segment K) :=
  (if g.shape then [⟨g.tVel, 0⟩] else []) ++ [⟨g.tDec, -(g.signM * g.maxAcc)⟩]

/-- The plan. -/
def segments (g : MotionGenerator K) : List (Segment K) :=
  ⟨g.tAcc, g.signM * g.maxAcc⟩ :: g.slowing

/-- How long the plan takes. -/
def planned (g : MotionGenerator K) : K :=
  g.tBrk + g.tAcc + (if g.shape then g.tVel else 0) + g.tDec

/-- The end of the braking and the acceleration has passed, and that of the plan. -/
def Over (g : MotionGenerator K) (t : K) : Prop := g.tBrk + g.tAcc < t ∧ g.planned ≤ t

/-- The plan starts at rest, has the peak `p`, and covers the distance `dTot`. -/
structure Planned (g : MotionGenerator K) (p : K) : Prop where
  direction : |(g.signM : K)| ≤ 1
  rest : g.oldVel = 0
  tBrk : g.tBrk = 0
  dBrk : g.dBrk = 0
  tAcc : 0 ≤ g.tAcc
  tVel : g.shape = true → 0 ≤ g.tVel
  tDec : 0 ≤ g.tDec
  speed : g.maxAcc * g.tAcc = p
  way : p * g.tAcc / 2 = g.dAcc
  cruise : g.shape = true → g.dVel = p * g.tVel
  slow : p = g.maxAcc * g.tDec
  total : g.dAcc + (if g.shape then g.dVel else 0) + p * g.tDec / 2 = g.dTot
  peak_nonneg : 0 ≤ p
  peak_le : p ≤ g.maxVel
  peakVel : g.shape = true → p = g.maxVel
  peakSt : g.shape = false → p = g.velSt

theorem Planned.durations (hp : g.Planned p) : ∀ seg ∈ g.segments, 0 ≤ seg.duration := by
  intro seg hseg
  have htVel := hp.tVel
  cases hshape : g.shape <;>
    simp only [segments, slowing, hshape, if_true, List.mem_cons, List.nil_append,
      List.cons_append, List.not_mem_nil, or_false, Bool.false_eq_true, if_false] at hseg
  · rcases hseg with rfl | rfl
    · exact hp.tAcc
    · exact hp.tDec
  · rcases hseg with rfl | rfl | rfl
    · exact hp.tAcc
    · exact htVel hshape
    · exact hp.tDec

theorem Planned.durations_slowing (hp : g.Planned p) : ∀ seg ∈ g.slowing, 0 ≤ seg.duration :=
  fun seg hseg => hp.durations seg (List.mem_cons_of_mem _ hseg)

variable [IsStrictOrderedRing K]

/-- The end of the acceleration. -/
theorem Planned.accelerated (hp : g.Planned p) :
    Segment.finish ⟨g.tAcc, g.signM * g.maxAcc⟩ g.start =
      ⟨g.oldPos + g.signM * g.dAcc, g.signM * p⟩ := by
  have hway := hp.way
  have hspeed := hp.speed
  ext
  · simp only [Segment.finish, Segment.after, start, hp.rest]
    linear_combination (g.signM : K) * hway + (g.signM : K) * g.tAcc / 2 * hspeed
  · simp only [Segment.finish, Segment.after, start, hp.rest]
    linear_combination (g.signM : K) * hspeed

/-- **The plan ends at rest, the distance away.** -/
theorem Planned.finalMotion_eq (hp : g.Planned p) :
    finalMotion g.segments g.start = ⟨g.goal, 0⟩ := by
  have htotal := hp.total
  have hslow := hp.slow
  cases hshape : g.shape
  · simp only [segments, slowing, hshape, Bool.false_eq_true, if_false, List.nil_append,
      finalMotion, hp.accelerated]
    rw [hshape, if_neg Bool.false_ne_true] at htotal
    ext
    · simp only [Segment.finish, Segment.after, goal]
      linear_combination (g.signM : K) * htotal + (g.signM : K) * g.tDec / 2 * hslow
    · simp only [Segment.finish, Segment.after]
      linear_combination (g.signM : K) * hslow
  · simp only [segments, slowing, hshape, if_true, List.cons_append, List.nil_append, finalMotion,
      hp.accelerated]
    have hcruise := hp.cruise hshape
    rw [hshape, if_pos rfl] at htotal
    ext
    · simp only [Segment.finish, Segment.after, goal]
      linear_combination (g.signM : K) * htotal + (g.signM : K) * g.tDec / 2 * hslow -
        (g.signM : K) * hcruise
    · simp only [Segment.finish, Segment.after]
      linear_combination (g.signM : K) * hslow

/-- The motion has one direction, and its speed is at most the peak. -/
theorem Planned.stations_segments (hp : g.Planned p) :
    ∀ x ∈ stations g.segments g.start, ∃ y, 0 ≤ y ∧ y ≤ p ∧ x.vel = g.signM * y := by
  intro x hx
  have hslowed : ∀ m : Motion K, m.vel = g.signM * p →
      (Segment.finish ⟨g.tDec, -(g.signM * g.maxAcc)⟩ m).vel = g.signM * 0 := by
    intro m hm
    simp only [Segment.finish, Segment.after, hm]
    linear_combination (g.signM : K) * hp.slow
  have hstart : g.start.vel = g.signM * 0 := by rw [start, hp.rest, mul_zero]
  have haccelerated : (Segment.finish ⟨g.tAcc, g.signM * g.maxAcc⟩ g.start).vel = g.signM * p := by
    rw [hp.accelerated]
  cases hshape : g.shape
  · simp only [segments, slowing, hshape, Bool.false_eq_true, if_false, List.nil_append, stations,
      List.mem_cons, List.not_mem_nil, or_false] at hx
    rcases hx with rfl | rfl | rfl
    · exact ⟨0, le_rfl, hp.peak_nonneg, hstart⟩
    · exact ⟨_, hp.peak_nonneg, le_rfl, haccelerated⟩
    · exact ⟨0, le_rfl, hp.peak_nonneg, hslowed _ haccelerated⟩
  · simp only [segments, slowing, hshape, if_true, List.cons_append, List.nil_append, stations,
      List.mem_cons, List.not_mem_nil, or_false] at hx
    have hcruised : (Segment.finish ⟨g.tVel, 0⟩
        (Segment.finish ⟨g.tAcc, g.signM * g.maxAcc⟩ g.start)).vel = g.signM * p := by
      rw [Segment.finish, Segment.after, zero_mul, add_zero, haccelerated]
    rcases hx with rfl | rfl | rfl | rfl
    · exact ⟨0, le_rfl, hp.peak_nonneg, hstart⟩
    · exact ⟨_, hp.peak_nonneg, le_rfl, haccelerated⟩
    · exact ⟨_, hp.peak_nonneg, le_rfl, hcruised⟩
    · exact ⟨0, le_rfl, hp.peak_nonneg, hslowed _ hcruised⟩

/-- The speed stays within the limit. -/
theorem Planned.stations_mem (hp : g.Planned p) :
    ∀ x ∈ stations g.segments g.start, -g.maxVel ≤ x.vel ∧ x.vel ≤ g.maxVel := by
  intro x hx
  obtain ⟨y, hy, hyp, hxy⟩ := hp.stations_segments x hx
  rw [hxy]
  refine abs_le.mp ?_
  calc |(g.signM : K) * y| = |(g.signM : K)| * |y| := abs_mul _ _
    _ ≤ 1 * |y| := mul_le_mul_of_nonneg_right hp.direction (abs_nonneg y)
    _ ≤ g.maxVel := by rw [one_mul, abs_of_nonneg hy]; exact hyp.trans hp.peak_le

/-- The position never turns back, nor passes the end of the plan. -/
theorem Planned.pos_mem (hp : g.Planned p) {t t' : K} (ht : 0 ≤ t) (htt' : t ≤ t') :
    (follow g.segments g.start t').pos ∈ Set.uIcc (follow g.segments g.start t).pos g.goal := by
  have hstations := hp.stations_segments
  -- the end of the plan, or the later of the two times
  obtain ⟨e, hte, hend⟩ : ∃ e, t' ≤ e ∧ (follow g.segments g.start e).pos = g.goal := by
    refine ⟨max t' (totalDuration g.segments), le_max_left _ _, ?_⟩
    rw [follow_of_totalDuration_le hp.durations (le_max_right _ _), hp.finalMotion_eq]
  rw [← hend]
  by_cases hsign : 0 ≤ (g.signM : K)
  · -- forwards
    have hbounds : ∀ x ∈ stations g.segments g.start, 0 ≤ x.vel ∧ x.vel ≤ p := by
      intro x hx
      obtain ⟨y, hy, hyp, hxy⟩ := hstations x hx
      rw [hxy]
      exact ⟨mul_nonneg hsign hy,
        (mul_le_of_le_one_left hy ((le_abs_self _).trans hp.direction)).trans hyp⟩
    have hfirst := pos_follow_sub_mem le_rfl hp.peak_nonneg hbounds hp.durations ht htt'
    have hsecond := pos_follow_sub_mem le_rfl hp.peak_nonneg hbounds hp.durations (ht.trans htt')
      hte
    refine Set.mem_uIcc.mpr (Or.inl ⟨?_, ?_⟩)
    · linarith [hfirst.1]
    · linarith [hsecond.1]
  · -- backwards
    have hneg := (lt_of_not_ge hsign).le
    have hbounds : ∀ x ∈ stations g.segments g.start, -p ≤ x.vel ∧ x.vel ≤ 0 := by
      intro x hx
      obtain ⟨y, hy, hyp, hxy⟩ := hstations x hx
      rw [hxy]
      refine ⟨?_, mul_nonpos_of_nonpos_of_nonneg hneg hy⟩
      have hone : -1 ≤ (g.signM : K) := (abs_le.mp hp.direction).1
      have hlow := mul_le_mul_of_nonneg_right hone hy
      linarith
    have hpeak := neg_nonpos.mpr hp.peak_nonneg
    have hfirst := pos_follow_sub_mem hpeak le_rfl hbounds hp.durations ht htt'
    have hsecond := pos_follow_sub_mem hpeak le_rfl hbounds hp.durations (ht.trans htt') hte
    refine Set.mem_uIcc.mpr (Or.inr ⟨?_, ?_⟩)
    · linarith [hsecond.2]
    · linarith [hfirst.2]

end Plan

/-! ## The profile -/

section Profile
variable [IsStrictOrderedRing K] {g : MotionGenerator K} {p : K}

/-- When the plan is over the generator is at rest at the set point. -/
theorem Planned.profile_over (hp : g.Planned p) (posRef : K) (hover : g.Over g.deltaTime) :
    g.calculateTrapezoidalProfile posRef = g.arrive posRef := by
  obtain ⟨hlate, hend⟩ := hover
  have hearly : ¬ g.deltaTime ≤ g.tBrk + g.tAcc := not_le.mpr hlate
  have htDec := hp.tDec
  cases hshape : g.shape
  · rw [planned, hshape, if_neg Bool.false_ne_true, add_zero] at hend
    simp only [calculateTrapezoidalProfile, hshape, Bool.false_eq_true, if_false, if_neg hearly,
      hlate, true_and, if_neg (not_lt.mpr hend)]
  · rw [planned, hshape, if_pos rfl] at hend
    have hcruise : g.tBrk + g.tAcc + g.tVel ≤ g.deltaTime := by linarith
    simp only [calculateTrapezoidalProfile, hshape, if_true, if_neg hearly, hlate, true_and,
      if_neg (not_lt.mpr hcruise), hcruise, if_neg (not_lt.mpr hend)]

/-- **Before that, the profile is the plan.**  What `calculateTrapezoidalProfile` computes in
closed form is the motion of the segments. -/
theorem Planned.profile (hp : g.Planned p) (posRef : K) (hover : ¬ g.Over g.deltaTime) :
    (g.calculateTrapezoidalProfile posRef).motion = follow g.segments g.start g.deltaTime ∧
      (g.calculateTrapezoidalProfile posRef).isFinished = g.isFinished := by
  have htBrk := hp.tBrk
  have hdBrk := hp.dBrk
  by_cases hearly : g.deltaTime ≤ g.tBrk + g.tAcc
  · have hfirst : g.deltaTime ≤ g.tAcc := by rwa [htBrk, zero_add] at hearly
    rw [segments, follow, if_pos hfirst]
    simp only [calculateTrapezoidalProfile, if_pos hearly]
    cases g.shape
    · exact ⟨rfl, rfl⟩
    · exact ⟨rfl, rfl⟩
  · have hlate := lt_of_not_ge hearly
    have hbefore : g.deltaTime < g.planned := lt_of_not_ge fun h => hover ⟨hlate, h⟩
    have hfirst : g.tAcc ≤ g.deltaTime := by
      rw [htBrk, zero_add] at hlate
      exact hlate.le
    rw [segments, follow_cons_of_le hp.durations_slowing hfirst, hp.accelerated]
    cases hshape : g.shape
    · rw [planned, hshape, if_neg Bool.false_ne_true, add_zero] at hbefore
      have hle : g.deltaTime - g.tAcc ≤ g.tDec := by linarith
      simp only [calculateTrapezoidalProfile, slowing, hshape, Bool.false_eq_true, if_false,
        if_neg hearly, hlate, true_and, if_pos hbefore, List.nil_append, follow, if_pos hle]
      rw [← hp.peakSt hshape, htBrk, hdBrk]
      refine ⟨?_, trivial⟩
      ext
      · simp only [motion, Segment.after]; ring
      · simp only [motion, Segment.after]; ring
    · rw [planned, hshape, if_pos rfl] at hbefore
      have hcruiseWay := hp.cruise hshape
      have hlast : ∀ seg ∈ [(⟨g.tDec, -(g.signM * g.maxAcc)⟩ : Segment K)], 0 ≤ seg.duration := by
        intro seg hseg
        rw [List.mem_singleton.mp hseg]
        exact hp.tDec
      simp only [calculateTrapezoidalProfile, slowing, hshape, if_true, if_neg hearly, hlate,
        true_and, List.cons_append, List.nil_append]
      rw [← hp.peakVel hshape]
      by_cases hcruise : g.deltaTime < g.tBrk + g.tAcc + g.tVel
      · have hle : g.deltaTime - g.tAcc ≤ g.tVel := by linarith
        rw [if_pos hcruise, follow, if_pos hle, htBrk, hdBrk]
        refine ⟨?_, rfl⟩
        ext
        · simp only [motion, Segment.after]; ring
        · simp only [motion, Segment.after]; ring
      · have hge := le_of_not_gt hcruise
        have hsecond : g.tVel ≤ g.deltaTime - g.tAcc := by linarith
        have hle : g.deltaTime - g.tAcc - g.tVel ≤ g.tDec := by linarith
        rw [if_neg hcruise, if_pos ⟨hge, hbefore⟩, follow_cons_of_le hlast hsecond, follow,
          if_pos hle, hcruiseWay, htBrk, hdBrk]
        refine ⟨?_, rfl⟩
        ext
        · simp only [motion, Segment.finish, Segment.after]; ring
        · simp only [motion, Segment.finish, Segment.after]; ring

end Profile

/-! ## Planning -/

section Sign
variable {u : K}

theorem sign_pos (hu : 0 < u) : sign u = 1 := by
  simp [sign, hu, not_lt.mpr hu.le]

theorem sign_neg (hu : u < 0) : sign u = -1 := by
  simp [sign, hu]

variable [IsStrictOrderedRing K]

end Sign

section IntAbs
variable [FloorRing K] [IsStrictOrderedRing K]

end IntAbs

section Replan
variable [FloorRing K] {sqrt : K → K} {g : MotionGenerator K} {posRef : K}

variable [IsStrictOrderedRing K]

end Replan

/-! ## Following a plan -/

section Tracking
variable {g : MotionGenerator K} {p time : K}

/-- The profile writes nothing of the plan. -/
theorem calculateTrapezoidalProfile_eq (g : MotionGenerator K) (posRef : K) :
    ∃ pos vel acc isFinished, g.calculateTrapezoidalProfile posRef =
      { g with pos := pos, vel := vel, acc := acc, isFinished := isFinished } := by
  simp only [calculateTrapezoidalProfile, arrive]
  split
  · split
    · exact ⟨_, _, _, _, rfl⟩
    · split
      · exact ⟨_, _, _, _, rfl⟩
      · split
        · exact ⟨_, _, _, _, rfl⟩
        · exact ⟨_, _, _, _, rfl⟩
  · split
    · exact ⟨_, _, _, _, rfl⟩
    · split
      · exact ⟨_, _, _, _, rfl⟩
      · exact ⟨_, _, _, _, rfl⟩

theorem advance_eq (g : MotionGenerator K) (posRef time : K) :
    ∃ pos vel acc isFinished, g.advance posRef time =
      { g with pos := pos, vel := vel, acc := acc, deltaTime := time - g.oldTime,
               lastTime := time, isFinished := isFinished } := by
  obtain ⟨pos, vel, acc, isFinished, heq⟩ := calculateTrapezoidalProfile_eq
    { g with deltaTime := time - g.oldTime } posRef
  refine ⟨pos, vel, acc, isFinished, ?_⟩
  rw [advance, heq]

theorem Planned.moved (hp : g.Planned p) (pos vel acc deltaTime lastTime : K)
    (isFinished : Bool) :
    Planned { g with pos := pos, vel := vel, acc := acc, deltaTime := deltaTime,
                     lastTime := lastTime, isFinished := isFinished } p :=
  ⟨hp.direction, hp.rest, hp.tBrk, hp.dBrk, hp.tAcc, hp.tVel, hp.tDec, hp.speed, hp.way,
    hp.cruise, hp.slow, hp.total, hp.peak_nonneg, hp.peak_le, hp.peakVel, hp.peakSt⟩

/-- The plan is followed, and not over. -/
structure Tracking (g : MotionGenerator K) : Prop where
  planned : ∃ p, g.Planned p
  times : g.oldTime ≤ g.lastTime
  motion : g.motion = follow g.segments g.start (g.lastTime - g.oldTime)
  running : g.isFinished = false

variable [IsStrictOrderedRing K]

/-- An update after the end of the plan ends the move. -/
theorem Tracking.advance_over (ht : g.Tracking) (posRef : K) (hover : g.Over (time - g.oldTime)) :
    (g.advance posRef time).motion = ⟨posRef, 0⟩ ∧
      (g.advance posRef time).isFinished = true := by
  obtain ⟨p, hp⟩ := ht.planned
  have hprofile := (hp.moved g.pos g.vel g.acc (time - g.oldTime) g.lastTime
    g.isFinished).profile_over posRef hover
  rw [advance, hprofile]
  exact ⟨rfl, rfl⟩

/-- An update before that follows the plan. -/
theorem Tracking.advance (ht : g.Tracking) (posRef : K) (htime : g.lastTime ≤ time)
    (hover : ¬ g.Over (time - g.oldTime)) :
    (g.advance posRef time).Tracking ∧ (g.advance posRef time).pos ∈ Set.uIcc g.pos g.goal ∧
      |(g.advance posRef time).vel| ≤ g.maxVel := by
  obtain ⟨p, hp⟩ := ht.planned
  obtain ⟨hmotion, hfinished⟩ := (hp.moved g.pos g.vel g.acc (time - g.oldTime) g.lastTime
    g.isFinished).profile posRef hover
  have hadvance : (g.advance posRef time).motion =
      follow g.segments g.start (time - g.oldTime) := hmotion
  have hrunning : (g.advance posRef time).isFinished = g.isFinished := hfinished
  have hstart : 0 ≤ g.lastTime - g.oldTime := sub_nonneg.mpr ht.times
  have hspan : g.lastTime - g.oldTime ≤ time - g.oldTime := sub_le_sub_right htime _
  have hpos := hp.pos_mem hstart hspan
  have hvel := vel_follow_mem hp.stations_mem (hstart.trans hspan)
  rw [← ht.motion, ← hadvance] at hpos
  rw [← hadvance] at hvel
  refine ⟨?_, hpos, abs_le.mpr hvel⟩
  obtain ⟨pos, vel, acc, isFinished, heq⟩ := advance_eq g posRef time
  rw [heq] at hadvance hrunning ⊢
  exact ⟨⟨p, hp.moved _ _ _ _ _ _⟩, ht.times.trans htime, hadvance, hrunning.trans ht.running⟩

end Tracking

/-! ## Moves of the fake slave -/

section Move
variable [FloorRing K] {sqrt : K → K}

/-- The inner loop of `run_profiled_position_mode`, `clock n` being the time of its update
number `n`: what it writes to the actual position and velocity, and the generator at the
end. -/
def move (sqrt : K → K) (target_position : K) (clock : ℕ → K) :
    ℕ → ℕ → MotionGenerator K → Option (List (Motion K) × MotionGenerator K)
  | 0, _, _ => none
  | fuel + 1, n, gen =>
      if gen.isFinished then some ([], gen)
      else
        let gen := gen.update sqrt target_position (clock n)
        (move sqrt target_position clock fuel (n + 1) gen).map fun r => (gen.motion :: r.1, r.2)

variable {g : MotionGenerator K} {target_position : K} {clock : ℕ → K} {fuel k : ℕ}

/-- What a move has written: positions that go straight to a goal, from the first on, and
speeds within the limit. -/
def Straight (goal limit : K) : K → List (Motion K) → Prop
  | _, [] => True
  | pos, m :: ms =>
      m.pos ∈ Set.uIcc pos goal ∧ |m.vel| ≤ limit ∧ Straight goal limit m.pos ms

/-- The loop ends: it has gone straight to the end of the plan, and then to the target. -/
def Arrives (sqrt : K → K) (target_position : K) (clock : ℕ → K) (fuel k : ℕ)
    (g : MotionGenerator K) : Prop :=
  ∃ written gen, move sqrt target_position clock fuel k g =
      some (written ++ [⟨target_position, 0⟩], gen) ∧
    gen.motion = ⟨target_position, 0⟩ ∧ Straight g.goal g.maxVel g.pos written

/-- While the set point stays an update advances. -/
theorem move_succ (sqrt : K → K) (clock : ℕ → K) (fuel k : ℕ)
    (htarget : g.oldPosRef = target_position) (hrunning : g.isFinished = false) :
    move sqrt target_position clock (fuel + 1) k g =
      (move sqrt target_position clock fuel (k + 1) (g.advance target_position (clock k))).map
        fun r => ((g.advance target_position (clock k)).motion :: r.1, r.2) := by
  rw [move, hrunning, if_neg Bool.false_ne_true, update, if_neg (not_not.mpr htarget)]

variable [IsStrictOrderedRing K]

/-- A move ends with the update after the end of its plan. -/
theorem Tracking.arrives_over (ht : g.Tracking) (htarget : g.oldPosRef = target_position)
    (hover : g.Over (clock k - g.oldTime)) :
    Arrives sqrt target_position clock (fuel + 2) k g := by
  obtain ⟨hend, hfinished⟩ := ht.advance_over target_position hover
  refine ⟨[], g.advance target_position (clock k), ?_, hend, trivial⟩
  rw [move_succ sqrt clock (fuel + 1) k htarget ht.running, move, if_pos hfinished, hend]
  rfl

/-- A move of which the plan is over `n` updates from now ends. -/
theorem Tracking.arrives (n : ℕ) (ht : g.Tracking) (htarget : g.oldPosRef = target_position)
    (hclock : ∀ j, clock j ≤ clock (j + 1)) (htime : g.lastTime ≤ clock k)
    (hover : g.Over (clock (k + n) - g.oldTime)) :
    Arrives sqrt target_position clock (n + 2) k g := by
  induction n generalizing k g with
  | zero => exact ht.arrives_over htarget hover
  | succ n ih =>
      by_cases hnow : g.Over (clock k - g.oldTime)
      · exact ht.arrives_over htarget hnow
      · obtain ⟨hnext, hpos, hvel⟩ := ht.advance target_position htime hnow
        obtain ⟨pos, vel, acc, isFinished, heq⟩ := advance_eq g target_position (clock k)
        have hstep := move_succ sqrt clock (n + 2) k htarget ht.running
        rw [heq] at hnext hpos hvel hstep
        have hrest := ih hnext htarget (hclock k) (by rwa [Nat.add_right_comm])
        obtain ⟨written, gen, hmove, hend, hstraight⟩ := hrest
        refine ⟨⟨pos, vel⟩ :: written, gen, ?_, hend, hpos, hvel, hstraight⟩
        rw [hstep, hmove]
        rfl

end Move

end Model
end MotionGenerator
end RosCanopen.Cia402
