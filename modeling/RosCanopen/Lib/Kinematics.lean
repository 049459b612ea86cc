import RosCanopen.Lib.Rounding
import Mathlib.Tactic.Positivity
import Mathlib.Tactic.Ring

/-!
# Motions made of segments of constant acceleration

A motion along a line is given by its start and by a list of segments, each with a duration
and an acceleration; after the last segment the position is kept.  Where all velocities at
the ends of the segments lie between two bounds, all velocities do, and the position changes
no faster than the bounds say.

## Main definitions

* `Motion`, `Segment`, `Segment.after` — a position with a velocity, and what a segment
  makes of it.
* `follow` — the motion at a time.
* `totalDuration`, `finalMotion`, `stations` — the end of it, and the ends of its segments.
-/

namespace RosCanopen.Lib

/-- A position and a velocity. -/
@[ext]
structure Motion (K : Type*) where
  pos : K
  vel : K

/-- A time of constant acceleration. -/
structure Segment (K : Type*) where
  duration : K
  acc : K

section Motion

-- one proof for the numeral in all the halves
local instance atLeastTwo_two : Nat.AtLeastTwo 2 := inferInstance

variable {K : Type*} [Field K] {seg : Segment K} {segs : List (Segment K)} {m : Motion K} {t u : K}

/-- The motion after a time `t` in the segment. -/
def Segment.after (seg : Segment K) (m : Motion K) (t : K) : Motion K :=
  ⟨m.pos + m.vel * t + seg.acc * t * t / 2, m.vel + seg.acc * t⟩

/-- The motion at the end of the segment. -/
def Segment.finish (seg : Segment K) (m : Motion K) : Motion K := seg.after m seg.duration

/-- How long the segments take. -/
def totalDuration (segs : List (Segment K)) : K := (segs.map Segment.duration).sum

/-- The motion at the end of the last segment. -/
def finalMotion : List (Segment K) → Motion K → Motion K
  | [], m => m
  | seg :: segs, m => finalMotion segs (seg.finish m)

/-- The motions at the start and at the end of each segment. -/
def stations : List (Segment K) → Motion K → List (Motion K)
  | [], m => [m]
  | seg :: segs, m => m :: stations segs (seg.finish m)

@[simp] theorem Segment.after_zero (seg : Segment K) (m : Motion K) : seg.after m 0 = m := by
  ext <;> simp [Segment.after]

@[simp] theorem totalDuration_cons :
    totalDuration (seg :: segs) = seg.duration + totalDuration segs := by
  simp [totalDuration]

variable [LinearOrder K]

/-- The motion after a time `t`. -/
def follow : List (Segment K) → Motion K → K → Motion K
  | [], m, _ => m
  | seg :: segs, m, t =>
      if t ≤ seg.duration then seg.after m t else follow segs (seg.finish m) (t - seg.duration)

theorem head_stations {lo hi : K}
    (hstations : ∀ x ∈ stations segs m, lo ≤ x.vel ∧ x.vel ≤ hi) :
    lo ≤ m.vel ∧ m.vel ≤ hi := by
  cases segs with
  | nil => exact hstations m List.mem_cons_self
  | cons seg segs => exact hstations m List.mem_cons_self

theorem follow_zero (hsegs : ∀ seg ∈ segs, 0 ≤ seg.duration) : follow segs m 0 = m := by
  cases segs with
  | nil => rfl
  | cons seg segs => rw [follow, if_pos (hsegs seg List.mem_cons_self), Segment.after_zero]

/-- After a segment, what follows is the motion of the rest. -/
theorem follow_cons_of_le (hsegs : ∀ seg ∈ segs, 0 ≤ seg.duration) (ht : seg.duration ≤ t) :
    follow (seg :: segs) m t = follow segs (seg.finish m) (t - seg.duration) := by
  rw [follow]
  split
  · next hle =>
      obtain rfl := le_antisymm ht hle
      rw [sub_self, follow_zero hsegs]
      rfl
  · rfl

variable [IsStrictOrderedRing K]

theorem totalDuration_nonneg (hsegs : ∀ seg ∈ segs, 0 ≤ seg.duration) :
    0 ≤ totalDuration segs := by
  refine List.sum_nonneg ?_
  intro d hd
  obtain ⟨seg, hseg, rfl⟩ := List.mem_map.mp hd
  exact hsegs seg hseg

/-- **After its duration the motion is at its end.** -/
theorem follow_of_totalDuration_le (hsegs : ∀ seg ∈ segs, 0 ≤ seg.duration)
    (ht : totalDuration segs ≤ t) : follow segs m t = finalMotion segs m := by
  induction segs generalizing m t with
  | nil => rfl
  | cons seg segs ih =>
      have hrest : ∀ seg ∈ segs, 0 ≤ seg.duration := fun seg hseg =>
        hsegs seg (List.mem_cons_of_mem _ hseg)
      have hnonneg := totalDuration_nonneg hrest
      rw [totalDuration_cons] at ht
      rw [follow_cons_of_le hrest (by linarith), finalMotion]
      exact ih hrest (by linarith)

/-! ## Velocities -/

section Bounds
variable {lo hi : K}

/-- Within a segment the velocity lies between those at its ends. -/
theorem vel_after_mem (hm : lo ≤ m.vel ∧ m.vel ≤ hi)
    (hend : lo ≤ (seg.finish m).vel ∧ (seg.finish m).vel ≤ hi) (ht : 0 ≤ t)
    (htd : t ≤ seg.duration) : lo ≤ (seg.after m t).vel ∧ (seg.after m t).vel ≤ hi := by
  simp only [Segment.finish, Segment.after] at hend ⊢
  by_cases hacc : 0 ≤ seg.acc
  · have hlow := mul_nonneg hacc ht
    have hhigh := mul_le_mul_of_nonneg_left htd hacc
    constructor <;> linarith
  · have hneg : seg.acc ≤ 0 := (lt_of_not_ge hacc).le
    have hlow := mul_le_mul_of_nonpos_left htd hneg
    have hhigh := mul_nonpos_of_nonpos_of_nonneg hneg ht
    constructor <;> linarith

/-- Within a segment the position changes as the bounds say. -/
theorem pos_after_sub_mem (hm : lo ≤ m.vel ∧ m.vel ≤ hi)
    (hend : lo ≤ (seg.finish m).vel ∧ (seg.finish m).vel ≤ hi) (hu : 0 ≤ u) (hut : u ≤ t)
    (htd : t ≤ seg.duration) :
    lo * (t - u) ≤ (seg.after m t).pos - (seg.after m u).pos ∧
      (seg.after m t).pos - (seg.after m u).pos ≤ hi * (t - u) := by
  have hvu := vel_after_mem hm hend hu (hut.trans htd)
  have hvt := vel_after_mem hm hend (hu.trans hut) htd
  have heq : (seg.after m t).pos - (seg.after m u).pos =
      ((seg.after m u).vel + (seg.after m t).vel) / 2 * (t - u) := by
    simp only [Segment.after]; ring
  have hwidth : 0 ≤ t - u := sub_nonneg.mpr hut
  rw [heq]
  constructor
  · exact mul_le_mul_of_nonneg_right (by linarith) hwidth
  · exact mul_le_mul_of_nonneg_right (by linarith) hwidth

/-- **All velocities lie within the bounds of those at the ends of the segments.** -/
theorem vel_follow_mem (hstations : ∀ x ∈ stations segs m, lo ≤ x.vel ∧ x.vel ≤ hi)
    (ht : 0 ≤ t) : lo ≤ (follow segs m t).vel ∧ (follow segs m t).vel ≤ hi := by
  induction segs generalizing m t with
  | nil => exact head_stations hstations
  | cons seg segs ih =>
      have hrest : ∀ x ∈ stations segs (seg.finish m), lo ≤ x.vel ∧ x.vel ≤ hi := fun x hx =>
        hstations x (List.mem_cons_of_mem _ hx)
      rw [follow]
      split
      · next htd =>
          exact vel_after_mem (head_stations hstations) (head_stations hrest) ht htd
      · next htd => exact ih hrest (sub_nonneg.mpr (lt_of_not_ge htd).le)

/-- **The position changes no faster than the velocities allow.** -/
theorem pos_follow_sub_mem (hlo : lo ≤ 0) (hhi : 0 ≤ hi)
    (hstations : ∀ x ∈ stations segs m, lo ≤ x.vel ∧ x.vel ≤ hi)
    (hsegs : ∀ seg ∈ segs, 0 ≤ seg.duration) (hu : 0 ≤ u) (hut : u ≤ t) :
    lo * (t - u) ≤ (follow segs m t).pos - (follow segs m u).pos ∧
      (follow segs m t).pos - (follow segs m u).pos ≤ hi * (t - u) := by
  induction segs generalizing m t u with
  | nil =>
      have hwidth : 0 ≤ t - u := sub_nonneg.mpr hut
      simp only [follow, sub_self]
      exact ⟨mul_nonpos_of_nonpos_of_nonneg hlo hwidth, mul_nonneg hhi hwidth⟩
  | cons seg segs ih =>
      have hrest : ∀ seg ∈ segs, 0 ≤ seg.duration := fun seg hseg =>
        hsegs seg (List.mem_cons_of_mem _ hseg)
      have hrestStations : ∀ x ∈ stations segs (seg.finish m), lo ≤ x.vel ∧ x.vel ≤ hi :=
        fun x hx => hstations x (List.mem_cons_of_mem _ hx)
      have hwithin : ∀ x y, 0 ≤ x → x ≤ y → y ≤ seg.duration →
          lo * (y - x) ≤ (seg.after m y).pos - (seg.after m x).pos ∧
            (seg.after m y).pos - (seg.after m x).pos ≤ hi * (y - x) := fun x y hx hxy hy =>
        pos_after_sub_mem (head_stations hstations) (head_stations hrestStations) hx hxy hy
      by_cases htd : t ≤ seg.duration
      · rw [follow, if_pos htd, follow, if_pos (hut.trans htd)]
        exact hwithin u t hu hut htd
      · have hdt : seg.duration ≤ t := (lt_of_not_ge htd).le
        rw [follow_cons_of_le hrest hdt]
        by_cases hud : u ≤ seg.duration
        · rw [follow, if_pos hud]
          have hfirst : lo * (seg.duration - u) ≤ (seg.finish m).pos - (seg.after m u).pos ∧
              (seg.finish m).pos - (seg.after m u).pos ≤ hi * (seg.duration - u) :=
            hwithin u seg.duration hu hud le_rfl
          have hlast := ih (m := seg.finish m) hrestStations hrest le_rfl (sub_nonneg.mpr hdt)
          rw [follow_zero hrest, sub_zero] at hlast
          constructor <;> linarith [hfirst.1, hfirst.2, hlast.1, hlast.2]
        · have hdu : seg.duration ≤ u := (lt_of_not_ge hud).le
          rw [follow_cons_of_le hrest hdu]
          have hlater := ih (m := seg.finish m) hrestStations hrest (sub_nonneg.mpr hdu)
            (sub_le_sub_right hut seg.duration)
          rw [show t - seg.duration - (u - seg.duration) = t - u by ring] at hlater
          exact hlater

end Bounds
end Motion
end RosCanopen.Lib
