import RosCanopen.Cia408.Climb
import RosCanopen.Lib.Rounding
import Mathlib.Algebra.Order.Archimedean.Real.Basic

/-!
# From percent to the set point

`NodeCanopen408Driver::set_position` scales, rounds, narrows to 16 bits and hands the
result to `set_setpoint`, which clamps it unless it is a sentinel.  The narrowing comes
before the clamp, so the set point saturates on some inputs beyond 16 bits only; the
others wrap round.

## Main definitions

* `Node`, `Node.setPosition`, `Node.floatAxis` — the calls of the node.
* `Node.requested` — the rounded request, before it is narrowed.
* `Node.Saturates` — the set point is the saturated request.
* `Narrows` — the requests that survive the narrowing.
-/

namespace RosCanopen.Cia408

open Lib

variable {K : Type*} [Field K] [LinearOrder K] [FloorRing K]

/-- The scaling parameters of `NodeCanopen408Driver`. -/
structure Node (K : Type*) where
  scaleToDev : K
  offset : K
  floatSetpointRaw : Int16

namespace Node

/-- `std::lround` of the scaled position. -/
def requested (node : Node K) (positionPercent : K) : ℤ :=
  lround ((positionPercent - node.offset) * node.scaleToDev)

/-- The set point handed to the axis: first an `int32_t`, then an `int16_t`. -/
def narrowed (node : Node K) (positionPercent : K) : Int16 :=
  (Int32.ofInt (node.requested positionPercent)).toInt16

/-- `set_position`, with the axis present. -/
def setPosition (node : Node K) (s : HydraulicAxis) (positionPercent : K) (sent : Bool) :
    HydraulicAxis × List Event :=
  s.setSetpoint (node.narrowed positionPercent) sent

/-- `float_axis`, with the axis present. -/
def floatAxis (node : Node K) (s : HydraulicAxis) (sent : Bool) : HydraulicAxis × List Event :=
  s.setSetpoint node.floatSetpointRaw sent

/-- The set point that `set_position` stores. -/
def setpoint (node : Node K) (s : HydraulicAxis) (positionPercent : K) (sent : Bool) : ℤ :=
  (node.setPosition s positionPercent sent).1.lastSetpoint.toInt

/-- The request, clamped to the full scale. -/
def saturated (node : Node K) (positionPercent : K) : ℤ :=
  clamp (-16384) 16384 (node.requested positionPercent)

/-- `set_position` stores the saturated request, streams it at once, and every cycle
streams it until something else is stored. -/
structure Saturates (node : Node K) (s : HydraulicAxis) (positionPercent : K) (sent : Bool) :
    Prop where
  stored : node.setpoint s positionPercent sent = node.saturated positionPercent
  streamed : ∃ raw : Int16, raw.toInt = node.saturated positionPercent ∧
    Event.setpoint raw sent ∈ (node.setPosition s positionPercent sent).2
  cycled : ∀ cwSent setpointSent, ∃ raw : Int16, raw.toInt = node.saturated positionPercent ∧
    Event.setpoint raw setpointSent ∈
      ((node.setPosition s positionPercent sent).1.spinOnce cwSent setpointSent).2

end Node

/-- The requests that the narrowing and the sentinels leave alone: those within 16 bits
but for the two sentinels, and beyond them those whose low 16 bits happen to lie beyond
the full scale on the same side. -/
def Narrows (n : ℤ) : Prop :=
  (-32768 ≤ n ∧ n ≤ 32767 ∧ n ≠ 32767 ∧ n ≠ -32767) ∨
    (32768 ≤ n ∧ 16384 ≤ n % 65536 ∧ n % 65536 ≤ 32766) ∨
    (n ≤ -32769 ∧ 32768 ≤ n % 65536 ∧ n % 65536 ≤ 49152 ∧ n % 65536 ≠ 32769)

instance (n : ℤ) : Decidable (Narrows n) := by unfold Narrows; infer_instance

/-- The limit of a set point, as an integer. -/
theorem toInt_limit (raw : Int16) :
    (HydraulicAxis.limit raw).toInt =
      if raw.toInt ≠ 32767 ∧ raw.toInt ≠ -32767 then clamp (-16384) 16384 raw.toInt
      else raw.toInt := by
  have hfloat : raw = setpointFloat ↔ raw.toInt = 32767 := Int16.toInt_inj.symm
  have hneg : raw = -setpointFloat ↔ raw.toInt = -32767 := Int16.toInt_inj.symm
  have hlo : raw < -setpointFullScale ↔ raw.toInt < -16384 := Int16.lt_iff_toInt_lt
  have hhi : setpointFullScale < raw ↔ 16384 < raw.toInt := Int16.lt_iff_toInt_lt
  rw [clamp_eq_ite (by norm_num)]
  simp only [HydraulicAxis.limit, Ne, hfloat, hneg, hlo, hhi]
  split_ifs <;> rfl

/-- The low 16 bits of an integer, read with sign. -/
theorem bmod_eq (n : ℤ) :
    n.bmod 65536 = if n % 65536 < 32768 then n % 65536 else n % 65536 - 65536 := by
  rw [Int.bmod_def]
  norm_num

/-- **Narrowing before clamping saturates exactly the requests that narrow.** -/
theorem limit_ofInt_iff (n : ℤ) :
    (HydraulicAxis.limit (Int16.ofInt n)).toInt = clamp (-16384) 16384 n ↔ Narrows n := by
  have hwrap : (Int16.ofInt n).toInt = n.bmod 65536 := Int16.toInt_ofInt
  rw [toInt_limit, hwrap, bmod_eq, clamp_eq_ite (by norm_num), clamp_eq_ite (by norm_num)]
  rw [Narrows]
  constructor <;> intro h <;> split_ifs at h ⊢ <;> omega

section SetPosition
variable (node : Node K) (s : HydraulicAxis) (positionPercent : K) (sent : Bool)

theorem Node.setpoint_eq :
    node.setpoint s positionPercent sent =
      (HydraulicAxis.limit (Int16.ofInt (node.requested positionPercent))).toInt := by
  rw [setpoint, setPosition, narrowed, Int32.toInt16_ofInt]
  rfl

/-- What is stored is also what is streamed, at once and by every cycle. -/
theorem Node.saturates_iff_stored :
    node.Saturates s positionPercent sent ↔
      node.setpoint s positionPercent sent = node.saturated positionPercent := by
  constructor
  · exact Saturates.stored
  · intro hstored
    refine ⟨hstored, ⟨_, hstored, ?_⟩, fun cwSent setpointSent => ⟨_, hstored, ?_⟩⟩
    · simp [setPosition, HydraulicAxis.setSetpoint, HydraulicAxis.sendSetpoint]
    · simp [HydraulicAxis.spinOnce_eq]

theorem Node.saturates_iff :
    node.Saturates s positionPercent sent ↔ Narrows (node.requested positionPercent) := by
  rw [saturates_iff_stored, setpoint_eq, saturated, limit_ofInt_iff]

end SetPosition

section Order
variable [IsStrictOrderedRing K]

theorem Node.requested_mono {node : Node K} (hscale : 0 < node.scaleToDev) :
    Monotone node.requested := fun _ _ hp =>
  lround_mono (mul_le_mul_of_nonneg_right (sub_le_sub_right hp node.offset) hscale.le)

/-- **The set point saturates exactly on the requests that narrow**, and on those it is
a monotone function of the position, keeps the sign of the request and is no sentinel. -/
theorem setPosition_saturates_iff (node : Node K) (hscale : 0 < node.scaleToDev)
    (s : HydraulicAxis) (sent : Bool) :
    (∀ p, node.Saturates s p sent ↔ Narrows (node.requested p)) ∧
    (∀ p p', Narrows (node.requested p) → Narrows (node.requested p') → p ≤ p' →
      node.setpoint s p sent ≤ node.setpoint s p' sent) ∧
    ∀ p, Narrows (node.requested p) →
      (node.offset ≤ p → 0 ≤ node.setpoint s p sent) ∧
      (p ≤ node.offset → node.setpoint s p sent ≤ 0) ∧
      node.setpoint s p sent ≠ 32767 ∧ node.setpoint s p sent ≠ -32767 := by
  have hiff := fun p => node.saturates_iff s p sent
  have hstored : ∀ p, Narrows (node.requested p) →
      node.setpoint s p sent = node.saturated p := fun p hp => ((hiff p).mpr hp).stored
  refine ⟨hiff, ?_, ?_⟩
  · intro p p' hp hp' hle
    rw [hstored p hp, hstored p' hp']
    exact clamp_mono _ _ (node.requested_mono hscale hle)
  · intro p hp
    rw [hstored p hp]
    refine ⟨fun hpos => ?_, fun hneg => ?_, ?_, ?_⟩
    · exact le_clamp (by norm_num)
        (lround_nonneg (mul_nonneg (sub_nonneg.mpr hpos) hscale.le))
    · exact clamp_le (by norm_num)
        (lround_nonpos (mul_nonpos_of_nonpos_of_nonneg (sub_nonpos.mpr hneg) hscale.le))
    all_goals
      rw [Node.saturated]
      rw [clamp_eq_ite (by norm_num)]
      split_ifs <;> omega

end Order

theorem setPosition_saturates_percent :
    (⟨16384 / 100, 0, setpointFloat⟩ : Node ℚ).Saturates .constructed 50 true :=
  ((setPosition_saturates_iff ⟨16384 / 100, 0, setpointFloat⟩ (by norm_num) .constructed true).1
    50).mpr (by decide +kernel)

/-- At the default scaling a request of 250 % moves the spool all the way in the other
direction. -/
theorem not_saturates_250 : ∃ (node : Node ℝ) (p : ℝ), 0 < node.scaleToDev ∧ node.offset < p ∧
    ¬ node.Saturates .constructed p true ∧ node.saturated p = 16384 ∧
    node.setpoint .constructed p true = -16384 := by
  let node : Node ℝ := ⟨16384 / 100, 0, setpointFloat⟩
  have hrequested : node.requested 250 = 40960 := by
    rw [Node.requested, lround, if_pos (by norm_num [node]), Int.floor_eq_iff]
    norm_num [node]
  refine ⟨node, 250, by norm_num [node], by norm_num [node], ?_, ?_, ?_⟩
  · rw [Node.saturates_iff, hrequested]
    decide
  · rw [Node.saturated, hrequested]
    rfl
  · rw [Node.setpoint_eq, hrequested]
    rfl

end RosCanopen.Cia408
