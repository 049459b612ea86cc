import RosCanopen.Cia402.Command
import RosCanopen.Lib.Rounding
import Mathlib.Data.Rat.Floor

/-!
# The operation modes

A mode keeps a target or a homing procedure and, in each cycle, writes its bits of the
control word and its target object.  The forward modes share one helper and differ in
its parameters; `ProfiledPositionMode` hands a target over by handshake;
`DefaultHomingMode` raises its start bit while homing is executed.

## Main definitions

* `Double` — the values of a `double`, as far as the modes tell them apart.
* `TargetHelper` — `ModeTargetHelper`.
* `Mode` — the mode objects, with `start`, `read`, `write` and `setTarget`.
* `Mode.fresh` — the modes of `registerDefaultModes`.
-/

namespace RosCanopen.Cia402

open Lib

/-- A `double`: finite values are taken as exact. -/
inductive Double
  | nan
  | inf (negative : Bool)
  | fin (value : ℚ)
  deriving DecidableEq

/-- `MotorBase::OperationMode`, as the `uint16_t` it is passed as. -/
abbrev ModeId := BitVec 16

namespace ModeId

abbrev noMode : ModeId := 0
abbrev profiledPosition : ModeId := 1
abbrev velocity : ModeId := 2
abbrev profiledVelocity : ModeId := 3
abbrev profiledTorque : ModeId := 4
abbrev homing : ModeId := 6
abbrev interpolatedPosition : ModeId := 7
abbrev cyclicSynchronousPosition : ModeId := 8
abbrev cyclicSynchronousVelocity : ModeId := 9
abbrev cyclicSynchronousTorque : ModeId := 10

end ModeId

/-! ## The mode bits of the control word -/

/-- The mask of `Mode::OpModeAccesser`. -/
def opModeMask : Word := bit 4 ||| bit 5 ||| bit 6 ||| bit 9

namespace OpModeAccesser

/-- `WordAccessor::operator=`. -/
def assign (cw val : Word) : Word := overwrite opModeMask (val &&& opModeMask) cw

/-- `WordAccessor::get()`. -/
def get (cw : Word) : Word := cw &&& opModeMask

/-- `WordAccessor::set`. -/
def set (cw : Word) (i : ℕ) : Word := overwrite 0 (opModeMask &&& bit i) cw

/-- `WordAccessor::reset`. -/
def reset (cw : Word) (i : ℕ) : Word := overwrite (opModeMask &&& bit i) 0 cw

/-- The bits of the control word that no accessor reaches. -/
def keptBits : List ℕ := ControlWord.halt :: ControlWord.stateBits

theorem getLsbD_opModeMask {i : ℕ} (hi : i ∈ keptBits) : opModeMask.getLsbD i = false := by
  revert i
  decide

theorem agreeOn_assign (cw val : Word) : AgreeOn keptBits (assign cw val) cw :=
  agreeOn_overwrite (fun _ hi => getLsbD_opModeMask hi) fun _ hi => by
    simp [getLsbD_opModeMask hi]

theorem agreeOn_set (cw : Word) (i : ℕ) : AgreeOn keptBits (set cw i) cw :=
  agreeOn_overwrite (by simp) fun _ hi => by simp [getLsbD_opModeMask hi]

theorem agreeOn_reset (cw : Word) (i : ℕ) : AgreeOn keptBits (reset cw i) cw :=
  agreeOn_overwrite (fun _ hi => by simp [getLsbD_opModeMask hi]) (by simp)

end OpModeAccesser

/-! ## Targets -/

/-- `ModeTargetHelper`: the target, and whether there is one. -/
structure TargetHelper where
  target : ℤ
  hasTarget : Bool
  deriving DecidableEq

/-- The limits of the target's type. -/
structure Limits where
  min : ℤ
  max : ℤ
  deriving DecidableEq

def Limits.int16 : Limits := ⟨-32768, 32767⟩
def Limits.int32 : Limits := ⟨-2147483648, 2147483647⟩

/-- `numeric_cast` with both overflows caught: truncate, then clamp.  Only a NaN is
refused, before the cast. -/
def numericCast (limits : Limits) : Double → Option ℤ
  | .nan => none
  | .inf true => some limits.min
  | .inf false => some limits.max
  | .fin q => some (clamp limits.min limits.max (if 0 ≤ q then ⌊q⌋ else ⌈q⌉))

namespace TargetHelper

/-- `ModeTargetHelper::setTarget`. -/
def setTarget (s : TargetHelper) (limits : Limits) (val : Double) : TargetHelper × Bool :=
  match numericCast limits val with
  | none => (s, false)
  | some target => (⟨target, true⟩, true)

/-- `ModeTargetHelper::start`. -/
def start (s : TargetHelper) : TargetHelper := { s with hasTarget := false }

end TargetHelper

/-- The template parameters of `ModeForwardHelper`. -/
structure ForwardSpec where
  limits : Limits
  obj : BitVec 16
  sub : BitVec 8
  cwMask : Word
  deriving DecidableEq

/-! ## The mode objects -/

/-- A mode object. -/
inductive Mode
  /-- `ModeForwardHelper`. -/
  | forward (spec : ForwardSpec) (helper : TargetHelper)
  /-- `ProfiledPositionMode`; `lastTarget` is a NaN or an integer. -/
  | profiledPosition (helper : TargetHelper) (lastTarget : Double) (sw : Word)
  /-- `DefaultHomingMode`. -/
  | homing (execute : Bool) (status : Word)
  deriving DecidableEq

/-- What a mode's `write` does. -/
structure ModeWrite where
  mode : Mode
  cw : Word
  okay : Bool
  /-- The target object written: index, sub-index, value. -/
  target : Option (BitVec 16 × BitVec 8 × ℤ)
  /-- The driver has thrown. -/
  threw : Bool

namespace Mode

/-- The status bits that homing looks at: reached, attained and error. -/
def homingMask : Word := bit 10 ||| bit 12 ||| bit 13

/-- `Mode::start`; it succeeds in every mode. -/
def start : Mode → Mode
  | .forward spec helper => .forward spec helper.start
  | .profiledPosition helper _ _ => .profiledPosition helper.start .nan 0
  | .homing _ _ => .homing false 0

/-- `Mode::read`. -/
def read (sw : Word) : Mode → Mode
  | .forward spec helper => .forward spec helper
  | .profiledPosition helper lastTarget _ => .profiledPosition helper lastTarget sw
  | .homing execute _ => .homing execute (sw &&& homingMask)

/-- `Mode::setTarget`; homing has none. -/
def setTarget (val : Double) : Mode → Mode × Bool
  | .forward spec helper =>
      let (helper, ok) := helper.setTarget spec.limits val
      (.forward spec helper, ok)
  | .profiledPosition helper lastTarget sw =>
      let (helper, ok) := helper.setTarget Limits.int32 val
      (.profiledPosition helper lastTarget sw, ok)
  | .homing execute status => (.homing execute status, false)

open OpModeAccesser in
/-- `ModeForwardHelper::write`. -/
def writeForward (channelOffset : BitVec 16) (spec : ForwardSpec) (helper : TargetHelper)
    (cw : Word) (driverOk : Bool) : ModeWrite :=
  if helper.hasTarget then
    let cw := assign cw (get cw ||| spec.cwMask)
    if driverOk then
      ⟨.forward spec helper, cw, true, some (spec.obj + channelOffset, spec.sub, helper.target),
        false⟩
    else ⟨.forward spec helper, cw, false, none, true⟩
  else ⟨.forward spec helper, assign cw (get cw &&& ~~~spec.cwMask), false, none, false⟩

open OpModeAccesser in
/-- `ProfiledPositionMode::write`. -/
def writeProfiledPosition (channelOffset : BitVec 16) (helper : TargetHelper)
    (lastTarget : Double) (sw cw : Word) (driverOk : Bool) : ModeWrite :=
  let cw := set cw ControlWord.operationModeSpecific1
  let mode := Mode.profiledPosition helper lastTarget sw
  if helper.hasTarget then
    let acknowledged := sw.getLsbD StatusWord.operationModeSpecific0
    if !acknowledged ∧ lastTarget ≠ .fin helper.target then
      if cw.getLsbD ControlWord.operationModeSpecific0 then
        ⟨mode, reset cw ControlWord.operationModeSpecific0, true, none, false⟩
      else if driverOk then
        ⟨.profiledPosition helper (.fin helper.target) sw,
          set cw ControlWord.operationModeSpecific0, true,
          some (0x607A + channelOffset, 0, helper.target), false⟩
      else ⟨mode, cw, false, none, true⟩
    else if acknowledged then
      ⟨mode, reset cw ControlWord.operationModeSpecific0, true, none, false⟩
    else ⟨mode, cw, true, none, false⟩
  else ⟨mode, cw, false, none, false⟩

open OpModeAccesser in
/-- `DefaultHomingMode::write`. -/
def writeHoming (execute : Bool) (status cw : Word) : ModeWrite :=
  let cw := assign cw 0
  if execute then
    ⟨.homing execute status, set cw ControlWord.operationModeSpecific0, true, none, false⟩
  else ⟨.homing execute status, cw, false, none, false⟩

/-- `Mode::write`. -/
def write (channelOffset : BitVec 16) (mode : Mode) (cw : Word) (driverOk : Bool) : ModeWrite :=
  match mode with
  | .forward spec helper => writeForward channelOffset spec helper cw driverOk
  | .profiledPosition helper lastTarget sw =>
      writeProfiledPosition channelOffset helper lastTarget sw cw driverOk
  | .homing execute status => writeHoming execute status cw

open OpModeAccesser in
/-- **A mode writes its own bits of the control word** and leaves the others. -/
theorem agreeOn_write (channelOffset : BitVec 16) (mode : Mode) (cw : Word) (driverOk : Bool) :
    AgreeOn keptBits (mode.write channelOffset cw driverOk).cw cw := by
  cases mode with
  | forward spec helper =>
      simp only [write, writeForward]
      split
      · split <;> exact agreeOn_assign _ _
      · exact agreeOn_assign _ _
  | profiledPosition helper lastTarget sw =>
      simp only [write, writeProfiledPosition]
      have hset := agreeOn_set cw ControlWord.operationModeSpecific1
      split
      · split
        · split
          · exact (agreeOn_reset _ _).trans hset
          · split
            · exact (agreeOn_set _ _).trans hset
            · exact hset
        · split
          · exact (agreeOn_reset _ _).trans hset
          · exact hset
      · exact hset
  | homing execute status =>
      simp only [write, writeHoming]
      split
      · exact (agreeOn_set _ _).trans (agreeOn_assign _ _)
      · exact agreeOn_assign _ _

/-! ## The default modes -/

/-- What the memory holds where a mode object is made: no constructor initialises these. -/
structure Raw where
  helper : TargetHelper
  lastTarget : Double
  word : Word
  execute : Bool
  deriving DecidableEq

/-- The mode bits of `VelocityMode`. -/
def velocityMask : Word := bit 4 ||| bit 5 ||| bit 6

/-- The object that the allocator of a default mode makes. -/
def fresh (id : ModeId) (raw : Raw) : Option Mode :=
  match id.toNat with
  | 1 => some (.profiledPosition raw.helper raw.lastTarget raw.word)
  | 2 => some (.forward ⟨.int16, 0x6042, 0, velocityMask⟩ raw.helper)
  | 3 => some (.forward ⟨.int32, 0x60FF, 0, 0⟩ raw.helper)
  | 4 => some (.forward ⟨.int16, 0x6071, 0, 0⟩ raw.helper)
  | 6 => some (.homing raw.execute raw.word)
  | 7 => some (.forward ⟨.int32, 0x60C1, 1, bit 4⟩ raw.helper)
  | 8 => some (.forward ⟨.int32, 0x607A, 0, 0⟩ raw.helper)
  | 9 => some (.forward ⟨.int32, 0x60FF, 0, 0⟩ raw.helper)
  | 10 => some (.forward ⟨.int16, 0x6071, 0, 0⟩ raw.helper)
  | _ => none

end Mode
end RosCanopen.Cia402
