import RosCanopen.Lib.System
import RosCanopen.Lib.Dwell

/-!
# The hydraulic axis

`HydraulicAxis408` steps its device state machine from the poll timer.  `enable` and
`recover` start a climb through the phases, `hold` and `disable` end it; `spinOnce`
advances the climb and streams the control word and the set point.  Every call holds
`io_mutex_` and is one step.  A write to the driver may fail, which is caught.

## Main definitions

* `HydraulicAxis` — the members.
* `HydraulicAxis.spinOnce`, `HydraulicAxis.setSetpoint` and the four orders.
* `HydraulicAxis.system` — the axis from construction.
-/

namespace RosCanopen.Cia408

open Lib

/-- The 16-bit control word. -/
abbrev Word := BitVec 16

namespace ControlWord

/-- The command values of the device state machine. -/
abbrev init : Word := 0x08
abbrev disabled : Word := 0x09
abbrev hold : Word := 0x0B
abbrev active : Word := 0x0F
abbrev faultReset : Word := 0x03

end ControlWord

/-- `SETPOINT_FULL_SCALE`: full spool travel. -/
def setpointFullScale : Int16 := 16384

/-- `SETPOINT_FLOAT`: the request for the float state. -/
def setpointFloat : Int16 := 32767

/-- `PHASE_DWELL_TICKS`. -/
def phaseDwellTicks : ℕ := 15

/-- `HydraulicAxis408::Phase`. -/
inductive Phase
  | idle
  | faultReset
  | init
  | disabled
  | hold
  | active
  deriving DecidableEq, Repr

/-- The control word of a phase; none in `idle`. -/
def Phase.word : Phase → Option Word
  | .idle => none
  | .faultReset => some ControlWord.faultReset
  | .init => some ControlWord.init
  | .disabled => some ControlWord.disabled
  | .hold => some ControlWord.hold
  | .active => some ControlWord.active

/-- The phase after a phase has been held long enough. -/
def Phase.next : Phase → Phase
  | .faultReset => .init
  | .init => .disabled
  | .disabled => .hold
  | .hold => .active
  | .active => .idle
  | .idle => .idle

/-- The members of `HydraulicAxis408`. -/
structure HydraulicAxis where
  enabled : Bool
  currentCw : Word
  lastSetpoint : Int16
  phase : Phase
  phaseTicks : ℕ
  deriving DecidableEq

/-- The calls that set the course of the device state machine. -/
inductive Order
  | enable
  | recover
  | hold
  | disable
  deriving DecidableEq, Repr

/-- What the axis does, as seen from outside.  A write is `sent` unless the driver threw. -/
inductive Event
  | ordered (order : Order)
  /-- `set_setpoint` has been called. -/
  | commanded (raw : Int16)
  | controlword (cw : Word) (sent : Bool)
  | setpoint (raw : Int16) (sent : Bool)
  deriving DecidableEq

namespace HydraulicAxis

/-- The axis as constructed. -/
def constructed : HydraulicAxis where
  enabled := false
  currentCw := ControlWord.disabled
  lastSetpoint := 0
  phase := .idle
  phaseTicks := 0

def enable (s : HydraulicAxis) : HydraulicAxis :=
  { s with lastSetpoint := 0, enabled := false, phaseTicks := 0, phase := .init }

def recover (s : HydraulicAxis) : HydraulicAxis :=
  { s with lastSetpoint := 0, enabled := false, phaseTicks := 0, phase := .faultReset }

def hold (s : HydraulicAxis) : HydraulicAxis :=
  { s with phase := .idle, enabled := false, currentCw := ControlWord.hold }

def disable (s : HydraulicAxis) : HydraulicAxis :=
  { s with phase := .idle, enabled := false, currentCw := ControlWord.disabled }

/-- `advance_phase_locked`. -/
def advancePhaseLocked (s : HydraulicAxis) : HydraulicAxis :=
  match s.phase.word with
  | none => s
  | some cw =>
      if s.phaseTicks + 1 < phaseDwellTicks then
        { s with currentCw := cw, phaseTicks := s.phaseTicks + 1 }
      else
        { s with
          currentCw := cw
          phaseTicks := 0
          enabled := if s.phase = .active then true else s.enabled
          phase := s.phase.next }

/-- `write_controlword`. -/
def writeControlword (s : HydraulicAxis) (value : Word) (sent : Bool) :
    HydraulicAxis × List Event :=
  (if sent then { s with currentCw := value } else s, [.controlword value sent])

/-- `send_setpoint`. -/
def sendSetpoint (s : HydraulicAxis) (raw : Int16) (sent : Bool) : HydraulicAxis × List Event :=
  (s, [.setpoint raw sent])

/-- `spin_once`: advance, then stream the control word and the set point. -/
def spinOnce (s : HydraulicAxis) (cwSent setpointSent : Bool) : HydraulicAxis × List Event :=
  let s := s.advancePhaseLocked
  let (s, written) := s.writeControlword s.currentCw cwSent
  let (s, sent) := s.sendSetpoint s.lastSetpoint setpointSent
  (s, sent ++ written)

/-- `std::clamp<int16_t>` to the full scale, except for the two sentinels. -/
def limit (raw : Int16) : Int16 :=
  if raw ≠ setpointFloat ∧ raw ≠ -setpointFloat then
    if raw < -setpointFullScale then -setpointFullScale
    else if setpointFullScale < raw then setpointFullScale else raw
  else raw

/-- `set_setpoint`. -/
def setSetpoint (s : HydraulicAxis) (raw : Int16) (sent : Bool) : HydraulicAxis × List Event :=
  let (s, written) := { s with lastSetpoint := limit raw }.sendSetpoint (limit raw) sent
  (s, written ++ [.commanded raw])

/-- `set_float`. -/
def setFloat (s : HydraulicAxis) (sent : Bool) : HydraulicAxis × List Event :=
  s.setSetpoint setpointFloat sent

/-- One of the orders. -/
def obey (s : HydraulicAxis) : Order → HydraulicAxis
  | .enable => s.enable
  | .recover => s.recover
  | .hold => s.hold
  | .disable => s.disable

/-- A call of the axis; the flags say which writes the driver accepts. -/
inductive Call
  | order (order : Order)
  | setSetpoint (raw : Int16) (sent : Bool)
  | setFloat (sent : Bool)
  | spinOnce (cwSent setpointSent : Bool)
  deriving DecidableEq

/-- One call. -/
def call (s : HydraulicAxis) : Call → HydraulicAxis × List Event
  | .order order => (s.obey order, [.ordered order])
  | .setSetpoint raw sent => s.setSetpoint raw sent
  | .setFloat sent => s.setFloat sent
  | .spinOnce cwSent setpointSent => s.spinOnce cwSent setpointSent

/-- The axis from construction. -/
def system : System HydraulicAxis Call Event where
  init s := s = constructed
  step s c := some (s.call c)

end HydraulicAxis
end RosCanopen.Cia408
