import RosCanopen.Cia402.State

/-!
# The control word and the transition table

`Command402` holds, for each transition of the power state machine that a master
may command, the bits of the control word to set and to reset.  `setTransition`
looks one step up and applies it; on the way to `operationEnable` the step is the
one `nextStateForEnabling` names, provided the caller asked for it.

## Main definitions

* `ControlWord` — the bit numbers of the control word.
* `Op`, `transitions` — `Command402::Op` and the table.
* `nextStateForEnabling`, `setTransition` — as in the source.
* `commandsEnable` — the word commands "enable operation".
-/

namespace RosCanopen.Cia402

open Lib

namespace ControlWord

/-- Bit numbers of the control word. -/
abbrev switchOn : ℕ := 0
abbrev enableVoltage : ℕ := 1
abbrev quickStop : ℕ := 2
abbrev enableOperation : ℕ := 3
abbrev operationModeSpecific0 : ℕ := 4
abbrev operationModeSpecific1 : ℕ := 5
abbrev operationModeSpecific2 : ℕ := 6
abbrev faultReset : ℕ := 7
abbrev halt : ℕ := 8
abbrev operationModeSpecific3 : ℕ := 9

/-- The bits that command the power state machine. -/
def stateBits : List ℕ := [switchOn, enableVoltage, quickStop, enableOperation, faultReset]

end ControlWord

/-- `Command402::Op`: the bits a transition sets and resets. -/
structure Op where
  toSet : Word
  toReset : Word
  deriving DecidableEq

/-- `Op::operator()`. -/
def Op.apply (op : Op) (val : Word) : Word := overwrite op.toReset op.toSet val

namespace Op
open ControlWord

def disableVoltage : Op := ⟨0, bit faultReset ||| bit enableVoltage⟩
def automatic : Op := ⟨0, 0⟩
def shutdown : Op := ⟨bit quickStop ||| bit enableVoltage, bit faultReset ||| bit switchOn⟩
def switchOn : Op :=
  ⟨bit quickStop ||| bit enableVoltage ||| bit ControlWord.switchOn,
    bit faultReset ||| bit enableOperation⟩
def enableOperation : Op :=
  ⟨bit quickStop ||| bit enableVoltage ||| bit ControlWord.switchOn |||
    bit ControlWord.enableOperation, bit faultReset⟩
def quickstop : Op := ⟨bit enableVoltage, bit faultReset ||| bit quickStop⟩
def faultReset : Op := ⟨bit ControlWord.faultReset, 0⟩

end Op

/-- `TransitionTable::get`; `none` where `flat_map::at` throws. -/
def transitions : InternalState → InternalState → Option Op
  | .readyToSwitchOn, .switchOnDisabled => some Op.disableVoltage
  | .operationEnable, .switchOnDisabled => some Op.disableVoltage
  | .switchedOn, .switchOnDisabled => some Op.disableVoltage
  | .quickStopActive, .switchOnDisabled => some Op.disableVoltage
  | .unknown, .notReadyToSwitchOn => some Op.automatic
  | .notReadyToSwitchOn, .switchOnDisabled => some Op.automatic
  | .faultReactionActive, .fault => some Op.automatic
  | .switchOnDisabled, .readyToSwitchOn => some Op.shutdown
  | .switchedOn, .readyToSwitchOn => some Op.shutdown
  | .operationEnable, .readyToSwitchOn => some Op.shutdown
  | .readyToSwitchOn, .switchedOn => some Op.switchOn
  | .operationEnable, .switchedOn => some Op.switchOn
  | .switchedOn, .operationEnable => some Op.enableOperation
  | .quickStopActive, .operationEnable => some Op.enableOperation
  | .readyToSwitchOn, .quickStopActive => some Op.quickstop
  | .switchedOn, .quickStopActive => some Op.quickstop
  | .operationEnable, .quickStopActive => some Op.quickstop
  | .fault, .switchOnDisabled => some Op.faultReset
  | _, _ => none

/-- `Command402::nextStateForEnabling`. -/
def nextStateForEnabling : InternalState → InternalState
  | .unknown => .notReadyToSwitchOn
  | .fault | .notReadyToSwitchOn => .switchOnDisabled
  | .switchOnDisabled => .readyToSwitchOn
  | .readyToSwitchOn => .switchedOn
  | .switchedOn | .quickStopActive | .operationEnable => .operationEnable
  | .faultReactionActive => .fault

/-- The state `setTransition` steps to.  A null `next` takes the target itself. -/
def hop (src dst : InternalState) (next : Option InternalState) : InternalState :=
  if next.isSome ∧ dst = .operationEnable then nextStateForEnabling src else dst

/-- `Command402::setTransition`: success, the control word and the pointee of `next`
afterwards.  `next` is written before the table lookup can fail, and is left alone
when there is nothing to do. -/
def setTransition (cw : Word) (src dst : InternalState) (next : Option InternalState) :
    Bool × Word × Option InternalState :=
  if src = dst then (true, cw, next)
  else
    match transitions src (hop src dst next) with
    | none => (false, cw, next.map fun _ => hop src dst next)
    | some op => (true, op.apply cw, next.map fun _ => hop src dst next)

/-- Bits 0 to 3 set: with bit 7 clear this commands "enable operation". -/
def lowBitsSet (cw : Word) : Bool :=
  cw.getLsbD 0 && cw.getLsbD 1 && cw.getLsbD 2 && cw.getLsbD 3

/-- The word commands "enable operation": bits 0 to 3 set and bit 7 clear. -/
def commandsEnable (cw : Word) : Bool := lowBitsSet cw && !cw.getLsbD 7

/-- The word commands no transition at all: bits 0 to 3 and bit 7 clear. -/
def commandsNothing (cw : Word) : Bool :=
  !(cw.getLsbD 0 || cw.getLsbD 1 || cw.getLsbD 2 || cw.getLsbD 3 || cw.getLsbD 7)

/-- Both readings of a control word look at its state bits only. -/
theorem lowBitsSet_congr {cw cw' : Word} (h : AgreeOn ControlWord.stateBits cw cw') :
    lowBitsSet cw = lowBitsSet cw' := by
  simp only [AgreeOn, ControlWord.stateBits, List.mem_cons, List.not_mem_nil, or_false,
    forall_eq_or_imp, forall_eq] at h
  simp only [lowBitsSet, h]

theorem commandsNothing_congr {cw cw' : Word} (h : AgreeOn ControlWord.stateBits cw cw') :
    commandsNothing cw = commandsNothing cw' := by
  simp only [AgreeOn, ControlWord.stateBits, List.mem_cons, List.not_mem_nil, or_false,
    forall_eq_or_imp, forall_eq] at h
  simp only [commandsNothing, h]

/-- A step that is not one to `operationEnable` leaves bits 0 to 3 not all set, unless
it is an automatic transition or the fault reset, which keep them. -/
theorem lowBitsSet_apply {src dst : InternalState} {op : Op} {cw : Word}
    (hop : transitions src dst = some op) (hdst : dst ≠ .operationEnable)
    (hlow : lowBitsSet (op.apply cw) = true) :
    lowBitsSet cw = true ∧ (cw.getLsbD 7 = true → (op.apply cw).getLsbD 7 = true) := by
  revert hlow
  cases src <;> cases dst <;> simp only [transitions, Option.some.injEq, reduceCtorEq] at hop <;>
    first
    | contradiction
    | subst hop
      simp [lowBitsSet, Op.apply, Op.disableVoltage, Op.automatic, Op.shutdown, Op.switchOn,
        Op.quickstop, Op.faultReset]

end RosCanopen.Cia402
