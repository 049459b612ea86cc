import RosCanopen.Cia402.PowerStateMachine
import RosCanopen.Lib.System

/-!
# The fake CiA 402 slave

`CIA402MockSlave` matches the bits of each control word it is sent, several tests
in a row, and sets or clears status bits one at a time.  Its mode threads touch
status bits too, none of them a state bit.  One `OnWrite` is one step here; the
members that the constructor leaves uninitialised start with any value.

## Main definitions

* `MockSlave` — the members of `CIA402MockSlave` that `OnWrite` reads or writes.
* `MockSlave.onWriteControlWord`, `MockSlave.onWriteOperationMode` — the two
  branches of `OnWrite`.
* `MockSlave.system` — the slave from construction on.
* `MockSlave.Coherent` — the status word names the slave's own state.
* `MockSlave.state_onWriteControlWord` — the slave is the power state machine.
-/

namespace RosCanopen.Cia402

open Lib

/-- The slave's members.  `statusObject` and `modeDisplay` are the dictionary
entries 0x6041 and 0x6061. -/
structure MockSlave where
  statusWord : Word
  controlWord : Word
  state : InternalState
  operationMode : BitVec 8
  oldOperationMode : BitVec 8
  isRelative : Bool
  isHalt : Bool
  isNewSetPoint : Bool
  statusObject : Word
  modeDisplay : BitVec 8
  deriving DecidableEq

namespace MockSlave

/-! ## Status bits -/

/-- `set_status_bit`. -/
def setStatusBit (s : MockSlave) (i : ℕ) : MockSlave :=
  { s with statusWord := overwrite 0 (bit i) s.statusWord }

/-- `clear_status_bit`. -/
def clearStatusBit (s : MockSlave) (i : ℕ) : MockSlave :=
  { s with statusWord := overwrite (bit i) 0 s.statusWord }

/-- Store the status word in the dictionary, as before each `TpdoEvent(1)`. -/
def publishStatus (s : MockSlave) : MockSlave := { s with statusObject := s.statusWord }

open StatusWord in
def setSwitchOnDisabled (s : MockSlave) : MockSlave :=
  ({ s with state := .switchOnDisabled }.clearStatusBit readyToSwitchOn
    |>.clearStatusBit switchedOn |>.clearStatusBit operationEnabled |>.clearStatusBit fault
    |>.setStatusBit switchOnDisabled)

open StatusWord in
def setReadyToSwitchOn (s : MockSlave) : MockSlave :=
  ({ s with state := .readyToSwitchOn }.setStatusBit readyToSwitchOn
    |>.clearStatusBit switchedOn |>.clearStatusBit operationEnabled |>.clearStatusBit fault
    |>.setStatusBit quickStop |>.clearStatusBit switchOnDisabled)

open StatusWord in
def setSwitchOn (s : MockSlave) : MockSlave :=
  ({ s with state := .switchedOn }.setStatusBit readyToSwitchOn
    |>.setStatusBit switchedOn |>.clearStatusBit operationEnabled |>.clearStatusBit fault
    |>.setStatusBit quickStop |>.clearStatusBit switchOnDisabled)

open StatusWord in
def setOperationEnabled (s : MockSlave) : MockSlave :=
  ({ s with state := .operationEnable }.setStatusBit readyToSwitchOn
    |>.setStatusBit switchedOn |>.setStatusBit operationEnabled |>.clearStatusBit fault
    |>.setStatusBit quickStop |>.clearStatusBit switchOnDisabled)

open StatusWord in
def setQuickStop (s : MockSlave) : MockSlave :=
  ({ s with state := .quickStopActive }.setStatusBit readyToSwitchOn
    |>.setStatusBit switchedOn |>.setStatusBit operationEnabled |>.clearStatusBit fault
    |>.clearStatusBit quickStop |>.clearStatusBit switchOnDisabled)

/-! ## Tests of the control word -/

section Tests
variable (cw : Word)

def isShutdown : Bool := !cw.getLsbD 7 && cw.getLsbD 2 && cw.getLsbD 1 && !cw.getLsbD 0

def isDisableVoltage : Bool := !cw.getLsbD 7 && !cw.getLsbD 1

def isSwitchOn : Bool :=
  !cw.getLsbD 7 && !cw.getLsbD 3 && cw.getLsbD 2 && cw.getLsbD 1 && cw.getLsbD 0

def isEnableOperation : Bool :=
  !cw.getLsbD 7 && cw.getLsbD 3 && cw.getLsbD 2 && cw.getLsbD 1 && cw.getLsbD 0

def isQuickstop : Bool := !cw.getLsbD 7 && !cw.getLsbD 2 && cw.getLsbD 1

/-- The source spells it `is_faul_reset`. -/
def isFaulReset : Bool := cw.getLsbD 7

end Tests

/-! ## Reactions to a control word -/

def onNotReadyToSwitchOn (s : MockSlave) : MockSlave := s.setSwitchOnDisabled

def onSwitchOnDisabled (s : MockSlave) : MockSlave :=
  if isShutdown s.controlWord then s.setReadyToSwitchOn else s

def onReadyToSwitchOn (s : MockSlave) : MockSlave :=
  let s := if isDisableVoltage s.controlWord then s.setSwitchOnDisabled else s
  let s := if isSwitchOn s.controlWord then s.setSwitchOn else s
  if isFaulReset s.controlWord then s.setReadyToSwitchOn else s

def onSwitchedOn (s : MockSlave) : MockSlave :=
  let s := if isDisableVoltage s.controlWord then s.setSwitchOnDisabled else s
  let s := if isShutdown s.controlWord then s.setReadyToSwitchOn else s
  if isEnableOperation s.controlWord then s.setOperationEnabled else s

/-- The mode-dependent flags of the control word. -/
def storeModeFlags (s : MockSlave) : MockSlave :=
  { s with
    isRelative := s.controlWord.getLsbD 6
    isHalt := s.controlWord.getLsbD 8
    isNewSetPoint := s.controlWord.getLsbD 4 }

/-- On a change of mode the homing and acknowledge bits are cleared and the thread
of the new mode takes over from the old ones, which have been joined. -/
def changeMode (s : MockSlave) : MockSlave :=
  if s.oldOperationMode = s.operationMode then s
  else
    { ((s.clearStatusBit StatusWord.operationModeSpecific0).clearStatusBit
        StatusWord.targetReached).publishStatus with oldOperationMode := s.operationMode }

def onOperationEnabled (s : MockSlave) : MockSlave :=
  let s := if isDisableVoltage s.controlWord then s.setSwitchOnDisabled else s
  let s := if isShutdown s.controlWord then s.setReadyToSwitchOn else s
  let s := if isSwitchOn s.controlWord then s.setSwitchOn else s
  let s := if isQuickstop s.controlWord then s.setQuickStop else s
  s.storeModeFlags.changeMode

def onQuickstopActive (s : MockSlave) : MockSlave :=
  let s := if isEnableOperation s.controlWord then s.setOperationEnabled else s
  if isDisableVoltage s.controlWord then s.setSwitchOnDisabled else s

/-- `set_new_status_word_and_state`. -/
def setNewStatusWordAndState (s : MockSlave) : MockSlave :=
  match s.state with
  | .notReadyToSwitchOn => s.onNotReadyToSwitchOn
  | .switchOnDisabled => s.onSwitchOnDisabled
  | .readyToSwitchOn => s.onReadyToSwitchOn
  | .switchedOn => s.onSwitchedOn
  | .operationEnable => s.onOperationEnabled
  | .quickStopActive => s.onQuickstopActive
  | _ => s

/-- `OnWrite(0x6040, 0)` after the master wrote `cw`. -/
def onWriteControlWord (s : MockSlave) (cw : Word) : MockSlave :=
  { s with controlWord := cw }.setNewStatusWordAndState.publishStatus

/-- `OnWrite(0x6060, 0)` after the master wrote `mode`: an unknown mode is displayed
but not stored. -/
def onWriteOperationMode (s : MockSlave) (mode : BitVec 8) : MockSlave :=
  { s with
    operationMode := if mode.toNat ≤ 10 then mode else s.operationMode
    modeDisplay := mode }

/-- The status bits the mode threads set and clear. -/
def threadBits : List ℕ :=
  [StatusWord.voltageEnabled, StatusWord.remote, StatusWord.targetReached,
    StatusWord.operationModeSpecific0, StatusWord.manufacturerSpecific1]

/-- What reaches the slave. -/
inductive Input
  | controlWord (cw : Word)
  | operationMode (mode : BitVec 8)
  /-- A mode thread sets or clears one of its status bits. -/
  | threadBit (i : Fin threadBits.length) (value : Bool)
  /-- A mode thread publishes the status word. -/
  | threadPublish
  deriving DecidableEq

/-- One input. -/
def handle (s : MockSlave) : Input → MockSlave
  | .controlWord cw => s.onWriteControlWord cw
  | .operationMode mode => s.onWriteOperationMode mode
  | .threadBit i true => s.setStatusBit threadBits[i]
  | .threadBit i false => s.clearStatusBit threadBits[i]
  | .threadPublish => s.publishStatus

/-- The slave from construction: state and status word are set, the rest is whatever
the memory held. -/
def system : System MockSlave Input Empty where
  init s := s.state = .notReadyToSwitchOn ∧ s.statusWord = 0 ∧ s.operationMode = 0
  step s i := some (s.handle i, [])

/-! ## The slave is the power state machine -/

@[simp] theorem state_setStatusBit (s : MockSlave) (i : ℕ) :
    (s.setStatusBit i).state = s.state := rfl
@[simp] theorem state_clearStatusBit (s : MockSlave) (i : ℕ) :
    (s.clearStatusBit i).state = s.state := rfl
@[simp] theorem state_publishStatus (s : MockSlave) : s.publishStatus.state = s.state := rfl
@[simp] theorem state_storeModeFlags (s : MockSlave) : s.storeModeFlags.state = s.state := rfl

@[simp] theorem state_changeMode (s : MockSlave) : s.changeMode.state = s.state := by
  unfold changeMode; split <;> rfl

/-- Each test recognises the words of one command. -/
theorem tests_eq (cw : Word) :
    isShutdown cw = decide (powerCommand cw = .shutdown) ∧
      isDisableVoltage cw = decide (powerCommand cw = .disableVoltage) ∧
      isSwitchOn cw = decide (powerCommand cw = .switchOn) ∧
      isEnableOperation cw = decide (powerCommand cw = .enableOperation) ∧
      isQuickstop cw = decide (powerCommand cw = .quickStop) ∧
      isFaulReset cw = decide (powerCommand cw = .faultReset) := by
  unfold powerCommand isShutdown isDisableVoltage isSwitchOn isEnableOperation isQuickstop
    isFaulReset
  split_ifs <;> simp_all

/-- **The slave refines the power state machine**: a control word moves it exactly
as the command that the word names. -/
theorem state_onWriteControlWord (s : MockSlave) (cw : Word) :
    (s.onWriteControlWord cw).state = react s.state (powerCommand cw) := by
  obtain ⟨h1, h2, h3, h4, h5, h6⟩ := tests_eq cw
  simp only [onWriteControlWord, state_publishStatus, setNewStatusWordAndState]
  cases hs : s.state <;>
    simp only [onNotReadyToSwitchOn, onSwitchOnDisabled, onReadyToSwitchOn, onSwitchedOn,
      onOperationEnabled, onQuickstopActive] <;>
    cases hc : powerCommand cw <;>
    simp [*, react, setSwitchOnDisabled, setReadyToSwitchOn, setSwitchOn, setOperationEnabled,
      setQuickStop, setStatusBit, clearStatusBit]

end MockSlave
end RosCanopen.Cia402
