import RosCanopen.Cia402.Mode
import RosCanopen.Lib.System
import Mathlib.Logic.Function.Basic

/-!
# The motor and its threads

`Motor402` is called from several threads: the poll timer reads and writes, services
set targets, switch modes, enable, disable, recover and halt.  The calls that wait for
the drive consist of many atomic steps, each under the mutex that guards it or on one
atomic member, and every thread may run between any two of them.

`handleWrite` is one step here.  It holds `cw_mutex_` throughout, and all that changes the
control word takes it; so results about the control word need no finer steps.  What
`cw_mutex_` does not guard may change under it: `WriteSteps` has the steps of `handleWrite`
apart, and `motion_authorised` and `homing_real_of_held` are about those.

`readState` returns true or throws; its callers' tests of the result are left out.

A thread is at a `Code`, with the frames it will return to.  The environment decides
what the drive reports, when a wait times out and which accesses to the driver throw;
a thread that meets an exception leaves its call.

## Main definitions

* `Motor` — the members of `Motor402`.
* `Call`, `Code`, `Frame`, `Next` — calls, program points, frames, and where a step leads.
* `Motor.exec` — one step of a thread.
* `Motor.system` — the motor from construction, with all its threads.
-/

namespace RosCanopen.Cia402

open Lib

/-- The members of `Motor402`.  The pointer `selected_mode_` is given by the id of its
mode object, which `modes_` keeps. -/
structure Motor where
  statusWord : Word
  controlWord : Word
  startFaultReset : Bool
  targetState : InternalState
  /-- The state held by `state_handler_`. -/
  state : InternalState
  modes : ModeId → Option Mode
  modeAllocators : List ModeId
  selectedMode : Option ModeId
  modeId : ModeId
  switchingState : InternalState
  channelOffset : BitVec 16

/-- The calls of the motor. -/
inductive Call
  | pollTimerCallback
  | handleRead
  | handleWrite
  | setTarget (val : Double)
  | enterModeAndWait (mode : ModeId)
  | handleInit
  | handleEnable
  | handleDisable
  | handleRecover
  | handleHalt
  | handleShutdown
  deriving DecidableEq

/-- What an outside observer sees of a step. -/
inductive MotorEvent
  | called (call : Call)
  | returned (call : Call) (ok : Bool)
  | threw (call : Call)
  /-- A status word has been decoded. -/
  | decoded (old new : InternalState)
  /-- The drive has displayed its mode. -/
  | displayed (mode : ModeId)
  /-- `start()` of a mode has run. -/
  | started (mode : ModeId)
  /-- `setTarget` of a mode has accepted a value. -/
  | accepted (mode : ModeId) (val : Double)
  /-- `execute_` of the homing mode has been set. -/
  | executed
  /-- `execute_` of the homing mode has been cleared. -/
  | withdrawn
  /-- A target object has been written. -/
  | target (mode : ModeId) (index : BitVec 16) (sub : BitVec 8) (value : ℤ)
  /-- `handleWrite` has streamed a control word. -/
  | controlWord (index : BitVec 16) (cw : Word)
  /-- The operation mode object has been written. -/
  | opMode (index : BitVec 16) (mode : BitVec 8)
  deriving DecidableEq

/-- What the environment decides in a step: what the drive reports, whether the driver
throws, whether a wait has timed out, and what fresh memory holds. -/
structure Env where
  statusWord : Word
  modeDisplay : BitVec 8
  supportedModes : BitVec 32
  homingMethod : BitVec 8
  driverOk : Bool
  /-- Of the streaming of the control word, after the mode has written. -/
  streamOk : Bool
  timedOut : Bool
  raw : Mode.Raw

/-- The program points of the calls, named after the next step. -/
inductive Code
  | readStatus
  | readDecode (sw : Word)
  | readMode (sw : Word)
  | write
  | targetCheck (val : Double)
  | targetSet (val : Double)
  | refuse
  | modeEnter (mode : ModeId)
  | modeStart (mode : ModeId)
  | modeDisable (mode : ModeId)
  | opModeWrite (mode : ModeId)
  | modeWait (mode : ModeId)
  | stateEnter (target : InternalState)
  | stateSet (target state : InternalState)
  | stateCheck (target state : InternalState)
  | stateTransit (target state : InternalState)
  | stateWait (target state : InternalState)
  | initAlloc (todo : List ModeId)
  | initArm
  | initHoming
  | homingMethod
  | homingPrepare
  | homingStart
  | homingAttain
  | homingStop
  | haltCheck
  | haltLocked (state : InternalState)
  | recoverArm
  | recoverRestart
  deriving DecidableEq

/-- What a call does once an inner call has returned. -/
inductive Frame
  /-- The poll timer goes on with `handleWrite`. -/
  | thenWrite
  /-- `handleInit` goes on after `readState`. -/
  | thenArm
  /-- Go on with `switchState`, whatever the inner call has returned. -/
  | thenState (target : InternalState)
  /-- `switchMode` goes on after its first `switchState`. -/
  | thenOpMode (mode : ModeId)
  /-- `switchMode` returns `okay` if its second `switchState` succeeds. -/
  | thenOkay (okay : Bool)
  /-- `handleInit` goes on after `switchState`. -/
  | thenHoming
  /-- `handleInit` goes on after `switchMode(Homing)`. -/
  | thenExecute
  deriving DecidableEq

/-- Where a step leads. -/
inductive Next
  | goto (code : Code)
  | call (frame : Frame) (code : Code)
  | ret (ok : Bool)
  | throw
  deriving DecidableEq

/-- Return through the frames: to a program point, or out of the call. -/
def unwind : Bool → List Frame → (Code × List Frame) ⊕ Bool
  | ok, [] => .inr ok
  | _, .thenWrite :: frames => .inl (.write, frames)
  | _, .thenArm :: frames => .inl (.initArm, frames)
  | _, .thenState target :: frames => .inl (.stateEnter target, frames)
  | true, .thenOpMode mode :: frames => .inl (.opModeWrite mode, frames)
  | false, .thenOpMode _ :: frames => unwind false frames
  | true, .thenOkay okay :: frames => unwind okay frames
  | false, .thenOkay _ :: frames => unwind false frames
  | true, .thenHoming :: frames => .inl (.initHoming, frames)
  | false, .thenHoming :: frames => unwind false frames
  | true, .thenExecute :: frames => .inl (.homingMethod, frames)
  | false, .thenExecute :: frames => unwind false frames

namespace Motor

/-- `get_channel_index`. -/
def channelIndex (m : Motor) (base : BitVec 16) : BitVec 16 := base + m.channelOffset

/-- Replace the object of a mode. -/
def setMode (m : Motor) (id : ModeId) (mode : Mode) : Motor :=
  { m with modes := Function.update m.modes id (some mode) }

/-- `isModeSupportedByDevice`, by the supported modes that the drive reports. -/
def isModeSupportedByDevice (mode : ModeId) (supported : BitVec 32) : Bool :=
  decide (mode.toNat ≤ 32) && decide (0 < mode.toNat) && supported.getLsbD (mode.toNat - 1)

/-- `allocMode`. -/
def allocMode (m : Motor) (mode : ModeId) (supported : BitVec 32) : Option Mode :=
  if isModeSupportedByDevice mode supported then m.modes mode else none

/-- The write of the operation mode object. -/
def opModeEvent (m : Motor) (mode : ModeId) : MotorEvent :=
  .opMode (m.channelIndex 0x6060) (mode.setWidth 8)

/-- What `handleWrite` streams: a pending fault reset is withheld once. -/
def streamed (m : Motor) : Word :=
  if m.startFaultReset then overwrite (bit ControlWord.faultReset) 0 m.controlWord
  else m.controlWord

/-- Stream the control word, the last thing in `handleWrite`. -/
def stream (m : Motor) (ok : Bool) : Motor × Next × List MotorEvent :=
  let s := { m with startFaultReset := false }
  if ok then (s, .ret true, [.controlWord (m.channelIndex 0x6040) m.streamed])
  else (s, .throw, [])

/-- The selected mode, if it is the one that the drive displays. -/
def activeMode (m : Motor) : Option (ModeId × Mode) :=
  match m.selectedMode with
  | some id => if id = m.modeId then (m.modes id).map fun mode => (id, mode) else none
  | none => none

/-- The write of a mode in `handleWrite`, on the control word with the halt bit set. -/
def modeWrite (m : Motor) (mode : Mode) (env : Env) : ModeWrite :=
  mode.write m.channelOffset (overwrite 0 (bit ControlWord.halt) m.controlWord) env.driverOk

/-- The target object that a mode has written. -/
def targetEvent (id : ModeId) (r : ModeWrite) : List MotorEvent :=
  (r.target.map fun (index, sub, value) => MotorEvent.target id index sub value).toList

/-- `handleWrite`. -/
def handleWrite (m : Motor) (env : Env) : Motor × Next × List MotorEvent :=
  let halted := overwrite 0 (bit ControlWord.halt) m.controlWord
  if m.state = .operationEnable then
    match m.activeMode with
    | some (id, mode) =>
        let r := m.modeWrite mode env
        let cw := if r.okay then overwrite (bit ControlWord.halt) 0 r.cw else r.cw
        let m := { m.setMode id r.mode with controlWord := cw }
        if r.threw then (m, .throw, [])
        else
          let (m, next, es) := m.stream env.streamOk
          (m, next, es ++ targetEvent id r)
    | none => { m with controlWord := OpModeAccesser.assign halted 0 }.stream env.streamOk
  else { m with controlWord := halted }.stream env.streamOk

/-- The homing mode. -/
def homing (m : Motor) : Bool × Word :=
  match m.modes ModeId.homing with
  | some (.homing execute status) => (execute, status)
  | _ => (false, 0)

/-- Set or clear `execute_` of the homing mode. -/
def setExecute (m : Motor) (execute : Bool) : Motor :=
  m.setMode ModeId.homing (.homing execute m.homing.2)

/-- `DefaultHomingMode::error`, which also ends `handleInit`. -/
def homingError (m : Motor) : Motor × Next × List MotorEvent :=
  (m.setExecute false, .ret false, [.withdrawn])

/-- A wait of `executeHoming` on its status: until `ready` holds or the time is up. -/
def homingWait (m : Motor) (timedOut : Bool) (ready : Bool)
    (next : Motor × Next × List MotorEvent) : Option (Motor × Next × List MotorEvent) :=
  if ready then
    if m.homing.2.getLsbD StatusWord.operationModeSpecific1 then some m.homingError else some next
  else if timedOut then some m.homingError else none

/-- `setTarget` of the selected mode. -/
def setSelectedTarget (m : Motor) (val : Double) : Motor × Next × List MotorEvent :=
  match m.selectedMode with
  | some id =>
      match m.modes id with
      | some mode =>
          let (mode, ok) := mode.setTarget val
          (m.setMode id mode, .ret ok, if ok then [.accepted id val] else [])
      | none => (m, .ret false, [])
  | none => (m, .ret false, [])

/-- `read()` of the selected mode, if it is the displayed one. -/
def readSelected (m : Motor) (mode : ModeId) (sw : Word) : Motor :=
  if m.selectedMode = some mode then
    { m with modes := Function.update m.modes mode ((m.modes mode).map (Mode.read sw)) }
  else m

/-- `start()` of a mode. -/
def startMode (m : Motor) (id : ModeId) : Motor × List MotorEvent :=
  match m.modes id with
  | some mode => (m.setMode id mode.start, [.started id])
  | none => (m, [])

/-! ## One step of a thread -/

/-- The step at a program point; `none` while it is blocked.  Events are newest first. -/
def exec (m : Motor) (env : Env) : Code → Option (Motor × Next × List MotorEvent)
  -- `readState`
  | .readStatus =>
      if env.driverOk then
        some ({ m with statusWord := env.statusWord }, .goto (.readDecode env.statusWord), [])
      else some (m, .throw, [])
  | .readDecode sw =>
      let new := State402.read sw
      some ({ m with state := new }, .goto (.readMode sw), [.decoded m.state new])
  | .readMode sw =>
      if env.driverOk then
        let mode := env.modeDisplay.signExtend 16
        some ({ m.readSelected mode sw with modeId := mode }, .ret true, [.displayed mode])
      else some (m, .throw, [])
  | .write => some (m.handleWrite env)
  -- `setTarget`
  | .targetCheck val =>
      if m.state = .operationEnable then some (m, .goto (.targetSet val), [])
      else some (m, .ret false, [])
  | .targetSet val => some (m.setSelectedTarget val)
  | .refuse => some (m, .ret false, [])
  -- `switchMode`
  | .modeEnter mode =>
      if mode = ModeId.noMode then
        -- an exception of the write is caught
        some ({ m with selectedMode := none }, .ret true,
          if env.driverOk then [m.opModeEvent mode] else [])
      else if env.driverOk then
        if (m.allocMode mode env.supportedModes).isSome then some (m, .goto (.modeStart mode), [])
        else some (m, .ret false, [])
      else some (m, .throw, [])
  | .modeStart mode =>
      let (m, es) := m.startMode mode
      some (m, .goto (.modeDisable mode), es)
  | .modeDisable mode =>
      if m.modeId = mode ∧ m.selectedMode = some mode then some (m, .ret true, [])
      else
        some ({ m with selectedMode := none },
          .call (.thenOpMode mode) (.stateEnter m.switchingState), [])
  | .opModeWrite mode =>
      if env.driverOk then some (m, .goto (.modeWait mode), [m.opModeEvent mode])
      else some (m, .throw, [])
  | .modeWait mode =>
      if m.modeId = mode then
        some ({ m with selectedMode := some mode },
          .call (.thenOkay true) (.stateEnter .operationEnable), [])
      else if env.timedOut then
        if env.driverOk then
          some (m, .call (.thenOkay false) (.stateEnter .operationEnable), [m.opModeEvent m.modeId])
        else some (m, .throw, [])
      else none
  -- `switchState`
  | .stateEnter target => some (m, .goto (.stateSet target m.state), [])
  | .stateSet target state =>
      some ({ m with targetState := target }, .goto (.stateCheck target state), [])
  | .stateCheck target state =>
      if state = m.targetState then some (m, .ret (decide (state = target)), [])
      else some (m, .goto (.stateTransit target state), [])
  | .stateTransit target state =>
      match setTransition m.controlWord state m.targetState (some .unknown) with
      | (true, cw, next) =>
          some ({ m with controlWord := cw },
            .goto (if next = some state then .stateCheck target state
              else .stateWait target state), [])
      | (false, cw, _) => some ({ m with controlWord := cw }, .ret false, [])
  | .stateWait target state =>
      if m.state ≠ state then some (m, .goto (.stateCheck target m.state), [])
      else if env.timedOut then some (m, .ret false, [])
      else none
  -- `handleInit`
  | .initAlloc [] => some (m, .call .thenArm .readStatus, [])
  | .initAlloc (id :: todo) =>
      if env.driverOk then
        let mode :=
          if isModeSupportedByDevice id env.supportedModes then Mode.fresh id env.raw else none
        some ({ m with modes := Function.update m.modes id (m.modes id <|> mode) },
          .goto (.initAlloc todo), [])
      else some (m, .throw, [])
  | .initArm =>
      some ({ m with controlWord := 0, startFaultReset := true },
        .call .thenHoming (.stateEnter .operationEnable), [])
  | .initHoming =>
      if env.driverOk then
        match m.allocMode ModeId.homing env.supportedModes with
        | none => some (m, .ret true, [])
        | some (.homing _ _) => some (m, .call .thenExecute (.modeEnter ModeId.homing), [])
        | some _ => some (m, .ret false, [])
      else some (m, .throw, [])
  -- `executeHoming`, and `switchMode(No_Mode)` after it
  | .homingMethod =>
      if env.driverOk then
        some (m, .goto (if env.homingMethod = 0 then .modeEnter ModeId.noMode
          else .homingPrepare), [])
      else some (m, .throw, [])
  | .homingPrepare =>
      m.homingWait env.timedOut (m.homing.2 &&& (bit 13 ||| bit 10) ≠ 0)
        (m.setExecute true, .goto .homingStart, [.executed])
  | .homingStart =>
      m.homingWait env.timedOut (m.homing.2 &&& (bit 13 ||| bit 12 ||| bit 10) ≠ bit 10)
        (m, .goto .homingAttain, [])
  | .homingAttain =>
      m.homingWait env.timedOut (m.homing.2 &&& (bit 13 ||| bit 12) ≠ 0)
        (m, .goto .homingStop, [])
  | .homingStop =>
      m.homingWait env.timedOut (m.homing.2 &&& (bit 13 ||| bit 10) ≠ 0)
        (if m.homing.2.getLsbD 10 ∧ m.homing.2.getLsbD 12 then
          (m.setExecute false, .goto (.modeEnter ModeId.noMode), [.withdrawn])
        else m.homingError)
  -- `handleHalt`
  | .haltCheck => some (m, .goto (.haltLocked m.state), [])
  | .haltLocked state =>
      -- no quick stop is demanded in case of a fault
      if state = .faultReactionActive ∨ state = .fault then some (m, .ret false, [])
      else if state ≠ .operationEnable then
        some ({ m with targetState := state }, .ret true, [])
      else
        let m := { m with targetState := .quickStopActive }
        match setTransition m.controlWord state .quickStopActive none with
        | (ok, cw, _) => some ({ m with controlWord := cw }, .ret ok, [])
  -- `handleRecover`
  | .recoverArm => some ({ m with startFaultReset := true }, .goto .recoverRestart, [])
  | .recoverRestart =>
      match m.selectedMode with
      | some id =>
          let (m, es) := m.startMode id
          some (m, .goto (.stateEnter .operationEnable), es)
      | none => some (m, .goto (.stateEnter .operationEnable), [])

end Motor

/-! ## Threads -/

/-- Where a call starts. -/
def Call.entry (m : Motor) : Call → Code × List Frame
  | .pollTimerCallback => (.readStatus, [.thenWrite])
  | .handleRead => (.readStatus, [])
  | .handleWrite => (.write, [])
  | .setTarget val => (.targetCheck val, [])
  | .enterModeAndWait mode =>
      (if mode = ModeId.homing then .refuse else .modeEnter mode, [])
  | .handleInit => (.initAlloc m.modeAllocators, [])
  | .handleEnable => (.readStatus, [.thenState .operationEnable])
  | .handleDisable => (.readStatus, [.thenState .switchedOn])
  | .handleRecover => (.recoverArm, [])
  | .handleHalt => (.haltCheck, [])
  | .handleShutdown => (.modeEnter ModeId.noMode, [.thenState .switchOnDisabled])

/-- A thread inside a call. -/
structure Thread where
  call : Call
  code : Code
  frames : List Frame
  deriving DecidableEq

/-- The thread after a step, and what it reports on leaving its call. -/
def Thread.after (t : Thread) : Next → Option Thread × List MotorEvent
  | .goto code => (some { t with code := code }, [])
  | .call frame code => (some { t with code := code, frames := frame :: t.frames }, [])
  | .ret ok =>
      match unwind ok t.frames with
      | .inl (code, frames) => (some { t with code := code, frames := frames }, [])
      | .inr ok => (none, [.returned t.call ok])
  | .throw => (none, [.threw t.call])

/-- The motor with the threads inside it. -/
structure MotorSystem where
  motor : Motor
  threads : ℕ → Option Thread

/-- A step: a thread enters a call, or goes on with the one it is in. -/
inductive MotorStep
  | enter (thread : ℕ) (call : Call)
  | go (thread : ℕ) (env : Env)

/-- A thread enters a call and takes `n` steps in it. -/
def MotorStep.calls (thread : ℕ) (call : Call) (n : ℕ) (env : Env) : List MotorStep :=
  .enter thread call :: List.replicate n (.go thread env)

/-- A drive that answers every access, with these values. -/
def Env.answering (statusWord : Word) (modeDisplay : BitVec 8) (supportedModes : BitVec 32) :
    Env where
  statusWord := statusWord
  modeDisplay := modeDisplay
  supportedModes := supportedModes
  homingMethod := 0
  driverOk := true
  streamOk := true
  timedOut := false
  raw := ⟨⟨0, false⟩, .nan, 0, false⟩

/-- An enabled drive that supports `Profiled_Velocity` only, and displays it. -/
def Env.velocity : Env := .answering 0x27 3 4

/-- `handleInit`, `enterModeAndWait(Profiled_Velocity)` and `setTarget` on such a drive. -/
def MotorStep.aimVelocity (val : Double) : List MotorStep :=
  MotorStep.calls 1 .handleInit 10 Env.velocity ++
    MotorStep.calls 1 (.enterModeAndWait ModeId.profiledVelocity) 11 Env.velocity ++
    MotorStep.calls 1 (.setTarget val) 2 Env.velocity

namespace MotorSystem

/-- One step. -/
def step (s : MotorSystem) : MotorStep → Option (MotorSystem × List MotorEvent)
  | .enter i call =>
      match s.threads i with
      | some _ => none
      | none =>
          let (code, frames) := call.entry s.motor
          some ({ s with threads := Function.update s.threads i (some ⟨call, code, frames⟩) },
            [.called call])
  | .go i env =>
      match s.threads i with
      | none => none
      | some t =>
          (s.motor.exec env t.code).map fun (m, next, es) =>
            (⟨m, Function.update s.threads i (t.after next).1⟩, (t.after next).2 ++ es)

/-- The motor as constructed: no mode, an unknown state, and no thread in a call.  All
that the constructor leaves uninitialised is arbitrary. -/
def Constructed (s : MotorSystem) : Prop :=
  s.motor.state = .start ∧ s.motor.modes = (fun _ => none) ∧ s.motor.selectedMode = none ∧
    s.threads = fun _ => none

/-- A motor constructed where the memory was zero but for the control word. -/
def zeroed (controlWord : Word) (modeAllocators : List ModeId) : MotorSystem where
  motor :=
    { statusWord := 0
      controlWord := controlWord
      startFaultReset := false
      targetState := .unknown
      state := .start
      modes := fun _ => none
      modeAllocators := modeAllocators
      selectedMode := none
      modeId := 0
      switchingState := .operationEnable
      channelOffset := 0 }
  threads := fun _ => none

/-- The motor from construction. -/
def system : System MotorSystem MotorStep MotorEvent where
  init := Constructed
  step := step

theorem constructed_zeroed (controlWord : Word) (modeAllocators : List ModeId) :
    (zeroed controlWord modeAllocators).Constructed :=
  ⟨rfl, rfl, rfl, rfl⟩

end MotorSystem
end RosCanopen.Cia402
