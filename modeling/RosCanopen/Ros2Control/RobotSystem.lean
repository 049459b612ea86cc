import RosCanopen.Cia402.Mode
import RosCanopen.Lib.Sweep
import RosCanopen.Lib.System

/-!
# The robot system

`RobotSystem` serves the motors of a robot's joints: `Cia402Data` holds what a joint's device is
configured with, the driver that `initDeviceContainer` allocates to it, and the lists by which
command modes are switched.  A device has several motors, one for each channel, and the calls of
a driver take the channel as an argument that defaults to 0.

## Main definitions

* `Joint`, `Cia402Data` — a joint as configured, and its data.
* `RobotSystem.step` — activation, cycles and mode switches, with every call of a driver.
-/

namespace RosCanopen.Ros2Control

open Lib Cia402

/-- A joint with the entries of its device. -/
structure Joint where
  name : String
  /-- The entry `driver`. -/
  driverType : String
  nodeId : Option (BitVec 16)
  channel : Option (BitVec 8)
  positionMode : Option ModeId
  velocityMode : Option ModeId
  effortMode : Option ModeId
  deriving DecidableEq

structure Cia402Data where
  nodeId : BitVec 8
  channel : BitVec 8
  jointName : String
  /-- The key of the driver in `registered_drivers_`, or a null pointer. -/
  driver : Option (BitVec 16)
  commandInterfaceToOperationMode : List (String × ModeId)
  interfaces : List String
  interfacesToStart : List String
  interfacesToRunning : List String
  interfacesToStop : List String
  actualPosition : Double
  actualVelocity : Double
  actualEffort : Double
  targetPosition : Double
  targetVelocity : Double
  targetTorque : Double

/-- A motor: the key of its driver, and the channel. -/
abbrev MotorKey := BitVec 16 × BitVec 8

inductive MotorCall
  | initMotor
  | haltMotor
  | getPosition
  | getSpeed
  | getEffort
  | getMode
  | setTarget (target : Double)
  | setOperationMode (mode : ModeId)

/-- What the getters of a motor return. -/
structure MotorState where
  position : Double
  speed : Double
  effort : Double

inductive RobotEvent
  /-- A call on behalf of a joint; without a motor a null pointer is dereferenced. -/
  | called (joint : ℕ) (motor : Option MotorKey) (call : MotorCall)
  /-- What the state interfaces of a joint show after a read, and what the motors were in. -/
  | reported (joint : ℕ) (shown : MotorState) (motors : MotorKey → MotorState)
  /-- A mode switch has returned. -/
  | switched (startInterfaces stopInterfaces : List String)
      (accepts : MotorKey → ModeId → Bool) (ok : Bool)

def RobotEvent.isNull : RobotEvent → Bool
  | called _ none _ => true
  | _ => false

namespace Cia402Data

/-- The interface of a joint and its mode, where the device names one. -/
def registerMode (joint : Joint) (interface : String) (mode : Option ModeId) :
    List (String × ModeId) :=
  (mode.map fun m => (joint.name ++ "/" ++ interface, m)).toList

/-- The data of a joint with a node id, and the interfaces that `export_command_interface`
exports. -/
def ofDevice (joint : Joint) (nodeId : BitVec 16) : Cia402Data :=
  let modes := registerMode joint "position" joint.positionMode ++
    registerMode joint "velocity" joint.velocityMode ++
    registerMode joint "effort" joint.effortMode
  { nodeId := nodeId.setWidth 8
    channel := joint.channel.getD 0
    jointName := joint.name
    driver := none
    commandInterfaceToOperationMode := modes
    interfaces := modes.map Prod.fst
    interfacesToStart := []
    interfacesToRunning := []
    interfacesToStop := []
    actualPosition := .nan
    actualVelocity := .nan
    actualEffort := .nan
    targetPosition := .nan
    targetVelocity := .nan
    targetTorque := .nan }

def initData (joint : Joint) : Option Cia402Data := joint.nodeId.map (ofDevice joint)

/-- The part of `initDeviceContainer` for a joint, with the types of the registered drivers. -/
def allocate (drivers : BitVec 16 → Option String) (d : Cia402Data) : Cia402Data :=
  if drivers (d.nodeId.setWidth 16) = some "ros2_canopen::Cia402Driver" then
    { d with driver := some (d.nodeId.setWidth 16) }
  else d

/-- The motor that a call without a channel addresses. -/
def motor (d : Cia402Data) : Option MotorKey := d.driver.map fun k => (k, 0)

/-- A call whose result decides whether `on_activate` or `on_deactivate` goes on. -/
def request (c : MotorCall) (succeeds : MotorKey → Bool) (j : ℕ) (d : Cia402Data) :
    Cia402Data × Bool × List RobotEvent :=
  (d, d.motor.any succeeds, [.called j d.motor c])

def readState (motors : MotorKey → MotorState) (j : ℕ) (d : Cia402Data) :
    Cia402Data × Bool × List RobotEvent :=
  match d.motor with
  | none => (d, false, [.called j none .getPosition])
  | some a =>
      let d := { d with
        actualPosition := (motors a).position
        actualVelocity := (motors a).speed
        actualEffort := (motors a).effort }
      let shown := ⟨d.actualPosition, d.actualVelocity, d.actualEffort⟩
      (d, true, [.reported j shown motors, .called j (some a) .getEffort,
        .called j (some a) .getSpeed, .called j (some a) .getPosition])

/-- The target for the mode. -/
def targetOf (d : Cia402Data) (mode : ModeId) : Option Double :=
  if mode = .profiledPosition ∨ mode = .cyclicSynchronousPosition ∨ mode = .interpolatedPosition
  then some d.targetPosition
  else if mode = .profiledVelocity ∨ mode = .cyclicSynchronousVelocity then some d.targetVelocity
  else if mode = .profiledTorque ∨ mode = .cyclicSynchronousTorque then some d.targetTorque
  else none

def writeTarget (modes : MotorKey → ModeId) (j : ℕ) (d : Cia402Data) :
    Cia402Data × Bool × List RobotEvent :=
  match d.motor with
  | none => (d, false, [.called j none .getMode])
  | some a =>
      let set := ((d.targetOf (modes a)).map fun x => RobotEvent.called j (some a) (.setTarget x))
      (d, true, set.toList ++ [.called j (some a) .getMode])

/-- `perform_switch` -/
def performSwitch (accepts : MotorKey → ModeId → Bool) (j : ℕ) (d : Cia402Data) :
    Cia402Data × Bool × List RobotEvent :=
  match d.interfacesToStart with
  | [] => (d, true, [])
  | [interface] =>
      let mode := (d.commandInterfaceToOperationMode.lookup interface).getD .noMode
      let d := { d with
        interfacesToRunning := [interface]
        interfacesToStop := []
        interfacesToStart := [] }
      (d, d.motor.any fun a => accepts a mode, [.called j d.motor (.setOperationMode mode)])
  | _ :: _ :: _ => (d, false, [])

end Cia402Data

/-- The joints, and the types of the drivers that the device container has registered. -/
structure RobotConfig where
  joints : List Joint
  drivers : BitVec 16 → Option String

/-- A target of a joint. -/
inductive TargetInterface
  | position
  | velocity
  | effort

inductive RobotInput
  | activate (succeeds : MotorKey → Bool)
  | deactivate (succeeds : MotorKey → Bool)
  | read (motors : MotorKey → MotorState)
  /-- A controller writes a command interface of a joint. -/
  | set (joint : ℕ) (interface : TargetInterface) (x : Double)
  /-- The modes that the motors are in. -/
  | write (modes : MotorKey → ModeId)
  /-- `perform_command_mode_switch`, with the answers of `set_operation_mode`. -/
  | switch (startInterfaces stopInterfaces : List String) (accepts : MotorKey → ModeId → Bool)

def RobotInput.isSwitch : RobotInput → Bool
  | switch _ _ _ => true
  | _ => false

namespace RobotSystem

/-- `robot_motor_data_` as `on_init` and `on_configure` leave it. -/
def configured (c : RobotConfig) : List Cia402Data :=
  (c.joints.filterMap Cia402Data.initData).map (Cia402Data.allocate c.drivers)

def setTarget (x : Double) (d : Cia402Data) : TargetInterface → Cia402Data
  | .position => { d with targetPosition := x }
  | .velocity => { d with targetVelocity := x }
  | .effort => { d with targetTorque := x }

/-- Change the data of the first joint that has the interface. -/
def register (f : Cia402Data → Cia402Data) (interface : String) :
    List Cia402Data → List Cia402Data
  | [] => []
  | d :: ds => if interface ∈ d.interfaces then f d :: ds else d :: register f interface ds

/-- Register the interfaces to start and to stop. -/
def registerAll (startInterfaces stopInterfaces : List String) (ds : List Cia402Data) :
    List Cia402Data :=
  -- `CommandInterface(interface).get_interface_name()` is the name it is constructed from
  let start (ds : List Cia402Data) (interface : String) : List Cia402Data :=
    register (fun d => { d with interfacesToStart := d.interfacesToStart ++ [interface] })
      interface ds
  let stop (ds : List Cia402Data) (interface : String) : List Cia402Data :=
    register (fun d => { d with interfacesToStop := d.interfacesToStop ++ [interface] })
      interface ds
  stopInterfaces.foldl stop (startInterfaces.foldl start ds)

/-- `perform_command_mode_switch`; what it returns is `OK` when all joints have switched. -/
def performCommandModeSwitch (startInterfaces stopInterfaces : List String)
    (accepts : MotorKey → ModeId → Bool) (ds : List Cia402Data) :
    List Cia402Data × Bool × List RobotEvent :=
  let (ds, ok, es) := walk (Cia402Data.performSwitch accepts) 0
    (registerAll startInterfaces stopInterfaces ds)
  (ds, ok, .switched startInterfaces stopInterfaces accepts ok :: es)

/-- A callback with its calls. -/
def execute (ds : List Cia402Data) : RobotInput → List Cia402Data × Bool × List RobotEvent
  | .activate succeeds => walk (Cia402Data.request .initMotor succeeds) 0 ds
  | .deactivate succeeds => walk (Cia402Data.request .haltMotor succeeds) 0 ds
  | .read motors => walk (Cia402Data.readState motors) 0 ds
  | .set joint interface x => (ds.modify joint fun d => setTarget x d interface, true, [])
  | .write modes => walk (Cia402Data.writeTarget modes) 0 ds
  | .switch startInterfaces stopInterfaces accepts =>
      performCommandModeSwitch startInterfaces stopInterfaces accepts ds

/-- Only a switch changes more than what is read and the targets. -/
theorem map_execute {α : Type*} {g : Cia402Data → α}
    (hactual : ∀ d x v e,
      g { d with actualPosition := x, actualVelocity := v, actualEffort := e } = g d)
    (htarget : ∀ x d interface, g (setTarget x d interface) = g d) (ds : List Cia402Data)
    {i : RobotInput} (hi : i.isSwitch = false) : (execute ds i).1.map g = ds.map g := by
  cases i with
  | activate succeeds => exact map_walk fun _ _ => rfl
  | deactivate succeeds => exact map_walk fun _ _ => rfl
  | read motors =>
      apply map_walk
      intro j d
      unfold Cia402Data.readState
      split
      · rfl
      · exact hactual d _ _ _
  | set joint interface x =>
      apply List.ext_getElem?
      intro j
      by_cases heq : joint = j
      · subst heq
        cases hd : ds[joint]? <;> simp [execute, hd, htarget]
      · simp [execute, heq]
  | write modes =>
      apply map_walk
      intro j d
      unfold Cia402Data.writeTarget
      split <;> rfl
  | switch startInterfaces stopInterfaces accepts => cases hi

/-- One step; after a null pointer was dereferenced there is no state any more. -/
def step (s : Option (List Cia402Data)) (i : RobotInput) :
    Option (Option (List Cia402Data) × List RobotEvent) :=
  match s with
  | none => none
  | some ds =>
      let (ds, _, es) := execute ds i
      some (if es.any RobotEvent.isNull then none else some ds, es)

/-- A step that is taken leaves the data behind, or nothing any more. -/
theorem step_cases {s s' : Option (List Cia402Data)} {i : RobotInput} {es : List RobotEvent}
    (h : step s i = some (s', es)) :
    ∃ ds, s = some ds ∧ es = (execute ds i).2.2 ∧ (s' = none ∨ s' = some (execute ds i).1) := by
  cases s with
  | none => cases h
  | some ds =>
      obtain ⟨rfl, rfl⟩ := Prod.mk.inj (Option.some.inj h)
      refine ⟨ds, rfl, rfl, ?_⟩
      by_cases hnull : (execute ds i).2.2.any RobotEvent.isNull = true
      · exact .inl (if_pos hnull)
      · exact .inr (if_neg hnull)

/-- The component from its configuration on. -/
def system (c : RobotConfig) : System (Option (List Cia402Data)) RobotInput RobotEvent where
  init s := s = some (configured c)
  step := step

end RobotSystem

end RosCanopen.Ros2Control
