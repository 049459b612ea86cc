import RosCanopen.Lib.Threads
import RosCanopen.Ros2Control.Hardware
import RosCanopen.Ros2Control.RobotSystem

/-!
# Hardware components and their lifecycle

ros2_control constructs a component, takes it through the states of a lifecycle by the virtual
functions of `SystemInterface`, and destroys it.  A component owns an executor, a device
container and two threads: one spins the executor until it is cancelled, the other initialises
the container while `on_configure` waits for it.

## Main definitions

* `Members`, `Callback` — what a component owns, and functions that work on it.
* `SystemInterface`, `SystemInterface.step` — a class of components in the lifecycle.
* `CanopenSystem.component`, `Cia402System.component`, `RobotSystem.component` — the classes.
-/

namespace RosCanopen.Ros2Control

open Lib Cia402

/-- The members that own a thread. -/
inductive ThreadMember
  | spinThread
  | initThread
  deriving DecidableEq

/-- The drivers that a device container has registered, with their types. -/
abbrev Drivers := List (BitVec 16 × String)

/-- What a component owns, with the data `δ` of its joints. -/
structure Members (δ : Type) where
  executor : Bool
  deviceContainer : Option Drivers
  threads : Pool ThreadMember
  data : δ

inductive CallbackReturn
  | success
  | failure
  | error
  deriving DecidableEq

/-- A function on the members; it ends with the first fault. -/
abbrev Callback (δ α : Type) := StateT (Members δ) (Except Fault) α

namespace Callback
variable {δ : Type}

def makeExecutor : Callback δ Unit := fun m => .ok ((), { m with executor := true })

/-- `executor_->cancel()` -/
def cancel : Callback δ Unit := fun m => if m.executor then .ok ((), m) else .error .null

def resetExecutor : Callback δ Unit := fun m => .ok ((), { m with executor := false })

def makeContainer : Callback δ Unit := fun m => .ok ((), { m with deviceContainer := some [] })

def resetContainer : Callback δ Unit := fun m => .ok ((), { m with deviceContainer := none })

/-- `device_container_->get_registered_drivers()` -/
def registeredDrivers : Callback δ Drivers := fun m =>
  match m.deviceContainer with
  | none => .error .null
  | some drivers => .ok (drivers, m)

def onThreads (f : Pool ThreadMember → Except Fault (Pool ThreadMember)) : Callback δ Unit :=
  fun m => (f m.threads).map fun threads => ((), { m with threads })

def start (k : ThreadMember) : Callback δ Unit := onThreads (Pool.start k)

def join (k : ThreadMember) : Callback δ Unit := onThreads (Pool.join k)

def reset (k : ThreadMember) : Callback δ Unit := onThreads (Pool.reset k)

def isJoinable (k : ThreadMember) : Callback δ Bool := fun m =>
  (m.threads.isJoinable k).map fun b => (b, m)

/-- The work of the init thread.  When `device_container_->init` throws there are no drivers, and
nothing catches it. -/
def initDeviceContainer (drivers : Option Drivers) (allocate : Drivers → δ → δ) :
    Callback δ Unit := fun m =>
  match m.deviceContainer, drivers with
  | none, _ => .error .null
  | some _, none => .error .terminated
  | some _, some drivers =>
      .ok ((), { m with deviceContainer := some drivers, data := allocate drivers m.data })

/-- `on_configure` with the work of the class's `initDeviceContainer`. -/
def configure (drivers : Option Drivers) (allocate : Drivers → δ → δ) :
    Callback δ CallbackReturn := do
  makeExecutor
  makeContainer
  start .spinThread
  start .initThread
  initDeviceContainer drivers allocate
  if ← isJoinable .initThread then
    join .initThread
    pure .success
  else
    pure .error

/-- What the compiler destroys after the body of a destructor. -/
def destroyMembers : Callback δ Unit := do
  reset .initThread
  reset .spinThread
  resetExecutor
  resetContainer

end Callback

/-! ## The lifecycle -/

/-- The states that ros2_control keeps, and the end of the component. -/
inductive LifecycleState
  | unknown
  | unconfigured
  | inactive
  | active
  | finalized
  | destroyed
  deriving DecidableEq

/-- What ros2_control does with a component.  `ι` is what happens while it is configured. -/
inductive LifecycleInput (ι : Type)
  /-- With the result of `on_init` of the base class. -/
  | init (base : CallbackReturn)
  /-- With the drivers that the device container registers. -/
  | configure (drivers : Option Drivers)
  | activate (succeeds : MotorKey → Bool)
  | deactivate (succeeds : MotorKey → Bool)
  | cleanup
  | shutdown
  | cycle (i : ι)
  | destroy

inductive LifecycleEvent (β : Type)
  | fault (f : Fault)
  /-- `on_configure` has returned, and the component serves the joints. -/
  | configured (joints : List β)

/-- When ros2_control issues a callback, and where its result leads. -/
def LifecycleState.next {ι : Type} :
    LifecycleState → LifecycleInput ι → Option (CallbackReturn → LifecycleState)
  | .unknown, .init _ => some fun r => if r = .success then .unconfigured else .finalized
  | .unconfigured, .configure _ => some fun
      | .success => .inactive
      | .failure => .unconfigured
      | .error => .finalized
  | .inactive, .activate _ => some fun
      | .success => .active
      | .failure => .inactive
      | .error => .finalized
  | .active, .deactivate _ => some fun
      | .success => .inactive
      | .failure => .active
      | .error => .finalized
  | .inactive, .cleanup => some fun r => if r = .success then .unconfigured else .finalized
  | .unconfigured, .shutdown | .inactive, .shutdown | .active, .shutdown =>
      some fun _ => .finalized
  | .inactive, .cycle _ => some fun _ => .inactive
  | .active, .cycle _ => some fun _ => .active
  | .destroyed, _ => none
  | _, .destroy => some fun _ => .destroyed
  | _, _ => none

/-- The virtual functions of a class, and the joints that its data serve. -/
structure SystemInterface (δ ι β : Type) where
  constructed : δ
  onInit : CallbackReturn → Callback δ CallbackReturn
  onConfigure : Option Drivers → Callback δ CallbackReturn
  onActivate : (MotorKey → Bool) → Callback δ CallbackReturn
  onDeactivate : (MotorKey → Bool) → Callback δ CallbackReturn
  onCleanup : Callback δ CallbackReturn
  onShutdown : Callback δ CallbackReturn
  cycle : ι → Callback δ Unit
  destruct : Callback δ Unit
  joints : δ → List β

structure Component (δ : Type) where
  lifecycle : LifecycleState
  members : Members δ

namespace SystemInterface
variable {δ ι β : Type}

def callback (c : SystemInterface δ ι β) : LifecycleInput ι → Callback δ CallbackReturn
  | .init base => c.onInit base
  | .configure drivers => c.onConfigure drivers
  | .activate succeeds => c.onActivate succeeds
  | .deactivate succeeds => c.onDeactivate succeeds
  | .cleanup => c.onCleanup
  | .shutdown => c.onShutdown
  | .cycle i => do
      c.cycle i
      pure .success
  | .destroy => do
      c.destruct
      Callback.destroyMembers
      pure .success

def events (c : SystemInterface δ ι β) (r : CallbackReturn) (m : Members δ) :
    LifecycleInput ι → List (LifecycleEvent β)
  | .configure _ => if r = .success then [.configured (c.joints m.data)] else []
  | _ => []

/-- One step; after a fault there is no component any more. -/
def step (c : SystemInterface δ ι β) (s : Option (Component δ)) (i : LifecycleInput ι) :
    Option (Option (Component δ) × List (LifecycleEvent β)) :=
  match s with
  | none => none
  | some s =>
      (s.lifecycle.next i).map fun after =>
        match c.callback i s.members with
        | .error f => (none, [.fault f])
        | .ok (r, m) => (some ⟨after r, m⟩, c.events r m i)

/-- A step that is taken runs the callback. -/
theorem step_cases {c : SystemInterface δ ι β} {s s' : Option (Component δ)}
    {i : LifecycleInput ι} {es : List (LifecycleEvent β)} (h : c.step s i = some (s', es)) :
    ∃ t after, s = some t ∧ t.lifecycle.next i = some after ∧
      ((∃ f, c.callback i t.members = .error f ∧ s' = none ∧ es = [.fault f]) ∨
        ∃ r m, c.callback i t.members = .ok (r, m) ∧ s' = some ⟨after r, m⟩ ∧
          es = c.events r m i) := by
  cases s with
  | none => cases h
  | some t =>
      obtain ⟨after, hafter, heq⟩ := Option.map_eq_some_iff.mp h
      refine ⟨t, after, rfl, hafter, ?_⟩
      cases hcallback : c.callback i t.members with
      | error f =>
          rw [hcallback] at heq
          obtain ⟨rfl, rfl⟩ := Prod.mk.inj heq
          exact .inl ⟨f, rfl, rfl, rfl⟩
      | ok p =>
          rw [hcallback] at heq
          obtain ⟨rfl, rfl⟩ := Prod.mk.inj heq
          exact .inr ⟨p.1, p.2, rfl, rfl, rfl⟩

/-- A component of the class from its construction on. -/
def system (c : SystemInterface δ ι β) :
    System (Option (Component δ)) (LifecycleInput ι) (LifecycleEvent β) where
  init s := s = some ⟨.unknown, ⟨false, none, Pool.empty, c.constructed⟩⟩
  step := c.step

end SystemInterface

/-! ## The classes -/

open Callback

namespace CanopenSystem

def clean : Callback Hardware Unit := do
  cancel
  join .spinThread
  resetContainer
  resetExecutor
  if ← isJoinable .initThread then
    join .initThread
  reset .initThread
  resetExecutor
  reset .spinThread

/-- With the export of the interfaces, which makes the entries of the joints. -/
def onInit (joints : List (BitVec 8)) (base : CallbackReturn) :
    Callback Hardware CallbackReturn := fun m =>
  if base = .success then .ok (.success, { m with data := .exported ⟨joints, []⟩ })
  else .ok (.error, m)

def onConfigure (joints : List (BitVec 8)) (drivers : Option Drivers) :
    Callback Hardware CallbackReturn :=
  configure drivers fun drivers => initDeviceContainer ⟨joints, drivers.map Prod.fst⟩

/-- `on_cleanup` and `on_shutdown`. -/
def onCleanup : Callback Hardware CallbackReturn := do
  clean
  pure .success

/-- Of what happens only `write` asks the device container. -/
def driversFor : HardwareInput → Callback Hardware Drivers
  | .write _ _ => registeredDrivers
  | _ => pure []

def cycle (joints : List (BitVec 8)) (i : HardwareInput) : Callback Hardware Unit := do
  let drivers ← driversFor i
  fun m =>
    match step ⟨joints, drivers.map Prod.fst⟩ m.data i with
    | none => .ok ((), m)
    | some (data, _) => .ok ((), { m with data })

/-- The joints that have an entry. -/
def servedJoints (joints : List (BitVec 8)) (s : Hardware) : List (BitVec 8) :=
  joints.filter fun id => id.toNat ∈ s.keys

/-- The class, for joints with the node ids. -/
def component (joints : List (BitVec 8)) : SystemInterface Hardware HardwareInput (BitVec 8) where
  constructed := ⟨[], fun _ => .fresh⟩
  onInit := onInit joints
  onConfigure := onConfigure joints
  onActivate _ := pure .success
  onDeactivate _ := pure .success
  onCleanup := onCleanup
  onShutdown := onCleanup
  cycle := cycle joints
  destruct := clean
  joints := servedJoints joints

end CanopenSystem

namespace Cia402System

def onConfigure (drivers : Option Drivers) : Callback Hardware CallbackReturn :=
  configure drivers fun _ s => s

/-- `read` and `write` ask the device container. -/
def driversFor : HardwareInput → Callback Hardware Drivers
  | .read | .write _ _ => registeredDrivers
  | _ => pure []

def cycle (joints : List (BitVec 8)) (i : HardwareInput) : Callback Hardware Unit := do
  let drivers ← driversFor i
  fun m =>
    match stepAlive ⟨joints, drivers.map Prod.fst⟩ m.data i with
    | none => .ok ((), m)
    | some (none, _) => .error .null
    | some (some data, _) => .ok ((), { m with data })

/-- The class; what it does not override it inherits. -/
def component (joints : List (BitVec 8)) : SystemInterface Hardware HardwareInput (BitVec 8) :=
  { CanopenSystem.component joints with
    onConfigure := onConfigure
    cycle := cycle joints }

end Cia402System

/-- What happens to a robot system while it is configured. -/
inductive RobotCycle
  | read (motors : MotorKey → MotorState)
  | set (joint : ℕ) (interface : TargetInterface) (x : Double)
  | write (modes : MotorKey → ModeId)

def RobotCycle.input : RobotCycle → RobotInput
  | read motors => .read motors
  | set joint interface x => .set joint interface x
  | write modes => .write modes

namespace RobotSystem

/-- The parameters without which there is no component. -/
def required : List String := ["bus_config", "master_config", "can_interface_name"]

/-- The joints up to the first with a driver that is not supported, and whether there is none. -/
def loadJoints : List Joint → List Cia402Data × Bool
  | [] => ([], true)
  | joint :: joints =>
      if joint.driverType = "ros2_canopen::Cia402Driver" then
        ((Cia402Data.initData joint).toList ++ (loadJoints joints).1, (loadJoints joints).2)
      else ([], false)

def onInit (parameters : List String) (joints : List Joint) (base : CallbackReturn) :
    Callback (List Cia402Data) CallbackReturn := fun m =>
  if base = .success ∧ required ⊆ parameters then
    .ok (if (loadJoints joints).2 then .success else .error,
      { m with data := (loadJoints joints).1 })
  else .ok (.error, m)

def onConfigure (drivers : Option Drivers) : Callback (List Cia402Data) CallbackReturn :=
  configure drivers fun drivers => List.map (Cia402Data.allocate fun k => drivers.lookup k)

/-- A callback that calls the drivers. -/
def call (i : RobotInput) : Callback (List Cia402Data) Bool := fun m =>
  let (data, ok, es) := execute m.data i
  if es.any RobotEvent.isNull then .error .null else .ok (ok, { m with data })

def onActivate (succeeds : MotorKey → Bool) : Callback (List Cia402Data) CallbackReturn := do
  if ← call (.activate succeeds) then pure .success else pure .failure

def onDeactivate (succeeds : MotorKey → Bool) : Callback (List Cia402Data) CallbackReturn := do
  if ← call (.deactivate succeeds) then pure .success else pure .failure

def clean : Callback (List Cia402Data) Unit := do
  cancel
  join .spinThread
  resetContainer
  resetExecutor
  -- without asking whether it can be joined
  join .initThread
  reset .initThread
  resetExecutor
  reset .spinThread
  modify fun m => { m with data := [] }

/-- `on_cleanup` and `on_shutdown`. -/
def onCleanup : Callback (List Cia402Data) CallbackReturn := do
  clean
  pure .success

/-- The class, for a robot with the parameters and the joints. -/
def component (parameters : List String) (joints : List Joint) :
    SystemInterface (List Cia402Data) RobotCycle String where
  constructed := []
  onInit := onInit parameters joints
  onConfigure := onConfigure
  onActivate := onActivate
  onDeactivate := onDeactivate
  onCleanup := onCleanup
  onShutdown := onCleanup
  cycle i := do
    let _ ← call i.input
  -- the destructor is the default
  destruct := pure ()
  joints := List.map Cia402Data.jointName

end RobotSystem

end RosCanopen.Ros2Control
