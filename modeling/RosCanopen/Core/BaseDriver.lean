import RosCanopen.Lib.System
import Mathlib.Data.Int.Notation

/-!
# The calls of a driver

`NodeCanopenDriver` keeps four flags and passes the work of a call to functions that
`NodeCanopenBaseDriver` and its derived classes override.  These change the bridge, the tasks
of the executor and the thread of the NMT listener one after the other, may throw in between,
and take nothing back when they do.

## Main definitions

* `NodeCanopenBaseDriver` — a driver and what it owns.
* `NodeCanopenBaseDriver.step`, `NodeCanopenBaseDriver.system` — its calls in any order, with
  the tasks of the executor between their steps.
-/

namespace RosCanopen.Core

open Lib

/-- The entries of a driver in the configuration that its functions read; `none` where the
conversion throws. -/
structure DriverEntries where
  dcfPath : Option String
  dcf : Option String
  nonTransmitTimeout : Option ℤ
  polling : Option Bool
  period : Option (BitVec 32)
  diagnosticsEnable : Option Bool
  diagnosticsPeriod : Option (BitVec 32)
  sdoTimeoutMs : Option ℤ
  bootTimeoutMs : Option ℤ
  deriving DecidableEq

/-- The values of the ROS parameters, `config` as parsed; `none` where parsing it throws. -/
structure DriverParameters where
  containerName : String
  nodeId : BitVec 64
  nonTransmitTimeout : ℤ
  config : Option DriverEntries
  deriving DecidableEq

/-- What `configure` sets. -/
structure DriverConfig where
  containerName : String
  nodeId : BitVec 8
  nonTransmitTimeout : ℤ
  eds : String
  bin : String
  polling : Bool
  periodMs : BitVec 32
  diagnosticEnabled : Bool
  diagnosticPeriodMs : BitVec 32
  sdoTimeoutMs : ℤ
  bootTimeoutMs : ℤ
  deriving DecidableEq

namespace DriverConfig

/-- The hook `configure(bool)`. -/
def configureHook (c : DriverConfig) (e : DriverEntries) : DriverConfig :=
  let polling := e.polling.getD true
  let diagnosticEnabled := e.diagnosticsEnable.getD false
  { c with
    nonTransmitTimeout := e.nonTransmitTimeout.getD c.nonTransmitTimeout
    polling := polling
    periodMs := if polling then e.period.getD 10 else c.periodMs
    diagnosticEnabled := diagnosticEnabled
    diagnosticPeriodMs :=
      if diagnosticEnabled then e.diagnosticsPeriod.getD 1000 else c.diagnosticPeriodMs
    sdoTimeoutMs := e.sdoTimeoutMs.getD 20
    bootTimeoutMs := e.bootTimeoutMs.getD 1000 }

/-- `configure`, from the parameters to the hook; with `false` where it throws. -/
def configure (c : DriverConfig) (name : String) (p : DriverParameters) : DriverConfig × Bool :=
  let c := { c with containerName := p.containerName, nodeId := p.nodeId.setWidth 8 }
  match p.config with
  | none => (c, false)
  | some e =>
      let c := { c with nonTransmitTimeout := p.nonTransmitTimeout }
      match e.dcfPath, e.dcf with
      | some path, some dcf =>
          let c := { c with eds := path ++ "/" ++ dcf, bin := path ++ "/" ++ name ++ ".bin" }
          (c.configureHook e, true)
      | _, _ => (c, false)

end DriverConfig

/-- A bridge, which is registered with its master from its construction to its destruction. -/
structure BridgeObject where
  master : ℕ
  nodeId : BitVec 8
  name : String
  eds : String
  bin : String
  timeout : ℤ
  bootTimeout : ℤ
  deriving DecidableEq

/-- The functions of a driver that others call. -/
inductive DriverCall
  | init
  | configure (p : DriverParameters)
  | setMaster (exec master : ℕ)
  | activate
  | deactivate
  | cleanup
  | shutdown
  deriving DecidableEq

/-- What is posted to the executor. -/
inductive DriverTask
  /-- `add_to_master`: construct the bridge. -/
  | construct
  /-- `remove_from_master`: reset the pointers to it. -/
  | reset
  /-- A derived class: reset the object that shares the bridge. -/
  | release
  deriving DecidableEq

/-- Where a call is; `shutdown` is whether `shutdown` goes on after it. -/
inductive DriverPc
  | idle
  /-- The hook of `init`. -/
  | initialising
  /-- The rest of the hook of `configure`. -/
  | configuring
  /-- `add_to_master` waits for its task. -/
  | adding (task : ℕ)
  /-- In `wait_for_boot`. -/
  | booting (attempts : ℕ)
  /-- An override of `add_to_master`, after that of the base class. -/
  | added
  /-- The hook of `activate`, up to the thread. -/
  | activating
  /-- The hook of `activate`, with the thread started. -/
  | started
  /-- `remove_from_master` waits for its task. -/
  | removing (task : ℕ) (shutdown : Bool)
  /-- The hook of `deactivate`, up to the join. -/
  | deactivating (shutdown : Bool)
  /-- The hook of `deactivate`, with the thread joined. -/
  | joined (shutdown : Bool)
  /-- The hook of `cleanup`, up to that of the base class. -/
  | cleaning (shutdown : Bool)
  /-- The hook of `cleanup`, after that of the base class. -/
  | cleaned (shutdown : Bool)
  /-- The hook of `shutdown`. -/
  | shuttingDown
  deriving DecidableEq

inductive DriverEvent
  | returned
  /-- With the text of a `DriverException`, or any other exception. -/
  | threw (what : Option String)
  /-- A thread is assigned, to one that was joinable or not. -/
  | threadStarted (joinable : Bool)
  /-- A bridge is inserted, for a node that had one already or not. -/
  | inserted (second : Bool)
  deriving DecidableEq

inductive DriverInput
  | call (c : DriverCall)
  /-- The executor runs a task, which may throw. -/
  | run (task : ℕ) (throws : Bool)
  /-- A wait for a task ends with its result; then `IsReady()`. -/
  | ready (isReady : Bool)
  /-- A wait for a task ends without. -/
  | timeout
  /-- `wait_for_boot` returns or throws. -/
  | boot (ok : Bool)
  /-- A derived class makes an object that shares the bridge. -/
  | share
  /-- A derived class posts the end of that object. -/
  | release
  /-- The function that the call is in returns, or passes the point named by the state. -/
  | proceed
  /-- The function that the call is in throws. -/
  | throw
  deriving DecidableEq

structure NodeCanopenBaseDriver where
  /-- The name of the node. -/
  name : String
  /-- The parameters of the node have been declared. -/
  declared : Bool
  masterSet : Bool
  initialised : Bool
  configured : Bool
  activated : Bool
  exec : Option ℕ
  master : Option ℕ
  config : DriverConfig
  lelyDriver : Option BridgeObject
  driver : Option BridgeObject
  /-- The bridge of the object of a derived class: a motor, an axis, a remote. -/
  device : Option BridgeObject
  /-- The value of the promise that the call waits for. -/
  promise : Option BridgeObject
  /-- `nmt_state_publisher_thread_` is joinable. -/
  nmtStatePublisherThread : Bool
  /-- The tasks not run yet. -/
  tasks : List (ℕ × DriverTask)
  /-- The number of tasks posted. -/
  posted : ℕ
  pc : DriverPc
  deriving DecidableEq

namespace NodeCanopenBaseDriver

/-- The bridges that something owns: those registered with a master. -/
def registered (s : NodeCanopenBaseDriver) : List BridgeObject :=
  s.lelyDriver.toList ++ s.driver.toList ++ s.device.toList ++ s.promise.toList

/-- The first check that fails. -/
def firstOf (checks : List (Bool × String)) : Option String :=
  (checks.find? Prod.fst).map Prod.snd

/-- The exception of the checks at the head of a function. -/
def refusal (s : NodeCanopenBaseDriver) : DriverCall → Option String
  | .init => firstOf
      [(s.configured, "Init: Driver is already configured"),
        (s.activated, "Init: Driver is already activated")]
  | .configure _ => firstOf
      [(!s.initialised, "Configure: driver is not initialised"),
        (s.configured, "Configure: driver is already configured"),
        (s.activated, "Configure: driver is already activated")]
  | .setMaster _ _ => firstOf
      [(!s.configured, "Set Master: driver is not configured"),
        (s.activated, "Set Master: driver is not activated")]
  | .activate => firstOf
      [(!s.masterSet, "Activate: master is not set"),
        (!s.initialised, "Activate: driver is not initialised"),
        (!s.configured, "Activate: driver is not configured"),
        (s.activated, "Activate: driver is already activated")]
  | .deactivate => firstOf
      [(!s.masterSet, "Activate: master is not set"),
        (!s.initialised, "Deactivate: driver is not initialised"),
        (!s.configured, "Deactivate: driver is not configured"),
        (!s.activated, "Deactivate: driver is not activated")]
  | .cleanup => firstOf
      [(!s.initialised, "Cleanup: driver is not initialised"),
        (!s.configured, "Cleanup: driver is not configured"),
        (s.activated, "Cleanup: driver is still activated")]
  | .shutdown => none

/-- The end of a call. -/
def finish (s : NodeCanopenBaseDriver) (e : DriverEvent) :
    NodeCanopenBaseDriver × List DriverEvent :=
  ({ s with pc := .idle, promise := none }, [e])

def post (s : NodeCanopenBaseDriver) (t : DriverTask) : NodeCanopenBaseDriver :=
  { s with tasks := s.tasks ++ [(s.posted, t)], posted := s.posted + 1 }

/-- `deactivate` behind its checks, to the wait in `remove_from_master`. -/
def beginDeactivate (s : NodeCanopenBaseDriver) (shutdown : Bool) : NodeCanopenBaseDriver :=
  { s.post .reset with activated := false, pc := .removing s.posted shutdown }

/-- `shutdown` from its test of `configured_`. -/
def shutdownCleanup (s : NodeCanopenBaseDriver) : NodeCanopenBaseDriver × List DriverEvent :=
  if s.configured then
    match s.refusal .cleanup with
    | some what => s.finish (.threw (some what))
    | none => ({ s with pc := .cleaning true }, [])
  else ({ s with pc := .shuttingDown }, [])

/-- A call behind its checks, to the first point where others may step in. -/
def enter (s : NodeCanopenBaseDriver) : DriverCall → NodeCanopenBaseDriver × List DriverEvent
  | .init =>
      -- a parameter cannot be declared twice
      if s.declared then s.finish (.threw none)
      else ({ s with declared := true, pc := .initialising }, [])
  | .configure p =>
      let result := s.config.configure s.name p
      let s := { s with config := result.1 }
      if result.2 then ({ s with pc := .configuring }, [])
      else s.finish (.threw none)
  | .setMaster exec master =>
      { s with exec := some exec, master := some master, masterSet := true }.finish .returned
  | .activate => ({ s.post .construct with pc := .adding s.posted }, [])
  | .deactivate => (s.beginDeactivate false, [])
  | .cleanup => ({ s with pc := .cleaning false }, [])
  | .shutdown =>
      if s.activated then
        match s.refusal .deactivate with
        | some what => s.finish (.threw (some what))
        | none => (s.beginDeactivate true, [])
      else s.shutdownCleanup

/-- What follows `deactivate`, or `cleanup`, in its caller. -/
def afterDeactivate (s : NodeCanopenBaseDriver) (shutdown : Bool) :
    NodeCanopenBaseDriver × List DriverEvent :=
  if shutdown then s.shutdownCleanup else s.finish .returned

def afterCleanup (s : NodeCanopenBaseDriver) (shutdown : Bool) :
    NodeCanopenBaseDriver × List DriverEvent :=
  if shutdown then ({ s with pc := .shuttingDown }, []) else s.finish .returned

/-- The bridge that the task constructs, once the master is set. -/
def bridge (s : NodeCanopenBaseDriver) (master : ℕ) : BridgeObject where
  master := master
  nodeId := s.config.nodeId
  name := s.name
  eds := s.config.eds
  bin := s.config.bin
  timeout := s.config.sdoTimeoutMs
  bootTimeout := s.config.bootTimeoutMs

/-- The master knows a driver for the node. -/
def taken (s : NodeCanopenBaseDriver) (b : BridgeObject) : Bool :=
  s.registered.any fun b' => b'.master = b.master ∧ b'.nodeId = b.nodeId

/-- The task of `add_to_master`; the master refuses a second driver for a node by an
exception, and a bridge of which another part throws is gone with it. -/
def construct (s : NodeCanopenBaseDriver) (task : ℕ) (throws : Bool) :
    Option (NodeCanopenBaseDriver × List DriverEvent) :=
  match s.exec, s.master with
  | some _, some master =>
      let b := s.bridge master
      if s.taken b then some (s, [.inserted true])
      else if throws then some (s, [.inserted false])
      else some ({ s with
        lelyDriver := some b
        driver := some b
        promise := if s.pc = .adding task then some b else s.promise }, [.inserted false])
  -- `*exec_` or `*master_` of a null pointer
  | _, _ => none

def runTask (s : NodeCanopenBaseDriver) (task : ℕ) (throws : Bool) :
    DriverTask → Option (NodeCanopenBaseDriver × List DriverEvent)
  | .construct => s.construct task throws
  | .reset => some ({ s with driver := none, lelyDriver := none }, [])
  | .release => some ({ s with device := none }, [])

/-- A wait has found the result of its task. -/
def ready (s : NodeCanopenBaseDriver) (isReady : Bool) :
    Option (NodeCanopenBaseDriver × List DriverEvent) :=
  match s.pc with
  | .adding _ =>
      match s.promise with
      | none => none
      | some b =>
          some ({ s with
            lelyDriver := some b
            driver := some b
            promise := none
            pc := if isReady then .added else .booting 1 }, [])
  | .removing task shutdown =>
      if (s.tasks.lookup task).isSome then none
      else some ({ s with pc := .deactivating shutdown }, [])
  | _ => none

def timeout (s : NodeCanopenBaseDriver) : Option (NodeCanopenBaseDriver × List DriverEvent) :=
  match s.pc with
  | .adding _ =>
      if s.promise.isSome then none
      else some (s.finish (.threw (some "add_to_master: adding timed out")))
  | .removing task _ =>
      if (s.tasks.lookup task).isSome then
        some (s.finish (.threw (some "remove_from_master: removing timed out")))
      else none
  | _ => none

def maxBootAttempts : ℕ := 3

/-- `wait_for_boot` has returned or thrown. -/
def boot (s : NodeCanopenBaseDriver) (ok : Bool) :
    Option (NodeCanopenBaseDriver × List DriverEvent) :=
  match s.pc with
  | .booting attempts =>
      if ok then some ({ s with pc := .added }, [])
      else if attempts < maxBootAttempts then some ({ s with pc := .booting (attempts + 1) }, [])
      else
        let what := "Boot failed after " ++ toString attempts ++ " attempts"
        some (s.finish (.threw (some what)))
  | _ => none

/-- The call passes the point where it is. -/
def proceed (s : NodeCanopenBaseDriver) : Option (NodeCanopenBaseDriver × List DriverEvent) :=
  match s.pc with
  | .initialising => some ({ s with initialised := true }.finish .returned)
  | .configuring => some ({ s with configured := true }.finish .returned)
  | .added => some ({ s with pc := .activating }, [])
  | .activating =>
      some ({ s with nmtStatePublisherThread := true, pc := .started },
        [.threadStarted s.nmtStatePublisherThread])
  | .started => some ({ s with activated := true }.finish .returned)
  | .deactivating shutdown =>
      -- `join` of a thread that is not joinable throws
      if s.nmtStatePublisherThread then
        some ({ s with nmtStatePublisherThread := false, pc := .joined shutdown }, [])
      else some (s.finish (.threw none))
  | .joined shutdown => some (s.afterDeactivate shutdown)
  | .cleaning shutdown =>
      some ({ s with exec := none, master := none, masterSet := false, pc := .cleaned shutdown },
        [])
  | .cleaned shutdown => some ({ s with configured := false }.afterCleanup shutdown)
  | .shuttingDown =>
      some ({ s with
        masterSet := false, initialised := false, configured := false,
        activated := false }.finish .returned)
  | _ => none

/-- The call is in code that may throw: that of derived classes, or the NMT command and the
new boot between two attempts. -/
def mayThrow (s : NodeCanopenBaseDriver) : Bool :=
  match s.pc with
  | .idle | .adding _ | .removing _ _ => false
  | _ => true

/-- The tasks left once one has been taken. -/
def without (s : NodeCanopenBaseDriver) (task : ℕ) : NodeCanopenBaseDriver :=
  { s with tasks := s.tasks.filter (·.1 ≠ task) }

def step (s : NodeCanopenBaseDriver) :
    DriverInput → Option (NodeCanopenBaseDriver × List DriverEvent)
  | .call c =>
      if s.pc = .idle then
        match s.refusal c with
        | some what => some (s.finish (.threw (some what)))
        | none => some (s.enter c)
      else none
  | .run task throws =>
      match s.tasks.lookup task with
      | some t => (s.without task).runTask task throws t
      | none => none
  | .ready isReady => s.ready isReady
  | .timeout => s.timeout
  | .boot ok => s.boot ok
  | .share => if s.pc = .added then some ({ s with device := s.lelyDriver }, []) else none
  | .release =>
      match s.pc with
      | .joined _ => some (s.post .release, [])
      | _ => none
  | .proceed => s.proceed
  | .throw => if s.mayThrow then some (s.finish (.threw none)) else none

/-- The state after the constructor. -/
structure Constructed (s : NodeCanopenBaseDriver) : Prop where
  declared : s.declared = false
  masterSet : s.masterSet = false
  initialised : s.initialised = false
  configured : s.configured = false
  activated : s.activated = false
  exec : s.exec = none
  master : s.master = none
  registered : s.registered = []
  nmtStatePublisherThread : s.nmtStatePublisherThread = false
  tasks : s.tasks = []
  pc : s.pc = .idle

/-- A driver from its construction. -/
def system : System NodeCanopenBaseDriver DriverInput DriverEvent where
  init := Constructed
  step := step

end NodeCanopenBaseDriver
end RosCanopen.Core
