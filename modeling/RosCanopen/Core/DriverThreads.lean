import RosCanopen.Core.BaseDriver

/-!
# The threads of a driver

While a driver is activated and deactivated, its NMT listener and its poll callback go on: the
callback on the thread of a timer, or on the CAN thread with every SYNC.  They share three
pointers, which tasks on the CAN thread and the two calls set and reset.  A step here is one
access to what they share.

## Main definitions

* `DriverKind`, `DriverThreads` — what a driver is, and its state with all its threads.
* `LifePc`, `ListenerPc`, `PollPc` — where the calls, the listener and the callback are.
* `DriverThreads.step`, `DriverThreads.system` — the steps of all of them.
-/

namespace RosCanopen.Core

open Lib

/-- What is set before a driver is activated. -/
structure DriverKind where
  /-- `polling_` -/
  polling : Bool
  /-- `nmt_state_cb_` is set. -/
  nmtStateCb : Bool
  /-- `emcy_cb_` is set. -/
  emcyCb : Bool
  /-- `rpdo_cb_` is set. -/
  rpdoCb : Bool
  /-- The driver has the `on_nmt` of the proxy. -/
  isProxy : Bool
  /-- The driver has motors, which keep the bridge. -/
  hasMotors : Bool
  deriving DecidableEq

inductive Pointer
  | lelyDriver
  | emcyQueue
  | rpdoQueue
  deriving DecidableEq

/-- The future of the listener. -/
inductive Awaited
  | pending
  | arrived
  /-- The bridge has been destroyed, with its promise. -/
  | broken
  deriving DecidableEq

/-- `nmt_listener` -/
inductive ListenerPc
  /-- At the head of the loop. -/
  | requesting
  | waiting (state : Awaited)
  /-- `f.get()` has returned, up to `nmt_state_cb_`. -/
  | received
  /-- Up to `on_nmt`. -/
  | reported
  /-- In the `on_nmt` of the proxy, behind its test of `activated_`. -/
  | logging
  | ended
  deriving DecidableEq

/-- `poll_timer_callback`, with the index of its loop. -/
inductive PollPc
  | emcy (i : ℕ)
  | emcyPopped (i : ℕ)
  | rpdo (i : ℕ)
  | rpdoPopped (i : ℕ)
  /-- What derived classes do afterwards. -/
  | motors
  deriving DecidableEq

/-- `activate` and `deactivate`, behind the tests of the flags. -/
inductive LifePc
  | idle
  /-- `add_to_master` waits for its task. -/
  | adding (task : ℕ)
  /-- Up to `IsReady()`. -/
  | checking
  /-- In `wait_for_boot`. -/
  | booting (attempts : ℕ)
  /-- The override of `add_to_master` that makes the motors. -/
  | added
  /-- The hook of `activate`, up to the thread. -/
  | activating
  | started
  | emcySet
  | rpdoSet
  /-- With the timer or the SYNC function set. -/
  | hooked
  /-- `activated_` is false again. -/
  | deactivating
  /-- `remove_from_master` waits for its task. -/
  | removing (task : ℕ)
  /-- The hook of `deactivate`, up to the join. -/
  | joining
  | joined
  /-- With the timer cancelled. -/
  | cancelled
  | emcyReset
  | rpdoReset
  deriving DecidableEq

inductive ThreadEvent
  | returned
  | threw
  /-- A pointer has been followed, which was null or not. -/
  | used (p : Pointer) (null : Bool)
  /-- `std::terminate` -/
  | terminate
  deriving DecidableEq

inductive ThreadInput
  | activate
  | deactivate
  /-- A wait for a task ends with its result. -/
  | ready
  /-- A wait for a task ends without. -/
  | timeout
  /-- The call goes on; `ok` is what `IsReady` returns, and whether `wait_for_boot` does. -/
  | proceed (ok : Bool)
  /-- The hook of `activate`, or of `add_to_master`, throws. -/
  | fail
  /-- The CAN thread runs its next task, which may throw. -/
  | run (ok : Bool)
  /-- `OnState` -/
  | nmtState
  /-- `OnSync` -/
  | sync
  /-- The timer fires. -/
  | timer
  /-- The callback goes on: whether a queue has a value, or the callback of the user returns. -/
  | poll (ok : Bool)
  /-- The listener goes on, with `rclcpp::ok()`. -/
  | listener (ok : Bool)
  /-- `wait_for` of the listener ends without a state. -/
  | listenerTimeout
  /-- The listener's callback or `on_nmt` throws, a `std::future_error` or not. -/
  | listenerThrow (futureError : Bool)
  deriving DecidableEq

/-- A driver with its threads; a pointer is true unless it is null. -/
structure DriverThreads where
  activated : Bool
  lelyDriver : Bool
  emcyQueue : Bool
  rpdoQueue : Bool
  /-- There are motors. -/
  motors : Bool
  /-- `on_sync_function_` of the bridge. -/
  onSyncFunction : Bool
  /-- `poll_timer_`, until it is cancelled. -/
  pollTimer : Bool
  /-- The tasks not run yet, oldest first. -/
  tasks : List (ℕ × DriverTask)
  /-- The number of tasks posted. -/
  posted : ℕ
  /-- The promise of the call has a bridge. -/
  promise : Bool
  life : LifePc
  /-- `nmt_state_publisher_thread_`, while it is joinable. -/
  listener : Option ListenerPc
  poll : Option PollPc
  terminated : Bool
  deriving DecidableEq

namespace DriverThreads
variable (kind : DriverKind) (s : DriverThreads)

def points : Pointer → Bool
  | .lelyDriver => s.lelyDriver
  | .emcyQueue => s.emcyQueue
  | .rpdoQueue => s.rpdoQueue

/-- A pointer is followed on the way to another state. -/
def follow (p : Pointer) (s' : DriverThreads) : DriverThreads × List ThreadEvent :=
  if s.points p then (s', [.used p false]) else ({ s with terminated := true }, [.used p true])

/-- A bridge exists. -/
def alive : Bool := s.lelyDriver || s.motors

def post (t : DriverTask) : DriverThreads :=
  { s with tasks := s.tasks ++ [(s.posted, t)], posted := s.posted + 1 }

/-- The bridge goes with its last owner, and with it the promise of the listener. -/
def releaseBridge : DriverThreads :=
  if s.alive then s
  else { s with
    onSyncFunction := false
    listener := if s.listener = some (.waiting .pending) then some (.waiting .broken)
      else s.listener }

/-- The callback runs on the CAN thread. -/
def canBusy : Bool := !kind.polling && s.poll.isSome

def activate : Option (DriverThreads × List ThreadEvent) :=
  if s.life = .idle then
    if s.activated then some (s, [.threw])
    else some ({ s.post .construct with life := .adding s.posted, promise := false }, [])
  else none

def deactivate : Option (DriverThreads × List ThreadEvent) :=
  if s.life = .idle then
    if s.activated then some ({ s with activated := false, life := .deactivating }, [])
    else some (s, [.threw])
  else none

/-- `f.wait_for` has found the result of the task. -/
def ready : Option (DriverThreads × List ThreadEvent) :=
  match s.life with
  | .adding _ =>
      if s.promise then some ({ s with lelyDriver := true, life := .checking }, []) else none
  | .removing task =>
      if (s.tasks.lookup task).isSome then none else some ({ s with life := .joining }, [])
  | _ => none

def timeout : Option (DriverThreads × List ThreadEvent) :=
  match s.life with
  | .adding _ => if s.promise then none else some ({ s with life := .idle }, [.threw])
  | .removing task =>
      if (s.tasks.lookup task).isSome then some ({ s with life := .idle }, [.threw]) else none
  | _ => none

/-- The call does its next step. -/
def proceed (ok : Bool) : Option (DriverThreads × List ThreadEvent) :=
  match s.life with
  | .idle | .adding _ | .removing _ => none
  | .checking =>
      some (s.follow .lelyDriver { s with life := if ok then .added else .booting 1 })
  | .booting attempts =>
      let (s', es) := s.follow .lelyDriver { s with
        life := if ok then .added
          else if attempts < NodeCanopenBaseDriver.maxBootAttempts then .booting (attempts + 1)
          else .idle }
      some (s', if s'.life = .idle then .threw :: es else es)
  | .added => some ({ s with motors := s.motors || kind.hasMotors, life := .activating }, [])
  | .activating =>
      -- a thread is assigned to one that is joinable
      if s.listener.isSome then some ({ s with terminated := true }, [.terminate])
      else some ({ s with listener := some .requesting, life := .started }, [])
  | .started => some (s.follow .lelyDriver { s with emcyQueue := true, life := .emcySet })
  | .emcySet => some (s.follow .lelyDriver { s with rpdoQueue := true, life := .rpdoSet })
  | .rpdoSet =>
      if kind.polling then some ({ s with pollTimer := true, life := .hooked }, [])
      else some (s.follow .lelyDriver { s with onSyncFunction := true, life := .hooked })
  | .hooked => some ({ s with activated := true, life := .idle }, [.returned])
  | .deactivating => some ({ s.post .reset with life := .removing s.posted }, [])
  | .joining =>
      match s.listener with
      | none => some ({ s with life := .idle }, [.threw])
      | some .ended => some ({ s with listener := none, life := .joined }, [])
      | some _ => none
  | .joined => some ({ s with pollTimer := false, life := .cancelled }, [])
  | .cancelled => some ({ s with emcyQueue := false, life := .emcyReset }, [])
  | .emcyReset => some ({ s with rpdoQueue := false, life := .rpdoReset }, [])
  | .rpdoReset =>
      let s := if kind.hasMotors then s.post .release else s
      some ({ s with life := .idle }, [.returned])

def fail : Option (DriverThreads × List ThreadEvent) :=
  match s.life with
  | .added | .activating | .started | .emcySet | .rpdoSet | .hooked =>
      some ({ s with life := .idle }, [.threw])
  | _ => none

/-- The master refuses a second driver for a node by an exception. -/
def runTask (task : ℕ) (ok : Bool) : DriverTask → DriverThreads
  | .construct =>
      if ok && !s.alive then
        { s with lelyDriver := true, promise := s.promise || s.life = .adding task }
      else s
  | .reset => { s with lelyDriver := false }.releaseBridge
  | .release => { s with motors := false }.releaseBridge

def run (ok : Bool) : Option (DriverThreads × List ThreadEvent) :=
  if s.canBusy kind then none
  else
    match s.tasks with
    | [] => none
    | (task, t) :: tasks => some ({ s with tasks := tasks }.runTask task ok t, [])

def nmtState : Option (DriverThreads × List ThreadEvent) :=
  if s.canBusy kind || !s.alive then none
  else if s.listener = some (.waiting .pending) then
    some ({ s with listener := some (.waiting .arrived) }, [])
  else some (s, [])

/-- The callback begins. -/
def callback (hook : Bool) : Option (DriverThreads × List ThreadEvent) :=
  if hook && s.poll.isNone then some ({ s with poll := some (.emcy 0) }, []) else none

/-- The callback does its next step. -/
def pollStep (ok : Bool) : Option (DriverThreads × List ThreadEvent) :=
  match s.poll with
  | none => none
  | some (.emcy i) =>
      some (s.follow .emcyQueue { s with poll := some (if ok then .emcyPopped i else .rpdo 0) })
  | some (.emcyPopped i) =>
      let s' := { s with poll := some (if ok && i + 1 < 10 then .emcy (i + 1) else .rpdo 0) }
      some (if kind.emcyCb then s.follow .lelyDriver s' else (s', []))
  | some (.rpdo i) =>
      some (s.follow .rpdoQueue { s with poll := some (if ok then .rpdoPopped i else .motors) })
  | some (.rpdoPopped i) =>
      let s' := { s with poll := some (if ok && i + 1 < 10 then .rpdo (i + 1) else .motors) }
      some (if kind.rpdoCb then s.follow .lelyDriver s' else (s', []))
  | some .motors => some ({ s with poll := none }, [])

/-- The listener does its next step. -/
def listenerStep (ok : Bool) : Option (DriverThreads × List ThreadEvent) :=
  match s.listener with
  | none | some .ended | some (.waiting .pending) => none
  | some .requesting =>
      if ok then some (s.follow .lelyDriver { s with listener := some (.waiting .pending) })
      else some ({ s with listener := some .ended }, [])
  | some (.waiting .arrived) => some ({ s with listener := some .received }, [])
  -- `f.get()` throws a `std::future_error`
  | some (.waiting .broken) => some ({ s with listener := some .ended }, [])
  | some .received =>
      let s' := { s with listener := some .reported }
      some (if kind.nmtStateCb then s.follow .lelyDriver s' else (s', []))
  | some .reported =>
      some ({ s with
        listener := some (if kind.isProxy && s.activated then .logging else .requesting) }, [])
  | some .logging => some (s.follow .lelyDriver { s with listener := some .requesting })

/-- After a wait in vain the listener looks at `activated_`. -/
def listenerTimeout : Option (DriverThreads × List ThreadEvent) :=
  match s.listener with
  | some (.waiting state) =>
      some ({ s with listener := some (if s.activated then .waiting state else .ended) }, [])
  | _ => none

def listenerThrow (futureError : Bool) : Option (DriverThreads × List ThreadEvent) :=
  match s.listener with
  | some .received | some .reported | some .logging =>
      if futureError then some ({ s with listener := some .ended }, [])
      else some ({ s with terminated := true }, [.terminate])
  | _ => none

def step (i : ThreadInput) : Option (DriverThreads × List ThreadEvent) :=
  if s.terminated then none
  else
    match i with
    | .activate => s.activate
    | .deactivate => s.deactivate
    | .ready => s.ready
    | .timeout => s.timeout
    | .proceed ok => s.proceed kind ok
    | .fail => s.fail
    | .run ok => s.run kind ok
    | .nmtState => s.nmtState kind
    | .sync => s.callback (s.alive && s.onSyncFunction)
    | .timer => s.callback s.pollTimer
    | .poll ok => s.pollStep kind ok
    | .listener ok => s.listenerStep kind ok
    | .listenerTimeout => s.listenerTimeout
    | .listenerThrow futureError => s.listenerThrow futureError

end DriverThreads

/-- A driver that is configured and has its master. -/
def DriverThreads.configured : DriverThreads where
  activated := false
  lelyDriver := false
  emcyQueue := false
  rpdoQueue := false
  motors := false
  onSyncFunction := false
  pollTimer := false
  tasks := []
  posted := 0
  promise := false
  life := .idle
  listener := none
  poll := none
  terminated := false

/-- The two calls in any order, with the threads between their steps. -/
def DriverThreads.system (kind : DriverKind) : System DriverThreads ThreadInput ThreadEvent where
  init s := s = .configured
  step := DriverThreads.step kind

end RosCanopen.Core
