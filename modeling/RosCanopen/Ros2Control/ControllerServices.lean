import RosCanopen.Ros2Control.Hardware
import RosCanopen.Ros2Control.NmtServices
import RosCanopen.Ros2Control.TriggerServices

/-!
# The services of the controllers and their lifecycle

`CanopenProxyController` creates its NMT services in `on_configure`, and `Cia402DeviceController`
its trigger services in `on_init`; none is removed again.  Their handlers run in threads of their
own and index `command_interfaces_`, which ros2_control fills just before `on_activate` and empties
after `on_deactivate`.  No handler asks for the state of the controller.

## Main definitions

* `ControllerService.cmd`, `ControllerService.fbk` — the indices that the handlers use.
* `Controller`, `Controller.system` — the controller with the handlers at work.
* `ControllerEvent.Safe`, `Controller.Refusing` — what is asked of the services.
* `Controller.Serves` — the steps that keep it so.
-/

namespace RosCanopen.Ros2Control

open Lib Cia402

inductive ControllerKind
  | proxy
  | cia402Device
  deriving DecidableEq

/-- A command interface that a controller claims of its joint. -/
inductive ClaimedInterface
  | proxy (i : CommandInterface)
  | trigger (i : TriggerInterface)
  deriving DecidableEq

/-- `CanopenProxyController::command_interface_configuration` -/
def proxyInterfaces : List ClaimedInterface :=
  [.proxy .tpdoIndex, .proxy .tpdoSubindex, .proxy .tpdoData, .proxy .tpdoOns, .proxy .nmtReset,
    .proxy .nmtResetFbk, .proxy .nmtStart, .proxy .nmtStartFbk]

/-- `command_interface_configuration` -/
def ControllerKind.commandInterfaceConfiguration : ControllerKind → List ClaimedInterface
  | proxy => proxyInterfaces
  | cia402Device => proxyInterfaces ++ commandInterfaces.map .trigger

/-! ## The services -/

inductive ControllerService
  | nmt (k : NmtService)
  | trigger (k : MotorCommand)
  deriving DecidableEq

namespace ControllerService

/-- The enumerator of the command, in `CommandInterfaces` or `Cia402CommandInterfaces`. -/
def cmd : ControllerService → ℕ
  | nmt .reset => 4
  | nmt .start => 6
  -- `LAST_COMMAND_AUX` is 8, and each command has its feedback behind it
  | trigger k => 8 + 2 * MotorCommand.services.idxOf k

/-- The enumerator of the feedback. -/
def fbk (k : ControllerService) : ℕ := k.cmd + 1

def cmdInterface : ControllerService → ClaimedInterface
  | nmt .reset => .proxy .nmtReset
  | nmt .start => .proxy .nmtStart
  | trigger k => .trigger (.cmd k)

def fbkInterface : ControllerService → ClaimedInterface
  | nmt .reset => .proxy .nmtResetFbk
  | nmt .start => .proxy .nmtStartFbk
  | trigger k => .trigger (.fbk k)

/-- What the loop of the handler looks at. -/
def awaited : ControllerService → ℕ
  | nmt .reset => cmd (nmt .reset)
  | k => k.fbk

def awaitedInterface : ControllerService → ClaimedInterface
  | nmt .reset => cmdInterface (nmt .reset)
  | k => k.fbkInterface

/-- What ends the loop. -/
def ends (x : Double) : ControllerService → Bool
  | nmt .reset => isNan x
  | nmt .start | trigger _ => !isNan x

/-- The controller can have the service. -/
def Offered (kind : ControllerKind) : ControllerService → Prop
  | nmt _ => True
  | trigger k => kind = .cia402Device ∧ k ∈ MotorCommand.services

end ControllerService

/-- Where a handler is. -/
inductive HandlerPc
  /-- It has been called. -/
  | send
  /-- In its loop. -/
  | poll
  /-- `report success`, of the NMT services. -/
  | read
  /-- `reset to nan`, the feedback and, of the trigger services, the command. -/
  | clearFbk
  | clearCmd
  deriving DecidableEq

/-- A bound on the steps that are left, the loop counted once. -/
def HandlerPc.rank : HandlerPc → ℕ
  | send => 5
  | poll => 4
  | read => 3
  | clearFbk => 2
  | clearCmd => 1

/-- A call of a service. -/
structure ServiceCall where
  service : ControllerService
  /-- The controller was active when the call arrived. -/
  active : Bool
  pc : HandlerPc
  /-- `response->success` -/
  success : Bool
  deriving DecidableEq

/-- The program point is one of the service, and no response is there before the loop is over. -/
def ServiceCall.Placed (c : ServiceCall) : Prop :=
  match c.pc, c.service with
  | .send, _ | .poll, _ => c.success = false
  | .read, .trigger _ | .clearCmd, .nmt _ => False
  | _, _ => True

/-! ## The controller -/

inductive ControllerPhase
  | unloaded
  | unconfigured
  | inactive
  /-- The interfaces are assigned, and `on_activate` is still to come. -/
  | activating
  | active
  /-- In the loop of `on_deactivate`, at this index. -/
  | deactivating (i : ℕ)
  | finalized
  deriving DecidableEq

/-- From the assignment of the interfaces to their release. -/
def ControllerPhase.holds : ControllerPhase → Bool
  | activating | active | deactivating _ => true
  | unloaded | unconfigured | inactive | finalized => false

structure Controller where
  phase : ControllerPhase
  /-- `create_service` has been called for the trigger services, and for the NMT services. -/
  triggers : Bool
  nmt : Bool
  /-- `command_interfaces_` -/
  interfaces : List ClaimedInterface
  /-- The data of the hardware behind the interfaces. -/
  values : ClaimedInterface → Double
  calls : ℕ → Option ServiceCall
  /-- An element of a vector was accessed that does not exist. -/
  crashed : Bool

/-- What decides a step of a handler. -/
structure HandlerEnv where
  /-- `rclcpp::ok` -/
  running : Bool
  /-- `set_value` succeeds, `get_optional` has a value. -/
  ok : Bool

inductive ControllerInput
  /-- With the outcome of `auto_declare`. -/
  | onInit (declared : Bool)
  /-- With the parameter `joint` and the outcome of the creation of the publishers. -/
  | onConfigure (joint : String) (created : Bool)
  | assignInterfaces
  | onActivate
  | onDeactivate
  /-- A turn of its loop, with the outcome of `set_value`. -/
  | unset (ok : Bool)
  | releaseInterfaces
  | cleanup
  /-- The hardware writes an interface. -/
  | hardware (i : ClaimedInterface) (x : Double)
  /-- A call of a service arrives, and is given this number. -/
  | call (id : ℕ) (service : ControllerService)
  /-- A step of its handler. -/
  | go (id : ℕ) (env : HandlerEnv)

inductive ControllerEvent
  | outOfRange (call : ServiceCall) (index size : ℕ)
  /-- A turn of the loop has not ended it. -/
  | waited (call : ServiceCall)
  | answered (call : ServiceCall)
  deriving DecidableEq

namespace Controller

/-- The service has been created. -/
def provides (s : Controller) : ControllerService → Bool
  | .nmt _ => s.nmt
  | .trigger k => s.triggers && decide (k ∈ MotorCommand.services)

/-- `command_interfaces_[index].set_value(x)` -/
def setValue (s : Controller) (i : ClaimedInterface) (x : Double) (ok : Bool) : Controller :=
  if ok then { s with values := Function.update s.values i x } else s

/-- The handler goes on, or ends. -/
def setCall (s : Controller) (id : ℕ) (c : Option ServiceCall) : Controller :=
  { s with calls := Function.update s.calls id c }

/-- `command_interfaces_[index]`, which the handler does something with. -/
def access (s : Controller) (c : ServiceCall) (index : ℕ)
    (f : ClaimedInterface → Controller × List ControllerEvent) :
    Controller × List ControllerEvent :=
  match s.interfaces[index]? with
  | none => ({ s with crashed := true }, [.outOfRange c index s.interfaces.length])
  | some i => f i

/-- A step of a handler: `on_nmt_state_reset`, `on_nmt_state_start`, or what `createTriggerSrv`
makes. -/
def go (s : Controller) (id : ℕ) (c : ServiceCall) (env : HandlerEnv) :
    Controller × List ControllerEvent :=
  match c.pc, c.service with
  | .send, _ =>
      s.access c c.service.cmd fun i =>
        -- `kCommandValue`
        ((s.setValue i (.fin 1) env.ok).setCall id (some { c with pc := .poll }), [])
  | .poll, .nmt _ =>
      if !env.running then (s.setCall id (some { c with pc := .read }), [])
      else
        s.access c c.service.awaited fun i =>
          if env.ok && c.service.ends (s.values i) then
            (s.setCall id (some { c with pc := .read }), [])
          else (s, [.waited c])
  | .poll, .trigger _ =>
      if !env.running then (s.setCall id (some { c with pc := .clearFbk }), [])
      else
        s.access c c.service.awaited fun i =>
          if env.ok && c.service.ends (s.values i) then
            let success := toBool (s.values i)
            (s.setCall id (some { c with pc := .clearFbk, success := success }), [])
          else (s, [.waited c])
  | .read, _ =>
      s.access c c.service.fbk fun i =>
        let success := env.ok && !isNan (s.values i) && toBool (s.values i)
        (s.setCall id (some { c with pc := .clearFbk, success := success }), [])
  | .clearFbk, .nmt _ =>
      s.access c c.service.fbk fun i =>
        ((s.setValue i .nan env.ok).setCall id none, [.answered c])
  | .clearFbk, .trigger _ =>
      s.access c c.service.fbk fun i =>
        ((s.setValue i .nan env.ok).setCall id (some { c with pc := .clearCmd }), [])
  | .clearCmd, _ =>
      s.access c c.service.cmd fun i =>
        ((s.setValue i .nan env.ok).setCall id none, [.answered c])

def step (kind : ControllerKind) (s : Controller) :
    ControllerInput → Option (Controller × List ControllerEvent)
  | .onInit declared =>
      match s.phase with
      | .unloaded =>
          if declared then
            some ({ s with phase := .unconfigured, triggers := kind = .cia402Device }, [])
          else some (s, [])
      | _ => none
  | .onConfigure joint created =>
      match s.phase with
      | .unconfigured =>
          if joint.isEmpty || !created then some ({ s with phase := .finalized }, [])
          else some ({ s with phase := .inactive, nmt := true }, [])
      | _ => none
  | .assignInterfaces =>
      match s.phase with
      | .inactive =>
          some ({ s with
            phase := .activating
            interfaces := kind.commandInterfaceConfiguration }, [])
      | _ => none
  | .onActivate =>
      match s.phase with
      | .activating => some ({ s with phase := .active }, [])
      | _ => none
  | .onDeactivate =>
      match s.phase with
      | .active => some ({ s with phase := .deactivating 0 }, [])
      | _ => none
  | .unset ok =>
      match s.phase with
      | .deactivating n =>
          match s.interfaces[n]? with
          | some i => some ({ s.setValue i .nan ok with phase := .deactivating (n + 1) }, [])
          | none => none
      | _ => none
  | .releaseInterfaces =>
      match s.phase with
      | .deactivating n =>
          if s.interfaces.length ≤ n then some ({ s with phase := .inactive, interfaces := [] }, [])
          else none
      | _ => none
  | .cleanup =>
      match s.phase with
      | .inactive => some ({ s with phase := .unconfigured }, [])
      | _ => none
  | .hardware i x => some (s.setValue i x true, [])
  | .call id service =>
      if s.provides service && (s.calls id).isNone then
        some (s.setCall id (some ⟨service, s.phase = .active, .send, false⟩), [])
      else none
  | .go id env => (s.calls id).map fun c => s.go id c env

/-- The controller once constructed. -/
def Constructed (s : Controller) : Prop :=
  s.phase = .unloaded ∧ s.triggers = false ∧ s.nmt = false ∧ s.interfaces = [] ∧
    s.calls = (fun _ => none) ∧ s.crashed = false

def system (kind : ControllerKind) : System Controller ControllerInput ControllerEvent where
  init := Constructed
  step s i := if s.crashed then none else step kind s i

/-! ## What is asked of the services -/

/-- No response of a call that arrived while the controller was not active is a success. -/
def Refusing (s : Controller) : Prop :=
  ∀ id c, s.calls id = some c → c.active = false → c.success = false

end Controller

/-- No access is out of range; a call that arrived while the controller was not active does not
wait, and is answered without success. -/
def ControllerEvent.Safe : ControllerEvent → Prop
  | outOfRange _ _ _ => False
  | waited c => c.active = true
  | answered c => c.active = true ∨ c.success = false

namespace Controller

/-- The handler finds that its loop is over, and no success. -/
def Fruitless (s : Controller) (c : ServiceCall) (env : HandlerEnv) : Prop :=
  match c.pc, c.service with
  | .poll, .nmt _ =>
      env.ok = true ∧ c.service.ends (s.values c.service.awaitedInterface) = true
  | .poll, .trigger _ => env.ok = true ∧ s.values c.service.awaitedInterface = .fin 0
  | .read, _ => env.ok = true → isNan (s.values c.service.fbkInterface) = true ∨
      s.values c.service.fbkInterface = .fin 0
  | _, _ => True

/-- A handler that goes on, but for one that leaves its loop at the end of the process, does so
between the assignment of the interfaces and their release; and where its call arrived while the
controller was not active, the feedback is there already, and reports no success. -/
def Serves (s : Controller) : ControllerInput → Prop
  | .go id env => ∀ c, s.calls id = some c → (c.pc = .poll ∧ env.running = false) ∨
      (s.phase.holds = true ∧ (c.active = true ∨ s.Fruitless c env))
  | _ => True

end Controller

/-! ## What a step does -/

section Steps
variable {kind : ControllerKind} {s s' : Controller} {i : ControllerInput}
  {es h : List ControllerEvent}

/-- The same but for the data of the hardware. -/
structure Alike (s s' : Controller) : Prop where
  phase : s'.phase = s.phase
  interfaces : s'.interfaces = s.interfaces
  triggers : s'.triggers = s.triggers
  calls : s'.calls = s.calls

theorem alike_refl (s : Controller) : Alike s s := ⟨rfl, rfl, rfl, rfl⟩

theorem alike_setValue (s : Controller) (i : ClaimedInterface) (x : Double) (ok : Bool) :
    Alike s (s.setValue i x ok) := by
  cases ok <;> exact ⟨rfl, rfl, rfl, rfl⟩

/-- Everything that a step of a handler can do. -/
inductive Went (s : Controller) (id : ℕ) (c : ServiceCall) :
    Controller → List ControllerEvent → Prop
  | crashed {index : ℕ} (hindex : s.interfaces[index]? = none) :
      Went s id c { s with crashed := true } [.outOfRange c index s.interfaces.length]
  | waited : Went s id c s [.waited c]
  | moved {s' : Controller} {pc : HandlerPc} {success : Bool} (halike : Alike s s')
      (hrank : pc.rank < c.pc.rank)
      (hplaced : c.Placed → ServiceCall.Placed { c with pc := pc, success := success }) :
      Went s id c (s'.setCall id (some { c with pc := pc, success := success })) []
  | answered {s' : Controller} (halike : Alike s s') :
      Went s id c (s'.setCall id none) [.answered c]

theorem went_of_access {id : ℕ} {c : ServiceCall} {index : ℕ}
    {f : ClaimedInterface → Controller × List ControllerEvent}
    (hf : ∀ i, Went s id c (f i).1 (f i).2) :
    Went s id c (s.access c index f).1 (s.access c index f).2 := by
  unfold Controller.access
  split
  · next hindex => exact .crashed hindex
  · next i _ => exact hf i

theorem went_of_go (s : Controller) (id : ℕ) (c : ServiceCall) (env : HandlerEnv) :
    Went s id c (s.go id c env).1 (s.go id c env).2 := by
  obtain ⟨service, active, pc, success⟩ := c
  cases pc with
  | send =>
      refine went_of_access fun i => .moved (alike_setValue ..) (by simp [HandlerPc.rank]) ?_
      exact fun hplaced => hplaced
  | poll =>
      cases service with
      | nmt k =>
          have hleaves : Went s id ⟨.nmt k, active, .poll, success⟩
              (s.setCall id (some ⟨.nmt k, active, .read, success⟩)) [] :=
            .moved (alike_refl s) (by simp [HandlerPc.rank]) fun _ => trivial
          simp only [Controller.go]
          split
          · exact hleaves
          · refine went_of_access fun i => ?_
            split
            · exact hleaves
            · exact .waited
      | trigger k =>
          have hleaves (success' : Bool) : Went s id ⟨.trigger k, active, .poll, success⟩
              (s.setCall id (some ⟨.trigger k, active, .clearFbk, success'⟩)) [] :=
            .moved (alike_refl s) (by simp [HandlerPc.rank]) fun _ => trivial
          simp only [Controller.go]
          split
          · exact hleaves success
          · refine went_of_access fun i => ?_
            split
            · exact hleaves _
            · exact .waited
  | read =>
      refine went_of_access fun i => .moved (alike_refl s) (by simp [HandlerPc.rank]) ?_
      cases service <;> exact fun _ => trivial
  | clearFbk =>
      cases service with
      | nmt k => exact went_of_access fun i => .answered (alike_setValue ..)
      | trigger k =>
          refine went_of_access fun i => .moved (alike_setValue ..) (by simp [HandlerPc.rank]) ?_
          exact fun _ => trivial
  | clearCmd => exact went_of_access fun i => .answered (alike_setValue ..)

/-- Everything that a step can do. -/
inductive ControllerStepped (kind : ControllerKind) (s : Controller) :
    ControllerInput → Controller → List ControllerEvent → Prop
  /-- The interfaces stay, whatever becomes of the services. -/
  | stays {i : ControllerInput} {s' : Controller} (hgo : ∀ id env, i ≠ .go id env)
      (hholds : s'.phase.holds = s.phase.holds) (hinterfaces : s'.interfaces = s.interfaces)
      (htriggers : s'.triggers = true → s.triggers = true ∨ kind = .cia402Device)
      (hcalls : s'.calls = s.calls) : ControllerStepped kind s i s' []
  | assigned (hphase : s.phase = .inactive) :
      ControllerStepped kind s .assignInterfaces
        { s with phase := .activating, interfaces := kind.commandInterfaceConfiguration } []
  | released {n : ℕ} (hphase : s.phase = .deactivating n) :
      ControllerStepped kind s .releaseInterfaces { s with phase := .inactive, interfaces := [] } []
  | called {id : ℕ} {service : ControllerService} (hprovides : s.provides service = true)
      (hidle : s.calls id = none) :
      ControllerStepped kind s (.call id service)
        (s.setCall id (some ⟨service, s.phase = .active, .send, false⟩)) []
  | went {id : ℕ} {c : ServiceCall} (env : HandlerEnv) (hcall : s.calls id = some c) :
      ControllerStepped kind s (.go id env) (s.go id c env).1 (s.go id c env).2

theorem controllerStepped_of_step (hstep : (Controller.system kind).step s i = some (s', es)) :
    ControllerStepped kind s i s' es := by
  simp only [Controller.system] at hstep
  split at hstep
  · cases hstep
  cases i with
  | onInit declared =>
      simp only [Controller.step] at hstep
      split at hstep
      · next hphase =>
          split at hstep
          · obtain ⟨rfl, rfl⟩ := Prod.mk.inj (Option.some.inj hstep)
            refine .stays (by simp) (by rw [hphase]; rfl) rfl ?_ rfl
            exact fun htriggers => .inr (of_decide_eq_true htriggers)
          · obtain ⟨rfl, rfl⟩ := Prod.mk.inj (Option.some.inj hstep)
            exact .stays (by simp) rfl rfl .inl rfl
      · cases hstep
  | onConfigure joint created =>
      simp only [Controller.step] at hstep
      split at hstep
      · next hphase =>
          split at hstep
          · obtain ⟨rfl, rfl⟩ := Prod.mk.inj (Option.some.inj hstep)
            exact .stays (by simp) (by rw [hphase]; rfl) rfl .inl rfl
          · obtain ⟨rfl, rfl⟩ := Prod.mk.inj (Option.some.inj hstep)
            exact .stays (by simp) (by rw [hphase]; rfl) rfl .inl rfl
      · cases hstep
  | assignInterfaces =>
      simp only [Controller.step] at hstep
      split at hstep
      · next hphase =>
          obtain ⟨rfl, rfl⟩ := Prod.mk.inj (Option.some.inj hstep)
          exact .assigned hphase
      · cases hstep
  | onActivate =>
      simp only [Controller.step] at hstep
      split at hstep
      · next hphase =>
          obtain ⟨rfl, rfl⟩ := Prod.mk.inj (Option.some.inj hstep)
          exact .stays (by simp) (by rw [hphase]; rfl) rfl .inl rfl
      · cases hstep
  | onDeactivate =>
      simp only [Controller.step] at hstep
      split at hstep
      · next hphase =>
          obtain ⟨rfl, rfl⟩ := Prod.mk.inj (Option.some.inj hstep)
          exact .stays (by simp) (by rw [hphase]; rfl) rfl .inl rfl
      · cases hstep
  | unset ok =>
      simp only [Controller.step] at hstep
      split at hstep
      · next n hphase =>
          split at hstep
          · next j _ =>
              obtain ⟨rfl, rfl⟩ := Prod.mk.inj (Option.some.inj hstep)
              have halike := alike_setValue s j .nan ok
              refine .stays (by simp) (by rw [hphase]; rfl) halike.interfaces ?_ halike.calls
              exact fun htriggers => .inl (halike.triggers ▸ htriggers)
          · cases hstep
      · cases hstep
  | releaseInterfaces =>
      simp only [Controller.step] at hstep
      split at hstep
      · next n hphase =>
          split at hstep
          · obtain ⟨rfl, rfl⟩ := Prod.mk.inj (Option.some.inj hstep)
            exact .released hphase
          · cases hstep
      · cases hstep
  | cleanup =>
      simp only [Controller.step] at hstep
      split at hstep
      · next hphase =>
          obtain ⟨rfl, rfl⟩ := Prod.mk.inj (Option.some.inj hstep)
          exact .stays (by simp) (by rw [hphase]; rfl) rfl .inl rfl
      · cases hstep
  | hardware j x =>
      obtain ⟨rfl, rfl⟩ := Prod.mk.inj (Option.some.inj hstep)
      exact .stays (by simp) rfl rfl .inl rfl
  | call id service =>
      simp only [Controller.step] at hstep
      split at hstep
      · next hcall =>
          obtain ⟨rfl, rfl⟩ := Prod.mk.inj (Option.some.inj hstep)
          obtain ⟨hprovides, hidle⟩ := Bool.and_eq_true_iff.mp hcall
          exact .called hprovides (Option.isNone_iff_eq_none.mp hidle)
      · cases hstep
  | go id env =>
      obtain ⟨c, hcall, heq⟩ := Option.map_eq_some_iff.mp hstep
      obtain ⟨rfl, rfl⟩ := Prod.mk.inj heq
      exact .went env hcall

end Steps

/-! ## What the indices stand for -/

section Indices
variable {kind : ControllerKind} {k : ControllerService}

/-- The interfaces of a service are at its indices. -/
theorem configuration_of_offered (hk : k.Offered kind) :
    kind.commandInterfaceConfiguration[k.cmd]? = some k.cmdInterface ∧
      kind.commandInterfaceConfiguration[k.fbk]? = some k.fbkInterface := by
  cases k with
  | nmt k => cases k <;> cases kind <;> exact ⟨rfl, rfl⟩
  | trigger k =>
      obtain ⟨rfl, hmem⟩ := hk
      cases k with
      | torqueMode => exact absurd hmem (by decide)
      | _ => exact ⟨rfl, rfl⟩

theorem configuration_awaited (hk : k.Offered kind) :
    kind.commandInterfaceConfiguration[k.awaited]? = some k.awaitedInterface := by
  obtain ⟨hcmd, hfbk⟩ := configuration_of_offered hk
  cases k with
  | nmt k =>
      cases k with
      | reset => exact hcmd
      | start => exact hfbk
  | trigger k => exact hfbk

end Indices

/-- The vector has the configured interfaces from their assignment to their release, and only
services of the controller are called, each in its own handler. -/
structure Fitted (kind : ControllerKind) (s : Controller) : Prop where
  interfaces : s.interfaces = if s.phase.holds then kind.commandInterfaceConfiguration else []
  triggers : s.triggers = true → kind = .cia402Device
  offered : ∀ id c, s.calls id = some c → c.service.Offered kind
  placed : ∀ id c, s.calls id = some c → c.Placed

section Fitting
variable {kind : ControllerKind} {s s' : Controller} {i : ControllerInput} {id : ℕ}
  {c c' : ServiceCall} {es h : List ControllerEvent}

theorem calls_setCall {o : Option ServiceCall} {j : ℕ}
    (h : (s.setCall id o).calls j = some c') : (j = id ∧ o = some c') ∨ s.calls j = some c' := by
  by_cases hj : j = id
  · subst hj
    exact .inl ⟨rfl, by simpa [Controller.setCall] using h⟩
  · exact .inr (by simpa [Controller.setCall, hj] using h)

/-- A call that goes on keeps its service and its arrival. -/
theorem calls_of_went (hwent : Went s id c s' es) (hcall : s.calls id = some c) {j : ℕ}
    (hcall' : s'.calls j = some c') :
    ∃ old, s.calls j = some old ∧ c'.service = old.service ∧ c'.active = old.active ∧
      (old.Placed → c'.Placed) := by
  cases hwent with
  | crashed => exact ⟨c', hcall', rfl, rfl, fun hplaced => hplaced⟩
  | waited => exact ⟨c', hcall', rfl, rfl, fun hplaced => hplaced⟩
  | moved halike _ hplaced =>
      rcases calls_setCall hcall' with ⟨rfl, heq⟩ | hold
      · obtain rfl := Option.some.inj heq
        exact ⟨c, hcall, rfl, rfl, hplaced⟩
      · exact ⟨c', halike.calls ▸ hold, rfl, rfl, fun hplaced => hplaced⟩
  | answered halike =>
      rcases calls_setCall hcall' with ⟨rfl, heq⟩ | hold
      · cases heq
      · exact ⟨c', halike.calls ▸ hold, rfl, rfl, fun hplaced => hplaced⟩

/-- Handlers do not change the state of the controller. -/
theorem phase_of_went (hwent : Went s id c s' es) :
    s'.phase = s.phase ∧ s'.interfaces = s.interfaces ∧ s'.triggers = s.triggers := by
  cases hwent with
  | crashed => exact ⟨rfl, rfl, rfl⟩
  | waited => exact ⟨rfl, rfl, rfl⟩
  | moved halike => exact ⟨halike.phase, halike.interfaces, halike.triggers⟩
  | answered halike => exact ⟨halike.phase, halike.interfaces, halike.triggers⟩

theorem offered_of_provides {service : ControllerService}
    (htriggers : s.triggers = true → kind = .cia402Device)
    (hprovides : s.provides service = true) : service.Offered kind := by
  cases service with
  | nmt k => trivial
  | trigger k =>
      obtain ⟨hcreated, hmem⟩ := Bool.and_eq_true_iff.mp hprovides
      exact ⟨htriggers hcreated, of_decide_eq_true hmem⟩

theorem fitted_step (hs : Fitted kind s)
    (hstep : (Controller.system kind).step s i = some (s', es)) : Fitted kind s' := by
  cases controllerStepped_of_step hstep with
  | stays _ hholds hinterfaces htriggers hcalls =>
      refine ⟨?_, ?_, ?_, ?_⟩
      · rw [hinterfaces, hs.interfaces, hholds]
      · exact fun h => (htriggers h).elim hs.triggers fun hkind => hkind
      · rw [hcalls]
        exact hs.offered
      · rw [hcalls]
        exact hs.placed
  | assigned => exact ⟨rfl, hs.triggers, hs.offered, hs.placed⟩
  | released => exact ⟨rfl, hs.triggers, hs.offered, hs.placed⟩
  | called hprovides =>
      refine ⟨hs.interfaces, hs.triggers, ?_, ?_⟩
      · intro j c hcall
        rcases calls_setCall hcall with ⟨-, heq⟩ | hold
        · obtain rfl := Option.some.inj heq
          exact offered_of_provides hs.triggers hprovides
        · exact hs.offered j c hold
      · intro j c hcall
        rcases calls_setCall hcall with ⟨-, heq⟩ | hold
        · obtain rfl := Option.some.inj heq
          rfl
        · exact hs.placed j c hold
  | @went id c env hcall =>
      have hwent := went_of_go s id c env
      obtain ⟨hphase, hinterfaces, htriggers⟩ := phase_of_went hwent
      refine ⟨?_, ?_, ?_, ?_⟩
      · rw [hinterfaces, hs.interfaces, hphase]
      · rw [htriggers]
        exact hs.triggers
      · intro j c' hcall'
        obtain ⟨old, hold, hservice, -, -⟩ := calls_of_went hwent hcall hcall'
        rw [hservice]
        exact hs.offered j old hold
      · intro j c' hcall'
        obtain ⟨old, hold, -, -, hplaced⟩ := calls_of_went hwent hcall hcall'
        exact hplaced (hs.placed j old hold)

theorem fitted_of_reach {ok : Guard Controller ControllerInput ControllerEvent}
    (hr : Reach (Controller.system kind) ok h s) : Fitted kind s := by
  induction hr with
  | init hs =>
      obtain ⟨hphase, htriggers, -, hinterfaces, hcalls, -⟩ := hs
      refine ⟨?_, ?_, ?_, ?_⟩
      · rw [hinterfaces, hphase]
        rfl
      · simp [htriggers]
      · simp [hcalls]
      · simp [hcalls]
  | step _ _ hstep ih => exact fitted_step ih hstep

/-! ## Accesses -/

/-- While the interfaces are held an index is the interface that it stands for. -/
theorem access_of_holds (hs : Fitted kind s) (hholds : s.phase.holds = true) {index : ℕ}
    {j : ClaimedInterface} (hindex : kind.commandInterfaceConfiguration[index]? = some j)
    (f : ClaimedInterface → Controller × List ControllerEvent) : s.access c index f = f j := by
  rw [Controller.access, hs.interfaces, if_pos hholds, hindex]

/-- Otherwise there is nothing at it. -/
theorem access_of_not_holds (hs : Fitted kind s) (hholds : s.phase.holds = false) (index : ℕ)
    (f : ClaimedInterface → Controller × List ControllerEvent) :
    s.access c index f = ({ s with crashed := true }, [.outOfRange c index 0]) := by
  rw [Controller.access, hs.interfaces, if_neg (by simp [hholds])]
  rfl

/-! ### The handlers of a node with its interfaces -/

/-- The data of the NMT commands. -/
def nmtData (values : ClaimedInterface → Double) : Ros2ControlNmtState where
  resetOns := values (.proxy .nmtReset)
  resetFbk := values (.proxy .nmtResetFbk)
  startOns := values (.proxy .nmtStart)
  startFbk := values (.proxy .nmtStartFbk)

/-- The data of the trigger commands. -/
def triggerData (values : ClaimedInterface → Double) (k : MotorCommand) : MotorTriggerCommand where
  onsCmd := values (.trigger (.cmd k))
  resp := values (.trigger (.fbk k))

/-- The handler of an NMT service, before and behind it idle. -/
def nmtHandler (k : NmtService) : Option ServiceCall → NmtHandler
  | none => .idle
  | some c =>
      match c.pc with
      | .send => .idle
      | .poll => .poll k
      | .read => .read k
      | .clearFbk | .clearCmd => .clear k c.success

/-- The handler of a trigger service, before and behind it idle. -/
def triggerHandler (k : MotorCommand) : Option ServiceCall → TriggerHandler
  | none => .idle
  | some c =>
      match c.pc with
      | .send => .idle
      | .poll | .read => .poll k
      | .clearFbk => .clearFbk k c.success
      | .clearCmd => .clearCmd k c.success

theorem nmtData_cmd (values : ClaimedInterface → Double) (k : NmtService) (x : Double) :
    nmtData (Function.update values (ControllerService.nmt k).cmdInterface x) =
      k.setOns (nmtData values) x := by
  cases k <;> rfl

theorem nmtData_fbk (values : ClaimedInterface → Double) (k : NmtService) (x : Double) :
    nmtData (Function.update values (ControllerService.nmt k).fbkInterface x) =
      k.setFbk (nmtData values) x := by
  cases k <;> rfl

theorem triggerData_cmd (values : ClaimedInterface → Double) (k : MotorCommand) (x : Double) :
    triggerData (Function.update values (.trigger (.cmd k)) x) =
      Function.update (triggerData values) k { triggerData values k with onsCmd := x } := by
  ext k'
  by_cases hk : k' = k
  · subst hk
    simp [triggerData]
  · simp [triggerData, hk]

theorem triggerData_fbk (values : ClaimedInterface → Double) (k : MotorCommand) (x : Double) :
    triggerData (Function.update values (.trigger (.fbk k)) x) =
      Function.update (triggerData values) k { triggerData values k with resp := x } := by
  ext k'
  by_cases hk : k' = k
  · subst hk
    simp [triggerData]
  · simp [triggerData, hk]

/-- The step of an NMT handler. -/
def nmtInput (k : NmtService) (env : HandlerEnv) : HandlerPc → NmtInput
  | .send => .call k env.ok
  | .poll => .poll env.running env.ok
  | .read => .read env.ok
  | .clearFbk | .clearCmd => .clear env.ok

/-- The step of a trigger handler. -/
def triggerInput (k : MotorCommand) (env : HandlerEnv) : HandlerPc → TriggerInput
  | .send => .call k env.ok
  | .poll | .read => .poll env.running env.ok
  | .clearFbk => .clearFbk env.ok
  | .clearCmd => .clearCmd env.ok

/-- **While the interfaces are held an NMT handler does what it does to the node.** -/
theorem nmt_go (hs : Fitted kind s) (hholds : s.phase.holds = true) (hcall : s.calls id = some c)
    {k : NmtService} (hservice : c.service = .nmt k) (env : HandlerEnv)
    (server : Server NmtService Bool) : ∃ es,
      NmtServices.step ⟨nmtData s.values, nmtHandler k (some c), server⟩ (nmtInput k env c.pc) =
        some (⟨nmtData (s.go id c env).1.values, nmtHandler k ((s.go id c env).1.calls id),
          server⟩, es) := by
  have hoffered := hs.offered id c hcall
  have hplaced := hs.placed id c hcall
  obtain ⟨hcmd, hfbk⟩ := configuration_of_offered hoffered
  have hawaited := configuration_awaited hoffered
  obtain ⟨service, active, pc, success⟩ := c
  obtain rfl : service = .nmt k := hservice
  cases pc with
  | send =>
      simp only [Controller.go, access_of_holds hs hholds hcmd]
      cases hok : env.ok <;>
        simp [NmtServices.step, nmtHandler, nmtInput, Controller.setCall, Controller.setValue,
          nmtData_cmd, hok]
  | poll =>
      have hends : (ControllerService.nmt k).ends
          (s.values (ControllerService.nmt k).awaitedInterface) =
            k.seesEnd (nmtData s.values) := by
        cases k <;> rfl
      simp only [Controller.go, access_of_holds hs hholds hawaited, hends]
      cases hrunning : env.running with
      | false => simp [NmtServices.step, nmtHandler, nmtInput, Controller.setCall, hrunning]
      | true =>
          cases hover : (env.ok && k.seesEnd (nmtData s.values)) <;>
            simp [NmtServices.step, nmtHandler, nmtInput, Controller.setCall, hrunning, hover,
              hcall]
  | read =>
      have hfeedback : s.values (ControllerService.nmt k).fbkInterface =
          k.fbk (nmtData s.values) := by
        cases k <;> rfl
      simp only [Controller.go, access_of_holds hs hholds hfbk, hfeedback]
      simp [NmtServices.step, nmtHandler, nmtInput, Controller.setCall]
  | clearFbk =>
      simp only [Controller.go, access_of_holds hs hholds hfbk]
      cases hok : env.ok <;>
        simp [NmtServices.step, nmtHandler, nmtInput, Controller.setCall, Controller.setValue,
          nmtData_fbk, hok]
  | clearCmd => exact hplaced.elim

/-- **While the interfaces are held a trigger handler does what it does to the joint.** -/
theorem trigger_go (hs : Fitted kind s) (hholds : s.phase.holds = true)
    (hcall : s.calls id = some c) {k : MotorCommand} (hservice : c.service = .trigger k)
    (env : HandlerEnv) (server : Server MotorCommand Bool)
    (todo : List TriggerInterface) : ∃ es,
      TriggerServices.step ⟨triggerData s.values, triggerHandler k (some c), server, todo⟩
        (triggerInput k env c.pc) =
          some (⟨triggerData (s.go id c env).1.values,
            triggerHandler k ((s.go id c env).1.calls id), server, todo⟩, es) := by
  have hoffered := hs.offered id c hcall
  have hplaced := hs.placed id c hcall
  obtain ⟨hcmd, hfbk⟩ := configuration_of_offered hoffered
  have hawaited := configuration_awaited hoffered
  obtain ⟨service, active, pc, success⟩ := c
  obtain rfl : service = .trigger k := hservice
  cases pc with
  | send =>
      simp only [Controller.go, access_of_holds hs hholds hcmd]
      cases hok : env.ok <;>
        simp [TriggerServices.step, TriggerServices.setValue, triggerHandler, triggerInput,
          Controller.setCall, Controller.setValue, ControllerService.cmdInterface,
          triggerData_cmd, hok, hoffered.2]
  | poll =>
      have hfeedback : s.values (ControllerService.trigger k).awaitedInterface =
          (triggerData s.values k).resp := rfl
      simp only [Controller.go, access_of_holds hs hholds hawaited, hfeedback,
        ControllerService.ends]
      cases hrunning : env.running with
      | false =>
          obtain rfl : success = false := hplaced
          simp [TriggerServices.step, triggerHandler, triggerInput, Controller.setCall, hrunning]
      | true =>
          cases hover : (env.ok && !isNan (triggerData s.values k).resp) <;>
            simp [TriggerServices.step, triggerHandler, triggerInput, Controller.setCall, hrunning,
              hover, hcall]
  | read => exact hplaced.elim
  | clearFbk =>
      simp only [Controller.go, access_of_holds hs hholds hfbk]
      cases hok : env.ok <;>
        simp [TriggerServices.step, TriggerServices.setValue, triggerHandler, triggerInput,
          Controller.setCall, Controller.setValue, ControllerService.fbkInterface,
          triggerData_fbk, hok]
  | clearCmd =>
      simp only [Controller.go, access_of_holds hs hholds hcmd]
      cases hok : env.ok <;>
        simp [TriggerServices.step, TriggerServices.setValue, triggerHandler, triggerInput,
          Controller.setCall, Controller.setValue, ControllerService.cmdInterface,
          triggerData_cmd, hok]

/-! ### The promises -/

theorem refusing_setCall (hrefusing : s.Refusing) :
    (s.setCall id (some c)).Refusing ↔ (c.active = false → c.success = false) := by
  constructor
  · intro h
    exact h id c (by simp [Controller.setCall])
  · intro h j c' hcall
    rcases calls_setCall hcall with ⟨-, heq⟩ | hold
    · obtain rfl := Option.some.inj heq
      exact h
    · exact hrefusing j c' hold

theorem refusing_end (hrefusing : s.Refusing) : (s.setCall id none).Refusing := by
  intro j c' hcall
  rcases calls_setCall hcall with ⟨-, heq⟩ | hold
  · cases heq
  · exact hrefusing j c' hold

theorem refusing_congr (halike : Alike s s') (hrefusing : s.Refusing) : s'.Refusing := by
  intro j c' hcall
  exact hrefusing j c' (halike.calls ▸ hcall)

/-- At the end of the process a handler leaves its loop without a look. -/
theorem go_of_not_running (s : Controller) (id : ℕ) {env : HandlerEnv} (hpc : c.pc = .poll)
    (hrunning : env.running = false) :
    ∃ pc, s.go id c env = (s.setCall id (some { c with pc := pc }), []) := by
  obtain ⟨service, active, pc, success⟩ := c
  obtain rfl : pc = .poll := hpc
  cases service with
  | nmt k => exact ⟨.read, by simp [Controller.go, hrunning]⟩
  | trigger k => exact ⟨.clearFbk, by simp [Controller.go, hrunning]⟩

/-- Any other step accesses an interface. -/
theorem go_of_not_holds (hs : Fitted kind s) (id : ℕ) (hholds : s.phase.holds = false)
    {env : HandlerEnv} (hexit : ¬ (c.pc = .poll ∧ env.running = false)) :
    ∃ index, s.go id c env = ({ s with crashed := true }, [.outOfRange c index 0]) := by
  obtain ⟨service, active, pc, success⟩ := c
  cases pc with
  | poll =>
      have hrunning : env.running = true := by simpa using hexit
      cases service with
      | nmt k =>
          simp only [Controller.go, hrunning, Bool.not_true, Bool.false_eq_true, if_false]
          exact ⟨_, access_of_not_holds hs hholds ..⟩
      | trigger k =>
          simp only [Controller.go, hrunning, Bool.not_true, Bool.false_eq_true, if_false]
          exact ⟨_, access_of_not_holds hs hholds ..⟩
  | clearFbk =>
      cases service with
      | nmt k => exact ⟨_, access_of_not_holds hs hholds ..⟩
      | trigger k => exact ⟨_, access_of_not_holds hs hholds ..⟩
  | _ => exact ⟨_, access_of_not_holds hs hholds ..⟩

theorem toBool_eq_false {x : Double} : toBool x = false ↔ x = .fin 0 := by
  simp [toBool]

/-- `report success` reports none. -/
theorem report_eq_false {x : Double} {ok : Bool} : (ok && !isNan x && toBool x) = false ↔
    (ok = true → isNan x = true ∨ x = .fin 0) := by
  rw [← toBool_eq_false]
  cases ok <;> cases isNan x <;> simp

/-- While the interfaces are held a step keeps the promises unless the call arrived while the
controller was not active, and waits or finds a success. -/
theorem go_of_holds (hs : Fitted kind s) (hrefusing : s.Refusing) (hholds : s.phase.holds = true)
    (hcall : s.calls id = some c) {env : HandlerEnv}
    (hexit : ¬ (c.pc = .poll ∧ env.running = false)) :
    ((∀ e ∈ (s.go id c env).2, e.Safe) ∧ (s.go id c env).1.Refusing) ↔
      (c.active = true ∨ s.Fruitless c env) := by
  have hc := hrefusing id c hcall
  have hoffered := hs.offered id c hcall
  obtain ⟨hcmd, hfbk⟩ := configuration_of_offered hoffered
  have hawaited := configuration_awaited hoffered
  obtain ⟨service, active, pc, success⟩ := c
  have hkept {s' : Controller} {pc' : HandlerPc} (halike : Alike s s') :
      (s'.setCall id (some ⟨service, active, pc', success⟩)).Refusing :=
    (refusing_setCall (refusing_congr halike hrefusing)).mpr hc
  have hanswer : (ControllerEvent.answered ⟨service, active, pc, success⟩).Safe := by
    cases active with
    | true => exact .inl rfl
    | false => exact .inr (hc rfl)
  cases pc with
  | send =>
      simp only [Controller.go, access_of_holds hs hholds hcmd, List.not_mem_nil, false_implies,
        implies_true, true_and, Controller.Fruitless,
        or_true, iff_true]
      exact hkept (alike_setValue ..)
  | poll =>
      have hrunning : env.running = true := by simpa using hexit
      cases service with
      | nmt k =>
          simp only [Controller.go, hrunning, Bool.not_true, Bool.false_eq_true, if_false,
            access_of_holds hs hholds hawaited, Controller.Fruitless]
          split
          · next hends =>
              refine iff_of_true ⟨by simp, hkept (alike_refl s)⟩ ?_
              exact .inr (Bool.and_eq_true_iff.mp hends)
          · next hends =>
              have hwaits : ¬ (env.ok = true ∧ (ControllerService.nmt k).ends
                  (s.values (ControllerService.nmt k).awaitedInterface) = true) := by
                simpa using hends
              simp [ControllerEvent.Safe, hrefusing, hwaits]
      | trigger k =>
          simp only [Controller.go, hrunning, Bool.not_true, Bool.false_eq_true, if_false,
            access_of_holds hs hholds hawaited, Controller.Fruitless]
          split
          · next hends =>
              obtain ⟨hok, -⟩ := Bool.and_eq_true_iff.mp hends
              rw [refusing_setCall hrefusing, toBool_eq_false]
              cases active <;> simp [hok]
          · next hends =>
              have hwaits : ¬ (env.ok = true ∧
                  s.values (ControllerService.trigger k).awaitedInterface = .fin 0) := by
                rintro ⟨hok, hzero⟩
                exact hends (by simp [hok, hzero, ControllerService.ends, isNan])
              simp [ControllerEvent.Safe, hrefusing, hwaits]
  | read =>
      simp only [Controller.go, access_of_holds hs hholds hfbk, List.not_mem_nil, false_implies,
        implies_true, true_and, Controller.Fruitless]
      rw [refusing_setCall hrefusing, report_eq_false]
      cases active <;> simp
  | clearFbk =>
      cases service with
      | nmt k =>
          simp only [Controller.go, access_of_holds hs hholds hfbk]
          refine iff_of_true ⟨by simpa using hanswer, ?_⟩ (.inr trivial)
          exact refusing_end (refusing_congr (alike_setValue ..) hrefusing)
      | trigger k =>
          simp only [Controller.go, access_of_holds hs hholds hfbk]
          exact iff_of_true ⟨by simp, hkept (alike_setValue ..)⟩ (.inr trivial)
  | clearCmd =>
      simp only [Controller.go, access_of_holds hs hholds hcmd]
      refine iff_of_true ⟨by simpa using hanswer, ?_⟩ (.inr ?_)
      · exact refusing_end (refusing_congr (alike_setValue ..) hrefusing)
      · cases service <;> trivial

/-- **A step keeps the promises exactly when it serves.** -/
theorem safe_step_iff (hs : Fitted kind s) (hrefusing : s.Refusing)
    (hstep : (Controller.system kind).step s i = some (s', es)) :
    ((∀ e ∈ es, e.Safe) ∧ s'.Refusing) ↔ s.Serves i := by
  cases controllerStepped_of_step hstep with
  | stays hgo _ _ _ hcalls =>
      refine iff_of_true ⟨by simp, ?_⟩ ?_
      · intro j c hcall
        exact hrefusing j c (hcalls ▸ hcall)
      · cases i with
        | go id env => exact absurd rfl (hgo id env)
        | _ => trivial
  | assigned => exact iff_of_true ⟨by simp, hrefusing⟩ trivial
  | released => exact iff_of_true ⟨by simp, hrefusing⟩ trivial
  | called => exact iff_of_true ⟨by simp, (refusing_setCall hrefusing).mpr fun _ => rfl⟩ trivial
  | @went id c env hcall =>
      have hserves : s.Serves (.go id env) ↔ (c.pc = .poll ∧ env.running = false) ∨
          (s.phase.holds = true ∧ (c.active = true ∨ s.Fruitless c env)) := by
        simp [Controller.Serves, hcall]
      rw [hserves]
      by_cases hexit : c.pc = .poll ∧ env.running = false
      · obtain ⟨pc, hgo⟩ := go_of_not_running s id hexit.1 hexit.2
        rw [hgo]
        refine iff_of_true ⟨by simp, ?_⟩ (.inl hexit)
        exact (refusing_setCall hrefusing).mpr (hrefusing id c hcall)
      · cases hholds : s.phase.holds with
        | true =>
            rw [go_of_holds hs hrefusing hholds hcall hexit]
            simp [hexit]
        | false =>
            obtain ⟨index, hgo⟩ := go_of_not_holds hs id hholds hexit
            rw [hgo]
            simp [ControllerEvent.Safe, hexit]

/-- In a run the promises are kept exactly when all steps serve. -/
theorem safe_recorded_iff {rs : List (Record Controller ControllerInput ControllerEvent)}
    (hr : Reach (Controller.system kind).recorded Guard.free rs s) :
    ((∀ r ∈ rs, (∀ e ∈ r.events, e.Safe) ∧ r.state.Refusing) ∧ s.Refusing) ↔
      ∀ r ∈ rs, r.state.Serves r.input := by
  induction hr with
  | init hs =>
      obtain ⟨-, -, -, -, hcalls, -⟩ := hs
      simp [Controller.Refusing, hcalls]
  | step hr _ hstep ih =>
      obtain ⟨es, hemits, rfl⟩ := System.recorded_step hstep
      simp only [List.cons_append, List.nil_append, List.forall_mem_cons]
      constructor
      · rintro ⟨⟨⟨hes, hs⟩, hrs⟩, hs'⟩
        have hfitted := fitted_of_reach hr.of_recorded
        exact ⟨(safe_step_iff hfitted hs hemits).mp ⟨hes, hs'⟩, ih.mp ⟨hrs, hs⟩⟩
      · rintro ⟨hserves, hrest⟩
        obtain ⟨hrs, hs⟩ := ih.mpr hrest
        obtain ⟨hes, hs'⟩ := (safe_step_iff (fitted_of_reach hr.of_recorded) hs hemits).mpr hserves
        exact ⟨⟨⟨hes, hs⟩, hrs⟩, hs'⟩

/-- **A handler that does not wait comes closer to its answer**, or leaves the vector. -/
theorem rank_of_went (hwent : Went s id c s' es) (hwaits : .waited c ∉ es) :
    s'.crashed = true ∨ s'.calls id = none ∨
      ∃ c', s'.calls id = some c' ∧ c'.active = c.active ∧ c'.pc.rank < c.pc.rank := by
  cases hwent with
  | crashed => exact .inl rfl
  | waited => exact absurd List.mem_cons_self hwaits
  | moved _ hrank => exact .inr (.inr ⟨_, Function.update_self .., rfl, hrank⟩)
  | answered => exact .inr (.inl (Function.update_self ..))

theorem rank_of_step {env : HandlerEnv} (hcall : s.calls id = some c)
    (hstep : (Controller.system kind).step s (.go id env) = some (s', es))
    (hwaits : .waited c ∉ es) : s'.crashed = true ∨ s'.calls id = none ∨
      ∃ c', s'.calls id = some c' ∧ c'.active = c.active ∧ c'.pc.rank < c.pc.rank := by
  cases controllerStepped_of_step hstep with
  | stays hgo => exact absurd rfl (hgo id env)
  | went _ hcall' =>
      obtain rfl := Option.some.inj (hcall.symm.trans hcall')
      exact rank_of_went (went_of_go s id c env) hwaits

end Fitting

/-! ## Runs without such calls -/

section Attended
variable {kind : ControllerKind} {s s' : Controller} {i : ControllerInput}
  {es h : List ControllerEvent}

/-- Calls arrive only while the controller is active, and all have been answered when the
interfaces are released. -/
def attended : Guard Controller ControllerInput ControllerEvent := fun _ s i =>
  match i with
  | .call _ _ => s.phase = .active
  | .releaseInterfaces => ∀ id, s.calls id = none
  | _ => True

/-- The calls at work arrived while the controller was active, and its interfaces are held. -/
def Controller.Attended (s : Controller) : Prop :=
  ∀ id c, s.calls id = some c → s.phase.holds = true ∧ c.active = true

theorem attended_step (hs : s.Attended) (hok : attended h s i)
    (hstep : (Controller.system kind).step s i = some (s', es)) : s'.Attended := by
  cases controllerStepped_of_step hstep with
  | stays _ hholds _ _ hcalls =>
      intro j c hcall
      rw [hholds]
      exact hs j c (hcalls ▸ hcall)
  | assigned => exact fun j c hcall => ⟨rfl, (hs j c hcall).2⟩
  | released => exact fun j c hcall => absurd ((hok j).symm.trans hcall) (by simp)
  | called =>
      have hphase : s.phase = .active := hok
      intro j c hcall
      rcases calls_setCall hcall with ⟨-, heq⟩ | hold
      · obtain rfl := Option.some.inj heq
        simp [Controller.setCall, hphase, ControllerPhase.holds]
      · exact hs j c hold
  | @went id c env hcall =>
      intro j c' hcall'
      obtain ⟨old, hold, -, hactive, -⟩ := calls_of_went (went_of_go s id c env) hcall hcall'
      rw [(phase_of_went (went_of_go s id c env)).1, hactive]
      exact hs j old hold

theorem attended_of_reach (hr : Reach (Controller.system kind) attended h s) : s.Attended := by
  induction hr with
  | init hs =>
      obtain ⟨-, -, -, -, hcalls, -⟩ := hs
      simp [Controller.Attended, hcalls]
  | step _ hok hstep ih => exact attended_step ih hok hstep

theorem refusing_of_attended (hs : s.Attended) : s.Refusing := by
  intro id c hcall hinactive
  exact absurd ((hs id c hcall).2.symm.trans hinactive) (by simp)

theorem serves_of_attended (hs : s.Attended) (i : ControllerInput) : s.Serves i := by
  cases i with
  | go id env =>
      intro c hcall
      obtain ⟨hholds, hactive⟩ := hs id c hcall
      exact .inr ⟨hholds, .inl hactive⟩
  | _ => trivial

theorem safe_of_attended (hr : Reach (Controller.system kind) attended h s) :
    ∀ e ∈ h, e.Safe := by
  induction hr with
  | init => simp
  | @step h s s' i es hr _ hstep ih =>
      intro e he
      have hs := attended_of_reach hr
      rcases List.mem_append.mp he with hnew | hold
      · obtain ⟨hes, -⟩ := (safe_step_iff (fitted_of_reach hr) (refusing_of_attended hs) hstep).mpr
          (serves_of_attended hs i)
        exact hes e hnew
      · exact ih e hold

end Attended

/-- **When the services are safe**: in a run, as long as every handler accesses the interfaces
between their assignment and their release, and one whose call arrived while the controller was
not active finds a feedback that reports no success. -/
theorem services_safe_iff (kind : ControllerKind) :
    (∀ rs s, Reach (Controller.system kind).recorded Guard.free rs s →
      (((∀ r ∈ rs, (∀ e ∈ r.events, e.Safe) ∧ r.state.Refusing) ∧ s.Refusing) ↔
        ∀ r ∈ rs, r.state.Serves r.input)) ∧
    (∀ (s s' : Controller) id c env es, s.calls id = some c →
      (Controller.system kind).step s (.go id env) = some (s', es) → .waited c ∉ es →
      s'.crashed = true ∨ s'.calls id = none ∨
        ∃ c', s'.calls id = some c' ∧ c'.active = c.active ∧ c'.pc.rank < c.pc.rank) ∧
    ∀ h s, Reach (Controller.system kind) attended h s → ∀ e ∈ h, e.Safe :=
  ⟨fun _ _ hr => safe_recorded_iff hr,
    fun _ _ _ _ _ _ hcall hstep hwaits => rank_of_step hcall hstep hwaits,
    fun _ _ hr => safe_of_attended hr⟩

/-- What `~/init` finds before `on_configure`, and a start that was asked for before the
activation. -/
theorem not_services_safe :
    (∃ h s, Reach (Controller.system .cia402Device) Guard.free h s ∧
      .outOfRange ⟨.trigger .init, false, .send, false⟩ 8 0 ∈ h) ∧
    ∃ h s, Reach (Controller.system .proxy) Guard.free h s ∧
      .answered ⟨.nmt .start, false, .clearFbk, true⟩ ∈ h := by
  have h0 : ∀ kind, Reach (Controller.system kind) Guard.free []
      ⟨.unloaded, false, false, [], fun _ => .nan, fun _ => none, false⟩ :=
    fun kind => .init ⟨rfl, rfl, rfl, rfl, rfl, rfl⟩
  have hinit := System.reach_run _ [.onInit true, .call 0 (.trigger .init), .go 0 ⟨true, true⟩]
    (h0 .cia402Device) rfl
  have hstart := System.reach_run _ [.onInit true, .onConfigure "joint" true,
    .call 0 (.nmt .start), .assignInterfaces, .onActivate, .go 0 ⟨true, true⟩,
    .hardware (.proxy .nmtStartFbk) (.fin 1), .go 0 ⟨true, true⟩, .go 0 ⟨true, true⟩,
    .go 0 ⟨true, true⟩] (h0 .proxy) rfl
  exact ⟨⟨_, _, hinit, List.mem_cons_self⟩, ⟨_, _, hstart, List.mem_cons_self⟩⟩

end RosCanopen.Ros2Control
