import RosCanopen.Ros2Control.OneShot

/-!
# The trigger services of the CiA 402 controller

Each service that `createTriggerSrv` makes sets its command, waits for the feedback, and resets
both; the write of the hardware takes the commands one after the other, calls the driver and
stores its response.  A deactivation of the controller writes NaN to all these interfaces at
any time.  A reset that fails leaves a response behind for the next call.

## Main definitions

* `TriggerServices`, `TriggerServices.system` — handlers, write and deactivation, step by step.
* `TriggerServices.Reports` — a service reports its own command.
* `TriggerServices.orderly` — the steps that keep it so.
-/

namespace RosCanopen.Ros2Control

open Lib Cia402
open CanopenNodeData (ofBool)

structure MotorTriggerCommand where
  onsCmd : Double := .nan
  resp : Double := .nan

namespace MotorTriggerCommand

def isCommanded (t : MotorTriggerCommand) : Bool × MotorTriggerCommand :=
  (!isNan t.onsCmd, { t with onsCmd := .nan })

/-- `kResponseOk` or `kResponseFail`. -/
def setResponse (t : MotorTriggerCommand) (response : Bool) : MotorTriggerCommand :=
  { t with resp := ofBool response }

end MotorTriggerCommand

/-- The trigger commands of `MotorNodeData`. -/
inductive MotorCommand
  | init
  | halt
  | recover
  | positionMode
  | cyclicPositionMode
  | velocityMode
  | cyclicVelocityMode
  | torqueMode
  | interpolatedPositionMode
  deriving DecidableEq

/-- The calls of the driver that trigger commands lead to, for the motor's channel. -/
inductive DriverCall
  | initMotor
  | haltMotor
  | recoverMotor
  | setOperationMode (mode : ModeId)
  deriving DecidableEq

namespace MotorCommand

/-- The call that `handleInit`, `handleHalt`, `handleRecover` or `switchModes` makes. -/
def driverCall : MotorCommand → DriverCall
  | init => .initMotor
  | halt => .haltMotor
  | recover => .recoverMotor
  | positionMode => .setOperationMode .profiledPosition
  | cyclicPositionMode => .setOperationMode .cyclicSynchronousPosition
  | velocityMode => .setOperationMode .profiledVelocity
  | cyclicVelocityMode => .setOperationMode .cyclicSynchronousVelocity
  | torqueMode => .setOperationMode .profiledTorque
  | interpolatedPositionMode => .setOperationMode .interpolatedPosition

/-- No call belongs to two commands. -/
theorem driverCall_injective : Function.Injective driverCall := by
  intro k k' heq
  cases k <;> cases k' <;> first | rfl | exact absurd heq (by decide)

/-- What `write` does after the command. -/
def next : MotorCommand → Server MotorCommand Bool
  | init => .take halt
  | halt => .take recover
  | recover => .take positionMode
  | positionMode => .take cyclicPositionMode
  | cyclicPositionMode => .take velocityMode
  | velocityMode => .take cyclicVelocityMode
  | cyclicVelocityMode => .take torqueMode
  | torqueMode => .take interpolatedPositionMode
  -- the targets, which are no triggers
  | interpolatedPositionMode => .idle

/-- The commands that have a service, in the order of their interfaces. -/
def services : List MotorCommand :=
  [init, halt, recover, positionMode, velocityMode, cyclicVelocityMode, cyclicPositionMode,
    interpolatedPositionMode]

end MotorCommand

/-- An interface of the controller. -/
inductive TriggerInterface
  | cmd (k : MotorCommand)
  | fbk (k : MotorCommand)
  deriving DecidableEq

/-- `command_interfaces_`, behind those of the proxy controller. -/
def commandInterfaces : List TriggerInterface :=
  MotorCommand.services.flatMap fun k => [.cmd k, .fbk k]

/-- Where the handler is, of the service that is called. -/
inductive TriggerHandler
  | idle
  /-- In its loop. -/
  | poll (k : MotorCommand)
  /-- `reset to nan`, the feedback and then the command. -/
  | clearFbk (k : MotorCommand) (success : Bool)
  | clearCmd (k : MotorCommand) (success : Bool)
  deriving DecidableEq

/-- The service whose feedback has not been reset yet. -/
def TriggerHandler.service : TriggerHandler → Option MotorCommand
  | idle => none
  | poll k => some k
  | clearFbk k _ => some k
  | clearCmd _ _ => none

structure TriggerServices where
  motorData : MotorCommand → MotorTriggerCommand
  handler : TriggerHandler
  server : Server MotorCommand Bool
  /-- What the deactivation has still to write. -/
  deactivation : List TriggerInterface

inductive TriggerInput
  /-- A service is called, and sets its command if `set_value` succeeds. -/
  | call (k : MotorCommand) (ok : Bool)
  /-- One turn of the loop: `rclcpp::ok` and the outcome of `get_optional`. -/
  | poll (running got : Bool)
  | clearFbk (ok : Bool)
  | clearCmd (ok : Bool)
  /-- A write comes to the motor. -/
  | write
  /-- `is_commanded`. -/
  | take
  /-- The driver returns or throws. -/
  | run (answer : DriverCall → Option Bool)
  /-- `set_response`. -/
  | store
  | deactivate
  /-- `on_deactivate` writes NaN to the next interface, if `set_value` succeeds. -/
  | unset (ok : Bool)

namespace TriggerServices

/-- `set_value` of a command interface. -/
def setValue (s : TriggerServices) (i : TriggerInterface) (x : Double) (ok : Bool) :
    TriggerServices :=
  if ok then
    { s with
      motorData :=
        match i with
        | .cmd k => Function.update s.motorData k { s.motorData k with onsCmd := x }
        | .fbk k => Function.update s.motorData k { s.motorData k with resp := x } }
  else s

def step (s : TriggerServices) :
    TriggerInput → Option (TriggerServices × List (OneShotEvent MotorCommand Bool))
  | .call k ok =>
      match s.handler with
      | .idle =>
          if k ∈ MotorCommand.services then
            -- `kCommandValue`
            some ({ s.setValue (.cmd k) (.fin 1) ok with handler := .poll k }, [.asked k])
          else none
      | _ => none
  | .poll running got =>
      match s.handler with
      | .poll k =>
          let feedback := (s.motorData k).resp
          if !running then some ({ s with handler := .clearFbk k false }, [])
          else if got && !isNan feedback then
            some ({ s with handler := .clearFbk k (toBool feedback) }, [])
          else some (s, [])
      | _ => none
  | .clearFbk ok =>
      match s.handler with
      | .clearFbk k success =>
          some ({ s.setValue (.fbk k) .nan ok with handler := .clearCmd k success }, [])
      | _ => none
  | .clearCmd ok =>
      match s.handler with
      | .clearCmd k success =>
          some ({ s.setValue (.cmd k) .nan ok with handler := .idle }, [.returned k success])
      | _ => none
  | .write =>
      match s.server with
      | .idle => some ({ s with server := .take .init }, [])
      | _ => none
  | .take =>
      match s.server with
      | .take k =>
          let (commanded, t) := (s.motorData k).isCommanded
          some ({ s with
            motorData := Function.update s.motorData k t
            server := if commanded then .run k else k.next }, [])
      | _ => none
  | .run answer =>
      match s.server with
      | .run k =>
          match answer k.driverCall with
          | some ok => some ({ s with server := .store k ok }, [.ran k ok])
          | none => some ({ s with server := .idle }, [])
      | _ => none
  | .store =>
      match s.server with
      | .store k ok =>
          let t := (s.motorData k).setResponse ok
          some ({ s with motorData := Function.update s.motorData k t, server := k.next }, [])
      | _ => none
  | .deactivate =>
      match s.deactivation with
      | [] => some ({ s with deactivation := commandInterfaces }, [])
      | _ :: _ => none
  | .unset ok =>
      match s.deactivation with
      | [] => none
      | i :: is => some ({ s.setValue i .nan ok with deactivation := is }, [])

/-- The construction of the motor's data. -/
def constructed : TriggerServices := ⟨fun _ => {}, .idle, .idle, []⟩

/-- The services of a joint from the construction of its data. -/
def system : System TriggerServices TriggerInput (OneShotEvent MotorCommand Bool) where
  init s := s = constructed
  step := step

/-! ## What is promised -/

/-- Whoever is told of success had its driver call made once, and with success. -/
def Succeeds (e : OneShotEvent MotorCommand Bool) (before : List (OneShotEvent MotorCommand Bool)) :
    Prop :=
  ∀ k, e = .returned k true → resultsSince k before = [true]

/-- A trigger service reports its own command. -/
structure Reports (h : List (OneShotEvent MotorCommand Bool)) (s : TriggerServices) : Prop where
  /-- A feedback is there between the driver call of the pending request and the reset. -/
  feedback : ∀ k, isNan (s.motorData k).resp = false →
    s.handler.service = some k ∧ ∃ r, resultsSince k h = [r] ∧ (s.motorData k).resp = ofBool r
  success : Historically Succeeds h
  /-- No driver call without a request, and none twice. -/
  commanded : Requested h
  calls : ∀ k, s.server = .run k → requested k h = true

/-- The command is taken, and `write` is not at its driver call any more. -/
def Settled (s : TriggerServices) (k : MotorCommand) : Prop :=
  isNan (s.motorData k).onsCmd = true ∧ s.server.servedOf k = none

/-- The steps that keep the reports true: no handler is stopped while its command waits to be
served, and the feedback can be reset. -/
def orderly : Guard TriggerServices TriggerInput (OneShotEvent MotorCommand Bool) := fun _ s i =>
  match i with
  | .poll running _ => running = true ∨ ∀ k ∈ s.handler.service, s.Settled k
  | .clearFbk ok => ok = true ∨ ∀ k ∈ s.handler.service, isNan (s.motorData k).resp = true
  | _ => True

/-! ## The steps against one-shots -/

def cmds (d : MotorCommand → MotorTriggerCommand) (k : MotorCommand) : Double := (d k).onsCmd

def resps (d : MotorCommand → MotorTriggerCommand) (k : MotorCommand) : Double := (d k).resp

section Interfaces
variable {d : MotorCommand → MotorTriggerCommand} {k : MotorCommand} {t : MotorTriggerCommand}

@[simp] theorem cmds_update :
    cmds (Function.update d k t) = Function.update (cmds d) k t.onsCmd := by
  ext k'
  by_cases heq : k' = k
  · subst heq
    simp [cmds]
  · simp [cmds, heq]

@[simp] theorem resps_update :
    resps (Function.update d k t) = Function.update (resps d) k t.resp := by
  ext k'
  by_cases heq : k' = k
  · subst heq
    simp [resps]
  · simp [resps, heq]

@[simp] theorem update_cmds : Function.update (cmds d) k (d k).onsCmd = cmds d :=
  Function.update_eq_self k (cmds d)

@[simp] theorem update_resps : Function.update (resps d) k (d k).resp = resps d :=
  Function.update_eq_self k (resps d)

theorem servedOf_next (k k' : MotorCommand) : k.next.servedOf k' = none := by
  cases k <;> rfl

end Interfaces

/-- How far the requests have come, by where the handler is. -/
def Phase (h : List (OneShotEvent MotorCommand Bool)) (o : MotorCommand → OneShot Bool) :
    TriggerHandler → Prop
  | .idle => ∀ k, o k = .rest
  | .poll k => ∀ k', k' ≠ k → o k' = .rest
  | .clearFbk k success => ((o k).clear = .rest ∧ ∀ k', k' ≠ k → o k' = .rest) ∧
      (success = true → resultsSince k h = [true])
  | .clearCmd k success => (∀ k', o k' = .rest) ∧ (success = true → resultsSince k h = [true])

/-- The interfaces, the handler and the history show how far the requests have come. -/
structure Stands (h : List (OneShotEvent MotorCommand Bool)) (s : TriggerServices)
    (o : MotorCommand → OneShot Bool) : Prop where
  shown : Shown (cmds s.motorData) (resps s.motorData) s.server o
  tracks : ∀ k, Tracks h k (o k)
  phase : Phase h o s.handler
  success : Historically Succeeds h
  requested : Requested h

/-- Only the service that is called has its feedback on the way. -/
theorem Phase.service {h : List (OneShotEvent MotorCommand Bool)} {o : MotorCommand → OneShot Bool}
    {pc : TriggerHandler} {k : MotorCommand} (hp : Phase h o pc) (hk : o k ≠ .rest) :
    pc.service = some k := by
  cases pc with
  | idle => exact absurd (hp k) hk
  | poll k₀ =>
      by_cases heq : k = k₀
      · rw [heq]
        rfl
      · exact absurd (hp k heq) hk
  | clearFbk k₀ b =>
      by_cases heq : k = k₀
      · rw [heq]
        rfl
      · exact absurd (hp.1.2 k heq) hk
  | clearCmd k₀ b => exact absurd (hp.1 k) hk

/-- What write and deactivation do to a request keeps the phase of the handler. -/
theorem Phase.update {h : List (OneShotEvent MotorCommand Bool)} {o : MotorCommand → OneShot Bool}
    {pc : TriggerHandler} {k : MotorCommand} {q : OneShot Bool} (hp : Phase h o pc)
    (hrest : o k = .rest → q = .rest) (hclear : (o k).clear = .rest → q.clear = .rest) :
    Phase h (Function.update o k q) pc := by
  have hothers : ∀ k', o k' = .rest → Function.update o k q k' = .rest := fun _ hk' =>
    OneShot.keeps_update (· = .rest) hrest hk'
  cases pc with
  | idle => exact fun k' => hothers k' (hp k')
  | poll k₀ => exact fun k' hk' => hothers k' (hp k' hk')
  | clearFbk k₀ b =>
      refine ⟨⟨?_, fun k' hk' => hothers k' (hp.1.2 k' hk')⟩, hp.2⟩
      exact OneShot.keeps_update (fun q => q.clear = .rest) hclear hp.1.1
  | clearCmd k₀ b => exact ⟨fun k' => hothers k' (hp.1 k'), hp.2⟩

namespace Stands
variable {h : List (OneShotEvent MotorCommand Bool)} {s : TriggerServices}
  {o : MotorCommand → OneShot Bool}

theorem reports (hs : Stands h s o) : Reports h s where
  success := hs.success
  commanded := hs.requested
  feedback := by
    intro k hk
    obtain ⟨r, hr, hresp⟩ := hs.shown.answered hk
    have hservice := hs.phase.service (k := k) (by simp [hr])
    have htrack := hs.tracks k
    rw [hr] at htrack
    exact ⟨hservice, r, htrack, hresp⟩
  calls := by
    intro k hrun
    have hshown := hs.shown
    rw [hrun] at hshown
    have htrack := hs.tracks k
    rw [hshown.taken] at htrack
    exact htrack.2

/-! ### The interfaces -/

/-- NaN is written to an interface, by the deactivation or at the end of a handler. -/
theorem unset (hs : Stands h s o) (i : TriggerInterface) (ok : Bool) :
    ∃ o', Stands h (s.setValue i .nan ok) o' := by
  cases ok with
  | false => exact ⟨o, hs⟩
  | true =>
      cases i with
      | cmd k =>
          refine ⟨Function.update o k (o k).withdraw, by simpa [setValue] using hs.shown.withdraw,
            Tracks.update hs.tracks (hs.tracks k).withdraw, ?_, hs.success, hs.requested⟩
          apply hs.phase.update <;> cases o k <;> simp [OneShot.withdraw, OneShot.clear]
      | fbk k =>
          refine ⟨Function.update o k (o k).clear, by simpa [setValue] using hs.shown.clear,
            Tracks.update hs.tracks (hs.tracks k).clear, ?_, hs.success, hs.requested⟩
          apply hs.phase.update <;> cases o k <;> simp [OneShot.clear]

/-! ### The handler -/

theorem call (hs : Stands h s o) (hidle : s.handler = .idle) (k : MotorCommand) (ok : Bool) :
    ∃ o', Stands (.asked k :: h) { s.setValue (.cmd k) (.fin 1) ok with handler := .poll k }
      o' := by
  have hrest : ∀ k', o k' = .rest := by
    have hphase := hs.phase
    rwa [hidle] at hphase
  have hsuccess : Historically Succeeds (.asked k :: h) :=
    hs.success.cons fun _ heq => nomatch heq
  cases ok with
  | false =>
      refine ⟨o, hs.shown, fun k' => ?_, fun k' _ => hrest k', hsuccess, hs.requested.ask⟩
      rw [hrest k']
      trivial
  | true =>
      refine ⟨Function.update o k .asked, ?_, ?_, fun k' hk' => ?_, hsuccess, hs.requested.ask⟩
      · simpa [setValue] using hs.shown.ask (hrest k) (x := .fin 1) rfl
      · exact Tracks.update_cons hs.tracks (fun k' hk' => decide_eq_false hk'.symm) Tracks.ask
      · simp [hk', hrest k']

/-- A handler that stops waiting while its command is settled. -/
theorem stop (hs : Stands h s o) {k : MotorCommand} (hpoll : s.handler = .poll k)
    (hsettled : s.Settled k) : Stands h { s with handler := .clearFbk k false } o := by
  have hphase := hs.phase
  rw [hpoll] at hphase
  refine ⟨hs.shown, hs.tracks, ⟨⟨?_, hphase⟩, fun heq => nomatch heq⟩, hs.success, hs.requested⟩
  obtain ⟨hpending, -, hserved⟩ := hs.shown k
  have hnan : isNan (cmds s.motorData k) = true := hsettled.1
  rw [hnan] at hpending
  rw [hsettled.2] at hserved
  cases ho : o k with
  | rest => rfl
  | asked => simp [ho, OneShot.pending] at hpending
  | taken => simp [ho, OneShot.served] at hserved
  | ran r => simp [ho, OneShot.served] at hserved
  | answered r => rfl

/-- A handler that reads a feedback: it is the result of its own command. -/
theorem read (hs : Stands h s o) {k : MotorCommand} (hpoll : s.handler = .poll k)
    (hthere : isNan (s.motorData k).resp = false) :
    Stands h { s with handler := .clearFbk k (toBool (s.motorData k).resp) } o := by
  have hphase := hs.phase
  rw [hpoll] at hphase
  obtain ⟨r, hr, hresp⟩ := hs.shown.answered hthere
  have hbool : toBool (s.motorData k).resp = r := by
    have hof : (s.motorData k).resp = ofBool r := hresp
    rw [hof, toBool_ofBool]
  have htrack := hs.tracks k
  rw [hr] at htrack
  rw [hbool]
  refine ⟨hs.shown, hs.tracks, ⟨⟨?_, hphase⟩, fun heq => ?_⟩, hs.success, hs.requested⟩
  · rw [hr]
    rfl
  · rw [heq] at htrack
    exact htrack

/-- A handler that resets its feedback. -/
theorem reset (hs : Stands h s o) {k : MotorCommand} {success ok : Bool}
    (hclear : s.handler = .clearFbk k success)
    (hok : ok = true ∨ isNan (s.motorData k).resp = true) :
    ∃ o', Stands h { s.setValue (.fbk k) .nan ok with handler := .clearCmd k success } o' := by
  have hphase := hs.phase
  rw [hclear] at hphase
  obtain ⟨⟨hrest, hothers⟩, hresults⟩ := hphase
  have hall : ∀ k', Function.update o k .rest k' = .rest :=
    (Function.forall_update_iff o fun _ q => q = .rest).mpr ⟨rfl, hothers⟩
  cases ok with
  | true =>
      have hshown := hs.shown.clear (k := k)
      rw [hrest] at hshown
      exact ⟨Function.update o k .rest, by simpa [setValue] using hshown,
        Tracks.update hs.tracks trivial, ⟨hall, hresults⟩, hs.success, hs.requested⟩
  | false =>
      have hnan : resps s.motorData k = .nan := by
        have hisnan := hok.resolve_left (by simp)
        cases hresp : (s.motorData k).resp <;> simp_all [isNan, resps]
      have hreply := (hs.shown k).reply
      have ho : o k = .rest := by
        cases hq : o k <;> simp_all [OneShot.reply, OneShot.clear, ofBool]
      refine ⟨o, hs.shown, hs.tracks, ⟨fun k' => ?_, hresults⟩, hs.success, hs.requested⟩
      by_cases heq : k' = k
      · rw [heq, ho]
      · exact hothers k' heq

/-- A handler that returns. -/
theorem returned (hs : Stands h s o) {k : MotorCommand} {success : Bool} (ok : Bool)
    (hclear : s.handler = .clearCmd k success) :
    ∃ o', Stands (.returned k success :: h)
      { s.setValue (.cmd k) .nan ok with handler := .idle } o' := by
  have hphase := hs.phase
  rw [hclear] at hphase
  obtain ⟨hrest, hresults⟩ := hphase
  have hsuccess : Historically Succeeds (.returned k success :: h) := by
    apply hs.success.cons
    intro k' heq
    obtain ⟨rfl, rfl⟩ := OneShotEvent.returned.inj heq
    exact hresults rfl
  have hshown : Shown (cmds (s.setValue (.cmd k) .nan ok).motorData)
      (resps (s.setValue (.cmd k) .nan ok).motorData) s.server o := by
    cases ok with
    | false => exact hs.shown
    | true =>
        have hwithdraw := hs.shown.withdraw (k := k)
        have hupdate : Function.update o k (o k).withdraw = o := by
          rw [Function.update_eq_self_iff, hrest k]
          rfl
        rw [hupdate] at hwithdraw
        simpa [setValue] using hwithdraw
  have hserver : (s.setValue (.cmd k) .nan ok).server = s.server := by
    cases ok <;> rfl
  refine ⟨o, by simpa [hserver] using hshown, fun k' => ?_, hrest, hsuccess,
    hs.requested.returned⟩
  rw [hrest k']
  trivial

/-! ### The write -/

theorem take (hs : Stands h s o) {k : MotorCommand} (htake : s.server = .take k) :
    Stands h
      { s with
        motorData := Function.update s.motorData k { s.motorData k with onsCmd := .nan }
        server := if !isNan (s.motorData k).onsCmd then .run k else k.next }
      (Function.update o k (o k).take) := by
  have hshown := hs.shown
  rw [htake] at hshown
  have hnext := hshown.take (servedOf_next k)
  refine ⟨?_, Tracks.update hs.tracks (hs.tracks k).take, ?_, hs.success, hs.requested⟩
  · cases hnan : isNan (s.motorData k).onsCmd <;> simpa [cmds, hnan] using hnext
  · apply hs.phase.update <;> cases o k <;> simp [OneShot.take, OneShot.clear]

theorem run (hs : Stands h s o) {k : MotorCommand} (hrun : s.server = .run k) (r : Bool) :
    Stands (.ran k r :: h) { s with server := .store k r } (Function.update o k (.ran r)) := by
  have hshown := hs.shown
  rw [hrun] at hshown
  have htaken := hshown.taken
  have htrack := hs.tracks k
  rw [htaken] at htrack
  have hsuccess : Historically Succeeds (.ran k r :: h) :=
    hs.success.cons fun _ heq => nomatch heq
  refine ⟨hshown.run r, ?_, ?_, hsuccess, hs.requested.run htrack⟩
  · exact Tracks.update_cons hs.tracks (fun k' hk' => decide_eq_false hk'.symm) htrack.run
  · have hphase := hs.phase.update (k := k) (q := .ran r) (by simp [htaken])
      (by simp [htaken, OneShot.clear])
    have hold := hs.phase
    cases hpc : s.handler with
    | idle => rwa [hpc] at hphase
    | poll k₀ => rwa [hpc] at hphase
    | clearFbk k₀ b =>
        rw [hpc] at hold
        by_cases heq : k = k₀
        · obtain ⟨⟨hclear, -⟩, -⟩ := hold
          rw [← heq, htaken] at hclear
          cases hclear
        · exact absurd (hold.1.2 k heq) (by simp [htaken])
    | clearCmd k₀ b =>
        rw [hpc] at hold
        exact absurd (hold.1 k) (by simp [htaken])

/-- The driver throws. -/
theorem abort (hs : Stands h s o) {k : MotorCommand} (hrun : s.server = .run k) :
    Stands h { s with server := .idle } (Function.update o k .rest) := by
  have hshown := hs.shown
  rw [hrun] at hshown
  refine ⟨hshown.abort fun _ => rfl, Tracks.update hs.tracks trivial, ?_, hs.success,
    hs.requested⟩
  apply hs.phase.update <;> simp [OneShot.clear]

theorem store (hs : Stands h s o) {k : MotorCommand} {r : Bool} (hstore : s.server = .store k r) :
    Stands h
      { s with
        motorData := Function.update s.motorData k { s.motorData k with resp := ofBool r }
        server := k.next }
      (Function.update o k (.answered r)) := by
  have hshown := hs.shown
  rw [hstore] at hshown
  have hran := hshown.ran
  have htrack := hs.tracks k
  rw [hran] at htrack
  have hnext := hshown.store (servedOf_next k)
  refine ⟨by simpa using hnext, Tracks.update hs.tracks htrack, ?_, hs.success, hs.requested⟩
  apply hs.phase.update <;> simp [hran, OneShot.clear]

/-! ### A step -/

/-- **An orderly step.** -/
theorem step {s' : TriggerServices} {es : List (OneShotEvent MotorCommand Bool)}
    {i : TriggerInput} (hs : Stands h s o) (hok : orderly h s i)
    (hstep : s.step i = some (s', es)) : ∃ o', Stands (es ++ h) s' o' := by
  cases i with
  | call k ok =>
      cases hpc : s.handler <;> simp only [TriggerServices.step, hpc] at hstep <;> try cases hstep
      split at hstep
      · obtain ⟨rfl, rfl⟩ := Prod.mk.inj (Option.some.inj hstep)
        exact hs.call hpc k ok
      · cases hstep
  | poll running got =>
      cases hpc : s.handler <;> simp only [TriggerServices.step, hpc] at hstep <;> try cases hstep
      next k =>
        split at hstep
        · next hstopped =>
          obtain ⟨rfl, rfl⟩ := Prod.mk.inj (Option.some.inj hstep)
          have hsettled := hok.resolve_left (by simpa using hstopped)
          exact ⟨o, hs.stop hpc (hsettled k (by simp [hpc, TriggerHandler.service]))⟩
        · split at hstep
          · next hthere =>
            obtain ⟨rfl, rfl⟩ := Prod.mk.inj (Option.some.inj hstep)
            refine ⟨o, hs.read hpc ?_⟩
            cases got <;> simp_all
          · obtain ⟨rfl, rfl⟩ := Prod.mk.inj (Option.some.inj hstep)
            exact ⟨o, hs⟩
  | clearFbk ok =>
      cases hpc : s.handler <;> simp only [TriggerServices.step, hpc] at hstep <;> try cases hstep
      next k success =>
        apply hs.reset hpc
        apply hok.imp_right
        intro hnan
        exact hnan k (by simp [hpc, TriggerHandler.service])
  | clearCmd ok =>
      cases hpc : s.handler <;> simp only [TriggerServices.step, hpc] at hstep <;> try cases hstep
      exact hs.returned ok hpc
  | write =>
      cases hpc : s.server <;> simp only [TriggerServices.step, hpc] at hstep <;> try cases hstep
      have hshown := hs.shown
      rw [hpc] at hshown
      exact ⟨o, hshown, hs.tracks, hs.phase, hs.success, hs.requested⟩
  | take =>
      cases hpc : s.server <;> simp only [TriggerServices.step, hpc] at hstep <;> try cases hstep
      exact ⟨_, hs.take hpc⟩
  | run answer =>
      cases hpc : s.server <;> simp only [TriggerServices.step, hpc] at hstep <;> try cases hstep
      next k =>
        cases hanswer : answer k.driverCall <;> simp only [hanswer] at hstep <;> cases hstep
        · exact ⟨_, hs.abort hpc⟩
        · exact ⟨_, hs.run hpc _⟩
  | store =>
      cases hpc : s.server <;> simp only [TriggerServices.step, hpc] at hstep <;> try cases hstep
      exact ⟨_, hs.store hpc⟩
  | deactivate =>
      cases hpc : s.deactivation <;> simp only [TriggerServices.step, hpc] at hstep <;>
        try cases hstep
      exact ⟨o, hs.shown, hs.tracks, hs.phase, hs.success, hs.requested⟩
  | unset ok =>
      cases hpc : s.deactivation <;> simp only [TriggerServices.step, hpc] at hstep <;>
        try cases hstep
      next i is =>
        obtain ⟨o', ho'⟩ := hs.unset i ok
        exact ⟨o', ho'.shown, ho'.tracks, ho'.phase, ho'.success, ho'.requested⟩

end Stands

/-- **In every run of orderly steps the services report their own commands**, whenever the
controller is deactivated. -/
theorem reports_of_orderly {h : List (OneShotEvent MotorCommand Bool)} {s : TriggerServices}
    (hr : Reach system orderly h s) : Reports h s := by
  have hinv : ∃ o, Stands h s o := by
    apply hr.invariant (I := fun h s => ∃ o, Stands h s o)
    · intro s hs
      obtain rfl : s = constructed := hs
      exact ⟨fun _ => .rest, fun _ => ⟨rfl, rfl, rfl⟩, fun _ => trivial, fun _ => rfl,
        historically_nil, historically_nil⟩
    · intro h s i s' es hs hok hstep
      obtain ⟨o, ho⟩ := hs
      exact ho.step hok hstep
  obtain ⟨o, ho⟩ := hinv
  exact ho.reports

/-! ## Runs -/

instance (s : TriggerServices) (k : MotorCommand) : Decidable (s.Settled k) :=
  inferInstanceAs (Decidable (_ ∧ _))

instance (h : List (OneShotEvent MotorCommand Bool)) (s : TriggerServices) :
    ∀ i, Decidable (orderly h s i)
  | .poll _ _ => inferInstanceAs (Decidable (_ ∨ _))
  | .clearFbk _ => inferInstanceAs (Decidable (_ ∨ _))
  | .call _ _ | .clearCmd _ | .write | .take | .run _ | .store | .deactivate | .unset _ =>
      inferInstanceAs (Decidable True)

/-- A write takes the command, and the driver succeeds. -/
def serving : List TriggerInput := [.write, .take, .run fun _ => some true, .store]

/-- Two calls, the second in the middle of a deactivation that is past its command. -/
def twoCalls : List TriggerInput := List.flatten
  [[.call .init true, .poll true true], serving,
    [.poll true true, .clearFbk true, .clearCmd true, .deactivate, .unset true, .unset true,
      .unset true, .call .halt true, .unset true, .poll true true, .take,
      .run fun _ => some true, .store, .poll true true, .clearFbk true, .clearCmd false]]

/-- Two calls, the first of which cannot reset its feedback. -/
def staleFeedback : List TriggerInput := List.flatten
  [[.call .init true], serving,
    [.poll true true, .clearFbk false, .clearCmd true, .call .init true, .poll true true,
      .clearFbk true, .clearCmd true]]

theorem reports_halt : ∃ s, Reports [.returned .halt true, .ran .halt true, .asked .halt,
    .returned .init true, .ran .init true, .asked .init] s := by
  have hrun : (system.runIf (fun h s i => decide (orderly h s i)) twoCalls [] constructed).any
      (fun p => p.1 = [.returned .halt true, .ran .halt true, .asked .halt,
        .returned .init true, .ran .init true, .asked .init]) = true := by
    decide +kernel
  obtain ⟨h, s, hr, hend⟩ := system.exists_reach_runIf (.init rfl)
    (fun h s i hi => of_decide_eq_true hi) hrun
  obtain rfl := of_decide_eq_true hend
  exact ⟨s, reports_of_orderly hr⟩

/-- A feedback that could not be reset answers the next call, for which nothing is done. -/
theorem not_reports : ¬ ∀ h s, Reach system Guard.free h s → Reports h s := by
  intro hreports
  have hrun : (system.run staleFeedback [] constructed).any
      (fun p => p.1 = [.returned .init true, .asked .init, .returned .init true,
        .ran .init true, .asked .init]) = true := by
    decide +kernel
  obtain ⟨h, s, hr, hend⟩ := system.exists_reach_run (.init rfl) hrun
  obtain rfl := of_decide_eq_true hend
  have hsuccess := (hreports _ s hr).success
  have hresults := hsuccess [] (.returned .init true) _ rfl .init rfl
  simp [resultsSince] at hresults

end TriggerServices

end RosCanopen.Ros2Control
