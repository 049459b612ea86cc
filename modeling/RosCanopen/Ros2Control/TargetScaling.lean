import RosCanopen.Cia402.Target
import RosCanopen.Ros2Control.Targets

/-!
# Targets and switches of the mode

`set_target` asks the motor for its mode, scales the target for it, and gives the result to the
motor, which hands it to the mode that is selected by then.  The two look-ups take the lock
separately, and `switchMode` of another thread may run in between.

## Main definitions

* `Asked`, `ScaledTargets` — the calls of `set_target`, and the motor with its threads.
* `ScaledTargets.system` — the calls among the steps of all other threads.
* `ScaledEvent.Right` — a target is scaled for the mode that has taken it.
* `ScaledTargets.Fits` — the steps after which it is.
-/

namespace RosCanopen.Ros2Control

open Lib Cia402

/-- A call of `set_target`: its target, and the mode that `getMode` has given. -/
structure Asked where
  target : Double
  mode : ModeId

/-- The motor of a channel, and the calls of `set_target` from `getMode` on. -/
structure ScaledTargets where
  motor : MotorSystem
  calls : ℕ → Option Asked

inductive ScaledInput
  /-- A thread calls `set_target`, and `getMode` in it. -/
  | setTarget (thread : ℕ) (target : Double)
  /-- It goes on to `setTarget` of the motor. -/
  | give (thread : ℕ)
  /-- A step in the motor, of any thread. -/
  | motor (step : MotorStep)

inductive ScaledEvent
  | motor (e : MotorEvent)
  /-- The mode has taken the target of a call. -/
  | took (call : Asked) (id : ModeId) (after : Mode)

/-- `set_target` scales a target alike for the two modes. -/
def SameScale (id id' : ModeId) : Prop := ∀ interface, interface ≠ .effort →
  (quantityOf id = some interface ↔ quantityOf id' = some interface)

namespace ScaledTargets
variable (s : ScaledTargets)

/-- The motor once constructed, with no call. -/
def Constructed (s : ScaledTargets) : Prop := s.motor.Constructed ∧ s.calls = fun _ => none

/-- The targets of `set_target` that are taken in a step to the motor `m`. -/
def taken (m : Motor) : MotorStep → List MotorEvent → List ScaledEvent
  | .enter _ _, _ => []
  | .go i _, es =>
      match s.calls i with
      | none => []
      | some call => es.filterMap fun
          | .accepted id _ => (m.modes id).map (.took call id)
          | _ => none

/-- A call is over when its thread has left the motor. -/
def remaining (threads : ℕ → Option Cia402.Thread) : MotorStep → ℕ → Option Asked
  | .enter _ _ => s.calls
  | .go i _ => if (threads i).isNone then Function.update s.calls i none else s.calls

/-- The thread of the step may take it: one in `set_target` calls nothing else. -/
def admits : MotorStep → Bool
  | .enter i _ => (s.calls i).isNone
  | .go _ _ => true

/-- `scaling` has the parameters of the channel; the node is activated. -/
def step (scaling : ChannelScaling) :
    ScaledInput → Option (ScaledTargets × List ScaledEvent)
  | .setTarget i target =>
      if (s.calls i).isNone && (s.motor.threads i).isNone then
        let call : Asked := ⟨target, motorMode s.motor.motor⟩
        some ({ s with calls := Function.update s.calls i (some call) }, [])
      else none
  | .give i =>
      match s.calls i with
      | none => none
      | some call =>
          let value := scaling.scale call.mode call.target
          (MotorSystem.system.step s.motor (.enter i (.setTarget value))).map fun (motor, es) =>
            ({ s with motor := motor }, es.map .motor)
  | .motor i =>
      if s.admits i then
        (MotorSystem.system.step s.motor i).map fun (motor, es) =>
          (⟨motor, s.remaining motor.threads i⟩, s.taken motor.motor i es ++ es.map .motor)
      else none

def system (scaling : ChannelScaling) : System ScaledTargets ScaledInput ScaledEvent where
  init := Constructed
  step s := s.step scaling

/-- Where the step hands the target of a call to the selected mode, and this takes it, the mode
that was read for the scale is scaled for alike, or the clamp makes the two values one. -/
def Fits (scaling : ChannelScaling) : ScaledInput → Prop
  | .motor (.go i _) => ∀ call id mode, s.calls i = some call →
      (s.motor.threads i).map Cia402.Thread.code =
        some (.targetSet (scaling.scale call.mode call.target)) →
      s.motor.motor.selectedMode = some id → s.motor.motor.modes id = some mode →
      mode.cast (scaling.scale call.mode call.target) ≠ none →
      SameScale id call.mode ∨ mode.cast (scaling.scale id call.target) =
        mode.cast (scaling.scale call.mode call.target)
  | _ => True

end ScaledTargets

/-! ## What a step does -/

section Steps
variable {scaling : ChannelScaling} {s s' : ScaledTargets} {i : ScaledInput}
  {es : List ScaledEvent}

end Steps

/-! ## Where a call is -/

section Calls
variable {scaling : ChannelScaling} {s s' : ScaledTargets} {i : ScaledInput}
  {es h : List ScaledEvent}

end Calls

/-! ## What a mode takes -/

section Modes
variable {mode : Mode} {id id' : ModeId}

end Modes

/-! ## The scale of a target that is taken -/

section Scale
variable {scaling : ChannelScaling} {s s' : ScaledTargets} {i : ScaledInput}
  {es h : List ScaledEvent}

end Scale

/-! ## Runs without such switches -/

section Undisturbed
variable {scaling : ChannelScaling} {s s' : ScaledTargets} {i : ScaledInput}
  {es h : List ScaledEvent}

/-- The selected mode changes only while no thread is in `set_target`. -/
def undisturbed (scaling : ChannelScaling) : Guard ScaledTargets ScaledInput ScaledEvent :=
  fun _ s i => ∀ s' es, s.step scaling i = some (s', es) →
    s'.motor.motor.selectedMode = s.motor.motor.selectedMode ∨ ∀ j, s.calls j = none

end Undisturbed

end RosCanopen.Ros2Control
