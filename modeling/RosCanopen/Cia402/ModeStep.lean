import RosCanopen.Cia402.MotorStep

/-!
# What a step does to one mode object

Most steps leave the object of a given mode alone.  The others start it, read into it,
let it write, hand it a target, allocate it, or begin and end the execution of homing;
and each of these shows in the events of the step.

## Main definitions

* `MotorEvent.concerns` — the event tells of a change of the mode.
* `Touched`, `touched_of_effect` — what a step does to the object of a mode.
-/

namespace RosCanopen.Cia402

open Lib

/-- The event tells of a change of the mode. -/
def MotorEvent.concerns (id : ModeId) : MotorEvent → Bool
  | .started id' => id' = id
  | .accepted id' _ => id' = id
  | .executed => id = ModeId.homing
  | .withdrawn => id = ModeId.homing
  | _ => false

namespace MotorEvent
variable (id id' : ModeId)

@[simp] theorem concerns_started : (started id').concerns id = decide (id' = id) := rfl
@[simp] theorem concerns_accepted (val : Double) :
    (accepted id' val).concerns id = decide (id' = id) := rfl
@[simp] theorem concerns_executed : executed.concerns id = decide (id = ModeId.homing) := rfl
@[simp] theorem concerns_withdrawn : withdrawn.concerns id = decide (id = ModeId.homing) := rfl
@[simp] theorem concerns_decoded (old new : InternalState) :
    (decoded old new).concerns id = false := rfl
@[simp] theorem concerns_displayed : (displayed id').concerns id = false := rfl

end MotorEvent

/-- What a step with events `es` does to the object of the mode `id`. -/
inductive Touched (id : ModeId) : List MotorEvent → Option Mode → Option Mode → Prop
  | kept {es : List MotorEvent} {o : Option Mode} (hes : ∀ e ∈ es, e.concerns id = false) :
      Touched id es o o
  | read {es : List MotorEvent} (mode : Mode) (sw : Word)
      (hes : ∀ e ∈ es, e.concerns id = false) : Touched id es (some mode) (some (mode.read sw))
  | wrote {es : List MotorEvent} (mode : Mode) (channelOffset : BitVec 16) (cw : Word) (ok : Bool)
      (hes : ∀ e ∈ es, e.concerns id = false) :
      Touched id es (some mode) (some (mode.write channelOffset cw ok).mode)
  | started (mode : Mode) : Touched id [.started id] (some mode) (some mode.start)
  | targeted (mode : Mode) (val : Double) :
      Touched id (if (mode.setTarget val).2 then [.accepted id val] else []) (some mode)
        (some (mode.setTarget val).1)
  | allocated {mode : Mode} (raw : Mode.Raw) (hmode : Mode.fresh id raw = some mode) :
      Touched id [] none (some mode)
  | executed {o : Option Mode} (status : Word) (hid : id = ModeId.homing) :
      Touched id [.executed] o (some (.homing true status))
  | withdrawn {o : Option Mode} (status : Word) (hid : id = ModeId.homing) :
      Touched id [.withdrawn] o (some (.homing false status))

section Effect
variable {m m' : Motor} {env : Env} {code : Code} {next : Next} {es : List MotorEvent}
  {id : ModeId}

theorem setMode_modes_self (m : Motor) (id : ModeId) (mode : Mode) :
    (m.setMode id mode).modes id = some mode := by
  simp [Motor.setMode]

theorem setMode_modes_of_ne (m : Motor) {id' : ModeId} (mode : Mode) (hid : id ≠ id') :
    (m.setMode id' mode).modes id = m.modes id := by
  simp [Motor.setMode, hid]

theorem concerns_of_isOpMode {e : MotorEvent} (h : e.isOpMode = true) : e.concerns id = false := by
  cases e <;> first | contradiction | rfl

theorem touched_startMode (m : Motor) (id id' : ModeId) :
    Touched id (m.startMode id').2 (m.modes id) ((m.startMode id').1.modes id) := by
  rcases startMode_cases m id' with ⟨mode, hmode, heq⟩ | ⟨-, heq⟩ <;> rw [heq]
  · by_cases hid : id = id'
    · subst hid
      rw [hmode, setMode_modes_self]
      exact .started mode
    · rw [setMode_modes_of_ne m _ hid]
      exact .kept (by simp [Ne.symm hid])
  · exact .kept (by simp)

theorem touched_setSelectedTarget (m : Motor) (id : ModeId) (val : Double) :
    Touched id (m.setSelectedTarget val).2.2 (m.modes id)
      ((m.setSelectedTarget val).1.modes id) := by
  rcases setSelectedTarget_cases m val with ⟨id', mode, -, hmode, heq⟩ | heq <;> rw [heq]
  · by_cases hid : id = id'
    · subst hid
      rw [hmode, setMode_modes_self]
      exact .targeted mode val
    · rw [setMode_modes_of_ne m _ hid]
      refine .kept fun e he => ?_
      split at he
      · obtain rfl := List.mem_singleton.mp he
        simp [Ne.symm hid]
      · contradiction
  · exact .kept (by simp)

theorem touched_readSelected (m : Motor) (id mode : ModeId) (sw : Word) :
    Touched id [.displayed mode] (m.modes id) ((m.readSelected mode sw).modes id) := by
  have hes : ∀ e ∈ [MotorEvent.displayed mode], e.concerns id = false := by
    simp
  rw [Motor.readSelected]
  split
  · by_cases hid : id = mode
    · subst hid
      cases hmode : m.modes id with
      | none => simpa [hmode] using Touched.kept hes
      | some old => simpa [hmode] using Touched.read old sw hes
    · simpa [hid] using Touched.kept hes
  · exact .kept hes

theorem touched_handleWrite (m : Motor) (id : ModeId) (env : Env) :
    Touched id (m.handleWrite env).2.2 (m.modes id) ((m.handleWrite env).1.modes id) := by
  have hes : ∀ e ∈ (m.handleWrite env).2.2, e.concerns id = false := by
    intro e he
    have hwrites := writes_of_mem he
    cases e <;> first | contradiction | rfl
  obtain ⟨m', w, hw, heq⟩ := exists_wrote m env
  have hmodes : (m.handleWrite env).1.modes id = m'.modes id := by
    rw [heq]
    rcases finishWrite_motor m' env w with hm | hm <;> rw [hm]
  rw [hmodes]
  cases hw with
  | idle => exact .kept hes
  | @asked id' mode r cw _ hactive hr _ _ =>
      by_cases hid : id = id'
      · subst hid hr
        rw [(activeMode_eq_some hactive).2.2]
        simpa [Motor.setMode, Motor.modeWrite] using
          Touched.wrote mode m.channelOffset _ env.driverOk hes
      · simpa [Motor.setMode, hid] using Touched.kept hes

theorem touched_setExecute (m : Motor) (id : ModeId) (execute : Bool) :
    Touched id [if execute then .executed else .withdrawn] (m.modes id)
      ((m.setExecute execute).modes id) := by
  by_cases hid : id = ModeId.homing
  · subst hid
    rw [Motor.setExecute, setMode_modes_self]
    cases execute with
    | true => exact .executed _ rfl
    | false => exact .withdrawn _ rfl
  · rw [Motor.setExecute, setMode_modes_of_ne m _ hid]
    have hes : ∀ e ∈ [if execute then MotorEvent.executed else .withdrawn],
        e.concerns id = false := by
      intro e he
      obtain rfl := List.mem_singleton.mp he
      cases execute <;> exact decide_eq_false hid
    exact .kept hes

/-- **What a step does to one mode object**, read off the effects once. -/
theorem touched_of_effect (id : ModeId) (heffect : Effect m env code m' next es) :
    Touched id es (m.modes id) (m'.modes id) := by
  cases heffect with
  | silent _ hes => exact .kept fun e he => concerns_of_isOpMode (hes e he)
  | deselected _ hes => exact .kept fun e he => concerns_of_isOpMode (hes e he)
  | decoded sw => exact .kept (by simp)
  | displayed sw mode => exact touched_readSelected m id mode sw
  | wrote => exact touched_handleWrite m id env
  | targeted val => exact touched_setSelectedTarget m id val
  | started mode => exact touched_startMode m id mode
  | executed => exact touched_setExecute m id true
  | withdrawn => exact touched_setExecute m id false
  | allocated id' todo mode hmode =>
      by_cases hid : id = id'
      · subst hid
        cases hold : m.modes id with
        | some old => simpa using Touched.kept (by simp)
        | none =>
            rcases hmode with rfl | rfl
            · simpa using Touched.kept (by simp)
            · cases hfresh : Mode.fresh id env.raw with
              | none => simpa using Touched.kept (by simp)
              | some mode => simpa using Touched.allocated env.raw hfresh
      · simpa [hid] using Touched.kept (by simp)
  | _ => exact .kept (by simp)

/-- No step removes a mode object. -/
theorem isSome_of_effect (heffect : Effect m env code m' next es)
    (h : (m.modes id).isSome = true) : (m'.modes id).isSome = true := by
  have htouched := touched_of_effect id heffect
  revert h
  generalize m.modes id = o, m'.modes id = o' at htouched
  intro h
  cases htouched with
  | kept => exact h
  | _ => rfl

end Effect

end RosCanopen.Cia402
