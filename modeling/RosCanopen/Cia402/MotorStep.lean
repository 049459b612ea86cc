import RosCanopen.Cia402.Motor

/-!
# What a step of the motor can do

A step either lets a thread enter a call or advances the thread it names.  `Effect`
lists everything the advance of a thread can do to the members of the motor, each with
the program point it belongs to; invariants of the motor are proved by going through
this list once.

## Main definitions

* `Effect`, `effect_of_exec` — the effects of a program point.
* `Stepped`, `stepped_of_step` — the two kinds of steps.
* `MotorRecord` — a recorded step.
-/

namespace RosCanopen.Cia402

open Lib

/-- A write of the operation mode object. -/
def MotorEvent.isOpMode : MotorEvent → Bool
  | .opMode _ _ => true
  | _ => false

/-- Everything that a step at a program point can do. -/
inductive Effect (m : Motor) (env : Env) : Code → Motor → Next → List MotorEvent → Prop
  /-- Nothing but going on, and perhaps writing the operation mode. -/
  | silent {code : Code} {next : Next} {es : List MotorEvent}
      (hcode : ∀ state, code ≠ .haltLocked state) (hes : ∀ e ∈ es, e.isOpMode = true) :
      Effect m env code m next es
  | fetched (sw : Word) :
      Effect m env .readStatus { m with statusWord := sw } (.goto (.readDecode sw)) []
  | decoded (sw : Word) :
      Effect m env (.readDecode sw) { m with state := State402.read sw } (.goto (.readMode sw))
        [.decoded m.state (State402.read sw)]
  | displayed (sw : Word) (mode : ModeId) :
      Effect m env (.readMode sw) { m.readSelected mode sw with modeId := mode } (.ret true)
        [.displayed mode]
  | wrote :
      Effect m env .write (m.handleWrite env).1 (m.handleWrite env).2.1 (m.handleWrite env).2.2
  | targeted (val : Double) :
      Effect m env (.targetSet val) (m.setSelectedTarget val).1 (m.setSelectedTarget val).2.1
        (m.setSelectedTarget val).2.2
  | deselected {code : Code} {next : Next} {es : List MotorEvent}
      (hcode : ∀ state, code ≠ .haltLocked state) (hes : ∀ e ∈ es, e.isOpMode = true) :
      Effect m env code { m with selectedMode := none } next es
  | started {code : Code} {next : Next} (mode : ModeId)
      (hcode : code = .modeStart mode ∨
        (code = .recoverRestart ∧ m.selectedMode = some mode)) :
      Effect m env code (m.startMode mode).1 next (m.startMode mode).2
  | selected {next : Next} (mode : ModeId) (hmode : m.modeId = mode) :
      Effect m env (.modeWait mode) { m with selectedMode := some mode } next []
  | aimed (target state : InternalState) :
      Effect m env (.stateSet target state) { m with targetState := target }
        (.goto (.stateCheck target state)) []
  | transited {next : Next} (target state : InternalState) :
      Effect m env (.stateTransit target state)
        { m with
          controlWord := (setTransition m.controlWord state m.targetState (some .unknown)).2.1 }
        next []
  | allocated {next : Next} (id : ModeId) (todo : List ModeId) (mode : Option Mode)
      (hmode : mode = none ∨ mode = Mode.fresh id env.raw) :
      Effect m env (.initAlloc (id :: todo))
        { m with modes := Function.update m.modes id (m.modes id <|> mode) } next []
  | armed {next : Next} :
      Effect m env .initArm { m with controlWord := 0, startFaultReset := true } next []
  | executed {next : Next} : Effect m env .homingPrepare (m.setExecute true) next [.executed]
  | withdrawn {code : Code} {next : Next} (hcode : ∀ state, code ≠ .haltLocked state) :
      Effect m env code (m.setExecute false) next [.withdrawn]
  | haltRefused (state : InternalState) : Effect m env (.haltLocked state) m (.ret false) []
  /-- The halt keeps the state it has read as the new target. -/
  | haltKept (state : InternalState) (hstate : state ≠ .operationEnable)
      (hfault : state ≠ .faultReactionActive ∧ state ≠ .fault) :
      Effect m env (.haltLocked state) { m with targetState := state } (.ret true) []
  /-- The halt commands a quick stop. -/
  | haltQuick :
      Effect m env (.haltLocked .operationEnable)
        { m with
          targetState := .quickStopActive, controlWord := Op.quickstop.apply m.controlWord }
        (.ret true) []
  | recovered {next : Next} :
      Effect m env .recoverArm { m with startFaultReset := true } next []

section Exec
variable {m m' : Motor} {env : Env} {next : Next} {es : List MotorEvent}

/-- A wait of `executeHoming` goes on, gives up or blocks. -/
theorem homingWait_eq_some {timedOut ready : Bool} {go : Motor × Next × List MotorEvent}
    (h : m.homingWait timedOut ready go = some (m', next, es)) :
    (m', next, es) = m.homingError ∨ (m', next, es) = go := by
  rw [Motor.homingWait] at h
  split at h
  · split at h
    · exact .inl (Option.some.inj h).symm
    · exact .inr (Option.some.inj h).symm
  · split at h
    · exact .inl (Option.some.inj h).symm
    · contradiction

/-- The result of a step that was computed outright. -/
theorem step_inj {a b : Motor × Next × List MotorEvent} (h : some a = some b) :
    a.1 = b.1 ∧ a.2.1 = b.2.1 ∧ a.2.2 = b.2.2 := by
  obtain rfl := Option.some.inj h
  exact ⟨rfl, rfl, rfl⟩

theorem effect_of_homingError {code : Code} (hcode : ∀ state, code ≠ .haltLocked state)
    (h : (m', next, es) = m.homingError) : Effect m env code m' next es := by
  cases h
  exact .withdrawn hcode

/-- **What a step can do**, read off the program points once. -/
theorem effect_of_exec {code : Code} (h : m.exec env code = some (m', next, es)) :
    Effect m env code m' next es := by
  have hopMode : ∀ mode, ∀ e ∈ [m.opModeEvent mode], e.isOpMode = true := by
    intro mode e he
    rw [List.mem_singleton.mp he]
    rfl
  cases code with
  | readStatus =>
      simp only [Motor.exec] at h
      split at h <;> obtain ⟨rfl, rfl, rfl⟩ := step_inj h
      · exact .fetched _
      · exact .silent (by simp) (by simp)
  | readDecode sw =>
      obtain ⟨rfl, rfl, rfl⟩ := step_inj h
      exact .decoded sw
  | readMode sw =>
      simp only [Motor.exec] at h
      split at h <;> obtain ⟨rfl, rfl, rfl⟩ := step_inj h
      · exact .displayed sw _
      · exact .silent (by simp) (by simp)
  | write =>
      obtain ⟨rfl, rfl, rfl⟩ := step_inj h
      exact .wrote
  | targetCheck val =>
      simp only [Motor.exec] at h
      split at h <;> obtain ⟨rfl, rfl, rfl⟩ := step_inj h <;> exact .silent (by simp) (by simp)
  | targetSet val =>
      obtain ⟨rfl, rfl, rfl⟩ := step_inj h
      exact .targeted val
  | refuse =>
      obtain ⟨rfl, rfl, rfl⟩ := step_inj h
      exact .silent (by simp) (by simp)
  | modeEnter mode =>
      simp only [Motor.exec] at h
      split at h
      · obtain ⟨rfl, rfl, rfl⟩ := step_inj h
        refine .deselected (by simp) ?_
        split
        · exact hopMode mode
        · simp
      · split at h
        · split at h <;> obtain ⟨rfl, rfl, rfl⟩ := step_inj h <;> exact .silent (by simp) (by simp)
        · obtain ⟨rfl, rfl, rfl⟩ := step_inj h
          exact .silent (by simp) (by simp)
  | modeStart mode =>
      obtain ⟨rfl, rfl, rfl⟩ := step_inj h
      exact .started mode (.inl rfl)
  | modeDisable mode =>
      simp only [Motor.exec] at h
      split at h <;> obtain ⟨rfl, rfl, rfl⟩ := step_inj h
      · exact .silent (by simp) (by simp)
      · exact .deselected (by simp) (by simp)
  | opModeWrite mode =>
      simp only [Motor.exec] at h
      split at h <;> obtain ⟨rfl, rfl, rfl⟩ := step_inj h
      · exact .silent (by simp) (hopMode mode)
      · exact .silent (by simp) (by simp)
  | modeWait mode =>
      simp only [Motor.exec] at h
      split at h
      · next hmode =>
          obtain ⟨rfl, rfl, rfl⟩ := step_inj h
          exact .selected mode hmode
      · split at h
        · split at h <;> obtain ⟨rfl, rfl, rfl⟩ := step_inj h
          · exact .silent (by simp) (hopMode _)
          · exact .silent (by simp) (by simp)
        · contradiction
  | stateEnter target =>
      obtain ⟨rfl, rfl, rfl⟩ := step_inj h
      exact .silent (by simp) (by simp)
  | stateSet target state =>
      obtain ⟨rfl, rfl, rfl⟩ := step_inj h
      exact .aimed target state
  | stateCheck target state =>
      simp only [Motor.exec] at h
      split at h <;> obtain ⟨rfl, rfl, rfl⟩ := step_inj h <;> exact .silent (by simp) (by simp)
  | stateTransit target state =>
      simp only [Motor.exec] at h
      have heffect : ∀ next, Effect m env (.stateTransit target state) _ next [] := fun next =>
        .transited target state
      split at h <;> next hset =>
        obtain ⟨rfl, rfl, rfl⟩ := step_inj h
        rw [hset] at heffect
        exact heffect _
  | stateWait target state =>
      simp only [Motor.exec] at h
      split at h
      · obtain ⟨rfl, rfl, rfl⟩ := step_inj h
        exact .silent (by simp) (by simp)
      · split at h
        · obtain ⟨rfl, rfl, rfl⟩ := step_inj h
          exact .silent (by simp) (by simp)
        · contradiction
  | initAlloc todo =>
      cases todo with
      | nil =>
          obtain ⟨rfl, rfl, rfl⟩ := step_inj h
          exact .silent (by simp) (by simp)
      | cons id todo =>
          simp only [Motor.exec] at h
          split at h <;> obtain ⟨rfl, rfl, rfl⟩ := step_inj h
          · refine .allocated id todo _ ?_
            split
            · exact .inr rfl
            · exact .inl rfl
          · exact .silent (by simp) (by simp)
  | initArm =>
      obtain ⟨rfl, rfl, rfl⟩ := step_inj h
      exact .armed
  | initHoming =>
      simp only [Motor.exec] at h
      split at h
      · split at h <;> obtain ⟨rfl, rfl, rfl⟩ := step_inj h <;> exact .silent (by simp) (by simp)
      · obtain ⟨rfl, rfl, rfl⟩ := step_inj h
        exact .silent (by simp) (by simp)
  | homingMethod =>
      simp only [Motor.exec] at h
      split at h <;> obtain ⟨rfl, rfl, rfl⟩ := step_inj h <;> exact .silent (by simp) (by simp)
  | homingPrepare =>
      rcases homingWait_eq_some h with herror | hgo
      · exact effect_of_homingError (by simp) herror
      · cases hgo
        exact .executed
  | homingStart =>
      rcases homingWait_eq_some h with herror | hgo
      · exact effect_of_homingError (by simp) herror
      · cases hgo
        exact .silent (by simp) (by simp)
  | homingAttain =>
      rcases homingWait_eq_some h with herror | hgo
      · exact effect_of_homingError (by simp) herror
      · cases hgo
        exact .silent (by simp) (by simp)
  | homingStop =>
      rcases homingWait_eq_some h with herror | hgo
      · exact effect_of_homingError (by simp) herror
      · split at hgo
        · cases hgo
          exact .withdrawn (by simp)
        · exact effect_of_homingError (by simp) hgo
  | haltCheck =>
      obtain ⟨rfl, rfl, rfl⟩ := step_inj h
      exact .silent (by simp) (by simp)
  | haltLocked state =>
      simp only [Motor.exec] at h
      split at h
      · obtain ⟨rfl, rfl, rfl⟩ := step_inj h
        exact .haltRefused state
      · next hfault =>
        split at h
        · next hstate =>
            obtain ⟨rfl, rfl, rfl⟩ := step_inj h
            exact .haltKept state hstate (not_or.mp hfault)
        · next hstate =>
            obtain rfl := not_not.mp hstate
            obtain ⟨rfl, rfl, rfl⟩ := step_inj h
            exact .haltQuick
  | recoverArm =>
      obtain ⟨rfl, rfl, rfl⟩ := step_inj h
      exact .recovered
  | recoverRestart =>
      simp only [Motor.exec] at h
      split at h
      · next hselected =>
          obtain ⟨rfl, rfl, rfl⟩ := step_inj h
          exact .started _ (.inr ⟨rfl, hselected⟩)
      · obtain ⟨rfl, rfl, rfl⟩ := step_inj h
        exact .silent (by simp) (by simp)

/-- The locked part of `handleHalt` refuses, keeps the state or commands a quick stop. -/
theorem haltLocked_cases {state : InternalState}
    (heffect : Effect m env (.haltLocked state) m' next es) :
    (m' = m ∧ next = .ret false) ∨
      (m' = { m with targetState := state } ∧ next = .ret true ∧ state ≠ .operationEnable ∧
        state ≠ .faultReactionActive ∧ state ≠ .fault) ∨
      (m' = { m with
          targetState := .quickStopActive, controlWord := Op.quickstop.apply m.controlWord } ∧
        next = .ret true) := by
  cases heffect with
  | silent hcode => exact absurd rfl (hcode state)
  | deselected hcode => exact absurd rfl (hcode state)
  | withdrawn hcode => exact absurd rfl (hcode state)
  | started mode hcode => simp at hcode
  | haltRefused => exact .inl ⟨rfl, rfl⟩
  | haltKept _ hstate hfault => exact .inr (.inl ⟨rfl, rfl, hstate, hfault⟩)
  | haltQuick => exact .inr (.inr ⟨rfl, rfl⟩)

/-- It ends the call. -/
theorem haltLocked_next {state : InternalState}
    (heffect : Effect m env (.haltLocked state) m' next es) : ∃ ok, next = .ret ok := by
  obtain ⟨-, hnext⟩ | ⟨-, hnext, -⟩ | ⟨-, hnext⟩ := haltLocked_cases heffect
  · exact ⟨_, hnext⟩
  · exact ⟨_, hnext⟩
  · exact ⟨_, hnext⟩

end Exec

/-! ## Steps that change mode objects only -/

theorem startMode_cases (m : Motor) (id : ModeId) :
    (∃ mode, m.modes id = some mode ∧ m.startMode id = (m.setMode id mode.start, [.started id])) ∨
      m.modes id = none ∧ m.startMode id = (m, []) := by
  rw [Motor.startMode]
  split
  · next mode hmode => exact .inl ⟨mode, hmode, rfl⟩
  · next hmode => exact .inr ⟨hmode, rfl⟩

theorem setSelectedTarget_cases (m : Motor) (val : Double) :
    (∃ id mode, m.selectedMode = some id ∧ m.modes id = some mode ∧
      m.setSelectedTarget val = (m.setMode id (mode.setTarget val).1, .ret (mode.setTarget val).2,
        if (mode.setTarget val).2 then [.accepted id val] else [])) ∨
      m.setSelectedTarget val = (m, .ret false, []) := by
  rw [Motor.setSelectedTarget]
  split
  · next id hselected =>
      split
      · next mode hmode => exact .inl ⟨id, mode, hselected, hmode, rfl⟩
      · exact .inr rfl
  · exact .inr rfl

theorem startMode_motor (m : Motor) (id : ModeId) :
    ∃ modes, (m.startMode id).1 = { m with modes := modes } := by
  rcases startMode_cases m id with ⟨mode, -, heq⟩ | ⟨-, heq⟩ <;> rw [heq]
  · exact ⟨_, rfl⟩
  · exact ⟨m.modes, rfl⟩

theorem readSelected_motor (m : Motor) (id : ModeId) (sw : Word) :
    ∃ modes, m.readSelected id sw = { m with modes := modes } := by
  rw [Motor.readSelected]
  split
  · exact ⟨_, rfl⟩
  · exact ⟨m.modes, rfl⟩

theorem setSelectedTarget_motor (m : Motor) (val : Double) :
    ∃ modes, (m.setSelectedTarget val).1 = { m with modes := modes } := by
  rcases setSelectedTarget_cases m val with ⟨id, mode, -, -, heq⟩ | heq <;> rw [heq]
  · exact ⟨_, rfl⟩
  · exact ⟨m.modes, rfl⟩

theorem setSelectedTarget_next (m : Motor) (val : Double) :
    ∃ ok, (m.setSelectedTarget val).2.1 = .ret ok := by
  rcases setSelectedTarget_cases m val with ⟨id, mode, -, -, heq⟩ | heq <;> rw [heq] <;>
    exact ⟨_, rfl⟩

/-! ## What `handleWrite` does -/

/-- An event that only `handleWrite` emits. -/
def MotorEvent.writes : MotorEvent → Bool
  | .controlWord _ _ => true
  | .target _ _ _ _ => true
  | _ => false

/-- What `handleWrite` has made of the motor when it comes to streaming the control word,
and the write of the mode, if one was asked. -/
inductive Wrote (m : Motor) (env : Env) : Motor → Option (ModeId × ModeWrite) → Prop
  | idle {cw : Word} (hcw : AgreeOn ControlWord.stateBits cw m.controlWord)
      (hhalt : cw.getLsbD ControlWord.halt = true) : Wrote m env { m with controlWord := cw } none
  | asked {id : ModeId} {mode : Mode} {r : ModeWrite} {cw : Word}
      (hstate : m.state = .operationEnable) (hactive : m.activeMode = some (id, mode))
      (hr : r = m.modeWrite mode env) (hcw : AgreeOn ControlWord.stateBits cw m.controlWord)
      (hhalt : cw.getLsbD ControlWord.halt = false → r.okay = true) :
      Wrote m env { m.setMode id r.mode with controlWord := cw } (some (id, r))

section Write
variable {m : Motor} {env : Env}

theorem activeMode_eq_some {id : ModeId} {mode : Mode} (h : m.activeMode = some (id, mode)) :
    m.selectedMode = some id ∧ m.modeId = id ∧ m.modes id = some mode := by
  rw [Motor.activeMode] at h
  split at h
  · next id' hselected =>
      split at h
      · next hid =>
          obtain ⟨mode', hmode, heq⟩ := Option.map_eq_some_iff.mp h
          obtain ⟨rfl, rfl⟩ := Prod.mk.inj heq
          exact ⟨hselected, hid.symm, hmode⟩
      · contradiction
  · contradiction

theorem agreeOn_halted (cw : Word) :
    AgreeOn ControlWord.stateBits (overwrite 0 (bit ControlWord.halt) cw) cw :=
  agreeOn_overwrite (by simp) (by decide)

theorem agreeOn_released (cw : Word) :
    AgreeOn ControlWord.stateBits (overwrite (bit ControlWord.halt) 0 cw) cw :=
  agreeOn_overwrite (by decide) (by simp)

/-- What `handleWrite` does from the streaming on, unless the mode's write has thrown. -/
def Motor.finishWrite (m : Motor) (env : Env) :
    Option (ModeId × ModeWrite) → Motor × Next × List MotorEvent
  | some (id, r) =>
      if r.threw then (m, .throw, [])
      else
        ((m.stream env.streamOk).1, (m.stream env.streamOk).2.1,
          (m.stream env.streamOk).2.2 ++ Motor.targetEvent id r)
  | none => m.stream env.streamOk

/-- **One cycle of writing.**  Up to the streaming, `handleWrite` changes the mode bits and
the halt bit of the control word, and the object of the mode it asks. -/
theorem exists_wrote (m : Motor) (env : Env) :
    ∃ m' w, Wrote m env m' w ∧ m.handleWrite env = m'.finishWrite env w := by
  have hhalted := agreeOn_halted m.controlWord
  have hhalt : (overwrite 0 (bit ControlWord.halt) m.controlWord).getLsbD ControlWord.halt =
      true := by simp [ControlWord.halt]
  rw [Motor.handleWrite]
  split
  · next hstate =>
      split
      · next id mode hactive =>
          have hkept := mode.agreeOn_write m.channelOffset
            (overwrite 0 (bit ControlWord.halt) m.controlWord) env.driverOk
          have hcw : AgreeOn ControlWord.stateBits (m.modeWrite mode env).cw m.controlWord :=
            AgreeOn.trans (fun i hi => hkept i (List.mem_cons_of_mem _ hi)) hhalted
          refine ⟨_, _, .asked hstate hactive rfl ?_ ?_, rfl⟩
          · split
            · exact (agreeOn_released _).trans hcw
            · exact hcw
          · split
            · next hokay => exact fun _ => hokay
            · intro hclear
              have hset := (hkept ControlWord.halt (List.mem_cons_self ..)).trans hhalt
              exact absurd (hset.symm.trans hclear) (by simp)
      · refine ⟨_, none, .idle ?_ ?_, rfl⟩
        · exact AgreeOn.trans (fun i hi => OpModeAccesser.agreeOn_assign _ _ i
            (List.mem_cons_of_mem _ hi)) hhalted
        · exact (OpModeAccesser.agreeOn_assign _ _ _ (List.mem_cons_self ..)).trans hhalt
  · exact ⟨_, none, .idle hhalted hhalt, rfl⟩

theorem stream_eq (m : Motor) (ok : Bool) : m.stream ok =
    ({ m with startFaultReset := false }, if ok then .ret true else .throw,
      if ok then [.controlWord (m.channelIndex 0x6040) m.streamed] else []) := by
  cases ok <;> rfl

/-- The streaming leaves the motor alone but for the pending fault reset. -/
theorem finishWrite_motor (m : Motor) (env : Env) (w : Option (ModeId × ModeWrite)) :
    (m.finishWrite env w).1 = m ∨
      (m.finishWrite env w).1 = { m with startFaultReset := false } := by
  unfold Motor.finishWrite
  split
  · split
    · exact .inl rfl
    · exact .inr (by rw [stream_eq])
  · exact .inr (by rw [stream_eq])

theorem finishWrite_next (m : Motor) (env : Env) (w : Option (ModeId × ModeWrite)) :
    (m.finishWrite env w).2.1 = .ret true ∨ (m.finishWrite env w).2.1 = .throw := by
  have hstream : (m.stream env.streamOk).2.1 = .ret true ∨
      (m.stream env.streamOk).2.1 = .throw := by
    rw [stream_eq]
    cases env.streamOk <;> simp
  unfold Motor.finishWrite
  split
  · split
    · exact .inr rfl
    · exact hstream
  · exact hstream

/-- What is written: the control word, and the target object of the mode. -/
theorem mem_finishWrite {w : Option (ModeId × ModeWrite)} {e : MotorEvent}
    (h : e ∈ (m.finishWrite env w).2.2) :
    e = .controlWord (m.channelIndex 0x6040) m.streamed ∨
      ∃ id r, w = some (id, r) ∧ e ∈ Motor.targetEvent id r := by
  have hstream : ∀ e ∈ (m.stream env.streamOk).2.2,
      e = .controlWord (m.channelIndex 0x6040) m.streamed := by
    intro e he
    rw [stream_eq] at he
    cases hok : env.streamOk with
    | true => simpa [hok] using he
    | false => simp [hok] at he
  unfold Motor.finishWrite at h
  split at h
  · next id r =>
      split at h
      · simp at h
      · rcases List.mem_append.mp h with h | h
        · exact .inl (hstream e h)
        · exact .inr ⟨id, r, rfl, h⟩
  · exact .inl (hstream e h)

/-- A cycle of writing keeps the other members. -/
theorem handleWrite_motor (m : Motor) (env : Env) : ∃ modes cw reset, (m.handleWrite env).1 =
    { m with modes := modes, controlWord := cw, startFaultReset := reset } := by
  obtain ⟨m', w, hw, heq⟩ := exists_wrote m env
  rw [heq]
  rcases finishWrite_motor m' env w with hm | hm <;> rw [hm] <;> cases hw <;>
    exact ⟨_, _, _, rfl⟩

theorem handleWrite_next (m : Motor) (env : Env) :
    (m.handleWrite env).2.1 = .ret true ∨ (m.handleWrite env).2.1 = .throw := by
  obtain ⟨m', w, -, heq⟩ := exists_wrote m env
  rw [heq]
  exact finishWrite_next m' env w

theorem mem_targetEvent {id : ModeId} {r : ModeWrite} {e : MotorEvent}
    (h : e ∈ Motor.targetEvent id r) :
    ∃ index sub value, r.target = some (index, sub, value) ∧ e = .target id index sub value := by
  obtain ⟨⟨index, sub, value⟩, hr, heq⟩ := Option.map_eq_some_iff.mp (Option.mem_toList.mp h)
  exact ⟨index, sub, value, hr, heq.symm⟩

/-- A control word comes from the cycle of writing as a whole. -/
theorem mem_controlWord {index : BitVec 16} {cw : Word}
    (h : .controlWord index cw ∈ (m.handleWrite env).2.2) :
    ∃ m' w, Wrote m env m' w ∧ cw = m'.streamed := by
  obtain ⟨m', w, hw, heq⟩ := exists_wrote m env
  rw [heq] at h
  rcases mem_finishWrite h with hcw | ⟨id, r, -, htarget⟩
  · exact ⟨m', w, hw, (MotorEvent.controlWord.inj hcw).2⟩
  · obtain ⟨_, _, _, _, heq⟩ := mem_targetEvent htarget
    contradiction

/-- A target object is written by the mode that was asked. -/
theorem mem_target {id : ModeId} {index : BitVec 16} {sub : BitVec 8} {target : ℤ}
    (h : .target id index sub target ∈ (m.handleWrite env).2.2) :
    ∃ m' r, Wrote m env m' (some (id, r)) ∧ r.target = some (index, sub, target) := by
  obtain ⟨m', w, hw, heq⟩ := exists_wrote m env
  rw [heq] at h
  rcases mem_finishWrite h with hcw | ⟨id', r, rfl, htarget⟩
  · contradiction
  · obtain ⟨_, _, _, hr, heq⟩ := mem_targetEvent htarget
    obtain ⟨rfl, rfl, rfl, rfl⟩ := MotorEvent.target.inj heq
    exact ⟨m', r, hw, hr⟩

/-- A cycle of writing does nothing but write. -/
theorem writes_of_mem {e : MotorEvent} (h : e ∈ (m.handleWrite env).2.2) : e.writes = true := by
  obtain ⟨m', w, -, heq⟩ := exists_wrote m env
  rw [heq] at h
  rcases mem_finishWrite h with rfl | ⟨id, r, -, htarget⟩
  · rfl
  · obtain ⟨_, _, _, _, rfl⟩ := mem_targetEvent htarget
    rfl

/-- Streaming withholds the fault reset bit at most. -/
theorem getLsbD_streamed (m : Motor) (i : ℕ) : m.streamed.getLsbD i =
    (m.controlWord.getLsbD i && !(m.startFaultReset && decide (i = ControlWord.faultReset))) := by
  rw [Motor.streamed]
  split
  · next hreset =>
      by_cases hi : i = ControlWord.faultReset
      · simp [hreset, hi, ControlWord.faultReset]
      · simp [hreset, hi, Ne.symm hi]
  · next hreset => simp [hreset]

theorem getLsbD_streamed_of_ne (m : Motor) {i : ℕ} (hi : i ≠ ControlWord.faultReset) :
    m.streamed.getLsbD i = m.controlWord.getLsbD i := by
  rw [getLsbD_streamed, decide_eq_false hi, Bool.and_false, Bool.not_false, Bool.and_true]

end Write

/-! ## The events of a step -/

/-- The event of a thread that enters or leaves a call. -/
def MotorEvent.reports : MotorEvent → Bool
  | .called _ => true
  | .returned _ _ => true
  | .threw _ => true
  | _ => false

section Events
variable {m m' : Motor} {env : Env} {code : Code} {next : Next} {es : List MotorEvent}
  {e : MotorEvent}

theorem writes_of_isOpMode (h : e.isOpMode = true) : e.reports = false ∧ e.writes = false := by
  cases e <;> first | contradiction | exact ⟨rfl, rfl⟩

theorem eq_started_of_mem {id : ModeId} (h : e ∈ (m.startMode id).2) : e = .started id := by
  rcases startMode_cases m id with ⟨mode, -, heq⟩ | ⟨-, heq⟩ <;> rw [heq] at h
  · exact List.mem_singleton.mp h
  · contradiction

theorem eq_accepted_of_mem {val : Double} (h : e ∈ (m.setSelectedTarget val).2.2) :
    ∃ id, e = .accepted id val := by
  rcases setSelectedTarget_cases m val with ⟨id, mode, -, -, heq⟩ | heq <;> rw [heq] at h
  · simp only at h
    split at h
    · exact ⟨id, List.mem_singleton.mp h⟩
    · contradiction
  · contradiction

/-- No program point reports on its call, and only `handleWrite` writes. -/
theorem reports_of_effect (heffect : Effect m env code m' next es) (he : e ∈ es) :
    e.reports = false ∧ (e.writes = true → code = .write ∧ e ∈ (m.handleWrite env).2.2) := by
  have hother : e.reports = false ∧ e.writes = false → e.reports = false ∧
      (e.writes = true → code = .write ∧ e ∈ (m.handleWrite env).2.2) := fun h =>
    ⟨h.1, fun hwrites => absurd (h.2.symm.trans hwrites) (by simp)⟩
  cases heffect with
  | silent _ hes => exact hother (writes_of_isOpMode (hes e he))
  | deselected _ hes => exact hother (writes_of_isOpMode (hes e he))
  | wrote =>
      refine ⟨?_, fun _ => ⟨rfl, he⟩⟩
      have hwrites := writes_of_mem he
      cases e <;> first | contradiction | rfl
  | targeted val =>
      obtain ⟨id, rfl⟩ := eq_accepted_of_mem he
      exact hother ⟨rfl, rfl⟩
  | started mode =>
      obtain rfl := eq_started_of_mem he
      exact hother ⟨rfl, rfl⟩
  | decoded sw => exact hother (by rw [List.mem_singleton.mp he]; exact ⟨rfl, rfl⟩)
  | displayed sw mode => exact hother (by rw [List.mem_singleton.mp he]; exact ⟨rfl, rfl⟩)
  | executed => exact hother (by rw [List.mem_singleton.mp he]; exact ⟨rfl, rfl⟩)
  | withdrawn => exact hother (by rw [List.mem_singleton.mp he]; exact ⟨rfl, rfl⟩)
  | _ => simp at he

/-- On leaving its call a thread reports, and does nothing else. -/
theorem reports_of_after {t : Thread} (he : e ∈ (t.after next).2) :
    (∃ ok, e = .returned t.call ok) ∨ e = .threw t.call := by
  cases next with
  | goto code => simp [Thread.after] at he
  | call frame code => simp [Thread.after] at he
  | ret ok =>
      simp only [Thread.after] at he
      split at he
      · simp at he
      · exact .inl ⟨_, List.mem_singleton.mp he⟩
  | throw => exact .inr (List.mem_singleton.mp he)

/-- A thread stays in its call. -/
theorem call_of_after {t t' : Thread} (h : (t.after next).1 = some t') : t'.call = t.call := by
  cases next with
  | goto code => cases h; rfl
  | call frame code => cases h; rfl
  | ret ok =>
      simp only [Thread.after] at h
      split at h
      · cases h; rfl
      · contradiction
  | throw => contradiction

/-- What a thread writes it writes in `handleWrite`. -/
theorem mem_handleWrite_of_writes {t : Thread} (hexec : m.exec env t.code = some (m', next, es))
    (he : e ∈ (t.after next).2 ++ es) (hwrites : e.writes = true) :
    t.code = .write ∧ e ∈ es ∧ e ∈ (m.handleWrite env).2.2 := by
  rcases List.mem_append.mp he with he | he
  · rcases reports_of_after he with ⟨ok, rfl⟩ | rfl <;> contradiction
  · obtain ⟨hcode, hmem⟩ := (reports_of_effect (effect_of_exec hexec) he).2 hwrites
    exact ⟨hcode, he, hmem⟩

end Events

/-! ## Steps of the whole -/

/-- The two kinds of steps: a thread enters a call, or goes on with it. -/
inductive Stepped (s : MotorSystem) : MotorStep → MotorSystem → List MotorEvent → Prop
  | enters {i : ℕ} (call : Call) (hidle : s.threads i = none) :
      Stepped s (.enter i call)
        ⟨s.motor, Function.update s.threads i
          (some ⟨call, (call.entry s.motor).1, (call.entry s.motor).2⟩)⟩
        [.called call]
  | goes {i : ℕ} {env : Env} {t : Thread} {m : Motor} {next : Next} {es : List MotorEvent}
      (ht : s.threads i = some t) (hexec : s.motor.exec env t.code = some (m, next, es)) :
      Stepped s (.go i env) ⟨m, Function.update s.threads i (t.after next).1⟩
        ((t.after next).2 ++ es)

theorem stepped_of_step {s s' : MotorSystem} {i : MotorStep} {es : List MotorEvent}
    (h : MotorSystem.system.step s i = some (s', es)) : Stepped s i s' es := by
  cases i with
  | enter i call =>
      simp only [MotorSystem.system, MotorSystem.step] at h
      split at h
      · contradiction
      · next hidle =>
          obtain ⟨rfl, rfl⟩ := Prod.mk.inj (Option.some.inj h)
          exact .enters call hidle
  | go i env =>
      simp only [MotorSystem.system, MotorSystem.step] at h
      split at h
      · contradiction
      · next t ht =>
          obtain ⟨⟨m, next, es'⟩, hexec, heq⟩ := Option.map_eq_some_iff.mp h
          obtain ⟨rfl, rfl⟩ := Prod.mk.inj heq
          exact .goes ht hexec

/-- A recorded step of the motor. -/
abbrev MotorRecord := Record MotorSystem MotorStep MotorEvent

/-- What holds of all threads holds after one of them has been replaced. -/
theorem forall_threads_update {P : Thread → Prop} {threads : ℕ → Option Thread} {i : ℕ}
    {o : Option Thread} (hall : ∀ j t, threads j = some t → P t) (hnew : ∀ t, o = some t → P t) :
    ∀ j t, Function.update threads i o j = some t → P t := by
  intro j t ht
  by_cases hj : j = i
  · subst hj
    exact hnew t (by simpa using ht)
  · exact hall j t (by simpa [hj] using ht)

end RosCanopen.Cia402
