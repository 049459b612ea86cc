import RosCanopen.Cia402.Flow

/-!
# What `set_operation_mode` reports

The driver compares the requested mode with the selected one and, unless they agree, has
the motor enter it.  The answer is right but for two exits: a mode that is selected
already is reported as a failure, and so is one that has been selected when the drive
then fails to be enabled again.

## Main definitions

* `setOperationMode` — `NodeCanopen402Driver::set_operation_mode` up to the motor's call.
* `Driver402` — the motor with a caller of `set_operation_mode`.
* `Truthful` — the answer tells whether the mode is selected.
* `Driver402.misreports` — the two exits with the wrong answer.
-/

namespace RosCanopen.Cia402

open Lib

/-- `Motor402::getMode`. -/
def Motor.getMode (m : Motor) : ModeId := m.selectedMode.getD ModeId.noMode

/-- `NodeCanopen402Driver::set_operation_mode`: its answer, or the call of the motor that
answers.  `motor` is that of the channel, if the channel has one. -/
def setOperationMode (activated : Bool) (motor : Option Motor) (mode : ModeId) : Bool ⊕ Call :=
  if activated then
    match motor with
    | none => .inl false
    | some m => if m.getMode ≠ mode then .inr (.enterModeAndWait mode) else .inl false
  else .inl false

/-! ## The driver and its caller -/

/-- Where the caller of `set_operation_mode` is. -/
inductive Caller
  | idle
  | comparing (mode : ModeId)
  | entering (mode : ModeId)
  deriving DecidableEq

/-- An activated node: the motor of the channel, where thread 0 is the caller's. -/
structure Driver402 where
  motors : MotorSystem
  caller : Caller

inductive DriverStep
  /-- `set_operation_mode` is called. -/
  | request (mode : ModeId)
  /-- It compares the mode with `getMode`. -/
  | compare
  /-- Its thread goes on in the motor. -/
  | go (env : Env)
  /-- Another thread takes a step in the motor. -/
  | other (step : MotorStep)

inductive DriverEvent
  /-- A mode is requested while `before` is selected. -/
  | requested (mode : ModeId) (before : Option ModeId)
  /-- The request is answered, and `after` is selected. -/
  | answered (mode : ModeId) (ok : Bool) (after : Option ModeId)
  deriving DecidableEq

/-- The thread of a step. -/
def MotorStep.thread : MotorStep → ℕ
  | .enter i _ => i
  | .go i _ => i

/-- How a call is left. -/
def MotorEvent.left : MotorEvent → Option (Option Bool)
  | .returned _ ok => some (some ok)
  | .threw _ => some none
  | _ => none

namespace Driver402

/-- The caller's thread after a step in the motor. -/
def after (mode : ModeId) (motors : MotorSystem) (es : List MotorEvent) :
    Driver402 × List DriverEvent :=
  match es.findSome? MotorEvent.left with
  | none => (⟨motors, .entering mode⟩, [])
  | some none => (⟨motors, .idle⟩, [])
  | some (some ok) => (⟨motors, .idle⟩, [.answered mode ok motors.motor.selectedMode])

def step (s : Driver402) : DriverStep → Option (Driver402 × List DriverEvent)
  | .request mode =>
      match s.caller with
      | .idle =>
          some ({ s with caller := .comparing mode },
            [.requested mode s.motors.motor.selectedMode])
      | _ => none
  | .compare =>
      match s.caller with
      | .comparing mode =>
          match setOperationMode true (some s.motors.motor) mode with
          | .inl ok =>
              some ({ s with caller := .idle },
                [.answered mode ok s.motors.motor.selectedMode])
          | .inr call =>
              (s.motors.step (.enter 0 call)).map fun (motors, _) => (⟨motors, .entering mode⟩, [])
      | _ => none
  | .go env =>
      match s.caller with
      | .entering mode => (s.motors.step (.go 0 env)).map fun (motors, es) => after mode motors es
      | _ => none
  | .other step =>
      if step.thread = 0 then none
      else (s.motors.step step).map fun (motors, _) => ({ s with motors := motors }, [])

end Driver402

/-! ## Threads that leave the mode alone -/

/-- The program points outside of `switchMode` and `handleInit`. -/
def Code.keepsMode : Code → Bool
  | .readStatus | .readDecode _ | .readMode _ | .write => true
  | .targetCheck _ | .targetSet _ => true
  | .stateEnter _ | .stateSet _ _ | .stateCheck _ _ | .stateTransit _ _ | .stateWait _ _ => true
  | .haltCheck | .haltLocked _ | .recoverArm | .recoverRestart => true
  | _ => false

/-- The frames that lead to such program points only. -/
def Frame.keepsMode : Frame → Bool
  | .thenWrite => true
  | .thenState _ => true
  | _ => false

/-- The calls that neither select nor deselect a mode. -/
def Call.keepsMode : Call → Bool
  | .enterModeAndWait _ => false
  | .handleInit => false
  | .handleShutdown => false
  | _ => true

/-- A thread that neither selects nor deselects a mode. -/
structure Thread.KeepsMode (t : Thread) : Prop where
  code : t.code.keepsMode = true
  frames : ∀ frame ∈ t.frames, frame.keepsMode = true

/-- Stay among such program points, or leave. -/
def Next.keepsMode : Next → Bool
  | .goto code => code.keepsMode
  | .call _ _ => false
  | .ret _ => true
  | .throw => true

/-- No other thread switches the mode while a request is under way. -/
def alone : Guard Driver402 DriverStep DriverEvent
  | _, _, .other (.enter _ call) => call.keepsMode = true
  | _, _, _ => True

/-- The driver in any state of the motor, before the caller's first request. -/
def Driver402.system : System Driver402 DriverStep DriverEvent where
  init s := s.caller = .idle ∧ s.motors.threads 0 = none ∧
    ∀ i t, s.motors.threads i = some t → t.KeepsMode
  step := Driver402.step

/-! ## The answers -/

/-- The latest request: its mode, and the mode that was selected. -/
def lastRequest (h : List DriverEvent) : Option (ModeId × Option ModeId) :=
  h.findSome? fun
    | .requested mode before => some (mode, before)
    | .answered _ _ _ => none

/-- The answer is true iff the mode is selected afterwards, and after a false answer the
mode selected before is still selected, or none. -/
def Truthful (mode : ModeId) (before : Option ModeId) (ok : Bool) (after : Option ModeId) : Prop :=
  (ok = true ↔ after.getD ModeId.noMode = mode) ∧ (ok = false → after = before ∨ after = none)

/-- `switchState` gives up at this program point. -/
def Code.givesUp (m : Motor) (env : Env) : Code → Bool
  | .stateCheck target state => decide (state = m.targetState) && decide (state ≠ target)
  | .stateTransit _ state =>
      !(setTransition m.controlWord state m.targetState (some .unknown)).1
  | .stateWait _ state => decide (m.state = state) && env.timedOut
  | _ => false

/-- The exit of the motor with a wrong answer: `switchMode` has selected the mode, and the
`switchState` after that gives up. -/
def Thread.misreports (t : Thread) (m : Motor) (env : Env) : Bool :=
  decide (t.frames = [.thenOkay true]) && t.code.givesUp m env

/-- The two exits with a wrong answer: the mode is selected already when it is compared, or
the motor leaves by the wrong exit. -/
def Driver402.misreports (s : Driver402) : DriverStep → Bool
  | .compare =>
      match s.caller with
      | .comparing mode => s.motors.motor.getMode = mode
      | _ => false
  | .go env => (s.motors.threads 0).any fun t => t.misreports s.motors.motor env
  | _ => false

section Keeps
variable {m m' : Motor} {env : Env} {code : Code} {next : Next} {es : List MotorEvent}

/-- The program points of `switchState`. -/
def Code.switches : Code → Bool
  | .stateEnter _ | .stateSet _ _ | .stateCheck _ _ | .stateTransit _ _ | .stateWait _ _ => true
  | _ => false

/-- `switchState` goes on, or returns whether it has not given up. -/
theorem exec_switches (hcode : code.switches = true)
    (h : m.exec env code = some (m', next, es)) :
    m'.selectedMode = m.selectedMode ∧ ((∃ code', next = .goto code' ∧ code'.switches = true) ∨
      next = .ret (!code.givesUp m env)) := by
  cases code with
  | stateEnter target =>
      obtain ⟨rfl, rfl, -⟩ := step_inj h
      exact ⟨rfl, .inl ⟨_, rfl, rfl⟩⟩
  | stateSet target state =>
      obtain ⟨rfl, rfl, -⟩ := step_inj h
      exact ⟨rfl, .inl ⟨_, rfl, rfl⟩⟩
  | stateCheck target state =>
      simp only [Motor.exec] at h
      split at h
      · next hstate =>
          obtain ⟨rfl, rfl, -⟩ := step_inj h
          exact ⟨rfl, .inr (by simp [Code.givesUp, hstate])⟩
      · obtain ⟨rfl, rfl, -⟩ := step_inj h
        exact ⟨rfl, .inl ⟨_, rfl, rfl⟩⟩
  | stateTransit target state =>
      simp only [Motor.exec] at h
      split at h
      · obtain ⟨rfl, rfl, -⟩ := step_inj h
        refine ⟨rfl, .inl ⟨_, rfl, ?_⟩⟩
        split <;> rfl
      · next hset =>
          obtain ⟨rfl, rfl, -⟩ := step_inj h
          exact ⟨rfl, .inr (by simp [Code.givesUp, hset])⟩
  | stateWait target state =>
      simp only [Motor.exec] at h
      split at h
      · obtain ⟨rfl, rfl, -⟩ := step_inj h
        exact ⟨rfl, .inl ⟨_, rfl, rfl⟩⟩
      · next hstate =>
          split at h
          · next htimeout =>
              obtain ⟨rfl, rfl, -⟩ := step_inj h
              exact ⟨rfl, .inr (by simp [Code.givesUp, not_not.mp hstate, htimeout])⟩
          · contradiction
  | _ => contradiction

/-- A program point outside of `switchMode` and `handleInit` leaves the mode alone. -/
theorem exec_keepsMode (hcode : code.keepsMode = true)
    (h : m.exec env code = some (m', next, es)) :
    m'.selectedMode = m.selectedMode ∧ next.keepsMode = true := by
  by_cases hswitches : code.switches = true
  · obtain ⟨hselected, ⟨code', rfl, hcode'⟩ | rfl⟩ := exec_switches hswitches h
    · refine ⟨hselected, ?_⟩
      cases code' <;> first | contradiction | rfl
    · exact ⟨hselected, rfl⟩
  cases code with
  | readStatus =>
      simp only [Motor.exec] at h
      split at h <;> obtain ⟨rfl, rfl, -⟩ := step_inj h <;> exact ⟨rfl, rfl⟩
  | readDecode sw =>
      obtain ⟨rfl, rfl, -⟩ := step_inj h
      exact ⟨rfl, rfl⟩
  | readMode sw =>
      simp only [Motor.exec] at h
      split at h <;> obtain ⟨rfl, rfl, -⟩ := step_inj h
      · obtain ⟨modes, heq⟩ := readSelected_motor m (env.modeDisplay.signExtend 16) sw
        rw [heq]
        exact ⟨rfl, rfl⟩
      · exact ⟨rfl, rfl⟩
  | write =>
      obtain ⟨rfl, rfl, -⟩ := step_inj h
      obtain ⟨modes, cw, reset, heq⟩ := handleWrite_motor m env
      refine ⟨by rw [heq], ?_⟩
      rcases handleWrite_next m env with hnext | hnext <;> rw [hnext] <;> rfl
  | targetCheck val =>
      simp only [Motor.exec] at h
      split at h <;> obtain ⟨rfl, rfl, -⟩ := step_inj h <;> exact ⟨rfl, rfl⟩
  | targetSet val =>
      obtain ⟨rfl, rfl, -⟩ := step_inj h
      obtain ⟨modes, heq⟩ := setSelectedTarget_motor m val
      obtain ⟨ok, hnext⟩ := setSelectedTarget_next m val
      exact ⟨by rw [heq], by rw [hnext]; rfl⟩
  | haltCheck =>
      obtain ⟨rfl, rfl, -⟩ := step_inj h
      exact ⟨rfl, rfl⟩
  | haltLocked state =>
      have heffect := effect_of_exec h
      obtain ⟨ok, rfl⟩ := haltLocked_next heffect
      refine ⟨?_, rfl⟩
      cases heffect with
      | deselected hcode => exact absurd rfl (hcode state)
      | started mode hcode => simp at hcode
      | _ => rfl
  | recoverArm =>
      obtain ⟨rfl, rfl, -⟩ := step_inj h
      exact ⟨rfl, rfl⟩
  | recoverRestart =>
      simp only [Motor.exec] at h
      split at h <;> obtain ⟨rfl, rfl, -⟩ := step_inj h
      · next id hid =>
          obtain ⟨modes, heq⟩ := startMode_motor m id
          exact ⟨by rw [heq], rfl⟩
      · exact ⟨rfl, rfl⟩
  | _ => contradiction

/-- A thread that leaves the mode alone goes on doing so. -/
theorem Thread.KeepsMode.after {t : Thread} (ht : t.KeepsMode) (hnext : next.keepsMode = true) :
    ∀ t', (t.after next).1 = some t' → t'.KeepsMode := by
  intro t' ht'
  obtain ⟨call, code, frames⟩ := t
  cases next with
  | goto code =>
      cases ht'
      exact ⟨hnext, ht.frames⟩
  | call frame code => contradiction
  | throw => contradiction
  | ret ok =>
      simp only [Thread.after] at ht'
      split at ht'
      · next code' rest hunwind =>
          cases ht'
          obtain ⟨dropped, frame, rfl, hresume⟩ := unwind_eq_inl hunwind
          refine ⟨?_, fun f hf => ht.frames f (by simp [hf])⟩
          have hframe := ht.frames frame (by simp)
          cases frame <;> first | contradiction | (cases hresume; rfl)
      · contradiction

theorem keepsMode_entry {call : Call} (hcall : call.keepsMode = true) :
    Thread.KeepsMode ⟨call, (call.entry m).1, (call.entry m).2⟩ := by
  cases call <;>
    first | contradiction | exact ⟨rfl, by simp [Call.entry, Frame.keepsMode]⟩

end Keeps

/-! ## Inside the request -/

/-- Where the caller's thread is in `enterModeAndWait`, by the mode selected when it was
called and the mode selected now. -/
inductive Entering (mode : ModeId) (before : Option ModeId) : Option ModeId → Thread → Prop
  | refuse : Entering mode before before ⟨.enterModeAndWait mode, .refuse, []⟩
  | enter : Entering mode before before ⟨.enterModeAndWait mode, .modeEnter mode, []⟩
  | start (hmode : mode ≠ ModeId.noMode) :
      Entering mode before before ⟨.enterModeAndWait mode, .modeStart mode, []⟩
  | disable (hmode : mode ≠ ModeId.noMode) :
      Entering mode before before ⟨.enterModeAndWait mode, .modeDisable mode, []⟩
  | switch {code : Code} (hmode : mode ≠ ModeId.noMode) (hcode : code.switches = true) :
      Entering mode before none ⟨.enterModeAndWait mode, code, [.thenOpMode mode]⟩
  | write (hmode : mode ≠ ModeId.noMode) :
      Entering mode before none ⟨.enterModeAndWait mode, .opModeWrite mode, []⟩
  | wait (hmode : mode ≠ ModeId.noMode) :
      Entering mode before none ⟨.enterModeAndWait mode, .modeWait mode, []⟩
  | enable {code : Code} (hcode : code.switches = true) :
      Entering mode before (some mode) ⟨.enterModeAndWait mode, code, [.thenOkay true]⟩
  | recover {code : Code} (hmode : mode ≠ ModeId.noMode) (hcode : code.switches = true) :
      Entering mode before none ⟨.enterModeAndWait mode, code, [.thenOkay false]⟩

/-- How a step of the caller's thread ends: it goes on, answers or throws. -/
inductive Entered (mode : ModeId) (before after : Option ModeId) (wrong : Bool) :
    Option Thread × List MotorEvent → Prop
  | goesOn {t : Thread} (ht : Entering mode before after t) :
      Entered mode before after wrong (some t, [])
  | answers (ok : Bool) (hiff : Truthful mode before ok after ↔ wrong = false) :
      Entered mode before after wrong (none, [.returned (.enterModeAndWait mode) ok])
  | throws : Entered mode before after wrong (none, [.threw (.enterModeAndWait mode)])

section Entering
variable {m m' : Motor} {env : Env} {t : Thread} {next : Next} {es : List MotorEvent}
  {mode : ModeId} {before : Option ModeId}

theorem truthful_kept (hbefore : before.getD ModeId.noMode ≠ mode) :
    Truthful mode before false before :=
  ⟨⟨fun htrue => absurd htrue (by simp), fun heq => absurd heq hbefore⟩, fun _ => .inl rfl⟩

theorem truthful_none (hmode : mode ≠ ModeId.noMode) : Truthful mode before false none :=
  ⟨⟨fun htrue => absurd htrue (by simp), fun heq => absurd heq.symm hmode⟩, fun _ => .inr rfl⟩

/-- **Every exit of `enterModeAndWait`** agrees with its answer, or is the wrong one. -/
theorem Entering.exec (ht : Entering mode before m.selectedMode t)
    (hbefore : before.getD ModeId.noMode ≠ mode)
    (hexec : m.exec env t.code = some (m', next, es)) :
    Entered mode before m'.selectedMode (t.misreports m env) (t.after next) := by
  generalize hselected : m.selectedMode = selected at ht
  cases ht with
  | refuse =>
      obtain ⟨rfl, rfl, -⟩ := step_inj hexec
      rw [hselected]
      exact .answers false (by simpa [Thread.misreports] using truthful_kept hbefore)
  | enter =>
      simp only [Motor.exec] at hexec
      split at hexec
      · next hmode =>
          obtain ⟨rfl, rfl, -⟩ := step_inj hexec
          exact .answers true (by simp [Thread.misreports, Truthful, hmode])
      · next hmode =>
          split at hexec
          · split at hexec <;> obtain ⟨rfl, rfl, -⟩ := step_inj hexec <;> rw [hselected]
            · exact .goesOn (.start hmode)
            · exact .answers false (by simpa [Thread.misreports] using truthful_kept hbefore)
          · obtain ⟨rfl, rfl, -⟩ := step_inj hexec
            exact .throws
  | start hmode =>
      obtain ⟨hm, rfl, -⟩ := step_inj hexec
      obtain ⟨modes, heq⟩ := startMode_motor m mode
      have hkept : m'.selectedMode = before := by
        have hstart : (m.startMode mode).1 = m' := hm
        rw [← hstart, heq]
        exact hselected
      rw [hkept]
      exact .goesOn (.disable hmode)
  | disable hmode =>
      simp only [Motor.exec] at hexec
      split at hexec
      · next hactive =>
          rw [hactive.2] at hselected
          subst hselected
          exact absurd rfl hbefore
      · obtain ⟨rfl, rfl, -⟩ := step_inj hexec
        exact .goesOn (.switch hmode rfl)
  | @switch code hmode hcode =>
      obtain ⟨hkept, ⟨code', rfl, hcode'⟩ | rfl⟩ := exec_switches hcode hexec <;>
        rw [hkept, hselected]
      · exact .goesOn (.switch hmode hcode')
      · cases hgives : code.givesUp m env with
        | true => exact .answers false (by simpa [Thread.misreports] using truthful_none hmode)
        | false => exact .goesOn (.write hmode)
  | write hmode =>
      simp only [Motor.exec] at hexec
      split at hexec <;> obtain ⟨rfl, rfl, -⟩ := step_inj hexec <;> rw [hselected]
      · exact .goesOn (.wait hmode)
      · exact .throws
  | wait hmode =>
      simp only [Motor.exec] at hexec
      split at hexec
      · obtain ⟨rfl, rfl, -⟩ := step_inj hexec
        exact .goesOn (.enable rfl)
      · split at hexec
        · split at hexec <;> obtain ⟨rfl, rfl, -⟩ := step_inj hexec <;> rw [hselected]
          · exact .goesOn (.recover hmode rfl)
          · exact .throws
        · contradiction
  | @enable code hcode =>
      obtain ⟨hkept, ⟨code', rfl, hcode'⟩ | rfl⟩ := exec_switches hcode hexec <;>
        rw [hkept, hselected]
      · exact .goesOn (.enable hcode')
      · cases hgives : code.givesUp m env with
        | true => exact .answers false (by simp [Thread.misreports, Truthful, hgives])
        | false => exact .answers true (by simp [Thread.misreports, Truthful, hgives])
  | @recover code hmode hcode =>
      obtain ⟨hkept, ⟨code', rfl, hcode'⟩ | rfl⟩ := exec_switches hcode hexec <;>
        rw [hkept, hselected]
      · exact .goesOn (.recover hmode hcode')
      · have htruthful : Truthful mode before false none ↔ (Thread.misreports
            ⟨.enterModeAndWait mode, code, [.thenOkay false]⟩ m env) = false := by
          simpa [Thread.misreports] using truthful_none hmode
        cases code.givesUp m env <;> exact .answers false htruthful

end Entering

/-! ## Runs of requests -/

theorem update_caller (threads : ℕ → Option Thread) (o : Option Thread) :
    Function.update threads 0 o 0 = o :=
  Function.update_self ..

theorem MotorSystem.stepped {s s' : MotorSystem} {i : MotorStep} {es : List MotorEvent}
    (h : s.step i = some (s', es)) : Stepped s i s' es :=
  stepped_of_step h

/-- The invariant of the runs of requests. -/
structure Asked (h : List DriverEvent) (s : Driver402) : Prop where
  others : ∀ i t, i ≠ 0 → s.motors.threads i = some t → t.KeepsMode
  caller : match s.caller with
    | .idle => s.motors.threads 0 = none
    | .comparing mode => s.motors.threads 0 = none ∧
        lastRequest h = some (mode, s.motors.motor.selectedMode)
    | .entering mode => ∃ before t, lastRequest h = some (mode, before) ∧
        before.getD ModeId.noMode ≠ mode ∧ s.motors.threads 0 = some t ∧
        Entering mode before s.motors.motor.selectedMode t

/-- What a step of a run does: it keeps the invariant, and an answer is right unless the
step is one of the two wrong exits. -/
structure Answers (h : List DriverEvent) (s : Driver402) (i : DriverStep) (s' : Driver402)
    (es : List DriverEvent) : Prop where
  asked : Asked (es ++ h) s'
  truthful : ∀ mode ok after, .answered mode ok after ∈ es →
    after = s'.motors.motor.selectedMode ∧ ∃ before, lastRequest h = some (mode, before) ∧
      (Truthful mode before ok after ↔ s.misreports i = false)

namespace Asked
variable {h : List DriverEvent} {s s' : Driver402} {i : DriverStep} {es : List DriverEvent}

/-- A mode that is selected already is refused; otherwise the motor is to enter it. -/
theorem compare (hs : Asked h s) (hstep : s.step .compare = some (s', es)) :
    Answers h s .compare s' es := by
  have hinv := hs.caller
  rw [Driver402.step] at hstep
  split at hstep
  · next mode hcaller =>
      rw [hcaller] at hinv
      obtain ⟨hidle, hlast⟩ := hinv
      have hmisreports : s.misreports .compare = decide (s.motors.motor.getMode = mode) := by
        simp only [Driver402.misreports, hcaller]
      by_cases hmode : s.motors.motor.getMode = mode
      · simp only [setOperationMode, if_true, hmode, ne_eq, not_true_eq_false, if_false,
          Option.some.injEq, Prod.mk.injEq] at hstep
        obtain ⟨rfl, rfl⟩ := hstep
        refine ⟨⟨hs.others, hidle⟩, fun mode' ok after hmem => ?_⟩
        obtain ⟨rfl, rfl, rfl⟩ := DriverEvent.answered.inj (List.mem_singleton.mp hmem)
        refine ⟨rfl, _, hlast, ⟨fun htruthful => ?_, fun hright => ?_⟩⟩
        · exact absurd (htruthful.1.mpr hmode) (by simp)
        · simp [hmisreports, hmode] at hright
      · simp only [setOperationMode, if_true, ne_eq, hmode, not_false_eq_true] at hstep
        obtain ⟨⟨motors, es'⟩, hmotors, heq⟩ := Option.map_eq_some_iff.mp hstep
        obtain ⟨rfl, rfl⟩ := Prod.mk.inj heq
        cases MotorSystem.stepped hmotors with
        | enters call hidle =>
            refine ⟨⟨fun j t hj ht => ?_, ?_⟩, by simp⟩
            · exact hs.others j t hj (by simpa [hj] using ht)
            · refine ⟨_, _, hlast, hmode, update_caller s.motors.threads _, ?_⟩
              rw [Call.entry]
              split
              · exact .refuse
              · exact .enter
  · contradiction

/-- The caller's own step goes on, or answers. -/
theorem go (hs : Asked h s) {env : Env} (hstep : s.step (.go env) = some (s', es)) :
    Answers h s (.go env) s' es := by
  have hinv := hs.caller
  rw [Driver402.step] at hstep
  split at hstep
  · next mode hcaller =>
      rw [hcaller] at hinv
      obtain ⟨before, t, hlast, hbefore, ht, hentering⟩ := hinv
      obtain ⟨⟨motors, es'⟩, hmotors, heq⟩ := Option.map_eq_some_iff.mp hstep
      cases MotorSystem.stepped hmotors with
      | @goes _ _ t' m next es' ht' hexec =>
          obtain rfl := Option.some.inj (ht.symm.trans ht')
          have hentered := hentering.exec hbefore hexec
          have hquiet : es'.findSome? MotorEvent.left = none := by
            rw [List.findSome?_eq_none_iff]
            intro e he
            have hreports := (reports_of_effect (effect_of_exec hexec) he).1
            cases e <;> first | contradiction | rfl
          have hmisreports : s.misreports (.go env) = t.misreports s.motors.motor env := by
            simp [Driver402.misreports, ht]
          have hothers : ∀ j t₁, j ≠ 0 →
              Function.update s.motors.threads 0 (t.after next).1 j = some t₁ → t₁.KeepsMode := by
            intro j t₁ hj ht₁
            exact hs.others j t₁ hj (by simpa [hj] using ht₁)
          generalize hafter : t.after next = left at hentered hothers heq
          cases hentered with
          | goesOn hnext =>
              simp only [Driver402.after, List.nil_append, hquiet] at heq
              obtain ⟨rfl, rfl⟩ := Prod.mk.inj heq
              refine ⟨⟨hothers, before, _, hlast, hbefore, ?_, hnext⟩, by simp⟩
              exact update_caller s.motors.threads _
          | answers ok hiff =>
              simp only [Driver402.after, List.singleton_append, List.findSome?_cons,
                MotorEvent.left] at heq
              obtain ⟨rfl, rfl⟩ := Prod.mk.inj heq
              refine ⟨⟨hothers, update_caller s.motors.threads _⟩, fun mode' ok' after hmem => ?_⟩
              obtain ⟨rfl, rfl, rfl⟩ := DriverEvent.answered.inj (List.mem_singleton.mp hmem)
              exact ⟨rfl, before, hlast, by rw [hmisreports]; exact hiff⟩
          | throws =>
              simp only [Driver402.after, List.singleton_append, List.findSome?_cons,
                MotorEvent.left] at heq
              obtain ⟨rfl, rfl⟩ := Prod.mk.inj heq
              exact ⟨⟨hothers, update_caller s.motors.threads _⟩, by simp⟩
  · contradiction

/-- A step of another thread leaves the request alone. -/
theorem other (hs : Asked h s) {step : MotorStep} (hok : alone h s (.other step))
    (hstep : s.step (.other step) = some (s', es)) : Answers h s (.other step) s' es := by
  have hinv := hs.caller
  rw [Driver402.step] at hstep
  split at hstep
  · contradiction
  · next hthread =>
      obtain ⟨⟨motors, es'⟩, hmotors, heq⟩ := Option.map_eq_some_iff.mp hstep
      obtain ⟨rfl, rfl⟩ := Prod.mk.inj heq
      have hkept : motors.motor.selectedMode = s.motors.motor.selectedMode ∧
          motors.threads 0 = s.motors.threads 0 ∧
          ∀ j t, j ≠ 0 → motors.threads j = some t → t.KeepsMode := by
        cases MotorSystem.stepped hmotors with
        | @enters i call hidle =>
            have hi : (0 : ℕ) ≠ i := fun h0 => hthread h0.symm
            refine ⟨rfl, by simp [hi], fun j t hj ht => ?_⟩
            by_cases hji : j = i
            · subst hji
              obtain rfl : _ = t := by simpa using ht
              exact keepsMode_entry hok
            · exact hs.others j t hj (by simpa [hji] using ht)
        | @goes i env t m next es' ht hexec =>
            have hi : (0 : ℕ) ≠ i := fun h0 => hthread h0.symm
            have hkeeps := hs.others i t (Ne.symm hi) ht
            obtain ⟨hselected, hnext⟩ := exec_keepsMode hkeeps.code hexec
            refine ⟨hselected, by simp [hi], fun j t₁ hj ht₁ => ?_⟩
            by_cases hji : j = i
            · subst hji
              exact hkeeps.after hnext t₁ (by simpa using ht₁)
            · exact hs.others j t₁ hj (by simpa [hji] using ht₁)
      obtain ⟨hselected, hcaller, hothers⟩ := hkept
      refine ⟨⟨hothers, ?_⟩, by simp⟩
      simpa only [hselected, hcaller, List.nil_append] using hinv

theorem request (hs : Asked h s) {mode : ModeId} (hstep : s.step (.request mode) = some (s', es)) :
    Answers h s (.request mode) s' es := by
  have hinv := hs.caller
  rw [Driver402.step] at hstep
  split at hstep
  · next hcaller =>
      rw [hcaller] at hinv
      obtain ⟨rfl, rfl⟩ := Prod.mk.inj (Option.some.inj hstep)
      exact ⟨⟨hs.others, hinv, rfl⟩, by simp⟩
  · contradiction

theorem answers (hs : Asked h s) (hok : alone h s i) (hstep : s.step i = some (s', es)) :
    Answers h s i s' es := by
  cases i with
  | request mode => exact hs.request hstep
  | compare => exact hs.compare hstep
  | go env => exact hs.go hstep
  | other step => exact hs.other hok hstep

/-- The invariant along every run of requests. -/
theorem of_reach (hr : Reach Driver402.system alone h s) : Asked h s := by
  refine hr.invariant ?_ ?_
  · rintro s ⟨hidle, hthread, hothers⟩
    refine ⟨fun i t _ => hothers i t, ?_⟩
    rw [hidle]
    exact hthread
  · intro h s i s' es hs hok hstep
    exact (hs.answers hok hstep).asked

end Asked

/-- **The answer of `set_operation_mode` is right except at the two exits.**  In every run,
an answer tells whether the mode is selected, and leaves no other mode selected than the
one before or none, iff the answering step is not one of the wrong exits. -/
theorem truthful_iff {h : List DriverEvent} {s s' : Driver402} {i : DriverStep}
    {es : List DriverEvent} (hr : Reach Driver402.system alone h s) (hok : alone h s i)
    (hstep : Driver402.system.step s i = some (s', es)) {mode : ModeId} {ok : Bool}
    {after : Option ModeId} (hanswer : .answered mode ok after ∈ es) :
    after = s'.motors.motor.selectedMode ∧ ∃ before, lastRequest h = some (mode, before) ∧
      (Truthful mode before ok after ↔ s.misreports i = false) :=
  ((Asked.of_reach hr).answers hok hstep).truthful mode ok after hanswer

/-- Every answer of a run is truthful. -/
def Reported (h : List DriverEvent) : Prop :=
  Historically (fun e old => ∀ mode ok after before, e = .answered mode ok after →
    lastRequest old = some (mode, before) → Truthful mode before ok after) h

/-- No call that switches the mode. -/
def staysAlone (_ : List DriverEvent) (_ : Driver402) : DriverStep → Bool
  | .other (.enter _ call) => call.keepsMode
  | _ => true

theorem alone_of_staysAlone {h : List DriverEvent} {s : Driver402} {i : DriverStep}
    (hcheck : staysAlone h s i = true) : alone h s i := by
  cases i with
  | other step =>
      cases step with
      | enter j call => exact hcheck
      | go j env => trivial
  | _ => trivial

/-- An enabled motor with `Profiled_Velocity`, which the drive displays. -/
def Driver402.ready : Driver402 where
  motors := { MotorSystem.zeroed 0 [] with
    motor := { (MotorSystem.zeroed 0 []).motor with
      state := .operationEnable
      modeId := ModeId.profiledVelocity
      modes := fun id => Mode.fresh id Env.velocity.raw } }
  caller := .idle

theorem Driver402.reach_ready : Reach Driver402.system alone [] Driver402.ready :=
  .init ⟨rfl, rfl, by simp [Driver402.ready, MotorSystem.zeroed]⟩

/-- `Profiled_Velocity` is requested and entered. -/
theorem truthful_velocity : ∃ (s : Driver402), ∃ before,
    lastRequest [.requested ModeId.profiledVelocity none] = some (ModeId.profiledVelocity, before) ∧
      (Truthful ModeId.profiledVelocity before true (some ModeId.profiledVelocity) ↔
        s.misreports (.go Env.velocity) = false) := by
  have hanswers : (Driver402.system.runIf staysAlone
      (.request ModeId.profiledVelocity :: .compare :: List.replicate 10 (.go Env.velocity)) []
      Driver402.ready).any (fun p =>
        decide (p.1 = [.requested ModeId.profiledVelocity none]) &&
          (Driver402.system.step p.2 (.go Env.velocity)).any fun q =>
            decide (.answered ModeId.profiledVelocity true (some ModeId.profiledVelocity) ∈ q.2)) =
      true := by
    decide +kernel
  obtain ⟨h, s, hr, hanswers⟩ := System.exists_reach_runIf _ Driver402.reach_ready
    (fun _ _ _ hcheck => alone_of_staysAlone hcheck) hanswers
  obtain ⟨hh, hlast⟩ := Bool.and_eq_true_iff.mp hanswers
  obtain ⟨⟨s', es⟩, hstep, hmem⟩ := (Option.any_eq_true ..).mp hlast
  obtain rfl : h = _ := of_decide_eq_true hh
  have hok : alone [.requested ModeId.profiledVelocity none] s (.go Env.velocity) := trivial
  exact ⟨s, (truthful_iff hr hok hstep (of_decide_eq_true hmem)).2⟩

/-- The drive leaves `operationEnable` once it has displayed the mode; then the mode that is
selected by now is requested again. -/
def DriverStep.enterTwice : List DriverStep :=
  let disabled := Env.answering 0x40 3 4
  [.request ModeId.profiledVelocity, .compare] ++ List.replicate 8 (.go Env.velocity) ++
    (MotorStep.calls 1 .handleRead 3 disabled).map .other ++ List.replicate 4 (.go disabled) ++
    [.go { disabled with timedOut := true }, .request ModeId.profiledVelocity, .compare]

/-- Both times the answer is false. -/
def DriverEvent.refusedTwice : List DriverEvent :=
  [.answered ModeId.profiledVelocity false (some ModeId.profiledVelocity),
    .requested ModeId.profiledVelocity (some ModeId.profiledVelocity),
    .answered ModeId.profiledVelocity false (some ModeId.profiledVelocity),
    .requested ModeId.profiledVelocity none]

/-- Neither answer tells that the mode is selected. -/
theorem not_reported : ∃ s, Reach Driver402.system alone DriverEvent.refusedTwice s ∧
    ¬ Reported DriverEvent.refusedTwice ∧ ¬ Reported (DriverEvent.refusedTwice.drop 2) := by
  have hanswers : (Driver402.system.runIf staysAlone DriverStep.enterTwice [] Driver402.ready).any
      (fun p => decide (p.1 = DriverEvent.refusedTwice)) = true := by
    decide +kernel
  obtain ⟨h, s, hr, hanswers⟩ := System.exists_reach_runIf _ Driver402.reach_ready
    (fun _ _ _ hcheck => alone_of_staysAlone hcheck) hanswers
  obtain rfl : h = _ := of_decide_eq_true hanswers
  refine ⟨s, hr, fun hreported => ?_, fun hreported => ?_⟩
  · have htruthful := hreported [] _ _ rfl _ _ _ _ rfl rfl
    exact absurd (htruthful.1.mpr rfl) (by simp)
  · have htruthful := hreported [] _ _ rfl _ _ _ _ rfl rfl
    exact absurd (htruthful.1.mpr rfl) (by simp)

end RosCanopen.Cia402
