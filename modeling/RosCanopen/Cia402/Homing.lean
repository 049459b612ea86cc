import RosCanopen.Cia402.Motion

/-!
# Whether homing is real

`executeHoming` waits four times on the status bits that the poll cycles read into the
mode.  Its second wait is to ensure that homing has started, but it only asks for a status
other than "reached": bits left over from an earlier homing pass it, and the two waits
after it, although no start bit has been streamed.  The start bit itself is taken back
with `execute_`; it stays in the control word while the drive is not in
`operationEnable`, where no mode writes its bits, and in a `handleWrite` that has asked the
mode before and streams after.

## Main definitions

* `readAfterStart` — a status word has been read after the start bit was streamed.
* `HomingReal` — a successful homing has been seen by the drive.
* `HomingOver`, `HomingEnds` — no start bit after `executeHoming` has returned.
* `homingHeld` — the steps of the runs in which both hold.
-/

namespace RosCanopen.Cia402

open Lib

/-- The program points inside `executeHoming` after the method has been read. -/
def Code.homes : Code → Bool
  | .homingPrepare => true
  | .homingStart => true
  | .homingAttain => true
  | .homingStop => true
  | _ => false

/-- The program points of `executeHoming` where `execute_` has been set. -/
def Code.awaits : Code → Bool
  | .homingStart => true
  | .homingAttain => true
  | .homingStop => true
  | _ => false

theorem Code.homes_of_awaits {code : Code} (h : code.awaits = true) : code.homes = true := by
  cases code <;> first | contradiction | rfl

/-- The step stays in `executeHoming`. -/
def Next.homes : Next → Bool
  | .goto code => code.homes
  | .call _ code => code.homes
  | _ => false

/-- The status word says that homing has been attained: attained and reached, no error. -/
def attained (sw : Word) : Bool :=
  sw.getLsbD StatusWord.targetReached && sw.getLsbD StatusWord.operationModeSpecific0 &&
    !sw.getLsbD StatusWord.operationModeSpecific1

namespace WritingRecord

/-- The step of a thread is at a program point that meets `p`. -/
def point (p : WritingSystem → Env → Code → Bool) (r : WritingRecord) : Bool :=
  match r.input with
  | .enter _ _ => false
  | .go j env => (r.state.threads j).any fun t => p r.state env t.code

/-- A step of thread `i` at a program point that meets `p`. -/
def steps (i : ℕ) (p : WritingSystem → Env → Code → Bool) (r : WritingRecord) : Bool :=
  r.moves i && r.point p

/-- Thread `i` calls `executeHoming`. -/
def beginsHoming (i : ℕ) : WritingRecord → Bool :=
  steps i fun _ _ code => decide (code = .homingMethod)

/-- Thread `i` returns from `executeHoming`, one way or another. -/
def leavesHoming (i : ℕ) : WritingRecord → Bool :=
  steps i fun s env code => (decide (code = .homingMethod) || code.homes) &&
    (s.motor.exec env code).any fun (_, next, _) => !next.homes

/-- `executeHoming` returns true to thread `i`, for a homing method that is not zero. -/
def succeedsHoming (i : ℕ) : WritingRecord → Bool :=
  steps i fun s env code => decide (code = .homingStop) &&
    (s.motor.exec env code).any fun (_, next, _) =>
      decide (next = .goto (.modeEnter ModeId.noMode))

/-- A control word with the start bit is streamed while the drive displays homing. -/
def carriesStart (r : WritingRecord) : Bool :=
  decide (r.state.motor.modeId = ModeId.homing) && r.events.any fun
    | .controlWord _ cw => cw.getLsbD ControlWord.operationModeSpecific0
    | _ => false

/-- The homing mode reads a status word that meets `p`. -/
def readsStatus (p : Word → Bool) (r : WritingRecord) : Bool :=
  match r.input with
  | .enter _ _ => false
  | .go i _ =>
      decide (r.state.motor.selectedMode = some ModeId.homing) &&
        decide (.displayed ModeId.homing ∈ r.events) &&
        (r.state.threads i).any fun t =>
          match t.code with
          | .readMode sw => p sw
          | _ => false

end WritingRecord

/-- The start bit has been streamed since thread `i` has called `executeHoming`. -/
def startStreamed (i : ℕ) (h : List WritingRecord) : Bool :=
  since (fun r => !r.beginsHoming i) (fun r => !r.beginsHoming i && r.carriesStart) h

/-- And after that a status word that meets `p` has been read. -/
def readAfterStart (i : ℕ) (p : Word → Bool) : List WritingRecord → Bool
  | [] => false
  | r :: h => !r.beginsHoming i && (r.readsStatus p && startStreamed i h || readAfterStart i p h)

/-- Homing succeeds only after a status word that says so, read after the start bit was
streamed in the same call. -/
def HomingReal (h : List WritingRecord) : Prop :=
  Historically (fun r old => ∀ i, r.succeedsHoming i = true →
    readAfterStart i attained old = true) h

/-- Thread `i` returns from `executeHoming` with no other in progress. -/
def WritingRecord.endsHoming (i : ℕ) (r : WritingRecord) : Prop :=
  r.leavesHoming i = true ∧ ∀ j t, j ≠ i → r.state.threads j = some t → t.code.homes = false

/-- `executeHoming` has returned with no other in progress, and has not been called since. -/
def HomingOver (h : List WritingRecord) : Prop :=
  ∃ new left old i, h = new ++ left :: old ∧ left.endsHoming i ∧
    ∀ r ∈ new, ∀ j, r.beginsHoming j = false

/-- No start bit is streamed once homing is over. -/
def HomingEnds (h : List WritingRecord) : Prop :=
  Historically (fun r old => HomingOver old → r.carriesStart = false) h

/-- A `handleWrite` is about to stream a control word with bit 4. -/
def WritingSystem.startPending (s : WritingSystem) : Bool :=
  s.writer.any (fun w => decide (w.2 = .stream)) &&
    s.motor.controlWord.getLsbD ControlWord.operationModeSpecific0

/-- The drive displays homing. -/
def Env.showsHoming (env : Env) : Bool :=
  env.driverOk && decide (env.modeDisplay.signExtend 16 = ModeId.homing)

/-- What real homing asks of a step of thread `i`.  The first two are about the drive, the
others about bit 4 of the control word. -/
structure HomingHeld (h : List WritingRecord) (s : WritingSystem) (i : ℕ) (env : Env)
    (t : Thread) : Prop where
  /-- When homing is about to be executed, the drive does not say that it is attained. -/
  prepare : t.code = .homingPrepare → attained s.motor.homing.2 = false
  /-- While it is, the drive says so only once the start bit has been streamed. -/
  read : ∀ sw, t.code = .readMode sw → s.motor.selectedMode = some ModeId.homing →
    env.showsHoming = true → attained sw = true →
    ∀ j t', s.threads j = some t' → t'.code.awaits = true → startStreamed j h = true
  /-- Once homing is over, `handleWrite` finds bit 4 clear when it finds the drive displaying
  homing in a state other than `operationEnable`. -/
  write : t.code = .write → s.writer = none → HomingOver h → s.motor.state ≠ .operationEnable →
    s.motor.modeId = ModeId.homing →
    s.motor.controlWord.getLsbD ControlWord.operationModeSpecific0 = false
  /-- Homing does not end while a `handleWrite` is about to stream the start bit. -/
  leave : WritingRecord.endsHoming i ⟨s, .go i env, []⟩ → s.motor.modeId = ModeId.homing →
    s.startPending = false
  /-- Nor does the drive come to display homing then, once homing is over. -/
  display : ∀ sw, t.code = .readMode sw → env.showsHoming = true → HomingOver h →
    s.startPending = false

/-- The steps of real homing. -/
def homingHeld : Guard WritingSystem MotorStep WritingRecord
  | _, _, .enter _ _ => True
  | h, s, .go i env => ∀ t, s.threads i = some t → HomingHeld h s i env t

/-! ## The homing mode object -/

/-- `execute_` and `status_`, where the mode is the homing mode. -/
def homingPart : Option Mode → Bool × Word
  | some (.homing execute status) => (execute, status)
  | _ => (false, 0)

theorem homing_eq (m : Motor) : m.homing = homingPart (m.modes ModeId.homing) := rfl

theorem attained_masked (sw : Word) : attained (sw &&& Mode.homingMask) = attained sw := by
  simp [attained, Mode.homingMask, bit, StatusWord.targetReached,
    StatusWord.operationModeSpecific0, StatusWord.operationModeSpecific1]

section Part
variable (mode : Mode)

theorem homingPart_start : homingPart (some mode.start) = (false, 0) := by
  cases mode <;> rfl

theorem homingPart_read (sw : Word) : homingPart (some (mode.read sw)) = homingPart (some mode) ∨
    homingPart (some (mode.read sw)) = ((homingPart (some mode)).1, sw &&& Mode.homingMask) := by
  cases mode
  · exact .inl rfl
  · exact .inl rfl
  · exact .inr rfl

theorem homingPart_write (channelOffset : BitVec 16) (cw : Word) (ok : Bool) :
    homingPart (some (mode.write channelOffset cw ok).mode) = homingPart (some mode) := by
  cases mode with
  | forward spec helper =>
      simp only [Mode.write, Mode.writeForward]
      split
      · split <;> rfl
      · rfl
  | profiledPosition helper lastTarget sw =>
      simp only [Mode.write, Mode.writeProfiledPosition]
      repeat' split
      all_goals rfl
  | homing execute status =>
      simp only [Mode.write, Mode.writeHoming]
      split <;> rfl

theorem homingPart_setTarget (val : Double) :
    homingPart (some (mode.setTarget val).1) = homingPart (some mode) := by
  cases mode <;> rfl

end Part

/-- What a step does to `execute_` and `status_`. -/
inductive Homed (m : Motor) (code : Code) (es : List MotorEvent) : Bool × Word → Prop
  | kept : Homed m code es m.homing
  | read (sw : Word) (hcode : code = .readMode sw)
      (hselected : m.selectedMode = some ModeId.homing) (hes : .displayed ModeId.homing ∈ es) :
      Homed m code es (m.homing.1, sw &&& Mode.homingMask)
  | started : Homed m code es (false, 0)
  | allocated (hnone : m.modes ModeId.homing = none) (part : Bool × Word) : Homed m code es part
  | executed (hcode : code = .homingPrepare) : Homed m code es (true, m.homing.2)
  | withdrawn : Homed m code es (false, m.homing.2)

section Exec
variable {m m' : Motor} {env : Env} {code : Code} {next : Next} {es : List MotorEvent}

theorem homing_setExecute (execute : Bool) :
    (m.setExecute execute).homing = (execute, m.homing.2) := by
  rw [homing_eq, Motor.setExecute, setMode_modes_self]
  rfl

theorem homing_setMode_of_ne {id : ModeId} (hid : ModeId.homing ≠ id) (mode : Mode) :
    (m.setMode id mode).homing = m.homing := by
  rw [homing_eq, homing_eq, setMode_modes_of_ne m mode hid]

theorem homing_setMode {mode old : Mode} (hold : m.modes ModeId.homing = some old)
    (hpart : homingPart (some mode) = homingPart (some old)) :
    (m.setMode ModeId.homing mode).homing = m.homing := by
  rw [homing_eq, homing_eq, setMode_modes_self, hpart, hold]

/-- A status word is read into the homing mode, or it is left alone. -/
theorem homing_readSelected (m : Motor) (id : ModeId) (sw : Word) :
    (m.readSelected id sw).homing = m.homing ∨ (m.selectedMode = some id ∧ id = ModeId.homing ∧
      (m.readSelected id sw).homing = (m.homing.1, sw &&& Mode.homingMask)) := by
  rw [Motor.readSelected]
  split
  · next hselected =>
      by_cases hid : ModeId.homing = id
      · subst hid
        simp only [homing_eq, Function.update_self]
        cases m.modes ModeId.homing with
        | none => exact .inl rfl
        | some old =>
            exact (homingPart_read old sw).imp_right fun hpart => ⟨hselected, trivial, hpart⟩
      · exact .inl (by simp only [homing_eq, Function.update_of_ne hid])
  · exact .inl rfl

/-- Writing leaves the homing mode alone. -/
theorem homing_handleWrite (m : Motor) (env : Env) : (m.handleWrite env).1.homing = m.homing := by
  obtain ⟨m', w, hw, heq⟩ := exists_wrote m env
  have hfinish : (m.handleWrite env).1.homing = m'.homing := by
    rw [heq]
    rcases finishWrite_motor m' env w with hm | hm <;> rw [hm]
    rfl
  rw [hfinish]
  cases hw with
  | idle => rfl
  | @asked id mode r cw _ hactive hr _ _ =>
      have hmode := (activeMode_eq_some hactive).2.2
      show (m.setMode id r.mode).homing = m.homing
      by_cases hid : ModeId.homing = id
      · subst hid hr
        exact homing_setMode hmode (homingPart_write mode _ _ _)
      · exact homing_setMode_of_ne hid _

theorem homing_of_writeEffect {code : WriteCode} {next : WriteNext}
    (heffect : WriteEffect m env code m' next es) : m'.homing = m.homing := by
  cases heffect with
  | @asked id mode r cw _ _ hactive hr =>
      have hmode := (activeMode_eq_some hactive).2.2
      show (m.setMode id r.mode).homing = m.homing
      by_cases hid : ModeId.homing = id
      · subst hid hr
        exact homing_setMode hmode (homingPart_write mode _ _ _)
      · exact homing_setMode_of_ne hid _
  | _ => rfl

/-- **What a step does to the homing mode**, read off the effects once. -/
theorem homed_of_effect (heffect : Effect m env code m' next es) : Homed m code es m'.homing := by
  have hkept : ∀ {part}, part = m.homing → Homed m code es part := by
    rintro _ rfl
    exact .kept
  cases heffect with
  | displayed sw mode =>
      show Homed m _ _ (m.readSelected mode sw).homing
      rcases homing_readSelected m mode sw with heq | ⟨hselected, rfl, heq⟩
      · exact hkept heq
      · rw [heq]
        exact .read sw rfl hselected (List.mem_singleton_self _)
  | wrote => exact hkept (homing_handleWrite m env)
  | targeted val =>
      rcases setSelectedTarget_cases m val with ⟨id, mode, -, hmode, heq⟩ | heq
      · rw [heq] at hkept ⊢
        by_cases hid : ModeId.homing = id
        · subst hid
          exact hkept (homing_setMode hmode (homingPart_setTarget mode val))
        · exact hkept (homing_setMode_of_ne hid _)
      · exact hkept (by rw [heq])
  | started mode =>
      rcases startMode_cases m mode with ⟨old, -, heq⟩ | ⟨-, heq⟩
      · rw [heq]
        by_cases hid : ModeId.homing = mode
        · subst hid
          rw [homing_eq, setMode_modes_self, homingPart_start]
          exact .started
        · rw [homing_setMode_of_ne hid]
          exact .kept
      · exact hkept (by rw [heq])
  | allocated id todo mode hmode =>
      cases hold : m.modes ModeId.homing with
      | none => exact .allocated hold _
      | some old =>
          refine hkept ?_
          by_cases hid : ModeId.homing = id
          · subst hid
            simp only [homing_eq, Function.update_self, hold]
            rfl
          · simp only [homing_eq, Function.update_of_ne hid]
  | executed =>
      rw [homing_setExecute]
      exact .executed rfl
  | withdrawn =>
      rw [homing_setExecute]
      exact .withdrawn
  | _ => exact .kept

/-- A wait of `executeHoming` stays inside, or takes the start bit back. -/
theorem homes_of_homingWait {timedOut ready : Bool} {go : Motor × Next × List MotorEvent}
    (h : m.homingWait timedOut ready go = some (m', next, es))
    (hgo : go.2.1.homes = true ∨ go.1.homing.1 = false) :
    next.homes = true ∨ m'.homing.1 = false := by
  rcases homingWait_eq_some h with herror | heq
  · obtain ⟨rfl, rfl, rfl⟩ := step_inj (congrArg some herror)
    exact .inr (by rw [Motor.homingError, homing_setExecute])
  · obtain rfl := heq
    exact hgo

/-- A step of `executeHoming` stays inside, or takes the start bit back. -/
theorem homes_of_exec (h : m.exec env code = some (m', next, es)) (hcode : code.homes = true) :
    next.homes = true ∨ m'.homing.1 = false := by
  cases code with
  | homingPrepare => exact homes_of_homingWait h (.inl rfl)
  | homingStart => exact homes_of_homingWait h (.inl rfl)
  | homingAttain => exact homes_of_homingWait h (.inl rfl)
  | homingStop =>
      refine homes_of_homingWait h (.inr ?_)
      split
      · rw [homing_setExecute]
      · rw [Motor.homingError, homing_setExecute]
  | _ => contradiction

/-- `executeHoming` is entered where its method is read. -/
theorem code_of_homes (h : m.exec env code = some (m', next, es)) (hnext : next.homes = true) :
    code = .homingMethod ∨ code.homes = true := by
  cases code with
  | homingMethod => exact .inl rfl
  | homingPrepare => exact .inr rfl
  | homingStart => exact .inr rfl
  | homingAttain => exact .inr rfl
  | homingStop => exact .inr rfl
  | write =>
      obtain ⟨-, rfl, -⟩ := step_inj h
      rcases handleWrite_next m env with hret | hret <;> rw [hret] at hnext <;> contradiction
  | targetSet val =>
      obtain ⟨-, rfl, -⟩ := step_inj h
      obtain ⟨ok, hret⟩ := setSelectedTarget_next m val
      rw [hret] at hnext
      contradiction
  | initAlloc todo =>
      cases todo <;> simp only [Motor.exec] at h <;> (try split at h) <;>
        obtain ⟨-, rfl, -⟩ := step_inj h <;> contradiction
  | stateTransit target state =>
      simp only [Motor.exec] at h
      split at h <;> obtain ⟨-, rfl, -⟩ := step_inj h
      · split at hnext <;> contradiction
      · contradiction
  | haltLocked state =>
      obtain ⟨ok, rfl⟩ := haltLocked_next (effect_of_exec h)
      contradiction
  | _ =>
      simp only [Motor.exec] at h
      repeat' split at h
      all_goals first
        | contradiction
        | (obtain ⟨-, rfl, -⟩ := step_inj h
           contradiction)

end Exec

/-! ## The start bit in the control word -/

section Start
variable {m m' : Motor} {env : Env}

/-- The homing mode has bit 4 as it has `execute_`. -/
theorem startBit_writeHoming (execute : Bool) (status cw : Word) :
    (Mode.writeHoming execute status cw).cw.getLsbD ControlWord.operationModeSpecific0 =
      execute := by
  cases execute <;> simp [Mode.writeHoming, OpModeAccesser.assign, OpModeAccesser.set, opModeMask,
    ControlWord.operationModeSpecific0]

/-- When `handleWrite` comes to the streaming, the start bit is up for the homing mode, or was
left in the control word. -/
theorem startBit_of_writeEffect {code : WriteCode} {es : List MotorEvent}
    (heffect : WriteEffect m env code m' (.goto .stream) es) (hmode : m'.modeId = ModeId.homing)
    (hkind : ∀ mode, m.modes ModeId.homing = some mode → mode = .homing m.homing.1 m.homing.2)
    (hbit : m'.controlWord.getLsbD ControlWord.operationModeSpecific0 = true) :
    (m.selectedMode = some ModeId.homing ∧ m.homing.1 = true) ∨ (code = .test ∧
      m.state ≠ .operationEnable ∧ m.modeId = ModeId.homing ∧
      m.controlWord.getLsbD ControlWord.operationModeSpecific0 = true) := by
  cases heffect with
  | tested hcode =>
      refine .inr ⟨rfl, fun hstate => ?_, hmode, by simpa using hbit⟩
      rw [if_pos hstate] at hcode
      contradiction
  | @asked id mode r cw _ _ hactive hr hcw hnext =>
      obtain ⟨hselected, hid, hmodes⟩ := activeMode_eq_some hactive
      obtain rfl : ModeId.homing = id := hmode.symm.trans hid
      obtain rfl := hkind mode hmodes
      refine .inl ⟨hselected, ?_⟩
      have hwrite : r.cw.getLsbD ControlWord.operationModeSpecific0 = m.homing.1 := by
        rw [hr]
        exact startBit_writeHoming _ _ _
      rw [hcw] at hbit
      split at hbit
      · rw [← hwrite]
        simpa using hbit
      · exact hwrite.symm.trans hbit
  | ignored =>
      rw [show (OpModeAccesser.assign m.controlWord 0).getLsbD ControlWord.operationModeSpecific0 =
        false by simp [OpModeAccesser.assign, opModeMask]] at hbit
      contradiction

end Start

/-! ## What the histories say -/

section History
variable {r : WritingRecord} {h : List WritingRecord} {i : ℕ} {p : Word → Bool}

theorem readAfterStart_cons (hbegins : r.beginsHoming i = false)
    (hread : readAfterStart i p h = true) : readAfterStart i p (r :: h) = true := by
  rw [readAfterStart, hbegins, hread]
  simp

/-- A status word that is read once the start bit has been streamed. -/
theorem readAfterStart_of_reads (hbegins : r.beginsHoming i = false)
    (hreads : r.readsStatus p = true) (hstart : startStreamed i h = true) :
    readAfterStart i p (r :: h) = true := by
  rw [readAfterStart, hbegins, hreads, hstart]
  simp

/-- Homing was over already, or is over with this step. -/
theorem homingOver_cons (hover : HomingOver (r :: h)) :
    (HomingOver h ∧ ∀ j, r.beginsHoming j = false) ∨ ∃ i, r.endsHoming i := by
  obtain ⟨new, left, old, i, heq, hends, hnew⟩ := hover
  cases new with
  | nil =>
      obtain ⟨rfl, rfl⟩ := List.cons.inj heq
      exact .inr ⟨i, hends⟩
  | cons x new =>
      obtain ⟨rfl, rfl⟩ := List.cons.inj heq
      exact .inl ⟨⟨new, left, old, i, rfl, hends, fun r hr => hnew r (by simp [hr])⟩,
        hnew r (by simp)⟩

theorem steps_go {s : WritingSystem} {j : ℕ} {env : Env} {t : Thread} {es : List MotorEvent}
    {p : WritingSystem → Env → Code → Bool} (ht : s.threads j = some t)
    (hsteps : WritingRecord.steps i p ⟨s, .go j env, es⟩ = true) :
    i = j ∧ p s env t.code = true := by
  obtain ⟨hj, hany⟩ := Bool.and_eq_true_iff.mp hsteps
  obtain rfl := of_decide_eq_true hj
  obtain ⟨t', ht', hp⟩ := (Option.any_eq_true _ _).mp hany
  obtain rfl := Option.some.inj (ht.symm.trans ht')
  exact ⟨rfl, hp⟩

theorem begins_go {s : WritingSystem} {j : ℕ} {env : Env} {t : Thread} {es : List MotorEvent}
    (ht : s.threads j = some t) (hcode : t.code ≠ .homingMethod) :
    WritingRecord.beginsHoming i ⟨s, .go j env, es⟩ = false :=
  eq_false_of_ne_true fun hbegins => hcode (of_decide_eq_true (steps_go ht hbegins).2)

end History

/-! ## What a thread does -/

section Thread
variable {m m' : Motor} {env : Env} {code : Code} {next : Next} {es : List MotorEvent} {t : Thread}

theorem not_homes_of_resume {frame : Frame} (h : frame.resume = some code) :
    code.homes = false := by
  cases frame <;> cases h <;> rfl

/-- A thread is in `executeHoming` as the step has led it there. -/
theorem homes_after {t' : Thread} (h : (t.after next).1 = some t') :
    t'.code.homes = next.homes := by
  cases next with
  | goto code => cases h; rfl
  | call frame code => cases h; rfl
  | ret ok =>
      simp only [Thread.after] at h
      split at h
      · next hunwind =>
          cases h
          obtain ⟨-, frame, -, hresume⟩ := unwind_eq_inl hunwind
          exact not_homes_of_resume hresume
      · contradiction
  | throw => contradiction

theorem exists_after_of_homes (h : next.homes = true) :
    ∃ t', (t.after next).1 = some t' ∧ t'.code.homes = true := by
  cases next with
  | goto code => exact ⟨_, rfl, h⟩
  | call frame code => exact ⟨_, rfl, h⟩
  | ret ok => contradiction
  | throw => contradiction

/-- A wait of `executeHoming` that goes on has found its condition and no error. -/
theorem ready_of_homingWait {timedOut ready : Bool} {go : Motor × Next × List MotorEvent}
    (h : m.homingWait timedOut ready go = some (m', next, es)) (hnext : next ≠ .ret false) :
    ready = true ∧ m.homing.2.getLsbD StatusWord.operationModeSpecific1 = false ∧
      (m', next, es) = go := by
  rw [Motor.homingWait] at h
  split at h
  · next hready =>
      split at h
      · cases h
        contradiction
      · next herror => exact ⟨hready, by simpa using herror, (Option.some.inj h).symm⟩
  · split at h
    · cases h
      contradiction
    · contradiction

/-- The steps that stay in `executeHoming` do not call. -/
theorem goto_of_homes (h : m.exec env code = some (m', next, es)) (hnext : next.homes = true) :
    ∃ code', next = .goto code' := by
  have hwait : ∀ {timedOut ready go}, m.homingWait timedOut ready go = some (m', next, es) →
      (∃ code', go.2.1 = .goto code') ∨ go.2.1.homes = false → ∃ code', next = .goto code' := by
    intro timedOut ready go hgo hgoto
    rcases homingWait_eq_some hgo with herror | rfl
    · cases herror
      contradiction
    · exact hgoto.resolve_right (by simp [hnext])
  rcases code_of_homes h hnext with rfl | hcode
  · simp only [Motor.exec] at h
    split at h <;> obtain ⟨-, rfl, -⟩ := step_inj h
    · exact ⟨_, rfl⟩
    · contradiction
  · cases code with
    | homingPrepare => exact hwait h (.inl ⟨_, rfl⟩)
    | homingStart => exact hwait h (.inl ⟨_, rfl⟩)
    | homingAttain => exact hwait h (.inl ⟨_, rfl⟩)
    | homingStop =>
        refine hwait h ?_
        split
        · exact .inl ⟨_, rfl⟩
        · exact .inr rfl
    | _ => contradiction

/-- The waits with `execute_` set are reached from one another, or where it is set. -/
theorem awaits_of_exec (h : m.exec env code = some (m', next, es)) {code' : Code}
    (hnext : next = .goto code') (hcode' : code'.awaits = true) :
    code.awaits = true ∨ (code = .homingPrepare ∧ m' = m.setExecute true) := by
  have hhomes : next.homes = true := by
    rw [hnext]
    exact Code.homes_of_awaits hcode'
  have hret : next ≠ .ret false := by
    rw [hnext]
    exact Next.noConfusion
  rcases code_of_homes h hhomes with rfl | hcode
  · simp only [Motor.exec] at h
    split at h <;> obtain ⟨-, rfl, -⟩ := step_inj h
    · split at hnext <;> cases hnext <;> contradiction
    · contradiction
  · cases code with
    | homingPrepare =>
        obtain ⟨-, -, heq⟩ := ready_of_homingWait h hret
        exact .inr ⟨rfl, congrArg Prod.fst heq⟩
    | homingStart => exact .inl rfl
    | homingAttain => exact .inl rfl
    | homingStop => exact .inl rfl
    | _ => contradiction

/-- `executeHoming` succeeds on a status that says so. -/
theorem attained_of_success
    (h : m.exec env .homingStop = some (m', .goto (.modeEnter ModeId.noMode), es)) :
    attained m.homing.2 = true := by
  obtain ⟨-, herror, heq⟩ := ready_of_homingWait h Next.noConfusion
  split at heq
  · next hbits => simp [attained, herror, hbits.1, hbits.2, StatusWord.targetReached,
      StatusWord.operationModeSpecific0]
  · cases heq

end Thread

/-! ## The homing object along a run -/

/-- Where there is an object for homing, it is one of the homing mode. -/
def HomingKind (m : Motor) : Prop :=
  ∀ mode, m.modes ModeId.homing = some mode → mode.isHoming = true

section Kind
variable {m m' : Motor} {env : Env} {code : Code} {next : Next} {es : List MotorEvent} {sw : Word}

theorem HomingKind.eq (hkind : HomingKind m) {mode : Mode}
    (hmode : m.modes ModeId.homing = some mode) : mode = .homing m.homing.1 m.homing.2 := by
  have hhoming := hkind mode hmode
  rw [homing_eq, hmode]
  cases mode with
  | homing execute status => rfl
  | _ => contradiction

theorem HomingKind.of_effect (hkind : HomingKind m) (heffect : Effect m env code m' next es) :
    HomingKind m' :=
  kind_of_touched (touched_of_effect ModeId.homing heffect) hkind

/-- Starting the homing mode resets it. -/
theorem homing_of_started (heffect : Effect m env code m' next es)
    (he : .started ModeId.homing ∈ es) : m'.homing = (false, 0) := by
  obtain ⟨mode, -, hmode⟩ := mode_of_started heffect he
  rw [homing_eq, hmode, homingPart_start]

/-- A mode is displayed at the end of `readState`. -/
theorem code_of_displayed {id : ModeId} (heffect : Effect m env code m' next es)
    (he : .displayed id ∈ es) : ∃ sw, code = .readMode sw := by
  cases heffect with
  | displayed sw => exact ⟨sw, rfl⟩
  | silent _ hes => exact absurd (hes _ he) (by simp [MotorEvent.isOpMode])
  | deselected _ hes => exact absurd (hes _ he) (by simp [MotorEvent.isOpMode])
  | wrote => exact absurd (writes_of_mem he) Bool.false_ne_true
  | targeted val =>
      obtain ⟨id', heq⟩ := eq_accepted_of_mem he
      contradiction
  | started mode => exact absurd (eq_started_of_mem he) MotorEvent.noConfusion
  | _ => simp at he

/-- What the homing mode displays in a step, the drive displays. -/
theorem shows_of_displayed (h : m.exec env (.readMode sw) = some (m', next, es))
    (hes : .displayed ModeId.homing ∈ es) : env.showsHoming = true := by
  simp only [Motor.exec] at h
  split at h <;> obtain ⟨-, -, rfl⟩ := step_inj h
  · next hok =>
      have hshown := MotorEvent.displayed.inj (List.mem_singleton.mp hes)
      simp [Env.showsHoming, hok, ← hshown]
  · contradiction

/-- The motor comes to hold homing for displayed where the drive displays it. -/
theorem modeId_of_exec (h : m.exec env code = some (m', next, es))
    (hmode : m'.modeId = ModeId.homing) :
    m.modeId = ModeId.homing ∨ (∃ sw, code = .readMode sw) ∧ env.showsHoming = true := by
  have hfollows := (follows_of_effect (effect_of_exec h)).modeId
  cases hshown : es.findSome? MotorEvent.displays with
  | none =>
      rw [hshown] at hfollows
      exact .inl (hfollows.symm.trans hmode)
  | some mode =>
      rw [hshown] at hfollows
      obtain rfl : mode = ModeId.homing := hfollows.symm.trans hmode
      obtain ⟨e, he, hdisplays⟩ := List.exists_of_findSome?_eq_some hshown
      cases e with
      | displayed mode =>
          obtain rfl := Option.some.inj hdisplays
          obtain ⟨sw, rfl⟩ := code_of_displayed (effect_of_exec h) he
          exact .inr ⟨⟨sw, rfl⟩, shows_of_displayed h he⟩
      | _ => contradiction

end Kind

/-- The invariant of the runs of real homing. -/
structure Homes (h : List WritingRecord) (s : WritingSystem) : Prop where
  kind : HomingKind s.motor
  passed : ∀ i t, s.threads i = some t → t.code.awaits = true →
    (s.motor.modes ModeId.homing).isSome = true ∧
      (attained s.motor.homing.2 = true → readAfterStart i attained h = true)
  executing : s.motor.homing.1 = true → (∃ i t, s.threads i = some t ∧ t.code.homes = true) ∨
    .started ModeId.homing ∉ said h
  idle : HomingOver h → ∀ i t, s.threads i = some t → t.code.homes = false
  bit : HomingOver h → s.motor.modeId = ModeId.homing → s.startPending = false
  real : HomingReal h
  ends : HomingEnds h

namespace Homes
variable {h : List WritingRecord} {s : WritingSystem} {i : ℕ} {env : Env} {t : Thread} {m : Motor}
  {next : Next} {es : List MotorEvent}

/-- A step that leaves the homing mode and its threads alone. -/
theorem quiet {r : WritingRecord} {threads : ℕ → Option Thread} {writer : Option (ℕ × WriteCode)}
    (hs : Homes h s) (hkind : HomingKind m) (hhoming : m.homing = s.motor.homing)
    (hsome : (s.motor.modes ModeId.homing).isSome = true →
      (m.modes ModeId.homing).isSome = true)
    (hstarted : .started ModeId.homing ∉ r.events)
    (hthreads : ∀ j t, t.code.homes = true → (threads j = some t ↔ s.threads j = some t))
    (hquiet : ∀ j p, r.steps j p = true → ∃ s env, p s env .write = true)
    (hbit : HomingOver h → m.modeId = ModeId.homing →
      (⟨⟨m, threads⟩, writer⟩ : WritingSystem).startPending = false)
    (hcarries : HomingOver h → r.carriesStart = false) :
    Homes (r :: h) ⟨⟨m, threads⟩, writer⟩ := by
  have hout : ∀ j, r.beginsHoming j = false ∧ r.leavesHoming j = false ∧
      r.succeedsHoming j = false := by
    refine fun j => ⟨?_, ?_, ?_⟩ <;> refine eq_false_of_ne_true fun hsteps => ?_ <;>
      obtain ⟨_, _, hcode⟩ := hquiet j _ hsteps <;> simp [Code.homes] at hcode
  have hover : HomingOver (r :: h) → HomingOver h := by
    intro hover
    rcases homingOver_cons hover with ⟨hover, -⟩ | ⟨j, hleaves, -⟩
    · exact hover
    · exact absurd ((hout j).2.1.symm.trans hleaves) (by simp)
  refine
    { kind := hkind
      passed := fun j t ht hcode => ?_
      executing := fun hexecute => ?_
      idle := fun hnow j t ht => ?_
      bit := fun hnow => hbit (hover hnow)
      real := hs.real.cons fun j hsucceeds => ?_
      ends := hs.ends.cons hcarries }
  · have hhomes := Code.homes_of_awaits hcode
    obtain ⟨hpresent, hread⟩ := hs.passed j t ((hthreads j t hhomes).mp ht) hcode
    refine ⟨hsome hpresent, fun hattained => readAfterStart_cons (hout j).1 (hread ?_)⟩
    rwa [← hhoming]
  · rw [hhoming] at hexecute
    refine (hs.executing hexecute).imp ?_ fun hnot => ?_
    · rintro ⟨j, t, ht, hhomes⟩
      exact ⟨j, t, (hthreads j t hhomes).mpr ht, hhomes⟩
    · rw [said_cons]
      exact fun hmem => (List.mem_append.mp hmem).elim hstarted hnot
  · refine eq_false_of_ne_true fun hhomes => ?_
    have hidle := hs.idle (hover hnow) j t ((hthreads j t hhomes).mp ht)
    exact absurd (hidle.symm.trans hhomes) (by simp)
  · exact absurd ((hout j).2.2.symm.trans hsucceeds) (by simp)

/-- A thread enters a call: nothing concerns homing. -/
theorem enters (hs : Homes h s) (call : Call) (hidle : s.threads i = none) :
    Homes (⟨s, .enter i call, [.called call]⟩ :: h) ⟨⟨s.motor, Function.update s.threads i
      (some ⟨call, (call.entry s.motor).1, (call.entry s.motor).2⟩)⟩, s.writer⟩ := by
  have hentry : (call.entry s.motor).1.homes = false := by
    cases call with
    | enterModeAndWait mode =>
        simp only [Call.entry]
        split <;> rfl
    | _ => rfl
  refine hs.quiet hs.kind rfl id (by simp) (fun j t hhomes => ?_) (fun j p hsteps => ?_) hs.bit
    fun _ => by simp [WritingRecord.carriesStart]
  · by_cases hj : j = i
    · subst hj
      rw [Function.update_self, hidle]
      refine ⟨fun heq => ?_, fun heq => absurd heq (by simp)⟩
      obtain rfl := Option.some.inj heq
      exact absurd (hentry.symm.trans hhomes) (by simp)
    · rw [Function.update_of_ne hj]
  · contradiction

theorem ends_goes (hcode : t.code ≠ .write)
    (hexec : s.motor.exec env t.code = some (m, next, es)) :
    WritingRecord.carriesStart ⟨s, .go i env, (t.after next).2 ++ es⟩ = false := by
  refine eq_false_of_ne_true fun hcarries => ?_
  obtain ⟨-, hany⟩ := Bool.and_eq_true_iff.mp hcarries
  obtain ⟨e, he, hcw⟩ := List.any_eq_true.mp hany
  cases e with
  | controlWord index cw => exact hcode (mem_handleWrite_of_writes hexec he rfl).1
  | _ => contradiction

section Goes
variable (hs : Homes h s) (ht : s.threads i = some t)
  (hexec : s.motor.exec env t.code = some (m, next, es)) {j : ℕ} {t' : Thread} {r : WritingRecord}
  (hr : r = ⟨s, .go i env, (t.after next).2 ++ es⟩)

/-- A thread after the step is the one that has taken it, or was there before. -/
theorem thread_cases (ht' : Function.update s.threads i (t.after next).1 j = some t') :
    (j = i ∧ (t.after next).1 = some t') ∨ (j ≠ i ∧ s.threads j = some t') := by
  by_cases hj : j = i
  · subst hj
    exact .inl ⟨rfl, by simpa using ht'⟩
  · exact .inr ⟨hj, by simpa [hj] using ht'⟩

include ht hr

theorem reads_of_code {p : Word → Bool} {sw : Word} (hcode : t.code = .readMode sw)
    (hp : p sw = true) (hselected : s.motor.selectedMode = some ModeId.homing)
    (hes : .displayed ModeId.homing ∈ es) : r.readsStatus p = true := by
  subst hr
  have hes' : .displayed ModeId.homing ∈ (t.after next).2 ++ es := List.mem_append_right _ hes
  simp only [WritingRecord.readsStatus, ht, hcode, hp, hselected, hes', Option.any_some,
    decide_true, Bool.and_self]

include hs hexec

/-- A thread that awaits homing goes on to do so: an attained status is one that has been read
after the start. -/
theorem awaiting_goes (hok : HomingHeld h s i env t) (hthread : s.threads j = some t')
    (hawaits : t'.code.awaits = true) (hbegins : r.beginsHoming j = false) :
    (m.modes ModeId.homing).isSome = true ∧
      (attained m.homing.2 = true → readAfterStart j attained (r :: h) = true) := by
  obtain ⟨hpresent, hread⟩ := hs.passed j t' hthread hawaits
  have heffect := effect_of_exec hexec
  refine ⟨isSome_of_effect heffect hpresent, ?_⟩
  have hold : attained s.motor.homing.2 = true → readAfterStart j attained (r :: h) = true :=
    fun hattained => readAfterStart_cons hbegins (hread hattained)
  have hhomed := homed_of_effect heffect
  generalize m.homing = part at hhomed
  cases hhomed with
  | kept => exact hold
  | read sw hcode hselected hes =>
      intro hattained
      rw [attained_masked] at hattained
      have hstart := hok.read sw hcode hselected (shows_of_displayed (hcode ▸ hexec) hes)
        hattained j t' hthread hawaits
      exact readAfterStart_of_reads hbegins (reads_of_code ht hr hcode hattained hselected hes)
        hstart
  | started => exact fun hattained => absurd hattained (by decide)
  | allocated hnone =>
      rw [hnone] at hpresent
      contradiction
  | executed => exact hold
  | withdrawn => exact hold

/-- A thread comes to await homing with a status that is not attained. -/
theorem passed_goes (hok : HomingHeld h s i env t)
    (ht' : Function.update s.threads i (t.after next).1 j = some t')
    (hawaits : t'.code.awaits = true) : (m.modes ModeId.homing).isSome = true ∧
      (attained m.homing.2 = true → readAfterStart j attained (r :: h) = true) := by
  rcases thread_cases ht' with ⟨rfl, hafter⟩ | ⟨hj, hthread⟩
  · have hhomes : next.homes = true := by
      rw [← homes_after hafter]
      exact Code.homes_of_awaits hawaits
    obtain ⟨code', rfl⟩ := goto_of_homes hexec hhomes
    cases hafter
    rcases awaits_of_exec hexec rfl hawaits with hcode | ⟨hcode, rfl⟩
    · refine hs.awaiting_goes ht hexec hr hok ht hcode ?_
      rw [hr]
      refine begins_go ht fun hbegins => ?_
      rw [hbegins] at hcode
      contradiction
    · refine ⟨by rw [Motor.setExecute, setMode_modes_self]; rfl, fun hattained => ?_⟩
      rw [homing_setExecute] at hattained
      exact absurd ((hok.prepare hcode).symm.trans hattained) (by simp)
  · refine hs.awaiting_goes ht hexec hr hok hthread hawaits ?_
    subst hr
    exact eq_false_of_ne_true fun hbegins => hj (steps_go ht hbegins).1

/-- The start bit is up while a thread is in `executeHoming`. -/
theorem executing_goes (hlinked : Linked (said h) s.toMotorSystem)
    (hexecute : m.homing.1 = true) :
    (∃ j t', Function.update s.threads i (t.after next).1 j = some t' ∧ t'.code.homes = true) ∨
      .started ModeId.homing ∉ said (r :: h) := by
  subst hr
  have heffect := effect_of_exec hexec
  have hnew : .started ModeId.homing ∉ (t.after next).2 ++ es := by
    intro hmem
    rcases List.mem_append.mp hmem with hmem | hmem
    · rcases reports_of_after hmem with ⟨ok, heq⟩ | heq <;> contradiction
    · rw [homing_of_started heffect hmem] at hexecute
      contradiction
  cases hcode : t.code.homes with
  | true =>
      have hhomes := (homes_of_exec hexec hcode).resolve_right (by simp [hexecute])
      obtain ⟨t', hafter, hhomes⟩ := exists_after_of_homes (t := t) hhomes
      exact .inl ⟨i, t', by simpa using hafter, hhomes⟩
  | false =>
      have hold : s.motor.homing.1 = true → (∃ j t', Function.update s.threads i
          (t.after next).1 j = some t' ∧ t'.code.homes = true) ∨
          .started ModeId.homing ∉ said (⟨s, .go i env, (t.after next).2 ++ es⟩ :: h) := by
        intro hbefore
        refine (hs.executing hbefore).imp ?_ fun hnot hmem => ?_
        · rintro ⟨j, t', ht', hhomes⟩
          have hj : j ≠ i := by
            rintro rfl
            obtain rfl := Option.some.inj (ht.symm.trans ht')
            exact absurd (hcode.symm.trans hhomes) (by simp)
          exact ⟨j, t', by simpa [hj] using ht', hhomes⟩
        · rw [said_cons] at hmem
          exact (List.mem_append.mp hmem).elim hnew hnot
      have hhomed := homed_of_effect heffect
      generalize m.homing = part at hhomed hexecute
      cases hhomed with
      | kept => exact hold hexecute
      | read => exact hold hexecute
      | started => contradiction
      | allocated hnone =>
          refine .inr fun hmem => ?_
          rw [said_cons] at hmem
          rcases List.mem_append.mp hmem with hmem | hmem
          · exact hnew hmem
          · have hsome := hlinked.present _ hmem
            rw [hnone] at hsome
            contradiction
      | executed hprepare =>
          rw [hprepare] at hcode
          contradiction
      | withdrawn => contradiction

/-- Once homing is over, no thread is in `executeHoming`. -/
theorem over_goes (hover : HomingOver (r :: h))
    (ht' : Function.update s.threads i (t.after next).1 j = some t') : t'.code.homes = false := by
  subst hr
  rcases homingOver_cons hover with ⟨hbefore, hbegins⟩ | ⟨k, hleaves, hothers⟩
  · rcases thread_cases ht' with ⟨rfl, hafter⟩ | ⟨hj, hold⟩
    · rw [homes_after hafter]
      refine eq_false_of_ne_true fun hhomes => ?_
      rcases code_of_homes hexec hhomes with hcode | hcode
      · have hbegins := hbegins j
        simp [WritingRecord.beginsHoming, WritingRecord.steps, WritingRecord.moves,
          WritingRecord.point, ht, hcode] at hbegins
      · exact absurd ((hs.idle hbefore j t ht).symm.trans hcode) (by simp)
    · exact hs.idle hbefore j t' hold
  · obtain ⟨rfl, hout⟩ := steps_go ht hleaves
    rcases thread_cases ht' with ⟨rfl, hafter⟩ | ⟨hj, hold⟩
    · simp only [hexec, Option.any_some, Bool.and_eq_true, Bool.not_eq_true'] at hout
      rw [homes_after hafter]
      exact hout.2
    · exact hothers j t' hj hold

theorem real_goes (hsucceeds : r.succeedsHoming j = true) :
    readAfterStart j attained h = true := by
  subst hr
  obtain ⟨rfl, hstops⟩ := steps_go ht hsucceeds
  simp only [hexec, Option.any_some, Bool.and_eq_true, decide_eq_true_eq] at hstops
  obtain ⟨hcode, rfl⟩ := hstops
  have hpassed := (hs.passed _ t ht (by rw [hcode]; rfl)).2
  rw [hcode] at hexec
  exact hpassed (attained_of_success hexec)

/-- No start bit becomes pending outside `handleWrite`. -/
theorem bit_goes (hok : HomingHeld h s i env t)
    (hlock : t.code.locks = true → s.writer = none) (hover : HomingOver (r :: h))
    (hmode : m.modeId = ModeId.homing) (threads : ℕ → Option Thread) :
    (⟨⟨m, threads⟩, s.writer⟩ : WritingSystem).startPending = false := by
  have hpending : s.startPending = false →
      (⟨⟨m, threads⟩, s.writer⟩ : WritingSystem).startPending = false := by
    intro hbefore
    cases hwriter : s.writer with
    | none => rfl
    | some w =>
        have hfree : t.code.locks = false :=
          eq_false_of_ne_true fun hlocks => by simp [hlock hlocks] at hwriter
        rw [WritingSystem.startPending, hwriter] at hbefore
        rw [WritingSystem.startPending]
        simp only
        rw [controlWord_of_unlocked (effect_of_exec hexec) hfree]
        exact hbefore
  rcases homingOver_cons hover with ⟨hbefore, -⟩ | ⟨k, hleaves, hothers⟩
  · rcases modeId_of_exec hexec hmode with hsame | ⟨⟨sw, hcode⟩, hshows⟩
    · exact hpending (hs.bit hbefore hsame)
    · exact hpending (hok.display sw hcode hshows hbefore)
  · subst hr
    obtain ⟨rfl, hout⟩ := steps_go ht hleaves
    rcases modeId_of_exec hexec hmode with hsame | ⟨⟨sw, hcode⟩, -⟩
    · exact hpending (hok.leave ⟨hleaves, hothers⟩ hsame)
    · simp [hcode, Code.homes] at hout

end Goes

/-- A step outside `handleWrite` keeps the invariant. -/
theorem goes (hs : Homes h s) (hlinked : Linked (said h) s.toMotorSystem)
    (ht : s.threads i = some t) (hcode : t.code ≠ .write)
    (hlock : t.code.locks = true → s.writer = none) (hok : HomingHeld h s i env t)
    (hexec : s.motor.exec env t.code = some (m, next, es)) :
    Homes (⟨s, .go i env, (t.after next).2 ++ es⟩ :: h)
      ⟨⟨m, Function.update s.threads i (t.after next).1⟩, s.writer⟩ where
  kind := hs.kind.of_effect (effect_of_exec hexec)
  passed _ _ ht' := hs.passed_goes ht hexec rfl hok ht'
  executing := hs.executing_goes ht hexec rfl hlinked
  idle hover _ _ ht' := hs.over_goes ht hexec rfl hover ht'
  bit hover hmode := hs.bit_goes ht hexec rfl hok hlock hover hmode _
  real := hs.real.cons fun _ => hs.real_goes ht hexec rfl
  ends := hs.ends.cons fun _ => ends_goes hcode hexec

/-- The thread that is in `handleWrite` is in no other call. -/
theorem steps_write (ht : s.threads i = some t) (hcode : t.code = .write) :
    ∀ j p, WritingRecord.steps j p ⟨s, .go i env, es⟩ = true → ∃ s env, p s env .write = true := by
  intro j p hsteps
  obtain ⟨-, hp⟩ := steps_go ht hsteps
  exact ⟨s, env, hcode ▸ hp⟩

/-- **What is pending after a step of `handleWrite`** is no start bit, once homing is over. -/
theorem bit_write (hs : Homes h s) (hlinked : Linked (said h) s.toMotorSystem)
    (hpending : Pending h s) (hcode : t.code = .write) (hok : HomingHeld h s i env t)
    {code code' : WriteCode} (hturn : s.turn i = some code)
    (heffect : WriteEffect s.motor env code m (.goto code') es) (hover : HomingOver h)
    (hmode : m.modeId = ModeId.homing) (threads : ℕ → Option Thread) :
    (⟨⟨m, threads⟩, some (i, code')⟩ : WritingSystem).startPending = false := by
  refine eq_false_of_ne_true fun hstart => ?_
  obtain ⟨hstream, hbit⟩ := Bool.and_eq_true_iff.mp hstart
  obtain rfl : code' = .stream := of_decide_eq_true hstream
  rcases startBit_of_writeEffect heffect hmode (fun mode => hs.kind.eq) hbit with
    ⟨hselected, hexecute⟩ | ⟨rfl, hstate, hmode', hbit'⟩
  · rcases hs.executing hexecute with ⟨j, t', ht', hhomes⟩ | hnot
    · exact absurd ((hs.idle hover j t' ht').symm.trans hhomes) (by simp)
    · exact hnot (hlinked.selected _ hselected)
  · have hwriter : s.writer = none := by
      cases hwriter : s.writer with
      | none => rfl
      | some w =>
          rw [WritingSystem.turn, hwriter] at hturn
          simp only at hturn
          split at hturn
          · obtain ⟨j, code⟩ := w
            obtain rfl : code = .test := Option.some.inj hturn
            cases hpending.rests j .test hwriter
          · contradiction
    exact absurd ((hok.write hcode hwriter hover hstate hmode').symm.trans hbit') (by simp)

/-- `handleWrite` streams no start bit, once homing is over. -/
theorem carries_write (hs : Homes h s) {code : WriteCode} {next : WriteNext}
    (reports : List MotorEvent) (hreports : ∀ e ∈ reports, e.writes = false)
    (hturn : s.turn i = some code) (heffect : WriteEffect s.motor env code m next es)
    (hover : HomingOver h) : WritingRecord.carriesStart ⟨s, .go i env, reports ++ es⟩ = false := by
  refine eq_false_of_ne_true fun hcarries => ?_
  obtain ⟨hmode, hany⟩ := Bool.and_eq_true_iff.mp hcarries
  obtain ⟨e, he, hcw⟩ := List.any_eq_true.mp hany
  cases e with
  | controlWord index cw =>
      have hmem : .controlWord index cw ∈ es :=
        (List.mem_append.mp he).resolve_left fun hreport =>
          absurd (hreports _ hreport) (by simp [MotorEvent.writes])
      cases heffect with
      | asked _ _ _ hnext =>
          rcases hnext with ⟨-, rfl⟩ | ⟨-, rfl⟩
          · obtain ⟨_, _, _, _, heq⟩ := mem_targetEvent hmem
            contradiction
          · contradiction
      | streamed =>
          obtain ⟨-, rfl⟩ := MotorEvent.controlWord.inj (List.mem_singleton.mp hmem)
          have hbit : s.motor.controlWord.getLsbD ControlWord.operationModeSpecific0 = true := by
            rw [← getLsbD_streamed_of_ne _ (by decide)]
            exact hcw
          have hidle := hs.bit hover (of_decide_eq_true hmode)
          rw [WritingSystem.startPending, writer_of_turn hturn (by simp), hbit] at hidle
          simp at hidle
      | _ => contradiction
  | _ => contradiction

/-- **Every step of real homing keeps the invariant.** -/
theorem writing (hs : Homes h s) (hlinked : Linked (said h) s.toMotorSystem)
    (hpending : Pending h s) {input : MotorStep} {s' : WritingSystem}
    (hok : homingHeld h s input) (hstep : Writing s input s' es) :
    Homes (⟨s, input, es⟩ :: h) s' := by
  cases hstep with
  | enters call hidle => exact hs.enters call hidle
  | goes ht hcode hlock hexec => exact hs.goes hlinked ht hcode hlock (hok _ ht) hexec
  | writes ht hcode hturn hwrite =>
      have heffect := effect_of_writeStep hwrite
      refine hs.quiet (kind_of_touched (heffect.touched _) hs.kind) (homing_of_writeEffect heffect)
        heffect.isSome (fun hmem => ?_) (fun j t _ => Iff.rfl) (steps_write ht hcode)
        (fun hover hmode => hs.bit_write hlinked hpending hcode (hok _ ht) hturn heffect hover
          hmode _) (hs.carries_write [] (by simp) hturn heffect)
      exact absurd (heffect.writes_of_mem hmem) (by simp [MotorEvent.writes])
  | @leaves i env t code m next es ht hcode hturn hwrite =>
      have heffect := effect_of_writeStep hwrite
      have hreports : ∀ e ∈ (t.after next).2, e.writes = false := by
        intro e he
        rcases reports_of_after he with ⟨ok, rfl⟩ | rfl <;> rfl
      have hout : next.homes = false := by
        rcases heffect.leave_cases rfl with rfl | rfl <;> rfl
      refine hs.quiet (kind_of_touched (heffect.touched _) hs.kind) (homing_of_writeEffect heffect)
        heffect.isSome (fun hmem => ?_) (fun j t' hhomes => ?_) (steps_write ht hcode)
        (fun _ _ => rfl) (hs.carries_write _ hreports hturn heffect)
      · rcases List.mem_append.mp hmem with hmem | hmem
        · rcases reports_of_after hmem with ⟨ok, heq⟩ | heq <;> contradiction
        · exact absurd (heffect.writes_of_mem hmem) (by simp [MotorEvent.writes])
      · by_cases hj : j = i
        · subst hj
          refine ⟨fun hafter => ?_, fun hthread => ?_⟩
          · rw [homes_after (by simpa using hafter), hout] at hhomes
            contradiction
          · obtain rfl := Option.some.inj (ht.symm.trans hthread)
            rw [hcode] at hhomes
            contradiction
        · rw [Function.update_of_ne hj]

/-- The invariant along every run of real homing. -/
theorem of_reach (hr : Reach WritingSystem.system.recorded homingHeld h s) : Homes h s := by
  induction hr with
  | @init s hinit =>
      obtain ⟨⟨-, hmodes, -, hthreads⟩, hwriter⟩ := hinit
      have hhoming : s.motor.homing = (false, 0) := by rw [homing_eq, hmodes]; rfl
      exact
        { kind := by simp [HomingKind, hmodes]
          passed := by simp [hthreads]
          executing := by simp [hhoming]
          idle := by simp [hthreads]
          bit := by simp [WritingSystem.startPending, hwriter]
          real := historically_nil
          ends := historically_nil }
  | step hr hok hstep ih =>
      obtain ⟨hpending, -, hlinked⟩ := Pending.of_reach hr
      obtain ⟨es, hemits, rfl⟩ := System.recorded_step hstep
      exact ih.writing hlinked hpending hok (writing_of_step hemits)

end Homes

/-- **Homing is real, and ends, along every run of real homing.**  A success of
`executeHoming` comes after a start bit streamed in the same call and a status word read
after that which says so; once homing is over no start bit is streamed. -/
theorem homing_real_of_held {h : List WritingRecord} {s : WritingSystem}
    (hr : Reach WritingSystem.system.recorded homingHeld h s) : HomingReal h ∧ HomingEnds h :=
  ⟨(Homes.of_reach hr).real, (Homes.of_reach hr).ends⟩

/-! ## Two runs of `executeHoming` -/

/-- An enabled drive that displays homing, with these status bits. -/
def Env.homing (statusWord : Word) : Env :=
  { Env.answering statusWord 6 32 with homingMethod := 35 }

/-- `handleInit` up to `executeHoming`. -/
def MotorStep.initHoming : List MotorStep := MotorStep.calls 1 .handleInit 22 (.homing 0x27)

/-- The start bit has been streamed since any thread has called `executeHoming`. -/
def startSent (h : List WritingRecord) : Bool :=
  since (fun r => !r.point fun _ _ code => decide (code = .homingMethod))
    (fun r => !(r.point fun _ _ code => decide (code = .homingMethod)) && r.carriesStart) h

/-- No thread has left `executeHoming`. -/
def noneLeft (h : List WritingRecord) : Bool :=
  h.all fun r => !r.point fun s env code => (decide (code = .homingMethod) || code.homes) &&
    (s.motor.exec env code).any fun (_, next, _) => !next.homes

/-- A step of real homing, before any thread has left it. -/
def holdsHoming (h : List WritingRecord) (s : WritingSystem) : MotorStep → Bool
  | .enter _ _ => true
  | .go i _ => (s.threads i).all fun t =>
      (decide (t.code ≠ .homingPrepare) || !attained s.motor.homing.2) &&
        (match t.code with
          | .readMode sw => !attained sw || startSent h
          | _ => true) &&
        noneLeft h && (!(decide (t.code = .homingMethod) || t.code.homes) || !s.startPending)

theorem startStreamed_of_startSent {h : List WritingRecord} (hsent : startSent h = true) (i : ℕ) :
    startStreamed i h = true := by
  have hnone : ∀ r : WritingRecord, (!r.point fun _ _ code => decide (code = .homingMethod)) =
      true → (!r.beginsHoming i) = true := by
    intro r hr
    have hout : (r.point fun _ _ code => decide (code = .homingMethod)) = false := by
      simpa using hr
    rw [WritingRecord.beginsHoming, WritingRecord.steps, hout, Bool.and_false, Bool.not_false]
  refine since_mono hnone (fun r hr => ?_) hsent
  obtain ⟨hr, hcarries⟩ := Bool.and_eq_true_iff.mp hr
  rw [hnone r hr, hcarries, Bool.and_self]

theorem not_over_of_noneLeft {h : List WritingRecord} (hnone : noneLeft h = true) :
    ¬ HomingOver h := by
  rintro ⟨new, left, old, i, rfl, ⟨hleaves, -⟩, -⟩
  have hout := List.all_eq_true.mp hnone left (by simp)
  rw [(Bool.and_eq_true_iff.mp hleaves).2] at hout
  contradiction

theorem homingHeld_of_holdsHoming {h : List WritingRecord} {s : WritingSystem} {i : MotorStep}
    (hcheck : holdsHoming h s i = true) : homingHeld h s i := by
  cases i with
  | enter i call => trivial
  | go i env =>
      intro t ht
      simp only [holdsHoming, ht, Option.all_some, Bool.and_eq_true] at hcheck
      obtain ⟨⟨⟨hprepare, hread⟩, hnone⟩, hleave⟩ := hcheck
      have hover := not_over_of_noneLeft hnone
      refine
        { prepare := fun hcode => by simpa [hcode] using hprepare
          read := fun sw hcode _ _ hattained j _ _ _ => ?_
          write := fun _ _ hnow => absurd hnow hover
          leave := fun hends _ => ?_
          display := fun _ _ _ hnow => absurd hnow hover }
      · rw [hcode] at hread
        exact startStreamed_of_startSent (by simpa [hattained] using hread) j
      · have hout := (Bool.and_eq_true_iff.mp (steps_go ht hends.1).2).1
        rw [hout] at hleave
        simpa using hleave

/-- The drive is found standing, starts homing, and attains the home position.  Another thread
reads between the asking and the streaming. -/
def MotorStep.homes : List MotorStep :=
  let poll (sw : Word) := MotorStep.calls 0 .handleRead 3 (.homing sw)
  MotorStep.initHoming ++ poll 0x0427 ++ [.go 1 (.homing 0)] ++
    MotorStep.calls 0 .handleWrite 2 (.homing 0) ++
    MotorStep.calls 2 .handleRead 3 (.homing 0x0427) ++ [.go 0 (.homing 0)] ++ poll 0x0027 ++
    [.go 1 (.homing 0)] ++ poll 0x1427 ++ List.replicate 2 (.go 1 (.homing 0))

/-- `executeHoming` succeeds, and homing is real. -/
theorem homing_real_init : ∃ (r : WritingRecord) (h : List WritingRecord),
    r.succeedsHoming 1 = true ∧ HomingReal (r :: h) ∧ HomingEnds (r :: h) := by
  have h0 : Reach WritingSystem.system.recorded homingHeld []
      ⟨.zeroed 0 [ModeId.homing], none⟩ :=
    .init ⟨MotorSystem.constructed_zeroed 0 _, rfl⟩
  have hsucceeds : (WritingSystem.system.recorded.runIf holdsHoming MotorStep.homes []
      ⟨.zeroed 0 [ModeId.homing], none⟩).any (fun (p : List WritingRecord × WritingSystem) =>
        p.1.head?.any (WritingRecord.succeedsHoming 1)) = true := by
    decide +kernel
  obtain ⟨h, s, hreach, hhead⟩ := System.exists_reach_runIf _ h0
    (fun _ _ _ hcheck => homingHeld_of_holdsHoming hcheck) hsucceeds
  obtain ⟨r, hr, hsuccess⟩ := (Option.any_eq_true _ _).mp hhead
  obtain ⟨old, rfl⟩ := List.head?_eq_some_iff.mp hr
  exact ⟨r, old, hsuccess, homing_real_of_held hreach⟩

/-- The drive still reports the home position of an earlier homing. -/
def MotorStep.homesStale : List MotorStep :=
  MotorStep.initHoming ++ MotorStep.calls 0 .handleRead 3 (.homing 0x1427) ++
    List.replicate 4 (.go 1 (.homing 0))

/-- `executeHoming` succeeds on what the drive has reported before, and no control word has
been streamed at all. -/
theorem not_homing_real : ∃ h s, Reach WritingSystem.system.recorded Guard.free h s ∧
    ¬ (HomingReal h ∧ HomingEnds h) := by
  have h0 : Reach WritingSystem.system.recorded Guard.free []
      ⟨.zeroed 0 [ModeId.homing], none⟩ :=
    .init ⟨MotorSystem.constructed_zeroed 0 _, rfl⟩
  have hstale : (WritingSystem.system.recorded.run MotorStep.homesStale []
      ⟨.zeroed 0 [ModeId.homing], none⟩).any (fun (p : List WritingRecord × WritingSystem) =>
        p.1.head?.any (WritingRecord.succeedsHoming 1) &&
          !readAfterStart 1 attained p.1.tail) = true := by
    decide +kernel
  obtain ⟨h, s, hreach, hhead⟩ := System.exists_reach_run _ h0 hstale
  obtain ⟨hsuccess, hread⟩ := Bool.and_eq_true_iff.mp hhead
  obtain ⟨r, hr, hsucceeds⟩ := (Option.any_eq_true _ _).mp hsuccess
  obtain ⟨old, rfl⟩ := List.head?_eq_some_iff.mp hr
  refine ⟨_, _, hreach, fun hreal => ?_⟩
  have hreads : readAfterStart 1 attained old = true := hreal.1 [] r old rfl 1 hsucceeds
  simp [hreads] at hread

end RosCanopen.Cia402
