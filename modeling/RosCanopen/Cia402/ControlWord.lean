import RosCanopen.Cia402.Motion
import RosCanopen.Lib.MaskedWrites

/-!
# The parts of the control word

One word is the output of the state machine, of the active mode and of the halt logic.  Each
writes its own bits: `setTransition` bits 0 to 3 and 7, the accessor of the modes bits 4, 5, 6
and 9, and `handleWrite` the halt bit, which it decides anew in every cycle.

## Main definitions

* `Mode.accesses` — what the write of a mode does through its accessor.
* `MotorRecord.op`, `MotorRecord.accesses` — what a step does to the word.
* `commanded`, `accessed` — the two parts of the word since its last reset.
* `Decomposed` — the word that a cycle streams, part by part.
-/

namespace RosCanopen.Cia402

open Lib

/-- The bits of `OpModeAccesser`. -/
def ControlWord.modeBits : List ℕ :=
  [operationModeSpecific0, operationModeSpecific1, operationModeSpecific2, operationModeSpecific3]

open OpModeAccesser in
/-- The writes of a mode through its accessor, in order. -/
def Mode.accesses (mode : Mode) (cw : Word) (driverOk : Bool) : List (MaskedWrite 16) :=
  match mode with
  | .forward spec helper =>
      if helper.hasTarget then [.assign (get cw ||| spec.cwMask)]
      else [.assign (get cw &&& ~~~spec.cwMask)]
  | .profiledPosition helper lastTarget sw =>
      .set ControlWord.operationModeSpecific1 ::
        if helper.hasTarget then
          let acknowledged := sw.getLsbD StatusWord.operationModeSpecific0
          if !acknowledged ∧ lastTarget ≠ .fin helper.target then
            if (set cw ControlWord.operationModeSpecific1).getLsbD
                ControlWord.operationModeSpecific0 then
              [.reset ControlWord.operationModeSpecific0]
            else if driverOk then [.set ControlWord.operationModeSpecific0]
            else []
          else if acknowledged then [.reset ControlWord.operationModeSpecific0]
          else []
        else []
  | .homing execute _ =>
      .assign 0 :: if execute then [.set ControlWord.operationModeSpecific0] else []

/-- The writes of `handleWrite` through the accessor, in order. -/
def Motor.accesses (m : Motor) (env : Env) : List (MaskedWrite 16) :=
  if m.state = .operationEnable then
    match m.activeMode with
    | some (_, mode) =>
        mode.accesses (overwrite 0 (bit ControlWord.halt) m.controlWord) env.driverOk
    | none => [.assign 0]
  else []

/-- The halt bit is to be released: the drive is enabled, and the mode that it displays is the
selected one and has something to do. -/
def Motor.moves (m : Motor) : Bool :=
  decide (m.state = .operationEnable) && m.activeMode.any fun p => p.2.armed

namespace Motor
variable (m : Motor)

/-- The call of `setTransition` at a program point: from where, to where, and what `next`
points to. -/
def transition : Code → Option (InternalState × InternalState × Option InternalState)
  | .stateTransit _ state => some (state, m.targetState, some .unknown)
  | .haltLocked .operationEnable => some (.operationEnable, .quickStopActive, none)
  | _ => none

/-- The `Op` of a call that returns true; there is none without a change of the state. -/
def op (code : Code) : Option Op :=
  (m.transition code).bind fun (src, dst, next) =>
    if src = dst then none else transitions src (hop src dst next)

/-- The writes through the accessor at a program point. -/
def accessesAt (env : Env) : Code → List (MaskedWrite 16)
  | .write => m.accesses env
  | _ => []

end Motor

namespace MotorRecord
variable (r : MotorRecord)

/-- The program point of the step. -/
def code : Option Code :=
  match r.input with
  | .enter _ _ => none
  | .go i _ => (r.state.threads i).map Thread.code

/-- `handleInit` resets the control word. -/
def resets : Bool := r.code = some .initArm

def transition : Option (InternalState × InternalState × Option InternalState) :=
  r.code.bind r.state.motor.transition

def op : Option Op := r.code.bind r.state.motor.op

def accesses : List (MaskedWrite 16) :=
  match r.input with
  | .enter _ _ => []
  | .go _ env => (r.code.map (r.state.motor.accessesAt env)).getD []

end MotorRecord

/-- The steps since the last reset, newest first. -/
def sinceReset (h : List MotorRecord) : List MotorRecord := h.takeWhile fun r => !r.resets

def wasReset (h : List MotorRecord) : Bool := h.any MotorRecord.resets

/-- The transitions since the reset, applied in order. -/
def commanded (h : List MotorRecord) : Word :=
  ((sinceReset h).filterMap MotorRecord.op).foldr Op.apply 0

/-- What has been written to a bit through the accessor last, since the reset. -/
def accessed (i : ℕ) (h : List MotorRecord) : Option Bool :=
  lastWritten i ((sinceReset h).reverse.flatMap MotorRecord.accesses)

/-- The word that a cycle streams, after the steps `h`. -/
structure Decomposed (h : List MotorRecord) (r : MotorRecord) (cw : Word) : Prop where
  /-- The transitions command it, and a pending fault reset is withheld. -/
  state : ∀ i ∈ ControlWord.stateBits, cw.getLsbD i =
    ((commanded h).getLsbD i &&
      !(decide (i = ControlWord.faultReset) && r.state.motor.startFaultReset))
  mode : ∀ i ∈ ControlWord.modeBits, cw.getLsbD i = (accessed i (r :: h)).getD false
  /-- No earlier word matters. -/
  halt : cw.getLsbD ControlWord.halt = !r.state.motor.moves
  unused : ∀ i, 10 ≤ i → cw.getLsbD i = false

/-! ## The accessor of the modes -/

theorem getLsbD_opModeMask_of_mem {i : ℕ} (hi : i ∈ ControlWord.modeBits) :
    opModeMask.getLsbD i = true := by
  revert i
  decide

theorem getLsbD_opModeMask_of_ge {i : ℕ} (hi : 10 ≤ i) : opModeMask.getLsbD i = false := by
  have h4 : (4 : ℕ) ≠ i := by omega
  have h5 : (5 : ℕ) ≠ i := by omega
  have h6 : (6 : ℕ) ≠ i := by omega
  have h9 : (9 : ℕ) ≠ i := by omega
  simp [opModeMask, h4, h5, h6, h9]

namespace Mode
variable (channelOffset : BitVec 16) (mode : Mode) (cw : Word) (driverOk : Bool)

/-- The accessor is all that a mode writes the control word with. -/
theorem write_cw : (mode.write channelOffset cw driverOk).cw =
    applyAll opModeMask (mode.accesses cw driverOk) cw := by
  cases mode with
  | forward spec helper =>
      simp only [write, writeForward, accesses]
      cases helper.hasTarget with
      | false => rfl
      | true => cases driverOk <;> rfl
  | profiledPosition helper lastTarget sw =>
      simp only [write, writeProfiledPosition, accesses]
      cases helper.hasTarget with
      | false => rfl
      | true =>
          simp only [if_true]
          split
          · split
            · rfl
            · cases driverOk <;> rfl
          · split <;> rfl
  | homing execute status => cases execute <;> rfl

/-- A write that does not throw succeeds if and only if there is something to do. -/
theorem okay_write (hthrew : (mode.write channelOffset cw driverOk).threw = false) :
    (mode.write channelOffset cw driverOk).okay = mode.armed := by
  revert hthrew
  cases mode with
  | forward spec helper =>
      simp only [write, writeForward, armed]
      cases helper.hasTarget with
      | false => exact fun _ => rfl
      | true =>
          cases driverOk with
          | false => simp
          | true => exact fun _ => rfl
  | profiledPosition helper lastTarget sw =>
      simp only [write, writeProfiledPosition, armed]
      cases helper.hasTarget with
      | false => exact fun _ => rfl
      | true =>
          simp only [if_true]
          split
          · split
            · exact fun _ => rfl
            · cases driverOk with
              | false => simp
              | true => exact fun _ => rfl
          · split <;> exact fun _ => rfl
  | homing execute status => cases execute <;> exact fun _ => rfl

end Mode

/-! ## The cycle of writing -/

section Write
variable {m : Motor} {env : Env} {i : ℕ} {id : ModeId} {mode : Mode}

theorem controlWord_finishWrite (m : Motor) (env : Env) (w : Option (ModeId × ModeWrite)) :
    (m.finishWrite env w).1.controlWord = m.controlWord := by
  rcases finishWrite_motor m env w with hm | hm <;> rw [hm]

/-- The word with its halt bit set, which a cycle begins with. -/
def Motor.halted (m : Motor) : Word := overwrite 0 (bit ControlWord.halt) m.controlWord

theorem handleWrite_of_active (hstate : m.state = .operationEnable)
    (hactive : m.activeMode = some (id, mode)) : m.handleWrite env =
      Motor.finishWrite { m.setMode id (m.modeWrite mode env).mode with
        controlWord := if (m.modeWrite mode env).okay then
            overwrite (bit ControlWord.halt) 0 (m.modeWrite mode env).cw
          else (m.modeWrite mode env).cw } env (some (id, m.modeWrite mode env)) := by
  rw [Motor.handleWrite, if_pos hstate, hactive]
  rfl

theorem handleWrite_of_inactive (hstate : m.state = .operationEnable)
    (hactive : m.activeMode = none) : m.handleWrite env =
      Motor.finishWrite { m with controlWord := OpModeAccesser.assign m.halted 0 } env none := by
  rw [Motor.handleWrite, if_pos hstate, hactive]
  rfl

theorem handleWrite_of_disabled (hstate : m.state ≠ .operationEnable) : m.handleWrite env =
    Motor.finishWrite { m with controlWord := m.halted } env none := by
  rw [Motor.handleWrite, if_neg hstate]
  rfl

theorem accesses_of_active (hstate : m.state = .operationEnable)
    (hactive : m.activeMode = some (id, mode)) :
    m.accesses env = mode.accesses m.halted env.driverOk := by
  rw [Motor.accesses, if_pos hstate, hactive]
  rfl

theorem accesses_of_inactive (hstate : m.state = .operationEnable)
    (hactive : m.activeMode = none) : m.accesses env = [.assign 0] := by
  rw [Motor.accesses, if_pos hstate, hactive]

theorem accesses_of_disabled (hstate : m.state ≠ .operationEnable) : m.accesses env = [] :=
  if_neg hstate

/-- The word of the mode that has been asked. -/
theorem cw_modeWrite (m : Motor) (mode : Mode) (env : Env) : (m.modeWrite mode env).cw =
    applyAll opModeMask (mode.accesses m.halted env.driverOk) m.halted :=
  mode.write_cw m.channelOffset m.halted env.driverOk

theorem getLsbD_halted (m : Motor) (hi : i ≠ ControlWord.halt) :
    m.halted.getLsbD i = m.controlWord.getLsbD i := by
  simp [Motor.halted, Ne.symm hi]

theorem getLsbD_halt_halted (m : Motor) : m.halted.getLsbD ControlWord.halt = true := by
  simp [Motor.halted, ControlWord.halt]

/-- But for the halt bit, a cycle writes through the accessor only. -/
theorem getLsbD_handleWrite (m : Motor) (env : Env) (hi : i ≠ ControlWord.halt) :
    (m.handleWrite env).1.controlWord.getLsbD i =
      (applyAll opModeMask (m.accesses env) m.halted).getLsbD i := by
  by_cases hstate : m.state = .operationEnable
  · cases hactive : m.activeMode with
    | none =>
        rw [handleWrite_of_inactive hstate hactive, accesses_of_inactive hstate hactive,
          controlWord_finishWrite]
        rfl
    | some p =>
        rw [handleWrite_of_active hstate hactive, accesses_of_active hstate hactive,
          controlWord_finishWrite, ← cw_modeWrite]
        by_cases hokay : (m.modeWrite p.2 env).okay = true
        · simp only [if_pos hokay]
          simp [Ne.symm hi]
        · simp only [if_neg hokay]
  · rw [handleWrite_of_disabled hstate, accesses_of_disabled hstate, controlWord_finishWrite]
    rfl

theorem getLsbD_handleWrite_of_mem (m : Motor) (env : Env) (hi : i ∈ ControlWord.modeBits) :
    (m.handleWrite env).1.controlWord.getLsbD i =
      (lastWritten i (m.accesses env)).getD (m.controlWord.getLsbD i) := by
  have hhalt : i ≠ ControlWord.halt := by
    intro heq
    rw [heq] at hi
    exact absurd hi (by decide)
  rw [getLsbD_handleWrite m env hhalt, getLsbD_applyAll (getLsbD_opModeMask_of_mem hi),
    getLsbD_halted m hhalt]

theorem getLsbD_handleWrite_of_outside (m : Motor) (env : Env) (hi : opModeMask.getLsbD i = false)
    (hhalt : i ≠ ControlWord.halt) :
    (m.handleWrite env).1.controlWord.getLsbD i = m.controlWord.getLsbD i := by
  rw [getLsbD_handleWrite m env hhalt, getLsbD_applyAll_of_outside hi, getLsbD_halted m hhalt]

/-- The word that is streamed is the one of the motor, after a write that has not thrown. -/
theorem streamed_of_mem {index : BitVec 16} {cw : Word} {w : Option (ModeId × ModeWrite)}
    (h : .controlWord index cw ∈ (m.finishWrite env w).2.2) :
    cw = m.streamed ∧ ∀ p, w = some p → p.2.threw = false := by
  constructor
  · rcases mem_finishWrite h with hcw | ⟨id, r, -, htarget⟩
    · exact (MotorEvent.controlWord.inj hcw).2
    · obtain ⟨_, _, _, _, heq⟩ := mem_targetEvent htarget
      cases heq
  · intro p hp
    rw [hp] at h
    by_contra hthrew
    rw [Bool.not_eq_false] at hthrew
    simp [Motor.finishWrite, hthrew] at h

theorem getLsbD_of_streamed {index : BitVec 16} {cw : Word}
    (h : .controlWord index cw ∈ (m.handleWrite env).2.2) (i : ℕ) : cw.getLsbD i =
      ((m.handleWrite env).1.controlWord.getLsbD i &&
        !(m.startFaultReset && decide (i = ControlWord.faultReset))) := by
  obtain ⟨m', w, hw, heq⟩ := exists_wrote m env
  have hreset : m'.startFaultReset = m.startFaultReset := by
    cases hw <;> rfl
  rw [heq] at h ⊢
  rw [(streamed_of_mem h).1, getLsbD_streamed, controlWord_finishWrite, hreset]

/-- **The halt bit** does not depend on the word before the cycle. -/
theorem halt_of_streamed {index : BitVec 16} {cw : Word}
    (h : .controlWord index cw ∈ (m.handleWrite env).2.2) :
    cw.getLsbD ControlWord.halt = !m.moves := by
  have hhalt : cw.getLsbD ControlWord.halt =
      (m.handleWrite env).1.controlWord.getLsbD ControlWord.halt := by
    rw [getLsbD_of_streamed h]
    simp [ControlWord.halt, ControlWord.faultReset]
  have hmask : opModeMask.getLsbD ControlWord.halt = false := by
    decide
  rw [hhalt]
  by_cases hstate : m.state = .operationEnable
  · cases hactive : m.activeMode with
    | none =>
        rw [handleWrite_of_inactive hstate hactive, controlWord_finishWrite]
        have hkept := OpModeAccesser.agreeOn_assign m.halted 0 ControlWord.halt (by decide)
        rw [hkept, getLsbD_halt_halted, Motor.moves, hactive]
        simp
    | some p =>
        rw [handleWrite_of_active hstate hactive] at h ⊢
        rw [controlWord_finishWrite]
        have hthrew := (streamed_of_mem h).2 _ rfl
        have hokay : (m.modeWrite p.2 env).okay = p.2.armed := p.2.okay_write _ _ _ hthrew
        have hkept : (m.modeWrite p.2 env).cw.getLsbD ControlWord.halt = true := by
          rw [cw_modeWrite, getLsbD_applyAll_of_outside hmask, getLsbD_halt_halted]
        simp only [hokay, Motor.moves, hactive, Option.any_some, hstate, decide_true,
          Bool.true_and]
        cases p.2.armed with
        | false => simpa using hkept
        | true => simp [ControlWord.halt]
  · rw [handleWrite_of_disabled hstate, controlWord_finishWrite]
    simp [getLsbD_halt_halted, Motor.moves, hstate]

end Write

/-! ## The transitions -/

section Transitions
variable {src dst : InternalState} {next : Option InternalState} {op : Op} {cw cw' : Word} {i : ℕ}

theorem getLsbD_op_apply (op : Op) (cw : Word) (i : ℕ) : (op.apply cw).getLsbD i =
    ((cw.getLsbD i && !op.toReset.getLsbD i) || op.toSet.getLsbD i) :=
  getLsbD_overwrite _ _ _ _

/-- A transition reads and writes its own bits. -/
theorem agreeOn_apply (op : Op) {bits : List ℕ} (h : AgreeOn bits cw cw') :
    AgreeOn bits (op.apply cw) (op.apply cw') := by
  intro i hi
  rw [getLsbD_op_apply, getLsbD_op_apply, h i hi]

/-- No transition of the table has another bit than those of the state machine. -/
theorem getLsbD_transitions (hop : transitions src dst = some op)
    (hi : i ∉ ControlWord.stateBits) :
    op.toSet.getLsbD i = false ∧ op.toReset.getLsbD i = false := by
  simp only [ControlWord.stateBits, List.mem_cons, List.not_mem_nil, or_false, not_or] at hi
  obtain ⟨h0, h1, h2, h3, h7⟩ := hi
  cases src <;> cases dst <;> simp only [transitions, Option.some.injEq, reduceCtorEq] at hop <;>
    subst hop <;>
    simp [Op.disableVoltage, Op.automatic, Op.shutdown, Op.switchOn, Op.enableOperation,
      Op.quickstop, Op.faultReset, Ne.symm h0, Ne.symm h1, Ne.symm h2, Ne.symm h3, Ne.symm h7]

/-- `setTransition` applies the `Op` of the table, if it returns true. -/
theorem setTransition_word (cw : Word) (src dst : InternalState) (next : Option InternalState) :
    (setTransition cw src dst next).2.1 =
      ((if src = dst then none else transitions src (hop src dst next)).elim cw
        fun op => op.apply cw) := by
  unfold setTransition
  by_cases hsame : src = dst
  · rw [if_pos hsame, if_pos hsame]
    rfl
  · rw [if_neg hsame, if_neg hsame]
    cases transitions src (hop src dst next) <;> rfl

/-- A call that returns false leaves the word alone. -/
theorem setTransition_refused (h : (setTransition cw src dst next).1 = false) :
    (setTransition cw src dst next).2.1 = cw := by
  unfold setTransition at h ⊢
  by_cases hsame : src = dst
  · rw [if_pos hsame]
  · rw [if_neg hsame] at h ⊢
    cases hop : transitions src (hop src dst next) with
    | none => rfl
    | some op => simp [hop] at h

end Transitions

/-! ## Steps -/

/-- What a step that does not reset the word does to its parts. -/
structure Updates (op : Option Op) (ops : List (MaskedWrite 16)) (cw cw' : Word) : Prop where
  state : AgreeOn ControlWord.stateBits cw' (op.elim cw fun op => op.apply cw)
  mode : ∀ i ∈ ControlWord.modeBits, cw'.getLsbD i = (lastWritten i ops).getD (cw.getLsbD i)
  unused : ∀ i, 10 ≤ i → cw'.getLsbD i = cw.getLsbD i

theorem not_mem_stateBits_of_modeBits {i : ℕ} (hi : i ∈ ControlWord.modeBits) :
    i ∉ ControlWord.stateBits := by
  revert i
  decide

theorem not_mem_stateBits_of_ge {i : ℕ} (hi : 10 ≤ i) : i ∉ ControlWord.stateBits := by
  intro hmem
  have hsmall : ∀ j ∈ ControlWord.stateBits, j < 10 := by decide
  exact absurd (hsmall i hmem) (by omega)

section Updates
variable {cw : Word}

theorem Updates.refl (cw : Word) : Updates none [] cw cw where
  state := .refl _ _
  mode _ _ := rfl
  unused _ _ := rfl

/-- A call of `setTransition`. -/
theorem Updates.transition (cw : Word) (src dst : InternalState) (next : Option InternalState) :
    Updates (if src = dst then none else transitions src (hop src dst next)) [] cw
      (setTransition cw src dst next).2.1 := by
  rw [setTransition_word]
  cases hop : (if src = dst then none else transitions src (hop src dst next)) with
  | none => exact .refl cw
  | some op =>
      have htable : ∃ dst, transitions src dst = some op := by
        by_cases hsame : src = dst
        · simp [hsame] at hop
        · rw [if_neg hsame] at hop
          exact ⟨_, hop⟩
      obtain ⟨dst', htransition⟩ := htable
      have hother : ∀ i, i ∉ ControlWord.stateBits → (op.apply cw).getLsbD i = cw.getLsbD i := by
        intro i hi
        obtain ⟨hset, hreset⟩ := getLsbD_transitions htransition hi
        rw [getLsbD_op_apply, hset, hreset]
        simp
      constructor
      · exact .refl _ _
      · intro i hi
        exact hother i (not_mem_stateBits_of_modeBits hi)
      · intro i hi
        exact hother i (not_mem_stateBits_of_ge hi)

/-- A cycle of writing. -/
theorem Updates.handleWrite (m : Motor) (env : Env) :
    Updates none (m.accesses env) m.controlWord (m.handleWrite env).1.controlWord := by
  constructor
  · intro i hi
    have hmask : opModeMask.getLsbD i = false :=
      OpModeAccesser.getLsbD_opModeMask (List.mem_cons_of_mem _ hi)
    refine getLsbD_handleWrite_of_outside m env hmask fun heq => ?_
    rw [heq] at hi
    exact absurd hi (by decide)
  · exact fun i hi => getLsbD_handleWrite_of_mem m env hi
  · intro i hi
    refine getLsbD_handleWrite_of_outside m env (getLsbD_opModeMask_of_ge hi) ?_
    simp only [ControlWord.halt]
    omega

end Updates

section Steps
variable {m m' : Motor} {env : Env} {code : Code} {next : Next} {es : List MotorEvent}

/-- Four program points write the control word. -/
theorem controlWord_of_effect (heffect : Effect m env code m' next es) (hwrite : code ≠ .write)
    (hinit : code ≠ .initArm) (htransit : ∀ target state, code ≠ .stateTransit target state)
    (hhalt : code ≠ .haltLocked .operationEnable) : m'.controlWord = m.controlWord := by
  cases heffect with
  | wrote => exact absurd rfl hwrite
  | armed => exact absurd rfl hinit
  | transited target state => exact absurd rfl (htransit target state)
  | haltQuick => exact absurd rfl hhalt
  | displayed sw mode =>
      obtain ⟨modes, hm⟩ := readSelected_motor m mode sw
      simp only [hm]
  | targeted val =>
      obtain ⟨modes, hm⟩ := setSelectedTarget_motor m val
      rw [hm]
  | started mode =>
      obtain ⟨modes, hm⟩ := startMode_motor m mode
      rw [hm]
  | _ => rfl

theorem controlWord_of_initArm (hexec : m.exec env .initArm = some (m', next, es)) :
    m'.controlWord = 0 := by
  cases hexec
  rfl

/-- A call of `setTransition` is all that its step does to the word. -/
theorem controlWord_of_transition {src dst : InternalState} {next' : Option InternalState}
    (hexec : m.exec env code = some (m', next, es))
    (htransition : m.transition code = some (src, dst, next')) :
    m'.controlWord = (setTransition m.controlWord src dst next').2.1 := by
  cases code with
  | stateTransit target state =>
      cases htransition
      simp only [Motor.exec] at hexec
      split at hexec
      · next hset =>
          cases hexec
          rw [hset]
      · next hset =>
          cases hexec
          rw [hset]
  | haltLocked state =>
      cases state with
      | operationEnable =>
          cases htransition
          cases hexec
          rfl
      | _ => cases htransition
  | _ => cases htransition

/-- **A program point** updates the parts of the word by its transition and its accesses. -/
theorem updates_of_exec (hexec : m.exec env code = some (m', next, es)) (hinit : code ≠ .initArm) :
    Updates (m.op code) (m.accessesAt env code) m.controlWord m'.controlWord := by
  have hsame (hwrite : code ≠ .write) (htransit : ∀ target state, code ≠ .stateTransit target state)
      (hhalt : code ≠ .haltLocked .operationEnable) :
      Updates none [] m.controlWord m'.controlWord := by
    rw [controlWord_of_effect (effect_of_exec hexec) hwrite hinit htransit hhalt]
    exact .refl _
  cases code with
  | write =>
      obtain ⟨hm, -, -⟩ := step_inj hexec
      have hword : (m.handleWrite env).1.controlWord = m'.controlWord := congrArg _ hm
      rw [← hword]
      exact .handleWrite m env
  | stateTransit target state =>
      rw [controlWord_of_transition hexec rfl]
      exact .transition m.controlWord state m.targetState (some .unknown)
  | haltLocked state =>
      cases state with
      | operationEnable =>
          rw [controlWord_of_transition hexec rfl]
          exact .transition m.controlWord .operationEnable .quickStopActive none
      | _ => exact hsame (by simp) (by simp) (by simp)
  | _ => exact hsame (by simp) (by simp) (by simp)

end Steps

namespace MotorRecord
variable {s s' : MotorSystem} {i : MotorStep} {es : List MotorEvent}

/-- A step resets the word, or updates its parts as the record says. -/
theorem updates_of_stepped (hstep : Stepped s i s' es) :
    if resets ⟨s, i, es⟩ then s'.motor.controlWord = 0
    else Updates (op ⟨s, i, es⟩) (accesses ⟨s, i, es⟩) s.motor.controlWord
      s'.motor.controlWord := by
  cases hstep with
  | enters call hidle => exact .refl _
  | @goes j env t m next es ht hexec =>
      have hcode : code ⟨s, .go j env, (t.after next).2 ++ es⟩ = some t.code := by
        simp only [code, ht, Option.map_some]
      simp only [resets, op, accesses, hcode, Option.bind_some, Option.map_some, Option.getD_some,
        Option.some.injEq, decide_eq_true_eq]
      by_cases hinit : t.code = .initArm
      · rw [if_pos hinit]
        rw [hinit] at hexec
        exact controlWord_of_initArm hexec
      · rw [if_neg hinit]
        exact updates_of_exec hexec hinit

/-- A call of `setTransition` that returns false leaves the word alone. -/
theorem controlWord_of_refused (hstep : Stepped s i s' es) {src dst : InternalState}
    {next : Option InternalState} (hcall : transition ⟨s, i, es⟩ = some (src, dst, next))
    (hrefused : (setTransition s.motor.controlWord src dst next).1 = false) :
    s'.motor.controlWord = s.motor.controlWord := by
  cases hstep with
  | enters call hidle => cases hcall
  | @goes j env t m next' es ht hexec =>
      have hcode : s.motor.transition t.code = some (src, dst, next) := by
        simpa [transition, code, ht] using hcall
      exact (controlWord_of_transition hexec hcode).trans (setTransition_refused hrefused)

end MotorRecord

/-! ## Runs -/

section Runs
variable {h : List MotorRecord} {r : MotorRecord} {s s' : MotorSystem} {i : MotorStep}
  {es : List MotorEvent}

theorem sinceReset_cons (hr : r.resets = false) : sinceReset (r :: h) = r :: sinceReset h := by
  simp [sinceReset, hr]

theorem sinceReset_cons_of_resets (hr : r.resets = true) : sinceReset (r :: h) = [] := by
  simp [sinceReset, hr]

theorem commanded_cons (hr : r.resets = false) :
    commanded (r :: h) = r.op.elim (commanded h) fun op => op.apply (commanded h) := by
  unfold commanded
  rw [sinceReset_cons hr]
  cases hop : r.op <;> simp [hop]

theorem accessed_cons (hr : r.resets = false) (i : ℕ) :
    accessed i (r :: h) = (lastWritten i r.accesses).or (accessed i h) := by
  unfold accessed
  rw [sinceReset_cons hr, List.reverse_cons, List.flatMap_append, lastWritten_append]
  simp

/-- The parts of the word after the steps `h`. -/
structure Grouped (h : List MotorRecord) (cw : Word) : Prop where
  state : AgreeOn ControlWord.stateBits cw (commanded h)
  mode : ∀ i ∈ ControlWord.modeBits, cw.getLsbD i = (accessed i h).getD false
  unused : ∀ i, 10 ≤ i → cw.getLsbD i = false

theorem Grouped.reset (hr : r.resets = true) : Grouped (r :: h) 0 where
  state := by
    intro i hi
    rw [commanded, sinceReset_cons_of_resets hr]
    rfl
  mode i hi := by
    rw [accessed, sinceReset_cons_of_resets hr]
    simp
  unused i hi := by simp

/-- An update of the word and the record of it. -/
theorem Grouped.updates {cw cw' : Word} (hword : Grouped h cw) (hr : r.resets = false)
    (hupdates : Updates r.op r.accesses cw cw') : Grouped (r :: h) cw' where
  state := by
    rw [commanded_cons hr]
    refine hupdates.state.trans ?_
    cases r.op with
    | none => exact hword.state
    | some op => exact agreeOn_apply op hword.state
  mode i hi := by
    rw [hupdates.mode i hi, hword.mode i hi, accessed_cons hr]
    cases lastWritten i r.accesses <;> rfl
  unused i hi := (hupdates.unused i hi).trans (hword.unused i hi)

theorem wasReset_cons : wasReset (r :: h) = (r.resets || wasReset h) := rfl

/-- **What a step preserves**, once the word has been reset. -/
theorem grouped_of_stepped (hs : wasReset h = true → Grouped h s.motor.controlWord)
    (hstep : Stepped s i s' es) (hreset : wasReset (⟨s, i, es⟩ :: h) = true) :
    Grouped (⟨s, i, es⟩ :: h) s'.motor.controlWord := by
  have hupdates := MotorRecord.updates_of_stepped hstep
  cases hr : MotorRecord.resets ⟨s, i, es⟩ with
  | true =>
      rw [hr, if_pos rfl] at hupdates
      rw [hupdates]
      exact .reset hr
  | false =>
      rw [hr, if_neg (by simp)] at hupdates
      rw [wasReset_cons, hr, Bool.false_or] at hreset
      exact (hs hreset).updates hr hupdates

/-- The word that is streamed in a step. -/
theorem decomposed_of_stepped (hs : wasReset h = true → Grouped h s.motor.controlWord)
    (hreset : wasReset h = true) (hstep : Stepped s i s' es) {index : BitVec 16} {cw : Word}
    (hcw : .controlWord index cw ∈ es) : Decomposed h ⟨s, i, es⟩ cw := by
  cases hstep with
  | enters call hidle => simp at hcw
  | @goes j env t m next es ht hexec =>
      obtain ⟨hcode, -, hmem⟩ := mem_handleWrite_of_writes hexec hcw rfl
      have hpoint : MotorRecord.code ⟨s, .go j env, (t.after next).2 ++ es⟩ = some .write := by
        simp only [MotorRecord.code, ht, Option.map_some, hcode]
      have hword := hs hreset
      have hupdates := Updates.handleWrite s.motor env
      constructor
      · intro i hi
        have hbit : (s.motor.handleWrite env).1.controlWord.getLsbD i =
            (commanded h).getLsbD i := (hupdates.state i hi).trans (hword.state i hi)
        rw [getLsbD_of_streamed hmem, hbit, Bool.and_comm (decide _)]
      · intro i hi
        have hstate : i ≠ ControlWord.faultReset := by
          intro heq
          rw [heq] at hi
          exact absurd hi (by decide)
        rw [getLsbD_of_streamed hmem, hupdates.mode i hi, hword.mode i hi,
          accessed_cons (by simp [MotorRecord.resets, hpoint])]
        simp only [MotorRecord.accesses, hpoint, Option.map_some, Option.getD_some,
          Motor.accessesAt, decide_eq_false hstate]
        cases lastWritten i (s.motor.accesses env) <;> simp
      · exact halt_of_streamed hmem
      · intro i hi
        rw [getLsbD_of_streamed hmem, hupdates.unused i hi, hword.unused i hi, Bool.false_and]

theorem runs_of_reach (hr : Reach MotorSystem.system.recorded Guard.free h s) :
    (wasReset h = true → Grouped h s.motor.controlWord) ∧
      Historically (fun r old => wasReset old = true → ∀ index cw,
        .controlWord index cw ∈ r.events → Decomposed old r cw) h := by
  induction hr with
  | init hs => exact ⟨fun hreset => by simp [wasReset] at hreset, historically_nil⟩
  | step _ _ hstep ih =>
      obtain ⟨es, hemits, rfl⟩ := System.recorded_step hstep
      have hstepped := stepped_of_step hemits
      refine ⟨grouped_of_stepped ih.1 hstepped, ih.2.cons fun hreset index cw hcw => ?_⟩
      exact decomposed_of_stepped ih.1 hreset hstepped hcw

end Runs

/-- **The control word, part by part.**  In every run, every word that is streamed after
`handleInit` has reset it is decomposed by the record of the run; and a call of `setTransition`
that returns false leaves the word as it was. -/
theorem control_word_decomposed {h : List MotorRecord} {s : MotorSystem}
    (hr : Reach MotorSystem.system.recorded Guard.free h s) :
    Historically (fun r old => wasReset old = true → ∀ index cw,
        .controlWord index cw ∈ r.events → Decomposed old r cw) h ∧
      ∀ i s' r, MotorSystem.system.recorded.step s i = some (s', [r]) →
        ∀ src dst next, MotorRecord.transition r = some (src, dst, next) →
          (setTransition s.motor.controlWord src dst next).1 = false →
            s'.motor.controlWord = s.motor.controlWord := by
  refine ⟨(runs_of_reach hr).2, fun i s' r hstep src dst next hcall hrefused => ?_⟩
  obtain ⟨es, hemits, heq⟩ := System.recorded_step hstep
  obtain rfl := List.head_eq_of_cons_eq heq
  exact MotorRecord.controlWord_of_refused (stepped_of_step hemits) hcall hrefused

/-- `handleInit` on a drive that is disabled and then ready to switch on: the second transition
is commanded, and the halt bit is set. -/
theorem control_word_decomposed_init : ∃ (r : MotorRecord) (old : List MotorRecord),
    wasReset old = true ∧ commanded old = 0x0007 ∧
      .controlWord 0x6040 0x0107 ∈ r.events ∧ Decomposed old r 0x0107 := by
  have hrun : (MotorSystem.system.recorded.run
      (MotorStep.calls 1 .handleInit 10 (.answering 0x40 3 4) ++
        MotorStep.calls 0 .handleRead 3 (.answering 0x21 3 4) ++
        List.replicate 3 (.go 1 (.answering 0x21 3 4)) ++
        MotorStep.calls 0 .handleWrite 1 (.answering 0x21 3 4)) []
      (.zeroed 0xFFFF [ModeId.profiledVelocity])).any (fun p => p.1.head?.any fun r =>
        decide (wasReset p.1.tail = true ∧ commanded p.1.tail = 0x0007 ∧
          .controlWord 0x6040 0x0107 ∈ r.events)) = true := by
    decide +kernel
  obtain ⟨h, s, hreach, hhead⟩ := System.exists_reach_run MotorSystem.system.recorded
    (.init (MotorSystem.constructed_zeroed 0xFFFF _)) hrun
  obtain ⟨r, hr, hlast⟩ := (Option.any_eq_true _ _).mp hhead
  obtain ⟨old, rfl⟩ := List.head?_eq_some_iff.mp hr
  obtain ⟨hreset, hcommanded, hcw⟩ := of_decide_eq_true hlast
  have hdecomposed := (control_word_decomposed hreach).1 [] r old rfl hreset _ _ hcw
  exact ⟨r, old, hreset, hcommanded, hcw, hdecomposed⟩

end RosCanopen.Cia402
