import RosCanopen.Cia402.MotorStep

/-!
# Whether a halt sticks

`handleHalt` takes the control word out of "enable operation" only if the state it has
read is `operationEnable`.  In any other state it sets a new target and leaves the word
in place, although that word may command the enabling already.  A `switchState` that is
still in flight may go on to enable the drive, and a `handleRecover` in flight may have
the fault reset bit withheld that still covers the enabling bits.  Runs in which none of
these happens keep the drive halted.

## Main definitions

* `halted` — a halt has returned, and no call that may enable the drive has begun since.
* `Motor.enables` — the next streaming would command "enable operation".
* `haltHeld` — the steps that keep a halt.
-/

namespace RosCanopen.Cia402

open Lib

/-- The calls that may enable the drive again. -/
def Call.mayEnable : Call → Bool
  | .handleInit => true
  | .handleEnable => true
  | .handleRecover => true
  | .enterModeAndWait _ => true
  | _ => false

/-- Such a call begins. -/
def MotorEvent.reopens : MotorEvent → Bool
  | .called call => call.mayEnable
  | _ => false

/-- A halt has returned true. -/
def MotorEvent.halts : MotorEvent → Bool
  | .returned .handleHalt ok => ok
  | _ => false

/-- A halt has returned true, and no call that may enable the drive has begun since. -/
def halted (h : List MotorEvent) : Bool :=
  since (fun e => !e.reopens) MotorEvent.halts h

/-- No word streamed while the drive is halted commands "enable operation". -/
def HaltSticks (h : List MotorEvent) : Prop :=
  Historically (fun e old => ∀ index cw, e = .controlWord index cw → halted old = true →
    commandsEnable cw = false) h

/-- The next streaming would command "enable operation". -/
def Motor.enables (m : Motor) : Bool :=
  lowBitsSet m.controlWord && (!m.controlWord.getLsbD 7 || m.startFaultReset)

/-- The steps that keep a halt: `handleHalt` meets no enabling word outside of
`operationEnable`; and once it has returned, no `switchState` in flight takes the last
step to `operationEnable`, and no `handleRecover` in flight uncovers the enabling bits. -/
def haltHeld : Guard MotorSystem MotorStep MotorEvent
  | _, _, .enter _ _ => True
  | h, s, .go i _ => ∀ t, s.threads i = some t →
      (∀ state, t.code = .haltLocked state → state ≠ .operationEnable →
        state ≠ .faultReactionActive ∧ state ≠ .fault → s.motor.enables = false) ∧
      (halted h = true →
        (∀ target state, t.code = .stateTransit target state →
          s.motor.targetState = .operationEnable → state ≠ .switchedOn ∧ state ≠ .quickStopActive) ∧
        (t.code = .recoverArm → lowBitsSet s.motor.controlWord = false))

section Enables
variable {m m' : Motor} {env : Env} {code : Code} {next : Next} {es : List MotorEvent}

theorem commandsEnable_streamed (m : Motor) : commandsEnable m.streamed = m.enables := by
  simp only [commandsEnable, lowBitsSet, getLsbD_streamed, Motor.enables, ControlWord.faultReset]
  cases m.startFaultReset <;> simp

theorem enables_congr (hcw : AgreeOn ControlWord.stateBits m'.controlWord m.controlWord)
    (hreset : m'.startFaultReset = m.startFaultReset) : m'.enables = m.enables := by
  have h7 := hcw 7 (by decide)
  simp only [Motor.enables, lowBitsSet_congr hcw, h7, hreset]

theorem enables_iff : m.enables = true ↔ lowBitsSet m.controlWord = true ∧
    (m.controlWord.getLsbD 7 = false ∨ m.startFaultReset = true) := by
  simp [Motor.enables]

theorem enables_of_wrote {w : Option (ModeId × ModeWrite)} (hw : Wrote m env m' w) :
    m'.enables = m.enables := by
  cases hw with
  | idle hcw => exact enables_congr hcw rfl
  | asked _ _ _ hcw => exact enables_congr hcw rfl

/-- The step `setTransition` takes is not the last one to `operationEnable`. -/
theorem hop_ne_operationEnable {src dst : InternalState} (hne : src ≠ dst)
    (hlast : dst = .operationEnable → src ≠ .switchedOn ∧ src ≠ .quickStopActive) :
    hop src dst (some .unknown) ≠ .operationEnable := by
  rw [hop]
  split
  · next htarget =>
      obtain ⟨-, rfl⟩ := htarget
      obtain ⟨hon, hstop⟩ := hlast rfl
      cases src <;> simp_all [nextStateForEnabling]
  · next htarget =>
      intro hdst
      exact htarget ⟨rfl, hdst⟩

/-- A transition that is not the last step to `operationEnable` puts no enabling word in
place. -/
theorem enables_setTransition {state : InternalState} (hquiet : m.enables = false)
    (hlast : m.targetState = .operationEnable → state ≠ .switchedOn ∧ state ≠ .quickStopActive) :
    Motor.enables { m with
      controlWord := (setTransition m.controlWord state m.targetState (some .unknown)).2.1 } =
      false := by
  rw [setTransition]
  split
  · exact hquiet
  · next hne =>
      split
      · exact hquiet
      · next op hop =>
          have hother := hop_ne_operationEnable hne hlast
          by_contra henables
          obtain ⟨hlow, hstream⟩ := enables_iff.mp (eq_true_of_ne_false henables)
          obtain ⟨hlow', h7⟩ := lowBitsSet_apply hop hother hlow
          have hquiet' : m.enables = true := enables_iff.mpr ⟨hlow', ?_⟩
          · exact absurd (hquiet.symm.trans hquiet') (by simp)
          · rcases hstream with hclear | hreset
            · refine .inl (eq_false_of_ne_true fun hset => ?_)
              exact absurd ((h7 hset).symm.trans hclear) (by simp)
            · exact .inr hreset

theorem enables_of_effect (heffect : Effect m env code m' next es) (hquiet : m.enables = false)
    (hlast : ∀ target state, code = .stateTransit target state →
      m.targetState = .operationEnable → state ≠ .switchedOn ∧ state ≠ .quickStopActive)
    (harm : code = .recoverArm → lowBitsSet m.controlWord = false) : m'.enables = false := by
  cases heffect with
  | displayed sw mode =>
      obtain ⟨modes, heq⟩ := readSelected_motor m mode sw
      rw [heq]
      exact hquiet
  | wrote =>
      obtain ⟨m₁, w, hw, heq⟩ := exists_wrote m env
      have hquiet₁ : m₁.enables = false := (enables_of_wrote hw).trans hquiet
      rw [heq]
      rcases finishWrite_motor m₁ env w with hm | hm <;> rw [hm]
      · exact hquiet₁
      · -- without a pending fault reset the enabling bits stay covered
        by_contra henables
        obtain ⟨hlow, hclear⟩ := enables_iff.mp (eq_true_of_ne_false henables)
        have hopen : m₁.enables = true := enables_iff.mpr ⟨hlow, .inl (by simpa using hclear)⟩
        exact absurd (hquiet₁.symm.trans hopen) (by simp)
  | targeted val =>
      obtain ⟨modes, heq⟩ := setSelectedTarget_motor m val
      rw [heq]
      exact hquiet
  | started mode =>
      obtain ⟨modes, heq⟩ := startMode_motor m mode
      rw [heq]
      exact hquiet
  | transited target state => exact enables_setTransition hquiet (hlast target state rfl)
  | armed => simp [Motor.enables, lowBitsSet]
  | haltQuick => simp [Motor.enables, lowBitsSet, Op.apply, Op.quickstop]
  | recovered => simp [Motor.enables, harm rfl]
  | _ => exact hquiet

end Enables

/-! ## Runs that keep a halt -/

/-- A thread in `handleHalt` is in its body, which calls nothing. -/
def Thread.Halts (t : Thread) : Prop :=
  t.call = .handleHalt →
    t.frames = [] ∧ (t.code = .haltCheck ∨ ∃ state, t.code = .haltLocked state)

/-- The invariant of the runs that keep a halt. -/
structure Held (h : List MotorEvent) (s : MotorSystem) : Prop where
  quiet : halted h = true → s.motor.enables = false
  halting : ∀ i t, s.threads i = some t → t.Halts
  sticks : HaltSticks h

section Thread
variable {m m' : Motor} {env : Env} {t : Thread} {next : Next} {es : List MotorEvent}

theorem Thread.Halts.after (ht : t.Halts) (hexec : m.exec env t.code = some (m', next, es)) :
    ∀ t', (t.after next).1 = some t' → t'.Halts := by
  intro t' ht' hcall
  obtain ⟨call, code, frames⟩ := t
  obtain ⟨hframes, hcode⟩ := ht ((call_of_after ht').symm.trans hcall)
  simp only at hframes hcode
  subst hframes
  rcases hcode with rfl | ⟨state, rfl⟩
  · obtain ⟨-, rfl, -⟩ := step_inj hexec
    cases ht'
    exact ⟨rfl, .inr ⟨_, rfl⟩⟩
  · obtain ⟨ok, rfl⟩ := haltLocked_next (effect_of_exec hexec)
    simp [Thread.after, unwind] at ht'

/-- Only the locked part of `handleHalt` lets a halt return true. -/
theorem Thread.Halts.of_halts (ht : t.Halts) (hexec : m.exec env t.code = some (m', next, es))
    {e : MotorEvent} (he : e ∈ (t.after next).2) (hhalts : e.halts = true) :
    ∃ state, t.code = .haltLocked state ∧ next = .ret true := by
  rcases reports_of_after he with ⟨ok, rfl⟩ | rfl
  · obtain ⟨call, code, frames⟩ := t
    have hcall : call = .handleHalt := by
      cases call <;> first | rfl | contradiction
    obtain ⟨hframes, hcode⟩ := ht hcall
    simp only at hframes hcode
    subst hcall hframes
    rcases hcode with rfl | ⟨state, rfl⟩
    · obtain ⟨-, rfl, -⟩ := step_inj hexec
      simp [Thread.after] at he
    · obtain ⟨ok', rfl⟩ := haltLocked_next (effect_of_exec hexec)
      obtain rfl : ok = ok' := by simpa [Thread.after, unwind] using he
      obtain rfl : ok = true := hhalts
      exact ⟨state, rfl, rfl⟩
  · contradiction

end Thread

namespace Held
variable {h es : List MotorEvent} {s s' : MotorSystem} {i : MotorStep}

/-- What reports neither a beginning call nor a halt leaves the halt as it is. -/
theorem halted_append (hes : ∀ e ∈ es, e.reopens = false ∧ e.halts = false) :
    halted (es ++ h) = halted h :=
  since_append h fun e he => by simp [hes e he]

/-- The events of a step that lets no halt return. -/
theorem neutral {m : Motor} {env : Env} {t : Thread} {next : Next} (ht : t.Halts)
    (hexec : s.motor.exec env t.code = some (m, next, es))
    (hnext : ∀ state, t.code = .haltLocked state → next ≠ .ret true) :
    ∀ e ∈ (t.after next).2 ++ es, e.reopens = false ∧ e.halts = false := by
  intro e he
  rcases List.mem_append.mp he with he | he
  · refine ⟨?_, eq_false_of_ne_true fun hhalts => ?_⟩
    · rcases reports_of_after he with ⟨ok, rfl⟩ | rfl <;> rfl
    · obtain ⟨state, hcode, hret⟩ := ht.of_halts hexec he hhalts
      exact hnext state hcode hret
  · have hreports := (reports_of_effect (effect_of_exec hexec) he).1
    cases e <;> first | contradiction | exact ⟨rfl, rfl⟩

/-- A halt that returns true leaves no enabling word. -/
theorem quiet_of_haltLocked {m : Motor} {env : Env} {state : InternalState}
    (heffect : Effect s.motor env (.haltLocked state) m (.ret true) es)
    (hmet : state ≠ .operationEnable → state ≠ .faultReactionActive ∧ state ≠ .fault →
      s.motor.enables = false) : m.enables = false := by
  obtain ⟨-, hnext⟩ | ⟨rfl, -, hstate, hfault⟩ | ⟨rfl, -⟩ := haltLocked_cases heffect
  · contradiction
  · exact hmet hstate hfault
  · simp [Motor.enables, lowBitsSet, Op.apply, Op.quickstop]

/-- A word streamed while the drive is halted. -/
theorem streamed_quiet {m : Motor} {env : Env} {t : Thread} {next : Next}
    {new old : List MotorEvent} {index : BitVec 16} {cw : Word} (hs : Held h s) (ht : t.Halts)
    (hexec : s.motor.exec env t.code = some (m, next, es))
    (heq : (t.after next).2 ++ es = new ++ .controlWord index cw :: old)
    (hold : halted (old ++ h) = true) : commandsEnable cw = false := by
  have hmem : MotorEvent.controlWord index cw ∈ (t.after next).2 ++ es := by simp [heq]
  obtain ⟨hcode, -, hwrite⟩ := mem_handleWrite_of_writes hexec hmem rfl
  have hneutral := neutral ht hexec fun state hlocked => by
    rw [hcode] at hlocked
    contradiction
  -- nothing in the step itself has lifted the halt
  have hhalted : halted h = true := by
    rw [← hold, halted_append fun e he => hneutral e (by simp [heq, he])]
  obtain ⟨m₁, w, hw, rfl⟩ := mem_controlWord hwrite
  rw [commandsEnable_streamed, enables_of_wrote hw]
  exact hs.quiet hhalted

theorem stepped (hs : Held h s) (hok : haltHeld h s i) (hstep : Stepped s i s' es) :
    Held (es ++ h) s' := by
  cases hstep with
  | enters call hidle =>
      refine ⟨fun hhalted => ?_, forall_threads_update hs.halting ?_, hs.sticks.append ?_⟩
      · refine hs.quiet ?_
        simp [halted, MotorEvent.halts] at hhalted
        exact hhalted.2
      · rintro t ⟨⟩ hcall
        obtain rfl : call = .handleHalt := hcall
        exact ⟨rfl, .inl rfl⟩
      · rintro new e old heq index cw rfl
        cases new <;> simp at heq
  | @goes j env t m next es ht hexec =>
      obtain ⟨hmet, hflight⟩ := hok t ht
      have hhalts := hs.halting j t ht
      refine ⟨fun hhalted => ?_, forall_threads_update hs.halting (hhalts.after hexec),
        hs.sticks.append ?_⟩
      · by_cases hret : ∃ state, t.code = .haltLocked state ∧ next = .ret true
        · obtain ⟨state, hcode, rfl⟩ := hret
          exact quiet_of_haltLocked (hcode ▸ effect_of_exec hexec) (hmet state hcode)
        · rw [halted_append (neutral hhalts hexec fun state hcode hnext =>
            hret ⟨state, hcode, hnext⟩)] at hhalted
          obtain ⟨hlast, harm⟩ := hflight hhalted
          exact enables_of_effect (effect_of_exec hexec) (hs.quiet hhalted) hlast harm
      · rintro new e old heq index cw rfl hold
        exact hs.streamed_quiet hhalts hexec heq hold

/-- The invariant along every run that keeps a halt. -/
theorem of_reach (hr : Reach MotorSystem.system haltHeld h s) : Held h s := by
  refine hr.invariant ?_ ?_
  · rintro s ⟨-, -, -, hthreads⟩
    exact ⟨by simp [halted], by simp [hthreads], historically_nil⟩
  · intro h s i s' es hs hok hstep
    exact hs.stepped hok (stepped_of_step hstep)

end Held

/-- **A halt sticks along every run that keeps it.**  Once `handleHalt` has returned true,
no word that commands "enable operation" is streamed until a call that may enable the
drive has begun. -/
theorem haltSticks_of_haltHeld {h : List MotorEvent} {s : MotorSystem}
    (hr : Reach MotorSystem.system haltHeld h s) : HaltSticks h :=
  (Held.of_reach hr).sticks

/-- The control word that the event streams. -/
def MotorEvent.streamedWord : MotorEvent → Option Word
  | .controlWord _ cw => some cw
  | _ => none

/-- A check of a step that keeps a halt. -/
def keepsHalt (h : List MotorEvent) (s : MotorSystem) : MotorStep → Bool
  | .enter _ _ => true
  | .go i _ => (s.threads i).all fun t =>
      match t.code with
      | .haltLocked state => decide (state = .operationEnable) || !s.motor.enables
      | .stateTransit _ _ => !halted h
      | .recoverArm => !halted h
      | _ => true

theorem haltHeld_of_keepsHalt {h : List MotorEvent} {s : MotorSystem} {i : MotorStep}
    (hcheck : keepsHalt h s i = true) : haltHeld h s i := by
  cases i with
  | enter i call => trivial
  | go i env =>
      intro t ht
      simp only [keepsHalt, ht, Option.all_some] at hcheck
      refine ⟨fun state hcode hstate _ => ?_, fun hhalted =>
        ⟨fun target state hcode => ?_, fun hcode => ?_⟩⟩
      · simpa [hcode, hstate] using hcheck
      · simp [hcode, hhalted] at hcheck
      · simp [hcode, hhalted] at hcheck

/-- The drive is enabled, halted, and polled again. -/
def MotorStep.enabledAndHalted : List MotorStep :=
  MotorStep.calls 0 .pollTimerCallback 4 (.answering 0x23 0 0) ++
    MotorStep.calls 1 .handleEnable 7 (.answering 0x23 0 0) ++
    MotorStep.calls 0 .pollTimerCallback 4 (.answering 0x27 0 0) ++
    List.replicate 2 (.go 1 (.answering 0x27 0 0)) ++
    MotorStep.calls 2 .handleHalt 2 (.answering 0x27 0 0) ++
    MotorStep.calls 0 .pollTimerCallback 4 (.answering 0x27 0 0)

/-- An enabled drive is halted: the enabling word is streamed before, and a quick stop after. -/
theorem haltSticks_enabled : ∃ (h : List MotorEvent),
    .controlWord 0x6040 0x010F ∈ h ∧ .returned .handleEnable true ∈ h ∧ halted h = true ∧
      h.findSome? MotorEvent.streamedWord = some 0x010B ∧ HaltSticks h := by
  have h0 : Reach MotorSystem.system haltHeld [] (.zeroed 0 []) :=
    .init (MotorSystem.constructed_zeroed 0 [])
  have hrun := System.reach_runIf MotorSystem.system keepsHalt MotorStep.enabledAndHalted h0
    (fun _ _ _ _ => haltHeld_of_keepsHalt) rfl
  refine ⟨_, ?_, ?_, ?_, ?_, haltSticks_of_haltHeld hrun⟩
  · decide
  · decide
  · rfl
  · rfl

/-- The control word commands the enabling already while the drive still reports
`switchedOn`: the halt leaves it, and it is streamed. -/
theorem not_haltSticks : ∃ h s, Reach MotorSystem.system Guard.free h s ∧ ¬ HaltSticks h := by
  have h0 : Reach MotorSystem.system Guard.free [] (.zeroed 0 []) :=
    .init (MotorSystem.constructed_zeroed 0 [])
  have hrun := System.reach_run MotorSystem.system
    (MotorStep.calls 1 .handleEnable 7 (.answering 0x23 0 0) ++
      MotorStep.calls 2 .handleHalt 2 (.answering 0x23 0 0) ++
      MotorStep.calls 0 .pollTimerCallback 4 (.answering 0x23 0 0)) h0 rfl
  refine ⟨_, _, hrun, fun hsticks => ?_⟩
  have hcw := hsticks [_] (.controlWord 0x6040 0x010F) _ rfl _ _ rfl rfl
  exact absurd hcw (by decide)

end RosCanopen.Cia402
