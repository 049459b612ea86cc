import RosCanopen.Cia402.Flow

/-!
# Writing, step by step

`handleWrite` holds `cw_mutex_` from end to end, and `mode_mutex_` while it asks the
selected mode.  The first guards the control word and nothing else: the decoded state,
the displayed mode, the selected mode and the mode objects may change under other threads
between the test of the state and the streaming.  Here `handleWrite` is three steps, each
with one access to what `cw_mutex_` does not guard, and the steps of others that need
`cw_mutex_` wait.

The mode is asked in one step, where it looks at `has_target_` or `execute_`: the ids it
is chosen by, and all it writes after that, are guarded by the two mutexes.

## Main definitions

* `WriteCode`, `Motor.writeStep` — the steps of `handleWrite`.
* `WritingSystem` — the motor with its threads, and who holds `cw_mutex_`.
* `writing_of_motor` — a run with `handleWrite` in one step is a run of these.
-/

namespace RosCanopen.Cia402

open Lib

/-- Where `handleWrite` is, named after the next step. -/
inductive WriteCode
  | test
  | ask
  | stream
  deriving DecidableEq

/-- Where a step of `handleWrite` leads. -/
inductive WriteNext
  | goto (code : WriteCode)
  | leave (next : Next)

/-- The step takes `cw_mutex_`. -/
def Code.locks : Code → Bool
  | .write => true
  | .stateTransit _ _ => true
  | .initArm => true
  | .haltLocked _ => true
  | _ => false

/-- A step of `handleWrite`, with `cw_mutex_` held. -/
def Motor.writeStep (m : Motor) (env : Env) : WriteCode → Motor × WriteNext × List MotorEvent
  | .test =>
      ({ m with controlWord := overwrite 0 (bit ControlWord.halt) m.controlWord },
        .goto (if m.state = .operationEnable then .ask else .stream), [])
  | .ask =>
      match m.activeMode with
      | some (id, mode) =>
          let r := mode.write m.channelOffset m.controlWord env.driverOk
          let cw := if r.okay then overwrite (bit ControlWord.halt) 0 r.cw else r.cw
          ({ m.setMode id r.mode with controlWord := cw },
            if r.threw then .leave .throw else .goto .stream,
            if r.threw then [] else Motor.targetEvent id r)
      | none => ({ m with controlWord := OpModeAccesser.assign m.controlWord 0 }, .goto .stream, [])
  | .stream =>
      ((m.stream env.streamOk).1, .leave (m.stream env.streamOk).2.1, (m.stream env.streamOk).2.2)

/-- The motor with the threads inside it, and the one that is inside `handleWrite`. -/
structure WritingSystem extends MotorSystem where
  writer : Option (ℕ × WriteCode)

namespace WritingSystem

/-- The step of `handleWrite` that is up to a thread, if it is up to it at all. -/
def turn (s : WritingSystem) (i : ℕ) : Option WriteCode :=
  match s.writer with
  | none => some .test
  | some (j, code) => if j = i then some code else none

/-- The system after thread `i` has taken a step of `handleWrite`. -/
def wrote (s : WritingSystem) (i : ℕ) (t : Thread) :
    Motor × WriteNext × List MotorEvent → WritingSystem × List MotorEvent
  | (m, .goto code, es) => (⟨⟨m, s.threads⟩, some (i, code)⟩, es)
  | (m, .leave next, es) =>
      (⟨⟨m, Function.update s.threads i (t.after next).1⟩, none⟩, (t.after next).2 ++ es)

/-- One step. -/
def step (s : WritingSystem) : MotorStep → Option (WritingSystem × List MotorEvent)
  | .enter i call =>
      (s.toMotorSystem.step (.enter i call)).map fun p => (⟨p.1, s.writer⟩, p.2)
  | .go i env =>
      match s.threads i with
      | none => none
      | some t =>
          if t.code = .write then
            (s.turn i).map fun code => s.wrote i t (s.motor.writeStep env code)
          else if t.code.locks = true ∧ s.writer.isSome = true then none
          else (s.toMotorSystem.step (.go i env)).map fun p => (⟨p.1, s.writer⟩, p.2)

/-- The motor from construction. -/
def system : System WritingSystem MotorStep MotorEvent where
  init s := s.toMotorSystem.Constructed ∧ s.writer = none
  step := step

end WritingSystem

/-! ## With `handleWrite` in one step -/

section Whole
variable {s s' : MotorSystem} {i : ℕ} {env : Env} {t : Thread} {es : List MotorEvent}

/-- A step of `handleWrite` that is up to the thread. -/
theorem step_write {s : WritingSystem} {code : WriteCode} (ht : s.threads i = some t)
    (hcode : t.code = .write) (hturn : s.turn i = some code) :
    WritingSystem.system.step s (.go i env) = some (s.wrote i t (s.motor.writeStep env code)) := by
  simp only [WritingSystem.system, WritingSystem.step, ht, hcode, hturn, if_true, Option.map_some]

/-- The streaming ends `handleWrite`. -/
theorem run_stream {m : Motor} {h : List MotorEvent} (ht : s.threads i = some t)
    (hcode : t.code = .write) :
    WritingSystem.system.run [.go i env] h ⟨⟨m, s.threads⟩, some (i, .stream)⟩ =
      some ((t.after (m.stream env.streamOk).2.1).2 ++ (m.stream env.streamOk).2.2 ++ h,
        ⟨⟨(m.stream env.streamOk).1, Function.update s.threads i
          (t.after (m.stream env.streamOk).2.1).1⟩, none⟩) := by
  have hturn : (⟨⟨m, s.threads⟩, some (i, .stream)⟩ : WritingSystem).turn i = some .stream := by
    simp [WritingSystem.turn]
  simp only [System.run, System.runIf, if_true]
  rw [step_write (s := ⟨⟨m, s.threads⟩, some (i, .stream)⟩) ht hcode hturn]
  rfl

/-- A step inside `handleWrite`, and the steps after it. -/
theorem run_write_cons {s : WritingSystem} {code code' : WriteCode} {m : Motor}
    {h : List MotorEvent} {is : List MotorStep} (ht : s.threads i = some t)
    (hcode : t.code = .write) (hturn : s.turn i = some code)
    (hwrite : s.motor.writeStep env code = (m, .goto code', es)) :
    WritingSystem.system.run (.go i env :: is) h s =
      WritingSystem.system.run is (es ++ h) ⟨⟨m, s.threads⟩, some (i, code')⟩ := by
  simp only [System.run, System.runIf, if_true]
  rw [step_write ht hcode hturn, hwrite]
  rfl

/-- Outside `operationEnable` it tests and streams. -/
theorem run_handleWrite_of_ne (ht : s.threads i = some t) (hcode : t.code = .write)
    (hstate : s.motor.state ≠ .operationEnable) :
    ∃ is, ∀ h, WritingSystem.system.run is h ⟨s, none⟩ =
      some ((t.after (s.motor.handleWrite env).2.1).2 ++ (s.motor.handleWrite env).2.2 ++ h,
        ⟨⟨(s.motor.handleWrite env).1, Function.update s.threads i
          (t.after (s.motor.handleWrite env).2.1).1⟩, none⟩) := by
  have htest : s.motor.writeStep env .test = ({ s.motor with
      controlWord := overwrite 0 (bit ControlWord.halt) s.motor.controlWord },
        .goto .stream, []) := by
    simp only [Motor.writeStep, hstate, if_false]
  refine ⟨[.go i env, .go i env], fun h => ?_⟩
  rw [run_write_cons (s := ⟨s, none⟩) ht hcode rfl htest, run_stream ht hcode]
  simp only [Motor.handleWrite, hstate, if_false]
  rfl

/-- In `operationEnable` it tests, asks the mode and, unless that throws, streams. -/
theorem run_handleWrite_of_enabled (ht : s.threads i = some t) (hcode : t.code = .write)
    (hstate : s.motor.state = .operationEnable) :
    ∃ is, ∀ h, WritingSystem.system.run is h ⟨s, none⟩ =
      some ((t.after (s.motor.handleWrite env).2.1).2 ++ (s.motor.handleWrite env).2.2 ++ h,
        ⟨⟨(s.motor.handleWrite env).1, Function.update s.threads i
          (t.after (s.motor.handleWrite env).2.1).1⟩, none⟩) := by
  have hasks : ∀ m, (⟨⟨m, s.threads⟩, some (i, .ask)⟩ : WritingSystem).turn i = some .ask := by
    intro m
    simp [WritingSystem.turn]
  have htest : s.motor.writeStep env .test = ({ s.motor with
      controlWord := overwrite 0 (bit ControlWord.halt) s.motor.controlWord },
        .goto .ask, []) := by
    simp only [Motor.writeStep, hstate, if_true]
  generalize hm : ({ s.motor with
    controlWord := overwrite 0 (bit ControlWord.halt) s.motor.controlWord } : Motor) = m at htest
  have hactive : m.activeMode = s.motor.activeMode := by
    rw [← hm]
    rfl
  cases hmode : s.motor.activeMode with
  | none =>
      have hask : m.writeStep env .ask =
          ({ m with controlWord := OpModeAccesser.assign m.controlWord 0 }, .goto .stream, []) := by
        simp only [Motor.writeStep, hactive, hmode]
      refine ⟨[.go i env, .go i env, .go i env], fun h => ?_⟩
      rw [run_write_cons (s := ⟨s, none⟩) ht hcode rfl htest,
        run_write_cons (s := ⟨⟨m, s.threads⟩, some (i, .ask)⟩) ht hcode (hasks m) hask,
        run_stream ht hcode]
      simp only [Motor.handleWrite, hstate, hmode, if_true, ← hm]
      rfl
  | some p =>
      obtain ⟨id, mode⟩ := p
      have hask : m.writeStep env .ask =
          ({ s.motor.setMode id (s.motor.modeWrite mode env).mode with
              controlWord := if (s.motor.modeWrite mode env).okay then
                overwrite (bit ControlWord.halt) 0 (s.motor.modeWrite mode env).cw
                else (s.motor.modeWrite mode env).cw },
            if (s.motor.modeWrite mode env).threw then .leave .throw else .goto .stream,
            if (s.motor.modeWrite mode env).threw then []
              else Motor.targetEvent id (s.motor.modeWrite mode env)) := by
        rw [Motor.writeStep, hactive, hmode, ← hm]
        rfl
      cases hthrew : (s.motor.modeWrite mode env).threw with
      | true =>
          simp only [hthrew, if_true] at hask
          refine ⟨[.go i env, .go i env], fun h => ?_⟩
          rw [run_write_cons (s := ⟨s, none⟩) ht hcode rfl htest]
          simp only [System.run, System.runIf, if_true]
          rw [step_write (s := ⟨⟨m, s.threads⟩, some (i, .ask)⟩) ht hcode (hasks m), hask]
          simp only [Motor.handleWrite, hstate, hmode, hthrew, if_true]
          rfl
      | false =>
          simp only [hthrew, Bool.false_eq_true, if_false] at hask
          refine ⟨[.go i env, .go i env, .go i env], fun h => ?_⟩
          rw [run_write_cons (s := ⟨s, none⟩) ht hcode rfl htest,
            run_write_cons (s := ⟨⟨m, s.threads⟩, some (i, .ask)⟩) ht hcode (hasks m) hask,
            run_stream ht hcode]
          simp only [Motor.handleWrite, hstate, hmode, hthrew, if_true, Bool.false_eq_true,
            if_false, List.append_assoc]
          rfl

/-- **`handleWrite` in one step is `handleWrite` step by step**, with no other thread between
the steps. -/
theorem run_handleWrite (ht : s.threads i = some t) (hcode : t.code = .write)
    (hstep : MotorSystem.system.step s (.go i env) = some (s', es)) :
    ∃ is, ∀ h, WritingSystem.system.run is h ⟨s, none⟩ = some (es ++ h, ⟨s', none⟩) := by
  have hwhole : MotorSystem.system.step s (.go i env) = some
      (⟨(s.motor.handleWrite env).1,
        Function.update s.threads i (t.after (s.motor.handleWrite env).2.1).1⟩,
        (t.after (s.motor.handleWrite env).2.1).2 ++ (s.motor.handleWrite env).2.2) := by
    simp only [MotorSystem.system, MotorSystem.step, ht, hcode, Motor.exec, Option.map_some]
  obtain ⟨rfl, rfl⟩ := Prod.mk.inj (Option.some.inj (hwhole.symm.trans hstep))
  by_cases hstate : s.motor.state = .operationEnable
  · exact run_handleWrite_of_enabled ht hcode hstate
  · exact run_handleWrite_of_ne ht hcode hstate

theorem exists_writing_run {input : MotorStep}
    (hstep : MotorSystem.system.step s input = some (s', es)) :
    ∃ is, ∀ h, WritingSystem.system.run is h ⟨s, none⟩ = some (es ++ h, ⟨s', none⟩) := by
  have hsame : WritingSystem.system.step ⟨s, none⟩ input =
      (MotorSystem.system.step s input).map (fun p => (⟨p.1, none⟩, p.2)) →
      ∃ is, ∀ h, WritingSystem.system.run is h ⟨s, none⟩ = some (es ++ h, ⟨s', none⟩) := by
    intro heq
    refine ⟨[input], fun h => ?_⟩
    simp only [System.run, System.runIf, if_true, heq, hstep, Option.map_some]
  cases input with
  | enter i call => exact hsame rfl
  | go i env =>
      cases ht : s.threads i with
      | none => simp [MotorSystem.system, MotorSystem.step, ht] at hstep
      | some t =>
          by_cases hcode : t.code = .write
          · exact run_handleWrite ht hcode hstep
          · refine hsame ?_
            simp [WritingSystem.system, WritingSystem.step, ht, hcode, MotorSystem.system]

/-- **Every run with `handleWrite` in one step is a run of its steps.** -/
theorem writing_of_motor {h : List MotorEvent} (hr : Reach MotorSystem.system Guard.free h s) :
    Reach WritingSystem.system Guard.free h ⟨s, none⟩ :=
  hr.of_runs (b := WritingSystem.system) (fun _ hinit => ⟨hinit, rfl⟩)
    fun _ _ _ _ hstep => exists_writing_run hstep

end Whole

/-! ## What a step of `handleWrite` does -/

/-- What a step of `handleWrite` does. -/
inductive WriteEffect (m : Motor) (env : Env) :
    WriteCode → Motor → WriteNext → List MotorEvent → Prop
  | tested {code : WriteCode}
      (hcode : code = if m.state = .operationEnable then .ask else .stream) :
      WriteEffect m env .test
        { m with controlWord := overwrite 0 (bit ControlWord.halt) m.controlWord } (.goto code) []
  | asked {id : ModeId} {mode : Mode} {r : ModeWrite} {cw : Word} {next : WriteNext}
      {es : List MotorEvent} (hactive : m.activeMode = some (id, mode))
      (hr : r = mode.write m.channelOffset m.controlWord env.driverOk)
      (hcw : cw = if r.okay then overwrite (bit ControlWord.halt) 0 r.cw else r.cw)
      (hnext : next = .goto .stream ∧ es = Motor.targetEvent id r ∨
        next = .leave .throw ∧ es = []) :
      WriteEffect m env .ask { m.setMode id r.mode with controlWord := cw } next es
  | ignored (hactive : m.activeMode = none) :
      WriteEffect m env .ask { m with controlWord := OpModeAccesser.assign m.controlWord 0 }
        (.goto .stream) []
  | streamed : WriteEffect m env .stream { m with startFaultReset := false } (.leave (.ret true))
      [.controlWord (m.channelIndex 0x6040) m.streamed]
  | lost : WriteEffect m env .stream { m with startFaultReset := false } (.leave .throw) []

section WriteStep
variable {m m' : Motor} {env : Env} {code : WriteCode} {next : WriteNext} {es : List MotorEvent}
  {id : ModeId}

/-- **What a step of `handleWrite` does**, read off once. -/
theorem effect_of_writeStep (h : m.writeStep env code = (m', next, es)) :
    WriteEffect m env code m' next es := by
  cases code with
  | test =>
      cases h
      exact .tested rfl
  | ask =>
      rw [Motor.writeStep] at h
      split at h
      · next id mode hactive =>
          cases h
          refine .asked hactive rfl rfl ?_
          split
          · exact .inr ⟨rfl, rfl⟩
          · exact .inl ⟨rfl, rfl⟩
      · next hactive =>
          cases h
          exact .ignored hactive
  | stream =>
      rw [Motor.writeStep, stream_eq] at h
      cases hok : env.streamOk with
      | true =>
          rw [hok] at h
          cases h
          exact .streamed
      | false =>
          rw [hok] at h
          cases h
          exact .lost

namespace WriteEffect
variable (heffect : WriteEffect m env code m' next es)
include heffect

/-- A step of `handleWrite` keeps the other members. -/
theorem motor : ∃ modes cw reset, m' =
    { m with modes := modes, controlWord := cw, startFaultReset := reset } := by
  cases heffect <;> exact ⟨_, _, _, rfl⟩

/-- A step of `handleWrite` does nothing but write. -/
theorem writes_of_mem {e : MotorEvent} (he : e ∈ es) : e.writes = true := by
  cases heffect with
  | asked _ _ _ hnext =>
      rcases hnext with ⟨-, rfl⟩ | ⟨-, rfl⟩
      · obtain ⟨_, _, _, _, rfl⟩ := mem_targetEvent he
        rfl
      · contradiction
  | streamed =>
      rw [List.mem_singleton.mp he]
      rfl
  | _ => contradiction

/-- `handleWrite` returns, or throws. -/
theorem leave_cases {next' : Next} (hnext : next = .leave next') :
    next' = .ret true ∨ next' = .throw := by
  subst hnext
  cases heffect with
  | asked _ _ _ hnext =>
      rcases hnext with ⟨hgoto, -⟩ | ⟨hleave, -⟩
      · contradiction
      · exact .inr (WriteNext.leave.inj hleave)
  | streamed => exact .inl rfl
  | lost => exact .inr rfl

/-- Only the asked mode is changed, by its own write. -/
theorem touched (id : ModeId) : Touched id es (m.modes id) (m'.modes id) := by
  have hes : ∀ e ∈ es, e.concerns id = false := by
    intro e he
    have hwrites := heffect.writes_of_mem he
    cases e <;> first | contradiction | rfl
  cases heffect with
  | @asked id' mode r _ _ _ hactive hr =>
      by_cases hid : id = id'
      · subst hid hr
        rw [(activeMode_eq_some hactive).2.2]
        simpa [Motor.setMode] using Touched.wrote mode m.channelOffset _ env.driverOk hes
      · simpa [Motor.setMode, hid] using Touched.kept hes
  | _ => exact .kept hes

theorem isSome (hmode : (m.modes id).isSome = true) : (m'.modes id).isSome = true := by
  have htouched := heffect.touched id
  revert hmode
  generalize m.modes id = o, m'.modes id = o' at htouched
  intro hmode
  cases htouched with
  | kept => exact hmode
  | _ => rfl

end WriteEffect
end WriteStep

/-! ## Steps of the whole -/

/-- The kinds of steps: a thread enters a call, goes on outside `handleWrite`, goes on inside
it, or leaves it. -/
inductive Writing (s : WritingSystem) : MotorStep → WritingSystem → List MotorEvent → Prop
  | enters {i : ℕ} (call : Call) (hidle : s.threads i = none) :
      Writing s (.enter i call)
        ⟨⟨s.motor, Function.update s.threads i
          (some ⟨call, (call.entry s.motor).1, (call.entry s.motor).2⟩)⟩, s.writer⟩
        [.called call]
  | goes {i : ℕ} {env : Env} {t : Thread} {m : Motor} {next : Next} {es : List MotorEvent}
      (ht : s.threads i = some t) (hcode : t.code ≠ .write)
      (hlock : t.code.locks = true → s.writer = none)
      (hexec : s.motor.exec env t.code = some (m, next, es)) :
      Writing s (.go i env) ⟨⟨m, Function.update s.threads i (t.after next).1⟩, s.writer⟩
        ((t.after next).2 ++ es)
  | writes {i : ℕ} {env : Env} {t : Thread} {code code' : WriteCode} {m : Motor}
      {es : List MotorEvent} (ht : s.threads i = some t) (hcode : t.code = .write)
      (hturn : s.turn i = some code)
      (hwrite : s.motor.writeStep env code = (m, .goto code', es)) :
      Writing s (.go i env) ⟨⟨m, s.threads⟩, some (i, code')⟩ es
  | leaves {i : ℕ} {env : Env} {t : Thread} {code : WriteCode} {m : Motor} {next : Next}
      {es : List MotorEvent} (ht : s.threads i = some t) (hcode : t.code = .write)
      (hturn : s.turn i = some code)
      (hwrite : s.motor.writeStep env code = (m, .leave next, es)) :
      Writing s (.go i env) ⟨⟨m, Function.update s.threads i (t.after next).1⟩, none⟩
        ((t.after next).2 ++ es)

theorem writing_of_step {s s' : WritingSystem} {i : MotorStep} {es : List MotorEvent}
    (h : WritingSystem.system.step s i = some (s', es)) : Writing s i s' es := by
  cases i with
  | enter i call =>
      obtain ⟨⟨s₁, es₁⟩, hstep, heq⟩ := Option.map_eq_some_iff.mp h
      obtain ⟨rfl, rfl⟩ := Prod.mk.inj heq
      have hstepped : Stepped s.toMotorSystem (.enter i call) s₁ es₁ := stepped_of_step hstep
      cases hstepped with
      | enters _ hidle => exact .enters call hidle
  | go i env =>
      simp only [WritingSystem.system, WritingSystem.step] at h
      split at h
      · contradiction
      · next t ht =>
          split at h
          · next hcode =>
              obtain ⟨code, hturn, heq⟩ := Option.map_eq_some_iff.mp h
              cases hwrite : s.motor.writeStep env code with
              | mk m p =>
                  obtain ⟨next, es'⟩ := p
                  rw [hwrite] at heq
                  cases next with
                  | goto code' =>
                      cases heq
                      exact .writes ht hcode hturn hwrite
                  | leave next =>
                      cases heq
                      exact .leaves ht hcode hturn hwrite
          · next hcode =>
              split at h
              · contradiction
              · next hlock =>
                  obtain ⟨⟨s₁, es₁⟩, hstep, heq⟩ := Option.map_eq_some_iff.mp h
                  obtain ⟨rfl, rfl⟩ := Prod.mk.inj heq
                  have hstepped : Stepped s.toMotorSystem (.go i env) s₁ es₁ :=
                    stepped_of_step hstep
                  cases hstepped with
                  | goes ht' hexec =>
                      obtain rfl := Option.some.inj (ht.symm.trans ht')
                      refine .goes ht hcode (fun hlocks => ?_) hexec
                      by_contra hwriter
                      exact hlock ⟨hlocks, Option.isSome_iff_ne_none.mpr hwriter⟩

/-- **Every step links the modes**, those of `handleWrite` too. -/
theorem Linked.writing {h es : List MotorEvent} {s s' : WritingSystem} {i : MotorStep}
    (hs : Linked h s.toMotorSystem) (hstep : Writing s i s' es) :
    Linked (es ++ h) s'.toMotorSystem := by
  have hwrites : ∀ {m es env code next} (threads : ℕ → Option Thread) (hold : List MotorEvent),
      WriteEffect s.motor env code m next es → (∀ e ∈ hold, e.reports = true) →
      (∀ j t, threads j = some t → t.Sound (hold ++ es ++ h) m) →
      Linked (hold ++ es ++ h) ⟨m, threads⟩ := by
    intro m es env code next threads hold heffect hreports hsound
    obtain ⟨modes, cw, reset, heq⟩ := heffect.motor
    refine ⟨fun id hid => ?_, fun id hid => ?_, hsound⟩
    · rcases List.mem_append.mp hid with hid | hid
      · rcases List.mem_append.mp hid with hid | hid
        · exact absurd (hreports _ hid) (by simp [MotorEvent.reports])
        · exact absurd (heffect.writes_of_mem hid) (by simp [MotorEvent.writes])
      · exact heffect.isSome (hs.present id hid)
    · rw [heq] at hid
      exact List.mem_append_right _ (hs.selected id hid)
  cases hstep with
  | enters call hidle => exact hs.stepped (.enters call hidle)
  | goes ht _ _ hexec => exact hs.stepped (.goes ht hexec)
  | writes ht hcode hturn hwrite =>
      have heffect := effect_of_writeStep hwrite
      exact hwrites s.threads [] heffect (by simp) fun j t ht =>
        (hs.sound j t ht).mono fun _ => heffect.isSome
  | @leaves i env t code m next es ht hcode hturn hwrite =>
      have heffect := effect_of_writeStep hwrite
      refine hwrites _ _ heffect (fun e he => ?_) (forall_threads_update
        (fun j t ht => (hs.sound j t ht).mono fun _ => heffect.isSome) ?_)
      · rcases reports_of_after he with ⟨ok, rfl⟩ | rfl <;> rfl
      · rcases heffect.leave_cases rfl with rfl | rfl
        · exact (hs.sound i t ht).ret
        · intro t' ht'
          contradiction

/-- A recorded step of the motor. -/
abbrev WritingRecord := Record WritingSystem MotorStep MotorEvent

end RosCanopen.Cia402
