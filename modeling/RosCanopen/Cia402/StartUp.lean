import RosCanopen.Cia402.MotorStep

/-!
# The drive before anything has been asked of it

The poll timer streams the control word from activation on, long before `handleInit`
sets it.  Polling keeps the bits that command a transition as it finds them, and the
constructor does not initialise `control_word_`: what is streamed is what the memory
held.  No mode is selected, so no target is accepted.

## Main definitions

* `pollOnly` — the runs of poll cycles and target requests.
* `MotorEvent.inert` — the events that ask nothing of the drive.
* `Thread.Polls` — where such a thread can be.
-/

namespace RosCanopen.Cia402

open Lib

/-- Poll cycles and target requests only. -/
def pollOnly : Guard MotorSystem MotorStep MotorEvent
  | _, _, .enter _ .pollTimerCallback => True
  | _, _, .enter _ .handleRead => True
  | _, _, .enter _ .handleWrite => True
  | _, _, .enter _ (.setTarget _) => True
  | _, _, .enter _ _ => False
  | _, _, .go _ _ => True

/-- The event commands no transition and is no acceptance of a target. -/
def MotorEvent.inert : MotorEvent → Bool
  | .controlWord _ cw => commandsNothing cw
  | .accepted _ _ => false
  | .returned (.setTarget _) ok => !ok
  | _ => true

/-- The motor started from one state of its memory. -/
def MotorSystem.startedFrom (s₀ : MotorSystem) : System MotorSystem MotorStep MotorEvent :=
  { MotorSystem.system with init := fun s => s = s₀ }

/-- The program points of a poll cycle. -/
def Code.polls : Code → Bool
  | .readStatus => true
  | .readDecode _ => true
  | .readMode _ => true
  | .write => true
  | _ => false

/-- A step that stays in the poll cycle or leaves it. -/
def Next.polls : Next → Bool
  | .goto code => code.polls
  | .call _ _ => false
  | .ret _ => true
  | .throw => true

/-- A thread in a poll cycle, or in `setTarget`. -/
inductive Thread.Polls : Thread → Prop
  | polling {call : Call} {code : Code} {frames : List Frame}
      (hcall : ∀ val, call ≠ .setTarget val) (hcode : code.polls = true)
      (hframes : ∀ frame ∈ frames, frame = .thenWrite) : Polls ⟨call, code, frames⟩
  | aiming {val : Double} {code : Code} (hcode : code = .targetCheck val ∨ code = .targetSet val) :
      Polls ⟨.setTarget val, code, []⟩

/-- While only polled, the motor has no mode and keeps the state bits of its word. -/
structure Idles (cw₀ : Word) (h : List MotorEvent) (s : MotorSystem) : Prop where
  bits : AgreeOn ControlWord.stateBits s.motor.controlWord cw₀
  unselected : s.motor.selectedMode = none
  polls : ∀ i t, s.threads i = some t → t.Polls
  inert : commandsNothing cw₀ = true → ∀ e ∈ h, e.inert = true

section Step
variable {m m' : Motor} {env : Env} {next : Next} {es : List MotorEvent}

/-- Withholding the fault reset does not turn an inert word into a command. -/
theorem commandsNothing_streamed (h : commandsNothing m.controlWord = true) :
    commandsNothing m.streamed = true := by
  simp only [commandsNothing, Bool.not_eq_true', Bool.or_eq_false_iff] at h
  simp only [commandsNothing, getLsbD_streamed, h, Bool.false_and, Bool.or_self, Bool.not_false]

/-- A cycle of writing without a mode. -/
theorem handleWrite_of_unselected (env : Env) (hselected : m.selectedMode = none) :
    AgreeOn ControlWord.stateBits (m.handleWrite env).1.controlWord m.controlWord ∧
      (m.handleWrite env).1.selectedMode = none ∧
      (commandsNothing m.controlWord = true → ∀ e ∈ (m.handleWrite env).2.2, e.inert = true) := by
  obtain ⟨m', w, hw, heq⟩ := exists_wrote m env
  rw [heq]
  cases hw with
  | asked _ hactive =>
      rw [(activeMode_eq_some hactive).1] at hselected
      contradiction
  | @idle cw hcw _ =>
      refine ⟨?_, ?_, fun hnothing e he => ?_⟩
      · rcases finishWrite_motor { m with controlWord := cw } env none with hm | hm <;> rw [hm] <;>
          exact hcw
      · rcases finishWrite_motor { m with controlWord := cw } env none with hm | hm <;> rw [hm] <;>
          exact hselected
      · rcases mem_finishWrite he with rfl | ⟨_, _, hnone, _⟩
        · exact commandsNothing_streamed ((commandsNothing_congr hcw).trans hnothing)
        · contradiction

/-- What a program point of a poll cycle does to a motor without a mode. -/
theorem exec_polls {code : Code} (hselected : m.selectedMode = none) (hcode : code.polls = true)
    (hexec : m.exec env code = some (m', next, es)) :
    AgreeOn ControlWord.stateBits m'.controlWord m.controlWord ∧ m'.selectedMode = none ∧
      (commandsNothing m.controlWord = true → ∀ e ∈ es, e.inert = true) ∧
      next.polls = true := by
  cases code with
  | readStatus =>
      simp only [Motor.exec] at hexec
      split at hexec <;> obtain ⟨rfl, rfl, rfl⟩ := step_inj hexec <;>
        exact ⟨AgreeOn.refl _ _, hselected, by simp, rfl⟩
  | readDecode sw =>
      obtain ⟨rfl, rfl, rfl⟩ := step_inj hexec
      exact ⟨AgreeOn.refl _ _, hselected, by simp [MotorEvent.inert], rfl⟩
  | readMode sw =>
      simp only [Motor.exec] at hexec
      have hread : ∀ mode, m.readSelected mode sw = m := fun mode => by
        simp [Motor.readSelected, hselected]
      split at hexec <;> obtain ⟨rfl, rfl, rfl⟩ := step_inj hexec
      · rw [hread]
        exact ⟨AgreeOn.refl _ _, hselected, by simp [MotorEvent.inert], rfl⟩
      · exact ⟨AgreeOn.refl _ _, hselected, by simp, rfl⟩
  | write =>
      obtain ⟨rfl, rfl, rfl⟩ := step_inj hexec
      obtain ⟨hbits, hselected', hinert⟩ := handleWrite_of_unselected env hselected
      refine ⟨hbits, hselected', hinert, ?_⟩
      rcases handleWrite_next m env with hnext | hnext <;> rw [hnext] <;> rfl
  | _ => contradiction

/-- What `setTarget` does to a motor without a mode: it refuses. -/
theorem exec_aiming {code : Code} {val : Double} (hselected : m.selectedMode = none)
    (hcode : code = .targetCheck val ∨ code = .targetSet val)
    (hexec : m.exec env code = some (m', next, es)) :
    m' = m ∧ es = [] ∧ (next = .ret false ∨ next = .goto (.targetSet val)) := by
  rcases hcode with rfl | rfl
  · simp only [Motor.exec] at hexec
    split at hexec <;> obtain ⟨rfl, rfl, rfl⟩ := step_inj hexec
    · exact ⟨rfl, rfl, .inr rfl⟩
    · exact ⟨rfl, rfl, .inl rfl⟩
  · simp only [Motor.exec, Motor.setSelectedTarget, hselected] at hexec
    obtain ⟨rfl, rfl, rfl⟩ := step_inj hexec
    exact ⟨rfl, rfl, .inl rfl⟩

/-- Where a poll cycle goes, and what it reports. -/
theorem after_polls {call : Call} {code : Code} {frames : List Frame}
    (hcall : ∀ val, call ≠ .setTarget val) (hframes : ∀ frame ∈ frames, frame = .thenWrite)
    (hnext : next.polls = true) :
    (∀ t, (Thread.after ⟨call, code, frames⟩ next).1 = some t → t.Polls) ∧
      ∀ e ∈ (Thread.after ⟨call, code, frames⟩ next).2, e.inert = true := by
  cases next with
  | goto code' =>
      refine ⟨?_, by simp [Thread.after]⟩
      rintro t ⟨⟩
      exact .polling hcall hnext hframes
  | call frame code' => contradiction
  | ret ok =>
      cases frames with
      | nil =>
          refine ⟨by simp [Thread.after, unwind], ?_⟩
          intro e he
          obtain rfl := List.mem_singleton.mp he
          cases call with
          | setTarget val => exact absurd rfl (hcall val)
          | _ => rfl
      | cons frame frames =>
          obtain rfl := hframes frame (by simp)
          refine ⟨?_, by simp [Thread.after, unwind]⟩
          rintro t ⟨⟩
          exact .polling hcall rfl fun f hf => hframes f (by simp [hf])
  | throw => exact ⟨by simp [Thread.after], by simp [Thread.after, MotorEvent.inert]⟩

/-- `setTarget` goes on to refuse. -/
theorem after_aiming {val : Double} {code : Code}
    (hnext : next = .ret false ∨ next = .goto (.targetSet val)) :
    (∀ t, (Thread.after ⟨.setTarget val, code, []⟩ next).1 = some t → t.Polls) ∧
      ∀ e ∈ (Thread.after ⟨.setTarget val, code, []⟩ next).2, e.inert = true := by
  rcases hnext with rfl | rfl
  · exact ⟨by simp [Thread.after, unwind], by simp [Thread.after, unwind, MotorEvent.inert]⟩
  · refine ⟨?_, by simp [Thread.after]⟩
    rintro t ⟨⟩
    exact .aiming (.inr rfl)

/-- The calls of a polled motor start in a poll cycle or in `setTarget`. -/
theorem polls_entry {call : Call} {h : List MotorEvent} {s : MotorSystem} {i : ℕ}
    (hok : pollOnly h s (.enter i call)) :
    Thread.Polls ⟨call, (call.entry m).1, (call.entry m).2⟩ := by
  cases call with
  | pollTimerCallback => exact .polling (by simp) rfl (by simp [Call.entry])
  | handleRead => exact .polling (by simp) rfl (by simp [Call.entry])
  | handleWrite => exact .polling (by simp) rfl (by simp [Call.entry])
  | setTarget val => exact .aiming (.inl rfl)
  | _ => contradiction

end Step

namespace Idles
variable {cw₀ : Word} {h es : List MotorEvent} {s s' : MotorSystem} {i : MotorStep}

theorem stepped (hs : Idles cw₀ h s) (hok : pollOnly h s i) (hstep : Stepped s i s' es) :
    Idles cw₀ (es ++ h) s' := by
  cases hstep with
  | enters call hidle =>
      refine ⟨hs.bits, hs.unselected, forall_threads_update hs.polls ?_, fun hnothing e he => ?_⟩
      · rintro t ⟨⟩
        exact polls_entry hok
      · rcases List.mem_cons.mp he with rfl | he
        · rfl
        · exact hs.inert hnothing e he
  | @goes j env t m next es ht hexec =>
      have hpolls := hs.polls _ _ ht
      have hkept : AgreeOn ControlWord.stateBits m.controlWord s.motor.controlWord ∧
          m.selectedMode = none ∧
          (commandsNothing s.motor.controlWord = true → ∀ e ∈ es, e.inert = true) ∧
          (∀ t', (t.after next).1 = some t' → t'.Polls) ∧
          ∀ e ∈ (t.after next).2, e.inert = true := by
        cases hpolls with
        | polling hcall hcode hframes =>
            obtain ⟨hbits, hselected, hinert, hnext⟩ := exec_polls hs.unselected hcode hexec
            exact ⟨hbits, hselected, hinert, after_polls hcall hframes hnext⟩
        | aiming hcode =>
            obtain ⟨rfl, rfl, hnext⟩ := exec_aiming hs.unselected hcode hexec
            exact ⟨AgreeOn.refl _ _, hs.unselected, by simp, after_aiming hnext⟩
      obtain ⟨hbits, hselected, hinert, hthreads, hreport⟩ := hkept
      refine ⟨hbits.trans hs.bits, hselected, forall_threads_update hs.polls hthreads, ?_⟩
      intro hnothing e he
      rcases List.mem_append.mp he with he | he
      · rcases List.mem_append.mp he with he | he
        · exact hreport e he
        · exact hinert ((commandsNothing_congr hs.bits).trans hnothing) e he
      · exact hs.inert hnothing e he

/-- Along every run of poll cycles from a constructed motor. -/
theorem of_reach {s₀ : MotorSystem} (h₀ : s₀.Constructed)
    (hr : Reach s₀.startedFrom pollOnly h s) : Idles s₀.motor.controlWord h s := by
  refine hr.invariant ?_ ?_
  · rintro s rfl
    obtain ⟨-, -, hselected, hthreads⟩ := h₀
    exact ⟨AgreeOn.refl _ _, hselected, by simp [hthreads], by simp⟩
  · intro h s i s' es hs hok hstep
    exact hs.stepped hok (stepped_of_step hstep)

end Idles

/-! ## What the memory held is streamed -/

/-- A poll cycle of a drive that is not ready. -/
def pollCycle : List MotorStep := MotorStep.calls 0 .pollTimerCallback 4 (.answering 0 0 0)

theorem pollOnly_of_mem_pollCycle {i : MotorStep} (hi : i ∈ pollCycle) (h : List MotorEvent)
    (s : MotorSystem) : pollOnly h s i := by
  have hinput : i = .enter 0 .pollTimerCallback ∨ i = .go 0 (.answering 0 0 0) := by
    simpa [pollCycle, MotorStep.calls] using hi
  rcases hinput with rfl | rfl <;> trivial

/-- The second of two poll cycles streams the control word as constructed, with the halt
bit set. -/
theorem reach_twoCycles {s₀ : MotorSystem} (h₀ : s₀.Constructed) :
    ∃ h s, Reach s₀.startedFrom pollOnly h s ∧ ∃ index cw, .controlWord index cw ∈ h ∧
      AgreeOn ControlWord.stateBits cw s₀.motor.controlWord := by
  have hstart : Reach s₀.startedFrom pollOnly [] s₀ := .init rfl
  have hok : ∀ i ∈ pollCycle ++ pollCycle, ∀ h s, pollOnly h s i := fun i hi =>
    pollOnly_of_mem_pollCycle (by simpa using hi)
  obtain ⟨⟨statusWord, controlWord, startFaultReset, targetState, state, modes, modeAllocators,
    selectedMode, modeId, switchingState, channelOffset⟩, threads⟩ := s₀
  obtain ⟨rfl, rfl, rfl, rfl⟩ := h₀
  have hrun := System.reach_run_of _ (pollCycle ++ pollCycle) hstart hok rfl
  refine ⟨_, _, hrun, _, _, List.mem_cons_of_mem _ (List.mem_cons_self ..), ?_⟩
  exact (agreeOn_halted _).trans (agreeOn_halted _)

/-- **The start-up is inert exactly when the memory of `control_word_` was.**  In every run
of poll cycles from construction no transition is commanded and no target is accepted, if
and only if the state bits of the uninitialised control word happen to be clear. -/
theorem startUp_inert_iff {s₀ : MotorSystem} (h₀ : s₀.Constructed) :
    (∀ h s, Reach s₀.startedFrom pollOnly h s → ∀ e ∈ h, e.inert = true) ↔
      commandsNothing s₀.motor.controlWord = true := by
  constructor
  · intro hinert
    obtain ⟨h, s, hr, index, cw, hmem, hbits⟩ := reach_twoCycles h₀
    exact (commandsNothing_congr hbits).symm.trans (hinert h s hr _ hmem)
  · intro hnothing h s hr
    exact (Idles.of_reach h₀ hr).inert hnothing

/-- Where the memory held bits that command nothing. -/
theorem startUp_inert_otherBits :
    (∀ h s, Reach (MotorSystem.zeroed 0x0370 []).startedFrom pollOnly h s →
      ∀ e ∈ h, e.inert = true) ↔ commandsNothing 0x0370 = true :=
  startUp_inert_iff (MotorSystem.constructed_zeroed 0x0370 [])

/-- Where the memory held `0x0F`, the first poll cycle commands "enable operation". -/
theorem not_inert_startUp : ∃ (s₀ : MotorSystem) (h : List MotorEvent) (s : MotorSystem),
    s₀.Constructed ∧ Reach s₀.startedFrom pollOnly h s ∧
      .controlWord 0x6040 0x010F ∈ h ∧ commandsEnable 0x010F = true := by
  have hstart : Reach (MotorSystem.zeroed 0x0F []).startedFrom pollOnly [] _ := .init rfl
  have hrun := System.reach_run_of _ pollCycle hstart
    (fun _ hi => pollOnly_of_mem_pollCycle hi) rfl
  exact ⟨_, _, _, MotorSystem.constructed_zeroed 0x0F [], hrun,
    List.mem_cons_of_mem _ (List.mem_cons_self ..), by decide⟩

end RosCanopen.Cia402
