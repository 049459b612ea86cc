import RosCanopen.Cia402.ModeStep

/-!
# Where the threads are

The mode that a thread holds at a program point has been started, and is in `modes_`;
so has the selected mode.  This follows from where a step can lead, read off the program
points once.

## Main definitions

* `Flow`, `flow_of_exec` — where a step leads.
* `Thread.Sound` — what the program point and the frames of a thread rest on.
* `Linked` — the invariant.
-/

namespace RosCanopen.Cia402

open Lib

/-- The program points of `readState`. -/
def Code.reads : Code → Bool
  | .readStatus => true
  | .readDecode _ => true
  | .readMode _ => true
  | _ => false

/-- The program point holds no mode object, and is not the one of `handleWrite`. -/
def Code.plain : Code → Bool
  | .write => false
  | .modeStart _ => false
  | .modeDisable _ => false
  | .opModeWrite _ => false
  | .modeWait _ => false
  | _ => true

/-- The frame holds no mode object, and does not lead to `handleWrite`. -/
def Frame.plain : Frame → Bool
  | .thenWrite => false
  | .thenOpMode _ => false
  | _ => true

namespace Next

/-- The step stays in `readState`, or throws. -/
def reads : Next → Bool
  | .goto code => code.reads
  | .throw => true
  | _ => false

def plain : Next → Bool
  | .goto code => code.plain
  | .call frame code => frame.plain && code.plain
  | _ => true

end Next

/-- Where a step leads. -/
inductive Flow (m : Motor) : Code → Next → List MotorEvent → Prop
  | reads {code : Code} {next : Next} {es : List MotorEvent} (hcode : code.reads = true)
      (hnext : next.reads = true) : Flow m code next es
  | shows (sw : Word) (mode : ModeId) : Flow m (.readMode sw) (.ret true) [.displayed mode]
  | starts (mode : ModeId) (hmode : (m.modes mode).isSome = true) :
      Flow m (.modeEnter mode) (.goto (.modeStart mode)) []
  | started (mode : ModeId) :
      Flow m (.modeStart mode) (.goto (.modeDisable mode)) (m.startMode mode).2
  | disables (mode : ModeId) (target : InternalState) :
      Flow m (.modeDisable mode) (.call (.thenOpMode mode) (.stateEnter target)) []
  | waits (mode : ModeId) {es : List MotorEvent} :
      Flow m (.opModeWrite mode) (.goto (.modeWait mode)) es
  | plain {code : Code} {next : Next} {es : List MotorEvent} (hcode : code.reads = false)
      (hnext : next.plain = true) : Flow m code next es

section Exec
variable {m m' : Motor} {env : Env} {next : Next} {es : List MotorEvent}

theorem isSome_of_allocMode {mode : ModeId} {supported : BitVec 32}
    (h : (m.allocMode mode supported).isSome = true) : (m.modes mode).isSome = true := by
  rw [Motor.allocMode] at h
  split at h
  · exact h
  · contradiction

/-- A wait of `executeHoming` leads on, or out of the call. -/
theorem flow_of_homingWait {code : Code} {timedOut ready : Bool}
    {go : Motor × Next × List MotorEvent} (hcode : code.reads = false)
    (h : m.homingWait timedOut ready go = some (m', next, es)) (hgo : go.2.1.plain = true) :
    Flow m code next es := by
  rcases homingWait_eq_some h with herror | heq
  · obtain ⟨-, rfl, -⟩ := step_inj (congrArg some herror)
    exact .plain hcode rfl
  · obtain ⟨-, rfl, -⟩ := step_inj (congrArg some heq)
    exact .plain hcode hgo

/-- **Where a step can lead**, read off the program points once. -/
theorem flow_of_exec {code : Code} (h : m.exec env code = some (m', next, es)) :
    Flow m code next es := by
  cases code with
  | readStatus =>
      simp only [Motor.exec] at h
      split at h <;> obtain ⟨-, rfl, -⟩ := step_inj h <;> exact .reads rfl rfl
  | readDecode sw =>
      obtain ⟨-, rfl, -⟩ := step_inj h
      exact .reads rfl rfl
  | readMode sw =>
      simp only [Motor.exec] at h
      split at h <;> obtain ⟨-, rfl, rfl⟩ := step_inj h
      · exact .shows sw _
      · exact .reads rfl rfl
  | write =>
      obtain ⟨-, rfl, -⟩ := step_inj h
      refine .plain rfl ?_
      rcases handleWrite_next m env with hnext | hnext <;> rw [hnext] <;> rfl
  | targetSet val =>
      obtain ⟨-, rfl, -⟩ := step_inj h
      obtain ⟨ok, hret⟩ := setSelectedTarget_next m val
      exact .plain rfl (by rw [hret]; rfl)
  | modeEnter mode =>
      simp only [Motor.exec] at h
      split at h
      · obtain ⟨-, rfl, -⟩ := step_inj h
        exact .plain rfl rfl
      · split at h
        · split at h <;> obtain ⟨-, rfl, rfl⟩ := step_inj h
          · next halloc => exact .starts mode (isSome_of_allocMode halloc)
          · exact .plain rfl rfl
        · obtain ⟨-, rfl, -⟩ := step_inj h
          exact .plain rfl rfl
  | modeStart mode =>
      obtain ⟨-, rfl, rfl⟩ := step_inj h
      exact .started mode
  | modeDisable mode =>
      simp only [Motor.exec] at h
      split at h <;> obtain ⟨-, rfl, rfl⟩ := step_inj h
      · exact .plain rfl rfl
      · exact .disables mode _
  | opModeWrite mode =>
      simp only [Motor.exec] at h
      split at h <;> obtain ⟨-, rfl, -⟩ := step_inj h
      · exact .waits mode
      · exact .plain rfl rfl
  | modeWait mode =>
      simp only [Motor.exec] at h
      split at h
      · obtain ⟨-, rfl, -⟩ := step_inj h
        exact .plain rfl rfl
      · split at h
        · split at h <;> obtain ⟨-, rfl, -⟩ := step_inj h <;> exact .plain rfl rfl
        · contradiction
  | initAlloc todo =>
      cases todo with
      | nil =>
          obtain ⟨-, rfl, -⟩ := step_inj h
          exact .plain rfl rfl
      | cons id todo =>
          simp only [Motor.exec] at h
          split at h <;> obtain ⟨-, rfl, -⟩ := step_inj h <;> exact .plain rfl rfl
  | stateTransit target state =>
      simp only [Motor.exec] at h
      refine .plain rfl ?_
      split at h <;> obtain ⟨-, rfl, -⟩ := step_inj h
      · split <;> rfl
      · rfl
  | stateWait target state =>
      simp only [Motor.exec] at h
      split at h
      · obtain ⟨-, rfl, -⟩ := step_inj h
        exact .plain rfl rfl
      · split at h
        · obtain ⟨-, rfl, -⟩ := step_inj h
          exact .plain rfl rfl
        · contradiction
  | initHoming =>
      simp only [Motor.exec] at h
      split at h
      · split at h <;> obtain ⟨-, rfl, -⟩ := step_inj h <;> exact .plain rfl rfl
      · obtain ⟨-, rfl, -⟩ := step_inj h
        exact .plain rfl rfl
  | homingMethod =>
      simp only [Motor.exec] at h
      refine .plain rfl ?_
      split at h <;> obtain ⟨-, rfl, -⟩ := step_inj h
      · split <;> rfl
      · rfl
  | homingPrepare => exact flow_of_homingWait rfl h rfl
  | homingStart => exact flow_of_homingWait rfl h rfl
  | homingAttain => exact flow_of_homingWait rfl h rfl
  | homingStop =>
      refine flow_of_homingWait rfl h ?_
      split <;> rfl
  | haltLocked state =>
      obtain ⟨ok, rfl⟩ := haltLocked_next (effect_of_exec h)
      exact .plain rfl rfl
  | recoverRestart =>
      simp only [Motor.exec] at h
      split at h <;> obtain ⟨-, rfl, -⟩ := step_inj h <;> exact .plain rfl rfl
  | targetCheck val =>
      simp only [Motor.exec] at h
      split at h <;> obtain ⟨-, rfl, -⟩ := step_inj h <;> exact .plain rfl rfl
  | stateCheck target state =>
      simp only [Motor.exec] at h
      split at h <;> obtain ⟨-, rfl, -⟩ := step_inj h <;> exact .plain rfl rfl
  | _ =>
      obtain ⟨-, rfl, -⟩ := step_inj h
      exact .plain rfl rfl

end Exec

/-! ## Frames -/

/-- Where a call goes on when the inner call has returned; `thenOkay` only returns. -/
def Frame.resume : Frame → Option Code
  | .thenWrite => some .write
  | .thenArm => some .initArm
  | .thenState target => some (.stateEnter target)
  | .thenOpMode mode => some (.opModeWrite mode)
  | .thenOkay _ => none
  | .thenHoming => some .initHoming
  | .thenExecute => some .homingMethod

/-- Returning resumes one of the frames, and drops those above it. -/
theorem unwind_eq_inl {frames rest : List Frame} {code : Code} :
    ∀ {ok : Bool}, unwind ok frames = .inl (code, rest) →
      ∃ dropped frame, frames = dropped ++ frame :: rest ∧ frame.resume = some code := by
  induction frames with
  | nil => simp [unwind]
  | cons frame frames ih =>
      intro ok h
      have hdrop : ∀ ok', unwind ok' frames = .inl (code, rest) →
          ∃ dropped frame', frame :: frames = dropped ++ frame' :: rest ∧
            frame'.resume = some code := by
        intro ok' hunwind
        obtain ⟨dropped, frame', rfl, hresume⟩ := ih hunwind
        exact ⟨frame :: dropped, frame', rfl, hresume⟩
      cases frame <;> cases ok <;> simp only [unwind] at h <;>
        first
        | exact hdrop _ h
        | (obtain ⟨rfl, rfl⟩ := Prod.mk.inj (Sum.inl.inj h)
           exact ⟨[], _, rfl, rfl⟩)

/-! ## Started and selected modes -/

section Grow
variable {m m' : Motor} {env : Env} {code : Code} {next : Next} {es : List MotorEvent}
  {id : ModeId}

/-- A mode that this step has started is in `modes_`, as `start()` leaves it. -/
theorem mode_of_started (heffect : Effect m env code m' next es) (he : .started id ∈ es) :
    ∃ mode, m.modes id = some mode ∧ m'.modes id = some mode.start := by
  cases heffect with
  | silent _ hes => exact absurd (hes _ he) (by simp [MotorEvent.isOpMode])
  | deselected _ hes => exact absurd (hes _ he) (by simp [MotorEvent.isOpMode])
  | wrote => exact absurd (writes_of_mem he) Bool.false_ne_true
  | targeted val =>
      obtain ⟨id', heq⟩ := eq_accepted_of_mem he
      contradiction
  | started mode =>
      obtain rfl := MotorEvent.started.inj (eq_started_of_mem he)
      rcases startMode_cases m id with ⟨mode, hmode, heq⟩ | ⟨-, heq⟩ <;> rw [heq] at he ⊢
      · exact ⟨mode, hmode, setMode_modes_self m id mode.start⟩
      · contradiction
  | _ => simp at he

/-- The selected mode was selected before, or this step has selected it and done no more. -/
theorem selected_of_effect (heffect : Effect m env code m' next es)
    (h : m'.selectedMode = some id) : m.selectedMode = some id ∨
      (code = .modeWait id ∧ m.modeId = id ∧ m'.modes = m.modes ∧ es = []) := by
  cases heffect with
  | displayed sw mode =>
      obtain ⟨modes, heq⟩ := readSelected_motor m mode sw
      rw [heq] at h
      exact .inl h
  | wrote =>
      obtain ⟨modes, cw, reset, heq⟩ := handleWrite_motor m env
      rw [heq] at h
      exact .inl h
  | targeted val =>
      obtain ⟨modes, heq⟩ := setSelectedTarget_motor m val
      rw [heq] at h
      exact .inl h
  | deselected => contradiction
  | started mode =>
      obtain ⟨modes, heq⟩ := startMode_motor m mode
      rw [heq] at h
      exact .inl h
  | selected mode hmode =>
      obtain rfl := Option.some.inj h
      exact .inr ⟨rfl, hmode, rfl, rfl⟩
  | _ => exact .inl h

end Grow

/-! ## What the threads rest on -/

/-- What a program point rests on. -/
def Code.Sound (h : List MotorEvent) (m : Motor) : Code → Prop
  | .modeStart mode => (m.modes mode).isSome = true
  | .modeDisable mode => .started mode ∈ h
  | .opModeWrite mode => .started mode ∈ h
  | .modeWait mode => .started mode ∈ h
  | _ => True

/-- What a frame rests on. -/
def Frame.Sound (h : List MotorEvent) : Frame → Prop
  | .thenOpMode mode => .started mode ∈ h
  | _ => True

/-- What a thread rests on. -/
structure Thread.Sound (h : List MotorEvent) (m : Motor) (t : Thread) : Prop where
  code : t.code.Sound h m
  frames : ∀ frame ∈ t.frames, frame.Sound h

/-- The modes the motor works with have been started, and are there. -/
structure Linked (h : List MotorEvent) (s : MotorSystem) : Prop where
  present : ∀ id, .started id ∈ h → (s.motor.modes id).isSome = true
  selected : ∀ id, s.motor.selectedMode = some id → .started id ∈ h
  sound : ∀ i t, s.threads i = some t → t.Sound h s.motor

section Sound
variable {h es : List MotorEvent} {m m' : Motor} {t : Thread} {next : Next}

theorem Code.Sound.mono {code : Code} (hcode : code.Sound h m)
    (hgrow : ∀ id, (m.modes id).isSome = true → (m'.modes id).isSome = true) :
    code.Sound (es ++ h) m' := by
  cases code with
  | modeStart mode => exact hgrow mode hcode
  | modeDisable mode => exact List.mem_append_right es hcode
  | opModeWrite mode => exact List.mem_append_right es hcode
  | modeWait mode => exact List.mem_append_right es hcode
  | _ => trivial

theorem Frame.Sound.mono {frame : Frame} (hframe : frame.Sound h) : frame.Sound (es ++ h) := by
  cases frame with
  | thenOpMode mode => exact List.mem_append_right es hframe
  | _ => trivial

theorem Code.sound_of_plain {code : Code} (hplain : code.plain = true) : code.Sound h m := by
  cases code <;> trivial

theorem Code.sound_of_reads {code : Code} (hreads : code.reads = true) : code.Sound h m := by
  cases code <;> trivial

theorem Frame.sound_of_plain {frame : Frame} (hplain : frame.plain = true) : frame.Sound h := by
  cases frame <;> trivial

/-- A frame hands what it rests on to the program point that it resumes. -/
theorem Frame.Sound.resume {frame : Frame} {code : Code} (hframe : frame.Sound h)
    (hresume : frame.resume = some code) : code.Sound h m := by
  cases frame <;> cases hresume <;> trivial

theorem Thread.Sound.mono (ht : t.Sound h m)
    (hgrow : ∀ id, (m.modes id).isSome = true → (m'.modes id).isSome = true) :
    t.Sound (es ++ h) m' :=
  ⟨ht.code.mono hgrow, fun frame hframe => (ht.frames frame hframe).mono⟩

/-- Returning keeps what the thread rests on. -/
theorem Thread.Sound.ret {ok : Bool} (ht : t.Sound h m) :
    ∀ t', (t.after (.ret ok)).1 = some t' → t'.Sound (es ++ h) m' := by
  intro t' ht'
  obtain ⟨call, code, frames⟩ := t
  simp only [Thread.after] at ht'
  split at ht'
  · next code' rest hunwind =>
      cases ht'
      obtain ⟨dropped, frame, rfl, hresume⟩ := unwind_eq_inl hunwind
      exact ⟨((ht.frames frame (by simp)).mono).resume hresume, fun f hf =>
        (ht.frames f (by simp [hf])).mono⟩
  · contradiction

/-- **A step keeps what its thread rests on.** -/
theorem Thread.Sound.after {env : Env} (ht : t.Sound h m)
    (hexec : m.exec env t.code = some (m', next, es)) :
    ∀ t', (t.after next).1 = some t' → t'.Sound ((t.after next).2 ++ es ++ h) m' := by
  intro t' ht'
  have hflow := flow_of_exec hexec
  have hframes : ∀ frame ∈ t.frames, frame.Sound ((t.after next).2 ++ es ++ h) :=
    fun frame hframe => (ht.frames frame hframe).mono
  have hgrow : ∀ id, (m.modes id).isSome = true → (m'.modes id).isSome = true := fun _ =>
    isSome_of_effect (effect_of_exec hexec)
  obtain ⟨call, code, frames⟩ := t
  cases next with
  | throw => contradiction
  | ret ok => exact ht.ret t' ht'
  | goto code' =>
      cases ht'
      refine ⟨?_, hframes⟩
      cases hflow with
      | reads _ hnext => exact Code.sound_of_reads hnext
      | starts mode hmode => exact hgrow mode hmode
      | started mode =>
          rcases startMode_cases m mode with ⟨mode', hmode, heq⟩ | ⟨hmode, heq⟩
          · exact List.mem_append_left h (by simp [heq])
          · exact absurd ht.code (by simp [Code.Sound, hmode])
      | waits mode => exact List.mem_append_right _ ht.code
      | plain _ hnext => exact Code.sound_of_plain hnext
  | call frame code' =>
      cases ht'
      cases hflow with
      | reads _ hnext => contradiction
      | disables mode target =>
          refine ⟨trivial, fun f hf => ?_⟩
          rcases List.mem_cons.mp hf with rfl | hf
          · exact List.mem_append_right _ ht.code
          · exact hframes f hf
      | plain _ hnext =>
          obtain ⟨hframe, hcode⟩ := Bool.and_eq_true_iff.mp hnext
          refine ⟨Code.sound_of_plain hcode, fun f hf => ?_⟩
          rcases List.mem_cons.mp hf with rfl | hf
          · exact Frame.sound_of_plain hframe
          · exact hframes f hf

/-- Where a call starts, it rests on nothing. -/
theorem sound_entry (call : Call) :
    Thread.Sound h m ⟨call, (call.entry m').1, (call.entry m').2⟩ := by
  constructor
  · cases call with
    | enterModeAndWait mode =>
        simp only [Call.entry]
        split <;> trivial
    | _ => trivial
  · intro frame hframe
    cases call <;> simp [Call.entry] at hframe <;> subst hframe <;> trivial

end Sound

namespace Linked
variable {h es : List MotorEvent} {s s' : MotorSystem} {i : MotorStep}

/-- **Every step links the modes**, whatever the order of steps. -/
theorem stepped (hs : Linked h s) (hstep : Stepped s i s' es) : Linked (es ++ h) s' := by
  cases hstep with
  | enters call hidle =>
      refine ⟨fun id hid => ?_, fun id hid => List.mem_cons_of_mem _ (hs.selected id hid),
        forall_threads_update (fun j t ht => (hs.sound j t ht).mono fun _ h => h) ?_⟩
      · exact hs.present id (by simpa using hid)
      · rintro t ⟨⟩
        exact sound_entry call
  | @goes j env t m next es ht hexec =>
      have heffect := effect_of_exec hexec
      have hgrow : ∀ id, (s.motor.modes id).isSome = true → (m.modes id).isSome = true := fun _ =>
        isSome_of_effect heffect
      have hsound := hs.sound j t ht
      refine ⟨fun id hid => ?_, fun id hid => ?_,
        forall_threads_update (fun j t ht => (hs.sound j t ht).mono hgrow) (hsound.after hexec)⟩
      · rcases List.mem_append.mp hid with hid | hid
        · rcases List.mem_append.mp hid with hid | hid
          · rcases reports_of_after hid with ⟨ok, heq⟩ | heq <;> contradiction
          · obtain ⟨mode, -, hmode⟩ := mode_of_started heffect hid
            exact Option.isSome_iff_exists.mpr ⟨_, hmode⟩
        · exact hgrow id (hs.present id hid)
      · refine List.mem_append_right _ ?_
        rcases selected_of_effect heffect hid with hselected | ⟨hcode, -⟩
        · exact hs.selected id hselected
        · have hcode' := hsound.code
          rw [hcode] at hcode'
          exact hcode'

/-- The modes are linked along every run. -/
theorem of_reach {ok : Guard MotorSystem MotorStep MotorEvent}
    (hr : Reach MotorSystem.system ok h s) : Linked h s := by
  refine hr.invariant ?_ ?_
  · rintro s ⟨-, -, hselected, hthreads⟩
    exact ⟨by simp, by simp [hselected], by simp [hthreads]⟩
  · intro h s i s' es hs _ hstep
    exact hs.stepped (stepped_of_step hstep)

end Linked

end RosCanopen.Cia402
