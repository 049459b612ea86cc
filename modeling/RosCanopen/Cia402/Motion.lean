import RosCanopen.Cia402.WriteSteps

/-!
# What authorises motion

The halt bit of the streamed control word is cleared only by a `handleWrite` that has found
the state `operationEnable`, and after that a mode that the drive displays and that has
accepted a target since it was last started; or, for homing, while homing is executed.  What
the motor remembers of this is spread over the decoded state, `mode_id_`, `selected_mode_`
and the mode objects, which different calls write; the history is the same for all of them.

None of it is guarded by `cw_mutex_`.  When the control word goes out, another thread may
have decoded a status word since, and the drive may no longer be enabled.

## Main definitions

* `lastDecoded`, `lastDisplayed` — what the drive has reported last.
* `authorised` — a mode has been armed, and not disarmed since.
* `TestedEnabled`, `AskedArmed` — what the `handleWrite` of a thread has found.
* `Authorising`, `Pending` — the invariants.
-/

namespace RosCanopen.Cia402

open Lib

namespace MotorEvent

def decodes : MotorEvent → Option InternalState
  | .decoded _ new => some new
  | _ => none

def displays : MotorEvent → Option ModeId
  | .displayed mode => some mode
  | _ => none

/-- The event arms the mode: it accepts a target that is a number, or homing is executed. -/
def arms (id : ModeId) : MotorEvent → Bool
  | .accepted id' val => id' = id ∧ val ≠ .nan ∧ id ≠ ModeId.homing
  | .executed => id = ModeId.homing
  | _ => false

/-- The event disarms the mode: it is started, or the execution of homing ends. -/
def disarms (id : ModeId) : MotorEvent → Bool
  | .started id' => id' = id
  | .withdrawn => id = ModeId.homing
  | _ => false

end MotorEvent

/-- The state decoded last. -/
def lastDecoded (h : List MotorEvent) : InternalState :=
  (h.findSome? MotorEvent.decodes).getD .start

/-- The mode displayed last. -/
def lastDisplayed (h : List MotorEvent) : Option ModeId := h.findSome? MotorEvent.displays

/-- The mode has been armed, and not disarmed since. -/
def authorised (id : ModeId) (h : List MotorEvent) : Bool :=
  since (fun e => !e.disarms id) (MotorEvent.arms id) h

/-! ## Armed modes -/

namespace Mode

/-- The mode has a target, or homing is to be executed. -/
def armed : Mode → Bool
  | .forward _ helper => helper.hasTarget
  | .profiledPosition helper _ _ => helper.hasTarget
  | .homing execute _ => execute

def isHoming : Mode → Bool
  | .homing _ _ => true
  | _ => false

@[simp] theorem armed_start (mode : Mode) : mode.start.armed = false := by
  cases mode <;> rfl

@[simp] theorem armed_read (mode : Mode) (sw : Word) : (mode.read sw).armed = mode.armed := by
  cases mode <;> rfl

@[simp] theorem isHoming_start (mode : Mode) : mode.start.isHoming = mode.isHoming := by
  cases mode <;> rfl

@[simp] theorem isHoming_read (mode : Mode) (sw : Word) :
    (mode.read sw).isHoming = mode.isHoming := by
  cases mode <;> rfl

/-- A write keeps the kind of the mode and whether it is armed, and succeeds only if it is. -/
theorem armed_write (channelOffset : BitVec 16) (mode : Mode) (cw : Word) (ok : Bool) :
    (mode.write channelOffset cw ok).mode.armed = mode.armed ∧
      (mode.write channelOffset cw ok).mode.isHoming = mode.isHoming ∧
      ((mode.write channelOffset cw ok).okay = true → mode.armed = true) := by
  cases mode with
  | forward spec helper =>
      simp only [write, writeForward]
      split
      · next htarget => split <;> exact ⟨rfl, rfl, fun _ => htarget⟩
      · exact ⟨rfl, rfl, by simp⟩
  | profiledPosition helper lastTarget sw =>
      simp only [write, writeProfiledPosition]
      split
      · next htarget => (repeat' split) <;> exact ⟨rfl, rfl, fun _ => htarget⟩
      · exact ⟨rfl, rfl, by simp⟩
  | homing execute status =>
      simp only [write, writeHoming]
      split
      · next hexecute => exact ⟨rfl, rfl, fun _ => hexecute⟩
      · exact ⟨rfl, rfl, by simp⟩

theorem isHoming_setTarget (mode : Mode) (val : Double) :
    (mode.setTarget val).1.isHoming = mode.isHoming := by
  cases mode <;> rfl

/-- A target that is refused changes nothing; one that is accepted is a number, and the
mode is not homing. -/
theorem setTarget_cases (mode : Mode) (val : Double) :
    ((mode.setTarget val).2 = false ∧ (mode.setTarget val).1 = mode) ∨
      ((mode.setTarget val).2 = true ∧ val ≠ .nan ∧ mode.isHoming = false) := by
  cases mode with
  | forward spec helper =>
      cases val with
      | nan => exact .inl ⟨rfl, rfl⟩
      | inf negative => cases negative <;> exact .inr ⟨rfl, by simp, rfl⟩
      | fin q => exact .inr ⟨rfl, by simp, rfl⟩
  | profiledPosition helper lastTarget sw =>
      cases val with
      | nan => exact .inl ⟨rfl, rfl⟩
      | inf negative => cases negative <;> exact .inr ⟨rfl, by simp, rfl⟩
      | fin q => exact .inr ⟨rfl, by simp, rfl⟩
  | homing execute status => exact .inl ⟨rfl, rfl⟩

theorem isHoming_fresh {id : ModeId} {raw : Raw} {mode : Mode} (h : fresh id raw = some mode) :
    mode.isHoming = decide (id = ModeId.homing) := by
  have hid : ∀ n < 2 ^ 16, id.toNat = n → decide (id = ModeId.homing) = decide (n = 6) := by
    intro n hn heq
    simp [← BitVec.toNat_inj, heq]
  rw [fresh] at h
  split at h <;> first | contradiction | skip
  all_goals
    next heq =>
      rw [hid _ (by decide) heq, ← Option.some.inj h]
      rfl

end Mode

section Touched
variable {id : ModeId} {h es : List MotorEvent} {o o' : Option Mode}

/-- Events that do not concern a mode leave it authorised or not. -/
theorem authorised_append (hes : ∀ e ∈ es, e.concerns id = false) :
    authorised id (es ++ h) = authorised id h := by
  refine since_append h fun e he => ?_
  have hquiet := hes e he
  cases e with
  | started id' => exact ⟨congrArg not hquiet, rfl⟩
  | accepted id' val =>
      have hid : id' ≠ id := of_decide_eq_false hquiet
      exact ⟨rfl, decide_eq_false fun harms => hid harms.1⟩
  | executed => exact ⟨rfl, hquiet⟩
  | withdrawn => exact ⟨congrArg not hquiet, rfl⟩
  | _ => exact ⟨rfl, rfl⟩

/-- Events that do not concern a mode do not start it. -/
theorem started_of_append (hes : ∀ e ∈ es, e.concerns id = false) (hid : .started id ∈ es ++ h) :
    .started id ∈ h := by
  rcases List.mem_append.mp hid with hid | hid
  · exact absurd (hes _ hid) (by simp)
  · exact hid

/-- **A step that leaves a mode armed leaves it authorised**, once it has been started. -/
theorem authorised_of_touched (htouched : Touched id es o o')
    (hkind : ∀ mode, o = some mode → mode.isHoming = decide (id = ModeId.homing))
    (hpresent : .started id ∈ h → o.isSome = true)
    (harmed : ∀ mode, .started id ∈ h → o = some mode → mode.armed = true →
      authorised id h = true) :
    ∀ mode', .started id ∈ es ++ h → o' = some mode' → mode'.armed = true →
      authorised id (es ++ h) = true := by
  intro mode' hstarted ho' harm
  cases htouched with
  | kept hes =>
      rw [authorised_append hes]
      exact harmed mode' (started_of_append hes hstarted) ho' harm
  | read mode sw hes =>
      cases ho'
      rw [authorised_append hes]
      exact harmed mode (started_of_append hes hstarted) rfl (by simpa using harm)
  | wrote mode channelOffset cw ok hes =>
      cases ho'
      rw [authorised_append hes]
      rw [(mode.armed_write channelOffset cw ok).1] at harm
      exact harmed mode (started_of_append hes hstarted) rfl harm
  | started mode =>
      cases ho'
      simp at harm
  | targeted mode val =>
      cases ho'
      rcases mode.setTarget_cases val with ⟨hrefused, hsame⟩ | ⟨haccepted, hnumber, hkind'⟩
      · simp only [hrefused, Bool.false_eq_true, if_false, List.nil_append] at hstarted ⊢
        exact harmed mode hstarted rfl (hsame ▸ harm)
      · have hid : id ≠ ModeId.homing := of_decide_eq_false ((hkind mode rfl).symm.trans hkind')
        have harms : (MotorEvent.accepted id val).arms id = true :=
          decide_eq_true ⟨rfl, hnumber, hid⟩
        simp [haccepted, authorised, harms]
  | allocated raw hmode => exact absurd (hpresent hstarted) (by simp)
  | executed status hid =>
      have harms : MotorEvent.executed.arms id = true := decide_eq_true hid
      simp [authorised, harms]
  | withdrawn status hid =>
      cases ho'
      contradiction

theorem kind_of_touched (htouched : Touched id es o o')
    (hkind : ∀ mode, o = some mode → mode.isHoming = decide (id = ModeId.homing)) :
    ∀ mode', o' = some mode' → mode'.isHoming = decide (id = ModeId.homing) := by
  intro mode' ho'
  cases htouched with
  | kept => exact hkind mode' ho'
  | read mode sw =>
      cases ho'
      simpa using hkind mode rfl
  | wrote mode channelOffset cw ok =>
      cases ho'
      rw [(mode.armed_write channelOffset cw ok).2.1]
      exact hkind mode rfl
  | started mode =>
      cases ho'
      simpa using hkind mode rfl
  | targeted mode val =>
      cases ho'
      rw [mode.isHoming_setTarget]
      exact hkind mode rfl
  | allocated raw hmode =>
      cases ho'
      exact Mode.isHoming_fresh hmode
  | executed status hid =>
      cases ho'
      exact (decide_eq_true hid).symm
  | withdrawn status hid =>
      cases ho'
      exact (decide_eq_true hid).symm

end Touched

/-! ## What the drive has reported -/

section Reported
variable {m m' : Motor} {env : Env} {code : Code} {next : Next} {h es : List MotorEvent}

/-- The event is no report of the drive. -/
def MotorEvent.Unread (e : MotorEvent) : Prop := e.decodes = none ∧ e.displays = none

/-- The two members that hold what the drive has reported follow the events of a step. -/
structure Follows (m m' : Motor) (es : List MotorEvent) : Prop where
  state : m'.state = (es.findSome? MotorEvent.decodes).getD m.state
  modeId : m'.modeId = (es.findSome? MotorEvent.displays).getD m.modeId

theorem follows_of_unread (hes : ∀ e ∈ es, e.Unread) (hstate : m'.state = m.state)
    (hmodeId : m'.modeId = m.modeId) : Follows m m' es where
  state := by rw [List.findSome?_eq_none_iff.mpr fun e he => (hes e he).1, hstate]; rfl
  modeId := by rw [List.findSome?_eq_none_iff.mpr fun e he => (hes e he).2, hmodeId]; rfl

theorem unread_of_isOpMode {e : MotorEvent} (he : e.isOpMode = true) : e.Unread := by
  cases e <;> first | contradiction | exact ⟨rfl, rfl⟩

theorem follows_of_effect (heffect : Effect m env code m' next es) : Follows m m' es := by
  cases heffect with
  | silent _ hes => exact follows_of_unread (fun e he => unread_of_isOpMode (hes e he)) rfl rfl
  | deselected _ hes => exact follows_of_unread (fun e he => unread_of_isOpMode (hes e he)) rfl rfl
  | decoded sw => exact ⟨rfl, rfl⟩
  | displayed sw mode =>
      obtain ⟨modes, heq⟩ := readSelected_motor m mode sw
      rw [heq]
      exact ⟨rfl, rfl⟩
  | wrote =>
      obtain ⟨modes, cw, reset, heq⟩ := handleWrite_motor m env
      refine follows_of_unread (fun e he => ?_) (by rw [heq]) (by rw [heq])
      have hwrites := writes_of_mem he
      cases e <;> first | contradiction | exact ⟨rfl, rfl⟩
  | targeted val =>
      obtain ⟨modes, heq⟩ := setSelectedTarget_motor m val
      refine follows_of_unread (fun e he => ?_) (by rw [heq]) (by rw [heq])
      obtain ⟨id, rfl⟩ := eq_accepted_of_mem he
      exact ⟨rfl, rfl⟩
  | started mode =>
      obtain ⟨modes, heq⟩ := startMode_motor m mode
      refine follows_of_unread (fun e he => ?_) (by rw [heq]) (by rw [heq])
      obtain rfl := eq_started_of_mem he
      exact ⟨rfl, rfl⟩
  | _ => exact ⟨rfl, rfl⟩

/-- Writing reads nothing of the drive. -/
theorem follows_of_writeEffect {code : WriteCode} {next : WriteNext}
    (heffect : WriteEffect m env code m' next es) : Follows m m' es := by
  obtain ⟨modes, cw, reset, heq⟩ := heffect.motor
  refine follows_of_unread (fun e he => ?_) (by rw [heq]) (by rw [heq])
  have hwrites := heffect.writes_of_mem he
  cases e <;> first | contradiction | exact ⟨rfl, rfl⟩

/-- On leaving its call a thread reports nothing of the drive. -/
theorem Follows.after {t : Thread} (hfollows : Follows m m' es) :
    Follows m m' ((t.after next).2 ++ es) := by
  have hunread : ∀ e ∈ (t.after next).2, e.Unread := by
    intro e he
    rcases reports_of_after he with ⟨ok, rfl⟩ | rfl <;> exact ⟨rfl, rfl⟩
  constructor
  · rw [List.findSome?_append, List.findSome?_eq_none_iff.mpr fun e he => (hunread e he).1]
    exact hfollows.state
  · rw [List.findSome?_append, List.findSome?_eq_none_iff.mpr fun e he => (hunread e he).2]
    exact hfollows.modeId

/-- A step changes what was reported last by its own events. -/
theorem lastDecoded_append : lastDecoded (es ++ h) =
    (es.findSome? MotorEvent.decodes).getD (lastDecoded h) := by
  rw [lastDecoded, List.findSome?_append, Option.getD_or]
  rfl

theorem lastDisplayed_append : lastDisplayed (es ++ h) =
    (es.findSome? MotorEvent.displays).or (lastDisplayed h) := by
  simp [lastDisplayed, List.findSome?_append]

end Reported

/-! ## The members and the history -/

/-- What has been emitted in a recorded run. -/
def said (h : List WritingRecord) : List MotorEvent := h.flatMap Record.events

@[simp] theorem said_cons (r : WritingRecord) (h : List WritingRecord) :
    said (r :: h) = r.events ++ said h := List.flatMap_cons

/-- The members of the motor agree with the history. -/
structure Authorising (h : List MotorEvent) (s : MotorSystem) : Prop where
  state : s.motor.state = lastDecoded h
  modeId : ∀ mode, lastDisplayed h = some mode → s.motor.modeId = mode
  kinds : ∀ id mode, s.motor.modes id = some mode →
    mode.isHoming = decide (id = ModeId.homing)
  armed : ∀ id mode, .started id ∈ h → s.motor.modes id = some mode → mode.armed = true →
    authorised id h = true

namespace Authorising
variable {h es : List MotorEvent} {s : MotorSystem} {m : Motor}

/-- What a step does to the members it also tells; so does what the thread reports after. -/
theorem touched (reports : List MotorEvent) {threads : ℕ → Option Thread}
    (hs : Authorising h s) (hlinked : Linked h s)
    (hfollows : Follows s.motor m (reports ++ es))
    (hreports : ∀ e ∈ reports, ∀ id, e.concerns id = false)
    (htouched : ∀ id, Touched id es (s.motor.modes id) (m.modes id)) :
    Authorising (reports ++ es ++ h) ⟨m, threads⟩ := by
  refine ⟨?_, fun mode hmode => ?_, fun id => kind_of_touched (htouched id) (hs.kinds id), ?_⟩
  · rw [hfollows.state, lastDecoded_append, hs.state]
  · rw [lastDisplayed_append] at hmode
    show m.modeId = mode
    rw [hfollows.modeId]
    cases hshown : (reports ++ es).findSome? MotorEvent.displays with
    | none =>
        rw [hshown] at hmode
        exact hs.modeId mode hmode
    | some mode' =>
        rw [hshown] at hmode
        exact Option.some.inj hmode
  · intro id mode hstarted hmode harm
    have hquiet : ∀ e ∈ reports, e.concerns id = false := fun e he => hreports e he id
    rw [List.append_assoc] at hstarted ⊢
    rw [authorised_append hquiet]
    exact authorised_of_touched (htouched id) (hs.kinds id) (hlinked.present id) (hs.armed id)
      mode (started_of_append hquiet hstarted) hmode harm

theorem concerns_of_after {t : Thread} {next : Next} :
    ∀ e ∈ (t.after next).2, ∀ id, e.concerns id = false := by
  intro e he id
  rcases reports_of_after he with ⟨ok, rfl⟩ | rfl <;> rfl

/-- **Every step keeps the members and the history in agreement.** -/
theorem writing {s s' : WritingSystem} {i : MotorStep} (hs : Authorising h s.toMotorSystem)
    (hlinked : Linked h s.toMotorSystem) (hstep : Writing s i s' es) :
    Authorising (es ++ h) s'.toMotorSystem := by
  cases hstep with
  | enters call hidle =>
      have hquiet : ∀ e ∈ [MotorEvent.called call], e.Unread ∧ ∀ id, e.concerns id = false := by
        intro e he
        rw [List.mem_singleton.mp he]
        exact ⟨⟨rfl, rfl⟩, fun _ => rfl⟩
      exact hs.touched [] hlinked (follows_of_unread (fun e he => (hquiet e he).1) rfl rfl)
        (by simp) fun id => .kept fun e he => (hquiet e he).2 id
  | goes ht _ _ hexec =>
      have heffect := effect_of_exec hexec
      exact hs.touched _ hlinked (follows_of_effect heffect).after concerns_of_after fun id =>
        touched_of_effect id heffect
  | writes ht _ _ hwrite =>
      have heffect := effect_of_writeStep hwrite
      exact hs.touched [] hlinked (follows_of_writeEffect heffect) (by simp) heffect.touched
  | leaves ht _ _ hwrite =>
      have heffect := effect_of_writeStep hwrite
      exact hs.touched _ hlinked (follows_of_writeEffect heffect).after concerns_of_after
        heffect.touched

end Authorising

/-! ## What `handleWrite` has found -/

namespace WritingRecord

/-- A step of thread `i`. -/
def moves (i : ℕ) (r : WritingRecord) : Bool :=
  match r.input with
  | .enter _ _ => false
  | .go j _ => decide (j = i)

/-- Thread `i` takes this step of `handleWrite`. -/
def takes (i : ℕ) (code : WriteCode) (r : WritingRecord) : Bool :=
  r.moves i && (r.state.threads i).any (fun t => decide (t.code = .write)) &&
    decide (r.state.turn i = some code)

end WritingRecord

/-- The `handleWrite` that thread `i` is in has tested the state, and found that the drive
was enabled when last decoded. -/
def TestedEnabled (i : ℕ) (h : List WritingRecord) : Prop :=
  ∃ new test old, h = new ++ test :: old ∧ (∀ r ∈ new, r.moves i = false) ∧
    test.takes i .test = true ∧ lastDecoded (said old) = .operationEnable

/-- After that it has asked the selected mode: the one in `mode_id_`, which is the one last
displayed if one has been, and armed since it was last started. -/
def AskedArmed (i : ℕ) (h : List WritingRecord) : Prop :=
  ∃ new ask old id, h = new ++ ask :: old ∧ (∀ r ∈ new, r.moves i = false) ∧
    ask.takes i .ask = true ∧ TestedEnabled i old ∧ ask.state.motor.selectedMode = some id ∧
    ask.state.motor.modeId = id ∧ (∀ mode, lastDisplayed (said old) = some mode → mode = id) ∧
    .started id ∈ said old ∧ authorised id (said old) = true

section Found
variable {i : ℕ} {r : WritingRecord} {h : List WritingRecord}

theorem TestedEnabled.cons (htested : TestedEnabled i h) (hr : r.moves i = false) :
    TestedEnabled i (r :: h) := by
  obtain ⟨new, test, old, rfl, hnew, hrest⟩ := htested
  exact ⟨r :: new, test, old, rfl, List.forall_mem_cons.mpr ⟨hr, hnew⟩, hrest⟩

theorem AskedArmed.cons (hasked : AskedArmed i h) (hr : r.moves i = false) :
    AskedArmed i (r :: h) := by
  obtain ⟨new, ask, old, id, rfl, hnew, hrest⟩ := hasked
  exact ⟨r :: new, ask, old, id, rfl, List.forall_mem_cons.mpr ⟨hr, hnew⟩, hrest⟩

theorem takes_go {s : WritingSystem} {env : Env} {t : Thread} {code : WriteCode}
    {es : List MotorEvent} (ht : s.threads i = some t) (hcode : t.code = .write)
    (hturn : s.turn i = some code) :
    WritingRecord.takes i code ⟨s, .go i env, es⟩ = true := by
  simp [WritingRecord.takes, WritingRecord.moves, ht, hcode, hturn]

end Found

/-- What the control word rests on while a thread is inside `handleWrite`: the halt bit is
set, or the mode has been asked. -/
inductive WriteCode.Rests (i : ℕ) (h : List WritingRecord) (m : Motor) : WriteCode → Prop
  | ask (hhalt : m.controlWord.getLsbD ControlWord.halt = true) (htested : TestedEnabled i h) :
      WriteCode.Rests i h m .ask
  | stream (hasked : m.controlWord.getLsbD ControlWord.halt = false → AskedArmed i h) :
      WriteCode.Rests i h m .stream

/-- The thread that holds `cw_mutex_` is inside `handleWrite`. -/
structure Pending (h : List WritingRecord) (s : WritingSystem) : Prop where
  inside : ∀ i code, s.writer = some (i, code) → ∃ t, s.threads i = some t ∧ t.code = .write
  rests : ∀ i code, s.writer = some (i, code) → code.Rests i h s.motor

section Step
variable {m m' : Motor} {env : Env} {i : ℕ} {h : List WritingRecord}

theorem WriteCode.Rests.cons {code : WriteCode} {r : WritingRecord} (hrests : code.Rests i h m)
    (hr : r.moves i = false) (hcw : m'.controlWord = m.controlWord) :
    code.Rests i (r :: h) m' := by
  cases hrests with
  | ask hhalt htested => exact .ask (hcw ▸ hhalt) (htested.cons hr)
  | stream hasked => exact .stream fun hclear => (hasked (hcw ▸ hclear)).cons hr

/-- Only steps that take `cw_mutex_` change the control word. -/
theorem controlWord_of_unlocked {code : Code} {next : Next} {es : List MotorEvent}
    (heffect : Effect m env code m' next es) (hlocks : code.locks = false) :
    m'.controlWord = m.controlWord := by
  cases heffect with
  | displayed sw mode =>
      obtain ⟨modes, heq⟩ := readSelected_motor m mode sw
      rw [heq]
  | wrote => contradiction
  | targeted val =>
      obtain ⟨modes, heq⟩ := setSelectedTarget_motor m val
      rw [heq]
  | started mode =>
      obtain ⟨modes, heq⟩ := startMode_motor m mode
      rw [heq]
  | transited => contradiction
  | armed => contradiction
  | haltQuick => contradiction
  | _ => rfl

end Step

/-- A turn inside `handleWrite` is that of the thread that holds `cw_mutex_`. -/
theorem writer_of_turn {s : WritingSystem} {i : ℕ} {code : WriteCode} (hturn : s.turn i = some code)
    (hcode : code ≠ .test) : s.writer = some (i, code) := by
  rw [WritingSystem.turn] at hturn
  split at hturn
  · exact absurd (Option.some.inj hturn).symm hcode
  · next j code' hwriter =>
      split at hturn
      · next hj => rw [hwriter, hj, Option.some.inj hturn]
      · contradiction

namespace Pending
variable {h : List WritingRecord} {s s' : WritingSystem} {input : MotorStep}
  {es : List MotorEvent} {i : ℕ} {env : Env} {t : Thread}

/-- A step of another thread outside `handleWrite` leaves the pending one as it is. -/
theorem other {m : Motor} {threads : ℕ → Option Thread} (hs : Pending h s)
    (hcw : s.writer ≠ none → m.controlWord = s.motor.controlWord)
    (hthread : ∀ j t, s.threads j = some t → t.code = .write → threads j = some t)
    (hmoves : ∀ j t, s.threads j = some t → t.code = .write →
      WritingRecord.moves j ⟨s, input, es⟩ = false) :
    Pending (⟨s, input, es⟩ :: h) ⟨⟨m, threads⟩, s.writer⟩ := by
  refine ⟨fun i code hwriter => ?_, fun i code hwriter => ?_⟩
  · obtain ⟨t, ht, hcode⟩ := hs.inside i code hwriter
    exact ⟨t, hthread i t ht hcode, hcode⟩
  · obtain ⟨t, ht, hcode⟩ := hs.inside i code hwriter
    have hcw' := hcw (by rw [show s.writer = _ from hwriter]; exact Option.some_ne_none _)
    exact (hs.rests i code hwriter).cons (hmoves i t ht hcode) hcw'

/-- **What a step of `handleWrite` finds** is what the control word rests on after it. -/
theorem found (hs : Pending h s) (hauth : Authorising (said h) s.toMotorSystem)
    (hlinked : Linked (said h) s.toMotorSystem) (ht : s.threads i = some t)
    (hcode : t.code = .write) {code code' : WriteCode} {m : Motor} (hturn : s.turn i = some code)
    (heffect : WriteEffect s.motor env code m (.goto code') es) :
    code'.Rests i (⟨s, .go i env, es⟩ :: h) m := by
  have htakes : WritingRecord.takes i code ⟨s, .go i env, es⟩ = true := takes_go ht hcode hturn
  cases heffect with
  | tested hcode' =>
      have hhalt : (overwrite 0 (bit ControlWord.halt) s.motor.controlWord).getLsbD
          ControlWord.halt = true := by simp [ControlWord.halt]
      by_cases hstate : s.motor.state = .operationEnable
      · rw [if_pos hstate] at hcode'
        subst hcode'
        exact .ask hhalt ⟨[], _, h, rfl, by simp, htakes, hauth.state.symm.trans hstate⟩
      · rw [if_neg hstate] at hcode'
        subst hcode'
        exact .stream fun hclear => absurd (hhalt.symm.trans hclear) (by simp)
  | @asked id mode r cw _ _ hactive hr hcw hnext =>
      obtain ⟨hgoto, -⟩ := hnext.resolve_right (by simp)
      obtain rfl := WriteNext.goto.inj hgoto
      refine .stream fun hclear => ?_
      have hrests := hs.rests i .ask (writer_of_turn hturn (by simp))
      cases hrests with
      | ask hhalt htested =>
          have hokay : r.okay = true := by
            by_contra hrefused
            have hkept := mode.agreeOn_write s.motor.channelOffset s.motor.controlWord
              env.driverOk ControlWord.halt (List.mem_cons_self ..)
            rw [← hr] at hkept
            rw [hcw, if_neg hrefused, hkept] at hclear
            exact absurd (hhalt.symm.trans hclear) (by simp)
          obtain ⟨hselected, hmodeId, hmode⟩ := activeMode_eq_some hactive
          have hstarted := hlinked.selected id hselected
          have harm : mode.armed = true := by
            rw [hr] at hokay
            exact (mode.armed_write _ _ _).2.2 hokay
          exact ⟨[], _, h, id, rfl, by simp, htakes, htested, hselected, hmodeId,
            fun shown hshown => (hauth.modeId shown hshown).symm.trans hmodeId, hstarted,
            hauth.armed id mode hstarted hmode harm⟩
  | ignored =>
      refine .stream fun hclear => ?_
      cases hs.rests i .ask (writer_of_turn hturn (by simp)) with
      | ask hhalt _ =>
          have hkept := OpModeAccesser.agreeOn_assign s.motor.controlWord 0 ControlWord.halt
            (List.mem_cons_self ..)
          exact absurd ((hkept.trans hhalt).symm.trans hclear) (by simp)

theorem writing (hs : Pending h s) (hauth : Authorising (said h) s.toMotorSystem)
    (hlinked : Linked (said h) s.toMotorSystem) (hstep : Writing s input s' es) :
    Pending (⟨s, input, es⟩ :: h) s' := by
  cases hstep with
  | @enters j call hidle =>
      refine hs.other (fun _ => rfl) (fun k t ht _ => ?_) fun _ _ _ _ => rfl
      have hk : k ≠ j := by
        rintro rfl
        exact absurd (hidle.symm.trans ht) (by simp)
      simpa [hk] using ht
  | @goes j env t m next es ht hcode hlock hexec =>
      have hother : ∀ k t', s.threads k = some t' → t'.code = .write → k ≠ j := by
        rintro k t' ht' hcode' rfl
        obtain rfl := Option.some.inj (ht.symm.trans ht')
        exact hcode hcode'
      refine hs.other (fun hwriter => ?_) (fun k t' ht' hcode' => ?_) fun k t' ht' hcode' => ?_
      · exact controlWord_of_unlocked (effect_of_exec hexec)
          (eq_false_of_ne_true fun hlocks => hwriter (hlock hlocks))
      · simpa [hother k t' ht' hcode'] using ht'
      · simpa [WritingRecord.moves] using (hother k t' ht' hcode').symm
  | @writes j env t code code' m es ht hcode hturn hwrite =>
      refine ⟨fun i code'' hwriter => ?_, fun i code'' hwriter => ?_⟩ <;> cases hwriter
      · exact ⟨t, ht, hcode⟩
      · exact hs.found hauth hlinked ht hcode hturn (effect_of_writeStep hwrite)
  | leaves => exact ⟨fun _ _ hwriter => by contradiction, fun _ _ hwriter => by contradiction⟩

/-- The invariants along every run. -/
theorem of_reach {ok : Guard WritingSystem MotorStep WritingRecord}
    (hr : Reach WritingSystem.system.recorded ok h s) :
    Pending h s ∧ Authorising (said h) s.toMotorSystem ∧ Linked (said h) s.toMotorSystem := by
  refine hr.invariant (I := fun h s => Pending h s ∧ Authorising (said h) s.toMotorSystem ∧
    Linked (said h) s.toMotorSystem) ?_ ?_
  · rintro s ⟨⟨hstate, hmodes, hselected, hthreads⟩, hwriter⟩
    refine ⟨⟨by simp [hwriter], by simp [hwriter]⟩,
      ⟨hstate, by simp [said, lastDisplayed], by simp [hmodes], by simp [said]⟩,
      ⟨by simp [said], by simp [hselected], by simp [hthreads]⟩⟩
  · rintro h s i s' rs ⟨hs, hauth, hlinked⟩ - hstep
    obtain ⟨es, hemits, rfl⟩ := System.recorded_step hstep
    have hwriting := writing_of_step hemits
    exact ⟨hs.writing hauth hlinked hwriting, by simpa using hauth.writing hlinked hwriting,
      by simpa using hlinked.writing hwriting⟩

end Pending

/-- **Motion is authorised when the mode is asked.**  A control word that is streamed with its
halt bit clear comes from a `handleWrite` that has found the state decoded last to be
`operationEnable`, and after that the selected mode to be the one in `mode_id_`, which is the
one displayed last if any has been, and to have accepted a target that is a number since it
was last started, or, for homing, homing executed and not withdrawn. -/
theorem motion_authorised {h : List WritingRecord} {s s' : WritingSystem} {input : MotorStep}
    {es : List MotorEvent} (hr : Reach WritingSystem.system.recorded Guard.free h s)
    (hstep : WritingSystem.system.step s input = some (s', es)) {index : BitVec 16} {cw : Word}
    (hcw : .controlWord index cw ∈ es) (hhalt : cw.getLsbD ControlWord.halt = false) :
    ∃ i, WritingRecord.takes i .stream ⟨s, input, es⟩ = true ∧ AskedArmed i h := by
  obtain ⟨hs, -, -⟩ := Pending.of_reach hr
  have hreports : ∀ {t : Thread} {next : Next}, .controlWord index cw ∉ (t.after next).2 := by
    intro t next hmem
    rcases reports_of_after hmem with ⟨ok, heq⟩ | heq <;> contradiction
  cases writing_of_step hstep with
  | enters call hidle => simp at hcw
  | goes ht hcode hlock hexec =>
      exact absurd (mem_handleWrite_of_writes hexec hcw rfl).1 hcode
  | writes ht hcode hturn hwrite =>
      cases effect_of_writeStep hwrite with
      | asked _ _ _ hnext =>
          rcases hnext with ⟨-, rfl⟩ | ⟨-, rfl⟩
          · obtain ⟨_, _, _, _, heq⟩ := mem_targetEvent hcw
            contradiction
          · contradiction
      | _ => contradiction
  | @leaves i env t code m next es ht hcode hturn hwrite =>
      have hmem := (List.mem_append.mp hcw).resolve_left hreports
      cases effect_of_writeStep hwrite with
      | streamed =>
          obtain ⟨-, rfl⟩ := MotorEvent.controlWord.inj (List.mem_singleton.mp hmem)
          rw [getLsbD_streamed_of_ne _ (by decide)] at hhalt
          refine ⟨i, takes_go ht hcode hturn, ?_⟩
          cases hs.rests i .stream (writer_of_turn hturn (by simp)) with
          | stream hasked => exact hasked hhalt
      | asked _ _ _ hnext =>
          obtain ⟨-, rfl⟩ := hnext.resolve_left (by simp)
          contradiction
      | lost => contradiction

/-! ## A status word between the asking and the streaming -/

/-- `handleWrite` streams a control word with the halt bit clear. -/
def MotorEvent.moves : MotorEvent → Bool
  | .controlWord _ cw => !cw.getLsbD ControlWord.halt
  | _ => false

theorem exists_of_moves {es : List MotorEvent} (h : es.any MotorEvent.moves = true) :
    ∃ index cw, .controlWord index cw ∈ es ∧ cw.getLsbD ControlWord.halt = false := by
  obtain ⟨e, he, hmoves⟩ := List.any_eq_true.mp h
  cases e with
  | controlWord index cw => exact ⟨index, cw, he, by simpa [MotorEvent.moves] using hmoves⟩
  | _ => contradiction

/-- A motor that has been initialised, has entered `Profiled_Velocity` and has accepted a
target tests and asks; before it streams, another thread reads that the drive is no longer
enabled. -/
def MotorStep.overtaken : List MotorStep :=
  MotorStep.aimVelocity (.fin 100) ++ MotorStep.calls 0 .pollTimerCallback 5 Env.velocity ++
    MotorStep.calls 2 .handleRead 2 { Env.velocity with statusWord := 0x23 }

/-- `handleWrite` clears the halt bit all the same: it has asked the mode before. -/
theorem motion_authorised_overtaken : ∃ (h : List WritingRecord) (r : WritingRecord),
    lastDecoded (said h) = .switchedOn ∧ ∃ i, r.takes i .stream = true ∧ AskedArmed i h := by
  have h0 : Reach WritingSystem.system.recorded Guard.free []
      ⟨.zeroed 0 [ModeId.profiledVelocity], none⟩ :=
    .init ⟨MotorSystem.constructed_zeroed 0 _, rfl⟩
  have hrun : (WritingSystem.system.recorded.run MotorStep.overtaken []
      ⟨.zeroed 0 [ModeId.profiledVelocity], none⟩).any
      (fun (p : List WritingRecord × WritingSystem) =>
        decide (lastDecoded (said p.1) = .switchedOn) &&
          (WritingSystem.system.step p.2 (.go 0 Env.velocity)).any fun q =>
            q.2.any MotorEvent.moves) = true := by
    decide +kernel
  obtain ⟨h, s, hreach, hcheck⟩ := System.exists_reach_run _ h0 hrun
  obtain ⟨hdecoded, hmoves⟩ := Bool.and_eq_true_iff.mp hcheck
  obtain ⟨⟨s', es⟩, hstep, hmoves⟩ := (Option.any_eq_true _ _).mp hmoves
  obtain ⟨index, cw, hmem, hhalt⟩ := exists_of_moves hmoves
  exact ⟨h, _, of_decide_eq_true hdecoded, motion_authorised hreach hstep hmem hhalt⟩

/-- The state decoded last need not be `operationEnable` when the control word goes out. -/
theorem not_motion_authorised : ¬ ∀ (h : List MotorEvent) (s s' : WritingSystem)
    (input : MotorStep) (es : List MotorEvent) (index : BitVec 16) (cw : Word),
    Reach WritingSystem.system Guard.free h s →
    WritingSystem.system.step s input = some (s', es) → .controlWord index cw ∈ es →
    cw.getLsbD ControlWord.halt = false →
    lastDecoded h = .operationEnable ∧ ∃ id, s.motor.selectedMode = some id ∧
      lastDisplayed h = some id ∧ .started id ∈ h ∧ authorised id h = true := by
  intro hclaim
  have h0 : Reach WritingSystem.system Guard.free []
      ⟨.zeroed 0 [ModeId.profiledVelocity], none⟩ :=
    .init ⟨MotorSystem.constructed_zeroed 0 _, rfl⟩
  have hrun : (WritingSystem.system.run MotorStep.overtaken []
      ⟨.zeroed 0 [ModeId.profiledVelocity], none⟩).any
      (fun (p : List MotorEvent × WritingSystem) =>
        decide (lastDecoded p.1 = .switchedOn) &&
          (WritingSystem.system.step p.2 (.go 0 Env.velocity)).any fun q =>
            q.2.any MotorEvent.moves) = true := by
    decide +kernel
  obtain ⟨h, s, hreach, hcheck⟩ := System.exists_reach_run _ h0 hrun
  obtain ⟨hdecoded, hmoves⟩ := Bool.and_eq_true_iff.mp hcheck
  obtain ⟨⟨s', es⟩, hstep, hmoves⟩ := (Option.any_eq_true _ _).mp hmoves
  obtain ⟨index, cw, hmem, hhalt⟩ := exists_of_moves hmoves
  have hstate := (hclaim h s s' _ es index cw hreach hstep hmem hhalt).1
  have hdecoded : lastDecoded h = .switchedOn := of_decide_eq_true hdecoded
  exact absurd (hstate.symm.trans hdecoded) (by decide)

end RosCanopen.Cia402
