import RosCanopen.Cia402.Flow

/-!
# Where a written target comes from

A mode keeps its target until it is started again, and only `handleRecover` and a mode
switch start it.  When the drive leaves `operationEnable` in any other way and enters it
again, the target that was accepted before is still pending, and the next cycle writes it
with the halt bit clear.  Runs in which no pending target is carried over an entry write
no stale target.

## Main definitions

* `Mode.pending` — the target that a mode would write.
* `freshTarget` — the target has been accepted since the drive was last enabled.
* `settled` — the steps that carry no pending target over an entry.
-/

namespace RosCanopen.Cia402

open Lib

namespace Mode

/-- The target that the mode would write to its target object. -/
def pending : Mode → Option ℤ
  | .forward _ helper => if helper.hasTarget then some helper.target else none
  | .profiledPosition helper lastTarget _ =>
      if helper.hasTarget ∧ lastTarget ≠ .fin helper.target then some helper.target else none
  | .homing _ _ => none

/-- What `setTarget` makes of a value. -/
def cast : Mode → Double → Option ℤ
  | .forward spec _ => numericCast spec.limits
  | .profiledPosition _ _ _ => numericCast Limits.int32
  | .homing _ _ => fun _ => none

end Mode

namespace MotorEvent

/-- The drive has entered `operationEnable`. -/
def enters : MotorEvent → Bool
  | .decoded old new => new = .operationEnable ∧ old ≠ .operationEnable
  | _ => false

/-- The mode has accepted a value that it casts to `target`. -/
def sets (id : ModeId) (cast : Double → Option ℤ) (target : ℤ) : MotorEvent → Bool
  | .accepted id' val => id' = id ∧ cast val = some target
  | _ => false

end MotorEvent

/-- The target has been accepted since the drive last entered `operationEnable`. -/
def freshTarget (id : ModeId) (cast : Double → Option ℤ) (target : ℤ) (h : List MotorEvent) :
    Bool :=
  since (fun e => !e.enters) (MotorEvent.sets id cast target) h

/-- A pending target of the mode object is fresh. -/
def Fresh (id : ModeId) (h : List MotorEvent) (o : Option Mode) : Prop :=
  ∀ mode ∈ o, ∀ target ∈ mode.pending, freshTarget id mode.cast target h = true

instance (id : ModeId) (h : List MotorEvent) (o : Option Mode) : Decidable (Fresh id h o) :=
  inferInstanceAs (Decidable (∀ mode ∈ o, ∀ target ∈ mode.pending, _ = true))

/-- The step carries no pending target over an entry: the drive enters `operationEnable`
only while the selected mode has none, and no mode is selected with a stale one. -/
def Code.settled (h : List MotorEvent) (m : Motor) : Code → Bool
  | .readDecode sw => State402.read sw = .operationEnable → m.state ≠ .operationEnable →
      (m.selectedMode.bind m.modes).bind Mode.pending = none
  | .modeWait id => m.modeId = id → Fresh id h (m.modes id)
  | _ => true

/-- The steps that carry no pending target over an entry. -/
def settled : Guard MotorSystem MotorStep MotorEvent
  | _, _, .enter _ _ => True
  | h, s, .go i _ => ∀ t ∈ s.threads i, t.code.settled h s.motor = true

/-! ## Pending targets -/

namespace Mode

@[simp] theorem pending_start (mode : Mode) : mode.start.pending = none := by
  cases mode <;> rfl

@[simp] theorem pending_read (mode : Mode) (sw : Word) : (mode.read sw).pending = mode.pending := by
  cases mode <;> rfl

@[simp] theorem cast_read (mode : Mode) (sw : Word) : (mode.read sw).cast = mode.cast := by
  cases mode <;> rfl

/-- A write keeps the cast, makes no target pending, and writes the pending one. -/
theorem pending_write (channelOffset : BitVec 16) (mode : Mode) (cw : Word) (ok : Bool) :
    (mode.write channelOffset cw ok).mode.cast = mode.cast ∧
      (∀ target ∈ (mode.write channelOffset cw ok).mode.pending, mode.pending = some target) ∧
      ∀ index sub target, (mode.write channelOffset cw ok).target = some (index, sub, target) →
        mode.pending = some target := by
  cases mode with
  | forward spec helper =>
      simp only [write, writeForward]
      split
      · next htarget =>
          split
          · exact ⟨rfl, fun _ h => h, by simp [pending, htarget]⟩
          · exact ⟨rfl, fun _ h => h, by simp⟩
      · exact ⟨rfl, fun _ h => h, by simp⟩
  | profiledPosition helper lastTarget sw =>
      simp only [write, writeProfiledPosition]
      split
      · next htarget =>
          split
          · next hnew =>
              -- the handshake: the target is written, and then it is the last one
              split
              · exact ⟨rfl, fun _ h => h, by simp⟩
              · split
                · exact ⟨rfl, by simp [pending], by simp [pending, htarget, hnew.2]⟩
                · exact ⟨rfl, fun _ h => h, by simp⟩
          · split <;> exact ⟨rfl, fun _ h => h, by simp⟩
      · exact ⟨rfl, fun _ h => h, by simp⟩
  | homing execute status =>
      simp only [write, writeHoming]
      split <;> exact ⟨rfl, fun _ h => h, by simp⟩

/-- A refused target changes nothing, and an accepted one is what is pending, if any. -/
theorem pending_setTarget (mode : Mode) (val : Double) :
    (mode.setTarget val).1.cast = mode.cast ∧
      (((mode.setTarget val).2 = false ∧ (mode.setTarget val).1 = mode) ∨
        ((mode.setTarget val).2 = true ∧
          ∀ target ∈ (mode.setTarget val).1.pending, mode.cast val = some target)) := by
  cases mode with
  | forward spec helper =>
      refine ⟨rfl, ?_⟩
      simp only [setTarget, TargetHelper.setTarget, cast]
      cases numericCast spec.limits val with
      | none => exact .inl ⟨rfl, rfl⟩
      | some target => exact .inr ⟨rfl, by simp [pending]⟩
  | profiledPosition helper lastTarget sw =>
      refine ⟨rfl, ?_⟩
      simp only [setTarget, TargetHelper.setTarget, cast]
      cases numericCast Limits.int32 val with
      | none => exact .inl ⟨rfl, rfl⟩
      | some target =>
          refine .inr ⟨rfl, fun target' hpending => ?_⟩
          simp only [pending] at hpending
          split at hpending
          · exact hpending
          · contradiction
  | homing execute status => exact ⟨rfl, .inl ⟨rfl, rfl⟩⟩

end Mode

/-! ## Fresh targets -/

section Fresh
variable {id : ModeId} {cast : Double → Option ℤ} {target : ℤ} {h es : List MotorEvent}
  {o o' : Option Mode} {m m' : Motor} {env : Env} {code : Code} {next : Next}

/-- Events that neither concern the mode nor tell of an entry leave a target as it is. -/
theorem freshTarget_append (hes : ∀ e ∈ es, e.concerns id = false ∧ e.enters = false) :
    freshTarget id cast target (es ++ h) = freshTarget id cast target h := by
  refine since_append h fun e he => ?_
  obtain ⟨hquiet, henters⟩ := hes e he
  refine ⟨congrArg not henters, ?_⟩
  cases e with
  | accepted id' val =>
      have hid : id' ≠ id := of_decide_eq_false hquiet
      exact decide_eq_false fun hsets => hid hsets.1
  | _ => rfl

theorem Fresh.append (hfresh : Fresh id h o)
    (hes : ∀ e ∈ es, e.concerns id = false ∧ e.enters = false) : Fresh id (es ++ h) o := by
  intro mode hmode target hpending
  rw [freshTarget_append hes]
  exact hfresh mode hmode target hpending

theorem fresh_of_pending_none (hnone : ∀ mode ∈ o, mode.pending = none) : Fresh id h o := by
  intro mode hmode target hpending
  rw [hnone mode hmode] at hpending
  contradiction

/-- **A step that is no entry keeps a pending target fresh.** -/
theorem Fresh.touched (hfresh : Fresh id h o) (htouched : Touched id es o o')
    (hes : ∀ e ∈ es, e.enters = false) (hsome : o.isSome = true) : Fresh id (es ++ h) o' := by
  cases htouched with
  | kept hquiet => exact hfresh.append fun e he => ⟨hquiet e he, hes e he⟩
  | read mode sw hquiet =>
      refine Fresh.append ?_ fun e he => ⟨hquiet e he, hes e he⟩
      rintro _ ⟨⟩ target hpending
      rw [Mode.pending_read] at hpending
      rw [Mode.cast_read]
      exact hfresh mode rfl target hpending
  | wrote mode channelOffset cw ok hquiet =>
      refine Fresh.append ?_ fun e he => ⟨hquiet e he, hes e he⟩
      rintro _ ⟨⟩ target hpending
      obtain ⟨hcast, hkept, -⟩ := mode.pending_write channelOffset cw ok
      rw [hcast]
      exact hfresh mode rfl target (hkept target hpending)
  | started mode =>
      refine fresh_of_pending_none ?_
      rintro _ ⟨⟩
      exact mode.pending_start
  | targeted mode val =>
      rintro _ ⟨⟩ target hpending
      obtain ⟨hcast, ⟨hrefused, hsame⟩ | ⟨haccepted, hset⟩⟩ := mode.pending_setTarget val
      · rw [hsame] at hpending
        simp only [hrefused, hcast, Bool.false_eq_true, if_false, List.nil_append]
        exact hfresh mode rfl target hpending
      · have hsets : (MotorEvent.accepted id val).sets id mode.cast target = true :=
          decide_eq_true ⟨rfl, hset target hpending⟩
        simp [haccepted, hcast, freshTarget, hsets]
  | allocated raw hmode => contradiction
  | executed status hid =>
      refine fresh_of_pending_none ?_
      rintro _ ⟨⟩
      rfl
  | withdrawn status hid =>
      refine fresh_of_pending_none ?_
      rintro _ ⟨⟩
      rfl

/-- Only the decoding of a status word tells of an entry. -/
theorem enters_of_effect (heffect : Effect m env code m' next es) {e : MotorEvent} (he : e ∈ es)
    (henters : e.enters = true) : ∃ sw, code = .readDecode sw ∧
      State402.read sw = .operationEnable ∧ m.state ≠ .operationEnable ∧ m'.modes = m.modes := by
  cases heffect with
  | decoded sw =>
      obtain rfl := List.mem_singleton.mp he
      obtain ⟨hnew, hold⟩ := of_decide_eq_true henters
      exact ⟨sw, rfl, hnew, hold, rfl⟩
  | silent _ hes =>
      have hopMode := hes e he
      cases e <;> contradiction
  | deselected _ hes =>
      have hopMode := hes e he
      cases e <;> contradiction
  | wrote =>
      have hwrites := writes_of_mem he
      cases e <;> contradiction
  | targeted val =>
      obtain ⟨id, rfl⟩ := eq_accepted_of_mem he
      contradiction
  | started mode =>
      obtain rfl := eq_started_of_mem he
      contradiction
  | displayed sw mode => rw [List.mem_singleton.mp he] at henters; contradiction
  | executed => rw [List.mem_singleton.mp he] at henters; contradiction
  | withdrawn => rw [List.mem_singleton.mp he] at henters; contradiction
  | _ => simp at he

end Fresh

/-- A pending target of the selected mode is fresh. -/
def Settled (h : List MotorEvent) (s : MotorSystem) : Prop :=
  ∀ id, s.motor.selectedMode = some id → Fresh id h (s.motor.modes id)

namespace Settled
variable {h es : List MotorEvent} {s s' : MotorSystem} {i : MotorStep}

theorem stepped (hs : Settled h s) (hlinked : Linked h s) (hok : settled h s i)
    (hstep : Stepped s i s' es) : Settled (es ++ h) s' := by
  intro id hselected
  cases hstep with
  | enters call hidle =>
      refine (hs id hselected).append fun e he => ?_
      rw [List.mem_singleton.mp he]
      exact ⟨rfl, rfl⟩
  | @goes j env t m next es ht hexec =>
      have heffect := effect_of_exec hexec
      have hsettled := hok t ht
      have hreport : ∀ e ∈ (t.after next).2, e.concerns id = false ∧ e.enters = false := by
        intro e he
        rcases reports_of_after he with ⟨ok, rfl⟩ | rfl <;> exact ⟨rfl, rfl⟩
      rw [List.append_assoc]
      refine Fresh.append ?_ hreport
      rcases selected_of_effect heffect hselected with hbefore | ⟨hcode, hmodeId, hmodes, rfl⟩
      · by_cases hentry : ∃ e ∈ es, e.enters = true
        · obtain ⟨e, he, henters⟩ := hentry
          obtain ⟨sw, hcode, hnew, hold, hmodes⟩ := enters_of_effect heffect he henters
          rw [hcode] at hsettled
          have hnone := of_decide_eq_true hsettled hnew hold
          refine fresh_of_pending_none fun mode hmode => ?_
          rw [hmodes] at hmode
          simpa [hbefore, Option.mem_def.mp hmode] using hnone
        · refine (hs id hbefore).touched (touched_of_effect id heffect) (fun e he => ?_)
            (hlinked.present id (hlinked.selected id hbefore))
          exact eq_false_of_ne_true fun henters => hentry ⟨e, he, henters⟩
      · rw [hcode] at hsettled
        rw [hmodes]
        exact of_decide_eq_true hsettled hmodeId

theorem of_reach (hr : Reach MotorSystem.system settled h s) : Settled h s := by
  induction hr with
  | init hs =>
      obtain ⟨-, -, hselected, -⟩ := hs
      intro id hid
      rw [hselected] at hid
      contradiction
  | step hr hok hstep ih => exact ih.stepped (Linked.of_reach hr) hok (stepped_of_step hstep)

end Settled

/-- **No stale target along runs that carry none over an entry.**  Every target that is
written to the drive was accepted since the drive last entered `operationEnable`. -/
theorem target_fresh_of_settled {h es : List MotorEvent} {s s' : MotorSystem} {i : MotorStep}
    (hr : Reach MotorSystem.system settled h s)
    (hstep : MotorSystem.system.step s i = some (s', es)) {id : ModeId} {index : BitVec 16}
    {sub : BitVec 8} {target : ℤ} (htarget : .target id index sub target ∈ es) :
    ∃ mode ∈ s.motor.modes id, freshTarget id mode.cast target h = true := by
  have hs := Settled.of_reach hr
  cases stepped_of_step hstep with
  | enters call hidle => simp at htarget
  | @goes j env t m next es ht hexec =>
      obtain ⟨-, -, hwrite⟩ := mem_handleWrite_of_writes hexec htarget rfl
      obtain ⟨m₁, r, hw, hwritten⟩ := mem_target hwrite
      cases hw with
      | @asked _ mode _ _ _ hactive hr _ _ =>
          obtain ⟨hselected, -, hmode⟩ := activeMode_eq_some hactive
          rw [hr] at hwritten
          have hpending := (mode.pending_write _ _ _).2.2 _ _ _ hwritten
          exact ⟨mode, hmode, hs id hselected mode hmode target hpending⟩

/-- A step that is settled at the program point of its thread. -/
def settles (h : List MotorEvent) (s : MotorSystem) : MotorStep → Bool
  | .enter _ _ => true
  | .go i _ => (s.threads i).all fun t => t.code.settled h s.motor

theorem settled_of_settles {h : List MotorEvent} {s : MotorSystem} {i : MotorStep}
    (hcheck : settles h s i = true) : settled h s i := by
  cases i with
  | enter i call => trivial
  | go i env =>
      intro t ht
      simpa [settles, Option.mem_def.mp ht] using hcheck

/-- The run: a target is accepted and written, the drive is disabled and recovered, another
target is accepted, and the poll timer has read the status word. -/
def recovered : List MotorStep :=
  let on := Env.answering 0x23 3 4
  MotorStep.aimVelocity (.fin 100) ++
    MotorStep.calls 0 .pollTimerCallback 4 Env.velocity ++
    MotorStep.calls 1 .handleDisable 7 Env.velocity ++
    MotorStep.calls 0 .pollTimerCallback 4 on ++
    List.replicate 2 (.go 1 on) ++
    MotorStep.calls 1 .handleRecover 6 on ++
    MotorStep.calls 0 .pollTimerCallback 4 Env.velocity ++
    List.replicate 2 (.go 1 Env.velocity) ++
    MotorStep.calls 1 (.setTarget (.fin 250)) 2 Env.velocity ++
    MotorStep.calls 0 .pollTimerCallback 3 Env.velocity

/-- The drive has left `operationEnable` and come back; the target that is written then has
been accepted after that. -/
theorem target_fresh_recovered : ∃ (s : MotorSystem) (h : List MotorEvent),
    .target ModeId.profiledVelocity 0x60FF 0 100 ∈ h ∧
      .decoded .operationEnable .switchedOn ∈ h ∧ .decoded .switchedOn .operationEnable ∈ h ∧
      ∃ mode ∈ s.motor.modes ModeId.profiledVelocity,
        freshTarget ModeId.profiledVelocity mode.cast 250 h = true := by
  have h0 : Reach MotorSystem.system settled [] (.zeroed 0 [ModeId.profiledVelocity]) :=
    .init (MotorSystem.constructed_zeroed 0 _)
  have hwrites : (MotorSystem.system.runIf settles recovered []
      (.zeroed 0 [ModeId.profiledVelocity])).any (fun p =>
        decide (.target ModeId.profiledVelocity 0x60FF 0 100 ∈ p.1 ∧
          .decoded .operationEnable .switchedOn ∈ p.1 ∧
          .decoded .switchedOn .operationEnable ∈ p.1) &&
        (MotorSystem.system.step p.2 (.go 0 Env.velocity)).any fun q =>
          decide (.target ModeId.profiledVelocity 0x60FF 0 250 ∈ q.2)) = true := by
    decide +kernel
  obtain ⟨h, s, hr, hwrites⟩ := MotorSystem.system.exists_reach_runIf h0
    (fun _ _ _ hcheck => settled_of_settles hcheck) hwrites
  obtain ⟨hhistory, hwrites⟩ := Bool.and_eq_true_iff.mp hwrites
  obtain ⟨hwritten, hleft, hback⟩ := of_decide_eq_true hhistory
  obtain ⟨⟨s', es⟩, hstep, hwrites⟩ := (Option.any_eq_true ..).mp hwrites
  exact ⟨s, h, hwritten, hleft, hback,
    target_fresh_of_settled hr hstep (of_decide_eq_true hwrites)⟩

/-- The run: a target is accepted, the drive is disabled and enabled again, and the poll
timer has read that it is enabled. -/
def reenabled : List MotorStep :=
  let on := Env.answering 0x23 3 4
  MotorStep.aimVelocity (.fin 100) ++
    MotorStep.calls 1 .handleDisable 7 Env.velocity ++
    MotorStep.calls 0 .pollTimerCallback 4 on ++
    List.replicate 2 (.go 1 on) ++
    MotorStep.calls 1 .handleEnable 7 on ++
    MotorStep.calls 0 .pollTimerCallback 3 Env.velocity

/-- After `handleDisable` and `handleEnable` the target from before is written, together
with a control word whose halt bit is clear. -/
theorem not_target_fresh : ∃ (h : List MotorEvent) (s s' : MotorSystem) (es : List MotorEvent),
    Reach MotorSystem.system Guard.free h s ∧
      MotorSystem.system.step s (.go 0 Env.velocity) = some (s', es) ∧
      .target ModeId.profiledVelocity 0x60FF 0 100 ∈ es ∧
      (∃ cw, .controlWord 0x6040 cw ∈ es ∧ cw.getLsbD ControlWord.halt = false) ∧
      ¬ ∃ mode ∈ s.motor.modes ModeId.profiledVelocity,
        freshTarget ModeId.profiledVelocity mode.cast 100 h = true := by
  have h0 : Reach MotorSystem.system Guard.free [] (.zeroed 0 [ModeId.profiledVelocity]) :=
    .init (MotorSystem.constructed_zeroed 0 _)
  have hwrites : (MotorSystem.system.run reenabled []
      (.zeroed 0 [ModeId.profiledVelocity])).any (fun p =>
        (MotorSystem.system.step p.2 (.go 0 Env.velocity)).any fun q =>
          decide (.target ModeId.profiledVelocity 0x60FF 0 100 ∈ q.2 ∧
            .controlWord 0x6040 0x000F ∈ q.2 ∧
            ¬ ∃ mode ∈ p.2.motor.modes ModeId.profiledVelocity,
              freshTarget ModeId.profiledVelocity mode.cast 100 p.1 = true)) = true := by
    decide +kernel
  obtain ⟨h, s, hr, hwrites⟩ := MotorSystem.system.exists_reach_run h0 hwrites
  obtain ⟨⟨s', es⟩, hstep, hwrites⟩ := (Option.any_eq_true ..).mp hwrites
  obtain ⟨htarget, hcw, hstale⟩ := of_decide_eq_true hwrites
  exact ⟨h, s, s', es, hr, hstep, htarget,
    ⟨_, hcw, by decide⟩, hstale⟩

end RosCanopen.Cia402
