import RosCanopen.Cia402.Flow
import RosCanopen.Lib.Handshake

/-!
# The set-point handshake of `ProfiledPositionMode`

The mode hands its target over by a handshake: `NewPoint` is the request bit, the target
object is the register, and the drive's `Acknowledged` bit answers.  The mode is the
`Sender` of the handshake and the drive its `Receiver`, which samples the control word when
it gets to it; `handleWrite` is a cycle of the sender.

`write` notes a target as sent when it raises `NewPoint`, and does not take the note back
when it lowers `NewPoint` again before the drive has seen it.  A target that is set back to
the noted value is then never handed over.

## Main definitions

* `Motor.sender` — the mode as the sender of the handshake.
* `Positioning`, `Positioning.system` — the motor with a drive, from the start of the mode.
* `NewPointOnly` — the target object is written exactly when `NewPoint` is raised.
* `ArrivesWithin` — the target that is left alone is latched after so many poll cycles.
* `handedOver` — the steps of the runs in which it is.
-/

namespace RosCanopen.Cia402

open Lib

/-! ## The mode as a sender -/

/-- `last_target_` as a target; a NaN is none. -/
def Double.toTarget : Double → Option ℤ
  | .fin q => if q.den = 1 then some q.num else none
  | _ => none

/-- `CW_NewPoint` in the control word. -/
def Motor.newPoint (m : Motor) : Bool :=
  m.controlWord.getLsbD ControlWord.operationModeSpecific0

/-- `ProfiledPositionMode` as the sender of the handshake. -/
def Mode.sender (newPoint : Bool) : Mode → Sender ℤ
  | .profiledPosition helper lastTarget sw =>
      { offer := if helper.hasTarget then some helper.target else none
        sent := lastTarget.toTarget
        heard := sw.getLsbD StatusWord.operationModeSpecific0
        request := newPoint }
  | _ => ⟨none, none, false, newPoint⟩

/-- The sender that the motor has in `ProfiledPositionMode`. -/
def Motor.sender (m : Motor) : Sender ℤ :=
  match m.modes ModeId.profiledPosition with
  | some mode => mode.sender m.newPoint
  | none => ⟨none, none, false, m.newPoint⟩

/-- The motor positions: `ProfiledPositionMode` is selected, and the drive displays it. -/
structure Motor.Positions (m : Motor) : Prop where
  selected : m.selectedMode = some ModeId.profiledPosition
  displayed : m.modeId = ModeId.profiledPosition
  mode : ∃ helper lastTarget sw, m.modes ModeId.profiledPosition =
    some (.profiledPosition helper lastTarget sw)

/-- `readState`, as the drive goes on displaying the mode. -/
def Motor.readState (m : Motor) (sw : Word) : Motor :=
  { { m with statusWord := sw, state := State402.read sw }.readSelected
      ModeId.profiledPosition sw with
    modeId := ModeId.profiledPosition }

/-- `Motor402::setTarget`. -/
def Motor.setTarget (m : Motor) (val : Double) : Motor × Next × List MotorEvent :=
  if m.state = .operationEnable then m.setSelectedTarget val else (m, .ret false, [])

/-- The three steps of `readState`. -/
theorem exec_readState (m : Motor) {env : Env} (hok : env.driverOk = true)
    (hmode : env.modeDisplay.signExtend 16 = ModeId.profiledPosition) : ∃ m₁ m₂ es,
    m.exec env .readStatus = some (m₁, .goto (.readDecode env.statusWord), []) ∧
      m₁.exec env (.readDecode env.statusWord) = some (m₂, .goto (.readMode env.statusWord), es) ∧
      m₂.exec env (.readMode env.statusWord) =
        some (m.readState env.statusWord, .ret true, [.displayed ModeId.profiledPosition]) := by
  refine ⟨_, _, _, if_pos hok, rfl, ?_⟩
  simp only [Motor.exec, if_pos hok, hmode]
  rfl

/-- The two steps of `setTarget`, when the first finds the drive enabled. -/
theorem exec_setTarget (m : Motor) (env : Env) (val : Double)
    (hstate : m.state = .operationEnable) :
    m.exec env (.targetCheck val) = some (m, .goto (.targetSet val), []) ∧
      m.exec env (.targetSet val) = some (m.setTarget val) :=
  ⟨if_pos hstate, congrArg some (if_pos hstate).symm⟩

/-! ## The drive -/

/-- The drive's side of the handshake: its target object, the bit of the latest control
word, and what it has latched. -/
abbrev Drive := Receiver ℤ

/-- The target object that a cycle of writing has written. -/
def targetOf (es : List MotorEvent) : Option ℤ :=
  es.findSome? fun
    | .target _ _ _ value => some value
    | _ => none

/-- `CW_NewPoint` in the control word that a cycle of writing has streamed. -/
def newPointOf (es : List MotorEvent) : Option Bool :=
  es.findSome? fun
    | .controlWord _ cw => some (cw.getLsbD ControlWord.operationModeSpecific0)
    | _ => none

/-- A status word of the drive: its other bits are those of `sw`. -/
def Drive.statusWord (d : Drive) (sw : Word) : Word :=
  overwrite (bit StatusWord.operationModeSpecific0)
    (if d.acknowledge then bit StatusWord.operationModeSpecific0 else 0) sw

/-- The drive takes what a cycle of writing has written, the target object first, and may
sample the control word in between. -/
def Drive.take (es : List MotorEvent) (between : Bool) (d : Drive) : Drive :=
  let d := d.store (targetOf es)
  let d := if between then d.react else d
  { d with request := (newPointOf es).getD d.request }

/-! ## The motor with the drive -/

structure Positioning where
  motor : Motor
  drive : Drive

/-- The steps of the motor and of the drive, in any order. -/
inductive PositioningStep
  | setTarget (val : Double)
  /-- `handleRead` of any status word. -/
  | hear (sw : Word)
  /-- `handleRead` of the status word that the drive has; its other bits are those of `sw`. -/
  | read (sw : Word)
  | write (env : Env) (between : Bool)
  /-- The drive samples the control word. -/
  | react

/-- The poll cycle that reads `statusWord` and writes, with the samples of the drive in it:
`early` ones before the writing, and `late + 1` ones after it. -/
structure PollCycle where
  statusWord : Word
  env : Env
  between : Bool
  early : ℕ
  late : ℕ

namespace PollCycle

def steps (c : PollCycle) : List PositioningStep :=
  .read c.statusWord :: List.replicate c.early .react ++
    .write c.env c.between :: List.replicate (c.late + 1) .react

/-- The drive stays enabled, and no access to it throws. -/
def Enabled (c : PollCycle) : Prop :=
  State402.read c.statusWord = .operationEnable ∧ c.env.driverOk = true ∧ c.env.streamOk = true

end PollCycle

namespace Positioning

/-- One step. -/
def step (s : Positioning) : PositioningStep → Option (Positioning × List MotorEvent)
  | .setTarget val =>
      some ({ s with motor := (s.motor.setTarget val).1 }, (s.motor.setTarget val).2.2)
  | .hear sw =>
      some ({ s with motor := s.motor.readState sw }, [.displayed ModeId.profiledPosition])
  | .read sw =>
      some ({ s with motor := s.motor.readState (s.drive.statusWord sw) },
        [.displayed ModeId.profiledPosition])
  | .write env between =>
      some (⟨(s.motor.handleWrite env).1, s.drive.take (s.motor.handleWrite env).2.2 between⟩,
        (s.motor.handleWrite env).2.2)
  | .react => some ({ s with drive := s.drive.react }, [])

/-- The mode has been started, and no set point is in flight. -/
def Started (s : Positioning) : Prop :=
  s.motor.selectedMode = some ModeId.profiledPosition ∧
    s.motor.modeId = ModeId.profiledPosition ∧
    (∃ helper lastTarget sw, s.motor.modes ModeId.profiledPosition =
      some (Mode.profiledPosition helper lastTarget sw).start) ∧
    s.drive.request = s.motor.newPoint ∧ s.drive.seen = s.drive.acknowledge ∧
    (s.drive.request = true → s.drive.acknowledge = true) ∧ s.drive.latched = []

/-- The motor and the drive, from the start of the mode. -/
def system : System Positioning PositioningStep MotorEvent where
  init := Started
  step := step

/-- The two sides of the handshake. -/
def joint (s : Positioning) : Joint ℤ := ⟨s.motor.sender, s.drive⟩

/-- After how many poll cycles the target has been latched. -/
def bound (s : Positioning) : ℕ := s.joint.bound

end Positioning

/-- The targets that have been set, newest first. -/
def targetsSet (h : List MotorEvent) : List ℤ :=
  h.filterMap fun
    | .accepted _ val => numericCast Limits.int32 val
    | _ => none

/-- A status word has been read since the last cycle of writing. -/
def freshStatus (h : List MotorEvent) : Bool :=
  since (fun e => !e.writes) (fun e => decide (e = .displayed ModeId.profiledPosition)) h

/-- The target object is written exactly when `NewPoint` is raised, and then with a target
that differs from the last one sent, with no acknowledge in the status word last read.  It
never changes while `NewPoint` stays up. -/
structure NewPointOnly (s s' : Positioning) (es : List MotorEvent) : Prop where
  exactly : (targetOf es).isSome = true ↔ s.motor.newPoint = false ∧ s'.motor.newPoint = true
  due : ∀ value, targetOf es = some value → ∃ helper lastTarget sw,
    s.motor.modes ModeId.profiledPosition = some (.profiledPosition helper lastTarget sw) ∧
      helper.hasTarget = true ∧ helper.target = value ∧
      sw.getLsbD StatusWord.operationModeSpecific0 = false ∧ lastTarget ≠ .fin value
  kept : s.motor.newPoint = true → s'.drive.item = s.drive.item

/-- Once the target is left alone, the drive has latched it after `n` poll cycles. -/
def ArrivesWithin (n : ℕ) (s : Positioning) : Prop :=
  ∀ target, s.motor.sender.offer = some target → ∀ cycles : List PollCycle,
    n ≤ cycles.length → (∀ c ∈ cycles, c.Enabled) → ∀ h h' s',
      Positioning.system.run (cycles.flatMap PollCycle.steps) h s = some (h', s') →
        s'.drive.latched.head? = some target

/-- The steps of the composition: the status words are the drive's, and a cycle of writing
follows a reading. -/
def composed : Guard Positioning PositioningStep MotorEvent
  | _, _, .hear _ => False
  | h, _, .write env _ => freshStatus h = true ∧ env.streamOk = true
  | _, _, _ => True

/-- The steps of the composition that hand every target over: none is set back to the last
one sent while `NewPoint` is down and the drive has not latched that. -/
def handedOver : Guard Positioning PositioningStep MotorEvent
  | _, s, .setTarget val => s.motor.state = .operationEnable →
      ∀ target, numericCast Limits.int32 val = some target →
        s.motor.sender.sent = some target →
        s.motor.newPoint = true ∨ s.drive.latched.head? = some target
  | h, s, i => composed h s i

/-! ## A cycle of the mode is a cycle of the sender -/

theorem toTarget_ne (d : Double) (target : ℤ) : d ≠ .fin target ↔ d.toTarget ≠ some target := by
  refine not_congr ?_
  cases d with
  | fin q =>
      simp only [Double.toTarget, Double.fin.injEq]
      constructor
      · rintro rfl
        simp
      · intro h
        split at h
        · next hden =>
            obtain rfl := Option.some.inj h
            exact ((Rat.den_eq_one_iff q).mp hden).symm
        · contradiction
  | _ => simp [Double.toTarget]

theorem toTarget_fin (target : ℤ) : (Double.fin target).toTarget = some target := by
  simp [Double.toTarget]

section NewPoint
variable (cw : Word)

theorem newPoint_immediate :
    (OpModeAccesser.set cw ControlWord.operationModeSpecific1).getLsbD
      ControlWord.operationModeSpecific0 = cw.getLsbD ControlWord.operationModeSpecific0 := by
  simp [OpModeAccesser.set, opModeMask]

theorem newPoint_set :
    (OpModeAccesser.set cw ControlWord.operationModeSpecific0).getLsbD
      ControlWord.operationModeSpecific0 = true := by
  simp [OpModeAccesser.set, opModeMask, ControlWord.operationModeSpecific0]

theorem newPoint_reset :
    (OpModeAccesser.reset cw ControlWord.operationModeSpecific0).getLsbD
      ControlWord.operationModeSpecific0 = false := by
  simp [OpModeAccesser.reset, opModeMask, ControlWord.operationModeSpecific0]

end NewPoint

/-- **The mode's `write` is a cycle of the sender**, unless the driver throws. -/
theorem write_sender (channelOffset : BitVec 16) (helper : TargetHelper) (lastTarget : Double)
    (sw cw : Word) (ok : Bool) :
    let r := Mode.writeProfiledPosition channelOffset helper lastTarget sw cw ok
    let s := (Mode.profiledPosition helper lastTarget sw).sender
      (cw.getLsbD ControlWord.operationModeSpecific0)
    (r.threw = true ∧ ok = false ∧ r.mode = .profiledPosition helper lastTarget sw ∧
        r.cw.getLsbD ControlWord.operationModeSpecific0 =
          cw.getLsbD ControlWord.operationModeSpecific0) ∨
      (r.threw = false ∧ r.mode.sender (r.cw.getLsbD ControlWord.operationModeSpecific0) =
        s.write.1 ∧ (∃ lastTarget', r.mode = .profiledPosition helper lastTarget' sw) ∧
        r.target = s.write.2.map fun target => (0x607A + channelOffset, 0, target)) := by
  obtain ⟨target, hasTarget⟩ := helper
  cases hasTarget with
  | false =>
      refine .inr ⟨by rfl, ?_, ⟨_, by rfl⟩, by rfl⟩
      simp [Mode.writeProfiledPosition, Mode.sender, Sender.write, newPoint_immediate]
  | true =>
      have hne := toTarget_ne lastTarget target
      simp only [Mode.writeProfiledPosition, Mode.sender, Sender.write, if_true,
        newPoint_immediate, hne]
      cases hack : sw.getLsbD StatusWord.operationModeSpecific0 <;>
        by_cases hlast : lastTarget.toTarget = some target <;>
        cases hnew : cw.getLsbD ControlWord.operationModeSpecific0 <;> cases ok <;>
        simp [hack, hlast, hnew, newPoint_immediate, newPoint_set, newPoint_reset, toTarget_fin]

section Events
variable {m : Motor}

theorem stream_events (m : Motor) (ok : Bool) (es : List MotorEvent) :
    newPointOf ((m.stream ok).2.2 ++ es) = (if ok then some m.newPoint else newPointOf es) ∧
      targetOf ((m.stream ok).2.2 ++ es) = targetOf es := by
  rw [stream_eq]
  cases ok with
  | true => exact ⟨congrArg some (getLsbD_streamed_of_ne m (by decide)), rfl⟩
  | false => exact ⟨rfl, rfl⟩

theorem targetEvent_events (id : ModeId) (r : ModeWrite) :
    newPointOf (Motor.targetEvent id r) = none ∧
      targetOf (Motor.targetEvent id r) = r.target.map fun t => t.2.2 := by
  rw [Motor.targetEvent]
  cases r.target with
  | none => exact ⟨rfl, rfl⟩
  | some t => exact ⟨rfl, rfl⟩

end Events

/-- What a cycle of writing makes of the sender, in the members and in what is written. -/
inductive Cycled (m : Motor) (env : Env) : Motor → List MotorEvent → Prop
  /-- The mode is not asked, or its access to the driver throws. -/
  | idle {m' : Motor} {es : List MotorEvent} (hsender : m'.sender = m.sender)
      (htarget : targetOf es = none) (hrequest : (newPointOf es).getD m.newPoint = m.newPoint)
      (hwhy : m.state = .operationEnable → env.driverOk = false) : Cycled m env m' es
  | sent {m' : Motor} {es : List MotorEvent} (hsender : m'.sender = m.sender.write.1)
      (htarget : targetOf es = m.sender.write.2)
      (hrequest : newPointOf es = if env.streamOk then some m'.newPoint else none) :
      Cycled m env m' es

theorem sender_of_modes {m : Motor} {mode : Mode}
    (hmode : m.modes ModeId.profiledPosition = some mode) : m.sender = mode.sender m.newPoint := by
  rw [Motor.sender, hmode]

namespace Motor.Positions
variable {m : Motor} (hm : m.Positions)
include hm

theorem sender_request : m.sender.request = m.newPoint := by
  obtain ⟨helper, lastTarget, sw, hmode⟩ := hm.mode
  rw [sender_of_modes hmode]
  rfl

theorem activeMode_eq {mode : Mode} (hmode : m.modes ModeId.profiledPosition = some mode) :
    m.activeMode = some (ModeId.profiledPosition, mode) := by
  rw [Motor.activeMode, hm.selected]
  simp only [hm.displayed, hmode, if_true, Option.map_some]

omit hm in
theorem halted_newPoint : (overwrite 0 (bit ControlWord.halt) m.controlWord).getLsbD
    ControlWord.operationModeSpecific0 = m.newPoint := by
  simp [Motor.newPoint]

/-- **A cycle of writing is a cycle of the sender**, or leaves it alone. -/
theorem handleWrite (env : Env) : (m.handleWrite env).1.Positions ∧
    Cycled m env (m.handleWrite env).1 (m.handleWrite env).2.2 := by
  obtain ⟨helper, lastTarget, sw, hmode⟩ := hm.mode
  have hsender := sender_of_modes hmode
  rw [Motor.handleWrite]
  split
  · rw [hm.activeMode_eq hmode]
    have hwrite := write_sender m.channelOffset helper lastTarget sw
      (overwrite 0 (bit ControlWord.halt) m.controlWord) env.driverOk
    simp only [halted_newPoint, ← hsender] at hwrite
    have hr : m.modeWrite (.profiledPosition helper lastTarget sw) env =
      Mode.writeProfiledPosition m.channelOffset helper lastTarget sw
        (overwrite 0 (bit ControlWord.halt) m.controlWord) env.driverOk := rfl
    rw [← hr] at hwrite
    simp only
    generalize m.modeWrite (.profiledPosition helper lastTarget sw) env = r at hwrite ⊢
    -- the halt bit is released or not
    have hcw : (if r.okay then overwrite (bit ControlWord.halt) 0 r.cw else r.cw).getLsbD
        ControlWord.operationModeSpecific0 = r.cw.getLsbD ControlWord.operationModeSpecific0 := by
      split <;> simp
    generalize (if r.okay then overwrite (bit ControlWord.halt) 0 r.cw else r.cw) = cw at hcw ⊢
    have hmodes : (m.setMode ModeId.profiledPosition r.mode).modes ModeId.profiledPosition =
      some r.mode := setMode_modes_self m _ _
    rcases hwrite with ⟨hthrew, hok, hsame, hbit⟩ | ⟨hthrew, hsent, ⟨lastTarget', hsame⟩, htarget⟩
    · rw [if_pos hthrew]
      refine ⟨⟨hm.selected, hm.displayed, helper, lastTarget, sw,
        hmodes.trans (congrArg some hsame)⟩, .idle ?_ rfl rfl fun _ => hok⟩
      rw [hsender, ← hsame, ← hbit, ← hcw]
      exact sender_of_modes hmodes
    · rw [if_neg (by simp [hthrew])]
      obtain ⟨hnew, htargets⟩ := stream_events
        { m.setMode ModeId.profiledPosition r.mode with controlWord := cw } env.streamOk
        (Motor.targetEvent ModeId.profiledPosition r)
      obtain ⟨hnone, hvalue⟩ := targetEvent_events ModeId.profiledPosition r
      refine ⟨⟨by rw [stream_eq]; exact hm.selected, by rw [stream_eq]; exact hm.displayed,
        helper, lastTarget', sw, by rw [stream_eq]; exact hmodes.trans (congrArg some hsame)⟩,
        .sent ?_ ?_ ?_⟩
      · rw [stream_eq, ← hsent, ← hcw]
        exact sender_of_modes hmodes
      · rw [htargets, hvalue, htarget, Option.map_map]
        exact Option.map_id'
      · rw [hnew, hnone, stream_eq]
        rfl
  · next hstate =>
      obtain ⟨hnew, htargets⟩ := stream_events
        { m with controlWord := overwrite 0 (bit ControlWord.halt) m.controlWord } env.streamOk []
      rw [List.append_nil] at hnew htargets
      refine ⟨⟨by rw [stream_eq]; exact hm.selected, by rw [stream_eq]; exact hm.displayed,
        helper, lastTarget, sw, by rw [stream_eq]; exact hmode⟩,
        .idle ?_ htargets ?_ fun h => absurd h hstate⟩
      · rw [stream_eq, hsender, ← halted_newPoint]
        exact sender_of_modes hmode
      · rw [hnew]
        cases env.streamOk with
        | true => exact halted_newPoint
        | false => rfl

/-- A reading is heard by the sender. -/
theorem readState (sw : Word) : (m.readState sw).Positions ∧
    (m.readState sw).sender =
      { m.sender with heard := sw.getLsbD StatusWord.operationModeSpecific0 } := by
  obtain ⟨helper, lastTarget, sw', hmode⟩ := hm.mode
  have hread : (m.readState sw).modes ModeId.profiledPosition =
      some (.profiledPosition helper lastTarget sw) := by
    simp only [Motor.readState, Motor.readSelected, hm.selected, if_true, Function.update_self,
      hmode]
    rfl
  have hkept : (m.readState sw).selectedMode = m.selectedMode ∧
      (m.readState sw).newPoint = m.newPoint := by
    obtain ⟨modes, heq⟩ := readSelected_motor
      { m with statusWord := sw, state := State402.read sw } ModeId.profiledPosition sw
    rw [Motor.readState, heq]
    exact ⟨rfl, rfl⟩
  refine ⟨⟨hkept.1.trans hm.selected, rfl, helper, lastTarget, sw, hread⟩, ?_⟩
  rw [sender_of_modes hread, sender_of_modes hmode, hkept.2]
  rfl

/-- A target that is accepted is what the sender offers. -/
theorem setTarget (val : Double) : (m.setTarget val).1.Positions ∧
    ((m.setTarget val).1.sender = m.sender ∧ targetsSet (m.setTarget val).2.2 = [] ∨
      ∃ target, m.state = .operationEnable ∧ numericCast Limits.int32 val = some target ∧
        (m.setTarget val).1.sender = { m.sender with offer := some target } ∧
        targetsSet (m.setTarget val).2.2 = [target]) := by
  obtain ⟨helper, lastTarget, sw, hmode⟩ := hm.mode
  rw [Motor.setTarget]
  split
  · next hstate =>
      have hcall : ∀ mode ok,
          (Mode.profiledPosition helper lastTarget sw).setTarget val = (mode, ok) →
          m.setSelectedTarget val = (m.setMode ModeId.profiledPosition mode, .ret ok,
            if ok then [.accepted ModeId.profiledPosition val] else []) := by
        intro mode ok hset
        simp only [Motor.setSelectedTarget, hm.selected, hmode, hset]
      cases hcast : numericCast Limits.int32 val with
      | none =>
          rw [hcall (.profiledPosition helper lastTarget sw) false
            (by simp [Mode.setTarget, TargetHelper.setTarget, hcast])]
          have hsame := setMode_modes_self m ModeId.profiledPosition
            (.profiledPosition helper lastTarget sw)
          refine ⟨⟨hm.selected, hm.displayed, helper, lastTarget, sw, hsame⟩, .inl ⟨?_, rfl⟩⟩
          rw [sender_of_modes hsame, sender_of_modes hmode]
          rfl
      | some target =>
          rw [hcall (.profiledPosition ⟨target, true⟩ lastTarget sw) true
            (by simp [Mode.setTarget, TargetHelper.setTarget, hcast])]
          have hset := setMode_modes_self m ModeId.profiledPosition
            (.profiledPosition ⟨target, true⟩ lastTarget sw)
          refine ⟨⟨hm.selected, hm.displayed, ⟨target, true⟩, lastTarget, sw, hset⟩,
            .inr ⟨target, hstate, rfl, ?_, ?_⟩⟩
          · rw [sender_of_modes hset, sender_of_modes hmode]
            rfl
          · simp [targetsSet, hcast]
  · exact ⟨hm, .inl ⟨rfl, rfl⟩⟩

end Motor.Positions

/-! ## The joint invariant -/

namespace Positioning
variable {h : List MotorEvent} {s s' : Positioning} {es : List MotorEvent} {i : PositioningStep}

/-- The invariant of the runs that hand every target over. -/
structure HandsOver (h : List MotorEvent) (s : Positioning) : Prop where
  positions : s.motor.Positions
  inv : s.joint.Inv (targetsSet h) (freshStatus h)

theorem targetsSet_append (es h : List MotorEvent) :
    targetsSet (es ++ h) = targetsSet es ++ targetsSet h :=
  List.filterMap_append

/-- A cycle of writing sets no target. -/
theorem targetsSet_writes (hes : ∀ e ∈ es, e.writes = true) : targetsSet es = [] := by
  rw [targetsSet, List.filterMap_eq_nil_iff]
  intro e he
  have hwrites := hes e he
  cases e <;> first | contradiction | rfl

/-- The drive takes what the sender writes, or the request as it stands. -/
theorem joint_write {env : Env} (between : Bool) (hs : s.motor.Positions)
    (hstream : env.streamOk = true) (hwire : s.drive.request = s.motor.newPoint) :
    ((s.motor.handleWrite env).2.2 ≠ [] ∧
      (⟨(s.motor.handleWrite env).1, s.drive.take (s.motor.handleWrite env).2.2 between⟩ :
        Positioning).joint = s.joint.write between) ∨
      ((s.motor.state = .operationEnable → env.driverOk = false) ∧
        (⟨(s.motor.handleWrite env).1, s.drive.take (s.motor.handleWrite env).2.2 between⟩ :
          Positioning).joint = if between then s.joint.react else s.joint) := by
  obtain ⟨hm, hcycled⟩ := hs.handleWrite env
  generalize s.motor.handleWrite env = w at hm hcycled ⊢
  obtain ⟨m, next, es⟩ := w
  cases hcycled with
  | idle hsender htarget hrequest hwhy =>
      have htake : s.drive.take es between = if between then s.drive.react else s.drive := by
        have hrequest' : ∀ d : Drive, d.request = s.drive.request →
            { d with request := (newPointOf es).getD d.request } = d := by
          intro d hd
          rw [hd, hwire, hrequest, ← hwire, ← hd]
        rw [Drive.take, htarget]
        cases between with
        | true => exact hrequest' _ (react_request s.drive)
        | false => exact hrequest' _ rfl
      refine .inr ⟨hwhy, ?_⟩
      simp only [joint, htake, hsender]
      cases between <;> rfl
  | sent hsender htarget hrequest =>
      refine .inl ⟨?_, ?_⟩
      · rintro rfl
        rw [hstream] at hrequest
        contradiction
      have hnew : s.motor.sender.write.1.request = m.newPoint := by
        rw [← hsender, hm.sender_request]
      simp only [joint, Joint.write, Drive.take, hsender, htarget, hrequest, hstream, hnew, if_true,
        Option.getD_some]

theorem statusWord_acknowledged (d : Drive) (sw : Word) :
    (d.statusWord sw).getLsbD StatusWord.operationModeSpecific0 = d.acknowledge := by
  cases hack : d.acknowledge <;> simp [Drive.statusWord, hack, StatusWord.operationModeSpecific0]

/-- After a cycle of writing that has written, the status is no longer fresh. -/
theorem freshStatus_writes (hes : ∀ e ∈ es, e.writes = true) (hne : es ≠ []) :
    freshStatus (es ++ h) = false := by
  cases es with
  | nil => contradiction
  | cons e es =>
      have hwrites := hes e List.mem_cons_self
      have hshown : e ≠ .displayed ModeId.profiledPosition := by
        rintro rfl
        contradiction
      rw [freshStatus, List.cons_append, since_cons, hwrites, decide_eq_false hshown]
      rfl

theorem freshStatus_accepted {val : Double} (hes : ∀ e ∈ es, ∃ id, e = .accepted id val) :
    freshStatus (es ++ h) = freshStatus h := by
  refine since_append h fun e he => ?_
  obtain ⟨id, rfl⟩ := hes e he
  exact ⟨rfl, decide_eq_false (by simp)⟩

theorem setTarget_events (m : Motor) (val : Double) :
    ∀ e ∈ (m.setTarget val).2.2, ∃ id, e = .accepted id val := by
  intro e he
  rw [Motor.setTarget] at he
  split at he
  · exact eq_accepted_of_mem he
  · contradiction

/-- **Every step hands the targets over.** -/
theorem HandsOver.stepped (hs : HandsOver h s) (hok : handedOver h s i)
    (hstep : system.step s i = some (s', es)) : HandsOver (es ++ h) s' := by
  obtain ⟨hm, hj⟩ := hs
  cases i with
  | setTarget val =>
      obtain ⟨rfl, rfl⟩ := Prod.mk.inj (Option.some.inj hstep)
      obtain ⟨hm', hset⟩ := hm.setTarget val
      refine ⟨hm', ?_⟩
      rw [targetsSet_append, freshStatus_accepted (setTarget_events _ val)]
      rcases hset with ⟨hsender, hnone⟩ | ⟨target, hstate, hcast, hsender, hsome⟩
      · rw [hnone, joint, hsender]
        exact hj
      · rw [hsome, joint, hsender]
        refine hj.offer fun hsent => ?_
        rw [show s.joint.sender.request = s.motor.newPoint from hm.sender_request]
        exact hok hstate target hcast hsent
  | hear sw => exact hok.elim
  | read sw =>
      obtain ⟨rfl, rfl⟩ := Prod.mk.inj (Option.some.inj hstep)
      obtain ⟨hm', hread⟩ := hm.readState (s.drive.statusWord sw)
      refine ⟨hm', ?_⟩
      rw [joint, hread, statusWord_acknowledged]
      exact hj.hear
  | write env between =>
      obtain ⟨rfl, rfl⟩ := Prod.mk.inj (Option.some.inj hstep)
      have hes : ∀ e ∈ (s.motor.handleWrite env).2.2, e.writes = true := fun _ => writes_of_mem
      obtain ⟨hfresh, hstream⟩ := hok
      refine ⟨(hm.handleWrite env).1, ?_⟩
      rw [targetsSet_append, targetsSet_writes hes, List.nil_append]
      rcases joint_write between hm hstream (hj.wire.trans hm.sender_request) with
        ⟨hne, heq⟩ | ⟨-, heq⟩
      · rw [heq, freshStatus_writes hes hne]
        rw [hfresh] at hj
        exact hj.write
      · rw [heq]
        have hkept : (if between then s.joint.react else s.joint).Inv (targetsSet h)
            (freshStatus h) := by
          split
          · exact hj.react
          · exact hj
        by_cases hnil : (s.motor.handleWrite env).2.2 = []
        · rw [hnil]
          exact hkept
        · rw [freshStatus_writes hes hnil]
          exact hkept.stale
  | react =>
      obtain ⟨rfl, rfl⟩ := Prod.mk.inj (Option.some.inj hstep)
      exact ⟨hm, hj.react⟩

/-- The invariant along every run that hands every target over. -/
theorem HandsOver.of_reach (hr : Reach system handedOver h s) : HandsOver h s := by
  refine hr.invariant ?_ fun h s i s' es hs hok hstep => hs.stepped hok hstep
  rintro s ⟨hselected, hdisplayed, ⟨helper, lastTarget, sw, hmode⟩, hwire, hseen, hlow, hlatched⟩
  refine ⟨⟨hselected, hdisplayed, _, _, _, hmode⟩, ?_⟩
  have hsender : s.motor.sender = ⟨none, none, false, s.motor.newPoint⟩ := sender_of_modes hmode
  have hflight : s.joint.inFlight = [] := by
    rw [Joint.inFlight]
    split
    · next hflight =>
        have hboth := Bool.and_eq_true_iff.mp hflight
        simp [joint, hlow hboth.1] at hboth
    · exact hlatched
  exact
    { wire := by simpa [joint, hsender] using hwire
      seen := hseen
      quiet := fun hfresh => by contradiction
      heard := fun hfresh => by contradiction
      pending := fun hrequest hack => by
        have hhigh : s.drive.request = true := by simpa [joint, hsender, hwire] using hrequest
        exact absurd ((hlow hhigh).symm.trans hack) (by simp)
      done := fun a ha => by simp [joint, hsender] at ha
      idle := fun _ => ⟨rfl, hflight⟩
      order := fun a ha => by simp [joint, hsender] at ha }

/-! ## When the target object is written -/

theorem targetOf_accepted {val : Double} (hes : ∀ e ∈ es, ∃ id, e = .accepted id val) :
    targetOf es = none := by
  rw [targetOf, List.findSome?_eq_none_iff]
  intro e he
  obtain ⟨id, rfl⟩ := hes e he
  rfl

theorem take_item (d : Drive) (between : Bool) (hnone : targetOf es = none) :
    (d.take es between).item = d.item := by
  rw [Drive.take, hnone]
  cases between with
  | true => exact react_item d
  | false => rfl

/-- A step that writes no target object and leaves `NewPoint` as it is. -/
theorem newPointOnly_quiet (hnone : targetOf es = none)
    (hnew : s'.motor.newPoint = s.motor.newPoint) (hitem : s'.drive.item = s.drive.item) :
    NewPointOnly s s' es where
  exactly := by
    rw [hnone, hnew]
    cases s.motor.newPoint <;> simp
  due value hvalue := absurd (hnone.symm.trans hvalue) (by simp)
  kept _ := hitem

/-- **When the target object is written.** -/
theorem newPointOnly_of_step (hm : s.motor.Positions)
    (hstep : system.step s i = some (s', es)) : NewPointOnly s s' es := by
  cases i with
  | setTarget val =>
      obtain ⟨rfl, rfl⟩ := Prod.mk.inj (Option.some.inj hstep)
      obtain ⟨hm', hset⟩ := hm.setTarget val
      refine newPointOnly_quiet (targetOf_accepted (setTarget_events _ val)) ?_ rfl
      rw [← hm'.sender_request, ← hm.sender_request]
      rcases hset with ⟨hsender, -⟩ | ⟨target, -, -, hsender, -⟩ <;> rw [hsender]
  | hear sw =>
      obtain ⟨rfl, rfl⟩ := Prod.mk.inj (Option.some.inj hstep)
      obtain ⟨hm', hread⟩ := hm.readState sw
      refine newPointOnly_quiet rfl ?_ rfl
      rw [← hm'.sender_request, ← hm.sender_request, hread]
  | read sw =>
      obtain ⟨rfl, rfl⟩ := Prod.mk.inj (Option.some.inj hstep)
      obtain ⟨hm', hread⟩ := hm.readState (s.drive.statusWord sw)
      refine newPointOnly_quiet rfl ?_ rfl
      rw [← hm'.sender_request, ← hm.sender_request, hread]
  | write env between =>
      obtain ⟨rfl, rfl⟩ := Prod.mk.inj (Option.some.inj hstep)
      obtain ⟨hm', hcycled⟩ := hm.handleWrite env
      generalize s.motor.handleWrite env = w at hm' hcycled ⊢
      obtain ⟨m, next, es⟩ := w
      cases hcycled with
      | idle hsender htarget hrequest hwhy =>
          refine newPointOnly_quiet htarget ?_ (take_item _ _ htarget)
          rw [← hm'.sender_request, ← hm.sender_request, hsender]
      | sent hsender htarget hrequest =>
          have hnew : m.newPoint = s.motor.sender.write.1.request := by
            rw [← hsender, hm'.sender_request]
          have hrises : (targetOf es).isSome = true ↔
              s.motor.newPoint = false ∧ m.newPoint = true := by
            rw [htarget, hnew, ← hm.sender_request]
            exact write_rises _
          refine ⟨hrises, fun value hvalue => ?_, fun hhigh => take_item _ _ ?_⟩
          · obtain ⟨hoffer, hheard, hsent, -⟩ :=
              (write_item s.motor.sender value).mp (htarget.symm.trans hvalue)
            obtain ⟨helper, lastTarget, sw, hmode⟩ := hm.mode
            rw [sender_of_modes hmode] at hoffer hheard hsent
            simp only [Mode.sender] at hoffer hheard hsent
            split at hoffer
            · next hhas =>
                exact ⟨helper, lastTarget, sw, hmode, hhas, Option.some.inj hoffer, hheard,
                  (toTarget_ne lastTarget value).mpr hsent⟩
            · contradiction
          · cases hvalue : targetOf es with
            | none => rfl
            | some value =>
                have hlow := (hrises.mp (by simp [hvalue])).1
                exact absurd (hlow.symm.trans hhigh) (by simp)
  | react =>
      obtain ⟨rfl, rfl⟩ := Prod.mk.inj (Option.some.inj hstep)
      exact newPointOnly_quiet rfl rfl (react_item s.drive)

/-- The motor goes on positioning, whatever the step. -/
theorem positions_of_step (hm : s.motor.Positions) (hstep : system.step s i = some (s', es)) :
    s'.motor.Positions := by
  cases i with
  | setTarget val =>
      obtain ⟨rfl, -⟩ := Prod.mk.inj (Option.some.inj hstep)
      exact (hm.setTarget val).1
  | hear sw =>
      obtain ⟨rfl, -⟩ := Prod.mk.inj (Option.some.inj hstep)
      exact (hm.readState sw).1
  | read sw =>
      obtain ⟨rfl, -⟩ := Prod.mk.inj (Option.some.inj hstep)
      exact (hm.readState _).1
  | write env between =>
      obtain ⟨rfl, -⟩ := Prod.mk.inj (Option.some.inj hstep)
      exact (hm.handleWrite env).1
  | react =>
      obtain ⟨rfl, -⟩ := Prod.mk.inj (Option.some.inj hstep)
      exact hm

theorem positions_of_reach {ok : Guard Positioning PositioningStep MotorEvent}
    (hr : Reach system ok h s) : s.motor.Positions := by
  induction hr with
  | init hs =>
      obtain ⟨hselected, hdisplayed, ⟨helper, lastTarget, sw, hmode⟩, -⟩ := hs
      exact ⟨hselected, hdisplayed, _, _, _, hmode⟩
  | step _ _ hstep ih => exact positions_of_step ih hstep

/-! ## Poll cycles -/

theorem run_react (steps : List PositioningStep) (n : ℕ) (h : List MotorEvent) (m : Motor)
    (d : Drive) : system.run (List.replicate n .react ++ steps) h ⟨m, d⟩ =
      system.run steps h ⟨m, Receiver.react^[n] d⟩ := by
  induction n generalizing d with
  | zero => rfl
  | succ n ih =>
      rw [Function.iterate_succ_apply]
      exact ih d.react

theorem joint_react (m : Motor) (d : Drive) (n : ℕ) :
    (⟨m, Receiver.react^[n] d⟩ : Positioning).joint =
      Joint.react^[n] (⟨m, d⟩ : Positioning).joint := by
  induction n with
  | zero => rfl
  | succ n ih =>
      rw [Function.iterate_succ_apply', Function.iterate_succ_apply', ← ih]
      rfl

theorem iterate_react_request (d : Drive) (n : ℕ) :
    (Receiver.react^[n] d).request = d.request := by
  induction n with
  | zero => rfl
  | succ n ih => rw [Function.iterate_succ_apply', react_request, ih]

theorem read_statusWord (d : Drive) (sw : Word) :
    State402.read (d.statusWord sw) = State402.read sw := by
  refine State402.read_congr (agreeOn_overwrite ?_ ?_)
  · decide
  · cases d.acknowledge <;> decide

/-- **A poll cycle is a cycle of the handshake.** -/
theorem run_cycle (hm : s.motor.Positions) (hwire : s.drive.request = s.motor.newPoint)
    {c : PollCycle} (hc : c.Enabled) (h : List MotorEvent) : ∃ h₁ s₁,
      (∀ steps, system.run (c.steps ++ steps) h s = system.run steps h₁ s₁) ∧
        s₁.motor.Positions ∧ s₁.joint = s.joint.cycle c.early c.late c.between := by
  obtain ⟨hstate, hdriver, hstream⟩ := hc
  -- the motor reads, and the drive samples
  obtain ⟨s₀, hs₀⟩ : ∃ s₀ : Positioning, s₀ = ⟨s.motor.readState (s.drive.statusWord c.statusWord),
    Receiver.react^[c.early] s.drive⟩ := ⟨_, rfl⟩
  obtain ⟨hm₀, hread⟩ := hm.readState (s.drive.statusWord c.statusWord)
  have hjoint₀ : s₀.joint = Joint.react^[c.early] s.joint.hear := by
    rw [hs₀, joint_react, joint, hread, statusWord_acknowledged]
    rfl
  have hwire₀ : s₀.drive.request = s₀.motor.newPoint := by
    rw [hs₀, iterate_react_request, hwire, ← hm.sender_request, ← hm₀.sender_request, hread]
  have hstate₀ : s₀.motor.state = .operationEnable := by
    obtain ⟨modes, heq⟩ := readSelected_motor { s.motor with
      statusWord := s.drive.statusWord c.statusWord
      state := State402.read (s.drive.statusWord c.statusWord) } ModeId.profiledPosition
      (s.drive.statusWord c.statusWord)
    rw [hs₀, Motor.readState, heq]
    exact (read_statusWord _ _).trans hstate
  replace hm₀ : s₀.motor.Positions := by rw [hs₀]; exact hm₀
  -- the motor writes, and the drive samples again
  refine ⟨(s₀.motor.handleWrite c.env).2.2 ++ .displayed ModeId.profiledPosition :: h,
    ⟨(s₀.motor.handleWrite c.env).1, Receiver.react^[c.late + 1]
      (s₀.drive.take (s₀.motor.handleWrite c.env).2.2 c.between)⟩, fun steps => ?_,
    (hm₀.handleWrite c.env).1, ?_⟩
  · have hsteps : c.steps ++ steps = .read c.statusWord :: (List.replicate c.early .react ++
        .write c.env c.between :: (List.replicate (c.late + 1) .react ++ steps)) := by
      simp [PollCycle.steps]
    have hearly := run_react
      (.write c.env c.between :: (List.replicate (c.late + 1) .react ++ steps)) c.early
      (.displayed ModeId.profiledPosition :: h)
      (s.motor.readState (s.drive.statusWord c.statusWord)) s.drive
    rw [← hs₀] at hearly
    rw [hsteps, ← run_react]
    exact hearly
  · rw [joint_react, Joint.cycle, ← hjoint₀]
    congr 1
    rcases joint_write c.between hm₀ hstream hwire₀ with ⟨-, heq⟩ | ⟨hwhy, -⟩
    · exact heq
    · exact absurd (hdriver.symm.trans (hwhy hstate₀)) (by simp)

/-- **A target that is left alone arrives.** -/
theorem arrives (hm : s.motor.Positions) {offers : List ℤ} {fresh : Bool}
    (hj : s.joint.Inv offers fresh) : ArrivesWithin s.bound s := by
  intro target hoffer cycles
  induction cycles generalizing s fresh with
  | nil =>
      intro hlength _ h h' s' hrun
      obtain ⟨-, rfl⟩ := Prod.mk.inj (Option.some.inj hrun)
      exact Joint.latched_of_bound hoffer (Nat.le_zero.mp hlength)
  | cons c cycles ih =>
      intro hlength hcycles h h' s' hrun
      obtain ⟨h₁, s₁, hrun₁, hm₁, hjoint₁⟩ :=
        run_cycle hm (hj.wire.trans hm.sender_request) (hcycles c List.mem_cons_self) h
      rw [List.flatMap_cons, hrun₁] at hrun
      have hj₁ : s₁.joint.Inv offers false := by
        rw [hjoint₁]
        exact hj.cycle c.early c.late
      have hoffer₁ : s₁.motor.sender.offer = some target := by
        show s₁.joint.sender.offer = some target
        rw [hjoint₁, Joint.cycle_offer]
        exact hoffer
      have hbound : s₁.bound ≤ s.bound - 1 := by
        rw [bound, hjoint₁]
        exact hj.bound_cycle c.early c.late
      refine ih hm₁ hj₁ hoffer₁ ?_ (fun c hc => hcycles c (List.mem_cons_of_mem _ hc)) _ _ _ hrun
      rw [List.length_cons] at hlength
      omega

end Positioning

/-- **The set-point handshake.**  In every run, whatever the status words, the target object
is written exactly when `NewPoint` is raised.  In every run of the composition that sets no
target back to one whose `NewPoint` was taken back unseen, the drive latches targets that
were set, in order, and the target that is left alone within `bound` poll cycles. -/
theorem handshake_of_handedOver {h : List MotorEvent} {s : Positioning}
    (hr : Reach Positioning.system handedOver h s) :
    (∀ h s, Reach Positioning.system Guard.free h s → ∀ i s' es,
      Positioning.system.step s i = some (s', es) → NewPointOnly s s' es) ∧
      s.drive.latched.Sublist (targetsSet h) ∧ ArrivesWithin s.bound s := by
  obtain ⟨hm, hj⟩ := Positioning.HandsOver.of_reach hr
  exact ⟨fun h s hr i s' es hstep =>
    Positioning.newPointOnly_of_step (Positioning.positions_of_reach hr) hstep,
    hj.latched_sublist, Positioning.arrives hm hj⟩

/-! ## Two runs -/

/-- The motor is enabled and `ProfiledPositionMode` has just been started. -/
def Positioning.enabled : Positioning where
  motor :=
    { (MotorSystem.zeroed 0 []).motor with
      state := .operationEnable
      modes := fun id => if id = ModeId.profiledPosition then
        some (Mode.profiledPosition ⟨0, false⟩ .nan 0).start else none
      selectedMode := some ModeId.profiledPosition
      modeId := ModeId.profiledPosition }
  drive := ⟨0, false, false, false, []⟩

theorem Positioning.started_enabled : Positioning.enabled.Started :=
  ⟨rfl, rfl, ⟨_, _, _, rfl⟩, rfl, rfl, by decide, rfl⟩

/-- The step belongs to the composition. -/
def composes (h : List MotorEvent) (_ : Positioning) : PositioningStep → Bool
  | .hear _ => false
  | .write env _ => freshStatus h && env.streamOk
  | _ => true

theorem composed_of_composes {h : List MotorEvent} {s : Positioning} {i : PositioningStep}
    (hcheck : composes h s i = true) : composed h s i := by
  cases i with
  | hear sw => contradiction
  | write env between => exact Bool.and_eq_true_iff.mp hcheck
  | _ => trivial

/-- Besides, no target is set that has just been sent. -/
def handsOver (h : List MotorEvent) (s : Positioning) : PositioningStep → Bool
  | .setTarget val =>
      decide (numericCast Limits.int32 val = none ∨
        numericCast Limits.int32 val ≠ s.motor.sender.sent)
  | i => composes h s i

theorem handedOver_of_handsOver {h : List MotorEvent} {s : Positioning} {i : PositioningStep}
    (hcheck : handsOver h s i = true) : handedOver h s i := by
  cases i with
  | setTarget val =>
      intro _ target hcast hsent
      rcases of_decide_eq_true hcheck with hnone | hne
      · exact absurd (hnone.symm.trans hcast) (by simp)
      · exact absurd (hcast.trans hsent.symm) hne
  | hear sw => contradiction
  | write env between => exact Bool.and_eq_true_iff.mp hcheck
  | _ => trivial

/-- The poll cycle of an enabled drive that samples once, after the writing. -/
def PollCycle.plain : PollCycle := ⟨0x27, .answering 0x27 1 1, false, 0, 0⟩

theorem PollCycle.plain_enabled : PollCycle.plain.Enabled := ⟨rfl, rfl, rfl⟩

/-- Two targets are set, and the drive latches both. -/
theorem handshake_two_targets : ∃ (h : List MotorEvent) (s : Positioning),
    s.drive.latched = [200, 100] ∧ s.drive.latched.Sublist (targetsSet h) ∧
      ArrivesWithin s.bound s := by
  have hlatched : (match Positioning.system.runIf handsOver
      ([PositioningStep.setTarget (.fin 100)] ++ PollCycle.plain.steps ++ [.setTarget (.fin 200)] ++
        PollCycle.plain.steps ++ PollCycle.plain.steps) [] .enabled with
    | some (_, s) => decide (s.drive.latched = [200, 100])
    | none => false) = true := by
    decide +kernel
  split at hlatched
  · next h s hrun =>
      have hr := System.reach_runIf _ _ _ (.init Positioning.started_enabled)
        (fun _ _ _ _ hcheck => handedOver_of_handsOver hcheck) hrun
      exact ⟨h, s, of_decide_eq_true hlatched, (handshake_of_handedOver hr).2⟩
  · contradiction

/-- A target is replaced before the drive has seen it, and set again. -/
def PositioningStep.setBack : List PositioningStep :=
  let poll : List PositioningStep := [.read 0x27, .write (.answering 0x27 1 1) false]
  [.setTarget (.fin 100)] ++ poll ++ [.setTarget (.fin 200)] ++ poll ++
    [.react, .setTarget (.fin 100)]

/-- The mode holds the target to be sent, and the drive has never seen it. -/
def Positioning.lost : Joint ℤ :=
  ⟨⟨some 100, some 100, false, false⟩, ⟨100, false, false, false, []⟩⟩

/-- **The target that was set back is never latched**, whatever the number of poll cycles. -/
theorem not_handshake : ∃ h s, Reach Positioning.system composed h s ∧
    ∀ n, ¬ ArrivesWithin n s := by
  have hlost : (match Positioning.system.runIf composes PositioningStep.setBack [] .enabled with
    | some (_, s) => decide (s.joint = Positioning.lost)
    | none => false) = true := by
    decide +kernel
  split at hlost
  · next h s hrun =>
      have hr := System.reach_runIf _ _ _ (.init Positioning.started_enabled)
        (fun _ _ _ _ hcheck => composed_of_composes hcheck) hrun
      have hjoint := of_decide_eq_true hlost
      have hoffer : s.motor.sender.offer = some 100 := congrArg (fun j => j.sender.offer) hjoint
      refine ⟨h, s, hr, fun n harrives => ?_⟩
      have hm := Positioning.positions_of_reach hr
      -- a poll cycle leaves both sides as they are
      have hstuck : ∀ n h s, s.motor.Positions → s.joint = Positioning.lost → ∃ h' s',
          Positioning.system.run ((List.replicate n PollCycle.plain).flatMap PollCycle.steps) h s =
            some (h', s') ∧ s'.joint = Positioning.lost := by
        intro n
        induction n with
        | zero => exact fun h s _ hs => ⟨h, s, rfl, hs⟩
        | succ n ih =>
            intro h s hm hs
            have hwire : s.drive.request = s.motor.newPoint := by
              rw [← hm.sender_request]
              exact congrArg (fun j => j.receiver.request = j.sender.request) hs ▸ rfl
            obtain ⟨h₁, s₁, hrun₁, hm₁, hjoint₁⟩ :=
              Positioning.run_cycle hm hwire PollCycle.plain_enabled h
            rw [List.replicate_succ, List.flatMap_cons, hrun₁]
            exact ih h₁ s₁ hm₁ (by rw [hjoint₁, hs]; decide)
      obtain ⟨h', s', hrun', hs'⟩ := hstuck n h s hm hjoint
      have hlatched := harrives 100 hoffer (List.replicate n PollCycle.plain) (by simp)
        (fun c hc => List.eq_of_mem_replicate hc ▸ PollCycle.plain_enabled) h h' s' hrun'
      have hnil : s'.drive.latched = [] := congrArg (fun j => j.receiver.latched) hs'
      rw [hnil] at hlatched
      contradiction
  · contradiction

end RosCanopen.Cia402
