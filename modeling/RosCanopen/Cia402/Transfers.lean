import RosCanopen.Bridge.Codec
import RosCanopen.Cia401.Remote
import RosCanopen.Cia402.MotorStep

/-!
# The transfers of a motor

Where a motor writes an object it calls `universal_set_value`, and goes on unless that throws.
The environment of a step follows from what the calls come to.

## Main definitions

* `ObjectWrite`, `Motor.objectWrite` — a write of an object, as the motor asks the driver for it.
* `Motor.attempts` — the writes of a program point, as far as none throws.
* `Env.ofWrites` — the environment that the transfers make.
* `Motor.GoesOnSent` — the motor goes on only with what has been sent.
-/

namespace RosCanopen.Cia402

open Lib Bridge

/-- A call of `universal_set_value`. -/
structure ObjectWrite where
  object : ObjectId
  type : DefType
  value : Value

/-- The type of a mode's target. -/
def Mode.targetType : Mode → DefType
  | .forward spec _ => if spec.limits = Limits.int16 then .integer16 else .integer32
  | .profiledPosition _ _ _ => .integer32
  | .homing _ _ => .other

namespace MotorEvent

def isControlWord : MotorEvent → Bool
  | .controlWord _ _ => true
  | _ => false

end MotorEvent

/-- Every call of the driver returns. -/
def Env.granted (env : Env) : Env := { env with driverOk := true, streamOk := true }

namespace Motor

/-- The call behind an event. -/
def objectWrite (m : Motor) : MotorEvent → Option ObjectWrite
  | .target id index sub value => (m.modes id).map fun mode =>
      ⟨(index, sub), mode.targetType,
        (BitVec.ofInt (mode.targetType.width.getD 32) value).setWidth 64⟩
  | .controlWord index cw => some ⟨(index, 0), .unsigned16, cw.setWidth 64⟩
  | .opMode index mode => some ⟨(index, 0), .integer8, mode.setWidth 64⟩
  | _ => none

/-- What a program point writes when every call returns, the latest first. -/
def attempts (m : Motor) (env : Env) (code : Code) : List MotorEvent :=
  match m.exec env.granted code with
  | some (_, _, es) => es
  | none => []

/-- The write throws, with the reply to its request. -/
def refused (m : Motor) (b : DriverNode) (replies : MotorEvent → Reply) (e : MotorEvent) : Bool :=
  (m.objectWrite e).any fun w => b.refuses w.object (replies e)

/-- The write arrives. -/
def sent (m : Motor) (b : DriverNode) (replies : MotorEvent → Reply) (e : MotorEvent) : Bool :=
  (m.objectWrite e).all fun w => b.sends w.object (replies e)

end Motor

/-- The environment of a program point that writes. -/
def Env.ofWrites (env : Env) (m : Motor) (b : DriverNode) (replies : MotorEvent → Reply)
    (code : Code) : Env :=
  { env with
    driverOk := (m.attempts env code).all fun e => e.isControlWord || !m.refused b replies e
    streamOk := (m.attempts env code).all fun e => !e.isControlWord || !m.refused b replies e }

/-- The program points of `handleWrite` and `switchMode` that write objects. -/
def Code.writesObject : Code → Bool
  | .write | .opModeWrite _ | .modeWait _ => true
  | .modeEnter mode => mode = ModeId.noMode
  | _ => false

/-- What the driver throws is caught. -/
def Code.catches : Code → Bool
  | .modeEnter mode => mode = ModeId.noMode
  | _ => false

/-- The motor goes on only when every value was accepted or acknowledged. -/
def Motor.GoesOnSent (m : Motor) (b : DriverNode) (replies : MotorEvent → Reply) (env : Env)
    (code : Code) : Prop :=
  ∀ m' next es, m.exec (env.ofWrites m b replies code) code = some (m', next, es) →
    next ≠ .throw → ∀ e ∈ m.attempts env code, ∀ w, m.objectWrite e = some w →
      ∀ s, Delivered w.object w.value
        (b.callSetValue w.object w.type w.value (replies e) s).2.2

/-! ## Which steps go on -/

section Writes
variable {m : Motor} {b : DriverNode} {replies : MotorEvent → Reply} {env : Env} {code : Code}

/-- A mode throws iff it would have written a target. -/
theorem Mode.write_threw (channelOffset : BitVec 16) (mode : Mode) (cw : Word) :
    (mode.write channelOffset cw false).threw = (mode.write channelOffset cw true).target.isSome ∧
      (mode.write channelOffset cw true).threw = false := by
  cases mode with
  | forward spec helper =>
      simp only [write, writeForward]
      split <;> simp
  | profiledPosition helper lastTarget sw =>
      simp only [write, writeProfiledPosition]
      split
      · split
        · split <;> simp
        · split <;> simp
      · simp
  | homing execute status =>
      simp only [write, writeHoming]
      split <;> simp

theorem exists_mem_targetEvent_iff {id : ModeId} {r : ModeWrite} :
    (∃ e ∈ Motor.targetEvent id r, e.isControlWord = false) ↔ r.target.isSome = true := by
  constructor
  · rintro ⟨e, he, -⟩
    obtain ⟨index, sub, value, hr, -⟩ := mem_targetEvent he
    rw [hr, Option.isSome_some]
  · intro hsome
    obtain ⟨⟨index, sub, value⟩, hr⟩ := Option.isSome_iff_exists.mp hsome
    exact ⟨.target id index sub value, by simp [Motor.targetEvent, hr], rfl⟩

theorem stream_throws_iff (m : Motor) (ok : Bool) :
    (m.stream ok).2.1 = .throw ↔ ok = false := by
  rw [stream_eq]
  cases ok <;> simp

theorem isControlWord_of_mem_stream {ok : Bool} {e : MotorEvent}
    (he : e ∈ (m.stream ok).2.2) : e.isControlWord = true := by
  rw [stream_eq] at he
  cases ok with
  | true =>
      obtain rfl := List.mem_singleton.mp he
      rfl
  | false => contradiction

/-- **What makes a cycle of writing throw**: the streaming, or the write of a target. -/
theorem handleWrite_throws_iff (m : Motor) (env : Env) :
    (m.handleWrite env).2.1 = .throw ↔ env.streamOk = false ∨
      env.driverOk = false ∧
        ∃ e ∈ (m.handleWrite env.granted).2.2, e.isControlWord = false := by
  have hstream : ∀ (m' : Motor) ok, (∃ e ∈ (m'.stream ok).2.2, e.isControlWord = false) ↔
      False := by
    intro m' ok
    simp only [iff_false, not_exists, not_and]
    intro e he hword
    exact absurd ((isControlWord_of_mem_stream he).symm.trans hword) (by simp)
  simp only [Motor.handleWrite]
  split
  · split
    · next id mode hactive =>
        have hthrew := mode.write_threw m.channelOffset
          (overwrite 0 (bit ControlWord.halt) m.controlWord)
        have hgranted : (m.modeWrite mode env.granted).threw = false := hthrew.2
        simp only [hgranted, Bool.false_eq_true, if_false, List.mem_append, or_and_right,
          exists_or, hstream, false_or, exists_mem_targetEvent_iff]
        cases hdriver : env.driverOk with
        | true =>
            have hsame : m.modeWrite mode env = m.modeWrite mode env.granted := by
              rw [Motor.modeWrite, hdriver]
              rfl
            simp only [hsame, hgranted, Bool.false_eq_true, if_false, stream_throws_iff]
            simp
        | false =>
            have hsame : (m.modeWrite mode env).threw =
                (m.modeWrite mode env.granted).target.isSome := by
              rw [Motor.modeWrite, hdriver]
              exact hthrew.1
            rw [hsame]
            cases (m.modeWrite mode env.granted).target.isSome with
            | true => simp
            | false => simp [stream_throws_iff]
    · simp only [stream_throws_iff, hstream, and_false, or_false]
  · simp only [stream_throws_iff, hstream, and_false, or_false]

/-- Of the environment that the transfers make, and the writes that are refused. -/
theorem ofWrites_eq_false_iff (m : Motor) (b : DriverNode) (replies : MotorEvent → Reply)
    (env : Env) (code : Code) :
    ((env.ofWrites m b replies code).streamOk = false ↔
      ∃ e ∈ m.attempts env code, e.isControlWord = true ∧ m.refused b replies e = true) ∧
    ((env.ofWrites m b replies code).driverOk = false ↔
      ∃ e ∈ m.attempts env code, e.isControlWord = false ∧ m.refused b replies e = true) := by
  simp [Env.ofWrites]

/-- A write of the operation mode throws when it is refused. -/
theorem refused_opModeEvent (b : DriverNode) (replies : MotorEvent → Reply) {mode : ModeId}
    (h : m.attempts env code = [m.opModeEvent mode]) :
    m.refused b replies (m.opModeEvent mode) = !(env.ofWrites m b replies code).driverOk := by
  have hword : (m.opModeEvent mode).isControlWord = false := rfl
  simp [Env.ofWrites, h, hword]

/-- **A program point that writes throws when a write is refused, unless it catches.** -/
theorem throws_iff {m' : Motor} {next : Next} {es : List MotorEvent}
    (hcode : code.writesObject = true)
    (hexec : m.exec (env.ofWrites m b replies code) code = some (m', next, es)) :
    next = .throw ↔ code.catches = false ∧
      ∃ e ∈ m.attempts env code, m.refused b replies e = true := by
  cases code with
  | write =>
      obtain ⟨-, rfl, -⟩ := step_inj hexec
      have hgranted : (env.ofWrites m b replies .write).granted = env.granted := rfl
      obtain ⟨hstream, hdriver⟩ := ofWrites_eq_false_iff m b replies env .write
      rw [handleWrite_throws_iff, hstream, hdriver, hgranted]
      constructor
      · rintro (⟨e, he, -, hrefused⟩ | ⟨⟨e, he, -, hrefused⟩, -⟩)
        · exact ⟨rfl, e, he, hrefused⟩
        · exact ⟨rfl, e, he, hrefused⟩
      · rintro ⟨-, e, he, hrefused⟩
        cases hword : e.isControlWord with
        | true => exact .inl ⟨e, he, hword, hrefused⟩
        | false => exact .inr ⟨⟨e, he, hword, hrefused⟩, e, he, hword⟩
  | opModeWrite mode =>
      have hattempts : m.attempts env (.opModeWrite mode) = [m.opModeEvent mode] := rfl
      have hrefused := refused_opModeEvent b replies hattempts
      rw [hattempts]
      simp only [Motor.exec] at hexec
      split at hexec
      · next hok =>
          obtain ⟨-, rfl, -⟩ := step_inj hexec
          simp [hrefused, hok]
      · next hok =>
          obtain ⟨-, rfl, -⟩ := step_inj hexec
          simpa [Code.catches, hrefused] using hok
  | modeWait mode =>
      simp only [Motor.exec] at hexec
      split at hexec
      · next hmode =>
          have hattempts : m.attempts env (.modeWait mode) = [] := by
            simp [Motor.attempts, Motor.exec, hmode]
          obtain ⟨-, rfl, -⟩ := step_inj hexec
          simp [hattempts]
      · next hmode =>
          split at hexec
          · next htimed =>
              have htimed : env.timedOut = true := htimed
              have hattempts : m.attempts env (.modeWait mode) = [m.opModeEvent m.modeId] := by
                simp [Motor.attempts, Motor.exec, Env.granted, hmode, htimed]
              have hrefused := refused_opModeEvent b replies hattempts
              rw [hattempts]
              split at hexec
              · next hok =>
                  obtain ⟨-, rfl, -⟩ := step_inj hexec
                  simp [hrefused, hok]
              · next hok =>
                  obtain ⟨-, rfl, -⟩ := step_inj hexec
                  simpa [Code.catches, hrefused] using hok
          · contradiction
  | modeEnter mode =>
      have hmode : mode = ModeId.noMode := of_decide_eq_true hcode
      simp only [Motor.exec, hmode, if_true] at hexec
      obtain ⟨-, rfl, -⟩ := step_inj hexec
      simp [Code.catches, hmode]
  | _ => contradiction

/-- A program point that is blocked writes nothing. -/
theorem attempts_of_blocked (hcode : code.writesObject = true)
    (hexec : m.exec (env.ofWrites m b replies code) code = none) : m.attempts env code = [] := by
  cases code with
  | write => contradiction
  | opModeWrite mode =>
      simp only [Motor.exec] at hexec
      split at hexec <;> contradiction
  | modeWait mode =>
      simp only [Motor.exec] at hexec
      split at hexec
      · contradiction
      · next hmode =>
          split at hexec
          · split at hexec <;> contradiction
          · next htimed =>
              have htimed : env.timedOut = false := Bool.not_eq_true _ ▸ htimed
              simp [Motor.attempts, Motor.exec, Env.granted, hmode, htimed]
  | modeEnter mode =>
      have hmode : mode = ModeId.noMode := of_decide_eq_true hcode
      simp [Motor.exec, hmode] at hexec
  | _ => contradiction

/-- What has been sent has arrived, in every state of the dictionary. -/
theorem sent_iff {e : MotorEvent} : m.sent b replies e = true ↔
    ∀ w, m.objectWrite e = some w → ∀ s, Delivered w.object w.value
      (b.callSetValue w.object w.type w.value (replies e) s).2.2 := by
  simp only [Motor.sent, Option.all_eq_true, DriverNode.delivered_callSetValue]
  constructor
  · intro hsent w hw _
    exact hsent w hw
  · intro hsent w hw
    exact hsent w hw ⟨fun _ => 0, [], false⟩

/-- **When the motor goes on only with what was sent**: a write is refused and not caught, or
every write is sent. -/
theorem goesOnSent_iff (hcode : code.writesObject = true) :
    m.GoesOnSent b replies env code ↔
      (code.catches = false ∧ ∃ e ∈ m.attempts env code, m.refused b replies e = true) ∨
        ∀ e ∈ m.attempts env code, m.sent b replies e = true := by
  cases hexec : m.exec (env.ofWrites m b replies code) code with
  | none =>
      rw [attempts_of_blocked hcode hexec]
      simp [Motor.GoesOnSent, hexec]
  | some r =>
      obtain ⟨m', next, es⟩ := r
      rw [← throws_iff hcode hexec]
      have hgoes : m.GoesOnSent b replies env code ↔
          (next ≠ .throw → ∀ e ∈ m.attempts env code, m.sent b replies e = true) := by
        simp only [sent_iff]
        constructor
        · intro hsent
          exact hsent m' next es hexec
        · intro hsent m'' next' es' hexec'
          obtain ⟨-, rfl, -⟩ := step_inj (hexec'.symm.trans hexec)
          exact hsent
      rw [hgoes]
      exact Decidable.imp_iff_not_or.trans (or_congr Decidable.not_not Iff.rfl)

end Writes

/-! ## What is lost -/

/-- **When a write that returns has arrived**: for the call itself, for the output bytes of the
remote receiver, and for a motor that writes or switches its mode. -/
theorem lost_unless_refused_or_sent (b : DriverNode) :
    (∀ object type value reply s,
      (((b.callSetValue object type value reply s).1.isSome = true →
          Delivered object value (b.callSetValue object type value reply s).2.2) ↔
        b.refuses object reply = true ∨ b.sends object reply = true)) ∧
    (∀ (r : Cia401.M880Remote) sub value reply s, r.driver = some b →
      (((r.writeOutputByte sub value reply s).1 = true →
          Delivered (r.outputObject sub) (value.setWidth 64)
            (r.writeOutputByte sub value reply s).2.2) ↔
        r.registers.digitalOutputIndex = 0 ∨ b.refuses (r.outputObject sub) reply = true ∨
          b.sends (r.outputObject sub) reply = true)) ∧
    ∀ (m : Motor) replies env code, code.writesObject = true →
      (m.GoesOnSent b replies env code ↔
        (code.catches = false ∧ ∃ e ∈ m.attempts env code, m.refused b replies e = true) ∨
          ∀ e ∈ m.attempts env code, m.sent b replies e = true) := by
  refine ⟨?_, ?_, ?_⟩
  · intro object type value reply s
    exact b.delivered_of_returns_iff object type value reply s
  · intro r sub value reply s hdriver
    rw [Cia401.delivered_of_written_iff, hdriver]
    simp only [Option.some.injEq, forall_eq']
    exact Decidable.imp_iff_not_or.trans (or_congr Decidable.not_not Iff.rfl)
  · intro m replies env code hcode
    exact goesOnSent_iff hcode

/-- A remote receiver on a bridge without PDOs, where every object is a byte. -/
def unmappedRemote : Cia401.M880Remote where
  driver := some (uniform .unsigned8)
  registers := {}
  axes := []
  buttons := []
  polledDigitalSubs := []

/-- Where no reply comes, the call returns, the receiver is said to be written, and the motor
goes on; nothing has arrived. -/
theorem timed_out_writes_lost :
    ((uniform .unsigned8).callSetValue (0x6200, 1) .unsigned8 0xFF .timeout unwritten).1 =
      some () ∧
    ¬ Delivered (0x6200, 1) 0xFF
      ((uniform .unsigned8).callSetValue (0x6200, 1) .unsigned8 0xFF .timeout unwritten).2.2 ∧
    (unmappedRemote.writeOutputByte 1 0xFF .timeout unwritten).1 = true ∧
    ¬ (MotorSystem.zeroed 0 []).motor.GoesOnSent (uniform .unsigned8) (fun _ => .timeout)
      Env.velocity .write := by
  refine ⟨by decide, ?_, by decide, ?_⟩
  · rw [DriverNode.delivered_callSetValue]
    decide
  · rw [goesOnSent_iff rfl]
    decide

end RosCanopen.Cia402
