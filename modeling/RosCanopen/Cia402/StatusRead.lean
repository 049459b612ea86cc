import RosCanopen.Bridge.Codec
import RosCanopen.Bridge.Waiting
import RosCanopen.Cia402.MotorStep

/-!
# Reads of the status word that fail

`readState` reads the status word and the displayed mode with `universal_get_value`, which falls
back to the local dictionary, and returns `true` or throws.  The tests of its result by
`handleInit`, `handleEnable` and `handleDisable` have nothing to tell.

## Main definitions

* `Motor.callReadState` — a call of `readState`, with the replies to its reads.
* `Motor.RefusesFailedRead` — what a failed read would be without effect.
-/

namespace RosCanopen.Cia402

open Lib Bridge

/-- The environment of a read of the status word; `none` is an exception. -/
def Env.ofStatus (env : Env) (read : Option Value) : Env :=
  { env with driverOk := read.isSome, statusWord := (read.getD 0).setWidth 16 }

/-- The environment of a read of the displayed mode. -/
def Env.ofDisplay (env : Env) (read : Option Value) : Env :=
  { env with driverOk := read.isSome, modeDisplay := (read.getD 0).setWidth 8 }

/-- The replies to the two requests of `readState`. -/
structure StateReplies where
  status : Reply
  display : Reply

namespace Motor
variable (m : Motor)

def statusObject : ObjectId := (m.channelIndex 0x6041, 0)

def displayObject : ObjectId := (m.channelIndex 0x6061, 0)

/-- The three steps of `readState`, with no other thread in between. -/
def callReadState (b : DriverNode) (replies : StateReplies) (env : Env) (s : DictionaryState) :
    Option (Motor × Next × List MotorEvent) :=
  let (status, s', _) := b.callGetValue m.statusObject .unsigned16 replies.status s
  match m.exec (env.ofStatus status) .readStatus with
  | some (m', .goto code, es) =>
      match m'.exec env code with
      | some (m'', .goto code', es') =>
          let (display, _, _) := b.callGetValue m.displayObject .integer8 replies.display s'
          (m''.exec (env.ofDisplay display) code').map fun (m, next, es'') =>
            (m, next, es'' ++ es' ++ es)
      | stopped => stopped
  | stopped => stopped

/-- The calls that test what `readState` returns, with where they stand. -/
def readers : List (Call × List Frame) :=
  [(.handleInit, [.thenArm]), (.handleEnable, [.thenState .operationEnable]),
    (.handleDisable, [.thenState .switchedOn])]

/-- A read of the status word that fails is without effect, and the callers return `false`. -/
structure RefusesFailedRead (b : DriverNode) (replies : StateReplies) (env : Env)
    (s : DictionaryState) : Prop where
  returns : ∃ m' es, m.callReadState b replies env s = some (m', .ret false, es)
  kept : ∀ m' next es, m.callReadState b replies env s = some (m', next, es) →
    m'.state = m.state ∧ m'.modes = m.modes ∧ m'.modeId = m.modeId ∧
      m'.controlWord = m.controlWord
  undecoded : ∀ m' next es, m.callReadState b replies env s = some (m', next, es) →
    ∀ old new, .decoded old new ∉ es
  refused : ∀ m' next es, m.callReadState b replies env s = some (m', next, es) →
    ∀ call frames, (call, frames) ∈ readers → ∀ code,
      Thread.after ⟨call, code, frames⟩ next = (none, [.returned call false])

end Motor

/-! ## What a call of `readState` comes to -/

section Calls
variable {m : Motor} {b : DriverNode} {replies : StateReplies} {env : Env} {s : DictionaryState}

/-- A read of the status word throws, and nothing has changed. -/
theorem callReadState_throws
    (hread : (b.callGetValue m.statusObject .unsigned16 replies.status s).1 = none) :
    m.callReadState b replies env s = some (m, .throw, []) := by
  simp [Motor.callReadState, hread, Motor.exec, Env.ofStatus]

/-- The read of the displayed mode returns or throws, and keeps the decoded state. -/
theorem exec_readMode (m : Motor) (env : Env) (sw : Word) :
    ∃ m' next es, m.exec env (.readMode sw) = some (m', next, es) ∧
      (next = .ret true ∨ next = .throw) ∧ m'.state = m.state := by
  simp only [Motor.exec]
  split
  · obtain ⟨modes, hmodes⟩ := readSelected_motor m (env.modeDisplay.signExtend 16) sw
    exact ⟨_, _, _, rfl, .inl rfl, by rw [hmodes]⟩
  · exact ⟨m, _, _, rfl, .inr rfl, rfl⟩

/-- The value that is read is decoded, whatever becomes of the displayed mode. -/
theorem callReadState_of_some (replies : StateReplies) (env : Env) {value : Value}
    (hread : (b.callGetValue m.statusObject .unsigned16 replies.status s).1 = some value) :
    ∃ m' next es, m.callReadState b replies env s = some (m', next, es) ∧
      (next = .ret true ∨ next = .throw) ∧ m'.state = State402.read (value.setWidth 16) ∧
      .decoded m.state m'.state ∈ es := by
  let m₁ : Motor := { m with
    statusWord := value.setWidth 16, state := State402.read (value.setWidth 16) }
  let display := (b.callGetValue m.displayObject .integer8 replies.display
    (b.callGetValue m.statusObject .unsigned16 replies.status s).2.1).1
  obtain ⟨m', next, es, hexec, hnext, hstate⟩ :=
    exec_readMode m₁ (env.ofDisplay display) (value.setWidth 16)
  have hcall : m.callReadState b replies env s =
      some (m', next, es ++ [.decoded m.state m₁.state] ++ []) := by
    simp only [Motor.callReadState, hread, Motor.exec, Env.ofStatus, Option.isSome_some, if_true,
      Option.getD_some]
    exact congrArg (Option.map _) hexec
  refine ⟨m', next, _, hcall, hnext, hstate, ?_⟩
  rw [hstate]
  simp [m₁]

/-- `readState` never returns `false`. -/
theorem callReadState_next {m' : Motor} {next : Next} {es : List MotorEvent}
    (h : m.callReadState b replies env s = some (m', next, es)) :
    next = .ret true ∨ next = .throw := by
  cases hread : (b.callGetValue m.statusObject .unsigned16 replies.status s).1 with
  | none =>
      obtain ⟨-, rfl, -⟩ := step_inj ((callReadState_throws hread).symm.trans h)
      exact .inr rfl
  | some value =>
      obtain ⟨m'', next', es', hcall, hnext, -⟩ := callReadState_of_some replies env hread
      obtain ⟨-, rfl, -⟩ := step_inj (hcall.symm.trans h)
      exact hnext

/-- A caller goes on when `readState` returns `true`. -/
theorem isSome_after_of_reader {call : Call} {frames : List Frame} {code : Code}
    (h : (call, frames) ∈ Motor.readers) :
    (Thread.after ⟨call, code, frames⟩ (.ret true)).1.isSome = true := by
  simp only [Motor.readers, List.mem_cons, List.not_mem_nil, or_false, Prod.mk.injEq] at h
  obtain ⟨-, rfl⟩ | ⟨-, rfl⟩ | ⟨-, rfl⟩ := h <;> rfl

/-- **A failed read is refused on no input**: where the status word cannot be read, what the
dictionary holds is decoded, unless the read throws. -/
theorem failed_read_refused_iff (b : DriverNode) (m : Motor) (replies : StateReplies) (env : Env)
    (s : DictionaryState) :
    ((b.readFails m.statusObject replies.status = true → m.RefusesFailedRead b replies env s) ↔
      b.readFails m.statusObject replies.status = false) ∧
    (b.readFails m.statusObject replies.status = true →
      b.readThrows m.statusObject replies.status = false →
        ∃ m' next es, m.callReadState b replies env s = some (m', next, es) ∧
          (next = .ret true ∨ next = .throw) ∧
          m'.state = State402.read ((b.readCache m.statusObject .unsigned16 s).setWidth 16) ∧
          .decoded m.state m'.state ∈ es ∧
          ∀ call frames, (call, frames) ∈ Motor.readers → ∀ code,
            next = .ret true → (Thread.after ⟨call, code, frames⟩ next).1.isSome = true) := by
  constructor
  · constructor
    · intro hrefuses
      by_contra hfails
      obtain ⟨m', es, hcall⟩ := (hrefuses (Bool.not_eq_false _ ▸ hfails)).returns
      rcases callReadState_next hcall with hnext | hnext <;> simp at hnext
    · intro hfails hfailed
      exact absurd (hfails.symm.trans hfailed) (by simp)
  · intro hfails hthrows
    obtain ⟨hread, -⟩ := b.callGetValue_of_readFails .unsigned16 s hfails
    rw [hthrows] at hread
    obtain ⟨m', next, es, hcall, hnext, hstate, hdecoded⟩ :=
      callReadState_of_some replies env hread
    refine ⟨m', next, es, hcall, hnext, hstate, hdecoded, ?_⟩
    rintro call frames hreader code rfl
    exact isSome_after_of_reader hreader

end Calls

/-! ## A cached status word is taken for the drive's -/

/-- What the dictionary holds reads as the status word of an enabled drive. -/
def cachedEnabled : DictionaryState := ⟨fun _ => 0x27, [], false⟩

/-- The environment of `readState` on a bridge without PDOs, when no reply comes. -/
def Env.unanswered : Env :=
  let b := uniform .unsigned16
  let status := (b.callGetValue (0x6041, 0) .unsigned16 .timeout cachedEnabled).1
  let display := (b.callGetValue (0x6061, 0) .integer8 .timeout cachedEnabled).1
  (Env.velocity.ofStatus status).ofDisplay display

/-- The motor has decoded no status word.  No reply comes; it takes itself for enabled after the
read, `handleEnable` returns `true`, and `handleInit` zeroes the control word. -/
theorem cached_status_decoded :
    (uniform .unsigned16).readFails (0x6041, 0) .timeout = true ∧
    ((MotorSystem.zeroed 0x80 []).motor.callReadState (uniform .unsigned16) ⟨.timeout, .timeout⟩
      Env.velocity cachedEnabled).map (fun r => (r.1.state, r.2.1)) =
        some (.operationEnable, .ret true) ∧
    (MotorSystem.system.run (MotorStep.calls 1 .handleEnable 6 Env.unanswered) []
      (MotorSystem.zeroed 0x80 [])).map (fun r => r.1.head?) =
        some (some (.returned .handleEnable true)) ∧
    (MotorSystem.system.run (MotorStep.calls 1 .handleInit 5 Env.unanswered) []
      (MotorSystem.zeroed 0x80 [])).map (fun r => r.2.motor.controlWord) = some 0 := by
  decide

end RosCanopen.Cia402
