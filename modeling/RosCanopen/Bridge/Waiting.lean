import RosCanopen.Bridge.Dictionary

/-!
# Transfers that are waited for

`sync_sdo_write_typed` and `sync_sdo_read_typed` wait for an SDO request and tell by a `bool`
whether it was answered; `universal_set_value` and `universal_get_value` call them for the
objects that are in no PDO.  A call here goes from its beginning to its end; an exception that
leaves it is `none`.

## Main definitions

* `Reply` — how a request ends for who waits for it.
* `DriverNode.syncSdoWriteTyped`, `DriverNode.syncSdoReadTyped`, `DriverNode.getSdoWriteTyped` —
  the waits.
* `DriverNode.callSetValue`, `DriverNode.callGetValue` — the calls of the universal functions.
* `DriverNode.refuses`, `DriverNode.sends` — when a write throws, and when it has arrived.
-/

namespace RosCanopen.Bridge

open Lib

inductive Reply
  /-- The submission throws. -/
  | rejected
  | answered (answer : Except ErrorCode Value)
  /-- `wait_for` ends before the answer. -/
  | timeout

/-- The device has answered, and not with an error. -/
def Reply.isOk : Reply → Bool
  | .answered answer => answer.isOk
  | .rejected | .timeout => false

def Reply.isRejected : Reply → Bool
  | .rejected => true
  | .answered _ | .timeout => false

/-- What a call comes to: its result, or an exception, with the dictionary and the events. -/
abbrev CallResult (α : Type) := Option α × DictionaryState × List TransferEvent

namespace DriverNode
variable (b : DriverNode)

/-- A request is submitted and completed. -/
def transfer (job : SdoJob) (answer : Except ErrorCode Value) (s : DictionaryState) :
    DictionaryState × List TransferEvent :=
  let (s', es) := b.finish job answer s
  (s', es ++ [.submitted job.object job.write])

/-- `sync_sdo_write_typed` -/
def syncSdoWriteTyped (object : ObjectId) (type : DefType) (value : Value) (reply : Reply)
    (s : DictionaryState) : CallResult Bool :=
  match b.typeOf object, reply with
  | none, _ => (some false, b.asyncSdoWriteTyped object type value true s)
  | some _, .rejected => (none, b.asyncSdoWriteTyped object type value false s)
  | some _, .timeout => (some false, b.asyncSdoWriteTyped object type value true s)
  -- what is stored in the future is caught
  | some _, .answered answer =>
      (some answer.isOk, b.transfer ⟨object, type, true, some value⟩ answer s)

/-- `async_sdo_write_typed` with `get` of its future, which waits without a limit; without an
answer the submission throws. -/
def getSdoWriteTyped (object : ObjectId) (type : DefType) (value : Value)
    (answer : Option (Except ErrorCode Value)) (s : DictionaryState) : CallResult Bool :=
  match b.typeOf object, answer with
  | none, _ => (some false, b.asyncSdoWriteTyped object type value true s)
  | some _, none => (none, b.asyncSdoWriteTyped object type value false s)
  -- what is stored in the future is thrown
  | some _, some answer =>
      (if answer.isOk then some true else none,
        b.transfer ⟨object, type, true, some value⟩ answer s)

/-- `sync_sdo_read_typed`, with the value in place of `true`. -/
def syncSdoReadTyped (object : ObjectId) (type : DefType) (reply : Reply) (s : DictionaryState) :
    CallResult (Option Value) :=
  match b.typeOf object, reply with
  | none, _ => (some none, b.asyncSdoReadTyped object type true s)
  | some _, .rejected => (none, b.asyncSdoReadTyped object type false s)
  | some _, .timeout => (some none, b.asyncSdoReadTyped object type true s)
  | some _, .answered answer =>
      (some answer.toOption, b.transfer ⟨object, type, true, none⟩ answer s)

/-- `universal_set_value`, which does not look at what `sync_sdo_write_typed` returns. -/
def callSetValue (object : ObjectId) (type : DefType) (value : Value) (reply : Reply)
    (s : DictionaryState) : CallResult Unit :=
  if b.pdoMap.isRpdo object.1 object.2 then
    -- `tpdo_mapped` throws without the object
    (if b.tpdoMapped object then some () else none, b.universalSetValue object type value true s)
  else
    let (result, rest) := b.syncSdoWriteTyped object type value reply s
    (result.map fun _ => (), rest)

/-- `universal_get_value`, with the value that it returns. -/
def callGetValue (object : ObjectId) (type : DefType) (reply : Reply) (s : DictionaryState) :
    CallResult Value :=
  if b.pdoMap.isTpdo object.1 object.2 then (some (b.universalGetValue object type none s).1, s, [])
  else
    let (result, s', es) := b.syncSdoReadTyped object type reply s
    (result.map fun sdoRead => (b.universalGetValue object type sdoRead s').1, s', es)

/-! ## When a write throws, and when it has arrived -/

/-- The object is in the dictionary. -/
def hasObject (object : ObjectId) : Bool := (b.typeOf object).isSome

/-- A write of the object throws. -/
def refuses (object : ObjectId) (reply : Reply) : Bool :=
  if b.pdoMap.isRpdo object.1 object.2 then !b.tpdoMapped object
  else b.hasObject object && reply.isRejected

/-- The master takes a write of the object, or the device acknowledges it. -/
def sends (object : ObjectId) (reply : Reply) : Bool :=
  if b.pdoMap.isRpdo object.1 object.2 then b.tpdoMapped object
  else b.hasObject object && reply.isOk

/-- A read of the object throws. -/
def readThrows (object : ObjectId) (reply : Reply) : Bool :=
  !b.pdoMap.isTpdo object.1 object.2 && (b.hasObject object && reply.isRejected)

/-- An SDO read of the object fails. -/
def readFails (object : ObjectId) (reply : Reply) : Bool :=
  !b.pdoMap.isTpdo object.1 object.2 && !(b.hasObject object && reply.isOk)

/-- The device answers the read. -/
def answers (object : ObjectId) (reply : Reply) : Bool :=
  !b.pdoMap.isTpdo object.1 object.2 && reply.isOk

/-- What a read of an object that is there has to return: the answer, or else what the dictionary
holds. -/
def offered (object : ObjectId) (type : DefType) (reply : Reply) (s : DictionaryState) : Value :=
  match b.pdoMap.isTpdo object.1 object.2, reply with
  | false, .answered (.ok value) => value
  | _, _ => b.readCache object type s

end DriverNode

/-- The object that an event is about. -/
def TransferEvent.object : TransferEvent → Option ObjectId
  | accepted object _ | transmitted object | submitted object _ | acknowledged object _
  | answered object _ | aborted object | received object _ => some object
  | delivered data | pushed data => some (data.index, data.subindex)
  | failed | terminate => none

/-- A value has been accepted for PDO transmission, or acknowledged by the device. -/
def Delivered (object : ObjectId) (value : Value) (es : List TransferEvent) : Prop :=
  .accepted object value ∈ es ∨ .acknowledged object value ∈ es

namespace DriverNode
variable {b : DriverNode} {object : ObjectId} {type : DefType} {value : Value} {reply : Reply}
  {s : DictionaryState}

/-- A transfer is a submission and the completion of what was submitted. -/
theorem run_transfer (first : ObjectId → Value) {own : DefType} (hown : b.typeOf object = some own)
    (answer : Except ErrorCode Value) (hs : s.terminated = false) :
    (DictionaryState.system b first).run
      [.asyncSdoWriteTyped object type value true, .complete s.jobs.length answer] [] s =
    some ((b.transfer ⟨object, type, true, some value⟩ answer s).2,
      (b.transfer ⟨object, type, true, some value⟩ answer s).1) := by
  obtain ⟨values, jobs, terminated⟩ := s
  obtain rfl : terminated = false := hs
  have herase : ∀ job : SdoJob, (jobs ++ [job]).eraseIdx jobs.length = jobs := by
    intro job
    rw [List.eraseIdx_append_of_length_le (Nat.le_refl _)]
    simp
  simp [System.runIf, DictionaryState.system, DictionaryState.step, asyncSdoWriteTyped, hown,
    submit, complete, transfer, herase]

/-- A write throws when it is refused, and returns otherwise. -/
theorem callSetValue_result :
    (b.callSetValue object type value reply s).1 =
      if b.refuses object reply then none else some () := by
  cases hrpdo : b.pdoMap.isRpdo object.1 object.2 with
  | true =>
      cases hmapped : b.tpdoMapped object with
      | true => simp [callSetValue, refuses, hrpdo, hmapped]
      | false => simp [callSetValue, refuses, hrpdo, hmapped]
  | false =>
      cases htype : b.typeOf object with
      | none => simp [callSetValue, refuses, hrpdo, hasObject, htype, syncSdoWriteTyped]
      | some own =>
          cases reply with
          | rejected => simp [callSetValue, refuses, hrpdo, hasObject, htype, syncSdoWriteTyped,
              Reply.isRejected]
          | answered answer => simp [callSetValue, refuses, hrpdo, hasObject, htype,
              syncSdoWriteTyped, Reply.isRejected]
          | timeout => simp [callSetValue, refuses, hrpdo, hasObject, htype, syncSdoWriteTyped,
              Reply.isRejected]

/-- A value has arrived when the write was sent. -/
theorem delivered_callSetValue :
    Delivered object value (b.callSetValue object type value reply s).2.2 ↔
      b.sends object reply = true := by
  cases hrpdo : b.pdoMap.isRpdo object.1 object.2 with
  | true =>
      cases hmapped : b.tpdoMapped object with
      | true => simp [callSetValue, universalSetValue, sends, hrpdo, hmapped, Delivered]
      | false => simp [callSetValue, universalSetValue, sends, hrpdo, hmapped, Delivered]
  | false =>
      cases htype : b.typeOf object with
      | none =>
          simp [callSetValue, sends, hrpdo, hasObject, htype, syncSdoWriteTyped,
            asyncSdoWriteTyped, Delivered]
      | some own =>
          cases reply with
          | rejected => simp [callSetValue, sends, hrpdo, hasObject, htype, syncSdoWriteTyped,
              asyncSdoWriteTyped, submit, Delivered, Reply.isOk]
          | timeout => simp [callSetValue, sends, hrpdo, hasObject, htype, syncSdoWriteTyped,
              asyncSdoWriteTyped, submit, Delivered, Reply.isOk]
          | answered answer =>
              cases answer with
              | error code => simp [callSetValue, sends, hrpdo, hasObject, htype,
                  syncSdoWriteTyped, transfer, finish, Delivered, Reply.isOk, Except.isOk,
                  Except.toBool]
              | ok x => simp [callSetValue, sends, hrpdo, hasObject, htype, syncSdoWriteTyped,
                  transfer, finish, Delivered, Reply.isOk, Except.isOk, Except.toBool]

/-- **A write that returns has arrived, unless it is neither sent nor refused.** -/
theorem delivered_of_returns_iff (b : DriverNode) (object : ObjectId) (type : DefType)
    (value : Value) (reply : Reply) (s : DictionaryState) :
    ((b.callSetValue object type value reply s).1.isSome = true →
      Delivered object value (b.callSetValue object type value reply s).2.2) ↔
    b.refuses object reply = true ∨ b.sends object reply = true := by
  rw [callSetValue_result, delivered_callSetValue]
  cases b.refuses object reply with
  | true => simp
  | false => simp

/-- A write with `get` is one request, if the object is there and the submission does not throw. -/
theorem submitted_getSdoWriteTyped (b : DriverNode) (type : DefType) (value : Value)
    (answer : Option (Except ErrorCode Value)) (s : DictionaryState) (other : ObjectId)
    (written : Value) :
    .submitted other (some written) ∈ (b.getSdoWriteTyped object type value answer s).2.2 ↔
      (b.hasObject object = true ∧ answer.isSome = true) ∧ other = object ∧ written = value := by
  cases htype : b.typeOf object with
  | none => simp [getSdoWriteTyped, asyncSdoWriteTyped, hasObject, htype]
  | some own =>
      cases answer with
      | none => simp [getSdoWriteTyped, asyncSdoWriteTyped, submit, hasObject, htype]
      | some answer =>
          cases answer with
          | error code => simp [getSdoWriteTyped, transfer, finish, hasObject, htype]
          | ok x => simp [getSdoWriteTyped, transfer, finish, hasObject, htype]

theorem result_getSdoWriteTyped {answer : Option (Except ErrorCode Value)}
    (h : (b.hasObject object && answer.isSome) = false) :
    (b.getSdoWriteTyped object type value answer s).1.getD false = false := by
  cases htype : b.typeOf object with
  | none => simp [getSdoWriteTyped, htype]
  | some own =>
      cases answer with
      | none => simp [getSdoWriteTyped, htype]
      | some answer => simp [hasObject, htype] at h

variable (b type value s) in
theorem setVal_values_of_ne {other : ObjectId} (hne : other ≠ object) :
    (b.setVal object type value s).values other = s.values other := by
  rw [setVal]
  cases b.typeOf object with
  | none => rfl
  | some own => exact Function.update_of_ne hne _ _

variable (b type value reply s) in
/-- **A write is about its own object**: the other entries stay, and no event is about them. -/
theorem callSetValue_frame {other : ObjectId} (hne : other ≠ object) :
    (b.callSetValue object type value reply s).2.1.values other = s.values other ∧
      ∀ e ∈ (b.callSetValue object type value reply s).2.2, e.object ≠ some other := by
  cases hrpdo : b.pdoMap.isRpdo object.1 object.2 with
  | true =>
      have hkept := setVal_values_of_ne b type value s hne
      cases hmapped : b.tpdoMapped object with
      | true => simp [callSetValue, universalSetValue, hrpdo, hmapped, hkept,
          TransferEvent.object, hne.symm]
      | false => simp [callSetValue, universalSetValue, hrpdo, hmapped, hkept,
          TransferEvent.object]
  | false =>
      cases htype : b.typeOf object with
      | none => simp [callSetValue, hrpdo, htype, syncSdoWriteTyped, asyncSdoWriteTyped,
          TransferEvent.object]
      | some own =>
          cases reply with
          | rejected => simp [callSetValue, hrpdo, htype, syncSdoWriteTyped, asyncSdoWriteTyped,
              submit, TransferEvent.object]
          | timeout => simp [callSetValue, hrpdo, htype, syncSdoWriteTyped, asyncSdoWriteTyped,
              submit, TransferEvent.object, hne.symm]
          | answered answer =>
              cases answer with
              | error code => simp [callSetValue, hrpdo, htype, syncSdoWriteTyped, transfer,
                  finish, TransferEvent.object, hne.symm]
              | ok x => simp [callSetValue, hrpdo, htype, syncSdoWriteTyped, transfer, finish,
                  setVal_values_of_ne b type value s hne, TransferEvent.object, hne.symm]

/-- The fallback reads what the dictionary holds, whatever is in flight. -/
theorem readCache_congr {s' : DictionaryState} (h : s'.values = s.values) :
    b.readCache object type s' = b.readCache object type s := by
  unfold readCache getVal
  rw [h]

/-- **A read that fails gives what the dictionary holds**, unless it throws. -/
theorem callGetValue_of_readFails (type : DefType) (s : DictionaryState)
    (hfails : b.readFails object reply = true) :
    (b.callGetValue object type reply s).1 =
      (if b.readThrows object reply then none else some (b.readCache object type s)) ∧
    (b.callGetValue object type reply s).2.1.values = s.values := by
  rw [readFails, Bool.and_eq_true, Bool.not_eq_true'] at hfails
  obtain ⟨htpdo, hfails⟩ := hfails
  cases htype : b.typeOf object with
  | none =>
      simp [callGetValue, readThrows, hasObject, htpdo, htype, syncSdoReadTyped,
        asyncSdoReadTyped, universalGetValue]
  | some own =>
      have hhas : b.hasObject object = true := by simp [hasObject, htype]
      cases reply with
      | rejected =>
          simp [callGetValue, readThrows, hhas, htpdo, htype, syncSdoReadTyped,
            asyncSdoReadTyped, submit, Reply.isRejected]
      | timeout =>
          simp [callGetValue, readThrows, htpdo, htype, syncSdoReadTyped, asyncSdoReadTyped,
            submit, universalGetValue, Reply.isRejected]
          exact readCache_congr rfl
      | answered answer =>
          cases answer with
          | ok value => simp [hhas, Reply.isOk, Except.isOk, Except.toBool] at hfails
          | error code =>
              simp [callGetValue, readThrows, htpdo, htype, syncSdoReadTyped, transfer, finish,
                universalGetValue, Reply.isRejected, Except.toOption]

/-- **What a read returns**: what is offered, unless it throws; an answer is one of the device. -/
theorem callGetValue_of_hasObject (type : DefType) (reply : Reply) (s : DictionaryState)
    (hhas : b.hasObject object = true) :
    (b.callGetValue object type reply s).1 =
      (if b.readThrows object reply then none else some (b.offered object type reply s)) ∧
    (b.answers object reply = true →
      .answered object (b.offered object type reply s) ∈
        (b.callGetValue object type reply s).2.2) := by
  obtain ⟨own, htype⟩ := Option.isSome_iff_exists.mp hhas
  cases htpdo : b.pdoMap.isTpdo object.1 object.2 with
  | true =>
      simp [callGetValue, readThrows, answers, offered, htpdo, universalGetValue]
  | false =>
      cases reply with
      | rejected =>
          simp [callGetValue, readThrows, answers, hhas, htpdo, htype, syncSdoReadTyped,
            asyncSdoReadTyped, submit, Reply.isRejected, Reply.isOk]
      | timeout =>
          simp [callGetValue, readThrows, answers, offered, htpdo, htype, syncSdoReadTyped,
            asyncSdoReadTyped, submit, universalGetValue, Reply.isRejected, Reply.isOk]
          exact readCache_congr rfl
      | answered answer =>
          cases answer with
          | ok value =>
              simp [callGetValue, readThrows, answers, offered, htpdo, htype, syncSdoReadTyped,
                transfer, finish, universalGetValue, Reply.isRejected, Except.toOption]
          | error code =>
              simp [callGetValue, readThrows, answers, offered, htpdo, htype, syncSdoReadTyped,
                transfer, finish, universalGetValue, Reply.isRejected, Reply.isOk, Except.isOk,
                Except.toBool, Except.toOption]

end DriverNode
end RosCanopen.Bridge
