import RosCanopen.Bridge.PdoMap
import RosCanopen.Bridge.Sdo

/-!
# The local dictionary and its transfers

The bridge keeps a dictionary with the values of the device's objects.  Its functions write it at
different moments: before a value goes to the master's PDO, after it, or in the completion of an
SDO request.  Lely is taken with what it says about `setVal`: a value of the object's own type is
stored.

## Main definitions

* `Lely`, `DriverNode` — what is used of Lely, and a bridge with its PDO map and its master.
* `universalSetValue`, `universalGetValue`, `tpdoTransmit`, `onRpdoWrite`, `complete` — the
  functions on the dictionary.
* `DictionaryState.system` — the functions in any order, with the completions in between.
-/

namespace RosCanopen.Bridge

open Lib

/-- An index and a sub-index. -/
abbrev ObjectId := BitVec 16 × BitVec 8

/-- The functions of Lely's dictionary, by the type of the object and the type of the call. -/
structure Lely where
  setVal : DefType → DefType → Value → Value → Value
  getVal : DefType → DefType → Value → Value
  setVal_same : ∀ type new old, type ≠ .other → setVal type type new old = new
  getVal_same : ∀ type value, type ≠ .other → getVal type type value = value

/-- A dictionary that stores and gives whatever it is given. -/
def Lely.plain : Lely where
  setVal _ _ new _ := new
  getVal _ _ value := value
  setVal_same _ _ _ _ := rfl
  getVal_same _ _ _ := rfl

/-- A bridge with its PDO map, and the objects that the master has mapped. -/
structure DriverNode extends LelyDriverBridge where
  lely : Lely
  pdoMap : PDOMap
  tpdoMapped : ObjectId → Bool
  rpdoMapped : ObjectId → Bool

/-- A request that Lely has accepted; a write has its value. -/
structure SdoJob where
  object : ObjectId
  /-- The C++ type of the value. -/
  type : DefType
  typed : Bool
  write : Option Value
  deriving DecidableEq

/-- The values of the objects, and the requests in flight. -/
structure DictionaryState where
  values : ObjectId → Value
  jobs : List SdoJob
  /-- An exception has left a function that is `noexcept`. -/
  terminated : Bool

inductive TransferEvent
  /-- `tpdo_mapped` has taken a value. -/
  | accepted (object : ObjectId) (value : Value)
  /-- `WriteEvent` -/
  | transmitted (object : ObjectId)
  /-- An SDO request has been submitted; a write with its value. -/
  | submitted (object : ObjectId) (write : Option Value)
  /-- The device has acknowledged a write. -/
  | acknowledged (object : ObjectId) (value : Value)
  /-- The device has answered a read. -/
  | answered (object : ObjectId) (value : Value)
  | aborted (object : ObjectId)
  /-- The data that an untyped read gives to its caller. -/
  | delivered (data : COData)
  /-- A value has been received by RPDO. -/
  | received (object : ObjectId) (value : Value)
  /-- A message has been pushed to `rpdo_queue`. -/
  | pushed (data : COData)
  /-- The call fails, or an exception leaves it. -/
  | failed
  | terminate
  deriving DecidableEq

/-- The bytes of the data as a value of the type.  A byte other than 0 and 1 is no `bool`; what
it is taken for is `raw`. -/
def loadValue (raw : Bool) (type : DefType) (data : BitVec 32) : Option Value :=
  match type with
  | .boolean =>
      let byte := data.setWidth 8
      some (if byte = 0 then 0 else if byte = 1 then 1 else (BitVec.ofBool raw).setWidth 64)
  | _ => type.width.map fun width => (data.setWidth width).setWidth 64

/-- `memcpy` of a value of the type into zeroed data. -/
def packValue (type : DefType) (value : Value) : BitVec 32 :=
  (value.setWidth (type.width.getD 32)).setWidth 32

namespace DriverNode
variable (b : DriverNode)

/-- The type of an object. -/
def typeOf (object : ObjectId) : Option DefType := b.find object.1 object.2

/-- `setVal` of the dictionary, for the type of the call; without the object it does nothing. -/
def setVal (object : ObjectId) (type : DefType) (value : Value) (s : DictionaryState) :
    DictionaryState :=
  match b.typeOf object with
  | none => s
  | some own => { s with
      values := Function.update s.values object (b.lely.setVal own type value (s.values object)) }

/-- The value of an object, as one of the type. -/
def getVal (object : ObjectId) (type : DefType) (s : DictionaryState) : Value :=
  match b.typeOf object with
  | none => 0
  | some own => b.lely.getVal own type (s.values object)

/-- `SubmitWrite` or `SubmitRead`, which may throw. -/
def submit (job : SdoJob) (submits : Bool) (s : DictionaryState) :
    DictionaryState × List TransferEvent :=
  if submits then ({ s with jobs := s.jobs ++ [job] }, [.submitted job.object job.write])
  else (s, [.failed])

/-- `async_sdo_write_typed` -/
def asyncSdoWriteTyped (object : ObjectId) (type : DefType) (value : Value) (submits : Bool)
    (s : DictionaryState) : DictionaryState × List TransferEvent :=
  match b.typeOf object with
  | none => (s, [.failed])
  | some _ => submit ⟨object, type, true, some value⟩ submits s

/-- `async_sdo_read_typed` -/
def asyncSdoReadTyped (object : ObjectId) (type : DefType) (submits : Bool)
    (s : DictionaryState) : DictionaryState × List TransferEvent :=
  match b.typeOf object with
  | none => (s, [.failed])
  | some _ => submit ⟨object, type, true, none⟩ submits s

/-- `async_sdo_write` -/
def asyncSdoWrite (data : COData) (raw submits : Bool) (s : DictionaryState) :
    DictionaryState × List TransferEvent :=
  let object := (data.index, data.subindex)
  match b.typeOf object with
  | none => (s, [.failed])
  | some type =>
      match loadValue raw type data.data with
      | none => (s, [])
      | some value => submit ⟨object, type, false, some value⟩ submits s

/-- `async_sdo_read` -/
def asyncSdoRead (data : COData) (submits : Bool) (s : DictionaryState) :
    DictionaryState × List TransferEvent :=
  let object := (data.index, data.subindex)
  match b.typeOf object with
  | none => (s, [.failed])
  | some type =>
      match type.width with
      | none => (s, [])
      | some _ => submit ⟨object, type, false, none⟩ submits s

/-- The completion of a request, with the device's answer. -/
def finish (job : SdoJob) (answer : Except ErrorCode Value) (s : DictionaryState) :
    DictionaryState × List TransferEvent :=
  match answer with
  | .error _ => (s, [.aborted job.object])
  | .ok value =>
      match job.write with
      | some written => (b.setVal job.object job.type written s, [.acknowledged job.object written])
      | none =>
          let delivered : List TransferEvent :=
            if job.typed then []
            else [.delivered ⟨job.object.1, job.object.2, packValue job.type value⟩]
          (b.setVal job.object job.type value s, delivered ++ [.answered job.object value])

/-- A request in flight is completed; the completions come in any order. -/
def complete (k : ℕ) (answer : Except ErrorCode Value) (s : DictionaryState) :
    Option (DictionaryState × List TransferEvent) :=
  (s.jobs[k]?).map fun job => b.finish job answer { s with jobs := s.jobs.eraseIdx k }

/-- The switch of `tpdo_transmit`, which has no branch for `REAL32`. -/
def tpdoValue (raw : Bool) (type : DefType) (data : BitVec 32) : Option Value :=
  if type = .real32 then none else loadValue raw type data

/-- `tpdo_transmit` -/
def tpdoTransmit (data : COData) (raw : Bool) (s : DictionaryState) :
    DictionaryState × List TransferEvent :=
  let object := (data.index, data.subindex)
  match b.typeOf object with
  | none => (s, [.failed])
  | some type =>
      match tpdoValue raw type data.data with
      | none =>
          -- the default branch falls through to the event
          if b.tpdoMapped object then (s, [.transmitted object]) else (s, [.failed])
      | some value =>
          if b.tpdoMapped object then
            (b.setVal object type value s, [.transmitted object, .accepted object value])
          else (s, [.failed])

/-- `OnRpdoWrite`, with what `rpdo_mapped` has for the object. -/
def onRpdoWrite (object : ObjectId) (value : Value) (s : DictionaryState) :
    DictionaryState × List TransferEvent :=
  match b.typeOf object with
  | none => (s, [])
  | some type =>
      match type.width with
      -- the default branch falls through to the queue
      | none => (s, [.pushed ⟨object.1, object.2, 0⟩])
      | some _ =>
          if b.rpdoMapped object then
            let s := b.setVal object type value s
            let data := packValue type (b.getVal object type s)
            (s, [.pushed ⟨object.1, object.2, data⟩, .received object value])
          else ({ s with terminated := true }, [.terminate])

/-- `universal_set_value` -/
def universalSetValue (object : ObjectId) (type : DefType) (value : Value) (submits : Bool)
    (s : DictionaryState) : DictionaryState × List TransferEvent :=
  if b.pdoMap.isRpdo object.1 object.2 then
    let s := b.setVal object type value s
    if b.tpdoMapped object then (s, [.transmitted object, .accepted object value])
    else (s, [.failed])
  else b.asyncSdoWriteTyped object type value submits s

/-- The `typeid` chain of `universal_get_value`. -/
def readCache (object : ObjectId) (type : DefType) (s : DictionaryState) : Value :=
  match type with
  | .unsigned8 | .unsigned16 | .unsigned32 | .integer8 | .integer16 | .integer32 =>
      b.getVal object type s
  | .boolean | .real32 | .other => 0

/-- `universal_get_value`, with what `sync_sdo_read_typed` gives; the result is with whether an
SDO read has been made. -/
def universalGetValue (object : ObjectId) (type : DefType) (sdoRead : Option Value)
    (s : DictionaryState) : Value × Bool :=
  if b.pdoMap.isTpdo object.1 object.2 then (b.readCache object type s, false)
  else
    match sdoRead with
    | some value => (value, true)
    | none => (b.readCache object type s, true)

/-! ## The values of objects of their own type -/

section Values
variable {b} {object : ObjectId} {type : DefType} {value : Value}

theorem ne_other_of_width {width : ℕ} (hwidth : type.width = some width) : type ≠ .other := by
  intro hother
  rw [hother] at hwidth
  cases hwidth

theorem values_setVal (s : DictionaryState) (value : Value) (htype : b.typeOf object = some type)
    (hknown : type ≠ .other) :
    (b.setVal object type value s).values = Function.update s.values object value := by
  rw [DriverNode.setVal, htype]
  simp only [b.lely.setVal_same type value (s.values object) hknown]

theorem getVal_setVal (s : DictionaryState) (value : Value) (htype : b.typeOf object = some type)
    (hknown : type ≠ .other) :
    b.getVal object type (b.setVal object type value s) = value := by
  unfold DriverNode.getVal
  rw [htype]
  simp only [values_setVal s value htype hknown, Function.update_self,
    b.lely.getVal_same type value hknown]

end Values
end DriverNode

inductive DictionaryInput
  | universalSetValue (object : ObjectId) (type : DefType) (value : Value) (submits : Bool)
  | tpdoTransmit (data : COData) (raw : Bool)
  | asyncSdoWrite (data : COData) (raw submits : Bool)
  | asyncSdoRead (data : COData) (submits : Bool)
  | asyncSdoWriteTyped (object : ObjectId) (type : DefType) (value : Value) (submits : Bool)
  | asyncSdoReadTyped (object : ObjectId) (type : DefType) (submits : Bool)
  | complete (k : ℕ) (answer : Except ErrorCode Value)
  | onRpdoWrite (object : ObjectId) (value : Value)

namespace DictionaryState

def step (b : DriverNode) (s : DictionaryState) (i : DictionaryInput) :
    Option (DictionaryState × List TransferEvent) :=
  if s.terminated then none
  else
    match i with
    | .universalSetValue object type value submits =>
        some (b.universalSetValue object type value submits s)
    | .tpdoTransmit data raw => some (b.tpdoTransmit data raw s)
    | .asyncSdoWrite data raw submits => some (b.asyncSdoWrite data raw submits s)
    | .asyncSdoRead data submits => some (b.asyncSdoRead data submits s)
    | .asyncSdoWriteTyped object type value submits =>
        some (b.asyncSdoWriteTyped object type value submits s)
    | .asyncSdoReadTyped object type submits => some (b.asyncSdoReadTyped object type submits s)
    | .complete k answer => b.complete k answer s
    | .onRpdoWrite object value => some (b.onRpdoWrite object value s)

/-- A bridge from its construction, with the initial values of the dictionary. -/
def system (b : DriverNode) (first : ObjectId → Value) :
    System DictionaryState DictionaryInput TransferEvent where
  init s := s = ⟨first, [], false⟩
  step := step b

end DictionaryState

end RosCanopen.Bridge
