import RosCanopen.Bridge.Sdo
import RosCanopen.Cia402.Mode
import RosCanopen.Lib.Cast

/-!
# CANopen data behind interfaces of doubles

The interfaces between controllers and hardware carry doubles.  `Ros2ControlCOData` holds
a CANopen datum together with the three doubles that stand for it, and `prepare_data`
goes from one to the other: the data by a type that is named at run time, copied into the
low bytes of the 32-bit word.  The bytes are those of a little-endian machine.

## Main definitions

* `CoType` — the types of the data.
* `staticCast` — `static_cast` of a double to an integer type.
* `RORos2ControlCOData.prepareData`, `WORos2ControlCoData.prepareData`.
-/

namespace RosCanopen.Ros2Control

open Lib Cia402
open Bridge (COData)

/-- `co_type`: the supported types, and any other text. -/
inductive CoType
  | bool
  | int8
  | uint8
  | int16
  | uint16
  | int32
  | uint32
  | other (name : String)
  deriving DecidableEq

/-- `static_cast` of a double, undefined out of range. -/
def staticCast (t : IntType) : Double → Option (BitVec t.width)
  | .fin q => t.cast q
  | _ => none

def isNan : Double → Bool
  | .nan => true
  | _ => false

/-- `static_cast<double>` of an unsigned integer, which is exact. -/
def ofUnsigned {w : ℕ} (x : BitVec w) : Double := .fin x.toNat

namespace CoType

/-- Copy the low bytes into an integer and convert it. -/
def loadInt (t : IntType) (data : BitVec 32) : Option ℚ := some (t.value (data.setWidth t.width))

/-- The number that the word stands for.  A byte other than 0 and 1 is no `bool`. -/
def load (data : BitVec 32) : CoType → Option ℚ
  | .bool =>
      let byte := data.setWidth 8
      if byte = 0 then some 0 else if byte = 1 then some 1 else none
  | .int8 => loadInt ⟨true, 8⟩ data
  | .uint8 => loadInt ⟨false, 8⟩ data
  | .int16 => loadInt ⟨true, 16⟩ data
  | .uint16 => loadInt ⟨false, 16⟩ data
  | .int32 => loadInt ⟨true, 32⟩ data
  | .uint32 => loadInt ⟨false, 32⟩ data
  | .other _ => some data.toNat

/-- Convert to an integer and copy it into the low bytes. -/
def storeInt (t : IntType) (data : Double) (old : BitVec 32) : Option (BitVec 32) :=
  (staticCast t data).map fun x => patch x old

/-- The word that stands for the number. -/
def store (data : Double) (old : BitVec 32) : CoType → Option (BitVec 32)
  | .bool => some (patch (if data = .fin 0 then (0 : BitVec 8) else 1) old)
  | .int8 => storeInt ⟨true, 8⟩ data old
  | .uint8 => storeInt ⟨false, 8⟩ data old
  | .int16 => storeInt ⟨true, 16⟩ data old
  | .uint16 => storeInt ⟨false, 16⟩ data old
  | .int32 => storeInt ⟨true, 32⟩ data old
  | .uint32 => storeInt ⟨false, 32⟩ data old
  | .other _ => staticCast ⟨false, 32⟩ data

end CoType

structure Ros2ControlCOData where
  originalData : COData
  index : Double
  subindex : Double
  data : Double
  coType : CoType := .int32

structure RORos2ControlCOData extends Ros2ControlCOData

structure WORos2ControlCoData extends Ros2ControlCOData where
  oneShot : Double := .nan

namespace RORos2ControlCOData

def setData (s : RORos2ControlCOData) (d : COData) : RORos2ControlCOData :=
  { s with originalData := d }

/-- `raw` is the number that is no `bool`. -/
def prepareData (s : RORos2ControlCOData) (raw : Double) : RORos2ControlCOData :=
  { s with
    index := ofUnsigned s.originalData.index
    subindex := ofUnsigned s.originalData.subindex
    data := ((s.coType.load s.originalData.data).map Double.fin).getD raw }

end RORos2ControlCOData

namespace WORos2ControlCoData

/-- Take the pending command. -/
def writeCommand (s : WORos2ControlCoData) : Bool × WORos2ControlCoData :=
  (!isNan s.oneShot, { s with oneShot := .nan })

/-- `raw` is what the machine makes of conversions out of range. -/
def prepareData (s : WORos2ControlCoData) (raw : COData) : WORos2ControlCoData :=
  { s with
    originalData :=
      { index := (staticCast ⟨false, 16⟩ s.index).getD raw.index
        subindex := (staticCast ⟨false, 8⟩ s.subindex).getD raw.subindex
        data := (s.coType.store s.data s.originalData.data).getD raw.data } }

/-- All conversions are in range. -/
def inRange (s : WORos2ControlCoData) : Bool :=
  (staticCast ⟨false, 16⟩ s.index).isSome && (staticCast ⟨false, 8⟩ s.subindex).isSome &&
    (s.coType.store s.data s.originalData.data).isSome

end WORos2ControlCoData

/-! ## Unsigned data in the default type -/

/-- An unsigned integer survives the way through a double. -/
theorem staticCast_ofUnsigned {w : ℕ} (hw : 0 < w) (x : BitVec w) :
    staticCast ⟨false, w⟩ (ofUnsigned x) = some x := by
  have hcast := IntType.cast_value (t := ⟨false, w⟩) (K := ℚ) hw x
  simpa [staticCast, ofUnsigned, IntType.value_unsigned] using hcast

/-- The default type takes unsigned data up to the largest signed number. -/
theorem store_ofUnsigned (x old : BitVec 32) :
    CoType.int32.store (ofUnsigned x) old = if x.toNat < 2 ^ 31 then some x else none := by
  have hcast : (IntType.mk true 32).cast ((IntType.mk false 32).value x : ℚ) =
      if x.toNat < 2 ^ 31 then some x else none := IntType.cast_swap (by decide) false x
  have hstatic : staticCast ⟨true, 32⟩ (ofUnsigned x) =
      if x.toNat < 2 ^ 31 then some x else none := by
    simpa [staticCast, ofUnsigned, IntType.value_unsigned] using hcast
  rw [CoType.store, CoType.storeInt, hstatic]
  split
  · rw [Option.map_some, patch_full]
  · rfl

/-- The default type gives back as unsigned what has no sign. -/
theorem staticCast_load (x : BitVec 32) (raw : Double) :
    staticCast ⟨false, 32⟩ (((CoType.int32.load x).map Double.fin).getD raw) =
      if x.toNat < 2 ^ 31 then some x else none := by
  have hcast : (IntType.mk false 32).cast ((IntType.mk true 32).value x : ℚ) =
      if x.toNat < 2 ^ 31 then some x else none := IntType.cast_swap (by decide) true x
  simpa [staticCast, CoType.load, CoType.loadInt] using hcast

end RosCanopen.Ros2Control
