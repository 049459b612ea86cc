import RosCanopen.Bridge.Waiting

/-!
# The radio remote receiver

`M880Remote` reads the axes and buttons of a receiver through `universal_get_value` and writes
its digital outputs through `universal_set_value`.  An object that the dictionary does not have
is not read.  What becomes of the bytes, on the way to a `Joy` message, is left out.

## Main definitions

* `Cia401RegisterMap`, `M880Remote` — the layout of the objects, and the wrapper.
* `M880Remote.readU8` — the object that is read for a byte.
* `M880Remote.readAxes`, `M880Remote.readButtons`, `M880Remote.readBit` — the objects read.
* `M880Remote.writeOutputByte` — a write of outputs.
-/

namespace RosCanopen.Cia401

open Lib Bridge

structure Cia401RegisterMap where
  digitalInputIndex : BitVec 16 := 0x6000
  digitalOutputIndex : BitVec 16 := 0x6200
  analogIndex : BitVec 16 := 0x2021
  commandIndex : BitVec 16 := 0x2020

/-- A bit of an object, which is all that is read of its `BitSpec`. -/
structure BitSpec where
  index : BitVec 16
  sub : BitVec 8

/-- The wrapper; an axis is given by its sub-index. -/
structure M880Remote where
  /-- A null pointer is `none`. -/
  driver : Option DriverNode
  registers : Cia401RegisterMap
  axes : List (BitVec 8)
  buttons : List BitSpec
  polledDigitalSubs : List (BitVec 8)

namespace M880Remote
variable (r : M880Remote)

/-- `read_u8`: the object that it reads. -/
def readU8 (index : BitVec 16) (sub : BitVec 8) : List ObjectId :=
  match r.driver with
  | none => []
  | some b => if index = 0 then [] else if b.hasObject (index, sub) then [(index, sub)] else []

/-- `read_axes` -/
def readAxes : List ObjectId := r.axes.flatMap fun sub => r.readU8 r.registers.analogIndex sub

/-- `read_bit` -/
def readBit (spec : BitSpec) : List ObjectId := r.readU8 spec.index spec.sub

/-- `read_buttons`: the buttons that were configured, or else every polled byte. -/
def readButtons : List ObjectId :=
  if r.buttons.isEmpty then
    r.polledDigitalSubs.flatMap fun sub => r.readU8 r.registers.digitalInputIndex sub
  else r.buttons.flatMap r.readBit

/-- The object of an output byte. -/
def outputObject (sub : BitVec 8) : ObjectId := (r.registers.digitalOutputIndex, sub)

/-- `write_output_byte`, which takes every exception for a failure. -/
def writeOutputByte (sub value : BitVec 8) (reply : Reply) (s : DictionaryState) :
    Bool × DictionaryState × List TransferEvent :=
  match r.driver with
  | none => (false, s, [])
  | some b =>
      if r.registers.digitalOutputIndex = 0 then (false, s, [])
      else
        let (result, rest) :=
          b.callSetValue (r.outputObject sub) .unsigned8 (value.setWidth 64) reply s
        (result.isSome, rest)

end M880Remote

variable {r : M880Remote} {sub value : BitVec 8} {reply : Reply} {s : DictionaryState}

/-- Without a driver, or with the index switched off, nothing is written. -/
theorem writeOutputByte_eq_false (h : r.driver = none ∨ r.registers.digitalOutputIndex = 0) :
    (r.writeOutputByte sub value reply s).1 = false := by
  unfold M880Remote.writeOutputByte
  cases hdriver : r.driver with
  | none => rfl
  | some b =>
      have hindex : r.registers.digitalOutputIndex = 0 := by simpa [hdriver] using h
      simp [hindex]

theorem writeOutputByte_of_driver {b : DriverNode} (hdriver : r.driver = some b)
    (hindex : r.registers.digitalOutputIndex ≠ 0) :
    r.writeOutputByte sub value reply s =
      ((b.callSetValue (r.outputObject sub) .unsigned8 (value.setWidth 64) reply s).1.isSome,
        (b.callSetValue (r.outputObject sub) .unsigned8 (value.setWidth 64) reply s).2) := by
  rw [M880Remote.writeOutputByte, hdriver]
  exact if_neg hindex

/-- **An output byte that is said to be written has arrived**, unless its write is neither sent
nor refused. -/
theorem delivered_of_written_iff :
    ((r.writeOutputByte sub value reply s).1 = true →
      Delivered (r.outputObject sub) (value.setWidth 64)
        (r.writeOutputByte sub value reply s).2.2) ↔
    ∀ b, r.driver = some b → r.registers.digitalOutputIndex ≠ 0 →
      b.refuses (r.outputObject sub) reply = true ∨ b.sends (r.outputObject sub) reply = true := by
  by_cases hskip : r.driver = none ∨ r.registers.digitalOutputIndex = 0
  · rw [writeOutputByte_eq_false hskip]
    rcases hskip with hdriver | hindex
    · simp [hdriver]
    · simp [hindex]
  · obtain ⟨hdriver, hindex⟩ := not_or.mp hskip
    obtain ⟨b, hdriver⟩ := Option.ne_none_iff_exists'.mp hdriver
    rw [writeOutputByte_of_driver hdriver hindex]
    have hcall := b.delivered_of_returns_iff (r.outputObject sub) .unsigned8 (value.setWidth 64)
      reply s
    simp only [hcall, hdriver, Option.some.injEq, forall_eq', hindex, ne_eq, not_false_eq_true,
      forall_const]

end RosCanopen.Cia401
