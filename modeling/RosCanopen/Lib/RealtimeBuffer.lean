import Mathlib.Data.List.Basic

/-!
# A buffer between a thread and a realtime thread

The one thread stores new values, and the realtime thread swaps a new value in when it
reads.  A value that has been stored and not read yet is queued; a later one replaces it.

## Main definitions

* `RealtimeBuffer`, `RealtimeBuffer.writeFromNonRT`, `RealtimeBuffer.readFromRT`.
* `RealtimeBuffer.queued` — the value that the next read will find.
-/

namespace RosCanopen.Lib

universe u

structure RealtimeBuffer (α : Type u) where
  realtime : α
  nonRealtime : α
  newDataAvailable : Bool

namespace RealtimeBuffer

variable {α : Type u}

def writeFromNonRT (b : RealtimeBuffer α) (x : α) : RealtimeBuffer α :=
  { b with nonRealtime := x, newDataAvailable := true }

/-- The value read is `realtime` then. -/
def readFromRT (b : RealtimeBuffer α) : RealtimeBuffer α :=
  if b.newDataAvailable then ⟨b.nonRealtime, b.realtime, false⟩ else b

def queued (b : RealtimeBuffer (Option α)) : Option α :=
  if b.newDataAvailable then b.nonRealtime else none

section Queued
variable (b : RealtimeBuffer (Option α)) (x : α)

@[simp] theorem queued_writeFromNonRT : (b.writeFromNonRT (some x)).queued = some x := rfl

@[simp] theorem realtime_writeFromNonRT : (b.writeFromNonRT (some x)).realtime = b.realtime := rfl

@[simp] theorem newDataAvailable_readFromRT : b.readFromRT.newDataAvailable = false := by
  unfold readFromRT
  split
  · rfl
  · next h => exact Bool.eq_false_iff.mpr h

theorem queued_of_not_available (h : b.newDataAvailable = false) : b.queued = none := by
  simp [queued, h]

/-- A read takes what is queued. -/
theorem realtime_readFromRT (h : b.realtime = none) : b.readFromRT.realtime = b.queued := by
  unfold readFromRT queued
  split
  · rfl
  · exact h

theorem readFromRT_of_not_available (h : b.newDataAvailable = false) : b.readFromRT = b := by
  simp [readFromRT, h]

end Queued
end RealtimeBuffer
end RosCanopen.Lib
