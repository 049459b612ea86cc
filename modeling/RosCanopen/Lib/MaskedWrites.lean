import RosCanopen.Lib.Word

/-!
# Writes through a mask

An accessor of a word has a mask and reaches no other bit: it assigns a value, or sets or resets
one bit.  After any sequence of such writes a bit of the mask is what has been written to it last,
and a bit outside of the mask is what it was.

## Main definitions

* `MaskedWrite`, `MaskedWrite.apply` — the writes of an accessor.
* `applyAll`, `lastWritten` — a sequence of them, oldest first.
-/

namespace RosCanopen.Lib

variable {w : ℕ}

/-- A write of an accessor. -/
inductive MaskedWrite (w : ℕ)
  | assign (val : BitVec w)
  | set (i : ℕ)
  | reset (i : ℕ)
  deriving DecidableEq

namespace MaskedWrite

def apply (mask : BitVec w) : MaskedWrite w → BitVec w → BitVec w
  | assign val, v => overwrite mask (val &&& mask) v
  | set i, v => overwrite 0 (mask &&& bit i) v
  | reset i, v => overwrite (mask &&& bit i) 0 v

/-- What is written to a bit of the mask. -/
def written (i : ℕ) : MaskedWrite w → Option Bool
  | assign val => some (val.getLsbD i)
  | set j => if j = i then some true else none
  | reset j => if j = i then some false else none

variable {mask : BitVec w} {i : ℕ}

theorem getLsbD_apply (hi : mask.getLsbD i = true) (op : MaskedWrite w) (v : BitVec w) :
    (op.apply mask v).getLsbD i = (op.written i).getD (v.getLsbD i) := by
  have hlt : i < w := BitVec.lt_of_getLsbD hi
  cases op with
  | assign val => simp [apply, written, hi]
  | set j =>
      by_cases hj : j = i
      · simp [apply, written, hi, hj, hlt]
      · simp [apply, written, hj]
  | reset j =>
      by_cases hj : j = i
      · simp [apply, written, hi, hj, hlt]
      · simp [apply, written, hj]

theorem getLsbD_apply_of_outside (hi : mask.getLsbD i = false) (op : MaskedWrite w)
    (v : BitVec w) : (op.apply mask v).getLsbD i = v.getLsbD i := by
  cases op <;> simp [apply, hi]

end MaskedWrite

open MaskedWrite

/-- A sequence of writes, oldest first. -/
def applyAll (mask : BitVec w) (ops : List (MaskedWrite w)) (v : BitVec w) : BitVec w :=
  ops.foldl (fun v op => op.apply mask v) v

/-- What a sequence of writes has written to a bit last. -/
def lastWritten (i : ℕ) (ops : List (MaskedWrite w)) : Option Bool :=
  ops.reverse.findSome? (written i)

section
variable {mask : BitVec w} {i : ℕ}

@[simp] theorem applyAll_nil (v : BitVec w) : applyAll mask [] v = v := rfl

@[simp] theorem applyAll_cons (op : MaskedWrite w) (ops : List (MaskedWrite w)) (v : BitVec w) :
    applyAll mask (op :: ops) v = applyAll mask ops (op.apply mask v) := rfl

/-- Earlier writes show where the later ones write nothing. -/
theorem lastWritten_append (ops later : List (MaskedWrite w)) :
    lastWritten i (ops ++ later) = (lastWritten i later).or (lastWritten i ops) := by
  simp [lastWritten, List.reverse_append, List.findSome?_append]

@[simp] theorem lastWritten_nil : lastWritten i ([] : List (MaskedWrite w)) = none := rfl

@[simp] theorem lastWritten_singleton (op : MaskedWrite w) :
    lastWritten i [op] = op.written i := by
  simp [lastWritten]

/-- **A bit of the mask** is what has been written to it last. -/
theorem getLsbD_applyAll (hi : mask.getLsbD i = true) (ops : List (MaskedWrite w))
    (v : BitVec w) : (applyAll mask ops v).getLsbD i = (lastWritten i ops).getD (v.getLsbD i) := by
  induction ops generalizing v with
  | nil => rfl
  | cons op ops ih =>
      rw [applyAll_cons, ih, getLsbD_apply hi, ← List.singleton_append, lastWritten_append,
        lastWritten_singleton]
      cases lastWritten i ops with
      | none => rw [Option.none_or, Option.getD_none]
      | some b => rfl

theorem getLsbD_applyAll_of_outside (hi : mask.getLsbD i = false) (ops : List (MaskedWrite w))
    (v : BitVec w) : (applyAll mask ops v).getLsbD i = v.getLsbD i := by
  induction ops generalizing v with
  | nil => rfl
  | cons op ops ih => rw [applyAll_cons, ih, getLsbD_apply_of_outside hi]

end
end RosCanopen.Lib
