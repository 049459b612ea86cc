import Mathlib.Data.BitVec

/-!
# Words read bit by bit

Set-and-reset updates of a machine word of any width, and what they do to each bit.
A mask is an ordinary word; `bit i` is the mask `1 << i`.

## Main definitions

* `bit i` — the word with only bit `i` set.
* `overwrite reset set v` — clear the bits of `reset`, then set those of `set`.
* `AgreeOn bits v v'` — the two words have the same bits at the listed positions.
-/

namespace RosCanopen.Lib

variable {w : ℕ}

/-- The mask `1 << i`. -/
def bit (i : ℕ) : BitVec w := BitVec.twoPow w i

/-- Clear the bits of `reset`, then set those of `set`. -/
def overwrite (reset set v : BitVec w) : BitVec w := (v &&& ~~~reset) ||| set

@[simp] theorem getLsbD_bit (i j : ℕ) :
    (bit i : BitVec w).getLsbD j = (decide (i < w) && decide (i = j)) :=
  BitVec.getLsbD_twoPow i j

@[simp] theorem getLsbD_overwrite (reset set v : BitVec w) (j : ℕ) :
    (overwrite reset set v).getLsbD j =
      ((v.getLsbD j && !reset.getLsbD j) || set.getLsbD j) := by
  by_cases hj : j < w
  · simp [overwrite, hj]
  · simp [overwrite, BitVec.getLsbD_of_ge _ _ (Nat.le_of_not_lt hj)]

@[simp] theorem getElem_bit (i j : ℕ) (hj : j < w) :
    (bit i : BitVec w)[j] = decide (i = j) := by
  simp [bit, BitVec.getElem_twoPow, eq_comm]

@[simp] theorem getElem_overwrite (reset set v : BitVec w) (j : ℕ) (hj : j < w) :
    (overwrite reset set v)[j] = ((v[j] && !reset[j]) || set[j]) := by
  simp [overwrite]

/-- The two words have the same bits at the listed positions. -/
def AgreeOn (bits : List ℕ) (v v' : BitVec w) : Prop :=
  ∀ i ∈ bits, v.getLsbD i = v'.getLsbD i

theorem AgreeOn.refl (bits : List ℕ) (v : BitVec w) : AgreeOn bits v v := fun _ _ => rfl

theorem AgreeOn.trans {bits : List ℕ} {v v' v'' : BitVec w} (h : AgreeOn bits v v')
    (h' : AgreeOn bits v' v'') : AgreeOn bits v v'' :=
  fun i hi => (h i hi).trans (h' i hi)

/-- An update leaves every bit that neither of its masks has. -/
theorem agreeOn_overwrite {bits : List ℕ} {reset set v : BitVec w}
    (hr : ∀ i ∈ bits, reset.getLsbD i = false) (hs : ∀ i ∈ bits, set.getLsbD i = false) :
    AgreeOn bits (overwrite reset set v) v := by
  intro i hi
  simp [hr i hi, hs i hi]

end RosCanopen.Lib
