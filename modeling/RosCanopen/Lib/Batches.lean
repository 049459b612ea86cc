import Mathlib.Algebra.Order.Floor.Div

/-!
# Emptying a queue in batches

A loop takes at most `size` elements from a queue each time it is entered, and may fail with any
of them.  A queue of `n` elements to which nothing is added is empty after as many times as `n`
has batches, and one more for each failure.

## Main definitions

* `Emptying` — the account of what is left against how often the loop was entered and failed.
-/

namespace RosCanopen.Lib

/-- Of `n` elements `left` are left, the loop having been entered `entered` times and having
failed `failed` times; `taken` is what it has taken so far while it has not been left. -/
def Emptying (size n entered failed left : ℕ) : Option ℕ → Prop
  | none => left = 0 ∨ left ⌈/⌉ size + entered ≤ n ⌈/⌉ size + failed
  | some taken => left = 0 ∨ (left + taken) ⌈/⌉ size + entered ≤ n ⌈/⌉ size + failed + 1

/-- One batch more. -/
theorem add_ceilDiv_self {size : ℕ} (hsize : 0 < size) (n : ℕ) :
    (n + size) ⌈/⌉ size = n ⌈/⌉ size + 1 := by
  simp only [Nat.ceilDiv_eq_add_pred_div]
  have hsub : n + size + size - 1 = n + size - 1 + size := by omega
  rw [hsub, Nat.add_div_right _ hsize]

theorem ceilDiv_mono {size m n : ℕ} (hmn : m ≤ n) : m ⌈/⌉ size ≤ n ⌈/⌉ size := by
  simp only [Nat.ceilDiv_eq_add_pred_div]
  exact Nat.div_le_div_right (by omega)

namespace Emptying
variable {size n entered failed left taken : ℕ}

theorem start : Emptying size n 0 0 n none := .inr le_rfl

/-- The loop may be anywhere at the start. -/
theorem start_within (hsize : 0 < size) (htaken : taken ≤ size) :
    Emptying size n 0 0 n (some taken) := by
  have hle : (n + taken) ⌈/⌉ size ≤ (n + size) ⌈/⌉ size := ceilDiv_mono (by omega)
  rw [add_ceilDiv_self hsize] at hle
  exact .inr (by omega)

theorem enter (h : Emptying size n entered failed left none) :
    Emptying size n (entered + 1) failed left (some 0) := by
  rcases h with hleft | h
  · exact .inl hleft
  · exact .inr (by simp only [Nat.add_zero]; omega)

theorem take (h : Emptying size n entered failed (left + 1) (some taken)) :
    Emptying size n entered failed left (some (taken + 1)) := by
  rcases h with hleft | h
  · omega
  · have hcomm : left + 1 + taken = left + (taken + 1) := by omega
    rw [hcomm] at h
    exact .inr h

/-- A failure ends the loop. -/
theorem fail (h : Emptying size n entered failed left (some taken)) :
    Emptying size n entered (failed + 1) left none := by
  rcases h with hleft | h
  · exact .inl hleft
  · have hle : left ⌈/⌉ size ≤ (left + taken) ⌈/⌉ size := ceilDiv_mono (by omega)
    exact .inr (by omega)

/-- The loop ends with its batch. -/
theorem full (hsize : 0 < size) (h : Emptying size n entered failed left (some size)) :
    Emptying size n entered failed left none := by
  rcases h with hleft | h
  · exact .inl hleft
  · rw [add_ceilDiv_self hsize] at h
    exact .inr (by omega)

/-- **The queue is empty** when the loop has been entered often enough. -/
theorem empty (hsize : 0 < size) (h : Emptying size n entered failed left none)
    (hentered : n ⌈/⌉ size + failed ≤ entered) : left = 0 := by
  rcases h with hleft | h
  · exact hleft
  · have hzero : left ⌈/⌉ size ≤ 0 := by omega
    have hmul := (ceilDiv_le_iff_le_mul hsize).mp hzero
    omega

end Emptying
end RosCanopen.Lib
