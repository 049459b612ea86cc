import Mathlib.Data.List.Basic
import Mathlib.Logic.Function.Basic

/-!
# The last write to a key

Events may write a value to a key.  `lastWrite` is what a history, newest first, has written to a
key last; a memory mirrors the history when it holds that at every key, and what it held at first
where nothing has been written.

## Main definitions

* `lastWrite` — the last write to a key.
* `Mirrors` — a memory holds the last writes.
-/

namespace RosCanopen.Lib

universe u v w

variable {ε : Type u} {κ : Type v} {ν : Type w} [DecidableEq κ]

/-- The value that was written to the key last. -/
def lastWrite (writes : ε → Option (κ × ν)) : List ε → κ → Option ν
  | [], _ => none
  | e :: h, k =>
      match writes e with
      | none => lastWrite writes h k
      | some (k', v) => if k = k' then some v else lastWrite writes h k

section
variable {writes : ε → Option (κ × ν)} {h es : List ε} {e : ε} {k k' : κ} {v : ν}

theorem lastWrite_cons_silent (he : writes e = none) :
    lastWrite writes (e :: h) = lastWrite writes h := by
  funext k
  rw [lastWrite, he]

theorem lastWrite_cons_self (he : writes e = some (k, v)) :
    lastWrite writes (e :: h) k = some v := by
  rw [lastWrite, he]
  exact if_pos rfl

theorem lastWrite_cons_of_ne (he : writes e = some (k', v)) (hne : k ≠ k') :
    lastWrite writes (e :: h) k = lastWrite writes h k := by
  rw [lastWrite, he]
  exact if_neg hne

theorem lastWrite_append_silent (hes : ∀ e ∈ es, writes e = none) :
    lastWrite writes (es ++ h) = lastWrite writes h := by
  induction es with
  | nil => rfl
  | cons e es ih =>
      rw [List.cons_append, lastWrite_cons_silent (hes e List.mem_cons_self)]
      exact ih fun e' he' => hes e' (List.mem_cons_of_mem _ he')

end

/-- The memory holds what was written last, and what it held at first elsewhere. -/
def Mirrors (writes : ε → Option (κ × ν)) (first : κ → ν) (h : List ε) (m : κ → ν) : Prop :=
  ∀ k, m k = (lastWrite writes h k).getD (first k)

namespace Mirrors
variable {writes : ε → Option (κ × ν)} {first m : κ → ν} {h es : List ε} {e : ε} {k : κ} {v : ν}

theorem nil : Mirrors writes first [] first := fun _ => rfl

theorem silent (hm : Mirrors writes first h m) (hes : ∀ e ∈ es, writes e = none) :
    Mirrors writes first (es ++ h) m := by
  intro k
  rw [lastWrite_append_silent hes]
  exact hm k

/-- A write goes to the memory and to the history. -/
theorem write (hm : Mirrors writes first h m) (he : writes e = some (k, v)) :
    Mirrors writes first (e :: h) (Function.update m k v) := by
  intro k'
  by_cases heq : k' = k
  · subst heq
    rw [Function.update_self, lastWrite_cons_self he]
    rfl
  · rw [Function.update_of_ne heq, lastWrite_cons_of_ne he heq]
    exact hm k'

end Mirrors
end RosCanopen.Lib
