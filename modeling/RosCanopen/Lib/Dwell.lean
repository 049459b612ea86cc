import Mathlib.Data.List.Basic

/-!
# A sequencer that dwells

A list of letters, each held for the same number of ticks.  `Dwell.tick` holds the
first letter and counts; `Dwell.toCome` is everything still to be held, so one tick
takes exactly its first element away.

## Main definitions

* `Dwell`, `Dwell.tick` — the counter machine.
* `Dwell.script`, `Dwell.toCome` — the whole sequence, and what is left of it.
-/

namespace RosCanopen.Lib

/-- The letters left, the first of them held for `ticks` ticks so far. -/
structure Dwell (α : Type*) where
  todo : List α
  ticks : ℕ

namespace Dwell
variable {α : Type*} {d : ℕ}

/-- Hold the first letter once more; `none` when nothing is left. -/
def tick (d : ℕ) (m : Dwell α) : Option (α × Dwell α) :=
  match m.todo with
  | [] => none
  | x :: xs => some (x, if m.ticks + 1 < d then ⟨x :: xs, m.ticks + 1⟩ else ⟨xs, 0⟩)

/-- Every letter, as often as it is held. -/
def script (d : ℕ) (xs : List α) : List α := xs.flatMap (List.replicate d)

/-- What is still to be held. -/
def toCome (d : ℕ) (m : Dwell α) : List α := (script d m.todo).drop m.ticks

@[simp] theorem script_nil : script d ([] : List α) = [] := rfl

@[simp] theorem script_cons (x : α) (xs : List α) :
    script d (x :: xs) = List.replicate d x ++ script d xs := rfl

@[simp] theorem toCome_zero (xs : List α) : toCome d ⟨xs, 0⟩ = script d xs := rfl

@[simp] theorem toCome_nil (t : ℕ) : toCome d (⟨[], t⟩ : Dwell α) = [] := by simp [toCome]

/-- **A tick holds the next letter of what is to come**, and keeps the count in range. -/
theorem toCome_tick {m m' : Dwell α} {x : α} (hticks : m.ticks < d)
    (h : m.tick d = some (x, m')) : m.toCome d = x :: m'.toCome d ∧ m'.ticks < d := by
  obtain ⟨todo, t⟩ := m
  replace hticks : t < d := hticks
  cases todo with
  | nil => simp [tick] at h
  | cons y ys =>
      have hsplit : List.replicate (d - t) y = y :: List.replicate (d - (t + 1)) y := by
        rw [← List.replicate_succ]
        congr 1
        omega
      have hdrop : ∀ k, k ≤ d → toCome d ⟨y :: ys, k⟩ =
          List.replicate (d - k) y ++ script d ys := fun k hk => by
        simp [toCome, List.drop_append, Nat.sub_eq_zero_of_le hk]
      simp only [tick, Option.some.injEq, Prod.mk.injEq] at h
      obtain ⟨rfl, rfl⟩ := h
      rw [hdrop t (Nat.le_of_lt hticks), hsplit]
      split
      · next hlt => exact ⟨by rw [hdrop _ (Nat.le_of_lt hlt)]; rfl, hlt⟩
      · next hge =>
          have hlast : d - (t + 1) = 0 := by omega
          exact ⟨by simp [hlast], Nat.lt_of_le_of_lt (Nat.zero_le t) hticks⟩

end Dwell
end RosCanopen.Lib
