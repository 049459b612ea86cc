import Mathlib.Data.List.Chain

/-!
# Reading a value that others overwrite

One side writes a variable, the other reads it now and then.  What is read is in the order of
what was written; a value may be missed, and may be read many times.  Whoever passes on only
the values that differ from the last passes on a subsequence.  Histories are newest first.

## Main definitions

* `Sampled` — the values read, of those written.
* `Sampled.trans` — what is read of what was read.
* `Sampled.sublist` — without repetitions nothing is read twice.
-/

namespace RosCanopen.Lib

universe u

/-- The values that were read, of those that were written. -/
inductive Sampled {α : Type u} : List α → List α → Prop
  | nil : Sampled [] []
  | write {read written : List α} (a : α) (h : Sampled read written) :
      Sampled read (a :: written)
  | read {read written : List α} {a : α} (h : Sampled read (a :: written)) :
      Sampled (a :: read) (a :: written)

namespace Sampled

variable {α : Type u} {read written : List α} {a : α}

theorem nil_left : ∀ written : List α, Sampled [] written := by
  intro written
  induction written with
  | nil => exact .nil
  | cons a written ih => exact .write a ih

/-- Nothing is missed and nothing read twice. -/
theorem of_sublist (h : read.Sublist written) : Sampled read written := by
  induction h with
  | slnil => exact .nil
  | cons a _ ih => exact .write a ih
  | cons_cons a _ ih => exact .read (.write a ih)

theorem refl (written : List α) : Sampled written written := .of_sublist (.refl written)

/-- What is read later is not older. -/
theorem trans {again : List α} (h' : Sampled again read) (h : Sampled read written) :
    Sampled again written := by
  induction h generalizing again with
  | nil => exact h'
  | write a _ ih => exact .write a (ih h')
  | @read read written a hread ih =>
      -- what is read once more is the newest value of either
      have hnewest : ∀ {again xs : List α}, Sampled again xs → xs = a :: read →
          Sampled again (a :: written) := by
        intro again xs hxs
        induction hxs with
        | nil =>
            intro hnil
            contradiction
        | write b hrest _ =>
            intro heq
            obtain ⟨rfl, rfl⟩ := List.cons.inj heq
            exact ih hrest
        | read _ ih' =>
            intro heq
            obtain ⟨rfl, rfl⟩ := List.cons.inj heq
            exact .read (ih' rfl)
      exact hnewest h' rfl

/-- A reader that drops what it has read reads less. -/
theorem of_sublist_left {fewer : List α} (hfewer : fewer.Sublist read)
    (h : Sampled read written) : Sampled fewer written := (of_sublist hfewer).trans h

/-- What is read is the value written last. -/
theorem read_head (h : Sampled read written) (ha : written.head? = some a) :
    Sampled (a :: read) written := by
  obtain ⟨older, rfl⟩ := List.head?_eq_some_iff.mp ha
  exact .read h

/-- **Without repetitions nothing is read twice.** -/
theorem sublist (h : Sampled read written) (hne : read.IsChain (· ≠ ·)) :
    read.Sublist written := by
  induction h with
  | nil => exact .refl []
  | write a _ ih => exact (ih hne).cons a
  | @read read written a h ih =>
      cases read with
      | nil => exact (List.nil_sublist written).cons_cons a
      | cons b read =>
          obtain ⟨hab, hne⟩ := List.isChain_cons_cons.mp hne
          have hrest := ih hne
          -- the value before is another, so it is one of the older
          cases hrest with
          | cons _ hrest => exact hrest.cons_cons a
          | cons_cons _ _ => exact absurd rfl hab

end Sampled

end RosCanopen.Lib
