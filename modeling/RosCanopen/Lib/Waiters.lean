import Mathlib.Data.List.Basic

/-!
# Threads at a condition variable

A thread that waits leaves the wait in one of two ways: a notification has released it, or
it woke by itself.  Either way it still has to take the mutex, and another thread may do so
before.  Which waiter a notification reaches is up to the environment.

## Main definitions

* `Waiters` — the threads at a condition variable, by how far they are.
* `Waiters.Awake` — nobody sleeps unless a notification is on its way.
-/

namespace RosCanopen.Lib

universe u

structure Waiters (κ : Type u) where
  waiting : List κ
  /-- Released by a notification, and without the mutex. -/
  notified : List κ
  /-- Woken by themselves, and without the mutex. -/
  woken : List κ

namespace Waiters

variable {κ : Type u}

def empty : Waiters κ := ⟨[], [], []⟩

/-- A thread starts to wait. -/
def wait (w : Waiters κ) (c : κ) : Waiters κ := { w with waiting := w.waiting ++ [c] }

/-- `notify_one`, for a waiter of the environment's choice, if there is one. -/
def notifyOne (w : Waiters κ) (pick : ℕ) : Waiters κ :=
  match w.waiting[pick % w.waiting.length]? with
  | none => w
  | some c =>
      { w with
        waiting := w.waiting.eraseIdx (pick % w.waiting.length)
        notified := c :: w.notified }

/-- A waiter wakes by itself. -/
def wake (w : Waiters κ) (k : ℕ) : Option (Waiters κ) :=
  (w.waiting[k]?).map fun c => { w with waiting := w.waiting.eraseIdx k, woken := c :: w.woken }

/-- A thread takes the mutex after its wait. -/
def resume (w : Waiters κ) (spurious : Bool) (k : ℕ) : Option (κ × Waiters κ) :=
  if spurious then (w.woken[k]?).map fun c => (c, { w with woken := w.woken.eraseIdx k })
  else (w.notified[k]?).map fun c => (c, { w with notified := w.notified.eraseIdx k })

/-- Nobody sleeps unless a notification is on its way. -/
def Awake (w : Waiters κ) : Prop := w.waiting ≠ [] → w.notified ≠ []

instance [DecidableEq κ] (w : Waiters κ) : Decidable w.Awake :=
  inferInstanceAs (Decidable (_ → _))

theorem awake_empty : (empty : Waiters κ).Awake := fun h => absurd rfl h

/-- After a notification nobody sleeps. -/
theorem awake_notifyOne (w : Waiters κ) (pick : ℕ) : (w.notifyOne pick).Awake := by
  intro h
  unfold notifyOne at h ⊢
  split at h
  · next hpick =>
      have hlen : w.waiting.length ≤ pick % w.waiting.length := List.getElem?_eq_none_iff.mp hpick
      have hpos : 0 < w.waiting.length := List.length_pos_of_ne_nil h
      exact absurd (Nat.mod_lt pick hpos) (Nat.not_lt.mpr hlen)
  · exact List.cons_ne_nil _ _

theorem Awake.wake {w w' : Waiters κ} {k : ℕ} (hw : w.Awake) (h : w.wake k = some w') :
    w'.Awake := by
  obtain ⟨c, hk, rfl⟩ := Option.map_eq_some_iff.mp h
  intro _
  exact hw fun hnil => by simp [hnil] at hk

end Waiters
end RosCanopen.Lib
