import Mathlib.Logic.Function.Basic
import RosCanopen.Lib.System

/-!
# One-shot requests

A caller sets a flag and waits for a reply; a server takes the flag down, does what was asked
and stores the result as the reply; the caller collects the reply and clears it.  `OneShot`
says how far a request has come, `Server` where a server is that goes through many of them,
and `Tracks` ties a request to the history: the results since it was made, and whether it
still has its right to one.

## Main definitions

* `OneShot`, `Server` — a request, and the server of a family of requests.
* `OneShotEvent`, `resultsSince`, `requested` — what is seen of them.
* `Tracks` — a request against its history, with a rule for each step.
-/

namespace RosCanopen.Lib

universe u v

/-- What is seen of a family of one-shots. -/
inductive OneShotEvent (κ : Type u) (ρ : Type v)
  | asked (k : κ)
  /-- The server has done what was asked. -/
  | ran (k : κ) (r : ρ)
  /-- The caller has got its answer. -/
  | returned (k : κ) (r : ρ)
  deriving DecidableEq

/-- How far a request has come, with its result as soon as there is one. -/
inductive OneShot (ρ : Type v)
  | rest
  | asked
  | taken
  | ran (r : ρ)
  | answered (r : ρ)

/-- Where the server is: what it does next, and for which request. -/
inductive Server (κ : Type u) (ρ : Type v)
  | idle
  | take (k : κ)
  | run (k : κ)
  | store (k : κ) (r : ρ)
  deriving DecidableEq

variable {κ : Type u} {ρ : Type v}

namespace OneShot

/-- The flag is set. -/
def pending : OneShot ρ → Bool
  | asked => true
  | _ => false

/-- The reply is there. -/
def reply : OneShot ρ → Option ρ
  | answered r => some r
  | _ => none

/-- The server is at the request, with the result or still without. -/
def served : OneShot ρ → Option (Option ρ)
  | taken => some none
  | ran r => some (some r)
  | _ => none

/-- The server takes the flag down. -/
def take : OneShot ρ → OneShot ρ
  | asked => taken
  | o => o

/-- The flag is taken down, and nobody does what was asked. -/
def withdraw : OneShot ρ → OneShot ρ
  | asked => rest
  | o => o

/-- The reply is cleared. -/
def clear : OneShot ρ → OneShot ρ
  | answered _ => rest
  | o => o

theorem eq_taken {o : OneShot ρ} (h : o.served = some none) : o = taken := by
  cases o <;> simp_all [served]

theorem eq_ran {o : OneShot ρ} {r : ρ} (h : o.served = some (some r)) : o = ran r := by
  cases o <;> simp_all [served]

theorem eq_asked {o : OneShot ρ} (h : o.pending = true) : o = asked := by
  cases o <;> simp_all [pending]

end OneShot

section
variable [DecidableEq κ]

/-- The server is at the request, with the result or still without. -/
def Server.servedOf (k : κ) : Server κ ρ → Option (Option ρ)
  | idle => none
  | take _ => none
  | run k' => if k' = k then some none else none
  | store k' r => if k' = k then some (some r) else none

@[simp] theorem Server.servedOf_idle {k : κ} : (idle : Server κ ρ).servedOf k = none := rfl

@[simp] theorem Server.servedOf_take {k k' : κ} : (take k' : Server κ ρ).servedOf k = none := rfl

@[simp] theorem Server.servedOf_run_self {k : κ} :
    (run k : Server κ ρ).servedOf k = some none := if_pos rfl

@[simp] theorem Server.servedOf_store_self {k : κ} {r : ρ} :
    (store k r).servedOf k = some (some r) := if_pos rfl

theorem Server.servedOf_run_of_ne {k k' : κ} (h : k ≠ k') :
    (run k' : Server κ ρ).servedOf k = none := if_neg h.symm

theorem Server.servedOf_store_of_ne {k k' : κ} {r : ρ} (h : k ≠ k') :
    (store k' r).servedOf k = none := if_neg h.symm

/-- What a change of one request keeps, it keeps everywhere. -/
theorem OneShot.keeps_update {f : κ → OneShot ρ} {q : OneShot ρ} {k k' : κ}
    (P : OneShot ρ → Prop) (hq : P (f k) → P q) (hk' : P (f k')) :
    P (Function.update f k q k') := by
  by_cases heq : k' = k
  · subst heq
    rw [Function.update_self]
    exact hq hk'
  · rwa [Function.update_of_ne heq]

/-- The event is about the request. -/
def OneShotEvent.isOf (k : κ) : OneShotEvent κ ρ → Bool
  | asked k' => k' = k
  | ran k' _ => k' = k
  | returned k' _ => k' = k

def OneShotEvent.asks (k : κ) : OneShotEvent κ ρ → Bool
  | asked k' => k' = k
  | _ => false

/-- What has been done since the latest request, the latest first. -/
def resultsSince (k : κ) : List (OneShotEvent κ ρ) → List ρ
  | [] => []
  | .asked k' :: h => if k' = k then [] else resultsSince k h
  | .ran k' r :: h => if k' = k then r :: resultsSince k h else resultsSince k h
  | .returned _ _ :: h => resultsSince k h

/-- There is a request for which nothing has been done, and whose caller still waits. -/
def requested (k : κ) : List (OneShotEvent κ ρ) → Bool :=
  since (fun e => !e.isOf k) (fun e => e.asks k)

/-- Whoever got an answer got the result of what was done for it, once. -/
def Answers (h : List (OneShotEvent κ ρ)) : Prop :=
  Historically (fun e before => ∀ k r, e = .returned k r → resultsSince k before = [r]) h

/-- Whatever was done was done for a request, and once. -/
def Requested (h : List (OneShotEvent κ ρ)) : Prop :=
  Historically (fun e before => ∀ k r, e = .ran k r → requested k before = true) h

/-- The request has come as far as the history says. -/
def Tracks (h : List (OneShotEvent κ ρ)) (k : κ) : OneShot ρ → Prop
  | .rest => True
  | .asked => resultsSince k h = [] ∧ requested k h = true
  | .taken => resultsSince k h = [] ∧ requested k h = true
  | .ran r => resultsSince k h = [r]
  | .answered r => resultsSince k h = [r]

/-! ## Rules for the steps -/

section Steps
variable {h : List (OneShotEvent κ ρ)} {k : κ} {o : OneShot ρ} {e : OneShotEvent κ ρ}

@[simp] theorem requested_cons :
    requested k (e :: h) = (e.asks k || (!e.isOf k && requested k h)) := rfl

theorem resultsSince_of_other (he : e.isOf k = false) :
    resultsSince k (e :: h) = resultsSince k h := by
  cases e with
  | asked k' =>
      simp only [OneShotEvent.isOf, decide_eq_false_iff_not] at he
      simp [resultsSince, he]
  | ran k' r =>
      simp only [OneShotEvent.isOf, decide_eq_false_iff_not] at he
      simp [resultsSince, he]
  | returned k' r => rfl

/-- What happens to one request does not touch another. -/
theorem Tracks.other (ht : Tracks h k o) (he : e.isOf k = false) : Tracks (e :: h) k o := by
  have hresults := resultsSince_of_other (h := h) he
  have hasks : requested k (e :: h) = requested k h := by
    cases e <;> simp_all [OneShotEvent.isOf, OneShotEvent.asks]
  cases o with
  | rest => trivial
  | asked => exact ⟨hresults.trans ht.1, hasks.trans ht.2⟩
  | taken => exact ⟨hresults.trans ht.1, hasks.trans ht.2⟩
  | ran r => exact hresults.trans ht
  | answered r => exact hresults.trans ht

/-- What one request comes to changes its own track only. -/
theorem Tracks.update {f : κ → OneShot ρ} (hf : ∀ k, Tracks h k (f k)) (hk : Tracks h k o) :
    ∀ k', Tracks h k' (Function.update f k o k') := by
  rw [Function.forall_update_iff]
  exact ⟨hk, fun k' _ => hf k'⟩

theorem Tracks.update_cons {f : κ → OneShot ρ} (hf : ∀ k, Tracks h k (f k))
    (he : ∀ k', k' ≠ k → e.isOf k' = false) (hk : Tracks (e :: h) k o) :
    ∀ k', Tracks (e :: h) k' (Function.update f k o k') := by
  rw [Function.forall_update_iff]
  exact ⟨hk, fun k' hk' => (hf k').other (he k' hk')⟩

theorem Tracks.ask : Tracks (.asked k :: h) k (.asked : OneShot ρ) := by
  constructor
  · simp [resultsSince]
  · simp [OneShotEvent.asks]

theorem Tracks.take (ht : Tracks h k o) : Tracks h k o.take := by
  cases o <;> exact ht

theorem Tracks.withdraw (ht : Tracks h k o) : Tracks h k o.withdraw := by
  cases o <;> first | exact ht | trivial

theorem Tracks.clear (ht : Tracks h k o) : Tracks h k o.clear := by
  cases o <;> first | exact ht | trivial

theorem Tracks.run {r : ρ} (ht : Tracks h k (.taken : OneShot ρ)) :
    Tracks (.ran k r :: h) k (.ran r) := by
  have hnone := ht.1
  simp [Tracks, resultsSince, hnone]

/-- Doing what a taken request asks for is doing what was requested. -/
theorem Requested.run {r : ρ} (hh : Requested h) (ht : Tracks h k (.taken : OneShot ρ)) :
    Requested (.ran k r :: h) := by
  apply Historically.cons hh
  intro k' r' heq
  obtain ⟨rfl, -⟩ := OneShotEvent.ran.inj heq
  exact ht.2

theorem Answers.run {r : ρ} (hh : Answers h) : Answers (.ran k r :: h) :=
  hh.cons fun _ _ heq => nomatch heq

theorem Answers.ask (hh : Answers h) : Answers (.asked k :: h) :=
  hh.cons fun _ _ heq => nomatch heq

theorem Requested.ask (hh : Requested h) : Requested (.asked k :: h) :=
  hh.cons fun _ _ heq => nomatch heq

/-- Returning the reply is answering. -/
theorem Answers.returned {r : ρ} (hh : Answers h) (ht : Tracks h k (.answered r)) :
    Answers (.returned k r :: h) := by
  apply Historically.cons hh
  intro k' r' heq
  obtain ⟨rfl, rfl⟩ := OneShotEvent.returned.inj heq
  exact ht

theorem Requested.returned {r : ρ} (hh : Requested h) : Requested (.returned k r :: h) :=
  hh.cons fun _ _ heq => nomatch heq

end Steps

end

end RosCanopen.Lib
