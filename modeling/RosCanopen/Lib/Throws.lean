import RosCanopen.Lib.System

/-!
# Functions that throw and keep what they have changed

A function of a class changes the members one after the other and may be left by an exception
anywhere in between; what it has changed by then stays changed.  `EStateM` is such a function.
Its specification has one postcondition for the return and one for the exception.

An object whose functions are called in any order is a system, and an invariant of the object
is one that every function keeps in both of its ends.

## Main definitions

* `ensure`, `attempt`, `onlyIf` — a check at the head of a function, a call that may throw, and
  one that depends on the state.
* `Ends` — both ends of a function meet their postconditions.
* `System.ofCalls`, `Reach.of_ends` — an object under any sequence of calls.
-/

namespace RosCanopen.Lib

universe u v

variable {ε σ α β : Type u}

/-- Throw unless the state passes the check. -/
def ensure (check : σ → Bool) (e : ε) : EStateM ε σ PUnit := do
  if check (← get) then pure ⟨⟩ else throw e

/-- A call of something else, which may throw. -/
def attempt (thrown : Option ε) : EStateM ε σ PUnit :=
  match thrown with
  | none => pure ⟨⟩
  | some e => throw e

/-- `if (check) x();` -/
def onlyIf (check : σ → Bool) (x : EStateM ε σ PUnit) : EStateM ε σ PUnit := do
  if check (← get) then x else pure ⟨⟩

/-- The function returns with `post` or throws with `fail`. -/
def Ends (x : EStateM ε σ α) (post : α → σ → Prop) (fail : ε → σ → Prop) (s : σ) : Prop :=
  match x.run s with
  | .ok a s' => post a s'
  | .error e s' => fail e s'

section Rules
variable {post post' : α → σ → Prop} {fail fail' : ε → σ → Prop} {s s' : σ}

theorem ends_bind (x : EStateM ε σ α) (f : α → EStateM ε σ β) {post : β → σ → Prop} :
    Ends (x >>= f) post fail s ↔ Ends x (fun a => Ends (f a) post fail) fail s := by
  rw [Ends, Ends, EStateM.run_bind]
  cases x.run s <;> exact Iff.rfl

theorem ends_modify {post : PUnit → σ → Prop} (f : σ → σ) :
    Ends (modify f : EStateM ε σ PUnit) post fail s ↔ post ⟨⟩ (f s) := Iff.rfl

theorem ends_modify_bind (g : σ → σ) (f : PUnit → EStateM ε σ α) :
    Ends (modify g >>= f) post fail s ↔ Ends (f ⟨⟩) post fail (g s) := Iff.rfl

theorem run_ensure (check : σ → Bool) (e : ε) :
    (ensure check e).run s = if check s then .ok ⟨⟩ s else .error e s := by
  simp only [ensure, EStateM.run_bind, EStateM.run_get]
  split <;> rfl

theorem ends_ensure_bind (check : σ → Bool) (e : ε) (f : PUnit → EStateM ε σ α) :
    Ends (ensure check e >>= f) post fail s ↔
      (check s = true → Ends (f ⟨⟩) post fail s) ∧ (check s = false → fail e s) := by
  rw [Ends, EStateM.run_bind, run_ensure]
  cases hcheck : check s
  · exact ⟨fun h => ⟨fun hf => (Bool.false_ne_true hf).elim, fun _ => h⟩, fun h => h.2 rfl⟩
  · exact ⟨fun h => ⟨fun _ => h, fun hf => (Bool.false_ne_true hf.symm).elim⟩, fun h => h.1 rfl⟩

theorem ends_attempt {post : PUnit → σ → Prop} (thrown : Option ε) :
    Ends (attempt thrown) post fail s ↔
      (thrown = none → post ⟨⟩ s) ∧ ∀ e, thrown = some e → fail e s := by
  cases thrown with
  | none =>
      refine ⟨fun h => ⟨fun _ => h, ?_⟩, fun h => h.1 rfl⟩
      intro e he
      cases he
  | some e =>
      refine ⟨fun h => ⟨?_, ?_⟩, fun h => h.2 e rfl⟩
      · intro he
        cases he
      · intro e' he
        cases he
        exact h

theorem ends_attempt_bind (thrown : Option ε) (f : PUnit → EStateM ε σ α) :
    Ends (attempt thrown >>= f) post fail s ↔
      (thrown = none → Ends (f ⟨⟩) post fail s) ∧ ∀ e, thrown = some e → fail e s := by
  rw [ends_bind, ends_attempt]

theorem ends_onlyIf_bind (check : σ → Bool) (x : EStateM ε σ PUnit) (f : PUnit → EStateM ε σ α) :
    Ends (onlyIf check x >>= f) post fail s ↔
      (check s = true → Ends (x >>= f) post fail s) ∧
        (check s = false → Ends (f ⟨⟩) post fail s) := by
  have honly : (onlyIf check x).run s = if check s then x.run s else .ok ⟨⟩ s := by
    simp only [onlyIf, EStateM.run_bind, EStateM.run_get]
    split <;> rfl
  rw [ends_bind, ends_bind, Ends, honly]
  cases hcheck : check s
  · exact ⟨fun h => ⟨fun hf => (Bool.false_ne_true hf).elim, fun _ => h⟩, fun h => h.2 rfl⟩
  · exact ⟨fun h => ⟨fun _ => h, fun hf => (Bool.false_ne_true hf.symm).elim⟩, fun h => h.1 rfl⟩

theorem ends_mono {x : EStateM ε σ α} (hpost : ∀ a s, post a s → post' a s)
    (hfail : ∀ e s, fail e s → fail' e s) (h : Ends x post fail s) : Ends x post' fail' s := by
  revert h
  unfold Ends
  cases x.run s with
  | ok a s' => exact hpost a s'
  | error e s' => exact hfail e s'

theorem Ends.ok {x : EStateM ε σ α} {a : α} (h : Ends x post fail s)
    (hrun : x.run s = .ok a s') : post a s' := by
  rwa [Ends, hrun] at h

theorem Ends.error {x : EStateM ε σ α} {e : ε} (h : Ends x post fail s)
    (hrun : x.run s = .error e s') : fail e s' := by
  rwa [Ends, hrun] at h

end Rules

/-! ## Objects under calls -/

/-- How a call has ended. -/
inductive CallEnd (ι : Type v) (ε : Type u)
  | returned (call : ι)
  | threw (call : ι) (e : ε)

section Calls
variable {ι : Type v} {init : σ → Prop} {exec : ι → EStateM ε σ PUnit}

/-- An object whose functions are called in any order. -/
def System.ofCalls (init : σ → Prop) (exec : ι → EStateM ε σ PUnit) :
    System σ ι (CallEnd ι ε) where
  init := init
  step s i :=
    match (exec i).run s with
    | .ok _ s' => some (s', [.returned i])
    | .error e s' => some (s', [.threw i e])

/-- **Induction along the calls of an object.**  An invariant is what every call keeps, whether
it returns or throws. -/
theorem Reach.of_ends {ok : Guard σ ι (CallEnd ι ε)} {I : List (CallEnd ι ε) → σ → Prop}
    (h0 : ∀ s, init s → I [] s)
    (hcall : ∀ h s i, I h s → ok h s i → Ends (exec i) (fun _ s' => I (.returned i :: h) s')
      (fun e s' => I (.threw i e :: h) s') s)
    {h : List (CallEnd ι ε)} {s : σ} (hr : Reach (System.ofCalls init exec) ok h s) : I h s := by
  refine hr.invariant h0 ?_
  intro h s i s' es hI hok hstep
  have hends := hcall h s i hI hok
  simp only [System.ofCalls] at hstep
  cases hrun : (exec i).run s with
  | ok a s₁ =>
      rw [hrun] at hstep
      obtain ⟨rfl, rfl⟩ := Prod.mk.inj (Option.some.inj hstep)
      exact hends.ok hrun
  | error e s₁ =>
      rw [hrun] at hstep
      obtain ⟨rfl, rfl⟩ := Prod.mk.inj (Option.some.inj hstep)
      exact hends.error hrun

end Calls
end RosCanopen.Lib
