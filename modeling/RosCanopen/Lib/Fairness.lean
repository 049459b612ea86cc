import RosCanopen.Lib.System
import Mathlib.Order.Nat

/-!
# Runs that go on forever, and what comes about in them

`Reach` is about finite runs, which is enough for what must never happen.  What must happen
is a statement about infinite runs, and holds of those only that are fair: inputs of a kind
are taken again and again as long as they can be.  When they can be is part of each
assumption, so that a run in which everything is done may idle.

The rule that carries the proofs is `Run.leadsTo_of_rank`: as long as the goal is not reached
inputs of some kind can be taken, no step goes away from the goal, and each input of the kind
comes closer to it.  The distance is a number that each step may keep; a queue that grows at
its end while its head is served has such a distance, and no bound.

## Main definitions

* `Run` — an infinite guarded run.
* `LeadsTo` — a position of the one kind is followed by one of the other.
* `Run.Fair` — inputs of a kind are taken as long as they can be.
* `Run.leadsTo_of_rank`, `LeadsTo.of_descent` — the two rules for distances.
* `Run.following` — the run of given inputs.
-/

namespace RosCanopen.Lib

universe u v w

/-! ## Leading to -/

/-- Every position of the one kind is followed by one of the other, or is one itself. -/
def LeadsTo (P Q : ℕ → Prop) : Prop := ∀ n, P n → ∃ m, n ≤ m ∧ Q m

namespace LeadsTo

variable {P P' Q R : ℕ → Prop}

theorem of_imp (h : ∀ n, P n → Q n) : LeadsTo P Q := fun n hn => ⟨n, le_rfl, h n hn⟩

theorem trans (h : LeadsTo P Q) (h' : LeadsTo Q R) : LeadsTo P R := by
  intro n hn
  obtain ⟨m, hnm, hm⟩ := h n hn
  obtain ⟨k, hmk, hk⟩ := h' m hm
  exact ⟨k, hnm.trans hmk, hk⟩

theorem or (h : LeadsTo P R) (h' : LeadsTo P' R) : LeadsTo (fun n => P n ∨ P' n) R := by
  intro n hn
  rcases hn with hn | hn
  · exact h n hn
  · exact h' n hn

/-- The goal is reached, or a stage from which it will be. -/
theorem via (h : LeadsTo P fun n => Q n ∨ R n) (h' : LeadsTo Q R) : LeadsTo P R :=
  h.trans (h'.or (of_imp fun _ hn => hn))

/-- **Descent.**  What leads to the goal or to something of the same kind at a smaller
distance leads to the goal. -/
theorem of_descent {P : ℕ → ℕ → Prop}
    (h : ∀ d, LeadsTo (P d) fun n => (∃ e, e < d ∧ P e n) ∨ Q n) (d : ℕ) : LeadsTo (P d) Q := by
  induction d using Nat.strongRecOn with
  | _ d ih =>
      refine (h d).via ?_
      intro n hn
      obtain ⟨e, he, hn⟩ := hn
      exact ih e he n hn

end LeadsTo

/-! ## Infinite runs -/

variable {σ : Type u} {ι : Type v} {ε : Type w}

/-- The events of the first steps, newest first. -/
def historyOf (events : ℕ → List ε) : ℕ → List ε
  | 0 => []
  | n + 1 => events n ++ historyOf events n

/-- A run that goes on forever. -/
structure Run (sys : System σ ι ε) (ok : Guard σ ι ε) where
  state : ℕ → σ
  input : ℕ → ι
  events : ℕ → List ε
  init : sys.init (state 0)
  step : ∀ n, sys.step (state n) (input n) = some (state (n + 1), events n)
  guarded : ∀ n, ok (historyOf events n) (state n) (input n)

/-- What a guard allows a weaker one allows. -/
theorem Reach.mono {sys : System σ ι ε} {ok ok' : Guard σ ι ε}
    (hok : ∀ h s i, ok h s i → ok' h s i) {h : List ε} {s : σ} (hr : Reach sys ok h s) :
    Reach sys ok' h s := by
  induction hr with
  | init hs => exact .init hs
  | step _ hi hs ih => exact .step ih (hok _ _ _ hi) hs

namespace Run

variable {sys : System σ ι ε} {ok : Guard σ ι ε} (r : Run sys ok)

/-- What it comes to can be reached. -/
theorem reach (n : ℕ) : Reach sys ok (historyOf r.events n) (r.state n) := by
  induction n with
  | zero => exact .init r.init
  | succ n ih => exact .step ih (r.guarded n) (r.step n)

/-- Inputs of the kind are taken again and again, as long as `can` holds. -/
def Fair (A : ι → Prop) (can : σ → Prop) : Prop :=
  ∀ n, ∃ m, n ≤ m ∧ (can (r.state m) → A (r.input m))

variable {r} {A : ι → Prop} {can : σ → Prop} {P Q : ℕ → Prop}

/-- As long as the goal is not reached the stage is kept, and nothing goes away from the goal. -/
theorem stays {rank : σ → ℕ}
    (hstep : ∀ n, P n → Q n ∨ Q (n + 1) ∨ (P (n + 1) ∧ rank (r.state (n + 1)) ≤ rank (r.state n)))
    {n : ℕ} (hn : P n) (k : ℕ) :
    (∃ m, n ≤ m ∧ Q m) ∨ (P (n + k) ∧ rank (r.state (n + k)) ≤ rank (r.state n)) := by
  induction k with
  | zero => exact .inr ⟨hn, le_rfl⟩
  | succ k ih =>
      rcases ih with hgoal | ⟨hk, hle⟩
      · exact .inl hgoal
      · rcases hstep (n + k) hk with hgoal | hgoal | ⟨hnext, hnextle⟩
        · exact .inl ⟨n + k, by omega, hgoal⟩
        · exact .inl ⟨n + k + 1, by omega, hgoal⟩
        · exact .inr ⟨hnext, hnextle.trans hle⟩

/-- **The rule of a rank.**  While the goal is not reached inputs of the kind can be taken;
no step raises the rank, and those of the kind lower it. -/
theorem leadsTo_of_rank (hfair : r.Fair A can) (rank : σ → ℕ)
    (hcan : ∀ n, P n → can (r.state n))
    (hstep : ∀ n, P n → Q n ∨ Q (n + 1) ∨
      (P (n + 1) ∧ rank (r.state (n + 1)) ≤ rank (r.state n) ∧
        (A (r.input n) → rank (r.state (n + 1)) < rank (r.state n)))) :
    LeadsTo P Q := by
  have hkeep : ∀ n, P n →
      Q n ∨ Q (n + 1) ∨ (P (n + 1) ∧ rank (r.state (n + 1)) ≤ rank (r.state n)) := by
    intro n hn
    rcases hstep n hn with h | h | ⟨hnext, hle, -⟩
    · exact .inl h
    · exact .inr (.inl h)
    · exact .inr (.inr ⟨hnext, hle⟩)
  have hdescent := LeadsTo.of_descent (Q := Q)
    (P := fun d n => P n ∧ rank (r.state n) = d) ?_
  · intro n hn
    exact hdescent (rank (r.state n)) n ⟨hn, rfl⟩
  · intro d n hn
    obtain ⟨hn, hd⟩ := hn
    obtain ⟨m, hnm, htaken⟩ := hfair n
    obtain ⟨k, rfl⟩ := Nat.exists_eq_add_of_le hnm
    rcases stays hkeep hn k with ⟨m, hm, hgoal⟩ | ⟨hk, hle⟩
    · exact ⟨m, hm, .inr hgoal⟩
    · have hA : A (r.input (n + k)) := htaken (hcan _ hk)
      rcases hstep _ hk with hgoal | hgoal | ⟨hnext, -, hlt⟩
      · exact ⟨n + k, by omega, .inr hgoal⟩
      · exact ⟨n + k + 1, by omega, .inr hgoal⟩
      · have hless := hlt hA
        exact ⟨n + k + 1, by omega, .inl ⟨_, by omega, hnext, rfl⟩⟩

end Run

/-! ## Following given inputs -/

section Follow

variable (sys : System σ ι ε) (input : ℕ → ι) (s : σ)

/-- The state that the first inputs come to; one that is refused is skipped. -/
def System.follow : ℕ → σ
  | 0 => s
  | n + 1 => ((sys.step (System.follow n) (input n)).map Prod.fst).getD (System.follow n)

/-- The events that an input emits there. -/
def System.emitted (n : ℕ) : List ε :=
  ((sys.step (sys.follow input s n) (input n)).map Prod.snd).getD []

end Follow

/-- Inputs that repeat, and come back to where they begin, come to the same states again. -/
theorem System.follow_mod {sys : System σ ι ε} {input : ℕ → ι} {s : σ} {p : ℕ}
    (hinput : ∀ n, input (n + p) = input n) (hp : sys.follow input s p = s) (n : ℕ) :
    sys.follow input s n = sys.follow input s (n % p) := by
  have honce : ∀ n, sys.follow input s (n + p) = sys.follow input s n := by
    intro n
    induction n with
    | zero => rw [Nat.zero_add, hp, System.follow]
    | succ n ih => rw [Nat.add_right_comm, System.follow, System.follow, ih, hinput]
  have hmany : ∀ q n, sys.follow input s (n + p * q) = sys.follow input s n := by
    intro q
    induction q with
    | zero => exact fun n => rfl
    | succ q ih =>
        intro n
        rw [Nat.mul_succ, ← Nat.add_assoc, honce, ih]
  rw [← hmany (n / p) (n % p), Nat.mod_add_div]

/-- Inputs of which none is refused are those of a run. -/
def Run.following {sys : System σ ι ε} {ok : Guard σ ι ε} {input : ℕ → ι} {s : σ}
    (hinit : sys.init s) (hstep : ∀ n, (sys.step (sys.follow input s n) (input n)).isSome)
    (hok : ∀ n, ok (historyOf (sys.emitted input s) n) (sys.follow input s n) (input n)) :
    Run sys ok where
  state := sys.follow input s
  input := input
  events := sys.emitted input s
  init := hinit
  step n := by
    obtain ⟨p, hp⟩ := Option.isSome_iff_exists.mp (hstep n)
    simp [System.follow, System.emitted, hp]
  guarded := hok

end RosCanopen.Lib
