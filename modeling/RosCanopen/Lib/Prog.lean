import RosCanopen.Lib.System

/-!
# Programs that ask questions

A `Prog` is a sequential program that asks queries of its environment and goes on with the
answers.  Nothing is known about the answers: `Run` collects all runs, with the history of
what was asked and answered, newest first.  A weakest precondition takes a condition on
each query at the moment it is asked together with a postcondition, so that a trace
property and a result are shown in one pass over the program.  An environment that answers
from a state of its own turns a program into a function.

## Main definitions

* `Prog`, `Prog.Run` — programs, and their runs over all answers.
* `Prog.wp`, `Prog.post_of_run`, `Prog.asked_of_run` — weakest preconditions.
* `Prog.eval`, `Prog.run_eval` — a program against an environment with a state.
-/

namespace RosCanopen.Lib

universe u v w x

/-- A program that asks queries `q`, each answered by some `A q`. -/
inductive Prog (Q : Type u) (A : Q → Type v) (α : Type w)
  | pure (a : α)
  | ask (q : Q) (next : A q → Prog Q A α)

/-- What was asked and answered, newest first. -/
abbrev Asked (Q : Type u) (A : Q → Type v) := List ((q : Q) × A q)

namespace Prog
variable {Q : Type u} {A : Q → Type v} {α β : Type w}

def bind (p : Prog Q A α) (f : α → Prog Q A β) : Prog Q A β :=
  match p with
  | .pure a => f a
  | .ask q next => .ask q fun r => (next r).bind f

instance : Monad (Prog Q A) where
  pure := pure
  bind := bind

@[simp] theorem monad_pure_eq (a : α) : (Pure.pure a : Prog Q A α) = pure a := rfl

@[simp] theorem monad_bind_eq (p : Prog Q A α) (f : α → Prog Q A β) : p >>= f = p.bind f := rfl

/-- `Run p h h' a`: from the history `h` the program may end with `h'` and the result `a`. -/
inductive Run : Prog Q A α → Asked Q A → Asked Q A → α → Prop
  | pure {a : α} {h : Asked Q A} : Run (.pure a) h h a
  | ask {q : Q} {next : A q → Prog Q A α} {h h' : Asked Q A} {a : α} (r : A q)
      (hr : Run (next r) (⟨q, r⟩ :: h) h' a) : Run (.ask q next) h h' a

/-! ## Weakest preconditions -/

/-- Every query meets `ok` when it is asked, and the end meets `post`. -/
def wp (ok : Asked Q A → Q → Prop) (p : Prog Q A α) (post : α → Asked Q A → Prop) :
    Asked Q A → Prop :=
  match p with
  | .pure a => post a
  | .ask q next => fun h => ok h q ∧ ∀ r, (next r).wp ok post (⟨q, r⟩ :: h)

section Rules
variable {ok : Asked Q A → Q → Prop} {post post' : α → Asked Q A → Prop} {h h' : Asked Q A}

theorem wp_pure {a : α} : (pure a : Prog Q A α).wp ok post h ↔ post a h := Iff.rfl

theorem wp_bind {p : Prog Q A α} {f : α → Prog Q A β} {post : β → Asked Q A → Prop} :
    (p.bind f).wp ok post h ↔ p.wp ok (fun a h => (f a).wp ok post h) h := by
  induction p generalizing h with
  | pure a => exact Iff.rfl
  | ask q next ih => exact and_congr_right fun _ => forall_congr' fun r => ih r

theorem wp_mono {p : Prog Q A α} (hpost : ∀ a h, post a h → post' a h) (hp : p.wp ok post h) :
    p.wp ok post' h := by
  induction p generalizing h with
  | pure a => exact hpost a h hp
  | ask q next ih => exact ⟨hp.1, fun r => ih r (hp.2 r)⟩

/-- The history only grows. -/
theorem wp_suffix {p : Prog Q A α} (hp : p.wp ok post h) :
    p.wp ok (fun a h' => h <:+ h' ∧ post a h') h := by
  induction p generalizing h with
  | pure a => exact ⟨List.suffix_refl h, hp⟩
  | ask q next ih =>
      refine ⟨hp.1, fun r => wp_mono (fun a h' ha => ⟨?_, ha.2⟩) (ih r (hp.2 r))⟩
      exact (List.suffix_cons _ h).trans ha.1

/-- **The end of a run meets the postcondition.** -/
theorem post_of_run {p : Prog Q A α} {a : α} (hp : p.wp ok post h) (hr : p.Run h h' a) :
    post a h' := by
  induction hr with
  | pure => exact hp
  | ask r _ ih => exact ih (hp.2 r)

/-- **Every query of a run met its condition when it was asked.** -/
theorem asked_of_run {p : Prog Q A α} {a : α} (hp : p.wp ok post h) (hr : p.Run h h' a)
    (hh : Historically (fun e before => ok before e.1) h) :
    Historically (fun e before => ok before e.1) h' := by
  induction hr with
  | pure => exact hh
  | ask r _ ih => exact ih (hp.2 r) (hh.cons hp.1)

end Rules

/-! ## A loop that ends with the first `false` -/

section AllM
variable {ι : Type x} {ok : Asked Q A → Q → Prop} {post : Bool → Asked Q A → Prop}
  {f : ι → Prog Q A Bool}

theorem allM_cons (i : ι) (is : List ι) :
    (i :: is).allM f = (f i).bind fun b => if b then is.allM f else pure false := by
  show (f i).bind _ = (f i).bind _
  congr 1
  funext b
  cases b <;> rfl

/-- The rule of the loop, with an invariant that may mention what is left to do. -/
theorem wp_allM {I : List ι → Asked Q A → Prop} (hpost : ∀ h, I [] h → post true h)
    (hstep : ∀ i is h, I (i :: is) h →
      (f i).wp ok (fun b h => if b then I is h else post false h) h) :
    ∀ (is : List ι) {h : Asked Q A}, I is h → (is.allM f).wp ok post h := by
  intro is
  induction is with
  | nil => exact fun {h} hI => hpost h hI
  | cons i is ih =>
      intro h hI
      rw [allM_cons, wp_bind]
      refine wp_mono (fun b h hb => ?_) (hstep i is h hI)
      cases b with
      | false => exact hb
      | true => exact ih hb

end AllM

/-! ## Environments with a state -/

section Eval
variable {σ : Type x} (answer : (q : Q) → σ → A q × σ)

/-- Run a program against an environment. -/
def eval : Prog Q A α → σ → α × σ
  | .pure a, s => (a, s)
  | .ask q next, s => eval (next (answer q s).1) (answer q s).2

@[simp] theorem eval_pure (a : α) (s : σ) : (pure a : Prog Q A α).eval answer s = (a, s) := rfl

@[simp] theorem eval_ask (q : Q) (next : A q → Prog Q A α) (s : σ) :
    (ask q next).eval answer s = (next (answer q s).1).eval answer (answer q s).2 := rfl

@[simp] theorem eval_bind (p : Prog Q A α) (f : α → Prog Q A β) (s : σ) :
    (p.bind f).eval answer s = (f (p.eval answer s).1).eval answer (p.eval answer s).2 := by
  induction p generalizing s with
  | pure a => rfl
  | ask q next ih => exact ih _ _

/-- The loop against an environment in which no round returns `false`, with an invariant that
may mention what is left to do. -/
theorem eval_allM {ι : Type u} {f : ι → Prog Q A Bool} {g : σ → ι → σ} {I : List ι → σ → Prop}
    (hstep : ∀ i is s, I (i :: is) s → (f i).eval answer s = (true, g s i) ∧ I is (g s i)) :
    ∀ (is : List ι) {s : σ}, I is s → (is.allM f).eval answer s = (true, is.foldl g s) := by
  intro is
  induction is with
  | nil => exact fun {s} _ => rfl
  | cons i is ih =>
      intro s hI
      obtain ⟨heval, hI'⟩ := hstep i is s hI
      rw [allM_cons, eval_bind, heval]
      exact ih hI'

/-- What an environment makes of a program is one of its runs. -/
theorem run_eval (p : Prog Q A α) (s : σ) (h : Asked Q A) :
    ∃ h', p.Run h h' (p.eval answer s).1 := by
  induction p generalizing s h with
  | pure a => exact ⟨h, .pure⟩
  | ask q next ih =>
      obtain ⟨h', hr⟩ := ih (answer q s).1 (answer q s).2 (⟨q, (answer q s).1⟩ :: h)
      exact ⟨h', .ask _ hr⟩

end Eval
end Prog
end RosCanopen.Lib
