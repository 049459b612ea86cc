import Mathlib.Data.Nat.Notation
import Mathlib.Logic.Function.Basic

/-!
# Threads behind owning handles

A handle is empty or owns a thread, which can be joined once.  To use an empty handle, to join a
thread again and to give up a thread that is still joinable are faults, and a fault ends what
is done.  Whatever is done without a fault, no thread is lost: each thread that was started has been
joined exactly once, or waits behind a handle.

## Main definitions

* `Fault`, `Thread`, `Pool` — the threads behind a family of handles.
* `Pool.start`, `Pool.isJoinable`, `Pool.join`, `Pool.reset` — what is done with a handle.
* `Pool.Accounted` — where every thread is.
-/

namespace RosCanopen.Lib

universe u

/-- What ends a program. -/
inductive Fault
  /-- Something absent is used. -/
  | null
  /-- A thread is joined that cannot be joined any more. -/
  | notJoinable
  /-- A thread is given up while it is joinable, or ends with an exception. -/
  | terminated
  deriving DecidableEq

structure Thread where
  id : ℕ
  joinable : Bool
  deriving DecidableEq

/-- The threads behind the handles `κ`, the number of threads that were started, and how often
each has been joined. -/
structure Pool (κ : Type u) where
  handle : κ → Option Thread
  started : ℕ
  joins : ℕ → ℕ

namespace Pool
variable {κ : Type u}

def empty : Pool κ := ⟨fun _ => none, 0, fun _ => 0⟩

/-- The handle owns a thread that has not been joined. -/
def waits (p : Pool κ) (k : κ) : Bool := (p.handle k).any Thread.joinable

/-- Every thread that was started has been joined once, or waits behind one handle. -/
structure Accounted (p : Pool κ) : Prop where
  started : ∀ k t, p.handle k = some t → t.id < p.started
  distinct : ∀ k k' t t', p.handle k = some t → p.handle k' = some t' → t.id = t'.id → k = k'
  waiting : ∀ k t, p.handle k = some t → t.joinable = true → p.joins t.id = 0
  joined : ∀ i < p.started, p.joins i = 1 ∨ ∃ k, p.handle k = some ⟨i, true⟩
  ahead : ∀ i, p.started ≤ i → p.joins i = 0

section
variable {p : Pool κ} {k : κ}

/-- A handle that does not wait does not own a thread that waits. -/
theorem ne_of_waits (h : p.waits k = false) (i : ℕ) : p.handle k ≠ some ⟨i, true⟩ := by
  intro heq
  simp [waits, heq] at h

theorem Accounted.empty : Accounted (empty : Pool κ) where
  started _ _ h := nomatch h
  distinct _ _ _ _ h := nomatch h
  waiting _ _ h := nomatch h
  joined i h := absurd h (Nat.not_lt_zero i)
  ahead _ _ := rfl

/-- No thread is joined twice. -/
theorem Accounted.joins_le_one (hp : Accounted p) (i : ℕ) : p.joins i ≤ 1 := by
  by_cases hi : i < p.started
  · rcases hp.joined i hi with hjoined | ⟨k, heq⟩
    · omega
    · have hzero := hp.waiting k _ heq rfl
      simp only at hzero
      omega
  · have hzero := hp.ahead i (by omega)
    omega

/-- **When no handle waits, each thread that was started has been joined exactly once.** -/
theorem Accounted.joins_eq_one (hp : Accounted p) (hwaits : ∀ k, p.waits k = false) {i : ℕ}
    (hi : i < p.started) : p.joins i = 1 := by
  rcases hp.joined i hi with hjoined | ⟨k, heq⟩
  · exact hjoined
  · exact absurd heq (ne_of_waits (hwaits k) i)

end

/-! ## What is done with a handle -/

section
variable [DecidableEq κ]

/-- Give up what the handle owns. -/
def reset (k : κ) (p : Pool κ) : Except Fault (Pool κ) :=
  if p.waits k then .error .terminated
  else .ok { p with handle := Function.update p.handle k none }

/-- Start a thread; the handle gives up what it has owned. -/
def start (k : κ) (p : Pool κ) : Except Fault (Pool κ) :=
  if p.waits k then .error .terminated
  else .ok { p with
    handle := Function.update p.handle k (some ⟨p.started, true⟩)
    started := p.started + 1 }

def isJoinable (k : κ) (p : Pool κ) : Except Fault Bool :=
  match p.handle k with
  | none => .error .null
  | some t => .ok t.joinable

def join (k : κ) (p : Pool κ) : Except Fault (Pool κ) :=
  match p.handle k with
  | none => .error .null
  | some t =>
      if t.joinable then
        .ok { p with
          handle := Function.update p.handle k (some ⟨t.id, false⟩)
          joins := Function.update p.joins t.id (p.joins t.id + 1) }
      else .error .notJoinable

variable {p p' : Pool κ} {k : κ}

theorem reset_of_waits (h : p.waits k = false) :
    p.reset k = .ok { p with handle := Function.update p.handle k none } := by
  simp [reset, h]

theorem start_of_waits (h : p.waits k = false) :
    p.start k = .ok { p with
      handle := Function.update p.handle k (some ⟨p.started, true⟩)
      started := p.started + 1 } := by
  simp [start, h]

theorem join_of_handle {i : ℕ} (h : p.handle k = some ⟨i, true⟩) :
    p.join k = .ok { p with
      handle := Function.update p.handle k (some ⟨i, false⟩)
      joins := Function.update p.joins i (p.joins i + 1) } := by
  simp [join, h]

theorem reset_cases (h : p.reset k = .ok p') :
    p.waits k = false ∧ p' = { p with handle := Function.update p.handle k none } := by
  unfold reset at h
  split at h
  · cases h
  · next hwaits => exact ⟨Bool.eq_false_iff.mpr hwaits, (Except.ok.inj h).symm⟩

theorem start_cases (h : p.start k = .ok p') :
    p.waits k = false ∧ p' = { p with
      handle := Function.update p.handle k (some ⟨p.started, true⟩)
      started := p.started + 1 } := by
  unfold start at h
  split at h
  · cases h
  · next hwaits => exact ⟨Bool.eq_false_iff.mpr hwaits, (Except.ok.inj h).symm⟩

theorem join_cases (h : p.join k = .ok p') :
    ∃ i, p.handle k = some ⟨i, true⟩ ∧ p' = { p with
      handle := Function.update p.handle k (some ⟨i, false⟩)
      joins := Function.update p.joins i (p.joins i + 1) } := by
  unfold join at h
  split at h
  · cases h
  · next t ht =>
      obtain ⟨i, joinable⟩ := t
      cases joinable with
      | false => cases h
      | true => exact ⟨i, ht, (Except.ok.inj h).symm⟩

/-- A handle that waits can be joined. -/
theorem exists_join (hwaits : p.waits k = true) : ∃ p', p.join k = .ok p' := by
  cases hk : p.handle k with
  | none => simp [waits, hk] at hwaits
  | some t =>
      obtain ⟨i, joinable⟩ := t
      simp only [waits, hk, Option.any_some] at hwaits
      subst hwaits
      exact ⟨_, join_of_handle hk⟩

/-- Behind a join the handle does not wait any more, and the others do as before. -/
theorem waits_join (h : p.join k = .ok p') (k' : κ) :
    p'.waits k' = true ↔ k' ≠ k ∧ p.waits k' = true := by
  obtain ⟨i, -, rfl⟩ := join_cases h
  by_cases hk : k' = k
  · subst hk
    simp [waits]
  · simp [waits, hk]

/-- Behind a start the handle waits, and the others do as before. -/
theorem waits_start (h : p.start k = .ok p') (k' : κ) :
    p'.waits k' = true ↔ k' = k ∨ p.waits k' = true := by
  obtain ⟨-, rfl⟩ := start_cases h
  by_cases hk : k' = k
  · subst hk
    simp [waits]
  · simp [waits, hk]

/-- What is behind a handle after one of them has changed. -/
theorem handle_update {f : κ → Option Thread} {x : Option Thread} {k' : κ} {t : Thread}
    (h : Function.update f k x k' = some t) : (k' = k ∧ x = some t) ∨ (k' ≠ k ∧ f k' = some t) := by
  by_cases hk : k' = k
  · subst hk
    rw [Function.update_self] at h
    exact .inl ⟨rfl, h⟩
  · rw [Function.update_of_ne hk] at h
    exact .inr ⟨hk, h⟩

/-- Where a handle changes that does not wait, each thread waits on behind its handle. -/
theorem waits_elsewhere (hwaits : p.waits k = false) (x : Option Thread) {i : ℕ}
    (h : ∃ k', p.handle k' = some ⟨i, true⟩) :
    ∃ k', Function.update p.handle k x k' = some ⟨i, true⟩ := by
  obtain ⟨k', heq⟩ := h
  have hk : k' ≠ k := by
    rintro rfl
    exact ne_of_waits hwaits i heq
  exact ⟨k', by rw [Function.update_of_ne hk, heq]⟩

theorem Accounted.reset (hp : Accounted p) (h : p.reset k = .ok p') : Accounted p' := by
  obtain ⟨hwaits, rfl⟩ := reset_cases h
  have hold : ∀ k' t, Function.update p.handle k none k' = some t → p.handle k' = some t := by
    intro k' t heq
    rcases handle_update heq with ⟨-, hnone⟩ | ⟨-, hsome⟩
    · cases hnone
    · exact hsome
  constructor
  · intro k' t heq
    exact hp.started k' t (hold k' t heq)
  · intro k₁ k₂ t₁ t₂ h₁ h₂ hid
    exact hp.distinct k₁ k₂ t₁ t₂ (hold k₁ t₁ h₁) (hold k₂ t₂ h₂) hid
  · intro k' t heq hjoinable
    exact hp.waiting k' t (hold k' t heq) hjoinable
  · intro i hi
    exact (hp.joined i hi).imp_right (waits_elsewhere hwaits none)
  · exact hp.ahead

theorem Accounted.start (hp : Accounted p) (h : p.start k = .ok p') : Accounted p' := by
  obtain ⟨hwaits, rfl⟩ := start_cases h
  have hold : ∀ k' t, Function.update p.handle k (some ⟨p.started, true⟩) k' = some t →
      (k' = k ∧ t = ⟨p.started, true⟩) ∨ p.handle k' = some t := by
    intro k' t heq
    rcases handle_update heq with ⟨hk, hnew⟩ | ⟨-, hsome⟩
    · exact .inl ⟨hk, (Option.some.inj hnew).symm⟩
    · exact .inr hsome
  constructor
  · intro k' t heq
    show t.id < p.started + 1
    rcases hold k' t heq with ⟨-, rfl⟩ | heq
    · exact Nat.lt_succ_self _
    · exact Nat.lt_succ_of_lt (hp.started k' t heq)
  · intro k₁ k₂ t₁ t₂ h₁ h₂ hid
    rcases hold k₁ t₁ h₁ with ⟨rfl, rfl⟩ | hold₁ <;>
      rcases hold k₂ t₂ h₂ with ⟨rfl, rfl⟩ | hold₂
    · rfl
    · have hlt := hp.started k₂ t₂ hold₂
      exact absurd hid (by simp only; omega)
    · have hlt := hp.started k₁ t₁ hold₁
      exact absurd hid (by simp only; omega)
    · exact hp.distinct k₁ k₂ t₁ t₂ hold₁ hold₂ hid
  · intro k' t heq hjoinable
    rcases hold k' t heq with ⟨-, rfl⟩ | heq
    · exact hp.ahead _ (Nat.le_refl _)
    · exact hp.waiting k' t heq hjoinable
  · intro i hi
    by_cases hnew : i = p.started
    · subst hnew
      exact .inr ⟨k, Function.update_self ..⟩
    · have hlt : i < p.started := by
        have hle : i < p.started + 1 := hi
        omega
      exact (hp.joined i hlt).imp_right (waits_elsewhere hwaits _)
  · intro i hi
    have hle : p.started + 1 ≤ i := hi
    exact hp.ahead i (by omega)

theorem Accounted.join (hp : Accounted p) (h : p.join k = .ok p') : Accounted p' := by
  obtain ⟨i, hi, rfl⟩ := join_cases h
  have hold : ∀ k' t, Function.update p.handle k (some ⟨i, false⟩) k' = some t →
      (k' = k ∧ t = ⟨i, false⟩) ∨ (k' ≠ k ∧ p.handle k' = some t) := by
    intro k' t heq
    apply (handle_update heq).imp_left
    rintro ⟨hk, hnew⟩
    exact ⟨hk, (Option.some.inj hnew).symm⟩
  have hlt : i < p.started := hp.started k _ hi
  constructor
  · intro k' t heq
    rcases hold k' t heq with ⟨-, rfl⟩ | ⟨-, heq⟩
    · exact hlt
    · exact hp.started k' t heq
  · intro k₁ k₂ t₁ t₂ h₁ h₂ hid
    rcases hold k₁ t₁ h₁ with ⟨rfl, rfl⟩ | ⟨-, hold₁⟩ <;>
      rcases hold k₂ t₂ h₂ with ⟨rfl, rfl⟩ | ⟨-, hold₂⟩
    · rfl
    · exact hp.distinct _ _ _ _ hi hold₂ hid
    · exact hp.distinct _ _ _ _ hold₁ hi hid
    · exact hp.distinct _ _ _ _ hold₁ hold₂ hid
  · intro k' t heq hjoinable
    rcases hold k' t heq with ⟨-, rfl⟩ | ⟨hk, heq⟩
    · cases hjoinable
    · have hne : t.id ≠ i := fun hid => hk (hp.distinct _ _ _ _ heq hi hid)
      show Function.update p.joins i _ t.id = 0
      rw [Function.update_of_ne hne]
      exact hp.waiting k' t heq hjoinable
  · intro i' hi'
    by_cases hne : i' = i
    · subst hne
      refine .inl ?_
      show Function.update p.joins i' _ i' = 1
      rw [Function.update_self, hp.waiting k _ hi rfl]
    · rcases hp.joined i' hi' with hjoined | ⟨k', heq⟩
      · refine .inl ?_
        show Function.update p.joins i _ i' = 1
        rw [Function.update_of_ne hne, hjoined]
      · have hk : k' ≠ k := by
          rintro rfl
          exact hne (congrArg Thread.id (Option.some.inj (heq.symm.trans hi)))
        refine .inr ⟨k', ?_⟩
        show Function.update p.handle k _ k' = _
        rw [Function.update_of_ne hk, heq]
  · intro i' hi'
    have hne : i' ≠ i := by
      have hle : p.started ≤ i' := hi'
      omega
    show Function.update p.joins i _ i' = 0
    rw [Function.update_of_ne hne]
    exact hp.ahead i' hi'

end

end Pool

end RosCanopen.Lib
