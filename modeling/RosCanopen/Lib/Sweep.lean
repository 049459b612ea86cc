import Mathlib.Data.List.Nodup
import Mathlib.Logic.Function.Basic

/-!
# Loops that change what they go through

A loop goes through the entries of a map or a vector; it may change the value that is there,
emit events, and stop early.  `sweep` goes through a map, which is a function and the list of
the keys that have an entry, and may also fail; keys at which it does nothing can be left out.
`walk` goes through a vector.

## Main definitions

* `sweep`, `walk` — the loops.
* `sweep_filter` — only the keys at which something happens matter.
* `walk_invariant` — the rule for what a loop keeps.
-/

namespace RosCanopen.Lib

universe u v w

variable {κ : Type u} {ν : Type v} {ε : Type w} [DecidableEq κ]

/-- Go through the keys.  `f` gives the new value, whether the loop goes on, and the events,
the newest first; the loop fails where `f` does. -/
def sweep (f : κ → ν → Option (ν × Bool × List ε)) :
    List κ → (κ → ν) → Option ((κ → ν) × Bool × List ε)
  | [], m => some (m, true, [])
  | k :: ks, m =>
      match f k (m k) with
      | none => none
      | some (v, true, es) =>
          (sweep f ks (Function.update m k v)).map fun p => (p.1, p.2.1, p.2.2 ++ es)
      | some (v, false, es) => some (Function.update m k v, false, es)

section
variable {f : κ → ν → Option (ν × Bool × List ε)} {m m' : κ → ν} {k : κ} {ks : List κ}

theorem sweep_cons_goes {v : ν} {es : List ε} (h : f k (m k) = some (v, true, es)) :
    sweep f (k :: ks) m =
      (sweep f ks (Function.update m k v)).map fun p => (p.1, p.2.1, p.2.2 ++ es) := by
  rw [sweep, h]

theorem sweep_cons_stops {v : ν} {es : List ε} (h : f k (m k) = some (v, false, es)) :
    sweep f (k :: ks) m = some (Function.update m k v, false, es) := by
  rw [sweep, h]

/-- A key at which nothing happens. -/
theorem sweep_cons_inert (h : f k (m k) = some (m k, true, [])) :
    sweep f (k :: ks) m = sweep f ks m := by
  rw [sweep_cons_goes h, Function.update_eq_self]
  cases sweep f ks m <;> simp

/-- **The keys at which nothing happens can be left out.** -/
theorem sweep_filter (active : κ → Bool) (hks : ks.Nodup)
    (hinert : ∀ k ∈ ks, active k = false → f k (m k) = some (m k, true, [])) :
    sweep f ks m = sweep f (ks.filter active) m := by
  induction ks generalizing m with
  | nil => rfl
  | cons k ks ih =>
      obtain ⟨hk, hks⟩ := List.nodup_cons.mp hks
      cases hactive : active k with
      | false =>
          have hrest := ih hks fun k' hk' => hinert k' (List.mem_cons_of_mem _ hk')
          rw [sweep_cons_inert (hinert k List.mem_cons_self hactive), hrest,
            List.filter_cons_of_neg (by simp [hactive])]
      | true =>
          rw [List.filter_cons_of_pos hactive, sweep, sweep]
          have hrest : ∀ v, sweep f ks (Function.update m k v) =
              sweep f (ks.filter active) (Function.update m k v) := by
            intro v
            apply ih hks
            intro k' hk' hoff
            have hne : k' ≠ k := fun heq => hk (heq ▸ hk')
            rw [Function.update_of_ne hne]
            exact hinert k' (List.mem_cons_of_mem _ hk') hoff
          cases f k (m k) with
          | none => rfl
          | some p =>
              obtain ⟨v, goes, es⟩ := p
              cases goes with
              | false => rfl
              | true => simp only [hrest v]

/-- **The rule for a loop that may fail**: what is kept of the values and keeps it from failing. -/
theorem sweep_invariant {P : κ → ν → Prop}
    (hf : ∀ k v, P k v → ∃ v' goes es, f k v = some (v', goes, es) ∧ P k v')
    (hm : ∀ k, P k (m k)) :
    ∃ m' goes es, sweep f ks m = some (m', goes, es) ∧ ∀ k, P k (m' k) := by
  induction ks generalizing m with
  | nil => exact ⟨m, true, [], rfl, hm⟩
  | cons k ks ih =>
      obtain ⟨v, goes, es, hk, hv⟩ := hf k (m k) (hm k)
      have hupdated : ∀ k', P k' (Function.update m k v k') := by
        intro k'
        by_cases heq : k' = k
        · subst heq
          rwa [Function.update_self]
        · rw [Function.update_of_ne heq]
          exact hm k'
      cases goes with
      | false => exact ⟨_, _, _, sweep_cons_stops hk, hupdated⟩
      | true =>
          obtain ⟨m', goes, es', hrest, hm'⟩ := ih hupdated
          exact ⟨m', goes, es' ++ es, by rw [sweep_cons_goes hk, hrest]; rfl, hm'⟩

/-- Where nothing happens at all, nothing changes. -/
theorem sweep_inert (hks : ks.Nodup) (hinert : ∀ k ∈ ks, f k (m k) = some (m k, true, [])) :
    sweep f ks m = some (m, true, []) := by
  rw [sweep_filter (fun _ => false) hks fun k hk _ => hinert k hk]
  simp [sweep]

end

/-! ## Vectors -/

/-- Go through a vector from the index `j` on.  `f` gives the new value, whether the loop goes
on, and the events, the newest first. -/
def walk (f : ℕ → ν → ν × Bool × List ε) : ℕ → List ν → List ν × Bool × List ε
  | _, [] => ([], true, [])
  | j, v :: vs =>
      let (v', goes, es) := f j v
      if goes then
        let (vs', goes', es') := walk f (j + 1) vs
        (v' :: vs', goes', es' ++ es)
      else (v' :: vs, false, es)

section
variable {f : ℕ → ν → ν × Bool × List ε} {j : ℕ} {v : ν} {vs : List ν}

theorem walk_cons_goes (h : (f j v).2.1 = true) :
    walk f j (v :: vs) = ((f j v).1 :: (walk f (j + 1) vs).1, (walk f (j + 1) vs).2.1,
      (walk f (j + 1) vs).2.2 ++ (f j v).2.2) := by
  rw [walk]
  simp [h]

theorem walk_cons_stops (h : (f j v).2.1 = false) :
    walk f j (v :: vs) = ((f j v).1 :: vs, false, (f j v).2.2) := by
  rw [walk]
  simp [h]

/-- **The rule for a loop**: what a step keeps of a value, and what holds of its events. -/
theorem walk_invariant {P : ℕ → ν → Prop} {Q : ε → Prop}
    (hf : ∀ j v, P j v → P j (f j v).1 ∧ ∀ e ∈ (f j v).2.2, Q e)
    (hvs : ∀ i v, vs[i]? = some v → P (j + i) v) :
    (∀ i v, (walk f j vs).1[i]? = some v → P (j + i) v) ∧ ∀ e ∈ (walk f j vs).2.2, Q e := by
  induction vs generalizing j with
  | nil => exact ⟨fun i v h => by simp [walk] at h, fun e he => by simp [walk] at he⟩
  | cons v vs ih =>
      obtain ⟨hv, hes⟩ := hf j v (hvs 0 v rfl)
      have htail : ∀ i v, vs[i]? = some v → P (j + 1 + i) v := by
        intro i v' hi
        have hnext := hvs (i + 1) v' hi
        rwa [show j + (i + 1) = j + 1 + i by omega] at hnext
      cases hgoes : (f j v).2.1 with
      | false =>
          rw [walk_cons_stops hgoes]
          refine ⟨fun i v' hi => ?_, hes⟩
          cases i with
          | zero =>
              obtain rfl : (f j v).1 = v' := by simpa using hi
              exact hv
          | succ i => exact hvs (i + 1) v' hi
      | true =>
          rw [walk_cons_goes hgoes]
          obtain ⟨hrest, hes'⟩ := ih htail
          refine ⟨fun i v' hi => ?_, fun e he => ?_⟩
          · cases i with
            | zero =>
                obtain rfl : (f j v).1 = v' := by simpa using hi
                exact hv
            | succ i =>
                rw [show j + (i + 1) = j + 1 + i by omega]
                exact hrest i v' hi
          · rcases List.mem_append.mp he with he | he
            · exact hes' e he
            · exact hes e he

/-- What no step changes of a value. -/
theorem map_walk {α : Type*} {g : ν → α} (hf : ∀ j v, g (f j v).1 = g v) :
    (walk f j vs).1.map g = vs.map g := by
  induction vs generalizing j with
  | nil => rfl
  | cons v vs ih =>
      cases hgoes : (f j v).2.1 with
      | false => simp [walk_cons_stops hgoes, hf]
      | true => simp [walk_cons_goes hgoes, hf, ih]

/-- A loop that goes through what comes before a value comes to it. -/
theorem mem_walk {i : ℕ} (hpre : ∀ i' v', i' < i → vs[i']? = some v' → (f (j + i') v').2.1 = true)
    (hv : vs[i]? = some v) {e : ε} (he : e ∈ (f (j + i) v).2.2) : e ∈ (walk f j vs).2.2 := by
  induction vs generalizing i j with
  | nil => simp at hv
  | cons v₀ vs ih =>
      cases i with
      | zero =>
          obtain rfl : v₀ = v := by simpa using hv
          rw [Nat.add_zero] at he
          cases hgoes : (f j v₀).2.1 with
          | false =>
              rw [walk_cons_stops hgoes]
              exact he
          | true =>
              rw [walk_cons_goes hgoes]
              exact List.mem_append_right _ he
      | succ i =>
          have hgoes : (f j v₀).2.1 = true := hpre 0 v₀ (by omega) rfl
          rw [walk_cons_goes hgoes]
          apply List.mem_append_left
          apply ih (i := i)
          · intro i' v' hi' hv'
            have hgoes' := hpre (i' + 1) v' (by omega) hv'
            rwa [show j + (i' + 1) = j + 1 + i' by omega] at hgoes'
          · exact hv
          · rwa [show j + (i + 1) = j + 1 + i by omega] at he

/-- A loop that goes through everything. -/
theorem walk_goes (h : ∀ i v, vs[i]? = some v → (f (j + i) v).2.1 = true) :
    (walk f j vs).2.1 = true ∧
      ∀ i, (walk f j vs).1[i]? = vs[i]?.map fun v => (f (j + i) v).1 := by
  induction vs generalizing j with
  | nil => exact ⟨rfl, fun i => by simp [walk]⟩
  | cons v vs ih =>
      have hgoes : (f j v).2.1 = true := h 0 v rfl
      have hrest : ∀ i v, vs[i]? = some v → (f (j + 1 + i) v).2.1 = true := by
        intro i v' hi
        have hnext := h (i + 1) v' hi
        rwa [show j + (i + 1) = j + 1 + i by omega] at hnext
      obtain ⟨hend, hmap⟩ := ih hrest
      rw [walk_cons_goes hgoes]
      refine ⟨hend, fun i => ?_⟩
      cases i with
      | zero => rfl
      | succ i =>
          rw [show j + (i + 1) = j + 1 + i by omega]
          exact hmap i

end

end RosCanopen.Lib
