import Mathlib.Data.List.Basic

/-!
# Event systems, guarded runs and past-time properties

A `System` is driven by inputs: a step is a partial function of the state and the
input, and it emits events.  `Reach` collects the states a run can come to
together with the events emitted on the way, newest first.  A run may be required
to meet a `Guard` at every input it takes, so that "every run whose steps avoid
such-and-such" is a statement about `Reach` and not about a changed system.

Histories are read backwards.  `since p q h` is the past-time operator: `q`
happened, and `p` holds of every event after it.  Nothing here depends on what a
state or an event is.

## Main definitions

* `System`, `Reach`, `Guard` — systems, their guarded runs.
* `System.run`, `System.runIf` — a run computed from its list of inputs.
* `Reach.invariant` — an inductive invariant holds along every guarded run.
* `Reach.of_runs` — a system whose steps are runs of another.
* `System.run_purge` — the steps of one domain do not show in the others.
* `System.recorded` — the same runs, with a history of whole steps.
* `System.both` — two systems side by side, for statements about two runs.
* `since`, `Historically` — the past-time operators on histories.
-/

namespace RosCanopen.Lib

universe u v w

/-- A system driven by inputs `ι`.  A step is refused with `none`, and otherwise
yields the next state and the events it emits, newest first. -/
structure System (σ : Type u) (ι : Type v) (ε : Type w) where
  /-- The states a run may start in. -/
  init : σ → Prop
  /-- One step. -/
  step : σ → ι → Option (σ × List ε)

/-- A condition on one step of a run: the history so far, the state, the input. -/
abbrev Guard (σ : Type u) (ι : Type v) (ε : Type w) := List ε → σ → ι → Prop

/-- The guard that every step meets. -/
abbrev Guard.free {σ : Type u} {ι : Type v} {ε : Type w} : Guard σ ι ε := fun _ _ _ => True

variable {σ : Type u} {ι : Type v} {ε : Type w}

/-- `Reach sys ok h s`: some run whose every step meets `ok` ends in `s` having
emitted the history `h`. -/
inductive Reach (sys : System σ ι ε) (ok : Guard σ ι ε) : List ε → σ → Prop
  | init {s : σ} (hs : sys.init s) : Reach sys ok [] s
  | step {h : List ε} {s s' : σ} {i : ι} {es : List ε} (hr : Reach sys ok h s)
      (hok : ok h s i) (hs : sys.step s i = some (s', es)) : Reach sys ok (es ++ h) s'

namespace Reach

variable {sys : System σ ι ε} {ok : Guard σ ι ε}

/-- **Induction along a guarded run.**  A property of history and state that holds
at the start and is kept by every guarded step holds wherever a run gets to. -/
theorem invariant {I : List ε → σ → Prop} (h0 : ∀ s, sys.init s → I [] s)
    (hstep : ∀ h s i s' es, I h s → ok h s i → sys.step s i = some (s', es) → I (es ++ h) s')
    {h : List ε} {s : σ} (hr : Reach sys ok h s) : I h s := by
  induction hr with
  | init hs => exact h0 _ hs
  | step _ hok hs ih => exact hstep _ _ _ _ _ ih hok hs

end Reach

/-- Run a list of inputs from a history and a state; `none` when one is refused, or does
not pass the check. -/
def System.runIf (sys : System σ ι ε) (check : List ε → σ → ι → Bool) :
    List ι → List ε → σ → Option (List ε × σ)
  | [], h, s => some (h, s)
  | i :: is, h, s =>
      if check h s i then
        match sys.step s i with
        | none => none
        | some (s', es) => System.runIf sys check is (es ++ h) s'
      else none

/-- Run a list of inputs; `none` when one is refused. -/
abbrev System.run (sys : System σ ι ε) : List ι → List ε → σ → Option (List ε × σ) :=
  sys.runIf fun _ _ _ => true

/-- A computed run is a guarded one when inputs that pass the check meet the guard. -/
theorem System.reach_runIf (sys : System σ ι ε) {ok : Guard σ ι ε}
    (check : List ε → σ → ι → Bool) :
    ∀ (is : List ι) {h h' : List ε} {s s' : σ}, Reach sys ok h s →
      (∀ i ∈ is, ∀ h s, check h s i = true → ok h s i) →
      sys.runIf check is h s = some (h', s') → Reach sys ok h' s' := by
  intro is
  induction is with
  | nil =>
      intro h h' s s' hr _ heq
      simp only [System.runIf, Option.some.injEq, Prod.mk.injEq] at heq
      obtain ⟨rfl, rfl⟩ := heq
      exact hr
  | cons i is ih =>
      intro h h' s s' hr hok heq
      cases hcheck : check h s i with
      | false => simp [System.runIf, hcheck] at heq
      | true =>
          cases hst : sys.step s i with
          | none => simp [System.runIf, hcheck, hst] at heq
          | some p =>
              simp only [System.runIf, hcheck, hst, if_true] at heq
              have hi := hok i (by simp) h s hcheck
              exact ih (.step hr hi hst) (fun j hj => hok j (by simp [hj])) heq

/-- A computed run is a guarded one when the guard allows each of its inputs anywhere. -/
theorem System.reach_run_of (sys : System σ ι ε) {ok : Guard σ ι ε} (is : List ι)
    {h h' : List ε} {s s' : σ} (hr : Reach sys ok h s) (hok : ∀ i ∈ is, ∀ h s, ok h s i)
    (heq : sys.run is h s = some (h', s')) : Reach sys ok h' s' :=
  sys.reach_runIf _ is hr (fun i hi h s _ => hok i hi h s) heq

/-- A computed run is an unguarded run. -/
theorem System.reach_run (sys : System σ ι ε) (is : List ι) {h h' : List ε} {s s' : σ}
    (hr : Reach sys Guard.free h s) (heq : sys.run is h s = some (h', s')) :
    Reach sys Guard.free h' s' :=
  sys.reach_run_of is hr (fun _ _ _ _ => trivial) heq

/-- What has been checked of the end of a computed run, some guarded run comes to. -/
theorem System.exists_reach_runIf (sys : System σ ι ε) {ok : Guard σ ι ε}
    {check : List ε → σ → ι → Bool} {is : List ι} {P : List ε × σ → Bool} {h : List ε} {s : σ}
    (hr : Reach sys ok h s) (hok : ∀ h s i, check h s i = true → ok h s i)
    (hrun : (sys.runIf check is h s).any P = true) :
    ∃ h' s', Reach sys ok h' s' ∧ P (h', s') = true := by
  obtain ⟨⟨h', s'⟩, heq, hP⟩ := (Option.any_eq_true _ _).mp hrun
  exact ⟨h', s', sys.reach_runIf check is hr (fun i _ h s hi => hok h s i hi) heq, hP⟩

theorem System.exists_reach_run (sys : System σ ι ε) {is : List ι} {P : List ε × σ → Bool}
    {h : List ε} {s : σ} (hr : Reach sys Guard.free h s) (hrun : (sys.run is h s).any P = true) :
    ∃ h' s', Reach sys Guard.free h' s' ∧ P (h', s') = true :=
  sys.exists_reach_runIf hr (fun _ _ _ _ => trivial) hrun

/-- What each step of a computed run keeps, of the events since its start and of the state,
the whole of it keeps. -/
theorem System.run_events (sys : System σ ι ε) {P : ι → Prop} {I : List ε → σ → Prop}
    (hstep : ∀ new s i s' es, I new s → P i → sys.step s i = some (s', es) →
      I (es ++ new) s') :
    ∀ (is : List ι) {h h' new : List ε} {s s' : σ}, I new s → (∀ i ∈ is, P i) →
      sys.run is (new ++ h) s = some (h', s') → ∃ new', h' = new' ++ h ∧ I new' s' := by
  intro is
  induction is with
  | nil =>
      intro h h' new s s' hI _ heq
      obtain ⟨rfl, rfl⟩ := Prod.mk.inj (Option.some.inj heq)
      exact ⟨new, rfl, hI⟩
  | cons i is ih =>
      intro h h' new s s' hI hP heq
      cases hst : sys.step s i with
      | none => simp [System.runIf, hst] at heq
      | some p =>
          simp only [System.runIf, hst, if_true, ← List.append_assoc] at heq
          have hI' := hstep new s i p.1 p.2 hI (hP i List.mem_cons_self) hst
          exact ih hI' (fun j hj => hP j (List.mem_cons_of_mem _ hj)) heq

/-- **Unwinding.**  The steps of one domain, `mine`, are invisible up to a relation that
they keep against standing still, and that all other steps keep together: a run without
them goes the same way, and emits the events that are not theirs. -/
theorem System.run_purge (sys : System σ ι ε) {mine : ι → Bool} {own : ε → Bool}
    {R : σ → σ → Prop}
    (hmine : ∀ s t i s' es, R s t → mine i = true → sys.step s i = some (s', es) →
      R s' t ∧ ∀ e ∈ es, own e = true)
    (hother : ∀ s t i s' es, R s t → mine i = false → sys.step s i = some (s', es) →
      ∃ t', sys.step t i = some (t', es) ∧ R s' t' ∧ ∀ e ∈ es, own e = false) :
    ∀ (is : List ι) {h h' : List ε} {s t s' : σ}, R s t → sys.run is h s = some (h', s') →
      ∃ t', sys.run (is.filter fun i => !mine i) (h.filter fun e => !own e) t =
        some (h'.filter fun e => !own e, t') ∧ R s' t' := by
  intro is
  induction is with
  | nil =>
      intro h h' s t s' hR heq
      obtain ⟨rfl, rfl⟩ := Prod.mk.inj (Option.some.inj heq)
      exact ⟨t, rfl, hR⟩
  | cons i is ih =>
      intro h h' s t s' hR heq
      cases hst : sys.step s i with
      | none => simp [System.runIf, hst] at heq
      | some p =>
          obtain ⟨s₁, es⟩ := p
          simp only [System.runIf, hst, if_true] at heq
          cases hi : mine i with
          | true =>
              obtain ⟨hR₁, hes⟩ := hmine s t i s₁ es hR hi hst
              have hnone : es.filter (fun e => !own e) = [] := by
                rw [List.filter_eq_nil_iff]
                intro e he
                simp [hes e he]
              obtain ⟨t', hrun, hR'⟩ := ih hR₁ heq
              refine ⟨t', ?_, hR'⟩
              rw [List.filter_append, hnone, List.nil_append] at hrun
              simpa [hi] using hrun
          | false =>
              obtain ⟨t₁, hstep, hR₁, hes⟩ := hother s t i s₁ es hR hi hst
              have hall : es.filter (fun e => !own e) = es := by
                rw [List.filter_eq_self]
                intro e he
                simp [hes e he]
              obtain ⟨t', hrun, hR'⟩ := ih hR₁ heq
              refine ⟨t', ?_, hR'⟩
              rw [List.filter_append, hall] at hrun
              simpa [System.runIf, hi, hstep] using hrun

/-- **A system inside another.**  Where every step of the one is a run of the other with the
same events, every run of the one is a run of the other. -/
theorem Reach.of_runs {τ : Type u} {a : System σ ι ε} {b : System τ ι ε} {f : σ → τ}
    (hinit : ∀ s, a.init s → b.init (f s))
    (hstep : ∀ s i s' es, a.step s i = some (s', es) →
      ∃ is, ∀ h, b.run is h (f s) = some (es ++ h, f s'))
    {h : List ε} {s : σ} (hr : Reach a Guard.free h s) : Reach b Guard.free h (f s) := by
  induction hr with
  | init hs => exact .init (hinit _ hs)
  | @step h s s' i es _ _ hs ih =>
      obtain ⟨is, hrun⟩ := hstep s i s' es hs
      exact b.reach_run is ih (hrun h)

/-! ## Recorded runs -/

/-- One step of a run: the state before it, its input, and the events it emitted. -/
structure Record (σ : Type u) (ι : Type v) (ε : Type w) where
  state : σ
  input : ι
  events : List ε

/-- The system whose histories are the steps themselves. -/
def System.recorded (sys : System σ ι ε) : System σ ι (Record σ ι ε) where
  init := sys.init
  step s i := (sys.step s i).map fun (s', es) => (s', [⟨s, i, es⟩])

theorem System.recorded_step {sys : System σ ι ε} {s s' : σ} {i : ι}
    {rs : List (Record σ ι ε)} (h : sys.recorded.step s i = some (s', rs)) :
    ∃ es, sys.step s i = some (s', es) ∧ rs = [⟨s, i, es⟩] := by
  obtain ⟨⟨s₁, es⟩, hstep, heq⟩ := Option.map_eq_some_iff.mp h
  obtain ⟨rfl, rfl⟩ := Prod.mk.inj heq
  exact ⟨es, hstep, rfl⟩

/-- **Recording changes nothing**: a recorded run is a run with the recorded events. -/
theorem Reach.of_recorded {sys : System σ ι ε} {ok : Guard σ ι (Record σ ι ε)}
    {h : List (Record σ ι ε)} {s : σ} (hr : Reach sys.recorded ok h s) :
    Reach sys Guard.free (h.flatMap Record.events) s := by
  induction hr with
  | init hs => exact .init hs
  | step _ _ hstep ih =>
      obtain ⟨es, hemits, rfl⟩ := System.recorded_step hstep
      exact .step ih trivial hemits

/-- What has been recorded is a step. -/
theorem Reach.step_of_mem {sys : System σ ι ε} {ok : Guard σ ι (Record σ ι ε)}
    {h : List (Record σ ι ε)} {s : σ} (hr : Reach sys.recorded ok h s) {r : Record σ ι ε}
    (hmem : r ∈ h) : ∃ s', sys.step r.state r.input = some (s', r.events) := by
  induction hr with
  | init hs => simp at hmem
  | @step h s s' i rs _ _ hstep ih =>
      obtain ⟨es, hemits, rfl⟩ := System.recorded_step hstep
      rcases List.mem_cons.mp hmem with rfl | hold
      · exact ⟨s', hemits⟩
      · exact ih hold

/-! ## Two systems side by side -/

/-- Two systems that are given the same inputs. -/
def System.both {τ : Type u} (a : System σ ι ε) (b : System τ ι ε) :
    System (σ × τ) ι (ε ⊕ ε) where
  init p := a.init p.1 ∧ b.init p.2
  step p i :=
    match a.step p.1 i, b.step p.2 i with
    | some (s, es), some (t, es') => some ((s, t), es.map .inl ++ es'.map .inr)
    | _, _ => none

/-- What the one system has emitted, and what the other. -/
def leftEvents (h : List (ε ⊕ ε)) : List ε := h.filterMap Sum.getLeft?

def rightEvents (h : List (ε ⊕ ε)) : List ε := h.filterMap Sum.getRight?

section Both
variable {es es' : List ε} {h : List (ε ⊕ ε)}

theorem leftEvents_append :
    leftEvents (es.map .inl ++ es'.map .inr ++ h) = es ++ leftEvents h := by
  have hleft : (es.map Sum.inl).filterMap (Sum.getLeft? : ε ⊕ ε → Option ε) = es := by
    rw [List.filterMap_map]
    exact List.filterMap_some
  have hright : (es'.map Sum.inr).filterMap (Sum.getLeft? : ε ⊕ ε → Option ε) = [] := by
    rw [List.filterMap_map]
    exact List.filterMap_eq_nil_iff.mpr fun _ _ => rfl
  simp only [leftEvents, List.filterMap_append, hleft, hright, List.append_nil]

theorem rightEvents_append :
    rightEvents (es.map .inl ++ es'.map .inr ++ h) = es' ++ rightEvents h := by
  have hright : (es'.map Sum.inr).filterMap (Sum.getRight? : ε ⊕ ε → Option ε) = es' := by
    rw [List.filterMap_map]
    exact List.filterMap_some
  have hleft : (es.map Sum.inl).filterMap (Sum.getRight? : ε ⊕ ε → Option ε) = [] := by
    rw [List.filterMap_map]
    exact List.filterMap_eq_nil_iff.mpr fun _ _ => rfl
  simp only [rightEvents, List.filterMap_append, hleft, hright, List.nil_append]

/-- What a step of both does in each. -/
theorem System.both_step {τ : Type u} {a : System σ ι ε} {b : System τ ι ε} {p p' : σ × τ}
    {i : ι} {e : List (ε ⊕ ε)} (h : (a.both b).step p i = some (p', e)) :
    ∃ es es', a.step p.1 i = some (p'.1, es) ∧ b.step p.2 i = some (p'.2, es') ∧
      e = es.map .inl ++ es'.map .inr := by
  simp only [System.both] at h
  cases ha : a.step p.1 i with
  | none => simp [ha] at h
  | some q =>
      cases hb : b.step p.2 i with
      | none => simp [ha, hb] at h
      | some q' =>
          simp only [ha, hb, Option.some.injEq, Prod.mk.injEq] at h
          obtain ⟨rfl, rfl⟩ := h
          exact ⟨q.2, q'.2, rfl, rfl, rfl⟩

end Both

/-! ## Past-time properties -/

/-- `q` happened, and `p` holds of every event after the latest such moment. -/
def since (p q : ε → Bool) : List ε → Bool
  | [] => false
  | e :: h => q e || (p e && since p q h)

section Since
variable {p q : ε → Bool}

@[simp] theorem since_nil : since p q ([] : List ε) = false := rfl

@[simp] theorem since_cons (e : ε) (h : List ε) :
    since p q (e :: h) = (q e || (p e && since p q h)) := rfl

/-- Events that neither start nor end the obligation do not change it. -/
theorem since_append {es : List ε} (h : List ε) (hes : ∀ e ∈ es, p e = true ∧ q e = false) :
    since p q (es ++ h) = since p q h := by
  induction es with
  | nil => rfl
  | cons e es ih =>
      have he := hes e (by simp)
      have ih' := ih fun x hx => hes x (by simp [hx])
      simp [he.1, he.2, ih']

/-- Asking less of the events asks less of the history. -/
theorem since_mono {p' q' : ε → Bool} (hp : ∀ e, p e = true → p' e = true)
    (hq : ∀ e, q e = true → q' e = true) {h : List ε} (hsince : since p q h = true) :
    since p' q' h = true := by
  induction h with
  | nil => contradiction
  | cons e h ih =>
      simp only [since_cons, Bool.or_eq_true, Bool.and_eq_true] at hsince ⊢
      exact hsince.imp (hq e) (And.imp (hp e) ih)

/-- What has happened since has happened. -/
theorem exists_mem_of_since {h : List ε} (hsince : since p q h = true) :
    ∃ e ∈ h, q e = true := by
  induction h with
  | nil => simp at hsince
  | cons e h ih =>
      by_cases he : q e = true
      · exact ⟨e, List.mem_cons_self, he⟩
      · simp only [since_cons, he, Bool.false_or, Bool.and_eq_true] at hsince
        obtain ⟨x, hx, hqx⟩ := ih hsince.2
        exact ⟨x, List.mem_cons_of_mem _ hx, hqx⟩

/-- What happened since a boundary happened after it. -/
theorem exists_of_since {new old : List ε} {e : ε} (hp : p e = false) (hq : q e = false)
    (h : since p q (new ++ e :: old) = true) : ∃ x ∈ new, q x = true := by
  induction new with
  | nil => simp [hp, hq] at h
  | cons x new ih =>
      simp only [List.cons_append, since_cons, Bool.or_eq_true, Bool.and_eq_true] at h
      rcases h with hx | ⟨-, hrest⟩
      · exact ⟨x, List.mem_cons_self, hx⟩
      · obtain ⟨y, hy, hqy⟩ := ih hrest
        exact ⟨y, List.mem_cons_of_mem _ hy, hqy⟩

end Since

/-- `P` holds of every event together with the history before it. -/
def Historically (P : ε → List ε → Prop) (h : List ε) : Prop :=
  ∀ new e old, h = new ++ e :: old → P e old

section Historically
variable {P : ε → List ε → Prop}

theorem historically_nil : Historically P [] := by
  intro new e old heq
  simp at heq

/-- A history is extended event by event, each against what was there before it. -/
theorem Historically.append {h es : List ε} (hh : Historically P h)
    (hes : ∀ new e old, es = new ++ e :: old → P e (old ++ h)) : Historically P (es ++ h) := by
  intro new e old heq
  rcases List.append_eq_append_iff.mp heq with ⟨as, hnew, hold⟩ | ⟨as, hes', hold⟩
  · exact hh as e old hold
  · cases as with
    | nil =>
        have hsplit : h = [] ++ e :: old := by simpa using hold.symm
        exact hh [] e old hsplit
    | cons a as =>
        obtain ⟨rfl, rfl⟩ := List.cons.inj hold
        exact hes new e as hes'

theorem Historically.cons {h : List ε} {e : ε} (hh : Historically P h) (he : P e h) :
    Historically P (e :: h) := by
  have hsingle : ∀ new e' old, [e] = new ++ e' :: old → P e' (old ++ h) := by
    intro new e' old heq
    cases new with
    | nil =>
        obtain ⟨rfl, rfl⟩ := List.cons.inj heq
        exact he
    | cons e'' new => simp at heq
  exact hh.append hsingle

end Historically

end RosCanopen.Lib
