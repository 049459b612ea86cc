import RosCanopen.Bridge.Sdo

/-!
# Whose result is it

One transfer at a time, and each promise fulfilled with the result of its own
request.  The flag guards both as long as a caller takes it only when it is down.
The wait of the entry points is an `if`, so a caller that leaves it takes the flag
in any case; and a write whose submission throws stores the exception in the
promise of the reads.  Runs in which neither happens keep the channel exclusive.

## Main definitions

* `Sdo.Exclusive` — the invariant.
* `Sdo.undisturbed` — the steps that keep it.
-/

namespace RosCanopen.Bridge

open Lib

/-- The call's submission throws, and the promise of the last untyped read is still
open: the exception of the write would go there. -/
def LelyDriverBridge.Misplaces (b : LelyDriverBridge) (s : Sdo) (c : Call) (env : Env) : Prop :=
  c.request.isWrite = true ∧ b.reaches c.request = true ∧ env.submitError ≠ none ∧
    ∃ i, s.sdoReadDataPromise = some i ∧ ∀ v, s.promises i ≠ .settled v

/-- The steps after which nothing has gone astray: a caller leaves the wait only when no
transfer is in flight, and no exception of a write meets an open read. -/
def Sdo.undisturbed (b : LelyDriverBridge) : Guard Sdo Label Event := fun _ s i =>
  (i.resumes = true → s.transfers = []) ∧
    ∀ c env, i.begins s = some (c, env) → ¬ b.Misplaces s c env

/-- A list of at most one element is the singleton of any element found in it. -/
theorem eq_singleton_of_getElem? {α : Type*} {l : List α} {k : ℕ} {a : α}
    (hk : l[k]? = some a) (hlen : l.length ≤ 1) : l = [a] ∧ k = 0 := by
  obtain ⟨hlt, heq⟩ := List.getElem?_eq_some_iff.mp hk
  have hk0 : k = 0 := by omega
  subst hk0
  obtain ⟨x, rfl⟩ := List.length_eq_one_iff.mp (Nat.le_antisymm hlen hlt)
  exact ⟨congrArg (fun y => [y]) heq, rfl⟩

namespace Sdo

/-- The channel is exclusive: the flag is up while a transfer is in flight, there is one
at most, its completion will find its own promise, and every fulfilled promise holds a
result of its own request. -/
structure Exclusive (h : List Event) (s : Sdo) : Prop where
  idle : s.running = false → s.transfers = []
  single : s.transfers.length ≤ 1
  own : ∀ t ∈ s.transfers, t.delivered = false → s.keeper t.call = some t.call.id
  correlated : ∀ i v, s.promises i = .settled v → Event.result i v ∈ h

namespace Exclusive
variable {h : List Event} {s : Sdo}

theorem mono {es : List Event} (hs : s.Exclusive h) : s.Exclusive (es ++ h) where
  idle := hs.idle
  single := hs.single
  own := hs.own
  correlated i v hv := List.mem_append_right es (hs.correlated i v hv)

theorem notifyOne (hs : s.Exclusive h) (pick : ℕ) : (s.notifyOne pick).Exclusive h := by
  obtain ⟨w, n, heq⟩ := s.notifyOne_eq pick
  rw [heq]
  exact ⟨hs.idle, hs.single, hs.own, hs.correlated⟩

theorem handOut (hs : s.Exclusive h) (i : CallId) : (s.handOut i).Exclusive h :=
  ⟨hs.idle, hs.single, hs.own, hs.correlated⟩

theorem crash (hs : s.Exclusive h) : s.crash.Exclusive h :=
  ⟨hs.idle, hs.single, hs.own, hs.correlated⟩

theorem dequeue (hs : s.Exclusive h) (i : Label) : (i.dequeue s).Exclusive h := by
  cases i <;> exact ⟨hs.idle, hs.single, hs.own, hs.correlated⟩

theorem raise (hs : s.Exclusive h) (hfree : s.transfers = []) (c : Call) :
    (s.raise c).Exclusive h := by
  obtain ⟨r, w, heq⟩ := s.raise_eq c
  rw [heq]
  refine ⟨by simp, by simp [create, hfree], by simp [create, hfree], ?_⟩
  intro i v hv
  by_cases hi : i = c.id
  · subst hi; simp [create] at hv
  · exact hs.correlated i v (by simpa [create, hi] using hv)

/-- Fulfilling a promise with a result of its own request. -/
theorem finish (hs : s.Exclusive h) (hfree : s.transfers = []) (i : CallId) (v : Contents) :
    (s.finish i v).Exclusive (.result i v :: h) := by
  refine ⟨fun _ => hfree, hs.single, by simp [Sdo.finish, settle, hfree], ?_⟩
  intro j v' hv
  by_cases hj : j = i
  · subst hj
    have hv' : v = v' := by simpa [Sdo.finish, settle] using hv
    simp [hv']
  · have hold : s.promises j = .settled v' := by simpa [Sdo.finish, settle, hj] using hv
    exact List.mem_cons_of_mem _ (hs.correlated j v' hold)

theorem submit (hs : s.Exclusive h) (hfree : s.transfers = []) {c : Call}
    (hrunning : s.running = true) (hkeeper : s.keeper c = some c.id) :
    (s.submit c).Exclusive h := by
  refine ⟨by simp [Sdo.submit, hrunning], by simp [Sdo.submit, hfree], ?_, hs.correlated⟩
  intro t ht _
  have ht' : t = ⟨c, false⟩ := by simpa [Sdo.submit, hfree] using ht
  subst ht'
  exact hkeeper

theorem raised (s : Sdo) (c : Call) :
    (s.raise c).running = true ∧ (s.raise c).transfers = s.transfers := by
  obtain ⟨r, w, heq⟩ := s.raise_eq c
  rw [heq]
  exact ⟨rfl, rfl⟩

/-- A call that begins on a free channel. -/
theorem began {b : LelyDriverBridge} {c : Call} {env : Env} {s' : Sdo} {es : List Event}
    (hs : s.Exclusive h) (hfree : s.transfers = []) (hplaced : ¬ b.Misplaces s c env)
    (hb : Began b c env s s' es) : s'.Exclusive (es ++ h) := by
  obtain ⟨hrunning, htransfers⟩ := raised s c
  have hraise := hs.raise hfree c
  have hfree' : (s.raise c).transfers = [] := htransfers.trans hfree
  cases hb with
  | missing v => exact (hraise.finish hfree' c.id v).handOut c.id
  | missingTyped v => exact ((hraise.finish hfree' c.id v).notifyOne env.pick).handOut c.id
  | unsupported => exact hraise.handOut c.id
  | submitted value =>
      exact ((hraise.submit hfree' hrunning (keeper_raise s c)).handOut c.id).mono
  | rejected v => exact ((hraise.finish hfree' c.id v).notifyOne env.pick).handOut c.id
  | thrown => exact hraise.mono
  | dead v => exact hraise.mono.crash
  | spent v => exact hraise.mono
  | @misplaced v i hwrite hreached hsubmit hread hopen =>
      -- the promise is the call's own, or it is the open promise of a read
      by_cases hi : i = c.id
      · subst hi
        exact ((hraise.finish hfree' c.id v).notifyOne env.pick).handOut c.id
      · refine absurd ⟨hwrite, hreached, hsubmit, i, hread, ?_⟩ hplaced
        obtain ⟨r, w, heq⟩ := s.raise_eq c
        simpa [heq, create, hi] using hopen

/-- The first half of a completion finds its own promise. -/
theorem deliver {k : ℕ} {t : Transfer} (b : LelyDriverBridge) (hs : s.Exclusive h)
    (answer : Except ErrorCode Value) (hk : s.transfers[k]? = some t)
    (ht : t.delivered = false) :
    (s.deliver b k t answer).1.Exclusive ((s.deliver b k t answer).2 ++ h) := by
  obtain ⟨hsingle, rfl⟩ := eq_singleton_of_getElem? hk hs.single
  have hkeeper : s.keeper t.call = some t.call.id := hs.own t (by simp [hsingle]) ht
  have hrunning : s.running ≠ false := fun hidle => by simp [hs.idle hidle] at hsingle
  simp only [Sdo.deliver, hkeeper]
  split
  · exact hs.mono.crash
  · refine ⟨fun hidle => absurd hidle hrunning, by simp [hsingle], by simp [hsingle], ?_⟩
    intro j v hv
    by_cases hj : j = t.call.id
    · subst hj
      have hv' : b.outcome t.call.request answer = v := by simpa [settle] using hv
      simp [hv']
    · have hold : s.promises j = .settled v := by simpa [settle, hj] using hv
      exact List.mem_append_right _ (hs.correlated j v hold)

theorem release {k : ℕ} {t : Transfer} (hs : s.Exclusive h) (pick : ℕ)
    (hk : s.transfers[k]? = some t) : (s.release k pick).Exclusive h := by
  obtain ⟨hsingle, rfl⟩ := eq_singleton_of_getElem? hk hs.single
  have hdown : Exclusive h { s with running := false, transfers := s.transfers.eraseIdx 0 } :=
    ⟨fun _ => by simp [hsingle], by simp [hsingle], by simp [hsingle], hs.correlated⟩
  exact hdown.notifyOne pick

/-- **A step that is not disturbed keeps the channel exclusive.** -/
theorem stepped {b : LelyDriverBridge} {i : Label} {s' : Sdo} {es : List Event}
    (hs : s.Exclusive h) (hok : undisturbed b h s i) (hstep : Stepped b s i s' es) :
    s'.Exclusive (es ++ h) := by
  cases hstep with
  | @began _ c env _ _ hbegins hfree hbegan =>
      have htransfers : s.transfers = [] := by
        cases hresumes : i.resumes with
        | true => exact hok.1 hresumes
        | false => exact hs.idle (hfree hresumes)
      refine (hs.dequeue i).began ?_ ?_ hbegan
      · cases i <;> exact htransfers
      · have hplaced := hok.2 c env hbegins
        cases i <;> exact hplaced
  | waits request env hrunning => exact ⟨hs.idle, hs.single, hs.own, hs.correlated⟩
  | wakes hk => exact ⟨hs.idle, hs.single, hs.own, hs.correlated⟩
  | delivers answer hk ht => exact hs.deliver b answer hk ht
  | releases pick hk ht => exact hs.release pick hk

/-- The channel is exclusive along every run that is not disturbed. -/
theorem of_reach {b : LelyDriverBridge} (hr : Reach (Sdo.system b) (undisturbed b) h s) :
    s.Exclusive h := by
  induction hr with
  | init hs =>
      obtain ⟨-, -, -, hpromises, -, -, -, -, htransfers, -⟩ := hs
      exact ⟨fun _ => htransfers, by simp [htransfers], by simp [htransfers], by simp [hpromises]⟩
  | step _ hok hstep ih => exact ih.stepped hok (stepped_of_step hstep).1

end Exclusive

/-- What the channel is for: one transfer at most is in flight, and what a promise has
been fulfilled with is a result of the request it was made for. -/
def Correlated (h : List Event) (s : Sdo) : Prop :=
  (s.transfers.filter fun t => !t.delivered).length ≤ 1 ∧
    ∀ i v, s.promises i = .settled v → Event.result i v ∈ h

/-- **Along every run that is not disturbed** at most one transfer is in flight, and
every caller gets the result of its own request. -/
theorem correlated_of_undisturbed {b : LelyDriverBridge} {h : List Event} {s : Sdo}
    (hr : Reach (Sdo.system b) (undisturbed b) h s) : s.Correlated h := by
  have hs := Exclusive.of_reach hr
  exact ⟨Nat.le_trans (List.length_filter_le _ _) hs.single, hs.correlated⟩

/-- A bridge to a device on which every object is a byte. -/
def byteBridge : LelyDriverBridge := ⟨1, fun _ _ => some .unsigned8⟩

/-- No submission throws in the step. -/
def submits (s : Sdo) (i : Label) : Bool :=
  (i.begins s).all fun call => call.2.submitError.isNone

theorem submitError_of_submits {s : Sdo} {i : Label} {c : Call} {env : Env}
    (hsubmits : submits s i = true) (hbegins : i.begins s = some (c, env)) :
    env.submitError = none := by
  rw [submits, hbegins] at hsubmits
  exact Option.isNone_iff_eq_none.mp hsubmits

/-- A check of the steps of a run in which no submission throws. -/
def calm (_ : List Event) (s : Sdo) (i : Label) : Bool :=
  (!i.resumes || s.transfers.isEmpty) && submits s i

theorem undisturbed_of_calm {b : LelyDriverBridge} {h : List Event} {s : Sdo} {i : Label}
    (hcalm : calm h s i = true) : undisturbed b h s i := by
  obtain ⟨hresumes, hsubmits⟩ := Bool.and_eq_true_iff.mp hcalm
  refine ⟨fun hi => ?_, fun c env hbegins hmisplaced => ?_⟩
  · rw [hi] at hresumes
    exact List.isEmpty_iff.mp hresumes
  · exact hmisplaced.2.2.1 (submitError_of_submits hsubmits hbegins)

/-- A second reader blocks while the first one's transfer is in flight; its completion
notifies the second, which then reads. -/
theorem correlated_contended_reads : ∃ (h h' : List Event) (blocked s : Sdo),
    Reach (Sdo.system byteBridge) (undisturbed byteBridge) h blocked ∧
    blocked.transfers.length = 1 ∧ blocked.waiting = [⟨1, .read ⟨0x6061, 0, 0⟩⟩] ∧
    Reach (Sdo.system byteBridge) (undisturbed byteBridge) (h' ++ h) s ∧
    s.promises 0 = .settled (.data ⟨0x6041, 0, 7⟩) ∧
    s.promises 1 = .settled (.data ⟨0x6061, 0, 3⟩) ∧ s.Correlated (h' ++ h) := by
  have h0 : Reach (Sdo.system byteBridge) (undisturbed byteBridge) [] constructed :=
    .init (by simp [Sdo.system, constructed])
  have hok : ∀ (is : List Label), ∀ i ∈ is, ∀ h s, calm h s i = true →
      undisturbed byteBridge h s i := fun _ _ _ _ _ => undisturbed_of_calm
  have hblocks := System.reach_runIf _ calm
    [.arrive (.read ⟨0x6041, 0, 0⟩) ⟨none, 0⟩, .arrive (.read ⟨0x6061, 0, 0⟩) ⟨none, 0⟩]
    h0 (hok _) rfl
  have hreads := System.reach_runIf _ calm
    [.deliver 0 (.ok 7), .release 0 0, .resume 0 ⟨none, 0⟩, .deliver 0 (.ok 3)]
    hblocks (hok _) rfl
  refine ⟨_, [_, _, _], _, _, hblocks, rfl, rfl, hreads, rfl, rfl, ?_⟩
  exact correlated_of_undisturbed hreads

/-- Two readers wake by themselves while a third one's transfer is in flight: then three
transfers are, and the first answer goes to the last reader. -/
theorem not_correlated_spurious_wake : ∃ b h s, Reach (Sdo.system b) Guard.free h s ∧
    ¬ (s.transfers.filter fun t => !t.delivered).length ≤ 1 ∧
    ¬ ∀ i v, s.promises i = .settled v → Event.result i v ∈ h := by
  have h0 : Reach (Sdo.system byteBridge) Guard.free [] constructed :=
    .init (by simp [Sdo.system, constructed])
  have hrun := System.reach_run (Sdo.system byteBridge)
    [.arrive (.read ⟨0x6041, 0, 0⟩) ⟨none, 0⟩, .arrive (.read ⟨0x6061, 0, 0⟩) ⟨none, 0⟩,
      .arrive (.read ⟨0x6064, 0, 0⟩) ⟨none, 0⟩, .wake 0, .wake 0, .resumeWoken 0 ⟨none, 0⟩,
      .resumeWoken 0 ⟨none, 0⟩, .deliver 0 (.ok 7)] h0 rfl
  refine ⟨byteBridge, _, _, hrun, by decide, ?_⟩
  intro hall
  have hmem := hall 1 (.data ⟨0x6041, 0, 7⟩) rfl
  revert hmem
  decide

end Sdo
end RosCanopen.Bridge
