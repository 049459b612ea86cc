import RosCanopen.Core.BaseDriver

/-!
# The flags of a driver and its resources

While a driver is activated, its listener has a thread and its bridge is registered; while
it is not, neither is there.  A call that fails halfway leaves the one or the other behind,
and so does a task that runs after its call has given up.

## Main definitions

* `NodeCanopenBaseDriver.Consistent`, `NodeCanopenBaseDriver.Kept` — flag, thread and bridge
  agree, now and in a whole run.
* `NodeCanopenBaseDriver.orderly` — the steps that do not leave a resource behind.
-/

namespace RosCanopen.Core

open Lib

namespace DriverPc

/-- `remove_from_master` waits. -/
def removes : DriverPc → Bool
  | .removing _ _ => true
  | _ => false

/-- A call waits for its task. -/
def waits : DriverPc → Bool
  | .adding _ | .removing _ _ => true
  | _ => false

def hasJoined : DriverPc → Bool
  | .joined _ => true
  | _ => false

/-- An exception leaves a bridge or a thread behind. -/
def leaves : DriverPc → Bool
  | .booting _ | .added | .activating | .started | .deactivating _ => true
  | _ => false

end DriverPc

namespace NodeCanopenBaseDriver

/-- Flag, thread and bridge agree. -/
structure Consistent (s : NodeCanopenBaseDriver) : Prop where
  thread : s.activated = s.nmtStatePublisherThread
  bridge : s.activated = false → s.registered = []

/-- They agree outside of calls, no thread was assigned to a joinable one, and no second
driver was inserted for a node. -/
def Kept (h : List DriverEvent) (s : NodeCanopenBaseDriver) : Prop :=
  (s.pc = .idle → s.Consistent) ∧
    DriverEvent.threadStarted true ∉ h ∧ DriverEvent.inserted true ∉ h

/-- The steps that do not leave a resource behind. -/
def orderly : Guard NodeCanopenBaseDriver DriverInput DriverEvent := fun _ s i =>
  match i with
  | .run task throws =>
      -- no bridge is made for an `add_to_master` that has given up
      s.tasks.lookup task = some .construct → s.pc = .adding task ∨
        throws = true ∧ ∀ master ∈ s.master, s.taken (s.bridge master) = false
  | .timeout => s.pc.removes = false
  | .boot ok => ok = true ∨ s.pc ≠ .booting maxBootAttempts
  | .proceed => s.pc.hasJoined = true → s.device = none
  | .throw => s.pc.leaves = false ∧ (s.pc.hasJoined = true → s.device = none)
  | _ => True

instance (h : List DriverEvent) (s : NodeCanopenBaseDriver) (i : DriverInput) :
    Decidable (orderly h s i) :=
  match i with
  | .run _ _ => inferInstanceAs (Decidable (_ → _ ∨ _ ∧ _))
  | .timeout => inferInstanceAs (Decidable (_ = _))
  | .boot _ => inferInstanceAs (Decidable (_ ∨ _))
  | .proceed => inferInstanceAs (Decidable (_ → _))
  | .throw => inferInstanceAs (Decidable (_ ∧ (_ → _)))
  | .call _ | .ready _ | .share | .release => inferInstanceAs (Decidable True)

/-! ## The invariant -/

/-- What the points of a call say about the resources. -/
def SyncedAt (s : NodeCanopenBaseDriver) : DriverPc → Prop
  | .adding task =>
      s.activated = false ∧ s.nmtStatePublisherThread = false ∧ s.device = none ∧
        s.lelyDriver = s.promise ∧ s.driver = s.promise ∧
        ∀ t, (task, t) ∈ s.tasks → s.promise = none
  | .booting attempts =>
      s.activated = false ∧ s.nmtStatePublisherThread = false ∧ attempts ≤ maxBootAttempts
  | .added | .activating => s.activated = false ∧ s.nmtStatePublisherThread = false
  | .started => s.nmtStatePublisherThread = true
  | .removing task _ =>
      s.activated = false ∧ s.nmtStatePublisherThread = true ∧
        (∀ t, (task, t) ∈ s.tasks → t = .reset) ∧
        ((∀ t, (task, t) ∉ s.tasks) → s.lelyDriver = none ∧ s.driver = none)
  | .deactivating _ =>
      s.activated = false ∧ s.nmtStatePublisherThread = true ∧
        s.lelyDriver = none ∧ s.driver = none
  | .joined _ =>
      s.activated = false ∧ s.nmtStatePublisherThread = false ∧
        s.lelyDriver = none ∧ s.driver = none
  | .cleaning _ | .cleaned _ | .shuttingDown => s.activated = false ∧ s.Consistent
  | _ => s.Consistent

structure Sound (s : NodeCanopenBaseDriver) : Prop where
  synced : s.SyncedAt s.pc
  /-- A promise has a value only while its call waits. -/
  promise : ∀ b, s.promise = some b → ∃ task, s.pc = .adding task
  /-- A reset waits only while its call does. -/
  reset : ∀ task, (task, .reset) ∈ s.tasks → ∃ shutdown, s.pc = .removing task shutdown
  fresh : ∀ e ∈ s.tasks, e.1 < s.posted

/-- The events of a step that is in order. -/
def Clean (es : List DriverEvent) : Prop :=
  DriverEvent.threadStarted true ∉ es ∧ DriverEvent.inserted true ∉ es

section Registered
variable {s : NodeCanopenBaseDriver}

theorem registered_eq_nil : s.registered = [] ↔
    s.lelyDriver = none ∧ s.driver = none ∧ s.device = none ∧ s.promise = none := by
  simp [registered]

theorem taken_of_registered (h : s.registered = []) (b : BridgeObject) : s.taken b = false := by
  rw [taken, h, List.any_nil]

end Registered

theorem clean_nil : Clean [] := ⟨by simp, by simp⟩

theorem clean_returned : Clean [.returned] := ⟨by simp, by simp⟩

theorem clean_threw (what : Option String) : Clean [.threw what] := ⟨by simp, by simp⟩

theorem mem_of_lookup {task : ℕ} {t : DriverTask} {tasks : List (ℕ × DriverTask)}
    (h : tasks.lookup task = some t) : (task, t) ∈ tasks := by
  obtain ⟨l₁, l₂, rfl, -⟩ := List.lookup_eq_some_iff.mp h
  simp

theorem not_mem_of_lookup {task : ℕ} {tasks : List (ℕ × DriverTask)}
    (h : tasks.lookup task = none) (t : DriverTask) : (task, t) ∉ tasks := by
  intro hmem
  have hne := List.lookup_eq_none_iff.mp h (task, t) hmem
  simp at hne

/-! ## Steps -/

section Steps
variable {s s' : NodeCanopenBaseDriver} {h es : List DriverEvent}

/-- There is no reset left but that of a deactivation that waits for it. -/
theorem Sound.not_reset (hs : s.Sound) (hpc : ∀ task shutdown, s.pc ≠ .removing task shutdown)
    (task : ℕ) : (task, .reset) ∉ s.tasks := by
  intro hmem
  obtain ⟨shutdown, hremoving⟩ := hs.reset task hmem
  exact hpc task shutdown hremoving

theorem Sound.promise_eq_none (hs : s.Sound) (hpc : ∀ task, s.pc ≠ .adding task) :
    s.promise = none := by
  rw [Option.eq_none_iff_forall_ne_some]
  intro b hb
  obtain ⟨task, hadding⟩ := hs.promise b hb
  exact hpc task hadding

/-- Outside of the waits for a task there is no promise and no reset. -/
theorem Sound.free (hs : s.Sound) (hpc : s.pc.waits = false) :
    s.promise = none ∧ ∀ task, (task, .reset) ∉ s.tasks := by
  constructor
  · apply hs.promise_eq_none
    intro task hadding
    simp [hadding, DriverPc.waits] at hpc
  · apply hs.not_reset
    intro task shutdown hremoving
    simp [hremoving, DriverPc.waits] at hpc

/-- Outside of the waits for a task, the point of the call says all. -/
theorem Sound.of_working (hsynced : s.SyncedAt s.pc) (hp : s.promise = none)
    (hr : ∀ task, (task, .reset) ∉ s.tasks) (hf : ∀ e ∈ s.tasks, e.1 < s.posted) : s.Sound where
  synced := hsynced
  promise b hb := by simp [hp] at hb
  reset task hmem := absurd hmem (hr task)
  fresh := hf

/-- A call ends with its resources in order. -/
theorem Sound.finish (ht : s.activated = s.nmtStatePublisherThread)
    (hb : s.activated = false → s.lelyDriver = none ∧ s.driver = none ∧ s.device = none)
    (hr : ∀ task, (task, .reset) ∉ s.tasks) (hf : ∀ e ∈ s.tasks, e.1 < s.posted) :
    { s with pc := .idle, promise := none }.Sound := by
  refine .of_working ⟨ht, fun ha => ?_⟩ rfl hr hf
  obtain ⟨hlely, hdriver, hdevice⟩ := hb ha
  exact registered_eq_nil.mpr ⟨hlely, hdriver, hdevice, rfl⟩

theorem Consistent.pointers (h : s.Consistent) (ha : s.activated = false) :
    s.lelyDriver = none ∧ s.driver = none ∧ s.device = none := by
  obtain ⟨hlely, hdriver, hdevice, -⟩ := registered_eq_nil.mp (h.bridge ha)
  exact ⟨hlely, hdriver, hdevice⟩

theorem firstOf_eq_none {checks : List (Bool × String)} :
    firstOf checks = none ↔ ∀ c ∈ checks, c.1 = false := by
  simp [firstOf]

theorem mem_post {task : ℕ} {t t' : DriverTask} :
    (task, t') ∈ (s.post t).tasks ↔ (task, t') ∈ s.tasks ∨ task = s.posted ∧ t' = t := by
  simp [NodeCanopenBaseDriver.post]

theorem Sound.fresh_post (hs : s.Sound) (t : DriverTask) :
    ∀ e ∈ (s.post t).tasks, e.1 < (s.post t).posted := by
  rintro ⟨task, t'⟩ hmem
  rcases mem_post.mp hmem with hold | ⟨rfl, -⟩
  · exact Nat.lt_succ_of_lt (hs.fresh _ hold)
  · exact Nat.lt_succ_self s.posted

/-- The task that has just been posted is the only one with its number. -/
theorem Sound.posted_unique (hs : s.Sound) {t t' : DriverTask}
    (hmem : (s.posted, t') ∈ (s.post t).tasks) : t' = t := by
  rcases mem_post.mp hmem with hold | ⟨-, ht⟩
  · exact absurd (hs.fresh _ hold) (Nat.lt_irrefl s.posted)
  · exact ht

theorem Sound.consistent (hs : s.Sound) (hpc : s.pc = .idle) : s.Consistent := by
  have hsynced := hs.synced
  rw [hpc] at hsynced
  exact hsynced

theorem Sound.beginActivate (hs : s.Sound) (hpc : s.pc = .idle) (ha : s.activated = false) :
    { s.post .construct with pc := .adding s.posted }.Sound where
  synced := by
    have hc := hs.consistent hpc
    obtain ⟨hlely, hdriver, hdevice, hpromise⟩ := registered_eq_nil.mp (hc.bridge ha)
    exact ⟨ha, hc.thread.symm.trans ha, hdevice, hlely.trans hpromise.symm,
      hdriver.trans hpromise.symm, fun _ _ => hpromise⟩
  promise _ _ := ⟨s.posted, rfl⟩
  reset task hmem := by
    rcases mem_post.mp hmem with hold | ⟨-, ht⟩
    · exact absurd hold (hs.not_reset (by simp [hpc]) task)
    · cases ht
  fresh := hs.fresh_post .construct

theorem Sound.beginDeactivate (hs : s.Sound) (hpc : s.pc = .idle) (ha : s.activated = true)
    (shutdown : Bool) : (s.beginDeactivate shutdown).Sound where
  synced := by
    have ht := (hs.consistent hpc).thread.symm.trans ha
    refine ⟨rfl, ht, fun t hmem => hs.posted_unique hmem, fun hnone => ?_⟩
    exact absurd (mem_post.mpr (.inr ⟨rfl, rfl⟩)) (hnone .reset)
  promise b hb := by
    have hnone := hs.promise_eq_none (by simp [hpc])
    have hsome : s.promise = some b := hb
    simp [hnone] at hsome
  reset task hmem := by
    rcases mem_post.mp hmem with hold | ⟨rfl, -⟩
    · exact absurd hold (hs.not_reset (by simp [hpc]) task)
    · exact ⟨shutdown, rfl⟩
  fresh := hs.fresh_post .reset

/-- `shutdown` from its test of `configured_`, with the resources in order. -/
theorem Sound.shutdownCleanup (hs : s.Sound) (hr : ∀ task, (task, .reset) ∉ s.tasks)
    (hp : s.promise = none) (ha : s.activated = false) (hc : s.Consistent) :
    s.shutdownCleanup.1.Sound ∧ Clean s.shutdownCleanup.2 := by
  unfold NodeCanopenBaseDriver.shutdownCleanup
  split
  · split
    · next what _ => exact ⟨.finish hc.thread hc.pointers hr hs.fresh, clean_threw _⟩
    · exact ⟨.of_working ⟨ha, hc.thread, hc.bridge⟩ hp hr hs.fresh, clean_nil⟩
  · exact ⟨.of_working ⟨ha, hc.thread, hc.bridge⟩ hp hr hs.fresh, clean_nil⟩

theorem activated_of_refusal_activate (h : s.refusal .activate = none) : s.activated = false := by
  simp only [refusal, firstOf_eq_none, List.forall_mem_cons] at h
  exact h.2.2.2.1

theorem activated_of_refusal_deactivate (h : s.refusal .deactivate = none) :
    s.activated = true := by
  simp only [refusal, firstOf_eq_none, List.forall_mem_cons] at h
  simpa using h.2.2.2.1

theorem activated_of_refusal_cleanup (h : s.refusal .cleanup = none) : s.activated = false := by
  simp only [refusal, firstOf_eq_none, List.forall_mem_cons] at h
  exact h.2.2.1

/-- A call starts. -/
theorem Sound.enter (hs : s.Sound) (hpc : s.pc = .idle) (c : DriverCall)
    (hok : s.refusal c = none) : (s.enter c).1.Sound ∧ Clean (s.enter c).2 := by
  have hc := hs.consistent hpc
  obtain ⟨hp, hr⟩ := hs.free (by rw [hpc]; rfl)
  cases c with
  | init =>
      rw [NodeCanopenBaseDriver.enter]
      split
      · exact ⟨.finish hc.thread hc.pointers hr hs.fresh, clean_threw _⟩
      · exact ⟨.of_working ⟨hc.thread, hc.bridge⟩ hp hr hs.fresh, clean_nil⟩
  | configure p =>
      rw [NodeCanopenBaseDriver.enter]
      split
      · exact ⟨.of_working ⟨hc.thread, hc.bridge⟩ hp hr hs.fresh, clean_nil⟩
      · exact ⟨.finish hc.thread hc.pointers hr hs.fresh, clean_threw _⟩
  | setMaster exec master =>
      exact ⟨.finish hc.thread hc.pointers hr hs.fresh, clean_returned⟩
  | activate => exact ⟨hs.beginActivate hpc (activated_of_refusal_activate hok), clean_nil⟩
  | deactivate =>
      exact ⟨hs.beginDeactivate hpc (activated_of_refusal_deactivate hok) false, clean_nil⟩
  | cleanup =>
      have ha := activated_of_refusal_cleanup hok
      exact ⟨.of_working ⟨ha, hc.thread, hc.bridge⟩ hp hr hs.fresh, clean_nil⟩
  | shutdown =>
      rw [NodeCanopenBaseDriver.enter]
      split
      · next ha =>
          split
          · exact ⟨.finish hc.thread hc.pointers hr hs.fresh, clean_threw _⟩
          · exact ⟨hs.beginDeactivate hpc ha true, clean_nil⟩
      · next ha => exact hs.shutdownCleanup hr hp (by simpa using ha) hc

theorem mem_without {task task' : ℕ} {t : DriverTask} :
    (task', t) ∈ (s.without task).tasks ↔ (task', t) ∈ s.tasks ∧ task' ≠ task := by
  simp [without]

/-- A task has run that leaves the promise as it was. -/
theorem Sound.of_without (hs : s.Sound) {task : ℕ} (ht : s'.tasks = (s.without task).tasks)
    (hpost : s'.posted = s.posted) (hpc : s'.pc = s.pc) (hp : s'.promise = s.promise)
    (hsynced : s'.SyncedAt s.pc) : s'.Sound where
  synced := hpc ▸ hsynced
  promise b hb := by
    rw [hpc]
    exact hs.promise b (hp ▸ hb)
  reset task' hmem := by
    rw [ht] at hmem
    rw [hpc]
    exact hs.reset task' (mem_without.mp hmem).1
  fresh := by
    rintro ⟨task', t⟩ hmem
    rw [ht] at hmem
    rw [hpost]
    exact hs.fresh _ (mem_without.mp hmem).1

/-- A task that no deactivation waits for can be taken. -/
theorem SyncedAt.without {task : ℕ} {t : DriverTask} {pc : DriverPc} (h : s.SyncedAt pc)
    (hmem : (task, t) ∈ s.tasks) (ht : t ≠ .reset) : (s.without task).SyncedAt pc := by
  cases pc with
  | removing task' shutdown =>
      obtain ⟨ha, hthread, huniq, hdone⟩ := h
      refine ⟨ha, hthread, fun t ht' => huniq t (mem_without.mp ht').1, fun hnone => hdone ?_⟩
      intro t' hmem'
      by_cases heq : task' = task
      · subst heq
        exact ht (huniq t hmem)
      · exact hnone t' (mem_without.mpr ⟨hmem', heq⟩)
  | adding task' =>
      obtain ⟨ha, hthread, hdevice, hl, hd, hnone⟩ := h
      exact ⟨ha, hthread, hdevice, hl, hd, fun t ht' => hnone t (mem_without.mp ht').1⟩
  | idle | initialising | configuring => exact ⟨h.thread, h.bridge⟩
  | cleaning _ | cleaned _ | shuttingDown => exact ⟨h.1, h.2.thread, h.2.bridge⟩
  | booting _ | added | activating | started | deactivating _ | joined _ => exact h

theorem Consistent.release (h : s.Consistent) : { s with device := none }.Consistent where
  thread := h.thread
  bridge ha := by
    obtain ⟨hl, hd, -, hp⟩ := registered_eq_nil.mp (h.bridge ha)
    exact registered_eq_nil.mpr ⟨hl, hd, rfl, hp⟩

/-- The end of the object of a derived class keeps the resources in order. -/
theorem SyncedAt.release {pc : DriverPc} (h : s.SyncedAt pc) :
    { s with device := none }.SyncedAt pc := by
  cases pc with
  | removing task shutdown => exact h
  | adding task =>
      obtain ⟨ha, hthread, -, hl, hd, hnone⟩ := h
      exact ⟨ha, hthread, rfl, hl, hd, hnone⟩
  | idle | initialising | configuring => exact Consistent.release h
  | cleaning _ | cleaned _ | shuttingDown => exact ⟨h.1, h.2.release⟩
  | booting _ | added | activating | started | deactivating _ | joined _ => exact h

/-- The task of `remove_from_master`, for which its call waits. -/
theorem SyncedAt.reset {task : ℕ} {shutdown : Bool} (h : s.SyncedAt (.removing task shutdown)) :
    { s.without task with driver := none, lelyDriver := none }.SyncedAt
      (.removing task shutdown) := by
  obtain ⟨ha, ht, huniq, -⟩ := h
  exact ⟨ha, ht, fun t ht' => huniq t (mem_without.mp ht').1, fun _ => ⟨rfl, rfl⟩⟩

/-- Nothing is registered while the bridge of a call is still to be constructed. -/
theorem SyncedAt.registered {task : ℕ} {t : DriverTask} (h : s.SyncedAt (.adding task))
    (hmem : (task, t) ∈ s.tasks) : s.registered = [] := by
  obtain ⟨-, -, hdevice, hlely, hdriver, hnone⟩ := h
  have hpromise := hnone t hmem
  exact registered_eq_nil.mpr
    ⟨hlely.trans hpromise, hdriver.trans hpromise, hdevice, hpromise⟩

/-- The task of `add_to_master`, for which its call waits. -/
theorem SyncedAt.construct {task : ℕ} (h : s.SyncedAt (.adding task)) (b : BridgeObject) :
    { s.without task with lelyDriver := some b, driver := some b, promise := some b }.SyncedAt
      (.adding task) := by
  obtain ⟨ha, hthread, hdevice, -, -, -⟩ := h
  exact ⟨ha, hthread, hdevice, rfl, rfl, fun t ht => absurd rfl (mem_without.mp ht).2⟩

theorem Sound.construct (hs : s.Sound) {task : ℕ} {throws : Bool}
    (hmem : (task, .construct) ∈ s.tasks)
    (hok : s.pc = .adding task ∨
      throws = true ∧ ∀ master ∈ s.master, s.taken (s.bridge master) = false)
    (hstep : (s.without task).construct task throws = some (s', es)) : s'.Sound ∧ Clean es := by
  have hwithout : (s.without task).Sound :=
    hs.of_without rfl rfl rfl rfl (hs.synced.without hmem (by simp))
  have hclean : Clean [.inserted false] := ⟨by simp, by simp⟩
  unfold NodeCanopenBaseDriver.construct at hstep
  split at hstep
  · next exec master _ hmaster =>
      have hfree : (s.without task).taken ((s.without task).bridge master) = false := by
        rcases hok with hpc | ⟨-, hfree⟩
        · exact taken_of_registered ((hpc ▸ hs.synced).registered hmem) _
        · exact hfree master hmaster
      dsimp only at hstep
      split at hstep
      · next htaken => exact absurd htaken (by simpa using hfree)
      · split at hstep
        · obtain ⟨rfl, rfl⟩ := Prod.mk.inj (Option.some.inj hstep)
          exact ⟨hwithout, hclean⟩
        · next hthrows =>
            have hpc : (s.without task).pc = .adding task :=
              hok.resolve_right fun h => hthrows h.1
            rw [if_pos hpc] at hstep
            obtain ⟨rfl, rfl⟩ := Prod.mk.inj (Option.some.inj hstep)
            have hsynced : s.SyncedAt (.adding task) := hpc ▸ hs.synced
            refine ⟨⟨?_, fun _ _ => ⟨task, hpc⟩, hwithout.reset, hwithout.fresh⟩, hclean⟩
            have hnew := hsynced.construct ((s.without task).bridge master)
            rw [← hpc] at hnew
            exact hnew
  · cases hstep

/-- The executor runs a task. -/
theorem Sound.run (hs : s.Sound) {task : ℕ} {throws : Bool} {t : DriverTask}
    (hlookup : s.tasks.lookup task = some t)
    (hok : orderly h s (.run task throws))
    (hstep : (s.without task).runTask task throws t = some (s', es)) : s'.Sound ∧ Clean es := by
  have hmem := mem_of_lookup hlookup
  cases t with
  | construct => exact hs.construct hmem (hok hlookup) hstep
  | reset =>
      obtain ⟨rfl, rfl⟩ := Prod.mk.inj (Option.some.inj hstep)
      obtain ⟨shutdown, hpc⟩ := hs.reset task hmem
      have hsynced : s.SyncedAt (.removing task shutdown) := hpc ▸ hs.synced
      refine ⟨hs.of_without rfl rfl rfl rfl ?_, clean_nil⟩
      rw [hpc]
      exact hsynced.reset
  | release =>
      obtain ⟨rfl, rfl⟩ := Prod.mk.inj (Option.some.inj hstep)
      have hsynced := hs.synced.without hmem (by simp)
      exact ⟨hs.of_without rfl rfl rfl rfl hsynced.release, clean_nil⟩

/-- A wait ends with its result. -/
theorem Sound.ready (hs : s.Sound) {isReady : Bool} (hstep : s.ready isReady = some (s', es)) :
    s'.Sound ∧ Clean es := by
  have hsynced := hs.synced
  unfold NodeCanopenBaseDriver.ready at hstep
  split at hstep
  · next task hpc =>
      rw [hpc] at hsynced
      obtain ⟨ha, hthread, -, -, -, -⟩ := hsynced
      split at hstep
      · cases hstep
      · next b _ =>
          obtain ⟨rfl, rfl⟩ := Prod.mk.inj (Option.some.inj hstep)
          refine ⟨⟨?_, fun _ hb => (nomatch hb), fun task' hmem => ?_, hs.fresh⟩, clean_nil⟩
          · cases isReady with
            | false => exact ⟨ha, hthread, by decide⟩
            | true => exact ⟨ha, hthread⟩
          · exact absurd hmem (hs.not_reset (by simp [hpc]) task')
  · next task shutdown hpc =>
      rw [hpc] at hsynced
      obtain ⟨ha, hthread, -, hdone⟩ := hsynced
      split at hstep
      · cases hstep
      · next hlookup =>
          obtain ⟨rfl, rfl⟩ := Prod.mk.inj (Option.some.inj hstep)
          have hgone := not_mem_of_lookup (Option.not_isSome_iff_eq_none.mp hlookup)
          have hp := hs.promise_eq_none (by simp [hpc])
          refine ⟨.of_working ⟨ha, hthread, hdone hgone⟩ hp (fun task' hmem => ?_) hs.fresh,
            clean_nil⟩
          obtain ⟨shutdown', hpc'⟩ := hs.reset task' hmem
          obtain ⟨rfl, -⟩ := DriverPc.removing.inj (hpc.symm.trans hpc')
          exact hgone .reset hmem
  · cases hstep

/-- A wait in `add_to_master` gives up. -/
theorem Sound.timeout (hs : s.Sound) (hok : s.pc.removes = false)
    (hstep : s.timeout = some (s', es)) : s'.Sound ∧ Clean es := by
  have hsynced := hs.synced
  unfold NodeCanopenBaseDriver.timeout at hstep
  split at hstep
  · next task hpc =>
      rw [hpc] at hsynced
      obtain ⟨ha, hthread, hdevice, hlely, hdriver, -⟩ := hsynced
      split at hstep
      · cases hstep
      · next hpromise =>
          obtain ⟨rfl, rfl⟩ := Prod.mk.inj (Option.some.inj hstep)
          have hp := Option.not_isSome_iff_eq_none.mp hpromise
          have hfree := And.intro (hlely.trans hp) (And.intro (hdriver.trans hp) hdevice)
          have hr := hs.not_reset (by simp [hpc])
          exact ⟨.finish (ha.trans hthread.symm) (fun _ => hfree) hr hs.fresh, clean_threw _⟩
  · next hpc => simp [hpc, DriverPc.removes] at hok
  · cases hstep

theorem Sound.boot (hs : s.Sound) {ok : Bool}
    (hok : ok = true ∨ s.pc ≠ .booting maxBootAttempts)
    (hstep : s.boot ok = some (s', es)) : s'.Sound ∧ Clean es := by
  have hsynced := hs.synced
  unfold NodeCanopenBaseDriver.boot at hstep
  split at hstep
  · next attempts hpc =>
      rw [hpc] at hsynced
      obtain ⟨hp, hr⟩ := hs.free (by rw [hpc]; rfl)
      obtain ⟨ha, hthread, hmax⟩ := hsynced
      split at hstep
      · obtain ⟨rfl, rfl⟩ := Prod.mk.inj (Option.some.inj hstep)
        exact ⟨.of_working ⟨ha, hthread⟩ hp hr hs.fresh, clean_nil⟩
      · next hfailed =>
          have hne : attempts ≠ maxBootAttempts := by
            rintro rfl
            exact hok.resolve_left hfailed hpc
          have hlt := Nat.lt_of_le_of_ne hmax hne
          rw [if_pos hlt] at hstep
          obtain ⟨rfl, rfl⟩ := Prod.mk.inj (Option.some.inj hstep)
          exact ⟨.of_working ⟨ha, hthread, hlt⟩ hp hr hs.fresh, clean_nil⟩
  · cases hstep

/-- A call passes a point. -/
theorem Sound.proceed (hs : s.Sound) (hok : s.pc.hasJoined = true → s.device = none)
    (hstep : s.proceed = some (s', es)) : s'.Sound ∧ Clean es := by
  have hsynced := hs.synced
  unfold NodeCanopenBaseDriver.proceed at hstep
  have hwaits : s.pc.waits = false := by
    cases hpc : s.pc with
    | adding _ | removing _ _ => simp [hpc] at hstep
    | _ => rfl
  obtain ⟨hp, hr⟩ := hs.free hwaits
  cases hpc : s.pc with
  | idle | adding _ | booting _ | removing _ _ => simp [hpc] at hstep
  | initialising | configuring =>
      rw [hpc] at hsynced hstep
      obtain ⟨rfl, rfl⟩ := Prod.mk.inj (Option.some.inj hstep)
      have hc : s.Consistent := hsynced
      exact ⟨.finish hc.thread hc.pointers hr hs.fresh, clean_returned⟩
  | added =>
      rw [hpc] at hsynced hstep
      obtain ⟨rfl, rfl⟩ := Prod.mk.inj (Option.some.inj hstep)
      exact ⟨.of_working hsynced hp hr hs.fresh, clean_nil⟩
  | activating =>
      rw [hpc] at hsynced hstep
      obtain ⟨rfl, rfl⟩ := Prod.mk.inj (Option.some.inj hstep)
      refine ⟨.of_working rfl hp hr hs.fresh, ?_⟩
      rw [hsynced.2]
      exact ⟨by simp, by simp⟩
  | started =>
      rw [hpc] at hsynced hstep
      obtain ⟨rfl, rfl⟩ := Prod.mk.inj (Option.some.inj hstep)
      exact ⟨.finish hsynced.symm (fun ha => nomatch ha) hr hs.fresh, clean_returned⟩
  | deactivating shutdown =>
      rw [hpc] at hsynced hstep
      obtain ⟨ha, hthread, hlely, hdriver⟩ := hsynced
      simp only [hthread, if_true] at hstep
      obtain ⟨rfl, rfl⟩ := Prod.mk.inj (Option.some.inj hstep)
      exact ⟨.of_working ⟨ha, rfl, hlely, hdriver⟩ hp hr hs.fresh, clean_nil⟩
  | joined shutdown =>
      have hdevice := hok (by rw [hpc]; rfl)
      rw [hpc] at hsynced hstep
      obtain ⟨ha, hthread, hlely, hdriver⟩ := hsynced
      obtain ⟨rfl, rfl⟩ := Prod.mk.inj (Option.some.inj hstep)
      have hflag := ha.trans hthread.symm
      cases shutdown with
      | false =>
          exact ⟨.finish hflag (fun _ => ⟨hlely, hdriver, hdevice⟩) hr hs.fresh, clean_returned⟩
      | true =>
          have hfree := registered_eq_nil.mpr ⟨hlely, hdriver, hdevice, hp⟩
          exact hs.shutdownCleanup hr hp ha ⟨hflag, fun _ => hfree⟩
  | cleaning shutdown =>
      rw [hpc] at hsynced hstep
      obtain ⟨rfl, rfl⟩ := Prod.mk.inj (Option.some.inj hstep)
      obtain ⟨ha, hc⟩ := hsynced
      exact ⟨.of_working ⟨ha, hc.thread, hc.bridge⟩ hp hr hs.fresh, clean_nil⟩
  | cleaned shutdown =>
      rw [hpc] at hsynced hstep
      obtain ⟨rfl, rfl⟩ := Prod.mk.inj (Option.some.inj hstep)
      obtain ⟨ha, hc⟩ := hsynced
      cases shutdown with
      | false => exact ⟨.finish hc.thread hc.pointers hr hs.fresh, clean_returned⟩
      | true => exact ⟨.of_working ⟨ha, hc.thread, hc.bridge⟩ hp hr hs.fresh, clean_nil⟩
  | shuttingDown =>
      rw [hpc] at hsynced hstep
      obtain ⟨rfl, rfl⟩ := Prod.mk.inj (Option.some.inj hstep)
      obtain ⟨ha, hc⟩ := hsynced
      exact ⟨.finish (ha.symm.trans hc.thread) (fun _ => hc.pointers ha) hr hs.fresh,
        clean_returned⟩

/-- A call throws where nothing is left behind. -/
theorem Sound.throw (hs : s.Sound) (hok : orderly h s .throw) (hthrow : s.mayThrow = true) :
    { s with pc := .idle, promise := none }.Sound := by
  have hsynced := hs.synced
  obtain ⟨hleaves, hdevice⟩ := hok
  have hwaits : s.pc.waits = false := by
    cases hpc : s.pc with
    | adding _ | removing _ _ => simp [mayThrow, hpc] at hthrow
    | _ => rfl
  obtain ⟨-, hr⟩ := hs.free hwaits
  cases hpc : s.pc with
  | idle | adding _ | removing _ _ => simp [mayThrow, hpc] at hthrow
  | booting _ | added | activating | started | deactivating _ =>
      simp [hpc, DriverPc.leaves] at hleaves
  | initialising | configuring =>
      rw [hpc] at hsynced
      have hc : s.Consistent := hsynced
      exact .finish hc.thread hc.pointers hr hs.fresh
  | cleaning _ | cleaned _ | shuttingDown =>
      rw [hpc] at hsynced
      exact .finish hsynced.2.thread hsynced.2.pointers hr hs.fresh
  | joined shutdown =>
      have hnone := hdevice (by rw [hpc]; rfl)
      rw [hpc] at hsynced
      obtain ⟨ha, hthread, hlely, hdriver⟩ := hsynced
      exact .finish (ha.trans hthread.symm) (fun _ => ⟨hlely, hdriver, hnone⟩) hr hs.fresh

/-- **What one step keeps.** -/
theorem Sound.step {i : DriverInput} (hs : s.Sound) (hok : orderly h s i)
    (hstep : s.step i = some (s', es)) : s'.Sound ∧ Clean es := by
  cases i with
  | call c =>
      simp only [NodeCanopenBaseDriver.step] at hstep
      split at hstep
      · next hpc =>
          have hc := hs.consistent hpc
          have hr := hs.not_reset (by simp [hpc])
          split at hstep
          · obtain ⟨rfl, rfl⟩ := Prod.mk.inj (Option.some.inj hstep)
            exact ⟨.finish hc.thread hc.pointers hr hs.fresh, clean_threw _⟩
          · next hrefusal =>
              have hstart := hs.enter hpc c hrefusal
              rw [Option.some.inj hstep] at hstart
              exact hstart
      · cases hstep
  | run task throws =>
      simp only [NodeCanopenBaseDriver.step] at hstep
      split at hstep
      · next hlookup => exact hs.run hlookup hok hstep
      · cases hstep
  | ready isReady => exact hs.ready hstep
  | timeout => exact hs.timeout hok hstep
  | boot ok => exact hs.boot hok hstep
  | share =>
      simp only [NodeCanopenBaseDriver.step] at hstep
      split at hstep
      · next hpc =>
          obtain ⟨hp, hr⟩ := hs.free (by rw [hpc]; rfl)
          have hsynced : { s with device := s.lelyDriver }.SyncedAt s.pc := by
            have hadded := hs.synced
            rw [hpc] at hadded ⊢
            exact hadded
          obtain ⟨rfl, rfl⟩ := Prod.mk.inj (Option.some.inj hstep)
          exact ⟨.of_working hsynced hp hr hs.fresh, clean_nil⟩
      · cases hstep
  | release =>
      simp only [NodeCanopenBaseDriver.step] at hstep
      split at hstep
      · next shutdown hpc =>
          obtain ⟨hp, hr⟩ := hs.free (by rw [hpc]; rfl)
          have hsynced : (s.post .release).SyncedAt s.pc := by
            have hjoined := hs.synced
            rw [hpc] at hjoined ⊢
            exact hjoined
          obtain ⟨rfl, rfl⟩ := Prod.mk.inj (Option.some.inj hstep)
          refine ⟨.of_working hsynced hp (fun task hmem => ?_) (hs.fresh_post .release), clean_nil⟩
          rcases mem_post.mp hmem with hold | ⟨-, ht⟩
          · exact hr task hold
          · cases ht
      · cases hstep
  | proceed => exact hs.proceed hok hstep
  | throw =>
      simp only [NodeCanopenBaseDriver.step] at hstep
      split at hstep
      · next hthrow =>
          obtain ⟨rfl, rfl⟩ := Prod.mk.inj (Option.some.inj hstep)
          exact ⟨hs.throw hok hthrow, clean_threw none⟩
      · cases hstep

theorem Constructed.sound (h : s.Constructed) : s.Sound := by
  have hp := (registered_eq_nil.mp h.registered).2.2.2
  have hc : s.Consistent :=
    ⟨h.activated.trans h.nmtStatePublisherThread.symm, fun _ => h.registered⟩
  refine .of_working ?_ hp (by simp [h.tasks]) (by simp [h.tasks])
  rw [h.pc]
  exact hc

end Steps

/-- **Flag, thread and bridge agree after every call** of a run whose steps are in order. -/
theorem kept_of_orderly {h : List DriverEvent} {s : NodeCanopenBaseDriver}
    (hr : Reach system orderly h s) : Kept h s := by
  have hsound : s.Sound ∧ Clean h := by
    refine hr.invariant (I := fun h s => s.Sound ∧ Clean h)
      (fun s hs => ⟨Constructed.sound hs, clean_nil⟩) ?_
    rintro h s i s' es ⟨hs, hthread, hinserted⟩ hok hstep
    obtain ⟨hs', hthread', hinserted'⟩ := hs.step hok hstep
    refine ⟨hs', fun hmem => ?_, fun hmem => ?_⟩
    · exact (List.mem_append.mp hmem).elim hthread' hthread
    · exact (List.mem_append.mp hmem).elim hinserted' hinserted
  exact ⟨hsound.1.consistent, hsound.2⟩

/-! ## Runs -/

/-- The parameters of a joint of the arm. -/
def jointParameters : DriverParameters where
  containerName := "device_container"
  nodeId := 2
  nonTransmitTimeout := 100
  config := some {
    dcfPath := some "config/cia402"
    dcf := some "cia402_slave.eds"
    nonTransmitTimeout := none
    polling := some true
    period := some 10
    diagnosticsEnable := none
    diagnosticsPeriod := none
    sdoTimeoutMs := none
    bootTimeoutMs := none }

/-- A driver from its constructor. -/
def joint : NodeCanopenBaseDriver where
  name := "joint_1"
  declared := false
  masterSet := false
  initialised := false
  configured := false
  activated := false
  exec := none
  master := none
  config :=
    { containerName := "", nodeId := 0, nonTransmitTimeout := 0, eds := "", bin := "",
      polling := false, periodMs := 0, diagnosticEnabled := false, diagnosticPeriodMs := 0,
      sdoTimeoutMs := 0, bootTimeoutMs := 0 }
  lelyDriver := none
  driver := none
  device := none
  promise := none
  nmtStatePublisherThread := false
  tasks := []
  posted := 0
  pc := .idle

theorem constructed_joint : joint.Constructed :=
  ⟨rfl, rfl, rfl, rfl, rfl, rfl, rfl, rfl, rfl, rfl, rfl⟩

/-- The calls up to the wait for the bridge. -/
def bringUp : List DriverInput :=
  [.call .init, .proceed, .call (.configure jointParameters), .proceed, .call (.setMaster 0 0),
    .call .activate]

/-- A first attempt to add the driver times out, and the second one brings it up; then it is
taken down. -/
def upAndDown : List DriverInput := List.flatten
  [bringUp,
    [.timeout, .call .activate, .run 1 false, .ready false, .boot false, .boot true, .share,
      .proceed, .proceed, .proceed, .call .shutdown, .run 2 false, .ready true, .proceed,
      .release, .run 3 false, .proceed, .proceed, .proceed, .proceed]]

/-- The device does not boot. -/
def failedBoot : List DriverInput := List.flatten
  [bringUp, [.run 0 false, .ready false, .boot false, .boot false, .boot false]]

theorem kept_joint : ∃ h s, Kept h s ∧ s.activated = false ∧
    DriverEvent.threadStarted false ∈ h ∧ DriverEvent.inserted false ∈ h := by
  have hrun : (system.runIf (fun h s i => decide (orderly h s i)) upAndDown [] joint).any
      (fun p => p.2.activated = false ∧ DriverEvent.threadStarted false ∈ p.1 ∧
        DriverEvent.inserted false ∈ p.1) = true := by
    decide +kernel
  obtain ⟨h, s, hr, hend⟩ := system.exists_reach_runIf (.init constructed_joint)
    (fun h s i hi => of_decide_eq_true hi) hrun
  exact ⟨h, s, kept_of_orderly hr, of_decide_eq_true hend⟩

/-- Where the device does not boot, `activate` throws, and the bridge stays. -/
theorem not_kept : ¬ ∀ h s, Reach system Guard.free h s → Kept h s := by
  intro hkept
  have hrun : (system.run failedBoot [] joint).any
      (fun p => p.2.pc = .idle ∧ p.2.activated = false ∧ p.2.registered ≠ []) = true := by
    decide +kernel
  obtain ⟨h, s, hr, hend⟩ := system.exists_reach_run (.init constructed_joint) hrun
  obtain ⟨hpc, hactivated, hregistered⟩ := of_decide_eq_true hend
  exact hregistered (((hkept h s hr).1 hpc).bridge hactivated)

end NodeCanopenBaseDriver
end RosCanopen.Core
