import RosCanopen.Core.Registry

/-!
# The life cycle of the master

`NodeCanopenMaster` builds the event loop and the master anew at every activation, and stops the
thread of the loop at a deactivation.  `NodeCanopenBasicMaster` supplies the hooks in which the
master is made and dropped.  The container hands the master and its executor to the drivers.

## Main definitions

* `NodeCanopenMaster` — the flags, the pointers, and the thread of the loop.
* `NodeCanopenMaster.perform`, `NodeCanopenMaster.system` — the functions, in any order.
* `NodeCanopenMaster.Valid` — what the two getters give.
* `NodeCanopenMaster.heeded` — the calls that keep it.
-/

namespace RosCanopen.Core

open Lib

/-- What a function of the master calls and may be left by. -/
inductive MasterHook
  | init
  | readParameters
  | configure
  | ioGuard
  | context
  | poll
  | loop
  | executor
  | timer
  | controller
  | channel
  | openChannel
  | bridge
  | setTimeout
  | reset
  | thread
  | deactivate
  | cleanup
  | shutdown
  deriving DecidableEq

/-- `MasterException` with its text, or any other exception. -/
abbrev MasterFailure := Option String

/-- What each of them throws, if it does. -/
abbrev MasterHooks := MasterHook → Option MasterFailure

/-- The master.  Event loops are numbered as they are made; an executor, and a master that is
made with it, goes by the number of its loop. -/
structure NodeCanopenMaster where
  /-- The parameters of the node have been declared. -/
  declared : Bool
  initialised : Bool
  configured : Bool
  activated : Bool
  masterSet : Bool
  /-- The number of the next event loop. -/
  next : ℕ
  loop : Option ℕ
  exec : Option ℕ
  masterBridge : Option ℕ
  master : Option ℕ
  /-- The loop that the thread runs; a thread that is not there cannot be joined. -/
  spinner : Option ℕ

namespace NodeCanopenMaster

inductive Operation
  | init
  | configure
  | activate
  | deactivate
  | cleanup
  | shutdown
  deriving DecidableEq

/-- A call, with the exceptions of what it calls. -/
structure Invocation where
  operation : Operation
  hooks : MasterHooks

/-- A function of the master. -/
abbrev Method (α : Type) := EStateM MasterFailure NodeCanopenMaster α

def init (hooks : MasterHooks) : Method Unit := do
  ensure (!·.configured) (some "Init: Master is already configured.")
  ensure (!·.activated) (some "Init: Master is already activated.")
  -- a parameter cannot be declared twice
  ensure (!·.declared) none
  modify fun s => { s with declared := true }
  attempt (hooks .init)
  modify fun s => { s with initialised := true }

def configure (hooks : MasterHooks) : Method Unit := do
  ensure (·.initialised) (some "Configure: Master is not initialised.")
  ensure (!·.configured) (some "Configure: Master is already configured.")
  ensure (!·.activated) (some "Configure: Master is already activated.")
  attempt (hooks .readParameters)
  attempt (hooks .configure)
  modify fun s => { s with configured := true }

/-- `activate(bool)` of `NodeCanopenBasicMaster`. -/
def activateHook (hooks : MasterHooks) : Method Unit := do
  attempt (hooks .bridge)
  modify fun s => { s with masterBridge := s.exec }
  attempt (hooks .setTimeout)
  modify fun s => { s with master := s.masterBridge }

def activate (hooks : MasterHooks) : Method Unit := do
  ensure (·.initialised) (some "Activate: master is not initialised")
  ensure (·.configured) (some "Activate: master is not configured")
  ensure (!·.activated) (some "Activate: master is already activated")
  attempt (hooks .ioGuard)
  attempt (hooks .context)
  attempt (hooks .poll)
  attempt (hooks .loop)
  modify fun s => { s with loop := some s.next, next := s.next + 1 }
  attempt (hooks .executor)
  modify fun s => { s with exec := s.loop }
  attempt (hooks .timer)
  attempt (hooks .controller)
  attempt (hooks .channel)
  attempt (hooks .openChannel)
  activateHook hooks
  ensure (·.master.isSome) (some "Activate: master not set")
  modify fun s => { s with masterSet := true }
  attempt (hooks .reset)
  attempt (hooks .thread)
  modify fun s => { s with spinner := s.loop, activated := true }

/-- `deactivate(bool)` of `NodeCanopenBasicMaster`. -/
def deactivateHook (hooks : MasterHooks) : Method Unit := do
  attempt (hooks .deactivate)
  modify fun s => { s with masterBridge := none, master := none }

def deactivate (hooks : MasterHooks) : Method Unit := do
  ensure (·.initialised) (some "Deactivate: master is not initialised")
  ensure (·.configured) (some "Deactivate: master is not configured")
  ensure (·.activated) (some "Deactivate: master is not activated")
  -- the loop is told to end, and its thread is joined
  ensure (·.spinner.isSome) none
  modify fun s => { s with spinner := none }
  deactivateHook hooks
  modify fun s => { s with activated := false }

def cleanup (hooks : MasterHooks) : Method Unit := do
  ensure (·.initialised) (some "Cleanup: master is not initialised.")
  ensure (·.configured) (some "Cleanup: master is not configured")
  ensure (!·.activated) (some "Cleanup: master is still active")
  attempt (hooks .cleanup)
  modify fun s => { s with loop := none, exec := none, configured := false, masterSet := false }

def shutdown (hooks : MasterHooks) : Method Unit := do
  onlyIf (·.activated) (deactivate hooks)
  onlyIf (·.configured) (cleanup hooks)
  attempt (hooks .shutdown)
  modify fun s =>
    { s with masterSet := false, initialised := false, configured := false, activated := false }

/-- `get_master` -/
def getMaster : Method (Option ℕ) := do
  ensure (·.masterSet) (some "Get Master: Master is not set.")
  return (← get).master

/-- `get_executor` -/
def getExecutor : Method (Option ℕ) := do
  ensure (·.masterSet) (some "Get Executor: master is not set")
  return (← get).exec

def perform (i : Invocation) : Method Unit :=
  match i.operation with
  | .init => init i.hooks
  | .configure => configure i.hooks
  | .activate => activate i.hooks
  | .deactivate => deactivate i.hooks
  | .cleanup => cleanup i.hooks
  | .shutdown => shutdown i.hooks

/-- The state after the constructor. -/
def constructed : NodeCanopenMaster where
  declared := false
  initialised := false
  configured := false
  activated := false
  masterSet := false
  next := 0
  loop := none
  exec := none
  masterBridge := none
  master := none
  spinner := none

/-- A master from its construction. -/
def system : System NodeCanopenMaster Invocation (CallEnd Invocation MasterFailure) :=
  .ofCalls (· = constructed) perform

/-- What a getter gives to a caller. -/
def ask (getter : Method (Option ℕ)) (s : NodeCanopenMaster) : Except String (Option ℕ) :=
  match getter.run s with
  | .ok p _ => .ok p
  | .error e _ => .error (e.getD "")

/-- What the container and the driver get in `init_driver`. -/
def answer (s : NodeCanopenMaster) (setMaster : Option String) : MasterAnswer where
  executor := s.ask getExecutor
  master := s.ask getMaster
  setMaster := setMaster

/-! ## What the getters give -/

/-- The getters give the master and the executor of the loop that runs while the master is
activated, and throw otherwise. -/
structure Valid (s : NodeCanopenMaster) : Prop where
  activated : s.activated = true → ∃ running, s.spinner = some running ∧
    getMaster.run s = .ok (some running) s ∧ getExecutor.run s = .ok (some running) s
  deactivated : s.activated = false →
    getMaster.run s = .error (some "Get Master: Master is not set.") s ∧
      getExecutor.run s = .error (some "Get Executor: master is not set") s

/-- What `activate` goes through before the master is set. -/
def constructing : List MasterHook :=
  [.ioGuard, .context, .poll, .loop, .executor, .timer, .controller, .channel, .openChannel,
    .bridge, .setTimeout]

/-- None of the hooks throws. -/
def pass (hooks : MasterHooks) (l : List MasterHook) : Bool :=
  l.all fun hook => (hooks hook).isNone

/-- The calls that keep the getters valid: no `deactivate` that is not part of a `shutdown`, no
`shutdown` of an activated master that is left by a hook on the way, and no `activate` that
fails after it has set the master. -/
def keeps (s : NodeCanopenMaster) (i : Invocation) : Bool :=
  match i.operation with
  | .init | .configure | .cleanup => true
  | .activate =>
      !(s.initialised && s.configured && !s.activated && pass i.hooks constructing) ||
        pass i.hooks [.reset, .thread]
  | .deactivate => !(s.initialised && s.configured && s.activated)
  | .shutdown => !s.activated || pass i.hooks [.deactivate, .cleanup]

/-- Every call is one of these. -/
def heeded : Guard NodeCanopenMaster Invocation (CallEnd Invocation MasterFailure) :=
  fun _ s i => s.keeps i = true

section Hooks
variable {hooks : MasterHooks} {l : List MasterHook} {hook : MasterHook} {e : MasterFailure}

theorem pass_iff : pass hooks l = true ↔ ∀ hook ∈ l, hooks hook = none := by
  simp [pass]

theorem pass_of_throws (hmem : hook ∈ l) (he : hooks hook = some e) : pass hooks l = false := by
  refine Bool.eq_false_iff.mpr fun hpass => ?_
  have hnone := pass_iff.mp hpass hook hmem
  rw [he] at hnone
  cases hnone

end Hooks

/-! ## The invariant -/

/-- The state while only calls that keep the getters valid have been made. -/
structure Sound (s : NodeCanopenMaster) : Prop where
  flags : s.activated = true → s.initialised = true ∧ s.configured = true
  masterSet : s.masterSet = s.activated
  running : s.activated = true → ∃ running, s.spinner = some running ∧
    s.master = some running ∧ s.exec = some running

/-- A call leaves the getters valid if and only if it is one that keeps them so. -/
def Settles (s : NodeCanopenMaster) (i : Invocation) (s' : NodeCanopenMaster) : Prop :=
  if s.keeps i = true then Sound s' else ¬ Valid s'

section Invariant
variable {s s' : NodeCanopenMaster} {hooks : MasterHooks} {i : Invocation}

theorem run_getMaster : getMaster.run s =
    if s.masterSet then .ok s.master s else .error (some "Get Master: Master is not set.") s := by
  rw [getMaster, EStateM.run_bind, run_ensure]
  cases s.masterSet <;> rfl

theorem run_getExecutor : getExecutor.run s =
    if s.masterSet then .ok s.exec s else .error (some "Get Executor: master is not set") s := by
  rw [getExecutor, EStateM.run_bind, run_ensure]
  cases s.masterSet <;> rfl

theorem Sound.valid (hs : Sound s) : Valid s where
  activated hactivated := by
    obtain ⟨running, hspinner, hmaster, hexec⟩ := hs.running hactivated
    refine ⟨running, hspinner, ?_, ?_⟩
    · rw [run_getMaster, hs.masterSet, hactivated, hmaster]
      rfl
    · rw [run_getExecutor, hs.masterSet, hactivated, hexec]
      rfl
  deactivated hactivated := by
    rw [run_getMaster, run_getExecutor, hs.masterSet, hactivated]
    exact ⟨rfl, rfl⟩

/-- The getters do not throw although the master is not activated. -/
theorem not_valid_of_masterSet (hmaster : s.masterSet = true) (hactivated : s.activated = false) :
    ¬ Valid s := by
  intro hvalid
  have hget := (hvalid.deactivated hactivated).1
  rw [run_getMaster, hmaster] at hget
  cases hget

/-- The loop does not run although the master is activated. -/
theorem not_valid_of_spinner (hspinner : s.spinner = none) (hactivated : s.activated = true) :
    ¬ Valid s := by
  intro hvalid
  obtain ⟨running, hrunning, -⟩ := hvalid.activated hactivated
  rw [hspinner] at hrunning
  cases hrunning

theorem Sound.settles (hs' : Sound s') (hi : s.keeps i = true) : Settles s i s' := by
  rw [Settles, if_pos hi]
  exact hs'

theorem settles_of_not_valid (hs' : ¬ Valid s') (hi : s.keeps i = false) : Settles s i s' := by
  rw [Settles, if_neg (Bool.eq_false_iff.mp hi)]
  exact hs'

theorem Settles.valid_iff (h : Settles s i s') : Valid s' ↔ s.keeps i = true := by
  by_cases hi : s.keeps i = true
  · rw [Settles, if_pos hi] at h
    exact ⟨fun _ => hi, fun _ => h.valid⟩
  · rw [Settles, if_neg hi] at h
    exact ⟨fun hvalid => (h hvalid).elim, fun hkeeps => (hi hkeeps).elim⟩

/-- Nothing but the flags matters of a master that is not activated. -/
theorem sound_of_inactive (hactivated : s.activated = false) (hmaster : s.masterSet = false) :
    Sound s where
  flags h := by simp [hactivated] at h
  masterSet := by rw [hactivated, hmaster]
  running h := by simp [hactivated] at h

theorem Sound.masterSet_of_inactive (hs : Sound s) (hactivated : s.activated = false) :
    s.masterSet = false := by
  rw [hs.masterSet, hactivated]

theorem settles_of_inactive (hi : s.keeps i = true) (hactivated : s'.activated = false)
    (hmaster : s'.masterSet = false) : Settles s i s' :=
  (sound_of_inactive hactivated hmaster).settles hi

theorem Sound.init (hs : Sound s) : Ends (init hooks) (fun _ => Settles s ⟨.init, hooks⟩)
    (fun _ => Settles s ⟨.init, hooks⟩) s := by
  have hsame : Settles s ⟨.init, hooks⟩ s := hs.settles rfl
  refine (ends_ensure_bind _ _ _).mpr ⟨fun _ => ?_, fun _ => hsame⟩
  refine (ends_ensure_bind _ _ _).mpr ⟨fun hactivated => ?_, fun _ => hsame⟩
  have hactivated : s.activated = false := by simpa using hactivated
  have hmaster := hs.masterSet_of_inactive hactivated
  refine (ends_ensure_bind _ _ _).mpr ⟨fun _ => ?_, fun _ => hsame⟩
  refine (ends_modify_bind _ _).mpr ?_
  refine (ends_attempt_bind _ _).mpr ⟨fun _ => ?_, fun _ _ => ?_⟩
  · exact settles_of_inactive (i := ⟨.init, hooks⟩) rfl hactivated hmaster
  · exact settles_of_inactive (i := ⟨.init, hooks⟩) rfl hactivated hmaster

theorem Sound.configure (hs : Sound s) : Ends (configure hooks)
    (fun _ => Settles s ⟨.configure, hooks⟩) (fun _ => Settles s ⟨.configure, hooks⟩) s := by
  have hsame : Settles s ⟨.configure, hooks⟩ s := hs.settles rfl
  refine (ends_ensure_bind _ _ _).mpr ⟨fun _ => ?_, fun _ => hsame⟩
  refine (ends_ensure_bind _ _ _).mpr ⟨fun _ => ?_, fun _ => hsame⟩
  refine (ends_ensure_bind _ _ _).mpr ⟨fun hactivated => ?_, fun _ => hsame⟩
  have hactivated : s.activated = false := by simpa using hactivated
  have hmaster := hs.masterSet_of_inactive hactivated
  refine (ends_attempt_bind _ _).mpr ⟨fun _ => ?_, fun _ _ => hsame⟩
  refine (ends_attempt_bind _ _).mpr ⟨fun _ => ?_, fun _ _ => hsame⟩
  exact settles_of_inactive (i := ⟨.configure, hooks⟩) rfl hactivated hmaster

/-- An `activate` that fails before the master is set leaves a master that is not activated; one
that fails later leaves a master that is set. -/
theorem Sound.activate (hs : Sound s) : Ends (activate hooks)
    (fun _ => Settles s ⟨.activate, hooks⟩) (fun _ => Settles s ⟨.activate, hooks⟩) s := by
  refine (ends_ensure_bind _ _ _).mpr
    ⟨fun hinitialised => ?_, fun h => hs.settles (by simp [keeps, h])⟩
  refine (ends_ensure_bind _ _ _).mpr
    ⟨fun hconfigured => ?_, fun h => hs.settles (by simp [keeps, h])⟩
  refine (ends_ensure_bind _ _ _).mpr ⟨fun hactivated => ?_, fun h => hs.settles ?_⟩
  swap
  · have hactivated : s.activated = true := by simpa using h
    simp [keeps, hactivated]
  have hactivated : s.activated = false := by simpa using hactivated
  have hmaster := hs.masterSet_of_inactive hactivated
  have hearly : ∀ hook ∈ constructing, ∀ e, hooks hook = some e → ∀ s' : NodeCanopenMaster,
      s'.activated = false → s'.masterSet = false → Settles s ⟨.activate, hooks⟩ s' := by
    intro hook hmem e he s' hactivated' hmaster'
    refine settles_of_inactive ?_ hactivated' hmaster'
    simp [keeps, pass_of_throws hmem he]
  refine (ends_attempt_bind _ _).mpr
    ⟨fun hioGuard => ?_, fun e he => hearly _ (by decide) e he _ hactivated hmaster⟩
  refine (ends_attempt_bind _ _).mpr
    ⟨fun hcontext => ?_, fun e he => hearly _ (by decide) e he _ hactivated hmaster⟩
  refine (ends_attempt_bind _ _).mpr
    ⟨fun hpoll => ?_, fun e he => hearly _ (by decide) e he _ hactivated hmaster⟩
  refine (ends_attempt_bind _ _).mpr
    ⟨fun hloop => ?_, fun e he => hearly _ (by decide) e he _ hactivated hmaster⟩
  refine (ends_modify_bind _ _).mpr ?_
  refine (ends_attempt_bind _ _).mpr
    ⟨fun hexecutor => ?_, fun e he => hearly _ (by decide) e he _ hactivated hmaster⟩
  refine (ends_modify_bind _ _).mpr ?_
  refine (ends_attempt_bind _ _).mpr
    ⟨fun htimer => ?_, fun e he => hearly _ (by decide) e he _ hactivated hmaster⟩
  refine (ends_attempt_bind _ _).mpr
    ⟨fun hcontroller => ?_, fun e he => hearly _ (by decide) e he _ hactivated hmaster⟩
  refine (ends_attempt_bind _ _).mpr
    ⟨fun hchannel => ?_, fun e he => hearly _ (by decide) e he _ hactivated hmaster⟩
  refine (ends_attempt_bind _ _).mpr
    ⟨fun hopen => ?_, fun e he => hearly _ (by decide) e he _ hactivated hmaster⟩
  -- the hook of the derived class
  refine (ends_bind _ _).mpr ?_
  refine (ends_attempt_bind _ _).mpr
    ⟨fun hbridge => ?_, fun e he => hearly _ (by decide) e he _ hactivated hmaster⟩
  refine (ends_modify_bind _ _).mpr ?_
  refine (ends_attempt_bind _ _).mpr
    ⟨fun hsetTimeout => ?_, fun e he => hearly _ (by decide) e he _ hactivated hmaster⟩
  refine (ends_modify _).mpr ?_
  refine (ends_ensure_bind _ _ _).mpr ⟨fun _ => ?_, fun h => by cases h⟩
  refine (ends_modify_bind _ _).mpr ?_
  have hpass : pass hooks constructing = true := by
    refine pass_iff.mpr fun hook hmem => ?_
    simp only [constructing, List.mem_cons, List.not_mem_nil, or_false] at hmem
    rcases hmem with rfl | rfl | rfl | rfl | rfl | rfl | rfl | rfl | rfl | rfl | rfl <;> assumption
  have hlate : ∀ hook ∈ [MasterHook.reset, .thread], ∀ e, hooks hook = some e →
      ∀ s' : NodeCanopenMaster, s'.activated = false → s'.masterSet = true →
        Settles s ⟨.activate, hooks⟩ s' := by
    intro hook hmem e he s' hactivated' hmaster'
    refine settles_of_not_valid (not_valid_of_masterSet hmaster' hactivated') ?_
    simp [keeps, hinitialised, hconfigured, hactivated, hpass, pass_of_throws hmem he]
  refine (ends_attempt_bind _ _).mpr
    ⟨fun hreset => ?_, fun e he => hlate _ (by decide) e he _ hactivated rfl⟩
  refine (ends_attempt_bind _ _).mpr
    ⟨fun hthread => ?_, fun e he => hlate _ (by decide) e he _ hactivated rfl⟩
  refine Sound.settles ⟨fun _ => ⟨hinitialised, hconfigured⟩, rfl, fun _ => ⟨s.next, rfl, rfl, rfl⟩⟩
    ?_
  simp [keeps, pass, hreset, hthread]

/-- A `deactivate` leaves a master that is set, or one without a loop. -/
theorem Sound.ends_deactivate (hs : Sound s) : Ends (deactivate hooks)
    (fun _ s' => s.activated = true ∧ hooks .deactivate = none ∧
      s' = { s with spinner := none, masterBridge := none, master := none, activated := false })
    (fun _ s' => s' = s ∧ (s.initialised && s.configured && s.activated) = false ∨
      s.activated = true ∧ hooks .deactivate ≠ none ∧ s' = { s with spinner := none }) s := by
  refine (ends_ensure_bind _ _ _).mpr ⟨fun _ => ?_, fun h => .inl ⟨rfl, by simp [h]⟩⟩
  refine (ends_ensure_bind _ _ _).mpr ⟨fun _ => ?_, fun h => .inl ⟨rfl, by simp [h]⟩⟩
  refine (ends_ensure_bind _ _ _).mpr ⟨fun hactivated => ?_, fun h => .inl ⟨rfl, by simp [h]⟩⟩
  obtain ⟨running, hspinner, -⟩ := hs.running hactivated
  refine (ends_ensure_bind _ _ _).mpr ⟨fun _ => ?_, fun h => by simp [hspinner] at h⟩
  refine (ends_modify_bind _ _).mpr ?_
  refine (ends_bind _ _).mpr ?_
  refine (ends_attempt_bind _ _).mpr ⟨fun hnone => ?_, fun e he => ?_⟩
  · exact ⟨hactivated, hnone, rfl⟩
  · exact .inr ⟨hactivated, by simp [he], rfl⟩

theorem Sound.deactivate (hs : Sound s) : Ends (deactivate hooks)
    (fun _ => Settles s ⟨.deactivate, hooks⟩) (fun _ => Settles s ⟨.deactivate, hooks⟩) s := by
  have hbreaks (hactivated : s.activated = true) : s.keeps ⟨.deactivate, hooks⟩ = false := by
    obtain ⟨hinitialised, hconfigured⟩ := hs.flags hactivated
    simp [keeps, hactivated, hinitialised, hconfigured]
  refine ends_mono ?_ ?_ hs.ends_deactivate
  · rintro _ _ ⟨hactivated, -, rfl⟩
    have hmaster : s.masterSet = true := hs.masterSet.trans hactivated
    exact settles_of_not_valid (not_valid_of_masterSet hmaster rfl) (hbreaks hactivated)
  · rintro _ _ (⟨rfl, hrefused⟩ | ⟨hactivated, -, rfl⟩)
    · exact hs.settles (by simp [keeps, hrefused])
    · exact settles_of_not_valid (not_valid_of_spinner rfl hactivated) (hbreaks hactivated)

/-- What `cleanup` leaves of a master. -/
def cleaned (s : NodeCanopenMaster) : NodeCanopenMaster :=
  { s with loop := none, exec := none, configured := false, masterSet := false }

theorem ends_cleanup : Ends (cleanup hooks)
    (fun _ s' => s.activated = false ∧ hooks .cleanup = none ∧ s' = s.cleaned)
    (fun _ s' => s' = s ∧ ((s.initialised && s.configured && !s.activated) = false ∨
      hooks .cleanup ≠ none)) s := by
  refine (ends_ensure_bind _ _ _).mpr ⟨fun _ => ?_, fun h => ⟨rfl, .inl (by simp [h])⟩⟩
  refine (ends_ensure_bind _ _ _).mpr ⟨fun _ => ?_, fun h => ⟨rfl, .inl (by simp [h])⟩⟩
  refine (ends_ensure_bind _ _ _).mpr
    ⟨fun hactivated => ?_, fun h => ⟨rfl, .inl (by rw [h, Bool.and_false])⟩⟩
  refine (ends_attempt_bind _ _).mpr ⟨fun hnone => ?_, fun e he => ⟨rfl, .inr (by simp [he])⟩⟩
  exact ⟨by simpa using hactivated, hnone, rfl⟩

theorem Sound.cleanup (hs : Sound s) : Ends (cleanup hooks)
    (fun _ => Settles s ⟨.cleanup, hooks⟩) (fun _ => Settles s ⟨.cleanup, hooks⟩) s := by
  refine ends_mono ?_ ?_ ends_cleanup
  · rintro _ _ ⟨hactivated, -, rfl⟩
    exact settles_of_inactive (i := ⟨.cleanup, hooks⟩) rfl hactivated rfl
  · rintro _ _ ⟨rfl, -⟩
    exact hs.settles rfl

/-- The rest of `shutdown` once the master is deactivated. -/
theorem ends_shutdown_inactive (hactivated : s.activated = false) :
    Ends (do
        onlyIf (·.configured) (NodeCanopenMaster.cleanup hooks)
        attempt (hooks .shutdown)
        modify fun s => { s with
          masterSet := false, initialised := false, configured := false, activated := false })
      (fun _ s' => s'.activated = false ∧ s'.masterSet = false ∧
        (s.configured = true → hooks .cleanup = none))
      (fun _ s' => s'.activated = false ∧
        (s'.masterSet = false ∧ (s.configured = true → hooks .cleanup = none) ∨
          s' = s ∧ (s.configured = true → s.initialised = true → hooks .cleanup ≠ none))) s := by
  refine (ends_onlyIf_bind _ _ _).mpr ⟨fun hconfigured => ?_, fun hconfigured => ?_⟩
  · refine (ends_bind _ _).mpr (ends_mono ?_ ?_ ends_cleanup)
    · rintro _ _ ⟨-, hnone, rfl⟩
      refine (ends_attempt_bind _ _).mpr ⟨fun _ => ?_, fun _ _ => ?_⟩
      · exact ⟨rfl, rfl, fun _ => hnone⟩
      · exact ⟨hactivated, .inl ⟨rfl, fun _ => hnone⟩⟩
    · rintro _ _ ⟨rfl, hcause⟩
      refine ⟨hactivated, .inr ⟨rfl, fun _ hinitialised => ?_⟩⟩
      exact hcause.resolve_left (by simp [hinitialised, hconfigured, hactivated])
  · have hnot : s.configured ≠ true := by simp [hconfigured]
    refine (ends_attempt_bind _ _).mpr ⟨fun _ => ?_, fun _ _ => ?_⟩
    · exact ⟨rfl, rfl, fun h => (hnot h).elim⟩
    · exact ⟨hactivated, .inr ⟨rfl, fun h => (hnot h).elim⟩⟩

/-- A `shutdown` that throws on its way to a cleaned-up master leaves one that is set, or one
without a loop. -/
theorem Sound.shutdown (hs : Sound s) : Ends (shutdown hooks)
    (fun _ => Settles s ⟨.shutdown, hooks⟩) (fun _ => Settles s ⟨.shutdown, hooks⟩) s := by
  refine (ends_onlyIf_bind _ _ _).mpr ⟨fun hactivated => ?_, fun hactivated => ?_⟩
  · obtain ⟨hinitialised, hconfigured⟩ := hs.flags hactivated
    have hbreaks : ∀ hook ∈ [MasterHook.deactivate, .cleanup], ∀ e, hooks hook = some e →
        s.keeps ⟨.shutdown, hooks⟩ = false := by
      intro hook hmem e he
      simp [keeps, hactivated, pass_of_throws hmem he]
    refine (ends_bind _ _).mpr (ends_mono ?_ ?_ hs.ends_deactivate)
    · rintro _ s₁ ⟨-, hdeactivate, hs₁⟩
      have hinactive : s₁.activated = false := by rw [hs₁]
      have hkeeps (hnone : s₁.configured = true → hooks .cleanup = none) :
          s.keeps ⟨.shutdown, hooks⟩ = true := by
        have hcleanup : hooks .cleanup = none := hnone (by rw [hs₁]; exact hconfigured)
        simp [keeps, pass, hdeactivate, hcleanup]
      refine ends_mono ?_ ?_ (ends_shutdown_inactive hinactive)
      · rintro _ s' ⟨hactivated', hmaster', hnone⟩
        exact settles_of_inactive (hkeeps hnone) hactivated' hmaster'
      · rintro _ s' ⟨hactivated', ⟨hmaster', hnone⟩ | ⟨rfl, hthrows⟩⟩
        · exact settles_of_inactive (hkeeps hnone) hactivated' hmaster'
        · have hmaster : s'.masterSet = true := by
            rw [hs₁]
            exact hs.masterSet.trans hactivated
          rw [hs₁] at hthrows
          obtain ⟨e, he⟩ := Option.ne_none_iff_exists'.mp (hthrows hconfigured hinitialised)
          exact settles_of_not_valid (not_valid_of_masterSet hmaster hactivated')
            (hbreaks _ (by decide) e he)
    · rintro _ _ (⟨-, hrefused⟩ | ⟨-, hthrows, rfl⟩)
      · simp [hinitialised, hconfigured, hactivated] at hrefused
      · obtain ⟨e, he⟩ := Option.ne_none_iff_exists'.mp hthrows
        exact settles_of_not_valid (not_valid_of_spinner rfl hactivated)
          (hbreaks _ (by decide) e he)
  · have hkeeps : s.keeps ⟨.shutdown, hooks⟩ = true := by simp [keeps, hactivated]
    refine ends_mono ?_ ?_ (ends_shutdown_inactive hactivated)
    · rintro _ s' ⟨hactivated', hmaster', -⟩
      exact settles_of_inactive hkeeps hactivated' hmaster'
    · rintro _ s' ⟨hactivated', ⟨hmaster', -⟩ | ⟨rfl, -⟩⟩
      · exact settles_of_inactive hkeeps hactivated' hmaster'
      · exact hs.settles hkeeps

/-- Every call leaves the getters valid if and only if it is one that keeps them so. -/
theorem Sound.perform (hs : Sound s) (i : Invocation) :
    Ends (perform i) (fun _ => Settles s i) (fun _ => Settles s i) s := by
  obtain ⟨operation, hooks⟩ := i
  cases operation with
  | init => exact hs.init
  | configure => exact hs.configure
  | activate => exact hs.activate
  | deactivate => exact hs.deactivate
  | cleanup => exact hs.cleanup
  | shutdown => exact hs.shutdown

theorem sound_of_reach {h : List (CallEnd Invocation MasterFailure)}
    (hr : Reach system heeded h s) : Sound s := by
  refine Reach.of_ends (I := fun _ s => Sound s) ?_ ?_ hr
  · rintro _ rfl
    exact sound_of_inactive rfl rfl
  · intro h s i hs hok
    have hsettled (s' : NodeCanopenMaster) (hs' : Settles s i s') : Sound s' := by
      rw [Settles] at hs'
      exact (if_pos hok).mp hs'
    exact ends_mono (fun _ => hsettled) (fun _ => hsettled) (hs.perform i)

/-- What the container hands to a driver runs, if the getters are valid. -/
theorem Valid.handed (hs : Valid s) (r : Registry) (setMaster : Option String)
    {nodeId id : BitVec 16} {exec master : Option ℕ}
    (hmem : .handed id exec master ∈ (r.initDriver nodeId (s.answer setMaster)).2) :
    ∃ running, s.spinner = some running ∧ exec = some running ∧ master = some running := by
  cases hactivated : s.activated with
  | false =>
      obtain ⟨hmaster, hexec⟩ := hs.deactivated hactivated
      have hanswer : s.answer setMaster = ⟨.error "Get Executor: master is not set",
          .error "Get Master: Master is not set.", setMaster⟩ := by
        simp [answer, ask, hmaster, hexec]
      rw [hanswer, Registry.initDriver, Registry.handMaster] at hmem
      cases hcan : r.container.canMaster <;> simp [hcan, Registry.crash] at hmem
  | true =>
      obtain ⟨running, hspinner, hmaster, hexec⟩ := hs.activated hactivated
      have hanswer : s.answer setMaster = ⟨.ok (some running), .ok (some running), setMaster⟩ := by
        simp [answer, ask, hmaster, hexec]
      refine ⟨running, hspinner, ?_⟩
      rw [hanswer, Registry.initDriver, Registry.handMaster] at hmem
      cases hcan : r.container.canMaster with
      | none => simp [hcan, Registry.crash] at hmem
      | some m =>
          cases hdriver : r.container.registeredDrivers nodeId with
          | none => simp [hcan, hdriver, Registry.crash] at hmem
          | some d =>
              cases setMaster <;> simp [hcan, hdriver] at hmem <;> exact hmem.2

end Invariant

/-- **The handle of the master.**  Along every run whose calls keep the getters valid, they are
valid in every state, and so is what the container hands to a driver; and a call leaves them
valid only if it is one of these. -/
theorem handle_valid {h : List (CallEnd Invocation MasterFailure)} {s : NodeCanopenMaster}
    (hr : Reach system heeded h s) :
    Valid s ∧
      (∀ (r : Registry) nodeId setMaster id exec master,
        .handed id exec master ∈ (r.initDriver nodeId (s.answer setMaster)).2 →
          ∃ running, s.spinner = some running ∧ exec = some running ∧ master = some running) ∧
      ∀ i s' es, system.step s i = some (s', es) → (Valid s' ↔ heeded h s i) := by
  have hs := sound_of_reach hr
  refine ⟨hs.valid, ?_, ?_⟩
  · intro r nodeId setMaster id exec master hmem
    exact hs.valid.handed r setMaster hmem
  · intro i s' es hstep
    have hends := hs.perform i
    simp only [system, System.ofCalls] at hstep
    cases hrun : (perform i).run s with
    | ok a s₁ =>
        rw [hrun] at hstep
        cases hstep
        exact (hends.ok hrun).valid_iff
    | error e s₁ =>
        rw [hrun] at hstep
        cases hstep
        exact (hends.error hrun).valid_iff

/-- No call throws. -/
def quiet : MasterHooks := fun _ => none

/-- A master that is activated. -/
def activating : List Invocation := [⟨.init, quiet⟩, ⟨.configure, quiet⟩, ⟨.activate, quiet⟩]

/-- A master that is activated, shut down with its last hook throwing, and shut down again. -/
theorem handle_valid_shutdown : ∃ h s, Reach system heeded h s ∧ h.length = 5 ∧ Valid s := by
  let failing : MasterHooks := fun hook => if hook = .shutdown then some none else none
  have hrun : (system.runIf (fun _ s i => s.keeps i)
      (List.flatten [activating, [⟨.shutdown, failing⟩, ⟨.shutdown, quiet⟩]]) []
      constructed).any (fun p => decide (p.1.length = 5)) = true := by
    decide +kernel
  obtain ⟨h, s, hr, hlength⟩ : ∃ h s, Reach system heeded h s ∧ _ :=
    System.exists_reach_runIf _ (.init rfl) (fun _ _ _ hok => hok) hrun
  exact ⟨h, s, hr, of_decide_eq_true hlength, (handle_valid hr).1⟩

/-- A master that is activated and deactivated hands out a null pointer and an executor without
a loop. -/
theorem handle_deactivated : ∃ h s, Reach system Guard.free h s ∧ s.activated = false ∧
    s.spinner = none ∧ getMaster.run s = .ok none s ∧ getExecutor.run s = .ok (some 0) s ∧
    ¬ Valid s := by
  have hrun : ∃ p, system.run (List.flatten [activating, [⟨.deactivate, quiet⟩]]) [] constructed =
      some p ∧ p.2.activated = false ∧ p.2.spinner = none ∧ p.2.masterSet = true ∧
        p.2.master = none ∧ p.2.exec = some 0 := ⟨_, rfl, rfl, rfl, rfl, rfl, rfl⟩
  obtain ⟨⟨h, s⟩, hrun, hactivated, hspinner, hset, hmaster, hexec⟩ := hrun
  refine ⟨h, s, system.reach_run _ (.init rfl) hrun, hactivated, hspinner, ?_, ?_,
    not_valid_of_masterSet hset hactivated⟩
  · rw [run_getMaster, hset, hmaster]
    rfl
  · rw [run_getExecutor, hset, hexec]
    rfl

end NodeCanopenMaster
end RosCanopen.Core
