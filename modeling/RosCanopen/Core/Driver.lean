import RosCanopen.Lib.Throws

/-!
# The life cycle of a driver

`NodeCanopenDriver` takes a driver through its life cycle: each function checks the four flags,
calls the functions that derived classes override, and sets or clears the flags.  Any of the
overridden functions may throw, but for `cleanup(bool)`, which is that of this class.

## Main definitions

* `NodeCanopenDriver` — the flags, and the pointers to the master.
* `NodeCanopenDriver.perform`, `NodeCanopenDriver.system` — the functions, in any order.
* `NodeCanopenDriver.Ordered` — which flags imply which.
-/

namespace RosCanopen.Core

open Lib

/-- What a function of the driver calls and may be left by; `readParameters` is the reading of
the parameters and of `config` in `configure`. -/
inductive DriverHook
  | init
  | readParameters
  | configure
  | addToMaster
  | activate
  | removeFromMaster
  | deactivate
  | shutdown
  deriving DecidableEq

/-- `DriverException` with its text, or any other exception. -/
abbrev DriverFailure := Option String

/-- What each of them throws, if it does. -/
abbrev DriverHooks := DriverHook → Option DriverFailure

/-- The driver, with its pointers to executors `E` and masters `M`. -/
structure NodeCanopenDriver (E M : Type) where
  /-- The parameters of the node have been declared. -/
  declared : Bool
  masterSet : Bool
  initialised : Bool
  configured : Bool
  activated : Bool
  exec : Option E
  master : Option M

namespace NodeCanopenDriver
variable {E M : Type}

inductive Operation (E M : Type)
  | init
  | configure
  | setMaster (exec : Option E) (master : Option M)
  | activate
  | deactivate
  | cleanup
  | shutdown

/-- A call, with the exceptions of what it calls. -/
structure Invocation (E M : Type) where
  operation : Operation E M
  hooks : DriverHooks

/-- A function of the driver. -/
abbrev Method (E M α : Type) := EStateM DriverFailure (NodeCanopenDriver E M) α

def setMaster (exec : Option E) (master : Option M) : Method E M Unit := do
  ensure (·.configured) (some "Set Master: driver is not configured")
  ensure (!·.activated) (some "Set Master: driver is not activated")
  modify fun s => { s with exec, master, masterSet := true }

def init (hooks : DriverHooks) : Method E M Unit := do
  ensure (!·.configured) (some "Init: Driver is already configured")
  ensure (!·.activated) (some "Init: Driver is already activated")
  -- a parameter cannot be declared twice
  ensure (!·.declared) none
  modify fun s => { s with declared := true }
  attempt (hooks .init)
  modify fun s => { s with initialised := true }

def configure (hooks : DriverHooks) : Method E M Unit := do
  ensure (·.initialised) (some "Configure: driver is not initialised")
  ensure (!·.configured) (some "Configure: driver is already configured")
  ensure (!·.activated) (some "Configure: driver is already activated")
  attempt (hooks .readParameters)
  attempt (hooks .configure)
  modify fun s => { s with configured := true }

def activate (hooks : DriverHooks) : Method E M Unit := do
  ensure (·.masterSet) (some "Activate: master is not set")
  ensure (·.initialised) (some "Activate: driver is not initialised")
  ensure (·.configured) (some "Activate: driver is not configured")
  ensure (!·.activated) (some "Activate: driver is already activated")
  attempt (hooks .addToMaster)
  attempt (hooks .activate)
  modify fun s => { s with activated := true }

def deactivate (hooks : DriverHooks) : Method E M Unit := do
  ensure (·.masterSet) (some "Activate: master is not set")
  ensure (·.initialised) (some "Deactivate: driver is not initialised")
  ensure (·.configured) (some "Deactivate: driver is not configured")
  ensure (·.activated) (some "Deactivate: driver is not activated")
  modify fun s => { s with activated := false }
  attempt (hooks .removeFromMaster)
  attempt (hooks .deactivate)

/-- The hook `cleanup(bool)`. -/
def cleanupHook : Method E M Unit :=
  modify fun s => { s with exec := none, master := none, masterSet := false }

def cleanup : Method E M Unit := do
  ensure (·.initialised) (some "Cleanup: driver is not initialised")
  ensure (·.configured) (some "Cleanup: driver is not configured")
  ensure (!·.activated) (some "Cleanup: driver is still activated")
  cleanupHook
  modify fun s => { s with configured := false }

def shutdown (hooks : DriverHooks) : Method E M Unit := do
  onlyIf (·.activated) (deactivate hooks)
  onlyIf (·.configured) cleanup
  attempt (hooks .shutdown)
  modify fun s =>
    { s with masterSet := false, initialised := false, configured := false, activated := false }

def perform (i : Invocation E M) : Method E M Unit :=
  match i.operation with
  | .init => init i.hooks
  | .configure => configure i.hooks
  | .setMaster exec master => setMaster exec master
  | .activate => activate i.hooks
  | .deactivate => deactivate i.hooks
  | .cleanup => cleanup
  | .shutdown => shutdown i.hooks

/-- The state after the constructor. -/
def constructed : NodeCanopenDriver E M where
  declared := false
  masterSet := false
  initialised := false
  configured := false
  activated := false
  exec := none
  master := none

/-- A driver from its construction. -/
def system (E M : Type) : System (NodeCanopenDriver E M) (Invocation E M)
    (CallEnd (Invocation E M) DriverFailure) :=
  .ofCalls (· = constructed) perform

/-! ## What the flags say -/

inductive Flag
  | masterSet
  | initialised
  | configured
  | activated
  deriving DecidableEq

def flag (s : NodeCanopenDriver E M) : Flag → Bool
  | .masterSet => s.masterSet
  | .initialised => s.initialised
  | .configured => s.configured
  | .activated => s.activated

/-- The pointers that the call gives to the driver. -/
def Operation.given : Operation E M → Option (Option E × Option M)
  | .setMaster exec master => some (exec, master)
  | _ => none

/-- The arguments of the last `set_master` that returned. -/
def lastGiven : List (CallEnd (Invocation E M) DriverFailure) → Option (Option E × Option M)
  | [] => none
  | .returned i :: h => i.operation.given.or (lastGiven h)
  | .threw _ _ :: h => lastGiven h

/-- Which flags imply which, and whose the pointers are. -/
structure Ordered (given : Option (Option E × Option M)) (s : NodeCanopenDriver E M) : Prop where
  activated : s.activated = true →
    s.configured = true ∧ s.initialised = true ∧ s.masterSet = true
  masterSet : s.masterSet = true → s.configured = true ∧ given = some (s.exec, s.master)
  configured : s.configured = true → s.initialised = true

/-- The call comes before one that it depends on, or once too often. -/
def untimely (s : NodeCanopenDriver E M) : Operation E M → Bool
  | .configure => !s.initialised || s.configured
  | .setMaster _ _ => !s.configured || s.activated
  | .activate => !s.masterSet || s.activated
  | .deactivate => !s.activated
  | .cleanup => !s.configured || s.activated
  | .init | .shutdown => false

/-! ## The functions one by one -/

section Specs
variable (hooks : DriverHooks) (s : NodeCanopenDriver E M)

theorem ends_setMaster (exec : Option E) (master : Option M) :
    Ends (setMaster exec master)
      (fun _ s' => s.configured = true ∧ s.activated = false ∧
        s' = { s with exec, master, masterSet := true })
      (fun _ s' => s' = s) s := by
  refine (ends_ensure_bind _ _ _).mpr ⟨fun hconfigured => ?_, fun _ => rfl⟩
  refine (ends_ensure_bind _ _ _).mpr ⟨fun hactivated => ?_, fun _ => rfl⟩
  exact ⟨hconfigured, by simpa using hactivated, rfl⟩

theorem ends_init :
    Ends (init hooks)
      (fun _ s' => s.configured = false ∧ s.activated = false ∧
        s' = { s with declared := true, initialised := true })
      (fun _ s' => s' = s ∨ s' = { s with declared := true }) s := by
  refine (ends_ensure_bind _ _ _).mpr ⟨fun hconfigured => ?_, fun _ => .inl rfl⟩
  refine (ends_ensure_bind _ _ _).mpr ⟨fun hactivated => ?_, fun _ => .inl rfl⟩
  refine (ends_ensure_bind _ _ _).mpr ⟨fun _ => ?_, fun _ => .inl rfl⟩
  refine (ends_modify_bind _ _).mpr ?_
  refine (ends_attempt_bind _ _).mpr ⟨fun _ => ?_, fun _ _ => .inr rfl⟩
  exact ⟨by simpa using hconfigured, by simpa using hactivated, rfl⟩

theorem ends_configure :
    Ends (configure hooks)
      (fun _ s' => s.initialised = true ∧ s.configured = false ∧ s.activated = false ∧
        s' = { s with configured := true })
      (fun _ s' => s' = s) s := by
  refine (ends_ensure_bind _ _ _).mpr ⟨fun hinitialised => ?_, fun _ => rfl⟩
  refine (ends_ensure_bind _ _ _).mpr ⟨fun hconfigured => ?_, fun _ => rfl⟩
  refine (ends_ensure_bind _ _ _).mpr ⟨fun hactivated => ?_, fun _ => rfl⟩
  refine (ends_attempt_bind _ _).mpr ⟨fun _ => ?_, fun _ _ => rfl⟩
  refine (ends_attempt_bind _ _).mpr ⟨fun _ => ?_, fun _ _ => rfl⟩
  exact ⟨hinitialised, by simpa using hconfigured, by simpa using hactivated, rfl⟩

theorem ends_activate :
    Ends (activate hooks)
      (fun _ s' => s.masterSet = true ∧ s.initialised = true ∧ s.configured = true ∧
        s.activated = false ∧ s' = { s with activated := true })
      (fun _ s' => s' = s) s := by
  refine (ends_ensure_bind _ _ _).mpr ⟨fun hmaster => ?_, fun _ => rfl⟩
  refine (ends_ensure_bind _ _ _).mpr ⟨fun hinitialised => ?_, fun _ => rfl⟩
  refine (ends_ensure_bind _ _ _).mpr ⟨fun hconfigured => ?_, fun _ => rfl⟩
  refine (ends_ensure_bind _ _ _).mpr ⟨fun hactivated => ?_, fun _ => rfl⟩
  refine (ends_attempt_bind _ _).mpr ⟨fun _ => ?_, fun _ _ => rfl⟩
  refine (ends_attempt_bind _ _).mpr ⟨fun _ => ?_, fun _ _ => rfl⟩
  exact ⟨hmaster, hinitialised, hconfigured, by simpa using hactivated, rfl⟩

/-- A `deactivate` that gets past its checks clears its flag, even if it throws. -/
theorem ends_deactivate :
    Ends (deactivate hooks)
      (fun _ s' => s.activated = true ∧ s' = { s with activated := false })
      (fun _ s' => s' = s ∨ s.activated = true ∧ s' = { s with activated := false }) s := by
  refine (ends_ensure_bind _ _ _).mpr ⟨fun _ => ?_, fun _ => .inl rfl⟩
  refine (ends_ensure_bind _ _ _).mpr ⟨fun _ => ?_, fun _ => .inl rfl⟩
  refine (ends_ensure_bind _ _ _).mpr ⟨fun _ => ?_, fun _ => .inl rfl⟩
  refine (ends_ensure_bind _ _ _).mpr ⟨fun hactivated => ?_, fun _ => .inl rfl⟩
  refine (ends_modify_bind _ _).mpr ?_
  refine (ends_attempt_bind _ _).mpr ⟨fun _ => ?_, fun _ _ => .inr ⟨hactivated, rfl⟩⟩
  exact (ends_attempt _).mpr
    ⟨fun _ => ⟨hactivated, rfl⟩, fun _ _ => .inr ⟨hactivated, rfl⟩⟩

/-- What `cleanup` leaves of a driver. -/
def cleaned (s : NodeCanopenDriver E M) : NodeCanopenDriver E M :=
  { s with exec := none, master := none, masterSet := false, configured := false }

theorem ends_cleanup :
    Ends cleanup
      (fun _ s' => s.configured = true ∧ s.activated = false ∧ s' = s.cleaned)
      (fun _ s' => s' = s) s := by
  refine (ends_ensure_bind _ _ _).mpr ⟨fun _ => ?_, fun _ => rfl⟩
  refine (ends_ensure_bind _ _ _).mpr ⟨fun hconfigured => ?_, fun _ => rfl⟩
  refine (ends_ensure_bind _ _ _).mpr ⟨fun hactivated => ?_, fun _ => rfl⟩
  exact ⟨hconfigured, by simpa using hactivated, rfl⟩

/-- The rest of `shutdown` once the driver is deactivated. -/
theorem ends_shutdown_inactive :
    Ends (do
        onlyIf (·.configured) cleanup
        attempt (hooks .shutdown)
        modify fun s => { s with
          masterSet := false, initialised := false, configured := false, activated := false })
      (fun _ s' => ∀ f, s'.flag f = false)
      (fun _ s' => s' = s ∨ s.activated = false ∧ s' = s.cleaned) s := by
  refine (ends_onlyIf_bind _ _ _).mpr ⟨fun _ => ?_, fun _ => ?_⟩
  · refine (ends_bind _ _).mpr (ends_mono ?_ ?_ (ends_cleanup s))
    · rintro _ _ ⟨-, hactivated, rfl⟩
      refine (ends_attempt_bind _ _).mpr ⟨fun _ f => ?_, fun _ _ => .inr ⟨hactivated, rfl⟩⟩
      cases f <;> rfl
    · exact fun _ _ h => .inl h
  · refine (ends_attempt_bind _ _).mpr ⟨fun _ f => ?_, fun _ _ => .inl rfl⟩
    cases f <;> rfl

/-- A `shutdown` that throws may have deactivated the driver, and then have cleaned it up. -/
theorem ends_shutdown :
    Ends (shutdown hooks)
      (fun _ s' => ∀ f, s'.flag f = false)
      (fun _ s' => ∃ s₁, (s₁ = s ∨ s.activated = true ∧ s₁ = { s with activated := false }) ∧
        (s' = s₁ ∨ s₁.activated = false ∧ s' = s₁.cleaned)) s := by
  refine (ends_onlyIf_bind _ _ _).mpr ⟨fun _ => ?_, fun _ => ?_⟩
  · refine (ends_bind _ _).mpr (ends_mono ?_ ?_ (ends_deactivate hooks s))
    · rintro _ s₁ ⟨hactivated, rfl⟩
      exact ends_mono (fun _ _ h => h) (fun _ _ h => ⟨_, .inr ⟨hactivated, rfl⟩, h⟩)
        (ends_shutdown_inactive hooks _)
    · exact fun _ s₁ h => ⟨s₁, h, .inl rfl⟩
  · exact ends_mono (fun _ _ h => h) (fun _ _ h => ⟨s, .inl rfl, h⟩)
      (ends_shutdown_inactive hooks s)

end Specs

/-! ## The invariant -/

section Invariant
variable {given : Option (Option E × Option M)} {s s' : NodeCanopenDriver E M}

theorem ordered_constructed : Ordered (E := E) (M := M) none constructed where
  activated h := by cases h
  masterSet h := by cases h
  configured h := by cases h

theorem Ordered.deactivated (hs : Ordered given s) :
    Ordered given { s with activated := false } :=
  { hs with activated := fun h => by cases h }

/-- Without the master, nothing is said about the pointers any more. -/
theorem ordered_cleaned (hactivated : s.activated = false) : Ordered given s.cleaned where
  activated h := by
    have hset : s.activated = true := h
    simp [hactivated] at hset
  masterSet h := by cases h
  configured h := by cases h

/-- No flag is set, and nothing but flags is looked at. -/
theorem ordered_of_clear (hs : ∀ f, s.flag f = false) : Ordered given s where
  activated h := by
    have hclear : s.activated = false := hs .activated
    simp [hclear] at h
  masterSet h := by
    have hclear : s.masterSet = false := hs .masterSet
    simp [hclear] at h
  configured h := by
    have hclear : s.configured = false := hs .configured
    simp [hclear] at h

theorem flag_cleaned {f : Flag} (h : s.cleaned.flag f = true) : s.flag f = true := by
  cases f with
  | masterSet | configured => cases h
  | initialised | activated => exact h

theorem flag_deactivated {f : Flag} (h : flag { s with activated := false } f = true) :
    s.flag f = true := by
  cases f with
  | activated => cases h
  | masterSet | initialised | configured => exact h

/-- **Every call keeps the order of the flags**, and a call that throws sets none. -/
theorem ends_perform (hs : Ordered given s) (i : Invocation E M) :
    Ends (perform i)
      (fun _ s' => Ordered (i.operation.given.or given) s')
      (fun _ s' => Ordered given s' ∧ ∀ f, s'.flag f = true → s.flag f = true) s := by
  have hsame : ∀ e : DriverFailure, ∀ s', s' = s →
      Ordered given s' ∧ ∀ f, s'.flag f = true → s.flag f = true := by
    rintro _ _ rfl
    exact ⟨hs, fun _ h => h⟩
  obtain ⟨operation, hooks⟩ := i
  cases operation with
  | init =>
      refine ends_mono ?_ ?_ (ends_init hooks s)
      · rintro _ _ ⟨hconfigured, hactivated, rfl⟩
        exact ⟨fun h => ⟨(hs.activated h).1, rfl, (hs.activated h).2.2⟩, hs.masterSet, fun _ => rfl⟩
      · rintro e s' (heq | rfl)
        · exact hsame e s' heq
        · exact ⟨⟨hs.activated, hs.masterSet, hs.configured⟩, fun f h => by cases f <;> exact h⟩
  | configure =>
      refine ends_mono ?_ hsame (ends_configure hooks s)
      rintro _ _ ⟨hinitialised, hconfigured, hactivated, rfl⟩
      refine ⟨fun h => ?_, fun h => ?_, fun _ => hinitialised⟩
      · have hset : s.activated = true := h
        simp [hactivated] at hset
      · exact ⟨rfl, (hs.masterSet h).2⟩
  | setMaster exec master =>
      refine ends_mono ?_ hsame (ends_setMaster s exec master)
      rintro _ _ ⟨hconfigured, hactivated, rfl⟩
      refine ⟨fun h => ?_, fun _ => ⟨hconfigured, rfl⟩, hs.configured⟩
      have hset : s.activated = true := h
      simp [hactivated] at hset
  | activate =>
      refine ends_mono ?_ hsame (ends_activate hooks s)
      rintro _ _ ⟨hmaster, hinitialised, hconfigured, -, rfl⟩
      exact ⟨fun _ => ⟨hconfigured, hinitialised, hmaster⟩, hs.masterSet, hs.configured⟩
  | deactivate =>
      refine ends_mono ?_ ?_ (ends_deactivate hooks s)
      · rintro _ _ ⟨-, rfl⟩
        exact hs.deactivated
      · rintro e s' (heq | ⟨-, rfl⟩)
        · exact hsame e s' heq
        · exact ⟨hs.deactivated, fun _ h => flag_deactivated h⟩
  | cleanup =>
      refine ends_mono ?_ hsame (ends_cleanup s)
      rintro _ _ ⟨-, hactivated, rfl⟩
      exact ordered_cleaned hactivated
  | shutdown =>
      refine ends_mono ?_ ?_ (ends_shutdown hooks s)
      · exact fun _ s' hclear => ordered_of_clear hclear
      · rintro e s' ⟨s₁, hs₁, hs'⟩
        have hkept : Ordered given s₁ ∧ ∀ f, s₁.flag f = true → s.flag f = true := by
          rcases hs₁ with heq | ⟨-, rfl⟩
          · exact hsame e s₁ heq
          · exact ⟨hs.deactivated, fun _ h => flag_deactivated h⟩
        rcases hs' with rfl | ⟨hactivated, rfl⟩
        · exact hkept
        · exact ⟨ordered_cleaned hactivated, fun f h => hkept.2 f (flag_cleaned h)⟩

/-- A call that comes too early, or once too often, throws and changes no flag. -/
theorem ends_untimely (i : Invocation E M) (hi : s.untimely i.operation = true) :
    Ends (perform i) (fun _ _ => False) (fun _ s' => ∀ f, s'.flag f = s.flag f) s := by
  have hsame : ∀ e : DriverFailure, ∀ s', s' = s → ∀ f, s'.flag f = s.flag f := by
    rintro _ _ rfl f
    rfl
  obtain ⟨operation, hooks⟩ := i
  cases operation with
  | init => cases hi
  | shutdown => cases hi
  | configure =>
      refine ends_mono ?_ hsame (ends_configure hooks s)
      rintro _ _ ⟨hinitialised, hconfigured, -⟩
      simp [untimely, hinitialised, hconfigured] at hi
  | setMaster exec master =>
      refine ends_mono ?_ hsame (ends_setMaster s exec master)
      rintro _ _ ⟨hconfigured, hactivated, -⟩
      simp [untimely, hconfigured, hactivated] at hi
  | activate =>
      refine ends_mono ?_ hsame (ends_activate hooks s)
      rintro _ _ ⟨hmaster, -, -, hactivated, -⟩
      simp [untimely, hmaster, hactivated] at hi
  | deactivate =>
      refine ends_mono ?_ ?_ (ends_deactivate hooks s)
      · rintro _ _ ⟨hactivated, -⟩
        simp [untimely, hactivated] at hi
      · rintro e s' (heq | ⟨hactivated, -⟩)
        · exact hsame e s' heq
        · simp [untimely, hactivated] at hi
  | cleanup =>
      refine ends_mono ?_ hsame (ends_cleanup s)
      rintro _ _ ⟨hconfigured, hactivated, -⟩
      simp [untimely, hconfigured, hactivated] at hi

/-- The flags are in order along every run. -/
theorem ordered_of_reach {h : List (CallEnd (Invocation E M) DriverFailure)}
    (hr : Reach (system E M) Guard.free h s) : Ordered (lastGiven h) s := by
  refine Reach.of_ends (I := fun h s => Ordered (lastGiven h) s) ?_ ?_ hr
  · rintro _ rfl
    exact ordered_constructed
  · intro h s i hs _
    exact ends_mono (fun _ _ hs' => hs') (fun _ _ hs' => hs'.1) (ends_perform hs i)

end Invariant

/-- **The flags of a driver.**  In every state that a sequence of calls can reach, whichever of
them threw, the flags are in order; a call out of order throws and changes no flag; a call that
throws sets no flag; and a `shutdown` that returns leaves all flags clear, from any state. -/
theorem flags_ordered {h : List (CallEnd (Invocation E M) DriverFailure)}
    {s : NodeCanopenDriver E M} (hr : Reach (system E M) Guard.free h s) :
    Ordered (lastGiven h) s ∧
      (∀ i, s.untimely i.operation = true →
        ∃ e s', (perform i).run s = .error e s' ∧ ∀ f, s'.flag f = s.flag f) ∧
      (∀ i e s', (perform i).run s = .error e s' → ∀ f, s'.flag f = true → s.flag f = true) ∧
      ∀ (s₀ : NodeCanopenDriver E M) hooks s', (shutdown hooks).run s₀ = .ok () s' →
        ∀ f, s'.flag f = false := by
  have hs := ordered_of_reach hr
  refine ⟨hs, ?_, ?_, ?_⟩
  · intro i hi
    have hends := ends_untimely i hi
    cases hrun : (perform i).run s with
    | ok a s' => exact (hends.ok hrun).elim
    | error e s' => exact ⟨e, s', rfl, hends.error hrun⟩
  · exact fun i e s' hrun => ((ends_perform hs i).error hrun).2
  · exact fun s₀ hooks s' hrun => (ends_shutdown hooks s₀).ok hrun

/-- A driver that is activated, shut down with a hook that throws, and shut down again. -/
theorem flags_ordered_shutdown :
    ∃ h, ∃ s : NodeCanopenDriver ℕ ℕ, Reach (system ℕ ℕ) Guard.free h s ∧ h.length = 6 ∧
      Ordered (lastGiven h) s := by
  let quiet : DriverHooks := fun _ => none
  let failing : DriverHooks := fun hook => if hook = .deactivate then some none else none
  have hrun : ∃ p, (system ℕ ℕ).run [⟨.init, quiet⟩, ⟨.configure, quiet⟩,
      ⟨.setMaster (some 1) (some 2), quiet⟩, ⟨.activate, quiet⟩, ⟨.shutdown, failing⟩,
      ⟨.shutdown, quiet⟩] [] constructed = some p ∧ p.1.length = 6 := ⟨_, rfl, rfl⟩
  obtain ⟨⟨h, s⟩, hrun, hlength⟩ := hrun
  have hr : Reach (system ℕ ℕ) Guard.free h s := (system ℕ ℕ).reach_run _ (.init rfl) hrun
  exact ⟨h, s, hr, hlength, (flags_ordered hr).1⟩

end NodeCanopenDriver
end RosCanopen.Core
