import RosCanopen.Lib.System

/-!
# Waiting for the boot of a device

`OnBoot` runs on the event loop of the master and reports how a boot attempt has ended;
`wait_for_boot` runs on any other thread and waits for that report.  The flag is tested
before the mutex is taken and the wait has no predicate, so a report that comes before the
wait does not end it, and a wait that ends does not mean that there is a report.

## Main definitions

* `Boot.State`, `Boot.system` — the calls and callbacks, in any order of their steps.
* `Boot.Attributed` — each outcome of `wait_for_boot` is backed by a report.
* `Boot.orderly` — the steps that neither lose nor misattribute a report.
-/

namespace RosCanopen.Bridge.Boot

open Lib

/-- The error status of a boot attempt, a character. -/
abbrev Status := BitVec 8

namespace Status

abbrev ok : Status := 0

/-- `LelyBridgeErrc::NmtSlaveInitiallyOperational`, `'L'`. -/
abbrev initiallyOperational : Status := 0x4C

end Status

/-- The statuses that `wait_for_boot` takes for success. -/
def accepted (es : Status) : Bool := es = Status.ok || es = Status.initiallyOperational

theorem accepted_iff {es : Status} :
    accepted es = true ↔ es = Status.ok ∨ es = Status.initiallyOperational := by
  rw [accepted, Bool.or_eq_true, decide_eq_true_iff, decide_eq_true_iff]

/-- The program points of `wait_for_boot`. -/
inductive Code
  | check
  | lock
  /-- With the mutex taken, about to wait. -/
  | wait
  | blocked
  | notified
  /-- Woken without a notification. -/
  | awake (timedOut : Bool)
  | test (timedOut : Bool)
  | store
  | done
  deriving DecidableEq

/-- The program points of `OnBoot`. -/
inductive Callback
  | entered (es : Status)
  | announced (es : Status)
  deriving DecidableEq

inductive Event
  /-- `OnBoot` has been called. -/
  | onBoot (es : Status)
  /-- `OnBoot` has stored its status and notified. -/
  | posted
  /-- `Boot()` has begun an attempt. -/
  | restarted
  /-- The time of a call has run out. -/
  | expired (call : ℕ)
  /-- "Boot Timeout" -/
  | timeout (call : ℕ)
  /-- "Boot Issue" -/
  | issue (call : ℕ) (es : Status)
  | returned (call : ℕ)
  deriving DecidableEq

structure State where
  booted : Bool
  bootStatus : Status
  /-- `boot_mtex` is taken. -/
  locked : Bool
  callback : Option Callback
  /-- The calls of `Boot()` that have cleared the flag and not begun their attempt. -/
  restarting : ℕ
  /-- The calls of `wait_for_boot`, in the order in which they were made. -/
  calls : List Code
  deriving DecidableEq

inductive Label
  /-- `wait_for_boot` is called. -/
  | call
  | go (call : ℕ)
  /-- A spurious wake-up. -/
  | wake (call : ℕ)
  | expire (call : ℕ)
  | onBoot (es : Status)
  | callback
  /-- `Boot()` is called. -/
  | boot
  | restart
  deriving DecidableEq

/-- `notify_all`. -/
def Code.notify : Code → Code
  | .blocked => .notified
  | code => code

namespace State

def goto (s : State) (k : ℕ) (code : Code) : State := { s with calls := s.calls.set k code }

/-- The next step of `wait_for_boot`; `none` while it is blocked. -/
def exec (s : State) (k : ℕ) : Code → Option (State × List Event)
  | .check => if s.booted then some (s.goto k .done, [.returned k]) else some (s.goto k .lock, [])
  | .lock => if s.locked then none else some ({ s.goto k .wait with locked := true }, [])
  | .wait => some ({ s.goto k .blocked with locked := false }, [])
  | .blocked => none
  | .notified =>
      if s.locked then none else some ({ s.goto k (.test false) with locked := true }, [])
  | .awake timedOut =>
      if s.locked then none else some ({ s.goto k (.test timedOut) with locked := true }, [])
  | .test timedOut =>
      if timedOut then some ({ s.goto k .done with locked := false }, [.timeout k])
      else if s.bootStatus ≠ Status.ok ∧ s.bootStatus ≠ Status.initiallyOperational then
        some ({ s.goto k .done with locked := false }, [.issue k s.bootStatus])
      else some (s.goto k .store, [])
  | .store => some ({ s.goto k .done with locked := false, booted := true }, [.returned k])
  | .done => none

/-- The next step of `OnBoot`. -/
def onBoot (s : State) : Callback → Option (State × List Event)
  | .entered es =>
      some ({ s with
        booted := s.booted || decide (es = Status.ok), callback := some (.announced es) }, [])
  | .announced es =>
      if s.locked then none
      else some ({ s with
        bootStatus := es, callback := none, calls := s.calls.map Code.notify }, [.posted])

def step (s : State) : Label → Option (State × List Event)
  | .call => some ({ s with calls := s.calls ++ [.check] }, [])
  | .go k =>
      match s.calls[k]? with
      | some code => s.exec k code
      | none => none
  | .wake k => if s.calls[k]? = some .blocked then some (s.goto k (.awake false), []) else none
  | .expire k =>
      if s.calls[k]? = some .blocked ∨ s.calls[k]? = some .notified ∨
          s.calls[k]? = some (.awake false) then
        some (s.goto k (.awake true), [.expired k])
      else none
  | .onBoot es =>
      if s.callback = none then some ({ s with callback := some (.entered es) }, [.onBoot es])
      else none
  | .callback =>
      match s.callback with
      | some callback => s.onBoot callback
      | none => none
  | .boot => some ({ s with booted := false, restarting := s.restarting + 1 }, [])
  | .restart =>
      if s.restarting = 0 then none
      else some ({ s with restarting := s.restarting - 1 }, [.restarted])

/-- No call and no callback is in progress; no constructor sets the flag or the status. -/
structure Constructed (s : State) : Prop where
  locked : s.locked = false
  callback : s.callback = none
  restarting : s.restarting = 0
  calls : s.calls = []

end State

/-- The bridge from its construction. -/
def system : System State Label Event where
  init := State.Constructed
  step := State.step

/-! ## Reports of the current attempt -/

/-- It happened in the current attempt. -/
def inAttempt (q : Event → Bool) : List Event → Bool := since (fun e => e ≠ .restarted) q

namespace Event

def isReport : Event → Bool
  | .onBoot _ => true
  | _ => false

/-- A report of success. -/
def isSuccess : Event → Bool
  | .onBoot es => accepted es
  | _ => false

end Event

/-- Each outcome is backed: a timeout by the lack of a report until then, and the others by
a report of the current attempt. -/
def Attributed (e : Event) (before : List Event) : Prop :=
  match e with
  | .timeout k => ∃ mid old, before = mid ++ .expired k :: old ∧
      inAttempt Event.isReport old = false
  | .issue _ es => accepted es = false ∧ inAttempt (fun e => e = .onBoot es) before = true
  | .returned _ => inAttempt Event.isSuccess before = true
  | _ => True

/-- The steps that keep reports and outcomes together. -/
def orderly : Guard State Label Event := fun h s i =>
  -- the flag is down at first
  (h = [] → s.booted = false) ∧
    match i with
    | .go k =>
        -- a wait begins before the report, and a spurious wake-up is late enough to find it
        (s.calls[k]? = some .wait → inAttempt (· = .posted) h = false) ∧
          (s.calls[k]? = some (.awake false) → inAttempt (· = .posted) h = true)
    | .expire k =>
        -- the time does not run out between a report and the return
        s.callback = none ∧ s.calls[k]? ≠ some .notified ∧
          (s.calls[k]? = some (.awake false) → inAttempt (· = .posted) h = false)
    | .restart =>
        -- an attempt does not begin in the middle of a report or a return
        s.callback = none ∧ s.booted = false ∧
          ∀ c ∈ s.calls, c ≠ .notified ∧ c ≠ .test false ∧ c ≠ .store
    | _ => True

/-! ## The invariant -/

section InAttempt
variable {q q' : Event → Bool} {h : List Event} {e : Event}

theorem inAttempt_cons : inAttempt q (e :: h) = (q e || (e ≠ .restarted && inAttempt q h)) := by
  simp [inAttempt]

theorem inAttempt_mono (hq : ∀ e, q e = true → q' e = true) (h : List Event) :
    inAttempt q h = true → inAttempt q' h = true := by
  induction h with
  | nil => exact id
  | cons e h ih =>
      simp only [inAttempt_cons, Bool.or_eq_true, Bool.and_eq_true]
      exact Or.imp (hq e) (And.imp_right ih)

theorem inAttempt_singleton_append (hq : q e = false) (he : e ≠ .restarted) :
    inAttempt q ([e] ++ h) = inAttempt q h := by
  simp [inAttempt_cons, hq, he]

end InAttempt

/-- The time of the call ran out before any report of its attempt. -/
def RanOut (k : ℕ) (h : List Event) : Prop :=
  ∃ mid old, h = mid ++ .expired k :: old ∧ inAttempt Event.isReport old = false

/-- What a program point says about the current attempt. -/
def Code.Synced (h : List Event) (k : ℕ) : Code → Prop
  | .blocked => inAttempt (· = .posted) h = false
  | .notified => inAttempt (· = .posted) h = true
  | .awake true => RanOut k h
  | .test false => inAttempt (· = .posted) h = true
  | .test true => RanOut k h
  | .store => inAttempt Event.isSuccess h = true
  | _ => True

/-- The members go with the reports of the current attempt. -/
structure Synced (h : List Event) (s : State) : Prop where
  booted : s.booted = true → inAttempt Event.isSuccess h = true
  entered : ∀ es, s.callback = some (.entered es) → inAttempt (· = .onBoot es) h = true
  announced : ∀ es, s.callback = some (.announced es) → inAttempt (· = .onBoot es) h = true
  posted : inAttempt (· = .posted) h = true → inAttempt (· = .onBoot s.bootStatus) h = true
  reported : inAttempt Event.isReport h = true →
    s.callback ≠ none ∨ inAttempt (· = .posted) h = true
  calls : ∀ (k : ℕ) (code : Code), s.calls[k]? = some code → code.Synced h k

theorem RanOut.append {h : List Event} {k : ℕ} (hs : RanOut k h) (e : Event) :
    RanOut k ([e] ++ h) := by
  obtain ⟨mid, old, rfl, hnone⟩ := hs
  exact ⟨e :: mid, old, rfl, hnone⟩

theorem isSuccess_of_onBoot {es : Status} (hes : accepted es = true) {h : List Event}
    (hreport : inAttempt (· = .onBoot es) h = true) : inAttempt Event.isSuccess h = true := by
  refine inAttempt_mono (fun e he => ?_) h hreport
  obtain rfl := of_decide_eq_true he
  exact hes

/-- Events that leave the attempt and its reports alone leave a program point alone. -/
theorem Code.Synced.quiet {h : List Event} {k : ℕ} {code : Code} (hs : code.Synced h k) {e : Event}
    (hposted : e ≠ .posted) (hrestarted : e ≠ .restarted) : code.Synced ([e] ++ h) k := by
  have hkeep : inAttempt (· = .posted) ([e] ++ h) = inAttempt (· = .posted) h :=
    inAttempt_singleton_append (by simpa using hposted) hrestarted
  have hsuccess : inAttempt Event.isSuccess h = true →
      inAttempt Event.isSuccess ([e] ++ h) = true := by
    intro hh
    simp [inAttempt_cons, hrestarted, hh]
  cases code with
  | blocked => exact hkeep.trans hs
  | notified => exact hkeep.trans hs
  | awake timedOut =>
      cases timedOut with
      | false => trivial
      | true => exact RanOut.append hs e
  | test timedOut =>
      cases timedOut with
      | false => exact hkeep.trans hs
      | true => exact RanOut.append hs e
  | store => exact hsuccess hs
  | _ => trivial

/-- A notification reaches whoever is blocked. -/
theorem Code.Synced.posted {h : List Event} {k : ℕ} {code : Code} (hs : code.Synced h k) :
    code.notify.Synced ([.posted] ++ h) k := by
  have hposted : inAttempt (· = .posted) ([.posted] ++ h) = true := by simp [inAttempt_cons]
  cases code with
  | blocked => exact hposted
  | notified => exact hposted
  | awake timedOut =>
      cases timedOut with
      | false => trivial
      | true => exact RanOut.append hs .posted
  | test timedOut =>
      cases timedOut with
      | false => exact hposted
      | true => exact RanOut.append hs .posted
  | store => exact (inAttempt_singleton_append rfl (by simp)).trans hs
  | _ => trivial

/-- At the beginning of an attempt nobody is on the way back from a report. -/
theorem Code.Synced.restarted {h : List Event} {k : ℕ} {code : Code} (hs : code.Synced h k)
    (hcode : code ≠ .notified ∧ code ≠ .test false ∧ code ≠ .store) :
    code.Synced ([.restarted] ++ h) k := by
  cases code with
  | blocked => simp [Code.Synced, inAttempt_cons]
  | notified => exact absurd rfl hcode.1
  | awake timedOut =>
      cases timedOut with
      | false => trivial
      | true => exact RanOut.append hs .restarted
  | test timedOut =>
      cases timedOut with
      | false => exact absurd rfl hcode.2.1
      | true => exact RanOut.append hs .restarted
  | store => exact absurd rfl hcode.2.2
  | _ => trivial

namespace Synced
variable {h : List Event} {s : State}

theorem of_constructed (hs : s.Constructed) (hbooted : s.booted = false) : Synced [] s where
  booted := by simp [hbooted]
  entered := by simp [hs.callback]
  announced := by simp [hs.callback]
  posted := by simp [inAttempt]
  reported := by simp [inAttempt]
  calls := by simp [hs.calls]

/-- One call goes on, and the members stay. -/
theorem goto (hs : Synced h s) (k : ℕ) (code : Code) (hcode : code.Synced h k) :
    Synced h (s.goto k code) := by
  refine ⟨hs.booted, hs.entered, hs.announced, hs.posted, hs.reported, fun j code' hj => ?_⟩
  rw [State.goto, List.getElem?_set] at hj
  split at hj
  · next hkj =>
      subst hkj
      split at hj
      · rwa [← Option.some.inj hj]
      · contradiction
  · exact hs.calls j code' hj

theorem locked (hs : Synced h s) (locked : Bool) : Synced h { s with locked := locked } :=
  ⟨hs.booted, hs.entered, hs.announced, hs.posted, hs.reported, hs.calls⟩

/-- An event that is neither a report nor a restart leaves everything alone. -/
theorem quiet (hs : Synced h s) {e : Event} (hreport : e.isReport = false) (hposted : e ≠ .posted)
    (hrestarted : e ≠ .restarted) : Synced ([e] ++ h) s := by
  have hkeep : ∀ q : Event → Bool, q e = false → inAttempt q ([e] ++ h) = inAttempt q h :=
    fun q hq => inAttempt_singleton_append hq hrestarted
  have honBoot : ∀ es, (decide (e = .onBoot es)) = false := by
    intro es
    refine decide_eq_false ?_
    rintro rfl
    contradiction
  have hsuccess : e.isSuccess = false := by
    cases e <;> first | rfl | contradiction
  have hposted' : (decide (e = .posted)) = false := decide_eq_false hposted
  refine ⟨fun hb => ?_, fun es hes => ?_, fun es hes => ?_, fun hp => ?_, fun hr => ?_,
    fun k code hk => (hs.calls k code hk).quiet hposted hrestarted⟩
  · rw [hkeep _ hsuccess]
    exact hs.booted hb
  · rw [hkeep _ (honBoot es)]
    exact hs.entered es hes
  · rw [hkeep _ (honBoot es)]
    exact hs.announced es hes
  · rw [hkeep _ hposted'] at hp
    rw [hkeep _ (honBoot _)]
    exact hs.posted hp
  · rw [hkeep _ hreport] at hr
    rw [hkeep _ hposted']
    exact hs.reported hr

/-- The step went on, and an event it emitted is backed. -/
structure Kept (h : List Event) (s' : State) (es : List Event) : Prop where
  synced : Synced (es ++ h) s'
  attributed : es = [] ∨ ∃ e, es = [e] ∧ Attributed e h

theorem kept_silent (hs : Synced h s) : Kept h s [] := ⟨hs, .inl rfl⟩

theorem kept_quiet (hs : Synced h s) {e : Event} (he : Attributed e h)
    (hreport : e.isReport = false) (hposted : e ≠ .posted) (hrestarted : e ≠ .restarted) :
    Kept h s [e] :=
  ⟨hs.quiet hreport hposted hrestarted, .inr ⟨e, rfl, he⟩⟩

theorem exec (hs : Synced h s) {k : ℕ} {code : Code} (hcode : code.Synced h k)
    (hwait : code = .wait → inAttempt (· = .posted) h = false)
    (hawake : code = .awake false → inAttempt (· = .posted) h = true) {s' : State}
    {es : List Event} (hstep : s.exec k code = some (s', es)) : Kept h s' es := by
  cases code with
  | check =>
      simp only [State.exec] at hstep
      split at hstep
      · next hbooted =>
          obtain ⟨rfl, rfl⟩ := Prod.mk.inj (Option.some.inj hstep)
          exact (hs.goto k .done trivial).kept_quiet (hs.booted hbooted) rfl (by simp) (by simp)
      · obtain ⟨rfl, rfl⟩ := Prod.mk.inj (Option.some.inj hstep)
        exact (hs.goto k .lock trivial).kept_silent
  | lock =>
      simp only [State.exec] at hstep
      split at hstep
      · contradiction
      · obtain ⟨rfl, rfl⟩ := Prod.mk.inj (Option.some.inj hstep)
        exact ((hs.goto k .wait trivial).locked true).kept_silent
  | wait =>
      obtain ⟨rfl, rfl⟩ := Prod.mk.inj (Option.some.inj hstep)
      exact ((hs.goto k .blocked (hwait rfl)).locked false).kept_silent
  | blocked => contradiction
  | notified =>
      simp only [State.exec] at hstep
      split at hstep
      · contradiction
      · obtain ⟨rfl, rfl⟩ := Prod.mk.inj (Option.some.inj hstep)
        exact ((hs.goto k (.test false) hcode).locked true).kept_silent
  | awake timedOut =>
      have htest : (Code.test timedOut).Synced h k := by
        cases timedOut with
        | false => exact hawake rfl
        | true => exact hcode
      simp only [State.exec] at hstep
      split at hstep
      · contradiction
      · obtain ⟨rfl, rfl⟩ := Prod.mk.inj (Option.some.inj hstep)
        exact ((hs.goto k _ htest).locked true).kept_silent
  | test timedOut =>
      simp only [State.exec] at hstep
      split at hstep
      · next htimedOut =>
          subst htimedOut
          obtain ⟨rfl, rfl⟩ := Prod.mk.inj (Option.some.inj hstep)
          exact ((hs.goto k .done trivial).locked false).kept_quiet hcode rfl (by simp) (by simp)
      · next htimedOut =>
          obtain rfl : timedOut = false := by simpa using htimedOut
          have hreport := hs.posted hcode
          split at hstep
          · next hbad =>
              obtain ⟨rfl, rfl⟩ := Prod.mk.inj (Option.some.inj hstep)
              have hissue : Attributed (.issue k s.bootStatus) h :=
                ⟨Bool.eq_false_iff.mpr (mt accepted_iff.mp (not_or.mpr hbad)), hreport⟩
              exact ((hs.goto k .done trivial).locked false).kept_quiet hissue rfl
                (by simp) (by simp)
          · next hgood =>
              obtain ⟨rfl, rfl⟩ := Prod.mk.inj (Option.some.inj hstep)
              have haccepted : accepted s.bootStatus = true := by
                by_contra haccepted
                exact hgood (not_or.mp (mt accepted_iff.mpr haccepted))
              exact (hs.goto k .store
                (isSuccess_of_onBoot haccepted hreport)).kept_silent
  | store =>
      obtain ⟨rfl, rfl⟩ := Prod.mk.inj (Option.some.inj hstep)
      have hdone := (hs.goto k .done trivial).locked false
      have hbooted : Synced h { s.goto k .done with locked := false, booted := true } :=
        ⟨fun _ => hcode, hdone.entered, hdone.announced, hdone.posted, hdone.reported,
          hdone.calls⟩
      exact hbooted.kept_quiet hcode rfl (by simp) (by simp)
  | done => contradiction

/-- A report, from its call to its notification. -/
theorem callback (hs : Synced h s) {callback : Callback} (hcallback : s.callback = some callback)
    {s' : State} {es : List Event} (hstep : s.onBoot callback = some (s', es)) : Kept h s' es := by
  cases callback with
  | entered es =>
      have hreport := hs.entered es hcallback
      obtain ⟨rfl, rfl⟩ := Prod.mk.inj (Option.some.inj hstep)
      refine kept_silent ⟨fun hbooted => ?_, by simp, ?_, hs.posted, fun _ => .inl (by simp),
        hs.calls⟩
      · rcases Bool.or_eq_true_iff.mp hbooted with hbooted | hok
        · exact hs.booted hbooted
        · obtain rfl := of_decide_eq_true hok
          exact isSuccess_of_onBoot rfl hreport
      · rintro es' heq
        obtain rfl := Callback.announced.inj (Option.some.inj heq)
        exact hreport
  | announced es =>
      have hreport := hs.announced es hcallback
      simp only [State.onBoot] at hstep
      split at hstep
      · contradiction
      · obtain ⟨rfl, rfl⟩ := Prod.mk.inj (Option.some.inj hstep)
        have hkeep : ∀ q : Event → Bool, q .posted = false →
            inAttempt q ([.posted] ++ h) = inAttempt q h :=
          fun q hq => inAttempt_singleton_append hq (by simp)
        refine ⟨⟨fun hbooted => ?_, by simp, by simp, fun _ => ?_, fun _ => .inr ?_,
          fun k code hk => ?_⟩, .inr ⟨_, rfl, trivial⟩⟩
        · rw [hkeep _ rfl]
          exact hs.booted hbooted
        · rw [hkeep _ (by simp)]
          exact hreport
        · simp [inAttempt_cons]
        · rw [List.getElem?_map] at hk
          obtain ⟨code, hcode, rfl⟩ := Option.map_eq_some_iff.mp hk
          exact (hs.calls k code hcode).posted

/-- A report begins. -/
theorem onBoot (hs : Synced h s) (es : Status) :
    Kept h { s with callback := some (.entered es) } [.onBoot es] := by
  have hkeep : inAttempt (· = .posted) ([.onBoot es] ++ h) = inAttempt (· = .posted) h :=
    inAttempt_singleton_append (by simp) (by simp)
  have hmore : ∀ q : Event → Bool, inAttempt q h = true →
      inAttempt q ([.onBoot es] ++ h) = true := by
    intro q hq
    simp [inAttempt_cons, hq]
  refine ⟨⟨fun hbooted => hmore _ (hs.booted hbooted), fun es' heq => ?_, by simp, fun hp => ?_,
    fun _ => .inl (by simp), fun k code hk => (hs.calls k code hk).quiet (by simp) (by simp)⟩,
    .inr ⟨_, rfl, trivial⟩⟩
  · obtain rfl := Callback.entered.inj (Option.some.inj heq)
    simp [inAttempt_cons]
  · rw [hkeep] at hp
    exact hmore _ (hs.posted hp)

/-- An attempt begins. -/
theorem restart (hs : Synced h s) (hcallback : s.callback = none) (hbooted : s.booted = false)
    (hcalls : ∀ c ∈ s.calls, c ≠ .notified ∧ c ≠ .test false ∧ c ≠ .store) (n : ℕ) :
    Kept h { s with restarting := n } [.restarted] := by
  have hnone : ∀ q : Event → Bool, q .restarted = false →
      inAttempt q ([.restarted] ++ h) = false := by
    intro q hq
    simp [inAttempt_cons, hq]
  refine ⟨⟨by simp [hbooted], by simp [hcallback], by simp [hcallback], fun hp => ?_, fun hr => ?_,
    fun k code hk => ?_⟩, .inr ⟨_, rfl, trivial⟩⟩
  · rw [hnone _ (by simp)] at hp
    contradiction
  · rw [hnone _ rfl] at hr
    contradiction
  · exact (hs.calls k code hk).restarted (hcalls code (List.mem_of_getElem? hk))

/-- The time of a call runs out while there is no report. -/
theorem expire (hs : Synced h s) {k : ℕ} (hcallback : s.callback = none)
    (hposted : inAttempt (· = .posted) h = false) :
    Kept h (s.goto k (.awake true)) [.expired k] := by
  have hreport : inAttempt Event.isReport h = false := by
    by_contra hreport
    rcases hs.reported (by simpa using hreport) with hcallback' | hposted'
    · exact hcallback' hcallback
    · rw [hposted] at hposted'
      contradiction
  have hquiet : Synced ([.expired k] ++ h) s := hs.quiet rfl (by simp) (by simp)
  exact ⟨hquiet.goto k (.awake true) ⟨[], h, rfl, hreport⟩, .inr ⟨_, rfl, trivial⟩⟩

/-- **Every orderly step keeps reports and outcomes together.** -/
theorem step (hs : Synced h s) {i : Label} (hok : orderly h s i) {s' : State} {es : List Event}
    (hstep : s.step i = some (s', es)) : Kept h s' es := by
  cases i with
  | call =>
      obtain ⟨rfl, rfl⟩ := Prod.mk.inj (Option.some.inj hstep)
      refine kept_silent ⟨hs.booted, hs.entered, hs.announced, hs.posted, hs.reported,
        fun k code hk => ?_⟩
      rw [List.getElem?_append] at hk
      split at hk
      · exact hs.calls k code hk
      · obtain rfl := List.mem_singleton.mp (List.mem_of_getElem? hk)
        trivial
  | go k =>
      obtain ⟨hwait, hawake⟩ := hok.2
      simp only [State.step] at hstep
      split at hstep
      · next code hcode =>
          exact hs.exec (hs.calls k code hcode) (fun heq => hwait (hcode.trans (congrArg some heq)))
            (fun heq => hawake (hcode.trans (congrArg some heq))) hstep
      · contradiction
  | wake k =>
      simp only [State.step] at hstep
      split at hstep
      · obtain ⟨rfl, rfl⟩ := Prod.mk.inj (Option.some.inj hstep)
        exact kept_silent (hs.goto k (.awake false) trivial)
      · contradiction
  | expire k =>
      obtain ⟨hcallback, hnotified, hawake⟩ := hok.2
      simp only [State.step] at hstep
      split at hstep
      · next hcode =>
          obtain ⟨rfl, rfl⟩ := Prod.mk.inj (Option.some.inj hstep)
          rcases hcode with hblocked | hcode | hcode
          · exact hs.expire hcallback (hs.calls k _ hblocked)
          · exact absurd hcode hnotified
          · exact hs.expire hcallback (hawake hcode)
      · contradiction
  | onBoot es =>
      simp only [State.step] at hstep
      split at hstep
      · obtain ⟨rfl, rfl⟩ := Prod.mk.inj (Option.some.inj hstep)
        exact hs.onBoot es
      · contradiction
  | callback =>
      simp only [State.step] at hstep
      split at hstep
      · next callback hcallback => exact hs.callback hcallback hstep
      · contradiction
  | boot =>
      obtain ⟨rfl, rfl⟩ := Prod.mk.inj (Option.some.inj hstep)
      exact kept_silent ⟨by simp, hs.entered, hs.announced, hs.posted, hs.reported, hs.calls⟩
  | restart =>
      obtain ⟨hcallback, hbooted, hcalls⟩ := hok.2
      simp only [State.step] at hstep
      split at hstep
      · contradiction
      · obtain ⟨rfl, rfl⟩ := Prod.mk.inj (Option.some.inj hstep)
        exact hs.restart hcallback hbooted hcalls _

end Synced

/-- **In orderly runs no report is lost or misattributed**: a timeout comes before any report
of its attempt, and an issue or a success has one behind it. -/
theorem attributed_of_orderly {h : List Event} {s : State} (hr : Reach system orderly h s) :
    Historically Attributed h := by
  refine (hr.invariant (I := fun h s => (Synced h s ∨ h = [] ∧ s.Constructed) ∧
    Historically Attributed h) (fun s hs => ⟨.inr ⟨rfl, hs⟩, historically_nil⟩) ?_).2
  intro h s i s' es ⟨hs, hattributed⟩ hok hstep
  have hsynced : Synced h s := by
    rcases hs with hs | ⟨rfl, hs⟩
    · exact hs
    · exact .of_constructed hs (hok.1 rfl)
  obtain ⟨hsynced', hes⟩ := hsynced.step hok hstep
  refine ⟨.inl hsynced', ?_⟩
  rcases hes with rfl | ⟨e, rfl, he⟩
  · exact hattributed
  · exact hattributed.cons he

/-! ## Runs -/

instance decidableOrderly (h : List Event) (s : State) : ∀ i, Decidable (orderly h s i)
  | .go _ => inferInstanceAs (Decidable (_ ∧ (_ ∧ _)))
  | .expire _ => inferInstanceAs (Decidable (_ ∧ (_ ∧ _ ∧ _)))
  | .restart => inferInstanceAs (Decidable (_ ∧ (_ ∧ _ ∧ _)))
  | .call => inferInstanceAs (Decidable (_ ∧ True))
  | .wake _ => inferInstanceAs (Decidable (_ ∧ True))
  | .onBoot _ => inferInstanceAs (Decidable (_ ∧ True))
  | .callback => inferInstanceAs (Decidable (_ ∧ True))
  | .boot => inferInstanceAs (Decidable (_ ∧ True))

/-- A bridge constructed where the memory was zero. -/
def zeroed : State := ⟨false, 0, false, none, 0, []⟩

theorem constructed_zeroed : zeroed.Constructed := ⟨rfl, rfl, rfl, rfl⟩

/-- The configuration of the device fails, and the second attempt succeeds. -/
theorem attributed_retry :
    Historically Attributed [.returned 1, .posted, .onBoot Status.ok, .restarted, .issue 0 0x4A,
      .posted, .onBoot 0x4A] := by
  have hrun : (system.runIf (fun h s i => decide (orderly h s i))
      [.call, .go 0, .go 0, .go 0, .onBoot 0x4A, .callback, .callback, .go 0, .go 0, .boot,
        .restart, .call, .go 1, .go 1, .go 1, .onBoot Status.ok, .callback, .callback, .go 1,
        .go 1, .go 1] [] zeroed).map Prod.fst =
      some [.returned 1, .posted, .onBoot Status.ok, .restarted, .issue 0 0x4A, .posted,
        .onBoot 0x4A] := by
    decide +kernel
  obtain ⟨⟨h, s⟩, hrun, rfl⟩ := Option.map_eq_some_iff.mp hrun
  exact attributed_of_orderly (system.reach_runIf _ _ (.init constructed_zeroed)
    (fun i _ h s hi => of_decide_eq_true hi) hrun)

/-- The configuration fails between the test of the flag and the wait: the report is lost. -/
theorem not_attributed : ¬ ∀ h s, Reach system Guard.free h s → Historically Attributed h := by
  intro hattributed
  have hrun : (system.run [.call, .go 0, .onBoot 0x4A, .callback, .callback, .go 0, .go 0,
      .expire 0, .go 0, .go 0] [] zeroed).map Prod.fst =
      some [.timeout 0, .expired 0, .posted, .onBoot 0x4A] := by
    decide +kernel
  obtain ⟨⟨h, s⟩, hrun, rfl⟩ := Option.map_eq_some_iff.mp hrun
  have hr := system.reach_run _ (.init constructed_zeroed) hrun
  obtain ⟨mid, old, hsplit, hnone⟩ := hattributed _ s hr [] (.timeout 0) _ rfl
  cases mid with
  | nil =>
      obtain ⟨-, rfl⟩ := List.cons.inj hsplit
      exact absurd hnone (by decide)
  | cons e mid =>
      obtain ⟨-, hsplit⟩ := List.cons.inj hsplit
      have hmem : Event.expired 0 ∈ mid.append (.expired 0 :: old) :=
        List.mem_append_right _ List.mem_cons_self
      rw [← hsplit] at hmem
      simp at hmem

end RosCanopen.Bridge.Boot
