import Mathlib.Data.BitVec
import RosCanopen.Lib.System

/-!
# The hand-over of NMT states

`OnState` runs on the CAN thread and completes a promise with the reported state when nobody has
done so since the listener asked; `async_request_nmt` runs on the thread of the listener and makes
a new promise.  A flag says whether the promise is completed; `OnState` tests it without the mutex
and then only tries to lock.  A step here is one access to what the two threads share.

## Main definitions

* `OnStatePc`, `NmtListenerPc` — where the two threads are.
* `NmtHandover.step`, `NmtHandover.system` — their steps.
* `NmtHandover.Sound` — flag, promise and mutex belong together.
* `NmtHandover.onItsWay` — the reported states that may still come to the listener's callback.
-/

namespace RosCanopen.Core

open Lib

/-- `canopen::NmtState` -/
abbrev NmtState := BitVec 8

namespace NmtState

def bootup : NmtState := 0x00

def start : NmtState := 0x05

/-- What `OnState` makes of a state: only the boot-up is tracked, and the device starts. -/
def tracked (st : NmtState) : NmtState := if st = bootup then start else st

end NmtState

/-- `OnState`, with the state as it is tracked. -/
inductive OnStatePc
  /-- Up to the test of the flag. -/
  | testing (st : NmtState)
  /-- Up to `try_lock`. -/
  | locking (st : NmtState)
  /-- Up to the flag. -/
  | storing (st : NmtState)
  /-- Up to `set_value`. -/
  | setting (st : NmtState)
  | unlocking
  deriving DecidableEq

/-- `nmt_listener` -/
inductive NmtListenerPc
  /-- At the head of the loop, up to the mutex. -/
  | requesting
  /-- In `async_request_nmt`, up to the flag. -/
  | clearing
  /-- Up to the new promise. -/
  | replacing
  | unlocking
  /-- In `wait_for`. -/
  | waiting
  /-- `f.get()` has returned. -/
  | received (st : NmtState)
  /-- In `on_nmt`. -/
  | reported
  | ended
  deriving DecidableEq

inductive NmtThread
  | can
  | listener
  deriving DecidableEq

inductive HandoverEvent
  /-- `OnState` is called. -/
  | reported (st : NmtState)
  /-- The promise of the request is completed. -/
  | fulfilled (request : ℕ) (st : NmtState)
  /-- `try_lock` has failed. -/
  | occupied
  /-- There is a new promise. -/
  | requested
  /-- `nmt_state_cb_` is called. -/
  | calledBack (st : NmtState)
  /-- An exception leaves `OnState`, which is `noexcept`. -/
  | terminate
  deriving DecidableEq

inductive HandoverInput
  | report (st : NmtState)
  /-- `OnState` goes on. -/
  | onState
  /-- The listener goes on, with `rclcpp::ok()`. -/
  | listener (ok : Bool)
  /-- `wait_for` ends without a state, with `activated_`. -/
  | timeout (activated : Bool)
  /-- A listener is started where there is none. -/
  | start
  deriving DecidableEq

structure NmtHandover where
  /-- `nmt_state_is_set` -/
  isSet : Bool
  /-- The thread that has `nmt_mtex`. -/
  mutex : Option NmtThread
  /-- What `nmt_state_promise` is completed with. -/
  promise : Option NmtState
  /-- How many promises were made. -/
  request : ℕ
  onState : Option OnStatePc
  listener : NmtListenerPc
  deriving DecidableEq

namespace NmtHandover

/-- `OnState` -/
def onStateStep (s : NmtHandover) : OnStatePc → NmtHandover × List HandoverEvent
  | .testing st =>
      ({ s with onState := if s.isSet then none else some (.locking st) }, [])
  | .locking st =>
      match s.mutex with
      | none => ({ s with mutex := some .can, onState := some (.storing st) }, [])
      | some _ => ({ s with onState := none }, [.occupied])
  | .storing st => ({ s with isSet := true, onState := some (.setting st) }, [])
  | .setting st =>
      match s.promise with
      | none =>
          ({ s with promise := some st, onState := some .unlocking }, [.fulfilled s.request st])
      -- `promise_already_satisfied`
      | some _ => ({ s with onState := none }, [.terminate])
  | .unlocking => ({ s with mutex := none, onState := none }, [])

/-- `nmt_listener`, with a callback that is registered or not. -/
def listenerStep (registered ok : Bool) (s : NmtHandover) :
    Option (NmtHandover × List HandoverEvent) :=
  match s.listener with
  | .requesting =>
      if ok then
        match s.mutex with
        | none => some ({ s with mutex := some .listener, listener := .clearing }, [])
        | some _ => none
      else some ({ s with listener := .ended }, [])
  | .clearing => some ({ s with isSet := false, listener := .replacing }, [])
  | .replacing =>
      some ({ s with promise := none, request := s.request + 1, listener := .unlocking },
        [.requested])
  | .unlocking => some ({ s with mutex := none, listener := .waiting }, [])
  | .waiting => s.promise.map fun st => ({ s with listener := .received st }, [])
  | .received st =>
      some ({ s with listener := .reported }, if registered then [.calledBack st] else [])
  | .reported => some ({ s with listener := .requesting }, [])
  | .ended => none

def step (registered : Bool) (s : NmtHandover) :
    HandoverInput → Option (NmtHandover × List HandoverEvent)
  | .report st =>
      match s.onState with
      | none => some ({ s with onState := some (.testing st.tracked) }, [.reported st])
      | some _ => none
  | .onState => s.onState.map s.onStateStep
  | .listener ok => s.listenerStep registered ok
  | .timeout activated =>
      if s.listener = .waiting ∧ s.promise = none then
        some ({ s with listener := if activated then .waiting else .ended }, [])
      else none
  | .start =>
      if s.listener = .ended then some ({ s with listener := .requesting }, []) else none

/-- The bridge with any value of its flag, which nothing sets at first. -/
def system (registered : Bool) : System NmtHandover HandoverInput HandoverEvent where
  init s := ∃ isSet, s = ⟨isSet, none, none, 0, none, .ended⟩
  step := step registered

end NmtHandover

/-! ## What is promised -/

namespace HandoverEvent

/-- A reported state as it is tracked. -/
def reported? : HandoverEvent → Option NmtState
  | .reported st => some st.tracked
  | _ => none

def calledBack? : HandoverEvent → Option NmtState
  | .calledBack st => some st
  | _ => none

end HandoverEvent

namespace NmtHandover

/-- The reported states, the latest first. -/
def reports (h : List HandoverEvent) : List NmtState := h.filterMap HandoverEvent.reported?

/-- The states that the callback was called with, the latest first. -/
def calls (h : List HandoverEvent) : List NmtState := h.filterMap HandoverEvent.calledBack?

/-- The state with which `OnState` may complete the promise yet. -/
def inCall : Option OnStatePc → Option NmtState
  | some (.testing st) | some (.locking st) | some (.storing st) | some (.setting st) => some st
  | some .unlocking | none => none

/-- The state that the listener has got or will get. -/
def toCall (s : NmtHandover) : Option NmtState :=
  match s.listener with
  | .waiting => s.promise
  | .received st => some st
  | _ => none

/-- The states on their way to the callback, the latest first. -/
def onItsWay (s : NmtHandover) : List NmtState := (inCall s.onState).toList ++ s.toCall.toList

end NmtHandover

/-! ## What a step does -/

/-- The listener is in `async_request_nmt`. -/
def NmtListenerPc.locks : NmtListenerPc → Bool
  | .clearing | .replacing | .unlocking => true
  | _ => false

namespace NmtHandover

/-- Everything that a step can do. -/
inductive Stepped (registered : Bool) (s : NmtHandover) :
    HandoverInput → NmtHandover → List HandoverEvent → Prop
  | report (st : NmtState) (hon : s.onState = none) :
      Stepped registered s (.report st) { s with onState := some (.testing st.tracked) }
        [.reported st]
  | onState {pc : OnStatePc} (hon : s.onState = some pc) :
      Stepped registered s .onState (s.onStateStep pc).1 (s.onStateStep pc).2
  | locked {i : HandoverInput} (hpc : s.listener = .requesting) (hmutex : s.mutex = none) :
      Stepped registered s i { s with mutex := some .listener, listener := .clearing } []
  | cleared {i : HandoverInput} (hpc : s.listener = .clearing) :
      Stepped registered s i { s with isSet := false, listener := .replacing } []
  | replaced {i : HandoverInput} (hpc : s.listener = .replacing) :
      Stepped registered s i
        { s with promise := none, request := s.request + 1, listener := .unlocking } [.requested]
  | unlocked {i : HandoverInput} (hpc : s.listener = .unlocking) :
      Stepped registered s i { s with mutex := none, listener := .waiting } []
  /-- The listener goes on with nothing but its own state. -/
  | passed {i : HandoverInput} {l : NmtListenerPc} (hpc : s.listener.locks = false)
      (hl : l.locks = false) (hwaits : l = .waiting → s.listener = .waiting)
      (hcall : toCall { s with listener := l } = none ∨
        toCall { s with listener := l } = s.toCall) :
      Stepped registered s i { s with listener := l } []
  | calledBack {i : HandoverInput} {st : NmtState} (hpc : s.listener = .received st) :
      Stepped registered s i { s with listener := .reported }
        (if registered then [.calledBack st] else [])

section Stepped
variable {registered : Bool} {s s' : NmtHandover} {i : HandoverInput} {es : List HandoverEvent}

theorem stepped_of_listenerStep {ok : Bool}
    (hstep : s.listenerStep registered ok = some (s', es)) : Stepped registered s i s' es := by
  cases hpc : s.listener with
  | requesting =>
      simp only [listenerStep, hpc] at hstep
      cases ok with
      | false =>
          obtain ⟨rfl, rfl⟩ := Prod.mk.inj (Option.some.inj hstep)
          exact .passed (by rw [hpc]; rfl) rfl (by simp) (.inl rfl)
      | true =>
          cases hmutex : s.mutex with
          | some t => simp [hmutex] at hstep
          | none =>
              simp only [hmutex, if_true] at hstep
              obtain ⟨rfl, rfl⟩ := Prod.mk.inj (Option.some.inj hstep)
              exact .locked hpc hmutex
  | clearing =>
      simp only [listenerStep, hpc] at hstep
      obtain ⟨rfl, rfl⟩ := Prod.mk.inj (Option.some.inj hstep)
      exact .cleared hpc
  | replacing =>
      simp only [listenerStep, hpc] at hstep
      obtain ⟨rfl, rfl⟩ := Prod.mk.inj (Option.some.inj hstep)
      exact .replaced hpc
  | unlocking =>
      simp only [listenerStep, hpc] at hstep
      obtain ⟨rfl, rfl⟩ := Prod.mk.inj (Option.some.inj hstep)
      exact .unlocked hpc
  | waiting =>
      simp only [listenerStep, hpc] at hstep
      obtain ⟨st, hpromise, heq⟩ := Option.map_eq_some_iff.mp hstep
      obtain ⟨rfl, rfl⟩ := Prod.mk.inj heq
      exact .passed (by rw [hpc]; rfl) rfl (by simp) (.inr (by simp [toCall, hpc, hpromise]))
  | received st =>
      simp only [listenerStep, hpc] at hstep
      obtain ⟨rfl, rfl⟩ := Prod.mk.inj (Option.some.inj hstep)
      exact .calledBack hpc
  | reported =>
      simp only [listenerStep, hpc] at hstep
      obtain ⟨rfl, rfl⟩ := Prod.mk.inj (Option.some.inj hstep)
      exact .passed (by rw [hpc]; rfl) rfl (by simp) (.inl rfl)
  | ended => simp [listenerStep, hpc] at hstep

theorem stepped_of_step (hstep : step registered s i = some (s', es)) :
    Stepped registered s i s' es := by
  cases i with
  | report st =>
      cases hon : s.onState with
      | some pc => simp [NmtHandover.step, hon] at hstep
      | none =>
          simp only [NmtHandover.step, hon] at hstep
          obtain ⟨rfl, rfl⟩ := Prod.mk.inj (Option.some.inj hstep)
          exact .report st hon
  | onState =>
      obtain ⟨pc, hon, heq⟩ := Option.map_eq_some_iff.mp hstep
      obtain ⟨rfl, rfl⟩ := Prod.mk.inj heq
      exact .onState hon
  | listener ok => exact stepped_of_listenerStep hstep
  | timeout activated =>
      simp only [NmtHandover.step] at hstep
      split at hstep
      · next hwaiting =>
          obtain ⟨hpc, hopen⟩ := hwaiting
          obtain ⟨rfl, rfl⟩ := Prod.mk.inj (Option.some.inj hstep)
          cases activated with
          | true =>
              exact .passed (by rw [hpc]; rfl) rfl (fun _ => hpc) (.inr (by simp [toCall, hpc]))
          | false => exact .passed (by rw [hpc]; rfl) rfl (by simp) (.inl rfl)
      · cases hstep
  | start =>
      simp only [NmtHandover.step] at hstep
      split at hstep
      · next hpc =>
          obtain ⟨rfl, rfl⟩ := Prod.mk.inj (Option.some.inj hstep)
          exact .passed (by rw [hpc]; rfl) rfl (by simp) (.inl rfl)
      · cases hstep

end Stepped
end NmtHandover

/-! ## The invariant -/

/-- `OnState` has the mutex. -/
def OnStatePc.locks : OnStatePc → Bool
  | .storing _ | .setting _ | .unlocking => true
  | .testing _ | .locking _ => false

namespace NmtHandover

/-- Flag, promise and mutex belong together.  The flag is behind the promise only while the
listener replaces it, and ahead of it only while `OnState` is about to complete it. -/
structure Sound (s : NmtHandover) : Prop where
  can : s.mutex = some .can ↔ s.onState.any OnStatePc.locks = true
  listener : s.mutex = some .listener ↔ s.listener.locks = true
  /-- A promise that is completed is marked. -/
  marked : s.promise ≠ none → s.isSet = true ∨ s.listener = .replacing
  /-- A promise that is asked for and not completed is not marked. -/
  unmarked : s.promise = none → s.listener = .unlocking ∨ s.listener = .waiting →
    s.isSet = false ∨ ∃ st, s.onState = some (.setting st)
  locking : ∀ st, s.onState = some (.locking st) → s.promise = none ∨ s.listener = .replacing
  storing : ∀ st, s.onState = some (.storing st) → s.promise = none
  setting : ∀ st, s.onState = some (.setting st) → s.promise = none ∧ s.isSet = true
  cleared : s.listener = .replacing → s.isSet = false
  fresh : s.listener = .unlocking → s.promise = none

section Steps
variable {registered : Bool} {s s' : NmtHandover} {i : HandoverInput}
  {es h new : List HandoverEvent}

/-- Only one thread has the mutex. -/
theorem Sound.exclusive (hs : s.Sound) (hon : s.onState.any OnStatePc.locks = true) :
    s.listener.locks = false := by
  have hcan := hs.can.mpr hon
  cases hlocks : s.listener.locks with
  | false => rfl
  | true =>
      have hlistener := hs.listener.mpr hlocks
      rw [hcan] at hlistener
      cases hlistener

/-- `OnState` goes on outside of the mutex. -/
theorem Sound.setOnState (hs : s.Sound) {o : Option OnStatePc}
    (hwas : s.onState.any OnStatePc.locks = false) (ho : o.any OnStatePc.locks = false)
    (hlocking : ∀ st, o = some (.locking st) → s.promise = none ∨ s.listener = .replacing) :
    Sound { s with onState := o } where
  can := by rw [ho, ← hwas]; exact hs.can
  listener := hs.listener
  marked := hs.marked
  unmarked := by
    intro hopen hasked
    rcases hs.unmarked hopen hasked with hunset | ⟨st, hon⟩
    · exact .inl hunset
    · rw [hon] at hwas
      cases hwas
  locking := hlocking
  storing := by
    intro st hon
    have hon : o = some (.storing st) := hon
    rw [hon] at ho
    cases ho
  setting := by
    intro st hon
    have hon : o = some (.setting st) := hon
    rw [hon] at ho
    cases ho
  cleared := hs.cleared
  fresh := hs.fresh

/-- The listener goes on outside of the mutex. -/
theorem Sound.setListener (hs : s.Sound) {l : NmtListenerPc} (hwas : s.listener.locks = false)
    (hl : l.locks = false) (hwaits : l = .waiting → s.listener = .waiting) :
    Sound { s with listener := l } where
  can := hs.can
  listener := by rw [hl, ← hwas]; exact hs.listener
  marked := by
    intro hcompleted
    rcases hs.marked hcompleted with hset | hreplacing
    · exact .inl hset
    · rw [hreplacing] at hwas
      cases hwas
  unmarked := by
    rintro hopen (hunlocking | hwaiting)
    · have hpc : l = .unlocking := hunlocking
      rw [hpc] at hl
      cases hl
    · exact hs.unmarked hopen (.inr (hwaits hwaiting))
  locking := by
    intro st hon
    rcases hs.locking st hon with hopen | hreplacing
    · exact .inl hopen
    · rw [hreplacing] at hwas
      cases hwas
  storing := hs.storing
  setting := hs.setting
  cleared := by
    intro hreplacing
    have hpc : l = .replacing := hreplacing
    rw [hpc] at hl
    cases hl
  fresh := by
    intro hunlocking
    have hpc : l = .unlocking := hunlocking
    rw [hpc] at hl
    cases hl

/-- **`OnState` finds the promise open when it completes it.** -/
theorem Sound.onState_step (hs : s.Sound) {pc : OnStatePc} (hpc : s.onState = some pc) :
    (s.onStateStep pc).1.Sound ∧ HandoverEvent.terminate ∉ (s.onStateStep pc).2 := by
  have hexclusive := hs.exclusive
  cases pc with
  | testing st =>
      refine ⟨?_, by simp [onStateStep]⟩
      refine hs.setOnState (o := if s.isSet then none else some (.locking st)) ?_ ?_ ?_
      · rw [hpc]
        rfl
      · cases s.isSet <;> rfl
      · intro st' hon
        have hset : s.isSet = false := by
          cases hset : s.isSet with
          | true => simp [hset] at hon
          | false => rfl
        -- not marked: the promise is open, or about to be replaced
        by_cases hopen : s.promise = none
        · exact .inl hopen
        · exact (hs.marked hopen).imp (fun h => by simp [hset] at h) id
  | locking st =>
      cases hmutex : s.mutex with
      | none =>
          refine ⟨?_, by simp [onStateStep, hmutex]⟩
          -- the mutex is free, so that nobody replaces the promise
          have hopen : s.promise = none := by
            rcases hs.locking st hpc with hopen | hreplacing
            · exact hopen
            · have hheld := hs.listener.mpr (by rw [hreplacing]; rfl)
              rw [hmutex] at hheld
              cases hheld
          obtain ⟨hcan, hlistener, hmarked, hunmarked, -, -, -, hcleared, hfresh⟩ := hs
          constructor <;> simp_all [onStateStep, OnStatePc.locks]
      | some t =>
          have hgo : s.onStateStep (.locking st) = ({ s with onState := none }, [.occupied]) := by
            simp [onStateStep, hmutex]
          rw [hgo]
          refine ⟨?_, by simp⟩
          exact hs.setOnState (o := none) (by rw [hpc]; rfl) rfl (by simp)
  | storing st =>
      have hout : s.listener.locks = false := hexclusive (by rw [hpc]; rfl)
      have hopen := hs.storing st hpc
      refine ⟨?_, by simp [onStateStep]⟩
      obtain ⟨hcan, hlistener, -, -, -, -, -, -, hfresh⟩ := hs
      constructor
      case cleared =>
        intro hreplacing
        have hpc' : s.listener = .replacing := hreplacing
        rw [hpc'] at hout
        cases hout
      all_goals simp_all [onStateStep, OnStatePc.locks]
  | setting st =>
      obtain ⟨hopen, hset⟩ := hs.setting st hpc
      have hout : s.listener.locks = false := hexclusive (by rw [hpc]; rfl)
      refine ⟨?_, by simp [onStateStep, hopen]⟩
      obtain ⟨hcan, hlistener, -, -, -, -, -, hcleared, -⟩ := hs
      constructor
      case fresh =>
        intro hunlocking
        have hpc' : s.listener = .unlocking := by simpa [onStateStep, hopen] using hunlocking
        rw [hpc'] at hout
        cases hout
      all_goals simp_all [onStateStep, OnStatePc.locks]
  | unlocking =>
      refine ⟨?_, by simp [onStateStep]⟩
      obtain ⟨hcan, hlistener, hmarked, hunmarked, -, -, -, hcleared, hfresh⟩ := hs
      constructor <;> simp_all [onStateStep, OnStatePc.locks]

/-- **Every step keeps them together, and none terminates the process.** -/
theorem Sound.step (hs : s.Sound) (hstep : step registered s i = some (s', es)) :
    s'.Sound ∧ HandoverEvent.terminate ∉ es := by
  have hexclusive := hs.exclusive
  cases stepped_of_step hstep with
  | report st hon => exact ⟨hs.setOnState (by rw [hon]; rfl) rfl (by simp), by simp⟩
  | onState hon => exact hs.onState_step hon
  | locked hpc hmutex =>
      refine ⟨?_, by simp⟩
      obtain ⟨hcan, -, hmarked, -, hlocking, hstoring, hsetting, -, -⟩ := hs
      constructor <;> simp_all [NmtListenerPc.locks]
  | cleared hpc =>
      refine ⟨?_, by simp⟩
      obtain ⟨hcan, hlistener, -, -, -, hstoring, -, -, -⟩ := hs
      constructor
      case setting =>
        intro st hon
        have hon' : s.onState = some (.setting st) := hon
        have hout : s.listener.locks = false := hexclusive (by rw [hon']; rfl)
        rw [hpc] at hout
        cases hout
      all_goals simp_all [NmtListenerPc.locks]
  | replaced hpc =>
      refine ⟨?_, by simp⟩
      obtain ⟨hcan, hlistener, -, -, -, -, hsetting, hcleared, -⟩ := hs
      constructor <;> simp_all [NmtListenerPc.locks]
  | unlocked hpc =>
      refine ⟨?_, by simp⟩
      obtain ⟨hcan, hlistener, hmarked, hunmarked, hlocking, hstoring, hsetting, -, -⟩ := hs
      constructor <;> simp_all [NmtListenerPc.locks]
  | passed hpc hl hwaits => exact ⟨hs.setListener hpc hl hwaits, by simp⟩
  | calledBack hpc =>
      refine ⟨hs.setListener (by rw [hpc]; rfl) rfl (by simp), ?_⟩
      cases registered with
      | true => simp
      | false => simp

/-! ## The order of the states -/

/-- No state overtakes another on its way. -/
def Ordered (h : List HandoverEvent) (s : NmtHandover) : Prop :=
  (s.onItsWay ++ calls h).Sublist (reports h)

/-- What neither reports nor calls, and adds nothing to what is on its way. -/
theorem Ordered.shrink (ho : Ordered h s) (hreports : reports es = []) (hcalls : calls es = [])
    (hway : s'.onItsWay.Sublist s.onItsWay) : Ordered (es ++ h) s' := by
  rw [reports] at hreports
  rw [calls] at hcalls
  rw [Ordered, reports, calls, List.filterMap_append, List.filterMap_append, hreports, hcalls,
    List.nil_append, List.nil_append]
  exact (List.Sublist.append_right hway _).trans ho

theorem Ordered.onState_step (ho : Ordered h s) (hs : s.Sound) {pc : OnStatePc}
    (hpc : s.onState = some pc) : Ordered ((s.onStateStep pc).2 ++ h) (s.onStateStep pc).1 := by
  cases pc with
  | testing st =>
      refine ho.shrink rfl rfl ?_
      cases hset : s.isSet with
      | true => simp [onStateStep, onItsWay, inCall, toCall, hset]
      | false => simp [onStateStep, onItsWay, inCall, toCall, hset, hpc]
  | locking st =>
      cases hmutex : s.mutex with
      | none =>
          simp only [onStateStep, hmutex]
          refine ho.shrink rfl rfl ?_
          simp [onItsWay, inCall, toCall, hpc]
      | some t =>
          simp only [onStateStep, hmutex]
          refine ho.shrink rfl rfl ?_
          simp [onItsWay, inCall, toCall]
  | storing st =>
      refine ho.shrink rfl rfl ?_
      simp [onStateStep, onItsWay, inCall, toCall, hpc]
  | setting st =>
      have hopen := (hs.setting st hpc).1
      simp only [onStateStep, hopen]
      refine ho.shrink rfl rfl ?_
      cases hlistener : s.listener <;> simp [onItsWay, inCall, toCall, hpc, hlistener, hopen]
  | unlocking =>
      refine ho.shrink rfl rfl ?_
      simp [onStateStep, onItsWay, inCall, toCall, hpc]

theorem Ordered.step (ho : Ordered h s) (hs : s.Sound)
    (hstep : step registered s i = some (s', es)) : Ordered (es ++ h) s' := by
  cases stepped_of_step hstep with
  | report st hon =>
      have hway : s.onItsWay = s.toCall.toList := by simp [onItsWay, inCall, hon]
      rw [Ordered, hway] at ho
      exact ho.cons_cons st.tracked
  | onState hon => exact ho.onState_step hs hon
  | locked => exact ho.shrink rfl rfl (by simp [onItsWay, toCall])
  | cleared => exact ho.shrink rfl rfl (by simp [onItsWay, toCall])
  | replaced => exact ho.shrink rfl rfl (by simp [onItsWay, toCall])
  | unlocked hpc =>
      -- the promise is new
      exact ho.shrink rfl rfl (by simp [onItsWay, toCall, hs.fresh hpc])
  | passed _ _ _ hcall =>
      refine ho.shrink rfl rfl (List.Sublist.append_left ?_ _)
      rcases hcall with hnone | hsame
      · rw [hnone]
        exact List.nil_sublist _
      · rw [hsame]
  | @calledBack i st hpc =>
      cases registered with
      | true =>
          have hway : s.onItsWay = (inCall s.onState).toList ++ [st] := by
            simp [onItsWay, toCall, hpc]
          have hleft : ({ s with listener := .reported } : NmtHandover).onItsWay =
              (inCall s.onState).toList := by simp [onItsWay, toCall]
          rw [Ordered, hway, List.append_assoc] at ho
          rw [Ordered, hleft]
          exact ho
      | false => exact ho.shrink rfl rfl (by simp [onItsWay, toCall])

theorem sound_of_reach (hr : Reach (system registered) Guard.free h s) :
    s.Sound ∧ HandoverEvent.terminate ∉ h ∧ Ordered h s := by
  refine hr.invariant
    (I := fun h s => s.Sound ∧ HandoverEvent.terminate ∉ h ∧ Ordered h s) ?_ ?_
  · rintro s ⟨isSet, rfl⟩
    refine ⟨?_, by simp, List.Sublist.refl _⟩
    constructor <;> simp [NmtListenerPc.locks]
  · intro h s i s' es hs _ hstep
    have hnext := hs.1.step hstep
    refine ⟨hnext.1, ?_, hs.2.2.step hs.1 hstep⟩
    simp [hnext.2, hs.2.1]

/-! ## A request that is outstanding -/

/-- `OnState` has been called with the state, in a call that began with the request open. -/
inductive Completes (n : ℕ) (st : NmtState) (new : List HandoverEvent) (s : NmtHandover) : Prop
  /-- It is on its way to the promise. -/
  | busy (pc : OnStatePc) (hon : s.onState = some pc) (hst : inCall (some pc) = some st)
      (hunset : pc = .testing st → s.isSet = false)
      (hrequest : .requested ∉ new → s.request = n)
  /-- It has completed the request, or a later one. -/
  | done (m : ℕ) (hfulfilled : .fulfilled m st ∈ new) (hrequest : .requested ∉ new → m = n)
  /-- It has found the mutex taken. -/
  | refused (hoccupied : .occupied ∈ new)

variable {n : ℕ} {st : NmtState}

theorem Completes.onState_step (hc : Completes n st new s) (hs : s.Sound) {pc : OnStatePc}
    (hpc : s.onState = some pc) :
    Completes n st ((s.onStateStep pc).2 ++ new) (s.onStateStep pc).1 := by
  cases hc with
  | done m hfulfilled hrequest =>
      refine .done m (List.mem_append_right _ hfulfilled) ?_
      intro hnone
      exact hrequest fun hmem => hnone (List.mem_append_right _ hmem)
  | refused hoccupied => exact .refused (List.mem_append_right _ hoccupied)
  | busy pc' hon hst hunset hrequest =>
      obtain rfl : pc' = pc := Option.some.inj (hon.symm.trans hpc)
      cases pc' with
      | testing st' =>
          obtain rfl := Option.some.inj hst
          have hset := hunset rfl
          exact .busy (.locking st') (by simp [onStateStep, hset]) rfl (by simp)
            (by simpa [onStateStep] using hrequest)
      | locking st' =>
          obtain rfl := Option.some.inj hst
          cases hmutex : s.mutex with
          | none =>
              simp only [onStateStep, hmutex]
              exact .busy (.storing st') rfl rfl (by simp) (by simpa using hrequest)
          | some t =>
              simp only [onStateStep, hmutex]
              exact .refused (by simp)
      | storing st' =>
          obtain rfl := Option.some.inj hst
          exact .busy (.setting st') rfl rfl (by simp)
            (by simpa [onStateStep] using hrequest)
      | setting st' =>
          obtain rfl := Option.some.inj hst
          have hopen := (hs.setting st' hpc).1
          simp only [onStateStep, hopen]
          exact .done s.request (by simp) (by simpa using hrequest)
      | unlocking => cases hst

/-- A step of the listener does not come in between. -/
theorem Completes.other (hc : Completes n st new s) (hon : s'.onState = s.onState)
    (hset : s.isSet = false → s'.isSet = false)
    (hrequest : .requested ∉ es → s'.request = s.request) : Completes n st (es ++ new) s' := by
  cases hc with
  | done m hfulfilled hm =>
      refine .done m (List.mem_append_right _ hfulfilled) ?_
      intro hnone
      exact hm fun hmem => hnone (List.mem_append_right _ hmem)
  | refused hoccupied => exact .refused (List.mem_append_right _ hoccupied)
  | busy pc hpc hst hunset hn =>
      refine .busy pc (hon.trans hpc) hst (fun htesting => hset (hunset htesting)) ?_
      intro hnone
      rw [hrequest fun hmem => hnone (List.mem_append_left _ hmem)]
      exact hn fun hmem => hnone (List.mem_append_right _ hmem)

theorem Completes.step (hc : Completes n st new s) (hs : s.Sound) (hi : ∀ x, i ≠ .report x)
    (hstep : step registered s i = some (s', es)) : Completes n st (es ++ new) s' := by
  cases stepped_of_step hstep with
  | report x => exact absurd rfl (hi x)
  | onState hon => exact hc.onState_step hs hon
  | cleared => exact hc.other rfl (fun _ => rfl) fun _ => rfl
  | replaced => exact hc.other rfl id fun hnone => absurd List.mem_cons_self hnone
  | locked => exact hc.other rfl id fun _ => rfl
  | unlocked => exact hc.other rfl id fun _ => rfl
  | passed => exact hc.other rfl id fun _ => rfl
  | calledBack => exact hc.other rfl id fun _ => rfl

end Steps

end NmtHandover
end RosCanopen.Core
