import RosCanopen.Cia408.Climb

/-!
# Deactivating the node

`deactivate` takes the node apart step by step while the poll timer still runs:
clear the flag, remove the driver from the master, disable the axis, join the
listener, cancel the timer, drop the queues, post the reset of the axis.  Disabling
only records the word for the next poll cycle, and nothing in these steps waits for
one.

Each step of `deactivate`, of the executor and of the poll callback is a step here,
in any order.  Services call the axis until `deactivate` starts.

## Main definitions

* `Node408`, `Node408.system` — the node from activation on.
* `lastTransmitted`, `sinceDisable`, `beforeDisable` — read off a history.
* `Node408.Stopped` — no control word can be streamed any more.
-/

namespace RosCanopen.Cia408

open Lib

/-- How far `deactivate` has got. -/
inductive Stage
  | running
  | cleared
  | removing
  | removed
  | disabled
  | joined
  | cancelled
  | emcyReset
  | rpdoReset
  | done
  /-- `remove_from_master` has timed out and thrown. -/
  | aborted
  deriving DecidableEq, Repr

/-- How far `poll_timer_callback` has got. -/
inductive Poll
  | idle
  /-- The executor has picked the timer up. -/
  | due
  | emcyDrained
  | drained
  /-- `axis_` has been found non-null. -/
  | checked
  | spun
  deriving DecidableEq, Repr

/-- What is posted to the executor of the bus. -/
inductive Task
  /-- `driver_.reset(); lely_driver_.reset()`. -/
  | resetDriver
  /-- `axis_.reset()`. -/
  | resetAxis
  deriving DecidableEq

/-- The members of the node that deactivation touches.  The pointers are given by
whether they are set. -/
structure Node408 where
  axis : HydraulicAxis
  axisSet : Bool
  lelyDriverSet : Bool
  emcyQueueSet : Bool
  rpdoQueueSet : Bool
  activated : Bool
  pollTimer : Bool
  tasks : List Task
  stage : Stage
  poll : Poll
  /-- A null pointer has been dereferenced. -/
  crashed : Bool
  deriving DecidableEq

/-- What happens on the node. -/
inductive NodeEvent
  | axis (event : Event)
  /-- `deactivate` has disabled the axis. -/
  | disabled
  deriving DecidableEq

/-- A step of the node. -/
inductive NodeStep
  /-- A service calls the axis. -/
  | service (call : HydraulicAxis.Call)
  /-- The next step of `deactivate`; `timely` unless the wait for the master times out. -/
  | deactivate (timely : Bool)
  /-- The executor runs its next task. -/
  | execute
  /-- The poll timer fires. -/
  | fire
  /-- The next step of the poll callback; `calls` if a message is popped for which a
  callback is registered, which asks `lely_driver_` for its id. -/
  | poll (calls cwSent setpointSent : Bool)
  deriving DecidableEq

namespace Node408

/-- The node as `activate` leaves it. -/
def activatedNode : Node408 where
  axis := .constructed
  axisSet := true
  lelyDriverSet := true
  emcyQueueSet := true
  rpdoQueueSet := true
  activated := true
  pollTimer := true
  tasks := []
  stage := .running
  poll := .idle
  crashed := false

/-- The next step of `deactivate`. -/
def deactivate (s : Node408) (timely : Bool) : Option (Node408 × List NodeEvent) :=
  match s.stage with
  | .running => some ({ s with activated := false, stage := .cleared }, [])
  | .cleared => some ({ s with tasks := s.tasks ++ [.resetDriver], stage := .removing }, [])
  | .removing =>
      if timely then
        if s.lelyDriverSet then none else some ({ s with stage := .removed }, [])
      else some ({ s with stage := .aborted }, [])
  | .removed =>
      if s.axisSet then
        some ({ s with axis := s.axis.disable, stage := .disabled },
          [.disabled, .axis (.ordered .disable)])
      else some ({ s with stage := .disabled }, [.disabled])
  | .disabled => some ({ s with stage := .joined }, [])
  | .joined => some ({ s with pollTimer := false, stage := .cancelled }, [])
  | .cancelled => some ({ s with emcyQueueSet := false, stage := .emcyReset }, [])
  | .emcyReset => some ({ s with rpdoQueueSet := false, stage := .rpdoReset }, [])
  | .rpdoReset => some ({ s with tasks := s.tasks ++ [.resetAxis], stage := .done }, [])
  | .done | .aborted => none

/-- The next task of the executor. -/
def execute (s : Node408) : Option (Node408 × List NodeEvent) :=
  match s.tasks with
  | [] => none
  | .resetDriver :: tasks => some ({ s with lelyDriverSet := false, tasks := tasks }, [])
  | .resetAxis :: tasks => some ({ s with axisSet := false, tasks := tasks }, [])

/-- Drain a queue: a null queue and a callback without a driver end the process. -/
def drain (s : Node408) (queueSet calls : Bool) (next : Poll) : Node408 × List NodeEvent :=
  if queueSet = true ∧ (calls = true → s.lelyDriverSet = true) then ({ s with poll := next }, [])
  else ({ s with crashed := true }, [])

/-- The next step of `poll_timer_callback`. -/
def pollTimerCallback (s : Node408) (calls cwSent setpointSent : Bool) :
    Option (Node408 × List NodeEvent) :=
  match s.poll with
  | .idle => none
  | .due => some (s.drain s.emcyQueueSet calls .emcyDrained)
  | .emcyDrained => some (s.drain s.rpdoQueueSet calls .drained)
  | .drained => some ({ s with poll := if s.axisSet then .checked else .spun }, [])
  | .checked =>
      if s.axisSet then
        let (axis, es) := s.axis.spinOnce cwSent setpointSent
        some ({ s with axis := axis, poll := .spun }, es.map .axis)
      else some ({ s with crashed := true }, [])
  | .spun => some ({ s with poll := .idle }, [])

/-- One step. -/
def step (s : Node408) : NodeStep → Option (Node408 × List NodeEvent)
  | .service call =>
      if s.stage = .running then
        let (axis, es) := s.axis.call call
        some ({ s with axis := axis }, es.map .axis)
      else none
  | .deactivate timely => s.deactivate timely
  | .execute => s.execute
  | .fire => if s.pollTimer ∧ s.poll = .idle then some ({ s with poll := .due }, []) else none
  | .poll calls cwSent setpointSent => s.pollTimerCallback calls cwSent setpointSent

/-- The node from activation on. -/
def system : System Node408 NodeStep NodeEvent where
  init s := s = activatedNode
  step s i := if s.crashed then none else s.step i

/-- No control word can be streamed any more. -/
def Stopped (s : Node408) : Prop :=
  s.crashed = true ∨ s.axisSet = false ∨
    (s.pollTimer = false ∧ (s.poll = .idle ∨ s.poll = .spun))

instance (s : Node408) : Decidable s.Stopped :=
  inferInstanceAs (Decidable (_ ∨ _ ∨ (_ ∧ (_ ∨ _))))

end Node408

/-! ## Histories -/

/-- The control word of a transmission. -/
def NodeEvent.transmitted : NodeEvent → Option Word
  | .axis (.controlword cw true) => some cw
  | _ => none

/-- The last control word transmitted. -/
def lastTransmitted (h : List NodeEvent) : Option Word := h.findSome? NodeEvent.transmitted

/-- What has happened since `deactivate` disabled the axis. -/
def sinceDisable (h : List NodeEvent) : List NodeEvent := h.takeWhile (· ≠ .disabled)

/-- What happened before `deactivate` disabled the axis, if it has. -/
def beforeDisable (h : List NodeEvent) : List NodeEvent :=
  if .disabled ∈ h then (h.dropWhile (· ≠ .disabled)).tail else h

theorem sinceDisable_append {es : List NodeEvent} (h : List NodeEvent) (hes : .disabled ∉ es) :
    sinceDisable (es ++ h) = es ++ sinceDisable h := by
  refine List.takeWhile_append_of_pos fun e he => ?_
  simp only [decide_eq_true_eq]
  exact fun heq => hes (heq ▸ he)

theorem eq_sinceDisable_append {h : List NodeEvent} (hmark : .disabled ∈ h) :
    h = sinceDisable h ++ .disabled :: beforeDisable h := by
  induction h with
  | nil => simp at hmark
  | cons e h ih =>
      by_cases he : e = .disabled
      · subst he
        simp [sinceDisable, beforeDisable]
      · have hmark' : .disabled ∈ h := (List.mem_cons.mp hmark).resolve_left (Ne.symm he)
        simpa [sinceDisable, beforeDisable, he, hmark'] using ih hmark'

/-- The last transmission is one since the axis has been disabled, or else one before. -/
theorem lastTransmitted_eq {h : List NodeEvent} (hmark : .disabled ∈ h) :
    lastTransmitted h =
      (lastTransmitted (sinceDisable h)).or (lastTransmitted (beforeDisable h)) := by
  have hnone : NodeEvent.transmitted .disabled = none := rfl
  conv_lhs => rw [eq_sinceDisable_append hmark]
  simp only [lastTransmitted, List.findSome?_append, List.findSome?_cons, hnone]

/-! ## What the node keeps to -/

/-- `deactivate` has disabled the axis. -/
def Stage.pastDisable : Stage → Bool
  | .running | .cleared | .removing | .removed | .aborted => false
  | _ => true

namespace Node408

/-- Once disabled the axis streams nothing but `disabled`, and neither the timer nor the
axis goes away before. -/
structure Quiesced (h : List NodeEvent) (s : Node408) : Prop where
  mark : .disabled ∈ h ↔ s.stage.pastDisable = true
  quiet : s.stage.pastDisable = true →
    s.axis.phase = .idle ∧ s.axis.currentCw = ControlWord.disabled
  words : s.stage.pastDisable = true → ∀ e ∈ sinceDisable h, ∀ cw, e.transmitted = some cw →
    cw = ControlWord.disabled
  kept : s.axisSet = false ∨ .resetAxis ∈ s.tasks → s.stage.pastDisable = true
  timer : s.pollTimer = false → s.stage.pastDisable = true

namespace Quiesced
variable {h : List NodeEvent} {s s' : Node408} {es : List NodeEvent}

/-- The steps that leave the axis alone and say nothing. -/
theorem silent (hs : s.Quiesced h) (haxis : s'.axis = s.axis)
    (hpast : s'.stage.pastDisable = s.stage.pastDisable)
    (hkept : s'.axisSet = false ∨ .resetAxis ∈ s'.tasks → s.stage.pastDisable = true)
    (htimer : s'.pollTimer = false → s.stage.pastDisable = true) : s'.Quiesced h := by
  refine ⟨?_, ?_, ?_, ?_, ?_⟩ <;> rw [hpast]
  · exact hs.mark
  · exact haxis ▸ hs.quiet
  · exact hs.words
  · exact hkept
  · exact htimer

/-- The step that disables the axis starts the record of its words anew. -/
theorem disable (h : List NodeEvent) (s : Node408) (axis : HydraulicAxis)
    (haxis : axis.phase = .idle ∧ axis.currentCw = ControlWord.disabled) (es : List NodeEvent) :
    Quiesced (.disabled :: es ++ h) { s with axis := axis, stage := .disabled } where
  mark := by simp [Stage.pastDisable]
  quiet _ := haxis
  words := by simp [sinceDisable]
  kept _ := rfl
  timer _ := rfl

theorem deactivate {timely : Bool} (hs : s.Quiesced h)
    (hstep : s.deactivate timely = some (s', es)) : s'.Quiesced (es ++ h) := by
  -- before the axis is disabled neither the timer nor the axis has gone
  have hearly : s.stage.pastDisable = false →
      s.axisSet = true ∧ .resetAxis ∉ s.tasks ∧ s.pollTimer = true := fun hpast => by
    have hkept := hs.kept
    have htimer := hs.timer
    simp only [hpast, Bool.false_eq_true, imp_false, not_or, Bool.not_eq_false] at hkept htimer
    exact ⟨hkept.1, hkept.2, htimer⟩
  rw [Node408.deactivate] at hstep
  split at hstep
  · next hstage =>
      obtain ⟨rfl, rfl⟩ := Prod.mk.inj (Option.some.inj hstep)
      exact hs.silent rfl (by rw [hstage]; rfl) hs.kept hs.timer
  · next hstage =>
      obtain ⟨rfl, rfl⟩ := Prod.mk.inj (Option.some.inj hstep)
      refine hs.silent rfl (by rw [hstage]; rfl) (fun hor => hs.kept ?_) hs.timer
      exact hor.imp_right fun hmem => by simpa using hmem
  · next hstage =>
      split at hstep
      · split at hstep
        · contradiction
        · obtain ⟨rfl, rfl⟩ := Prod.mk.inj (Option.some.inj hstep)
          exact hs.silent rfl (by rw [hstage]; rfl) hs.kept hs.timer
      · obtain ⟨rfl, rfl⟩ := Prod.mk.inj (Option.some.inj hstep)
        exact hs.silent rfl (by rw [hstage]; rfl) hs.kept hs.timer
  · next hstage =>
      have hset := (hearly (by rw [hstage]; rfl)).1
      rw [if_pos hset] at hstep
      obtain ⟨rfl, rfl⟩ := Prod.mk.inj (Option.some.inj hstep)
      exact disable h s s.axis.disable ⟨rfl, rfl⟩ [.axis (.ordered .disable)]
  all_goals first | contradiction | skip
  all_goals
    next hstage =>
      have hpast : s.stage.pastDisable = true := by rw [hstage]; rfl
      obtain ⟨rfl, rfl⟩ := Prod.mk.inj (Option.some.inj hstep)
      exact hs.silent rfl hpast.symm (fun _ => hpast) (fun _ => hpast)

theorem execute (hs : s.Quiesced h) (hstep : s.execute = some (s', es)) :
    s'.Quiesced (es ++ h) := by
  rw [Node408.execute] at hstep
  split at hstep
  · contradiction
  · next tasks htasks =>
      obtain ⟨rfl, rfl⟩ := Prod.mk.inj (Option.some.inj hstep)
      refine hs.silent rfl rfl (fun hor => hs.kept ?_) hs.timer
      exact hor.imp_right fun hmem => by simp [htasks, hmem]
  · next tasks htasks =>
      obtain ⟨rfl, rfl⟩ := Prod.mk.inj (Option.some.inj hstep)
      exact hs.silent rfl rfl (fun _ => hs.kept (.inr (by simp [htasks]))) hs.timer

/-- A cycle of a disabled axis streams `disabled`. -/
theorem spin (hs : s.Quiesced h) (cwSent setpointSent : Bool) :
    Quiesced ((s.axis.spinOnce cwSent setpointSent).2.map .axis ++ h)
      { s with axis := (s.axis.spinOnce cwSent setpointSent).1, poll := .spun } := by
  rw [HydraulicAxis.spinOnce_eq]
  have hes : NodeEvent.disabled ∉
      List.map NodeEvent.axis [Event.setpoint s.axis.lastSetpoint setpointSent,
        Event.controlword s.axis.advancePhaseLocked.currentCw cwSent] := by simp
  refine ⟨?_, ?_, ?_, hs.kept, hs.timer⟩
  · simpa using hs.mark
  · intro hpast
    rw [HydraulicAxis.advancePhaseLocked_idle (hs.quiet hpast).1]
    exact hs.quiet hpast
  · intro hpast e he cw hcw
    rw [sinceDisable_append h hes] at he
    rcases List.mem_append.mp he with he | he
    · rw [HydraulicAxis.advancePhaseLocked_idle (hs.quiet hpast).1] at he
      simp only [List.map_cons, List.map_nil, List.mem_cons, List.not_mem_nil, or_false] at he
      rcases he with rfl | rfl
      · simp [NodeEvent.transmitted] at hcw
      · cases cwSent with
        | false => simp [NodeEvent.transmitted] at hcw
        | true => exact (Option.some.inj hcw).symm.trans (hs.quiet hpast).2
    · exact hs.words hpast e he cw hcw

theorem pollTimerCallback {calls cwSent setpointSent : Bool} (hs : s.Quiesced h)
    (hstep : s.pollTimerCallback calls cwSent setpointSent = some (s', es)) :
    s'.Quiesced (es ++ h) := by
  have hdrain : ∀ queueSet next, Quiesced ((s.drain queueSet calls next).2 ++ h)
      (s.drain queueSet calls next).1 := by
    intro queueSet next
    rw [drain]
    split <;> exact hs.silent rfl rfl hs.kept hs.timer
  rw [Node408.pollTimerCallback] at hstep
  split at hstep
  · contradiction
  · have hdrained := hdrain s.emcyQueueSet .emcyDrained
    rwa [Option.some.inj hstep] at hdrained
  · have hdrained := hdrain s.rpdoQueueSet .drained
    rwa [Option.some.inj hstep] at hdrained
  · obtain ⟨rfl, rfl⟩ := Prod.mk.inj (Option.some.inj hstep)
    exact hs.silent rfl rfl hs.kept hs.timer
  · split at hstep
    · obtain ⟨rfl, rfl⟩ := Prod.mk.inj (Option.some.inj hstep)
      exact hs.spin cwSent setpointSent
    · obtain ⟨rfl, rfl⟩ := Prod.mk.inj (Option.some.inj hstep)
      exact hs.silent rfl rfl hs.kept hs.timer
  · obtain ⟨rfl, rfl⟩ := Prod.mk.inj (Option.some.inj hstep)
    exact hs.silent rfl rfl hs.kept hs.timer

/-- Services call the axis only before `deactivate`. -/
theorem service (hs : s.Quiesced h) (hrunning : s.stage = .running) (axis : HydraulicAxis)
    (es : List Event) : Quiesced (es.map .axis ++ h) { s with axis := axis } := by
  have hpast : s.stage.pastDisable = false := by rw [hrunning]; rfl
  refine ⟨?_, ?_, ?_, hs.kept, hs.timer⟩
  · simpa using hs.mark
  · simp [hpast]
  · simp [hpast]

theorem of_reach (hr : Reach system Guard.free h s) : s.Quiesced h := by
  induction hr with
  | init hs =>
      subst hs
      exact ⟨by decide, by decide, by decide, by decide, by decide⟩
  | @step h s s' i es _ _ hstep ih =>
      simp only [system] at hstep
      split at hstep
      · contradiction
      · cases i with
        | service call =>
            simp only [Node408.step] at hstep
            split at hstep
            · next hrunning =>
                obtain ⟨rfl, rfl⟩ := Prod.mk.inj (Option.some.inj hstep)
                exact ih.service hrunning _ _
            · contradiction
        | deactivate timely => exact ih.deactivate hstep
        | execute => exact ih.execute hstep
        | fire =>
            simp only [Node408.step] at hstep
            split at hstep
            · obtain ⟨rfl, rfl⟩ := Prod.mk.inj (Option.some.inj hstep)
              exact ih.silent rfl rfl ih.kept ih.timer
            · contradiction
        | poll calls cwSent setpointSent => exact ih.pollTimerCallback hstep

/-- Every word transmitted since the axis has been disabled is `disabled`. -/
theorem lastTransmitted_sinceDisable (hs : s.Quiesced h) (hmark : .disabled ∈ h) {cw : Word}
    (hcw : lastTransmitted (sinceDisable h) = some cw) : cw = ControlWord.disabled := by
  obtain ⟨e, he, htrans⟩ := List.exists_of_findSome?_eq_some hcw
  exact hs.words (hs.mark.mp hmark) e he cw htrans

end Quiesced

/-! ## When streaming has stopped -/

section Stopped
variable {h : List NodeEvent} {s s' : Node408} {es : List NodeEvent}

/-- A step that takes neither the timer nor the axis back and leaves the poll callback
where it is. -/
theorem Stopped.frame (hstop : s.Stopped) (hcrashed : s.crashed = true → s'.crashed = true)
    (haxis : s.axisSet = false → s'.axisSet = false)
    (htimer : s.pollTimer = false → s'.pollTimer = false) (hpoll : s'.poll = s.poll) :
    s'.Stopped := by
  rcases hstop with hc | ha | ⟨ht, hp⟩
  · exact .inl (hcrashed hc)
  · exact .inr (.inl (haxis ha))
  · exact .inr (.inr ⟨htimer ht, hpoll.symm ▸ hp⟩)

theorem Stopped.deactivate {timely : Bool} (hstop : s.Stopped)
    (hstep : s.deactivate timely = some (s', es)) :
    s'.Stopped ∧ ∀ e ∈ es, e.transmitted = none := by
  rw [Node408.deactivate] at hstep
  split at hstep
  case h_3 =>
    split at hstep
    · split at hstep
      · contradiction
      · obtain ⟨rfl, rfl⟩ := Prod.mk.inj (Option.some.inj hstep)
        exact ⟨hstop.frame id id id rfl, by simp⟩
    · obtain ⟨rfl, rfl⟩ := Prod.mk.inj (Option.some.inj hstep)
      exact ⟨hstop.frame id id id rfl, by simp⟩
  case h_4 =>
    split at hstep <;> obtain ⟨rfl, rfl⟩ := Prod.mk.inj (Option.some.inj hstep)
    · exact ⟨hstop.frame id id id rfl, by simp [NodeEvent.transmitted]⟩
    · exact ⟨hstop.frame id id id rfl, by simp [NodeEvent.transmitted]⟩
  case h_6 =>
    obtain ⟨rfl, rfl⟩ := Prod.mk.inj (Option.some.inj hstep)
    exact ⟨hstop.frame id id (fun _ => rfl) rfl, by simp⟩
  all_goals first | contradiction | skip
  all_goals
    obtain ⟨rfl, rfl⟩ := Prod.mk.inj (Option.some.inj hstep)
    exact ⟨hstop.frame id id id rfl, by simp⟩

theorem Stopped.execute (hstop : s.Stopped) (hstep : s.execute = some (s', es)) :
    s'.Stopped ∧ ∀ e ∈ es, e.transmitted = none := by
  rw [Node408.execute] at hstep
  split at hstep
  · contradiction
  · obtain ⟨rfl, rfl⟩ := Prod.mk.inj (Option.some.inj hstep)
    exact ⟨hstop.frame id id id rfl, by simp⟩
  · obtain ⟨rfl, rfl⟩ := Prod.mk.inj (Option.some.inj hstep)
    exact ⟨hstop.frame id (fun _ => rfl) id rfl, by simp⟩

/-- A callback that has not yet checked for the axis finds none, and one that has crashes. -/
theorem Stopped.pollTimerCallback {calls cwSent setpointSent : Bool} (hstop : s.Stopped)
    (halive : s.crashed = false)
    (hstep : s.pollTimerCallback calls cwSent setpointSent = some (s', es)) :
    s'.Stopped ∧ ∀ e ∈ es, e.transmitted = none := by
  rcases hstop with hc | haxis | ⟨htimer, hidle | hspun⟩
  · simp [halive] at hc
  · have hdrain : ∀ queueSet next, (s.drain queueSet calls next).1.Stopped ∧
        ∀ e ∈ (s.drain queueSet calls next).2, e.transmitted = none := by
      intro queueSet next
      rw [drain]
      split
      · exact ⟨.inr (.inl haxis), by simp⟩
      · exact ⟨.inl rfl, by simp⟩
    rw [Node408.pollTimerCallback] at hstep
    split at hstep
    · contradiction
    · have hdrained := hdrain s.emcyQueueSet .emcyDrained
      rwa [Option.some.inj hstep] at hdrained
    · have hdrained := hdrain s.rpdoQueueSet .drained
      rwa [Option.some.inj hstep] at hdrained
    · obtain ⟨rfl, rfl⟩ := Prod.mk.inj (Option.some.inj hstep)
      exact ⟨.inr (.inl haxis), by simp⟩
    · rw [if_neg (by simp [haxis])] at hstep
      obtain ⟨rfl, rfl⟩ := Prod.mk.inj (Option.some.inj hstep)
      exact ⟨.inl rfl, by simp⟩
    · obtain ⟨rfl, rfl⟩ := Prod.mk.inj (Option.some.inj hstep)
      exact ⟨.inr (.inl haxis), by simp⟩
  · simp [Node408.pollTimerCallback, hidle] at hstep
  · simp only [Node408.pollTimerCallback, hspun, Option.some.injEq, Prod.mk.injEq] at hstep
    obtain ⟨rfl, rfl⟩ := hstep
    exact ⟨.inr (.inr ⟨htimer, .inl rfl⟩), by simp⟩

/-- **From a stopped node no control word comes any more**, and it stays stopped. -/
theorem Stopped.step {i : NodeStep} (hr : Reach system Guard.free h s) (hstop : s.Stopped)
    (hstep : system.step s i = some (s', es)) :
    s'.Stopped ∧ ∀ e ∈ es, e.transmitted = none := by
  have hs := Quiesced.of_reach hr
  simp only [system] at hstep
  split at hstep
  · contradiction
  · next hcrashed =>
      have halive : s.crashed = false := Bool.eq_false_iff.mpr hcrashed
      cases i with
      | service call =>
          have hpast : s.stage.pastDisable = true := by
            rcases hstop with hc | haxis | ⟨htimer, -⟩
            · simp [halive] at hc
            · exact hs.kept (.inl haxis)
            · exact hs.timer htimer
          have hrunning : s.stage ≠ .running := fun heq => by simp [heq, Stage.pastDisable] at hpast
          simp [Node408.step, hrunning] at hstep
      | deactivate timely => exact hstop.deactivate hstep
      | execute => exact hstop.execute hstep
      | fire =>
          simp only [Node408.step] at hstep
          split at hstep
          · next hfire =>
              obtain ⟨rfl, rfl⟩ := Prod.mk.inj (Option.some.inj hstep)
              rcases hstop with hc | haxis | ⟨htimer, -⟩
              · simp [halive] at hc
              · exact ⟨.inr (.inl haxis), by simp⟩
              · simp [htimer] at hfire
          · contradiction
      | poll calls cwSent setpointSent => exact hstop.pollTimerCallback halive hstep

end Stopped

/-- **Whether deactivating leaves the valve disabled.**  Once nothing can be streamed any
more, `deactivate` has disabled the axis unless the process has died, and the last control
word transmitted is `disabled` exactly when a poll cycle has transmitted one after that,
or the last one transmitted before was `disabled` already. -/
theorem lastTransmitted_disabled_iff {h : List NodeEvent} {s : Node408}
    (hr : Reach system Guard.free h s) (hstop : s.Stopped) :
    (s.crashed = false → .disabled ∈ h) ∧
      (lastTransmitted h = some ControlWord.disabled ↔
        (.disabled ∈ h ∧ (lastTransmitted (sinceDisable h)).isSome = true) ∨
          lastTransmitted (beforeDisable h) = some ControlWord.disabled) := by
  have hs := Quiesced.of_reach hr
  refine ⟨fun halive => hs.mark.mpr ?_, ?_⟩
  · rcases hstop with hc | haxis | ⟨htimer, -⟩
    · simp [halive] at hc
    · exact hs.kept (.inl haxis)
    · exact hs.timer htimer
  · by_cases hmark : .disabled ∈ h
    · rw [lastTransmitted_eq hmark]
      cases hsince : lastTransmitted (sinceDisable h) with
      | none => simp [hmark]
      | some cw => simp [hmark, hs.lastTransmitted_sinceDisable hmark hsince]
    · simp [hmark, beforeDisable]

/-- A whole poll callback, its writes accepted. -/
def cycle : List NodeStep := .fire :: List.replicate 5 (.poll false true true)

/-- `deactivate` up to the disabling of the axis, and the rest of it. -/
def deactivation : List NodeStep × List NodeStep :=
  ([.deactivate true, .deactivate true, .execute, .deactivate true, .deactivate true],
    List.replicate 5 (.deactivate true) ++ [.execute])

theorem lastTransmitted_disabled_after_cycle : ∃ h s, Reach system Guard.free h s ∧
    s.Stopped ∧ lastTransmitted h = some ControlWord.disabled := by
  have h0 : Reach system Guard.free [] activatedNode := .init rfl
  have hrun := System.reach_run system ((.service (.order .enable) :: cycle) ++
    deactivation.1 ++ cycle ++ deactivation.2) h0 rfl
  exact ⟨_, _, hrun, by decide,
    (lastTransmitted_disabled_iff hrun (by decide)).2.mpr (.inl (by decide))⟩

/-- A climbing axis whose node is deactivated with no poll cycle in between: the last word
on the bus is that of the climb. -/
theorem not_disabled_without_cycle : ∃ h₀ s₀ h s, Reach system Guard.free h₀ s₀ ∧
    s₀.stage = .running ∧ s₀.axis.phase = .init ∧
    system.run (deactivation.1 ++ deactivation.2) h₀ s₀ = some (h, s) ∧
    s.Stopped ∧ s.crashed = false ∧ lastTransmitted h = some ControlWord.init := by
  have h0 : Reach system Guard.free [] activatedNode := .init rfl
  have hclimb := System.reach_run system (.service (.order .enable) :: cycle) h0 rfl
  exact ⟨_, _, _, _, hclimb, rfl, rfl, rfl, by decide, rfl, rfl⟩

end Node408
end RosCanopen.Cia408
