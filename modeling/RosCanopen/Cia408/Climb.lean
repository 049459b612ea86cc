import RosCanopen.Cia408.Axis

/-!
# The climb of the hydraulic axis

What an order asks for is a script of control words, each streamed for a dwell, and a
steady word after it.  The axis follows the script of its last order: the words it has
streamed since then and those still to come make up the script, followed by the steady
word as often as the axis has idled.

## Main definitions

* `Order.script`, `Order.steady` — what an order asks for.
* `lastOrder`, `wordsSince` — read off a history.
* `HydraulicAxis.climb` — the axis as a sequencer that dwells.
* `HydraulicAxis.Follows` — the invariant.
-/

namespace RosCanopen.Cia408

open Lib

/-! ## What an order asks for -/

/-- The words of the phases from one phase on. -/
def Phase.rest : Phase → List Word
  | .idle => []
  | .faultReset =>
      [ControlWord.faultReset, ControlWord.init, ControlWord.disabled, ControlWord.hold,
        ControlWord.active]
  | .init => [ControlWord.init, ControlWord.disabled, ControlWord.hold, ControlWord.active]
  | .disabled => [ControlWord.disabled, ControlWord.hold, ControlWord.active]
  | .hold => [ControlWord.hold, ControlWord.active]
  | .active => [ControlWord.active]

namespace Order

/-- The phase an order starts in. -/
def phase : Order → Phase
  | .enable => .init
  | .recover => .faultReset
  | .hold | .disable => .idle

/-- The order starts a climb. -/
def climbs : Order → Bool
  | .enable | .recover => true
  | .hold | .disable => false

/-- The word streamed once the script is over. -/
def steady : Order → Word
  | .enable | .recover => ControlWord.active
  | .hold => ControlWord.hold
  | .disable => ControlWord.disabled

/-- The words to stream first. -/
def script (o : Order) : List Word := Dwell.script phaseDwellTicks o.phase.rest

theorem steady_eq_active {o : Order} : o.steady = ControlWord.active ↔ o.climbs = true := by
  cases o <;> decide

end Order

/-! ## Histories -/

/-- The last order of a history. -/
def lastOrder (h : List Event) : Option Order :=
  h.findSome? fun
    | .ordered o => some o
    | _ => none

/-- The order that the axis is under: constructed is as good as disabled. -/
def order (h : List Event) : Order := (lastOrder h).getD .disable

/-- The control words streamed since the last order, newest first. -/
def wordsSince : List Event → List Word
  | [] => []
  | .ordered _ :: _ => []
  | .controlword cw _ :: h => cw :: wordsSince h
  | .setpoint _ _ :: h => wordsSince h
  | .commanded _ :: h => wordsSince h

namespace Event

/-- `enable` or `recover` has been called. -/
def isStart : Event → Bool
  | .ordered o => o.climbs
  | _ => false

/-- Anything but a call of `set_setpoint`. -/
def isNotCommand : Event → Bool
  | .commanded _ => false
  | _ => true

end Event

namespace HydraulicAxis

/-- The axis as a sequencer that dwells. -/
def climb (s : HydraulicAxis) : Dwell Word := ⟨s.phase.rest, s.phaseTicks⟩

theorem advancePhaseLocked_idle {s : HydraulicAxis} (h : s.phase = .idle) :
    s.advancePhaseLocked = s := by
  simp [advancePhaseLocked, h, Phase.word]

/-- **Advancing refines the sequencer**: it holds the next word of the climb. -/
theorem tick_climb {s : HydraulicAxis} (h : s.phase ≠ .idle) :
    s.climb.tick phaseDwellTicks =
      some (s.advancePhaseLocked.currentCw, s.advancePhaseLocked.climb) := by
  obtain ⟨enabled, currentCw, lastSetpoint, phase, phaseTicks⟩ := s
  by_cases hlt : phaseTicks + 1 < phaseDwellTicks <;> cases phase <;>
    simp [climb, Phase.rest, Phase.next, Phase.word, Dwell.tick, advancePhaseLocked, hlt] at h ⊢

/-- Advancing from a phase either stays in the climb or ends it, enabled. -/
theorem advancePhaseLocked_climbing {s : HydraulicAxis} (h : s.phase ≠ .idle) :
    (s.advancePhaseLocked.phase = .idle ∧ s.advancePhaseLocked.enabled = true ∧
        s.advancePhaseLocked.currentCw = ControlWord.active) ∨
      (s.advancePhaseLocked.phase ≠ .idle ∧ s.advancePhaseLocked.enabled = s.enabled) := by
  obtain ⟨enabled, currentCw, lastSetpoint, phase, phaseTicks⟩ := s
  by_cases hlt : phaseTicks + 1 < phaseDwellTicks <;> cases phase <;>
    simp [Phase.next, Phase.word, advancePhaseLocked, hlt] at h ⊢

@[simp] theorem lastSetpoint_advancePhaseLocked (s : HydraulicAxis) :
    s.advancePhaseLocked.lastSetpoint = s.lastSetpoint := by
  rw [advancePhaseLocked]
  split
  · rfl
  · split <;> rfl

/-- Writing the current word changes nothing, sent or not. -/
theorem writeControlword_currentCw (s : HydraulicAxis) (sent : Bool) :
    s.writeControlword s.currentCw sent = (s, [.controlword s.currentCw sent]) := by
  cases sent <;> rfl

theorem spinOnce_eq (s : HydraulicAxis) (cwSent setpointSent : Bool) :
    s.spinOnce cwSent setpointSent = (s.advancePhaseLocked,
      [.setpoint s.lastSetpoint setpointSent,
        .controlword s.advancePhaseLocked.currentCw cwSent]) := by
  simp only [spinOnce, writeControlword_currentCw, sendSetpoint, lastSetpoint_advancePhaseLocked,
    List.singleton_append]

/-- The axis follows the script of its order. -/
structure Follows (h : List Event) (s : HydraulicAxis) : Prop where
  ticks : s.phaseTicks < phaseDwellTicks
  climbing : s.phase ≠ .idle → (order h).climbs = true ∧
    (wordsSince h).reverse ++ s.climb.toCome phaseDwellTicks = (order h).script
  idle : s.phase = .idle → s.currentCw = (order h).steady ∧
    ∃ k, (wordsSince h).reverse = (order h).script ++ List.replicate k (order h).steady
  enabled : s.enabled = true ↔ s.phase = .idle ∧ (order h).climbs = true
  unset : since Event.isNotCommand Event.isStart h = true → s.lastSetpoint = 0

namespace Follows
variable {h : List Event} {s : HydraulicAxis}

theorem constructed : Follows [] constructed where
  ticks := by decide
  climbing h := absurd rfl h
  idle _ := ⟨rfl, 0, rfl⟩
  enabled := by decide
  unset h := by simp at h

/-- A new order starts its script. -/
theorem obey (hs : s.Follows h) (o : Order) : (s.obey o).Follows (.ordered o :: h) := by
  have hdwell : 0 < phaseDwellTicks := by decide
  cases o with
  | enable =>
      refine ⟨hdwell, fun _ => ⟨rfl, rfl⟩, fun hidle => Phase.noConfusion hidle, ?_, fun _ => rfl⟩
      simp [HydraulicAxis.obey, enable]
  | recover =>
      refine ⟨hdwell, fun _ => ⟨rfl, rfl⟩, fun hidle => Phase.noConfusion hidle, ?_, fun _ => rfl⟩
      simp [HydraulicAxis.obey, recover]
  | hold =>
      refine ⟨hs.ticks, fun hne => absurd rfl hne, fun _ => ⟨rfl, 0, rfl⟩, ?_, ?_⟩
      · simp [HydraulicAxis.obey, HydraulicAxis.hold, order, lastOrder, Order.climbs]
      · intro hsince
        exact hs.unset (by simpa [Event.isStart, Event.isNotCommand, Order.climbs] using hsince)
  | disable =>
      refine ⟨hs.ticks, fun hne => absurd rfl hne, fun _ => ⟨rfl, 0, rfl⟩, ?_, ?_⟩
      · simp [HydraulicAxis.obey, HydraulicAxis.disable, order, lastOrder, Order.climbs]
      · intro hsince
        exact hs.unset (by simpa [Event.isStart, Event.isNotCommand, Order.climbs] using hsince)

/-- A set point does not touch the device state machine. -/
theorem setSetpoint (hs : s.Follows h) (raw : Int16) (sent : Bool) :
    (s.setSetpoint raw sent).1.Follows ((s.setSetpoint raw sent).2 ++ h) := by
  refine ⟨hs.ticks, hs.climbing, hs.idle, hs.enabled, fun hsince => ?_⟩
  simp [HydraulicAxis.setSetpoint, sendSetpoint, Event.isStart, Event.isNotCommand] at hsince

/-- A cycle streams the next word of the script, or the steady word. -/
theorem spinOnce (hs : s.Follows h) (cwSent setpointSent : Bool) :
    (s.spinOnce cwSent setpointSent).1.Follows ((s.spinOnce cwSent setpointSent).2 ++ h) := by
  rw [spinOnce_eq]
  have hunset : since Event.isNotCommand Event.isStart
      ([.setpoint s.lastSetpoint setpointSent,
        .controlword s.advancePhaseLocked.currentCw cwSent] ++ h) = true →
      s.advancePhaseLocked.lastSetpoint = 0 := fun hsince => by
    rw [lastSetpoint_advancePhaseLocked]
    exact hs.unset (by simpa [Event.isStart, Event.isNotCommand] using hsince)
  by_cases hidle : s.phase = .idle
  · obtain ⟨hcw, k, hwords⟩ := hs.idle hidle
    rw [advancePhaseLocked_idle hidle] at hunset ⊢
    refine ⟨hs.ticks, fun hne => absurd hidle hne, fun _ => ⟨hcw, k + 1, ?_⟩, hs.enabled, hunset⟩
    calc (s.currentCw :: wordsSince h).reverse
        = (wordsSince h).reverse ++ [s.currentCw] := List.reverse_cons
      _ = (order h).script ++ List.replicate k (order h).steady ++ [(order h).steady] := by
          rw [hwords, hcw]
      _ = (order h).script ++ List.replicate (k + 1) (order h).steady := by
          rw [List.append_assoc, List.replicate_succ']
  · obtain ⟨hclimbs, hscript⟩ := hs.climbing hidle
    obtain ⟨hnext, hticks⟩ := Dwell.toCome_tick hs.ticks (tick_climb hidle)
    have hscript' : (s.advancePhaseLocked.currentCw :: wordsSince h).reverse ++
        s.advancePhaseLocked.climb.toCome phaseDwellTicks = (order h).script := by
      rw [List.reverse_cons, List.append_assoc, List.singleton_append, ← hnext, hscript]
    have hdown : s.enabled = false :=
      Bool.eq_false_iff.mpr fun hup => hidle (hs.enabled.mp hup).1
    rcases advancePhaseLocked_climbing hidle with ⟨hdone, hup, hcw⟩ | ⟨hne, hkeep⟩
    · have hover : s.advancePhaseLocked.climb.toCome phaseDwellTicks = [] := by
        simp [climb, hdone, Phase.rest]
      refine ⟨hticks, fun hne => absurd hdone hne, fun _ => ⟨?_, 0, ?_⟩,
        by simp [hup, hdone, order, lastOrder] at hclimbs ⊢; exact hclimbs, hunset⟩
      · exact hcw.trans (Order.steady_eq_active.mpr hclimbs).symm
      · rw [hover, List.append_nil] at hscript'
        exact hscript'.trans (List.append_nil _).symm
    · exact ⟨hticks, fun _ => ⟨hclimbs, hscript'⟩, fun hdone => absurd hdone hne,
        by simp [hkeep, hdown, hne], hunset⟩

/-- **The axis follows the script of its last order along every run.** -/
theorem of_reach (hr : Reach system Guard.free h s) : s.Follows h := by
  induction hr with
  | init hs => exact hs ▸ constructed
  | @step h s s' c es _ _ hstep ih =>
      obtain ⟨rfl, rfl⟩ := Prod.mk.inj (Option.some.inj hstep)
      cases c with
      | order o => exact ih.obey o
      | setSetpoint raw sent => exact ih.setSetpoint raw sent
      | setFloat sent => exact ih.setSetpoint setpointFloat sent
      | spinOnce cwSent setpointSent => exact ih.spinOnce cwSent setpointSent

end Follows

/-- Enabled, held in the middle of the climb, and recovered: the axis climbs all the way. -/
def climbing : List Call :=
  .order .enable :: List.replicate 20 (.spinOnce true true) ++
    .order .hold :: List.replicate 3 (.spinOnce true true) ++
    .order .recover :: List.replicate 62 (.spinOnce true true)

end HydraulicAxis
end RosCanopen.Cia408
