import RosCanopen.Cia402.Command
import Mathlib.Logic.Function.Iterate

/-!
# The power state machine, abstractly

What the control word is for: its five state bits name one of six commands, and a
drive reacts to a command by moving along an edge of the power state machine or by
staying.  Neither the transition table of the driver nor the bit tests of the fake
slave appear here; each is compared with this machine in its own module.

## Main definitions

* `PowerCommand`, `powerCommand` — the six commands, and the one a word names.
* `react` — the reaction of a drive to a command.
* `edge` — the command that moves a drive from one state to another.
-/

namespace RosCanopen.Cia402

open Lib

/-- The commands of the power state machine. -/
inductive PowerCommand
  | shutdown
  | switchOn
  | enableOperation
  | disableVoltage
  | quickStop
  | faultReset
  deriving DecidableEq, Repr

/-- The command a control word names: every word names exactly one. -/
def powerCommand (cw : Word) : PowerCommand :=
  if cw.getLsbD 7 then .faultReset
  else if !cw.getLsbD 1 then .disableVoltage
  else if !cw.getLsbD 2 then .quickStop
  else if !cw.getLsbD 0 then .shutdown
  else if !cw.getLsbD 3 then .switchOn
  else .enableOperation

/-- The reaction of a drive without faults. -/
def react : InternalState → PowerCommand → InternalState
  | .notReadyToSwitchOn, _ => .switchOnDisabled
  | .switchOnDisabled, .shutdown => .readyToSwitchOn
  | .readyToSwitchOn, .disableVoltage => .switchOnDisabled
  | .readyToSwitchOn, .switchOn => .switchedOn
  | .switchedOn, .disableVoltage => .switchOnDisabled
  | .switchedOn, .shutdown => .readyToSwitchOn
  | .switchedOn, .enableOperation => .operationEnable
  | .operationEnable, .disableVoltage => .switchOnDisabled
  | .operationEnable, .shutdown => .readyToSwitchOn
  | .operationEnable, .switchOn => .switchedOn
  | .operationEnable, .quickStop => .quickStopActive
  | .quickStopActive, .enableOperation => .operationEnable
  | .quickStopActive, .disableVoltage => .switchOnDisabled
  | s, _ => s

/-- The command that moves a drive from one state to another. -/
def edge : InternalState → InternalState → Option PowerCommand
  | .switchOnDisabled, .readyToSwitchOn => some .shutdown
  | .readyToSwitchOn, .switchOnDisabled => some .disableVoltage
  | .readyToSwitchOn, .switchedOn => some .switchOn
  | .switchedOn, .switchOnDisabled => some .disableVoltage
  | .switchedOn, .readyToSwitchOn => some .shutdown
  | .switchedOn, .operationEnable => some .enableOperation
  | .operationEnable, .switchOnDisabled => some .disableVoltage
  | .operationEnable, .readyToSwitchOn => some .shutdown
  | .operationEnable, .switchedOn => some .switchOn
  | .operationEnable, .quickStopActive => some .quickStop
  | .quickStopActive, .operationEnable => some .enableOperation
  | .quickStopActive, .switchOnDisabled => some .disableVoltage
  | _, _ => none

/-- Commanding an edge moves along it, and keeps the drive at its end. -/
theorem react_edge {src dst : InternalState} {c : PowerCommand} (h : edge src dst = some c) :
    react src c = dst ∧ react dst c = dst := by
  cases src <;> cases dst <;> simp only [edge, Option.some.injEq, reduceCtorEq] at h <;>
    subst h <;> exact ⟨rfl, rfl⟩

/-- However often the command is repeated, the drive ends where the edge ends. -/
theorem react_iterate_edge {src dst : InternalState} {c : PowerCommand}
    (h : edge src dst = some c) (k : ℕ) : (fun s => react s c)^[k + 1] src = dst := by
  obtain ⟨hmove, hstay⟩ := react_edge h
  rw [Function.iterate_succ_apply, hmove]
  exact Function.iterate_fixed hstay k

/-- From `switchOnDisabled` a repeated command goes one state up at most. -/
theorem iterate_react_switchOnDisabled (c : PowerCommand) (k : ℕ) :
    (fun s => react s c)^[k] .switchOnDisabled = .switchOnDisabled ∨
      (fun s => react s c)^[k] .switchOnDisabled = .readyToSwitchOn := by
  by_cases hc : c = .shutdown
  · subst hc
    cases k with
    | zero => exact .inl rfl
    | succ k => exact .inr (react_iterate_edge rfl k)
  · refine .inl (Function.iterate_fixed ?_ k)
    cases c <;> first | rfl | contradiction

/-- The states a drive without faults moves in. -/
def Operative (s : InternalState) : Prop :=
  s ≠ .unknown ∧ s ≠ .faultReactionActive ∧ s ≠ .fault

instance (s : InternalState) : Decidable (Operative s) := by
  unfold Operative; infer_instance

theorem operative_react {s : InternalState} (hs : Operative s) (c : PowerCommand) :
    Operative (react s c) := by
  revert hs
  cases s <;> cases c <;> decide

/-- The enabling path: outside the initial state the next hop is an edge. -/
theorem edge_nextStateForEnabling {s : InternalState} (hs : Operative s)
    (h0 : s ≠ .notReadyToSwitchOn) (h1 : s ≠ .operationEnable) :
    ∃ c, edge s (nextStateForEnabling s) = some c := by
  cases s <;> simp_all [Operative, edge, nextStateForEnabling]

/-- **The table commands the edges.**  Where the power state machine has an edge the
transition table has an entry, and the word it makes names the edge's command,
whatever the word was before. -/
theorem powerCommand_transitions {src dst : InternalState} {c : PowerCommand}
    (h : edge src dst = some c) :
    ∃ op, transitions src dst = some op ∧ ∀ cw, powerCommand (op.apply cw) = c := by
  cases src <;> cases dst <;> simp only [edge, Option.some.injEq, reduceCtorEq] at h <;>
    subst h <;> refine ⟨_, rfl, fun cw => ?_⟩ <;>
    simp [powerCommand, Op.apply, Op.disableVoltage, Op.shutdown, Op.switchOn,
      Op.enableOperation, Op.quickstop]

theorem powerCommand_congr {cw cw' : Word} (h : AgreeOn ControlWord.stateBits cw cw') :
    powerCommand cw = powerCommand cw' := by
  simp only [AgreeOn, ControlWord.stateBits, List.mem_cons, List.not_mem_nil, or_false,
    forall_eq_or_imp, forall_eq] at h
  simp only [powerCommand, h]

end RosCanopen.Cia402
