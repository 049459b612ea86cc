import RosCanopen.Lib.Word

/-!
# The status word and the states of the power state machine

`State402::read` decodes a CiA 402 status word: six of its bits name the state of
the drive, the others are ignored.  Every other pattern of the six bits decodes
to `unknown`, which is also the value of `State402::Start`.

## Main definitions

* `InternalState` — `State402::InternalState`.
* `StatusWord` — the bit numbers of the status word.
* `State402.read` — the decoder.
-/

namespace RosCanopen.Cia402

open Lib

/-- The 16-bit words exchanged with the drive. -/
abbrev Word := BitVec 16

/-- `State402::InternalState`.  The source gives `Unknown` and `Start` one value. -/
inductive InternalState
  | unknown
  | notReadyToSwitchOn
  | switchOnDisabled
  | readyToSwitchOn
  | switchedOn
  | operationEnable
  | quickStopActive
  | faultReactionActive
  | fault
  deriving DecidableEq, Repr, Inhabited

/-- `State402::Start`. -/
abbrev InternalState.start : InternalState := .unknown

namespace StatusWord

/-- Bit numbers of the status word. -/
abbrev readyToSwitchOn : ℕ := 0
abbrev switchedOn : ℕ := 1
abbrev operationEnabled : ℕ := 2
abbrev fault : ℕ := 3
abbrev voltageEnabled : ℕ := 4
abbrev quickStop : ℕ := 5
abbrev switchOnDisabled : ℕ := 6
abbrev remote : ℕ := 9
abbrev targetReached : ℕ := 10
abbrev internalLimit : ℕ := 11
abbrev operationModeSpecific0 : ℕ := 12
abbrev operationModeSpecific1 : ℕ := 13
abbrev manufacturerSpecific1 : ℕ := 14

/-- The bits that name the state, as `d | q | f | o | s | r`. -/
def stateMask : Word :=
  bit switchOnDisabled ||| bit quickStop ||| bit fault ||| bit operationEnabled |||
    bit switchedOn ||| bit readyToSwitchOn

end StatusWord

/-- The state a status word names, by the switch of `State402::read`. -/
def State402.read (sw : Word) : InternalState :=
  match (sw &&& StatusWord.stateMask).toNat with
  | 0x00 | 0x20 => .notReadyToSwitchOn
  | 0x40 | 0x60 => .switchOnDisabled
  | 0x21 => .readyToSwitchOn
  | 0x23 => .switchedOn
  | 0x27 => .operationEnable
  | 0x07 => .quickStopActive
  | 0x0f | 0x2f => .faultReactionActive
  | 0x08 | 0x28 => .fault
  | _ => .unknown

/-- The state bits of a status word, put back together from their values. -/
def stateWord (d q f o s r : Bool) : Word :=
  (if d then bit 6 else 0) ||| (if q then bit 5 else 0) ||| (if f then bit 3 else 0) |||
    (if o then bit 2 else 0) ||| (if s then bit 1 else 0) ||| (if r then bit 0 else 0)

theorem and_stateMask (sw : Word) :
    sw &&& StatusWord.stateMask =
      stateWord (sw.getLsbD 6) (sw.getLsbD 5) (sw.getLsbD 3) (sw.getLsbD 2) (sw.getLsbD 1)
        (sw.getLsbD 0) := by
  simp only [StatusWord.stateMask, stateWord, bit, BitVec.and_or_distrib_left,
    BitVec.and_twoPow]
  rfl

/-- **The decoder reads six bits and nothing else.** -/
theorem State402.read_eq (sw : Word) :
    State402.read sw = State402.read
      (stateWord (sw.getLsbD 6) (sw.getLsbD 5) (sw.getLsbD 3) (sw.getLsbD 2) (sw.getLsbD 1)
        (sw.getLsbD 0)) := by
  have hword : ∀ d q f o s r : Bool,
      stateWord d q f o s r &&& StatusWord.stateMask = stateWord d q f o s r := by decide
  simp only [State402.read, and_stateMask sw, hword]

/-! The patterns of the six bits that name a state a master commands. -/

@[simp] theorem read_stateWord_switchOnDisabled (q : Bool) :
    State402.read (stateWord true q false false false false) = .switchOnDisabled := by
  cases q <;> rfl
@[simp] theorem read_stateWord_readyToSwitchOn :
    State402.read (stateWord false true false false false true) = .readyToSwitchOn := rfl
@[simp] theorem read_stateWord_switchedOn :
    State402.read (stateWord false true false false true true) = .switchedOn := rfl
@[simp] theorem read_stateWord_operationEnable :
    State402.read (stateWord false true false true true true) = .operationEnable := rfl
@[simp] theorem read_stateWord_quickStopActive :
    State402.read (stateWord false false false true true true) = .quickStopActive := rfl

/-- The positions of the six state bits. -/
def StatusWord.stateBits : List ℕ := [6, 5, 3, 2, 1, 0]

theorem State402.read_congr {sw sw' : Word} (h : AgreeOn StatusWord.stateBits sw sw') :
    State402.read sw = State402.read sw' := by
  simp only [AgreeOn, StatusWord.stateBits, List.mem_cons, List.not_mem_nil, or_false,
    forall_eq_or_imp, forall_eq] at h
  rw [State402.read_eq sw, State402.read_eq sw']
  simp only [h]

end RosCanopen.Cia402
