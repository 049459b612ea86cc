import RosCanopen.Cia402.MockSlave

/-!
# The driver and the fake slave agree

Two readings of the standard meet here: the transition table of the driver and the
bit tests of the slave.  Both are instances of the power state machine, so a round
of the driver's `switchState` loop against the slave moves the slave along an edge:
decode the status word, take the next hop, stream the word it makes with any mode
and halt bits, and let the slave process it at least once.

## Main definitions

* `MockSlave.Reads`, `MockSlave.Coherent` — the status word names the slave's state.
* `Round`, `driveRound`, `driveRounds` — rounds of the loop.
-/

namespace RosCanopen.Cia402

open Lib

namespace MockSlave

/-- The status word names the slave's own state. -/
def Reads (s : MockSlave) : Prop := State402.read s.statusWord = s.state

/-- The status word names the slave's own state, and that state is an operative one. -/
structure Coherent (s : MockSlave) : Prop where
  reads : s.Reads
  operative : Operative s.state

/-! ## What keeps the status word truthful -/

theorem reads_setSwitchOnDisabled (s : MockSlave) : s.setSwitchOnDisabled.Reads := by
  rw [Reads, State402.read_eq]
  simp [setSwitchOnDisabled, setStatusBit, clearStatusBit]

theorem reads_setReadyToSwitchOn (s : MockSlave) : s.setReadyToSwitchOn.Reads := by
  rw [Reads, State402.read_eq]
  simp [setReadyToSwitchOn, setStatusBit, clearStatusBit]

theorem reads_setSwitchOn (s : MockSlave) : s.setSwitchOn.Reads := by
  rw [Reads, State402.read_eq]
  simp [setSwitchOn, setStatusBit, clearStatusBit]

theorem reads_setOperationEnabled (s : MockSlave) : s.setOperationEnabled.Reads := by
  rw [Reads, State402.read_eq]
  simp [setOperationEnabled, setStatusBit, clearStatusBit]

theorem reads_setQuickStop (s : MockSlave) : s.setQuickStop.Reads := by
  rw [Reads, State402.read_eq]
  simp [setQuickStop, setStatusBit, clearStatusBit]

theorem Reads.ite {c : Prop} [Decidable c] {s t : MockSlave} (hs : s.Reads) (ht : t.Reads) :
    (if c then t else s).Reads := by
  split
  · exact ht
  · exact hs

/-- Setting or clearing a bit that is not a state bit is not read. -/
theorem Reads.setStatusBit {s : MockSlave} (hs : s.Reads) (i : ℕ)
    (hi : i ∉ StatusWord.stateBits) : (s.setStatusBit i).Reads := by
  refine Eq.trans (State402.read_congr (agreeOn_overwrite (by simp) ?_)) hs
  intro j hj
  have hij : i ≠ j := fun h => hi (h ▸ hj)
  simp [hij]

theorem Reads.clearStatusBit {s : MockSlave} (hs : s.Reads) (i : ℕ)
    (hi : i ∉ StatusWord.stateBits) : (s.clearStatusBit i).Reads := by
  refine Eq.trans (State402.read_congr (agreeOn_overwrite ?_ (by simp))) hs
  intro j hj
  have hij : i ≠ j := fun h => hi (h ▸ hj)
  simp [hij]

theorem Reads.changeMode {s : MockSlave} (hs : s.Reads) : s.changeMode.Reads := by
  rw [MockSlave.changeMode]
  refine .ite ?_ hs
  exact (hs.clearStatusBit StatusWord.operationModeSpecific0 (by decide)).clearStatusBit
    StatusWord.targetReached (by decide)

theorem Reads.storeModeFlags {s : MockSlave} (hs : s.Reads) : s.storeModeFlags.Reads := hs

theorem Reads.setNewStatusWordAndState {s : MockSlave} (hs : s.Reads) :
    s.setNewStatusWordAndState.Reads := by
  rw [MockSlave.setNewStatusWordAndState]
  split
  · exact reads_setSwitchOnDisabled s
  · exact .ite hs (reads_setReadyToSwitchOn _)
  · exact .ite (.ite (.ite hs (reads_setSwitchOnDisabled _)) (reads_setSwitchOn _))
      (reads_setReadyToSwitchOn _)
  · exact .ite (.ite (.ite hs (reads_setSwitchOnDisabled _)) (reads_setReadyToSwitchOn _))
      (reads_setOperationEnabled _)
  · refine Reads.changeMode (Reads.storeModeFlags ?_)
    exact .ite (.ite (.ite (.ite hs (reads_setSwitchOnDisabled _)) (reads_setReadyToSwitchOn _))
      (reads_setSwitchOn _)) (reads_setQuickStop _)
  · exact .ite (.ite hs (reads_setOperationEnabled _)) (reads_setSwitchOnDisabled _)
  · exact hs

theorem Coherent.onWriteControlWord {s : MockSlave} (hs : s.Coherent) (cw : Word) :
    (s.onWriteControlWord cw).Coherent where
  reads :=
    have hcw : Reads { s with controlWord := cw } := hs.reads
    hcw.setNewStatusWordAndState
  operative := by
    rw [state_onWriteControlWord]
    exact operative_react hs.operative _

/-- An input other than a control word. -/
def Input.IsSide : Input → Prop
  | .controlWord _ => False
  | _ => True

theorem state_handle_of_isSide (s : MockSlave) {i : Input} (hi : i.IsSide) :
    (s.handle i).state = s.state := by
  cases i with
  | controlWord cw => exact hi.elim
  | operationMode mode => rfl
  | threadBit i value => cases value <;> rfl
  | threadPublish => rfl

theorem Coherent.handle {s : MockSlave} (hs : s.Coherent) (i : Input) :
    (s.handle i).Coherent := by
  cases i with
  | controlWord cw => exact hs.onWriteControlWord cw
  | operationMode mode => exact ⟨hs.reads, hs.operative⟩
  | threadPublish => exact ⟨hs.reads, hs.operative⟩
  | threadBit i value =>
      have hi : threadBits[i] ∉ StatusWord.stateBits := by revert i; decide
      cases value
      · exact ⟨hs.reads.clearStatusBit _ hi, hs.operative⟩
      · exact ⟨hs.reads.setStatusBit _ hi, hs.operative⟩

/-- **From construction on the status word names the slave's own state.** -/
theorem coherent_of_reach {h : List Empty} {s : MockSlave}
    (hr : Reach MockSlave.system Guard.free h s) : s.Coherent := by
  induction hr with
  | init hs =>
      obtain ⟨hstate, hword, -⟩ := hs
      refine ⟨?_, ?_⟩
      · rw [Reads, hword, hstate]; rfl
      · rw [hstate]; decide
  | step _ _ hstep ih =>
      obtain ⟨rfl, rfl⟩ := Prod.mk.inj (Option.some.inj hstep)
      exact ih.handle _

end MockSlave

/-! ## Rounds of the loop -/

/-- The mode-specific bits and the halt bit of a control word. -/
def modeHaltMask : Word := bit 4 ||| bit 5 ||| bit 6 ||| bit 8 ||| bit 9

/-- The word streamed for `cw`, with any mode and halt bits. -/
def streamed (cw modeBits : Word) : Word :=
  overwrite modeHaltMask (modeBits &&& modeHaltMask) cw

theorem agreeOn_streamed (cw modeBits : Word) :
    AgreeOn ControlWord.stateBits (streamed cw modeBits) cw := by
  have hmask : ∀ i ∈ ControlWord.stateBits, modeHaltMask.getLsbD i = false := by decide
  refine agreeOn_overwrite hmask ?_
  intro i hi
  simp [hmask i hi]

/-- One arrival of the word at the slave: what else reaches the slave before it, and
the mode and halt bits streamed with it. -/
structure Delivery where
  side : List { i : MockSlave.Input // i.IsSide }
  modeBits : Word

/-- One round: what else reaches the slave before its status word is decoded, and the
arrivals of the word, at least one. -/
structure Round where
  side : List { i : MockSlave.Input // i.IsSide }
  first : Delivery
  more : List Delivery

/-- The slave after some side inputs. -/
def MockSlave.handleSide (s : MockSlave) (side : List { i : MockSlave.Input // i.IsSide }) :
    MockSlave :=
  side.foldl (fun s i => s.handle i.1) s

/-- The slave after one arrival of the word. -/
def Delivery.process (d : Delivery) (cw : Word) (s : MockSlave) : MockSlave :=
  (s.handleSide d.side).onWriteControlWord (streamed cw d.modeBits)

/-- The slave after all arrivals of a round. -/
def Round.process (r : Round) (cw : Word) (s : MockSlave) : MockSlave :=
  r.more.foldl (fun s d => d.process cw s) (r.first.process cw s)

/-- The word last streamed in a round. -/
def Round.word (r : Round) (cw : Word) : Word := streamed cw (r.more.getLastD r.first).modeBits

/-- One round of the loop in `switchState`: the word last streamed, the slave, and the
state that was to be entered; `none` where `setTransition` fails or has nothing to do. -/
def driveRound (target : InternalState) (r : Round) (cw : Word) (s : MockSlave) :
    Option (Word × MockSlave × InternalState) :=
  let s := s.handleSide r.side
  let state := State402.read s.statusWord
  if state = target then none
  else
    match setTransition cw state target (some .unknown) with
    | (true, cw, some next) => some (r.word cw, r.process cw s, next)
    | _ => none

/-- Rounds until the status word shows the target or the list runs out. -/
def driveRounds (target : InternalState) :
    List Round → Word → MockSlave → Option (Word × MockSlave)
  | [], cw, s => some (cw, s)
  | r :: rs, cw, s =>
      if State402.read s.statusWord = target then some (cw, s)
      else
        match driveRound target r cw s with
        | none => none
        | some (cw, s, _) => driveRounds target rs cw s

section Rounds
open MockSlave
variable {s : MockSlave} {h : List Empty}

/-- The slave can get there from construction. -/
abbrev MockSlave.Reachable (h : List Empty) (s : MockSlave) : Prop :=
  Reach MockSlave.system Guard.free h s

theorem MockSlave.Reachable.handle (hs : s.Reachable h) (i : Input) : (s.handle i).Reachable h :=
  .step hs trivial rfl

theorem MockSlave.Reachable.handleSide (hs : s.Reachable h)
    (side : List { i : Input // i.IsSide }) : (s.handleSide side).Reachable h := by
  rw [MockSlave.handleSide]
  induction side generalizing s with
  | nil => exact hs
  | cons i side ih => exact ih (hs.handle i.1)

theorem state_handleSide (s : MockSlave) (side : List { i : Input // i.IsSide }) :
    (s.handleSide side).state = s.state := by
  rw [MockSlave.handleSide]
  induction side generalizing s with
  | nil => rfl
  | cons i side ih => rw [List.foldl_cons, ih, state_handle_of_isSide s i.2]

/-- Side inputs do not change what the driver decodes. -/
theorem read_handleSide (hs : s.Reachable h) (side : List { i : Input // i.IsSide }) :
    State402.read (s.handleSide side).statusWord = s.state :=
  (coherent_of_reach (hs.handleSide side)).reads.trans (state_handleSide s side)

theorem Delivery.reachable_process (d : Delivery) (cw : Word) (hs : s.Reachable h) :
    (d.process cw s).Reachable h :=
  (hs.handleSide d.side).handle (.controlWord (streamed cw d.modeBits))

theorem Delivery.state_process (d : Delivery) (cw : Word) (s : MockSlave) :
    (d.process cw s).state = react s.state (powerCommand cw) := by
  rw [Delivery.process, state_onWriteControlWord, state_handleSide,
    powerCommand_congr (agreeOn_streamed cw d.modeBits)]

theorem Round.reachable_process (r : Round) (cw : Word) (hs : s.Reachable h) :
    (r.process cw s).Reachable h := by
  rw [Round.process]
  have hfirst := r.first.reachable_process cw hs
  revert hfirst
  generalize r.first.process cw s = t
  intro ht
  induction r.more generalizing t with
  | nil => exact ht
  | cons d more ih => exact ih _ (d.reachable_process cw ht)

/-- A round puts the command that its word names to the slave, once or more often. -/
theorem Round.state_process (r : Round) (cw : Word) (s : MockSlave) :
    (r.process cw s).state =
      (fun st => react st (powerCommand cw))^[r.more.length + 1] s.state := by
  rw [Round.process]
  rw [Function.iterate_succ_apply, ← r.first.state_process cw s]
  generalize r.first.process cw s = t
  induction r.more generalizing t with
  | nil => rfl
  | cons d more ih =>
      rw [List.foldl_cons, ih, d.state_process, List.length_cons, Function.iterate_succ_apply]

/-- **A round along an edge enters exactly the next state**, whatever the control word
was, whatever mode and halt bits are streamed and however often it arrives. -/
theorem driveRound_edge (hs : s.Reachable h) {target : InternalState} {c : PowerCommand}
    (htarget : s.state ≠ target)
    (hedge : edge s.state (hop s.state target (some .unknown)) = some c) (r : Round) (cw : Word) :
    ∃ w s', driveRound target r cw s = some (w, s', hop s.state target (some .unknown)) ∧
      s'.state = hop s.state target (some .unknown) ∧ s'.Reachable h := by
  obtain ⟨op, htable, hcmd⟩ := powerCommand_transitions hedge
  refine ⟨r.word (op.apply cw), r.process (op.apply cw) (s.handleSide r.side), ?_, ?_,
    r.reachable_process _ (hs.handleSide r.side)⟩
  · simp only [driveRound, read_handleSide hs, if_neg htarget, setTransition, htable,
      Option.map_some]
  · rw [r.state_process, state_handleSide, hcmd]
    exact react_iterate_edge hedge _

/-- In the initial state the driver commands nothing new; whatever the word, the slave
leaves that state, and gets one state further if the word happens to be a shutdown. -/
theorem driveRound_initial (hs : s.Reachable h) (h0 : s.state = .notReadyToSwitchOn) (r : Round)
    (cw : Word) :
    ∃ w s', driveRound .operationEnable r cw s = some (w, s', .switchOnDisabled) ∧
      (s'.state = .switchOnDisabled ∨ s'.state = .readyToSwitchOn) ∧ s'.Reachable h := by
  refine ⟨r.word (Op.automatic.apply cw), r.process (Op.automatic.apply cw) (s.handleSide r.side),
    ?_, ?_,
    r.reachable_process _ (hs.handleSide r.side)⟩
  · simp only [driveRound, read_handleSide hs, h0]
    rfl
  · rw [r.state_process, state_handleSide, h0, Function.iterate_succ_apply]
    exact iterate_react_switchOnDisabled _ _

/-! ## Enabling -/

/-- How many rounds enabling still takes. -/
def enablingRank : InternalState → ℕ
  | .notReadyToSwitchOn => 4
  | .switchOnDisabled => 3
  | .readyToSwitchOn => 2
  | .switchedOn | .quickStopActive => 1
  | _ => 0

theorem enablingRank_le (st : InternalState) : enablingRank st ≤ 4 := by
  cases st <;> decide

theorem eq_operationEnable_of_rank {st : InternalState} (hst : Operative st)
    (h : enablingRank st = 0) : st = .operationEnable := by
  cases st <;> simp_all [enablingRank, Operative]

theorem enablingRank_next {st : InternalState} (hst : Operative st)
    (h0 : st ≠ .notReadyToSwitchOn) (h1 : st ≠ .operationEnable) :
    enablingRank (nextStateForEnabling st) < enablingRank st := by
  cases st <;> simp_all [enablingRank, Operative, nextStateForEnabling]

/-- Outside the initial state a round of enabling enters the next state of the path. -/
theorem driveRound_next (hs : s.Reachable h) (h0 : s.state ≠ .notReadyToSwitchOn)
    (h1 : s.state ≠ .operationEnable) (r : Round) (cw : Word) :
    ∃ w s', driveRound .operationEnable r cw s = some (w, s', nextStateForEnabling s.state) ∧
      s'.state = nextStateForEnabling s.state ∧ s'.Reachable h := by
  have hhop : hop s.state .operationEnable (some .unknown) = nextStateForEnabling s.state :=
    if_pos ⟨rfl, rfl⟩
  obtain ⟨c, hedge⟩ := edge_nextStateForEnabling (coherent_of_reach hs).operative h0 h1
  rw [← hhop] at hedge ⊢
  exact driveRound_edge hs h1 hedge r cw

/-- Each round of enabling brings the slave nearer. -/
theorem driveRound_enabling (hs : s.Reachable h) (h1 : s.state ≠ .operationEnable) (r : Round)
    (cw : Word) :
    ∃ w s' next, driveRound .operationEnable r cw s = some (w, s', next) ∧
      enablingRank s'.state < enablingRank s.state ∧ s'.Reachable h := by
  by_cases h0 : s.state = .notReadyToSwitchOn
  · obtain ⟨w, s', hround, hstate, hs'⟩ := driveRound_initial hs h0 r cw
    refine ⟨w, s', _, hround, ?_, hs'⟩
    rcases hstate with hstate | hstate <;> rw [hstate, h0] <;> decide
  · obtain ⟨w, s', hround, hstate, hs'⟩ := driveRound_next hs h0 h1 r cw
    refine ⟨w, s', _, hround, ?_, hs'⟩
    rw [hstate]
    exact enablingRank_next (coherent_of_reach hs).operative h0 h1

/-- As many rounds as the rank says are enough. -/
theorem driveRounds_enabling (hs : s.Reachable h) {rs : List Round} (cw : Word)
    (hrank : enablingRank s.state ≤ rs.length) :
    ∃ w s', driveRounds .operationEnable rs cw s = some (w, s') ∧
      s'.state = .operationEnable := by
  induction rs generalizing s cw with
  | nil =>
      refine ⟨cw, s, rfl, ?_⟩
      exact eq_operationEnable_of_rank (coherent_of_reach hs).operative (Nat.le_zero.mp hrank)
  | cons r rs ih =>
      have hread : State402.read s.statusWord = s.state := (coherent_of_reach hs).reads
      by_cases h1 : s.state = .operationEnable
      · exact ⟨cw, s, if_pos (hread.trans h1), h1⟩
      · obtain ⟨w, s', next, hround, hlt, hs'⟩ := driveRound_enabling hs h1 r cw
        have hrank' : enablingRank s'.state ≤ rs.length := by
          rw [List.length_cons] at hrank; omega
        obtain ⟨w', s'', hrounds, hdone⟩ := ih hs' w hrank'
        refine ⟨w', s'', ?_, hdone⟩
        rw [driveRounds, hread, if_neg h1, hround]
        exact hrounds

/-- The targets other than `operationEnable` that one round reaches. -/
theorem edge_of_oneRound {src target : InternalState}
    (hone : (target = .switchOnDisabled ∧
        src ∈ [InternalState.readyToSwitchOn, .switchedOn, .operationEnable, .quickStopActive]) ∨
      (target ∈ [InternalState.switchedOn, .quickStopActive] ∧ src = .operationEnable)) :
    src ≠ target ∧ hop src target (some .unknown) = target ∧ ∃ c, edge src target = some c := by
  revert hone
  cases src <;> cases target <;> simp [hop, edge]

/-- **The driver and the slave agree on the power state machine.**  Wherever the slave
can get to from construction its status word decodes to its own state, four rounds
enable it, and every round outside the initial state enters exactly the state the
driver's transition steps to. -/
theorem driver_agrees_with_slave (hs : s.Reachable h) :
    State402.read s.statusWord = s.state ∧
      (∀ cw rs, rs.length = 4 → ∃ w s', driveRounds .operationEnable rs cw s = some (w, s') ∧
        s'.state = .operationEnable) ∧
      (∀ cw r, s.state ≠ .notReadyToSwitchOn → s.state ≠ .operationEnable →
        ∃ w s' next, driveRound .operationEnable r cw s = some (w, s', next) ∧
          s'.state = next ∧ s'.Reachable h) ∧
      ∀ cw r target, (target = .switchOnDisabled ∧
          s.state ∈ [.readyToSwitchOn, .switchedOn, .operationEnable, .quickStopActive]) ∨
          (target ∈ [.switchedOn, .quickStopActive] ∧ s.state = .operationEnable) →
        ∃ w s', driveRound target r cw s = some (w, s', target) ∧ s'.state = target := by
  refine ⟨(coherent_of_reach hs).reads, ?_, ?_, ?_⟩
  · intro cw rs hlen
    exact driveRounds_enabling hs cw (hlen ▸ enablingRank_le s.state)
  · intro cw r h0 h1
    obtain ⟨w, s', hround, hstate, hs'⟩ := driveRound_next hs h0 h1 r cw
    exact ⟨w, s', _, hround, hstate, hs'⟩
  · intro cw r target hone
    obtain ⟨hne, hhop, c, hedge⟩ := edge_of_oneRound hone
    rw [← hhop] at hedge
    obtain ⟨w, s', hround, hstate, -⟩ := driveRound_edge hs hne hedge r cw
    rw [hhop] at hround hstate
    exact ⟨w, s', hround, hstate⟩

/-- The slave as constructed, its uninitialised members zero. -/
def MockSlave.constructed : MockSlave where
  statusWord := 0
  controlWord := 0
  state := .notReadyToSwitchOn
  operationMode := 0
  oldOperationMode := 0
  isRelative := false
  isHalt := false
  isNewSetPoint := false
  statusObject := 0
  modeDisplay := 0

theorem driver_agrees_with_constructed_slave :
    ∃ w s', driveRounds .operationEnable (List.replicate 4 ⟨[], ⟨[], 0x170⟩, [⟨[], 0x300⟩]⟩) 0x1F3
      MockSlave.constructed = some (w, s') ∧ s'.state = .operationEnable :=
  (driver_agrees_with_slave (.init ⟨rfl, rfl, rfl⟩ : MockSlave.constructed.Reachable [])).2.1
    0x1F3 _ rfl

end Rounds
end RosCanopen.Cia402
