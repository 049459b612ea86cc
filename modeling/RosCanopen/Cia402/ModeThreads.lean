import RosCanopen.Cia402.MockSlave
import RosCanopen.Lib.Threads

/-!
# The mode threads of the fake slave

`CIA402MockSlave` has a thread for each mode that moves, behind a member of its own.  The
first control word that finds the operation enabled in another mode than the last time
joins them all and starts the one of the new mode; the destructor joins them all again.
Each thread runs the loop of its mode, and leaves it at a head that finds the operation not
enabled, another mode, or `rclcpp` shut down.  The passes of three of the loops have loops of
their own, so nothing here says when a pass ends, or that it does.  What a pass does to the
status word is a step of its own, as is its end, and `OnWrite` is one up to its first join.

## Main definitions

* `ModeThread`, `LoopAt` — the members, the modes of their loops, and where these are.
* `ModeThreads` — the slave with its threads.
* `ModeThreads.step`, `ModeThreads.system` — `OnWrite`, the joins, the loops and the
  destructor.
* `ModeThreads.Sound` — which loop there can be.
-/

namespace RosCanopen.Cia402

open Lib

/-- The members, in the order in which they are joined. -/
inductive ModeThread
  | profiledPosition
  | cyclicPosition
  | interpolatedPosition
  | homing
  | profiledVelocity
  deriving DecidableEq

namespace ModeThread

def joinOrder : List ModeThread :=
  [.profiledPosition, .cyclicPosition, .interpolatedPosition, .homing, .profiledVelocity]

/-- The mode that the loop of the thread asks for. -/
def mode : ModeThread → BitVec 8
  | .profiledPosition => 1
  | .cyclicPosition => 8
  | .interpolatedPosition => 7
  | .homing => 6
  | .profiledVelocity => 3

/-- The thread that `on_operation_enabled` starts for a mode. -/
def ofMode (mode : BitVec 8) : Option ModeThread :=
  if mode = 8 then some .cyclicPosition
  else if mode = 1 then some .profiledPosition
  else if mode = 7 then some .interpolatedPosition
  else if mode = 6 then some .homing
  else if mode = 3 then some .profiledVelocity
  else none

theorem mode_injective : Function.Injective mode := by
  intro k k' hmode
  cases k <;> cases k' <;> simp_all [mode]

theorem mode_of_ofMode {mode : BitVec 8} {k : ModeThread} (h : ofMode mode = some k) :
    k.mode = mode := by
  unfold ofMode at h
  split_ifs at h with h₁ h₂ h₃ h₄ h₅ <;> cases h <;> simp_all [ModeThread.mode]

theorem mem_joinOrder (k : ModeThread) : k ∈ joinOrder := by
  cases k <;> decide

end ModeThread

/-- What the CAN thread does, which runs `OnWrite`. -/
inductive CanThread
  | idle
  /-- `on_operation_enabled`, in front of these joins. -/
  | entering (ks : List ModeThread)
  /-- `~CIA402MockSlave`, in front of these joins. -/
  | destroying (ks : List ModeThread)
  | destroyed
  deriving DecidableEq

/-- Where a loop is. -/
inductive LoopAt
  | head
  /-- Between two heads, maybe in an inner loop. -/
  | pass
  deriving DecidableEq

structure ModeThreads where
  slave : MockSlave
  pool : Pool ModeThread
  /-- The loops that have not been left. -/
  loops : ModeThread → Option LoopAt
  can : CanThread

inductive ModeThreadsInput
  | controlWord (cw : Word)
  | operationMode (mode : BitVec 8)
  /-- The next test and join, or what follows the last. -/
  | join
  | destroy
  /-- The head of a loop, with `rclcpp::ok()`. -/
  | check (k : ModeThread) (ok : Bool)
  /-- A pass sets or clears a status bit. -/
  | bit (k : ModeThread) (i : Fin MockSlave.threadBits.length) (value : Bool)
  /-- A pass publishes the status word. -/
  | publish (k : ModeThread)
  /-- A pass comes back to the head. -/
  | endPass (k : ModeThread)
  deriving DecidableEq

inductive ModeThreadsEvent
  | started (k : ModeThread)
  | left (k : ModeThread)
  | joined (k : ModeThread)
  /-- `old_operation_mode` has followed. -/
  | entered (mode : BitVec 8)
  | fault (f : Fault)
  deriving DecidableEq

namespace ModeThreads

/-- The loop has not been left. -/
def running (s : ModeThreads) (k : ModeThread) : Bool := (s.loops k).isSome

/-- `on_operation_enabled` up to its test of the mode. -/
def beforeMode (slave : MockSlave) : MockSlave :=
  let s := slave
  let s := if MockSlave.isDisableVoltage s.controlWord then s.setSwitchOnDisabled else s
  let s := if MockSlave.isShutdown s.controlWord then s.setReadyToSwitchOn else s
  let s := if MockSlave.isSwitchOn s.controlWord then s.setSwitchOn else s
  let s := if MockSlave.isQuickstop s.controlWord then s.setQuickStop else s
  s.storeModeFlags

/-- `on_operation_enabled` up to its first join. -/
def beforeJoin (slave : MockSlave) : MockSlave :=
  (((beforeMode slave).clearStatusBit StatusWord.operationModeSpecific0).clearStatusBit
    StatusWord.targetReached).publishStatus

/-- The condition of the loop of a thread, up to `rclcpp::ok()`. -/
def goesOn (slave : MockSlave) (k : ModeThread) : Bool :=
  slave.state = .operationEnable ∧ slave.operationMode = k.mode

/-- `OnWrite(0x6040, 0)`, to its end or to its first join. -/
def onWriteControlWord (s : ModeThreads) (cw : Word) : ModeThreads :=
  if s.slave.state = .operationEnable ∧ s.slave.oldOperationMode ≠ s.slave.operationMode then
    { s with
      slave := beforeJoin { s.slave with controlWord := cw }
      can := .entering ModeThread.joinOrder }
  else { s with slave := s.slave.onWriteControlWord cw }

/-- `if (thread.joinable()) thread.join()`, which waits while the loop runs; `next` is what the
CAN thread does then. -/
def joinThread (s : ModeThreads) (k : ModeThread) (next : CanThread) :
    Option (ModeThreads × List ModeThreadsEvent) :=
  if s.pool.waits k then
    if s.running k then none
    else
      match s.pool.join k with
      | .ok pool => some ({ s with pool := pool, can := next }, [.joined k])
      | .error f => some (s, [.fault f])
  else some ({ s with can := next }, [])

/-- `on_operation_enabled` behind its joins, and the end of `OnWrite`. -/
def enter (s : ModeThreads) : ModeThreads × List ModeThreadsEvent :=
  let mode := s.slave.operationMode
  let slave := { s.slave with oldOperationMode := mode }.publishStatus
  match ModeThread.ofMode mode with
  | none => ({ s with slave := slave, can := .idle }, [.entered mode])
  | some k =>
      match s.pool.start k with
      | .ok pool =>
          ({ s with slave := slave, pool := pool,
                    loops := Function.update s.loops k (some .head), can := .idle },
            [.started k, .entered mode])
      | .error f => (s, [.fault f])

/-- One step; the CAN thread takes one thing after the other. -/
def step (s : ModeThreads) : ModeThreadsInput → Option (ModeThreads × List ModeThreadsEvent)
  | .controlWord cw => if s.can = .idle then some (s.onWriteControlWord cw, []) else none
  | .operationMode mode =>
      if s.can = .idle then some ({ s with slave := s.slave.onWriteOperationMode mode }, [])
      else none
  | .destroy =>
      if s.can = .idle then some ({ s with can := .destroying ModeThread.joinOrder }, [])
      else none
  | .join =>
      match s.can with
      | .idle => none
      | .entering (k :: ks) => s.joinThread k (.entering ks)
      | .entering [] => some s.enter
      | .destroying (k :: ks) => s.joinThread k (.destroying ks)
      | .destroying [] => some ({ s with can := .destroyed }, [])
      | .destroyed => none
  | .check k ok =>
      if s.loops k = some .head then
        if goesOn s.slave k && ok then
          some ({ s with loops := Function.update s.loops k (some .pass) }, [])
        else some ({ s with loops := Function.update s.loops k none }, [.left k])
      else none
  | .bit k i value =>
      if s.loops k = some .pass then
        some ({ s with slave := s.slave.handle (.threadBit i value) }, [])
      else none
  | .publish k =>
      if s.loops k = some .pass then some ({ s with slave := s.slave.publishStatus }, [])
      else none
  | .endPass k =>
      if s.loops k = some .pass then
        some ({ s with loops := Function.update s.loops k (some .head) }, [])
      else none

/-- The slave from its construction on. -/
def system : System ModeThreads ModeThreadsInput ModeThreadsEvent where
  init s := MockSlave.system.init s.slave ∧ s.pool = Pool.empty ∧ (∀ k, s.loops k = none) ∧
    s.can = .idle
  step := step

/-! ## What `OnWrite` keeps of the modes -/

/-- The mode, and the one that was entered last. -/
def modes (slave : MockSlave) : BitVec 8 × BitVec 8 :=
  (slave.operationMode, slave.oldOperationMode)

section Modes
variable (slave : MockSlave)

@[simp] theorem modes_setStatusBit (i : ℕ) : modes (slave.setStatusBit i) = modes slave := rfl
@[simp] theorem modes_clearStatusBit (i : ℕ) : modes (slave.clearStatusBit i) = modes slave := rfl
@[simp] theorem modes_publishStatus : modes slave.publishStatus = modes slave := rfl
@[simp] theorem modes_storeModeFlags : modes slave.storeModeFlags = modes slave := rfl
@[simp] theorem modes_setSwitchOnDisabled : modes slave.setSwitchOnDisabled = modes slave := rfl
@[simp] theorem modes_setReadyToSwitchOn : modes slave.setReadyToSwitchOn = modes slave := rfl
@[simp] theorem modes_setSwitchOn : modes slave.setSwitchOn = modes slave := rfl
@[simp] theorem modes_setOperationEnabled : modes slave.setOperationEnabled = modes slave := rfl
@[simp] theorem modes_setQuickStop : modes slave.setQuickStop = modes slave := rfl
@[simp] theorem modes_controlWord (cw : Word) :
    modes { slave with controlWord := cw } = modes slave := rfl

@[simp] theorem modes_threadBit (i : Fin MockSlave.threadBits.length) (value : Bool) :
    modes (slave.handle (.threadBit i value)) = modes slave := by
  cases value <;> rfl

theorem modes_beforeMode : modes (beforeMode slave) = modes slave := by
  simp only [beforeMode, modes_storeModeFlags, apply_ite modes, modes_setQuickStop,
    modes_setSwitchOn, modes_setReadyToSwitchOn, modes_setSwitchOnDisabled, ite_self]

theorem modes_beforeJoin : modes (beforeJoin slave) = modes slave := by
  rw [beforeJoin, modes_publishStatus, modes_clearStatusBit, modes_clearStatusBit,
    modes_beforeMode]

end Modes

/-- With no thread step between, `OnWrite` does to the slave what it does at once. -/
theorem onWriteControlWord_eq {slave : MockSlave} (hstate : slave.state = .operationEnable)
    (hmode : slave.oldOperationMode ≠ slave.operationMode) (cw : Word) :
    slave.onWriteControlWord cw =
      { beforeJoin { slave with controlWord := cw } with
        oldOperationMode := slave.operationMode }.publishStatus := by
  have hmodes := modes_beforeMode { slave with controlWord := cw }
  have hold := congrArg Prod.snd hmodes
  have hnew := congrArg Prod.fst hmodes
  simp only [modes] at hold hnew
  have hne : (beforeMode { slave with controlWord := cw }).oldOperationMode ≠
      (beforeMode { slave with controlWord := cw }).operationMode := by
    rw [hold, hnew]
    exact hmode
  have henabled : MockSlave.setNewStatusWordAndState { slave with controlWord := cw } =
      (beforeMode { slave with controlWord := cw }).changeMode := by
    simp only [MockSlave.setNewStatusWordAndState, hstate]
    rfl
  rw [MockSlave.onWriteControlWord, henabled, MockSlave.changeMode, if_neg hne, hnew]
  rfl

/-- Outside a change of mode `OnWrite` keeps both. -/
theorem modes_onWriteControlWord {slave : MockSlave}
    (hsame : slave.state = .operationEnable → slave.oldOperationMode = slave.operationMode)
    (cw : Word) : modes (slave.onWriteControlWord cw) = modes slave := by
  rw [MockSlave.onWriteControlWord, modes_publishStatus, ← modes_controlWord slave cw]
  have hsame' : ({ slave with controlWord := cw } : MockSlave).state = .operationEnable →
      ({ slave with controlWord := cw } : MockSlave).oldOperationMode =
        ({ slave with controlWord := cw } : MockSlave).operationMode := hsame
  generalize ({ slave with controlWord := cw } : MockSlave) = s at hsame' ⊢
  rw [MockSlave.setNewStatusWordAndState]
  split
  · exact modes_setSwitchOnDisabled s
  · simp only [MockSlave.onSwitchOnDisabled, apply_ite modes, modes_setReadyToSwitchOn, ite_self]
  · simp only [MockSlave.onReadyToSwitchOn, apply_ite modes, modes_setReadyToSwitchOn,
      modes_setSwitchOn, modes_setSwitchOnDisabled, ite_self]
  · simp only [MockSlave.onSwitchedOn, apply_ite modes, modes_setReadyToSwitchOn,
      modes_setOperationEnabled, modes_setSwitchOnDisabled, ite_self]
  · next hstate =>
      have hmodes := modes_beforeMode s
      have hold := congrArg Prod.snd hmodes
      have hnew := congrArg Prod.fst hmodes
      simp only [modes] at hold hnew
      have hkept : (beforeMode s).oldOperationMode = (beforeMode s).operationMode := by
        rw [hold, hnew]
        exact hsame' hstate
      rw [show s.onOperationEnabled = (beforeMode s).changeMode from rfl, MockSlave.changeMode,
        if_pos hkept, hmodes]
  · simp only [MockSlave.onQuickstopActive, apply_ite modes, modes_setOperationEnabled,
      modes_setSwitchOnDisabled, ite_self]
  · rfl

/-! ## What a step can do -/

section Step
variable {s s' : ModeThreads} {h es : List ModeThreadsEvent} {i : ModeThreadsInput}

/-- A join that succeeds. -/
inductive JoinStep (s : ModeThreads) (k : ModeThread) (next : CanThread) :
    ModeThreads → List ModeThreadsEvent → Prop
  | skip (hwaits : s.pool.waits k = false) : JoinStep s k next { s with can := next } []
  | join (hwaits : s.pool.waits k = true) (hend : s.running k = false) {pool : Pool ModeThread}
      (hjoin : s.pool.join k = .ok pool) :
      JoinStep s k next { s with pool := pool, can := next } [.joined k]

theorem joinStep_of_joinThread {k : ModeThread} {next : CanThread}
    (hstep : s.joinThread k next = some (s', es)) : JoinStep s k next s' es := by
  unfold joinThread at hstep
  split at hstep
  · next hwaits =>
      obtain ⟨pool, hjoin⟩ := Pool.exists_join hwaits
      split at hstep
      · cases hstep
      · next hend =>
          rw [hjoin] at hstep
          obtain ⟨rfl, rfl⟩ := Prod.mk.inj (Option.some.inj hstep)
          exact .join hwaits (Bool.eq_false_iff.mpr hend) hjoin
  · next hwaits =>
      obtain ⟨rfl, rfl⟩ := Prod.mk.inj (Option.some.inj hstep)
      exact .skip (Bool.eq_false_iff.mpr hwaits)

/-! ## The invariant -/

/-- Which handles wait while the CAN thread is where it is. -/
def Ahead (p : Pool ModeThread) : CanThread → Prop
  | .idle => True
  | .entering ks => ∀ k, p.waits k = true → k ∈ ks
  | .destroying ks => ∀ k, p.waits k = true → k ∈ ks
  | .destroyed => ∀ k, p.waits k = false

/-- The modes that have been entered, the latest first. -/
def entered (h : List ModeThreadsEvent) : List (BitVec 8) :=
  h.filterMap fun
    | .entered mode => some mode
    | _ => none

/-- Only the loop of the mode that was entered last can run, and while `OnWrite` waits for it,
it is not the one of the mode. -/
structure Sound (h : List ModeThreadsEvent) (s : ModeThreads) : Prop where
  accounted : s.pool.Accounted
  alive : ∀ k, s.running k = true → s.pool.waits k = true
  mode : ∀ k, s.pool.waits k = true → k.mode = s.slave.oldOperationMode
  ahead : Ahead s.pool s.can
  changing : ∀ ks, s.can = .entering ks → s.slave.oldOperationMode ≠ s.slave.operationMode
  noFault : ∀ f, .fault f ∉ h
  last : ∀ mode, (entered h).head? = some mode → mode = s.slave.oldOperationMode
  changes : (entered h).IsChain (· ≠ ·)

theorem Sound.init (hs : system.init s) : s.Sound [] := by
  obtain ⟨-, hpool, hrunning, hcan⟩ := hs
  refine ⟨?_, ?_, ?_, ?_, ?_, fun _ => List.not_mem_nil, ?_, List.IsChain.nil⟩
  · rw [hpool]; exact Pool.Accounted.empty
  · intro k hk; simp [ModeThreads.running, hrunning] at hk
  · intro k hk; simp [hpool, Pool.empty, Pool.waits] at hk
  · rw [hcan]; trivial
  · intro ks hks; simp [hcan] at hks
  · intro mode hmode; simp [entered] at hmode

/-- A step that does not touch the threads. -/
theorem Sound.of_modes (hs : s.Sound h) {slave : MockSlave}
    (hold : slave.oldOperationMode = s.slave.oldOperationMode)
    (hnew : s.can ≠ .idle → slave.operationMode = s.slave.operationMode) :
    Sound h { s with slave := slave } := by
  refine ⟨hs.accounted, hs.alive, ?_, hs.ahead, ?_, hs.noFault, ?_, hs.changes⟩
  · intro k hk
    exact (hs.mode k hk).trans hold.symm
  · intro ks hks
    have hcan : s.can ≠ .idle := by
      have hks' : s.can = .entering ks := hks
      simp [hks']
    show slave.oldOperationMode ≠ slave.operationMode
    rw [hold, hnew hcan]
    exact hs.changing ks hks
  · intro mode hmode
    exact (hs.last mode hmode).trans hold.symm

/-- A loop that runs comes to another place, or is left. -/
theorem Sound.moved (hs : s.Sound h) {k : ModeThread} (hrun : s.running k = true)
    (place : Option LoopAt) :
    Sound h { s with loops := Function.update s.loops k place } := by
  refine ⟨hs.accounted, ?_, hs.mode, hs.ahead, hs.changing, hs.noFault, hs.last, hs.changes⟩
  intro k' hk'
  by_cases hsame : k' = k
  · rw [hsame]
    exact hs.alive k hrun
  · simp only [running, Function.update_of_ne hsame] at hk'
    exact hs.alive k' hk'

/-- The loop of a handle that does not wait is not running. -/
theorem Sound.stopped (hs : s.Sound h) {k : ModeThread} (hwaits : s.pool.waits k = false) :
    s.running k = false := by
  by_contra hrun
  have hwait := hs.alive k (Bool.eq_true_of_not_eq_false hrun)
  rw [hwaits] at hwait
  cases hwait

theorem entered_cons {e : ModeThreadsEvent} (he : ∀ mode, e ≠ .entered mode)
    (h : List ModeThreadsEvent) : entered (e :: h) = entered h := by
  cases e with
  | entered mode => exact absurd rfl (he mode)
  | _ => rfl

/-- A step that has nothing to tell of modes and faults. -/
theorem Sound.told (hs : s.Sound h) {e : ModeThreadsEvent} (he : ∀ mode, e ≠ .entered mode)
    (hf : ∀ f, e ≠ .fault f) : s.Sound (e :: h) := by
  refine ⟨hs.accounted, hs.alive, hs.mode, hs.ahead, hs.changing, ?_, ?_, ?_⟩
  · intro f hmem
    rcases List.mem_cons.mp hmem with heq | hmem
    · exact hf f heq.symm
    · exact hs.noFault f hmem
  · rw [entered_cons he]
    exact hs.last
  · rw [entered_cons he]
    exact hs.changes

/-- One of the joins of `on_operation_enabled`, or of the destructor. -/
theorem Sound.joinStep {k : ModeThread} {ks : List ModeThread} {next : CanThread}
    (hs : s.Sound h) (hahead : ∀ k', s.pool.waits k' = true → k' ∈ k :: ks)
    (hnext : next = .entering ks ∧ s.slave.oldOperationMode ≠ s.slave.operationMode ∨
      next = .destroying ks)
    (hstep : JoinStep s k next s' es) : s'.Sound (es ++ h) := by
  have hchanging : ∀ ks', next = .entering ks' →
      s.slave.oldOperationMode ≠ s.slave.operationMode := by
    intro ks' heq
    rcases hnext with ⟨-, hne⟩ | hnext
    · exact hne
    · rw [hnext] at heq
      cases heq
  have hAhead : ∀ p : Pool ModeThread, (∀ k', p.waits k' = true → k' ∈ ks) → Ahead p next := by
    intro p hp
    rcases hnext with ⟨rfl, -⟩ | rfl
    · exact hp
    · exact hp
  cases hstep with
  | skip hwaits =>
      refine ⟨hs.accounted, hs.alive, hs.mode, hAhead _ ?_, hchanging, hs.noFault, hs.last,
        hs.changes⟩
      intro k' hk'
      refine (List.mem_cons.mp (hahead k' hk')).resolve_left ?_
      rintro rfl
      rw [hwaits] at hk'
      cases hk'
  | @join hwaits hend pool hjoin =>
      have hwaits' := Pool.waits_join hjoin
      have hsound : ModeThreads.Sound h { s with pool := pool, can := next } := by
        refine ⟨hs.accounted.join hjoin, ?_, ?_, hAhead _ ?_, hchanging, hs.noFault, hs.last,
          hs.changes⟩
        · intro k' hk'
          refine (hwaits' k').mpr ⟨?_, hs.alive k' hk'⟩
          rintro rfl
          exact absurd (hend.symm.trans hk') Bool.false_ne_true
        · intro k' hk'
          exact hs.mode k' ((hwaits' k').mp hk').2
        · intro k' hk'
          obtain ⟨hne, hk'⟩ := (hwaits' k').mp hk'
          exact (List.mem_cons.mp (hahead k' hk')).resolve_left hne
      exact hsound.told (fun _ heq => by cases heq) (fun _ heq => by cases heq)

/-- Behind its joins `on_operation_enabled` starts the loop of the mode, the only one. -/
theorem Sound.enter (hs : s.Sound h) (hcan : s.can = .entering []) :
    s.enter.1.Sound (s.enter.2 ++ h) := by
  have hnone : ∀ k, s.pool.waits k = false := by
    intro k
    have hahead := hs.ahead
    rw [hcan] at hahead
    by_contra hwaits
    exact absurd (hahead k (Bool.eq_true_of_not_eq_false hwaits)) List.not_mem_nil
  have hchanges : (s.slave.operationMode :: entered h).IsChain (· ≠ ·) := by
    have hlast := hs.last
    have hold := hs.changes
    cases hentered : entered h with
    | nil => exact List.IsChain.singleton _
    | cons mode rest =>
        rw [hentered] at hlast hold
        refine List.IsChain.cons_cons ?_ hold
        rw [hlast mode rfl]
        exact (hs.changing [] hcan).symm
  have hfault : ∀ f, ModeThreadsEvent.fault f ∉ .entered s.slave.operationMode :: h := by
    intro f hmem
    rcases List.mem_cons.mp hmem with heq | hmem
    · cases heq
    · exact hs.noFault f hmem
  have hlast : ∀ mode, (entered (.entered s.slave.operationMode :: h)).head? = some mode →
      mode = s.slave.operationMode := by
    intro mode hmode
    exact (Option.some.inj hmode).symm
  unfold ModeThreads.enter
  simp only
  split
  · refine ⟨hs.accounted, hs.alive, ?_, trivial, fun ks hks => (by cases hks), hfault, hlast,
      hchanges⟩
    intro k hk
    rw [hnone k] at hk
    cases hk
  · next k hk =>
      rw [Pool.start_of_waits (hnone k)]
      have hstart := Pool.start_of_waits (hnone k)
      have hwaits := Pool.waits_start hstart
      have hsound : ModeThreads.Sound (.entered s.slave.operationMode :: h)
          { s with
            slave := { s.slave with oldOperationMode := s.slave.operationMode }.publishStatus
            pool := { s.pool with
              handle := Function.update s.pool.handle k (some ⟨s.pool.started, true⟩)
              started := s.pool.started + 1 }
            loops := Function.update s.loops k (some .head)
            can := .idle } := by
        refine ⟨hs.accounted.start hstart, ?_, ?_, trivial, fun ks hks => (by cases hks), hfault,
          hlast, hchanges⟩
        · intro k' hk'
          refine (hwaits k').mpr ?_
          by_cases hsame : k' = k
          · exact Or.inl hsame
          · simp only [running, Function.update_of_ne hsame] at hk'
            exact Or.inr (hs.alive k' hk')
        · intro k' hk'
          rcases (hwaits k').mp hk' with rfl | hk'
          · exact ModeThread.mode_of_ofMode hk
          · rw [hnone k'] at hk'
            cases hk'
      exact hsound.told (fun _ heq => by cases heq) (fun _ heq => by cases heq)

/-- A control word keeps it, whether `OnWrite` ends or comes to its joins. -/
theorem Sound.controlWord (hs : s.Sound h) (cw : Word) : (s.onWriteControlWord cw).Sound h := by
  rw [onWriteControlWord]
  split
  · next hchange =>
      have hmodes := modes_beforeJoin { s.slave with controlWord := cw }
      have hold := congrArg Prod.snd hmodes
      have hnew := congrArg Prod.fst hmodes
      simp only [modes] at hold hnew
      refine ⟨hs.accounted, hs.alive, ?_, ?_, ?_, hs.noFault, ?_, hs.changes⟩
      · intro k hk
        exact (hs.mode k hk).trans hold.symm
      · intro k _
        exact ModeThread.mem_joinOrder k
      · intro _ _
        show MockSlave.oldOperationMode _ ≠ MockSlave.operationMode _
        rw [hold, hnew]
        exact hchange.2
      · intro mode hmode
        exact (hs.last mode hmode).trans hold.symm
  · next hkept =>
      have hsame : s.slave.state = .operationEnable →
          s.slave.oldOperationMode = s.slave.operationMode := by
        intro hstate
        by_contra hne
        exact hkept ⟨hstate, hne⟩
      have hmodes := modes_onWriteControlWord hsame cw
      exact hs.of_modes (congrArg Prod.snd hmodes) fun _ => congrArg Prod.fst hmodes

/-- What the CAN thread does in front of its joins, and behind the last. -/
theorem Sound.join (hs : s.Sound h) (hstep : s.step .join = some (s', es)) :
    s'.Sound (es ++ h) := by
  have hahead := hs.ahead
  simp only [ModeThreads.step] at hstep
  split at hstep
  · cases hstep
  · next k ks hcan =>
      rw [hcan] at hahead
      exact hs.joinStep hahead (Or.inl ⟨rfl, hs.changing _ hcan⟩) (joinStep_of_joinThread hstep)
  · next hcan =>
      obtain ⟨rfl, rfl⟩ := Prod.mk.inj (Option.some.inj hstep)
      exact hs.enter hcan
  · next k ks hcan =>
      rw [hcan] at hahead
      exact hs.joinStep hahead (Or.inr rfl) (joinStep_of_joinThread hstep)
  · next hcan =>
      obtain ⟨rfl, rfl⟩ := Prod.mk.inj (Option.some.inj hstep)
      rw [hcan] at hahead
      refine ⟨hs.accounted, hs.alive, hs.mode, ?_, fun ks hks => (by cases hks), hs.noFault,
        hs.last, hs.changes⟩
      intro k
      by_contra hwaits
      exact absurd (hahead k (Bool.eq_true_of_not_eq_false hwaits)) List.not_mem_nil
  · cases hstep

/-- **One step keeps the invariant.** -/
theorem Sound.step (hs : s.Sound h) (hstep : s.step i = some (s', es)) : s'.Sound (es ++ h) := by
  cases i with
  | controlWord cw =>
      simp only [ModeThreads.step] at hstep
      split at hstep
      · obtain ⟨rfl, rfl⟩ := Prod.mk.inj (Option.some.inj hstep)
        exact hs.controlWord cw
      · cases hstep
  | operationMode mode =>
      simp only [ModeThreads.step] at hstep
      split at hstep
      · next hcan =>
          obtain ⟨rfl, rfl⟩ := Prod.mk.inj (Option.some.inj hstep)
          exact hs.of_modes rfl fun hne => absurd hcan hne
      · cases hstep
  | destroy =>
      simp only [ModeThreads.step] at hstep
      split at hstep
      · obtain ⟨rfl, rfl⟩ := Prod.mk.inj (Option.some.inj hstep)
        exact ⟨hs.accounted, hs.alive, hs.mode, fun k _ => ModeThread.mem_joinOrder k,
          fun ks hks => (by cases hks), hs.noFault, hs.last, hs.changes⟩
      · cases hstep
  | join => exact hs.join hstep
  | check k ok =>
      simp only [ModeThreads.step] at hstep
      split at hstep
      · next hhead =>
          have hrun : s.running k = true := by rw [running, hhead]; rfl
          split at hstep
          · obtain ⟨rfl, rfl⟩ := Prod.mk.inj (Option.some.inj hstep)
            exact hs.moved hrun _
          · obtain ⟨rfl, rfl⟩ := Prod.mk.inj (Option.some.inj hstep)
            exact (hs.moved hrun _).told (fun _ heq => by cases heq)
              (fun _ heq => by cases heq)
      · cases hstep
  | bit k i value =>
      simp only [ModeThreads.step] at hstep
      split at hstep
      · obtain ⟨rfl, rfl⟩ := Prod.mk.inj (Option.some.inj hstep)
        have hmodes := modes_threadBit s.slave i value
        exact hs.of_modes (congrArg Prod.snd hmodes) fun _ => congrArg Prod.fst hmodes
      · cases hstep
  | publish k =>
      simp only [ModeThreads.step] at hstep
      split at hstep
      · obtain ⟨rfl, rfl⟩ := Prod.mk.inj (Option.some.inj hstep)
        exact hs.of_modes rfl fun _ => rfl
      · cases hstep
  | endPass k =>
      simp only [ModeThreads.step] at hstep
      split at hstep
      · next hpass =>
          obtain ⟨rfl, rfl⟩ := Prod.mk.inj (Option.some.inj hstep)
          exact hs.moved (by rw [running, hpass]; rfl) _
      · cases hstep

theorem sound_of_reach (hr : Reach system Guard.free h s) : s.Sound h := by
  refine Reach.invariant (I := fun h s => ModeThreads.Sound h s) (fun s hs => Sound.init hs) ?_ hr
  intro h s i s' es hs _ hstep
  exact hs.step hstep

/-! ## What never happens -/

/-- **The loops exclude each other.**  However control words, modes, loops and joins
interleave: no thread is given up or joined twice, so the slave never terminates; no two
loops run at a time; while `OnWrite` waits in a join, every loop that runs is one that finds
its condition false at its next head, whatever it does until then; and when the slave has been
destroyed, each thread that was started has been joined once. -/
theorem loops_exclude (h : List ModeThreadsEvent) (s : ModeThreads)
    (hr : Reach system Guard.free h s) :
    (∀ f, .fault f ∉ h) ∧
      (∀ k k', s.running k = true → s.running k' = true → k = k') ∧
      (∀ ks k, s.can = .entering ks → s.running k = true → goesOn s.slave k = false) ∧
      (s.can = .destroyed → ∀ i < s.pool.started, s.pool.joins i = 1) := by
  have hs := sound_of_reach hr
  refine ⟨hs.noFault, ?_, ?_, ?_⟩
  · intro k k' hk hk'
    refine ModeThread.mode_injective ?_
    rw [hs.mode k (hs.alive k hk), hs.mode k' (hs.alive k' hk')]
  · intro ks k hcan hk
    have hne := hs.changing ks hcan
    rw [← hs.mode k (hs.alive k hk)] at hne
    simp [goesOn, hne.symm]
  · intro hcan i hi
    have hahead := hs.ahead
    rw [hcan] at hahead
    exact hs.accounted.joins_eq_one hahead hi

/-! ## What always can happen -/

/-- A loop that finds its condition false is left. -/
theorem step_check {k : ModeThread} (ok : Bool) (hhead : s.loops k = some .head)
    (hgoes : goesOn s.slave k = false) : s.step (.check k ok) =
      some ({ s with loops := Function.update s.loops k none }, [.left k]) := by
  simp [step, hhead, hgoes]

/-- A join of a loop that has been left does not wait. -/
theorem exists_step_join {k : ModeThread} {ks : List ModeThread}
    (hcan : s.can = .entering (k :: ks)) (hend : s.running k = false) :
    ∃ s' es, s.step .join = some (s', es) ∧ s'.can = .entering ks ∧ s'.slave = s.slave := by
  have hstep : s.step .join = s.joinThread k (.entering ks) := by
    simp only [ModeThreads.step, hcan]
  rw [hstep, joinThread]
  by_cases hwaits : s.pool.waits k = true
  · obtain ⟨pool, hjoin⟩ := Pool.exists_join hwaits
    rw [if_pos hwaits, hend, if_neg Bool.false_ne_true, hjoin]
    exact ⟨_, _, rfl, rfl, rfl⟩
  · rw [if_neg hwaits]
    exact ⟨_, _, rfl, rfl, rfl⟩

theorem Sound.enter_eq (hs : s.Sound h) (hcan : s.can = .entering []) :
    s.enter.1.can = .idle ∧ s.enter.1.slave.operationMode = s.slave.operationMode ∧
      s.enter.1.slave.oldOperationMode = s.slave.operationMode ∧
      ∀ k, s.enter.1.running k = true ↔ ModeThread.ofMode s.slave.operationMode = some k := by
  have hnone : ∀ k, s.pool.waits k = false := by
    intro k
    have hahead := hs.ahead
    rw [hcan] at hahead
    by_contra hwaits
    exact absurd (hahead k (Bool.eq_true_of_not_eq_false hwaits)) List.not_mem_nil
  unfold ModeThreads.enter
  simp only
  split
  · next hmode =>
      refine ⟨rfl, rfl, rfl, ?_⟩
      intro k
      have hstopped := hs.stopped (hnone k)
      rw [running] at hstopped
      simp [running, hmode, hstopped]
  · next k hk =>
      rw [Pool.start_of_waits (hnone k), hk]
      refine ⟨rfl, rfl, rfl, ?_⟩
      intro k'
      by_cases hsame : k' = k
      · simp [running, hsame]
      · have hstopped := hs.stopped (hnone k')
        rw [running] at hstopped
        simp [running, hsame, hstopped, Ne.symm hsame]

theorem run_cons {is : List ModeThreadsInput} {r : List ModeThreadsEvent × ModeThreads}
    (hstep : s.step i = some (s', es)) (hrun : system.run is (es ++ h) s' = some r) :
    system.run (i :: is) h s = some r := by
  have hstep' : system.step s i = some (s', es) := hstep
  simp only [System.runIf, hstep', if_true]
  exact hrun

theorem reach_step (hr : Reach system Guard.free h s) (hstep : s.step i = some (s', es)) :
    Reach system Guard.free (es ++ h) s' :=
  Reach.step (i := i) hr trivial hstep

/-- What `OnWrite` waits for. -/
def Ending (i : ModeThreadsInput) : Prop :=
  i = .join ∨ ∃ k, i = .endPass k ∨ i = .check k true

/-- The loop that `OnWrite` waits for is left at its next head. -/
theorem Sound.exists_left (hs : s.Sound h) (hr : Reach system Guard.free h s)
    {ks : List ModeThread} (hcan : s.can = .entering ks) (k : ModeThread) :
    ∃ is h' s', (∀ i ∈ is, Ending i) ∧
      (∀ is' r, system.run is' h' s' = some r → system.run (is ++ is') h s = some r) ∧
      Reach system Guard.free h' s' ∧ s'.can = s.can ∧ s'.slave = s.slave ∧
      s'.running k = false := by
  by_cases hrun : s.running k = true
  · have hgoes : goesOn s.slave k = false := by
      have hne := hs.changing ks hcan
      rw [← hs.mode k (hs.alive k hrun)] at hne
      simp [goesOn, hne.symm]
    cases hloop : s.loops k with
    | none => simp [running, hloop] at hrun
    | some place =>
        cases place with
        | head =>
            have hstep := step_check true hloop hgoes
            refine ⟨[.check k true], _, _, ?_, fun is r hrun => run_cons hstep hrun,
              reach_step hr hstep, rfl, rfl, ?_⟩
            · intro i hi
              exact Or.inr ⟨k, Or.inr (List.mem_singleton.mp hi)⟩
            · simp [running]
        | pass =>
            have hback : s.step (.endPass k) =
                some ({ s with loops := Function.update s.loops k (some .head) }, []) := by
              simp [ModeThreads.step, hloop]
            have hhead : Function.update s.loops k (some .head) k = some .head :=
              Function.update_self ..
            have hstep : ModeThreads.step
                { s with loops := Function.update s.loops k (some .head) } (.check k true) = _ :=
              step_check true hhead hgoes
            refine ⟨[.endPass k, .check k true], _, _, ?_,
              fun is r hrun => run_cons hback (run_cons hstep hrun),
              reach_step (reach_step hr hback) hstep, rfl, rfl, ?_⟩
            · intro i hi
              simp only [List.mem_cons, List.not_mem_nil, or_false] at hi
              exact Or.inr ⟨k, hi⟩
            · simp [running]
  · exact ⟨[], h, s, fun i hi => absurd hi List.not_mem_nil, fun is r hrun => hrun, hr, rfl, rfl,
      Bool.eq_false_iff.mpr hrun⟩

/-- A change of mode can end, with the end of the pass in progress. -/
theorem exists_end (ks : List ModeThread) (h : List ModeThreadsEvent) (s : ModeThreads)
    (hr : Reach system Guard.free h s) (hcan : s.can = .entering ks) :
    ∃ is h' s', (∀ i ∈ is, Ending i) ∧ system.run is h s = some (h', s') ∧ s'.can = .idle ∧
      s'.slave.operationMode = s.slave.operationMode ∧
      s'.slave.oldOperationMode = s.slave.operationMode ∧
      ∀ k, s'.running k = true ↔ ModeThread.ofMode s.slave.operationMode = some k := by
  induction ks generalizing h s with
  | nil =>
      have hstep : s.step .join = some s.enter := by simp only [ModeThreads.step, hcan]
      refine ⟨[.join], _, _, ?_, run_cons hstep rfl, (sound_of_reach hr).enter_eq hcan⟩
      intro i hi
      exact Or.inl (List.mem_singleton.mp hi)
  | cons k ks ih =>
      obtain ⟨is₁, h₁, s₁, his₁, hrun₁, hr₁, hcan₁, hslave₁, hend⟩ :=
        (sound_of_reach hr).exists_left hr hcan k
      obtain ⟨s₂, es, hstep, hcan₂, hslave₂⟩ := exists_step_join (hcan₁.trans hcan) hend
      obtain ⟨is, h', s', his, hrun, hidle, hnew, hold, honly⟩ :=
        ih _ s₂ (reach_step hr₁ hstep) hcan₂
      rw [hslave₂, hslave₁] at hnew hold honly
      refine ⟨is₁ ++ .join :: is, h', s', ?_, hrun₁ _ _ (run_cons hstep hrun), hidle, hnew, hold,
        honly⟩
      intro i hi
      rcases List.mem_append.mp hi with hi | hi
      · exact his₁ i hi
      · rcases List.mem_cons.mp hi with rfl | hi
        · exact Or.inl rfl
        · exact his i hi

/-! ## A pass that does not end -/

/-- `OnWrite` waits for a loop that is in a pass. -/
structure Held (mode : BitVec 8) (k : ModeThread) (s : ModeThreads) : Prop where
  pass : s.loops k = some .pass
  waits : s.pool.waits k = true
  ahead : ∃ ks, s.can = .entering ks ∧ k ∈ ks
  old : s.slave.oldOperationMode = mode

/-- Another loop does what it does. -/
theorem Held.moved {mode : BitVec 8} {k k' : ModeThread} {place : Option LoopAt}
    (hs : s.Held mode k) (hne : k ≠ k') :
    Held mode k { s with loops := Function.update s.loops k' place } :=
  ⟨(Function.update_of_ne hne place s.loops).trans hs.pass, hs.waits, hs.ahead, hs.old⟩

/-- The join of a loop in a pass waits; those in front of it do not change it. -/
theorem Held.join {mode : BitVec 8} {k : ModeThread} (hs : s.Held mode k)
    (hstep : s.step .join = some (s', es)) : s'.Held mode k := by
  obtain ⟨ks, hcan, hmem⟩ := hs.ahead
  have hrun : s.running k = true := by rw [running, hs.pass]; rfl
  cases ks with
  | nil => exact absurd hmem List.not_mem_nil
  | cons k' ks =>
      simp only [ModeThreads.step, hcan] at hstep
      have hne : k ≠ k' → k ∈ ks := fun hne => (List.mem_cons.mp hmem).resolve_left hne
      cases joinStep_of_joinThread hstep with
      | skip hwaits =>
          refine ⟨hs.pass, hs.waits, ⟨ks, rfl, hne ?_⟩, hs.old⟩
          rintro rfl
          rw [hs.waits] at hwaits
          cases hwaits
      | join hwaits hend hjoin =>
          have hother : k ≠ k' := by
            rintro rfl
            rw [hrun] at hend
            cases hend
          exact ⟨hs.pass, (Pool.waits_join hjoin k).mpr ⟨hother, hs.waits⟩,
            ⟨ks, rfl, hne hother⟩, hs.old⟩

/-- Nothing but the end of the pass ends the waiting. -/
theorem Held.step {mode : BitVec 8} {k : ModeThread} (hs : s.Held mode k)
    (hi : i ≠ .endPass k) (hstep : s.step i = some (s', es)) : s'.Held mode k := by
  obtain ⟨ks, hcan, hmem⟩ := hs.ahead
  have hpass := hs.pass
  cases i with
  | controlWord cw => simp [ModeThreads.step, hcan] at hstep
  | operationMode mode => simp [ModeThreads.step, hcan] at hstep
  | destroy => simp [ModeThreads.step, hcan] at hstep
  | join => exact hs.join hstep
  | check k' ok =>
      simp only [ModeThreads.step] at hstep
      split at hstep
      · next hhead =>
          have hne : k ≠ k' := by
            rintro rfl
            rw [hpass] at hhead
            cases hhead
          split at hstep
          · obtain ⟨rfl, rfl⟩ := Prod.mk.inj (Option.some.inj hstep)
            exact hs.moved hne
          · obtain ⟨rfl, rfl⟩ := Prod.mk.inj (Option.some.inj hstep)
            exact hs.moved hne
      · cases hstep
  | bit k' i value =>
      simp only [ModeThreads.step] at hstep
      split at hstep
      · obtain ⟨rfl, rfl⟩ := Prod.mk.inj (Option.some.inj hstep)
        have hold := congrArg Prod.snd (modes_threadBit s.slave i value)
        exact ⟨hpass, hs.waits, hs.ahead, hold.trans hs.old⟩
      · cases hstep
  | publish k' =>
      simp only [ModeThreads.step] at hstep
      split at hstep
      · obtain ⟨rfl, rfl⟩ := Prod.mk.inj (Option.some.inj hstep)
        exact ⟨hpass, hs.waits, hs.ahead, hs.old⟩
      · cases hstep
  | endPass k' =>
      simp only [ModeThreads.step] at hstep
      split at hstep
      · obtain ⟨rfl, rfl⟩ := Prod.mk.inj (Option.some.inj hstep)
        refine hs.moved ?_
        rintro rfl
        exact hi rfl
      · cases hstep

/-- **A change of mode ends with the pass it finds.**  Whenever `OnWrite` waits in its joins: it
comes to its end with nothing but the end of a pass, the next head of its loop and the joins,
and then the mode has been entered and its loop is the only one; but as long as the pass of a
loop that it waits for does not end, `OnWrite` stays in its joins, and the mode is not entered,
whatever else happens. -/
theorem entering_ends (ks : List ModeThread) (h : List ModeThreadsEvent) (s : ModeThreads)
    (hr : Reach system Guard.free h s) (hcan : s.can = .entering ks) :
    (∃ is h' s', (∀ i ∈ is, Ending i) ∧ system.run is h s = some (h', s') ∧ s'.can = .idle ∧
      s'.slave.operationMode = s.slave.operationMode ∧
      s'.slave.oldOperationMode = s.slave.operationMode ∧
      ∀ k, s'.running k = true ↔ ModeThread.ofMode s.slave.operationMode = some k) ∧
    ∀ k is h' s', s.loops k = some .pass → (∀ i ∈ is, i ≠ .endPass k) →
      system.run is h s = some (h', s') →
      (∃ ks', s'.can = .entering ks') ∧
        s'.slave.oldOperationMode = s.slave.oldOperationMode := by
  refine ⟨exists_end ks h s hr hcan, ?_⟩
  intro k is h' s' hpass his hrun
  have hs := sound_of_reach hr
  have hwaits := hs.alive k (by rw [running, hpass]; rfl)
  have hahead := hs.ahead
  rw [hcan] at hahead
  have hheld : s.Held s.slave.oldOperationMode k :=
    ⟨hpass, hwaits, ⟨ks, hcan, hahead k hwaits⟩, rfl⟩
  have hkeep : ∀ (new : List ModeThreadsEvent) t i t' es,
      ModeThreads.Held s.slave.oldOperationMode k t → i ≠ .endPass k →
      system.step t i = some (t', es) → ModeThreads.Held s.slave.oldOperationMode k t' :=
    fun _ t i t' es ht hi hstep => ht.step hi hstep
  have hrun' : system.run is ([] ++ h) s = some (h', s') := hrun
  obtain ⟨-, -, hheld'⟩ := system.run_events
    (I := fun _ t => ModeThreads.Held s.slave.oldOperationMode k t) hkeep is hheld his hrun'
  obtain ⟨ks', hcan', -⟩ := hheld'.ahead
  exact ⟨⟨ks', hcan'⟩, hheld'.old⟩

/-! ## What does not come back -/

/-- The mode has been entered, and no loop runs. -/
structure Off (mode : BitVec 8) (s : ModeThreads) : Prop where
  modes : modes s.slave = (mode, mode)
  running : ∀ k, s.running k = false
  can : ∀ ks, s.can ≠ .entering ks

/-- No other mode is written. -/
def KeepsMode (mode : BitVec 8) : ModeThreadsInput → Prop
  | .operationMode mode' => mode' = mode ∨ 10 < mode'.toNat
  | _ => True

theorem Off.loops_eq {mode : BitVec 8} (hs : s.Off mode) (k : ModeThread) : s.loops k = none := by
  have hleft := hs.running k
  rw [ModeThreads.running] at hleft
  exact Option.not_isSome_iff_eq_none.mp (Bool.eq_false_iff.mp hleft)

/-- No control word starts a loop again. -/
theorem Off.step {mode : BitVec 8} (hs : s.Off mode) (hi : KeepsMode mode i)
    (hstep : s.step i = some (s', es)) : s'.Off mode := by
  have hold : s.slave.oldOperationMode = mode := congrArg Prod.snd hs.modes
  have hnew : s.slave.operationMode = mode := congrArg Prod.fst hs.modes
  cases i with
  | controlWord cw =>
      simp only [ModeThreads.step] at hstep
      split at hstep
      · obtain ⟨rfl, rfl⟩ := Prod.mk.inj (Option.some.inj hstep)
        have hsame : ¬ (s.slave.state = .operationEnable ∧
            s.slave.oldOperationMode ≠ s.slave.operationMode) := fun h =>
          h.2 (hold.trans hnew.symm)
        rw [onWriteControlWord, if_neg hsame]
        refine ⟨?_, hs.running, hs.can⟩
        exact (modes_onWriteControlWord (fun _ => hold.trans hnew.symm) cw).trans hs.modes
      · cases hstep
  | operationMode mode' =>
      simp only [ModeThreads.step] at hstep
      split at hstep
      · obtain ⟨rfl, rfl⟩ := Prod.mk.inj (Option.some.inj hstep)
        refine ⟨?_, hs.running, hs.can⟩
        simp only [ModeThreads.modes, MockSlave.onWriteOperationMode, hold]
        rcases hi with rfl | hunknown
        · rw [hnew, ite_self]
        · rw [if_neg (not_le.mpr hunknown), hnew]
      · cases hstep
  | destroy =>
      simp only [ModeThreads.step] at hstep
      split at hstep
      · obtain ⟨rfl, rfl⟩ := Prod.mk.inj (Option.some.inj hstep)
        exact ⟨hs.modes, hs.running, fun ks hks => by cases hks⟩
      · cases hstep
  | join =>
      simp only [ModeThreads.step] at hstep
      split at hstep
      · cases hstep
      · next k ks hcan => exact absurd hcan (hs.can _)
      · next hcan => exact absurd hcan (hs.can _)
      · next k ks hcan =>
          cases joinStep_of_joinThread hstep with
          | skip => exact ⟨hs.modes, hs.running, fun ks hks => by cases hks⟩
          | join => exact ⟨hs.modes, hs.running, fun ks hks => by cases hks⟩
      · obtain ⟨rfl, rfl⟩ := Prod.mk.inj (Option.some.inj hstep)
        exact ⟨hs.modes, hs.running, fun ks hks => by cases hks⟩
      · cases hstep
  | check k ok => simp [ModeThreads.step, hs.loops_eq k] at hstep
  | bit k i value => simp [ModeThreads.step, hs.loops_eq k] at hstep
  | publish k => simp [ModeThreads.step, hs.loops_eq k] at hstep
  | endPass k => simp [ModeThreads.step, hs.loops_eq k] at hstep

/-- **A loop that has been left does not come back.**  Once its loop has been left, because the
operation was disabled for a while, the slave does not move again in its mode: whatever control
words it is sent, until another mode is written no loop runs. -/
theorem loops_stay_off {mode : BitVec 8} {is : List ModeThreadsInput}
    {h' : List ModeThreadsEvent} (hmode : modes s.slave = (mode, mode))
    (hleft : ∀ k, s.running k = false) (hcan : s.can = .idle)
    (his : ∀ i ∈ is, KeepsMode mode i) (hrun : system.run is h s = some (h', s')) :
    ∀ k, s'.running k = false := by
  have hoff : s.Off mode := ⟨hmode, hleft, fun ks hks => by rw [hcan] at hks; cases hks⟩
  have hkeep : ∀ (new : List ModeThreadsEvent) s i s' es, ModeThreads.Off mode s →
      KeepsMode mode i → system.step s i = some (s', es) → ModeThreads.Off mode s' :=
    fun _ s i s' es hs hi hstep => hs.step hi hstep
  have hrun' : system.run is ([] ++ h) s = some (h', s') := hrun
  obtain ⟨-, -, hoff'⟩ :=
    system.run_events (I := fun _ s => ModeThreads.Off mode s) hkeep is hoff his hrun'
  exact hoff'.running

/-! ### Runs -/

/-- A slave as it is constructed. -/
def fresh : ModeThreads where
  slave := ⟨0, 0, .notReadyToSwitchOn, 0, 0, false, false, false, 0, 0⟩
  pool := Pool.empty
  loops _ := none
  can := .idle

theorem reach_fresh : Reach system Guard.free [] fresh :=
  Reach.init ⟨⟨rfl, rfl, rfl⟩, rfl, fun _ => rfl, rfl⟩

/-- The profiled position mode is written, and the operation enabled in it. -/
def enabling : List ModeThreadsInput :=
  [.operationMode 1, .controlWord 0, .controlWord 6, .controlWord 7, .controlWord 15,
    .controlWord 15, .join, .join, .join, .join, .join, .join]

/-- In a pass of profiled position, when a control word finds profiled velocity. -/
theorem reach_changing : ∃ h s, Reach system Guard.free h s ∧
    (decide (s.can = .entering ModeThread.joinOrder) &&
      decide (s.loops .profiledPosition = some .pass)) = true := by
  have hrun : (system.run (enabling ++ [.check .profiledPosition true, .operationMode 3,
      .controlWord 15]) [] fresh).any
      (fun r => decide (r.2.can = .entering ModeThread.joinOrder) &&
        decide (r.2.loops .profiledPosition = some .pass)) = true := by decide
  exact system.exists_reach_run reach_fresh hrun

theorem loops_exclude_changing : ∃ (h : List ModeThreadsEvent) (s : ModeThreads),
    (s.can = .entering ModeThread.joinOrder ∧ s.running .profiledPosition = true) ∧
    (∀ f, .fault f ∉ h) ∧
      (∀ k k', s.running k = true → s.running k' = true → k = k') ∧
      (∀ ks k, s.can = .entering ks → s.running k = true → goesOn s.slave k = false) ∧
      (s.can = .destroyed → ∀ i < s.pool.started, s.pool.joins i = 1) := by
  obtain ⟨h, s, hr, hs⟩ := reach_changing
  obtain ⟨hcan, hpass⟩ := Bool.and_eq_true_iff.mp hs
  have hrun : s.running .profiledPosition = true := by
    rw [running, of_decide_eq_true hpass]
    rfl
  exact ⟨h, s, ⟨of_decide_eq_true hcan, hrun⟩, loops_exclude h s hr⟩

theorem entering_ends_changing : ∃ (h : List ModeThreadsEvent) (s : ModeThreads),
    s.loops .profiledPosition = some .pass ∧
    (∃ is h' s', (∀ i ∈ is, Ending i) ∧ system.run is h s = some (h', s') ∧ s'.can = .idle ∧
      s'.slave.operationMode = s.slave.operationMode ∧
      s'.slave.oldOperationMode = s.slave.operationMode ∧
      ∀ k, s'.running k = true ↔ ModeThread.ofMode s.slave.operationMode = some k) ∧
    ∀ k is h' s', s.loops k = some .pass → (∀ i ∈ is, i ≠ .endPass k) →
      system.run is h s = some (h', s') →
      (∃ ks', s'.can = .entering ks') ∧
        s'.slave.oldOperationMode = s.slave.oldOperationMode := by
  obtain ⟨h, s, hr, hs⟩ := reach_changing
  obtain ⟨hcan, hpass⟩ := Bool.and_eq_true_iff.mp hs
  exact ⟨h, s, of_decide_eq_true hpass, entering_ends _ h s hr (of_decide_eq_true hcan)⟩

/-- The operation is disabled and enabled again in profiled position. -/
theorem loops_stay_off_enabled : ∃ (h h' : List ModeThreadsEvent) (s s' : ModeThreads),
    Reach system Guard.free h s ∧ system.run [.controlWord 15] h s = some (h', s') ∧
      s'.slave.state = .operationEnable ∧ modes s'.slave = (1, 1) ∧
      ∀ k, s'.running k = false := by
  have hrun : (system.run (enabling ++ [.controlWord 7, .check .profiledPosition true]) []
      fresh).any (fun r => (decide (modes r.2.slave = (1, 1)) && decide (r.2.can = .idle) &&
          ModeThread.joinOrder.all fun k => !r.2.running k) &&
        (system.run [.controlWord 15] r.1 r.2).any fun r' =>
          decide (r'.2.slave.state = .operationEnable) && decide (modes r'.2.slave = (1, 1))) =
        true := by decide
  obtain ⟨h, s, hr, hs⟩ := system.exists_reach_run reach_fresh hrun
  simp only [Bool.and_eq_true, decide_eq_true_eq, List.all_eq_true, Bool.not_eq_true',
    Option.any_eq_true] at hs
  obtain ⟨⟨⟨hmodes, hcan⟩, hleft⟩, ⟨h', s'⟩, hrun, hstate, hmodes'⟩ := hs
  refine ⟨h, h', s, s', hr, hrun, hstate, hmodes', ?_⟩
  refine loops_stay_off hmodes (fun k => hleft k (ModeThread.mem_joinOrder k)) hcan ?_ hrun
  intro i hi
  rw [List.mem_singleton.mp hi]
  trivial

end Step
end ModeThreads
end RosCanopen.Cia402
