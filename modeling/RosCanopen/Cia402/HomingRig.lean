import RosCanopen.Cia402.MockSlave
import RosCanopen.Cia402.Homing

/-!
# Homing against the fake slave

The fake slave homes in a thread that samples the control word, and `DefaultHomingMode` waits for
the status bits that the thread sets.  `CW_Operation_mode_specific0` is the number of the start
bit; the thread takes it for a mask, and finds bit 2 in its place, which is set in every word that
keeps the drive enabled.

## Main definitions

* `HomingThread`, `DefaultHomingMode`, `HomingWait` — `run_homing_mode`, and the driver's side.
* `HomingRig` — the two together, with the status words that are on their way.
* `HomingRig.Stepped` — what a step can be.
* `HomingRig.reach_slave`, `HomingRig.wake_eq_exec` — the two sides are those of the other modules.
-/

namespace RosCanopen.Cia402

open Lib

/-! ## The thread of the slave -/

/-- The program points of `run_homing_mode`. -/
inductive HomingThread
  /-- Not started, or at its end. -/
  | off
  /-- At the condition of the loop. -/
  | check (homed : Bool)
  /-- About to read the control word. -/
  | sample (homed : Bool)
  | publish
  | sleep
  | reach
  | attain
  | finish
  deriving DecidableEq

/-- The thread has taken the control word for a start. -/
def HomingThread.homing : HomingThread → Bool
  | .off | .check _ | .sample _ => false
  | .publish | .sleep | .reach | .attain | .finish => true

/-- `start_homing`; the number of the bit is used as a mask. -/
def startHoming (cw : Word) : Bool :=
  cw &&& BitVec.ofNat 16 ControlWord.operationModeSpecific0 ≠ 0

/-- The mask is the one of bit 2. -/
theorem startHoming_eq (cw : Word) : startHoming cw = cw.getLsbD 2 := by
  have hmask : BitVec.ofNat 16 ControlWord.operationModeSpecific0 = BitVec.twoPow 16 2 := by decide
  rw [startHoming, hmask, BitVec.and_twoPow]
  by_cases hbit : cw.getLsbD 2 = true
  · rw [if_pos hbit, hbit]
    decide
  · rw [if_neg hbit, Bool.eq_false_of_not_eq_true hbit]
    decide

/-- What the threads of the other modes do to the status word. -/
inductive PositionStep
  | set (i : ℕ) (hi : i ∈ [StatusWord.voltageEnabled, StatusWord.remote, StatusWord.targetReached])
  | clear (i : ℕ) (hi : i ∈ [StatusWord.operationModeSpecific0, StatusWord.targetReached])
  | publish

/-! ## The driver's side -/

/-- The members `execute_` and `status_`. -/
structure DefaultHomingMode where
  execute : Bool
  status : Word
  deriving DecidableEq

namespace DefaultHomingMode
variable (m : DefaultHomingMode)

def toMode : Mode := .homing m.execute m.status

/-- `read` -/
def read (sw : Word) : DefaultHomingMode := { m with status := sw &&& Mode.homingMask }

/-- `start` -/
def start : DefaultHomingMode := { m with execute := false }.read 0

/-- The control word after `write`. -/
def write (cw : Word) : Word := (m.toMode.write 0 cw true).cw

theorem toMode_read (sw : Word) : (m.read sw).toMode = m.toMode.read sw := rfl

theorem toMode_start : m.start.toMode = m.toMode.start := rfl

end DefaultHomingMode

/-- The waits of `executeHoming`. -/
inductive HomingWait
  | prepare
  | start
  | attain
  | stop
  deriving DecidableEq

/-- `masked_status_not_equal` of a wait. -/
def HomingWait.ready (status : Word) : HomingWait → Bool
  | .prepare => status &&& (bit 13 ||| bit 10) ≠ 0
  | .start => status &&& (bit 13 ||| bit 12 ||| bit 10) ≠ bit 10
  | .attain => status &&& (bit 13 ||| bit 12) ≠ 0
  | .stop => status &&& (bit 13 ||| bit 10) ≠ 0

/-! ## Both together -/

structure HomingRig where
  slave : MockSlave
  thread : HomingThread
  /-- `OnWrite` waits in `join` for the thread of the old mode. -/
  joining : Bool
  /-- The values that the status word has had in the slave's dictionary, the latest first. -/
  sent : List Word
  mode : DefaultHomingMode
  /-- A call of `executeHoming`, in one of its waits. -/
  caller : Option HomingWait

inductive RigInput
  /-- A control word arrives at the slave. -/
  | control (cw : Word)
  /-- The word that `DefaultHomingMode::write` makes of a control word arrives. -/
  | stream (cw : Word)
  | operationMode (mode : BitVec 8)
  /-- The old threads have ended, and `OnWrite` goes on. -/
  | join
  /-- A step of `run_homing_mode`, with `rclcpp::ok()`. -/
  | homing (ok : Bool)
  | position (step : PositionStep)
  | start
  /-- The driver reads a status word that the slave has had. -/
  | read (sw : Word)
  /-- `executeHoming` is called, and reads the homing method. -/
  | execute (method : BitVec 8)
  /-- A wait ends. -/
  | wake (timedOut : Bool)

inductive RigEvent
  | received (cw : Word)
  /-- `start_homing_mode` -/
  | entered
  /-- `run_homing_mode` has set `SW_Target_reached`. -/
  | reached
  /-- `run_homing_mode` has set `SW_Operation_mode_specific0`. -/
  | attained
  | returned (ok : Bool)
  deriving DecidableEq

namespace HomingRig
variable (s : HomingRig)

/-- The slave stores its status word in the dictionary. -/
def publish : HomingRig :=
  { s with slave := s.slave.publishStatus, sent := s.slave.statusWord :: s.sent }

/-- `OnWrite` for the control word, to its end or to `join`.  The word that enters the mode is
received in it. -/
def onWriteControlWord (cw : Word) : HomingRig × List RigEvent :=
  let slave := s.slave.onWriteControlWord cw
  let changed := decide (slave.oldOperationMode ≠ s.slave.oldOperationMode)
  ({ s with slave := slave, joining := changed, sent := slave.statusObject :: s.sent },
    .received cw ::
      if changed && decide (slave.oldOperationMode = 6) then [.entered] else [])

/-- Behind `join` the thread of the new mode is started, and the status word is stored again. -/
def join : HomingRig :=
  { s with
    thread := if s.slave.oldOperationMode = 6 then .check false else .off
    joining := false }.publish

/-- `run_homing_mode`, step by step. -/
def runHomingMode (ok : Bool) : Option (HomingRig × List RigEvent) :=
  match s.thread with
  | .off => none
  | .check homed =>
      if s.slave.state = .operationEnable ∧ s.slave.operationMode = 6 ∧ ok then
        some ({ s with thread := .sample homed }, [])
      else some ({ s with thread := .off }, [])
  | .sample homed =>
      if startHoming s.slave.controlWord && !homed then
        some ({ s with
          slave := s.slave.setStatusBit StatusWord.manufacturerSpecific1
          thread := .publish }, [])
      else some ({ s with thread := .check false }, [])
  | .publish => some ({ s.publish with thread := .sleep }, [])
  | .sleep =>
      some ({ s with
        slave := s.slave.clearStatusBit StatusWord.manufacturerSpecific1
        thread := .reach }, [])
  | .reach =>
      some ({ s with
        slave := s.slave.setStatusBit StatusWord.targetReached
        thread := .attain }, [.reached])
  | .attain =>
      some ({ s with
        slave := s.slave.setStatusBit StatusWord.operationModeSpecific0
        thread := .finish }, [.attained])
  | .finish => some ({ s.publish with thread := .check true }, [])

def position : PositionStep → HomingRig
  | .set i _ => { s with slave := s.slave.setStatusBit i }
  | .clear i _ => { s with slave := s.slave.clearStatusBit i }
  | .publish => s.publish

/-- `executeHoming` returns, and takes `execute_` back. -/
def returns (ok : Bool) : HomingRig × List RigEvent :=
  ({ s with mode := { s.mode with execute := false }, caller := none }, [.returned ok])

/-- `executeHoming` up to its first wait. -/
def execute (method : BitVec 8) : Option (HomingRig × List RigEvent) :=
  match s.caller with
  | some _ => none
  | none =>
      if method = 0 then some (s, [.returned true])
      else some ({ s with caller := some .prepare }, [])

/-- From a wait of `executeHoming` to the next, or to its end. -/
def wake (timedOut : Bool) : Option (HomingRig × List RigEvent) :=
  match s.caller with
  | none => none
  | some wait =>
      if wait.ready s.mode.status then
        if s.mode.status.getLsbD StatusWord.operationModeSpecific1 then some (s.returns false)
        else
          match wait with
          | .prepare =>
              some ({ s with mode := { s.mode with execute := true }, caller := some .start }, [])
          | .start => some ({ s with caller := some .attain }, [])
          | .attain => some ({ s with caller := some .stop }, [])
          | .stop =>
              some (s.returns (s.mode.status.getLsbD StatusWord.targetReached &&
                s.mode.status.getLsbD StatusWord.operationModeSpecific0))
      else if timedOut then some (s.returns false)
      else none

/-- One step; while `OnWrite` waits, nothing else is written. -/
def step (s : HomingRig) : RigInput → Option (HomingRig × List RigEvent)
  | .control cw => if s.joining then none else some (s.onWriteControlWord cw)
  | .stream cw => if s.joining then none else some (s.onWriteControlWord (s.mode.write cw))
  | .operationMode mode =>
      if s.joining then none
      else some ({ s with slave := s.slave.onWriteOperationMode mode }, [])
  | .join =>
      if s.joining ∧ s.thread = .off then
        some (s.join, [])
      else none
  | .homing ok => s.runHomingMode ok
  | .position step => some (s.position step, [])
  | .start => some ({ s with mode := s.mode.start }, [])
  | .read sw => if sw ∈ s.sent then some ({ s with mode := s.mode.read sw }, []) else none
  | .execute method => s.execute method
  | .wake timedOut => s.wake timedOut

/-- The slave from its construction, and the mode from its first `start`. -/
def system : System HomingRig RigInput RigEvent where
  init s := (s.slave.state = .notReadyToSwitchOn ∧ s.slave.statusWord = 0 ∧
      s.slave.operationMode = 0) ∧
    s.thread = .off ∧ s.joining = false ∧ s.sent = [0] ∧ s.mode = ⟨false, 0⟩ ∧ s.caller = none
  step := step

end HomingRig

/-! ## What a step can be -/

namespace HomingRig
variable {s s' : HomingRig} {i : RigInput} {es : List RigEvent}

/-- What the driver does on its own: the slave and the status it has read stay, and a success
is one of a status with "attained". -/
structure DriverOnly (s s' : HomingRig) (es : List RigEvent) : Prop where
  slave : s'.slave = s.slave
  thread : s'.thread = s.thread
  joining : s'.joining = s.joining
  sent : s'.sent = s.sent
  status : s'.mode.status = s.mode.status
  events : es = [] ∨ es = [.returned false] ∨ es = [.returned true] ∧
    s.mode.status.getLsbD StatusWord.operationModeSpecific0 = true

theorem driverOnly_returns_false : s.DriverOnly (s.returns false).1 (s.returns false).2 :=
  ⟨rfl, rfl, rfl, rfl, rfl, Or.inr (Or.inl rfl)⟩

theorem driverOnly_wake {timedOut : Bool} {s' : HomingRig} {es : List RigEvent}
    (hstep : s.wake timedOut = some (s', es)) : s.DriverOnly s' es := by
  rw [HomingRig.wake] at hstep
  split at hstep
  · exact absurd hstep (by simp)
  next wait _ =>
    split at hstep
    · split at hstep
      · obtain ⟨rfl, rfl⟩ := Prod.mk.inj (Option.some.inj hstep)
        exact driverOnly_returns_false
      · cases wait with
        | prepare =>
            obtain ⟨rfl, rfl⟩ := Prod.mk.inj (Option.some.inj hstep)
            exact ⟨rfl, rfl, rfl, rfl, rfl, Or.inl rfl⟩
        | start =>
            obtain ⟨rfl, rfl⟩ := Prod.mk.inj (Option.some.inj hstep)
            exact ⟨rfl, rfl, rfl, rfl, rfl, Or.inl rfl⟩
        | attain =>
            obtain ⟨rfl, rfl⟩ := Prod.mk.inj (Option.some.inj hstep)
            exact ⟨rfl, rfl, rfl, rfl, rfl, Or.inl rfl⟩
        | stop =>
            obtain ⟨rfl, rfl⟩ := Prod.mk.inj (Option.some.inj hstep)
            refine ⟨rfl, rfl, rfl, rfl, rfl, ?_⟩
            by_cases hattained :
                s.mode.status.getLsbD StatusWord.operationModeSpecific0 = true
            · by_cases hreached : s.mode.status.getLsbD StatusWord.targetReached = true
              · exact Or.inr (Or.inr ⟨by rw [hreached, hattained]; rfl, hattained⟩)
              · rw [Bool.eq_false_of_not_eq_true hreached]
                exact Or.inr (Or.inl rfl)
            · rw [Bool.eq_false_of_not_eq_true hattained, Bool.and_false]
              exact Or.inr (Or.inl rfl)
    · split at hstep
      · obtain ⟨rfl, rfl⟩ := Prod.mk.inj (Option.some.inj hstep)
        exact driverOnly_returns_false
      · exact absurd hstep (by simp)

theorem driverOnly_execute {method : BitVec 8} (hmethod : method ≠ 0) {s' : HomingRig}
    {es : List RigEvent} (hstep : s.execute method = some (s', es)) : s.DriverOnly s' es := by
  rw [HomingRig.execute] at hstep
  split at hstep
  · exact absurd hstep (by simp)
  · rw [if_neg hmethod] at hstep
    obtain ⟨rfl, rfl⟩ := Prod.mk.inj (Option.some.inj hstep)
    exact ⟨rfl, rfl, rfl, rfl, rfl, Or.inl rfl⟩

/-- A step of the thread. -/
inductive PassStep (s : HomingRig) : HomingRig → List RigEvent → Prop
  /-- Outside of a pass. -/
  | moved {thread : HomingThread} (hthread : thread.homing = false) :
      PassStep s { s with thread := thread } []
  | started (hthread : s.thread = .sample false) (hbit : s.slave.controlWord.getLsbD 2 = true) :
      PassStep s { s with
        slave := s.slave.setStatusBit StatusWord.manufacturerSpecific1
        thread := .publish } []
  | published (hthread : s.thread = .publish) : PassStep s { s.publish with thread := .sleep } []
  | slept (hthread : s.thread = .sleep) :
      PassStep s { s with
        slave := s.slave.clearStatusBit StatusWord.manufacturerSpecific1
        thread := .reach } []
  | reached (hthread : s.thread = .reach) :
      PassStep s { s with
        slave := s.slave.setStatusBit StatusWord.targetReached
        thread := .attain } [.reached]
  | attained (hthread : s.thread = .attain) :
      PassStep s { s with
        slave := s.slave.setStatusBit StatusWord.operationModeSpecific0
        thread := .finish } [.attained]
  | finished (hthread : s.thread = .finish) :
      PassStep s { s.publish with thread := .check true } []

theorem passStep_of_runHomingMode {ok : Bool} (hstep : s.runHomingMode ok = some (s', es)) :
    s.thread ≠ .off ∧ PassStep s s' es := by
  cases hthread : s.thread with
  | off => simp [HomingRig.runHomingMode, hthread] at hstep
  | check homed =>
      simp only [HomingRig.runHomingMode, hthread] at hstep
      refine ⟨by simp, ?_⟩
      split at hstep
      · obtain ⟨rfl, rfl⟩ := Prod.mk.inj (Option.some.inj hstep)
        exact .moved rfl
      · obtain ⟨rfl, rfl⟩ := Prod.mk.inj (Option.some.inj hstep)
        exact .moved rfl
  | sample homed =>
      simp only [HomingRig.runHomingMode, hthread] at hstep
      refine ⟨by simp, ?_⟩
      split at hstep
      next hstart =>
        obtain ⟨rfl, rfl⟩ := Prod.mk.inj (Option.some.inj hstep)
        rw [Bool.and_eq_true, startHoming_eq, Bool.not_eq_true'] at hstart
        exact .started (hstart.2 ▸ hthread) hstart.1
      next =>
        obtain ⟨rfl, rfl⟩ := Prod.mk.inj (Option.some.inj hstep)
        exact .moved rfl
  | publish =>
      simp only [HomingRig.runHomingMode, hthread] at hstep
      obtain ⟨rfl, rfl⟩ := Prod.mk.inj (Option.some.inj hstep)
      exact ⟨by simp, .published hthread⟩
  | sleep =>
      simp only [HomingRig.runHomingMode, hthread] at hstep
      obtain ⟨rfl, rfl⟩ := Prod.mk.inj (Option.some.inj hstep)
      exact ⟨by simp, .slept hthread⟩
  | reach =>
      simp only [HomingRig.runHomingMode, hthread] at hstep
      obtain ⟨rfl, rfl⟩ := Prod.mk.inj (Option.some.inj hstep)
      exact ⟨by simp, .reached hthread⟩
  | attain =>
      simp only [HomingRig.runHomingMode, hthread] at hstep
      obtain ⟨rfl, rfl⟩ := Prod.mk.inj (Option.some.inj hstep)
      exact ⟨by simp, .attained hthread⟩
  | finish =>
      simp only [HomingRig.runHomingMode, hthread] at hstep
      obtain ⟨rfl, rfl⟩ := Prod.mk.inj (Option.some.inj hstep)
      exact ⟨by simp, .finished hthread⟩

/-- What a step can be. -/
inductive Stepped (s : HomingRig) : RigInput → HomingRig → List RigEvent → Prop
  | control (cw : Word) (hjoin : s.joining = false) :
      Stepped s (.control cw) (s.onWriteControlWord cw).1 (s.onWriteControlWord cw).2
  | stream (cw : Word) (hjoin : s.joining = false) :
      Stepped s (.stream cw) (s.onWriteControlWord (s.mode.write cw)).1
        (s.onWriteControlWord (s.mode.write cw)).2
  | operationMode (mode : BitVec 8) :
      Stepped s (.operationMode mode) { s with slave := s.slave.onWriteOperationMode mode } []
  | join : Stepped s .join s.join []
  | homing {ok : Bool} {s' : HomingRig} {es : List RigEvent} (hrunning : s.thread ≠ .off)
      (hpass : s.PassStep s' es) : Stepped s (.homing ok) s' es
  | position (step : PositionStep) : Stepped s (.position step) (s.position step) []
  | start : Stepped s .start { s with mode := s.mode.start } []
  | read {sw : Word} (hsw : sw ∈ s.sent) : Stepped s (.read sw) { s with mode := s.mode.read sw } []
  | skipped : Stepped s (.execute 0) s [.returned true]
  | driver {i : RigInput} {s' : HomingRig} {es : List RigEvent} (hd : s.DriverOnly s' es) :
      Stepped s i s' es

theorem stepped_of_step (hstep : s.step i = some (s', es)) : s.Stepped i s' es := by
  cases i with
  | control cw =>
      simp only [HomingRig.step] at hstep
      split at hstep
      next => exact absurd hstep (by simp)
      next hjoin =>
        obtain ⟨rfl, rfl⟩ := Prod.mk.inj (Option.some.inj hstep)
        exact .control cw (Bool.eq_false_of_not_eq_true hjoin)
  | stream cw =>
      simp only [HomingRig.step] at hstep
      split at hstep
      next => exact absurd hstep (by simp)
      next hjoin =>
        obtain ⟨rfl, rfl⟩ := Prod.mk.inj (Option.some.inj hstep)
        exact .stream cw (Bool.eq_false_of_not_eq_true hjoin)
  | operationMode mode =>
      simp only [HomingRig.step] at hstep
      split at hstep
      next => exact absurd hstep (by simp)
      next =>
        obtain ⟨rfl, rfl⟩ := Prod.mk.inj (Option.some.inj hstep)
        exact .operationMode mode
  | join =>
      simp only [HomingRig.step] at hstep
      split at hstep
      next =>
        obtain ⟨rfl, rfl⟩ := Prod.mk.inj (Option.some.inj hstep)
        exact .join
      next => exact absurd hstep (by simp)
  | homing ok =>
      obtain ⟨hrunning, hpass⟩ := passStep_of_runHomingMode hstep
      exact .homing hrunning hpass
  | position step =>
      obtain ⟨rfl, rfl⟩ := Prod.mk.inj (Option.some.inj hstep)
      exact .position step
  | start =>
      obtain ⟨rfl, rfl⟩ := Prod.mk.inj (Option.some.inj hstep)
      exact .start
  | read sw =>
      simp only [HomingRig.step] at hstep
      split at hstep
      next hsw =>
        obtain ⟨rfl, rfl⟩ := Prod.mk.inj (Option.some.inj hstep)
        exact .read hsw
      next => exact absurd hstep (by simp)
  | execute method =>
      by_cases hmethod : method = 0
      · simp only [HomingRig.step, HomingRig.execute, hmethod, if_true] at hstep
        split at hstep
        · exact absurd hstep (by simp)
        · obtain ⟨rfl, rfl⟩ := Prod.mk.inj (Option.some.inj hstep)
          exact hmethod ▸ .skipped
      · exact .driver (driverOnly_execute hmethod hstep)
  | wake timedOut => exact .driver (driverOnly_wake hstep)

/-- The position threads touch only bits that threads may. -/
theorem mem_threadBits_of_set {i : ℕ}
    (hi : i ∈ [StatusWord.voltageEnabled, StatusWord.remote, StatusWord.targetReached]) :
    i ∈ MockSlave.threadBits := by
  revert i
  decide

theorem mem_threadBits_of_clear {i : ℕ}
    (hi : i ∈ [StatusWord.operationModeSpecific0, StatusWord.targetReached]) :
    i ∈ MockSlave.threadBits := by
  revert i
  decide

/-! ## The slave of the rig is the fake slave -/

/-- The slave takes one of its own steps, or none. -/
def SlaveStep (slave slave' : MockSlave) : Prop :=
  slave' = slave ∨ ∃ input, slave' = slave.handle input

theorem slaveStep_setStatusBit (slave : MockSlave) {i : ℕ} (hi : i ∈ MockSlave.threadBits) :
    SlaveStep slave (slave.setStatusBit i) := by
  obtain ⟨k, rfl⟩ := List.get_of_mem hi
  exact Or.inr ⟨.threadBit k true, rfl⟩

theorem slaveStep_clearStatusBit (slave : MockSlave) {i : ℕ} (hi : i ∈ MockSlave.threadBits) :
    SlaveStep slave (slave.clearStatusBit i) := by
  obtain ⟨k, rfl⟩ := List.get_of_mem hi
  exact Or.inr ⟨.threadBit k false, rfl⟩

theorem slaveStep_publish (slave : MockSlave) : SlaveStep slave slave.publishStatus :=
  Or.inr ⟨.threadPublish, rfl⟩

theorem PassStep.slaveStep (hpass : s.PassStep s' es) : SlaveStep s.slave s'.slave := by
  cases hpass with
  | moved _ => exact Or.inl rfl
  | started _ _ => exact slaveStep_setStatusBit s.slave (by decide)
  | published _ => exact slaveStep_publish s.slave
  | slept _ => exact slaveStep_clearStatusBit s.slave (by decide)
  | reached _ => exact slaveStep_setStatusBit s.slave (by decide)
  | attained _ => exact slaveStep_setStatusBit s.slave (by decide)
  | finished _ => exact slaveStep_publish s.slave

/-- In each step the slave takes one of its own. -/
theorem Stepped.slaveStep (hstep : s.Stepped i s' es) : SlaveStep s.slave s'.slave := by
  cases hstep with
  | control cw _ => exact Or.inr ⟨.controlWord cw, rfl⟩
  | stream cw _ => exact Or.inr ⟨.controlWord (s.mode.write cw), rfl⟩
  | operationMode mode => exact Or.inr ⟨.operationMode mode, rfl⟩
  | join => exact slaveStep_publish s.slave
  | homing _ hpass => exact hpass.slaveStep
  | position step =>
      cases step with
      | set i hi => exact slaveStep_setStatusBit s.slave (mem_threadBits_of_set hi)
      | clear i hi => exact slaveStep_clearStatusBit s.slave (mem_threadBits_of_clear hi)
      | publish => exact slaveStep_publish s.slave
  | start => exact Or.inl rfl
  | read _ => exact Or.inl rfl
  | skipped => exact Or.inl rfl
  | driver hd => exact Or.inl hd.slave

/-- **The slave of the rig is the fake slave**: whatever is proved of the runs of the one holds
in the runs of the other. -/
theorem reach_slave {ok : Guard HomingRig RigInput RigEvent} {h : List RigEvent}
    (hr : Reach HomingRig.system ok h s) : Reach MockSlave.system Guard.free [] s.slave := by
  induction hr with
  | init hs => exact .init hs.1
  | step _ _ hstep hslave =>
      cases (stepped_of_step hstep).slaveStep with
      | inl hkept => exact hkept ▸ hslave
      | inr hinput =>
          obtain ⟨input, heq⟩ := hinput
          rw [heq]
          exact .step hslave trivial rfl

end HomingRig

/-! ## The waits are those of the motor -/

/-- The program point of a wait in `Motor.exec`. -/
def HomingWait.code : HomingWait → Code
  | .prepare => .homingPrepare
  | .start => .homingStart
  | .attain => .homingAttain
  | .stop => .homingStop

/-- Where `Motor.exec` goes on. -/
def HomingWait.ofNext : Next → Option HomingWait × List RigEvent
  | .goto .homingStart => (some .start, [])
  | .goto .homingAttain => (some .attain, [])
  | .goto .homingStop => (some .stop, [])
  | .goto (.modeEnter _) => (none, [.returned true])
  | _ => (none, [.returned false])

/-- `executeHoming` waits here as it does in a motor whose homing mode has these members. -/
theorem HomingRig.wake_eq_exec {s : HomingRig} {wait : HomingWait} {m : Motor} {env : Env}
    (hwait : s.caller = some wait) (hm : m.homing = (s.mode.execute, s.mode.status)) :
    s.wake env.timedOut = (m.exec env wait.code).map fun (m', next, _) =>
      ({ s with
        mode := ⟨m'.homing.1, m'.homing.2⟩
        caller := (HomingWait.ofNext next).1 }, (HomingWait.ofNext next).2) := by
  have herror : (m.setExecute false).homing = (false, s.mode.status) := by
    rw [homing_setExecute, hm]
  simp only [HomingRig.wake, hwait]
  cases wait with
  | prepare =>
      simp only [HomingWait.ready, HomingWait.code, Motor.exec, Motor.homingWait, hm]
      split_ifs <;> simp [HomingRig.returns, Motor.homingError, homing_setExecute, hm,
        HomingWait.ofNext]
  | start =>
      simp only [HomingWait.ready, HomingWait.code, Motor.exec, Motor.homingWait, hm]
      split_ifs <;> simp [HomingRig.returns, Motor.homingError, herror, hm, HomingWait.ofNext]
  | attain =>
      simp only [HomingWait.ready, HomingWait.code, Motor.exec, Motor.homingWait, hm]
      split_ifs <;> simp [HomingRig.returns, Motor.homingError, herror, hm, HomingWait.ofNext]
  | stop =>
      have hdone : s.mode.status.getLsbD StatusWord.targetReached = s.mode.status.getLsbD 10 ∧
          s.mode.status.getLsbD StatusWord.operationModeSpecific0 =
            s.mode.status.getLsbD 12 := ⟨rfl, rfl⟩
      simp only [HomingWait.ready, HomingWait.code, Motor.exec, Motor.homingWait, hm, hdone]
      split_ifs with _ _ hboth
      · simp [HomingRig.returns, Motor.homingError, herror, HomingWait.ofNext]
      · simp only [HomingRig.returns, hboth, Bool.and_true, Option.map_some, herror,
          HomingWait.ofNext]
      · have hnot : (s.mode.status.getLsbD 10 && s.mode.status.getLsbD 12) = false := by
          rwa [← Bool.not_eq_true, Bool.and_eq_true]
        simp only [HomingRig.returns, hnot, Option.map_some, Motor.homingError, herror,
          HomingWait.ofNext]
      · simp [HomingRig.returns, Motor.homingError, herror, HomingWait.ofNext]
      · rfl

end RosCanopen.Cia402
