import RosCanopen.Cia402.Agreement
import RosCanopen.Cia402.MotorStep
import RosCanopen.Lib.StopAndWait

/-!
# Enabling over a link with delays

The motor of the driver and the fake slave, with the control words and the status words
that are on their way between them.  A control word is processed when it arrives, in the
order of streaming; the slave reports its status object whenever it likes; the master keeps
the last status word it has received, and `readState` looks at that one.  Nothing bounds
the delays, and every step of every thread may come in between.

One thread polls, one calls `handleEnable`, any others set targets, and the two readers do
not overlap between fetching the status word and decoding it.  Then `switchState` against
the slave is a stop-and-wait protocol along the enabling path: the slave never goes back,
and what the driver reports as enabled is enabled.

## Main definitions

* `Link`, `LinkStep`, `Link.step` — both sides and what is between them.
* `Link.Settled` — nothing is in flight and the control word keeps the slave where it is.
* `Link.Solo` — who calls what.
* `Link.Tracks` — the states in flight are the places of a `Window` on the enabling path.
-/

namespace RosCanopen.Cia402

open Lib

/-- The driver, the slave, and what is on its way between them. -/
structure Link where
  driver : MotorSystem
  slave : MockSlave
  /-- The control words on their way, the oldest first. -/
  down : List Word
  /-- The status words on their way, the oldest first. -/
  up : List Word
  /-- The status word last received. -/
  cached : Word

/-- The steps of the link. -/
inductive LinkStep
  /-- A thread of the driver. -/
  | driver (i : MotorStep)
  /-- A control word arrives. -/
  | arrive
  /-- Anything else that reaches the slave, or a step of its mode threads. -/
  | side (i : { i : MockSlave.Input // i.IsSide })
  /-- The slave sends its status object. -/
  | publish
  /-- A status word arrives. -/
  | receive

/-- The control words that a step of the driver has streamed. -/
def streamedWords (es : List MotorEvent) : List Word :=
  es.filterMap fun
    | .controlWord _ cw => some cw
    | _ => none

namespace Link

/-- A step of the driver, in which the drive reports the status word last received. -/
def look (s : Link) : MotorStep → MotorStep
  | .enter i call => .enter i call
  | .go i env => .go i { env with statusWord := s.cached }

/-- One step. -/
def step (s : Link) : LinkStep → Option (Link × List MotorEvent)
  | .driver i =>
      (s.driver.step (s.look i)).map fun (d, es) =>
        ({ s with driver := d, down := s.down ++ streamedWords es }, es)
  | .arrive =>
      match s.down with
      | [] => none
      | cw :: down => some ({ s with slave := s.slave.onWriteControlWord cw, down := down }, [])
  | .side i => some ({ s with slave := s.slave.handle i.1 }, [])
  | .publish => some ({ s with up := s.up ++ [s.slave.statusObject] }, [])
  | .receive =>
      match s.up with
      | [] => none
      | sw :: up => some ({ s with cached := sw, up := up }, [])

/-- Nothing is in flight, both sides agree on an operative state, and the control word
keeps the slave in it. -/
structure Settled (s : Link) : Prop where
  threads : s.driver.threads = fun _ => none
  armed : s.driver.motor.startFaultReset = false
  down : s.down = []
  up : s.up = []
  slave : s.slave.Coherent
  left : s.slave.state ≠ .notReadyToSwitchOn
  object : State402.read s.slave.statusObject = s.slave.state
  cached : State402.read s.cached = s.slave.state
  state : s.driver.motor.state = s.slave.state
  word : react s.slave.state (powerCommand s.driver.motor.controlWord) = s.slave.state

/-- The link from a settled state on. -/
def system : System Link LinkStep MotorEvent where
  init := Settled
  step := step

/-- Thread 0 polls, thread 1 enables and the others set targets; a thread fetches the
status word while no other has one that it has not decoded yet. -/
def Solo : Guard Link LinkStep MotorEvent := fun _ s i =>
  match i with
  | .driver (.enter 0 call) => call = .pollTimerCallback
  | .driver (.enter 1 call) => call = .handleEnable
  | .driver (.enter _ call) => ∃ val, call = .setTarget val
  | .driver (.go i _) => ∀ t, s.driver.threads i = some t → t.code = .readStatus →
      ∀ j < 2, ∀ t' sw, s.driver.threads j = some t' → t'.code ≠ .readDecode sw
  | _ => True

end Link

/-! ## The enabling path -/

/-- The states on the way to `operationEnable`. -/
def enablingPath (st : InternalState) (n : ℕ) : InternalState := nextStateForEnabling^[n] st

section Path
variable {st : InternalState}

theorem enablingPath_zero : enablingPath st 0 = st := rfl

theorem enablingPath_succ (n : ℕ) :
    enablingPath st (n + 1) = nextStateForEnabling (enablingPath st n) :=
  Function.iterate_succ_apply' nextStateForEnabling n st

/-- The path stays among the operative states and does not come back to the initial one. -/
theorem operative_enablingPath (hst : Operative st) (h0 : st ≠ .notReadyToSwitchOn) (n : ℕ) :
    Operative (enablingPath st n) ∧ enablingPath st n ≠ .notReadyToSwitchOn := by
  have hnext : ∀ s, Operative s ∧ s ≠ .notReadyToSwitchOn →
      Operative (nextStateForEnabling s) ∧ nextStateForEnabling s ≠ .notReadyToSwitchOn := by
    intro s
    cases s <;> decide
  induction n with
  | zero => exact ⟨hst, h0⟩
  | succ n ih =>
      rw [enablingPath_succ]
      exact hnext _ ih

/-- The path ends in `operationEnable`. -/
theorem enablingPath_of_le {n k : ℕ} (hn : enablingPath st n = .operationEnable) (hle : n ≤ k) :
    enablingPath st k = .operationEnable := by
  induction hle with
  | refl => exact hn
  | step _ ih => rw [enablingPath_succ, ih]; rfl

/-- A control word that orders a place of the path: it brings the slave there from the
place before, and keeps it there. -/
def Realises (st : InternalState) (k : ℕ) (cw : Word) : Prop :=
  ∀ n, n ≤ k → k ≤ n + 1 → react (enablingPath st n) (powerCommand cw) = enablingPath st k

theorem Realises.congr {k : ℕ} {cw cw' : Word} (h : Realises st k cw)
    (hcw : powerCommand cw' = powerCommand cw) : Realises st k cw' := by
  intro n hn hk
  rw [hcw]
  exact h n hn hk

/-- The word that keeps the slave where it is orders the first place. -/
theorem realises_zero {cw : Word} (h : react st (powerCommand cw) = st) : Realises st 0 cw := by
  intro n hn _
  obtain rfl := Nat.le_zero.mp hn
  exact h

/-- **The transition of `switchState` orders the next place**, whatever the word was. -/
theorem exists_realises (hst : Operative st) (h0 : st ≠ .notReadyToSwitchOn) {n : ℕ}
    (hn : enablingPath st n ≠ .operationEnable) (cw : Word) :
    ∃ cw', setTransition cw (enablingPath st n) .operationEnable (some .unknown) =
        (true, cw', some (enablingPath st (n + 1))) ∧
      enablingPath st (n + 1) ≠ enablingPath st n ∧ Realises st (n + 1) cw' := by
  obtain ⟨hoperative, hleft⟩ := operative_enablingPath hst h0 n
  obtain ⟨c, hedge⟩ := edge_nextStateForEnabling hoperative hleft hn
  obtain ⟨op, htable, hcmd⟩ := powerCommand_transitions hedge
  obtain ⟨hmove, hstay⟩ := react_edge hedge
  have hhop : hop (enablingPath st n) .operationEnable (some .unknown) =
      nextStateForEnabling (enablingPath st n) := if_pos ⟨rfl, rfl⟩
  refine ⟨op.apply cw, ?_, ?_, ?_⟩
  · rw [setTransition, if_neg hn, hhop, htable, enablingPath_succ]
    rfl
  · rw [enablingPath_succ]
    intro heq
    rw [heq] at hedge
    revert hedge
    cases enablingPath st n <;> simp [edge]
  · intro k hk hk'
    rw [hcmd]
    obtain rfl | rfl : k = n ∨ k = n + 1 := by omega
    · rw [enablingPath_succ]
      exact hmove
    · rw [enablingPath_succ]
      exact hstay

end Path

/-! ## What is in flight -/

/-- The state that a thread has fetched and not decoded yet. -/
def Code.held : Code → List InternalState
  | .readDecode sw => [State402.read sw]
  | _ => []

/-- The state that `switchState` is about to act on. -/
def Code.known : Code → List InternalState
  | .stateSet _ state | .stateCheck _ state | .stateTransit _ state => [state]
  | _ => []

/-- The two of a thread, if it is in a call. -/
def Thread.held : Option Thread → List InternalState
  | some t => t.code.held
  | none => []

def Thread.known : Option Thread → List InternalState
  | some t => t.code.known
  | none => []

/-- The program points of `readState`. -/
def Code.isRead : Code → Prop
  | .readStatus | .readDecode _ | .readMode _ => True
  | _ => False

/-- What a thread of the link can be at, while `target_state_` is `target`. -/
inductive Role (target : InternalState) : ℕ → Option Thread → Prop
  | out {i : ℕ} : Role target i none
  | polling {code : Code} (hcode : code.isRead) :
      Role target 0 (some ⟨.pollTimerCallback, code, [.thenWrite]⟩)
  | writing : Role target 0 (some ⟨.pollTimerCallback, .write, []⟩)
  | reading {code : Code} (hcode : code.isRead) :
      Role target 1 (some ⟨.handleEnable, code, [.thenState .operationEnable]⟩)
  | entering : Role target 1 (some ⟨.handleEnable, .stateEnter .operationEnable, []⟩)
  | setting (state : InternalState) :
      Role target 1 (some ⟨.handleEnable, .stateSet .operationEnable state, []⟩)
  | checking (state : InternalState) (htarget : target = .operationEnable) :
      Role target 1 (some ⟨.handleEnable, .stateCheck .operationEnable state, []⟩)
  | transiting (state : InternalState) (htarget : target = .operationEnable)
      (hstate : state ≠ .operationEnable) :
      Role target 1 (some ⟨.handleEnable, .stateTransit .operationEnable state, []⟩)
  | waiting (state : InternalState) (htarget : target = .operationEnable) :
      Role target 1 (some ⟨.handleEnable, .stateWait .operationEnable state, []⟩)
  | checkingTarget {i : ℕ} (val : Double) :
      Role target (i + 2) (some ⟨.setTarget val, .targetCheck val, []⟩)
  | settingTarget {i : ℕ} (val : Double) :
      Role target (i + 2) (some ⟨.setTarget val, .targetSet val, []⟩)

namespace Link

/-- The states that the driver knows or is about to learn, the oldest first. -/
def told (s : Link) : List InternalState :=
  Thread.known (s.driver.threads 1) ++ s.driver.motor.state ::
    (Thread.held (s.driver.threads 0) ++ Thread.held (s.driver.threads 1)) ++
      State402.read s.cached :: s.up.map State402.read

/-- The states in flight are the places of a window on the path from `st`. -/
structure Tracks (st : InternalState) (w : Window) (s : Link) : Prop where
  operative : Operative st
  left : st ≠ .notReadyToSwitchOn
  window : w.Inv
  slave : s.slave.Coherent
  object : State402.read s.slave.statusObject = s.slave.state
  place : s.slave.state = enablingPath st w.place
  told : s.told = w.reports.map (enablingPath st)
  down : List.Forall₂ (Realises st) w.orders s.down
  word : Realises st w.order s.driver.motor.controlWord
  armed : s.driver.motor.startFaultReset = false
  roles : ∀ i, Role s.driver.motor.targetState i (s.driver.threads i)
  alone : Thread.held (s.driver.threads 0) = [] ∨ Thread.held (s.driver.threads 1) = []

/-- They are the places of such a window, and the driver has not acted since `w`. -/
def Follows (st : InternalState) (w : Window) (s : Link) : Prop :=
  ∃ w', s.Tracks st w' ∧ w.Idle w'

section Tracks
variable {st : InternalState} {w : Window} {s : Link}

/-- A settled link has everything in one place. -/
theorem Settled.tracks (hs : s.Settled) :
    s.Tracks s.slave.state (Window.rest 2) where
  operative := hs.slave.operative
  left := hs.left
  window := Window.inv_rest 2
  slave := hs.slave
  object := hs.object
  place := rfl
  told := by
    simp [Link.told, hs.threads, Thread.known, Thread.held, hs.up, hs.cached, hs.state,
      Window.rest, enablingPath_zero]
  down := by rw [hs.down]; exact .nil
  word := realises_zero hs.word
  armed := hs.armed
  roles i := by rw [hs.threads]; exact .out
  alone := by rw [hs.threads]; exact .inl rfl

/-- The driver has looked at what it is told, and nothing else has happened. -/
theorem Tracks.look (hs : s.Tracks st w) {s' : Link} (hslave : s'.slave = s.slave)
    (hdown : s'.down = s.down)
    (hword : powerCommand s'.driver.motor.controlWord = powerCommand s.driver.motor.controlWord)
    (harmed : s'.driver.motor.startFaultReset = false)
    (hroles : ∀ i, Role s'.driver.motor.targetState i (s'.driver.threads i))
    (halone : Thread.held (s'.driver.threads 0) = [] ∨ Thread.held (s'.driver.threads 1) = [])
    (htold : Draws s'.told s.told) : s'.Follows st w := by
  obtain ⟨l, hl, htold⟩ := (hs.told ▸ htold).exists_map
  exact
    ⟨{ w with reports := l },
      { operative := hs.operative
        left := hs.left
        window := hs.window.look hl
        slave := hslave ▸ hs.slave
        object := hslave ▸ hs.object
        place := hslave ▸ hs.place
        told := htold
        down := hdown ▸ hs.down
        word := hs.word.congr hword
        armed := harmed
        roles := hroles
        alone := halone }, ⟨rfl, rfl, le_rfl⟩⟩

/-- A control word arrives: the slave stays or enters the next state of the path. -/
theorem Tracks.arrive (hs : s.Tracks st w) {cw : Word} {down : List Word}
    (hdown : s.down = cw :: down) :
    ((s.slave.onWriteControlWord cw).state = s.slave.state ∨
        (s.slave.onWriteControlWord cw).state = nextStateForEnabling s.slave.state) ∧
      Follows st w { s with slave := s.slave.onWriteControlWord cw, down := down } := by
  have hforall := hs.down
  rw [hdown] at hforall
  obtain ⟨c, cs, hrealises, hrest, horders⟩ := List.forall₂_cons_right_iff.mp hforall
  have hnext := hs.window.next horders
  have hstate : (s.slave.onWriteControlWord cw).state = enablingPath st c := by
    rw [MockSlave.state_onWriteControlWord, hs.place]
    exact hrealises _ (by omega) (by omega)
  have hcoherent := hs.slave.onWriteControlWord cw
  refine ⟨?_, { w with place := c, orders := cs },
    { hs with
      window := hs.window.deliver horders
      slave := hcoherent
      object := hcoherent.reads
      place := hstate
      down := hrest }, rfl, rfl, by rcases hnext with rfl | rfl <;> simp⟩
  rw [hstate, hs.place]
  rcases hnext with rfl | rfl
  · exact .inl rfl
  · exact .inr (enablingPath_succ _)

/-- What else reaches the slave changes no state. -/
theorem Tracks.side (hs : s.Tracks st w) (i : { i : MockSlave.Input // i.IsSide }) :
    Tracks st w { s with slave := s.slave.handle i.1 } := by
  have hstate := MockSlave.state_handle_of_isSide s.slave i.2
  have hcoherent := hs.slave.handle i.1
  have hobject : State402.read (s.slave.handle i.1).statusObject = s.slave.state := by
    obtain ⟨i, hi⟩ := i
    cases i with
    | controlWord cw => exact hi.elim
    | operationMode mode => exact hs.object
    | threadBit j value => cases value <;> exact hs.object
    | threadPublish => exact hs.slave.reads
  exact
    { hs with
      slave := hcoherent
      object := hobject.trans hstate.symm
      place := hstate.trans hs.place }

/-- The slave sends its status object. -/
theorem Tracks.publish (hs : s.Tracks st w) :
    Tracks st { w with reports := w.reports ++ [w.place] }
      { s with up := s.up ++ [s.slave.statusObject] } := by
  have htold : s.told ++ [State402.read s.slave.statusObject] =
      (w.reports ++ [w.place]).map (enablingPath st) := by
    rw [hs.object, hs.told, hs.place, List.map_append, List.map_singleton]
  refine { hs with window := hs.window.report, told := ?_ }
  rw [← htold]
  simp [Link.told]

/-- A status word arrives. -/
theorem Tracks.receive (hs : s.Tracks st w) {sw : Word} {up : List Word}
    (hup : s.up = sw :: up) : Follows st w { s with cached := sw, up := up } := by
  refine hs.look rfl rfl rfl hs.armed hs.roles hs.alone ?_
  simp only [Link.told, hup, List.map_cons]
  exact .append_left _ (.skip _ (.refl _))

/-! ## Steps of the driver -/

/-- What `handleWrite` does to the words of the link while no fault reset is pending. -/
structure Streams (m : Motor) (r : Motor × Next × List MotorEvent) : Prop where
  word : powerCommand r.1.controlWord = powerCommand m.controlWord
  armed : r.1.startFaultReset = false
  state : r.1.state = m.state
  target : r.1.targetState = m.targetState
  leaves : r.2.1 = .ret true ∨ r.2.1 = .throw
  words : streamedWords r.2.2 = [] ∨ streamedWords r.2.2 = [r.1.controlWord]
  silent : ∀ call ok, MotorEvent.returned call ok ∉ r.2.2

theorem streamedWords_targetEvent (id : ModeId) (r : ModeWrite) :
    streamedWords (Motor.targetEvent id r) = [] := by
  cases h : r.target <;> simp [Motor.targetEvent, h, streamedWords]

theorem streams_stream (m m' : Motor) (harmed : m'.startFaultReset = false)
    (hword : AgreeOn ControlWord.stateBits m'.controlWord m.controlWord)
    (hstate : m'.state = m.state) (htarget : m'.targetState = m.targetState) (ok : Bool) :
    Streams m (m'.stream ok) := by
  have hcommand := powerCommand_congr hword
  cases ok
  · exact ⟨hcommand, rfl, hstate, htarget, .inr rfl, .inl rfl, by simp [Motor.stream]⟩
  · refine ⟨hcommand, rfl, hstate, htarget, .inl rfl, .inr ?_, by simp [Motor.stream]⟩
    simp [Motor.stream, Motor.streamed, harmed, streamedWords]

theorem streams_handleWrite {m : Motor} (harmed : m.startFaultReset = false) (env : Env) :
    Streams m (m.handleWrite env) := by
  obtain ⟨m', w, hwrote, heq⟩ := exists_wrote m env
  rw [heq]
  cases hwrote with
  | @idle cw hcw =>
      exact streams_stream m { m with controlWord := cw } harmed hcw rfl rfl env.streamOk
  | @asked id mode r cw _ _ _ hcw =>
      have hstream := streams_stream m { m.setMode id r.mode with controlWord := cw } harmed hcw
        rfl rfl env.streamOk
      rw [Motor.finishWrite]
      split
      · exact ⟨powerCommand_congr hcw, harmed, rfl, rfl, .inr rfl, .inl rfl, by simp⟩
      · have htarget : ∀ call ok, MotorEvent.returned call ok ∉ Motor.targetEvent id r := by
          cases h : r.target <;> simp [Motor.targetEvent, h]
        refine { hstream with words := ?_, silent := ?_ }
        rotate_left
        · intro call ok hmem
          rcases List.mem_append.mp hmem with hmem | hmem
          · exact hstream.silent call ok hmem
          · exact htarget call ok hmem
        have happend : streamedWords ((Motor.stream { m.setMode id r.mode with controlWord := cw }
              env.streamOk).2.2 ++ Motor.targetEvent id r) =
            streamedWords (Motor.stream { m.setMode id r.mode with controlWord := cw }
              env.streamOk).2.2 := by
          rw [streamedWords, List.filterMap_append]
          exact (congrArg _ (streamedWords_targetEvent id r)).trans (List.append_nil _)
        exact happend ▸ hstream.words

/-- Only the roles of thread 1 depend on `target_state_`. -/
theorem role_of_ne {target target' : InternalState} {i : ℕ} {x : Option Thread}
    (h : Role target i x) (hi : i ≠ 1) : Role target' i x := by
  cases h <;> first | contradiction | constructor
  all_goals assumption

theorem Tracks.roles_update (hs : s.Tracks st w) {target : InternalState} {i : ℕ}
    {x : Option Thread} (hrole : Role target i x)
    (htarget : i = 1 ∨ target = s.driver.motor.targetState) (j : ℕ) :
    Role target j (Function.update s.driver.threads i x j) := by
  by_cases hj : j = i
  · subst hj
    simpa using hrole
  · have hold := hs.roles j
    rw [Function.update_of_ne hj]
    rcases htarget with rfl | htarget
    · exact role_of_ne hold hj
    · rw [htarget]
      exact hold

/-- A thread of the driver takes a step that streams nothing. -/
theorem Tracks.advance (hs : s.Tracks st w) {m : Motor} {i : ℕ} {x : Option Thread}
    (hword : powerCommand m.controlWord = powerCommand s.driver.motor.controlWord)
    (harmed : m.startFaultReset = false)
    (hrole : Role m.targetState i x)
    (htarget : i = 1 ∨ m.targetState = s.driver.motor.targetState)
    (halone : Thread.held x = [] ∨ ∀ j, j ≠ i → Thread.held (s.driver.threads j) = [])
    (htold : Draws (Link.told { s with driver := ⟨m, Function.update s.driver.threads i x⟩ })
      s.told) :
    Follows st w { s with driver := ⟨m, Function.update s.driver.threads i x⟩ } := by
  refine hs.look rfl rfl hword harmed (hs.roles_update hrole htarget) ?_ htold
  · have hthere : ∀ j, j ≠ i → Function.update s.driver.threads i x j = s.driver.threads j :=
      fun j hj => Function.update_of_ne hj x s.driver.threads
    by_cases h0 : i = 0
    · subst h0
      rcases halone with hx | hother
      · exact .inl (by simpa using hx)
      · exact .inr (by simpa using hother 1 (by decide))
    · by_cases h1 : i = 1
      · subst h1
        rcases halone with hx | hother
        · exact .inr (by simpa using hx)
        · exact .inl (by simpa using hother 0 (by decide))
      · simp only [hthere 0 (Ne.symm h0), hthere 1 (Ne.symm h1)]
        exact hs.alone

/-- The control word is streamed. -/
theorem Tracks.send (hs : s.Tracks st w) :
    Tracks st { w with orders := w.orders ++ [w.order] }
      { s with down := s.down ++ [s.driver.motor.controlWord] } :=
  { hs with
    window := hs.window.send
    down := List.rel_append hs.down (.cons hs.word .nil) }

/-- A step of `handleWrite`. -/
theorem Tracks.write (hs : s.Tracks st w)
    (hthread : s.driver.threads 0 = some ⟨.pollTimerCallback, .write, []⟩)
    {r : Motor × Next × List MotorEvent} (hr : Streams s.driver.motor r) :
    Follows st w
      { s with
        driver := ⟨r.1, Function.update s.driver.threads 0 none⟩
        down := s.down ++ streamedWords r.2.2 } := by
  have hadvance : Follows st w
      { s with driver := ⟨r.1, Function.update s.driver.threads 0 none⟩ } := by
    refine hs.advance hr.word hr.armed .out (.inr hr.target) (.inl rfl) ?_
    simp only [Link.told, hthread, hr.state, Function.update_self,
      Function.update_of_ne (show (1 : ℕ) ≠ 0 by decide)]
    exact .refl _
  obtain ⟨w', hw', hidle⟩ := hadvance
  rcases hr.words with hwords | hwords
  · refine ⟨w', ?_, hidle⟩
    rw [hwords, List.append_nil]
    exact hw'
  · rw [hwords]
    exact ⟨_, hw'.send, hidle.acted, hidle.order, hidle.place⟩

/-- A transition of `switchState`. -/
theorem Tracks.transit (hs : s.Tracks st w) {state : InternalState}
    (hthread : s.driver.threads 1 =
      some ⟨.handleEnable, .stateTransit .operationEnable state, []⟩)
    (htarget : s.driver.motor.targetState = .operationEnable) (hstate : state ≠ .operationEnable) :
    ∃ cw next, setTransition s.driver.motor.controlWord state .operationEnable (some .unknown) =
        (true, cw, some next) ∧ next ≠ state ∧
      ∃ w', (enablingPath st w'.acted = state ∧ w'.order = w'.acted + 1) ∧ Tracks st w'
        { s with
          driver := ⟨{ s.driver.motor with controlWord := cw }, Function.update s.driver.threads 1
            (some ⟨.handleEnable, .stateWait .operationEnable state, []⟩)⟩ } := by
  have htold := hs.told
  simp only [Link.told, hthread, Thread.known, Code.known, List.cons_append,
    List.nil_append] at htold
  obtain ⟨v, rs, hreports, rfl, hrest⟩ := List.map_eq_cons_iff.mp htold.symm
  obtain ⟨cw, htransition, hne, hrealises⟩ := exists_realises hs.operative hs.left hstate
    s.driver.motor.controlWord
  refine ⟨cw, _, htransition, hne, _, ⟨rfl, rfl⟩,
    { hs with
      window := hs.window.act hreports
      told := ?_
      word := hrealises
      roles := hs.roles_update (.waiting _ htarget) (.inl rfl)
      alone := .inr (by simp [Thread.held, Code.held]) }⟩
  rw [hrest]
  simp [Link.told, Thread.known, Thread.held, Code.known, Code.held]

/-! ## Steps of the calls -/

/-- A thread goes on with the same states in its hands. -/
theorem Tracks.pass (hs : s.Tracks st w) {m : Motor} {i : ℕ} {x : Option Thread}
    (hheld : Thread.held x = Thread.held (s.driver.threads i))
    (hknown : Thread.known x = Thread.known (s.driver.threads i))
    (hword : m.controlWord = s.driver.motor.controlWord)
    (harmed : m.startFaultReset = s.driver.motor.startFaultReset)
    (hstate : m.state = s.driver.motor.state)
    (htarget : i = 1 ∨ m.targetState = s.driver.motor.targetState)
    (hrole : Role m.targetState i x) :
    Follows st w { s with driver := ⟨m, Function.update s.driver.threads i x⟩ } := by
  have hheld' : ∀ j, Thread.held (Function.update s.driver.threads i x j) =
      Thread.held (s.driver.threads j) := by
    intro j
    by_cases hj : j = i
    · subst hj
      simpa using hheld
    · rw [Function.update_of_ne hj]
  have hknown' : Thread.known (Function.update s.driver.threads i x 1) =
      Thread.known (s.driver.threads 1) := by
    by_cases hi : 1 = i
    · subst hi
      simpa using hknown
    · rw [Function.update_of_ne hi]
  refine hs.look rfl rfl (congrArg powerCommand hword) (harmed.trans hs.armed)
    (hs.roles_update hrole htarget) ?_ ?_
  · simp only [hheld']
    exact hs.alone
  · simp only [Link.told, hheld', hknown', hstate]
    exact .refl _

section Read
variable {i : ℕ} {call : Call} {frames : List Frame}

/-- A reader fetches the status word, which no other has in its hands. -/
theorem Tracks.fetch (hs : s.Tracks st w) (hi : i = 0 ∨ i = 1)
    (hthread : s.driver.threads i = some ⟨call, .readStatus, frames⟩)
    (hsolo : ∀ j, j ≠ i → Thread.held (s.driver.threads j) = [])
    (hrole : Role s.driver.motor.targetState i (some ⟨call, .readDecode s.cached, frames⟩)) :
    Follows st w
      { s with
        driver := ⟨{ s.driver.motor with statusWord := s.cached }, Function.update s.driver.threads
          i (some ⟨call, .readDecode s.cached, frames⟩)⟩ } := by
  refine hs.advance rfl hs.armed hrole (.inr rfl) (.inr hsolo) ?_
  rcases hi with rfl | rfl
  · have hother := hsolo 1 (by decide)
    simp only [Link.told, hthread, hother, Function.update_self,
      Function.update_of_ne (show (1 : ℕ) ≠ 0 by decide), List.append_assoc]
    refine .append_left _ (.cons _ ?_)
    simp only [Thread.held, Code.held, List.nil_append, List.cons_append]
    exact .take (.refl _)
  · have hother := hsolo 0 (by decide)
    simp only [Link.told, hthread, hother, Function.update_self,
      Function.update_of_ne (show (0 : ℕ) ≠ 1 by decide), List.append_assoc]
    refine .append_left _ (.cons _ ?_)
    simp only [Thread.held, Code.held, List.nil_append]
    exact .take (.refl _)

/-- A reader decodes the status word that it has fetched. -/
theorem Tracks.decode (hs : s.Tracks st w) (hi : i = 0 ∨ i = 1) {sw : Word}
    (hthread : s.driver.threads i = some ⟨call, .readDecode sw, frames⟩)
    (hrole : Role s.driver.motor.targetState i (some ⟨call, .readMode sw, frames⟩)) :
    Follows st w
      { s with
        driver := ⟨{ s.driver.motor with state := State402.read sw },
          Function.update s.driver.threads i (some ⟨call, .readMode sw, frames⟩)⟩ } := by
  refine hs.advance rfl hs.armed hrole (.inr rfl) (.inl rfl) ?_
  have halone := hs.alone
  rcases hi with rfl | rfl
  · have hother : Thread.held (s.driver.threads 1) = [] := by
      simpa [hthread, Thread.held, Code.held] using halone
    simp only [Link.told, hthread, hother, Function.update_self,
      Function.update_of_ne (show (1 : ℕ) ≠ 0 by decide), List.append_assoc]
    refine .append_left _ ?_
    simp only [Thread.held, Code.held, List.nil_append, List.cons_append]
    exact .skip _ (.refl _)
  · have hother : Thread.held (s.driver.threads 0) = [] := by
      simpa [hthread, Thread.held, Code.held] using halone
    simp only [Link.told, hthread, hother, Function.update_self,
      Function.update_of_ne (show (0 : ℕ) ≠ 1 by decide), List.append_assoc]
    refine .append_left _ ?_
    simp only [Thread.held, Code.held, List.nil_append, List.cons_append]
    exact .skip _ (.refl _)

end Read

section Switch
variable {code : Code}

/-- `switchState` looks at the state of the motor. -/
theorem Tracks.see (hs : s.Tracks st w) {code' : Code}
    (hthread : s.driver.threads 1 = some ⟨.handleEnable, code, []⟩)
    (hheld : code.held = []) (hknown : code.known = []) (hheld' : code'.held = [])
    (hknown' : code'.known = [s.driver.motor.state])
    (hrole : Role s.driver.motor.targetState 1 (some ⟨.handleEnable, code', []⟩)) :
    Follows st w
      { s with
        driver := ⟨s.driver.motor,
          Function.update s.driver.threads 1 (some ⟨.handleEnable, code', []⟩)⟩ } := by
  refine hs.advance rfl hs.armed hrole (.inr rfl) (.inl hheld') ?_
  simp only [Link.told, hthread, Thread.held, Thread.known, hheld, hknown, hheld', hknown',
    Function.update_self, Function.update_of_ne (show (0 : ℕ) ≠ 1 by decide), List.nil_append,
    List.cons_append]
  exact .take (.refl _)

/-- `handleEnable` returns. -/
theorem Tracks.leave (hs : s.Tracks st w)
    (hthread : s.driver.threads 1 = some ⟨.handleEnable, code, []⟩) (hheld : code.held = []) :
    Follows st w
      { s with driver := ⟨s.driver.motor, Function.update s.driver.threads 1 none⟩ } := by
  refine hs.advance rfl hs.armed .out (.inr rfl) (.inl rfl) ?_
  simp only [Link.told, hthread, Thread.held, Thread.known, hheld, Function.update_self,
    Function.update_of_ne (show (0 : ℕ) ≠ 1 by decide), List.nil_append, List.append_assoc]
  exact .drop _ (.refl _)

/-- The state that `switchState` finds to be its target is the state of the slave. -/
theorem Tracks.arrived (hs : s.Tracks st w)
    (hthread : s.driver.threads 1 =
      some ⟨.handleEnable, .stateCheck .operationEnable .operationEnable, []⟩) :
    s.slave.state = .operationEnable := by
  have htold := hs.told
  simp only [Link.told, hthread, Thread.known, Code.known, List.cons_append,
    List.nil_append] at htold
  obtain ⟨v, rs, hreports, hv, -⟩ := List.map_eq_cons_iff.mp htold.symm
  rw [hs.place]
  exact enablingPath_of_le hv (hs.window.le_place v (hreports ▸ List.mem_cons_self))

end Switch

end Tracks

/-! ## Steps of the link -/

/-- `switchState` is about to act. -/
def Acting (s : Link) : Prop :=
  ∃ state, s.driver.threads 1 =
    some ⟨.handleEnable, .stateTransit .operationEnable state, []⟩

/-- What a step of the driver leaves, and what it may report. -/
structure Kept (st : InternalState) (w : Window) (s : Link) (d : MotorSystem)
    (es : List MotorEvent) : Prop where
  tracks : ∃ w', Tracks st w' { s with driver := d, down := s.down ++ streamedWords es } ∧
    (w.Idle w' ∨ s.Acting)
  truthful : MotorEvent.returned .handleEnable true ∈ es → s.slave.state = .operationEnable

section Steps
variable {st : InternalState} {w : Window} {s : Link}

/-- A step that streams nothing and does not end `handleEnable` well. -/
theorem Kept.quiet {d : MotorSystem} {es : List MotorEvent}
    (h : Follows st w { s with driver := d }) (hwords : streamedWords es = [])
    (hes : MotorEvent.returned .handleEnable true ∉ es) : Kept st w s d es where
  tracks := by
    obtain ⟨w', htracks, hidle⟩ := h
    rw [hwords, List.append_nil]
    exact ⟨w', htracks, .inl hidle⟩
  truthful hmem := absurd hmem hes

/-- Streaming aside, a step that does not act. -/
theorem Kept.of_follows {d : MotorSystem} {es : List MotorEvent}
    (h : Follows st w { s with driver := d, down := s.down ++ streamedWords es })
    (hes : MotorEvent.returned .handleEnable true ∈ es → s.slave.state = .operationEnable) :
    Kept st w s d es where
  tracks := by
    obtain ⟨w', htracks, hidle⟩ := h
    exact ⟨w', htracks, .inl hidle⟩
  truthful := hes

/-- Where the calls of the link start. -/
theorem role_entry {h : List MotorEvent} {i : ℕ} {call : Call}
    (hok : Solo h s (.driver (.enter i call))) (m : Motor) (target : InternalState) :
    Role target i (some ⟨call, (call.entry m).1, (call.entry m).2⟩) ∧
      (call.entry m).1.held = [] ∧ (call.entry m).1.known = [] := by
  match i, hok with
  | 0, hcall =>
      obtain rfl : call = .pollTimerCallback := hcall
      exact ⟨.polling trivial, rfl, rfl⟩
  | 1, hcall =>
      obtain rfl : call = .handleEnable := hcall
      exact ⟨.reading trivial, rfl, rfl⟩
  | i + 2, hcall =>
      obtain ⟨val, rfl⟩ : ∃ val, call = .setTarget val := hcall
      exact ⟨.checkingTarget val, rfl, rfl⟩

/-- A thread enters its call. -/
theorem Tracks.enter (hs : s.Tracks st w) {h : List MotorEvent} {i : ℕ} {call : Call}
    {d : MotorSystem} {es : List MotorEvent} (hok : Solo h s (.driver (.enter i call)))
    (hstep : s.driver.step (.enter i call) = some (d, es)) : Kept st w s d es := by
  obtain ⟨hrole, hheld, hknown⟩ := role_entry hok s.driver.motor s.driver.motor.targetState
  simp only [MotorSystem.step] at hstep
  split at hstep
  · contradiction
  · next hnone =>
      obtain ⟨rfl, rfl⟩ := Prod.mk.inj (Option.some.inj hstep)
      refine .quiet (hs.pass ?_ ?_ rfl rfl rfl (.inr rfl) hrole) rfl (by simp)
      · rw [hnone]
        exact hheld
      · rw [hnone]
        exact hknown

theorem held_eq_nil {x : Option Thread} (h : ∀ t, x = some t → ∀ sw, t.code ≠ .readDecode sw) :
    Thread.held x = [] := by
  cases x with
  | none => rfl
  | some t =>
      have hcode := h t rfl
      rw [Thread.held]
      cases hc : t.code <;> first | rfl | exact absurd hc (hcode _)

/-- The threads that set targets hold no status word. -/
theorem held_of_role {target : InternalState} {j : ℕ} {x : Option Thread}
    (h : Role target j x) (hj : 2 ≤ j) : Thread.held x = [] := by
  cases h <;> first | omega | rfl

section Go
variable {i : ℕ} {env : Env} {m : Motor} {next : Next} {es : List MotorEvent}

/-- A step of `readState`, in the thread of the poll timer or in that of `handleEnable`. -/
theorem Tracks.read (hs : s.Tracks st w) {call : Call} {code after : Code} {frame : Frame}
    (hthread : s.driver.threads i = some ⟨call, code, [frame]⟩) (hi : i = 0 ∨ i = 1)
    (hcode : code.isRead)
    (hreading : ∀ code, code.isRead →
      Role s.driver.motor.targetState i (some ⟨call, code, [frame]⟩))
    (hunwind : unwind true [frame] = .inl (after, []))
    (hafter : Role s.driver.motor.targetState i (some ⟨call, after, []⟩))
    (hheld : after.held = []) (hknown : after.known = [])
    (hsolo : code = .readStatus → ∀ j < 2, ∀ t sw, s.driver.threads j = some t →
      t.code ≠ .readDecode sw)
    (hexec : s.driver.motor.exec { env with statusWord := s.cached } code = some (m, next, es)) :
    Kept st w s ⟨m, Function.update s.driver.threads i (Thread.after ⟨call, code, [frame]⟩ next).1⟩
      ((Thread.after ⟨call, code, [frame]⟩ next).2 ++ es) := by
  match code, hcode with
  | .readStatus, _ =>
      simp only [Motor.exec] at hexec
      split at hexec
      · obtain ⟨rfl, rfl, rfl⟩ := step_inj hexec
        refine .quiet (hs.fetch hi hthread ?_ (hreading _ trivial)) rfl (by simp [Thread.after])
        intro j _
        by_cases hj : j < 2
        · exact held_eq_nil fun t' ht' sw => hsolo rfl j hj t' sw ht'
        · exact held_of_role (hs.roles j) (by omega)
      · obtain ⟨rfl, rfl, rfl⟩ := step_inj hexec
        refine .quiet (hs.pass ?_ ?_ rfl rfl rfl (.inr rfl) .out) rfl (by simp [Thread.after])
        · rw [hthread]; rfl
        · rw [hthread]; rfl
  | .readDecode sw, _ =>
      obtain ⟨rfl, rfl, rfl⟩ := step_inj hexec
      exact .quiet (hs.decode hi hthread (hreading _ trivial)) rfl (by simp [Thread.after])
  | .readMode sw, _ =>
      simp only [Motor.exec] at hexec
      split at hexec
      · obtain ⟨rfl, rfl, rfl⟩ := step_inj hexec
        obtain ⟨modes, hmodes⟩ := readSelected_motor s.driver.motor
          (env.modeDisplay.signExtend 16) sw
        simp only [Thread.after, hunwind, hmodes]
        refine .quiet (hs.pass ?_ ?_ rfl rfl rfl (.inr rfl) hafter) rfl (by simp)
        · rw [hthread]; exact hheld
        · rw [hthread]; exact hknown
      · obtain ⟨rfl, rfl, rfl⟩ := step_inj hexec
        refine .quiet (hs.pass ?_ ?_ rfl rfl rfl (.inr rfl) .out) rfl (by simp [Thread.after])
        · rw [hthread]; rfl
        · rw [hthread]; rfl

/-- The read of `readState` in a step of a thread of the link. -/
theorem Tracks.go (hs : s.Tracks st w) {h : List MotorEvent} {t : Thread}
    (hok : Solo h s (.driver (.go i env))) (hthread : s.driver.threads i = some t)
    (hexec : s.driver.motor.exec { env with statusWord := s.cached } t.code =
      some (m, next, es)) :
    Kept st w s ⟨m, Function.update s.driver.threads i (t.after next).1⟩
      ((t.after next).2 ++ es) := by
  have hsolo : t.code = .readStatus → ∀ j < 2, ∀ t' sw, s.driver.threads j = some t' →
      t'.code ≠ .readDecode sw := hok t hthread
  have hrole := hs.roles i
  rw [hthread] at hrole
  cases hrole with
  | polling hcode =>
      exact hs.read hthread (.inl rfl) hcode (fun code hc => .polling hc) rfl .writing rfl rfl hsolo
        hexec
  | reading hcode =>
      exact hs.read hthread (.inr rfl) hcode (fun code hc => .reading hc) rfl .entering rfl rfl
        hsolo hexec
  | writing =>
      have hstreams := streams_handleWrite hs.armed { env with statusWord := s.cached }
      obtain ⟨rfl, rfl, rfl⟩ := step_inj hexec
      have htracks := hs.write hthread hstreams
      have hsilent := hstreams.silent .handleEnable true
      rcases hstreams.leaves with hnext | hnext
      · refine .of_follows ?_ fun hmem => absurd hmem ?_
        · simpa [hnext, Thread.after, unwind, streamedWords] using htracks
        · simpa [hnext, Thread.after, unwind] using hsilent
      · refine .of_follows ?_ fun hmem => absurd hmem ?_
        · simpa [hnext, Thread.after, streamedWords] using htracks
        · simpa [hnext, Thread.after] using hsilent
  | entering =>
      obtain ⟨rfl, rfl, rfl⟩ := step_inj hexec
      exact .quiet (hs.see hthread rfl rfl rfl rfl (.setting _)) rfl (by simp [Thread.after])
  | setting state =>
      obtain ⟨rfl, rfl, rfl⟩ := step_inj hexec
      refine .quiet (hs.pass ?_ ?_ rfl rfl rfl (.inl rfl) (.checking state rfl)) rfl
        (by simp [Thread.after])
      · rw [hthread]; rfl
      · rw [hthread]; rfl
  | checking state htarget =>
      simp only [Motor.exec, htarget] at hexec
      split at hexec
      · next hstate =>
          subst hstate
          obtain ⟨rfl, rfl, rfl⟩ := step_inj hexec
          refine .of_follows ?_ fun _ => hs.arrived hthread
          have hleave := hs.leave hthread rfl
          simpa [Thread.after, unwind, streamedWords] using hleave
      · next hstate =>
          obtain ⟨rfl, rfl, rfl⟩ := step_inj hexec
          refine .quiet (hs.pass ?_ ?_ rfl rfl rfl (.inr rfl) (.transiting state htarget hstate))
            rfl (by simp [Thread.after])
          · rw [hthread]; rfl
          · rw [hthread]; rfl
  | transiting state htarget hstate =>
      obtain ⟨cw, next', htransition, hne, htracks⟩ := hs.transit hthread htarget hstate
      have hnext : some next' ≠ some state := fun heq => hne (Option.some.inj heq)
      rw [← htarget] at htransition
      simp only [Motor.exec, htransition, if_neg hnext] at hexec
      obtain ⟨rfl, rfl, rfl⟩ := step_inj hexec
      obtain ⟨w', -, hw'⟩ := htracks
      refine ⟨⟨w', ?_, .inr ⟨state, hthread⟩⟩, fun hmem => absurd hmem (by simp [Thread.after])⟩
      simpa [streamedWords, Thread.after] using hw'
  | waiting state htarget =>
      simp only [Motor.exec] at hexec
      split at hexec
      · obtain ⟨rfl, rfl, rfl⟩ := step_inj hexec
        exact .quiet (hs.see hthread rfl rfl rfl rfl (.checking _ htarget)) rfl
          (by simp [Thread.after])
      · split at hexec
        · obtain ⟨rfl, rfl, rfl⟩ := step_inj hexec
          have hleave := hs.leave hthread rfl
          refine .quiet ?_ rfl (by simp [Thread.after, unwind])
          exact hleave
        · contradiction
  | checkingTarget val =>
      simp only [Motor.exec] at hexec
      split at hexec
      · obtain ⟨rfl, rfl, rfl⟩ := step_inj hexec
        refine .quiet (hs.pass ?_ ?_ rfl rfl rfl (.inr rfl) (.settingTarget val)) rfl
          (by simp [Thread.after])
        · rw [hthread]; rfl
        · rw [hthread]; rfl
      · obtain ⟨rfl, rfl, rfl⟩ := step_inj hexec
        refine .quiet (hs.pass ?_ ?_ rfl rfl rfl (.inr rfl) .out) rfl
          (by simp [Thread.after, unwind])
        · rw [hthread]; rfl
        · rw [hthread]; rfl
  | @settingTarget j val =>
      obtain ⟨rfl, rfl, rfl⟩ := step_inj hexec
      have hpass : ∀ modes, Follows st w
          { s with
            driver := ⟨{ s.driver.motor with modes := modes },
              Function.update s.driver.threads (j + 2) none⟩ } := by
        intro modes
        refine hs.pass ?_ ?_ rfl rfl rfl (.inr rfl) .out
        · rw [hthread]; rfl
        · rw [hthread]; rfl
      rcases setSelectedTarget_cases s.driver.motor val with ⟨id, mode, -, -, heq⟩ | heq
      · rw [heq]
        cases hok : (mode.setTarget val).2
        · exact .quiet (hpass _) rfl (by simp [Thread.after, unwind])
        · exact .quiet (hpass _) rfl (by simp [Thread.after, unwind])
      · rw [heq]
        exact .quiet (hpass _) rfl (by simp [Thread.after, unwind])

end Go

/-- A step of the driver. -/
theorem Tracks.driver (hs : s.Tracks st w) {h : List MotorEvent} {i : MotorStep} {d : MotorSystem}
    {es : List MotorEvent} (hok : Solo h s (.driver i))
    (hstep : s.driver.step (s.look i) = some (d, es)) : Kept st w s d es := by
  cases i with
  | enter i call => exact hs.enter hok hstep
  | go i env =>
      simp only [Link.look, MotorSystem.step] at hstep
      split at hstep
      · contradiction
      · next t hthread =>
          obtain ⟨⟨m, next, es'⟩, hexec, heq⟩ := Option.map_eq_some_iff.mp hstep
          obtain ⟨rfl, rfl⟩ := Prod.mk.inj heq
          exact hs.go hok hthread hexec

/-- **One step of the link.**  The slave stays or enters the next state of the path, the
window stays a window, and `handleEnable` succeeds on an enabled slave only. -/
theorem Tracks.step (hs : s.Tracks st w) {h : List MotorEvent} {i : LinkStep} {s' : Link}
    {es : List MotorEvent} (hok : Solo h s i) (hstep : s.step i = some (s', es)) :
    (∃ w', s'.Tracks st w' ∧ (w.Idle w' ∨ s.Acting)) ∧
      (s'.slave.state = s.slave.state ∨
        s'.slave.state = nextStateForEnabling s.slave.state) ∧
      (MotorEvent.returned .handleEnable true ∈ es → s.slave.state = .operationEnable) := by
  cases i with
  | driver i =>
      obtain ⟨⟨d, es'⟩, hdriver, heq⟩ := Option.map_eq_some_iff.mp hstep
      obtain ⟨rfl, rfl⟩ := Prod.mk.inj heq
      obtain ⟨htracks, htruthful⟩ := hs.driver hok hdriver
      exact ⟨htracks, .inl rfl, htruthful⟩
  | arrive =>
      simp only [Link.step] at hstep
      split at hstep
      · contradiction
      · next cw down hdown =>
          obtain ⟨rfl, rfl⟩ := Prod.mk.inj (Option.some.inj hstep)
          obtain ⟨hstate, htracks⟩ := hs.arrive hdown
          obtain ⟨w', htracks, hidle⟩ := htracks
          exact ⟨⟨w', htracks, .inl hidle⟩, hstate, by simp⟩
  | side i =>
      obtain ⟨rfl, rfl⟩ := Prod.mk.inj (Option.some.inj hstep)
      exact ⟨⟨w, hs.side i, .inl (.refl w)⟩,
        .inl (MockSlave.state_handle_of_isSide s.slave i.2), by simp⟩
  | publish =>
      obtain ⟨rfl, rfl⟩ := Prod.mk.inj (Option.some.inj hstep)
      exact ⟨⟨_, hs.publish, .inl ⟨rfl, rfl, le_rfl⟩⟩, .inl rfl, by simp⟩
  | receive =>
      simp only [Link.step] at hstep
      split at hstep
      · contradiction
      · next sw up hup =>
          obtain ⟨rfl, rfl⟩ := Prod.mk.inj (Option.some.inj hstep)
          obtain ⟨w', htracks, hidle⟩ := hs.receive hup
          exact ⟨⟨w', htracks, .inl hidle⟩, .inl rfl, by simp⟩

/-- What the driver takes for enabled is enabled. -/
theorem Tracks.enabled (hs : s.Tracks st w)
    (hstate : s.driver.motor.state = .operationEnable) : s.slave.state = .operationEnable := by
  have hmem : InternalState.operationEnable ∈ s.told := by
    rw [← hstate]
    simp [Link.told]
  rw [hs.told] at hmem
  obtain ⟨v, hv, hpath⟩ := List.mem_map.mp hmem
  rw [hs.place]
  exact enablingPath_of_le hpath (hs.window.le_place v hv)

end Steps

/-! ## Runs -/

section Runs
variable {h : List MotorEvent} {s : Link}

/-- **The window is kept along every run.** -/
theorem tracks_of_reach (hr : Reach system Solo h s) :
    (∃ st w, s.Tracks st w) ∧
      (MotorEvent.returned .handleEnable true ∈ h → s.slave.state = .operationEnable) := by
  induction hr with
  | init hs => exact ⟨⟨_, _, Settled.tracks hs⟩, by simp⟩
  | @step h s s' i es hr hok hstep ih =>
      obtain ⟨⟨st, w, hs⟩, htruthful⟩ := ih
      obtain ⟨⟨w', htracks, -⟩, hforward, hreturned⟩ := hs.step hok hstep
      refine ⟨⟨st, w', htracks⟩, ?_⟩
      intro hmem
      have hstate : s.slave.state = .operationEnable := by
        rcases List.mem_append.mp hmem with hmem | hmem
        · exact hreturned hmem
        · exact htruthful hmem
      rcases hforward with hforward | hforward
      · rw [hforward, hstate]
      · rw [hforward, hstate]
        rfl

/-- **Enabling over a link with delays is safe.**  However long control words and status
words are on their way, and however the threads interleave, the slave never leaves the
enabling path backwards, it is enabled whenever the driver takes it to be, and from the
moment that `handleEnable` has returned true. -/
theorem enabling_is_safe (hr : Reach system Solo h s) :
    (∀ i s' es, Solo h s i → system.step s i = some (s', es) →
        s'.slave.state = s.slave.state ∨
          s'.slave.state = nextStateForEnabling s.slave.state) ∧
      (s.driver.motor.state = .operationEnable → s.slave.state = .operationEnable) ∧
      (MotorEvent.returned .handleEnable true ∈ h → s.slave.state = .operationEnable) := by
  obtain ⟨⟨st, w, hs⟩, htruthful⟩ := tracks_of_reach hr
  refine ⟨?_, hs.enabled, htruthful⟩
  intro i s' es hok hstep
  exact (hs.step hok hstep).2.1

end Runs

/-- A link at rest in `switchedOn`. -/
def switchedOn : Link where
  driver := MotorSystem.zeroed 0x07 [] |> fun d =>
    { d with motor := { d.motor with state := .switchedOn } }
  slave := { MockSlave.constructed with
    state := .switchedOn, statusWord := 0x23, statusObject := 0x23, controlWord := 0x07 }
  down := []
  up := []
  cached := 0x23

/-- `handleEnable` up to its wait, a poll cycle, the way of the control word and of the
status word, another poll cycle, and the end of `handleEnable`. -/
def enableOnce : List LinkStep :=
  let env : Env := .answering 0 0 0
  let go (i n : ℕ) : List LinkStep := List.replicate n (.driver (.go i env))
  let poll : List LinkStep := .driver (.enter 0 .pollTimerCallback) :: go 0 4
  .driver (.enter 1 .handleEnable) :: go 1 7 ++ poll ++ [.arrive, .publish, .receive] ++ poll ++
    go 1 2

theorem settled_switchedOn : switchedOn.Settled where
  threads := rfl
  armed := rfl
  down := rfl
  up := rfl
  slave := ⟨show State402.read _ = _ by decide, by decide⟩
  left := by decide
  object := by decide
  cached := by decide
  state := rfl
  word := by decide

/-- `Solo`, where only the threads 0 and 1 are used. -/
def soloCheck (_ : List MotorEvent) (s : Link) : LinkStep → Bool
  | .driver (.enter 0 call) => decide (call = .pollTimerCallback)
  | .driver (.enter 1 call) => decide (call = .handleEnable)
  | .driver (.enter _ _) => false
  | .driver (.go i _) =>
      (s.driver.threads i).all fun t => !decide (t.code = .readStatus) ||
        (Thread.held (s.driver.threads 0)).isEmpty && (Thread.held (s.driver.threads 1)).isEmpty
  | _ => true

theorem solo_of_soloCheck (h : List MotorEvent) (s : Link) (i : LinkStep)
    (hcheck : soloCheck h s i = true) : Solo h s i := by
  match i with
  | .driver (.enter 0 call) =>
      have hcall : call = .pollTimerCallback := of_decide_eq_true hcheck
      exact hcall
  | .driver (.enter 1 call) =>
      have hcall : call = .handleEnable := of_decide_eq_true hcheck
      exact hcall
  | .driver (.go i env) =>
      intro t hthread hcode j hj t' sw hother hdecode
      have hheld : Thread.held (s.driver.threads 0) = [] ∧
          Thread.held (s.driver.threads 1) = [] := by
        simpa [soloCheck, hthread, hcode] using hcheck
      obtain rfl | rfl : j = 0 ∨ j = 1 := by omega
      · simp [hother, Thread.held, hdecode, Code.held] at hheld
      · simp [hother, Thread.held, hdecode, Code.held] at hheld
  | .arrive | .side _ | .publish | .receive => trivial

theorem enabling_is_safe_switchedOn : ∃ h s, Reach system Solo h s ∧
    MotorEvent.returned .handleEnable true ∈ h ∧ s.slave.state = .operationEnable := by
  have hrun : ((system.runIf soloCheck enableOnce [] switchedOn).any fun p =>
      decide (MotorEvent.returned .handleEnable true ∈ p.1)) = true := by decide
  obtain ⟨h, s, hr, hP⟩ := System.exists_reach_runIf system (.init settled_switchedOn)
    solo_of_soloCheck hrun
  have hmem : MotorEvent.returned .handleEnable true ∈ h := of_decide_eq_true hP
  exact ⟨h, s, hr, hmem, (enabling_is_safe hr).2.2 hmem⟩

end Link
end RosCanopen.Cia402
