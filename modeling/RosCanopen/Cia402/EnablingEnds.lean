import RosCanopen.Cia402.Enabling
import RosCanopen.Lib.Fairness
import Mathlib.Data.List.GetD

/-!
# Enabling comes to an end

The link of the driver and the fake slave again, in runs that go on forever.  While
`handleEnable` is under way the poll timer fires, the threads go on, and what is sent
arrives; how long each takes is not bounded, and the threads that set targets may do as many
steps as they like in between.  No access of the driver throws, and no wait of `switchState`
runs into its timeout.  Then every call of `handleEnable` returns, it returns true, and the
slave is enabled when it does.

While `switchState` waits, the new state travels once round the link: `handleWrite` streams the
control word, it arrives, the slave publishes, the status word arrives, a poll fetches and
decodes it.  Each leg has a distance that every thread keeps and one of them shortens.

## Main definitions

* `Link.Smooth`, `Link.FairEnabling` — the runs.
* `View`, `Moves` — what `switchState` waits for, and what a step does to it.
* `Link.Waits`, `Link.Heads` — `switchState` waits; it, or the reading before it, goes on.
-/

namespace RosCanopen.Cia402

open Lib

/-- The step is one of the thread. -/
def LinkStep.OfThread (i : ℕ) : LinkStep → Prop
  | .driver (.enter j _) => j = i
  | .driver (.go j _) => j = i
  | _ => False

namespace Link

/-- As `Solo`; besides, the driver throws nothing and no wait times out. -/
def Smooth : Guard Link LinkStep MotorEvent := fun h s i =>
  Solo h s i ∧
    match i with
    | .driver (.go _ env) => env.driverOk = true ∧ env.streamOk = true ∧ env.timedOut = false
    | _ => True

/-- `handleEnable` is under way. -/
def Enabling (s : Link) : Prop := s.driver.threads 1 ≠ none

/-- `switchState` waits for a state other than the one that the motor has. -/
def Blocked (s : Link) : Prop :=
  ∃ t target, s.driver.threads 1 = some t ∧ t.code = .stateWait target s.driver.motor.state

/-- While `handleEnable` is under way the polls go on, `handleEnable` goes on unless it is
blocked, what is on its way arrives, and the slave keeps sending its status object. -/
structure FairEnabling (r : Run system Smooth) : Prop where
  poll : r.Fair (·.OfThread 0) Enabling
  enable : r.Fair (·.OfThread 1) fun s => s.Enabling ∧ ¬ s.Blocked
  arrive : r.Fair (· = .arrive) fun s => s.Enabling ∧ s.down ≠ []
  publish : r.Fair (· = .publish) Enabling
  receive : r.Fair (· = .receive) fun s => s.Enabling ∧ s.up ≠ []

end Link

/-! ## What a step does -/

/-- What a thread that waits for the slave's next state depends on. -/
structure View where
  /-- Where the poll is. -/
  poll : Option Code
  /-- The state of the motor. -/
  state : InternalState
  cached : InternalState
  up : List InternalState
  /-- The control word of the motor. -/
  word : Word
  down : List Word
  /-- The state of the slave. -/
  slave : InternalState

namespace View

/-- The states on their way to `switchState`, the oldest first. -/
def told (v : View) : List InternalState :=
  v.state :: ((match v.poll with
    | some code => code.held
    | none => []) ++ v.cached :: v.up)

end View

/-- What a step of a thread other than that of `handleEnable` does to it. -/
inductive Moves (v : View) : LinkStep → View → Prop
  | begin (call : Call) (h : v.poll = none) :
      Moves v (.driver (.enter 0 call)) { v with poll := some .readStatus }
  | fetch (env : Env) {sw : Word} (h : v.poll = some .readStatus)
      (hsw : State402.read sw = v.cached) :
      Moves v (.driver (.go 0 env)) { v with poll := some (.readDecode sw) }
  | decode (env : Env) {sw : Word} (h : v.poll = some (.readDecode sw)) :
      Moves v (.driver (.go 0 env))
        { v with poll := some (.readMode sw), state := State402.read sw }
  | display (env : Env) {sw : Word} (h : v.poll = some (.readMode sw)) :
      Moves v (.driver (.go 0 env)) { v with poll := some .write }
  | stream (env : Env) {cw : Word} {words : List Word} (h : v.poll = some .write)
      (hcw : powerCommand cw = powerCommand v.word)
      (hwords : v.state ≠ .operationEnable → words = [cw]) :
      Moves v (.driver (.go 0 env))
        { v with poll := none, word := cw, down := v.down ++ words }
  | arrive {cw : Word} {down : List Word} (h : v.down = cw :: down) :
      Moves v .arrive { v with slave := react v.slave (powerCommand cw), down := down }
  | publish : Moves v .publish { v with up := v.up ++ [v.slave] }
  | receive {a : InternalState} {up : List InternalState} (h : v.up = a :: up) :
      Moves v .receive { v with cached := a, up := up }
  | other {i : LinkStep} (hi : ¬ i.OfThread 0) (harrive : i ≠ .arrive) (hpublish : i ≠ .publish)
      (hreceive : i ≠ .receive) : Moves v i v

namespace Link

/-- The view of a link. -/
def view (s : Link) : View where
  poll := (s.driver.threads 0).map Thread.code
  state := s.driver.motor.state
  cached := State402.read s.cached
  up := s.up.map State402.read
  word := s.driver.motor.controlWord
  down := s.down
  slave := s.slave.state

section Steps
variable {st : InternalState} {w : Window} {s s' : Link} {h : List MotorEvent} {i : ℕ} {env : Env}
  {es : List MotorEvent}

/-- A step inside a call. -/
theorem step_go (hstep : s.step (.driver (.go i env)) = some (s', es)) :
    ∃ t m next es', s.driver.threads i = some t ∧
      s.driver.motor.exec { env with statusWord := s.cached } t.code = some (m, next, es') ∧
      es = (t.after next).2 ++ es' ∧
      s' = { s with
        driver := ⟨m, Function.update s.driver.threads i (t.after next).1⟩
        down := s.down ++ streamedWords es } := by
  obtain ⟨⟨d, es'⟩, hdriver, heq⟩ := Option.map_eq_some_iff.mp hstep
  obtain ⟨rfl, rfl⟩ := Prod.mk.inj heq
  simp only [look, MotorSystem.step] at hdriver
  split at hdriver
  · contradiction
  · next t hthread =>
      obtain ⟨⟨m, next, es''⟩, hexec, heq⟩ := Option.map_eq_some_iff.mp hdriver
      obtain ⟨rfl, rfl⟩ := Prod.mk.inj heq
      exact ⟨t, m, next, es'', hthread, hexec, rfl, rfl⟩

/-- A step into a call. -/
theorem step_enter {call : Call} (hstep : s.step (.driver (.enter i call)) = some (s', es)) :
    s.driver.threads i = none ∧ es = [.called call] ∧
      s' = { s with
        driver := ⟨s.driver.motor, Function.update s.driver.threads i
          (some ⟨call, (call.entry s.driver.motor).1, (call.entry s.driver.motor).2⟩)⟩ } := by
  obtain ⟨⟨d, es'⟩, hdriver, heq⟩ := Option.map_eq_some_iff.mp hstep
  obtain ⟨rfl, rfl⟩ := Prod.mk.inj heq
  simp only [look, MotorSystem.step] at hdriver
  split at hdriver
  · contradiction
  · next hnone =>
      obtain ⟨rfl, rfl⟩ := Prod.mk.inj (Option.some.inj hdriver)
      refine ⟨hnone, rfl, ?_⟩
      simp [streamedWords]

/-- A thread that sets a target changes nothing that is looked at here. -/
theorem exec_of_role {target : InternalState} {t : Thread} {m m' : Motor} {next : Next}
    (hi : 2 ≤ i) (hrole : Role target i (some t))
    (hexec : m.exec env t.code = some (m', next, es)) :
    m'.state = m.state ∧ m'.controlWord = m.controlWord ∧ streamedWords es = [] := by
  cases hrole with
  | polling | writing | reading | entering | setting | checking | transiting | waiting => omega
  | checkingTarget val =>
      simp only [Motor.exec] at hexec
      split at hexec <;> obtain ⟨rfl, rfl, rfl⟩ := step_inj hexec <;> exact ⟨rfl, rfl, rfl⟩
  | settingTarget val =>
      obtain ⟨rfl, rfl, rfl⟩ := step_inj hexec
      rcases setSelectedTarget_cases m val with ⟨id, mode, -, -, heq⟩ | heq
      · rw [heq]
        refine ⟨rfl, rfl, ?_⟩
        cases (mode.setTarget val).2 <;> rfl
      · rw [heq]
        exact ⟨rfl, rfl, rfl⟩

/-- Away from the enabled state a cycle of writing streams the control word. -/
theorem streamedWords_handleWrite {m : Motor} (hstate : m.state ≠ .operationEnable)
    (hreset : m.startFaultReset = false) (henv : env.streamOk = true) :
    streamedWords (m.handleWrite env).2.2 = [(m.handleWrite env).1.controlWord] := by
  rw [Motor.handleWrite, if_neg hstate, henv]
  simp [Motor.stream, Motor.streamed, hreset, streamedWords]

/-- A step of the poll. -/
theorem Tracks.moves_poll (hs : s.Tracks st w) (hok : Smooth h s (.driver (.go 0 env)))
    (hstep : s.step (.driver (.go 0 env)) = some (s', es)) :
    Moves s.view (.driver (.go 0 env)) s'.view := by
  obtain ⟨-, hdriver, hstream, -⟩ := hok
  obtain ⟨t, m, next, es', hthread, hexec, rfl, rfl⟩ := step_go hstep
  have hrole := hs.roles 0
  rw [hthread] at hrole
  have hpoll : s.view.poll = some t.code := by simp [view, hthread]
  cases hrole with
  | @polling code hcode =>
      match code, hcode with
      | .readStatus, _ =>
          simp only [Motor.exec, hdriver, if_true] at hexec
          obtain ⟨rfl, rfl, rfl⟩ := step_inj hexec
          have hview : Moves s.view _ { s.view with poll := some (.readDecode s.cached) } :=
            .fetch env hpoll rfl
          simpa [view, Thread.after, streamedWords] using hview
      | .readDecode sw, _ =>
          obtain ⟨rfl, rfl, rfl⟩ := step_inj hexec
          simpa [view, Thread.after, streamedWords] using Moves.decode env hpoll
      | .readMode sw, _ =>
          simp only [Motor.exec, hdriver, if_true] at hexec
          obtain ⟨rfl, rfl, rfl⟩ := step_inj hexec
          obtain ⟨modes, hmodes⟩ := readSelected_motor s.driver.motor
            (env.modeDisplay.signExtend 16) sw
          simpa [view, Thread.after, unwind, streamedWords, hmodes] using Moves.display env hpoll
  | writing =>
      have hstreams := streams_handleWrite hs.armed { env with statusWord := s.cached }
      obtain ⟨rfl, rfl, rfl⟩ := step_inj hexec
      have hview := Moves.stream env hpoll hstreams.word fun hstate =>
        streamedWords_handleWrite hstate hs.armed hstream
      rcases hstreams.leaves with hnext | hnext
      · simpa [view, hnext, Thread.after, unwind, streamedWords, hstreams.state] using hview
      · simpa [view, hnext, Thread.after, streamedWords, hstreams.state] using hview

/-- A step of a thread that sets targets. -/
theorem Tracks.view_setter (hs : s.Tracks st w) (hi : 2 ≤ i)
    (hstep : s.step (.driver (.go i env)) = some (s', es)) : s'.view = s.view := by
  obtain ⟨t, m, next, es', hthread, hexec, rfl, rfl⟩ := step_go hstep
  have hrole := hs.roles i
  rw [hthread] at hrole
  obtain ⟨hstate, hword, hwords⟩ := exec_of_role hi hrole hexec
  have hafter : streamedWords (t.after next).2 = [] := by
    cases next <;> simp only [Thread.after] <;> try rfl
    split <;> rfl
  have hall : streamedWords ((t.after next).2 ++ es') = [] := by
    rw [streamedWords, List.filterMap_append]
    exact (congrArg₂ _ hafter hwords).trans (List.append_nil _)
  have hpoll : Function.update s.driver.threads i (t.after next).1 0 = s.driver.threads 0 :=
    Function.update_of_ne (by omega) _ _
  simp [view, hstate, hword, hall, hpoll]

/-- **What a step does**, unless it is one of the thread that enables. -/
theorem Tracks.moves (hs : s.Tracks st w) {i : LinkStep} (hok : Smooth h s i)
    (hi : ¬ i.OfThread 1) (hstep : s.step i = some (s', es)) :
    Moves s.view i s'.view ∧ s'.driver.threads 1 = s.driver.threads 1 := by
  cases i with
  | driver i =>
      cases i with
      | enter i call =>
          have hne : i ≠ 1 := hi
          obtain ⟨hnone, rfl, rfl⟩ := step_enter hstep
          refine ⟨?_, Function.update_of_ne (Ne.symm hne) _ _⟩
          by_cases h0 : i = 0
          · subst h0
            obtain rfl : call = .pollTimerCallback := hok.1
            have hview : Moves s.view _ _ := .begin .pollTimerCallback (by simp [view, hnone])
            simpa [view, Call.entry] using hview
          · have hpoll : ∀ x, Function.update s.driver.threads i x 0 = s.driver.threads 0 :=
              fun x => Function.update_of_ne (Ne.symm h0) x s.driver.threads
            have hview : Moves s.view (.driver (.enter i call)) s.view :=
              .other h0 (by simp) (by simp) (by simp)
            simpa [view, hpoll] using hview
      | go i env =>
          have hne : i ≠ 1 := hi
          refine ⟨?_, ?_⟩
          · by_cases h0 : i = 0
            · subst h0
              exact hs.moves_poll hok hstep
            · rw [hs.view_setter (by omega) hstep]
              exact .other h0 (by simp) (by simp) (by simp)
          · obtain ⟨t, m, next, es', -, -, rfl, rfl⟩ := step_go hstep
            exact Function.update_of_ne (Ne.symm hne) _ _
  | arrive =>
      simp only [Link.step] at hstep
      split at hstep
      · contradiction
      · next cw down hdown =>
          obtain ⟨rfl, rfl⟩ := Prod.mk.inj (Option.some.inj hstep)
          refine ⟨?_, rfl⟩
          have hview := @Moves.arrive s.view cw down hdown
          simpa [view, MockSlave.state_onWriteControlWord] using hview
  | side i =>
      obtain ⟨rfl, rfl⟩ := Prod.mk.inj (Option.some.inj hstep)
      refine ⟨?_, rfl⟩
      have hview : Moves s.view (.side i) s.view :=
        .other (by exact id) (by simp) (by simp) (by simp)
      simpa [view, MockSlave.state_handle_of_isSide s.slave i.2] using hview
  | publish =>
      obtain ⟨rfl, rfl⟩ := Prod.mk.inj (Option.some.inj hstep)
      refine ⟨?_, rfl⟩
      have hview : Moves s.view _ _ := .publish
      simpa [view, hs.object] using hview
  | receive =>
      simp only [Link.step] at hstep
      split at hstep
      · contradiction
      · next sw up hup =>
          obtain ⟨rfl, rfl⟩ := Prod.mk.inj (Option.some.inj hstep)
          refine ⟨?_, rfl⟩
          have hview := @Moves.receive s.view (State402.read sw) (up.map State402.read)
            (by simp [view, hup])
          simpa [view] using hview

end Steps
end Link

/-! ## Waiting for the next state -/

/-- How many states the enabling path still has. -/
def toGo : InternalState → ℕ
  | .operationEnable => 0
  | .switchedOn | .quickStopActive => 1
  | .readyToSwitchOn => 2
  | .switchOnDisabled => 3
  | _ => 4

theorem toGo_le (x : InternalState) : toGo x ≤ 4 := by
  cases x <;> decide

/-- The next state is another one, and closer. -/
theorem toGo_next {x : InternalState} (hx : Operative x) (hleft : x ≠ .notReadyToSwitchOn)
    (hne : x ≠ .operationEnable) : toGo (nextStateForEnabling x) < toGo x := by
  revert hx hleft hne
  cases x <;> decide

/-- Everything is in `x` or in the state after it; what has seen the latter is followed by
what has seen it too. -/
structure View.Between (x : InternalState) (v : View) : Prop where
  closer : toGo (nextStateForEnabling x) < toGo x
  slave : v.slave = x ∨ v.slave = nextStateForEnabling x
  told : ∀ a ∈ v.told, a = x ∨ a = nextStateForEnabling x
  sorted : v.told.Pairwise fun a b => a = nextStateForEnabling x → b = nextStateForEnabling x
  fresh : nextStateForEnabling x ∈ v.told → v.slave = nextStateForEnabling x
  word : react x (powerCommand v.word) = nextStateForEnabling x

namespace Link

/-- `switchState` has ordered the state after `x` and waits until it sees it. -/
structure Waits (x : InternalState) (s : Link) : Prop where
  tracks : ∃ st w, s.Tracks st w ∧ enablingPath st w.acted = x ∧ w.order = w.acted + 1
  thread : s.driver.threads 1 = some ⟨.handleEnable, .stateWait .operationEnable x, []⟩
  ne : x ≠ .operationEnable

section Waits
variable {x : InternalState} {s s' : Link} {h : List MotorEvent} {es : List MotorEvent}

theorem Tracks.view_told {st : InternalState} {w : Window} (hs : s.Tracks st w)
    (hthread : s.driver.threads 1 = some ⟨.handleEnable, .stateWait .operationEnable x, []⟩) :
    s.view.told = w.reports.map (enablingPath st) := by
  rw [← hs.told, Link.told, hthread, View.told]
  cases hpoll : s.driver.threads 0 <;>
    simp [view, hpoll, Thread.known, Thread.held, Code.known, Code.held]

theorem Waits.between (hs : s.Waits x) : s.view.Between x := by
  obtain ⟨st, w, htracks, rfl, horder⟩ := hs.tracks
  obtain ⟨hoperative, hleft⟩ := operative_enablingPath htracks.operative htracks.left w.acted
  have hcloser := toGo_next hoperative hleft hs.ne
  have hnext := @enablingPath_succ st w.acted
  have htold := htracks.view_told hs.thread
  have hplace := htracks.window.place_le_order
  have hacted := htracks.window.acted_le_place
  have hreport : ∀ r ∈ w.reports, r = w.acted ∨ (r = w.acted + 1 ∧ w.place = w.acted + 1) := by
    intro r hr
    have hlow := htracks.window.acted_le r hr
    have hhigh := htracks.window.le_place r hr
    omega
  have hseen : ∀ r ∈ w.reports, enablingPath st r = nextStateForEnabling (enablingPath st w.acted) →
      r = w.acted + 1 ∧ w.place = w.acted + 1 := by
    intro r hr heq
    rcases hreport r hr with rfl | hr
    · rw [← heq] at hcloser
      exact absurd hcloser (lt_irrefl _)
    · exact hr
  refine
    { closer := hcloser
      slave := ?_
      told := ?_
      sorted := ?_
      fresh := ?_
      word := ?_ }
  · rw [← hnext]
    have hslave : s.view.slave = enablingPath st w.place := htracks.place
    obtain hp | hp : w.place = w.acted ∨ w.place = w.acted + 1 := by omega
    · exact .inl (hslave.trans (by rw [hp]))
    · exact .inr (hslave.trans (by rw [hp]))
  · intro a ha
    rw [htold] at ha
    obtain ⟨r, hr, rfl⟩ := List.mem_map.mp ha
    rcases hreport r hr with rfl | ⟨rfl, -⟩
    · exact .inl rfl
    · exact .inr hnext
  · rw [htold, List.pairwise_map]
    refine htracks.window.reports.imp_of_mem ?_
    intro a b ha hb hle heq
    obtain ⟨rfl, -⟩ := hseen a ha heq
    rcases hreport b hb with rfl | ⟨rfl, -⟩
    · omega
    · exact heq
  · intro hmem
    rw [htold] at hmem
    obtain ⟨r, hr, heq⟩ := List.mem_map.mp hmem
    obtain ⟨-, hp⟩ := hseen r hr heq
    rw [← hnext, ← hp]
    exact htracks.place
  · rw [← hnext]
    exact (horder ▸ htracks.word) w.acted (by omega) (by omega)

/-- While nobody acts the waiting goes on, and the slave does not go back. -/
theorem Waits.keep (hs : s.Waits x) {i : LinkStep} (hok : Smooth h s i) (hi : ¬ i.OfThread 1)
    (hstep : s.step i = some (s', es)) :
    s'.Waits x ∧ Moves s.view i s'.view ∧
      (s.view.slave = nextStateForEnabling x → s'.view.slave = nextStateForEnabling x) := by
  obtain ⟨st, w, htracks, hacted, horder⟩ := hs.tracks
  obtain ⟨⟨w', htracks', hidle⟩, -, -⟩ := htracks.step hok.1 hstep
  obtain ⟨hmoves, hthread⟩ := htracks.moves hok hi hstep
  have hidle : w.Idle w' := by
    rcases hidle with hidle | ⟨state, hacting⟩
    · exact hidle
    · rw [hs.thread] at hacting
      simp at hacting
  have hwaits : s'.Waits x :=
    { tracks := ⟨st, w', htracks', by rw [hidle.acted, hacted], by
        rw [hidle.order, hidle.acted, horder]⟩
      thread := hthread.trans hs.thread
      ne := hs.ne }
  refine ⟨hwaits, hmoves, ?_⟩
  intro hslave
  have hcloser := hs.between.closer
  have hnext : enablingPath st (w.acted + 1) = nextStateForEnabling x := by
    rw [enablingPath_succ, hacted]
  have hplace : w.place = w.acted + 1 := by
    have hlow := htracks.window.acted_le_place
    have hhigh := htracks.window.place_le_order
    by_cases hp : w.place = w.acted
    · have heq : s.view.slave = x := htracks.place.trans (by rw [hp, hacted])
      rw [← hslave, heq] at hcloser
      exact absurd hcloser (lt_irrefl _)
    · omega
  have hplace' : w'.place = w.acted + 1 := by
    have hlow := hidle.place
    have hhigh := htracks'.window.place_le_order
    have hsame := hidle.order
    omega
  rw [← hnext, ← hplace']
  exact htracks'.place

end Waits

/-! ## The thread that enables -/

end Link

/-- How many states the thread has to go at most. -/
def Code.due : Code → ℕ
  | .stateSet _ x | .stateCheck _ x | .stateTransit _ x => toGo x
  | _ => 5

/-- How many steps the thread takes before it waits. -/
def Code.legs : Code → ℕ
  | .readStatus => 7
  | .readDecode _ => 6
  | .readMode _ => 5
  | .stateEnter _ => 4
  | .stateSet _ _ => 3
  | .stateCheck _ _ => 2
  | .stateTransit _ _ => 1
  | _ => 0

namespace Link

/-- `handleEnable` goes on by itself, with `d` states to go at most. -/
structure Heads (d : ℕ) (s : Link) : Prop where
  tracks : ∃ st w, s.Tracks st w
  thread : ∃ t, s.driver.threads 1 = some t ∧ t.code.due = d ∧ 0 < t.code.legs

/-- How many steps `handleEnable` takes before it waits. -/
def legs (s : Link) : ℕ :=
  match s.driver.threads 1 with
  | some t => t.code.legs
  | none => 0

section Own
variable {st : InternalState} {w : Window} {x : InternalState} {s s' : Link}
  {h : List MotorEvent} {es : List MotorEvent} {env : Env}

/-- The thread has come closer to its wait. -/
theorem heads_of_legs {t t' : Thread} (htracks : ∃ st w, s'.Tracks st w)
    (hthread : s.driver.threads 1 = some t) (hthread' : s'.driver.threads 1 = some t')
    (hdue : t'.code.due = t.code.due) (hpos : 0 < t'.code.legs)
    (hless : t'.code.legs < t.code.legs) : s'.Heads t.code.due ∧ s'.legs < s.legs := by
  refine ⟨⟨htracks, t', hthread', hdue, hpos⟩, ?_⟩
  rw [legs, legs, hthread, hthread']
  exact hless

/-- **What `handleEnable` does when it goes on.**  It returns, knows a later state, comes
closer to its wait, or waits for the state after the one that it knows. -/
theorem Tracks.onward (hs : s.Tracks st w) (hok : Smooth h s (.driver (.go 1 env)))
    (hstep : s.step (.driver (.go 1 env)) = some (s', es)) {t : Thread}
    (hthread : s.driver.threads 1 = some t) (hlegs : 0 < t.code.legs) :
    MotorEvent.returned .handleEnable true ∈ es ∨ (∃ e, e < t.code.due ∧ s'.Heads e) ∨
      (s'.Heads t.code.due ∧ s'.legs < s.legs) ∨ ∃ x, toGo x = t.code.due ∧ s'.Waits x := by
  obtain ⟨⟨w', htracks, -⟩, -, -⟩ := hs.step hok.1 hstep
  obtain ⟨-, hdriver, -, -⟩ := hok
  obtain ⟨t, m, next, es', hthread', hexec, rfl, rfl⟩ := step_go hstep
  obtain rfl := Option.some.inj (hthread.symm.trans hthread')
  have hnear : ∀ t', (t.after next).1 = some t' → t'.code.due = t.code.due →
      0 < t'.code.legs → t'.code.legs < t.code.legs → _ ∧ _ := fun t' hafter =>
    heads_of_legs ⟨st, w', htracks⟩ hthread (by simp [hafter])
  have hrole := hs.roles 1
  rw [hthread] at hrole
  cases hrole with
  | @reading code hcode =>
      match code, hcode with
      | .readStatus, _ =>
          simp only [Motor.exec, hdriver, if_true] at hexec
          obtain ⟨rfl, rfl, rfl⟩ := step_inj hexec
          exact .inr (.inr (.inl (hnear _ rfl rfl (Nat.succ_pos _) (Nat.lt_succ_self _))))
      | .readDecode sw, _ =>
          obtain ⟨rfl, rfl, rfl⟩ := step_inj hexec
          exact .inr (.inr (.inl (hnear _ rfl rfl (Nat.succ_pos _) (Nat.lt_succ_self _))))
      | .readMode sw, _ =>
          simp only [Motor.exec, hdriver, if_true] at hexec
          obtain ⟨rfl, rfl, rfl⟩ := step_inj hexec
          exact .inr (.inr (.inl (hnear _ rfl rfl (Nat.succ_pos _) (Nat.lt_succ_self _))))
  | entering =>
      obtain ⟨rfl, rfl, rfl⟩ := step_inj hexec
      have hless := toGo_le s.driver.motor.state
      exact .inr (.inl ⟨toGo s.driver.motor.state, Nat.lt_succ_of_le hless, ⟨st, w', htracks⟩,
        ⟨.handleEnable, .stateSet .operationEnable s.driver.motor.state, []⟩,
        by simp [Thread.after], rfl, Nat.succ_pos _⟩)
  | setting state =>
      obtain ⟨rfl, rfl, rfl⟩ := step_inj hexec
      exact .inr (.inr (.inl (hnear _ rfl rfl (Nat.succ_pos _) (Nat.lt_succ_self _))))
  | checking state htarget =>
      simp only [Motor.exec, htarget] at hexec
      split at hexec
      · next hstate =>
          obtain ⟨rfl, rfl, rfl⟩ := step_inj hexec
          exact .inl (by simp [Thread.after, unwind, hstate])
      · obtain ⟨rfl, rfl, rfl⟩ := step_inj hexec
        exact .inr (.inr (.inl (hnear _ rfl rfl (Nat.succ_pos _) (Nat.lt_succ_self _))))
  | transiting state htarget hstate =>
      obtain ⟨cw, next', htransition, hne, w'', ⟨hacted, horder⟩, htracks''⟩ :=
        hs.transit hthread htarget hstate
      have hnext : some next' ≠ some state := fun heq => hne (Option.some.inj heq)
      rw [← htarget] at htransition
      simp only [Motor.exec, htransition, if_neg hnext] at hexec
      obtain ⟨rfl, rfl, rfl⟩ := step_inj hexec
      refine .inr (.inr (.inr ⟨state, rfl, ⟨st, w'', ?_, hacted, horder⟩, ?_, hstate⟩))
      · simpa [Thread.after, streamedWords] using htracks''
      · simp [Thread.after]
  | waiting => simp [Code.legs] at hlegs

/-- `switchState` goes on when it sees a state other than the one it waits behind. -/
theorem Waits.onward (hs : s.Waits x) (hok : Smooth h s (.driver (.go 1 env)))
    (hstep : s.step (.driver (.go 1 env)) = some (s', es)) : ∃ e, e < toGo x ∧ s'.Heads e := by
  obtain ⟨st, w, htracks, -, -⟩ := hs.tracks
  obtain ⟨⟨w', htracks', -⟩, -, -⟩ := htracks.step hok.1 hstep
  obtain ⟨-, -, -, htime⟩ := hok
  obtain ⟨t, m, next, es', hthread', hexec, rfl, rfl⟩ := step_go hstep
  obtain rfl := Option.some.inj (hs.thread.symm.trans hthread')
  have hbetween := hs.between
  simp only [Motor.exec] at hexec
  split at hexec
  · next hstate =>
      obtain ⟨rfl, rfl, rfl⟩ := step_inj hexec
      have hnext : s.driver.motor.state = nextStateForEnabling x := by
        have hmem : s.driver.motor.state ∈ s.view.told := List.mem_cons_self
        rcases hbetween.told _ hmem with heq | heq
        · exact absurd heq hstate
        · exact heq
      refine ⟨toGo s.driver.motor.state, ?_, ⟨st, w', htracks'⟩,
        ⟨.handleEnable, .stateCheck .operationEnable s.driver.motor.state, []⟩,
        by simp [Thread.after], rfl, Nat.succ_pos _⟩
      rw [hnext]
      exact hbetween.closer
  · simp [htime] at hexec

end Own
end Link

/-! ## Once round the link -/

namespace View

/-- How many steps of the poll come before its writing is over. -/
def untilWritten (v : View) : ℕ :=
  match v.poll with
  | none => 4
  | some .readStatus => 3
  | some (.readDecode _) => 2
  | some (.readMode _) => 1
  | some _ => 0

/-- How many steps of the poll come before it fetches. -/
def untilFetched (v : View) : ℕ :=
  match v.poll with
  | none => 1
  | some (.readDecode _) => 4
  | some (.readMode _) => 3
  | some .write => 2
  | some _ => 0

/-- The control word orders the state after `x`. -/
def Orders (x : InternalState) (cw : Word) : Prop :=
  react x (powerCommand cw) = nextStateForEnabling x

instance (x : InternalState) (cw : Word) : Decidable (Orders x cw) :=
  inferInstanceAs (Decidable (_ = _))

/-- The order is on its way to the slave. -/
def Ordered (x : InternalState) (v : View) : Prop := v.slave = x ∧ ∃ cw ∈ v.down, Orders x cw

/-- The poll has fetched the state after `x`. -/
def Fetched (x : InternalState) (v : View) : Prop :=
  ∃ sw, v.poll = some (.readDecode sw) ∧ State402.read sw = nextStateForEnabling x

section Between
variable {x : InternalState} {v : View}

theorem Between.ne (hv : v.Between x) : x ≠ nextStateForEnabling x := by
  intro heq
  have hcloser := hv.closer
  rw [← heq] at hcloser
  exact absurd hcloser (lt_irrefl _)

theorem Between.not_enabled (hv : v.Between x) : x ≠ .operationEnable := by
  rintro rfl
  exact absurd hv.closer (Nat.not_lt_zero _)

/-- What has come as far as the status word last received is all that is behind it. -/
theorem Between.up_of_cached (hv : v.Between x) (hcached : v.cached = nextStateForEnabling x) :
    ∀ a ∈ v.up, a = nextStateForEnabling x := by
  have hsorted := (List.pairwise_append.mp (List.pairwise_cons.mp hv.sorted).2).2.1
  intro a ha
  exact (List.pairwise_cons.mp hsorted).1 a ha hcached

/-- A status word that is decoded after the new state has the new state too. -/
theorem Between.held_of_state (hv : v.Between x) (hstate : v.state = nextStateForEnabling x)
    {sw : Word} (hpoll : v.poll = some (.readDecode sw)) :
    State402.read sw = nextStateForEnabling x := by
  refine (List.pairwise_cons.mp hv.sorted).1 _ ?_ hstate
  simp [hpoll, Code.held]

end Between
end View

namespace Moves

open View

variable {x : InternalState} {v v' : View} {i : LinkStep}

/-- The first leg: the poll comes to its writing, and streams the order. -/
theorem leg_stream (h : Moves v i v') (hv : v.Between x) :
    (Ordered x v' ∨ v'.slave = nextStateForEnabling x) ∨
      (v'.untilWritten ≤ v.untilWritten ∧ (i.OfThread 0 → v'.untilWritten < v.untilWritten)) := by
  cases h with
  | begin call h | fetch env h | decode env h | display env h =>
      simp [untilWritten, h]
  | @stream env cw words h hcw hwords =>
      rcases hv.slave with hslave | hslave
      · have hstate : v.state = x := by
          rcases hv.told v.state List.mem_cons_self with heq | heq
          · exact heq
          · have hfresh := hv.fresh (heq ▸ List.mem_cons_self)
            exact absurd (hslave.symm.trans hfresh) hv.ne
        have hsent := hwords (hstate ▸ hv.not_enabled)
        refine .inl (.inl ⟨hslave, cw, by simp [hsent], ?_⟩)
        rw [Orders, hcw]
        exact hv.word
      · exact .inl (.inr hslave)
  | arrive | publish | receive => exact .inr ⟨le_rfl, fun hi => hi.elim⟩
  | other hi => exact .inr ⟨le_rfl, fun h0 => absurd h0 hi⟩

/-- The second leg: the order arrives, after the control words before it. -/
theorem leg_arrive (h : Moves v i v') (hv' : v'.Between x) (hp : Ordered x v) :
    v'.slave = nextStateForEnabling x ∨
      (Ordered x v' ∧
        v'.down.findIdx (Orders x ·) ≤ v.down.findIdx (Orders x ·) ∧
        (i = .arrive → v'.down.findIdx (Orders x ·) < v.down.findIdx (Orders x ·))) := by
  obtain ⟨hslave, cw, hmem, hcw⟩ := hp
  cases h with
  | @stream env cw' words h _ _ =>
      refine .inr ⟨⟨hslave, cw, List.mem_append_left _ hmem, hcw⟩, ?_, fun hi => by contradiction⟩
      rw [List.findIdx_append, if_pos]
      exact List.findIdx_lt_length_of_exists ⟨cw, hmem, by simpa using hcw⟩
  | @arrive cw' down h =>
      rw [h] at hmem
      by_cases hhead : Orders x cw'
      · exact .inl (hslave.symm ▸ hhead)
      · rcases hv'.slave with hstay | hgone
        · refine .inr ⟨⟨hstay, cw, ?_, hcw⟩, ?_, fun _ => ?_⟩
          · rcases List.mem_cons.mp hmem with rfl | hmem
            · exact absurd hcw hhead
            · exact hmem
          · simp [h, List.findIdx_cons, hhead]
          · simp [h, List.findIdx_cons, hhead]
        · exact .inl hgone
  | begin | fetch | decode | display | publish | receive | other =>
      exact .inr ⟨⟨hslave, cw, hmem, hcw⟩, le_rfl, fun hi => by contradiction⟩

/-- The third leg: the slave publishes its state. -/
theorem leg_publish (h : Moves v i v') (hp : v.slave = nextStateForEnabling x)
    (hkeep : v'.slave = nextStateForEnabling x) :
    nextStateForEnabling x ∈ v'.up ∨
      (v'.slave = nextStateForEnabling x ∧ ¬ i = .publish) := by
  cases h with
  | publish => exact .inl (by simp [hp])
  | begin | fetch | decode | display | stream | arrive | receive =>
      exact .inr ⟨hkeep, by simp⟩
  | other hi harrive hpublish hreceive => exact .inr ⟨hkeep, hpublish⟩

/-- The fourth leg: the status word arrives, after those before it. -/
theorem leg_receive (h : Moves v i v') (hp : nextStateForEnabling x ∈ v.up) :
    v'.cached = nextStateForEnabling x ∨
      (nextStateForEnabling x ∈ v'.up ∧
        v'.up.idxOf (nextStateForEnabling x) ≤ v.up.idxOf (nextStateForEnabling x) ∧
        (i = .receive →
          v'.up.idxOf (nextStateForEnabling x) < v.up.idxOf (nextStateForEnabling x))) := by
  cases h with
  | publish =>
      refine .inr ⟨List.mem_append_left _ hp, ?_, fun hi => by contradiction⟩
      rw [List.idxOf_append_of_mem hp]
  | @receive a up h =>
      rw [h] at hp
      by_cases ha : a = nextStateForEnabling x
      · exact .inl ha
      · refine .inr ⟨?_, ?_, fun _ => ?_⟩
        · rcases List.mem_cons.mp hp with heq | hmem
          · exact absurd heq.symm ha
          · exact hmem
        · simp [h, List.idxOf_cons_ne _ ha]
        · simp [h, List.idxOf_cons_ne _ ha]
  | begin | fetch | decode | display | stream | arrive => exact .inr ⟨hp, le_rfl, by simp⟩
  | other hi harrive hpublish hreceive => exact .inr ⟨hp, le_rfl, fun h => absurd h hreceive⟩

/-- The fifth leg: a poll fetches the status word. -/
theorem leg_fetch (h : Moves v i v') (hv : v.Between x)
    (hp : v.cached = nextStateForEnabling x) :
    Fetched x v' ∨ (v'.cached = nextStateForEnabling x ∧ v'.untilFetched ≤ v.untilFetched ∧
      (i.OfThread 0 → v'.untilFetched < v.untilFetched)) := by
  cases h with
  | fetch env h hsw => exact .inl ⟨_, rfl, hsw.trans hp⟩
  | begin call h | decode env h | display env h | stream env h =>
      exact .inr ⟨hp, by simp [untilFetched, h]⟩
  | @receive a up h =>
      have ha := hv.up_of_cached hp a (h ▸ List.mem_cons_self)
      exact .inr ⟨ha, le_rfl, fun hi => hi.elim⟩
  | arrive | publish => exact .inr ⟨hp, le_rfl, fun hi => hi.elim⟩
  | other hi => exact .inr ⟨hp, le_rfl, fun h0 => absurd h0 hi⟩

/-- The sixth leg: the poll decodes it. -/
theorem leg_decode (h : Moves v i v') (hp : Fetched x v) :
    v'.state = nextStateForEnabling x ∨ (Fetched x v' ∧ ¬ i.OfThread 0) := by
  obtain ⟨sw, hpoll, hsw⟩ := hp
  cases h with
  | @decode env sw' h =>
      obtain rfl : sw' = sw := by simpa using h.symm.trans hpoll
      exact .inl hsw
  | begin call h | fetch env h | display env h | stream env h => simp [h] at hpoll
  | arrive | publish | receive => exact .inr ⟨⟨sw, hpoll, hsw⟩, id⟩
  | other hi => exact .inr ⟨⟨sw, hpoll, hsw⟩, hi⟩

/-- What the motor knows it goes on to know. -/
theorem keep_state (h : Moves v i v') (hv : v.Between x)
    (hp : v.state = nextStateForEnabling x) : v'.state = nextStateForEnabling x := by
  cases h with
  | decode env h => exact hv.held_of_state hp h
  | begin | fetch | display | stream | arrive | publish | receive | other => exact hp

end Moves

/-! ## Runs -/

namespace Link

open View

variable {r : Run system Smooth} {x : InternalState}

/-- `switchState` has gone on with a later state. -/
def Onward (r : Run system Smooth) (x : InternalState) (n : ℕ) : Prop :=
  ∃ e, e < toGo x ∧ (r.state n).Heads e

/-- `switchState` waits, at a stage that the view shows. -/
def AtStage (r : Run system Smooth) (x : InternalState) (p : View → Prop) (n : ℕ) : Prop :=
  (r.state n).Waits x ∧ p (r.state n).view

theorem Waits.enabling {s : Link} (hs : s.Waits x) : s.Enabling := by
  rw [Enabling, hs.thread]
  simp

/-- A step while `switchState` waits. -/
theorem waits_step {n : ℕ} (hn : (r.state n).Waits x) :
    Onward r x (n + 1) ∨
      ((r.state (n + 1)).Waits x ∧ ¬ (r.input n).OfThread 1 ∧
        Moves (r.state n).view (r.input n) (r.state (n + 1)).view ∧
        ((r.state n).view.slave = nextStateForEnabling x →
          (r.state (n + 1)).view.slave = nextStateForEnabling x)) := by
  have hstep : (r.state n).step (r.input n) = some (r.state (n + 1), r.events n) := r.step n
  have hok := r.guarded n
  by_cases hi : (r.input n).OfThread 1
  · left
    generalize r.input n = i at hstep hok hi
    match i, hi with
    | .driver (.enter _ call), rfl =>
        have hnone := (step_enter hstep).1
        rw [hn.thread] at hnone
        contradiction
    | .driver (.go _ env), rfl => exact hn.onward hok hstep
  · exact .inr ⟨(hn.keep hok hi hstep).1, hi, (hn.keep hok hi hstep).2⟩

/-- **A leg leads to the next one.**  A stage in which inputs of a kind come closer to the next
stage, and all others keep their distance. -/
theorem leadsTo_of_leg {A : LinkStep → Prop} {can : Link → Prop} {p q : View → Prop}
    (hfair : r.Fair A can) (rank : View → ℕ) (hcan : ∀ s : Link, s.Waits x → p s.view → can s)
    (hleg : ∀ v i v', Moves v i v' → v.Between x → v'.Between x → ¬ i.OfThread 1 →
      (v.slave = nextStateForEnabling x → v'.slave = nextStateForEnabling x) → p v →
      q v' ∨ (p v' ∧ rank v' ≤ rank v ∧ (A i → rank v' < rank v))) :
    LeadsTo (AtStage r x p) fun n => AtStage r x q n ∨ Onward r x n := by
  refine Run.leadsTo_of_rank hfair (fun s => rank s.view) (fun n hn => hcan _ hn.1 hn.2) ?_
  intro n hn
  obtain ⟨hwaits, hp⟩ := hn
  rcases waits_step hwaits with honward | ⟨hwaits', hi, hmoves, hkeep⟩
  · exact .inr (.inl (.inr honward))
  · rcases hleg _ _ _ hmoves hwaits.between hwaits'.between hi hkeep hp with hq | ⟨hp', hrank⟩
    · exact .inr (.inl (.inl ⟨hwaits', hq⟩))
    · exact .inr (.inr ⟨⟨hwaits', hp'⟩, hrank⟩)

/-- **Once round the link.**  `switchState` does not wait forever. -/
theorem FairEnabling.onward (hfair : FairEnabling r) (x : InternalState) :
    LeadsTo (fun n => (r.state n).Waits x) (Onward r x) := by
  have hknown : LeadsTo (AtStage r x (·.state = nextStateForEnabling x)) (Onward r x) := by
    refine (leadsTo_of_leg (q := fun _ => False) hfair.enable (fun _ => 0) ?_ ?_).trans
      (.of_imp fun n hn => hn.resolve_left fun h => h.2)
    · intro s hs hp
      refine ⟨hs.enabling, ?_⟩
      intro hblocked
      obtain ⟨t, target, hthread, hcode⟩ := hblocked
      obtain rfl := Option.some.inj (hs.thread.symm.trans hthread)
      have heq : x = s.driver.motor.state := by
        simp only [Code.stateWait.injEq] at hcode
        exact hcode.2
      exact hs.between.ne (heq.trans hp)
    · intro v i v' hmoves hv _ hi _ hp
      exact .inr ⟨hmoves.keep_state hv hp, le_rfl, fun h => absurd h hi⟩
  have hfetched : LeadsTo (AtStage r x (Fetched x)) (Onward r x) := by
    refine (leadsTo_of_leg hfair.poll (fun _ => 0) (fun s hs _ => hs.enabling) ?_).via hknown
    intro v i v' hmoves _ _ _ _ hp
    rcases hmoves.leg_decode hp with hq | ⟨hp', hi⟩
    · exact .inl hq
    · exact .inr ⟨hp', le_rfl, fun h => absurd h hi⟩
  have hcached : LeadsTo (AtStage r x (·.cached = nextStateForEnabling x)) (Onward r x) := by
    refine (leadsTo_of_leg hfair.poll untilFetched (fun s hs _ => hs.enabling) ?_).via hfetched
    intro v i v' hmoves hv _ _ _ hp
    exact hmoves.leg_fetch hv hp
  have hup : LeadsTo (AtStage r x fun v => nextStateForEnabling x ∈ v.up) (Onward r x) := by
    refine (leadsTo_of_leg hfair.receive (fun v => v.up.idxOf (nextStateForEnabling x)) ?_ ?_).via
      hcached
    · intro s hs hp
      refine ⟨hs.enabling, ?_⟩
      intro hnil
      simp [view, hnil] at hp
    · intro v i v' hmoves _ _ _ _ hp
      exact hmoves.leg_receive hp
  have hslave : LeadsTo (AtStage r x (·.slave = nextStateForEnabling x)) (Onward r x) := by
    refine (leadsTo_of_leg hfair.publish (fun _ => 0) (fun s hs _ => hs.enabling) ?_).via hup
    intro v i v' hmoves _ _ _ hkeep hp
    rcases hmoves.leg_publish hp (hkeep hp) with hq | ⟨hp', hi⟩
    · exact .inl hq
    · exact .inr ⟨hp', le_rfl, fun h => absurd h hi⟩
  have hordered : LeadsTo (AtStage r x (Ordered x)) (Onward r x) := by
    refine (leadsTo_of_leg hfair.arrive (fun v => v.down.findIdx (Orders x ·)) ?_ ?_).via hslave
    · intro s hs hp
      refine ⟨hs.enabling, ?_⟩
      intro hnil
      obtain ⟨-, cw, hmem, -⟩ := hp
      simp [view, hnil] at hmem
    · intro v i v' hmoves _ hv' _ _ hp
      exact hmoves.leg_arrive hv' hp
  have hstreamed : LeadsTo (AtStage r x fun _ => True) (Onward r x) := by
    refine (leadsTo_of_leg (q := fun v => Ordered x v ∨ v.slave = nextStateForEnabling x)
      hfair.poll untilWritten (fun s hs _ => hs.enabling) ?_).via ?_
    · intro v i v' hmoves hv _ _ _ _
      rcases hmoves.leg_stream hv with hq | hrank
      · exact .inl hq
      · exact .inr ⟨trivial, hrank⟩
    · intro n hn
      obtain ⟨hwaits, hq | hq⟩ := hn
      · exact hordered n ⟨hwaits, hq⟩
      · exact hslave n ⟨hwaits, hq⟩
  intro n hn
  exact hstreamed n ⟨hn, trivial⟩

/-- `handleEnable` has returned true. -/
def Enabled (r : Run system Smooth) (n : ℕ) : Prop :=
  MotorEvent.returned .handleEnable true ∈ r.events n

theorem Heads.enabling {d : ℕ} {s : Link} (hs : s.Heads d) : s.Enabling ∧ ¬ s.Blocked := by
  obtain ⟨t, hthread, -, hlegs⟩ := hs.thread
  refine ⟨by simp [Enabling, hthread], ?_⟩
  intro hblocked
  obtain ⟨t', target, hthread', hcode⟩ := hblocked
  obtain rfl := Option.some.inj (hthread.symm.trans hthread')
  rw [hcode] at hlegs
  exact absurd hlegs (Nat.lt_irrefl 0)

/-- A step while `handleEnable` goes on by itself. -/
theorem heads_step {d n : ℕ} (hn : (r.state n).Heads d) :
    Enabled r n ∨ (∃ e, e < d ∧ (r.state (n + 1)).Heads e) ∨
      (∃ x, toGo x = d ∧ (r.state (n + 1)).Waits x) ∨
      ((r.state (n + 1)).Heads d ∧ (r.state (n + 1)).legs ≤ (r.state n).legs ∧
        ((r.input n).OfThread 1 → (r.state (n + 1)).legs < (r.state n).legs)) := by
  have hstep : (r.state n).step (r.input n) = some (r.state (n + 1), r.events n) := r.step n
  have hok := r.guarded n
  obtain ⟨⟨st, w, htracks⟩, t, hthread, rfl, hlegs⟩ := hn
  by_cases hi : (r.input n).OfThread 1
  · generalize r.input n = i at hstep hok hi
    match i, hi with
    | .driver (.enter _ call), rfl =>
        have hnone := (step_enter hstep).1
        rw [hthread] at hnone
        contradiction
    | .driver (.go _ env), rfl =>
        rcases htracks.onward hok hstep hthread hlegs with h | h | ⟨hheads, hless⟩ | h
        · exact .inl h
        · exact .inr (.inl h)
        · exact .inr (.inr (.inr ⟨hheads, hless.le, fun _ => hless⟩))
        · exact .inr (.inr (.inl h))
  · obtain ⟨⟨w', htracks', -⟩, -, -⟩ := htracks.step hok.1 hstep
    have hsame := (htracks.moves hok hi hstep).2
    have hkept : (r.state (n + 1)).legs = (r.state n).legs := by rw [legs, legs, hsame]
    exact .inr (.inr (.inr ⟨⟨⟨st, w', htracks'⟩, t, hsame.trans hthread, rfl, hlegs⟩, hkept.le,
      fun h => absurd h hi⟩))

/-- From wherever `handleEnable` has got to, it returns true. -/
theorem FairEnabling.enabled (hfair : FairEnabling r) (d : ℕ) :
    LeadsTo (fun n => (r.state n).Heads d) (Enabled r) := by
  refine LeadsTo.of_descent (P := fun d n => (r.state n).Heads d) ?_ d
  intro d
  have hheads : LeadsTo (fun n => (r.state n).Heads d) fun n =>
      (∃ x, toGo x = d ∧ (r.state n).Waits x) ∨
        (∃ e, e < d ∧ (r.state n).Heads e) ∨ Enabled r n := by
    refine Run.leadsTo_of_rank hfair.enable legs (fun n hn => hn.enabling) ?_
    intro n hn
    rcases heads_step hn with h | h | h | h
    · exact .inl (.inr (.inr h))
    · exact .inr (.inl (.inr (.inl h)))
    · exact .inr (.inl (.inl h))
    · exact .inr (.inr h)
  refine hheads.via ?_
  intro n hn
  obtain ⟨x, rfl, hwaits⟩ := hn
  obtain ⟨m, hle, honward⟩ := hfair.onward x n hwaits
  exact ⟨m, hle, .inl honward⟩

theorem reach_solo (r : Run system Smooth) (n : ℕ) :
    Reach system Solo (historyOf r.events n) (r.state n) :=
  (r.reach n).mono fun _ _ _ hok => hok.1

/-- **Every call of `handleEnable` ends, with an enabled slave.**  In a run that goes on
forever, where polls and threads go on, what is sent arrives, no access throws and no wait
times out, each call is followed by its return; it returns true, and the slave is enabled
then. -/
theorem enabling_ends (hfair : FairEnabling r) {n : ℕ}
    (hcall : r.input n = .driver (.enter 1 .handleEnable)) :
    ∃ m, n < m ∧ MotorEvent.returned .handleEnable true ∈ r.events m ∧
      (r.state (m + 1)).slave.state = .operationEnable := by
  have hstep : (r.state n).step (r.input n) = some (r.state (n + 1), r.events n) := r.step n
  rw [hcall] at hstep
  have hstate := (step_enter hstep).2.2
  have hheads : (r.state (n + 1)).Heads 5 :=
    { tracks := (tracks_of_reach (reach_solo r (n + 1))).1
      thread := ⟨⟨.handleEnable, .readStatus, [.thenState .operationEnable]⟩,
        by simp [hstate, Call.entry], rfl, Nat.succ_pos _⟩ }
  obtain ⟨m, hle, hreturned⟩ := hfair.enabled 5 (n + 1) hheads
  refine ⟨m, hle, hreturned, ?_⟩
  exact (tracks_of_reach (reach_solo r (m + 1))).2 (List.mem_append_left _ hreturned)

/-- A mode thread of the slave publishes the status word. -/
def idle : LinkStep := .side ⟨.threadPublish, trivial⟩

/-- `enableOnce`, and nothing but idling after it. -/
def enableThenIdle (n : ℕ) : LinkStep := enableOnce.getD n idle

/-- What `Smooth` asks beyond `Solo`. -/
def promptCheck : LinkStep → Bool
  | .driver (.go _ env) => env.driverOk && env.streamOk && !env.timedOut
  | _ => true

theorem smooth_of_check {h : List MotorEvent} {s : Link} {i : LinkStep}
    (hsolo : soloCheck h s i = true) (hprompt : promptCheck i = true) : Smooth h s i := by
  refine ⟨solo_of_soloCheck h s i hsolo, ?_⟩
  match i with
  | .driver (.go _ env) => simpa [promptCheck, and_assoc] using hprompt
  | .driver (.enter _ _) | .arrive | .side _ | .publish | .receive => trivial

theorem enableThenIdle_of_le {n : ℕ} (hn : 23 ≤ n) : enableThenIdle n = idle :=
  List.getD_eq_default enableOnce idle hn

/-- The steps of `enableOnce` are smooth ones. -/
theorem smooth_enableThenIdle (n : ℕ) :
    (system.step (system.follow enableThenIdle switchedOn n) (enableThenIdle n)).isSome ∧
      ∀ h, Smooth h (system.follow enableThenIdle switchedOn n) (enableThenIdle n) := by
  have hfirst : ∀ n < 23,
      (system.step (system.follow enableThenIdle switchedOn n) (enableThenIdle n)).isSome = true ∧
        soloCheck [] (system.follow enableThenIdle switchedOn n) (enableThenIdle n) = true ∧
        promptCheck (enableThenIdle n) = true := by decide
  by_cases hn : n < 23
  · obtain ⟨hsome, hsolo, hprompt⟩ := hfirst n hn
    exact ⟨hsome, fun h => smooth_of_check hsolo hprompt⟩
  · rw [enableThenIdle_of_le (by omega)]
    exact ⟨rfl, fun h => ⟨trivial, trivial⟩⟩

/-- After `enableOnce` no thread is in `handleEnable`. -/
theorem not_enabling_of_le {n : ℕ} (hn : 23 ≤ n) :
    ¬ (system.follow enableThenIdle switchedOn n).Enabling := by
  obtain ⟨k, rfl⟩ := Nat.exists_eq_add_of_le hn
  induction k with
  | zero =>
      have hnone :
          ((system.follow enableThenIdle switchedOn 23).driver.threads 1).isNone = true := by
        decide
      simpa [Enabling] using hnone
  | succ k ih =>
      have hstep : system.follow enableThenIdle switchedOn (23 + (k + 1)) =
          { system.follow enableThenIdle switchedOn (23 + k) with
            slave := (system.follow enableThenIdle switchedOn (23 + k)).slave.publishStatus } := by
        rw [← Nat.add_assoc, System.follow, enableThenIdle_of_le (by omega)]
        rfl
      rw [hstep]
      exact ih (by omega)

theorem enabling_ends_switchedOn : ∃ (r : Run system Smooth) (m : ℕ), FairEnabling r ∧
    MotorEvent.returned .handleEnable true ∈ r.events m ∧
      (r.state (m + 1)).slave.state = .operationEnable := by
  let r : Run system Smooth := Run.following settled_switchedOn
    (fun n => (smooth_enableThenIdle n).1) fun n => (smooth_enableThenIdle n).2 _
  have hlater : ∀ n, ∃ m, n ≤ m ∧ ¬ (r.state m).Enabling := fun n =>
    ⟨n + 23, by omega, not_enabling_of_le (by omega)⟩
  have hfair : FairEnabling r :=
    { poll := fun n => (hlater n).imp fun m hm => ⟨hm.1, fun h => absurd h hm.2⟩
      enable := fun n => (hlater n).imp fun m hm => ⟨hm.1, fun h => absurd h.1 hm.2⟩
      arrive := fun n => (hlater n).imp fun m hm => ⟨hm.1, fun h => absurd h.1 hm.2⟩
      publish := fun n => (hlater n).imp fun m hm => ⟨hm.1, fun h => absurd h hm.2⟩
      receive := fun n => (hlater n).imp fun m hm => ⟨hm.1, fun h => absurd h.1 hm.2⟩ }
  obtain ⟨m, -, hreturned⟩ := enabling_ends hfair (n := 0) rfl
  exact ⟨r, m, hfair, hreturned⟩

end Link
end RosCanopen.Cia402
