import RosCanopen.Core.DriverThreads

/-!
# The bridge and its removal

A task resets the pointer to the bridge, and `deactivate` those to the queues, while the listener
and the poll callback may be about to follow them; and the listener begins before `activated_` is
set, which it looks at when a wait has been in vain.  No pointer is followed when it is null, and
the listener lives as long as the driver is activated, along the runs in which the tasks, the
messages of the bus and the waits come at other moments.

## Main definitions

* `DriverThreads.heeds` — the steps that come at such moments.
* `DriverThreads.Sound` — the invariant, thread by thread.
* `never_null_of_heeded` — the result.
-/

namespace RosCanopen.Core

open Lib

/-- The listener has something to do with the bridge. -/
def ListenerPc.needsBridge : ListenerPc → Bool
  | .requesting | .waiting .arrived | .received | .reported | .logging => true
  | .waiting .pending | .waiting .broken | .ended => false

/-- The listener goes on, whatever becomes of its wait. -/
def ListenerPc.runs : ListenerPc → Bool
  | .waiting .broken | .ended => false
  | _ => true

namespace PollPc

/-- The callback may still look into `emcy_queue_`. -/
def usesEmcyQueue : PollPc → Bool
  | .emcy _ => true
  | .emcyPopped i => i + 1 < 10
  | _ => false

/-- The callback may still look into `rpdo_queue_`. -/
def usesRpdoQueue : PollPc → Bool
  | .rpdoPopped i => i + 1 < 10
  | .motors => false
  | _ => true

/-- The callback of the user is to be called, with the id of the bridge. -/
def needsBridge (kind : DriverKind) : PollPc → Bool
  | .emcyPopped _ => kind.emcyCb
  | .rpdoPopped _ => kind.rpdoCb
  | _ => false

end PollPc

/-- `activate` from the start of the listener's thread on. -/
def LifePc.starting : LifePc → Bool
  | .started | .emcySet | .rpdoSet | .hooked => true
  | _ => false

namespace DriverThreads
variable (kind : DriverKind) (s : DriverThreads)

/-- The driver is activated, or is about to be. -/
def activates : Bool := s.activated || s.life.starting

/-- A step that comes at a moment at which it does no harm. -/
def heeds : ThreadInput → Bool
  -- the bridge is removed while nobody has anything to do with it
  | .run _ => match s.tasks with
      | (_, .reset) :: _ =>
          !s.listener.any ListenerPc.needsBridge && !s.poll.any (PollPc.needsBridge kind)
      | _ => true
  -- a bridge that only the motors keep has nothing to say to the listener
  | .nmtState => s.lelyDriver || s.listener ≠ some (.waiting .pending)
  | .poll ok => match s.poll with
      | some (.emcy _) => !ok || !kind.emcyCb || s.lelyDriver
      | some (.rpdo _) => !ok || !kind.rpdoCb || s.lelyDriver
      | _ => true
  | .sync => s.emcyQueue && s.rpdoQueue
  -- a queue is given up when no callback looks into it any more
  | .proceed _ => match s.life with
      | .cancelled => !s.poll.any PollPc.usesEmcyQueue
      | .emcyReset => !s.poll.any PollPc.usesRpdoQueue
      | _ => true
  -- the listener has no reason to end before the driver is deactivated
  | .listenerTimeout => !s.life.starting
  | .listener ok => ok || !s.activates || s.listener ≠ some .requesting
  | .listenerThrow _ => !s.activates
  | _ => true

/-- Every step is such a one. -/
def heeded : Guard DriverThreads ThreadInput ThreadEvent :=
  fun _ s i => heeds kind s i = true

/-! ## The invariant -/

/-- What holds at a point of the calls. -/
def LifeSound (s : DriverThreads) : LifePc → Prop
  | .idle => s.activated = true →
      s.lelyDriver = true ∧ s.tasks = [] ∧ s.emcyQueue = true ∧ s.rpdoQueue = true ∧
        s.listener.any ListenerPc.runs = true
  | .adding task => s.activated = false ∧
      ((s.promise = true ∧ s.lelyDriver = true ∧ s.tasks = []) ∨ (s.promise = false ∧
        (s.tasks = [] ∨ ∃ earlier, s.tasks = earlier ++ [(task, .construct)] ∧
          ∀ t ∈ earlier, t.1 ≠ task)))
  | .checking | .booting _ | .added | .activating =>
      s.activated = false ∧ s.lelyDriver = true ∧ s.tasks = []
  | .started =>
      s.activated = false ∧ s.lelyDriver = true ∧ s.tasks = [] ∧
        s.listener.any ListenerPc.runs = true
  | .emcySet =>
      s.activated = false ∧ s.lelyDriver = true ∧ s.tasks = [] ∧
        s.listener.any ListenerPc.runs = true ∧ s.emcyQueue = true
  | .rpdoSet | .hooked =>
      s.activated = false ∧ s.lelyDriver = true ∧ s.tasks = [] ∧
        s.listener.any ListenerPc.runs = true ∧ s.emcyQueue = true ∧ s.rpdoQueue = true
  | .deactivating =>
      s.activated = false ∧ s.lelyDriver = true ∧ s.tasks = []
  | .removing _ | .joining | .joined => s.activated = false
  | .cancelled | .emcyReset | .rpdoReset => s.activated = false ∧ s.pollTimer = false

/-- What holds of a driver and its threads. -/
structure Sound : Prop where
  life : LifeSound s s.life
  posted : ∀ t ∈ s.tasks, t.1 < s.posted
  /-- The listener has a bridge when it needs one. -/
  listener : s.listener.any ListenerPc.needsBridge = true → s.lelyDriver = true
  callback : s.poll.any (PollPc.needsBridge kind) = true → s.lelyDriver = true
  emcyQueue : s.poll.any PollPc.usesEmcyQueue = true → s.emcyQueue = true
  rpdoQueue : s.poll.any PollPc.usesRpdoQueue = true → s.rpdoQueue = true
  pollTimer : s.pollTimer = true → s.emcyQueue = true ∧ s.rpdoQueue = true

/-- No null pointer is followed, and the invariant holds afterwards. -/
def Safe (r : DriverThreads × List ThreadEvent) : Prop :=
  Sound kind r.1 ∧ ∀ p, .used p true ∉ r.2

section Steps
variable {kind : DriverKind} {s s' : DriverThreads} {r : DriverThreads × List ThreadEvent}

theorem Safe.silent (hs : Sound kind s) : Safe kind (s, []) := ⟨hs, by simp⟩

theorem Safe.emit {e : ThreadEvent} (hs : Sound kind s) (he : ∀ p, e ≠ .used p true) :
    Safe kind (s, [e]) := by
  refine ⟨hs, fun p hmem => ?_⟩
  exact he p (List.mem_singleton.mp hmem).symm

/-- A pointer that is not null is followed. -/
theorem Safe.follow {p : Pointer} (hp : s.points p = true) (hs' : Sound kind s') :
    Safe kind (s.follow p s') := by
  rw [DriverThreads.follow, if_pos hp]
  exact .emit hs' (by simp)

/-- The calls go on, and nothing else changes. -/
theorem Sound.move (hs : Sound kind s) (l : LifePc) (hlife : LifeSound s l) :
    Sound kind { s with life := l } where
  life := by
    cases l <;> exact hlife
  posted := hs.posted
  listener := hs.listener
  callback := hs.callback
  emcyQueue := hs.emcyQueue
  rpdoQueue := hs.rpdoQueue
  pollTimer := hs.pollTimer

/-- An end of the process. -/
theorem Sound.terminate (hs : Sound kind s) : Sound kind { s with terminated := true } where
  life := by
    have hlife := hs.life
    revert hlife
    cases s.life <;> exact id
  posted := hs.posted
  listener := hs.listener
  callback := hs.callback
  emcyQueue := hs.emcyQueue
  rpdoQueue := hs.rpdoQueue
  pollTimer := hs.pollTimer

/-- A task is posted. -/
theorem Sound.post (hs : Sound kind s) (t : DriverTask) (l : LifePc) (promise : Bool)
    (hlife : LifeSound { s.post t with promise := promise } l) :
    Sound kind { s.post t with life := l, promise := promise } where
  life := by
    cases l <;> exact hlife
  posted := by
    intro task hmem
    rcases List.mem_append.mp hmem with hmem | hmem
    · exact Nat.lt_succ_of_lt (hs.posted task hmem)
    · rw [List.mem_singleton.mp hmem]
      exact Nat.lt_succ_self _
  listener := hs.listener
  callback := hs.callback
  emcyQueue := hs.emcyQueue
  rpdoQueue := hs.rpdoQueue
  pollTimer := hs.pollTimer

/-! ### The calls -/

theorem safe_activate (hs : Sound kind s) (hstep : s.activate = some r) : Safe kind r := by
  unfold activate at hstep
  by_cases hidle : s.life = .idle
  · rw [if_pos hidle] at hstep
    cases hactivated : s.activated with
    | true =>
        rw [if_pos hactivated] at hstep
        cases hstep
        exact .emit hs (by simp)
    | false =>
        rw [if_neg (by simp [hactivated])] at hstep
        cases hstep
        refine .silent (hs.post .construct _ false ?_)
        refine ⟨hactivated, .inr ⟨rfl, .inr ⟨s.tasks, rfl, fun t ht => ?_⟩⟩⟩
        exact Nat.ne_of_lt (hs.posted t ht)
  · rw [if_neg hidle] at hstep
    cases hstep

theorem safe_deactivate (hs : Sound kind s) (hstep : s.deactivate = some r) : Safe kind r := by
  unfold deactivate at hstep
  by_cases hidle : s.life = .idle
  · rw [if_pos hidle] at hstep
    cases hactivated : s.activated with
    | true =>
        rw [if_pos hactivated] at hstep
        cases hstep
        have hlife := hs.life
        rw [hidle] at hlife
        obtain ⟨hbridge, htasks, -⟩ := hlife hactivated
        exact .silent ⟨⟨rfl, hbridge, htasks⟩, hs.posted, hs.listener, hs.callback, hs.emcyQueue,
          hs.rpdoQueue, hs.pollTimer⟩
    | false =>
        rw [if_neg (by simp [hactivated])] at hstep
        cases hstep
        exact .emit hs (by simp)
  · rw [if_neg hidle] at hstep
    cases hstep

theorem safe_ready (hs : Sound kind s) (hstep : s.ready = some r) : Safe kind r := by
  have hlife := hs.life
  unfold ready at hstep
  cases hpc : s.life with
  | adding task =>
      simp only [hpc] at hstep hlife
      obtain ⟨hactivated, ⟨hpromise, hbridge, htasks⟩ | ⟨hpromise, -⟩⟩ := hlife
      · rw [if_pos hpromise] at hstep
        cases hstep
        exact .silent ⟨⟨hactivated, rfl, htasks⟩, hs.posted, fun _ => rfl, fun _ => rfl,
          hs.emcyQueue, hs.rpdoQueue, hs.pollTimer⟩
      · rw [if_neg (by simp [hpromise])] at hstep
        cases hstep
  | removing task =>
      simp only [hpc] at hstep hlife
      split at hstep
      · cases hstep
      · cases hstep
        exact .silent (hs.move .joining hlife)
  | _ => simp [hpc] at hstep

/-- A driver that is not activated owes nothing between two calls. -/
theorem lifeSound_idle (hactivated : s.activated = false) : LifeSound s .idle := by
  intro htrue
  rw [hactivated] at htrue
  cases htrue

theorem safe_timeout (hs : Sound kind s) (hstep : s.timeout = some r) : Safe kind r := by
  have hlife := hs.life
  unfold timeout at hstep
  cases hpc : s.life with
  | adding task =>
      simp only [hpc] at hstep hlife
      split at hstep
      · cases hstep
      · cases hstep
        exact .emit (hs.move .idle (lifeSound_idle hlife.1)) (by simp)
  | removing task =>
      simp only [hpc] at hstep hlife
      split at hstep
      · cases hstep
        exact .emit (hs.move .idle (lifeSound_idle hlife)) (by simp)
      · cases hstep
  | _ => simp [hpc] at hstep

theorem safe_fail (hs : Sound kind s) (hstep : s.fail = some r) : Safe kind r := by
  have hlife := hs.life
  unfold fail at hstep
  cases hpc : s.life <;> simp only [hpc] at hstep hlife <;> cases hstep <;>
    exact .emit (hs.move .idle (lifeSound_idle hlife.1)) (by simp)

/-- **A step of a call**: every pointer that it follows is there. -/
theorem safe_proceed {ok : Bool} (hs : Sound kind s) (hok : heeds kind s (.proceed ok) = true)
    (hstep : s.proceed kind ok = some r) : Safe kind r := by
  have hlife := hs.life
  unfold proceed at hstep
  cases hpc : s.life with
  | idle => simp [hpc] at hstep
  | adding task => simp [hpc] at hstep
  | removing task => simp [hpc] at hstep
  | checking =>
      simp only [hpc] at hstep hlife
      cases hstep
      cases ok with
      | true => exact .follow hlife.2.1 (hs.move .added hlife)
      | false => exact .follow hlife.2.1 (hs.move (.booting 1) hlife)
  | booting attempts =>
      simp only [hpc] at hstep hlife
      have hbridge : s.points .lelyDriver = true := hlife.2.1
      simp only [follow, hbridge, if_true] at hstep
      cases ok with
      | true =>
          cases hstep
          exact .emit (hs.move .added hlife) (by simp)
      | false =>
          by_cases hattempts : attempts < NodeCanopenBaseDriver.maxBootAttempts
          · simp only [Bool.false_eq_true, if_false, if_pos hattempts, reduceCtorEq] at hstep
            cases hstep
            exact .emit (hs.move (.booting (attempts + 1)) hlife) (by simp)
          · simp only [Bool.false_eq_true, if_false, if_neg hattempts, if_true] at hstep
            cases hstep
            exact ⟨hs.move .idle (lifeSound_idle hlife.1), by simp⟩
  | added =>
      simp only [hpc] at hstep hlife
      cases hstep
      exact .silent ⟨hlife, hs.posted, hs.listener, hs.callback, hs.emcyQueue, hs.rpdoQueue,
        hs.pollTimer⟩
  | activating =>
      simp only [hpc] at hstep hlife
      split at hstep
      · cases hstep
        have hend := hs.terminate
        rw [hpc] at hend
        exact .emit hend (by simp)
      · cases hstep
        exact .silent ⟨⟨hlife.1, hlife.2.1, hlife.2.2, rfl⟩, hs.posted, fun _ => hlife.2.1,
          hs.callback, hs.emcyQueue, hs.rpdoQueue, hs.pollTimer⟩
  | started =>
      simp only [hpc] at hstep hlife
      cases hstep
      obtain ⟨hactivated, hbridge, htasks, hruns⟩ := hlife
      exact .follow hbridge ⟨⟨hactivated, hbridge, htasks, hruns, rfl⟩, hs.posted, hs.listener,
        hs.callback, fun _ => rfl, hs.rpdoQueue, fun htimer => ⟨rfl, (hs.pollTimer htimer).2⟩⟩
  | emcySet =>
      simp only [hpc] at hstep hlife
      cases hstep
      obtain ⟨hactivated, hbridge, htasks, hruns, hemcy⟩ := hlife
      exact .follow hbridge ⟨⟨hactivated, hbridge, htasks, hruns, hemcy, rfl⟩, hs.posted,
        hs.listener, hs.callback, hs.emcyQueue, fun _ => rfl, fun _ => ⟨hemcy, rfl⟩⟩
  | rpdoSet =>
      simp only [hpc] at hstep hlife
      have hqueues := hlife.2.2.2.2
      split at hstep
      · cases hstep
        exact .silent ⟨hlife, hs.posted, hs.listener, hs.callback, hs.emcyQueue, hs.rpdoQueue,
          fun _ => hqueues⟩
      · cases hstep
        exact .follow hlife.2.1 ⟨hlife, hs.posted, hs.listener, hs.callback, hs.emcyQueue,
          hs.rpdoQueue, hs.pollTimer⟩
  | hooked =>
      simp only [hpc] at hstep hlife
      cases hstep
      obtain ⟨-, hbridge, htasks, hruns, hemcy, hrpdo⟩ := hlife
      refine .emit ⟨fun _ => ⟨hbridge, htasks, hemcy, hrpdo, hruns⟩, hs.posted, hs.listener,
        hs.callback, hs.emcyQueue, hs.rpdoQueue, hs.pollTimer⟩ (by simp)
  | deactivating =>
      simp only [hpc] at hstep hlife
      cases hstep
      exact .silent (hs.post .reset _ s.promise hlife.1)
  | joining =>
      simp only [hpc] at hstep hlife
      cases hlistener : s.listener with
      | none =>
          simp only [hlistener] at hstep
          cases hstep
          have hidle := hs.move .idle (lifeSound_idle hlife)
          rw [hlistener] at hidle
          exact .emit hidle (by simp)
      | some pc =>
          cases pc with
          | ended =>
              simp only [hlistener] at hstep
              cases hstep
              exact .silent ⟨hlife, hs.posted, (fun h => by cases h), hs.callback, hs.emcyQueue,
                hs.rpdoQueue, hs.pollTimer⟩
          | _ => simp [hlistener] at hstep
  | joined =>
      simp only [hpc] at hstep hlife
      cases hstep
      exact .silent ⟨⟨hlife, rfl⟩, hs.posted, hs.listener, hs.callback, hs.emcyQueue,
        hs.rpdoQueue, fun h => by cases h⟩
  | cancelled =>
      simp only [hpc] at hstep hlife
      cases hstep
      have hunused : s.poll.any PollPc.usesEmcyQueue = false := by
        simpa [heeds, hpc] using hok
      exact .silent ⟨hlife, hs.posted, hs.listener, hs.callback,
        fun huses => absurd huses (by simp [hunused]), hs.rpdoQueue,
        fun htimer => absurd htimer (by simp [hlife.2])⟩
  | emcyReset =>
      simp only [hpc] at hstep hlife
      cases hstep
      have hunused : s.poll.any PollPc.usesRpdoQueue = false := by
        simpa [heeds, hpc] using hok
      exact .silent ⟨hlife, hs.posted, hs.listener, hs.callback, hs.emcyQueue,
        fun huses => absurd huses (by simp [hunused]),
        fun htimer => absurd htimer (by simp [hlife.2])⟩
  | rpdoReset =>
      simp only [hpc] at hstep hlife
      cases hstep
      cases hmotors : kind.hasMotors with
      | false => exact .emit (hs.move .idle (lifeSound_idle hlife.1)) (by simp)
      | true =>
          exact .emit (hs.post .release .idle s.promise (lifeSound_idle hlife.1)) (by simp)

/-! ### The tasks -/

/-- The end of a bridge matters to a listener that waits for its state. -/
theorem Sound.releaseBridge (hs : Sound kind s)
    (hlife : s.alive = false → LifeSound
      { s with
        onSyncFunction := false
        listener := if s.listener = some (.waiting .pending) then some (.waiting .broken)
          else s.listener } s.life) : Sound kind s.releaseBridge := by
  unfold DriverThreads.releaseBridge
  cases halive : s.alive with
  | true => simpa using hs
  | false =>
      simp only [Bool.false_eq_true, if_false]
      refine ⟨hlife halive, hs.posted, fun hneeds => hs.listener ?_, hs.callback, hs.emcyQueue,
        hs.rpdoQueue, hs.pollTimer⟩
      by_cases hpending : s.listener = some (.waiting .pending)
      · simp [hpending, ListenerPc.needsBridge] at hneeds
      · simpa [hpending] using hneeds

/-- A task runs only while the calls owe nothing, or wait for it. -/
theorem lifeSound_run {task : ℕ} {t : DriverTask} {tasks : List (ℕ × DriverTask)}
    (hs : Sound kind s) (htasks : s.tasks = (task, t) :: tasks)
    (hactivated : s'.activated = s.activated) (htimer : s'.pollTimer = s.pollTimer)
    (htasks' : s'.tasks = tasks)
    (hpromise : s'.promise = s.promise ∨ s.life = .adding task ∧ s'.lelyDriver = true) :
    LifeSound s' s.life := by
  have hlife := hs.life
  have hbusy : s.tasks ≠ [] := by
    rw [htasks]
    exact List.cons_ne_nil _ _
  cases hpc : s.life with
  | idle =>
      rw [hpc] at hlife
      refine lifeSound_idle (Bool.eq_false_iff.mpr fun htrue => ?_)
      exact hbusy (hlife (hactivated ▸ htrue)).2.1
  | adding k =>
      rw [hpc] at hlife hpromise
      obtain ⟨hinactive, ⟨-, -, hnil⟩ | ⟨hnone, hnil | ⟨earlier, happend, hother⟩⟩⟩ := hlife
      · exact absurd hnil hbusy
      · exact absurd hnil hbusy
      · refine ⟨hactivated.trans hinactive, ?_⟩
        rw [htasks] at happend
        cases earlier with
        | nil =>
            -- the task of the call itself
            have hlast : tasks = [] := (List.cons.inj happend).2
            rcases hpromise with hsame | ⟨-, hbridge⟩
            · exact .inr ⟨hsame.trans hnone, .inl (htasks'.trans hlast)⟩
            · cases hdone : s'.promise with
              | true => exact .inl ⟨rfl, hbridge, htasks'.trans hlast⟩
              | false => exact .inr ⟨rfl, .inl (htasks'.trans hlast)⟩
        | cons e earlier =>
            -- a task of an earlier call
            obtain ⟨he, hrest⟩ := List.cons.inj happend
            have hne : task ≠ k := by
              have hfirst := hother e List.mem_cons_self
              rwa [← he] at hfirst
            have hsame : s'.promise = s.promise := by
              rcases hpromise with hsame | ⟨hcall, -⟩
              · exact hsame
              · exact absurd (LifePc.adding.inj hcall).symm hne
            refine .inr ⟨hsame.trans hnone, .inr ⟨earlier, htasks'.trans hrest, ?_⟩⟩
            exact fun e' he' => hother e' (List.mem_cons_of_mem _ he')
  | removing k | joining | joined =>
      rw [hpc] at hlife
      exact hactivated.trans hlife
  | cancelled | emcyReset | rpdoReset =>
      rw [hpc] at hlife
      exact ⟨hactivated.trans hlife.1, htimer.trans hlife.2⟩
  | _ =>
      rw [hpc] at hlife
      first
      | exact absurd hlife.2.2 hbusy
      | exact absurd hlife.2.2.1 hbusy

theorem safe_run {ok : Bool} (hs : Sound kind s) (hok : heeds kind s (.run ok) = true)
    (hstep : s.run kind ok = some r) : Safe kind r := by
  unfold DriverThreads.run at hstep
  split at hstep
  · cases hstep
  · cases htasks : s.tasks with
    | nil => simp [htasks] at hstep
    | cons head tasks =>
        obtain ⟨task, t⟩ := head
        simp only [htasks] at hstep
        cases hstep
        have hposted : ∀ e ∈ tasks, e.1 < s.posted := by
          intro e he
          exact hs.posted e (by rw [htasks]; exact List.mem_cons_of_mem _ he)
        refine .silent ?_
        cases t with
        | construct =>
            simp only [runTask]
            split
            · refine ⟨lifeSound_run (s := s) hs htasks rfl rfl rfl ?_, hposted, fun _ => rfl,
                fun _ => rfl, hs.emcyQueue, hs.rpdoQueue, hs.pollTimer⟩
              by_cases hcall : s.life = .adding task
              · exact .inr ⟨hcall, rfl⟩
              · left
                simp [hcall]
            · exact ⟨lifeSound_run (s := s) hs htasks rfl rfl rfl (.inl rfl), hposted, hs.listener,
                hs.callback, hs.emcyQueue, hs.rpdoQueue, hs.pollTimer⟩
        | reset =>
            have hidle : s.listener.any ListenerPc.needsBridge = false ∧
                s.poll.any (PollPc.needsBridge kind) = false := by
              simpa [heeds, htasks] using hok
            refine Sound.releaseBridge (s := { s with tasks := tasks, lelyDriver := false })
              ⟨lifeSound_run (s := s) hs htasks rfl rfl rfl (.inl rfl), hposted,
                fun h => absurd h (by simp [hidle.1]), fun h => absurd h (by simp [hidle.2]),
                hs.emcyQueue, hs.rpdoQueue, hs.pollTimer⟩ fun _ => ?_
            exact lifeSound_run (s := s) hs htasks rfl rfl rfl (.inl rfl)
        | release =>
            refine Sound.releaseBridge (s := { s with tasks := tasks, motors := false })
              ⟨lifeSound_run (s := s) hs htasks rfl rfl rfl (.inl rfl), hposted, hs.listener,
                hs.callback, hs.emcyQueue, hs.rpdoQueue, hs.pollTimer⟩ fun _ => ?_
            exact lifeSound_run (s := s) hs htasks rfl rfl rfl (.inl rfl)

/-! ### The callback and the listener -/

/-- While the driver is activated, or about to be, its listener goes on. -/
theorem runs_of_activates (hs : Sound kind s) (hactivates : s.activates = true) :
    s.listener.any ListenerPc.runs = true := by
  have hlife := hs.life
  cases hpc : s.life with
  | idle =>
      rw [hpc] at hlife
      have hactivated : s.activated = true := by
        simpa [activates, hpc, LifePc.starting] using hactivates
      exact (hlife hactivated).2.2.2.2
  | started | emcySet | rpdoSet | hooked =>
      rw [hpc] at hlife
      first
      | exact hlife.2.2.2
      | exact hlife.2.2.2.1
  | removing task | joining | joined =>
      rw [hpc] at hlife
      simp [activates, hpc, LifePc.starting, show s.activated = false from hlife] at hactivates
  | _ =>
      rw [hpc] at hlife
      simp [activates, hpc, LifePc.starting, hlife.1] at hactivates

/-- The listener goes to another point. -/
theorem Sound.setListener (hs : Sound kind s) (pc : ListenerPc)
    (hneeds : pc.needsBridge = true → s.lelyDriver = true)
    (hruns : s.activates = true → pc.runs = true) :
    Sound kind { s with listener := some pc } where
  life := by
    have hlife := hs.life
    unfold activates at hruns
    cases hpc : s.life with
    | idle =>
        rw [hpc] at hlife hruns
        intro hactivated
        obtain ⟨hbridge, htasks, hemcy, hrpdo, -⟩ := hlife hactivated
        exact ⟨hbridge, htasks, hemcy, hrpdo, hruns (by simp [show s.activated = true from
          hactivated])⟩
    | started =>
        rw [hpc] at hlife hruns
        obtain ⟨hactivated, hbridge, htasks, -⟩ := hlife
        exact ⟨hactivated, hbridge, htasks, hruns (by simp [LifePc.starting])⟩
    | emcySet =>
        rw [hpc] at hlife hruns
        obtain ⟨hactivated, hbridge, htasks, -, hemcy⟩ := hlife
        exact ⟨hactivated, hbridge, htasks, hruns (by simp [LifePc.starting]), hemcy⟩
    | rpdoSet | hooked =>
        rw [hpc] at hlife hruns
        obtain ⟨hactivated, hbridge, htasks, -, hqueues⟩ := hlife
        exact ⟨hactivated, hbridge, htasks, hruns (by simp [LifePc.starting]), hqueues⟩
    | _ =>
        rw [hpc] at hlife
        exact hlife
  posted := hs.posted
  listener := hneeds
  callback := hs.callback
  emcyQueue := hs.emcyQueue
  rpdoQueue := hs.rpdoQueue
  pollTimer := hs.pollTimer

/-- **A step of the listener**: it has its bridge when it asks it. -/
theorem safe_listenerStep {ok : Bool} (hs : Sound kind s)
    (hok : heeds kind s (.listener ok) = true) (hstep : s.listenerStep kind ok = some r) :
    Safe kind r := by
  have hbridge := hs.listener
  have hruns := runs_of_activates hs
  unfold listenerStep at hstep
  cases hlistener : s.listener with
  | none => simp [hlistener] at hstep
  | some pc =>
      rw [hlistener] at hbridge hruns
      cases pc with
      | ended => simp [hlistener] at hstep
      | requesting =>
          simp only [hlistener] at hstep
          cases ok with
          | true =>
              cases hstep
              exact .follow (hbridge rfl) (hs.setListener _ (by simp [ListenerPc.needsBridge])
                fun _ => rfl)
          | false =>
              cases hstep
              have hidle : s.activates = false := by
                simpa [heeds, hlistener] using hok
              exact .silent (hs.setListener .ended (by simp [ListenerPc.needsBridge])
                fun h => absurd h (by simp [hidle]))
      | waiting state =>
          cases state with
          | pending => simp [hlistener] at hstep
          | arrived =>
              simp only [hlistener] at hstep
              cases hstep
              exact .silent (hs.setListener .received (fun _ => hbridge rfl) fun _ => rfl)
          | broken =>
              simp only [hlistener] at hstep
              cases hstep
              exact .silent (hs.setListener .ended (by simp [ListenerPc.needsBridge])
                fun h => absurd (hruns h) (by simp [ListenerPc.runs]))
      | received =>
          simp only [hlistener] at hstep
          have hnext : Sound kind { s with listener := some .reported } :=
            hs.setListener .reported (fun _ => hbridge rfl) fun _ => rfl
          split at hstep
          · cases hstep
            exact .follow (hbridge rfl) hnext
          · cases hstep
            exact .silent hnext
      | reported =>
          simp only [hlistener] at hstep
          cases hstep
          exact .silent (hs.setListener _ (fun _ => hbridge rfl) fun _ => by split <;> rfl)
      | logging =>
          simp only [hlistener] at hstep
          cases hstep
          exact .follow (hbridge rfl) (hs.setListener _ (fun _ => hbridge rfl) fun _ => rfl)

theorem safe_listenerTimeout (hs : Sound kind s) (hok : heeds kind s .listenerTimeout = true)
    (hstep : s.listenerTimeout = some r) : Safe kind r := by
  have hbridge := hs.listener
  have hruns := runs_of_activates hs
  unfold listenerTimeout at hstep
  cases hlistener : s.listener with
  | none => simp [hlistener] at hstep
  | some pc =>
      cases pc with
      | waiting state =>
          simp only [hlistener] at hstep
          cases hstep
          rw [hlistener] at hbridge hruns
          have hlate : s.life.starting = false := by
            simpa [heeds] using hok
          by_cases hactivated : s.activated = true
          · simp only [if_pos hactivated]
            exact .silent (hs.setListener (.waiting state) hbridge hruns)
          · simp only [if_neg hactivated]
            exact .silent (hs.setListener .ended (by simp [ListenerPc.needsBridge])
              fun h => absurd h (by simp [activates, hactivated, hlate]))
      | _ => simp [hlistener] at hstep

theorem safe_listenerThrow {futureError : Bool} (hs : Sound kind s)
    (hok : heeds kind s (.listenerThrow futureError) = true)
    (hstep : s.listenerThrow futureError = some r) : Safe kind r := by
  have hidle : s.activates = false := by
    simpa [heeds] using hok
  have hended : Sound kind { s with listener := some .ended } :=
    hs.setListener .ended (by simp [ListenerPc.needsBridge])
      fun h => absurd h (by simp [hidle])
  have hthrown : (if futureError then some ({ s with listener := some .ended }, [])
      else some ({ s with terminated := true }, [ThreadEvent.terminate])) = some r →
        Safe kind r := by
    intro heq
    cases futureError with
    | true =>
        cases heq
        exact .silent hended
    | false =>
        cases heq
        exact .emit hs.terminate (by simp)
  unfold listenerThrow at hstep
  split at hstep
  · exact hthrown hstep
  · exact hthrown hstep
  · exact hthrown hstep
  · cases hstep

theorem safe_nmtState (hs : Sound kind s) (hok : heeds kind s .nmtState = true)
    (hstep : s.nmtState kind = some r) : Safe kind r := by
  unfold nmtState at hstep
  split at hstep
  · cases hstep
  · split at hstep
    · next hpending =>
        cases hstep
        have hbridge : s.lelyDriver = true := by
          simpa [heeds, hpending] using hok
        exact .silent (hs.setListener (.waiting .arrived) (fun _ => hbridge) fun _ => rfl)
    · cases hstep
      exact .silent hs

/-- The callback goes to another point. -/
theorem Sound.setPoll (hs : Sound kind s) (poll : Option PollPc)
    (hneeds : poll.any (PollPc.needsBridge kind) = true → s.lelyDriver = true)
    (hemcy : poll.any PollPc.usesEmcyQueue = true → s.emcyQueue = true)
    (hrpdo : poll.any PollPc.usesRpdoQueue = true → s.rpdoQueue = true) :
    Sound kind { s with poll := poll } where
  life := by
    have hlife := hs.life
    revert hlife
    cases s.life <;> exact id
  posted := hs.posted
  listener := hs.listener
  callback := hneeds
  emcyQueue := hemcy
  rpdoQueue := hrpdo
  pollTimer := hs.pollTimer

theorem safe_callback {hook : Bool} (hs : Sound kind s)
    (hhook : hook = true → s.emcyQueue = true ∧ s.rpdoQueue = true)
    (hstep : s.callback hook = some r) : Safe kind r := by
  unfold callback at hstep
  split at hstep
  · next hbegins =>
      cases hstep
      obtain ⟨hemcy, hrpdo⟩ := hhook (Bool.and_eq_true_iff.mp hbegins).1
      exact .silent (hs.setPoll (some (.emcy 0)) (by simp [PollPc.needsBridge]) (fun _ => hemcy)
        fun _ => hrpdo)
  · cases hstep

/-- **A step of the callback**: it has its queue and its bridge when it looks into them. -/
theorem safe_pollStep {ok : Bool} (hs : Sound kind s) (hok : heeds kind s (.poll ok) = true)
    (hstep : s.pollStep kind ok = some r) : Safe kind r := by
  have hbridge := hs.callback
  have hemcy := hs.emcyQueue
  have hrpdo := hs.rpdoQueue
  unfold pollStep at hstep
  cases hpoll : s.poll with
  | none => simp [hpoll] at hstep
  | some pc =>
      rw [hpoll] at hbridge hemcy hrpdo
      cases pc with
      | emcy i =>
          simp only [hpoll] at hstep
          cases hstep
          refine .follow (hemcy rfl) (hs.setPoll _ ?_ (fun _ => hemcy rfl) fun _ => hrpdo rfl)
          cases ok with
          | false => simp [PollPc.needsBridge]
          | true =>
              intro hcb
              have hcb' : kind.emcyCb = true := hcb
              simpa [heeds, hpoll, hcb'] using hok
      | emcyPopped i =>
          simp only [hpoll] at hstep
          have hnext : Sound kind { s with
              poll := some (if ok && decide (i + 1 < 10) then .emcy (i + 1) else .rpdo 0) } := by
            refine hs.setPoll _ ?_ ?_ fun _ => hrpdo rfl
            · split <;> simp [PollPc.needsBridge]
            · split
              · next hmore => exact fun _ => hemcy (Bool.and_eq_true_iff.mp hmore).2
              · simp [PollPc.usesEmcyQueue]
          split at hstep
          · next hcb =>
              cases hstep
              exact .follow (hbridge hcb) hnext
          · cases hstep
            exact .silent hnext
      | rpdo i =>
          simp only [hpoll] at hstep
          cases hstep
          refine .follow (hrpdo rfl) (hs.setPoll _ ?_ ?_ fun _ => hrpdo rfl)
          · cases ok with
            | false => simp [PollPc.needsBridge]
            | true =>
                intro hcb
                have hcb' : kind.rpdoCb = true := hcb
                simpa [heeds, hpoll, hcb'] using hok
          · cases ok <;> simp [PollPc.usesEmcyQueue]
      | rpdoPopped i =>
          simp only [hpoll] at hstep
          have hnext : Sound kind { s with
              poll := some (if ok && decide (i + 1 < 10) then .rpdo (i + 1) else .motors) } := by
            refine hs.setPoll _ ?_ ?_ ?_
            · split <;> simp [PollPc.needsBridge]
            · split <;> simp [PollPc.usesEmcyQueue]
            · split
              · next hmore => exact fun _ => hrpdo (Bool.and_eq_true_iff.mp hmore).2
              · simp [PollPc.usesRpdoQueue]
          split at hstep
          · next hcb =>
              cases hstep
              exact .follow (hbridge hcb) hnext
          · cases hstep
            exact .silent hnext
      | motors =>
          simp only [hpoll] at hstep
          cases hstep
          exact .silent (hs.setPoll none (by simp) (by simp) (by simp))

/-- **A step** at a moment at which it does no harm is safe. -/
theorem safe_step {i : ThreadInput} (hs : Sound kind s) (hok : heeds kind s i = true)
    (hstep : s.step kind i = some r) : Safe kind r := by
  unfold DriverThreads.step at hstep
  split at hstep
  · cases hstep
  · cases i with
    | activate => exact safe_activate hs hstep
    | deactivate => exact safe_deactivate hs hstep
    | ready => exact safe_ready hs hstep
    | timeout => exact safe_timeout hs hstep
    | proceed ok => exact safe_proceed hs hok hstep
    | fail => exact safe_fail hs hstep
    | run ok => exact safe_run hs hok hstep
    | nmtState => exact safe_nmtState hs hok hstep
    | sync =>
        refine safe_callback hs (fun _ => ?_) hstep
        simpa [heeds] using hok
    | timer => exact safe_callback hs hs.pollTimer hstep
    | poll ok => exact safe_pollStep hs hok hstep
    | listener ok => exact safe_listenerStep hs hok hstep
    | listenerTimeout => exact safe_listenerTimeout hs hok hstep
    | listenerThrow futureError => exact safe_listenerThrow hs hok hstep

end Steps

theorem sound_configured (kind : DriverKind) : Sound kind configured where
  life := lifeSound_idle rfl
  posted t ht := by cases ht
  listener h := by cases h
  callback h := by cases h
  emcyQueue h := by cases h
  rpdoQueue h := by cases h
  pollTimer h := by cases h

/-- The runs of such steps. -/
theorem safe_of_reach {kind : DriverKind} {h : List ThreadEvent} {s : DriverThreads}
    (hr : Reach (system kind) (heeded kind) h s) :
    Sound kind s ∧ ∀ p, .used p true ∉ h := by
  refine hr.invariant (I := fun h s => Sound kind s ∧ ∀ p, .used p true ∉ h) ?_ ?_
  · rintro _ rfl
    exact ⟨sound_configured kind, by simp⟩
  · intro h s i s' es hinv hok hstep
    obtain ⟨hsound, hnull⟩ := safe_step hinv.1 hok hstep
    refine ⟨hsound, fun p hmem => ?_⟩
    rcases List.mem_append.mp hmem with hmem | hmem
    · exact hnull p hmem
    · exact hinv.2 p hmem

/-- `nmt_listener` has not returned. -/
def listens (s : DriverThreads) : Bool := s.listener.any fun pc => pc ≠ .ended

end DriverThreads

/-- **No use of the bridge after its removal.**  Along every run in which the removals, the
messages and the waits come at harmless moments, no null pointer is followed; and while the driver
is activated its listener goes on. -/
theorem never_null_of_heeded {kind : DriverKind} {h : List ThreadEvent} {s : DriverThreads}
    (hr : Reach (DriverThreads.system kind) (DriverThreads.heeded kind) h s) :
    (∀ p, .used p true ∉ h) ∧ (s.activated = true → s.listens = true) := by
  obtain ⟨hsound, hnull⟩ := DriverThreads.safe_of_reach hr
  refine ⟨hnull, fun hactivated => ?_⟩
  have hruns := DriverThreads.runs_of_activates hsound (by simp [DriverThreads.activates,
    hactivated])
  obtain ⟨pc, hpc, hgoes⟩ := Option.any_eq_true _ _ |>.mp hruns
  rw [DriverThreads.listens, hpc]
  cases pc with
  | ended => cases hgoes
  | _ => rfl

/-! ## Runs -/

namespace ThreadInput

/-- `activate`, up to the start of the listener. -/
def starts : List ThreadInput :=
  [.activate, .run true, .ready, .proceed true, .proceed true, .proceed true]

/-- The rest of `activate`. -/
def activates : List ThreadInput := List.replicate 4 (.proceed true)

/-- `deactivate`, with the removal of the bridge. -/
def removes : List ThreadInput := [.deactivate, .proceed true, .run true, .ready]

end ThreadInput

/-- A proxy that polls, with callbacks for the NMT state and the PDOs. -/
def pollingProxy : DriverKind := ⟨true, true, false, true, true, false⟩

/-- A CiA 402 driver that runs with the SYNC. -/
def syncMotors : DriverKind := ⟨false, false, false, false, true, true⟩

open ThreadInput in
/-- A proxy is activated, hears of its NMT state, receives a PDO and is deactivated. -/
theorem never_null_pollingProxy : ∃ h s,
    Reach (DriverThreads.system pollingProxy) (DriverThreads.heeded pollingProxy) h s ∧
      s.activated = false ∧ s.rpdoQueue = false ∧ .used .rpdoQueue false ∈ h ∧
      ∀ p, .used p true ∉ h := by
  have hrun : ((DriverThreads.system pollingProxy).runIf
      (fun _ => DriverThreads.heeds pollingProxy)
      (starts ++ [.listener true] ++ activates ++ [.nmtState] ++
        List.replicate 5 (.listener true) ++
        [.timer, .poll false, .poll true, .poll true, .poll false, .poll true] ++ removes ++
        [.listener true] ++ List.replicate 5 (.proceed true)) [] .configured).any
        (fun p => decide (p.2.activated = false ∧ p.2.rpdoQueue = false ∧ p.2.life = .idle ∧
          .used .rpdoQueue false ∈ p.1)) = true := by
    decide +kernel
  have hstart : (DriverThreads.system pollingProxy).init .configured := rfl
  obtain ⟨h, s, hr, hs⟩ := System.exists_reach_runIf _ (.init hstart) (fun _ _ _ hok => hok) hrun
  obtain ⟨hactivated, hrpdo, -, hused⟩ := of_decide_eq_true hs
  exact ⟨h, s, hr, hactivated, hrpdo, hused, (never_null_of_heeded hr).1⟩

/-- A null pointer that a run of the steps follows. -/
theorem used_of_run (kind : DriverKind) (p : Pointer) (is : List ThreadInput)
    (hrun : ((DriverThreads.system kind).run is [] .configured).any
      (fun r => decide (.used p true ∈ r.1)) = true) :
    ∃ h s, Reach (DriverThreads.system kind) Guard.free h s ∧ .used p true ∈ h := by
  obtain ⟨h, s, hr, hs⟩ := System.exists_reach_run _ (.init rfl) hrun
  exact ⟨h, s, hr, of_decide_eq_true hs⟩

open ThreadInput in
/-- A short wait ends the listener before `activated_` is set; a state that has arrived takes the
listener back to a bridge that is gone; the callback of a timer looks into a queue that is reset;
and a SYNC of the bridge that the motors keep does so, too. -/
theorem removal_races :
    (∃ h s, Reach (DriverThreads.system pollingProxy) Guard.free h s ∧
      s.activated = true ∧ s.listens = false) ∧
    (∃ h s, Reach (DriverThreads.system pollingProxy) Guard.free h s ∧
      .used .lelyDriver true ∈ h) ∧
    (∃ h s, Reach (DriverThreads.system pollingProxy) Guard.free h s ∧
      .used .emcyQueue true ∈ h) ∧
    ∃ h s, Reach (DriverThreads.system syncMotors) Guard.free h s ∧
      .used .emcyQueue true ∈ h := by
  refine ⟨?_, ?_, ?_, ?_⟩
  · have hrun : ((DriverThreads.system pollingProxy).run
        (starts ++ [.listener true, .listenerTimeout] ++ activates) [] .configured).any
          (fun r => r.2.activated && !r.2.listens) = true := by
      decide +kernel
    have hstart : (DriverThreads.system pollingProxy).init .configured := rfl
    obtain ⟨h, s, hr, hs⟩ := System.exists_reach_run _ (.init hstart) hrun
    simp only [Bool.and_eq_true, Bool.not_eq_true'] at hs
    exact ⟨h, s, hr, hs⟩
  · refine used_of_run pollingProxy .lelyDriver (starts ++ [.listener true] ++ activates ++
      [.nmtState, .listener true] ++ removes ++ [.listener true]) ?_
    decide +kernel
  · refine used_of_run pollingProxy .emcyQueue (starts ++ [.listener true] ++ activates ++
      [.timer] ++ removes ++ [.listener true] ++ List.replicate 3 (.proceed true) ++
      [.poll false]) ?_
    decide +kernel
  · refine used_of_run syncMotors .emcyQueue (starts ++ [.listener true] ++ activates ++
      removes ++ [.listenerTimeout] ++ List.replicate 3 (.proceed true) ++
      [.sync, .poll false]) ?_
    decide +kernel

end RosCanopen.Core
