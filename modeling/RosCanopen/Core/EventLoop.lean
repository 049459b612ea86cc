import RosCanopen.Bridge.Codec
import RosCanopen.Core.PollCycle

/-!
# The thread of the event loop

One thread runs all callbacks of Lely, among them the completions of SDO requests and, in event
mode, the cycle of polling.  An access of the cycle to an object in no PDO goes through the SDO
channel of the bridge like that of any other thread: it may wait on `sdo_cond`, and it waits for
the future of its own request.  No completion runs meanwhile.

## Main definitions

* `LoopPc`, `EventLoop`, `EventLoop.system` — the thread, with the SDO channel and its callers.
* `LoopPc.waits` — the thread waits.
* `EventLoop.calm` — a step that leaves it running.
-/

namespace RosCanopen.Core

open Lib Bridge

/-- Where the thread is. -/
inductive LoopPc
  /-- It waits for the next callback. -/
  | idle
  /-- In the completion of a request, with the promise fulfilled. -/
  | completing
  /-- In the cycle, with these accesses to make. -/
  | polling (todo : List Access)
  /-- In `sdo_cond.wait`, for the call. -/
  | atCond (call : CallId) (todo : List Access)
  /-- In `wait_for` on the future of the call. -/
  | atFuture (call : CallId) (todo : List Access)

namespace LoopPc

/-- The thread waits for another request, or for its own. -/
def waits : LoopPc → Bool
  | atCond _ _ | atFuture _ _ => true
  | idle | completing | polling _ => false

/-- Go on with the cycle. -/
def go : List Access → LoopPc
  | [] => idle
  | a :: todo => polling (a :: todo)

end LoopPc

structure EventLoop where
  sdo : Sdo
  pc : LoopPc

/-- The callbacks that make no request. -/
inductive LoopCallback
  | onState
  | onBoot
  | onRpdoWrite
  | onEmcy
  | posted
  deriving DecidableEq

inductive LoopInput
  /-- A call of another thread at the channel, or the completion of a request. -/
  | channel (label : Label)
  | callback (callback : LoopCallback)
  | onSync (turns : List (Option ChannelTurn))
  /-- The next access of the cycle. -/
  | access (env : Bridge.Env)
  /-- The future is fulfilled, or the time is up. -/
  | awaken

inductive LoopEvent
  | sdo (e : Bridge.Event)
  | ran (callback : LoopCallback)
  | accessed (a : Access)
  | timedOut (call : CallId)
  deriving DecidableEq

namespace EventLoop

/-- The thread behind the beginning of its call: an exception ends the cycle, a future that is
fulfilled is not waited for. -/
def begun (call : CallId) (todo : List Access) (sdo : Sdo) (es : List Bridge.Event) : LoopPc :=
  if .threw call ∈ es then .idle
  else
    match sdo.promises call with
    | .settled _ => .go todo
    | .absent | .pending => .atFuture call todo

/-- The completions run on the thread, one at a time; a waiting access is resumed like any
other caller. -/
def afterChannel (s : EventLoop) (label : Label) (sdo : Sdo) (es : List Bridge.Event) :
    Option LoopPc :=
  match label, s.pc with
  | .deliver _ _, .idle => some .completing
  | .release _ _, .completing => some .idle
  | .deliver _ _, _ | .release _ _, _ => none
  | _, .atCond call todo =>
      match label.begins s.sdo with
      | some (c, _) => some (if c.id = call then begun call todo sdo es else s.pc)
      | none => some s.pc
  | _, pc => some pc

def step (cfg : NodeConfig) (s : EventLoop) : LoopInput → Option (EventLoop × List LoopEvent)
  | .channel label =>
      match (Sdo.system cfg.driver.toLelyDriverBridge).step s.sdo label with
      | none => none
      | some (sdo, es) => (s.afterChannel label sdo es).map fun pc => (⟨sdo, pc⟩, es.map .sdo)
  | .callback callback =>
      match s.pc with
      | .idle => some (s, [.ran callback])
      | _ => none
  | .onSync turns =>
      match s.pc with
      | .idle =>
          -- in polling mode no function is set
          if cfg.polling then some (s, [])
          else if cfg.accepts turns then
            some ({ s with pc := .go (cfg.pollTimerCallback turns) }, [])
          else none
      | _ => none
  | .access env =>
      match s.pc with
      | .polling (a :: todo) =>
          if a.mapped cfg.driver then
            some ({ s with pc := if a.throws cfg.driver then .idle else .go todo }, [.accessed a])
          else
            match (Sdo.system cfg.driver.toLelyDriverBridge).step s.sdo (.arrive a.request env) with
            | none => none
            | some (sdo, es) =>
                some (⟨sdo, if s.sdo.running then .atCond s.sdo.nextCall todo
                  else begun s.sdo.nextCall todo sdo es⟩, es.map .sdo ++ [.accessed a])
      | _ => none
  | .awaken =>
      match s.pc with
      | .atFuture call todo =>
          match s.sdo.promises call with
          | .settled _ => some ({ s with pc := .go todo }, [])
          | .absent | .pending => some ({ s with pc := .go todo }, [.timedOut call])
      | _ => none

/-- The thread after the activation of the node, with nothing going on at the channel. -/
def system (cfg : NodeConfig) : System EventLoop LoopInput LoopEvent where
  init s := (Sdo.system cfg.driver.toLelyDriverBridge).init s.sdo ∧ s.pc = .idle
  step := step cfg

/-- The step is no access that has to wait: the object is in a PDO, or the channel is free, and
the object does not exist or the submission throws. -/
def calm (b : DriverNode) (s : EventLoop) : LoopInput → Bool
  | .access env =>
      match s.pc with
      | .polling (a :: _) =>
          a.mapped b ||
            !s.sdo.running && (!b.hasObject a.object || env.submitError.isSome)
      | _ => true
  | _ => true

end EventLoop

/-! ## When an access waits -/

section Accesses

@[simp] theorem waits_go (todo : List Access) : (LoopPc.go todo).waits = false := by
  cases todo <;> rfl

theorem object_request (b : DriverNode) (a : Access) :
    b.toLelyDriverBridge.object a.request = b.typeOf a.object := by
  cases a <;> rfl

theorem begin_request (b : LelyDriverBridge) (a : Access) (call : CallId) (env : Bridge.Env)
    (s : Sdo) : ∃ missing, Bridge.begin b ⟨call, a.request⟩ env s =
      asyncSdoTyped b ⟨call, a.request⟩ env s missing := by
  cases a <;> exact ⟨_, rfl⟩

theorem promises_notifyOne (s : Sdo) (pick : ℕ) : (s.notifyOne pick).promises = s.promises := by
  obtain ⟨w, n, heq⟩ := s.notifyOne_eq pick
  rw [heq]

/-- **A call that begins waits for its future** when its request has been submitted. -/
theorem waits_begun (b : DriverNode) (a : Access) (call : CallId) (todo : List Access)
    (env : Bridge.Env) (s : Sdo) :
    (EventLoop.begun call todo (Bridge.begin b.toLelyDriverBridge ⟨call, a.request⟩ env s).1
      (Bridge.begin b.toLelyDriverBridge ⟨call, a.request⟩ env s).2).waits =
        (b.hasObject a.object && !env.submitError.isSome) := by
  obtain ⟨missing, hbegin⟩ := begin_request b.toLelyDriverBridge a call env s
  rw [hbegin, DriverNode.hasObject]
  simp only [asyncSdoTyped, object_request]
  cases hobject : b.typeOf a.object with
  | none =>
      simp [EventLoop.begun, Sdo.handOut, promises_notifyOne, Sdo.finish, Sdo.settle]
  | some type =>
      cases hsubmit : env.submitError with
      | none =>
          simp [EventLoop.begun, Sdo.handOut, Sdo.submit, Sdo.create, LoopPc.waits]
      | some code => simp [EventLoop.begun, LoopPc.waits]

end Accesses

/-! ## What a step does -/

/-- Everything that a step can do. -/
inductive LoopStepped (cfg : NodeConfig) (s : EventLoop) :
    LoopInput → EventLoop → List LoopEvent → Prop
  | channel {label : Label} {sdo : Sdo} {es : List Bridge.Event} {pc : LoopPc}
      (hafter : s.afterChannel label sdo es = some pc) :
      LoopStepped cfg s (.channel label) ⟨sdo, pc⟩ (es.map .sdo)
  | callback (callback : LoopCallback) : LoopStepped cfg s (.callback callback) s [.ran callback]
  | ignored (turns : List (Option ChannelTurn)) : LoopStepped cfg s (.onSync turns) s []
  | cycle {turns : List (Option ChannelTurn)} (hpolling : ¬ cfg.polling = true)
      (haccepts : cfg.accepts turns = true) :
      LoopStepped cfg s (.onSync turns) { s with pc := .go (cfg.pollTimerCallback turns) } []
  | mapped {a : Access} {todo : List Access} (env : Bridge.Env) (hpc : s.pc = .polling (a :: todo))
      (hmapped : a.mapped cfg.driver = true) :
      LoopStepped cfg s (.access env)
        { s with pc := if a.throws cfg.driver then .idle else .go todo } [.accessed a]
  | requested {a : Access} {todo : List Access} {env : Bridge.Env} {sdo : Sdo}
      {es : List Bridge.Event} (hpc : s.pc = .polling (a :: todo))
      (hmapped : a.mapped cfg.driver = false)
      (hsdo : (Sdo.system cfg.driver.toLelyDriverBridge).step s.sdo (.arrive a.request env) =
        some (sdo, es)) :
      LoopStepped cfg s (.access env)
        ⟨sdo, if s.sdo.running then .atCond s.sdo.nextCall todo
          else EventLoop.begun s.sdo.nextCall todo sdo es⟩ (es.map .sdo ++ [.accessed a])
  | awoken {call : CallId} {todo : List Access} {es : List LoopEvent}
      (hpc : s.pc = .atFuture call todo) :
      LoopStepped cfg s .awaken { s with pc := .go todo } es

section Steps
variable {cfg : NodeConfig} {s s' : EventLoop} {i : LoopInput} {es : List LoopEvent}

theorem loopStepped_of_step (hstep : s.step cfg i = some (s', es)) : LoopStepped cfg s i s' es := by
  cases i with
  | channel label =>
      simp only [EventLoop.step] at hstep
      split at hstep
      · cases hstep
      · obtain ⟨pc, hafter, heq⟩ := Option.map_eq_some_iff.mp hstep
        obtain ⟨rfl, rfl⟩ := Prod.mk.inj heq
        exact .channel hafter
  | callback callback =>
      simp only [EventLoop.step] at hstep
      split at hstep
      · obtain ⟨rfl, rfl⟩ := Prod.mk.inj (Option.some.inj hstep)
        exact .callback callback
      · cases hstep
  | onSync turns =>
      simp only [EventLoop.step] at hstep
      split at hstep
      · split at hstep
        · obtain ⟨rfl, rfl⟩ := Prod.mk.inj (Option.some.inj hstep)
          exact .ignored turns
        · next hpolling =>
            split at hstep
            · next haccepts =>
                obtain ⟨rfl, rfl⟩ := Prod.mk.inj (Option.some.inj hstep)
                exact .cycle hpolling haccepts
            · cases hstep
      · cases hstep
  | access env =>
      simp only [EventLoop.step] at hstep
      split at hstep
      · next a todo hpc =>
          split at hstep
          · next hmapped =>
              obtain ⟨rfl, rfl⟩ := Prod.mk.inj (Option.some.inj hstep)
              exact .mapped env hpc hmapped
          · next hmapped =>
              split at hstep
              · cases hstep
              · next sdo es' hsdo =>
                  obtain ⟨rfl, rfl⟩ := Prod.mk.inj (Option.some.inj hstep)
                  exact .requested hpc (Bool.eq_false_of_not_eq_true hmapped) hsdo
      · cases hstep
  | awaken =>
      simp only [EventLoop.step] at hstep
      split at hstep
      · next hpc =>
          split at hstep
          · obtain ⟨rfl, rfl⟩ := Prod.mk.inj (Option.some.inj hstep)
            exact .awoken hpc
          · obtain ⟨rfl, rfl⟩ := Prod.mk.inj (Option.some.inj hstep)
            exact .awoken hpc
          · obtain ⟨rfl, rfl⟩ := Prod.mk.inj (Option.some.inj hstep)
            exact .awoken hpc
      · cases hstep

/-- The channel moves the thread in and out of a completion, and a waiting access on. -/
theorem afterChannel_cases {label : Label} {sdo : Sdo} {es : List Bridge.Event} {pc : LoopPc}
    (hafter : s.afterChannel label sdo es = some pc) :
    pc = .idle ∨ pc = .completing ∨ pc = s.pc ∨ ∃ call todo, s.pc = .atCond call todo := by
  unfold EventLoop.afterChannel at hafter
  split at hafter
  · cases hafter
    exact .inr (.inl rfl)
  · cases hafter
    exact .inl rfl
  · cases hafter
  · cases hafter
  · next call todo _ _ hpc => exact .inr (.inr (.inr ⟨call, todo, hpc⟩))
  · cases hafter
    exact .inr (.inr (.inl rfl))

/-- A call that finds the flag down begins at once. -/
theorem begins_of_free {b : LelyDriverBridge} {sdo sdo' : Sdo} {request : Request}
    {env : Bridge.Env} {es : List Bridge.Event} (hrunning : sdo.running = false)
    (hstep : (Sdo.system b).step sdo (.arrive request env) = some (sdo', es)) :
    (sdo', es) = Bridge.begin b ⟨sdo.nextCall, request⟩ env
      { sdo with nextCall := sdo.nextCall + 1 } := by
  simp only [Sdo.system, Sdo.step, hrunning, Bool.false_eq_true, if_false] at hstep
  split at hstep
  · cases hstep
  · exact (Option.some.inj hstep).symm

/-- **A step makes the thread wait exactly when it is not calm.** -/
theorem waits_step_iff (hs : s.pc.waits = false) (hstep : s.step cfg i = some (s', es)) :
    s'.pc.waits = true ↔ s.calm cfg.driver i = false := by
  cases loopStepped_of_step hstep with
  | @channel label sdo es pc hafter =>
      have hpc : pc.waits = false := by
        obtain rfl | rfl | rfl | ⟨call, todo, hpc⟩ := afterChannel_cases hafter
        · rfl
        · rfl
        · exact hs
        · rw [hpc] at hs
          cases hs
      simp [hpc, EventLoop.calm]
  | callback => simp [hs, EventLoop.calm]
  | ignored => simp [hs, EventLoop.calm]
  | cycle => simp [EventLoop.calm]
  | mapped env hpc hmapped =>
      simp only [EventLoop.calm, hpc, hmapped, Bool.true_or, Bool.true_eq_false, iff_false,
        Bool.not_eq_true]
      split
      · rfl
      · exact waits_go _
  | @requested a todo env sdo es hpc hmapped hsdo =>
      simp only [EventLoop.calm, hpc, hmapped, Bool.false_or]
      cases hrunning : s.sdo.running with
      | true => simp [LoopPc.waits]
      | false =>
          have hwaits := waits_begun cfg.driver a s.sdo.nextCall todo env
            { s.sdo with nextCall := s.sdo.nextCall + 1 }
          rw [← begins_of_free hrunning hsdo] at hwaits
          simp only [Bool.false_eq_true, if_false, hwaits]
          cases cfg.driver.hasObject a.object <;> cases env.submitError <;> simp
  | awoken hpc =>
      rw [hpc] at hs
      cases hs

/-- In a run the thread never waits exactly when no step of it makes it wait. -/
theorem never_waits_recorded {rs : List (Record EventLoop LoopInput LoopEvent)}
    (hr : Reach (EventLoop.system cfg).recorded Guard.free rs s) :
    ((∀ r ∈ rs, r.state.pc.waits = false) ∧ s.pc.waits = false) ↔
      ∀ r ∈ rs, r.state.calm cfg.driver r.input = true := by
  induction hr with
  | init hs =>
      obtain ⟨-, hpc⟩ := hs
      simp [hpc, LoopPc.waits]
  | @step rs s s' i rs' hr _ hstep ih =>
      obtain ⟨es, hemits, rfl⟩ := System.recorded_step hstep
      simp only [List.cons_append, List.nil_append, List.forall_mem_cons]
      constructor
      · rintro ⟨⟨hs, hrs⟩, hs'⟩
        refine ⟨?_, ih.mp ⟨hrs, hs⟩⟩
        by_contra hcalm
        have hwaits := (waits_step_iff hs hemits).mpr (Bool.not_eq_true _ ▸ hcalm)
        exact absurd (hs'.symm.trans hwaits) (by simp)
      · rintro ⟨hcalm, hrest⟩
        obtain ⟨hrs, hs⟩ := ih.mpr hrest
        refine ⟨⟨hs, hrs⟩, ?_⟩
        by_contra hwaits
        have hdisturbed := (waits_step_iff hs hemits).mp (Bool.not_eq_false _ ▸ hwaits)
        exact absurd (hcalm.symm.trans hdisturbed) (by simp)

/-- An access times out only behind a wait. -/
theorem waits_of_timedOut {call : CallId} (hstep : s.step cfg i = some (s', es))
    (htimed : .timedOut call ∈ es) : s.pc.waits = true := by
  cases loopStepped_of_step hstep with
  | awoken hpc =>
      rw [hpc]
      rfl
  | _ => simp at htimed

/-- While the thread waits no request is completed. -/
theorem deliver_of_waits (cfg : NodeConfig) (hwaits : s.pc.waits = true) (k : ℕ)
    (answer : Except ErrorCode Value) : s.step cfg (.channel (.deliver k answer)) = none := by
  simp only [EventLoop.step]
  split
  · rfl
  · cases hpc : s.pc with
    | atCond call todo => simp [EventLoop.afterChannel, hpc]
    | atFuture call todo => simp [EventLoop.afterChannel, hpc]
    | _ =>
        rw [hpc] at hwaits
        contradiction

end Steps

/-! ## Nodes whose thread never waits -/

/-- The thread does not wait, and has nothing left to access but mapped objects. -/
def LoopPc.Untroubled (b : DriverNode) : LoopPc → Prop
  | .idle | .completing => True
  | .polling todo => ∀ a ∈ todo, a.mapped b = true
  | .atCond _ _ | .atFuture _ _ => False

/-- The cycle is the timer's, or keeps to mapped objects. -/
def NodeConfig.Sheltered (cfg : NodeConfig) : Prop :=
  cfg.polling = true ∨ ∀ turns, cfg.accepts turns = true →
    ∀ a ∈ cfg.pollTimerCallback turns, a.mapped cfg.driver = true

section Sheltered
variable {cfg : NodeConfig} {s s' : EventLoop} {i : LoopInput} {es : List LoopEvent}

theorem untroubled_go {b : DriverNode} {todo : List Access}
    (htodo : ∀ a ∈ todo, a.mapped b = true) : (LoopPc.go todo).Untroubled b := by
  cases todo with
  | nil => trivial
  | cons a todo => exact htodo

theorem waits_of_untroubled {b : DriverNode} {pc : LoopPc} (h : pc.Untroubled b) :
    pc.waits = false := by
  cases pc with
  | atCond => cases h
  | atFuture => cases h
  | _ => rfl

theorem untroubled_step (hcfg : cfg.Sheltered) (hs : s.pc.Untroubled cfg.driver)
    (hstep : s.step cfg i = some (s', es)) : s'.pc.Untroubled cfg.driver := by
  cases loopStepped_of_step hstep with
  | channel hafter =>
      obtain rfl | rfl | rfl | ⟨call, todo, hpc⟩ := afterChannel_cases hafter
      · trivial
      · trivial
      · exact hs
      · rw [hpc] at hs
        cases hs
  | callback => exact hs
  | ignored => exact hs
  | cycle hpolling haccepts => exact untroubled_go (hcfg.resolve_left hpolling _ haccepts)
  | mapped env hpc hmapped =>
      rw [hpc] at hs
      dsimp only
      split
      · trivial
      · exact untroubled_go fun a ha => hs a (List.mem_cons_of_mem _ ha)
  | @requested a todo env sdo es hpc hmapped hsdo =>
      rw [hpc] at hs
      exact absurd ((hs a List.mem_cons_self).symm.trans hmapped) (by simp)
  | awoken hpc =>
      rw [hpc] at hs
      cases hs

theorem never_waits_of_sheltered (hcfg : cfg.Sheltered) {h : List LoopEvent}
    (hr : Reach (EventLoop.system cfg) Guard.free h s) : s.pc.waits = false := by
  refine waits_of_untroubled (b := cfg.driver) ?_
  refine hr.invariant (I := fun _ s => s.pc.Untroubled cfg.driver) ?_ ?_
  · rintro s ⟨-, hpc⟩
    rw [hpc]
    trivial
  · intro h s i s' es hs _ hstep
    exact untroubled_step hcfg hs hstep

end Sheltered

/-- **When the thread of the event loop never waits**: in a run, as long as every access of a
cycle is to a mapped object, or ends before its request is submitted; for a node, when it polls
on a timer or its cycles keep to mapped objects. -/
theorem event_loop_never_waits_iff (cfg : NodeConfig) :
    (∀ rs s, Reach (EventLoop.system cfg).recorded Guard.free rs s →
      (((∀ r ∈ rs, r.state.pc.waits = false) ∧ s.pc.waits = false) ↔
        ∀ r ∈ rs, r.state.calm cfg.driver r.input = true) ∧
      ((∀ r ∈ rs, r.state.pc.waits = false) → ∀ r ∈ rs, ∀ call, .timedOut call ∉ r.events)) ∧
    (cfg.Sheltered → ∀ h s, Reach (EventLoop.system cfg) Guard.free h s → s.pc.waits = false) ∧
    ∀ s : EventLoop, s.pc.waits = true → ∀ k answer,
      s.step cfg (.channel (.deliver k answer)) = none := by
  refine ⟨?_, ?_, ?_⟩
  · intro rs s hr
    refine ⟨never_waits_recorded hr, ?_⟩
    intro hnever r hmem call htimed
    obtain ⟨s', hstep⟩ := hr.step_of_mem hmem
    exact absurd ((hnever r hmem).symm.trans (waits_of_timedOut hstep htimed)) (by simp)
  · intro hcfg h s hr
    exact never_waits_of_sheltered hcfg hr
  · intro s hwaits k answer
    exact deliver_of_waits cfg hwaits k answer

/-! ## A thread that waits for itself -/

/-- A node for one drive in event mode, on a bridge without PDOs. -/
def unmappedDrive : NodeConfig := ⟨uniform .unsigned16, false, .cia402 1⟩

/-- The first read of a cycle waits for its future, and the time is up before the request, which
the drive has been sent, can be completed. -/
theorem cycle_waits_for_itself :
    ((EventLoop.system unmappedDrive).run
      [.onSync [some ⟨(Cia402.MotorSystem.zeroed 0 []).motor, Cia402.Env.velocity⟩],
        .access ⟨none, 0⟩] [] ⟨Sdo.constructed, .idle⟩).map (fun r => r.2.pc.waits) =
        some true ∧
    ((EventLoop.system unmappedDrive).run
      [.onSync [some ⟨(Cia402.MotorSystem.zeroed 0 []).motor, Cia402.Env.velocity⟩],
        .access ⟨none, 0⟩, .awaken] [] ⟨Sdo.constructed, .idle⟩).map (fun r => r.1) =
        some [.timedOut 0, .sdo (.submitted 0 0x6041 0 none),
          .accessed (.get (0x6041, 0) .unsigned16)] := by
  decide

end RosCanopen.Core
