import RosCanopen.Ros2Control.OneShot

/-!
# The NMT services of the proxy controller

`~/nmt_reset_node` and `~/nmt_start_node` set a one-shot and wait; the write of the hardware
clears the one-shot, runs the command of the driver and stores its result as the feedback.
The start waits for the feedback.  The reset waits for the one-shot to be cleared, which is
before the command runs, and may read a feedback that is not there yet.

## Main definitions

* `NmtServices`, `NmtServices.system` — the handlers and the write, step by step.
* `NmtServices.Truthful` — an answer is the result of the call's own command.
* `NmtServices.orderly` — the steps that keep it so.
-/

namespace RosCanopen.Ros2Control

open Lib Cia402
open CanopenNodeData (ofBool)

inductive NmtService
  | reset
  | start
  deriving DecidableEq

namespace NmtService

def ons (n : Ros2ControlNmtState) : NmtService → Double
  | reset => n.resetOns
  | start => n.startOns

def fbk (n : Ros2ControlNmtState) : NmtService → Double
  | reset => n.resetFbk
  | start => n.startFbk

def setOns (n : Ros2ControlNmtState) (x : Double) : NmtService → Ros2ControlNmtState
  | reset => { n with resetOns := x }
  | start => { n with startOns := x }

def setFbk (n : Ros2ControlNmtState) (x : Double) : NmtService → Ros2ControlNmtState
  | reset => { n with resetFbk := x }
  | start => { n with startFbk := x }

def command (n : Ros2ControlNmtState) : NmtService → Bool × Ros2ControlNmtState
  | reset => n.resetCommand
  | start => n.startCommand

/-- What `write` does after the command. -/
def next : NmtService → Server NmtService Bool
  | reset => .take start
  | start => .idle

/-- What ends the loop of the handler. -/
def seesEnd (n : Ros2ControlNmtState) : NmtService → Bool
  | reset => isNan n.resetOns
  | start => !isNan n.startFbk

end NmtService

/-- Where the handler is, of the service that is called. -/
inductive NmtHandler
  | idle
  /-- In its loop. -/
  | poll (k : NmtService)
  /-- `report success`. -/
  | read (k : NmtService)
  /-- `reset to nan`. -/
  | clear (k : NmtService) (success : Bool)
  deriving DecidableEq

/-- The service of the call in progress. -/
def NmtHandler.service : NmtHandler → Option NmtService
  | idle => none
  | poll k => some k
  | read k => some k
  | clear k _ => some k

structure NmtServices where
  nmtState : Ros2ControlNmtState
  handler : NmtHandler
  server : Server NmtService Bool

inductive NmtInput
  /-- A service is called, and sets its one-shot if `set_value` succeeds. -/
  | call (k : NmtService) (ok : Bool)
  /-- One turn of the loop: `rclcpp::ok` and the outcome of `get_optional`. -/
  | poll (running got : Bool)
  | read (got : Bool)
  | clear (ok : Bool)
  /-- A write comes to the node, which has a driver or not. -/
  | write (registered : Bool)
  /-- `reset_command` or `start_command`. -/
  | take
  /-- The command of the driver returns or throws. -/
  | run (result : Option Bool)
  | store
  deriving DecidableEq

namespace NmtServices

def step (s : NmtServices) :
    NmtInput → Option (NmtServices × List (OneShotEvent NmtService Bool))
  | .call k ok =>
      match s.handler with
      | .idle =>
          -- `kCommandValue`
          let nmtState := if ok then k.setOns s.nmtState (.fin 1) else s.nmtState
          some ({ s with nmtState := nmtState, handler := .poll k }, [.asked k])
      | _ => none
  | .poll running got =>
      match s.handler with
      | .poll k =>
          if running && !(got && k.seesEnd s.nmtState) then some (s, [])
          else some ({ s with handler := .read k }, [])
      | _ => none
  | .read got =>
      match s.handler with
      | .read k =>
          let feedback := k.fbk s.nmtState
          let success := got && !isNan feedback && toBool feedback
          some ({ s with handler := .clear k success }, [])
      | _ => none
  | .clear ok =>
      match s.handler with
      | .clear k success =>
          let nmtState := if ok then k.setFbk s.nmtState .nan else s.nmtState
          some ({ s with nmtState := nmtState, handler := .idle }, [.returned k success])
      | _ => none
  | .write registered =>
      match s.server with
      | .idle => some (if registered then { s with server := .take .reset } else s, [])
      | _ => none
  | .take =>
      match s.server with
      | .take k =>
          let (pending, nmtState) := k.command s.nmtState
          some ({ s with nmtState := nmtState, server := if pending then .run k else k.next }, [])
      | _ => none
  | .run result =>
      match s.server, result with
      | .run k, some ok => some ({ s with server := .store k ok }, [.ran k ok])
      | .run _, none => some ({ s with server := .idle }, [])
      | _, _ => none
  | .store =>
      match s.server with
      | .store k ok =>
          some ({ s with nmtState := k.setFbk s.nmtState (ofBool ok), server := k.next }, [])
      | _ => none

/-- The services of a node from the construction of its data. -/
def system : System NmtServices NmtInput (OneShotEvent NmtService Bool) where
  init s := s = ⟨{}, .idle, .idle⟩
  step := step

/-! ## The write as a whole -/

/-- The result of the command in a write that nothing interrupts. -/
def result (env : WriteEnv) : NmtService → Option Bool
  | .reset => env.reset
  | .start => env.start

/-- The command in a write that nothing interrupts. -/
def writeCommand (d : CanopenNodeData) (env : WriteEnv) :
    NmtService → CanopenNodeData × Bool × List ProxyEvent
  | .reset => d.writeReset env
  | .start => d.writeStart env

/-- The steps of a command. -/
def commandSteps (n : Ros2ControlNmtState) (env : WriteEnv) (k : NmtService) : List NmtInput :=
  if isNan (k.ons n) then [.take]
  else .take :: .run (result env k) :: if (result env k).isSome then [.store] else []

/-- Without anything in between, the steps of a command are the command of the whole write. -/
theorem run_commandSteps (d : CanopenNodeData) (env : WriteEnv) (k : NmtService)
    (handler : NmtHandler) (h : List (OneShotEvent NmtService Bool)) :
    ∃ h', system.run (commandSteps d.nmtState env k) h ⟨d.nmtState, handler, .take k⟩ =
      some (h', ⟨(writeCommand d env k).1.nmtState, handler,
        if (writeCommand d env k).2.1 then k.next else .idle⟩) := by
  cases k with
  | reset =>
      cases hnan : isNan d.nmtState.resetOns <;> cases hresult : env.reset <;>
        simp [commandSteps, result, writeCommand, CanopenNodeData.writeReset,
          CanopenNodeData.command, Ros2ControlNmtState.resetCommand, System.runIf, system, step,
          NmtService.ons, NmtService.command, NmtService.setFbk, hnan, hresult]
  | start =>
      cases hnan : isNan d.nmtState.startOns <;> cases hresult : env.start <;>
        simp [commandSteps, result, writeCommand, CanopenNodeData.writeStart,
          CanopenNodeData.command, Ros2ControlNmtState.startCommand, System.runIf, system, step,
          NmtService.ons, NmtService.command, NmtService.setFbk, hnan, hresult]

/-! ## What is promised -/

/-- Whoever calls a service gets the result of the one command that the call triggers. -/
structure Truthful (h : List (OneShotEvent NmtService Bool)) (s : NmtServices) : Prop where
  answers : Answers h
  /-- No command without a call, and none twice. -/
  requested : Requested h
  /-- The command of a call runs as soon as the one-shot is taken. -/
  triggered : ∀ k ∈ s.handler.service, isNan (k.ons s.nmtState) = true → s.server ≠ .run k →
    ∃ r, resultsSince k h = [r]
  quiet : s.handler.service = none → ∀ k : NmtService, isNan (k.fbk s.nmtState) = true

/-- The one-shot is taken, and `write` is not at its command any more. -/
def Settled (s : NmtServices) (k : NmtService) : Prop :=
  isNan (k.ons s.nmtState) = true ∧ s.server.servedOf k = none

/-- The steps that keep the services truthful: the interfaces can be accessed, no command
throws, no handler that waits is stopped, and the reset does not read the feedback while
`write` is between clearing the one-shot and storing the feedback. -/
def orderly : Guard NmtServices NmtInput (OneShotEvent NmtService Bool) := fun _ s i =>
  match i with
  | .call _ ok => ok = true
  | .poll running _ => running = true ∨ ∀ k ∈ s.handler.service, s.Settled k
  | .read got => got = true ∧ ∀ k ∈ s.handler.service, s.server.servedOf k = none
  | .clear ok => ok = true
  | .run result => result.isSome = true
  | _ => True

/-! ## The steps against one-shots -/

section Interfaces
variable {n : Ros2ControlNmtState} {x : Double} {k : NmtService}

@[simp] theorem ons_setOns :
    (fun k' : NmtService => k'.ons (k.setOns n x)) = Function.update (fun k' => k'.ons n) k x := by
  ext k'
  cases k <;> cases k' <;> rfl

@[simp] theorem fbk_setOns :
    (fun k' : NmtService => k'.fbk (k.setOns n x)) = fun k' => k'.fbk n := by
  ext k'
  cases k <;> cases k' <;> rfl

@[simp] theorem ons_setFbk :
    (fun k' : NmtService => k'.ons (k.setFbk n x)) = fun k' => k'.ons n := by
  ext k'
  cases k <;> cases k' <;> rfl

@[simp] theorem fbk_setFbk :
    (fun k' : NmtService => k'.fbk (k.setFbk n x)) = Function.update (fun k' => k'.fbk n) k x := by
  ext k'
  cases k <;> cases k' <;> rfl

theorem command_eq : k.command n = (!isNan (k.ons n), k.setOns n .nan) := by
  cases k <;> rfl

theorem servedOf_next (k k' : NmtService) : k.next.servedOf k' = none := by
  cases k <;> rfl

end Interfaces

/-- How far the requests are, by where the handler is. -/
def Phase (o : NmtService → OneShot Bool) : NmtHandler → Prop
  | .idle => ∀ k, o k = .rest
  | .poll k => o k ≠ .rest ∧ ∀ k', k' ≠ k → o k' = .rest
  | .read k => o k ≠ .rest ∧ o k ≠ .asked ∧ ∀ k', k' ≠ k → o k' = .rest
  | .clear k success => o k = .answered success ∧ ∀ k', k' ≠ k → o k' = .rest

/-- The interfaces, the handler and the history show how far the requests have come. -/
structure Stands (h : List (OneShotEvent NmtService Bool)) (s : NmtServices)
    (o : NmtService → OneShot Bool) : Prop where
  shown : Shown (fun k => k.ons s.nmtState) (fun k => k.fbk s.nmtState) s.server o
  tracks : ∀ k, Tracks h k (o k)
  phase : Phase o s.handler
  answers : Answers h
  requested : Requested h

/-- What the write does for a request keeps the phase of the handler. -/
theorem Phase.advance {o : NmtService → OneShot Bool} {pc : NmtHandler} {k : NmtService}
    {q : OneShot Bool} (hp : Phase o pc) (hrest : q = .rest ↔ o k = .rest)
    (hasked : q = .asked → o k = .asked) (hanswered : ∀ r, o k = .answered r → q = .answered r) :
    Phase (Function.update o k q) pc := by
  have hothers : ∀ k', o k' = .rest → Function.update o k q k' = .rest := fun _ hk' =>
    OneShot.keeps_update (· = .rest) hrest.mpr hk'
  have hsame : ∀ k', o k' ≠ .rest → Function.update o k q k' ≠ .rest := fun _ hk' =>
    OneShot.keeps_update (· ≠ .rest) (mt hrest.mp) hk'
  cases pc with
  | idle => exact fun k' => hothers k' (hp k')
  | poll k₀ => exact ⟨hsame k₀ hp.1, fun k' hk' => hothers k' (hp.2 k' hk')⟩
  | read k₀ =>
      refine ⟨hsame k₀ hp.1, ?_, fun k' hk' => hothers k' (hp.2.2 k' hk')⟩
      exact OneShot.keeps_update (· ≠ .asked) (mt hasked) hp.2.1
  | clear k₀ b =>
      refine ⟨?_, fun k' hk' => hothers k' (hp.2 k' hk')⟩
      exact OneShot.keeps_update (· = .answered b) (hanswered b) hp.1

namespace Stands
variable {h : List (OneShotEvent NmtService Bool)} {s : NmtServices}
  {o : NmtService → OneShot Bool}

theorem truthful (hs : Stands h s o) : Truthful h s where
  answers := hs.answers
  requested := hs.requested
  triggered := by
    intro k hk hnan hrun
    have hpending : (o k).pending = false := by
      simpa [hnan] using (hs.shown k).pending
    have hrest : o k ≠ .rest := by
      intro ho
      have hphase := hs.phase
      cases hpc : s.handler <;> rw [hpc] at hk hphase <;>
        simp_all [NmtHandler.service, Phase]
    have htrack := hs.tracks k
    cases ho : o k with
    | rest => exact absurd ho hrest
    | asked => simp [ho, OneShot.pending] at hpending
    | taken =>
        have hserved := (hs.shown k).served
        cases hpc : s.server <;> simp_all [OneShot.served, Server.servedOf]
    | ran r => exact ⟨r, by rwa [ho] at htrack⟩
    | answered r => exact ⟨r, by rwa [ho] at htrack⟩
  quiet := by
    intro hidle k
    have hphase := hs.phase
    have hreply : k.fbk s.nmtState = (o k).reply.elim .nan ofBool := (hs.shown k).reply
    cases hpc : s.handler with
    | idle =>
        rw [hpc] at hphase
        rw [hreply, hphase k]
        rfl
    | poll k' => simp [hpc, NmtHandler.service] at hidle
    | read k' => simp [hpc, NmtHandler.service] at hidle
    | clear k' b => simp [hpc, NmtHandler.service] at hidle

/-! ### The handler -/

theorem call (hs : Stands h s o) (hidle : s.handler = .idle) (k : NmtService) :
    Stands (.asked k :: h)
      { s with nmtState := k.setOns s.nmtState (.fin 1), handler := .poll k }
      (Function.update o k .asked) := by
  have hrest : ∀ k', o k' = .rest := by
    have hphase := hs.phase
    rwa [hidle] at hphase
  have hshown := hs.shown.ask (hrest k) (x := .fin 1) rfl
  refine ⟨by simpa using hshown, ?_, ⟨by simp, ?_⟩, hs.answers.ask, hs.requested.ask⟩
  · exact Tracks.update_cons hs.tracks (fun k' hk' => decide_eq_false hk'.symm) Tracks.ask
  · intro k' hk'
    simp [hk', hrest k']

/-- A handler that leaves its loop: its request is taken. -/
theorem leave (hs : Stands h s o) {k : NmtService} (hpoll : s.handler = .poll k)
    (htaken : o k ≠ .asked) : Stands h { s with handler := .read k } o := by
  have hphase := hs.phase
  rw [hpoll] at hphase
  exact ⟨hs.shown, hs.tracks, ⟨hphase.1, htaken, hphase.2⟩, hs.answers, hs.requested⟩

/-- What ends the loop shows that the request is taken. -/
theorem ne_asked_of_seesEnd (hs : Stands h s o) {k : NmtService}
    (hsees : k.seesEnd s.nmtState = true) : o k ≠ .asked := by
  intro hasked
  have hshows := hs.shown k
  rw [hasked] at hshows
  cases k with
  | reset =>
      have hpending : isNan s.nmtState.resetOns = false := hshows.pending
      simp [NmtService.seesEnd, hpending] at hsees
  | start =>
      have hreply : s.nmtState.startFbk = .nan := hshows.reply
      simp [NmtService.seesEnd, hreply, isNan] at hsees

/-- A handler that reads: the reply is there, and it is its answer. -/
theorem read (hs : Stands h s o) {k : NmtService} (hread : s.handler = .read k)
    (hserved : s.server.servedOf k = none) :
    isNan (k.fbk s.nmtState) = false ∧
      Stands h { s with handler := .clear k (toBool (k.fbk s.nmtState)) } o := by
  have hphase := hs.phase
  rw [hread] at hphase
  obtain ⟨hrest, hasked, hothers⟩ := hphase
  have hshows := hs.shown k
  obtain ⟨r, hr⟩ : ∃ r, o k = .answered r := by
    have hnone := hshows.served
    rw [hserved] at hnone
    cases ho : o k with
    | rest => exact absurd ho hrest
    | asked => exact absurd ho hasked
    | taken => simp [ho, OneShot.served] at hnone
    | ran r => simp [ho, OneShot.served] at hnone
    | answered r => exact ⟨r, rfl⟩
  have hreply : k.fbk s.nmtState = ofBool r := by
    have hreply := hshows.reply
    rwa [hr] at hreply
  rw [hreply, toBool_ofBool]
  exact ⟨rfl, hs.shown, hs.tracks, ⟨hr, hothers⟩, hs.answers, hs.requested⟩

/-- A handler that returns: the reply is cleared. -/
theorem returned (hs : Stands h s o) {k : NmtService} {success : Bool}
    (hclear : s.handler = .clear k success) :
    Stands (.returned k success :: h)
      { s with nmtState := k.setFbk s.nmtState .nan, handler := .idle }
      (Function.update o k .rest) := by
  have hphase := hs.phase
  rw [hclear] at hphase
  obtain ⟨hanswered, hothers⟩ := hphase
  have htrack := hs.tracks k
  have hshown := hs.shown.clear (k := k)
  rw [hanswered] at htrack hshown
  refine ⟨by simpa [OneShot.clear] using hshown, ?_, ?_, hs.answers.returned htrack,
    hs.requested.returned⟩
  · exact Tracks.update_cons hs.tracks (fun k' hk' => decide_eq_false hk'.symm) trivial
  · exact (Function.forall_update_iff o fun _ q => q = .rest).mpr ⟨rfl, hothers⟩

/-! ### The write -/

theorem take (hs : Stands h s o) {k : NmtService} (htake : s.server = .take k) :
    Stands h
      { s with
        nmtState := k.setOns s.nmtState .nan
        server := if !isNan (k.ons s.nmtState) then .run k else k.next }
      (Function.update o k (o k).take) := by
  have hshown := hs.shown
  rw [htake] at hshown
  have hnext := hshown.take (servedOf_next k)
  refine ⟨?_, Tracks.update hs.tracks (hs.tracks k).take, ?_, hs.answers, hs.requested⟩
  · cases hnan : isNan (k.ons s.nmtState) <;> simpa [hnan] using hnext
  · apply hs.phase.advance <;> cases o k <;> simp [OneShot.take]

theorem run (hs : Stands h s o) {k : NmtService} (hrun : s.server = .run k) (r : Bool) :
    Stands (.ran k r :: h) { s with server := .store k r } (Function.update o k (.ran r)) := by
  have hshown := hs.shown
  rw [hrun] at hshown
  have htaken := hshown.taken
  have htrack := hs.tracks k
  rw [htaken] at htrack
  refine ⟨hshown.run r, ?_, ?_, hs.answers.run, hs.requested.run htrack⟩
  · exact Tracks.update_cons hs.tracks (fun k' hk' => decide_eq_false hk'.symm) htrack.run
  · apply hs.phase.advance <;> simp [htaken]

theorem store (hs : Stands h s o) {k : NmtService} {r : Bool} (hstore : s.server = .store k r) :
    Stands h { s with nmtState := k.setFbk s.nmtState (ofBool r), server := k.next }
      (Function.update o k (.answered r)) := by
  have hshown := hs.shown
  rw [hstore] at hshown
  have hran := hshown.ran
  have htrack := hs.tracks k
  rw [hran] at htrack
  have hnext := hshown.store (servedOf_next k)
  refine ⟨by simpa using hnext, Tracks.update hs.tracks htrack, ?_, hs.answers, hs.requested⟩
  apply hs.phase.advance <;> simp [hran]

/-! ### A step -/

/-- **An orderly step.** -/
theorem step {s' : NmtServices} {es : List (OneShotEvent NmtService Bool)} {i : NmtInput}
    (hs : Stands h s o) (hok : orderly h s i) (hstep : s.step i = some (s', es)) :
    ∃ o', Stands (es ++ h) s' o' := by
  cases i with
  | call k ok =>
      obtain rfl : ok = true := hok
      cases hpc : s.handler <;> simp only [NmtServices.step, hpc] at hstep <;> try cases hstep
      exact ⟨_, hs.call hpc k⟩
  | poll running got =>
      cases hpc : s.handler <;> simp only [NmtServices.step, hpc] at hstep <;> try cases hstep
      next k =>
        split at hstep
        · obtain ⟨rfl, rfl⟩ := Prod.mk.inj (Option.some.inj hstep)
          exact ⟨o, hs⟩
        · next hleaves =>
          obtain ⟨rfl, rfl⟩ := Prod.mk.inj (Option.some.inj hstep)
          refine ⟨o, hs.leave hpc ?_⟩
          by_cases hrunning : running = true
          · have hsees : k.seesEnd s.nmtState = true := by
              cases got <;> simp_all
            exact hs.ne_asked_of_seesEnd hsees
          · have hsettled := (hok.resolve_left hrunning) k (by simp [hpc, NmtHandler.service])
            intro hasked
            have hpending := (hs.shown k).pending
            simp [hasked, OneShot.pending, hsettled.1] at hpending
  | read got =>
      obtain ⟨rfl, hserved⟩ := hok
      cases hpc : s.handler <;> simp only [NmtServices.step, hpc] at hstep <;> try cases hstep
      next k =>
        obtain ⟨hthere, hread⟩ := hs.read hpc (hserved k (by simp [hpc, NmtHandler.service]))
        exact ⟨o, by simpa [hthere] using hread⟩
  | clear ok =>
      obtain rfl : ok = true := hok
      cases hpc : s.handler <;> simp only [NmtServices.step, hpc] at hstep <;> try cases hstep
      exact ⟨_, hs.returned hpc⟩
  | write registered =>
      cases hpc : s.server <;> simp only [NmtServices.step, hpc] at hstep <;> try cases hstep
      refine ⟨o, ?_, hs.tracks, ?_, hs.answers, hs.requested⟩
      · have hshown := hs.shown
        rw [hpc] at hshown
        cases registered
        · exact hpc ▸ hshown
        · exact hshown
      · cases registered <;> exact hs.phase
  | take =>
      cases hpc : s.server <;> simp only [NmtServices.step, hpc] at hstep <;> try cases hstep
      next k =>
        exact ⟨_, by simpa [command_eq] using hs.take hpc⟩
  | run result =>
      obtain ⟨ok, rfl⟩ := Option.isSome_iff_exists.mp hok
      cases hpc : s.server <;> simp only [NmtServices.step, hpc] at hstep <;> try cases hstep
      exact ⟨_, hs.run hpc ok⟩
  | store =>
      cases hpc : s.server <;> simp only [NmtServices.step, hpc] at hstep <;> try cases hstep
      exact ⟨_, hs.store hpc⟩

end Stands

/-- **In every run of orderly steps the services are truthful.** -/
theorem truthful_of_orderly {h : List (OneShotEvent NmtService Bool)} {s : NmtServices}
    (hr : Reach system orderly h s) : Truthful h s := by
  have hinv : ∃ o, Stands h s o := by
    apply hr.invariant (I := fun h s => ∃ o, Stands h s o)
    · intro s hs
      obtain rfl : s = ⟨{}, .idle, .idle⟩ := hs
      refine ⟨fun _ => .rest, ?_, fun _ => trivial, fun _ => rfl, historically_nil,
        historically_nil⟩
      intro k
      cases k <;> exact ⟨rfl, rfl, rfl⟩
    · intro h s i s' es hs hok hstep
      obtain ⟨o, ho⟩ := hs
      exact ho.step hok hstep
  obtain ⟨o, ho⟩ := hinv
  exact ho.truthful

/-! ## Runs -/

instance (s : NmtServices) (k : NmtService) : Decidable (s.Settled k) :=
  inferInstanceAs (Decidable (_ ∧ _))

instance (h : List (OneShotEvent NmtService Bool)) (s : NmtServices) :
    ∀ i, Decidable (orderly h s i)
  | .call _ _ => inferInstanceAs (Decidable (_ = _))
  | .poll _ _ => inferInstanceAs (Decidable (_ ∨ _))
  | .read _ => inferInstanceAs (Decidable (_ ∧ _))
  | .clear _ => inferInstanceAs (Decidable (_ = _))
  | .run _ => inferInstanceAs (Decidable (_ = _))
  | .write _ | .take | .store => inferInstanceAs (Decidable True)

/-- A call of each service, with a write in which both handlers find their answer. -/
theorem truthful_two : ∃ s, Truthful [.returned .start false, .ran .start false, .asked .start,
    .returned .reset true, .ran .reset true, .asked .reset] s := by
  have hrun : (system.runIf (fun h s i => decide (orderly h s i))
      [.call .reset true, .write true, .take, .poll true true, .run (some true), .store,
        .read true, .clear true, .take, .call .start true, .poll true true, .write true, .take,
        .take, .run (some false), .poll true true, .store, .poll true true, .read true,
        .clear true] [] ⟨{}, .idle, .idle⟩).any
      (fun p => p.1 = [.returned .start false, .ran .start false, .asked .start,
        .returned .reset true, .ran .reset true, .asked .reset]) = true := by
    decide +kernel
  obtain ⟨h, s, hr, hend⟩ := system.exists_reach_runIf (.init rfl)
    (fun h s i hi => of_decide_eq_true hi) hrun
  obtain rfl := of_decide_eq_true hend
  exact ⟨s, truthful_of_orderly hr⟩

/-- A reset that finds its one-shot cleared before the command has run answers for it. -/
theorem not_truthful : ¬ ∀ h s, Reach system Guard.free h s → Truthful h s := by
  intro htruthful
  have hrun : (system.run [.call .reset true, .write true, .take, .poll true true, .read true,
      .clear true, .run (some true), .store] [] ⟨{}, .idle, .idle⟩).any
      (fun p => p.1 = [.ran .reset true, .returned .reset false, .asked .reset]) = true := by
    decide +kernel
  obtain ⟨h, s, hr, hend⟩ := system.exists_reach_run (.init rfl) hrun
  obtain rfl := of_decide_eq_true hend
  have hanswers := (htruthful _ s hr).answers
  have hresults := hanswers [.ran .reset true] (.returned .reset false) _ rfl .reset false rfl
  simp [resultsSince] at hresults

end NmtServices

end RosCanopen.Ros2Control
