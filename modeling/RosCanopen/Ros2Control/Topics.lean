import RosCanopen.Core.NmtHandover
import RosCanopen.Core.Turns
import RosCanopen.Lib.Sampling
import RosCanopen.Ros2Control.Emergency
import RosCanopen.Ros2Control.RpdoParts

/-!
# What the proxy controller publishes

The NMT states and the RPDOs of a node come to the controller on three threads: `OnState` hands a
state over to the listener and `OnRpdoWrite` queues a datum, the listener and
`poll_timer_callback` call the callbacks that `CanopenSystem` has registered, which set the
doubles behind the state interfaces, and `update` reads these and publishes: a text for the state
when it has changed, and the datum each time.  The state is one double; those of a datum are set
and read one by one, so a message may have parts of two data.

## Main definitions

* `Topics.update`, `Topics.goOn` — `CanopenProxyController::update`, read by read.
* `Topics.system` — hand-over, queues, hardware and controller of a node.
* `Topics.offered`, `Topics.texts`, `Topics.published` — what comes of it.
* `Topics.Stepped` — what a step can do.
-/

namespace RosCanopen.Ros2Control

open Lib RosCanopen.Core Cia402
open Bridge (COData)

/-- The text that `update` has for a state. -/
def nmtStateName (st : NmtState) : String :=
  if st = 0x00 then "BOOTUP"
  else if st = 0x7f then "PREOP"
  else if st = 0x07 then "RESET_COMM"
  else if st = 0x06 then "RESET_NODE"
  else if st = 0x05 then "START"
  else if st = 0x04 then "STOP"
  else if st = 0x80 then "TOGGLE"
  else "ERROR"

inductive TopicsEvent
  | nmt (e : HandoverEvent)
  | polled (e : PollingEvent DriverMessage)
  /-- `on_configure` calls `try_publish` with an empty text and a message of zeros, and each is
  published or not. -/
  | configured (publishedState publishedRpdo : Bool)
  /-- `update` calls `try_publish` with the text of a state, and publishes it or not. -/
  | nmtState (text : String) (published : Bool)
  /-- An event of the rest of an update. -/
  | proxy (e : ProxyEvent)

/-- What decides an update. -/
structure TopicsEnv where
  /-- The outcome of `get_optional` for the state. -/
  readsState : Bool
  /-- The outcome of `try_publish` for its text. -/
  publishesState : Bool
  /-- What the machine makes of a state out of range. -/
  rawState : BitVec 32
  proxy : UpdateEnv

inductive TopicsInput
  /-- `register_nmt_state_cb` -/
  | registerNmt
  /-- `register_emcy_cb` or `register_rpdo_cb` -/
  | register (k : QueueKind)
  | nmt (i : HandoverInput)
  /-- A step of the queues and of the callback that polls them, as in `EmergencyInput`. -/
  | poll (i : PollingInput DriverMessage) (past : BitVec 8)
  /-- `set_rpdo_data` goes on. -/
  | set (raw : Double)
  /-- What else the hardware does, with other nodes too. -/
  | hardware (i : HardwareInput)
  /-- `on_configure`, with the outcomes of `try_publish`. -/
  | configure (publishesState publishesRpdo : Bool)
  | update (env : TopicsEnv)
  /-- `update` goes on. -/
  | goOn

/-- An update behind its part for the state. -/
structure UpdateRun where
  env : UpdateEnv
  /-- What has been read; what could not be read, as `env` says, is not used. -/
  seen : RpdoPart → Double
  /-- The interface to read next. -/
  next : Option RpdoPart

structure Topics where
  /-- `nmt_state_cb_` is set. -/
  nmtCallback : Bool
  /-- `emcy_cb_` and `rpdo_cb_` are set. -/
  callback : QueueKind → Bool
  handover : NmtHandover
  polling : Polling DriverMessage
  /-- What `set_rpdo_data` assigns next, while the callback is in it. -/
  setting : Option RpdoPart
  hardware : Hardware
  /-- The publishers are made. -/
  configured : Bool
  /-- `nmt_state_actual_` -/
  nmtStateActual : String
  updating : Option UpdateRun

namespace Topics

/-- The data of the node. -/
abbrev node (s : Topics) (id : BitVec 8) : HardwareNode := s.hardware.canopenData id.toNat

/-- The data of the node are changed. -/
def modify (s : Topics) (id : BitVec 8) (f : CanopenNodeData → CanopenNodeData) : Topics :=
  { s with hardware := s.hardware.modify id fun n =>
      { n with toCanopenNodeData := f n.toCanopenNodeData } }

/-- The part of `update` that exposes the NMT state. -/
def publishNmt (s : Topics) (id : BitVec 8) (env : TopicsEnv) : Topics × List TopicsEvent :=
  if env.readsState then
    let nmtState := (staticCast ⟨true, 32⟩ (s.node id).state).getD env.rawState
    let text := nmtStateName (nmtState.setWidth 8)
    if s.nmtStateActual ≠ text then
      ({ s with nmtStateActual := text }, [.nmtState text env.publishesState])
    else (s, [])
  else (s, [])

/-- `CanopenProxyController::update`, up to the first read for the data. -/
def update (s : Topics) (id : BitVec 8) (env : TopicsEnv) : Topics × List TopicsEvent :=
  let (s, es) := s.publishNmt id env
  ({ s with updating := some ⟨env.proxy, fun _ => .nan, some .index⟩ }, es)

/-- The next read of `update`, or what follows the last: it publishes and copies the command. -/
def goOn (s : Topics) (id : BitVec 8) (run : UpdateRun) : Topics × List TopicsEvent :=
  match run.next with
  | some w =>
      let seen := Function.update run.seen w (w.interface (s.node id).rpdoData)
      ({ s with updating := some { run with seen, next := w.next } }, [])
  | none =>
      let (_, es) := (s.node id).toCanopenNodeData.copyCommand run.env
      let es' := ((s.node id).seeing run.seen).publishRpdo run.env
      ({ s.modify id fun n => (n.copyCommand run.env).1 with updating := none },
        (es ++ es').map .proxy)

/-- A callback that `initDeviceContainer` registers is called. -/
def call (info : HardwareInfo) (s : Topics) (i : HardwareInput) (es : List TopicsEvent) :
    Option (Topics × List TopicsEvent) :=
  (CanopenSystem.step info s.hardware i).map fun (hardware, _) => ({ s with hardware }, es)

/-- States, data and emergencies of the node come from its driver alone. -/
def foreign (id : BitVec 8) : HardwareInput → Bool
  | .nmtState id' _ | .rpdo id' _ _ | .emcy id' _ _ => id' ≠ id
  | _ => true

/-- `poll_timer_callback` does not go on while it is in `set_rpdo_data`. -/
def waits (s : Topics) : PollingInput DriverMessage → Bool
  | .go _ => s.setting.isSome
  | _ => false

def step (info : HardwareInfo) (id : BitVec 8) (s : Topics) :
    TopicsInput → Option (Topics × List TopicsEvent)
  | .registerNmt => some ({ s with nmtCallback := true }, [])
  | .register k => some ({ s with callback := Function.update s.callback k true }, [])
  | .nmt i =>
      (NmtHandover.step s.nmtCallback s.handover i).bind fun (handover, es) =>
        match es with
        | [.calledBack st] =>
            call info { s with handover } (.nmtState id st) [.nmt (.calledBack st)]
        | es => some ({ s with handover }, es.map .nmt)
  | .poll i past =>
      if EmergencyPath.throws s.polling i || s.waits i then none
      else
        (Polling.step s.callback s.polling i).bind fun (polling, es) =>
          match EmergencyPath.called id past .nan es with
          | some (.rpdo _ d _) =>
              -- `set_data`; `prepare_data` follows step by step
              some ({ s with polling, setting := some .index }.modify id fun n =>
                { n with rpdoData := n.rpdoData.setData d }, es.map .polled)
          | some input => call info { s with polling } input (es.map .polled)
          | none => some ({ s with polling }, es.map .polled)
  | .set raw =>
      s.setting.map fun w => ({ s with setting := w.next }.modify id (·.setPart raw w), [])
  | .hardware i => if foreign id i then call info s i [] else none
  | .configure publishesState publishesRpdo =>
      match s.updating with
      | none => some ({ s with configured := true }, [.configured publishesState publishesRpdo])
      | some _ => none
  | .update env =>
      match s.configured, s.updating with
      | true, none => some (s.update id env)
      | _, _ => none
  | .goOn => s.updating.map (s.goOn id)

/-- The node when its hardware is initialised and nothing is registered or configured yet. -/
def system (info : HardwareInfo) (id : BitVec 8) : System Topics TopicsInput TopicsEvent where
  init s := ∃ isSet, s =
    { nmtCallback := false
      callback := fun _ => false
      handover := ⟨isSet, none, none, 0, none, .ended⟩
      polling := ⟨fun _ => [], none⟩
      setting := none
      hardware := CanopenSystem.initDeviceContainer info (Hardware.exported info)
      configured := false
      nmtStateActual := "BOOTUP"
      updating := none }
  step := step info id

end Topics

/-! ## What is promised -/

namespace TopicsEvent

def nmt? : TopicsEvent → Option HandoverEvent
  | .nmt e => some e
  | _ => none

def polled? : TopicsEvent → Option (PollingEvent DriverMessage)
  | .polled e => some e
  | _ => none

/-- The text of a state that is to be published. -/
def offered? : TopicsEvent → Option String
  | .nmtState text _ => some text
  | _ => none

/-- What is published on `~/nmt_state`. -/
def text? : TopicsEvent → Option String
  | .configured true _ => some ""
  | .nmtState text true => some text
  | _ => none

/-- What `update` publishes on `~/rpdo`. -/
def published? : TopicsEvent → Option COData
  | .proxy (.published d) => some d
  | _ => none

end TopicsEvent

namespace Topics

/-- The reported states as they are tracked, and those that the callback was called with, the
latest first. -/
def reported (h : List TopicsEvent) : List NmtState :=
  NmtHandover.reports (h.filterMap TopicsEvent.nmt?)

def calledBack (h : List TopicsEvent) : List NmtState :=
  NmtHandover.calls (h.filterMap TopicsEvent.nmt?)

/-- The states that the state interface has held. -/
def heldStates (h : List TopicsEvent) : List NmtState := calledBack h ++ [NmtState.bootup]

/-- The texts of states that updates have tried to publish, the latest first. -/
def offered (h : List TopicsEvent) : List String := h.filterMap TopicsEvent.offered?

/-- The messages on `~/nmt_state`, the latest first. -/
def texts (h : List TopicsEvent) : List String := h.filterMap TopicsEvent.text?

/-- The RPDOs with which it has been done, the latest first. -/
def rpdos (d : Deed) (h : List TopicsEvent) : List COData :=
  Polling.messages d .rpdo (h.filterMap TopicsEvent.polled?)

/-- The messages of updates on `~/rpdo`, the latest first. -/
def published (h : List TopicsEvent) : List COData := h.filterMap TopicsEvent.published?

/-- The data with which `set_rpdo_data` was called, behind them what was there before. -/
def heldData (h : List TopicsEvent) : List COData := rpdos .handed h ++ [⟨0, 0, 0⟩]

/-! ## The parts of a step -/

theorem filterMap_append_none {α β : Type} {f : α → Option β} {es h : List α}
    (hes : ∀ e ∈ es, f e = none) : (es ++ h).filterMap f = h.filterMap f := by
  rw [List.filterMap_append, List.filterMap_eq_nil_iff.mpr hes, List.nil_append]

section Handover
variable {registered : Bool} {t t' : NmtHandover} {i : HandoverInput} {es : List HandoverEvent}

/-- A step of the hand-over calls the callback, or does not. -/
theorem calls_of_step (hstep : NmtHandover.step registered t i = some (t', es)) :
    (∃ st, es = [.calledBack st]) ∨
      ((∀ st, es ≠ [.calledBack st]) ∧ NmtHandover.calls es = []) := by
  cases NmtHandover.stepped_of_step hstep with
  | report st hon => exact .inr ⟨by simp, rfl⟩
  | @onState pc hon =>
      refine .inr ?_
      cases pc with
      | testing st => exact ⟨by simp [NmtHandover.onStateStep], rfl⟩
      | locking st =>
          cases hmutex : t.mutex <;> simp [NmtHandover.onStateStep, hmutex, NmtHandover.calls,
            HandoverEvent.calledBack?]
      | storing st => exact ⟨by simp [NmtHandover.onStateStep], rfl⟩
      | setting st =>
          cases hpromise : t.promise <;> simp [NmtHandover.onStateStep, hpromise,
            NmtHandover.calls, HandoverEvent.calledBack?]
      | unlocking => exact ⟨by simp [NmtHandover.onStateStep], rfl⟩
  | locked => exact .inr ⟨by simp, rfl⟩
  | cleared => exact .inr ⟨by simp, rfl⟩
  | replaced => exact .inr ⟨by simp, rfl⟩
  | unlocked => exact .inr ⟨by simp, rfl⟩
  | passed => exact .inr ⟨by simp, rfl⟩
  | @calledBack i st hpc =>
      cases registered with
      | true => exact .inl ⟨st, rfl⟩
      | false => exact .inr ⟨by simp, rfl⟩

end Handover

/-- State and data of a node are not touched but by its callbacks. -/
theorem own_step {info : HardwareInfo} {id : BitVec 8} {t t' : Hardware} {i : HardwareInput}
    {es : List HardwareEvent} (hnmt : ∀ st, i ≠ .nmtState id st)
    (hrpdo : ∀ d raw, i ≠ .rpdo id d raw)
    (hstep : CanopenSystem.step info t i = some (t', es)) :
    (t'.canopenData id.toNat).state = (t.canopenData id.toNat).state ∧
      (t'.canopenData id.toNat).rpdoData = (t.canopenData id.toNat).rpdoData := by
  have hmodify : ∀ (id' : BitVec 8) (f : HardwareNode → HardwareNode),
      (id' = id → ∀ n, (f n).state = n.state ∧ (f n).rpdoData = n.rpdoData) →
      ((t.modify id' f).canopenData id.toNat).state = (t.canopenData id.toNat).state ∧
        ((t.modify id' f).canopenData id.toNat).rpdoData =
          (t.canopenData id.toNat).rpdoData := by
    intro id' f hf
    by_cases hid : id' = id
    · subst hid
      simpa [Hardware.modify] using hf rfl (t.canopenData id'.toNat)
    · have hne : id.toNat ≠ id'.toNat := fun heq => hid (BitVec.eq_of_toNat_eq heq.symm)
      simp [Hardware.modify, Function.update_of_ne hne]
  cases i with
  | nmtState id' state =>
      obtain ⟨rfl, -⟩ := Prod.mk.inj (Option.some.inj hstep)
      exact hmodify id' _ fun hid => absurd (congrArg (HardwareInput.nmtState · state) hid)
        (hnmt state)
  | rpdo id' d raw =>
      obtain ⟨rfl, -⟩ := Prod.mk.inj (Option.some.inj hstep)
      exact hmodify id' _ fun hid => absurd (congrArg (HardwareInput.rpdo · d raw) hid)
        (hrpdo d raw)
  | emcy id' e past =>
      obtain ⟨rfl, -⟩ := Prod.mk.inj (Option.some.inj hstep)
      exact hmodify id' _ fun _ n => ⟨rfl, rfl⟩
  | set id' interface x =>
      simp only [CanopenSystem.step] at hstep
      split at hstep
      · obtain ⟨rfl, -⟩ := Prod.mk.inj (Option.some.inj hstep)
        exact hmodify id' _ fun _ n => by cases interface <;> exact ⟨rfl, rfl⟩
      · cases hstep
  | read =>
      obtain ⟨rfl, -⟩ := Prod.mk.inj (Option.some.inj hstep)
      exact ⟨rfl, rfl⟩
  | write env throws =>
      obtain ⟨m, goes, es', hsweep, hm⟩ : ∃ m goes es,
          sweep (CanopenSystem.writeNode info env) t.keys t.canopenData = some (m, goes, es) ∧
            ∀ k, (m k).state = (t.canopenData k).state ∧
              (m k).rpdoData = (t.canopenData k).rpdoData := by
        refine sweep_invariant (P := fun k (n : HardwareNode) =>
          n.state = (t.canopenData k).state ∧ n.rpdoData = (t.canopenData k).rpdoData)
          (fun k n hn => ⟨_, _, _, rfl, hn.1, ?_⟩) fun _ => ⟨rfl, rfl⟩
        exact (CanopenNodeData.same_write n.toCanopenNodeData _).rpdoData.trans hn.2
      simp only [CanopenSystem.step, hsweep, Option.map_some] at hstep
      obtain ⟨rfl, -⟩ := Prod.mk.inj (Option.some.inj hstep)
      exact hm id.toNat

/-! ## What a step can do -/

section Steps
variable {info : HardwareInfo} {id : BitVec 8} {s s' : Topics} {i : TopicsInput}
  {h es : List TopicsEvent}

/-- The event is of neither path. -/
def IsBeside (e : TopicsEvent) : Prop :=
  e.nmt? = none ∧ e.offered? = none ∧ e.polled? = none ∧ e.published? = none

/-- The steps, by what they do on the two paths. -/
inductive Stepped (id : BitVec 8) (s : Topics) :
    TopicsInput → Topics → List TopicsEvent → Prop
  | beside {i : TopicsInput} {s' : Topics} {es : List TopicsEvent} (hes : ∀ e ∈ es, IsBeside e)
      (hplaced : Polling.WellPlaced s.callback s.polling.pc →
        Polling.WellPlaced s'.callback s'.polling.pc)
      (hhandover : s'.handover = s.handover) (hpolling : s'.polling = s.polling)
      (hsetting : s'.setting = s.setting) (hactual : s'.nmtStateActual = s.nmtStateActual)
      (hupdating : s'.updating = s.updating)
      (hown : (s'.node id).state = (s.node id).state ∧
        (s'.node id).rpdoData = (s.node id).rpdoData) : Stepped id s i s' es
  | handover {i : HandoverInput} {t : NmtHandover} {es : List HandoverEvent}
      (hstep : NmtHandover.step s.nmtCallback s.handover i = some (t, es))
      (hquiet : NmtHandover.calls es = []) :
      Stepped id s (.nmt i) { s with handover := t } (es.map .nmt)
  | calledBack {i : HandoverInput} {t : NmtHandover} {st : NmtState} {hardware : Hardware}
      (hstep : NmtHandover.step s.nmtCallback s.handover i = some (t, [.calledBack st]))
      (hstate : (hardware.canopenData id.toNat).state = ofUnsigned st)
      (hdata : (hardware.canopenData id.toNat).rpdoData = (s.node id).rpdoData) :
      Stepped id s (.nmt i) { s with handover := t, hardware } [.nmt (.calledBack st)]
  | poll {i : PollingInput DriverMessage} {past : BitVec 8} {polling : Polling DriverMessage}
      {es : List (PollingEvent DriverMessage)} {hardware : Hardware}
      (hstep : Polling.step s.callback s.polling i = some (polling, es))
      (hquiet : ∀ h, Polling.messages .handed .rpdo (es ++ h) =
        Polling.messages .handed .rpdo h)
      (hown : (hardware.canopenData id.toNat).state = (s.node id).state ∧
        (hardware.canopenData id.toNat).rpdoData = (s.node id).rpdoData) :
      Stepped id s (.poll i past) { s with polling, hardware } (es.map .polled)
  | hand {i : PollingInput DriverMessage} {past : BitVec 8} {polling : Polling DriverMessage}
      {d : COData} (hsetting : s.setting = none)
      (hstep : Polling.step s.callback s.polling i =
        some (polling, [.message .handed .rpdo d])) :
      Stepped id s (.poll i past)
        ({ s with polling, setting := some .index }.modify id fun n =>
          { n with rpdoData := n.rpdoData.setData d }) [.polled (.message .handed .rpdo d)]
  | set {w : RpdoPart} (raw : Double) (hsetting : s.setting = some w) :
      Stepped id s (.set raw) ({ s with setting := w.next }.modify id (·.setPart raw w)) []
  | update (env : TopicsEnv) (hupdating : s.updating = none) :
      Stepped id s (.update env) (s.update id env).1 (s.update id env).2
  | goOn {run : UpdateRun} (hupdating : s.updating = some run) :
      Stepped id s .goOn (s.goOn id run).1 (s.goOn id run).2

/-- What the callbacks for the queues have been called with, if one has been. -/
theorem called_of_stepped {registered : QueueKind → Bool} {p p' : Polling DriverMessage}
    {i : PollingInput DriverMessage} {es : List (PollingEvent DriverMessage)}
    (id past : BitVec 8) (raw : Double) (hstep : Polling.Stepped registered p i p' es) :
    (∃ d : COData, es = [.message .handed .rpdo d] ∧ ∃ throws, i = .go throws) ∨
      ((∀ id' d raw', EmergencyPath.called id past raw es ≠ some (.rpdo id' d raw')) ∧
        (∀ st, EmergencyPath.called id past raw es ≠ some (.nmtState id st)) ∧
        ∀ h, Polling.messages .handed .rpdo (es ++ h) = Polling.messages .handed .rpdo h) := by
  cases hstep with
  | push k m =>
      exact .inr ⟨by simp [EmergencyPath.called], by simp [EmergencyPath.called],
        fun _ => Polling.messages_cons_of_ne (by decide)⟩
  | begin hpc =>
      exact .inr ⟨by simp [EmergencyPath.called], by simp [EmergencyPath.called],
        fun _ => Polling.messages_cons_silent rfl⟩
  | leave hpc hend =>
      exact .inr ⟨by simp [EmergencyPath.called], by simp [EmergencyPath.called], fun _ => rfl⟩
  | pop hpc hi hqueue =>
      exact .inr ⟨by simp [EmergencyPath.called], by simp [EmergencyPath.called],
        fun _ => Polling.messages_cons_of_ne (by decide)⟩
  | @call throws k n m hpc hreg =>
      cases k with
      | emcy =>
          exact .inr ⟨by simp [EmergencyPath.called], by simp [EmergencyPath.called],
            fun _ => Polling.messages_cons_silent (Polling.deed_message_of_ne (by decide))⟩
      | rpdo => exact .inl ⟨m, rfl, throws, rfl⟩
  | receive hpc hstage =>
      exact .inr ⟨by simp [EmergencyPath.called], by simp [EmergencyPath.called],
        fun _ => Polling.messages_cons_of_ne (by decide)⟩
  | throw hpc hstage =>
      exact .inr ⟨by simp [EmergencyPath.called], by simp [EmergencyPath.called],
        fun _ => Polling.messages_cons_of_ne (by decide)⟩
  | finish hpc =>
      exact .inr ⟨by simp [EmergencyPath.called], by simp [EmergencyPath.called], fun _ => rfl⟩

/-- A step of the queues and of the callback that polls them. -/
theorem stepped_poll (hplaced : Polling.WellPlaced s.callback s.polling.pc)
    {i : PollingInput DriverMessage} {past : BitVec 8}
    (hstep : step info id s (.poll i past) = some (s', es)) :
    Stepped id s (.poll i past) s' es := by
  simp only [step] at hstep
  split at hstep
  · cases hstep
  next hgoes =>
  obtain ⟨⟨p, es'⟩, hpoll, heq⟩ := Option.bind_eq_some_iff.mp hstep
  rcases called_of_stepped id past .nan (Polling.step_cases hplaced hpoll) with
    ⟨d, rfl, throws, rfl⟩ | ⟨hnone, hnone', hquiet⟩
  · have hsetting : s.setting = none := by
      cases hsetting : s.setting with
      | none => rfl
      | some w => simp [waits, hsetting] at hgoes
    obtain ⟨rfl, rfl⟩ := Prod.mk.inj (Option.some.inj heq)
    exact .hand hsetting hpoll
  · simp only at heq
    split at heq
    · next id' d raw hcalled => exact absurd hcalled (hnone id' d raw)
    · next input hother hcalled =>
        obtain ⟨⟨hw, es''⟩, hhw, heq⟩ := Option.map_eq_some_iff.mp heq
        obtain ⟨rfl, rfl⟩ := Prod.mk.inj heq
        have hown := own_step (fun st hst => hnone' st (hcalled.trans (congrArg some hst)))
          (fun d raw' hd => hnone id d raw' (hcalled.trans (congrArg some hd))) hhw
        exact .poll hpoll hquiet hown
    · obtain ⟨rfl, rfl⟩ := Prod.mk.inj (Option.some.inj heq)
      have hown : (s.hardware.canopenData id.toNat).state = (s.node id).state ∧
          (s.hardware.canopenData id.toNat).rpdoData = (s.node id).rpdoData := ⟨rfl, rfl⟩
      exact .poll hpoll hquiet hown

theorem eq_of_step_update {env : TopicsEnv} (hstep : step info id s (.update env) = some (s', es)) :
    s' = (s.update id env).1 ∧ es = (s.update id env).2 ∧ s.updating = none := by
  simp only [step] at hstep
  split at hstep
  · next hupdating =>
      have heq := Option.some.inj hstep
      exact ⟨(congrArg Prod.fst heq).symm, (congrArg Prod.snd heq).symm, hupdating⟩
  · cases hstep

/-- **What a step can do.** -/
theorem step_cases (hplaced : Polling.WellPlaced s.callback s.polling.pc)
    (hstep : step info id s i = some (s', es)) : Stepped id s i s' es := by
  cases i with
  | registerNmt =>
      obtain ⟨rfl, rfl⟩ := Prod.mk.inj (Option.some.inj hstep)
      exact .beside (by simp) (fun hs => hs) rfl rfl rfl rfl rfl ⟨rfl, rfl⟩
  | register k =>
      obtain ⟨rfl, rfl⟩ := Prod.mk.inj (Option.some.inj hstep)
      refine .beside (by simp) ?_ rfl rfl rfl rfl rfl ⟨rfl, rfl⟩
      intro hplaced
      cases hpc : s.polling.pc with
      | none => trivial
      | some pc =>
          rw [hpc] at hplaced
          cases pc with
          | head k' j => exact hplaced
          | busy k' j m stage =>
              refine ⟨hplaced.1, fun hstage => ?_⟩
              by_cases hk : k' = k
              · rw [hk]
                exact Function.update_self _ _ _
              · exact (Function.update_of_ne hk _ _).trans (hplaced.2 hstage)
  | nmt i =>
      obtain ⟨⟨t, es'⟩, hhandover, heq⟩ := Option.bind_eq_some_iff.mp hstep
      rcases calls_of_step hhandover with ⟨st, rfl⟩ | ⟨hne, hquiet⟩
      · obtain ⟨⟨hw, es''⟩, hhw, heq⟩ := Option.map_eq_some_iff.mp heq
        obtain ⟨rfl, -⟩ := Prod.mk.inj (Option.some.inj hhw)
        obtain ⟨rfl, rfl⟩ := Prod.mk.inj heq
        exact .calledBack hhandover (by simp [Hardware.modify]) (by simp [node, Hardware.modify])
      · simp only at heq
        obtain ⟨rfl, rfl⟩ := Prod.mk.inj (Option.some.inj heq)
        exact .handover hhandover hquiet
  | poll i past => exact stepped_poll hplaced hstep
  | set raw =>
      obtain ⟨w, hsetting, heq⟩ := Option.map_eq_some_iff.mp hstep
      obtain ⟨rfl, rfl⟩ := Prod.mk.inj heq
      exact .set raw hsetting
  | hardware i =>
      simp only [step] at hstep
      split at hstep
      · next hforeign =>
          obtain ⟨⟨hw, es'⟩, hhw, heq⟩ := Option.map_eq_some_iff.mp hstep
          obtain ⟨rfl, rfl⟩ := Prod.mk.inj heq
          refine .beside (by simp) (fun hs => hs) rfl rfl rfl rfl rfl (own_step ?_ ?_ hhw)
          · rintro st rfl
            simp [foreign] at hforeign
          · rintro d raw rfl
            simp [foreign] at hforeign
      · cases hstep
  | configure publishesState publishesRpdo =>
      simp only [step] at hstep
      split at hstep
      · obtain ⟨rfl, rfl⟩ := Prod.mk.inj (Option.some.inj hstep)
        refine .beside ?_ (fun hs => hs) rfl rfl rfl rfl rfl ⟨rfl, rfl⟩
        intro e he
        rw [List.mem_singleton.mp he]
        exact ⟨rfl, rfl, rfl, rfl⟩
      · cases hstep
  | update env =>
      obtain ⟨hs', hes, hupdating⟩ := eq_of_step_update hstep
      rw [hs', hes]
      exact .update env hupdating
  | goOn =>
      obtain ⟨run, hupdating, heq⟩ := Option.map_eq_some_iff.mp hstep
      obtain ⟨rfl, rfl⟩ := Prod.mk.inj heq
      exact .goOn hupdating

end Steps

end Topics
end RosCanopen.Ros2Control
