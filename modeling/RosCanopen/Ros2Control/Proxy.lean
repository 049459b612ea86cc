import RosCanopen.Ros2Control.COData
import RosCanopen.Lib.System

/-!
# The proxy controller and its hardware

`CanopenProxyController` copies messages from `~/tpdo` to the command interfaces and the
state interfaces to `~/rpdo`; `CanopenSystem` sends what it finds in the command interfaces
to the device and fills the state interfaces with what the device has sent.  Both sides of
an interface are a double, and both paths pass the default type `int32_t`, while the
messages are unsigned: data with the top bit set does not come through.

## Main definitions

* `CanopenNodeData`, `Proxy.system` — a joint, with all its calls in any order.
* `TpdoUnchanged`, `RpdoUnchanged` — a datum comes through on the one path, on the other.
-/

namespace RosCanopen.Ros2Control

open Lib Cia402
open Bridge (COData)

/-- The one-shot commands and feedbacks of `Ros2ControlNmtState`. -/
structure Ros2ControlNmtState where
  resetOns : Double := .nan
  resetFbk : Double := .nan
  startOns : Double := .nan
  startFbk : Double := .nan

namespace Ros2ControlNmtState

def resetCommand (s : Ros2ControlNmtState) : Bool × Ros2ControlNmtState :=
  (!isNan s.resetOns, { s with resetOns := .nan })

def startCommand (s : Ros2ControlNmtState) : Bool × Ros2ControlNmtState :=
  (!isNan s.startOns, { s with startOns := .nan })

end Ros2ControlNmtState

structure CanopenNodeData where
  nmtState : Ros2ControlNmtState
  rpdoData : RORos2ControlCOData
  tpdoData : WORos2ControlCoData
  rpdoDataMap : BitVec 16 × BitVec 8 → Option Double
  rpdoRawDataMap : BitVec 16 × BitVec 8 → Option (BitVec 32)

/-- The way from `~/tpdo` to the device, and the way back to `~/rpdo`. -/
inductive Path
  | tpdo
  | rpdo
  deriving DecidableEq

inductive ProxyEvent
  /-- The device has sent a datum. -/
  | received (d : COData)
  | published (d : COData)
  /-- An update has set all interfaces of a command. -/
  | copied (m : COData)
  /-- The interfaces of a command were set in part. -/
  | disturbed
  | transmitted (d : COData)
  /-- A conversion had no defined result. -/
  | outOfRange (path : Path)
  | reset (ok : Bool)
  | start (ok : Bool)
  | threw
  deriving DecidableEq

/-- What decides an update. -/
structure UpdateEnv where
  /-- What `readFromRT` gives. -/
  command : Option COData
  /-- The outcomes of `set_value`. -/
  setsIndex : Bool
  setsSubindex : Bool
  setsData : Bool
  setsOns : Bool
  /-- The outcomes of `get_optional`. -/
  readsIndex : Bool
  readsSubindex : Bool
  readsData : Bool
  /-- The outcome of `try_publish`. -/
  publishes : Bool
  /-- What the machine makes of conversions out of range. -/
  raw : COData

/-- What decides a write. -/
structure WriteEnv where
  /-- There is a driver for the node. -/
  registered : Bool
  /-- The results of the NMT commands, or an exception. -/
  reset : Option Bool
  start : Option Bool
  raw : COData

/-- The outcomes of `set_value` in a deactivation. -/
structure DeactivateEnv where
  setsIndex : Bool
  setsSubindex : Bool
  setsData : Bool
  setsOns : Bool
  setsReset : Bool
  setsResetFbk : Bool
  setsStart : Bool
  setsStartFbk : Bool

namespace CanopenNodeData

/-- `set_rpdo_data`, which the driver calls with each datum received. -/
def setRpdoData (s : CanopenNodeData) (d : COData) (raw : Double) : CanopenNodeData :=
  let rpdoData := (s.rpdoData.setData d).prepareData raw
  { s with
    rpdoData := rpdoData
    rpdoRawDataMap := Function.update s.rpdoRawDataMap (d.index, d.subindex) (some d.data)
    rpdoDataMap := Function.update s.rpdoDataMap (d.index, d.subindex) (some rpdoData.data) }

/-! ## The controller -/

/-- The message that an update makes of the state interfaces. -/
def rpdoMessage (s : CanopenNodeData) (raw : COData) : COData where
  index := (staticCast ⟨false, 16⟩ s.rpdoData.index).getD raw.index
  subindex := (staticCast ⟨false, 8⟩ s.rpdoData.subindex).getD raw.subindex
  data := (staticCast ⟨false, 32⟩ s.rpdoData.data).getD raw.data

/-- Its conversions are in range. -/
def rpdoInRange (s : CanopenNodeData) : Bool :=
  (staticCast ⟨false, 16⟩ s.rpdoData.index).isSome &&
    (staticCast ⟨false, 8⟩ s.rpdoData.subindex).isSome &&
    (staticCast ⟨false, 32⟩ s.rpdoData.data).isSome

/-- The part of `update` that exposes the RPDO data. -/
def publishRpdo (s : CanopenNodeData) (env : UpdateEnv) : List ProxyEvent :=
  if env.readsIndex && env.readsSubindex && env.readsData then
    (if env.publishes then [.published (s.rpdoMessage env.raw)] else []) ++
      (if s.rpdoInRange then [] else [.outOfRange .rpdo])
  else []

/-- The part of `update` that copies the command. -/
def copyCommand (s : CanopenNodeData) (env : UpdateEnv) : CanopenNodeData × List ProxyEvent :=
  match env.command with
  | none => (s, [])
  | some m =>
      let t := s.tpdoData
      let t := if env.setsIndex then { t with index := ofUnsigned m.index } else t
      let t := if env.setsSubindex then { t with subindex := ofUnsigned m.subindex } else t
      let t := if env.setsData then { t with data := ofUnsigned m.data } else t
      let t := if env.setsOns then { t with oneShot := .fin 1 } else t
      ({ s with tpdoData := t },
        if env.setsIndex && env.setsSubindex && env.setsData && env.setsOns then [.copied m]
        else [.disturbed])

/-- `CanopenProxyController::update`. -/
def update (s : CanopenNodeData) (env : UpdateEnv) : CanopenNodeData × List ProxyEvent :=
  let (s', es) := s.copyCommand env
  (s', es ++ s.publishRpdo env)

/-- `CanopenProxyController::on_deactivate`. -/
def onDeactivate (s : CanopenNodeData) (env : DeactivateEnv) : CanopenNodeData :=
  let unset (ok : Bool) (x : Double) : Double := if ok then .nan else x
  { s with
    tpdoData := { s.tpdoData with
      index := unset env.setsIndex s.tpdoData.index
      subindex := unset env.setsSubindex s.tpdoData.subindex
      data := unset env.setsData s.tpdoData.data
      oneShot := unset env.setsOns s.tpdoData.oneShot }
    nmtState :=
      { resetOns := unset env.setsReset s.nmtState.resetOns
        resetFbk := unset env.setsResetFbk s.nmtState.resetFbk
        startOns := unset env.setsStart s.nmtState.startOns
        startFbk := unset env.setsStartFbk s.nmtState.startFbk } }

/-! ## The hardware -/

def ofBool (b : Bool) : Double := .fin (if b then 1 else 0)

/-- An NMT command of `write`; an exception leaves the feedback as it is. -/
def command (s : CanopenNodeData) (taken : Bool × Ros2ControlNmtState) (result : Option Bool)
    (feedback : Double → Ros2ControlNmtState → Ros2ControlNmtState) (event : Bool → ProxyEvent) :
    CanopenNodeData × Bool × List ProxyEvent :=
  match taken.1, result with
  | false, _ => ({ s with nmtState := taken.2 }, true, [])
  | true, none => ({ s with nmtState := taken.2 }, false, [.threw])
  | true, some ok =>
      ({ s with nmtState := feedback (ofBool ok) taken.2 }, true, [event ok])

/-- The reset of `write`. -/
def writeReset (s : CanopenNodeData) (env : WriteEnv) :
    CanopenNodeData × Bool × List ProxyEvent :=
  s.command s.nmtState.resetCommand env.reset (fun x nmt => { nmt with resetFbk := x }) .reset

/-- The start of `write`. -/
def writeStart (s : CanopenNodeData) (env : WriteEnv) :
    CanopenNodeData × Bool × List ProxyEvent :=
  s.command s.nmtState.startCommand env.start (fun x nmt => { nmt with startFbk := x }) .start

/-- The one-shot mechanism of `write`; what `tpdo_transmit` throws is caught. -/
def writeTpdo (s : CanopenNodeData) (env : WriteEnv) : CanopenNodeData × List ProxyEvent :=
  let (pending, t) := s.tpdoData.writeCommand
  if pending then
    let prepared := t.prepareData env.raw
    ({ s with tpdoData := prepared },
      .transmitted prepared.originalData :: if t.inRange then [] else [.outOfRange .tpdo])
  else ({ s with tpdoData := t }, [])

/-- `CanopenSystem::write`, for the node. -/
def write (s : CanopenNodeData) (env : WriteEnv) : CanopenNodeData × List ProxyEvent :=
  if env.registered then
    let (s, goes, es) := s.writeReset env
    if goes then
      let (s, goes, es') := s.writeStart env
      if goes then
        let (s, es'') := s.writeTpdo env
        (s, es'' ++ es' ++ es)
      else (s, es' ++ es)
    else (s, es)
  else (s, [])

end CanopenNodeData

inductive ProxyStep
  /-- A datum comes from the device. -/
  | rpdo (d : COData) (raw : Double)
  | update (env : UpdateEnv)
  | write (env : WriteEnv)
  | deactivate (env : DeactivateEnv)
  /-- A service of the controller sets an NMT interface. -/
  | nmt (nmtState : Ros2ControlNmtState)

namespace Proxy

def step (s : CanopenNodeData) : ProxyStep → Option (CanopenNodeData × List ProxyEvent)
  | .rpdo d raw => some (s.setRpdoData d raw, [.received d])
  | .update env => some (s.update env)
  | .write env => some (s.write env)
  | .deactivate env => some (s.onDeactivate env, [.disturbed])
  | .nmt nmtState => some ({ s with nmtState := nmtState }, [])

/-- No command pends, and nobody has changed the types. -/
structure Fresh (s : CanopenNodeData) : Prop where
  oneShot : s.tpdoData.oneShot = .nan
  tpdoType : s.tpdoData.coType = .int32
  rpdoType : s.rpdoData.coType = .int32

/-- The joint from the construction of its data. -/
def system : System CanopenNodeData ProxyStep ProxyEvent where
  init := Fresh
  step := step

end Proxy

/-! ## What comes through -/

namespace ProxyEvent

/-- The event touches the interfaces of a command. -/
def isCopy : ProxyEvent → Bool
  | .copied _ => true
  | .disturbed => true
  | _ => false

def isReceived : ProxyEvent → Bool
  | .received _ => true
  | _ => false

def isTransmitted : ProxyEvent → Bool
  | .transmitted _ => true
  | _ => false

/-- The event belongs to the NMT part of a write. -/
def isNmt : ProxyEvent → Bool
  | .reset _ => true
  | .start _ => true
  | .threw => true
  | _ => false

end ProxyEvent

/-- The command interfaces were last set by copying the message. -/
def lastCopied (m : COData) : List ProxyEvent → Bool :=
  since (fun e => !e.isCopy) (fun e => e = .copied m)

/-- The message was copied, and no write has taken the command since. -/
def pends (m : COData) : List ProxyEvent → Bool :=
  since (fun e => !e.isCopy && !e.isTransmitted) (fun e => e = .copied m)

/-- The datum is the latest that was received. -/
def lastReceived (d : COData) : List ProxyEvent → Bool :=
  since (fun e => !e.isReceived) (fun e => e = .received d)

/-- The message comes to the device as it is: the next write hands it over, and no
write after its copying hands over another, or converts out of range. -/
structure TpdoUnchanged (m : COData) : Prop where
  handed : ∀ h s, Reach Proxy.system Guard.free h s → pends m h = true → ∀ env : WriteEnv,
    env.registered = true → env.reset ≠ none → env.start ≠ none →
      .transmitted m ∈ (s.write env).2
  kept : ∀ h s, Reach Proxy.system Guard.free h s →
    Historically (fun e before => lastCopied m before = true →
      e ≠ .outOfRange .tpdo ∧ ∀ d, e = .transmitted d → d = m) h

/-- The datum comes from the device as it is: the next update publishes it, and no update
before the next datum publishes another, or converts out of range. -/
structure RpdoUnchanged (d : COData) : Prop where
  handed : ∀ h s, Reach Proxy.system Guard.free h s → lastReceived d h = true →
    ∀ env : UpdateEnv, env.readsIndex = true → env.readsSubindex = true →
      env.readsData = true → env.publishes = true → .published d ∈ (s.update env).2
  kept : ∀ h s, Reach Proxy.system Guard.free h s →
    Historically (fun e before => lastReceived d before = true →
      e ≠ .outOfRange .rpdo ∧ ∀ p, e = .published p → p = d) h

/-! ## The steps on the interfaces -/

namespace CanopenNodeData
variable {s : CanopenNodeData} {m d : COData}

/-- The command interfaces hold the message. -/
structure Commands (s : CanopenNodeData) (m : COData) : Prop where
  index : s.tpdoData.index = ofUnsigned m.index
  subindex : s.tpdoData.subindex = ofUnsigned m.subindex
  data : s.tpdoData.data = ofUnsigned m.data

/-- The state interfaces hold the datum. -/
structure Shows (s : CanopenNodeData) (d : COData) : Prop where
  index : s.rpdoData.index = ofUnsigned d.index
  subindex : s.rpdoData.subindex = ofUnsigned d.subindex
  data : ∃ raw, s.rpdoData.data = ((CoType.int32.load d.data).map Double.fin).getD raw

theorem shows_setRpdoData (htype : s.rpdoData.coType = .int32) (d : COData) (raw : Double) :
    (s.setRpdoData d raw).Shows d := by
  refine ⟨rfl, rfl, raw, ?_⟩
  rw [← htype]
  rfl

theorem publishRpdo_of_shows (h : s.Shows d) (env : UpdateEnv) (hd : d.data.toNat < 2 ^ 31) :
    s.rpdoMessage env.raw = d ∧ s.rpdoInRange = true := by
  obtain ⟨raw, hdata⟩ := h.data
  have hindex : staticCast ⟨false, 16⟩ s.rpdoData.index = some d.index := by
    rw [h.index, staticCast_ofUnsigned (by decide)]
  have hsubindex : staticCast ⟨false, 8⟩ s.rpdoData.subindex = some d.subindex := by
    rw [h.subindex, staticCast_ofUnsigned (by decide)]
  have hdata' : staticCast ⟨false, 32⟩ s.rpdoData.data = some d.data := by
    rw [hdata, staticCast_load, if_pos hd]
  constructor
  · rw [rpdoMessage, hindex, hsubindex, hdata']
    rfl
  · rw [rpdoInRange, hindex, hsubindex, hdata']
    rfl

/-- A datum with the top bit set has no defined conversion. -/
theorem rpdoInRange_of_shows (h : s.Shows d) (hd : ¬ d.data.toNat < 2 ^ 31) :
    s.rpdoInRange = false := by
  obtain ⟨raw, hdata⟩ := h.data
  rw [rpdoInRange, hdata, staticCast_load, if_neg hd]
  exact Bool.and_false _

theorem writeTpdo_of_commands (h : s.Commands m) (htype : s.tpdoData.coType = .int32)
    (env : WriteEnv) (hm : m.data.toNat < 2 ^ 31) :
    (s.writeTpdo env).2 = if isNan s.tpdoData.oneShot then [] else [.transmitted m] := by
  have hindex : staticCast ⟨false, 16⟩ s.tpdoData.index = some m.index := by
    rw [h.index, staticCast_ofUnsigned (by decide)]
  have hsubindex : staticCast ⟨false, 8⟩ s.tpdoData.subindex = some m.subindex := by
    rw [h.subindex, staticCast_ofUnsigned (by decide)]
  have hdata : s.tpdoData.coType.store s.tpdoData.data s.tpdoData.originalData.data =
      some m.data := by
    rw [htype, h.data, store_ofUnsigned, if_pos hm]
  cases hpending : isNan s.tpdoData.oneShot with
  | true => simp [writeTpdo, WORos2ControlCoData.writeCommand, hpending]
  | false =>
      simp [writeTpdo, WORos2ControlCoData.writeCommand, WORos2ControlCoData.prepareData,
        WORos2ControlCoData.inRange, hpending, hindex, hsubindex, hdata]

/-- A message with the top bit set has no defined conversion. -/
theorem outOfRange_of_commands (h : s.Commands m) (htype : s.tpdoData.coType = .int32)
    (hpending : isNan s.tpdoData.oneShot = false) (env : WriteEnv)
    (hm : ¬ m.data.toNat < 2 ^ 31) :
    ∃ d, (s.writeTpdo env).2 = [.transmitted d, .outOfRange .tpdo] := by
  have hdata : s.tpdoData.coType.store s.tpdoData.data s.tpdoData.originalData.data = none := by
    rw [htype, h.data, store_ofUnsigned, if_neg hm]
  simp [writeTpdo, WORos2ControlCoData.writeCommand, WORos2ControlCoData.inRange, hpending, hdata]

/-! ## A write, and its NMT part -/

theorem command_spec (s : CanopenNodeData) (taken : Bool × Ros2ControlNmtState)
    (result : Option Bool) (feedback : Double → Ros2ControlNmtState → Ros2ControlNmtState)
    {e : Bool → ProxyEvent} (hevent : ∀ ok, (e ok).isNmt = true) : ∃ nmt goes es,
    s.command taken result feedback e = ({ s with nmtState := nmt }, goes, es) ∧
      (∀ e ∈ es, e.isNmt = true) ∧ (result ≠ none → goes = true) := by
  obtain ⟨pending, nmt⟩ := taken
  cases pending with
  | false => exact ⟨nmt, true, [], rfl, by simp, fun _ => rfl⟩
  | true =>
      cases result with
      | none =>
          exact ⟨nmt, false, [.threw], rfl, by simp [ProxyEvent.isNmt], fun h => absurd rfl h⟩
      | some ok => exact ⟨feedback (ofBool ok) nmt, true, [e ok], rfl, by simp [hevent],
          fun _ => rfl⟩

/-- **What a write does**: its NMT part, and the one-shot mechanism unless that threw. -/
theorem write_spec (s : CanopenNodeData) (env : WriteEnv) : ∃ nmt es, (∀ e ∈ es, e.isNmt = true) ∧
    ((s.write env = ({ s with nmtState := nmt }, es) ∧
        ¬ (env.registered = true ∧ env.reset ≠ none ∧ env.start ≠ none)) ∨
      s.write env = ((({ s with nmtState := nmt } : CanopenNodeData).writeTpdo env).1,
        (({ s with nmtState := nmt } : CanopenNodeData).writeTpdo env).2 ++ es)) := by
  cases hregistered : env.registered with
  | false =>
      refine ⟨s.nmtState, [], by simp, .inl ⟨?_, by simp⟩⟩
      simp [write, hregistered]
  | true =>
      obtain ⟨nmt, goes, es, hreset, hes, hgoes⟩ := command_spec s s.nmtState.resetCommand
        env.reset (fun x nmt => { nmt with resetFbk := x }) (e := .reset) fun _ => rfl
      cases goes with
      | false =>
          refine ⟨nmt, es, hes, .inl ⟨?_, fun h => by simpa using hgoes h.2.1⟩⟩
          simp [write, writeReset, hregistered, hreset]
      | true =>
          obtain ⟨nmt', goes', es', hstart, hes', hgoes'⟩ := command_spec
            { s with nmtState := nmt } nmt.startCommand env.start
            (fun x nmt => { nmt with startFbk := x }) (e := .start) fun _ => rfl
          have hall : ∀ e ∈ es' ++ es, e.isNmt = true := by
            intro e he
            rcases List.mem_append.mp he with he | he
            · exact hes' e he
            · exact hes e he
          cases goes' with
          | false =>
              refine ⟨nmt', es' ++ es, hall, .inl ⟨?_, fun h => by simpa using hgoes' h.2.2⟩⟩
              simp [write, writeReset, writeStart, hregistered, hreset, hstart]
          | true =>
              refine ⟨nmt', es' ++ es, hall, .inr ?_⟩
              simp [write, writeReset, writeStart, hregistered, hreset, hstart]

/-- The interfaces are the same but for the one-shots. -/
structure Same (s s' : CanopenNodeData) : Prop where
  rpdoData : s'.rpdoData = s.rpdoData
  coType : s'.tpdoData.coType = s.tpdoData.coType
  index : s'.tpdoData.index = s.tpdoData.index
  subindex : s'.tpdoData.subindex = s.tpdoData.subindex
  data : s'.tpdoData.data = s.tpdoData.data

theorem same_nmt (s : CanopenNodeData) (nmt : Ros2ControlNmtState) :
    Same s { s with nmtState := nmt } :=
  ⟨rfl, rfl, rfl, rfl, rfl⟩

theorem same_writeTpdo (s : CanopenNodeData) (env : WriteEnv) : Same s (s.writeTpdo env).1 := by
  rw [writeTpdo, WORos2ControlCoData.writeCommand]
  cases isNan s.tpdoData.oneShot <;> exact ⟨rfl, rfl, rfl, rfl, rfl⟩

theorem Same.trans {s₁ s₂ s₃ : CanopenNodeData} (h : Same s₁ s₂) (h' : Same s₂ s₃) : Same s₁ s₃ :=
  ⟨h'.rpdoData.trans h.rpdoData, h'.coType.trans h.coType, h'.index.trans h.index,
    h'.subindex.trans h.subindex, h'.data.trans h.data⟩

theorem same_write (s : CanopenNodeData) (env : WriteEnv) : Same s (s.write env).1 := by
  obtain ⟨nmt, es, -, ⟨hwrite, -⟩ | hwrite⟩ := write_spec s env
  · rw [hwrite]
    exact same_nmt s nmt
  · rw [hwrite]
    exact (same_nmt s nmt).trans (same_writeTpdo _ env)

theorem Commands.same {s' : CanopenNodeData} (hm : s.Commands m) (h : Same s s') :
    s'.Commands m :=
  ⟨h.index.trans hm.index, h.subindex.trans hm.subindex, h.data.trans hm.data⟩

end CanopenNodeData

/-! ## The latest message and the latest datum -/

section Latest
variable {h es : List ProxyEvent} {m d : COData}

theorem lastCopied_append (hes : ∀ e ∈ es, e.isCopy = false) :
    lastCopied m (es ++ h) = lastCopied m h := by
  refine since_append h fun e he => ⟨by simp [hes e he], decide_eq_false ?_⟩
  rintro rfl
  exact absurd (hes _ he) (by simp [ProxyEvent.isCopy])

theorem lastReceived_append (hes : ∀ e ∈ es, e.isReceived = false) :
    lastReceived d (es ++ h) = lastReceived d h := by
  refine since_append h fun e he => ⟨by simp [hes e he], decide_eq_false ?_⟩
  rintro rfl
  exact absurd (hes _ he) (by simp [ProxyEvent.isReceived])

theorem pends_append (hes : ∀ e ∈ es, e.isCopy = false ∧ e.isTransmitted = false) :
    pends m (es ++ h) = pends m h := by
  refine since_append h fun e he => ⟨by simp [hes e he], decide_eq_false ?_⟩
  rintro rfl
  exact absurd (hes _ he).1 (by simp [ProxyEvent.isCopy])

theorem eq_of_lastCopied {m' : COData} (h : lastCopied m (.copied m' :: es) = true) : m' = m := by
  simpa [lastCopied, ProxyEvent.isCopy] using h

theorem lastCopied_disturbed : lastCopied m (.disturbed :: h) = false := by
  simp [lastCopied, ProxyEvent.isCopy]

theorem pends_disturbed : pends m (.disturbed :: h) = false := by
  simp [pends, ProxyEvent.isCopy]

/-- A command that a write has taken does not pend. -/
theorem pends_transmitted : pends m (.transmitted d :: h) = false := by
  simp [pends, ProxyEvent.isTransmitted]

theorem lastCopied_of_pends (hm : pends m h = true) : lastCopied m h = true := by
  induction h with
  | nil => simp [pends] at hm
  | cons e h ih =>
      simp only [pends, lastCopied, since_cons, Bool.or_eq_true, Bool.and_eq_true] at hm ih ⊢
      rcases hm with hm | ⟨⟨hcopy, -⟩, hm⟩
      · exact .inl hm
      · exact .inr ⟨hcopy, ih hm⟩

theorem eq_of_lastReceived {d' : COData} (h : lastReceived d (.received d' :: es) = true) :
    d' = d := by
  simpa [lastReceived, ProxyEvent.isReceived] using h

end Latest

/-! ## The invariant of the joint -/

/-- The interfaces hold what was put there last, and a command that pends is there. -/
structure Carried (h : List ProxyEvent) (s : CanopenNodeData) : Prop where
  tpdoType : s.tpdoData.coType = .int32
  rpdoType : s.rpdoData.coType = .int32
  commands : ∀ m, lastCopied m h = true → s.Commands m
  shown : ∀ d, lastReceived d h = true → s.Shows d
  pending : ∀ m, pends m h = true → isNan s.tpdoData.oneShot = false

namespace CanopenNodeData

/-- What an update does to the command interfaces. -/
inductive Copied (s : CanopenNodeData) : CanopenNodeData → List ProxyEvent → Prop
  | none : Copied s s []
  | all {m : COData} {t : WORos2ControlCoData} (htype : t.coType = s.tpdoData.coType)
      (hm : ({ s with tpdoData := t } : CanopenNodeData).Commands m)
      (hpending : isNan t.oneShot = false) : Copied s { s with tpdoData := t } [.copied m]
  | part {t : WORos2ControlCoData} (htype : t.coType = s.tpdoData.coType) :
      Copied s { s with tpdoData := t } [.disturbed]

theorem copied_copyCommand (s : CanopenNodeData) (env : UpdateEnv) :
    Copied s (s.copyCommand env).1 (s.copyCommand env).2 := by
  cases hcommand : env.command with
  | none =>
      rw [copyCommand, hcommand]
      exact .none
  | some m =>
      rw [copyCommand, hcommand]
      cases hi : env.setsIndex <;> cases hs : env.setsSubindex <;> cases hd : env.setsData <;>
        cases ho : env.setsOns <;>
        first | exact .all rfl ⟨rfl, rfl, rfl⟩ rfl | exact .part rfl

theorem isRpdo_publishRpdo (s : CanopenNodeData) (env : UpdateEnv) : ∀ e ∈ s.publishRpdo env,
    e = .published (s.rpdoMessage env.raw) ∨ (e = .outOfRange .rpdo ∧ s.rpdoInRange = false) := by
  intro e he
  rw [publishRpdo] at he
  split at he
  · rcases List.mem_append.mp he with he | he
    · split at he
      · exact .inl (List.mem_singleton.mp he)
      · simp at he
    · split at he
      · simp at he
      · next hrange => exact .inr ⟨List.mem_singleton.mp he, by simpa using hrange⟩
  · simp at he

/-- The one-shot mechanism hands a command over iff one is there. -/
theorem writeTpdo_cases (s : CanopenNodeData) (env : WriteEnv) :
    (isNan s.tpdoData.oneShot = true ∧ (s.writeTpdo env).2 = []) ∨
      ∃ d es, (s.writeTpdo env).2 = .transmitted d :: es ∧ ∀ e ∈ es, e = .outOfRange .tpdo := by
  cases hpending : isNan s.tpdoData.oneShot with
  | true => simp [writeTpdo, WORos2ControlCoData.writeCommand, hpending]
  | false =>
      have hes : ∃ d, (s.writeTpdo env).2 =
          .transmitted d :: if s.tpdoData.inRange then [] else [.outOfRange .tpdo] := by
        simp only [writeTpdo, WORos2ControlCoData.writeCommand, hpending, Bool.not_false, if_true]
        exact ⟨_, rfl⟩
      obtain ⟨d, hes⟩ := hes
      refine .inr ⟨d, _, hes, fun e he => ?_⟩
      split at he
      · simp at he
      · exact List.mem_singleton.mp he

theorem isTpdo_writeTpdo (s : CanopenNodeData) (env : WriteEnv) :
    ∀ e ∈ (s.writeTpdo env).2, (∃ d, e = .transmitted d) ∨ e = .outOfRange .tpdo := by
  intro e he
  obtain ⟨-, hnone⟩ | ⟨d, es, hes, hall⟩ := writeTpdo_cases s env
  · simp [hnone] at he
  · rw [hes] at he
    rcases List.mem_cons.mp he with rfl | he
    · exact .inl ⟨d, rfl⟩
    · exact .inr (hall e he)

theorem mem_update {s : CanopenNodeData} {env : UpdateEnv} {e : ProxyEvent}
    (he : e ∈ (s.update env).2) :
    ((∃ m, e = .copied m) ∨ e = .disturbed) ∨ e ∈ s.publishRpdo env := by
  have hes : (s.update env).2 = (s.copyCommand env).2 ++ s.publishRpdo env := rfl
  rw [hes] at he
  rcases List.mem_append.mp he with he | he
  · have hcopied := copied_copyCommand s env
    generalize (s.copyCommand env).1 = s', (s.copyCommand env).2 = es at hcopied he
    cases hcopied with
    | none => simp at he
    | all htype hm hpending => exact .inl (.inl ⟨_, List.mem_singleton.mp he⟩)
    | part htype => exact .inl (.inr (List.mem_singleton.mp he))
  · exact .inr he

theorem mem_write {s : CanopenNodeData} {env : WriteEnv} {e : ProxyEvent}
    (he : e ∈ (s.write env).2) :
    e.isNmt = true ∨ (∃ d, e = .transmitted d) ∨ e = .outOfRange .tpdo := by
  obtain ⟨nmt, es, hes, ⟨hwrite, -⟩ | hwrite⟩ := write_spec s env
  · rw [hwrite] at he
    exact .inl (hes e he)
  · rw [hwrite] at he
    rcases List.mem_append.mp he with he | he
    · exact .inr (isTpdo_writeTpdo _ env e he)
    · exact .inl (hes e he)

/-- A write neither copies nor receives. -/
theorem quiet_write (s : CanopenNodeData) (env : WriteEnv) :
    ∀ e ∈ (s.write env).2, e.isCopy = false ∧ e.isReceived = false := by
  intro e he
  rcases mem_write he with he | ⟨d, rfl⟩ | rfl
  · cases e <;> first | exact ⟨rfl, rfl⟩ | contradiction
  · exact ⟨rfl, rfl⟩
  · exact ⟨rfl, rfl⟩

theorem quiet_publishRpdo (s : CanopenNodeData) (env : UpdateEnv) :
    ∀ e ∈ s.publishRpdo env,
      e.isCopy = false ∧ e.isReceived = false ∧ e.isTransmitted = false := by
  intro e he
  rcases isRpdo_publishRpdo s env e he with rfl | ⟨rfl, -⟩ <;> exact ⟨rfl, rfl, rfl⟩

end CanopenNodeData

namespace Carried
variable {h : List ProxyEvent} {s : CanopenNodeData}

theorem of_fresh (hs : Proxy.Fresh s) : Carried [] s :=
  ⟨hs.tpdoType, hs.rpdoType, by simp [lastCopied], by simp [lastReceived], by simp [pends]⟩

theorem rpdo (hs : Carried h s) (d : COData) (raw : Double) :
    Carried ([.received d] ++ h) (s.setRpdoData d raw) := by
  refine ⟨hs.tpdoType, hs.rpdoType, fun m hm => ?_, fun d' hd' => ?_, fun m hm => ?_⟩
  · rw [lastCopied_append (by simp [ProxyEvent.isCopy])] at hm
    obtain ⟨hindex, hsubindex, hdata⟩ := hs.commands m hm
    exact ⟨hindex, hsubindex, hdata⟩
  · obtain rfl := eq_of_lastReceived hd'
    exact CanopenNodeData.shows_setRpdoData hs.rpdoType d raw
  · rw [pends_append (by simp [ProxyEvent.isCopy, ProxyEvent.isTransmitted])] at hm
    exact hs.pending m hm

theorem update (hs : Carried h s) (env : UpdateEnv) :
    Carried ((s.update env).2 ++ h) (s.update env).1 := by
  have hquiet := CanopenNodeData.quiet_publishRpdo s env
  have hmid : Carried (s.publishRpdo env ++ h) s := by
    refine ⟨hs.tpdoType, hs.rpdoType, fun m hm => ?_, fun d hd => ?_, fun m hm => ?_⟩
    · rw [lastCopied_append fun e he => (hquiet e he).1] at hm
      exact hs.commands m hm
    · rw [lastReceived_append fun e he => (hquiet e he).2.1] at hd
      exact hs.shown d hd
    · rw [pends_append fun e he => ⟨(hquiet e he).1, (hquiet e he).2.2⟩] at hm
      exact hs.pending m hm
  have hcopied := CanopenNodeData.copied_copyCommand s env
  show Carried ((s.copyCommand env).2 ++ s.publishRpdo env ++ h) (s.copyCommand env).1
  rw [List.append_assoc]
  generalize s.publishRpdo env ++ h = h at hmid
  generalize (s.copyCommand env).1 = s', (s.copyCommand env).2 = es at hcopied
  have hshown : ∀ {es : List ProxyEvent} {t : WORos2ControlCoData},
      (∀ e ∈ es, e.isReceived = false) → ∀ d, lastReceived d (es ++ h) = true →
        ({ s with tpdoData := t } : CanopenNodeData).Shows d := by
    intro es t hes d hd
    rw [lastReceived_append hes] at hd
    obtain ⟨hindex, hsubindex, hdata⟩ := hmid.shown d hd
    exact ⟨hindex, hsubindex, hdata⟩
  cases hcopied with
  | none => exact hmid
  | all htype hm hpending =>
      refine ⟨htype.trans hs.tpdoType, hs.rpdoType, fun m' hm' => ?_,
        hshown (by simp [ProxyEvent.isReceived]), fun _ _ => hpending⟩
      obtain rfl := eq_of_lastCopied hm'
      exact hm
  | part htype =>
      refine ⟨htype.trans hs.tpdoType, hs.rpdoType, fun m hm => ?_,
        hshown (by simp [ProxyEvent.isReceived]), fun m hm => ?_⟩
      · simp [lastCopied_disturbed] at hm
      · simp [pends_disturbed] at hm

/-- A command that still pends after a write has not been touched. -/
theorem pending_write (hs : Carried h s) (env : WriteEnv) {m : COData}
    (hm : pends m ((s.write env).2 ++ h) = true) :
    isNan (s.write env).1.tpdoData.oneShot = false := by
  have hnmt : ∀ {es h}, (∀ e ∈ es, e.isNmt = true) → pends m (es ++ h) = pends m h := by
    intro es h hes
    refine pends_append fun e he => ?_
    have he := hes e he
    cases e <;> first | exact ⟨rfl, rfl⟩ | contradiction
  obtain ⟨nmt, es, hes, ⟨hwrite, -⟩ | hwrite⟩ := CanopenNodeData.write_spec s env
  · rw [hwrite] at hm ⊢
    rw [hnmt hes] at hm
    exact hs.pending m hm
  · rw [hwrite] at hm ⊢
    rw [List.append_assoc] at hm
    obtain ⟨hnan, hnone⟩ | ⟨d, es', hes', hall⟩ :=
      CanopenNodeData.writeTpdo_cases { s with nmtState := nmt } env
    · rw [hnone, List.nil_append, hnmt hes] at hm
      have hpending := hs.pending m hm
      rw [show isNan s.tpdoData.oneShot = true from hnan] at hpending
      contradiction
    · rw [hes', List.cons_append, pends_transmitted] at hm
      contradiction

theorem write (hs : Carried h s) (env : WriteEnv) :
    Carried ((s.write env).2 ++ h) (s.write env).1 := by
  have hsame := CanopenNodeData.same_write s env
  have hquiet := CanopenNodeData.quiet_write s env
  refine ⟨hsame.coType.trans hs.tpdoType, ?_, fun m hm => ?_, fun d hd => ?_, fun m hm => ?_⟩
  · rw [hsame.rpdoData]
    exact hs.rpdoType
  · rw [lastCopied_append fun e he => (hquiet e he).1] at hm
    exact (hs.commands m hm).same hsame
  · rw [lastReceived_append fun e he => (hquiet e he).2] at hd
    obtain ⟨hindex, hsubindex, hdata⟩ := hs.shown d hd
    rw [← hsame.rpdoData] at hindex hsubindex hdata
    exact ⟨hindex, hsubindex, hdata⟩
  · exact hs.pending_write env hm

theorem deactivate (hs : Carried h s) (env : DeactivateEnv) :
    Carried ([.disturbed] ++ h) (s.onDeactivate env) := by
  refine ⟨hs.tpdoType, hs.rpdoType, fun m hm => ?_, fun d hd => ?_, fun m hm => ?_⟩
  · simp [lastCopied_disturbed] at hm
  · rw [lastReceived_append (by simp [ProxyEvent.isReceived])] at hd
    obtain ⟨hindex, hsubindex, hdata⟩ := hs.shown d hd
    exact ⟨hindex, hsubindex, hdata⟩
  · simp [pends_disturbed] at hm

theorem nmt (hs : Carried h s) (nmtState : Ros2ControlNmtState) :
    Carried h { s with nmtState := nmtState } := by
  refine ⟨hs.tpdoType, hs.rpdoType, fun m hm => ?_, fun d hd => ?_, hs.pending⟩
  · exact (hs.commands m hm).same (CanopenNodeData.same_nmt s nmtState)
  · obtain ⟨hindex, hsubindex, hdata⟩ := hs.shown d hd
    exact ⟨hindex, hsubindex, hdata⟩

theorem of_step (hs : Carried h s) {i : ProxyStep} {s' : CanopenNodeData} {es : List ProxyEvent}
    (hstep : Proxy.step s i = some (s', es)) : Carried (es ++ h) s' := by
  cases i with
  | rpdo d raw =>
      obtain ⟨rfl, rfl⟩ := Prod.mk.inj (Option.some.inj hstep)
      exact hs.rpdo d raw
  | update env =>
      obtain ⟨rfl, rfl⟩ := Prod.mk.inj (Option.some.inj hstep)
      exact hs.update env
  | write env =>
      have hwrite : s.write env = (s', es) := Option.some.inj hstep
      have hs' := hs.write env
      rwa [hwrite] at hs'
  | deactivate env =>
      obtain ⟨rfl, rfl⟩ := Prod.mk.inj (Option.some.inj hstep)
      exact hs.deactivate env
  | nmt nmtState =>
      obtain ⟨rfl, rfl⟩ := Prod.mk.inj (Option.some.inj hstep)
      exact hs.nmt nmtState

theorem of_reach (hr : Reach Proxy.system Guard.free h s) : Carried h s :=
  hr.invariant (fun _ hs => of_fresh hs) fun _ _ _ _ _ hs _ hstep => hs.of_step hstep

end Carried

/-! ## What each step emits -/

section Emits
variable {h : List ProxyEvent} {s : CanopenNodeData} {m d : COData}

/-- The one-shot mechanism hands over the message copied last. -/
theorem exact_writeTpdo (hs : Carried h s) (hm : m.data.toNat < 2 ^ 31)
    (hcopied : lastCopied m h = true) (nmt : Ros2ControlNmtState) (env : WriteEnv) :
    (({ s with nmtState := nmt } : CanopenNodeData).writeTpdo env).2 =
      if isNan s.tpdoData.oneShot then [] else [.transmitted m] :=
  CanopenNodeData.writeTpdo_of_commands
    ((hs.commands m hcopied).same (CanopenNodeData.same_nmt s nmt)) hs.tpdoType env hm

theorem exact_write (hs : Carried h s) (hm : m.data.toNat < 2 ^ 31)
    (hcopied : lastCopied m h = true) (env : WriteEnv) :
    ∀ e ∈ (s.write env).2, e ≠ .outOfRange .tpdo ∧ ∀ d, e = .transmitted d → d = m := by
  have hnmt : ∀ e : ProxyEvent, e.isNmt = true →
      e ≠ .outOfRange .tpdo ∧ ∀ d, e = .transmitted d → d = m := by
    intro e he
    constructor
    · rintro rfl
      contradiction
    · rintro d rfl
      contradiction
  obtain ⟨nmt, es, hes, ⟨hwrite, -⟩ | hwrite⟩ := CanopenNodeData.write_spec s env
  · rw [hwrite]
    exact fun e he => hnmt e (hes e he)
  · rw [hwrite]
    intro e he
    rcases List.mem_append.mp he with he | he
    · rw [exact_writeTpdo hs hm hcopied] at he
      split at he
      · simp at he
      · obtain rfl := List.mem_singleton.mp he
        exact ⟨by simp, fun d heq => (ProxyEvent.transmitted.inj heq).symm⟩
    · exact hnmt e (hes e he)

/-- Only a write hands a command over. -/
theorem write_of_tpdo {i : ProxyStep} {s' : CanopenNodeData} {es : List ProxyEvent}
    (hstep : Proxy.step s i = some (s', es)) {e : ProxyEvent} (he : e ∈ es)
    (htpdo : e = .outOfRange .tpdo ∨ ∃ d, e = .transmitted d) : ∃ env, i = .write env := by
  cases i with
  | rpdo d raw =>
      obtain ⟨-, rfl⟩ := Prod.mk.inj (Option.some.inj hstep)
      obtain rfl := List.mem_singleton.mp he
      simp at htpdo
  | update env =>
      obtain ⟨-, rfl⟩ := Prod.mk.inj (Option.some.inj hstep)
      rcases CanopenNodeData.mem_update he with ⟨⟨m, rfl⟩ | rfl⟩ | hpublish
      · simp at htpdo
      · simp at htpdo
      · rcases CanopenNodeData.isRpdo_publishRpdo s env e hpublish with rfl | ⟨rfl, -⟩ <;>
          simp at htpdo
  | write env => exact ⟨env, rfl⟩
  | deactivate env =>
      obtain ⟨-, rfl⟩ := Prod.mk.inj (Option.some.inj hstep)
      obtain rfl := List.mem_singleton.mp he
      simp at htpdo
  | nmt nmtState =>
      obtain ⟨-, rfl⟩ := Prod.mk.inj (Option.some.inj hstep)
      simp at he

/-- An update publishes the datum received last. -/
theorem exact_publishRpdo (hs : Carried h s) (hd : d.data.toNat < 2 ^ 31)
    (hreceived : lastReceived d h = true) (env : UpdateEnv) :
    ∀ e ∈ s.publishRpdo env, e ≠ .outOfRange .rpdo ∧ ∀ p, e = .published p → p = d := by
  obtain ⟨hmessage, hrange⟩ :=
    CanopenNodeData.publishRpdo_of_shows (hs.shown d hreceived) env hd
  intro e he
  rcases CanopenNodeData.isRpdo_publishRpdo s env e he with rfl | ⟨-, hout⟩
  · refine ⟨by simp, fun p heq => ?_⟩
    rw [← ProxyEvent.published.inj heq, hmessage]
  · rw [hrange] at hout
    contradiction

/-- Only an update publishes. -/
theorem update_of_rpdo {i : ProxyStep} {s' : CanopenNodeData} {es : List ProxyEvent}
    (hstep : Proxy.step s i = some (s', es)) {e : ProxyEvent} (he : e ∈ es)
    (hrpdo : e = .outOfRange .rpdo ∨ ∃ d, e = .published d) :
    ∃ env, i = .update env ∧ e ∈ s.publishRpdo env := by
  cases i with
  | rpdo d raw =>
      obtain ⟨-, rfl⟩ := Prod.mk.inj (Option.some.inj hstep)
      obtain rfl := List.mem_singleton.mp he
      simp at hrpdo
  | update env =>
      obtain ⟨-, rfl⟩ := Prod.mk.inj (Option.some.inj hstep)
      rcases CanopenNodeData.mem_update he with ⟨⟨m, rfl⟩ | rfl⟩ | hpublish
      · simp at hrpdo
      · simp at hrpdo
      · exact ⟨env, rfl, hpublish⟩
  | write env =>
      have hes : (s.write env).2 = es := by
        rw [Option.some.inj hstep]
      rw [← hes] at he
      rcases CanopenNodeData.mem_write he with hnmt | ⟨d, rfl⟩ | rfl
      · rcases hrpdo with rfl | ⟨d, rfl⟩ <;> contradiction
      · simp at hrpdo
      · simp at hrpdo
  | deactivate env =>
      obtain ⟨-, rfl⟩ := Prod.mk.inj (Option.some.inj hstep)
      obtain rfl := List.mem_singleton.mp he
      simp at hrpdo
  | nmt nmtState =>
      obtain ⟨-, rfl⟩ := Prod.mk.inj (Option.some.inj hstep)
      simp at he

end Emits

/-! ## Data below the sign bit come through -/

section Below
variable {m d : COData}

theorem tpdoUnchanged_of_lt (hm : m.data.toNat < 2 ^ 31) : TpdoUnchanged m := by
  constructor
  · intro h s hr hpends env hregistered hreset hstart
    have hs := Carried.of_reach hr
    obtain ⟨nmt, es, -, ⟨-, hnot⟩ | hwrite⟩ := CanopenNodeData.write_spec s env
    · exact absurd ⟨hregistered, hreset, hstart⟩ hnot
    · rw [hwrite, exact_writeTpdo hs hm (lastCopied_of_pends hpends), hs.pending m hpends]
      simp
  · intro h s hr
    refine (hr.invariant (I := fun h s => Carried h s ∧ Historically (fun e before =>
      lastCopied m before = true → e ≠ .outOfRange .tpdo ∧ ∀ d, e = .transmitted d → d = m) h)
      (fun s hs => ⟨.of_fresh hs, historically_nil⟩) ?_).2
    intro h s i s' es ⟨hs, hkept⟩ _ hstep
    refine ⟨hs.of_step hstep, hkept.append fun new e old heq hcopied => ?_⟩
    have he : e ∈ es := by simp [heq]
    by_cases htpdo : e = .outOfRange .tpdo ∨ ∃ d, e = .transmitted d
    · obtain ⟨env, rfl⟩ := write_of_tpdo hstep he htpdo
      have hes : (s.write env).2 = es := by
        rw [Option.some.inj hstep]
      have hquiet : ∀ e ∈ old, e.isCopy = false := fun e' he' =>
        (CanopenNodeData.quiet_write s env e' (by simp [hes, heq, he'])).1
      rw [lastCopied_append hquiet] at hcopied
      exact exact_write hs hm hcopied env e (hes ▸ he)
    · exact ⟨fun h => htpdo (.inl h), fun d h => absurd (.inr ⟨d, h⟩) htpdo⟩

theorem rpdoUnchanged_of_lt (hd : d.data.toNat < 2 ^ 31) : RpdoUnchanged d := by
  constructor
  · intro h s hr hreceived env hindex hsubindex hdata hpublishes
    have hs := Carried.of_reach hr
    obtain ⟨hmessage, -⟩ :=
      CanopenNodeData.publishRpdo_of_shows (hs.shown d hreceived) env hd
    refine List.mem_append_right _ ?_
    simp [CanopenNodeData.publishRpdo, hindex, hsubindex, hdata, hpublishes, hmessage]
  · intro h s hr
    refine (hr.invariant (I := fun h s => Carried h s ∧ Historically (fun e before =>
      lastReceived d before = true → e ≠ .outOfRange .rpdo ∧ ∀ p, e = .published p → p = d) h)
      (fun s hs => ⟨.of_fresh hs, historically_nil⟩) ?_).2
    intro h s i s' es ⟨hs, hkept⟩ _ hstep
    refine ⟨hs.of_step hstep, hkept.append fun new e old heq hreceived => ?_⟩
    have he : e ∈ es := by simp [heq]
    by_cases hrpdo : e = .outOfRange .rpdo ∨ ∃ d, e = .published d
    · obtain ⟨env, rfl, hpublish⟩ := update_of_rpdo hstep he hrpdo
      have hes : (s.update env).2 = es := by
        rw [Option.some.inj hstep]
      have hquiet : ∀ e ∈ old, e.isReceived = false := by
        intro e' he'
        have hmem : e' ∈ (s.update env).2 := by simp [hes, heq, he']
        rcases CanopenNodeData.mem_update hmem with ⟨⟨m, rfl⟩ | rfl⟩ | hpublish'
        · rfl
        · rfl
        · exact (CanopenNodeData.quiet_publishRpdo s env e' hpublish').2.1
      rw [lastReceived_append hquiet] at hreceived
      exact exact_publishRpdo hs hd hreceived env e hpublish
    · exact ⟨fun h => hrpdo (.inl h), fun p h => absurd (.inr ⟨p, h⟩) hrpdo⟩

end Below

/-! ## Data with the sign bit do not -/

namespace Proxy

/-- A joint whose memory was zero. -/
def zeroed : CanopenNodeData where
  nmtState := {}
  rpdoData := { originalData := ⟨0, 0, 0⟩, index := .fin 0, subindex := .fin 0, data := .fin 0 }
  tpdoData := { originalData := ⟨0, 0, 0⟩, index := .fin 0, subindex := .fin 0, data := .fin 0 }
  rpdoDataMap := fun _ => none
  rpdoRawDataMap := fun _ => none

theorem fresh_zeroed : Fresh zeroed := ⟨rfl, rfl, rfl⟩

/-- An update in which every access goes through. -/
def updating (command : Option COData) : UpdateEnv :=
  ⟨command, true, true, true, true, true, true, true, true, ⟨0, 0, 0x80000000⟩⟩

/-- A write that finds its driver. -/
def writing : WriteEnv := ⟨true, some true, some true, ⟨0, 0, 0x80000000⟩⟩

end Proxy

section Above
variable {h : List ProxyEvent} {s : CanopenNodeData} {m d : COData}

/-- Wherever such a message pends, the next write converts out of range. -/
theorem not_tpdoUnchanged_of_pends (hr : Reach Proxy.system Guard.free h s)
    (hpends : pends m h = true) (hm : ¬ m.data.toNat < 2 ^ 31) : ¬ TpdoUnchanged m := by
  intro hunchanged
  have hs := Carried.of_reach hr
  have hcopied := lastCopied_of_pends hpends
  have hr' : Reach Proxy.system Guard.free ((s.write Proxy.writing).2 ++ h)
      (s.write Proxy.writing).1 := hr.step (i := .write Proxy.writing) trivial rfl
  obtain ⟨nmt, es, hes, ⟨-, hnot⟩ | hwrite⟩ := CanopenNodeData.write_spec s Proxy.writing
  · exact hnot ⟨rfl, by simp [Proxy.writing], by simp [Proxy.writing]⟩
  · obtain ⟨d, hd⟩ := CanopenNodeData.outOfRange_of_commands
      ((hs.commands m hcopied).same (CanopenNodeData.same_nmt s nmt)) hs.tpdoType
      (hs.pending m hpends) Proxy.writing hm
    have hquiet : ∀ e ∈ es, e.isCopy = false := fun e he =>
      (CanopenNodeData.quiet_write s Proxy.writing e (by simp [hwrite, he])).1
    rw [hwrite, hd] at hr'
    have hlast : lastCopied m (es ++ h) = true := (lastCopied_append hquiet).trans hcopied
    exact (hunchanged.kept _ _ hr' [.transmitted d] (.outOfRange .tpdo) (es ++ h) rfl hlast).1 rfl

/-- Wherever such a datum is the latest, the next update converts out of range. -/
theorem not_rpdoUnchanged_of_lastReceived (hr : Reach Proxy.system Guard.free h s)
    (hreceived : lastReceived d h = true) (hd : ¬ d.data.toNat < 2 ^ 31) :
    ¬ RpdoUnchanged d := by
  intro hunchanged
  have hrange := CanopenNodeData.rpdoInRange_of_shows
    ((Carried.of_reach hr).shown d hreceived) hd
  have hr' : Reach Proxy.system Guard.free ((s.update (Proxy.updating none)).2 ++ h)
      (s.update (Proxy.updating none)).1 :=
    hr.step (i := .update (Proxy.updating none)) trivial rfl
  have hes : (s.update (Proxy.updating none)).2 =
      [.published (s.rpdoMessage ⟨0, 0, 0x80000000⟩), .outOfRange .rpdo] := by
    simp [CanopenNodeData.update, CanopenNodeData.copyCommand, CanopenNodeData.publishRpdo,
      Proxy.updating, hrange]
  rw [hes] at hr'
  exact (hunchanged.kept _ _ hr' [.published _] (.outOfRange .rpdo) h rfl hreceived).1 rfl

theorem not_tpdoUnchanged (hm : ¬ m.data.toNat < 2 ^ 31) : ¬ TpdoUnchanged m := by
  have hr : Reach Proxy.system Guard.free ((Proxy.zeroed.update (Proxy.updating (some m))).2 ++ [])
      (Proxy.zeroed.update (Proxy.updating (some m))).1 :=
    .step (i := .update (Proxy.updating (some m))) (.init Proxy.fresh_zeroed) trivial rfl
  refine not_tpdoUnchanged_of_pends hr ?_ hm
  simp [pends, CanopenNodeData.update, CanopenNodeData.copyCommand, Proxy.updating]

theorem not_rpdoUnchanged (hd : ¬ d.data.toNat < 2 ^ 31) : ¬ RpdoUnchanged d := by
  have hr : Reach Proxy.system Guard.free ([.received d] ++ []) (Proxy.zeroed.setRpdoData d .nan) :=
    .step (i := ProxyStep.rpdo d .nan) (.init Proxy.fresh_zeroed) trivial rfl
  exact not_rpdoUnchanged_of_lastReceived hr (by simp [lastReceived]) hd

end Above

/-- **Data come through unchanged iff their top bit is clear**, on either path. -/
theorem unchanged_iff (d : COData) :
    (TpdoUnchanged d ↔ d.data.toNat < 2 ^ 31) ∧ (RpdoUnchanged d ↔ d.data.toNat < 2 ^ 31) := by
  refine ⟨⟨fun h => ?_, tpdoUnchanged_of_lt⟩, ⟨fun h => ?_, rpdoUnchanged_of_lt⟩⟩
  · by_contra hlt
    exact not_tpdoUnchanged hlt h
  · by_contra hlt
    exact not_rpdoUnchanged hlt h

/-- A target velocity of -10, as its 32 bits. -/
theorem not_unchanged_negative :
    ¬ TpdoUnchanged ⟨0x60FF, 0, 0xFFFFFFF6⟩ ∧ ¬ RpdoUnchanged ⟨0x60FF, 0, 0xFFFFFFF6⟩ :=
  ⟨not_tpdoUnchanged (by decide), not_rpdoUnchanged (by decide)⟩

end RosCanopen.Ros2Control
