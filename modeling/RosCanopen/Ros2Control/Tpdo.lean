import RosCanopen.Ros2Control.COData
import RosCanopen.Lib.RealtimeBuffer
import RosCanopen.Lib.System

/-!
# The way of a command from its topic to the device

The subscription of `~/tpdo` stores messages in a buffer; the realtime thread copies the
latest one to the command interfaces in `update` and hands it to the driver in `write`.  The
update reads the buffer twice, once to get the message and once to clear it, and what comes
in between is cleared unread.

## Main definitions

* `TpdoRelay`, `TpdoRelay.system` — the steps of the realtime thread, with messages in between.
* `TpdoRelay.Relayed` — commands are sent once and in order, and the latest is not dropped.
* `TpdoRelay.undisturbed` — the steps that keep it so.
-/

namespace RosCanopen.Ros2Control

open Lib Cia402
open Bridge (COData)

/-- Where the realtime thread is, by what it does next. -/
inductive TpdoPc
  | idle
  /-- `update`: set the interfaces, one after the other. -/
  | index
  | subindex
  | data
  | ons
  /-- `update`: read the buffer once more and clear it. -/
  | clear
  /-- `write`: the NMT commands of the node. -/
  | nmt
  /-- `write`: `write_command`. -/
  | command
  | prepare
  | transmit
  deriving DecidableEq

/-- The update has read a message and not cleared the buffer yet. -/
def TpdoPc.copies : TpdoPc → Bool
  | .index | .subindex | .data | .ons | .clear => true
  | _ => false

inductive TpdoEvent
  | received (m : COData)
  /-- An update has read the buffer. -/
  | updating
  /-- A datum has been handed to `tpdo_transmit`. -/
  | handed (d : COData)
  /-- A write is done with the node. -/
  | written
  deriving DecidableEq

inductive TpdoInput
  /-- `callback_cmd`. -/
  | receive (m : COData)
  | update
  /-- A `set_value`, and whether it succeeds. -/
  | set (ok : Bool)
  | clear
  /-- A write comes to the node, which has a driver or not. -/
  | write (registered : Bool)
  /-- The NMT commands return, or one throws. -/
  | nmt (throws : Bool)
  | command
  /-- `prepare_data`, with what the machine makes of conversions out of range. -/
  | prepare (raw : COData)
  /-- `tpdo_transmit`; what it throws is caught. -/
  | transmit
  deriving DecidableEq

structure TpdoRelay where
  inputCmd : RealtimeBuffer (Option COData)
  tpdoData : WORos2ControlCoData
  pc : TpdoPc

namespace TpdoRelay

def goto (s : TpdoRelay) (pc : TpdoPc) : TpdoRelay := { s with pc := pc }

/-- The next `set_value` of an update, with `*current_cmd` read anew. -/
def set (s : TpdoRelay) (m : COData) (ok : Bool) : Option TpdoRelay :=
  let t := s.tpdoData
  match s.pc with
  | .index =>
      some { s with
        tpdoData := if ok then { t with index := ofUnsigned m.index } else t, pc := .subindex }
  | .subindex =>
      some { s with
        tpdoData := if ok then { t with subindex := ofUnsigned m.subindex } else t, pc := .data }
  | .data =>
      some { s with
        tpdoData := if ok then { t with data := ofUnsigned m.data } else t, pc := .ons }
  | .ons =>
      -- `kCommandValue`
      some { s with tpdoData := if ok then { t with oneShot := .fin 1 } else t, pc := .clear }
  | _ => none

def step (s : TpdoRelay) : TpdoInput → Option (TpdoRelay × List TpdoEvent)
  | .receive m => some ({ s with inputCmd := s.inputCmd.writeFromNonRT (some m) }, [.received m])
  | .update =>
      if s.pc = .idle then
        let s := { s with inputCmd := s.inputCmd.readFromRT }
        match s.inputCmd.realtime with
        | none => some (s, [.updating])
        | some _ => some (s.goto .index, [.updating])
      else none
  | .set ok =>
      match s.inputCmd.realtime with
      | some m => (s.set m ok).map fun s => (s, [])
      | none => none
  | .clear =>
      if s.pc = .clear then
        let s := { s with inputCmd := s.inputCmd.readFromRT }
        some ({ s with inputCmd := { s.inputCmd with realtime := none }, pc := .idle }, [])
      else none
  | .write registered =>
      if s.pc = .idle then some (if registered then s.goto .nmt else s, []) else none
  | .nmt throws =>
      if s.pc = .nmt then some (s.goto (if throws then .idle else .command), []) else none
  | .command =>
      if s.pc = .command then
        let (pending, t) := s.tpdoData.writeCommand
        let s := { s with tpdoData := t }
        some (if pending then (s.goto .prepare, []) else (s.goto .idle, [.written]))
      else none
  | .prepare raw =>
      if s.pc = .prepare then
        some ({ s with tpdoData := s.tpdoData.prepareData raw, pc := .transmit }, [])
      else none
  | .transmit =>
      if s.pc = .transmit then
        some (s.goto .idle, [.written, .handed s.tpdoData.originalData])
      else none

/-- After `on_activate`, which clears the buffer: no command pends. -/
structure Activated (s : TpdoRelay) : Prop where
  realtime : s.inputCmd.realtime = none
  newDataAvailable : s.inputCmd.newDataAvailable = false
  oneShot : s.tpdoData.oneShot = .nan
  coType : s.tpdoData.coType = .int32
  pc : s.pc = .idle

/-- The way of the commands of a joint, from the activation of the controller. -/
def system : System TpdoRelay TpdoInput TpdoEvent where
  init := Activated
  step := step

end TpdoRelay

/-! ## What is promised -/

namespace TpdoEvent

def isReceived : TpdoEvent → Bool
  | .received _ => true
  | _ => false

/-- The message of a reception. -/
def received? : TpdoEvent → Option COData
  | .received m => some m
  | _ => none

/-- The datum that was handed over. -/
def handed? : TpdoEvent → Option COData
  | .handed d => some d
  | _ => none

end TpdoEvent

/-- The messages that have come, the latest first. -/
def arrived (h : List TpdoEvent) : List COData := h.filterMap TpdoEvent.received?

/-- The data handed over, the latest first. -/
def handedOver (h : List TpdoEvent) : List COData := h.filterMap TpdoEvent.handed?

/-- It has happened, and no message has come since. -/
def undisturbedSince (q : TpdoEvent → Bool) : List TpdoEvent → Bool :=
  since (fun e => !e.isReceived) q

namespace TpdoRelay

/-- When a write is done behind an update, with no message since that update, the last
message has been handed over. -/
def LatestHanded (e : TpdoEvent) (before : List TpdoEvent) : Prop :=
  e = .written → undisturbedSince (· = .updating) before = true →
    ∀ m, undisturbedSince (· = .received m) before = true →
      undisturbedSince (· = .handed m) before = true

/-- The data handed over are among the messages, in their order and without repetition, and
the latest message is not dropped. -/
structure Relayed (h : List TpdoEvent) : Prop where
  order : (handedOver h).Sublist (arrived h)
  latest : Historically LatestHanded h

/-- The steps that keep it so: no message comes while the update copies another, none has
the top bit of its data set, and the interfaces can be set. -/
def undisturbed : Guard TpdoRelay TpdoInput TpdoEvent := fun _ s i =>
  match i with
  | .receive m => s.pc.copies = false ∧ m.data.toNat < 2 ^ 31
  | .set ok => ok = true
  | _ => True

end TpdoRelay

/-! ## The invariant -/

section Histories
variable {q : TpdoEvent → Bool} {e : TpdoEvent} {h : List TpdoEvent}

@[simp] theorem arrived_cons : arrived (e :: h) = e.received?.toList ++ arrived h := by
  cases e <;> rfl

@[simp] theorem handedOver_cons : handedOver (e :: h) = e.handed?.toList ++ handedOver h := by
  cases e <;> rfl

@[simp] theorem undisturbedSince_nil : undisturbedSince q [] = false := rfl

@[simp] theorem undisturbedSince_cons :
    undisturbedSince q (e :: h) = (q e || (!e.isReceived && undisturbedSince q h)) := rfl

end Histories

namespace WORos2ControlCoData

/-- The interfaces hold the message. -/
structure Holds (t : WORos2ControlCoData) (m : COData) : Prop where
  index : t.index = ofUnsigned m.index
  subindex : t.subindex = ofUnsigned m.subindex
  data : t.data = ofUnsigned m.data

theorem prepareData_of_holds {t : WORos2ControlCoData} {m : COData} (h : t.Holds m)
    (htype : t.coType = .int32) (hm : m.data.toNat < 2 ^ 31) (raw : COData) :
    (t.prepareData raw).originalData = m := by
  have hindex : staticCast ⟨false, 16⟩ t.index = some m.index := by
    rw [h.index, staticCast_ofUnsigned (by decide)]
  have hsubindex : staticCast ⟨false, 8⟩ t.subindex = some m.subindex := by
    rw [h.subindex, staticCast_ofUnsigned (by decide)]
  have hdata : t.coType.store t.data t.originalData.data = some m.data := by
    rw [htype, h.data, store_ofUnsigned, if_pos hm]
  simp [prepareData, hindex, hsubindex, hdata]

end WORos2ControlCoData

namespace TpdoRelay

/-- The message on its way behind the buffer, by where the realtime thread is. -/
def Carries (s : TpdoRelay) : TpdoPc → Option COData → Prop
  | .index, o => s.inputCmd.realtime = o ∧ o.isSome = true
  | .subindex, o => s.inputCmd.realtime = o ∧ ∃ m, o = some m ∧
      s.tpdoData.index = ofUnsigned m.index
  | .data, o => s.inputCmd.realtime = o ∧ ∃ m, o = some m ∧
      s.tpdoData.index = ofUnsigned m.index ∧ s.tpdoData.subindex = ofUnsigned m.subindex
  | .ons, o => s.inputCmd.realtime = o ∧ ∃ m, o = some m ∧ s.tpdoData.Holds m
  | .clear, o => ∃ m, o = some m ∧ s.tpdoData.Holds m ∧ isNan s.tpdoData.oneShot = false
  | .prepare, o => s.inputCmd.realtime = none ∧ isNan s.tpdoData.oneShot = true ∧
      ∃ m, o = some m ∧ s.tpdoData.Holds m
  | .transmit, o => s.inputCmd.realtime = none ∧ isNan s.tpdoData.oneShot = true ∧
      ∃ m, o = some m ∧ s.tpdoData.originalData = m
  | .idle, o | .nmt, o | .command, o => s.inputCmd.realtime = none ∧
      isNan s.tpdoData.oneShot = o.isNone ∧ ∀ m, o = some m → s.tpdoData.Holds m

/-- Messages are queued, then on their way, then handed over. -/
structure Relays (h : List TpdoEvent) (s : TpdoRelay) (o : Option COData) : Prop where
  coType : s.tpdoData.coType = .int32
  carries : s.Carries s.pc o
  small : ∀ m, o = some m ∨ s.inputCmd.queued = some m → m.data.toNat < 2 ^ 31
  /-- The update has taken what there was. -/
  taken : s.pc.copies = true → s.inputCmd.newDataAvailable = false
  order : (s.inputCmd.queued.toList ++ (o.toList ++ handedOver h)).Sublist (arrived h)
  latest : ∀ m, undisturbedSince (· = .received m) h = true →
    undisturbedSince (· = .handed m) h = true ∨ s.inputCmd.queued = some m ∨
      s.inputCmd.queued = none ∧ o = some m
  updated : undisturbedSince (· = .updating) h = true → s.inputCmd.queued = none

section Steps
variable {s s' : TpdoRelay} {h es : List TpdoEvent} {o : Option COData}

/-- The realtime thread goes on with the message on its way. -/
theorem Relays.proceed (hs : Relays h s o) {pc : TpdoPc} {t : WORos2ControlCoData}
    (htype : t.coType = .int32) (hcarries : Carries ⟨s.inputCmd, t, pc⟩ pc o)
    (htaken : pc.copies = true → s.inputCmd.newDataAvailable = false) :
    Relays h ⟨s.inputCmd, t, pc⟩ o where
  coType := htype
  carries := hcarries
  small := hs.small
  taken := htaken
  order := hs.order
  latest := hs.latest
  updated := hs.updated

theorem Carries.congr {pc : TpdoPc} (h : s.Carries pc o)
    (hr : s'.inputCmd.realtime = s.inputCmd.realtime) (ht : s'.tpdoData = s.tpdoData) :
    s'.Carries pc o := by
  cases pc <;> simpa only [Carries, hr, ht] using h

theorem Relays.receive (hs : Relays h s o) {m : COData} (hpc : s.pc.copies = false)
    (hm : m.data.toNat < 2 ^ 31) :
    Relays (.received m :: h) { s with inputCmd := s.inputCmd.writeFromNonRT (some m) } o where
  coType := hs.coType
  carries := hs.carries.congr rfl rfl
  small m' hm' := by
    rcases hm' with ho | hqueued
    · exact hs.small m' (.inl ho)
    · obtain rfl := Option.some.inj hqueued
      exact hm
  taken hcopies := by simp [hpc] at hcopies
  order := by
    have hrest : (o.toList ++ handedOver h).Sublist (arrived h) :=
      (List.sublist_append_right s.inputCmd.queued.toList _).trans hs.order
    simpa [TpdoEvent.handed?, TpdoEvent.received?] using hrest
  latest m' hm' := by
    have heq : m = m' := by simpa [TpdoEvent.isReceived] using hm'
    exact .inr (.inl (congrArg some heq))
  updated hupdating := by simp [TpdoEvent.isReceived] at hupdating

theorem step_update (hstep : s.step .update = some (s', es)) :
    s.pc = .idle ∧ es = [.updating] := by
  have hidle : s.pc = .idle := by
    by_contra hpc
    simp [step, hpc] at hstep
  refine ⟨hidle, ?_⟩
  simp only [step, hidle, if_true] at hstep
  split at hstep
  · exact (Prod.mk.inj (Option.some.inj hstep)).2.symm
  · exact (Prod.mk.inj (Option.some.inj hstep)).2.symm

theorem step_clear (hstep : s.step .clear = some (s', es)) : s.pc = .clear ∧ es = [] := by
  have hclear : s.pc = .clear := by
    by_contra hpc
    simp [step, hpc] at hstep
  refine ⟨hclear, ?_⟩
  simp only [step, hclear, if_true] at hstep
  exact (Prod.mk.inj (Option.some.inj hstep)).2.symm

/-- An update reads the buffer. -/
theorem Relays.update (hs : Relays h s o) (hpc : s.pc = .idle)
    (hstep : s.step .update = some (s', es)) : ∃ o', Relays (es ++ h) s' o' := by
  have hcarries := hs.carries
  rw [hpc] at hcarries
  obtain ⟨hrealtime, hnan, hholds⟩ := hcarries
  have hread := RealtimeBuffer.realtime_readFromRT s.inputCmd hrealtime
  have hnone : s.inputCmd.readFromRT.queued = none :=
    RealtimeBuffer.queued_of_not_available _ (by simp)
  have hlatest : ∀ m, undisturbedSince (· = .received m) (.updating :: h) = true →
      undisturbedSince (· = .handed m) (.updating :: h) = true ∨ s.inputCmd.queued = some m ∨
        s.inputCmd.queued = none ∧ o = some m := by
    intro m hm
    have hlast := hs.latest m (by simpa [TpdoEvent.isReceived] using hm)
    simpa [TpdoEvent.isReceived] using hlast
  simp only [step, hpc, if_true] at hstep
  cases hqueued : s.inputCmd.queued with
  | none =>
      simp only [hread, hqueued] at hstep
      obtain ⟨rfl, rfl⟩ := Prod.mk.inj (Option.some.inj hstep)
      have hqueue : s.inputCmd.readFromRT.realtime = none := hread.trans hqueued
      refine ⟨o, hs.coType, ?_, ?_, fun _ => by simp, ?_, fun m hm => ?_, fun _ => hnone⟩
      · exact ⟨hqueue, hnan, hholds⟩
      · intro m hm
        exact hs.small m (.inl (hm.resolve_right (by simp [hnone])))
      · simpa [hnone, hqueued, TpdoEvent.handed?, TpdoEvent.received?] using hs.order
      · simpa [hnone, hqueued] using hlatest m hm
  | some m =>
      simp only [hread, hqueued] at hstep
      obtain ⟨rfl, rfl⟩ := Prod.mk.inj (Option.some.inj hstep)
      refine ⟨some m, hs.coType, ⟨hread.trans hqueued, rfl⟩, ?_, fun _ => by simp [goto], ?_,
        fun m' hm => ?_, fun _ => hnone⟩
      · intro m' hm
        refine hs.small m' (.inr (hqueued.trans (hm.resolve_right ?_)))
        simp [goto, hnone]
      · have horder := hs.order
        rw [hqueued] at horder
        have hrest : (m :: handedOver h).Sublist (arrived h) := by
          refine List.Sublist.trans ?_ horder
          exact (List.sublist_append_right o.toList _).cons_cons m
        simpa [goto, hnone, TpdoEvent.handed?, TpdoEvent.received?] using hrest
      · simpa [goto, hnone, hqueued] using hlatest m' hm

/-- An update sets an interface. -/
theorem Relays.set (hs : Relays h s o) {m : COData} (hm : s.inputCmd.realtime = some m)
    (hset : s.set m true = some s') : Relays h s' o := by
  have hcarries := hs.carries
  have htaken := hs.taken
  unfold TpdoRelay.set at hset
  cases hpc : s.pc with
  | index =>
      rw [hpc] at hcarries htaken hset
      obtain ⟨rfl, -⟩ := hcarries
      obtain rfl := Option.some.inj hset
      exact hs.proceed hs.coType ⟨rfl, m, hm, rfl⟩ (fun _ => htaken rfl)
  | subindex =>
      rw [hpc] at hcarries htaken hset
      obtain ⟨rfl, m', hm', hindex⟩ := hcarries
      obtain rfl := Option.some.inj (hm.symm.trans hm')
      obtain rfl := Option.some.inj hset
      exact hs.proceed hs.coType ⟨rfl, m, hm, hindex, rfl⟩ (fun _ => htaken rfl)
  | data =>
      rw [hpc] at hcarries htaken hset
      obtain ⟨rfl, m', hm', hindex, hsubindex⟩ := hcarries
      obtain rfl := Option.some.inj (hm.symm.trans hm')
      obtain rfl := Option.some.inj hset
      exact hs.proceed hs.coType ⟨rfl, m, hm, hindex, hsubindex, rfl⟩ (fun _ => htaken rfl)
  | ons =>
      rw [hpc] at hcarries htaken hset
      obtain ⟨rfl, m', hm', hholds⟩ := hcarries
      obtain rfl := Option.some.inj hset
      exact hs.proceed hs.coType ⟨m', hm', ⟨hholds.index, hholds.subindex, hholds.data⟩, rfl⟩
        (fun _ => htaken rfl)
  | idle | clear | nmt | command | prepare | transmit => simp [hpc] at hset

/-- An update clears the buffer: nothing has come since it read it. -/
theorem Relays.clear (hs : Relays h s o) (hpc : s.pc = .clear)
    (hstep : s.step .clear = some (s', es)) : Relays (es ++ h) s' o := by
  have hcarries := hs.carries
  have htaken := hs.taken
  rw [hpc] at hcarries htaken
  obtain ⟨m, rfl, hholds, hnan⟩ := hcarries
  have hread := RealtimeBuffer.readFromRT_of_not_available s.inputCmd (htaken rfl)
  simp only [step, hpc, if_true, hread] at hstep
  obtain ⟨rfl, rfl⟩ := Prod.mk.inj (Option.some.inj hstep)
  have hholds' : ∀ m', some m = some m' → s.tpdoData.Holds m' := fun m' heq =>
    Option.some.inj heq ▸ hholds
  exact ⟨hs.coType, ⟨rfl, hnan, hholds'⟩, hs.small, fun hcopies => (nomatch hcopies), hs.order,
    hs.latest, hs.updated⟩

/-- The write is done with the node: no command is on its way any more. -/
theorem Relays.written (hs : Relays h s none) (hpc : s.pc = .idle) :
    Relays (.written :: h) s none where
  coType := hs.coType
  carries := hs.carries
  small := hs.small
  taken hcopies := by simp [hpc, TpdoPc.copies] at hcopies
  order := by simpa [TpdoEvent.handed?, TpdoEvent.received?] using hs.order
  latest m hm := by
    have hlast := hs.latest m (by simpa [TpdoEvent.isReceived] using hm)
    simpa [TpdoEvent.isReceived] using hlast
  updated hupdating := hs.updated (by simpa [TpdoEvent.isReceived] using hupdating)

/-- What has come is handed over by then, unless it is still queued. -/
theorem Relays.latestHanded (hs : Relays h s none) (e : TpdoEvent) : LatestHanded e h := by
  intro _ hupdating m hm
  rcases hs.latest m hm with hhanded | hqueued | ⟨-, hnone⟩
  · exact hhanded
  · simp [hs.updated hupdating] at hqueued
  · cases hnone

/-- A write takes the command that pends, or is done with the node. -/
theorem Relays.command (hs : Relays h s o) (hpc : s.pc = .command)
    (hstep : s.step .command = some (s', es)) :
    ∃ o', Relays (es ++ h) s' o' ∧ (es = [] ∨ es = [.written] ∧ o = none) := by
  have hcarries := hs.carries
  rw [hpc] at hcarries
  obtain ⟨hrealtime, hnan, hholds⟩ := hcarries
  simp only [step, hpc, if_true, WORos2ControlCoData.writeCommand, hnan] at hstep
  cases o with
  | none =>
      obtain ⟨rfl, rfl⟩ := Prod.mk.inj (Option.some.inj hstep)
      have hidle : Relays h ⟨s.inputCmd, { s.tpdoData with oneShot := .nan }, .idle⟩ none :=
        hs.proceed hs.coType ⟨hrealtime, rfl, fun m hm => nomatch hm⟩
          (fun hcopies => nomatch hcopies)
      exact ⟨none, hidle.written rfl, .inr ⟨rfl, rfl⟩⟩
  | some m =>
      obtain ⟨rfl, rfl⟩ := Prod.mk.inj (Option.some.inj hstep)
      obtain ⟨hindex, hsubindex, hdata⟩ := hholds m rfl
      have hprepare :
          Relays h ⟨s.inputCmd, { s.tpdoData with oneShot := .nan }, .prepare⟩ (some m) :=
        hs.proceed hs.coType ⟨hrealtime, rfl, m, rfl, hindex, hsubindex, hdata⟩
          (fun hcopies => nomatch hcopies)
      exact ⟨some m, hprepare, .inl rfl⟩

/-- A write prepares the command that it has taken. -/
theorem Relays.prepare (hs : Relays h s o) (hpc : s.pc = .prepare) (raw : COData) :
    Relays h ⟨s.inputCmd, s.tpdoData.prepareData raw, .transmit⟩ o := by
  have hcarries := hs.carries
  rw [hpc] at hcarries
  obtain ⟨hrealtime, hnan, m, rfl, hholds⟩ := hcarries
  have hprepared := WORos2ControlCoData.prepareData_of_holds hholds hs.coType
    (hs.small m (.inl rfl)) raw
  exact hs.proceed hs.coType ⟨hrealtime, hnan, m, rfl, hprepared⟩
    (fun hcopies => nomatch hcopies)

/-- The command that a write has taken is handed over. -/
theorem Relays.transmit (hs : Relays h s o) (hpc : s.pc = .transmit) :
    Relays (.handed s.tpdoData.originalData :: h) (s.goto .idle) none := by
  have hcarries := hs.carries
  rw [hpc] at hcarries
  obtain ⟨hrealtime, hnan, m, rfl, rfl⟩ := hcarries
  refine ⟨hs.coType, ⟨hrealtime, hnan, fun m hm => nomatch hm⟩, fun m hm => hs.small m ?_,
    fun hcopies => (nomatch hcopies), ?_, fun m hm => ?_, fun hupdating => ?_⟩
  · exact .inr (hm.resolve_left fun hnone => nomatch hnone)
  · simpa [goto, TpdoEvent.handed?, TpdoEvent.received?] using hs.order
  · have hlast := hs.latest m (by simpa [TpdoEvent.isReceived] using hm)
    rcases hlast with hhanded | hqueued | ⟨-, hcarried⟩
    · exact .inl (by simp [TpdoEvent.isReceived, hhanded])
    · exact .inr (.inl hqueued)
    · obtain rfl := Option.some.inj hcarried
      exact .inl (by simp)
  · exact hs.updated (by simpa [TpdoEvent.isReceived] using hupdating)

/-- **What one step keeps.** -/
theorem Relays.step {i : TpdoInput} (hs : Relays h s o) (hlatest : Historically LatestHanded h)
    (hok : undisturbed h s i) (hstep : s.step i = some (s', es)) :
    (∃ o', Relays (es ++ h) s' o') ∧ Historically LatestHanded (es ++ h) := by
  cases i with
  | receive m =>
      obtain ⟨rfl, rfl⟩ := Prod.mk.inj (Option.some.inj hstep)
      exact ⟨⟨o, hs.receive hok.1 hok.2⟩, hlatest.cons fun hwritten => nomatch hwritten⟩
  | update =>
      obtain ⟨hidle, hes⟩ := step_update hstep
      refine ⟨hs.update hidle hstep, ?_⟩
      rw [hes]
      exact hlatest.cons fun hwritten => nomatch hwritten
  | set ok =>
      obtain rfl : ok = true := hok
      simp only [TpdoRelay.step] at hstep
      split at hstep
      · next m hm =>
          obtain ⟨s₁, hset, heq⟩ := Option.map_eq_some_iff.mp hstep
          obtain ⟨rfl, rfl⟩ := Prod.mk.inj heq
          exact ⟨⟨o, hs.set hm hset⟩, hlatest⟩
      · cases hstep
  | clear =>
      obtain ⟨hclear, hes⟩ := step_clear hstep
      refine ⟨⟨o, hs.clear hclear hstep⟩, ?_⟩
      rw [hes]
      exact hlatest
  | write registered =>
      simp only [TpdoRelay.step] at hstep
      split at hstep
      · next hpc =>
          have hcarries := hs.carries
          rw [hpc] at hcarries
          obtain ⟨rfl, rfl⟩ := Prod.mk.inj (Option.some.inj hstep)
          cases registered with
          | false => exact ⟨⟨o, hs⟩, hlatest⟩
          | true => exact ⟨⟨o, hs.proceed hs.coType hcarries (by simp [TpdoPc.copies])⟩, hlatest⟩
      · cases hstep
  | nmt throws =>
      simp only [TpdoRelay.step] at hstep
      split at hstep
      · next hpc =>
          have hcarries := hs.carries
          rw [hpc] at hcarries
          obtain ⟨rfl, rfl⟩ := Prod.mk.inj (Option.some.inj hstep)
          cases throws with
          | false => exact ⟨⟨o, hs.proceed hs.coType hcarries (by simp [TpdoPc.copies])⟩, hlatest⟩
          | true => exact ⟨⟨o, hs.proceed hs.coType hcarries (by simp [TpdoPc.copies])⟩, hlatest⟩
      · cases hstep
  | command =>
      have hpc : s.pc = .command := by
        by_contra hpc
        simp [TpdoRelay.step, hpc] at hstep
      obtain ⟨o', hs', rfl | ⟨rfl, rfl⟩⟩ := hs.command hpc hstep
      · exact ⟨⟨o', hs'⟩, hlatest⟩
      · exact ⟨⟨o', hs'⟩, hlatest.cons (hs.latestHanded _)⟩
  | prepare raw =>
      simp only [TpdoRelay.step] at hstep
      split at hstep
      · next hpc =>
          obtain ⟨rfl, rfl⟩ := Prod.mk.inj (Option.some.inj hstep)
          exact ⟨⟨o, hs.prepare hpc raw⟩, hlatest⟩
      · cases hstep
  | transmit =>
      simp only [TpdoRelay.step] at hstep
      split at hstep
      · next hpc =>
          obtain ⟨rfl, rfl⟩ := Prod.mk.inj (Option.some.inj hstep)
          have hs' := hs.transmit hpc
          have hhanded := hlatest.cons (e := .handed s.tpdoData.originalData)
            fun hwritten => nomatch hwritten
          exact ⟨⟨none, hs'.written rfl⟩, hhanded.cons (hs'.latestHanded _)⟩
      · cases hstep

end Steps

/-- **Commands are sent once and in order, and the latest is not dropped**, in every run whose
steps are not disturbed. -/
theorem relayed_of_undisturbed {h : List TpdoEvent} {s : TpdoRelay}
    (hr : Reach system undisturbed h s) : Relayed h := by
  have hrelays : (∃ o, Relays h s o) ∧ Historically LatestHanded h := by
    refine hr.invariant (I := fun h s => (∃ o, Relays h s o) ∧ Historically LatestHanded h)
      (fun s hs => ?_) fun h s i s' es hI hok hstep => ?_
    · obtain ⟨hrealtime, havailable, honeShot, hcoType, hpc⟩ := hs
      have hqueued := RealtimeBuffer.queued_of_not_available s.inputCmd havailable
      refine ⟨⟨none, hcoType, ?_, by simp [hqueued], fun _ => havailable, ?_, by simp, by simp⟩,
        historically_nil⟩
      · rw [hpc]
        exact ⟨hrealtime, by rw [honeShot]; rfl, fun m hm => nomatch hm⟩
      · simp [hqueued, handedOver]
    · obtain ⟨⟨o, hs⟩, hlatest⟩ := hI
      exact hs.step hlatest hok hstep
  obtain ⟨⟨o, hs⟩, hlatest⟩ := hrelays
  refine ⟨?_, hlatest⟩
  have hrest := (List.sublist_append_right o.toList (handedOver h)).trans
    (List.sublist_append_right s.inputCmd.queued.toList _)
  exact hrest.trans hs.order

/-! ## Runs -/

instance (h : List TpdoEvent) (s : TpdoRelay) : ∀ i, Decidable (undisturbed h s i)
  | .receive _ => inferInstanceAs (Decidable (_ ∧ _))
  | .set _ => inferInstanceAs (Decidable (_ = _))
  | .update | .clear | .write _ | .nmt _ | .command | .prepare _ | .transmit =>
      inferInstanceAs (Decidable True)

/-- The controller has just been activated. -/
def activated : TpdoRelay where
  inputCmd := ⟨none, none, false⟩
  tpdoData := { originalData := ⟨0, 0, 0⟩, index := .nan, subindex := .nan, data := .nan }
  pc := .idle

theorem activated_activated : activated.Activated := ⟨rfl, rfl, rfl, rfl, rfl⟩

/-- An update that has read a message sets the interfaces. -/
def copying : List TpdoInput := [.set true, .set true, .set true, .set true]

/-- A write up to the one-shot. -/
def writing : List TpdoInput := [.write true, .nmt false, .command]

/-- A message comes while the write of the one before is under way. -/
def twoMessages : List TpdoInput := List.flatten
  [[.receive ⟨0x6040, 0, 6⟩, .update], copying, [.clear], writing,
    [.prepare ⟨0, 0, 0⟩, .receive ⟨0x6040, 0, 7⟩, .transmit, .update], copying, [.clear], writing,
    [.prepare ⟨0, 0, 0⟩, .transmit]]

/-- A message comes between the two reads of an update. -/
def lostMessage : List TpdoInput := List.flatten
  [[.receive ⟨0x6040, 0, 6⟩, .update], copying, [.receive ⟨0x6040, 0, 7⟩, .clear], writing,
    [.prepare ⟨0, 0, 0⟩, .transmit, .update], writing]

theorem relayed_two : Relayed [.written, .handed ⟨0x6040, 0, 7⟩, .updating, .written,
    .handed ⟨0x6040, 0, 6⟩, .received ⟨0x6040, 0, 7⟩, .updating, .received ⟨0x6040, 0, 6⟩] := by
  have hrun : (system.runIf (fun h s i => decide (undisturbed h s i)) twoMessages [] activated).any
      (fun p => p.1 = [.written, .handed ⟨0x6040, 0, 7⟩, .updating, .written,
        .handed ⟨0x6040, 0, 6⟩, .received ⟨0x6040, 0, 7⟩, .updating,
        .received ⟨0x6040, 0, 6⟩]) = true := by
    decide +kernel
  obtain ⟨h, s, hr, hend⟩ := system.exists_reach_runIf (.init activated_activated)
    (fun h s i hi => of_decide_eq_true hi) hrun
  obtain rfl := of_decide_eq_true hend
  exact relayed_of_undisturbed hr

/-- An update clears a message that it has not read: the cycles behind it do not hand it over. -/
theorem not_relayed : ¬ ∀ h s, Reach system Guard.free h s → Relayed h := by
  intro hrelayed
  have hrun : (system.run lostMessage [] activated).any
      (fun p => p.1 = [.written, .updating, .written, .handed ⟨0x6040, 0, 6⟩,
        .received ⟨0x6040, 0, 7⟩, .updating, .received ⟨0x6040, 0, 6⟩]) = true := by
    decide +kernel
  obtain ⟨h, s, hr, hend⟩ := system.exists_reach_run (.init activated_activated) hrun
  obtain rfl := of_decide_eq_true hend
  have hlatest := (hrelayed _ s hr).latest
  have hhanded := hlatest [] .written _ rfl rfl (by decide) ⟨0x6040, 0, 7⟩ (by decide)
  exact absurd hhanded (by decide)

end TpdoRelay
end RosCanopen.Ros2Control
