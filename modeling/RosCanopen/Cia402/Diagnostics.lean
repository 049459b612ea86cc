import RosCanopen.Cia402.Mode
import RosCanopen.Lib.System
import Mathlib.Logic.Function.Basic

/-!
# The diagnostics of a node

All channels of a node report to one collector, which keeps one level, one message and one value
for each key.  Whoever reports replaces what is there: a channel the level of the channel before
it, a bit of the status word the level of the state.

## Main definitions

* `DiagnosticsCollector` — the collector.
* `ChannelStatus`, `handleDiag` — what a channel reports.
* `DiagnosticMessage` — what a motor records when it switches its mode or its state.
* `Diagnostics.system` — the reports, in any order, and the callback that publishes them.
* `HidesNothing`, `ShowsWorst` — nothing is hidden, and when that is so for the level.
-/

namespace RosCanopen.Cia402

open Lib

/-- Levels of a `DiagnosticStatus`. -/
abbrev DiagnosticLevel := BitVec 8

namespace DiagnosticLevel

abbrev ok : DiagnosticLevel := 0
abbrev warn : DiagnosticLevel := 1
abbrev error : DiagnosticLevel := 2

end DiagnosticLevel

structure DiagnosticsCollector where
  level : DiagnosticLevel
  message : String
  values : String → Option String

namespace DiagnosticsCollector

/-- The collector as constructed. -/
def new : DiagnosticsCollector := ⟨.ok, "", fun _ => none⟩

def getValue (c : DiagnosticsCollector) (key : String) : String := (c.values key).getD ""

def summary (c : DiagnosticsCollector) (level : DiagnosticLevel) (message : String) :
    DiagnosticsCollector :=
  { c with level := level, message := message }

def add (c : DiagnosticsCollector) (key value : String) : DiagnosticsCollector :=
  { c with values := Function.update c.values key (some value) }

def updateAll (c : DiagnosticsCollector) (level : DiagnosticLevel) (message key value : String) :
    DiagnosticsCollector :=
  (c.summary level message).add key value

end DiagnosticsCollector

abbrev StatusWord.warning : ℕ := 7

/-! ## What a channel reports -/

/-- The decoded state and the status word of a channel. -/
structure ChannelStatus where
  state : InternalState
  statusWord : Word

/-- The switch of `handleDiag`. -/
def stateSummary : InternalState → DiagnosticLevel × String
  | .notReadyToSwitchOn => (.warn, "Not ready to switch on")
  | .switchOnDisabled => (.warn, "Switch on disabled")
  | .readyToSwitchOn => (.ok, "Ready to switch on")
  | .switchedOn => (.ok, "Switched on")
  | .operationEnable => (.ok, "Operation enabled")
  | .quickStopActive => (.warn, "Quick stop active")
  | .fault => (.error, "Fault")
  | .faultReactionActive => (.error, "Fault reaction active")
  | .unknown => (.error, "Unknown state")

/-- `handleDiag` -/
def handleDiag (d : DiagnosticsCollector) (c : ChannelStatus) : DiagnosticsCollector :=
  let d := d.summary (stateSummary c.state).1 (stateSummary c.state).2
  let d := if c.statusWord.getLsbD StatusWord.warning then
    d.summary .warn "Warning bit is set" else d
  if c.statusWord.getLsbD StatusWord.internalLimit then
    d.summary .warn "Internal limit active" else d

/-! ## What a motor records -/

/-- The number that `%d` shows of a state. -/
def InternalState.toNat : InternalState → ℕ
  | .unknown => 0
  | .notReadyToSwitchOn => 1
  | .switchOnDisabled => 2
  | .readyToSwitchOn => 3
  | .switchedOn => 4
  | .operationEnable => 5
  | .quickStopActive => 6
  | .faultReactionActive => 7
  | .fault => 8

inductive DiagnosticMessage
  | noMode (mode : ModeId)
  | modeSwitched (mode : ModeId)
  | modeTimedOut (mode : ModeId)
  | stateSwitched (next : InternalState)
  | stateTimedOut (state next : InternalState)

namespace DiagnosticMessage

/-- The key is the same for all channels. -/
def key : DiagnosticMessage → String
  | noMode _ | modeSwitched _ | modeTimedOut _ => "cia402_mode"
  | stateSwitched _ | stateTimedOut _ _ => "cia402_state"

/-- The text, with the number of the channel for a mode. -/
def text (channel : ℕ) : DiagnosticMessage → String
  | noMode mode =>
      "No mode selected: " ++ toString mode.toNat ++ " (channel " ++ toString channel ++ ")"
  | modeSwitched mode =>
      "Mode switched to: " ++ toString mode.toNat ++ " (channel " ++ toString channel ++ ")"
  | modeTimedOut mode =>
      "Mode switch timed out: " ++ toString mode.toNat ++ " (channel " ++ toString channel ++ ")"
  | stateSwitched next => "State switched to: " ++ toString next.toNat
  | stateTimedOut state next =>
      "State transition timed out: " ++ toString state.toNat ++ " -> " ++ toString next.toNat

end DiagnosticMessage

/-! ## The node -/

/-- What is published. -/
structure DiagnosticStatus where
  level : DiagnosticLevel
  message : String
  values : List (String × String)

def channelPrefix (n : ℕ) : String := "ch" ++ toString n ++ "_"

/-- The values that are published. -/
def diagnosticValues (d : DiagnosticsCollector) (channels : ℕ) : List (String × String) :=
  [("device_state", d.getValue "DEVICE"), ("nmt_state", d.getValue "NMT"),
    ("emcy_state", d.getValue "EMCY"), ("cia402_mode", d.getValue "cia402_mode"),
    ("cia402_state", d.getValue "cia402_state")] ++
  (List.range channels).flatMap fun n =>
    [(channelPrefix n ++ "mode", d.getValue (channelPrefix n ++ "cia402_mode")),
      (channelPrefix n ++ "state", d.getValue (channelPrefix n ++ "cia402_state"))]

/-- `diagnostic_callback`; a channel without a motor is `none`. -/
def diagnosticCallback (d : DiagnosticsCollector) (channels : List (Option ChannelStatus)) :
    DiagnosticsCollector × DiagnosticStatus :=
  let d := (channels.filterMap id).foldl handleDiag d
  (d, ⟨d.level, d.message, diagnosticValues d channels.length⟩)

inductive DiagnosticInput
  /-- `on_emcy`, with its text. -/
  | onEmcy (text : String)
  /-- `on_nmt` -/
  | onNmt (level : DiagnosticLevel) (message state : String)
  /-- `add_to_master` or `remove_from_master` -/
  | device (level : DiagnosticLevel) (message state : String)
  /-- The motor of a channel records a message. -/
  | record (channel : ℕ) (m : DiagnosticMessage)
  | callback (channels : List (Option ChannelStatus))

inductive DiagnosticEvent
  | recorded (channel : ℕ) (m : DiagnosticMessage)
  | published (channels : List (Option ChannelStatus)) (status : DiagnosticStatus)

namespace Diagnostics

def step (d : DiagnosticsCollector) :
    DiagnosticInput → Option (DiagnosticsCollector × List DiagnosticEvent)
  | .onEmcy text => some ((d.summary .error "Emergency message received").add "EMCY" text, [])
  | .onNmt level message state => some (d.updateAll level message "NMT" state, [])
  | .device level message state => some (d.updateAll level message "DEVICE" state, [])
  | .record channel m => some (d.add m.key (m.text channel), [.recorded channel m])
  | .callback channels =>
      let (d, status) := diagnosticCallback d channels
      some (d, [.published channels status])

/-- The collector of a node, from its construction. -/
def system : System DiagnosticsCollector DiagnosticInput DiagnosticEvent where
  init d := d = .new
  step := step

end Diagnostics

/-! ## What the reader is told -/

/-- How bad a state is. -/
def stateSeverity (state : InternalState) : DiagnosticLevel :=
  if state = .fault ∨ state = .faultReactionActive ∨ state = .unknown then .error
  else if state = .notReadyToSwitchOn ∨ state = .switchOnDisabled ∨ state = .quickStopActive then
    .warn
  else .ok

/-- The status word has the warning bit or the bit of the internal limit. -/
def ChannelStatus.flagged (c : ChannelStatus) : Bool :=
  c.statusWord.getLsbD StatusWord.warning || c.statusWord.getLsbD StatusWord.internalLimit

/-- The last message of a channel under a key, or nothing. -/
def lastMessage (h : List DiagnosticEvent) (channel : ℕ) (key : String) : String :=
  ((h.filterMap fun e =>
    match e with
    | .recorded n m => if n = channel ∧ m.key = key then some (m.text n) else none
    | .published _ _ => none).head?).getD ""

/-- What is published hides no channel's state, and no message of a channel. -/
structure HidesNothing (h : List DiagnosticEvent) (channels : List (Option ChannelStatus))
    (status : DiagnosticStatus) : Prop where
  level : ∀ c ∈ channels.filterMap id,
    stateSeverity c.state ≤ status.level ∧ (c.flagged = true → .warn ≤ status.level)
  mode : ∀ n < channels.length,
    (channelPrefix n ++ "mode", lastMessage h n "cia402_mode") ∈ status.values
  state : ∀ n < channels.length,
    (channelPrefix n ++ "state", lastMessage h n "cia402_state") ∈ status.values

/-- The last channel is as bad as any: with an error among the channels its state is one, and
nothing is flagged behind it; with a warning it warns itself. -/
def ShowsWorst (channels : List ChannelStatus) : Prop :=
  ∀ last, channels.getLast? = some last →
    ((∃ c ∈ channels, stateSeverity c.state = .error) →
      stateSeverity last.state = .error ∧ last.flagged = false) ∧
    ((∃ c ∈ channels, c.flagged = true ∨ stateSeverity c.state = .warn) →
      last.flagged = true ∨ stateSeverity last.state ≠ .ok)

/-! ## The level -/

theorem stateSummary_level (state : InternalState) :
    (stateSummary state).1 = stateSeverity state := by
  cases state <;> rfl

theorem stateSeverity_cases (state : InternalState) : stateSeverity state = .ok ∨
    stateSeverity state = .warn ∨ stateSeverity state = .error := by
  cases state <;> decide

/-- A flag covers the state. -/
theorem level_handleDiag (d : DiagnosticsCollector) (c : ChannelStatus) :
    (handleDiag d c).level = if c.flagged then .warn else stateSeverity c.state := by
  simp only [handleDiag, ChannelStatus.flagged, ← stateSummary_level]
  cases c.statusWord.getLsbD StatusWord.warning <;>
    cases c.statusWord.getLsbD StatusWord.internalLimit <;> rfl

/-- **The last channel decides**: what is left is the level that it reports. -/
theorem level_foldl (d : DiagnosticsCollector) {channels : List ChannelStatus}
    {last : ChannelStatus} (hlast : channels.getLast? = some last) :
    (channels.foldl handleDiag d).level =
      if last.flagged then .warn else stateSeverity last.state := by
  obtain ⟨init, rfl⟩ := List.getLast?_eq_some_iff.mp hlast
  rw [List.foldl_append]
  exact level_handleDiag _ last

/-- The level that a channel reports. -/
def ChannelStatus.reported (c : ChannelStatus) : DiagnosticLevel :=
  if c.flagged then .warn else stateSeverity c.state

theorem warn_le_reported {c : ChannelStatus} :
    .warn ≤ c.reported ↔ c.flagged = true ∨ stateSeverity c.state ≠ .ok := by
  unfold ChannelStatus.reported
  cases c.flagged with
  | true => simp
  | false =>
      rcases stateSeverity_cases c.state with hsev | hsev | hsev <;> rw [hsev] <;> decide

theorem error_le_reported {c : ChannelStatus} :
    .error ≤ c.reported ↔ stateSeverity c.state = .error ∧ c.flagged = false := by
  unfold ChannelStatus.reported
  cases c.flagged with
  | true => simp
  | false =>
      rcases stateSeverity_cases c.state with hsev | hsev | hsev <;> rw [hsev] <;> decide

theorem level_iff (d : DiagnosticsCollector) (channels : List ChannelStatus) :
    (∀ c ∈ channels, stateSeverity c.state ≤ (channels.foldl handleDiag d).level ∧
      (c.flagged = true → .warn ≤ (channels.foldl handleDiag d).level)) ↔
    ShowsWorst channels := by
  cases hlast : channels.getLast? with
  | none =>
      rw [List.getLast?_eq_none_iff] at hlast
      simp [hlast, ShowsWorst]
  | some last =>
      have hlevel : (channels.foldl handleDiag d).level = last.reported := level_foldl d hlast
      rw [hlevel]
      constructor
      · intro hall last' hlast'
        obtain rfl := Option.some.inj (hlast.symm.trans hlast')
        refine ⟨?_, ?_⟩
        · rintro ⟨c, hc, herror⟩
          exact error_le_reported.mp (herror ▸ (hall c hc).1)
        · rintro ⟨c, hc, hflagged | hwarn⟩
          · exact warn_le_reported.mp ((hall c hc).2 hflagged)
          · exact warn_le_reported.mp (hwarn ▸ (hall c hc).1)
      · intro hshows c hc
        obtain ⟨herror, hwarn⟩ := hshows last hlast
        refine ⟨?_, fun hflagged => warn_le_reported.mpr (hwarn ⟨c, hc, .inl hflagged⟩)⟩
        rcases stateSeverity_cases c.state with hsev | hsev | hsev
        · rw [hsev]
          exact Nat.zero_le _
        · rw [hsev]
          exact warn_le_reported.mpr (hwarn ⟨c, hc, .inr hsev⟩)
        · rw [hsev]
          exact error_le_reported.mpr (herror ⟨c, hc, hsev⟩)

/-! ## The values -/

theorem channelPrefix_ne (n : ℕ) (rest : String) {key : String}
    (hkey : key.toList.take 2 ≠ ['c', 'h']) : channelPrefix n ++ rest ≠ key := by
  intro heq
  refine hkey ?_
  rw [← heq]
  simp [channelPrefix, String.toList_append]

/-- No key of a channel has a value. -/
def Unkeyed (d : DiagnosticsCollector) : Prop :=
  ∀ n rest, d.values (channelPrefix n ++ rest) = none

theorem unkeyed_add {d : DiagnosticsCollector} (hd : Unkeyed d) {key : String} (value : String)
    (hkey : key.toList.take 2 ≠ ['c', 'h']) : Unkeyed (d.add key value) := by
  intro n rest
  simp only [DiagnosticsCollector.add, Function.update_of_ne (channelPrefix_ne n rest hkey)]
  exact hd n rest

theorem values_foldl (d : DiagnosticsCollector) (channels : List ChannelStatus) :
    (channels.foldl handleDiag d).values = d.values := by
  induction channels generalizing d with
  | nil => rfl
  | cons c channels ih =>
      have hone : (handleDiag d c).values = d.values := by
        unfold handleDiag
        split <;> split <;> rfl
      rw [List.foldl_cons, ih, hone]

theorem unkeyed_step {d d' : DiagnosticsCollector} {i : DiagnosticInput}
    {es : List DiagnosticEvent} (hd : Unkeyed d) (hstep : Diagnostics.step d i = some (d', es)) :
    Unkeyed d' := by
  cases i with
  | onEmcy text =>
      obtain ⟨rfl, -⟩ := Prod.mk.inj (Option.some.inj hstep)
      exact unkeyed_add hd text (by decide)
  | onNmt level message state =>
      obtain ⟨rfl, -⟩ := Prod.mk.inj (Option.some.inj hstep)
      exact unkeyed_add hd state (by decide)
  | device level message state =>
      obtain ⟨rfl, -⟩ := Prod.mk.inj (Option.some.inj hstep)
      exact unkeyed_add hd state (by decide)
  | record channel m =>
      obtain ⟨rfl, -⟩ := Prod.mk.inj (Option.some.inj hstep)
      refine unkeyed_add hd _ ?_
      cases m <;> simp [DiagnosticMessage.key]
  | callback channels =>
      obtain ⟨rfl, -⟩ := Prod.mk.inj (Option.some.inj hstep)
      have hvalues := values_foldl d (channels.filterMap id)
      intro n rest
      exact (congrFun hvalues _).trans (hd n rest)

theorem unkeyed_of_reach {d : DiagnosticsCollector} {h : List DiagnosticEvent}
    (hr : Reach Diagnostics.system Guard.free h d) : Unkeyed d := by
  refine hr.invariant (I := fun _ d => Unkeyed d) ?_ ?_
  · rintro d rfl
    intro n rest
    rfl
  · intro h d i d' es hd _ hstep
    exact unkeyed_step hd hstep

/-- What is published of a channel is empty. -/
theorem mem_diagnosticValues {d : DiagnosticsCollector} (hd : Unkeyed d) {channels n : ℕ}
    (hn : n < channels) {key value : String} (hkey : key = "mode" ∨ key = "state") :
    (channelPrefix n ++ key, value) ∈ diagnosticValues d channels ↔ value = "" := by
  have hempty : ∀ n rest, d.getValue (channelPrefix n ++ rest) = "" := by
    intro n rest
    rw [DiagnosticsCollector.getValue, hd, Option.getD_none]
  simp only [diagnosticValues, hempty, List.mem_append, List.mem_flatMap, List.mem_cons,
    List.not_mem_nil, or_false, Prod.mk.injEq]
  constructor
  · rintro ((⟨heq, -⟩ | ⟨heq, -⟩ | ⟨heq, -⟩ | ⟨heq, -⟩ | ⟨heq, -⟩) | ⟨m, -, ⟨-, rfl⟩ | ⟨-, rfl⟩⟩)
    · exact absurd heq (channelPrefix_ne n key (by decide))
    · exact absurd heq (channelPrefix_ne n key (by decide))
    · exact absurd heq (channelPrefix_ne n key (by decide))
    · exact absurd heq (channelPrefix_ne n key (by decide))
    · exact absurd heq (channelPrefix_ne n key (by decide))
    · rfl
    · rfl
  · rintro rfl
    refine .inr ⟨n, List.mem_range.mpr hn, ?_⟩
    rcases hkey with rfl | rfl
    · exact .inl ⟨rfl, rfl⟩
    · exact .inr ⟨rfl, rfl⟩

theorem append_ne_empty {a : String} (b : String) (ha : a ≠ "") : a ++ b ≠ "" :=
  fun heq => ha (String.append_eq_empty_iff.mp heq).1

/-- A message has a text. -/
theorem text_ne_empty (n : ℕ) (m : DiagnosticMessage) : m.text n ≠ "" := by
  cases m with
  | noMode mode => exact append_ne_empty _ (append_ne_empty _ (append_ne_empty _
      (append_ne_empty _ (by decide))))
  | modeSwitched mode => exact append_ne_empty _ (append_ne_empty _ (append_ne_empty _
      (append_ne_empty _ (by decide))))
  | modeTimedOut mode => exact append_ne_empty _ (append_ne_empty _ (append_ne_empty _
      (append_ne_empty _ (by decide))))
  | stateSwitched next => exact append_ne_empty _ (by decide)
  | stateTimedOut state next => exact append_ne_empty _ (append_ne_empty _ (append_ne_empty _
      (by decide)))

/-- A channel has no last message under a key when it has recorded none. -/
theorem lastMessage_eq_empty {h : List DiagnosticEvent} {n : ℕ} {key : String} :
    lastMessage h n key = "" ↔ ∀ m, m.key = key → .recorded n m ∉ h := by
  induction h with
  | nil => simp [lastMessage]
  | cons e h ih =>
      cases e with
      | published channels status =>
          have hskip : lastMessage (.published channels status :: h) n key =
              lastMessage h n key := rfl
          simp [hskip, ih]
      | recorded k m =>
          by_cases hmine : k = n ∧ m.key = key
          · have hfound : lastMessage (.recorded k m :: h) n key = m.text k := by
              simp [lastMessage, hmine]
            simp only [hfound, text_ne_empty, false_iff]
            intro hnone
            obtain ⟨rfl, hkey⟩ := hmine
            exact hnone m hkey List.mem_cons_self
          · have hskip : lastMessage (.recorded k m :: h) n key = lastMessage h n key := by
              simp [lastMessage, hmine]
            rw [hskip, ih]
            refine forall_congr' fun m' => forall_congr' fun hkey => ?_
            have hother : DiagnosticEvent.recorded n m' ≠ .recorded k m := by
              intro heq
              obtain ⟨rfl, rfl⟩ := DiagnosticEvent.recorded.inj heq
              exact hmine ⟨rfl, hkey⟩
            simp [hother]

/-- A message goes under one of two keys. -/
theorem key_cases (m : DiagnosticMessage) : m.key = "cia402_mode" ∨ m.key = "cia402_state" := by
  cases m <;> simp [DiagnosticMessage.key]

/-- **When the diagnostics hide nothing**: the last channel is as bad as any, and no channel has
recorded a message. -/
theorem diagnostics_hide_nothing_iff {d d' : DiagnosticsCollector} {h : List DiagnosticEvent}
    (hr : Reach Diagnostics.system Guard.free h d) (channels : List (Option ChannelStatus))
    (status : DiagnosticStatus)
    (hstep : Diagnostics.step d (.callback channels) = some (d', [.published channels status])) :
    HidesNothing h channels status ↔
      ShowsWorst (channels.filterMap id) ∧ ∀ n < channels.length, ∀ m, .recorded n m ∉ h := by
  have hunkeyed := unkeyed_step (unkeyed_of_reach hr) hstep
  obtain ⟨rfl, hevents⟩ := Prod.mk.inj (Option.some.inj hstep)
  obtain ⟨-, rfl⟩ := DiagnosticEvent.published.inj (List.cons.inj hevents).1
  constructor
  · intro hhides
    refine ⟨(level_iff d _).mp hhides.level, ?_⟩
    intro n hn m hmem
    rcases key_cases m with hkey | hkey
    · have hempty := (mem_diagnosticValues hunkeyed hn (.inl rfl)).mp (hhides.mode n hn)
      exact lastMessage_eq_empty.mp hempty m hkey hmem
    · have hempty := (mem_diagnosticValues hunkeyed hn (.inr rfl)).mp (hhides.state n hn)
      exact lastMessage_eq_empty.mp hempty m hkey hmem
  · rintro ⟨hshows, hnone⟩
    refine ⟨(level_iff d _).mpr hshows, ?_, ?_⟩
    · intro n hn
      refine (mem_diagnosticValues hunkeyed hn (.inl rfl)).mpr ?_
      exact lastMessage_eq_empty.mpr fun m _ => hnone n hn m
    · intro n hn
      refine (mem_diagnosticValues hunkeyed hn (.inr rfl)).mpr ?_
      exact lastMessage_eq_empty.mpr fun m _ => hnone n hn m

/-- Behind an emergency message, the fault of the last of two channels is published. -/
theorem fault_of_last_published :
    HidesNothing [] [some ⟨.operationEnable, 0x27⟩, some ⟨.fault, 0x08⟩]
      ⟨.error, "Fault", diagnosticValues
        ((DiagnosticsCollector.new.summary .error "Emergency message received").add "EMCY" "")
        2⟩ := by
  have hr : Reach Diagnostics.system Guard.free []
      ((DiagnosticsCollector.new.summary .error "Emergency message received").add "EMCY" "") :=
    Diagnostics.system.reach_run [.onEmcy ""] (.init rfl) rfl
  refine (diagnostics_hide_nothing_iff hr [some ⟨.operationEnable, 0x27⟩, some ⟨.fault, 0x08⟩] _
    rfl).mpr ⟨?_, by simp⟩
  intro last hlast
  obtain rfl := Option.some.inj hlast
  refine ⟨fun _ => ⟨by decide, by decide⟩, fun _ => .inr (by decide)⟩

/-- The first of two drives has a fault and has switched its mode: `OK` is published, and no
mode. -/
theorem fault_hidden :
    ∃ h d d' status, Reach Diagnostics.system Guard.free h d ∧
      Diagnostics.step d (.callback [some ⟨.fault, 0x08⟩, some ⟨.operationEnable, 0x27⟩]) =
        some (d', [.published [some ⟨.fault, 0x08⟩, some ⟨.operationEnable, 0x27⟩] status]) ∧
      status.level = .ok ∧
      lastMessage h 0 "cia402_mode" = "Mode switched to: 3 (channel 0)" ∧
      ("ch0_mode", "") ∈ status.values ∧
      ¬ HidesNothing h [some ⟨.fault, 0x08⟩, some ⟨.operationEnable, 0x27⟩] status := by
  have hr := Diagnostics.system.reach_run [.record 0 (.modeSwitched 3)] (.init rfl) rfl
  refine ⟨_, _, _, _, hr, rfl, rfl, by decide, by decide, ?_⟩
  intro hhides
  have hlevel := (hhides.level ⟨.fault, 0x08⟩ List.mem_cons_self).1
  revert hlevel
  decide

end RosCanopen.Cia402
