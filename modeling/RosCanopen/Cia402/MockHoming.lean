import RosCanopen.Cia402.HomingRig

/-!
# The fake slave homes when it is told to

Along a run whose thread heeds the start bit, homing is attained only after it: nobody has heard of
"Homing attained" before a start bit has been received.  The rig of the fake slave and the driver
does not heed it.

## Main definitions

* `HomesWhenTold` — no homing without the start bit.
* `startHeeded` — the steps of the runs in which it holds.
* `HomingRig.Accounted` — what holds along them.
-/

namespace RosCanopen.Cia402

open Lib

/-! ## No homing without the start bit -/

/-- A control word with the start bit. -/
def RigEvent.tells : RigEvent → Bool
  | .received cw => cw.getLsbD ControlWord.operationModeSpecific0
  | _ => false

/-- The start bit has been received since the mode was entered. -/
def toldSinceEntry (h : List RigEvent) : Bool :=
  since (fun e => decide (e ≠ .entered)) RigEvent.tells h

/-- The thread sets its two bits only after the start bit has been received since the mode was
entered, and `executeHoming` returns true only after it has been received at all. -/
def HomesWhenTold (h : List RigEvent) : Prop :=
  Historically (fun e old =>
    (e = .reached ∨ e = .attained → toldSinceEntry old = true) ∧
      (e = .returned true → ∃ told ∈ old, RigEvent.tells told = true)) h

/-- The thread finds bit 2 set only after the start bit has been received, and the homing method
is not zero. -/
def startHeeded : Guard HomingRig RigInput RigEvent
  | h, s, .homing _ => s.thread = .sample false → s.slave.controlWord.getLsbD 2 = true →
      toldSinceEntry h = true
  | _, _, .execute method => method ≠ 0
  | _, _, _ => True

/-! ## The bit of "Homing attained" in the slave -/

/-- Homing has not been attained. -/
def MockSlave.Unattained (s : MockSlave) : Prop :=
  s.statusWord.getLsbD StatusWord.operationModeSpecific0 = false

namespace MockSlave
variable {s : MockSlave}

theorem Unattained.setStatusBit (hs : s.Unattained) {i : ℕ}
    (hi : i ≠ StatusWord.operationModeSpecific0) : (s.setStatusBit i).Unattained := by
  rw [Unattained] at hs ⊢
  rw [MockSlave.setStatusBit, getLsbD_overwrite, getLsbD_bit, hs, decide_eq_false hi]
  simp

theorem Unattained.clearStatusBit (hs : s.Unattained) (i : ℕ) :
    (s.clearStatusBit i).Unattained := by
  rw [Unattained] at hs ⊢
  rw [MockSlave.clearStatusBit, getLsbD_overwrite, hs]
  simp

/-- The bits of the states are others. -/
theorem Unattained.setSwitchOnDisabled (hs : s.Unattained) :
    s.setSwitchOnDisabled.Unattained := by
  rw [Unattained] at hs
  simp [Unattained, MockSlave.setSwitchOnDisabled, MockSlave.setStatusBit,
    MockSlave.clearStatusBit, hs]

theorem Unattained.setReadyToSwitchOn (hs : s.Unattained) : s.setReadyToSwitchOn.Unattained := by
  rw [Unattained] at hs
  simp [Unattained, MockSlave.setReadyToSwitchOn, MockSlave.setStatusBit,
    MockSlave.clearStatusBit, hs]

theorem Unattained.setSwitchOn (hs : s.Unattained) : s.setSwitchOn.Unattained := by
  rw [Unattained] at hs
  simp [Unattained, MockSlave.setSwitchOn, MockSlave.setStatusBit, MockSlave.clearStatusBit, hs]

theorem Unattained.setOperationEnabled (hs : s.Unattained) :
    s.setOperationEnabled.Unattained := by
  rw [Unattained] at hs
  simp [Unattained, MockSlave.setOperationEnabled, MockSlave.setStatusBit,
    MockSlave.clearStatusBit, hs]

theorem Unattained.setQuickStop (hs : s.Unattained) : s.setQuickStop.Unattained := by
  rw [Unattained] at hs
  simp [Unattained, MockSlave.setQuickStop, MockSlave.setStatusBit, MockSlave.clearStatusBit, hs]

/-- A reaction that depends on a test of the control word. -/
theorem Unattained.ite {f : MockSlave → MockSlave} (hs : s.Unattained)
    (hf : ∀ {s : MockSlave}, s.Unattained → (f s).Unattained) (test : MockSlave → Bool) :
    (if test s then f s else s).Unattained := by
  by_cases htest : test s = true
  · rw [if_pos htest]
    exact hf hs
  · rw [if_neg htest]
    exact hs

theorem Unattained.changeMode (hs : s.Unattained) : s.changeMode.Unattained := by
  rw [MockSlave.changeMode]
  by_cases heq : s.oldOperationMode = s.operationMode
  · rw [if_pos heq]
    exact hs
  · rw [if_neg heq]
    exact (hs.clearStatusBit StatusWord.operationModeSpecific0).clearStatusBit _

theorem Unattained.setNewStatusWordAndState (hs : s.Unattained) :
    s.setNewStatusWordAndState.Unattained := by
  rw [MockSlave.setNewStatusWordAndState]
  split
  · exact hs.setSwitchOnDisabled
  · exact hs.ite setReadyToSwitchOn (isShutdown ·.controlWord)
  · have hdisabled := hs.ite setSwitchOnDisabled (isDisableVoltage ·.controlWord)
    have hon := hdisabled.ite setSwitchOn (isSwitchOn ·.controlWord)
    exact hon.ite setReadyToSwitchOn (isFaulReset ·.controlWord)
  · have hdisabled := hs.ite setSwitchOnDisabled (isDisableVoltage ·.controlWord)
    have hready := hdisabled.ite setReadyToSwitchOn (isShutdown ·.controlWord)
    exact hready.ite setOperationEnabled (isEnableOperation ·.controlWord)
  · have hdisabled := hs.ite setSwitchOnDisabled (isDisableVoltage ·.controlWord)
    have hready := hdisabled.ite setReadyToSwitchOn (isShutdown ·.controlWord)
    have hon := hready.ite setSwitchOn (isSwitchOn ·.controlWord)
    have hstop := hon.ite setQuickStop (isQuickstop ·.controlWord)
    exact changeMode hstop
  · have henabled := hs.ite setOperationEnabled (isEnableOperation ·.controlWord)
    exact henabled.ite setSwitchOnDisabled (isDisableVoltage ·.controlWord)
  · exact hs

/-- No control word sets the bit by itself. -/
theorem Unattained.onWriteControlWord (hs : s.Unattained) (cw : Word) :
    (s.onWriteControlWord cw).Unattained :=
  setNewStatusWordAndState (s := { s with controlWord := cw }) hs

end MockSlave

/-! ## What a step keeps -/

/-- Nobody has heard of homing having been attained. -/
structure HomingRig.Quiet (s : HomingRig) : Prop where
  slave : s.slave.Unattained
  sent : ∀ sw ∈ s.sent, sw.getLsbD StatusWord.operationModeSpecific0 = false
  status : s.mode.status.getLsbD StatusWord.operationModeSpecific0 = false

/-- What holds of the rig along a run that heeds the start bit. -/
structure HomingRig.Accounted (h : List RigEvent) (s : HomingRig) : Prop where
  /-- The thread belongs to the mode that was entered last. -/
  thread : s.thread ≠ .off → (s.slave.oldOperationMode = 6 ↔ s.joining = false)
  told : s.thread.homing = true → toldSinceEntry h = true
  quiet : (∀ e ∈ h, e.tells = false) → s.Quiet
  homes : HomesWhenTold h

/-- Only entering the mode makes the slave forget. -/
theorem toldSinceEntry_cons {e : RigEvent} {h : List RigEvent} (he : e ≠ .entered)
    (htold : toldSinceEntry h = true) : toldSinceEntry (e :: h) = true := by
  rw [toldSinceEntry] at htold ⊢
  rw [since_cons, htold, decide_eq_true he]
  simp

/-- Who has been told since the mode was entered has been told. -/
theorem not_forall_of_toldSinceEntry {h : List RigEvent} (htold : toldSinceEntry h = true) :
    ¬∀ e ∈ h, e.tells = false := by
  intro hnone
  obtain ⟨e, he, htells⟩ := exists_mem_of_since htold
  rw [hnone e he] at htells
  exact Bool.false_ne_true htells

namespace HomingRig
variable {s : HomingRig} {h : List RigEvent}

theorem Quiet.publish (hs : s.Quiet) : s.publish.Quiet where
  slave := hs.slave
  sent := by
    intro sw hsw
    cases List.mem_cons.mp hsw with
    | inl hnew => exact hnew ▸ hs.slave
    | inr hold => exact hs.sent sw hold
  status := hs.status

theorem Quiet.onWriteControlWord (hs : s.Quiet) (cw : Word) :
    (s.onWriteControlWord cw).1.Quiet where
  slave := hs.slave.onWriteControlWord cw
  sent := by
    intro sw hsw
    cases List.mem_cons.mp hsw with
    | inl hnew => exact hnew ▸ hs.slave.onWriteControlWord cw
    | inr hold => exact hs.sent sw hold
  status := hs.status

theorem Quiet.position (hs : s.Quiet) (step : PositionStep) : (s.position step).Quiet := by
  cases step with
  | set i hi =>
      have hne : i ≠ StatusWord.operationModeSpecific0 := by
        intro heq
        rw [heq] at hi
        exact absurd hi (by decide)
      exact ⟨hs.slave.setStatusBit hne, hs.sent, hs.status⟩
  | clear i _ => exact ⟨hs.slave.clearStatusBit i, hs.sent, hs.status⟩
  | publish => exact hs.publish

/-- Reading a word that has been sent. -/
theorem Quiet.read (hs : s.Quiet) {sw : Word} (hsw : sw ∈ s.sent) :
    ({ s with mode := s.mode.read sw } : HomingRig).Quiet where
  slave := hs.slave
  sent := hs.sent
  status := by
    have hbit := hs.sent sw hsw
    simp [DefaultHomingMode.read, BitVec.getLsbD_and, hbit]

/-- The steps that emit nothing, or only what the property allows at any time. -/
theorem homesWhenTold_append {es : List RigEvent} (hh : HomesWhenTold h)
    (hes : ∀ e ∈ es, e ≠ .reached ∧ e ≠ .attained ∧ e ≠ .returned true) :
    HomesWhenTold (es ++ h) := by
  refine Historically.append hh ?_
  intro new e old heq
  have he := hes e (by simp [heq])
  constructor
  · intro hhomed
    cases hhomed with
    | inl hreached => exact absurd hreached he.1
    | inr hattained => exact absurd hattained he.2.1
  · intro hreturned
    exact absurd hreturned he.2.2

/-- A control word does not enter the mode of a thread that runs. -/
theorem Accounted.onWriteControlWord (hs : s.Accounted h) (hjoin : s.joining = false)
    (cw : Word) :
    (s.onWriteControlWord cw).1.Accounted ((s.onWriteControlWord cw).2 ++ h) where
  thread := by
    intro hoff
    have hold := (hs.thread hoff).mpr hjoin
    simp [HomingRig.onWriteControlWord, hold]
  told := by
    intro hhoming
    have hoff : s.thread ≠ .off := by
      intro hoff
      simp [HomingRig.onWriteControlWord, hoff, HomingThread.homing] at hhoming
    have hold := (hs.thread hoff).mpr hjoin
    have hkept : (s.onWriteControlWord cw).2 = [.received cw] := by
      by_cases hsix : (s.slave.onWriteControlWord cw).oldOperationMode = 6
      · simp [HomingRig.onWriteControlWord, hold, hsix]
      · have hnot : ¬(s.slave.onWriteControlWord cw).oldOperationMode = 6#8 := hsix
        simp [HomingRig.onWriteControlWord, hnot]
    rw [hkept]
    exact toldSinceEntry_cons (by simp) (hs.told hhoming)
  quiet := by
    intro hnone
    exact (hs.quiet fun e he => hnone e (List.mem_append_right _ he)).onWriteControlWord cw
  homes := by
    refine homesWhenTold_append hs.homes ?_
    intro e he
    cases List.mem_cons.mp he with
    | inl hreceived => simp [hreceived]
    | inr hentered =>
        have heq : e = .entered := by
          split at hentered
          · exact List.mem_singleton.mp hentered
          · exact absurd hentered List.not_mem_nil
        simp [heq]

theorem thread_join :
    s.join.thread = if s.slave.oldOperationMode = 6 then .check false else .off := rfl

/-- The thread of homing is started when all others have ended. -/
theorem Accounted.join (hs : s.Accounted h) : s.join.Accounted h where
  thread := by
    intro hoff
    by_cases hsix : s.slave.oldOperationMode = 6
    · exact ⟨fun _ => rfl, fun _ => hsix⟩
    · rw [thread_join, if_neg hsix] at hoff
      exact absurd rfl hoff
  told := by
    intro hhoming
    by_cases hsix : s.slave.oldOperationMode = 6
    · rw [thread_join, if_pos hsix] at hhoming
      exact absurd hhoming (by decide)
    · rw [thread_join, if_neg hsix] at hhoming
      exact absurd hhoming (by decide)
  quiet := by
    intro hnone
    have hquiet := hs.quiet hnone
    exact Quiet.publish (s := { s with
      thread := if s.slave.oldOperationMode = 6 then .check false else .off
      joining := false }) ⟨hquiet.slave, hquiet.sent, hquiet.status⟩
  homes := hs.homes

/-- A step that emits nothing and does not change the mode. -/
theorem Accounted.of_quiet {s' : HomingRig} (hs : s.Accounted h)
    (hold : s'.slave.oldOperationMode = s.slave.oldOperationMode)
    (hjoining : s'.joining = s.joining)
    (hthread : s'.thread ≠ .off → s.thread ≠ .off)
    (htold : s'.thread.homing = true → toldSinceEntry h = true)
    (hquiet : (∀ e ∈ h, e.tells = false) → s.Quiet → s'.Quiet) : s'.Accounted h where
  thread := by
    intro hoff
    rw [hold, hjoining]
    exact hs.thread (hthread hoff)
  told := htold
  quiet := fun hnone => hquiet hnone (hs.quiet hnone)
  homes := hs.homes

/-- A bit that is set after the slave has been told. -/
theorem Accounted.emit (hs : s.Accounted h) (htold : toldSinceEntry h = true) {e : RigEvent}
    (he : e = .reached ∨ e = .attained) : s.Accounted (e :: h) where
  thread := hs.thread
  told := by
    intro _
    refine toldSinceEntry_cons ?_ htold
    intro hentered
    simp [hentered] at he
  quiet := fun hnone => hs.quiet fun x hx => hnone x (List.mem_cons_of_mem _ hx)
  homes := by
    refine Historically.cons hs.homes ⟨fun _ => htold, ?_⟩
    intro hreturned
    simp [hreturned] at he

/-- The thread takes a word for a start only if it is one, and goes through its pass. -/
theorem Accounted.passStep (hs : s.Accounted h) {ok : Bool}
    (hok : startHeeded h s (.homing ok)) (hrunning : s.thread ≠ .off) {s' : HomingRig}
    {es : List RigEvent} (hpass : s.PassStep s' es) : s'.Accounted (es ++ h) := by
  cases hpass with
  | moved hthread =>
      refine hs.of_quiet rfl rfl (fun _ => hrunning) ?_ ?_
      · intro hhoming
        exact absurd (hthread.symm.trans hhoming) Bool.false_ne_true
      · intro _ hquiet
        exact ⟨hquiet.slave, hquiet.sent, hquiet.status⟩
  | started hthread hbit =>
      have htold := hok hthread hbit
      exact hs.of_quiet rfl rfl (fun _ => hrunning) (fun _ => htold)
        fun _ hquiet => ⟨hquiet.slave.setStatusBit (by decide), hquiet.sent, hquiet.status⟩
  | published hthread =>
      have htold := hs.told (by rw [hthread]; rfl)
      refine hs.of_quiet rfl rfl (fun _ => hrunning) (fun _ => htold) ?_
      intro _ hquiet
      exact ⟨hquiet.publish.slave, hquiet.publish.sent, hquiet.status⟩
  | slept hthread =>
      have htold := hs.told (by rw [hthread]; rfl)
      exact hs.of_quiet rfl rfl (fun _ => hrunning) (fun _ => htold)
        fun _ hquiet => ⟨hquiet.slave.clearStatusBit _, hquiet.sent, hquiet.status⟩
  | reached hthread =>
      have htold := hs.told (by rw [hthread]; rfl)
      have hemit := hs.emit htold (e := .reached) (Or.inl rfl)
      have htold' := toldSinceEntry_cons (e := .reached) (by simp) htold
      exact hemit.of_quiet rfl rfl (fun _ => hrunning) (fun _ => htold')
        fun _ hquiet => ⟨hquiet.slave.setStatusBit (by decide), hquiet.sent, hquiet.status⟩
  | attained hthread =>
      have htold := hs.told (by rw [hthread]; rfl)
      have hemit := hs.emit htold (e := .attained) (Or.inr rfl)
      have htold' := toldSinceEntry_cons (e := .attained) (by simp) htold
      exact hemit.of_quiet rfl rfl (fun _ => hrunning) (fun _ => htold')
        fun hnone _ => absurd hnone (not_forall_of_toldSinceEntry htold')
  | finished hthread =>
      refine hs.of_quiet rfl rfl (fun _ => hrunning) (by simp [HomingThread.homing]) ?_
      intro _ hquiet
      exact ⟨hquiet.publish.slave, hquiet.publish.sent, hquiet.status⟩

theorem DriverOnly.quiet {s' : HomingRig} {es : List RigEvent} (hd : s.DriverOnly s' es)
    (hs : s.Quiet) : s'.Quiet where
  slave := hd.slave ▸ hs.slave
  sent := hd.sent ▸ hs.sent
  status := hd.status ▸ hs.status

/-- The driver reports a success only of a status that the slave has sent. -/
theorem Accounted.of_driverOnly {s' : HomingRig} {es : List RigEvent} (hs : s.Accounted h)
    (hd : s.DriverOnly s' es) : s'.Accounted (es ++ h) where
  thread := by
    rw [hd.thread, hd.slave, hd.joining]
    exact hs.thread
  told := by
    rw [hd.thread]
    intro hhoming
    have htold := hs.told hhoming
    obtain rfl | rfl | ⟨rfl, -⟩ := hd.events
    · exact htold
    · exact toldSinceEntry_cons (by simp) htold
    · exact toldSinceEntry_cons (by simp) htold
  quiet := fun hnone => hd.quiet (hs.quiet fun e he => hnone e (List.mem_append_right _ he))
  homes := by
    obtain rfl | rfl | ⟨rfl, hattained⟩ := hd.events
    · exact hs.homes
    · exact Historically.cons hs.homes ⟨by simp, by simp⟩
    · refine Historically.cons hs.homes ⟨by simp, ?_⟩
      intro _
      by_contra hnone
      have huntold : ∀ e ∈ h, e.tells = false := by
        intro e he
        by_contra htells
        exact hnone ⟨e, he, by simpa using htells⟩
      have hstatus := (hs.quiet huntold).status
      rw [hattained] at hstatus
      exact absurd hstatus (by decide)

/-- **What a step keeps.** -/
theorem Accounted.step (hs : s.Accounted h) {i : RigInput} (hok : startHeeded h s i)
    {s' : HomingRig} {es : List RigEvent} (hstep : s.Stepped i s' es) :
    s'.Accounted (es ++ h) := by
  cases hstep with
  | control cw hjoin => exact hs.onWriteControlWord hjoin cw
  | stream cw hjoin => exact hs.onWriteControlWord hjoin _
  | operationMode mode =>
      exact hs.of_quiet rfl rfl id hs.told
        fun _ hquiet => ⟨hquiet.slave, hquiet.sent, hquiet.status⟩
  | join => exact hs.join
  | homing hrunning hpass => exact hs.passStep hok hrunning hpass
  | position step =>
      have hframe : (s.position step).slave.oldOperationMode = s.slave.oldOperationMode ∧
          (s.position step).joining = s.joining ∧ (s.position step).thread = s.thread := by
        cases step with
        | set i hi => exact ⟨rfl, rfl, rfl⟩
        | clear i hi => exact ⟨rfl, rfl, rfl⟩
        | publish => exact ⟨rfl, rfl, rfl⟩
      obtain ⟨hold, hjoining, hthread⟩ := hframe
      refine hs.of_quiet hold hjoining ?_ ?_ fun _ hquiet => hquiet.position step
      · rw [hthread]
        exact id
      · rw [hthread]
        exact hs.told
  | start =>
      refine hs.of_quiet rfl rfl id hs.told fun _ hquiet => ⟨hquiet.slave, hquiet.sent, ?_⟩
      simp [DefaultHomingMode.start, DefaultHomingMode.read]
  | read hsw => exact hs.of_quiet rfl rfl id hs.told fun _ hquiet => hquiet.read hsw
  | skipped => exact absurd rfl hok
  | driver hd => exact hs.of_driverOnly hd

theorem accounted_init (hs : HomingRig.system.init s) : s.Accounted [] where
  thread := fun hoff => absurd hs.2.1 hoff
  told := by
    rw [hs.2.1]
    simp [HomingThread.homing]
  quiet := by
    obtain ⟨⟨-, hword, -⟩, -, -, hsent, hmode, -⟩ := hs
    intro _
    refine ⟨?_, ?_, ?_⟩
    · rw [MockSlave.Unattained, hword]
      rfl
    · rw [hsent]
      simp
    · rw [hmode]
      rfl
  homes := historically_nil

end HomingRig

/-- **No homing without the start bit**, in the runs that heed it. -/
theorem homesWhenTold_of_startHeeded (h : List RigEvent) (s : HomingRig)
    (hr : Reach HomingRig.system startHeeded h s) : HomesWhenTold h := by
  have hacc : s.Accounted h := by
    induction hr with
    | init hs => exact HomingRig.accounted_init hs
    | step _ hok hstep hacc => exact hacc.step hok (HomingRig.stepped_of_step hstep)
  exact hacc.homes

/-- The rig before anything has been written. -/
def idleRig : HomingRig :=
  ⟨⟨0, 0, .notReadyToSwitchOn, 0, 0, false, false, false, 0, 0⟩, .off, false, [0], ⟨false, 0⟩,
    none⟩

theorem init_idleRig : HomingRig.system.init idleRig := by
  refine ⟨⟨?_, ?_, ?_⟩, ?_, ?_, ?_, ?_, ?_⟩ <;> rfl

/-- The mode is entered, the thread makes its pass, and `executeHoming` is called. -/
def RigInput.homes : List RigInput :=
  [.control 0x0, .control 0x6, .control 0x7, .operationMode 6, .control 0xF, .control 0xF, .join] ++
    List.replicate 7 (.homing true) ++ [.execute 35, .read 0x1427] ++
    List.replicate 4 (.wake false)

instance (h : List RigEvent) (s : HomingRig) (i : RigInput) : Decidable (startHeeded h s i) :=
  match i with
  | .homing _ => inferInstanceAs (Decidable (s.thread = .sample false →
      s.slave.controlWord.getLsbD 2 = true → toldSinceEntry h = true))
  | .execute method => inferInstanceAs (Decidable (method ≠ 0))
  | .control _ | .stream _ | .operationMode _ | .join | .position _ | .start | .read _ |
      .wake _ => .isTrue trivial

/-- The mode is entered by a word that does not tell, and the next one does. -/
def RigInput.homesLater : List RigInput :=
  [.control 0x0, .control 0x6, .control 0x7, .operationMode 6, .control 0xF, .control 0xF, .join,
    .control 0x1F] ++ List.replicate 7 (.homing true) ++ [.execute 35, .read 0x1427] ++
    List.replicate 4 (.wake false)

/-- The slave is told by a word that comes after the mode has been entered, homes, and
`executeHoming` returns true. -/
theorem homesWhenTold_toldLater : ∃ new old s,
    Reach HomingRig.system startHeeded (new ++ .received 0x1F :: old) s ∧
      .entered ∈ old ∧ (∀ e ∈ old, e.tells = false) ∧
      RigEvent.attained ∈ new ∧ RigEvent.returned true ∈ new ∧
      HomesWhenTold (new ++ .received 0x1F :: old) := by
  have hrun : (HomingRig.system.runIf (fun h s i => decide (startHeeded h s i))
      RigInput.homesLater [] idleRig).any (fun (p : List RigEvent × HomingRig) =>
        let new := p.1.takeWhile fun e => decide (e ≠ .received 0x1F)
        let rest := p.1.dropWhile fun e => decide (e ≠ .received 0x1F)
        decide (rest.head? = some (.received 0x1F) ∧ .entered ∈ rest.tail ∧
          (∀ e ∈ rest.tail, e.tells = false) ∧ .attained ∈ new ∧ .returned true ∈ new)) =
            true := by
    decide +kernel
  obtain ⟨h, s, hr, hP⟩ := System.exists_reach_runIf _ (.init init_idleRig)
    (fun _ _ _ hcheck => of_decide_eq_true hcheck) hrun
  obtain ⟨hhead, hentered, hquiet, hattained, hreturned⟩ := of_decide_eq_true hP
  obtain ⟨old, hold⟩ := List.head?_eq_some_iff.mp hhead
  have hsplit :
      h.takeWhile (fun e => decide (e ≠ .received 0x1F)) ++ .received 0x1F :: old = h := by
    rw [← hold]
    exact List.takeWhile_append_dropWhile
  simp only [hold, List.tail_cons] at hentered hquiet
  refine ⟨_, old, s, ?_, hentered, hquiet, hattained, hreturned, ?_⟩
  · rw [hsplit]
    exact hr
  · rw [hsplit]
    exact homesWhenTold_of_startHeeded h s hr

/-- Bit 2 is set in the word that enables the drive: without a start bit the slave homes, and
`executeHoming` returns true. -/
theorem homes_untold : ¬∀ h s, Reach HomingRig.system Guard.free h s → HomesWhenTold h := by
  intro hall
  have hrun : (HomingRig.system.run RigInput.homes [] idleRig).any (fun p =>
      p.1.head?.any (fun e => decide (e = .returned true)) &&
        p.1.all fun e => !e.tells) = true := by
    decide +kernel
  obtain ⟨h, s, hr, hP⟩ := System.exists_reach_run _ (.init init_idleRig) hrun
  rw [Bool.and_eq_true] at hP
  obtain ⟨e, hhead, he⟩ := (Option.any_eq_true _ _).mp hP.1
  obtain ⟨old, rfl⟩ := List.head?_eq_some_iff.mp hhead
  obtain ⟨told, hmem, htells⟩ := (hall _ s hr [] e old rfl).2 (of_decide_eq_true he)
  have hnone := List.all_eq_true.mp hP.2 told (List.mem_cons_of_mem _ hmem)
  rw [htells] at hnone
  exact absurd hnone (by decide)

end RosCanopen.Cia402
