import RosCanopen.Ros2Control.Topics

/-!
# What comes through to the topics

The states come through whole: the topic has texts of reported states in their order, and loses
one only where something on the way is late or a publication fails.  Of a datum each part comes
through by itself, and all of them together where the update does not meet `set_rpdo_data`.

## Main definitions

* `Topics.NmtRelayed`, `Topics.RpdoRelayed` — what has come how far.
* `Topics.Undisturbed` — an update that does not meet `set_rpdo_data`.
* `Topics.nmt_state_topic`, `Topics.rpdo_topic` — the topics.
-/

namespace RosCanopen.Ros2Control

open Lib RosCanopen.Core Cia402
open Bridge (COData)

namespace Topics

/-- The data whose part has been assigned, when the parts from this one on are to come. -/
def assigned (w : RpdoPart) (setting : Option RpdoPart) (h : List TopicsEvent) : List COData :=
  if w.IsFrom setting then (heldData h).tail else heldData h

/-- What an update has read of an interface. -/
def readOf (w : RpdoPart) : Option UpdateRun → List Double
  | none => []
  | some run => if w.IsFrom run.next then [] else [run.seen w]

/-- The states are handed over in order, the interface holds the last, and the texts are those
of states that it has held, each other than the one before. -/
structure NmtRelayed (id : BitVec 8) (h : List TopicsEvent) (s : Topics) : Prop where
  sound : s.handover.Sound
  ordered : NmtHandover.Ordered (h.filterMap TopicsEvent.nmt?) s.handover
  state : (heldStates h).head?.map ofUnsigned = some (s.node id).state
  actual : (offered h ++ ["BOOTUP"]).head? = some s.nmtStateActual
  changing : (offered h ++ ["BOOTUP"]).IsChain (· ≠ ·)
  sampled : Sampled (offered h ++ ["BOOTUP"]) ((heldStates h).map nmtStateName)

/-- The interface of a part shows the datum assigned last, and updates have read it of data that
were assigned, in order. -/
structure PartRelayed (w : RpdoPart) (id : BitVec 8) (h : List TopicsEvent) (s : Topics) :
    Prop where
  shows : ∃ d, (assigned w s.setting h).head? = some d ∧
    w.Holds (w.interface (s.node id).rpdoData) d
  sampled : ∃ read seen, Sampled (read ++ seen) (assigned w s.setting h) ∧
    List.Forall₂ (fun x d => w.Holds x d) (readOf w s.updating) read ∧
    List.Forall₂ (fun p d => w.Comes p d) (published h) seen

/-- The data are handed over in order, and each part of them is relayed. -/
structure RpdoRelayed (id : BitVec 8) (h : List TopicsEvent) (s : Topics) : Prop where
  placed : Polling.WellPlaced s.callback s.polling.pc
  ordered : Polling.Ordered .rpdo (h.filterMap TopicsEvent.polled?) s.polling
  coType : (s.node id).rpdoData.coType = .int32
  latest : (heldData h).head? = some (s.node id).rpdoData.originalData
  parts : ∀ w, PartRelayed w id h s

/-! ## The way of a state -/

section Nmt
variable {id : BitVec 8} {s s' : Topics} {h es : List TopicsEvent} {env : TopicsEnv}

/-- A state comes through the interface. -/
theorem staticCast_state (st : NmtState) :
    staticCast ⟨true, 32⟩ (ofUnsigned st) = some (st.setWidth 32) := by
  have hlt := st.isLt
  have hword : (st.setWidth 32).toNat = st.toNat := by
    rw [BitVec.toNat_setWidth]
    omega
  have hcast : (IntType.mk true 32).cast ((IntType.mk false 32).value (st.setWidth 32) : ℚ) =
      if (st.setWidth 32).toNat < 2 ^ 31 then some (st.setWidth 32) else none :=
    IntType.cast_swap (by decide) false (st.setWidth 32)
  rw [if_pos (by rw [hword]; omega), IntType.value_unsigned, hword] at hcast
  simpa [staticCast, ofUnsigned] using hcast

/-- The text of an update is that of the state that the interface holds. -/
theorem NmtRelayed.text (hs : NmtRelayed id h s) (raw : BitVec 32) :
    ((heldStates h).map nmtStateName).head? =
      some (nmtStateName (((staticCast ⟨true, 32⟩ (s.node id).state).getD raw).setWidth 8)) := by
  obtain ⟨st, hst, hstate⟩ := Option.map_eq_some_iff.mp hs.state
  have hback : (st.setWidth 32).setWidth 8 = st := by simp
  rw [← hstate, staticCast_state, Option.getD_some, hback, List.head?_map, hst]
  rfl

theorem NmtRelayed.frame (hs : NmtRelayed id h s)
    (hes : ∀ e ∈ es, e.nmt? = none ∧ e.offered? = none) (hhandover : s'.handover = s.handover)
    (hstate : (s'.node id).state = (s.node id).state)
    (hactual : s'.nmtStateActual = s.nmtStateActual) : NmtRelayed id (es ++ h) s' := by
  have hnmt : (es ++ h).filterMap TopicsEvent.nmt? = h.filterMap TopicsEvent.nmt? :=
    filterMap_append_none fun e he => (hes e he).1
  have hoffered : offered (es ++ h) = offered h :=
    filterMap_append_none fun e he => (hes e he).2
  have hheld : heldStates (es ++ h) = heldStates h := by
    rw [heldStates, heldStates, calledBack, calledBack, hnmt]
  constructor
  · rw [hhandover]
    exact hs.sound
  · rw [hnmt, hhandover]
    exact hs.ordered
  · rw [hheld, hstate]
    exact hs.state
  · rw [hoffered, hactual]
    exact hs.actual
  · rw [hoffered]
    exact hs.changing
  · rw [hoffered, hheld]
    exact hs.sampled

theorem filterMap_nmt (es : List HandoverEvent) (h : List TopicsEvent) :
    (es.map TopicsEvent.nmt ++ h).filterMap TopicsEvent.nmt? =
      es ++ h.filterMap TopicsEvent.nmt? := by
  have hself : (es.map TopicsEvent.nmt).filterMap TopicsEvent.nmt? = es := by
    rw [List.filterMap_map]
    exact List.filterMap_some
  rw [List.filterMap_append, hself]

theorem offered_nmt (es : List HandoverEvent) (h : List TopicsEvent) :
    offered (es.map TopicsEvent.nmt ++ h) = offered h := by
  refine filterMap_append_none ?_
  intro e he
  obtain ⟨e', -, rfl⟩ := List.mem_map.mp he
  rfl

/-- A step of the hand-over that does not call the callback. -/
theorem NmtRelayed.quiet (hs : NmtRelayed id h s) {registered : Bool} {i : HandoverInput}
    {t : NmtHandover} {es : List HandoverEvent}
    (hstep : NmtHandover.step registered s.handover i = some (t, es))
    (hquiet : NmtHandover.calls es = []) :
    NmtRelayed id (es.map .nmt ++ h) { s with handover := t } := by
  have hheld : heldStates (es.map .nmt ++ h) = heldStates h := by
    rw [heldStates, heldStates, calledBack, calledBack, filterMap_nmt]
    rw [NmtHandover.calls] at hquiet
    rw [NmtHandover.calls, NmtHandover.calls, List.filterMap_append, hquiet, List.nil_append]
  constructor
  · exact (hs.sound.step hstep).1
  · rw [filterMap_nmt]
    exact hs.ordered.step hs.sound hstep
  · rw [hheld]
    exact hs.state
  · rw [offered_nmt]
    exact hs.actual
  · rw [offered_nmt]
    exact hs.changing
  · rw [offered_nmt, hheld]
    exact hs.sampled

/-- The callback sets the interface. -/
theorem NmtRelayed.calledBack (hs : NmtRelayed id h s) {registered : Bool} {i : HandoverInput}
    {t : NmtHandover} {st : NmtState} {hardware : Hardware}
    (hstep : NmtHandover.step registered s.handover i = some (t, [.calledBack st]))
    (hstate : (hardware.canopenData id.toNat).state = ofUnsigned st) :
    NmtRelayed id (.nmt (.calledBack st) :: h) { s with handover := t, hardware } := by
  constructor
  · exact (hs.sound.step hstep).1
  · exact hs.ordered.step hs.sound hstep
  · exact congrArg some hstate.symm
  · exact hs.actual
  · exact hs.changing
  · exact .write _ hs.sampled

/-- The part of an update for the state. -/
theorem NmtRelayed.publishNmt (hs : NmtRelayed id h s) (env : TopicsEnv) :
    NmtRelayed id ((s.publishNmt id env).2 ++ h) (s.publishNmt id env).1 := by
  have hhead := hs.text env.rawState
  rw [Topics.publishNmt]
  by_cases hreads : env.readsState = true
  · rw [if_pos hreads]
    by_cases hsame : s.nmtStateActual ≠ nmtStateName
        (((staticCast ⟨true, 32⟩ (s.node id).state).getD env.rawState).setWidth 8)
    · simp only [if_pos hsame]
      constructor
      · exact hs.sound
      · exact hs.ordered
      · exact hs.state
      · rfl
      · refine List.isChain_cons.mpr ⟨?_, hs.changing⟩
        intro text htext
        rw [Option.mem_def] at htext
        obtain rfl := Option.some.inj (htext.symm.trans hs.actual)
        exact Ne.symm hsame
      · exact hs.sampled.read_head hhead
    · simp only [if_neg hsame]
      exact hs
  · rw [if_neg hreads]
    exact hs

end Nmt

/-! ## The way of a datum -/

@[simp] theorem node_modify (s : Topics) (id : BitVec 8) (f : CanopenNodeData → CanopenNodeData) :
    (s.modify id f).node id =
      { s.node id with toCanopenNodeData := f (s.node id).toCanopenNodeData } :=
  Function.update_self ..

section Rpdo
variable {id : BitVec 8} {s s' : Topics} {h h' es : List TopicsEvent} {w w' : RpdoPart}

theorem PartRelayed.congr (hs : PartRelayed w id h s)
    (hassigned : assigned w s'.setting h' = assigned w s.setting h)
    (hinterface : w.interface (s'.node id).rpdoData = w.interface (s.node id).rpdoData)
    (hread : readOf w s'.updating = readOf w s.updating)
    (hpublished : published h' = published h) : PartRelayed w id h' s' := by
  constructor
  · rw [hassigned, hinterface]
    exact hs.shows
  · rw [hassigned, hread, hpublished]
    exact hs.sampled

theorem assigned_congr (hheld : heldData h' = heldData h) (setting : Option RpdoPart) :
    assigned w setting h' = assigned w setting h := by
  rw [assigned, assigned, hheld]

theorem RpdoRelayed.frame (hs : RpdoRelayed id h s)
    (hes : ∀ e ∈ es, e.polled? = none ∧ e.published? = none)
    (hplaced : Polling.WellPlaced s'.callback s'.polling.pc) (hpolling : s'.polling = s.polling)
    (hsetting : s'.setting = s.setting)
    (hread : ∀ w, readOf w s'.updating = readOf w s.updating)
    (hdata : (s'.node id).rpdoData = (s.node id).rpdoData) : RpdoRelayed id (es ++ h) s' := by
  have hpolled : (es ++ h).filterMap TopicsEvent.polled? = h.filterMap TopicsEvent.polled? :=
    filterMap_append_none fun e he => (hes e he).1
  have hpublished : published (es ++ h) = published h :=
    filterMap_append_none fun e he => (hes e he).2
  have hheld : heldData (es ++ h) = heldData h := by
    rw [heldData, heldData, rpdos, rpdos, hpolled]
  constructor
  · exact hplaced
  · rw [hpolled, hpolling]
    exact hs.ordered
  · rw [hdata]
    exact hs.coType
  · rw [hheld, hdata]
    exact hs.latest
  · intro w
    refine (hs.parts w).congr ?_ (by rw [hdata]) (hread w) hpublished
    rw [hsetting]
    exact assigned_congr hheld _

theorem filterMap_polled (es : List (PollingEvent DriverMessage)) (h : List TopicsEvent) :
    (es.map TopicsEvent.polled ++ h).filterMap TopicsEvent.polled? =
      es ++ h.filterMap TopicsEvent.polled? := by
  have hself : (es.map TopicsEvent.polled).filterMap TopicsEvent.polled? = es := by
    rw [List.filterMap_map]
    exact List.filterMap_some
  rw [List.filterMap_append, hself]

theorem published_polled (es : List (PollingEvent DriverMessage)) (h : List TopicsEvent) :
    published (es.map TopicsEvent.polled ++ h) = published h := by
  refine filterMap_append_none ?_
  intro e he
  obtain ⟨e', -, rfl⟩ := List.mem_map.mp he
  rfl

/-- A step of the queues that hands over no datum. -/
theorem RpdoRelayed.quiet (hs : RpdoRelayed id h s) {i : PollingInput DriverMessage}
    {polling : Polling DriverMessage} {es : List (PollingEvent DriverMessage)}
    {hardware : Hardware} (hstep : Polling.step s.callback s.polling i = some (polling, es))
    (hquiet : ∀ h, Polling.messages .handed .rpdo (es ++ h) = Polling.messages .handed .rpdo h)
    (hdata : (hardware.canopenData id.toNat).rpdoData = (s.node id).rpdoData) :
    RpdoRelayed id (es.map .polled ++ h) { s with polling, hardware } := by
  have hheld : heldData (es.map .polled ++ h) = heldData h := by
    rw [heldData, heldData, rpdos, rpdos, filterMap_polled, hquiet]
  constructor
  · exact hs.placed.step hstep
  · rw [filterMap_polled]
    exact hs.ordered.step (Polling.turned_of_stepped (Polling.step_cases hs.placed hstep))
  · exact (congrArg (·.coType) hdata).trans hs.coType
  · rw [hheld]
    exact hs.latest.trans (congrArg (fun d => some d.originalData) hdata.symm)
  · intro w
    exact (hs.parts w).congr (assigned_congr hheld _) (congrArg w.interface hdata) rfl
      (published_polled es h)

/-- `set_rpdo_data` begins: the parts of the datum are to come. -/
theorem RpdoRelayed.handed (hs : RpdoRelayed id h s) {i : PollingInput DriverMessage}
    {polling : Polling DriverMessage} {d : COData} (hsetting : s.setting = none)
    (hstep : Polling.step s.callback s.polling i = some (polling, [.message .handed .rpdo d])) :
    RpdoRelayed id (.polled (.message .handed .rpdo d) :: h)
      ({ s with polling, setting := some .index }.modify id fun n =>
        { n with rpdoData := n.rpdoData.setData d }) := by
  have hrpdos : rpdos .handed (.polled (.message .handed .rpdo d) :: h) = d :: rpdos .handed h :=
    Polling.messages_cons_self
  have hheld : heldData (.polled (.message .handed .rpdo d) :: h) = d :: heldData h := by
    rw [heldData, hrpdos]
    rfl
  constructor
  · exact hs.placed.step hstep
  · exact hs.ordered.step (Polling.turned_of_stepped (Polling.step_cases hs.placed hstep))
  · rw [node_modify]
    exact hs.coType
  · rw [hheld, node_modify]
    rfl
  · intro w
    refine (hs.parts w).congr ?_ ?_ rfl rfl
    · have hnone : ¬ w.IsFrom none := fun hfrom => hfrom
      show assigned w (some .index) _ = _
      rw [assigned, assigned, hsetting, if_pos w.isFrom_index, if_neg hnone, hheld]
      rfl
    · rw [node_modify]
      cases w <;> rfl

/-- `set_rpdo_data` assigns the next part. -/
theorem RpdoRelayed.set (hs : RpdoRelayed id h s) (hsetting : s.setting = some w)
    (raw : Double) :
    RpdoRelayed id h ({ s with setting := w.next }.modify id (·.setPart raw w)) := by
  have hdata : (({ s with setting := w.next } : Topics).modify id (·.setPart raw w)).node id =
      { s.node id with toCanopenNodeData := (s.node id).toCanopenNodeData.setPart raw w } :=
    node_modify _ _ _
  constructor
  · exact hs.placed
  · exact hs.ordered
  · rw [hdata]
    simp only [CanopenNodeData.rpdoData_setPart, RpdoPart.coType_assign]
    exact hs.coType
  · rw [hdata]
    simp only [CanopenNodeData.rpdoData_setPart, RpdoPart.originalData_assign]
    exact hs.latest
  · intro w'
    by_cases hw : w' = w
    · subst hw
      -- the datum takes its place in front of those whose part has been assigned
      obtain ⟨older, hheld⟩ := List.head?_eq_some_iff.mp hs.latest
      have hbefore : assigned w' s.setting h = older := by
        rw [assigned, hsetting, if_pos w'.isFrom_self, hheld]
        rfl
      have hafter : assigned w' w'.next h = (s.node id).rpdoData.originalData :: older := by
        rw [assigned, if_neg w'.not_isFrom_next, hheld]
      constructor
      · refine ⟨(s.node id).rpdoData.originalData, ?_, ?_⟩
        · exact congrArg List.head? hafter
        · rw [hdata]
          simp only [CanopenNodeData.rpdoData_setPart]
          exact w'.holds_assign hs.coType raw
      · obtain ⟨read, seen, hsampled, hread, hseen⟩ := (hs.parts w').sampled
        refine ⟨read, seen, ?_, hread, hseen⟩
        show Sampled _ (assigned w' w'.next h)
        rw [hafter]
        rw [hbefore] at hsampled
        exact .write _ hsampled
    · refine (hs.parts w').congr ?_ ?_ rfl rfl
      · show assigned w' w.next h = _
        rw [assigned, assigned, hsetting]
        simp only [RpdoPart.isFrom_next hw]
      · rw [hdata]
        simp only [CanopenNodeData.rpdoData_setPart]
        exact RpdoPart.interface_assign_of_ne hw _ raw

/-- `update` reads the next interface. -/
theorem RpdoRelayed.read (hs : RpdoRelayed id h s) {run : UpdateRun}
    (hupdating : s.updating = some run) (hnext : run.next = some w) :
    RpdoRelayed id ((s.goOn id run).2 ++ h) (s.goOn id run).1 := by
  simp only [goOn, hnext]
  refine ⟨hs.placed, hs.ordered, hs.coType, hs.latest, ?_⟩
  intro w'
  by_cases hw : w' = w
  · subst hw
    obtain ⟨d, hhead, hholds⟩ := (hs.parts w').shows
    obtain ⟨read, seen, hsampled, hread, hseen⟩ := (hs.parts w').sampled
    rw [hupdating, readOf, hnext, if_pos w'.isFrom_self] at hread
    obtain rfl := List.forall₂_nil_left_iff.mp hread
    refine ⟨⟨d, hhead, hholds⟩, [d], seen, hsampled.read_head hhead, ?_, hseen⟩
    simp only [readOf, if_neg w'.not_isFrom_next, Function.update_self]
    exact .cons hholds .nil
  · refine (hs.parts w').congr rfl rfl ?_ rfl
    rw [hupdating]
    simp only [readOf, hnext, RpdoPart.isFrom_next hw, Function.update_of_ne hw]

/-- An update publishes one message when it can read the interfaces and publish. -/
theorem published_publishRpdo (n : CanopenNodeData) (env : UpdateEnv) (h : List TopicsEvent) :
    published ((n.publishRpdo env).map .proxy ++ h) =
      (if env.readsIndex && env.readsSubindex && env.readsData && env.publishes then
        [n.rpdoMessage env.raw] else []) ++ published h := by
  rw [published, List.filterMap_append, CanopenNodeData.publishRpdo]
  refine congrArg (· ++ _) ?_
  by_cases hreads : (env.readsIndex && env.readsSubindex && env.readsData) = true
  · rw [if_pos hreads, hreads, Bool.true_and]
    by_cases hpublishes : env.publishes = true
    · rw [if_pos hpublishes, if_pos hpublishes]
      cases n.rpdoInRange <;> rfl
    · rw [if_neg hpublishes, if_neg hpublishes]
      cases n.rpdoInRange <;> rfl
  · have hfalse := Bool.eq_false_iff.mpr hreads
    rw [if_neg hreads, hfalse, Bool.false_and]
    rfl

/-- An update copies the command beside. -/
theorem rpdoData_copyCommand (n : CanopenNodeData) (env : UpdateEnv) :
    (n.copyCommand env).1.rpdoData = n.rpdoData := by
  have hcopied := CanopenNodeData.copied_copyCommand n env
  generalize (n.copyCommand env).1 = n', (n.copyCommand env).2 = es at hcopied
  cases hcopied with
  | none => rfl
  | all => rfl
  | part => rfl

theorem silent_copyCommand (n : CanopenNodeData) (env : UpdateEnv) :
    ∀ e ∈ (n.copyCommand env).2.map TopicsEvent.proxy, e.published? = none := by
  intro e he
  obtain ⟨e', he', rfl⟩ := List.mem_map.mp he
  have hcopied := CanopenNodeData.copied_copyCommand n env
  generalize (n.copyCommand env).1 = n', (n.copyCommand env).2 = es at hcopied he'
  cases hcopied with
  | none => simp at he'
  | all =>
      rw [List.mem_singleton.mp he']
      rfl
  | part =>
      rw [List.mem_singleton.mp he']
      rfl

/-- What is left of an update, behind its reads. -/
theorem published_goOn (s : Topics) (id : BitVec 8) {run : UpdateRun} (hnext : run.next = none)
    (h : List TopicsEvent) : published ((s.goOn id run).2 ++ h) =
      (if run.env.readsIndex && run.env.readsSubindex && run.env.readsData && run.env.publishes
        then [((s.node id).seeing run.seen).rpdoMessage run.env.raw] else []) ++ published h := by
  simp only [goOn, hnext, List.map_append, List.append_assoc]
  rw [← published_publishRpdo]
  exact filterMap_append_none (silent_copyCommand _ _)

/-- The end of an update. -/
theorem RpdoRelayed.publish (hs : RpdoRelayed id h s) {run : UpdateRun}
    (hupdating : s.updating = some run) (hnext : run.next = none) :
    RpdoRelayed id ((s.goOn id run).2 ++ h) (s.goOn id run).1 := by
  have hpublished := published_goOn s id hnext h
  have hpolled : ((s.goOn id run).2 ++ h).filterMap TopicsEvent.polled? =
      h.filterMap TopicsEvent.polled? := by
    refine filterMap_append_none ?_
    simp only [goOn, hnext]
    intro e he
    obtain ⟨e', -, rfl⟩ := List.mem_map.mp he
    rfl
  have hheld : heldData ((s.goOn id run).2 ++ h) = heldData h := by
    rw [heldData, heldData, rpdos, rpdos, hpolled]
  have hdata : ((s.goOn id run).1.node id).rpdoData = (s.node id).rpdoData := by
    simp only [goOn, hnext]
    have hnode := node_modify s id fun n => (n.copyCommand run.env).1
    exact (congrArg (·.rpdoData) hnode).trans (rpdoData_copyCommand _ _)
  have hsetting : (s.goOn id run).1.setting = s.setting := by
    simp only [goOn, hnext]
    rfl
  have hend : (s.goOn id run).1.updating = none := by
    simp only [goOn, hnext]
  constructor
  · simp only [goOn, hnext]
    exact hs.placed
  · rw [hpolled]
    simp only [goOn, hnext]
    exact hs.ordered
  · rw [hdata]
    exact hs.coType
  · rw [hheld, hdata]
    exact hs.latest
  · intro w
    have hassigned : assigned w (s.goOn id run).1.setting ((s.goOn id run).2 ++ h) =
        assigned w s.setting h := by
      rw [hsetting]
      exact assigned_congr hheld _
    have hnone : ¬ w.IsFrom none := fun hfrom => hfrom
    obtain ⟨read, seen, hsampled, hread, hseen⟩ := (hs.parts w).sampled
    rw [hupdating, readOf, hnext, if_neg hnone] at hread
    obtain ⟨d, rest, hholds, hrest, rfl⟩ := List.forall₂_cons_left_iff.mp hread
    obtain rfl := List.forall₂_nil_left_iff.mp hrest
    constructor
    · rw [hassigned, hdata]
      exact (hs.parts w).shows
    · rw [hassigned, hend, hpublished]
      by_cases hpublishes : (run.env.readsIndex && run.env.readsSubindex && run.env.readsData &&
          run.env.publishes) = true
      · rw [if_pos hpublishes]
        refine ⟨[], d :: seen, hsampled, .nil, .cons ?_ hseen⟩
        refine CanopenNodeData.comes_rpdoMessage ?_ run.env.raw
        rw [CanopenNodeData.interface_seeing]
        exact hholds
      · rw [if_neg hpublishes]
        exact ⟨[], seen, hsampled.of_sublist_left (List.sublist_cons_self d seen), .nil, hseen⟩

end Rpdo

/-! ## The steps -/

section Steps
variable {info : HardwareInfo} {id : BitVec 8} {s s' : Topics} {i : TopicsInput}
  {h es : List TopicsEvent}

/-- State and data have come as far as this. -/
def Relayed (id : BitVec 8) (h : List TopicsEvent) (s : Topics) : Prop :=
  NmtRelayed id h s ∧ RpdoRelayed id h s

/-- The part of an update for the state leaves all the rest. -/
theorem publishNmt_spec (s : Topics) (id : BitVec 8) (env : TopicsEnv) :
    ∃ actual es, s.publishNmt id env = ({ s with nmtStateActual := actual }, es) ∧
      ∀ e ∈ es, e.polled? = none ∧ e.published? = none := by
  rw [publishNmt]
  split
  · simp only
    split
    · refine ⟨_, _, rfl, ?_⟩
      intro e he
      rw [List.mem_singleton.mp he]
      exact ⟨rfl, rfl⟩
    · exact ⟨s.nmtStateActual, [], rfl, by simp⟩
  · exact ⟨s.nmtStateActual, [], rfl, by simp⟩

/-- What is left of an update has nothing to do with the state. -/
theorem NmtRelayed.goOn (hs : NmtRelayed id h s) (run : UpdateRun) :
    NmtRelayed id ((s.goOn id run).2 ++ h) (s.goOn id run).1 := by
  cases hnext : run.next with
  | some w =>
      simp only [Topics.goOn, hnext]
      exact ⟨hs.sound, hs.ordered, hs.state, hs.actual, hs.changing, hs.sampled⟩
  | none =>
      simp only [Topics.goOn, hnext]
      refine hs.frame ?_ rfl ?_ rfl
      · intro e he
        obtain ⟨e', -, rfl⟩ := List.mem_map.mp he
        exact ⟨rfl, rfl⟩
      · have hnode := node_modify s id fun n => (n.copyCommand run.env).1
        exact congrArg (·.state) hnode

theorem NmtRelayed.step (hs : NmtRelayed id h s) (hstep : Stepped id s i s' es) :
    NmtRelayed id (es ++ h) s' := by
  cases hstep with
  | beside hes hplaced hhandover hpolling hsetting hactual hupdating hown =>
      exact hs.frame (fun e he => ⟨(hes e he).1, (hes e he).2.1⟩) hhandover hown.1 hactual
  | handover hstep hquiet => exact hs.quiet hstep hquiet
  | calledBack hstep hstate hdata => exact hs.calledBack hstep hstate
  | poll hstep hquiet hown =>
      refine hs.frame ?_ rfl hown.1 rfl
      intro e he
      obtain ⟨e', -, rfl⟩ := List.mem_map.mp he
      exact ⟨rfl, rfl⟩
  | hand hsetting hstep =>
      refine hs.frame ?_ rfl ?_ rfl
      · intro e he
        rw [List.mem_singleton.mp he]
        exact ⟨rfl, rfl⟩
      · rw [node_modify]
  | set raw hsetting =>
      refine hs.frame (by simp) rfl ?_ rfl
      rw [node_modify]
  | update env hupdating =>
      have hpublished := hs.publishNmt env
      exact ⟨hpublished.sound, hpublished.ordered, hpublished.state, hpublished.actual,
        hpublished.changing, hpublished.sampled⟩
  | goOn hupdating => exact hs.goOn _

theorem RpdoRelayed.step (hs : RpdoRelayed id h s) (hstep : Stepped id s i s' es) :
    RpdoRelayed id (es ++ h) s' := by
  cases hstep with
  | beside hes hplaced hhandover hpolling hsetting hactual hupdating hown =>
      refine hs.frame (fun e he => (hes e he).2.2) (hplaced hs.placed) hpolling hsetting ?_ hown.2
      intro w
      rw [hupdating]
  | handover hstep hquiet =>
      refine hs.frame ?_ hs.placed rfl rfl (fun w => rfl) rfl
      intro e he
      obtain ⟨e', -, rfl⟩ := List.mem_map.mp he
      exact ⟨rfl, rfl⟩
  | @calledBack i t st hardware hstep hstate hdata =>
      refine hs.frame ?_ hs.placed rfl rfl (fun w => rfl) hdata
      intro e he
      rw [List.mem_singleton.mp he]
      exact ⟨rfl, rfl⟩
  | poll hstep hquiet hown => exact hs.quiet hstep hquiet hown.2
  | hand hsetting hstep => exact hs.handed hsetting hstep
  | set raw hsetting => exact hs.set hsetting raw
  | update env hupdating =>
      obtain ⟨actual, es, hpart, hquiet⟩ := publishNmt_spec s id env
      rw [Topics.update, hpart]
      refine hs.frame hquiet hs.placed rfl rfl ?_ rfl
      intro w
      rw [hupdating]
      simp only [readOf, if_pos w.isFrom_index]
  | @goOn run hupdating =>
      cases hnext : run.next with
      | some w => exact hs.read hupdating hnext
      | none => exact hs.publish hupdating hnext

/-- **Every step relays what it should.** -/
theorem Relayed.step (hs : Relayed id h s) (hstep : step info id s i = some (s', es)) :
    Relayed id (es ++ h) s' :=
  have hstepped := step_cases hs.2.placed hstep
  ⟨hs.1.step hstepped, hs.2.step hstepped⟩

theorem relayed_of_reach (hr : Reach (system info id) Guard.free h s) : Relayed id h s := by
  refine hr.invariant (I := fun h s => Relayed id h s) ?_ ?_
  · rintro s ⟨isSet, rfl⟩
    constructor
    · refine ⟨?_, .refl _, rfl, rfl, .singleton _, .refl _⟩
      constructor <;> simp [NmtListenerPc.locks]
    · refine ⟨trivial, .refl _, rfl, rfl, ?_⟩
      intro w
      refine ⟨⟨⟨0, 0, 0⟩, rfl, ?_⟩, [], [], .nil_left _, .nil, .nil⟩
      cases w with
      | index => exact rfl
      | subindex => exact rfl
      | data => exact ⟨.nan, rfl⟩
  · intro h s i s' es hs _ hstep
    exact hs.step hstep

/-! ## An update that nothing disturbs -/

/-- What an update publishes of a node that nothing changes under it. -/
def messageOf (n : CanopenNodeData) (env : UpdateEnv) : List COData :=
  if env.readsIndex && env.readsSubindex && env.readsData && env.publishes then
    [n.rpdoMessage env.raw] else []

/-- The interfaces are as they were when the update began: it has read what they hold, or has
published it. -/
structure Undisturbed (id : BitVec 8) (n : CanopenNodeData) (env : UpdateEnv)
    (before : List COData) (h : List TopicsEvent) (s : Topics) : Prop where
  setting : s.setting = none
  data : (s.node id).rpdoData = n.rpdoData
  reading : ∀ run, s.updating = some run → run.env = env ∧ published h = before ∧
    ∀ w, ¬ w.IsFrom run.next → run.seen w = w.interface n.rpdoData
  ended : s.updating = none → published h = messageOf n env ++ before

section Undisturbed
variable {n : CanopenNodeData} {env : UpdateEnv} {before : List COData}

theorem Undisturbed.frame (hs : Undisturbed id n env before h s)
    (hes : ∀ e ∈ es, e.published? = none) (hsetting : s'.setting = s.setting)
    (hdata : (s'.node id).rpdoData = (s.node id).rpdoData)
    (hupdating : s'.updating = s.updating) : Undisturbed id n env before (es ++ h) s' := by
  have hpublished : published (es ++ h) = published h := filterMap_append_none hes
  constructor
  · rw [hsetting]
    exact hs.setting
  · rw [hdata]
    exact hs.data
  · rw [hpublished, hupdating]
    exact hs.reading
  · rw [hpublished, hupdating]
    exact hs.ended

/-- It begins. -/
theorem undisturbed_update (hsetting : s.setting = none) (env : TopicsEnv) :
    Undisturbed id (s.node id).toCanopenNodeData env.proxy (published h)
      ((s.update id env).2 ++ h) (s.update id env).1 := by
  obtain ⟨actual, es, hpart, hquiet⟩ := publishNmt_spec s id env
  rw [Topics.update, hpart]
  refine ⟨hsetting, rfl, ?_, fun hend => by cases hend⟩
  intro run hrun
  obtain rfl := Option.some.inj hrun
  refine ⟨rfl, filterMap_append_none fun e he => (hquiet e he).2, ?_⟩
  intro w hw
  exact absurd w.isFrom_index hw

/-- It reads, and at its end publishes what it has read. -/
theorem Undisturbed.goOn (hs : Undisturbed id n env before h s) {run : UpdateRun}
    (hupdating : s.updating = some run) :
    Undisturbed id n env before ((s.goOn id run).2 ++ h) (s.goOn id run).1 := by
  obtain ⟨henv, hpublished, hread⟩ := hs.reading run hupdating
  cases hnext : run.next with
  | some w =>
      simp only [Topics.goOn, hnext]
      refine ⟨hs.setting, hs.data, ?_, fun hend => by cases hend⟩
      intro run' hrun'
      obtain rfl := Option.some.inj hrun'
      refine ⟨henv, hpublished, ?_⟩
      intro w' hw'
      by_cases hw : w' = w
      · subst hw
        simp only [Function.update_self, hs.data]
      · simp only [Function.update_of_ne hw]
        refine hread w' ?_
        rw [hnext]
        exact fun hfrom => hw' ((RpdoPart.isFrom_next hw).mpr hfrom)
  | none =>
      have hseen : run.seen = fun w => w.interface (s.node id).rpdoData := by
        funext w
        rw [hs.data]
        refine hread w ?_
        rw [hnext]
        exact fun hfrom => hfrom
      have hmessage : published ((s.goOn id run).2 ++ h) = messageOf n env ++ before := by
        rw [published_goOn s id hnext h, hseen, CanopenNodeData.seeing_interface, henv,
          hpublished, messageOf, CanopenNodeData.rpdoMessage, CanopenNodeData.rpdoMessage,
          hs.data]
      have hnode := node_modify s id fun n => (n.copyCommand run.env).1
      simp only [Topics.goOn, hnext] at hmessage ⊢
      refine ⟨hs.setting, ?_, fun run' hrun' => (by cases hrun'), fun _ => hmessage⟩
      rw [← hs.data]
      exact (congrArg (·.rpdoData) hnode).trans (rpdoData_copyCommand _ _)

/-- Nothing disturbs it but `set_rpdo_data`. -/
theorem Undisturbed.step (hs : Undisturbed id n env before h s) (hstep : Stepped id s i s' es)
    (hi : ∀ env, i ≠ .update env) (hquiet : rpdos .handed (es ++ h) = rpdos .handed h) :
    Undisturbed id n env before (es ++ h) s' := by
  cases hstep with
  | beside hes hplaced hhandover hpolling hsetting hactual hupdating hown =>
      exact hs.frame (fun e he => (hes e he).2.2.2) hsetting hown.2 hupdating
  | handover hstep hquiet =>
      refine hs.frame ?_ rfl rfl rfl
      intro e he
      obtain ⟨e', -, rfl⟩ := List.mem_map.mp he
      rfl
  | calledBack hstep hstate hdata =>
      refine hs.frame ?_ rfl hdata rfl
      intro e he
      rw [List.mem_singleton.mp he]
      rfl
  | poll hstep hquiet hown =>
      refine hs.frame ?_ rfl hown.2 rfl
      intro e he
      obtain ⟨e', -, rfl⟩ := List.mem_map.mp he
      rfl
  | @hand i past polling d hsetting hstep =>
      have hrpdos : rpdos .handed (.polled (.message .handed .rpdo d) :: h) =
          d :: rpdos .handed h := Polling.messages_cons_self
      rw [List.singleton_append, hrpdos] at hquiet
      exact absurd hquiet (List.cons_ne_self d _)
  | set raw hsetting =>
      rw [hs.setting] at hsetting
      cases hsetting
  | update env' hupdating => exact absurd rfl (hi env')
  | goOn hupdating => exact hs.goOn hupdating

end Undisturbed

theorem rpdos_append (d : Deed) (es h : List TopicsEvent) :
    rpdos d (es ++ h) = rpdos d es ++ rpdos d h := by
  rw [rpdos, List.filterMap_append, Polling.messages, List.filterMap_append]
  rfl

/-- A run in which one update begins and ends, and no datum is handed over while it lasts. -/
theorem published_of_undisturbed (hs : Relayed id h s) (hsetting : s.setting = none)
    (env : TopicsEnv) {is : List TopicsInput} {h' : List TopicsEvent}
    (his : ∀ i ∈ is, ∀ env, i ≠ .update env)
    (hrun : (system info id).run (.update env :: is) h s = some (h', s'))
    (hend : s'.updating = none) (hquiet : rpdos .handed h' = rpdos .handed h) :
    published h' = messageOf (s.node id).toCanopenNodeData env.proxy ++ published h := by
  cases hstep : step info id s (.update env) with
  | none =>
      have hnone : (system info id).step s (.update env) = none := hstep
      simp [System.runIf, hnone] at hrun
  | some p =>
      obtain ⟨s₁, es⟩ := p
      have hstep' : (system info id).step s (.update env) = some (s₁, es) := hstep
      simp only [System.runIf, hstep', if_true] at hrun
      have hrelayed := hs.step hstep
      have hstart : Undisturbed id (s.node id).toCanopenNodeData env.proxy (published h) (es ++ h)
          s₁ := by
        obtain ⟨hs₁, hes, -⟩ := eq_of_step_update hstep
        rw [hs₁, hes]
        exact undisturbed_update hsetting env
      have hkeep : ∀ new t i t' es', (Relayed id (new ++ h) t ∧
            (rpdos .handed (new ++ h) = rpdos .handed h →
              Undisturbed id (s.node id).toCanopenNodeData env.proxy (published h) (new ++ h) t)) →
          (∀ env, i ≠ .update env) → (system info id).step t i = some (t', es') →
          Relayed id (es' ++ new ++ h) t' ∧
            (rpdos .handed (es' ++ new ++ h) = rpdos .handed h →
              Undisturbed id (s.node id).toCanopenNodeData env.proxy (published h)
                (es' ++ new ++ h) t') := by
        intro new t i t' es' ht hi hstep
        rw [List.append_assoc]
        refine ⟨ht.1.step hstep, ?_⟩
        intro heq
        -- a datum that is handed over stays in the history
        have hboth := heq
        rw [rpdos_append, rpdos_append, ← List.append_assoc, List.append_left_eq_self,
          List.append_eq_nil_iff] at hboth
        have hnew : rpdos .handed (new ++ h) = rpdos .handed h := by
          rw [rpdos_append, hboth.2, List.nil_append]
        exact (ht.2 hnew).step (step_cases ht.1.2.placed hstep) hi (heq.trans hnew.symm)
      obtain ⟨new, rfl, -, hundisturbed⟩ := (system info id).run_events
        (I := fun new t => Relayed id (new ++ h) t ∧
          (rpdos .handed (new ++ h) = rpdos .handed h →
            Undisturbed id (s.node id).toCanopenNodeData env.proxy (published h) (new ++ h) t))
        hkeep is ⟨hrelayed, fun _ => hstart⟩ his hrun
      exact (hundisturbed hquiet).ended hend

end Steps

/-! ## The topics -/

section Results
variable {h : List TopicsEvent} {s : Topics}

/-- The texts of states on `~/nmt_state`, without the empty ones of `on_configure`. -/
def stateTexts (h : List TopicsEvent) : List String := (texts h).filter (· ≠ "")

theorem stateTexts_eq (h : List TopicsEvent) : stateTexts h =
    h.filterMap fun e => e.text?.filter (· ≠ "") := by
  rw [stateTexts, texts, List.filter_filterMap]

/-- They are some of those that updates have tried to publish. -/
theorem stateTexts_sublist (h : List TopicsEvent) : (stateTexts h).Sublist (offered h) := by
  rw [stateTexts_eq, offered]
  induction h with
  | nil => exact .slnil
  | cons e h ih =>
      have hcase : e.text?.filter (· ≠ "") = none ∨ e.text?.filter (· ≠ "") = e.offered? := by
        cases e with
        | configured publishedState publishedRpdo => cases publishedState <;> exact .inl rfl
        | nmtState text published =>
            cases published with
            | false => exact .inl rfl
            | true =>
                by_cases htext : text = ""
                · subst htext
                  exact .inl rfl
                · refine .inr ?_
                  simp [TopicsEvent.text?, TopicsEvent.offered?, htext]
        | nmt e => exact .inl rfl
        | polled e => exact .inl rfl
        | proxy e => exact .inl rfl
      rw [List.filterMap_cons, List.filterMap_cons]
      rcases hcase with hnone | hsame
      · rw [hnone]
        cases e.offered? with
        | none => exact ih
        | some text => exact ih.cons text
      · rw [hsame]
        cases e.offered? with
        | none => exact ih
        | some text => exact ih.cons_cons text

/-- They are all of them, if no publication has failed. -/
theorem stateTexts_eq_offered (hfailed : ∀ text, .nmtState text false ∉ h)
    (hempty : "" ∉ offered h) : stateTexts h = offered h := by
  rw [stateTexts_eq, offered]
  refine List.filterMap_congr ?_
  intro e he
  cases e with
  | configured publishedState publishedRpdo => cases publishedState <;> rfl
  | nmtState text published =>
      cases published with
      | false => exact absurd he (hfailed text)
      | true =>
          have htext : text ≠ "" := by
            rintro rfl
            exact hempty (List.mem_filterMap.mpr ⟨_, he, rfl⟩)
          simp [TopicsEvent.text?, TopicsEvent.offered?, htext]
  | nmt e => rfl
  | polled e => rfl
  | proxy e => rfl

/-- No state is reported that is tracked as the boot-up. -/
theorem bootup_not_mem_reported (h : List TopicsEvent) :
    "BOOTUP" ∉ (reported h).map nmtStateName := by
  have hname : ∀ st : NmtState, nmtStateName st.tracked ≠ "BOOTUP" := by decide
  intro hmem
  obtain ⟨st, hst, hbootup⟩ := List.mem_map.mp hmem
  obtain ⟨e, -, he⟩ := List.mem_filterMap.mp hst
  cases e with
  | reported st' =>
      obtain rfl := Option.some.inj he
      exact hname st' hbootup
  | _ => cases he

/-- An update that can read the state compares with its text from then on. -/
theorem nmtStateActual_update (s : Topics) (id : BitVec 8) {env : TopicsEnv}
    (hreads : env.readsState = true) : (s.update id env).1.nmtStateActual =
      nmtStateName (((staticCast ⟨true, 32⟩ (s.node id).state).getD env.rawState).setWidth 8) := by
  have hpart : (s.update id env).1.nmtStateActual = (s.publishNmt id env).1.nmtStateActual := rfl
  rw [hpart, publishNmt, if_pos hreads]
  simp only
  split
  · rfl
  · next hsame => exact not_not.mp hsame

/-- **The topic of the NMT states.**  Beside the empty text of each `on_configure`, its messages
are some of the texts that updates have tried to publish, and all of them if no publication
has failed.  Whatever is lost on the way, these are the texts of reported states, in their
order, none for a state that was reported once twice and none like the one before; none is the
boot-up, which is tracked as a start.  After an update that could read the interface the last
of them is that of the state the callback was called with last. -/
theorem nmt_state_topic (info : HardwareInfo) (id : BitVec 8)
    (hr : Reach (system info id) Guard.free h s) :
    (stateTexts h).Sublist (offered h) ∧
      ((∀ text, .nmtState text false ∉ h) → stateTexts h = offered h) ∧
      (offered h).Sublist ((reported h).map nmtStateName) ∧ (offered h).IsChain (· ≠ ·) ∧
      "BOOTUP" ∉ offered h ∧
      ∀ env s' es, step info id s (.update env) = some (s', es) → env.readsState = true →
        (offered (es ++ h) ++ ["BOOTUP"]).head? =
          ((calledBack h).map nmtStateName ++ ["BOOTUP"]).head? := by
  have hs := relayed_of_reach hr
  have hheld : (heldStates h).map nmtStateName = (calledBack h).map nmtStateName ++ ["BOOTUP"] := by
    rw [heldStates, List.map_append]
    rfl
  have hcalled : (calledBack h).Sublist (reported h) :=
    (List.sublist_append_right _ _).trans hs.1.ordered
  have hsublist : (offered h).Sublist ((reported h).map nmtStateName) := by
    have hread := hs.1.sampled.sublist hs.1.changing
    rw [hheld, List.append_sublist_append_right] at hread
    exact hread.trans (hcalled.map nmtStateName)
  have hempty : "" ∉ offered h := by
    intro hmem
    obtain ⟨st, -, hst⟩ := List.mem_map.mp (hsublist.subset hmem)
    have hname : ∀ st : NmtState, nmtStateName st ≠ "" := by decide
    exact hname st hst
  refine ⟨stateTexts_sublist h, fun hfailed => stateTexts_eq_offered hfailed hempty, hsublist,
    hs.1.changing.left_of_append, ?_, ?_⟩
  · exact fun hmem => bootup_not_mem_reported h (hsublist.subset hmem)
  · intro env s' es hstep hreads
    obtain ⟨hs', -, -⟩ := eq_of_step_update hstep
    rw [(hs.step hstep).1.actual, hs', nmtStateActual_update s id hreads, ← hheld, hs.1.text]

/-- **The topic of the RPDOs.**  Each part of the messages of updates, index, subindex and data, is
that of data that were queued, before them zeros, as often as updates found it and in their
order, the data unchanged below `2 ^ 31`; but the parts of one message may be of different
data.  They are of one, the datum that `set_rpdo_data` was called with last, if the update
runs while `set_rpdo_data` does not. -/
theorem rpdo_topic (info : HardwareInfo) (id : BitVec 8)
    (hr : Reach (system info id) Guard.free h s) :
    (∀ w : RpdoPart, ∃ seen, Sampled seen (rpdos .pushed h ++ [⟨0, 0, 0⟩]) ∧
      List.Forall₂ (fun p d => w.Comes p d) (published h) seen) ∧
      ∀ (env : TopicsEnv) is h' s', s.setting = none → (∀ i ∈ is, ∀ env, i ≠ .update env) →
        (system info id).run (.update env :: is) h s = some (h', s') → s'.updating = none →
        rpdos .handed h' = rpdos .handed h →
        env.proxy.readsIndex = true → env.proxy.readsSubindex = true →
        env.proxy.readsData = true → env.proxy.publishes = true →
        ∃ p d, published h' = p :: published h ∧ (heldData h).head? = some d ∧
          ∀ w : RpdoPart, w.Comes p d := by
  have hs := relayed_of_reach hr
  constructor
  · intro w
    have hhanded : (rpdos .handed h).Sublist (rpdos .pushed h) :=
      ((List.sublist_append_right _ _).trans (List.sublist_append_right _ _)).trans hs.2.ordered
    have hassigned : (assigned w s.setting h).Sublist (rpdos .pushed h ++ [⟨0, 0, 0⟩]) := by
      rw [assigned]
      split
      · exact (List.tail_sublist _).trans (hhanded.append_right _)
      · exact hhanded.append_right _
    obtain ⟨read, seen, hsampled, -, hcomes⟩ := (hs.2.parts w).sampled
    exact ⟨seen, (hsampled.of_sublist_left (List.sublist_append_right read seen)).trans
      (.of_sublist hassigned), hcomes⟩
  · intro env is h' s' hsetting his hrun hend hquiet hindex hsubindex hdata hpublishes
    have hpublished := published_of_undisturbed hs hsetting env his hrun hend hquiet
    refine ⟨(s.node id).toCanopenNodeData.rpdoMessage env.proxy.raw, _, ?_, hs.2.latest, ?_⟩
    · rw [hpublished, messageOf, hindex, hsubindex, hdata, hpublishes]
      rfl
    · intro w
      obtain ⟨d, hhead, hholds⟩ := (hs.2.parts w).shows
      have hnone : ¬ w.IsFrom none := fun hfrom => hfrom
      rw [assigned, hsetting, if_neg hnone, hs.2.latest] at hhead
      obtain rfl := Option.some.inj hhead
      exact CanopenNodeData.comes_rpdoMessage hholds env.proxy.raw

/-- The node 5 when its hardware is initialised. -/
def initialised : Topics where
  nmtCallback := false
  callback _ := false
  handover := ⟨true, none, none, 0, none, .ended⟩
  polling := ⟨fun _ => [], none⟩
  setting := none
  hardware := CanopenSystem.initDeviceContainer ⟨[5], []⟩ (Hardware.exported ⟨[5], []⟩)
  configured := false
  nmtStateActual := "BOOTUP"
  updating := none

/-- Everything can be read, and the text published or not. -/
def everything (publishesState : Bool) : TopicsEnv :=
  ⟨true, publishesState, 0, Proxy.updating none⟩

/-- An update from its beginning to its end. -/
def wholeUpdate (publishesState : Bool) : List TopicsInput :=
  [.update (everything publishesState), .goOn, .goOn, .goOn, .goOn]

/-- The listener waits. -/
def listening : List TopicsInput :=
  .registerNmt :: .nmt .start :: List.replicate 4 (.nmt (.listener true))

/-- A state is reported and handed over, and the listener waits again. -/
def handsOver (st : NmtState) : List TopicsInput :=
  .nmt (.report st) :: List.replicate 5 (.nmt .onState) ++
    List.replicate 7 (.nmt (.listener true))

/-- A device boots up, stops and starts, and the text of the stop is not published. -/
theorem nmt_state_topic_failed : ∃ h s, Reach (system ⟨[5], []⟩ 5) Guard.free h s ∧
    texts h = ["START", "START", ""] ∧ offered h = ["START", "STOP", "START"] ∧
    (stateTexts h).Sublist (offered h) ∧
      ((∀ text, .nmtState text false ∉ h) → stateTexts h = offered h) ∧
      (offered h).Sublist ((reported h).map nmtStateName) ∧ (offered h).IsChain (· ≠ ·) ∧
      "BOOTUP" ∉ offered h ∧
      ∀ env s' es, step ⟨[5], []⟩ 5 s (.update env) = some (s', es) → env.readsState = true →
        (offered (es ++ h) ++ ["BOOTUP"]).head? =
          ((calledBack h).map nmtStateName ++ ["BOOTUP"]).head? := by
  have hrun : ((system ⟨[5], []⟩ 5).run
      (listening ++ .configure true true :: handsOver .bootup ++ wholeUpdate true ++
        handsOver 0x04 ++ wholeUpdate false ++ handsOver .start ++ wholeUpdate true) []
      initialised).any (fun r => texts r.1 = ["START", "START", ""] ∧
        offered r.1 = ["START", "STOP", "START"]) = true := by decide +kernel
  obtain ⟨h, s, hr, hs⟩ := (system ⟨[5], []⟩ 5).exists_reach_run (.init ⟨true, rfl⟩) hrun
  obtain ⟨htexts, hoffered⟩ := of_decide_eq_true hs
  exact ⟨h, s, hr, htexts, hoffered, nmt_state_topic ⟨[5], []⟩ 5 hr⟩

/-- One update runs while the datum is set, and publishes its index with the data from before;
the next one publishes the datum. -/
theorem rpdo_topic_torn : ∃ h s h' s', Reach (system ⟨[5], []⟩ 5) Guard.free h s ∧
    published h = [⟨0x6064, 0, 0⟩] ∧
    (system ⟨[5], []⟩ 5).run (wholeUpdate true) h s = some (h', s') ∧
    (∀ w : RpdoPart, ∃ seen, Sampled seen (rpdos .pushed h ++ [⟨0, 0, 0⟩]) ∧
      List.Forall₂ (fun p d => w.Comes p d) (published h) seen) ∧
    ∃ p d, published h' = p :: published h ∧ (heldData h).head? = some d ∧ d = ⟨0x6064, 0, 7⟩ ∧
      ∀ w : RpdoPart, w.Comes p d := by
  have hrun : ((system ⟨[5], []⟩ 5).run
      ([.register .rpdo, .configure true true, .poll (.push .rpdo ⟨0x6064, 0, 7⟩) 0, .poll .begin 0,
        .poll (.go false) 0, .poll (.go false) 0, .poll (.go false) 0, .set .nan] ++
          wholeUpdate true ++ [.set .nan, .set .nan]) [] initialised).any (fun r =>
        (decide (published r.1 = [⟨0x6064, 0, 0⟩] ∧ (heldData r.1).head? = some ⟨0x6064, 0, 7⟩ ∧
          r.2.setting = none)) &&
        ((system ⟨[5], []⟩ 5).run (wholeUpdate true) r.1 r.2).any fun r' =>
          r'.2.updating.isNone && decide (rpdos .handed r'.1 = rpdos .handed r.1)) = true := by
    decide +kernel
  obtain ⟨h, s, hr, hs⟩ := (system ⟨[5], []⟩ 5).exists_reach_run (.init ⟨true, rfl⟩) hrun
  obtain ⟨hbefore, hafter⟩ := Bool.and_eq_true_iff.mp hs
  obtain ⟨hpublished, hheld, hsetting⟩ := of_decide_eq_true hbefore
  obtain ⟨⟨h', s'⟩, hrun', hends⟩ := (Option.any_eq_true _ _).mp hafter
  obtain ⟨hend, hquiet⟩ := Bool.and_eq_true_iff.mp hends
  obtain ⟨hparts, hwhole⟩ := rpdo_topic ⟨[5], []⟩ 5 hr
  have honce : ∀ i ∈ [TopicsInput.goOn, .goOn, .goOn, .goOn], ∀ env, i ≠ .update env := by
    intro i hi env
    simp only [List.mem_cons, List.not_mem_nil, or_false, or_self] at hi
    rw [hi]
    exact TopicsInput.noConfusion
  obtain ⟨p, d, hp, hd, hcomes⟩ := hwhole (everything true) _ h' s' hsetting honce hrun'
    (Option.isNone_iff_eq_none.mp hend) (of_decide_eq_true hquiet) rfl rfl rfl rfl
  exact ⟨h, s, h', s', hr, hpublished, hrun', hparts, p, d, hp, hd,
    Option.some.inj (hd.symm.trans hheld), hcomes⟩

end Results

end Topics
end RosCanopen.Ros2Control
