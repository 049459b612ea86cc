import RosCanopen.Bridge.Dictionary
import RosCanopen.Lib.LastWrite

/-!
# The dictionary as a mirror of the bus

Every entry of the local dictionary should be the value of the last transfer of its object that
has succeeded.  `tpdo_transmit`, the reception of an RPDO and the completions store a value that
has been transferred; `universal_set_value` stores it first, and the transfer may fail.

## Main definitions

* `TransferEvent.stores` — the transfers that succeed.
* `Effect` — what a step does to the dictionary, and what it has transferred.
* `DictionaryState.heeds` — the steps that store what they transfer.
-/

namespace RosCanopen.Bridge

open Lib

/-- A transfer that has succeeded of an object that the dictionary has. -/
def TransferEvent.stores (b : DriverNode) : TransferEvent → Option (ObjectId × Value)
  | accepted object value | acknowledged object value | answered object value
  | received object value => if (b.typeOf object).isSome then some (object, value) else none
  | _ => none

/-- An untyped request has the type of its object. -/
def SdoJob.Fits (b : DriverNode) (job : SdoJob) : Prop :=
  job.typed = false → b.typeOf job.object = some job.type ∧ job.type ≠ .other

/-- The requests that a step leaves in flight were there, or fit. -/
def JobsFrom (b : DriverNode) (s s' : DictionaryState) : Prop :=
  ∀ job ∈ s'.jobs, job ∈ s.jobs ∨ job.Fits b

/-- What a step does: nothing is transferred and no entry changes, or one value is transferred,
and stored. -/
inductive Effect (b : DriverNode) (s : DictionaryState)
    (p : DictionaryState × List TransferEvent) : Prop
  | nothing (hjobs : JobsFrom b s p.1) (hvalues : p.1.values = s.values)
      (hes : ∀ e ∈ p.2, e.stores b = none)
  | transfer (hjobs : JobsFrom b s p.1) (later earlier : List TransferEvent) (e : TransferEvent)
      (object : ObjectId) (value : Value) (hes : p.2 = later ++ e :: earlier)
      (hlater : ∀ e ∈ later, e.stores b = none) (hearlier : ∀ e ∈ earlier, e.stores b = none)
      (he : e.stores b = some (object, value))
      (hvalues : p.1.values = Function.update s.values object value)

namespace DictionaryState

/-- A value goes to a PDO of the master's only if the master has mapped its object, and every
value of a typed call is of the type of the object. -/
def heeds (b : DriverNode) (s : DictionaryState) : DictionaryInput → Bool
  | .universalSetValue object type _ _ =>
      !b.pdoMap.isRpdo object.1 object.2 || (b.typeOf object).isNone ||
        (b.tpdoMapped object && b.typeOf object = some type && type ≠ .other)
  | .complete k (.ok _) => (s.jobs[k]?).all fun job => !job.typed ||
      (b.typeOf job.object).isNone || (b.typeOf job.object = some job.type && job.type ≠ .other)
  | _ => true

/-- Every step is such a one. -/
def heeded (b : DriverNode) : Guard DictionaryState DictionaryInput TransferEvent :=
  fun _ s i => heeds b s i = true

end DictionaryState

section Effects
variable {b : DriverNode} {s s' : DictionaryState} {es h : List TransferEvent} {object : ObjectId}
  {type : DefType} {value : Value}

theorem setVal_of_none (s : DictionaryState) (value : Value) (htype : b.typeOf object = none) :
    b.setVal object type value s = s := by
  rw [DriverNode.setVal, htype]

theorem ne_other_of_loadValue {raw : Bool} {data : BitVec 32}
    (hvalue : loadValue raw type data = some value) : type ≠ .other := by
  rintro rfl
  simp [loadValue, DefType.width] at hvalue

theorem jobs_setVal (s : DictionaryState) (object : ObjectId) (type : DefType) (value : Value) :
    (b.setVal object type value s).jobs = s.jobs := by
  unfold DriverNode.setVal
  cases b.typeOf object <;> rfl

theorem JobsFrom.refl (s : DictionaryState) : JobsFrom b s s := fun _ hmem => .inl hmem

theorem JobsFrom.setVal (hjobs : JobsFrom b s s') (object : ObjectId) (type : DefType)
    (value : Value) : JobsFrom b s (b.setVal object type value s') := by
  intro job hmem
  rw [jobs_setVal] at hmem
  exact hjobs job hmem

/-- A step without a transfer leaves the values alone. -/
theorem Effect.quiet {e : TransferEvent} (hjobs : JobsFrom b s s') (hvalues : s'.values = s.values)
    (he : e.stores b = none) : Effect b s (s', [e]) := by
  refine .nothing hjobs hvalues fun e' he' => ?_
  rw [List.mem_singleton.mp he', he]

theorem Effect.failed (s : DictionaryState) : Effect b s (s, [.failed]) :=
  .quiet (.refl s) rfl rfl

/-- A value of the object's type is stored with its transfer. -/
theorem Effect.store (later earlier : List TransferEvent) {e : TransferEvent}
    (htype : b.typeOf object = some type) (hknown : type ≠ .other)
    (he : e.stores b = if (b.typeOf object).isSome then some (object, value) else none)
    (hlater : ∀ e ∈ later, e.stores b = none) (hearlier : ∀ e ∈ earlier, e.stores b = none)
    (hjobs : JobsFrom b s s') (hs' : s'.values = s.values) :
    Effect b s (b.setVal object type value s', later ++ e :: earlier) := by
  refine .transfer (hjobs.setVal _ _ _) later earlier e object value rfl hlater hearlier ?_ ?_
  · rw [he, htype]
    rfl
  · rw [DriverNode.values_setVal s' value htype hknown, hs']

/-- Of an object that the dictionary does not have, nothing is stored. -/
theorem Effect.absent (later earlier : List TransferEvent) {e : TransferEvent}
    (htype : b.typeOf object = none)
    (he : e.stores b = if (b.typeOf object).isSome then some (object, value) else none)
    (hlater : ∀ e ∈ later, e.stores b = none) (hearlier : ∀ e ∈ earlier, e.stores b = none)
    (hjobs : JobsFrom b s s') (hs' : s'.values = s.values) :
    Effect b s (b.setVal object type value s', later ++ e :: earlier) := by
  rw [setVal_of_none s' value htype]
  refine .nothing hjobs hs' fun e' he' => ?_
  rcases List.mem_append.mp he' with he' | he'
  · exact hlater e' he'
  · rcases List.mem_cons.mp he' with rfl | he'
    · rw [he, htype]
      rfl
    · exact hearlier e' he'

theorem Effect.submit {job : SdoJob} (hjob : job.Fits b) (submits : Bool) (s : DictionaryState) :
    Effect b s (DriverNode.submit job submits s) := by
  cases submits with
  | false => exact .failed s
  | true =>
      refine .quiet (fun job' hmem => ?_) rfl rfl
      rcases List.mem_append.mp hmem with hmem | hmem
      · exact .inl hmem
      · rw [List.mem_singleton.mp hmem]
        exact .inr hjob

theorem Effect.asyncSdoWriteTyped (submits : Bool) (s : DictionaryState) :
    Effect b s (b.asyncSdoWriteTyped object type value submits s) := by
  unfold DriverNode.asyncSdoWriteTyped
  cases b.typeOf object with
  | none => exact .failed s
  | some own => exact .submit (fun htyped => by cases htyped) _ _

theorem Effect.asyncSdoReadTyped (submits : Bool) (s : DictionaryState) :
    Effect b s (b.asyncSdoReadTyped object type submits s) := by
  unfold DriverNode.asyncSdoReadTyped
  cases b.typeOf object with
  | none => exact .failed s
  | some own => exact .submit (fun htyped => by cases htyped) _ _

theorem Effect.asyncSdoWrite (data : COData) (raw submits : Bool) (s : DictionaryState) :
    Effect b s (b.asyncSdoWrite data raw submits s) := by
  simp only [DriverNode.asyncSdoWrite]
  cases htype : b.typeOf (data.index, data.subindex) with
  | none => exact .failed s
  | some type =>
      cases hvalue : loadValue raw type data.data with
      | none =>
          simp only [hvalue]
          exact .nothing (.refl s) rfl (by simp)
      | some value =>
          simp only [hvalue]
          exact .submit (fun _ => ⟨htype, ne_other_of_loadValue hvalue⟩) _ _

theorem Effect.asyncSdoRead (data : COData) (submits : Bool) (s : DictionaryState) :
    Effect b s (b.asyncSdoRead data submits s) := by
  simp only [DriverNode.asyncSdoRead]
  cases htype : b.typeOf (data.index, data.subindex) with
  | none => exact .failed s
  | some type =>
      cases hwidth : type.width with
      | none =>
          simp only [hwidth]
          exact .nothing (.refl s) rfl (by simp)
      | some width =>
          simp only [hwidth]
          exact .submit (fun _ => ⟨htype, DriverNode.ne_other_of_width hwidth⟩) _ _

theorem Effect.tpdoTransmit (data : COData) (raw : Bool) (s : DictionaryState) :
    Effect b s (b.tpdoTransmit data raw s) := by
  simp only [DriverNode.tpdoTransmit]
  cases htype : b.typeOf (data.index, data.subindex) with
  | none => exact .failed s
  | some type =>
      cases hvalue : DriverNode.tpdoValue raw type data.data with
      | none =>
          simp only [hvalue]
          cases b.tpdoMapped (data.index, data.subindex) with
          | true => exact .quiet (.refl s) rfl rfl
          | false => exact .failed s
      | some value =>
          simp only [hvalue]
          have hknown : type ≠ .other := by
            unfold DriverNode.tpdoValue at hvalue
            split at hvalue
            · cases hvalue
            · exact ne_other_of_loadValue hvalue
          cases b.tpdoMapped (data.index, data.subindex) with
          | true =>
              exact Effect.store [.transmitted _] [] htype hknown rfl
                (by simp [TransferEvent.stores]) (by simp) (.refl s) rfl
          | false => exact .failed s

theorem Effect.onRpdoWrite (object : ObjectId) (value : Value) (s : DictionaryState) :
    Effect b s (b.onRpdoWrite object value s) := by
  simp only [DriverNode.onRpdoWrite]
  cases htype : b.typeOf object with
  | none => exact .nothing (.refl s) rfl (by simp)
  | some type =>
      cases hwidth : type.width with
      | none =>
          simp only [hwidth]
          exact .quiet (.refl s) rfl rfl
      | some width =>
          simp only [hwidth]
          cases b.rpdoMapped object with
          | true =>
              exact Effect.store [.pushed _] [] htype
                (DriverNode.ne_other_of_width hwidth) rfl (by simp [TransferEvent.stores]) (by simp)
                (.refl s) rfl
          | false => exact .quiet (.refl s) rfl rfl

/-- `universal_set_value` stores what it transfers if the master has mapped the object. -/
theorem Effect.universalSetValue (submits : Bool) (s : DictionaryState)
    (hok : DictionaryState.heeds b s (.universalSetValue object type value submits) = true) :
    Effect b s (b.universalSetValue object type value submits s) := by
  unfold DriverNode.universalSetValue
  by_cases hrpdo : b.pdoMap.isRpdo object.1 object.2 = true
  · rw [if_pos hrpdo]
    cases htype : b.typeOf object with
    | none =>
        cases b.tpdoMapped object with
        | true =>
            exact Effect.absent [.transmitted _] [] htype rfl
              (by simp [TransferEvent.stores]) (by simp) (.refl s) rfl
        | false =>
            rw [setVal_of_none s value htype]
            exact .failed s
    | some own =>
        simp only [DictionaryState.heeds, hrpdo, htype, Bool.not_true, Option.isNone_some,
          Bool.false_or, Bool.and_eq_true, decide_eq_true_eq, Option.some.injEq] at hok
        obtain ⟨⟨hmapped, rfl⟩, hknown⟩ := hok
        simp only [hmapped, if_true]
        exact Effect.store [.transmitted _] [] htype hknown rfl
          (by simp [TransferEvent.stores]) (by simp) (.refl s) rfl
  · rw [if_neg hrpdo]
    exact .asyncSdoWriteTyped submits s

/-- A completion stores what the device has acknowledged or answered. -/
theorem Effect.finish {job : SdoJob} {answer : Except ErrorCode Value} (hjobs : JobsFrom b s s')
    (hs' : s'.values = s.values)
    (hok : ∀ answered, answer = .ok answered → b.typeOf job.object = none ∨
      b.typeOf job.object = some job.type ∧ job.type ≠ .other) :
    Effect b s (b.finish job answer s') := by
  cases answer with
  | error code => exact .quiet hjobs hs' rfl
  | ok answered =>
      have hlater : ∀ e ∈ (if job.typed then ([] : List TransferEvent)
          else [.delivered ⟨job.object.1, job.object.2, packValue job.type answered⟩]),
          e.stores b = none := by
        intro e he
        cases htyped : job.typed with
        | true => simp [htyped] at he
        | false =>
            simp only [htyped, Bool.false_eq_true, if_false, List.mem_singleton] at he
            rw [he]
            rfl
      rcases hok answered rfl with htype | ⟨htype, hknown⟩
      · cases hwrite : job.write with
        | none =>
            simp only [DriverNode.finish, hwrite]
            exact Effect.absent _ [] htype rfl hlater (by simp) hjobs hs'
        | some written =>
            simp only [DriverNode.finish, hwrite]
            exact Effect.absent [] [] htype rfl (by simp) (by simp) hjobs hs'
      · cases hwrite : job.write with
        | none =>
            simp only [DriverNode.finish, hwrite]
            exact Effect.store _ [] htype hknown rfl hlater (by simp) hjobs hs'
        | some written =>
            simp only [DriverNode.finish, hwrite]
            exact Effect.store [] [] htype hknown rfl (by simp) (by simp) hjobs hs'

/-! ## Steps and runs -/

namespace DictionaryState
variable {first : ObjectId → Value}

/-- **A step** stores what it transfers. -/
theorem effect_step (hs : ∀ job ∈ s.jobs, job.Fits b) {i : DictionaryInput}
    (hok : heeds b s i = true) (hstep : step b s i = some (s', es)) : Effect b s (s', es) := by
  unfold DictionaryState.step at hstep
  cases hdead : s.terminated with
  | true => simp [hdead] at hstep
  | false =>
      simp only [hdead, Bool.false_eq_true, if_false] at hstep
      cases i with
      | universalSetValue object type value submits =>
          rw [← Option.some.inj hstep]
          exact .universalSetValue submits s hok
      | tpdoTransmit data raw =>
          rw [← Option.some.inj hstep]
          exact .tpdoTransmit data raw s
      | asyncSdoWrite data raw submits =>
          rw [← Option.some.inj hstep]
          exact .asyncSdoWrite data raw submits s
      | asyncSdoRead data submits =>
          rw [← Option.some.inj hstep]
          exact .asyncSdoRead data submits s
      | asyncSdoWriteTyped object type value submits =>
          rw [← Option.some.inj hstep]
          exact .asyncSdoWriteTyped submits s
      | asyncSdoReadTyped object type submits =>
          rw [← Option.some.inj hstep]
          exact .asyncSdoReadTyped submits s
      | onRpdoWrite object value =>
          rw [← Option.some.inj hstep]
          exact .onRpdoWrite object value s
      | complete k answer =>
          obtain ⟨job, hjob, heq⟩ := Option.map_eq_some_iff.mp hstep
          rw [← heq]
          refine .finish (fun job hmem => .inl (List.mem_of_mem_eraseIdx hmem)) rfl ?_
          rintro answered rfl
          cases htyped : job.typed with
          | false => exact .inr (hs job (List.mem_of_getElem? hjob) htyped)
          | true =>
              simp only [heeds, hjob, Option.all_some, htyped, Bool.not_true, Bool.false_or,
                Bool.or_eq_true, Option.isNone_iff_eq_none, Bool.and_eq_true,
                decide_eq_true_eq] at hok
              exact hok

/-- What a step keeps of a dictionary that mirrors the bus. -/
theorem mirrors_of_effect (heffect : Effect b s (s', es))
    (hs : Mirrors (TransferEvent.stores b) first h s.values) :
    Mirrors (TransferEvent.stores b) first (es ++ h) s'.values := by
  cases heffect with
  | nothing _ hvalues hes =>
      have hsame : s'.values = s.values := hvalues
      rw [hsame]
      exact hs.silent hes
  | transfer _ later earlier e object value hes hlater hearlier he hvalues =>
      have hes' : es = later ++ e :: earlier := hes
      have hnew : s'.values = Function.update s.values object value := hvalues
      rw [hes', hnew, List.append_assoc, List.cons_append]
      exact ((hs.silent hearlier).write he).silent hlater

theorem fits_of_effect (heffect : Effect b s (s', es)) (hs : ∀ job ∈ s.jobs, job.Fits b) :
    ∀ job ∈ s'.jobs, job.Fits b := by
  have hjobs : JobsFrom b s s' := by
    cases heffect with
    | nothing hjobs _ _ => exact hjobs
    | transfer hjobs => exact hjobs
  intro job hmem
  rcases hjobs job hmem with hold | hfits
  · exact hs job hold
  · exact hfits

theorem mirrors_of_reach (hr : Reach (system b first) (heeded b) h s) :
    Mirrors (TransferEvent.stores b) first h s.values ∧ ∀ job ∈ s.jobs, job.Fits b := by
  refine hr.invariant (I := fun h s => Mirrors (TransferEvent.stores b) first h s.values ∧
    ∀ job ∈ s.jobs, job.Fits b) ?_ ?_
  · rintro _ rfl
    exact ⟨Mirrors.nil, by simp⟩
  · rintro h s i s' es ⟨hmirrors, hfits⟩ hok hstep
    have heffect := effect_step hfits hok hstep
    exact ⟨mirrors_of_effect heffect hmirrors, fits_of_effect heffect hfits⟩

end DictionaryState
end Effects

/-- **The dictionary mirrors the bus.**  Along every run in which a value goes to a PDO only if
the master has mapped its object, and typed calls have the types of their objects, every entry is
the value of its last transfer, or its first value; and a step that transfers nothing changes no
entry. -/
theorem dictionary_mirrors {b : DriverNode} {first : ObjectId → Value} {h : List TransferEvent}
    {s : DictionaryState}
    (hr : Reach (DictionaryState.system b first) (DictionaryState.heeded b) h s) :
    Mirrors (TransferEvent.stores b) first h s.values ∧
      ∀ i s' es, DictionaryState.heeded b h s i →
        (DictionaryState.system b first).step s i = some (s', es) →
          (∀ e ∈ es, e.stores b = none) → s'.values = s.values := by
  obtain ⟨hmirrors, hfits⟩ := DictionaryState.mirrors_of_reach hr
  refine ⟨hmirrors, fun i s' es hok hstep hes => ?_⟩
  cases DictionaryState.effect_step hfits hok hstep with
  | nothing _ hvalues _ => exact hvalues
  | transfer _ later earlier e object value heq _ _ he _ =>
      have heq' : es = later ++ e :: earlier := heq
      have hsilent := hes e (heq' ▸ List.mem_append_right _ List.mem_cons_self)
      rw [he] at hsilent
      cases hsilent

/-- A bridge whose dictionary has 16-bit objects, with the control word in an RPDO. -/
def controlled (mapped : Bool) : DriverNode where
  id := 2
  find := fun _ _ => some .unsigned16
  lely := .plain
  pdoMap := PDOMap.empty.set 0x6040 0 { isTpdo := false, isRpdo := true }
  tpdoMapped := fun _ => mapped
  rpdoMapped := fun _ => true

/-- The control word goes by PDO, the operation mode by SDO, and the status word comes by RPDO. -/
theorem dictionary_mirrors_controlled : ∃ h s,
    Reach (DictionaryState.system (controlled true) fun _ => 0)
        (DictionaryState.heeded (controlled true)) h s ∧
      s.values (0x6040, 0) = 0xF ∧ s.values (0x6060, 0) = 3 ∧ s.values (0x6041, 0) = 0x27 ∧
      Mirrors (TransferEvent.stores (controlled true)) (fun _ => 0) h s.values := by
  have hrun : ((DictionaryState.system (controlled true) fun _ => 0).runIf
      (fun _ => DictionaryState.heeds (controlled true))
      [.asyncSdoWrite ⟨0x6060, 0, 3⟩ false true,
        .universalSetValue (0x6040, 0) .unsigned16 0xF true,
        .onRpdoWrite (0x6041, 0) 0x27, .complete 0 (.ok 0)] [] ⟨fun _ => 0, [], false⟩).any
        (fun p => decide (p.2.values (0x6040, 0) = 0xF ∧ p.2.values (0x6060, 0) = 3 ∧
          p.2.values (0x6041, 0) = 0x27)) = true := by
    decide +kernel
  obtain ⟨h, s, hr, hs⟩ := System.exists_reach_runIf _ (.init rfl) (fun _ _ _ hok => hok) hrun
  obtain ⟨hcontrol, hmode, hstatus⟩ := of_decide_eq_true hs
  exact ⟨h, s, hr, hcontrol, hmode, hstatus, (dictionary_mirrors hr).1⟩

/-- The master has not mapped the control word: `universal_set_value` throws, and its value stays
in the dictionary. -/
theorem dictionary_unsent : ∃ h s,
    Reach (DictionaryState.system (controlled false) fun _ => 0) Guard.free h s ∧
      h = [.failed] ∧ s.values (0x6040, 0) = 0xF ∧
      ¬ Mirrors (TransferEvent.stores (controlled false)) (fun _ => 0) h s.values := by
  have hrun : ((DictionaryState.system (controlled false) fun _ => 0).run
      [.universalSetValue (0x6040, 0) .unsigned16 0xF true] [] ⟨fun _ => 0, [], false⟩).any
        (fun p => decide (p.1 = [.failed] ∧ p.2.values (0x6040, 0) = 0xF)) = true := by
    decide +kernel
  obtain ⟨h, s, hr, hs⟩ := System.exists_reach_run _ (.init rfl) hrun
  obtain ⟨hfailed, hstored⟩ : h = [.failed] ∧ s.values (0x6040, 0) = 0xF := of_decide_eq_true hs
  refine ⟨h, s, hr, hfailed, hstored, fun hmirrors => ?_⟩
  have hfirst := hmirrors (0x6040, 0)
  have hnone : lastWrite (TransferEvent.stores (controlled false)) h (0x6040, 0) = none := by
    rw [hfailed]
    rfl
  rw [hstored, hnone] at hfirst
  exact absurd hfirst (by decide)

end RosCanopen.Bridge
