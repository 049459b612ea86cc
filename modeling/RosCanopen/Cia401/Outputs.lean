import RosCanopen.Bridge.Codec
import RosCanopen.Cia401.Remote
import Mathlib.Data.List.Nodup

/-!
# The outputs of the remote receiver

`on_digital_output` goes through the elements of a message and writes each to a sub-index of the
output object.  The sub-index is the position of the element, counted from one, as a `uint8_t`.

## Main definitions

* `OutputWrite`, `OutputRun` — a call of `universal_set_value`, and what the loop has done.
* `M880Remote.writeOutputs`, `onDigitalOutput` — the loop, and the callback.
* `WritesOwnOutputs` — every element goes to its own output, and nothing else is written.
-/

namespace RosCanopen.Cia401

open Lib Bridge

/-- A call of `universal_set_value` for an output byte. -/
structure OutputWrite where
  object : ObjectId
  value : BitVec 8
  deriving DecidableEq

/-- The calls so far, the dictionary, and the events, newest first. -/
structure OutputRun where
  writes : List OutputWrite
  dictionary : DictionaryState
  events : List TransferEvent

namespace M880Remote
variable (r : M880Remote)

/-- The call that `write_output_byte` makes. -/
def outputCall (sub value : BitVec 8) : List OutputWrite :=
  match r.driver with
  | none => []
  | some _ =>
      if r.registers.digitalOutputIndex = 0 then [] else [⟨r.outputObject sub, value⟩]

/-- The body of the loop, for the element at `i`. -/
def writeElement (reply : Reply) (i : ℕ) (value : BitVec 8) (run : OutputRun) : OutputRun :=
  let sub := BitVec.ofNat 8 (i + 1)
  let (_, dictionary, events) := r.writeOutputByte sub value reply run.dictionary
  ⟨run.writes ++ r.outputCall sub value, dictionary, events ++ run.events⟩

/-- The loop, from the element at `i` on. -/
def writeOutputs (replies : ℕ → Reply) : ℕ → List (BitVec 8) → OutputRun → OutputRun
  | _, [], run => run
  | i, value :: data, run =>
      writeOutputs replies (i + 1) data (r.writeElement (replies i) i value run)

end M880Remote

/-- `on_digital_output` -/
def onDigitalOutput (remote : Option M880Remote) (data : List (BitVec 8)) (replies : ℕ → Reply)
    (s : DictionaryState) : OutputRun :=
  match remote with
  | none => ⟨[], s, []⟩
  | some r => r.writeOutputs replies 0 data ⟨[], s, []⟩

/-- The index of the outputs, if there is a driver and the index is not switched off. -/
def outputIndex (remote : Option M880Remote) : Option (BitVec 16) :=
  remote.bind fun r => r.driver.bind fun _ =>
    if r.registers.digitalOutputIndex = 0 then none else some r.registers.digitalOutputIndex

/-- The calls that are due: one for each element, if there is something to write to. -/
def dueWrites (remote : Option M880Remote) (data : List (BitVec 8)) : List OutputWrite :=
  match outputIndex remote with
  | none => []
  | some index => data.zipIdx.map fun (value, i) => ⟨(index, BitVec.ofNat 8 (i + 1)), value⟩

/-- Every element goes to the output that is its position, counted from one, and nothing else is
written: no output twice, not sub-index 0, nothing for the elements from 255 on, and nothing
above the length of the message. -/
structure WritesOwnOutputs (remote : Option M880Remote) (data : List (BitVec 8))
    (replies : ℕ → Reply) (s : DictionaryState) : Prop where
  own : ∀ w ∈ (onDigitalOutput remote data replies s).writes,
    outputIndex remote = some w.object.1 ∧ ∃ i, data[i]? = some w.value ∧
      w.object.2.toNat = i + 1
  all : ∀ index i value, outputIndex remote = some index → i < 255 → data[i]? = some value →
    ⟨(index, BitVec.ofNat 8 (i + 1)), value⟩ ∈ (onDigitalOutput remote data replies s).writes
  distinct : ((onDigitalOutput remote data replies s).writes.map OutputWrite.object).Nodup
  notZero : ∀ w ∈ (onDigitalOutput remote data replies s).writes, w.object.2 ≠ 0
  tail : (onDigitalOutput remote data replies s).dictionary.values =
    (onDigitalOutput remote (data.take 255) replies s).dictionary.values
  only : ∀ object, object ∉ (onDigitalOutput remote data replies s).writes.map OutputWrite.object →
    (onDigitalOutput remote data replies s).dictionary.values object = s.values object ∧
      ∀ e ∈ (onDigitalOutput remote data replies s).events, e.object ≠ some object
  above : ∀ index sub, outputIndex remote = some index → data.length < sub.toNat →
    (onDigitalOutput remote data replies s).dictionary.values (index, sub) =
      s.values (index, sub) ∧
    ∀ e ∈ (onDigitalOutput remote data replies s).events, e.object ≠ some (index, sub)

/-! ## The loop -/

section Loop
variable {r : M880Remote} {replies : ℕ → Reply} {data : List (BitVec 8)} {run : OutputRun}

theorem outputCall_eq (sub value : BitVec 8) :
    r.outputCall sub value =
      (outputIndex (some r)).toList.map fun index => ⟨(index, sub), value⟩ := by
  simp only [M880Remote.outputCall, outputIndex, M880Remote.outputObject, Option.bind_some]
  cases hdriver : r.driver with
  | none => rfl
  | some b =>
      by_cases hindex : r.registers.digitalOutputIndex = 0
      · simp only [hindex, if_true]
        rfl
      · simp only [if_neg hindex]
        rfl

variable (run) in
/-- What an element is not written to stays as it is. -/
theorem writeElement_frame (reply : Reply) {i : ℕ} {value : BitVec 8} {object : ObjectId}
    (hobject : object ∉ (r.outputCall (BitVec.ofNat 8 (i + 1)) value).map OutputWrite.object) :
    (r.writeElement reply i value run).dictionary.values object =
      run.dictionary.values object ∧
    ∀ e ∈ (r.writeElement reply i value run).events, e ∈ run.events ∨ e.object ≠ some object := by
  simp only [M880Remote.writeElement, M880Remote.writeOutputByte]
  cases hdriver : r.driver with
  | none => exact ⟨rfl, fun e he => .inl he⟩
  | some b =>
      by_cases hindex : r.registers.digitalOutputIndex = 0
      · simp only [hindex, if_true]
        exact ⟨trivial, fun e he => .inl he⟩
      · have hne : object ≠ r.outputObject (BitVec.ofNat 8 (i + 1)) := by
          simpa only [M880Remote.outputCall, hdriver, if_neg hindex, List.map_cons, List.map_nil,
            List.mem_singleton] using hobject
        obtain ⟨hvalues, hevents⟩ := b.callSetValue_frame .unsigned8 (value.setWidth 64) reply
          run.dictionary hne
        simp only [hindex, if_false]
        refine ⟨hvalues, fun e he => ?_⟩
        rcases List.mem_append.mp he with hnew | hold
        · exact .inr (hevents e hnew)
        · exact .inl hold

/-- **The loop** makes a call for each element, with its position and one as the sub-index. -/
theorem writes_writeOutputs (i : ℕ) (data : List (BitVec 8)) (run : OutputRun) :
    (r.writeOutputs replies i data run).writes = run.writes ++
      (data.zipIdx i).flatMap fun (value, k) => r.outputCall (BitVec.ofNat 8 (k + 1)) value := by
  induction data generalizing i run with
  | nil => simp [M880Remote.writeOutputs]
  | cons value data ih =>
      rw [M880Remote.writeOutputs, ih, List.zipIdx_cons, List.flatMap_cons, ← List.append_assoc]
      rfl

variable (replies) in
/-- And what it makes no call for stays as it is. -/
theorem writeOutputs_frame {object : ObjectId} (i : ℕ) (data : List (BitVec 8)) (run : OutputRun)
    (hobject : ∀ value k, (value, k) ∈ data.zipIdx i →
      object ∉ (r.outputCall (BitVec.ofNat 8 (k + 1)) value).map OutputWrite.object) :
    (r.writeOutputs replies i data run).dictionary.values object =
      run.dictionary.values object ∧
    ∀ e ∈ (r.writeOutputs replies i data run).events,
      e ∈ run.events ∨ e.object ≠ some object := by
  induction data generalizing i run with
  | nil => exact ⟨rfl, fun e he => .inl he⟩
  | cons value data ih =>
      rw [List.zipIdx_cons] at hobject
      have hfirst := writeElement_frame run (replies i)
        (hobject value i List.mem_cons_self)
      obtain ⟨hvalues, hevents⟩ := ih (i + 1) (r.writeElement (replies i) i value run)
        fun value k hmem => hobject value k (List.mem_cons_of_mem _ hmem)
      refine ⟨hvalues.trans hfirst.1, fun e he => ?_⟩
      rcases hevents e he with hold | hnew
      · exact hfirst.2 e hold
      · exact .inr hnew

end Loop

section Callback
variable (remote : Option M880Remote) (data : List (BitVec 8)) (replies : ℕ → Reply)
  (s : DictionaryState)

/-- **The callback makes the calls that are due**, and no others. -/
theorem writes_onDigitalOutput :
    (onDigitalOutput remote data replies s).writes = dueWrites remote data := by
  cases remote with
  | none => rfl
  | some r =>
      rw [onDigitalOutput, writes_writeOutputs, dueWrites, List.nil_append]
      simp only [outputCall_eq]
      cases outputIndex (some r) with
      | none => simp
      | some index => simp [List.map_eq_flatMap]

theorem onDigitalOutput_frame {object : ObjectId}
    (hobject : object ∉ (dueWrites remote data).map OutputWrite.object) :
    (onDigitalOutput remote data replies s).dictionary.values object = s.values object ∧
      ∀ e ∈ (onDigitalOutput remote data replies s).events, e.object ≠ some object := by
  cases remote with
  | none => exact ⟨rfl, fun e he => (List.not_mem_nil he).elim⟩
  | some r =>
      have hcalls : ∀ value k, (value, k) ∈ data.zipIdx →
          object ∉ (r.outputCall (BitVec.ofNat 8 (k + 1)) value).map OutputWrite.object := by
        intro value k hmem hcall
        refine hobject ?_
        rw [outputCall_eq] at hcall
        rw [dueWrites]
        cases hindex : outputIndex (some r) with
        | none => simp [hindex] at hcall
        | some index =>
            obtain rfl : object = (index, BitVec.ofNat 8 (k + 1)) := by
              simpa [hindex] using hcall
            simp only [List.map_map]
            exact List.mem_map.mpr ⟨(value, k), hmem, rfl⟩
      obtain ⟨hvalues, hevents⟩ :=
        writeOutputs_frame replies 0 data ⟨[], s, []⟩ hcalls
      refine ⟨hvalues, fun e he => (hevents e he).resolve_left ?_⟩
      exact List.not_mem_nil

end Callback

/-- What is written has its position in the message. -/
theorem exists_of_mem_dueWrites {remote : Option M880Remote} {data : List (BitVec 8)}
    {w : OutputWrite} (hw : w ∈ dueWrites remote data) :
    ∃ index i, outputIndex remote = some index ∧ data[i]? = some w.value ∧
      w.object = (index, BitVec.ofNat 8 (i + 1)) := by
  rw [dueWrites] at hw
  cases hindex : outputIndex remote with
  | none => simp [hindex] at hw
  | some index =>
      simp only [hindex, List.mem_map] at hw
      obtain ⟨⟨value, i⟩, hmem, rfl⟩ := hw
      exact ⟨index, i, rfl, List.mk_mem_zipIdx_iff_getElem?.mp hmem, rfl⟩

theorem mem_dueWrites {remote : Option M880Remote} {data : List (BitVec 8)} {index : BitVec 16}
    {i : ℕ} {value : BitVec 8} (hindex : outputIndex remote = some index)
    (hvalue : data[i]? = some value) :
    ⟨(index, BitVec.ofNat 8 (i + 1)), value⟩ ∈ dueWrites remote data := by
  rw [dueWrites, hindex]
  exact List.mem_map.mpr ⟨(value, i), List.mk_mem_zipIdx_iff_getElem?.mpr hvalue, rfl⟩

theorem toNat_subindex {i : ℕ} (hi : i < 255) : (BitVec.ofNat 8 (i + 1)).toNat = i + 1 := by
  rw [BitVec.toNat_ofNat]
  exact Nat.mod_eq_of_lt (by omega)

/-- As long as the sub-indices do not run out, no output is written twice. -/
theorem nodup_dueWrites {data : List (BitVec 8)} (remote : Option M880Remote)
    (hshort : data.length ≤ 255) : ((dueWrites remote data).map OutputWrite.object).Nodup := by
  rw [dueWrites]
  cases outputIndex remote with
  | none => exact List.nodup_nil
  | some index =>
      have hpositions : (data.zipIdx.map fun (value, i) =>
          (⟨(index, BitVec.ofNat 8 (i + 1)), value⟩ : OutputWrite)).map OutputWrite.object =
          (List.range' 0 data.length).map fun i => (index, BitVec.ofNat 8 (i + 1)) := by
        rw [← List.zipIdx_map_snd, List.map_map, List.map_map]
        rfl
      simp only [hpositions]
      refine List.Nodup.map_on ?_ List.nodup_range'
      intro i hi j hj heq
      have hi := (List.mem_range'_1.mp hi).2
      have hj := (List.mem_range'_1.mp hj).2
      have hsub := congrArg BitVec.toNat (Prod.mk.inj heq).2
      rw [toNat_subindex (by omega), toNat_subindex (by omega)] at hsub
      omega

/-- An element from 255 on goes to sub-index 0, or around. -/
theorem not_writesOwnOutputs {remote : Option M880Remote} {data : List (BitVec 8)}
    {index : BitVec 16} (hindex : outputIndex remote = some index) (hlong : 255 < data.length)
    (replies : ℕ → Reply) (s : DictionaryState) :
    ¬ WritesOwnOutputs remote data replies s := by
  intro hown
  have hvalue := List.getElem?_eq_getElem hlong
  have hzero := hown.notZero ⟨(index, BitVec.ofNat 8 (255 + 1)), data[255]⟩ (by
    rw [writes_onDigitalOutput]
    exact mem_dueWrites hindex hvalue)
  exact hzero rfl

/-- **Every output is written by its own element** unless the message has more elements than there
are sub-indices. -/
theorem writesOwnOutputs_iff (remote : Option M880Remote) (data : List (BitVec 8))
    (replies : ℕ → Reply) (s : DictionaryState) :
    WritesOwnOutputs remote data replies s ↔
      data.length ≤ 255 ∨ outputIndex remote = none := by
  have hwrites := writes_onDigitalOutput remote data replies s
  constructor
  · intro hown
    by_contra hnot
    obtain ⟨hlong, hindex⟩ := not_or.mp hnot
    obtain ⟨index, hindex⟩ := Option.ne_none_iff_exists'.mp hindex
    exact not_writesOwnOutputs hindex (by omega) replies s hown
  · intro hshort
    -- where nothing can be written, no element has a position to be written to
    have hposition : ∀ index i value, outputIndex remote = some index → data[i]? = some value →
        i < 255 := by
      intro index i value hindex hvalue
      have hlength := (List.getElem?_eq_some_iff.mp hvalue).1
      rcases hshort with hshort | hnone
      · omega
      · cases hnone.symm.trans hindex
    have hown : ∀ w ∈ dueWrites remote data, outputIndex remote = some w.object.1 ∧
        ∃ i, data[i]? = some w.value ∧ w.object.2.toNat = i + 1 := by
      intro w hw
      obtain ⟨index, i, hindex, hvalue, hobject⟩ := exists_of_mem_dueWrites hw
      rw [hobject]
      exact ⟨hindex, i, hvalue, toNat_subindex (hposition index i _ hindex hvalue)⟩
    have hkept : ∀ object, (∀ w ∈ dueWrites remote data, w.object ≠ object) →
        (onDigitalOutput remote data replies s).dictionary.values object = s.values object ∧
          ∀ e ∈ (onDigitalOutput remote data replies s).events, e.object ≠ some object := by
      intro object hobject
      refine onDigitalOutput_frame remote data replies s fun hmem => ?_
      obtain ⟨w, hw, heq⟩ := List.mem_map.mp hmem
      exact hobject w hw heq
    rw [← hwrites] at hown hkept
    exact {
      own := hown
      all := fun index i value hindex _ hvalue => hwrites ▸ mem_dueWrites hindex hvalue
      distinct := by
        rw [hwrites]
        rcases hshort with hshort | hnone
        · exact nodup_dueWrites remote hshort
        · rw [dueWrites, hnone]
          exact List.nodup_nil
      notZero := by
        intro w hw hzero
        obtain ⟨-, i, -, hsub⟩ := hown w hw
        rw [hzero] at hsub
        exact absurd hsub (by simp)
      tail := by
        rcases hshort with hshort | hnone
        · rw [List.take_of_length_le hshort]
        · have hsame : ∀ data, (onDigitalOutput remote data replies s).dictionary.values =
              s.values := by
            intro data
            funext object
            refine (onDigitalOutput_frame remote data replies s ?_).1
            simp [dueWrites, hnone]
          rw [hsame, hsame]
      only := fun object hobject => hkept object fun w hw heq =>
        hobject (List.mem_map.mpr ⟨w, hw, heq⟩)
      above := by
        intro index sub _ habove
        refine hkept _ fun w hw heq => ?_
        obtain ⟨-, i, hvalue, hsub⟩ := hown w hw
        have hlength := (List.getElem?_eq_some_iff.mp hvalue).1
        have hsub : sub.toNat = i + 1 := by simpa [heq] using hsub
        omega }

/-- A receiver of the default layout, on a bridge where every object is a byte. -/
def receiver : M880Remote where
  driver := some (uniform .unsigned8)
  registers := {}
  axes := []
  buttons := []
  polledDigitalSubs := []

/-- The last of 256 elements is written to sub-index 0. -/
theorem long_message_overruns :
    ¬ WritesOwnOutputs (some receiver) (List.replicate 256 0xFF) (fun _ => .answered (.ok 0))
      unwritten :=
  not_writesOwnOutputs rfl (by rw [List.length_replicate]; decide) _ _

end RosCanopen.Cia401
