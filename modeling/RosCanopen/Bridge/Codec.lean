import RosCanopen.Bridge.Dictionary

/-!
# One codec, four switches

The switch over the types of the objects is written out for the SDO write, the SDO read, the
transmission by PDO and the reception by PDO.  Each loads the bytes of a payload into a value of
the type, or packs a value into a payload.

## Main definitions

* `Codec` — the four agree on a type and a payload.
* `codec_iff` — they do, but for `REAL32`, which `tpdo_transmit` lacks, and for the types that no
  switch has.
-/

namespace RosCanopen.Bridge

open Lib

variable {type : DefType} {width : ℕ} {d : BitVec 32}

/-- The bytes are a value of the type: a `bool` is 0 or 1. -/
def Representable (type : DefType) (d : BitVec 32) : Prop :=
  type = .boolean → d.setWidth 8 = 0 ∨ d.setWidth 8 = 1

/-- The four functions on the objects of a type and one payload. -/
structure Codec (type : DefType) (d : BitVec 32) : Prop where
  /-- A PDO and an SDO write load the same value, whatever a byte that is no `bool` is taken
  for; the value is the one in the dictionary. -/
  same : type.width ≠ none → ∀ (b : DriverNode) (index : BitVec 16) (subindex : BitVec 8)
    (raw raw' : Bool) (s s' : DictionaryState), b.typeOf (index, subindex) = some type →
      b.tpdoMapped (index, subindex) = true → ∃ v,
        (b.asyncSdoWrite ⟨index, subindex, d⟩ raw' true s').2 =
            [.submitted (index, subindex) (some v)] ∧
          .accepted (index, subindex) v ∈ (b.tpdoTransmit ⟨index, subindex, d⟩ raw s).2 ∧
          (b.tpdoTransmit ⟨index, subindex, d⟩ raw s).1.values (index, subindex) = v
  /-- The value that has been submitted is packed again as the payload. -/
  packed : ∀ width, type.width = some width → ∀ (b : DriverNode) (index : BitVec 16)
    (subindex : BitVec 8) (raw : Bool) (s s' : DictionaryState) (v : Value),
      b.typeOf (index, subindex) = some type →
        (b.asyncSdoWrite ⟨index, subindex, d⟩ raw true s).2 =
            [.submitted (index, subindex) (some v)] →
          (b.rpdoMapped (index, subindex) = true →
            .pushed ⟨index, subindex, (d.setWidth width).setWidth 32⟩ ∈
              (b.onRpdoWrite (index, subindex) v s').2) ∧
          ∃ job, (b.asyncSdoRead ⟨index, subindex, d⟩ true s').1.jobs = s'.jobs ++ [job] ∧
            .delivered ⟨index, subindex, (d.setWidth width).setWidth 32⟩ ∈
              (b.finish job (.ok v) s').2
  /-- With a type that no switch has, nothing is sent and nothing is received. -/
  silent : type.width = none → ∀ (b : DriverNode) (index : BitVec 16) (subindex : BitVec 8)
    (raw : Bool) (value : Value) (s : DictionaryState), b.typeOf (index, subindex) = some type →
      .transmitted (index, subindex) ∉ (b.tpdoTransmit ⟨index, subindex, d⟩ raw s).2 ∧
        ∀ data, .pushed data ∉ (b.onRpdoWrite (index, subindex) value s).2

/-! ## The codec -/

theorem DefType.width_le (hwidth : type.width = some width) : width ≤ 32 := by
  cases type <;> simp_all [DefType.width] <;> omega

/-- Loading takes the lower bytes. -/
theorem loadValue_eq (hwidth : type.width = some width) (hd : Representable type d) (raw : Bool) :
    loadValue raw type d = some ((d.setWidth width).setWidth 64) := by
  cases type with
  | boolean =>
      obtain rfl : 8 = width := Option.some.inj hwidth
      simp only [loadValue]
      rcases hd rfl with hzero | hone
      · simp [hzero]
      · simp [hone]
  | other => cases hwidth
  | _ =>
      simp only [loadValue]
      rw [hwidth, Option.map_some]

/-- Packing a value that fits gives its bytes back. -/
theorem packValue_eq (hwidth : type.width = some width) :
    packValue type ((d.setWidth width).setWidth 64) = (d.setWidth width).setWidth 32 := by
  have hle := DefType.width_le hwidth
  unfold packValue
  rw [hwidth, Option.getD_some, BitVec.setWidth_setWidth_of_le _ (by omega : width ≤ 64),
    BitVec.setWidth_eq]

/-- The SDO channel sends the value that the dictionary's write submits. -/
theorem sent_write {b : DriverNode} {data : COData}
    (htype : b.typeOf (data.index, data.subindex) = some type) (hwidth : type.width = some width)
    (hd : Representable type data.data) (raw : Bool) :
    b.toLelyDriverBridge.sent (.write data) = loadValue raw type data.data := by
  have hobject : b.toLelyDriverBridge.object (.write data) = some type := htype
  rw [loadValue_eq hwidth hd raw]
  simp only [LelyDriverBridge.sent, hobject, Option.bind_some, hwidth, Option.map_some]

/-! ## The four functions -/

section Functions
variable {b : DriverNode} {index : BitVec 16} {subindex : BitVec 8} {v : Value} {raw : Bool}

theorem asyncSdoWrite_submits (htype : b.typeOf (index, subindex) = some type)
    (hload : loadValue raw type d = some v) (s : DictionaryState) :
    (b.asyncSdoWrite ⟨index, subindex, d⟩ raw true s).2 =
      [.submitted (index, subindex) (some v)] := by
  simp only [DriverNode.asyncSdoWrite, htype, hload]
  rfl

theorem tpdoTransmit_accepts (htype : b.typeOf (index, subindex) = some type)
    (hreal : type ≠ .real32) (hload : loadValue raw type d = some v)
    (hmapped : b.tpdoMapped (index, subindex) = true) (s : DictionaryState) :
    b.tpdoTransmit ⟨index, subindex, d⟩ raw s =
      (b.setVal (index, subindex) type v s,
        [.transmitted (index, subindex), .accepted (index, subindex) v]) := by
  simp only [DriverNode.tpdoTransmit, htype, DriverNode.tpdoValue, if_neg hreal, hload,
    hmapped, if_true]

theorem onRpdoWrite_pushes (htype : b.typeOf (index, subindex) = some type)
    (hwidth : type.width = some width) (hmapped : b.rpdoMapped (index, subindex) = true)
    (s : DictionaryState) :
    .pushed ⟨index, subindex, packValue type v⟩ ∈
      (b.onRpdoWrite (index, subindex) v s).2 := by
  have hknown := DriverNode.ne_other_of_width hwidth
  simp only [DriverNode.onRpdoWrite, htype, hwidth, hmapped, if_true,
    DriverNode.getVal_setVal s v htype hknown]
  exact List.mem_cons_self

theorem asyncSdoRead_jobs (htype : b.typeOf (index, subindex) = some type)
    (hwidth : type.width = some width) (s : DictionaryState) :
    (b.asyncSdoRead ⟨index, subindex, d⟩ true s).1.jobs =
      s.jobs ++ [⟨(index, subindex), type, false, none⟩] := by
  simp only [DriverNode.asyncSdoRead, htype, hwidth]
  rfl

/-- Without a branch for the type, the event is triggered all the same. -/
theorem tpdoTransmit_falls_through (htype : b.typeOf (index, subindex) = some type)
    (hnone : DriverNode.tpdoValue raw type d = none)
    (hmapped : b.tpdoMapped (index, subindex) = true) (s : DictionaryState) :
    b.tpdoTransmit ⟨index, subindex, d⟩ raw s = (s, [.transmitted (index, subindex)]) := by
  simp only [DriverNode.tpdoTransmit, htype, hnone, hmapped, if_true]

end Functions

/-- A type with a branch in each switch. -/
theorem codec_of_representable (hreal : type ≠ .real32) (hother : type ≠ .other)
    (hd : Representable type d) : Codec type d := by
  have hsome : ∃ width, type.width = some width := by
    cases type <;> first | exact ⟨_, rfl⟩ | exact absurd rfl hother
  obtain ⟨own, hown⟩ := hsome
  constructor
  · intro _ b index subindex raw raw' s s' htype hmapped
    have haccepts := tpdoTransmit_accepts htype hreal (loadValue_eq hown hd raw) hmapped s
    refine ⟨(d.setWidth own).setWidth 64, ?_, ?_, ?_⟩
    · exact asyncSdoWrite_submits htype (loadValue_eq hown hd raw') s'
    · rw [haccepts]
      simp
    · rw [haccepts]
      rw [DriverNode.values_setVal s _ htype hother, Function.update_self]
  · intro width hwidth b index subindex raw s s' v htype hsubmitted
    have hload := loadValue_eq hwidth hd raw
    have hv : (d.setWidth width).setWidth 64 = v := by
      rw [asyncSdoWrite_submits htype hload s] at hsubmitted
      simpa using hsubmitted
    have hpack : packValue type v = (d.setWidth width).setWidth 32 := by
      rw [← hv, packValue_eq hwidth]
    constructor
    · intro hmapped
      rw [← hpack]
      exact onRpdoWrite_pushes htype hwidth hmapped s'
    · refine ⟨_, asyncSdoRead_jobs htype hwidth s', ?_⟩
      simp only [DriverNode.finish, hpack]
      simp
  · intro hnone
    rw [hnone] at hown
    cases hown

/-! ## Where they disagree -/

/-- A bridge with one type of object, all of them mapped. -/
def uniform (type : DefType) : DriverNode where
  id := 2
  find := fun _ _ => some type
  lely := .plain
  pdoMap := .empty
  tpdoMapped := fun _ => true
  rpdoMapped := fun _ => true

def unwritten : DictionaryState := ⟨fun _ => 0, [], false⟩

theorem not_codec_real32 (d : BitVec 32) : ¬ Codec .real32 d := by
  intro hcodec
  obtain ⟨v, -, haccepted, -⟩ := hcodec.same (by decide) (uniform .real32) 0x6081 0 false false
    unwritten unwritten rfl rfl
  rw [tpdoTransmit_falls_through rfl rfl rfl] at haccepted
  simp at haccepted

theorem not_codec_other (d : BitVec 32) : ¬ Codec .other d := by
  intro hcodec
  refine (hcodec.silent rfl (uniform .other) 0x1008 0 false 0 unwritten rfl).1 ?_
  rw [tpdoTransmit_falls_through rfl rfl rfl]
  exact List.mem_singleton.mpr rfl

/-- A byte that is no `bool` is loaded as one, and packed as 0 or 1. -/
theorem representable_of_codec (hcodec : Codec .boolean d) : Representable .boolean d := by
  intro _
  by_contra hbyte
  rw [not_or] at hbyte
  have hload : loadValue false .boolean d = some 0 := by
    simp only [loadValue, if_neg hbyte.1, if_neg hbyte.2]
    rfl
  have hpacked := hcodec.packed 8 rfl (uniform .boolean) 0x2000 0 false unwritten unwritten 0 rfl
    (asyncSdoWrite_submits rfl hload unwritten)
  have hpushed := hpacked.1 rfl
  have hzero : d.setWidth 8 = 0 := by
    have heq : (d.setWidth 8).setWidth 32 = (0 : BitVec 32) := by
      simpa [DriverNode.onRpdoWrite, DriverNode.typeOf, uniform, DefType.width,
        DriverNode.setVal, DriverNode.getVal, Lely.plain, packValue] using hpushed
    have hback := congrArg (BitVec.setWidth 8) heq
    simpa using hback
  exact hbyte.1 hzero

/-- **The codec** is one for the four functions on exactly the types that each of them has, if a
`bool` is 0 or 1. -/
theorem codec_iff (type : DefType) (d : BitVec 32) :
    Codec type d ↔ type ≠ .real32 ∧ type ≠ .other ∧
      (type = .boolean → d.setWidth 8 = 0 ∨ d.setWidth 8 = 1) := by
  constructor
  · intro hcodec
    refine ⟨?_, ?_, ?_⟩
    · intro hreal
      rw [hreal] at hcodec
      exact not_codec_real32 d hcodec
    · intro hother
      rw [hother] at hcodec
      exact not_codec_other d hcodec
    · intro hboolean
      rw [hboolean] at hcodec
      exact representable_of_codec hcodec rfl
  · intro ⟨hreal, hother, hd⟩
    exact codec_of_representable hreal hother hd

/-- Of a `REAL32` object the event is triggered, and no value is written; the value of an SDO
write is submitted. -/
theorem real32_not_written :
    (uniform .real32).tpdoTransmit ⟨0x6081, 0, 0x3F800000⟩ false unwritten =
        (unwritten, [.transmitted (0x6081, 0)]) ∧
      ((uniform .real32).asyncSdoWrite ⟨0x6081, 0, 0x3F800000⟩ false true unwritten).2 =
        [.submitted (0x6081, 0) (some 0x3F800000)] ∧
      ((uniform .other).onRpdoWrite (0x1008, 0) 0 unwritten).2 = [.pushed ⟨0x1008, 0, 0⟩] ∧
      ¬ ∀ type d, Codec type d := by
  refine ⟨tpdoTransmit_falls_through rfl rfl rfl _, ?_, rfl, ?_⟩
  · exact asyncSdoWrite_submits rfl rfl _
  · intro hall
    exact not_codec_real32 0 (hall .real32 0)

end RosCanopen.Bridge
