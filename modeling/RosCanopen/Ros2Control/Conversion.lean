import RosCanopen.Ros2Control.COData

/-!
# Conversions one after another

`WORos2ControlCoData::prepare_data` copies a number as wide as its type into the word that the
object keeps, and leaves the bytes above as they were.  What is sent depends on the conversions
before, where they left something there; what is read back by the same type does not.

## Main definitions

* `CoType.IsValue`, `CoType.width` — the values of a type, and how much of the word they take.
* `Conversion`, `WORos2ControlCoData.payloads` — conversions of one object.
* `WORos2ControlCoData.RoundTrips` — every payload is the one of a first conversion, and is read
  back as its value.
-/

namespace RosCanopen.Ros2Control

open Lib Cia402
open Bridge (COData)

namespace CoType

/-- The bits that `prepare_data` copies. -/
def width : CoType → ℕ
  | .bool | .int8 | .uint8 => 8
  | .int16 | .uint16 => 16
  | .int32 | .uint32 | .other _ => 32

/-- The numbers that are values of a type of `SUPPORTED_TYPES`. -/
def IsValue (v : ℚ) : CoType → Prop
  | .bool => v = 0 ∨ v = 1
  | .int8 => ∃ n : ℤ, v = n ∧ (IntType.mk true 8).Fits n
  | .uint8 => ∃ n : ℤ, v = n ∧ (IntType.mk false 8).Fits n
  | .int16 => ∃ n : ℤ, v = n ∧ (IntType.mk true 16).Fits n
  | .uint16 => ∃ n : ℤ, v = n ∧ (IntType.mk false 16).Fits n
  | .int32 => ∃ n : ℤ, v = n ∧ (IntType.mk true 32).Fits n
  | .uint32 => ∃ n : ℤ, v = n ∧ (IntType.mk false 32).Fits n
  | .other _ => False

/-- The word of a value, as wide as its type. -/
def word (v : ℚ) (T : CoType) : BitVec T.width := BitVec.ofInt T.width (truncate v)

/-- `set_co_data_type`: the empty text is taken too. -/
def set : CoType → CoType
  | .other name => if name = "" then .other name else .int32
  | type => type

end CoType

/-- What is set in the interfaces before `prepare_data`, and what the machine makes of
conversions out of range. -/
structure Conversion where
  coType : CoType
  value : ℚ
  index : Double
  subindex : Double
  raw : COData

namespace WORos2ControlCoData

def convert (s : WORos2ControlCoData) (c : Conversion) : WORos2ControlCoData :=
  prepareData { s with
    index := c.index, subindex := c.subindex, data := .fin c.value, coType := c.coType.set } c.raw

/-- The word that a conversion leaves. -/
def payload (s : WORos2ControlCoData) (c : Conversion) : BitVec 32 :=
  (s.convert c).originalData.data

/-- The words of a sequence of conversions. -/
def payloads (s : WORos2ControlCoData) : List Conversion → List (BitVec 32)
  | [] => []
  | c :: cs => s.payload c :: (s.convert c).payloads cs

end WORos2ControlCoData

/-- What a word is read back as by the type. -/
def RORos2ControlCOData.readBack (s : RORos2ControlCOData) (type : CoType) (word : BitVec 32)
    (raw : Double) : Double :=
  (prepareData { s with
    originalData := { s.originalData with data := word }, coType := type.set } raw).data

namespace WORos2ControlCoData

/-- Each payload is as if its conversion were the first, and is read back as its value. -/
def RoundTrips (s : WORos2ControlCoData) (cs : List Conversion) : Prop :=
  s.payloads cs = cs.map s.payload ∧
    ∀ p ∈ cs.zip (s.payloads cs), ∀ (ro : RORos2ControlCOData) (raw : Double),
      ro.readBack p.1.coType p.2 raw = .fin p.1.value

/-- Where the first value is wider than the second type it has there what stood there at
first. -/
def LeavesNothing (s : WORos2ControlCoData) (c c' : Conversion) : Prop :=
  c.coType.word c.value >>> c'.coType.width =
    s.originalData.data.setWidth c.coType.width >>> c'.coType.width

end WORos2ControlCoData

/-! ## One conversion -/

namespace CoType

theorem set_of_isValue {T : CoType} {v : ℚ} (hv : T.IsValue v) : T.set = T := by
  cases T with
  | other name => exact hv.elim
  | _ => rfl

theorem width_cases (T : CoType) : T.width = 8 ∨ T.width = 16 ∨ T.width = 32 := by
  cases T <;> simp [width]

theorem width_le (T : CoType) : T.width ≤ 32 := by
  rcases T.width_cases with hw | hw | hw <;> omega

/-- The two words of a `bool`. -/
theorem load_bool (old : BitVec 32) :
    load (patch (0 : BitVec 8) old) .bool = some 0 ∧
      load (patch (1 : BitVec 8) old) .bool = some 1 := by
  have hzero := setWidth_patch (by decide) (0 : BitVec 8) old
  have hone := setWidth_patch (by decide) (1 : BitVec 8) old
  refine ⟨?_, ?_⟩
  · rw [load, hzero]
    rfl
  · rw [load, hone]
    rfl

/-- The way of an integer through its type. -/
theorem storeInt_loadInt {t : IntType} (hw : 0 < t.width) (hw' : t.width ≤ 32) {n : ℤ}
    (hn : t.Fits n) :
    (∀ old, storeInt t (.fin n) old = some (patch (BitVec.ofInt t.width (truncate (n : ℚ))) old)) ∧
      ∀ old, loadInt t (patch (BitVec.ofInt t.width (truncate (n : ℚ))) old) = some (n : ℚ) := by
  rw [truncate_intCast]
  refine ⟨?_, ?_⟩
  · intro old
    have hcast : t.cast (n : ℚ) = some (BitVec.ofInt t.width n) := by
      rw [IntType.cast, truncate_intCast, if_pos hn]
    rw [storeInt, staticCast, hcast]
    rfl
  · intro old
    rw [loadInt, setWidth_patch hw', IntType.value_ofInt hw hn]

/-- **A value is copied into the word as wide as its type, and is read from there.** -/
theorem store_load {T : CoType} {v : ℚ} (hv : T.IsValue v) :
    (∀ old, T.store (.fin v) old = some (patch (T.word v) old)) ∧
      ∀ old, T.load (patch (T.word v) old) = some v := by
  cases T with
  | bool =>
      rcases hv with rfl | rfl
      · have hword : bool.word 0 = (0 : BitVec 8) := BitVec.eq_of_toNat_eq (by decide)
        rw [hword]
        exact ⟨fun old => rfl, fun old => (load_bool old).1⟩
      · have hword : bool.word 1 = (1 : BitVec 8) := BitVec.eq_of_toNat_eq (by decide)
        rw [hword]
        exact ⟨fun old => rfl, fun old => (load_bool old).2⟩
  | int8 =>
      obtain ⟨n, rfl, hn⟩ := hv
      exact storeInt_loadInt (t := ⟨true, 8⟩) (by decide) (by decide) hn
  | uint8 =>
      obtain ⟨n, rfl, hn⟩ := hv
      exact storeInt_loadInt (t := ⟨false, 8⟩) (by decide) (by decide) hn
  | int16 =>
      obtain ⟨n, rfl, hn⟩ := hv
      exact storeInt_loadInt (t := ⟨true, 16⟩) (by decide) (by decide) hn
  | uint16 =>
      obtain ⟨n, rfl, hn⟩ := hv
      exact storeInt_loadInt (t := ⟨false, 16⟩) (by decide) (by decide) hn
  | int32 =>
      obtain ⟨n, rfl, hn⟩ := hv
      exact storeInt_loadInt (t := ⟨true, 32⟩) (by decide) (by decide) hn
  | uint32 =>
      obtain ⟨n, rfl, hn⟩ := hv
      exact storeInt_loadInt (t := ⟨false, 32⟩) (by decide) (by decide) hn
  | other name => exact hv.elim

end CoType

namespace WORos2ControlCoData
variable {s s' : WORos2ControlCoData} {c c' : Conversion} {cs : List Conversion}

/-- What a conversion of a value leaves. -/
theorem payload_eq (hc : c.coType.IsValue c.value) (s : WORos2ControlCoData) :
    s.payload c = patch (c.coType.word c.value) s.originalData.data := by
  obtain ⟨hstore, -⟩ := CoType.store_load hc
  simp only [payload, convert, prepareData, CoType.set_of_isValue hc, hstore, Option.getD_some]

theorem readBack_payload (hc : c.coType.IsValue c.value) (ro : RORos2ControlCOData)
    (raw : Double) : ro.readBack c.coType (s.payload c) raw = .fin c.value := by
  obtain ⟨-, hload⟩ := CoType.store_load hc
  rw [payload_eq hc]
  simp only [RORos2ControlCOData.readBack, RORos2ControlCOData.prepareData,
    CoType.set_of_isValue hc, hload, Option.map_some, Option.getD_some]

/-- What is left of the past is what stood above the type. -/
theorem payload_eq_payload_iff (hc : c.coType.IsValue c.value) :
    s.payload c = s'.payload c ↔
      s.originalData.data >>> c.coType.width = s'.originalData.data >>> c.coType.width := by
  rw [payload_eq hc, payload_eq hc]
  exact patch_eq_patch_iff c.coType.width_le _ _ _

theorem leavesNothing_iff (hc : c.coType.IsValue c.value) :
    s.LeavesNothing c c' ↔
      s.payload c >>> c'.coType.width = s.originalData.data >>> c'.coType.width := by
  rw [payload_eq hc, patch_ushiftRight_eq_iff c.coType.width_le]
  rfl

/-! ## A sequence of them -/

/-- Every payload is read back. -/
theorem readBack_payloads (hcs : ∀ c ∈ cs, c.coType.IsValue c.value) :
    ∀ p ∈ cs.zip (s.payloads cs), ∀ (ro : RORos2ControlCOData) (raw : Double),
      ro.readBack p.1.coType p.2 raw = .fin p.1.value := by
  induction cs generalizing s with
  | nil => simp
  | cons c cs ih =>
      intro p hp ro raw
      rw [payloads, List.zip_cons_cons] at hp
      rcases List.mem_cons.mp hp with rfl | hp
      · exact readBack_payload (hcs c List.mem_cons_self) ro raw
      · exact ih (fun c' hc' => hcs c' (List.mem_cons_of_mem _ hc')) p hp ro raw

/-- Each conversion finds above its type what was there at first: the first one in what it is
given, the others in what the one before leaves. -/
theorem payloads_eq_map_iff (hcs : ∀ c ∈ cs, c.coType.IsValue c.value) :
    s'.payloads cs = cs.map s.payload ↔
      (∀ c ∈ cs.head?, s'.originalData.data >>> c.coType.width =
        s.originalData.data >>> c.coType.width) ∧ cs.IsChain (LeavesNothing s) := by
  induction cs generalizing s' with
  | nil => simp [payloads]
  | cons c cs ih =>
      have hc := hcs c List.mem_cons_self
      have hrest := fun c' hc' => hcs c' (List.mem_cons_of_mem _ hc')
      rw [payloads, List.map_cons, List.cons.injEq, payload_eq_payload_iff hc, ih hrest]
      have hleft : s'.originalData.data >>> c.coType.width =
          s.originalData.data >>> c.coType.width →
          (s'.convert c).originalData.data = s.payload c := (payload_eq_payload_iff hc).mpr
      cases cs with
      | nil => simp
      | cons c' cs =>
          simp only [List.head?_cons, Option.mem_some_iff, forall_eq', List.isChain_cons_cons,
            leavesNothing_iff hc]
          constructor
          · rintro ⟨hhead, hnext, hchain⟩
            rw [hleft hhead] at hnext
            exact ⟨hhead, hnext, hchain⟩
          · rintro ⟨hhead, hnext, hchain⟩
            refine ⟨hhead, ?_, hchain⟩
            rw [hleft hhead]
            exact hnext

/-- **Read back is always the value; the payload is the one of a first conversion where nothing
was left above the type.**  Whatever is left, only a type of 32 bits is safe from it. -/
theorem roundTrips_iff (s : WORos2ControlCoData) (cs : List Conversion)
    (hcs : ∀ c ∈ cs, c.coType.IsValue c.value) :
    (s.RoundTrips cs ↔ cs.IsChain s.LeavesNothing) ∧
      (∀ p ∈ cs.zip (s.payloads cs), ∀ (ro : RORos2ControlCOData) (raw : Double),
        ro.readBack p.1.coType p.2 raw = .fin p.1.value) ∧
      ∀ c ∈ cs, (∀ t t' : WORos2ControlCoData, t.payload c = t'.payload c) ↔
        c.coType.width = 32 := by
  refine ⟨?_, readBack_payloads hcs, ?_⟩
  · rw [RoundTrips, and_iff_left (readBack_payloads hcs), payloads_eq_map_iff hcs]
    exact and_iff_right fun _ _ => rfl
  · intro c hc
    constructor
    · intro hsame
      by_contra hwidth
      let word (data : BitVec 32) : WORos2ControlCoData :=
        { originalData := ⟨0, 0, data⟩, index := .nan, subindex := .nan, data := .nan }
      have habove := (payload_eq_payload_iff (hcs c hc)).mp (hsame (word 0) (word (-1)))
      rcases c.coType.width_cases with hw | hw | hw
      · rw [hw] at habove
        exact absurd habove (by decide)
      · rw [hw] at habove
        exact absurd habove (by decide)
      · exact hwidth hw
    · intro hwidth t t'
      have hnone : ∀ x : BitVec 32, x >>> 32 = 0 := fun x => BitVec.ushiftRight_eq_zero le_rfl
      rw [payload_eq_payload_iff (hcs c hc), hwidth, hnone, hnone]

/-- A `uint16_t` that a `uint8_t` would hold leaves nothing for the next conversion. -/
theorem roundTrips_small : RoundTrips
    { originalData := ⟨0, 0, 0⟩, index := .nan, subindex := .nan, data := .nan }
    [⟨.uint16, 7, .fin 0, .fin 0, ⟨0, 0, 0⟩⟩, ⟨.uint8, 5, .fin 0, .fin 0, ⟨0, 0, 0⟩⟩] := by
  refine (roundTrips_iff _ _ ?_).1.mpr ?_
  · intro c hc
    simp only [List.mem_cons, List.not_mem_nil, or_false] at hc
    rcases hc with rfl | rfl
    · exact ⟨7, by norm_num, by decide⟩
    · exact ⟨5, by norm_num, by decide⟩
  · exact List.isChain_cons_cons.mpr ⟨BitVec.eq_of_toNat_eq (by decide), .singleton _⟩

/-- A `uint8_t` behind an `int32_t` takes three of its bytes along. -/
theorem bytes_left_over :
    payloads { originalData := ⟨0, 0, 0⟩, index := .nan, subindex := .nan, data := .nan }
      [⟨.int32, -1, .fin 0, .fin 0, ⟨0, 0, 0⟩⟩, ⟨.uint8, 5, .fin 0, .fin 0, ⟨0, 0, 0⟩⟩] =
        [0xFFFFFFFF, 0xFFFFFF05] ∧
    payload { originalData := ⟨0, 0, 0⟩, index := .nan, subindex := .nan, data := .nan }
      ⟨.uint8, 5, .fin 0, .fin 0, ⟨0, 0, 0⟩⟩ = 5 ∧
    ¬RoundTrips { originalData := ⟨0, 0, 0⟩, index := .nan, subindex := .nan, data := .nan }
      [⟨.int32, -1, .fin 0, .fin 0, ⟨0, 0, 0⟩⟩, ⟨.uint8, 5, .fin 0, .fin 0, ⟨0, 0, 0⟩⟩] := by
  refine ⟨by decide, by decide, ?_⟩
  intro hround
  exact absurd hround.1 (by decide)

end WORos2ControlCoData
end RosCanopen.Ros2Control
