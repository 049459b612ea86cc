import RosCanopen.Bridge.Dictionary

/-!
# Which way an object goes

`universal_set_value` and `universal_get_value` look an object up in the PDO map and go by PDO and
local dictionary, or by SDO.  Each pass of `createPDOMapping` writes both flags of a record, and
the second pass goes over what the first has written: an object that is mapped both ways loses
the flag of the first.

## Main definitions

* `FlagsExact`, `Routed` — what the map and the two functions should do.
* `pdo_map_exact_iff` — they do it when no object is mapped both ways.
-/

namespace RosCanopen.Bridge

variable {find : MappingObjects} {b : DriverNode} {object : ObjectId}

/-- The flags of the objects are what the mapping objects say. -/
def FlagsExact (find : MappingObjects) : Prop :=
  ∀ index subindex, index ≠ 0 →
    ((createPDOMapping find).isRpdo index subindex = true ↔ RpdoMapped find index subindex) ∧
    ((createPDOMapping find).isTpdo index subindex = true ↔ TpdoMapped find index subindex)

/-- A value is sent by PDO if the object is RPDO-mapped, and by SDO otherwise; it is served from
the cache, without an SDO read, if and only if the object is TPDO-mapped. -/
structure Routed (find : MappingObjects) (b : DriverNode) : Prop where
  byPdo : ∀ object type value submits s, object.1 ≠ 0 → RpdoMapped find object.1 object.2 →
    (∀ write, .submitted object write ∉ (b.universalSetValue object type value submits s).2) ∧
      (b.tpdoMapped object = true →
        .accepted object value ∈ (b.universalSetValue object type value submits s).2)
  bySdo : ∀ object type value submits s, object.1 ≠ 0 → ¬ RpdoMapped find object.1 object.2 →
    (∀ v, .accepted object v ∉ (b.universalSetValue object type value submits s).2) ∧
      ((b.typeOf object).isSome = true → submits = true →
        .submitted object (some value) ∈ (b.universalSetValue object type value submits s).2)
  served : ∀ object type sdoRead s, object.1 ≠ 0 →
    ((b.universalGetValue object type sdoRead s).2 = false ↔ TpdoMapped find object.1 object.2) ∧
      (TpdoMapped find object.1 object.2 →
        (b.universalGetValue object type sdoRead s).1 = b.readCache object type s)

theorem universalSetValue_of_rpdo (hrpdo : b.pdoMap.isRpdo object.1 object.2 = true)
    (type : DefType) (value : Value) (submits : Bool) (s : DictionaryState) :
    (b.universalSetValue object type value submits s).2 =
      if b.tpdoMapped object then [.transmitted object, .accepted object value] else [.failed] := by
  rw [DriverNode.universalSetValue, if_pos hrpdo]
  split <;> rfl

theorem universalSetValue_of_not_rpdo (hrpdo : b.pdoMap.isRpdo object.1 object.2 = false)
    (type : DefType) (value : Value) (submits : Bool) (s : DictionaryState) :
    (b.universalSetValue object type value submits s).2 =
      if (b.typeOf object).isSome && submits then [.submitted object (some value)]
      else [.failed] := by
  rw [DriverNode.universalSetValue, if_neg (by simp [hrpdo]), DriverNode.asyncSdoWriteTyped]
  cases htype : b.typeOf object with
  | none => rfl
  | some type => cases submits <;> rfl

theorem universalGetValue_eq (type : DefType) (sdoRead : Option Value) (s : DictionaryState) :
    (b.universalGetValue object type sdoRead s).2 = !b.pdoMap.isTpdo object.1 object.2 := by
  unfold DriverNode.universalGetValue
  cases b.pdoMap.isTpdo object.1 object.2 with
  | true => rfl
  | false => cases sdoRead <;> rfl

/-- The functions go by the flags. -/
theorem routed_of_flagsExact (hflags : FlagsExact find) (hmap : b.pdoMap = createPDOMapping find) :
    Routed find b where
  byPdo object type value submits s hindex hrpdo := by
    have hflag : b.pdoMap.isRpdo object.1 object.2 = true := by
      rw [hmap]
      exact (hflags object.1 object.2 hindex).1.mpr hrpdo
    rw [universalSetValue_of_rpdo hflag]
    constructor
    · intro write
      cases b.tpdoMapped object <;> simp
    · intro hmapped
      simp [hmapped]
  bySdo object type value submits s hindex hrpdo := by
    have hflag : b.pdoMap.isRpdo object.1 object.2 = false := by
      rw [hmap]
      exact Bool.eq_false_iff.mpr fun h => hrpdo ((hflags object.1 object.2 hindex).1.mp h)
    rw [universalSetValue_of_not_rpdo hflag]
    constructor
    · intro v
      cases (b.typeOf object).isSome && submits <;> simp
    · intro htype hsubmits
      simp [htype, hsubmits]
  served object type sdoRead s hindex := by
    have hflag : b.pdoMap.isTpdo object.1 object.2 = true ↔
        TpdoMapped find object.1 object.2 := by
      rw [hmap]
      exact (hflags object.1 object.2 hindex).2
    constructor
    · rw [universalGetValue_eq, Bool.not_eq_false', hflag]
    · intro htpdo
      simp only [DriverNode.universalGetValue, if_pos (hflag.mpr htpdo)]

/-- **The PDO map** has the right flags, and every bridge with it goes the right way, if and only
if no object is mapped in both directions. -/
theorem pdo_map_exact_iff (find : MappingObjects) :
    (FlagsExact find ∧ ∀ b : DriverNode, b.pdoMap = createPDOMapping find → Routed find b) ↔
      ∀ index subindex, index ≠ 0 →
        ¬(RpdoMapped find index subindex ∧ TpdoMapped find index subindex) := by
  constructor
  · rintro ⟨hflags, -⟩ index subindex hindex ⟨hrpdo, htpdo⟩
    have hflag := (hflags index subindex hindex).1.mpr hrpdo
    exact ((isRpdo_createPDOMapping hindex).mp hflag).2 htpdo
  · intro hapart
    have hflags : FlagsExact find := by
      intro index subindex hindex
      refine ⟨?_, isTpdo_createPDOMapping hindex⟩
      rw [isRpdo_createPDOMapping hindex]
      constructor
      · exact fun h => h.1
      · intro hrpdo
        exact ⟨hrpdo, fun htpdo => hapart index subindex hindex ⟨hrpdo, htpdo⟩⟩
    exact ⟨hflags, fun b hmap => routed_of_flagsExact hflags hmap⟩

/-- A dictionary that maps the control word in an RPDO and in a TPDO. -/
def bothWays : MappingObjects := fun index subindex =>
  if (index = 0x1600 ∨ index = 0x1A00) ∧ subindex = 1 then some 0x60400010 else none

/-- The control word is RPDO-mapped, and is sent by SDO. -/
theorem rpdo_lost : RpdoMapped bothWays 0x6040 0 ∧ TpdoMapped bothWays 0x6040 0 ∧
    (createPDOMapping bothWays).isRpdo 0x6040 0 = false ∧ ∃ (b : DriverNode) (s : DictionaryState),
      b.pdoMap = createPDOMapping bothWays ∧ b.tpdoMapped (0x6040, 0) = true ∧
        (b.universalSetValue (0x6040, 0) .unsigned16 0xF true s).2 =
          [.submitted (0x6040, 0) (some 0xF)] := by
  have hrpdo : RpdoMapped bothWays 0x6040 0 :=
    ⟨0, by decide, 1, by decide, by decide, 0x60400010, by decide, by decide, by decide⟩
  have htpdo : TpdoMapped bothWays 0x6040 0 :=
    ⟨0, by decide, 1, by decide, by decide, 0x60400010, by decide, by decide, by decide⟩
  have hlost : (createPDOMapping bothWays).isRpdo 0x6040 0 = false := by
    refine Bool.eq_false_iff.mpr fun hflag => ?_
    exact ((isRpdo_createPDOMapping (by decide)).mp hflag).2 htpdo
  generalize createPDOMapping bothWays = map at hlost ⊢
  refine ⟨hrpdo, htpdo, hlost, ⟨⟨2, fun _ _ => some .unsigned16⟩, .plain, map, fun _ => true,
    fun _ => true⟩, ⟨fun _ => 0, [], false⟩, rfl, rfl, ?_⟩
  rw [universalSetValue_of_not_rpdo hlost]
  rfl

end RosCanopen.Bridge
