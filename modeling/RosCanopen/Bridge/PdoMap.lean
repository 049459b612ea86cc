import Mathlib.Logic.Function.Basic
import Mathlib.Tactic.Common

/-!
# The PDO map of a dictionary

The mapping objects of a dictionary name, in packed words, the objects that the PDOs carry.
`createPDOMapping` goes through those of the RPDOs and then through those of the TPDOs, and
writes a whole record for each object that it finds.

## Main definitions

* `PdoMapping`, `PDOMap` — a record, and the nested map.
* `createPDOMapping` — the two passes.
* `RpdoMapped`, `TpdoMapped` — what the mapping objects say.
-/

namespace RosCanopen.Bridge

structure PdoMapping where
  isTpdo : Bool
  isRpdo : Bool
  deriving DecidableEq

/-- The nested map from index and sub-index. -/
abbrev PDOMap := BitVec 16 → Option (BitVec 8 → Option PdoMapping)

namespace PDOMap

def empty : PDOMap := fun _ => none

/-- `(*map)[index][subindex] = mapping` -/
def set (m : PDOMap) (index : BitVec 16) (subindex : BitVec 8) (mapping : PdoMapping) : PDOMap :=
  Function.update m index
    (some (Function.update ((m index).getD fun _ => none) subindex (some mapping)))

/-- The record of an object. -/
def lookup (m : PDOMap) (index : BitVec 16) (subindex : BitVec 8) : Option PdoMapping :=
  (m index).bind fun object => object subindex

/-- The lookup in `universal_get_value`. -/
def isTpdo (m : PDOMap) (index : BitVec 16) (subindex : BitVec 8) : Bool :=
  (m.lookup index subindex).any PdoMapping.isTpdo

/-- The lookup in `universal_set_value`. -/
def isRpdo (m : PDOMap) (index : BitVec 16) (subindex : BitVec 8) : Bool :=
  (m.lookup index subindex).any PdoMapping.isRpdo

variable {m : PDOMap} {index index' : BitVec 16} {subindex subindex' : BitVec 8}
  {mapping : PdoMapping}

@[simp] theorem lookup_empty : empty.lookup index subindex = none := rfl

@[simp] theorem lookup_set : (m.set index subindex mapping).lookup index' subindex' =
    if index' = index ∧ subindex' = subindex then some mapping else m.lookup index' subindex' := by
  by_cases hindex : index' = index
  · subst hindex
    by_cases hsub : subindex' = subindex
    · subst hsub
      simp [lookup, set]
    · cases hm : m index' <;> simp [lookup, set, hsub, hm]
  · simp [lookup, set, hindex]

end PDOMap

/-- The values of the dictionary's objects as `UNSIGNED32`. -/
abbrev MappingObjects := BitVec 16 → BitVec 8 → Option (BitVec 32)

/-- `tmps`, the sub-index in a packed word. -/
def mappedSubindex (data : BitVec 32) : BitVec 8 := ((data >>> 8) &&& 0xFF).setWidth 8

/-- `tmpi`, the index in a packed word. -/
def mappedIndex (data : BitVec 32) : BitVec 16 := ((data >>> 16) &&& 0xFFFF).setWidth 16

/-- The body of the two loops. -/
def fetchEntry (find : MappingObjects) (base : BitVec 16) (mapping : PdoMapping) (index : ℕ)
    (map : PDOMap) (subindex : ℕ) : PDOMap :=
  match find (base + BitVec.ofNat 16 index) (BitVec.ofNat 8 subindex) with
  | none => map
  | some data =>
      if mappedIndex data = 0 then map
      else map.set (mappedIndex data) (mappedSubindex data) mapping

/-- One pass, with the base of its mapping objects and the record that it writes. -/
def fetchPDO (find : MappingObjects) (base : BitVec 16) (mapping : PdoMapping) (map : PDOMap) :
    PDOMap :=
  (List.range 256).foldl (fun map index =>
    (List.range' 1 8).foldl (fetchEntry find base mapping index) map) map

def fetchRPDO (find : MappingObjects) (map : PDOMap) : PDOMap :=
  fetchPDO find 0x1600 { isTpdo := false, isRpdo := true } map

def fetchTPDO (find : MappingObjects) (map : PDOMap) : PDOMap :=
  fetchPDO find 0x1A00 { isTpdo := true, isRpdo := false } map

def createPDOMapping (find : MappingObjects) : PDOMap :=
  fetchTPDO find (fetchRPDO find .empty)

/-! ## What the passes find -/

/-- A mapping object of the PDOs at the base names the object, at one of its sub-indices. -/
def Maps (find : MappingObjects) (base : BitVec 16) (index : BitVec 16) (subindex : BitVec 8) :
    Prop :=
  ∃ i < 256, ∃ s, 1 ≤ s ∧ s ≤ 8 ∧
    ∃ data, find (base + BitVec.ofNat 16 i) (BitVec.ofNat 8 s) = some data ∧
      mappedIndex data = index ∧ mappedSubindex data = subindex

/-- Some RPDO of the device carries the object. -/
def RpdoMapped (find : MappingObjects) (index : BitVec 16) (subindex : BitVec 8) : Prop :=
  Maps find 0x1600 index subindex

/-- Some TPDO of the device carries the object. -/
def TpdoMapped (find : MappingObjects) (index : BitVec 16) (subindex : BitVec 8) : Prop :=
  Maps find 0x1A00 index subindex

section Passes
variable {find : MappingObjects} {base index : BitVec 16} {subindex : BitVec 8}
  {mapping : PdoMapping} {map : PDOMap}

/-- A loop that writes one record keeps to the record and what was there: the record is where a
step of it is for the object. -/
theorem lookup_foldl {α : Type*} {f : PDOMap → α → PDOMap} {P : α → Prop}
    (hf : ∀ map a, (P a → (f map a).lookup index subindex = some mapping) ∧
      (¬ P a → (f map a).lookup index subindex = map.lookup index subindex))
    (l : List α) (map : PDOMap) :
    ((∃ a ∈ l, P a) → (l.foldl f map).lookup index subindex = some mapping) ∧
      ((∀ a ∈ l, ¬ P a) → (l.foldl f map).lookup index subindex = map.lookup index subindex) := by
  induction l generalizing map with
  | nil => exact ⟨fun h => by simp at h, fun _ => rfl⟩
  | cons a l ih =>
      obtain ⟨hin, hout⟩ := ih (f map a)
      rw [List.foldl_cons]
      constructor
      · rintro ⟨b, hb, hPb⟩
        by_cases hrest : ∃ b ∈ l, P b
        · exact hin hrest
        · -- the last step for the object is the first of the list
          have hnone : ∀ b ∈ l, ¬ P b := fun b hb hP => hrest ⟨b, hb, hP⟩
          rw [hout hnone]
          rcases List.mem_cons.mp hb with rfl | hb
          · exact (hf map b).1 hPb
          · exact absurd hPb (hnone b hb)
      · intro hnone
        rw [hout fun b hb => hnone b (List.mem_cons_of_mem _ hb)]
        exact (hf map a).2 (hnone a List.mem_cons_self)

/-- The slot of a mapping object names the object. -/
def Names (find : MappingObjects) (base index : BitVec 16) (subindex : BitVec 8) (i s : ℕ) : Prop :=
  ∃ data, find (base + BitVec.ofNat 16 i) (BitVec.ofNat 8 s) = some data ∧
    mappedIndex data = index ∧ mappedSubindex data = subindex

theorem lookup_fetchEntry (mapping : PdoMapping) (hindex : index ≠ 0) (i s : ℕ) (map : PDOMap) :
    (Names find base index subindex i s →
        (fetchEntry find base mapping i map s).lookup index subindex = some mapping) ∧
      (¬ Names find base index subindex i s →
        (fetchEntry find base mapping i map s).lookup index subindex =
          map.lookup index subindex) := by
  unfold fetchEntry
  cases hfind : find (base + BitVec.ofNat 16 i) (BitVec.ofNat 8 s) with
  | none =>
      constructor
      · rintro ⟨data, hdata, -⟩
        rw [hfind] at hdata
        cases hdata
      · intro _
        rfl
  | some data =>
      constructor
      · rintro ⟨data', hdata, rfl, rfl⟩
        rw [hfind] at hdata
        cases hdata
        have hne : ¬ mappedIndex data = 0#16 := hindex
        simp [hne]
      · intro hnot
        have hother : ¬(index = mappedIndex data ∧ subindex = mappedSubindex data) :=
          fun h => hnot ⟨data, hfind, h.1.symm, h.2.symm⟩
        simp only
        split
        · rfl
        · rw [PDOMap.lookup_set, if_neg hother]

theorem maps_iff : Maps find base index subindex ↔
    ∃ i ∈ List.range 256, ∃ s ∈ List.range' 1 8, Names find base index subindex i s := by
  simp only [Maps, Names, List.mem_range, List.mem_range'_1]
  constructor
  · rintro ⟨i, hi, s, hlow, hhigh, hnames⟩
    exact ⟨i, hi, s, ⟨hlow, by omega⟩, hnames⟩
  · rintro ⟨i, hi, s, ⟨hlow, hhigh⟩, hnames⟩
    exact ⟨i, hi, s, hlow, by omega, hnames⟩

/-- **A pass** writes its record for the objects that its mapping objects name, and no other. -/
theorem lookup_fetchPDO (find : MappingObjects) (base : BitVec 16) (subindex : BitVec 8)
    (mapping : PdoMapping) (hindex : index ≠ 0) (map : PDOMap) :
    (Maps find base index subindex →
        (fetchPDO find base mapping map).lookup index subindex = some mapping) ∧
      (¬ Maps find base index subindex →
        (fetchPDO find base mapping map).lookup index subindex = map.lookup index subindex) := by
  rw [maps_iff]
  have hinner (i : ℕ) (map : PDOMap) := lookup_foldl (P := Names find base index subindex i)
    (fun map s => lookup_fetchEntry mapping hindex i s map) (List.range' 1 8) map
  have houter := lookup_foldl
    (f := fun map i => (List.range' 1 8).foldl (fetchEntry find base mapping i) map)
    (P := fun i => ∃ s ∈ List.range' 1 8, Names find base index subindex i s)
    (fun map i => ⟨(hinner i map).1, fun hnone => (hinner i map).2 fun s hs hnames =>
      hnone ⟨s, hs, hnames⟩⟩) (List.range 256) map
  exact ⟨houter.1, fun hnone => houter.2 fun i hi hnames => hnone ⟨i, hi, hnames⟩⟩

/-- **The map**: the record of the second pass where it finds the object, and else that of the
first. -/
theorem lookup_createPDOMapping (find : MappingObjects) (subindex : BitVec 8)
    (hindex : index ≠ 0) :
    (TpdoMapped find index subindex →
        (createPDOMapping find).lookup index subindex = some ⟨true, false⟩) ∧
      (¬ TpdoMapped find index subindex → RpdoMapped find index subindex →
        (createPDOMapping find).lookup index subindex = some ⟨false, true⟩) ∧
      (¬ TpdoMapped find index subindex → ¬ RpdoMapped find index subindex →
        (createPDOMapping find).lookup index subindex = none) := by
  have hsecond := lookup_fetchPDO find 0x1A00 subindex ⟨true, false⟩ hindex (fetchRPDO find .empty)
  have hfirst := lookup_fetchPDO find 0x1600 subindex ⟨false, true⟩ hindex .empty
  refine ⟨hsecond.1, ?_, ?_⟩
  · intro htpdo hrpdo
    exact (hsecond.2 htpdo).trans (hfirst.1 hrpdo)
  · intro htpdo hrpdo
    exact (hsecond.2 htpdo).trans (hfirst.2 hrpdo)

theorem isTpdo_createPDOMapping (hindex : index ≠ 0) :
    (createPDOMapping find).isTpdo index subindex = true ↔ TpdoMapped find index subindex := by
  obtain ⟨hboth, hfirst, hnone⟩ := lookup_createPDOMapping find subindex hindex
  rw [PDOMap.isTpdo]
  by_cases htpdo : TpdoMapped find index subindex
  · simp [hboth htpdo, htpdo]
  · by_cases hrpdo : RpdoMapped find index subindex
    · simp [hfirst htpdo hrpdo, htpdo]
    · simp [hnone htpdo hrpdo, htpdo]

/-- The second pass overwrites what the first has written. -/
theorem isRpdo_createPDOMapping (hindex : index ≠ 0) :
    (createPDOMapping find).isRpdo index subindex = true ↔
      RpdoMapped find index subindex ∧ ¬ TpdoMapped find index subindex := by
  obtain ⟨hboth, hfirst, hnone⟩ := lookup_createPDOMapping find subindex hindex
  rw [PDOMap.isRpdo]
  by_cases htpdo : TpdoMapped find index subindex
  · simp [hboth htpdo, htpdo]
  · by_cases hrpdo : RpdoMapped find index subindex
    · simp [hfirst htpdo hrpdo, htpdo, hrpdo]
    · simp [hnone htpdo hrpdo, hrpdo]

end Passes
end RosCanopen.Bridge
