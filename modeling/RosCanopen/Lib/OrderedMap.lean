import Mathlib.Data.List.Pairwise
import Mathlib.Order.Lattice

/-!
# Maps that are iterated in the order of their keys

A finite map as the list of its entries, strictly sorted by key, which is what `std::map`
offers: `emplace` leaves an entry that is there alone, and an iteration goes through the
entries in order.

## Main definitions

* `OrderedMap`, `OrderedMap.emplace`, `OrderedMap.find?`.
* `OrderedMap.entries_foldl_emplace` — emplacing sorted entries appends them.
-/

namespace RosCanopen.Lib

universe u v

/-- A finite map with its entries sorted by key. -/
structure OrderedMap (κ : Type u) (ν : Type v) [LinearOrder κ] where
  entries : List (κ × ν)
  sorted : entries.Pairwise fun e e' => e.1 < e'.1

namespace OrderedMap
variable {κ : Type u} {ν : Type v} [LinearOrder κ]

/-- Insert an entry unless its key is there. -/
def emplaceList (k : κ) (v : ν) : List (κ × ν) → List (κ × ν)
  | [] => [(k, v)]
  | e :: es =>
      if k < e.1 then (k, v) :: e :: es
      else if e.1 < k then e :: emplaceList k v es
      else e :: es

section EmplaceList
variable {k : κ} {v : ν} {es : List (κ × ν)} {e : κ × ν}

theorem eq_or_mem_of_mem_emplaceList (h : e ∈ emplaceList k v es) : e = (k, v) ∨ e ∈ es := by
  induction es with
  | nil => exact .inl (List.mem_singleton.mp h)
  | cons e' es ih =>
      rw [emplaceList] at h
      split at h
      · exact List.mem_cons.mp h
      · split at h
        · rcases List.mem_cons.mp h with rfl | h
          · exact .inr List.mem_cons_self
          · exact (ih h).imp_right (List.mem_cons_of_mem _)
        · exact .inr h

theorem pairwise_emplaceList (h : es.Pairwise fun e e' => e.1 < e'.1) :
    (emplaceList k v es).Pairwise fun e e' => e.1 < e'.1 := by
  induction es with
  | nil => exact List.pairwise_singleton _ _
  | cons e es ih =>
      obtain ⟨hlt, hes⟩ := List.pairwise_cons.mp h
      rw [emplaceList]
      split
      · next hk =>
          refine List.pairwise_cons.mpr ⟨fun e' he' => ?_, h⟩
          rcases List.mem_cons.mp he' with rfl | he'
          · exact hk
          · exact lt_trans hk (hlt e' he')
      · split
        · next hk =>
            refine List.pairwise_cons.mpr ⟨fun e' he' => ?_, ih hes⟩
            rcases eq_or_mem_of_mem_emplaceList he' with rfl | he'
            · exact hk
            · exact hlt e' he'
        · exact h

/-- A key above all others goes to the end. -/
theorem emplaceList_of_lt (h : ∀ e ∈ es, e.1 < k) : emplaceList k v es = es ++ [(k, v)] := by
  induction es with
  | nil => rfl
  | cons e es ih =>
      have hlt := h e List.mem_cons_self
      rw [emplaceList, if_neg (not_lt_of_gt hlt), if_pos hlt, ih fun e' he' => h e' (.tail _ he')]
      rfl

end EmplaceList

def empty : OrderedMap κ ν := ⟨[], .nil⟩

/-- Insert an entry unless its key is there. -/
def emplace (m : OrderedMap κ ν) (k : κ) (v : ν) : OrderedMap κ ν :=
  ⟨emplaceList k v m.entries, pairwise_emplaceList m.sorted⟩

def find? (m : OrderedMap κ ν) (k : κ) : Option ν :=
  (m.entries.find? fun e => e.1 = k).map Prod.snd

/-- A key has one entry. -/
theorem eq_of_mem {m : OrderedMap κ ν} {k : κ} {v v' : ν} (h : (k, v) ∈ m.entries)
    (h' : (k, v') ∈ m.entries) : v = v' := by
  have hne : m.entries.Pairwise fun e e' => e.1 ≠ e'.1 := m.sorted.imp fun hlt => ne_of_lt hlt
  have hsymm : Std.Symm fun e e' : κ × ν => e.1 ≠ e'.1 := ⟨fun _ _ h => h.symm⟩
  by_contra hdiff
  exact hne.forall h h' (fun heq => hdiff (Prod.mk.inj heq).2) rfl

theorem find?_of_mem {m : OrderedMap κ ν} {k : κ} {v : ν} (h : (k, v) ∈ m.entries) :
    m.find? k = some v := by
  cases hfind : m.entries.find? fun e => e.1 = k with
  | none =>
      have hnone := List.find?_eq_none.mp hfind (k, v) h
      simp at hnone
  | some e =>
      obtain ⟨k', v'⟩ := e
      obtain rfl : k' = k := by simpa using List.find?_some hfind
      rw [find?, hfind, eq_of_mem h (List.mem_of_find?_eq_some hfind)]
      rfl

/-- **Emplacing sorted entries into a map below them appends them.** -/
theorem entries_foldl_emplace {es : List (κ × ν)} (hes : es.Pairwise fun e e' => e.1 < e'.1) :
    ∀ {m : OrderedMap κ ν}, (∀ e ∈ m.entries, ∀ e' ∈ es, e.1 < e'.1) →
      (es.foldl (fun m e => m.emplace e.1 e.2) m).entries = m.entries ++ es := by
  induction es with
  | nil =>
      intro m _
      exact (List.append_nil _).symm
  | cons e es ih =>
      intro m hm
      obtain ⟨hlt, hes⟩ := List.pairwise_cons.mp hes
      have hemplace : (m.emplace e.1 e.2).entries = m.entries ++ [e] :=
        emplaceList_of_lt fun e' he' => hm e' he' e List.mem_cons_self
      rw [List.foldl_cons, ih hes, hemplace, List.append_assoc]
      · rfl
      · intro e' he' e'' he''
        rw [hemplace] at he'
        rcases List.mem_append.mp he' with he' | he'
        · exact hm e' he' e'' (.tail _ he'')
        · rw [List.mem_singleton.mp he']
          exact hlt e'' he''

end OrderedMap
end RosCanopen.Lib
