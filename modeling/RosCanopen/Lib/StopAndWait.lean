import Mathlib.Data.List.Basic
import Mathlib.Order.Nat

/-!
# Stop and wait over two queues

A commander moves a follower along a path of places, one place at a time.  It acts on a
place that it has been told of, by ordering the place after it, and repeats its last order
as often as it likes.  Orders are queued on their way to the follower and reports on their
way back; a report may be repeated, or overwritten before it is looked at.

Everything in flight lies in a window of width one: the reports are sorted, then comes the
place of the follower, then come the orders, sorted, and the last order is at most one
place after the one that was last acted on.  So the follower never goes back, and never
more than one place forward.

## Main definitions

* `Draws` — to be drawn from a list in its order, with repetitions and omissions.
* `Window` — the places that are in flight.
* `Window.Inv` — they lie in a window of width one.
-/

namespace RosCanopen.Lib

universe u v

variable {α : Type u} {β : Type v}

/-! ## Drawing from a queue -/

/-- `Draws l' l`: the elements of `l'` are looked at in the order of `l`, each as often as
one likes. -/
inductive Draws : List α → List α → Prop
  | nil (l : List α) : Draws [] l
  | skip {l l' : List α} (a : α) (h : Draws l' l) : Draws l' (a :: l)
  | take {l l' : List α} {a : α} (h : Draws l' (a :: l)) : Draws (a :: l') (a :: l)

namespace Draws

variable {l l' : List α}

/-- Each element once. -/
theorem cons (a : α) (h : Draws l' l) : Draws (a :: l') (a :: l) := .take (.skip a h)

theorem refl : ∀ l : List α, Draws l l
  | [] => .nil []
  | a :: l => .cons a (refl l)

/-- What comes first is left out. -/
theorem drop (k : List α) (h : Draws l' l) : Draws l' (k ++ l) := by
  induction k with
  | nil => exact h
  | cons a k ih => exact .skip a ih

theorem append_left (k : List α) (h : Draws l' l) : Draws (k ++ l') (k ++ l) := by
  induction k with
  | nil => exact h
  | cons a k ih => exact .cons a ih

theorem subset (h : Draws l' l) : l' ⊆ l := by
  induction h with
  | nil l => exact List.nil_subset l
  | skip a _ ih => exact List.subset_cons_of_subset a ih
  | take _ ih => exact List.cons_subset.mpr ⟨List.mem_cons_self, ih⟩

/-- What is sorted stays so. -/
theorem pairwise {r : α → α → Prop} (hrefl : ∀ a, r a a) (h : Draws l' l)
    (hl : l.Pairwise r) : l'.Pairwise r := by
  induction h with
  | nil l => exact .nil
  | skip a _ ih => exact ih (List.pairwise_cons.mp hl).2
  | @take l l' a h ih =>
      refine List.pairwise_cons.mpr ⟨?_, ih hl⟩
      intro b hb
      rcases List.mem_cons.mp (h.subset hb) with rfl | hb
      · exact hrefl b
      · exact (List.pairwise_cons.mp hl).1 b hb

/-- What is drawn from images is the image of what is drawn. -/
theorem exists_map {f : α → β} {k : List β} (h : Draws k (l.map f)) :
    ∃ l', Draws l' l ∧ k = l'.map f := by
  generalize hm : l.map f = m at h
  induction h generalizing l with
  | nil => exact ⟨[], .nil l, rfl⟩
  | skip b _ ih =>
      obtain ⟨a, l, rfl, rfl, rfl⟩ := List.map_eq_cons_iff.mp hm
      obtain ⟨l', hl', rfl⟩ := ih rfl
      exact ⟨l', .skip a hl', rfl⟩
  | take _ ih =>
      obtain ⟨l', hl', rfl⟩ := ih hm
      obtain ⟨a, l, rfl, rfl, rfl⟩ := List.map_eq_cons_iff.mp hm
      exact ⟨a :: l', .take hl', rfl⟩

end Draws

/-! ## The window -/

/-- The places in flight between a commander and its follower. -/
structure Window where
  /-- The place that the commander has last acted on. -/
  acted : ℕ
  /-- What it has been told or is still being told, the oldest report first. -/
  reports : List ℕ
  /-- Where the follower is. -/
  place : ℕ
  /-- The orders on their way, the oldest first. -/
  orders : List ℕ
  /-- The order in force. -/
  order : ℕ

namespace Window

/-- All places in flight are sorted, and lie in a window of width one. -/
structure Inv (w : Window) : Prop where
  acted_le : ∀ r ∈ w.reports, w.acted ≤ r
  reports : w.reports.Pairwise (· ≤ ·)
  le_place : ∀ r ∈ w.reports, r ≤ w.place
  acted_le_place : w.acted ≤ w.place
  place_le : ∀ c ∈ w.orders, w.place ≤ c
  orders : w.orders.Pairwise (· ≤ ·)
  le_order : ∀ c ∈ w.orders, c ≤ w.order
  place_le_order : w.place ≤ w.order
  narrow : w.order ≤ w.acted + 1

/-- From the one window to the other the commander has not acted, and the follower has not
gone back. -/
structure Idle (w w' : Window) : Prop where
  acted : w'.acted = w.acted
  order : w'.order = w.order
  place : w.place ≤ w'.place

theorem Idle.refl (w : Window) : w.Idle w := ⟨rfl, rfl, le_rfl⟩

/-- Both sides at rest in one place. -/
def rest (n : ℕ) : Window := ⟨0, List.replicate n 0, 0, [], 0⟩

theorem inv_rest (n : ℕ) : (rest n).Inv where
  acted_le r _ := Nat.zero_le r
  reports := List.pairwise_replicate.mpr (.inr le_rfl)
  le_place r hr := (List.eq_of_mem_replicate hr).le
  acted_le_place := le_rfl
  place_le := by simp [rest]
  orders := .nil
  le_order := by simp [rest]
  place_le_order := le_rfl
  narrow := Nat.zero_le _

variable {w : Window}

/-- The commander looks at its reports. -/
theorem Inv.look (hw : w.Inv) {l : List ℕ} (hl : Draws l w.reports) :
    { w with reports := l }.Inv :=
  { hw with
    acted_le := fun r hr => hw.acted_le r (hl.subset hr)
    reports := hl.pairwise le_refl hw.reports
    le_place := fun r hr => hw.le_place r (hl.subset hr) }

/-- The follower reports its place. -/
theorem Inv.report (hw : w.Inv) : { w with reports := w.reports ++ [w.place] }.Inv := by
  have hmem : ∀ r ∈ w.reports ++ [w.place], r ∈ w.reports ∨ r = w.place := by
    intro r hr
    simpa using hr
  refine { hw with acted_le := ?_, reports := ?_, le_place := ?_ }
  · intro r hr
    rcases hmem r hr with hr | rfl
    · exact hw.acted_le r hr
    · exact hw.acted_le_place
  · refine List.pairwise_append.mpr ⟨hw.reports, List.pairwise_singleton _ _, ?_⟩
    intro r hr p hp
    rw [List.mem_singleton.mp hp]
    exact hw.le_place r hr
  · intro r hr
    rcases hmem r hr with hr | rfl
    · exact hw.le_place r hr
    · exact le_rfl

/-- The order in force is sent once more. -/
theorem Inv.send (hw : w.Inv) : { w with orders := w.orders ++ [w.order] }.Inv := by
  have hmem : ∀ c ∈ w.orders ++ [w.order], c ∈ w.orders ∨ c = w.order := by
    intro c hc
    simpa using hc
  refine { hw with place_le := ?_, orders := ?_, le_order := ?_ }
  · intro c hc
    rcases hmem c hc with hc | rfl
    · exact hw.place_le c hc
    · exact hw.place_le_order
  · refine List.pairwise_append.mpr ⟨hw.orders, List.pairwise_singleton _ _, ?_⟩
    intro c hc o ho
    rw [List.mem_singleton.mp ho]
    exact hw.le_order c hc
  · intro c hc
    rcases hmem c hc with hc | rfl
    · exact hw.le_order c hc
    · exact le_rfl

section Deliver
variable {c : ℕ} {cs : List ℕ}

/-- **An order that arrives is for the place of the follower or for the next one.** -/
theorem Inv.next (hw : w.Inv) (h : w.orders = c :: cs) : c = w.place ∨ c = w.place + 1 := by
  have hc : c ∈ w.orders := h ▸ List.mem_cons_self
  have hlow := hw.place_le c hc
  have hhigh := hw.le_order c hc
  have hnarrow := hw.narrow
  have hacted := hw.acted_le_place
  omega

/-- The follower obeys. -/
theorem Inv.deliver (hw : w.Inv) (h : w.orders = c :: cs) :
    { w with place := c, orders := cs }.Inv := by
  have hc : c ∈ w.orders := h ▸ List.mem_cons_self
  have hrest : ∀ d ∈ cs, d ∈ w.orders := fun d hd => h ▸ List.mem_cons_of_mem c hd
  have hplace := hw.place_le c hc
  have hsorted := List.pairwise_cons.mp (h ▸ hw.orders)
  exact
    { hw with
      le_place := fun r hr => (hw.le_place r hr).trans hplace
      acted_le_place := hw.acted_le_place.trans hplace
      place_le := hsorted.1
      orders := hsorted.2
      le_order := fun d hd => hw.le_order d (hrest d hd)
      place_le_order := hw.le_order c hc }

end Deliver

/-- The commander acts on the oldest report. -/
theorem Inv.act (hw : w.Inv) {v : ℕ} {rs : List ℕ} (h : w.reports = v :: rs) :
    { w with acted := v, reports := rs, order := v + 1 }.Inv := by
  have hv : v ∈ w.reports := h ▸ List.mem_cons_self
  have hrest : ∀ r ∈ rs, r ∈ w.reports := fun r hr => h ▸ List.mem_cons_of_mem v hr
  have hsorted := List.pairwise_cons.mp (h ▸ hw.reports)
  have horder : w.order ≤ v + 1 := hw.narrow.trans (Nat.succ_le_succ (hw.acted_le v hv))
  exact
    { hw with
      acted_le := hsorted.1
      reports := hsorted.2
      le_place := fun r hr => hw.le_place r (hrest r hr)
      acted_le_place := hw.le_place v hv
      le_order := fun c hc => (hw.le_order c hc).trans horder
      place_le_order := hw.place_le_order.trans horder
      narrow := le_rfl }

end Window
end RosCanopen.Lib
