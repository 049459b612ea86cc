import RosCanopen.Core.Lifecycle
import Mathlib.Logic.Function.Basic

/-!
# Bringing the nodes down and up again

The services are answered by nodes that follow the ROS 2 lifecycle: a transition succeeds
exactly from its source state.  Whatever states the nodes are in, `bring_down_all` leaves all
of them unconfigured, and `bring_up_all` then leaves all of them active.

## Main definitions

* `Primary`, `Primary.next` — the primary states, and the transitions between them.
* `Nodes.answer` — the nodes as the environment of a service program.
-/

namespace RosCanopen.Core

open Lib

/-- The primary states of a lifecycle node, but for `finalized`. -/
inductive Primary
  | unconfigured
  | inactive
  | active
  deriving DecidableEq

namespace Primary

/-- The id by which a state is reported. -/
def id : Primary → StateId
  | unconfigured => StateId.unconfigured
  | inactive => StateId.inactive
  | active => StateId.active

/-- Where a transition leads, from its source state. -/
def next : Primary → Transition → Option Primary
  | unconfigured, .configure => some inactive
  | inactive, .cleanup => some unconfigured
  | inactive, .activate => some active
  | active, .deactivate => some inactive
  | _, _ => none

/-- The state after a request; one that is refused changes nothing. -/
def after (p : Primary) (t : Transition) : Primary := (p.next t).getD p

theorem after_down (p : Primary) : (p.after .deactivate).after .cleanup = unconfigured := by
  cases p <;> rfl

end Primary

/-- The state of every node. -/
abbrev Nodes := BitVec 8 → Primary

namespace Nodes

/-- The answer to a call, and the nodes after it. -/
def answer : (q : Query) → Nodes → q.Answer × Nodes
  | .getState node, s => (.answered (s node).id, s)
  | .changeState node t, s =>
      (.answered ((s node).next t).isSome, Function.update s node ((s node).after t))

/-- The nodes of the list in one state. -/
def assign (s : Nodes) (ids : List (BitVec 8)) (p : Primary) : Nodes :=
  fun id => if id ∈ ids then p else s id

section Assign
variable {s : Nodes} {ids ids' : List (BitVec 8)} {p p' : Primary} {id : BitVec 8}

theorem assign_of_mem (h : id ∈ ids) : s.assign ids p id = p := if_pos h

theorem assign_of_not_mem (h : id ∉ ids) : s.assign ids p id = s id := if_neg h

theorem assign_congr (h : ∀ id, id ∈ ids ↔ id ∈ ids') : s.assign ids p = s.assign ids' p := by
  funext id
  simp only [assign, h]

theorem assign_update : assign (Function.update s id p) ids p = s.assign (id :: ids) p := by
  funext id'
  by_cases hid : id' = id
  · simp [assign, hid]
  · simp [assign, hid]

theorem update_assign : Function.update (s.assign ids p) id p = s.assign (id :: ids) p := by
  funext id'
  by_cases hid : id' = id
  · simp [assign, hid]
  · simp [assign, hid]

/-- The later assignment counts. -/
theorem assign_assign : (s.assign ids p).assign ids p' = s.assign ids p' := by
  funext id
  by_cases hid : id ∈ ids
  · rw [assign_of_mem hid, assign_of_mem hid]
  · rw [assign_of_not_mem hid, assign_of_not_mem hid, assign_of_not_mem hid]

end Assign
end Nodes

section Services
variable (node : BitVec 8) (t : Transition) (s : Nodes)

@[simp] theorem eval_getState : (getState node).eval Nodes.answer s = ((s node).id, s) := rfl

@[simp] theorem eval_changeState : (changeState node t).eval Nodes.answer s =
    (((s node).next t).isSome, Function.update s node ((s node).after t)) := rfl

end Services

namespace LifecycleManager
variable {m : LifecycleManager} {name : String} {id : BitVec 8} {s : Nodes}

/-- The ids of all devices. -/
def ids (m : LifecycleManager) : List (BitVec 8) := m.deviceNamesToIds.entries.map Prod.snd

/-- What a round of a loop does to the nodes. -/
def put (p : Primary) (s : Nodes) (e : String × BitVec 8) : Nodes :=
  if e.1 ≠ "master" then Function.update s e.2 p else s

theorem foldl_put (p : Primary) (devices : List (String × BitVec 8)) (s : Nodes) :
    devices.foldl (put p) s = s.assign (driverIds devices) p := by
  induction devices generalizing s with
  | nil => rfl
  | cons e devices ih =>
      rw [List.foldl_cons, ih, put]
      by_cases hname : e.1 = "master"
      · rw [if_neg (not_not.mpr hname), driverIds_cons_master hname]
      · rw [if_pos hname, Nodes.assign_update, driverIds_cons hname]

theorem Managed.mem_ids_iff (hm : m.Managed) :
    id ∈ m.ids ↔ id ∈ m.masterId :: driverIds m.deviceNamesToIds.entries := by
  simp only [ids, driverIds, List.mem_cons, List.mem_map, List.mem_filter]
  constructor
  · rintro ⟨⟨name, id'⟩, hmem, rfl⟩
    by_cases hname : name = "master"
    · subst hname
      exact .inl (OrderedMap.eq_of_mem hmem hm.master)
    · exact .inr ⟨_, ⟨hmem, by simpa using hname⟩, rfl⟩
  · rintro (rfl | ⟨e, ⟨hmem, -⟩, rfl⟩)
    · exact ⟨_, hm.master, rfl⟩
    · exact ⟨e, hmem, rfl⟩

/-! ## Down -/

theorem eval_bringDownMaster (m : LifecycleManager) (s : Nodes) :
    m.bringDownMaster.eval Nodes.answer s =
      (true, Function.update s m.masterId .unconfigured) := by
  simp [bringDownMaster, Primary.after_down, Primary.id]

theorem eval_bringDownDriver (hmem : (name, id) ∈ m.deviceNamesToIds.entries) (s : Nodes) :
    (m.bringDownDriver name).eval Nodes.answer s =
      (true, Function.update s id .unconfigured) := by
  simp [bringDownDriver, idOf_of_mem hmem, Primary.after_down, Primary.id]

/-- A bring-down succeeds from any states. -/
theorem eval_bringDownAll (hm : m.Managed) (s : Nodes) :
    m.bringDownAll.eval Nodes.answer s = (true, s.assign m.ids .unconfigured) := by
  have hround : ∀ e rest s, (∀ e' ∈ e :: rest, e' ∈ m.deviceNamesToIds.entries) →
      (if e.1 ≠ "master" then m.bringDownDriver e.1 else return true).eval Nodes.answer s =
        (true, put .unconfigured s e) ∧ ∀ e' ∈ rest, e' ∈ m.deviceNamesToIds.entries := by
    refine fun e rest s hmem => ⟨?_, fun e' he' => hmem e' (.tail _ he')⟩
    by_cases hname : e.1 = "master"
    · rw [if_neg (not_not.mpr hname), put, if_neg (not_not.mpr hname)]
      rfl
    · rw [if_pos hname, put, if_pos hname]
      exact eval_bringDownDriver (hmem e List.mem_cons_self) s
  have hloop := Prog.eval_allM Nodes.answer (I := fun rest _ => ∀ e ∈ rest, e ∈ _) hround _
    (s := s) fun e he => he
  rw [bringDownAll, Prog.monad_bind_eq, Prog.eval_bind, hloop, foldl_put]
  show m.bringDownMaster.eval Nodes.answer _ = _
  rw [eval_bringDownMaster, Nodes.update_assign, Nodes.assign_congr fun id => hm.mem_ids_iff]

/-! ## Up -/

theorem eval_bringUpMaster (hmaster : s m.masterId = .unconfigured) :
    m.bringUpMaster.eval Nodes.answer s = (true, Function.update s m.masterId .active) := by
  simp [bringUpMaster, hmaster, Primary.id, Primary.after, Primary.next]

theorem eval_bringUpDriver (hmem : (name, id) ∈ m.deviceNamesToIds.entries)
    (hmaster : s m.masterId = .active) (hid : s id = .unconfigured) :
    (m.bringUpDriver name).eval Nodes.answer s = (true, Function.update s id .active) := by
  simp [bringUpDriver, idOf_of_mem hmem, hmaster, hid, Primary.id, Primary.after, Primary.next]

/-- What the loop of `bring_up_all` needs of the nodes. -/
structure Ready (m : LifecycleManager) (rest : List (String × BitVec 8)) (s : Nodes) : Prop where
  devices : ∀ e ∈ rest, e ∈ m.deviceNamesToIds.entries
  distinct : rest.Pairwise fun e e' => e.2 ≠ e'.2
  master : s m.masterId = .active
  drivers : ∀ e ∈ rest, e.1 ≠ "master" → s e.2 = .unconfigured

theorem Ready.put (hm : m.Managed) {e : String × BitVec 8} {rest : List (String × BitVec 8)}
    (hready : Ready m (e :: rest) s) : Ready m rest (put .active s e) := by
  obtain ⟨hdevices, hdistinct, hmaster, hdrivers⟩ := hready
  obtain ⟨hne, hdistinct⟩ := List.pairwise_cons.mp hdistinct
  refine ⟨fun e' he' => hdevices e' (.tail _ he'), hdistinct, ?_, fun e' he' hname' => ?_⟩
  · rw [LifecycleManager.put]
    split
    · next hname =>
        have hne := hm.ne_master (hdevices e List.mem_cons_self) hname
        rw [Function.update_of_ne hne.symm, hmaster]
    · exact hmaster
  · rw [LifecycleManager.put]
    have hunconfigured := hdrivers e' (.tail _ he') hname'
    split
    · rw [Function.update_of_ne (hne e' he').symm, hunconfigured]
    · exact hunconfigured

/-- A bring-up succeeds when every node is unconfigured. -/
theorem eval_bringUpAll (hm : m.Managed) (hs : ∀ id ∈ m.ids, s id = .unconfigured) :
    m.bringUpAll.eval Nodes.answer s = (true, s.assign m.ids .active) := by
  have hround : ∀ e rest s, Ready m (e :: rest) s →
      (if Contains "master" e.1 then return true else m.bringUpDriver e.1).eval Nodes.answer s =
        (true, put .active s e) ∧ Ready m rest (put .active s e) := by
    refine fun e rest s hready => ⟨?_, hready.put hm⟩
    have hmem := hready.devices e List.mem_cons_self
    by_cases hname : e.1 = "master"
    · rw [hname, if_pos (Contains.refl _), put, if_neg (not_not.mpr hname)]
      rfl
    · rw [if_neg (hm.named _ _ hmem hname), put, if_pos hname]
      exact eval_bringUpDriver hmem hready.master (hready.drivers e List.mem_cons_self hname)
  have hready : Ready m m.deviceNamesToIds.entries (Function.update s m.masterId .active) := by
    refine ⟨fun e he => he, hm.distinct, Function.update_self .., fun e he hname => ?_⟩
    rw [Function.update_of_ne (hm.ne_master he hname)]
    exact hs e.2 (List.mem_map_of_mem he)
  rw [bringUpAll, Prog.monad_bind_eq, Prog.eval_bind,
    eval_bringUpMaster (hs _ (List.mem_map_of_mem hm.master))]
  refine (Prog.eval_allM Nodes.answer hround _ hready).trans ?_
  rw [foldl_put, Nodes.assign_update, Nodes.assign_congr fun id => hm.mem_ids_iff]

/-! ## Down and up again -/

theorem mem_ids_loadFromConfig {config : ConfigurationManager} {masterId : BitVec 8}
    {e : String × Device} (he : e ∈ config.entries) (hid : e.2.nodeIdAs 8 = some id) :
    id ∈ (loadFromConfig ⟨.empty, masterId⟩ config).ids := by
  rw [ids, entries_loadFromConfig]
  exact List.mem_map.mpr ⟨(e.1, id), mem_namesToIds.mpr ⟨e.2, he, hid⟩, rfl⟩

/-- **From any states of the nodes** a bring-down leaves all of them unconfigured, a second one
changes nothing, and a bring-up then leaves all of them active. -/
theorem bringUp_after_bringDown {config : ConfigurationManager} {master : BitVec 8}
    (hvalid : config.Valid master) (hsole : config.SoleMaster) (masterId : BitVec 8)
    (s : Nodes) : ∃ down up : Nodes,
      let m := loadFromConfig ⟨.empty, masterId⟩ config
      m.bringDownAll.eval Nodes.answer s = (true, down) ∧
      (∀ e ∈ config.entries, ∀ id, e.2.nodeIdAs 8 = some id → down id = .unconfigured) ∧
      m.bringDownAll.eval Nodes.answer down = (true, down) ∧
      m.bringUpAll.eval Nodes.answer down = (true, up) ∧
      ∀ e ∈ config.entries, ∀ id, e.2.nodeIdAs 8 = some id → up id = .active := by
  have hm := managed_loadFromConfig hvalid hsole masterId
  refine ⟨_, _, eval_bringDownAll hm s, fun e he id hid => ?_, ?_,
    eval_bringUpAll hm fun id hid => Nodes.assign_of_mem hid, fun e he id hid => ?_⟩
  · exact Nodes.assign_of_mem (mem_ids_loadFromConfig he hid)
  · rw [eval_bringDownAll hm, Nodes.assign_assign]
  · exact Nodes.assign_of_mem (mem_ids_loadFromConfig he hid)

/-- The arm is active although its master is not. -/
theorem bringUp_after_bringDown_arm : ∃ down up : Nodes,
    let m := loadFromConfig ⟨.empty, 0⟩ armConfig
    m.bringDownAll.eval Nodes.answer (fun id => if id = 2 then .active else .inactive) =
      (true, down) ∧ down 1 = .unconfigured ∧ down 2 = .unconfigured ∧
    m.bringUpAll.eval Nodes.answer down = (true, up) ∧ up 1 = .active ∧ up 2 = .active := by
  obtain ⟨down, up, hdown, hlow, -, hup, hhigh⟩ :=
    bringUp_after_bringDown valid_armConfig soleMaster_armConfig 0
      fun id => if id = 2 then .active else .inactive
  exact ⟨down, up, hdown, hlow _ (.tail _ (.head _)) 1 rfl, hlow _ (.head _) 2 rfl, hup,
    hhigh _ (.tail _ (.head _)) 1 rfl, hhigh _ (.head _) 2 rfl⟩

end LifecycleManager
end RosCanopen.Core
