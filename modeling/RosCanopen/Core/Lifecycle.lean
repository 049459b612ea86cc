import RosCanopen.Core.Configuration
import RosCanopen.Lib.Prog

/-!
# The lifecycle manager

`LifecycleManager` brings the nodes of master and drivers up and down through their
lifecycle services.  Its functions are programs over the calls of the two services; a call
finds no service, gets no answer in time, or is answered.

## Main definitions

* `Query`, `Outcome` — the service calls.
* `LifecycleManager.bringUpAll`, `LifecycleManager.bringDownAll`, and what they call.
* `UpOrdered`, `DownOrdered` — the order of the transition requests.
-/

namespace RosCanopen.Core

open Lib

/-- `lifecycle_msgs::msg::State::id` -/
abbrev StateId := BitVec 8

namespace StateId

abbrev unknown : StateId := 0
abbrev unconfigured : StateId := 1
abbrev inactive : StateId := 2
abbrev active : StateId := 3

end StateId

/-- The transitions of `lifecycle_msgs::msg::Transition` that are requested. -/
inductive Transition
  | configure
  | cleanup
  | activate
  | deactivate
  deriving DecidableEq

/-- What becomes of a service call. -/
inductive Outcome (α : Type)
  | unavailable
  | timedOut
  | answered (a : α)
  deriving DecidableEq

/-- The service calls, by the id of the node they go to. -/
inductive Query
  | getState (node : BitVec 8)
  | changeState (node : BitVec 8) (transition : Transition)
  deriving DecidableEq

/-- What a call is answered with. -/
abbrev Query.Answer : Query → Type
  | .getState _ => Outcome StateId
  | .changeState _ _ => Outcome Bool

abbrev Service := Prog Query Query.Answer

/-- The calls that were made, and what became of them, newest first. -/
abbrev Calls := Asked Query Query.Answer

/-- The state that `get_state` returns. -/
def Outcome.state : Outcome StateId → StateId
  | .answered id => id
  | _ => StateId.unknown

/-- What `change_state` returns. -/
def Outcome.success : Outcome Bool → Bool
  | .answered b => b
  | _ => false

def getState (node : BitVec 8) : Service StateId :=
  .ask (.getState node) fun r => .pure (Outcome.state r)

def changeState (node : BitVec 8) (transition : Transition) : Service Bool :=
  .ask (.changeState node transition) fun r => .pure (Outcome.success r)

structure LifecycleManager where
  deviceNamesToIds : OrderedMap String (BitVec 8)
  masterId : BitVec 8

namespace LifecycleManager

/-- The loop of `load_from_config`. -/
def loadDevices (m : LifecycleManager) : List (String × Device) → LifecycleManager
  | [] => m
  | (name, d) :: devices =>
      match d.nodeIdAs 8 with
      | none => m.loadDevices devices
      | some id =>
          loadDevices
            { deviceNamesToIds := m.deviceNamesToIds.emplace name id
              masterId := if Contains "master" name then id else m.masterId }
            devices

def loadFromConfig (m : LifecycleManager) (config : ConfigurationManager) : LifecycleManager :=
  m.loadDevices config.entries

/-- `device_names_to_ids[device_name]` -/
def idOf (m : LifecycleManager) (name : String) : BitVec 8 := (m.deviceNamesToIds.find? name).getD 0

def bringUpMaster (m : LifecycleManager) : Service Bool := do
  let state ← getState m.masterId
  if state ≠ StateId.unconfigured then return false
  if !(← changeState m.masterId .configure) then return false
  if !(← changeState m.masterId .activate) then return false
  return true

def bringDownMaster (m : LifecycleManager) : Service Bool := do
  let _ ← changeState m.masterId .deactivate
  let _ ← changeState m.masterId .cleanup
  let state ← getState m.masterId
  if state ≠ StateId.unconfigured then return false
  return true

def bringUpDriver (m : LifecycleManager) (name : String) : Service Bool := do
  let node := m.idOf name
  let masterState ← getState m.masterId
  if masterState ≠ StateId.active then return false
  let state ← getState node
  if state ≠ StateId.unconfigured then return false
  if !(← changeState node .configure) then return false
  if !(← changeState node .activate) then return false
  return true

def bringDownDriver (m : LifecycleManager) (name : String) : Service Bool := do
  let node := m.idOf name
  let _ ← changeState node .deactivate
  let _ ← changeState node .cleanup
  let state ← getState node
  if state ≠ StateId.unconfigured then return false
  return true

/-- The loops go through `device_names_to_ids` in order and end with the first failure. -/
def bringUpAll (m : LifecycleManager) : Service Bool := do
  if !(← m.bringUpMaster) then return false
  m.deviceNamesToIds.entries.allM fun device =>
    if Contains "master" device.1 then return true else m.bringUpDriver device.1

def bringDownAll (m : LifecycleManager) : Service Bool := do
  let down ← m.deviceNamesToIds.entries.allM fun device =>
    if device.1 ≠ "master" then m.bringDownDriver device.1 else return true
  if !down then return false
  m.bringDownMaster

end LifecycleManager

/-! ## The order of the requests -/

/-- The node has answered with the state. -/
abbrev stateCall (node : BitVec 8) (id : StateId) : (q : Query) × q.Answer :=
  ⟨.getState node, .answered id⟩

/-- The node has accepted the transition. -/
abbrev acceptedCall (node : BitVec 8) (t : Transition) : (q : Query) × q.Answer :=
  ⟨.changeState node t, .answered true⟩

/-- A step that fails: a transition that is not accepted, or a state other than the one that
is asked for.  The first state asked for is the master's, before it is brought up. -/
def Fails (master : BitVec 8) (call : (q : Query) × q.Answer) (before : Calls) : Prop :=
  match call with
  | ⟨.changeState _ _, r⟩ => r ≠ Outcome.answered true
  | ⟨.getState node, r⟩ => r ≠ Outcome.answered
      (if node = master ∧ before ≠ [] then StateId.active else StateId.unconfigured)

/-- No step has failed yet. -/
abbrev Clean (master : BitVec 8) : Calls → Prop :=
  Historically fun call before => ¬ Fails master call before

/-- Master before drivers, each driver step by step, and nothing after a failure. -/
def UpOrdered (master : BitVec 8) (before : Calls) : Query → Prop
  | .getState _ => True
  | .changeState node t =>
      Clean master before ∧ (node ≠ master →
        (t = .configure → ∃ old, before = stateCall node StateId.unconfigured ::
            stateCall master StateId.active :: old ∧
          acceptedCall master .configure ∈ old ∧ acceptedCall master .activate ∈ old) ∧
        (t = .activate → ∃ old, before = acceptedCall node .configure :: old))

/-- Drivers before the master. -/
def DownOrdered (master : BitVec 8) (isDriver : BitVec 8 → Prop) (before : Calls) : Query → Prop
  | .getState _ => True
  | .changeState node t => node = master → t = .deactivate ∨ t = .cleanup →
      ∀ id, isDriver id → stateCall id StateId.unconfigured ∈ before

/-! ## Steps of the programs -/

section Steps
variable {ok : Calls → Query → Prop} {post : Bool → Calls → Prop} {h : Calls}

theorem eq_answered_of_state {r : Outcome StateId} {id : StateId} (hid : id ≠ StateId.unknown)
    (hr : r.state = id) : r = .answered id := by
  cases r with
  | answered id' => exact congrArg _ hr
  | unavailable => exact absurd hr.symm hid
  | timedOut => exact absurd hr.symm hid

theorem eq_answered_of_success {r : Outcome Bool} (hr : r.success = true) :
    r = .answered true := by
  cases r with
  | answered b => exact congrArg _ hr
  | unavailable => contradiction
  | timedOut => contradiction

/-- A state is asked for, and the rest is left out unless it is the one wanted. -/
theorem wp_requireState {node : BitVec 8} {id : StateId} {rest : Service Bool}
    (hid : id ≠ StateId.unknown) (hok : ok h (.getState node))
    (hfail : ∀ r, post false (⟨.getState node, r⟩ :: h))
    (hrest : rest.wp ok post (stateCall node id :: h)) :
    ((getState node).bind fun state => if state ≠ id then Prog.pure false else rest).wp
      ok post h := by
  rw [Prog.wp_bind]
  refine ⟨hok, fun r => ?_⟩
  by_cases hr : Outcome.state r = id
  · obtain rfl := eq_answered_of_state hid hr
    rw [Prog.wp_pure, if_neg (not_not.mpr hr)]
    exact hrest
  · rw [Prog.wp_pure, if_pos hr]
    exact hfail r

/-- A transition is requested, and the rest is left out unless it is accepted. -/
theorem wp_requireChange {node : BitVec 8} {t : Transition} {rest : Service Bool}
    (hok : ok h (.changeState node t)) (hfail : ∀ r, post false (⟨.changeState node t, r⟩ :: h))
    (hrest : rest.wp ok post (acceptedCall node t :: h)) :
    ((changeState node t).bind fun b => if (!b) = true then Prog.pure false else rest).wp
      ok post h := by
  rw [Prog.wp_bind]
  refine ⟨hok, fun r => ?_⟩
  by_cases hr : Outcome.success r = true
  · obtain rfl := eq_answered_of_success hr
    exact hrest
  · rw [Prog.wp_pure, if_pos (by simpa using hr)]
    exact hfail r

end Steps

namespace LifecycleManager

theorem idOf_of_mem {m : LifecycleManager} {name : String} {id : BitVec 8}
    (hmem : (name, id) ∈ m.deviceNamesToIds.entries) : m.idOf name = id := by
  rw [idOf, OrderedMap.find?_of_mem hmem]
  rfl

/-! ## What the programs for one node do

The condition on a state call is taken to hold at any time, and the result `false` to be
fine with any history. -/

section Node
variable {ok : Calls → Query → Prop} {post : Bool → Calls → Prop} {m : LifecycleManager}
  {name : String} {id : BitVec 8} {h : Calls}

theorem wp_bringUpMaster (hget : ∀ h node, ok h (.getState node)) (hfail : ∀ h, post false h)
    (hconfigure : ok (stateCall m.masterId StateId.unconfigured :: h)
      (.changeState m.masterId .configure))
    (hactivate : ok (acceptedCall m.masterId .configure ::
      stateCall m.masterId StateId.unconfigured :: h) (.changeState m.masterId .activate))
    (hup : post true (acceptedCall m.masterId .activate :: acceptedCall m.masterId .configure ::
      stateCall m.masterId StateId.unconfigured :: h)) :
    m.bringUpMaster.wp ok post h := by
  refine wp_requireState (by decide) (hget _ _) (fun _ => hfail _) ?_
  refine wp_requireChange hconfigure (fun _ => hfail _) ?_
  refine wp_requireChange hactivate (fun _ => hfail _) ?_
  exact hup

theorem wp_bringUpDriver (hmem : (name, id) ∈ m.deviceNamesToIds.entries)
    (hget : ∀ h node, ok h (.getState node)) (hfail : ∀ h, post false h)
    (hconfigure : ok (stateCall id StateId.unconfigured ::
      stateCall m.masterId StateId.active :: h) (.changeState id .configure))
    (hactivate : ok (acceptedCall id .configure :: stateCall id StateId.unconfigured ::
      stateCall m.masterId StateId.active :: h) (.changeState id .activate))
    (hup : post true (acceptedCall id .activate :: acceptedCall id .configure ::
      stateCall id StateId.unconfigured :: stateCall m.masterId StateId.active :: h)) :
    (m.bringUpDriver name).wp ok post h := by
  rw [bringUpDriver, idOf_of_mem hmem]
  refine wp_requireState (by decide) (hget _ _) (fun _ => hfail _) ?_
  refine wp_requireState (by decide) (hget _ _) (fun _ => hfail _) ?_
  refine wp_requireChange hconfigure (fun _ => hfail _) ?_
  refine wp_requireChange hactivate (fun _ => hfail _) ?_
  exact hup

/-- The answers to the requests do not count. -/
theorem wp_bringDownMaster (hget : ∀ h node, ok h (.getState node)) (hfail : ∀ h, post false h)
    (hdeactivate : ok h (.changeState m.masterId .deactivate))
    (hcleanup : ∀ r, ok (⟨.changeState m.masterId .deactivate, r⟩ :: h)
      (.changeState m.masterId .cleanup))
    (hdown : ∀ r r', post true (stateCall m.masterId StateId.unconfigured ::
      ⟨.changeState m.masterId .cleanup, r'⟩ :: ⟨.changeState m.masterId .deactivate, r⟩ :: h)) :
    m.bringDownMaster.wp ok post h := by
  refine ⟨hdeactivate, fun r => ⟨hcleanup r, fun r' => ?_⟩⟩
  exact wp_requireState (by decide) (hget _ _) (fun _ => hfail _) (hdown r r')

theorem wp_bringDownDriver (hmem : (name, id) ∈ m.deviceNamesToIds.entries)
    (hget : ∀ h node, ok h (.getState node)) (hfail : ∀ h, post false h)
    (hdeactivate : ok h (.changeState id .deactivate))
    (hcleanup : ∀ r, ok (⟨.changeState id .deactivate, r⟩ :: h) (.changeState id .cleanup))
    (hdown : ∀ r r', post true (stateCall id StateId.unconfigured ::
      ⟨.changeState id .cleanup, r'⟩ :: ⟨.changeState id .deactivate, r⟩ :: h)) :
    (m.bringDownDriver name).wp ok post h := by
  rw [bringDownDriver, idOf_of_mem hmem]
  refine ⟨hdeactivate, fun r => ⟨hcleanup r, fun r' => ?_⟩⟩
  exact wp_requireState (by decide) (hget _ _) (fun _ => hfail _) (hdown r r')

end Node

/-- One device is the master, by name, and no two devices have one id. -/
structure Managed (m : LifecycleManager) : Prop where
  master : ("master", m.masterId) ∈ m.deviceNamesToIds.entries
  named : ∀ name id, (name, id) ∈ m.deviceNamesToIds.entries → name ≠ "master" →
    ¬ Contains "master" name
  distinct : m.deviceNamesToIds.entries.Pairwise fun e e' => e.2 ≠ e'.2

/-- The node has accepted both transitions. -/
def Accepted (node : BitVec 8) (h : Calls) : Prop :=
  acceptedCall node .configure ∈ h ∧ acceptedCall node .activate ∈ h

theorem Accepted.suffix {node : BitVec 8} {h h' : Calls} (ha : Accepted node h) (hh : h <:+ h') :
    Accepted node h' :=
  ⟨hh.subset ha.1, hh.subset ha.2⟩

section Up
variable {m : LifecycleManager} {name : String} {id : BitVec 8} {h : Calls}

theorem Managed.ne_master (hm : m.Managed) (hmem : (name, id) ∈ m.deviceNamesToIds.entries)
    (hname : name ≠ "master") : id ≠ m.masterId := by
  have hsymm : Std.Symm fun e e' : String × BitVec 8 => e.2 ≠ e'.2 := ⟨fun _ _ h => h.symm⟩
  exact hm.distinct.forall hmem hm.master fun heq => hname (Prod.mk.inj heq).1

/-- The id belongs to a device other than the master. -/
def IsDriver (m : LifecycleManager) (id : BitVec 8) : Prop :=
  ∃ name, (name, id) ∈ m.deviceNamesToIds.entries ∧ name ≠ "master"

/-- The ids of the devices but the master. -/
def driverIds (devices : List (String × BitVec 8)) : List (BitVec 8) :=
  (devices.filter fun e => e.1 ≠ "master").map Prod.snd

theorem driverIds_cons_master {e : String × BitVec 8} {devices : List (String × BitVec 8)}
    (h : e.1 = "master") : driverIds (e :: devices) = driverIds devices := by
  rw [driverIds, List.filter_cons_of_neg (by simpa using h), driverIds]

theorem driverIds_cons {e : String × BitVec 8} {devices : List (String × BitVec 8)}
    (h : e.1 ≠ "master") : driverIds (e :: devices) = e.2 :: driverIds devices := by
  rw [driverIds, List.filter_cons_of_pos (by simpa using h), List.map_cons, driverIds]

theorem clean_accepted {master node : BitVec 8} {t : Transition} (hh : Clean master h) :
    Clean master (acceptedCall node t :: h) :=
  hh.cons fun hfails => hfails rfl

theorem clean_unconfigured {master node : BitVec 8} (hh : Clean master h) (hnode : node ≠ master) :
    Clean master (stateCall node StateId.unconfigured :: h) := by
  refine hh.cons fun hfails => hfails ?_
  rw [if_neg fun hcase => hnode hcase.1]

theorem clean_active {master : BitVec 8} (hh : Clean master h) (hne : h ≠ []) :
    Clean master (stateCall master StateId.active :: h) := by
  refine hh.cons fun hfails => hfails ?_
  rw [if_pos ⟨rfl, hne⟩]

theorem wp_ordered_bringUpMaster (m : LifecycleManager) :
    m.bringUpMaster.wp (UpOrdered m.masterId)
      (fun b h => b = true → Clean m.masterId h ∧ Accepted m.masterId h) [] := by
  have hclean : Clean m.masterId [stateCall m.masterId StateId.unconfigured] := by
    refine historically_nil.cons fun hfails => hfails ?_
    rw [if_neg fun hcase => hcase.2 rfl]
  have hconfigured : Clean m.masterId (acceptedCall m.masterId .configure :: _) :=
    clean_accepted hclean
  refine wp_bringUpMaster (fun _ _ => trivial) (by simp) ⟨hclean, fun hne => absurd rfl hne⟩
    ⟨hconfigured, fun hne => absurd rfl hne⟩ fun _ => ⟨clean_accepted hconfigured, ?_⟩
  simp [Accepted]

theorem wp_ordered_bringUpDriver (hmem : (name, id) ∈ m.deviceNamesToIds.entries)
    (hid : id ≠ m.masterId) (hclean : Clean m.masterId h) (hup : Accepted m.masterId h) :
    (m.bringUpDriver name).wp (UpOrdered m.masterId)
      (fun b h => b = true → Clean m.masterId h ∧ Accepted id h) h := by
  have hactive := clean_active hclean (List.ne_nil_of_mem hup.1)
  have hunconfigured := clean_unconfigured hactive hid
  have hconfigured : Clean m.masterId (acceptedCall id .configure :: _) :=
    clean_accepted hunconfigured
  refine wp_bringUpDriver hmem (fun _ _ => trivial) (by simp)
    ⟨hunconfigured, fun _ => ⟨fun _ => ⟨h, rfl, hup⟩, by simp⟩⟩
    ⟨hconfigured, fun _ => ⟨by simp, fun _ => ⟨_, rfl⟩⟩⟩ fun _ => ⟨clean_accepted hconfigured, ?_⟩
  simp [Accepted]

/-- What the loop of `bring_up_all` keeps, with the devices it has still to go through. -/
structure UpTo (m : LifecycleManager) (rest : List (String × BitVec 8)) (h : Calls) : Prop where
  clean : Clean m.masterId h
  master : Accepted m.masterId h
  done : ∃ done, m.deviceNamesToIds.entries = done ++ rest ∧ ∀ e ∈ done, Accepted e.2 h

theorem UpTo.next {e : String × BitVec 8} {rest : List (String × BitVec 8)} {h' : Calls}
    (hup : UpTo m (e :: rest) h) (hsuffix : h <:+ h') (hclean : Clean m.masterId h')
    (he : Accepted e.2 h') : UpTo m rest h' := by
  obtain ⟨done, hentries, hdone⟩ := hup.done
  refine ⟨hclean, hup.master.suffix hsuffix, done ++ [e], by simp [hentries], fun e' he' => ?_⟩
  rcases List.mem_append.mp he' with he' | he'
  · exact (hdone e' he').suffix hsuffix
  · rwa [List.mem_singleton.mp he']

theorem wp_bringUpAll (hm : m.Managed) :
    m.bringUpAll.wp (UpOrdered m.masterId)
      (fun b h => b = true → ∀ e ∈ m.deviceNamesToIds.entries, Accepted e.2 h) [] := by
  rw [bringUpAll, Prog.monad_bind_eq, Prog.wp_bind]
  refine Prog.wp_mono (fun b h hmaster => ?_) (wp_ordered_bringUpMaster m)
  cases b with
  | false =>
      intro hb
      contradiction
  | true =>
      obtain ⟨hclean, haccepted⟩ := hmaster rfl
      refine Prog.wp_allM (I := UpTo m) (fun h hup _ => ?_) (fun e rest h hup => ?_) _
        ⟨hclean, haccepted, [], rfl, by simp⟩
      · obtain ⟨done, hentries, hdone⟩ := hup.done
        rw [hentries, List.append_nil]
        exact hdone
      · obtain ⟨name, id⟩ := e
        have hmem : (name, id) ∈ m.deviceNamesToIds.entries := by
          obtain ⟨done, hentries, -⟩ := hup.done
          simp [hentries]
        by_cases hname : name = "master"
        · -- the master is passed over
          subst hname
          obtain rfl := OrderedMap.eq_of_mem hmem hm.master
          rw [if_pos (Contains.refl _)]
          exact hup.next (List.suffix_refl h) hup.clean hup.master
        · rw [if_neg (hm.named name id hmem hname)]
          refine Prog.wp_mono (fun b h' hb => ?_) (Prog.wp_suffix
            (wp_ordered_bringUpDriver hmem (hm.ne_master hmem hname) hup.clean hup.master))
          obtain ⟨hsuffix, hb⟩ := hb
          cases b with
          | false =>
              intro hb
              contradiction
          | true => exact hup.next hsuffix (hb rfl).1 (hb rfl).2

end Up

/-! ## Bringing down -/

section Down
variable {m : LifecycleManager} {isDriver : BitVec 8 → Prop} {name : String} {id : BitVec 8}
  {h : Calls}

theorem wp_ordered_bringDownDriver (hmem : (name, id) ∈ m.deviceNamesToIds.entries)
    (hid : id ≠ m.masterId) :
    (m.bringDownDriver name).wp (DownOrdered m.masterId isDriver)
      (fun b h => b = true → stateCall id StateId.unconfigured ∈ h) h := by
  have hok : ∀ t h, DownOrdered m.masterId isDriver h (.changeState id t) :=
    fun _ _ hnode => absurd hnode hid
  exact wp_bringDownDriver hmem (fun _ _ => trivial) (by simp) (hok _ _) (fun _ => hok _ _)
    fun _ _ _ => List.mem_cons_self

theorem wp_ordered_bringDownMaster
    (hdown : ∀ id, isDriver id → stateCall id StateId.unconfigured ∈ h) :
    m.bringDownMaster.wp (DownOrdered m.masterId isDriver) (fun _ _ => True) h :=
  wp_bringDownMaster (fun _ _ => trivial) (fun _ => trivial) (fun _ _ => hdown)
    (fun _ _ _ id hid => .tail _ (hdown id hid)) fun _ _ => trivial

/-- What the loop of `bring_down_all` keeps. -/
def DownTo (m : LifecycleManager) (rest : List (String × BitVec 8)) (h : Calls) : Prop :=
  ∃ done, m.deviceNamesToIds.entries = done ++ rest ∧
    ∀ e ∈ done, e.1 ≠ "master" → stateCall e.2 StateId.unconfigured ∈ h

theorem DownTo.next {e : String × BitVec 8} {rest : List (String × BitVec 8)} {h' : Calls}
    (hdown : DownTo m (e :: rest) h) (hsuffix : h <:+ h')
    (he : e.1 ≠ "master" → stateCall e.2 StateId.unconfigured ∈ h') : DownTo m rest h' := by
  obtain ⟨done, hentries, hdone⟩ := hdown
  refine ⟨done ++ [e], by simp [hentries], fun e' he' hname => ?_⟩
  rcases List.mem_append.mp he' with he' | he'
  · exact hsuffix.subset (hdone e' he' hname)
  · rw [List.mem_singleton.mp he'] at hname ⊢
    exact he hname

theorem wp_bringDownAll (hm : m.Managed) :
    m.bringDownAll.wp (DownOrdered m.masterId m.IsDriver) (fun _ _ => True) [] := by
  rw [bringDownAll, Prog.monad_bind_eq, Prog.wp_bind]
  refine Prog.wp_allM (I := DownTo m) (fun h hdown => ?_) (fun e rest h hdown => ?_) _
    ⟨[], rfl, by simp⟩
  · obtain ⟨done, hentries, hdone⟩ := hdown
    refine wp_ordered_bringDownMaster fun id ⟨name, hmem, hname⟩ => ?_
    rw [hentries, List.append_nil] at hmem
    exact hdone _ hmem hname
  · obtain ⟨name, id⟩ := e
    have hmem : (name, id) ∈ m.deviceNamesToIds.entries := by
      obtain ⟨done, hentries, -⟩ := hdown
      simp [hentries]
    by_cases hname : name = "master"
    · rw [if_neg (not_not.mpr hname)]
      exact hdown.next (List.suffix_refl h) fun hne => absurd hname hne
    · rw [if_pos hname]
      refine Prog.wp_mono (fun b h' hb => ?_)
        (Prog.wp_suffix (wp_ordered_bringDownDriver hmem (hm.ne_master hmem hname)))
      obtain ⟨hsuffix, hb⟩ := hb
      cases b with
      | false => trivial
      | true => exact hdown.next hsuffix fun _ => hb rfl

end Down

/-! ## What is loaded from the configuration -/

/-- The devices with a node id, by name. -/
def namesToIds (devices : List (String × Device)) : List (String × BitVec 8) :=
  devices.filterMap fun e => (e.2.nodeIdAs 8).map fun id => (e.1, id)

theorem deviceNamesToIds_loadDevices (devices : List (String × Device)) (m : LifecycleManager) :
    (m.loadDevices devices).deviceNamesToIds =
      (namesToIds devices).foldl (fun ids e => ids.emplace e.1 e.2) m.deviceNamesToIds := by
  induction devices generalizing m with
  | nil => rfl
  | cons e devices ih =>
      obtain ⟨name, d⟩ := e
      cases hid : d.nodeIdAs 8 with
      | none => simpa [loadDevices, namesToIds, hid] using ih m
      | some id => simpa [loadDevices, namesToIds, hid] using ih _

/-- The manager knows the devices of the configuration, in their order. -/
theorem entries_loadFromConfig (config : ConfigurationManager) (masterId : BitVec 8) :
    (loadFromConfig ⟨.empty, masterId⟩ config).deviceNamesToIds.entries =
      namesToIds config.entries := by
  have hsorted : (namesToIds config.entries).Pairwise fun e e' => e.1 < e'.1 := by
    refine config.sorted.filterMap _ fun e e' hlt a ha a' ha' => ?_
    obtain ⟨id, -, rfl⟩ := Option.map_eq_some_iff.mp ha
    obtain ⟨id', -, rfl⟩ := Option.map_eq_some_iff.mp ha'
    exact hlt
  rw [loadFromConfig, deviceNamesToIds_loadDevices, OrderedMap.entries_foldl_emplace hsorted]
  · rfl
  · simp [OrderedMap.empty]

theorem mem_namesToIds {devices : List (String × Device)} {name : String} {id : BitVec 8} :
    (name, id) ∈ namesToIds devices ↔ ∃ d, (name, d) ∈ devices ∧ d.nodeIdAs 8 = some id := by
  simp [namesToIds]

/-- The last device whose name contains "master" gives the id. -/
theorem masterId_loadDevices {id : BitVec 8} (devices : List (String × Device))
    (hall : ∀ e ∈ devices, Contains "master" e.1 → e.2.nodeIdAs 8 = some id)
    (m : LifecycleManager) (hsome : m.masterId = id ∨ ∃ e ∈ devices, Contains "master" e.1) :
    (m.loadDevices devices).masterId = id := by
  induction devices generalizing m with
  | nil =>
      obtain hid | ⟨e, he, -⟩ := hsome
      · exact hid
      · simp at he
  | cons e devices ih =>
      obtain ⟨name, d⟩ := e
      have hrest : ∀ e ∈ devices, Contains "master" e.1 → e.2.nodeIdAs 8 = some id :=
        fun e he => hall e (.tail _ he)
      by_cases hname : Contains "master" name
      · have hid := hall _ List.mem_cons_self hname
        simp only [loadDevices, hid]
        exact ih hrest _ (.inl (if_pos hname))
      · have hsome' : m.masterId = id ∨ ∃ e ∈ devices, Contains "master" e.1 := by
          refine hsome.imp_right fun ⟨e, he, hcontains⟩ => ⟨e, ?_, hcontains⟩
          rcases List.mem_cons.mp he with rfl | he
          · exact absurd hcontains hname
          · exact he
        cases hid : d.nodeIdAs 8 with
        | none =>
            simp only [loadDevices, hid]
            exact ih hrest m hsome'
        | some id' =>
            simp only [loadDevices, hid]
            refine ih hrest _ (hsome'.imp_left fun hmaster => ?_)
            rw [if_neg hname]
            exact hmaster

section Loaded
variable {config : ConfigurationManager} {master : BitVec 8}

theorem masterId_loadFromConfig (hvalid : config.Valid master) (hsole : config.SoleMaster)
    (masterId : BitVec 8) : (loadFromConfig ⟨.empty, masterId⟩ config).masterId = master := by
  obtain ⟨d, hd, hid⟩ := hvalid.master
  refine masterId_loadDevices _ (fun e he hcontains => ?_) _ (.inr ⟨_, hd, Contains.refl _⟩)
  by_cases hname : e.1 = "master"
  · obtain ⟨name, d'⟩ := e
    obtain rfl : name = "master" := hname
    rw [OrderedMap.eq_of_mem he hd]
    exact hid
  · exact absurd hcontains (hsole e he hname)

theorem isDriver_loadFromConfig (masterId id : BitVec 8) :
    (loadFromConfig ⟨.empty, masterId⟩ config).IsDriver id ↔ config.IsDriver id := by
  rw [IsDriver, entries_loadFromConfig]
  constructor
  · rintro ⟨name, hmem, hname⟩
    obtain ⟨d, hd, hid⟩ := mem_namesToIds.mp hmem
    exact ⟨name, d, hd, hname, hid⟩
  · rintro ⟨name, d, hd, hname, hid⟩
    exact ⟨name, mem_namesToIds.mpr ⟨d, hd, hid⟩, hname⟩

theorem managed_loadFromConfig (hvalid : config.Valid master) (hsole : config.SoleMaster)
    (masterId : BitVec 8) : (loadFromConfig ⟨.empty, masterId⟩ config).Managed := by
  refine ⟨?_, fun name id hmem hname => ?_, ?_⟩
  · obtain ⟨d, hd, hid⟩ := hvalid.master
    rw [entries_loadFromConfig, masterId_loadFromConfig hvalid hsole]
    exact mem_namesToIds.mpr ⟨d, hd, hid⟩
  · rw [entries_loadFromConfig] at hmem
    obtain ⟨d, hd, -⟩ := mem_namesToIds.mp hmem
    exact hsole _ hd hname
  · rw [entries_loadFromConfig]
    refine hvalid.distinct.filterMap _ fun e e' hne a ha a' ha' heq => hne ?_
    obtain ⟨id, hid, rfl⟩ := Option.map_eq_some_iff.mp ha
    obtain ⟨id', hid', rfl⟩ := Option.map_eq_some_iff.mp ha'
    rw [hid, hid', show id = id' from heq]

end Loaded

/-- **The order of the requests**, whatever the services answer: in a bring-up the master
comes first, each driver goes step by step, and a failure ends it, and it succeeds only with
every transition accepted; in a bring-down the master comes last. -/
theorem ordered {config : ConfigurationManager} {master : BitVec 8}
    (hvalid : config.Valid master) (hsole : config.SoleMaster) (masterId : BitVec 8) :
    (∀ h b, (loadFromConfig ⟨.empty, masterId⟩ config).bringUpAll.Run [] h b →
      Historically (fun call before => UpOrdered master before call.1) h ∧
        (b = true → ∀ e ∈ config.entries, ∀ id, e.2.nodeIdAs 8 = some id → Accepted id h)) ∧
    (∀ h b, (loadFromConfig ⟨.empty, masterId⟩ config).bringDownAll.Run [] h b →
      Historically (fun call before => DownOrdered master config.IsDriver before call.1) h) := by
  have hm := managed_loadFromConfig hvalid hsole masterId
  have hmaster := masterId_loadFromConfig hvalid hsole masterId
  refine ⟨fun h b hr => ?_, fun h b hr => ?_⟩
  · have hwp := wp_bringUpAll hm
    refine ⟨?_, fun hb e he id hid => ?_⟩
    · rw [← hmaster]
      exact Prog.asked_of_run hwp hr historically_nil
    · have hmem := mem_namesToIds.mpr ⟨e.2, he, hid⟩
      rw [← entries_loadFromConfig config masterId] at hmem
      exact Prog.post_of_run hwp hr hb _ hmem
  · have hasked := Prog.asked_of_run (wp_bringDownAll hm) hr historically_nil
    intro new call before heq
    have hdown := hasked new call before heq
    rw [hmaster] at hdown
    obtain ⟨q, r⟩ := call
    cases q with
    | getState node => trivial
    | changeState node t =>
        intro hnode ht id hid
        exact hdown hnode ht id ((isDriver_loadFromConfig masterId id).mpr hid)

/-- A master with id 1 and an arm with id 2. -/
def armConfig : ConfigurationManager where
  entries :=
    [("arm", ⟨some 2, some "ros2_canopen::Cia402Driver", some "canopen_402_driver", none, none,
        some (some "config")⟩),
      ("master", ⟨some 1, some "ros2_canopen::MasterDriver", some "canopen_master_driver", none,
        none, some (some "config")⟩)]
  sorted := by decide

theorem valid_armConfig : armConfig.Valid 1 :=
  ⟨⟨_, .tail _ (.head _), rfl⟩, by decide, by decide⟩

theorem soleMaster_armConfig : armConfig.SoleMaster := by
  unfold ConfigurationManager.SoleMaster
  decide

/-- Both nodes are unconfigured, and accept everything. -/
def willing : (q : Query) → Bool → q.Answer × Bool
  | .getState node, up =>
      (.answered (if node = 1 ∧ up then StateId.active else StateId.unconfigured), up)
  | .changeState _ t, up => (.answered true, up || t = .activate)

theorem ordered_arm : ∃ h, (loadFromConfig ⟨.empty, 0⟩ armConfig).bringUpAll.Run [] h true ∧
    Historically (fun call before => UpOrdered 1 before call.1) h ∧ Accepted 2 h := by
  obtain ⟨h, hr⟩ := Prog.run_eval willing (loadFromConfig ⟨.empty, 0⟩ armConfig).bringUpAll
    false []
  have hsuccess : ((loadFromConfig ⟨.empty, 0⟩ armConfig).bringUpAll.eval willing false).1 =
      true := by
    decide +kernel
  rw [hsuccess] at hr
  obtain ⟨hordered, hall⟩ := (ordered valid_armConfig soleMaster_armConfig 0).1 h true hr
  exact ⟨h, hr, hordered, hall rfl _ (.head _) 2 rfl⟩

end LifecycleManager
end RosCanopen.Core
