import RosCanopen.Core.Container
import RosCanopen.Core.Lifecycle

/-!
# Who is the master

Container and manager look at the names of the devices in six places, some for equality with
"master" and some for an occurrence of it, and one for an occurrence of "options".  They agree
exactly when no other device has such a name.

## Main definitions

* `requests` — the transitions that a run has requested.
* `Consistent` — "master" is the master and every other device a driver, everywhere.
-/

namespace RosCanopen.Core

open Lib

/-- The transitions that were requested, oldest first. -/
def requests (h : Calls) : List (BitVec 8 × Transition) :=
  h.reverse.filterMap fun
    | ⟨.changeState node t, _⟩ => some (node, t)
    | ⟨.getState _, _⟩ => none

@[simp] theorem requests_nil : requests [] = [] := rfl

@[simp] theorem requests_cons_getState (node : BitVec 8) (r : Outcome StateId) (h : Calls) :
    requests (⟨.getState node, r⟩ :: h) = requests h := by
  simp [requests]

@[simp] theorem requests_cons_changeState (node : BitVec 8) (t : Transition) (r : Outcome Bool)
    (h : Calls) : requests (⟨.changeState node t, r⟩ :: h) = requests h ++ [(node, t)] := by
  simp [requests]

/-- The requests by which a node is brought up. -/
def up (node : BitVec 8) : List (BitVec 8 × Transition) := [(node, .configure), (node, .activate)]

/-- The requests by which a node is brought down. -/
def down (node : BitVec 8) : List (BitVec 8 × Transition) := [(node, .deactivate), (node, .cleanup)]

/-- Any call is fine. -/
abbrev anyCall (_ : Calls) (_ : Query) : Prop := True

namespace LifecycleManager
variable {m : LifecycleManager} {name : String} {id : BitVec 8} {h : Calls}

theorem wp_requests_bringUpMaster (m : LifecycleManager) (h : Calls) :
    m.bringUpMaster.wp anyCall
      (fun b h' => b = true → requests h' = requests h ++ up m.masterId) h := by
  refine wp_bringUpMaster (fun _ _ => trivial) (by simp) trivial trivial ?_
  simp [up]

theorem wp_requests_bringUpDriver (hmem : (name, id) ∈ m.deviceNamesToIds.entries) (h : Calls) :
    (m.bringUpDriver name).wp anyCall
      (fun b h' => b = true → requests h' = requests h ++ up id) h := by
  refine wp_bringUpDriver hmem (fun _ _ => trivial) (by simp) trivial trivial ?_
  simp [up]

theorem wp_requests_bringDownMaster (m : LifecycleManager) (h : Calls) :
    m.bringDownMaster.wp anyCall
      (fun b h' => b = true → requests h' = requests h ++ down m.masterId) h := by
  refine wp_bringDownMaster (fun _ _ => trivial) (by simp) trivial (fun _ => trivial) ?_
  simp [down]

theorem wp_requests_bringDownDriver (hmem : (name, id) ∈ m.deviceNamesToIds.entries) (h : Calls) :
    (m.bringDownDriver name).wp anyCall
      (fun b h' => b = true → requests h' = requests h ++ down id) h := by
  refine wp_bringDownDriver hmem (fun _ _ => trivial) (by simp) trivial (fun _ => trivial) ?_
  simp [down]

/-- What the loops keep: the requests made and those to come are `all`. -/
def Coming (m : LifecycleManager) (all : List (BitVec 8 × Transition))
    (requestsOf : BitVec 8 → List (BitVec 8 × Transition)) (rest : List (String × BitVec 8))
    (h : Calls) : Prop :=
  (∀ e ∈ rest, e ∈ m.deviceNamesToIds.entries) ∧
    requests h ++ (driverIds rest).flatMap requestsOf = all

theorem Coming.requests_eq {all : List (BitVec 8 × Transition)}
    {requestsOf : BitVec 8 → List (BitVec 8 × Transition)}
    (hcoming : Coming m all requestsOf [] h) : requests h = all := by
  simpa [driverIds] using hcoming.2

theorem Coming.tail {all : List (BitVec 8 × Transition)}
    {requestsOf : BitVec 8 → List (BitVec 8 × Transition)} {e : String × BitVec 8}
    {rest : List (String × BitVec 8)} (hcoming : Coming m all requestsOf (e :: rest) h)
    (hname : e.1 = "master") : Coming m all requestsOf rest h := by
  obtain ⟨hmem, hall⟩ := hcoming
  rw [driverIds_cons_master hname] at hall
  exact ⟨fun e' he' => hmem e' (.tail _ he'), hall⟩

theorem Coming.next {all : List (BitVec 8 × Transition)}
    {requestsOf : BitVec 8 → List (BitVec 8 × Transition)} {e : String × BitVec 8}
    {rest : List (String × BitVec 8)} {h' : Calls}
    (hcoming : Coming m all requestsOf (e :: rest) h) (hname : e.1 ≠ "master")
    (hrequests : requests h' = requests h ++ requestsOf e.2) :
    Coming m all requestsOf rest h' := by
  obtain ⟨hmem, hall⟩ := hcoming
  refine ⟨fun e' he' => hmem e' (.tail _ he'), ?_⟩
  rw [hrequests, ← hall, driverIds_cons hname, List.flatMap_cons, List.append_assoc]

/-- A bring-up that succeeds has brought up the master, and then every driver, once. -/
theorem wp_requests_bringUpAll (hm : m.Managed) :
    m.bringUpAll.wp anyCall (fun b h => b = true → requests h =
      (m.masterId :: driverIds m.deviceNamesToIds.entries).flatMap up) [] := by
  rw [bringUpAll, Prog.monad_bind_eq, Prog.wp_bind]
  refine Prog.wp_mono (fun b h hmaster => ?_) (wp_requests_bringUpMaster m [])
  cases b with
  | false =>
      intro hb
      contradiction
  | true =>
      refine Prog.wp_allM (I := Coming m _ up) (fun h hcoming _ => hcoming.requests_eq)
        (fun e rest h hcoming => ?_) _ ⟨fun e he => he, ?_⟩
      · by_cases hname : e.1 = "master"
        · rw [hname, if_pos (Contains.refl _)]
          exact hcoming.tail hname
        · have hmem := hcoming.1 e List.mem_cons_self
          rw [if_neg (hm.named _ _ hmem hname)]
          refine Prog.wp_mono (fun b h' hb => ?_) (wp_requests_bringUpDriver hmem h)
          cases b with
          | false =>
              intro hb
              contradiction
          | true => exact hcoming.next hname (hb rfl)
      · rw [hmaster rfl]
        rfl

/-- A bring-down that succeeds has brought down every driver, and then the master, once. -/
theorem wp_requests_bringDownAll (m : LifecycleManager) :
    m.bringDownAll.wp anyCall (fun b h => b = true → requests h =
      (driverIds m.deviceNamesToIds.entries ++ [m.masterId]).flatMap down) [] := by
  rw [bringDownAll, Prog.monad_bind_eq, Prog.wp_bind]
  refine Prog.wp_allM
    (I := Coming m ((driverIds m.deviceNamesToIds.entries).flatMap down) down)
    (fun h hcoming => ?_) (fun e rest h hcoming => ?_) _ ⟨fun e he => he, rfl⟩
  · refine Prog.wp_mono (fun b h' hb hsuccess => ?_) (wp_requests_bringDownMaster m h)
    rw [hb hsuccess, hcoming.requests_eq, List.flatMap_append, List.flatMap_singleton]
  · by_cases hname : e.1 = "master"
    · rw [if_neg (not_not.mpr hname)]
      exact hcoming.tail hname
    · rw [if_pos hname]
      have hmem := hcoming.1 e List.mem_cons_self
      refine Prog.wp_mono (fun b h' hb => ?_) (wp_requests_bringDownDriver hmem h)
      cases b with
      | false =>
          intro hb
          contradiction
      | true => exact hcoming.next hname (hb rfl)

end LifecycleManager
/-! ## Agreement on the roles -/

namespace ConfigurationManager

/-- The devices but the master, in order. -/
def others (config : ConfigurationManager) : List (String × Device) :=
  config.entries.filter fun e => e.1 ≠ "master"

/-- The ids of the devices but the master, in order. -/
def otherIds (config : ConfigurationManager) : List (BitVec 8) :=
  config.others.filterMap fun e => e.2.nodeIdAs 8

theorem driverIds_loadFromConfig (config : ConfigurationManager) (masterId : BitVec 8) :
    LifecycleManager.driverIds (LifecycleManager.loadFromConfig ⟨.empty, masterId⟩
      config).deviceNamesToIds.entries = config.otherIds := by
  rw [LifecycleManager.entries_loadFromConfig, otherIds, others]
  generalize config.entries = devices
  induction devices with
  | nil => rfl
  | cons e devices ih =>
      obtain ⟨name, d⟩ := e
      rw [LifecycleManager.namesToIds, List.filterMap_cons]
      by_cases hname : name = "master"
      · rw [List.filter_cons_of_neg (by simpa using hname), ← ih]
        cases d.nodeIdAs 8 with
        | none => rfl
        | some id => exact LifecycleManager.driverIds_cons_master hname
      · rw [List.filter_cons_of_pos (by simpa using hname), List.filterMap_cons, ← ih]
        cases d.nodeIdAs 8 with
        | none => rfl
        | some id => exact LifecycleManager.driverIds_cons hname

/-- With such names the load takes exactly the others as drivers. -/
theorem PlainNames.filter_getAllDevices {config : ConfigurationManager} (h : config.PlainNames) :
    (config.getAllDevices.filter fun name =>
      ¬ Contains "master" name ∧ ¬ Contains "options" name) = config.others.map Prod.fst := by
  rw [getAllDevices, others, List.filter_map]
  congr 1
  refine List.filter_congr fun e he => ?_
  by_cases hname : e.1 = "master"
  · simp [hname, Contains.refl]
  · simp [hname, h e he hname]

end ConfigurationManager

open ConfigurationManager (initConfig)

/-- The manager of the configuration. -/
abbrev managerOf (root : List (String × Device)) (masterId : BitVec 8) : LifecycleManager :=
  LifecycleManager.loadFromConfig ⟨.empty, masterId⟩ (initConfig root)

/-- The device "master" is the master and every other device a driver, for the load and for the
manager, whatever the ids of the master are before. -/
structure Consistent (loader : Loader) (root : List (String × Device)) (master : BitVec 8) :
    Prop where
  loaded (fullyQualifiedName ns canInterfaceName masterConfig masterBin : String)
    (canMasterId : BitVec 16) :
    ∃ c, (DeviceContainer.initial fullyQualifiedName ns canMasterId).init loader canInterfaceName
        masterConfig masterBin root = .ok c ∧
      c.canMasterId = master.setWidth 16 ∧
      c.loaded = ("master", .master) :: (initConfig root).others.map (fun e => (e.1, .driver)) ∧
      ∀ id, (c.registeredDrivers id).isSome ↔
        ∃ id', (initConfig root).IsDriver id' ∧ id = id'.setWidth 16
  masterId (masterId : BitVec 8) : (managerOf root masterId).masterId = master
  up (masterId : BitVec 8) (h : Calls) (hr : (managerOf root masterId).bringUpAll.Run [] h true) :
    requests h = (master :: (initConfig root).otherIds).flatMap up
  down (masterId : BitVec 8) (h : Calls)
    (hr : (managerOf root masterId).bringDownAll.Run [] h true) :
    requests h = ((initConfig root).otherIds ++ [master]).flatMap down

section Consistent
variable {loader : Loader} {lifecycle : Bool} {root : List (String × Device)} {master : BitVec 8}

theorem plainNames_of_consistent (h : Consistent loader root master) :
    (initConfig root).PlainNames := by
  obtain ⟨c, hinit, -, hloaded, -⟩ := h.loaded "" "" "" "" "" 0
  intro e he hname
  have hmem : (e.1, Role.driver) ∈ c.loaded := by
    rw [hloaded]
    refine .tail _ (List.mem_map.mpr ⟨e, ?_, rfl⟩)
    simp [ConfigurationManager.others, he, hname]
  rw [DeviceContainer.loaded_of_load rfl hinit] at hmem
  simp only [DeviceContainer.initial, List.nil_append, List.mem_cons, Prod.mk.injEq, reduceCtorEq,
    and_false, false_or, List.mem_map, List.mem_filter] at hmem
  obtain ⟨name, ⟨-, hplain⟩, hname', -⟩ := hmem
  rw [hname'] at hplain
  exact of_decide_eq_true hplain

theorem consistent_of_plainNames (hvalid : (initConfig root).Valid master)
    (hloads : ∀ e ∈ (initConfig root).entries, loader.Loads lifecycle e.2)
    (hnames : (initConfig root).PlainNames) : Consistent loader root master := by
  have hsole : (initConfig root).SoleMaster := fun e he hname => (hnames e he hname).1
  have hm := LifecycleManager.managed_loadFromConfig hvalid hsole
  have hmaster := LifecycleManager.masterId_loadFromConfig hvalid hsole
  refine ⟨fun _ _ _ _ _ _ => ?_, hmaster, fun masterId h hr => ?_, fun masterId h hr => ?_⟩
  · obtain ⟨c, hload, hid, hregistered⟩ :=
      DeviceContainer.init_ok hvalid hloads hnames _ _ _ _ _ _
    refine ⟨c, hload, hid, ?_, hregistered⟩
    · rw [DeviceContainer.loaded_of_load rfl hload, hnames.filter_getAllDevices, List.map_map]
      rfl
  · rw [Prog.post_of_run (LifecycleManager.wp_requests_bringUpAll (hm masterId)) hr rfl, hmaster,
      ConfigurationManager.driverIds_loadFromConfig]
  · rw [Prog.post_of_run (LifecycleManager.wp_requests_bringDownAll _) hr rfl, hmaster,
      ConfigurationManager.driverIds_loadFromConfig]

/-- **The roles are consistent exactly when no other name contains "master" or "options".** -/
theorem consistent_iff (hvalid : (initConfig root).Valid master)
    (hloads : ∀ e ∈ (initConfig root).entries, loader.Loads lifecycle e.2) :
    Consistent loader root master ↔ ∀ e ∈ (initConfig root).entries, e.1 ≠ "master" →
      ¬ Contains "master" e.1 ∧ ¬ Contains "options" e.1 :=
  ⟨plainNames_of_consistent, consistent_of_plainNames hvalid hloads⟩

end Consistent

/-- A loader with two lifecycle components. -/
def twoComponents : Loader where
  resources _ := .ok [("ros2_canopen::LifecycleMasterDriver", "libmaster.so"),
    ("ros2_canopen::LifecycleCia402Driver", "libdriver.so")]
  factory _ := .ok fun _ => .ok ⟨true⟩
  dump _ := ""

def masterDevice : Device :=
  ⟨some 1, some "ros2_canopen::LifecycleMasterDriver", some "canopen_master_driver", none, none,
    some (some "config")⟩

def driverDevice : Device :=
  ⟨some 2, some "ros2_canopen::LifecycleCia402Driver", some "canopen_402_driver", none, none,
    some (some "config")⟩

/-- A bus with the two devices. -/
def busWith (name : String) : List (String × Device) :=
  [("master", masterDevice), (name, driverDevice)]

theorem loads_masterDevice : twoComponents.Loads true masterDevice :=
  ⟨_, _, rfl, rfl, _, _, _, rfl, rfl, rfl, fun _ => ⟨⟨true⟩, rfl, rfl⟩⟩

theorem loads_driverDevice : twoComponents.Loads true driverDevice :=
  ⟨_, _, rfl, rfl, _, _, _, rfl, rfl, rfl, fun _ => ⟨⟨true⟩, rfl, rfl⟩⟩

theorem loads_devices {es : List (String × Device)}
    (h : ∀ e ∈ es, e.2 = masterDevice ∨ e.2 = driverDevice) :
    ∀ e ∈ es, twoComponents.Loads true e.2 := by
  intro e he
  rcases h e he with hd | hd
  · rw [hd]
    exact loads_masterDevice
  · rw [hd]
    exact loads_driverDevice

/-- An arm behind the master. -/
theorem consistent_arm : Consistent twoComponents (busWith "arm") 1 := by
  have hentries : (initConfig (busWith "arm")).entries =
      [("arm", driverDevice), ("master", masterDevice)] := rfl
  have hvalid : (initConfig (busWith "arm")).Valid 1 :=
    ⟨⟨masterDevice, .tail _ (.head _), rfl⟩, by rw [hentries]; decide, by rw [hentries]; decide⟩
  refine (consistent_iff hvalid (loads_devices (by rw [hentries]; simp))).mpr ?_
  rw [hentries]
  decide

/-- The section "options_io" is complete and its component can be loaded, but the load leaves
it out. -/
theorem not_consistent_options_io :
    (initConfig (busWith "options_io")).Valid 1 ∧
    (∀ e ∈ (initConfig (busWith "options_io")).entries,
      twoComponents.Loads true e.2) ∧
    ¬ Consistent twoComponents (busWith "options_io") 1 := by
  have hentries : (initConfig (busWith "options_io")).entries =
      [("master", masterDevice), ("options_io", driverDevice)] := rfl
  refine ⟨⟨⟨masterDevice, .head _, rfl⟩, by rw [hentries]; decide, by rw [hentries]; decide⟩,
    loads_devices (by rw [hentries]; simp), fun h => ?_⟩
  have hplain := plainNames_of_consistent h ("options_io", driverDevice)
    (by rw [hentries]; exact .tail _ (.head _)) (by decide)
  exact hplain.2 (by decide)

end RosCanopen.Core
