import RosCanopen.Core.Configuration
import Mathlib.Logic.Function.Basic

/-!
# The device container

`DeviceContainer` creates a node for each device of the configuration: the master first, then
the drivers.  Where the classes come from, and what a class needs to be created, is left to a
`Loader`.

## Main definitions

* `Loader` — the class loader, and the printing of YAML.
* `DeviceContainer`, `DeviceContainer.loadComponent`, `DeviceContainer.loadMaster`,
  `DeviceContainer.loadDrivers`, `DeviceContainer.init`.
-/

namespace RosCanopen.Core

open Lib

/-- The value of a ROS parameter. -/
inductive ParameterValue
  | text (s : String)
  | integer (n : ℤ)
  deriving DecidableEq

abbrev Parameter := String × ParameterValue

/-- `rclcpp::NodeOptions` -/
structure NodeOptions where
  useGlobalArguments : Bool
  useIntraProcessComms : Bool
  arguments : List String
  parameterOverrides : List Parameter

/-- A node that was created. -/
structure Component where
  isLifecycle : Bool
  deriving DecidableEq

/-- The class and the library of a component. -/
abbrev ComponentResource := String × String

/-- What ends a load, other than its result. -/
inductive Failure
  /-- `DeviceContainerException` -/
  | container (what : String)
  /-- Another exception, of the class loader. -/
  | loader (what : String)
  /-- A null pointer is followed. -/
  | nullPointer
  deriving DecidableEq

/-- The class loader, and `YAML::Dump`. -/
structure Loader where
  /-- `get_component_resources` -/
  resources : String → Except Failure (List ComponentResource)
  /-- `create_component_factory`, and `create_node_instance` of the factory, which throws an
  exception with a text or anything else. -/
  factory : ComponentResource → Except Failure (NodeOptions → Except (Option String) Component)
  dump : Device → String

/-- As what a component is taken. -/
inductive Role
  | master
  | driver
  deriving DecidableEq

structure DeviceContainer where
  fullyQualifiedName : String
  ns : String
  canInterfaceName : String
  dcfTxt : String
  dcfBin : String
  config : ConfigurationManager
  registeredDrivers : BitVec 16 → Option Component
  canMaster : Option Component
  canMasterId : BitVec 16
  lifecycleOperation : Bool
  /-- What the manager is initialised with, when it is loaded. -/
  lifecycleManager : Option ConfigurationManager
  /-- The components taken so far, by the name of the node; no function reads it. -/
  loaded : List (String × Role)

/-- The class is there, and its components are created and of one kind. -/
def Loader.Creates (loader : Loader) (lifecycle : Bool) (packageName driverName : String) : Prop :=
  ∃ components resource create, loader.resources packageName = .ok components ∧
    components.find? (fun resource => resource.1 = driverName) = some resource ∧
    loader.factory resource = .ok create ∧
    ∀ opts, ∃ component, create opts = .ok component ∧ component.isLifecycle = lifecycle

/-- The section is complete, and its component can be loaded. -/
def Loader.Loads (loader : Loader) (lifecycle : Bool) (d : Device) : Prop :=
  ∃ driverName packageName, d.driver = some driverName ∧ d.package = some packageName ∧
    loader.Creates lifecycle packageName driverName

namespace DeviceContainer

/-- The container when it is constructed, where the id of the master is not set. -/
def initial (fullyQualifiedName ns : String) (canMasterId : BitVec 16) : DeviceContainer where
  fullyQualifiedName := fullyQualifiedName
  ns := ns
  canInterfaceName := ""
  dcfTxt := ""
  dcfBin := ""
  config := .empty
  registeredDrivers := fun _ => none
  canMaster := none
  canMasterId := canMasterId
  lifecycleOperation := false
  lifecycleManager := none
  loaded := []

/-- `can_master_ = component` -/
def takeMaster (c : DeviceContainer) (name : String) (component : Component) : DeviceContainer :=
  { c with canMaster := some component, loaded := c.loaded ++ [(name, .master)] }

/-- `can_master_id_ = node_id`, with the operation of the master. -/
def setMaster (c : DeviceContainer) (nodeId : BitVec 16) (master : Component) : DeviceContainer :=
  { c with canMasterId := nodeId, lifecycleOperation := master.isLifecycle }

/-- `registered_drivers_[node_id] = component` -/
def takeDriver (c : DeviceContainer) (nodeId : BitVec 16) (name : String)
    (component : Component) : DeviceContainer :=
  { c with
    registeredDrivers := Function.update c.registeredDrivers nodeId (some component)
    loaded := c.loaded ++ [(name, .driver)] }

@[simp] theorem config_takeMaster (c : DeviceContainer) (name : String) (component : Component) :
    (c.takeMaster name component).config = c.config := rfl

@[simp] theorem config_setMaster (c : DeviceContainer) (nodeId : BitVec 16) (master : Component) :
    (c.setMaster nodeId master).config = c.config := rfl

@[simp] theorem registeredDrivers_takeDriver (c : DeviceContainer) (nodeId : BitVec 16)
    (name : String) (component : Component) :
    (c.takeDriver nodeId name component).registeredDrivers =
      Function.update c.registeredDrivers nodeId (some component) := rfl

/-- The options of a component. -/
def nodeOptions (c : DeviceContainer) (nodeName : String) (params : List Parameter)
    (remappings : OrderedMap String String) (nodeNamespace : String) : NodeOptions where
  useGlobalArguments := false
  useIntraProcessComms := true
  arguments :=
    ["--ros-args", "-r", "__node:=" ++ nodeName, "-r",
        "__ns:=" ++ if nodeNamespace = "" then c.ns else nodeNamespace] ++
      remappings.entries.flatMap fun e => ["-r", e.1 ++ ":=" ++ e.2]
  parameterOverrides := params

def loadComponent (loader : Loader) (c : DeviceContainer) (packageName driverName : String)
    (nodeId : BitVec 16) (nodeName : String) (params : List Parameter)
    (remappings : OrderedMap String String) (nodeNamespace : String) :
    Except Failure (Bool × DeviceContainer) := do
  let components ← loader.resources packageName
  match components.find? fun resource => resource.1 = driverName with
  | none => return (false, c)
  | some resource =>
      let create ← loader.factory resource
      match create (c.nodeOptions nodeName params remappings nodeNamespace) with
      | .error (some what) =>
          throw (.container ("Component constructor threw an exception: " ++ what))
      | .error none => throw (.container "Component constructor threw an exception")
      | .ok component =>
          if nodeName = "master" then return (true, c.takeMaster nodeName component)
          else if component.isLifecycle = c.lifecycleOperation then
            return (true, c.takeDriver nodeId nodeName component)
          else
            -- thrown inside the `try`; its own text is not that of `std::exception::what`
            throw (.container "Component constructor threw an exception: std::exception")

/-- The entries of a device that are read before its component is loaded. -/
structure Entries where
  nodeId : BitVec 16
  driverName : String
  packageName : String
  nodeNamespace : String
  remappings : OrderedMap String String

/-- The entries, unless the section is incomplete. -/
def readEntries (c : DeviceContainer) (name : String) : Option Entries := do
  let nodeId ← c.config.entry name (·.nodeIdAs 16)
  let driverName ← c.config.entry name (·.driver)
  let packageName ← c.config.entry name (·.package)
  return {
    nodeId, driverName, packageName
    nodeNamespace := (c.config.entry name (·.ns)).getD ""
    remappings := (c.config.entry name (·.remappings)).getD .empty }

/-- `dump_device` -/
def dumpDevice (loader : Loader) (c : DeviceContainer) (name : String) : String :=
  match c.config.find? name with
  | some d => loader.dump d
  | none => ""

def masterParams (loader : Loader) (c : DeviceContainer) (name : String) (nodeId : BitVec 16) :
    List Parameter :=
  [("container_name", .text c.fullyQualifiedName), ("master_dcf", .text c.dcfTxt),
    ("master_bin", .text c.dcfBin), ("can_interface_name", .text c.canInterfaceName),
    ("node_id", .integer nodeId.toNat), ("non_transmit_timeout", .integer 100),
    ("config", .text (c.dumpDevice loader name))]

def driverParams (loader : Loader) (c : DeviceContainer) (name : String) (nodeId : BitVec 16) :
    List Parameter :=
  [("container_name", .text c.fullyQualifiedName), ("node_id", .integer nodeId.toNat),
    ("config", .text (c.dumpDevice loader name)), ("non_transmit_timeout", .integer 100)]

/-- The loop of `load_master`. -/
def loadMasterFrom (loader : Loader) :
    List String → Bool → DeviceContainer → Except Failure (Bool × DeviceContainer)
  | [], masterFound, c => return (masterFound, c)
  | name :: names, masterFound, c =>
      if Contains "master" name ∧ masterFound = false then
        match c.readEntries name with
        | none => return (false, c)
        | some e => do
            let (loaded, c) ← c.loadComponent loader e.packageName e.driverName e.nodeId name
              (c.masterParams loader name e.nodeId) e.remappings e.nodeNamespace
            if loaded then
              match c.canMaster with
              | none => throw .nullPointer
              | some master => loadMasterFrom loader names true (c.setMaster e.nodeId master)
            else return (false, c)
      else loadMasterFrom loader names masterFound c

def loadMaster (loader : Loader) (c : DeviceContainer) :
    Except Failure (Bool × DeviceContainer) :=
  if c.config.getAllDevices.length = 0 then return (false, c)
  else loadMasterFrom loader c.config.getAllDevices false c

/-- The loop of `load_drivers`. -/
def loadDriversFrom (loader : Loader) :
    List String → DeviceContainer → Except Failure (Bool × DeviceContainer)
  | [], c => return (true, c)
  | name :: names, c =>
      if ¬ Contains "master" name ∧ ¬ Contains "options" name then
        match c.readEntries name with
        | none => return (false, c)
        | some e =>
            if e.nodeId = c.canMasterId then return (false, c)
            else if (c.registeredDrivers e.nodeId).isSome then return (false, c)
            else do
              let (loaded, c) ← c.loadComponent loader e.packageName e.driverName e.nodeId name
                (c.driverParams loader name e.nodeId) e.remappings e.nodeNamespace
              if loaded then
                match c.registeredDrivers e.nodeId with
                | none => throw .nullPointer
                | some _ => loadDriversFrom loader names c
              else return (false, c)
      else loadDriversFrom loader names c

def loadDrivers (loader : Loader) (c : DeviceContainer) :
    Except Failure (Bool × DeviceContainer) :=
  if c.config.getAllDevices.length = 0 then return (false, c)
  else loadDriversFrom loader c.config.getAllDevices c

def loadManager (c : DeviceContainer) : Bool × DeviceContainer :=
  (true, { c with
    lifecycleManager := if c.lifecycleOperation then some c.config else c.lifecycleManager })

/-- The three loads of `init`. -/
def load (loader : Loader) (c : DeviceContainer) : Except Failure DeviceContainer := do
  let (loaded, c) ← c.loadMaster loader
  if loaded then
    let (loaded, c) ← c.loadDrivers loader
    if loaded then
      let (loaded, c) := c.loadManager
      if loaded then return c else throw (.container "Fatal: Loading Manager Failed.")
    else throw (.container "Fatal: Loading Drivers Failed.")
  else throw (.container "Fatal: Loading Master Failed.")

/-- `init`, with the sections of the file instead of its name. -/
def init (loader : Loader) (c : DeviceContainer) (canInterfaceName masterConfig masterBin : String)
    (root : List (String × Device)) : Except Failure DeviceContainer :=
  load loader { c with
    canInterfaceName := canInterfaceName
    dcfTxt := masterConfig
    dcfBin := masterBin
    config := ConfigurationManager.initConfig root }

/-! ## What a load does -/

section Steps
variable {loader : Loader} {c c' : DeviceContainer} {name packageName driverName : String}
  {nodeId : BitVec 16} {params : List Parameter} {remappings : OrderedMap String String}
  {nodeNamespace : String} {lifecycle loaded : Bool}

theorem bind_ok {α β : Type} {x : Except Failure α} {f : α → Except Failure β} {b : β}
    (h : x >>= f = .ok b) : ∃ a, x = .ok a ∧ f a = .ok b := by
  cases x with
  | error e => contradiction
  | ok a => exact ⟨a, rfl, h⟩

/-- The node "master" becomes the master, any other a driver. -/
inductive Taken (c : DeviceContainer) (nodeId : BitVec 16) (name : String) :
    Bool → DeviceContainer → Prop
  | missing : Taken c nodeId name false c
  | master (component : Component) (hname : name = "master") :
      Taken c nodeId name true (c.takeMaster name component)
  | driver (component : Component) (hname : name ≠ "master") :
      Taken c nodeId name true (c.takeDriver nodeId name component)

theorem taken_of_loadComponent (h : c.loadComponent loader packageName driverName nodeId name params
    remappings nodeNamespace = .ok (loaded, c')) : Taken c nodeId name loaded c' := by
  obtain ⟨components, -, h⟩ := bind_ok h
  split at h
  · cases h
    exact .missing
  · obtain ⟨create, -, h⟩ := bind_ok h
    split at h
    · contradiction
    · contradiction
    · next component _ =>
        split at h
        · next hname =>
            cases h
            exact .master component hname
        · next hname =>
            split at h
            · cases h
              exact .driver component hname
            · contradiction

theorem loadComponent_master (c : DeviceContainer) (nodeId : BitVec 16) (params : List Parameter)
    (remappings : OrderedMap String String) (nodeNamespace : String)
    (hcreates : loader.Creates lifecycle packageName driverName) :
    ∃ component : Component, component.isLifecycle = lifecycle ∧
      c.loadComponent loader packageName driverName nodeId "master" params remappings
        nodeNamespace = .ok (true, c.takeMaster "master" component) := by
  obtain ⟨components, resource, create, hresources, hfind, hfactory, hcreate⟩ := hcreates
  obtain ⟨component, hcomponent, hkind⟩ :=
    hcreate (c.nodeOptions "master" params remappings nodeNamespace)
  refine ⟨component, hkind, ?_⟩
  simp only [loadComponent, hresources, hfind, hfactory, hcomponent, bind, Except.bind, if_true]
  rfl

theorem loadComponent_driver (nodeId : BitVec 16) (params : List Parameter)
    (remappings : OrderedMap String String) (nodeNamespace : String)
    (hcreates : loader.Creates lifecycle packageName driverName)
    (hname : name ≠ "master") (hkind : c.lifecycleOperation = lifecycle) :
    ∃ component, c.loadComponent loader packageName driverName nodeId name params remappings
      nodeNamespace = .ok (true, c.takeDriver nodeId name component) := by
  obtain ⟨components, resource, create, hresources, hfind, hfactory, hcreate⟩ := hcreates
  obtain ⟨component, hcomponent, hkind'⟩ :=
    hcreate (c.nodeOptions name params remappings nodeNamespace)
  refine ⟨component, ?_⟩
  simp only [loadComponent, hresources, hfind, hfactory, hcomponent, bind, Except.bind,
    if_neg hname, hkind, hkind', if_true]
  rfl

end Steps

/-! ## The master -/

section Master
variable {loader : Loader} {c c' : DeviceContainer} {name : String} {names : List String}
  {lifecycle : Bool} {d : Device} {id : BitVec 8}

theorem readEntries_of_mem (hmem : (name, d) ∈ c.config.entries) (hid : d.nodeIdAs 8 = some id)
    (hloads : loader.Loads lifecycle d) : ∃ e, c.readEntries name = some e ∧
      e.nodeId = id.setWidth 16 ∧ loader.Creates lifecycle e.packageName e.driverName := by
  obtain ⟨driverName, packageName, hdriver, hpackage, hcreates⟩ := hloads
  have hid' : d.nodeIdAs 16 = some (id.setWidth 16) :=
    Device.nodeIdAs_of_nodeIdAs (by decide) hid
  simp only [readEntries, ConfigurationManager.entry_of_mem hmem, hid', hdriver, hpackage]
  exact ⟨_, rfl, rfl, hcreates⟩

/-- After the master the loop only goes on. -/
theorem loadMasterFrom_true (names : List String) (c : DeviceContainer) :
    loadMasterFrom loader names true c = .ok (true, c) := by
  induction names with
  | nil => rfl
  | cons name names ih =>
      rw [loadMasterFrom, if_neg (by simp)]
      exact ih

/-- When the loop succeeds, the component was that of "master". -/
theorem loaded_of_loadMasterFrom (hnone : c.canMaster = none)
    (h : loadMasterFrom loader names false c = .ok (true, c')) :
    c'.loaded = c.loaded ++ [("master", .master)] ∧ c'.config = c.config := by
  induction names with
  | nil => cases h
  | cons name names ih =>
      rw [loadMasterFrom] at h
      split at h
      · split at h
        · cases h
        · obtain ⟨⟨loaded, c₁⟩, hload, h⟩ := bind_ok h
          cases taken_of_loadComponent hload with
          | missing => cases h
          | master component hname =>
              subst hname
              replace h := (loadMasterFrom_true names _).symm.trans h
              cases h
              exact ⟨rfl, rfl⟩
          | driver component hname =>
              -- there is still no master
              simp only [if_true, takeDriver, hnone] at h
              cases h
      · exact ih h

/-- The only name that contains "master" is loaded as the master. -/
theorem loadMasterFrom_ok (hmem : ("master", d) ∈ c.config.entries)
    (hid : d.nodeIdAs 8 = some id) (hloads : loader.Loads lifecycle d)
    (hsole : ∀ name ∈ names, Contains "master" name → name = "master")
    (hmaster : "master" ∈ names) :
    ∃ component : Component, component.isLifecycle = lifecycle ∧
      loadMasterFrom loader names false c =
        .ok (true, (c.takeMaster "master" component).setMaster (id.setWidth 16) component) := by
  induction names with
  | nil => simp at hmaster
  | cons name names ih =>
      rw [loadMasterFrom]
      by_cases hname : Contains "master" name
      · obtain rfl := hsole name List.mem_cons_self hname
        obtain ⟨e, hread, hnode, hcreates⟩ := readEntries_of_mem hmem hid hloads
        obtain ⟨component, hkind, hload⟩ := loadComponent_master c e.nodeId
          (c.masterParams loader "master" e.nodeId) e.remappings e.nodeNamespace hcreates
        refine ⟨component, hkind, ?_⟩
        rw [if_pos ⟨hname, rfl⟩, hread, ← hnode]
        simp only [hload, bind, Except.bind, if_true]
        exact loadMasterFrom_true names _
      · rw [if_neg fun hcase => hname hcase.1]
        refine ih (fun name' hname' => hsole name' (.tail _ hname')) ?_
        rcases List.mem_cons.mp hmaster with rfl | hmaster
        · exact absurd (Contains.refl _) hname
        · exact hmaster

end Master

/-! ## The drivers -/

section Drivers
variable {loader : Loader} {c c' : DeviceContainer} {names : List String} {lifecycle : Bool}
  {e : String × Device} {es : List (String × Device)}

/-- When the loop succeeds, it has loaded the names without "master" and "options". -/
theorem loaded_of_loadDriversFrom (h : loadDriversFrom loader names c = .ok (true, c')) :
    c'.loaded = c.loaded ++
      (names.filter fun name => ¬ Contains "master" name ∧ ¬ Contains "options" name).map
        fun name => (name, .driver) := by
  induction names generalizing c with
  | nil =>
      cases h
      simp
  | cons name names ih =>
      rw [loadDriversFrom] at h
      split at h
      · next hdriver =>
          rw [List.filter_cons_of_pos (by simpa using hdriver)]
          split at h
          · cases h
          · next e _ =>
              split_ifs at h
              · cases h
              · cases h
              · obtain ⟨⟨loaded, c₁⟩, hload, h⟩ := bind_ok h
                cases taken_of_loadComponent hload with
                | missing => cases h
                | master component hname =>
                    subst hname
                    exact absurd (Contains.refl _) hdriver.1
                | driver component hname =>
                    simp only [if_true, takeDriver, Function.update_self] at h
                    rw [ih h]
                    simp
      · next hother =>
          rw [List.filter_cons_of_neg (by simpa using hother)]
          exact ih h

/-- What the loop needs of the devices it has still to go through. -/
structure Drivable (loader : Loader) (lifecycle : Bool) (c : DeviceContainer)
    (es : List (String × Device)) : Prop where
  devices : ∀ e ∈ es, e ∈ c.config.entries
  loads : ∀ e ∈ es, loader.Loads lifecycle e.2
  kind : c.lifecycleOperation = lifecycle
  names : ∀ e ∈ es, e.1 ≠ "master" → ¬ Contains "master" e.1 ∧ ¬ Contains "options" e.1
  ids : ∀ e ∈ es, e.1 ≠ "master" → ∃ id, e.2.nodeIdAs 8 = some id ∧
    id.setWidth 16 ≠ c.canMasterId ∧ c.registeredDrivers (id.setWidth 16) = none
  distinct : es.Pairwise fun e e' => e.2.nodeIdAs 8 ≠ e'.2.nodeIdAs 8

theorem Drivable.tail (h : Drivable loader lifecycle c (e :: es)) :
    Drivable loader lifecycle c es where
  devices e' he' := h.devices e' (.tail _ he')
  loads e' he' := h.loads e' (.tail _ he')
  kind := h.kind
  names e' he' := h.names e' (.tail _ he')
  ids e' he' := h.ids e' (.tail _ he')
  distinct := (List.pairwise_cons.mp h.distinct).2

theorem setWidth_inj {id id' : BitVec 8} (h : id.setWidth 16 = id'.setWidth 16) : id = id' := by
  bv_omega

theorem Drivable.takeDriver {id : BitVec 8} (h : Drivable loader lifecycle c (e :: es))
    (hid : e.2.nodeIdAs 8 = some id) (component : Component) :
    Drivable loader lifecycle (c.takeDriver (id.setWidth 16) e.1 component) es := by
  refine { h.tail with ids := fun e' he' hname => ?_ }
  obtain ⟨id', hid', hmaster, hfree⟩ := h.ids e' (.tail _ he') hname
  refine ⟨id', hid', hmaster, ?_⟩
  have hne := (List.pairwise_cons.mp h.distinct).1 e' he'
  rw [registeredDrivers_takeDriver, Function.update_of_ne, hfree]
  intro heq
  rw [hid, hid', setWidth_inj heq] at hne
  exact hne rfl

/-- The ids of the drivers, among the devices. -/
def DriverId (es : List (String × Device)) (id : BitVec 16) : Prop :=
  ∃ e ∈ es, e.1 ≠ "master" ∧ ∃ id', e.2.nodeIdAs 8 = some id' ∧ id = id'.setWidth 16

theorem loadDriversFrom_ok (h : Drivable loader lifecycle c es) :
    ∃ c', loadDriversFrom loader (es.map Prod.fst) c = .ok (true, c') ∧
      c'.canMasterId = c.canMasterId ∧
      ∀ id, (c'.registeredDrivers id).isSome ↔
        (c.registeredDrivers id).isSome ∨ DriverId es id := by
  induction es generalizing c with
  | nil => exact ⟨c, rfl, rfl, fun id => by simp [DriverId]⟩
  | cons e es ih =>
      rw [List.map_cons, loadDriversFrom]
      by_cases hname : e.1 = "master"
      · rw [if_neg fun hcase => hcase.1 (hname ▸ Contains.refl _)]
        obtain ⟨c', hload, hmaster, hregistered⟩ := ih h.tail
        refine ⟨c', hload, hmaster, fun id => (hregistered id).trans ?_⟩
        simp [DriverId, hname]
      · obtain ⟨id, hid, hne, hfree⟩ := h.ids e List.mem_cons_self hname
        obtain ⟨entries, hread, hnode, hcreates⟩ := readEntries_of_mem
          (h.devices e List.mem_cons_self) hid (h.loads e List.mem_cons_self)
        obtain ⟨component, hload⟩ := loadComponent_driver entries.nodeId
          (c.driverParams loader e.1 entries.nodeId) entries.remappings entries.nodeNamespace
          hcreates hname h.kind
        obtain ⟨c', hrest, hmaster, hregistered⟩ := ih (h.takeDriver hid component)
        rw [← hnode] at hne hfree hrest hregistered
        refine ⟨c', ?_, hmaster, fun id' => (hregistered id').trans ?_⟩
        · rw [if_pos (h.names e List.mem_cons_self hname), hread]
          simp only [if_neg hne, hfree, Option.isSome_none, Bool.false_eq_true, if_false, hload,
            bind, Except.bind, if_true, registeredDrivers_takeDriver, Function.update_self, hrest]
        · rw [registeredDrivers_takeDriver]
          by_cases hid' : id' = entries.nodeId
          · subst hid'
            simp [DriverId, hname, hid, hnode]
          · rw [Function.update_of_ne hid']
            rw [hnode] at hid'
            simp [DriverId, hname, hid, hid']

end Drivers

/-! ## The whole load -/

section Load
variable {loader : Loader} {c c' : DeviceContainer} {lifecycle : Bool} {master : BitVec 8}

/-- A load that succeeds took "master" as the master, and the names without "master" and
"options" as drivers. -/
theorem loaded_of_load (hnone : c.canMaster = none) (h : c.load loader = .ok c') :
    c'.loaded = c.loaded ++ ("master", .master) ::
      (c.config.getAllDevices.filter fun name =>
        ¬ Contains "master" name ∧ ¬ Contains "options" name).map fun name => (name, .driver) := by
  obtain ⟨⟨loaded, c₁⟩, hmaster, h⟩ := bind_ok h
  cases loaded with
  | false => cases h
  | true =>
      obtain ⟨⟨loaded, c₂⟩, hdrivers, h⟩ := bind_ok h
      cases loaded with
      | false => cases h
      | true =>
          rw [loadMaster] at hmaster
          split at hmaster
          · cases hmaster
          · obtain ⟨hloaded₁, hconfig⟩ := loaded_of_loadMasterFrom hnone hmaster
            rw [loadDrivers] at hdrivers
            split at hdrivers
            · cases hdrivers
            · cases h
              simp [loaded_of_loadDriversFrom hdrivers, hloaded₁, hconfig]

/-- After the master, the others can be loaded as drivers. -/
theorem drivable (hvalid : c.config.Valid master)
    (hloads : ∀ e ∈ c.config.entries, loader.Loads lifecycle e.2)
    (hnames : c.config.PlainNames) (hfree : ∀ id, c.registeredDrivers id = none)
    {component : Component} (hkind : component.isLifecycle = lifecycle) :
    Drivable loader lifecycle
      ((c.takeMaster "master" component).setMaster (master.setWidth 16) component)
      c.config.entries where
  devices e he := he
  loads := hloads
  kind := hkind
  names := hnames
  ids e he hname := by
    obtain ⟨id, hid⟩ := hvalid.ids e he
    refine ⟨id, hid, fun heq => ?_, hfree _⟩
    -- no other device has the id of the master
    obtain rfl := setWidth_inj heq
    obtain ⟨d, hd, hid'⟩ := hvalid.master
    have hsymm : Std.Symm fun e e' : String × Device => e.2.nodeIdAs 8 ≠ e'.2.nodeIdAs 8 :=
      ⟨fun _ _ h => h.symm⟩
    refine hvalid.distinct.forall he hd (fun heq => hname ?_) (hid.trans hid'.symm)
    rw [heq]
  distinct := hvalid.distinct

/-- Without such names, the load succeeds and every other device is a driver. -/
theorem load_ok (hvalid : c.config.Valid master)
    (hloads : ∀ e ∈ c.config.entries, loader.Loads lifecycle e.2)
    (hnames : c.config.PlainNames) (hfree : ∀ id, c.registeredDrivers id = none) :
    ∃ c', c.load loader = .ok c' ∧ c'.canMasterId = master.setWidth 16 ∧
      ∀ id, (c'.registeredDrivers id).isSome ↔ DriverId c.config.entries id := by
  obtain ⟨d, hd, hid⟩ := hvalid.master
  have hmem : "master" ∈ c.config.getAllDevices := List.mem_map_of_mem hd
  have hsole : ∀ name ∈ c.config.getAllDevices, Contains "master" name → name = "master" := by
    intro name hname hcontains
    obtain ⟨e, he, rfl⟩ := List.mem_map.mp hname
    by_contra hne
    exact (hnames e he hne).1 hcontains
  have hlength : c.config.getAllDevices.length ≠ 0 :=
    fun hzero => List.ne_nil_of_mem hmem (List.length_eq_zero_iff.mp hzero)
  obtain ⟨component, hkind, hmaster⟩ := loadMasterFrom_ok hd hid (hloads _ hd) hsole hmem
  obtain ⟨c₂, hdrivers, hid₂, hregistered⟩ :=
    loadDriversFrom_ok (drivable hvalid hloads hnames hfree hkind)
  refine ⟨c₂.loadManager.2, ?_, ?_, fun id => ?_⟩
  · have hload₁ : c.loadMaster loader = .ok (true,
        (c.takeMaster "master" component).setMaster (master.setWidth 16) component) := by
      rw [loadMaster, if_neg hlength, hmaster]
    have hload₂ : ((c.takeMaster "master" component).setMaster (master.setWidth 16)
        component).loadDrivers loader = .ok (true, c₂) := by
      rw [loadDrivers, config_setMaster, config_takeMaster, if_neg hlength]
      exact hdrivers
    simp only [load, hload₁, hload₂, bind, Except.bind, if_true, loadManager]
    rfl
  · exact hid₂
  · refine (hregistered id).trans ?_
    simp [takeMaster, setMaster, hfree]

/-- The same for the container as it is constructed. -/
theorem init_ok {root : List (String × Device)}
    (hvalid : (ConfigurationManager.initConfig root).Valid master)
    (hloads : ∀ e ∈ (ConfigurationManager.initConfig root).entries, loader.Loads lifecycle e.2)
    (hnames : (ConfigurationManager.initConfig root).PlainNames)
    (fullyQualifiedName ns canInterfaceName masterConfig masterBin : String)
    (canMasterId : BitVec 16) :
    ∃ c', (initial fullyQualifiedName ns canMasterId).init loader canInterfaceName masterConfig
        masterBin root = .ok c' ∧ c'.canMasterId = master.setWidth 16 ∧
      ∀ id, (c'.registeredDrivers id).isSome ↔
        ∃ id', (ConfigurationManager.initConfig root).IsDriver id' ∧ id = id'.setWidth 16 := by
  obtain ⟨c', hload, hid, hregistered⟩ := load_ok
    (c := { initial fullyQualifiedName ns canMasterId with
      canInterfaceName := canInterfaceName
      dcfTxt := masterConfig
      dcfBin := masterBin
      config := ConfigurationManager.initConfig root })
    hvalid hloads hnames fun _ => rfl
  refine ⟨c', hload, hid, fun id => (hregistered id).trans ⟨?_, ?_⟩⟩
  · rintro ⟨⟨name, d⟩, hmem, hname, id', hid', rfl⟩
    exact ⟨id', ⟨name, d, hmem, hname, hid'⟩, rfl⟩
  · rintro ⟨id', ⟨name, d, hmem, hname, hid'⟩, rfl⟩
    exact ⟨⟨name, d⟩, hmem, hname, id', hid', rfl⟩

end Load

end DeviceContainer
end RosCanopen.Core
