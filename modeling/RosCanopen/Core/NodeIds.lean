import RosCanopen.Core.Container
import RosCanopen.Core.Lifecycle

/-!
# The node ids on the bus

A node id is an entry of the configuration, which the container reads with 16 bits: it checks
it against the others, registers a driver under it and hands it to the node as a parameter.  The
node keeps the lower 8 bits, with which it goes on the bus, and the manager reads the entry with 8
bits.  These agree for the ids that a CANopen node can have, and nothing checks that the ids of
a configuration are such.

## Main definitions

* `DeviceContainer.usedId` — the id with which the node of a device goes on the bus.
* `DeviceContainer.Addressed` — the ids are valid and distinct, and lead to their devices.
* `DeviceContainer.Addressable` — the entries for which they are.
-/

namespace RosCanopen.Core

open Lib

/-- `get_parameter("node_id", node_id_)` of `configure`, in a master and in a driver. -/
def NodeOptions.nodeId (opts : NodeOptions) : Option (BitVec 8) :=
  match opts.parameterOverrides.lookup "node_id" with
  | some (.integer n) => some (BitVec.ofInt 8 n)
  | _ => none

namespace DeviceContainer

/-- The options with which the load creates the node of a device. -/
def optionsFor (loader : Loader) (c : DeviceContainer) (name : String) (role : Role)
    (e : Entries) : NodeOptions :=
  match role with
  | .master =>
      c.nodeOptions name (c.masterParams loader name e.nodeId) e.remappings e.nodeNamespace
  | .driver =>
      c.nodeOptions name (c.driverParams loader name e.nodeId) e.remappings e.nodeNamespace

/-- The id that the node of the device keeps. -/
def usedId (loader : Loader) (c : DeviceContainer) (name : String) (role : Role) :
    Option (BitVec 8) :=
  (c.readEntries name).bind fun e => (c.optionsFor loader name role e).nodeId

/-- The node that is created for the device, when it is. -/
def created (loader : Loader) (c : DeviceContainer) (name : String) (role : Role) :
    Option Component := do
  let e ← c.readEntries name
  let components ← (loader.resources e.packageName).toOption
  let resource ← components.find? fun resource => resource.1 = e.driverName
  let create ← (loader.factory resource).toOption
  (create (c.optionsFor loader name role e)).toOption

/-- The devices that are loaded as drivers. -/
def driverNames (c : DeviceContainer) : List String :=
  c.config.getAllDevices.filter fun name => ¬ Contains "master" name ∧ ¬ Contains "options" name

/-- The entries of the drivers are ids that a CANopen node can have, and so are the lower 8 bits of
the master's, which no driver has; the master of a lifecycle operation has no more bits. -/
structure Addressable (loader : Loader) (c : DeviceContainer) : Prop where
  drivers : ∀ name ∈ c.driverNames, ∀ e, c.readEntries name = some e →
    1 ≤ e.nodeId.toNat ∧ e.nodeId.toNat ≤ 127
  master : ∀ e, c.readEntries "master" = some e →
    1 ≤ e.nodeId.toNat % 256 ∧ e.nodeId.toNat % 256 ≤ 127
  apart : ∀ e, c.readEntries "master" = some e → ∀ name ∈ c.driverNames, ∀ e',
    c.readEntries name = some e' → e'.nodeId.toNat ≠ e.nodeId.toNat % 256
  managed : ∀ e component, c.readEntries "master" = some e →
    c.created loader "master" .master = some component → component.isLifecycle = true →
      e.nodeId.toNat < 256

section
variable {loader : Loader} {c c' : DeviceContainer} {name : String} {role : Role} {e : Entries}

theorem usedId_eq (h : c.readEntries name = some e) :
    c.usedId loader name role = some (e.nodeId.setWidth 8) := by
  have hcast : BitVec.ofInt 8 (e.nodeId.toNat : ℤ) = e.nodeId.setWidth 8 := by
    rw [BitVec.ofInt_natCast, BitVec.ofNat_toNat]
  rw [usedId, h, Option.bind_some, ← hcast]
  cases role <;> rfl

/-- A node that is loaded was created from the options. -/
theorem created_of_loadComponent (role : Role) {params : List Parameter}
    (hread : c.readEntries name = some e)
    (hopts : c.nodeOptions name params e.remappings e.nodeNamespace =
      c.optionsFor loader name role e)
    (h : c.loadComponent loader e.packageName e.driverName e.nodeId name params e.remappings
      e.nodeNamespace = .ok (true, c')) :
    ∃ component, c.created loader name role = some component ∧
      c' = if name = "master" then c.takeMaster name component
        else c.takeDriver e.nodeId name component := by
  obtain ⟨components, hresources, h⟩ := bind_ok h
  split at h
  · cases h
  · next resource hresource =>
      obtain ⟨create, hfactory, h⟩ := bind_ok h
      rw [hopts] at h
      have hcreated : c.created loader name role =
          (create (c.optionsFor loader name role e)).toOption := by
        simp [created, hread, hresources, hresource, hfactory, Except.toOption]
      split at h
      · contradiction
      · contradiction
      · next component hcomponent =>
          refine ⟨component, by rw [hcreated, hcomponent]; rfl, ?_⟩
          split at h
          · next hname =>
              rw [if_pos hname]
              cases h
              rfl
          · next hname =>
              rw [if_neg hname]
              split at h
              · cases h
                rfl
              · contradiction

/-- The loop of `load_master` has created the node of "master". -/
theorem created_of_loadMasterFrom {names : List String} (hnone : c.canMaster = none)
    (h : loadMasterFrom loader names false c = .ok (true, c')) :
    ∃ e component, c.readEntries "master" = some e ∧
      c.created loader "master" .master = some component ∧
      c' = (c.takeMaster "master" component).setMaster e.nodeId component := by
  induction names with
  | nil => cases h
  | cons name names ih =>
      rw [loadMasterFrom] at h
      split at h
      · split at h
        · cases h
        · next e hread =>
            obtain ⟨⟨loaded, c₁⟩, hload, h⟩ := bind_ok h
            cases loaded with
            | false => cases h
            | true =>
                obtain ⟨component, hcreated, hc₁⟩ :=
                  created_of_loadComponent .master hread rfl hload
                by_cases hname : name = "master"
                · subst hname
                  rw [if_pos rfl] at hc₁
                  subst hc₁
                  replace h := (loadMasterFrom_true names _).symm.trans h
                  cases h
                  exact ⟨e, component, hread, hcreated, rfl⟩
                · -- there is still no master
                  rw [if_neg hname] at hc₁
                  subst hc₁
                  simp only [if_true, takeDriver, hnone] at h
                  cases h
      · exact ih h

/-- What a load of drivers with the names does. -/
structure LoadsDrivers (loader : Loader) (c c' : DeviceContainer) (names : List String) : Prop where
  config : c'.config = c.config
  lifecycleOperation : c'.lifecycleOperation = c.lifecycleOperation
  lifecycleManager : c'.lifecycleManager = c.lifecycleManager
  kept : ∀ k component, c.registeredDrivers k = some component →
    c'.registeredDrivers k = some component
  registered : ∀ name ∈ names, ∃ e component, c.readEntries name = some e ∧
    e.nodeId ≠ c.canMasterId ∧ c.registeredDrivers e.nodeId = none ∧
    c.created loader name .driver = some component ∧
    c'.registeredDrivers e.nodeId = some component
  distinct : names.Pairwise fun name name' => ∀ e e', c.readEntries name = some e →
    c.readEntries name' = some e' → e.nodeId ≠ e'.nodeId

/-- A driver that is loaded before the others. -/
theorem LoadsDrivers.cons {component : Component} {names : List String}
    (hread : c.readEntries name = some e) (hmaster : e.nodeId ≠ c.canMasterId)
    (hfree : c.registeredDrivers e.nodeId = none)
    (hcreated : c.created loader name .driver = some component)
    (h : LoadsDrivers loader (c.takeDriver e.nodeId name component) c' names) :
    LoadsDrivers loader c c' (name :: names) := by
  have hothers : ∀ name' ∈ names, ∃ e' component', c.readEntries name' = some e' ∧
      e'.nodeId ≠ c.canMasterId ∧ e'.nodeId ≠ e.nodeId ∧
      c.registeredDrivers e'.nodeId = none ∧
      c.created loader name' .driver = some component' ∧
      c'.registeredDrivers e'.nodeId = some component' := by
    intro name' hname'
    obtain ⟨e', component', hread', hmaster', hfree', hcreated', hreg'⟩ := h.registered name' hname'
    rw [registeredDrivers_takeDriver] at hfree'
    have hne : e'.nodeId ≠ e.nodeId := by
      intro heq
      simp [heq] at hfree'
    rw [Function.update_of_ne hne] at hfree'
    exact ⟨e', component', hread', hmaster', hne, hfree', hcreated', hreg'⟩
  refine ⟨h.config, h.lifecycleOperation, h.lifecycleManager, ?_, ?_, ?_⟩
  · intro k component' hk
    have hne : k ≠ e.nodeId := by
      rintro rfl
      simp [hfree] at hk
    apply h.kept
    rw [registeredDrivers_takeDriver, Function.update_of_ne hne, hk]
  · intro name' hname'
    rcases List.mem_cons.mp hname' with rfl | hname'
    · refine ⟨e, component, hread, hmaster, hfree, hcreated, h.kept _ _ ?_⟩
      rw [registeredDrivers_takeDriver, Function.update_self]
    · obtain ⟨e', component', hread', hmaster', -, hrest⟩ := hothers name' hname'
      exact ⟨e', component', hread', hmaster', hrest⟩
  · refine .cons (fun name' hname' e₁ e₂ h₁ h₂ => ?_) h.distinct
    obtain ⟨e', -, hread', -, hne, -⟩ := hothers name' hname'
    obtain rfl := Option.some.inj (hread.symm.trans h₁)
    obtain rfl := Option.some.inj (hread'.symm.trans h₂)
    exact hne.symm

theorem loadsDrivers_of_loadDriversFrom {names : List String}
    (h : loadDriversFrom loader names c = .ok (true, c')) :
    LoadsDrivers loader c c'
      (names.filter fun name => ¬ Contains "master" name ∧ ¬ Contains "options" name) := by
  induction names generalizing c with
  | nil =>
      cases h
      exact ⟨rfl, rfl, rfl, fun _ _ h => h, (fun _ h => nomatch h), .nil⟩
  | cons name names ih =>
      rw [loadDriversFrom] at h
      split at h
      · next hdriver =>
          rw [List.filter_cons_of_pos (by simpa using hdriver)]
          have hname : name ≠ "master" := by
            rintro rfl
            exact hdriver.1 (Contains.refl _)
          split at h
          · cases h
          · next e hread =>
              split_ifs at h with hmaster hregistered
              · cases h
              · cases h
              · obtain ⟨⟨loaded, c₁⟩, hload, h⟩ := bind_ok h
                cases loaded with
                | false => cases h
                | true =>
                    obtain ⟨component, hcreated, hc₁⟩ :=
                      created_of_loadComponent .driver hread rfl hload
                    rw [if_neg hname] at hc₁
                    subst hc₁
                    have hfree : c.registeredDrivers e.nodeId = none := by simpa using hregistered
                    simp only [if_true, registeredDrivers_takeDriver, Function.update_self] at h
                    exact (ih h).cons hread hmaster hfree hcreated
      · next hother =>
          rw [List.filter_cons_of_neg (by simpa using hother)]
          exact ih h

/-- What a load that succeeds has done, with the entries and the node of the master. -/
structure Loads (loader : Loader) (c c' : DeviceContainer) (e : Entries) (component : Component) :
    Prop where
  master : c.readEntries "master" = some e
  created : c.created loader "master" .master = some component
  loaded : c'.loaded = c.loaded ++ ("master", .master) ::
    c.driverNames.map fun name => (name, .driver)
  drivers : ∀ name ∈ c.driverNames, ∃ e' component', c.readEntries name = some e' ∧
    c.created loader name .driver = some component' ∧
    c'.registeredDrivers e'.nodeId = some component'
  distinct : c.driverNames.Pairwise fun name name' => ∀ e e', c.readEntries name = some e →
    c.readEntries name' = some e' → e.nodeId ≠ e'.nodeId
  lifecycleManager : c'.lifecycleManager =
    if component.isLifecycle then some c.config else c.lifecycleManager

theorem loads_of_load (hnone : c.canMaster = none) (h : c.load loader = .ok c') :
    ∃ e component, Loads loader c c' e component := by
  have hloaded := loaded_of_load hnone h
  obtain ⟨⟨loaded, c₁⟩, hmaster, hrest⟩ := bind_ok h
  cases loaded with
  | false => cases hrest
  | true =>
      obtain ⟨⟨loaded, c₂⟩, hdrivers, hend⟩ := bind_ok hrest
      cases loaded with
      | false => cases hend
      | true =>
          rw [loadMaster] at hmaster
          split at hmaster
          · cases hmaster
          · obtain ⟨e, component, hread, hcreated, rfl⟩ := created_of_loadMasterFrom hnone hmaster
            rw [loadDrivers] at hdrivers
            split at hdrivers
            · cases hdrivers
            · have hloads := loadsDrivers_of_loadDriversFrom hdrivers
              cases hend
              refine ⟨e, component, hread, hcreated, hloaded, ?_, hloads.distinct, ?_⟩
              · intro name hname
                obtain ⟨e', component', hread', -, -, hrest⟩ := hloads.registered name hname
                exact ⟨e', component', hread', hrest⟩
              · simp only [hloads.config, hloads.lifecycleOperation, hloads.lifecycleManager]
                rfl

/-! ## The entries -/

/-- The id that the load reads is the entry of the device. -/
theorem nodeId_of_readEntries (h : c.readEntries name = some e) :
    ∃ d, (name, d) ∈ c.config.entries ∧ d.nodeId = some e.nodeId.toNat := by
  obtain ⟨nodeId, hid, h⟩ := Option.bind_eq_some_iff.mp h
  obtain ⟨driverName, -, h⟩ := Option.bind_eq_some_iff.mp h
  obtain ⟨packageName, -, h⟩ := Option.bind_eq_some_iff.mp h
  obtain rfl := Option.some.inj h
  obtain ⟨d, hfind, hd⟩ := Option.bind_eq_some_iff.mp hid
  obtain ⟨⟨name', d'⟩, hmem, rfl⟩ := Option.map_eq_some_iff.mp hfind
  obtain rfl : name' = name := by simpa using List.find?_some hmem
  exact ⟨d', List.mem_of_find?_eq_some hmem, Device.nodeIdAs_eq_some hd⟩

theorem Loads.mem_loaded {component : Component} (hc : Loads loader c c' e component)
    (hnone : c.loaded = []) : (name, role) ∈ c'.loaded ↔
      (name = "master" ∧ role = .master) ∨ (name ∈ c.driverNames ∧ role = .driver) := by
  simp [hc.loaded, hnone, and_comm, eq_comm]

/-- The ids that the nodes use are valid. -/
theorem Loads.range {component : Component} (hc : Loads loader c c' e component)
    (hnone : c.loaded = []) (h : Addressable loader c) (hmem : (name, role) ∈ c'.loaded) :
    ∃ id, c.usedId loader name role = some id ∧ 1 ≤ id.toNat ∧ id.toNat ≤ 127 := by
  rcases (hc.mem_loaded hnone).mp hmem with ⟨rfl, rfl⟩ | ⟨hname, rfl⟩
  · refine ⟨_, usedId_eq hc.master, ?_⟩
    rw [BitVec.toNat_setWidth]
    exact h.master e hc.master
  · obtain ⟨e', -, he', -, -⟩ := hc.drivers name hname
    have hrange := h.drivers name hname e' he'
    refine ⟨_, usedId_eq he', ?_⟩
    rw [BitVec.toNat_setWidth]
    omega

end

/-- The container in `init` when the configuration is read. -/
def prepared (fullyQualifiedName ns canInterfaceName masterConfig masterBin : String)
    (canMasterId : BitVec 16) (root : List (String × Device)) : DeviceContainer :=
  { initial fullyQualifiedName ns canMasterId with
    canInterfaceName := canInterfaceName
    dcfTxt := masterConfig
    dcfBin := masterBin
    config := ConfigurationManager.initConfig root }

/-- A loader whose components are all of one class. -/
def oneClass : Loader where
  resources _ := .ok [("ros2_canopen::ProxyDriver", "libproxy_driver.so")]
  factory _ := .ok fun _ => .ok ⟨false⟩
  dump _ := ""

def deviceWith (nodeId : ℕ) : Device :=
  ⟨some nodeId, some "ros2_canopen::ProxyDriver", some "canopen_proxy_driver", none, none,
    some (some "config")⟩

/-- A master and two drivers. -/
def twoDrivers (left right : ℕ) : List (String × Device) :=
  [("master", deviceWith 1), ("left", deviceWith left), ("right", deviceWith right)]

end DeviceContainer
end RosCanopen.Core
