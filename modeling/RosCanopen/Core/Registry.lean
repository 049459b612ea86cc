import Mathlib.Data.List.Count
import Mathlib.Data.List.Sort
import RosCanopen.Core.NodeIds
import RosCanopen.Lib.Throws

/-!
# The registered drivers of a container

`init` runs in a thread of its own, and fails in many places; the services of the container are
called at any time, and its destructor shuts down whatever was loaded.  `registered_drivers_` is
a map of pointers that `operator[]` extends by a null pointer for a key it does not have.

## Main definitions

* `Registry` — the container with the keys of `registered_drivers_` and the place `init` is at.
* `Registry.step`, `Registry.system` — `init` step by step, the services, `shutdown`, and the
  destructor.
* `Registry.Exact`, `Registry.Answers` — the keys are the loaded drivers, and a step does what
  it should.
* `Registry.heeded` — the steps that do not follow a null pointer.
-/

namespace RosCanopen.Core

open Lib

/-- The parameters of a container; `none` where `get_parameter` finds none. -/
structure ContainerParameters where
  canInterfaceName : Option String
  masterConfig : Option String
  masterBin : Option String
  busConfig : Option String

/-- The sections of a bus configuration file; `none` where reading it throws. -/
abbrev ReadFile := String → Option (List (String × Device))

/-- The two variants of `init`. -/
inductive InitCall
  | parameters (p : ContainerParameters)
  | direct (canInterfaceName masterConfig busConfig masterBin : String)

namespace DeviceContainer

/-- A parameter is read, and stored. -/
def getParameter (value : Option String) (set : String → DeviceContainer → DeviceContainer) :
    EStateM Failure DeviceContainer String := do
  match value with
  | none => throw (.container "Fatal: Getting Parameter failed.")
  | some v =>
      modify (set v)
      return v

/-- The exception for a parameter that is there, but empty. -/
def unset (value : String) : Option Failure :=
  if value.length = 0 then some (.container "Fatal: Getting Parameter failed.") else none

/-- `configure` -/
def configure (p : ContainerParameters) (read : ReadFile) :
    EStateM Failure DeviceContainer Unit := do
  let canInterfaceName ← getParameter p.canInterfaceName fun v c => { c with canInterfaceName := v }
  let masterConfig ← getParameter p.masterConfig fun v c => { c with dcfTxt := v }
  let _ ← getParameter p.masterBin fun v c => { c with dcfBin := v }
  let busConfig ← getParameter p.busConfig fun _ c => c
  attempt (unset canInterfaceName)
  attempt (unset masterConfig)
  attempt (unset busConfig)
  match (read busConfig).bind ConfigurationManager.initConfig? with
  | none =>
      modify fun c => { c with config := .empty }
      throw (.container ("Fatal: Loading bus configuration " ++ busConfig ++ " failed."))
  | some config => modify fun c => { c with config }

/-- `init` up to the loading of the master.  Where reading the file throws it leaves a
configuration without devices, as `configure` does; in the source it is the one before or a
null pointer, which nothing reads before the next `init`. -/
def beginInit (call : InitCall) (read : ReadFile) : EStateM Failure DeviceContainer Unit := do
  match call with
  | .parameters p => configure p read
  | .direct canInterfaceName masterConfig busConfig masterBin =>
      modify fun c =>
        { c with canInterfaceName, dcfTxt := masterConfig, dcfBin := masterBin, config := .empty }
      match (read busConfig).bind ConfigurationManager.initConfig? with
      | none => throw (.loader ("reading " ++ busConfig))
      | some config => modify fun c => { c with config }

end DeviceContainer

/-- Where `init` is, with the names of the devices still to go through. -/
inductive InitPc
  | idle
  /-- The loop of `load_master`. -/
  | masters (names : List String) (masterFound : Bool)
  /-- `load_master`, behind its `load_component`. -/
  | masterLoaded (nodeId : BitVec 16) (names : List String)
  /-- The loop of `load_drivers`. -/
  | drivers (names : List String)
  /-- `load_drivers`, behind its `load_component`. -/
  | driverLoaded (nodeId : BitVec 16) (names : List String)
  /-- `load_manager` -/
  | manager
  /-- `load_manager`, with the manager constructed. -/
  | managerLoaded
  deriving DecidableEq

/-- How a call of `shutdown` of a driver or of the master ends. -/
inductive ShutdownEnd
  | returns
  /-- With a `std::exception`. -/
  | throws
  | throwsOther
  deriving DecidableEq

/-- What the master and the driver do when a driver is initialised: the pointers to the executor
and to the master or their exceptions, and the exception of `set_master`. -/
structure MasterAnswer where
  executor : Except String (Option ℕ)
  master : Except String (Option ℕ)
  setMaster : Option String

/-- A node that `list_components` asks for its name. -/
inductive Listed
  | master
  | manager
  | driver (nodeId : BitVec 16)
  deriving DecidableEq

inductive RegistryInput
  | init (call : InitCall) (read : ReadFile)
  /-- `init` goes on, with what the class loader gives. -/
  | proceed (loader : Loader)
  /-- What `init` calls there throws. -/
  | throw (what : String)
  | initDriver (nodeId : BitVec 16) (answer : MasterAnswer)
  | listNodes
  | shutdown (ends : BitVec 16 → ShutdownEnd) (masterEnd : ShutdownEnd)
  | destroy (ends : BitVec 16 → ShutdownEnd) (masterEnd : ShutdownEnd)

/-- A step of `init`. -/
def RegistryInput.isInit : RegistryInput → Bool
  | .init _ _ | .proceed _ | .throw _ => true
  | _ => false

inductive RegistryEvent
  /-- `load_component` has succeeded for a driver. -/
  | loaded (nodeId : BitVec 16)
  | initReturned
  | initThrew (failure : Failure)
  /-- A null pointer is followed. -/
  | dereferenced
  /-- `set_master` of a driver is called. -/
  | handed (nodeId : BitVec 16) (executor master : Option ℕ)
  /-- The response of `~/init_driver`. -/
  | answered (success : Bool)
  /-- An exception leaves the callback of `~/init_driver`. -/
  | requestThrew (what : String)
  /-- The response of `on_list_nodes`. -/
  | listed (components : BitVec 16 → Option Listed)
  | driverShutdown (nodeId : BitVec 16)
  | masterShutdown
  /-- An exception leaves `shutdown`. -/
  | shutdownThrew

structure Registry where
  container : DeviceContainer
  /-- The keys of `registered_drivers_`, in order; the value of one without a driver is null. -/
  keys : List (BitVec 16)
  pc : InitPc
  /-- The container has been destroyed, or has followed a null pointer. -/
  gone : Bool

namespace Registry

/-- `operator[]` -/
def insertKey (nodeId : BitVec 16) (keys : List (BitVec 16)) : List (BitVec 16) :=
  if keys.contains nodeId then keys
  else keys.orderedInsert (fun a b => a.toNat ≤ b.toNat) nodeId

/-- The end of the process. -/
def crash (s : Registry) : Registry × List RegistryEvent :=
  ({ s with gone := true }, [.dereferenced])

/-- `init` ends by an exception. -/
def fail (s : Registry) (failure : Failure) : Registry × List RegistryEvent :=
  ({ s with pc := .idle }, [.initThrew failure])

/-- A component has been loaded as a driver. -/
def register (s : Registry) (nodeId : BitVec 16) (container : DeviceContainer) : Registry :=
  { s with container, keys := insertKey nodeId s.keys }

/-- The step of `load_master` for a name. -/
def masterStep (loader : Loader) (s : Registry) (name : String) (names : List String)
    (masterFound : Bool) : Registry × List RegistryEvent :=
  if Contains "master" name ∧ masterFound = false then
    match s.container.readEntries name with
    | none => s.fail (.container "Fatal: Loading Master Failed.")
    | some e =>
        match s.container.loadComponent loader e.packageName e.driverName e.nodeId name
          (s.container.masterParams loader name e.nodeId) e.remappings e.nodeNamespace with
        | .error failure => s.fail failure
        | .ok (false, _) => s.fail (.container "Fatal: Loading Master Failed.")
        | .ok (true, container) =>
            let s := { s with pc := .masterLoaded e.nodeId names }
            if name = "master" then ({ s with container }, [])
            -- a driver as far as `load_component` is concerned
            else (s.register e.nodeId container, [.loaded e.nodeId])
  else ({ s with pc := .masters names masterFound }, [])

/-- The step of `load_drivers` for a name. -/
def driverStep (loader : Loader) (s : Registry) (name : String) (names : List String) :
    Registry × List RegistryEvent :=
  if ¬ Contains "master" name ∧ ¬ Contains "options" name then
    match s.container.readEntries name with
    | none => s.fail (.container "Fatal: Loading Drivers Failed.")
    | some e =>
        if e.nodeId = s.container.canMasterId then
          s.fail (.container "Fatal: Loading Drivers Failed.")
        else if s.keys.contains e.nodeId then s.fail (.container "Fatal: Loading Drivers Failed.")
        else
          match s.container.loadComponent loader e.packageName e.driverName e.nodeId name
            (s.container.driverParams loader name e.nodeId) e.remappings e.nodeNamespace with
          | .error failure => s.fail failure
          | .ok (false, _) => s.fail (.container "Fatal: Loading Drivers Failed.")
          | .ok (true, container) =>
              ({ s with pc := .driverLoaded e.nodeId names }.register e.nodeId container,
                [.loaded e.nodeId])
  else ({ s with pc := .drivers names }, [])

/-- `init` goes on. -/
def proceed (loader : Loader) (s : Registry) : Option (Registry × List RegistryEvent) :=
  match s.pc with
  | .idle => none
  | .masters [] masterFound =>
      some (if masterFound then ({ s with pc := .drivers s.container.config.getAllDevices }, [])
        else s.fail (.container "Fatal: Loading Master Failed."))
  | .masters (name :: names) masterFound => some (s.masterStep loader name names masterFound)
  | .masterLoaded nodeId names =>
      some (match s.container.canMaster with
        | none => s.crash
        | some master =>
            ({ s with
              container := s.container.setMaster nodeId master
              pc := .masters names true }, []))
  | .drivers [] => some ({ s with pc := .manager }, [])
  | .drivers (name :: names) => some (s.driverStep loader name names)
  | .driverLoaded nodeId names =>
      some (match s.container.registeredDrivers nodeId with
        | none => s.crash
        | some _ => ({ s with pc := .drivers names }, []))
  | .manager =>
      some (if s.container.lifecycleOperation then
        ({ s with container := s.container.loadManager.2, pc := .managerLoaded }, [])
      else ({ s with pc := .idle }, [.initReturned]))
  | .managerLoaded => some ({ s with pc := .idle }, [.initReturned])

/-- What `init` calls throws; the pointers are followed before. -/
def throws (s : Registry) (what : String) : Option (Registry × List RegistryEvent) :=
  match s.pc with
  | .idle => none
  | .masterLoaded _ _ =>
      some (if s.container.canMaster.isSome then s.fail (.loader what) else s.crash)
  | .driverLoaded nodeId _ =>
      some (if (s.container.registeredDrivers nodeId).isSome then s.fail (.loader what)
        else s.crash)
  | _ => some (s.fail (.loader what))

/-- `init_driver` behind `operator[]`; the pointer to the driver is followed last. -/
def handMaster (s : Registry) (nodeId : BitVec 16) (answer : MasterAnswer) :
    Registry × List RegistryEvent :=
  match s.container.canMaster with
  | none => s.crash
  | some _ =>
      match answer.executor, answer.master with
      | .error what, _ | _, .error what => (s, [.requestThrew what])
      | .ok executor, .ok master =>
          match s.container.registeredDrivers nodeId with
          | none => s.crash
          | some _ =>
              match answer.setMaster with
              | some what => (s, [.requestThrew what, .handed nodeId executor master])
              | none => (s, [.answered true, .handed nodeId executor master])

/-- `init_driver` -/
def initDriver (s : Registry) (nodeId : BitVec 16) (answer : MasterAnswer) :
    Registry × List RegistryEvent :=
  { s with keys := insertKey nodeId s.keys }.handMaster nodeId answer

/-- `list_components`; `none` where a null pointer is followed. -/
def listComponents (s : Registry) : Option (BitVec 16 → Option Listed) :=
  if s.container.canMaster.isNone then none
  else if s.container.lifecycleOperation && s.container.lifecycleManager.isNone then none
  else if s.keys.any fun nodeId => (s.container.registeredDrivers nodeId).isNone then none
  else
    let components : BitVec 16 → Option Listed :=
      Function.update (fun _ => none) s.container.canMasterId (some .master)
    let components :=
      if s.container.lifecycleOperation then Function.update components 256 (some .manager)
      else components
    some (s.keys.foldl (fun components nodeId =>
      Function.update components nodeId (some (.driver nodeId))) components)

def onListNodes (s : Registry) : Registry × List RegistryEvent :=
  match s.listComponents with
  | none => s.crash
  | some components => (s, [.listed components])

/-- How far `shutdown` gets. -/
inductive ShutdownResult
  | done
  | threw
  | crashed

/-- The loop of `shutdown`, with its calls newest first. -/
def shutdownDrivers (s : Registry) (ends : BitVec 16 → ShutdownEnd) :
    List (BitVec 16) → List RegistryEvent → ShutdownResult × List RegistryEvent
  | [], es => (.done, es)
  | nodeId :: keys, es =>
      match s.container.registeredDrivers nodeId with
      | none => (.crashed, es)
      | some _ =>
          match ends nodeId with
          -- only `std::exception` is caught
          | .throwsOther => (.threw, .driverShutdown nodeId :: es)
          | .returns | .throws => s.shutdownDrivers ends keys (.driverShutdown nodeId :: es)

/-- `shutdown` -/
def shutdownAll (s : Registry) (ends : BitVec 16 → ShutdownEnd) (masterEnd : ShutdownEnd) :
    Registry × List RegistryEvent :=
  match s.shutdownDrivers ends s.keys [] with
  | (.crashed, es) => ({ s with gone := true }, .dereferenced :: es)
  | (.threw, es) => (s, .shutdownThrew :: es)
  | (.done, es) =>
      match s.container.canMaster with
      | none => ({ s with gone := true }, .dereferenced :: es)
      | some _ =>
          if masterEnd = .throwsOther then (s, .shutdownThrew :: .masterShutdown :: es)
          else (s, .masterShutdown :: es)

def step (s : Registry) (i : RegistryInput) : Option (Registry × List RegistryEvent) :=
  if s.gone then none
  else
    match i with
    | .init call read =>
        if s.pc = .idle then
          match (DeviceContainer.beginInit call read).run s.container with
          | .error failure container => some ({ s with container }.fail failure)
          | .ok _ container =>
              let s := { s with container }
              if container.config.getAllDevices.length = 0 then
                some (s.fail (.container "Fatal: Loading Master Failed."))
              else some ({ s with pc := .masters container.config.getAllDevices false }, [])
        else none
    | .proceed loader => s.proceed loader
    | .throw what => s.throws what
    | .initDriver nodeId answer => some (s.initDriver nodeId answer)
    | .listNodes => some s.onListNodes
    | .shutdown ends masterEnd => some (s.shutdownAll ends masterEnd)
    | .destroy ends masterEnd =>
        if s.pc = .idle then
          let (s, es) := s.shutdownAll ends masterEnd
          some ({ s with gone := true }, es)
        else none

/-- A container that has just been constructed. -/
def Constructed (s : Registry) : Prop :=
  (∃ name ns id, s.container = .initial name ns id) ∧ s.keys = [] ∧ s.pc = .idle ∧ s.gone = false

def system : System Registry RegistryInput RegistryEvent where
  init := Constructed
  step := step

end Registry

namespace RegistryEvent

/-- The driver that has been loaded. -/
def loads : RegistryEvent → Option (BitVec 16)
  | loaded nodeId => some nodeId
  | _ => none

/-- Whose `shutdown` is called. -/
def shuts : RegistryEvent → Option Listed
  | driverShutdown nodeId => some (.driver nodeId)
  | masterShutdown => some .master
  | _ => none

/-- No driver is loaded, and no null pointer is followed. -/
def isQuiet : RegistryEvent → Bool
  | loaded _ | dereferenced => false
  | _ => true

end RegistryEvent

namespace Registry

/-- The drivers whose `load_component` has succeeded. -/
def loadedIds (h : List RegistryEvent) : List (BitVec 16) := h.filterMap RegistryEvent.loads

/-- `registered_drivers_` has the loaded drivers, each once, and no null pointer. -/
structure Exact (h : List RegistryEvent) (s : Registry) : Prop where
  keys : s.keys.Perm (loadedIds h)
  present : ∀ nodeId ∈ s.keys, (s.container.registeredDrivers nodeId).isSome = true
  followed : .dereferenced ∉ h

/-- What a step has to do: it follows no null pointer, a request for no driver or without a
master is answered with an error, and a shutdown calls the drivers and then the master. -/
structure Answers (h : List RegistryEvent) (s : Registry) (i : RegistryInput) (s' : Registry)
    (es : List RegistryEvent) : Prop where
  followed : .dereferenced ∉ es
  request : ∀ nodeId answer, i = .initDriver nodeId answer →
    nodeId ∉ loadedIds h ∨ s.container.canMaster = none → s' = s ∧ es = [.answered false]
  listNodes : i = .listNodes → s' = s
  shutdown : ∀ ends masterEnd, i = .shutdown ends masterEnd ∨ i = .destroy ends masterEnd →
    ∃ ids : List (BitVec 16), ids.Perm (loadedIds h) ∧ es.filterMap RegistryEvent.shuts =
      (s.container.canMaster.toList.map fun _ => Listed.master) ++ ids.map Listed.driver

/-- The master and the manager that a list names are there. -/
def listable (s : Registry) : Bool :=
  s.container.canMaster.isSome &&
    (!s.container.lifecycleOperation || s.container.lifecycleManager.isSome)

/-- There is a master, and each driver's `shutdown` throws a `std::exception` if anything. -/
def closable (s : Registry) (ends : BitVec 16 → ShutdownEnd) : Bool :=
  s.container.canMaster.isSome && s.keys.all fun nodeId => ends nodeId ≠ .throwsOther

/-- `load_master` has loaded a master; and where it takes a device as a driver, the id is free. -/
def loadable (s : Registry) : Bool :=
  match s.pc with
  | .masterLoaded _ _ => s.container.canMaster.isSome
  | .masters (name :: _) false =>
      (s.container.readEntries name).all fun e =>
        !(decide (Contains "master" name ∧ name ≠ "master") && s.keys.contains e.nodeId)
  | _ => true

/-- The steps that do not follow a null pointer, and lose no driver. -/
def heeded : Guard Registry RegistryInput RegistryEvent := fun _ s i =>
  match i with
  | .init _ _ => True
  | .proceed _ | .throw _ => s.loadable = true
  | .initDriver nodeId _ => s.keys.contains nodeId = true ∧ s.container.canMaster.isSome = true
  | .listNodes => s.listable = true
  | .shutdown ends _ | .destroy ends _ => s.closable ends = true

instance (h : List RegistryEvent) (s : Registry) (i : RegistryInput) : Decidable (heeded h s i) :=
  match i with
  | .init _ _ => inferInstanceAs (Decidable True)
  | .initDriver _ _ => inferInstanceAs (Decidable (_ = true ∧ _ = true))
  | .proceed _ | .throw _ | .listNodes | .shutdown _ _ | .destroy _ _ =>
      inferInstanceAs (Decidable (_ = true))

/-! ## Histories -/

section Histories
variable {h es : List RegistryEvent} {nodeId : BitVec 16}

theorem loadedIds_append : loadedIds (es ++ h) = loadedIds es ++ loadedIds h :=
  List.filterMap_append

theorem loadedIds_of_quiet (hes : es.all RegistryEvent.isQuiet = true) : loadedIds es = [] := by
  rw [loadedIds, List.filterMap_eq_nil_iff]
  intro e he
  have hquiet := List.all_eq_true.mp hes e he
  cases e with
  | loaded nodeId => cases hquiet
  | _ => rfl

theorem not_dereferenced_of_quiet (hes : es.all RegistryEvent.isQuiet = true) :
    .dereferenced ∉ es := by
  intro hmem
  have hquiet := List.all_eq_true.mp hes _ hmem
  cases hquiet

end Histories

/-! ## The keys -/

section Keys
variable {keys : List (BitVec 16)} {nodeId : BitVec 16}

theorem insertKey_of_mem (h : keys.contains nodeId = true) : insertKey nodeId keys = keys :=
  if_pos h

theorem perm_insertKey (h : keys.contains nodeId = false) :
    (insertKey nodeId keys).Perm (nodeId :: keys) := by
  rw [insertKey, if_neg (by rw [h]; exact Bool.false_ne_true)]
  exact List.perm_orderedInsert _ _ _

end Keys

/-! ## The invariant -/

/-- The registry is exact, also for the driver that `init` goes on with. -/
structure Sound (h : List RegistryEvent) (s : Registry) : Prop extends Exact h s where
  loaded : ∀ nodeId names, s.pc = .driverLoaded nodeId names → nodeId ∈ s.keys

section Steps
variable {h es : List RegistryEvent} {s s' : Registry} {i : RegistryInput} {loader : Loader}
  {nodeId : BitVec 16} {name : String} {names : List String} {container : DeviceContainer}

/-- A step that keeps the drivers, and goes on with one only where it did before. -/
theorem Sound.kept (hs : Sound h s) (hkeys : s'.keys = s.keys)
    (hdrivers : s'.container.registeredDrivers = s.container.registeredDrivers)
    (hpc : ∀ nodeId names, s'.pc = .driverLoaded nodeId names → s'.pc = s.pc)
    (hes : es.all RegistryEvent.isQuiet = true) : Sound (es ++ h) s' where
  keys := by
    rw [hkeys, loadedIds_append, loadedIds_of_quiet hes]
    exact hs.keys
  present nodeId hmem := by
    rw [hkeys] at hmem
    rw [hdrivers]
    exact hs.present nodeId hmem
  followed hmem := by
    rcases List.mem_append.mp hmem with hnew | hold
    · exact not_dereferenced_of_quiet hes hnew
    · exact hs.followed hold
  loaded nodeId names hloaded := by
    rw [hkeys]
    exact hs.loaded nodeId names ((hpc nodeId names hloaded).symm.trans hloaded)

/-- A driver is loaded for a free id. -/
theorem Sound.register (hs : Sound h s) (hfree : s.keys.contains nodeId = false)
    (component : Component) (pc : InitPc)
    (hpc : ∀ nodeId' names, pc = .driverLoaded nodeId' names → nodeId' = nodeId) :
    Sound (.loaded nodeId :: h)
      ({ s with pc }.register nodeId (s.container.takeDriver nodeId name component)) := by
  have hperm := perm_insertKey hfree
  have hmem : ∀ id, id ∈ insertKey nodeId s.keys ↔ id = nodeId ∨ id ∈ s.keys := by
    intro id
    rw [hperm.mem_iff, List.mem_cons]
  refine ⟨⟨?_, ?_, ?_⟩, ?_⟩
  · exact hperm.trans (hs.keys.cons nodeId)
  · intro id hid
    show (Function.update s.container.registeredDrivers nodeId (some component) id).isSome = true
    by_cases heq : id = nodeId
    · rw [heq, Function.update_self]
      rfl
    · rw [Function.update_of_ne heq]
      exact hs.present id (((hmem id).mp hid).resolve_left heq)
  · intro hin
    rcases List.mem_cons.mp hin with heq | hold
    · cases heq
    · exact hs.followed hold
  · intro id names hid
    exact (hmem id).mpr (.inl (hpc id names hid))

theorem Sound.fail (hs : Sound h s) (failure : Failure) :
    Sound ((s.fail failure).2 ++ h) (s.fail failure).1 :=
  hs.kept rfl rfl (fun _ _ hpc => by cases hpc) rfl

/-- The start of `init` does not touch the drivers. -/
theorem ends_beginInit (call : InitCall) (read : ReadFile) (c : DeviceContainer) :
    Ends (DeviceContainer.beginInit call read)
      (fun _ c' => c'.registeredDrivers = c.registeredDrivers)
      (fun _ c' => c'.registeredDrivers = c.registeredDrivers) c := by
  have hparameter : ∀ (value : Option String) (set : String → DeviceContainer → DeviceContainer)
      (c₁ : DeviceContainer), (∀ v c, (set v c).registeredDrivers = c.registeredDrivers) →
      c₁.registeredDrivers = c.registeredDrivers →
      Ends (DeviceContainer.getParameter value set)
        (fun _ c' => c'.registeredDrivers = c.registeredDrivers)
        (fun _ c' => c'.registeredDrivers = c.registeredDrivers) c₁ := by
    intro value set c₁ hset hc₁
    cases value with
    | none => exact hc₁
    | some v => exact (hset v c₁).trans hc₁
  cases call with
  | direct canInterfaceName masterConfig busConfig masterBin =>
      simp only [DeviceContainer.beginInit]
      rw [ends_modify_bind]
      cases (read busConfig).bind ConfigurationManager.initConfig? with
      | none => rfl
      | some config => rfl
  | parameters p =>
      simp only [DeviceContainer.beginInit, DeviceContainer.configure]
      rw [ends_bind]
      refine ends_mono (fun canInterfaceName c₁ hc₁ => ?_) (fun _ _ h => h)
        (hparameter _ _ c (fun _ _ => rfl) rfl)
      rw [ends_bind]
      refine ends_mono (fun masterConfig c₂ hc₂ => ?_) (fun _ _ h => h)
        (hparameter _ _ c₁ (fun _ _ => rfl) hc₁)
      rw [ends_bind]
      refine ends_mono (fun _ c₃ hc₃ => ?_) (fun _ _ h => h)
        (hparameter _ _ c₂ (fun _ _ => rfl) hc₂)
      rw [ends_bind]
      refine ends_mono (fun busConfig c₄ hc₄ => ?_) (fun _ _ h => h)
        (hparameter _ _ c₃ (fun _ _ => rfl) hc₃)
      refine (ends_attempt_bind _ _).mpr ⟨fun _ => ?_, fun _ _ => hc₄⟩
      refine (ends_attempt_bind _ _).mpr ⟨fun _ => ?_, fun _ _ => hc₄⟩
      refine (ends_attempt_bind _ _).mpr ⟨fun _ => ?_, fun _ _ => hc₄⟩
      cases (read busConfig).bind ConfigurationManager.initConfig? with
      | none => exact hc₄
      | some config => exact hc₄

theorem Sound.init (hs : Sound h s) (call : InitCall) (read : ReadFile)
    (hstep : s.step (.init call read) = some (s', es)) :
    Sound (es ++ h) s' ∧ es.all RegistryEvent.isQuiet = true := by
  have hends := ends_beginInit call read s.container
  simp only [step] at hstep
  split at hstep
  · cases hstep
  · split at hstep
    · cases hrun : (DeviceContainer.beginInit call read).run s.container with
      | error failure container =>
          rw [hrun] at hstep
          obtain ⟨rfl, rfl⟩ := Prod.mk.inj (Option.some.inj hstep)
          exact ⟨hs.kept rfl (hends.error hrun) (fun _ _ hpc => by cases hpc) rfl, rfl⟩
      | ok _ container =>
          rw [hrun] at hstep
          dsimp only at hstep
          split at hstep
          · obtain ⟨rfl, rfl⟩ := Prod.mk.inj (Option.some.inj hstep)
            exact ⟨hs.kept rfl (hends.ok hrun) (fun _ _ hpc => by cases hpc) rfl, rfl⟩
          · obtain ⟨rfl, rfl⟩ := Prod.mk.inj (Option.some.inj hstep)
            exact ⟨hs.kept rfl (hends.ok hrun) (fun _ _ hpc => by cases hpc) rfl, rfl⟩
    · cases hstep

/-- What a step of `init` keeps: the drivers and their history, and it follows no null pointer. -/
def Keeps (h : List RegistryEvent) (p : Registry × List RegistryEvent) : Prop :=
  Sound (p.2 ++ h) p.1 ∧ .dereferenced ∉ p.2

theorem Sound.keeps_fail (hs : Sound h s) (failure : Failure) : Keeps h (s.fail failure) :=
  ⟨hs.fail failure, by simp [Registry.fail]⟩

/-- A step that only goes on. -/
theorem Sound.keeps_goto (hs : Sound h s) (pc : InitPc)
    (hpc : ∀ nodeId names, pc ≠ .driverLoaded nodeId names) : Keeps h ({ s with pc }, []) :=
  ⟨hs.kept rfl rfl (fun nodeId names heq => absurd heq (hpc nodeId names)) rfl, by simp⟩

theorem Sound.masterStep (hs : Sound h s) (loader : Loader) (name : String) (names : List String)
    (masterFound : Bool)
    (hfree : masterFound = false → Contains "master" name → name ≠ "master" →
      ∀ e, s.container.readEntries name = some e → s.keys.contains e.nodeId = false) :
    Keeps h (s.masterStep loader name names masterFound) := by
  unfold Registry.masterStep
  split
  · next hname =>
      cases hread : s.container.readEntries name with
      | none => exact hs.keeps_fail _
      | some e =>
          dsimp only
          split
          · exact hs.keeps_fail _
          · exact hs.keeps_fail _
          · next container hload =>
              cases DeviceContainer.taken_of_loadComponent hload with
              | master component hmaster =>
                  rw [if_pos hmaster]
                  exact ⟨hs.kept rfl rfl (fun _ _ hpc => by cases hpc) rfl, by simp⟩
              | driver component hother =>
                  rw [if_neg hother]
                  have hkey := hfree hname.2 hname.1 hother e hread
                  exact ⟨hs.register hkey component _ (fun _ _ hpc => by cases hpc), by simp⟩
  · exact hs.keeps_goto _ (by simp)

theorem Sound.driverStep (hs : Sound h s) (loader : Loader) (name : String)
    (names : List String) : Keeps h (s.driverStep loader name names) := by
  unfold Registry.driverStep
  split
  · next hname =>
      cases hread : s.container.readEntries name with
      | none => exact hs.keeps_fail _
      | some e =>
          dsimp only
          split
          · exact hs.keeps_fail _
          · split
            · exact hs.keeps_fail _
            · next hkey =>
                split
                · exact hs.keeps_fail _
                · exact hs.keeps_fail _
                · next container hload =>
                    cases DeviceContainer.taken_of_loadComponent hload with
                    | master component hmaster =>
                        rw [hmaster] at hname
                        exact absurd (Contains.refl _) hname.1
                    | driver component hother =>
                        refine ⟨hs.register (Bool.eq_false_iff.mpr hkey) component _ ?_, by simp⟩
                        intro id names' hpc
                        cases hpc
                        rfl
  · exact hs.keeps_goto _ (by simp)

theorem Sound.proceed (hs : Sound h s) (hok : s.loadable = true)
    {p : Registry × List RegistryEvent} (hstep : s.proceed loader = some p) : Keeps h p := by
  unfold Registry.proceed at hstep
  unfold loadable at hok
  cases hpc : s.pc with
  | idle =>
      rw [hpc] at hstep
      cases hstep
  | masters names masterFound =>
      rw [hpc] at hstep hok
      cases names with
      | nil =>
          dsimp only at hstep
          obtain rfl := Option.some.inj hstep
          split
          · exact hs.keeps_goto _ (by simp)
          · exact hs.keeps_fail _
      | cons name names =>
          obtain rfl := Option.some.inj hstep
          refine hs.masterStep loader name names masterFound ?_
          intro hfound hcontains hother e hread
          subst hfound
          simpa [hread, hcontains, hother] using hok
  | masterLoaded nodeId names =>
      rw [hpc] at hstep hok
      dsimp only at hstep hok
      obtain ⟨master, hmaster⟩ := Option.isSome_iff_exists.mp hok
      rw [hmaster] at hstep
      obtain rfl := Option.some.inj hstep
      exact ⟨hs.kept rfl rfl (fun _ _ hpc => by cases hpc) rfl, by simp⟩
  | drivers names =>
      rw [hpc] at hstep
      cases names with
      | nil =>
          obtain rfl := Option.some.inj hstep
          exact hs.keeps_goto _ (by simp)
      | cons name names =>
          obtain rfl := Option.some.inj hstep
          exact hs.driverStep loader name names
  | driverLoaded nodeId names =>
      rw [hpc] at hstep
      have hpresent := hs.present nodeId (hs.loaded nodeId names hpc)
      obtain ⟨driver, hdriver⟩ := Option.isSome_iff_exists.mp hpresent
      dsimp only at hstep
      rw [hdriver] at hstep
      obtain rfl := Option.some.inj hstep
      exact hs.keeps_goto _ (by simp)
  | manager =>
      rw [hpc] at hstep
      dsimp only at hstep
      obtain rfl := Option.some.inj hstep
      split
      · exact ⟨hs.kept rfl rfl (fun _ _ hpc => by cases hpc) rfl, by simp⟩
      · exact ⟨hs.kept rfl rfl (fun _ _ hpc => by cases hpc) rfl, by simp⟩
  | managerLoaded =>
      rw [hpc] at hstep
      obtain rfl := Option.some.inj hstep
      exact ⟨hs.kept rfl rfl (fun _ _ hpc => by cases hpc) rfl, by simp⟩

theorem Sound.throws (hs : Sound h s) (hok : s.loadable = true) (what : String)
    {p : Registry × List RegistryEvent} (hstep : s.throws what = some p) : Keeps h p := by
  unfold Registry.throws at hstep
  unfold loadable at hok
  cases hpc : s.pc with
  | idle =>
      rw [hpc] at hstep
      cases hstep
  | masterLoaded nodeId names =>
      rw [hpc] at hstep hok
      dsimp only at hstep hok
      rw [if_pos hok] at hstep
      obtain rfl := Option.some.inj hstep
      exact hs.keeps_fail _
  | driverLoaded nodeId names =>
      rw [hpc] at hstep
      dsimp only at hstep
      rw [if_pos (hs.present nodeId (hs.loaded nodeId names hpc))] at hstep
      obtain rfl := Option.some.inj hstep
      exact hs.keeps_fail _
  | masters _ _ | drivers _ | manager | managerLoaded =>
      rw [hpc] at hstep
      obtain rfl := Option.some.inj hstep
      exact hs.keeps_fail _

/-- A request for a driver that is there changes nothing. -/
theorem Sound.initDriver (hs : Sound h s) (hkey : s.keys.contains nodeId = true)
    (hmaster : s.container.canMaster.isSome = true) (answer : MasterAnswer) :
    ∃ es, s.initDriver nodeId answer = (s, es) ∧ es.all RegistryEvent.isQuiet = true := by
  obtain ⟨master, hmaster⟩ := Option.isSome_iff_exists.mp hmaster
  have hpresent := hs.present nodeId (by simpa using hkey)
  obtain ⟨driver, hdriver⟩ := Option.isSome_iff_exists.mp hpresent
  unfold Registry.initDriver
  rw [insertKey_of_mem hkey]
  unfold handMaster
  rw [hmaster]
  dsimp only
  cases answer.executor with
  | error what => exact ⟨_, rfl, rfl⟩
  | ok executor =>
      cases answer.master with
      | error what => exact ⟨_, rfl, rfl⟩
      | ok pointer =>
          dsimp only
          rw [hdriver]
          dsimp only
          cases answer.setMaster with
          | none => exact ⟨_, rfl, rfl⟩
          | some what => exact ⟨_, rfl, rfl⟩

theorem Sound.onListNodes (hs : Sound h s) (hok : s.listable = true) :
    ∃ components, s.onListNodes = (s, [.listed components]) := by
  obtain ⟨hmaster, hmanager⟩ := Bool.and_eq_true_iff.mp hok
  have hnone : s.container.canMaster.isNone = false := by
    rw [← Option.not_isSome, hmaster]
    rfl
  have hlisted : (s.container.lifecycleOperation && s.container.lifecycleManager.isNone) =
      false := by
    rw [← Option.not_isSome]
    revert hmanager
    cases s.container.lifecycleOperation <;> cases s.container.lifecycleManager.isSome <;> simp
  have hdrivers : (s.keys.any fun nodeId => (s.container.registeredDrivers nodeId).isNone) =
      false := by
    rw [List.any_eq_false]
    intro nodeId hmem
    rw [← Option.not_isSome, hs.present nodeId hmem]
    exact Bool.false_ne_true
  unfold Registry.onListNodes listComponents
  rw [hnone, hlisted, hdrivers]
  exact ⟨_, rfl⟩

/-- The loop of `shutdown` gets to its end when the drivers throw `std::exception` at most. -/
theorem shutdownDrivers_eq {ends : BitVec 16 → ShutdownEnd} (keys : List (BitVec 16))
    (hpresent : ∀ nodeId ∈ keys, (s.container.registeredDrivers nodeId).isSome = true)
    (hends : ∀ nodeId ∈ keys, ends nodeId ≠ .throwsOther) (es : List RegistryEvent) :
    s.shutdownDrivers ends keys es =
      (.done, keys.reverse.map RegistryEvent.driverShutdown ++ es) := by
  induction keys generalizing es with
  | nil => rfl
  | cons nodeId keys ih =>
      obtain ⟨driver, hdriver⟩ := Option.isSome_iff_exists.mp (hpresent nodeId List.mem_cons_self)
      have hend := hends nodeId List.mem_cons_self
      have hrest := ih (fun id hid => hpresent id (List.mem_cons_of_mem _ hid))
        (fun id hid => hends id (List.mem_cons_of_mem _ hid)) (.driverShutdown nodeId :: es)
      rw [shutdownDrivers, hdriver]
      cases hcase : ends nodeId with
      | throwsOther => exact absurd hcase hend
      | returns | throws =>
          dsimp only
          rw [hrest, List.reverse_cons, List.map_append, List.append_assoc]
          rfl

/-- `shutdown` calls every driver and then the master. -/
theorem Sound.shutdownAll (hs : Sound h s) {ends : BitVec 16 → ShutdownEnd}
    (hok : s.closable ends = true) (masterEnd : ShutdownEnd) :
    ∃ es, s.shutdownAll ends masterEnd = (s, es) ∧ es.all RegistryEvent.isQuiet = true ∧
      es.filterMap RegistryEvent.shuts = .master :: s.keys.reverse.map Listed.driver := by
  obtain ⟨hmaster, hends⟩ := Bool.and_eq_true_iff.mp hok
  obtain ⟨master, hmaster⟩ := Option.isSome_iff_exists.mp hmaster
  have hdrivers := shutdownDrivers_eq s.keys hs.present
    (fun nodeId hmem => by simpa using List.all_eq_true.mp hends nodeId hmem) []
  have hquiet : (s.keys.reverse.map RegistryEvent.driverShutdown).all RegistryEvent.isQuiet =
      true := by
    simp [RegistryEvent.isQuiet]
  have hshuts : (s.keys.reverse.map RegistryEvent.driverShutdown).filterMap RegistryEvent.shuts =
      s.keys.reverse.map Listed.driver := by
    rw [List.filterMap_map]
    exact congrFun (List.filterMap_eq_map (f := Listed.driver)) _
  unfold Registry.shutdownAll
  rw [hdrivers, List.append_nil]
  dsimp only
  rw [hmaster]
  dsimp only
  split
  · exact ⟨_, rfl, hquiet, congrArg (Listed.master :: ·) hshuts⟩
  · exact ⟨_, rfl, hquiet, congrArg (Listed.master :: ·) hshuts⟩

/-- A step that leaves the container as it is, or ends it. -/
theorem Sound.same (hs : Sound h s) (hes : es.all RegistryEvent.isQuiet = true) (gone : Bool) :
    Sound (es ++ h) { s with gone } :=
  hs.kept rfl rfl (fun _ _ _ => rfl) hes

/-- A step of `init` only has to follow no null pointer. -/
theorem answers_of_init (hi : i.isInit = true) (hfollowed : .dereferenced ∉ es) :
    Answers h s i s' es where
  followed := hfollowed
  request nodeId answer heq := by
    rw [heq] at hi
    cases hi
  listNodes heq := by
    rw [heq] at hi
    cases hi
  shutdown ends masterEnd heq := by
    rcases heq with heq | heq
    · rw [heq] at hi
      cases hi
    · rw [heq] at hi
      cases hi

/-- A shutdown has to call the loaded drivers, and the master after them. -/
theorem Sound.answers_shutdown (hs : Sound h s)
    (hi : ∃ ends masterEnd, i = .shutdown ends masterEnd ∨ i = .destroy ends masterEnd)
    (hmaster : s.container.canMaster.isSome = true) (hquiet : es.all RegistryEvent.isQuiet = true)
    (hshuts : es.filterMap RegistryEvent.shuts = .master :: s.keys.reverse.map Listed.driver) :
    Answers h s i s' es where
  followed := not_dereferenced_of_quiet hquiet
  request nodeId answer heq := by
    obtain ⟨ends, masterEnd, hi | hi⟩ := hi
    · rw [heq] at hi
      cases hi
    · rw [heq] at hi
      cases hi
  listNodes heq := by
    obtain ⟨ends, masterEnd, hi | hi⟩ := hi
    · rw [heq] at hi
      cases hi
    · rw [heq] at hi
      cases hi
  shutdown _ _ _ := by
    obtain ⟨master, hmaster⟩ := Option.isSome_iff_exists.mp hmaster
    refine ⟨s.keys.reverse, (List.reverse_perm _).trans hs.keys, ?_⟩
    rw [hshuts, hmaster]
    rfl

/-- **A step.**  A heeded step keeps the registry exact, and does what it has to. -/
theorem Sound.step (hs : Sound h s) (hok : heeded h s i) (hstep : s.step i = some (s', es)) :
    Sound (es ++ h) s' ∧ Answers h s i s' es := by
  have halive : s.gone = false := by
    cases hgone : s.gone with
    | false => rfl
    | true => simp [Registry.step, hgone] at hstep
  cases i with
  | init call read =>
      obtain ⟨hsound, hquiet⟩ := hs.init call read hstep
      exact ⟨hsound, answers_of_init rfl (not_dereferenced_of_quiet hquiet)⟩
  | proceed loader =>
      simp only [Registry.step, halive, Bool.false_eq_true, if_false] at hstep
      obtain ⟨hsound, hfollowed⟩ := hs.proceed hok hstep
      exact ⟨hsound, answers_of_init rfl hfollowed⟩
  | throw what =>
      simp only [Registry.step, halive, Bool.false_eq_true, if_false] at hstep
      obtain ⟨hsound, hfollowed⟩ := hs.throws hok what hstep
      exact ⟨hsound, answers_of_init rfl hfollowed⟩
  | initDriver nodeId answer =>
      obtain ⟨hkey, hmaster⟩ := hok
      obtain ⟨es', heq, hquiet⟩ := hs.initDriver hkey hmaster answer
      simp only [Registry.step, halive, Bool.false_eq_true, if_false, heq] at hstep
      obtain ⟨rfl, rfl⟩ := Prod.mk.inj (Option.some.inj hstep)
      refine ⟨hs.same hquiet s.gone, not_dereferenced_of_quiet hquiet, ?_, ?_, ?_⟩
      · intro id answer' heq hbad
        obtain ⟨rfl, rfl⟩ := RegistryInput.initDriver.inj heq
        have hloaded := hs.keys.mem_iff.mp (List.contains_iff_mem.mp hkey)
        rcases hbad with hunknown | hnone
        · exact absurd hloaded hunknown
        · rw [hnone] at hmaster
          cases hmaster
      · intro heq
        cases heq
      · rintro ends masterEnd (heq | heq) <;> cases heq
  | listNodes =>
      obtain ⟨components, heq⟩ := hs.onListNodes hok
      simp only [Registry.step, halive, Bool.false_eq_true, if_false, heq] at hstep
      obtain ⟨rfl, rfl⟩ := Prod.mk.inj (Option.some.inj hstep)
      refine ⟨hs.same rfl s.gone, by simp, ?_, fun _ => rfl, ?_⟩
      · intro id answer heq
        cases heq
      · rintro ends masterEnd (heq | heq) <;> cases heq
  | shutdown ends masterEnd =>
      have hmaster := (Bool.and_eq_true_iff.mp hok).1
      obtain ⟨es', heq, hquiet, hshuts⟩ := hs.shutdownAll hok masterEnd
      simp only [Registry.step, halive, Bool.false_eq_true, if_false, heq] at hstep
      obtain ⟨rfl, rfl⟩ := Prod.mk.inj (Option.some.inj hstep)
      exact ⟨hs.same hquiet s.gone,
        hs.answers_shutdown ⟨ends, masterEnd, .inl rfl⟩ hmaster hquiet hshuts⟩
  | destroy ends masterEnd =>
      have hmaster := (Bool.and_eq_true_iff.mp hok).1
      obtain ⟨es', heq, hquiet, hshuts⟩ := hs.shutdownAll hok masterEnd
      simp only [Registry.step, halive, Bool.false_eq_true, if_false, heq] at hstep
      split at hstep
      · obtain ⟨rfl, rfl⟩ := Prod.mk.inj (Option.some.inj hstep)
        exact ⟨hs.same hquiet true,
          hs.answers_shutdown ⟨ends, masterEnd, .inr rfl⟩ hmaster hquiet hshuts⟩
      · cases hstep

/-- The registry is exact along every heeded run. -/
theorem sound_of_reach (hr : Reach system heeded h s) : Sound h s := by
  refine hr.invariant ?_ ?_
  · rintro s ⟨-, hkeys, hpc, -⟩
    refine ⟨⟨?_, ?_, List.not_mem_nil⟩, ?_⟩
    · rw [hkeys]
      exact .nil
    · intro nodeId hmem
      rw [hkeys] at hmem
      exact absurd hmem List.not_mem_nil
    · intro nodeId names hloaded
      rw [hpc] at hloaded
      cases hloaded
  · intro h s i s' es hs hok hstep
    exact (hs.step hok hstep).1

end Steps

/-- **The registered drivers.**  Along every run whose steps heed what is there, the registry is
exact in every state reached, and every further such step does what it has to. -/
theorem registry_exact {h : List RegistryEvent} {s : Registry} (hr : Reach system heeded h s) :
    Exact h s ∧ ∀ i s' es, heeded h s i → system.step s i = some (s', es) →
      Answers h s i s' es := by
  have hs := sound_of_reach hr
  exact ⟨hs.toExact, fun i s' es hok hstep => (hs.step hok hstep).2⟩

/-- A container that has just been constructed. -/
def fresh : Registry := ⟨.initial "/device_container" "/" 0, [], .idle, false⟩

theorem constructed_fresh : fresh.Constructed := ⟨⟨_, _, _, rfl⟩, rfl, rfl, rfl⟩

/-- `init` of a container with a master and two drivers. -/
def loading : List RegistryInput :=
  .init (.direct "can0" "master.dcf" "bus.yml" "") (fun _ => some (DeviceContainer.twoDrivers 2 3))
    :: List.replicate 12 (.proceed DeviceContainer.oneClass)

/-- A driver is initialised, the nodes are listed, and the container is shut down and destroyed. -/
theorem registry_exact_twoDrivers : ∃ h s, Reach system heeded h s ∧ s.gone = true ∧
    loadedIds h = [3, 2] ∧ Exact h s := by
  have hrun : (system.runIf (fun h s i => decide (heeded h s i))
      (List.flatten [loading, [.initDriver 2 ⟨.ok (some 1), .ok (some 2), none⟩, .listNodes,
        .shutdown (fun _ => .throws) .returns, .destroy (fun _ => .returns) .throws]]) []
      fresh).any (fun p => p.2.gone && decide (loadedIds p.1 = [3, 2])) = true := by
    decide +kernel
  obtain ⟨h, s, hr, hs⟩ := System.exists_reach_runIf _ (.init constructed_fresh)
    (fun _ _ _ => of_decide_eq_true) hrun
  obtain ⟨hgone, hloaded⟩ := Bool.and_eq_true_iff.mp hs
  exact ⟨h, s, hr, hgone, of_decide_eq_true hloaded, (registry_exact hr).1⟩

/-- A request for an id without a driver, while the master is not active: the null pointer stays,
and the next list of the nodes follows it.  Before the master is loaded, any request does. -/
theorem registry_unknown_id :
    (∃ h s, Reach system Guard.free h s ∧ 5 ∈ s.keys ∧
      s.container.registeredDrivers 5 = none ∧ ¬ Exact h s ∧
      ∃ s' es, system.step s .listNodes = some (s', es) ∧ .dereferenced ∈ es) ∧
    ∃ s' es, system.step fresh (.initDriver 5 ⟨.ok none, .ok none, none⟩) = some (s', es) ∧
      .dereferenced ∈ es := by
  refine ⟨?_, ⟨_, _, rfl, List.mem_cons_self⟩⟩
  have hrun : (system.run (List.flatten [loading,
      [.initDriver 5 ⟨.error "Get Executor: master is not set", .error "", none⟩]]) []
      fresh).any (fun p => p.2.keys.contains 5 &&
        (p.2.container.registeredDrivers 5).isNone && p.2.container.canMaster.isSome &&
        !p.2.container.lifecycleOperation && !p.2.gone) = true := by
    decide +kernel
  obtain ⟨h, s, hr, hs⟩ := System.exists_reach_run _ (.init constructed_fresh) hrun
  simp only [Bool.and_eq_true, Bool.not_eq_true', List.contains_iff_mem, Option.isNone_iff_eq_none,
    ← Option.not_isNone] at hs
  obtain ⟨⟨⟨⟨hkey, hnull⟩, hmaster⟩, hlifecycle⟩, halive⟩ := hs
  refine ⟨h, s, hr, hkey, hnull, fun hexact => ?_, s.crash.1, s.crash.2, ?_, List.mem_cons_self⟩
  · have hpresent := hexact.present 5 hkey
    rw [hnull] at hpresent
    cases hpresent
  · have hany : (s.keys.any fun nodeId => (s.container.registeredDrivers nodeId).isNone) = true :=
      List.any_eq_true.mpr ⟨5, hkey, by rw [hnull]; rfl⟩
    simp [system, step, halive, onListNodes, listComponents, hmaster, hlifecycle, hany]

end Registry
end RosCanopen.Core
