import RosCanopen.Core.Container
import RosCanopen.Core.Lifecycle

/-!
# The names of the services

The container starts the node of a device in the namespace of its section, or else in its own.
The manager builds the names of the services from the same section, and leaves them relative
without a namespace: they are resolved where the manager lives, which is the root.

## Main definitions

* `RosNames` — how ROS names nodes and services.
* `DeviceContainer.managerOptions`, `LifecycleManager.clients` — the manager's node and its clients.
* `service_names_agree_iff` — when the clients are those of the node.
-/

namespace RosCanopen.Core

open Lib

/-! ## Names in ROS -/

/-- A name put into a namespace. -/
def joinName (ns name : String) : String :=
  if ns.toList.getLast? = some '/' then ns ++ name else ns ++ "/" ++ name

def absoluteName (ns : String) : String :=
  if ns.toList.head? = some '/' then ns else "/" ++ ns

/-- A character of a name. -/
def NameChar (c : Char) : Prop := c.isAlphanum = true ∨ c = '_'

instance (c : Char) : Decidable (NameChar c) := inferInstanceAs (Decidable (_ ∨ _))

/-- A name of names, without placeholders. -/
def PlainPath (path : String) : Prop := ∀ c ∈ path.toList, NameChar c ∨ c = '/'

instance (path : String) : Decidable (PlainPath path) :=
  List.decidableBAll (fun c => NameChar c ∨ c = '/') path.toList

/-- A name that a node can have. -/
def NodeName (name : String) : Prop := name ≠ "" ∧ ∀ c ∈ name.toList, NameChar c

instance (name : String) : Decidable (NodeName name) :=
  @instDecidableAnd _ _ _ (List.decidableBAll NameChar name.toList)

/-- How ROS names nodes and services. -/
structure RosNames where
  /-- The namespace and the name of a node, by the name that its class gives and its options;
  `none` if it is refused. -/
  node : String → NodeOptions → Option (String × String)
  /-- The fully qualified name of a service, by the namespace of the node that names it. -/
  service : String → String → String
  node_plain : ∀ own opts, opts.useGlobalArguments = false → opts.arguments = [] →
    node own opts = some ("/", own)
  /-- The first rules decide; a node has no other characters in its names. -/
  node_remapped : ∀ own opts name ns rest p, opts.useGlobalArguments = false →
    opts.arguments = ["--ros-args", "-r", "__node:=" ++ name, "-r", "__ns:=" ++ ns] ++ rest →
      node own opts = some p → NodeName name ∧ PlainPath ns ∧ p = (absoluteName ns, name)
  service_absolute : ∀ ns name, PlainPath name → name.toList.head? = some '/' →
    service ns name = name
  service_relative : ∀ ns name, PlainPath name → name.toList.head? ≠ some '/' →
    service ns name = joinName ns name

/-- The fully qualified name of a node. -/
def fullyQualified (node : String × String) : String := joinName node.1 node.2

/-! ## The manager and its clients -/

/-- The options of `load_manager`. -/
def DeviceContainer.managerOptions (c : DeviceContainer) : NodeOptions where
  useGlobalArguments := false
  useIntraProcessComms := false
  arguments := []
  parameterOverrides := [("container_name", .text c.fullyQualifiedName)]

/-- The names of the services of a device. -/
structure ServiceNames where
  getState : String
  changeState : String
  deriving DecidableEq

namespace LifecycleManager

/-- `device_namespace` of `load_from_config`, with the name of the device. -/
def deviceNamespace (deviceName : String) (d : Device) : String :=
  let ns := d.ns.getD ""
  (if ns ≠ "" ∧ ns.toList.getLast? ≠ some '/' then ns ++ "/" else ns) ++ deviceName

/-- The clients that `load_from_config` creates, by the name of the device. -/
def clients (config : ConfigurationManager) : List (String × ServiceNames) :=
  config.entries.filterMap fun (deviceName, d) => (d.nodeIdAs 8).map fun _ =>
    (deviceName, ⟨deviceNamespace deviceName d ++ "/get_state",
      deviceNamespace deviceName d ++ "/change_state"⟩)

end LifecycleManager

/-! ## Texts -/

section Texts
variable {ns name path : String}

theorem toList_ne_nil (hname : name ≠ "") : name.toList ≠ [] := by
  intro hlist
  exact hname (String.toList_inj.mp hlist)

theorem PlainPath.append {a b : String} (ha : PlainPath a) (hb : PlainPath b) :
    PlainPath (a ++ b) := by
  intro c hc
  rw [String.toList_append, List.mem_append] at hc
  rcases hc with hc | hc
  · exact ha c hc
  · exact hb c hc

theorem NodeName.plainPath (hname : NodeName name) : PlainPath name := fun c hc =>
  .inl (hname.2 c hc)

/-- A node's name begins with no slash. -/
theorem NodeName.head (hname : NodeName name) : name.toList.head? ≠ some '/' := by
  intro hslash
  have hchar : NameChar '/' := hname.2 '/' (List.mem_of_head? hslash)
  exact absurd hchar (by decide)

/-- A namespace with its slash, and the name after it. -/
theorem joinName_eq (ns name : String) : joinName ns name =
    (if ns.toList.getLast? ≠ some '/' then ns ++ "/" else ns) ++ name := by
  by_cases hlast : ns.toList.getLast? = some '/'
  · simp [joinName, hlast]
  · simp [joinName, hlast]

theorem plainPath_joinName (hns : PlainPath ns) (hname : PlainPath name) :
    PlainPath (joinName ns name) := by
  unfold joinName
  split
  · exact hns.append hname
  · exact (hns.append (by decide)).append hname

theorem joinName_ne_nil (hname : name ≠ "") : joinName ns name ≠ "" := by
  intro hempty
  have hlist := congrArg String.toList hempty
  rw [joinName_eq, String.toList_append] at hlist
  exact toList_ne_nil hname (List.append_eq_nil_iff.mp hlist).2

/-- Whether a text is absolute shows in its first part. -/
theorem absoluteName_append (hname : name ≠ "") (rest : String) :
    absoluteName (name ++ rest) = absoluteName name ++ rest := by
  have hhead : (name ++ rest).toList.head? = name.toList.head? := by
    rw [String.toList_append, List.head?_append_of_ne_nil _ (toList_ne_nil hname)]
  unfold absoluteName
  rw [hhead]
  split
  · rfl
  · rw [String.append_assoc]

theorem joinName_absoluteName (hns : ns ≠ "") (name : String) :
    joinName (absoluteName ns) name = absoluteName (joinName ns name) := by
  have hlast : (absoluteName ns).toList.getLast? = ns.toList.getLast? := by
    unfold absoluteName
    split
    · rfl
    · rw [String.toList_append, List.getLast?_append_of_ne_nil _ (toList_ne_nil hns)]
  unfold joinName
  rw [hlast]
  split
  · rw [absoluteName_append hns]
  · rw [String.append_assoc, String.append_assoc, absoluteName_append hns]

/-- A name is alone in a namespace if and only if it is the root. -/
theorem joinName_eq_root (ns name : String) :
    joinName (absoluteName ns) name = "/" ++ name ↔ absoluteName ns = "/" := by
  have hhead : (absoluteName ns).toList.head? = some '/' := by
    unfold absoluteName
    split
    · assumption
    · simp
  generalize absoluteName ns = root at hhead
  constructor
  · intro heq
    rw [joinName_eq, String.append_left_inj] at heq
    by_cases hlast : root.toList.getLast? = some '/'
    · simpa [hlast] using heq
    · -- with a slash put after it, the text would be two characters long
      rw [if_pos hlast] at heq
      have hempty : root = "" := by
        rw [← String.append_left_inj "/", heq]
        rfl
      rw [hempty] at hhead
      cases hhead
  · intro hroot
    rw [hroot]
    rfl

end Texts

/-! ## The services -/

section Services
variable (ros : RosNames) {ns name path : String}

/-- A service that is named by a node in the root. -/
theorem service_root (hpath : PlainPath path) : ros.service "/" path = absoluteName path := by
  unfold absoluteName
  split
  · next hhead => exact ros.service_absolute "/" path hpath hhead
  · next hhead => exact ros.service_relative "/" path hpath hhead

theorem deviceNamespace_eq (name : String) (d : Device) :
    LifecycleManager.deviceNamespace name d =
      if d.ns.getD "" = "" then name else joinName (d.ns.getD "") name := by
  unfold LifecycleManager.deviceNamespace
  by_cases hns : d.ns.getD "" = ""
  · simp [hns]
  · simp [hns, joinName_eq]

/-- The name of a client, resolved by the manager, against the service of the node. -/
theorem service_iff {node : String × String} {container suffix : String} {d : Device}
    (hname : NodeName name) (hsuffix : PlainPath suffix)
    (hns : PlainPath (if d.ns.getD "" = "" then container else d.ns.getD ""))
    (hnode : node = (absoluteName (if d.ns.getD "" = "" then container else d.ns.getD ""), name)) :
    ros.service "/" (LifecycleManager.deviceNamespace name d ++ suffix) =
        fullyQualified node ++ suffix ↔
      d.ns.getD "" ≠ "" ∨ absoluteName container = "/" := by
  rw [deviceNamespace_eq, hnode, fullyQualified]
  by_cases hempty : d.ns.getD "" = ""
  · rw [if_pos hempty, if_pos hempty, service_root ros (hname.plainPath.append hsuffix),
      absoluteName_append hname.1, String.append_left_inj]
    have hrelative : absoluteName name = "/" ++ name := if_neg hname.head
    rw [hrelative, eq_comm, joinName_eq_root]
    simp [hempty]
  · rw [if_neg hempty] at hns
    rw [if_neg hempty, if_neg hempty,
      service_root ros ((plainPath_joinName hns hname.plainPath).append hsuffix),
      absoluteName_append (joinName_ne_nil hname.1), joinName_absoluteName hempty]
    simp [hempty]

/-- The namespace of the section. -/
theorem nodeNamespace_of_readEntries {c : DeviceContainer} {e : DeviceContainer.Entries}
    (hread : c.readEntries name = some e) :
    e.nodeNamespace = (c.config.entry name (·.ns)).getD "" := by
  simp only [DeviceContainer.readEntries, Option.bind_eq_bind, Option.bind_eq_some_iff] at hread
  obtain ⟨_, -, _, -, _, -, heq⟩ := hread
  rw [← Option.some.inj heq]

end Services

/-- **The services of a device** that the manager calls are those of the node that the container
has started for it if and only if the section of the device has a namespace, or the container lives
in the root. -/
theorem service_names_agree_iff (ros : RosNames) {c : DeviceContainer} {name own : String}
    {params : List Parameter} {e : DeviceContainer.Entries} {node manager : String × String}
    {services : ServiceNames} (hread : c.readEntries name = some e)
    (hnode : ros.node own (c.nodeOptions name params e.remappings e.nodeNamespace) = some node)
    (hmanager : ros.node "lifecycle_manager" c.managerOptions = some manager)
    (hservices : (name, services) ∈ LifecycleManager.clients c.config) :
    (ros.service manager.1 services.getState = fullyQualified node ++ "/get_state" ∧
        ros.service manager.1 services.changeState = fullyQualified node ++ "/change_state") ↔
      e.nodeNamespace ≠ "" ∨ absoluteName c.ns = "/" := by
  have hroot : manager.1 = "/" := by
    rw [ros.node_plain _ _ rfl rfl] at hmanager
    rw [← Option.some.inj hmanager]
  obtain ⟨⟨name', d⟩, hd, hclient⟩ := List.mem_filterMap.mp hservices
  obtain ⟨id, -, heq⟩ := Option.map_eq_some_iff.mp hclient
  obtain ⟨hname', hnames⟩ := Prod.mk.inj heq
  rw [hname'] at hd hnames
  have hns : e.nodeNamespace = d.ns.getD "" := by
    rw [nodeNamespace_of_readEntries hread, ConfigurationManager.entry_of_mem hd]
  obtain ⟨hname, hplain, hqualified⟩ := ros.node_remapped own _ name _ _ node rfl rfl hnode
  rw [hns] at hplain hqualified
  rw [hroot, ← hnames, hns, service_iff ros hname (by decide) hplain hqualified,
    service_iff ros hname (by decide) hplain hqualified, and_self_iff]

/-! ## A container in a namespace -/

/-- The names of ROS for the nodes of a container and of its manager. -/
def RosNames.standard : RosNames where
  node own opts :=
    match opts.arguments with
    | [] => some ("/", own)
    | _ :: _ :: nodeRule :: _ :: nsRule :: _ =>
        let name := String.ofList (nodeRule.toList.drop 8)
        let ns := String.ofList (nsRule.toList.drop 6)
        if NodeName name ∧ PlainPath ns then some (absoluteName ns, name) else none
    | _ => none
  service ns name := if name.toList.head? = some '/' then name else joinName ns name
  node_plain own opts _ harguments := by
    rw [harguments]
  node_remapped own opts name ns rest p _ harguments hp := by
    have hname : String.ofList (("__node:=" ++ name).toList.drop 8) = name := by
      simp
    have hns : String.ofList (("__ns:=" ++ ns).toList.drop 6) = ns := by
      simp
    simp only [harguments, List.cons_append, hname, hns] at hp
    split at hp
    · next hvalid => exact ⟨hvalid.1, hvalid.2, (Option.some.inj hp).symm⟩
    · cases hp
  service_absolute ns name _ hhead := if_pos hhead
  service_relative ns name _ hhead := if_neg hhead

/-- A drive with a namespace, and one without. -/
def namespacedDrives : ConfigurationManager :=
  ConfigurationManager.initConfig
    [("drive_1", ⟨some 2, some "Driver", some "package", some "/test1", none, none⟩),
      ("drive_2", ⟨some 3, some "Driver", some "package", none, none, none⟩)]

def containerIn (ns : String) : DeviceContainer :=
  { DeviceContainer.initial (ns ++ "/device_container") ns 1 with config := namespacedDrives }

/-- The entries of a drive with the id and the namespace. -/
def driveEntries (nodeId : BitVec 16) (ns : String) : DeviceContainer.Entries :=
  ⟨nodeId, "Driver", "package", ns, .empty⟩

/-- In a container in a namespace, the drive with a namespace of its own is found. -/
theorem service_names_agree_drive :
    RosNames.standard.service "/" "/test1/drive_1/get_state" = "/test1/drive_1/get_state" ∧
      RosNames.standard.service "/" "/test1/drive_1/change_state" =
        "/test1/drive_1/change_state" := by
  have hread : (containerIn "/robot").readEntries "drive_1" = some (driveEntries 2 "/test1") := by
    rfl
  have hnode : RosNames.standard.node "driver" ((containerIn "/robot").nodeOptions "drive_1" []
      (driveEntries 2 "/test1").remappings (driveEntries 2 "/test1").nodeNamespace) =
        some ("/test1", "drive_1") := by
    decide +kernel
  have hservices : ("drive_1", (⟨"/test1/drive_1/get_state", "/test1/drive_1/change_state"⟩ :
      ServiceNames)) ∈ LifecycleManager.clients (containerIn "/robot").config := by
    decide +kernel
  exact (service_names_agree_iff RosNames.standard hread hnode rfl hservices).mpr
    (.inl (by decide))

/-- The drive without a namespace is started in the one of the container, and the manager calls
it in the root. -/
theorem service_names_differ :
    (containerIn "/robot").readEntries "drive_2" = some (driveEntries 3 "") ∧
      RosNames.standard.node "driver" ((containerIn "/robot").nodeOptions "drive_2" []
        (driveEntries 3 "").remappings (driveEntries 3 "").nodeNamespace) =
          some ("/robot", "drive_2") ∧
      RosNames.standard.node "lifecycle_manager" (containerIn "/robot").managerOptions =
        some ("/", "lifecycle_manager") ∧
      ("drive_2", (⟨"drive_2/get_state", "drive_2/change_state"⟩ : ServiceNames)) ∈
        LifecycleManager.clients (containerIn "/robot").config ∧
      RosNames.standard.service "/" "drive_2/get_state" = "/drive_2/get_state" ∧
      fullyQualified ("/robot", "drive_2") ++ "/get_state" = "/robot/drive_2/get_state" ∧
      "/drive_2/get_state" ≠ "/robot/drive_2/get_state" := by
  refine ⟨rfl, ?_, ?_, ?_, ?_, ?_, ?_⟩ <;> decide +kernel

end RosCanopen.Core
