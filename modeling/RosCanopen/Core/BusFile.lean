import RosCanopen.Core.NodeIds
import RosCanopen.Core.Roles
import Mathlib.Data.List.AList
import Mathlib.Data.List.Sort

/-!
# From the bus file to the devices

The bus is described in a file with the sections `options`, `master`, `defaults` and `nodes`.
At build time `cogen` writes another file from it, with one section for each device at the top
level; at run time `ConfigurationManager` reads that.  `cogen` lays the defaults over the
nodes: an entry of the defaults replaces the one of a node.  The reading of YAML is a
parameter: what `yaml-cpp` makes of a value that `PyYAML` has written.

## Main definitions

* `BusFile`, `BusFile.expand` — the file, and `main` of `cogen`.
* `root` — the sections as `ConfigurationManager` finds them.
* `BusFile.entry`, `BusFile.Names` — what the file says of which devices.
* `BusFile.mem_devices` — the devices are those, with those entries, if the options are read.
* `BusFile.WellFormed`, `BusFile.brought_up` — a file from which the whole bus comes up.
-/

namespace RosCanopen.Core

open Lib
open ConfigurationManager (initConfig initConfig? BadOptions defaultDcfPath)

universe u

/-- A mapping of YAML whose keys are texts. -/
abbrev Mapping (ν : Type u) := AList fun _ : String => ν

/-- A section: entries by their names. -/
abbrev Section (V : Type u) := Mapping V

namespace Mapping

variable {ν : Type u}

/-- Assign the entries of one mapping in another. -/
def layOver (top m : Mapping ν) : Mapping ν :=
  top.entries.foldl (fun m e => m.insert e.1 e.2) m

/-- What is assigned for distinct keys is found, and otherwise what was there. -/
theorem lookup_foldl_insert {μ : Type u} (f : μ → ν) (key : String) :
    ∀ (es : List (Sigma fun _ : String => μ)) (m : Mapping ν), es.NodupKeys →
      (es.foldl (fun m e => m.insert e.1 (f e.2)) m).lookup key =
        ((es.dlookup key).map f).or (m.lookup key) := by
  intro es
  induction es with
  | nil => intro m _; rfl
  | cons e es ih =>
      intro m hes
      obtain ⟨hnot, hes⟩ := List.nodupKeys_cons.mp hes
      rw [List.foldl_cons, ih _ hes]
      by_cases hkey : key = e.1
      · subst hkey
        rw [List.dlookup_eq_none.mpr hnot, AList.lookup_insert]
        obtain ⟨k, x⟩ := e
        rw [List.dlookup_cons_eq]
        rfl
      · obtain ⟨k, x⟩ := e
        rw [List.dlookup_cons_ne _ _ hkey, AList.lookup_insert_ne hkey]

theorem lookup_layOver (top m : Mapping ν) (key : String) :
    (top.layOver m).lookup key = (top.lookup key).or (m.lookup key) := by
  have hfold := lookup_foldl_insert id key top.entries m top.nodupKeys
  rw [Option.map_id] at hfold
  exact hfold

end Mapping

/-- `bus.yml` -/
structure BusFile (V : Type u) where
  options : Option (Section V)
  master : Option (Section V)
  nodes : Option (Mapping (Section V))
  defaults : Option (Section V)

namespace BusFile

variable {V : Type u}

/-- `main` of `cogen`: the sections of the file that it writes, if it finds a master and nodes. -/
def expand (cfg : BusFile V) : Option (Mapping (Section V)) :=
  match cfg.master, cfg.nodes with
  | some master, some nodes =>
      let options := cfg.options.getD ∅
      let defaults := cfg.defaults.getD ∅
      let modifiedFile :=
        ((∅ : Mapping (Section V)).insert "options" options).insert "master" master
      some (nodes.entries.foldl
        (fun file e => file.insert e.1 (defaults.layOver e.2)) modifiedFile)
  | _, _ => none

/-- An entry that the file gives a device.  A node that is called like another section stands
in its place. -/
def entry (cfg : BusFile V) (name key : String) : Option V :=
  match cfg.nodes.bind (·.lookup name) with
  | some node => (cfg.defaults.bind (·.lookup key)).or (node.lookup key)
  | none =>
      if name = "master" then cfg.master.bind (·.lookup key)
      else if name = "options" then cfg.options.bind (·.lookup key)
      else none

/-- The file describes a node of the name. -/
def IsNode (cfg : BusFile V) (name : String) : Prop :=
  ∃ nodes, cfg.nodes = some nodes ∧ name ∈ nodes

/-- The file describes a device of the name. -/
def Names (cfg : BusFile V) (name : String) : Prop :=
  name ≠ "options" ∧ (name = "master" ∨ cfg.IsNode name)

/-- The sections that `cogen` writes. -/
theorem lookup_expand {cfg : BusFile V} {file : Mapping (Section V)} (h : cfg.expand = some file)
    (name : String) :
    file.lookup name =
      ((cfg.nodes.bind (·.lookup name)).map ((cfg.defaults.getD ∅).layOver)).or
        (if name = "master" then cfg.master
          else if name = "options" then some (cfg.options.getD ∅) else none) := by
  obtain ⟨options, master, nodes, defaults⟩ := cfg
  cases master with
  | none => simp [expand] at h
  | some master =>
      cases nodes with
      | none => simp [expand] at h
      | some nodes =>
          obtain rfl := Option.some.inj h
          rw [Mapping.lookup_foldl_insert _ name nodes.entries _ nodes.nodupKeys]
          refine congrArg _ ?_
          by_cases hmaster : name = "master"
          · subst hmaster
            rw [AList.lookup_insert]
            rfl
          · rw [AList.lookup_insert_ne hmaster, if_neg hmaster]
            by_cases hoptions : name = "options"
            · subst hoptions
              rw [AList.lookup_insert]
              rfl
            · rw [AList.lookup_insert_ne hoptions, if_neg hoptions]
              rfl

/-- Each of them has the entries that the file gives. -/
theorem lookup_section {cfg : BusFile V} {file : Mapping (Section V)} (h : cfg.expand = some file)
    (name key : String) : (file.lookup name).bind (·.lookup key) = cfg.entry name key := by
  rw [lookup_expand h, entry]
  cases hnode : cfg.nodes.bind (·.lookup name) with
  | some node =>
      have hdefaults : (cfg.defaults.getD ∅).lookup key = cfg.defaults.bind (·.lookup key) := by
        cases cfg.defaults <;> rfl
      simp [Mapping.lookup_layOver, hdefaults]
  | none =>
      by_cases hmaster : name = "master"
      · simp [hmaster]
      · by_cases hoptions : name = "options"
        · cases cfg.options <;> simp [hoptions]
        · simp [hmaster, hoptions]

/-- They are those of the options and of the devices. -/
theorem mem_expand {cfg : BusFile V} {file : Mapping (Section V)} (h : cfg.expand = some file)
    (name : String) : name ∈ file ↔ name = "options" ∨ cfg.Names name := by
  have hmaster : ∃ master, cfg.master = some master := by
    cases hm : cfg.master with
    | none => simp [expand, hm] at h
    | some master => exact ⟨master, rfl⟩
  obtain ⟨master, hmaster⟩ := hmaster
  have hnode : cfg.IsNode name ↔ (cfg.nodes.bind (·.lookup name)).isSome := by
    cases hnodes : cfg.nodes <;> simp [IsNode, hnodes, AList.lookup_isSome]
  rw [← AList.lookup_isSome, lookup_expand h, Names, hnode]
  by_cases hname : name = "options"
  · simp [hname]
  · by_cases hmaster' : name = "master"
    · simp [hmaster', hmaster]
    · cases cfg.nodes.bind (·.lookup name) <;> simp [hname, hmaster']

end BusFile

/-! ## Writing the file, and reading it -/

/-- `yaml.dump`, which sorts the keys. -/
def dumped {ν : Type u} (file : Mapping ν) : List (String × ν) :=
  (file.entries.map fun e => (e.1, e.2)).mergeSort fun e e' => decide (e.1 ≤ e'.1)

/-- What `as` makes of the values that were written, where it does not throw. -/
structure Reader (V : Type u) where
  natural : V → Option ℕ
  text : V → Option String
  texts : V → Option (OrderedMap String String)

/-- The entries of a section that the container and the manager read. -/
def Device.read {V : Type u} (r : Reader V) (lookup : String → Option V) : Device where
  nodeId := (lookup "node_id").bind r.natural
  driver := (lookup "driver").bind r.text
  package := (lookup "package").bind r.text
  ns := (lookup "namespace").bind r.text
  remappings := (lookup "remappings").bind r.texts
  dcfPath := (lookup "dcf_path").map r.text

/-- The sections of the file that `cogen` has written. -/
def root {V : Type u} (r : Reader V) (file : Mapping (Section V)) : List (String × Device) :=
  (dumped file).map fun e => (e.1, Device.read r fun key => e.2.lookup key)

/-- The device with the path for devices that have none. -/
def Device.orPath (d : Device) (path : String) : Device :=
  { d with dcfPath := some (d.dcfPath.getD (some path)) }

section Dumped
variable {ν : Type u} (file : Mapping ν)

theorem mem_dumped (name : String) (v : ν) :
    (name, v) ∈ dumped file ↔ file.lookup name = some v := by
  rw [dumped, (List.mergeSort_perm _ _).mem_iff, ← Option.mem_def, AList.mem_lookup_iff]
  constructor
  · intro hmem
    obtain ⟨e, he, heq⟩ := List.mem_map.mp hmem
    obtain ⟨rfl, rfl⟩ := Prod.mk.inj heq
    exact he
  · intro hmem
    exact List.mem_map.mpr ⟨_, hmem, rfl⟩

/-- The keys are written in order, each once. -/
theorem pairwise_dumped : (dumped file).Pairwise fun e e' => e.1 < e'.1 := by
  have hle : (dumped file).Pairwise fun e e' => decide (e.1 ≤ e'.1) = true := by
    refine List.pairwise_mergeSort ?_ ?_ _
    · intro a b c hab hbc
      simp only [decide_eq_true_eq] at hab hbc ⊢
      exact le_trans hab hbc
    · intro a b
      simpa using le_total a.1 b.1
  have hkeys : List.Perm ((dumped file).map Prod.fst) file.keys := by
    have hperm := (List.mergeSort_perm (file.entries.map fun e => (e.1, e.2))
      fun e e' => decide (e.1 ≤ e'.1)).map Prod.fst
    rw [List.map_map] at hperm
    exact hperm
  have hne : (dumped file).Pairwise fun e e' => e.1 ≠ e'.1 :=
    List.pairwise_map.mp (hkeys.nodup_iff.mpr file.keys_nodup)
  exact (hle.and hne).imp fun h => lt_of_le_of_ne (of_decide_eq_true h.1) h.2

end Dumped

/-! ## The devices -/

section Devices
variable {sections : List (String × Device)}

/-- A file has one section `options`, which gives the path. -/
theorem defaultDcfPath_of_mem (hsorted : sections.Pairwise fun e e' => e.1 < e'.1) {d : Device}
    (hmem : ("options", d) ∈ sections) :
    defaultDcfPath sections = (d.dcfPath.getD (some "")).getD "" := by
  have hfold : defaultDcfPath sections = sections.foldl (fun path e =>
      if e.1 = "options" then (e.2.dcfPath.getD (some path)).getD path else path) "" := rfl
  have hother : ∀ (es : List (String × Device)) (path : String), (∀ e ∈ es, e.1 ≠ "options") →
      es.foldl (fun path e => if e.1 = "options" then (e.2.dcfPath.getD (some path)).getD path
        else path) path = path := by
    intro es
    induction es with
    | nil => intro path _; rfl
    | cons e es ih =>
        intro path hes
        obtain ⟨hne, hes⟩ := List.forall_mem_cons.mp hes
        rw [List.foldl_cons, if_neg hne]
        exact ih path hes
  obtain ⟨before, after, rfl⟩ := List.append_of_mem hmem
  obtain ⟨-, hafter, hbefore⟩ := List.pairwise_append.mp hsorted
  have hbefore' : ∀ e ∈ before, e.1 ≠ "options" := by
    intro e he
    exact ne_of_lt (hbefore e he _ List.mem_cons_self)
  have hafter' : ∀ e ∈ after, e.1 ≠ "options" := by
    intro e he
    exact (ne_of_lt ((List.pairwise_cons.mp hafter).1 e he)).symm
  rw [hfold, List.foldl_append, hother before _ hbefore', List.foldl_cons, if_pos rfl,
    hother after _ hafter']

/-- The devices are the other sections. -/
theorem entries_initConfig (hsorted : sections.Pairwise fun e e' => e.1 < e'.1) :
    (initConfig sections).entries = (sections.filter fun e => e.1 ≠ "options").map fun e =>
      (e.1, e.2.orPath (defaultDcfPath sections)) := by
  have hfold : ∀ (path : String) (es : List (String × Device)) (m : OrderedMap String Device),
      es.foldl (fun devices e => if e.1 = "options" then devices
          else devices.emplace e.1 (e.2.orPath path)) m =
        ((es.filter fun e => e.1 ≠ "options").map fun e => (e.1, e.2.orPath path)).foldl
          (fun m e => m.emplace e.1 e.2) m := by
    intro path es
    induction es with
    | nil => intro m; rfl
    | cons e es ih =>
        intro m
        by_cases hname : e.1 = "options"
        · rw [List.filter_cons_of_neg (by simpa using hname), List.foldl_cons, if_pos hname, ih]
        · rw [List.filter_cons_of_pos (by simpa using hname), List.foldl_cons, if_neg hname, ih]
          rfl
  have hconfig : initConfig sections = sections.foldl
      (fun devices e => if e.1 = "options" then devices
        else devices.emplace e.1 (e.2.orPath (defaultDcfPath sections))) .empty := rfl
  rw [hconfig, hfold, OrderedMap.entries_foldl_emplace]
  · rfl
  · rw [List.pairwise_map]
    exact hsorted.filter _
  · intro e he
    exact absurd he List.not_mem_nil

end Devices

namespace BusFile
variable {V : Type u} {r : Reader V} {cfg : BusFile V} {file : Mapping (Section V)}

/-- The device that the file describes under the name. -/
def device (r : Reader V) (cfg : BusFile V) (name : String) : Device :=
  (Device.read r (cfg.entry name)).orPath
    (((cfg.entry "options" "dcf_path").bind r.text).getD "")

/-- The path of the options is there, but no text. -/
def BadPath (r : Reader V) (cfg : BusFile V) : Prop :=
  ∃ v, cfg.entry "options" "dcf_path" = some v ∧ r.text v = none

/-- The sections of the devices, and their entries. -/
theorem mem_root (h : cfg.expand = some file) (name : String) (d : Device) :
    (name, d) ∈ root r file ↔
      (name = "options" ∨ cfg.Names name) ∧ d = Device.read r (cfg.entry name) := by
  rw [← mem_expand h]
  constructor
  · intro hmem
    obtain ⟨⟨name', node⟩, hnode, heq⟩ := List.mem_map.mp hmem
    obtain ⟨rfl, rfl⟩ := Prod.mk.inj heq
    have hlookup := (mem_dumped file name' node).mp hnode
    refine ⟨AList.lookup_isSome.mp (by rw [hlookup]; rfl), ?_⟩
    refine congrArg (Device.read r) (funext fun key => ?_)
    rw [← lookup_section h, hlookup]
    rfl
  · intro hmem
    obtain ⟨hmem, rfl⟩ := hmem
    obtain ⟨node, hlookup⟩ := Option.isSome_iff_exists.mp (AList.lookup_isSome.mpr hmem)
    refine List.mem_map.mpr ⟨(name, node), (mem_dumped file name node).mpr hlookup, ?_⟩
    refine congrArg (Prod.mk name) (congrArg (Device.read r) (funext fun key => ?_))
    rw [← lookup_section h, hlookup]
    rfl

theorem pairwise_root : (root r file).Pairwise fun e e' => e.1 < e'.1 :=
  List.pairwise_map.mpr (pairwise_dumped file)

/-- Reading it throws just when the path of the options is there and no text. -/
theorem badOptions_root (h : cfg.expand = some file) :
    BadOptions (root r file) ↔ cfg.BadPath r := by
  constructor
  · intro hbad
    obtain ⟨⟨name, d⟩, hmem, rfl, hpath⟩ := hbad
    obtain ⟨-, rfl⟩ := (mem_root h _ _).mp hmem
    exact Option.map_eq_some_iff.mp hpath
  · intro hbad
    refine ⟨_, (mem_root h "options" _).mpr ⟨.inl rfl, rfl⟩, rfl, ?_⟩
    exact Option.map_eq_some_iff.mpr hbad

/-- The devices where reading does not throw. -/
theorem mem_initConfig (h : cfg.expand = some file) (name : String) (d : Device) :
    (name, d) ∈ (initConfig (root r file)).entries ↔ cfg.Names name ∧ d = cfg.device r name := by
  have hoptions : ("options", Device.read r (cfg.entry "options")) ∈ root r file :=
    (mem_root h _ _).mpr ⟨.inl rfl, rfl⟩
  have hpath : ((Device.read r (cfg.entry "options")).dcfPath.getD (some "")).getD "" =
      ((cfg.entry "options" "dcf_path").bind r.text).getD "" := by
    rw [Device.read]
    cases cfg.entry "options" "dcf_path" <;> rfl
  rw [entries_initConfig pairwise_root, defaultDcfPath_of_mem pairwise_root hoptions, hpath]
  constructor
  · intro hmem
    obtain ⟨⟨name', d'⟩, hd, heq⟩ := List.mem_map.mp hmem
    obtain ⟨rfl, rfl⟩ := Prod.mk.inj heq
    obtain ⟨hd, hne⟩ := List.mem_filter.mp hd
    obtain ⟨hnames, rfl⟩ := (mem_root h _ _).mp hd
    exact ⟨hnames.resolve_left (of_decide_eq_true hne), rfl⟩
  · intro hmem
    obtain ⟨hnames, rfl⟩ := hmem
    refine List.mem_map.mpr ⟨(name, Device.read r (cfg.entry name)), ?_, rfl⟩
    exact List.mem_filter.mpr ⟨(mem_root h _ _).mpr ⟨.inr hnames, rfl⟩, by simpa using hnames.1⟩

/-- **The devices are those that the file describes.**  `init_config` throws if the path of the
options is there but no text.  Otherwise the manager of the configuration has a section for the
master and for each node but one called `options`; each of the entries that are read of a node
is the one of the defaults, where they have it, and the node's own otherwise; a device without
a path has that of the options, one with a path that is no text keeps it. -/
theorem mem_devices (h : cfg.expand = some file) :
    (cfg.BadPath r → initConfig? (root r file) = none) ∧
    (¬ cfg.BadPath r → ∃ config, initConfig? (root r file) = some config ∧
      ∀ name d, (name, d) ∈ config.entries ↔ cfg.Names name ∧ d = cfg.device r name) := by
  rw [← badOptions_root h]
  constructor
  · intro hbad
    exact if_pos hbad
  · intro hgood
    exact ⟨_, if_neg hgood, mem_initConfig h⟩

/-- A bus with two joints, whose drivers are the default. -/
def twoJoints : BusFile (ℕ ⊕ String) where
  options := some ((∅ : Section (ℕ ⊕ String)).insert "dcf_path" (.inr "config"))
  master := some ((((∅ : Section (ℕ ⊕ String)).insert "node_id" (.inl 1)).insert "driver"
    (.inr "ros2_canopen::LifecycleMasterDriver")).insert "package" (.inr "canopen_master_driver"))
  nodes := some (((∅ : Mapping (Section (ℕ ⊕ String))).insert "wrist"
    ((∅ : Section (ℕ ⊕ String)).insert "node_id" (.inl 2))).insert "elbow"
    (((∅ : Section (ℕ ⊕ String)).insert "node_id" (.inl 3)).insert "dcf_path" (.inr "elbow")))
  defaults := some (((∅ : Section (ℕ ⊕ String)).insert "driver"
    (.inr "ros2_canopen::LifecycleCia402Driver")).insert "package" (.inr "canopen_402_driver"))

/-- Numbers and texts are read as what they are. -/
def plainReader : Reader (ℕ ⊕ String) where
  natural := Sum.getLeft?
  text := Sum.getRight?
  texts _ := none

theorem names_twoJoints (name : String) :
    twoJoints.Names name ↔ name = "master" ∨ name = "wrist" ∨ name = "elbow" := by
  have hnode : twoJoints.IsNode name ↔ name = "wrist" ∨ name = "elbow" := by
    simp [IsNode, twoJoints, AList.mem_keys, or_comm]
  rw [Names, hnode]
  constructor
  · exact fun h => h.2
  · intro h
    refine ⟨?_, h⟩
    rintro rfl
    exact absurd h (by decide)

/-- Its options have a path that is read. -/
theorem not_badPath_twoJoints : ¬ twoJoints.BadPath plainReader := by
  intro hbad
  obtain ⟨v, hv, htext⟩ := hbad
  obtain rfl : Sum.inr "config" = v := Option.some.inj hv
  cases htext

/-- One of them has the path of the options, the other its own. -/
theorem mem_devices_twoJoints : ∃ file config, twoJoints.expand = some file ∧
    initConfig? (root plainReader file) = some config ∧
    ("wrist", driverDevice) ∈ config.entries ∧
    ("elbow", { driverDevice with nodeId := some 3, dcfPath := some (some "elbow") }) ∈
      config.entries := by
  have hwrist : driverDevice = twoJoints.device plainReader "wrist" := rfl
  have helbow : { driverDevice with nodeId := some 3, dcfPath := some (some "elbow") } =
      twoJoints.device plainReader "elbow" := rfl
  obtain ⟨config, hread, hmem⟩ := (mem_devices (r := plainReader) rfl).2 not_badPath_twoJoints
  refine ⟨_, config, rfl, hread, (hmem _ _).mpr ⟨?_, hwrist⟩, (hmem _ _).mpr ⟨?_, helbow⟩⟩
  · exact (names_twoJoints _).mpr (.inr (.inl rfl))
  · exact (names_twoJoints _).mpr (.inr (.inr rfl))

/-! ## Coming up -/

/-- A file whose options have no path or a text, whose nodes have plain names, and whose devices
have distinct ids and components that can be loaded. -/
structure WellFormed (loader : Loader) (lifecycle : Bool) (r : Reader V) (cfg : BusFile V)
    (id : String → BitVec 8) : Prop where
  path : ¬ cfg.BadPath r
  plain : ∀ name, cfg.IsNode name → ¬ Contains "master" name ∧ ¬ Contains "options" name
  ids : ∀ name, cfg.Names name → (cfg.device r name).nodeId = some (id name).toNat
  distinct : ∀ name name', cfg.Names name → cfg.Names name' → id name = id name' → name = name'
  loads : ∀ name, cfg.Names name → loader.Loads lifecycle (cfg.device r name)

section WellFormed
variable {loader : Loader} {lifecycle : Bool} {id : String → BitVec 8}

theorem WellFormed.nodeIdAs (hwf : WellFormed loader lifecycle r cfg id) {name : String}
    (hname : cfg.Names name) : (cfg.device r name).nodeIdAs 8 = some (id name) := by
  have hlt : (id name).toNat < 2 ^ 8 := (id name).isLt
  rw [Device.nodeIdAs, hwf.ids name hname]
  simp only [if_pos hlt, BitVec.ofNat_toNat, BitVec.setWidth_eq]

theorem WellFormed.valid (hwf : WellFormed loader lifecycle r cfg id)
    (h : cfg.expand = some file) : (initConfig (root r file)).Valid (id "master") := by
  have hmaster : cfg.Names "master" := ⟨by decide, .inl rfl⟩
  refine ⟨⟨_, (mem_initConfig h _ _).mpr ⟨hmaster, rfl⟩, hwf.nodeIdAs hmaster⟩, ?_, ?_⟩
  · intro e he
    obtain ⟨hname, hd⟩ := (mem_initConfig h e.1 e.2).mp he
    exact ⟨id e.1, by rw [hd, hwf.nodeIdAs hname]⟩
  · refine (initConfig (root r file)).sorted.imp_of_mem fun {e e'} he he' hlt heq => ?_
    obtain ⟨hname, hd⟩ := (mem_initConfig h e.1 e.2).mp he
    obtain ⟨hname', hd'⟩ := (mem_initConfig h e'.1 e'.2).mp he'
    rw [hd, hd', hwf.nodeIdAs hname, hwf.nodeIdAs hname'] at heq
    exact hlt.ne (hwf.distinct _ _ hname hname' (Option.some.inj heq))

/-- The devices but the master are the nodes. -/
theorem WellFormed.mem_others (hwf : WellFormed loader lifecycle r cfg id)
    (h : cfg.expand = some file) (name : String) (d : Device) :
    (name, d) ∈ (initConfig (root r file)).others ↔ cfg.IsNode name ∧ d = cfg.device r name := by
  rw [ConfigurationManager.others, List.mem_filter, mem_initConfig h, Names, decide_eq_true_eq]
  constructor
  · intro hmem
    obtain ⟨⟨⟨-, hname⟩, hd⟩, hmaster⟩ := hmem
    exact ⟨hname.resolve_left hmaster, hd⟩
  · intro hmem
    obtain ⟨hname, hd⟩ := hmem
    obtain ⟨hmaster, hoptions⟩ := hwf.plain name hname
    refine ⟨⟨⟨?_, .inr hname⟩, hd⟩, ?_⟩
    · rintro rfl
      exact hoptions (Contains.refl _)
    · rintro rfl
      exact hmaster (Contains.refl _)

/-- **The bus comes up from its file.**  It is read, and the load and the managers take "master"
as the master and exactly the nodes as drivers, each under the id that the file gives it; all
are brought up in the order of their names after the master, and brought down before it. -/
theorem brought_up (h : cfg.expand = some file) (hwf : WellFormed loader lifecycle r cfg id) :
    ∃ config names, initConfig? (root r file) = some config ∧
      (names : List String).Pairwise (· < ·) ∧ (∀ name, name ∈ names ↔ cfg.IsNode name) ∧
      config.others.map Prod.fst = names ∧ config.otherIds = names.map id ∧
      Consistent loader (root r file) (id "master") := by
  have hpath : ¬ BadOptions (root r file) := fun hbad => hwf.path ((badOptions_root h).mp hbad)
  refine ⟨_, _, if_neg hpath, ?_, ?_, rfl, ?_, ?_⟩
  · rw [List.pairwise_map]
    exact (initConfig (root r file)).sorted.filter _
  · intro name
    constructor
    · intro hmem
      obtain ⟨e, he, rfl⟩ := List.mem_map.mp hmem
      exact ((hwf.mem_others h e.1 e.2).mp he).1
    · intro hname
      exact List.mem_map.mpr ⟨_, (hwf.mem_others h name _).mpr ⟨hname, rfl⟩, rfl⟩
  · have hids : ∀ e ∈ (initConfig (root r file)).others, e.2.nodeIdAs 8 = some (id e.1) := by
      intro e he
      obtain ⟨hname, hd⟩ := (mem_initConfig h e.1 e.2).mp (List.mem_of_mem_filter he)
      rw [hd, hwf.nodeIdAs hname]
    rw [ConfigurationManager.otherIds, List.filterMap_congr hids, List.map_map,
      ← List.filterMap_eq_map]
    rfl
  · have hloads : ∀ e ∈ (initConfig (root r file)).entries, loader.Loads lifecycle e.2 := by
      intro e he
      obtain ⟨hname, hd⟩ := (mem_initConfig h e.1 e.2).mp he
      rw [hd]
      exact hwf.loads e.1 hname
    refine consistent_of_plainNames (hwf.valid h) hloads ?_
    intro e he hmaster
    obtain ⟨hname, -⟩ := (mem_initConfig h e.1 e.2).mp he
    exact hwf.plain e.1 (hname.2.resolve_left hmaster)

/-- The wrist comes up after the elbow. -/
theorem brought_up_twoJoints : ∃ file config, twoJoints.expand = some file ∧
    initConfig? (root plainReader file) = some config ∧
    Consistent twoComponents (root plainReader file) 1 ∧ config.otherIds = [3, 2] := by
  have hids : ∀ name, twoJoints.Names name → (twoJoints.device plainReader name).nodeId =
      some (if name = "master" then 1 else if name = "wrist" then 2 else 3 : BitVec 8).toNat := by
    intro name hname
    rcases (names_twoJoints name).mp hname with rfl | rfl | rfl <;> rfl
  have hloads : ∀ name, twoJoints.Names name →
      twoComponents.Loads true (twoJoints.device plainReader name) := by
    intro name hname
    rcases (names_twoJoints name).mp hname with rfl | rfl | rfl
    · exact loads_masterDevice
    · exact loads_driverDevice
    · exact ⟨_, _, rfl, rfl, _, _, _, rfl, rfl, rfl, fun _ => ⟨⟨true⟩, rfl, rfl⟩⟩
  have hwf : WellFormed twoComponents true plainReader twoJoints fun name =>
      if name = "master" then 1 else if name = "wrist" then 2 else 3 := by
    refine ⟨not_badPath_twoJoints, ?_, hids, ?_, hloads⟩
    · intro name hname
      have hcases : name = "wrist" ∨ name = "elbow" := by
        simpa [IsNode, twoJoints, AList.mem_keys, or_comm] using hname
      rcases hcases with rfl | rfl <;> decide
    · intro name name' hname hname'
      rcases (names_twoJoints name).mp hname with rfl | rfl | rfl <;>
        rcases (names_twoJoints name').mp hname' with rfl | rfl | rfl <;> decide
  obtain ⟨config, names, hread, hsorted, hnames, -, hids, hconsistent⟩ := brought_up rfl hwf
  have helbow : ["elbow", "wrist"].Pairwise (· < ·) := by decide
  have hperm : names.Perm ["elbow", "wrist"] := by
    refine (List.perm_ext_iff_of_nodup (hsorted.imp ne_of_lt) (helbow.imp ne_of_lt)).mpr ?_
    intro name
    rw [hnames]
    simp [IsNode, twoJoints, AList.mem_keys]
  refine ⟨_, config, rfl, hread, hconsistent, ?_⟩
  rw [hids, hperm.eq_of_pairwise (fun _ _ _ _ h h' => absurd h (lt_asymm h')) hsorted helbow]
  rfl

end WellFormed

/-! ## An id among the defaults -/

/-- Two drivers that are loaded have different ids in the file. -/
theorem nodup_nodeIds {loader : Loader} {c c' : DeviceContainer} (h : cfg.expand = some file)
    (hconfig : c.config = initConfig (root r file)) (hnone : c.canMaster = none)
    (hload : c.load loader = .ok c') :
    (c.driverNames.map fun name => (cfg.device r name).nodeId).Nodup := by
  obtain ⟨_, _, hloads⟩ := DeviceContainer.loads_of_load hnone hload
  have hread : ∀ name ∈ c.driverNames, ∃ e, c.readEntries name = some e ∧
      (cfg.device r name).nodeId = some e.nodeId.toNat := by
    intro name hname
    obtain ⟨e, -, hread, -⟩ := hloads.drivers name hname
    obtain ⟨d, hmem, hid⟩ := DeviceContainer.nodeId_of_readEntries hread
    rw [hconfig] at hmem
    exact ⟨e, hread, by rw [← ((mem_initConfig h name d).mp hmem).2, hid]⟩
  rw [List.Nodup, List.pairwise_map]
  refine hloads.distinct.imp_of_mem fun {name name'} hname hname' hne heq => ?_
  obtain ⟨e, he, hid⟩ := hread name hname
  obtain ⟨e', he', hid'⟩ := hread name' hname'
  rw [hid, hid'] at heq
  exact hne e e' he he' (BitVec.eq_of_toNat_eq (Option.some.inj heq))

/-- A node has the id of the defaults, if they have one. -/
theorem nodeId_of_default {name : String} {v : V}
    (hdefault : cfg.defaults.bind (·.lookup "node_id") = some v) (hname : cfg.IsNode name) :
    (cfg.device r name).nodeId = r.natural v := by
  obtain ⟨nodes, hnodes, hmem⟩ := hname
  obtain ⟨node, hlookup⟩ := Option.isSome_iff_exists.mp (AList.lookup_isSome.mpr hmem)
  have hentry : cfg.entry name "node_id" = some v := by
    rw [entry, hnodes, Option.bind_some, hlookup]
    simp only [hdefault, Option.some_or]
  rw [device, Device.orPath, Device.read, hentry]
  rfl

/-- A node with a plain name is a driver to load. -/
theorem mem_driverNames {c : DeviceContainer} {name : String} (h : cfg.expand = some file)
    (hconfig : c.config = initConfig (root r file)) (hname : cfg.IsNode name)
    (hplain : ¬ Contains "master" name ∧ ¬ Contains "options" name) : name ∈ c.driverNames := by
  have hnames : cfg.Names name := by
    refine ⟨?_, .inr hname⟩
    rintro rfl
    exact hplain.2 (Contains.refl _)
  have hmem := (mem_initConfig h name (cfg.device r name)).mpr ⟨hnames, rfl⟩
  rw [← hconfig] at hmem
  exact List.mem_filter.mpr ⟨List.mem_map.mpr ⟨_, hmem, rfl⟩, decide_eq_true hplain⟩

/-- **With an id among the defaults, two nodes cannot be loaded.**  It replaces the id of each. -/
theorem not_init_of_default {loader : Loader} {name name' : String} {v : V}
    (h : cfg.expand = some file)
    (hdefault : cfg.defaults.bind (·.lookup "node_id") = some v)
    (hname : cfg.IsNode name) (hname' : cfg.IsNode name') (hne : name ≠ name')
    (hplain : ¬ Contains "master" name ∧ ¬ Contains "options" name)
    (hplain' : ¬ Contains "master" name' ∧ ¬ Contains "options" name')
    (fullyQualifiedName ns canInterfaceName masterConfig masterBin : String)
    (canMasterId : BitVec 16) (c : DeviceContainer) :
    (DeviceContainer.initial fullyQualifiedName ns canMasterId).init loader canInterfaceName
      masterConfig masterBin (root r file) ≠ .ok c := by
  intro hinit
  have hnodup := nodup_nodeIds h rfl rfl hinit
  refine hne (List.inj_on_of_nodup_map hnodup (mem_driverNames h rfl hname hplain)
    (mem_driverNames h rfl hname' hplain') ?_)
  rw [nodeId_of_default hdefault hname, nodeId_of_default hdefault hname']

/-- The bus with the two joints, if the defaults had an id. -/
theorem not_init_twoJoints : ∃ file, BusFile.expand { twoJoints with
      defaults := twoJoints.defaults.map fun defaults => defaults.insert "node_id" (.inl 4) } =
        some file ∧
    ∀ c, (DeviceContainer.initial "/device_container" "/" 0).init twoComponents "vcan0" "master.dcf"
      "master.bin" (root plainReader file) ≠ .ok c := by
  have hnode : ∀ name, name = "wrist" ∨ name = "elbow" → BusFile.IsNode { twoJoints with
      defaults := twoJoints.defaults.map fun defaults => defaults.insert "node_id" (.inl 4) }
      name := by
    intro name hname
    simpa [IsNode, twoJoints, AList.mem_keys, or_comm] using hname
  exact ⟨_, rfl, not_init_of_default rfl rfl (hnode "wrist" (.inl rfl)) (hnode "elbow" (.inr rfl))
    (by decide) (by decide) (by decide) _ _ _ _ _ _⟩

end BusFile
end RosCanopen.Core
