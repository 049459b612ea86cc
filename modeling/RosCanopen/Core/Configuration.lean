import RosCanopen.Lib.OrderedMap
import Mathlib.Data.List.Infix
import Mathlib.Data.String.Basic

/-!
# The bus configuration

The YAML file has a section for each device under the device's name, and a section
`options` for defaults.  `ConfigurationManager` keeps the devices in a map and hands their
names out in order.

## Main definitions

* `Device`, `ConfigurationManager` — the sections, and the map of them.
* `Contains` — `find` of a text in a name.
-/

namespace RosCanopen.Core

open Lib

/-- The text occurs in the name. -/
def Contains (text name : String) : Prop := text.toList <:+: name.toList

instance (text name : String) : Decidable (Contains text name) :=
  inferInstanceAs (Decidable (_ <:+: _))

theorem Contains.refl (text : String) : Contains text text := List.infix_refl _

/-- A section of the configuration: the entries that the container and the manager read, each
absent when it is missing or does not parse.  Of the path it also matters whether it is there. -/
structure Device where
  nodeId : Option ℕ
  driver : Option String
  package : Option String
  /-- `namespace` -/
  ns : Option String
  remappings : Option (OrderedMap String String)
  /-- `dcf_path`, and the text that `as` makes of it, where it does not throw. -/
  dcfPath : Option (Option String)

/-- `get_entry<uint8_t>(.., "node_id")`, and the same for 16 bits. -/
def Device.nodeIdAs (d : Device) (width : ℕ) : Option (BitVec width) :=
  match d.nodeId with
  | some id => if id < 2 ^ width then some (BitVec.ofNat width id) else none
  | none => none

theorem Device.nodeIdAs_eq_some {d : Device} {width : ℕ} {id : BitVec width}
    (h : d.nodeIdAs width = some id) : d.nodeId = some id.toNat := by
  rw [nodeIdAs] at h
  split at h
  · next n hn =>
      split at h
      · next hlt =>
          rw [hn, ← Option.some.inj h, BitVec.toNat_ofNat, Nat.mod_eq_of_lt hlt]
      · contradiction
  · contradiction

/-- An id of 8 bits is read alike as one of more bits. -/
theorem Device.nodeIdAs_of_nodeIdAs {d : Device} {width : ℕ} {id : BitVec 8} (hwidth : 8 ≤ width)
    (h : d.nodeIdAs 8 = some id) : d.nodeIdAs width = some (id.setWidth width) := by
  have hlt : id.toNat < 2 ^ width := lt_of_lt_of_le id.isLt (Nat.pow_le_pow_right (by omega) hwidth)
  rw [nodeIdAs, nodeIdAs_eq_some h]
  simp only [hlt, if_true]
  exact congrArg some (BitVec.eq_of_toNat_eq (by simp))

/-- `devices_` -/
abbrev ConfigurationManager := OrderedMap String Device

namespace ConfigurationManager

/-- The default of `dcf_path`, from the last section `options`, where its path is a text. -/
def defaultDcfPath (root : List (String × Device)) : String :=
  root.foldl (fun path (name, d) =>
    if name = "options" then (d.dcfPath.getD (some path)).getD path else path) ""

/-- `init_config`, where it does not throw: every section but `options` is a device, and keeps
the path it has, be it a text or not.  It throws if the path of the options is there but no
text, see `initConfig?`. -/
def initConfig (root : List (String × Device)) : ConfigurationManager :=
  root.foldl (fun devices (name, d) =>
    if name = "options" then devices
    else devices.emplace name
      { d with dcfPath := some (d.dcfPath.getD (some (defaultDcfPath root))) }) .empty

/-- A path of the options is there, but no text. -/
def BadOptions (root : List (String × Device)) : Prop :=
  ∃ e ∈ root, e.1 = "options" ∧ e.2.dcfPath = some none

instance (root : List (String × Device)) : Decidable (BadOptions root) :=
  inferInstanceAs (Decidable (∃ e ∈ root, _))

/-- `init_config`, with `none` where it throws. -/
def initConfig? (root : List (String × Device)) : Option ConfigurationManager :=
  if BadOptions root then none else some (initConfig root)

/-- `get_all_devices` -/
def getAllDevices (config : ConfigurationManager) : List String := config.entries.map Prod.fst

/-- `get_entry` -/
def entry {α : Type} (config : ConfigurationManager) (name : String) (field : Device → Option α) :
    Option α :=
  (config.find? name).bind field

theorem entry_of_mem {α : Type} {config : ConfigurationManager} {name : String} {d : Device}
    (h : (name, d) ∈ config.entries) (field : Device → Option α) :
    config.entry name field = field d := by
  rw [entry, OrderedMap.find?_of_mem h]
  rfl

/-- The configuration has a device "master" with the id, every device has an id, and no two
have the same. -/
structure Valid (config : ConfigurationManager) (master : BitVec 8) : Prop where
  master : ∃ d, ("master", d) ∈ config.entries ∧ d.nodeIdAs 8 = some master
  ids : ∀ e ∈ config.entries, ∃ id, e.2.nodeIdAs 8 = some id
  distinct : config.entries.Pairwise fun e e' => e.2.nodeIdAs 8 ≠ e'.2.nodeIdAs 8

/-- No other name contains "master". -/
def SoleMaster (config : ConfigurationManager) : Prop :=
  ∀ e ∈ config.entries, e.1 ≠ "master" → ¬ Contains "master" e.1

/-- No other name contains "master" or "options". -/
def PlainNames (config : ConfigurationManager) : Prop :=
  ∀ e ∈ config.entries, e.1 ≠ "master" → ¬ Contains "master" e.1 ∧ ¬ Contains "options" e.1

/-- The id belongs to a device other than the master. -/
def IsDriver (config : ConfigurationManager) (id : BitVec 8) : Prop :=
  ∃ name d, (name, d) ∈ config.entries ∧ name ≠ "master" ∧ d.nodeIdAs 8 = some id

end ConfigurationManager
end RosCanopen.Core
