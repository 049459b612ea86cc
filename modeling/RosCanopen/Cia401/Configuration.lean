import RosCanopen.Cia401.Axis
import RosCanopen.Cia401.Remote
import RosCanopen.Lib.Cast

/-!
# The configuration of the remote receiver

`configure_common` reads the layout of the receiver from YAML.  A field that is missing, or is no
`int`, has its default; an `int` is narrowed to the type of its member by a cast, whatever it is.

## Main definitions

* `Config` — what is read of the YAML node.
* `Config.axes`, `Config.buttons`, `Config.estopSpec` — the members after `configure_common`.
* `Config.givenAxes`, `Config.givenEstop` — the same numbers before they are narrowed.
-/

namespace RosCanopen.Cia401

open Lib Bridge

/-- `as<int>` of a field; `none` where it throws. -/
abbrev YamlInt := Option (BitVec 32)

structure RegisterNode where
  digitalInputIndex : YamlInt
  digitalOutputIndex : YamlInt
  analogIndex : YamlInt
  commandIndex : YamlInt

structure AxisNode where
  channel : YamlInt
  center : YamlInt
  deadband : YamlInt
  invert : Option Bool

structure BitNode where
  index : YamlInt
  sub : YamlInt
  bit : YamlInt
  activeLow : Option Bool

/-- The node, without what the messages do not show; a field of another kind than it should be is
`none`. -/
structure Config where
  registerMap : Option RegisterNode
  polledDigitalSubs : Option (List YamlInt)
  axes : Option (List AxisNode)
  buttons : Option (List (Option BitNode))
  estop : Option BitNode

/-- All of `BitSpec`. -/
structure PolarBitSpec extends BitSpec where
  bit : BitVec 8 := 0
  activeLow : Bool := false

/-- A field of the node in a member: narrowed, or what the member has been. -/
def pick {w : ℕ} (field : YamlInt) (out : BitVec w) : BitVec w :=
  (field.map (BitVec.setWidth w)).getD out

/-- `parse_bit_spec` -/
def parseBitSpec (node : Option BitNode) (out : PolarBitSpec) : Option PolarBitSpec :=
  node.map fun node =>
    { index := pick node.index out.index
      sub := pick node.sub out.sub
      bit := pick node.bit out.bit
      activeLow := node.activeLow.getD out.activeLow }

/-- An entry of `axes`; one without a channel is left out. -/
def parseAxis (node : AxisNode) : Option AxisSpec :=
  let axis : AxisSpec := {}
  node.channel.map fun channel =>
    { sub := channel.setWidth 8
      center := pick node.center axis.center
      deadband := pick node.deadband axis.deadband
      invert := node.invert.getD axis.invert }

def defaultPolledDigitalSubs : List (BitVec 8) :=
  [0x01, 0x02, 0x03, 0x04, 0x05, 0x06, 0x07, 0x08, 0x09, 0x0A, 0x0B, 0x0C, 0x0D, 0x0E, 0x0F, 0x11]

def defaultAxisCount : ℕ := 16

namespace Config
variable (c : Config)

/-! ## What `configure_common` makes of it -/

def registers : Cia401RegisterMap :=
  let map : Cia401RegisterMap := {}
  match c.registerMap with
  | none => map
  | some node =>
      { digitalInputIndex := pick node.digitalInputIndex map.digitalInputIndex
        digitalOutputIndex := pick node.digitalOutputIndex map.digitalOutputIndex
        analogIndex := pick node.analogIndex map.analogIndex
        commandIndex := pick node.commandIndex map.commandIndex }

/-- One entry that is no `int` makes all of them default. -/
def polledSubs : List (BitVec 8) :=
  let subs := ((c.polledDigitalSubs.getD []).mapM id).getD []
  if subs.isEmpty then defaultPolledDigitalSubs else subs.map (BitVec.setWidth 8)

def axisSpecs : List AxisSpec :=
  let axes := (c.axes.getD []).filterMap parseAxis
  if axes.isEmpty then
    (List.range defaultAxisCount).map fun i => { sub := BitVec.ofNat 8 (i + 1) }
  else axes

def bitSpecs : List PolarBitSpec :=
  (c.buttons.getD []).filterMap fun node =>
    parseBitSpec node { index := c.registers.digitalInputIndex, sub := 1 }

/-- `estop_spec_`, if `estop_configured_`. -/
def estopSpec : Option PolarBitSpec :=
  parseBitSpec c.estop { index := c.registers.commandIndex, sub := 0x13, activeLow := true }

/-- `remote_` -/
def remote (driver : DriverNode) : M880Remote where
  driver := some driver
  registers := c.registers
  axes := c.axisSpecs.map AxisSpec.sub
  buttons := c.bitSpecs.map PolarBitSpec.toBitSpec
  polledDigitalSubs := c.polledSubs

end Config

/-! ## The numbers before they are narrowed -/

/-- The number of a field, or its default. -/
def YamlInt.given (field : YamlInt) (default : ℤ) : ℤ := (field.map BitVec.toInt).getD default

/-- An axis as it has been configured. -/
structure GivenAxis where
  channel : ℤ
  center : ℤ := 0x80
  deadband : ℤ := 0
  invert : Bool := false

def AxisNode.given (node : AxisNode) : Option GivenAxis :=
  node.channel.map fun channel =>
    { channel := channel.toInt
      center := YamlInt.given node.center 0x80
      deadband := YamlInt.given node.deadband 0
      invert := node.invert.getD false }

def GivenAxis.narrow (g : GivenAxis) : AxisSpec where
  sub := BitVec.ofInt 8 g.channel
  center := BitVec.ofInt 8 g.center
  deadband := BitVec.ofInt 8 g.deadband
  invert := g.invert

/-- A bit as it has been configured. -/
structure GivenBit where
  index : ℤ
  sub : ℤ
  bit : ℤ
  activeLow : Bool

def GivenBit.narrow (g : GivenBit) : PolarBitSpec where
  index := BitVec.ofInt 16 g.index
  sub := BitVec.ofInt 8 g.sub
  bit := BitVec.ofInt 8 g.bit
  activeLow := g.activeLow

namespace Config
variable (c : Config)

def givenAnalogIndex : ℤ := YamlInt.given (c.registerMap.bind RegisterNode.analogIndex) 0x2021

def givenCommandIndex : ℤ := YamlInt.given (c.registerMap.bind RegisterNode.commandIndex) 0x2020

def givenAxes : List GivenAxis :=
  let axes := (c.axes.getD []).filterMap AxisNode.given
  if axes.isEmpty then (List.range defaultAxisCount).map fun i => { channel := i + 1 } else axes

def givenEstop : Option GivenBit :=
  c.estop.map fun node =>
    { index := YamlInt.given node.index c.givenCommandIndex
      sub := YamlInt.given node.sub 0x13
      bit := YamlInt.given node.bit 0
      activeLow := node.activeLow.getD true }

end Config

section Narrow
variable {c : Config}

theorem setWidth_eq_ofInt {w : ℕ} (hw : w ≤ 32) (x : BitVec 32) :
    x.setWidth w = BitVec.ofInt w x.toInt := by
  rw [← IntType.setWidth_ofInt hw, BitVec.ofInt_toInt]

/-- A member has the number of its field, narrowed. -/
theorem pick_ofInt {w : ℕ} (hw : w ≤ 32) (field : YamlInt) (default : ℤ) :
    pick field (BitVec.ofInt w default) = BitVec.ofInt w (YamlInt.given field default) := by
  cases field with
  | none => rfl
  | some x => exact setWidth_eq_ofInt hw x

theorem analogIndex_eq : c.registers.analogIndex = BitVec.ofInt 16 c.givenAnalogIndex := by
  rw [Config.registers, Config.givenAnalogIndex]
  cases c.registerMap with
  | none => rfl
  | some node => exact pick_ofInt (by decide) node.analogIndex 0x2021

theorem commandIndex_eq : c.registers.commandIndex = BitVec.ofInt 16 c.givenCommandIndex := by
  rw [Config.registers, Config.givenCommandIndex]
  cases c.registerMap with
  | none => rfl
  | some node => exact pick_ofInt (by decide) node.commandIndex 0x2020

/-- **The e-stop is read as it has been configured, narrowed.** -/
theorem estopSpec_eq : c.estopSpec = c.givenEstop.map GivenBit.narrow := by
  rw [Config.estopSpec, Config.givenEstop, parseBitSpec, Option.map_map]
  congr 1
  funext node
  simp only [Function.comp, GivenBit.narrow, commandIndex_eq]
  rw [← pick_ofInt (by decide), ← pick_ofInt (by decide), ← pick_ofInt (by decide)]
  rfl

theorem parseAxis_eq (node : AxisNode) : parseAxis node = node.given.map GivenAxis.narrow := by
  simp only [AxisNode.given, parseAxis, Option.map_map]
  congr 1
  funext channel
  simp only [Function.comp, GivenAxis.narrow]
  rw [setWidth_eq_ofInt (by decide), ← pick_ofInt (by decide), ← pick_ofInt (by decide)]
  rfl

/-- **So are the axes.** -/
theorem axisSpecs_eq : c.axisSpecs = c.givenAxes.map GivenAxis.narrow := by
  have hall : (c.axes.getD []).filterMap parseAxis =
      ((c.axes.getD []).filterMap AxisNode.given).map GivenAxis.narrow := by
    rw [List.map_filterMap]
    exact congrArg (fun f => List.filterMap f _) (funext parseAxis_eq)
  rw [Config.axisSpecs, Config.givenAxes, hall]
  by_cases hempty : (c.axes.getD []).filterMap AxisNode.given = []
  · simp only [hempty, List.map_nil, List.isEmpty_nil, if_true]
    decide
  · have hne : ((c.axes.getD []).filterMap AxisNode.given).isEmpty = false := by
      rw [← Bool.not_eq_true, List.isEmpty_iff]
      exact hempty
    simp only [List.isEmpty_map, hne]
    rfl

end Narrow

end RosCanopen.Cia401
