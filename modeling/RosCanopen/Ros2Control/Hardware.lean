import Mathlib.Data.Fintype.Pi
import Mathlib.Data.List.Sort
import RosCanopen.Lib.Sweep
import RosCanopen.Ros2Control.Proxy

/-!
# The hardware behind the proxy interfaces

`CanopenSystem` keeps the data of its nodes in `canopen_data_`, which the callbacks of the
drivers fill, controllers read and write through interfaces, and `write` sends.
`Cia402System` inherits the interfaces and writes its own `initDeviceContainer`, `read` and
`write`, meant to do the same for them.

## Main definitions

* `HardwareNode`, `Hardware` — an entry of `canopen_data_`, and the whole of it.
* `CanopenSystem.step`, `Cia402System.step` — callbacks, interfaces and cycles in the two classes.
-/

namespace RosCanopen.Ros2Control

open Lib Cia402
open Bridge (COData)

structure COEmcy where
  eec : BitVec 16
  er : BitVec 8
  msef : Fin 5 → BitVec 8
  deriving DecidableEq

/-- `Ros2ControlEmcyData`, with its five manufacturer error codes by their index. -/
structure Ros2ControlEmcyData where
  errorCode : Double := .fin 0
  errorRegister : Double := .fin 0
  manufacturerErrorCode : Fin 5 → Double := fun _ => .fin 0
  deriving DecidableEq

/-- Two bytes from each place of `msef`; `past` is the byte behind the structure. -/
def Ros2ControlEmcyData.setEmcy (e : COEmcy) (past : BitVec 8) : Ros2ControlEmcyData where
  errorCode := ofUnsigned e.eec
  errorRegister := ofUnsigned e.er
  manufacturerErrorCode i :=
    ofUnsigned ((if h : i.val + 1 < 5 then e.msef ⟨i.val + 1, h⟩ else past) ++ e.msef i)

/-- An entry of `canopen_data_`, with the members that the paths of PDOs do not use. -/
structure HardwareNode extends CanopenNodeData where
  /-- `nmt_state.state` -/
  state : Double
  emcyData : Ros2ControlEmcyData

/-- The data of a joint as they are constructed. -/
def HardwareNode.fresh : HardwareNode where
  nmtState := {}
  rpdoData := { originalData := ⟨0, 0, 0⟩, index := .fin 0, subindex := .fin 0, data := .fin 0 }
  tpdoData := { originalData := ⟨0, 0, 0⟩, index := .fin 0, subindex := .fin 0, data := .fin 0 }
  rpdoDataMap := fun _ => none
  rpdoRawDataMap := fun _ => none
  state := .fin 0
  emcyData := {}

/-- The command interfaces of a joint. -/
inductive CommandInterface
  | tpdoIndex
  | tpdoSubindex
  | tpdoData
  | tpdoOns
  | nmtReset
  | nmtResetFbk
  | nmtStart
  | nmtStartFbk
  deriving DecidableEq

namespace HardwareNode

def setCommand (n : HardwareNode) (x : Double) : CommandInterface → HardwareNode
  | .tpdoIndex => { n with tpdoData := { n.tpdoData with index := x } }
  | .tpdoSubindex => { n with tpdoData := { n.tpdoData with subindex := x } }
  | .tpdoData => { n with tpdoData := { n.tpdoData with data := x } }
  | .tpdoOns => { n with tpdoData := { n.tpdoData with oneShot := x } }
  | .nmtReset => { n with nmtState := { n.nmtState with resetOns := x } }
  | .nmtResetFbk => { n with nmtState := { n.nmtState with resetFbk := x } }
  | .nmtStart => { n with nmtState := { n.nmtState with startOns := x } }
  | .nmtStartFbk => { n with nmtState := { n.nmtState with startFbk := x } }

end HardwareNode

namespace CanopenNodeData

/-- No command pends. -/
def quiet (s : CanopenNodeData) : Bool :=
  isNan s.nmtState.resetOns && isNan s.nmtState.startOns && isNan s.tpdoData.oneShot

/-- `Cia402System::write` for the node, and whether the loop goes on: nothing is caught. -/
def writeCia402 (s : CanopenNodeData) (env : WriteEnv) (throws : Bool) :
    Option (CanopenNodeData × Bool × List ProxyEvent) :=
  -- without a driver, what a pending command dereferences is a null pointer
  if env.registered || s.quiet then
    let (s, goes, es) := s.command s.nmtState.resetCommand env.reset (fun _ nmt => nmt) .reset
    if goes then
      let (s, goes, es') := s.command s.nmtState.startCommand env.start (fun _ nmt => nmt) .start
      if goes then
        let pending := s.tpdoData.writeCommand.1
        let (s, es'') := s.writeTpdo env
        some (s, !(pending && throws), es'' ++ es' ++ es)
      else some (s, false, es' ++ es)
    else some (s, false, es)
  else none

end CanopenNodeData

/-- The joints that have a node id, and the ids of the registered drivers. -/
structure HardwareInfo where
  joints : List (BitVec 8)
  drivers : List (BitVec 16)

namespace HardwareInfo

def registered (info : HardwareInfo) (id : ℕ) : Bool := info.drivers.any fun d => d.toNat = id

/-- Every joint has a driver. -/
def complete (info : HardwareInfo) : Bool := info.joints.all fun id => info.registered id.toNat

end HardwareInfo

/-- `canopen_data_`: the keys that have an entry, in their order, and the entries. -/
structure Hardware where
  keys : List ℕ
  canopenData : ℕ → HardwareNode

namespace Hardware

/-- `operator[]` makes an entry where there is none. -/
def insertKey (k : ℕ) (keys : List ℕ) : List ℕ :=
  if k ∈ keys then keys else keys.orderedInsert (· ≤ ·) k

def insertKeys (ks keys : List ℕ) : List ℕ := ks.foldr insertKey keys

/-- `canopen_data_[id]` is changed. -/
def modify (s : Hardware) (id : BitVec 8) (f : HardwareNode → HardwareNode) : Hardware where
  keys := insertKey id.toNat s.keys
  canopenData := Function.update s.canopenData id.toNat (f (s.canopenData id.toNat))

/-- The entries for the joints, which the export of the interfaces makes. -/
def exported (info : HardwareInfo) : Hardware where
  keys := insertKeys (info.joints.map BitVec.toNat) []
  canopenData := fun _ => .fresh

end Hardware

inductive HardwareInput
  | nmtState (id : BitVec 8) (state : BitVec 8)
  /-- An RPDO, with the number that is no `bool`. -/
  | rpdo (id : BitVec 8) (d : COData) (raw : Double)
  | emcy (id : BitVec 8) (e : COEmcy) (past : BitVec 8)
  /-- A controller writes a command interface of a joint. -/
  | set (id : BitVec 8) (interface : CommandInterface) (x : Double)
  | read
  /-- The results of the NMT commands, and the nodes for which `tpdo_transmit` throws a
  `std::exception`. -/
  | write (env : ℕ → WriteEnv) (throws : ℕ → Bool)

/-- What is called for a node. -/
abbrev HardwareEvent := ℕ × ProxyEvent

namespace CanopenSystem

/-- `CanopenSystem::write` for an entry. -/
def writeNode (info : HardwareInfo) (env : ℕ → WriteEnv) (id : ℕ) (n : HardwareNode) :
    Option (HardwareNode × Bool × List HardwareEvent) :=
  let (d, es) := n.toCanopenNodeData.write { env id with registered := info.registered id }
  some ({ n with toCanopenNodeData := d }, es.all (· ≠ .threw), es.map (Prod.mk id))

def step (info : HardwareInfo) (s : Hardware) :
    HardwareInput → Option (Hardware × List HardwareEvent)
  | .nmtState id state => some (s.modify id fun n => { n with state := ofUnsigned state }, [])
  | .rpdo id d raw =>
      some (s.modify id fun n =>
        { n with toCanopenNodeData := n.toCanopenNodeData.setRpdoData d raw }, [])
  | .emcy id e past => some (s.modify id fun n => { n with emcyData := .setEmcy e past }, [])
  | .set id interface x =>
      if info.joints.contains id then some (s.modify id fun n => n.setCommand x interface, [])
      else none
  | .read => some (s, [])
  | .write env _ =>
      (sweep (writeNode info env) s.keys s.canopenData).map fun p =>
        ({ s with canopenData := p.1 }, p.2.2)

/-- `CanopenSystem::initDeviceContainer` makes entries for the drivers. -/
def initDeviceContainer (info : HardwareInfo) (s : Hardware) : Hardware :=
  { s with keys := Hardware.insertKeys (info.drivers.map BitVec.toNat) s.keys }

def system (info : HardwareInfo) : System Hardware HardwareInput HardwareEvent where
  init s := s = initDeviceContainer info (Hardware.exported info)
  step := step info

end CanopenSystem

namespace Cia402System

/-- `Cia402System::write` for an entry. -/
def writeNode (info : HardwareInfo) (env : ℕ → WriteEnv) (throws : ℕ → Bool) (id : ℕ)
    (n : HardwareNode) : Option (HardwareNode × Bool × List HardwareEvent) :=
  (n.toCanopenNodeData.writeCia402 { env id with registered := info.registered id } (throws id)).map
    fun (d, goes, es) => ({ n with toCanopenNodeData := d }, goes, es.map (Prod.mk id))

/-- One step; `none` is the state after a null pointer was dereferenced. -/
def stepAlive (info : HardwareInfo) (s : Hardware) :
    HardwareInput → Option (Option Hardware × List HardwareEvent)
  | .nmtState id state => some (s.modify id fun n => { n with state := ofUnsigned state }, [])
  | .rpdo id d _ =>
      some (s.modify id fun n => { n with rpdoData := n.rpdoData.setData d }, [])
  -- no callback is registered for it
  | .emcy _ _ _ => some (s, [])
  | .set id interface x =>
      if info.joints.contains id then some (s.modify id fun n => n.setCommand x interface, [])
      else none
  -- the position, speed and effort of each joint's motor
  | .read => some (if info.complete then s else none, [])
  | .write env throws =>
      match sweep (writeNode info env throws) s.keys s.canopenData with
      | none => some (none, [])
      | some (canopenData, goes, es) =>
          -- the commands, the mode and the target of each joint's motor
          some (if goes && !info.complete then none else some { s with canopenData }, es)

def step (info : HardwareInfo) (s : Option Hardware) (i : HardwareInput) :
    Option (Option Hardware × List HardwareEvent) :=
  match s with
  | none => some (none, [])
  | some s => stepAlive info s i

/-- `Cia402System::initDeviceContainer` makes no entries. -/
def system (info : HardwareInfo) : System (Option Hardware) HardwareInput HardwareEvent where
  init s := s = some (Hardware.exported info)
  step := step info

end Cia402System

end RosCanopen.Ros2Control
