import RosCanopen.Cia401.Remote
import RosCanopen.Cia402.Transfers

/-!
# The cycle of polling

`poll_timer_callback` runs on a timer, or on every SYNC message in event mode.  The base driver
and the proxy take messages from their queues in it; the drivers for CiA 401 and CiA 402 read
and write objects of the device behind that.

## Main definitions

* `Access` — a call of `universal_get_value` or `universal_set_value`.
* `ChannelTurn` — a channel's motor, as a cycle finds it.
* `NodeKind`, `NodeConfig` — the nodes.
* `NodeConfig.pollTimerCallback` — the accesses of a cycle, in order.
-/

namespace RosCanopen.Core

open Lib Bridge Cia401 Cia402

/-- A call of one of the universal functions. -/
inductive Access
  | get (object : ObjectId) (type : DefType)
  | set (object : ObjectId) (type : DefType) (value : Value)
  deriving DecidableEq

namespace Access

def object : Access → ObjectId
  | get object _ | set object _ _ => object

/-- The request that is made for an object in no PDO. -/
def request : Access → Request
  | get object _ => .readTyped object.1 object.2
  | set object _ value => .writeTyped object.1 object.2 value

/-- The access goes to the local dictionary or to the master, and makes no request. -/
def mapped (b : DriverNode) : Access → Bool
  | get object _ => b.pdoMap.isTpdo object.1 object.2
  | set object _ _ => b.pdoMap.isRpdo object.1 object.2

/-- A mapped access throws: the master has not mapped the object. -/
def throws (b : DriverNode) : Access → Bool
  | get _ _ => false
  | set object _ _ => !b.tpdoMapped object

end Access

/-! ## The accesses of a cycle -/

/-- A channel's motor when the cycle comes to it, and what `handleWrite` meets. -/
structure ChannelTurn where
  motor : Motor
  env : Cia402.Env

namespace ChannelTurn
variable (turn : ChannelTurn)

/-- `handleRead` -/
def handleRead : List Access :=
  [.get (turn.motor.channelIndex 0x6041, 0) .unsigned16,
    .get (turn.motor.channelIndex 0x6061, 0) .integer8]

/-- `handleWrite` -/
def handleWrite : List Access :=
  (turn.motor.attempts turn.env .write).reverse.filterMap fun e =>
    (turn.motor.objectWrite e).map fun w => .set w.object w.type w.value

/-- `get_position`, `get_speed` and `get_effort`, which are called by `publish`. -/
def publish (b : DriverNode) : List Access :=
  let effort : ObjectId := (turn.motor.channelIndex 0x6077, 0)
  [.get (turn.motor.channelIndex 0x6064, 0) .integer32,
    .get (turn.motor.channelIndex 0x606C, 0) .integer32] ++
    if b.hasObject effort then [.get effort .integer16] else []

end ChannelTurn

inductive NodeKind
  | base
  | proxy
  /-- With `remote_`, and with `estop_spec_` if it is configured. -/
  | cia401 (remote : Option M880Remote) (estop : Option BitSpec)
  | cia402 (numChannels : ℕ)

structure NodeConfig where
  driver : DriverNode
  /-- `polling_`; otherwise the node is in event mode. -/
  polling : Bool
  kind : NodeKind

/-- `NodeCanopen401Driver::publish`; the remote has the node's driver. -/
def publishRemote (b : DriverNode) (remote : Option M880Remote) (estop : Option BitSpec) :
    List Access :=
  match remote with
  | none => []
  | some r =>
      let r := { r with driver := some b }
      (r.readAxes ++ r.readButtons ++ estop.toList.flatMap r.readBit).map fun object =>
        .get object .unsigned8

namespace NodeConfig
variable (cfg : NodeConfig)

/-- The channels of the cycle are those of the node; a channel without a motor is `none`. -/
def accepts (turns : List (Option ChannelTurn)) : Bool :=
  match cfg.kind with
  | .cia402 numChannels => turns.length = numChannels
  | _ => turns.isEmpty

/-- `poll_timer_callback`, behind the queues. -/
def pollTimerCallback (turns : List (Option ChannelTurn)) : List Access :=
  match cfg.kind with
  | .base | .proxy => []
  | .cia401 remote estop => publishRemote cfg.driver remote estop
  | .cia402 _ =>
      let motors := turns.filterMap id
      motors.flatMap (fun turn => turn.handleRead ++ turn.handleWrite) ++
        motors.flatMap fun turn => turn.publish cfg.driver

end NodeConfig
end RosCanopen.Core
