import RosCanopen.Lib.System
import RosCanopen.Cia402.Agreement
import RosCanopen.Bridge.Progress
import RosCanopen.Cia408.SetPoint
import RosCanopen.Cia408.Deactivate
import RosCanopen.Cia402.StartUp
import RosCanopen.Cia402.Halt
import RosCanopen.Cia402.Motion
import RosCanopen.Cia402.Target
import RosCanopen.Cia402.TargetHelper
import RosCanopen.Cia402.ChannelNames
import RosCanopen.Cia410.Inclinometer
import RosCanopen.Cia402.FaultReset
import RosCanopen.Cia402.OperationMode
import RosCanopen.Cia402.Homing
import RosCanopen.Cia402.MockHoming
import RosCanopen.Cia402.Handshake
import RosCanopen.Cia402.Channels
import RosCanopen.Ros2Control.Proxy
import RosCanopen.Bridge.Boot
import RosCanopen.Core.Nodes
import RosCanopen.Core.Roles
import RosCanopen.Core.DriverFlags
import RosCanopen.Core.NodeIds
import RosCanopen.Bridge.Master
import RosCanopen.Ros2Control.Tpdo
import RosCanopen.Ros2Control.NmtServices
import RosCanopen.Ros2Control.TriggerServices
import RosCanopen.Ros2Control.OwnMotors
import RosCanopen.Ros2Control.Refinement
import RosCanopen.Ros2Control.ModeSwitch
import RosCanopen.Ros2Control.Teardown
import RosCanopen.Core.Driver
import RosCanopen.Core.Registry
import RosCanopen.Core.Master
import RosCanopen.Ros2Control.Targets
import RosCanopen.Bridge.Routing
import RosCanopen.Bridge.Cache
import RosCanopen.Bridge.Codec
import RosCanopen.Cia402.ControlWord
import RosCanopen.Core.ServiceNames
import RosCanopen.Core.Removal
import RosCanopen.Lib.Batches
import RosCanopen.Core.Polling
import RosCanopen.Ros2Control.Emergency
import RosCanopen.Ros2Control.Conversion
import RosCanopen.Core.NmtHandover
import RosCanopen.Bridge.Waiting
import RosCanopen.Cia401.Remote
import RosCanopen.Cia401.Outputs
import RosCanopen.Cia401.Publish
import RosCanopen.Cia402.Transfers
import RosCanopen.Cia402.StatusRead
import RosCanopen.Core.EventLoop
import RosCanopen.Cia402.Diagnostics
import RosCanopen.Ros2Control.TargetScaling
import RosCanopen.Ros2Control.ControllerServices
import RosCanopen.Lib.StopAndWait
import RosCanopen.Cia402.Enabling
import RosCanopen.Lib.Kinematics
import RosCanopen.Cia402.MotionGenerator
import RosCanopen.Cia402.ModeThreads
import RosCanopen.Lib.March
import RosCanopen.Cia402.MockPositions
import RosCanopen.Lib.Fairness
import RosCanopen.Cia402.EnablingEnds
import RosCanopen.Core.BusFile
import RosCanopen.Lib.Sampling
import RosCanopen.Core.Turns
import RosCanopen.Ros2Control.TopicsRelay
