import CsiFirmware.Lib.Runs
import CsiFirmware.Lib.Threads
import CsiFirmware.Common.PoolSlots
import CsiFirmware.Common.MessageQueue
import CsiFirmware.Webserver.ResponseMatching
import CsiFirmware.Webserver.Stranding
import CsiFirmware.Lib.BigEndian
import CsiFirmware.Lib.Layout
import CsiFirmware.Protocol.Replies
import CsiFirmware.Task.Receive
import CsiFirmware.Task.RoundTrip
import CsiFirmware.Task.Association
import CsiFirmware.Task.SerialSync
import CsiFirmware.Task.PortIdentity
import CsiFirmware.Task.DeviceSync
import CsiFirmware.Task.Addressing
import CsiFirmware.Task.ListMessages
import CsiFirmware.Task.Control
import CsiFirmware.Task.Handshake
import CsiFirmware.Task.PollCycle
import CsiFirmware.Task.BlockTitles
import CsiFirmware.Task.Registers
import CsiFirmware.Task.MessageOrder
import CsiFirmware.Webserver.SingleViewer
import CsiFirmware.Webserver.DeviceKey
import CsiFirmware.Webserver.Operation
import CsiFirmware.Common.PoolShutdown
import CsiFirmware.Common.PoolJoin
import CsiFirmware.Common.ServiceQueue
import CsiFirmware.Webserver.Login
import CsiFirmware.Webserver.LiveData
import CsiFirmware.Task.PollResult
import CsiFirmware.Protocol.RequestCycle
import CsiFirmware.Task.LoadProtocol
import CsiFirmware.Webserver.TableRoundTrip
import CsiFirmware.Webserver.ChannelParsers
import CsiFirmware.Task.SilentLine
import CsiFirmware.Task.Drivers
import CsiFirmware.Webserver.LiveView
import CsiFirmware.Nlohmann.Dump
