import RakNet.Connection.AckEffect
import RakNet.Connection.AckFlow
import RakNet.Connection.Allocation
import RakNet.Connection.Announce
import RakNet.Connection.Basic
import RakNet.Connection.Closes
import RakNet.Connection.Closing
import RakNet.Connection.Ending
import RakNet.Connection.Failures
import RakNet.Connection.Fits
import RakNet.Connection.Flushed
import RakNet.Connection.FrameLoop
import RakNet.Connection.Frames
import RakNet.Connection.Held
import RakNet.Connection.Kept
import RakNet.Connection.Levels
import RakNet.Connection.Lifecycle
import RakNet.Connection.Login
import RakNet.Connection.LoginQueue
import RakNet.Connection.Messages
import RakNet.Connection.OrderIndices
import RakNet.Connection.Ordering
import RakNet.Connection.Panics
import RakNet.Connection.Receive
import RakNet.Connection.Retransmissions
import RakNet.Connection.Run
import RakNet.Connection.Send
import RakNet.Connection.Session
import RakNet.Connection.Tick
import RakNet.Connection.Tracking
import RakNet.Error
import RakNet.Handshake.Agreement
import RakNet.Handshake.Client
import RakNet.Handshake.Listener
import RakNet.Handshake.Peers
import RakNet.Handshake.StreamMtu
import RakNet.Handshake.Table
import RakNet.Lib.Action
import RakNet.Lib.Intervals
import RakNet.Lib.Machine
import RakNet.Lib.NatMap
import RakNet.Lib.Serial
import RakNet.Lib.Wire
import RakNet.Protocol.Arithmetic
import RakNet.Protocol.Codec
import RakNet.Protocol.Decoders
import RakNet.Protocol.Frame
import RakNet.Protocol.Handshake
import RakNet.Protocol.Inverse
import RakNet.Protocol.Packet
import RakNet.Protocol.RoundTrip
import RakNet.Protocol.UInt24
import RakNet.Reliability.Accounting
import RakNet.Reliability.Ack
import RakNet.Reliability.AckGrammar
import RakNet.Reliability.Acknowledging
import RakNet.Reliability.Classify
import RakNet.Reliability.Expired
import RakNet.Reliability.Fragment
import RakNet.Reliability.Levels
import RakNet.Reliability.Missing
import RakNet.Reliability.Newest
import RakNet.Reliability.Ordered
import RakNet.Reliability.Reassembling
import RakNet.Reliability.RecvWindow
import RakNet.Reliability.SendQueue
import RakNet.Reliability.Skips
import RakNet.Reliability.Statistics
import RakNet.Reliability.Volume
import RakNet.State.Connection
import RakNet.State.Metrics
import RakNet.State.Rtt
import RakNet.State.Shared
import RakNet.Stream.Accesses
import RakNet.Stream.Basic
import RakNet.Stream.Fits
import RakNet.Stream.Genuine
import RakNet.Stream.Handle
import RakNet.Stream.Pings
import RakNet.Stream.Progress
import RakNet.Stream.Resending
import RakNet.Stream.Resources
import RakNet.Stream.Timeout
import RakNet.Stream.Traffic
import RakNet.Stream.WindDown
import RakNet.System.AnyOrder
import RakNet.System.EndToEnd
import RakNet.System.FastAck
import RakNet.System.InStep
import RakNet.System.Interleaved
import RakNet.System.Net
import RakNet.System.NoFalseAck
import RakNet.System.OutOfStep
import RakNet.System.Overtaking
import RakNet.System.Reassembly
import RakNet.System.Span
