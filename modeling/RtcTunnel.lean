import RtcTunnel.Base.Poll
import RtcTunnel.Base.Run
import RtcTunnel.Core.Net
import RtcTunnel.Core.Sdp
import RtcTunnel.Base.Outcome
import RtcTunnel.Direct.Layers
import RtcTunnel.Direct.Tunnel
import RtcTunnel.Direct.Build
import RtcTunnel.Direct.Lifecycle
import RtcTunnel.Direct.Script
import RtcTunnel.Direct.Pump
import RtcTunnel.Direct.Answers
import RtcTunnel.Direct.Closing
import RtcTunnel.Direct.Opening
import RtcTunnel.Direct.Channel
import RtcTunnel.Abi.Create
import RtcTunnel.Abi.Reliability
import RtcTunnel.Direct.Fingerprint
import RtcTunnel.Umbrella.PeerConnection
import RtcTunnel.Umbrella.Tunnel
import RtcTunnel.Umbrella.Failure
import RtcTunnel.Driver.Engine
import RtcTunnel.Driver.Machine
import RtcTunnel.Driver.Frame
import RtcTunnel.Driver.Silence
import RtcTunnel.Driver.Script
import RtcTunnel.Driver.Order
import RtcTunnel.Base.Mailbox
import RtcTunnel.Direct.Accumulate
import RtcTunnel.Direct.Batch
import RtcTunnel.Direct.Roles
import RtcTunnel.Direct.Phases
import RtcTunnel.Direct.Buffered
import RtcTunnel.Direct.Delivery
import RtcTunnel.Direct.Flushing
import RtcTunnel.Driver.Action
import RtcTunnel.Driver.Events
import RtcTunnel.Driver.Deadline
import RtcTunnel.Driver.Settlement
import RtcTunnel.Driver.Handshake
import RtcTunnel.Driver.Connect
import RtcTunnel.Browser.Connection
import RtcTunnel.Browser.Lifecycle
import RtcTunnel.Core.Lines
import RtcTunnel.Direct.Budget
import RtcTunnel.Direct.NextDeadline
import RtcTunnel.Direct.Transparency
import RtcTunnel.Core.Digits
import RtcTunnel.Direct.Candidates
import RtcTunnel.Core.Address
import RtcTunnel.Direct.Description
import RtcTunnel.Abi.Crossing
import RtcTunnel.Direct.Addressing
import RtcTunnel.Driver.Accounting
import RtcTunnel.Driver.Deferral
import RtcTunnel.Direct.Families
import RtcTunnel.Umbrella.Stream
import RtcTunnel.Base.Heap
import RtcTunnel.Direct.Trace
import RtcTunnel.Abi.Scratch
import RtcTunnel.Abi.Relay
import RtcTunnel.Core.Double
import RtcTunnel.Core.View
import RtcTunnel.Direct.Queue
import RtcTunnel.Driver.History
import RtcTunnel.Driver.EngineOrder
import RtcTunnel.Driver.Packets
import RtcTunnel.Stack.Backend
import RtcTunnel.Stack.Built
import RtcTunnel.Stack.EndToEnd
import RtcTunnel.Stack.Waking
import RtcTunnel.Base.Regions
import RtcTunnel.Direct.Exchange
import RtcTunnel.Driver.BatchSize
import RtcTunnel.Stack.BatchSize
import RtcTunnel.Wasm.Calls
import RtcTunnel.Wasm.Connections
import RtcTunnel.Wasm.Creation
import RtcTunnel.Wasm.Module
import RtcTunnel.Wasm.Provider
import RtcTunnel.Driver.Node
import RtcTunnel.Browser.Description
