import Overhauled.Wire.Bytes
import Overhauled.Wire.Reader
import Overhauled.Wire.Writer
import Overhauled.Wire.Utf8
import Overhauled.Wire.Host
import Overhauled.Wire.Words
import Overhauled.Wire.Float32
import Overhauled.Wire.Float64
import Overhauled.Wire.Stream
import Overhauled.Wire.PrefixFree
import Overhauled.Wire.Access
import Overhauled.Machine.Run
import Overhauled.Machine.Threads
import Overhauled.Machine.Scan
import Overhauled.Machine.Ends
import Overhauled.Machine.Locks
import Overhauled.Machine.Scope
import Overhauled.Gpu.Placer
import Overhauled.Gpu.Decision
import Overhauled.Npu.Bundle
import Overhauled.Npu.Executor
import Overhauled.Broker.Dispatch
import Overhauled.Broker.Brk1
import Overhauled.Broker.Utf8Check
import Overhauled.Broker.Brk2
import Overhauled.Broker.Brk2Grammar
import Overhauled.Broker.Brk2Fields
import Overhauled.Broker.Agreement
import Overhauled.Wasm.Wsm1
import Overhauled.Wasm.Manager
import Overhauled.Wasm.Outcome
import Overhauled.Wasm.Hotswap
import Overhauled.Wasm.Records
import Overhauled.Geo.Nxr1
import Overhauled.Geo.HostOrder
import Overhauled.Media.Med1
import Overhauled.Decoders.PrefixFree
import Overhauled.Decoders.Bounds
import Overhauled.Broker.Service
import Overhauled.Broker.Answers
import Overhauled.Broker.Offload
import Overhauled.Broker.Echo
import Overhauled.Broker.Lifecycle
import Overhauled.Broker.History
import Overhauled.Broker.Admission
import Overhauled.Broker.Balance
import Overhauled.Broker.Affinity
import Overhauled.Broker.Texts
import Overhauled.Broker.ReplyTexts
import Overhauled.Broker.Answerable
import Overhauled.Server.Session
import Overhauled.Server.Inflight
import Overhauled.Server.Correlation
import Overhauled.Server.Outbound
import Overhauled.Server.Listener
import Overhauled.Server.Framing
import Overhauled.Adi.Shutdown
import Overhauled.Adi.Runtime
import Overhauled.Adi.Inference
import Overhauled.Adi.Lanes
import Overhauled.Adi.Packets
import Overhauled.Adi.Sessions
import Overhauled.Adi.Projection
import Overhauled.Adi.Clients
import Overhauled.Server.Locking
import Overhauled.Npu.Drm
import Overhauled.Npu.Life
import Overhauled.Adi.Replies
import Overhauled.Adi.Drain
import Overhauled.Broker.Results
import Overhauled.Machine.Registry
import Overhauled.Wasm.Sandboxes
import Overhauled.Server.Exchange
