import ProntoScript.Foundation.Transition
import ProntoScript.Foundation.Ledger
import ProntoScript.Foundation.LinkedList
import ProntoScript.Select.Event
import ProntoScript.Select.Heap
import ProntoScript.Select.Refinement
import ProntoScript.Engine.Value
import ProntoScript.Engine.Utf8
import ProntoScript.Engine.Number
import ProntoScript.Socket.SysCall
import ProntoScript.Socket.Process
import ProntoScript.Socket.Tcp
import ProntoScript.Socket.Udp
import ProntoScript.Select.Pass
import ProntoScript.Socket.Ownership
import ProntoScript.Socket.Effects
import ProntoScript.Socket.Connect
import ProntoScript.Socket.Methods
import ProntoScript.Socket.UdpMethods
import ProntoScript.Socket.UdpConstruct
import ProntoScript.System.World
import ProntoScript.System.Safety
import ProntoScript.System.Effect
import ProntoScript.System.Registration
import ProntoScript.System.Agreement
import ProntoScript.Foundation.Monitor
import ProntoScript.Socket.Stream
import ProntoScript.System.Conversation
import ProntoScript.System.EventOrder
import ProntoScript.Select.Clock
import ProntoScript.Select.Request
import ProntoScript.Select.Dispatch
import ProntoScript.Select.Callbacks
import ProntoScript.Engine.Encoding
import ProntoScript.Foundation.PrefixCode
import ProntoScript.Engine.CodePoints
import ProntoScript.Socket.Transfer
import ProntoScript.Socket.Datagrams
import ProntoScript.Foundation.Recording
import ProntoScript.JSUnit.Suite
import ProntoScript.JSUnit.Equality
import ProntoScript.Native.Unpack
import ProntoScript.Native.Receiver
import ProntoScript.Native.Slots
import ProntoScript.Native.Private
import ProntoScript.System.Engine
import ProntoScript.System.Include
import ProntoScript.System.Lock
import ProntoScript.System.Verdict
import ProntoScript.System.Exceptions
import ProntoScript.Foundation.Tracing
import ProntoScript.System.Handlers
import ProntoScript.System.Collector
import ProntoScript.System.TestRun
import ProntoScript.System.RunReport
import ProntoScript.Foundation.Snapshot
import ProntoScript.Select.Nesting
import ProntoScript.System.ListWorld
import ProntoScript.Select.Cleanup
import ProntoScript.Socket.ReadLoop
import ProntoScript.Shell.Args
import ProntoScript.System.IncludePath
import ProntoScript.Socket.Destination
import ProntoScript.Socket.Arguments
import ProntoScript.System.PeerAddress
import ProntoScript.System.UdpWatch
import ProntoScript.System.LastWord
import ProntoScript.Engine.Arena
import ProntoScript.Engine.Stack
import ProntoScript.Native.Invoke
import ProntoScript.Engine.Execute
import ProntoScript.Foundation.Malloc
import ProntoScript.Strings.Heap
import ProntoScript.Strings.Denote
import ProntoScript.Strings.Minimize
import ProntoScript.Strings.Collect
import ProntoScript.Strings.Store
import ProntoScript.Strings.Concat
import ProntoScript.Strings.Runs
import ProntoScript.Foundation.Marking
import ProntoScript.Collector.MarkHeap
import ProntoScript.Collector.Traversal
import ProntoScript.Collector.DeutschSchorrWaite
import ProntoScript.Collector.Marking
import ProntoScript.Foundation.Probing
import ProntoScript.Hashing.DHash
import ProntoScript.Hashing.Probe
import ProntoScript.Hashing.Search
import ProntoScript.Hashing.Table
import ProntoScript.Hashing.Change
import ProntoScript.Hashing.Operate
import ProntoScript.Hashing.Enumerate
import ProntoScript.Hashing.Runs
