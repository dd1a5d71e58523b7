import ApiScope.Library.Transition
import ApiScope.Library.Ranking
import ApiScope.Library.Bytes
import ApiScope.Library.SequencedRing
import ApiScope.Trace.Protocol
import ApiScope.Ring.Machine
import ApiScope.Ring.Refinement
import ApiScope.Ring.Calls
import ApiScope.Ring.Delivery
import ApiScope.Ring.Accounting
import ApiScope.Ring.Ledger
import ApiScope.Ring.Progress
import ApiScope.Trace.Parser
import ApiScope.Trace.Transport
import ApiScope.Trace.Language
import ApiScope.Trace.RoundTrip
import ApiScope.Library.Logged
import ApiScope.Trace.Builder
import ApiScope.Library.Json
import ApiScope.Trace.Format
import ApiScope.Trace.Alphabet
import ApiScope.Trace.Jsonl
import ApiScope.Trace.Reads
import ApiScope.Trace.Text
import ApiScope.Library.Ostream
import ApiScope.Trace.Stream
import ApiScope.Trace.Record
import ApiScope.Trace.Clock
import ApiScope.Trace.Values
import ApiScope.Trace.JsonStream
import ApiScope.Trace.Logs
import ApiScope.TraceSession.Loops
import ApiScope.TraceSession.Wakeup
import ApiScope.TraceSession.Endings
import ApiScope.TraceSession.Drain
import ApiScope.TraceSession.Queue
import ApiScope.Cli.Meaning
import ApiScope.Hook.Discovery
import ApiScope.Hook.Descriptors
import ApiScope.Hook.Handlers
import ApiScope.Cli.Selection
import ApiScope.Cli.Main
import ApiScope.Hook.Execution
import ApiScope.Library.Forward
import ApiScope.Hook.PatchSize
import ApiScope.Hook.Transaction
import ApiScope.TraceSession.Output
import ApiScope.TraceSession.EndToEnd
import ApiScope.TraceSession.DropReports
import ApiScope.TraceSession.Shutdown
import ApiScope.Session.Pending
import ApiScope.Session.Strays
import ApiScope.Session.Spans
import ApiScope.Library.Pursuit
import ApiScope.Session.Forwarders
import ApiScope.Session.Naming
import ApiScope.Session.Threads
import ApiScope.Session.Dangling
import ApiScope.Session.Custody
import ApiScope.Session.HookCalls
import ApiScope.Session.Quiescence
import ApiScope.Session.Rollbacks
import ApiScope.Session.EventLoop
import ApiScope.Session.Control
import ApiScope.Session.ControlRefinement
import ApiScope.Session.ControlSimulation
import ApiScope.Session.HookImage
import ApiScope.Process.PortableExecutable
import ApiScope.Process.MemoryUtils
import ApiScope.Process.Mapper
import ApiScope.Process.Bounds
import ApiScope.Library.Patching
import ApiScope.Process.Exits
import ApiScope.Process.Layout
import ApiScope.Process.Injection
import ApiScope.Process.Exports
import ApiScope.Process.Walk
