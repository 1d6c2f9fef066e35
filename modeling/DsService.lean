import DsService.Lib.Machine
import DsService.Lib.History
import DsService.Lib.Locking
import DsService.Lib.Locality
import DsService.Lib.Register
import DsService.Lib.Log
import DsService.Lib.PriorityQueue
import DsService.Lib.Column
import DsService.Lib.Worklist
import DsService.Lib.LastSeq
import DsService.Lib.Windows
import DsService.Lib.Calendar
import DsService.Lib.Wire
import DsService.Lib.Rounding
import DsService.Core.Messages
import DsService.Core.Stores
import DsService.Core.Datetime
import DsService.Core.TaskManager
import DsService.Core.SystemState
import DsService.Task.Rows
import DsService.Task.Graph
import DsService.Task.Change
import DsService.Task.Invariant
import DsService.Task.Queues
import DsService.Task.Walk
import DsService.Task.Refines
import DsService.Task.Register
import DsService.Task.Release
import DsService.Task.Dispatch
import DsService.Task.Simulation
import DsService.Task.History
import DsService.Task.Gate
import DsService.Task.Table
import DsService.Task.LifeCycle
import DsService.Task.Outcome
import DsService.Task.Refusal
import DsService.Task.Claim
import DsService.Task.Determined
import DsService.Task.Origin
import DsService.Task.Schedule
import DsService.Task.Entries
import DsService.Task.Comparator
import DsService.Task.Reach
import DsService.Task.Pending
import DsService.Task.Commute
import DsService.Task.Race
import DsService.Task.Restrict
import DsService.Store.Calls
import DsService.Store.Ownership
import DsService.Store.Journal
import DsService.Store.TimeSeries
import DsService.Store.Spelling
import DsService.Store.Datetime
import DsService.Store.RoundTrip
import DsService.Store.NormalForm
import DsService.System.Refusal
import DsService.System.Keys
import DsService.System.Errors
import DsService.System.Concurrent
import DsService.System.Counters
import DsService.System.Registers
import DsService.System.Separate
import DsService.System.Sections
import DsService.System.Journals
import DsService.System.Codes
import DsService.Grpc.Proto
import DsService.Grpc.Codec
import DsService.Grpc.Size
import DsService.Grpc.Server
import DsService.Grpc.Transport
import DsService.Grpc.Calls
import DsService.Grpc.Close
import DsService.Grpc.Invoke
import DsService.Client.Methods
import DsService.Client.Transparent
import DsService.Client.HandBack
import DsService.Client.MutexAcquire
import DsService.Client.Deadline
import DsService.Client.AcquireBound
import DsService.Client.Workers
import DsService.Client.Python
import DsService.Client.Documented
import DsService.Server.Main
import DsService.Server.Moves
import DsService.Server.Lifecycle
import DsService.Server.Progress
