import Taskfire.Lifecycle.Simulation
import Taskfire.Lifecycle.Whereabouts
import Taskfire.Safety.Tokens
import Taskfire.Safety.Outcome
import Taskfire.Safety.Completion
import Taskfire.Safety.Cancellation
import Taskfire.Safety.Pending
import Taskfire.Safety.DeadLetters
import Taskfire.Safety.Budget
import Taskfire.Safety.Records
import Taskfire.Safety.Locks
import Taskfire.Safety.Shutdown
import Taskfire.Library.Digraph
import Taskfire.Library.FiniteMap
import Taskfire.Library.Loop
import Taskfire.Model.Dag
import Taskfire.Dag.Kahn
import Taskfire.Dag.Validate
import Taskfire.Dag.Gate
import Taskfire.Safety.Requests
import Taskfire.Model.Dashboard
import Taskfire.Safety.Duplicates
import Taskfire.Safety.Claiming
import Taskfire.Library.Notes
import Taskfire.Snapshot.Note
import Taskfire.Snapshot.Grounds
import Taskfire.Safety.Timestamps
import Taskfire.Safety.Ancestors
import Taskfire.Safety.Events
import Taskfire.Library.SortedOrder
import Taskfire.Model.MemberOrder
import Taskfire.Drain.Lanes
import Taskfire.Drain.Promote
import Taskfire.Drain.Early
import Taskfire.Drain.Progress
import Taskfire.Drain.Fifo
import Taskfire.Drain.Sequence
import Taskfire.Library.Longest
import Taskfire.Model.Scaler
import Taskfire.Safety.Scaling
import Taskfire.Safety.Eviction
import Taskfire.Safety.Calls
import Taskfire.Safety.Counters
import Taskfire.Library.Calendar
import Taskfire.Model.Metrics
import Taskfire.Safety.Throughput
import Taskfire.Lifecycle.Copies
import Taskfire.Lifecycle.Handling
import Taskfire.Safety.Contents
import Taskfire.Safety.Attempts
import Taskfire.Library.Pages
import Taskfire.Model.Listing
import Taskfire.Safety.Listing
import Taskfire.Model.WebSocket
import Taskfire.Safety.Connection
import Taskfire.Safety.DoneList
import Taskfire.Library.Rounding
import Taskfire.Model.DeadLetters
import Taskfire.Safety.Chronology
import Taskfire.Model.JobLogs
import Taskfire.Snapshot.Marks
import Taskfire.Safety.Executions
import Taskfire.Safety.JobLogs
import Taskfire.Model.Broadcast
import Taskfire.Safety.Broadcast
import Taskfire.Safety.Delivery
import Taskfire.Safety.Reconnect
import Taskfire.Safety.Summary
import Taskfire.Safety.Reports
import Taskfire.Safety.Precedence
import Taskfire.Library.Potential
import Taskfire.Safety.Allowance
import Taskfire.Model.LiveUpdates
import Taskfire.Safety.Frames
import Taskfire.Safety.LiveUpdates
import Taskfire.Safety.Burials
import Taskfire.Safety.Exclusion
import Taskfire.Safety.Waiting
import Taskfire.Safety.Paging
import Taskfire.Model.Workers
import Taskfire.Safety.Occupancy
