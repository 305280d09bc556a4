import Excimer.Lib.Transition
import Excimer.Lib.Fairness
import Excimer.Lib.Sections
import Excimer.Lib.Lists
import Excimer.Lib.Bytes
import Excimer.Lib.OrderedMap
import Excimer.Lib.Tally
import Excimer.Lib.ParentChain
import Excimer.Lib.CircularList
import Excimer.Lib.References
import Excimer.Lib.CountedHeap
import Excimer.Lib.Ledger
import Excimer.Lib.Floating
import Excimer.Timer.PendingList
import Excimer.Timer.System
import Excimer.Timer.Invariant
import Excimer.Timer.Delivery
import Excimer.Timer.ThreadLocal
import Excimer.Timer.Flow
import Excimer.Timer.Stop
import Excimer.Timer.Interrupt
import Excimer.Timer.Overrun
import Excimer.Timer.Linkage
import Excimer.Timer.Statements
import Excimer.Timer.Atomicity
import Excimer.Timer.Layer
import Excimer.Timer.Posix
import Excimer.Timer.Shutdown
import Excimer.Timer.Termination
import Excimer.Timer.Liveness
import Excimer.Timer.Startup
import Excimer.Timer.Timespec
import Excimer.Timer.Arithmetic
import Excimer.Timer.Seconds
import Excimer.Timer.Kqueue
import Excimer.Timer.Remaining
import Excimer.Timer.Descriptors
import Excimer.Timer.KqueueThreads
import Excimer.Timer.KqueueStop
import Excimer.Timer.KqueueService
import Excimer.Log.Basic
import Excimer.Log.Table
import Excimer.Log.Paths
import Excimer.Log.Depth
import Excimer.Log.Attribution
import Excimer.Log.Export
import Excimer.Log.Collapsed
import Excimer.Log.Decode
import Excimer.Log.Speedscope
import Excimer.Log.Aggregation
import Excimer.Log.Cursor
import Excimer.Log.References
import Excimer.Log.Temporaries
import Excimer.Profiler.Basic
import Excimer.Profiler.Rotation
import Excimer.Profiler.Period
import Excimer.Profiler.Stagger
import Excimer.Profiler.Lifetime
import Excimer.Profiler.Sampling
import Excimer.Profiler.Timestamps
import Excimer.Object.Basic
import Excimer.Object.Lifecycle
import Excimer.Object.Configuration
import Excimer.Object.Timeout
import Excimer.Object.Mode
import Excimer.Object.References
import Excimer.Object.Request
import Excimer.Object.Store
import Excimer.Object.Custody
import Excimer.Object.Safety
import Excimer.Object.Garbage
