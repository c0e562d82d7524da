import Cognis.Lib.StateLogic
import Cognis.Lib.Selection
import Cognis.Lib.Runs
import Cognis.Lib.Numbering
import Cognis.Lib.Probing
import Cognis.Lib.Shortlist
import Cognis.Lib.Machines
import Cognis.Lib.WrapTime
import Cognis.Lib.Saturating
import Cognis.Lib.ClockShift
import Cognis.Lib.Settling
import Cognis.Lib.RecentWindow
import Cognis.Lib.Custody
import Cognis.Lib.Wire
import Cognis.Lib.RateLimit
import Cognis.Lib.Overtaking
import Cognis.Lib.Rounding
import Cognis.Bpf.Layout
import Cognis.Bpf.Kernel
import Cognis.Bpf.Moves
import Cognis.Bpf.Placement
import Cognis.Bpf.Reads
import Cognis.Bpf.Steal
import Cognis.Bpf.Dispatch
import Cognis.Bpf.Tiers
import Cognis.Bpf.DispatchSteps
import Cognis.Bpf.Fetching
import Cognis.Bpf.RingDrain
import Cognis.Bpf.StaleMessages
import Cognis.Bpf.Arrivals
import Cognis.Bpf.Enqueue
import Cognis.Bpf.EnqueueSteps
import Cognis.Bpf.Service
import Cognis.Bpf.Init
import Cognis.Bpf.Heartbeat
import Cognis.Bpf.Startup
import Cognis.Bpf.QueueCreation
import Cognis.Bpf.System
import Cognis.Bpf.QueueNames
import Cognis.Bpf.ProgressGuard
import Cognis.Bpf.RoutingStats
import Cognis.Bpf.Affinity
import Cognis.Bpf.Charging
import Cognis.Bpf.VirtualService
import Cognis.Bpf.WorkConservation
import Cognis.Bpf.EarliestFirst
import Cognis.Bpf.SpillBounds
import Cognis.Bpf.ServerMode
import Cognis.Bpf.WakeupCredit
import Cognis.Bpf.StealScans
import Cognis.Bpf.ClockShift
import Cognis.Bpf.HeadOrder
import Cognis.Bpf.StickyTasks
import Cognis.Bpf.Discipline
import Cognis.Bpf.Custody
import Cognis.Bpf.RunningCount
import Cognis.Bpf.QueueOrder
import Cognis.Bpf.QueueClasses
import Cognis.Bpf.Draining
import Cognis.Bpf.Overtaking
import Cognis.Bpf.BoundedWait
import Cognis.Bpf.Alarms
import Cognis.Loader.Topology
import Cognis.Loader.Agreement
import Cognis.Loader.Compaction
import Cognis.Loader.Profile
import Cognis.Bpf.SliceCeiling
import Cognis.Fallback.TaskQueue
import Cognis.Fallback.BoundedFifo
import Cognis.Fallback.Scheduler
import Cognis.Fallback.Lanes
import Cognis.Fallback.Schedule
import Cognis.Fallback.Conservation
import Cognis.Fallback.DispatchOrder
import Cognis.Fallback.FailedDispatch
import Cognis.Fallback.SliceController
import Cognis.Fallback.Policy
import Cognis.Fallback.LatencyCredit
import Cognis.Fallback.LatencyRing
import Cognis.Fallback.Messages
import Cognis.Fallback.Rings
import Cognis.Loader.SliceOverflow
import Cognis.Loader.OpsName
import Cognis.Control.Main
import Cognis.Control.RunLoop
import Cognis.Control.Housekeeping
import Cognis.Control.Delivery
import Cognis.Control.Whole
import Cognis.Control.Dormancy
import Cognis.Control.Shutdown
import Cognis.Control.Restarts
import Cognis.Control.Metrics
import Cognis.Reputation.PidTable
import Cognis.Reputation.Lifetimes
import Cognis.Reputation.Trust
import Cognis.Reputation.TrustMap
import Cognis.Reputation.Exits
import Cognis.Reputation.Departures
import Cognis.Reputation.WorstActors
import Cognis.Reputation.Standing
