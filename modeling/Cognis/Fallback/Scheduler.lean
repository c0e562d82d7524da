import Mathlib.Tactic.Common
import Cognis.Fallback.TaskQueue
import Cognis.Bpf.Dispatch

/-! The user-space fallback scheduler: it drains the queued ring into three lanes and
dispatches from them. Times are nanoseconds; the policy of a task is an input. -/
namespace Cognis.Fallback

inductive TaskLabel
  | interactive
  | compute
  | ioWait
  | realTime
  | unknown
deriving DecidableEq

/-- What the fallback reads of a message of the queued ring. -/
structure QueuedTask where
  pid : Int
  cpu : Int
  flags : Nat
  vtime : Nat
  enqCnt : Nat
deriving DecidableEq

structure DispatchedTask where
  pid : Int
  cpu : Int
  flags : Nat
  sliceNs : Nat
  vtime : Nat
  enqCnt : Nat
deriving DecidableEq

structure Task where
  qtask : QueuedTask
  deadline : Nat
  timestamp : Nat
  label : TaskLabel
  wakeBoosted : Bool
  wakeCreditNs : Nat
  latencySensitive : Bool
  isKernelWorker : Bool
  sliceNs : Nat
deriving DecidableEq

/-- What `derive_task_policy` returns, and the `vtime` it stores. -/
structure Policy where
  deadline : Nat
  sliceNs : Nat
  label : TaskLabel
  isKernelWorker : Bool
  latencySensitive : Bool
  wakeBoosted : Bool
  wakeCreditNs : Nat
  vtime : Nat

/-- A task that `dequeue_task` returns, with its policy and the time it is read. -/
structure Arrival where
  qtask : QueuedTask
  policy : Policy
  timestamp : Nat

/-- The time of a dispatch and whether the ring accepts the message. -/
structure Attempt where
  now : Nat
  accepted : Bool

inductive Lane
  | rt
  | boostedInteractive
  | interactive
deriving DecidableEq

def Task.lane (task : Task) : Lane :=
  match task.label with
  | .realTime => .rt
  | _ => if task.wakeBoosted then .boostedInteractive else .interactive

def queueDepth : Nat := 16384

def u64Max : Nat := 2 ^ 64 - 1

/-- The fields after `nrSchedCongested` are ghosts: every task read from the queued ring,
every message accepted by the dispatch ring, and how often `push_task` dropped a task. -/
structure Scheduler where
  lanes : Lane → TaskQueue Task
  nrScheduled : Nat
  nrSchedCongested : Nat
  dequeued : List QueuedTask
  dispatched : List DispatchedTask
  violations : Nat

namespace Scheduler

def init : Scheduler where
  lanes := fun _ => .withCapacity Task queueDepth (by decide)
  nrScheduled := 0
  nrSchedCongested := 0
  dequeued := []
  dispatched := []
  violations := 0

def setLane (s : Scheduler) (lane : Lane) (q : TaskQueue Task) : Scheduler :=
  { s with lanes := Function.update s.lanes lane q }

def hasDeferredTasks (s : Scheduler) : Bool :=
  (s.lanes .boostedInteractive).hasDeferred || (s.lanes .rt).hasDeferred ||
    (s.lanes .interactive).hasDeferred

def tasksEmpty (s : Scheduler) : Bool :=
  (s.lanes .boostedInteractive).isEmpty && (s.lanes .rt).isEmpty && (s.lanes .interactive).isEmpty

def tasksLen (s : Scheduler) : Nat :=
  (s.lanes .boostedInteractive).len + (s.lanes .rt).len + (s.lanes .interactive).len

def pushTask (s : Scheduler) (task : Task) : Scheduler :=
  match (s.lanes task.lane).pushBack task with
  | .ok (.primary, q) => s.setLane task.lane q
  | .ok (.deferred, q) =>
    { s.setLane task.lane q with nrSchedCongested := min (s.nrSchedCongested + 1) u64Max }
  | .error _ => { s with violations := s.violations + 1 }

def queueIsStarved (front : Option Task) (now thresholdNs : Nat) : Bool :=
  front.any fun task => decide (now - task.timestamp ≥ thresholdNs)

def shouldWakePreempt (wakeBoosted latencySensitive : Bool) (wakeCreditNs queuedNs : Nat) : Bool :=
  wakeBoosted && latencySensitive && decide (wakeCreditNs ≥ 1000000) &&
    decide (queuedNs ≤ 6000000)

def popLane (s : Scheduler) (lane : Lane) : Option (Task × Scheduler) :=
  (s.lanes lane).popFront.map fun popped => (popped.1, s.setLane lane popped.2)

def popHighestPriorityTask (s : Scheduler) (now : Nat) : Option (Task × Scheduler) :=
  match s.popLane .rt with
  | some popped => some popped
  | none =>
    let front := (s.lanes .boostedInteractive).front
    if front.any fun task => shouldWakePreempt task.wakeBoosted task.latencySensitive
        task.wakeCreditNs (now - task.timestamp) then
      s.popLane .boostedInteractive
    else if queueIsStarved front now 12000000 then s.popLane .boostedInteractive
    else match s.popLane .boostedInteractive with
      | some popped => some popped
      | none => s.popLane .interactive

end Scheduler

def wakeDeadlineCreditNs (task : Task) : Nat :=
  if task.wakeBoosted then min (max task.wakeCreditNs (task.sliceNs / 2)) 4000000 else 0

def Task.dispatched (percpuLocal : Bool) (task : Task) : DispatchedTask where
  pid := task.qtask.pid
  cpu := if percpuLocal || task.isKernelWorker then task.qtask.cpu else Bpf.rlCpuAny
  flags := task.qtask.flags
  sliceNs := task.sliceNs
  vtime := if task.label = .realTime then 0 else task.deadline - wakeDeadlineCreditNs task
  enqCnt := task.qtask.enqCnt

def Arrival.task (a : Arrival) : Task where
  qtask := { a.qtask with vtime := a.policy.vtime }
  deadline := a.policy.deadline
  timestamp := a.timestamp
  label := a.policy.label
  wakeBoosted := a.policy.wakeBoosted
  wakeCreditNs := a.policy.wakeCreditNs
  latencySensitive := a.policy.latencySensitive
  isKernelWorker := a.policy.isKernelWorker
  sliceNs := a.policy.sliceNs

/-- At least 16 tasks a call, and four for each CPU. -/
def drainBudget (nrOnlineCpus : Nat) : Nat := max (min (max nrOnlineCpus 1 * 4) u64Max) 16

namespace Scheduler

def receive (s : Scheduler) (a : Arrival) : Scheduler :=
  { s with dequeued := s.dequeued ++ [a.qtask] }.pushTask a.task

/-- The list ends where `dequeue_task` finds nothing more or fails. -/
def drainQueuedTasks : Nat → List Arrival → Scheduler → Scheduler
  | 0, _, s => s
  | _ + 1, [], s => s
  | budget + 1, a :: arrivals, s =>
    if s.hasDeferredTasks then s else drainQueuedTasks budget arrivals (s.receive a)

def submit (s : Scheduler) (message : DispatchedTask) : Scheduler :=
  { s with dispatched := s.dispatched ++ [message] }

/-- False when the ring had no slot and the task went back to its lane. -/
def dispatchTask (percpuLocal : Bool) (attempt : Attempt) (s : Scheduler) : Bool × Scheduler :=
  match s.popHighestPriorityTask attempt.now with
  | none => (true, s)
  | some (task, s) =>
    if attempt.accepted then (true, s.submit (task.dispatched percpuLocal))
    else (false, s.pushTask task)

def notifyComplete (s : Scheduler) (nrPending : Nat) : Scheduler :=
  { s with nrScheduled := nrPending }

end Scheduler

end Cognis.Fallback
