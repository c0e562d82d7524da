import Cognis.Bpf.Fetching
import Cognis.Bpf.QueueNames

/-! The callbacks in the order in which the kernel calls them for each task. A task that
wakes up is enqueued once, a queued task is dequeued before it is enqueued again, and a
CPU runs what it takes from its local queue. The ring of user-space dispatches stays empty. -/
namespace Cognis.Bpf
open StateLogic Runs

/-- Where the kernel has a task: `ready` tasks are runnable but not yet in a queue. -/
inductive Stage
  | absent
  | away
  | ready
  | waiting
  | onCpu (cpu : Nat)
deriving DecidableEq

structure Machine where
  kernel : Kernel
  stage : Nat → Stage
  curr : Nat → Option Nat

def Machine.start (k : Kernel) : Machine := ⟨k, fun _ => .absent, fun _ => none⟩

inductive Event
  | join (p : Nat) (created : Bool)
  | enable (p : Nat) (env : Env)
  | leave (p : Nat)
  | select (p : Nat) (prevCpu : Int) (wakeFlags : U64) (env : Env)
  | wake (p : Nat)
  | runnable (p : Nat) (env : Env)
  | enqueue (p : Nat) (enqFlags : U64) (env : Env)
  | place (p cpu : Nat)
  | dispatch (cpu : Int) (prev : Option Nat) (env : Env)
  | pick (cpu p : Nat) (env : Env)
  | stop (cpu p : Nat) (sleeps : Bool) (env : Env)
  | putBack (cpu p : Nat) (env : Env)
  | withdraw (q p : Nat) (sleeps : Bool)
  | timer (env : Env)
  | world (task : Nat → TaskStruct) (slots : Nat) (nrScheduled : U64)

/-- `ops.select_cpu` inserted the task, so that `ops.enqueue` is not called for it. -/
def insertedBy (k k' : Kernel) : Bool := decide (k.inserts.length < k'.inserts.length)

def afterSleep (sleeps : Bool) : Stage := if sleeps then .away else .ready

namespace Machine

/-- The state after a callback that concerns no stage. -/
def call (m : Machine) (ro : Rodata) (env : Env) (c : Callback) : Machine :=
  { m with kernel := c.exec ro env m.kernel }

def setStage (m : Machine) (p : Nat) (s : Stage) : Machine :=
  { m with stage := Function.update m.stage p s }

def setCurr (m : Machine) (cpu : Nat) (p : Option Nat) : Machine :=
  { m with curr := Function.update m.curr cpu p }

def setDsq (m : Machine) (q : Nat) (pids : List Nat) : Machine :=
  { m with kernel := m.kernel.setDsq q pids }

/-- The task is taken out of the queue `q`. -/
def take (m : Machine) (q p : Nat) : Machine := m.setDsq q ((m.kernel.dsq q).erase p)

end Machine

/-- Process 0 is the idle task, which no scheduling class admits. A task without a choice
of CPUs wakes up without `ops.select_cpu`; an exiting task or one that must not migrate is
placed by the kernel itself; a task that is preempted with slice left goes back first. -/
inductive Disciplined (ro : Rodata) (m : Machine) : Event → Machine → Prop
  | join (p : Nat) (created : Bool) (k : Kernel) : m.stage p = .absent → p ≠ 0 →
      (cognisInitTask created p).run m.kernel = (0, k) →
      Disciplined ro m (.join p created) ({ m with kernel := k }.setStage p .away)
  | enable (p : Nat) (env : Env) : m.stage p = .away →
      Disciplined ro m (.enable p env) (m.call ro env (.enable p))
  | leave (p : Nat) : m.stage p = .away →
      Disciplined ro m (.leave p) ({ m with
        kernel.taskCtx := Function.update m.kernel.taskCtx p none }.setStage p .absent)
  | select (p : Nat) (prevCpu : Int) (wakeFlags : U64) (env : Env) : m.stage p = .away →
      Disciplined ro m (.select p prevCpu wakeFlags env)
        ((m.call ro env (.selectCpu p prevCpu wakeFlags)).setStage p
          (if insertedBy m.kernel ((Callback.selectCpu p prevCpu wakeFlags).exec ro env m.kernel)
            then .waiting else .ready))
  | wake (p : Nat) : m.stage p = .away → Disciplined ro m (.wake p) (m.setStage p .ready)
  | runnable (p : Nat) (env : Env) :
      Disciplined ro m (.runnable p env) (m.call ro env (.runnable p))
  | enqueue (p : Nat) (enqFlags : U64) (env : Env) : m.stage p = .ready →
      Disciplined ro m (.enqueue p enqFlags env)
        ((m.call ro env (.enqueue p enqFlags)).setStage p .waiting)
  | place (p cpu : Nat) : m.stage p = .ready →
      Disciplined ro m (.place p cpu)
        ((m.setDsq (localOn cpu) (m.kernel.dsq (localOn cpu) ++ [p])).setStage p .waiting)
  | dispatch (cpu : Int) (prev : Option Nat) (env : Env) :
      Disciplined ro m (.dispatch cpu prev env) (m.call ro env (.dispatch cpu prev))
  | pick (cpu p : Nat) (env : Env) : cpu < m.kernel.nrCpuIds → m.curr cpu = none →
      p ∈ m.kernel.dsq (localOn cpu) →
      Disciplined ro m (.pick cpu p env)
        ((((m.take (localOn cpu) p).call ro env (.running p)).setStage p (.onCpu cpu)).setCurr cpu
          (some p))
  | stop (cpu p : Nat) (sleeps : Bool) (env : Env) : m.curr cpu = some p →
      Disciplined ro m (.stop cpu p sleeps env)
        (((m.call ro env (.stopping p)).setStage p (afterSleep sleeps)).setCurr cpu none)
  | putBack (cpu p : Nat) (env : Env) : m.curr cpu = some p →
      Disciplined ro m (.putBack cpu p env)
        ((((m.call ro env (.stopping p)).setDsq (localOn cpu)
          (p :: m.kernel.dsq (localOn cpu))).setStage p .waiting).setCurr cpu none)
  | withdraw (q p : Nat) (sleeps : Bool) : p ∈ m.kernel.dsq q →
      Disciplined ro m (.withdraw q p sleeps) ((m.take q p).setStage p (afterSleep sleeps))
  | timer (env : Env) : m.kernel.timerArmed = true →
      Disciplined ro m (.timer env) (m.call ro env .timer)
  | world (task : Nat → TaskStruct) (slots : Nat) (nrScheduled : U64) :
      (∀ p, (task p).dsqVtime = (m.kernel.task p).dsqVtime) →
      Disciplined ro m (.world task slots nrScheduled)
        { m with kernel := { m.kernel with task, slots, nrScheduled } }

/-- One CPU without the fallback, just initialised. -/
def Machine.oneCpu : Machine := .start
  ((Kernel.boot fun _ => .waiting (fun _ => true) 0).initialized (Rodata.kernelOnly .flat)
    (Env.busy 1 0 0))

abbrev DisciplinedRun (ro : Rodata) := Run (Disciplined ro)

end Cognis.Bpf
