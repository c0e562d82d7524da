import Mathlib.Logic.Function.Basic
import Cognis.Lib.StateLogic
import Cognis.Bpf.Layout

/-! The state a callback reads and writes, the answers the kernel gives to it,
and the helper calls. Queues hold pids in `dsq_vtime` order. The fields after
`touched` are ghosts: they record which helper calls were made, `inserts` those of
`ops.select_cpu` and `ops.enqueue`. -/
namespace Cognis.Bpf
open StateLogic

structure TaskStruct where
  cpusPtr : Int → Bool
  nrCpusAllowed : Nat
  cpu : Int
  kthread : Bool
  running : Bool
  queued : Bool
  weight : U64
  dsqVtime : U64
  slice : U64

structure TaskCtx where
  startTs : U64 := 0
  stopTs : U64 := 0
  execRuntime : U64 := 0
  enqCnt : U64 := 0
  awakeVtime : U64 := 0
  lastRunAt : U64 := 0
  wakeupFreq : U64 := 0
  lastWokeAt : U64 := 0
  avgRuntime : U64 := 0
deriving DecidableEq

structure DispatchedTaskCtx where
  pid : Nat
  cpu : Int
  flags : U64
  sliceNs : U64
  vtime : U64
  enqCnt : U64
deriving DecidableEq

/-- What `scx_bpf_cpu_curr` shows of the task that owns a CPU. -/
structure CurrTask where
  idle : Bool
  rtOrDl : Bool
  ksoftirqd : Bool

/-- The kernel's answers during one callback. -/
structure Env where
  now : U64
  ktime : U64
  thisCpu : Int
  nrCpuIds : Nat
  cpuOnline : Int → Bool
  cpuLlcId : Int → Nat
  cpuPriority : Int → Nat
  smtIdle : Int → Bool
  testAndClearCpuIdle : Int → Bool
  hasSelectCpuAnd : Bool
  selectCpuAnd : Nat → Int → U64 → Int
  selectCpuDfl : Nat → Int → U64 → Int × Bool
  pickIdle : Nat → Int
  cpumaskFirst : Nat → Int
  cpuCurr : Int → Option CurrTask
  enqCpuSelected : U64 → Bool
  queuedAvail : Nat
  taskFromPid : Nat → Bool
  createFails : Nat → Int
  timerMap : Bool
  timerStart : Int
  scaleByTaskWeight : U64 → U64 → U64
  scaleByTaskWeightInverse : U64 → U64 → U64

/-- Reasons the program gives when it asks the kernel to unload it. -/
inductive ScxExit
  | dispatchProgress (delta : U64)
  | dispatchBufferOverflow
  | createCpuDsq (err : Int)
  | createLlcDsq (err : Int)
  | createNodeDsq (err : Int)
  | createSharedDsq (err : Int)
  | createSchedDsq (err : Int)
  | timerLookup
  | armSchedulerTimer
  | armStatsTimer
deriving DecidableEq

structure Counters where
  userDispatches : U64 := 0
  kernelDispatches : U64 := 0
  cancelDispatches : U64 := 0
  bounceDispatches : U64 := 0
  localDispatches : U64 := 0
  llcDispatches : U64 := 0
  nodeDispatches : U64 := 0
  sharedDispatches : U64 := 0
  xllcSteals : U64 := 0
  xnodeSteals : U64 := 0
deriving DecidableEq

structure Kernel where
  task : Nat → TaskStruct
  taskCtx : Nat → Option TaskCtx
  dsq : Nat → List Nat
  created : List Nat
  /-- Insertions of `ops.dispatch` not yet committed, oldest first. -/
  pending : List (Nat × Nat)
  slots : Nat
  /-- The `dispatched` ring; `none` is a sample too short for a message. -/
  ring : List (Option DispatchedTaskCtx)
  timerArmed : Bool
  exits : List ScxExit
  nrCpuIds : Nat
  nrOnlineCpus : Nat
  lastDispatchAt : U64
  userschedLastRunAt : U64
  userschedNeeded : Bool
  vtimeNow : U64
  nrScheduled : U64
  nrRunning : U64
  counters : Counters
  touched : List Nat
  inserts : List (Nat × Nat)
  overflows : Nat
  kicks : List Int

/-- State when the program is loaded: no queue exists, nothing is armed. -/
def Kernel.boot (task : Nat → TaskStruct) : Kernel where
  task := task
  taskCtx := fun _ => none
  dsq := fun _ => []
  created := []
  pending := []
  slots := 0
  ring := []
  timerArmed := false
  exits := []
  nrCpuIds := 0
  nrOnlineCpus := 0
  lastDispatchAt := 0
  userschedLastRunAt := 0
  userschedNeeded := false
  vtimeNow := 0
  nrScheduled := 0
  nrRunning := 0
  counters := {}
  touched := []
  inserts := []
  overflows := 0
  kicks := []

/-- A kernel without idle CPUs at time `now`, its two clocks `offset` apart. Weights
are all equal. -/
def Env.busy (nrCpuIds : Nat) (now offset : U64) : Env where
  now := now
  ktime := now + offset
  thisCpu := 0
  nrCpuIds := nrCpuIds
  cpuOnline := fun cpu => decide (0 ≤ cpu ∧ cpu < nrCpuIds)
  cpuLlcId := fun cpu => cpu.toNat
  cpuPriority := fun _ => 0
  smtIdle := fun _ => false
  testAndClearCpuIdle := fun _ => false
  hasSelectCpuAnd := true
  selectCpuAnd := fun _ _ _ => -16
  selectCpuDfl := fun _ cpu _ => (cpu, false)
  pickIdle := fun _ => -16
  cpumaskFirst := fun _ => 0
  cpuCurr := fun _ => none
  enqCpuSelected := fun _ => false
  queuedAvail := 0
  taskFromPid := fun _ => true
  createFails := fun _ => 0
  timerMap := true
  timerStart := 0
  scaleByTaskWeight := fun _ value => value
  scaleByTaskWeightInverse := fun _ value => value

/-- A user task that waits to run and may run where `allowed` says. -/
def TaskStruct.waiting (allowed : Int → Bool) (dsqVtime : U64) : TaskStruct where
  cpusPtr := allowed
  nrCpusAllowed := 2
  cpu := 0
  kthread := false
  running := false
  queued := true
  weight := 100
  dsqVtime := dsqVtime
  slice := 0

abbrev BpfM := StateM Kernel

namespace Kernel

def touch (k : Kernel) (q : Nat) : Kernel := { k with touched := k.touched ++ [q] }

def setDsq (k : Kernel) (q : Nat) (pids : List Nat) : Kernel :=
  { k with dsq := Function.update k.dsq q pids }

def setTask (k : Kernel) (p : Nat) (t : TaskStruct) : Kernel :=
  { k with task := Function.update k.task p t }

def setCtx (k : Kernel) (p : Nat) (c : TaskCtx) : Kernel :=
  { k with taskCtx := Function.update k.taskCtx p (some c) }

def allows (k : Kernel) (cpu : Int) (p : Nat) : Bool := (k.task p).cpusPtr cpu

end Kernel

/-- Wrap-around order of the kernel: the signed difference decides. -/
def timeBefore (a b : U64) : Bool := (a - b).slt 0

theorem timeBefore_eq_msb (a b : U64) : timeBefore a b = (a - b).msb := BitVec.slt_zero_eq_msb

def timeAfter (a b : U64) : Bool := timeBefore b a

def timeDelta (after before : U64) : U64 :=
  if (0 : U64).slt (after - before) then after - before else 0

/-- Position of a vtime insertion: behind every entry that is not later. -/
def insertByVtime (vtimeOf : Nat → U64) (p : Nat) : List Nat → List Nat
  | [] => [p]
  | q :: qs =>
    if timeBefore (vtimeOf p) (vtimeOf q) then p :: q :: qs
    else q :: insertByVtime vtimeOf p qs

def Kernel.commit (k : Kernel) (entry : Nat × Nat) : Kernel :=
  k.setDsq entry.1 (insertByVtime (fun r => (k.task r).dsqVtime) entry.2 (k.dsq entry.1))

/-- The pending insertions reach their queues and give their slots back. -/
def Kernel.flush (k : Kernel) : Kernel :=
  { k with
    dsq := (k.pending.foldl Kernel.commit k).dsq
    pending := []
    slots := k.slots + k.pending.length }

def flushDispatchBuf : BpfM Unit := modify Kernel.flush

def scxBpfDsqNrQueued (q : Nat) : BpfM Nat := do
  modify (·.touch q)
  return ((← get).dsq q).length

def scxBpfDsqPeek (q : Nat) : BpfM (Option Nat) := do
  modify (·.touch q)
  return ((← get).dsq q).head?

def Kernel.moveToLocal (k : Kernel) (cpu : Int) (q p : Nat) : Kernel :=
  (k.setDsq q ((k.dsq q).erase p)).setDsq (localOn cpu) (k.dsq (localOn cpu) ++ [p])

/-- Before it looks for a task the kernel commits what the callback has inserted so far. -/
def scxBpfDsqMoveToLocal (cpu : Int) (q : Nat) : BpfM Bool := do
  modify (·.touch q)
  flushDispatchBuf
  match ((← get).dsq q).find? ((← get).allows cpu) with
  | none => return false
  | some p =>
    modify (·.moveToLocal cpu q p)
    return true

/-- A zero slice keeps the current one. -/
def TaskStruct.withSlice (t : TaskStruct) (slice : U64) : TaskStruct :=
  if slice = 0 then t else { t with slice := slice }

def Kernel.insert (k : Kernel) (p q : Nat) (slice : U64) : Kernel :=
  let k := k.setTask p ((k.task p).withSlice slice)
  { k.setDsq q (k.dsq q ++ [p]) with inserts := k.inserts ++ [(q, p)], touched := k.touched ++ [q] }

def Kernel.insertVtime (k : Kernel) (p q : Nat) (slice vtime : U64) : Kernel :=
  let k := k.setTask p { (k.task p).withSlice slice with dsqVtime := vtime }
  { k.setDsq q (insertByVtime (fun r => (k.task r).dsqVtime) p (k.dsq q)) with
    inserts := k.inserts ++ [(q, p)], touched := k.touched ++ [q] }

def scxBpfDsqInsert (p q : Nat) (slice _enqFlags : U64) : BpfM Unit :=
  modify (·.insert p q slice)

def scxBpfDsqInsertVtime (p q : Nat) (slice vtime _enqFlags : U64) : BpfM Unit :=
  modify (·.insertVtime p q slice vtime)

/-- The same call made from `ops.dispatch`: it takes a slot and stays pending,
while slice and vtime are stored at once. Without a slot it is an error. -/
def Kernel.dispatchVtime (k : Kernel) (p q : Nat) (slice vtime : U64) : Kernel :=
  if k.slots = 0 then
    { k with
      touched := k.touched ++ [q]
      overflows := k.overflows + 1
      exits := k.exits ++ [.dispatchBufferOverflow] }
  else
    { k.setTask p { (k.task p).withSlice slice with dsqVtime := vtime } with
      touched := k.touched ++ [q]
      slots := k.slots - 1
      pending := k.pending ++ [(q, p)] }

def scxBpfDispatchVtime (p q : Nat) (slice vtime _enqFlags : U64) : BpfM Unit :=
  modify (·.dispatchVtime p q slice vtime)

/-- Withdraws the latest pending insertion and gives its slot back. -/
def Kernel.dispatchCancel (k : Kernel) : Kernel :=
  match k.pending.getLast? with
  | none => k
  | some _ => { k with pending := k.pending.dropLast, slots := k.slots + 1 }

def scxBpfDispatchCancel : BpfM Unit := modify Kernel.dispatchCancel

def scxBpfDispatchNrSlots : BpfM Nat := return (← get).slots

def scxBpfKickCpu (cpu : Int) : BpfM Unit := modify fun k => { k with kicks := k.kicks ++ [cpu] }

/-- Fails on an existing id; other failures are the kernel's. -/
def scxBpfCreateDsq (env : Env) (q : Nat) : BpfM Int := do
  modify (·.touch q)
  if (← get).created.contains q then return -17
  else if env.createFails q ≠ 0 then return env.createFails q
  else
    modify fun k => { k with created := k.created ++ [q] }
    return 0

def scxBpfError (reason : ScxExit) : BpfM Unit :=
  modify fun k => { k with exits := k.exits ++ [reason] }

def countOne (f : Counters → Counters) : BpfM Unit :=
  modify fun k => { k with counters := f k.counters }

def tryLookupTaskCtx (p : Nat) : BpfM (Option TaskCtx) := return (← get).taskCtx p

end Cognis.Bpf
