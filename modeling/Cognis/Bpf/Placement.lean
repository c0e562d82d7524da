import Cognis.Bpf.Kernel

/-! Placement policy: idle CPU choice, spill thresholds, the overflow hierarchy,
task slices, deadlines and the routing counters. -/
namespace Cognis.Bpf
open StateLogic

def maxU (x y : U64) : U64 := if x > y then x else y
def minU (x y : U64) : U64 := if x < y then x else y

def ebusy : Int := -16
def scxWakeTtwu : U64 := 8
def scxWakeSync : U64 := 16

def calcAvg (oldVal newVal : U64) : U64 := (oldVal - (oldVal >>> 2)) + (newVal >>> 2)

def updateFreq (freq interval : U64) : U64 := calcAvg freq ((100 * nsecPerMsec) / interval)

section

variable (ro : Rodata) (env : Env)

def isUserschedTask (p : Nat) : Bool := p == ro.userschedPid

def isTaskSticky (tctx : TaskCtx) : Bool :=
  ro.stickyTasks && decide (tctx.avgRuntime < 10 * nsecPerUsec)

def taskShouldMigrate (t : TaskStruct) (enqFlags : U64) : Bool :=
  !env.enqCpuSelected enqFlags && (!ro.stickyTasks || !t.running)

def isQueuedWakeup (t : TaskStruct) (enqFlags : U64) : Bool :=
  !env.enqCpuSelected enqFlags && !t.running

/-- `cpu` is owned by RT or deadline work, or by ksoftirqd. -/
def cpuUnderRtPressure (nrCpuIds : Nat) (cpu : Int) : Bool :=
  if !isCpuValid nrCpuIds cpu then false
  else match env.cpuCurr cpu with
    | none => false
    | some curr => if curr.idle then false else curr.rtOrDl || curr.ksoftirqd

def cpusShareCache (nrCpuIds : Nat) (thisCpu thatCpu : Int) : Bool :=
  if thisCpu = thatCpu then true
  else if !isCpuValid nrCpuIds thisCpu || !isCpuValid nrCpuIds thatCpu then false
  else env.cpuLlcId thisCpu == env.cpuLlcId thatCpu

def isCpuFaster (nrCpuIds : Nat) (thisCpu thatCpu : Int) : Bool :=
  if thisCpu = thatCpu then false
  else if !isCpuValid nrCpuIds thisCpu || !isCpuValid nrCpuIds thatCpu then false
  else decide (env.cpuPriority thisCpu > env.cpuPriority thatCpu)

def isSmtIdle (cpu : Int) : Bool := if !ro.smtEnabled then true else env.smtIdle cpu

def isWakeup (wakeFlags : U64) : Bool := wakeFlags &&& scxWakeTtwu != 0

/-- A negative result means that no idle CPU was found. -/
def pickIdleCpu (nrCpuIds : Nat) (t : TaskStruct) (p : Nat) (prevCpu : Int) (wakeFlags : U64) :
    Int :=
  let thisCpu := env.thisCpu
  let isThisCpuAllowed := t.cpusPtr thisCpu
  let wakeFlags := if ro.noWakeSync then wakeFlags &&& ~~~scxWakeSync else wakeFlags
  if t.nrCpusAllowed = 1 then
    if isCpuValid nrCpuIds prevCpu && t.cpusPtr prevCpu && env.testAndClearCpuIdle prevCpu then
      prevCpu
    else ebusy
  else
    let closer := isWakeup wakeFlags && isCpuFaster env nrCpuIds thisCpu prevCpu && isThisCpuAllowed
    if closer && (cpusShareCache env nrCpuIds thisCpu prevCpu && isSmtIdle ro env prevCpu &&
        env.testAndClearCpuIdle prevCpu) then
      prevCpu
    else
      let prevCpu := if closer then thisCpu else prevCpu
      if !env.hasSelectCpuAnd then
        -- Older kernels only answer on a wakeup, and only for an idle CPU.
        if wakeFlags = 0 then ebusy
        else
          let (cpu, isIdle) := env.selectCpuDfl p prevCpu wakeFlags
          if isIdle then cpu else ebusy
      else env.selectCpuAnd p prevCpu wakeFlags

def countKernelRoute (dsqId : Nat) : BpfM Unit := do
  if dsqId = sharedDsq then
    countOne fun c => { c with sharedDispatches := c.sharedDispatches + 1 }
  else if dsqId ≥ nodeDsqBase ∧ dsqId < nodeDsqBase + maxNodes then
    countOne fun c => { c with nodeDispatches := c.nodeDispatches + 1 }
  else if dsqId ≥ llcDsqBase ∧ dsqId < llcDsqBase + maxLlcs then
    countOne fun c => { c with llcDispatches := c.llcDispatches + 1 }
  else
    countOne fun c => { c with localDispatches := c.localDispatches + 1 }
  countOne fun c => { c with kernelDispatches := c.kernelDispatches + 1 }

def directLocalDispatch (p : Nat) (cpu : Int) (slice enqFlags : U64) : BpfM Unit := do
  scxBpfDsqInsert p (localOn cpu) slice enqFlags
  countKernelRoute (localOn cpu)

def queuePressure (cpu : Int) : BpfM Nat := do
  let nrCpuIds := (← get).nrCpuIds
  let pressure ← scxBpfDsqNrQueued sharedDsq
  if !isCpuValid nrCpuIds cpu then return pressure
  let localDepth ← scxBpfDsqNrQueued (cpuToDsq nrCpuIds cpu)
  let llcDepth ← scxBpfDsqNrQueued (cpuLlcDsq ro nrCpuIds cpu)
  if ro.nrNodes > 1 then
    let nodeDepth ← scxBpfDsqNrQueued (cpuNodeDsq ro nrCpuIds cpu)
    return pressure + localDepth + llcDepth + nodeDepth
  return pressure + localDepth + llcDepth

def cpuSpillThreshold : Nat := 1

def llcSpillThreshold (nrOnlineCpus : Nat) : Nat :=
  let llcs := max ro.nrLlcs 1
  let cpusPerLlc := max ((nrOnlineCpus + llcs - 1) / llcs) 1
  if ro.serverMode then max (cpusPerLlc / 2) 1 else cpusPerLlc

def nodeSpillThreshold (nrOnlineCpus : Nat) : Nat :=
  let nodes := max ro.nrNodes 1
  let cpusPerNode := max ((nrOnlineCpus + nodes - 1) / nodes) 1
  if ro.serverMode then max (cpusPerNode / 2) 1 else cpusPerNode

/-- The nearest tier of `prevCpu` that still has room, else the shared queue. -/
def overflowDsq (prevCpu : Int) : BpfM Nat := do
  let nrCpuIds := (← get).nrCpuIds
  let nrOnlineCpus := (← get).nrOnlineCpus
  if !isCpuValid nrCpuIds prevCpu then return sharedDsq
  let localDsq := cpuToDsq nrCpuIds prevCpu
  let localDepth ← scxBpfDsqNrQueued localDsq
  if localDepth < cpuSpillThreshold then return localDsq
  let llcDsq := cpuLlcDsq ro nrCpuIds prevCpu
  let llcDepth ← scxBpfDsqNrQueued llcDsq
  if llcDepth < llcSpillThreshold ro nrOnlineCpus then return llcDsq
  if ro.nrNodes > 1 then
    let nodeDsq := cpuNodeDsq ro nrCpuIds prevCpu
    let nodeDepth ← scxBpfDsqNrQueued nodeDsq
    if nodeDepth < nodeSpillThreshold ro nrOnlineCpus then return nodeDsq
  return sharedDsq

def taskSlice (p : Nat) (cpu : Int) : BpfM U64 := do
  let nrWait := BitVec.ofNat 64 (← queuePressure ro cpu)
  let t := (← get).task p
  let slice := env.scaleByTaskWeight t.weight ro.sliceNs / maxU nrWait 1
  return maxU slice ro.sliceMinNs

/-- Wakeup credit scale of `task_dl`; queue pressure shrinks it. -/
def lagScale (tctx : TaskCtx) (nrWait : U64) : U64 :=
  let starvationNs := 500 * nsecPerMsec
  let qThresh := maxU (starvationNs / maxU ro.sliceNs 1) 1
  if nrWait * ro.sliceNs ≥ starvationNs then 1
  else maxU (maxU tctx.wakeupFreq 1 * qThresh / (qThresh + nrWait)) 1

def vtimeMin (vtimeNow weight : U64) (tctx : TaskCtx) (nrWait : U64) : U64 :=
  vtimeNow - env.scaleByTaskWeight weight (ro.sliceLagNs * lagScale ro tctx nrWait)

/-- `awake_vtime` after the cap of `task_dl`. -/
def cappedAwake (weight : U64) (tctx : TaskCtx) : U64 :=
  let awakeMax := env.scaleByTaskWeightInverse weight ro.sliceLagNs
  if timeAfter tctx.awakeVtime awakeMax then awakeMax else tctx.awakeVtime

def taskDl (p : Nat) (cpu : Int) (tctx : TaskCtx) : BpfM U64 := do
  let nrWait := BitVec.ofNat 64 (← queuePressure ro cpu)
  let k ← get
  let t := k.task p
  let floor := vtimeMin ro env k.vtimeNow t.weight tctx nrWait
  let dsqVtime := if timeBefore t.dsqVtime floor then floor else t.dsqVtime
  let awake := cappedAwake ro env t.weight tctx
  modify (·.setTask p { t with dsqVtime := dsqVtime })
  modify (·.setCtx p { tctx with awakeVtime := awake })
  return dsqVtime + awake

end

end Cognis.Bpf
