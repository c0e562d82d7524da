import Cognis.Bpf.Steal

/-! `ops.dispatch`: the user ring buffer, the user-space scheduler, the CPU's own
tiers by deadline, the remote steals and the refill of the previous task. -/
namespace Cognis.Bpf
open StateLogic

def rlCpuAny : Int := 2 ^ 20

section

variable (ro : Rodata) (env : Env)

def kickTaskCpu (p : Nat) (cpu : Int) : BpfM Unit := do
  if !((← get).task p).cpusPtr cpu then
    scxBpfKickCpu cpu
    if env.pickIdle p < 0 then return
    scxBpfKickCpu (env.pickIdle p)
  else
    scxBpfKickCpu cpu

theorem kickTaskCpu_keeps {I : Kernel → Prop} (kick : ∀ c, Keeps I (scxBpfKickCpu c)) (p : Nat)
    (cpu : Int) : Keeps I (kickTaskCpu env p cpu) := by
  apply Keeps.bind Keeps.get
  intro k
  split
  · apply Keeps.bind (kick cpu)
    intro _
    split
    · exact Keeps.pure _
    · exact kick _
  · exact kick cpu

def dispatchAnywhere (task : DispatchedTaskCtx) (prevCpu : Int) : BpfM Unit := do
  scxBpfDispatchVtime task.pid sharedDsq task.sliceNs task.vtime task.flags
  countOne fun c => { c with userDispatches := c.userDispatches + 1 }
  kickTaskCpu env task.pid prevCpu

/-- A task that was dequeued meanwhile is withdrawn: another enqueue will follow. -/
def kickOrCancel (task : DispatchedTaskCtx) (cpu : Int) : BpfM Unit := do
  let tctx ← tryLookupTaskCtx task.pid
  if tctx.all fun c => decide (c.enqCnt > task.enqCnt) then
    scxBpfDispatchCancel
    countOne fun c => { c with cancelDispatches := c.cancelDispatches + 1 }
  else
    scxBpfKickCpu cpu

def dispatchToCpu (task : DispatchedTaskCtx) (prevCpu : Int) : BpfM Unit := do
  let k ← get
  let allowed := (k.task task.pid).cpusPtr task.cpu
  let cpu := if allowed then task.cpu else prevCpu
  countOne fun c =>
    if allowed then { c with userDispatches := c.userDispatches + 1 }
    else { c with bounceDispatches := c.bounceDispatches + 1 }
  scxBpfDispatchVtime task.pid (cpuToDsq k.nrCpuIds cpu) task.sliceNs task.vtime task.flags
  kickOrCancel task cpu

def dispatchTask (task : DispatchedTaskCtx) : BpfM Unit := do
  if !env.taskFromPid task.pid then return
  let prevCpu := ((← get).task task.pid).cpu
  if task.cpu = rlCpuAny then dispatchAnywhere env task prevCpu
  else dispatchToCpu task prevCpu

/-- The ring buffer callback: zero asks for the next sample, one stops. -/
def handleDispatchedTask (sample : Option DispatchedTaskCtx) : BpfM Nat := do
  match sample with
  | none => return 0
  | some task =>
    dispatchTask env task
    let slots ← scxBpfDispatchNrSlots
    return if slots ≠ 0 then 1 else 0

/-- Calls back on successive samples while the callback returns zero. -/
def drainSamples (callback : Option DispatchedTaskCtx → BpfM Nat) :
    List (Option DispatchedTaskCtx) → BpfM Nat
  | [] => return 0
  | sample :: rest => do
    modify fun k => { k with ring := rest }
    let stop ← callback sample
    if stop ≠ 0 then return 1
    return (← drainSamples callback rest) + 1

def bpfUserRingbufDrain (callback : Option DispatchedTaskCtx → BpfM Nat) : BpfM Nat := do
  drainSamples callback (← get).ring

def testAndClearUserschedNeeded : BpfM Bool := do
  let needed := (← get).userschedNeeded
  modify fun k => { k with userschedNeeded := false }
  return needed

def userschedHasPendingTasks : BpfM Bool := do
  if !ro.userschedEnabled then return false
  if ← testAndClearUserschedNeeded then return true
  if (← get).nrScheduled ≠ 0 then return true
  return decide (env.queuedAvail > 0)

def dispatchUsersched (cpu : Int) : BpfM Bool := do
  if ← userschedHasPendingTasks ro env then
    scxBpfDsqMoveToLocal cpu schedDsq
  else return false

def isDeadlineMin (vtimeOf : Nat → U64) : Option Nat → Option Nat → Bool
  | none, _ => false
  | some _, none => true
  | some p, some q => decide (vtimeOf p < vtimeOf q)

/-- A tier is the head of a queue, if any, and the queue. -/
abbrev Tier := Option Nat × Nat

def earlierTier (vtimeOf : Nat → U64) (best tier : Tier) : Tier :=
  if isDeadlineMin vtimeOf tier.1 best.1 then tier else best

def peekTier (q : Nat) : BpfM Tier := do return (← scxBpfDsqPeek q, q)

def moveIf (cond : Bool) (cpu : Int) (q : Nat) : BpfM Bool := do
  if cond then scxBpfDsqMoveToLocal cpu q else return false

/-- The earliest head first, then the other tiers from near to far. -/
def tierMoves (cpu : Int) (best localTier llc node shared : Tier) : BpfM Bool := do
  if ← moveIf best.1.isSome cpu best.2 then return true
  if ← moveIf (localTier.1.isSome && best.2 != localTier.2) cpu localTier.2 then return true
  if ← moveIf (llc.1.isSome && best.2 != llc.2) cpu llc.2 then return true
  if ← moveIf (node.1.isSome && best.2 != node.2) cpu node.2 then return true
  moveIf (shared.1.isSome && best.2 != shared.2) cpu shared.2

def moveFromOwnTiers (cpu : Int) : BpfM Bool := do
  let nrCpuIds := (← get).nrCpuIds
  let localTier ← peekTier (cpuToDsq nrCpuIds cpu)
  let llc ← peekTier (cpuLlcDsq ro nrCpuIds cpu)
  let nodeDsq := cpuNodeDsq ro nrCpuIds cpu
  let node ← if ro.nrNodes > 1 then peekTier nodeDsq else pure (none, nodeDsq)
  let shared ← peekTier sharedDsq
  let k ← get
  let vtimeOf := fun r => (k.task r).dsqVtime
  let best := (localTier.1, if localTier.1.isSome then localTier.2 else 0)
  let best := earlierTier vtimeOf best llc
  let best := earlierTier vtimeOf best node
  let best := earlierTier vtimeOf best shared
  tierMoves cpu best localTier llc node shared

def stealRemote (cpu : Int) : BpfM Bool := do
  if ← stealRemoteCpu env cpu true then return true
  if ← stealRemoteCpu env cpu false then return true
  if ← stealRemoteLlc ro cpu true then return true
  if ← stealRemoteNode ro cpu then return true
  stealRemoteLlc ro cpu false

/-- The user-space scheduler keeps the CPU only while it still has something to do. -/
def wantsAnotherRound (p : Nat) : BpfM Bool := do
  if !((← get).task p).queued then return false
  if !isUserschedTask ro p then return true
  userschedHasPendingTasks ro env

/-- Nothing else wants the CPU: the previous task runs for another round. -/
def refillPrev (cpu : Int) (prev : Option Nat) : BpfM Unit := do
  match prev with
  | none => return
  | some p =>
    if ← wantsAnotherRound ro env p then
      let slice ← taskSlice ro env p cpu
      modify fun k => k.setTask p { k.task p with slice := slice }

def drainDispatched : BpfM Unit := do
  modify fun k => { k with lastDispatchAt := env.now }
  let _ ← bpfUserRingbufDrain (handleDispatchedTask env)
  return

def selectTask (cpu : Int) (prev : Option Nat) : BpfM Unit := do
  if ← dispatchUsersched ro env cpu then return
  if ← moveFromOwnTiers ro cpu then return
  if ← stealRemote ro env cpu then return
  refillPrev ro env cpu prev

def cognisDispatch (cpu : Int) (prev : Option Nat) : BpfM Unit := do
  drainDispatched env
  selectTask ro env cpu prev

/-- The kernel's call of `ops.dispatch`: what is still pending is committed when it returns. -/
def opsDispatch (cpu : Int) (prev : Option Nat) : BpfM Unit := do
  cognisDispatch ro env cpu prev
  flushDispatchBuf

end

end Cognis.Bpf
