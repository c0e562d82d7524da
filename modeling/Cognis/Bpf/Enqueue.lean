import Cognis.Bpf.Placement

/-! `ops.select_cpu` and `ops.enqueue`: direct local placement, then the deferred
hierarchy. -/
namespace Cognis.Bpf
open StateLogic

section

variable (ro : Rodata) (env : Env)

def cognisSelectCpu (p : Nat) (prevCpu : Int) (wakeFlags : U64) : BpfM Int := do
  let t := (← get).task p
  let nrCpuIds := (← get).nrCpuIds
  let thisCpu := env.thisCpu
  let prevCpu :=
    if !t.cpusPtr prevCpu then (if t.cpusPtr thisCpu then thisCpu else env.cpumaskFirst p)
    else prevCpu
  if isUserschedTask ro p then return prevCpu
  if !ro.builtinIdle then return prevCpu
  let cpu := pickIdleCpu ro env nrCpuIds t p prevCpu wakeFlags
  if cpu ≥ 0 then
    let slice ← taskSlice ro env p cpu
    directLocalDispatch p cpu slice 0
    return cpu
  return prevCpu

/-- Where `cognis_enqueue` sends a task other than the user-space scheduler. -/
inductive Route
  | kthread
  | sticky
  | idle (cpu : Int)
  | deferred (canMigrate prevCpuRtBusy : Bool)
deriving DecidableEq

def enqueueRoute (nrCpuIds : Nat) (t : TaskStruct) (p : Nat) (tctx : TaskCtx) (enqFlags : U64) :
    Route :=
  let prevCpu := t.cpu
  let canMigrate := taskShouldMigrate ro env t enqFlags
  let prevCpuRtBusy := cpuUnderRtPressure env nrCpuIds prevCpu
  if t.kthread then .kthread
  else if isTaskSticky ro tctx && !prevCpuRtBusy then .sticky
  else if canMigrate && decide (pickIdleCpu ro env nrCpuIds t p prevCpu 0 ≥ 0) then
    .idle (pickIdleCpu ro env nrCpuIds t p prevCpu 0)
  else .deferred canMigrate prevCpuRtBusy

/-- No idle CPU: a queue of the hierarchy, ordered by the virtual deadline. -/
def enqueueDeferred (p : Nat) (prevCpu : Int) (tctx : TaskCtx) (canMigrate prevCpuRtBusy : Bool)
    (enqFlags : U64) : BpfM Unit := do
  let targetDsq ← if canMigrate && prevCpuRtBusy then pure sharedDsq else overflowDsq ro prevCpu
  let slice ← taskSlice ro env p prevCpu
  let vtime ← taskDl ro env p prevCpu tctx
  scxBpfDsqInsertVtime p targetDsq slice vtime enqFlags
  countKernelRoute targetDsq

def kickPrevCpu (shouldKick : Bool) (prevCpu : Int) : BpfM Unit :=
  if shouldKick then scxBpfKickCpu prevCpu else pure ()

def cognisEnqueue (p : Nat) (enqFlags : U64) : BpfM Unit := do
  let t := (← get).task p
  let nrCpuIds := (← get).nrCpuIds
  let prevCpu := t.cpu
  let shouldKick := isQueuedWakeup env t enqFlags
  match ← tryLookupTaskCtx p with
  | none => return
  | some tctx =>
    if isUserschedTask ro p then
      if ro.userschedEnabled then scxBpfDsqInsert p schedDsq ro.sliceNs enqFlags
      kickPrevCpu shouldKick prevCpu
    else
      match enqueueRoute ro env nrCpuIds t p tctx enqFlags with
      | .kthread | .sticky =>
        let slice ← taskSlice ro env p prevCpu
        directLocalDispatch p prevCpu slice enqFlags
        kickPrevCpu shouldKick prevCpu
      | .idle cpu =>
        let slice ← taskSlice ro env p cpu
        directLocalDispatch p cpu slice enqFlags
        if prevCpu != cpu || !t.running then scxBpfKickCpu cpu
      | .deferred canMigrate prevCpuRtBusy =>
        enqueueDeferred ro env p prevCpu tctx canMigrate prevCpuRtBusy enqFlags
        kickPrevCpu shouldKick prevCpu

end

end Cognis.Bpf
