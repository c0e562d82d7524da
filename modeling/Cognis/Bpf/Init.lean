import Cognis.Bpf.Dispatch

/-! Start-up: the queue hierarchy and the heartbeat timer with its
dispatch-progress guard. -/
namespace Cognis.Bpf
open StateLogic

section

variable (ro : Rodata) (env : Env)

/-- Ids below `limit`, up to the first that reaches `count`. -/
def indicesBelow (count limit : Nat) : List Nat := (List.range limit).takeWhile (· < count)

/-- Queries the queues in order and stops at the first that holds a task. -/
def anyQueued : List Nat → BpfM Bool
  | [] => return false
  | q :: qs => do
    if (← scxBpfDsqNrQueued q) ≠ 0 then return true
    anyQueued qs

def dsqBacklogExists : BpfM Bool := do
  let nrCpuIds := (← get).nrCpuIds
  if (← scxBpfDsqNrQueued sharedDsq) ≠ 0 then return true
  if ← anyQueued (cpuDsqs nrCpuIds) then return true
  if ← anyQueued ((indicesBelow ro.nrLlcs maxLlcs).map llcToDsq) then return true
  anyQueued ((indicesBelow ro.nrNodes maxNodes).map nodeToDsq)

def getNrOnlineCpus : BpfM Nat := do
  let nrCpuIds := (← get).nrCpuIds
  return ((List.range nrCpuIds).filter fun cpu => env.cpuOnline (cpu : Nat)).length

/-- Creates the queues in order; the first failure is reported and returned. -/
def createAll (reason : Int → ScxExit) : List Nat → BpfM Int
  | [] => return 0
  | q :: qs => do
    let err ← scxBpfCreateDsq env q
    if err ≠ 0 then
      scxBpfError (reason err)
      return err
    createAll reason qs

def dsqInit : BpfM Int := do
  let online ← getNrOnlineCpus env
  modify fun k => { k with nrOnlineCpus := online }
  let nrCpuIds := (← get).nrCpuIds
  let err ← createAll env .createCpuDsq (cpuDsqs nrCpuIds)
  if err ≠ 0 then return err
  let err ← createAll env .createLlcDsq ((indicesBelow ro.nrLlcs maxLlcs).map llcToDsq)
  if err ≠ 0 then return err
  let err ← createAll env .createNodeDsq ((indicesBelow ro.nrNodes maxNodes).map nodeToDsq)
  if err ≠ 0 then return err
  let err ← createAll env .createSharedDsq [sharedDsq]
  if err ≠ 0 then return err
  if ro.userschedEnabled then createAll env .createSchedDsq [schedDsq]
  else return 0

def bpfTimerStart : BpfM Int := do
  if env.timerStart = 0 then modify fun k => { k with timerArmed := true }
  return env.timerStart

def userschedTimerInit : BpfM Int := do
  if !env.timerMap then
    scxBpfError .timerLookup
    return -3
  let err ← bpfTimerStart env
  if err ≠ 0 then scxBpfError .armSchedulerTimer
  return err

/-- Requests the exit when a backlog has seen no dispatch for too long. -/
def dispatchProgressGuard : BpfM Bool := do
  if ← dsqBacklogExists ro then
    let delta := timeDelta env.now (← get).lastDispatchAt
    if delta ≥ dispatchProgressGuardNs then
      scxBpfError (.dispatchProgress delta)
      return true
    else return false
  else return false

def wakeUsersched : BpfM Unit := do
  if timeDelta env.now (← get).userschedLastRunAt ≥ userschedTimerNs then
    if env.taskFromPid ro.userschedPid then
      modify fun k => { k with userschedNeeded := true }
      scxBpfKickCpu ((← get).task ro.userschedPid).cpu

def rearm : BpfM Unit := do
  let err ← bpfTimerStart env
  if err ≠ 0 then scxBpfError .armStatsTimer

/-- The heartbeat. It fires once per arming, so it must arm itself again. -/
def userschedTimerFn : BpfM Unit := do
  modify fun k => { k with timerArmed := false }
  if ← dispatchProgressGuard ro env then return
  if ro.userschedEnabled then wakeUsersched ro env
  rearm env

def cognisInit : BpfM Int := do
  modify fun k => { k with nrCpuIds := env.nrCpuIds, lastDispatchAt := env.now }
  let err ← dsqInit ro env
  if err ≠ 0 then return err
  if ro.userschedEnabled then userschedTimerInit env
  else return 0

end

end Cognis.Bpf
