import Cognis.Bpf.Placement

/-! Accounting callbacks: wakeups, the start and the end of a run on a CPU, and
the task's arrival in the class. -/
namespace Cognis.Bpf
open StateLogic

section

variable (ro : Rodata) (env : Env)

def cognisRunnable (p : Nat) : BpfM Unit := do
  let now := env.ktime
  if isUserschedTask ro p then return
  match ← tryLookupTaskCtx p with
  | none => return
  | some tctx =>
    let deltaT := if now > tctx.lastWokeAt then now - tctx.lastWokeAt else 1
    modify (·.setCtx p { tctx with
      execRuntime := 0
      awakeVtime := 0
      wakeupFreq := minU (updateFreq tctx.wakeupFreq deltaT) maxWakeupFreq
      lastWokeAt := now })

def cognisRunning (p : Nat) : BpfM Unit := do
  if isUserschedTask ro p then
    modify fun k => { k with userschedLastRunAt := env.now }
    return
  modify fun k => { k with nrRunning := k.nrRunning + 1 }
  match ← tryLookupTaskCtx p with
  | none => return
  | some tctx =>
    modify (·.setCtx p { tctx with startTs := env.now, lastRunAt := env.ktime })
    modify fun k =>
      if timeBefore k.vtimeNow (k.task p).dsqVtime then { k with vtimeNow := (k.task p).dsqVtime }
      else k

def stoppingSlice (tctx : TaskCtx) : U64 := env.now - tctx.lastRunAt

def cognisStopping (p : Nat) : BpfM Unit := do
  let now := env.now
  if isUserschedTask ro p then return
  modify fun k => { k with nrRunning := k.nrRunning - 1 }
  match ← tryLookupTaskCtx p with
  | none => return
  | some tctx =>
    let slice := stoppingSlice env tctx
    let t := (← get).task p
    let deltaVtime := env.scaleByTaskWeightInverse t.weight slice
    modify (·.setTask p { t with dsqVtime := t.dsqVtime + deltaVtime })
    modify (·.setCtx p { tctx with
      stopTs := now
      execRuntime := tctx.execRuntime + (now - tctx.startTs)
      avgRuntime := calcAvg tctx.avgRuntime slice
      awakeVtime := tctx.awakeVtime + deltaVtime })

def cognisEnable (p : Nat) : BpfM Unit :=
  modify fun k => k.setTask p { k.task p with
    dsqVtime := k.vtimeNow
    slice := maxU ro.sliceNs ro.sliceMinNs }

/-- Creates the task's local storage; `created` is the kernel's answer. -/
def cognisInitTask (created : Bool) (p : Nat) : BpfM Int := do
  if (← tryLookupTaskCtx p).isSome then return 0
  if !created then return -12
  modify (·.setCtx p {})
  return 0

end

end Cognis.Bpf
