import Cognis.Bpf.Moves
import Cognis.Bpf.Placement

/-! What the placement helpers return and which queues they ask for it. -/
namespace Cognis.Bpf
open StateLogic

namespace Kernel

theorem touchAll_append (k : Kernel) (qs rs : List Nat) :
    (k.touchAll qs).touchAll rs = k.touchAll (qs ++ rs) := by simp [touchAll]

theorem touch_eq (k : Kernel) (q : Nat) : k.touch q = k.touchAll [q] := rfl

@[simp] theorem touchAll_dsq (k : Kernel) (qs : List Nat) : (k.touchAll qs).dsq = k.dsq := by
  simp only [touchAll]

@[simp] theorem touchAll_task (k : Kernel) (qs : List Nat) : (k.touchAll qs).task = k.task := by
  simp only [touchAll]

@[simp] theorem touchAll_taskCtx (k : Kernel) (qs : List Nat) :
    (k.touchAll qs).taskCtx = k.taskCtx := by simp only [touchAll]

@[simp] theorem touchAll_nrCpuIds (k : Kernel) (qs : List Nat) :
    (k.touchAll qs).nrCpuIds = k.nrCpuIds := by simp only [touchAll]

@[simp] theorem touchAll_vtimeNow (k : Kernel) (qs : List Nat) :
    (k.touchAll qs).vtimeNow = k.vtimeNow := by simp only [touchAll]

@[simp] theorem touchAll_lastDispatchAt (k : Kernel) (qs : List Nat) :
    (k.touchAll qs).lastDispatchAt = k.lastDispatchAt := by simp only [touchAll]

end Kernel

section

variable (ro : Rodata) (env : Env)

/-- The queues behind the pressure on `cpu`, in the order of the queries. -/
def pressureQueues (n : Nat) (cpu : Int) : List Nat :=
  if !isCpuValid n cpu then [sharedDsq]
  else [sharedDsq, cpuToDsq n cpu, cpuLlcDsq ro n cpu] ++
    if ro.nrNodes > 1 then [cpuNodeDsq ro n cpu] else []

def pressureOf (v : Queues) (cpu : Int) : Nat :=
  ((pressureQueues ro v.nrCpuIds cpu).map fun q => (v.dsq q).length).sum

theorem pressureQueues_subset (n : Nat) (cpu : Int) :
    pressureQueues ro n cpu ⊆ ownTiers ro n cpu := by
  intro q member
  simp only [pressureQueues, ownTiers] at member ⊢
  split at member
  · simp_all
  · simp only [List.mem_append, List.mem_cons, List.not_mem_nil, or_false] at member ⊢
    tauto

theorem queuePressure_run (cpu : Int) (k : Kernel) :
    (queuePressure ro cpu).run k =
      (pressureOf ro k.queues cpu, k.touchAll (pressureQueues ro k.nrCpuIds cpu)) := by
  simp only [queuePressure, run_then, run_getThe, ↓run_ite, scxBpfDsqNrQueued_run, run_done,
    pressureOf, pressureQueues, Kernel.queues_nrCpuIds, Kernel.queues_dsq, Kernel.touch_dsq]
  split
  · simp [Kernel.touch_eq]
  · split <;> simp [Kernel.touch_eq, Kernel.touchAll_append, Nat.add_assoc]

def sliceOf (k : Kernel) (p : Nat) (cpu : Int) : U64 :=
  maxU (env.scaleByTaskWeight (k.task p).weight ro.sliceNs /
    maxU (BitVec.ofNat 64 (pressureOf ro k.queues cpu)) 1) ro.sliceMinNs

theorem taskSlice_run (p : Nat) (cpu : Int) (k : Kernel) :
    (taskSlice ro env p cpu).run k =
      (sliceOf ro env k p cpu, k.touchAll (pressureQueues ro k.nrCpuIds cpu)) := by
  simp only [taskSlice, run_then, run_getThe, queuePressure_run, run_done, sliceOf,
    Kernel.touchAll_task]

/-- The queue that `overflow_dsq` chooses for `cpu`. -/
inductive Overflows (k : Kernel) (cpu : Int) : Nat → Prop
  | invalid : isCpuValid k.nrCpuIds cpu = false → Overflows k cpu sharedDsq
  | cpu : isCpuValid k.nrCpuIds cpu = true →
      (k.dsq (cpuToDsq k.nrCpuIds cpu)).length < cpuSpillThreshold →
      Overflows k cpu (cpuToDsq k.nrCpuIds cpu)
  | llc : isCpuValid k.nrCpuIds cpu = true →
      cpuSpillThreshold ≤ (k.dsq (cpuToDsq k.nrCpuIds cpu)).length →
      (k.dsq (cpuLlcDsq ro k.nrCpuIds cpu)).length < llcSpillThreshold ro k.nrOnlineCpus →
      Overflows k cpu (cpuLlcDsq ro k.nrCpuIds cpu)
  | node : isCpuValid k.nrCpuIds cpu = true →
      cpuSpillThreshold ≤ (k.dsq (cpuToDsq k.nrCpuIds cpu)).length →
      llcSpillThreshold ro k.nrOnlineCpus ≤ (k.dsq (cpuLlcDsq ro k.nrCpuIds cpu)).length →
      ro.nrNodes > 1 →
      (k.dsq (cpuNodeDsq ro k.nrCpuIds cpu)).length < nodeSpillThreshold ro k.nrOnlineCpus →
      Overflows k cpu (cpuNodeDsq ro k.nrCpuIds cpu)
  | shared : isCpuValid k.nrCpuIds cpu = true →
      cpuSpillThreshold ≤ (k.dsq (cpuToDsq k.nrCpuIds cpu)).length →
      llcSpillThreshold ro k.nrOnlineCpus ≤ (k.dsq (cpuLlcDsq ro k.nrCpuIds cpu)).length →
      (ro.nrNodes > 1 → nodeSpillThreshold ro k.nrOnlineCpus ≤
        (k.dsq (cpuNodeDsq ro k.nrCpuIds cpu)).length) →
      Overflows k cpu sharedDsq

variable {ro} in
theorem Overflows.own {k : Kernel} {cpu : Int} {q : Nat} (h : Overflows ro k cpu q) :
    q ∈ ownTiers ro k.nrCpuIds cpu := by
  cases h with
  | node _ _ _ multi _ => simp [ownTiers, multi]
  | _ => simp [ownTiers]

theorem overflowDsq_run (prevCpu : Int) (k : Kernel) :
    ∃ target qs, (overflowDsq ro prevCpu).run k = (target, k.touchAll qs) ∧
      Overflows ro k prevCpu target ∧ qs ⊆ ownTiers ro k.nrCpuIds prevCpu := by
  simp only [overflowDsq, run_then, run_getThe, ↓run_ite, scxBpfDsqNrQueued_run, run_done]
  simp only [Kernel.touch_eq, Kernel.touchAll_append, Kernel.touchAll_dsq]
  split
  · rename_i invalid
    exact ⟨sharedDsq, [], by rw [Kernel.touchAll_nil], .invalid (by simpa using invalid), by simp⟩
  rename_i usable
  have valid : isCpuValid k.nrCpuIds prevCpu = true := by simpa using usable
  split
  · rename_i room
    exact ⟨_, _, rfl, .cpu valid room, by simp [ownTiers]⟩
  rename_i full
  have full := Nat.not_lt.mp full
  split
  · rename_i room
    exact ⟨_, _, rfl, .llc valid full room, by simp [ownTiers]⟩
  rename_i llcFull
  have llcFull := Nat.not_lt.mp llcFull
  split
  · rename_i multi
    split
    · rename_i room
      exact ⟨_, _, rfl, .node valid full llcFull multi room, by simp [ownTiers, multi]⟩
    · rename_i nodeFull
      exact ⟨_, _, rfl, .shared valid full llcFull fun _ => Nat.not_lt.mp nodeFull,
        by simp [ownTiers, multi]⟩
  · rename_i single
    exact ⟨_, _, rfl, .shared valid full llcFull fun multi => absurd multi single,
      by simp [ownTiers]⟩

def vtimeFloor (k : Kernel) (p : Nat) (cpu : Int) (tctx : TaskCtx) : U64 :=
  vtimeMin ro env k.vtimeNow (k.task p).weight tctx
    (BitVec.ofNat 64 (pressureOf ro k.queues cpu))

/-- The service of the task after `task_dl`, without the wakeup credit. -/
def settledVtime (k : Kernel) (p : Nat) (cpu : Int) (tctx : TaskCtx) : U64 :=
  if timeBefore (k.task p).dsqVtime (vtimeFloor ro env k p cpu tctx) then
    vtimeFloor ro env k p cpu tctx
  else (k.task p).dsqVtime

/-- The task and its storage as `task_dl` leaves them. -/
def Kernel.settle (k : Kernel) (p : Nat) (cpu : Int) (tctx : TaskCtx) : Kernel :=
  (k.setTask p { k.task p with dsqVtime := settledVtime ro env k p cpu tctx }).setCtx p
    { tctx with awakeVtime := cappedAwake ro env (k.task p).weight tctx }

theorem taskDl_run (p : Nat) (cpu : Int) (tctx : TaskCtx) (k : Kernel) :
    (taskDl ro env p cpu tctx).run k =
      (settledVtime ro env k p cpu tctx + cappedAwake ro env (k.task p).weight tctx,
        (k.touchAll (pressureQueues ro k.nrCpuIds cpu)).settle ro env p cpu tctx) := by
  simp only [taskDl, run_then, run_getThe, queuePressure_run, run_modifyState, run_done,
    settledVtime, vtimeFloor, Kernel.settle, Kernel.touchAll_task, Kernel.touchAll_vtimeNow]
  rfl

@[simp] theorem settledVtime_touchAll (k : Kernel) (qs : List Nat) (p : Nat) (cpu : Int)
    (tctx : TaskCtx) :
    settledVtime ro env (k.touchAll qs) p cpu tctx = settledVtime ro env k p cpu tctx := by
  have floor : vtimeFloor ro env (k.touchAll qs) p cpu tctx = vtimeFloor ro env k p cpu tctx := rfl
  unfold settledVtime
  rw [floor, Kernel.touchAll_task]

end

end Cognis.Bpf
