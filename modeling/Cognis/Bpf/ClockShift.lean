import Mathlib.Data.BitVec
import Cognis.Bpf.DispatchSteps

/-! The scheduler with every virtual time moved by the same amount. Inserting by virtual
time goes round with the clock, so the messages from user space fill the same queues. -/
namespace Cognis.Bpf
open StateLogic

def TaskStruct.shift (c : U64) (t : TaskStruct) : TaskStruct :=
  { t with dsqVtime := t.dsqVtime + c }

def DispatchedTaskCtx.shift (c : U64) (task : DispatchedTaskCtx) : DispatchedTaskCtx :=
  { task with vtime := task.vtime + c }

def Queues.shift (c : U64) (v : Queues) : Queues :=
  { v with task := fun p => (v.task p).shift c }

/-- The same state with every virtual time `c` later: the clock, the tasks and the
messages on their way from user space. -/
def Kernel.shift (c : U64) (k : Kernel) : Kernel :=
  { k with
    task := fun p => (k.task p).shift c
    ring := k.ring.map (Option.map (DispatchedTaskCtx.shift c))
    vtimeNow := k.vtimeNow + c }

section

variable {c : U64}

theorem Kernel.shift_queues (k : Kernel) : (k.shift c).queues = k.queues.shift c := rfl

theorem timeBefore_shift (a b : U64) : timeBefore (a + c) (b + c) = timeBefore a b := by
  rw [timeBefore, timeBefore, add_sub_add_right_eq_sub]

theorem insertByVtime_shift (vtimeOf : Nat → U64) (p : Nat) (qs : List Nat) :
    insertByVtime (fun r => vtimeOf r + c) p qs = insertByVtime vtimeOf p qs := by
  induction qs with
  | nil => rfl
  | cons q qs ih => simp only [insertByVtime, timeBefore_shift, ih]

theorem withSlice_shift (t : TaskStruct) (slice : U64) :
    (t.shift c).withSlice slice = (t.withSlice slice).shift c := by
  unfold TaskStruct.withSlice
  split <;> rfl

theorem setTask_shift (k : Kernel) (p : Nat) (t : TaskStruct) :
    (k.shift c).setTask p (t.shift c) = (k.setTask p t).shift c := by
  have tasks : Function.update (fun r => (k.task r).shift c) p (t.shift c) =
      fun r => (Function.update k.task p t r).shift c := by
    funext r
    rcases eq_or_ne r p with rfl | other
    · simp
    · simp [other]
  simp only [Kernel.setTask, Kernel.shift, tasks]

theorem dispatchVtime_shift (k : Kernel) (p q : Nat) (slice vtime : U64) :
    (k.shift c).dispatchVtime p q slice (vtime + c) =
      (k.dispatchVtime p q slice vtime).shift c := by
  have stored := setTask_shift (c := c) k p { (k.task p).withSlice slice with dsqVtime := vtime }
  unfold Kernel.dispatchVtime
  split
  · rename_i full
    rw [if_pos (show k.slots = 0 from full)]
    rfl
  · rename_i room
    rw [if_neg (show ¬ k.slots = 0 from room)]
    have task : ({ ((k.shift c).task p).withSlice slice with dsqVtime := vtime + c } : TaskStruct) =
        TaskStruct.shift c { (k.task p).withSlice slice with dsqVtime := vtime } := by
      rw [show (k.shift c).task p = (k.task p).shift c from rfl, withSlice_shift]
      rfl
    rw [task, stored]
    rfl

theorem commit_shift (k : Kernel) (entry : Nat × Nat) :
    (k.shift c).commit entry = (k.commit entry).shift c := by
  have place := insertByVtime_shift (c := c) (fun r => (k.task r).dsqVtime) entry.2 (k.dsq entry.1)
  exact congrArg (fun pids => (k.setDsq entry.1 pids).shift c) place

theorem flush_shift (k : Kernel) : (k.shift c).flush = k.flush.shift c := by
  have commits : k.pending.foldl Kernel.commit (k.shift c) =
      (k.pending.foldl Kernel.commit k).shift c :=
    List.foldl_hom (Kernel.shift c) commit_shift
  exact congrArg (fun s : Kernel => { k.shift c with
    dsq := s.dsq
    pending := []
    slots := k.slots + k.pending.length }) commits

theorem dispatchCancel_shift (k : Kernel) :
    (k.shift c).dispatchCancel = k.dispatchCancel.shift c := by
  cases last : k.pending.getLast? <;> simp [Kernel.dispatchCancel, Kernel.shift, last]

end

section

variable {c : U64} (env : Env)

theorem scxBpfKickCpu_mirrors (cpu : Int) :
    Mirrors (Kernel.shift c) (scxBpfKickCpu cpu) (scxBpfKickCpu cpu) :=
  Mirrors.update fun _ => rfl

theorem countOne_mirrors (f : Counters → Counters) :
    Mirrors (Kernel.shift c) (countOne f) (countOne f) := Mirrors.update fun _ => rfl

theorem scxBpfDispatchVtime_mirrors (p q : Nat) (slice vtime flags : U64) :
    Mirrors (Kernel.shift c) (scxBpfDispatchVtime p q slice vtime flags)
      (scxBpfDispatchVtime p q slice (vtime + c) flags) :=
  Mirrors.update fun k => dispatchVtime_shift k p q slice vtime

theorem tryLookupTaskCtx_mirrors (p : Nat) :
    Mirrors (Kernel.shift c) (tryLookupTaskCtx p) (tryLookupTaskCtx p) :=
  Mirrors.read fun k => Mirrors.pure (k.taskCtx p)

theorem kickTaskCpu_mirrors (p : Nat) (cpu : Int) :
    Mirrors (Kernel.shift c) (kickTaskCpu env p cpu) (kickTaskCpu env p cpu) := by
  apply Mirrors.read
  intro k
  apply Mirrors.ite
  · apply Mirrors.bind (scxBpfKickCpu_mirrors cpu)
    intro _
    apply Mirrors.ite
    · exact Mirrors.pure _
    · exact scxBpfKickCpu_mirrors _
  · exact scxBpfKickCpu_mirrors cpu

theorem dispatchAnywhere_mirrors (task : DispatchedTaskCtx) (prevCpu : Int) :
    Mirrors (Kernel.shift c) (dispatchAnywhere env task prevCpu)
      (dispatchAnywhere env (task.shift c) prevCpu) := by
  apply Mirrors.bind (scxBpfDispatchVtime_mirrors task.pid sharedDsq task.sliceNs task.vtime _)
  intro _
  apply Mirrors.bind (countOne_mirrors _)
  intro _
  exact kickTaskCpu_mirrors env task.pid prevCpu

theorem kickOrCancel_mirrors (task : DispatchedTaskCtx) (cpu : Int) :
    Mirrors (Kernel.shift c) (kickOrCancel task cpu) (kickOrCancel (task.shift c) cpu) := by
  apply Mirrors.bind (tryLookupTaskCtx_mirrors task.pid)
  intro tctx
  apply Mirrors.ite
  · apply Mirrors.bind (x := scxBpfDispatchCancel) (Mirrors.update dispatchCancel_shift)
    intro _
    exact countOne_mirrors _
  · exact scxBpfKickCpu_mirrors cpu

theorem dispatchToCpu_mirrors (task : DispatchedTaskCtx) (prevCpu : Int) :
    Mirrors (Kernel.shift c) (dispatchToCpu task prevCpu)
      (dispatchToCpu (task.shift c) prevCpu) := by
  apply Mirrors.read
  intro k
  apply Mirrors.bind (countOne_mirrors _)
  intro _
  apply Mirrors.bind (scxBpfDispatchVtime_mirrors task.pid _ task.sliceNs task.vtime _)
  intro _
  exact kickOrCancel_mirrors task _

theorem dispatchTask_mirrors (task : DispatchedTaskCtx) :
    Mirrors (Kernel.shift c) (dispatchTask env task) (dispatchTask env (task.shift c)) := by
  apply Mirrors.ite
  · exact Mirrors.pure _
  · apply Mirrors.read
    intro k
    apply Mirrors.ite
    · exact dispatchAnywhere_mirrors env task _
    · exact dispatchToCpu_mirrors task _

theorem handleDispatchedTask_mirrors (sample : Option DispatchedTaskCtx) :
    Mirrors (Kernel.shift c) (handleDispatchedTask env sample)
      (handleDispatchedTask env (sample.map (DispatchedTaskCtx.shift c))) := by
  cases sample with
  | none => exact Mirrors.pure 0
  | some task =>
    apply Mirrors.bind (dispatchTask_mirrors env task)
    intro _
    apply Mirrors.bind (x := scxBpfDispatchNrSlots) (Mirrors.read fun k => Mirrors.pure k.slots)
    intro slots
    exact Mirrors.pure _

theorem drainSamples_mirrors (samples : List (Option DispatchedTaskCtx)) :
    Mirrors (Kernel.shift c) (drainSamples (handleDispatchedTask env) samples)
      (drainSamples (handleDispatchedTask env)
        (samples.map (Option.map (DispatchedTaskCtx.shift c)))) := by
  induction samples with
  | nil => exact Mirrors.pure 0
  | cons sample rest ih =>
    apply Mirrors.bind
    · exact Mirrors.update fun _ => rfl
    intro _
    apply Mirrors.bind (handleDispatchedTask_mirrors env sample)
    intro stop
    apply Mirrors.ite
    · exact Mirrors.pure 1
    · apply Mirrors.bind ih
      intro more
      exact Mirrors.pure _

theorem drainDispatched_mirrors :
    Mirrors (Kernel.shift c) (drainDispatched env) (drainDispatched env) := by
  apply Mirrors.bind
  · exact Mirrors.update fun _ => rfl
  intro _
  apply Mirrors.bind (x := bpfUserRingbufDrain (handleDispatchedTask env))
  · exact Mirrors.read fun k => drainSamples_mirrors env k.ring
  intro _
  exact Mirrors.pure _

theorem drained_shift (k : Kernel) : drained env (k.shift c) = (drained env k).shift c :=
  congrArg Prod.snd (drainDispatched_mirrors env k)

end

end Cognis.Bpf
