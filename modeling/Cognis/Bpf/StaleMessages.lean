import Cognis.Bpf.Dispatch

/-! What becomes of a message about a task that was dequeued and enqueued again after the
user-space scheduler chose it. -/
namespace Cognis.Bpf
open StateLogic

/-- An insertion of `p` waits to be committed. -/
def Kernel.Pending (k : Kernel) (p : Nat) : Prop := ∃ q, (q, p) ∈ k.pending

/-- The task was enqueued again since the message was made, or its context is gone. -/
def Stale (task : DispatchedTaskCtx) (k : Kernel) : Prop :=
  ∀ tctx, k.taskCtx task.pid = some tctx → tctx.enqCnt > task.enqCnt

/-- Only a message that names a CPU is withdrawn, and it takes the latest insertion with it,
which is an older one where the buffer had no slot. -/
def Withdrawable (task : DispatchedTaskCtx) (k : Kernel) : Prop :=
  if task.cpu = rlCpuAny then k.slots = 0 ∧ ¬ k.Pending task.pid
  else ∀ e ∈ if k.slots = 0 then k.pending.dropLast else k.pending, e.2 ≠ task.pid

section

variable {env : Env} {task : DispatchedTaskCtx} {k : Kernel} {p : Nat}

theorem Kernel.pending_iff : k.Pending p ↔ ∃ e ∈ k.pending, e.2 = p := by
  constructor
  · rintro ⟨q, member⟩
    exact ⟨(q, p), member, rfl⟩
  · rintro ⟨⟨q, _⟩, member, rfl⟩
    exact ⟨q, member⟩

theorem Kernel.dispatchVtime_pending (k : Kernel) (p q : Nat) (slice vtime : U64) :
    (k.dispatchVtime p q slice vtime).pending =
      if k.slots = 0 then k.pending else k.pending ++ [(q, p)] := by
  unfold Kernel.dispatchVtime
  split <;> rfl

theorem Kernel.dispatchVtime_taskCtx (k : Kernel) (p q : Nat) (slice vtime : U64) :
    (k.dispatchVtime p q slice vtime).taskCtx = k.taskCtx := by
  unfold Kernel.dispatchVtime
  split <;> rfl

theorem Kernel.dispatchCancel_pending (k : Kernel) :
    k.dispatchCancel.pending = k.pending.dropLast := by
  unfold Kernel.dispatchCancel
  cases last : k.pending.getLast? with
  | none =>
    have empty : k.pending = [] := List.getLast?_eq_none_iff.mp last
    rw [empty, List.dropLast_nil]
  | some e => rfl

theorem kickTaskCpu_pending {pending : List (Nat × Nat)} (p : Nat) (cpu : Int) :
    Keeps (fun s => s.pending = pending) (kickTaskCpu env p cpu) := by
  apply kickTaskCpu_keeps
  intro c
  exact Keeps.update fun _ start => start

theorem dispatchAnywhere_pending (task : DispatchedTaskCtx) (prevCpu : Int) (k : Kernel) :
    ((dispatchAnywhere env task prevCpu).run k).2.pending =
      if k.slots = 0 then k.pending else k.pending ++ [(sharedDsq, task.pid)] := by
  simp only [dispatchAnywhere, scxBpfDispatchVtime, countOne, run_then, run_modifyState]
  apply kickTaskCpu_pending
  exact k.dispatchVtime_pending ..

/-- The generations decide, whatever CPU the message is for. -/
theorem kickOrCancel_pending (stale : Stale task k) (cpu : Int) :
    ((kickOrCancel task cpu).run k).2.pending = k.pending.dropLast := by
  have old : (k.taskCtx task.pid).all (fun c => decide (c.enqCnt > task.enqCnt)) = true := by
    rw [Option.all_eq_true]
    intro tctx found
    exact decide_eq_true (stale tctx found)
  simp only [kickOrCancel, tryLookupTaskCtx, run_then, run_getThe, run_done, old, if_true,
    scxBpfDispatchCancel, countOne, run_modifyState]
  exact k.dispatchCancel_pending

theorem dispatchToCpu_pending (stale : Stale task k) (prevCpu : Int) :
    ((dispatchToCpu task prevCpu).run k).2.pending =
      if k.slots = 0 then k.pending.dropLast else k.pending := by
  simp only [dispatchToCpu, scxBpfDispatchVtime, countOne, run_then, run_getThe, run_modifyState]
  rw [kickOrCancel_pending]
  · rw [Kernel.dispatchVtime_pending]
    change List.dropLast (if k.slots = 0 then k.pending else k.pending ++ [_]) = _
    split
    · rfl
    · exact List.dropLast_concat
  · intro tctx found
    rw [Kernel.dispatchVtime_taskCtx] at found
    exact stale tctx found

theorem dispatchTask_live (live : env.taskFromPid task.pid = true) (k : Kernel) :
    (dispatchTask env task).run k =
      if task.cpu = rlCpuAny then (dispatchAnywhere env task (k.task task.pid).cpu).run k
      else (dispatchToCpu task (k.task task.pid).cpu).run k := by
  simp only [dispatchTask, live, Bool.not_true, Bool.false_eq_true, if_false, run_then, run_getThe,
    run_ite]

/-- A stale message that names a CPU leaves no insertion of the task behind, one for any CPU
leaves its own wherever there is a slot. -/
theorem stale_message_withdrawn_iff (live : env.taskFromPid task.pid = true)
    (stale : Stale task k) :
    ¬ ((dispatchTask env task).run k).2.Pending task.pid ↔ Withdrawable task k := by
  rw [dispatchTask_live live, Withdrawable, Kernel.pending_iff]
  split
  · rw [dispatchAnywhere_pending, Kernel.pending_iff]
    split
    · rename_i full
      rw [and_iff_right full]
    · rename_i free
      apply iff_of_false
      · rw [not_not]
        exact ⟨_, List.mem_append_right _ (List.mem_singleton_self _), rfl⟩
      · rintro ⟨full, _⟩
        exact free full
  · rw [dispatchToCpu_pending stale]
    simp only [not_exists, not_and, ne_eq]

end

/-- The task was enqueued a second time, and the message is about the first. -/
def enqueuedAgain : Kernel :=
  { (Kernel.boot fun _ => .waiting (fun _ => true) 0).setCtx 7 { enqCnt := 2 } with slots := 4 }

def staleMessage (cpu : Int) : DispatchedTaskCtx :=
  { pid := 7, cpu := cpu, flags := 0, sliceNs := 1000000, vtime := 0, enqCnt := 1 }

theorem staleMessage_stale (cpu : Int) : Stale (staleMessage cpu) enqueuedAgain := by
  intro tctx found
  have same : ({ enqCnt := 2 } : TaskCtx) = tctx := by
    simpa [enqueuedAgain, staleMessage, Kernel.setCtx] using found
  rw [← same]
  show (1 : U64) < 2
  decide

theorem stale_message_withdrawn_iff_named :
    ¬ ((dispatchTask (Env.busy 1 0 0) (staleMessage 0)).run enqueuedAgain).2.Pending 7 := by
  apply (stale_message_withdrawn_iff rfl (staleMessage_stale 0)).mpr
  intro e member
  exact absurd member List.not_mem_nil

theorem stale_message_takes_effect :
    Stale (staleMessage rlCpuAny) enqueuedAgain ∧
      ((dispatchTask (Env.busy 1 0 0) (staleMessage rlCpuAny)).run enqueuedAgain).2.pending =
        [(sharedDsq, 7)] ∧
      ((dispatchTask (Env.busy 1 0 0) (staleMessage rlCpuAny)).run enqueuedAgain).2.Pending 7 := by
  have pending : ((dispatchTask (Env.busy 1 0 0) (staleMessage rlCpuAny)).run
      enqueuedAgain).2.pending = [(sharedDsq, 7)] := rfl
  refine ⟨staleMessage_stale rlCpuAny, pending, sharedDsq, ?_⟩
  rw [pending]
  exact List.mem_singleton_self _

end Cognis.Bpf
