import Cognis.Bpf.EnqueueSteps
import Cognis.Bpf.Service
import Cognis.Bpf.Startup

/-! The scheduler as a transition system: callbacks in any order, and between them
whatever the kernel, the tasks and the user-space scheduler do. -/
namespace Cognis.Bpf
open StateLogic Runs

inductive Callback
  | selectCpu (p : Nat) (prevCpu : Int) (wakeFlags : U64)
  | enqueue (p : Nat) (enqFlags : U64)
  | dispatch (cpu : Int) (prev : Option Nat)
  | runnable (p : Nat)
  | running (p : Nat)
  | stopping (p : Nat)
  | enable (p : Nat)
  | initTask (created : Bool) (p : Nat)
  | timer

section

variable (ro : Rodata) (env : Env)

def Callback.exec (k : Kernel) : Callback → Kernel
  | .selectCpu p prevCpu wakeFlags => ((cognisSelectCpu ro env p prevCpu wakeFlags).run k).2
  | .enqueue p enqFlags => ((cognisEnqueue ro env p enqFlags).run k).2
  | .dispatch cpu prev => ((opsDispatch ro env cpu prev).run k).2
  | .runnable p => ((cognisRunnable ro env p).run k).2
  | .running p => ((cognisRunning ro env p).run k).2
  | .stopping p => ((cognisStopping ro env p).run k).2
  | .enable p => ((cognisEnable ro p).run k).2
  | .initTask created p => ((cognisInitTask created p).run k).2
  | .timer => ((userschedTimerFn ro env).run k).2

end

/-- Tasks run, sleep and change their affinity, queues lose tasks, messages arrive
and slots are given back. The program's own variables and the service of each task
stay. -/
inductive World (k : Kernel) : Kernel → Prop
  | change (task : Nat → TaskStruct) (dsq : Nat → List Nat) (pending : List (Nat × Nat))
      (slots : Nat) (ring : List (Option DispatchedTaskCtx)) (nrScheduled : U64) :
      (∀ p, (task p).dsqVtime = (k.task p).dsqVtime) →
      World k { k with task, dsq, pending, slots, ring, nrScheduled }

inductive Label
  | call (c : Callback) (env : Env)
  | world

/-- The timer only ticks while it is armed. -/
inductive Step (ro : Rodata) (k : Kernel) : Label → Kernel → Prop
  | call (c : Callback) (env : Env) (ready : c = .timer → k.timerArmed = true) :
      Step ro k (.call c env) (c.exec ro env k)
  | world {k' : Kernel} : World k k' → Step ro k .world k'

abbrev SystemRun (ro : Rodata) := Run (Step ro)

/-- `cognis_init` returned zero. -/
def Booted (ro : Rodata) (env : Env) (task : Nat → TaskStruct) (k : Kernel) : Prop :=
  (cognisInit ro env).run (Kernel.boot task) = (0, k)

section

variable {ro : Rodata} {env : Env}

theorem Enqueued.steady {p : Nat} {enqFlags : U64} {k k' : Kernel}
    (h : Enqueued ro env p enqFlags k k') :
    Steady k k' ∧ k'.timerArmed = k.timerArmed ∧ k'.lastDispatchAt = k.lastDispatchAt := by
  cases h with
  | skipped _ => exact ⟨.refl k, rfl, rfl⟩
  | usersched kicks _ _ => split <;> exact ⟨⟨rfl, rfl, List.prefix_rfl⟩, rfl, rfl⟩
  | direct => exact ⟨⟨rfl, rfl, List.prefix_rfl⟩, rfl, rfl⟩
  | deferred => exact ⟨⟨rfl, rfl, List.prefix_rfl⟩, rfl, rfl⟩

/-- What an accounting callback on `p` leaves alone. -/
structure Accounted (p : Nat) (k k' : Kernel) : Prop extends Steady k k' where
  timerArmed : k'.timerArmed = k.timerArmed
  lastDispatchAt : k'.lastDispatchAt = k.lastDispatchAt
  inserts : k'.inserts = k.inserts
  counters : k'.counters = k.counters
  touched : k'.touched = k.touched
  others : ∀ q, q ≠ p → k'.taskCtx q = k.taskCtx q
  stored : ∀ q, (k.taskCtx q).isSome = true → (k'.taskCtx q).isSome = true

theorem Accounted.refl (p : Nat) (k : Kernel) : Accounted p k k :=
  ⟨.refl k, rfl, rfl, rfl, rfl, rfl, fun _ _ => rfl, fun _ => id⟩

theorem update_stored (storage : Nat → Option TaskCtx) (p q : Nat) (c : TaskCtx)
    (stored : (storage q).isSome = true) :
    (Function.update storage p (some c) q).isSome = true := by
  by_cases same : q = p
  · rw [same, Function.update_self]
    rfl
  · rwa [Function.update_of_ne same]

theorem cognisRunnable_accounted (p : Nat) (k : Kernel) :
    Accounted p k ((cognisRunnable ro env p).run k).2 := by
  simp only [cognisRunnable, run_then, ↓run_ite, tryLookupTaskCtx, run_getThe, run_done]
  split
  · exact .refl p k
  cases k.taskCtx p with
  | none => exact .refl p k
  | some tctx =>
    exact ⟨⟨rfl, rfl, List.prefix_rfl⟩, rfl, rfl, rfl, rfl, rfl, fun q other =>
      Function.update_of_ne other .., fun q => update_stored _ p q _⟩

theorem cognisRunning_accounted (p : Nat) (k : Kernel) :
    Accounted p k ((cognisRunning ro env p).run k).2 := by
  simp only [cognisRunning, run_then, ↓run_ite, tryLookupTaskCtx, run_getThe, run_done,
    run_modifyState]
  split
  · exact ⟨⟨rfl, rfl, List.prefix_rfl⟩, rfl, rfl, rfl, rfl, rfl, fun _ _ => rfl, fun _ => id⟩
  cases k.taskCtx p with
  | none =>
    exact ⟨⟨rfl, rfl, List.prefix_rfl⟩, rfl, rfl, rfl, rfl, rfl, fun _ _ => rfl, fun _ => id⟩
  | some tctx =>
    simp only [run_then, run_modifyState]
    split <;> exact ⟨⟨rfl, rfl, List.prefix_rfl⟩, rfl, rfl, rfl, rfl, rfl, fun q other =>
      Function.update_of_ne other .., fun q => update_stored _ p q _⟩

theorem cognisStopping_accounted (p : Nat) (k : Kernel) :
    Accounted p k ((cognisStopping ro env p).run k).2 := by
  simp only [cognisStopping, run_then, ↓run_ite, tryLookupTaskCtx, run_getThe, run_done,
    run_modifyState]
  split
  · exact .refl p k
  cases k.taskCtx p with
  | none =>
    exact ⟨⟨rfl, rfl, List.prefix_rfl⟩, rfl, rfl, rfl, rfl, rfl, fun _ _ => rfl, fun _ => id⟩
  | some tctx =>
    exact ⟨⟨rfl, rfl, List.prefix_rfl⟩, rfl, rfl, rfl, rfl, rfl, fun q other =>
      Function.update_of_ne other .., fun q => update_stored _ p q _⟩

theorem cognisEnable_accounted (p : Nat) (k : Kernel) :
    Accounted p k ((cognisEnable ro p).run k).2 :=
  ⟨⟨rfl, rfl, List.prefix_rfl⟩, rfl, rfl, rfl, rfl, rfl, fun _ _ => rfl, fun _ => id⟩

theorem cognisInitTask_accounted (created : Bool) (p : Nat) (k : Kernel) :
    Accounted p k ((cognisInitTask created p).run k).2 := by
  simp only [cognisInitTask, run_then, ↓run_ite, tryLookupTaskCtx, run_getThe, run_done,
    run_modifyState]
  split
  · exact .refl p k
  split
  · exact .refl p k
  · exact ⟨⟨rfl, rfl, List.prefix_rfl⟩, rfl, rfl, rfl, rfl, rfl, fun q other =>
      Function.update_of_ne other .., fun q => update_stored _ p q _⟩

theorem Selected.steady {p : Nat} {k : Kernel} {result : Int × Kernel}
    (h : Selected ro p k result) :
    Steady k result.2 ∧ result.2.timerArmed = k.timerArmed ∧
      result.2.lastDispatchAt = k.lastDispatchAt := by
  cases h with
  | kept _ => exact ⟨.refl k, rfl, rfl⟩
  | placed => exact ⟨⟨rfl, rfl, List.prefix_rfl⟩, rfl, rfl⟩

theorem Enqueued.stored {p : Nat} {enqFlags : U64} {k k' : Kernel}
    (h : Enqueued ro env p enqFlags k k') (q : Nat) (stored : (k.taskCtx q).isSome = true) :
    (k'.taskCtx q).isSome = true := by
  cases h with
  | skipped _ => exact stored
  | usersched kicks _ _ => split <;> exact stored
  | direct => exact stored
  | deferred => exact update_stored _ p q _ stored

theorem Selected.stored {p : Nat} {k : Kernel} {result : Int × Kernel}
    (h : Selected ro p k result) (q : Nat) (stored : (k.taskCtx q).isSome = true) :
    (result.2.taskCtx q).isSome = true := by
  cases h <;> exact stored

theorem exec_steady (c : Callback) (k : Kernel) : Steady k (c.exec ro env k) := by
  cases c with
  | selectCpu p prevCpu wakeFlags =>
    exact (cognisSelectCpu_selected ro env p prevCpu wakeFlags k).steady.1
  | enqueue p enqFlags => exact (cognisEnqueue_enqueued ro env p enqFlags k).steady.1
  | dispatch cpu prev => exact (opsDispatch_unchanged ro env cpu prev k).toSteady
  | runnable p => exact (cognisRunnable_accounted p k).toSteady
  | running p => exact (cognisRunning_accounted p k).toSteady
  | stopping p => exact (cognisStopping_accounted p k).toSteady
  | enable p => exact (cognisEnable_accounted p k).toSteady
  | initTask created p => exact (cognisInitTask_accounted created p k).toSteady
  | timer => exact (userschedTimerFn_unchanged ro env k).1.toSteady

theorem exec_timerArmed {c : Callback} (k : Kernel) (other : c ≠ .timer) :
    (c.exec ro env k).timerArmed = k.timerArmed := by
  cases c with
  | selectCpu p prevCpu wakeFlags =>
    exact (cognisSelectCpu_selected ro env p prevCpu wakeFlags k).steady.2.1
  | enqueue p enqFlags => exact (cognisEnqueue_enqueued ro env p enqFlags k).steady.2.1
  | dispatch cpu prev => exact (opsDispatch_clock ro env cpu prev k).2
  | runnable p => exact (cognisRunnable_accounted p k).timerArmed
  | running p => exact (cognisRunning_accounted p k).timerArmed
  | stopping p => exact (cognisStopping_accounted p k).timerArmed
  | enable p => exact (cognisEnable_accounted p k).timerArmed
  | initTask created p => exact (cognisInitTask_accounted created p k).timerArmed
  | timer => exact absurd rfl other

/-- Only a dispatch stamps `last_dispatch_at`, with its own time. -/
theorem exec_lastDispatchAt (c : Callback) (k : Kernel) :
    (c.exec ro env k).lastDispatchAt = k.lastDispatchAt ∨
      (∃ cpu prev, c = .dispatch cpu prev) ∧ (c.exec ro env k).lastDispatchAt = env.now := by
  cases c with
  | selectCpu p prevCpu wakeFlags =>
    exact .inl (cognisSelectCpu_selected ro env p prevCpu wakeFlags k).steady.2.2
  | enqueue p enqFlags => exact .inl (cognisEnqueue_enqueued ro env p enqFlags k).steady.2.2
  | dispatch cpu prev => exact .inr ⟨⟨cpu, prev, rfl⟩, (opsDispatch_clock ro env cpu prev k).1⟩
  | runnable p => exact .inl (cognisRunnable_accounted p k).lastDispatchAt
  | running p => exact .inl (cognisRunning_accounted p k).lastDispatchAt
  | stopping p => exact .inl (cognisStopping_accounted p k).lastDispatchAt
  | enable p => exact .inl (cognisEnable_accounted p k).lastDispatchAt
  | initTask created p => exact .inl (cognisInitTask_accounted created p k).lastDispatchAt
  | timer => exact .inl (userschedTimerFn_unchanged ro env k).2

theorem exec_stored (c : Callback) (k : Kernel) (p : Nat) (stored : (k.taskCtx p).isSome = true) :
    ((c.exec ro env k).taskCtx p).isSome = true := by
  cases c with
  | selectCpu q prevCpu wakeFlags =>
    exact (cognisSelectCpu_selected ro env q prevCpu wakeFlags k).stored p stored
  | enqueue q enqFlags => exact (cognisEnqueue_enqueued ro env q enqFlags k).stored p stored
  | dispatch cpu prev => exact (opsDispatch_unchanged ro env cpu prev k).taskCtx ▸ stored
  | runnable q => exact (cognisRunnable_accounted q k).stored p stored
  | running q => exact (cognisRunning_accounted q k).stored p stored
  | stopping q => exact (cognisStopping_accounted q k).stored p stored
  | enable q => exact (cognisEnable_accounted q k).stored p stored
  | initTask created q => exact (cognisInitTask_accounted created q k).stored p stored
  | timer => exact (userschedTimerFn_unchanged ro env k).1.taskCtx ▸ stored

theorem World.steady {k k' : Kernel} (h : World k k') : Steady k k' := by
  cases h
  exact ⟨rfl, rfl, List.prefix_rfl⟩

theorem Step.steady {l : Label} {k k' : Kernel} (h : Step ro k l k') : Steady k k' := by
  cases h with
  | call c env _ => exact exec_steady c k
  | world h => exact h.steady

theorem run_stored {ls : List Label} {k k' : Kernel} (run : SystemRun ro k ls k') (p : Nat)
    (stored : (k.taskCtx p).isSome = true) : (k'.taskCtx p).isSome = true := by
  refine run.keeps (I := fun s => (s.taskCtx p).isSome = true) (P := fun _ => True)
    (fun s l t _ step before => ?_) (fun _ _ => trivial) stored
  cases step with
  | call c env _ => exact exec_stored c s p before
  | world h =>
    cases h
    exact before

theorem run_steady {ls : List Label} {k k' : Kernel} (run : SystemRun ro k ls k') : Steady k k' :=
  run.keeps (I := Steady k) (P := fun _ => True)
    (fun _ _ _ _ step before => before.trans step.steady) (fun _ _ => trivial) (.refl k)

theorem booted_run {boot : Env} {task : Nat → TaskStruct} {k : Kernel}
    (booted : Booted ro boot task k) : k = (Kernel.boot task).initialized ro boot := by
  rcases cognisInit_run ro boot (Kernel.boot task) with ⟨_, run⟩ | ⟨_, failed⟩
  · exact (Prod.mk.inj (booted.symm.trans run)).2
  · exact absurd (congrArg Prod.fst booted) failed

/-- A start that succeeds whatever the configuration. -/
theorem booted_busy (ro : Rodata) (task : Nat → TaskStruct) :
    Booted ro (Env.busy 1 0 0) task ((Kernel.boot task).initialized ro (Env.busy 1 0 0)) := by
  rcases cognisInit_run ro (Env.busy 1 0 0) (Kernel.boot task) with ⟨_, run⟩ | ⟨refused, _⟩
  · exact run
  · refine absurd ⟨⟨?_, ?_, ?_⟩, ?_⟩ refused
    · exact (knownDsqs_nodup_iff ro).mpr (by decide)
    · exact fun _ _ => List.not_mem_nil
    · exact fun _ _ => rfl
    · exact fun _ => ⟨rfl, rfl⟩

end

end Cognis.Bpf
