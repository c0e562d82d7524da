import Cognis.Lib.Custody
import Cognis.Bpf.Discipline

/-! `nr_running` against the CPUs: the counter is touched by `ops.running` and
`ops.stopping` only, and these come in pairs on each CPU. -/
namespace Cognis.Bpf
open StateLogic Runs

section

variable (ro : Rodata)

def countsAsRunning (p : Nat) : Bool := !isUserschedTask ro p

/-- CPUs that run a task other than the user-space scheduler. -/
def Machine.busyCpus (m : Machine) : Nat :=
  Custody.occupied (countsAsRunning ro) m.curr m.kernel.nrCpuIds

end

/-- `nr_running` and the virtual clock stay. -/
structure SameAccounts (k k' : Kernel) : Prop where
  nrRunning : k'.nrRunning = k.nrRunning
  vtimeNow : k'.vtimeNow = k.vtimeNow

theorem SameAccounts.trans {k k' k'' : Kernel} (h : SameAccounts k k') (h' : SameAccounts k' k'') :
    SameAccounts k k'' :=
  ⟨h'.nrRunning.trans h.nrRunning, h'.vtimeNow.trans h.vtimeNow⟩

section

variable {ro : Rodata} {env : Env} {n : Nat} {k k' : Kernel}

theorem MessageStep.accounts (step : MessageStep ro n k k') : SameAccounts k k' := by
  cases step with
  | insert p q slice vtime _ =>
    unfold Kernel.dispatchVtime
    split <;> exact ⟨rfl, rfl⟩
  | cancel =>
    unfold Kernel.dispatchCancel
    split <;> exact ⟨rfl, rfl⟩
  | _ => exact ⟨rfl, rfl⟩

theorem DrainStep.accounts {now : U64} (step : DrainStep ro n now k k') : SameAccounts k k' := by
  cases step with
  | message step => exact step.accounts
  | _ => exact ⟨rfl, rfl⟩

theorem dispatch_accounts (cpu : Int) (prev : Option Nat) (k : Kernel) :
    SameAccounts k ((opsDispatch ro env cpu prev).run k).2 := by
  have drains : SameAccounts k (drained env k) :=
    updates_keep (I := SameAccounts k) (fun _ _ step before => before.trans step.accounts)
      (drained_steps ro env k) ⟨rfl, rfl⟩
  refine updates_keep (I := SameAccounts k) (fun _ _ step before => ?_)
    (picked_steps ro env cpu prev k) drains
  cases step <;> exact ⟨before.nrRunning, before.vtimeNow⟩

theorem timer_accounts (k : Kernel) : SameAccounts k ((userschedTimerFn ro env).run k).2 := by
  refine (userschedTimerFn_ticks ro env (I := fun s => SameAccounts k s ∧
    s.nrCpuIds = k.nrCpuIds) (n := k.nrCpuIds) (fun s t step before => ?_)
    (fun _ before => before.2) k ⟨⟨rfl, rfl⟩, rfl⟩).1
  cases step <;> exact ⟨⟨before.1.nrRunning, before.1.vtimeNow⟩, before.2⟩

theorem cognisRunning_nrRunning (p : Nat) (k : Kernel) :
    ((cognisRunning ro env p).run k).2.nrRunning =
      k.nrRunning + BitVec.ofNat 64 (countsAsRunning ro p).toNat := by
  by_cases usersched : isUserschedTask ro p = true
  · simp only [cognisRunning, if_pos usersched, run_then, run_modifyState, run_done]
    rw [countsAsRunning, usersched]
    exact (BitVec.add_zero _).symm
  · simp only [cognisRunning, if_neg usersched, run_then, run_modifyState, tryLookupTaskCtx,
      run_getThe, run_done]
    rw [countsAsRunning, Bool.eq_false_iff.mpr usersched]
    cases k.taskCtx p with
    | none => rfl
    | some tctx =>
      simp only [run_then, run_modifyState]
      split <;> rfl

theorem cognisStopping_nrRunning (p : Nat) (k : Kernel) :
    ((cognisStopping ro env p).run k).2.nrRunning =
      k.nrRunning - BitVec.ofNat 64 (countsAsRunning ro p).toNat := by
  by_cases usersched : isUserschedTask ro p = true
  · simp only [cognisStopping, if_pos usersched, run_done]
    rw [countsAsRunning, usersched]
    exact (BitVec.sub_zero _).symm
  · simp only [cognisStopping, if_neg usersched, run_then, run_modifyState, tryLookupTaskCtx,
      run_getThe, run_done]
    rw [countsAsRunning, Bool.eq_false_iff.mpr usersched]
    cases k.taskCtx p <;> rfl

/-- The other callbacks leave both accounts alone. -/
theorem exec_accounts {c : Callback} (begins : ∀ p, c ≠ .running p) (ends : ∀ p, c ≠ .stopping p)
    (k : Kernel) : SameAccounts k (c.exec ro env k) := by
  cases c with
  | selectCpu p prevCpu wakeFlags =>
    have effect := cognisSelectCpu_selected ro env p prevCpu wakeFlags k
    simp only [Callback.exec]
    generalize (cognisSelectCpu ro env p prevCpu wakeFlags).run k = r at effect
    cases effect <;> exact ⟨rfl, rfl⟩
  | enqueue p enqFlags =>
    have effect := cognisEnqueue_enqueued ro env p enqFlags k
    simp only [Callback.exec]
    generalize ((cognisEnqueue ro env p enqFlags).run k).2 = r at effect
    cases effect with
    | usersched kicks _ _ => split <;> exact ⟨rfl, rfl⟩
    | _ => exact ⟨rfl, rfl⟩
  | dispatch cpu prev => exact dispatch_accounts cpu prev k
  | runnable p =>
    simp only [Callback.exec, cognisRunnable, run_then, ↓run_ite, tryLookupTaskCtx, run_getThe,
      run_done]
    split
    · exact ⟨rfl, rfl⟩
    · cases k.taskCtx p <;> exact ⟨rfl, rfl⟩
  | running p => exact absurd rfl (begins p)
  | stopping p => exact absurd rfl (ends p)
  | enable p => exact ⟨rfl, rfl⟩
  | initTask created p =>
    simp only [Callback.exec, cognisInitTask, run_then, ↓run_ite, tryLookupTaskCtx, run_getThe,
      run_done, run_modifyState]
    split
    · exact ⟨rfl, rfl⟩
    · split <;> exact ⟨rfl, rfl⟩
  | timer => exact timer_accounts k

end

/-- The counter agrees with the CPUs, and only existing CPUs run a task. -/
structure Counted (ro : Rodata) (m : Machine) : Prop where
  count : m.kernel.nrRunning = BitVec.ofNat 64 (m.busyCpus ro)
  inside : ∀ cpu p, m.curr cpu = some p → cpu < m.kernel.nrCpuIds

section

variable {ro : Rodata} {m m' : Machine}

/-- The CPU `cpu` takes up `p`. -/
theorem Counted.begin {k : Kernel} {cpu p : Nat} (counted : Counted ro m)
    (cpus : k.nrCpuIds = m.kernel.nrCpuIds) (below : cpu < m.kernel.nrCpuIds)
    (free : m.curr cpu = none)
    (grown : k.nrRunning = m.kernel.nrRunning + BitVec.ofNat 64 (countsAsRunning ro p).toNat)
    (stage : Nat → Stage) : Counted ro ⟨k, stage, Function.update m.curr cpu (some p)⟩ := by
  have change := Custody.occupied_update (countsAsRunning ro) m.curr below (some p)
  rw [free, Option.any_none, Bool.toNat_false, Nat.add_zero, Option.any_some] at change
  constructor
  · rw [grown, counted.count, ← BitVec.ofNat_add, Machine.busyCpus, Machine.busyCpus]
    exact congrArg (BitVec.ofNat 64) (cpus ▸ change.symm)
  · intro c r runs
    by_cases same : c = cpu
    · exact cpus.symm ▸ same.symm ▸ below
    · have runs : Function.update m.curr cpu (some p) c = some r := runs
      rw [Function.update_of_ne same] at runs
      exact cpus ▸ counted.inside c r runs

/-- The CPU `cpu` gives up `p`. -/
theorem Counted.finish {k : Kernel} {cpu p : Nat} (counted : Counted ro m)
    (cpus : k.nrCpuIds = m.kernel.nrCpuIds) (runs : m.curr cpu = some p)
    (shrunk : k.nrRunning = m.kernel.nrRunning - BitVec.ofNat 64 (countsAsRunning ro p).toNat)
    (stage : Nat → Stage) : Counted ro ⟨k, stage, Function.update m.curr cpu none⟩ := by
  have below := counted.inside cpu p runs
  have change := Custody.occupied_update (countsAsRunning ro) m.curr below none
  rw [runs, Option.any_none, Bool.toNat_false, Nat.add_zero, Option.any_some] at change
  constructor
  · rw [shrunk, counted.count, Machine.busyCpus, ← change, BitVec.ofNat_add, BitVec.add_sub_cancel,
      Machine.busyCpus, cpus]
  · intro c r runs
    have runs : Function.update m.curr cpu none c = some r := runs
    by_cases same : c = cpu
    · rw [same, Function.update_self] at runs
      cases runs
    · rw [Function.update_of_ne same] at runs
      exact cpus ▸ counted.inside c r runs

theorem Counted.keep (counted : Counted ro m) (curr : m'.curr = m.curr)
    (cpus : m'.kernel.nrCpuIds = m.kernel.nrCpuIds)
    (same : m'.kernel.nrRunning = m.kernel.nrRunning) : Counted ro m' := by
  refine ⟨?_, fun cpu p runs => cpus ▸ counted.inside cpu p (curr ▸ runs)⟩
  rw [same, counted.count, Machine.busyCpus, Machine.busyCpus, cpus, curr]

theorem Counted.step {e : Event} (counted : Counted ro m) (step : Disciplined ro m e m') :
    Counted ro m' := by
  have quietly : ∀ (env : Env) (c : Callback) (stage : Nat → Stage), (∀ p, c ≠ .running p) →
      (∀ p, c ≠ .stopping p) → Counted ro ⟨c.exec ro env m.kernel, stage, m.curr⟩ :=
    fun env c stage begins ends =>
      counted.keep rfl (exec_steady c m.kernel).nrCpuIds
        (exec_accounts begins ends m.kernel).nrRunning
  cases step with
  | join p created k absent other run =>
    have result : (Callback.initTask created p).exec ro (Env.busy 1 0 0) m.kernel = k :=
      congrArg Prod.snd run
    exact result ▸ quietly (Env.busy 1 0 0) (.initTask created p) _ (by simp) (by simp)
  | enable p env _ => exact quietly env (.enable p) _ (by simp) (by simp)
  | leave p away => refine counted.keep ?_ ?_ ?_ <;> rfl
  | select p prevCpu wakeFlags env away =>
    exact quietly env (.selectCpu p prevCpu wakeFlags) _ (by simp) (by simp)
  | wake p away => refine counted.keep ?_ ?_ ?_ <;> rfl
  | runnable p env => exact quietly env (.runnable p) _ (by simp) (by simp)
  | enqueue p enqFlags env ready => exact quietly env (.enqueue p enqFlags) _ (by simp) (by simp)
  | place p cpu ready => refine counted.keep ?_ ?_ ?_ <;> rfl
  | dispatch cpu prev env => exact quietly env (.dispatch cpu prev) _ (by simp) (by simp)
  | pick cpu p env below free member =>
    exact counted.begin (exec_steady (.running p) (m.take (localOn cpu) p).kernel).nrCpuIds below
      free (cognisRunning_nrRunning p (m.take (localOn cpu) p).kernel) _
  | stop cpu p sleeps env runs =>
    exact counted.finish (exec_steady (.stopping p) m.kernel).nrCpuIds runs
      (cognisStopping_nrRunning p m.kernel) _
  | putBack cpu p env runs =>
    have steady : Steady m.kernel ((Callback.stopping p).exec ro env m.kernel) :=
      exec_steady (.stopping p) m.kernel
    have stopped := counted.finish steady.nrCpuIds runs (cognisStopping_nrRunning p m.kernel)
      (Function.update m.stage p .waiting)
    refine stopped.keep ?_ ?_ ?_ <;> rfl
  | withdraw q p sleeps member => refine counted.keep ?_ ?_ ?_ <;> rfl
  | timer env _ => exact quietly env .timer _ (by simp) (by simp)
  | world task slots nrScheduled _ => refine counted.keep ?_ ?_ ?_ <;> rfl

theorem Counted.start {boot : Env} {task : Nat → TaskStruct} {k : Kernel}
    (booted : Booted ro boot task k) : Counted ro (.start k) := by
  rw [booted_run booted]
  refine ⟨?_, fun cpu p runs => by cases runs⟩
  have idle : Machine.busyCpus ro (.start ((Kernel.boot task).initialized ro boot)) = 0 :=
    List.countP_eq_zero.mpr fun _ _ => Bool.false_ne_true
  rw [idle]
  rfl

/-- In every disciplined run `nr_running` is the number of CPUs that run a task other than
the user-space scheduler; it never exceeds the number of CPUs and never wraps below zero. -/
theorem nrRunning_counts_cpus {boot : Env} {task : Nat → TaskStruct} {k : Kernel}
    {es : List Event} (booted : Booted ro boot task k) (run : DisciplinedRun ro (.start k) es m) :
    m.kernel.nrRunning = BitVec.ofNat 64 (m.busyCpus ro) ∧ m.busyCpus ro ≤ m.kernel.nrCpuIds := by
  have counted := run.keeps (I := Counted ro) (P := fun _ => True)
    (fun _ _ _ _ step before => before.step step) (fun _ _ => trivial) (.start booted)
  exact ⟨counted.count, Custody.occupied_le _ _ _⟩

/-- Task 7 is admitted, wakes up, is placed and runs. -/
theorem pickedTask_counted :
    ∃ m, DisciplinedRun (Rodata.kernelOnly .flat) .oneCpu
      [.join 7 true, .wake 7, .place 7 0, .pick 0 7 (Env.busy 1 0 0)] m ∧
    m.kernel.nrRunning = BitVec.ofNat 64 (m.busyCpus (Rodata.kernelOnly .flat)) ∧
    m.busyCpus (Rodata.kernelOnly .flat) ≤ m.kernel.nrCpuIds := by
  have run : DisciplinedRun (Rodata.kernelOnly .flat) .oneCpu
      [.join 7 true, .wake 7, .place 7 0, .pick 0 7 (Env.busy 1 0 0)] _ :=
    .cons (.join 7 true _ rfl (by decide) rfl) <| .cons (.wake 7 rfl) <|
      .cons (.place 7 0 rfl) <| .cons (.pick 0 7 (Env.busy 1 0 0) (by decide) rfl
        (List.mem_append_right _ List.mem_cons_self)) (.nil _)
  exact ⟨_, run, nrRunning_counts_cpus (booted_busy _ _) run⟩

end

end Cognis.Bpf
