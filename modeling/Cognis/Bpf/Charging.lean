import Cognis.Bpf.System

/-! How much a task is charged for one stay on a CPU. The start is remembered twice,
on two clocks, and `ops.stopping` reads only one of them. -/
namespace Cognis.Bpf
open StateLogic Runs

section

variable {ro : Rodata} {env : Env} {p : Nat}

def stamps (p : Nat) (k : Kernel) : Option (U64 × U64) :=
  (k.taskCtx p).map fun c => (c.startTs, c.lastRunAt)

theorem cognisRunning_stamps {k : Kernel} (other : isUserschedTask ro p = false)
    (stored : (k.taskCtx p).isSome = true) :
    stamps p ((cognisRunning ro env p).run k).2 = some (env.now, env.ktime) := by
  obtain ⟨tctx, storage⟩ := Option.isSome_iff_exists.mp stored
  simp only [cognisRunning, run_then, tryLookupTaskCtx, run_getThe, run_done,
    run_modifyState, other, Bool.false_eq_true, if_false, storage]
  split <;> simp [stamps, Kernel.setCtx]

/-- The state after `ops.stopping` of a task with storage. -/
def Kernel.charged (k : Kernel) (env : Env) (p : Nat) (tctx : TaskCtx) : Kernel :=
  let slice := stoppingSlice env tctx
  let t := k.task p
  let deltaVtime := env.scaleByTaskWeightInverse t.weight slice
  ({ k with nrRunning := k.nrRunning - 1 }.setTask p { t with
      dsqVtime := t.dsqVtime + deltaVtime }).setCtx p { tctx with
    stopTs := env.now
    execRuntime := tctx.execRuntime + (env.now - tctx.startTs)
    avgRuntime := calcAvg tctx.avgRuntime slice
    awakeVtime := tctx.awakeVtime + deltaVtime }

theorem cognisStopping_run {k : Kernel} {tctx : TaskCtx} (other : isUserschedTask ro p = false)
    (storage : k.taskCtx p = some tctx) :
    ((cognisStopping ro env p).run k).2 = k.charged env p tctx := by
  simp only [cognisStopping, run_then, tryLookupTaskCtx, run_getThe, run_done,
    run_modifyState, other, Bool.false_eq_true, if_false, storage]
  rfl

/-- What a callback may do to the storage of `p`. -/
inductive CtxStep (env : Env) (p : Nat) (tctx : TaskCtx) : Callback → TaskCtx → Prop
  | kept (c : Callback) : CtxStep env p tctx c tctx
  | deferred (enqFlags awakeVtime : U64) :
      CtxStep env p tctx (.enqueue p enqFlags) { tctx with awakeVtime := awakeVtime }
  | woken (wakeupFreq : U64) :
      CtxStep env p tctx (.runnable p) { tctx with
        execRuntime := 0
        awakeVtime := 0
        wakeupFreq := wakeupFreq
        lastWokeAt := env.ktime }
  | started :
      CtxStep env p tctx (.running p) { tctx with startTs := env.now, lastRunAt := env.ktime }
  | stopped (awakeVtime : U64) :
      CtxStep env p tctx (.stopping p) { tctx with
        stopTs := env.now
        execRuntime := tctx.execRuntime + (env.now - tctx.startTs)
        avgRuntime := calcAvg tctx.avgRuntime (stoppingSlice env tctx)
        awakeVtime := awakeVtime }

theorem ctxStep_kept {tctx : TaskCtx} {c : Callback} {k k' : Kernel}
    (storage : k.taskCtx p = some tctx) (same : k'.taskCtx p = k.taskCtx p) :
    ∃ tctx', k'.taskCtx p = some tctx' ∧ CtxStep env p tctx c tctx' :=
  ⟨tctx, same.trans storage, .kept c⟩

theorem Enqueued.ctx {q : Nat} {enqFlags : U64} {k k' : Kernel} {tctx : TaskCtx}
    (h : Enqueued ro env q enqFlags k k') (storage : k.taskCtx p = some tctx) :
    ∃ tctx', k'.taskCtx p = some tctx' ∧ CtxStep env p tctx (.enqueue q enqFlags) tctx' := by
  cases h with
  | skipped _ => exact ctxStep_kept storage rfl
  | usersched kicks _ _ => split <;> exact ctxStep_kept storage rfl
  | direct => exact ctxStep_kept storage rfl
  | deferred old qs target slice kicks found =>
    rcases eq_or_ne p q with rfl | other
    · cases Option.some.inj (storage.symm.trans found)
      exact ⟨_, Function.update_self .., .deferred enqFlags _⟩
    · exact ctxStep_kept storage (Function.update_of_ne other ..)

variable (ro env) in
/-- The storage of `p` changes only in the callbacks on `p`, each in its own fields. -/
theorem exec_ctx (c : Callback) {k : Kernel} {tctx : TaskCtx} (storage : k.taskCtx p = some tctx) :
    ∃ tctx', (c.exec ro env k).taskCtx p = some tctx' ∧ CtxStep env p tctx c tctx' := by
  cases c with
  | selectCpu q prevCpu wakeFlags =>
    have effect := cognisSelectCpu_selected ro env q prevCpu wakeFlags k
    simp only [Callback.exec]
    generalize (cognisSelectCpu ro env q prevCpu wakeFlags).run k = result at effect ⊢
    cases effect <;> exact ctxStep_kept storage rfl
  | enqueue q enqFlags => exact (cognisEnqueue_enqueued ro env q enqFlags k).ctx storage
  | dispatch cpu prev =>
    exact ctxStep_kept storage (congrFun (opsDispatch_unchanged ro env cpu prev k).taskCtx p)
  | runnable q =>
    rcases eq_or_ne p q with rfl | other
    · simp only [Callback.exec, cognisRunnable, run_then, ↓run_ite, tryLookupTaskCtx, run_getThe,
        run_done, storage]
      split
      · exact ctxStep_kept storage rfl
      · exact ⟨_, Function.update_self .., .woken _⟩
    · exact ctxStep_kept storage ((cognisRunnable_accounted q k).others p other)
  | running q =>
    rcases eq_or_ne p q with rfl | other
    · simp only [Callback.exec, cognisRunning, run_then, ↓run_ite, tryLookupTaskCtx, run_getThe,
        run_done, run_modifyState, storage]
      split
      · exact ctxStep_kept storage rfl
      · split <;> exact ⟨_, Function.update_self .., .started⟩
    · exact ctxStep_kept storage ((cognisRunning_accounted q k).others p other)
  | stopping q =>
    rcases eq_or_ne p q with rfl | other
    · by_cases usersched : isUserschedTask ro p = true
      · refine ctxStep_kept storage ?_
        simp only [Callback.exec, cognisStopping, usersched, if_true, run_done]
      · rw [Callback.exec, cognisStopping_run (Bool.eq_false_iff.mpr usersched) storage]
        exact ⟨_, Function.update_self .., .stopped _⟩
    · exact ctxStep_kept storage ((cognisStopping_accounted q k).others p other)
  | enable q => exact ctxStep_kept storage rfl
  | initTask created q =>
    refine ctxStep_kept storage ?_
    rcases eq_or_ne p q with rfl | other
    · simp only [Callback.exec, cognisInitTask, run_then, ↓run_ite, tryLookupTaskCtx, run_getThe,
        run_done, storage, Option.isSome_some, if_true]
    · exact (cognisInitTask_accounted created q k).others p other
  | timer => exact ctxStep_kept storage (congrFun (userschedTimerFn_unchanged ro env k).1.taskCtx p)

/-- Only `ops.running` of the task writes its time stamps. -/
theorem exec_stamps {c : Callback} (k : Kernel) (other : c ≠ .running p)
    (stored : (k.taskCtx p).isSome = true) : stamps p (c.exec ro env k) = stamps p k := by
  obtain ⟨tctx, storage⟩ := Option.isSome_iff_exists.mp stored
  obtain ⟨tctx', storage', step⟩ := exec_ctx ro env c storage
  rw [stamps, stamps, storage, storage']
  cases step with
  | started => exact absurd rfl other
  | _ => rfl

theorem run_stamps {ls : List Label} {k k' : Kernel} (run : SystemRun ro k ls k')
    (stays : ∀ env, .call (.running p) env ∉ ls) (stored : (k.taskCtx p).isSome = true) :
    stamps p k' = stamps p k := by
  refine (run.keeps (I := fun s => (s.taskCtx p).isSome = true ∧ stamps p s = stamps p k)
    (P := fun l => ∀ env, l ≠ .call (.running p) env) (fun s l t other step before => ?_)
    (fun l member env same => stays env (same ▸ member)) ⟨stored, rfl⟩).2
  cases step with
  | call c env _ =>
    have ne : c ≠ .running p := fun same => other env (same ▸ rfl)
    exact ⟨exec_stored c s p before.1, (exec_stamps s ne before.1).trans before.2⟩
  | world h =>
    cases h
    exact before

/-- `ops.stopping` at `envStop` charges the time since `ops.running` at `envRun`: the
slice that it folds into the three accumulators is the on-CPU time it adds to
`exec_runtime`, and that difference does not wrap. -/
def ChargedExactly (envRun envStop : Env) (p : Nat) (k k' : Kernel) : Prop :=
  ∃ tctx, k.taskCtx p = some tctx ∧ k' = k.charged envStop p tctx ∧
    stoppingSlice envStop tctx = envStop.now - tctx.startTs ∧
    (stoppingSlice envStop tctx).toNat = envStop.now.toNat - envRun.now.toNat

/-- Whatever happens between the two callbacks, the charge is exact exactly when the
two clocks agree at the first of them. -/
theorem charged_exactly_iff (ro : Rodata) (envRun envStop : Env) (p : Nat) (k₀ k₁ k₂ k₃ : Kernel)
    (ls : List Label) (other : isUserschedTask ro p = false)
    (stored : (k₀.taskCtx p).isSome = true)
    (running : Step ro k₀ (.call (.running p) envRun) k₁) (between : SystemRun ro k₁ ls k₂)
    (matching : ∀ env, .call (.running p) env ∉ ls)
    (stopping : Step ro k₂ (.call (.stopping p) envStop) k₃)
    (clock : envRun.now.toNat ≤ envStop.now.toNat) :
    ChargedExactly envRun envStop p k₂ k₃ ↔ envRun.ktime = envRun.now := by
  cases running
  cases stopping
  have begun : stamps p k₂ = some (envRun.now, envRun.ktime) :=
    (run_stamps between matching (exec_stored (.running p) k₀ p stored)).trans
      (cognisRunning_stamps other stored)
  obtain ⟨tctx, storage, times⟩ := Option.map_eq_some_iff.mp begun
  obtain ⟨start, lastRun⟩ := Prod.mk.inj times
  have charge : ((cognisStopping ro envStop p).run k₂).2 = k₂.charged envStop p tctx :=
    cognisStopping_run other storage
  have slice : stoppingSlice envStop tctx = envStop.now - envRun.ktime := by
    rw [stoppingSlice, lastRun]
  constructor
  · rintro ⟨tctx', found, _, exact_, _⟩
    cases Option.some.inj (found.symm.trans storage)
    rw [slice, start] at exact_
    exact (BitVec.sub_right_inj _).mp exact_
  · intro agree
    refine ⟨tctx, storage, charge, by rw [slice, start, agree], ?_⟩
    rw [slice, agree, BitVec.toNat_sub]
    omega

end

def oneTask : Kernel :=
  { (Kernel.boot fun _ => .waiting (fun _ => true) 0).setCtx 1 {} with nrCpuIds := 1 }

theorem charged_exactly_same_clock :
    ChargedExactly (Env.busy 1 1000 0) (Env.busy 1 3000 0) 1
        (Callback.exec (.kernelOnly .flat) (Env.busy 1 1000 0) oneTask (.running 1))
        (Callback.exec (.kernelOnly .flat) (Env.busy 1 3000 0)
          (Callback.exec (.kernelOnly .flat) (Env.busy 1 1000 0) oneTask (.running 1))
          (.stopping 1)) ↔
      (Env.busy 1 1000 0).ktime = (Env.busy 1 1000 0).now :=
  charged_exactly_iff (.kernelOnly .flat) _ _ 1 oneTask _ _ _ [] rfl rfl
    (.call _ _ (fun h => nomatch h)) (.nil _) (fun _ member => nomatch member)
    (.call _ _ (fun h => nomatch h)) (by decide)

/-- The clocks are 5000 ns apart: 2000 ns on the CPU are charged as `2 ^ 64 - 3000`. -/
theorem offset_clock_wraps :
    ∃ k₁ k₂, Step (.kernelOnly .flat) oneTask (.call (.running 1) (Env.busy 1 1000 5000)) k₁ ∧
      Step (.kernelOnly .flat) k₁ (.call (.stopping 1) (Env.busy 1 3000 5000)) k₂ ∧
      ¬ ChargedExactly (Env.busy 1 1000 5000) (Env.busy 1 3000 5000) 1 k₁ k₂ := by
  refine ⟨_, _, .call _ _ (fun h => nomatch h), .call _ _ (fun h => nomatch h), ?_⟩
  rintro ⟨tctx, storage, _, _, slice⟩
  have lastRun : tctx.lastRunAt = 6000 := by
    cases Option.some.inj storage
    rfl
  rw [stoppingSlice, lastRun] at slice
  exact absurd slice (by decide)

end Cognis.Bpf
