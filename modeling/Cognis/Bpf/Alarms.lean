import Cognis.Bpf.ProgressGuard

/-! When the dispatch-progress guard asks for an unload: only at a tick that finds waiting
tasks more than four seconds after the latest dispatch, and once at most. -/
namespace Cognis.Bpf
open StateLogic Runs

def ScxExit.guardDelta : ScxExit → Option U64
  | .dispatchProgress delta => some delta
  | _ => none

/-- The requests of the guard among the requests to exit. -/
def Kernel.alarms (k : Kernel) : List U64 := k.exits.filterMap ScxExit.guardDelta

section

variable {ro : Rodata} {env : Env} {n : Nat} {k k' : Kernel}

theorem alarms_exit (reason : ScxExit) (other : reason.guardDelta = none) :
    Kernel.alarms { k with exits := k.exits ++ [reason] } = k.alarms := by
  simp [Kernel.alarms, other]

theorem MessageStep.alarms (step : MessageStep ro n k k') : k'.alarms = k.alarms := by
  cases step with
  | insert p q slice vtime _ =>
    unfold Kernel.dispatchVtime
    split
    · exact alarms_exit (k := k) .dispatchBufferOverflow rfl
    · rfl
  | cancel =>
    unfold Kernel.dispatchCancel
    split <;> rfl
  | _ => rfl

theorem DrainStep.alarms {now : U64} (step : DrainStep ro n now k k') : k'.alarms = k.alarms := by
  cases step with
  | message step => exact step.alarms
  | _ => rfl

theorem dispatch_alarms (cpu : Int) (prev : Option Nat) (k : Kernel) :
    ((opsDispatch ro env cpu prev).run k).2.alarms = k.alarms := by
  have drains : (drained env k).alarms = k.alarms :=
    updates_keep (I := fun s => s.alarms = k.alarms)
      (fun _ _ step before => step.alarms.trans before) (drained_steps ro env k) rfl
  refine updates_keep (I := fun s => s.alarms = k.alarms) (fun _ _ step before => ?_)
    (picked_steps ro env cpu prev k) drains
  cases step <;> exact before

theorem wakeUsersched_alarms (alarms : List U64) :
    Keeps (fun s => s.alarms = alarms) (wakeUsersched ro env) := by
  apply Keeps.bind Keeps.get
  intro s
  split
  · split
    · exact Keeps.bind (Keeps.update fun _ before => before) fun _ =>
        Keeps.bind Keeps.get fun _ => Keeps.update fun _ before => before
    · exact Keeps.pure _
  · exact Keeps.pure _

theorem rearm_alarms (alarms : List U64) : Keeps (fun s => s.alarms = alarms) (rearm env) := by
  intro s start
  by_cases starts : env.timerStart = 0
  · have run : ((rearm env).run s).2 = { s with timerArmed := true } := by
      simp [rearm, bpfTimerStart, starts]
    exact run ▸ start
  · have run : ((rearm env).run s).2 = { s with exits := s.exits ++ [.armStatsTimer] } := by
      simp [rearm, bpfTimerStart, starts, scxBpfError]
    rw [run]
    exact (alarms_exit .armStatsTimer rfl).trans start

/-- A tick at which the guard is not due asks for nothing. -/
theorem timer_silent (early : ¬ GuardDue ro env k) :
    ((userschedTimerFn ro env).run k).2.alarms = k.alarms := by
  obtain ⟨asked, _, ⟨due, _⟩ | ⟨_, run⟩⟩ :=
    dispatchProgressGuard_run ro env { k with timerArmed := false }
  · exact absurd due early
  · have start : (Kernel.touchAll { k with timerArmed := false } asked).alarms = k.alarms := rfl
    simp only [userschedTimerFn, run_then, run_modifyState, run, Bool.false_eq_true, if_false]
    split
    · exact Keeps.bind (wakeUsersched_alarms k.alarms) (fun _ => rearm_alarms k.alarms) _ start
    · exact rearm_alarms k.alarms _ start

/-- A tick at which it is due asks once, and does not arm the timer again. -/
theorem timer_alarms (due : GuardDue ro env k) :
    ((userschedTimerFn ro env).run k).2.alarms =
        k.alarms ++ [timeDelta env.now k.lastDispatchAt] ∧
      ((userschedTimerFn ro env).run k).2.timerArmed = false := by
  constructor
  · rw [Kernel.alarms, userschedTimerFn_guard ro env due, List.filterMap_append]
    rfl
  · obtain ⟨asked, _, ⟨_, run⟩ | ⟨early, _⟩⟩ :=
      dispatchProgressGuard_run ro env { k with timerArmed := false }
    · simp only [userschedTimerFn, run_then, run_modifyState, run, if_true, run_done]
      rfl
    · exact absurd due early

theorem exec_silent {c : Callback} (other : c ≠ .timer) (k : Kernel) :
    (c.exec ro env k).alarms = k.alarms := by
  cases c with
  | selectCpu p prevCpu wakeFlags =>
    have effect := cognisSelectCpu_selected ro env p prevCpu wakeFlags k
    simp only [Callback.exec]
    generalize (cognisSelectCpu ro env p prevCpu wakeFlags).run k = r at effect
    cases effect <;> rfl
  | enqueue p enqFlags =>
    have effect := cognisEnqueue_enqueued ro env p enqFlags k
    simp only [Callback.exec]
    generalize ((cognisEnqueue ro env p enqFlags).run k).2 = r at effect
    cases effect with
    | usersched kicks _ _ => split <;> rfl
    | _ => rfl
  | dispatch cpu prev => exact dispatch_alarms cpu prev k
  | runnable p =>
    simp only [Callback.exec, cognisRunnable, run_then, ↓run_ite, tryLookupTaskCtx, run_getThe,
      run_done]
    split
    · rfl
    · cases k.taskCtx p <;> rfl
  | running p =>
    simp only [Callback.exec, cognisRunning, run_then, ↓run_ite, tryLookupTaskCtx, run_getThe,
      run_done, run_modifyState]
    split
    · rfl
    cases k.taskCtx p with
    | none => rfl
    | some tctx =>
      simp only [run_then, run_modifyState]
      split <;> rfl
  | stopping p =>
    simp only [Callback.exec, cognisStopping, run_then, ↓run_ite, tryLookupTaskCtx, run_getThe,
      run_done, run_modifyState]
    split
    · rfl
    · cases k.taskCtx p <;> rfl
  | enable p => rfl
  | initTask created p =>
    simp only [Callback.exec, cognisInitTask, run_then, ↓run_ite, tryLookupTaskCtx, run_getThe,
      run_done, run_modifyState]
    split
    · rfl
    · split <;> rfl
  | timer => exact absurd rfl other

/-- A step asks for an unload exactly if it is a tick at which the guard is due. -/
theorem Step.alarms {l : Label} (step : Step ro k l k') :
    k'.alarms = k.alarms ∧ (k.timerArmed = false → k'.timerArmed = false) ∨
      ∃ env, l = .call .timer env ∧ k.timerArmed = true ∧ GuardDue ro env k ∧
        k'.alarms = k.alarms ++ [timeDelta env.now k.lastDispatchAt] ∧ k'.timerArmed = false := by
  cases step with
  | world h =>
    cases h
    exact .inl ⟨rfl, id⟩
  | call c env ready =>
    by_cases tick : c = .timer
    · subst tick
      by_cases due : GuardDue ro env k
      · exact .inr ⟨env, rfl, ready rfl, due, timer_alarms due⟩
      · refine .inl ⟨timer_silent due, fun off => ?_⟩
        rw [ready rfl] at off
        cases off
    · exact .inl ⟨exec_silent tick k, fun off => (exec_timerArmed k tick).trans off⟩

theorem run_silent {ls : List Label} (run : SystemRun ro k ls k') (off : k.timerArmed = false) :
    k'.alarms = k.alarms := by
  have kept := run.keeps (I := fun s => s.alarms = k.alarms ∧ s.timerArmed = false)
    (P := fun _ => True) (fun s l t _ step before => ?_) (fun _ _ => trivial) ⟨rfl, off⟩
  · exact kept.1
  · rcases step.alarms with ⟨same, still⟩ | ⟨_, _, armed, _⟩
    · exact ⟨same.trans before.1, still before.2⟩
    · rw [before.2] at armed
      cases armed

/-- The time stamp is that of the latest dispatch, or the one the run started with. -/
theorem run_latestDispatch {ls : List Label} (run : SystemRun ro k ls k') :
    k'.lastDispatchAt = (dispatchTimes ls).getLastD k.lastDispatchAt := by
  induction run with
  | nil _ => rfl
  | @cons s _ _ _ _ step _ ih =>
    rw [ih]
    cases step with
    | world h =>
      cases h
      rfl
    | call c env _ =>
      have clock : (c.exec ro env s).lastDispatchAt = s.lastDispatchAt ∨
          (∃ cpu prev, c = .dispatch cpu prev) ∧ (c.exec ro env s).lastDispatchAt = env.now :=
        exec_lastDispatchAt c s
      cases c with
      | dispatch cpu prev =>
        have now : ((Callback.dispatch cpu prev).exec ro env s).lastDispatchAt = env.now :=
          (opsDispatch_clock ro env cpu prev s).1
        rw [now]
        exact List.getLastD_cons.symm
      | _ => exact congrArg _ (clock.resolve_right (by simp))

theorem run_alarms {ls : List Label} (run : SystemRun ro k ls k') :
    k'.alarms = k.alarms ∨ ∃ ls₁ env ls₂ s, ls = ls₁ ++ .call .timer env :: ls₂ ∧
      SystemRun ro k ls₁ s ∧ GuardDue ro env s ∧
      k'.alarms = k.alarms ++ [timeDelta env.now s.lastDispatchAt] := by
  induction run with
  | nil _ => exact .inl rfl
  | @cons s t u l ls step rest ih =>
    rcases step.alarms with ⟨same, _⟩ | ⟨env, rfl, _, due, asked, off⟩
    · rw [same] at ih
      rcases ih with silent | ⟨ls₁, env, ls₂, v, rfl, reached, due, asked⟩
      · exact .inl silent
      · exact .inr ⟨l :: ls₁, env, ls₂, v, rfl, .cons step reached, due, asked⟩
    · refine .inr ⟨[], env, ls, s, rfl, .nil s, due, ?_⟩
      rw [run_silent rest off, asked]

/-- A clock that went back shows no time elapsed. -/
theorem timeDelta_eq_zero {after before : U64} (order : after.toNat < before.toNat)
    (bound : before.toNat < 2 ^ 63) : timeDelta after before = 0 := by
  have difference : (after - before).toNat = 2 ^ 64 + after.toNat - before.toNat := by
    rw [BitVec.toNat_sub]
    omega
  have negative : (after - before).toInt < 0 := by
    rw [BitVec.toInt_eq_toNat_cond]
    split <;> omega
  have sign : (0 : U64).slt (after - before) = false := by
    rw [BitVec.slt_eq_decide, decide_eq_false_iff_not]
    exact not_lt.mpr negative.le
  rw [timeDelta, sign, if_neg Bool.false_ne_true]

theorem le_of_timeDelta {after before : U64} (later : after.toNat < 2 ^ 63)
    (early : before.toNat < 2 ^ 63) (elapsed : timeDelta after before ≥ dispatchProgressGuardNs) :
    before.toNat + 4000000000 ≤ after.toNat := by
  have guard : dispatchProgressGuardNs.toNat = 4000000000 := by decide
  have elapsed := BitVec.le_def.mp elapsed
  by_cases order : before.toNat ≤ after.toNat
  · rw [timeDelta_toNat order later] at elapsed
    omega
  · rw [timeDelta_eq_zero (Nat.lt_of_not_le order) early, guard] at elapsed
    cases elapsed

def Label.Clocked : Label → Prop
  | .call _ env => ClockOk env
  | .world => True

theorem clocked_latest {ls : List Label} {start : U64} (first : start.toNat < 2 ^ 63)
    (clocked : ∀ l ∈ ls, l.Clocked) : ((dispatchTimes ls).getLastD start).toNat < 2 ^ 63 := by
  have member : (dispatchTimes ls).getLastD start ∈ start :: dispatchTimes ls :=
    List.getLastD_mem_cons
  generalize (dispatchTimes ls).getLastD start = time at member ⊢
  rcases List.mem_cons.mp member with same | dispatched
  · rwa [same]
  · obtain ⟨l, inside, stamp⟩ := List.mem_filterMap.mp dispatched
    have clock := clocked l inside
    split at stamp
    · exact Option.some.inj stamp ▸ clock
    · cases stamp

/-- In any run the guard asks for at most one unload, at a tick that sees waiting tasks
at least four seconds after the latest dispatch; without the fallback it never asks. -/
theorem guard_asks_when_stalled {boot : Env} {task : Nat → TaskStruct} {k₀ : Kernel}
    {ls : List Label} (booted : Booted ro boot task k₀) (start : ClockOk boot)
    (clocked : ∀ l ∈ ls, l.Clocked) (run : SystemRun ro k₀ ls k) :
    (k.alarms ≠ [] → ∃ ls₁ env ls₂ s, ls = ls₁ ++ .call .timer env :: ls₂ ∧
      SystemRun ro k₀ ls₁ s ∧ Backlog ro s.queues ∧
      ((dispatchTimes ls₁).getLastD boot.now).toNat + 4000000000 ≤ env.now.toNat ∧
      k.alarms = [timeDelta env.now ((dispatchTimes ls₁).getLastD boot.now)]) ∧
    (ro.userschedEnabled = false → k.alarms = []) := by
  have first := booted_run booted
  have stamp : k₀.lastDispatchAt = boot.now := by rw [first]; rfl
  have none : k₀.alarms = [] := by rw [first]; rfl
  constructor
  · intro asked
    rcases run_alarms run with silent | ⟨ls₁, env, ls₂, s, rfl, reached, due, alarms⟩
    · exact absurd (silent.trans none) asked
    · have latest := stamp ▸ run_latestDispatch reached
      have early := clocked_latest start fun l (member : l ∈ ls₁) =>
        clocked l (List.mem_append_left _ member)
      have now : ClockOk env := clocked (.call .timer env)
        (List.mem_append_right _ List.mem_cons_self)
      refine ⟨ls₁, env, ls₂, s, rfl, reached, due.1, ?_, ?_⟩
      · exact le_of_timeDelta now early (latest ▸ due.2)
      · rw [alarms, none, latest, List.nil_append]
  · intro off
    have quiet : k₀.timerArmed = false := by simp [first, Kernel.initialized, Kernel.boot, off]
    exact (run_silent run quiet).trans none

end

/-- One CPU with the fallback, just initialised. -/
def oneCpuFallback : Kernel := (Kernel.boot fun _ => .waiting (fun _ => true) 0).initialized
  (Rodata.withFallback .flat 3) (Env.busy 1 0 0)

/-- Task 7 waits, and no CPU dispatches for five seconds. -/
def stall : List Label :=
  [.call (.initTask true 7) (Env.busy 1 0 0), .call (.enqueue 7 0) (Env.busy 1 1000 0),
    .call .timer (Env.busy 1 5000000000 0)]

theorem stalled_guard_asks :
    ∃ k, SystemRun (Rodata.withFallback .flat 3) oneCpuFallback stall k ∧
    ∃ ls₁ env ls₂ s, stall = ls₁ ++ .call .timer env :: ls₂ ∧
      SystemRun (Rodata.withFallback .flat 3) oneCpuFallback ls₁ s ∧
      Backlog (Rodata.withFallback .flat 3) s.queues ∧
      ((dispatchTimes ls₁).getLastD 0).toNat + 4000000000 ≤ env.now.toNat ∧
      k.alarms = [timeDelta env.now ((dispatchTimes ls₁).getLastD 0)] := by
  have armed : oneCpuFallback.timerArmed = true := by decide
  have run : SystemRun (Rodata.withFallback .flat 3) oneCpuFallback stall _ :=
    .cons (.call _ _ nofun) <| .cons (.call _ _ nofun) <|
      .cons (.call _ _ fun _ => by
        rw [exec_timerArmed _ (by simp), exec_timerArmed _ (by simp), armed]) (.nil _)
  have clocked : ∀ l ∈ stall, l.Clocked := by
    simp only [stall, List.forall_mem_cons, Label.Clocked, ClockOk]
    exact ⟨by decide, by decide, by decide, nofun⟩
  exact ⟨_, run, (guard_asks_when_stalled (booted_busy _ _)
    (show (0 : U64).toNat < 2 ^ 63 by decide) clocked run).1 (by decide +kernel)⟩

end Cognis.Bpf
