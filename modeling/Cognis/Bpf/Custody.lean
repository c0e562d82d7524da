import Cognis.Lib.Custody
import Cognis.Bpf.Discipline

/-! Every waiting task has one place. Whatever the callbacks do, in any order the kernel
calls them, a runnable task is in one queue once, and a task that is not waiting in none. -/
namespace Cognis.Bpf
open StateLogic Runs

/-- The ring of user-space dispatches is empty, and no insertion is pending. -/
structure Quiet (k : Kernel) : Prop where
  ring : k.ring = []
  pending : k.pending = []

/-- The queues and the dispatch buffers stay. -/
structure Calm (k k' : Kernel) : Prop where
  dsq : k'.dsq = k.dsq
  ring : k'.ring = k.ring
  pending : k'.pending = k.pending

section

variable {ro : Rodata} {env : Env} {k k' : Kernel} {p : Nat}

theorem Calm.quiet (calm : Calm k k') (quiet : Quiet k) : Quiet k' :=
  ⟨calm.ring.trans quiet.ring, calm.pending.trans quiet.pending⟩

theorem TickStep.calm {n : Nat} (step : TickStep ro n k k') : Calm k k' := by
  cases step <;> exact ⟨rfl, rfl, rfl⟩

theorem Calm.trans {k'' : Kernel} (h : Calm k k') (h' : Calm k' k'') : Calm k k'' :=
  ⟨h'.dsq.trans h.dsq, h'.ring.trans h.ring, h'.pending.trans h.pending⟩

/-- The callbacks that only keep accounts. -/
def Callback.Accounts : Callback → Prop
  | .runnable _ | .running _ | .stopping _ | .enable _ | .initTask _ _ | .timer => True
  | .selectCpu _ _ _ | .enqueue _ _ | .dispatch _ _ => False

theorem exec_calm {c : Callback} (accounts : c.Accounts) (k : Kernel) :
    Calm k (c.exec ro env k) := by
  cases c with
  | selectCpu p prevCpu wakeFlags => cases accounts
  | enqueue p enqFlags => cases accounts
  | dispatch cpu prev => cases accounts
  | runnable p =>
    simp only [Callback.exec, cognisRunnable, run_then, ↓run_ite, tryLookupTaskCtx, run_getThe,
      run_done]
    split
    · exact ⟨rfl, rfl, rfl⟩
    · cases k.taskCtx p <;> exact ⟨rfl, rfl, rfl⟩
  | running p =>
    simp only [Callback.exec, cognisRunning, run_then, ↓run_ite, tryLookupTaskCtx, run_getThe,
      run_done, run_modifyState]
    split
    · exact ⟨rfl, rfl, rfl⟩
    cases k.taskCtx p with
    | none => exact ⟨rfl, rfl, rfl⟩
    | some tctx =>
      simp only [run_then, run_modifyState]
      split <;> exact ⟨rfl, rfl, rfl⟩
  | stopping p =>
    simp only [Callback.exec, cognisStopping, run_then, ↓run_ite, tryLookupTaskCtx, run_getThe,
      run_done, run_modifyState]
    split
    · exact ⟨rfl, rfl, rfl⟩
    · cases k.taskCtx p <;> exact ⟨rfl, rfl, rfl⟩
  | enable p => exact ⟨rfl, rfl, rfl⟩
  | initTask created p =>
    simp only [Callback.exec, cognisInitTask, run_then, ↓run_ite, tryLookupTaskCtx, run_getThe,
      run_done, run_modifyState]
    split
    · exact ⟨rfl, rfl, rfl⟩
    · split <;> exact ⟨rfl, rfl, rfl⟩
  | timer =>
    refine userschedTimerFn_ticks ro env (I := fun s => Calm k s ∧ s.nrCpuIds = k.nrCpuIds)
      (n := k.nrCpuIds) (fun s t step before => ⟨before.1.trans step.calm, ?_⟩)
      (fun _ before => before.2) k ⟨⟨rfl, rfl, rfl⟩, rfl⟩ |>.1
    exact (step.unchanged ro).1.nrCpuIds.trans before.2

theorem PickStep.quiet {n : Nat} (step : PickStep ro n k k') (quiet : Quiet k) : Quiet k' := by
  cases step with
  | flush => exact ⟨quiet.ring, rfl⟩
  | _ => exact ⟨quiet.ring, quiet.pending⟩

theorem Enqueued.quiet {enqFlags : U64} (h : Enqueued ro env p enqFlags k k') (quiet : Quiet k) :
    Quiet k' := by
  cases h with
  | skipped _ => exact quiet
  | usersched kicks _ _ => split <;> exact ⟨quiet.ring, quiet.pending⟩
  | direct => exact ⟨quiet.ring, quiet.pending⟩
  | deferred => exact ⟨quiet.ring, quiet.pending⟩

theorem Selected.quiet {result : Int × Kernel} (h : Selected ro p k result) (quiet : Quiet k) :
    Quiet result.2 := by
  cases h with
  | kept _ => exact quiet
  | placed => exact ⟨quiet.ring, quiet.pending⟩

theorem exec_quiet (c : Callback) (quiet : Quiet k) : Quiet (c.exec ro env k) := by
  cases c with
  | selectCpu p prevCpu wakeFlags =>
    exact (cognisSelectCpu_selected ro env p prevCpu wakeFlags k).quiet quiet
  | enqueue p enqFlags => exact (cognisEnqueue_enqueued ro env p enqFlags k).quiet quiet
  | dispatch cpu prev =>
    have start : Quiet (drained env k) := drained_of_empty quiet.ring ▸ ⟨quiet.ring, quiet.pending⟩
    exact updates_keep (fun _ _ step before => step.quiet before)
      (picked_steps ro env cpu prev k) start
  | runnable p => exact (exec_calm (c := .runnable p) trivial k).quiet quiet
  | running p => exact (exec_calm (c := .running p) trivial k).quiet quiet
  | stopping p => exact (exec_calm (c := .stopping p) trivial k).quiet quiet
  | enable p => exact (exec_calm (c := .enable p) trivial k).quiet quiet
  | initTask created p => exact (exec_calm (c := .initTask created p) trivial k).quiet quiet
  | timer => exact (exec_calm (c := .timer) trivial k).quiet quiet

end

theorem schedDsq_not_mem_taskDsqs (ro : Rodata) (n : Nat) : schedDsq ∉ taskDsqs ro n :=
  fun member => (taskDsqs_bounds ro n member).2 rfl

theorem localOn_not_mem_knownDsqs (ro : Rodata) (n : Nat) (cpu : Int) :
    localOn cpu ∉ knownDsqs ro n := by
  intro member
  rcases List.mem_append.mp member with task | sched
  · exact taskDsqs_ne_localOn ro n task cpu rfl
  · split at sched
    · have high := localOn_ge cpu
      rw [List.mem_singleton.mp sched] at high
      exact absurd high (by decide)
    · cases sched

/-- What one step does to the queues, and which tasks wait afterwards. -/
inductive Shift (ro : Rodata) (m : Machine) (e : Event) (m' : Machine) : Prop
  | still : m'.kernel.dsq = m.kernel.dsq →
      (∀ p, m'.stage p = .waiting ↔ m.stage p = .waiting) → Shift ro m e m'
  | sorted (p q : Nat) (enqFlags : U64) (env : Env) : e = .enqueue p enqFlags env →
      m.stage p = .ready → q ∈ taskDsqs ro m.kernel.nrCpuIds →
      m'.kernel.dsq = Function.update m.kernel.dsq q
        (insertByVtime (fun r => (m'.kernel.task r).dsqVtime) p (m.kernel.dsq q)) →
      m'.stage = Function.update m.stage p .waiting → Shift ro m e m'
  | queued (p q : Nat) (qs : List Nat) : m.stage p ≠ .waiting →
      q ∉ taskDsqs ro m.kernel.nrCpuIds → Known ro m.kernel.nrCpuIds q →
      qs.Perm (p :: m.kernel.dsq q) → m'.kernel.dsq = Function.update m.kernel.dsq q qs →
      m'.stage = Function.update m.stage p .waiting → Shift ro m e m'
  | taken (p q : Nat) (s : Stage) : p ∈ m.kernel.dsq q → s ≠ .waiting →
      m'.kernel.dsq = Function.update m.kernel.dsq q ((m.kernel.dsq q).erase p) →
      m'.stage = Function.update m.stage p s → Shift ro m e m'
  | moved (p q : Nat) (cpu : Int) (prev : Option Nat) (env : Env) : e = .dispatch cpu prev env →
      q ∈ knownDsqs ro m.kernel.nrCpuIds → m.kernel.queues.firstAllowed cpu q = some p →
      m'.kernel.dsq = Function.update (Function.update m.kernel.dsq q ((m.kernel.dsq q).erase p))
        (localOn cpu) (m.kernel.dsq (localOn cpu) ++ [p]) →
      m'.stage = m.stage → Shift ro m e m'

/-- The scheduler's queues and stages at any point of a disciplined run. -/
structure Sound (ro : Rodata) (m : Machine) : Prop where
  quiet : Quiet m.kernel
  homes : Custody.Kept (fun p => m.stage p = .waiting) m.kernel.dsq
  known : ∀ q, m.kernel.dsq q ≠ [] → Known ro m.kernel.nrCpuIds q
  stored : ∀ p, m.stage p ≠ .absent → (m.kernel.taskCtx p).isSome = true
  idle : m.stage 0 = .absent
  current : ∀ cpu p, m.curr cpu = some p → m.stage p = .onCpu cpu

/-- Without the fallback the loader exports process 0, which is never admitted. -/
def Rodata.PidExported (ro : Rodata) : Prop := ro.userschedEnabled = false → ro.userschedPid = 0

section

variable {ro : Rodata} {env : Env} {m m' : Machine} {p : Nat}

theorem afterSleep_ne (sleeps : Bool) : afterSleep sleeps ≠ .waiting := by
  cases sleeps <;> decide

theorem update_waiting_iff {stage : Nat → Stage} {s : Stage} (before : stage p ≠ .waiting)
    (after : s ≠ .waiting) (r : Nat) :
    Function.update stage p s r = .waiting ↔ stage r = .waiting := by
  by_cases same : r = p
  · rw [same, Function.update_self]
    exact iff_of_false after before
  · rw [Function.update_of_ne same]

/-- Enqueuing a task that is in no queue puts it into exactly one. -/
theorem enqueue_shift (exported : ro.PidExported) (sound : Sound ro m)
    (ready : m.stage p = .ready) (enqFlags : U64) :
    Shift ro m (.enqueue p enqFlags env)
      ((m.call ro env (.enqueue p enqFlags)).setStage p .waiting) := by
  have outside : m.stage p ≠ .waiting := by rw [ready]; decide
  have admitted : m.stage p ≠ .absent := by rw [ready]; decide
  have stored := sound.stored p admitted
  have effect := cognisEnqueue_enqueued ro env p enqFlags m.kernel
  generalize after : ((cognisEnqueue ro env p enqFlags).run m.kernel).2 = k at effect
  have result : (m.call ro env (.enqueue p enqFlags)).kernel = k := after
  cases effect with
  | skipped none =>
    rw [none] at stored
    cases stored
  | usersched kicks usersched _ =>
    have enabled : ro.userschedEnabled = true := by
      by_contra off
      have pid : p = ro.userschedPid := by simpa [isUserschedTask] using usersched
      rw [exported (Bool.eq_false_iff.mpr off)] at pid
      exact admitted (pid ▸ sound.idle)
    refine .queued p schedDsq (m.kernel.dsq schedDsq ++ [p]) outside
      (schedDsq_not_mem_taskDsqs ro _) ?_ (List.perm_append_singleton p _) ?_ rfl
    · left
      simp only [knownDsqs, if_pos enabled, List.mem_append, List.mem_singleton, or_true]
    · rw [Machine.setStage, result, if_pos enabled]
      rfl
  | direct qs cpu slice kicks _ _ _ _ =>
    refine .queued p (localOn cpu) (m.kernel.dsq (localOn cpu) ++ [p]) outside
      (fun member => taskDsqs_ne_localOn ro _ member cpu rfl) (known_localOn cpu)
      (List.perm_append_singleton p _) ?_ rfl
    rw [Machine.setStage, result]
    rfl
  | deferred tctx qs target slice kicks _ _ known _ =>
    refine .sorted p target enqFlags env rfl ready known ?_ rfl
    rw [Machine.setStage, result]
    rfl

theorem select_shift (away : m.stage p = .away) (prevCpu : Int) (wakeFlags : U64) :
    Shift ro m (.select p prevCpu wakeFlags env)
      ((m.call ro env (.selectCpu p prevCpu wakeFlags)).setStage p
      (if insertedBy m.kernel ((Callback.selectCpu p prevCpu wakeFlags).exec ro env m.kernel)
        then .waiting else .ready)) := by
  have outside : m.stage p ≠ .waiting := by rw [away]; decide
  have effect := cognisSelectCpu_selected ro env p prevCpu wakeFlags m.kernel
  generalize after : (cognisSelectCpu ro env p prevCpu wakeFlags).run m.kernel = r at effect
  have result : (Callback.selectCpu p prevCpu wakeFlags).exec ro env m.kernel = r.2 :=
    congrArg Prod.snd after
  rw [result]
  cases effect with
  | kept cpu =>
    have nothing : insertedBy m.kernel m.kernel = false := by simp [insertedBy]
    refine .still (congrArg Kernel.dsq result) fun r => ?_
    rw [nothing, if_neg Bool.false_ne_true]
    exact update_waiting_iff outside (by decide) r
  | placed qs cpu slice _ _ =>
    have placed : insertedBy m.kernel
        ((m.kernel.touchAll qs).insertRouted p (localOn cpu) slice) = true :=
      decide_eq_true (by
        change _ < (m.kernel.inserts ++ [(localOn cpu, p)]).length
        rw [List.length_append]
        exact Nat.lt_succ_self _)
    rw [placed, if_pos rfl]
    refine .queued p (localOn cpu) (m.kernel.dsq (localOn cpu) ++ [p]) outside
      (fun member => taskDsqs_ne_localOn ro _ member cpu rfl) (known_localOn cpu)
      (List.perm_append_singleton p _) ?_ rfl
    exact congrArg Kernel.dsq result

theorem dispatch_shift (quiet : Quiet m.kernel) (cpu : Int) (prev : Option Nat) :
    Shift ro m (.dispatch cpu prev env) (m.call ro env (.dispatch cpu prev)) := by
  have effect : ((opsDispatch ro env cpu prev).run m.kernel).2.dsq = m.kernel.dsq ∨
      Fetched ro cpu m.kernel.queues ((opsDispatch ro env cpu prev).run m.kernel).2.queues :=
    dispatch_fetches ro env cpu prev quiet.ring quiet.pending
  rcases effect with same | ⟨q, known, p, first, after⟩
  · exact .still same fun _ => Iff.rfl
  · exact .moved p q cpu prev env rfl known first (congrArg Queues.dsq after) rfl

theorem Disciplined.shift {e : Event} (exported : ro.PidExported) (sound : Sound ro m)
    (step : Disciplined ro m e m') : Shift ro m e m' := by
  cases step with
  | join p created k absent _ run =>
    have calm : Calm m.kernel ((Callback.initTask created p).exec ro (Env.busy 1 0 0) m.kernel) :=
      exec_calm (c := .initTask created p) trivial m.kernel
    have result : (Callback.initTask created p).exec ro (Env.busy 1 0 0) m.kernel = k :=
      congrArg Prod.snd run
    rw [result] at calm
    exact .still calm.dsq (update_waiting_iff (absent ▸ by decide) (by decide))
  | enable p env _ => exact .still rfl fun _ => Iff.rfl
  | leave p away => exact .still rfl (update_waiting_iff (away ▸ by decide) (by decide))
  | select p prevCpu wakeFlags env away => exact select_shift away prevCpu wakeFlags
  | wake p away => exact .still rfl (update_waiting_iff (away ▸ by decide) (by decide))
  | runnable p env =>
    exact .still (exec_calm (c := .runnable p) trivial m.kernel).dsq fun _ => Iff.rfl
  | enqueue p enqFlags env ready => exact enqueue_shift exported sound ready enqFlags
  | place p cpu ready =>
    exact .queued p (localOn cpu) _ (ready ▸ by decide)
      (fun member => taskDsqs_ne_localOn ro _ member cpu rfl) (known_localOn cpu)
      (List.perm_append_singleton p _) rfl rfl
  | dispatch cpu prev env => exact dispatch_shift sound.quiet cpu prev
  | pick cpu p env _ _ member =>
    refine .taken p (localOn cpu) (.onCpu cpu) member (by simp) ?_ rfl
    exact (exec_calm (c := .running p) trivial (m.take (localOn cpu) p).kernel).dsq
  | stop cpu p sleeps env current =>
    refine .still (exec_calm (c := .stopping p) trivial m.kernel).dsq ?_
    exact update_waiting_iff (sound.current cpu p current ▸ by simp) (afterSleep_ne sleeps)
  | putBack cpu p env current =>
    refine .queued p (localOn cpu) (p :: m.kernel.dsq (localOn cpu))
      (sound.current cpu p current ▸ by simp)
      (fun member => taskDsqs_ne_localOn ro _ member cpu rfl) (known_localOn cpu) (.refl _) ?_ rfl
    exact congrArg (Function.update · (localOn cpu) _)
      (exec_calm (c := .stopping p) trivial m.kernel).dsq
  | withdraw q p sleeps member =>
    exact .taken p q (afterSleep sleeps) member (afterSleep_ne sleeps) rfl rfl
  | timer env _ => exact .still (exec_calm (c := .timer) trivial m.kernel).dsq fun _ => Iff.rfl
  | world task slots nrScheduled _ => exact .still rfl fun _ => Iff.rfl

theorem Shift.homes {e : Event} (shift : Shift ro m e m')
    (homes : Custody.Kept (fun p => m.stage p = .waiting) m.kernel.dsq) :
    Custody.Kept (fun p => m'.stage p = .waiting) m'.kernel.dsq := by
  have joins : ∀ p r, Function.update m.stage p .waiting r = .waiting ↔
      r = p ∨ m.stage r = .waiting := by
    intro p r
    by_cases same : r = p
    · simp [same]
    · simp [same]
  have quits : ∀ p s, s ≠ .waiting → ∀ r, Function.update m.stage p s r = .waiting ↔
      r ≠ p ∧ m.stage r = .waiting := by
    intro p s after r
    by_cases same : r = p
    · simp [same, after]
    · simp [same]
  cases shift with
  | still dsq stage =>
    rw [dsq]
    exact homes.congr fun p => (stage p).symm
  | sorted p q _ _ _ ready _ dsq stage =>
    rw [dsq, stage]
    have outside : m.stage p ≠ .waiting := by rw [ready]; decide
    exact (homes.insert outside (insertByVtime_perm _ p _)).congr fun r => (joins p r).symm
  | queued p q qs outside _ _ perm dsq stage =>
    rw [dsq, stage]
    exact (homes.insert outside perm).congr fun r => (joins p r).symm
  | taken p q s member after dsq stage =>
    rw [dsq, stage]
    exact (homes.remove member).congr fun r => (quits p s after r).symm
  | moved p q cpu prev env _ known first dsq stage =>
    rw [dsq, stage]
    have apart : localOn cpu ≠ q := fun same => localOn_not_mem_knownDsqs ro _ cpu (same ▸ known)
    exact homes.move (Queues.mem_of_firstAllowed first).1 apart (List.perm_append_singleton p _)

theorem Shift.known {e : Event} (shift : Shift ro m e m')
    (known : ∀ q, m.kernel.dsq q ≠ [] → Known ro m.kernel.nrCpuIds q) (q : Nat)
    (filled : m'.kernel.dsq q ≠ []) : Known ro m.kernel.nrCpuIds q := by
  cases shift with
  | still dsq _ => exact known q (dsq ▸ filled)
  | sorted p r _ _ _ _ target dsq _ =>
    by_cases here : q = r
    · exact here ▸ known_of_task target
    · rw [dsq, Function.update_of_ne here] at filled
      exact known q filled
  | queued p r qs _ _ target _ dsq _ =>
    by_cases here : q = r
    · exact here ▸ target
    · rw [dsq, Function.update_of_ne here] at filled
      exact known q filled
  | taken p r s member _ dsq _ =>
    by_cases here : q = r
    · exact known q (here ▸ List.ne_nil_of_mem member)
    · rw [dsq, Function.update_of_ne here] at filled
      exact known q filled
  | moved p r cpu _ _ _ source _ dsq _ =>
    by_cases target : q = localOn cpu
    · exact target ▸ known_localOn cpu
    by_cases here : q = r
    · exact .inl (here ▸ source)
    · rw [dsq, Function.update_of_ne target, Function.update_of_ne here] at filled
      exact known q filled

/-- Only an admission changes the stage of a task that is absent. -/
theorem Disciplined.stage {e : Event} (sound : Sound ro m) (step : Disciplined ro m e m') :
    m'.stage = m.stage ∨ ∃ p s, m'.stage = Function.update m.stage p s ∧
      (m.stage p ≠ .absent ∨ s = .away ∧ p ≠ 0 ∧ (m'.kernel.taskCtx p).isSome = true) := by
  have waits : ∀ {p q}, p ∈ m.kernel.dsq q → m.stage p ≠ .absent := fun member => by
    rw [sound.homes.owned_of_mem member]
    decide
  cases step with
  | join p created k absent other run =>
    refine .inr ⟨p, .away, rfl, .inr ⟨rfl, other, ?_⟩⟩
    simp only [cognisInitTask, run_then, ↓run_ite, tryLookupTaskCtx, run_getThe, run_done,
      run_modifyState] at run
    change (k.taskCtx p).isSome = true
    split at run
    · rename_i stored
      exact (Prod.mk.inj run).2 ▸ stored
    split at run
    · exact absurd (Prod.mk.inj run).1 (by decide)
    · rw [← (Prod.mk.inj run).2]
      change (Function.update m.kernel.taskCtx p (some {}) p).isSome = true
      rw [Function.update_self]
      rfl
  | enable p env _ => exact .inl rfl
  | leave p away => exact .inr ⟨p, _, rfl, .inl (away ▸ by decide)⟩
  | select p prevCpu wakeFlags env away => exact .inr ⟨p, _, rfl, .inl (away ▸ by decide)⟩
  | wake p away => exact .inr ⟨p, _, rfl, .inl (away ▸ by decide)⟩
  | runnable p env => exact .inl rfl
  | enqueue p enqFlags env ready => exact .inr ⟨p, _, rfl, .inl (ready ▸ by decide)⟩
  | place p cpu ready => exact .inr ⟨p, _, rfl, .inl (ready ▸ by decide)⟩
  | dispatch cpu prev env => exact .inl rfl
  | pick cpu p env _ _ member => exact .inr ⟨p, _, rfl, .inl (waits member)⟩
  | stop cpu p sleeps env current =>
    exact .inr ⟨p, _, rfl, .inl (sound.current cpu p current ▸ by simp)⟩
  | putBack cpu p env current =>
    exact .inr ⟨p, _, rfl, .inl (sound.current cpu p current ▸ by simp)⟩
  | withdraw q p sleeps member => exact .inr ⟨p, _, rfl, .inl (waits member)⟩
  | timer env _ => exact .inl rfl
  | world task slots nrScheduled _ => exact .inl rfl

/-- A step keeps the storage of every task but the one that leaves. -/
theorem Disciplined.storage {e : Event} (step : Disciplined ro m e m') :
    m'.kernel.nrCpuIds = m.kernel.nrCpuIds ∧ ∀ r, (m.kernel.taskCtx r).isSome = true →
      (m'.kernel.taskCtx r).isSome = true ∨ m'.stage r = .absent := by
  have called : ∀ env c, (m.call ro env c).kernel.nrCpuIds = m.kernel.nrCpuIds ∧
      ∀ r, (m.kernel.taskCtx r).isSome = true →
        ((m.call ro env c).kernel.taskCtx r).isSome = true ∨ m'.stage r = .absent := fun env c =>
    ⟨(exec_steady c m.kernel).nrCpuIds, fun r stored => .inl (exec_stored c m.kernel r stored)⟩
  cases step with
  | join p created k absent other run =>
    have result : (Callback.initTask created p).exec ro (Env.busy 1 0 0) m.kernel = k :=
      congrArg Prod.snd run
    have kept := called (Env.busy 1 0 0) (.initTask created p)
    rw [Machine.call, result] at kept
    exact kept
  | leave p away =>
    refine ⟨rfl, fun r stored => ?_⟩
    by_cases same : r = p
    · exact .inr (same ▸ Function.update_self ..)
    · left
      change (Function.update m.kernel.taskCtx p none r).isSome = true
      rwa [Function.update_of_ne same]
  | pick cpu p env _ _ member =>
    exact ⟨(exec_steady (.running p) (m.take (localOn cpu) p).kernel).nrCpuIds, fun r stored =>
      .inl (exec_stored (.running p) (m.take (localOn cpu) p).kernel r stored)⟩
  | enable p env _ => exact called env _
  | select p prevCpu wakeFlags env away => exact called env _
  | runnable p env => exact called env _
  | enqueue p enqFlags env ready => exact called env _
  | dispatch cpu prev env => exact called env _
  | stop cpu p sleeps env current => exact called env _
  | putBack cpu p env current => exact called env _
  | timer env _ => exact called env _
  | wake p away => exact ⟨rfl, fun _ stored => .inl stored⟩
  | place p cpu ready => exact ⟨rfl, fun _ stored => .inl stored⟩
  | withdraw q p sleeps member => exact ⟨rfl, fun _ stored => .inl stored⟩
  | world task slots nrScheduled _ => exact ⟨rfl, fun _ stored => .inl stored⟩

theorem Disciplined.quiet {e : Event} (step : Disciplined ro m e m') (quiet : Quiet m.kernel) :
    Quiet m'.kernel := by
  have called : ∀ env c, Quiet (m.call ro env c).kernel := fun env c => exec_quiet c quiet
  cases step with
  | join p created k absent other run =>
    have result : (Callback.initTask created p).exec ro (Env.busy 1 0 0) m.kernel = k :=
      congrArg Prod.snd run
    have kept := called (Env.busy 1 0 0) (.initTask created p)
    rw [Machine.call, result] at kept
    exact kept
  | pick cpu p env _ _ member =>
    have taken : Quiet (m.take (localOn cpu) p).kernel := ⟨quiet.ring, quiet.pending⟩
    exact exec_quiet (.running p) taken
  | putBack cpu p env current =>
    exact ⟨(called env (.stopping p)).ring, (called env (.stopping p)).pending⟩
  | enable p env _ => exact called env _
  | select p prevCpu wakeFlags env away => exact called env (.selectCpu p prevCpu wakeFlags)
  | runnable p env => exact called env _
  | enqueue p enqFlags env ready => exact called env (.enqueue p enqFlags)
  | dispatch cpu prev env => exact called env _
  | stop cpu p sleeps env current => exact called env (.stopping p)
  | timer env _ => exact called env _
  | leave p away => exact ⟨quiet.ring, quiet.pending⟩
  | wake p away => exact quiet
  | place p cpu ready => exact ⟨quiet.ring, quiet.pending⟩
  | withdraw q p sleeps member => exact ⟨quiet.ring, quiet.pending⟩
  | world task slots nrScheduled _ => exact ⟨quiet.ring, quiet.pending⟩

/-- Which CPU runs which task, and the stages that follow it. -/
theorem Disciplined.current {e : Event} (sound : Sound ro m) (step : Disciplined ro m e m')
    (cpu r : Nat) (runs : m'.curr cpu = some r) : m'.stage r = .onCpu cpu := by
  have elsewhere : ∀ p s, (∀ c, m.stage p ≠ .onCpu c) → m.curr cpu = some r →
      Function.update m.stage p s r = .onCpu cpu := by
    intro p s off runs
    have before := sound.current cpu r runs
    have other : r ≠ p := fun same => off cpu (same ▸ before)
    rwa [Function.update_of_ne other]
  -- A CPU that gives up its task is free, and the task was on that CPU only.
  have given : ∀ c p s, m.curr c = some p → Function.update m.curr c none cpu = some r →
      Function.update m.stage p s r = .onCpu cpu := by
    intro c p s held runs
    by_cases same : cpu = c
    · rw [same, Function.update_self] at runs
      cases runs
    rw [Function.update_of_ne same] at runs
    have before := sound.current cpu r runs
    have other : r ≠ p := by
      rintro rfl
      rw [sound.current c r held] at before
      exact same (Stage.onCpu.inj before).symm
    rwa [Function.update_of_ne other]
  cases step with
  | join p created k absent other run => exact elsewhere p _ (absent ▸ by simp) runs
  | enable p env _ => exact sound.current cpu r runs
  | leave p away => exact elsewhere p _ (away ▸ by simp) runs
  | select p prevCpu wakeFlags env away => exact elsewhere p _ (away ▸ by simp) runs
  | wake p away => exact elsewhere p _ (away ▸ by simp) runs
  | runnable p env => exact sound.current cpu r runs
  | enqueue p enqFlags env ready => exact elsewhere p _ (ready ▸ by simp) runs
  | place p cpu ready => exact elsewhere p _ (ready ▸ by simp) runs
  | dispatch cpu prev env => exact sound.current _ r runs
  | pick c p env _ free member =>
    have waits := sound.homes.owned_of_mem member
    by_cases same : cpu = c
    · subst same
      have task : Function.update m.curr cpu (some p) cpu = some r := runs
      rw [Function.update_self] at task
      cases task
      exact Function.update_self ..
    · have runs : Function.update m.curr c (some p) cpu = some r := runs
      rw [Function.update_of_ne same] at runs
      exact elsewhere p _ (waits ▸ by simp) runs
  | stop c p sleeps env held => exact given c p _ held runs
  | putBack c p env held => exact given c p _ held runs
  | withdraw q p sleeps member =>
    have waits := sound.homes.owned_of_mem member
    exact elsewhere p _ (waits ▸ by simp) runs
  | timer env _ => exact sound.current cpu r runs
  | world task slots nrScheduled _ => exact sound.current cpu r runs

theorem Sound.step {e : Event} (exported : ro.PidExported) (sound : Sound ro m)
    (step : Disciplined ro m e m') : Sound ro m' := by
  have shift := step.shift exported sound
  obtain ⟨cpus, storage⟩ := step.storage
  refine ⟨step.quiet sound.quiet, shift.homes sound.homes, ?_, ?_, ?_, step.current sound⟩
  · exact cpus ▸ shift.known sound.known
  · intro r admitted
    rcases step.stage sound with same | ⟨p, s, stage, before | ⟨_, _, stored⟩⟩
    · exact (storage r (sound.stored r (same ▸ admitted))).resolve_right admitted
    · by_cases here : r = p
      · exact (storage r (sound.stored r (here ▸ before))).resolve_right admitted
      · have was : m.stage r ≠ .absent := by rwa [stage, Function.update_of_ne here] at admitted
        exact (storage r (sound.stored r was)).resolve_right admitted
    · by_cases here : r = p
      · exact here ▸ stored
      · have was : m.stage r ≠ .absent := by rwa [stage, Function.update_of_ne here] at admitted
        exact (storage r (sound.stored r was)).resolve_right admitted
  · rcases step.stage sound with same | ⟨p, s, stage, before | ⟨_, other, _⟩⟩
    · exact same ▸ sound.idle
    · have other : p ≠ 0 := fun zero => before (zero ▸ sound.idle)
      rw [stage, Function.update_of_ne other.symm]
      exact sound.idle
    · rw [stage, Function.update_of_ne other.symm]
      exact sound.idle

theorem Sound.start {boot : Env} {task : Nat → TaskStruct} {k : Kernel}
    (booted : Booted ro boot task k) : Sound ro (.start k) := by
  rw [booted_run booted]
  refine ⟨⟨rfl, rfl⟩, Custody.kept_empty fun p => ?_, fun q filled => absurd rfl filled,
    fun p admitted => absurd rfl admitted, rfl, fun cpu p runs => ?_⟩
  · exact Stage.noConfusion
  · cases runs

theorem Sound.run (exported : ro.PidExported) {es : List Event} (sound : Sound ro m)
    (run : DisciplinedRun ro m es m') : Sound ro m' :=
  run.keeps (I := Sound ro) (P := fun _ => True)
    (fun _ _ _ _ step before => before.step exported step) (fun _ _ => trivial) sound

/-- No interleaving loses or duplicates a task: one that waits is in one queue, once, and
that queue is the scheduler's or a local one; any other task is in no queue. -/
theorem waiting_has_one_place {boot : Env} {task : Nat → TaskStruct} {k : Kernel}
    {es : List Event} (exported : ro.PidExported) (booted : Booted ro boot task k)
    (run : DisciplinedRun ro (.start k) es m) (p : Nat) :
    (m.stage p = .waiting → ∃ q, Known ro m.kernel.nrCpuIds q ∧
      ∀ r, (m.kernel.dsq r).count p = if r = q then 1 else 0) ∧
    (m.stage p ≠ .waiting → ∀ r, p ∉ m.kernel.dsq r) := by
  have sound := (Sound.start booted).run exported run
  refine ⟨fun waits => ?_, sound.homes.absent p⟩
  obtain ⟨q, home⟩ := sound.homes.placed p waits
  refine ⟨q, sound.known q fun empty => ?_, home⟩
  have once := home q
  rw [empty, if_pos rfl] at once
  cases once

/-- Task 7 is admitted, wakes up and is enqueued while no CPU is idle. -/
theorem enqueuedTask_has_one_place :
    ∃ m, DisciplinedRun (Rodata.kernelOnly .flat) .oneCpu
      [.join 7 true, .wake 7, .enqueue 7 0 (Env.busy 1 0 0)] m ∧
    ∃ q, Known (Rodata.kernelOnly .flat) m.kernel.nrCpuIds q ∧
      ∀ r, (m.kernel.dsq r).count 7 = if r = q then 1 else 0 := by
  have run : DisciplinedRun (Rodata.kernelOnly .flat) .oneCpu
      [.join 7 true, .wake 7, .enqueue 7 0 (Env.busy 1 0 0)] _ :=
    .cons (.join 7 true _ rfl (by decide) rfl) <| .cons (.wake 7 rfl) <|
      .cons (.enqueue 7 0 (Env.busy 1 0 0) rfl) (.nil _)
  exact ⟨_, run, (waiting_has_one_place (fun _ => rfl) (booted_busy _ _) run 7).1 rfl⟩

end

end Cognis.Bpf
