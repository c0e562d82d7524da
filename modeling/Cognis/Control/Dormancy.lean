import Cognis.Control.Whole

/-! User space sleeps. No callback puts a task into the queued ring, and without such a task
the loop never schedules, so that the kernel side works alone. -/
namespace Cognis.Control
open StateLogic Runs RateLimit Wire Fallback Reputation Probing

/-- The shared variables that the kernel side only reads after `cognis_init`. -/
structure Untouched (k k' : Bpf.Kernel) : Prop where
  nrScheduled : k'.nrScheduled = k.nrScheduled
  nrOnlineCpus : k'.nrOnlineCpus = k.nrOnlineCpus

section

open Bpf

variable {ro : Rodata} {env : Env} {n : Nat} {k k' : Kernel}

theorem Untouched.trans {k'' : Kernel} (first : Untouched k k') (second : Untouched k' k'') :
    Untouched k k'' :=
  ⟨second.nrScheduled.trans first.nrScheduled, second.nrOnlineCpus.trans first.nrOnlineCpus⟩

theorem messageStep_untouched (step : MessageStep ro n k k') : Untouched k k' := by
  cases step with
  | insert p q slice vtime _ =>
    unfold Kernel.dispatchVtime
    split <;> exact ⟨rfl, rfl⟩
  | cancel =>
    unfold Kernel.dispatchCancel
    split <;> exact ⟨rfl, rfl⟩
  | _ => exact ⟨rfl, rfl⟩

theorem drainStep_untouched {now : U64} (step : DrainStep ro n now k k') : Untouched k k' := by
  cases step with
  | message step => exact messageStep_untouched step
  | _ => exact ⟨rfl, rfl⟩

theorem dispatch_untouched (cpu : Int) (prev : Option Nat) (k : Kernel) :
    Untouched k ((opsDispatch ro env cpu prev).run k).2 := by
  have drains : Untouched k (drained env k) :=
    updates_keep (fun _ _ step before => before.trans (drainStep_untouched step))
      (drained_steps ro env k) ⟨rfl, rfl⟩
  refine updates_keep (fun _ _ step before => before.trans ?_)
    (picked_steps ro env cpu prev k) drains
  cases step <;> exact ⟨rfl, rfl⟩

theorem exec_untouched (c : Callback) (k : Kernel) : Untouched k (c.exec ro env k) := by
  cases c with
  | selectCpu p prevCpu wakeFlags =>
    have effect := cognisSelectCpu_selected ro env p prevCpu wakeFlags k
    simp only [Callback.exec]
    generalize (cognisSelectCpu ro env p prevCpu wakeFlags).run k = r at effect
    cases effect <;> exact ⟨rfl, rfl⟩
  | enqueue p enqFlags =>
    have effect := cognisEnqueue_enqueued ro env p enqFlags k
    simp only [Callback.exec]
    generalize ((cognisEnqueue ro env p enqFlags).run k).2 = r at effect
    cases effect with
    | usersched kicks _ _ => split <;> exact ⟨rfl, rfl⟩
    | _ => exact ⟨rfl, rfl⟩
  | dispatch cpu prev => exact dispatch_untouched cpu prev k
  | runnable p =>
    simp only [Callback.exec, cognisRunnable, run_then, ↓run_ite, tryLookupTaskCtx, run_getThe,
      run_done]
    split
    · exact ⟨rfl, rfl⟩
    · cases k.taskCtx p <;> exact ⟨rfl, rfl⟩
  | running p =>
    simp only [Callback.exec, cognisRunning, run_then, ↓run_ite, tryLookupTaskCtx, run_getThe,
      run_done, run_modifyState]
    split
    · exact ⟨rfl, rfl⟩
    cases k.taskCtx p with
    | none => exact ⟨rfl, rfl⟩
    | some tctx =>
      simp only [run_then, run_modifyState]
      split <;> exact ⟨rfl, rfl⟩
  | stopping p =>
    simp only [Callback.exec, cognisStopping, run_then, ↓run_ite, tryLookupTaskCtx, run_getThe,
      run_done, run_modifyState]
    split
    · exact ⟨rfl, rfl⟩
    · cases k.taskCtx p <;> exact ⟨rfl, rfl⟩
  | enable p => exact ⟨rfl, rfl⟩
  | initTask created p =>
    simp only [Callback.exec, cognisInitTask, run_then, ↓run_ite, tryLookupTaskCtx, run_getThe,
      run_done, run_modifyState]
    split
    · exact ⟨rfl, rfl⟩
    · split <;> exact ⟨rfl, rfl⟩
  | timer =>
    refine (userschedTimerFn_ticks ro env (I := fun s => Untouched k s ∧ s.nrCpuIds = k.nrCpuIds)
      (n := k.nrCpuIds) (fun s t step before => ⟨before.1.trans ?_, ?_⟩)
      (fun _ before => before.2) k ⟨⟨rfl, rfl⟩, rfl⟩).1
    · cases step <;> exact ⟨rfl, rfl⟩
    · exact (step.unchanged ro).1.nrCpuIds.trans before.2

/-- Only another program could write `nr_scheduled`. -/
theorem disciplined_untouched {m m' : Bpf.Machine} {e : Bpf.Event}
    (step : Disciplined ro m e m') (given : ∀ task slots nrScheduled,
      e = .world task slots nrScheduled → nrScheduled = m.kernel.nrScheduled) :
    Untouched m.kernel m'.kernel := by
  have called : ∀ env c, Untouched m.kernel (m.call ro env c).kernel :=
    fun env c => exec_untouched c m.kernel
  cases step with
  | join p created k absent other run =>
    have result : (Callback.initTask created p).exec ro (Env.busy 1 0 0) m.kernel = k :=
      congrArg Prod.snd run
    have kept := called (Env.busy 1 0 0) (.initTask created p)
    rw [Machine.call, result] at kept
    exact kept
  | pick cpu p env _ _ member =>
    have kept : Untouched (m.take (localOn cpu) p).kernel
        ((m.take (localOn cpu) p).call ro env (.running p)).kernel :=
      exec_untouched (.running p) _
    exact ⟨kept.nrScheduled, kept.nrOnlineCpus⟩
  | putBack cpu p env current =>
    exact ⟨(called env (.stopping p)).nrScheduled, (called env (.stopping p)).nrOnlineCpus⟩
  | enable p env _ => exact called env _
  | select p prevCpu wakeFlags env away => exact called env (.selectCpu p prevCpu wakeFlags)
  | runnable p env => exact called env _
  | enqueue p enqFlags env ready => exact called env (.enqueue p enqFlags)
  | dispatch cpu prev env => exact called env _
  | stop cpu p sleeps env current => exact called env (.stopping p)
  | timer env _ => exact called env _
  | leave p away => exact ⟨rfl, rfl⟩
  | wake p away => exact ⟨rfl, rfl⟩
  | place p cpu ready => exact ⟨rfl, rfl⟩
  | withdraw q p sleeps member => exact ⟨rfl, rfl⟩
  | world task slots nrScheduled _ => exact ⟨given _ _ _ rfl, rfl⟩

end

theorem init_evict {pid : Pid} (positive : Positive pid) :
    Lifetimes.init.lifetimeEvict pid = .init := by
  have missing : Lifetimes.init.lifetimeFindSlot pid = none := by
    cases found : Lifetimes.init.lifetimeFindSlot pid with
    | none => rfl
    | some s => exact absurd (Scheme.find_some found).symm positive.ne_empty
  rw [Lifetimes.lifetimeEvict, missing]

theorem new_evict {G : Type} (floats : Floats G) {pid : Pid} (positive : Positive pid) :
    (TrustTable.new floats).evict floats pid = .new floats := by
  have missing : (TrustTable.new floats).findSlot pid = none := by
    cases found : (TrustTable.new floats).findSlot pid with
    | none => rfl
    | some s => exact absurd (Scheme.find_some found).symm positive.ne_empty
  rw [TrustTable.evict, missing]

/-- Without lifetimes there is nothing to flush. -/
theorem stalePids_init {G : Type} (t : Tracker G) (none_ : t.lifetimes = .init) (now : Nat) :
    t.stalePids now = [] := by
  have blank : ∀ s, ¬ Positive (t.lifetimes.lifetimePids s) := by
    rw [none_]
    exact fun _ positive => positive.ne_empty rfl
  rw [Tracker.stalePids, List.filter_eq_nil_iff.mpr fun s _ => by simp [blank s]]
  rfl

namespace Userspace

variable {F G : Type} {setup : Setup F G} {profile : Loader.BpfProfile} {u : Userspace G}

/-- Nothing but the clocks and the base slice has changed since the start. -/
structure Dormant (setup : Setup F G) (profile : Loader.BpfProfile) (u : Userspace G) : Prop where
  queued : u.queued = ⟨.empty, 0⟩
  scheduler : u.scheduler = .init
  policy : ∃ c, u.policy = { PolicyState.new profile with sliceController := c }
  latencies : u.latencies = .new
  trust : u.trust = .new setup.floats
  cycles : u.cycles = 0

theorem dormant_init (tui : Bool) (created started : Nat) :
    (init setup.floats profile tui created started).Dormant setup profile :=
  ⟨rfl, rfl, ⟨_, rfl⟩, rfl, rfl, rfl⟩

theorem Dormant.lifetimes (dormant : u.Dormant setup profile) : u.policy.lifetimes = .init := by
  obtain ⟨c, policy⟩ := dormant.policy
  rw [policy]
  rfl

theorem Dormant.idle (dormant : u.Dormant setup profile) : u.hasUserspaceWork = false := by
  rw [hasUserspaceWork, dormant.scheduler, dormant.queued]
  rfl

theorem Dormant.evictTask (dormant : u.Dormant setup profile) {pid : Pid}
    (positive : Positive pid) : (u.evictTask setup pid).Dormant setup profile := by
  obtain ⟨c, policy⟩ := dormant.policy
  refine ⟨dormant.queued, dormant.scheduler, ⟨c, ?_⟩, dormant.latencies, ?_, dormant.cycles⟩
  · have lifetimes : u.policy.lifetimes.lifetimeEvict pid = u.policy.lifetimes := by
      rw [dormant.lifetimes, init_evict positive]
    rw [Userspace.evictTask, lifetimes]
    exact policy
  · rw [Userspace.evictTask]
    exact (congrArg (TrustTable.evict setup.floats · pid) dormant.trust).trans
      (new_evict setup.floats positive)

theorem Dormant.drainExitedTasks (dormant : u.Dormant setup profile) (left : Nat) :
    (u.drainExitedTasks setup left).Dormant setup profile := by
  induction left generalizing u with
  | zero => exact dormant
  | succ left ih =>
    have read (exits : RingReader Pid) : { u with exits }.Dormant setup profile :=
      ⟨dormant.queued, dormant.scheduler, dormant.policy, dormant.latencies, dormant.trust,
        dormant.cycles⟩
    rw [Userspace.drainExitedTasks]
    split
    · rename_i pid exits _
      by_cases positive : Positive pid
      · rw [if_pos positive]
        exact ih ((read exits).evictTask positive)
      · rw [if_neg positive]
        exact ih (read exits)
    · exact read _

theorem Dormant.tickSliceController (dormant : u.Dormant setup profile) (a : Answers) :
    (u.tickSliceController setup a).Dormant setup profile := by
  obtain ⟨c, policy⟩ := dormant.policy
  rw [Userspace.tickSliceController]
  split
  · refine ⟨dormant.queued, dormant.scheduler, ⟨(u.updateSlice setup a).policy.sliceController, ?_⟩,
      dormant.latencies, dormant.trust, dormant.cycles⟩
    simp only [updateSlice, policy]
  · exact dormant

theorem Dormant.flushTrustUpdates (dormant : u.Dormant setup profile) (a : Answers) :
    (u.flushTrustUpdates setup a).Dormant setup profile := by
  have kept : (u.tracker.flushTrustUpdates setup.floats (a.instants 6) (a.instants 7)
        a.now).lifetimes = u.policy.lifetimes ∧
      (u.tracker.flushTrustUpdates setup.floats (a.instants 6) (a.instants 7) a.now).trust =
        u.trust := by
    rw [Tracker.flushTrustUpdates]
    split
    · exact ⟨rfl, rfl⟩
    · dsimp only
      rw [stalePids_init _ dormant.lifetimes]
      exact ⟨rfl, rfl⟩
  obtain ⟨c, policy⟩ := dormant.policy
  refine ⟨dormant.queued, dormant.scheduler, ⟨c, ?_⟩, dormant.latencies, kept.2.trans dormant.trust,
    dormant.cycles⟩
  rw [Userspace.flushTrustUpdates, kept.1]
  exact policy

theorem Dormant.background (dormant : u.Dormant setup profile) (a : Answers) :
    (u.background setup a).Dormant setup profile := by
  rw [Userspace.background]
  split
  · refine Dormant.flushTrustUpdates (Dormant.tickSliceController ?_ a) a
    exact ⟨dormant.queued, dormant.scheduler, dormant.policy, dormant.latencies, dormant.trust,
      dormant.cycles⟩
  · exact dormant

theorem Dormant.driveTui (dormant : u.Dormant setup profile) (a : Answers) :
    (if u.tui then u.driveTui a else u).Dormant setup profile := by
  rw [Userspace.driveTui]
  split
  · split <;> exact ⟨dormant.queued, dormant.scheduler, dormant.policy, dormant.latencies,
      dormant.trust, dormant.cycles⟩
  · exact dormant

theorem Dormant.iterate (dormant : u.Dormant setup profile) (a : Answers) :
    (u.iterate setup a).Dormant setup profile := by
  have worked : (if u.hasUserspaceWork then u.schedule setup a else u) = u := by
    rw [dormant.idle]
    rfl
  rw [Userspace.iterate, worked]
  exact ((dormant.drainExitedTasks 128).background a).driveTui a

end Userspace

section

variable {F G : Type} {ro : Bpf.Rodata} {setup : Setup F G} {profile : Loader.BpfProfile}
  {w w' : Whole G}

/-- User space sleeps, and the kernel side knows of no scheduled task. -/
structure Whole.Dormant (setup : Setup F G) (profile : Loader.BpfProfile) (nrOnlineCpus : Nat)
    (w : Whole G) : Prop where
  user : w.user.Dormant setup profile
  nrScheduled : w.machine.kernel.nrScheduled = 0
  nrOnlineCpus : w.machine.kernel.nrOnlineCpus = nrOnlineCpus

/-- A sleeping user space leaves the kernel side as it is. -/
theorem afterIteration_dormant {k : Bpf.Kernel} {u u' : Userspace G} (quiet : k.nrScheduled = 0)
    (dormant' : u'.Dormant setup profile) : afterIteration k u u' = k := by
  have samples : u'.submitted = [] := by
    rw [Userspace.submitted, dormant'.scheduler]
    rfl
  rw [afterIteration, samples, List.drop_nil, dormant'.scheduler, List.map_nil, List.append_nil]
  exact congrArg (fun n => { k with nrScheduled := n }) quiet.symm

theorem WholeStep.dormant {e : WholeEvent} {n : Nat} (step : WholeStep ro setup w e w')
    (dormant : w.Dormant setup profile n) :
    w'.Dormant setup profile n ∧
      Run (Bpf.Disciplined ro) w.machine e.kernelEvent.toList w'.machine := by
  cases step with
  | kernel e machine taken given =>
    have kept := disciplined_untouched taken given
    exact ⟨⟨dormant.user, kept.nrScheduled.trans dormant.nrScheduled,
      kept.nrOnlineCpus.trans dormant.nrOnlineCpus⟩, .single taken⟩
  | disable p reserved =>
    refine ⟨⟨?_, dormant.nrScheduled, dormant.nrOnlineCpus⟩, .nil _⟩
    rw [cognisDisable]
    split
    · exact dormant.user
    split
    · exact dormant.user
    · exact ⟨dormant.user.queued, dormant.user.scheduler, dormant.user.policy,
        dormant.user.latencies, dormant.user.trust, dormant.user.cycles⟩
  | iterate a _ _ _ _ _ =>
    have user := dormant.user.iterate a
    rw [afterIteration_dormant dormant.nrScheduled user]
    exact ⟨⟨user, dormant.nrScheduled, dormant.nrOnlineCpus⟩, .nil _⟩

theorem run_dormant {es : List WholeEvent} {n : Nat} (run : Run (WholeStep ro setup) w es w')
    (dormant : w.Dormant setup profile n) :
    w'.Dormant setup profile n ∧
      Bpf.DisciplinedRun ro w.machine (es.filterMap WholeEvent.kernelEvent) w'.machine := by
  induction run with
  | nil w => exact ⟨dormant, .nil _⟩
  | @cons w v w' e es step _ ih =>
    obtain ⟨next, first⟩ := step.dormant dormant
    obtain ⟨last, rest⟩ := ih next
    refine ⟨last, ?_⟩
    have whole := first.append rest
    cases shown : e.kernelEvent with
    | none =>
      rw [shown] at whole
      rw [List.filterMap_cons, shown]
      exact whole
    | some event =>
      rw [shown] at whole
      rw [List.filterMap_cons, shown]
      exact whole

theorem start_dormant {boot : Bpf.Env} {task : Nat → Bpf.TaskStruct} {k : Bpf.Kernel}
    (booted : Bpf.Booted ro boot task k) (tui : Bool) (created started : Nat) :
    (Whole.start k setup.floats profile tui created started).Dormant setup profile
      k.nrOnlineCpus := by
  refine ⟨Userspace.dormant_init tui created started, ?_, rfl⟩
  change k.nrScheduled = 0
  rw [Bpf.booted_run booted]
  rfl

/-- In every interleaving of the callbacks with the loop of user space, from the start on,
the loop never schedules and never dispatches, learns of no task, and `nr_scheduled` stays
zero on both sides; the kernel side drains an empty ring and runs as it would alone. -/
theorem userspace_stays_dormant {boot : Bpf.Env} {task : Nat → Bpf.TaskStruct} {k : Bpf.Kernel}
    {tui : Bool} {created started : Nat} {es : List WholeEvent}
    (booted : Bpf.Booted ro boot task k)
    (run : Run (WholeStep ro setup) (.start k setup.floats profile tui created started) es w) :
    w.user.cycles = 0 ∧ w.user.submitted = [] ∧ w.user.scheduler.nrScheduled = 0 ∧
      w.machine.kernel.nrScheduled = 0 ∧ w.machine.kernel.ring = [] ∧
      (∀ pid, w.user.policy.lifetimes.lifetimeGet pid = none) ∧
      Bpf.DisciplinedRun ro (.start k) (es.filterMap WholeEvent.kernelEvent) w.machine := by
  obtain ⟨dormant, alone⟩ := run_dormant run (start_dormant booted tui created started)
  have quiet : Bpf.Quiet w.machine.kernel :=
    alone.keeps (I := fun m => Bpf.Quiet m.kernel) (P := fun _ => True)
      (fun _ _ _ _ step before => step.quiet before) (fun _ _ => trivial)
      (Bpf.Sound.start booted).quiet
  refine ⟨dormant.user.cycles, ?_, ?_, dormant.nrScheduled, quiet.ring, fun pid => ?_, alone⟩
  · rw [Userspace.submitted, dormant.user.scheduler]
    rfl
  · rw [dormant.user.scheduler]
    rfl
  · rw [dormant.user.lifetimes]
    exact Lifetimes.init_get pid

/-- One CPU; task 7 joins and leaves, and the loop goes round. -/
def oneCpuStart : Whole ℚ :=
  .start Bpf.Machine.oneCpu.kernel Setup.rational.floats (.fromOpts ⟨0, 0, .desktop⟩) false 0 0

theorem exit_leaves_dormant :
    ∃ w, Run (WholeStep (Bpf.Rodata.kernelOnly .flat) Setup.rational) oneCpuStart
        [.kernel (.join 7 true), .disable 7 true, .iterate (.quiet 0)] w ∧
      w.user.cycles = 0 ∧ w.machine.kernel.ring = [] := by
  have run : Run (WholeStep (Bpf.Rodata.kernelOnly .flat) Setup.rational) oneCpuStart
      [.kernel (.join 7 true), .disable 7 true, .iterate (.quiet 0)] _ :=
    .cons (.kernel _ _ (.join 7 true _ rfl (by decide) rfl) nofun) <| .cons (.disable 7 true) <|
      .single (.iterate _ rfl (by decide) (Answers.quiet_forward _) rfl rfl)
  have dormant := userspace_stays_dormant (Bpf.booted_busy _ _) run
  exact ⟨_, run, dormant.1, dormant.2.2.2.2.1⟩

end

section

variable {F G : Type} {ro : Bpf.Rodata} {setup : Setup F G} {profile : Loader.BpfProfile}
  {u : Userspace G} {w w' : Whole G}

/-- The controller after an update for a load of at most one task for each CPU. -/
def unloaded (base : Nat) : SliceController :=
  (SliceController.new base).update ⟨1, targetedLatencyNs⟩

theorem update_unloaded {base : Nat} {c : SliceController}
    (settled : c = .new base ∨ c = unloaded base) {nrCpus : Nat} (some_ : 0 < nrCpus) :
    c.update ⟨nrCpus, targetedLatencyNs⟩ = unloaded base := by
  rcases settled with rfl | rfl
  · rw [unloaded, SliceController.update, if_neg (Nat.ne_of_gt some_)]
    rfl
  · rw [unloaded, SliceController.update, if_neg (Nat.ne_of_gt some_)]
    rfl

variable (setup) in
theorem drainExitedTasks_policy (left : Nat) (u : Userspace G) :
    (u.drainExitedTasks setup left).policy.sliceController = u.policy.sliceController := by
  induction left generalizing u with
  | zero => rfl
  | succ left ih =>
    rw [Userspace.drainExitedTasks]
    split
    · split
      · exact ih _
      · exact ih _
    · rfl

theorem background_policy (a : Answers) (dormant : u.Dormant setup profile) :
    (u.background setup a).policy.sliceController = u.policy.sliceController ∨
      (u.background setup a).policy.sliceController =
        u.policy.sliceController.update ⟨max a.nrOnlineCpus 1,
          setup.computed (effectiveSlicePressure a.nrRunning 0 0) (max a.nrOnlineCpus 1)⟩ := by
  rw [Userspace.background]
  split
  · have pressure : effectiveSlicePressure a.nrRunning u.queued.nrQueued u.scheduler.nrScheduled =
        effectiveSlicePressure a.nrRunning 0 0 := by
      rw [dormant.queued, dormant.scheduler]
      rfl
    rw [← pressure, Userspace.housekeeping, Userspace.tickSliceController]
    split
    · exact .inr rfl
    · exact .inl rfl
  · exact .inl rfl

/-- What a sleeping user space makes of the load. -/
theorem iterate_policy (a : Answers) (dormant : u.Dormant setup profile) :
    (u.iterate setup a).policy.sliceController = u.policy.sliceController ∨
      (u.iterate setup a).policy.sliceController =
        u.policy.sliceController.update ⟨max a.nrOnlineCpus 1,
          setup.computed (effectiveSlicePressure a.nrRunning 0 0) (max a.nrOnlineCpus 1)⟩ := by
  have worked : (if u.hasUserspaceWork then u.schedule setup a else u) = u := by
    rw [dormant.idle]
    rfl
  have shown (v : Userspace G) :
      (if v.tui then v.driveTui a else v).policy.sliceController = v.policy.sliceController := by
    rw [Userspace.driveTui]
    split
    · split <;> rfl
    · rfl
  have drained := drainExitedTasks_policy setup 128 u
  rw [Userspace.iterate, worked, shown, ← drained]
  exact background_policy a (dormant.drainExitedTasks 128)

/-- What holds in every state when all CPUs are online. -/
structure Whole.Balanced (ro : Bpf.Rodata) (setup : Setup F G) (profile : Loader.BpfProfile)
    (n : Nat) (w : Whole G) : Prop where
  dormant : w.Dormant setup profile n
  counted : Bpf.Counted ro w.machine
  cpus : w.machine.kernel.nrCpuIds = n
  slice : w.user.policy.sliceController = .new profile.sliceNs ∨
    w.user.policy.sliceController = unloaded profile.sliceNs

section

variable {n : Nat}

theorem Whole.Balanced.busy_le (balanced : w.Balanced ro setup profile n) :
    w.machine.busyCpus ro ≤ n :=
  balanced.cpus ▸ Custody.occupied_le _ _ _

theorem Whole.Balanced.nrRunning (balanced : w.Balanced ro setup profile n) (ids : n < 2 ^ 32) :
    w.machine.kernel.nrRunning.toNat = w.machine.busyCpus ro := by
  have busy := balanced.busy_le
  rw [balanced.counted.count, BitVec.toNat_ofNat, Nat.mod_eq_of_lt (by omega)]

/-- Nothing is queued or scheduled in user space, so the load is what runs. -/
theorem Whole.Balanced.load (balanced : w.Balanced ro setup profile n) (ids : n < 2 ^ 32) :
    effectiveSlicePressure w.machine.kernel.nrRunning.toNat w.user.queued.nrQueued
      w.user.scheduler.nrScheduled = w.machine.busyCpus ro := by
  have busy := balanced.busy_le
  rw [balanced.nrRunning ids, balanced.dormant.user.queued, balanced.dormant.user.scheduler]
  have small : w.machine.busyCpus ro ≤ u64Max := busy.trans (by rw [u64Max]; omega)
  exact (min_eq_left Saturating.add_le_top).trans (min_eq_left small)

theorem WholeStep.balanced {e : WholeEvent}
    (quotient : ∀ pressure nrCpus, 0 < nrCpus → pressure ≤ nrCpus →
      setup.computed pressure nrCpus = targetedLatencyNs)
    (step : WholeStep ro setup w e w') (balanced : w.Balanced ro setup profile n) :
    w'.Balanced ro setup profile n := by
  have next := (step.dormant balanced.dormant).1
  cases step with
  | kernel e machine taken given =>
    exact ⟨next, balanced.counted.step taken, taken.storage.1.trans balanced.cpus, balanced.slice⟩
  | disable p reserved =>
    refine ⟨next, balanced.counted, balanced.cpus, ?_⟩
    rw [cognisDisable]
    split
    · exact balanced.slice
    split
    · exact balanced.slice
    · exact balanced.slice
  | iterate a _ _ _ running online =>
    have user := balanced.dormant.user
    have light : effectiveSlicePressure a.nrRunning 0 0 ≤ max a.nrOnlineCpus 1 := by
      have busy := balanced.busy_le
      have small : a.nrRunning ≤ w.machine.busyCpus ro := by
        rw [running, balanced.counted.count, BitVec.toNat_ofNat]
        exact Nat.mod_le _ _
      have all : a.nrOnlineCpus = n := online.trans balanced.dormant.nrOnlineCpus
      unfold effectiveSlicePressure Saturating.add
      omega
    refine ⟨next, ?_, ?_, ?_⟩
    · rw [afterIteration_dormant balanced.dormant.nrScheduled (user.iterate a)]
      exact balanced.counted
    · exact balanced.cpus
    · rcases iterate_policy a user with same | updated
      · exact (congrArg (fun c => c = _ ∨ c = _) same).mpr balanced.slice
      · rw [quotient _ _ (lt_max_of_lt_right Nat.one_pos) light,
          update_unloaded balanced.slice (lt_max_of_lt_right Nat.one_pos)] at updated
        exact .inr updated

/-- An iteration that updates the slice controller gives it the number of busy CPUs. -/
theorem WholeStep.sees_load {a : Answers} (balanced : w.Balanced ro setup profile n)
    (ids : n < 2 ^ 32) (step : WholeStep ro setup w (.iterate a) w') :
    w'.user.policy.sliceController = w.user.policy.sliceController ∨
      w'.user.policy.sliceController = w.user.policy.sliceController.update
        ⟨max n 1, setup.computed (w.machine.busyCpus ro) (max n 1)⟩ := by
  cases step with
  | iterate _ _ _ _ running online =>
    have user := balanced.dormant.user
    have load := balanced.load ids
    rw [user.queued, user.scheduler, ← running] at load
    have all : a.nrOnlineCpus = n := online.trans balanced.dormant.nrOnlineCpus
    have told := iterate_policy a user
    rwa [all, show effectiveSlicePressure a.nrRunning 0 0 = w.machine.busyCpus ro from load] at told

end

/-- With all CPUs online the load that the slice controller sees is the number of busy CPUs,
so never more than one task for each: however many tasks wait, the base slice stays at its
first value or at what an update makes of the targeted latency. -/
theorem load_never_shrinks_slice {boot : Bpf.Env} {task : Nat → Bpf.TaskStruct} {k : Bpf.Kernel}
    {tui : Bool} {created started : Nat} {es : List WholeEvent}
    (quotient : ∀ pressure nrCpus, 0 < nrCpus → pressure ≤ nrCpus →
      setup.computed pressure nrCpus = targetedLatencyNs)
    (booted : Bpf.Booted ro boot task k) (ids : k.nrCpuIds < 2 ^ 32)
    (online : k.nrOnlineCpus = k.nrCpuIds)
    (run : Run (WholeStep ro setup) (.start k setup.floats profile tui created started) es w) :
    effectiveSlicePressure w.machine.kernel.nrRunning.toNat w.user.queued.nrQueued
        w.user.scheduler.nrScheduled = w.machine.busyCpus ro ∧
      w.machine.busyCpus ro ≤ k.nrCpuIds ∧
      (∀ a w', WholeStep ro setup w (.iterate a) w' →
        w'.user.policy.sliceController = w.user.policy.sliceController ∨
          w'.user.policy.sliceController = w.user.policy.sliceController.update
            ⟨max k.nrCpuIds 1, setup.computed (w.machine.busyCpus ro) (max k.nrCpuIds 1)⟩) ∧
      let slice := w.user.policy.sliceController.readSliceNs
      slice = (SliceController.new profile.sliceNs).readSliceNs ∨
        slice = Saturating.clamp
          (if profile.sliceNs > 0 then min targetedLatencyNs profile.sliceNs
            else targetedLatencyNs) autoSliceMinNs autoSliceMaxNs := by
  have balanced : w.Balanced ro setup profile k.nrCpuIds :=
    run.keeps (I := Whole.Balanced ro setup profile k.nrCpuIds) (P := fun _ => True)
      (fun _ _ _ _ step before => step.balanced quotient before) (fun _ _ => trivial)
      ⟨online ▸ start_dormant booted tui created started, .start booted, rfl, .inl rfl⟩
  refine ⟨balanced.load ids, balanced.busy_le, fun a w' step => step.sees_load balanced ids, ?_⟩
  rcases balanced.slice with first | updated
  · exact .inl (congrArg _ first)
  · exact .inr (congrArg _ updated)

/-- Task 7 runs on the one CPU while the slice controller looks. -/
theorem oneCpu_keeps_slice :
    ∃ w w', Run (WholeStep (Bpf.Rodata.kernelOnly .flat) Setup.rational) oneCpuStart
        [.kernel (.join 7 true), .kernel (.wake 7), .kernel (.place 7 0),
          .kernel (.pick 0 7 (Bpf.Env.busy 1 0 0))] w ∧
      WholeStep (Bpf.Rodata.kernelOnly .flat) Setup.rational w
        (.iterate { Answers.quiet (60 * msec) with nrRunning := 1 }) w' ∧
      w.machine.busyCpus (Bpf.Rodata.kernelOnly .flat) = 1 ∧
      effectiveSlicePressure w.machine.kernel.nrRunning.toNat w.user.queued.nrQueued
        w.user.scheduler.nrScheduled = 1 ∧
      (w'.user.policy.sliceController = w.user.policy.sliceController ∨
        w'.user.policy.sliceController = w.user.policy.sliceController.update
          ⟨1, Setup.rational.computed 1 1⟩) ∧
      w.user.policy.sliceController.readSliceNs = 1000000 := by
  have run : Run (WholeStep (Bpf.Rodata.kernelOnly .flat) Setup.rational) oneCpuStart
      [.kernel (.join 7 true), .kernel (.wake 7), .kernel (.place 7 0),
        .kernel (.pick 0 7 (Bpf.Env.busy 1 0 0))] _ :=
    .cons (.kernel _ _ (.join 7 true _ rfl (by decide) rfl) nofun) <|
      .cons (.kernel _ _ (.wake 7 rfl) nofun) <| .cons (.kernel _ _ (.place 7 0 rfl) nofun) <|
        .single (.kernel _ _ (.pick 0 7 (Bpf.Env.busy 1 0 0) (by decide) rfl
          (List.mem_append_right _ List.mem_cons_self)) nofun)
  have quotient (pressure nrCpus : Nat) (some_ : 0 < nrCpus) (light : pressure ≤ nrCpus) :
      Setup.rational.computed pressure nrCpus = targetedLatencyNs := by
    change targetedLatencyNs * nrCpus / max pressure nrCpus = targetedLatencyNs
    rw [max_eq_right light, Nat.mul_div_cancel _ some_]
  have sees := load_never_shrinks_slice quotient (Bpf.booted_busy _ _) (by decide) rfl run
  refine ⟨_, _, run, .iterate _ rfl (by decide) (Answers.quiet_forward _) rfl rfl, rfl, sees.1,
    sees.2.2.1 _ _ (.iterate _ rfl (by decide) (Answers.quiet_forward _) rfl rfl), ?_⟩
  exact sees.2.2.2.elim id id

end

end Cognis.Control
