import Cognis.Bpf.System

/-! The queue ids that the callbacks hand to the kernel: queues that the scheduler has
created, or local queues of the kernel. -/
namespace Cognis.Bpf
open StateLogic Runs Relation

section

variable (ro : Rodata) (n : Nat)

/-- A created queue, or an id in the kernel's own range. -/
def Known (q : Nat) : Prop := q ∈ knownDsqs ro n ∨ scxDsqLocalOn ≤ q

/-- From `k` to `k'` only known queues were named. -/
def Names (k k' : Kernel) : Prop := ∃ qs, k'.touched = k.touched ++ qs ∧ ∀ q ∈ qs, Known ro n q

end

section

variable {ro : Rodata} {env : Env} {n : Nat} {k k' : Kernel}

theorem known_of_task {q : Nat} (member : q ∈ taskDsqs ro n) : Known ro n q :=
  .inl (taskDsqs_subset ro n member)

theorem known_localOn (cpu : Int) : Known ro n (localOn cpu) := .inr (localOn_ge cpu)

theorem names_of_eq (same : k'.touched = k.touched) : Names ro n k k' :=
  ⟨[], by rw [same, List.append_nil], fun _ member => nomatch member⟩

theorem names_single {q : Nat} (asked : k'.touched = k.touched ++ [q]) (known : Known ro n q) :
    Names ro n k k' :=
  ⟨[q], asked, fun _ member => List.mem_singleton.mp member ▸ known⟩

theorem Names.trans {k'' : Kernel} (h : Names ro n k k') (h' : Names ro n k' k'') :
    Names ro n k k'' := by
  obtain ⟨qs, asked, known⟩ := h
  obtain ⟨rs, asked', known'⟩ := h'
  refine ⟨qs ++ rs, by rw [asked', asked, List.append_assoc], fun q member => ?_⟩
  exact (List.mem_append.mp member).elim (known q) (known' q)

theorem names_touchAll {qs : List Nat} (known : qs ⊆ taskDsqs ro n) :
    Names ro n k (k.touchAll qs) :=
  ⟨qs, rfl, fun _ member => known_of_task (known member)⟩

theorem MessageStep.names (step : MessageStep ro n k k') : Names ro n k k' := by
  cases step with
  | insert p q slice vtime known =>
    refine names_single ?_ (known_of_task known)
    unfold Kernel.dispatchVtime
    split <;> rfl
  | cancel =>
    apply names_of_eq
    unfold Kernel.dispatchCancel
    split <;> rfl
  | _ => exact names_of_eq rfl

theorem DrainStep.names {now : U64} (step : DrainStep ro n now k k') : Names ro n k k' := by
  cases step with
  | message step => exact step.names
  | _ => exact names_of_eq rfl

theorem PickStep.names (step : PickStep ro n k k') : Names ro n k k' := by
  cases step with
  | touch q known => exact names_single rfl (.inl known)
  | _ => exact names_of_eq rfl

theorem TickStep.names (step : TickStep ro n k k') : Names ro n k k' := by
  cases step with
  | touch q known => exact names_single rfl (known_of_task known)
  | _ => exact names_of_eq rfl

theorem opsDispatch_names (cpu : Int) (prev : Option Nat) (k : Kernel) :
    Names ro k.nrCpuIds k ((opsDispatch ro env cpu prev).run k).2 := by
  have drains : Names ro k.nrCpuIds k (drained env k) :=
    updates_keep (fun _ _ step before => before.trans step.names) (drained_steps ro env k)
      (names_of_eq rfl)
  exact updates_keep (fun _ _ step before => before.trans step.names)
    (picked_steps ro env cpu prev k) drains

theorem userschedTimerFn_names (k : Kernel) :
    Names ro k.nrCpuIds k ((userschedTimerFn ro env).run k).2 :=
  (userschedTimerFn_ticks ro env
    (I := fun s => s.nrCpuIds = k.nrCpuIds ∧ Names ro k.nrCpuIds k s) (n := k.nrCpuIds)
    (fun _ _ step before =>
      ⟨(step.unchanged ro).1.nrCpuIds.trans before.1, before.2.trans step.names⟩)
    (fun _ before => before.1) k ⟨rfl, names_of_eq rfl⟩).2

theorem Enqueued.names {p : Nat} {enqFlags : U64} (h : Enqueued ro env p enqFlags k k') :
    Names ro k.nrCpuIds k k' := by
  cases h with
  | skipped _ => exact names_of_eq rfl
  | usersched kicks _ _ =>
    -- The queue of the user-space scheduler is only named when it was created.
    cases enabled : ro.userschedEnabled with
    | false => exact names_of_eq rfl
    | true => exact names_single rfl (.inl (by simp [knownDsqs, enabled]))
  | direct qs cpu slice kicks _ _ _ asked =>
    exact (names_touchAll asked).trans (names_single rfl (known_localOn cpu))
  | deferred tctx qs target slice kicks _ _ known asked =>
    exact (names_touchAll asked).trans (names_single rfl (known_of_task known))

theorem Selected.names {p : Nat} {result : Int × Kernel} (h : Selected ro p k result) :
    Names ro k.nrCpuIds k result.2 := by
  cases h with
  | kept _ => exact names_of_eq rfl
  | placed qs cpu slice _ asked =>
    exact (names_touchAll asked).trans (names_single rfl (known_localOn cpu))

theorem exec_names (c : Callback) (k : Kernel) : Names ro k.nrCpuIds k (c.exec ro env k) := by
  cases c with
  | selectCpu p prevCpu wakeFlags =>
    exact (cognisSelectCpu_selected ro env p prevCpu wakeFlags k).names
  | enqueue p enqFlags => exact (cognisEnqueue_enqueued ro env p enqFlags k).names
  | dispatch cpu prev => exact opsDispatch_names cpu prev k
  | runnable p => exact names_of_eq (cognisRunnable_accounted p k).touched
  | running p => exact names_of_eq (cognisRunning_accounted p k).touched
  | stopping p => exact names_of_eq (cognisStopping_accounted p k).touched
  | enable p => exact names_of_eq (cognisEnable_accounted p k).touched
  | initTask created p => exact names_of_eq (cognisInitTask_accounted created p k).touched
  | timer => exact userschedTimerFn_names k

theorem Step.names {l : Label} (h : Step ro k l k') : Names ro k.nrCpuIds k k' := by
  cases h with
  | call c env _ => exact exec_names c k
  | world h =>
    cases h
    exact names_of_eq rfl

theorem run_names {ls : List Label} (run : SystemRun ro k ls k') : Names ro k.nrCpuIds k k' :=
  (run.keeps (I := fun s => s.nrCpuIds = k.nrCpuIds ∧ Names ro k.nrCpuIds k s)
    (P := fun _ => True)
    (fun _ _ _ _ step before => ⟨step.steady.nrCpuIds.trans before.1,
      before.2.trans (before.1 ▸ step.names)⟩)
    (fun _ _ => trivial) ⟨rfl, names_of_eq rfl⟩).2

theorem booted_created {boot : Env} {task : Nat → TaskStruct} {ls : List Label}
    (booted : Booted ro boot task k) (run : SystemRun ro k ls k') :
    k'.created = knownDsqs ro k'.nrCpuIds ∧ k'.nrCpuIds ≤ maxCpus := by
  have steady := run_steady run
  have start := booted_run booted
  have created : k.created = knownDsqs ro k.nrCpuIds := by
    rw [start]
    rfl
  have nodup : (knownDsqs ro k.nrCpuIds).Nodup := by
    rcases cognisInit_run ro boot (Kernel.boot task) with ⟨ready, _⟩ | ⟨_, failed⟩
    · rw [start]
      exact ready.1.nodup
    · exact absurd (congrArg Prod.fst booted) failed
  rw [steady.created, steady.nrCpuIds]
  exact ⟨created, (knownDsqs_nodup_iff ro).mp nodup⟩

theorem booted_names {boot : Env} {task : Nat → TaskStruct} {ls : List Label}
    (booted : Booted ro boot task k) (run : SystemRun ro k ls k') :
    ∀ q ∈ k'.touched, q ∈ k'.created ∨ scxDsqLocalOn ≤ q := by
  have created := (booted_created booted run).1
  have cpus := (run_steady run).nrCpuIds
  obtain ⟨qs, asked, known⟩ := run_names run
  have first : k.touched = knownDsqs ro k.nrCpuIds := by
    rw [booted_run booted]
    rfl
  intro q member
  rw [asked, first] at member
  rw [created, cpus]
  exact (List.mem_append.mp member).elim .inl (known q)

/-- The backlog scan covers what was created, without the scheduler's own queue. -/
theorem mem_taskDsqs_iff {q : Nat} :
    q ∈ taskDsqs ro n ↔ q ∈ knownDsqs ro n ∧ q ≠ schedDsq := by
  constructor
  · exact fun member => ⟨taskDsqs_subset ro n member, (taskDsqs_bounds ro n member).2⟩
  · rintro ⟨member, other⟩
    rcases List.mem_append.mp member with task | sched
    · exact task
    · split at sched
      · exact absurd (List.mem_singleton.mp sched) other
      · cases sched

theorem dsqBacklogExists_iff (created : k.created = knownDsqs ro k.nrCpuIds) :
    ((dsqBacklogExists ro).run k).1 = true ↔ ∃ q ∈ k.created, q ≠ schedDsq ∧ k.dsq q ≠ [] := by
  obtain ⟨found, asked, run, _, backlog⟩ := dsqBacklogExists_run ro k
  rw [run, backlog, created]
  simp only [Backlog, Kernel.queues_nrCpuIds, Kernel.queues_dsq, mem_taskDsqs_iff, and_assoc]

end

end Cognis.Bpf
