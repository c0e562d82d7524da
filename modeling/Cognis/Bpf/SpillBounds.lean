import Cognis.Bpf.System

/-! How deep the tiers of the deferred hierarchy can get when every insertion comes
from `ops.enqueue`. -/
namespace Cognis.Bpf
open StateLogic Runs Relation

/-- The scheduler's queues lost tasks at most, and no message waits that did not wait
before. -/
structure Shrinks (k k' : Kernel) : Prop where
  queues : ∀ q < scxDsqLocalOn, (k'.dsq q).Sublist (k.dsq q)
  ring : k'.ring = k.ring
  pending : k'.pending = k.pending
  nrCpuIds : k'.nrCpuIds = k.nrCpuIds
  nrOnlineCpus : k'.nrOnlineCpus = k.nrOnlineCpus

/-- A step of the system in which nobody but the program inserts into its queues. -/
def DeferredStep (ro : Rodata) (k : Kernel) (l : Label) (k' : Kernel) : Prop :=
  Step ro k l k' ∧ (l = .world → Shrinks k k')

namespace Shrinks

variable {k k' : Kernel}

theorem of_eq (queues : k'.dsq = k.dsq) (ring : k'.ring = k.ring) (pending : k'.pending = k.pending)
    (nrCpuIds : k'.nrCpuIds = k.nrCpuIds) (nrOnlineCpus : k'.nrOnlineCpus = k.nrOnlineCpus) :
    Shrinks k k' :=
  ⟨fun q _ => by rw [queues], ring, pending, nrCpuIds, nrOnlineCpus⟩

theorem refl (k : Kernel) : Shrinks k k := of_eq rfl rfl rfl rfl rfl

theorem trans {k'' : Kernel} (h : Shrinks k k') (h' : Shrinks k' k'') : Shrinks k k'' :=
  ⟨fun q below => (h'.queues q below).trans (h.queues q below), h'.ring.trans h.ring,
    h'.pending.trans h.pending, h'.nrCpuIds.trans h.nrCpuIds,
    h'.nrOnlineCpus.trans h.nrOnlineCpus⟩

theorem of_local {cpu : Int} {pids : List Nat}
    (queues : k'.dsq = Function.update k.dsq (localOn cpu) pids) (ring : k'.ring = k.ring)
    (pending : k'.pending = k.pending) (nrCpuIds : k'.nrCpuIds = k.nrCpuIds)
    (nrOnlineCpus : k'.nrOnlineCpus = k.nrOnlineCpus) : Shrinks k k' := by
  refine ⟨fun q below => ?_, ring, pending, nrCpuIds, nrOnlineCpus⟩
  have other : q ≠ localOn cpu := (Nat.lt_of_lt_of_le below (localOn_ge cpu)).ne
  rw [queues, Function.update_of_ne other]

end Shrinks

section

variable {ro : Rodata} {env : Env} {k k' : Kernel}

theorem PickStep.shrinks {n : Nat} (step : PickStep ro n k k') (pending : k.pending = []) :
    Shrinks k k' := by
  cases step with
  | flush =>
    rw [Kernel.flush_of_settled pending]
    exact .refl k
  | move cpu q p =>
    refine ⟨fun r below => ?_, rfl, rfl, rfl, rfl⟩
    have other : r ≠ localOn cpu := (Nat.lt_of_lt_of_le below (localOn_ge cpu)).ne
    have queue : (k.moveToLocal cpu q p).dsq r =
        Function.update k.dsq q ((k.dsq q).erase p) r := Function.update_of_ne other ..
    rw [queue]
    by_cases same : r = q
    · rw [same, Function.update_self]
      exact List.erase_sublist
    · rw [Function.update_of_ne same]
  | _ => exact .of_eq rfl rfl rfl rfl rfl

theorem TickStep.shrinks {n : Nat} (step : TickStep ro n k k') : Shrinks k k' := by
  cases step <;> exact .of_eq rfl rfl rfl rfl rfl

theorem opsDispatch_shrinks (cpu : Int) (prev : Option Nat) (ring : k.ring = [])
    (pending : k.pending = []) : Shrinks k ((opsDispatch ro env cpu prev).run k).2 := by
  have steps := picked_steps ro env cpu prev k
  rw [drained_of_empty ring] at steps
  exact updates_keep (fun _ _ step before => before.trans
    (step.shrinks (before.pending.trans pending))) steps (.of_eq rfl rfl rfl rfl rfl)

theorem userschedTimerFn_shrinks (k : Kernel) : Shrinks k ((userschedTimerFn ro env).run k).2 :=
  userschedTimerFn_ticks ro env (I := Shrinks k) (n := k.nrCpuIds)
    (fun _ _ step before => before.trans step.shrinks) (fun _ before => before.nrCpuIds) k (.refl k)

theorem Selected.shrinks {p : Nat} {result : Int × Kernel} (h : Selected ro p k result) :
    Shrinks k result.2 := by
  cases h with
  | kept _ => exact .refl k
  | placed qs cpu slice => exact .of_local rfl rfl rfl rfl rfl

theorem cognisRunnable_shrinks (p : Nat) (k : Kernel) :
    Shrinks k ((cognisRunnable ro env p).run k).2 := by
  simp only [cognisRunnable, run_then, ↓run_ite, tryLookupTaskCtx, run_getThe, run_done]
  split
  · exact .refl k
  cases k.taskCtx p <;> exact .of_eq rfl rfl rfl rfl rfl

theorem cognisRunning_shrinks (p : Nat) (k : Kernel) :
    Shrinks k ((cognisRunning ro env p).run k).2 := by
  simp only [cognisRunning, run_then, ↓run_ite, tryLookupTaskCtx, run_getThe, run_done,
    run_modifyState]
  split
  · exact .of_eq rfl rfl rfl rfl rfl
  cases k.taskCtx p with
  | none => exact .of_eq rfl rfl rfl rfl rfl
  | some tctx =>
    simp only [run_then, run_modifyState]
    split <;> exact .of_eq rfl rfl rfl rfl rfl

theorem cognisStopping_shrinks (p : Nat) (k : Kernel) :
    Shrinks k ((cognisStopping ro env p).run k).2 := by
  simp only [cognisStopping, run_then, ↓run_ite, tryLookupTaskCtx, run_getThe, run_done,
    run_modifyState]
  split
  · exact .refl k
  cases k.taskCtx p <;> exact .of_eq rfl rfl rfl rfl rfl

theorem cognisInitTask_shrinks (created : Bool) (p : Nat) (k : Kernel) :
    Shrinks k ((cognisInitTask created p).run k).2 := by
  simp only [cognisInitTask, run_then, ↓run_ite, tryLookupTaskCtx, run_getThe, run_done,
    run_modifyState]
  split
  · exact .refl k
  split
  · exact .refl k
  · exact .of_eq rfl rfl rfl rfl rfl

/-- Without messages no callback but `ops.enqueue` adds to a queue of the scheduler. -/
theorem exec_shrinks {c : Callback} (other : ∀ p enqFlags, c ≠ .enqueue p enqFlags)
    (ring : k.ring = []) (pending : k.pending = []) : Shrinks k (c.exec ro env k) := by
  cases c with
  | selectCpu p prevCpu wakeFlags =>
    exact (cognisSelectCpu_selected ro env p prevCpu wakeFlags k).shrinks
  | enqueue p enqFlags => exact absurd rfl (other p enqFlags)
  | dispatch cpu prev => exact opsDispatch_shrinks cpu prev ring pending
  | runnable p => exact cognisRunnable_shrinks p k
  | running p => exact cognisRunning_shrinks p k
  | stopping p => exact cognisStopping_shrinks p k
  | enable p => exact .of_eq rfl rfl rfl rfl rfl
  | initTask created p => exact cognisInitTask_shrinks created p k
  | timer => exact userschedTimerFn_shrinks k

theorem length_insertByVtime (vtimeOf : Nat → U64) (p : Nat) (qs : List Nat) :
    (insertByVtime vtimeOf p qs).length = qs.length + 1 := by
  induction qs with
  | nil => rfl
  | cons q qs ih =>
    unfold insertByVtime
    split
    · rfl
    · rw [List.length_cons, ih, List.length_cons]

theorem enqueueRoute_deferred {nrCpuIds : Nat} {t : TaskStruct} {p : Nat} {tctx : TaskCtx}
    {enqFlags : U64} {canMigrate prevCpuRtBusy : Bool}
    (route : enqueueRoute ro env nrCpuIds t p tctx enqFlags = .deferred canMigrate prevCpuRtBusy) :
    canMigrate = taskShouldMigrate ro env t enqFlags ∧
      prevCpuRtBusy = cpuUnderRtPressure env nrCpuIds t.cpu := by
  unfold enqueueRoute at route
  dsimp only at route
  split at route
  · cases route
  split at route
  · cases route
  split at route
  · cases route
  · cases route
    exact ⟨rfl, rfl⟩

variable (ro env) in
/-- `p` was added to `target`, which the spill policy chose, and nothing else moved. -/
structure Spilled (p : Nat) (enqFlags : U64) (k : Kernel) (target : Nat) (k' : Kernel) :
    Prop where
  spills : Spills ro p (taskShouldMigrate ro env (k.task p) enqFlags)
    (cpuUnderRtPressure env k.nrCpuIds (k.task p).cpu) k target
  grown : (k'.dsq target).length = (k.dsq target).length + 1
  others : ∀ q, q ≠ target → k'.dsq q = k.dsq q
  ring : k'.ring = k.ring
  pending : k'.pending = k.pending
  nrCpuIds : k'.nrCpuIds = k.nrCpuIds
  nrOnlineCpus : k'.nrOnlineCpus = k.nrOnlineCpus

theorem spilled_defer {p : Nat} {tctx : TaskCtx} {enqFlags slice : U64} {qs : List Nat}
    {target : Nat} {kicks : List Int}
    (spills : Spills ro p (taskShouldMigrate ro env (k.task p) enqFlags)
      (cpuUnderRtPressure env k.nrCpuIds (k.task p).cpu) k target) :
    Spilled ro env p enqFlags k target ((k.defer ro env p tctx qs target slice).kickAll kicks) where
  spills := spills
  grown := by
    have queue : ∃ vtimeOf, ((k.defer ro env p tctx qs target slice).kickAll kicks).dsq target =
        insertByVtime vtimeOf p (k.dsq target) := ⟨_, Function.update_self ..⟩
    obtain ⟨vtimeOf, queue⟩ := queue
    rw [queue, length_insertByVtime]
  others := fun q other => Function.update_of_ne other ..
  ring := rfl
  pending := rfl
  nrCpuIds := rfl
  nrOnlineCpus := rfl

variable (env) in
theorem cognisEnqueue_spills (fallbackOff : ro.userschedEnabled = false) (p : Nat) (enqFlags : U64)
    (k : Kernel) :
    Shrinks k ((cognisEnqueue ro env p enqFlags).run k).2 ∨
      ∃ target, Spilled ro env p enqFlags k target ((cognisEnqueue ro env p enqFlags).run k).2 := by
  have effect := cognisEnqueue_enqueued ro env p enqFlags k
  by_cases defers : Defers ro env p enqFlags k
  · obtain ⟨tctx, storage, other, canMigrate, prevCpuRtBusy, route⟩ := defers
    obtain ⟨qs, target, slice, run, spills, _⟩ :=
      enqueueDeferred_run ro env p tctx canMigrate prevCpuRtBusy enqFlags k
    obtain ⟨kicks, kicked⟩ := kickPrevCpu_run (isQueuedWakeup env (k.task p) enqFlags)
      (k.task p).cpu (k.defer ro env p tctx qs target slice)
    obtain ⟨rfl, rfl⟩ := enqueueRoute_deferred route
    refine .inr ⟨target, ?_⟩
    simp only [cognisEnqueue, run_then, run_getThe, tryLookupTaskCtx, run_done, storage, other,
      Bool.false_eq_true, if_false, route, run, kicked]
    exact spilled_defer spills
  · generalize ((cognisEnqueue ro env p enqFlags).run k).2 = k' at effect ⊢
    refine .inl ?_
    cases effect with
    | skipped _ => exact .refl k
    | usersched kicks _ _ =>
      simp only [fallbackOff, Bool.false_eq_true, if_false]
      exact .of_eq rfl rfl rfl rfl rfl
    | direct qs cpu slice kicks => exact .of_local rfl rfl rfl rfl rfl
    | deferred tctx qs target slice kicks _ deferred => exact absurd deferred defers

end

section

variable (ro : Rodata)

/-- No tier but the shared queue is deeper than its spill threshold. -/
structure WithinBounds (k : Kernel) : Prop where
  cpu : ∀ q < sharedDsq, (k.dsq q).length ≤ 1
  llc : ∀ i < ro.nrLlcs, (k.dsq (llcToDsq i)).length ≤ llcSpillThreshold ro k.nrOnlineCpus
  node : 1 < ro.nrNodes → ∀ i < ro.nrNodes,
    (k.dsq (nodeToDsq i)).length ≤ nodeSpillThreshold ro k.nrOnlineCpus
  unused : ¬ 1 < ro.nrNodes → ∀ i < maxNodes, k.dsq (nodeToDsq i) = []

variable {ro} {k k' : Kernel}

theorem WithinBounds.shrinks (bounds : WithinBounds ro k) (h : Shrinks k k') :
    WithinBounds ro k' := by
  have llcs := ro.llcs_le
  have nodes := ro.nodes_le
  have shorter : ∀ q < scxDsqLocalOn, (k'.dsq q).length ≤ (k.dsq q).length := fun q below =>
    (h.queues q below).length_le
  have below : ∀ q, q < nodeDsqBase + maxNodes → q < scxDsqLocalOn := fun q low =>
    Nat.lt_trans low (by decide)
  refine ⟨fun q low => ?_, fun i inside => ?_, fun multi i inside => ?_, fun single i inside => ?_⟩
  · have high : sharedDsq < nodeDsqBase + maxNodes := by decide
    exact (shorter q (below q (by omega))).trans (bounds.cpu q low)
  · rw [h.nrOnlineCpus]
    refine (shorter _ (below _ ?_)).trans (bounds.llc i inside)
    simp only [llcToDsq, nodeDsqBase] at *
    omega
  · rw [h.nrOnlineCpus]
    refine (shorter _ (below _ ?_)).trans (bounds.node multi i inside)
    simp only [nodeToDsq] at *
    omega
  · have sub := h.queues (nodeToDsq i) (below _ (by simp only [nodeToDsq]; omega))
    rw [bounds.unused single i inside] at sub
    exact List.sublist_nil.mp sub

/-- There is room below the bound of `q`, if it has one. -/
structure Room (ro : Rodata) (k : Kernel) (q : Nat) : Prop where
  cpu : q < sharedDsq → (k.dsq q).length < 1
  llc : ∀ i < ro.nrLlcs, q = llcToDsq i → (k.dsq q).length < llcSpillThreshold ro k.nrOnlineCpus
  node : ∀ i < maxNodes, q = nodeToDsq i →
    1 < ro.nrNodes ∧ (k.dsq q).length < nodeSpillThreshold ro k.nrOnlineCpus

theorem room_shared (ro : Rodata) (k : Kernel) : Room ro k sharedDsq where
  cpu := fun low => absurd low (Nat.lt_irrefl _)
  llc := fun i _ same => absurd same (sharedDsq_lt_llc i).ne
  node := fun i _ same => absurd same (sharedDsq_lt_node i).ne

theorem Overflows.room {cpu : Int} {q : Nat} (h : Overflows ro k cpu q) : Room ro k q := by
  cases h with
  | invalid _ => exact room_shared ro k
  | shared _ _ _ _ => exact room_shared ro k
  | cpu valid room =>
    have low := cpuToDsq_lt valid
    exact ⟨fun _ => room, fun i _ same => absurd same (low.trans (sharedDsq_lt_llc i)).ne,
      fun i _ same => absurd same (low.trans (sharedDsq_lt_node i)).ne⟩
  | llc _ _ room =>
    have inside := Nat.lt_of_lt_of_le (cpuLlcIdxFor_lt ro k.nrCpuIds cpu) ro.llcs_le
    exact ⟨fun low => absurd low (sharedDsq_lt_llc _).asymm, fun _ _ _ => room,
      fun i _ same => absurd same (llcToDsq_lt_node inside i).ne⟩
  | node _ _ _ multi room =>
    refine ⟨fun low => absurd low (sharedDsq_lt_node _).asymm, fun i inside same => ?_,
      fun _ _ _ => ⟨multi, room⟩⟩
    exact absurd same (llcToDsq_lt_node (Nat.lt_of_lt_of_le inside ro.llcs_le) _).ne'

theorem Spills.room {p : Nat} {canMigrate prevCpuRtBusy : Bool} {target : Nat}
    (h : Spills ro p canMigrate prevCpuRtBusy k target) : Room ro k target := by
  unfold Spills at h
  split at h
  · exact h ▸ room_shared ro k
  · exact h.room

theorem WithinBounds.spilled {env : Env} {p : Nat} {enqFlags : U64} {target : Nat}
    (bounds : WithinBounds ro k) (h : Spilled ro env p enqFlags k target k') :
    WithinBounds ro k' := by
  have room := h.spills.room
  have depth : ∀ q b, (k.dsq q).length ≤ b → (q = target → (k.dsq q).length < b) →
      (k'.dsq q).length ≤ b := by
    intro q b before below
    by_cases same : q = target
    · have strict := below same
      rw [same] at strict ⊢
      rw [h.grown]
      exact strict
    · rwa [h.others q same]
  refine ⟨fun q low => ?_, fun i inside => ?_, fun multi i inside => ?_, fun single i inside => ?_⟩
  · exact depth q 1 (bounds.cpu q low) fun same => same ▸ room.cpu (same ▸ low)
  · rw [h.nrOnlineCpus]
    exact depth _ _ (bounds.llc i inside) fun same => same ▸ room.llc i inside same.symm
  · rw [h.nrOnlineCpus]
    have below : i < maxNodes := Nat.lt_of_lt_of_le inside ro.nodes_le
    exact depth _ _ (bounds.node multi i inside) fun same => same ▸ (room.node i below same.symm).2
  · have other : nodeToDsq i ≠ target := fun same =>
      single (room.node i inside same.symm).1
    rw [h.others _ other]
    exact bounds.unused single i inside

structure Deferring (ro : Rodata) (k : Kernel) : Prop where
  bounds : WithinBounds ro k
  ring : k.ring = []
  pending : k.pending = []

/-- A step takes tasks out of the queues, or is an enqueue that adds one task. -/
theorem DeferredStep.effect (fallbackOff : ro.userschedEnabled = false) (before : Deferring ro k)
    {l : Label} (h : DeferredStep ro k l k') :
    Shrinks k k' ∨ ∃ env p enqFlags target, l = .call (.enqueue p enqFlags) env ∧
      Spilled ro env p enqFlags k target k' := by
  obtain ⟨step, outside⟩ := h
  cases step with
  | world _ => exact .inl (outside rfl)
  | call c env _ =>
    by_cases enqueue : ∃ p enqFlags, c = .enqueue p enqFlags
    · obtain ⟨p, enqFlags, rfl⟩ := enqueue
      rcases cognisEnqueue_spills env fallbackOff p enqFlags k with shrinks | ⟨target, spilled⟩
      · exact .inl shrinks
      · exact .inr ⟨env, p, enqFlags, target, rfl, spilled⟩
    · exact .inl (exec_shrinks (fun p enqFlags same => enqueue ⟨p, enqFlags, same⟩) before.ring
        before.pending)

theorem DeferredStep.deferring (fallbackOff : ro.userschedEnabled = false) {l : Label}
    (h : DeferredStep ro k l k') (before : Deferring ro k) : Deferring ro k' := by
  rcases h.effect fallbackOff before with shrinks | ⟨_, _, _, _, _, spilled⟩
  · exact ⟨before.bounds.shrinks shrinks, shrinks.ring.trans before.ring,
      shrinks.pending.trans before.pending⟩
  · exact ⟨before.bounds.spilled spilled, spilled.ring.trans before.ring,
      spilled.pending.trans before.pending⟩

end

end Cognis.Bpf
