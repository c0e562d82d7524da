import Cognis.Bpf.DispatchSteps
import Cognis.Bpf.Enqueue

/-! What one `ops.enqueue` and one `ops.select_cpu` can do to the state: which queue
is inserted into, and what is written besides. -/
namespace Cognis.Bpf
open StateLogic

def routed (q : Nat) (c : Counters) : Counters :=
  let c :=
    if q = sharedDsq then { c with sharedDispatches := c.sharedDispatches + 1 }
    else if q ≥ nodeDsqBase ∧ q < nodeDsqBase + maxNodes then
      { c with nodeDispatches := c.nodeDispatches + 1 }
    else if q ≥ llcDsqBase ∧ q < llcDsqBase + maxLlcs then
      { c with llcDispatches := c.llcDispatches + 1 }
    else { c with localDispatches := c.localDispatches + 1 }
  { c with kernelDispatches := c.kernelDispatches + 1 }

namespace Kernel

def kickAll (k : Kernel) (cpus : List Int) : Kernel := { k with kicks := k.kicks ++ cpus }

def insertRouted (k : Kernel) (p q : Nat) (slice : U64) : Kernel :=
  (k.insert p q slice).count (routed q)

def insertVtimeRouted (k : Kernel) (p q : Nat) (slice vtime : U64) : Kernel :=
  (k.insertVtime p q slice vtime).count (routed q)

end Kernel

theorem countKernelRoute_run (q : Nat) (k : Kernel) :
    (countKernelRoute q).run k = (PUnit.unit, k.count (routed q)) := by
  simp only [countKernelRoute, run_then, ↓run_ite, countOne, run_modifyState, Kernel.count, routed]
  split
  · rfl
  split
  · rfl
  split <;> rfl

theorem directLocalDispatch_run (p : Nat) (cpu : Int) (slice enqFlags : U64) (k : Kernel) :
    (directLocalDispatch p cpu slice enqFlags).run k =
      (PUnit.unit, k.insertRouted p (localOn cpu) slice) := by
  simp only [directLocalDispatch, scxBpfDsqInsert, run_then, run_modifyState, countKernelRoute_run]
  rfl

section

variable (ro : Rodata) (env : Env)

/-- No direct placement: the task goes to the deferred hierarchy. -/
def Defers (p : Nat) (enqFlags : U64) (k : Kernel) : Prop :=
  ∃ tctx, k.taskCtx p = some tctx ∧ isUserschedTask ro p = false ∧
    ∃ canMigrate prevCpuRtBusy,
      enqueueRoute ro env k.nrCpuIds (k.task p) p tctx enqFlags = .deferred canMigrate prevCpuRtBusy

/-- The state after a deferred insertion into `target`; `qs` were asked before. -/
def Kernel.defer (k : Kernel) (p : Nat) (tctx : TaskCtx) (qs : List Nat) (target : Nat)
    (slice : U64) : Kernel :=
  ((k.touchAll qs).settle ro env p (k.task p).cpu tctx).insertVtimeRouted p target slice
    (settledVtime ro env k p (k.task p).cpu tctx + cappedAwake ro env (k.task p).weight tctx)

inductive Enqueued (p : Nat) (enqFlags : U64) (k : Kernel) : Kernel → Prop
  | skipped : k.taskCtx p = none → Enqueued p enqFlags k k
  | usersched (kicks : List Int) : isUserschedTask ro p = true → (k.taskCtx p).isSome = true →
      Enqueued p enqFlags k ((if ro.userschedEnabled then k.insert p schedDsq ro.sliceNs else
        k).kickAll kicks)
  | direct (qs : List Nat) (cpu : Int) (slice : U64) (kicks : List Int) :
      isUserschedTask ro p = false → (k.taskCtx p).isSome = true → ¬ Defers ro env p enqFlags k →
      qs ⊆ taskDsqs ro k.nrCpuIds →
      Enqueued p enqFlags k (((k.touchAll qs).insertRouted p (localOn cpu) slice).kickAll kicks)
  | deferred (tctx : TaskCtx) (qs : List Nat) (target : Nat) (slice : U64) (kicks : List Int) :
      k.taskCtx p = some tctx → Defers ro env p enqFlags k →
      target ∈ taskDsqs ro k.nrCpuIds → qs ⊆ taskDsqs ro k.nrCpuIds →
      Enqueued p enqFlags k ((k.defer ro env p tctx qs target slice).kickAll kicks)

theorem kickPrevCpu_run (shouldKick : Bool) (prevCpu : Int) (k : Kernel) :
    ∃ kicks, (kickPrevCpu shouldKick prevCpu).run k = (PUnit.unit, k.kickAll kicks) := by
  cases shouldKick with
  | false => exact ⟨[], by simp [kickPrevCpu, Kernel.kickAll]⟩
  | true => exact ⟨[prevCpu], rfl⟩

theorem insertDeferred_run (p : Nat) (tctx : TaskCtx) (enqFlags : U64) (target : Nat)
    (qs : List Nat) (k : Kernel) :
    ∃ rs slice, rs ⊆ qs ++ ownTiers ro k.nrCpuIds (k.task p).cpu ∧
      (do let slice ← taskSlice ro env p (k.task p).cpu
          let vtime ← taskDl ro env p (k.task p).cpu tctx
          scxBpfDsqInsertVtime p target slice vtime enqFlags
          countKernelRoute target : BpfM Unit).run (k.touchAll qs) =
        (PUnit.unit, k.defer ro env p tctx rs target slice) := by
  refine ⟨qs ++ (pressureQueues ro k.nrCpuIds (k.task p).cpu ++
    pressureQueues ro k.nrCpuIds (k.task p).cpu),
    sliceOf ro env (k.touchAll qs) p (k.task p).cpu, ?_, ?_⟩
  · have inside := pressureQueues_subset ro k.nrCpuIds (k.task p).cpu
    intro q member
    simp only [List.mem_append] at member ⊢
    rcases member with asked | waits | waits
    · exact .inl asked
    · exact .inr (inside waits)
    · exact .inr (inside waits)
  · simp only [run_then, taskSlice_run, taskDl_run, Kernel.touchAll_append,
      Kernel.touchAll_nrCpuIds, Kernel.touchAll_task, settledVtime_touchAll, scxBpfDsqInsertVtime,
      run_modifyState, countKernelRoute_run, Kernel.defer, Kernel.insertVtimeRouted,
      List.append_assoc]

/-- The queue of the hierarchy that a deferred task goes to. -/
def Spills (p : Nat) (canMigrate prevCpuRtBusy : Bool) (k : Kernel) (target : Nat) : Prop :=
  if canMigrate && prevCpuRtBusy then target = sharedDsq
  else Overflows ro k (k.task p).cpu target

theorem enqueueDeferred_run (p : Nat) (tctx : TaskCtx) (canMigrate prevCpuRtBusy : Bool)
    (enqFlags : U64) (k : Kernel) :
    ∃ qs target slice, (enqueueDeferred ro env p (k.task p).cpu tctx canMigrate prevCpuRtBusy
        enqFlags).run k = (PUnit.unit, k.defer ro env p tctx qs target slice) ∧
      Spills ro p canMigrate prevCpuRtBusy k target ∧ qs ⊆ taskDsqs ro k.nrCpuIds := by
  have own := ownTiers_subset ro k.nrCpuIds (k.task p).cpu
  by_cases shared : (canMigrate && prevCpuRtBusy) = true
  · obtain ⟨rs, slice, inside, run⟩ := insertDeferred_run ro env p tctx enqFlags sharedDsq [] k
    refine ⟨rs, sharedDsq, slice, ?_, by rw [Spills, if_pos shared], List.Subset.trans inside own⟩
    rw [← run, Kernel.touchAll_nil, enqueueDeferred]
    simp only [if_pos shared]
    rfl
  · obtain ⟨target, qs, overflow, chosen, asked⟩ := overflowDsq_run ro (k.task p).cpu k
    obtain ⟨rs, slice, inside, run⟩ := insertDeferred_run ro env p tctx enqFlags target qs k
    refine ⟨rs, target, slice, ?_, by rwa [Spills, if_neg shared], fun q member => own ?_⟩
    · rw [← run, enqueueDeferred]
      simp only [if_neg shared, run_then, overflow]
    · exact (List.mem_append.mp (inside member)).elim (fun early => asked early) id

variable {ro} in
theorem Spills.known {p : Nat} {canMigrate prevCpuRtBusy : Bool} {k : Kernel} {target : Nat}
    (h : Spills ro p canMigrate prevCpuRtBusy k target) : target ∈ taskDsqs ro k.nrCpuIds := by
  unfold Spills at h
  split at h
  · exact h ▸ sharedDsq_mem ro _
  · exact ownTiers_subset ro _ _ h.own

/-- A direct placement, whichever test decided for it. -/
theorem placeDirectly_run (p : Nat) (cpu : Int) (enqFlags : U64) (shouldKick : Bool) (kickCpu : Int)
    (k : Kernel) :
    ∃ qs slice kicks, qs ⊆ taskDsqs ro k.nrCpuIds ∧
      (do let slice ← taskSlice ro env p cpu
          directLocalDispatch p cpu slice enqFlags
          kickPrevCpu shouldKick kickCpu : BpfM Unit).run k =
        (PUnit.unit, ((k.touchAll qs).insertRouted p (localOn cpu) slice).kickAll kicks) := by
  obtain ⟨kicks, kicked⟩ := kickPrevCpu_run shouldKick kickCpu
    ((k.touchAll (pressureQueues ro k.nrCpuIds cpu)).insertRouted p (localOn cpu)
      (sliceOf ro env k p cpu))
  refine ⟨_, sliceOf ro env k p cpu, kicks,
    List.Subset.trans (pressureQueues_subset ro _ cpu) (ownTiers_subset ro _ cpu), ?_⟩
  simp only [run_then, taskSlice_run, directLocalDispatch_run, kicked]

/-- The user-space scheduler goes to its own queue, or is left to the kernel. -/
theorem enqueueUsersched_enqueued {p : Nat} {k : Kernel} (enqFlags : U64) (shouldKick : Bool)
    (usersched : isUserschedTask ro p = true) (present : (k.taskCtx p).isSome = true) :
    Enqueued ro env p enqFlags k ((do
      if ro.userschedEnabled then scxBpfDsqInsert p schedDsq ro.sliceNs enqFlags
      kickPrevCpu shouldKick (k.task p).cpu : BpfM Unit).run k).2 := by
  have effect : ∀ kicks, Enqueued ro env p enqFlags k ((if ro.userschedEnabled then
      k.insert p schedDsq ro.sliceNs else k).kickAll kicks) := fun kicks =>
    .usersched kicks usersched present
  cases enabled : ro.userschedEnabled with
  | true =>
    obtain ⟨kicks, kicked⟩ := kickPrevCpu_run shouldKick (k.task p).cpu
      (k.insert p schedDsq ro.sliceNs)
    simp only [if_true, run_then, scxBpfDsqInsert, run_modifyState, kicked]
    simpa only [enabled, if_true] using effect kicks
  | false =>
    obtain ⟨kicks, kicked⟩ := kickPrevCpu_run shouldKick (k.task p).cpu k
    simp only [Bool.false_eq_true, if_false, kicked]
    simpa only [enabled, Bool.false_eq_true, if_false] using effect kicks

theorem cognisEnqueue_enqueued (p : Nat) (enqFlags : U64) (k : Kernel) :
    Enqueued ro env p enqFlags k ((cognisEnqueue ro env p enqFlags).run k).2 := by
  simp only [cognisEnqueue, run_then, run_getThe, tryLookupTaskCtx, run_done]
  cases storage : k.taskCtx p with
  | none => exact .skipped storage
  | some tctx =>
    have present : (k.taskCtx p).isSome = true := by simp [storage]
    by_cases usersched : isUserschedTask ro p = true
    · simp only [if_pos usersched]
      exact enqueueUsersched_enqueued ro env enqFlags _ usersched present
    have other : isUserschedTask ro p = false := Bool.eq_false_iff.mpr usersched
    simp only [if_neg usersched]
    have directly : ∀ cpu shouldKick kickCpu, ¬ Defers ro env p enqFlags k →
        Enqueued ro env p enqFlags k ((do
          let slice ← taskSlice ro env p cpu
          directLocalDispatch p cpu slice enqFlags
          kickPrevCpu shouldKick kickCpu : BpfM Unit).run k).2 := by
      intro cpu shouldKick kickCpu decided
      obtain ⟨qs, slice, kicks, asked, run⟩ :=
        placeDirectly_run ro env p cpu enqFlags shouldKick kickCpu k
      rw [run]
      exact .direct qs cpu slice kicks other present decided asked
    have decided : ∀ r, enqueueRoute ro env k.nrCpuIds (k.task p) p tctx enqFlags = r →
        (∀ m b, r ≠ .deferred m b) → ¬ Defers ro env p enqFlags k := by
      rintro r route placed ⟨c, found, _, m, b, later⟩
      cases Option.some.inj (found.symm.trans storage)
      exact placed m b (route.symm.trans later)
    cases route : enqueueRoute ro env k.nrCpuIds (k.task p) p tctx enqFlags with
    | kthread => exact directly _ _ _ (decided _ route fun _ _ h => nomatch h)
    | sticky => exact directly _ _ _ (decided _ route fun _ _ h => nomatch h)
    | idle cpu => exact directly _ _ _ (decided _ route fun _ _ h => nomatch h)
    | deferred canMigrate prevCpuRtBusy =>
      obtain ⟨qs, target, slice, run, spills, asked⟩ :=
        enqueueDeferred_run ro env p tctx canMigrate prevCpuRtBusy enqFlags k
      obtain ⟨kicks, kicked⟩ := kickPrevCpu_run (isQueuedWakeup env (k.task p) enqFlags)
        (k.task p).cpu (k.defer ro env p tctx qs target slice)
      simp only [run_then, run, kicked]
      exact .deferred tctx qs target slice kicks storage
        ⟨tctx, storage, other, canMigrate, prevCpuRtBusy, route⟩ spills.known asked

inductive Selected (p : Nat) (k : Kernel) : Int × Kernel → Prop
  | kept (cpu : Int) : Selected p k (cpu, k)
  | placed (qs : List Nat) (cpu : Int) (slice : U64) :
      isUserschedTask ro p = false → qs ⊆ taskDsqs ro k.nrCpuIds →
      Selected p k (cpu, (k.touchAll qs).insertRouted p (localOn cpu) slice)

theorem cognisSelectCpu_selected (p : Nat) (prevCpu : Int) (wakeFlags : U64) (k : Kernel) :
    Selected ro p k ((cognisSelectCpu ro env p prevCpu wakeFlags).run k) := by
  simp only [cognisSelectCpu, run_then, run_getThe, ↓run_ite, run_done, taskSlice_run,
    directLocalDispatch_run]
  generalize (if (!(k.task p).cpusPtr prevCpu) = true then
    if (k.task p).cpusPtr env.thisCpu = true then env.thisCpu else env.cpumaskFirst p
    else prevCpu) = previous
  split
  · exact .kept _
  rename_i other
  split
  · exact .kept _
  split
  · exact .placed _ _ _ (Bool.eq_false_iff.mpr other)
      (List.Subset.trans (pressureQueues_subset ro _ _) (ownTiers_subset ro _ _))
  · exact .kept _

end

end Cognis.Bpf
