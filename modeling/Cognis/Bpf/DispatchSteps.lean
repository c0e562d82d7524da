import Mathlib.Logic.Relation
import Cognis.Lib.Runs
import Cognis.Bpf.Tiers

/-! One dispatch as a sequence of elementary updates: first the drain of the ring,
then the selection. Each names only queues the scheduler creates. -/
namespace Cognis.Bpf
open StateLogic Relation

def Counters.routing (c : Counters) : U64 × U64 × U64 × U64 × U64 :=
  (c.kernelDispatches, c.localDispatches, c.llcDispatches, c.nodeDispatches, c.sharedDispatches)

def Kernel.count (k : Kernel) (f : Counters → Counters) : Kernel :=
  { k with counters := f k.counters }

def Kernel.kick (k : Kernel) (cpu : Int) : Kernel := { k with kicks := k.kicks ++ [cpu] }

inductive MessageStep (ro : Rodata) (n : Nat) (k : Kernel) : Kernel → Prop
  | insert (p q : Nat) (slice vtime : U64) :
      q ∈ taskDsqs ro n → MessageStep ro n k (k.dispatchVtime p q slice vtime)
  | cancel : MessageStep ro n k k.dispatchCancel
  | count (f : Counters → Counters) :
      (∀ c, (f c).routing = c.routing) → MessageStep ro n k (k.count f)
  | kick (cpu : Int) : MessageStep ro n k (k.kick cpu)

inductive DrainStep (ro : Rodata) (n : Nat) (now : U64) (k : Kernel) : Kernel → Prop
  | stamp : DrainStep ro n now k { k with lastDispatchAt := now }
  | pop (rest : List (Option DispatchedTaskCtx)) : DrainStep ro n now k { k with ring := rest }
  | message {k' : Kernel} : MessageStep ro n k k' → DrainStep ro n now k k'

inductive PickStep (ro : Rodata) (n : Nat) (k : Kernel) : Kernel → Prop
  | touch (q : Nat) : q ∈ knownDsqs ro n → PickStep ro n k (k.touch q)
  | flush : PickStep ro n k k.flush
  | move (cpu : Int) (q p : Nat) : PickStep ro n k (k.moveToLocal cpu q p)
  | count (f : Counters → Counters) :
      (∀ c, (f c).routing = c.routing) → PickStep ro n k (k.count f)
  | clear : PickStep ro n k { k with userschedNeeded := false }
  | refill (p : Nat) (slice : U64) :
      PickStep ro n k (k.setTask p { k.task p with slice := slice })

/-- What no callback changes once the queues exist; a request to exit stays. -/
structure Steady (k k' : Kernel) : Prop where
  created : k'.created = k.created
  nrCpuIds : k'.nrCpuIds = k.nrCpuIds
  exits : k.exits <+: k'.exits

/-- What no update of a dispatch or of a timer tick changes. -/
structure Unchanged (k k' : Kernel) : Prop extends Steady k k' where
  taskCtx : k'.taskCtx = k.taskCtx
  inserts : k'.inserts = k.inserts
  routing : k'.counters.routing = k.counters.routing

section

variable {ro : Rodata} {env : Env} {n : Nat} {k k' : Kernel}

theorem Steady.refl (k : Kernel) : Steady k k := ⟨rfl, rfl, List.prefix_rfl⟩

theorem Steady.trans {k'' : Kernel} (h : Steady k k') (h' : Steady k' k'') : Steady k k'' :=
  ⟨h'.created.trans h.created, h'.nrCpuIds.trans h.nrCpuIds, h.exits.trans h'.exits⟩

theorem Unchanged.refl (k : Kernel) : Unchanged k k := ⟨.refl k, rfl, rfl, rfl⟩

theorem Unchanged.trans {k'' : Kernel} (h : Unchanged k k') (h' : Unchanged k' k'') :
    Unchanged k k'' :=
  ⟨h.toSteady.trans h'.toSteady, h'.taskCtx.trans h.taskCtx, h'.inserts.trans h.inserts,
    h'.routing.trans h.routing⟩

theorem Unchanged.of_eq (created : k'.created = k.created) (cpus : k'.nrCpuIds = k.nrCpuIds)
    (exits : k.exits <+: k'.exits) (taskCtx : k'.taskCtx = k.taskCtx)
    (inserts : k'.inserts = k.inserts)
    (routing : k'.counters.routing = k.counters.routing) : Unchanged k k' :=
  ⟨⟨created, cpus, exits⟩, taskCtx, inserts, routing⟩

theorem MessageStep.unchanged (step : MessageStep ro n k k') : Unchanged k k' := by
  cases step with
  | insert p q slice vtime _ =>
    unfold Kernel.dispatchVtime
    split
    · exact .of_eq rfl rfl (List.prefix_append _ _) rfl rfl rfl
    · exact .of_eq rfl rfl List.prefix_rfl rfl rfl rfl
  | cancel =>
    unfold Kernel.dispatchCancel
    split <;> exact .of_eq rfl rfl List.prefix_rfl rfl rfl rfl
  | count f same => exact .of_eq rfl rfl List.prefix_rfl rfl rfl (same _)
  | kick => exact .of_eq rfl rfl List.prefix_rfl rfl rfl rfl

theorem handled_unchanged (steps : ReflTransGen (MessageStep ro n) k k') : Unchanged k k' :=
  Runs.updates_keep (fun _ _ step before => before.trans step.unchanged) steps (.refl k)

theorem MessageStep.ring (step : MessageStep ro n k k') : k'.ring = k.ring ∧
    k'.lastDispatchAt = k.lastDispatchAt ∧ k'.timerArmed = k.timerArmed := by
  cases step with
  | insert p q slice vtime _ =>
    unfold Kernel.dispatchVtime
    split <;> exact ⟨rfl, rfl, rfl⟩
  | cancel =>
    unfold Kernel.dispatchCancel
    split <;> exact ⟨rfl, rfl, rfl⟩
  | _ => exact ⟨rfl, rfl, rfl⟩

theorem DrainStep.unchanged {now : U64} (step : DrainStep ro n now k k') : Unchanged k k' := by
  cases step with
  | message step => exact step.unchanged
  | _ => exact .of_eq rfl rfl List.prefix_rfl rfl rfl rfl

theorem drained_unchanged {now : U64} (steps : ReflTransGen (DrainStep ro n now) k k') :
    Unchanged k k' :=
  Runs.updates_keep (fun _ _ step before => before.trans step.unchanged) steps (.refl k)

theorem PickStep.unchanged (step : PickStep ro n k k') : Unchanged k k' := by
  cases step with
  | count f same => exact .of_eq rfl rfl List.prefix_rfl rfl rfl (same _)
  | _ => exact .of_eq rfl rfl List.prefix_rfl rfl rfl rfl

theorem PickStep.ring (step : PickStep ro n k k') :
    k'.ring = k.ring ∧ k'.lastDispatchAt = k.lastDispatchAt ∧ k'.timerArmed = k.timerArmed ∧
      k'.overflows = k.overflows := by
  cases step <;> exact ⟨rfl, rfl, rfl, rfl⟩

theorem picked_unchanged (steps : ReflTransGen (PickStep ro n) k k') : Unchanged k k' :=
  Runs.updates_keep (fun _ _ step before => before.trans step.unchanged) steps (.refl k)

section

variable {I : Kernel → Prop} (messages : ∀ s t, MessageStep ro n s t → I s → I t)
  (cpus : ∀ s, I s → s.nrCpuIds = n)

include messages

theorem countOne_messages {f : Counters → Counters} (same : ∀ c, (f c).routing = c.routing) :
    Keeps I (countOne f) :=
  Keeps.update fun s => messages s _ (.count f same)

theorem kickTaskCpu_messages (p : Nat) (cpu : Int) : Keeps I (kickTaskCpu env p cpu) := by
  apply kickTaskCpu_keeps
  intro c
  exact Keeps.update fun s => messages s _ (.kick c)

theorem dispatchVtime_messages (p : Nat) {q : Nat} (slice vtime flags : U64)
    (known : q ∈ taskDsqs ro n) : Keeps I (scxBpfDispatchVtime p q slice vtime flags) :=
  Keeps.update fun s => messages s _ (.insert p q slice vtime known)

theorem dispatchAnywhere_messages (task : DispatchedTaskCtx) (prevCpu : Int) :
    Keeps I (dispatchAnywhere env task prevCpu) :=
  Keeps.bind (dispatchVtime_messages messages _ _ _ _ (sharedDsq_mem ro n)) fun _ =>
    Keeps.bind (countOne_messages messages fun _ => rfl) fun _ => kickTaskCpu_messages messages _ _

theorem kickOrCancel_messages (task : DispatchedTaskCtx) (cpu : Int) :
    Keeps I (kickOrCancel task cpu) := by
  refine Keeps.bind (Keeps.bind Keeps.get fun _ => Keeps.pure _) fun tctx => ?_
  split
  · exact Keeps.bind (Keeps.update fun s => messages s _ .cancel) fun _ =>
      countOne_messages messages fun _ => rfl
  · exact Keeps.update fun s => messages s _ (.kick cpu)

include cpus

theorem dispatchToCpu_messages (task : DispatchedTaskCtx) (prevCpu : Int) :
    Keeps I (dispatchToCpu task prevCpu) := by
  refine Keeps.read fun s start => Keeps.bind (countOne_messages messages fun c => ?_) fun _ =>
    Keeps.bind (dispatchVtime_messages messages _ _ _ _ ?_) fun _ =>
      kickOrCancel_messages messages _ _
  · split <;> rfl
  · rw [cpus s start]
    exact cpuToDsq_mem ro n _

theorem dispatchTask_messages (task : DispatchedTaskCtx) : Keeps I (dispatchTask env task) := by
  unfold dispatchTask
  split
  · exact Keeps.pure _
  apply Keeps.bind Keeps.get
  intro s
  split
  · exact dispatchAnywhere_messages messages task _
  · exact dispatchToCpu_messages messages cpus task _

theorem handleDispatchedTask_messages (sample : Option DispatchedTaskCtx) :
    Keeps I (handleDispatchedTask env sample) := by
  cases sample with
  | none => exact Keeps.pure _
  | some task =>
    exact Keeps.bind (dispatchTask_messages messages cpus task) fun _ =>
      Keeps.bind (Keeps.bind Keeps.get fun _ => Keeps.pure _) fun _ => Keeps.pure _

end

section

variable {I : Kernel → Prop} (drains : ∀ s t, DrainStep ro n env.now s t → I s → I t)
  (cpus : ∀ s, I s → s.nrCpuIds = n)

include drains cpus

theorem drainSamples_drains (ring : List (Option DispatchedTaskCtx)) :
    Keeps I (drainSamples (handleDispatchedTask env) ring) := by
  induction ring with
  | nil => exact Keeps.pure _
  | cons sample rest ih =>
    refine Keeps.bind (Keeps.update fun s => drains s _ (.pop rest)) fun _ =>
      Keeps.bind (handleDispatchedTask_messages (fun s t step => drains s t (.message step)) cpus
        sample) fun stop => ?_
    split
    · exact Keeps.pure _
    · exact Keeps.bind ih fun _ => Keeps.pure _

theorem drainDispatched_drains : Keeps I (drainDispatched env) :=
  Keeps.bind (Keeps.update fun s => drains s _ .stamp) fun _ =>
    Keeps.bind (Keeps.bind Keeps.get fun _ => drainSamples_drains drains cpus _) fun _ =>
      Keeps.pure _

end

theorem orElse_keeps {I : Kernel → Prop} {x y : BpfM Bool} (hx : Keeps I x) (hy : Keeps I y) :
    Keeps I (do if ← x then return true else y) := by
  apply Keeps.bind hx
  intro found
  split
  · exact Keeps.pure _
  · exact hy

section

variable {I : Kernel → Prop} (picks : ∀ s t, PickStep ro n s t → I s → I t)
  (cpus : ∀ s, I s → s.nrCpuIds = n)

include picks

theorem touchAll_picks {qs : List Nat} (known : qs ⊆ knownDsqs ro n) {s : Kernel} (start : I s) :
    I (s.touchAll qs) := by
  induction qs generalizing s with
  | nil => exact s.touchAll_nil.symm ▸ start
  | cons q qs ih =>
    obtain ⟨first, rest⟩ := List.cons_subset.mp known
    rw [Kernel.touchAll_cons]
    exact ih rest (picks s _ (.touch q first) start)

theorem moveToLocal_picks (cpu : Int) {q : Nat} (known : q ∈ knownDsqs ro n) :
    Keeps I (scxBpfDsqMoveToLocal cpu q) := by
  intro s start
  have committed := picks _ _ .flush (picks s _ (.touch q known) start)
  rw [scxBpfDsqMoveToLocal_run]
  split
  · exact committed
  · exact picks _ _ (.move cpu q _) committed

theorem moveIf_picks (cond : Bool) (cpu : Int) {q : Nat}
    (known : cond = true → q ∈ knownDsqs ro n) :
    Keeps I (moveIf cond cpu q) := by
  unfold moveIf
  split
  · exact moveToLocal_picks picks cpu (known ‹_›)
  · exact Keeps.pure _

theorem tierMoves_picks (cpu : Int) (best localTier llc node shared : Tier)
    (chosen : best.1.isSome = true → best ∈ [localTier, llc, node, shared])
    (known : ∀ t ∈ [localTier, llc, node, shared], t.2 ∈ taskDsqs ro n) :
    Keeps I (tierMoves cpu best localTier llc node shared) := by
  have tier : ∀ t ∈ [localTier, llc, node, shared], ∀ cond, Keeps I (moveIf cond cpu t.2) :=
    fun t member cond => moveIf_picks picks cond cpu fun _ => taskDsqs_subset ro n (known t member)
  refine orElse_keeps
    (moveIf_picks picks _ cpu fun found => taskDsqs_subset ro n (known _ (chosen found))) <|
    orElse_keeps (tier _ (by simp) _) <| orElse_keeps (tier _ (by simp) _) <|
      orElse_keeps (tier _ (by simp) _) (tier _ (by simp) _)

theorem stealBest_picks (cpu : Int) (accept : Nat → Bool) {qs : List Nat}
    (known : qs ⊆ taskDsqs ro n) :
    Keeps I (do stealBest cpu (← scanHeads accept qs none)) := by
  have created : qs ⊆ knownDsqs ro n := fun q member => taskDsqs_subset ro n (known member)
  intro s start
  simp only [run_then, scanHeads_run]
  have scanned : I (s.touchAll (scanTouched s.queues qs)) :=
    touchAll_picks picks (List.Subset.trans (scanTouched_subset _ _) created) start
  cases best : Selection.select (headKey s.queues) none (candidates s.queues accept qs) with
  | none => exact scanned
  | some c =>
    have leads := (Selection.select_eq_some_iff _ _ _).mp best
    have member := (mem_candidates.mp (Selection.leads_mem _ leads)).1
    exact moveToLocal_picks picks cpu (created member) _ scanned

theorem stealAndCount_picks (cpu : Int) {qs : List Nat} (known : qs ⊆ taskDsqs ro n)
    {f : Counters → Counters} (same : ∀ c, (f c).routing = c.routing) :
    Keeps I (do stealAndCount cpu (← scanHeads anyHead qs none) f) := by
  refine Keeps.bind (f := fun found => do
    if found then
      countOne f
      return true
    return false) (stealBest_picks picks cpu anyHead known) fun found => ?_
  split
  · exact Keeps.bind (Keeps.update fun s => picks s _ (.count f same)) fun _ => Keeps.pure _
  · exact Keeps.pure _

theorem clearNeeded_picks : Keeps I testAndClearUserschedNeeded :=
  Keeps.bind Keeps.get fun _ => Keeps.bind (Keeps.update fun s => picks s _ .clear) fun _ =>
    Keeps.pure _

theorem userschedHasPendingTasks_picks : Keeps I (userschedHasPendingTasks ro env) := by
  unfold userschedHasPendingTasks
  split
  · exact Keeps.pure _
  apply Keeps.bind (clearNeeded_picks picks)
  intro needed
  split
  · exact Keeps.pure _
  apply Keeps.bind Keeps.get
  intro s
  split <;> exact Keeps.pure _

/-- The queue of the user-space scheduler is only named when it exists. -/
theorem dispatchUsersched_picks (cpu : Int) : Keeps I (dispatchUsersched ro env cpu) := by
  intro s start
  have asked : I ((userschedHasPendingTasks ro env).run s).2 :=
    userschedHasPendingTasks_picks picks s start
  simp only [dispatchUsersched, run_then, ↓run_ite]
  split
  · rename_i pending
    refine moveToLocal_picks picks cpu ?_ _ asked
    cases enabled : ro.userschedEnabled with
    | false => simp [userschedHasPendingTasks, enabled] at pending
    | true => simp [knownDsqs, enabled]
  · exact asked

include cpus

theorem moveFromOwnTiers_picks (cpu : Int) : Keeps I (moveFromOwnTiers ro cpu) := by
  intro s start
  have tiers : ∀ t ∈ tiersOf ro s.queues cpu, t.2 ∈ taskDsqs ro n := by
    intro t member
    have known := tiersOf_known ro member
    rwa [Kernel.queues_nrCpuIds, cpus s start] at known
  have own : ownTiers ro s.nrCpuIds cpu ⊆ knownDsqs ro n := fun q member =>
    taskDsqs_subset ro n (cpus s start ▸ ownTiers_subset ro s.nrCpuIds cpu member)
  have moves := tierMoves_picks picks cpu
    (leadingTier ro s.queues cpu) (tierOf s.queues (cpuToDsq s.nrCpuIds cpu))
    (tierOf s.queues (cpuLlcDsq ro s.nrCpuIds cpu)) (nodeTierOf ro s.queues cpu)
    (tierOf s.queues sharedDsq) (fun found => leadingTier_mem ro _ _ found) tiers
  rw [moveFromOwnTiers_run]
  exact moves _ (touchAll_picks picks own start)

theorem stealRemoteLlc_picks (cpu : Int) (sameNodeOnly : Bool) :
    Keeps I (stealRemoteLlc ro cpu sameNodeOnly) := by
  apply Keeps.read
  intro s start
  dsimp only
  split
  · exact Keeps.pure _
  · exact stealAndCount_picks picks cpu (cpus s start ▸ llcQueues_subset ro _ cpu sameNodeOnly)
      fun _ => rfl

theorem stealRemoteNode_picks (cpu : Int) : Keeps I (stealRemoteNode ro cpu) := by
  apply Keeps.read
  intro s start
  dsimp only
  split
  · exact Keeps.pure _
  · exact stealAndCount_picks picks cpu (cpus s start ▸ nodeQueues_subset ro _ cpu) fun _ => rfl

theorem stealRemoteCpu_picks (cpu : Int) (sameLlcOnly : Bool) :
    Keeps I (stealRemoteCpu env cpu sameLlcOnly) := by
  apply Keeps.read
  intro s start
  split
  · exact Keeps.pure _
  · exact stealBest_picks picks cpu _ (cpus s start ▸ cpuQueues_subset ro env _ cpu sameLlcOnly)

theorem stealRemote_picks (cpu : Int) : Keeps I (stealRemote ro env cpu) :=
  orElse_keeps (stealRemoteCpu_picks picks cpus cpu true) <|
    orElse_keeps (stealRemoteCpu_picks picks cpus cpu false) <|
      orElse_keeps (stealRemoteLlc_picks picks cpus cpu true) <|
        orElse_keeps (stealRemoteNode_picks picks cpus cpu)
          (stealRemoteLlc_picks picks cpus cpu false)

theorem taskSlice_picks (p : Nat) (cpu : Int) : Keeps I (taskSlice ro env p cpu) := by
  intro s start
  rw [taskSlice_run]
  refine touchAll_picks picks (fun q member => taskDsqs_subset ro n ?_) start
  exact cpus s start ▸ ownTiers_subset ro _ cpu (pressureQueues_subset ro _ cpu member)

theorem refillPrev_picks (cpu : Int) (prev : Option Nat) :
    Keeps I (refillPrev ro env cpu prev) := by
  have wants : ∀ p, Keeps I (wantsAnotherRound ro env p) := by
    refine fun p => Keeps.bind Keeps.get fun s => ?_
    split
    · exact Keeps.pure _
    split
    · exact Keeps.pure _
    · exact userschedHasPendingTasks_picks picks
  cases prev with
  | none => exact Keeps.pure _
  | some p =>
    apply Keeps.bind (wants p)
    intro wanted
    split
    · exact Keeps.bind (taskSlice_picks picks cpus p cpu) fun slice =>
        Keeps.update fun s => picks s _ (.refill p slice)
    · exact Keeps.pure _

theorem selectTask_picks (cpu : Int) (prev : Option Nat) :
    Keeps I (selectTask ro env cpu prev) := by
  apply Keeps.bind (dispatchUsersched_picks picks cpu)
  intro done
  split
  · exact Keeps.pure _
  apply Keeps.bind (moveFromOwnTiers_picks picks cpus cpu)
  intro done
  split
  · exact Keeps.pure _
  apply Keeps.bind (stealRemote_picks picks cpus cpu)
  intro done
  split
  · exact Keeps.pure _
  · exact refillPrev_picks picks cpus cpu prev

end

/-- The state in which the selection starts. -/
def drained (env : Env) (k : Kernel) : Kernel := ((drainDispatched env).run k).2

theorem cognisDispatch_run (cpu : Int) (prev : Option Nat) (k : Kernel) :
    (cognisDispatch ro env cpu prev).run k = (selectTask ro env cpu prev).run (drained env k) := rfl

theorem drained_steps (ro : Rodata) (env : Env) (k : Kernel) :
    ReflTransGen (DrainStep ro k.nrCpuIds env.now) k (drained env k) :=
  drainDispatched_drains (fun _ _ step before => before.tail step)
    (fun _ before => (drained_unchanged before).nrCpuIds) k .refl

theorem handled_steps (ro : Rodata) (env : Env) (sample : Option DispatchedTaskCtx) (k : Kernel) :
    ReflTransGen (MessageStep ro k.nrCpuIds) k ((handleDispatchedTask env sample).run k).2 :=
  handleDispatchedTask_messages (fun _ _ step before => before.tail step)
    (fun _ before => (handled_unchanged before).nrCpuIds) sample k .refl

theorem selectTask_steps (ro : Rodata) (env : Env) (cpu : Int) (prev : Option Nat) (k : Kernel) :
    ReflTransGen (PickStep ro k.nrCpuIds) k ((selectTask ro env cpu prev).run k).2 :=
  selectTask_picks (fun _ _ step before => before.tail step)
    (fun _ before => (picked_unchanged before).nrCpuIds) cpu prev k .refl

theorem opsDispatch_run (cpu : Int) (prev : Option Nat) (k : Kernel) :
    ((opsDispatch ro env cpu prev).run k).2 =
      ((selectTask ro env cpu prev).run (drained env k)).2.flush := rfl

/-- What a dispatch does after the drain. -/
theorem picked_steps (ro : Rodata) (env : Env) (cpu : Int) (prev : Option Nat) (k : Kernel) :
    ReflTransGen (PickStep ro k.nrCpuIds) (drained env k)
      ((opsDispatch ro env cpu prev).run k).2 := by
  rw [← (drained_unchanged (drained_steps ro env k)).nrCpuIds]
  exact (selectTask_steps ro env cpu prev (drained env k)).tail .flush

theorem opsDispatch_unchanged (ro : Rodata) (env : Env) (cpu : Int) (prev : Option Nat)
    (k : Kernel) : Unchanged k ((opsDispatch ro env cpu prev).run k).2 :=
  (drained_unchanged (drained_steps ro env k)).trans
    (picked_unchanged (picked_steps ro env cpu prev k))

/-- The state in which `ops.dispatch` calls the drain. -/
def stamped (env : Env) (k : Kernel) : Kernel := { k with lastDispatchAt := env.now }

/-- Nothing to drain. -/
theorem drained_of_empty {k : Kernel} (ring : k.ring = []) : drained env k = stamped env k := by
  have start : (stamped env k).ring = [] := ring
  have run : drained env k =
      ((bpfUserRingbufDrain (handleDispatchedTask env)).run (stamped env k)).2 := rfl
  simp only [run, bpfUserRingbufDrain, run_then, run_getThe, start, drainSamples, run_done]

theorem opsDispatch_clock (ro : Rodata) (env : Env) (cpu : Int) (prev : Option Nat)
    (k : Kernel) :
    ((opsDispatch ro env cpu prev).run k).2.lastDispatchAt = env.now ∧
      ((opsDispatch ro env cpu prev).run k).2.timerArmed = k.timerArmed := by
  -- Stamping twice is stamping once, so the drain may start from the stamped state.
  have drains := drained_steps ro env (stamped env k)
  have start : (stamped env k).lastDispatchAt = env.now ∧
      (stamped env k).timerArmed = k.timerArmed := ⟨rfl, rfl⟩
  have begun : (drained env (stamped env k)).lastDispatchAt = env.now ∧
      (drained env (stamped env k)).timerArmed = k.timerArmed := by
    refine Runs.updates_keep (I := fun s => s.lastDispatchAt = env.now ∧
      s.timerArmed = k.timerArmed) (fun s t step before => ?_) drains start
    cases step with
    | stamp => exact ⟨rfl, before.2⟩
    | message step => exact ⟨step.ring.2.1.trans before.1, step.ring.2.2.trans before.2⟩
    | _ => exact before
  exact Runs.updates_keep (I := fun s => s.lastDispatchAt = env.now ∧
    s.timerArmed = k.timerArmed)
    (fun _ _ step before => ⟨step.ring.2.1.trans before.1, step.ring.2.2.1.trans before.2⟩)
    (picked_steps ro env cpu prev (stamped env k)) begun

end

end Cognis.Bpf
