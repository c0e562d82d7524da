import Cognis.Bpf.Fetching
import Cognis.Bpf.RingDrain
import Cognis.Bpf.StaleMessages

/-! One dispatch as a function of the state it starts in. The message it reads tells its
task a slice and a virtual time at once; the insertion stays pending until the first move. -/
namespace Cognis.Bpf
open StateLogic Relation

namespace Kernel

/-- As the kernel calls `ops.dispatch`: nothing is pending, and the buffer of
`maxDispatchSlot` slots has room for what the ring brings. -/
structure Fresh (k : Kernel) : Prop where
  pending : k.pending = []
  room : k.ring ≠ [] → 1 < k.slots

variable (ro : Rodata) (env : Env) (k : Kernel)

/-- The message that a dispatch reads. Samples that are too short are skipped, and an
insertion stops the drain. -/
def message : Option DispatchedTaskCtx :=
  (k.ring.findSome? id).filter fun task => env.taskFromPid task.pid

def tell (task : DispatchedTaskCtx) : Queues where
  __ := k.queues
  task := Function.update k.task task.pid
    { (k.task task.pid).withSlice task.sliceNs with dsqVtime := task.vtime }

/-- The queue that the message asks for, or that of the CPU the task was on. -/
def target (task : DispatchedTaskCtx) : Nat :=
  if task.cpu = rlCpuAny then sharedDsq
  else cpuToDsq k.nrCpuIds
    (if (k.task task.pid).cpusPtr task.cpu then task.cpu else (k.task task.pid).cpu)

/-- The message names a CPU, and its task was enqueued again or has no storage. -/
def withdraws (task : DispatchedTaskCtx) : Bool :=
  task.cpu != rlCpuAny && (k.taskCtx task.pid).all fun c => decide (c.enqCnt > task.enqCnt)

/-- The queues when the drain is over, and the insertion it leaves pending. -/
def arriving : View :=
  match k.message env with
  | none => k.queues.still
  | some task => ⟨k.tell task, if k.withdraws task then [] else [(k.target task, task.pid)]⟩

/-- The queues as the moves of a dispatch find them. -/
def landed : Queues := (k.arriving env).landed

/-- What the peeks at the CPU's own tiers see. A move from the queue of the user-space
scheduler comes first where it has something to do, and commits the insertion. -/
def shown : View :=
  (k.arriving env).after (if userschedPending ro env k then [schedDsq] else [])

end Kernel

section

variable (env : Env) (task : DispatchedTaskCtx) {k : Kernel}

theorem dispatchVtime_view (q : Nat) (free : k.slots ≠ 0) :
    (k.dispatchVtime task.pid q task.sliceNs task.vtime).view =
      ⟨k.tell task, k.pending ++ [(q, task.pid)]⟩ ∧
      (k.dispatchVtime task.pid q task.sliceNs task.vtime).slots = k.slots - 1 := by
  rw [Kernel.dispatchVtime, if_neg free]
  exact ⟨rfl, rfl⟩

theorem dispatchCancel_view (k : Kernel) :
    k.dispatchCancel.view = ⟨k.queues, k.pending.dropLast⟩ ∧ k.slots ≤ k.dispatchCancel.slots := by
  unfold Kernel.dispatchCancel
  cases last : k.pending.getLast? with
  | none =>
    have empty : k.pending = [] := List.getLast?_eq_none_iff.mp last
    rw [Kernel.view_of_settled empty, empty]
    exact ⟨rfl, le_rfl⟩
  | some e => exact ⟨rfl, Nat.le_succ _⟩

theorem kickTaskCpu_view (p : Nat) (cpu : Int) (k : Kernel) :
    ((kickTaskCpu env p cpu).run k).2.view = k.view ∧
      ((kickTaskCpu env p cpu).run k).2.slots = k.slots :=
  kickTaskCpu_keeps env (I := fun s => s.view = k.view ∧ s.slots = k.slots)
    (fun _ => Keeps.update fun _ before => before) p cpu k ⟨rfl, rfl⟩

theorem dispatchAnywhere_view (free : k.slots ≠ 0) (prevCpu : Int) :
    ((dispatchAnywhere env task prevCpu).run k).2.view =
      ⟨k.tell task, k.pending ++ [(sharedDsq, task.pid)]⟩ ∧
      ((dispatchAnywhere env task prevCpu).run k).2.slots = k.slots - 1 := by
  simp only [dispatchAnywhere, scxBpfDispatchVtime, countOne, run_then, run_modifyState]
  obtain ⟨view, slots⟩ := dispatchVtime_view task sharedDsq free
  obtain ⟨kicked, kept⟩ := kickTaskCpu_view env task.pid prevCpu _
  exact ⟨kicked.trans view, kept.trans slots⟩

theorem kickOrCancel_view (cpu : Int) (k : Kernel) :
    ((kickOrCancel task cpu).run k).2.view =
      (if (k.taskCtx task.pid).all fun c => decide (c.enqCnt > task.enqCnt) then
        ⟨k.queues, k.pending.dropLast⟩ else k.view) ∧
      k.slots ≤ ((kickOrCancel task cpu).run k).2.slots := by
  simp only [kickOrCancel, tryLookupTaskCtx, run_then, run_getThe, run_done, ↓run_ite,
    scxBpfDispatchCancel, scxBpfKickCpu, countOne, run_modifyState]
  split
  · exact dispatchCancel_view k
  · exact ⟨rfl, le_rfl⟩

/-- The generations are compared after the insertion, which changes none. -/
theorem insertOrWithdraw_view (free : k.slots ≠ 0) (q : Nat) (cpu : Int) :
    ((kickOrCancel task cpu).run (k.dispatchVtime task.pid q task.sliceNs task.vtime)).2.view =
      ⟨k.tell task,
        if (k.taskCtx task.pid).all fun c => decide (c.enqCnt > task.enqCnt) then k.pending
        else k.pending ++ [(q, task.pid)]⟩ ∧
      k.slots - 1 ≤ ((kickOrCancel task cpu).run
        (k.dispatchVtime task.pid q task.sliceNs task.vtime)).2.slots := by
  obtain ⟨view, slots⟩ := dispatchVtime_view task q free
  obtain ⟨kicked, room⟩ := kickOrCancel_view task cpu
    (k.dispatchVtime task.pid q task.sliceNs task.vtime)
  have queues : (k.dispatchVtime task.pid q task.sliceNs task.vtime).queues = k.tell task :=
    congrArg View.now view
  have pending : (k.dispatchVtime task.pid q task.sliceNs task.vtime).pending =
      k.pending ++ [(q, task.pid)] := congrArg View.pending view
  refine ⟨?_, slots ▸ room⟩
  rw [kicked, Kernel.dispatchVtime_taskCtx, queues, pending, view, List.dropLast_concat]
  split <;> rfl

theorem dispatchToCpu_view (free : k.slots ≠ 0) (prevCpu : Int) :
    ((dispatchToCpu task prevCpu).run k).2.view =
      ⟨k.tell task,
        if (k.taskCtx task.pid).all fun c => decide (c.enqCnt > task.enqCnt) then k.pending
        else k.pending ++ [(cpuToDsq k.nrCpuIds
          (if (k.task task.pid).cpusPtr task.cpu then task.cpu else prevCpu), task.pid)]⟩ ∧
      k.slots - 1 ≤ ((dispatchToCpu task prevCpu).run k).2.slots := by
  let counted := k.count fun c =>
    if (k.task task.pid).cpusPtr task.cpu then { c with userDispatches := c.userDispatches + 1 }
    else { c with bounceDispatches := c.bounceDispatches + 1 }
  exact insertOrWithdraw_view task (k := counted) free _ _

variable {env task}

/-- The callback on a message for a task that exists. -/
theorem dispatchTask_view (live : env.taskFromPid task.pid = true) (pending : k.pending = [])
    (room : 1 < k.slots) :
    ((dispatchTask env task).run k).2.view =
      ⟨k.tell task, if k.withdraws task then [] else [(k.target task, task.pid)]⟩ ∧
      ((dispatchTask env task).run k).2.slots ≠ 0 := by
  have free : k.slots ≠ 0 := Nat.ne_zero_of_lt room
  have left : k.slots - 1 ≠ 0 := Nat.sub_ne_zero_of_lt room
  rw [dispatchTask_live live, Kernel.target, Kernel.withdraws]
  by_cases anywhere : task.cpu = rlCpuAny
  · obtain ⟨view, slots⟩ := dispatchAnywhere_view env task free (k.task task.pid).cpu
    have unnamed : (task.cpu != rlCpuAny) = false := by rw [anywhere, bne_self_eq_false]
    rw [if_pos anywhere, view, slots, if_pos anywhere, unnamed, pending]
    exact ⟨rfl, left⟩
  · obtain ⟨view, slots⟩ := dispatchToCpu_view task free (k.task task.pid).cpu
    have named : (task.cpu != rlCpuAny) = true := bne_iff_ne.mpr anywhere
    rw [if_neg anywhere, view, if_neg anywhere, named, Bool.true_and, pending]
    exact ⟨rfl, (Nat.lt_of_lt_of_le (Nat.pos_of_ne_zero left) slots).ne'⟩

theorem consume_task {rest : List (Option DispatchedTaskCtx)} (ring : k.ring = some task :: rest) :
    consume env k = ((dispatchTask env task).run { k with ring := rest }).2 := by
  simp only [consume, ring]
  rfl

/-- The drain leaves behind what its first readable message asks for. -/
theorem ringDrained_view (ring : List (Option DispatchedTaskCtx)) (start : k.ring = ring)
    (fresh : k.Fresh) : (ringDrained env k).view = k.arriving env := by
  have still : k.view = k.queues.still := Kernel.view_of_settled fresh.pending
  induction ring generalizing k with
  | nil =>
    rw [ringDrained_nil env start, Kernel.arriving, Kernel.message, start, still]
    rfl
  | cons sample rest ih =>
    have room : 1 < k.slots := fresh.room (by rw [start]; exact List.cons_ne_nil _ _)
    cases sample with
    | none =>
      have later := ih (k := { k with ring := rest }) rfl ⟨fresh.pending, fun _ => room⟩ still
      rw [ringDrained_malformed env start, consume_malformed env start, later, Kernel.arriving,
        Kernel.arriving, Kernel.message, Kernel.message, start]
      rfl
    | some task =>
      have found : k.message env = if env.taskFromPid task.pid then some task else none := by
        rw [Kernel.message, start]
        rfl
      rw [ringDrained_task env start, consume_task start, Kernel.arriving, found]
      cases live : env.taskFromPid task.pid with
      | true =>
        obtain ⟨view, slots⟩ := dispatchTask_view (k := { k with ring := rest }) live fresh.pending
          room
        rw [if_pos slots, view]
        rfl
      | false =>
        have skipped : (dispatchTask env task).run { k with ring := rest } =
            ((), { k with ring := rest }) := by simp [dispatchTask, live]
        rw [skipped, if_pos (Nat.ne_zero_of_lt room)]
        exact still

theorem drained_view (fresh : k.Fresh) : (drained env k).view = k.arriving env :=
  ringDrained_view (k := stamped env k) k.ring rfl ⟨fresh.pending, fresh.room⟩

end

section

variable {ro : Rodata} {env : Env} {k k' : Kernel} {cpu : Int}

theorem MessageStep.asks {n : Nat} (step : MessageStep ro n k k') :
    k'.userschedNeeded = k.userschedNeeded ∧ k'.nrScheduled = k.nrScheduled := by
  cases step with
  | insert p q slice vtime _ =>
    unfold Kernel.dispatchVtime
    split <;> exact ⟨rfl, rfl⟩
  | cancel =>
    unfold Kernel.dispatchCancel
    split <;> exact ⟨rfl, rfl⟩
  | _ => exact ⟨rfl, rfl⟩

/-- The drain does not touch what the user-space scheduler is asked for. -/
theorem drained_asks (k : Kernel) :
    userschedPending ro env (drained env k) = userschedPending ro env k := by
  have same : (drained env k).userschedNeeded = k.userschedNeeded ∧
      (drained env k).nrScheduled = k.nrScheduled := by
    refine Runs.updates_keep (I := fun s => s.userschedNeeded = k.userschedNeeded ∧
      s.nrScheduled = k.nrScheduled) (fun s t step before => ?_) (drained_steps ro env k) ⟨rfl, rfl⟩
    cases step with
    | message step => exact ⟨step.asks.1.trans before.1, step.asks.2.trans before.2⟩
    | _ => exact before
  rw [userschedPending, userschedPending, same.1, same.2]

/-- At most one insertion is pending, for a CPU or for the shared queue. -/
theorem arriving_pending (env : Env) (k : Kernel) : (k.arriving env).pending = [] ∨
    ∃ e : Nat × Nat, (k.arriving env).pending = [e] ∧ e.1 ≤ sharedDsq := by
  unfold Kernel.arriving
  split
  · exact .inl rfl
  · rename_i task _
    dsimp only
    split
    · exact .inl rfl
    · refine .inr ⟨_, rfl, ?_⟩
      unfold Kernel.target
      split
      · exact le_rfl
      · exact cpuToDsq_le _ _

theorem arriving_low (env : Env) (k : Kernel) :
    ∀ e ∈ (k.arriving env).pending, e.1 ≤ sharedDsq := by
  intro e member
  rcases arriving_pending env k with none | ⟨e', single, low⟩
  · rw [none] at member
    cases member
  · rw [single] at member
    exact List.mem_singleton.mp member ▸ low

theorem arriving_now (env : Env) (k : Kernel) : (k.arriving env).now.dsq = k.dsq ∧
    (k.arriving env).now.nrCpuIds = k.nrCpuIds ∧
    ∀ r, ((k.arriving env).now.task r).cpusPtr = (k.task r).cpusPtr := by
  unfold Kernel.arriving
  split
  · exact ⟨rfl, rfl, fun _ => rfl⟩
  · rename_i task _
    refine ⟨rfl, rfl, fun r => ?_⟩
    by_cases self : r = task.pid
    · subst self
      simp only [Kernel.tell, Function.update_self, TaskStruct.withSlice]
      split <;> rfl
    · simp only [Kernel.tell, Function.update_of_ne self]

theorem shown_landed (ro : Rodata) (env : Env) (k : Kernel) :
    (k.shown ro env).landed = k.landed env := View.after_landed _ _

theorem landed_of_empty (env : Env) (ring : k.ring = []) : k.landed env = k.queues := by
  rw [Kernel.landed, Kernel.arriving, Kernel.message, ring]
  rfl

theorem shown_of_empty (ro : Rodata) (env : Env) (ring : k.ring = []) :
    k.shown ro env = k.queues.still := by
  rw [Kernel.shown, Kernel.arriving, Kernel.message, ring]
  exact Queues.still_after _ _

theorem shown_pending_subset : (k.shown ro env).pending ⊆ (k.arriving env).pending := by
  rw [Kernel.shown]
  cases userschedPending ro env k with
  | false => exact List.Subset.refl _
  | true => exact List.nil_subset _

theorem shown_low (ro : Rodata) (env : Env) (k : Kernel) :
    ∀ e ∈ (k.shown ro env).pending, e.1 ≤ sharedDsq :=
  fun e member => arriving_low env k e (shown_pending_subset member)

theorem shown_single {e e' : Nat × Nat} (member : e ∈ (k.shown ro env).pending)
    (member' : e' ∈ (k.shown ro env).pending) : e = e' := by
  have first := shown_pending_subset member
  have second := shown_pending_subset member'
  rcases arriving_pending env k with none | ⟨f, single, _⟩
  · rw [none] at first
    cases first
  · rw [single] at first second
    exact (List.mem_singleton.mp first).trans (List.mem_singleton.mp second).symm

@[simp] theorem landed_nrCpuIds (env : Env) (k : Kernel) : (k.landed env).nrCpuIds = k.nrCpuIds :=
  (View.landed_nrCpuIds _).trans (arriving_now env k).2.1

@[simp] theorem shown_nrCpuIds (ro : Rodata) (env : Env) (k : Kernel) :
    (k.shown ro env).now.nrCpuIds = k.nrCpuIds :=
  (View.after_nrCpuIds _ _).trans (arriving_now env k).2.1

theorem landed_cpusPtr (env : Env) (k : Kernel) (r : Nat) :
    ((k.landed env).task r).cpusPtr = (k.task r).cpusPtr := by
  rw [Kernel.landed, View.landed_task]
  exact (arriving_now env k).2.2 r

/-- No insertion is for a cache domain, a node or the user-space scheduler. -/
theorem landed_dsq_of_gt (env : Env) (k : Kernel) {q : Nat} (high : sharedDsq < q) :
    (k.landed env).dsq q = k.dsq q := by
  rw [← (arriving_now env k).1]
  exact View.landed_dsq_of_ne fun e member =>
    (Nat.lt_of_le_of_lt (arriving_low env k e member) high).ne

theorem landed_holds_schedDsq :
    (k.landed env).Holds cpu schedDsq ↔ k.queues.Holds cpu schedDsq := by
  have same := landed_dsq_of_gt env k (show sharedDsq < schedDsq by decide)
  simp only [Queues.Holds, same, landed_cpusPtr, Kernel.queues_dsq, Kernel.queues_task]

/-- The queues that a dispatch tries where the user-space scheduler does not run. -/
def Kernel.tried (ro : Rodata) (env : Env) (k : Kernel) (cpu : Int) : List Nat :=
  (k.shown ro env).inTurn ((tierOrder ro · cpu) :: stealPasses ro env cpu)

theorem dispatchOrder_eq (fresh : k.Fresh) : dispatchOrder ro env (drained env k) cpu =
    (if userschedPending ro env k then [schedDsq] else []) ++ k.tried ro env cpu := by
  rw [dispatchOrder, drained_asks, drained_view fresh]
  rfl

theorem asked_some (runs : UserschedRuns ro env k cpu) : ∃ p,
    (k.landed env).source cpu (if userschedPending ro env k then [schedDsq] else []) =
      some (schedDsq, p) := by
  obtain ⟨p, first⟩ := Option.isSome_iff_exists.mp
    (Queues.firstAllowed_isSome.mpr (landed_holds_schedDsq.mpr runs.2))
  rw [if_pos runs.1, Queues.source_singleton, first]
  exact ⟨p, rfl⟩

/-- The user-space scheduler goes first. -/
theorem dispatch_runs (prev : Option Nat) (fresh : k.Fresh) (runs : UserschedRuns ro env k cpu) :
    ∃ p, (k.landed env).Moved ((opsDispatch ro env cpu prev).run k).2.queues cpu schedDsq p := by
  have fetches := opsDispatch_fetches ro env cpu prev k
  obtain ⟨p, found⟩ := asked_some runs
  rw [drained_view fresh, ← Kernel.landed, dispatchOrder_eq fresh, Queues.source_append, found,
    Option.some_or] at fetches
  exact ⟨p, fetches ▸ .deliver (Queues.mem_of_firstAllowed (Queues.source_mem found).2).1⟩

theorem asked_none (rests : ¬ UserschedRuns ro env k cpu) :
    (k.landed env).source cpu (if userschedPending ro env k then [schedDsq] else []) = none := by
  refine Queues.source_eq_none.mpr fun q member holds => ?_
  split at member
  · rename_i pending
    rw [List.mem_singleton.mp member] at holds
    exact rests ⟨pending, landed_holds_schedDsq.mp holds⟩
  · cases member

/-- Otherwise the first of the queues tried that holds a task for the CPU gives it up. -/
theorem dispatch_rests (prev : Option Nat) (fresh : k.Fresh)
    (rests : ¬ UserschedRuns ro env k cpu) :
    match (k.landed env).source cpu (k.tried ro env cpu) with
    | none => ((opsDispatch ro env cpu prev).run k).2.dsq = (k.landed env).dsq
    | some (q, p) =>
      ((opsDispatch ro env cpu prev).run k).2.queues = (k.landed env).deliver cpu q p := by
  have fetches := opsDispatch_fetches ro env cpu prev k
  rwa [drained_view fresh, ← Kernel.landed, dispatchOrder_eq fresh, Queues.source_append,
    asked_none rests, Option.none_or] at fetches

end

end Cognis.Bpf
