import Cognis.Bpf.DispatchSteps

/-! What one dispatch does to the queues. Its attempts to fetch a task are made in turn, each
after what the ones before it have committed, and the first task found goes to the local
queue of the CPU. -/
namespace Cognis.Bpf
open StateLogic

namespace Tries

variable {cpu : Int} {x y : BpfM Bool} {order : Queues → List Nat}

theorem last (hx : ∀ s, Tries cpu x s (order s.queues)) (k : Kernel) :
    Tries cpu x k (k.view.inTurn [order]) := by
  rw [View.inTurn, View.inTurn, List.append_nil]
  exact hx k

theorem turn {orders : List (Queues → List Nat)} (hx : ∀ s, Tries cpu x s (order s.queues))
    (hy : ∀ s, Tries cpu y s (s.view.inTurn orders)) (k : Kernel) :
    Tries cpu (do if ← x then return true else y) k (k.view.inTurn (order :: orders)) :=
  (hx k).orElse fun s same => same ▸ hy s

end Tries

theorem View.inTurn_subset {known : List Nat} {orders : List (Queues → List Nat)} {v : View}
    (each : ∀ order ∈ orders, ∀ w : Queues, w.nrCpuIds = v.now.nrCpuIds → order w ⊆ known) :
    v.inTurn orders ⊆ known := by
  induction orders generalizing v with
  | nil => exact List.nil_subset _
  | cons order orders ih =>
    obtain ⟨first, others⟩ := List.forall_mem_cons.mp each
    refine List.append_subset.mpr ⟨first v.now rfl, ih fun o member w same => ?_⟩
    exact others o member w (same.trans (v.after_nrCpuIds _))

theorem passOrder_subset (v : Queues) (cpu : Int) (accept : Nat → Bool) (qs : List Nat) :
    passOrder v cpu accept qs ⊆ qs := by
  intro q member
  rw [passOrder] at member
  split at member
  · obtain ⟨c, leads, rfl⟩ := mem_leaderQueue.mp member
    exact (mem_candidates.mp (Selection.leads_mem _ leads)).1
  · cases member

/-- Where an insertion lands depends on the virtual times alone. -/
theorem foldl_land_dsq (es : List (Nat × Nat)) {v w : Queues} (dsq : v.dsq = w.dsq)
    (vtime : ∀ r, (v.task r).dsqVtime = (w.task r).dsqVtime) :
    (es.foldl Queues.land v).dsq = (es.foldl Queues.land w).dsq := by
  induction es generalizing v w with
  | nil => exact dsq
  | cons e es ih =>
    refine ih ?_ vtime
    rw [Queues.land, Queues.land, dsq, funext vtime]

section

variable (ro : Rodata) (env : Env)

def userschedPending (k : Kernel) : Bool :=
  ro.userschedEnabled && (k.userschedNeeded || k.nrScheduled != 0 || decide (env.queuedAvail > 0))

/-- It has been asked for and waits in its queue with leave to run on `cpu`. -/
def UserschedRuns (k : Kernel) (cpu : Int) : Prop :=
  userschedPending ro env k = true ∧ k.queues.Holds cpu schedDsq

theorem userschedHasPendingTasks_run (k : Kernel) :
    ((userschedHasPendingTasks ro env).run k).1 = userschedPending ro env k ∧
      ((userschedHasPendingTasks ro env).run k).2.view = k.view := by
  simp only [userschedHasPendingTasks, testAndClearUserschedNeeded, run_then, ↓run_ite,
    run_getThe, run_modifyState, run_done, userschedPending]
  cases ro.userschedEnabled with
  | false => exact ⟨rfl, rfl⟩
  | true =>
    cases k.userschedNeeded with
    | true => exact ⟨rfl, rfl⟩
    | false =>
      simp only [Bool.not_true, Bool.false_eq_true, if_false]
      split
      · rename_i busy
        have flag : (k.nrScheduled != 0) = true := bne_iff_ne.mpr busy
        exact ⟨by simp only [flag]; rfl, rfl⟩
      · rename_i idle
        exact ⟨by simp [not_not.mp idle], rfl⟩

theorem dispatchUsersched_tries (cpu : Int) (k : Kernel) :
    Tries cpu (dispatchUsersched ro env cpu) k
      (if userschedPending ro env k then [schedDsq] else []) := by
  obtain ⟨pending, same⟩ := userschedHasPendingTasks_run ro env k
  refine Tries.afterReads
    (y := if userschedPending ro env k then scxBpfDsqMoveToLocal cpu schedDsq else return false)
    (by simp only [dispatchUsersched, run_then, pending]) same ?_
  cases userschedPending ro env k with
  | false => exact Tries.never
  | true => exact Tries.moveToLocal cpu schedDsq _

/-- The steal passes, each by what its scan sees. -/
def stealPasses (cpu : Int) : List (Queues → List Nat) :=
  [fun v => passOrder v cpu (fun p => (v.task p).cpusPtr cpu) (cpuQueues env v.nrCpuIds cpu true),
    fun v => passOrder v cpu (fun p => (v.task p).cpusPtr cpu) (cpuQueues env v.nrCpuIds cpu false),
    fun v => passOrder v cpu anyHead (llcQueues ro v.nrCpuIds cpu true),
    fun v => passOrder v cpu anyHead (nodeQueues ro v.nrCpuIds cpu),
    fun v => passOrder v cpu anyHead (llcQueues ro v.nrCpuIds cpu false)]

theorem stealRemote_tries (cpu : Int) (k : Kernel) :
    Tries cpu (stealRemote ro env cpu) k (k.view.inTurn (stealPasses ro env cpu)) :=
  Tries.turn (stealRemoteCpu_tries env cpu true) (Tries.turn (stealRemoteCpu_tries env cpu false)
    (Tries.turn (stealRemoteLlc_tries ro cpu true) (Tries.turn (stealRemoteNode_tries ro cpu)
      (Tries.last (stealRemoteLlc_tries ro cpu false))))) k

/-- The queues that one dispatch tries after the drain. -/
def dispatchOrder (k : Kernel) (cpu : Int) : List Nat :=
  k.view.inTurn ((fun _ => if userschedPending ro env k then [schedDsq] else []) ::
    (tierOrder ro · cpu) :: stealPasses ro env cpu)

def fetchTask (cpu : Int) : BpfM Bool := do
  if ← dispatchUsersched ro env cpu then return true
  if ← moveFromOwnTiers ro cpu then return true
  stealRemote ro env cpu

theorem fetchTask_tries (cpu : Int) (k : Kernel) :
    Tries cpu (fetchTask ro env cpu) k (dispatchOrder ro env k cpu) :=
  (dispatchUsersched_tries ro env cpu k).orElse fun s same =>
    same ▸ Tries.turn (moveFromOwnTiers_tries ro cpu) (stealRemote_tries ro env cpu) s

theorem selectTask_run (cpu : Int) (prev : Option Nat) (k : Kernel) :
    (selectTask ro env cpu prev).run k =
      if ((fetchTask ro env cpu).run k).1 then ((), ((fetchTask ro env cpu).run k).2)
      else (refillPrev ro env cpu prev).run ((fetchTask ro env cpu).run k).2 := by
  simp only [selectTask, fetchTask, run_then, ↓run_ite, run_done]
  split
  · rfl
  · split <;> rfl

/-- A new slice moves no task. -/
theorem refillPrev_landed (cpu : Int) (prev : Option Nat) (k : Kernel) :
    ((refillPrev ro env cpu prev).run k).2.view.landed.dsq = k.view.landed.dsq := by
  have pending : Keeps (fun s => s.view.landed.dsq = k.view.landed.dsq)
      (userschedHasPendingTasks ro env) := fun s same =>
    (congrArg (·.landed.dsq) (userschedHasPendingTasks_run ro env s).2).trans same
  have slice : ∀ p, Keeps (fun s => s.view.landed.dsq = k.view.landed.dsq)
      (taskSlice ro env p cpu) := fun p s same => by
    rw [taskSlice_run]
    exact same
  have wants : ∀ p, Keeps (fun s => s.view.landed.dsq = k.view.landed.dsq)
      (wantsAnotherRound ro env p) := by
    refine fun p => Keeps.bind Keeps.get fun s => ?_
    split
    · exact Keeps.pure _
    · split
      · exact Keeps.pure _
      · exact pending
  have kept : Keeps (fun s => s.view.landed.dsq = k.view.landed.dsq)
      (refillPrev ro env cpu prev) := by
    cases prev with
    | none => exact Keeps.pure _
    | some p =>
      apply Keeps.bind (wants p)
      intro wanted
      split
      · refine Keeps.bind (slice p) fun slice => Keeps.update fun s same => ?_
        refine (foldl_land_dsq s.pending (v := (s.setTask p _).queues) (w := s.queues) rfl
          fun r => ?_).trans same
        by_cases self : r = p <;> simp [Kernel.setTask, self]
      · exact Keeps.pure _
  exact kept k rfl

/-- The first of the queues tried that holds a task for the CPU gives it up; without one no
task moves. -/
theorem opsDispatch_fetches (cpu : Int) (prev : Option Nat) (k : Kernel) :
    match (drained env k).view.landed.source cpu (dispatchOrder ro env (drained env k) cpu) with
    | none => ((opsDispatch ro env cpu prev).run k).2.dsq = (drained env k).view.landed.dsq
    | some (q, p) => ((opsDispatch ro env cpu prev).run k).2.queues =
        (drained env k).view.landed.deliver cpu q p := by
  have tries := fetchTask_tries ro env cpu (drained env k)
  rw [opsDispatch_run, selectTask_run]
  rw [Tries] at tries
  cases found : (drained env k).view.landed.source cpu
    (dispatchOrder ro env (drained env k) cpu) with
  | none =>
    simp only [found] at tries
    simp only [tries.1, Bool.false_eq_true, if_false]
    refine (congrArg Queues.dsq (Kernel.flush_queues _)).trans ?_
    rw [refillPrev_landed, tries.2, View.after_landed]
  | some e =>
    simp only [found] at tries
    simp only [tries.1, if_true]
    rw [Kernel.flush_queues, tries.2, Queues.still_landed]

theorem dispatchOrder_subset (k : Kernel) (cpu : Int) :
    dispatchOrder ro env k cpu ⊆ knownDsqs ro k.nrCpuIds := by
  have tasks := taskDsqs_subset ro k.nrCpuIds
  have pass : ∀ (v : Queues) (accept : Nat → Bool) {qs : List Nat}, qs ⊆ taskDsqs ro k.nrCpuIds →
      passOrder v cpu accept qs ⊆ knownDsqs ro k.nrCpuIds := fun v accept _ known =>
    List.Subset.trans (passOrder_subset v cpu accept _) (List.Subset.trans known tasks)
  refine View.inTurn_subset fun order member v same => ?_
  rw [Kernel.view_now, Kernel.queues_nrCpuIds] at same
  simp only [stealPasses, List.mem_cons, List.not_mem_nil, or_false] at member
  rcases member with rfl | rfl | rfl | rfl | rfl | rfl | rfl
  · intro q asked
    -- The queue of the user-space scheduler exists exactly when it may be asked for.
    cases enabled : ro.userschedEnabled with
    | false => simp [userschedPending, enabled] at asked
    | true =>
      split at asked
      · simp [knownDsqs, enabled, List.mem_singleton.mp asked]
      · cases asked
  · exact fun q tried => tasks (same ▸ ownTiers_subset ro v.nrCpuIds cpu (mem_tierOrder.mp tried).1)
  · exact pass v _ (same ▸ cpuQueues_subset ro env v.nrCpuIds cpu true)
  · exact pass v _ (same ▸ cpuQueues_subset ro env v.nrCpuIds cpu false)
  · exact pass v _ (same ▸ llcQueues_subset ro v.nrCpuIds cpu true)
  · exact pass v _ (same ▸ nodeQueues_subset ro v.nrCpuIds cpu)
  · exact pass v _ (same ▸ llcQueues_subset ro v.nrCpuIds cpu false)

/-- The first task of a queue of the scheduler that may run on `cpu` went to its local
queue. -/
def Fetched (cpu : Int) (v w : Queues) : Prop :=
  ∃ q ∈ knownDsqs ro v.nrCpuIds, ∃ p, v.firstAllowed cpu q = some p ∧ w = v.deliver cpu q p

theorem dispatch_fetches (cpu : Int) (prev : Option Nat) {k : Kernel} (ring : k.ring = [])
    (pending : k.pending = []) :
    ((opsDispatch ro env cpu prev).run k).2.dsq = k.dsq ∨
      Fetched ro cpu k.queues ((opsDispatch ro env cpu prev).run k).2.queues := by
  have fetches := opsDispatch_fetches ro env cpu prev k
  have known := dispatchOrder_subset ro env (stamped env k) cpu
  have still : (stamped env k).view = k.queues.still := Kernel.view_of_settled pending
  rw [drained_of_empty ring, still, Queues.still_landed] at fetches
  cases found : k.queues.source cpu (dispatchOrder ro env (stamped env k) cpu) with
  | none =>
    simp only [found] at fetches
    exact .inl fetches
  | some e =>
    simp only [found] at fetches
    obtain ⟨member, first⟩ := Queues.source_mem found
    exact .inr ⟨e.1, known member, e.2, first, fetches⟩

end

end Cognis.Bpf
