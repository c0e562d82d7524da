import Cognis.Fallback.Schedule

/-! The order of the messages that the dispatch phase of `schedule` submits. -/
namespace Cognis.Fallback
open Runs

namespace Scheduler

def dispatchOrder (s : Scheduler) : List Task :=
  (s.lanes .rt).toList ++ (s.lanes .boostedInteractive).toList ++ (s.lanes .interactive).toList

theorem tasksEmpty_iff_dispatchOrder (s : Scheduler) :
    s.tasksEmpty = true ↔ s.dispatchOrder = [] := by
  rw [tasksEmpty_iff, ← Multiset.card_eq_zero, ← List.length_eq_zero_iff, queued, dispatchOrder]
  simp only [Multiset.card_add, Multiset.coe_card, List.length_append]
  omega

theorem tasksLen_eq_dispatchOrder (s : Scheduler) : s.tasksLen = s.dispatchOrder.length := by
  simp only [tasksLen, TaskQueue.len_eq, dispatchOrder, List.length_append]
  omega

/-- The front of the first lane with a task is the front of the order. -/
theorem Popped.dispatchOrder {s s' : Scheduler} {lane : Lane} {task : Task}
    (popped : Popped s lane task s')
    (first : ∀ other, other.rank < lane.rank → (s.lanes other).toList = []) :
    s.dispatchOrder = task :: s'.dispatchOrder := by
  obtain ⟨⟨q, rfl, contents⟩, _⟩ := popped
  unfold Scheduler.dispatchOrder
  cases lane with
  | rt => simp [contents, setLane]
  | boostedInteractive =>
    have rt := first .rt (by decide)
    simp [contents, rt, setLane]
  | interactive =>
    have rt := first .rt (by decide)
    have boosted := first .boostedInteractive (by decide)
    simp [contents, rt, boosted, setLane]

theorem Popped.dispatched {s s' : Scheduler} {lane : Lane} {task : Task}
    (popped : Popped s lane task s') : s'.dispatched = s.dispatched := by
  obtain ⟨⟨q, rfl, _⟩, _⟩ := popped
  rfl

theorem pushTask_dispatched (s : Scheduler) (task : Task) :
    (s.pushTask task).dispatched = s.dispatched := by
  unfold pushTask
  split <;> rfl

/-- One dispatch takes the front of the order, whatever the time is. -/
theorem dispatchTask_front (percpuLocal : Bool) (attempt : Attempt) {s : Scheduler} {task : Task}
    {rest : List Task} (order : s.dispatchOrder = task :: rest) :
    ∃ s' : Scheduler, s'.dispatchOrder = rest ∧ s'.dispatched = s.dispatched ∧
      dispatchTask percpuLocal attempt s =
        if attempt.accepted then (true, s'.submit (task.dispatched percpuLocal))
        else (false, s'.pushTask task) := by
  rcases s.popHighestPriorityTask_cases attempt.now with ⟨empty, _⟩ |
    ⟨lane, front, s', popped, effect, first⟩
  · rw [← tasksEmpty_iff, tasksEmpty_iff_dispatchOrder, order] at empty
    cases empty
  · have same := effect.dispatchOrder first
    rw [order] at same
    obtain ⟨rfl, rfl⟩ := List.cons.inj same
    exact ⟨s', rfl, effect.dispatched, by simp only [dispatchTask, popped]⟩

/-- `n` dispatches succeed, and the next one fails or finds no task. -/
theorem dispatchAll_dispatched (percpuLocal : Bool) (attempts : Nat → Attempt) {n i : Nat}
    {s : Scheduler} (accepted : ∀ j < n, (attempts (i + j)).accepted = true)
    (stop : (attempts (i + n)).accepted = false ∨ s.dispatchOrder.length ≤ n) :
    (dispatchAll percpuLocal attempts i s).dispatched =
      s.dispatched ++ (s.dispatchOrder.take n).map (Task.dispatched percpuLocal) := by
  generalize order : s.dispatchOrder = tasks at stop
  induction tasks generalizing i n s with
  | nil =>
    rw [dispatchAll, dif_pos (s.tasksEmpty_iff_dispatchOrder.mpr order)]
    simp
  | cons task rest ih =>
    have some_ : ¬ s.tasksEmpty = true := by
      rw [tasksEmpty_iff_dispatchOrder, order]
      exact List.cons_ne_nil task rest
    obtain ⟨s', order', same, step⟩ := dispatchTask_front percpuLocal (attempts i) order
    cases n with
    | zero =>
      have refused : (attempts i).accepted = false :=
        stop.resolve_right (Nat.not_succ_le_zero _)
      rw [refused] at step
      rw [dispatchAll_refused some_ step, pushTask_dispatched, same]
      simp
    | succ n =>
      have taken : (attempts i).accepted = true := accepted 0 (Nat.succ_pos n)
      rw [taken] at step
      rw [dispatchAll_accepted some_ step, List.take_succ_cons, List.map_cons]
      have shift : ∀ j, i + 1 + j = i + (j + 1) := fun j => by omega
      have next := ih (i := i + 1) (n := n) (s := s'.submit (task.dispatched percpuLocal))
        (fun j below => shift j ▸ accepted (j + 1) (Nat.succ_lt_succ below)) order'
        (stop.imp (fun refused => shift n ▸ refused) Nat.le_of_succ_le_succ)
      rw [next, submit, same, List.append_assoc, List.singleton_append]

theorem exists_accepted (attempts : Nat → Attempt) (limit : Nat) :
    ∃ n, (∀ j < n, (attempts j).accepted = true) ∧
      ((attempts n).accepted = false ∨ limit ≤ n) := by
  induction limit with
  | zero => exact ⟨0, fun _ below => absurd below (Nat.not_lt_zero _), .inr (Nat.le_refl 0)⟩
  | succ limit ih =>
    obtain ⟨n, before, stop⟩ := ih
    cases accepted : (attempts n).accepted with
    | false => exact ⟨n, before, .inl accepted⟩
    | true =>
      refine ⟨n + 1, fun j below => ?_, .inr (Nat.succ_le_succ (stop.resolve_left ?_))⟩
      · rcases Nat.lt_succ_iff_lt_or_eq.mp below with early | rfl
        · exact before j early
        · exact accepted
      · simp [accepted]

end Scheduler

/-- The dispatch phase submits the tasks of the lanes in the order of service, up to the first
that the ring refuses; the times do not matter, and the phase ends. -/
theorem dispatch_phase_order (percpuLocal : Bool) (attempts : Nat → Attempt) (s : Scheduler)
    (failed : Bool) :
    (∀ n, (∀ j < n, (attempts j).accepted = true) →
        ((attempts n).accepted = false ∨ s.dispatchOrder.length ≤ n) →
        (Scheduler.dispatchAll percpuLocal attempts 0 s).dispatched =
          s.dispatched ++ (s.dispatchOrder.take n).map (Task.dispatched percpuLocal)) ∧
      (∀ attempts', (∀ j, (attempts' j).accepted = (attempts j).accepted) →
        (Scheduler.dispatchAll percpuLocal attempts' 0 s).dispatched =
          (Scheduler.dispatchAll percpuLocal attempts 0 s).dispatched) ∧
      ∃ es failed', Run (MachineStep percpuLocal) ⟨.dispatching, s, failed⟩ es
          ⟨.notifying, Scheduler.dispatchAll percpuLocal attempts 0 s, failed'⟩ ∧
        es.length ≤ s.dispatchOrder.length + 1 := by
  have order : ∀ attempts : Nat → Attempt, ∀ n, (∀ j < n, (attempts j).accepted = true) →
      ((attempts n).accepted = false ∨ s.dispatchOrder.length ≤ n) →
      (Scheduler.dispatchAll percpuLocal attempts 0 s).dispatched =
        s.dispatched ++ (s.dispatchOrder.take n).map (Task.dispatched percpuLocal) := by
    intro attempts n accepted stop
    refine Scheduler.dispatchAll_dispatched percpuLocal attempts (fun j below => ?_) ?_
    · rw [Nat.zero_add]
      exact accepted j below
    · rwa [Nat.zero_add]
  refine ⟨order attempts, fun attempts' agree => ?_, ?_⟩
  · obtain ⟨n, accepted, stop⟩ := Scheduler.exists_accepted attempts s.dispatchOrder.length
    rw [order attempts n accepted stop]
    exact order attempts' n (fun j below => (agree j).trans (accepted j below))
      (stop.imp_left (agree n).trans)
  · rw [← s.tasksLen_eq_dispatchOrder]
    exact dispatchAll_run attempts 0 s failed

end Cognis.Fallback
