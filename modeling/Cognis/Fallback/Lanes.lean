import Mathlib.Algebra.Order.Group.Multiset
import Mathlib.Tactic.Abel
import Cognis.Fallback.Scheduler

/-! The three lanes as one multiset of tasks: a push adds the task, a pop takes one out,
and a popped task always finds a place again in its lane. -/
namespace Cognis.Fallback

/-- What identifies a task on its way through the fallback. -/
structure TaskId where
  pid : Int
  flags : Nat
  enqCnt : Nat
deriving DecidableEq

def QueuedTask.taskId (t : QueuedTask) : TaskId := ⟨t.pid, t.flags, t.enqCnt⟩

def DispatchedTask.taskId (t : DispatchedTask) : TaskId := ⟨t.pid, t.flags, t.enqCnt⟩

theorem dispatched_taskId (percpuLocal : Bool) (task : Task) :
    (task.dispatched percpuLocal).taskId = task.qtask.taskId := rfl

theorem arrival_taskId (a : Arrival) : a.task.qtask.taskId = a.qtask.taskId := rfl

/-- The place of the lane in the order of service. -/
def Lane.rank : Lane → Nat
  | .rt => 0
  | .boostedInteractive => 1
  | .interactive => 2

namespace Scheduler

def queued (s : Scheduler) : Multiset Task :=
  ((s.lanes .boostedInteractive).toList : Multiset Task) + (s.lanes .rt).toList +
    (s.lanes .interactive).toList

theorem tasksLen_eq (s : Scheduler) : s.tasksLen = s.queued.card := by
  simp [tasksLen, queued, TaskQueue.len_eq, Nat.add_assoc]

theorem tasksEmpty_iff (s : Scheduler) : s.tasksEmpty = true ↔ s.queued = 0 := by
  simp [tasksEmpty, queued, TaskQueue.isEmpty_iff, and_assoc]

theorem hasDeferredTasks_eq_false {s : Scheduler} (free : s.hasDeferredTasks = false)
    (lane : Lane) : (s.lanes lane).hasDeferred = false := by
  simp only [hasDeferredTasks, Bool.or_eq_false_iff] at free
  obtain ⟨⟨boosted, rt⟩, interactive⟩ := free
  cases lane with
  | rt => exact rt
  | boostedInteractive => exact boosted
  | interactive => exact interactive

theorem queued_setLane (s : Scheduler) (lane : Lane) (q : TaskQueue Task) :
    (s.setLane lane q).queued + ((s.lanes lane).toList : Multiset Task) =
      s.queued + (q.toList : Multiset Task) := by
  cases lane <;> simp only [queued, setLane, Function.update_self, ne_eq, reduceCtorEq,
    not_false_eq_true, Function.update_of_ne] <;> abel

theorem setLane_lanes_self (s : Scheduler) (lane : Lane) (q : TaskQueue Task) :
    (s.setLane lane q).lanes lane = q := Function.update_self ..

theorem setLane_lanes_of_ne (s : Scheduler) {lane other : Lane} (q : TaskQueue Task)
    (ne : other ≠ lane) : (s.setLane lane q).lanes other = s.lanes other :=
  Function.update_of_ne ne ..

theorem submit_queued (s : Scheduler) (message : DispatchedTask) :
    (s.submit message).queued = s.queued := rfl

structure Popped (s : Scheduler) (lane : Lane) (task : Task) (s' : Scheduler) : Prop where
  queue : ∃ q, s' = s.setLane lane q ∧ (s.lanes lane).toList = task :: q.toList
  free : (s'.lanes lane).hasDeferred = false

theorem popLane_cases (s : Scheduler) (lane : Lane) :
    (s.lanes lane).toList = [] ∧ s.popLane lane = none ∨
      ∃ task s', s.popLane lane = some (task, s') ∧ Popped s lane task s' := by
  by_cases empty : (s.lanes lane).toList = []
  · exact .inl ⟨empty, by simp [popLane, TaskQueue.popFront_none empty]⟩
  · obtain ⟨task, q, popped, contents, free⟩ := TaskQueue.popFront_some empty
    refine .inr ⟨task, s.setLane lane q, by simp [popLane, popped], ⟨q, rfl, contents⟩, ?_⟩
    rwa [setLane_lanes_self]

theorem popLane_of_front {s : Scheduler} {lane : Lane} {cond : Task → Bool}
    (found : (s.lanes lane).front.any cond = true) :
    ∃ task s', s.popLane lane = some (task, s') ∧ Popped s lane task s' := by
  rcases s.popLane_cases lane with ⟨empty, _⟩ | popped
  · simp [TaskQueue.front_eq, empty] at found
  · exact popped

/-- A task is found whenever some lane has one, and it leaves the first such lane. -/
theorem popHighestPriorityTask_cases (s : Scheduler) (now : Nat) :
    s.queued = 0 ∧ s.popHighestPriorityTask now = none ∨
      ∃ lane task s', s.popHighestPriorityTask now = some (task, s') ∧ Popped s lane task s' ∧
        ∀ other, other.rank < lane.rank → (s.lanes other).toList = [] := by
  simp only [popHighestPriorityTask]
  rcases s.popLane_cases .rt with ⟨rt, none⟩ | ⟨task, s', popped, effect⟩
  · have first : ∀ other : Lane, other.rank < Lane.boostedInteractive.rank →
        (s.lanes other).toList = [] := by
      intro other ahead
      cases other <;> first | exact rt | exact absurd ahead (by decide)
    simp only [none]
    split
    · rename_i found
      obtain ⟨task, s', popped, effect⟩ := popLane_of_front found
      exact .inr ⟨_, task, s', popped, effect, first⟩
    split
    · rename_i starved
      obtain ⟨task, s', popped, effect⟩ := popLane_of_front starved
      exact .inr ⟨_, task, s', popped, effect, first⟩
    rcases s.popLane_cases .boostedInteractive with ⟨boosted, none⟩ | ⟨task, s', popped, effect⟩
    · simp only [none]
      rcases s.popLane_cases .interactive with ⟨interactive, none⟩ | ⟨task, s', popped, effect⟩
      · exact .inl ⟨by simp [queued, rt, boosted, interactive], none⟩
      · refine .inr ⟨_, task, s', popped, effect, fun other ahead => ?_⟩
        cases other <;> first | exact rt | exact boosted | exact absurd ahead (by decide)
    · simp only [popped]
      exact .inr ⟨_, task, s', rfl, effect, first⟩
  · simp only [popped]
    exact .inr ⟨_, task, s', rfl, effect, fun _ ahead => absurd ahead (Nat.not_lt_zero _)⟩

theorem Popped.queued {s s' : Scheduler} {lane : Lane} {task : Task} (h : Popped s lane task s') :
    s.queued = task ::ₘ s'.queued := by
  obtain ⟨⟨q, rfl, contents⟩, _⟩ := h
  have exchange := s.queued_setLane lane q
  rw [contents, ← Multiset.cons_coe, Multiset.add_cons, ← Multiset.cons_add] at exchange
  exact (add_right_cancel exchange).symm

/-- `task` is now the last of its lane, and nothing else changed. -/
structure Pushed (s : Scheduler) (task : Task) (s' : Scheduler) : Prop where
  queue : ∃ q, s'.lanes = Function.update s.lanes task.lane q ∧
    q.toList = (s.lanes task.lane).toList ++ [task]
  nrScheduled : s'.nrScheduled = s.nrScheduled
  dequeued : s'.dequeued = s.dequeued
  dispatched : s'.dispatched = s.dispatched
  violations : s'.violations = s.violations

theorem pushTask_pushed {s : Scheduler} {task : Task}
    (free : (s.lanes task.lane).hasDeferred = false) : Pushed s task (s.pushTask task) := by
  obtain ⟨kind, q, pushed, contents⟩ := TaskQueue.pushBack_ok free task
  simp only [pushTask, pushed]
  cases kind <;> exact ⟨⟨q, rfl, contents⟩, rfl, rfl, rfl, rfl⟩

theorem Pushed.queued {s s' : Scheduler} {task : Task} (h : Pushed s task s') :
    s'.queued = task ::ₘ s.queued := by
  obtain ⟨q, lanes, contents⟩ := h.queue
  have same : s'.queued = (s.setLane task.lane q).queued := by
    simp only [Scheduler.queued, lanes, setLane]
  apply add_right_cancel (b := ((s.lanes task.lane).toList : Multiset Task))
  calc s'.queued + ((s.lanes task.lane).toList : Multiset Task)
      = s.queued + ((s.lanes task.lane).toList + {task}) := by
        rw [same, queued_setLane, contents]
        rfl
    _ = task ::ₘ s.queued + ((s.lanes task.lane).toList : Multiset Task) := by
        rw [← Multiset.singleton_add]
        abel

end Scheduler

end Cognis.Fallback
