import Cognis.Fallback.BoundedFifo
import Cognis.Fallback.Schedule

/-! What a dispatch that finds no room in the user ring buffer leaves behind. The popped task
goes back to its lane, behind the tasks that waited for it. -/
namespace Cognis.Fallback

theorem append_singleton_eq_cons_iff {α : Type} {x : α} {xs : List α} :
    xs ++ [x] = x :: xs ↔ ∀ y ∈ xs, y = x := by
  induction xs with
  | nil => simp
  | cons y ys ih =>
    rw [List.cons_append, List.forall_mem_cons, ← ih]
    constructor
    · intro same
      obtain ⟨rfl, tails⟩ := List.cons.inj same
      exact ⟨rfl, tails⟩
    · rintro ⟨rfl, tails⟩
      rw [tails]

namespace TaskQueue

/-- A pop makes room for one more: the same number of tasks fills the ring only if one of
them was deferred. -/
theorem popFront_full {T : Type} {q q' : TaskQueue T} {task : T}
    (popped : q.popFront = some (task, q')) : q'.primary.isFull = q.hasDeferred := by
  have before : q.Holds q.primary.capacity q.toList := ⟨rfl, rfl⟩
  have some_ : q.toList ≠ [] := by
    intro empty
    rw [popFront_none empty] at popped
    cases popped
  obtain ⟨value, next, popped', contents, free⟩ := popFront_some some_
  rw [popped] at popped'
  obtain ⟨rfl, rfl⟩ := Prod.mk.inj (Option.some.inj popped')
  have after : q'.Holds q.primary.capacity q'.toList := ⟨popFront_capacity popped, rfl⟩
  have count := after.length_eq
  have slot : q'.deferred.isSome = false := free
  rw [slot, Bool.toNat_false, Nat.add_zero] at count
  rw [Bool.eq_iff_iff, after.isFull_iff, before.hasDeferred_iff, contents, List.length_cons]
  omega

end TaskQueue

namespace Scheduler

variable {s s' : Scheduler} {lane : Lane} {task : Task}

/-- The first lane, in the order of service, that has a task. -/
def servedLane (s : Scheduler) : Lane :=
  if (s.lanes .rt).isEmpty then
    if (s.lanes .boostedInteractive).isEmpty then .interactive else .boostedInteractive
  else .rt

theorem servedLane_eq (some_ : (s.lanes lane).toList ≠ [])
    (first : ∀ other, other.rank < lane.rank → (s.lanes other).toList = []) :
    s.servedLane = lane := by
  have some_ : ¬ (s.lanes lane).isEmpty = true := by rwa [TaskQueue.isEmpty_iff]
  have first : ∀ other, other.rank < lane.rank → (s.lanes other).isEmpty = true := by
    intro other ahead
    exact (TaskQueue.isEmpty_iff _).mpr (first other ahead)
  unfold servedLane
  cases lane with
  | rt => rw [if_neg some_]
  | boostedInteractive => rw [if_pos (first .rt (by decide)), if_neg some_]
  | interactive =>
    rw [if_pos (first .rt (by decide)), if_pos (first .boostedInteractive (by decide))]

theorem popLane_primary (popped : s.popLane lane = some (task, s')) :
    (s'.lanes lane).primary.isFull = (s.lanes lane).hasDeferred := by
  obtain ⟨⟨front, q⟩, ring, same⟩ := Option.map_eq_some_iff.mp popped
  obtain ⟨rfl, rfl⟩ := Prod.mk.inj same
  rw [setLane_lanes_self]
  exact TaskQueue.popFront_full ring

theorem popHighestPriorityTask_popLane {now : Nat}
    (popped : s.popHighestPriorityTask now = some (task, s')) :
    ∃ lane, s.popLane lane = some (task, s') := by
  simp only [popHighestPriorityTask] at popped
  split at popped
  · rename_i rt
    exact ⟨.rt, rt.trans popped⟩
  · split at popped
    · exact ⟨_, popped⟩
    · split at popped
      · exact ⟨_, popped⟩
      · split at popped
        · rename_i boosted
          exact ⟨.boostedInteractive, boosted.trans popped⟩
        · exact ⟨_, popped⟩

theorem popLane_popped (popped : s.popLane lane = some (task, s')) : Popped s lane task s' := by
  rcases s.popLane_cases lane with ⟨_, none⟩ | ⟨task', s'', popped', effect⟩
  · rw [none] at popped
    cases popped
  · rw [popped] at popped'
    obtain ⟨rfl, rfl⟩ := Prod.mk.inj (Option.some.inj popped')
    exact effect

theorem Popped.lane_eq {other : Lane} (popped : Popped s lane task s')
    (popped' : Popped s other task s') : other = lane := by
  obtain ⟨⟨q, rfl, contents⟩, _⟩ := popped
  obtain ⟨⟨q', same, _⟩, _⟩ := popped'
  by_contra ne
  have kept := s.setLane_lanes_of_ne q' (Ne.symm ne)
  rw [← same, setLane_lanes_self] at kept
  rw [← kept] at contents
  exact absurd contents.symm (List.cons_ne_self task q.toList)

/-- `task` is the last of its lane, and counted as congestion if the ring was full. -/
theorem pushTask_home (free : (s.lanes task.lane).hasDeferred = false) :
    ∃ q, (s.pushTask task).lanes = Function.update s.lanes task.lane q ∧
      q.toList = (s.lanes task.lane).toList ++ [task] ∧
      (s.pushTask task).nrSchedCongested =
        if (s.lanes task.lane).primary.isFull then min (s.nrSchedCongested + 1) u64Max
        else s.nrSchedCongested := by
  have slot : (s.lanes task.lane).deferred = none := by simpa [TaskQueue.hasDeferred] using free
  cases full : (s.lanes task.lane).primary.isFull with
  | false =>
    obtain ⟨q, pushed, contents, _⟩ := TaskQueue.pushBack_primary full slot task
    refine ⟨q, ?_, contents, ?_⟩
    · simp only [pushTask, pushed, setLane]
    · simp only [pushTask, pushed, setLane, Bool.false_eq_true, if_false]
  | true =>
    obtain ⟨q, pushed, contents, _⟩ := TaskQueue.pushBack_deferred full slot task
    refine ⟨q, ?_, contents, ?_⟩
    · simp only [pushTask, pushed, setLane]
    · simp only [pushTask, pushed, if_true]

theorem pushTask_lanes_of_ne (ne : lane ≠ task.lane) :
    (s.pushTask task).lanes lane = s.lanes lane := by
  unfold pushTask
  split
  · exact s.setLane_lanes_of_ne _ ne
  · exact s.setLane_lanes_of_ne _ ne
  · rfl

/-- The lanes hold the same tasks in the same order, and none is counted as congestion. -/
structure Unchanged (s s' : Scheduler) : Prop where
  lanes : ∀ lane, (s'.lanes lane).toList = (s.lanes lane).toList
  front : ∀ lane, (s'.lanes lane).front = (s.lanes lane).front
  congested : s'.nrSchedCongested = s.nrSchedCongested

/-- The order of the served lane cannot be told, and a deferred task in it is not counted. -/
structure Recoverable (s : Scheduler) : Prop where
  home : ∀ t ∈ (s.lanes s.servedLane).toList, t.lane = s.servedLane
  alike : ∀ t ∈ (s.lanes s.servedLane).toList, ∀ u ∈ (s.lanes s.servedLane).toList, t = u
  counted : (s.lanes s.servedLane).hasDeferred = true → s.nrSchedCongested = u64Max

theorem min_succ_eq_iff {n m : Nat} : min (n + 1) m = n ↔ n = m := by omega

theorem forall_mem_eq_iff {α : Type} {x : α} {xs : List α} :
    (∀ t ∈ x :: xs, ∀ u ∈ x :: xs, t = u) ↔ ∀ u ∈ xs, u = x := by
  constructor
  · intro alike u member
    exact alike u (List.mem_cons_of_mem x member) x List.mem_cons_self
  · intro same
    have all : ∀ t ∈ x :: xs, t = x := List.forall_mem_cons.mpr ⟨rfl, same⟩
    intro t t_mem u u_mem
    rw [all t t_mem, all u u_mem]

theorem Popped.lanes_iff (popped : Popped s task.lane task s') :
    (∀ lane, ((s'.pushTask task).lanes lane).toList = (s.lanes lane).toList) ↔
      ∀ t ∈ (s.lanes task.lane).toList, ∀ u ∈ (s.lanes task.lane).toList, t = u := by
  obtain ⟨q', lanes, last, _⟩ := pushTask_home popped.free
  obtain ⟨⟨q, rfl, contents⟩, _⟩ := popped
  rw [setLane_lanes_self] at last
  rw [contents, forall_mem_eq_iff, ← append_singleton_eq_cons_iff, ← contents, ← last]
  constructor
  · intro same
    have here := same task.lane
    rwa [lanes, Function.update_self] at here
  · intro here lane
    by_cases served : lane = task.lane
    · rw [served, lanes, Function.update_self, here]
    · rw [lanes, Function.update_of_ne served]
      exact congrArg TaskQueue.toList (s.setLane_lanes_of_ne q served)

theorem Popped.congested_iff (popped : Popped s task.lane task s')
    (full : (s'.lanes task.lane).primary.isFull = (s.lanes task.lane).hasDeferred) :
    (s'.pushTask task).nrSchedCongested = s.nrSchedCongested ↔
      ((s.lanes task.lane).hasDeferred = true → s.nrSchedCongested = u64Max) := by
  obtain ⟨_, _, _, congested⟩ := pushTask_home popped.free
  obtain ⟨⟨q, rfl, _⟩, _⟩ := popped
  rw [congested, full]
  show (if _ then min (s.nrSchedCongested + 1) u64Max else s.nrSchedCongested) = _ ↔ _
  cases (s.lanes task.lane).hasDeferred with
  | false => simp
  | true =>
    simp only [if_true, true_implies]
    exact min_succ_eq_iff

theorem Popped.unchanged_iff (popped : Popped s s.servedLane task s')
    (full : (s'.lanes s.servedLane).primary.isFull = (s.lanes s.servedLane).hasDeferred) :
    s.Unchanged (s'.pushTask task) ↔ s.Recoverable := by
  have waiting : task ∈ (s.lanes s.servedLane).toList := by
    obtain ⟨⟨q, _, contents⟩, _⟩ := popped
    rw [contents]
    exact List.mem_cons_self
  by_cases home : task.lane = s.servedLane
  · have order := Popped.lanes_iff (home ▸ popped)
    have count := Popped.congested_iff (home ▸ popped) (home ▸ full)
    rw [home] at order count
    constructor
    · rintro ⟨lanes, _, congested⟩
      have alike := order.mp lanes
      refine ⟨?_, alike, count.mp congested⟩
      intro t member
      rw [alike t member task waiting, home]
    · rintro ⟨_, alike, counted⟩
      have lanes := order.mpr alike
      refine ⟨lanes, ?_, count.mpr counted⟩
      intro lane
      rw [TaskQueue.front_eq, TaskQueue.front_eq, lanes lane]
  · obtain ⟨⟨q, rfl, contents⟩, _⟩ := popped
    apply iff_of_false
    · rintro ⟨lanes, _, _⟩
      have lost := lanes s.servedLane
      rw [pushTask_lanes_of_ne (Ne.symm home), setLane_lanes_self, contents] at lost
      exact absurd lost.symm (List.cons_ne_self task q.toList)
    · rintro ⟨sorted, _, _⟩
      exact home (sorted task waiting)

/-- A refused dispatch moves the next task behind the others of its lane, and counts it as
congestion where the lane was one task over its ring. -/
theorem failed_dispatch_unchanged_iff {percpuLocal : Bool} {attempt : Attempt}
    (refused : (dispatchTask percpuLocal attempt s).1 = false) :
    s.Unchanged (dispatchTask percpuLocal attempt s).2 ↔ s.Recoverable := by
  rcases s.popHighestPriorityTask_cases attempt.now with ⟨_, none⟩ |
    ⟨lane, task, s', popped, effect, first⟩
  · simp [dispatchTask, none] at refused
  · have some_ : (s.lanes lane).toList ≠ [] := by
      obtain ⟨⟨q, _, contents⟩, _⟩ := effect
      rw [contents]
      exact List.cons_ne_nil _ _
    obtain rfl := servedLane_eq some_ first
    have result : dispatchTask percpuLocal attempt s = (false, s'.pushTask task) := by
      cases accepted : attempt.accepted with
      | true => simp [dispatchTask, popped, accepted] at refused
      | false => simp [dispatchTask, popped, accepted]
    rw [result]
    apply effect.unchanged_iff
    obtain ⟨lane, ring⟩ := popHighestPriorityTask_popLane popped
    obtain rfl := effect.lane_eq (popLane_popped ring)
    exact popLane_primary ring

/-- A user task of a pid, all else alike. -/
def arrivalOf (pid : Int) : Arrival :=
  ⟨⟨pid, 0, 0, 0, 1⟩, ⟨10, 5, .compute, false, false, false, 0, 3⟩, 0⟩

theorem failed_dispatch_unchanged_iff_alone :
    (init.receive (arrivalOf 7)).Unchanged
      (dispatchTask false ⟨0, false⟩ (init.receive (arrivalOf 7))).2 := by
  apply (failed_dispatch_unchanged_iff rfl).mpr
  generalize state : init.receive (arrivalOf 7) = s
  have alone : (s.lanes s.servedLane).toList = [(arrivalOf 7).task] := state ▸ rfl
  have free : (s.lanes s.servedLane).hasDeferred = false := state ▸ rfl
  have served : s.servedLane = .interactive := state ▸ rfl
  constructor
  · rw [alone, served]
    exact List.forall_mem_singleton.mpr rfl
  · rw [alone, forall_mem_eq_iff]
    exact fun _ member => absurd member List.not_mem_nil
  · rw [free]
    exact fun taken => absurd taken Bool.false_ne_true

/-- Two tasks of the general lane change places. -/
theorem failed_dispatch_reorders :
    let s := (init.receive (arrivalOf 7)).receive (arrivalOf 8)
    (dispatchTask false ⟨0, false⟩ s).1 = false ∧
      (s.lanes .interactive).toList.map (·.qtask.pid) = [7, 8] ∧
      ((dispatchTask false ⟨0, false⟩ s).2.lanes .interactive).toList.map (·.qtask.pid) = [8, 7] ∧
      ¬ s.Unchanged (dispatchTask false ⟨0, false⟩ s).2 := by
  intro s
  have before : (s.lanes .interactive).toList.map (·.qtask.pid) = [7, 8] := rfl
  have after : ((dispatchTask false ⟨0, false⟩ s).2.lanes .interactive).toList.map
      (·.qtask.pid) = [8, 7] := by decide +kernel
  refine ⟨rfl, before, after, ?_⟩
  intro unchanged
  rw [unchanged.lanes, before] at after
  exact absurd after (by decide)

end Scheduler

end Cognis.Fallback
