import Cognis.Fallback.Schedule

/-! No runnable task is lost or duplicated at any loop head of any call of `schedule`. -/
namespace Cognis.Fallback
open Runs

namespace Scheduler

/-- Every task read so far was handed to the kernel or waits in a lane, once. -/
def Conserved (s : Scheduler) : Prop :=
  (s.dequeued : Multiset QueuedTask).map QueuedTask.taskId =
    (s.dispatched : Multiset DispatchedTask).map DispatchedTask.taskId +
      s.queued.map fun task => task.qtask.taskId

structure Sound (s : Scheduler) : Prop where
  sorted : ∀ lane, ∀ task ∈ (s.lanes lane).toList, task.lane = lane
  conserved : s.Conserved
  unviolated : s.violations = 0

theorem init_sound : init.Sound := by
  refine ⟨fun lane task member => ?_, rfl, rfl⟩
  simp [init, TaskQueue.withCapacity_toList] at member

theorem Pushed.sorted {s s' : Scheduler} {task : Task} (h : Pushed s task s')
    (sorted : ∀ lane, ∀ t ∈ (s.lanes lane).toList, t.lane = lane) :
    ∀ lane, ∀ t ∈ (s'.lanes lane).toList, t.lane = lane := by
  obtain ⟨q, lanes, contents⟩ := h.queue
  intro lane t member
  by_cases same : lane = task.lane
  · subst same
    rw [lanes, Function.update_self, contents] at member
    rcases List.mem_append.mp member with old | new
    · exact sorted _ t old
    · exact List.mem_singleton.mp new ▸ rfl
  · rw [lanes, Function.update_of_ne same] at member
    exact sorted lane t member

theorem Popped.sorted {s s' : Scheduler} {lane : Lane} {task : Task} (h : Popped s lane task s')
    (sorted : ∀ lane, ∀ t ∈ (s.lanes lane).toList, t.lane = lane) :
    task.lane = lane ∧ ∀ lane, ∀ t ∈ (s'.lanes lane).toList, t.lane = lane := by
  obtain ⟨⟨q, rfl, contents⟩, _⟩ := h
  refine ⟨sorted lane task (by simp [contents]), fun other t member => ?_⟩
  by_cases same : other = lane
  · subst same
    rw [setLane_lanes_self] at member
    exact sorted other t (by simp [contents, member])
  · rw [s.setLane_lanes_of_ne q same] at member
    exact sorted other t member

/-- A task read while no lane has a deferred task finds a place. -/
theorem Sound.receive {s : Scheduler} (sound : s.Sound) (free : s.hasDeferredTasks = false)
    (a : Arrival) : (Scheduler.receive s a).Sound := by
  have pushed : Pushed { s with dequeued := s.dequeued ++ [a.qtask] } a.task (s.receive a) :=
    pushTask_pushed (hasDeferredTasks_eq_false free _)
  refine ⟨pushed.sorted sound.sorted, ?_, pushed.violations.trans sound.unviolated⟩
  have before := sound.conserved
  simp only [Conserved] at before ⊢
  have waiting : (s.receive a).queued = a.task ::ₘ s.queued := pushed.queued
  rw [pushed.dequeued, pushed.dispatched, waiting, Multiset.map_cons, arrival_taskId,
    Multiset.add_cons, ← before, ← Multiset.coe_add, Multiset.map_add, Multiset.coe_singleton,
    Multiset.map_singleton, Multiset.add_comm, Multiset.singleton_add]

theorem Popped.keeps {s s' : Scheduler} {lane : Lane} {task : Task} (h : Popped s lane task s') :
    s'.dequeued = s.dequeued ∧ s'.dispatched = s.dispatched ∧ s'.violations = s.violations := by
  obtain ⟨⟨q, rfl, _⟩, _⟩ := h
  exact ⟨rfl, rfl, rfl⟩

theorem Sound.dispatch {s : Scheduler} (sound : s.Sound) (percpuLocal : Bool) (attempt : Attempt)
    (some_ : s.tasksEmpty = false) :
    (dispatchTask percpuLocal attempt s).2.Sound := by
  obtain ⟨lane, task, s', popped, outcome⟩ := dispatchTask_cases percpuLocal attempt some_
  obtain ⟨home, sorted⟩ := popped.sorted sound.sorted
  obtain ⟨dequeued, dispatched, violations⟩ := popped.keeps
  have before := sound.conserved
  simp only [Conserved, popped.queued] at before
  rcases outcome with ⟨_, run⟩ | ⟨_, run⟩
  · rw [run]
    refine ⟨sorted, ?_, violations.trans sound.unviolated⟩
    simp only [Conserved, submit_queued]
    simp only [submit, dequeued, dispatched, before, ← Multiset.coe_add, Multiset.map_add,
      Multiset.coe_singleton, Multiset.map_singleton, dispatched_taskId,
      ← Multiset.singleton_add]
    abel
  · -- The pop made room, so the task goes back to the lane it came from.
    have pushed : Pushed s' task (s'.pushTask task) := pushTask_pushed (home.symm ▸ popped.free)
    rw [run]
    refine ⟨pushed.sorted sorted, ?_, (pushed.violations.trans violations).trans sound.unviolated⟩
    simp only [Conserved, pushed.dequeued, pushed.dispatched, pushed.queued, dequeued, dispatched]
    exact before

end Scheduler

/-- What holds at every loop head. At rest the kernel was told how many tasks wait. -/
structure Machine.Sound (m : Machine) : Prop where
  scheduler : m.scheduler.Sound
  notifying : m.control = .notifying → m.failed = false → m.scheduler.tasksLen = 0
  idle : m.control = .idle → m.scheduler.nrScheduled = m.scheduler.tasksLen ∧
    (m.failed = false → m.scheduler.tasksLen = 0)

theorem machineInit_sound : Machine.init.Sound :=
  ⟨Scheduler.init_sound, fun here => (nomatch here), fun _ => ⟨rfl, fun _ => rfl⟩⟩

theorem tasksLen_of_empty {s : Scheduler} (empty : s.tasksEmpty = true) : s.tasksLen = 0 := by
  rw [s.tasksLen_eq, s.tasksEmpty_iff.mp empty, Multiset.card_zero]

theorem MachineStep.sound {percpuLocal : Bool} {m m' : Machine} {e : Event}
    (step : MachineStep percpuLocal m e m') (before : m.Sound) : m'.Sound := by
  cases step with
  | call s failed nrOnlineCpus =>
    exact ⟨before.scheduler, fun here => (nomatch here), fun here => (nomatch here)⟩
  | arrive s failed budget a free =>
    exact ⟨before.scheduler.receive free a, fun here => (nomatch here), fun here => (nomatch here)⟩
  | noArrival s failed budget free =>
    exact ⟨before.scheduler, fun here => (nomatch here), fun here => (nomatch here)⟩
  | drained s failed budget stop =>
    exact ⟨before.scheduler, fun here => (nomatch here), fun here => (nomatch here)⟩
  | dispatch s failed attempt some_ =>
    refine ⟨before.scheduler.dispatch percpuLocal attempt some_, ?_, ?_⟩
    · cases answer : (s.dispatchTask percpuLocal attempt).1 with
      | true => exact fun here => nomatch here
      | false => simp
    · cases answer : (s.dispatchTask percpuLocal attempt).1 with
      | true => exact fun here => nomatch here
      | false => exact fun here => nomatch here
  | dispatched s failed empty =>
    exact ⟨before.scheduler, fun _ _ => tasksLen_of_empty empty, fun here => (nomatch here)⟩
  | notify s failed =>
    exact ⟨⟨before.scheduler.sorted, before.scheduler.conserved, before.scheduler.unviolated⟩,
      fun here => (nomatch here), fun _ => ⟨rfl, before.notifying rfl⟩⟩

theorem run_sound {percpuLocal : Bool} {es : List Event} {m m' : Machine}
    (run : Run (MachineStep percpuLocal) m es m') (before : m.Sound) : m'.Sound :=
  run.keeps (P := fun _ => True) (fun _ _ _ _ step => step.sound) (fun _ _ => trivial) before

/-- At every point of every run of `schedule` calls the tasks read are those dispatched and
those in the lanes, and none was dropped. At rest `nr_scheduled` counts the lanes, which are
empty unless the ring refused a message of the call. -/
theorem fallback_lossless {percpuLocal : Bool} {es : List Event} {m : Machine}
    (run : Run (MachineStep percpuLocal) .init es m) :
    m.scheduler.Conserved ∧ m.scheduler.violations = 0 ∧
      (m.control = .idle → m.scheduler.nrScheduled = m.scheduler.tasksLen ∧
        (m.failed = false → m.scheduler.nrScheduled = 0)) := by
  have sound := run_sound run machineInit_sound
  refine ⟨sound.scheduler.conserved, sound.scheduler.unviolated, fun rest => ?_⟩
  obtain ⟨counted, empty⟩ := sound.idle rest
  exact ⟨counted, fun accepted => counted.trans (empty accepted)⟩

def refusedCall : Call where
  nrOnlineCpus := 1
  arrivals := [⟨⟨7, 0, 0, 0, 1⟩, ⟨10, 5, .compute, false, false, false, 0, 3⟩, 0⟩]
  attempts := fun _ => ⟨0, false⟩

theorem fallback_lossless_refused :
    ∃ es failed, Run (MachineStep false) .init es
        ⟨.idle, schedule false refusedCall .init, failed⟩ ∧
      (schedule false refusedCall .init).Conserved ∧
      (schedule false refusedCall .init).nrScheduled =
        (schedule false refusedCall .init).tasksLen := by
  obtain ⟨es, failed, run⟩ := @schedule_run false refusedCall .init false
  obtain ⟨conserved, _, rest⟩ := fallback_lossless run
  exact ⟨es, failed, run, conserved, (rest rfl).1⟩

end Cognis.Fallback
