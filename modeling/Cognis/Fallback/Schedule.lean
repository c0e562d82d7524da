import Cognis.Lib.Runs
import Cognis.Fallback.Lanes

/-! One call of `schedule`, and the same call loop head by loop head. -/
namespace Cognis.Fallback
open Runs

namespace Scheduler

/-- What one dispatch does to a scheduler with tasks: the popped task goes to the ring or
back to its lane. -/
theorem dispatchTask_cases (percpuLocal : Bool) (attempt : Attempt) {s : Scheduler}
    (some_ : s.tasksEmpty = false) :
    ∃ lane task s', Popped s lane task s' ∧
      (attempt.accepted = true ∧ dispatchTask percpuLocal attempt s =
          (true, s'.submit (task.dispatched percpuLocal)) ∨
        attempt.accepted = false ∧
          dispatchTask percpuLocal attempt s = (false, s'.pushTask task)) := by
  rcases s.popHighestPriorityTask_cases attempt.now with ⟨empty, _⟩ |
    ⟨lane, task, s', popped, effect, _⟩
  · rw [← tasksEmpty_iff, some_] at empty
    cases empty
  · refine ⟨lane, task, s', effect, ?_⟩
    cases accepted : attempt.accepted with
    | true => exact .inl ⟨rfl, by simp [dispatchTask, popped, accepted]⟩
    | false => exact .inr ⟨rfl, by simp [dispatchTask, popped, accepted]⟩

theorem dispatchTask_tasksLen {percpuLocal : Bool} {attempt : Attempt} {s s' : Scheduler}
    (some_ : ¬ s.tasksEmpty = true) (ok : dispatchTask percpuLocal attempt s = (true, s')) :
    s'.tasksLen < s.tasksLen := by
  obtain ⟨lane, task, t, popped, ⟨_, run⟩ | ⟨_, run⟩⟩ :=
    dispatchTask_cases percpuLocal attempt (Bool.eq_false_iff.mpr some_)
  · rw [run] at ok
    have shorter : s.queued.card = t.queued.card + 1 := by
      rw [popped.queued, Multiset.card_cons]
    have same : s'.queued = t.queued := (Prod.mk.inj ok).2 ▸ rfl
    rw [tasksLen_eq, tasksLen_eq, same]
    omega
  · rw [run] at ok
    cases (Prod.mk.inj ok).1

/-- Dispatches until the lanes are empty or the ring refuses; `attempts` are its answers. -/
def dispatchAll (percpuLocal : Bool) (attempts : Nat → Attempt) (i : Nat) (s : Scheduler) :
    Scheduler :=
  if _empty : s.tasksEmpty then s
  else match step : dispatchTask percpuLocal (attempts i) s with
    | (true, s') => dispatchAll percpuLocal attempts (i + 1) s'
    | (false, s') => s'
termination_by s.tasksLen
decreasing_by exact dispatchTask_tasksLen ‹_› step

end Scheduler

/-- The kernel's answers during one call of `schedule`. -/
structure Call where
  nrOnlineCpus : Nat
  arrivals : List Arrival
  attempts : Nat → Attempt

def schedule (percpuLocal : Bool) (call : Call) (s : Scheduler) : Scheduler :=
  let s := Scheduler.drainQueuedTasks (drainBudget call.nrOnlineCpus) call.arrivals s
  let s := Scheduler.dispatchAll percpuLocal call.attempts 0 s
  s.notifyComplete s.tasksLen

inductive Control
  | idle
  | draining (budget : Nat)
  | dispatching
  | notifying

/-- `failed` is a ghost: the ring has refused a message of the latest call. -/
structure Machine where
  control : Control
  scheduler : Scheduler
  failed : Bool

def Machine.init : Machine := ⟨.idle, .init, false⟩

inductive Event
  | call (nrOnlineCpus : Nat)
  | arrive (a : Arrival)
  | noArrival
  | drained
  | dispatch (attempt : Attempt)
  | dispatched
  | notify

inductive MachineStep (percpuLocal : Bool) : Machine → Event → Machine → Prop
  | call (s : Scheduler) (failed : Bool) (nrOnlineCpus : Nat) :
      MachineStep percpuLocal ⟨.idle, s, failed⟩ (.call nrOnlineCpus)
        ⟨.draining (drainBudget nrOnlineCpus), s, false⟩
  | arrive (s : Scheduler) (failed : Bool) (budget : Nat) (a : Arrival)
      (free : s.hasDeferredTasks = false) :
      MachineStep percpuLocal ⟨.draining (budget + 1), s, failed⟩ (.arrive a)
        ⟨.draining budget, s.receive a, failed⟩
  | noArrival (s : Scheduler) (failed : Bool) (budget : Nat) (free : s.hasDeferredTasks = false) :
      MachineStep percpuLocal ⟨.draining (budget + 1), s, failed⟩ .noArrival
        ⟨.dispatching, s, failed⟩
  | drained (s : Scheduler) (failed : Bool) (budget : Nat)
      (stop : budget = 0 ∨ s.hasDeferredTasks = true) :
      MachineStep percpuLocal ⟨.draining budget, s, failed⟩ .drained ⟨.dispatching, s, failed⟩
  | dispatch (s : Scheduler) (failed : Bool) (attempt : Attempt) (some_ : s.tasksEmpty = false) :
      MachineStep percpuLocal ⟨.dispatching, s, failed⟩ (.dispatch attempt)
        ⟨if (s.dispatchTask percpuLocal attempt).1 then .dispatching else .notifying,
          (s.dispatchTask percpuLocal attempt).2,
          failed || !(s.dispatchTask percpuLocal attempt).1⟩
  | dispatched (s : Scheduler) (failed : Bool) (empty : s.tasksEmpty = true) :
      MachineStep percpuLocal ⟨.dispatching, s, failed⟩ .dispatched ⟨.notifying, s, failed⟩
  | notify (s : Scheduler) (failed : Bool) :
      MachineStep percpuLocal ⟨.notifying, s, failed⟩ .notify
        ⟨.idle, s.notifyComplete s.tasksLen, failed⟩

section

variable {percpuLocal : Bool}

theorem drainQueuedTasks_run (budget : Nat) (arrivals : List Arrival) (s : Scheduler)
    (failed : Bool) :
    ∃ es, Run (MachineStep percpuLocal) ⟨.draining budget, s, failed⟩ es
      ⟨.dispatching, Scheduler.drainQueuedTasks budget arrivals s, failed⟩ := by
  induction budget generalizing arrivals s with
  | zero => exact ⟨_, .single (.drained s failed 0 (.inl rfl))⟩
  | succ budget ih =>
    cases deferred : s.hasDeferredTasks with
    | true =>
      have stop : Scheduler.drainQueuedTasks (budget + 1) arrivals s = s := by
        cases arrivals <;> simp [Scheduler.drainQueuedTasks, deferred]
      rw [stop]
      exact ⟨_, .single (.drained s failed _ (.inr deferred))⟩
    | false =>
      cases arrivals with
      | nil => exact ⟨_, .single (.noArrival s failed budget deferred)⟩
      | cons a arrivals =>
        obtain ⟨es, run⟩ := ih arrivals (s.receive a)
        have next : Scheduler.drainQueuedTasks (budget + 1) (a :: arrivals) s =
            Scheduler.drainQueuedTasks budget arrivals (s.receive a) := by
          simp [Scheduler.drainQueuedTasks, deferred]
        rw [next]
        exact ⟨_, .cons (.arrive s failed budget a deferred) run⟩

theorem dispatchAll_accepted {attempts : Nat → Attempt} {i : Nat} {s s' : Scheduler}
    (some_ : ¬ s.tasksEmpty = true)
    (step : Scheduler.dispatchTask percpuLocal (attempts i) s = (true, s')) :
    Scheduler.dispatchAll percpuLocal attempts i s =
      Scheduler.dispatchAll percpuLocal attempts (i + 1) s' := by
  rw [Scheduler.dispatchAll, dif_neg some_]
  split
  · rename_i t ok
    rw [step] at ok
    rw [(Prod.mk.inj ok).2]
  · rename_i t refused
    rw [step] at refused
    cases (Prod.mk.inj refused).1

theorem dispatchAll_refused {attempts : Nat → Attempt} {i : Nat} {s s' : Scheduler}
    (some_ : ¬ s.tasksEmpty = true)
    (step : Scheduler.dispatchTask percpuLocal (attempts i) s = (false, s')) :
    Scheduler.dispatchAll percpuLocal attempts i s = s' := by
  rw [Scheduler.dispatchAll, dif_neg some_]
  split
  · rename_i t ok
    rw [step] at ok
    cases (Prod.mk.inj ok).1
  · rename_i t refused
    rw [step] at refused
    exact (Prod.mk.inj refused).2.symm

theorem dispatchAll_run (attempts : Nat → Attempt) (i : Nat) (s : Scheduler) (failed : Bool) :
    ∃ es failed', Run (MachineStep percpuLocal) ⟨.dispatching, s, failed⟩ es
      ⟨.notifying, Scheduler.dispatchAll percpuLocal attempts i s, failed'⟩ ∧
        es.length ≤ s.tasksLen + 1 := by
  induction i, s using Scheduler.dispatchAll.induct percpuLocal attempts generalizing failed with
  | case1 i s empty =>
    rw [Scheduler.dispatchAll, dif_pos empty]
    exact ⟨_, _, .single (.dispatched s failed empty), Nat.le_add_left _ _⟩
  | case2 i s nonempty s' step ih =>
    obtain ⟨es, failed', run, short⟩ := ih failed
    have shorter := Scheduler.dispatchTask_tasksLen nonempty step
    have now : MachineStep percpuLocal ⟨.dispatching, s, failed⟩ (.dispatch (attempts i)) _ :=
      .dispatch s failed (attempts i) (Bool.eq_false_iff.mpr nonempty)
    rw [step] at now
    rw [dispatchAll_accepted nonempty step]
    refine ⟨.dispatch (attempts i) :: es, failed', .cons now (by simpa using run), ?_⟩
    rw [List.length_cons]
    omega
  | case3 i s nonempty s' step =>
    have now : MachineStep percpuLocal ⟨.dispatching, s, failed⟩ (.dispatch (attempts i)) _ :=
      .dispatch s failed (attempts i) (Bool.eq_false_iff.mpr nonempty)
    rw [step] at now
    rw [dispatchAll_refused nonempty step]
    exact ⟨_, _, .single now, Nat.le_add_left _ _⟩

/-- A call of `schedule` takes the machine from rest to rest. -/
theorem schedule_run (call : Call) (s : Scheduler) (failed : Bool) :
    ∃ es failed', Run (MachineStep percpuLocal) ⟨.idle, s, failed⟩ es
      ⟨.idle, schedule percpuLocal call s, failed'⟩ := by
  obtain ⟨es, drain⟩ := @drainQueuedTasks_run percpuLocal
    (drainBudget call.nrOnlineCpus) call.arrivals s false
  obtain ⟨fs, failed', dispatch, _⟩ := @dispatchAll_run percpuLocal call.attempts 0
    (Scheduler.drainQueuedTasks (drainBudget call.nrOnlineCpus) call.arrivals s) false
  exact ⟨_, failed', .cons (.call s failed call.nrOnlineCpus)
    ((drain.append dispatch).append (.single (.notify _ failed')))⟩

end

end Cognis.Fallback
