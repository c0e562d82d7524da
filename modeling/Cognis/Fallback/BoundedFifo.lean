import Cognis.Lib.Machines
import Cognis.Fallback.TaskQueue

/-! The task queue is a bounded list: the ring and the slot behind it answer every sequence
of operations as a list of one element more than the ring holds. -/
namespace Cognis.Fallback
open Machines

inductive QueueOp (T : Type)
  | pushBack (value : T)
  | popFront

inductive QueueAnswer (T : Type)
  | pushed (kind : QueuePush)
  | refused (value : T)
  | popped (value : Option T)

section

variable {T : Type}

def TaskQueue.exec (q : TaskQueue T) : QueueOp T → QueueAnswer T × TaskQueue T
  | .pushBack value =>
    match q.pushBack value with
    | .ok (kind, q') => (.pushed kind, q')
    | .error value => (.refused value, q)
  | .popFront =>
    match q.popFront with
    | some (value, q') => (.popped (some value), q')
    | none => (.popped none, q)

/-- A list of at most `c + 1` elements, the oldest first. -/
def fifo (c : Nat) (xs : List T) : QueueOp T → QueueAnswer T × List T
  | .pushBack value =>
    if xs.length < c then (.pushed .primary, xs ++ [value])
    else if xs.length = c then (.pushed .deferred, xs ++ [value])
    else (.refused value, xs)
  | .popFront => (.popped xs.head?, xs.tail)

namespace TaskQueue

variable {q q' : TaskQueue T} {value : T}

theorem pushBack_primary (room : q.primary.isFull = false) (slot : q.deferred = none) (value : T) :
    ∃ q', q.pushBack value = .ok (.primary, q') ∧ q'.toList = q.toList ++ [value] ∧
      q'.primary.capacity = q.primary.capacity := by
  obtain ⟨r, pushed, contents, capacity⟩ := TaskRing.pushBack_ok room value
  refine ⟨_, by rw [pushBack, dif_pos room]; simp only [pushed]; rfl, ?_, capacity⟩
  simp [toList, contents, slot]

theorem pushBack_deferred (full : q.primary.isFull = true) (slot : q.deferred = none) (value : T) :
    ∃ q', q.pushBack value = .ok (.deferred, q') ∧ q'.toList = q.toList ++ [value] ∧
      q'.primary.capacity = q.primary.capacity := by
  refine ⟨_, by rw [pushBack, dif_neg (by simp [full]), if_pos (by simp [slot])], ?_, ?_⟩
  · simp [toList, slot]
  · rfl

theorem pushBack_error (full : q.primary.isFull = true) (slot : q.hasDeferred = true) (value : T) :
    q.pushBack value = .error value := by
  rw [pushBack, dif_neg (by simp [full])]
  apply if_neg
  simpa [hasDeferred, Option.isSome_iff_ne_none] using slot

theorem refillFromDeferred_capacity (primary : TaskRing T) (deferred : Option T) :
    (refillFromDeferred primary deferred).1.capacity = primary.capacity := by
  cases deferred with
  | none => rfl
  | some task =>
    cases full : primary.isFull with
    | true => simp [refillFromDeferred, full]
    | false =>
      obtain ⟨r, pushed, _, capacity⟩ := TaskRing.pushBack_ok full task
      simpa [refillFromDeferred, full, pushed] using capacity

theorem popFront_capacity (popped : q.popFront = some (value, q')) :
    q'.primary.capacity = q.primary.capacity := by
  unfold popFront at popped
  by_cases empty : q.primary.len = 0
  · rw [TaskRing.popFront_none empty] at popped
    obtain ⟨task, _, same⟩ := Option.map_eq_some_iff.mp popped
    rw [← (Prod.mk.inj same).2]
  · obtain ⟨task, r, ring, _, capacity⟩ := TaskRing.popFront_some empty
    rw [ring] at popped
    have same := (Prod.mk.inj (Option.some.inj popped)).2
    rw [← same]
    exact (refillFromDeferred_capacity r q.deferred).trans capacity

end TaskQueue

/-- The queue of a ring of `c` slots stands for the list. -/
structure TaskQueue.Holds (c : Nat) (q : TaskQueue T) (xs : List T) : Prop where
  capacity : q.primary.capacity = c
  contents : q.toList = xs

namespace TaskQueue.Holds

variable {c : Nat} {q : TaskQueue T} {xs : List T} (holds : q.Holds c xs)
include holds

theorem length_eq : xs.length = q.primary.len + q.deferred.isSome.toNat := by
  rw [← holds.contents]
  exact q.len_eq.symm

theorem primary_len_le : q.primary.len ≤ c := by
  rw [← holds.capacity]
  exact q.primary.len_le

theorem isFull_iff : q.primary.isFull = true ↔ q.primary.len = c := by
  rw [TaskRing.isFull, beq_iff_eq, holds.capacity]

theorem length_le : xs.length ≤ c + 1 := by
  have total := holds.length_eq
  have below := holds.primary_len_le
  have slot : q.deferred.isSome.toNat ≤ 1 := Bool.toNat_le _
  omega

/-- A stored list longer than the ring is the only one with a deferred task. -/
theorem hasDeferred_iff : q.hasDeferred = true ↔ xs.length = c + 1 := by
  have total := holds.length_eq
  have below := holds.primary_len_le
  unfold TaskQueue.hasDeferred
  cases slot : q.deferred.isSome with
  | false =>
    rw [slot, Bool.toNat_false] at total
    constructor
    · intro taken
      exact absurd taken Bool.false_ne_true
    · intro long
      omega
  | true =>
    rw [slot, Bool.toNat_true] at total
    have full := holds.isFull_iff.mp (q.deferred_full slot)
    constructor
    · intro _
      omega
    · intro _
      rfl

theorem deferred_none (room : xs.length ≤ c) : q.deferred = none := by
  have empty : ¬ q.hasDeferred = true := by
    intro taken
    have long := holds.hasDeferred_iff.mp taken
    omega
  simpa [TaskQueue.hasDeferred] using empty

theorem pushBack (value : T) :
    (q.exec (.pushBack value)).1 = (fifo c xs (.pushBack value)).1 ∧
      (q.exec (.pushBack value)).2.Holds c (fifo c xs (.pushBack value)).2 := by
  have total := holds.length_eq
  have bound := holds.length_le
  simp only [TaskQueue.exec, fifo]
  by_cases long : xs.length = c + 1
  · have slot := holds.hasDeferred_iff.mpr long
    rw [TaskQueue.pushBack_error (q.deferred_full slot) slot value, if_neg (by omega),
      if_neg (by omega)]
    exact ⟨rfl, holds⟩
  · have slot := holds.deferred_none (by omega)
    rw [slot, Option.isSome_none, Bool.toNat_false, Nat.add_zero] at total
    by_cases room : xs.length < c
    · have free : q.primary.isFull = false := by
        apply Bool.eq_false_of_not_eq_true
        intro full
        have exact_ := holds.isFull_iff.mp full
        omega
      obtain ⟨q', pushed, contents, capacity⟩ := TaskQueue.pushBack_primary free slot value
      rw [pushed, if_pos room]
      exact ⟨rfl, capacity.trans holds.capacity, by rw [contents, holds.contents]⟩
    · have full : q.primary.isFull = true := holds.isFull_iff.mpr (by omega)
      obtain ⟨q', pushed, contents, capacity⟩ := TaskQueue.pushBack_deferred full slot value
      rw [pushed, if_neg room, if_pos (by omega)]
      exact ⟨rfl, capacity.trans holds.capacity, by rw [contents, holds.contents]⟩

theorem popFront : (q.exec .popFront).1 = (fifo c xs .popFront).1 ∧
    (q.exec .popFront).2.Holds c (fifo c xs .popFront).2 := by
  simp only [TaskQueue.exec, fifo]
  by_cases empty : q.toList = []
  · rw [TaskQueue.popFront_none empty, ← holds.contents, empty]
    exact ⟨rfl, holds.capacity, empty⟩
  · obtain ⟨value, q', popped, contents, _⟩ := TaskQueue.popFront_some empty
    rw [popped, ← holds.contents, contents]
    exact ⟨rfl, (TaskQueue.popFront_capacity popped).trans holds.capacity, rfl⟩

theorem exec (op : QueueOp T) : (q.exec op).1 = (fifo c xs op).1 ∧
    (q.exec op).2.Holds c (fifo c xs op).2 := by
  cases op with
  | pushBack value => exact holds.pushBack value
  | popFront => exact holds.popFront

end TaskQueue.Holds

/-- What the queue shows of the list it stands for. -/
structure TaskQueue.Shows (c : Nat) (q : TaskQueue T) (xs : List T) : Prop where
  short : xs.length ≤ c + 1
  contents : q.toList = xs
  front : q.front = xs.head?
  len : q.len = xs.length
  isEmpty : q.isEmpty = true ↔ xs = []
  hasDeferred : q.hasDeferred = true ↔ xs.length = c + 1

theorem TaskQueue.Holds.shows {c : Nat} {q : TaskQueue T} {xs : List T} (holds : q.Holds c xs) :
    q.Shows c xs := by
  obtain ⟨_, rfl⟩ := id holds
  exact ⟨holds.length_le, rfl, q.front_eq, q.len_eq, q.isEmpty_iff, holds.hasDeferred_iff⟩

/-- The queue answers every sequence of operations as the list does. -/
theorem task_queue_is_fifo {c : Nat} (pos : 0 < c) (ops : List (QueueOp T)) :
    (run TaskQueue.exec (.withCapacity T c pos) ops).1 = (run (fifo c) [] ops).1 ∧
      (run TaskQueue.exec (.withCapacity T c pos) ops).2.Shows c (run (fifo c) [] ops).2 := by
  have start : (TaskQueue.withCapacity T c pos).Holds c [] :=
    ⟨rfl, TaskQueue.withCapacity_toList pos⟩
  obtain ⟨answers, last⟩ :=
    run_simulates (fun _ _ op holds => TaskQueue.Holds.exec holds op) start ops
  exact ⟨answers, last.shows⟩

end

/-- A ring of two slots refuses the fourth of four pushes. -/
theorem task_queue_is_fifo_two :
    (run TaskQueue.exec (.withCapacity Nat 2 (by decide))
        [.pushBack 1, .pushBack 2, .pushBack 3, .pushBack 4, .popFront, .pushBack 5]).1 =
      [.pushed .primary, .pushed .primary, .pushed .deferred, .refused 4, .popped (some 1),
        .pushed .deferred] :=
  (task_queue_is_fifo (by decide) _).1

end Cognis.Fallback
