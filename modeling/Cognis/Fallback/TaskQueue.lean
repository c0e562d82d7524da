import Mathlib.Data.Nat.ModEq
import Mathlib.Data.List.Basic
import Mathlib.Logic.Function.Basic

/-! The task queues of the user-space fallback: a ring of fixed capacity and one
deferred slot behind it. -/
namespace Cognis.Fallback

def ringIndex (capacity head i : Nat) : Nat := (head + i) % capacity

theorem ringIndex_injective {capacity head i j : Nat} (i_lt : i < capacity) (j_lt : j < capacity)
    (same : ringIndex capacity head i = ringIndex capacity head j) : i = j := by
  have cancelled : i ≡ j [MOD capacity] := Nat.ModEq.add_left_cancel' head same
  exact cancelled.eq_of_lt_of_lt i_lt j_lt

theorem ringIndex_succ (capacity head i : Nat) :
    ringIndex capacity ((head + 1) % capacity) i = ringIndex capacity head (i + 1) := by
  simp only [ringIndex, Nat.mod_add_mod]
  rw [Nat.add_assoc, Nat.add_comm 1 i]

/-- `none` in the buffer is uninitialized memory; the tasks in the ring are initialized. -/
structure TaskRing (T : Type) where
  capacity : Nat
  buf : Nat → Option T
  head : Nat
  tail : Nat
  len : Nat
  capacity_pos : 0 < capacity
  head_lt : head < capacity
  tail_eq : tail = ringIndex capacity head len
  len_le : len ≤ capacity
  init : ∀ i < len, (buf (ringIndex capacity head i)).isSome = true

namespace TaskRing

variable {T : Type}

def withCapacity (T : Type) (capacity : Nat) (pos : 0 < capacity) : TaskRing T where
  capacity := capacity
  buf := fun _ => none
  head := 0
  tail := 0
  len := 0
  capacity_pos := pos
  head_lt := pos
  tail_eq := by simp [ringIndex]
  len_le := Nat.zero_le capacity
  init := fun _ below => absurd below (Nat.not_lt_zero _)

def isFull (r : TaskRing T) : Bool := r.len == r.capacity

def isEmpty (r : TaskRing T) : Bool := r.len == 0

/-- The slots in use do not hold the next free one. -/
theorem ne_tail (r : TaskRing T) (room : r.len ≠ r.capacity) {i : Nat} (used : i < r.len) :
    ringIndex r.capacity r.head i ≠ r.tail := by
  have below := r.len_le
  rw [r.tail_eq]
  intro same
  have index := ringIndex_injective (by omega) (by omega) same
  omega

theorem index_zero (r : TaskRing T) : ringIndex r.capacity r.head 0 = r.head :=
  Nat.mod_eq_of_lt r.head_lt

theorem range_len (r : TaskRing T) (some_ : r.len ≠ 0) :
    List.range r.len = 0 :: (List.range (r.len - 1)).map Nat.succ := by
  rw [← List.range_succ_eq_map, Nat.sub_add_cancel (Nat.pos_of_ne_zero some_)]

def pushBack (r : TaskRing T) (value : T) : Except T (TaskRing T) :=
  if full : r.len = r.capacity then .error value
  else .ok { r with
    buf := Function.update r.buf r.tail (some value)
    tail := (r.tail + 1) % r.capacity
    len := r.len + 1
    tail_eq := by simp only [r.tail_eq, ringIndex, Nat.mod_add_mod, Nat.add_assoc]
    len_le := Nat.lt_of_le_of_ne r.len_le full
    init := by
      intro i below
      by_cases last : i = r.len
      · rw [last, ← r.tail_eq, Function.update_self]
        rfl
      · have used : i < r.len := by omega
        rw [Function.update_of_ne (r.ne_tail full used)]
        exact r.init i used }

theorem head_isSome (r : TaskRing T) (some_ : r.len ≠ 0) : (r.buf r.head).isSome = true := by
  have first := r.init 0 (Nat.pos_of_ne_zero some_)
  rwa [r.index_zero] at first

def popFront (r : TaskRing T) : Option (T × TaskRing T) :=
  if empty : r.len = 0 then none
  else some ((r.buf r.head).get (r.head_isSome empty), { r with
    head := (r.head + 1) % r.capacity
    len := r.len - 1
    head_lt := Nat.mod_lt _ r.capacity_pos
    tail_eq := by rw [ringIndex_succ, Nat.sub_add_cancel (Nat.pos_of_ne_zero empty), r.tail_eq]
    len_le := Nat.le_trans (Nat.sub_le _ _) r.len_le
    init := by
      intro i below
      rw [ringIndex_succ]
      exact r.init (i + 1) (by omega) })

def front (r : TaskRing T) : Option T := if r.len = 0 then none else r.buf r.head

def toList (r : TaskRing T) : List T :=
  (List.range r.len).filterMap fun i => r.buf (ringIndex r.capacity r.head i)

theorem map_some_toList (r : TaskRing T) :
    r.toList.map some = (List.range r.len).map fun i => r.buf (ringIndex r.capacity r.head i) := by
  have all : ∀ is : List Nat, (∀ i ∈ is, i < r.len) →
      (is.filterMap fun i => r.buf (ringIndex r.capacity r.head i)).map some =
        is.map fun i => r.buf (ringIndex r.capacity r.head i) := by
    intro is below
    induction is with
    | nil => rfl
    | cons i is ih =>
      obtain ⟨first, rest⟩ := List.forall_mem_cons.mp below
      obtain ⟨value, stored⟩ := Option.isSome_iff_exists.mp (r.init i first)
      simp [stored, ih rest]
  exact all _ fun i member => List.mem_range.mp member

/-- The contents are determined by the slots in use. -/
theorem toList_eq {r : TaskRing T} {xs : List T}
    (slots : xs.map some =
      (List.range r.len).map fun i => r.buf (ringIndex r.capacity r.head i)) : r.toList = xs :=
  List.map_injective_iff.mpr (Option.some_injective T) (r.map_some_toList.trans slots.symm)

theorem length_toList (r : TaskRing T) : r.toList.length = r.len := by
  simpa using congrArg List.length r.map_some_toList

theorem pushBack_ok {r : TaskRing T} (room : r.isFull = false) (value : T) :
    ∃ r', r.pushBack value = .ok r' ∧ r'.toList = r.toList ++ [value] ∧
      r'.capacity = r.capacity := by
  have free : ¬ r.len = r.capacity := fun full => by simp [isFull, full] at room
  refine ⟨_, dif_neg free, toList_eq ?_, rfl⟩
  dsimp only
  rw [List.range_succ, List.map_append, List.map_append, r.map_some_toList]
  refine congrArg₂ _ (List.map_congr_left fun i member => ?_) ?_
  · exact (Function.update_of_ne (r.ne_tail free (List.mem_range.mp member)) ..).symm
  · simp [← r.tail_eq]

theorem popFront_none {r : TaskRing T} (empty : r.len = 0) : r.popFront = none := dif_pos empty

theorem popFront_some {r : TaskRing T} (some_ : r.len ≠ 0) :
    ∃ value r', r.popFront = some (value, r') ∧ r.toList = value :: r'.toList ∧
      r'.capacity = r.capacity := by
  refine ⟨_, _, dif_neg some_, toList_eq ?_, rfl⟩
  rw [List.map_cons, map_some_toList, r.range_len some_, List.map_cons, List.map_map, r.index_zero]
  refine congrArg₂ _ (Option.some_get _) (List.map_congr_left fun i _ => ?_)
  exact congrArg r.buf (ringIndex_succ ..)

theorem front_eq (r : TaskRing T) : r.front = r.toList.head? := by
  unfold front
  split
  · rename_i empty
    have none : r.toList = [] := List.length_eq_zero_iff.mp (r.length_toList.trans empty)
    rw [none]
    rfl
  · rename_i some_
    have slots := r.map_some_toList
    rw [r.range_len some_, List.map_cons, r.index_zero] at slots
    cases contents : r.toList with
    | nil => simp [contents] at slots
    | cons value rest =>
      rw [contents, List.map_cons] at slots
      exact (List.cons.inj slots).1.symm

end TaskRing

inductive QueuePush
  | primary
  | deferred
deriving DecidableEq

/-- Only a full ring has a deferred task behind it. -/
structure TaskQueue (T : Type) where
  primary : TaskRing T
  deferred : Option T
  deferred_full : deferred.isSome = true → primary.isFull = true

namespace TaskQueue

variable {T : Type}

def withCapacity (T : Type) (capacity : Nat) (pos : 0 < capacity) : TaskQueue T where
  primary := .withCapacity T capacity pos
  deferred := none
  deferred_full := fun deferred => nomatch deferred

def pushBack (q : TaskQueue T) (value : T) : Except T (QueuePush × TaskQueue T) :=
  if room : q.primary.isFull = false then
    match q.primary.pushBack value with
    | .ok primary => .ok (.primary, { q with
        primary := primary
        deferred_full := fun deferred => by simp [q.deferred_full deferred] at room })
    | .error value => .error value
  else if q.deferred.isNone then
    .ok (.deferred, { q with
      deferred := some value
      deferred_full := fun _ => Bool.eq_true_of_not_eq_false room })
  else .error value

/-- The ring and the slot after a pop from the ring. -/
def refillFromDeferred (primary : TaskRing T) (deferred : Option T) : TaskRing T × Option T :=
  match deferred with
  | none => (primary, none)
  | some task =>
    if primary.isFull then (primary, some task)
    else match primary.pushBack task with
      | .ok primary => (primary, none)
      | .error task => (primary, some task)

theorem refillFromDeferred_none (primary : TaskRing T) :
    refillFromDeferred primary none = (primary, none) := rfl

theorem refillFromDeferred_some {primary : TaskRing T} (room : primary.isFull = false) (task : T) :
    ∃ r, refillFromDeferred primary (some task) = (r, none) ∧
      r.toList = primary.toList ++ [task] := by
  obtain ⟨r, pushed, contents, _⟩ := TaskRing.pushBack_ok room task
  exact ⟨r, by simp [refillFromDeferred, room, pushed], contents⟩

theorem refillFromDeferred_full (primary : TaskRing T) (deferred : Option T) :
    (refillFromDeferred primary deferred).2.isSome = true →
      (refillFromDeferred primary deferred).1.isFull = true := by
  cases deferred with
  | none => exact fun kept => nomatch kept
  | some task =>
    cases full : primary.isFull with
    | true => simp [refillFromDeferred, full]
    | false =>
      obtain ⟨r, moved, _⟩ := refillFromDeferred_some full task
      simp [moved]

/-- The queue once the deferred task moved up into `primary`. -/
def refilled (primary : TaskRing T) (deferred : Option T) : TaskQueue T where
  primary := (refillFromDeferred primary deferred).1
  deferred := (refillFromDeferred primary deferred).2
  deferred_full := refillFromDeferred_full primary deferred

def popFront (q : TaskQueue T) : Option (T × TaskQueue T) :=
  match q.primary.popFront with
  | some (task, primary) => some (task, refilled primary q.deferred)
  | none => q.deferred.map fun task => (task, { q with
      deferred := none
      deferred_full := fun deferred => nomatch deferred })

def front (q : TaskQueue T) : Option T := q.primary.front.or q.deferred

def isEmpty (q : TaskQueue T) : Bool := q.primary.isEmpty && q.deferred.isNone

def len (q : TaskQueue T) : Nat := q.primary.len + q.deferred.isSome.toNat

def hasDeferred (q : TaskQueue T) : Bool := q.deferred.isSome

def toList (q : TaskQueue T) : List T := q.primary.toList ++ q.deferred.toList

theorem withCapacity_toList {capacity : Nat} (pos : 0 < capacity) :
    (withCapacity T capacity pos).toList = [] := rfl

theorem len_eq (q : TaskQueue T) : q.len = q.toList.length := by
  rw [len, toList, List.length_append, q.primary.length_toList]
  cases q.deferred <;> rfl

theorem isEmpty_iff (q : TaskQueue T) : q.isEmpty = true ↔ q.toList = [] := by
  rw [← List.length_eq_zero_iff, ← len_eq, isEmpty, len, TaskRing.isEmpty]
  cases q.deferred <;> simp

/-- Without a deferred task there is a slot for one more. -/
theorem pushBack_ok {q : TaskQueue T} (free : q.hasDeferred = false) (value : T) :
    ∃ kind q', q.pushBack value = .ok (kind, q') ∧ q'.toList = q.toList ++ [value] := by
  have slot : q.deferred = none := Option.isNone_iff_eq_none.mp (by simpa [hasDeferred] using free)
  cases full : q.primary.isFull with
  | false =>
    obtain ⟨r, pushed, contents, _⟩ := TaskRing.pushBack_ok full value
    refine ⟨.primary, _, by rw [pushBack, dif_pos full]; simp only [pushed]; rfl, ?_⟩
    simp [toList, contents, slot]
  | true =>
    refine ⟨.deferred, _, by rw [pushBack, dif_neg (by simp [full]), if_pos (by simp [slot])], ?_⟩
    simp [toList, slot]

theorem popFront_none {q : TaskQueue T} (empty : q.toList = []) : q.popFront = none := by
  obtain ⟨primary, deferred⟩ := List.append_eq_nil_iff.mp empty
  have nothing : q.primary.popFront = none := TaskRing.popFront_none <| by
    rw [← TaskRing.length_toList, primary]
    rfl
  have slot : q.deferred = none := by simpa using deferred
  simp [popFront, nothing, slot]

theorem isEmpty_primary {q : TaskQueue T} (empty : q.primary.len = 0) : q.toList = [] := by
  have room : q.primary.isFull = false := by
    have pos := q.primary.capacity_pos
    simp only [TaskRing.isFull, empty, beq_eq_false_iff_ne]
    omega
  have slot : q.deferred = none := by
    have full := q.deferred_full
    cases stored : q.deferred with
    | none => rfl
    | some task => simp [room, stored] at full
  have contents : q.primary.toList = [] :=
    List.length_eq_zero_iff.mp (q.primary.length_toList.trans empty)
  simp [toList, contents, slot]

/-- A pop leaves no deferred task behind. -/
theorem popFront_some {q : TaskQueue T} (some_ : q.toList ≠ []) :
    ∃ value q', q.popFront = some (value, q') ∧ q.toList = value :: q'.toList ∧
      q'.hasDeferred = false := by
  obtain ⟨value, r, popped, contents, capacity⟩ :=
    TaskRing.popFront_some fun empty => some_ (isEmpty_primary empty)
  refine ⟨value, refilled r q.deferred, by simp only [popFront, popped], ?_⟩
  have room : r.isFull = false := by
    have below := q.primary.len_le
    have shorter := congrArg List.length contents
    simp only [TaskRing.length_toList, List.length_cons] at shorter
    simp only [TaskRing.isFull, beq_eq_false_iff_ne, capacity]
    omega
  cases slot : q.deferred with
  | none => simp [toList, hasDeferred, refilled, refillFromDeferred_none, contents, slot]
  | some task =>
    obtain ⟨r', moved, joined⟩ := refillFromDeferred_some room task
    simp [toList, hasDeferred, refilled, moved, contents, slot, joined]

theorem front_eq (q : TaskQueue T) : q.front = q.toList.head? := by
  rw [front, TaskRing.front_eq, toList, List.head?_append]
  cases q.deferred <;> rfl

end TaskQueue

end Cognis.Fallback
