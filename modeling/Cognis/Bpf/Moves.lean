import Mathlib.Data.List.Find
import Cognis.Bpf.Kernel

/-! What an attempt to fetch a task does to the queues. A peek shows a queue as it is, a move
first commits the pending insertions and then takes the first task that may run on the CPU. -/
namespace Cognis.Bpf
open StateLogic

/-- The part of the kernel state that decides a move. -/
structure Queues where
  dsq : Nat → List Nat
  task : Nat → TaskStruct
  nrCpuIds : Nat

/-- The queues as the peeks show them, and the insertions that the next move commits. -/
structure View where
  now : Queues
  pending : List (Nat × Nat)

namespace Queues

/-- A pending insertion reaches its queue. -/
def land (v : Queues) (entry : Nat × Nat) : Queues where
  __ := v
  dsq := Function.update v.dsq entry.1
    (insertByVtime (fun r => (v.task r).dsqVtime) entry.2 (v.dsq entry.1))

def still (v : Queues) : View := ⟨v, []⟩

def Holds (v : Queues) (cpu : Int) (q : Nat) : Prop :=
  ∃ p ∈ v.dsq q, (v.task p).cpusPtr cpu = true

/-- The task that a move from `q` takes. -/
def firstAllowed (v : Queues) (cpu : Int) (q : Nat) : Option Nat :=
  (v.dsq q).find? fun p => (v.task p).cpusPtr cpu

/-- The first of the queues `qs` that holds a task for `cpu`, and that task. -/
def source (v : Queues) (cpu : Int) (qs : List Nat) : Option (Nat × Nat) :=
  qs.findSome? fun q => (v.firstAllowed cpu q).map fun p => (q, p)

/-- `p` goes from the queue `q` to the end of the local queue of `cpu`. -/
def deliver (v : Queues) (cpu : Int) (q p : Nat) : Queues where
  __ := v
  dsq := Function.update (Function.update v.dsq q ((v.dsq q).erase p)) (localOn cpu)
    (v.dsq (localOn cpu) ++ [p])

/-- `p` went from `q` to the local queue of `cpu`, and nothing else moved. -/
structure Moved (v w : Queues) (cpu : Int) (q p : Nat) : Prop where
  member : p ∈ v.dsq q
  dsq : w.dsq = Function.update (Function.update v.dsq q ((v.dsq q).erase p)) (localOn cpu)
    (v.dsq (localOn cpu) ++ [p])

section

variable {v w : Queues} {cpu : Int} {q p : Nat}

theorem Holds.ne_nil (h : v.Holds cpu q) : v.dsq q ≠ [] := by
  obtain ⟨p, member, _⟩ := h
  exact List.ne_nil_of_mem member

theorem Holds.head (h : v.Holds cpu q) : ∃ p, (v.dsq q).head? = some p := by
  obtain ⟨p, ps, queue⟩ := List.exists_cons_of_ne_nil h.ne_nil
  exact ⟨p, by rw [queue, List.head?_cons]⟩

theorem firstAllowed_isSome : (v.firstAllowed cpu q).isSome = true ↔ v.Holds cpu q := by
  rw [firstAllowed, List.find?_isSome]
  rfl

theorem mem_of_firstAllowed (first : v.firstAllowed cpu q = some p) :
    p ∈ v.dsq q ∧ (v.task p).cpusPtr cpu = true :=
  ⟨List.mem_of_find?_eq_some first,
    List.find?_some (p := fun p => (v.task p).cpusPtr cpu) first⟩

theorem source_append (xs ys : List Nat) :
    v.source cpu (xs ++ ys) = (v.source cpu xs).or (v.source cpu ys) := List.findSome?_append

theorem source_singleton : v.source cpu [q] = (v.firstAllowed cpu q).map fun p => (q, p) := by
  rw [source, List.findSome?_singleton]

theorem source_eq_none {qs : List Nat} : v.source cpu qs = none ↔ ∀ q ∈ qs, ¬ v.Holds cpu q := by
  simp only [source, List.findSome?_eq_none_iff, Option.map_eq_none_iff, ← firstAllowed_isSome,
    Option.not_isSome_iff_eq_none]

theorem source_mem {qs : List Nat} (found : v.source cpu qs = some (q, p)) :
    q ∈ qs ∧ v.firstAllowed cpu q = some p := by
  obtain ⟨r, member, first⟩ := List.exists_of_findSome?_eq_some found
  obtain ⟨u, first, same⟩ := Option.map_eq_some_iff.mp first
  cases same
  exact ⟨member, first⟩

theorem Moved.deliver (member : p ∈ v.dsq q) : v.Moved (v.deliver cpu q p) cpu q p :=
  ⟨member, rfl⟩

theorem Moved.ne (moved : v.Moved w cpu q p) : w.dsq ≠ v.dsq := by
  intro same
  have longer := congrArg (fun d => (d (localOn cpu)).length) (same.symm.trans moved.dsq)
  simp at longer

/-- The queues before and after determine what was moved. -/
theorem Moved.unique {q' p' : Nat} (moved : v.Moved w cpu q p) (moved' : v.Moved w cpu q' p')
    (other : q ≠ localOn cpu) : q = q' ∧ p = p' := by
  have same := moved.dsq.symm.trans moved'.dsq
  have task : p = p' := by
    have tails := congrFun same (localOn cpu)
    simpa using tails
  refine ⟨?_, task⟩
  by_contra apart
  have queue := congrFun same q
  rw [Function.update_of_ne other, Function.update_self, Function.update_of_ne other,
    Function.update_of_ne apart] at queue
  have shorter := List.length_erase_of_mem moved.member
  have some_ := List.length_pos_of_mem moved.member
  rw [queue] at shorter
  omega

end

end Queues

theorem insertByVtime_perm (vtimeOf : Nat → U64) (p : Nat) (qs : List Nat) :
    (insertByVtime vtimeOf p qs).Perm (p :: qs) := by
  induction qs with
  | nil => exact .refl _
  | cons q qs ih =>
    rw [insertByVtime]
    split
    · exact .refl _
    · exact (ih.cons q).trans (.swap p q qs)

namespace View

variable (v : View)

/-- The queues as the next move finds them. -/
def landed : Queues := v.pending.foldl Queues.land v.now

def settled : View := v.landed.still

/-- The view once moves from the queues `tried` have failed. -/
def after (tried : List Nat) : View := if tried.isEmpty then v else v.settled

/-- The queues that attempts made one after the other try, where each order depends on what
the attempts before it have left to see. -/
def inTurn (v : View) : List (Queues → List Nat) → List Nat
  | [] => []
  | order :: orders => order v.now ++ (v.after (order v.now)).inTurn orders

@[simp] theorem after_nil : v.after [] = v := rfl

@[simp] theorem after_cons (q : Nat) (qs : List Nat) : v.after (q :: qs) = v.settled := rfl

theorem after_append (xs ys : List Nat) : (v.after xs).after ys = v.after (xs ++ ys) := by
  cases xs with
  | nil => rfl
  | cons q xs =>
    rw [after_cons, List.cons_append, after_cons, after]
    split <;> rfl

@[simp] theorem after_landed (qs : List Nat) : (v.after qs).landed = v.landed := by
  rw [after]
  split <;> rfl

/-- Insertions reach their queues and change nothing else. -/
theorem landed_same : v.landed.task = v.now.task ∧ v.landed.nrCpuIds = v.now.nrCpuIds :=
  List.foldlRecOn v.pending _
    (motive := fun w : Queues => w.task = v.now.task ∧ w.nrCpuIds = v.now.nrCpuIds) ⟨rfl, rfl⟩
    fun _ same _ _ => same

@[simp] theorem landed_task : v.landed.task = v.now.task := v.landed_same.1

@[simp] theorem landed_nrCpuIds : v.landed.nrCpuIds = v.now.nrCpuIds := v.landed_same.2

@[simp] theorem after_task (qs : List Nat) : (v.after qs).now.task = v.now.task := by
  rw [after]
  split
  · rfl
  · exact v.landed_task

@[simp] theorem after_nrCpuIds (qs : List Nat) : (v.after qs).now.nrCpuIds = v.now.nrCpuIds := by
  rw [after]
  split
  · rfl
  · exact v.landed_nrCpuIds

variable {v} {q p : Nat}

theorem mem_landed : p ∈ v.landed.dsq q ↔ p ∈ v.now.dsq q ∨ (q, p) ∈ v.pending := by
  obtain ⟨now, pending⟩ := v
  induction pending generalizing now with
  | nil => simp [landed]
  | cons e es ih =>
    refine (ih (now.land e)).trans ?_
    by_cases here : q = e.1
    · subst here
      simp only [Queues.land, Function.update_self, (insertByVtime_perm _ _ _).mem_iff,
        List.mem_cons, Prod.ext_iff, true_and]
      tauto
    · simp [Queues.land, here, Prod.ext_iff]

theorem landed_dsq_of_ne (none : ∀ e ∈ v.pending, e.1 ≠ q) : v.landed.dsq q = v.now.dsq q :=
  List.foldlRecOn v.pending _ (motive := fun w : Queues => w.dsq q = v.now.dsq q) rfl
    fun _ same e member => (Function.update_of_ne (none e member).symm ..).trans same

end View

@[simp] theorem Queues.still_after (v : Queues) (qs : List Nat) : v.still.after qs = v.still := by
  rw [View.after]
  split <;> rfl

@[simp] theorem Queues.still_now (v : Queues) : v.still.now = v := rfl

@[simp] theorem Queues.still_landed (v : Queues) : v.still.landed = v := rfl

namespace Kernel

def queues (k : Kernel) : Queues := ⟨k.dsq, k.task, k.nrCpuIds⟩

def view (k : Kernel) : View := ⟨k.queues, k.pending⟩

def touchAll (k : Kernel) (qs : List Nat) : Kernel := { k with touched := k.touched ++ qs }

@[simp] theorem queues_dsq (k : Kernel) : k.queues.dsq = k.dsq := by
  simp only [queues]
@[simp] theorem queues_task (k : Kernel) : k.queues.task = k.task := by
  simp only [queues]
@[simp] theorem queues_nrCpuIds (k : Kernel) : k.queues.nrCpuIds = k.nrCpuIds := by
  simp only [queues]
@[simp] theorem view_now (k : Kernel) : k.view.now = k.queues := rfl
@[simp] theorem touch_dsq (k : Kernel) (q : Nat) : (k.touch q).dsq = k.dsq := by
  simp only [touch]
@[simp] theorem touch_task (k : Kernel) (q : Nat) : (k.touch q).task = k.task := by
  simp only [touch]
@[simp] theorem touch_queues (k : Kernel) (q : Nat) : (k.touch q).queues = k.queues := rfl
@[simp] theorem touch_view (k : Kernel) (q : Nat) : (k.touch q).view = k.view := rfl
theorem touchAll_nil (k : Kernel) : k.touchAll [] = k := by simp [touchAll]

theorem touchAll_cons (k : Kernel) (q : Nat) (qs : List Nat) :
    k.touchAll (q :: qs) = (k.touch q).touchAll qs := by simp [touchAll, touch]

theorem foldl_land (es : List (Nat × Nat)) (k : Kernel) :
    es.foldl Queues.land k.queues = { k.queues with dsq := (es.foldl commit k).dsq } := by
  induction es generalizing k with
  | nil => rfl
  | cons e es ih => exact ih (k.commit e)

theorem flush_queues (k : Kernel) : k.flush.queues = k.view.landed :=
  (foldl_land k.pending k).symm

theorem flush_view (k : Kernel) : k.flush.view = k.view.settled := by
  rw [View.settled, ← flush_queues]
  rfl

/-- With nothing pending a move finds what the peeks have shown. -/
theorem view_of_settled {k : Kernel} (pending : k.pending = []) : k.view = k.queues.still := by
  rw [view, pending]
  rfl

theorem flush_of_settled {k : Kernel} (pending : k.pending = []) : k.flush = k := by
  obtain ⟨⟩ := k
  subst pending
  rfl

end Kernel

/-- From the state `k` the program moves the first task it may from the first of the queues
`tried` that holds one, and fails where none of them does. -/
def Tries (cpu : Int) (x : BpfM Bool) (k : Kernel) (tried : List Nat) : Prop :=
  match k.view.landed.source cpu tried with
  | none => (x.run k).1 = false ∧ (x.run k).2.view = k.view.after tried
  | some (q, p) =>
      (x.run k).1 = true ∧ (x.run k).2.view = (k.view.landed.deliver cpu q p).still

theorem scxBpfDsqNrQueued_run (q : Nat) (k : Kernel) :
    (scxBpfDsqNrQueued q).run k = ((k.dsq q).length, k.touch q) := rfl

theorem scxBpfDsqPeek_run (q : Nat) (k : Kernel) :
    (scxBpfDsqPeek q).run k = ((k.dsq q).head?, k.touch q) := rfl

theorem scxBpfDsqMoveToLocal_run (cpu : Int) (q : Nat) (k : Kernel) :
    (scxBpfDsqMoveToLocal cpu q).run k =
      match k.view.landed.firstAllowed cpu q with
      | none => (false, (k.touch q).flush)
      | some p => (true, (k.touch q).flush.moveToLocal cpu q p) := by
  have landed : ((k.touch q).flush.dsq q).find? ((k.touch q).flush.allows cpu) =
      k.view.landed.firstAllowed cpu q := by
    rw [← k.touch_view q, ← Kernel.flush_queues]
    rfl
  simp only [scxBpfDsqMoveToLocal, flushDispatchBuf, run_then, run_modifyState, run_getThe]
  rw [← landed]
  change (match ((k.touch q).flush.dsq q).find? ((k.touch q).flush.allows cpu) with
    | none => _ | some p => _ : BpfM Bool).run _ = _
  split <;> rfl

namespace Tries

variable {cpu : Int} {x y : BpfM Bool} {k : Kernel} {xs ys : List Nat}

theorem never : Tries cpu (return false) k [] := ⟨rfl, rfl⟩

theorem moveToLocal (cpu : Int) (q : Nat) (k : Kernel) :
    Tries cpu (scxBpfDsqMoveToLocal cpu q) k [q] := by
  rw [Tries, scxBpfDsqMoveToLocal_run, Queues.source_singleton]
  cases found : k.view.landed.firstAllowed cpu q with
  | none => exact ⟨rfl, (k.touch q).flush_view⟩
  | some p =>
    refine ⟨rfl, ?_⟩
    change ((k.touch q).flush.moveToLocal cpu q p).queues.still = _
    rw [← k.touch_view q, ← Kernel.flush_queues]
    rfl

theorem orElse (hx : Tries cpu x k xs) (hy : ∀ s, s.view = k.view.after xs → Tries cpu y s ys) :
    Tries cpu (do if ← x then return true else y) k (xs ++ ys) := by
  rw [Tries] at hx ⊢
  simp only [run_then, Queues.source_append]
  cases found : k.view.landed.source cpu xs with
  | some e =>
    simp only [found] at hx
    simp only [Option.some_or, hx.1, if_true, run_done]
    exact ⟨trivial, hx.2⟩
  | none =>
    simp only [found] at hx
    simp only [Option.none_or, hx.1, Bool.false_eq_true, if_false]
    have second := hy _ hx.2
    rwa [Tries, hx.2, View.after_landed, View.after_append] at second

/-- Reads may come first. -/
theorem afterReads {s : Kernel} (same : x.run k = y.run s) (reads : s.view = k.view)
    (tries : Tries cpu y s xs) : Tries cpu x k xs := by
  rwa [Tries, reads, ← same] at tries

/-- Counting may follow. -/
theorem andThen (h : Tries cpu x k xs) {f : Bool → BpfM Bool}
    (quiet : ∀ b s, ((f b).run s).1 = b ∧ ((f b).run s).2.view = s.view) :
    Tries cpu (x >>= f) k xs := by
  have after := quiet (x.run k).1 (x.run k).2
  rw [Tries] at h ⊢
  simpa only [run_then, after.1, after.2] using h

end Tries

end Cognis.Bpf
