import Cognis.Fallback.BoundedFifo
import Cognis.Fallback.DispatchOrder
import Cognis.Fallback.Policy

/-! How far behind the virtual front a task can be sent to the kernel. The front moves with
every task that is read, while earlier ones still wait in their lanes. -/
namespace Cognis.Fallback
open Saturating Reputation Loader

/-- A task that was read, and the front before. -/
structure Processed where
  front : Nat
  record : QueuedRecord
  task : Task

/-- The field `processed` is a ghost. -/
structure FallbackState where
  policy : PolicyState
  scheduler : Scheduler
  processed : List Processed

inductive FallbackEvent
  | process (nrOnlineCpus timestamp lastSeenNs : Nat) (task : QueuedRecord)
  | dispatch (attempt : Attempt)
  | updateSlice (load : Load)
  | evict (pid : Pid)

namespace FallbackState

variable {F : Type} (fl : FeatureFloats F) (percpuLocal : Bool)

def init (profile : BpfProfile) : FallbackState := ⟨.new profile, .init, []⟩

def step (s : FallbackState) : FallbackEvent → FallbackState
  | .process nrOnlineCpus timestamp lastSeenNs task =>
    let (a, policy) := s.policy.process fl nrOnlineCpus timestamp lastSeenNs task
    ⟨policy, s.scheduler.receive a, s.processed ++ [⟨s.policy.vruntimeNow, task, a.task⟩]⟩
  | .dispatch attempt => { s with scheduler := (s.scheduler.dispatchTask percpuLocal attempt).2 }
  | .updateSlice load =>
    { s with policy := { s.policy with sliceController := s.policy.sliceController.update load } }
  | .evict pid =>
    { s with policy := { s.policy with lifetimes := s.policy.lifetimes.lifetimeEvict pid } }

/-- Reads, dispatches, ticks and exits in any order. -/
def run (s : FallbackState) (es : List FallbackEvent) : FallbackState :=
  es.foldl (step fl percpuLocal) s

theorem run_keeps {I : FallbackState → Prop} (kept : ∀ s e, I s → I (s.step fl percpuLocal e))
    {s : FallbackState} (start : I s) (es : List FallbackEvent) :
    I (s.run fl percpuLocal es) := by
  induction es generalizing s with
  | nil => exact start
  | cons e es ih => exact ih (kept s e start)

end FallbackState

theorem startVtime_ge (front refBase vtime : Nat) :
    front - refBase ≤ startVtime front refBase vtime := by
  unfold startVtime
  split
  · exact Nat.sub_le front refBase
  · exact le_max_right _ _

theorem startVtime_le {front refBase vtime top : Nat} (front_le : front ≤ top)
    (vtime_le : vtime ≤ top) : startVtime front refBase vtime ≤ top := by
  unfold startVtime
  split
  · exact front_le
  · exact max_le vtime_le ((Nat.sub_le front refBase).trans front_le)

theorem le_virtualDeadline {label : TaskLabel} {vtime service : Nat} (fair : label ≠ .realTime)
    (vtime_le : vtime ≤ u64Max) : vtime ≤ virtualDeadline label vtime service := by
  rw [virtualDeadline, if_neg fair]
  exact le_add vtime_le

theorem wakeDeadlineCreditNs_le (task : Task) : wakeDeadlineCreditNs task ≤ 4000000 := by
  unfold wakeDeadlineCreditNs
  split
  · exact min_le_right _ _
  · exact Nat.zero_le _

theorem wakeBoosted_of_credit {task : Task} (credit : wakeDeadlineCreditNs task ≠ 0) :
    task.wakeBoosted = true := by
  by_contra plain
  exact credit (if_neg plain)

/-- The latency a processed task gains on the front it found. -/
structure Processed.Bounded (base : Nat) (percpuLocal : Bool) (p : Processed) : Prop where
  start : p.record.vtime = 0 → p.front ≤ p.task.qtask.vtime
  sent : p.task.label ≠ .realTime →
    p.front - base - 4000000 ≤ (p.task.dispatched percpuLocal).vtime
  fresh : p.record.vtime = 0 → p.task.label ≠ .realTime →
    p.front - 4000000 ≤ (p.task.dispatched percpuLocal).vtime
  credit : wakeDeadlineCreditNs p.task ≤ 4000000
  boosted : wakeDeadlineCreditNs p.task ≠ 0 → p.task.wakeBoosted = true

section

variable {F : Type} (fl : FeatureFloats F) {percpuLocal : Bool}

/-- What one message does to the front and to its own virtual time. -/
structure Advances (s : PolicyState) (task : QueuedRecord) (a : Arrival) (s' : PolicyState) :
    Prop where
  base : s'.baseSliceNs = s.baseSliceNs
  front : s'.vruntimeNow = max s.vruntimeNow a.policy.vtime
  top : a.policy.vtime ≤ u64Max
  start : startVtime s.vruntimeNow s.baseSliceNs task.vtime ≤ a.policy.vtime
  deadline : a.policy.label ≠ .realTime → a.policy.vtime ≤ a.policy.deadline

theorem PolicyState.process_advances {s : PolicyState} (front_le : s.vruntimeNow ≤ u64Max)
    (nrOnlineCpus timestamp lastSeenNs : Nat) (task : QueuedRecord) :
    Advances s task (s.process fl nrOnlineCpus timestamp lastSeenNs task).1
      (s.process fl nrOnlineCpus timestamp lastSeenNs task).2 := by
  refine ⟨rfl, rfl, add_le_top, le_add (startVtime_le front_le task.vtime_le), ?_⟩
  intro fair
  exact le_virtualDeadline fair add_le_top

theorem Advances.bounded {s s' : PolicyState} {task : QueuedRecord} {a : Arrival}
    (advances : Advances s task a s') (percpuLocal : Bool) :
    Processed.Bounded s.baseSliceNs percpuLocal ⟨s.vruntimeNow, task, a.task⟩ := by
  have credit := wakeDeadlineCreditNs_le a.task
  have floor := (startVtime_ge s.vruntimeNow s.baseSliceNs task.vtime).trans advances.start
  have start : task.vtime = 0 → s.vruntimeNow ≤ a.policy.vtime := by
    intro new
    have start := advances.start
    rwa [startVtime, if_pos new] at start
  have message : a.policy.label ≠ .realTime →
      a.policy.vtime - 4000000 ≤ (a.task.dispatched percpuLocal).vtime := by
    intro fair
    have ahead := advances.deadline fair
    have sent : (a.task.dispatched percpuLocal).vtime =
        a.policy.deadline - wakeDeadlineCreditNs a.task := if_neg fair
    omega
  refine ⟨start, ?_, ?_, credit, wakeBoosted_of_credit⟩
  · intro fair
    exact (Nat.sub_le_sub_right floor 4000000).trans (message fair)
  · intro new fair
    exact (Nat.sub_le_sub_right (start new) 4000000).trans (message fair)

namespace Scheduler

theorem pushTask_queued (s : Scheduler) (task : Task) :
    (s.pushTask task).queued = task ::ₘ s.queued ∨ (s.pushTask task).queued = s.queued := by
  cases slot : (s.lanes task.lane).hasDeferred with
  | false => exact .inl (pushTask_pushed slot).queued
  | true =>
    have full := (s.lanes task.lane).deferred_full slot
    right
    unfold pushTask
    rw [TaskQueue.pushBack_error full slot]
    rfl

/-- A dispatch sends a task that waited, if any, and brings no other into the lanes. -/
theorem dispatchTask_queued (percpuLocal : Bool) (attempt : Attempt) (s : Scheduler) :
    (∀ t ∈ (dispatchTask percpuLocal attempt s).2.queued, t ∈ s.queued) ∧
      ∀ m ∈ (dispatchTask percpuLocal attempt s).2.dispatched,
        m ∈ s.dispatched ∨ ∃ t ∈ s.queued, m = t.dispatched percpuLocal := by
  cases empty : s.tasksEmpty with
  | true =>
    have same : dispatchTask percpuLocal attempt s = (true, s) := by
      rcases s.popHighestPriorityTask_cases attempt.now with ⟨_, none⟩ | ⟨_, _, _, _, effect, _⟩
      · simp [dispatchTask, none]
      · have some_ := effect.queued
        rw [s.tasksEmpty_iff.mp empty] at some_
        exact absurd some_.symm (Multiset.cons_ne_zero)
    rw [same]
    exact ⟨fun _ member => member, fun _ member => .inl member⟩
  | false =>
    obtain ⟨lane, task, s', popped, ⟨_, run⟩ | ⟨_, run⟩⟩ :=
      dispatchTask_cases percpuLocal attempt empty
    · rw [run, popped.queued]
      refine ⟨fun _ member => Multiset.mem_cons_of_mem member, ?_⟩
      intro m member
      rcases List.mem_append.mp member with old | new
      · exact .inl (popped.dispatched ▸ old)
      · exact .inr ⟨task, Multiset.mem_cons_self task _, List.mem_singleton.mp new⟩
    · rw [run, popped.queued]
      constructor
      · intro t member
        rcases s'.pushTask_queued task with back | lost
        · rwa [back] at member
        · rw [lost] at member
          exact Multiset.mem_cons_of_mem member
      · intro m member
        rw [pushTask_dispatched, popped.dispatched] at member
        exact .inl member

end Scheduler

/-- What holds at every point of a run: the bounds of each task that was read, and that every
waiting and every sent task is one of these. -/
structure FallbackState.Credited (refBase : Nat) (percpuLocal : Bool) (s : FallbackState) :
    Prop where
  base : s.policy.baseSliceNs = refBase
  top : s.policy.vruntimeNow ≤ u64Max
  ahead : ∀ p ∈ s.processed, p.task.qtask.vtime ≤ s.policy.vruntimeNow
  bounded : ∀ p ∈ s.processed, p.Bounded refBase percpuLocal
  waiting : ∀ t ∈ s.scheduler.queued, ∃ p ∈ s.processed, t = p.task
  sent : ∀ m ∈ s.scheduler.dispatched, ∃ p ∈ s.processed, m = p.task.dispatched percpuLocal

namespace FallbackState

theorem init_credited (profile : BpfProfile) :
    (init profile).Credited profile.sliceNs percpuLocal := by
  have nothing : (init profile).scheduler.queued = 0 := rfl
  refine ⟨rfl, Nat.zero_le _, ?_, ?_, ?_, ?_⟩
  · exact fun p member => absurd member List.not_mem_nil
  · exact fun p member => absurd member List.not_mem_nil
  · intro t member
    rw [nothing] at member
    exact absurd member (Multiset.notMem_zero t)
  · exact fun m member => absurd member List.not_mem_nil

theorem Credited.process {refBase : Nat} {s : FallbackState}
    (credited : s.Credited refBase percpuLocal)
    (nrOnlineCpus timestamp lastSeenNs : Nat) (task : QueuedRecord) :
    (s.step fl percpuLocal (.process nrOnlineCpus timestamp lastSeenNs task)).Credited refBase
      percpuLocal := by
  have advances := s.policy.process_advances fl credited.top nrOnlineCpus timestamp lastSeenNs task
  simp only [step]
  generalize s.policy.process fl nrOnlineCpus timestamp lastSeenNs task = result at advances ⊢
  obtain ⟨a, policy⟩ := result
  have bounded := advances.bounded percpuLocal
  rw [credited.base] at bounded
  have old : ∀ p ∈ s.processed, p ∈ s.processed ++ [⟨s.policy.vruntimeNow, task, a.task⟩] :=
    fun p member => List.mem_append_left _ member
  refine ⟨advances.base.trans credited.base, ?_, ?_, ?_, ?_, ?_⟩
  · show policy.vruntimeNow ≤ u64Max
    rw [advances.front]
    exact max_le credited.top advances.top
  · show ∀ p ∈ s.processed ++ [_], _ ≤ policy.vruntimeNow
    rw [advances.front]
    intro p member
    rcases List.mem_append.mp member with old | new
    · exact le_max_of_le_left (credited.ahead p old)
    · rw [List.mem_singleton.mp new]
      exact le_max_right _ _
  · intro p member
    rcases List.mem_append.mp member with old | new
    · exact credited.bounded p old
    · rw [List.mem_singleton.mp new]
      exact bounded
  · intro t member
    have waits : t = a.task ∨ t ∈ s.scheduler.queued := by
      rcases ({ s.scheduler with dequeued := s.scheduler.dequeued ++ [a.qtask] } :
        Scheduler).pushTask_queued a.task with pushed | dropped
      · exact Multiset.mem_cons.mp (pushed ▸ member)
      · exact .inr (dropped ▸ member)
    rcases waits with rfl | waits
    · exact ⟨_, List.mem_append_right _ (List.mem_singleton_self _), rfl⟩
    · obtain ⟨p, member, same⟩ := credited.waiting t waits
      exact ⟨p, old p member, same⟩
  · intro m member
    have sent : m ∈ s.scheduler.dispatched := by
      rwa [Scheduler.receive, Scheduler.pushTask_dispatched] at member
    obtain ⟨p, member, same⟩ := credited.sent m sent
    exact ⟨p, old p member, same⟩

theorem Credited.dispatch {refBase : Nat} {s : FallbackState}
    (credited : s.Credited refBase percpuLocal)
    (attempt : Attempt) :
    (s.step fl percpuLocal (.dispatch attempt)).Credited refBase percpuLocal := by
  obtain ⟨queued, dispatched⟩ := s.scheduler.dispatchTask_queued percpuLocal attempt
  refine ⟨credited.base, credited.top, credited.ahead, credited.bounded, ?_, ?_⟩
  · intro t member
    exact credited.waiting t (queued t member)
  · intro m member
    rcases dispatched m member with old | ⟨t, waits, rfl⟩
    · exact credited.sent m old
    · obtain ⟨p, here, rfl⟩ := credited.waiting t waits
      exact ⟨p, here, rfl⟩

theorem Credited.step {refBase : Nat} {s : FallbackState}
    (credited : s.Credited refBase percpuLocal)
    (e : FallbackEvent) : (s.step fl percpuLocal e).Credited refBase percpuLocal := by
  cases e with
  | process nrOnlineCpus timestamp lastSeenNs task =>
    exact credited.process fl nrOnlineCpus timestamp lastSeenNs task
  | dispatch attempt => exact credited.dispatch fl attempt
  | updateSlice load =>
    exact ⟨credited.base, credited.top, credited.ahead, credited.bounded, credited.waiting,
      credited.sent⟩
  | evict pid =>
    exact ⟨credited.base, credited.top, credited.ahead, credited.bounded, credited.waiting,
      credited.sent⟩

theorem front_le_step (s : FallbackState) (e : FallbackEvent) :
    s.policy.vruntimeNow ≤ (s.step fl percpuLocal e).policy.vruntimeNow := by
  cases e with
  | process nrOnlineCpus timestamp lastSeenNs task => exact le_max_left _ _
  | dispatch attempt => exact le_rfl
  | updateSlice load => exact le_rfl
  | evict pid => exact le_rfl

theorem Credited.run {refBase : Nat} {s : FallbackState}
    (credited : s.Credited refBase percpuLocal)
    (es : List FallbackEvent) : (s.run fl percpuLocal es).Credited refBase percpuLocal := by
  apply run_keeps fl percpuLocal _ credited
  intro s e before
  exact before.step fl e

theorem front_le_run (s : FallbackState) (es : List FallbackEvent) :
    s.policy.vruntimeNow ≤ (s.run fl percpuLocal es).policy.vruntimeNow := by
  apply run_keeps (I := fun t => s.policy.vruntimeNow ≤ t.policy.vruntimeNow) fl percpuLocal _
    le_rfl
  intro t e before
  exact before.trans (t.front_le_step fl e)

/-- However long a task waits in its lane, what is sent for it is at most one slice and the
wake credit behind the front it found. -/
theorem latency_credit_bounded (profile : BpfProfile) (percpuLocal : Bool)
    (es later : List FallbackEvent) :
    let s := (init profile).run fl percpuLocal es
    s.policy.vruntimeNow ≤ (s.run fl percpuLocal later).policy.vruntimeNow ∧
      (s.run fl percpuLocal later).Credited profile.sliceNs percpuLocal := by
  intro s
  refine ⟨s.front_le_run fl later, ?_⟩
  exact ((init_credited profile).run fl es).run fl later

end FallbackState

end

end Cognis.Fallback
