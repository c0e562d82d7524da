import Mathlib.Algebra.BigOperators.Group.List.Basic
import Mathlib.Algebra.GroupWithZero.Nat
import Mathlib.Data.Nat.Find
import Mathlib.Order.Monotone.Basic
import Mathlib.Tactic.Common

/-! The metrics that the stats server hands out: snapshots, their differences, and the
page faults of a snapshot, which are counted from a baseline. -/
namespace Cognis.Control

structure Metrics where
  elapsedSecs : Nat := 0
  nrCpus : Nat := 0
  nrRunning : Nat := 0
  nrQueued : Nat := 0
  nrScheduled : Nat := 0
  nrPageFaults : Nat := 0
  nrUserDispatches : Nat := 0
  nrKernelDispatches : Nat := 0
  nrLocalDispatches : Nat := 0
  nrLlcDispatches : Nat := 0
  nrNodeDispatches : Nat := 0
  nrSharedDispatches : Nat := 0
  nrXllcSteals : Nat := 0
  nrXnodeSteals : Nat := 0
  nrCancelDispatches : Nat := 0
  nrBounceDispatches : Nat := 0
  nrFailedDispatches : Nat := 0
  nrSchedCongested : Nat := 0
  nrInteractive : Nat := 0
  nrCompute : Nat := 0
  nrIowait : Nat := 0
  nrRealtime : Nat := 0
  nrUnknown : Nat := 0
  nrQuarantined : Nat := 0
  nrFlagged : Nat := 0
  baseSliceUs : Nat := 0
  assignedSliceUs : Nat := 0
  sliceMinUs : Nat := 0
  sliceMaxUs : Nat := 0
  inferenceUs : Nat := 0
  schedP50Us : Nat := 0
  schedP95Us : Nat := 0
  schedP99Us : Nat := 0
deriving DecidableEq

/-- The metrics that `delta` reports for one interval; the others it passes on. -/
inductive IntervalCounter
  | userDispatches
  | kernelDispatches
  | localDispatches
  | llcDispatches
  | nodeDispatches
  | sharedDispatches
  | xllcSteals
  | xnodeSteals
  | cancelDispatches
  | bounceDispatches
  | failedDispatches
  | schedCongested
  | pageFaults
  | interactive
  | compute
  | iowait
  | realtime
  | unknown
deriving DecidableEq

namespace Metrics

def delta (m rhs : Metrics) : Metrics :=
  { m with
    nrUserDispatches := m.nrUserDispatches - rhs.nrUserDispatches
    nrKernelDispatches := m.nrKernelDispatches - rhs.nrKernelDispatches
    nrLocalDispatches := m.nrLocalDispatches - rhs.nrLocalDispatches
    nrLlcDispatches := m.nrLlcDispatches - rhs.nrLlcDispatches
    nrNodeDispatches := m.nrNodeDispatches - rhs.nrNodeDispatches
    nrSharedDispatches := m.nrSharedDispatches - rhs.nrSharedDispatches
    nrXllcSteals := m.nrXllcSteals - rhs.nrXllcSteals
    nrXnodeSteals := m.nrXnodeSteals - rhs.nrXnodeSteals
    nrCancelDispatches := m.nrCancelDispatches - rhs.nrCancelDispatches
    nrBounceDispatches := m.nrBounceDispatches - rhs.nrBounceDispatches
    nrFailedDispatches := m.nrFailedDispatches - rhs.nrFailedDispatches
    nrSchedCongested := m.nrSchedCongested - rhs.nrSchedCongested
    nrPageFaults := m.nrPageFaults - rhs.nrPageFaults
    nrInteractive := m.nrInteractive - rhs.nrInteractive
    nrCompute := m.nrCompute - rhs.nrCompute
    nrIowait := m.nrIowait - rhs.nrIowait
    nrRealtime := m.nrRealtime - rhs.nrRealtime
    nrUnknown := m.nrUnknown - rhs.nrUnknown }

def counter (m : Metrics) : IntervalCounter → Nat
  | .userDispatches => m.nrUserDispatches
  | .kernelDispatches => m.nrKernelDispatches
  | .localDispatches => m.nrLocalDispatches
  | .llcDispatches => m.nrLlcDispatches
  | .nodeDispatches => m.nrNodeDispatches
  | .sharedDispatches => m.nrSharedDispatches
  | .xllcSteals => m.nrXllcSteals
  | .xnodeSteals => m.nrXnodeSteals
  | .cancelDispatches => m.nrCancelDispatches
  | .bounceDispatches => m.nrBounceDispatches
  | .failedDispatches => m.nrFailedDispatches
  | .schedCongested => m.nrSchedCongested
  | .pageFaults => m.nrPageFaults
  | .interactive => m.nrInteractive
  | .compute => m.nrCompute
  | .iowait => m.nrIowait
  | .realtime => m.nrRealtime
  | .unknown => m.nrUnknown

theorem counter_delta (m rhs : Metrics) (c : IntervalCounter) :
    (m.delta rhs).counter c = m.counter c - rhs.counter c := by cases c <;> rfl

/-- The counts of successive intervals add up, for each counter that does not fall. -/
theorem sum_deltas (report : Nat → Metrics) (c : IntervalCounter) (n : Nat)
    (grows : ∀ k < n, (report k).counter c ≤ (report (k + 1)).counter c) :
    ((List.range n).map fun k => ((report (k + 1)).delta (report k)).counter c).sum =
      (report n).counter c - (report 0).counter c := by
  have growth : (report 0).counter c ≤ (report n).counter c ∧
      ((List.range n).map fun k => ((report (k + 1)).delta (report k)).counter c).sum =
        (report n).counter c - (report 0).counter c := by
    induction n with
    | zero => exact ⟨le_rfl, (Nat.sub_self _).symm⟩
    | succ n ih =>
      obtain ⟨below, sum⟩ := ih fun k early => grows k (Nat.lt_succ_of_lt early)
      have last := grows n (Nat.lt_succ_self n)
      refine ⟨below.trans last, ?_⟩
      rw [List.range_succ, List.map_append, List.sum_append, sum, List.map_singleton,
        List.sum_singleton, counter_delta]
      omega
  exact growth.2

end Metrics

/-- The part of the scheduler that the page faults of a snapshot need. -/
structure FaultBaseline where
  initPageFaults : Nat

/-- `majflt` is the kernel's answer, if there is one; `rest` are the other metrics. -/
def FaultBaseline.getMetrics (s : FaultBaseline) (majflt : Option Nat) (rest : Metrics) :
    Metrics × FaultBaseline :=
  let pageFaults := majflt.getD 0
  let s := if s.initPageFaults = 0 then ⟨pageFaults⟩ else s
  ({ rest with nrPageFaults := pageFaults - s.initPageFaults }, s)

/-- The state before call `k` of `get_metrics`, and its report. -/
def baselineAt (majflt : Nat → Option Nat) : Nat → FaultBaseline
  | 0 => ⟨0⟩
  | k + 1 => ((baselineAt majflt k).getMetrics (majflt k) {}).2

def reportAt (majflt : Nat → Option Nat) (rest : Nat → Metrics) (k : Nat) : Metrics :=
  ((baselineAt majflt k).getMetrics (majflt k) (rest k)).1

/-- The first `n + 1` reports count the faults since the first reading, and their differences
add up to the faults between the first and the last. -/
structure MeasuredFromFirst (reading : Nat → Nat) (report : Nat → Metrics) (n : Nat) : Prop where
  each : ∀ k ≤ n, (report k).nrPageFaults = reading k - reading 0
  total : ((List.range n).map fun k => ((report (k + 1)).delta (report k)).nrPageFaults).sum =
    reading n - reading 0

section

variable {majflt : Nat → Option Nat} {rest : Nat → Metrics} {n : Nat}

theorem reportAt_faults (k : Nat) : (reportAt majflt rest k).nrPageFaults =
    (majflt k).getD 0 - (baselineAt majflt (k + 1)).initPageFaults := rfl

/-- A baseline that is not the sentinel stays. -/
theorem baselineAt_first (some : (majflt 0).getD 0 ≠ 0) (k : Nat) :
    (baselineAt majflt (k + 1)).initPageFaults = (majflt 0).getD 0 := by
  induction k with
  | zero => rfl
  | succ k ih =>
    have kept : (baselineAt majflt (k + 1)).initPageFaults ≠ 0 := ih ▸ some
    rw [baselineAt, FaultBaseline.getMetrics, if_neg kept, ih]

/-- As long as there are no faults, the next reading is taken for the baseline. -/
theorem baselineAt_sentinel {k : Nat} (none : ∀ j < k, (majflt j).getD 0 = 0) :
    (baselineAt majflt k).initPageFaults = 0 := by
  induction k with
  | zero => rfl
  | succ k ih =>
    have start := ih fun j early => none j (Nat.lt_succ_of_lt early)
    rw [baselineAt, FaultBaseline.getMetrics, if_pos start]
    exact none k (Nat.lt_succ_self k)

/-- The first reading with faults in it becomes the baseline and hides them, unless it is
the first of all. -/
theorem page_faults_measured_iff (mono : Monotone fun k => (majflt k).getD 0) :
    MeasuredFromFirst (fun k => (majflt k).getD 0) (reportAt majflt rest) n ↔
      (majflt 0).getD 0 ≠ 0 ∨ (majflt n).getD 0 = 0 := by
  constructor
  · intro measured
    by_contra hidden
    rw [not_or, not_not] at hidden
    obtain ⟨zero, faults⟩ := hidden
    have reached : ∃ k, (majflt k).getD 0 ≠ 0 := ⟨n, faults⟩
    obtain ⟨k, first, earlier⟩ := Nat.findX reached
    have inside : k ≤ n := by
      by_contra late
      exact earlier n (not_le.mp late) faults
    have sentinel := baselineAt_sentinel fun j early => not_not.mp (earlier j early)
    have baseline : (baselineAt majflt (k + 1)).initPageFaults = (majflt k).getD 0 := by
      rw [baselineAt, FaultBaseline.getMetrics, if_pos sentinel]
    have counted := measured.each k inside
    rw [reportAt_faults, baseline, zero] at counted
    omega
  · intro condition
    have each : ∀ k ≤ n, (reportAt majflt rest k).nrPageFaults =
        (majflt k).getD 0 - (majflt 0).getD 0 := by
      intro k inside
      rw [reportAt_faults]
      rcases condition with some | none
      · rw [baselineAt_first some]
      · have quiet : ∀ j ≤ n, (majflt j).getD 0 = 0 := fun j early =>
          Nat.le_zero.mp ((mono early).trans_eq none)
        rw [quiet k inside, Nat.zero_sub, Nat.zero_sub]
    refine ⟨each, ?_⟩
    have total := Metrics.sum_deltas (reportAt majflt rest) .pageFaults n (by
      intro k early
      have grows : (majflt k).getD 0 ≤ (majflt (k + 1)).getD 0 := mono (Nat.le_succ k)
      simp only [Metrics.counter, each k early.le, each (k + 1) early]
      omega)
    simp only [Metrics.counter, each n le_rfl, each 0 (Nat.zero_le n)] at total
    rw [total, Nat.sub_self, Nat.sub_zero]

end

/-- Two faults in the first snapshot and three more later. -/
theorem page_faults_measured_iff_faulty : MeasuredFromFirst (fun k => if k = 0 then 2 else 5)
    (reportAt (fun k => some (if k = 0 then 2 else 5)) fun _ => {}) 1 := by
  have mono : Monotone fun k => (some (if k = 0 then 2 else 5)).getD 0 := by
    intro j k early
    simp only [Option.getD_some]
    split <;> split <;> omega
  exact (page_faults_measured_iff mono).mpr (.inl (by decide))

/-- The readings 0 and 7: the seven faults are reported as none. -/
theorem page_faults_hidden :
    ¬ MeasuredFromFirst (fun k => if k = 0 then 0 else 7)
      (reportAt (fun k => some (if k = 0 then 0 else 7)) fun _ => {}) 1 := by
  intro measured
  exact absurd (measured.each 1 le_rfl) (by decide)

end Cognis.Control
