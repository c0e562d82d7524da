import Mathlib.Algebra.Order.Ring.Int
import Mathlib.Tactic.Common

/-! Constants of the scheduler, the read-only data the loader exports, and the
map from CPUs, cache domains and nodes to dispatch queue ids. -/
namespace Cognis.Bpf

abbrev U64 := BitVec 64

def maxCpus : Nat := 1024
def maxLlcs : Nat := 64
def maxNodes : Nat := 64

def sharedDsq : Nat := maxCpus
def schedDsq : Nat := maxCpus + 1
def llcDsqBase : Nat := maxCpus + 2
def nodeDsqBase : Nat := llcDsqBase + maxLlcs

def maxDispatchSlot : Nat := 4096 / 8
def maxWakeupFreq : U64 := 64
def nsecPerUsec : U64 := 1000
def nsecPerMsec : U64 := 1000000
def nsecPerSec : U64 := 1000000000
def userschedTimerNs : U64 := nsecPerSec
def dispatchProgressGuardNs : U64 := 4 * nsecPerSec

/-- Builtin local queue flag of the kernel: bits 63 and 62. -/
def scxDsqLocalOn : Nat := 2 ^ 63 + 2 ^ 62

/-- Compact index maps as the loader exports them; every index is below its count. -/
structure Hierarchy where
  nrLlcs : Nat
  nrNodes : Nat
  cpuLlcIdxMap : Nat → Nat
  cpuNodeIdxMap : Nat → Nat
  llcNodeIdxMap : Nat → Nat
  llcs_pos : 0 < nrLlcs
  llcs_le : nrLlcs ≤ maxLlcs
  nodes_pos : 0 < nrNodes
  nodes_le : nrNodes ≤ maxNodes
  llc_lt : ∀ cpu, cpuLlcIdxMap cpu < nrLlcs
  node_lt : ∀ cpu, cpuNodeIdxMap cpu < nrNodes

/-- One cache domain on one node: the export of a failed topology probe. -/
def Hierarchy.flat : Hierarchy where
  nrLlcs := 1
  nrNodes := 1
  cpuLlcIdxMap := fun _ => 0
  cpuNodeIdxMap := fun _ => 0
  llcNodeIdxMap := fun _ => 0
  llcs_pos := by decide
  llcs_le := by decide
  nodes_pos := by decide
  nodes_le := by decide
  llc_lt := fun _ => by decide
  node_lt := fun _ => by decide

/-- Read-only data, fixed before the scheduler is attached. -/
structure Rodata extends Hierarchy where
  userschedEnabled : Bool
  userschedPid : Nat
  sliceNs : U64
  sliceMinNs : U64
  sliceLagNs : U64
  builtinIdle : Bool
  noWakeSync : Bool
  stickyTasks : Bool
  serverMode : Bool
  smtEnabled : Bool

/-- Kernel-only mode with the loader's default slices. -/
def Rodata.kernelOnly (h : Hierarchy) : Rodata where
  toHierarchy := h
  userschedEnabled := false
  userschedPid := 0
  sliceNs := 1000000
  sliceMinNs := 250000
  sliceLagNs := 40000000
  builtinIdle := true
  noWakeSync := false
  stickyTasks := false
  serverMode := false
  smtEnabled := false

def Rodata.withFallback (h : Hierarchy) (pid : Nat) : Rodata where
  __ := Rodata.kernelOnly h
  userschedEnabled := true
  userschedPid := pid

def isCpuValid (nrCpuIds : Nat) (cpu : Int) : Bool :=
  !(cpu < 0 || cpu ≥ (min nrCpuIds maxCpus : Nat))

def cpuToDsq (nrCpuIds : Nat) (cpu : Int) : Nat :=
  if !isCpuValid nrCpuIds cpu then sharedDsq else cpu.toNat

def llcToDsq (llcIdx : Nat) : Nat := llcDsqBase + llcIdx

def nodeToDsq (nodeIdx : Nat) : Nat := nodeDsqBase + nodeIdx

section

variable (ro : Rodata) (nrCpuIds : Nat)

def cpuLlcIdxFor (cpu : Int) : Nat :=
  if !isCpuValid nrCpuIds cpu then 0 else ro.cpuLlcIdxMap cpu.toNat

def cpuNodeIdxFor (cpu : Int) : Nat :=
  if !isCpuValid nrCpuIds cpu then 0 else ro.cpuNodeIdxMap cpu.toNat

def llcNodeIdxFor (llcIdx : Nat) : Nat :=
  if llcIdx ≥ maxLlcs then 0 else ro.llcNodeIdxMap llcIdx

def cpuLlcDsq (cpu : Int) : Nat := llcToDsq (cpuLlcIdxFor ro nrCpuIds cpu)

def cpuNodeDsq (cpu : Int) : Nat := nodeToDsq (cpuNodeIdxFor ro nrCpuIds cpu)

def ownTiers (cpu : Int) : List Nat :=
  [cpuToDsq nrCpuIds cpu, cpuLlcDsq ro nrCpuIds cpu] ++
    (if ro.nrNodes > 1 then [cpuNodeDsq ro nrCpuIds cpu] else []) ++ [sharedDsq]

def cpuDsqs : List Nat := (List.range nrCpuIds).map fun cpu => cpuToDsq nrCpuIds (cpu : Nat)

/-- The queues that hold tasks: per CPU, per LLC, per node and shared. -/
def taskDsqs : List Nat :=
  cpuDsqs nrCpuIds ++ (List.range ro.nrLlcs).map llcToDsq ++
    (List.range ro.nrNodes).map nodeToDsq ++ [sharedDsq]

/-- Every queue the scheduler creates for itself. -/
def knownDsqs : List Nat :=
  taskDsqs ro nrCpuIds ++ if ro.userschedEnabled then [schedDsq] else []

end

def localOn (cpu : Int) : Nat := scxDsqLocalOn ||| cpu.toNat

theorem isCpuValid_iff {n : Nat} {cpu : Int} :
    isCpuValid n cpu = true ↔ 0 ≤ cpu ∧ cpu < n ∧ cpu < maxCpus := by
  simp only [isCpuValid, Bool.not_eq_true', Bool.or_eq_false_iff, decide_eq_false_iff_not]
  omega

theorem cpuToDsq_valid {n : Nat} {cpu : Int} (valid : isCpuValid n cpu = true) :
    cpuToDsq n cpu = cpu.toNat := by
  simp [cpuToDsq, valid]

theorem cpuToDsq_invalid {n : Nat} {cpu : Int} (invalid : isCpuValid n cpu = false) :
    cpuToDsq n cpu = sharedDsq := by
  simp [cpuToDsq, invalid]

theorem cpuToDsq_lt {n : Nat} {cpu : Int} (valid : isCpuValid n cpu = true) :
    cpuToDsq n cpu < sharedDsq := by
  have bound := isCpuValid_iff.mp valid
  rw [cpuToDsq_valid valid, sharedDsq]
  omega

theorem cpuToDsq_le (n : Nat) (cpu : Int) : cpuToDsq n cpu ≤ sharedDsq := by
  cases valid : isCpuValid n cpu with
  | false => exact Nat.le_of_eq (cpuToDsq_invalid valid)
  | true => exact Nat.le_of_lt (cpuToDsq_lt valid)

theorem sharedDsq_lt_llc (i : Nat) : sharedDsq < llcToDsq i := by
  simp only [sharedDsq, llcToDsq, llcDsqBase]
  omega

theorem llcToDsq_lt_node {i : Nat} (inside : i < maxLlcs) (j : Nat) : llcToDsq i < nodeToDsq j := by
  simp only [llcToDsq, nodeToDsq, nodeDsqBase]
  omega

theorem sharedDsq_lt_node (j : Nat) : sharedDsq < nodeToDsq j :=
  (sharedDsq_lt_llc 0).trans (llcToDsq_lt_node (by decide) j)

theorem cpuLlcIdxFor_lt (ro : Rodata) (n : Nat) (cpu : Int) :
    cpuLlcIdxFor ro n cpu < ro.nrLlcs := by
  unfold cpuLlcIdxFor
  split
  · exact ro.llcs_pos
  · exact ro.llc_lt _

theorem cpuNodeIdxFor_lt (ro : Rodata) (n : Nat) (cpu : Int) :
    cpuNodeIdxFor ro n cpu < ro.nrNodes := by
  unfold cpuNodeIdxFor
  split
  · exact ro.nodes_pos
  · exact ro.node_lt _

theorem localOn_ge (cpu : Int) : scxDsqLocalOn ≤ localOn cpu := Nat.left_le_or

section

variable (ro : Rodata) (n : Nat)

theorem sharedDsq_mem : sharedDsq ∈ taskDsqs ro n :=
  List.mem_append_right _ List.mem_cons_self

theorem llcToDsq_mem {i : Nat} (below : i < ro.nrLlcs) : llcToDsq i ∈ taskDsqs ro n := by
  simp only [taskDsqs, List.mem_append, List.mem_map, List.mem_range]
  exact .inl (.inl (.inr ⟨i, below, rfl⟩))

theorem nodeToDsq_mem {i : Nat} (below : i < ro.nrNodes) : nodeToDsq i ∈ taskDsqs ro n := by
  simp only [taskDsqs, List.mem_append, List.mem_map, List.mem_range]
  exact .inl (.inr ⟨i, below, rfl⟩)

theorem cpuToDsq_mem (cpu : Int) : cpuToDsq n cpu ∈ taskDsqs ro n := by
  cases valid : isCpuValid n cpu with
  | false => exact cpuToDsq_invalid valid ▸ sharedDsq_mem ro n
  | true =>
    obtain ⟨low, high, _⟩ := isCpuValid_iff.mp valid
    have same : ((cpu.toNat : Nat) : Int) = cpu := Int.toNat_of_nonneg low
    simp only [taskDsqs, cpuDsqs, List.mem_append, List.mem_map, List.mem_range]
    exact .inl (.inl (.inl ⟨cpu.toNat, by omega, by rw [same]⟩))

theorem ownTiers_subset (cpu : Int) : ownTiers ro n cpu ⊆ taskDsqs ro n := by
  intro q member
  simp only [ownTiers, List.mem_append, List.mem_cons, List.not_mem_nil, or_false] at member
  rcases member with ((rfl | rfl) | node) | rfl
  · exact cpuToDsq_mem ro n cpu
  · exact llcToDsq_mem ro n (cpuLlcIdxFor_lt ro n cpu)
  · split at node
    · rcases List.mem_singleton.mp node with rfl
      exact nodeToDsq_mem ro n (cpuNodeIdxFor_lt ro n cpu)
    · cases node
  · exact sharedDsq_mem ro n

theorem taskDsqs_bounds {q : Nat} (member : q ∈ taskDsqs ro n) :
    q < nodeDsqBase + maxNodes ∧ q ≠ schedDsq := by
  have llcs := ro.llcs_le
  have nodes := ro.nodes_le
  simp only [taskDsqs, List.mem_append, List.mem_map, List.mem_range, List.mem_singleton] at member
  rcases member with ((cpu | ⟨i, below, rfl⟩) | ⟨i, below, rfl⟩) | rfl
  · obtain ⟨c, _, rfl⟩ := List.mem_map.mp cpu
    have low := cpuToDsq_le n (c : Nat)
    simp only [sharedDsq, schedDsq, nodeDsqBase, llcDsqBase, maxCpus, maxLlcs, maxNodes] at *
    omega
  all_goals
    simp only [llcToDsq, nodeToDsq, sharedDsq, schedDsq, nodeDsqBase, llcDsqBase, maxCpus, maxLlcs,
      maxNodes] at *
    omega

theorem taskDsqs_ne_localOn {q : Nat} (member : q ∈ taskDsqs ro n) (cpu : Int) :
    q ≠ localOn cpu := by
  have low := (taskDsqs_bounds ro n member).1
  have high := localOn_ge cpu
  simp only [nodeDsqBase, llcDsqBase, maxCpus, maxLlcs, maxNodes, scxDsqLocalOn] at *
  omega

theorem taskDsqs_subset : taskDsqs ro n ⊆ knownDsqs ro n := List.subset_append_left _ _

end

end Cognis.Bpf
