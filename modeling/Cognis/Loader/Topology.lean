import Cognis.Lib.Numbering
import Cognis.Bpf.Layout

/-! The topology export: compact indices for the cache domains and nodes of the
machine, or one domain when the probe fails or finds too many. -/
namespace Cognis.Loader
open Numbering

def maxTopoCpus : Nat := Bpf.maxCpus
def maxLlcs : Nat := 64
def maxNodes : Nat := 64
def u16Max : Nat := 65535

structure Cpu where
  llcId : Nat
  nodeId : Nat

/-- The maps of the probe: the keys of the domains and the CPUs, in ascending order. -/
structure Topology where
  smtEnabled : Bool
  allLlcs : List Nat
  nodes : List Nat
  allCpus : List (Nat × Cpu)
  llcs_sorted : allLlcs.Pairwise (· < ·)
  nodes_sorted : nodes.Pairwise (· < ·)
  cpus_sorted : allCpus.Pairwise fun a b => a.1 < b.1

/-- Every CPU names a cache domain and a node of the probe. -/
def Topology.Closed (topo : Topology) : Prop :=
  ∀ cpu ∈ topo.allCpus, cpu.2.llcId ∈ topo.allLlcs ∧ cpu.2.nodeId ∈ topo.nodes

structure TopologyExport where
  smtEnabled : Bool := false
  nrLlcs : Nat := 1
  nrNodes : Nat := 1
  cpuLlcIdxMap : Nat → Nat := fun _ => 0
  cpuNodeIdxMap : Nat → Nat := fun _ => 0
  llcNodeIdxMap : Nat → Nat := fun _ => 0

structure Exporting where
  out : TopologyExport
  nodeRemap : Table Nat
  llcRemap : Table Nat

def Exporting.enter (s : Exporting) (cpuId : Nat) (node llc : Nat × Table Nat) : Exporting where
  out := { s.out with
    cpuNodeIdxMap := Function.update s.out.cpuNodeIdxMap cpuId node.1
    cpuLlcIdxMap := Function.update s.out.cpuLlcIdxMap cpuId llc.1
    llcNodeIdxMap := Function.update s.out.llcNodeIdxMap llc.1 node.1 }
  nodeRemap := node.2
  llcRemap := llc.2

/-- One CPU of the loop; `none` is an index past the end of `llc_node_idx_map`. -/
def exportCpu (s : Exporting) (cpu : Nat × Cpu) : Option Exporting :=
  if cpu.1 ≥ maxTopoCpus then some s
  else
    let node := s.nodeRemap.number u16Max cpu.2.nodeId
    let llc := s.llcRemap.number u16Max cpu.2.llcId
    if llc.1 ≥ maxLlcs then none
    else some (s.enter cpu.1 node llc)

/-- `none` stands for a panic. -/
def TopologyExport.detect (probe : Except String Topology) : Option TopologyExport :=
  match probe with
  | .error _ => some {}
  | .ok topo =>
    let out : TopologyExport := { smtEnabled := topo.smtEnabled }
    if topo.allLlcs.isEmpty then some out
    else if topo.allLlcs.length > maxLlcs then some out
    else if topo.nodes.length > maxNodes then some out
    else do
      let s ← topo.allCpus.foldlM exportCpu ⟨out, .empty, .empty⟩
      return { s.out with
        nrNodes := max s.nodeRemap.next 1
        nrLlcs := max s.llcRemap.next 1 }

/-- The export meets the bounds that the queue ids rely on. -/
structure TopologyExport.Fits (e : TopologyExport) : Prop where
  llcs_pos : 0 < e.nrLlcs
  llcs_le : e.nrLlcs ≤ Bpf.maxLlcs
  nodes_pos : 0 < e.nrNodes
  nodes_le : e.nrNodes ≤ Bpf.maxNodes
  llc_lt : ∀ cpu, e.cpuLlcIdxMap cpu < e.nrLlcs
  node_lt : ∀ cpu, e.cpuNodeIdxMap cpu < e.nrNodes

def TopologyExport.Fits.hierarchy {e : TopologyExport} (fits : e.Fits) : Bpf.Hierarchy where
  nrLlcs := e.nrLlcs
  nrNodes := e.nrNodes
  cpuLlcIdxMap := e.cpuLlcIdxMap
  cpuNodeIdxMap := e.cpuNodeIdxMap
  llcNodeIdxMap := e.llcNodeIdxMap
  __ := fits

theorem fallback_fits (smt : Bool) : ({ smtEnabled := smt } : TopologyExport).Fits :=
  ⟨Nat.one_pos, show 1 ≤ 64 by decide, Nat.one_pos, show 1 ≤ 64 by decide,
    fun _ => Nat.one_pos, fun _ => Nat.one_pos⟩

/-- Between two CPUs of the loop; `done` are the CPUs before. -/
structure Exported (topo : Topology) (done : List (Nat × Cpu)) (s : Exporting) : Prop where
  llcs : s.llcRemap.Compact topo.allLlcs
  nodes : s.nodeRemap.Compact topo.nodes
  llc_lt : ∀ cpu, s.out.cpuLlcIdxMap cpu < max s.llcRemap.next 1
  node_lt : ∀ cpu, s.out.cpuNodeIdxMap cpu < max s.nodeRemap.next 1
  llc_of : ∀ cpu ∈ done, cpu.1 < maxTopoCpus →
    s.llcRemap.entries.lookup cpu.2.llcId = some (s.out.cpuLlcIdxMap cpu.1)
  node_of : ∀ cpu ∈ done, cpu.1 < maxTopoCpus →
    s.nodeRemap.entries.lookup cpu.2.nodeId = some (s.out.cpuNodeIdxMap cpu.1)

section

variable {topo : Topology}

theorem exported_start (smt : Bool) :
    Exported topo [] ⟨{ smtEnabled := smt }, .empty, .empty⟩ :=
  ⟨Table.compact_empty, Table.compact_empty, fun _ => Nat.one_pos, fun _ => Nat.one_pos,
    fun _ member => (nomatch member), fun _ member => (nomatch member)⟩

theorem idxMap_lt {idxMap : Nat → Nat} {domain : List Nat} {t : Table Nat} {key cpu : Nat}
    {result : Nat × Table Nat} (numbered : Table.Numbered domain t key result)
    (before : ∀ c, idxMap c < max t.next 1) (c : Nat) :
    Function.update idxMap cpu result.1 c < max result.2.next 1 := by
  have index := numbered.compact.lookup_lt numbered.found
  have mono := numbered.mono
  by_cases same : c = cpu
  · rw [same, Function.update_self]
    omega
  · rw [Function.update_of_ne same]
    have old := before c
    omega

theorem idxMap_of {idxMap : Nat → Nat} {domain : List Nat} {t : Table Nat} {cpu : Nat × Cpu}
    {keyOf : Cpu → Nat} {done : List (Nat × Cpu)} {result : Nat × Table Nat}
    (numbered : Table.Numbered domain t (keyOf cpu.2) result)
    (new : ∀ c ∈ done, c.1 ≠ cpu.1)
    (before : ∀ c ∈ done, c.1 < maxTopoCpus → t.entries.lookup (keyOf c.2) = some (idxMap c.1)) :
    ∀ c ∈ done ++ [cpu], c.1 < maxTopoCpus →
      result.2.entries.lookup (keyOf c.2) = some (Function.update idxMap cpu.1 result.1 c.1) := by
  intro c member inside
  rcases List.mem_append.mp member with old | now
  · rw [Function.update_of_ne (new c old)]
    exact numbered.kept _ _ (before c old inside)
  · cases List.mem_singleton.mp now
    rw [Function.update_self]
    exact numbered.found

/-- One CPU keeps the invariant, and its index is never past the end. -/
theorem exportCpu_exported {s : Exporting} {done : List (Nat × Cpu)} {cpu : Nat × Cpu}
    (llcs_le : topo.allLlcs.length ≤ maxLlcs) (nodes_le : topo.nodes.length ≤ maxNodes)
    (llc : cpu.2.llcId ∈ topo.allLlcs) (node : cpu.2.nodeId ∈ topo.nodes)
    (new : ∀ c ∈ done, c.1 ≠ cpu.1) (before : Exported topo done s) :
    ∃ s', exportCpu s cpu = some s' ∧ Exported topo (done ++ [cpu]) s' := by
  by_cases outside : cpu.1 ≥ maxTopoCpus
  · refine ⟨s, if_pos outside, { before with llc_of := ?_, node_of := ?_ }⟩
    · intro c member inside
      rcases List.mem_append.mp member with old | now
      · exact before.llc_of c old inside
      · cases List.mem_singleton.mp now
        exact absurd inside (Nat.not_lt.mpr outside)
    · intro c member inside
      rcases List.mem_append.mp member with old | now
      · exact before.node_of c old inside
      · cases List.mem_singleton.mp now
        exact absurd inside (Nat.not_lt.mpr outside)
  · have llcNumbered := before.llcs.number u16Max llc
      (Nat.lt_of_le_of_lt llcs_le (by decide))
    have nodeNumbered := before.nodes.number u16Max node
      (Nat.lt_of_le_of_lt nodes_le (by decide))
    have inside : ¬ (s.llcRemap.number u16Max cpu.2.llcId).1 ≥ maxLlcs := by
      have index := llcNumbered.compact.lookup_lt llcNumbered.found
      have used := llcNumbered.compact.next_le
      omega
    refine ⟨s.enter cpu.1 (s.nodeRemap.number u16Max cpu.2.nodeId)
      (s.llcRemap.number u16Max cpu.2.llcId), ?_, llcNumbered.compact, nodeNumbered.compact,
      idxMap_lt llcNumbered before.llc_lt, idxMap_lt nodeNumbered before.node_lt,
      idxMap_of llcNumbered new before.llc_of, idxMap_of nodeNumbered new before.node_of⟩
    simp only [exportCpu, if_neg outside, if_neg inside]

theorem exportCpus_run {I : List (Nat × Cpu) → Exporting → Prop}
    (step : ∀ done cpu s, cpu ∈ topo.allCpus → (∀ c ∈ done, c ∈ topo.allCpus ∧ c.1 ≠ cpu.1) →
      I done s → ∃ s', exportCpu s cpu = some s' ∧ I (done ++ [cpu]) s') {s : Exporting}
    {done rest : List (Nat × Cpu)} (split : topo.allCpus = done ++ rest) (before : I done s) :
    ∃ s', rest.foldlM exportCpu s = some s' ∧ I topo.allCpus s' := by
  induction rest generalizing s done with
  | nil =>
    rw [List.append_nil] at split
    exact ⟨s, rfl, split ▸ before⟩
  | cons cpu rest ih =>
    have sorted := topo.cpus_sorted
    rw [split, List.pairwise_append] at sorted
    have earlier : ∀ c ∈ done, c ∈ topo.allCpus ∧ c.1 ≠ cpu.1 := fun c member =>
      ⟨split ▸ List.mem_append_left _ member,
        Nat.ne_of_lt (sorted.2.2 c member cpu List.mem_cons_self)⟩
    obtain ⟨s', now, kept⟩ := step done cpu s (by simp [split]) earlier before
    have next : topo.allCpus = (done ++ [cpu]) ++ rest := by simp [split]
    obtain ⟨last, run, exported⟩ := ih next kept
    exact ⟨last, by rw [List.foldlM_cons, now]; exact run, exported⟩

theorem exportCpus_exported (llcs_le : topo.allLlcs.length ≤ maxLlcs)
    (nodes_le : topo.nodes.length ≤ maxNodes) (closed : topo.Closed) {s : Exporting}
    {done rest : List (Nat × Cpu)} (split : topo.allCpus = done ++ rest)
    (before : Exported topo done s) :
    ∃ s', rest.foldlM exportCpu s = some s' ∧ Exported topo topo.allCpus s' := by
  refine exportCpus_run (fun done cpu s member earlier before => ?_) split before
  obtain ⟨llc, node⟩ := closed cpu member
  exact exportCpu_exported llcs_le nodes_le llc node (fun c old => (earlier c old).2) before

/-- Whatever the probe answers, `detect` returns an export within the bounds. -/
theorem detect_fits {probe : Except String Topology}
    (closed : ∀ topo, probe = .ok topo → topo.Closed) :
    ∃ e, TopologyExport.detect probe = some e ∧ e.Fits := by
  cases probe with
  | error _ => exact ⟨_, rfl, fallback_fits false⟩
  | ok topo =>
    simp only [TopologyExport.detect]
    split
    · exact ⟨_, rfl, fallback_fits _⟩
    split
    · exact ⟨_, rfl, fallback_fits _⟩
    split
    · exact ⟨_, rfl, fallback_fits _⟩
    rename_i llcs_le nodes_le
    obtain ⟨s, run, exported⟩ := exportCpus_exported (Nat.not_lt.mp llcs_le)
      (Nat.not_lt.mp nodes_le) (closed topo rfl) (List.nil_append _).symm
      (exported_start topo.smtEnabled)
    have llcs := exported.llcs.next_le
    have nodes := exported.nodes.next_le
    simp only [maxLlcs, maxNodes] at llcs_le nodes_le
    refine ⟨_, by rw [run]; rfl, ?_⟩
    constructor <;> dsimp only [Bpf.maxLlcs, Bpf.maxNodes]
    · omega
    · omega
    · omega
    · omega
    · exact exported.llc_lt
    · exact exported.node_lt

end

end Cognis.Loader
