import Cognis.Loader.Topology

/-! The compact indices of the export against the domains of the machine. -/
namespace Cognis.Loader
open Numbering

def Topology.present (topo : Topology) : List (Nat × Cpu) :=
  topo.allCpus.filter fun cpu => cpu.1 < maxTopoCpus

def Topology.WithinLimits (topo : Topology) : Prop :=
  (1 ≤ topo.allLlcs.length ∧ topo.allLlcs.length ≤ maxLlcs) ∧
    1 ≤ topo.nodes.length ∧ topo.nodes.length ≤ maxNodes

/-- Each cache domain is inside one node. -/
def Topology.Nested (topo : Topology) : Prop :=
  ∀ a ∈ topo.allCpus, ∀ b ∈ topo.allCpus, a.2.llcId = b.2.llcId → a.2.nodeId = b.2.nodeId

/-- The indices stand for the domains, without gaps. -/
structure Faithful (topo : Topology) (e : TopologyExport) : Prop where
  llc_iff : ∀ a ∈ topo.present, ∀ b ∈ topo.present,
    e.cpuLlcIdxMap a.1 = e.cpuLlcIdxMap b.1 ↔ a.2.llcId = b.2.llcId
  node_iff : ∀ a ∈ topo.present, ∀ b ∈ topo.present,
    e.cpuNodeIdxMap a.1 = e.cpuNodeIdxMap b.1 ↔ a.2.nodeId = b.2.nodeId
  llc_lt : ∀ a ∈ topo.present, e.cpuLlcIdxMap a.1 < e.nrLlcs
  node_lt : ∀ a ∈ topo.present, e.cpuNodeIdxMap a.1 < e.nrNodes
  llc_used : topo.present ≠ [] → ∀ i < e.nrLlcs, ∃ a ∈ topo.present, e.cpuLlcIdxMap a.1 = i
  node_used : topo.present ≠ [] → ∀ i < e.nrNodes, ∃ a ∈ topo.present, e.cpuNodeIdxMap a.1 = i
  llc_node : ∀ a ∈ topo.present, e.llcNodeIdxMap (e.cpuLlcIdxMap a.1) = e.cpuNodeIdxMap a.1

structure TopologyExport.Flat (e : TopologyExport) : Prop where
  llcs : e.nrLlcs = 1
  nodes : e.nrNodes = 1
  cpu_llc : ∀ cpu, e.cpuLlcIdxMap cpu = 0
  cpu_node : ∀ cpu, e.cpuNodeIdxMap cpu = 0
  llc_node : ∀ llc, e.llcNodeIdxMap llc = 0

theorem fallback_flat (smt : Bool) : ({ smtEnabled := smt } : TopologyExport).Flat :=
  ⟨rfl, rfl, fun _ => rfl, fun _ => rfl, fun _ => rfl⟩

/-- Only domains of CPUs met so far are numbered, and the nodes of the cache domains agree. -/
structure Compacted (topo : Topology) (done : List (Nat × Cpu)) (s : Exporting) : Prop
    extends Exported topo done s where
  llc_keys : ∀ key ∈ s.llcRemap.entries.map Prod.fst,
    ∃ cpu ∈ done, cpu.1 < maxTopoCpus ∧ cpu.2.llcId = key
  node_keys : ∀ key ∈ s.nodeRemap.entries.map Prod.fst,
    ∃ cpu ∈ done, cpu.1 < maxTopoCpus ∧ cpu.2.nodeId = key
  llc_node : ∀ cpu ∈ done, cpu.1 < maxTopoCpus →
    s.out.llcNodeIdxMap (s.out.cpuLlcIdxMap cpu.1) = s.out.cpuNodeIdxMap cpu.1

section

variable {topo : Topology}

theorem compacted_start (smt : Bool) :
    Compacted topo [] ⟨{ smtEnabled := smt }, .empty, .empty⟩ where
  toExported := exported_start smt
  llc_keys := fun _ stored => absurd stored List.not_mem_nil
  node_keys := fun _ stored => absurd stored List.not_mem_nil
  llc_node := fun _ member => absurd member List.not_mem_nil

theorem remap_keys {keyOf : Cpu → Nat} {done : List (Nat × Cpu)} {t : Table Nat} {cpu : Nat × Cpu}
    (inside : cpu.1 < maxTopoCpus) (before : ∀ key ∈ t.entries.map Prod.fst,
      ∃ c ∈ done, c.1 < maxTopoCpus ∧ keyOf c.2 = key) :
    ∀ key ∈ (t.number u16Max (keyOf cpu.2)).2.entries.map Prod.fst,
      ∃ c ∈ done ++ [cpu], c.1 < maxTopoCpus ∧ keyOf c.2 = key := by
  intro key stored
  rcases t.number_keys u16Max (keyOf cpu.2) key stored with rfl | old
  · exact ⟨cpu, List.mem_append_right _ List.mem_cons_self, inside, rfl⟩
  · obtain ⟨c, member, below, same⟩ := before key old
    exact ⟨c, List.mem_append_left _ member, below, same⟩

/-- A CPU without an entry in the maps is passed over. -/
theorem Compacted.passed {s : Exporting} {done : List (Nat × Cpu)} {cpu : Nat × Cpu}
    (before : Compacted topo done s) (outside : cpu.1 ≥ maxTopoCpus)
    (exported : Exported topo (done ++ [cpu]) s) : Compacted topo (done ++ [cpu]) s := by
  have widen : ∀ {P : Nat × Cpu → Prop}, (∃ c ∈ done, P c) → ∃ c ∈ done ++ [cpu], P c :=
    fun ⟨c, old, holds⟩ => ⟨c, List.mem_append_left _ old, holds⟩
  refine ⟨exported, fun key stored => widen (before.llc_keys key stored),
    fun key stored => widen (before.node_keys key stored), fun c listed inside => ?_⟩
  rcases List.mem_append.mp listed with old | now
  · exact before.llc_node c old inside
  · cases List.mem_singleton.mp now
    exact absurd inside (Nat.not_lt.mpr outside)

theorem Compacted.entered {s : Exporting} {done : List (Nat × Cpu)} {cpu : Nat × Cpu}
    (before : Compacted topo done s) (inside : cpu.1 < maxTopoCpus) (nested : topo.Nested)
    (member : cpu ∈ topo.allCpus) (earlier : ∀ c ∈ done, c ∈ topo.allCpus ∧ c.1 ≠ cpu.1)
    (exported : Exported topo (done ++ [cpu]) (s.enter cpu.1
      (s.nodeRemap.number u16Max cpu.2.nodeId) (s.llcRemap.number u16Max cpu.2.llcId))) :
    Compacted topo (done ++ [cpu]) (s.enter cpu.1
      (s.nodeRemap.number u16Max cpu.2.nodeId) (s.llcRemap.number u16Max cpu.2.llcId)) := by
  refine ⟨exported, remap_keys inside before.llc_keys, remap_keys inside before.node_keys,
    fun c listed below => ?_⟩
  by_cases shared : c.2.llcId = cpu.2.llcId
  · -- The entry was just written, with the node that both CPUs are on.
    have listed' : c ∈ topo.allCpus :=
      (List.mem_append.mp listed).elim (fun old => (earlier c old).1)
        fun now => List.mem_singleton.mp now ▸ member
    have sameNode := nested c listed' cpu member shared
    have llcOf := exported.llc_of c listed below
    have nodeOf := exported.node_of c listed below
    rw [shared] at llcOf
    rw [sameNode] at nodeOf
    have llcs := llcOf.symm.trans (exported.llc_of cpu (by simp) inside)
    have nodes := nodeOf.symm.trans (exported.node_of cpu (by simp) inside)
    rw [Option.some.inj llcs, Option.some.inj nodes]
    simp only [Exporting.enter, Function.update_self]
  · have old : c ∈ done := (List.mem_append.mp listed).resolve_right fun now =>
      shared (List.mem_singleton.mp now ▸ rfl)
    have other := (earlier c old).2
    have llcOf := exported.llc_of c listed below
    have ownLlc := exported.llc_of cpu (by simp) inside
    simp only [Exporting.enter, Function.update_self, Function.update_of_ne other] at llcOf ownLlc ⊢
    have apart : s.out.cpuLlcIdxMap c.1 ≠ (s.llcRemap.number u16Max cpu.2.llcId).1 := fun same =>
      shared (exported.llcs.lookup_injective llcOf (same ▸ ownLlc))
    rw [Function.update_of_ne apart]
    exact before.llc_node c old below

theorem exportCpu_compacted (llcs_le : topo.allLlcs.length ≤ maxLlcs)
    (nodes_le : topo.nodes.length ≤ maxNodes) (closed : topo.Closed) (nested : topo.Nested)
    {s : Exporting} {done : List (Nat × Cpu)} {cpu : Nat × Cpu} (member : cpu ∈ topo.allCpus)
    (earlier : ∀ c ∈ done, c ∈ topo.allCpus ∧ c.1 ≠ cpu.1) (before : Compacted topo done s) :
    ∃ s', exportCpu s cpu = some s' ∧ Compacted topo (done ++ [cpu]) s' := by
  obtain ⟨llc, node⟩ := closed cpu member
  obtain ⟨s', step, exported⟩ := exportCpu_exported llcs_le nodes_le llc node
    (fun c old => (earlier c old).2) before.toExported
  refine ⟨s', step, ?_⟩
  unfold exportCpu at step
  by_cases outside : cpu.1 ≥ maxTopoCpus
  · rw [if_pos outside] at step
    cases step
    exact before.passed outside exported
  · rw [if_neg outside] at step
    dsimp only at step
    split at step
    · cases step
    cases step
    exact before.entered (Nat.not_le.mp outside) nested member earlier exported

/-- Within the limits the loop ends, and its last state is the export. -/
theorem detect_within (within : topo.WithinLimits) (closed : topo.Closed) (nested : topo.Nested) :
    ∃ s, Compacted topo topo.allCpus s ∧ TopologyExport.detect (.ok topo) = some { s.out with
      nrNodes := max s.nodeRemap.next 1
      nrLlcs := max s.llcRemap.next 1 } := by
  obtain ⟨⟨some_llc, llcs_le⟩, _, nodes_le⟩ := within
  obtain ⟨s, run, compacted⟩ := exportCpus_run (I := Compacted topo)
    (fun _ _ _ member earlier before =>
      exportCpu_compacted llcs_le nodes_le closed nested member earlier before)
    (List.nil_append _).symm (compacted_start topo.smtEnabled)
  have nonempty : ¬ topo.allLlcs.isEmpty = true := fun empty => by
    rw [List.isEmpty_iff.mp empty] at some_llc
    exact absurd some_llc (by decide)
  refine ⟨s, compacted, ?_⟩
  simp only [TopologyExport.detect, if_neg nonempty, if_neg (Nat.not_lt.mpr llcs_le),
    if_neg (Nat.not_lt.mpr nodes_le), run]
  rfl

theorem mem_present {cpu : Nat × Cpu} :
    cpu ∈ topo.present ↔ cpu ∈ topo.allCpus ∧ cpu.1 < maxTopoCpus := by
  simp [Topology.present]

theorem idx_used {keyOf : Cpu → Nat} {domain : List Nat} {t : Table Nat} {idxMap : Nat → Nat}
    (compact : t.Compact domain)
    (keys : ∀ key ∈ t.entries.map Prod.fst,
      ∃ cpu ∈ topo.allCpus, cpu.1 < maxTopoCpus ∧ keyOf cpu.2 = key)
    (idx : ∀ cpu ∈ topo.allCpus, cpu.1 < maxTopoCpus →
      t.entries.lookup (keyOf cpu.2) = some (idxMap cpu.1))
    (some_ : topo.present ≠ []) {i : Nat} (below : i < max t.next 1) :
    ∃ a ∈ topo.present, idxMap a.1 = i := by
  obtain ⟨cpu, rest, eq⟩ := List.exists_cons_of_ne_nil some_
  obtain ⟨listed, inside⟩ := mem_present.mp (eq ▸ List.mem_cons_self : cpu ∈ topo.present)
  have used := compact.lookup_lt (idx cpu listed inside)
  obtain ⟨key, stored, found⟩ := compact.exists_lookup (show i < t.next by omega)
  obtain ⟨a, listed, inside, rfl⟩ := keys key stored
  exact ⟨a, mem_present.mpr ⟨listed, inside⟩,
    Option.some.inj ((idx a listed inside).symm.trans found)⟩

theorem Compacted.faithful {s : Exporting} (compacted : Compacted topo topo.allCpus s) :
    Faithful topo { s.out with
      nrNodes := max s.nodeRemap.next 1
      nrLlcs := max s.llcRemap.next 1 } where
  llc_iff := fun a first b second => by
    obtain ⟨listed, inside⟩ := mem_present.mp first
    obtain ⟨listed', inside'⟩ := mem_present.mp second
    have llcA := compacted.llc_of a listed inside
    have llcB := compacted.llc_of b listed' inside'
    exact ⟨fun same => compacted.llcs.lookup_injective llcA (same ▸ llcB),
      fun same => Option.some.inj (llcA.symm.trans (same ▸ llcB))⟩
  node_iff := fun a first b second => by
    obtain ⟨listed, inside⟩ := mem_present.mp first
    obtain ⟨listed', inside'⟩ := mem_present.mp second
    have nodeA := compacted.node_of a listed inside
    have nodeB := compacted.node_of b listed' inside'
    exact ⟨fun same => compacted.nodes.lookup_injective nodeA (same ▸ nodeB),
      fun same => Option.some.inj (nodeA.symm.trans (same ▸ nodeB))⟩
  llc_lt := fun a _ => compacted.llc_lt a.1
  node_lt := fun a _ => compacted.node_lt a.1
  llc_used := fun some_ i below =>
    idx_used compacted.llcs compacted.llc_keys compacted.llc_of some_ below
  node_used := fun some_ i below =>
    idx_used compacted.nodes compacted.node_keys compacted.node_of some_ below
  llc_node := fun a member => by
    obtain ⟨listed, inside⟩ := mem_present.mp member
    exact compacted.llc_node a listed inside

theorem detect_outside (outside : ¬ topo.WithinLimits)
    (nodeless : topo.nodes = [] → topo.allCpus = []) :
    ∃ e, TopologyExport.detect (.ok topo) = some e ∧ e.Flat := by
  simp only [TopologyExport.detect]
  split
  · exact ⟨_, rfl, fallback_flat _⟩
  split
  · exact ⟨_, rfl, fallback_flat _⟩
  split
  · exact ⟨_, rfl, fallback_flat _⟩
  rename_i some_llc llcs_le nodes_le
  have llcs : 1 ≤ topo.allLlcs.length := by
    rw [List.isEmpty_iff, ← List.length_eq_zero_iff] at some_llc
    omega
  have none : topo.nodes = [] := by
    by_contra some_node
    have nodes := List.length_pos_iff.mpr some_node
    exact outside ⟨⟨llcs, Nat.not_lt.mp llcs_le⟩, nodes, Nat.not_lt.mp nodes_le⟩
  rw [nodeless none]
  exact ⟨_, rfl, rfl, rfl, fun _ => rfl, fun _ => rfl, fun _ => rfl⟩

end

/-- Within the limits the export stands for the machine; otherwise, and after a failed
probe, it is flat. It never fails. -/
theorem detect_compacts :
    (∀ topo : Topology, topo.WithinLimits → topo.Closed → topo.Nested →
        ∃ e, TopologyExport.detect (.ok topo) = some e ∧ Faithful topo e) ∧
      (∀ topo : Topology, ¬ topo.WithinLimits → (topo.nodes = [] → topo.allCpus = []) →
        ∃ e, TopologyExport.detect (.ok topo) = some e ∧ e.Flat) ∧
      ∀ err, ∃ e, TopologyExport.detect (.error err) = some e ∧ e.Flat := by
  refine ⟨fun topo within closed nested => ?_, fun topo => detect_outside,
    fun err => ⟨_, rfl, fallback_flat false⟩⟩
  obtain ⟨s, compacted, detected⟩ := detect_within within closed nested
  exact ⟨_, detected, compacted.faithful⟩

/-- Two cache domains on two nodes, and a CPU past the end of the maps. -/
def twoNodes : Topology where
  smtEnabled := true
  allLlcs := [3, 8]
  nodes := [0, 2]
  allCpus := [(0, ⟨3, 0⟩), (5, ⟨8, 2⟩), (1500, ⟨8, 2⟩)]
  llcs_sorted := by decide
  nodes_sorted := by decide
  cpus_sorted := by decide

def tooManyNodes : Topology where
  smtEnabled := false
  allLlcs := [7]
  nodes := List.range 65
  allCpus := [(3, ⟨7, 64⟩)]
  llcs_sorted := List.pairwise_singleton _ _
  nodes_sorted := List.pairwise_lt_range
  cpus_sorted := List.pairwise_singleton _ _

theorem detect_compacts_both :
    (∃ e, TopologyExport.detect (.ok twoNodes) = some e ∧ Faithful twoNodes e ∧
      (e.nrLlcs, e.cpuLlcIdxMap 0, e.cpuLlcIdxMap 5, e.cpuLlcIdxMap 1500) = (2, 0, 1, 0)) ∧
    ∃ e, TopologyExport.detect (.ok tooManyNodes) = some e ∧ e.Flat := by
  have within : twoNodes.WithinLimits := ⟨⟨by decide, by decide⟩, by decide, by decide⟩
  have closed : twoNodes.Closed := by unfold Topology.Closed; decide
  have nested : twoNodes.Nested := by unfold Topology.Nested; decide
  have outside : ¬ tooManyNodes.WithinLimits := fun within => absurd within.2.2 (by decide)
  obtain ⟨e, detected, faithful⟩ := detect_compacts.1 twoNodes within closed nested
  refine ⟨⟨e, detected, faithful, ?_⟩, detect_compacts.2.1 tooManyNodes outside
    fun none => absurd none (by decide)⟩
  have numbers : (TopologyExport.detect (.ok twoNodes)).map (fun e =>
      (e.nrLlcs, e.cpuLlcIdxMap 0, e.cpuLlcIdxMap 5, e.cpuLlcIdxMap 1500)) = some (2, 0, 1, 0) := by
    decide
  rw [detected] at numbers
  exact Option.some.inj numbers

end Cognis.Loader
