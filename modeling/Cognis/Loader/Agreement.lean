import Cognis.Bpf.QueueNames
import Cognis.Loader.Topology

/-! The loader's export and the queues of the BPF program fit together. -/
namespace Cognis.Loader
open Bpf StateLogic

/-- What holds of the queue ids in `k`: only created or local queues were named, all
ids are different, and the backlog scan sees every created queue that holds tasks. -/
structure QueuesAgree (ro : Rodata) (k : Kernel) : Prop where
  created : ∀ q ∈ k.touched, q ∈ k.created ∨ scxDsqLocalOn ≤ q
  distinct : (taskDsqs ro k.nrCpuIds ++ [schedDsq]).Nodup
  scanned : ((dsqBacklogExists ro).run k).1 = true ↔
    ∃ q ∈ k.created, q ≠ schedDsq ∧ k.dsq q ≠ []

theorem booted_agree {ro : Rodata} {env : Env} {task : Nat → TaskStruct} {k₀ k : Kernel}
    {ls : List Label} (booted : Booted ro env task k₀) (run : SystemRun ro k₀ ls k) :
    QueuesAgree ro k := by
  obtain ⟨created, fits⟩ := booted_created booted run
  exact ⟨booted_names booted run, dsqs_nodup ro fits, dsqBacklogExists_iff created⟩

/-- For every answer of the probe the export gives a hierarchy, and every run of the
program on it names only queues that were created. -/
theorem hierarchy_agrees (probe : Except String Topology)
    (closed : ∀ topo, probe = .ok topo → topo.Closed) :
    ∃ e, ∃ fits : e.Fits, TopologyExport.detect probe = some e ∧
      ∀ ro : Rodata, ro.toHierarchy = fits.hierarchy → ∀ env task k₀ ls k,
        Booted ro env task k₀ → SystemRun ro k₀ ls k → QueuesAgree ro k := by
  obtain ⟨e, detected, fits⟩ := detect_fits closed
  exact ⟨e, fits, detected, fun _ _ _ _ _ _ _ booted run => booted_agree booted run⟩

/-- Two CPUs in two cache domains of one node. -/
def twoLlcs : Topology where
  smtEnabled := false
  allLlcs := [0, 8]
  nodes := [0]
  allCpus := [(0, ⟨0, 0⟩), (1, ⟨8, 0⟩)]
  llcs_sorted := by decide
  nodes_sorted := by decide
  cpus_sorted := by decide

theorem hierarchy_agrees_twoLlcs :
    ∃ e, ∃ fits : e.Fits, TopologyExport.detect (.ok twoLlcs) = some e ∧
      ∃ k, Booted (.kernelOnly fits.hierarchy) (Env.busy 1 0 0)
          (fun _ => .waiting (fun _ => true) 0) k ∧
        QueuesAgree (.kernelOnly fits.hierarchy) k := by
  obtain ⟨e, fits, detected, agrees⟩ := hierarchy_agrees (.ok twoLlcs) fun topo same => by
    cases same
    simp [Topology.Closed, twoLlcs]
  have booted := booted_busy (.kernelOnly fits.hierarchy) fun _ => .waiting (fun _ => true) 0
  exact ⟨e, fits, detected, _, booted, agrees _ rfl _ _ _ [] _ booted (.nil _)⟩

end Cognis.Loader
