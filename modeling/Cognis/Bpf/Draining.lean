import Cognis.Lib.Custody
import Cognis.Bpf.QueueOrder
import Cognis.Bpf.SpillBounds
import Cognis.Bpf.StealScans
import Cognis.Bpf.WorkConservation

/-! Progress of the hierarchy without the fallback: CPUs that every waiting task may run
on take one task with each dispatch, wherever it waits, until none is left. -/
namespace Cognis.Bpf
open StateLogic Runs Relation

section

variable {ro : Rodata} {env : Env} {v : Queues} {cpu : Int}

/-- Every task of the hierarchy may run on `cpu`. -/
def Queues.Welcome (ro : Rodata) (v : Queues) (cpu : Int) : Prop :=
  ∀ q ∈ taskDsqs ro v.nrCpuIds, ∀ p ∈ v.dsq q, (v.task p).cpusPtr cpu = true

theorem Queues.Welcome.holds (welcome : v.Welcome ro cpu) {q p : Nat}
    (known : q ∈ taskDsqs ro v.nrCpuIds) (member : p ∈ v.dsq q) : v.Holds cpu q :=
  ⟨p, member, welcome q known p member⟩

theorem Queues.Welcome.leads (welcome : v.Welcome ro cpu) {qs : List Nat} {q p : Nat}
    (known : qs ⊆ taskDsqs ro v.nrCpuIds) (victim : q ∈ qs) (member : p ∈ v.dsq q) :
    LeaderHolds v cpu anyHead qs := by
  obtain ⟨head, front⟩ := (welcome.holds (known victim) member).head
  cases chosen : Selection.select (headKey v) none (candidates v anyHead qs) with
  | none =>
    have none := (Selection.select_eq_none_iff _ _).mp chosen
    have offered : ⟨head, (v.dsq q).length, q⟩ ∈ candidates v anyHead qs :=
      mem_candidates.mpr ⟨victim, front, rfl, rfl⟩
    rw [none] at offered
    cases offered
  | some c =>
    have leads := (Selection.select_eq_some_iff _ _ _).mp chosen
    obtain ⟨inside, first, _, _⟩ := mem_candidates.mp (Selection.leads_mem _ leads)
    exact ⟨c, leads, welcome.holds (known inside) (List.mem_of_head? first)⟩

/-- A waiting task is within reach of a CPU that all of them may run on. -/
theorem Queues.Welcome.reaches (welcome : v.Welcome ro cpu)
    (valid : isCpuValid v.nrCpuIds cpu = true)
    (unused : ¬ 1 < ro.nrNodes → ∀ i < maxNodes, v.dsq (nodeToDsq i) = []) {q p : Nat}
    (known : q ∈ taskDsqs ro v.nrCpuIds) (member : p ∈ v.dsq q) : Reaches ro env v.still cpu := by
  have holds := welcome.holds known member
  have own : q ∈ ownTiers ro v.nrCpuIds cpu → Reaches ro env v.still cpu := fun near =>
    .inl ⟨q, near, holds.ne_nil, holds⟩
  have steals : StealReaches ro env v.still cpu → Reaches ro env v.still cpu := fun reaches =>
    .inr (by rwa [Queues.still_after])
  simp only [taskDsqs, cpuDsqs, List.mem_append, List.mem_map, List.mem_range,
    List.mem_singleton] at known
  rcases known with ((⟨c, below, rfl⟩ | ⟨i, below, rfl⟩) | ⟨i, below, rfl⟩) | rfl
  · by_cases self : (c : Int) = cpu
    · exact own (by simp [ownTiers, self])
    · refine steals ⟨valid, .inl ⟨cpuToDsq v.nrCpuIds c, ?_, ?_⟩⟩
      · exact List.mem_map.mpr ⟨c, List.mem_filter.mpr ⟨List.mem_range.mpr below, by simp [self]⟩,
          rfl⟩
      · obtain ⟨head, front⟩ := holds.head
        refine ⟨head, front, welcome _ ?_ head (List.mem_of_head? front)⟩
        exact cpuToDsq_mem ro _ _
  · by_cases self : i = cpuLlcIdxFor ro v.nrCpuIds cpu
    · exact own (by simp [ownTiers, cpuLlcDsq, self])
    · refine steals ⟨valid, .inr (.inr (.inr ?_))⟩
      refine welcome.leads (llcQueues_subset ro _ cpu false) ?_ member
      refine List.mem_map.mpr ⟨i, List.mem_filter.mpr ⟨?_, by simp⟩, rfl⟩
      exact (mem_rotation (cpuLlcIdxFor_lt ro _ cpu) ro.llcs_le).mpr ⟨below, self⟩
  · by_cases multi : 1 < ro.nrNodes
    · by_cases self : i = cpuNodeIdxFor ro v.nrCpuIds cpu
      · exact own (by simp [ownTiers, cpuNodeDsq, multi, self])
      · refine steals ⟨valid, .inr (.inr (.inl ?_))⟩
        refine welcome.leads (nodeQueues_subset ro _ cpu) ?_ member
        refine List.mem_map.mpr ⟨i, ?_, rfl⟩
        exact (mem_rotation (cpuNodeIdxFor_lt ro _ cpu) ro.nodes_le).mpr ⟨below, self⟩
    · have empty := unused multi i (Nat.lt_of_lt_of_le below ro.nodes_le)
      rw [empty] at member
      cases member
  · exact own (by simp [ownTiers])

end

section

variable (ro : Rodata)

/-- One call of `ops.dispatch`. -/
structure DispatchCall where
  cpu : Int
  prev : Option Nat
  env : Env

def Kernel.dispatched (k : Kernel) (call : DispatchCall) : Kernel :=
  (Callback.dispatch call.cpu call.prev).exec ro call.env k

/-- How many tasks wait in the hierarchy. -/
def backlog (k : Kernel) : Nat := Custody.load (taskDsqs ro k.nrCpuIds).toFinset k.dsq

end

section

variable {ro : Rodata} {k : Kernel} {call : DispatchCall}

theorem userschedRuns_off {env : Env} {cpu : Int} (fallbackOff : ro.userschedEnabled = false) :
    ¬ UserschedRuns ro env k cpu := by
  intro runs
  have asked := runs.1
  rw [userschedPending, fallbackOff, Bool.false_and] at asked
  cases asked

/-- What dispatches need and keep: a reachable state of kernel-only mode in which the
tasks may run on the CPUs that dispatch. -/
structure Draining (ro : Rodata) (cpus : Int → Prop) (k : Kernel) : Prop where
  deferring : Deferring ro k
  valid : ∀ cpu, cpus cpu → isCpuValid k.nrCpuIds cpu = true
  welcome : ∀ cpu, cpus cpu → k.queues.Welcome ro cpu

theorem Quiet.fresh (quiet : Quiet k) : k.Fresh :=
  ⟨quiet.pending, fun some => absurd quiet.ring some⟩

theorem Draining.quiet {cpus : Int → Prop} (draining : Draining ro cpus k) : Quiet k :=
  ⟨draining.deferring.ring, draining.deferring.pending⟩

/-- One dispatch takes one task of the hierarchy, if there is any, to its local queue. -/
theorem Draining.takes {cpus : Int → Prop} (fallbackOff : ro.userschedEnabled = false)
    (draining : Draining ro cpus k) (able : cpus call.cpu) :
    backlog ro k = 0 ∧ (k.dispatched ro call).dsq = k.dsq ∨
      ∃ q ∈ taskDsqs ro k.nrCpuIds, ∃ p ∈ k.dsq q, (k.dispatched ro call).dsq =
        Function.update (Function.update k.dsq q ((k.dsq q).erase p)) (localOn call.cpu)
          (k.dsq (localOn call.cpu) ++ [p]) := by
  have quiet := draining.quiet
  have known : knownDsqs ro k.nrCpuIds = taskDsqs ro k.nrCpuIds := by
    rw [knownDsqs, fallbackOff, if_neg Bool.false_ne_true, List.append_nil]
  have effect := dispatch_fetches ro call.env call.cpu call.prev quiet.ring quiet.pending
  rcases effect with still | ⟨q, inside, p, first, after⟩
  · left
    refine ⟨Custody.load_eq_zero.mpr fun q inside => ?_, still⟩
    by_contra filled
    obtain ⟨p, member⟩ := List.exists_mem_of_ne_nil _ filled
    have reaches : Reaches ro call.env k.queues.still call.cpu := (draining.welcome _ able).reaches
      (draining.valid _ able) draining.deferring.bounds.unused (List.mem_toFinset.mp inside) member
    rw [← shown_of_empty ro call.env quiet.ring] at reaches
    obtain ⟨_, _, _, moved⟩ := (dispatch_served_iff ro call.env call.prev quiet.fresh
      (userschedRuns_off fallbackOff)).mpr reaches
    rw [landed_of_empty call.env quiet.ring] at moved
    exact moved.ne still
  · have member := (Queues.mem_of_firstAllowed first).1
    exact .inr ⟨q, known ▸ inside, p, member, congrArg Queues.dsq after⟩

/-- A task that is still in the hierarchy, or local to one of the CPUs. -/
def Kept (ro : Rodata) (cpus : Int → Prop) (k : Kernel) (p : Nat) : Prop :=
  (∃ q ∈ taskDsqs ro k.nrCpuIds, p ∈ k.dsq q) ∨ ∃ cpu, cpus cpu ∧ p ∈ k.dsq (localOn cpu)

variable {cpus : Int → Prop} (fallbackOff : ro.userschedEnabled = false)
  (draining : Draining ro cpus k) (able : cpus call.cpu)
include fallbackOff draining able

theorem Draining.keeps {p : Nat} (kept : Kept ro cpus k p) :
    Kept ro cpus (k.dispatched ro call) p := by
  have cpuIds : (k.dispatched ro call).nrCpuIds = k.nrCpuIds := (exec_steady _ k).nrCpuIds
  unfold Kept at kept ⊢
  rw [cpuIds]
  rcases draining.takes fallbackOff able with ⟨_, still⟩ | ⟨r, source, u, _, taken⟩
  · rwa [still]
  rw [taken]
  rcases kept with ⟨q, known, waits⟩ | ⟨cpu, local_cpu, waits⟩
  · have outside := taskDsqs_ne_localOn ro _ known call.cpu
    by_cases moves : q = r ∧ p = u
    · exact .inr ⟨call.cpu, able, by simp [moves.2]⟩
    · refine .inl ⟨q, known, ?_⟩
      rw [Function.update_of_ne outside]
      by_cases here : q = r
      · have other : p ≠ u := fun same => moves ⟨here, same⟩
        rw [here, Function.update_self, List.mem_erase_of_ne other, ← here]
        exact waits
      · rwa [Function.update_of_ne here]
  · refine .inr ⟨cpu, local_cpu, ?_⟩
    by_cases own : localOn cpu = localOn call.cpu
    · rw [own, Function.update_self, ← own]
      exact List.mem_append_left _ waits
    · have apart : localOn cpu ≠ r := (taskDsqs_ne_localOn ro _ source cpu).symm
      rwa [Function.update_of_ne own, Function.update_of_ne apart]

theorem Draining.step : Draining ro cpus (k.dispatched ro call) ∧
    backlog ro (k.dispatched ro call) = backlog ro k - 1 := by
  have cpuIds : (k.dispatched ro call).nrCpuIds = k.nrCpuIds := (exec_steady _ k).nrCpuIds
  have outside : ∀ q ∈ taskDsqs ro k.nrCpuIds, q ≠ localOn call.cpu := fun q known =>
    taskDsqs_ne_localOn ro _ known call.cpu
  have effect := draining.takes fallbackOff able
  have subset : ∀ q ∈ taskDsqs ro k.nrCpuIds, (k.dispatched ro call).dsq q ⊆ k.dsq q := by
    intro q known
    rcases effect with ⟨_, still⟩ | ⟨r, _, p, _, taken⟩
    · rw [still]
      exact List.Subset.refl _
    · rw [taken, Function.update_of_ne (outside q known)]
      by_cases here : q = r
      · rw [here, Function.update_self]
        exact List.erase_subset
      · rw [Function.update_of_ne here]
        exact List.Subset.refl _
  refine ⟨⟨?_, fun cpu able => cpuIds ▸ draining.valid cpu able, ?_⟩, ?_⟩
  · have step : DeferredStep ro k (.call (.dispatch call.cpu call.prev) call.env)
        (k.dispatched ro call) := ⟨.call _ _ nofun, nofun⟩
    exact step.deferring fallbackOff draining.deferring
  · intro cpu able q known p member
    have known : q ∈ taskDsqs ro k.nrCpuIds := cpuIds ▸ known
    have before := draining.welcome cpu able q known p (subset q known member)
    have same : ((k.dispatched ro call).task p).cpusPtr = (k.task p).cpusPtr :=
      exec_reads (.dispatch call.cpu call.prev) draining.quiet (fun _ _ => rfl) fun _ _ _ => rfl
    exact (congrFun same cpu).trans before
  · rw [backlog, cpuIds, backlog]
    rcases effect with ⟨empty, still⟩ | ⟨q, known, p, member, taken⟩
    · rw [backlog] at empty
      rw [still, empty]
    · have less := Custody.load_take (List.mem_toFinset.mpr known)
        (fun known => outside _ (List.mem_toFinset.mp known) rfl) member
        (k.dsq (localOn call.cpu) ++ [p])
      rw [taken]
      omega

omit able in
theorem Draining.run (calls : List DispatchCall) (able : ∀ call ∈ calls, cpus call.cpu) :
    backlog ro (calls.foldl (Kernel.dispatched ro) k) = backlog ro k - calls.length ∧
      ∀ p, Kept ro cpus k p → Kept ro cpus (calls.foldl (Kernel.dispatched ro) k) p := by
  induction calls generalizing k with
  | nil => exact ⟨rfl, fun _ kept => kept⟩
  | cons call calls ih =>
    obtain ⟨first, others⟩ := List.forall_mem_cons.mp able
    obtain ⟨after, less⟩ := draining.step fallbackOff first
    obtain ⟨rest, kept⟩ := ih after others
    refine ⟨?_, fun p before => kept p (draining.keeps fallbackOff first before)⟩
    rw [List.foldl_cons, rest, less, List.length_cons, Nat.sub_sub, Nat.add_comm]

end

end Cognis.Bpf
