import Cognis.Bpf.Startup

/-! For which machines the start-up requests every queue once. -/
namespace Cognis.Bpf
open StateLogic

section

variable (env : Env)

/-- The program requests a part of `qs` from the front, and all of it if it succeeds. -/
def Requests (x : BpfM Int) (qs : List Nat) : Prop :=
  ∀ k, ∃ rs, rs <+: qs ∧ (x.run k).2.touched = k.touched ++ rs ∧ ((x.run k).1 = 0 → rs = qs)

theorem requests_nil : Requests (return 0) [] :=
  fun k => ⟨[], List.prefix_rfl, (List.append_nil k.touched).symm, fun _ => rfl⟩

theorem createAll_requests (reason : Int → ScxExit) (qs : List Nat) :
    Requests (createAll env reason qs) qs := by
  intro k
  induction qs generalizing k with
  | nil => exact requests_nil k
  | cons q qs ih =>
    have front : [q] <+: q :: qs := ⟨qs, rfl⟩
    by_cases old : q ∈ k.created
    · have code : (-17 : Int) ≠ 0 := by decide
      simp only [createAll, run_then, scxBpfCreateDsq_run, if_pos old, if_pos code, run_done]
      exact ⟨[q], front, rfl, fun zero => absurd zero code⟩
    by_cases granted : env.createFails q = 0
    · have one : (createAll env reason (q :: qs)).run k =
          (createAll env reason qs).run (k.create [q]) := by
        simp only [createAll, run_then, scxBpfCreateDsq_run, if_neg old, granted, ne_eq,
          not_true_eq_false, if_false]
      obtain ⟨rs, part, asked, all⟩ := ih (k.create [q])
      rw [one]
      refine ⟨q :: rs, List.cons_prefix_cons.mpr ⟨rfl, part⟩, ?_, fun zero => by rw [all zero]⟩
      rw [asked, Kernel.create, List.append_assoc, List.singleton_append]
    · simp only [createAll, run_then, scxBpfCreateDsq_run, if_neg old, granted, ne_eq,
        not_false_eq_true, if_true, run_done]
      exact ⟨[q], front, rfl, False.elim⟩

variable {env} in
theorem Requests.andThen {x y : BpfM Int} {qs rs : List Nat} (hx : Requests x qs)
    (hy : Requests y rs) :
    Requests (do let err ← x
                 if err ≠ 0 then return err
                 y) (qs ++ rs) := by
  intro k
  obtain ⟨front, part, asked, all⟩ := hx k
  simp only [run_then]
  by_cases ok : (x.run k).1 = 0
  · obtain ⟨back, part', asked', all'⟩ := hy (x.run k).2
    simp only [ok, ne_eq, not_true_eq_false, if_false]
    rw [asked', asked, all ok, List.append_assoc]
    exact ⟨qs ++ back, (List.prefix_append_right_inj qs).mpr part', rfl, fun zero => by
      rw [all' zero]⟩
  · simp only [ne_eq, ok, not_false_eq_true, if_true, run_done]
    exact ⟨front, part.trans (List.prefix_append qs rs), asked, False.elim⟩

end

section

variable (ro : Rodata) (env : Env)

theorem dsqInit_requests (k : Kernel) :
    ∃ rs, rs <+: knownDsqs ro k.nrCpuIds ∧
      ((dsqInit ro env).run k).2.touched = k.touched ++ rs := by
  have last : Requests
      (if ro.userschedEnabled then createAll env .createSchedDsq [schedDsq] else return 0)
      (if ro.userschedEnabled then [schedDsq] else []) := by
    split
    · exact createAll_requests env _ _
    · exact requests_nil
  have stages := (createAll_requests env .createCpuDsq (cpuDsqs k.nrCpuIds)).andThen <|
    (createAll_requests env .createLlcDsq ((List.range ro.nrLlcs).map llcToDsq)).andThen <|
    (createAll_requests env .createNodeDsq ((List.range ro.nrNodes).map nodeToDsq)).andThen <|
    (createAll_requests env .createSharedDsq [sharedDsq]).andThen last
  rw [← knownDsqs_eq] at stages
  obtain ⟨rs, part, asked, _⟩ := stages (k.countOnline env)
  refine ⟨rs, part, ?_⟩
  simp only [run_then] at asked
  simp only [dsqInit, getNrOnlineCpus, run_then, run_getThe, run_done, run_modifyState,
    indicesBelow_eq ro.llcs_le, indicesBelow_eq ro.nodes_le]
  exact asked

/-- With `n` CPU ids and no queue to begin with, no queue is requested twice; the start-up
succeeds unless the kernel refuses a queue that does not exist yet. -/
def RequestsOnce (n : Nat) : Prop :=
  ∀ env k, k.created = [] → k.nrCpuIds = n →
    ∃ qs, ((dsqInit ro env).run k).2.touched = k.touched ++ qs ∧ qs.Nodup ∧
      ((∀ q, env.createFails q = 0) → ((dsqInit ro env).run k).1 = 0)

variable {ro}

theorem RequestsOnce.le {n : Nat} (once : RequestsOnce ro n) : n ≤ maxCpus := by
  obtain ⟨_, _, _, succeeds⟩ := once (Env.busy n 0 0)
    { Kernel.boot fun _ => .waiting (fun _ => true) 0 with nrCpuIds := n } rfl rfl
  rcases dsqInit_run ro (Env.busy n 0 0)
    { Kernel.boot fun _ => .waiting (fun _ => true) 0 with nrCpuIds := n } with
    ⟨creatable, _⟩ | ⟨_, failed⟩
  · exact (knownDsqs_nodup_iff ro).mp creatable.nodup
  · exact absurd (succeeds fun _ => rfl) failed

end

/-- Each queue is requested once exactly when every CPU id has a queue of its own. -/
theorem requestsOnce_iff (ro : Rodata) (n : Nat) : RequestsOnce ro n ↔ n ≤ maxCpus := by
  refine ⟨RequestsOnce.le, fun fits env k none cpus => ?_⟩
  have nodup : (knownDsqs ro k.nrCpuIds).Nodup := (knownDsqs_nodup_iff ro).mpr (cpus ▸ fits)
  obtain ⟨qs, part, asked⟩ := dsqInit_requests ro env k
  refine ⟨qs, asked, nodup.sublist part.sublist, fun granted => ?_⟩
  rcases dsqInit_run ro env k with ⟨_, run⟩ | ⟨refused, _⟩
  · rw [run]
  · refine absurd ⟨nodup, fun q _ => ?_, fun q _ => granted q⟩ refused
    rw [none]
    exact List.not_mem_nil

/-- CPU 1024 is mapped to the shared queue, which is requested again. -/
theorem sharedDsq_requested_twice : ¬ ∀ (ro : Rodata) (n : Nat), 1 ≤ n → RequestsOnce ro n := by
  intro once
  have fits := (once (.kernelOnly .flat) (maxCpus + 1) (by decide)).le
  exact absurd fits (Nat.not_succ_le_self maxCpus)

end Cognis.Bpf
