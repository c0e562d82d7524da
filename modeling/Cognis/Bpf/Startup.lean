import Mathlib.Data.List.Nodup
import Cognis.Bpf.Heartbeat

/-! When `ops.init` succeeds, and the queues that exist from then on. -/
namespace Cognis.Bpf
open StateLogic

section

variable (ro : Rodata) (env : Env)

/-- The kernel creates the queues one after the other without an error. -/
structure Creatable (k : Kernel) (qs : List Nat) : Prop where
  nodup : qs.Nodup
  fresh : ∀ q ∈ qs, q ∉ k.created
  granted : ∀ q ∈ qs, env.createFails q = 0

def Kernel.create (k : Kernel) (qs : List Nat) : Kernel :=
  { k with created := k.created ++ qs, touched := k.touched ++ qs }

theorem create_nil (k : Kernel) : k.create [] = k := by simp [Kernel.create]

theorem create_append (k : Kernel) (qs rs : List Nat) :
    (k.create qs).create rs = k.create (qs ++ rs) := by simp [Kernel.create]

theorem creatable_nil (k : Kernel) : Creatable env k [] :=
  ⟨List.nodup_nil, by simp, by simp⟩

theorem creatable_append (k : Kernel) (qs rs : List Nat) :
    Creatable env k (qs ++ rs) ↔ Creatable env k qs ∧ Creatable env (k.create qs) rs := by
  constructor
  · rintro ⟨nodup, fresh, granted⟩
    obtain ⟨left, right, apart⟩ := List.nodup_append.mp nodup
    refine ⟨⟨left, fun q member => fresh q (List.mem_append_left _ member),
      fun q member => granted q (List.mem_append_left _ member)⟩, right, fun q member => ?_,
      fun q member => granted q (List.mem_append_right _ member)⟩
    intro old
    rcases List.mem_append.mp old with before | now
    · exact fresh q (List.mem_append_right _ member) before
    · exact apart q now q member rfl
  · rintro ⟨⟨left, leftFresh, leftGranted⟩, right, rightFresh, rightGranted⟩
    refine ⟨List.nodup_append.mpr ⟨left, right, ?_⟩, fun q member => ?_, fun q member => ?_⟩
    · rintro a first b second rfl
      exact rightFresh a second (List.mem_append_right _ first)
    · rcases List.mem_append.mp member with first | second
      · exact leftFresh q first
      · exact fun old => rightFresh q second (List.mem_append_left _ old)
    · exact (List.mem_append.mp member).elim (leftGranted q) (rightGranted q)

theorem creatable_single (k : Kernel) (q : Nat) :
    Creatable env k [q] ↔ q ∉ k.created ∧ env.createFails q = 0 := by
  constructor
  · exact fun h => ⟨h.fresh q (by simp), h.granted q (by simp)⟩
  · rintro ⟨fresh, granted⟩
    exact ⟨by simp, by simpa using fresh, by simpa using granted⟩

/-- The program creates exactly `qs`, or fails because it cannot. -/
def Creates (x : BpfM Int) (qs : List Nat) : Prop :=
  ∀ k, Creatable env k qs ∧ x.run k = (0, k.create qs) ∨
    ¬ Creatable env k qs ∧ (x.run k).1 ≠ 0

theorem nothing_creates : Creates env (return 0) [] :=
  fun k => .inl ⟨creatable_nil env k, by rw [create_nil]; rfl⟩

theorem scxBpfCreateDsq_run (k : Kernel) (q : Nat) : (scxBpfCreateDsq env q).run k =
    if q ∈ k.created then (-17, k.touch q)
    else if env.createFails q ≠ 0 then (env.createFails q, k.touch q)
    else (0, k.create [q]) := by
  simp only [scxBpfCreateDsq, run_then, run_modifyState, run_getThe, run_ite, run_done,
    List.contains_iff_mem]
  rfl

theorem createAll_creates (reason : Int → ScxExit) (qs : List Nat) :
    Creates env (createAll env reason qs) qs := by
  intro k
  induction qs generalizing k with
  | nil => exact nothing_creates env k
  | cons q qs ih =>
    have split := creatable_append env k [q] qs
    rw [List.singleton_append, creatable_single] at split
    by_cases old : q ∈ k.created
    · refine .inr ⟨fun h => (split.mp h).1.1 old, ?_⟩
      have code : (-17 : Int) ≠ 0 := by decide
      simp only [createAll, run_then, scxBpfCreateDsq_run, if_pos old, if_pos code, run_done]
      exact code
    by_cases granted : env.createFails q = 0
    · have one : (createAll env reason (q :: qs)).run k =
          (createAll env reason qs).run (k.create [q]) := by
        simp only [createAll, run_then, scxBpfCreateDsq_run, if_neg old, granted, ne_eq,
          not_true_eq_false, if_false]
      rw [one]
      rcases ih (k.create [q]) with ⟨rest, run⟩ | ⟨rest, failed⟩
      · exact .inl ⟨split.mpr ⟨⟨old, granted⟩, rest⟩, by rw [run, create_append]; rfl⟩
      · exact .inr ⟨fun h => rest (split.mp h).2, failed⟩
    · refine .inr ⟨fun h => granted (split.mp h).1.2, ?_⟩
      simp only [createAll, run_then, scxBpfCreateDsq_run, if_neg old, granted, ne_eq,
        not_false_eq_true, if_true, run_done]

variable {env} in
theorem Creates.andThen {x y : BpfM Int} {qs rs : List Nat} (hx : Creates env x qs)
    (hy : Creates env y rs) :
    Creates env (do let err ← x
                    if err ≠ 0 then return err
                    y) (qs ++ rs) := by
  intro k
  simp only [run_then, creatable_append]
  rcases hx k with ⟨first, run⟩ | ⟨first, failed⟩
  · simp only [run, ne_eq, not_true_eq_false, if_false]
    rcases hy (k.create qs) with ⟨second, run⟩ | ⟨second, failed⟩
    · exact .inl ⟨⟨first, second⟩, by rw [run, create_append]⟩
    · exact .inr ⟨fun h => second h.2, failed⟩
  · simp only [if_pos failed, run_done]
    exact .inr ⟨fun h => first h.1, failed⟩

def Kernel.countOnline (k : Kernel) : Kernel :=
  { k with nrOnlineCpus :=
      ((List.range k.nrCpuIds).filter fun cpu => env.cpuOnline (cpu : Nat)).length }

theorem knownDsqs_eq (n : Nat) : knownDsqs ro n =
    cpuDsqs n ++ ((List.range ro.nrLlcs).map llcToDsq ++ ((List.range ro.nrNodes).map nodeToDsq ++
      ([sharedDsq] ++ if ro.userschedEnabled then [schedDsq] else []))) := by
  simp only [knownDsqs, taskDsqs, List.append_assoc]

theorem dsqInit_run (k : Kernel) :
    Creatable env k (knownDsqs ro k.nrCpuIds) ∧ (dsqInit ro env).run k =
        (0, (k.countOnline env).create (knownDsqs ro k.nrCpuIds)) ∨
      ¬ Creatable env k (knownDsqs ro k.nrCpuIds) ∧ ((dsqInit ro env).run k).1 ≠ 0 := by
  have last : Creates env
      (if ro.userschedEnabled then createAll env .createSchedDsq [schedDsq] else return 0)
      (if ro.userschedEnabled then [schedDsq] else []) := by
    split
    · exact createAll_creates env _ _
    · exact nothing_creates env
  have stages := (createAll_creates env .createCpuDsq (cpuDsqs k.nrCpuIds)).andThen <|
    (createAll_creates env .createLlcDsq ((List.range ro.nrLlcs).map llcToDsq)).andThen <|
    (createAll_creates env .createNodeDsq ((List.range ro.nrNodes).map nodeToDsq)).andThen <|
    (createAll_creates env .createSharedDsq [sharedDsq]).andThen last
  rw [← knownDsqs_eq] at stages
  have same : ∀ qs, Creatable env (k.countOnline env) qs ↔ Creatable env k qs := fun qs =>
    ⟨fun h => ⟨h.nodup, h.fresh, h.granted⟩, fun h => ⟨h.nodup, h.fresh, h.granted⟩⟩
  have result := stages (k.countOnline env)
  simp only [same, run_then] at result
  simp only [dsqInit, getNrOnlineCpus, run_then, run_getThe, run_done, run_modifyState,
    indicesBelow_eq ro.llcs_le, indicesBelow_eq ro.nodes_le]
  exact result

/-- What `cognis_init` has set before the queues are created. -/
def Kernel.prepare (k : Kernel) : Kernel :=
  { k with nrCpuIds := env.nrCpuIds, lastDispatchAt := env.now }

/-- The state after a successful `cognis_init`: only the fallback arms the timer. -/
def Kernel.initialized (k : Kernel) : Kernel :=
  { ((k.prepare env).countOnline env).create (knownDsqs ro env.nrCpuIds) with
    timerArmed := ro.userschedEnabled || k.timerArmed }

theorem userschedTimerInit_run (k : Kernel) :
    (env.timerMap = true ∧ env.timerStart = 0) ∧
        (userschedTimerInit env).run k = (0, { k with timerArmed := true }) ∨
      ¬ (env.timerMap = true ∧ env.timerStart = 0) ∧ ((userschedTimerInit env).run k).1 ≠ 0 := by
  cases found : env.timerMap with
  | false =>
    refine .inr ⟨fun h => absurd h.1 (by decide), ?_⟩
    simp only [userschedTimerInit, found, Bool.not_false, if_true, run_then, run_done]
    decide
  | true =>
    by_cases started : env.timerStart = 0
    · refine .inl ⟨⟨rfl, started⟩, ?_⟩
      simp only [userschedTimerInit, bpfTimerStart, found, started, run_then, run_done,
        run_modifyState, Bool.not_true, Bool.false_eq_true, if_false, if_true, ne_eq,
        not_true_eq_false]
    · refine .inr ⟨fun h => started h.2, ?_⟩
      simp only [userschedTimerInit, bpfTimerStart, found, started, run_then, run_done,
        Bool.not_true, Bool.false_eq_true, if_false, if_true, ne_eq, not_false_eq_true]

theorem cognisInit_run (k : Kernel) :
    (Creatable env k (knownDsqs ro env.nrCpuIds) ∧
        (ro.userschedEnabled = true → env.timerMap = true ∧ env.timerStart = 0)) ∧
      (cognisInit ro env).run k = (0, k.initialized ro env) ∨
    ¬ (Creatable env k (knownDsqs ro env.nrCpuIds) ∧
        (ro.userschedEnabled = true → env.timerMap = true ∧ env.timerStart = 0)) ∧
      ((cognisInit ro env).run k).1 ≠ 0 := by
  have same : ∀ qs, Creatable env (k.prepare env) qs ↔ Creatable env k qs := fun qs =>
    ⟨fun h => ⟨h.nodup, h.fresh, h.granted⟩, fun h => ⟨h.nodup, h.fresh, h.granted⟩⟩
  have stages := dsqInit_run ro env (k.prepare env)
  simp only [same, show (k.prepare env).nrCpuIds = env.nrCpuIds from rfl] at stages
  have start : (cognisInit ro env).run k = (do
      let err ← dsqInit ro env
      if err ≠ 0 then return err
      if ro.userschedEnabled then userschedTimerInit env else return 0 : BpfM Int).run
        (k.prepare env) := rfl
  rw [start]
  simp only [run_then]
  rcases stages with ⟨created, run⟩ | ⟨refused, failed⟩
  · simp only [run, ne_eq, not_true_eq_false, if_false, created, true_and]
    cases enabled : ro.userschedEnabled with
    | false => exact .inl ⟨by simp, by simp [Kernel.initialized, enabled, Kernel.create]; rfl⟩
    | true =>
      rcases userschedTimerInit_run env (((k.prepare env).countOnline env).create
        (knownDsqs ro env.nrCpuIds)) with ⟨armed, run⟩ | ⟨refused, failed⟩
      · refine .inl ⟨fun _ => armed, ?_⟩
        simp only [if_true, run, Kernel.initialized, enabled, Bool.true_or]
      · exact .inr ⟨fun h => refused (h rfl), failed⟩
  · refine .inr ⟨fun h => refused h.1, ?_⟩
    simp only [if_pos failed, run_done]
    exact failed

theorem cpuDsqs_eq {n : Nat} (fits : n ≤ maxCpus) : cpuDsqs n = List.range n := by
  have each : ∀ cpu ∈ List.range n, cpuToDsq n (cpu : Nat) = cpu := by
    intro cpu member
    have below := List.mem_range.mp member
    have valid : isCpuValid n (cpu : Nat) = true := isCpuValid_iff.mpr (by omega)
    simp [cpuToDsq_valid valid]
  exact (List.map_congr_left each).trans (List.map_id _)

/-- No two CPUs, cache domains or nodes share a queue, nor does any with the two
global queues. -/
theorem dsqs_nodup {n : Nat} (fits : n ≤ maxCpus) : (taskDsqs ro n ++ [schedDsq]).Nodup := by
  have llcs := ro.llcs_le
  have llcIds : ((List.range ro.nrLlcs).map llcToDsq).Nodup :=
    List.Nodup.map (fun i j same => Nat.add_left_cancel same) List.nodup_range
  have nodeIds : ((List.range ro.nrNodes).map nodeToDsq).Nodup :=
    List.Nodup.map (fun i j same => Nat.add_left_cancel same) List.nodup_range
  simp only [taskDsqs, cpuDsqs_eq fits, List.nodup_append, List.nodup_range, llcIds, nodeIds,
    List.nodup_singleton, true_and, List.mem_append, List.mem_map, List.mem_range,
    List.mem_singleton]
  simp only [llcToDsq, nodeToDsq, sharedDsq, schedDsq, nodeDsqBase, llcDsqBase, maxCpus, maxLlcs]
    at *
  refine ⟨⟨⟨?_, ?_⟩, ?_⟩, ?_⟩
  · rintro a below b ⟨i, _, rfl⟩
    omega
  · rintro a (below | ⟨i, below, rfl⟩) b ⟨j, _, rfl⟩ <;> omega
  · rintro a ((below | ⟨i, below, rfl⟩) | ⟨i, below, rfl⟩) b rfl <;> omega
  · rintro a (((below | ⟨i, below, rfl⟩) | ⟨i, below, rfl⟩) | rfl) b rfl <;> omega

/-- With more CPUs than ids the shared queue would be created twice. -/
theorem knownDsqs_nodup_iff {n : Nat} : (knownDsqs ro n).Nodup ↔ n ≤ maxCpus := by
  constructor
  · intro nodup
    by_contra tooMany
    have extra : sharedDsq ∈ cpuDsqs n := by
      have invalid : isCpuValid n (maxCpus : Nat) = false := by
        rw [Bool.eq_false_iff, ne_eq, isCpuValid_iff]
        omega
      exact List.mem_map.mpr ⟨maxCpus, List.mem_range.mpr (by omega), cpuToDsq_invalid invalid⟩
    rw [knownDsqs_eq, List.nodup_append] at nodup
    exact nodup.2.2 sharedDsq extra sharedDsq (by simp) rfl
  · intro fits
    have all := dsqs_nodup ro fits
    unfold knownDsqs
    split
    · exact all
    · simpa using (List.nodup_append.mp all).1

end

end Cognis.Bpf
