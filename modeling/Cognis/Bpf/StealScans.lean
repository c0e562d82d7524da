import Mathlib.Data.List.Nodup
import Cognis.Bpf.Steal

/-! What each steal pass examines, and which queue it commits to. A pass over LLCs or
nodes walks once around the other indices; the pass over CPUs asks every other CPU. -/
namespace Cognis.Bpf
open StateLogic

theorem takeWhile_range' (start n count : Nat) :
    (List.range' start n).takeWhile (· < count) = List.range' start (min n (count - start)) := by
  induction n generalizing start with
  | zero => simp
  | succ n ih =>
    rw [List.range'_succ, List.takeWhile_cons]
    split
    · rename_i below
      have below : start < count := by simpa using below
      have room : min (n + 1) (count - start) = min n (count - (start + 1)) + 1 := by omega
      rw [ih, room, List.range'_succ]
    · rename_i beyond
      have beyond : count ≤ start := by simpa using beyond
      have none : min (n + 1) (count - start) = 0 := by omega
      rw [none, List.range'_zero]

section

variable {own count limit : Nat}

theorem rotation_eq (within : count ≤ limit) :
    rotation own count limit = (List.range' 1 (count - 1)).map fun i =>
      if own + i ≥ count then own + i - count else own + i := by
  have turns : min (limit - 1) (count - 1) = count - 1 := by omega
  rw [rotation, takeWhile_range', turns]

theorem rotation_nodup (within : count ≤ limit) :
    (rotation own count limit).Nodup := by
  rw [rotation_eq within]
  apply List.Nodup.map_on _ List.nodup_range'
  intro i first j second same
  have bounds := List.mem_range'_1.mp first
  have bounds' := List.mem_range'_1.mp second
  split at same <;> split at same <;> omega

/-- The walk meets every index but the one it starts from. -/
theorem mem_rotation (inside : own < count) (within : count ≤ limit) {i : Nat} :
    i ∈ rotation own count limit ↔ i < count ∧ i ≠ own := by
  simp only [rotation_eq within, List.mem_map, List.mem_range'_1]
  constructor
  · rintro ⟨j, turns, rfl⟩
    split <;> omega
  · rintro ⟨below, other⟩
    by_cases ahead : own < i
    · refine ⟨i - own, by omega, ?_⟩
      rw [if_neg (by omega)]
      omega
    · refine ⟨i + count - own, by omega, ?_⟩
      rw [if_pos (by omega)]
      omega

end

/-- `best` heads one of the queues `examined`: no head there has an earlier `dsq_vtime`,
and none with the same one heads a deeper queue. Nothing is best only if all are empty. -/
def BestHead (v : Queues) (examined : Nat → Prop) : Option Candidate → Prop
  | none => ∀ q, examined q → v.dsq q = []
  | some best =>
    examined best.dsq ∧ (v.dsq best.dsq).head? = some best.task ∧
      best.depth = (v.dsq best.dsq).length ∧
      ∀ q p, examined q → (v.dsq q).head? = some p →
        (v.task best.task).dsqVtime < (v.task p).dsqVtime ∨
          (v.task best.task).dsqVtime = (v.task p).dsqVtime ∧ (v.dsq q).length ≤ best.depth

theorem headKey_le_iff (v : Queues) (c d : Candidate) :
    headKey v c ≤ headKey v d ↔ (v.task c.task).dsqVtime < (v.task d.task).dsqVtime ∨
      (v.task c.task).dsqVtime = (v.task d.task).dsqVtime ∧ d.depth ≤ c.depth := by
  simp only [headKey, Prod.Lex.toLex_le_toLex, OrderDual.toDual_le_toDual, BitVec.lt_def,
    BitVec.toNat_inj]

/-- A scan keeps the best head among the queues whose head is accepted. -/
theorem select_bestHead (v : Queues) (accept : Nat → Bool) (qs : List Nat) (examined : Nat → Prop)
    (fits : ∀ q, examined q ↔ q ∈ qs ∧ ∀ p, (v.dsq q).head? = some p → accept p = true) :
    BestHead v examined (Selection.select (headKey v) none (candidates v accept qs)) := by
  have candidate : ∀ q p, examined q → (v.dsq q).head? = some p →
      ⟨p, (v.dsq q).length, q⟩ ∈ candidates v accept qs := by
    intro q p seen head
    obtain ⟨member, accepted⟩ := (fits q).mp seen
    exact mem_candidates.mpr ⟨member, head, accepted p head, rfl⟩
  cases chosen : Selection.select (headKey v) none (candidates v accept qs) with
  | none =>
    intro q seen
    have none := (Selection.select_eq_none_iff _ _).mp chosen
    cases queue : v.dsq q with
    | nil => rfl
    | cons p ps =>
      have member := candidate q p seen (by rw [queue]; rfl)
      rw [none] at member
      cases member
  | some best =>
    have leads := (Selection.select_eq_some_iff _ _ _).mp chosen
    obtain ⟨member, head, accepted, depth⟩ := mem_candidates.mp (Selection.leads_mem _ leads)
    have seen : examined best.dsq := by
      refine (fits _).mpr ⟨member, fun p first => ?_⟩
      cases Option.some.inj (head.symm.trans first)
      exact accepted
    refine ⟨seen, head, depth, fun q p other first => ?_⟩
    have least := Selection.leads_least _ leads _ (candidate q p other first)
    exact (headKey_le_iff v best _).mp least

/-- The pass queries the queue of each index with `victim` once, in some order, and
commits to the best head among the queues `examined`. -/
def ScansBest (x : BpfM Bool) (commit : Option Candidate → BpfM Bool) (queueOf : Nat → Nat)
    (victim examined : Nat → Prop) (k : Kernel) : Prop :=
  ∃ (order : List Nat) (best : Option Candidate), order.Nodup ∧ (∀ i, i ∈ order ↔ victim i) ∧
    BestHead k.queues examined best ∧
    x.run k = (commit best).run (k.touchAll (scanTouched k.queues (order.map queueOf)))

section

variable (ro : Rodata) (env : Env)

def countXllcSteal (c : Counters) : Counters := { c with xllcSteals := c.xllcSteals + 1 }

def countXnodeSteal (c : Counters) : Counters := { c with xnodeSteals := c.xnodeSteals + 1 }

/-- Another LLC, and one of the CPU's node where that is asked for. -/
def LlcVictim (nrCpuIds : Nat) (cpu : Int) (sameNodeOnly : Bool) (llc : Nat) : Prop :=
  llc < ro.nrLlcs ∧ llc ≠ cpuLlcIdxFor ro nrCpuIds cpu ∧
    (sameNodeOnly = true → llcNodeIdxFor ro llc = cpuNodeIdxFor ro nrCpuIds cpu)

def NodeVictim (nrCpuIds : Nat) (cpu : Int) (node : Nat) : Prop :=
  node < ro.nrNodes ∧ node ≠ cpuNodeIdxFor ro nrCpuIds cpu

/-- Another CPU, and one that shares the cache where that is asked for. -/
def CpuVictim (nrCpuIds : Nat) (cpu : Int) (sameLlcOnly : Bool) (victim : Nat) : Prop :=
  victim < nrCpuIds ∧ (victim : Int) ≠ cpu ∧
    (sameLlcOnly = true → cpusShareCache env nrCpuIds cpu victim = true)

theorem domainScan_scansBest {cpu : Int} {x : BpfM Bool} {k : Kernel} {count : Nat}
    (order : List Nat) {queueOf : Nat → Nat} {victim : Nat → Prop} {f : Counters → Counters}
    (valid : isCpuValid k.nrCpuIds cpu = true)
    (body : x.run k = (if !isCpuValid k.nrCpuIds cpu || decide (count ≤ 1) then return false
      else do stealAndCount cpu (← scanHeads anyHead (order.map queueOf) none) f : BpfM Bool).run k)
    (nodup : order.Nodup) (mem : ∀ i, i ∈ order ↔ victim i) (single : count ≤ 1 → order = []) :
    ScansBest x (stealAndCount cpu · f) queueOf victim
      (fun q => ∃ i, victim i ∧ queueOf i = q) k := by
  have best := select_bestHead k.queues anyHead (order.map queueOf)
    (fun q => ∃ i, victim i ∧ queueOf i = q) (by simp [mem, anyHead])
  refine ⟨order, _, nodup, mem, best, ?_⟩
  rw [body]
  by_cases few : count ≤ 1
  · rw [if_pos (by simp [few]), single few]
    simp [candidates, scanTouched, Kernel.touchAll_nil, Selection.select, stealAndCount, stealBest]
  · rw [if_neg (by simp [valid, few])]
    simp only [run_then, scanHeads_run]

theorem stealRemoteLlc_scansBest {cpu : Int} {k : Kernel} (sameNodeOnly : Bool)
    (valid : isCpuValid k.nrCpuIds cpu = true) :
    ScansBest (stealRemoteLlc ro cpu sameNodeOnly) (stealAndCount cpu · countXllcSteal) llcToDsq
      (LlcVictim ro k.nrCpuIds cpu sameNodeOnly)
      (fun q => ∃ i, LlcVictim ro k.nrCpuIds cpu sameNodeOnly i ∧ llcToDsq i = q) k := by
  apply domainScan_scansBest (llcVictims ro k.nrCpuIds cpu sameNodeOnly) valid rfl
  · exact (rotation_nodup ro.llcs_le).filter _
  · intro i
    have walk := mem_rotation (i := i) (cpuLlcIdxFor_lt ro k.nrCpuIds cpu) ro.llcs_le
    simp only [llcVictims, List.mem_filter, walk, LlcVictim, and_assoc]
    cases sameNodeOnly <;> simp
  · intro single
    rw [llcVictims, rotation_of_count_le single, List.filter_nil]

theorem stealRemoteNode_scansBest {cpu : Int} {k : Kernel}
    (valid : isCpuValid k.nrCpuIds cpu = true) :
    ScansBest (stealRemoteNode ro cpu) (stealAndCount cpu · countXnodeSteal) nodeToDsq
      (NodeVictim ro k.nrCpuIds cpu)
      (fun q => ∃ i, NodeVictim ro k.nrCpuIds cpu i ∧ nodeToDsq i = q) k := by
  apply domainScan_scansBest (nodeVictims ro k.nrCpuIds cpu) valid rfl
  · exact rotation_nodup ro.nodes_le
  · intro i
    exact mem_rotation (cpuNodeIdxFor_lt ro k.nrCpuIds cpu) ro.nodes_le
  · exact rotation_of_count_le

/-- A CPU's queue counts when nothing at its head bars the thief. -/
def CpuExamined (k : Kernel) (cpu : Int) (sameLlcOnly : Bool) (q : Nat) : Prop :=
  ∃ i, CpuVictim env k.nrCpuIds cpu sameLlcOnly i ∧ cpuToDsq k.nrCpuIds (i : Nat) = q ∧
    ∀ p, (k.dsq q).head? = some p → (k.task p).cpusPtr cpu = true

theorem stealRemoteCpu_scansBest {cpu : Int} {k : Kernel} (sameLlcOnly : Bool)
    (valid : isCpuValid k.nrCpuIds cpu = true) :
    ScansBest (stealRemoteCpu env cpu sameLlcOnly) (stealBest cpu)
      (fun i => cpuToDsq k.nrCpuIds (i : Nat)) (CpuVictim env k.nrCpuIds cpu sameLlcOnly)
      (CpuExamined env k cpu sameLlcOnly) k := by
  have mem : ∀ i, i ∈ cpuVictims env k.nrCpuIds cpu sameLlcOnly ↔
      CpuVictim env k.nrCpuIds cpu sameLlcOnly i := by
    intro i
    simp only [cpuVictims, List.mem_filter, List.mem_range, CpuVictim]
    cases sameLlcOnly <;> simp
  have best := select_bestHead k.queues (k.allows cpu)
    (cpuQueues env k.nrCpuIds cpu sameLlcOnly) (CpuExamined env k cpu sameLlcOnly) (by
      intro q
      simp only [cpuQueues, List.mem_map, mem, CpuExamined, Kernel.allows, Kernel.queues_dsq]
      constructor
      · rintro ⟨i, victim, rfl, fits⟩
        exact ⟨⟨i, victim, rfl⟩, fits⟩
      · rintro ⟨⟨i, victim, rfl⟩, fits⟩
        exact ⟨i, victim, rfl, fits⟩)
  refine ⟨cpuVictims env k.nrCpuIds cpu sameLlcOnly, _, List.nodup_range.filter _, mem, best, ?_⟩
  simp only [stealRemoteCpu, run_then, run_getThe, valid, Bool.not_true, Bool.false_eq_true,
    if_false, scanHeads_run, cpuQueues]

/-- Every steal pass of a valid CPU examines the victims it should, each once, and
commits to the head with the least `dsq_vtime`, the deeper queue in a tie. -/
theorem steal_scans_best (cpu : Int) (k : Kernel) (valid : isCpuValid k.nrCpuIds cpu = true) :
    (∀ sameNodeOnly, ScansBest (stealRemoteLlc ro cpu sameNodeOnly)
      (stealAndCount cpu · countXllcSteal) llcToDsq (LlcVictim ro k.nrCpuIds cpu sameNodeOnly)
      (fun q => ∃ i, LlcVictim ro k.nrCpuIds cpu sameNodeOnly i ∧ llcToDsq i = q) k) ∧
    ScansBest (stealRemoteNode ro cpu) (stealAndCount cpu · countXnodeSteal) nodeToDsq
      (NodeVictim ro k.nrCpuIds cpu)
      (fun q => ∃ i, NodeVictim ro k.nrCpuIds cpu i ∧ nodeToDsq i = q) k ∧
    ∀ sameLlcOnly, ScansBest (stealRemoteCpu env cpu sameLlcOnly) (stealBest cpu)
      (fun i => cpuToDsq k.nrCpuIds (i : Nat)) (CpuVictim env k.nrCpuIds cpu sameLlcOnly)
      (CpuExamined env k cpu sameLlcOnly) k :=
  ⟨fun sameNodeOnly => stealRemoteLlc_scansBest ro sameNodeOnly valid,
    stealRemoteNode_scansBest ro valid,
    fun sameLlcOnly => stealRemoteCpu_scansBest env sameLlcOnly valid⟩

end

/-- CPU 0 is idle; two tasks wait for CPU 1. -/
def busyNeighbour : Kernel :=
  { (Kernel.boot fun _ => .waiting (fun _ => true) 9).setDsq 1 [7, 8] with nrCpuIds := 2 }

theorem steal_scans_best_busyNeighbour :
    ScansBest (stealRemoteCpu (Env.busy 2 1000 0) 0 false) (stealBest 0)
      (fun i => cpuToDsq 2 (i : Nat)) (CpuVictim (Env.busy 2 1000 0) 2 0 false)
      (CpuExamined (Env.busy 2 1000 0) busyNeighbour 0 false) busyNeighbour :=
  (steal_scans_best (.kernelOnly .flat) (Env.busy 2 1000 0) 0 busyNeighbour (by decide)).2.2 false

end Cognis.Bpf
