import Mathlib.Data.Prod.Lex
import Mathlib.Data.List.Basic
import Mathlib.Data.List.TakeWhile
import Mathlib.Data.Nat.Basic
import Cognis.Lib.Selection
import Cognis.Bpf.Moves
import Cognis.Bpf.Placement

/-! The three steal passes. Each scans the heads of a list of victim queues,
keeps the best one, and tries to move a task from that queue only. -/
namespace Cognis.Bpf
open StateLogic

/-- Head of a victim queue: the task, the depth and the id of the queue. -/
structure Candidate where
  task : Nat
  depth : Nat
  dsq : Nat
deriving DecidableEq

/-- Earlier head deadline first, then the deeper queue; anything beats nothing. -/
def isRemoteHeadBetter (vtimeOf : Nat → U64) (candidate : Candidate) : Option Candidate → Bool
  | none => true
  | some best =>
    if vtimeOf candidate.task ≠ vtimeOf best.task then
      decide (vtimeOf candidate.task < vtimeOf best.task)
    else decide (candidate.depth > best.depth)

/-- The loop body shared by the steal passes. `accept` is the extra test on the
head that only the per-CPU pass makes. -/
def scanHeads (accept : Nat → Bool) : List Nat → Option Candidate → BpfM (Option Candidate)
  | [], best => return best
  | q :: qs, best => do
    let candidateDepth ← scxBpfDsqNrQueued q
    if candidateDepth = 0 then scanHeads accept qs best
    else
      match ← scxBpfDsqPeek q with
      | none => scanHeads accept qs best
      | some p =>
        let k ← get
        let candidate := ⟨p, candidateDepth, q⟩
        if accept p && isRemoteHeadBetter (fun r => (k.task r).dsqVtime) candidate best then
          scanHeads accept qs (some candidate)
        else scanHeads accept qs best

def stealBest (cpu : Int) (best : Option Candidate) : BpfM Bool :=
  match best with
  | none => return false
  | some b => scxBpfDsqMoveToLocal cpu b.dsq

def stealAndCount (cpu : Int) (best : Option Candidate) (f : Counters → Counters) :
    BpfM Bool := do
  if ← stealBest cpu best then
    countOne f
    return true
  return false

/-- `own + i` for `i = 1, 2, …`, wrapped once, until `i` reaches the count. -/
def rotation (own count limit : Nat) : List Nat :=
  ((List.range' 1 (limit - 1)).takeWhile (· < count)).map fun i =>
    let victim := own + i
    if victim ≥ count then victim - count else victim

section

variable (ro : Rodata) (env : Env)

/-- LLC and node victims are not tested for affinity. -/
def anyHead : Nat → Bool := fun _ => true

def llcVictims (nrCpuIds : Nat) (cpu : Int) (sameNodeOnly : Bool) : List Nat :=
  (rotation (cpuLlcIdxFor ro nrCpuIds cpu) ro.nrLlcs maxLlcs).filter fun victim =>
    !(sameNodeOnly && llcNodeIdxFor ro victim != cpuNodeIdxFor ro nrCpuIds cpu)

def nodeVictims (nrCpuIds : Nat) (cpu : Int) : List Nat :=
  rotation (cpuNodeIdxFor ro nrCpuIds cpu) ro.nrNodes maxNodes

def cpuVictims (nrCpuIds : Nat) (cpu : Int) (sameLlcOnly : Bool) : List Nat :=
  (List.range nrCpuIds).filter fun victim =>
    !((victim : Int) == cpu) && !(sameLlcOnly && !cpusShareCache env nrCpuIds cpu victim)

def llcQueues (nrCpuIds : Nat) (cpu : Int) (sameNodeOnly : Bool) : List Nat :=
  (llcVictims ro nrCpuIds cpu sameNodeOnly).map llcToDsq

def nodeQueues (nrCpuIds : Nat) (cpu : Int) : List Nat :=
  (nodeVictims ro nrCpuIds cpu).map nodeToDsq

def cpuQueues (nrCpuIds : Nat) (cpu : Int) (sameLlcOnly : Bool) : List Nat :=
  (cpuVictims env nrCpuIds cpu sameLlcOnly).map fun victim => cpuToDsq nrCpuIds (victim : Nat)

def stealRemoteLlc (cpu : Int) (sameNodeOnly : Bool) : BpfM Bool := do
  let nrCpuIds := (← get).nrCpuIds
  if !isCpuValid nrCpuIds cpu || decide (ro.nrLlcs ≤ 1) then return false
  let best ← scanHeads anyHead (llcQueues ro nrCpuIds cpu sameNodeOnly) none
  stealAndCount cpu best fun c => { c with xllcSteals := c.xllcSteals + 1 }

def stealRemoteCpu (cpu : Int) (sameLlcOnly : Bool) : BpfM Bool := do
  let k ← get
  if !isCpuValid k.nrCpuIds cpu then return false
  let best ← scanHeads (k.allows cpu) (cpuQueues env k.nrCpuIds cpu sameLlcOnly) none
  stealBest cpu best

def stealRemoteNode (cpu : Int) : BpfM Bool := do
  let nrCpuIds := (← get).nrCpuIds
  if !isCpuValid nrCpuIds cpu || decide (ro.nrNodes ≤ 1) then return false
  let best ← scanHeads anyHead (nodeQueues ro nrCpuIds cpu) none
  stealAndCount cpu best fun c => { c with xnodeSteals := c.xnodeSteals + 1 }

end

/-- Least deadline first, then the deeper queue. -/
def headKey (v : Queues) (c : Candidate) : ℕ ×ₗ ℕᵒᵈ :=
  toLex ((v.task c.task).dsqVtime.toNat, OrderDual.toDual c.depth)

theorem isRemoteHeadBetter_some (v : Queues) (c b : Candidate) :
    isRemoteHeadBetter (fun r => (v.task r).dsqVtime) c (some b) = true ↔
      headKey v c < headKey v b := by
  simp only [isRemoteHeadBetter, headKey, Prod.Lex.toLex_lt_toLex, OrderDual.toDual_lt_toDual]
  by_cases eq : (v.task c.task).dsqVtime = (v.task b.task).dsqVtime
  · simp [eq]
  · have ne : (v.task c.task).dsqVtime.toNat ≠ (v.task b.task).dsqVtime.toNat :=
      fun h => eq (BitVec.eq_of_toNat_eq h)
    simp [eq, ne, BitVec.lt_def]

/-- The head of `q`, if there is one and it is accepted. -/
def candidate (v : Queues) (accept : Nat → Bool) (q : Nat) : Option Candidate :=
  match v.dsq q with
  | [] => none
  | p :: _ => if accept p then some ⟨p, (v.dsq q).length, q⟩ else none

def candidates (v : Queues) (accept : Nat → Bool) (qs : List Nat) : List Candidate :=
  qs.filterMap (candidate v accept)

/-- Every victim is queried once; a non-empty one is peeked as well. -/
def scanTouched (v : Queues) (qs : List Nat) : List Nat :=
  qs.flatMap fun q =>
    match v.dsq q with
    | [] => [q]
    | _ :: _ => [q, q]

theorem scanTouched_subset (v : Queues) (qs : List Nat) : scanTouched v qs ⊆ qs := by
  intro q member
  obtain ⟨r, inside, touched⟩ := List.mem_flatMap.mp member
  split at touched <;> simp_all

theorem keep_eq (v : Queues) (c : Candidate) (best : Option Candidate) :
    Selection.keep (headKey v) best c =
      if isRemoteHeadBetter (fun r => (v.task r).dsqVtime) c best then some c else best := by
  cases best with
  | none => rfl
  | some b =>
    by_cases better : headKey v c < headKey v b
    · simp only [Selection.keep, if_pos better, (isRemoteHeadBetter_some v c b).mpr better, if_true]
    · have worse := mt (isRemoteHeadBetter_some v c b).mp better
      simp only [Selection.keep, if_neg better, if_neg worse]

theorem scanHeads_cons (accept : Nat → Bool) {q p : Nat} {ps : List Nat} (qs : List Nat)
    (best : Option Candidate) {k : Kernel} (queue : k.dsq q = p :: ps) :
    (scanHeads accept (q :: qs) best).run k =
      (scanHeads accept qs (if accept p then
        Selection.keep (headKey k.queues) best ⟨p, (k.dsq q).length, q⟩ else best)).run
        ((k.touch q).touch q) := by
  cases accepted : accept p <;>
    simp only [scanHeads, run_then, scxBpfDsqNrQueued_run, scxBpfDsqPeek_run, ↓run_ite, queue,
      Kernel.touch_dsq, List.head?_cons, List.length_cons, Nat.succ_ne_zero, if_false, run_getThe,
      accepted, Bool.false_and, Bool.true_and, Bool.false_eq_true, keep_eq, if_true,
      Kernel.queues_task, Kernel.touch_task]
  split <;> rfl

theorem scanHeads_run (accept : Nat → Bool) (qs : List Nat) (best : Option Candidate) (k : Kernel) :
    (scanHeads accept qs best).run k =
      (Selection.select (headKey k.queues) best (candidates k.queues accept qs),
        k.touchAll (scanTouched k.queues qs)) := by
  induction qs generalizing best k with
  | nil => simp [scanHeads, candidates, scanTouched, Selection.select, Kernel.touchAll_nil]
  | cons q qs ih =>
    by_cases empty : k.dsq q = []
    · simp [scanHeads, scxBpfDsqNrQueued_run, empty, ih, candidates, candidate, scanTouched,
        Kernel.touchAll_cons]
    · obtain ⟨p, ps, queue⟩ := List.exists_cons_of_ne_nil empty
      rw [scanHeads_cons accept qs best queue, ih]
      cases accepted : accept p <;>
        simp [candidates, candidate, scanTouched, queue, accepted, Kernel.touchAll_cons,
          Selection.select]

/-- The queue that a scan of `qs` commits to, if any. -/
def leaderQueue (v : Queues) (accept : Nat → Bool) (qs : List Nat) : List Nat :=
  ((Selection.select (headKey v) none (candidates v accept qs)).map Candidate.dsq).toList

/-- The queue that a scan of `qs` commits to holds a task for `cpu`. -/
def LeaderHolds (v : Queues) (cpu : Int) (accept : Nat → Bool) (qs : List Nat) : Prop :=
  ∃ c, Selection.Leads (headKey v) (candidates v accept qs) c ∧ v.Holds cpu c.dsq

theorem mem_leaderQueue {v : Queues} {accept : Nat → Bool} {qs : List Nat} {q : Nat} :
    q ∈ leaderQueue v accept qs ↔
      ∃ c, Selection.Leads (headKey v) (candidates v accept qs) c ∧ c.dsq = q := by
  simp only [leaderQueue, Option.mem_toList, Option.map_eq_some_iff, Selection.select_eq_some_iff]

theorem leaderHolds_iff {v : Queues} {cpu : Int} {accept : Nat → Bool} {qs : List Nat} :
    LeaderHolds v cpu accept qs ↔ ∃ q ∈ leaderQueue v accept qs, v.Holds cpu q := by
  constructor
  · rintro ⟨c, leads, holds⟩
    exact ⟨c.dsq, mem_leaderQueue.mpr ⟨c, leads, rfl⟩, holds⟩
  · rintro ⟨q, member, holds⟩
    obtain ⟨c, leads, rfl⟩ := mem_leaderQueue.mp member
    exact ⟨c, leads, holds⟩

/-- A scan depends on the victim queues and on the deadlines alone. -/
theorem leaderQueue_congr {v w : Queues} (accept : Nat → Bool) {qs : List Nat}
    (task : v.task = w.task) (dsq : ∀ q ∈ qs, v.dsq q = w.dsq q) :
    leaderQueue v accept qs = leaderQueue w accept qs := by
  have heads : candidates v accept qs = candidates w accept qs :=
    List.filterMap_congr fun q member => by rw [candidate, candidate, dsq q member]
  have keys : headKey v = headKey w := funext fun c => by rw [headKey, headKey, task]
  rw [leaderQueue, leaderQueue, heads, keys]

theorem scan_tries (cpu : Int) (accept : Nat → Bool) (qs : List Nat) (k : Kernel) :
    Tries cpu (do stealBest cpu (← scanHeads accept qs none)) k
      (leaderQueue k.queues accept qs) := by
  refine Tries.afterReads (y := stealBest cpu
    (Selection.select (headKey k.queues) none (candidates k.queues accept qs)))
    (s := k.touchAll (scanTouched k.queues qs)) (by rw [run_then, scanHeads_run]) rfl ?_
  rw [leaderQueue]
  cases Selection.select (headKey k.queues) none (candidates k.queues accept qs) with
  | none => exact Tries.never
  | some c => exact Tries.moveToLocal cpu c.dsq _

theorem scanAndCount_tries (cpu : Int) (accept : Nat → Bool) (qs : List Nat)
    (f : Counters → Counters) (k : Kernel) :
    Tries cpu (do stealAndCount cpu (← scanHeads accept qs none) f) k
      (leaderQueue k.queues accept qs) := by
  refine (scan_tries cpu accept qs k).andThen (f := fun b => do
    if b then
      countOne f
      return true
    return false) fun b k => ?_
  cases b <;> exact ⟨rfl, rfl⟩

/-- A pass gives up on an invalid CPU. -/
def passOrder (v : Queues) (cpu : Int) (accept : Nat → Bool) (qs : List Nat) : List Nat :=
  if isCpuValid v.nrCpuIds cpu then leaderQueue v accept qs else []

theorem rotation_of_count_le {own count limit : Nat} (single : count ≤ 1) :
    rotation own count limit = [] := by
  have stop : (List.range' 1 (limit - 1)).takeWhile (· < count) = [] := by
    cases limit - 1 with
    | zero => rfl
    | succ n =>
      have done : ¬ 1 < count := by omega
      simp [List.range'_succ, done]
  simp [rotation, stop]

/-- A pass over rotated victims: it gives up on a single domain as well. -/
theorem domainScan_tries (cpu : Int) (x : BpfM Bool) (count : Nat) (qs : List Nat)
    (f : Counters → Counters) (single : count ≤ 1 → qs = []) {k : Kernel}
    (body : x.run k = (if !isCpuValid k.nrCpuIds cpu || decide (count ≤ 1) then return false
      else do stealAndCount cpu (← scanHeads anyHead qs none) f : BpfM Bool).run k) :
    Tries cpu x k (passOrder k.queues cpu anyHead qs) := by
  rw [passOrder, Kernel.queues_nrCpuIds]
  refine Tries.afterReads body rfl ?_
  cases isCpuValid k.nrCpuIds cpu with
  | false => exact Tries.never
  | true =>
    by_cases few : count ≤ 1
    · simp only [single few, few, decide_true, Bool.or_true, if_true]
      exact Tries.never
    · simp only [few, decide_false, Bool.not_true, Bool.or_false, Bool.false_eq_true, if_false,
        if_true]
      exact scanAndCount_tries cpu anyHead qs f k

theorem rotation_lt {own count limit victim : Nat} (inside : own < count)
    (member : victim ∈ rotation own count limit) : victim < count := by
  obtain ⟨i, taken, rfl⟩ := List.mem_map.mp member
  have below : i < count := by simpa using (List.mem_takeWhile_imp taken)
  dsimp only
  split <;> omega

section

variable (ro : Rodata) (env : Env) (n : Nat) (cpu : Int)

theorem llcQueues_subset (sameNodeOnly : Bool) :
    llcQueues ro n cpu sameNodeOnly ⊆ taskDsqs ro n := by
  intro q member
  obtain ⟨victim, picked, rfl⟩ := List.mem_map.mp member
  have rotated := (List.mem_filter.mp picked).1
  exact llcToDsq_mem ro n (rotation_lt (cpuLlcIdxFor_lt ro n cpu) rotated)

theorem nodeQueues_subset : nodeQueues ro n cpu ⊆ taskDsqs ro n := by
  intro q member
  obtain ⟨victim, rotated, rfl⟩ := List.mem_map.mp member
  exact nodeToDsq_mem ro n (rotation_lt (cpuNodeIdxFor_lt ro n cpu) rotated)

theorem cpuQueues_subset (sameLlcOnly : Bool) :
    cpuQueues env n cpu sameLlcOnly ⊆ taskDsqs ro n := by
  intro q member
  obtain ⟨victim, _, rfl⟩ := List.mem_map.mp member
  exact cpuToDsq_mem ro n _

end

section

variable (ro : Rodata) (env : Env)

theorem stealRemoteLlc_tries (cpu : Int) (sameNodeOnly : Bool) (k : Kernel) :
    Tries cpu (stealRemoteLlc ro cpu sameNodeOnly) k
      (passOrder k.queues cpu anyHead (llcQueues ro k.nrCpuIds cpu sameNodeOnly)) := by
  refine domainScan_tries cpu _ ro.nrLlcs _ (fun c => { c with xllcSteals := c.xllcSteals + 1 })
    (fun single => ?_) rfl
  simp [llcQueues, llcVictims, rotation_of_count_le single]

theorem stealRemoteNode_tries (cpu : Int) (k : Kernel) :
    Tries cpu (stealRemoteNode ro cpu) k
      (passOrder k.queues cpu anyHead (nodeQueues ro k.nrCpuIds cpu)) := by
  refine domainScan_tries cpu _ ro.nrNodes _ (fun c => { c with xnodeSteals := c.xnodeSteals + 1 })
    (fun single => ?_) rfl
  simp [nodeQueues, nodeVictims, rotation_of_count_le single]

theorem stealRemoteCpu_tries (cpu : Int) (sameLlcOnly : Bool) (k : Kernel) :
    Tries cpu (stealRemoteCpu env cpu sameLlcOnly) k
      (passOrder k.queues cpu (k.allows cpu) (cpuQueues env k.nrCpuIds cpu sameLlcOnly)) := by
  rw [passOrder, Kernel.queues_nrCpuIds]
  refine Tries.afterReads (y := if !isCpuValid k.nrCpuIds cpu then return false
    else do stealBest cpu (← scanHeads (k.allows cpu)
      (cpuQueues env k.nrCpuIds cpu sameLlcOnly) none)) rfl rfl ?_
  cases isCpuValid k.nrCpuIds cpu with
  | false => exact Tries.never
  | true => exact scan_tries cpu _ _ k

def HeadAllowed (v : Queues) (cpu : Int) (q : Nat) : Prop :=
  ∃ p, (v.dsq q).head? = some p ∧ (v.task p).cpusPtr cpu = true

theorem mem_candidates {v : Queues} {accept : Nat → Bool} {qs : List Nat} {c : Candidate} :
    c ∈ candidates v accept qs ↔
      c.dsq ∈ qs ∧ (v.dsq c.dsq).head? = some c.task ∧ accept c.task = true ∧
        c.depth = (v.dsq c.dsq).length := by
  simp only [candidates, List.mem_filterMap]
  constructor
  · rintro ⟨q, member, found⟩
    unfold candidate at found
    split at found
    · contradiction
    · rename_i p ps queue
      split at found
      · rename_i accepted
        cases Option.some.inj found
        exact ⟨member, by simp [queue], accepted, rfl⟩
      · contradiction
  · obtain ⟨p, depth, q⟩ := c
    rintro ⟨member, head, accepted, deep⟩
    obtain ⟨ps, queue⟩ := List.head?_eq_some_iff.mp head
    refine ⟨q, member, ?_⟩
    simp only at queue accepted deep
    simp [candidate, queue, accepted, deep]

/-- Only the per-CPU pass never commits to a queue in vain. -/
theorem leaderQueue_allowed {v : Queues} {cpu : Int} {qs : List Nat} {q : Nat}
    (chosen : q ∈ leaderQueue v (fun p => (v.task p).cpusPtr cpu) qs) :
    q ∈ qs ∧ HeadAllowed v cpu q := by
  obtain ⟨c, leads, rfl⟩ := mem_leaderQueue.mp chosen
  obtain ⟨member, head, allowed, _⟩ := mem_candidates.mp (Selection.leads_mem _ leads)
  exact ⟨member, c.task, head, allowed⟩

theorem leaderQueue_ne_nil {v : Queues} {cpu : Int} {qs : List Nat} {q : Nat} (victim : q ∈ qs)
    (allowed : HeadAllowed v cpu q) :
    leaderQueue v (fun p => (v.task p).cpusPtr cpu) qs ≠ [] := by
  obtain ⟨p, head, allowed⟩ := allowed
  have offered : ⟨p, (v.dsq q).length, q⟩ ∈ candidates v (fun p => (v.task p).cpusPtr cpu) qs :=
    mem_candidates.mpr ⟨victim, head, allowed, rfl⟩
  obtain ⟨c, leads⟩ := Selection.exists_leads (headKey v) (List.ne_nil_of_mem offered)
  exact List.ne_nil_of_mem (mem_leaderQueue.mpr ⟨c, leads, rfl⟩)

end

end Cognis.Bpf
