import Cognis.Bpf.Arrivals

/-! Which tasks one dispatch can reach: the tiers of the CPU itself are tried one
after the other, a steal pass commits to the queue with the best head. -/
namespace Cognis.Bpf
open StateLogic

theorem HeadAllowed.holds_landed {w : View} {cpu : Int} {q : Nat} (h : HeadAllowed w.now cpu q) :
    w.landed.Holds cpu q := by
  obtain ⟨p, head, allowed⟩ := h
  refine ⟨p, View.mem_landed.mpr (.inl (List.mem_of_head? head)), ?_⟩
  rwa [View.landed_task]

/-- A pass over CPUs that commits to a queue finds a task there. -/
theorem cpuPass_nil {w : View} {cpu : Int} {qs : List Nat}
    (none : ∀ q ∈ passOrder w.now cpu (fun p => (w.now.task p).cpusPtr cpu) qs,
      ¬ w.landed.Holds cpu q) :
    passOrder w.now cpu (fun p => (w.now.task p).cpusPtr cpu) qs = [] := by
  refine List.eq_nil_iff_forall_not_mem.mpr fun q member => none q member ?_
  rw [passOrder] at member
  split at member
  · exact (leaderQueue_allowed member).2.holds_landed
  · cases member

section

variable (ro : Rodata) (env : Env)

/-- A task that may run on `cpu` went from some queue to its local queue. -/
def Queues.Served (v w : Queues) (cpu : Int) : Prop :=
  ∃ q p, (v.task p).cpusPtr cpu = true ∧ v.Moved w cpu q p

/-- What a steal pass can reach. A per-CPU victim must show a task for `cpu` as its head, and
among LLCs or nodes only the queue with the leading head is searched. -/
def StealReaches (w : View) (cpu : Int) : Prop :=
  isCpuValid w.now.nrCpuIds cpu = true ∧
    ((∃ q ∈ cpuQueues env w.now.nrCpuIds cpu false, HeadAllowed w.now cpu q) ∨
      LeaderHolds w.landed cpu anyHead (llcQueues ro w.now.nrCpuIds cpu true) ∨
      LeaderHolds w.landed cpu anyHead (nodeQueues ro w.now.nrCpuIds cpu) ∨
      LeaderHolds w.landed cpu anyHead (llcQueues ro w.now.nrCpuIds cpu false))

/-- Some attempt of the dispatch finds a task. The own tiers that show a head are searched to
the end; the steal passes come after the moves from them. -/
def Reaches (w : View) (cpu : Int) : Prop :=
  (∃ q ∈ ownTiers ro w.now.nrCpuIds cpu, w.now.dsq q ≠ [] ∧ w.landed.Holds cpu q) ∨
    StealReaches ro env (w.after (tierOrder ro w.now cpu)) cpu

variable {ro env} in
/-- An insertion that is only pending is not for a cache domain or a node. -/
theorem leaderQueue_settled {w : View} (low : ∀ e ∈ w.pending, e.1 ≤ sharedDsq) {qs : List Nat}
    (high : ∀ q ∈ qs, sharedDsq < q) :
    leaderQueue w.now anyHead qs = leaderQueue w.landed anyHead qs :=
  leaderQueue_congr anyHead w.landed_task.symm fun q member =>
    (View.landed_dsq_of_ne fun e pending =>
      (Nat.lt_of_le_of_lt (low e pending) (high q member)).ne).symm

theorem after_low {w : View} (low : ∀ e ∈ w.pending, e.1 ≤ sharedDsq) (qs : List Nat) :
    ∀ e ∈ (w.after qs).pending, e.1 ≤ sharedDsq := by
  intro e member
  rw [View.after] at member
  split at member
  · exact low e member
  · cases member

theorem cpuQueues_subset_all (n : Nat) (cpu : Int) :
    cpuQueues env n cpu true ⊆ cpuQueues env n cpu false := by
  intro q member
  simp only [cpuQueues, cpuVictims, List.mem_map, List.mem_filter, Bool.and_eq_true] at member ⊢
  obtain ⟨victim, ⟨range, other, _⟩, rfl⟩ := member
  exact ⟨victim, ⟨range, other, rfl⟩, rfl⟩

theorem llcQueues_gt (n : Nat) (cpu : Int) (sameNodeOnly : Bool) :
    ∀ q ∈ llcQueues ro n cpu sameNodeOnly, sharedDsq < q := by
  intro q member
  obtain ⟨i, _, rfl⟩ := List.mem_map.mp member
  exact Nat.lt_of_lt_of_le (by decide) (Nat.le_add_right llcDsqBase i)

theorem nodeQueues_gt (n : Nat) (cpu : Int) : ∀ q ∈ nodeQueues ro n cpu, sharedDsq < q := by
  intro q member
  obtain ⟨i, _, rfl⟩ := List.mem_map.mp member
  exact Nat.lt_of_lt_of_le (by decide) (Nat.le_add_right nodeDsqBase i)

/-- A pass over domains, made after other moves have failed. -/
theorem passOrder_after {w : View} {cpu : Int} (valid : isCpuValid w.now.nrCpuIds cpu = true)
    (low : ∀ e ∈ w.pending, e.1 ≤ sharedDsq) (tried : List Nat) {qs : List Nat}
    (high : ∀ q ∈ qs, sharedDsq < q) :
    passOrder (w.after tried).now cpu anyHead qs = leaderQueue w.landed anyHead qs := by
  rw [passOrder, View.after_nrCpuIds, if_pos valid, leaderQueue_settled (after_low low tried) high,
    View.after_landed]

theorem stealPasses_invalid {w : View} {cpu : Int}
    (invalid : isCpuValid w.now.nrCpuIds cpu = false) :
    w.inTurn (stealPasses ro env cpu) = [] := by
  refine List.subset_nil.mp (View.inTurn_subset fun order member v same => ?_)
  simp only [stealPasses, List.mem_cons, List.not_mem_nil, or_false] at member
  rcases member with rfl | rfl | rfl | rfl | rfl <;> simp [passOrder, same, invalid]

theorem stealReaches_iff {w : View} (cpu : Int) (low : ∀ e ∈ w.pending, e.1 ≤ sharedDsq) :
    (∃ q ∈ w.inTurn (stealPasses ro env cpu), w.landed.Holds cpu q) ↔
      StealReaches ro env w cpu := by
  cases valid : isCpuValid w.now.nrCpuIds cpu with
  | false => simp [StealReaches, valid, stealPasses_invalid ro env valid]
  | true =>
    by_cases allowed : ∃ q ∈ cpuQueues env w.now.nrCpuIds cpu false, HeadAllowed w.now cpu q
    · refine iff_of_true ?_ ⟨valid, .inl allowed⟩
      obtain ⟨q, victim, head⟩ := allowed
      by_contra none
      simp only [not_exists, not_and, stealPasses, View.inTurn, List.mem_append, or_imp,
        forall_and] at none
      -- A pass that finds nothing has committed to nothing, so the next one sees the same heads.
      obtain ⟨near, all, _⟩ := none
      rw [cpuPass_nil near, View.after_nil] at all
      have committed := leaderQueue_ne_nil victim head
      have nothing := cpuPass_nil all
      rw [passOrder, if_pos valid] at nothing
      exact committed nothing
    · have pass : ∀ qs, qs ⊆ cpuQueues env w.now.nrCpuIds cpu false →
          passOrder w.now cpu (fun p => (w.now.task p).cpusPtr cpu) qs = [] := by
        refine fun qs victims => List.eq_nil_iff_forall_not_mem.mpr fun q member => ?_
        rw [passOrder, if_pos valid] at member
        obtain ⟨victim, head⟩ := leaderQueue_allowed member
        exact allowed ⟨q, victims victim, head⟩
      rw [StealReaches, valid, eq_self_iff_true, true_and, or_iff_right allowed]
      simp only [stealPasses, View.inTurn, pass _ (cpuQueues_subset_all env _ cpu),
        pass _ (List.Subset.refl _), View.after_nil, List.nil_append, View.after_append,
        View.after_nrCpuIds, List.append_nil]
      have first := passOrder_after valid low [] (llcQueues_gt ro w.now.nrCpuIds cpu true)
      have second := passOrder_after valid low (leaderQueue w.landed anyHead
        (llcQueues ro w.now.nrCpuIds cpu true)) (nodeQueues_gt ro w.now.nrCpuIds cpu)
      rw [View.after_nil] at first
      rw [first, second, passOrder_after valid low _ (llcQueues_gt ro w.now.nrCpuIds cpu false)]
      simp only [leaderHolds_iff, List.mem_append, or_and_right, exists_or]

variable {ro env} in
theorem reaches_iff {w : View} {cpu : Int} (low : ∀ e ∈ w.pending, e.1 ≤ sharedDsq) :
    (∃ q ∈ w.inTurn ((tierOrder ro · cpu) :: stealPasses ro env cpu), w.landed.Holds cpu q) ↔
      Reaches ro env w cpu := by
  have steals := stealReaches_iff ro env cpu (after_low low (tierOrder ro w.now cpu))
  rw [View.after_landed] at steals
  simp only [View.inTurn, List.mem_append, or_and_right, exists_or, steals, mem_tierOrder,
    Reaches, and_assoc]

theorem dispatch_served_iff {cpu : Int} (prev : Option Nat) {k : Kernel} (fresh : k.Fresh)
    (rests : ¬ UserschedRuns ro env k cpu) :
    (k.landed env).Served ((opsDispatch ro env cpu prev).run k).2.queues cpu ↔
      Reaches ro env (k.shown ro env) cpu := by
  have spec := dispatch_rests prev fresh rests
  rw [← reaches_iff (shown_low ro env k), shown_landed, ← Kernel.tried]
  cases found : (k.landed env).source cpu (k.tried ro env cpu) with
  | none =>
    simp only [found] at spec
    refine iff_of_false (fun ⟨q, p, _, moved⟩ => moved.ne spec) fun ⟨q, member, holds⟩ => ?_
    exact Queues.source_eq_none.mp found q member holds
  | some e =>
    simp only [found] at spec
    obtain ⟨member, first⟩ := Queues.source_mem found
    obtain ⟨waits, allowed⟩ := Queues.mem_of_firstAllowed first
    exact iff_of_true ⟨e.1, e.2, allowed, spec ▸ .deliver waits⟩ ⟨e.1, member, e.2, waits, allowed⟩

end

end Cognis.Bpf
