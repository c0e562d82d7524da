import Cognis.Bpf.System

/-! Every enqueue inserts its task once, and the routing counters count the insertions
by the tier of their target. -/
namespace Cognis.Bpf
open StateLogic Runs

/-- The queue of a CPU: the scheduler's own or the kernel's local one. -/
def inCpuTier (q : Nat) : Bool := decide (q < sharedDsq) || decide (scxDsqLocalOn ≤ q)

section

variable (ro : Rodata)

def inLlcTier (q : Nat) : Bool := ((List.range ro.nrLlcs).map llcToDsq).contains q

def inNodeTier (q : Nat) : Bool := ((List.range ro.nrNodes).map nodeToDsq).contains q

/-- How many of the insertions pass the test, modulo `2 ^ 64`. -/
def insertCount (inserts : List (Nat × Nat)) (test : Nat × Nat → Bool) : U64 :=
  BitVec.ofNat 64 (inserts.countP test)

/-- The counters of the enqueue side count the insertions, in total and by tier. -/
structure RoutingExact (k : Kernel) : Prop where
  kernel : k.counters.kernelDispatches =
    insertCount k.inserts fun e => !isUserschedTask ro e.2
  cpu : k.counters.localDispatches = insertCount k.inserts fun e => inCpuTier e.1
  llc : k.counters.llcDispatches = insertCount k.inserts fun e => inLlcTier ro e.1
  node : k.counters.nodeDispatches = insertCount k.inserts fun e => inNodeTier ro e.1
  shared : k.counters.sharedDispatches = insertCount k.inserts fun e => e.1 == sharedDsq
  sum : k.counters.kernelDispatches = k.counters.localDispatches + k.counters.llcDispatches +
    k.counters.nodeDispatches + k.counters.sharedDispatches

def bit (b : Bool) : U64 := if b then 1 else 0

theorem add_bit_true (x : U64) : x + bit true = x + 1 := rfl

theorem add_bit_false (x : U64) : x + bit false = x := by simp [bit]

theorem insertCount_snoc (inserts : List (Nat × Nat)) (e : Nat × Nat) (test : Nat × Nat → Bool) :
    insertCount (inserts ++ [e]) test = insertCount inserts test + bit (test e) := by
  cases passes : test e <;>
    simp [insertCount, bit, List.countP_append, passes, BitVec.ofNat_add]

theorem inLlcTier_iff {q : Nat} :
    inLlcTier ro q = true ↔ llcDsqBase ≤ q ∧ q < llcDsqBase + ro.nrLlcs := by
  simp only [inLlcTier, List.contains_iff_mem, List.mem_map, List.mem_range, llcToDsq]
  constructor
  · rintro ⟨i, below, rfl⟩
    omega
  · rintro ⟨low, high⟩
    exact ⟨q - llcDsqBase, by omega, by omega⟩

theorem inNodeTier_iff {q : Nat} :
    inNodeTier ro q = true ↔ nodeDsqBase ≤ q ∧ q < nodeDsqBase + ro.nrNodes := by
  simp only [inNodeTier, List.contains_iff_mem, List.mem_map, List.mem_range, nodeToDsq]
  constructor
  · rintro ⟨i, below, rfl⟩
    omega
  · rintro ⟨low, high⟩
    exact ⟨q - nodeDsqBase, by omega, by omega⟩

theorem inCpuTier_iff {q : Nat} : inCpuTier q = true ↔ q < sharedDsq ∨ scxDsqLocalOn ≤ q := by
  rw [inCpuTier, Bool.or_eq_true, decide_eq_true_eq, decide_eq_true_eq]

theorem taskDsqs_cases {n q : Nat} (known : q ∈ taskDsqs ro n) :
    q ≤ sharedDsq ∨ inLlcTier ro q = true ∨ inNodeTier ro q = true := by
  simp only [taskDsqs, List.mem_append] at known
  rcases known with ((cpu | llc) | node) | shared
  · obtain ⟨i, _, rfl⟩ := List.mem_map.mp cpu
    exact .inl (cpuToDsq_le n _)
  · exact .inr (.inl (List.contains_iff_mem.mpr llc))
  · exact .inr (.inr (List.contains_iff_mem.mpr node))
  · exact .inl (List.mem_singleton.mp shared).le

/-- The code's ranges agree with the tiers on every queue it can insert into. -/
theorem tier_ranges {n q : Nat} (known : q ∈ taskDsqs ro n ∨ scxDsqLocalOn ≤ q) :
    (inLlcTier ro q = true ↔ q ≥ llcDsqBase ∧ q < llcDsqBase + maxLlcs) ∧
      (inNodeTier ro q = true ↔ q ≥ nodeDsqBase ∧ q < nodeDsqBase + maxNodes) ∧
      (inCpuTier q = true ↔ q ≠ sharedDsq ∧ ¬ (q ≥ nodeDsqBase ∧ q < nodeDsqBase + maxNodes) ∧
        ¬ (q ≥ llcDsqBase ∧ q < llcDsqBase + maxLlcs)) := by
  have llcs := ro.llcs_le
  have nodes := ro.nodes_le
  have cases : q ≤ sharedDsq ∨ inLlcTier ro q = true ∨ inNodeTier ro q = true ∨
      scxDsqLocalOn ≤ q := by
    rcases known with known | local_
    · rcases taskDsqs_cases ro known with low | llc | node
      · exact .inl low
      · exact .inr (.inl llc)
      · exact .inr (.inr (.inl node))
    · exact .inr (.inr (.inr local_))
  rw [inLlcTier_iff, inNodeTier_iff] at cases
  rw [inLlcTier_iff, inNodeTier_iff, inCpuTier_iff]
  simp only [sharedDsq, nodeDsqBase, llcDsqBase, maxCpus, maxLlcs, maxNodes, scxDsqLocalOn] at *
  omega

theorem routed_routing {n q : Nat} (known : q ∈ taskDsqs ro n ∨ scxDsqLocalOn ≤ q) (c : Counters) :
    (routed q c).routing = (c.kernelDispatches + 1, c.localDispatches + bit (inCpuTier q),
      c.llcDispatches + bit (inLlcTier ro q), c.nodeDispatches + bit (inNodeTier ro q),
      c.sharedDispatches + bit (q == sharedDsq)) := by
  obtain ⟨llc, node, cpu⟩ := tier_ranges ro known
  have off : ∀ {b : Bool} {r : Prop}, (b = true ↔ r) → ¬ r → b = false := fun same no =>
    Bool.eq_false_iff.mpr (mt same.mp no)
  by_cases shared : q = sharedDsq
  · have outside : ¬ q ≥ nodeDsqBase ∧ ¬ q ≥ llcDsqBase := by
      rw [shared]
      decide
    simp only [routed, Counters.routing, if_pos shared, off llc (fun h => outside.2 h.1),
      off node (fun h => outside.1 h.1), off cpu (fun h => h.1 shared), beq_iff_eq.mpr shared,
      add_bit_true, add_bit_false]
  have elsewhere : (q == sharedDsq) = false := beq_eq_false_iff_ne.mpr shared
  by_cases inNode : q ≥ nodeDsqBase ∧ q < nodeDsqBase + maxNodes
  · have outside : ¬ q < llcDsqBase + maxLlcs := by
      have base : nodeDsqBase = llcDsqBase + maxLlcs := rfl
      omega
    simp only [routed, Counters.routing, if_neg shared, if_pos inNode, elsewhere,
      off llc (fun h => outside h.2), node.mpr inNode, off cpu (fun h => h.2.1 inNode),
      add_bit_true, add_bit_false]
  by_cases inLlc : q ≥ llcDsqBase ∧ q < llcDsqBase + maxLlcs
  · simp only [routed, Counters.routing, if_neg shared, if_neg inNode, if_pos inLlc, elsewhere,
      llc.mpr inLlc, off node inNode, off cpu (fun h => h.2.2 inLlc), add_bit_true, add_bit_false]
  · simp only [routed, Counters.routing, if_neg shared, if_neg inNode, if_neg inLlc, elsewhere,
      off llc inLlc, off node inNode, cpu.mpr ⟨shared, inNode, inLlc⟩, add_bit_true, add_bit_false]

theorem routed_sum (q : Nat) (c : Counters)
    (sum : c.kernelDispatches =
      c.localDispatches + c.llcDispatches + c.nodeDispatches + c.sharedDispatches) :
    (routed q c).kernelDispatches = (routed q c).localDispatches + (routed q c).llcDispatches +
      (routed q c).nodeDispatches + (routed q c).sharedDispatches := by
  unfold routed
  split
  · simp only [sum]
    ac_rfl
  split
  · simp only [sum]
    ac_rfl
  split
  · simp only [sum]
    ac_rfl
  · simp only [sum]
    ac_rfl

/-- What a step adds to the log of insertions, with its effect on the counters. -/
inductive Logged (n : Nat) (k k' : Kernel) : Prop
  | nothing : k'.inserts = k.inserts → k'.counters.routing = k.counters.routing → Logged n k k'
  | usersched (p : Nat) : isUserschedTask ro p = true → k'.inserts = k.inserts ++ [(schedDsq, p)] →
      k'.counters.routing = k.counters.routing → Logged n k k'
  | task (q p : Nat) : isUserschedTask ro p = false → (q ∈ taskDsqs ro n ∨ scxDsqLocalOn ≤ q) →
      k'.inserts = k.inserts ++ [(q, p)] → k'.counters = routed q k.counters → Logged n k k'

variable {ro} {env : Env}

theorem Enqueued.logged {p : Nat} {enqFlags : U64} {k k' : Kernel}
    (h : Enqueued ro env p enqFlags k k') : Logged ro k.nrCpuIds k k' := by
  cases h with
  | skipped _ => exact .nothing rfl rfl
  | usersched kicks usersched _ =>
    split
    · exact .usersched p usersched rfl rfl
    · exact .nothing rfl rfl
  | direct qs cpu slice kicks other _ _ _ => exact .task _ p other (.inr (localOn_ge cpu)) rfl rfl
  | deferred tctx qs target slice kicks _ defers known _ =>
    obtain ⟨_, _, other, _⟩ := defers
    exact .task target p other (.inl known) rfl rfl

theorem Selected.logged {p : Nat} {k : Kernel} {result : Int × Kernel}
    (h : Selected ro p k result) : Logged ro k.nrCpuIds k result.2 := by
  cases h with
  | kept _ => exact .nothing rfl rfl
  | placed qs cpu slice other _ => exact .task _ p other (.inr (localOn_ge cpu)) rfl rfl

theorem Accounted.logged {p : Nat} {k k' : Kernel} (h : Accounted p k k') :
    Logged ro k.nrCpuIds k k' := .nothing h.inserts (congrArg _ h.counters)

theorem Unchanged.logged {k k' : Kernel} (h : Unchanged k k') : Logged ro k.nrCpuIds k k' :=
  .nothing h.inserts h.routing

theorem exec_logged (c : Callback) (k : Kernel) : Logged ro k.nrCpuIds k (c.exec ro env k) := by
  cases c with
  | selectCpu p prevCpu wakeFlags =>
    exact (cognisSelectCpu_selected ro env p prevCpu wakeFlags k).logged
  | enqueue p enqFlags => exact (cognisEnqueue_enqueued ro env p enqFlags k).logged
  | dispatch cpu prev => exact (opsDispatch_unchanged ro env cpu prev k).logged
  | runnable p => exact (cognisRunnable_accounted p k).logged
  | running p => exact (cognisRunning_accounted p k).logged
  | stopping p => exact (cognisStopping_accounted p k).logged
  | enable p => exact (cognisEnable_accounted p k).logged
  | initTask created p => exact (cognisInitTask_accounted created p k).logged
  | timer => exact (userschedTimerFn_unchanged ro env k).1.logged

theorem schedDsq_bits (ro : Rodata) : inCpuTier schedDsq = false ∧ inLlcTier ro schedDsq = false ∧
    inNodeTier ro schedDsq = false ∧ (schedDsq == sharedDsq) = false := by
  refine ⟨by decide, ?_, ?_, by decide⟩
  · rw [Bool.eq_false_iff, ne_eq, inLlcTier_iff]
    simp only [schedDsq, llcDsqBase]
    omega
  · rw [Bool.eq_false_iff, ne_eq, inNodeTier_iff]
    simp only [schedDsq, nodeDsqBase, llcDsqBase]
    omega

theorem RoutingExact.logged {n : Nat} {k k' : Kernel} (before : RoutingExact ro k)
    (h : Logged ro n k k') : RoutingExact ro k' := by
  have same : k'.counters.routing = k.counters.routing →
      k'.counters.kernelDispatches = k.counters.kernelDispatches ∧
      k'.counters.localDispatches = k.counters.localDispatches ∧
      k'.counters.llcDispatches = k.counters.llcDispatches ∧
      k'.counters.nodeDispatches = k.counters.nodeDispatches ∧
      k'.counters.sharedDispatches = k.counters.sharedDispatches := fun routing => by
    simpa only [Counters.routing, Prod.mk.injEq] using routing
  cases h with
  | nothing log routing =>
    obtain ⟨kernel, cpu, llc, node, shared⟩ := same routing
    refine ⟨?_, ?_, ?_, ?_, ?_, ?_⟩ <;> simp only [kernel, cpu, llc, node, shared, log]
    exacts [before.kernel, before.cpu, before.llc, before.node, before.shared, before.sum]
  | usersched p usersched log routing =>
    obtain ⟨kernel, cpu, llc, node, shared⟩ := same routing
    obtain ⟨noCpu, noLlc, noNode, noShared⟩ := schedDsq_bits ro
    refine ⟨?_, ?_, ?_, ?_, ?_, ?_⟩ <;>
      simp only [kernel, cpu, llc, node, shared, log, insertCount_snoc, usersched, noCpu, noLlc,
        noNode, noShared, Bool.not_true, add_bit_false]
    exacts [before.kernel, before.cpu, before.llc, before.node, before.shared, before.sum]
  | task q p other known log counters =>
    have routing := routed_routing ro known k.counters
    simp only [← counters, Counters.routing, Prod.mk.injEq] at routing
    obtain ⟨kernel, cpu, llc, node, shared⟩ := routing
    refine ⟨?_, ?_, ?_, ?_, ?_, ?_⟩
    · rw [kernel, log, insertCount_snoc, other, Bool.not_false, add_bit_true, before.kernel]
    · rw [cpu, log, insertCount_snoc, before.cpu]
    · rw [llc, log, insertCount_snoc, before.llc]
    · rw [node, log, insertCount_snoc, before.node]
    · rw [shared, log, insertCount_snoc, before.shared]
    · rw [counters]
      exact routed_sum q _ before.sum

theorem run_routingExact {ls : List Label} {k k' : Kernel} (run : SystemRun ro k ls k')
    (start : RoutingExact ro k) : RoutingExact ro k' := by
  refine run.keeps (P := fun _ => True) (fun s l t _ step before => ?_) (fun _ _ => trivial) start
  cases step with
  | call c env _ => exact before.logged (exec_logged c s)
  | world h =>
    cases h
    exact ⟨before.kernel, before.cpu, before.llc, before.node, before.shared, before.sum⟩

theorem routingExact_zero {k : Kernel} (log : k.inserts = []) (zero : k.counters = {}) :
    RoutingExact ro k := by
  refine ⟨?_, ?_, ?_, ?_, ?_, ?_⟩ <;> rw [zero] <;> first | (rw [log]; rfl) | rfl

theorem cognisEnqueue_inserts {p : Nat} (enqFlags : U64) {k : Kernel}
    (stored : (k.taskCtx p).isSome = true)
    (queued : isUserschedTask ro p = true → ro.userschedEnabled = true) :
    ∃ q, ((cognisEnqueue ro env p enqFlags).run k).2.inserts = k.inserts ++ [(q, p)] := by
  have effect := cognisEnqueue_enqueued ro env p enqFlags k
  generalize ((cognisEnqueue ro env p enqFlags).run k).2 = k' at effect ⊢
  cases effect with
  | skipped none => simp [none] at stored
  | usersched kicks usersched _ =>
    rw [if_pos (queued usersched)]
    exact ⟨schedDsq, rfl⟩
  | direct qs cpu slice kicks => exact ⟨localOn cpu, rfl⟩
  | deferred tctx qs target slice kicks => exact ⟨target, rfl⟩

theorem cognisSelectCpu_inserts (p : Nat) (prevCpu : Int) (wakeFlags : U64) (k : Kernel) :
    ((cognisSelectCpu ro env p prevCpu wakeFlags).run k).2.inserts = k.inserts ∨
      ((cognisSelectCpu ro env p prevCpu wakeFlags).run k).2.inserts =
        k.inserts ++ [(localOn ((cognisSelectCpu ro env p prevCpu wakeFlags).run k).1, p)] := by
  have effect := cognisSelectCpu_selected ro env p prevCpu wakeFlags k
  generalize (cognisSelectCpu ro env p prevCpu wakeFlags).run k = result at effect ⊢
  cases effect with
  | kept _ => exact .inl rfl
  | placed => exact .inr rfl

theorem cognisInitTask_stored {created : Bool} {p : Nat} {k k' : Kernel}
    (succeeded : (cognisInitTask created p).run k = (0, k')) :
    (k'.taskCtx p).isSome = true := by
  simp only [cognisInitTask, run_then, ↓run_ite, tryLookupTaskCtx, run_getThe, run_done,
    run_modifyState] at succeeded
  split at succeeded
  · rename_i stored
    obtain ⟨_, rfl⟩ := Prod.mk.inj succeeded
    exact stored
  split at succeeded
  · exact absurd (Prod.mk.inj succeeded).1 (by decide)
  · obtain ⟨_, rfl⟩ := Prod.mk.inj succeeded
    simp [Kernel.setCtx]

end

/-- Every enqueue of an initialized task inserts it once, a CPU selection at most once,
and the counters of a run from zero are exact. -/
theorem routing_exact (ro : Rodata)
    (fallbackOff : ro.userschedEnabled = false → ro.userschedPid = 0) :
    (∀ env created p k₁ k₂ ls k enqFlags, p ≠ 0 → (cognisInitTask created p).run k₁ = (0, k₂) →
        SystemRun ro k₂ ls k →
        ∃ q, ((cognisEnqueue ro env p enqFlags).run k).2.inserts = k.inserts ++ [(q, p)]) ∧
      (∀ env p prevCpu wakeFlags k, let result := (cognisSelectCpu ro env p prevCpu wakeFlags).run k
        result.2.inserts = k.inserts ∨
          result.2.inserts = k.inserts ++ [(localOn result.1, p)]) ∧
      (∀ k₀ ls k, k₀.inserts = [] → k₀.counters = {} → SystemRun ro k₀ ls k →
        RoutingExact ro k) := by
  refine ⟨fun env created p k₁ k₂ ls k enqFlags task succeeded run => ?_,
    fun env p prevCpu wakeFlags k => cognisSelectCpu_inserts p prevCpu wakeFlags k,
    fun k₀ ls k log zero run => run_routingExact run (routingExact_zero log zero)⟩
  apply cognisEnqueue_inserts enqFlags (run_stored run p (cognisInitTask_stored succeeded))
  intro usersched
  by_contra off
  have none := fallbackOff (Bool.eq_false_iff.mpr off)
  exact task ((beq_iff_eq.mp usersched).trans none)

theorem routing_exact_kernelOnly :
    ∃ q, ((cognisEnqueue (Rodata.kernelOnly .flat) (Env.busy 1 0 0) 1 0).run
      ((cognisInitTask true 1).run (Kernel.boot fun _ => .waiting (fun _ => true) 0)).2).2.inserts =
        [(q, 1)] :=
  (routing_exact (Rodata.kernelOnly .flat) fun _ => rfl).1 _ true 1
    (Kernel.boot fun _ => .waiting (fun _ => true) 0) _ [] _ 0 (by decide) rfl (.nil _)

end Cognis.Bpf
