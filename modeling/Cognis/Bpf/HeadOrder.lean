import Cognis.Lib.ClockShift
import Cognis.Bpf.ClockShift
import Cognis.Bpf.EarliestFirst

/-! The order of queue heads against the order of the virtual clock. The clock wraps, the
heads are compared as plain numbers. -/
namespace Cognis.Bpf
open StateLogic ClockShift

/-- Less than one half of the clock apart. -/
def Near (a b : U64) : Prop := (a - b).toNat < 2 ^ 63 ∨ (b - a).toNat < 2 ^ 63

/-- Near on the clock, but the wrap lies between them. -/
def Straddles (a b : U64) : Prop :=
  Near a b ∧ (a.toNat + 2 ^ 63 ≤ b.toNat ∨ b.toNat + 2 ^ 63 ≤ a.toNat)

theorem timeBefore_eq_lt_iff {a b : U64} (near : Near a b) :
    decide (a < b) = timeBefore a b ↔ ¬ Straddles a b := by
  have bound := a.isLt
  have bound' := b.isLt
  rw [timeBefore_eq_msb, BitVec.msb_eq_decide, decide_eq_decide, BitVec.lt_def]
  simp only [Near, Straddles, BitVec.toNat_sub] at near ⊢
  omega

/-- Both comparisons of heads order near deadlines as the clock does. -/
structure FollowsClock (vtimeOf : Nat → U64) (p q : Nat) : Prop where
  deadlineMin : Near (vtimeOf p) (vtimeOf q) →
    isDeadlineMin vtimeOf (some p) (some q) = timeBefore (vtimeOf p) (vtimeOf q)
  headBetter : Near (vtimeOf p) (vtimeOf q) → ∀ depth dsq depth' dsq',
    isRemoteHeadBetter vtimeOf ⟨p, depth, dsq⟩ (some ⟨q, depth', dsq'⟩) =
      if vtimeOf p = vtimeOf q then decide (depth > depth')
      else timeBefore (vtimeOf p) (vtimeOf q)

theorem followsClock_iff (vtimeOf : Nat → U64) (p q : Nat) :
    FollowsClock vtimeOf p q ↔ ¬ Straddles (vtimeOf p) (vtimeOf q) := by
  constructor
  · rintro follows ⟨near, apart⟩
    exact (timeBefore_eq_lt_iff near).mp (follows.deadlineMin near) ⟨near, apart⟩
  · intro together
    constructor
    · intro near
      exact (timeBefore_eq_lt_iff near).mpr together
    · intro near depth dsq depth' dsq'
      by_cases equal : vtimeOf p = vtimeOf q
      · simp only [isRemoteHeadBetter, ne_eq, equal, not_true_eq_false, if_false, if_true]
      · simp only [isRemoteHeadBetter, ne_eq, equal, not_false_eq_true, if_true, if_false]
        exact (timeBefore_eq_lt_iff near).mpr together

/-- The heads that a scan of `qs` may take carry alike. -/
def HeadsAlike (c : U64) (v : Queues) (accept : Nat → Bool) (qs : List Nat) : Prop :=
  ∀ a ∈ candidates v accept qs, ∀ b ∈ candidates v accept qs,
    Carries c (v.task a.task).dsqVtime ↔ Carries c (v.task b.task).dsqVtime

/-- A scan depends on the victim queues and on the deadlines alone. -/
theorem headsAlike_congr {c : U64} {v w : Queues} {accept : Nat → Bool} {qs : List Nat}
    (task : v.task = w.task) (dsq : ∀ q ∈ qs, v.dsq q = w.dsq q) :
    HeadsAlike c v accept qs ↔ HeadsAlike c w accept qs := by
  have heads : candidates v accept qs = candidates w accept qs :=
    List.filterMap_congr fun q member => by rw [candidate, candidate, dsq q member]
  rw [HeadsAlike, HeadsAlike, heads, task]

/-- The queue a steal pass commits to. -/
def chosenQueue (accept : Nat → Bool) (qs : List Nat) (k : Kernel) : Option Nat :=
  ((scanHeads accept qs none).run k).1.map Candidate.dsq

section

variable {α : Type} [LinearOrder α] {c : U64} {v : Queues} {accept : Nat → Bool} {qs : List Nat}

/-- A head is known by its queue, so the choice of a queue is the choice of a head. -/
theorem select_dsq_inj {β : Type} [LinearOrder β] {key : Candidate → α} {key' : Candidate → β} :
    (Selection.select key' none (candidates v accept qs)).map Candidate.dsq =
        (Selection.select key none (candidates v accept qs)).map Candidate.dsq ↔
      Selection.select key' none (candidates v accept qs) =
        Selection.select key none (candidates v accept qs) := by
  constructor
  · intro same
    cases first : Selection.select key' none (candidates v accept qs) with
    | none =>
      rw [(Selection.select_eq_none_iff _ _).mp first]
      rfl
    | some a =>
      cases second : Selection.select key none (candidates v accept qs) with
      | none =>
        rw [first, second] at same
        cases same
      | some b =>
        rw [first, second] at same
        have queue : a.dsq = b.dsq := Option.some.inj same
        have inside := Selection.leads_mem _ ((Selection.select_eq_some_iff _ _ _).mp first)
        have inside' := Selection.leads_mem _ ((Selection.select_eq_some_iff _ _ _).mp second)
        obtain ⟨_, head, _, deep⟩ := mem_candidates.mp inside
        obtain ⟨_, head', _, deep'⟩ := mem_candidates.mp inside'
        rw [queue] at head deep
        have task := Option.some.inj (head.symm.trans head')
        have depth := deep.trans deep'.symm
        rw [Option.some.injEq, Candidate.mk.injEq]
        exact ⟨task, depth, queue⟩
  · intro same
    rw [same]

variable (c v accept qs) in
theorem select_shift_iff (tie : Candidate → α) :
    Selection.select (earliestKey (fun a => ((v.shift c).task a.task).dsqVtime) tie) none
          (candidates v accept qs) =
        Selection.select (earliestKey (fun a => (v.task a.task).dsqVtime) tie) none
          (candidates v accept qs) ↔
      HeadsAlike c v accept qs :=
  select_add_iff (fun a : Candidate => (v.task a.task).dsqVtime) tie c _

end

theorem chosenQueue_shift_iff (c : U64) (accept : Nat → Bool) (qs : List Nat) (k : Kernel) :
    chosenQueue accept qs (k.shift c) = chosenQueue accept qs k ↔
      HeadsAlike c k.queues accept qs := by
  rw [chosenQueue, chosenQueue, scanHeads_run, scanHeads_run]
  exact select_dsq_inj.trans (select_shift_iff c k.queues accept qs _)

/-! ### The CPU's own tiers -/

def Candidate.tier : Option Candidate → Tier
  | none => (none, 0)
  | some best => (some best.task, best.dsq)

/-- Whether there is a leader depends on the heads alone, so its queue tells which it is. -/
theorem tier_queue_inj {α β : Type} [LinearOrder α] [LinearOrder β] {key : Candidate → α}
    {key' : Candidate → β} {cs : List Candidate} :
    (Candidate.tier (Selection.select key' none cs)).2 =
        (Candidate.tier (Selection.select key none cs)).2 ↔
      (Selection.select key' none cs).map Candidate.dsq =
        (Selection.select key none cs).map Candidate.dsq := by
  cases cs with
  | nil => simp [Selection.select]
  | cons a rest =>
    obtain ⟨b, leads⟩ := Selection.exists_leads key (List.cons_ne_nil a rest)
    obtain ⟨d, leads'⟩ := Selection.exists_leads key' (List.cons_ne_nil a rest)
    rw [(Selection.select_eq_some_iff _ _ _).mpr leads,
      (Selection.select_eq_some_iff _ _ _).mpr leads']
    simp [Candidate.tier]

def deadlineKey (v : Queues) : Candidate → ℕ ×ₗ Unit :=
  earliestKey (fun a => (v.task a.task).dsqVtime) fun _ => ()

theorem earlierTier_keep (v : Queues) (best : Option Candidate) (q : Nat) :
    earlierTier (fun r => (v.task r).dsqVtime) (Candidate.tier best) (tierOf v q) =
      Candidate.tier ((candidate v anyHead q).elim best (Selection.keep (deadlineKey v) best)) := by
  cases queue : v.dsq q with
  | nil => simp [earlierTier, tierOf, candidate, queue, isDeadlineMin]
  | cons p ps =>
    cases best with
    | none => simp [earlierTier, tierOf, candidate, queue, isDeadlineMin, anyHead, Candidate.tier,
        Selection.keep]
    | some b =>
      have order : ∀ depth, deadlineKey v ⟨p, depth, q⟩ < deadlineKey v b ↔
          (v.task p).dsqVtime < (v.task b.task).dsqVtime := by
        intro depth
        rw [deadlineKey, earliestKey_lt, BitVec.lt_def]
        simp
      by_cases earlier : (v.task p).dsqVtime < (v.task b.task).dsqVtime
      · simp [earlierTier, tierOf, candidate, queue, isDeadlineMin, anyHead, Candidate.tier,
          Selection.keep, order, earlier]
      · simp [earlierTier, tierOf, candidate, queue, isDeadlineMin, anyHead, Candidate.tier,
          Selection.keep, order, earlier]

theorem pickTier_select (v : Queues) (best : Option Candidate) (qs : List Nat) :
    pickTier (fun r => (v.task r).dsqVtime) (Candidate.tier best) (qs.map (tierOf v)) =
      Candidate.tier (Selection.select (deadlineKey v) best (candidates v anyHead qs)) := by
  induction qs generalizing best with
  | nil => rfl
  | cons q qs ih =>
    rw [List.map_cons, pickTier, List.foldl_cons, earlierTier_keep]
    refine (ih _).trans ?_
    cases head : candidate v anyHead q <;> simp [candidates, head, Selection.select]

section

variable (ro : Rodata) (env : Env)

theorem leadingTier_select (v : Queues) (cpu : Int) :
    leadingTier ro v cpu = Candidate.tier (Selection.select (deadlineKey v) none
      (candidates v anyHead (ownTiers ro v.nrCpuIds cpu))) := by
  rw [← pickTier_select]
  by_cases multi : ro.nrNodes > 1
  · simp [leadingTier, tiersOf, nodeTierOf, ownTiers, multi, Candidate.tier]
  · simp [leadingTier, tiersOf, nodeTierOf, ownTiers, multi, Candidate.tier, pickTier, earlierTier,
      isDeadlineMin]

theorem leadingTier_shift_iff (c : U64) (v : Queues) (cpu : Int) :
    (leadingTier ro (v.shift c) cpu).2 = (leadingTier ro v cpu).2 ↔
      HeadsAlike c v anyHead (ownTiers ro v.nrCpuIds cpu) := by
  rw [leadingTier_select, leadingTier_select]
  exact tier_queue_inj.trans (select_dsq_inj.trans (select_shift_iff c v anyHead _ _))

/-- In every steal scan on `cpu` the heads carry alike. -/
structure StealsAlike (c : U64) (w : View) (cpu : Int) : Prop where
  remoteCpu : ∀ sameLlcOnly, HeadsAlike c w.now (fun p => (w.now.task p).cpusPtr cpu)
    (cpuQueues env w.now.nrCpuIds cpu sameLlcOnly)
  remoteLlc : ∀ sameNodeOnly,
    HeadsAlike c w.landed anyHead (llcQueues ro w.now.nrCpuIds cpu sameNodeOnly)
  remoteNode : HeadsAlike c w.landed anyHead (nodeQueues ro w.now.nrCpuIds cpu)

/-- In every scan of a dispatch on `cpu` the heads carry alike; the steal scans come after
the moves from the CPU's own tiers. -/
structure ScansAlike (c : U64) (w : View) (cpu : Int) : Prop where
  own : HeadsAlike c w.now anyHead (ownTiers ro w.now.nrCpuIds cpu)
  steals : StealsAlike ro env c (w.after (tierOrder ro w.now cpu)) cpu

end

section

variable {ro : Rodata} {env : Env} {c : U64} {cpu : Int}

theorem landed_shift (k : Kernel) : (k.shift c).view.landed = k.view.landed.shift c := by
  rw [← Kernel.flush_queues, ← Kernel.flush_queues, flush_shift, Kernel.shift_queues]

theorem scxBpfDsqMoveToLocal_mirrors (cpu : Int) (q : Nat) :
    Mirrors (Kernel.shift c) (scxBpfDsqMoveToLocal cpu q) (scxBpfDsqMoveToLocal cpu q) := by
  intro k
  have same : (k.shift c).view.landed.firstAllowed cpu q = k.view.landed.firstAllowed cpu q := by
    rw [landed_shift]
    rfl
  have flush : ((k.shift c).touch q).flush = (k.touch q).flush.shift c := flush_shift (k.touch q)
  rw [MirrorsAt, scxBpfDsqMoveToLocal_run, scxBpfDsqMoveToLocal_run, same, flush]
  cases k.view.landed.firstAllowed cpu q <;> rfl

theorem moveIf_mirrors (cond : Bool) (cpu : Int) (q : Nat) :
    Mirrors (Kernel.shift c) (moveIf cond cpu q) (moveIf cond cpu q) := by
  apply Mirrors.ite
  · exact scxBpfDsqMoveToLocal_mirrors cpu q
  · exact Mirrors.pure false

theorem tierMoves_mirrors (best localTier llc node shared : Tier) :
    Mirrors (Kernel.shift c) (tierMoves cpu best localTier llc node shared)
      (tierMoves cpu best localTier llc node shared) := by
  apply Mirrors.orElse (moveIf_mirrors _ cpu _)
  apply Mirrors.orElse (moveIf_mirrors _ cpu _)
  apply Mirrors.orElse (moveIf_mirrors _ cpu _)
  apply Mirrors.orElse (moveIf_mirrors _ cpu _)
  exact moveIf_mirrors _ cpu _

theorem moveFromOwnTiers_mirrors {k : Kernel}
    (alike : HeadsAlike c k.queues anyHead (ownTiers ro k.nrCpuIds cpu)) :
    MirrorsAt (Kernel.shift c) k (moveFromOwnTiers ro cpu) (moveFromOwnTiers ro cpu) := by
  have same : leadingTier ro (k.queues.shift c) cpu = leadingTier ro k.queues cpu := by
    rw [leadingTier_select, leadingTier_select]
    exact congrArg Candidate.tier ((select_shift_iff c k.queues anyHead _ fun _ => ()).mpr alike)
  rw [MirrorsAt, moveFromOwnTiers_run, moveFromOwnTiers_run]
  change (tierMoves cpu (leadingTier ro (k.queues.shift c) cpu) _ _ _ _).run _ = _
  rw [same]
  exact tierMoves_mirrors _ _ _ _ _ (k.touchAll (ownTiers ro k.nrCpuIds cpu))

theorem scanHeads_mirrors {accept : Nat → Bool} {qs : List Nat} {k : Kernel}
    (alike : HeadsAlike c k.queues accept qs) :
    MirrorsAt (Kernel.shift c) k (scanHeads accept qs none) (scanHeads accept qs none) := by
  have same := (select_shift_iff c k.queues accept qs fun b => OrderDual.toDual b.depth).mpr alike
  rw [MirrorsAt, scanHeads_run, scanHeads_run]
  exact Prod.ext same rfl

theorem stealBest_mirrors (best : Option Candidate) :
    Mirrors (Kernel.shift c) (stealBest cpu best) (stealBest cpu best) := by
  cases best with
  | none => exact Mirrors.pure false
  | some b => exact scxBpfDsqMoveToLocal_mirrors cpu b.dsq

theorem stealAndCount_mirrors (best : Option Candidate) (f : Counters → Counters) :
    Mirrors (Kernel.shift c) (stealAndCount cpu best f) (stealAndCount cpu best f) := by
  apply Mirrors.bind (stealBest_mirrors best)
  intro stolen
  apply Mirrors.ite
  · apply Mirrors.bind (countOne_mirrors f)
    intro _
    exact Mirrors.pure true
  · exact Mirrors.pure false

/-- A pass that scans `qs` after its guard. -/
theorem guardedScan_mirrors {accept : Nat → Bool} {qs : List Nat} {k : Kernel} (skip : Bool)
    {commit : Option Candidate → BpfM Bool} (alike : HeadsAlike c k.queues accept qs)
    (commits : ∀ best, Mirrors (Kernel.shift c) (commit best) (commit best)) :
    MirrorsAt (Kernel.shift c) k
      (if skip then return false else do commit (← scanHeads accept qs none))
      (if skip then return false else do commit (← scanHeads accept qs none)) := by
  cases skip with
  | true => exact Mirrors.pure false k
  | false => exact MirrorsAt.bind (scanHeads_mirrors alike) (commits _ _)

theorem stealRemoteLlc_mirrors {k : Kernel} {sameNodeOnly : Bool}
    (alike : HeadsAlike c k.queues anyHead (llcQueues ro k.nrCpuIds cpu sameNodeOnly)) :
    MirrorsAt (Kernel.shift c) k (stealRemoteLlc ro cpu sameNodeOnly)
      (stealRemoteLlc ro cpu sameNodeOnly) :=
  guardedScan_mirrors _ alike fun best => stealAndCount_mirrors best _

theorem stealRemoteNode_mirrors {k : Kernel}
    (alike : HeadsAlike c k.queues anyHead (nodeQueues ro k.nrCpuIds cpu)) :
    MirrorsAt (Kernel.shift c) k (stealRemoteNode ro cpu) (stealRemoteNode ro cpu) :=
  guardedScan_mirrors _ alike fun best => stealAndCount_mirrors best _

theorem stealRemoteCpu_mirrors {k : Kernel} {sameLlcOnly : Bool}
    (alike : HeadsAlike c k.queues (k.allows cpu) (cpuQueues env k.nrCpuIds cpu sameLlcOnly)) :
    MirrorsAt (Kernel.shift c) k (stealRemoteCpu env cpu sameLlcOnly)
      (stealRemoteCpu env cpu sameLlcOnly) :=
  guardedScan_mirrors _ alike stealBest_mirrors

/-- After an attempt that fails the next one may rely on what it has left to see. -/
theorem Tries.thenMirrors {α : Type} {x : BpfM Bool} {a : α} {y : BpfM α} {k : Kernel}
    {tried : List Nat} (tries : Tries cpu x k tried) (hx : MirrorsAt (Kernel.shift c) k x x)
    (hy : ∀ s, (∀ q ∈ tried, ¬ k.view.landed.Holds cpu q) → s.view = k.view.after tried →
      MirrorsAt (Kernel.shift c) s y y) :
    MirrorsAt (Kernel.shift c) k (do if ← x then return a else y)
      (do if ← x then return a else y) := by
  apply MirrorsAt.bind hx
  rw [Tries] at tries
  cases found : k.view.landed.source cpu tried with
  | some e =>
    simp only [found] at tries
    rw [tries.1]
    exact Mirrors.pure a _
  | none =>
    simp only [found] at tries
    rw [tries.1]
    exact hy _ (Queues.source_eq_none.mp found) tries.2

/-- Domain queues look the same before and after the insertions land. -/
theorem domainsAlike {w : View} {k : Kernel} {qs : List Nat}
    (low : ∀ e ∈ w.pending, e.1 ≤ sharedDsq) {tried : List Nat} (view : k.view = w.after tried)
    (high : ∀ q ∈ qs, sharedDsq < q) (alike : HeadsAlike c w.landed anyHead qs) :
    HeadsAlike c k.queues anyHead qs := by
  rw [← k.view_now, view]
  refine (headsAlike_congr ?_ fun q member => ?_).mpr alike
  · rw [View.after_task, View.landed_task]
  · rw [← w.after_landed tried]
    exact (View.landed_dsq_of_ne fun e pending =>
      (Nat.lt_of_le_of_lt (after_low low tried e pending) (high q member)).ne).symm

theorem stealRemote_mirrors {k : Kernel} (low : ∀ e ∈ k.pending, e.1 ≤ sharedDsq)
    (alike : StealsAlike ro env c k.view cpu) :
    MirrorsAt (Kernel.shift c) k (stealRemote ro env cpu) (stealRemote ro env cpu) := by
  have cpus : ∀ {s : Kernel} {tried : List Nat}, s.view = k.view.after tried →
      s.nrCpuIds = k.nrCpuIds := fun same =>
    (congrArg (·.now.nrCpuIds) same).trans (View.after_nrCpuIds _ _)
  have llc : ∀ sameNodeOnly {s : Kernel} {tried : List Nat}, s.view = k.view.after tried →
      MirrorsAt (Kernel.shift c) s (stealRemoteLlc ro cpu sameNodeOnly)
        (stealRemoteLlc ro cpu sameNodeOnly) := fun sameNodeOnly s tried view => by
    refine stealRemoteLlc_mirrors (domainsAlike (w := k.view) low view (llcQueues_gt ro _ _ _) ?_)
    rw [cpus view]
    exact alike.remoteLlc sameNodeOnly
  have node : ∀ {s : Kernel} {tried : List Nat}, s.view = k.view.after tried →
      MirrorsAt (Kernel.shift c) s (stealRemoteNode ro cpu) (stealRemoteNode ro cpu) :=
    fun view => by
      refine stealRemoteNode_mirrors (domainsAlike (w := k.view) low view (nodeQueues_gt ro _ _) ?_)
      rw [cpus view]
      exact alike.remoteNode
  apply (stealRemoteCpu_tries env cpu true k).thenMirrors
    (stealRemoteCpu_mirrors (alike.remoteCpu true))
  intro s nothing view
  -- A pass over CPUs that fails has tried no queue.
  rw [show passOrder k.queues cpu (k.allows cpu) (cpuQueues env k.nrCpuIds cpu true) = [] from
    cpuPass_nil (w := k.view) nothing, View.after_nil] at view
  have alike' : StealsAlike ro env c s.view cpu := view ▸ alike
  apply (stealRemoteCpu_tries env cpu false s).thenMirrors
    (stealRemoteCpu_mirrors (alike'.remoteCpu false))
  intro s' _ view'
  rw [view] at view'
  apply (stealRemoteLlc_tries ro cpu true s').thenMirrors (llc true view')
  intro t _ viewT
  rw [view', View.after_append] at viewT
  apply (stealRemoteNode_tries ro cpu t).thenMirrors (node viewT)
  intro t' _ viewT'
  rw [viewT, View.after_append] at viewT'
  exact llc false viewT'

theorem userschedHasPendingTasks_mirrors :
    Mirrors (Kernel.shift c) (userschedHasPendingTasks ro env)
      (userschedHasPendingTasks ro env) := by
  have clear :
      Mirrors (Kernel.shift c) testAndClearUserschedNeeded testAndClearUserschedNeeded := by
    apply Mirrors.read
    intro k
    apply Mirrors.bind
    · exact Mirrors.update fun _ => rfl
    intro _
    exact Mirrors.pure k.userschedNeeded
  apply Mirrors.ite
  · exact Mirrors.pure false
  apply Mirrors.bind clear
  intro needed
  apply Mirrors.ite
  · exact Mirrors.pure true
  apply Mirrors.read
  intro k
  apply Mirrors.ite
  · exact Mirrors.pure true
  · exact Mirrors.pure _

theorem dispatchUsersched_mirrors :
    Mirrors (Kernel.shift c) (dispatchUsersched ro env cpu) (dispatchUsersched ro env cpu) := by
  apply Mirrors.bind userschedHasPendingTasks_mirrors
  intro pending
  apply Mirrors.ite
  · exact scxBpfDsqMoveToLocal_mirrors cpu schedDsq
  · exact Mirrors.pure false

theorem refillPrev_mirrors (prev : Option Nat) :
    Mirrors (Kernel.shift c) (refillPrev ro env cpu prev) (refillPrev ro env cpu prev) := by
  have wants : ∀ p, Mirrors (Kernel.shift c) (wantsAnotherRound ro env p)
      (wantsAnotherRound ro env p) := by
    intro p
    apply Mirrors.read
    intro k
    apply Mirrors.ite
    · exact Mirrors.pure false
    apply Mirrors.ite
    · exact Mirrors.pure true
    · exact userschedHasPendingTasks_mirrors
  have slice : ∀ p, Mirrors (Kernel.shift c) (taskSlice ro env p cpu) (taskSlice ro env p cpu) := by
    intro p k
    rw [MirrorsAt, taskSlice_run, taskSlice_run]
    rfl
  cases prev with
  | none => exact Mirrors.pure _
  | some p =>
    apply Mirrors.bind (wants p)
    intro wanted
    apply Mirrors.ite
    · apply Mirrors.bind (slice p)
      intro slice
      exact Mirrors.update fun k => setTask_shift k p { k.task p with slice := slice }
    · exact Mirrors.pure _

/-- The queues as the tiers of the CPU are compared: after the drain and the attempt to run
the user-space scheduler. -/
def peeked (ro : Rodata) (env : Env) (cpu : Int) (k : Kernel) : Queues :=
  ((dispatchUsersched ro env cpu).run (drained env k)).2.queues

theorem dispatchUsersched_runs {k : Kernel} (fresh : k.Fresh)
    (runs : UserschedRuns ro env k cpu) :
    ((dispatchUsersched ro env cpu).run (drained env k)).1 = true := by
  have tries := dispatchUsersched_tries ro env cpu (drained env k)
  obtain ⟨p, found⟩ := asked_some runs
  rw [Tries, drained_asks, drained_view fresh, ← Kernel.landed, found] at tries
  exact tries.1

theorem dispatchUsersched_rests {k : Kernel} (fresh : k.Fresh)
    (rests : ¬ UserschedRuns ro env k cpu) :
    ((dispatchUsersched ro env cpu).run (drained env k)).1 = false ∧
      ((dispatchUsersched ro env cpu).run (drained env k)).2.view = k.shown ro env := by
  have tries := dispatchUsersched_tries ro env cpu (drained env k)
  rw [Tries, drained_asks, drained_view fresh, ← Kernel.landed, asked_none rests] at tries
  exact tries

theorem peeked_shift (k : Kernel) :
    peeked ro env cpu (k.shift c) = (peeked ro env cpu k).shift c := by
  rw [peeked, drained_shift, dispatchUsersched_mirrors (drained env k)]
  rfl

theorem selectTask_mirrors {k : Kernel} (prev : Option Nat) (fresh : k.Fresh)
    (alike : ¬ UserschedRuns ro env k cpu → ScansAlike ro env c (k.shown ro env) cpu) :
    MirrorsAt (Kernel.shift c) (drained env k) (selectTask ro env cpu prev)
      (selectTask ro env cpu prev) := by
  apply MirrorsAt.bind (dispatchUsersched_mirrors _)
  by_cases runs : UserschedRuns ro env k cpu
  · rw [dispatchUsersched_runs fresh runs]
    exact Mirrors.pure _ _
  obtain ⟨failed, view⟩ := dispatchUsersched_rests fresh runs
  have scans := alike runs
  have low := shown_low ro env k
  rw [failed]
  rw [← view] at scans low
  apply (moveFromOwnTiers_tries ro cpu _).thenMirrors (moveFromOwnTiers_mirrors scans.own)
  intro t _ viewT
  have steals : StealsAlike ro env c t.view cpu := viewT ▸ scans.steals
  have lowT : ∀ e ∈ t.view.pending, e.1 ≤ sharedDsq := viewT ▸ after_low low _
  apply (stealRemote_tries ro env cpu t).thenMirrors (stealRemote_mirrors lowT steals)
  intro t' _ _
  exact refillPrev_mirrors prev t'

/-- Where the heads of every scan carry alike, the whole dispatch moves with the clock. -/
theorem opsDispatch_mirrors {k : Kernel} (prev : Option Nat) (fresh : k.Fresh)
    (alike : ¬ UserschedRuns ro env k cpu → ScansAlike ro env c (k.shown ro env) cpu) :
    MirrorsAt (Kernel.shift c) k (opsDispatch ro env cpu prev) (opsDispatch ro env cpu prev) :=
  MirrorsAt.bind (MirrorsAt.bind (drainDispatched_mirrors env k)
    (selectTask_mirrors prev fresh alike)) (Mirrors.update flush_shift _)

end

/-- Near deadlines are compared as the clock orders them exactly when the wrap does not
lie between them, and moving the clock leaves a selection alone exactly when it takes all
the heads of the scan past the wrap, or none. -/
theorem head_order_iff (ro : Rodata) (env : Env) (c : U64) (cpu : Int) (k : Kernel)
    (fresh : k.Fresh) :
    (∀ vtimeOf p q, FollowsClock vtimeOf p q ↔ ¬ Straddles (vtimeOf p) (vtimeOf q)) ∧
    (¬ UserschedRuns ro env k cpu →
      ((leadingTier ro (peeked ro env cpu (k.shift c)) cpu).2 =
          (leadingTier ro (peeked ro env cpu k) cpu).2 ↔
        HeadsAlike c (k.shown ro env).now anyHead (ownTiers ro k.nrCpuIds cpu))) ∧
    (∀ sameLlcOnly,
      chosenQueue ((k.shift c).allows cpu) (cpuQueues env (k.shift c).nrCpuIds cpu sameLlcOnly)
          (k.shift c) =
        chosenQueue (k.allows cpu) (cpuQueues env k.nrCpuIds cpu sameLlcOnly) k ↔
      HeadsAlike c k.queues (k.allows cpu) (cpuQueues env k.nrCpuIds cpu sameLlcOnly)) ∧
    (∀ sameNodeOnly,
      chosenQueue anyHead (llcQueues ro (k.shift c).nrCpuIds cpu sameNodeOnly) (k.shift c) =
        chosenQueue anyHead (llcQueues ro k.nrCpuIds cpu sameNodeOnly) k ↔
      HeadsAlike c k.queues anyHead (llcQueues ro k.nrCpuIds cpu sameNodeOnly)) ∧
    (chosenQueue anyHead (nodeQueues ro (k.shift c).nrCpuIds cpu) (k.shift c) =
        chosenQueue anyHead (nodeQueues ro k.nrCpuIds cpu) k ↔
      HeadsAlike c k.queues anyHead (nodeQueues ro k.nrCpuIds cpu)) ∧
    ((¬ UserschedRuns ro env k cpu → ScansAlike ro env c (k.shown ro env) cpu) → ∀ prev,
      MirrorsAt (Kernel.shift c) k (opsDispatch ro env cpu prev)
        (opsDispatch ro env cpu prev)) := by
  refine ⟨followsClock_iff, fun rests => ?_, fun _ => chosenQueue_shift_iff c _ _ k,
    fun _ => chosenQueue_shift_iff c _ _ k, chosenQueue_shift_iff c _ _ k,
    fun alike prev => opsDispatch_mirrors prev fresh alike⟩
  have seen : peeked ro env cpu k = (k.shown ro env).now :=
    congrArg View.now (dispatchUsersched_rests fresh rests).2
  rw [peeked_shift, seen, leadingTier_shift_iff, shown_nrCpuIds]

/-- Task 1 is due 3000 ns before the clock's zero, task 2 at zero. -/
def acrossZero : Kernel :=
  let k := Kernel.boot fun p => .waiting (fun _ => true) (if p = 1 then -3000 else 0)
  { (k.setDsq 0 [1]).setDsq sharedDsq [2] with nrCpuIds := 1 }

/-- Task 1 is on its way to the CPU's own queue with the same time; task 2 is shared. -/
def zeroAhead : Kernel :=
  { (Kernel.boot fun _ => .waiting (fun _ => true) 0).setDsq sharedDsq [2] with
    taskCtx := fun _ => some {}
    nrCpuIds := 1
    slots := maxDispatchSlot
    ring := [some { pid := 1, cpu := 0, flags := 0, sliceNs := 1, vtime := -3000, enqCnt := 0 }] }

/-- The comparison does not see the task on its way, so moving the clock changes nothing. -/
theorem head_order_before_landing :
    (leadingTier (.withFallback .flat 7)
        (peeked (.withFallback .flat 7) (Env.busy 1 1000 0) 0 (zeroAhead.shift 3000)) 0).2 =
      (leadingTier (.withFallback .flat 7)
        (peeked (.withFallback .flat 7) (Env.busy 1 1000 0) 0 zeroAhead) 0).2 := by
  have rests : ¬ UserschedRuns (.withFallback .flat 7) (Env.busy 1 1000 0) zeroAhead 0 :=
    fun runs => by cases runs.1
  refine ((head_order_iff (.withFallback .flat 7) (Env.busy 1 1000 0) 3000 0 zeroAhead
    ⟨rfl, fun _ => by decide⟩).2.1 rests).mpr ?_
  unfold HeadsAlike Carries
  decide +kernel

/-- The later of the two heads leads, until the clock has moved on by 3000 ns. -/
theorem head_order_ignores_wrap :
    ¬ FollowsClock (fun p => (acrossZero.task p).dsqVtime) 1 2 ∧
      (leadingTier (.kernelOnly .flat)
        (peeked (.kernelOnly .flat) (Env.busy 1 1000 0) 0 acrossZero) 0).2 = sharedDsq ∧
      (leadingTier (.kernelOnly .flat)
        (peeked (.kernelOnly .flat) (Env.busy 1 1000 0) 0 (acrossZero.shift 3000)) 0).2 = 0 := by
  refine ⟨fun follows => ?_, by decide +kernel, by decide +kernel⟩
  apply (followsClock_iff _ _ _).mp follows
  unfold Straddles Near
  decide

end Cognis.Bpf
