import Cognis.Bpf.WorkConservation

/-! Which task one dispatch takes from the CPU's own tiers. The tiers are compared by
their heads, but a move takes the first task that may run on the CPU, and it commits an
insertion that the comparison has not seen. -/
namespace Cognis.Bpf
open StateLogic

theorem insertByVtime_sublist (vtimeOf : Nat → U64) (p : Nat) (qs : List Nat) :
    qs.Sublist (insertByVtime vtimeOf p qs) := by
  induction qs with
  | nil => exact List.nil_sublist _
  | cons q qs ih =>
    rw [insertByVtime]
    split
    · exact List.sublist_cons_self _ _
    · exact ih.cons_cons q

theorem View.now_sublist (w : View) (q : Nat) : (w.now.dsq q).Sublist (w.landed.dsq q) := by
  refine List.foldlRecOn w.pending _
    (motive := fun v : Queues => (w.now.dsq q).Sublist (v.dsq q)) (.refl _) fun v before e _ => ?_
  by_cases here : q = e.1
  · rw [here] at before ⊢
    simp only [Queues.land, Function.update_self]
    exact before.trans (insertByVtime_sublist ..)
  · simpa only [Queues.land, Function.update_of_ne here] using before

section

variable (ro : Rodata) (env : Env)

/-- Deadlines within one half of the clock, and every queue in the kernel's order. -/
structure InDeadlineOrder (v : Queues) (cpu : Int) : Prop where
  half : ∃ low, ∀ q ∈ ownTiers ro v.nrCpuIds cpu, ∀ p ∈ v.dsq q,
    low ≤ (v.task p).dsqVtime.toNat ∧ (v.task p).dsqVtime.toNat < low + 2 ^ 63
  sorted : ∀ q ∈ ownTiers ro v.nrCpuIds cpu, (v.dsq q).Pairwise fun a b =>
    timeBefore (v.task b).dsqVtime (v.task a).dsqVtime = false

/-- A task moved from one of the CPU's own tiers is the earliest the CPU may run there. -/
def TakesEarliest (cpu : Int) (prev : Option Nat) (k : Kernel) : Prop :=
  ∀ q ∈ ownTiers ro k.nrCpuIds cpu, ∀ p,
    (k.landed env).Moved ((opsDispatch ro env cpu prev).run k).2.queues cpu q p →
    ∀ r ∈ ownTiers ro k.nrCpuIds cpu, ∀ u ∈ (k.landed env).dsq r,
      ((k.landed env).task u).cpusPtr cpu = true →
      ¬ ((k.landed env).task u).dsqVtime < ((k.landed env).task p).dsqVtime

def LeaderFits (v : Queues) (cpu : Int) : Prop :=
  ∃ p, (leadingTier ro v cpu).1 = some p ∧ (v.task p).cpusPtr cpu = true

/-- A task that has not landed yet goes to another tier than the leader's, may run on the
CPU and is due before the leader. -/
def NewcomerAhead (w : View) (cpu : Int) : Prop :=
  ∃ e ∈ w.pending, e.1 ∈ ownTiers ro w.now.nrCpuIds cpu ∧ e.1 ≠ (leadingTier ro w.now cpu).2 ∧
    (w.now.task e.2).cpusPtr cpu = true ∧
    ∃ p, (leadingTier ro w.now cpu).1 = some p ∧
      (w.now.task e.2).dsqVtime < (w.now.task p).dsqVtime

/-- The task taken in the place of the leader is not later than the first task of another
tier that fits. -/
def StandInEarliest (w : View) (cpu : Int) : Prop :=
  ∀ q p, w.landed.source cpu (tierOrder ro w.now cpu) = some (q, p) →
    ∀ r ∈ ownTiers ro w.now.nrCpuIds cpu, ∀ u, w.landed.firstAllowed cpu r = some u →
      ¬ (w.landed.task u).dsqVtime < (w.landed.task p).dsqVtime

end

theorem timeBefore_iff {a b : U64} {low : Nat} (a_low : low ≤ a.toNat)
    (a_high : a.toNat < low + 2 ^ 63) (b_low : low ≤ b.toNat) (b_high : b.toNat < low + 2 ^ 63) :
    timeBefore a b = true ↔ a < b := by
  have bound := a.isLt
  have bound' := b.isLt
  rw [timeBefore_eq_msb, BitVec.msb_eq_decide, decide_eq_true_iff, BitVec.toNat_sub, BitVec.lt_def]
  omega

section

variable {ro : Rodata} {env : Env} {v : Queues} {cpu : Int}

theorem InDeadlineOrder.plain (ordered : InDeadlineOrder ro v cpu) {r : Nat}
    (own : r ∈ ownTiers ro v.nrCpuIds cpu) :
    (v.dsq r).Pairwise fun a b => ¬ (v.task b).dsqVtime < (v.task a).dsqVtime := by
  obtain ⟨low, half⟩ := ordered.half
  refine (ordered.sorted r own).imp_of_mem fun {a b} first second order => ?_
  have bounds := half r own a first
  have bounds' := half r own b second
  rw [← timeBefore_iff bounds'.1 bounds'.2 bounds.1 bounds.2, order]
  exact Bool.false_ne_true

theorem InDeadlineOrder.firstAllowed_least (ordered : InDeadlineOrder ro v cpu) {r u : Nat}
    (own : r ∈ ownTiers ro v.nrCpuIds cpu) (member : u ∈ v.dsq r)
    (allowed : (v.task u).cpusPtr cpu = true) :
    ∃ f, v.firstAllowed cpu r = some f ∧ ¬ (v.task u).dsqVtime < (v.task f).dsqVtime := by
  obtain ⟨f, first⟩ := Option.isSome_iff_exists.mp
    (Queues.firstAllowed_isSome.mpr ⟨u, member, allowed⟩)
  refine ⟨f, first, ?_⟩
  obtain ⟨_, before, after, split, none⟩ := List.find?_eq_some_iff_append.mp first
  have sorted := ordered.plain own
  rw [split] at member sorted
  have later := (List.pairwise_cons.mp (List.pairwise_append.mp sorted).2.1).1
  rcases List.mem_append.mp member with early | now
  · simpa [allowed] using none u early
  rcases List.mem_cons.mp now with rfl | late
  · exact BitVec.lt_irrefl _
  · exact later u late

theorem not_lt_trans {a b c : U64} (first : ¬ b < a) (second : ¬ c < b) : ¬ c < a :=
  BitVec.not_lt.mpr (BitVec.le_trans (BitVec.not_lt.mp first) (BitVec.not_lt.mp second))

/-- A task that was in a tier at the peeks is not earlier than the leader. -/
theorem not_before_leader {w : View} (ordered : InDeadlineOrder ro w.landed cpu) {p r u : Nat}
    (lead : (leadingTier ro w.now cpu).1 = some p) (own : r ∈ ownTiers ro w.now.nrCpuIds cpu)
    (waits : u ∈ w.now.dsq r) : ¬ (w.now.task u).dsqVtime < (w.now.task p).dsqVtime := by
  have least := (pickTier_least (fun r => (w.now.task r).dsqVtime) (none, 0)
    (tiersOf ro w.now cpu) lead).2
  obtain ⟨h, hs, queue⟩ := List.exists_cons_of_ne_nil (List.ne_nil_of_mem waits)
  have top := least _ (mem_tiersOf ro own) h (by simp [tierOf, queue])
  have sorted := (ordered.plain (r := r) (by rwa [w.landed_nrCpuIds])).sublist (w.now_sublist r)
  rw [queue] at sorted waits
  rcases List.mem_cons.mp waits with rfl | behind
  · exact top
  · have later := (List.pairwise_cons.mp sorted).1 u behind
    rw [w.landed_task] at later
    exact not_lt_trans top later

/-- With the leader free to run, only a newcomer to another tier can be earlier. -/
theorem standIn_of_fits {w : View} (ordered : InDeadlineOrder ro w.landed cpu)
    (fits : LeaderFits ro w.now cpu) (alone : ¬ NewcomerAhead ro w cpu) :
    StandInEarliest ro w cpu := by
  obtain ⟨p, lead, allowed⟩ := fits
  obtain ⟨own, head⟩ := leadingTier_own lead
  have leaves : p ∈ w.landed.dsq (leadingTier ro w.now cpu).2 :=
    (w.now_sublist _).subset (List.mem_of_head? head)
  rw [← w.landed_nrCpuIds] at own
  obtain ⟨f, taken, order⟩ := ordered.firstAllowed_least own leaves (by rwa [w.landed_task])
  intro q t found r inside u first
  -- What is taken is the first task of the leader's queue, and no later than the leader.
  have chosen : t = f := by
    rw [tierOrder, lead, Option.isSome_some, if_pos rfl, Queues.source_append,
      Queues.source_singleton, taken] at found
    exact (congrArg Prod.snd (Option.some.inj found)).symm
  subst chosen
  obtain ⟨member, fits⟩ := Queues.mem_of_firstAllowed first
  rw [w.landed_task] at order fits ⊢
  rcases View.mem_landed.mp member with old | new
  · exact not_lt_trans order (not_before_leader ordered lead inside old)
  by_cases here : r = (leadingTier ro w.now cpu).2
  · subst here
    obtain ⟨f, again, order⟩ := ordered.firstAllowed_least own member (by rwa [w.landed_task])
    cases Option.some.inj (taken.symm.trans again)
    rwa [w.landed_task] at order
  · exact not_lt_trans order fun ahead =>
      alone ⟨(r, u), new, inside, here, fits, p, lead, ahead⟩

/-- Without the user-space scheduler a task moves exactly when its queue is the first of those
tried that holds a task for the CPU. -/
theorem dispatch_moved_iff (prev : Option Nat) {k : Kernel} {q p : Nat} (fresh : k.Fresh)
    (rests : ¬ UserschedRuns ro env k cpu) (own : q ∈ ownTiers ro k.nrCpuIds cpu) :
    (k.landed env).Moved ((opsDispatch ro env cpu prev).run k).2.queues cpu q p ↔
      (k.landed env).source cpu (k.tried ro env cpu) = some (q, p) := by
  have spec := dispatch_rests prev fresh rests
  cases found : (k.landed env).source cpu (k.tried ro env cpu) with
  | none =>
    simp only [found] at spec
    exact iff_of_false (fun moved => moved.ne spec) nofun
  | some e =>
    simp only [found] at spec
    have waits := (Queues.mem_of_firstAllowed (Queues.source_mem found).2).1
    rw [spec]
    constructor
    · intro moved
      have apart := taskDsqs_ne_localOn ro _ (ownTiers_subset ro _ cpu own) cpu
      obtain ⟨rfl, rfl⟩ := moved.unique (.deliver waits) apart
      rfl
    · rintro ⟨⟩
      exact .deliver waits

/-- Once the moves from the own tiers have failed, only the newcomer may run there. -/
theorem newcomer_of_failed {w : View} {r u : Nat}
    (failed : w.landed.source cpu (tierOrder ro w.now cpu) = none)
    (own : r ∈ ownTiers ro w.now.nrCpuIds cpu) (member : u ∈ w.landed.dsq r)
    (allowed : (w.landed.task u).cpusPtr cpu = true) : (r, u) ∈ w.pending := by
  rcases View.mem_landed.mp member with old | new
  · have tried := mem_tierOrder.mpr ⟨own, List.ne_nil_of_mem old⟩
    exact absurd ⟨u, member, allowed⟩ (Queues.source_eq_none.mp failed r tried)
  · exact new

theorem takesEarliest_iff_standIn {prev : Option Nat} {k : Kernel} (fresh : k.Fresh)
    (ordered : InDeadlineOrder ro (k.landed env) cpu) (rests : ¬ UserschedRuns ro env k cpu) :
    TakesEarliest ro env cpu prev k ↔ StandInEarliest ro (k.shown ro env) cpu := by
  have moved_iff := fun {q p : Nat} => dispatch_moved_iff prev (q := q) (p := p) fresh rests
  have landed := shown_landed ro env k
  have cpus := shown_nrCpuIds ro env k
  have tried : ∀ e, (k.shown ro env).landed.source cpu (tierOrder ro (k.shown ro env).now cpu) =
      some e → (k.landed env).source cpu (k.tried ro env cpu) = some e := fun e found => by
    rw [Kernel.tried, View.inTurn, Queues.source_append, ← landed, found, Option.some_or]
  rw [← landed_nrCpuIds env k] at moved_iff
  unfold TakesEarliest StandInEarliest
  rw [cpus, landed]
  constructor
  · intro earliest q p found r inside u first
    rw [← landed] at found
    have own : q ∈ ownTiers ro k.nrCpuIds cpu :=
      cpus ▸ (mem_tierOrder.mp (Queues.source_mem found).1).1
    obtain ⟨member, allowed⟩ := Queues.mem_of_firstAllowed first
    exact earliest q own p ((moved_iff (by rwa [landed_nrCpuIds])).mpr (tried _ found)) r inside u
      member allowed
  · intro standIn q own p moved r inside u member allowed
    have source := (moved_iff (by rwa [landed_nrCpuIds])).mp moved
    cases found : (k.landed env).source cpu (tierOrder ro (k.shown ro env).now cpu) with
    | some e =>
      have same := (tried e (by rwa [landed])).symm.trans source
      cases Option.some.inj same
      obtain ⟨f, first, order⟩ :=
        ordered.firstAllowed_least (by rwa [landed_nrCpuIds]) member allowed
      exact not_lt_trans (standIn q p found r inside f first) order
    | none =>
      obtain ⟨waits, fits⟩ := Queues.mem_of_firstAllowed (Queues.source_mem source).2
      rw [← landed] at found member allowed waits fits
      have first := newcomer_of_failed found (by rwa [cpus]) waits fits
      have second := newcomer_of_failed found (by rwa [cpus]) member allowed
      cases shown_single first second
      exact BitVec.lt_irrefl _

end

/-- The dispatch takes the earliest task exactly when the user-space scheduler goes first,
or the earliest head fits and no newcomer is ahead of it, or what is taken in its place
happens to be the earliest. -/
theorem takesEarliest_iff (ro : Rodata) (env : Env) (cpu : Int) (prev : Option Nat) (k : Kernel)
    (fresh : k.Fresh) (ordered : InDeadlineOrder ro (k.landed env) cpu) :
    TakesEarliest ro env cpu prev k ↔
      UserschedRuns ro env k cpu ∨
        LeaderFits ro (k.shown ro env).now cpu ∧ ¬ NewcomerAhead ro (k.shown ro env) cpu ∨
        StandInEarliest ro (k.shown ro env) cpu := by
  by_cases runs : UserschedRuns ro env k cpu
  · refine iff_of_true (fun q own p moved => ?_) (.inl runs)
    obtain ⟨p', moved'⟩ := dispatch_runs prev fresh runs
    have task := ownTiers_subset ro _ cpu own
    have same := (moved.unique moved' (taskDsqs_ne_localOn ro _ task cpu)).1
    exact absurd same (taskDsqs_bounds ro _ task).2
  · rw [or_iff_right runs, takesEarliest_iff_standIn fresh ordered runs]
    rw [← shown_landed ro env k] at ordered
    exact (or_iff_right_of_imp fun fits => standIn_of_fits ordered fits.1 fits.2).symm

/-- The queue of the cache domain is led by task 1, which is pinned to CPU 1; behind it
waits task 2. Task 3 in the shared queue is earlier than task 2. -/
def pinnedHead : Kernel :=
  let k := Kernel.boot fun p =>
    if p = 1 then .waiting (fun cpu => cpu == 1) 1
    else if p = 2 then .waiting (fun _ => true) 9 else .waiting (fun _ => true) 5
  { (k.setDsq (llcToDsq 0) [1, 2]).setDsq sharedDsq [3] with
    nrCpuIds := 2
    slots := maxDispatchSlot }

theorem pinnedHead_fresh : pinnedHead.Fresh := ⟨rfl, fun _ => by decide⟩

theorem laterTask_taken : ¬ ∀ ro env cpu prev (k : Kernel), k.Fresh →
    InDeadlineOrder ro (k.landed env) cpu → TakesEarliest ro env cpu prev k := by
  intro earliest
  have taken := earliest (Rodata.kernelOnly .flat) (Env.busy 2 1000 0) 0 none pinnedHead
    pinnedHead_fresh ⟨⟨0, by decide +kernel⟩, by decide +kernel⟩
  have rests : ¬ UserschedRuns (Rodata.kernelOnly .flat) (Env.busy 2 1000 0) pinnedHead 0 :=
    fun runs => by cases runs.1
  have own : llcToDsq 0 ∈ ownTiers (Rodata.kernelOnly .flat) pinnedHead.nrCpuIds 0 := by
    decide +kernel
  have moved : Queues.Moved _ ((opsDispatch _ _ 0 none).run _).2.queues 0 (llcToDsq 0) 2 :=
    (dispatch_moved_iff none pinnedHead_fresh rests own).mpr (by decide +kernel)
  exact taken _ own 2 moved sharedDsq (by decide +kernel) 3 (by decide +kernel)
    (by decide +kernel) (by decide +kernel)

theorem takesEarliest_pinnedHead :
    TakesEarliest (Rodata.kernelOnly .flat) (Env.busy 2 1000 0) 1 none pinnedHead := by
  refine (takesEarliest_iff _ _ 1 none pinnedHead pinnedHead_fresh
    ⟨⟨0, by decide +kernel⟩, by decide +kernel⟩).mpr (.inr (.inl ⟨?_, ?_⟩))
  · exact ⟨1, by decide +kernel, by decide +kernel⟩
  · rintro ⟨e, pending, _⟩
    exact List.not_mem_nil pending

end Cognis.Bpf
