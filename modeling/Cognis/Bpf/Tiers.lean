import Cognis.Bpf.Dispatch
import Cognis.Bpf.Reads

/-! The four tiers that serve a CPU: which one is tried first, and that the others
are tried after it. -/
namespace Cognis.Bpf
open StateLogic

section

variable (vtimeOf : Nat → U64)

theorem earlierTier_cases (best tier : Tier) :
    earlierTier vtimeOf best tier = tier ∧ tier.1.isSome = true ∨
      earlierTier vtimeOf best tier = best ∧ (tier.1.isSome = true → best.1.isSome = true) := by
  unfold earlierTier
  cases head : tier.1 with
  | none => exact .inr ⟨rfl, fun h => by cases h⟩
  | some p =>
    split
    · exact .inl ⟨rfl, rfl⟩
    · rename_i later
      refine .inr ⟨rfl, fun _ => ?_⟩
      cases first : best.1 with
      | none => simp [isDeadlineMin, first] at later
      | some r => rfl

/-- The earliest tier of a list, as a fold of the code's comparison. -/
def pickTier (best : Tier) (tiers : List Tier) : Tier := tiers.foldl (earlierTier vtimeOf) best

theorem pickTier_mem (best : Tier) (tiers : List Tier) :
    pickTier vtimeOf best tiers = best ∨ pickTier vtimeOf best tiers ∈ tiers := by
  induction tiers generalizing best with
  | nil => exact .inl rfl
  | cons t tiers ih =>
    have rest := ih (earlierTier vtimeOf best t)
    simp only [pickTier, List.foldl_cons] at rest ⊢
    rcases rest with same | member
    · rw [same]
      rcases earlierTier_cases vtimeOf best t with ⟨eq, _⟩ | ⟨eq, _⟩
      · exact .inr (by rw [eq]; exact List.mem_cons_self)
      · exact .inl eq
    · exact .inr (List.mem_cons_of_mem _ member)

theorem pickTier_isSome (best : Tier) (tiers : List Tier)
    (some : best.1.isSome = true ∨ ∃ t ∈ tiers, t.1.isSome = true) :
    (pickTier vtimeOf best tiers).1.isSome = true := by
  induction tiers generalizing best with
  | nil => simpa [pickTier] using some
  | cons t tiers ih =>
    apply ih (earlierTier vtimeOf best t)
    rcases earlierTier_cases vtimeOf best t with ⟨eq, found⟩ | ⟨eq, keeps⟩
    · exact .inl (by rw [eq]; exact found)
    · rw [eq]
      rcases some with old | ⟨u, member, found⟩
      · exact .inl old
      · rcases List.mem_cons.mp member with rfl | later
        · exact .inl (keeps found)
        · exact .inr ⟨u, later, found⟩

theorem pickTier_least (best : Tier) (tiers : List Tier) {p : Nat}
    (first : (pickTier vtimeOf best tiers).1 = some p) :
    (∀ b, best.1 = some b → ¬ vtimeOf b < vtimeOf p) ∧
      ∀ t ∈ tiers, ∀ r, t.1 = some r → ¬ vtimeOf r < vtimeOf p := by
  induction tiers generalizing best with
  | nil =>
    refine ⟨fun b head => ?_, by simp⟩
    cases Option.some.inj (head.symm.trans first)
    exact BitVec.lt_irrefl _
  | cons t tiers ih =>
    obtain ⟨kept, rest⟩ := ih (earlierTier vtimeOf best t) first
    suffices both : (∀ b, best.1 = some b → ¬ vtimeOf b < vtimeOf p) ∧
        ∀ r, t.1 = some r → ¬ vtimeOf r < vtimeOf p from
      ⟨both.1, List.forall_mem_cons.mpr ⟨both.2, rest⟩⟩
    simp only [earlierTier, BitVec.lt_def] at kept ⊢
    obtain ⟨best, q⟩ := best
    obtain ⟨head, q'⟩ := t
    cases best <;> cases head <;> simp [isDeadlineMin, BitVec.lt_def] at kept ⊢
    · exact kept
    · exact kept
    · split at kept <;> simp at kept <;> omega

end

section

variable (ro : Rodata) (env : Env)

theorem moveIf_tries (cond : Bool) (cpu : Int) (q : Nat) (k : Kernel) :
    Tries cpu (moveIf cond cpu q) k (if cond then [q] else []) := by
  cases cond with
  | false => exact Tries.never
  | true => exact Tries.moveToLocal cpu q k

theorem tierMoves_tries (cpu : Int) (best localTier llc node shared : Tier) (k : Kernel) :
    Tries cpu (tierMoves cpu best localTier llc node shared) k
      ((if best.1.isSome then [best.2] else []) ++
        [localTier, llc, node, shared].flatMap fun t =>
          if t.1.isSome && best.2 != t.2 then [t.2] else []) := by
  simp only [List.flatMap_cons, List.flatMap_nil, List.append_nil]
  exact (moveIf_tries _ cpu _ k).orElse fun s _ => (moveIf_tries _ cpu _ s).orElse fun s _ =>
    (moveIf_tries _ cpu _ s).orElse fun s _ => (moveIf_tries _ cpu _ s).orElse fun s _ =>
      moveIf_tries _ cpu _ s

def tierOf (v : Queues) (q : Nat) : Tier := ((v.dsq q).head?, q)

/-- The node tier is not read on a single-node system. -/
def nodeTierOf (v : Queues) (cpu : Int) : Tier :=
  if ro.nrNodes > 1 then tierOf v (cpuNodeDsq ro v.nrCpuIds cpu)
  else (none, cpuNodeDsq ro v.nrCpuIds cpu)

def tiersOf (v : Queues) (cpu : Int) : List Tier :=
  [tierOf v (cpuToDsq v.nrCpuIds cpu), tierOf v (cpuLlcDsq ro v.nrCpuIds cpu), nodeTierOf ro v cpu,
    tierOf v sharedDsq]

/-- The tier whose head has the earliest deadline, as the code compares them. -/
def leadingTier (v : Queues) (cpu : Int) : Tier :=
  pickTier (fun r => (v.task r).dsqVtime) (none, 0) (tiersOf ro v cpu)

/-- The leading tier, then the other tiers that show a head, from near to far. -/
def tierOrder (v : Queues) (cpu : Int) : List Nat :=
  (if (leadingTier ro v cpu).1.isSome then [(leadingTier ro v cpu).2] else []) ++
    (ownTiers ro v.nrCpuIds cpu).filter fun q =>
      (tierOf v q).1.isSome && (leadingTier ro v cpu).2 != q

theorem earlierTier_first (vtimeOf : Nat → U64) (tier : Tier) :
    earlierTier vtimeOf (none, 0) tier = (tier.1, if tier.1.isSome then tier.2 else 0) := by
  obtain ⟨head, q⟩ := tier
  cases head <;> rfl

theorem moveFromOwnTiers_run (cpu : Int) (k : Kernel) :
    (moveFromOwnTiers ro cpu).run k =
      (tierMoves cpu (leadingTier ro k.queues cpu) (tierOf k.queues (cpuToDsq k.nrCpuIds cpu))
        (tierOf k.queues (cpuLlcDsq ro k.nrCpuIds cpu)) (nodeTierOf ro k.queues cpu)
        (tierOf k.queues sharedDsq)).run (k.touchAll (ownTiers ro k.nrCpuIds cpu)) := by
  simp only [leadingTier, pickTier, tiersOf, List.foldl_cons, List.foldl_nil, earlierTier_first]
  by_cases multi : ro.nrNodes > 1
  · simp only [moveFromOwnTiers, nodeTierOf, if_pos multi, peekTier, run_then, run_getThe,
      scxBpfDsqPeek_run, run_done, Kernel.touch_eq, Kernel.touchAll_append, ownTiers]
    rfl
  · simp only [moveFromOwnTiers, nodeTierOf, if_neg multi, peekTier, run_then, run_getThe,
      scxBpfDsqPeek_run, run_done, Kernel.touch_eq, Kernel.touchAll_append, ownTiers]
    rfl

theorem leadingTier_mem (v : Queues) (cpu : Int)
    (found : (leadingTier ro v cpu).1.isSome = true) : leadingTier ro v cpu ∈ tiersOf ro v cpu := by
  rcases pickTier_mem (fun r => (v.task r).dsqVtime) (none, 0) (tiersOf ro v cpu) with none | member
  · rw [leadingTier, none] at found
    cases found
  · exact member

theorem mem_tiersOf {v : Queues} {cpu : Int} {r : Nat}
    (own : r ∈ ownTiers ro v.nrCpuIds cpu) :
    tierOf v r ∈ tiersOf ro v cpu := by
  simp only [ownTiers, List.mem_append, List.mem_cons, List.not_mem_nil, or_false] at own
  rcases own with ((rfl | rfl) | node) | rfl
  · simp [tiersOf]
  · simp [tiersOf]
  · split at node
    · rename_i multi
      rcases List.mem_singleton.mp node with rfl
      simp [tiersOf, nodeTierOf, multi]
    · cases node
  · simp [tiersOf]

/-- The tiers with a head that the leader did not try already. -/
theorem tiersOf_flatMap (v : Queues) (cpu : Int) (b : Nat) :
    ((tiersOf ro v cpu).flatMap fun t => if t.1.isSome && b != t.2 then [t.2] else []) =
      (ownTiers ro v.nrCpuIds cpu).filter fun q => (tierOf v q).1.isSome && b != q := by
  have one : ∀ q, (if (tierOf v q).1.isSome && b != (tierOf v q).2 then [(tierOf v q).2] else []) =
      [q].filter fun q => (tierOf v q).1.isSome && b != q := fun q => by
    rw [List.filter_cons, List.filter_nil]
    rfl
  by_cases multi : ro.nrNodes > 1
  · simp only [tiersOf, nodeTierOf, if_pos multi, List.flatMap_cons, List.flatMap_nil, one,
      ownTiers, ← List.filter_append, List.append_nil]
    rfl
  · simp only [tiersOf, nodeTierOf, if_neg multi, List.flatMap_cons, List.flatMap_nil, one,
      ownTiers, Option.isSome_none, Bool.false_and, Bool.false_eq_true, if_false, List.nil_append,
      ← List.filter_append, List.append_nil]
    rfl

theorem moveFromOwnTiers_tries (cpu : Int) (k : Kernel) :
    Tries cpu (moveFromOwnTiers ro cpu) k (tierOrder ro k.queues cpu) := by
  rw [tierOrder, ← tiersOf_flatMap]
  exact Tries.afterReads (moveFromOwnTiers_run ro cpu k) rfl (tierMoves_tries cpu ..)

theorem tiersOf_known {v : Queues} {cpu : Int} {t : Tier} (member : t ∈ tiersOf ro v cpu) :
    t.2 ∈ taskDsqs ro v.nrCpuIds := by
  simp only [tiersOf, List.mem_cons, List.not_mem_nil, or_false] at member
  rcases member with rfl | rfl | rfl | rfl
  · exact cpuToDsq_mem ro _ cpu
  · exact llcToDsq_mem ro _ (cpuLlcIdxFor_lt ro _ cpu)
  · unfold nodeTierOf
    split <;> exact nodeToDsq_mem ro _ (cpuNodeIdxFor_lt ro _ cpu)
  · exact sharedDsq_mem ro _

end

section

variable {ro : Rodata} {v : Queues} {cpu : Int} {q p : Nat}

theorem tierOf_isSome : (tierOf v q).1.isSome = true ↔ v.dsq q ≠ [] := by
  simp [tierOf, Option.isSome_iff_ne_none]

theorem leadingTier_own (lead : (leadingTier ro v cpu).1 = some p) :
    (leadingTier ro v cpu).2 ∈ ownTiers ro v.nrCpuIds cpu ∧
      (v.dsq (leadingTier ro v cpu).2).head? = some p := by
  have tier := leadingTier_mem ro v cpu (by rw [lead]; rfl)
  generalize leadingTier ro v cpu = t at tier lead ⊢
  by_cases multi : ro.nrNodes > 1
  · simp only [tiersOf, nodeTierOf, if_pos multi, List.mem_cons, List.not_mem_nil, or_false] at tier
    rcases tier with rfl | rfl | rfl | rfl <;> exact ⟨by simp [ownTiers, tierOf, multi], lead⟩
  · simp only [tiersOf, nodeTierOf, if_neg multi, List.mem_cons, List.not_mem_nil, or_false] at tier
    rcases tier with rfl | rfl | rfl | rfl
    · exact ⟨by simp [ownTiers, tierOf], lead⟩
    · exact ⟨by simp [ownTiers, tierOf], lead⟩
    · cases lead
    · exact ⟨by simp [ownTiers, tierOf], lead⟩

/-- Every tier that shows a head is tried. -/
theorem mem_tierOrder :
    q ∈ tierOrder ro v cpu ↔ q ∈ ownTiers ro v.nrCpuIds cpu ∧ v.dsq q ≠ [] := by
  rw [tierOrder, List.mem_append, List.mem_filter]
  constructor
  · rintro (lead | ⟨own, shown⟩)
    · split at lead
      · rename_i some_
        obtain ⟨p, head⟩ := Option.isSome_iff_exists.mp some_
        rw [List.mem_singleton.mp lead]
        obtain ⟨own, front⟩ := leadingTier_own head
        exact ⟨own, List.ne_nil_of_mem (List.mem_of_head? front)⟩
      · cases lead
    · exact ⟨own, tierOf_isSome.mp (Bool.and_eq_true_iff.mp shown).1⟩
  · rintro ⟨own, shown⟩
    have head : (tierOf v q).1.isSome = true := tierOf_isSome.mpr shown
    have lead : (leadingTier ro v cpu).1.isSome = true :=
      pickTier_isSome _ _ _ (.inr ⟨_, mem_tiersOf ro own, head⟩)
    by_cases first : (leadingTier ro v cpu).2 = q
    · exact .inl (by simp [lead, first])
    · exact .inr ⟨own, by simp [head, first]⟩

end

end Cognis.Bpf
