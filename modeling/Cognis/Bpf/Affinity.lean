import Cognis.Bpf.RoutingStats

/-! Which CPUs the program selects for a task, against the CPUs the task may use. -/
namespace Cognis.Bpf
open StateLogic

def einval : Int := -22

def rsSelectCpu (ro : Rodata) (env : Env) (pid : Nat) (cpu : Int) : BpfM Int := do
  if !env.taskFromPid pid then return einval
  let t := (← get).task pid
  let nrCpuIds := (← get).nrCpuIds
  if !env.hasSelectCpuAnd then
    if !env.testAndClearCpuIdle cpu then return env.pickIdle pid
    return cpu
  return pickIdleCpu ro env nrCpuIds t pid cpu scxWakeTtwu

/-- What the kernel's own selection answers about task `p`. -/
structure KernelSelects (env : Env) (p : Nat) (t : TaskStruct) : Prop where
  nonempty : ∃ cpu, t.cpusPtr cpu = true
  first : (∃ cpu, t.cpusPtr cpu = true) → t.cpusPtr (env.cpumaskFirst p) = true
  selectCpuAnd : ∀ prevCpu wakeFlags, env.selectCpuAnd p prevCpu wakeFlags < 0 ∨
    t.cpusPtr (env.selectCpuAnd p prevCpu wakeFlags) = true
  selectCpuDfl : ∀ prevCpu wakeFlags, (env.selectCpuDfl p prevCpu wakeFlags).2 = true →
    (env.selectCpuDfl p prevCpu wakeFlags).1 < 0 ∨
      t.cpusPtr (env.selectCpuDfl p prevCpu wakeFlags).1 = true
  pickIdle : env.pickIdle p < 0 ∨ t.cpusPtr (env.pickIdle p) = true

section

variable (ro : Rodata) (env : Env)

/-- On a wakeup the task stays on its idle CPU, which shares the cache of the faster waker. -/
def StaysNearWaker (nrCpuIds : Nat) (t : TaskStruct) (prevCpu : Int) (wakeFlags : U64) : Prop :=
  t.nrCpusAllowed ≠ 1 ∧ isWakeup wakeFlags = true ∧
    isCpuFaster env nrCpuIds env.thisCpu prevCpu = true ∧ t.cpusPtr env.thisCpu = true ∧
    cpusShareCache env nrCpuIds env.thisCpu prevCpu = true ∧ isSmtIdle ro env prevCpu = true ∧
    env.testAndClearCpuIdle prevCpu = true

/-- The requested CPU is idle and is returned although the task may not use it. -/
def ReturnsForbidden (nrCpuIds pid : Nat) (t : TaskStruct) (cpu : Int) : Prop :=
  env.taskFromPid pid = true ∧ 0 ≤ cpu ∧ t.cpusPtr cpu = false ∧
    (env.hasSelectCpuAnd = false ∧ env.testAndClearCpuIdle cpu = true ∨
      env.hasSelectCpuAnd = true ∧ StaysNearWaker ro env nrCpuIds t cpu scxWakeTtwu)

/-- The CPUs selected for `p` are ones it may use: what `cognis_select_cpu` returns and
inserts into, where `cognis_enqueue` migrates to, and what `rs_select_cpu` returns. -/
structure RespectsAffinity (p : Nat) (prevCpu : Int) (wakeFlags enqFlags : U64) (requested : Int)
    (k : Kernel) : Prop where
  selected : (k.task p).cpusPtr ((cognisSelectCpu ro env p prevCpu wakeFlags).run k).1 = true
  direct : ∀ q, (q, p) ∈ ((cognisSelectCpu ro env p prevCpu wakeFlags).run k).2.inserts →
    (q, p) ∈ k.inserts ∨ ∃ cpu, (k.task p).cpusPtr cpu = true ∧ q = localOn cpu
  migrated : ∀ tctx cpu,
    enqueueRoute ro env k.nrCpuIds (k.task p) p tctx enqFlags = .idle cpu →
      (k.task p).cpusPtr cpu = true
  requested : 0 ≤ ((rsSelectCpu ro env p requested).run k).1 →
    (k.task p).cpusPtr ((rsSelectCpu ro env p requested).run k).1 = true

end

section

variable {ro : Rodata} {env : Env} {n p : Nat} {t : TaskStruct}

theorem isWakeup_maskSync (wakeFlags : U64) :
    isWakeup (if ro.noWakeSync then wakeFlags &&& ~~~scxWakeSync else wakeFlags) =
      isWakeup wakeFlags := by
  split
  · have kept : ~~~scxWakeSync &&& scxWakeTtwu = scxWakeTtwu := by decide
    rw [isWakeup, BitVec.and_assoc, kept, isWakeup]
  · rfl

/-- A CPU that the kernel does not vouch for is returned in one case only. -/
theorem pickIdleCpu_allowed (kernel : KernelSelects env p t) {prevCpu : Int} {wakeFlags : U64}
    (leaves : ¬ StaysNearWaker ro env n t prevCpu wakeFlags)
    (found : 0 ≤ pickIdleCpu ro env n t p prevCpu wakeFlags) :
    t.cpusPtr (pickIdleCpu ro env n t p prevCpu wakeFlags) = true := by
  have busy : ¬ 0 ≤ ebusy := by decide
  unfold pickIdleCpu at found ⊢
  dsimp only at found ⊢
  rw [isWakeup_maskSync] at found ⊢
  by_cases single : t.nrCpusAllowed = 1
  · rw [if_pos single] at found ⊢
    split at found
    · rename_i idle
      rw [if_pos idle]
      simp only [Bool.and_eq_true] at idle
      exact idle.1.2
    · exact absurd found busy
  rw [if_neg single] at found ⊢
  have moves : ¬ ((isWakeup wakeFlags && isCpuFaster env n env.thisCpu prevCpu &&
      t.cpusPtr env.thisCpu && (cpusShareCache env n env.thisCpu prevCpu &&
        isSmtIdle ro env prevCpu && env.testAndClearCpuIdle prevCpu)) = true) := by
    intro stays
    simp only [Bool.and_eq_true] at stays
    obtain ⟨⟨⟨wakeup, faster⟩, allowed⟩, ⟨shared, smt⟩, idle⟩ := stays
    exact leaves ⟨single, wakeup, faster, allowed, shared, smt, idle⟩
  rw [if_neg moves] at found ⊢
  generalize (if (isWakeup wakeFlags && isCpuFaster env n env.thisCpu prevCpu &&
    t.cpusPtr env.thisCpu) = true then env.thisCpu else prevCpu) = target at found ⊢
  generalize (if ro.noWakeSync = true then wakeFlags &&& ~~~scxWakeSync else wakeFlags) = flags
    at found ⊢
  split at found
  · rename_i old
    rw [if_pos old]
    split at found
    · exact absurd found busy
    · rename_i wakeup
      rw [if_neg wakeup]
      split at found
      · rename_i idle
        rw [if_pos idle]
        exact (kernel.selectCpuDfl _ _ idle).resolve_left (Int.not_lt.mpr found)
      · exact absurd found busy
  · rename_i new
    rw [if_neg new]
    exact (kernel.selectCpuAnd _ _).resolve_left (Int.not_lt.mpr found)

theorem pickIdleCpu_stays {prevCpu : Int} {wakeFlags : U64}
    (stays : StaysNearWaker ro env n t prevCpu wakeFlags) :
    pickIdleCpu ro env n t p prevCpu wakeFlags = prevCpu := by
  obtain ⟨several, wakeup, faster, allowed, shared, smt, idle⟩ := stays
  unfold pickIdleCpu
  dsimp only
  rw [isWakeup_maskSync, if_neg several]
  simp only [wakeup, faster, allowed, shared, smt, idle, Bool.and_self, if_true]

theorem usablePrevCpu_allowed (kernel : KernelSelects env p t) (prevCpu : Int) :
    t.cpusPtr (if !t.cpusPtr prevCpu then
      (if t.cpusPtr env.thisCpu then env.thisCpu else env.cpumaskFirst p) else prevCpu) = true := by
  split
  · split
    · assumption
    · exact kernel.first kernel.nonempty
  · simpa using ‹¬ (!t.cpusPtr prevCpu) = true›

theorem cognisSelectCpu_allowed {k : Kernel} (kernel : KernelSelects env p (k.task p))
    (prevCpu : Int) (wakeFlags : U64) :
    (k.task p).cpusPtr ((cognisSelectCpu ro env p prevCpu wakeFlags).run k).1 = true := by
  have usable := usablePrevCpu_allowed kernel prevCpu
  simp only [cognisSelectCpu, run_then, run_getThe, ↓run_ite, run_done]
  generalize (if (!(k.task p).cpusPtr prevCpu) = true then
    (if (k.task p).cpusPtr env.thisCpu = true then env.thisCpu else env.cpumaskFirst p)
      else prevCpu) = usableCpu at usable ⊢
  split
  · exact usable
  split
  · exact usable
  split
  · rename_i found
    by_cases stays : StaysNearWaker ro env k.nrCpuIds (k.task p) usableCpu wakeFlags
    · rwa [pickIdleCpu_stays stays]
    · exact pickIdleCpu_allowed kernel stays found
  · exact usable

theorem cognisSelectCpu_direct {k : Kernel} (kernel : KernelSelects env p (k.task p))
    (prevCpu : Int) (wakeFlags : U64) (q : Nat)
    (inserted : (q, p) ∈ ((cognisSelectCpu ro env p prevCpu wakeFlags).run k).2.inserts) :
    (q, p) ∈ k.inserts ∨ ∃ cpu, (k.task p).cpusPtr cpu = true ∧ q = localOn cpu := by
  have inserts : ((cognisSelectCpu ro env p prevCpu wakeFlags).run k).2.inserts = k.inserts ∨ _ :=
    cognisSelectCpu_inserts p prevCpu wakeFlags k
  rcases inserts with none | one
  · exact .inl (none ▸ inserted)
  · rw [one] at inserted
    rcases List.mem_append.mp inserted with old | new
    · exact .inl old
    · have same := (Prod.mk.inj (List.mem_singleton.mp new)).1
      exact .inr ⟨_, cognisSelectCpu_allowed kernel prevCpu wakeFlags, same⟩

theorem enqueueRoute_allowed (kernel : KernelSelects env p t) {tctx : TaskCtx} {enqFlags : U64}
    {cpu : Int} (route : enqueueRoute ro env n t p tctx enqFlags = .idle cpu) :
    t.cpusPtr cpu = true := by
  unfold enqueueRoute at route
  dsimp only at route
  split at route
  · cases route
  split at route
  · cases route
  split at route
  · rename_i migrates
    cases route
    have found := of_decide_eq_true (Bool.and_eq_true_iff.mp migrates).2
    -- An enqueue is no wakeup for `pick_idle_cpu`.
    have leaves : ¬ StaysNearWaker ro env n t t.cpu 0 := fun stays => by
      have wakeup := stays.2.1
      cases wakeup
    exact pickIdleCpu_allowed kernel leaves found
  · cases route

theorem rsSelectCpu_run (pid : Nat) (cpu : Int) (k : Kernel) :
    ((rsSelectCpu ro env pid cpu).run k).1 =
      if env.taskFromPid pid = false then einval
      else if env.hasSelectCpuAnd = false then
        (if env.testAndClearCpuIdle cpu then cpu else env.pickIdle pid)
      else pickIdleCpu ro env k.nrCpuIds (k.task pid) pid cpu scxWakeTtwu := by
  cases found : env.taskFromPid pid <;> cases api : env.hasSelectCpuAnd <;>
    cases idle : env.testAndClearCpuIdle cpu <;>
    simp only [rsSelectCpu, found, api, idle, run_then, run_getThe, run_done, Bool.not_true,
      Bool.not_false, Bool.false_eq_true, Bool.true_eq_false, if_true, if_false]

theorem rsSelectCpu_allowed_iff {k : Kernel} (kernel : KernelSelects env p (k.task p)) (cpu : Int) :
    (0 ≤ ((rsSelectCpu ro env p cpu).run k).1 →
        (k.task p).cpusPtr ((rsSelectCpu ro env p cpu).run k).1 = true) ↔
      ¬ ReturnsForbidden ro env k.nrCpuIds p (k.task p) cpu := by
  rw [rsSelectCpu_run]
  constructor
  · rintro allowed ⟨found, nonnegative, forbidden, ⟨api, idle⟩ | ⟨api, stays⟩⟩
    · simp only [found, api, idle, Bool.true_eq_false, if_false, if_true, forbidden] at allowed
      cases allowed nonnegative
    · simp only [found, api, Bool.true_eq_false, if_false, pickIdleCpu_stays stays,
        forbidden] at allowed
      cases allowed nonnegative
  · intro safe selected
    have unknown : ¬ 0 ≤ einval := by decide
    split at selected
    · exact absurd selected unknown
    rename_i found
    rw [if_neg found]
    split at selected
    · rename_i api
      rw [if_pos api]
      split at selected
      · rename_i idle
        rw [if_pos idle]
        by_contra forbidden
        exact safe ⟨Bool.not_eq_false _ ▸ found, selected, Bool.not_eq_true _ ▸ forbidden,
          .inl ⟨api, idle⟩⟩
      · rename_i idle
        rw [if_neg idle]
        exact kernel.pickIdle.resolve_left (Int.not_lt.mpr selected)
    · rename_i api
      rw [if_neg api]
      by_cases stays : StaysNearWaker ro env k.nrCpuIds (k.task p) cpu scxWakeTtwu
      · rw [pickIdleCpu_stays stays] at selected ⊢
        by_contra forbidden
        exact safe ⟨Bool.not_eq_false _ ▸ found, selected, Bool.not_eq_true _ ▸ forbidden,
          .inr ⟨Bool.not_eq_false _ ▸ api, stays⟩⟩
      · exact pickIdleCpu_allowed kernel stays selected

end

/-- The selected CPUs are allowed unless `rs_select_cpu` returns the requested CPU unchecked. -/
theorem respectsAffinity_iff (ro : Rodata) (env : Env) (p : Nat) (prevCpu : Int)
    (wakeFlags enqFlags : U64) (requested : Int) (k : Kernel)
    (kernel : KernelSelects env p (k.task p)) :
    RespectsAffinity ro env p prevCpu wakeFlags enqFlags requested k ↔
      ¬ ReturnsForbidden ro env k.nrCpuIds p (k.task p) requested := by
  rw [← rsSelectCpu_allowed_iff kernel]
  exact ⟨RespectsAffinity.requested, fun allowed =>
    ⟨cognisSelectCpu_allowed kernel prevCpu wakeFlags,
      cognisSelectCpu_direct kernel prevCpu wakeFlags,
      fun _ _ route => enqueueRoute_allowed kernel route, allowed⟩⟩

/-- An old kernel with two idle CPUs, and a task that may only use CPU 1. -/
def oldKernel : Env :=
  { Env.busy 2 1000 0 with
    hasSelectCpuAnd := false
    testAndClearCpuIdle := fun _ => true
    cpumaskFirst := fun _ => 1 }

def pinnedTask : Kernel :=
  { Kernel.boot fun _ => .waiting (fun cpu => cpu == 1) 0 with nrCpuIds := 2 }

theorem oldKernel_selects : KernelSelects oldKernel 7 (pinnedTask.task 7) where
  nonempty := ⟨1, rfl⟩
  first := fun _ => rfl
  selectCpuAnd := fun _ _ => .inl (Int.negSucc_lt_zero 15)
  selectCpuDfl := fun _ _ idle => by cases idle
  pickIdle := .inl (by decide)

theorem forbiddenCpu_returned : ¬ ∀ ro env p prevCpu wakeFlags enqFlags requested k,
    KernelSelects env p (k.task p) →
      RespectsAffinity ro env p prevCpu wakeFlags enqFlags requested k := by
  intro respects
  have allowed := (respects (.kernelOnly .flat) oldKernel 7 1 0 0 0 pinnedTask
    oldKernel_selects).requested
  exact absurd (allowed (by decide)) (by decide)

theorem respectsAffinity_pinned :
    RespectsAffinity (.kernelOnly .flat) oldKernel 7 0 0 0 1 pinnedTask :=
  (respectsAffinity_iff _ _ 7 0 0 0 1 pinnedTask oldKernel_selects).mpr fun forbidden => by
    cases forbidden.2.2.1

end Cognis.Bpf
