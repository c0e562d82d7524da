import Mathlib.Data.BitVec
import Cognis.Lib.Settling
import Cognis.Bpf.Charging

/-! The average length of a task's stays on a CPU, and the threshold below which the
task is sticky. Both shifts of the average round down, to the same multiple of four. -/
namespace Cognis.Bpf
open StateLogic Runs Settling

theorem calcAvg_toNat (oldVal newVal : U64) :
    (calcAvg oldVal newVal).toNat = oldVal.toNat - oldVal.toNat / 4 + newVal.toNat / 4 := by
  have bound := oldVal.isLt
  have bound' := newVal.isLt
  have quarter : ∀ x : U64, (x >>> 2).toNat = x.toNat / 4 := fun x => by
    rw [BitVec.toNat_ushiftRight, Nat.shiftRight_eq_div_pow]
  have below : (oldVal >>> 2).toNat ≤ oldVal.toNat := by
    rw [quarter]
    omega
  rw [calcAvg, BitVec.toNat_add, BitVec.toNat_sub_of_le (BitVec.le_def.mpr below), quarter, quarter,
    Nat.mod_eq_of_lt (by omega)]

theorem calcAvg_between (oldVal newVal : U64) :
    min oldVal.toNat newVal.toNat ≤ (calcAvg oldVal newVal).toNat ∧
      (calcAvg oldVal newVal).toNat ≤ max oldVal.toNat newVal.toNat := by
  rw [calcAvg_toNat]
  omega

/-- Distance of an average from the values that have the same quarter as `v`. -/
def quarterDist (v avg : U64) : ℕ :=
  (v.toNat / 4 * 4 - avg.toNat) + (avg.toNat - (v.toNat / 4 * 4 + 3))

theorem quarterDist_eq_zero_iff {v avg : U64} :
    quarterDist v avg = 0 ↔ avg.toNat / 4 = v.toNat / 4 := by
  unfold quarterDist
  omega

/-- Every application moves by the difference of the quarters, and never too far. -/
theorem calcAvg_approaches (v : U64) : Approaches (calcAvg · v) (quarterDist v) := by
  constructor
  · intro avg settled
    have same := quarterDist_eq_zero_iff.mp settled
    apply BitVec.eq_of_toNat_eq
    rw [calcAvg_toNat]
    omega
  · intro avg apart
    simp only [quarterDist, calcAvg_toNat] at apart ⊢
    omega

/-- The threshold is a multiple of four, so it does not cut through a quarter. -/
theorem sticky_of_settled {v avg : U64} (settled : quarterDist v avg = 0) :
    avg < 10 * nsecPerUsec ↔ v < 10 * nsecPerUsec := by
  have same := quarterDist_eq_zero_iff.mp settled
  have threshold : (10 * nsecPerUsec).toNat = 10000 := by decide
  rw [BitVec.lt_def, BitVec.lt_def, threshold]
  omega

section

variable {ro : Rodata} {p : Nat} {v : U64}

def Label.stops (p : Nat) : Label → Bool
  | .call (.stopping q) _ => q == p
  | _ => false

/-- Every stop of `p` in the run charges `v`. -/
def ChargesConstant (ro : Rodata) (p : Nat) (v : U64) (k : Kernel) (ls : List Label)
    (k' : Kernel) : Prop :=
  ∀ ls₁ ls₂ k₁ env tctx, ls = ls₁ ++ .call (.stopping p) env :: ls₂ → SystemRun ro k ls₁ k₁ →
    SystemRun ro k₁ (.call (.stopping p) env :: ls₂) k' → k₁.taskCtx p = some tctx →
    stoppingSlice env tctx = v

/-- A stop of the task averages once, any other step not at all. -/
theorem step_avg {l : Label} {k k' : Kernel} {tctx : TaskCtx} (step : Step ro k l k')
    (other : isUserschedTask ro p = false)
    (charge : ∀ env, l = .call (.stopping p) env → stoppingSlice env tctx = v)
    (storage : k.taskCtx p = some tctx) :
    ∃ tctx', k'.taskCtx p = some tctx' ∧
      tctx'.avgRuntime = if l.stops p then calcAvg tctx.avgRuntime v else tctx.avgRuntime := by
  cases step with
  | world h =>
    cases h
    exact ⟨tctx, storage, rfl⟩
  | call c env _ =>
    by_cases stop : c = .stopping p
    · subst stop
      have stopped : Callback.exec ro env k (.stopping p) = k.charged env p tctx :=
        cognisStopping_run other storage
      rw [stopped]
      refine ⟨_, Function.update_self .., ?_⟩
      simp only [Label.stops, beq_self_eq_true, if_true, charge env rfl]
    · obtain ⟨tctx', storage', change⟩ := exec_ctx ro env c storage
      have passes : Label.stops p (.call c env) = false := by
        cases c with
        | stopping q => exact beq_eq_false_iff_ne.mpr fun same => stop (same ▸ rfl)
        | _ => rfl
      refine ⟨tctx', storage', ?_⟩
      rw [passes]
      cases change with
      | stopped => exact absurd rfl stop
      | _ => rfl

theorem run_avg {ls : List Label} {k k' : Kernel} {tctx : TaskCtx} (run : SystemRun ro k ls k')
    (other : isUserschedTask ro p = false) (charged : ChargesConstant ro p v k ls k')
    (storage : k.taskCtx p = some tctx) :
    ∃ tctx', k'.taskCtx p = some tctx' ∧
      tctx'.avgRuntime = (calcAvg · v)^[ls.countP (Label.stops p)] tctx.avgRuntime := by
  induction run generalizing tctx with
  | nil => exact ⟨tctx, storage, rfl⟩
  | @cons s t u l ls step rest ih =>
    obtain ⟨tctx₁, storage₁, avg⟩ := step_avg step other (fun env same =>
      charged [] ls s env tctx (by rw [same]; rfl) (.nil s) (same ▸ .cons step rest) storage)
      storage
    have later : ChargesConstant ro p v t ls u := by
      intro ls₁ ls₂ k₁ env tctx' split first second
      exact charged (l :: ls₁) ls₂ k₁ env tctx' (by rw [split]; rfl) (.cons step first) second
    obtain ⟨tctx₂, storage₂, final⟩ := ih later storage₁
    refine ⟨tctx₂, storage₂, final.trans ?_⟩
    rw [avg, List.countP_cons]
    split
    · rw [Function.iterate_succ_apply]
    · rfl

/-- The average neither overflows nor leaves the interval of its arguments. Once a task
is charged `v` at every stop, finitely many stops bring it to a fixed value, and from
then on the task is sticky exactly when `v` is below the threshold. -/
theorem sticky_steady_state (k : Kernel) (tctx : TaskCtx) (v : U64)
    (other : isUserschedTask ro p = false) (storage : k.taskCtx p = some tctx) :
    (∀ oldVal newVal : U64,
      (calcAvg oldVal newVal).toNat = oldVal.toNat - oldVal.toNat / 4 + newVal.toNat / 4 ∧
        min oldVal.toNat newVal.toNat ≤ (calcAvg oldVal newVal).toNat ∧
        (calcAvg oldVal newVal).toNat ≤ max oldVal.toNat newVal.toNat) ∧
    ∃ (enough : ℕ) (avg : U64), calcAvg avg v = avg ∧ ∀ ls k', SystemRun ro k ls k' →
      ChargesConstant ro p v k ls k' → enough ≤ ls.countP (Label.stops p) →
        ∃ tctx', k'.taskCtx p = some tctx' ∧ tctx'.avgRuntime = avg ∧
          (ro.stickyTasks = true → (isTaskSticky ro tctx' = true ↔ v < 10 * nsecPerUsec)) := by
  refine ⟨fun a b => ⟨calcAvg_toNat a b, calcAvg_between a b⟩, ?_⟩
  have approaches := calcAvg_approaches v
  refine ⟨quarterDist v tctx.avgRuntime, _,
    approaches.iterate_fixed (Nat.le_refl (quarterDist v tctx.avgRuntime)),
    fun ls k' run charged enough => ?_⟩
  obtain ⟨tctx', storage', avg⟩ := run_avg run other charged storage
  refine ⟨tctx', storage', avg.trans (approaches.iterate_eq enough), fun sticky => ?_⟩
  have settled := approaches.iterate_settled enough
  rw [← avg] at settled
  rw [isTaskSticky, sticky, Bool.true_and, decide_eq_true_iff]
  exact sticky_of_settled settled

end

def stickyTasksSet : Rodata := { Rodata.kernelOnly .flat with stickyTasks := true }

theorem sticky_steady_state_oneTask :
    ∃ (enough : ℕ) (avg : U64), calcAvg avg 9999 = avg ∧
      ∀ ls k', SystemRun stickyTasksSet oneTask ls k' →
        ChargesConstant stickyTasksSet 1 9999 oneTask ls k' →
        enough ≤ ls.countP (Label.stops 1) →
          ∃ tctx', k'.taskCtx 1 = some tctx' ∧ tctx'.avgRuntime = avg ∧
            (stickyTasksSet.stickyTasks = true →
              (isTaskSticky stickyTasksSet tctx' = true ↔ (9999 : U64) < 10 * nsecPerUsec)) :=
  (sticky_steady_state oneTask {} 9999 rfl rfl).2

end Cognis.Bpf
