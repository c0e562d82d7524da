import Mathlib.Algebra.Order.BigOperators.Group.List
import Cognis.Bpf.WakeupCredit
import Cognis.Loader.Profile

/-! The slices of `task_slice` against the profile they are configured by. The weight
scales the slice before the load divides it. -/
namespace Cognis.Bpf
open StateLogic Loader

section

variable {ro : Rodata} {env : Env}

/-- `task_slice` in exact arithmetic. -/
def exactSlice (sliceNs sliceMinNs weight pressure : Nat) : Nat :=
  max (sliceNs * weight / 100 / max pressure 1) sliceMinNs

theorem exactSlice_antitone {sliceNs sliceMinNs weight n m : Nat} (deeper : n ≤ m) :
    exactSlice sliceNs sliceMinNs weight m ≤ exactSlice sliceNs sliceMinNs weight n :=
  max_le_max_right _ (Nat.div_le_div_left (max_le_max_right 1 deeper) (by omega))

theorem exactSlice_le_iff {sliceNs sliceMinNs : Nat} (order : sliceMinNs ≤ sliceNs)
    (weight n : Nat) :
    exactSlice sliceNs sliceMinNs weight n ≤ sliceNs ↔
      sliceNs * weight < 100 * (sliceNs + 1) * max n 1 := by
  have load : 0 < max n 1 := by omega
  rw [exactSlice, max_le_iff, and_iff_left order, Nat.div_div_eq_div_mul, ← Nat.lt_succ_iff,
    Nat.div_lt_iff_lt_mul (by omega), Nat.succ_eq_add_one, ← Nat.mul_assoc, Nat.mul_comm _ 100]

theorem taskSlice_toNat (scales : env.Scales) {k : Kernel} {p : Nat}
    (fits : ro.sliceNs.toNat * 10000 < 2 ^ 64) (heavy : (k.task p).weight.toNat ≤ 10000)
    (depths : ∀ q, (k.dsq q).length < 2 ^ 31) (cpu : Int) :
    ((taskSlice ro env p cpu).run k).1.toNat =
      exactSlice ro.sliceNs.toNat ro.sliceMinNs.toNat (k.task p).weight.toNat
        (pressureOf ro k.queues cpu) := by
  have pressure : pressureOf ro k.queues cpu < 2 ^ 33 := pressureOf_lt depths cpu
  have nrWait : (BitVec.ofNat 64 (pressureOf ro k.queues cpu)).toNat =
      pressureOf ro k.queues cpu := by
    rw [BitVec.toNat_ofNat]
    exact Nat.mod_eq_of_lt (by omega)
  have product : ro.sliceNs.toNat * (k.task p).weight.toNat ≤ ro.sliceNs.toNat * 10000 :=
    Nat.mul_le_mul_left _ heavy
  have hundred : (100 : U64).toNat = 100 := rfl
  have one : (1 : U64).toNat = 1 := rfl
  rw [taskSlice_run, sliceOf, maxU_toNat, BitVec.toNat_udiv, scales.byWeight, BitVec.toNat_udiv,
    BitVec.toNat_mul_of_lt (by omega), maxU_toNat, nrWait, hundred, one, exactSlice]

/-- The profile's promise about the slices of `p` on `cpu`. -/
structure SliceWithin (profile : BpfProfile) (ro : Rodata) (env : Env) (k : Kernel) (p : Nat)
    (cpu : Int) : Prop where
  low : profile.sliceMinNs ≤ ((taskSlice ro env p cpu).run k).1.toNat
  high : ((taskSlice ro env p cpu).run k).1.toNat ≤ profile.sliceNs
  antitone : ∀ k' : Kernel, (k'.task p).weight = (k.task p).weight → k'.nrCpuIds = k.nrCpuIds →
    (∀ q, (k'.dsq q).length < 2 ^ 31) →
    (∀ q ∈ pressureQueues ro k.nrCpuIds cpu, (k.dsq q).length ≤ (k'.dsq q).length) →
    ((taskSlice ro env p cpu).run k').1.toNat ≤ ((taskSlice ro env p cpu).run k).1.toNat

theorem pressureOf_mono {v v' : Queues} {cpu : Int} (cpus : v'.nrCpuIds = v.nrCpuIds)
    (deeper : ∀ q ∈ pressureQueues ro v.nrCpuIds cpu, (v.dsq q).length ≤ (v'.dsq q).length) :
    pressureOf ro v cpu ≤ pressureOf ro v' cpu := by
  unfold pressureOf
  rw [cpus]
  exact List.sum_le_sum deeper

/-- The minimum and the order hold under any load. The ceiling holds exactly where the load
outweighs the task: up to rounding, where the weight is at most 100 times the pressure. -/
theorem task_slice_within_iff (scales : env.Scales) {opts : Opts}
    (exports : (BpfProfile.fromOpts opts).Exports ro)
    (fits : (BpfProfile.fromOpts opts).sliceNs * 10000 < 2 ^ 64) {k : Kernel} {p : Nat}
    (heavy : (k.task p).weight.toNat ≤ 10000) (depths : ∀ q, (k.dsq q).length < 2 ^ 31)
    (cpu : Int) :
    SliceWithin (.fromOpts opts) ro env k p cpu ↔
      (BpfProfile.fromOpts opts).sliceNs * (k.task p).weight.toNat <
        100 * ((BpfProfile.fromOpts opts).sliceNs + 1) * max (pressureOf ro k.queues cpu) 1 := by
  rw [← exports.sliceNs_toNat] at fits
  have slice := taskSlice_toNat scales fits heavy depths cpu
  rw [exports.sliceNs_toNat, exports.sliceMinNs_toNat] at slice
  have ceiling := exactSlice_le_iff (BpfProfile.fromOpts_min_le opts) (k.task p).weight.toNat
    (pressureOf ro k.queues cpu)
  rw [← ceiling, ← slice]
  constructor
  · exact fun within => within.high
  · intro high
    refine ⟨slice ▸ le_max_right _ _, high, ?_⟩
    intro k' weight cpus depths' deeper
    have slice' := taskSlice_toNat scales fits (weight ▸ heavy) depths' cpu
    rw [exports.sliceNs_toNat, exports.sliceMinNs_toNat, weight] at slice'
    rw [slice, slice']
    exact exactSlice_antitone (pressureOf_mono cpus deeper)

end

/-- Desktop defaults, and a task of the greatest weight in an idle system. -/
def heavyTask : Kernel :=
  { Kernel.boot fun _ => { TaskStruct.waiting (fun _ => true) 0 with weight := 10000 } with
    nrCpuIds := 1 }

def desktopOpts : Opts := ⟨0, 0, .desktop⟩

def desktopRodata : Rodata := { Rodata.kernelOnly .flat with stickyTasks := true }

theorem desktop_exports : (BpfProfile.fromOpts desktopOpts).Exports desktopRodata :=
  ⟨rfl, rfl, rfl, rfl, rfl, rfl⟩

theorem task_slice_within_iff_desktop :
    SliceWithin (.fromOpts desktopOpts) desktopRodata (Env.busy 1 0 0).scaling heavyTask 1 0 ↔
      1000000 * 10000 < 100 * (1000000 + 1) * max 0 1 :=
  task_slice_within_iff (Env.scaling_scales _) desktop_exports (by decide) (by decide)
    (fun _ => by simp [heavyTask, Kernel.boot]) 0

/-- A slice of 100 ms under a ceiling of 1 ms. -/
theorem task_slice_exceeds_ceiling :
    ((taskSlice desktopRodata (Env.busy 1 0 0).scaling 1 0).run heavyTask).1 = 100000000 ∧
      ¬ SliceWithin (.fromOpts desktopOpts) desktopRodata (Env.busy 1 0 0).scaling heavyTask 1
        0 := by
  have slice : ((taskSlice desktopRodata (Env.busy 1 0 0).scaling 1 0).run heavyTask).1 =
      100000000 := by
    rw [taskSlice_run]
    decide
  refine ⟨slice, ?_⟩
  intro within
  have high := within.high
  rw [slice] at high
  exact absurd high (by decide)

end Cognis.Bpf
