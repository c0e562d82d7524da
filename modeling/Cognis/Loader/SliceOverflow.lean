import Mathlib.Algebra.Order.Field.Rat
import Cognis.Bpf.SliceCeiling
import Cognis.Fallback.LatencyCredit

/-! The slice options through the products that both languages build on them. No product is
guarded, so it is the options that decide which of them fit into a machine word. -/
namespace Cognis.Loader
open Bpf Fallback Saturating

section

variable {refBase sliceNsMin : Nat}

theorem clampMax_eq (fits : refBase * 4 < 2 ^ 64) :
    clampMax refBase sliceNsMin = max (refBase * 4) sliceNsMin := by
  rw [clampMax, Nat.mod_eq_of_lt fits]

theorem boundSlice_low (label : TaskLabel) (slice : Nat) :
    sliceNsMin ≤ boundSlice refBase sliceNsMin label slice := by
  unfold boundSlice
  dsimp only
  split
  · exact le_min (le_max_of_le_left clamp_low) (le_max_right _ _)
  · exact clamp_low

theorem boundSlice_high (label : TaskLabel) (slice : Nat) :
    boundSlice refBase sliceNsMin label slice ≤ clampMax refBase sliceNsMin := by
  unfold boundSlice
  dsimp only
  split
  · exact min_le_right _ _
  · exact clamp_high (le_max_right _ _)

theorem boundSlice_realTime (fits : refBase * 4 < 2 ^ 64) (slice : Nat) :
    refBase ≤ boundSlice refBase sliceNsMin .realTime slice := by
  rw [boundSlice, if_pos rfl, clampMax_eq fits]
  exact le_min (le_max_right _ _) (le_max_of_le_left (Nat.le_mul_of_pos_right refBase (by decide)))

theorem sampleAssignedSlice_le {emaNs sliceNs bound : Nat} (ema_le : emaNs ≤ bound)
    (slice_le : sliceNs ≤ bound) : sampleAssignedSlice emaNs sliceNs ≤ bound := by
  unfold sampleAssignedSlice
  split
  · exact slice_le
  · have product : mul u64Max emaNs 7 ≤ emaNs * 7 := mul_le
    have word := Nat.mod_le (mul u64Max emaNs 7 + sliceNs) (2 ^ 64)
    omega

end

/-- The greatest slice a task can be given, where four times the ceiling fits. -/
def BpfProfile.greatestSlice (profile : BpfProfile) : Nat :=
  max (profile.sliceNs * 4) profile.sliceMinNs

/-- The configuration stays, and the mean assigned slice is one of slices within the bounds. -/
structure Tuned (profile : BpfProfile) (s : PolicyState) : Prop where
  base : s.baseSliceNs = profile.sliceNs
  min : s.sliceNsMin = profile.sliceMinNs
  ema : s.assignedSliceEmaNs ≤ max profile.greatestSlice autoSliceMaxNs

section

variable {F : Type} (fl : FeatureFloats F) {percpuLocal : Bool} {profile : BpfProfile}

theorem tuned_new (profile : BpfProfile) : Tuned profile (.new profile) :=
  ⟨rfl, rfl, le_max_of_le_right (SliceController.steady_new profile.sliceNs).high⟩

theorem deriveTaskPolicy_slice (nrOnlineCpus : Nat) (s : PolicyState) (task : QueuedRecord) :
    ∃ service, (s.deriveTaskPolicy fl nrOnlineCpus task).1.sliceNs =
      boundSlice s.baseSliceNs s.sliceNsMin (s.deriveTaskPolicy fl nrOnlineCpus task).1.label
        service := ⟨_, rfl⟩

theorem deriveTaskPolicy_label (nrOnlineCpus : Nat) (s : PolicyState) {task : QueuedRecord}
    (worker : task.isKernelWorker = true) :
    (s.deriveTaskPolicy fl nrOnlineCpus task).1.label = .realTime := if_pos worker

/-- What the fallback computes with the slice of one task. -/
structure SliceSound (profile : BpfProfile) (s : PolicyState) (policy : Policy) : Prop where
  low : profile.sliceMinNs ≤ policy.sliceNs
  high : policy.sliceNs ≤ profile.greatestSlice
  realTime : policy.label = .realTime → profile.sliceNs ≤ policy.sliceNs
  sample : 7 * s.assignedSliceEmaNs + policy.sliceNs < 2 ^ 64

theorem Tuned.slice_le {s : PolicyState} (tuned : Tuned profile s)
    (fits : profile.sliceNs * 4 < 2 ^ 64) (nrOnlineCpus : Nat) (task : QueuedRecord) :
    (s.deriveTaskPolicy fl nrOnlineCpus task).1.sliceNs ≤ profile.greatestSlice := by
  obtain ⟨service, slice⟩ := deriveTaskPolicy_slice fl nrOnlineCpus s task
  rw [slice, tuned.base, tuned.min, BpfProfile.greatestSlice, ← clampMax_eq fits]
  exact boundSlice_high _ service

theorem Tuned.sound {s : PolicyState} (tuned : Tuned profile s)
    (fits : profile.sliceNs * 4 < 2 ^ 64)
    (room : 8 * max profile.greatestSlice autoSliceMaxNs < 2 ^ 64) (nrOnlineCpus : Nat)
    (task : QueuedRecord) :
    SliceSound profile s (s.deriveTaskPolicy fl nrOnlineCpus task).1 := by
  have high := tuned.slice_le fl fits nrOnlineCpus task
  obtain ⟨service, slice⟩ := deriveTaskPolicy_slice fl nrOnlineCpus s task
  rw [tuned.base, tuned.min] at slice
  refine ⟨?_, high, ?_, ?_⟩
  · rw [slice]
    exact boundSlice_low _ service
  · intro realTime
    rw [slice, realTime]
    exact boundSlice_realTime fits service
  · have ema := tuned.ema
    have below := high.trans (le_max_left profile.greatestSlice autoSliceMaxNs)
    omega

theorem Tuned.step {s : FallbackState} (tuned : Tuned profile s.policy)
    (fits : profile.sliceNs * 4 < 2 ^ 64) (e : FallbackEvent) :
    Tuned profile (s.step fl percpuLocal e).policy := by
  cases e with
  | process nrOnlineCpus timestamp lastSeenNs task =>
    refine ⟨tuned.base, tuned.min, ?_⟩
    have slice := tuned.slice_le fl fits nrOnlineCpus task
    exact sampleAssignedSlice_le tuned.ema (le_max_of_le_left slice)
  | dispatch attempt => exact tuned
  | updateSlice load => exact ⟨tuned.base, tuned.min, tuned.ema⟩
  | evict pid => exact ⟨tuned.base, tuned.min, tuned.ema⟩

theorem Tuned.run {s : FallbackState} (tuned : Tuned profile s.policy)
    (fits : profile.sliceNs * 4 < 2 ^ 64) (es : List FallbackEvent) :
    Tuned profile (s.run fl percpuLocal es).policy := by
  apply FallbackState.run_keeps (I := fun t => Tuned profile t.policy) fl percpuLocal _ tuned
  intro s e before
  exact before.step fl fits e

end

/-- Three or four queues count, each with an `s32` of tasks at most. -/
def maxPressure (ro : Rodata) : Nat := (if ro.nrNodes > 1 then 4 else 3) * (2 ^ 31 - 1)

theorem pressureOf_le {ro : Rodata} {v : Queues} (depths : ∀ q, (v.dsq q).length < 2 ^ 31)
    (cpu : Int) : pressureOf ro v cpu ≤ maxPressure ro := by
  have shared := depths sharedDsq
  have own := depths (cpuToDsq v.nrCpuIds cpu)
  have llc := depths (cpuLlcDsq ro v.nrCpuIds cpu)
  have node := depths (cpuNodeDsq ro v.nrCpuIds cpu)
  unfold pressureOf pressureQueues maxPressure
  split
  · simp
    split <;> omega
  · split <;> simp <;> omega

/-- One CPU, and `depth` tasks in every queue. -/
def crowded (depth : Nat) : Kernel :=
  { Kernel.boot fun _ => .waiting (fun _ => true) 0 with
    nrCpuIds := 1
    dsq := fun q => (List.range depth).map fun i => q * 2 ^ 31 + i }

theorem crowded_length (depth q : Nat) : ((crowded depth).dsq q).length = depth := by
  simp [crowded]

theorem crowded_pressure (ro : Rodata) (depth : Nat) :
    pressureOf ro (crowded depth).queues 0 = (if ro.nrNodes > 1 then 4 else 3) * depth := by
  have valid : isCpuValid 1 0 = true := by decide
  have cpus : (crowded depth).queues.nrCpuIds = 1 := rfl
  rw [pressureOf, pressureQueues, cpus, valid]
  simp only [Bool.not_true, Bool.false_eq_true, if_false]
  split <;> simp [crowded_length] <;> omega

/-- No product or sum of the slice arithmetic wraps around, and the bounds it should keep
hold: in the fallback for every task after every run, in the kernel program for every weight
and under every load. -/
structure SliceSafe {F : Type} (fl : FeatureFloats F) (profile : BpfProfile) (ro : Rodata) :
    Prop where
  quadruple : profile.sliceNs * 4 < 2 ^ 64
  fallback : ∀ (percpuLocal : Bool) (es : List FallbackEvent) (nrOnlineCpus : Nat)
    (task : QueuedRecord),
    SliceSound profile ((FallbackState.init profile).run fl percpuLocal es).policy
      (((FallbackState.init profile).run fl percpuLocal es).policy.deriveTaskPolicy fl
        nrOnlineCpus task).1
  service : ∀ weight, 1 ≤ weight → weight ≤ 10000 → profile.sliceNs * weight < 2 ^ 64
  starvation : ∀ (k : Kernel) (cpu : Int), (∀ q, (k.dsq q).length < 2 ^ 31) →
    pressureOf ro k.queues cpu * profile.sliceNs < 2 ^ 64 ∧
      (BitVec.ofNat 64 (pressureOf ro k.queues cpu) * ro.sliceNs ≥ 500 * nsecPerMsec ↔
        500000000 ≤ pressureOf ro k.queues cpu * profile.sliceNs)

theorem starving_iff {ro : Rodata} {n : Nat} (short : n < 2 ^ 64)
    (fits : n * ro.sliceNs.toNat < 2 ^ 64) :
    BitVec.ofNat 64 n * ro.sliceNs ≥ 500 * nsecPerMsec ↔ 500000000 ≤ n * ro.sliceNs.toNat := by
  have starvation : (500 * nsecPerMsec).toNat = 500000000 := by decide
  have wait : (BitVec.ofNat 64 n).toNat = n := by
    rw [BitVec.toNat_ofNat]
    exact Nat.mod_eq_of_lt short
  rw [ge_iff_le, BitVec.le_def, starvation, BitVec.toNat_mul_of_lt (by rwa [wait]), wait]

theorem maxPressure_bounds (ro : Rodata) :
    3 * (2 ^ 31 - 1) ≤ maxPressure ro ∧ maxPressure ro ≤ 4 * (2 ^ 31 - 1) := by
  unfold maxPressure
  split <;> omega

theorem starvation_of_fits {ro : Rodata} (fits : ro.sliceNs.toNat * maxPressure ro < 2 ^ 64)
    {k : Kernel} (depths : ∀ q, (k.dsq q).length < 2 ^ 31) (cpu : Int) :
    pressureOf ro k.queues cpu * ro.sliceNs.toNat < 2 ^ 64 ∧
      (BitVec.ofNat 64 (pressureOf ro k.queues cpu) * ro.sliceNs ≥ 500 * nsecPerMsec ↔
        500000000 ≤ pressureOf ro k.queues cpu * ro.sliceNs.toNat) := by
  have pressure : pressureOf ro k.queues cpu ≤ maxPressure ro := pressureOf_le depths cpu
  have most := (maxPressure_bounds ro).2
  have product : pressureOf ro k.queues cpu * ro.sliceNs.toNat < 2 ^ 64 := by
    rw [Nat.mul_comm]
    exact (Nat.mul_le_mul_left _ pressure).trans_lt fits
  exact ⟨product, starving_iff (by omega) product⟩

/-- An option that saturates is too large in any case, and the defaults are small enough. -/
theorem optionNs_fits_iff {us : U64} {defaultNs load : Nat} (small : defaultNs ≤ 8000000)
    (least : 3 * (2 ^ 31 - 1) ≤ load) (most : load ≤ 4 * (2 ^ 31 - 1)) :
    optionNs us defaultNs * load < 2 ^ 64 ↔ us.toNat * 1000 * load < 2 ^ 64 := by
  unfold optionNs
  split
  · rcases le_total (us.toNat * 1000) u64Top with fits | saturates
    · rw [mul_eq fits]
    · have top : 2 ^ 64 ≤ u64Top * load := by
        unfold u64Top
        omega
      have product := Nat.mul_le_mul_right load saturates
      rw [mul, min_eq_right saturates]
      omega
  · rename_i unset
    have zero : us.toNat = 0 := by omega
    have product : defaultNs * load ≤ 8000000 * (4 * (2 ^ 31 - 1)) := Nat.mul_le_mul small most
    rw [zero, Nat.zero_mul]
    omega

theorem fromOpts_fits_iff (opts : Opts) (ro : Rodata) :
    (BpfProfile.fromOpts opts).sliceNs * maxPressure ro < 2 ^ 64 ↔
      max opts.sliceUs.toNat opts.sliceUsMin.toNat * 1000 * maxPressure ro < 2 ^ 64 := by
  obtain ⟨least, most⟩ := maxPressure_bounds ro
  have defaults : opts.mode.defaults.1 ≤ 8000000 ∧ opts.mode.defaults.2.1 ≤ 8000000 := by
    cases opts.mode <;> decide
  have ceiling : (BpfProfile.fromOpts opts).sliceNs =
      max (optionNs opts.sliceUs opts.mode.defaults.1)
        (optionNs opts.sliceUsMin opts.mode.defaults.2.1) := rfl
  rw [ceiling, ← Nat.mul_max_mul_right, ← Nat.mul_max_mul_right, ← Nat.mul_max_mul_right,
    max_lt_iff, max_lt_iff, optionNs_fits_iff defaults.1 least most,
    optionNs_fits_iff defaults.2 least most]

/-- The starvation test needs most room: where the options times the greatest pressure fit
into a word, everything else does. -/
theorem slice_arithmetic_safe_iff {F : Type} (fl : FeatureFloats F) {opts : Opts} {ro : Rodata}
    (exports : (BpfProfile.fromOpts opts).Exports ro) :
    SliceSafe fl (.fromOpts opts) ro ↔
      max opts.sliceUs.toNat opts.sliceUsMin.toNat * 1000 * maxPressure ro < 2 ^ 64 := by
  rw [← fromOpts_fits_iff]
  have order := BpfProfile.fromOpts_min_le opts
  have ceiling := exports.sliceNs_toNat
  have least := (maxPressure_bounds ro).1
  generalize BpfProfile.fromOpts opts = profile at order ceiling
  constructor
  · intro safe
    have depths : ∀ depth < 2 ^ 31, ∀ q, ((crowded depth).dsq q).length < 2 ^ 31 := by
      intro depth below q
      rwa [crowded_length]
    have wait := safe.starvation (crowded (2 ^ 31 - 1)) 0 (depths _ (by decide))
    rw [crowded_pressure, Nat.mul_comm] at wait
    exact wait.1
  · intro fits
    have small : profile.sliceNs * (3 * (2 ^ 31 - 1)) < 2 ^ 64 :=
      (Nat.mul_le_mul_left _ least).trans_lt fits
    have quadruple : profile.sliceNs * 4 < 2 ^ 64 := by omega
    refine ⟨quadruple, ?_, ?_, ?_⟩
    · intro percpuLocal es nrOnlineCpus task
      have room : 8 * max profile.greatestSlice autoSliceMaxNs < 2 ^ 64 := by
        unfold BpfProfile.greatestSlice autoSliceMaxNs
        omega
      exact ((tuned_new profile).run fl quadruple es).sound fl quadruple room nrOnlineCpus task
    · intro weight _ heavy
      have product : profile.sliceNs * weight ≤ profile.sliceNs * 10000 :=
        Nat.mul_le_mul_left _ heavy
      omega
    · intro k cpu depths
      rw [← ceiling] at fits ⊢
      exact starvation_of_fits fits depths cpu

/-- Features without rounding. -/
def rationalFeatures : FeatureFloats ℚ where
  decimal := fun m e => m / 10 ^ e
  ratio64 := fun a b => max 0 (min 1 (a / b))
  ratio32 := fun a b => max 0 (min 1 (a / b))
  lt := fun a b => decide (a < b)
  le := fun a b => decide (a ≤ b)

theorem slice_arithmetic_safe_iff_desktop :
    SliceSafe rationalFeatures (.fromOpts desktopOpts) desktopRodata :=
  (slice_arithmetic_safe_iff rationalFeatures desktop_exports).mpr (by decide)

/-- A ceiling just over 2⁶² ns. -/
def hugeOpts : Opts := ⟨4611686018427388, 0, .desktop⟩

def hugeRodata : Rodata := { desktopRodata with sliceNs := 4611686018427388000 }

theorem huge_exports : (BpfProfile.fromOpts hugeOpts).Exports hugeRodata :=
  ⟨by decide, by decide, rfl, rfl, rfl, rfl⟩

def kworker : QueuedRecord where
  pid := 40
  cpu := 0
  flags := 0
  vtime := 0
  enqCnt := 1
  nrCpusAllowed := 2
  startTs := 0
  stopTs := 0
  execRuntime := 0
  weight := 100
  comm := fun i => (QueuedRecord.ascii "kworker/0:1").getD i 0
  vtime_le := Nat.zero_le _

/-- Four times the ceiling wraps around to 384 ns, so a kernel worker is cut down to the
minimum slice. -/
theorem slice_arithmetic_overflows :
    let policy := ((PolicyState.new (.fromOpts hugeOpts)).deriveTaskPolicy rationalFeatures 1
      kworker).1
    policy.label = .realTime ∧ policy.sliceNs ≤ 250000 ∧
      (BpfProfile.fromOpts hugeOpts).Exports hugeRodata ∧
      ¬ SliceSafe rationalFeatures (.fromOpts hugeOpts) hugeRodata := by
  intro policy
  have label : policy.label = .realTime :=
    deriveTaskPolicy_label rationalFeatures 1 (.new (.fromOpts hugeOpts)) (by decide)
  have wrapped : clampMax (BpfProfile.fromOpts hugeOpts).sliceNs
      (BpfProfile.fromOpts hugeOpts).sliceMinNs = 250000 := by decide
  have slice : policy.sliceNs ≤ 250000 := by
    obtain ⟨service, slice⟩ :=
      deriveTaskPolicy_slice rationalFeatures 1 (.new (.fromOpts hugeOpts)) kworker
    rw [← wrapped]
    exact slice.trans_le (boundSlice_high _ service)
  refine ⟨label, slice, huge_exports, ?_⟩
  intro safe
  have least : (BpfProfile.fromOpts hugeOpts).sliceNs ≤ policy.sliceNs :=
    (safe.fallback false [] 1 kworker).realTime label
  have small := least.trans slice
  exact absurd small (by decide)

end Cognis.Loader
