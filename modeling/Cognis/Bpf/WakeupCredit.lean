import Cognis.Lib.WrapTime
import Cognis.Bpf.Reads
import Cognis.Bpf.Service

/-! How far `task_dl` lets a task get ahead of the virtual front, and how far a deadline
may lie behind it. -/
namespace Cognis.Bpf
open StateLogic WrapTime

theorem maxU_toNat (x y : U64) : (maxU x y).toNat = max x.toNat y.toNat := by
  unfold maxU
  split
  · rename_i above
    exact (max_eq_left (Nat.le_of_lt above)).symm
  · rename_i below
    exact (max_eq_right (Nat.le_of_not_lt below)).symm

theorem minU_toNat (x y : U64) : (minU x y).toNat = min x.toNat y.toNat := by
  unfold minU
  split
  · rename_i below
    exact (min_eq_left (Nat.le_of_lt below)).symm
  · rename_i above
    exact (min_eq_right (Nat.le_of_not_lt above)).symm

/-- The weight scaling that the kernel's scheduler library provides. -/
structure Env.Scales (env : Env) : Prop where
  byWeight : ∀ weight value, env.scaleByTaskWeight weight value = value * weight / 100
  inverse : ∀ weight value, env.scaleByTaskWeightInverse weight value = value * 100 / weight

/-- The frequencies that wakeups lead to from zeroed storage, whatever else happens to the
task in between. -/
inductive WakeupFreq (ro : Rodata) (p : Nat) : U64 → Prop
  | created : WakeupFreq ro p 0
  | runnable {env : Env} {k : Kernel} {tctx tctx' : TaskCtx} :
      WakeupFreq ro p tctx.wakeupFreq → k.taskCtx p = some tctx →
      ((cognisRunnable ro env p).run k).2.taskCtx p = some tctx' →
      WakeupFreq ro p tctx'.wakeupFreq

/-- The wait that counts as starvation, in slices. -/
def qThresh (ro : Rodata) : U64 := maxU (500 * nsecPerMsec / maxU ro.sliceNs 1) 1

section

variable {ro : Rodata} {env : Env} {k : Kernel} {p : Nat}

theorem cognisRunnable_freq {tctx tctx' : TaskCtx} (old : k.taskCtx p = some tctx)
    (new : ((cognisRunnable ro env p).run k).2.taskCtx p = some tctx') :
    tctx'.wakeupFreq = tctx.wakeupFreq ∨ tctx'.wakeupFreq.toNat ≤ maxWakeupFreq.toNat := by
  simp only [cognisRunnable, run_then, ↓run_ite, tryLookupTaskCtx, run_getThe, run_done] at new
  split at new
  · rw [old] at new
    exact .inl (by rw [Option.some.inj new])
  · rw [old] at new
    simp only [run_modifyState, Kernel.setCtx, Function.update_self] at new
    rw [← Option.some.inj new]
    exact .inr (by rw [minU_toNat]; exact Nat.min_le_right _ _)

theorem WakeupFreq.le {freq : U64} (reached : WakeupFreq ro p freq) :
    freq.toNat ≤ maxWakeupFreq.toNat := by
  induction reached with
  | created => decide
  | runnable _ old new ih =>
    rcases cognisRunnable_freq old new with same | capped
    · rw [same]
      exact ih
    · exact capped

theorem pressureOf_lt {v : Queues} (depths : ∀ q, (v.dsq q).length < 2 ^ 31) (cpu : Int) :
    pressureOf ro v cpu < 2 ^ 33 := by
  have shared := depths sharedDsq
  have own := depths (cpuToDsq v.nrCpuIds cpu)
  have llc := depths (cpuLlcDsq ro v.nrCpuIds cpu)
  have node := depths (cpuNodeDsq ro v.nrCpuIds cpu)
  unfold pressureOf pressureQueues
  split
  · simp
    omega
  · split <;> simp <;> omega

theorem qThresh_bounds (ro : Rodata) : 1 ≤ (qThresh ro).toNat ∧ (qThresh ro).toNat ≤ 500000000 := by
  have starvation : (500 * nsecPerMsec).toNat = 500000000 := by decide
  have one : (1 : U64).toNat = 1 := rfl
  rw [qThresh, maxU_toNat, BitVec.toNat_udiv, starvation, one]
  refine ⟨le_max_right _ _, max_le (Nat.div_le_self _ _) (by decide)⟩

theorem qThresh_add_toNat {nrWait : U64} (short : nrWait.toNat < 2 ^ 33) :
    (qThresh ro + nrWait).toNat = (qThresh ro).toNat + nrWait.toNat := by
  have bounds := qThresh_bounds ro
  exact BitVec.toNat_add_of_lt (by omega)

/-- Queue pressure only shrinks the scale, down to one. -/
theorem lagScale_bounds {tctx : TaskCtx} {nrWait : U64}
    (freq : tctx.wakeupFreq.toNat ≤ maxWakeupFreq.toNat) (short : nrWait.toNat < 2 ^ 33) :
    1 ≤ (lagScale ro tctx nrWait).toNat ∧
      (lagScale ro tctx nrWait).toNat ≤ max tctx.wakeupFreq.toNat 1 := by
  have one : (1 : U64).toNat = 1 := rfl
  have cap : maxWakeupFreq.toNat = 64 := rfl
  have bounds := qThresh_bounds ro
  unfold lagScale
  dsimp only
  split
  · exact ⟨le_refl 1, le_max_right _ _⟩
  · rw [maxU_toNat, one]
    refine ⟨le_max_right _ _, max_le ?_ (le_max_right _ _)⟩
    have scaled : (maxU tctx.wakeupFreq 1 * qThresh ro).toNat =
        max tctx.wakeupFreq.toNat 1 * (qThresh ro).toNat := by
      have product : max tctx.wakeupFreq.toNat 1 * (qThresh ro).toNat ≤ 64 * 500000000 :=
        Nat.mul_le_mul (by omega) bounds.2
      rw [BitVec.toNat_mul_of_lt (by rw [maxU_toNat, one]; omega), maxU_toNat, one]
    change (maxU tctx.wakeupFreq 1 * qThresh ro / (qThresh ro + nrWait)).toNat ≤ _
    rw [BitVec.toNat_udiv, scaled, qThresh_add_toNat short]
    apply Nat.div_le_of_le_mul
    rw [Nat.mul_comm]
    exact Nat.mul_le_mul_right _ (Nat.le_add_right _ _)

end

/-- The lag behind the front at scale `s`. -/
def lagOf (ro : Rodata) (weight : U64) (s : Nat) : Nat :=
  ro.sliceLagNs.toNat * s * weight.toNat / 100

def awakeMaxOf (ro : Rodata) (weight : U64) : Nat := ro.sliceLagNs.toNat * 100 / weight.toNat

/-- The deadline and the state of `p` that `task_dl` leaves behind, as distances from the
virtual front. -/
structure WithinCredit (k : Kernel) (p lag awakeMax : Nat) (result : U64 × Kernel) : Prop where
  deadline_low : -(lag : Int) ≤ offset k.vtimeNow result.1
  deadline_high : offset k.vtimeNow result.1 ≤
    max (offset k.vtimeNow (k.task p).dsqVtime) (-(lag : Int)) + awakeMax
  service_low : -(lag : Int) ≤ offset k.vtimeNow (result.2.task p).dsqVtime
  awake : ∃ tctx, result.2.taskCtx p = some tctx ∧ tctx.awakeVtime.toNat ≤ awakeMax

/-- The profiles' lags and the kernel's weights. -/
structure ShippedLag (ro : Rodata) (weight : U64) : Prop where
  lag : ro.sliceLagNs = 40000000 ∨ ro.sliceLagNs = 1500000
  light : 1 ≤ weight.toNat
  heavy : weight.toNat ≤ 10000

namespace ShippedLag

variable {ro : Rodata} {env : Env} {weight : U64} (shipped : ShippedLag ro weight)
include shipped

theorem lag_le : ro.sliceLagNs.toNat ≤ 40000000 := by
  rcases shipped.lag with lag | lag <;> rw [lag] <;> decide

theorem lagOf_le {s : Nat} (small : s ≤ 64) : lagOf ro weight s ≤ 256000000000 := by
  have product : ro.sliceLagNs.toNat * s * weight.toNat ≤ 40000000 * 64 * 10000 :=
    Nat.mul_le_mul (Nat.mul_le_mul shipped.lag_le small) shipped.heavy
  exact (Nat.div_le_div_right product).trans (by decide)

theorem awakeMaxOf_le : awakeMaxOf ro weight ≤ 4000000000 :=
  (Nat.div_le_self _ _).trans (Nat.mul_le_mul_right 100 shipped.lag_le)

theorem scaled_toNat (scales : env.Scales) {scale : U64} (small : scale.toNat ≤ 64) :
    (env.scaleByTaskWeight weight (ro.sliceLagNs * scale)).toNat =
      lagOf ro weight scale.toNat := by
  have lag := shipped.lag_le
  have heavy := shipped.heavy
  have inner : ro.sliceLagNs.toNat * scale.toNat ≤ 40000000 * 64 := Nat.mul_le_mul lag small
  have outer : ro.sliceLagNs.toNat * scale.toNat * weight.toNat ≤ 40000000 * 64 * 10000 :=
    Nat.mul_le_mul inner heavy
  have inner_toNat : (ro.sliceLagNs * scale).toNat = ro.sliceLagNs.toNat * scale.toNat :=
    BitVec.toNat_mul_of_lt (by omega)
  have hundred : (100 : U64).toNat = 100 := rfl
  rw [scales.byWeight, BitVec.toNat_udiv, BitVec.toNat_mul_of_lt (by rw [inner_toNat]; omega),
    inner_toNat, hundred, lagOf]

theorem inverse_toNat (scales : env.Scales) :
    (env.scaleByTaskWeightInverse weight ro.sliceLagNs).toNat = awakeMaxOf ro weight := by
  have lag := shipped.lag_le
  have hundred : (100 : U64).toNat = 100 := rfl
  rw [scales.inverse, BitVec.toNat_udiv, BitVec.toNat_mul_of_lt (by rw [hundred]; omega), hundred,
    awakeMaxOf]

end ShippedLag

theorem ne_of_toNat_pos {x : U64} (positive : 0 < x.toNat) : x ≠ 0 := by
  rintro rfl
  exact absurd positive (by decide)

theorem timeBefore_iff_toInt {a b : U64} : timeBefore a b = true ↔ (a - b).toInt < 0 :=
  BitVec.slt_iff_toInt_lt

section

variable {ro : Rodata} {env : Env} {k : Kernel} {p : Nat} {cpu : Int} {tctx : TaskCtx}

/-- A task that slept is moved up to the floor, one ahead of it stays. -/
theorem settledVtime_offset {lag : Nat} (small : lag ≤ 256000000000)
    (floor : ∃ credit : U64, vtimeFloor ro env k p cpu tctx = k.vtimeNow - credit ∧
      credit.toNat = lag)
    (near : -(2 ^ 62) ≤ offset k.vtimeNow (k.task p).dsqVtime ∧
      offset k.vtimeNow (k.task p).dsqVtime ≤ 2 ^ 62) :
    offset k.vtimeNow (settledVtime ro env k p cpu tctx) =
      max (offset k.vtimeNow (k.task p).dsqVtime) (-(lag : Int)) := by
  obtain ⟨credit, floor, credit_eq⟩ := floor
  have credit_toInt : credit.toInt = lag := by
    rw [toInt_of_lt (by omega), credit_eq]
  have at_floor : offset k.vtimeNow (vtimeFloor ro env k p cpu tctx) = -(lag : Int) := by
    rw [floor, offset_self_sub (by rw [credit_toInt, InHalf]; omega), credit_toInt]
  have inside : InHalf 64 (offset k.vtimeNow (k.task p).dsqVtime -
      offset k.vtimeNow (vtimeFloor ro env k p cpu tctx)) := by
    rw [at_floor, InHalf]
    omega
  have gap := toInt_sub_eq_offset inside
  unfold settledVtime
  split
  · rename_i before
    have behind := timeBefore_iff_toInt.mp before
    rw [at_floor]
    omega
  · rename_i after
    have ahead := mt timeBefore_iff_toInt.mpr after
    omega

theorem cappedAwake_toNat (scales : env.Scales) {weight : U64} (shipped : ShippedLag ro weight)
    (awake : tctx.awakeVtime.toNat < 2 ^ 63) :
    (cappedAwake ro env weight tctx).toNat = min tctx.awakeVtime.toNat (awakeMaxOf ro weight) := by
  have bound := shipped.awakeMaxOf_le
  have awakeMax := shipped.inverse_toNat scales
  have awake_toInt : tctx.awakeVtime.toInt = tctx.awakeVtime.toNat := toInt_of_lt (by omega)
  have awakeMax_toInt : (env.scaleByTaskWeightInverse weight ro.sliceLagNs).toInt =
      awakeMaxOf ro weight := by
    rw [toInt_of_lt (by omega), awakeMax]
  have gap := toInt_sub (x := env.scaleByTaskWeightInverse weight ro.sliceLagNs)
    (y := tctx.awakeVtime) (by rw [awake_toInt, awakeMax_toInt, InHalf]; omega)
  unfold cappedAwake
  dsimp only
  split
  · rename_i after
    have above := timeBefore_iff_toInt.mp after
    omega
  · rename_i before
    have below := mt timeBefore_iff_toInt.mpr before
    omega

theorem taskDl_withinCredit {lag awakeMax : Nat} (lag_small : lag ≤ 256000000000)
    (awake_small : awakeMax ≤ 4000000000)
    (near : -(2 ^ 62) ≤ offset k.vtimeNow (k.task p).dsqVtime ∧
      offset k.vtimeNow (k.task p).dsqVtime ≤ 2 ^ 62)
    (settled : offset k.vtimeNow (settledVtime ro env k p cpu tctx) =
      max (offset k.vtimeNow (k.task p).dsqVtime) (-(lag : Int)))
    (awake : (cappedAwake ro env (k.task p).weight tctx).toNat =
      min tctx.awakeVtime.toNat awakeMax) :
    WithinCredit k p lag awakeMax ((taskDl ro env p cpu tctx).run k) := by
  have awake_toInt : (cappedAwake ro env (k.task p).weight tctx).toInt =
      (cappedAwake ro env (k.task p).weight tctx).toNat := toInt_of_lt (by omega)
  have inside : InHalf 64 (offset k.vtimeNow (settledVtime ro env k p cpu tctx) +
      (cappedAwake ro env (k.task p).weight tctx).toInt) := by
    rw [settled, awake_toInt, InHalf]
    omega
  have deadline := offset_add inside
  rw [taskDl_run]
  constructor
  · show _ ≤ offset k.vtimeNow (_ + _)
    omega
  · show offset k.vtimeNow (_ + _) ≤ _
    omega
  · have moved : (((k.touchAll (pressureQueues ro k.nrCpuIds cpu)).settle ro env p cpu tctx).task
        p).dsqVtime = settledVtime ro env k p cpu tctx := by
      simp [Kernel.settle, Kernel.setTask, Kernel.setCtx]
    rw [moved]
    omega
  · refine ⟨{ tctx with awakeVtime := cappedAwake ro env (k.task p).weight tctx }, ?_, ?_⟩
    · simp [Kernel.settle, Kernel.setCtx]
    · show (cappedAwake ro env (k.task p).weight tctx).toNat ≤ _
      omega

/-- The time since the last wakeup that `cognis_runnable` divides by. -/
theorem wakeupInterval_ne_zero (now lastWokeAt : U64) :
    (if now > lastWokeAt then now - lastWokeAt else 1) ≠ 0 := by
  split
  · rename_i later
    apply ne_of_toNat_pos
    rw [BitVec.toNat_sub_of_le (BitVec.le_of_lt later)]
    exact Nat.sub_pos_of_lt later
  · decide

/-- However long a task slept, its deadline is at most the lag behind the virtual front, and
at most the awake credit past where the task stood. -/
theorem task_dl_bounds (scales : env.Scales) (shipped : ShippedLag ro (k.task p).weight)
    (freq : WakeupFreq ro p tctx.wakeupFreq) (depths : ∀ q, (k.dsq q).length < 2 ^ 31)
    (near : -(2 ^ 62) ≤ offset k.vtimeNow (k.task p).dsqVtime ∧
      offset k.vtimeNow (k.task p).dsqVtime ≤ 2 ^ 62)
    (awake : tctx.awakeVtime.toNat < 2 ^ 63) (cpu : Int) :
    (∃ s, 1 ≤ s ∧ s ≤ max tctx.wakeupFreq.toNat 1 ∧
      WithinCredit k p (lagOf ro (k.task p).weight s) (awakeMaxOf ro (k.task p).weight)
        ((taskDl ro env p cpu tctx).run k)) ∧
      maxU ro.sliceNs 1 ≠ 0 ∧
      qThresh ro + BitVec.ofNat 64 (pressureOf ro k.queues cpu) ≠ 0 ∧ (k.task p).weight ≠ 0 ∧
      ∀ now lastWokeAt : U64, (if now > lastWokeAt then now - lastWokeAt else 1) ≠ 0 := by
  have pressure : pressureOf ro k.queues cpu < 2 ^ 33 := pressureOf_lt depths cpu
  have short : (BitVec.ofNat 64 (pressureOf ro k.queues cpu)).toNat < 2 ^ 33 := by
    rw [BitVec.toNat_ofNat]
    omega
  have cap : maxWakeupFreq.toNat = 64 := rfl
  have capped := freq.le
  obtain ⟨scale_low, scale_high⟩ : 1 ≤ (lagScale ro tctx
      (BitVec.ofNat 64 (pressureOf ro k.queues cpu))).toNat ∧ (lagScale ro tctx
      (BitVec.ofNat 64 (pressureOf ro k.queues cpu))).toNat ≤ max tctx.wakeupFreq.toNat 1 :=
    lagScale_bounds capped short
  generalize scale_eq :
    lagScale ro tctx (BitVec.ofNat 64 (pressureOf ro k.queues cpu)) = scale at scale_low scale_high
  have floor : ∃ credit : U64, vtimeFloor ro env k p cpu tctx = k.vtimeNow - credit ∧
      credit.toNat = lagOf ro (k.task p).weight scale.toNat := by
    refine ⟨_, ?_, shipped.scaled_toNat scales (show scale.toNat ≤ 64 by omega)⟩
    rw [vtimeFloor, vtimeMin, scale_eq]
  have lag_small := shipped.lagOf_le (s := scale.toNat) (by omega)
  have settled := settledVtime_offset lag_small floor near
  have within := taskDl_withinCredit lag_small shipped.awakeMaxOf_le near settled
    (cappedAwake_toNat scales shipped awake)
  refine ⟨⟨scale.toNat, scale_low, scale_high, within⟩, ?_, ?_, ?_, wakeupInterval_ne_zero⟩
  · apply ne_of_toNat_pos
    rw [maxU_toNat]
    exact lt_max_of_lt_right Nat.one_pos
  · apply ne_of_toNat_pos
    rw [qThresh_add_toNat short]
    exact Nat.add_pos_left (qThresh_bounds ro).1 _
  · exact ne_of_toNat_pos shipped.light

end

def Env.scaling (env : Env) : Env :=
  { env with
    scaleByTaskWeight := fun weight value => value * weight / 100
    scaleByTaskWeightInverse := fun weight value => value * 100 / weight }

theorem Env.scaling_scales (env : Env) : env.scaling.Scales := ⟨fun _ _ => rfl, fun _ _ => rfl⟩

/-- After two wakeups one millisecond apart, and then one second awake. -/
def lateCtx : TaskCtx := { awakeVtime := 1000000000, wakeupFreq := 25, lastWokeAt := 1000000 }

/-- Task 1 lies ten seconds behind the virtual front. -/
def lateTask : Kernel :=
  { Kernel.boot fun _ => .waiting (fun _ => true) 0 with
    vtimeNow := 10000000000
    taskCtx := fun _ => some lateCtx }

/-- Both bounds act: the task moves up to one second behind the front, with 40 ms of credit. -/
theorem task_dl_bounds_late :
    let result := (taskDl (.kernelOnly .flat) (Env.busy 1 3000 0).scaling 1 0 lateCtx).run lateTask
    (∃ s, 1 ≤ s ∧ s ≤ 25 ∧ WithinCredit lateTask 1 (lagOf (.kernelOnly .flat) 100 s)
      (awakeMaxOf (.kernelOnly .flat) 100) result) ∧
    (result.2.task 1).dsqVtime = 9000000000 ∧ result.1 = 9040000000 := by
  intro result
  have shipped : ShippedLag (.kernelOnly .flat) (lateTask.task 1).weight :=
    ⟨.inl rfl, by decide, by decide⟩
  have woken : ((cognisRunnable (.kernelOnly .flat) (Env.busy 1 1000000 0) 1).run
      { lateTask with taskCtx := fun _ => some {} }).2.taskCtx 1 =
        some { wakeupFreq := 25, lastWokeAt := 1000000 } := by decide
  have new : WakeupFreq (.kernelOnly .flat) 1 ({} : TaskCtx).wakeupFreq := .created
  have freq := new.runnable rfl woken
  change WakeupFreq (.kernelOnly .flat) 1 lateCtx.wakeupFreq at freq
  have bounds := task_dl_bounds (Env.scaling_scales (Env.busy 1 3000 0)) shipped freq
    (fun _ => by simp [lateTask, Kernel.boot]) (by decide) (by decide) 0
  exact ⟨bounds.1, by decide, by decide⟩

end Cognis.Bpf
