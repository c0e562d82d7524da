import Cognis.Lib.Overtaking
import Cognis.Bpf.QueueOrder
import Cognis.Bpf.RunningCount
import Cognis.Bpf.WakeupCredit

/-! When a waiting task can no longer be overtaken. `task_dl` lets a deadline lie behind the
virtual front by the scaled lag at most, so a task whose deadline the front has passed by the
largest lag only sees later arrivals go in behind it. -/
namespace Cognis.Bpf
open StateLogic Runs WrapTime Overtaking

/-- The lag of the heaviest and most eager task. -/
def largestLag (ro : Rodata) : Nat := lagOf ro 10000 64

/-- Every task's wakeup frequency comes from its wakeups. -/
def Rated (ro : Rodata) (k : Kernel) : Prop :=
  ∀ p tctx, k.taskCtx p = some tctx → WakeupFreq ro p tctx.wakeupFreq

/-- Less than a quarter of the clock from the virtual front. -/
def Machine.NearFront (m : Machine) (p : Nat) : Prop :=
  -(2 ^ 61) ≤ offset m.kernel.vtimeNow (m.deadline p) ∧
    offset m.kernel.vtimeNow (m.deadline p) ≤ 2 ^ 61

/-- Tasks as the kernel has them: PIDs are positive `s32`, weights lie in its range, and no
runnable task is centuries away from the virtual front. -/
structure Machine.Tame (ro : Rodata) (m : Machine) : Prop where
  pids : ∀ p, m.stage p ≠ .absent → p < 2 ^ 31
  near : ∀ p, m.stage p = .ready ∨ m.stage p = .waiting → m.NearFront p
  shipped : ∀ p, m.stage p = .ready → ShippedLag ro (m.kernel.task p).weight
  awake : ∀ p tctx, m.stage p = .ready → m.kernel.taskCtx p = some tctx →
    tctx.awakeVtime.toNat < 2 ^ 63

/-- The kernel's weight scaling serves every `ops.enqueue`. -/
def Event.Scaled (e : Event) : Prop := ∀ p enqFlags env, e = .enqueue p enqFlags env → env.Scales

/-- A dispatch of a CPU on which `u` may run takes a task out of the queue `q`. -/
def Serves (q u : Nat) (m : Machine) (e : Event) (m' : Machine) : Prop :=
  ∃ cpu prev env, e = .dispatch cpu prev env ∧ (m.kernel.task u).cpusPtr cpu = true ∧
    m'.kernel.dsq q ≠ m.kernel.dsq q

/-- A step in which `u` stays in `q`. -/
structure Stays (ro : Rodata) (q u : Nat) (m : Machine) (e : Event) (m' : Machine) : Prop where
  step : Disciplined ro m e m'
  tame : m'.Tame ro
  scaled : e.Scaled
  waits : u ∈ m'.kernel.dsq q

/-- The front is past the deadline of `u` by more than the largest lag. -/
def Passed (ro : Rodata) (u : Nat) (m : Machine) : Prop :=
  offset m.kernel.vtimeNow (m.deadline u) + largestLag ro < 0

section

variable {ro : Rodata} {env : Env} {k k' : Kernel} {p : Nat}

/-! ### Wakeup frequencies -/

theorem Rated.setCtx (rated : Rated ro k) (p : Nat) (tctx : TaskCtx)
    (freq : WakeupFreq ro p tctx.wakeupFreq) :
    Rated ro (k.setCtx p tctx) := by
  intro r found stored
  have stored : Function.update k.taskCtx p (some tctx) r = some found := stored
  by_cases here : r = p
  · rw [here, Function.update_self] at stored
    exact here ▸ Option.some.inj stored ▸ freq
  · rw [Function.update_of_ne here] at stored
    exact rated r found stored

theorem Enqueued.rated {enqFlags : U64} (h : Enqueued ro env p enqFlags k k') (rated : Rated ro k) :
    Rated ro k' := by
  cases h with
  | skipped _ => exact rated
  | usersched kicks _ _ => split <;> exact rated
  | direct => exact rated
  | deferred tctx qs target slice kicks stored =>
    exact rated.setCtx p { tctx with awakeVtime := cappedAwake ro env (k.task p).weight tctx }
      (rated p tctx stored)

theorem exec_rated (c : Callback) (quiet : Quiet k) (rated : Rated ro k) :
    Rated ro (c.exec ro env k) := by
  cases c with
  | selectCpu p prevCpu wakeFlags =>
    have effect := cognisSelectCpu_selected ro env p prevCpu wakeFlags k
    simp only [Callback.exec]
    generalize (cognisSelectCpu ro env p prevCpu wakeFlags).run k = r at effect
    cases effect <;> exact rated
  | enqueue p enqFlags => exact (cognisEnqueue_enqueued ro env p enqFlags k).rated rated
  | dispatch cpu prev =>
    refine updates_keep (I := Rated ro) (fun s t step before => ?_)
      (picked_steps ro env cpu prev k) (drained_of_empty quiet.ring ▸ rated)
    cases step <;> exact before
  | runnable p =>
    intro r tctx stored
    by_cases here : r = p
    · subst here
      cases before : k.taskCtx r with
      | none =>
        simp only [Callback.exec, cognisRunnable, run_then, ↓run_ite, tryLookupTaskCtx, run_getThe,
          run_done, before] at stored
        have stays : k.taskCtx r = some tctx := by
          split at stored <;> exact stored
        rw [before] at stays
        cases stays
      | some tctx' => exact .runnable (rated r tctx' before) before stored
    · refine rated r tctx ?_
      rw [← stored]
      simp only [Callback.exec, cognisRunnable, run_then, ↓run_ite, tryLookupTaskCtx, run_getThe,
        run_done]
      split
      · rfl
      cases k.taskCtx p with
      | none => rfl
      | some tctx' => exact (Function.update_of_ne here ..).symm
  | running p =>
    simp only [Callback.exec, cognisRunning, run_then, ↓run_ite, tryLookupTaskCtx, run_getThe,
      run_done, run_modifyState]
    split
    · exact rated
    cases stored : k.taskCtx p with
    | none => exact rated
    | some tctx =>
      simp only [run_then, run_modifyState]
      have started := rated.setCtx p { tctx with startTs := env.now, lastRunAt := env.ktime }
        (rated p tctx stored)
      split <;> exact started
  | stopping p =>
    simp only [Callback.exec, cognisStopping, run_then, ↓run_ite, tryLookupTaskCtx, run_getThe,
      run_done, run_modifyState]
    split
    · exact rated
    cases stored : k.taskCtx p with
    | none => exact rated
    | some tctx => exact rated.setCtx p _ (rated p tctx stored)
  | enable p => exact rated
  | initTask created p =>
    simp only [Callback.exec, cognisInitTask, run_then, ↓run_ite, tryLookupTaskCtx, run_getThe,
      run_done, run_modifyState]
    split
    · exact rated
    split
    · exact rated
    · exact rated.setCtx p {} .created
  | timer =>
    refine (userschedTimerFn_ticks ro env (I := fun s => Rated ro s ∧ s.nrCpuIds = k.nrCpuIds)
      (n := k.nrCpuIds) (fun s t step before => ?_) (fun _ before => before.2) k ⟨rated, rfl⟩).1
    cases step <;> exact before

end

section

variable {ro : Rodata} {m m' : Machine} {u q : Nat}

theorem Disciplined.rated {e : Event} (sound : Sound ro m) (step : Disciplined ro m e m')
    (rated : Rated ro m.kernel) : Rated ro m'.kernel := by
  have called : ∀ (env : Env) (c : Callback), Rated ro (c.exec ro env m.kernel) := fun env c =>
    exec_rated c sound.quiet rated
  cases step with
  | join p created k absent other run =>
    have result : (Callback.initTask created p).exec ro (Env.busy 1 0 0) m.kernel = k :=
      congrArg Prod.snd run
    exact result ▸ called (Env.busy 1 0 0) (.initTask created p)
  | enable p env _ => exact called env (.enable p)
  | leave p away =>
    intro r tctx stored
    have stored : Function.update m.kernel.taskCtx p none r = some tctx := stored
    by_cases here : r = p
    · rw [here, Function.update_self] at stored
      cases stored
    · rw [Function.update_of_ne here] at stored
      exact rated r tctx stored
  | select p prevCpu wakeFlags env away => exact called env (.selectCpu p prevCpu wakeFlags)
  | wake p away => exact rated
  | runnable p env => exact called env (.runnable p)
  | enqueue p enqFlags env ready => exact called env (.enqueue p enqFlags)
  | place p cpu ready => exact rated
  | dispatch cpu prev env => exact called env (.dispatch cpu prev)
  | pick cpu p env _ _ member =>
    have taken : Quiet (m.take (localOn cpu) p).kernel := ⟨sound.quiet.ring, sound.quiet.pending⟩
    exact exec_rated (.running p) taken rated
  | stop cpu p sleeps env current => exact called env (.stopping p)
  | putBack cpu p env current => exact called env (.stopping p)
  | withdraw q p sleeps member => exact rated
  | timer env _ => exact called env .timer
  | world task slots nrScheduled _ => exact rated

/-! ### The virtual front -/

variable (ro) in
theorem cognisRunning_front (env : Env) (p : Nat) (k : Kernel) :
    ((cognisRunning ro env p).run k).2.vtimeNow = k.vtimeNow ∨
      timeBefore k.vtimeNow (k.task p).dsqVtime = true ∧
        ((cognisRunning ro env p).run k).2.vtimeNow = (k.task p).dsqVtime := by
  simp only [cognisRunning, run_then, ↓run_ite, tryLookupTaskCtx, run_getThe, run_done,
    run_modifyState]
  split
  · exact .inl rfl
  cases k.taskCtx p with
  | none => exact .inl rfl
  | some tctx =>
    simp only [run_then, run_modifyState]
    split
    · rename_i later
      exact .inr ⟨later, rfl⟩
    · exact .inl rfl

theorem cognisStopping_front (env : Env) (p : Nat) (k : Kernel) :
    ((cognisStopping ro env p).run k).2.vtimeNow = k.vtimeNow := by
  simp only [cognisStopping, run_then, ↓run_ite, tryLookupTaskCtx, run_getThe, run_done,
    run_modifyState]
  split
  · rfl
  · cases k.taskCtx p <;> rfl

/-- The front moves only when a task with a later deadline starts to run, and then there. -/
theorem Disciplined.front {e : Event} (sound : Sound ro m) (step : Disciplined ro m e m') :
    m'.kernel.vtimeNow = m.kernel.vtimeNow ∨ ∃ p, m.stage p = .waiting ∧
      timeBefore m.kernel.vtimeNow (m.deadline p) = true ∧ m'.kernel.vtimeNow = m.deadline p := by
  have quietly : ∀ (env : Env) (c : Callback), (∀ p, c ≠ .running p) → (∀ p, c ≠ .stopping p) →
      (c.exec ro env m.kernel).vtimeNow = m.kernel.vtimeNow := fun env c begins ends =>
    (exec_accounts begins ends m.kernel).vtimeNow
  cases step with
  | join p created k absent other run =>
    have result : (Callback.initTask created p).exec ro (Env.busy 1 0 0) m.kernel = k :=
      congrArg Prod.snd run
    exact .inl (result ▸ quietly (Env.busy 1 0 0) (.initTask created p) nofun nofun)
  | enable p env _ => exact .inl (quietly env (.enable p) nofun nofun)
  | leave p away => exact .inl rfl
  | select p prevCpu wakeFlags env away =>
    exact .inl (quietly env (.selectCpu p prevCpu wakeFlags) nofun nofun)
  | wake p away => exact .inl rfl
  | runnable p env => exact .inl (quietly env (.runnable p) nofun nofun)
  | enqueue p enqFlags env ready => exact .inl (quietly env (.enqueue p enqFlags) nofun nofun)
  | place p cpu ready => exact .inl rfl
  | dispatch cpu prev env => exact .inl (quietly env (.dispatch cpu prev) nofun nofun)
  | pick cpu p env _ _ member =>
    rcases cognisRunning_front ro env p (m.take (localOn cpu) p).kernel with same | moved
    · exact .inl same
    · exact .inr ⟨p, sound.homes.owned_of_mem member, moved⟩
  | stop cpu p sleeps env current => exact .inl (cognisStopping_front env p m.kernel)
  | putBack cpu p env current => exact .inl (cognisStopping_front env p m.kernel)
  | withdraw q p sleeps member => exact .inl rfl
  | timer env _ => exact .inl (quietly env .timer nofun nofun)
  | world task slots nrScheduled _ => exact .inl rfl

/-- Times near a front compare as their distances from it. -/
theorem timeBefore_iff_offset {front a b : U64}
    (first : -(2 ^ 61) ≤ offset front a ∧ offset front a ≤ 2 ^ 61)
    (second : -(2 ^ 61) ≤ offset front b ∧ offset front b ≤ 2 ^ 61) :
    timeBefore a b = true ↔ offset front a < offset front b := by
  have gap : (a - b).toInt = offset front a - offset front b :=
    toInt_sub_eq_offset (by rw [InHalf]; omega)
  rw [timeBefore_iff_toInt, gap]
  omega

theorem offset_self (front : U64) : offset front front = 0 := by
  rw [offset, sub_self]
  rfl

/-- What the front has passed stays passed. -/
theorem Passed.step {e : Event} (sound : Sound ro m) (tame : m.Tame ro)
    (step : Disciplined ro m e m') (waits : m.stage u = .waiting) (passed : Passed ro u m) :
    Passed ro u m' := by
  unfold Passed at passed ⊢
  rw [step.deadline sound waits]
  rcases step.front sound with same | ⟨p, queued, later, moved⟩
  · rw [same]
    exact passed
  · have near := tame.near u (.inr waits)
    have near' := tame.near p (.inr queued)
    have zero := offset_self m.kernel.vtimeNow
    have gap : (m.deadline u - m.deadline p).toInt =
        offset m.kernel.vtimeNow (m.deadline u) - offset m.kernel.vtimeNow (m.deadline p) :=
      toInt_sub_eq_offset (by rw [InHalf]; unfold Machine.NearFront at near near'; omega)
    have forward := (timeBefore_iff_offset (by rw [zero]; decide) near').mp later
    rw [moved, offset, gap]
    omega

theorem Machine.Tame.inWindow (sound : Sound ro m) (tame : m.Tame ro) : m.InWindow ro := by
  refine inWindow_of_low (m.kernel.vtimeNow - BitVec.ofNat 64 (2 ^ 61)) fun q _ p member => ?_
  have near := tame.near p (.inr (sound.homes.owned_of_mem member))
  unfold Machine.NearFront offset at near
  have shift : m.deadline p - (m.kernel.vtimeNow - BitVec.ofNat 64 (2 ^ 61)) =
      m.deadline p - m.kernel.vtimeNow + BitVec.ofNat 64 (2 ^ 61) := by
    rw [sub_sub_eq_add_sub, add_sub_right_comm]
  rw [shift, BitVec.toNat_add, BitVec.toNat_ofNat]
  rw [BitVec.toInt_eq_toNat_cond] at near
  split at near <;> omega

/-! ### Later arrivals -/

theorem ahead_insertByVtime {deadline : Nat → U64} {p : Nat} {qs : List Nat}
    (waits : u ∈ qs) (later : ∀ r, r = u ∨ r ∈ ahead u qs →
      timeBefore (deadline p) (deadline r) = false) :
    ahead u (insertByVtime deadline p qs) = ahead u qs := by
  induction qs with
  | nil => cases waits
  | cons b qs ih =>
    by_cases here : b = u
    · rw [insertByVtime, if_neg (by simp [later b (.inl here)]), here, ahead_cons_self,
        ahead_cons_self]
    · rw [ahead_cons_of_ne here] at later ⊢
      have first := later b (.inr List.mem_cons_self)
      have rest := ih ((List.mem_cons.mp waits).resolve_left (Ne.symm here)) fun r among =>
        later r (among.imp_right (List.mem_cons_of_mem b))
      rw [insertByVtime, if_neg (by simp [first]), ahead_cons_of_ne here, rest]

/-- Each queue holds a task once, and every PID is a positive `s32`. -/
theorem Machine.Tame.depths (sound : Sound ro m) (tame : m.Tame ro) (q : Nat) :
    (m.kernel.dsq q).length < 2 ^ 31 := by
  have once : (m.kernel.dsq q).Nodup := List.nodup_iff_count_le_one.mpr fun p => by
    by_cases member : p ∈ m.kernel.dsq q
    · have home := sound.homes.placed_of_mem member q
      rw [if_pos rfl] at home
      exact Nat.le_of_eq home
    · exact (List.count_eq_zero.mpr member).trans_le (Nat.zero_le 1)
  have inside : m.kernel.dsq q ⊆ List.range' 1 (2 ^ 31 - 1) := fun p member => by
    have present : m.stage p ≠ .absent := by
      rw [sound.homes.owned_of_mem member]
      decide
    have small := tame.pids p present
    have positive : p ≠ 0 := fun zero => present (zero ▸ sound.idle)
    rw [List.mem_range'_1]
    omega
  have short := (once.subperm inside).length_le
  rw [List.length_range'] at short
  omega

theorem largestLag_ge {k : Kernel} {p s : Nat} (shipped : ShippedLag ro (k.task p).weight)
    (small : s ≤ 64) : lagOf ro (k.task p).weight s ≤ largestLag ro := by
  have heavy : (10000 : U64).toNat = 10000 := rfl
  unfold largestLag lagOf
  rw [heavy]
  exact Nat.div_le_div_right (Nat.mul_le_mul (Nat.mul_le_mul_left _ small) shipped.heavy)

/-- A deadline of `task_dl` is at most the largest lag behind the front. -/
theorem deferred_deadline {env : Env} {k : Kernel} {p : Nat} {tctx : TaskCtx} (scales : env.Scales)
    (shipped : ShippedLag ro (k.task p).weight) (freq : WakeupFreq ro p tctx.wakeupFreq)
    (depths : ∀ q, (k.dsq q).length < 2 ^ 31)
    (near : -(2 ^ 61) ≤ offset k.vtimeNow (k.task p).dsqVtime ∧
      offset k.vtimeNow (k.task p).dsqVtime ≤ 2 ^ 61)
    (awake : tctx.awakeVtime.toNat < 2 ^ 63) (cpu : Int) :
    -(largestLag ro : Int) ≤ offset k.vtimeNow
      (settledVtime ro env k p cpu tctx + cappedAwake ro env (k.task p).weight tctx) := by
  have pressure : pressureOf ro k.queues cpu < 2 ^ 33 := pressureOf_lt depths cpu
  have short : (BitVec.ofNat 64 (pressureOf ro k.queues cpu)).toNat < 2 ^ 33 := by
    rw [BitVec.toNat_ofNat]
    omega
  have cap : maxWakeupFreq.toNat = 64 := rfl
  have scale : (lagScale ro tctx (BitVec.ofNat 64 (pressureOf ro k.queues cpu))).toNat ≤
      max tctx.wakeupFreq.toNat 1 := (lagScale_bounds freq.le short).2
  have small : (lagScale ro tctx (BitVec.ofNat 64 (pressureOf ro k.queues cpu))).toNat ≤ 64 := by
    have capped := freq.le
    omega
  have lag := shipped.scaled_toNat scales small
  have half : -(2 ^ 62) ≤ offset k.vtimeNow (k.task p).dsqVtime ∧
      offset k.vtimeNow (k.task p).dsqVtime ≤ 2 ^ 62 := by omega
  have settled := settledVtime_offset (shipped.lagOf_le small) ⟨_, rfl, lag⟩ half
  have within := taskDl_withinCredit (shipped.lagOf_le small) shipped.awakeMaxOf_le half settled
    (cappedAwake_toNat scales shipped awake)
  have low := within.deadline_low
  rw [taskDl_run] at low
  exact (Int.neg_le_neg (Int.ofNat_le.mpr (largestLag_ge shipped small))).trans low

/-- What `ops.enqueue` puts into a queue of the hierarchy has such a deadline. -/
theorem enqueue_deadline {env : Env} {p : Nat} {enqFlags : U64} (sound : Sound ro m)
    (rated : Rated ro m.kernel) (tame : m.Tame ro) (scales : env.Scales)
    (ready : m.stage p = .ready) (known : q ∈ taskDsqs ro m.kernel.nrCpuIds) :
    let k := (Callback.enqueue p enqFlags).exec ro env m.kernel
    k.dsq q = m.kernel.dsq q ∨
      -(largestLag ro : Int) ≤ offset m.kernel.vtimeNow (k.task p).dsqVtime := by
  intro k
  have effect : Enqueued ro env p enqFlags m.kernel k := cognisEnqueue_enqueued ro env p enqFlags _
  generalize k = k' at effect
  cases effect with
  | skipped _ => exact .inl rfl
  | usersched kicks _ _ =>
    have apart : q ≠ schedDsq := fun same => schedDsq_not_mem_taskDsqs ro _ (same ▸ known)
    left
    split
    · exact Function.update_of_ne apart ..
    · rfl
  | direct qs cpu slice kicks =>
    exact .inl (Function.update_of_ne (taskDsqs_ne_localOn ro _ known cpu) ..)
  | deferred tctx qs target slice kicks stored =>
    right
    have deadline := deferred_deadline scales (tame.shipped p ready) (rated p tctx stored)
      (tame.depths sound) (tame.near p (.inl ready)) (tame.awake p tctx ready stored)
      (m.kernel.task p).cpu
    exact (insertVtime_dsqVtime ((m.kernel.touchAll qs).settle ro env p (m.kernel.task p).cpu tctx)
      target slice _).symm ▸ deadline

/-- The state of the run while `u` waits in `q` for its turn. -/
structure Watched (ro : Rodata) (q u : Nat) (m : Machine) : Prop where
  sound : Sound ro m
  ordered : m.Ordered ro
  rated : Rated ro m.kernel
  tame : m.Tame ro
  known : q ∈ taskDsqs ro m.kernel.nrCpuIds
  waits : u ∈ m.kernel.dsq q
  passed : Passed ro u m

namespace Watched

theorem of_run {boot : Env} {task : Nat → TaskStruct} {k : Kernel} {es : List Event}
    (exported : ro.PidExported) (booted : Booted ro boot task k)
    (arrival : Run (fun m e m' => Disciplined ro m e m' ∧ m'.InWindow ro) (.start k) es m)
    (tame : m.Tame ro) (known : q ∈ taskDsqs ro m.kernel.nrCpuIds) (waits : u ∈ m.kernel.dsq q)
    (passed : Passed ro u m) : Watched ro q u m := by
  have start : Sound ro (.start k) ∧ Machine.Ordered ro (.start k) ∧ Rated ro k := by
    refine ⟨Sound.start booted, ?_⟩
    rw [booted_run booted]
    exact ⟨fun _ _ => List.Pairwise.nil, nofun⟩
  obtain ⟨sound, ordered, rated⟩ := arrival.keeps (P := fun _ => True)
    (I := fun m => Sound ro m ∧ m.Ordered ro ∧ Rated ro m.kernel)
    (fun _ _ _ _ now before => ⟨before.1.step exported now.1,
      before.2.1.step exported before.1 now.1 now.2, now.1.rated before.1 before.2.2⟩)
    (fun _ _ => trivial) start
  exact ⟨sound, ordered, rated, tame, known, waits, passed⟩

variable {e : Event} (exported : ro.PidExported) (watched : Watched ro q u m)
  (stays : Stays ro q u m e m')

include watched in
theorem waiting : m.stage u = .waiting := watched.sound.homes.owned_of_mem watched.waits

include exported watched stays

theorem step : Watched ro q u m' where
  sound := watched.sound.step exported stays.step
  ordered := watched.ordered.step exported watched.sound stays.step
    (stays.tame.inWindow (watched.sound.step exported stays.step))
  rated := stays.step.rated watched.sound watched.rated
  tame := stays.tame
  known := stays.step.storage.1 ▸ watched.known
  waits := stays.waits
  passed := watched.passed.step watched.sound watched.tame stays.step watched.waiting

omit exported stays in
/-- Who stands in front of `u` has no later deadline. -/
theorem ahead_earlier {r : Nat} (among : r = u ∨ r ∈ ahead u (m.kernel.dsq q)) :
    r ∈ m.kernel.dsq q ∧ offset m.kernel.vtimeNow (m.deadline r) ≤
      offset m.kernel.vtimeNow (m.deadline u) := by
  rcases among with rfl | before
  · exact ⟨watched.waits, le_refl _⟩
  obtain ⟨rest, split⟩ := ahead_split watched.waits
  have member : r ∈ m.kernel.dsq q := split ▸ List.mem_append_left _ before
  have ordered := watched.ordered q watched.known
  rw [split] at ordered
  have earlier := (List.pairwise_append.mp ordered).2.2 r before u List.mem_cons_self
  have near := watched.tame.near u (.inr watched.waiting)
  have near' := watched.tame.near r (.inr (watched.sound.homes.owned_of_mem member))
  exact ⟨member, Int.not_lt.mp (mt (timeBefore_iff_offset near near').mpr (by simp [earlier]))⟩

omit exported in
/-- A task that enters any queue of the hierarchy now has a later deadline than `u`. -/
theorem late_arrival {p r : Nat} {enqFlags : U64} {env : Env}
    (event : e = .enqueue p enqFlags env) (ready : m.stage p = .ready)
    (known : r ∈ taskDsqs ro m.kernel.nrCpuIds) (entered : p ∈ m'.kernel.dsq r) :
    m'.kernel.vtimeNow = m.kernel.vtimeNow ∧ m'.NearFront p ∧
      offset m.kernel.vtimeNow (m.deadline u) < offset m.kernel.vtimeNow (m'.deadline p) := by
  have step := stays.step
  subst event
  have result : m'.kernel = (Callback.enqueue p enqFlags).exec ro env m.kernel ∧
      m'.stage p = .waiting := by
    cases step
    exact ⟨rfl, Function.update_self ..⟩
  have front : m'.kernel.vtimeNow = m.kernel.vtimeNow := by
    rw [result.1]
    exact (exec_accounts (c := .enqueue p enqFlags) nofun nofun m.kernel).vtimeNow
  refine ⟨front, stays.tame.near p (.inr result.2), ?_⟩
  rcases enqueue_deadline watched.sound watched.rated watched.tame (stays.scaled _ _ _ rfl) ready
    known with unchanged | low
  · rw [result.1] at entered
    have waiting := watched.sound.homes.owned_of_mem (unchanged ▸ entered)
    rw [ready] at waiting
    cases waiting
  · rw [← result.1] at low
    have passed := watched.passed
    unfold Passed at passed
    change _ < offset m.kernel.vtimeNow (m'.kernel.task p).dsqVtime
    omega

omit exported in
/-- In the queue of `u` it goes behind `u` and those ahead. -/
theorem later_deadline {p : Nat} {enqFlags : U64} {env : Env}
    (event : e = .enqueue p enqFlags env) (ready : m.stage p = .ready)
    (entered : p ∈ m'.kernel.dsq q) {r : Nat} (among : r = u ∨ r ∈ ahead u (m.kernel.dsq q)) :
    timeBefore (m'.deadline p) (m'.deadline r) = false := by
  obtain ⟨member, earlier⟩ := watched.ahead_earlier among
  have queued := watched.sound.homes.owned_of_mem member
  obtain ⟨front, near', later⟩ := watched.late_arrival stays event ready watched.known entered
  have near := watched.tame.near r (.inr queued)
  rw [Machine.NearFront, front] at near'
  rw [stays.step.deadline watched.sound queued, ← Bool.not_eq_true,
    timeBefore_iff_offset near' near]
  omega

omit exported in
theorem other_erased {p : Nat} (erased : m'.kernel.dsq q = (m.kernel.dsq q).erase p) : p ≠ u := by
  rintro rfl
  have once := watched.sound.homes.placed_of_mem watched.waits q
  have none := List.count_erase_self (a := p) (l := m.kernel.dsq q)
  rw [← erased, once, if_pos rfl] at none
  exact List.count_eq_zero.mp none stays.waits

/-- Nobody gets in front of `u`. -/
theorem nobody_passes : (ahead u (m'.kernel.dsq q)).Sublist (ahead u (m.kernel.dsq q)) := by
  have same : m'.kernel.dsq q = m.kernel.dsq q →
      (ahead u (m'.kernel.dsq q)).Sublist (ahead u (m.kernel.dsq q)) := fun same =>
    same ▸ .refl _
  have left : ∀ {p}, m'.kernel.dsq q = (m.kernel.dsq q).erase p →
      (ahead u (m'.kernel.dsq q)).Sublist (ahead u (m.kernel.dsq q)) := by
    intro p erased
    have other := watched.other_erased stays erased
    rw [erased, ahead_erase other]
    exact List.erase_sublist
  cases stays.step.shift exported watched.sound with
  | still dsq _ => exact same (congrFun dsq q)
  | sorted p r enqFlags env event ready _ dsq stage =>
    by_cases here : q = r
    · subst here
      have inserted := congrFun dsq q
      rw [Function.update_self] at inserted
      have entered : p ∈ m'.kernel.dsq q :=
        inserted ▸ (insertByVtime_perm _ p _).symm.subset List.mem_cons_self
      have behind : ahead u (m'.kernel.dsq q) = ahead u (m.kernel.dsq q) :=
        (congrArg (ahead u) inserted).trans (ahead_insertByVtime watched.waits fun r among =>
          watched.later_deadline stays event ready entered among)
      rw [behind]
    · exact same ((congrFun dsq q).trans (Function.update_of_ne here ..))
  | queued p r qs _ foreign _ _ dsq _ =>
    have apart : q ≠ r := fun same => foreign (same ▸ watched.known)
    exact same ((congrFun dsq q).trans (Function.update_of_ne apart ..))
  | taken p r s _ _ dsq _ =>
    by_cases here : q = r
    · subst here
      exact left ((congrFun dsq q).trans (Function.update_self ..))
    · exact same ((congrFun dsq q).trans (Function.update_of_ne here ..))
  | moved p r cpu _ _ _ _ _ dsq _ =>
    have apart := taskDsqs_ne_localOn ro _ watched.known cpu
    have kept := (congrFun dsq q).trans (Function.update_of_ne apart ..)
    by_cases here : q = r
    · subst here
      exact left (kept.trans (Function.update_self ..))
    · exact same (kept.trans (Function.update_of_ne here ..))

omit exported in
/-- A dispatch that serves the queue takes one of those in front of `u`. -/
theorem served_ahead (served : Serves q u m e m') :
    (ahead u (m'.kernel.dsq q)).length < (ahead u (m.kernel.dsq q)).length := by
  obtain ⟨cpu, prev, env, event, allowed, changed⟩ := served
  have step := stays.step
  subst event
  have result : m'.kernel = (Callback.dispatch cpu prev).exec ro env m.kernel := by
    cases step
    rfl
  have quiet := watched.sound.quiet
  rcases dispatch_fetches ro env cpu prev quiet.ring quiet.pending with
    still | ⟨r, _, p, first, after⟩
  · exact absurd (congrFun (congrArg Kernel.dsq result |>.trans still) q) changed
  have dsq := (congrArg Kernel.dsq result).trans (congrArg Queues.dsq after)
  have apart := taskDsqs_ne_localOn ro _ watched.known cpu
  have kept := (congrFun dsq q).trans (Function.update_of_ne apart ..)
  by_cases here : q = r
  · subst here
    have erased : m'.kernel.dsq q = (m.kernel.dsq q).erase p := kept.trans (Function.update_self ..)
    have other := watched.other_erased stays erased
    have member : p ∈ ahead u (m.kernel.dsq q) :=
      mem_ahead_of_find? first watched.waits allowed other
    rw [erased, ahead_erase other, List.length_erase_of_mem member]
    exact Nat.sub_one_lt_of_lt (List.length_pos_of_mem member)
  · exact absurd (kept.trans (Function.update_of_ne here ..)) changed

end Watched

/-- The tests that make a state tame, for the admitted tasks `ps`. -/
def Machine.tameOn (m : Machine) (ps : List Nat) : Bool :=
  ps.all fun p =>
    decide (p < 2 ^ 31 ∧ -(2 ^ 61) ≤ offset m.kernel.vtimeNow (m.deadline p) ∧
      offset m.kernel.vtimeNow (m.deadline p) ≤ 2 ^ 61 ∧ 1 ≤ (m.kernel.task p).weight.toNat ∧
      (m.kernel.task p).weight.toNat ≤ 10000) &&
    (m.kernel.taskCtx p).all fun tctx => decide (tctx.awakeVtime.toNat < 2 ^ 63)

theorem Machine.tame_of_tameOn {ps : List Nat} (lag : ro.sliceLagNs = 40000000)
    (present : ∀ p, m.stage p ≠ .absent → p ∈ ps) (tests : m.tameOn ps = true) : m.Tame ro := by
  simp only [Machine.tameOn, List.all_eq_true, Bool.and_eq_true, decide_eq_true_eq,
    Option.all_eq_true] at tests
  have tested := fun p here => tests p (present p here)
  have ready_here : ∀ {p}, m.stage p = .ready → m.stage p ≠ .absent := fun ready => by simp [ready]
  constructor
  · exact fun p here => (tested p here).1.1
  · rintro p (ready | waits)
    · have ⟨_, low, high, _⟩ := (tested p (ready_here ready)).1
      exact ⟨low, high⟩
    · have ⟨_, low, high, _⟩ := (tested p (by simp [waits])).1
      exact ⟨low, high⟩
  · intro p ready
    have ⟨_, _, _, light, heavy⟩ := (tested p (ready_here ready)).1
    exact ⟨.inl lag, light, heavy⟩
  · exact fun p tctx ready stored => (tested p (ready_here ready)).2 tctx stored

/-- The stages after the changes `us`, the latest first. -/
def stagesAfter (us : List (Nat × Stage)) : Nat → Stage :=
  us.foldr (fun u stage => Function.update stage u.1 u.2) fun _ => .absent

theorem stagesAfter_present {us : List (Nat × Stage)} {ps : List Nat}
    (inside : us.map Prod.fst ⊆ ps) (r : Nat) (here : stagesAfter us r ≠ .absent) : r ∈ ps := by
  induction us with
  | nil => exact absurd rfl here
  | cons u us ih =>
    rw [List.map_cons, List.cons_subset] at inside
    by_cases same : r = u.1
    · exact same ▸ inside.1
    · exact ih inside.2 (by rwa [stagesAfter, List.foldr_cons, Function.update_of_ne same] at here)

/-- Task 6 waits, task 8 has 300 virtual seconds more. -/
def apartTasks (p : Nat) : TaskStruct :=
  .waiting (fun _ => true) (if p = 6 then 0 else 300000000000)

variable (ro) in
/-- Once the virtual front has passed the deadline of a waiting task by the largest lag,
nobody who arrives later gets in front of it: each dispatch that serves its queue, on a CPU
on which it may run, takes one of those ahead of it, or the task itself. -/
theorem passed_task_not_overtaken {boot : Env} {task : Nat → TaskStruct} {k : Kernel}
    {es : List Event} {ls : List (Event × Bool)} (exported : ro.PidExported)
    (booted : Booted ro boot task k)
    (arrival : Run (fun m e m' => Disciplined ro m e m' ∧ m'.InWindow ro) (.start k) es m)
    (tame : m.Tame ro) (known : q ∈ taskDsqs ro m.kernel.nrCpuIds) (waits : u ∈ m.kernel.dsq q)
    (passed : Passed ro u m) (stays : Run (Marked (Stays ro q u) (Serves q u)) m ls m') :
    (ahead u (m'.kernel.dsq q)).Sublist (ahead u (m.kernel.dsq q)) ∧
      ls.countP Prod.snd + (ahead u (m'.kernel.dsq q)).length ≤
        (ahead u (m.kernel.dsq q)).length := by
  have watched := Watched.of_run exported booted arrival tame known waits passed
  constructor
  · refine (Marked.keeps (I := fun s => Watched ro q u s ∧
      (ahead u (s.kernel.dsq q)).Sublist (ahead u (m.kernel.dsq q))) ?_ stays ⟨watched, .refl _⟩).2
    exact fun _ _ _ now before => ⟨before.1.step exported now,
      (before.1.nobody_passes exported now).trans before.2⟩
  · refine marked_le (I := Watched ro q u) (fun s => (ahead u (s.kernel.dsq q)).length) ?_ ?_ ?_
      stays watched
    · exact fun _ _ _ now before => before.step exported now
    · exact fun _ _ _ now before => (before.nobody_passes exported now).length_le
    · exact fun _ _ _ now before served => before.served_ahead now served

end

/-- Task 8 runs and is enqueued again while task 6 still waits. -/
theorem passedTask_keeps_place :
    ∃ m m', Run (Marked (Stays (Rodata.kernelOnly .flat) (cpuToDsq 1 0) 6)
        (Serves (cpuToDsq 1 0) 6)) m
      [(.stop 0 8 false (Env.busy 1 0 0).scaling, false),
        (.enqueue 8 0 (Env.busy 1 0 0).scaling, false)] m' ∧
      (ahead 6 (m'.kernel.dsq (cpuToDsq 1 0))).Sublist (ahead 6 (m.kernel.dsq (cpuToDsq 1 0))) := by
  have lag : (Rodata.kernelOnly .flat).sliceLagNs = 40000000 := rfl
  let us := [(8, Stage.onCpu 0), (8, .waiting), (6, .waiting), (8, .ready), (6, .ready),
    (8, .away), (6, .away)]
  have runs : ∀ r, stagesAfter us r ≠ .absent → r ∈ [6, 8] := stagesAfter_present (by decide)
  have stopped : ∀ r, stagesAfter ((8, .ready) :: us) r ≠ .absent → r ∈ [6, 8] :=
    stagesAfter_present (by decide)
  have back : ∀ r, stagesAfter ((8, .waiting) :: (8, .ready) :: us) r ≠ .absent → r ∈ [6, 8] :=
    stagesAfter_present (by decide)
  obtain ⟨m, m', arrival, tame, known, waits, passed, stays⟩ : ∃ m m',
      Run (fun m e m' => Disciplined (Rodata.kernelOnly .flat) m e m' ∧
        m'.InWindow (Rodata.kernelOnly .flat))
        (.start ((Kernel.boot apartTasks).initialized (Rodata.kernelOnly .flat) (Env.busy 1 0 0)))
        [.join 6 true, .join 8 true, .wake 6, .wake 8, .enqueue 6 0 (Env.busy 1 0 0).scaling,
          .place 8 0, .pick 0 8 (Env.busy 1 0 0)] m ∧
      m.Tame (Rodata.kernelOnly .flat) ∧
      cpuToDsq 1 0 ∈ taskDsqs (Rodata.kernelOnly .flat) m.kernel.nrCpuIds ∧
      6 ∈ m.kernel.dsq (cpuToDsq 1 0) ∧ Passed (Rodata.kernelOnly .flat) 6 m ∧
      Run (Marked (Stays (Rodata.kernelOnly .flat) (cpuToDsq 1 0) 6) (Serves (cpuToDsq 1 0) 6)) m
        [(.stop 0 8 false (Env.busy 1 0 0).scaling, false),
          (.enqueue 8 0 (Env.busy 1 0 0).scaling, false)] m' :=
    ⟨_, _,
      .cons ⟨.join 6 true _ rfl (by decide) rfl, inWindow_of_low 0 (by decide)⟩ <|
      .cons ⟨.join 8 true _ rfl (by decide) rfl, inWindow_of_low 0 (by decide)⟩ <|
      .cons ⟨.wake 6 rfl, inWindow_of_low 0 (by decide)⟩ <|
      .cons ⟨.wake 8 rfl, inWindow_of_low 0 (by decide)⟩ <|
      .cons ⟨.enqueue 6 0 (Env.busy 1 0 0).scaling rfl, inWindow_of_low 0 (by decide)⟩ <|
      .cons ⟨.place 8 0 rfl, inWindow_of_low 0 (by decide)⟩ <|
      .cons ⟨.pick 0 8 (Env.busy 1 0 0) (by decide) rfl
        (List.mem_append_right _ List.mem_cons_self),
        inWindow_of_low 0 (by decide)⟩ (.nil _),
      Machine.tame_of_tameOn lag runs (by decide), by decide, by decide, by unfold Passed; decide,
      .cons ⟨⟨.stop 0 8 false (Env.busy 1 0 0).scaling rfl,
        Machine.tame_of_tameOn lag stopped (by decide), nofun, by decide⟩, by simp [Serves]⟩ <|
      .cons ⟨⟨.enqueue 8 0 (Env.busy 1 0 0).scaling rfl,
        Machine.tame_of_tameOn lag back (by decide),
        fun _ _ env same => by cases same; exact Env.scaling_scales _, by decide⟩,
        by simp [Serves]⟩ (.nil _)⟩
  exact ⟨m, m', stays, (passed_task_not_overtaken _ (fun _ => rfl) (booted_busy _ _) arrival tame
    known waits passed stays).1⟩

end Cognis.Bpf
