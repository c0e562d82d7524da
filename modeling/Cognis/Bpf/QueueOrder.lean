import Mathlib.Data.BitVec
import Cognis.Bpf.Custody
import Cognis.Bpf.EarliestFirst
import Cognis.Bpf.VirtualService

/-! Deadline order of the scheduler's queues over whole runs. Insertions compare wrapped
deadlines, so the order holds as long as each queue spans at most half of the clock. -/
namespace Cognis.Bpf
open StateLogic Runs

/-- The deadlines lie within one half of the clock, wherever that half begins. -/
def WithinHalf (deadline : Nat → U64) (ps : List Nat) : Prop :=
  ∃ low : U64, ∀ p ∈ ps, (deadline p - low).toNat < 2 ^ 63

/-- No task stands behind one with a later deadline. -/
def InOrder (deadline : Nat → U64) (ps : List Nat) : Prop :=
  ps.Pairwise fun a b => timeBefore (deadline b) (deadline a) = false

section

variable {deadline : Nat → U64}

theorem timeBefore_offset {a b low : U64} (first : (a - low).toNat < 2 ^ 63)
    (second : (b - low).toNat < 2 ^ 63) :
    timeBefore a b = true ↔ (a - low).toNat < (b - low).toNat := by
  have shifted : timeBefore (a - low) (b - low) = timeBefore a b := by
    rw [timeBefore, timeBefore, sub_sub_sub_cancel_right]
  have window : timeBefore (a - low) (b - low) = true ↔ a - low < b - low :=
    timeBefore_iff (Nat.zero_le _) (by omega) (Nat.zero_le _) (by omega)
  rw [← shifted, window, BitVec.lt_def]

theorem timeBefore_offset_false {a b low : U64} (first : (a - low).toNat < 2 ^ 63)
    (second : (b - low).toNat < 2 ^ 63) :
    timeBefore a b = false ↔ (b - low).toNat ≤ (a - low).toNat := by
  rw [← Bool.not_eq_true, timeBefore_offset first second, Nat.not_lt]

theorem insertByVtime_inOrder {p : Nat} {qs : List Nat} (half : WithinHalf deadline (p :: qs))
    (ordered : InOrder deadline qs) : InOrder deadline (insertByVtime deadline p qs) := by
  obtain ⟨low, half⟩ := half
  induction qs with
  | nil => exact List.pairwise_singleton _ p
  | cons q qs ih =>
    obtain ⟨head, tail⟩ := List.pairwise_cons.mp ordered
    have p_half := half p List.mem_cons_self
    have q_half := half q (by simp)
    unfold insertByVtime
    split
    · rename_i before
      have first := (timeBefore_offset p_half q_half).mp before
      refine List.pairwise_cons.mpr ⟨fun r member => ?_, ordered⟩
      have r_half := half r (List.mem_cons_of_mem p member)
      rw [timeBefore_offset_false r_half p_half]
      rcases List.mem_cons.mp member with rfl | later
      · exact Nat.le_of_lt first
      · have behind := (timeBefore_offset_false r_half q_half).mp (head r later)
        exact Nat.le_trans (Nat.le_of_lt first) behind
    · rename_i after
      have rest := ih tail fun r member => half r (by
        rcases List.mem_cons.mp member with rfl | later
        · exact List.mem_cons_self
        · simp [later])
      refine List.pairwise_cons.mpr ⟨fun r member => ?_, rest⟩
      rcases List.mem_cons.mp ((insertByVtime_perm deadline p qs).subset member) with rfl | later
      · exact Bool.eq_false_iff.mpr after
      · exact head r later

/-- The first task that satisfies `fits` has the earliest deadline of those that do. -/
theorem InOrder.first_least {ps : List Nat} (ordered : InOrder deadline ps) {fits : Nat → Bool}
    {p u : Nat} (first : ps.find? fits = some p) (member : u ∈ ps) (allowed : fits u = true) :
    timeBefore (deadline u) (deadline p) = false := by
  obtain ⟨_, before, after, split, none⟩ := List.find?_eq_some_iff_append.mp first
  rw [split] at member ordered
  have later := (List.pairwise_cons.mp (List.pairwise_append.mp ordered).2.1).1
  rcases List.mem_append.mp member with early | now
  · simpa [allowed] using none u early
  rcases List.mem_cons.mp now with rfl | late
  · rw [timeBefore, sub_self]
    decide
  · exact later u late

end

/-- The tasks whose deadline a callback may set. -/
def Callback.charges : Callback → Option Nat
  | .enqueue p _ | .stopping p | .enable p => some p
  | .selectCpu _ _ _ | .dispatch _ _ | .runnable _ | .running _ | .initTask _ _ | .timer => none

section

variable {ro : Rodata} {env : Env} {k k' : Kernel} {r : Nat} {α : Type} {f : TaskStruct → α}

/-- A task record stored for `p` in which `f` reads the same. -/
theorem setTask_reads {p : Nat} {t : TaskStruct} (same : f t = f (k.task p)) :
    f ((k.setTask p t).task r) = f (k.task r) := by
  change f (Function.update k.task p t r) = _
  by_cases here : r = p
  · rw [here, Function.update_self, same]
  · rw [Function.update_of_ne here]

theorem withSlice_reads (slices : ∀ t slice, f { t with slice } = f t) (t : TaskStruct)
    (slice : U64) : f (t.withSlice slice) = f t := by
  unfold TaskStruct.withSlice
  split <;> exact slices t _

theorem Enqueued.reads {p : Nat} {enqFlags : U64} (h : Enqueued ro env p enqFlags k k')
    (slices : ∀ t slice, f { t with slice } = f t)
    (charged : p = r → ∀ t dsqVtime, f { t with dsqVtime } = f t) :
    f (k'.task r) = f (k.task r) := by
  have sliced := withSlice_reads slices
  cases h with
  | skipped _ => rfl
  | usersched kicks _ _ =>
    split
    · exact setTask_reads (sliced _ _)
    · rfl
  | direct => exact setTask_reads (sliced _ _)
  | deferred =>
    by_cases here : p = r
    · exact (setTask_reads ((charged here _ _).trans (sliced _ _))).trans
        (setTask_reads (charged here _ _))
    · have other := Ne.symm here
      exact congrArg f ((Function.update_of_ne other ..).trans (Function.update_of_ne other ..))

/-- A callback writes nothing to a task but its slice, and its deadline if it may set it. -/
theorem exec_reads (c : Callback) (quiet : Quiet k)
    (slices : ∀ t slice, f { t with slice } = f t)
    (charged : c.charges = some r → ∀ t dsqVtime, f { t with dsqVtime } = f t) :
    f ((c.exec ro env k).task r) = f (k.task r) := by
  have sliced := withSlice_reads slices
  have charge : ∀ p t, (p = r → f t = f (k.task p)) →
      f ((k.setTask p t).task r) = f (k.task r) := by
    intro p t same
    by_cases here : p = r
    · exact setTask_reads (same here)
    · exact congrArg f (Function.update_of_ne (Ne.symm here) ..)
  cases c with
  | selectCpu p prevCpu wakeFlags =>
    have effect := cognisSelectCpu_selected ro env p prevCpu wakeFlags k
    simp only [Callback.exec]
    generalize (cognisSelectCpu ro env p prevCpu wakeFlags).run k = s at effect
    cases effect with
    | kept _ => rfl
    | placed => exact setTask_reads (sliced _ _)
  | enqueue p enqFlags =>
    exact (cognisEnqueue_enqueued ro env p enqFlags k).reads slices fun here =>
      charged (here ▸ rfl)
  | dispatch cpu prev =>
    refine updates_keep (I := fun s => f (s.task r) = f (k.task r))
      (fun s t step before => ?_) (picked_steps ro env cpu prev k)
      (drained_of_empty quiet.ring ▸ rfl)
    cases step with
    | refill p slice => exact (setTask_reads (slices _ _)).trans before
    | _ => exact before
  | runnable p =>
    simp only [Callback.exec, cognisRunnable, run_then, ↓run_ite, tryLookupTaskCtx, run_getThe,
      run_done]
    split
    · rfl
    · cases k.taskCtx p <;> rfl
  | running p =>
    simp only [Callback.exec, cognisRunning, run_then, ↓run_ite, tryLookupTaskCtx, run_getThe,
      run_done, run_modifyState]
    split
    · rfl
    cases k.taskCtx p with
    | none => rfl
    | some tctx =>
      simp only [run_then, run_modifyState]
      split <;> rfl
  | stopping p =>
    simp only [Callback.exec, cognisStopping, run_then, ↓run_ite, tryLookupTaskCtx, run_getThe,
      run_done, run_modifyState]
    split
    · rfl
    cases k.taskCtx p with
    | none => rfl
    | some tctx => exact charge p _ fun here => charged (here ▸ rfl) _ _
  | enable p =>
    refine charge p _ fun here => ?_
    have sets := charged (congrArg some here)
      { k.task p with slice := maxU ro.sliceNs ro.sliceMinNs } k.vtimeNow
    exact sets.trans (slices (k.task p) _)
  | initTask created p =>
    simp only [Callback.exec, cognisInitTask, run_then, ↓run_ite, tryLookupTaskCtx, run_getThe,
      run_done, run_modifyState]
    split
    · rfl
    · split <;> rfl
  | timer =>
    refine (userschedTimerFn_ticks ro env (I := fun s => s.task = k.task ∧
      s.nrCpuIds = k.nrCpuIds) (n := k.nrCpuIds) (fun s t step before => ?_)
      (fun _ before => before.2) k ⟨rfl, rfl⟩).1 ▸ rfl
    cases step <;> exact before

theorem exec_deadline (c : Callback) (quiet : Quiet k) (other : c.charges ≠ some r) :
    ((c.exec ro env k).task r).dsqVtime = (k.task r).dsqVtime :=
  exec_reads c quiet (fun _ _ => rfl) fun charged => absurd charged other

end

section

variable {ro : Rodata} {m m' : Machine}

def Machine.deadline (m : Machine) (p : Nat) : U64 := (m.kernel.task p).dsqVtime

/-- Every queue of the scheduler spans at most half of the clock. -/
def Machine.InWindow (ro : Rodata) (m : Machine) : Prop :=
  ∀ q ∈ taskDsqs ro m.kernel.nrCpuIds, WithinHalf m.deadline (m.kernel.dsq q)

theorem inWindow_of_low (low : U64) (half : ∀ q ∈ taskDsqs ro m.kernel.nrCpuIds,
    ∀ p ∈ m.kernel.dsq q, (m.deadline p - low).toNat < 2 ^ 63) : m.InWindow ro :=
  fun q known => ⟨low, half q known⟩

def Machine.Ordered (ro : Rodata) (m : Machine) : Prop :=
  ∀ q ∈ taskDsqs ro m.kernel.nrCpuIds, InOrder m.deadline (m.kernel.dsq q)

/-- The deadline of a task does not change while it waits. -/
theorem Disciplined.deadline {e : Event} (sound : Sound ro m) (step : Disciplined ro m e m')
    {r : Nat} (waits : m.stage r = .waiting) : m'.deadline r = m.deadline r := by
  have called : ∀ (env : Env) (c : Callback), c.charges ≠ some r →
      (m.call ro env c).deadline r = m.deadline r := fun env c other =>
    exec_deadline c sound.quiet other
  have apart : ∀ {p}, m.stage p ≠ .waiting → some p ≠ some r := fun off same =>
    off (Option.some.inj same ▸ waits)
  cases step with
  | join p created k absent other run =>
    have result : (Callback.initTask created p).exec ro (Env.busy 1 0 0) m.kernel = k :=
      congrArg Prod.snd run
    exact result ▸ called (Env.busy 1 0 0) (.initTask created p) nofun
  | enable p env away => exact called env (.enable p) (apart (away ▸ by decide))
  | leave p away => rfl
  | select p prevCpu wakeFlags env away => exact called env (.selectCpu p prevCpu wakeFlags) nofun
  | wake p away => rfl
  | runnable p env => exact called env (.runnable p) nofun
  | enqueue p enqFlags env ready =>
    exact called env (.enqueue p enqFlags) (apart (ready ▸ by decide))
  | place p cpu ready => rfl
  | dispatch cpu prev env => exact called env (.dispatch cpu prev) nofun
  | pick cpu p env _ _ member =>
    have taken : Quiet (m.take (localOn cpu) p).kernel := ⟨sound.quiet.ring, sound.quiet.pending⟩
    exact exec_deadline (.running p) taken nofun
  | stop cpu p sleeps env current =>
    exact called env (.stopping p) (apart (sound.current cpu p current ▸ by simp))
  | putBack cpu p env current =>
    exact called env (.stopping p) (apart (sound.current cpu p current ▸ by simp))
  | withdraw q p sleeps member => rfl
  | timer env _ => exact called env .timer nofun
  | world task slots nrScheduled same => exact same r

theorem InOrder.congr {deadline deadline' : Nat → U64} {ps : List Nat}
    (ordered : InOrder deadline ps) (same : ∀ p ∈ ps, deadline' p = deadline p) :
    InOrder deadline' ps := by
  refine List.Pairwise.imp_of_mem (fun {a b} first second before => ?_) ordered
  rwa [same a first, same b second]

theorem Machine.Ordered.step {e : Event} (exported : ro.PidExported) (sound : Sound ro m)
    (step : Disciplined ro m e m') (window : m'.InWindow ro) (ordered : m.Ordered ro) :
    m'.Ordered ro := by
  intro q known
  have cpus := step.storage.1
  rw [cpus] at known
  have before : InOrder m'.deadline (m.kernel.dsq q) := (ordered q known).congr fun p member =>
    step.deadline sound (sound.homes.owned_of_mem member)
  have left : ∀ p, InOrder m'.deadline ((m.kernel.dsq q).erase p) := fun p =>
    List.Pairwise.sublist List.erase_sublist before
  have half := window q (cpus ▸ known)
  cases step.shift exported sound with
  | still dsq _ => exact dsq ▸ before
  | sorted p r _ _ _ _ _ dsq _ =>
    rw [dsq] at half ⊢
    by_cases here : q = r
    · subst here
      rw [Function.update_self] at half ⊢
      obtain ⟨low, half⟩ := half
      refine insertByVtime_inOrder ⟨low, fun u member => half u ?_⟩ before
      exact (insertByVtime_perm _ p _).symm.subset member
    · rwa [Function.update_of_ne here]
  | queued p r qs _ foreign _ _ dsq _ =>
    have other : q ≠ r := fun same => foreign (same ▸ known)
    rwa [dsq, Function.update_of_ne other]
  | taken p r s _ _ dsq _ =>
    rw [dsq]
    by_cases here : q = r
    · rw [← here, Function.update_self]
      exact left p
    · rwa [Function.update_of_ne here]
  | moved p r cpu _ _ _ _ _ dsq _ =>
    rw [dsq, Function.update_of_ne (taskDsqs_ne_localOn ro _ known cpu)]
    by_cases here : q = r
    · rw [← here, Function.update_self]
      exact left p
    · rwa [Function.update_of_ne here]

/-- While every queue spans at most half of the clock, each stays in deadline order, so
that the task a CPU would take from it is the earliest there that may run on the CPU. -/
theorem queues_stay_in_order {boot : Env} {task : Nat → TaskStruct} {k : Kernel}
    {es : List Event} (exported : ro.PidExported) (booted : Booted ro boot task k)
    (run : Run (fun m e m' => Disciplined ro m e m' ∧ m'.InWindow ro) (.start k) es m) (q : Nat)
    (known : q ∈ taskDsqs ro m.kernel.nrCpuIds) :
    InOrder m.deadline (m.kernel.dsq q) ∧ ∀ cpu p u,
      m.kernel.queues.firstAllowed cpu q = some p → u ∈ m.kernel.dsq q →
      (m.kernel.task u).cpusPtr cpu = true → timeBefore (m.deadline u) (m.deadline p) = false := by
  have start : Sound ro (.start k) ∧ Machine.Ordered ro (.start k) := by
    refine ⟨Sound.start booted, fun q _ => ?_⟩
    rw [booted_run booted]
    exact List.Pairwise.nil
  have kept := run.keeps (I := fun m => Sound ro m ∧ m.Ordered ro) (P := fun _ => True)
    (fun _ _ _ _ step before => ⟨before.1.step exported step.1,
      before.2.step exported before.1 step.1 step.2⟩) (fun _ _ => trivial) start
  have ordered := kept.2 q known
  exact ⟨ordered, fun cpu p u first member allowed => ordered.first_least first member allowed⟩

/-- Tasks 5 and 6 fill the queues of the CPU and of its LLC. Task 7, which has run, waits in
the shared queue, where task 8, which has not, passes it. -/
theorem enqueuedTasks_in_order :
    ∃ m, Run (fun m e m' => Disciplined (Rodata.kernelOnly .flat) m e m' ∧
        m'.InWindow (Rodata.kernelOnly .flat)) .oneCpu
      [.join 5 true, .join 6 true, .join 7 true, .join 8 true, .wake 5, .wake 6, .wake 7, .wake 8,
        .place 7 0, .pick 0 7 (Env.busy 1 0 0), .stop 0 7 false (Env.busy 1 50 0),
        .enqueue 5 0 (Env.busy 1 50 0), .enqueue 6 0 (Env.busy 1 50 0),
        .enqueue 7 0 (Env.busy 1 50 0), .enqueue 8 0 (Env.busy 1 50 0)] m ∧
    m.kernel.dsq sharedDsq = [8, 7] ∧ m.deadline 8 = 0 ∧ m.deadline 7 = 100 ∧
    InOrder m.deadline (m.kernel.dsq sharedDsq) := by
  have run : Run (fun m e m' => Disciplined (Rodata.kernelOnly .flat) m e m' ∧
      m'.InWindow (Rodata.kernelOnly .flat)) .oneCpu
      [.join 5 true, .join 6 true, .join 7 true, .join 8 true, .wake 5, .wake 6, .wake 7, .wake 8,
        .place 7 0, .pick 0 7 (Env.busy 1 0 0), .stop 0 7 false (Env.busy 1 50 0),
        .enqueue 5 0 (Env.busy 1 50 0), .enqueue 6 0 (Env.busy 1 50 0),
        .enqueue 7 0 (Env.busy 1 50 0), .enqueue 8 0 (Env.busy 1 50 0)] _ :=
    .cons ⟨.join 5 true _ rfl (by decide) rfl, inWindow_of_low 0 (by decide)⟩ <|
    .cons ⟨.join 6 true _ rfl (by decide) rfl, inWindow_of_low 0 (by decide)⟩ <|
    .cons ⟨.join 7 true _ rfl (by decide) rfl, inWindow_of_low 0 (by decide)⟩ <|
    .cons ⟨.join 8 true _ rfl (by decide) rfl, inWindow_of_low 0 (by decide)⟩ <|
    .cons ⟨.wake 5 rfl, inWindow_of_low 0 (by decide)⟩ <|
    .cons ⟨.wake 6 rfl, inWindow_of_low 0 (by decide)⟩ <|
    .cons ⟨.wake 7 rfl, inWindow_of_low 0 (by decide)⟩ <|
    .cons ⟨.wake 8 rfl, inWindow_of_low 0 (by decide)⟩ <|
    .cons ⟨.place 7 0 rfl, inWindow_of_low 0 (by decide)⟩ <|
    .cons ⟨.pick 0 7 (Env.busy 1 0 0) (by decide) rfl
      (List.mem_append_right _ List.mem_cons_self), inWindow_of_low 0 (by decide)⟩ <|
    .cons ⟨.stop 0 7 false (Env.busy 1 50 0) rfl, inWindow_of_low 0 (by decide)⟩ <|
    .cons ⟨.enqueue 5 0 (Env.busy 1 50 0) rfl, inWindow_of_low 0 (by decide)⟩ <|
    .cons ⟨.enqueue 6 0 (Env.busy 1 50 0) rfl, inWindow_of_low 0 (by decide)⟩ <|
    .cons ⟨.enqueue 7 0 (Env.busy 1 50 0) rfl, inWindow_of_low 0 (by decide)⟩ <|
    .cons ⟨.enqueue 8 0 (Env.busy 1 50 0) rfl, inWindow_of_low 0 (by decide)⟩ (.nil _)
  exact ⟨_, run, by decide, by decide, by decide,
    (queues_stay_in_order (fun _ => rfl) (booted_busy _ _) run sharedDsq (by decide)).1⟩

end

end Cognis.Bpf
