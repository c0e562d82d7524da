import Cognis.Bpf.QueueOrder

/-! Which tasks stand in which queue. Kernel threads stay out of the hierarchy, and so does
the user-space scheduler, which has a queue for itself. -/
namespace Cognis.Bpf
open StateLogic Runs

/-- A task that `ops.enqueue` may send to the queue `q` of the scheduler. -/
def Suits (ro : Rodata) (kthread : Bool) (q p : Nat) : Prop :=
  if q = schedDsq then isUserschedTask ro p = true
  else kthread = false ∧ isUserschedTask ro p = false

def Machine.kthread (m : Machine) (p : Nat) : Bool := (m.kernel.task p).kthread

/-- Every queue of the scheduler holds tasks of its class only. -/
def Machine.Classed (ro : Rodata) (m : Machine) : Prop :=
  ∀ q ∈ knownDsqs ro m.kernel.nrCpuIds, ∀ p ∈ m.kernel.dsq q, Suits ro (m.kthread p) q p

/-- A task is a kernel thread for as long as it is admitted, or never. -/
def Event.KeepsThreads (m : Machine) : Event → Prop
  | .world task _ _ => ∀ p, m.stage p ≠ .absent → (task p).kthread = m.kthread p
  | _ => True

section

variable {ro : Rodata} {env : Env} {m m' : Machine} {p q : Nat}

theorem suits_task (target : q ∈ taskDsqs ro m.kernel.nrCpuIds) :
    Suits ro (m.kthread p) q p ↔ m.kthread p = false ∧ isUserschedTask ro p = false := by
  have other : q ≠ schedDsq := (taskDsqs_bounds ro _ target).2
  rw [Suits, if_neg other]

/-- The hierarchy only receives tasks that are not placed directly. -/
theorem Defers.ordinary {k : Kernel} {enqFlags : U64} (defers : Defers ro env p enqFlags k) :
    (k.task p).kthread = false ∧ isUserschedTask ro p = false := by
  obtain ⟨tctx, _, other, canMigrate, prevCpuRtBusy, route⟩ := defers
  refine ⟨Bool.eq_false_iff.mpr fun kthread => ?_, other⟩
  rw [enqueueRoute, if_pos kthread] at route
  cases route

/-- Whoever stands in a queue after an insertion stood there before, or was inserted. -/
theorem mem_update {dsq : Nat → List Nat} {t r : Nat} {qs : List Nat}
    (perm : qs.Perm (p :: dsq t)) (member : r ∈ Function.update dsq t qs q) :
    r ∈ dsq q ∨ q = t ∧ r = p := by
  by_cases here : q = t
  · rw [here, Function.update_self] at member
    rcases List.mem_cons.mp (perm.subset member) with now | before
    · exact .inr ⟨here, now⟩
    · exact .inl (here ▸ before)
  · rw [Function.update_of_ne here] at member
    exact .inl member

theorem update_erase_subset (dsq : Nat → List Nat) (t r : Nat) :
    Function.update dsq t ((dsq t).erase r) q ⊆ dsq q := by
  by_cases here : q = t
  · rw [here, Function.update_self]
    exact List.erase_subset
  · rw [Function.update_of_ne here]
    exact List.Subset.refl _

/-- The scheduler's queues do not see an insertion into a local queue. -/
theorem update_localOn (known : q ∈ knownDsqs ro m.kernel.nrCpuIds) (dsq : Nat → List Nat)
    (cpu : Int) (ps : List Nat) : Function.update dsq (localOn cpu) ps q = dsq q :=
  Function.update_of_ne (fun same => localOn_not_mem_knownDsqs ro _ cpu (same ▸ known)) ..

theorem enqueue_entered (enqFlags : U64) (known : q ∈ knownDsqs ro m.kernel.nrCpuIds) {r : Nat}
    (member : r ∈ ((Callback.enqueue p enqFlags).exec ro env m.kernel).dsq q) :
    r ∈ m.kernel.dsq q ∨ r = p ∧ Suits ro (m.kthread p) q p := by
  have effect := cognisEnqueue_enqueued ro env p enqFlags m.kernel
  simp only [Callback.exec] at member
  generalize ((cognisEnqueue ro env p enqFlags).run m.kernel).2 = k at effect member
  cases effect with
  | skipped _ => exact .inl member
  | usersched kicks usersched _ =>
    split at member
    · rcases mem_update (List.perm_append_singleton p _) member with before | ⟨own, now⟩
      · exact .inl before
      · exact .inr ⟨now, by rwa [Suits, if_pos own]⟩
    · exact .inl member
  | direct qs cpu slice kicks _ _ _ _ =>
    have same := update_localOn (m := m) known m.kernel.dsq cpu (m.kernel.dsq (localOn cpu) ++ [p])
    exact .inl (same ▸ member)
  | deferred tctx qs target slice kicks _ defers target_known _ =>
    rcases mem_update (insertByVtime_perm _ p _) member with before | ⟨own, now⟩
    · exact .inl before
    · exact .inr ⟨now, (suits_task (own ▸ target_known)).mpr defers.ordinary⟩

theorem select_entered (prevCpu : Int) (wakeFlags : U64)
    (known : q ∈ knownDsqs ro m.kernel.nrCpuIds) :
    ((Callback.selectCpu p prevCpu wakeFlags).exec ro env m.kernel).dsq q = m.kernel.dsq q := by
  have effect := cognisSelectCpu_selected ro env p prevCpu wakeFlags m.kernel
  simp only [Callback.exec]
  generalize (cognisSelectCpu ro env p prevCpu wakeFlags).run m.kernel = k at effect
  cases effect with
  | kept _ => rfl
  | placed qs cpu slice _ _ => exact update_localOn known m.kernel.dsq cpu _

theorem dispatch_entered (quiet : Quiet m.kernel) (cpu : Int) (prev : Option Nat)
    (known : q ∈ knownDsqs ro m.kernel.nrCpuIds) :
    ((Callback.dispatch cpu prev).exec ro env m.kernel).dsq q ⊆ m.kernel.dsq q := by
  have effect := dispatch_fetches ro env cpu prev quiet.ring quiet.pending
  rcases effect with same | ⟨t, _, p, _, after⟩
  · exact (congrFun same q) ▸ List.Subset.refl _
  · have after := congrFun (congrArg Queues.dsq after) q
    have before := update_localOn (m := m) known
      (Function.update m.kernel.dsq t ((m.kernel.dsq t).erase p)) cpu
      (m.kernel.dsq (localOn cpu) ++ [p])
    rw [show ((Callback.dispatch cpu prev).exec ro env m.kernel).dsq q = _ from after.trans before]
    exact update_erase_subset m.kernel.dsq t p

/-- Only `ops.enqueue` puts a task into a queue of the scheduler, and then it suits. -/
theorem Disciplined.entered {e : Event} (sound : Sound ro m) (step : Disciplined ro m e m')
    (known : q ∈ knownDsqs ro m.kernel.nrCpuIds) {r : Nat} (member : r ∈ m'.kernel.dsq q) :
    r ∈ m.kernel.dsq q ∨ m.stage r = .ready ∧ Suits ro (m.kthread r) q r := by
  have calm : ∀ (env : Env) {c : Callback}, c.Accounts →
      r ∈ (c.exec ro env m.kernel).dsq q → r ∈ m.kernel.dsq q := fun env c accounts member =>
    have calm : Calm m.kernel (c.exec ro env m.kernel) := exec_calm accounts m.kernel
    calm.dsq ▸ member
  cases step with
  | join p created k absent other run =>
    have result : (Callback.initTask created p).exec ro (Env.busy 1 0 0) m.kernel = k :=
      congrArg Prod.snd run
    exact .inl (calm (Env.busy 1 0 0) (c := .initTask created p) trivial (result ▸ member))
  | enable p env _ => exact .inl (calm env (c := .enable p) trivial member)
  | leave p away => exact .inl member
  | select p prevCpu wakeFlags env away =>
    exact .inl (select_entered prevCpu wakeFlags known ▸ member)
  | wake p away => exact .inl member
  | runnable p env => exact .inl (calm env (c := .runnable p) trivial member)
  | enqueue p enqFlags env ready =>
    rcases enqueue_entered enqFlags known member with before | ⟨now, suits⟩
    · exact .inl before
    · exact .inr (now ▸ ⟨ready, suits⟩)
  | place p cpu ready =>
    exact .inl (update_localOn (m := m) known m.kernel.dsq cpu _ ▸ member)
  | dispatch cpu prev env => exact .inl (dispatch_entered sound.quiet cpu prev known member)
  | pick cpu p env _ _ waits =>
    have calm : Calm (m.take (localOn cpu) p).kernel ((Callback.running p).exec ro env _) :=
      exec_calm (c := .running p) trivial (m.take (localOn cpu) p).kernel
    have inside : r ∈ (m.take (localOn cpu) p).kernel.dsq q := calm.dsq ▸ member
    exact .inl (update_erase_subset m.kernel.dsq (localOn cpu) p inside)
  | stop cpu p sleeps env current => exact .inl (calm env (c := .stopping p) trivial member)
  | putBack cpu p env current =>
    have back := update_localOn (m := m) known ((Callback.stopping p).exec ro env m.kernel).dsq cpu
      (p :: m.kernel.dsq (localOn cpu))
    exact .inl (calm env (c := .stopping p) trivial (back ▸ member))
  | withdraw t p sleeps waits => exact .inl (update_erase_subset m.kernel.dsq t p member)
  | timer env _ => exact .inl (calm env (c := .timer) trivial member)
  | world task slots nrScheduled _ => exact .inl member

theorem Disciplined.kthread {e : Event} (sound : Sound ro m) (step : Disciplined ro m e m')
    (keeps : e.KeepsThreads m) {r : Nat} (admitted : m.stage r ≠ .absent) :
    m'.kthread r = m.kthread r := by
  have called : ∀ {k : Kernel}, Quiet k → ∀ (env : Env) (c : Callback),
      ((c.exec ro env k).task r).kthread = (k.task r).kthread := fun quiet env c =>
    exec_reads c quiet (fun _ _ => rfl) fun _ _ _ => rfl
  cases step with
  | join p created k absent other run =>
    have result : (Callback.initTask created p).exec ro (Env.busy 1 0 0) m.kernel = k :=
      congrArg Prod.snd run
    exact result ▸ called sound.quiet (Env.busy 1 0 0) (.initTask created p)
  | enable p env away => exact called sound.quiet env (.enable p)
  | leave p away => rfl
  | select p prevCpu wakeFlags env away =>
    exact called sound.quiet env (.selectCpu p prevCpu wakeFlags)
  | wake p away => rfl
  | runnable p env => exact called sound.quiet env (.runnable p)
  | enqueue p enqFlags env ready => exact called sound.quiet env (.enqueue p enqFlags)
  | place p cpu ready => rfl
  | dispatch cpu prev env => exact called sound.quiet env (.dispatch cpu prev)
  | pick cpu p env _ _ member =>
    have taken : Quiet (m.take (localOn cpu) p).kernel := ⟨sound.quiet.ring, sound.quiet.pending⟩
    exact called taken env (.running p)
  | stop cpu p sleeps env current => exact called sound.quiet env (.stopping p)
  | putBack cpu p env current => exact called sound.quiet env (.stopping p)
  | withdraw q p sleeps member => rfl
  | timer env _ => exact called sound.quiet env .timer
  | world task slots nrScheduled same => exact keeps r admitted

theorem Machine.Classed.step {e : Event} (sound : Sound ro m) (classed : m.Classed ro)
    (step : Disciplined ro m e m') (keeps : e.KeepsThreads m) : m'.Classed ro := by
  intro q known r member
  rw [step.storage.1] at known
  rcases step.entered sound known member with before | ⟨ready, suits⟩
  · have waits := sound.homes.owned_of_mem before
    rw [step.kthread sound keeps (waits ▸ by decide)]
    exact classed q known r before
  · rwa [step.kthread sound keeps (ready ▸ by decide)]

/-- A run in which no admitted task turns into a kernel thread, or out of one. -/
abbrev ThreadRun (ro : Rodata) := Run fun m e m' => Disciplined ro m e m' ∧ e.KeepsThreads m

/-- No message reaches the ring, and a waiting task is in the queue of its class: the
user-space scheduler in a queue that no other task enters, or local; a kernel thread local;
any other in the hierarchy or local. -/
theorem waiting_queue_suits {boot : Env} {task : Nat → TaskStruct} {k : Kernel}
    {es : List Event} (exported : ro.PidExported) (booted : Booted ro boot task k)
    (run : ThreadRun ro (.start k) es m) :
    m.kernel.ring = [] ∧ ∀ p, m.stage p = .waiting →
      ∃ q, (∀ r, p ∈ m.kernel.dsq r ↔ r = q) ∧ (scxDsqLocalOn ≤ q ∨
        q = schedDsq ∧ isUserschedTask ro p = true ∨
        q ∈ taskDsqs ro m.kernel.nrCpuIds ∧ m.kthread p = false ∧
          isUserschedTask ro p = false) := by
  have start : Sound ro (.start k) ∧ Machine.Classed ro (.start k) := by
    refine ⟨Sound.start booted, fun q _ r member => ?_⟩
    rw [booted_run booted] at member
    cases member
  have kept := run.keeps (I := fun m => Sound ro m ∧ m.Classed ro) (P := fun _ => True)
    (fun _ _ _ _ step before => ⟨before.1.step exported step.1,
      before.2.step before.1 step.1 step.2⟩) (fun _ _ => trivial) start
  obtain ⟨sound, classed⟩ := kept
  refine ⟨sound.quiet.ring, fun p waits => ?_⟩
  obtain ⟨q, home⟩ := sound.homes.placed p waits
  have own : ∀ r, p ∈ m.kernel.dsq r ↔ r = q := fun r => by
    rw [← List.count_pos_iff, home r]
    split
    · simp [*]
    · simp [*]
  have member := (own q).mpr rfl
  refine ⟨q, own, ?_⟩
  rcases sound.known q (List.ne_nil_of_mem member) with known | kernel
  · right
    have suits := classed q known p member
    rcases List.mem_append.mp known with target | sched
    · exact .inr ⟨target, (suits_task target).mp suits⟩
    · split at sched
      · have here := List.mem_singleton.mp sched
        rw [Suits, if_pos here] at suits
        exact .inl ⟨here, suits⟩
      · cases sched
  · exact .inl kernel

/-- Task 7 is enqueued while no CPU is idle. -/
theorem enqueuedTask_suits :
    ∃ m, ThreadRun (Rodata.kernelOnly .flat) .oneCpu
      [.join 7 true, .wake 7, .enqueue 7 0 (Env.busy 1 0 0)] m ∧ m.stage 7 = .waiting ∧
    m.kernel.ring = [] ∧ ∃ q, (∀ r, 7 ∈ m.kernel.dsq r ↔ r = q) ∧ (scxDsqLocalOn ≤ q ∨
      q = schedDsq ∧ isUserschedTask (Rodata.kernelOnly .flat) 7 = true ∨
      q ∈ taskDsqs (Rodata.kernelOnly .flat) m.kernel.nrCpuIds ∧ m.kthread 7 = false ∧
        isUserschedTask (Rodata.kernelOnly .flat) 7 = false) := by
  have run : ThreadRun (Rodata.kernelOnly .flat) .oneCpu
      [.join 7 true, .wake 7, .enqueue 7 0 (Env.busy 1 0 0)] _ :=
    .cons ⟨.join 7 true _ rfl (by decide) rfl, trivial⟩ <| .cons ⟨.wake 7 rfl, trivial⟩ <|
      .cons ⟨.enqueue 7 0 (Env.busy 1 0 0) rfl, trivial⟩ (.nil _)
  obtain ⟨ring, placed⟩ := waiting_queue_suits (fun _ => rfl) (booted_busy _ _) run
  exact ⟨_, run, rfl, ring, placed 7 rfl⟩

end

end Cognis.Bpf
