import Mathlib.Data.BitVec
import Cognis.Bpf.Charging

/-! The virtual service of one task along its enqueues and stays on a CPU. A deferred
insertion stores the deadline in the field that holds the service. -/
namespace Cognis.Bpf
open StateLogic Runs

section

variable (ro : Rodata) (env : Env) (p : Nat)

def chargeOf (k : Kernel) : U64 :=
  match k.taskCtx p with
  | none => 0
  | some tctx =>
    if isUserschedTask ro p then 0
    else env.scaleByTaskWeightInverse (k.task p).weight (stoppingSlice env tctx)

/-- `task_dl` does not have to raise the service to its least value. -/
def NotRaised (enqFlags : U64) (k : Kernel) : Prop :=
  Defers ro env p enqFlags k → ∀ tctx, k.taskCtx p = some tctx →
    timeBefore (k.task p).dsqVtime (vtimeFloor ro env k p (k.task p).cpu tctx) = false

/-- The events of one task; a stop carries what it charges. -/
inductive ServiceLabel
  | enqueue (env : Env) (enqFlags : U64)
  | running (env : Env)
  | stopping (env : Env) (charge : U64)
  | elsewhere

def ServiceLabel.charge : ServiceLabel → U64
  | .stopping _ charge => charge
  | _ => 0

/-- Elsewhere anything may happen that leaves the task's service and storage alone. -/
inductive ServiceStep (k : Kernel) : ServiceLabel → Kernel → Prop
  | enqueue (env : Env) (enqFlags : U64) (kept : NotRaised ro env p enqFlags k) :
      ServiceStep k (.enqueue env enqFlags) (Callback.exec ro env k (.enqueue p enqFlags))
  | running (env : Env) : ServiceStep k (.running env) (Callback.exec ro env k (.running p))
  | stopping (env : Env) :
      ServiceStep k (.stopping env (chargeOf ro env p k)) (Callback.exec ro env k (.stopping p))
  | elsewhere (k' : Kernel) (service : (k'.task p).dsqVtime = (k.task p).dsqVtime)
      (storage : k'.taskCtx p = k.taskCtx p) : ServiceStep k .elsewhere k'

abbrev ServiceRun := Run (ServiceStep ro p)

/-- At every point of the run the service has grown by the charges up to there. -/
def ChargedOnce (k₀ : Kernel) (ls : List ServiceLabel) (k : Kernel) : Prop :=
  ∀ ls₁ ls₂ k₁, ls = ls₁ ++ ls₂ → ServiceRun ro p k₀ ls₁ k₁ → ServiceRun ro p k₁ ls₂ k →
    (k₁.task p).dsqVtime = (k₀.task p).dsqVtime + (ls₁.map ServiceLabel.charge).sum

/-- A deferral in `k` finds no wakeup credit: the task was not charged since it woke,
or the bound on the credit is zero. -/
def Creditless (enqFlags : U64) (k : Kernel) : Prop :=
  Defers ro env p enqFlags k → ∀ tctx, k.taskCtx p = some tctx →
    let awakeMax := env.scaleByTaskWeightInverse (k.task p).weight ro.sliceLagNs
    tctx.awakeVtime = 0 ∧ timeAfter tctx.awakeVtime awakeMax = false ∨
      awakeMax = 0 ∧ timeAfter tctx.awakeVtime awakeMax = true

/-- No enqueue of the run defers a task that has wakeup credit. -/
def NeverCredited (k₀ : Kernel) (ls : List ServiceLabel) (k : Kernel) : Prop :=
  ∀ ls₁ ls₂ k₁ env enqFlags, ls = ls₁ ++ .enqueue env enqFlags :: ls₂ →
    ServiceRun ro p k₀ ls₁ k₁ → ServiceRun ro p k₁ (.enqueue env enqFlags :: ls₂) k →
    Creditless ro env p enqFlags k₁

end

section

variable {ro : Rodata} {env : Env} {p : Nat}

theorem withSlice_dsqVtime (t : TaskStruct) (slice : U64) :
    (t.withSlice slice).dsqVtime = t.dsqVtime := by
  unfold TaskStruct.withSlice
  split <;> rfl

theorem insert_dsqVtime (k : Kernel) (q : Nat) (slice : U64) :
    ((k.insert p q slice).task p).dsqVtime = (k.task p).dsqVtime := by
  simp [Kernel.insert, Kernel.setTask, Kernel.setDsq, withSlice_dsqVtime]

theorem insertVtime_dsqVtime (k : Kernel) (q : Nat) (slice vtime : U64) :
    ((k.insertVtime p q slice vtime).task p).dsqVtime = vtime := by
  simp [Kernel.insertVtime, Kernel.setTask, Kernel.setDsq]

theorem cappedAwake_eq_zero_iff (weight : U64) (tctx : TaskCtx) :
    let awakeMax := env.scaleByTaskWeightInverse weight ro.sliceLagNs
    cappedAwake ro env weight tctx = 0 ↔
      tctx.awakeVtime = 0 ∧ timeAfter tctx.awakeVtime awakeMax = false ∨
        awakeMax = 0 ∧ timeAfter tctx.awakeVtime awakeMax = true := by
  intro awakeMax
  cases late : timeAfter tctx.awakeVtime awakeMax with
  | false =>
    have capped : cappedAwake ro env weight tctx = tctx.awakeVtime := by
      simp only [cappedAwake]
      exact if_neg (by rw [late]; decide)
    simp [capped]
  | true =>
    have capped : cappedAwake ro env weight tctx = awakeMax := by
      simp only [cappedAwake]
      exact if_pos late
    simp [capped]

/-- A deferred insertion adds the wakeup credit to the service; nothing else that
an enqueue does changes it. -/
theorem Enqueued.dsqVtime {enqFlags : U64} {k k' : Kernel} (kept : NotRaised ro env p enqFlags k)
    (h : Enqueued ro env p enqFlags k k') :
    ∃ credit, (k'.task p).dsqVtime = (k.task p).dsqVtime + credit ∧
      (credit = 0 ↔ Creditless ro env p enqFlags k) := by
  have spared : ¬ Defers ro env p enqFlags k → (0 = (0 : U64) ↔ Creditless ro env p enqFlags k) :=
    fun stays => ⟨fun _ defers => absurd defers stays, fun _ => rfl⟩
  cases h with
  | skipped none =>
    refine ⟨0, (add_zero _).symm, spared ?_⟩
    rintro ⟨tctx, storage, _⟩
    exact nomatch none.symm.trans storage
  | usersched kicks usersched stored =>
    refine ⟨0, ?_, spared ?_⟩
    · rw [add_zero]
      split
      · exact insert_dsqVtime k schedDsq ro.sliceNs
      · rfl
    · rintro ⟨_, _, other, _⟩
      exact absurd usersched (by rw [other]; decide)
  | direct qs cpu slice kicks other stored decided _ =>
    exact ⟨0, (insert_dsqVtime (k.touchAll qs) (localOn cpu) slice).trans (add_zero _).symm,
      spared decided⟩
  | deferred tctx qs target slice kicks storage defers _ _ =>
    refine ⟨cappedAwake ro env (k.task p).weight tctx, ?_, ?_⟩
    · have settled : settledVtime ro env k p (k.task p).cpu tctx = (k.task p).dsqVtime := by
        rw [settledVtime, kept defers tctx storage]
        rfl
      rw [← settled]
      exact insertVtime_dsqVtime ((k.touchAll qs).settle ro env p (k.task p).cpu tctx) target
        slice _
    · refine (cappedAwake_eq_zero_iff (k.task p).weight tctx).trans ⟨?_, ?_⟩
      · intro none _ tctx' found
        cases Option.some.inj (found.symm.trans storage)
        exact none
      · intro none
        exact none defers tctx storage

theorem cognisRunning_dsqVtime (k : Kernel) :
    (((cognisRunning ro env p).run k).2.task p).dsqVtime = (k.task p).dsqVtime := by
  simp only [cognisRunning, run_then, ↓run_ite, tryLookupTaskCtx, run_getThe, run_done,
    run_modifyState]
  split
  · rfl
  cases k.taskCtx p with
  | none => rfl
  | some tctx =>
    simp only [run_then, run_modifyState]
    split <;> rfl

theorem cognisStopping_dsqVtime (k : Kernel) :
    (((cognisStopping ro env p).run k).2.task p).dsqVtime =
      (k.task p).dsqVtime + chargeOf ro env p k := by
  cases usersched : isUserschedTask ro p with
  | true =>
    simp only [cognisStopping, usersched, if_true, run_done, chargeOf]
    cases k.taskCtx p <;> simp
  | false =>
    cases storage : k.taskCtx p with
    | none =>
      simp only [cognisStopping, run_then, usersched, tryLookupTaskCtx, run_getThe, run_done,
        run_modifyState, Bool.false_eq_true, if_false, storage, chargeOf]
      exact (add_zero _).symm
    | some tctx =>
      rw [cognisStopping_run usersched storage]
      simp [chargeOf, storage, usersched, Kernel.charged, Kernel.setCtx, Kernel.setTask]

theorem ServiceStep.grows {k k' : Kernel} {l : ServiceLabel} (h : ServiceStep ro p k l k') :
    ∃ credit, (k'.task p).dsqVtime = (k.task p).dsqVtime + l.charge + credit ∧
      (credit = 0 ↔
        ∀ env enqFlags, l = .enqueue env enqFlags → Creditless ro env p enqFlags k) := by
  cases h with
  | enqueue env enqFlags kept =>
    obtain ⟨credit, grown, none⟩ := (cognisEnqueue_enqueued ro env p enqFlags k).dsqVtime kept
    refine ⟨credit, ?_, ?_⟩
    · simpa [ServiceLabel.charge, Callback.exec] using grown
    · rw [none]
      constructor
      · intro free env' enqFlags' same
        cases same
        exact free
      · exact fun free => free env enqFlags rfl
  | running env =>
    refine ⟨0, ?_, fun _ _ _ h => (by cases h), fun _ => rfl⟩
    simpa [ServiceLabel.charge, Callback.exec] using cognisRunning_dsqVtime k
  | stopping env =>
    refine ⟨0, ?_, fun _ _ _ h => (by cases h), fun _ => rfl⟩
    simpa [ServiceLabel.charge, Callback.exec] using cognisStopping_dsqVtime k
  | elsewhere k' service storage =>
    refine ⟨0, ?_, fun _ _ _ h => (by cases h), fun _ => rfl⟩
    simpa [ServiceLabel.charge] using service

theorem NeverCredited.tail {k₀ k₁ k : Kernel} {l : ServiceLabel} {ls : List ServiceLabel}
    (now : ServiceStep ro p k₀ l k₁) (h : NeverCredited ro p k₀ (l :: ls) k) :
    NeverCredited ro p k₁ ls k := by
  intro ls₁ ls₂ k₂ env enqFlags split first rest
  exact h (l :: ls₁) ls₂ k₂ env enqFlags (by rw [split]; rfl) (.cons now first) rest

theorem NeverCredited.grows {k₀ k : Kernel} {ls : List ServiceLabel}
    (run : ServiceRun ro p k₀ ls k) (free : NeverCredited ro p k₀ ls k) :
    (k.task p).dsqVtime = (k₀.task p).dsqVtime + (ls.map ServiceLabel.charge).sum := by
  induction run with
  | nil _ => simp
  | @cons k₀ k₁ k l ls now rest ih =>
    obtain ⟨credit, grown, none⟩ := now.grows
    have nothing : credit = 0 := none.mpr fun env enqFlags same => by
      subst same
      exact free [] ls k₀ env enqFlags rfl (.nil k₀) (.cons now rest)
    rw [ih (free.tail now), grown, nothing, add_zero, List.map_cons, List.sum_cons, add_assoc]

theorem NeverCredited.init {k₀ k₁ k : Kernel} {ls₁ ls₂ : List ServiceLabel}
    (rest : ServiceRun ro p k₁ ls₂ k) (h : NeverCredited ro p k₀ (ls₁ ++ ls₂) k) :
    NeverCredited ro p k₀ ls₁ k₁ := by
  intro ms₁ ms₂ k₂ env enqFlags split first last
  refine h ms₁ (ms₂ ++ ls₂) k₂ env enqFlags ?_ first (last.append rest)
  rw [split, List.append_assoc]
  rfl

/-- The service is charged once at every point of a run exactly when no enqueue of the run
defers the task while it has wakeup credit. -/
theorem charged_once_iff (ro : Rodata) (p : Nat) (k₀ k : Kernel) (ls : List ServiceLabel) :
    ChargedOnce ro p k₀ ls k ↔ NeverCredited ro p k₀ ls k := by
  constructor
  · intro once ls₁ ls₂ k₁ env enqFlags split first last
    cases last with
    | @cons _ k₂ _ _ _ now rest =>
      obtain ⟨credit, grown, none⟩ := now.grows
      have before := once ls₁ (.enqueue env enqFlags :: ls₂) k₁ split first (.cons now rest)
      have after := once (ls₁ ++ [.enqueue env enqFlags]) ls₂ k₂
        (by rw [split, List.append_assoc]; rfl) (first.append (.single now)) rest
      have nothing : credit = 0 := by
        rw [grown, before] at after
        simpa [ServiceLabel.charge] using after
      exact none.mp nothing env enqFlags rfl
  · intro free ls₁ ls₂ k₁ split first rest
    subst split
    exact (free.init rest).grows first

end

/-- `oneTask` after its wakeup and 2000 ns on the CPU. -/
def ranOnce : Kernel :=
  let ro := Rodata.kernelOnly .flat
  let woken := Callback.exec ro (Env.busy 1 500 0) oneTask (.runnable 1)
  Callback.exec ro (Env.busy 1 3000 0)
    (Callback.exec ro (Env.busy 1 1000 0) woken (.running 1)) (.stopping 1)

/-- Requeued in a kernel without an idle CPU, and in one that offers CPU 0. -/
def requeue (env : Env) : Kernel := Callback.exec (.kernelOnly .flat) env ranOnce (.enqueue 1 0)

def idleEnv : Env := { Env.busy 1 3000 0 with selectCpuAnd := fun _ _ _ => 0 }

def requeueLabels (env : Env) : List ServiceLabel :=
  [.running (.busy 1 1000 0), .stopping (.busy 1 3000 0) 2000, .enqueue env 0]

theorem requeue_run (env : Env)
    (kept : NotRaised (.kernelOnly .flat) env 1 0 ranOnce) :
    ServiceRun (.kernelOnly .flat) 1
      (Callback.exec (.kernelOnly .flat) (Env.busy 1 500 0) oneTask (.runnable 1))
      (requeueLabels env) (requeue env) :=
  .cons (.running _) (.cons (.stopping (.busy 1 3000 0)) (.single (.enqueue env 0 kept)))

/-- The same 2000 ns are charged on both routes, but the deferred one ends with 4000. -/
theorem deferred_route_charges_twice :
    ∃ k₀ k₁ k₂, ServiceRun (.kernelOnly .flat) 1 k₀ (requeueLabels (.busy 1 3000 0)) k₁ ∧
      ServiceRun (.kernelOnly .flat) 1 k₀ (requeueLabels idleEnv) k₂ ∧
      (k₁.task 1).dsqVtime = 4000 ∧ (k₂.task 1).dsqVtime = 2000 ∧
      ¬ ChargedOnce (.kernelOnly .flat) 1 k₀ (requeueLabels (.busy 1 3000 0)) k₁ := by
  have awake : ∀ env tctx, ranOnce.taskCtx 1 = some tctx →
      env.scaleByTaskWeight = (Env.busy 1 3000 0).scaleByTaskWeight →
      timeBefore (ranOnce.task 1).dsqVtime
        (vtimeFloor (.kernelOnly .flat) env ranOnce 1 (ranOnce.task 1).cpu tctx) = false := by
    intro env tctx storage scale
    cases Option.some.inj storage
    rw [vtimeFloor, vtimeMin, scale]
    decide
  have deferred := requeue_run (.busy 1 3000 0) fun _ tctx storage => awake _ tctx storage rfl
  have direct := requeue_run idleEnv fun _ tctx storage => awake _ tctx storage rfl
  refine ⟨_, _, _, deferred, direct, by decide, by decide, fun once => ?_⟩
  have grown := once (requeueLabels (.busy 1 3000 0)) [] _ (by simp) deferred (.nil _)
  exact absurd grown (by decide)

end Cognis.Bpf
