import Cognis.Bpf.DispatchSteps
import Cognis.Bpf.Init

/-! One tick of the heartbeat timer: the backlog it sees, the guard, and the rearming. -/
namespace Cognis.Bpf
open StateLogic

def Backlog (ro : Rodata) (v : Queues) : Prop := ∃ q ∈ taskDsqs ro v.nrCpuIds, v.dsq q ≠ []

theorem indicesBelow_eq {count limit : Nat} (fits : count ≤ limit) :
    indicesBelow count limit = List.range count := by
  have split : List.range limit = List.range count ++ List.range' count (limit - count) := by
    have parts : List.range' 0 count ++ List.range' (0 + count) (limit - count) =
        List.range' 0 (count + (limit - count)) := List.range'_append_1
    rw [List.range_eq_range', List.range_eq_range', ← Nat.add_sub_cancel' fits, ← parts]
    simp
  have below : ∀ i ∈ List.range count, decide (i < count) = true := by simp
  have stop : (List.range' count (limit - count)).takeWhile (fun i => decide (i < count)) = [] := by
    cases limit - count with
    | zero => rfl
    | succ m => simp [List.range'_succ]
  rw [indicesBelow, split, List.takeWhile_append_of_pos below, stop, List.append_nil]

theorem anyQueued_run (qs : List Nat) (k : Kernel) :
    ∃ asked, asked ⊆ qs ∧
      (anyQueued qs).run k = (qs.any fun q => !(k.dsq q).isEmpty, k.touchAll asked) := by
  induction qs generalizing k with
  | nil => exact ⟨[], by simp, by simp [anyQueued, Kernel.touchAll_nil]⟩
  | cons q qs ih =>
    cases queue : k.dsq q with
    | nil =>
      obtain ⟨asked, inside, run⟩ := ih (k.touch q)
      refine ⟨q :: asked, List.cons_subset_cons q inside, ?_⟩
      simp [anyQueued, scxBpfDsqNrQueued_run, queue, run, Kernel.touchAll_cons]
    | cons p ps =>
      refine ⟨[q], by simp, ?_⟩
      simp [anyQueued, scxBpfDsqNrQueued_run, queue, Kernel.touch_eq]

section

variable (ro : Rodata) (env : Env)

theorem anyQueued_append (qs rs : List Nat) (k : Kernel) :
    (anyQueued (qs ++ rs)).run k =
      (do if ← anyQueued qs then return true
          anyQueued rs : BpfM Bool).run k := by
  induction qs generalizing k with
  | nil => simp [anyQueued]
  | cons q qs ih =>
    cases queue : k.dsq q with
    | nil => simpa [anyQueued, scxBpfDsqNrQueued_run, queue] using ih (k.touch q)
    | cons p ps => simp [anyQueued, scxBpfDsqNrQueued_run, queue]

def backlogDsqs (n : Nat) : List Nat :=
  [sharedDsq] ++ (cpuDsqs n ++ ((List.range ro.nrLlcs).map llcToDsq ++
    (List.range ro.nrNodes).map nodeToDsq))

theorem mem_backlogDsqs {n q : Nat} : q ∈ backlogDsqs ro n ↔ q ∈ taskDsqs ro n := by
  simp only [backlogDsqs, taskDsqs, List.mem_append]
  tauto

theorem dsqBacklogExists_eq (k : Kernel) :
    (dsqBacklogExists ro).run k = (anyQueued (backlogDsqs ro k.nrCpuIds)).run k := by
  simp only [dsqBacklogExists, backlogDsqs, anyQueued_append, run_then, run_getThe, ↓run_ite,
    indicesBelow_eq ro.llcs_le, indicesBelow_eq ro.nodes_le, anyQueued, scxBpfDsqNrQueued_run,
    run_done]
  split <;> rfl

theorem dsqBacklogExists_run (k : Kernel) :
    ∃ found asked, (dsqBacklogExists ro).run k = (found, k.touchAll asked) ∧
      asked ⊆ taskDsqs ro k.nrCpuIds ∧ (found = true ↔ Backlog ro k.queues) := by
  obtain ⟨asked, inside, run⟩ := anyQueued_run (backlogDsqs ro k.nrCpuIds) k
  refine ⟨_, asked, (dsqBacklogExists_eq ro k).trans run, fun q member =>
    (mem_backlogDsqs ro).mp (inside member), ?_⟩
  simp [Backlog, mem_backlogDsqs]

def GuardDue (k : Kernel) : Prop :=
  Backlog ro k.queues ∧ timeDelta env.now k.lastDispatchAt ≥ dispatchProgressGuardNs

theorem dispatchProgressGuard_run (k : Kernel) :
    ∃ asked, asked ⊆ taskDsqs ro k.nrCpuIds ∧
      (GuardDue ro env k ∧ (dispatchProgressGuard ro env).run k = (true,
          { k.touchAll asked with
            exits := k.exits ++ [.dispatchProgress (timeDelta env.now k.lastDispatchAt)] }) ∨
        ¬ GuardDue ro env k ∧
          (dispatchProgressGuard ro env).run k = (false, k.touchAll asked)) := by
  obtain ⟨found, asked, run, inside, backlog⟩ := dsqBacklogExists_run ro k
  refine ⟨asked, inside, ?_⟩
  simp only [dispatchProgressGuard, run_then, run, ↓run_ite, run_getThe]
  cases found with
  | false =>
    refine .inr ⟨fun due => ?_, rfl⟩
    exact Bool.noConfusion (backlog.mpr due.1)
  | true =>
    by_cases late : timeDelta env.now k.lastDispatchAt ≥ dispatchProgressGuardNs
    · refine .inl ⟨⟨backlog.mp rfl, late⟩, ?_⟩
      simp only [if_true, Kernel.touchAll_lastDispatchAt, if_pos late]
      rfl
    · refine .inr ⟨fun due => late due.2, ?_⟩
      simp only [if_true, Kernel.touchAll_lastDispatchAt, if_neg late]
      rfl

/-- What a tick can do besides the exit of the guard. -/
inductive TickStep (n : Nat) (k : Kernel) : Kernel → Prop
  | disarm : TickStep n k { k with timerArmed := false }
  | touch (q : Nat) : q ∈ taskDsqs ro n → TickStep n k (k.touch q)
  | exit (reason : ScxExit) : TickStep n k { k with exits := k.exits ++ [reason] }
  | need : TickStep n k { k with userschedNeeded := true }
  | kick (cpu : Int) : TickStep n k (k.kick cpu)
  | arm : TickStep n k { k with timerArmed := true }

theorem TickStep.unchanged {n : Nat} {k k' : Kernel} (step : TickStep ro n k k') :
    Unchanged k k' ∧ k'.lastDispatchAt = k.lastDispatchAt := by
  cases step with
  | exit reason => exact ⟨.of_eq rfl rfl (List.prefix_append _ _) rfl rfl rfl, rfl⟩
  | _ => exact ⟨.of_eq rfl rfl List.prefix_rfl rfl rfl rfl, rfl⟩

section

variable {I : Kernel → Prop} {n : Nat} (ticks : ∀ s t, TickStep ro n s t → I s → I t)
  (cpus : ∀ s, I s → s.nrCpuIds = n)

include ticks

theorem touchAll_ticks {qs : List Nat} (known : qs ⊆ taskDsqs ro n) {s : Kernel} (start : I s) :
    I (s.touchAll qs) := by
  induction qs generalizing s with
  | nil => exact s.touchAll_nil.symm ▸ start
  | cons q qs ih =>
    obtain ⟨first, rest⟩ := List.cons_subset.mp known
    rw [Kernel.touchAll_cons]
    exact ih rest (ticks s _ (.touch q first) start)

theorem wakeUsersched_ticks : Keeps I (wakeUsersched ro env) := by
  apply Keeps.bind Keeps.get
  intro s
  split
  · split
    · exact Keeps.bind (Keeps.update fun s => ticks s _ .need) fun _ =>
        Keeps.bind Keeps.get fun t => Keeps.update fun s => ticks s _ (.kick _)
    · exact Keeps.pure _
  · exact Keeps.pure _

theorem rearm_ticks : Keeps I (rearm env) := by
  intro s start
  by_cases starts : env.timerStart = 0
  · have run : ((rearm env).run s).2 = { s with timerArmed := true } := by
      simp [rearm, bpfTimerStart, starts]
    exact run ▸ ticks s _ .arm start
  · have run : ((rearm env).run s).2 = { s with exits := s.exits ++ [.armStatsTimer] } := by
      simp [rearm, bpfTimerStart, starts, scxBpfError]
    exact run ▸ ticks s _ (.exit _) start

include cpus

theorem userschedTimerFn_ticks : Keeps I (userschedTimerFn ro env) := by
  refine Keeps.bind (Keeps.update fun s => ticks s _ .disarm) fun _ => ?_
  refine Keeps.bind ?_ fun fired => ?_
  · intro s start
    obtain ⟨asked, known, guard⟩ := dispatchProgressGuard_run ro env s
    have touched := touchAll_ticks ro ticks (cpus s start ▸ known) start
    rcases guard with ⟨_, run⟩ | ⟨_, run⟩
    · rw [run]
      exact ticks _ _ (.exit _) touched
    · rw [run]
      exact touched
  · split
    · exact Keeps.pure _
    split
    · exact Keeps.bind (wakeUsersched_ticks ro env ticks) fun _ => rearm_ticks ro env ticks
    · exact rearm_ticks ro env ticks

end

theorem userschedTimerFn_unchanged (k : Kernel) :
    Unchanged k ((userschedTimerFn ro env).run k).2 ∧
      ((userschedTimerFn ro env).run k).2.lastDispatchAt = k.lastDispatchAt :=
  userschedTimerFn_ticks ro env (I := fun s => Unchanged k s ∧ s.lastDispatchAt = k.lastDispatchAt)
    (n := k.nrCpuIds)
    (fun _ _ step before => ⟨before.1.trans (step.unchanged ro).1,
      (step.unchanged ro).2.trans before.2⟩)
    (fun _ before => before.1.nrCpuIds) k ⟨.refl k, rfl⟩

/-- A tick that does not request the exit arms the timer again. -/
theorem userschedTimerFn_armed {k : Kernel} (starts : env.timerStart = 0)
    (early : ¬ GuardDue ro env k) : ((userschedTimerFn ro env).run k).2.timerArmed = true := by
  have armed : ∀ s, ((rearm env).run s).2.timerArmed = true := by
    simp [rearm, bpfTimerStart, starts]
  obtain ⟨asked, _, ⟨due, _⟩ | ⟨_, run⟩⟩ :=
    dispatchProgressGuard_run ro env { k with timerArmed := false }
  · exact absurd due early
  · simp only [userschedTimerFn, run_then, run_modifyState, run, Bool.false_eq_true, if_false]
    split
    · exact armed _
    · exact armed _

theorem userschedTimerFn_guard {k : Kernel} (due : GuardDue ro env k) :
    ((userschedTimerFn ro env).run k).2.exits =
      k.exits ++ [.dispatchProgress (timeDelta env.now k.lastDispatchAt)] := by
  obtain ⟨asked, _, ⟨_, run⟩ | ⟨early, _⟩⟩ :=
    dispatchProgressGuard_run ro env { k with timerArmed := false }
  · simp only [userschedTimerFn, run_then, run_modifyState, run, if_true, run_done]
  · exact absurd due early

end

end Cognis.Bpf
