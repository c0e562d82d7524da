import Cognis.Bpf.System

/-! Whether the dispatch-progress guard is alive: in every reachable state a tick is
due, and a tick that finds an old backlog asks the kernel to unload the program. -/
namespace Cognis.Bpf
open Runs

/-- The kernel's clock is a signed 64-bit number of nanoseconds. -/
def ClockOk (env : Env) : Prop := env.now.toNat < 2 ^ 63

def dispatchTimes (ls : List Label) : List U64 := ls.filterMap fun
  | .call (.dispatch _ _) env => some env.now
  | _ => none

/-- The kernel grants every timer request and tells the time. -/
def Label.Granted : Label → Prop
  | .call _ env => env.timerStart = 0 ∧ ClockOk env
  | .world => True

/-- Some tick has asked the kernel to unload the program. -/
def GuardFired (k : Kernel) : Prop := ∃ delta, .dispatchProgress delta ∈ k.exits

/-- In every reachable state a tick is due until the guard fires, and the next tick
fires it when a backlog remained and no dispatch ran for the guard's time. -/
def GuardLive (ro : Rodata) : Prop :=
  ∀ boot task k₀ ls k, Booted ro boot task k₀ → ClockOk boot → boot.timerStart = 0 →
    (∀ l ∈ ls, l.Granted) → SystemRun ro k₀ ls k → ¬ GuardFired k →
      k.timerArmed = true ∧
        ∀ env, ClockOk env → Backlog ro k.queues →
          (∀ t ∈ boot.now :: dispatchTimes ls, t.toNat + 4000000000 ≤ env.now.toNat) →
          GuardFired (Callback.timer.exec ro env k)

theorem timeDelta_toNat {after before : U64} (order : before.toNat ≤ after.toNat)
    (bound : after.toNat < 2 ^ 63) :
    (timeDelta after before).toNat = after.toNat - before.toNat := by
  have difference : (after - before).toNat = after.toNat - before.toNat := by
    rw [BitVec.toNat_sub]
    omega
  have small : (after - before).toNat < 2 ^ 63 := by omega
  have signed : (after - before).toInt = (after - before).toNat :=
    BitVec.toInt_eq_toNat_of_lt (by omega)
  unfold timeDelta
  split
  · exact difference
  · rename_i negative
    rw [BitVec.slt_eq_decide, decide_eq_true_eq, signed] at negative
    have none : (0 : U64).toInt = 0 := rfl
    have zero : (0 : U64).toNat = 0 := rfl
    omega

section

variable {ro : Rodata}

theorem GuardFired.mono {k k' : Kernel} (fired : GuardFired k) (steady : Steady k k') :
    GuardFired k' := by
  obtain ⟨delta, asked⟩ := fired
  exact ⟨delta, steady.exits.subset asked⟩

theorem guardFired_of_due {env : Env} {k : Kernel} (due : GuardDue ro env k) :
    GuardFired (Callback.timer.exec ro env k) := by
  refine ⟨timeDelta env.now k.lastDispatchAt, ?_⟩
  simp only [Callback.exec, userschedTimerFn_guard ro env due]
  exact List.mem_append_right _ List.mem_cons_self

theorem step_armed {k k' : Kernel} {l : Label} (granted : l.Granted) (step : Step ro k l k')
    (before : GuardFired k ∨ k.timerArmed = true) : GuardFired k' ∨ k'.timerArmed = true := by
  rcases before with fired | armed
  · exact .inl (fired.mono step.steady)
  cases step with
  | world h =>
    cases h
    exact .inr armed
  | call c env _ =>
    by_cases tick : c = .timer
    · subst tick
      by_cases due : GuardDue ro env k
      · exact .inl (guardFired_of_due due)
      · exact .inr (userschedTimerFn_armed ro env granted.1 due)
    · exact .inr ((exec_timerArmed k tick).trans armed)

theorem run_armed {k k' : Kernel} {ls : List Label} (granted : ∀ l ∈ ls, l.Granted)
    (run : SystemRun ro k ls k') (armed : k.timerArmed = true) :
    GuardFired k' ∨ k'.timerArmed = true :=
  run.keeps (fun _ _ _ granted step => step_armed granted step) granted (.inr armed)

/-- The time stamp is that of a dispatch of the run, or the one it started with. -/
theorem run_lastDispatchAt {k k' : Kernel} {ls : List Label} (run : SystemRun ro k ls k') :
    k'.lastDispatchAt ∈ k.lastDispatchAt :: dispatchTimes ls := by
  induction run with
  | nil _ => exact List.mem_cons_self
  | cons step _ ih =>
    cases step with
    | world h =>
      cases h
      exact ih
    | call c env _ =>
      rcases exec_lastDispatchAt c _ with same | ⟨⟨cpu, prev, rfl⟩, now⟩
      · rw [same] at ih
        cases c with
        | dispatch cpu prev =>
          exact (List.mem_cons.mp ih).elim (fun old => old ▸ List.mem_cons_self) fun later =>
            List.mem_cons_of_mem _ (List.mem_cons_of_mem _ later)
        | _ => exact ih
      · rw [now] at ih
        exact List.mem_cons_of_mem _ ih

/-- With every time stamp old enough a backlog makes the guard due. -/
theorem guardDue_of_quiet {env : Env} {k : Kernel} (clock : ClockOk env)
    (backlog : Backlog ro k.queues)
    (quiet : k.lastDispatchAt.toNat + 4000000000 ≤ env.now.toNat) : GuardDue ro env k := by
  have order : k.lastDispatchAt.toNat ≤ env.now.toNat := by omega
  have elapsed := timeDelta_toNat order clock
  have guard : dispatchProgressGuardNs.toNat = 4000000000 := by decide
  exact ⟨backlog, BitVec.le_def.mpr (by omega)⟩

theorem not_guardLive (off : ro.userschedEnabled = false) : ¬ GuardLive ro := by
  intro live
  have booted := booted_busy ro fun _ => .waiting (fun _ => true) 0
  have start := live _ _ _ [] _ booted (show (0 : U64).toNat < 2 ^ 63 by decide) rfl
    (fun _ member => nomatch member) (.nil _)
  have armed := (start fun ⟨_, asked⟩ => nomatch asked).1
  simp [Kernel.initialized, Kernel.boot, off] at armed

/-- The guard is alive exactly when the fallback is enabled: nothing else arms it. -/
theorem guardLive_iff (ro : Rodata) : GuardLive ro ↔ ro.userschedEnabled = true := by
  constructor
  · intro live
    by_contra off
    exact not_guardLive (Bool.eq_false_iff.mpr off) live
  · intro enabled boot task k₀ ls k booted _ _ granted run unfired
    have first := booted_run booted
    have armed : k₀.timerArmed = true := by simp [first, Kernel.initialized, enabled]
    refine ⟨(run_armed granted run armed).resolve_left unfired, fun env clock backlog quiet => ?_⟩
    have stamp : k₀.lastDispatchAt = boot.now := by rw [first]; rfl
    have last := stamp ▸ run_lastDispatchAt run
    exact guardFired_of_due (guardDue_of_quiet clock backlog (quiet _ last))

theorem kernelOnly_guard_dead : ¬ GuardLive (Rodata.kernelOnly .flat) := not_guardLive rfl

end

end Cognis.Bpf
