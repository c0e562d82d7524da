import Cognis.Control.RunLoop

/-! How often the periodic work of the loop is done: at most once in its period, and late by
no more than the gate before it and one round of the loop. -/
namespace Cognis.Control
open Runs RateLimit Reputation

structure Gates where
  housekeeping : Gate
  trustTick : Gate
  sliceTick : Gate
  trustFlush : Gate
  tuiRender : Gate
  tuiHist : Gate
  tui : Bool

namespace Gates

def background (instants : Nat → Nat) (g : Gates) : Gates :=
  let behind := g.housekeeping.pollBehind
  { g with
    housekeeping := g.housekeeping.poll (50 * msec) (instants 0) (instants 1)
    trustTick := behind g.trustTick (50 * msec) (instants 0) (100 * msec) (instants 2) (instants 3)
    sliceTick := behind g.sliceTick (50 * msec) (instants 0) (50 * msec) (instants 4) (instants 5)
    trustFlush :=
      behind g.trustFlush (50 * msec) (instants 0) nsecPerSec (instants 6) (instants 7) }

def driveTui (instants : Nat → Nat) (g : Gates) : Gates :=
  if g.tui then
    { g with
      tuiRender := g.tuiRender.poll (100 * msec) (instants 8) (instants 9)
      tuiHist := g.tuiRender.pollBehind g.tuiHist (100 * msec) (instants 8) (500 * msec)
        (instants 10) (instants 11) }
  else g

/-- One iteration as the gates see it. -/
def advance (instants : Nat → Nat) (g : Gates) : Gates := (g.background instants).driveTui instants

end Gates

namespace Userspace

variable {F G : Type} {setup : Setup F G}

def gates (u : Userspace G) : Gates where
  housekeeping := u.lastHousekeeping
  trustTick := u.lastTrustTick
  sliceTick := u.lastSliceTick
  trustFlush := u.lastTrustFlush
  tuiRender := u.lastTuiRender
  tuiHist := u.lastTuiHist
  tui := u.tui

theorem drainQueuedTasks_gates (nrOnlineCpus : Nat) (times : Nat → Nat × Nat) (left : Nat)
    (u : Userspace G) : (u.drainQueuedTasks setup nrOnlineCpus times left).gates = u.gates := by
  induction left generalizing u with
  | zero => rfl
  | succ left ih =>
    rw [drainQueuedTasks]
    split
    · rfl
    split
    · rw [ih]
      rfl
    · rfl

theorem drainExitedTasks_gates (left : Nat) (u : Userspace G) :
    (u.drainExitedTasks setup left).gates = u.gates := by
  induction left generalizing u with
  | zero => rfl
  | succ left ih =>
    rw [drainExitedTasks]
    split
    · split
      · rw [ih]
        rfl
      · rw [ih]
        rfl
    · rfl

theorem schedule_gates (a : Answers) (u : Userspace G) : (u.schedule setup a).gates = u.gates :=
  drainQueuedTasks_gates a.nrOnlineCpus a.times _ u

variable (setup) in
theorem tickSliceController_gates (a : Answers) (u : Userspace G) :
    (u.tickSliceController setup a).gates =
      { u.gates with
        sliceTick := u.lastSliceTick.poll (50 * msec) (a.instants 4) (a.instants 5) } := by
  rw [tickSliceController]
  by_cases due : u.lastSliceTick.due (50 * msec) (a.instants 4) = true
  · rw [if_pos due, Gate.poll_due due]
    rfl
  · rw [if_neg due, Gate.poll_early (Bool.eq_false_iff.mpr due)]
    rfl

theorem housekeeping_gates (a : Answers) (u : Userspace G) :
    (u.housekeeping setup a).gates =
      { u.gates with
        trustTick := u.lastTrustTick.poll (100 * msec) (a.instants 2) (a.instants 3)
        sliceTick := u.lastSliceTick.poll (50 * msec) (a.instants 4) (a.instants 5)
        trustFlush := u.lastTrustFlush.poll nsecPerSec (a.instants 6) (a.instants 7) } := by
  have ticked := tickSliceController_gates setup a (u.tickTrust a)
  have flush : ∀ v : Userspace G, (v.flushTrustUpdates setup a).gates =
      { v.gates with
        trustFlush := v.gates.trustFlush.poll nsecPerSec (a.instants 6) (a.instants 7) } :=
    fun _ => rfl
  rw [housekeeping, flush, ticked]
  rfl

theorem background_gates (a : Answers) (u : Userspace G) :
    (u.background setup a).gates = u.gates.background a.instants := by
  rw [background]
  by_cases due : u.lastHousekeeping.due (50 * msec) (a.instants 0) = true
  · rw [if_pos due, housekeeping_gates]
    simp only [gates, Gates.background, Gate.poll_due due, Gate.pollBehind_due due]
  · have early := Bool.eq_false_iff.mpr due
    rw [if_neg due]
    simp only [gates, Gates.background, Gate.poll_early early, Gate.pollBehind_early early]

theorem driveTui_gates (a : Answers) (u : Userspace G) :
    (if u.tui then u.driveTui a else u).gates = u.gates.driveTui a.instants := by
  by_cases tui : u.tui = true
  · rw [if_pos tui, driveTui]
    by_cases due : u.lastTuiRender.due (100 * msec) (a.instants 8) = true
    · rw [if_pos due]
      simp only [gates, Gates.driveTui, tickTui, tui, if_true, Gate.poll_due due,
        Gate.pollBehind_due due]
    · have early := Bool.eq_false_iff.mpr due
      rw [if_neg due]
      simp only [gates, Gates.driveTui, tui, if_true, Gate.poll_early early,
        Gate.pollBehind_early early]
  · rw [if_neg tui]
    simp only [gates, Gates.driveTui, Bool.eq_false_iff.mpr tui, Bool.false_eq_true, if_false]

/-- The gates are a machine of their own, which the rest of the iteration cannot disturb. -/
theorem iterate_gates (a : Answers) (u : Userspace G) :
    (u.iterate setup a).gates = u.gates.advance a.instants := by
  have worked : (if u.hasUserspaceWork then u.schedule setup a else u).gates = u.gates := by
    split
    · exact schedule_gates a u
    · rfl
  rw [iterate, driveTui_gates, background_gates, drainExitedTasks_gates, worked, Gates.advance]

end Userspace

/-- No work is done twice within its period. -/
structure Gates.Paced (g : Gates) : Prop where
  housekeeping : g.housekeeping.Spaced (50 * msec)
  trustTick : g.trustTick.Spaced (100 * msec)
  sliceTick : g.sliceTick.Spaced (50 * msec)
  trustFlush : g.trustFlush.Spaced nsecPerSec
  tuiRender : g.tuiRender.Spaced (100 * msec)
  tuiHist : g.tuiHist.Spaced (500 * msec)

/-- How old the outer work can be in a loop whose rounds take at most `round`, and that no
inner work is older than its period when the outer work is done. -/
structure Gates.Prompt (started clock round : Nat) (g : Gates) : Prop where
  housekeeping : clock < max (g.housekeeping.last + 50 * msec) (started + 1) + round
  trustTick : Gate.Follows g.housekeeping g.trustTick (100 * msec) started
  sliceTick : Gate.Follows g.housekeeping g.sliceTick (50 * msec) started
  trustFlush : Gate.Follows g.housekeeping g.trustFlush nsecPerSec started
  tuiRender : g.tui = true → clock < max (g.tuiRender.last + 100 * msec) (started + 1) + round
  tuiHist : Gate.Follows g.tuiRender g.tuiHist (500 * msec) started

section

variable {instants : Nat → Nat} {g : Gates} {started clock round : Nat}

theorem Gates.Paced.advance (paced : g.Paced) (forward : Monotone instants) :
    (g.advance instants).Paced := by
  have order (i : Nat) : instants i ≤ instants (i + 1) := forward (Nat.le_succ i)
  have after : (g.background instants).Paced := { paced with
    housekeeping := paced.housekeeping.poll (by decide) (order 0)
    trustTick := paced.trustTick.pollBehind _ _ _ (by decide) (order 2)
    sliceTick := paced.sliceTick.pollBehind _ _ _ (by decide) (order 4)
    trustFlush := paced.trustFlush.pollBehind _ _ _ (by decide) (order 6) }
  rw [Gates.advance, Gates.driveTui]
  split
  · exact { after with
      tuiRender := after.tuiRender.poll (by decide) (order 8)
      tuiHist := after.tuiHist.pollBehind _ _ _ (by decide) (order 10) }
  · exact after

theorem Gates.Prompt.advance (prompt : g.Prompt started clock round)
    (begin_ : clock ≤ instants 0) (forward : Monotone instants)
    (short : instants 11 ≤ clock + round) :
    (g.advance instants).Prompt started (instants 11) round := by
  have order (i : Nat) : instants i ≤ instants (i + 1) := forward (Nat.le_succ i)
  have age (h : Gate) {period : Nat} (positive : 0 < period) (i : Nat) :
      instants 11 < max ((h.poll period (instants i) (instants (i + 1))).last + period)
        (started + 1) + round := by
    have recent := h.poll_age positive (order i) (begin_.trans (forward (Nat.zero_le i))) short
    exact recent.trans_le (Nat.add_le_add_right (le_max_left _ _) round)
  have inner : Gate.Follows (g.background instants).housekeeping _ (100 * msec) started ∧
      Gate.Follows (g.background instants).housekeeping _ (50 * msec) started ∧
      Gate.Follows (g.background instants).housekeeping _ nsecPerSec started :=
    ⟨prompt.trustTick.pollBehind (by decide) (order 1) (order 2),
      prompt.sliceTick.pollBehind (by decide) (forward (by decide : 1 ≤ 4)) (order 4),
      prompt.trustFlush.pollBehind (by decide) (forward (by decide : 1 ≤ 6)) (order 6)⟩
  rw [Gates.advance, Gates.driveTui]
  split
  · refine ⟨age g.housekeeping (by decide) 0, inner.1, inner.2.1, inner.2.2, fun _ => ?_, ?_⟩
    · exact age g.tuiRender (by decide) 8
    · exact prompt.tuiHist.pollBehind (by decide) (order 9) (order 10)
  · rename_i without
    exact ⟨age g.housekeeping (by decide) 0, inner.1, inner.2.1, inner.2.2,
      fun tui => absurd tui without, prompt.tuiHist⟩

end

section

variable {F G : Type} {setup : Setup F G} {profile : Loader.BpfProfile} {tui : Bool}
  {created started : Nat} {es : List LoopEvent} {l : Loop G}

/-- In every run of the loop each piece of periodic work is done at most once in its period:
housekeeping and the slice update every 50 ms, the trust tick and the dashboard every
100 ms, its history every 500 ms, the flush of the trust updates every second. -/
theorem periodic_work_paced
    (run : Run (LoopStep setup) (.init setup.floats profile tui created started) es l) :
    l.user.gates.Paced := by
  refine run.keeps (I := fun l => l.user.gates.Paced) (P := fun _ => True)
    (fun l _ l' _ step paced => ?_) (fun _ _ => trivial) ?_
  · cases step with
    | publish data => exact paced
    | exit data => exact paced
    | count nrQueued => exact paced
    | iterate a _ _ forward =>
      change (l.user.iterate setup a).gates.Paced
      rw [Userspace.iterate_gates]
      exact paced.advance forward
  · exact ⟨Gate.start_spaced _ _, Gate.start_spaced _ _, Gate.start_spaced _ _,
      Gate.start_spaced _ _, Gate.start_spaced _ _, Gate.start_spaced _ _⟩

theorem first_round_paced :
    ∃ l, Run (LoopStep Setup.rational)
        (.init Setup.rational.floats (.fromOpts ⟨0, 0, .desktop⟩) true 0 (20 * msec))
        [.iterate (.quiet (80 * msec))] l ∧ l.user.gates.Paced := by
  have run : Run (LoopStep Setup.rational)
      (.init Setup.rational.floats (.fromOpts ⟨0, 0, .desktop⟩) true 0 (20 * msec))
      [.iterate (.quiet (80 * msec))] _ :=
    .single (.iterate _ rfl (by decide) (Answers.quiet_forward _))
  exact ⟨_, run, periodic_work_paced run⟩

/-- No round of the loop takes longer than `round`. -/
def LoopEvent.Within (round : Nat) (l : Loop G) : LoopEvent → Prop
  | .iterate a => a.instants 11 ≤ l.clock + round
  | _ => True

theorem run_prompt {round : Nat} (order : created ≤ started)
    (run : Run (fun l e l' => LoopStep setup l e l' ∧ e.Within round l)
      (.init setup.floats profile tui created started) es l) :
    l.user.gates.Prompt started l.clock round := by
  refine run.keeps (I := fun l => l.user.gates.Prompt started l.clock round)
    (P := fun _ => True) (fun l _ l' _ step prompt => ?_) (fun _ _ => trivial) ?_
  · obtain ⟨step, within⟩ := step
    cases step with
    | publish data => exact prompt
    | exit data => exact prompt
    | count nrQueued => exact prompt
    | iterate a _ begin_ forward =>
      change (l.user.iterate setup a).gates.Prompt started (a.instants 11) round
      rw [Userspace.iterate_gates]
      exact prompt.advance begin_ forward within
  · have fresh (n : Nat) : started < max n (started + 1) + round := by omega
    exact ⟨fresh _, .inr le_rfl, .inr le_rfl, .inr le_rfl, fun _ => fresh _, .inr order⟩

/-- Periodic work is late by no more than the 50 ms gate in front of it and one round of the
loop: the slice update, asked for every 50 ms, can come 100 ms and a round apart. -/
theorem periodic_work_on_time {round : Nat} (order : created ≤ started)
    (run : Run (fun l e l' => LoopStep setup l e l' ∧ e.Within round l)
      (.init setup.floats profile tui created started) es l) :
    let g := l.user.gates
    l.clock < max (g.trustTick.last + 100 * msec) (started + 1) + 50 * msec + round ∧
      l.clock < max (g.sliceTick.last + 50 * msec) (started + 1) + 50 * msec + round ∧
      l.clock < max (g.trustFlush.last + nsecPerSec) (started + 1) + 50 * msec + round ∧
      (g.tui = true →
        l.clock < max (g.tuiRender.last + 100 * msec) (started + 1) + round ∧
          l.clock < max (g.tuiHist.last + 500 * msec) (started + 1) + 100 * msec + round) := by
  have prompt := run_prompt order run
  have outer := prompt.housekeeping
  refine ⟨prompt.trustTick.age outer, prompt.sliceTick.age outer, prompt.trustFlush.age outer, ?_⟩
  intro tui
  exact ⟨prompt.tuiRender tui, prompt.tuiHist.age (prompt.tuiRender tui)⟩

theorem first_round_on_time :
    ∃ l, Run (fun l e l' => LoopStep Setup.rational l e l' ∧ e.Within (70 * msec) l)
        (.init Setup.rational.floats (.fromOpts ⟨0, 0, .desktop⟩) true 0 (20 * msec))
        [.iterate (.quiet (80 * msec))] l ∧
      l.clock < max (l.user.gates.sliceTick.last + 50 * msec) (20 * msec + 1) + 50 * msec +
        70 * msec := by
  have run : Run (fun l e l' => LoopStep Setup.rational l e l' ∧ e.Within (70 * msec) l)
      (.init Setup.rational.floats (.fromOpts ⟨0, 0, .desktop⟩) true 0 (20 * msec))
      [.iterate (.quiet (80 * msec))] _ :=
    .single ⟨.iterate _ rfl (by decide) (Answers.quiet_forward _), by
      change 80 * msec + 11 ≤ 20 * msec + 70 * msec
      decide⟩
  exact ⟨_, run, (periodic_work_on_time (by decide) run).2.1⟩

end

end Cognis.Control
