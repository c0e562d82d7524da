import Cognis.Control.Main

/-! Whether a stop request survives until `main` ends: after the signal no instance is
started, unless the request falls between the flag check and the start it admits, or the
process is replaced. -/
namespace Cognis.Control
open Runs

/-- The signal in `m` is seen: `main` is not past the flag check of a new instance, and
no later `exec` succeeds. -/
def StopSeen (m : Main) (later : List Event) : Prop :=
  m.phase ≠ .starting ∧ .exec true ∉ later

theorem step_stopped {m m' : Main} {e : Event} (step : m.step e = some m')
    (other : e ≠ .exec true) (flag : m.shutdown = true) (before : m.phase ≠ .starting) :
    e ≠ .init ∧ m'.shutdown = true ∧ m'.phase ≠ .starting := by
  cases stepped_of_step step with
  | signal _ => exact ⟨nofun, rfl, before⟩
  | leave _ _ => exact ⟨nofun, flag, nofun⟩
  | enter _ clear => exact absurd flag (by simp [clear])
  | init here => exact absurd here before
  | finish _ outcome =>
    obtain ⟨same, elsewhere⟩ := finish_keeps m outcome
    exact ⟨nofun, same.trans flag, elsewhere⟩
  | wake _ => exact ⟨nofun, flag, nofun⟩
  | replaced _ => exact absurd rfl other
  | kept _ => exact ⟨nofun, flag, nofun⟩

theorem run_stopped {m m' : Main} {es : List Event} (run : MainRun m es m')
    (never : .exec true ∉ es) (flag : m.shutdown = true) (before : m.phase ≠ .starting) :
    .init ∉ es := by
  induction run with
  | nil _ => exact List.not_mem_nil
  | cons step _ ih =>
    obtain ⟨first, rest⟩ := not_or.mp (fun h => never (List.mem_cons.mpr h))
    obtain ⟨other, flag, before⟩ := step_stopped step (Ne.symm first) flag before
    intro member
    rcases List.mem_cons.mp member with now | later
    · exact other now.symm
    · exact ih rest flag before later

/-- A run that is past the check and reaches the end of `main` starts the instance. -/
theorem run_started {m m' : Main} {es : List Event} {how : Exit} (run : MainRun m es m')
    (quiet : .signal ∉ es) (here : m.phase = .starting) (ended : m'.phase = .exited how) :
    .init ∈ es := by
  cases run with
  | nil _ => exact nomatch here.symm.trans ended
  | cons step _ =>
    cases stepped_of_step step with
    | signal _ => exact absurd List.mem_cons_self quiet
    | init _ => exact List.mem_cons_self
    | leave there _ => exact nomatch here.symm.trans there
    | enter there _ => exact nomatch here.symm.trans there
    | finish there _ => exact nomatch here.symm.trans there
    | wake there => exact nomatch here.symm.trans there
    | replaced there => exact nomatch here.symm.trans there
    | kept there => exact nomatch here.symm.trans there

theorem run_fresh {m : Main} {es : List Event} {how : Exit} (run : MainRun .start es m)
    (quiet : .signal ∉ es) (ended : m.phase = .exited how) : .init ∈ es := by
  cases run with
  | nil _ => exact nomatch ended
  | cons step rest =>
    obtain ⟨first, later⟩ := not_or.mp (fun h => quiet (List.mem_cons.mpr h))
    cases stepped_of_step step with
    | signal _ => exact absurd rfl first
    | leave _ flag => exact nomatch flag
    | enter _ _ => exact List.mem_cons_of_mem _ (run_started rest later rfl ended)
    | init there => exact nomatch there
    | finish there _ => exact nomatch there
    | wake there => exact nomatch there
    | replaced there => exact nomatch there
    | kept there => exact nomatch there

/-- After the signal no instance is started when the request is seen; in a run that
reaches the end of `main`, only then. -/
theorem stop_kept {later : List Event} {m m' : Main} (rest : MainRun m (.signal :: later) m')
    (once : .signal ∉ later) :
    (StopSeen m later → .init ∉ later) ∧
      (∀ how, m'.phase = .exited how → (.init ∉ later ↔ StopSeen m later)) := by
  have seen : StopSeen m later → .init ∉ later := by
    rintro ⟨elsewhere, never⟩
    cases rest with
    | cons step rest =>
      cases stepped_of_step step
      exact run_stopped rest never rfl elsewhere
  refine ⟨seen, fun how ended => ⟨fun none => ⟨fun here => none ?_, fun replaced => none ?_⟩, seen⟩⟩
  · cases rest with
    | cons step rest =>
      cases stepped_of_step step
      exact run_started rest once here ended
  · cases rest with
    | cons step rest =>
      obtain ⟨xs, ys, rfl⟩ := List.append_of_mem replaced
      obtain ⟨t, _, renewed⟩ := run_append_iff.mp rest
      cases renewed with
      | cons now last =>
        cases stepped_of_step now
        refine List.mem_append_right _
          (List.mem_cons_of_mem _ (run_fresh last (fun late => ?_) ended))
        exact once (List.mem_append_right _ (List.mem_cons_of_mem _ late))

/-- The signal arrives while an instance runs; the instance returns and `main` ends. -/
theorem stop_kept_running :
    .init ∉ [Event.finish .restart, .check] := by
  have rest : MainRun ⟨.running, false, {}⟩ [.signal, .finish .restart, .check]
      ⟨.exited .ok, true, {}⟩ := .cons rfl (.cons rfl (.cons rfl (.nil _)))
  exact (stop_kept rest (by decide)).1 ⟨by decide, by decide⟩

/-- The signal arrives during the backoff and `exec` succeeds: the new process starts an
instance. -/
theorem stop_lost_over_exec :
    ∃ before later m m', MainRun .start before m ∧ MainRun m (.signal :: later) m' ∧
      .signal ∉ before ∧ .signal ∉ later ∧ m.phase = .backoff ∧ .init ∈ later := by
  refine ⟨[.check, .init, .finish (.panic 0)], [.wake, .exec true, .check, .init],
    ⟨.backoff, false, ⟨1, some 0⟩⟩, ⟨.running, false, {}⟩, ?_, ?_, by decide, by decide, rfl,
    by decide⟩
  · exact .cons rfl (.cons rfl (.cons rfl (.nil _)))
  · exact .cons rfl (.cons rfl (.cons rfl (.cons rfl (.cons rfl (.nil _)))))

end Cognis.Control
