import Cognis.Control.Main

/-! Restarts under a storm of panics, each within the window of the one before. The count
of failures is a local of `main`, so a successful `exec` forgets it. -/
namespace Cognis.Control
open Runs

section

variable (times : Nat → Nat) (execs : Nat → Bool)

def round (i : Nat) : List Event :=
  [.check, .init, .finish (.panic (times i)), .wake, .exec (execs i)]

def rounds : Nat → List Event
  | 0 => []
  | n + 1 => rounds n ++ round times execs n

/-- After `n` restarts the next panic makes `main` report the permanent failure. -/
def ReportsAfter (n : Nat) : Prop :=
  ∃ m, MainRun .start (rounds times execs n ++ [.check, .init, .finish (.panic (times n))]) m ∧
    m.phase = .exited .permanentFailure

/-- No more restarts than the limit are made before the report. -/
def RestartsBounded : Prop := ∃ n ≤ rapidFailureLimit, ReportsAfter times execs n

/-- Each panic comes within the window of the one before. -/
def Storm : Prop := ∀ i, times (i + 1) ≤ times i + rapidFailureWindow

def localsAfter : Nat → Locals
  | 0 => {}
  | n + 1 => if execs n then {} else (localsAfter n).fail (times n)

/-- Restarts since the last successful `exec`. -/
def streak : Nat → Nat
  | 0 => 0
  | n + 1 => if execs n then 0 else streak n + 1

end

section

variable {times : Nat → Nat} {execs : Nat → Bool}

theorem streak_le (execs : Nat → Bool) (n : Nat) : streak execs n ≤ n := by
  induction n with
  | zero => exact Nat.le_refl 0
  | succ n ih =>
    rw [streak]
    split
    · exact Nat.zero_le _
    · omega

/-- The streak is full exactly when no `exec` has succeeded. -/
theorem streak_eq_iff (n : Nat) : streak execs n = n ↔ ∀ i < n, execs i = false := by
  induction n with
  | zero => simp [streak]
  | succ n ih =>
    cases last : execs n with
    | true =>
      refine ⟨fun full => by simp [streak, last] at full, fun failed => ?_⟩
      exact nomatch last.symm.trans (failed n (Nat.lt_succ_self n))
    | false =>
      have shorter : streak execs (n + 1) = streak execs n + 1 := by simp [streak, last]
      rw [shorter, Nat.add_right_cancel_iff, ih]
      constructor
      · intro failed i below
        by_cases same : i = n
        · exact same ▸ last
        · exact failed i (by omega)
      · exact fun failed i below => failed i (by omega)

/-- The locals count the streak and remember its latest panic. -/
structure Counts (times : Nat → Nat) (execs : Nat → Bool) (n : Nat) (l : Locals) : Prop where
  count : l.rapidFailures = streak execs n
  last : streak execs n = 0 ∧ l.lastFailureAt = none ∨
    ∃ i, n = i + 1 ∧ l.lastFailureAt = some (times i)

theorem Counts.fail (storm : Storm times) {n : Nat} {l : Locals} (counts : Counts times execs n l)
    (below : n ≤ rapidFailureLimit) : (l.fail (times n)).rapidFailures = streak execs n + 1 := by
  have small : streak execs n + 1 ≤ u32Max := by
    have bound := streak_le execs n
    simp only [rapidFailureLimit] at below
    simp only [u32Max]
    omega
  rcases counts.last with ⟨zero, none⟩ | ⟨i, rfl, latest⟩
  · simp [Locals.fail, none, zero]
  · have inside : times (i + 1) - times i ≤ rapidFailureWindow :=
      Nat.sub_le_iff_le_add'.mpr (storm i)
    simp only [Locals.fail, latest, Option.any_some, decide_eq_true inside, if_true, counts.count]
    exact Nat.min_eq_left small

theorem localsAfter_counts (execs : Nat → Bool) (storm : Storm times) {n : Nat}
    (below : n ≤ rapidFailureLimit) :
    Counts times execs n (localsAfter times execs n) := by
  induction n with
  | zero => exact ⟨rfl, .inl ⟨rfl, rfl⟩⟩
  | succ n ih =>
    have before := ih (Nat.le_of_succ_le below)
    simp only [localsAfter]
    cases replaced : execs n with
    | true => exact ⟨by simp [streak, replaced], .inl ⟨by simp [streak, replaced], rfl⟩⟩
    | false =>
      refine ⟨?_, .inr ⟨n, rfl, rfl⟩⟩
      simp only [Bool.false_eq_true, if_false, streak, replaced]
      exact before.fail storm (Nat.le_of_succ_le below)

theorem instance_run (l : Locals) (now : Nat) :
    MainRun ⟨.loopHead, false, l⟩ [.check, .init, .finish (.panic now)]
      (Main.finish ⟨.running, false, l⟩ (.panic now)) :=
  .cons rfl (.cons rfl (.single rfl))

theorem rounds_run (execs : Nat → Bool) (storm : Storm times) {n : Nat}
    (below : n ≤ rapidFailureLimit) :
    MainRun .start (rounds times execs n) ⟨.loopHead, false, localsAfter times execs n⟩ := by
  induction n with
  | zero => exact .nil _
  | succ n ih =>
    have earlier := Nat.le_of_succ_le below
    have count := (localsAfter_counts execs storm earlier).fail storm earlier
    have again : Main.finish ⟨.running, false, localsAfter times execs n⟩ (.panic (times n)) =
        ⟨.backoff, false, (localsAfter times execs n).fail (times n)⟩ := by
      have bound := streak_le execs n
      simp only [Main.finish, count]
      exact if_neg (by omega)
    have panics := instance_run (localsAfter times execs n) (times n)
    rw [again] at panics
    refine (ih earlier).append (panics.append (.cons rfl (.single ?_)))
    cases replaced : execs n <;> simp [Main.step, localsAfter, replaced, Main.start]

/-- Whether the panic after `n` restarts is reported depends on the streak alone. -/
theorem reportsAfter_iff (storm : Storm times) {n : Nat} (below : n ≤ rapidFailureLimit) :
    ReportsAfter times execs n ↔ rapidFailureLimit ≤ streak execs n := by
  have run := (rounds_run execs storm below).append
    (instance_run (localsAfter times execs n) (times n))
  have count := (localsAfter_counts execs storm below).fail storm below
  constructor
  · rintro ⟨m, other, reported⟩
    have same := run.unique (fun _ _ _ _ now now' => Option.some.inj (now.symm.trans now')) other
    rw [← same] at reported
    apply Nat.not_lt.mp
    intro short
    simp only [Main.finish, count] at reported
    rw [if_neg (by omega)] at reported
    cases reported
  · intro full
    refine ⟨_, run, ?_⟩
    simp only [Main.finish, count]
    rw [if_pos (by omega)]

/-- In a storm of panics the restarts are bounded exactly when none of the first 20 calls
of `exec` succeeds. -/
theorem restarts_bounded_iff (times : Nat → Nat) (execs : Nat → Bool) (storm : Storm times) :
    RestartsBounded times execs ↔ ∀ i < rapidFailureLimit, execs i = false := by
  constructor
  · rintro ⟨n, below, reports⟩
    have full := (reportsAfter_iff storm below).mp reports
    have short := streak_le execs n
    have last : n = rapidFailureLimit := by omega
    subst last
    exact (streak_eq_iff _).mp (Nat.le_antisymm short full)
  · intro failed
    refine ⟨rapidFailureLimit, Nat.le_refl _, (reportsAfter_iff storm (Nat.le_refl _)).mpr ?_⟩
    exact Nat.le_of_eq ((streak_eq_iff _).mpr failed).symm

/-- Where every `exec` fails the loop ends after 20 restarts. -/
theorem restarts_bounded_no_exec : RestartsBounded (fun _ => 0) (fun _ => false) :=
  (restarts_bounded_iff (fun _ => 0) (fun _ => false) fun _ => Nat.zero_le _).mpr fun _ _ => rfl

/-- With an `exec` that succeeds the count starts again at every restart. -/
theorem restarts_unbounded :
    (∀ n, MainRun .start (rounds (fun _ => 0) (fun _ => true) n) .start) ∧
      ¬ RestartsBounded (fun _ => 0) (fun _ => true) := by
  have again : MainRun .start (round (fun _ => 0) (fun _ => true) 0) .start :=
    .cons rfl (.cons rfl (.cons rfl (.cons rfl (.single rfl))))
  constructor
  · intro n
    induction n with
    | zero => exact .nil _
    | succ n ih => exact ih.append again
  · rintro ⟨n, below, reports⟩
    have full := (reportsAfter_iff (fun _ => Nat.zero_le _) below).mp reports
    have none : streak (fun _ => true) n = 0 := by cases n <;> rfl
    rw [none] at full
    exact absurd full (by decide)

end

end Cognis.Control
