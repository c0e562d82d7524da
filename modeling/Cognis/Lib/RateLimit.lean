import Mathlib.Data.List.Chain
import Mathlib.Tactic.Common

/-! Periodic work without a timer: a loop polls a gate, and the work is done when a period
has passed since the last time. -/
namespace RateLimit

/-- `passed` is a ghost: whenever the gate was set, the latest time first. -/
structure Gate where
  last : Nat
  passed : List Nat

namespace Gate

def start (now : Nat) : Gate := ⟨now, [now]⟩

def due (g : Gate) (period read : Nat) : Bool := decide (period ≤ read - g.last)

def set (g : Gate) (now : Nat) : Gate := ⟨now, now :: g.passed⟩

/-- The clock is read to see whether the work is due and again before it is done. -/
def poll (g : Gate) (period read reset : Nat) : Gate := if g.due period read then g.set reset else g

/-- A poll behind another gate: nothing is read before the outer one is passed. -/
def pollBehind (outer inner : Gate) (outerPeriod outerRead period read reset : Nat) : Gate :=
  if outer.due outerPeriod outerRead then inner.poll period read reset else inner

variable {g : Gate} {period read reset : Nat}

theorem due_iff (positive : 0 < period) : g.due period read = true ↔ g.last + period ≤ read := by
  rw [due, decide_eq_true_iff]
  omega

theorem poll_due (due : g.due period read = true) : g.poll period read reset = g.set reset :=
  if_pos due

theorem poll_early (early : g.due period read = false) : g.poll period read reset = g := by
  rw [poll, if_neg (Bool.eq_false_iff.mp early)]

theorem pollBehind_due {outer : Gate} {outerPeriod outerRead : Nat}
    (due : outer.due outerPeriod outerRead = true) :
    outer.pollBehind g outerPeriod outerRead period read reset = g.poll period read reset :=
  if_pos due

theorem pollBehind_early {outer : Gate} {outerPeriod outerRead : Nat}
    (early : outer.due outerPeriod outerRead = false) :
    outer.pollBehind g outerPeriod outerRead period read reset = g := by
  rw [pollBehind, if_neg (Bool.eq_false_iff.mp early)]

/-- Between two passages in a row lies at least one period. -/
structure Spaced (period : Nat) (g : Gate) : Prop where
  latest : ∃ rest, g.passed = g.last :: rest
  apart : g.passed.IsChain fun later earlier => earlier + period ≤ later

theorem start_spaced (period now : Nat) : (start now).Spaced period := ⟨⟨[], rfl⟩, .singleton now⟩

theorem Spaced.poll (spaced : g.Spaced period) (positive : 0 < period) (order : read ≤ reset) :
    (g.poll period read reset).Spaced period := by
  by_cases due : g.due period read = true
  · rw [poll_due due]
    obtain ⟨rest, passed⟩ := spaced.latest
    have apart := spaced.apart
    have late := (due_iff positive).mp due
    refine ⟨⟨g.passed, rfl⟩, ?_⟩
    rw [passed] at apart
    rw [set, passed]
    exact .cons_cons (by omega) apart
  · rw [poll_early (Bool.eq_false_iff.mpr due)]
    exact spaced

theorem Spaced.pollBehind (spaced : g.Spaced period) (outer : Gate) (outerPeriod outerRead : Nat)
    (positive : 0 < period) (order : read ≤ reset) :
    (outer.pollBehind g outerPeriod outerRead period read reset).Spaced period := by
  by_cases due : outer.due outerPeriod outerRead = true
  · rw [pollBehind_due due]
    exact spaced.poll positive order
  · rw [pollBehind_early (Bool.eq_false_iff.mpr due)]
    exact spaced

/-- After a poll the work is less than one period old. -/
theorem poll_recent (positive : 0 < period) (order : read ≤ reset) :
    read < (g.poll period read reset).last + period := by
  by_cases due : g.due period read = true
  · rw [poll_due due]
    change read < reset + period
    omega
  · rw [poll_early (Bool.eq_false_iff.mpr due)]
    rw [due_iff positive] at due
    omega

/-- In a loop whose rounds take at most `round`, the work is never older than a period and
one round. -/
theorem poll_age {clock finish round : Nat} (positive : 0 < period) (order : read ≤ reset)
    (begin_ : clock ≤ read) (round_ : finish ≤ clock + round) :
    finish < (g.poll period read reset).last + period + round := by
  have recent : read < (g.poll period read reset).last + period := poll_recent positive order
  omega

/-- Work behind another gate is at most its own period older than the last passage of that
gate, once it was passed at all. -/
def Follows (outer inner : Gate) (period started : Nat) : Prop :=
  outer.last < inner.last + period ∨ outer.last ≤ started

theorem Follows.pollBehind {outer inner : Gate} {outerPeriod outerRead outerReset started : Nat}
    (follows : Follows outer inner period started) (positive : 0 < period)
    (within : outerReset ≤ read) (order : read ≤ reset) :
    Follows (outer.poll outerPeriod outerRead outerReset)
      (outer.pollBehind inner outerPeriod outerRead period read reset) period started := by
  by_cases due : outer.due outerPeriod outerRead = true
  · rw [poll_due due, pollBehind_due due]
    exact .inl (within.trans_lt (poll_recent positive order))
  · rw [poll_early (Bool.eq_false_iff.mpr due), pollBehind_early (Bool.eq_false_iff.mpr due)]
    exact follows

/-- The ages of both add up. -/
theorem Follows.age {outer inner : Gate} {started now outerPeriod round : Nat}
    (follows : Follows outer inner period started)
    (recent : now < max (outer.last + outerPeriod) (started + 1) + round) :
    now < max (inner.last + period) (started + 1) + outerPeriod + round := by
  rcases follows with behind | early
  · omega
  · omega

end Gate

end RateLimit
