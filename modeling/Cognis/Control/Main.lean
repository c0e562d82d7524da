import Mathlib.Algebra.Order.Ring.Nat
import Cognis.Lib.Runs

/-! The control loop of `main`: scheduler instances one after the other, restarts after a
panic, and the shutdown flag of the process. Times are nanoseconds. -/
namespace Cognis.Control
open Runs

def rapidFailureWindow : Nat := 30000000000
def rapidFailureLimit : Nat := 20
def u32Max : Nat := 2 ^ 32 - 1

inductive Exit
  | ok
  | runtimeFailure
  | error
  | permanentFailure
deriving DecidableEq

/-- What `catch_unwind` returns of one instance: `init` and then `run`. -/
inductive Outcome
  | restart
  | stop
  | runtimeExit (reason : String)
  | error
  | panic (now : Nat)
deriving DecidableEq

/-- The locals that survive an iteration of the loop. -/
structure Locals where
  rapidFailures : Nat := 0
  lastFailureAt : Option Nat := none
deriving DecidableEq

def Locals.fail (l : Locals) (now : Nat) : Locals where
  rapidFailures :=
    if l.lastFailureAt.any fun prev => decide (now - prev ≤ rapidFailureWindow) then
      min (l.rapidFailures + 1) u32Max
    else 1
  lastFailureAt := some now

/-- Where `main` stands: before the flag check, between the check and `Scheduler::init`, in
an instance, in the backoff sleep, before `exec`, or at its end. -/
inductive Phase
  | loopHead
  | starting
  | running
  | backoff
  | reexec
  | exited (how : Exit)
deriving DecidableEq

structure Main where
  phase : Phase
  shutdown : Bool
  locals : Locals
deriving DecidableEq

def Main.start : Main := ⟨.loopHead, false, {}⟩

inductive Event
  | signal
  | check
  | init
  | finish (outcome : Outcome)
  | wake
  | exec (succeeds : Bool)
deriving DecidableEq

def Main.finish (m : Main) : Outcome → Main
  | .restart => { m with phase := .loopHead }
  | .stop => { m with phase := .exited .ok }
  | .runtimeExit _ => { m with phase := .exited .runtimeFailure }
  | .error => { m with phase := .exited .error }
  | .panic now =>
    let locals := m.locals.fail now
    if locals.rapidFailures > rapidFailureLimit then
      { m with phase := .exited .permanentFailure, locals }
    else { m with phase := .backoff, locals }

/-- `none` where the event cannot happen. A successful `exec` starts `main` afresh. -/
def Main.step (m : Main) (e : Event) : Option Main :=
  match m.phase, e with
  | .exited _, _ => none
  | _, .signal => some { m with shutdown := true }
  | .loopHead, .check =>
    some { m with phase := if m.shutdown then .exited .ok else .starting }
  | .starting, .init => some { m with phase := .running }
  | .running, .finish outcome => some (m.finish outcome)
  | .backoff, .wake => some { m with phase := .reexec }
  | .reexec, .exec true => some .start
  | .reexec, .exec false => some { m with phase := .loopHead }
  | _, _ => none

/-- The same, one case for each event. -/
inductive Stepped (m : Main) : Event → Main → Prop
  | signal (alive : ∀ how, m.phase ≠ .exited how) : Stepped m .signal { m with shutdown := true }
  | leave (here : m.phase = .loopHead) (flag : m.shutdown = true) :
      Stepped m .check { m with phase := .exited .ok }
  | enter (here : m.phase = .loopHead) (flag : m.shutdown = false) :
      Stepped m .check { m with phase := .starting }
  | init (here : m.phase = .starting) : Stepped m .init { m with phase := .running }
  | finish (here : m.phase = .running) (outcome : Outcome) :
      Stepped m (.finish outcome) (m.finish outcome)
  | wake (here : m.phase = .backoff) : Stepped m .wake { m with phase := .reexec }
  | replaced (here : m.phase = .reexec) : Stepped m (.exec true) .start
  | kept (here : m.phase = .reexec) : Stepped m (.exec false) { m with phase := .loopHead }

theorem stepped_of_step {m m' : Main} {e : Event} (step : m.step e = some m') : Stepped m e m' := by
  obtain ⟨phase, shutdown, locals⟩ := m
  cases e with
  | signal =>
    cases phase <;> cases step <;> exact .signal fun _ => nofun
  | check =>
    cases phase <;> cases step
    cases shutdown with
    | true => exact .leave rfl rfl
    | false => exact .enter rfl rfl
  | init =>
    cases phase <;> cases step
    exact .init rfl
  | finish outcome =>
    cases phase <;> cases step
    exact .finish rfl outcome
  | wake =>
    cases phase <;> cases step
    exact .wake rfl
  | exec succeeds =>
    cases succeeds with
    | true =>
      cases phase <;> cases step
      exact .replaced rfl
    | false =>
      cases phase <;> cases step
      exact .kept rfl

theorem finish_keeps (m : Main) (outcome : Outcome) :
    (m.finish outcome).shutdown = m.shutdown ∧ (m.finish outcome).phase ≠ .starting := by
  cases outcome with
  | panic now =>
    simp only [Main.finish]
    split
    · exact ⟨rfl, nofun⟩
    · exact ⟨rfl, nofun⟩
  | _ => exact ⟨rfl, nofun⟩

abbrev MainRun := Run fun (m : Main) (e : Event) (m' : Main) => m.step e = some m'

end Cognis.Control
