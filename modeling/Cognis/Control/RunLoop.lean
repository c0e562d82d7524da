import Mathlib.Order.Monotone.Basic
import Cognis.Lib.RateLimit
import Cognis.Fallback.LatencyRing
import Cognis.Fallback.Rings
import Cognis.Fallback.Schedule
import Cognis.Loader.SliceOverflow
import Cognis.Reputation.Exits

/-! The loop of `run`: a scheduling cycle when there is work, the exit ring, housekeeping
and the dashboard. The rings hold bytes. Times are nanoseconds. -/
namespace Cognis.Control
open Runs RateLimit Saturating Wire Fallback Reputation

def msec : Nat := 1000000

/-- The library that reads the rings, what the program computes in floating point, and the
one option that the loop reads; `computed` is the quotient in `SliceController::update`. -/
structure Setup (F G : Type) where
  rings : RingBuffer
  features : FeatureFloats F
  floats : Floats G
  computed : Nat → Nat → Nat
  percpuLocal : Bool

/-- The same program over the rationals. -/
def Setup.rational : Setup ℚ ℚ where
  rings := .records
  features := Loader.rationalFeatures
  floats := .rational
  computed := fun pressure nrCpus => targetedLatencyNs * nrCpus / max pressure nrCpus
  percpuLocal := false

/-- What one iteration reads: shared variables, clocks, the answers of the dispatch ring and
the keyboard. The monotonic clock is read twice for each gate, in the order of the program. -/
structure Answers where
  nrOnlineCpus : Nat
  nrRunning : Nat
  times : Nat → Nat × Nat
  attempts : Nat → Attempt
  schedStart : Nat
  schedEnd : Nat
  now : Nat
  instants : Nat → Nat
  quit : Bool

/-- One CPU, nothing running, and a clock that shows a new instant at each reading. -/
def Answers.quiet (since : Nat) : Answers where
  nrOnlineCpus := 1
  nrRunning := 0
  times := fun _ => (0, 0)
  attempts := fun _ => ⟨0, true⟩
  schedStart := 0
  schedEnd := 0
  now := 0
  instants := fun i => since + i
  quit := false

theorem Answers.quiet_forward (since : Nat) : Monotone (quiet since).instants :=
  fun _ _ order => Nat.add_le_add_left order since

/-- `trustOps` and `cycles` are ghosts: what was done to the trust table, and how often
`schedule` was called. -/
structure Userspace (G : Type) where
  queued : QueuedRing
  exits : RingReader Pid
  scheduler : Scheduler
  policy : PolicyState
  latencies : LatencyRing
  trust : TrustTable G
  trustOps : List TrustOp
  lastHousekeeping : Gate
  lastTrustTick : Gate
  lastSliceTick : Gate
  lastTrustFlush : Gate
  lastTuiRender : Gate
  lastTuiHist : Gate
  tui : Bool
  tuiQuit : Bool
  cycles : Nat

/-- The variables shared with BPF are zero when the program is loaded. -/
def Userspace.init {G : Type} (floats : Floats G) (profile : Loader.BpfProfile) (tui : Bool)
    (created started : Nat) : Userspace G where
  queued := ⟨.empty, 0⟩
  exits := .empty
  scheduler := .init
  policy := .new profile
  latencies := .new
  trust := .new floats
  trustOps := []
  lastHousekeeping := .start started
  lastTrustTick := .start created
  lastSliceTick := .start created
  lastTrustFlush := .start created
  lastTuiRender := .start created
  lastTuiHist := .start created
  tui := tui
  tuiQuit := false
  cycles := 0

def effectiveSlicePressure (nrRunning nrQueued nrScheduled : Nat) : Nat :=
  add u64Max (add u64Max nrRunning nrQueued) nrScheduled

namespace Userspace

variable {F G : Type}

def hasUserspaceWork (u : Userspace G) : Bool :=
  !u.scheduler.tasksEmpty || decide (u.queued.nrQueued > 0) || decide (u.scheduler.nrScheduled > 0)

/-- The samples that the dispatch ring accepted. -/
def submitted (u : Userspace G) : List (List Byte) :=
  u.scheduler.dispatched.map DispatchedTask.bytes

/-- What the trust updates know of the state; the exit ring is read elsewhere. -/
def tracker (u : Userspace G) : Tracker G where
  lifetimes := u.policy.lifetimes
  trust := u.trust
  lastTrustFlush := u.lastTrustFlush.last
  exits := []
  trustOps := u.trustOps

variable (setup : Setup F G)

def drainQueuedTasks (nrOnlineCpus : Nat) (times : Nat → Nat × Nat) :
    Nat → Userspace G → Userspace G
  | 0, u => u
  | left + 1, u =>
    if u.scheduler.hasDeferredTasks then u
    else
      match u.queued.dequeueTask setup.rings with
      | (.ok (some task), queued) =>
        let (arrival, policy) :=
          u.policy.process setup.features nrOnlineCpus (times left).1 (times left).2 task
        drainQueuedTasks nrOnlineCpus times left
          { u with queued, policy, scheduler := u.scheduler.receive arrival }
      | (_, queued) => { u with queued }

def schedule (a : Answers) (u : Userspace G) : Userspace G :=
  let u := u.drainQueuedTasks setup a.nrOnlineCpus a.times (drainBudget a.nrOnlineCpus)
  let scheduler := u.scheduler.dispatchAll setup.percpuLocal a.attempts 0
  { u with
    scheduler := scheduler.notifyComplete scheduler.tasksLen
    latencies :=
      (u.latencies.recordSchedEventLatency (a.schedEnd - a.schedStart)).getD u.latencies
    cycles := u.cycles + 1 }

def evictTask (pid : Pid) (u : Userspace G) : Userspace G :=
  { u with
    policy.lifetimes := u.policy.lifetimes.lifetimeEvict pid
    trust := u.trust.evict setup.floats pid
    trustOps := u.trustOps ++ [.evict pid] }

def drainExitedTasks : Nat → Userspace G → Userspace G
  | 0, u => u
  | left + 1, u =>
    match dequeueExitedPid setup.rings u.exits with
    | (.ok (some pid), exits) =>
      if Positive pid then drainExitedTasks left ({ u with exits }.evictTask setup pid)
      else drainExitedTasks left { u with exits }
    | (_, exits) => { u with exits }

/-- The scan behind this gate does nothing. -/
def tickTrust (a : Answers) (u : Userspace G) : Userspace G :=
  { u with lastTrustTick := u.lastTrustTick.poll (100 * msec) (a.instants 2) (a.instants 3) }

def updateSlice (a : Answers) (u : Userspace G) : Userspace G :=
  let nrCpus := max a.nrOnlineCpus 1
  let pressure := effectiveSlicePressure a.nrRunning u.queued.nrQueued u.scheduler.nrScheduled
  { u with
    policy.sliceController :=
      u.policy.sliceController.update ⟨nrCpus, setup.computed pressure nrCpus⟩ }

def tickSliceController (a : Answers) (u : Userspace G) : Userspace G :=
  if u.lastSliceTick.due (50 * msec) (a.instants 4) then
    { u with lastSliceTick := u.lastSliceTick.set (a.instants 5) }.updateSlice setup a
  else u

def flushTrustUpdates (a : Answers) (u : Userspace G) : Userspace G :=
  let tracker := u.tracker.flushTrustUpdates setup.floats (a.instants 6) (a.instants 7) a.now
  { u with
    policy.lifetimes := tracker.lifetimes
    trust := tracker.trust
    trustOps := tracker.trustOps
    lastTrustFlush := u.lastTrustFlush.poll nsecPerSec (a.instants 6) (a.instants 7) }

def housekeeping (a : Answers) (u : Userspace G) : Userspace G :=
  ((u.tickTrust a).tickSliceController setup a).flushTrustUpdates setup a

/-- The part of `tick_tui` that keeps state: its own gate before the history. -/
def tickTui (a : Answers) (u : Userspace G) : Userspace G :=
  { u with lastTuiHist := u.lastTuiHist.poll (500 * msec) (a.instants 10) (a.instants 11) }

def driveTui (a : Answers) (u : Userspace G) : Userspace G :=
  let u := { u with tuiQuit := u.tuiQuit || a.quit }
  if u.lastTuiRender.due (100 * msec) (a.instants 8) then
    { u with lastTuiRender := u.lastTuiRender.set (a.instants 9) }.tickTui a
  else u

def background (a : Answers) (u : Userspace G) : Userspace G :=
  if u.lastHousekeeping.due (50 * msec) (a.instants 0) then
    { u with lastHousekeeping := u.lastHousekeeping.set (a.instants 1) }.housekeeping setup a
  else u

def iterate (a : Answers) (u : Userspace G) : Userspace G :=
  let u := if u.hasUserspaceWork then u.schedule setup a else u
  let u := (u.drainExitedTasks setup 128).background setup a
  if u.tui then u.driveTui a else u

end Userspace

/-- The loop with the rings in use. `clock` and `published` are ghosts: the latest reading
of the monotonic clock, and every record of the queued ring. -/
structure Loop (G : Type) where
  user : Userspace G
  clock : Nat
  published : List (List Byte)

/-- `Scheduler::init` ends at `created`, the loop begins at `started`. -/
def Loop.init {G : Type} (floats : Floats G) (profile : Loader.BpfProfile) (tui : Bool)
    (created started : Nat) : Loop G :=
  ⟨.init floats profile tui created started, started, []⟩

inductive LoopEvent
  | publish (data : List Byte)
  | exit (data : List Byte)
  | count (nrQueued : Nat)
  | iterate (a : Answers)

namespace Userspace

variable {G : Type}

def publish (u : Userspace G) (data : List Byte) : Userspace G :=
  { u with queued.reader.ring := u.queued.reader.ring ++ [data] }

def publishExit (u : Userspace G) (data : List Byte) : Userspace G :=
  { u with exits.ring := u.exits.ring ++ [data] }

end Userspace

/-- The kernel side may write to the rings and to `nr_queued` at any time; the monotonic
clock never goes back. -/
inductive LoopStep {F G : Type} (setup : Setup F G) (l : Loop G) : LoopEvent → Loop G → Prop
  | publish (data : List Byte) :
      LoopStep setup l (.publish data)
        { l with user := l.user.publish data, published := l.published ++ [data] }
  | exit (data : List Byte) :
      LoopStep setup l (.exit data) { l with user := l.user.publishExit data }
  | count (nrQueued : Nat) :
      LoopStep setup l (.count nrQueued) { l with user.queued.nrQueued := nrQueued }
  | iterate (a : Answers) : l.user.tuiQuit = false → l.clock ≤ a.instants 0 →
      Monotone a.instants →
      LoopStep setup l (.iterate a)
        { l with user := l.user.iterate setup a, clock := a.instants 11 }

end Cognis.Control
