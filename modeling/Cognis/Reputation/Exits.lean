import Cognis.Reputation.Lifetimes
import Cognis.Reputation.TrustMap

/-! How lifetime records end: a PID that the kernel side reports as gone, and a PID that
was not seen for a while. -/
namespace Cognis.Reputation
open Probing Runs

def exitObservation (lt : TaskLifetime) : ExitObservation where
  sliceUnderrun := decide (lt.sliceUsedNs < lt.sliceAssignedNs / 2)
  preempted := lt.preempted
  cleanExit := !lt.cheatFlagged
  cheatFlagged := lt.cheatFlagged
  forkCount := 0
  involuntaryCtxSw := 0

def dequeuedLifetime (startTs stopTs sliceNs now : Nat) : TaskLifetime where
  sliceAssignedNs := sliceNs
  lastSliceNs := sliceNs
  sliceUsedNs := stopTs - startTs
  preempted := decide (sliceNs - sliceNs / 8 ≤ stopTs - startTs)
  cheatFlagged := false
  interactiveSliceBiasNs := 0
  interactiveSliceCreditNs := 0
  lastSeenNs := now
  lastStopTs := stopTs

def nsecPerSec : Nat := 1000000000

def staleThresholdNs : Nat := 2 * nsecPerSec

/-- The part of the user-space scheduler that knows about tasks that leave, with the exit
ring and a log of what was done to the trust table. -/
structure Tracker (F : Type) where
  lifetimes : Lifetimes
  trust : TrustTable F
  lastTrustFlush : Nat
  exits : List Pid
  trustOps : List TrustOp

namespace Tracker

section

variable {F : Type} (fl : Floats F)

def init : Tracker F := ⟨.init, .new fl, 0, [], []⟩

def updateOnExit (st : Tracker F) (pid tgid : Pid) (obs : ExitObservation)
    (comm : List (BitVec 8)) : Tracker F :=
  { st with
    trust := st.trust.updateOnExit fl pid tgid obs comm
    trustOps := st.trustOps ++ [.updateOnExit pid tgid obs comm] }

def evictTrust (st : Tracker F) (pid : Pid) : Tracker F :=
  { st with trust := st.trust.evict fl pid, trustOps := st.trustOps ++ [.evict pid] }

/-- What `drain_queued_tasks` notes of a task; `now` is the time it was read. -/
def noteDequeued (st : Tracker F) (pid : Pid) (startTs stopTs sliceNs now : Nat) : Tracker F :=
  { st with
    lifetimes := st.lifetimes.lifetimeGetMutOrDefault pid fun _ =>
      dequeuedLifetime startTs stopTs sliceNs now }

/-- `reserved` tells whether the ring had room. -/
def cognisDisable (st : Tracker F) (pid : Pid) (usersched kthread reserved : Bool) : Tracker F :=
  if usersched || kthread then st
  else if !reserved then st
  else { st with exits := st.exits ++ [pid] }

/-- `fails` tells which reads of the ring return an error. -/
def drainExitedTasks (fails : Nat → Bool) : Nat → Tracker F → Tracker F
  | 0, st => st
  | left + 1, st =>
    if fails left then st
    else match st.exits with
      | [] => st
      | pid :: rest =>
        let st := { st with exits := rest }
        if Positive pid then
          drainExitedTasks fails left
            (evictTrust fl { st with lifetimes := st.lifetimes.lifetimeEvict pid } pid)
        else drainExitedTasks fails left st

end

section

variable {F : Type}

/-- At most as many PIDs as the array on the stack holds. -/
def stalePids (st : Tracker F) (now : Nat) : List Pid :=
  (((List.finRange tableSize).filter fun s =>
    let lt := st.lifetimes.lifetimeTable s
    decide (Positive (st.lifetimes.lifetimePids s)) &&
      decide (0 < lt.lastSeenNs ∧ staleThresholdNs ≤ now - lt.lastSeenNs)).map
        st.lifetimes.lifetimePids).take 256

variable (fl : Floats F)

def finalise (st : Tracker F) (pid : Pid) : Tracker F :=
  match st.lifetimes.lifetimeFindSlot pid with
  | some s =>
    let lt := st.lifetimes.lifetimeTable s
    updateOnExit fl { st with lifetimes := st.lifetimes.lifetimeEvict pid } pid pid
      (exitObservation lt) []
  | none => st

/-- `instant` and `reset` are two readings of the clock of the rate limit. -/
def flushTrustUpdates (st : Tracker F) (instant reset now : Nat) : Tracker F :=
  if instant - st.lastTrustFlush < nsecPerSec then st
  else
    let st := { st with lastTrustFlush := reset }
    (st.stalePids now).foldl (finalise fl) st

end

end Tracker

inductive TrackerEvent
  | dequeue (pid : Pid) (startTs stopTs sliceNs now : Nat)
  | disable (pid : Pid) (usersched kthread reserved : Bool)
  | drain (maxBatch : Nat) (fails : Nat → Bool)
  | flush (instant reset now : Nat)

/-- A task is noted while its PID is tracked or the table has room. -/
inductive TrackerStep {F : Type} (fl : Floats F) (st : Tracker F) : TrackerEvent → Tracker F → Prop
  | dequeue (pid : Pid) (startTs stopTs sliceNs now : Nat) : Positive pid →
      (st.lifetimes.lifetimeGet pid ≠ none ∨ Records.count st.lifetimes.lifetimeGet < tableSize) →
      TrackerStep fl st (.dequeue pid startTs stopTs sliceNs now)
        (st.noteDequeued pid startTs stopTs sliceNs now)
  | disable (pid : Pid) (usersched kthread reserved : Bool) :
      TrackerStep fl st (.disable pid usersched kthread reserved)
        (st.cognisDisable pid usersched kthread reserved)
  | drain (maxBatch : Nat) (fails : Nat → Bool) :
      TrackerStep fl st (.drain maxBatch fails) (st.drainExitedTasks fl fails maxBatch)
  | flush (instant reset now : Nat) :
      TrackerStep fl st (.flush instant reset now) (st.flushTrustUpdates fl instant reset now)

end Cognis.Reputation
