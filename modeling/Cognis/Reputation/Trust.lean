import Cognis.Reputation.PidTable

/-! The trust table and its counters. A slot is one record here where the source keeps
parallel arrays. -/
namespace Cognis.Reputation
open Probing

/-- The floating-point operations of the score; `decimal m e` is the literal m · 10⁻ᵉ. -/
structure Floats (F : Type) where
  decimal : Int → Nat → F
  ofU64 : Nat → F
  add : F → F → F
  sub : F → F → F
  mul : F → F → F
  min : F → F → F
  max : F → F → F
  lt : F → F → Bool
  neutral_not_lt : lt (decimal 0 0) (decimal (-35) 2) = false

namespace Floats

variable {F : Type} (fl : Floats F)

def neutral : F := fl.decimal 0 0

def trustThreshold : F := fl.decimal (-35) 2

end Floats

structure ExitObservation where
  sliceUnderrun : Bool := false
  preempted : Bool := false
  cleanExit : Bool := false
  cheatFlagged : Bool := false
  forkCount : Nat := 0
  involuntaryCtxSw : Nat := 0
deriving DecidableEq

/-- NUL-terminated, cut off after 15 bytes. -/
def strToComm (s : List (BitVec 8)) : Fin 16 → BitVec 8 :=
  fun i => if i.val < min s.length 15 then s.getD i.val 0 else 0

structure TrustSlot (F : Type) where
  score : F
  comm : Fin 16 → BitVec 8
  flagged : Bool
  cheatStreak : BitVec 8
  tgidScore : F

/-- The score after an observation: the cooperative signals first. -/
def scoreAfter {F : Type} (fl : Floats F) (obs : ExitObservation) (score : F) : F :=
  let one := fl.decimal 1 0
  let low := fl.decimal (-1) 0
  let score := if obs.sliceUnderrun then
    fl.min (fl.add (fl.mul score (fl.decimal 95 2)) (fl.decimal 10 2)) one else score
  let score := if obs.cleanExit && !obs.cheatFlagged then
    fl.min (fl.add (fl.mul score (fl.decimal 97 2)) (fl.decimal 6 2)) one else score
  let score := if obs.preempted then
    fl.max (fl.sub (fl.mul score (fl.decimal 93 2)) (fl.decimal 7 2)) low else score
  let score := if obs.cheatFlagged then
    fl.max (fl.sub (fl.mul score (fl.decimal 90 2)) (fl.decimal 30 2)) low else score
  let score := if obs.forkCount > 50 then
    let penalty := fl.min (fl.mul (fl.ofU64 (obs.forkCount - 50)) (fl.decimal 2 3))
      (fl.decimal 30 2)
    fl.max (fl.sub score penalty) low else score
  if obs.involuntaryCtxSw > 1000 then fl.max (fl.sub score (fl.decimal 8 2)) low else score

def saturatingSucc (c : BitVec 8) : BitVec 8 := if c = 255 then 255 else c + 1

namespace TrustSlot

variable {F : Type} (fl : Floats F)

def reset : TrustSlot F := ⟨fl.neutral, fun _ => 0, false, 0, fl.neutral⟩

def observe (slot : TrustSlot F) (obs : ExitObservation) (comm : List (BitVec 8)) : TrustSlot F :=
  let streak := if obs.cheatFlagged then saturatingSucc slot.cheatStreak else 0
  { slot with
    comm := if comm.isEmpty then slot.comm else strToComm comm
    score := scoreAfter fl obs slot.score
    cheatStreak := streak
    flagged := if 2 ≤ streak then true else if obs.cheatFlagged then slot.flagged else false }

end TrustSlot

def trustScheme : Scheme Pid tableSize := pidScheme 2654435769

structure TrustTable (F : Type) where
  pids : Fin tableSize → Pid
  slots : Fin tableSize → TrustSlot F

namespace TrustTable

variable {F : Type} (fl : Floats F)

def new : TrustTable F := ⟨fun _ => pidEmpty, fun _ => .reset fl⟩

def findSlot (t : TrustTable F) (pid : Pid) : Option (Fin tableSize) := trustScheme.find t.pids pid

def getOrInsertSlot (t : TrustTable F) (pid : Pid) : Fin tableSize × TrustTable F :=
  match trustScheme.claim t.pids pid with
  | .held s => (s, t)
  | .fresh dst => (dst, ⟨Function.update t.pids dst pid, Function.update t.slots dst (.reset fl)⟩)

def trustScore (t : TrustTable F) (pid : Pid) : F :=
  ((t.findSlot pid).map fun s => (t.slots s).score).getD fl.neutral

def isFlagged (t : TrustTable F) (pid : Pid) : Bool :=
  ((t.findSlot pid).map fun s => (t.slots s).flagged).getD false

/-- The thread group has the home slot of its PID, or takes it if it is empty. -/
def blendTgid (t : TrustTable F) (tgid : Pid) (score : F) : TrustTable F :=
  let ts := trustScheme.home tgid
  if t.pids ts = tgid ∨ t.pids ts = pidEmpty then
    let t := if t.pids ts = pidEmpty then
      ⟨Function.update t.pids ts tgid,
        Function.update t.slots ts { t.slots ts with tgidScore := fl.neutral }⟩ else t
    let blended := fl.add (fl.mul (t.slots ts).tgidScore (fl.decimal 8 1))
      (fl.mul score (fl.decimal 2 1))
    { t with slots := Function.update t.slots ts { t.slots ts with tgidScore := blended } }
  else t

def updateOnExit (t : TrustTable F) (pid tgid : Pid) (obs : ExitObservation)
    (comm : List (BitVec 8)) : TrustTable F :=
  let (s, t) := t.getOrInsertSlot fl pid
  let slot := (t.slots s).observe fl obs comm
  blendTgid fl { t with slots := Function.update t.slots s slot } tgid slot.score

def evict (t : TrustTable F) (pid : Pid) : TrustTable F :=
  match t.findSlot pid with
  | some s => ⟨Function.update t.pids s pidTombstone, Function.update t.slots s (.reset fl)⟩
  | none => t

def quarantinedCount (t : TrustTable F) : Nat :=
  (((List.finRange tableSize).filter fun s =>
    t.pids s != 0 && fl.lt (t.slots s).score fl.trustThreshold).filter fun s =>
      decide (Positive (t.pids s))).length

def flaggedCount (t : TrustTable F) : Nat :=
  (((List.finRange tableSize).filter fun s => t.pids s != 0 && (t.slots s).flagged).filter fun s =>
    decide (Positive (t.pids s))).length

end TrustTable

end Cognis.Reputation
