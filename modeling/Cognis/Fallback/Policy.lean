import Cognis.Fallback.Scheduler
import Cognis.Fallback.SliceController
import Cognis.Loader.Profile
import Cognis.Reputation.Lifetimes

/-! `derive_task_policy`: the label, slice, virtual time and deadline that the fallback gives
to a task it reads from the queued ring. -/
namespace Cognis.Fallback
open Saturating Reputation Loader

/-- A whole message of the queued ring. -/
structure QueuedRecord extends QueuedTask where
  nrCpusAllowed : Nat
  startTs : Nat
  stopTs : Nat
  execRuntime : Nat
  weight : Nat
  comm : Fin 16 → BitVec 8
  vtime_le : vtime ≤ u64Max

/-- The floating-point operations of the features: `decimal m e` is the literal m · 10⁻ᵉ, a
ratio is a quotient cut off to the unit interval, computed in double or in single precision. -/
structure FeatureFloats (F : Type) where
  decimal : Int → Nat → F
  ratio64 : Nat → Nat → F
  ratio32 : Nat → Int → F
  lt : F → F → Bool
  le : F → F → Bool

structure TaskFeatures (F : Type) where
  runnableRatio : F
  cpuIntensity : F
  execRatio : F
  weightNorm : F
  cpuAffinity : F

namespace QueuedRecord

def pid32 (task : QueuedRecord) : Pid := BitVec.ofInt 32 task.pid

def burstNs (task : QueuedRecord) : Nat := task.stopTs - task.startTs

def kernelPrefixes : List String :=
  ["kswapd", "khugepaged", "kcompactd", "kthreadd", "kdevtmpfs", "kauditd", "kcryptd", "kblockd"]

def ascii (s : String) : List (BitVec 8) := s.toList.map fun c => BitVec.ofNat 8 c.toNat

/-- By the name up to its NUL: one with a slash, or that of a kernel daemon. -/
def isKernelWorker (task : QueuedRecord) : Bool :=
  let s := (List.ofFn task.comm).takeWhile (· ≠ 0)
  s.contains 47 || kernelPrefixes.any fun name => (ascii name).isPrefixOf s

def scaleByWeightInverse (task : QueuedRecord) (value : Nat) : Nat :=
  mul u64Max value 100 / max task.weight 1

end QueuedRecord

section

variable {F : Type} (fl : FeatureFloats F)

def computeFeatures (task : QueuedRecord) (baseSliceNs prevSliceNs : Nat) (nrCpus : Int) :
    TaskFeatures F where
  runnableRatio :=
    if baseSliceNs > 0 then fl.ratio64 task.burstNs baseSliceNs else fl.decimal 0 0
  cpuIntensity := fl.ratio64 task.burstNs (max prevSliceNs 1)
  execRatio :=
    if task.execRuntime > 0 then fl.ratio64 task.burstNs task.execRuntime else fl.decimal 1 0
  weightNorm := fl.ratio32 task.weight 10000
  cpuAffinity := fl.ratio32 task.nrCpusAllowed (max nrCpus 1)

def classify (f : TaskFeatures F) : TaskLabel :=
  if fl.lt (fl.decimal 95 2) f.weightNorm then .realTime
  else if fl.lt (fl.decimal 85 2) f.cpuIntensity && fl.lt f.execRatio (fl.decimal 30 2) then
    .compute
  else if fl.lt f.cpuIntensity (fl.decimal 10 2) then .ioWait
  else .interactive

/-- Between 750 us and 25 ms. -/
def sleptShortly (sleepNs : Nat) : Bool :=
  decide (750000 ≤ sleepNs) && decide (sleepNs ≤ 25000000)

def isLatencySensitive (label : TaskLabel) (f : TaskFeatures F) (sleepNs : Nat) : Bool :=
  decide (label = .interactive ∨ label = .ioWait) && sleptShortly sleepNs &&
    fl.le (fl.decimal 55 2) f.execRatio && fl.le (fl.decimal 30 2) f.cpuIntensity

def shouldWakeBoost (latencySensitive : Bool) (execRatio cpuIntensity : F) (sleepNs : Nat) :
    Bool :=
  latencySensitive && sleptShortly sleepNs && fl.le (fl.decimal 60 2) execRatio &&
    fl.le (fl.decimal 45 2) cpuIntensity

end

def recentSleepGapNs (prevStopTs currentStartTs : Nat) : Nat :=
  if prevStopTs = 0 then 0 else currentStartTs - prevStopTs

def interactiveSleepBonusNs (sliceNsMin sleepNs refBase : Nat) : Nat :=
  if sleptShortly sleepNs then clamp (sleepNs / 4) (sliceNsMin / 2) (max refBase sliceNsMin) else 0

/-- The product wraps around: nothing guards it. -/
def clampMax (refBase sliceNsMin : Nat) : Nat := max (refBase * 4 % 2 ^ 64) sliceNsMin

/-- Weight-scaled service on the base slice, with half of the bonus for a recent sleeper. -/
def serviceSlice (aiSlice weight bonus : Nat) (wakeBoosted : Bool) : Nat :=
  let slice := mul u64Max aiSlice (max weight 1) / 100
  if wakeBoosted then add u64Max slice (bonus / 2) else slice

def boundSlice (refBase sliceNsMin : Nat) (label : TaskLabel) (slice : Nat) : Nat :=
  let slice := clamp slice sliceNsMin (clampMax refBase sliceNsMin)
  if label = .realTime then min (max slice refBase) (clampMax refBase sliceNsMin) else slice

def wakeCredit (sliceNsMin bonus slice : Nat) (wakeBoosted : Bool) : Nat :=
  if wakeBoosted then min (min (max bonus (sliceNsMin / 2)) slice) 4000000 else 0

/-- A task without a virtual time starts at the front, any other at most `refBase` behind. -/
def startVtime (front refBase vtime : Nat) : Nat :=
  if vtime = 0 then front else max vtime (front - refBase)

/-- An approximation of the virtual deadline; a task of the RT lane goes before all others. -/
def virtualDeadline (label : TaskLabel) (vtime service : Nat) : Nat :=
  if label = .realTime then 0 else add u64Max vtime service

/-- The saturating product bounds one term of the sum only. -/
def sampleAssignedSlice (emaNs sliceNs : Nat) : Nat :=
  if emaNs = 0 then sliceNs else (mul u64Max emaNs 7 + sliceNs) % 2 ^ 64 / 8

/-- What `derive_task_policy` reads and writes besides the message. -/
structure PolicyState where
  vruntimeNow : Nat
  baseSliceNs : Nat
  sliceNsMin : Nat
  sliceController : SliceController
  lifetimes : Lifetimes
  labelCounts : TaskLabel → Nat
  assignedSliceEmaNs : Nat

namespace PolicyState

def new (profile : BpfProfile) : PolicyState where
  vruntimeNow := 0
  baseSliceNs := profile.sliceNs
  sliceNsMin := profile.sliceMinNs
  sliceController := .new profile.sliceNs
  lifetimes := .init
  labelCounts := fun _ => 0
  assignedSliceEmaNs := (SliceController.new profile.sliceNs).readSliceNs

/-- The slice of the previous cycle; for a new PID the ceiling, at least 1 ms. -/
def prevSliceNs (s : PolicyState) (task : QueuedRecord) : Nat :=
  match (s.lifetimes.lifetimeGet task.pid32).filter fun lt => decide (lt.lastSliceNs > 0) with
  | some lt => lt.lastSliceNs
  | none => max s.baseSliceNs 1000000

def recentSleepNs (s : PolicyState) (task : QueuedRecord) : Nat :=
  match s.lifetimes.lifetimeGet task.pid32 with
  | some lt => recentSleepGapNs lt.lastStopTs task.startTs
  | none => 0

section

variable {F : Type} (fl : FeatureFloats F)

def deriveTaskPolicy (nrOnlineCpus : Nat) (s : PolicyState) (task : QueuedRecord) :
    Policy × PolicyState :=
  let nrCpus := (BitVec.ofNat 32 (max nrOnlineCpus 1)).toInt
  let sleepNs := s.recentSleepNs task
  let features := computeFeatures fl task s.baseSliceNs (s.prevSliceNs task) nrCpus
  let label := if task.isKernelWorker then .realTime else classify fl features
  let latencySensitive := isLatencySensitive fl label features sleepNs
  let refBase := s.baseSliceNs
  let wakeBoosted := shouldWakeBoost fl latencySensitive features.execRatio features.cpuIntensity
    sleepNs
  let bonus := interactiveSleepBonusNs s.sliceNsMin sleepNs refBase
  let slice := boundSlice refBase s.sliceNsMin label
    (serviceSlice s.sliceController.readSliceNs task.weight bonus wakeBoosted)
  let vtime := add u64Max (startVtime s.vruntimeNow refBase task.vtime)
    (task.scaleByWeightInverse task.burstNs)
  ({ deadline := virtualDeadline label vtime (task.scaleByWeightInverse slice)
     sliceNs := slice
     label := label
     isKernelWorker := task.isKernelWorker
     latencySensitive := latencySensitive
     wakeBoosted := wakeBoosted
     wakeCreditNs := wakeCredit s.sliceNsMin bonus slice wakeBoosted
     vtime := vtime },
   { s with
     vruntimeNow := max s.vruntimeNow vtime
     labelCounts := Function.update s.labelCounts label (s.labelCounts label + 1)
     assignedSliceEmaNs := sampleAssignedSlice s.assignedSliceEmaNs slice })

/-- What `drain_queued_tasks` records for the next cycle and for the trust updates. -/
def trackLifetime (task : QueuedRecord) (sliceNs now : Nat) (e : TaskLifetime) : TaskLifetime :=
  { e with
    sliceAssignedNs := sliceNs
    lastSliceNs := sliceNs
    sliceUsedNs := task.burstNs
    preempted := decide (task.burstNs ≥ sliceNs - sliceNs / 8)
    cheatFlagged := false
    interactiveSliceBiasNs := 0
    interactiveSliceCreditNs := 0
    lastSeenNs := now
    lastStopTs := task.stopTs }

/-- One task read from the queued ring, and the clock after that. -/
def process (nrOnlineCpus timestamp lastSeenNs : Nat) (s : PolicyState) (task : QueuedRecord) :
    Arrival × PolicyState :=
  let (policy, s) := s.deriveTaskPolicy fl nrOnlineCpus task
  (⟨task.toQueuedTask, policy, timestamp⟩,
    { s with
      lifetimes := s.lifetimes.lifetimeGetMutOrDefault task.pid32
        (trackLifetime task policy.sliceNs lastSeenNs) })

end

end PolicyState

end Cognis.Fallback
