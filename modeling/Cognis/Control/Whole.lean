import Cognis.Bpf.Custody
import Cognis.Bpf.RunningCount
import Cognis.Control.RunLoop

/-! Both halves at once: the callbacks of the kernel side and the loop of user space, joined
by the rings and the variables they share. -/
namespace Cognis.Control
open StateLogic Runs RateLimit Wire Fallback Reputation

structure Whole (G : Type) where
  machine : Bpf.Machine
  user : Userspace G
  clock : Nat

/-- Both halves after `Scheduler::init`. -/
def Whole.start {G : Type} (k : Bpf.Kernel) (floats : Floats G) (profile : Loader.BpfProfile)
    (tui : Bool) (created started : Nat) : Whole G :=
  ⟨.start k, .init floats profile tui created started, started⟩

inductive WholeEvent
  | kernel (e : Bpf.Event)
  | disable (p : Nat) (reserved : Bool)
  | iterate (a : Answers)

/-- `ops.disable`; `reserved` tells whether the exit ring had room. -/
def cognisDisable {G : Type} (ro : Bpf.Rodata) (k : Bpf.Kernel) (p : Nat) (reserved : Bool)
    (u : Userspace G) : Userspace G :=
  if Bpf.isUserschedTask ro p || (k.task p).kthread then u
  else if !reserved then u
  else u.publishExit (int32.encode (BitVec.ofNat 32 p))

/-- What an iteration leaves in the shared memory: `nr_scheduled`, and the samples it
submitted, as the kernel side reads them. -/
def afterIteration {G : Type} (k : Bpf.Kernel) (u u' : Userspace G) : Bpf.Kernel :=
  { k with
    nrScheduled := BitVec.ofNat 64 u'.scheduler.nrScheduled
    ring := k.ring ++ (u'.submitted.drop u.submitted.length).map readDispatched }

/-- An iteration is one step. It reads the counters of the kernel side, which alone leaves
`nr_scheduled` to user space. -/
inductive WholeStep {F G : Type} (ro : Bpf.Rodata) (setup : Setup F G) (w : Whole G) :
    WholeEvent → Whole G → Prop
  | kernel (e : Bpf.Event) (machine : Bpf.Machine) : Bpf.Disciplined ro w.machine e machine →
      (∀ task slots nrScheduled, e = .world task slots nrScheduled →
        nrScheduled = w.machine.kernel.nrScheduled) →
      WholeStep ro setup w (.kernel e) { w with machine }
  | disable (p : Nat) (reserved : Bool) :
      WholeStep ro setup w (.disable p reserved)
        { w with user := cognisDisable ro w.machine.kernel p reserved w.user }
  | iterate (a : Answers) : w.user.tuiQuit = false → w.clock ≤ a.instants 0 →
      Monotone a.instants → a.nrRunning = w.machine.kernel.nrRunning.toNat →
      a.nrOnlineCpus = w.machine.kernel.nrOnlineCpus →
      WholeStep ro setup w (.iterate a)
        { machine := { w.machine with
            kernel := afterIteration w.machine.kernel w.user (w.user.iterate setup a) }
          user := w.user.iterate setup a
          clock := a.instants 11 }

/-- The part of a run that the kernel side sees. -/
def WholeEvent.kernelEvent : WholeEvent → Option Bpf.Event
  | .kernel e => some e
  | _ => none

end Cognis.Control
