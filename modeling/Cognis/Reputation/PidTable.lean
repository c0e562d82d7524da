import Cognis.Lib.Probing

/-! PIDs and the slots they hash to. The lifetime table and the trust table are laid out
the same way. -/
namespace Cognis.Reputation
open Probing

abbrev Pid := BitVec 32

def Positive (pid : Pid) : Prop := 0 < pid.toInt

instance (pid : Pid) : Decidable (Positive pid) := inferInstanceAs (Decidable (0 < pid.toInt))

def tableSize : Nat := 4096

instance : NeZero tableSize := ⟨by decide⟩

/-- Fibonacci hash: the top 12 bits of the product. -/
def pidSlot (fib : BitVec 32) (pid : Pid) : Fin tableSize :=
  ⟨((pid * fib) >>> 20).toNat, by
    have bound := (pid * fib).isLt
    rw [BitVec.toNat_ushiftRight, Nat.shiftRight_eq_div_pow, tableSize]
    omega⟩

def pidEmpty : Pid := 0

def pidTombstone : Pid := -1

def pidScheme (fib : BitVec 32) : Scheme Pid tableSize where
  home := pidSlot fib
  empty := pidEmpty
  tombstone := pidTombstone
  apart := by decide

theorem Positive.ne_empty {pid : Pid} (positive : Positive pid) : pid ≠ pidEmpty := by
  have empty : ¬ Positive pidEmpty := by decide
  intro same
  rw [same] at positive
  exact empty positive

theorem Positive.live {fib : BitVec 32} {pid : Pid} (positive : Positive pid) :
    (pidScheme fib).Live pid := by
  have tombstone : ¬ Positive pidTombstone := by decide
  refine ⟨positive.ne_empty, ?_⟩
  intro same
  rw [same] at positive
  exact tombstone positive

end Cognis.Reputation
