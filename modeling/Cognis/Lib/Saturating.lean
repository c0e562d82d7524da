import Mathlib.Algebra.Order.Ring.Nat
import Mathlib.Order.Lattice
import Mathlib.Tactic.Common

/-! Unsigned arithmetic that stops at a greatest value. Subtraction that stops at zero is
the subtraction of natural numbers. -/
namespace Saturating

def u64Top : Nat := 2 ^ 64 - 1

variable (top : Nat)

def add (a b : Nat) : Nat := min (a + b) top

def mul (a b : Nat) : Nat := min (a * b) top

/-- For `low ≤ high`. -/
def clamp (x low high : Nat) : Nat := max low (min x high)

variable {top} {a b c : Nat}

theorem add_le_top : add top a b ≤ top := min_le_right _ _

theorem mul_le_top : mul top a b ≤ top := min_le_right _ _

theorem le_add (bound : a ≤ top) : a ≤ add top a b := le_min (Nat.le_add_right a b) bound

theorem mul_le : mul top a b ≤ a * b := min_le_left _ _

theorem mul_eq (fits : a * b ≤ top) : mul top a b = a * b := min_eq_left fits

theorem clamp_low : b ≤ clamp a b c := le_max_left _ _

theorem clamp_high (order : b ≤ c) : clamp a b c ≤ c := max_le order (min_le_right _ _)

theorem clamp_le : clamp a b c ≤ max b a := max_le_max_left b (min_le_left _ _)

end Saturating
