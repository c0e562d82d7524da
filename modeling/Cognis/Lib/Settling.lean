import Mathlib.Logic.Function.Iterate
import Mathlib.Tactic.Common

/-! Repeating a function whose distance to its fixed points falls with every
application. The distance bounds the number of applications needed. -/
namespace Settling

variable {α : Type} {f : α → α} {dist : α → ℕ}

structure Approaches (f : α → α) (dist : α → ℕ) : Prop where
  fixed : ∀ x, dist x = 0 → f x = x
  closer : ∀ x, dist x ≠ 0 → dist (f x) < dist x

theorem Approaches.iterate_le (h : Approaches f dist) (n : ℕ) (x : α) :
    dist (f^[n] x) ≤ dist x - n := by
  induction n with
  | zero => exact Nat.le_refl _
  | succ n ih =>
    rw [Function.iterate_succ_apply']
    by_cases settled : dist (f^[n] x) = 0
    · rw [h.fixed _ settled, settled]
      exact Nat.zero_le _
    · have step := h.closer _ settled
      omega

theorem Approaches.iterate_settled (h : Approaches f dist) {x : α} {n : ℕ}
    (enough : dist x ≤ n) : dist (f^[n] x) = 0 := by
  have near := h.iterate_le n x
  omega

theorem Approaches.iterate_fixed (h : Approaches f dist) {x : α} {n : ℕ} (enough : dist x ≤ n) :
    f (f^[n] x) = f^[n] x := h.fixed _ (h.iterate_settled enough)

/-- Later applications change nothing any more. -/
theorem Approaches.iterate_eq (h : Approaches f dist) {x : α} {n : ℕ} (enough : dist x ≤ n) :
    f^[n] x = f^[dist x] x := by
  obtain ⟨more, rfl⟩ := Nat.exists_eq_add_of_le' enough
  rw [Function.iterate_add_apply]
  exact Function.iterate_fixed (h.iterate_fixed (Nat.le_refl _)) more

end Settling
