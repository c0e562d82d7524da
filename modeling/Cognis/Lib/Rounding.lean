import Mathlib.Tactic.Linarith
import Mathlib.Tactic.Ring
import Mathlib.Algebra.Order.Field.Rat
import Mathlib.Algebra.Order.Ring.Abs

/-! Arithmetic that rounds. An operation returns a number close to the exact result, as
long as that is in range, and intervals tell what a computation can return. -/
namespace Rounding

section

variable {F : Type} (Holds : F → ℚ → Prop)

/-- `op` computes `exact` up to an error of `ε` while the result is at most `range`. -/
def Rounds (ε range : ℚ) (op : F → F → F) (exact : ℚ → ℚ → ℚ) : Prop :=
  ∀ x y a b, Holds x a → Holds y b → |exact a b| ≤ range →
    ∃ c, Holds (op x y) c ∧ |c - exact a b| ≤ ε

/-- `op` picks one of its operands, as `exact` does. -/
def Picks (op : F → F → F) (exact : ℚ → ℚ → ℚ) : Prop :=
  ∀ x y a b, Holds x a → Holds y b → Holds (op x y) (exact a b)

/-- `x` stands for a number in the interval. -/
def Between (lo hi : ℚ) (x : F) : Prop := ∃ a, Holds x a ∧ lo ≤ a ∧ a ≤ hi

end

section

variable {F : Type} {Holds : F → ℚ → Prop} {ε range lo hi lo' hi' k : ℚ} {op : F → F → F} {x y : F}

theorem Between.mono (h : Between Holds lo hi x) (below : lo' ≤ lo) (above : hi ≤ hi') :
    Between Holds lo' hi' x := by
  obtain ⟨a, holds, low, high⟩ := h
  exact ⟨a, holds, below.trans low, high.trans above⟩

theorem Between.add (rounds : Rounds Holds ε range op (· + ·)) (hx : Between Holds lo hi x)
    (hy : Between Holds lo' hi' y) (low : -range ≤ lo + lo') (high : hi + hi' ≤ range) :
    Between Holds (lo + lo' - ε) (hi + hi' + ε) (op x y) := by
  obtain ⟨a, holds, a_low, a_high⟩ := hx
  obtain ⟨b, holds', b_low, b_high⟩ := hy
  obtain ⟨c, result, close⟩ := rounds x y a b holds holds' (abs_le.mpr ⟨by linarith, by linarith⟩)
  obtain ⟨left, right⟩ := abs_le.mp close
  exact ⟨c, result, by linarith, by linarith⟩

theorem Between.sub (rounds : Rounds Holds ε range op (· - ·)) (hx : Between Holds lo hi x)
    (hy : Between Holds lo' hi' y) (low : -range ≤ lo - hi') (high : hi - lo' ≤ range) :
    Between Holds (lo - hi' - ε) (hi - lo' + ε) (op x y) := by
  obtain ⟨a, holds, a_low, a_high⟩ := hx
  obtain ⟨b, holds', b_low, b_high⟩ := hy
  obtain ⟨c, result, close⟩ := rounds x y a b holds holds' (abs_le.mpr ⟨by linarith, by linarith⟩)
  obtain ⟨left, right⟩ := abs_le.mp close
  exact ⟨c, result, by linarith, by linarith⟩

/-- A factor `k` that is itself only known up to `ε`. -/
theorem Between.scale (rounds : Rounds Holds ε range op (· * ·)) (hx : Between Holds lo hi x)
    (hy : Between Holds (k - ε) (k + ε) y) (scale : 0 ≤ k) (small : k + ε ≤ 1)
    (low : -2 ≤ lo) (high : hi ≤ 2) (inside : 2 ≤ range) :
    Between Holds (k * lo - 3 * ε) (k * hi + 3 * ε) (op x y) := by
  obtain ⟨a, holds, a_low, a_high⟩ := hx
  obtain ⟨b, holds', b_low, b_high⟩ := hy
  have size : |a| ≤ 2 := abs_le.mpr ⟨low.trans a_low, a_high.trans high⟩
  have error : |b - k| ≤ ε := abs_le.mpr ⟨by linarith, by linarith⟩
  have apart : |a * b - k * a| ≤ 2 * ε := by
    have same : a * b - k * a = a * (b - k) := by ring
    rw [same, abs_mul]
    exact mul_le_mul size error (abs_nonneg _) (by norm_num)
  have factor : |b| ≤ 1 := abs_le.mpr ⟨by linarith, by linarith⟩
  have product : |a * b| ≤ range := by
    rw [abs_mul]
    have bound := mul_le_mul size factor (abs_nonneg _) (by norm_num)
    linarith
  obtain ⟨c, result, close⟩ := rounds x y a b holds holds' product
  obtain ⟨left, right⟩ := abs_le.mp close
  obtain ⟨left', right'⟩ := abs_le.mp apart
  have scaled_low := mul_le_mul_of_nonneg_left a_low scale
  have scaled_high := mul_le_mul_of_nonneg_left a_high scale
  exact ⟨c, result, by linarith, by linarith⟩

theorem Between.min (picks : Picks Holds op Min.min) (hx : Between Holds lo hi x)
    (hy : Between Holds lo' hi' y) : Between Holds (Min.min lo lo') (Min.min hi hi') (op x y) := by
  obtain ⟨a, holds, a_low, a_high⟩ := hx
  obtain ⟨b, holds', b_low, b_high⟩ := hy
  exact ⟨_, picks x y a b holds holds', min_le_min a_low b_low, min_le_min a_high b_high⟩

theorem Between.max (picks : Picks Holds op Max.max) (hx : Between Holds lo hi x)
    (hy : Between Holds lo' hi' y) : Between Holds (Max.max lo lo') (Max.max hi hi') (op x y) := by
  obtain ⟨a, holds, a_low, a_high⟩ := hx
  obtain ⟨b, holds', b_low, b_high⟩ := hy
  exact ⟨_, picks x y a b holds holds', max_le_max a_low b_low, max_le_max a_high b_high⟩

/-- A comparison of separate intervals. -/
theorem Between.lt_eq_false {lt : F → F → Bool}
    (faithful : ∀ x y a b, Holds x a → Holds y b → (lt x y = true ↔ a < b))
    (hx : Between Holds lo hi x) (hy : Between Holds lo' hi' y) (apart : hi' ≤ lo) :
    lt x y = false := by
  obtain ⟨a, holds, a_low, a_high⟩ := hx
  obtain ⟨b, holds', b_low, b_high⟩ := hy
  rw [← Bool.not_eq_true, faithful x y a b holds holds']
  exact not_lt.mpr (by linarith)

end

end Rounding
