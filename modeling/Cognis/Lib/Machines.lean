import Mathlib.Tactic.Common

/-! Machines that answer each operation. A machine simulates another if a relation between
their states is kept with equal answers. -/
namespace Machines

variable {σ τ ι ω : Type}

/-- The answers in order, and the last state. -/
def run (step : σ → ι → ω × σ) : σ → List ι → List ω × σ
  | s, [] => ([], s)
  | s, i :: is =>
    let (answer, s) := step s i
    let (answers, s) := run step s is
    (answer :: answers, s)

theorem run_cons (step : σ → ι → ω × σ) (s : σ) (i : ι) (is : List ι) :
    run step s (i :: is) =
      ((step s i).1 :: (run step (step s i).2 is).1, (run step (step s i).2 is).2) := rfl

theorem run_simulates {f : σ → ι → ω × σ} {g : τ → ι → ω × τ} {R : σ → τ → Prop}
    (step : ∀ s t i, R s t → (f s i).1 = (g t i).1 ∧ R (f s i).2 (g t i).2) {s : σ} {t : τ}
    (start : R s t) (is : List ι) :
    (run f s is).1 = (run g t is).1 ∧ R (run f s is).2 (run g t is).2 := by
  induction is generalizing s t with
  | nil => exact ⟨rfl, start⟩
  | cons i is ih =>
    obtain ⟨answer, next⟩ := step s t i start
    obtain ⟨answers, last⟩ := ih next
    rw [run_cons, run_cons, answer, answers]
    exact ⟨rfl, last⟩

end Machines
