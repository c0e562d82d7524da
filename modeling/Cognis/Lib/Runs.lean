import Mathlib.Logic.Relation

/-! Runs of a labelled transition system. What one step keeps, a run keeps. -/
namespace Runs

variable {σ ι : Type}

inductive Run (step : σ → ι → σ → Prop) : σ → List ι → σ → Prop
  | nil (s : σ) : Run step s [] s
  | cons {s t u : σ} {l : ι} {ls : List ι} :
      step s l t → Run step t ls u → Run step s (l :: ls) u

variable {step : σ → ι → σ → Prop}

theorem Run.append {s t u : σ} {ls ms : List ι} (first : Run step s ls t)
    (second : Run step t ms u) : Run step s (ls ++ ms) u := by
  induction first with
  | nil _ => exact second
  | cons now _ ih => exact .cons now (ih second)

theorem Run.single {s t : σ} {l : ι} (now : step s l t) : Run step s [l] t :=
  .cons now (.nil t)

theorem run_append_iff {s u : σ} {ls ms : List ι} :
    Run step s (ls ++ ms) u ↔ ∃ t, Run step s ls t ∧ Run step t ms u := by
  constructor
  · intro run
    induction ls generalizing s with
    | nil => exact ⟨s, .nil s, run⟩
    | cons l ls ih =>
      cases run with
      | cons now rest =>
        obtain ⟨t, left, right⟩ := ih rest
        exact ⟨t, .cons now left, right⟩
  · rintro ⟨t, first, second⟩
    exact first.append second

theorem Run.unique (functional : ∀ s l t u, step s l t → step s l u → t = u) {s t u : σ}
    {ls : List ι} (run : Run step s ls t) (other : Run step s ls u) : t = u := by
  induction run with
  | nil _ =>
    cases other
    rfl
  | cons now _ ih =>
    cases other with
    | cons now' rest => exact ih (functional _ _ _ _ now now' ▸ rest)

/-- The labels of the run may be restricted to those that `P` allows. -/
theorem Run.keeps {I : σ → Prop} {P : ι → Prop}
    (kept : ∀ s l t, P l → step s l t → I s → I t) {s t : σ} {ls : List ι}
    (run : Run step s ls t) (labels : ∀ l ∈ ls, P l) (start : I s) : I t := by
  induction run with
  | nil _ => exact start
  | cons now _ ih =>
    obtain ⟨first, rest⟩ := List.forall_mem_cons.mp labels
    exact ih rest (kept _ _ _ first now start)

/-- Properties of steps that agree wherever the invariant holds are kept along the same
runs. -/
theorem restricted_run_iff {I : σ → Prop} {P Q : σ → ι → σ → Prop}
    (kept : ∀ s l t, step s l t → I s → I t)
    (agree : ∀ s l t, I s → step s l t → (P s l t ↔ Q s l t)) {s t : σ} {ls : List ι}
    (start : I s) :
    Run (fun s l t => step s l t ∧ P s l t) s ls t ↔
      Run (fun s l t => step s l t ∧ Q s l t) s ls t := by
  constructor
  · intro run
    induction run with
    | nil _ => exact .nil _
    | cons now _ ih =>
      exact .cons ⟨now.1, (agree _ _ _ start now.1).mp now.2⟩ (ih (kept _ _ _ now.1 start))
  · intro run
    induction run with
    | nil _ => exact .nil _
    | cons now _ ih =>
      exact .cons ⟨now.1, (agree _ _ _ start now.1).mpr now.2⟩ (ih (kept _ _ _ now.1 start))

/-- What every update keeps, any number of them keeps. -/
theorem updates_keep {r : σ → σ → Prop} {I : σ → Prop} (kept : ∀ s t, r s t → I s → I t)
    {s t : σ} (updates : Relation.ReflTransGen r s t) (start : I s) : I t := by
  induction updates with
  | refl => exact start
  | tail _ now ih => exact kept _ _ now ih

end Runs
