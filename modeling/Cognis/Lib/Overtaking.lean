import Mathlib.Data.List.Basic
import Cognis.Lib.Runs

/-! Who stands in front of whom in a queue. What is taken from the front while an element
waits comes out of a stock, and a run cannot spend more than the stock it starts with. -/
namespace Overtaking
open Runs

section

variable {α : Type} [DecidableEq α] {a u : α} {qs : List α}

def ahead (u : α) (qs : List α) : List α := qs.takeWhile (· ≠ u)

theorem ahead_cons_self : ahead u (u :: qs) = [] := by simp [ahead]

theorem ahead_cons_of_ne (other : a ≠ u) : ahead u (a :: qs) = a :: ahead u qs := by
  simp [ahead, other]

theorem ahead_split (waits : u ∈ qs) : ∃ rest, qs = ahead u qs ++ u :: rest := by
  induction qs with
  | nil => cases waits
  | cons b qs ih =>
    by_cases here : b = u
    · exact ⟨qs, by rw [here, ahead_cons_self, List.nil_append]⟩
    · obtain ⟨rest, split⟩ := ih ((List.mem_cons.mp waits).resolve_left (Ne.symm here))
      exact ⟨rest, by rw [ahead_cons_of_ne here, List.cons_append, ← split]⟩

theorem ahead_erase (other : a ≠ u) : ahead u (qs.erase a) = (ahead u qs).erase a := by
  induction qs with
  | nil => rfl
  | cons b qs ih =>
    by_cases here : b = u
    · have apart : b ≠ a := fun same => other (same ▸ here)
      rw [List.erase_cons_tail (by simpa using apart), here, ahead_cons_self, ahead_cons_self]
      rfl
    by_cases found : b = a
    · rw [found, List.erase_cons_head, ahead_cons_of_ne other, List.erase_cons_head]
    · rw [List.erase_cons_tail (by simpa using found), ahead_cons_of_ne here, ih,
        ahead_cons_of_ne here, List.erase_cons_tail (by simpa using found)]

/-- A search that would accept `u` ends at `u` or in front of it. -/
theorem mem_ahead_of_find? {fits : α → Bool} (first : qs.find? fits = some a) (waits : u ∈ qs)
    (allowed : fits u = true) (other : a ≠ u) : a ∈ ahead u qs := by
  induction qs with
  | nil => cases waits
  | cons b qs ih =>
    by_cases here : b = u
    · rw [here, List.find?_cons_of_pos allowed] at first
      exact absurd (Option.some.inj first).symm other
    rw [ahead_cons_of_ne here]
    cases accepts : fits b with
    | true =>
      rw [List.find?_cons_of_pos accepts] at first
      exact Option.some.inj first ▸ List.mem_cons_self
    | false =>
      rw [List.find?_cons_of_neg (by simp [accepts])] at first
      have later := (List.mem_cons.mp waits).resolve_left (Ne.symm here)
      exact List.mem_cons_of_mem b (ih first later)

end

section

variable {σ ι : Type} {step mark : σ → ι → σ → Prop}

/-- Steps with a flag that tells whether `mark` holds of them. -/
def Marked (step mark : σ → ι → σ → Prop) (s : σ) (l : ι × Bool) (t : σ) : Prop :=
  step s l.1 t ∧ (l.2 = true ↔ mark s l.1 t)

/-- No step adds to the stock `left`, and each marked one takes from it. -/
theorem marked_le {I : σ → Prop} (left : σ → Nat) (kept : ∀ s i t, step s i t → I s → I t)
    (never_more : ∀ s i t, step s i t → I s → left t ≤ left s)
    (takes : ∀ s i t, step s i t → I s → mark s i t → left t < left s) {s t : σ}
    {ls : List (ι × Bool)} (run : Run (Marked step mark) s ls t) (start : I s) :
    ls.countP Prod.snd + left t ≤ left s := by
  induction run with
  | nil s => simp
  | @cons s t u l ls now _ ih =>
    have rest := ih (kept s l.1 t now.1 start)
    rw [List.countP_cons]
    cases flag : l.2 with
    | true =>
      have taken := takes s l.1 t now.1 start (now.2.mp flag)
      rw [if_pos rfl]
      omega
    | false =>
      have same := never_more s l.1 t now.1 start
      rw [if_neg Bool.false_ne_true]
      omega

theorem Marked.keeps {I : σ → Prop} (kept : ∀ s i t, step s i t → I s → I t) {s t : σ}
    {ls : List (ι × Bool)} (run : Run (Marked step mark) s ls t) (start : I s) : I t :=
  run.keeps (P := fun _ => True) (fun s l t _ now => kept s l.1 t now.1) (fun _ _ => trivial) start

end

end Overtaking
