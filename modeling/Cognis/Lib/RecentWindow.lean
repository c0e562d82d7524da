import Mathlib.Data.List.Rotate
import Mathlib.Data.List.Sort
import Mathlib.Tactic.Common

/-! A ring that always overwrites its oldest entry, and order statistics of a list.
Read from the next slot to be written, the ring shows its window with the oldest
entry first. -/
namespace RecentWindow

variable {α : Type}

/-- The entries that a ring of `capacity` slots, each `blank` at first, holds after
`history`, oldest first. -/
def window (capacity : ℕ) (blank : α) (history : List α) : List α :=
  (List.replicate capacity blank ++ history).drop history.length

/-- The last `n` entries, or all if there are fewer. -/
def lastN (n : ℕ) (history : List α) : List α := history.drop (history.length - n)

theorem rotate_set_succ {l : List α} {i : ℕ} (inside : i < l.length) (x : α) :
    (l.set i x).rotate (i + 1) = (l.rotate i).tail ++ [x] := by
  have bound : i + 1 ≤ (l.set i x).length := by rwa [List.length_set]
  have front : (l.drop i ++ l.take i).tail = l.drop (i + 1) ++ l.take i := by
    rw [List.drop_eq_getElem_cons inside]
    rfl
  rw [List.rotate_eq_drop_append_take bound, List.rotate_eq_drop_append_take inside.le, front,
    List.drop_set_of_lt (Nat.lt_succ_self i), List.take_add_one,
    List.take_set_of_le (Nat.le_refl i), List.getElem?_set_self inside]
  simp

/-- One more entry drops the oldest. -/
theorem window_concat {capacity : ℕ} (blank : α) (history : List α) (x : α) :
    window capacity blank (history ++ [x]) = ((window capacity blank history) ++ [x]).tail := by
  have within : history.length ≤ (List.replicate capacity blank ++ history).length := by simp
  rw [window, window, ← List.append_assoc, List.length_append, List.length_singleton,
    ← List.drop_append_of_le_length within, List.tail_drop]

theorem length_window (capacity : ℕ) (blank : α) (history : List α) :
    (window capacity blank history).length = capacity := by simp [window]

/-- Writing slot `n mod capacity` for the `n`th entry keeps the window. -/
theorem rotate_set_window {slots history : List α} {capacity : ℕ} {blank : α} (x : α)
    (some_ : 0 < capacity) (full : slots.length = capacity)
    (shows : slots.rotate history.length = window capacity blank history) :
    (slots.set (history.length % capacity) x).rotate (history ++ [x]).length =
      window capacity blank (history ++ [x]) := by
  subst full
  have inside := Nat.mod_lt history.length some_
  have nonempty : window slots.length blank history ≠ [] :=
    List.ne_nil_of_length_pos (by rwa [length_window])
  have slot := rotate_set_succ inside x
  rw [List.rotate_mod, shows, ← List.tail_append_of_ne_nil nonempty, ← window_concat] at slot
  rw [← slot, List.length_append, List.length_singleton,
    ← List.rotate_mod _ (history.length + 1),
    ← List.rotate_mod _ (history.length % slots.length + 1), List.length_set, Nat.mod_add_mod]

/-- Without its blanks the window is what remains of the last entries. -/
theorem filter_window {p : α → Bool} {blank : α} (skipped : p blank = false) (capacity : ℕ)
    (history : List α) :
    (window capacity blank history).filter p = (lastN capacity history).filter p := by
  have blanks : ∀ n, (List.replicate n blank).filter p = [] := by
    intro n
    rw [List.filter_replicate, skipped]
    rfl
  rw [window, lastN, List.drop_append, List.filter_append, List.drop_replicate, blanks,
    List.length_replicate, List.nil_append]

section

variable [LinearOrder α]

/-- In a sorted list more than `i` entries are at most the one at `i`. -/
theorem lt_countP_getElem {l : List α} (sorted : l.Pairwise (· ≤ ·)) {i : ℕ}
    (inside : i < l.length) : i < l.countP (· ≤ l[i]) := by
  have upTo : ∀ x ∈ l.take (i + 1), x ≤ l[i] := by
    intro x member
    obtain ⟨j, below, rfl⟩ := List.mem_iff_getElem.mp member
    rw [List.length_take] at below
    rw [List.getElem_take]
    exact sorted.sortedLE.getElem_le_getElem_of_le (by omega)
  have front : (l.take (i + 1)).countP (· ≤ l[i]) = i + 1 := by
    rw [List.countP_eq_length.mpr fun x member => decide_eq_true (upTo x member), List.length_take]
    omega
  have part := (List.take_sublist (i + 1) l).countP_le (p := (· ≤ l[i]))
  omega

end

end RecentWindow
