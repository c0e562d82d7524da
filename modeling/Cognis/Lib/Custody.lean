import Mathlib.Algebra.BigOperators.Group.Finset.Basic
import Mathlib.Data.List.Perm.Basic
import Mathlib.Logic.Function.Basic

/-! A family of queues that holds each element of a set once, and nothing else. The set
may grow by an insertion and shrink by a removal; a move keeps it. -/
namespace Custody

variable {κ α : Type} [DecidableEq κ] [DecidableEq α]

/-- `a` waits once in the queue `q`, and in no other. -/
def Placed (queues : κ → List α) (a : α) (q : κ) : Prop :=
  ∀ r, (queues r).count a = if r = q then 1 else 0

def Absent (queues : κ → List α) (a : α) : Prop := ∀ r, a ∉ queues r

/-- The elements that `owned` marks have one place each, the others none. -/
structure Kept (owned : α → Prop) (queues : κ → List α) : Prop where
  placed : ∀ a, owned a → ∃ q, Placed queues a q
  absent : ∀ a, ¬ owned a → Absent queues a

variable {owned owned' : α → Prop} {queues : κ → List α} {a : α} {q r : κ}

theorem kept_empty (none : ∀ a, ¬ owned a) : Kept owned fun _ : κ => ([] : List α) :=
  ⟨fun a marked => absurd marked (none a), fun _ _ _ => List.not_mem_nil⟩

theorem Kept.congr (kept : Kept owned queues) (same : ∀ a, owned a ↔ owned' a) :
    Kept owned' queues :=
  ⟨fun a marked => kept.placed a ((same a).mpr marked),
    fun a unmarked => kept.absent a (mt (same a).mp unmarked)⟩

theorem Kept.owned_of_mem (kept : Kept owned queues) (member : a ∈ queues q) : owned a := by
  by_contra unmarked
  exact kept.absent a unmarked q member

theorem Kept.placed_of_mem (kept : Kept owned queues) (member : a ∈ queues q) :
    Placed queues a q := by
  obtain ⟨r, home⟩ := kept.placed a (kept.owned_of_mem member)
  by_cases same : q = r
  · exact same ▸ home
  · have nowhere := home q
    rw [if_neg same] at nowhere
    exact absurd member (List.count_eq_zero.mp nowhere)

/-- A queue that changes by other elements only leaves the place of `a` alone. -/
theorem count_update {b : α} {qs : List α} (same : qs.count b = (queues q).count b) (r : κ) :
    (Function.update queues q qs r).count b = (queues r).count b := by
  by_cases here : r = q
  · rw [here, Function.update_self, same]
  · rw [Function.update_of_ne here]

theorem Placed.update {b : α} {qs : List α} (home : Placed queues b r)
    (same : qs.count b = (queues q).count b) : Placed (Function.update queues q qs) b r :=
  fun s => (count_update same s).trans (home s)

theorem Absent.update {b : α} {qs : List α} (none : Absent queues b)
    (same : qs.count b = (queues q).count b) : Absent (Function.update queues q qs) b := by
  intro r
  rw [← List.count_eq_zero, count_update same, List.count_eq_zero]
  exact none r

theorem Kept.insert (kept : Kept owned queues) (outside : ¬ owned a) {qs : List α}
    (added : qs.Perm (a :: queues q)) :
    Kept (fun b => b = a ∨ owned b) (Function.update queues q qs) := by
  have others : ∀ b, b ≠ a → qs.count b = (queues q).count b := by
    intro b other
    rw [added.count_eq, List.count_cons_of_ne (Ne.symm other)]
  constructor
  · rintro b (rfl | marked)
    · refine ⟨q, fun r => ?_⟩
      have before := List.count_eq_zero.mpr (kept.absent b outside r)
      by_cases here : r = q
      · rw [here] at before
        rw [if_pos here, here, Function.update_self, added.count_eq, List.count_cons_self, before]
      · rw [if_neg here, Function.update_of_ne here, before]
    · obtain ⟨r, home⟩ := kept.placed b marked
      have other : b ≠ a := fun same => outside (same ▸ marked)
      exact ⟨r, home.update (others b other)⟩
  · intro b unmarked
    obtain ⟨other, free⟩ := not_or.mp unmarked
    exact (kept.absent b free).update (others b other)

theorem Kept.remove (kept : Kept owned queues) (member : a ∈ queues q) :
    Kept (fun b => b ≠ a ∧ owned b) (Function.update queues q ((queues q).erase a)) := by
  have others : ∀ b, b ≠ a → ((queues q).erase a).count b = (queues q).count b :=
    fun b other => List.count_erase_of_ne other
  constructor
  · rintro b ⟨other, marked⟩
    obtain ⟨r, home⟩ := kept.placed b marked
    exact ⟨r, home.update (others b other)⟩
  · intro b unmarked
    by_cases same : b = a
    · subst same
      intro r
      have home := kept.placed_of_mem member r
      by_cases here : r = q
      · rw [if_pos here, here] at home
        rw [here, Function.update_self, ← List.count_eq_zero, List.count_erase_self, home]
      · rw [if_neg here] at home
        rw [Function.update_of_ne here]
        exact List.count_eq_zero.mp home
    · have free : ¬ owned b := fun marked => unmarked ⟨same, marked⟩
      exact (kept.absent b free).update (others b same)

theorem Kept.move (kept : Kept owned queues) (member : a ∈ queues q) (apart : r ≠ q)
    {qs : List α} (added : qs.Perm (a :: queues r)) :
    Kept owned (Function.update (Function.update queues q ((queues q).erase a)) r qs) := by
  have out := kept.remove member
  have elsewhere : Function.update queues q ((queues q).erase a) r = queues r :=
    Function.update_of_ne apart ..
  have back := out.insert (fun marked => marked.1 rfl) (elsewhere.symm ▸ added)
  refine back.congr fun b => ⟨?_, fun marked => ?_⟩
  · rintro (rfl | marked)
    · exact kept.owned_of_mem member
    · exact marked.2
  · by_cases same : b = a
    · exact .inl same
    · exact .inr ⟨same, marked⟩

/-- How many elements the queues `qs` hold. -/
def load (qs : Finset κ) (queues : κ → List α) : ℕ := qs.sum fun q => (queues q).length

omit [DecidableEq α] [DecidableEq κ] in
theorem load_eq_zero {qs : Finset κ} : load qs queues = 0 ↔ ∀ q ∈ qs, queues q = [] := by
  rw [load, Finset.sum_eq_zero_iff]
  exact forall₂_congr fun _ _ => List.length_eq_zero_iff

/-- An element goes from one of the queues to one outside. -/
theorem load_take {qs : Finset κ} (inside : q ∈ qs) (outside : r ∉ qs) (member : a ∈ queues q)
    (xs : List α) :
    load qs (Function.update (Function.update queues q ((queues q).erase a)) r xs) + 1 =
      load qs queues := by
  have unseen : load qs (Function.update (Function.update queues q ((queues q).erase a)) r xs) =
      load qs (Function.update queues q ((queues q).erase a)) :=
    Finset.sum_congr rfl fun s known => by
      have other : s ≠ r := fun same => outside (same ▸ known)
      rw [Function.update_of_ne other]
  have others : (qs.erase q).sum
      (fun s => (Function.update queues q ((queues q).erase a) s).length) =
        (qs.erase q).sum fun s => (queues s).length :=
    Finset.sum_congr rfl fun s known => by
      rw [Function.update_of_ne (Finset.ne_of_mem_erase known)]
  have shorter := List.length_erase_add_one member
  rw [unseen, load, load, ← Finset.add_sum_erase qs _ inside, ← Finset.add_sum_erase qs _ inside,
    others, Function.update_self]
  omega

/-- How many of the first `n` cells hold an element that `counts`. -/
def occupied (counts : α → Bool) (cells : Nat → Option α) (n : Nat) : Nat :=
  (List.range n).countP fun c => (cells c).any counts

omit [DecidableEq α] in
theorem occupied_le (counts : α → Bool) (cells : Nat → Option α) (n : Nat) :
    occupied counts cells n ≤ n := by
  have bound := List.countP_le_length (p := fun c => (cells c).any counts) (l := List.range n)
  rwa [List.length_range] at bound

omit [DecidableEq α] in
/-- A new content of one cell, against the old one. -/
theorem occupied_update (counts : α → Bool) (cells : Nat → Option α) {c n : Nat} (inside : c < n)
    (x : Option α) :
    occupied counts (Function.update cells c x) n + ((cells c).any counts).toNat =
      occupied counts cells n + (x.any counts).toNat := by
  have count : ∀ cells : Nat → Option α, ∀ n, occupied counts cells (n + 1) =
      occupied counts cells n + ((cells n).any counts).toNat := by
    intro cells n
    rw [occupied, List.range_succ, List.countP_append, List.countP_singleton, occupied]
    cases (cells n).any counts <;> rfl
  have beyond : ∀ n, n ≤ c → occupied counts (Function.update cells c x) n =
      occupied counts cells n := by
    intro n low
    apply List.countP_congr
    intro d member
    have other : d ≠ c := by
      have below := List.mem_range.mp member
      omega
    rw [Function.update_of_ne other]
  induction n with
  | zero => cases inside
  | succ n ih =>
    rw [count, count]
    by_cases last : c = n
    · rw [beyond n (Nat.le_of_eq last.symm), ← last, Function.update_self]
      omega
    · have before := ih (by omega)
      rw [Function.update_of_ne (Ne.symm last)]
      omega

end Custody
