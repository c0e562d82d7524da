import Mathlib.Data.List.Nodup
import Mathlib.Data.List.Perm.Subperm

/-! First-seen numbering: a key gets the next free number when it is first met. -/
namespace Numbering

variable {α : Type}

/-- The keys met so far with their numbers, latest first. -/
structure Table (α : Type) where
  entries : List (α × Nat)
  next : Nat

def Table.empty : Table α := ⟨[], 0⟩

/-- The counter stays at `limit` once it is there. -/
def Table.number [DecidableEq α] (limit : Nat) (t : Table α) (a : α) : Nat × Table α :=
  match t.entries.lookup a with
  | some i => (i, t)
  | none => (t.next, ⟨(a, t.next) :: t.entries, min (t.next + 1) limit⟩)

/-- The numbers in use are the first ones, each for one key of `domain`. -/
structure Table.Compact (domain : List α) (t : Table α) : Prop where
  keys_nodup : (t.entries.map Prod.fst).Nodup
  keys_subset : t.entries.map Prod.fst ⊆ domain
  numbers : t.entries.map Prod.snd = (List.range t.next).reverse

namespace Table

variable {domain : List α} {t : Table α}

theorem compact_empty : (empty : Table α).Compact domain :=
  ⟨List.nodup_nil, List.nil_subset domain, rfl⟩

theorem Compact.length_entries (compact : t.Compact domain) : t.entries.length = t.next := by
  simpa using congrArg List.length compact.numbers

theorem Compact.next_le (compact : t.Compact domain) : t.next ≤ domain.length := by
  have fits := (compact.keys_nodup.subperm compact.keys_subset).length_le
  rwa [List.length_map, compact.length_entries] at fits

variable [DecidableEq α]

theorem mem_of_lookup {entries : List (α × Nat)} {a : α} {i : Nat}
    (found : entries.lookup a = some i) : (a, i) ∈ entries := by
  obtain ⟨front, rest, rfl, _⟩ := List.lookup_eq_some_iff.mp found
  exact List.mem_append_right _ List.mem_cons_self

theorem not_mem_of_lookup {entries : List (α × Nat)} {a : α} (none : entries.lookup a = none) :
    a ∉ entries.map Prod.fst := by
  intro member
  obtain ⟨e, stored, rfl⟩ := List.mem_map.mp member
  simpa using List.lookup_eq_none_iff.mp none e stored

theorem Compact.lookup_lt (compact : t.Compact domain) {a : α} {i : Nat}
    (found : t.entries.lookup a = some i) : i < t.next := by
  have used := List.mem_map_of_mem (f := Prod.snd) (mem_of_lookup found)
  rw [compact.numbers] at used
  simpa using used

theorem Compact.lookup_injective (compact : t.Compact domain) {a b : α} {i : Nat}
    (first : t.entries.lookup a = some i) (second : t.entries.lookup b = some i) : a = b := by
  have nodup : (t.entries.map Prod.snd).Nodup := by
    rw [compact.numbers]
    exact List.nodup_reverse.mpr List.nodup_range
  have same := List.inj_on_of_nodup_map nodup (mem_of_lookup first) (mem_of_lookup second) rfl
  exact (Prod.mk.inj same).1

/-- The result of a numbering step, and what it keeps. -/
structure Numbered (domain : List α) (t : Table α) (a : α) (result : Nat × Table α) : Prop where
  compact : result.2.Compact domain
  found : result.2.entries.lookup a = some result.1
  mono : t.next ≤ result.2.next
  kept : ∀ b i, t.entries.lookup b = some i → result.2.entries.lookup b = some i

theorem Compact.number (compact : t.Compact domain) (limit : Nat) {a : α} (member : a ∈ domain)
    (room : domain.length < limit) : Numbered domain t a (t.number limit a) := by
  unfold Table.number
  cases found : t.entries.lookup a with
  | some i => exact ⟨compact, found, Nat.le_refl _, fun _ _ => id⟩
  | none =>
    have free : min (t.next + 1) limit = t.next + 1 := by
      have used := compact.next_le
      omega
    have new := not_mem_of_lookup found
    refine ⟨⟨List.nodup_cons.mpr ⟨new, compact.keys_nodup⟩,
      List.cons_subset.mpr ⟨member, compact.keys_subset⟩, ?_⟩, by simp, ?_, ?_⟩
    · simp only [free, List.map_cons, compact.numbers, List.range_succ, List.reverse_append,
        List.reverse_singleton, List.singleton_append]
    · simp only [free]
      omega
    · intro b i stored
      have other : (b == a) = false := by
        apply beq_eq_false_iff_ne.mpr
        intro same
        rw [same, found] at stored
        cases stored
      rw [List.lookup_cons, other]
      exact stored

theorem number_keys (t : Table α) (limit : Nat) (a : α) :
    ∀ key ∈ (t.number limit a).2.entries.map Prod.fst,
      key = a ∨ key ∈ t.entries.map Prod.fst := by
  intro key stored
  unfold Table.number at stored
  cases found : t.entries.lookup a with
  | some i =>
    rw [found] at stored
    exact .inr stored
  | none =>
    rw [found] at stored
    exact List.mem_cons.mp stored

theorem Compact.exists_lookup (compact : t.Compact domain) {i : Nat} (used : i < t.next) :
    ∃ a ∈ t.entries.map Prod.fst, t.entries.lookup a = some i := by
  have number : i ∈ t.entries.map Prod.snd := by
    rw [compact.numbers]
    simpa using used
  obtain ⟨⟨a, _⟩, stored, rfl⟩ := List.mem_map.mp number
  have key : a ∈ t.entries.map Prod.fst := List.mem_map_of_mem (f := Prod.fst) stored
  refine ⟨a, key, ?_⟩
  cases found : t.entries.lookup a with
  | none => exact absurd key (not_mem_of_lookup found)
  | some j =>
    have same := List.inj_on_of_nodup_map compact.keys_nodup (mem_of_lookup found) stored rfl
    exact congrArg (fun e => some e.2) same

end Table

end Numbering
