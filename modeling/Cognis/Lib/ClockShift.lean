import Mathlib.Data.Prod.Lex
import Mathlib.Data.BitVec
import Cognis.Lib.Selection

/-! Moving every time on a wrapping clock by the same amount. The numbers keep their
order as long as the move takes all of them past the end of the clock, or none. -/
namespace ClockShift

variable {w : Nat}

/-- Adding `c` takes `x` past the end of the clock. -/
def Carries (c x : BitVec w) : Prop := 2 ^ w ≤ x.toNat + c.toNat

theorem toNat_add_of_carries {c x : BitVec w} (carries : Carries c x) :
    (x + c).toNat = x.toNat + c.toNat - 2 ^ w := by
  have bound := x.isLt
  have bound' := c.isLt
  rw [Carries] at carries
  rw [BitVec.toNat_add, Nat.mod_eq_sub_mod carries, Nat.mod_eq_of_lt (by omega)]

theorem toNat_add_of_not_carries {c x : BitVec w} (fits : ¬ Carries c x) :
    (x + c).toNat = x.toNat + c.toNat := by
  rw [BitVec.toNat_add, Nat.mod_eq_of_lt (not_le.mp fits)]

theorem add_lt_add_iff {c x y : BitVec w} (alike : Carries c x ↔ Carries c y) :
    (x + c).toNat < (y + c).toNat ↔ x.toNat < y.toNat := by
  by_cases carries : Carries c x
  · have carries' := alike.mp carries
    rw [toNat_add_of_carries carries, toNat_add_of_carries carries']
    rw [Carries] at carries carries'
    omega
  · rw [toNat_add_of_not_carries carries, toNat_add_of_not_carries (mt alike.mpr carries)]
    omega

/-- A number that carries was greater and becomes smaller. -/
theorem swapped {c x y : BitVec w} (carries : Carries c x) (fits : ¬ Carries c y) :
    y.toNat < x.toNat ∧ (x + c).toNat < (y + c).toNat := by
  have bound := x.isLt
  rw [toNat_add_of_carries carries, toNat_add_of_not_carries fits]
  rw [Carries] at carries fits
  omega

section

variable {α τ : Type} [LinearOrder τ]

/-- Least time first, read as a plain number; `tie` decides between equal times. -/
def earliestKey (time : α → BitVec w) (tie : α → τ) (a : α) : ℕ ×ₗ τ :=
  toLex ((time a).toNat, tie a)

theorem earliestKey_lt {time : α → BitVec w} {tie : α → τ} {a b : α} :
    earliestKey time tie a < earliestKey time tie b ↔
      (time a).toNat < (time b).toNat ∨ time a = time b ∧ tie a < tie b := by
  simp only [earliestKey, Prod.Lex.toLex_lt_toLex, BitVec.toNat_inj]

variable (time : α → BitVec w) (tie : α → τ) (c : BitVec w) (cs : List α)

/-- The choice survives the move exactly when all the times carry alike. -/
theorem select_add_iff :
    Selection.select (earliestKey (fun a => time a + c) tie) none cs =
        Selection.select (earliestKey time tie) none cs ↔
      ∀ a ∈ cs, ∀ b ∈ cs, Carries c (time a) ↔ Carries c (time b) := by
  constructor
  · intro same a first b second
    by_contra unlike
    -- one of the two carries: the least before the move does not, the least after it does
    wlog carries : Carries c (time a) generalizing a b
    · exact this b second a first (fun h => unlike h.symm) (by tauto)
    have fits : ¬ Carries c (time b) := by tauto
    obtain ⟨d, leads⟩ := Selection.exists_leads (earliestKey time tie) (List.ne_nil_of_mem first)
    have chosen := (Selection.select_eq_some_iff _ _ _).mpr leads
    have leads' := (Selection.select_eq_some_iff _ _ _).mp (same.trans chosen)
    by_cases late : Carries c (time d)
    · have least := Selection.leads_least _ leads b second
      exact absurd (earliestKey_lt.mpr (.inl (swapped late fits).1)) (not_lt.mpr least)
    · have least := Selection.leads_least _ leads' a first
      exact absurd (earliestKey_lt.mpr (.inl (swapped carries late).2)) (not_lt.mpr least)
  · intro alike
    apply Selection.select_congr
    intro a first b second
    rw [earliestKey_lt, earliestKey_lt, add_lt_add_iff (alike a first b second),
      BitVec.add_left_inj]

end

end ClockShift
