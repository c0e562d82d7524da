import Mathlib.Order.Lattice
import Mathlib.Tactic.Common

/-! A running minimum over a list. The first candidate with the least key wins;
the characterization does not mention the running state. -/
namespace Selection

variable {α β : Type} [LinearOrder β] (key : α → β)

def keep (best : Option α) (c : α) : Option α :=
  match best with
  | none => some c
  | some b => if key c < key b then some c else some b

def select (best : Option α) (cs : List α) : Option α := cs.foldl (keep key) best

/-- Strictly ahead of everything before it, not behind anything after it. -/
def Leads (cs : List α) (c : α) : Prop :=
  ∃ before after, cs = before ++ c :: after ∧
    (∀ a ∈ before, key c < key a) ∧ ∀ a ∈ after, key c ≤ key a

theorem leads_mem {cs : List α} {c : α} (h : Leads key cs c) : c ∈ cs := by
  obtain ⟨before, after, rfl, _, _⟩ := h
  simp

theorem leads_least {cs : List α} {c : α} (h : Leads key cs c) : ∀ a ∈ cs, key c ≤ key a := by
  obtain ⟨before, after, rfl, hb, ha⟩ := h
  intro a member
  rcases List.mem_append.mp member with early | late
  · exact (hb a early).le
  · rcases List.mem_cons.mp late with rfl | late
    · exact le_rfl
    · exact ha a late

theorem leads_unique {cs : List α} {c d : α} (hc : Leads key cs c) (hd : Leads key cs d) :
    c = d := by
  obtain ⟨before, after, eq, hb, ha⟩ := hc
  obtain ⟨front, back, rfl, hf, hk⟩ := hd
  rcases List.append_eq_append_iff.mp eq with ⟨gap, rfl, rest⟩ | ⟨gap, rfl, rest⟩
  · cases gap with
    | nil => exact (List.cons.inj rest).1.symm
    | cons x gap =>
      obtain ⟨rfl, rfl⟩ := List.cons.inj rest
      have ahead := hb d (by simp)
      exact absurd (hk c (by simp)) (not_le.mpr ahead)
  · cases gap with
    | nil => exact (List.cons.inj rest).1
    | cons x gap =>
      obtain ⟨rfl, rfl⟩ := List.cons.inj rest
      have ahead := hf c (by simp)
      exact absurd (ha d (by simp)) (not_le.mpr ahead)

theorem select_leads (cs seen : List α) (best : Option α)
    (initial : match best with | none => seen = [] | some b => Leads key seen b) :
    match select key best cs with
    | none => seen ++ cs = []
    | some c => Leads key (seen ++ cs) c := by
  induction cs generalizing seen best with
  | nil => cases best <;> simpa [select] using initial
  | cons x cs ih =>
    have next : seen ++ x :: cs = (seen ++ [x]) ++ cs := by simp
    rw [next]
    apply ih (seen ++ [x]) (keep key best x)
    cases best with
    | none =>
      have empty : seen = [] := initial
      subst empty
      exact ⟨[], [], rfl, by simp, by simp⟩
    | some b =>
      have least := leads_least key initial
      by_cases ahead : key x < key b
      · simp only [keep, if_pos ahead]
        exact ⟨seen, [], rfl, fun a ha => lt_of_lt_of_le ahead (least a ha), by simp⟩
      · simp only [keep, if_neg ahead]
        obtain ⟨before, after, rfl, hb, ha⟩ := initial
        refine ⟨before, after ++ [x], by simp, hb, ?_⟩
        intro a member
        rcases List.mem_append.mp member with old | new
        · exact ha a old
        · have eq : a = x := by simpa using new
          exact eq ▸ not_lt.mp ahead

theorem select_eq_none_iff (cs : List α) : select key none cs = none ↔ cs = [] := by
  have h := select_leads key cs [] none rfl
  constructor
  · intro none
    simpa only [none, List.nil_append] using h
  · rintro rfl
    rfl

theorem select_eq_some_iff (cs : List α) (c : α) :
    select key none cs = some c ↔ Leads key cs c := by
  have h := select_leads key cs [] none rfl
  constructor
  · intro chosen
    simpa only [chosen, List.nil_append] using h
  · intro leads
    cases chosen : select key none cs with
    | none =>
      have empty := (select_eq_none_iff key cs).mp chosen
      subst empty
      exact absurd (leads_mem key leads) List.not_mem_nil
    | some d =>
      rw [chosen] at h
      exact congrArg some (leads_unique key (by simpa using h) leads)

theorem exists_leads {cs : List α} (nonempty : cs ≠ []) : ∃ c, Leads key cs c := by
  cases chosen : select key none cs with
  | none => exact absurd ((select_eq_none_iff key cs).mp chosen) nonempty
  | some c => exact ⟨c, (select_eq_some_iff key cs c).mp chosen⟩

/-- Only the order of the keys matters. -/
theorem select_congr {γ : Type} [LinearOrder γ] {key' : α → γ} {cs : List α}
    (same : ∀ a ∈ cs, ∀ b ∈ cs, key' a < key' b ↔ key a < key b) :
    select key' none cs = select key none cs := by
  apply Option.ext
  intro c
  rw [select_eq_some_iff, select_eq_some_iff]
  constructor
  · rintro ⟨before, after, rfl, ahead, behind⟩
    refine ⟨before, after, rfl, fun a early => ?_, fun a late => ?_⟩
    · exact (same c (by simp) a (by simp [early])).mp (ahead a early)
    · exact not_lt.mp fun less =>
        absurd ((same a (by simp [late]) c (by simp)).mpr less) (not_lt.mpr (behind a late))
  · rintro ⟨before, after, rfl, ahead, behind⟩
    refine ⟨before, after, rfl, fun a early => ?_, fun a late => ?_⟩
    · exact (same c (by simp) a (by simp [early])).mpr (ahead a early)
    · exact not_lt.mp fun less =>
        absurd ((same a (by simp [late]) c (by simp)).mp less) (not_lt.mpr (behind a late))

end Selection
