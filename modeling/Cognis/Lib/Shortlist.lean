import Mathlib.Data.Finset.Max
import Mathlib.Data.List.Count
import Mathlib.Data.List.Perm.Basic
import Mathlib.Order.Lattice
import Mathlib.Tactic.Common

/-! A shortlist of bounded length filled in one pass. Once it is full, a candidate takes
the place of the first kept entry above it, which need not be the greatest one. The last
theorem says for which sequences the least candidates are kept all the same. -/
namespace Shortlist

variable {α β : Type} [LinearOrder β] (key : α → β)

/-- Swap with the first kept entry above `x`; without one, `x` is passed over. -/
def displace : List α → α → List α
  | [], _ => []
  | e :: out, x => if key x < key e then x :: out else e :: displace out x

def ousted : List α → α → α
  | [], x => x
  | e :: out, x => if key x < key e then e else ousted out x

def offer (k : Nat) (out : List α) (x : α) : List α :=
  if out.length < k then out ++ [x] else displace key out x

def shortlist (k : Nat) (cs : List α) : List α := cs.foldl (offer key k) []

def settle (out late : List α) : List α := late.foldl (displace key) out

def passedOver (out : List α) : List α → List α
  | [] => []
  | x :: late => ousted key out x :: passedOver (displace key out x) late

@[simp] theorem displace_length (out : List α) (x : α) :
    (displace key out x).length = out.length := by
  induction out with
  | nil => rfl
  | cons e out ih =>
    simp only [displace]
    split
    · rfl
    · exact congrArg (· + 1) ih

/-- As the entry at the first index that is above `x`. -/
theorem displace_eq_set (out : List α) (x : α) :
    displace key out x = match out.findIdx? fun e => decide (key x < key e) with
      | some i => out.set i x
      | none => out := by
  induction out with
  | nil => rfl
  | cons e out ih =>
    simp only [displace, List.findIdx?_cons, decide_eq_true_eq]
    split
    · rfl
    · rw [ih]
      cases out.findIdx? fun e => decide (key x < key e) <;> rfl

theorem ousted_perm (out : List α) (x : α) :
    (ousted key out x :: displace key out x).Perm (x :: out) := by
  induction out with
  | nil => exact .refl _
  | cons e out ih =>
    simp only [ousted, displace]
    split
    · exact .swap _ _ _
    · exact (List.Perm.swap _ _ _).trans ((ih.cons e).trans (.swap _ _ _))

theorem ousted_ge (out : List α) (x : α) : key x ≤ key (ousted key out x) := by
  induction out with
  | nil => exact le_rfl
  | cons e out ih =>
    simp only [ousted]
    split
    · rename_i above
      exact above.le
    · exact ih

@[simp] theorem settle_length (out late : List α) : (settle key out late).length = out.length := by
  induction late generalizing out with
  | nil => rfl
  | cons x late ih => exact (ih _).trans (displace_length key out x)

theorem settle_perm (out late : List α) :
    (settle key out late ++ passedOver key out late).Perm (out ++ late) := by
  induction late generalizing out with
  | nil => exact .refl _
  | cons x late ih =>
    have step := (ih (displace key out x)).cons (ousted key out x)
    have swapped := (ousted_perm key out x).append_right late
    exact List.perm_middle.trans (step.trans (swapped.trans List.perm_middle.symm))

theorem foldl_offer_full (k : Nat) (cs : List α) (out : List α) (full : out.length = k) :
    cs.foldl (offer key k) out = settle key out cs := by
  induction cs generalizing out with
  | nil => rfl
  | cons x cs ih =>
    have step : offer key k out x = displace key out x := if_neg (by omega)
    rw [List.foldl_cons, step, ih _ (by simpa using full)]
    rfl

theorem foldl_offer_short (k : Nat) (cs out : List α) (room : out.length + cs.length ≤ k) :
    cs.foldl (offer key k) out = out ++ cs := by
  induction cs generalizing out with
  | nil => simp
  | cons x cs ih =>
    have step : offer key k out x = out ++ [x] := if_pos (by simp at room; omega)
    rw [List.foldl_cons, step, ih _ (by simp at room ⊢; omega)]
    simp

theorem shortlist_eq (k : Nat) (cs : List α) :
    shortlist key k cs = settle key (cs.take k) (cs.drop k) := by
  have split : cs = cs.take k ++ cs.drop k := (List.take_append_drop k cs).symm
  have filled : (cs.take k).foldl (offer key k) [] = cs.take k := by
    simpa using foldl_offer_short key k (cs.take k) [] (by simp)
  unfold shortlist
  conv_lhs => rw [split]
  rw [List.foldl_append, filled]
  rcases le_total k cs.length with long | short
  · exact foldl_offer_full key k _ _ (by simpa using long)
  · rw [List.drop_eq_nil_of_le short]
    rfl

theorem displace_map {γ : Type} (f : γ → α) (out : List γ) (x : γ) :
    displace key (out.map f) (f x) = (displace (fun c => key (f c)) out x).map f := by
  induction out with
  | nil => rfl
  | cons e out ih =>
    simp only [List.map_cons, displace]
    split
    · rfl
    · rw [ih, List.map_cons]

theorem shortlist_map {γ : Type} (f : γ → α) (k : Nat) (cs : List γ) :
    shortlist key k (cs.map f) = (shortlist (fun c => key (f c)) k cs).map f := by
  have step : ∀ out x, offer key k (out.map f) (f x) =
      (offer (fun c => key (f c)) k out x).map f := by
    intro out x
    unfold offer
    rw [List.length_map, displace_map]
    split
    · simp
    · rfl
  have fold : ∀ (cs out : List γ), (cs.map f).foldl (offer key k) (out.map f) =
      (cs.foldl (offer (fun c => key (f c)) k) out).map f := by
    intro cs
    induction cs with
    | nil => exact fun _ => rfl
    | cons x cs ih =>
      intro out
      rw [List.map_cons, List.foldl_cons, List.foldl_cons, step, ih]
  exact fold cs []

section

variable (θ : β)

def low (a : α) : Bool := decide (key a < θ)

def high (a : α) : Bool := decide (θ < key a)

def level (a : α) : Bool := decide (key a = θ)

/-- The low entries with at most `n` others before them. -/
def ahead : Nat → List α → List α
  | _, [] => []
  | n, e :: out =>
    if low key θ e then e :: ahead n out
    else match n with
      | 0 => []
      | n + 1 => ahead n out

/-- What follows the first `n` entries that are not low. -/
def beyond : Nat → List α → List α
  | 0, out => out
  | _, [] => []
  | n + 1, e :: out => if low key θ e then beyond (n + 1) out else beyond n out

/-- Each low late arrival is not below the low ones before it nor below the low entries
ahead of the place left for it. -/
def Settles (out late : List α) : Prop :=
  ∀ before x after, late = before ++ x :: after → low key θ x →
    (∀ y ∈ before, low key θ y → key y ≤ key x) ∧
      ∀ e ∈ ahead key θ (before.countP (low key θ)) out, key e ≤ key x

/-- From some arrival on, enough come at the level to replace every high entry beyond the
places that the low arrivals before it take. -/
def Fills (out late : List α) : Prop :=
  ∃ before after, late = before ++ after ∧
    (beyond key θ (before.countP (low key θ)) out).countP (high key θ) ≤
      after.countP (level key θ)

/-- Fewer than `k` are below `θ`, at least `k` are not above it. -/
def Cuts (k : Nat) (cs : List α) : Prop :=
  cs.countP (low key θ) < k ∧ k ≤ cs.countP fun a => decide (key a ≤ θ)

variable {key θ}

theorem low_iff {a : α} : low key θ a = true ↔ key a < θ := decide_eq_true_iff

theorem high_iff {a : α} : high key θ a = true ↔ θ < key a := decide_eq_true_iff

theorem not_low_iff {a : α} : low key θ a = false ↔ θ ≤ key a := by
  rw [low, decide_eq_false_iff_not, not_lt]

theorem not_high_iff {a : α} : high key θ a = false ↔ key a ≤ θ := by
  rw [high, decide_eq_false_iff_not, not_lt]

@[simp] theorem beyond_none (out : List α) : beyond key θ 0 out = out := by
  cases out <;> rfl

/-! A late arrival that is not low leaves the low entries where they are. -/

theorem ahead_displace {x : α} (notLow : θ ≤ key x) (n : Nat) (out : List α) :
    ahead key θ n (displace key out x) = ahead key θ n out := by
  induction out generalizing n with
  | nil => rfl
  | cons e out ih =>
    simp only [displace]
    split
    · rename_i above
      have x_low : low key θ x = false := not_low_iff.mpr notLow
      have e_low : low key θ e = false := not_low_iff.mpr (notLow.trans above.le)
      cases n <;> simp [ahead, x_low, e_low]
    · cases n <;> simp [ahead, ih]

theorem beyond_displace_high {x : α} (above : θ < key x) (n : Nat) (out : List α) :
    (beyond key θ n (displace key out x)).countP (high key θ) =
      (beyond key θ n out).countP (high key θ) := by
  induction out generalizing n with
  | nil => rfl
  | cons e out ih =>
    have plain := ih 0
    have next := fun m => ih m
    simp only [displace]
    split
    · rename_i over_x
      have x_low : low key θ x = false := not_low_iff.mpr above.le
      have e_low : low key θ e = false := not_low_iff.mpr (above.trans over_x).le
      have x_high : high key θ x = true := high_iff.mpr above
      have e_high : high key θ e = true := high_iff.mpr (above.trans over_x)
      cases n <;> simp [beyond, x_low, e_low, x_high, e_high]
    · cases n with
      | zero =>
        simp only [beyond] at plain ⊢
        rw [List.countP_cons, List.countP_cons, plain]
      | succ n =>
        simp only [beyond]
        split <;> apply next

/-- At the level: the first high entry falls to the level. -/
theorem countP_displace_level {x : α} (level : key x = θ) (out : List α) :
    (displace key out x).countP (high key θ) = out.countP (high key θ) - 1 := by
  induction out with
  | nil => rfl
  | cons e out ih =>
    have x_high : high key θ x = false := not_high_iff.mpr level.le
    simp only [displace, level]
    split
    · rename_i above
      have e_high : high key θ e = true := high_iff.mpr above
      simp [x_high, e_high]
    · rename_i below
      have e_high : high key θ e = false := not_high_iff.mpr (not_lt.mp below)
      simp [e_high, ih]

theorem beyond_displace_level {x : α} (level : key x = θ) (n : Nat) (out : List α) :
    (beyond key θ n (displace key out x)).countP (high key θ) =
        (beyond key θ n out).countP (high key θ) ∨
      (beyond key θ n (displace key out x)).countP (high key θ) + 1 =
        (beyond key θ n out).countP (high key θ) ∧
      (beyond key θ n out).countP (high key θ) = out.countP (high key θ) := by
  cases n with
  | zero =>
    have fewer := countP_displace_level level out
    simp only [beyond, and_true]
    omega
  | succ n =>
    induction out generalizing n with
    | nil => exact .inl rfl
    | cons e out ih =>
      have x_low : low key θ x = false := not_low_iff.mpr level.ge
      simp only [displace, level]
      split
      · rename_i above
        have e_low : low key θ e = false := not_low_iff.mpr above.le
        simp [beyond, x_low, e_low]
      · rename_i below
        have e_high : high key θ e = false := not_high_iff.mpr (not_lt.mp below)
        simp only [beyond, List.countP_cons, e_high]
        split
        · exact ih n
        · cases n with
          | zero =>
            have fewer := countP_displace_level level out
            simp only [beyond]
            simp
            omega
          | succ n => exact ih n

/-! A low one takes the first place that is not low, unless a low entry before it is above. -/

variable (key θ) in
/-- The entry that goes is not low, and `x` is ahead of everything from then on. -/
structure Placed (out : List α) (x : α) : Prop where
  ousted : θ ≤ key (ousted key out x)
  ahead : ∀ n a, a ∈ ahead key θ n (displace key out x) ↔ a = x ∨ a ∈ ahead key θ (n + 1) out
  beyond : ∀ n, (beyond key θ n (displace key out x)).countP (high key θ) =
    (beyond key θ (n + 1) out).countP (high key θ)

theorem placed {x : α} (x_below : key x < θ) {out : List α} (place : ∃ e ∈ out, θ ≤ key e)
    (settled : ∀ e ∈ ahead key θ 0 out, key e ≤ key x) : Placed key θ out x := by
  have x_low : low key θ x = true := low_iff.mpr x_below
  have x_high : high key θ x = false := not_high_iff.mpr x_below.le
  induction out with
  | nil => simp at place
  | cons e out ih =>
    cases e_low : low key θ e with
    | true =>
      have e_below : key e < θ := low_iff.mp e_low
      have e_high : high key θ e = false := not_high_iff.mpr e_below.le
      have first : ahead key θ 0 (e :: out) = e :: ahead key θ 0 out := by simp [ahead, e_low]
      rw [first] at settled
      have stays : ¬ key x < key e := not_lt.mpr (settled e List.mem_cons_self)
      have later : ∃ e ∈ out, θ ≤ key e := by
        obtain ⟨f, member, not_low⟩ := place
        rcases List.mem_cons.mp member with rfl | member
        · exact absurd not_low (not_le.mpr e_below)
        · exact ⟨f, member, not_low⟩
      have rest := ih later fun f member => settled f (List.mem_cons_of_mem e member)
      constructor
      · simpa only [Shortlist.ousted, if_neg stays] using rest.ousted
      · intro n a
        have tail := rest.ahead n a
        cases n <;> simp only [displace, if_neg stays, Shortlist.ahead, e_low, if_true,
          List.mem_cons, tail] <;> exact or_left_comm
      · intro n
        have tail := rest.beyond n
        cases n with
        | zero =>
          simp only [displace, if_neg stays, Shortlist.beyond, e_low, if_true,
            List.countP_cons, e_high] at tail ⊢
          exact tail
        | succ n => simpa only [displace, if_neg stays, Shortlist.beyond, e_low, if_true] using tail
    | false =>
      have above : key x < key e := lt_of_lt_of_le x_below (not_low_iff.mp e_low)
      constructor
      · simpa only [Shortlist.ousted, if_pos above] using not_low_iff.mp e_low
      · intro n a
        cases n <;> simp [displace, above, Shortlist.ahead, x_low, e_low]
      · intro n
        cases n <;> simp [displace, above, Shortlist.beyond, x_low, e_low, x_high]

/-! One arrival at a time. -/

theorem settles_cons_other {out late : List α} {x : α} (not_low : low key θ x = false) :
    Settles key θ out (x :: late) ↔ Settles key θ out late := by
  constructor
  · intro settles before y after split y_low
    have same := settles (x :: before) y after (by rw [split]; rfl) y_low
    rw [List.countP_cons_of_neg (by simp [not_low])] at same
    exact ⟨fun z member => same.1 z (List.mem_cons_of_mem x member), same.2⟩
  · intro settles before y after split y_low
    cases before with
    | nil =>
      obtain ⟨rfl, _⟩ := List.cons.inj split
      simp [not_low] at y_low
    | cons z before =>
      obtain ⟨rfl, rest⟩ := List.cons.inj split
      have same := settles before y after rest y_low
      rw [List.countP_cons_of_neg (by simp [not_low])]
      refine ⟨?_, same.2⟩
      intro w member w_low
      rcases List.mem_cons.mp member with rfl | member
      · simp [not_low] at w_low
      · exact same.1 w member w_low

theorem settles_cons_low {out late : List α} {x : α} (x_low : low key θ x = true) :
    Settles key θ out (x :: late) ↔ (∀ e ∈ ahead key θ 0 out, key e ≤ key x) ∧
      ∀ before y after, late = before ++ y :: after → low key θ y →
        (key x ≤ key y ∧ ∀ z ∈ before, low key θ z → key z ≤ key y) ∧
          ∀ e ∈ ahead key θ (before.countP (low key θ) + 1) out, key e ≤ key y := by
  constructor
  · intro settles
    refine ⟨(settles [] x late rfl x_low).2, ?_⟩
    intro before y after split y_low
    have same := settles (x :: before) y after (by rw [split]; rfl) y_low
    rw [List.countP_cons_of_pos x_low] at same
    exact ⟨⟨same.1 x List.mem_cons_self x_low,
      fun z member => same.1 z (List.mem_cons_of_mem x member)⟩, same.2⟩
  · rintro ⟨now, settles⟩ before y after split y_low
    cases before with
    | nil =>
      obtain ⟨rfl, _⟩ := List.cons.inj split
      exact ⟨by simp, by simpa using now⟩
    | cons z before =>
      obtain ⟨rfl, rest⟩ := List.cons.inj split
      have same := settles before y after rest y_low
      rw [List.countP_cons_of_pos x_low]
      refine ⟨?_, same.2⟩
      intro w member w_low
      rcases List.mem_cons.mp member with rfl | member
      · exact same.1.1
      · exact same.1.2 w member w_low

theorem fills_cons {out late : List α} {x : α} :
    Fills key θ out (x :: late) ↔
      out.countP (high key θ) ≤ (x :: late).countP (level key θ) ∨
        ∃ before after, late = before ++ after ∧
          (beyond key θ ((x :: before).countP (low key θ)) out).countP (high key θ) ≤
            after.countP (level key θ) := by
  constructor
  · rintro ⟨before, after, split, enough⟩
    cases before with
    | nil =>
      have all : x :: late = after := split
      exact .inl (by simpa [all] using enough)
    | cons z before =>
      obtain ⟨rfl, rest⟩ := List.cons.inj split
      exact .inr ⟨before, after, rest, enough⟩
  · rintro (enough | ⟨before, after, rfl, enough⟩)
    · exact ⟨[], x :: late, rfl, by simpa using enough⟩
    · exact ⟨x :: before, after, rfl, enough⟩

theorem settled_of_kept {out : List α} {x : α} (kept : θ ≤ key (ousted key out x)) :
    ∀ e ∈ ahead key θ 0 out, key e ≤ key x := by
  induction out with
  | nil => simp [ahead]
  | cons e out ih =>
    cases e_low : low key θ e with
    | false => simp [ahead, e_low]
    | true =>
      have e_below : key e < θ := low_iff.mp e_low
      simp only [ousted] at kept
      split at kept
      · exact absurd kept (not_le.mpr e_below)
      · rename_i stays
        simp only [ahead, e_low, if_true]
        intro f member
        rcases List.mem_cons.mp member with rfl | member
        · exact not_lt.mp stays
        · exact ih kept f member

theorem settles_step {out late : List α} {x : α}
    (arrives : key x < θ → Placed key θ out x) :
    Settles key θ out (x :: late) ↔ Settles key θ (displace key out x) late := by
  rcases lt_or_ge (key x) θ with below | notLow
  · have at_place := arrives below
    have settled := settled_of_kept at_place.ousted
    rw [settles_cons_low (low_iff.mpr below)]
    constructor
    · rintro ⟨_, settles⟩ before y after split y_low
      obtain ⟨⟨first, earlier⟩, standing⟩ := settles before y after split y_low
      refine ⟨earlier, ?_⟩
      intro e member
      rcases (at_place.ahead _ e).mp member with rfl | member
      · exact first
      · exact standing e member
    · intro settles
      refine ⟨settled, ?_⟩
      intro before y after split y_low
      obtain ⟨earlier, standing⟩ := settles before y after split y_low
      refine ⟨⟨standing x ((at_place.ahead _ x).mpr (.inl rfl)), earlier⟩, ?_⟩
      intro e member
      exact standing e ((at_place.ahead _ e).mpr (.inr member))
  · rw [settles_cons_other (not_low_iff.mpr notLow)]
    simp only [Settles, ahead_displace notLow]

theorem fills_step {out late : List α} {x : α}
    (arrives : key x < θ → Placed key θ out x) :
    Fills key θ out (x :: late) ↔ Fills key θ (displace key out x) late := by
  rw [fills_cons]
  rcases lt_trichotomy (key x) θ with below | same | above
  · have x_low : low key θ x = true := low_iff.mpr below
    have x_level : ¬ level key θ x = true := by simp [level, below.ne]
    have moved := (arrives below).beyond
    simp only [List.countP_cons_of_pos x_low, List.countP_cons_of_neg x_level, ← moved]
    constructor
    · rintro (all | found)
      · have x_high : ¬ high key θ x = true := by simp [high, below.le]
        have swap := (ousted_perm key out x).countP_eq (high key θ)
        have fewer : (displace key out x).countP (high key θ) ≤ out.countP (high key θ) := by
          rw [List.countP_cons, List.countP_cons_of_neg x_high] at swap
          omega
        exact ⟨[], late, rfl, by simpa using fewer.trans all⟩
      · exact found
    · exact .inr
  · have x_low : ¬ low key θ x = true := by simp [low, same]
    have x_level : level key θ x = true := by simp [level, same]
    simp only [List.countP_cons_of_neg x_low, List.countP_cons_of_pos x_level]
    have fewer := countP_displace_level same out
    constructor
    · rintro (all | ⟨before, after, split, enough⟩)
      · exact ⟨[], late, rfl, by simp; omega⟩
      · refine ⟨before, after, split, ?_⟩
        rcases beyond_displace_level same (before.countP (low key θ)) out with eq | ⟨less, _⟩ <;>
          omega
    · rintro ⟨before, after, rfl, enough⟩
      rcases beyond_displace_level same (before.countP (low key θ)) out with eq | ⟨less, all⟩
      · exact .inr ⟨before, after, rfl, by omega⟩
      · rw [List.countP_append]
        exact .inl (by omega)
  · have x_low : ¬ low key θ x = true := by simp [low, above.le]
    have x_level : ¬ level key θ x = true := by simp [level, above.ne']
    have kept : ∀ n, (beyond key θ n (displace key out x)).countP (high key θ) =
        (beyond key θ n out).countP (high key θ) := fun n => beyond_displace_high above n out
    simp only [List.countP_cons_of_neg x_low, List.countP_cons_of_neg x_level]
    constructor
    · rintro (all | ⟨before, after, split, enough⟩)
      · exact ⟨[], late, rfl, by simpa using (kept 0).trans_le (by simpa using all)⟩
      · exact ⟨before, after, split, (kept _).trans_le enough⟩
    · rintro ⟨before, after, split, enough⟩
      exact .inr ⟨before, after, split, (kept _).symm.trans_le enough⟩

theorem least_iff_settles {out late : List α}
    (room : (out ++ late).countP (low key θ) < out.length) :
    ((∀ e ∈ passedOver key out late, θ ≤ key e) ∧ ∀ e ∈ settle key out late, key e ≤ θ) ↔
      Settles key θ out late ∧ Fills key θ out late := by
  induction late generalizing out with
  | nil =>
    have none_high : out.countP (high key θ) = 0 ↔ ∀ e ∈ out, key e ≤ θ := by
      simp [List.countP_eq_zero, high]
    simp only [passedOver, settle, List.foldl_nil, ← none_high]
    constructor
    · rintro ⟨_, none⟩
      refine ⟨by simp [Settles], [], [], rfl, by simp [none]⟩
    · rintro ⟨_, before, after, split, enough⟩
      obtain ⟨rfl, rfl⟩ := List.append_eq_nil_iff.mp split.symm
      exact ⟨by simp, by simpa using enough⟩
  | cons x late ih =>
    have place : ∃ e ∈ out, θ ≤ key e := by
      by_contra all
      push Not at all
      have full : out.countP (low key θ) = out.length :=
        List.countP_eq_length.mpr fun e member => low_iff.mpr (all e member)
      rw [List.countP_append] at room
      omega
    by_cases kept : θ ≤ key (ousted key out x)
    · have arrives : key x < θ → Placed key θ out x :=
        fun below => placed below place (settled_of_kept kept)
      have room' : (displace key out x ++ late).countP (low key θ) <
          (displace key out x).length := by
        have swap := (ousted_perm key out x).countP_eq (low key θ)
        have x_counted : (x :: out).countP (low key θ) + late.countP (low key θ) < out.length := by
          simp only [List.countP_append, List.countP_cons] at room ⊢
          omega
        rw [← swap, List.countP_cons_of_neg (by simpa [low] using kept)] at x_counted
        simpa only [List.countP_append, displace_length] using x_counted
      rw [settles_step arrives, fills_step arrives, ← ih room']
      simp only [passedOver, settle, List.foldl_cons, List.forall_mem_cons, kept, true_and]
    · have lost : ¬ Settles key θ out (x :: late) := by
        intro settles
        have below : key x < θ := lt_of_le_of_lt (ousted_ge key out x) (not_le.mp kept)
        have settled := ((settles_cons_low (low_iff.mpr below)).mp settles).1
        exact kept (placed below place settled).ousted
      simp [passedOver, kept, lost]

end

theorem exists_cut {k : Nat} {cs : List α} (some : 0 < k) (long : k ≤ cs.length) :
    ∃ θ, Cuts key θ k cs := by
  let reached := fun θ => k ≤ cs.countP fun a => decide (key a ≤ θ)
  let keys := (cs.map key).toFinset
  have key_mem : ∀ a ∈ cs, key a ∈ keys := fun a member =>
    List.mem_toFinset.mpr (List.mem_map_of_mem member)
  have top : ∃ θ ∈ keys, reached θ := by
    obtain ⟨a, first⟩ := List.exists_mem_of_length_pos (some.trans_le long)
    obtain ⟨θ, member, greatest⟩ := keys.exists_max_image id ⟨key a, key_mem a first⟩
    have all : cs.countP (fun a => decide (key a ≤ θ)) = cs.length :=
      List.countP_eq_length.mpr fun a inside => by simpa using greatest _ (key_mem a inside)
    exact ⟨θ, member, long.trans_eq all.symm⟩
  obtain ⟨θ, member, least⟩ := (keys.filter reached).exists_min_image id (by
    obtain ⟨θ, member, enough⟩ := top
    exact ⟨θ, Finset.mem_filter.mpr ⟨member, enough⟩⟩)
  obtain ⟨_, enough⟩ := Finset.mem_filter.mp member
  refine ⟨θ, ?_, enough⟩
  by_contra many
  rw [not_lt] at many
  -- The greatest key below `θ` would reach the bound as well.
  obtain ⟨a, inside, a_low⟩ := List.countP_pos_iff.mp (some.trans_le many)
  obtain ⟨μ, below, greatest⟩ := (keys.filter (· < θ)).exists_max_image id
    ⟨key a, Finset.mem_filter.mpr ⟨key_mem a inside, low_iff.mp a_low⟩⟩
  obtain ⟨μ_mem, μ_below⟩ := Finset.mem_filter.mp below
  have counted : cs.countP (low key θ) ≤ cs.countP fun a => decide (key a ≤ μ) :=
    List.countP_mono_left fun b b_mem b_low => by
      simpa using greatest (key b) (Finset.mem_filter.mpr ⟨key_mem b b_mem, low_iff.mp b_low⟩)
  exact absurd (least μ (Finset.mem_filter.mpr ⟨μ_mem, many.trans counted⟩)) (not_le.mpr μ_below)

/-- The candidates are not more than the bound, or the late ones replace exactly the
entries above the level of the last place. -/
def Orderly (k : Nat) (cs : List α) : Prop :=
  cs.length ≤ k ∨ ∃ θ, Cuts key θ k cs ∧ Settles key θ (cs.take k) (cs.drop k) ∧
    Fills key θ (cs.take k) (cs.drop k)

def leftOut (k : Nat) (cs : List α) : List α := passedOver key (cs.take k) (cs.drop k)

theorem shortlist_perm (k : Nat) (cs : List α) :
    (shortlist key k cs ++ leftOut key k cs).Perm cs := by
  rw [shortlist_eq]
  exact (settle_perm key _ _).trans (.of_eq (List.take_append_drop k cs))

theorem mem_leftOut_iff {k : Nat} {cs : List α} (nodup : cs.Nodup) (e : α) :
    e ∈ leftOut key k cs ↔ e ∈ cs ∧ e ∉ shortlist key k cs := by
  have perm := shortlist_perm key k cs
  have apart := List.disjoint_of_nodup_append (perm.nodup_iff.mpr nodup)
  rw [← perm.mem_iff, List.mem_append]
  constructor
  · intro left
    exact ⟨.inr left, fun kept => apart kept left⟩
  · rintro ⟨kept | left, out⟩
    · exact absurd kept out
    · exact left

@[simp] theorem shortlist_length (k : Nat) (cs : List α) :
    (shortlist key k cs).length = min k cs.length := by
  rw [shortlist_eq, settle_length, List.length_take]

/-- Nothing left out is below an entry that is kept. -/
def KeepsLeast (k : Nat) (cs : List α) : Prop :=
  ∀ e ∈ leftOut key k cs, ∀ f ∈ shortlist key k cs, key f ≤ key e

theorem keepsLeast_iff_cut {k : Nat} {cs : List α} {θ : β} (cuts : Cuts key θ k cs)
    (long : k ≤ cs.length) :
    KeepsLeast key k cs ↔
      (∀ e ∈ leftOut key k cs, θ ≤ key e) ∧ ∀ f ∈ shortlist key k cs, key f ≤ θ := by
  have perm := shortlist_perm key k cs
  have length : (shortlist key k cs).length = k := by
    rw [shortlist_length]
    omega
  constructor
  · intro keeps
    constructor
    · intro e left
      -- Some kept entry is not low: fewer than `k` are.
      have kept : ∃ f ∈ shortlist key k cs, θ ≤ key f := by
        by_contra all
        push Not at all
        have full := List.countP_eq_length.mpr fun f member => low_iff.mpr (all f member)
        have counted := perm.countP_eq (low key θ)
        rw [List.countP_append, full, length] at counted
        have few := cuts.1
        omega
      obtain ⟨f, member, reached⟩ := kept
      exact reached.trans (keeps e left f member)
    · intro f member
      by_contra above
      rw [not_le] at above
      have none : (leftOut key k cs).countP (fun a => decide (key a ≤ θ)) = 0 :=
        List.countP_eq_zero.mpr fun e left => by
          simpa using above.trans_le (keeps e left f member)
      have counted := perm.countP_eq fun a => decide (key a ≤ θ)
      have enough := cuts.2
      rw [List.countP_append, none] at counted
      have all : (shortlist key k cs).countP (fun a => decide (key a ≤ θ)) =
          (shortlist key k cs).length :=
        le_antisymm List.countP_le_length (by omega)
      have inside := List.countP_eq_length.mp all f member
      exact absurd (of_decide_eq_true inside) (not_le.mpr above)
  · rintro ⟨left, kept⟩ e e_mem f f_mem
    exact (kept f f_mem).trans (left e e_mem)

theorem keepsLeast_iff {k : Nat} (some : 0 < k) (cs : List α) :
    KeepsLeast key k cs ↔ Orderly key k cs := by
  have at_cut : ∀ {θ}, k < cs.length → Cuts key θ k cs → (KeepsLeast key k cs ↔
      Settles key θ (cs.take k) (cs.drop k) ∧ Fills key θ (cs.take k) (cs.drop k)) := by
    intro θ long cuts
    rw [keepsLeast_iff_cut key cuts long.le, shortlist_eq]
    apply least_iff_settles
    rw [List.take_append_drop, List.length_take, min_eq_left long.le]
    exact cuts.1
  rcases Nat.lt_or_ge k cs.length with long | short
  · constructor
    · intro keeps
      obtain ⟨θ, cuts⟩ := exists_cut key some long.le
      exact .inr ⟨θ, cuts, (at_cut long cuts).mp keeps⟩
    · rintro (short | ⟨θ, cuts, orderly⟩)
      · omega
      · exact (at_cut long cuts).mpr orderly
  · constructor
    · intro _
      exact .inl short
    · intro _ e member
      rw [leftOut, List.drop_eq_nil_of_le short] at member
      cases member

end Shortlist
