import Mathlib.Data.Rat.Lemmas
import Mathlib.Tactic.NormNum
import Cognis.Lib.Shortlist
import Cognis.Reputation.TrustMap

/-! The watchlist: the slots below the trust threshold go into a fixed array, and once it
is full each one swaps with the first entry above it. -/
namespace Cognis.Reputation
open Probing Shortlist

def shameMax : Nat := 20

structure ShameEntry (F : Type) where
  pid : Pid
  trust : F
  comm : Fin 16 → BitVec 8
  flagged : Bool

section

variable {F : Type} (fl : Floats F)

def ShameEntry.zero : ShameEntry F := ⟨0, fl.neutral, fun _ => 0, false⟩

/-- The array and the number of valid entries in it. -/
structure Watchlist (F : Type) where
  out : Vector (ShameEntry F) shameMax
  n : Nat

namespace Watchlist

def init : Watchlist F := ⟨.replicate shameMax (.zero fl), 0⟩

def valid (w : Watchlist F) : List (ShameEntry F) := w.out.toList.take w.n

def note (w : Watchlist F) (entry : ShameEntry F) : Watchlist F :=
  if room : w.n < shameMax then ⟨w.out.set w.n entry room, w.n + 1⟩
  else match w.valid.findIdx? fun e => fl.lt entry.trust e.trust with
    | some pos => ⟨w.out.setIfInBounds pos entry, w.n⟩
    | none => w

end Watchlist

namespace TrustTable

def entry (t : TrustTable F) (slot : Fin tableSize) : ShameEntry F where
  pid := t.pids slot
  trust := (t.slots slot).score
  comm := (t.slots slot).comm
  flagged := (t.slots slot).flagged

def worstActors (t : TrustTable F) : Watchlist F :=
  (List.finRange tableSize).foldl (fun w slot =>
    if Positive (t.pids slot) then
      if fl.lt (t.slots slot).score fl.trustThreshold then w.note fl (t.entry slot) else w
    else w) (.init fl)

/-- The slots of the PIDs below the threshold, in slot order. -/
def quarantined (t : TrustTable F) : List (Fin tableSize) :=
  (List.finRange tableSize).filter fun s =>
    decide (Positive (t.pids s)) && fl.lt (t.slots s).score fl.trustThreshold

/-- The watchlist names the quarantined PIDs with the lowest scores, as many as fit. -/
structure ReportsWorst (t : TrustTable F) : Prop where
  count : (t.worstActors fl).n = min shameMax (t.quarantinedCount fl)
  length : (t.worstActors fl).valid.length = (t.worstActors fl).n
  distinct : ((t.worstActors fl).valid.map (·.pid)).Nodup
  entries : ∀ e ∈ (t.worstActors fl).valid, ∃ s ∈ t.quarantined fl, e = t.entry s
  worst : ∀ s ∈ t.quarantined fl, t.pids s ∉ (t.worstActors fl).valid.map (·.pid) →
    ∀ e ∈ (t.worstActors fl).valid, fl.lt (t.slots s).score e.trust = false

end TrustTable

/-! Each PID has one slot in every table that updates and evictions lead to, full ones
included. -/

namespace TrustTable

def apply (t : TrustTable F) : TrustOp → TrustTable F
  | .updateOnExit pid tgid obs comm => t.updateOnExit fl pid tgid obs comm
  | .evict pid => t.evict fl pid

def OnPositive : TrustOp → Prop
  | .updateOnExit pid tgid _ _ => Positive pid ∧ Positive tgid
  | .evict pid => Positive pid

variable {fl} {t : TrustTable F}

theorem getOrInsertSlot_sound (sound : trustScheme.Sound t.pids) {pid : Pid}
    (positive : Positive pid) : trustScheme.Sound (t.getOrInsertSlot fl pid).2.pids := by
  have claims := sound.claim (k := pid) positive.live
  unfold getOrInsertSlot
  generalize trustScheme.claim t.pids pid = claimed at claims ⊢
  cases claims with
  | held s _ => exact sound
  | free s absent _ reach => exact sound.put absent positive.live reach
  | full absent _ => exact sound.put absent positive.live (Scheme.reaches_home _)

theorem blendTgid_sound (sound : trustScheme.Sound t.pids) {tgid : Pid}
    (positive : Positive tgid) (score : F) :
    trustScheme.Sound (t.blendTgid fl tgid score).pids := by
  unfold blendTgid
  dsimp only
  generalize home_eq : trustScheme.home tgid = ts
  split
  · split
    · rename_i empty
      have absent := sound.absent_of_home (k := tgid) positive.live (home_eq ▸ empty)
      exact sound.put absent positive.live (home_eq ▸ Scheme.reaches_home _)
    · exact sound
  · exact sound

theorem apply_sound (sound : trustScheme.Sound t.pids) {op : TrustOp} (positive : OnPositive op) :
    trustScheme.Sound (t.apply fl op).pids := by
  cases op with
  | updateOnExit pid tgid obs comm =>
    have inserted : trustScheme.Sound (t.getOrInsertSlot fl pid).2.pids :=
      getOrInsertSlot_sound sound positive.1
    simp only [apply, updateOnExit]
    generalize t.getOrInsertSlot fl pid = result at inserted ⊢
    apply blendTgid_sound _ positive.2
    exact inserted
  | evict pid =>
    simp only [apply, evict]
    cases t.findSlot pid with
    | none => exact sound
    | some s => exact sound.evict s

theorem sound_of_ops {ops : List TrustOp} (positive : ∀ op ∈ ops, OnPositive op) :
    trustScheme.Sound (ops.foldl (apply fl) (.new fl)).pids := by
  have start : trustScheme.Sound (TrustTable.new fl).pids := Tracks.start.sound
  generalize TrustTable.new fl = t at start ⊢
  induction ops generalizing t with
  | nil => exact start
  | cons op ops ih =>
    obtain ⟨now, later⟩ := List.forall_mem_cons.mp positive
    exact ih later _ (apply_sound start now)

end TrustTable

section

variable {fl} [LinearOrder F] (total : ∀ a b, fl.lt a b = decide (a < b))
include total

theorem Watchlist.valid_note {w : Watchlist F} (bound : w.n ≤ shameMax) (e : ShameEntry F) :
    (w.note fl e).valid = offer (·.trust) shameMax w.valid e ∧ (w.note fl e).n ≤ shameMax := by
  have size : w.out.toList.length = shameMax := by simp
  have length : w.valid.length = w.n := by
    rw [valid, List.length_take, size]
    omega
  unfold note
  by_cases room : w.n < shameMax
  · rw [dif_pos room, offer, if_pos (by omega)]
    refine ⟨?_, room⟩
    simp only [valid, Vector.toList_set]
    rw [List.take_add_one, List.take_set_of_le le_rfl]
    simp [room]
  · rw [dif_neg room, offer, if_neg (by omega), displace_eq_set]
    have full : w.n = shameMax := by omega
    have whole : w.valid = w.out.toList := List.take_of_length_le (by omega)
    simp only [total]
    cases w.valid.findIdx? fun f => decide (e.trust < f.trust) with
    | none => exact ⟨rfl, bound⟩
    | some pos =>
      refine ⟨?_, bound⟩
      have untrimmed : (w.out.setIfInBounds pos e).toList.take w.n =
          (w.out.setIfInBounds pos e).toList := List.take_of_length_le (by simp [full])
      simp only [valid, untrimmed]
      rw [List.take_of_length_le (by omega)]
      simp

theorem Watchlist.foldl_note (es : List (ShameEntry F)) {w : Watchlist F}
    (bound : w.n ≤ shameMax) :
    (es.foldl (note fl) w).valid = es.foldl (offer (·.trust) shameMax) w.valid ∧
      (es.foldl (note fl) w).n ≤ shameMax := by
  induction es generalizing w with
  | nil => exact ⟨rfl, bound⟩
  | cons e es ih =>
    obtain ⟨valid, bound⟩ := valid_note total bound e
    have rest := ih bound
    rwa [valid] at rest

namespace TrustTable

variable (t : TrustTable F)

omit [LinearOrder F] total in
theorem worstActors_eq :
    t.worstActors fl = ((t.quarantined fl).map t.entry).foldl (Watchlist.note fl) (.init fl) := by
  rw [worstActors, quarantined, List.foldl_map, List.foldl_filter]
  apply List.foldl_ext
  intro w s _
  by_cases positive : Positive (t.pids s) <;> simp [positive]

omit [LinearOrder F] total in
theorem quarantinedCount_eq : t.quarantinedCount fl = (t.quarantined fl).length := by
  rw [quarantinedCount, List.filter_filter, quarantined]
  apply congrArg List.length
  apply List.filter_congr
  intro s _
  by_cases positive : Positive (t.pids s)
  · have taken : (t.pids s != 0) = true := bne_iff_ne.mpr positive.ne_empty
    rw [taken, Bool.true_and]
  · simp [positive]

theorem worstActors_valid :
    (t.worstActors fl).valid =
        (shortlist (fun s => (t.slots s).score) shameMax (t.quarantined fl)).map t.entry ∧
      (t.worstActors fl).n = (t.worstActors fl).valid.length := by
  have same := shortlist_map (fun e : ShameEntry F => e.trust) t.entry shameMax (t.quarantined fl)
  dsimp only [entry] at same
  rw [worstActors_eq, ← same]
  generalize (t.quarantined fl).map t.entry = es
  have empty : (Watchlist.init fl).valid = [] := List.take_zero
  have noted := Watchlist.foldl_note total es (w := .init fl) (Nat.zero_le _)
  rw [empty] at noted
  refine ⟨noted.1, ?_⟩
  rw [Watchlist.valid, List.length_take]
  simp [noted.2]

omit [LinearOrder F] total in
theorem mem_quarantined {s : Fin tableSize} :
    s ∈ t.quarantined fl ↔
      Positive (t.pids s) ∧ fl.lt (t.slots s).score fl.trustThreshold = true := by
  simp [quarantined]

omit [LinearOrder F] total in
theorem quarantined_sorted : (t.quarantined fl).Pairwise (· < ·) :=
  (List.pairwise_lt_finRange tableSize).filter _

theorem worstActors_pids : (t.worstActors fl).valid.map (·.pid) =
    (shortlist (fun s => (t.slots s).score) shameMax (t.quarantined fl)).map t.pids := by
  rw [(t.worstActors_valid total).1, List.map_map]
  rfl

omit [LinearOrder F] total in
theorem pids_injective {t : TrustTable F} (sound : trustScheme.Sound t.pids) :
    ∀ s ∈ t.quarantined fl, ∀ r ∈ t.quarantined fl, t.pids s = t.pids r → s = r :=
  fun s member r _ => sound.unique s r (t.mem_quarantined.mp member).1.live

omit total in
theorem mem_of_shortlist {s : Fin tableSize}
    (kept : s ∈ shortlist (fun s => (t.slots s).score) shameMax (t.quarantined fl)) :
    s ∈ t.quarantined fl :=
  (shortlist_perm _ shameMax (t.quarantined fl)).subset (List.mem_append_left _ kept)

/-- The slots left out are those whose PIDs the watchlist does not name. -/
theorem mem_leftOut_iff_pid {t : TrustTable F} (sound : trustScheme.Sound t.pids)
    (s : Fin tableSize) :
    s ∈ leftOut (fun s => (t.slots s).score) shameMax (t.quarantined fl) ↔
      s ∈ t.quarantined fl ∧ t.pids s ∉ (t.worstActors fl).valid.map (·.pid) := by
  have sorted : (t.quarantined fl).Pairwise (· < ·) := t.quarantined_sorted
  rw [mem_leftOut_iff _ sorted.nodup, t.worstActors_pids total]
  refine and_congr_right fun member => not_congr ⟨List.mem_map_of_mem, fun named => ?_⟩
  obtain ⟨r, kept, same⟩ := List.mem_map.mp named
  exact pids_injective sound r (t.mem_of_shortlist kept) s member same ▸ kept

end TrustTable

/-- The watchlist has the right size and true entries of distinct PIDs in any case. It
leaves out no worse PID than it names exactly if the scores, in slot order, are such that
each swap hits an entry that has to go. -/
theorem worst_actors_iff {t : TrustTable F} (sound : trustScheme.Sound t.pids) :
    t.ReportsWorst fl ↔
      Orderly (fun s => (t.slots s).score) shameMax (t.quarantined fl) := by
  obtain ⟨valid, count⟩ := t.worstActors_valid total
  have sorted : (t.quarantined fl).Pairwise (· < ·) := t.quarantined_sorted
  have perm := shortlist_perm (fun s => (t.slots s).score) shameMax (t.quarantined fl)
  have kept_nodup := List.Nodup.of_append_left (perm.nodup_iff.mpr sorted.nodup)
  rw [← keepsLeast_iff _ (by decide)]
  constructor
  · intro reports e left f kept
    obtain ⟨e_mem, absent⟩ := (TrustTable.mem_leftOut_iff_pid total sound e).mp left
    have listed : t.entry f ∈ (t.worstActors fl).valid := valid ▸ List.mem_map_of_mem kept
    have kept_low := reports.worst e e_mem absent (t.entry f) listed
    rw [total, decide_eq_false_iff_not] at kept_low
    exact not_lt.mp kept_low
  · intro keeps
    constructor
    · rw [count, valid, List.length_map, shortlist_length, TrustTable.quarantinedCount_eq]
    · exact count.symm
    · rw [t.worstActors_pids total]
      exact kept_nodup.map_on fun s s_kept r r_kept =>
        TrustTable.pids_injective sound s (t.mem_of_shortlist s_kept) r (t.mem_of_shortlist r_kept)
    · intro e member
      rw [valid] at member
      obtain ⟨s, kept, rfl⟩ := List.mem_map.mp member
      exact ⟨s, t.mem_of_shortlist kept, rfl⟩
    · intro s s_mem absent e member
      rw [valid] at member
      obtain ⟨r, kept, rfl⟩ := List.mem_map.mp member
      have left := (TrustTable.mem_leftOut_iff_pid total sound s).mpr ⟨s_mem, absent⟩
      rw [total, decide_eq_false_iff_not]
      exact not_lt.mpr (keeps s left r kept)

end

end

abbrev Row : Type := Fin tableSize × Pid × ExitObservation

/-- Each PID in its home slot, with one exit seen of it. -/
def seenOnce (rows : List Row) : TrustTable ℚ where
  pids s := ((rows.find? fun row => row.1 = s).map fun row => row.2.1).getD pidEmpty
  slots s := ((rows.find? fun row => row.1 = s).map fun row =>
    (TrustSlot.reset .rational).observe .rational row.2.2 []).getD (.reset .rational)

section

variable {rows : List Row}

theorem find_row (distinct : (rows.map (·.1)).Nodup) {row : Row} (member : row ∈ rows) :
    rows.find? (fun r => r.1 = row.1) = some row := by
  induction rows with
  | nil => cases member
  | cons first rows ih =>
    obtain ⟨apart, distinct⟩ := List.nodup_cons.mp distinct
    rcases List.mem_cons.mp member with rfl | later
    · exact List.find?_cons_of_pos (by simp)
    · have other : first.1 ≠ row.1 := fun same =>
        apart (List.mem_map.mpr ⟨row, later, same.symm⟩)
      rw [List.find?_cons_of_neg (by simpa using other)]
      exact ih distinct later

theorem seenOnce_sound (homes : ∀ row ∈ rows, trustScheme.home row.2.1 = row.1) :
    trustScheme.Sound (seenOnce rows).pids := by
  have stored : ∀ s, trustScheme.Live ((seenOnce rows).pids s) →
      trustScheme.home ((seenOnce rows).pids s) = s := by
    intro s live
    unfold seenOnce at live ⊢
    dsimp only at live ⊢
    cases found : rows.find? fun row => row.1 = s with
    | none =>
      rw [found] at live
      exact absurd rfl live.1
    | some row =>
      have here : row.1 = s := by simpa using List.find?_some found
      exact (homes row (List.mem_of_find?_eq_some found)).trans here
  constructor
  · intro s r live same
    rw [← stored s live, same, stored r (same ▸ live)]
  · intro s live
    rw [stored s live]
    exact Scheme.reaches_home s

variable (sorted : (rows.map (·.1)).Pairwise (· < ·))
include sorted

theorem seenOnce_row {row : Row} (member : row ∈ rows) :
    (seenOnce rows).pids row.1 = row.2.1 ∧ ((seenOnce rows).slots row.1).score =
      scoreAfter .rational row.2.2 Floats.rational.neutral := by
  have found := find_row sorted.nodup member
  constructor
  · show ((rows.find? _).map _).getD _ = _
    rw [found]
    rfl
  · show TrustSlot.score (((rows.find? _).map _).getD _) = _
    rw [found]
    rfl

theorem seenOnce_quarantined (positive : ∀ row ∈ rows, Positive row.2.1)
    (low : ∀ row ∈ rows,
      Floats.rational.lt (scoreAfter .rational row.2.2 Floats.rational.neutral)
        Floats.rational.trustThreshold = true) :
    (seenOnce rows).quarantined .rational = rows.map (·.1) := by
  have slots : ((seenOnce rows).quarantined .rational).Pairwise (· < ·) :=
    (seenOnce rows).quarantined_sorted
  apply List.Perm.eq_of_pairwise' slots sorted
  rw [List.perm_ext_iff_of_nodup slots.nodup sorted.nodup]
  intro s
  constructor
  · intro member
    have stored := ((TrustTable.mem_quarantined _).mp member).1
    cases found : rows.find? fun row => row.1 = s with
    | none =>
      have blank : (seenOnce rows).pids s = pidEmpty := by
        show ((rows.find? _).map _).getD _ = _
        rw [found]
        rfl
      exact absurd blank stored.ne_empty
    | some row =>
      exact List.mem_map.mpr ⟨row, List.mem_of_find?_eq_some found, by
        simpa using List.find?_some found⟩
  · intro member
    obtain ⟨row, inside, rfl⟩ := List.mem_map.mp member
    obtain ⟨pid, score⟩ := seenOnce_row sorted inside
    rw [TrustTable.mem_quarantined, pid, score]
    exact ⟨positive row inside, low row inside⟩

end

def preempted : ExitObservation := { preempted := true, cheatFlagged := true }

def forking : ExitObservation := { preempted with forkCount := 200 }

def descheduled : ExitObservation := { forking with involuntaryCtxSw := 2000 }

/-- Nineteen PIDs with the score -0.363, in slot order. -/
def crowd : List Row :=
  [(280, 1013, preempted), (508, 1005, preempted), (649, 1018, preempted),
    (877, 1010, preempted), (1106, 1002, preempted), (1247, 1015, preempted),
    (1475, 1007, preempted), (1616, 1020, preempted), (1844, 1012, preempted),
    (2073, 1004, preempted), (2214, 1017, preempted), (2442, 1009, preempted),
    (2670, 1001, preempted), (2811, 1014, preempted), (3040, 1006, preempted),
    (3181, 1019, preempted), (3409, 1011, preempted), (3637, 1003, preempted),
    (3778, 1016, preempted)]

/-- One more PID in front of them and the worst one behind them. -/
def flanked (first : ExitObservation) : List Row :=
  (52, 1021, first) :: crowd ++ [(4006, 1008, descheduled)]

/-- The PID in front is worse than the nineteen. -/
def crowded : List Row := flanked forking

theorem scores : scoreAfter .rational preempted Floats.rational.neutral = -363 / 1000 ∧
    scoreAfter .rational forking Floats.rational.neutral = -663 / 1000 ∧
    scoreAfter .rational descheduled Floats.rational.neutral = -743 / 1000 := by
  refine ⟨?_, ?_, ?_⟩ <;>
    norm_num [scoreAfter, preempted, forking, descheduled, Floats.rational, Floats.neutral]

theorem rational_total (a b : ℚ) : Floats.rational.lt a b = decide (a < b) := rfl

section

variable (first : ExitObservation)

theorem flanked_slots : (flanked first).map (·.1) = 52 :: crowd.map (·.1) ++ [4006] := rfl

theorem flanked_sorted : ((flanked first).map (·.1)).Pairwise (· < ·) := by
  rw [flanked_slots]
  decide

theorem mem_flanked {row : Row} (member : row ∈ flanked first) :
    row = (52, 1021, first) ∨ row ∈ crowd ∨ row = (4006, 1008, descheduled) := by
  simpa [flanked] using member

theorem flanked_row : ∀ row ∈ flanked first, (seenOnce (flanked first)).pids row.1 = row.2.1 ∧
    ((seenOnce (flanked first)).slots row.1).score =
      scoreAfter .rational row.2.2 Floats.rational.neutral :=
  fun _ member => seenOnce_row (flanked_sorted first) member

theorem flanked_first : (seenOnce (flanked first)).pids 52 = 1021 ∧
    ((seenOnce (flanked first)).slots 52).score =
      scoreAfter .rational first Floats.rational.neutral :=
  flanked_row first (52, 1021, first) List.mem_cons_self

theorem flanked_last : ((seenOnce (flanked first)).slots 4006).score = -743 / 1000 :=
  (flanked_row first (4006, 1008, descheduled) (by simp [flanked])).2.trans scores.2.2

theorem crowd_kind : ∀ row ∈ crowd, row.2.2 = preempted := by decide

theorem flanked_crowd {row : Row} (member : row ∈ crowd) :
    ((seenOnce (flanked first)).slots row.1).score = -363 / 1000 := by
  have stored := flanked_row first row (by simp [flanked, member])
  rw [stored.2, crowd_kind row member, scores.1]

theorem flanked_sound : trustScheme.Sound (seenOnce (flanked first)).pids := by
  have homes : ∀ row ∈ crowd, trustScheme.home row.2.1 = row.1 := by decide
  apply seenOnce_sound
  intro row member
  rcases mem_flanked first member with rfl | inside | rfl
  · exact (by decide : trustScheme.home 1021 = 52)
  · exact homes row inside
  · exact (by decide : trustScheme.home 1008 = 4006)

variable {first} (low : scoreAfter .rational first Floats.rational.neutral ≤ -363 / 1000)
include low

theorem flanked_low : ∀ row ∈ flanked first,
    scoreAfter .rational row.2.2 Floats.rational.neutral ≤ -363 / 1000 := by
  intro row member
  rcases mem_flanked first member with rfl | inside | rfl
  · exact low
  · exact (crowd_kind row inside ▸ scores.1).le
  · rw [scores.2.2]
    norm_num

theorem flanked_quarantined :
    (seenOnce (flanked first)).quarantined .rational = 52 :: crowd.map (·.1) ++ [4006] := by
  have threshold : Floats.rational.trustThreshold = -35 / 100 := by
    norm_num [Floats.trustThreshold, Floats.rational]
  have positive : ∀ row ∈ crowd, Positive row.2.1 := by decide
  rw [← flanked_slots first]
  apply seenOnce_quarantined (flanked_sorted first)
  · intro row member
    rcases mem_flanked first member with rfl | inside | rfl
    · exact (by decide : Positive 1021)
    · exact positive row inside
    · exact (by decide : Positive 1008)
  · intro row member
    rw [rational_total, threshold, decide_eq_true_eq]
    exact (flanked_low low row member).trans_lt (by norm_num)

variable (overtaken : -743 / 1000 < scoreAfter .rational first Floats.rational.neutral)
include overtaken

/-- The PID in the last slot takes the place of the one in the first slot. -/
theorem flanked_settled :
    let key := fun s => ((seenOnce (flanked first)).slots s).score
    let cs := (seenOnce (flanked first)).quarantined .rational
    shortlist key shameMax cs = 4006 :: crowd.map (·.1) ∧ leftOut key shameMax cs = [52] := by
  intro key cs
  have ahead : key 4006 < key 52 := by
    change ((seenOnce (flanked first)).slots 4006).score <
      ((seenOnce (flanked first)).slots 52).score
    rw [flanked_last, (flanked_first first).2]
    exact overtaken
  have listed : cs = 52 :: crowd.map (·.1) ++ [4006] := flanked_quarantined low
  have late : cs.drop shameMax = [4006] := listed ▸ rfl
  have early : cs.take shameMax = 52 :: crowd.map (·.1) := listed ▸ rfl
  rw [shortlist_eq, leftOut, late, early]
  constructor
  · show displace key _ _ = _
    rw [displace, if_pos ahead]
  · show [ousted key _ _] = _
    rw [ousted, if_pos ahead]

theorem flanked_listed : ((seenOnce (flanked first)).worstActors .rational).valid =
    (4006 :: crowd.map (·.1)).map (seenOnce (flanked first)).entry := by
  rw [(TrustTable.worstActors_valid rational_total _).1, (flanked_settled low overtaken).1]

end

/-- Where the PID in front is no worse than the nineteen, the swap hits one that has to go. -/
theorem worst_actors_iff_even :
    ((seenOnce (flanked preempted)).quarantined .rational).length = 21 ∧
      (seenOnce (flanked preempted)).ReportsWorst .rational := by
  have low := scores.1.le
  have overtaken : -743 / 1000 < scoreAfter .rational preempted Floats.rational.neutral := by
    rw [scores.1]
    norm_num
  refine ⟨by rw [flanked_quarantined low]; rfl,
    (worst_actors_iff rational_total (flanked_sound preempted)).mpr ?_⟩
  rw [← keepsLeast_iff _ (by decide)]
  have left := (flanked_settled low overtaken).2
  intro e e_left f f_kept
  rw [left, List.mem_singleton] at e_left
  subst e_left
  have inside := (seenOnce (flanked preempted)).mem_of_shortlist f_kept
  rw [flanked_quarantined low, ← flanked_slots preempted] at inside
  obtain ⟨row, member, rfl⟩ := List.mem_map.mp inside
  change ((seenOnce (flanked preempted)).slots row.1).score ≤
    ((seenOnce (flanked preempted)).slots 52).score
  rw [(flanked_row preempted row member).2, (flanked_first preempted).2]
  exact (flanked_low low row member).trans scores.1.ge

/-- The PID in the first slot, which is the second worst, is left out, and the nineteen better
ones stay. -/
theorem worst_actors_overlooks : trustScheme.Sound (seenOnce crowded).pids ∧
    ¬ (seenOnce crowded).ReportsWorst .rational := by
  have low : scoreAfter .rational forking Floats.rational.neutral ≤ -363 / 1000 := by
    rw [scores.2.1]
    norm_num
  have overtaken : -743 / 1000 < scoreAfter .rational forking Floats.rational.neutral := by
    rw [scores.2.1]
    norm_num
  have listed := flanked_listed low overtaken
  refine ⟨flanked_sound forking, fun reports => ?_⟩
  have member : 52 ∈ (seenOnce crowded).quarantined .rational := by
    rw [crowded, flanked_quarantined low]
    exact List.mem_cons_self
  have absent : (seenOnce crowded).pids 52 ∉
      ((seenOnce crowded).worstActors .rational).valid.map (·.pid) := by
    have inside : 52 ∈ leftOut (fun s => ((seenOnce crowded).slots s).score) shameMax
        ((seenOnce crowded).quarantined .rational) := by
      rw [crowded, (flanked_settled low overtaken).2]
      exact List.mem_singleton.mpr rfl
    exact ((TrustTable.mem_leftOut_iff_pid rational_total (flanked_sound forking) 52).mp inside).2
  have kept := reports.worst 52 member absent ((seenOnce crowded).entry 280) (by
    rw [crowded, listed]
    exact List.mem_map_of_mem (by decide))
  have lower : ((seenOnce crowded).slots 52).score < ((seenOnce crowded).slots 280).score := by
    rw [crowded, (flanked_first forking).2, scores.2.1,
      flanked_crowd forking (show (280, 1013, preempted) ∈ crowd by decide)]
    norm_num
  exact Bool.eq_false_iff.mp kept (decide_eq_true lower)

end Cognis.Reputation
