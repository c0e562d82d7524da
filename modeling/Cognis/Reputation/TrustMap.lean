import Mathlib.Data.Rat.Lemmas
import Mathlib.Tactic.NormNum
import Cognis.Lib.Runs
import Cognis.Reputation.Trust

/-! The trust table answers as a map from PIDs to what their observations since the last
eviction amount to. -/
namespace Cognis.Reputation
open Probing Runs

inductive TrustOp
  | updateOnExit (pid tgid : Pid) (obs : ExitObservation) (comm : List (BitVec 8))
  | evict (pid : Pid)

/-- The PID of an update is in the table or a slot is free for it. -/
inductive TrustStep {F : Type} (fl : Floats F) (t : TrustTable F) : TrustOp → TrustTable F → Prop
  | updateOnExit (pid tgid : Pid) (obs : ExitObservation) (comm : List (BitVec 8)) :
      Positive pid → Positive tgid →
      (t.findSlot pid = none → ∃ s, t.pids s = pidEmpty ∨ t.pids s = pidTombstone) →
      TrustStep fl t (.updateOnExit pid tgid obs comm) (t.updateOnExit fl pid tgid obs comm)
  | evict (pid : Pid) : Positive pid → TrustStep fl t (.evict pid) (t.evict fl pid)

/-- The observations of each PID since its last eviction, latest first. -/
abbrev History := Pid → List ExitObservation

def History.apply (seen : History) : TrustOp → History
  | .updateOnExit pid _ obs _ => Function.update seen pid (obs :: seen pid)
  | .evict pid => Function.update seen pid []

def History.of (ops : List TrustOp) : History := ops.foldl History.apply fun _ => []

structure Standing (F : Type) where
  score : F
  streak : Nat
  flagged : Bool

/-- The last two exits were both adverse. -/
def watched : List ExitObservation → Bool
  | last :: previous :: _ => last.cheatFlagged && previous.cheatFlagged
  | _ => false

/-- The adverse exits since the last other one. -/
def adverseStreak : List ExitObservation → Nat
  | [] => 0
  | last :: rest => if last.cheatFlagged then adverseStreak rest + 1 else 0

def standing {F : Type} (fl : Floats F) (seen : List ExitObservation) : Standing F where
  score := seen.foldr (scoreAfter fl) fl.neutral
  streak := adverseStreak seen
  flagged := watched seen

theorem watched_iff (seen : List ExitObservation) :
    watched seen = true ↔ 2 ≤ adverseStreak seen := by
  cases seen with
  | nil => decide
  | cons last rest =>
    cases rest with
    | nil => cases cheat : last.cheatFlagged <;> simp [watched, adverseStreak, cheat]
    | cons previous rest =>
      cases cheat : last.cheatFlagged <;> cases cheat' : previous.cheatFlagged <;>
        simp [watched, adverseStreak, cheat, cheat']

theorem saturatingSucc_toNat (c : BitVec 8) :
    (saturatingSucc c).toNat = min (c.toNat + 1) 255 := by
  have bound := c.isLt
  unfold saturatingSucc
  split
  · rename_i full
    rw [full]
    rfl
  · rename_i room
    have below : c.toNat ≠ 255 := fun same => room (BitVec.eq_of_toNat_eq same)
    have one : (1 : BitVec 8).toNat = 1 := rfl
    rw [BitVec.toNat_add, one]
    omega

section

variable {F : Type} {fl : Floats F}

/-- The slot holds the standing of a PID with these observations; the streak saturates. -/
structure TrustSlot.Shows (fl : Floats F) (slot : TrustSlot F) (seen : List ExitObservation) :
    Prop where
  score : slot.score = (standing fl seen).score
  flagged : slot.flagged = (standing fl seen).flagged
  streak : slot.cheatStreak.toNat = min (standing fl seen).streak 255

theorem shows_reset : (TrustSlot.reset fl).Shows fl [] := ⟨rfl, rfl, rfl⟩

theorem TrustSlot.Shows.observe {slot : TrustSlot F} {seen : List ExitObservation}
    (shown : slot.Shows fl seen) (obs : ExitObservation) (comm : List (BitVec 8)) :
    (slot.observe fl obs comm).Shows fl (obs :: seen) := by
  have flag : slot.flagged = watched seen := shown.flagged
  have streak : slot.cheatStreak.toNat = min (adverseStreak seen) 255 := shown.streak
  have old := watched_iff seen
  have new := watched_iff (obs :: seen)
  have score := congrArg (scoreAfter fl obs) shown.score
  cases cheat : obs.cheatFlagged with
  | true =>
    have longer : adverseStreak (obs :: seen) = adverseStreak seen + 1 := if_pos cheat
    have streak' : (saturatingSucc slot.cheatStreak).toNat =
        min (adverseStreak (obs :: seen)) 255 := by
      rw [saturatingSucc_toNat]
      omega
    refine ⟨score, ?_, by simpa only [TrustSlot.observe, cheat, if_true, standing] using streak'⟩
    simp only [TrustSlot.observe, cheat, if_true, standing, BitVec.le_def, streak']
    by_cases twice : 2 ≤ adverseStreak (obs :: seen)
    · rw [new.mpr twice]
      exact if_pos (by simp; omega)
    · have unwatched : watched (obs :: seen) = false :=
        Bool.eq_false_iff.mpr fun flagged => twice (new.mp flagged)
      have before : watched seen = false := Bool.eq_false_iff.mpr fun flagged => by
        have early := old.mp flagged
        omega
      rw [unwatched, flag, before]
      exact if_neg (by simp; omega)
  | false =>
    have reset : adverseStreak (obs :: seen) = 0 := if_neg (by simp [cheat])
    have unwatched : watched (obs :: seen) = false :=
      Bool.eq_false_iff.mpr fun flagged => by
        have twice := new.mp flagged
        omega
    refine ⟨score, ?_, ?_⟩
    · simp only [TrustSlot.observe, cheat, standing, unwatched]
      rfl
    · simp only [TrustSlot.observe, cheat, standing, reset]
      rfl

/-- The table holds what was seen of each PID. -/
structure TrustTable.Tracks (fl : Floats F) (t : TrustTable F) (seen : History) : Prop where
  sound : trustScheme.Sound t.pids
  positive : ∀ s, trustScheme.Live (t.pids s) → Positive (t.pids s)
  shows : ∀ s, (t.slots s).Shows fl (seen (t.pids s))
  absent : ∀ pid, (∀ s, t.pids s ≠ pid) → seen pid = []
  unused : ∀ pid, ¬ Positive pid → seen pid = []

namespace TrustTable.Tracks

variable {t : TrustTable F} {seen : History} {pid tgid : Pid} {s : Fin tableSize}

theorem start : (TrustTable.new fl).Tracks fl fun _ => [] := by
  have blank : ∀ s, ¬ trustScheme.Live ((TrustTable.new fl).pids s) := fun _ live => live.1 rfl
  exact ⟨⟨fun s _ live _ => absurd live (blank s), fun s live => absurd live (blank s)⟩,
    fun s live => absurd live (blank s), fun _ => shows_reset, fun _ _ => rfl, fun _ _ => rfl⟩

variable (tracks : t.Tracks fl seen)
include tracks

theorem seen_blank (blank : ¬ trustScheme.Live (t.pids s)) : seen (t.pids s) = [] :=
  tracks.unused _ fun positive => blank positive.live

theorem take (positive : Positive pid) (absent : ∀ r, t.pids r ≠ pid)
    (blank : ¬ trustScheme.Live (t.pids s))
    (reach : trustScheme.Reaches t.pids (probes (trustScheme.home pid)) s) {slot : TrustSlot F}
    (shown : slot.Shows fl []) :
    TrustTable.Tracks fl ⟨Function.update t.pids s pid, Function.update t.slots s slot⟩ seen where
  sound := tracks.sound.put absent positive.live reach
  positive := fun r live => by
    by_cases here : r = s
    · simpa only [here, Function.update_self] using positive
    · simp only [Function.update_of_ne here] at live ⊢
      exact tracks.positive r live
  shows := fun r => by
    by_cases here : r = s
    · simpa only [here, Function.update_self, tracks.absent pid absent] using shown
    · simpa only [Function.update_of_ne here] using tracks.shows r
  absent := fun q gone => by
    by_cases displaced : t.pids s = q
    · exact displaced ▸ tracks.seen_blank blank
    · apply tracks.absent q
      intro r same
      have here : r ≠ s := fun eq => displaced (eq ▸ same)
      exact gone r (by simpa only [Function.update_of_ne here] using same)
  unused := tracks.unused

/-- The slot of a PID is rewritten, with `obs` seen of it now. -/
theorem rewrite (positive : Positive pid) (stored : t.pids s = pid) {slot : TrustSlot F}
    {now : List ExitObservation} (shown : slot.Shows fl now) :
    TrustTable.Tracks fl { t with slots := Function.update t.slots s slot }
      (Function.update seen pid now) where
  sound := tracks.sound
  positive := tracks.positive
  shows := fun r => by
    by_cases here : r = s
    · simpa only [here, stored, Function.update_self] using shown
    · have other : t.pids r ≠ pid := fun same =>
        here (tracks.sound.unique r s (same ▸ positive.live) (same.trans stored.symm))
      simpa only [Function.update_of_ne here, Function.update_of_ne other] using tracks.shows r
  absent := fun q gone => by
    have other : q ≠ pid := fun same => gone s (stored.trans same.symm)
    rw [Function.update_of_ne other]
    exact tracks.absent q gone
  unused := fun q negative => by
    have other : q ≠ pid := fun same => negative (same ▸ positive)
    rw [Function.update_of_ne other]
    exact tracks.unused q negative

theorem setTgidScore (s : Fin tableSize) (score : F) :
    TrustTable.Tracks fl
      { t with slots := Function.update t.slots s { t.slots s with tgidScore := score } } seen :=
  { tracks with
    shows := fun r => by
      by_cases here : r = s
      · have shown := tracks.shows s
        simp only [here, Function.update_self]
        exact ⟨shown.score, shown.flagged, shown.streak⟩
      · simpa only [Function.update_of_ne here] using tracks.shows r }

theorem getOrInsertSlot (positive : Positive pid)
    (room : t.findSlot pid = none → ∃ s, t.pids s = pidEmpty ∨ t.pids s = pidTombstone) :
    (t.getOrInsertSlot fl pid).2.Tracks fl seen ∧
      (t.getOrInsertSlot fl pid).2.pids (t.getOrInsertSlot fl pid).1 = pid := by
  have claims := tracks.sound.claim (k := pid) positive.live
  unfold TrustTable.getOrInsertSlot
  generalize trustScheme.claim t.pids pid = claimed at claims ⊢
  cases claims with
  | held s stored => exact ⟨tracks, stored⟩
  | free s absent blank reach =>
    exact ⟨tracks.take positive absent blank reach shows_reset, Function.update_self ..⟩
  | full absent full =>
    obtain ⟨s, free⟩ := room ((tracks.sound.find_eq_none_iff positive.live).mpr absent)
    rcases free with empty | tombstone
    · exact absurd empty (full s).1
    · exact absurd tombstone (full s).2

theorem blendTgid (positive : Positive tgid) (score : F) :
    (t.blendTgid fl tgid score).Tracks fl seen := by
  unfold TrustTable.blendTgid
  dsimp only
  generalize home_eq : trustScheme.home tgid = ts
  by_cases mine : t.pids ts = tgid ∨ t.pids ts = pidEmpty
  · rw [if_pos mine]
    by_cases empty : t.pids ts = pidEmpty
    · rw [if_pos empty]
      have absent := tracks.sound.absent_of_home (k := tgid) positive.live (home_eq ▸ empty)
      have blank : ¬ trustScheme.Live (t.pids ts) := fun live => live.1 empty
      have shown := tracks.shows ts
      rw [tracks.seen_blank blank] at shown
      have fresh : TrustSlot.Shows fl { t.slots ts with tgidScore := fl.neutral } [] :=
        ⟨shown.score, shown.flagged, shown.streak⟩
      have claimed := tracks.take positive absent blank (home_eq ▸ Scheme.reaches_home _) fresh
      exact claimed.setTgidScore ts _
    · rw [if_neg empty]
      exact tracks.setTgidScore ts _
  · rw [if_neg mine]
    exact tracks

theorem updateOnExit (positive : Positive pid) (positive' : Positive tgid)
    (room : t.findSlot pid = none → ∃ s, t.pids s = pidEmpty ∨ t.pids s = pidTombstone)
    (obs : ExitObservation) (comm : List (BitVec 8)) :
    (t.updateOnExit fl pid tgid obs comm).Tracks fl
      (Function.update seen pid (obs :: seen pid)) := by
  obtain ⟨inserted, stored⟩ := tracks.getOrInsertSlot positive room
  unfold TrustTable.updateOnExit
  generalize t.getOrInsertSlot fl pid = result at inserted stored ⊢
  obtain ⟨s, t'⟩ := result
  have shown := inserted.shows s
  rw [stored] at shown
  have observed := inserted.rewrite positive stored (shown.observe obs comm)
  have blended := observed.blendTgid positive' ((t'.slots s).observe fl obs comm).score
  exact blended

theorem evict (positive : Positive pid) :
    (t.evict fl pid).Tracks fl (Function.update seen pid []) := by
  unfold TrustTable.evict
  cases found : t.findSlot pid with
  | none =>
    have absent := (tracks.sound.find_eq_none_iff positive.live).mp found
    dsimp only
    rw [← tracks.absent pid absent, Function.update_eq_self]
    exact tracks
  | some s =>
    have stored := (tracks.sound.find_iff positive.live).mp found
    have reset := tracks.rewrite positive stored shows_reset
    have blank : ¬ Positive pidTombstone := by decide
    refine ⟨tracks.sound.evict s, fun r live => ?_, fun r => ?_, fun q gone => ?_, reset.unused⟩
    · have here : r ≠ s := fun eq => live.2 (by rw [eq]; exact Function.update_self ..)
      dsimp only at live ⊢
      rw [Function.update_of_ne here] at live ⊢
      exact tracks.positive r live
    · by_cases here : r = s
      · simpa only [here, Function.update_self, reset.unused _ blank] using shows_reset
      · simpa only [Function.update_of_ne here] using reset.shows r
    · by_cases evicted : q = pid
      · rw [evicted, Function.update_self]
      · refine reset.absent q fun r same => gone r ?_
        have here : r ≠ s := fun eq => evicted (same.symm.trans (eq ▸ stored))
        simpa only [Function.update_of_ne here] using same

theorem step {op : TrustOp} {t' : TrustTable F} (taken : TrustStep fl t op t') :
    t'.Tracks fl (seen.apply op) := by
  cases taken with
  | updateOnExit pid tgid obs comm positive positive' room =>
    exact tracks.updateOnExit positive positive' room obs comm
  | evict pid positive =>
    have evicted := tracks.evict positive
    exact evicted

omit tracks in
theorem run {ops : List TrustOp} {t' : TrustTable F} (run : Run (TrustStep fl) t ops t')
    (tracks : t.Tracks fl seen) : t'.Tracks fl (ops.foldl History.apply seen) := by
  induction run generalizing seen with
  | nil _ => exact tracks
  | cons now _ ih => exact ih (tracks.step now)

theorem seen_of_findSlot (missing : t.findSlot pid = none) : seen pid = [] := by
  by_cases positive : Positive pid
  · exact tracks.absent pid ((tracks.sound.find_eq_none_iff positive.live).mp missing)
  · exact tracks.unused pid positive

theorem shows_findSlot (found : t.findSlot pid = some s) : (t.slots s).Shows fl (seen pid) :=
  Scheme.find_some found ▸ tracks.shows s

theorem trustScore (pid : Pid) : t.trustScore fl pid = (standing fl (seen pid)).score := by
  unfold TrustTable.trustScore
  cases found : t.findSlot pid with
  | none =>
    rw [tracks.seen_of_findSlot found]
    rfl
  | some s => exact (tracks.shows_findSlot found).score

theorem isFlagged (pid : Pid) : t.isFlagged pid = (standing fl (seen pid)).flagged := by
  unfold TrustTable.isFlagged
  cases found : t.findSlot pid with
  | none =>
    rw [tracks.seen_of_findSlot found]
    rfl
  | some s => exact (tracks.shows_findSlot found).flagged

/-- Counting slots by what was seen of their PIDs is counting PIDs. -/
theorem ncard_slots (P : List ExitObservation → Prop) (unseen : ¬ P []) :
    {s | Positive (t.pids s) ∧ P (seen (t.pids s))}.ncard = {pid | P (seen pid)}.ncard := by
  have image : {pid | P (seen pid)} =
      t.pids '' {s | Positive (t.pids s) ∧ P (seen (t.pids s))} := by
    ext pid
    constructor
    · intro holds
      by_cases stored : ∃ s, t.pids s = pid
      · obtain ⟨s, rfl⟩ := stored
        have positive : Positive (t.pids s) := by
          by_contra negative
          rw [Set.mem_ofPred_eq, tracks.unused _ negative] at holds
          exact unseen holds
        exact ⟨s, ⟨positive, holds⟩, rfl⟩
      · rw [Set.mem_ofPred_eq, tracks.absent pid fun s same => stored ⟨s, same⟩] at holds
        exact absurd holds unseen
    · rintro ⟨s, ⟨_, holds⟩, rfl⟩
      exact holds
  rw [image]
  refine (Set.InjOn.ncard_image fun s member r _ same => ?_).symm
  exact tracks.sound.unique s r member.1.live same

/-- The counters pass over free slots, whose PIDs are not positive. -/
theorem count (p : TrustSlot F → Bool) (P : List ExitObservation → Prop) (unseen : ¬ P [])
    (agree : ∀ s, p (t.slots s) = true ↔ P (seen (t.pids s))) :
    (((List.finRange tableSize).filter fun s => t.pids s != 0 && p (t.slots s)).filter fun s =>
      decide (Positive (t.pids s))).length = {pid | P (seen pid)}.ncard := by
  rw [List.filter_filter, length_filter_finRange, ← tracks.ncard_slots P unseen]
  refine congrArg Set.ncard (Set.ext fun s => ?_)
  rw [Set.mem_ofPred_eq, Set.mem_ofPred_eq, Bool.and_eq_true_iff, Bool.and_eq_true_iff,
    decide_eq_true_iff, bne_iff_ne, agree]
  refine and_congr_right fun positive => and_iff_right_of_imp fun _ => ?_
  exact positive.ne_empty

end TrustTable.Tracks

end

/-- After any updates and evictions the table answers and counts as the map from PIDs to
their standings, and an update changes the answers about its own PID only. -/
theorem trust_map {F : Type} {fl : Floats F} {ops : List TrustOp} {t : TrustTable F}
    (run : Run (TrustStep fl) (.new fl) ops t) :
    (∀ pid, t.trustScore fl pid = (standing fl (History.of ops pid)).score ∧
        t.isFlagged pid = (standing fl (History.of ops pid)).flagged) ∧
      t.quarantinedCount fl =
        {pid | fl.lt (standing fl (History.of ops pid)).score fl.trustThreshold = true}.ncard ∧
      t.flaggedCount = {pid | (standing fl (History.of ops pid)).flagged = true}.ncard ∧
      ∀ pid tgid obs comm t', TrustStep fl t (.updateOnExit pid tgid obs comm) t' →
        ∀ q, q ≠ pid → t'.trustScore fl q = t.trustScore fl q ∧ t'.isFlagged q = t.isFlagged q := by
  have tracks : t.Tracks fl (History.of ops) := TrustTable.Tracks.run run .start
  refine ⟨fun pid => ⟨tracks.trustScore pid, tracks.isFlagged pid⟩, ?_, ?_, ?_⟩
  · refine tracks.count (fun slot => fl.lt slot.score fl.trustThreshold)
      (fun seen => fl.lt (standing fl seen).score fl.trustThreshold = true) ?_ fun s => ?_
    · exact Bool.eq_false_iff.mp fl.neutral_not_lt
    · rw [(tracks.shows s).score]
  · refine tracks.count (fun slot => slot.flagged)
      (fun seen => (standing fl seen).flagged = true) Bool.false_ne_true fun s => ?_
    rw [(tracks.shows s).flagged]
  · intro pid tgid obs comm t' taken q other
    have after := tracks.step taken
    have unchanged : (History.of ops).apply (.updateOnExit pid tgid obs comm) q =
        History.of ops q := Function.update_of_ne other ..
    rw [after.trustScore, after.isFlagged, tracks.trustScore, tracks.isFlagged, unchanged]
    exact ⟨rfl, rfl⟩

/-- Exact arithmetic. -/
def Floats.rational : Floats ℚ where
  decimal m e := m / 10 ^ e
  ofU64 n := n
  add := (· + ·)
  sub := (· - ·)
  mul := (· * ·)
  min := Min.min
  max := Max.max
  lt a b := decide (a < b)
  neutral_not_lt := by norm_num

/-- PIDs 2 and 2586 hash to the same slot. -/
theorem trust_map_collision :
    let obs : ExitObservation := { cheatFlagged := true }
    let t := ((TrustTable.new .rational).updateOnExit .rational 2 2 obs []).updateOnExit .rational
      2586 2586 obs []
    ∀ pid, t.trustScore .rational pid = (standing .rational (History.of
        [.updateOnExit 2 2 obs [], .updateOnExit 2586 2586 obs []] pid)).score ∧
      t.isFlagged pid = (standing .rational (History.of
        [.updateOnExit 2 2 obs [], .updateOnExit 2586 2586 obs []] pid)).flagged := by
  intro obs t
  have first : TrustStep .rational _ _ _ := .updateOnExit (t := .new .rational) 2 2 obs []
    (by decide) (by decide) fun _ => ⟨0, .inl rfl⟩
  have second : TrustStep .rational _ _ t := .updateOnExit 2586 2586 obs [] (by decide) (by decide)
    fun _ => ⟨0, .inl (by decide +kernel)⟩
  exact (trust_map (.cons first (.single second))).1

end Cognis.Reputation
