import Cognis.Lib.Rounding
import Cognis.Reputation.Departures
import Cognis.Reputation.WorstActors

/-! What a departure can do to a standing. An observation of the tracker never carries the
adverse flag, so that scores stay well above the threshold and the watchlist is empty. -/
namespace Cognis.Reputation
open Probing Rounding Runs

/-- What the scores need of floating point: numbers up to 2 in size are exact to a
thousandth, and comparisons are right. -/
structure Floats.Accurate {F : Type} (fl : Floats F) (Holds : F → ℚ → Prop) : Prop where
  decimal (m : Int) (e : Nat) : |(m : ℚ) / 10 ^ e| ≤ 1 →
    Between Holds (m / 10 ^ e - 1 / 1000) (m / 10 ^ e + 1 / 1000) (fl.decimal m e)
  add : Rounds Holds (1 / 1000) 2 fl.add (· + ·)
  sub : Rounds Holds (1 / 1000) 2 fl.sub (· - ·)
  mul : Rounds Holds (1 / 1000) 2 fl.mul (· * ·)
  min : Picks Holds fl.min Min.min
  max : Picks Holds fl.max Max.max
  lt (x y : F) (a b : ℚ) : Holds x a → Holds y b → (fl.lt x y = true ↔ a < b)

/-- A score clear of the threshold. -/
def Fair {F : Type} (Holds : F → ℚ → Prop) (score : F) : Prop :=
  Between Holds (-3 / 10) (3 / 2) score

namespace Floats.Accurate

variable {F : Type} {fl : Floats F} {Holds : F → ℚ → Prop} (accurate : fl.Accurate Holds)
  {score : F}
include accurate

theorem neutral : Fair Holds fl.neutral := by
  refine (accurate.decimal 0 0 (by norm_num)).mono ?_ ?_
  · norm_num
  · norm_num

theorem above (fair : Fair Holds score) : fl.lt score fl.trustThreshold = false := by
  refine fair.lt_eq_false accurate.lt (accurate.decimal (-35) 2 ?_) ?_
  · norm_num
  · norm_num

theorem keeps {lo hi : ℚ} {k : Int} (h : Between Holds lo hi score) (nonneg : 0 ≤ k)
    (part : k ≤ 99) (low : -2 ≤ lo) (high : hi ≤ 2) :
    Between Holds (k / 100 * lo - 3 / 1000) (k / 100 * hi + 3 / 1000)
      (fl.mul score (fl.decimal k 2)) := by
  have nonneg : (0 : ℚ) ≤ k := by exact_mod_cast nonneg
  have part : (k : ℚ) ≤ 99 := by exact_mod_cast part
  have factor := accurate.decimal k 2 (abs_le.mpr ⟨by linarith, by linarith⟩)
  norm_num only at factor
  refine (h.scale accurate.mul factor (by linarith) (by linarith) low high le_rfl).mono ?_ ?_
  · linarith
  · linarith

/-- The cooperative signals: a part of the score is kept and a bonus added, up to one. -/
theorem gain {lo lo' : ℚ} {k d : Int} (h : Between Holds lo (3 / 2) score) (low : -1 ≤ lo)
    (nonneg : 0 ≤ k) (part : k ≤ 99) (bonus : 0 ≤ d) (small : d ≤ 10)
    (after : lo' ≤ k / 100 * lo + d / 100 - 5 / 1000) (below : lo' ≤ 999 / 1000) :
    Between Holds lo' (3 / 2)
      (fl.min (fl.add (fl.mul score (fl.decimal k 2)) (fl.decimal d 2)) (fl.decimal 1 0)) := by
  have kept := accurate.keeps h nonneg part (by linarith) (by norm_num)
  have nonneg : (0 : ℚ) ≤ k := by exact_mod_cast nonneg
  have part : (k : ℚ) ≤ 99 := by exact_mod_cast part
  have bonus : (0 : ℚ) ≤ d := by exact_mod_cast bonus
  have small : (d : ℚ) ≤ 10 := by exact_mod_cast small
  have bonus := accurate.decimal d 2 (abs_le.mpr ⟨by linarith, by linarith⟩)
  have one := accurate.decimal 1 0 (by norm_num)
  norm_num only at bonus one
  have loss : -99 / 100 ≤ k / 100 * lo := by nlinarith
  refine ((kept.add accurate.add bonus (by linarith) (by linarith)).min accurate.min one).mono ?_ ?_
  · exact le_min (by linarith) below
  · exact (min_le_right _ _).trans (by norm_num)

/-- The penalty for a slice that was used up, down to minus one. -/
theorem loss {lo lo' : ℚ} (h : Between Holds lo (3 / 2) score) (low : -1 ≤ lo)
    (after : lo' ≤ 93 / 100 * lo - 75 / 1000) :
    Between Holds lo' (3 / 2) (fl.max
      (fl.sub (fl.mul score (fl.decimal 93 2)) (fl.decimal 7 2)) (fl.decimal (-1) 0)) := by
  have kept := accurate.keeps h (k := 93) (by decide) (by decide) (by linarith) (by norm_num)
  have penalty := accurate.decimal 7 2 (by norm_num)
  have least := accurate.decimal (-1) 0 (by norm_num)
  norm_num only at kept penalty least
  refine ((kept.sub accurate.sub penalty (by linarith) (by linarith)).max accurate.max least).mono
    ?_ ?_
  · exact le_max_of_le_left (by linarith)
  · exact max_le (by norm_num) (by norm_num)

/-- A departure of a task that was never flagged leaves the score clear of the threshold. -/
theorem departs (fair : Fair Holds score) {lt : TaskLifetime} (honest : lt.cheatFlagged = false) :
    Fair Holds (scoreAfter fl (exitObservation lt) score) := by
  have underrun : Fair Holds (if decide (lt.sliceUsedNs < lt.sliceAssignedNs / 2) = true then
      fl.min (fl.add (fl.mul score (fl.decimal 95 2)) (fl.decimal 10 2)) (fl.decimal 1 0)
      else score) := by
    split
    · refine accurate.gain fair ?_ ?_ ?_ ?_ ?_ ?_ ?_ <;> norm_num
    · exact fair
  simp only [scoreAfter, exitObservation, honest]
  generalize (if decide (lt.sliceUsedNs < lt.sliceAssignedNs / 2) = true then _ else score) = early
    at underrun
  have clean : Between Holds (-24 / 100) (3 / 2)
      (fl.min (fl.add (fl.mul early (fl.decimal 97 2)) (fl.decimal 6 2)) (fl.decimal 1 0)) := by
    refine accurate.gain underrun ?_ ?_ ?_ ?_ ?_ ?_ ?_ <;> norm_num
  simp only [gt_iff_lt, not_lt_zero, ↓reduceIte, Bool.false_eq_true, Bool.not_false,
    Bool.and_self]
  split
  · refine accurate.loss clean ?_ ?_ <;> norm_num
  · refine clean.mono ?_ ?_ <;> norm_num

end Floats.Accurate

/-- What an event does, whether or not the table has room. -/
def Tracker.apply {F : Type} (fl : Floats F) (st : Tracker F) : TrackerEvent → Tracker F
  | .dequeue pid startTs stopTs sliceNs now => st.noteDequeued pid startTs stopTs sliceNs now
  | .disable pid usersched kthread reserved => st.cognisDisable pid usersched kthread reserved
  | .drain maxBatch fails => st.drainExitedTasks fl fails maxBatch
  | .flush instant reset now => st.flushTrustUpdates fl instant reset now

/-- A score clear of the threshold, and no flag. -/
structure TrustSlot.Clear {F : Type} (Holds : F → ℚ → Prop) (slot : TrustSlot F) : Prop where
  fair : Fair Holds slot.score
  unflagged : slot.flagged = false

def TrustTable.Clear {F : Type} (Holds : F → ℚ → Prop) (t : TrustTable F) : Prop :=
  ∀ s, (t.slots s).Clear Holds

def Lifetimes.Honest (t : Lifetimes) : Prop := ∀ s, (t.lifetimeTable s).cheatFlagged = false

/-- No record and no slot carries an adverse mark. -/
structure Tracker.Clear {F : Type} (Holds : F → ℚ → Prop) (st : Tracker F) : Prop where
  honest : st.lifetimes.Honest
  trust : st.trust.Clear Holds

namespace Lifetimes.Honest

variable {t : Lifetimes} (honest : t.Honest) (pid : Pid)
include honest

theorem set {lt : TaskLifetime} (s : Fin tableSize) (unflagged : lt.cheatFlagged = false)
    (pids : Fin tableSize → Pid) :
    Lifetimes.Honest ⟨pids, Function.update t.lifetimeTable s lt⟩ :=
  (Function.forall_update_iff t.lifetimeTable fun _ (r : TaskLifetime) =>
    r.cheatFlagged = false).mpr ⟨unflagged, fun r _ => honest r⟩

theorem evict : (t.lifetimeEvict pid).Honest := by
  unfold Lifetimes.lifetimeEvict
  split
  · exact honest.set _ rfl _
  · exact honest

theorem write (f : TaskLifetime → TaskLifetime) (unflagged : ∀ lt, (f lt).cheatFlagged = false) :
    (t.lifetimeGetMutOrDefault pid f).Honest := by
  unfold Lifetimes.lifetimeGetMutOrDefault Lifetimes.lifetimeFindOrInsertSlot
  cases lifetimeScheme.claim t.lifetimePids pid with
  | held s => exact honest.set s (unflagged _) _
  | fresh dst => exact Lifetimes.Honest.set (honest.set dst rfl _) dst (unflagged _) _

end Lifetimes.Honest

section

variable {F : Type} {fl : Floats F} {Holds : F → ℚ → Prop}

namespace TrustTable.Clear

variable {t : TrustTable F} (clear : t.Clear Holds)
include clear

theorem set {slot : TrustSlot F} (s : Fin tableSize) (slot_clear : slot.Clear Holds)
    (pids : Fin tableSize → Pid) :
    TrustTable.Clear Holds ⟨pids, Function.update t.slots s slot⟩ :=
  (Function.forall_update_iff t.slots fun _ (r : TrustSlot F) => r.Clear Holds).mpr
    ⟨slot_clear, fun r _ => clear r⟩

theorem blendTgid (tgid : Pid) (score : F) : (t.blendTgid fl tgid score).Clear Holds := by
  have rescored : ∀ {u : TrustTable F} (s : Fin tableSize) (tgidScore : F)
      (pids : Fin tableSize → Pid), u.Clear Holds →
      TrustTable.Clear Holds ⟨pids, Function.update u.slots s { u.slots s with tgidScore }⟩ :=
    fun {u} s tgidScore pids before =>
      have slot : TrustSlot.Clear Holds { u.slots s with tgidScore } :=
        ⟨(before s).fair, (before s).unflagged⟩
      before.set s slot pids
  unfold TrustTable.blendTgid
  dsimp only
  split
  · split
    · exact rescored _ _ _ (rescored _ _ _ clear)
    · exact rescored _ _ _ clear
  · exact clear

end TrustTable.Clear

theorem Tracker.Clear.cognisDisable {st : Tracker F} (clear : st.Clear Holds) (pid : Pid)
    (usersched kthread reserved : Bool) :
    (st.cognisDisable pid usersched kthread reserved).Clear Holds := by
  unfold Tracker.cognisDisable
  split
  · exact clear
  split
  · exact clear
  · exact ⟨clear.honest, clear.trust⟩

end

section

variable {F : Type} {fl : Floats F} {Holds : F → ℚ → Prop} (accurate : fl.Accurate Holds)
include accurate

theorem TrustSlot.clear_reset : (TrustSlot.reset fl).Clear Holds := ⟨accurate.neutral, rfl⟩

theorem TrustSlot.Clear.departs {slot : TrustSlot F} (clear : slot.Clear Holds)
    {lt : TaskLifetime} (honest : lt.cheatFlagged = false) (comm : List (BitVec 8)) :
    (slot.observe fl (exitObservation lt) comm).Clear Holds := by
  refine ⟨accurate.departs clear.fair honest, ?_⟩
  simp only [TrustSlot.observe, exitObservation, honest]
  rfl

namespace TrustTable.Clear

variable {t : TrustTable F} (clear : t.Clear Holds)
include clear

theorem getOrInsertSlot (pid : Pid) : (t.getOrInsertSlot fl pid).2.Clear Holds := by
  unfold TrustTable.getOrInsertSlot
  split
  · exact clear
  · exact clear.set _ (TrustSlot.clear_reset accurate) _

theorem departs (pid tgid : Pid) {lt : TaskLifetime} (honest : lt.cheatFlagged = false)
    (comm : List (BitVec 8)) :
    (t.updateOnExit fl pid tgid (exitObservation lt) comm).Clear Holds := by
  have inserted := clear.getOrInsertSlot accurate pid
  unfold TrustTable.updateOnExit
  generalize t.getOrInsertSlot fl pid = result at inserted ⊢
  exact blendTgid (inserted.set _ ((inserted result.1).departs accurate honest comm) _) tgid _

theorem evict (pid : Pid) : (t.evict fl pid).Clear Holds := by
  unfold TrustTable.evict
  split
  · exact clear.set _ (TrustSlot.clear_reset accurate) _
  · exact clear

end TrustTable.Clear

namespace Tracker.Clear

variable {st : Tracker F} (clear : st.Clear Holds)
include clear

theorem drain (fails : Nat → Bool) (budget : Nat) :
    (st.drainExitedTasks fl fails budget).Clear Holds := by
  induction budget generalizing st with
  | zero => exact clear
  | succ left ih =>
    unfold Tracker.drainExitedTasks
    split
    · exact clear
    split
    · exact clear
    · rename_i pid rest _
      dsimp only
      split
      · exact ih ⟨clear.honest.evict pid, clear.trust.evict accurate pid⟩
      · exact ih ⟨clear.honest, clear.trust⟩

theorem finalise (pid : Pid) : (st.finalise fl pid).Clear Holds := by
  unfold Tracker.finalise
  split
  · rename_i s _
    exact ⟨clear.honest.evict pid, clear.trust.departs accurate pid pid (clear.honest s) []⟩
  · exact clear

theorem flush (instant reset now : Nat) :
    (st.flushTrustUpdates fl instant reset now).Clear Holds := by
  unfold Tracker.flushTrustUpdates
  split
  · exact clear
  · have marked : Tracker.Clear Holds { st with lastTrustFlush := reset } :=
      ⟨clear.honest, clear.trust⟩
    dsimp only
    generalize Tracker.stalePids _ now = pids
    generalize { st with lastTrustFlush := reset } = st' at marked
    induction pids generalizing st' with
    | nil => exact marked
    | cons pid rest ih => exact ih _ (marked.finalise accurate pid)

theorem apply (e : TrackerEvent) : (st.apply fl e).Clear Holds := by
  cases e with
  | dequeue pid startTs stopTs sliceNs now =>
    have noted := clear.honest.write pid (fun _ => dequeuedLifetime startTs stopTs sliceNs now)
      fun _ => rfl
    exact ⟨noted, clear.trust⟩
  | disable pid usersched kthread reserved =>
    exact clear.cognisDisable pid usersched kthread reserved
  | drain maxBatch fails => exact clear.drain accurate fails maxBatch
  | flush instant reset now => exact clear.flush accurate instant reset now

end Tracker.Clear

theorem Tracker.clear_run (es : List TrackerEvent) :
    (es.foldl (Tracker.apply fl) (.init fl)).Clear Holds := by
  have start : (Tracker.init fl).Clear Holds :=
    ⟨fun _ => rfl, fun _ => TrustSlot.clear_reset accurate⟩
  generalize Tracker.init fl = st at start
  induction es generalizing st with
  | nil => exact start
  | cons e es ih => exact ih _ (start.apply accurate e)

/-- Nothing that the tracker does marks a task: whatever happens, no score is below the
threshold, no flag is set, both counters are zero and the watchlist is empty. -/
theorem watchlist_stays_empty (es : List TrackerEvent) :
    let trust := (es.foldl (Tracker.apply fl) (.init fl)).trust
    (∀ pid, fl.lt (trust.trustScore fl pid) fl.trustThreshold = false ∧
      trust.isFlagged pid = false) ∧
    trust.quarantinedCount fl = 0 ∧ trust.flaggedCount = 0 ∧ (trust.worstActors fl).n = 0 := by
  intro trust
  have clear : trust.Clear Holds := (Tracker.clear_run accurate es).trust
  have above := fun s => accurate.above (clear s).fair
  have none : trust.quarantined fl = [] :=
    List.filter_eq_nil_iff.mpr fun s _ => by simp [above s]
  refine ⟨fun pid => ⟨?_, ?_⟩, ?_, ?_, ?_⟩
  · unfold TrustTable.trustScore
    cases trust.findSlot pid with
    | none => exact fl.neutral_not_lt
    | some s => exact above s
  · unfold TrustTable.isFlagged
    cases trust.findSlot pid with
    | none => rfl
    | some s => exact (clear s).unflagged
  · rw [TrustTable.quarantinedCount_eq, none, List.length_nil]
  · refine List.length_eq_zero_iff.mpr (List.filter_eq_nil_iff.mpr fun s member => ?_)
    have flagged := (List.mem_filter.mp member).2
    simp [(clear s).unflagged] at flagged
  · rw [TrustTable.worstActors_eq, none]
    rfl

end

theorem Floats.rational_accurate : Floats.rational.Accurate fun x q => x = q where
  decimal m e _ := ⟨_, rfl, by simp [Floats.rational], by simp [Floats.rational]⟩
  add x y a b hx hy _ := ⟨_, rfl, by simp [Floats.rational, hx, hy]⟩
  sub x y a b hx hy _ := ⟨_, rfl, by simp [Floats.rational, hx, hy]⟩
  mul x y a b hx hy _ := ⟨_, rfl, by simp [Floats.rational, hx, hy]⟩
  min x y a b hx hy := by rw [hx, hy]; rfl
  max x y a b hx hy := by rw [hx, hy]; rfl
  lt x y a b hx hy := by simp [Floats.rational, hx, hy]

/-- Task 7 burns its slice, is noted and folded when it is stale. -/
theorem burner_not_listed :
    let trust := ([.dequeue 7 0 10 10 1, .flush 3000000000 3000000000 3000000000].foldl
      (Tracker.apply Floats.rational) (.init .rational)).trust
    (∀ pid, Floats.rational.lt (trust.trustScore .rational pid) Floats.rational.trustThreshold =
      false ∧ trust.isFlagged pid = false) ∧
    trust.quarantinedCount .rational = 0 ∧ trust.flaggedCount = 0 ∧
    (trust.worstActors .rational).n = 0 :=
  watchlist_stays_empty Floats.rational_accurate _

end Cognis.Reputation
