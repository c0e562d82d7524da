import Cognis.Reputation.Exits

/-! When each record that leaves the lifetime table becomes one observation. -/
namespace Cognis.Reputation
open Probing Runs

def TrustTable.replay {F : Type} (fl : Floats F) (t : TrustTable F) : TrustOp → TrustTable F
  | .updateOnExit pid tgid obs comm => t.updateOnExit fl pid tgid obs comm
  | .evict pid => t.evict fl pid

def TrustOp.observed (pid : Pid) : TrustOp → Option ExitObservation
  | .updateOnExit p _ obs _ => if p = pid then some obs else none
  | .evict _ => none

def drained (fails : Nat → Bool) : Nat → List Pid → List Pid
  | 0, _ => []
  | _ + 1, [] => []
  | left + 1, pid :: rest => if fails left then [] else pid :: drained fails left rest

section

variable {F : Type}

namespace Tracker

/-- The observations folded into the trust table for a PID so far. -/
def folds (st : Tracker F) (pid : Pid) : List ExitObservation :=
  st.trustOps.filterMap (TrustOp.observed pid)

end Tracker

/-- The record of the PID that leaves the table between two states. -/
def departure (st st' : Tracker F) (pid : Pid) : Option TaskLifetime :=
  if st'.lifetimes.lifetimeGet pid = none then st.lifetimes.lifetimeGet pid else none

/-- Each record that leaves is folded once, as its observation, and nothing else is. -/
def FinalisesOnce (st st' : Tracker F) : Prop :=
  ∀ pid, st'.folds pid = st.folds pid ++ ((departure st st' pid).map exitObservation).toList

def ExitsUntracked (st : Tracker F) : TrackerEvent → Prop
  | .drain maxBatch fails =>
    ∀ pid ∈ drained fails maxBatch st.exits, st.lifetimes.lifetimeGet pid = none
  | _ => True

variable {fl : Floats F} {st : Tracker F} {pid : Pid}

theorem folds_updateOnExit (p tgid : Pid) (obs : ExitObservation) (comm : List (BitVec 8)) :
    (st.updateOnExit fl p tgid obs comm).folds pid =
      st.folds pid ++ (if p = pid then some obs else none).toList := by
  unfold Tracker.folds Tracker.updateOnExit
  rw [List.filterMap_append]
  by_cases same : p = pid
  · simp [TrustOp.observed, same]
  · simp [TrustOp.observed, same]

theorem folds_evictTrust (p : Pid) : (st.evictTrust fl p).folds pid = st.folds pid := by
  unfold Tracker.folds Tracker.evictTrust
  rw [List.filterMap_append]
  exact List.append_nil _

theorem finalisesOnce_iff_kept {st' : Tracker F} (folds : ∀ pid, st'.folds pid = st.folds pid) :
    FinalisesOnce st st' ↔
      ∀ pid, st'.lifetimes.lifetimeGet pid = none → st.lifetimes.lifetimeGet pid = none := by
  apply forall_congr'
  intro pid
  rw [folds pid, List.self_eq_append_right]
  unfold departure
  split
  · rename_i gone
    cases st.lifetimes.lifetimeGet pid <;> simp [gone]
  · rename_i kept
    simp [kept]

/-- The table is sound, and the log tells how the trust table came about. -/
structure Tracker.Sound (fl : Floats F) (st : Tracker F) : Prop where
  lifetimes : st.lifetimes.Sound
  trust : st.trust = st.trustOps.foldl (TrustTable.replay fl) (.new fl)

theorem Tracker.sound_init : (Tracker.init fl).Sound fl := ⟨Lifetimes.sound_init, rfl⟩

namespace Tracker.Sound

variable (sound : st.Sound fl)
include sound

theorem noteDequeued (positive : Positive pid) (startTs stopTs sliceNs now : Nat) :
    (st.noteDequeued pid startTs stopTs sliceNs now).Sound fl := by
  obtain ⟨kept, _⟩ := sound.lifetimes.getMutOrDefault positive fun _ =>
    dequeuedLifetime startTs stopTs sliceNs now
  exact ⟨kept, sound.trust⟩

theorem cognisDisable (usersched kthread reserved : Bool) :
    (st.cognisDisable pid usersched kthread reserved).Sound fl := by
  unfold Tracker.cognisDisable
  split
  · exact sound
  split
  · exact sound
  · exact ⟨sound.lifetimes, sound.trust⟩

theorem evict (positive : Positive pid) :
    (Tracker.evictTrust fl { st with lifetimes := st.lifetimes.lifetimeEvict pid }
      pid).Sound fl := by
  refine ⟨(sound.lifetimes.evict positive).1, ?_⟩
  have log := congrArg (TrustTable.evict fl · pid) sound.trust
  simpa only [Tracker.evictTrust, List.foldl_append, List.foldl_cons, List.foldl_nil,
    TrustTable.replay] using log

theorem finalise (positive : Positive pid) : (st.finalise fl pid).Sound fl := by
  unfold Tracker.finalise
  cases found : st.lifetimes.lifetimeFindSlot pid with
  | none => exact sound
  | some s =>
    refine ⟨(sound.lifetimes.evict positive).1, ?_⟩
    have log := congrArg (fun t => TrustTable.updateOnExit fl t pid pid
      (exitObservation (st.lifetimes.lifetimeTable s)) []) sound.trust
    simpa only [Tracker.updateOnExit, List.foldl_append, List.foldl_cons, List.foldl_nil,
      TrustTable.replay] using log

theorem drain (fails : Nat → Bool) (budget : Nat) :
    (st.drainExitedTasks fl fails budget).Sound fl ∧
      ∀ q, (st.drainExitedTasks fl fails budget).folds q = st.folds q ∧
        (st.drainExitedTasks fl fails budget).lifetimes.lifetimeGet q =
          if q ∈ drained fails budget st.exits then none else st.lifetimes.lifetimeGet q := by
  induction budget generalizing st with
  | zero => exact ⟨sound, fun q => ⟨rfl, rfl⟩⟩
  | succ left ih =>
    unfold Tracker.drainExitedTasks
    cases pending : st.exits with
    | nil =>
      rw [ite_self, drained]
      exact ⟨sound, fun q => ⟨rfl, rfl⟩⟩
    | cons pid rest =>
      rw [drained]
      by_cases failed : fails left = true
      · rw [if_pos failed, if_pos failed]
        exact ⟨sound, fun q => ⟨rfl, rfl⟩⟩
      rw [if_neg failed, if_neg failed]
      dsimp only
      have popped : Tracker.Sound fl { st with exits := rest } := ⟨sound.lifetimes, sound.trust⟩
      by_cases positive : Positive pid
      · rw [if_pos positive]
        obtain ⟨sound', step⟩ := ih (popped.evict positive)
        refine ⟨sound', fun q => ?_⟩
        obtain ⟨folds, get⟩ := step q
        refine ⟨folds.trans (folds_evictTrust pid), get.trans ?_⟩
        simp only [Tracker.evictTrust, sound.lifetimes.get_evict positive, Function.update_apply,
          List.mem_cons]
        by_cases first : q = pid
        · simp [first]
        · simp [first]
      · rw [if_neg positive]
        obtain ⟨sound', step⟩ := ih popped
        refine ⟨sound', fun q => ?_⟩
        obtain ⟨folds, get⟩ := step q
        refine ⟨folds, get.trans ?_⟩
        simp only [List.mem_cons]
        by_cases first : q = pid
        · rw [first, Lifetimes.lifetimeGet_not_positive positive, ite_self, ite_self]
        · simp [first]

/-- Finalising a tracked PID takes its record and folds its observation. -/
theorem finalise_tracked {r : TaskLifetime} (tracked : st.lifetimes.lifetimeGet pid = some r) :
    (st.finalise fl pid).lifetimes.lifetimeGet =
        Function.update st.lifetimes.lifetimeGet pid none ∧
      ∀ q, (st.finalise fl pid).folds q =
        st.folds q ++ (if pid = q then some (exitObservation r) else none).toList := by
  have positive := Lifetimes.positive_of_get tracked
  unfold Tracker.finalise
  cases found : st.lifetimes.lifetimeFindSlot pid with
  | none =>
    rw [Lifetimes.lifetimeGet, found] at tracked
    cases tracked
  | some s =>
    have record : st.lifetimes.lifetimeTable s = r := by
      rw [sound.lifetimes.get_stored positive
        ((sound.lifetimes.slots.find_iff positive.live).mp found)] at tracked
      exact Option.some.inj tracked
    dsimp only
    refine ⟨sound.lifetimes.get_evict positive, fun q => ?_⟩
    rw [folds_updateOnExit, record]
    rfl

theorem finalise_all {pids : List Pid} (nodup : pids.Nodup)
    (tracked : ∀ pid ∈ pids, st.lifetimes.lifetimeGet pid ≠ none) :
    (pids.foldl (Tracker.finalise fl) st).Sound fl ∧
      ∀ q, (pids.foldl (Tracker.finalise fl) st).lifetimes.lifetimeGet q =
          (if q ∈ pids then none else st.lifetimes.lifetimeGet q) ∧
        (pids.foldl (Tracker.finalise fl) st).folds q = st.folds q ++
          ((if q ∈ pids then st.lifetimes.lifetimeGet q else none).map exitObservation).toList := by
  induction pids generalizing st with
  | nil => exact ⟨sound, fun q => ⟨rfl, (List.append_nil _).symm⟩⟩
  | cons pid rest ih =>
    obtain ⟨new, nodup⟩ := List.nodup_cons.mp nodup
    obtain ⟨r, record⟩ := Option.ne_none_iff_exists'.mp (tracked pid List.mem_cons_self)
    obtain ⟨get, folds⟩ := sound.finalise_tracked record
    have positive := Lifetimes.positive_of_get record
    have others : ∀ q, q ≠ pid →
        (st.finalise fl pid).lifetimes.lifetimeGet q = st.lifetimes.lifetimeGet q := fun q other =>
      (congrFun get q).trans (Function.update_of_ne other ..)
    obtain ⟨sound', after⟩ := ih (sound.finalise positive) nodup fun q member => by
      rw [others q fun same => new (same ▸ member)]
      exact tracked q (List.mem_cons_of_mem _ member)
    refine ⟨sound', fun q => ?_⟩
    obtain ⟨get', folds'⟩ := after q
    rw [List.foldl_cons, get', folds', folds q]
    by_cases first : q = pid
    · subst first
      simp [new, get, record]
    · simp [first, Ne.symm first, others q first]

theorem stalePids (now : Nat) :
    (st.stalePids now).Nodup ∧ ∀ pid ∈ st.stalePids now, st.lifetimes.lifetimeGet pid ≠ none := by
  unfold Tracker.stalePids
  constructor
  · refine List.Nodup.sublist (List.take_sublist _ _) (List.Nodup.map_on ?_ ?_)
    · intro s member r _ same
      obtain ⟨positive, _⟩ := Bool.and_eq_true_iff.mp (List.mem_filter.mp member).2
      exact sound.lifetimes.slots.unique s r (of_decide_eq_true positive).live same
    · exact (List.nodup_finRange tableSize).filter _
  · intro pid member
    obtain ⟨s, stale, rfl⟩ := List.mem_map.mp (List.mem_of_mem_take member)
    obtain ⟨positive, _⟩ := Bool.and_eq_true_iff.mp (List.mem_filter.mp stale).2
    have positive := of_decide_eq_true positive
    rw [sound.lifetimes.get_stored positive rfl]
    exact Option.some_ne_none _

end Tracker.Sound

theorem flushTrustUpdates_finalisesOnce (sound : st.Sound fl) (instant reset now : Nat) :
    (st.flushTrustUpdates fl instant reset now).Sound fl ∧
      FinalisesOnce st (st.flushTrustUpdates fl instant reset now) := by
  unfold Tracker.flushTrustUpdates
  by_cases early : instant - st.lastTrustFlush < nsecPerSec
  · rw [if_pos early]
    exact ⟨sound, (finalisesOnce_iff_kept fun _ => rfl).mpr fun _ => id⟩
  · rw [if_neg early]
    have marked : Tracker.Sound fl { st with lastTrustFlush := reset } :=
      ⟨sound.lifetimes, sound.trust⟩
    obtain ⟨nodup, tracked⟩ := marked.stalePids now
    obtain ⟨sound', after⟩ := marked.finalise_all nodup tracked
    refine ⟨sound', fun pid => ?_⟩
    obtain ⟨get, folds⟩ := after pid
    rw [folds, departure, get]
    by_cases stale : pid ∈ Tracker.stalePids { st with lastTrustFlush := reset } now
    · simp only [if_pos stale, if_true]
      rfl
    · simp only [if_neg stale]
      split
      · rename_i gone
        simp only [gone]
        rfl
      · rfl

/-- A task that is noted without displacing another takes no record away. -/
theorem noteDequeued_keeps (sound : st.Sound fl) (positive : Positive pid)
    (room : st.lifetimes.lifetimeGet pid ≠ none ∨
      Records.count st.lifetimes.lifetimeGet < tableSize) (startTs stopTs sliceNs now : Nat)
    (q : Pid) (gone : (st.noteDequeued pid startTs stopTs sliceNs now).lifetimes.lifetimeGet q =
      none) : st.lifetimes.lifetimeGet q = none := by
  obtain ⟨_, step⟩ := sound.lifetimes.getMutOrDefault positive fun _ =>
    dequeuedLifetime startTs stopTs sliceNs now
  unfold Tracker.noteDequeued at gone
  dsimp only at gone
  generalize Lifetimes.lifetimeGet (st.lifetimes.lifetimeGetMutOrDefault _ _) = after at step gone
  cases step with
  | write pid write r old =>
    have other : q ≠ pid := fun same => by simp [same] at gone
    rwa [Function.update_of_ne other] at gone
  | insert pid write new less =>
    have other : q ≠ pid := fun same => by simp [same] at gone
    rwa [Function.update_of_ne other] at gone
  | displace pid victim write new whole differs held =>
    rcases room with tracked | less
    · exact absurd new tracked
    · exact absurd whole less.ne

theorem drain_finalisesOnce_iff (sound : st.Sound fl) (fails : Nat → Bool) (budget : Nat) :
    FinalisesOnce st (st.drainExitedTasks fl fails budget) ↔
      ∀ pid ∈ drained fails budget st.exits, st.lifetimes.lifetimeGet pid = none := by
  obtain ⟨_, step⟩ := sound.drain fails budget
  rw [finalisesOnce_iff_kept fun pid => (step pid).1]
  apply forall_congr'
  intro pid
  rw [(step pid).2]
  by_cases read : pid ∈ drained fails budget st.exits
  · simp [read]
  · simp [read]

/-- Only a drain that reads a tracked PID does not finalise what leaves. -/
theorem TrackerStep.finalisesOnce_iff {e : TrackerEvent} {st' : Tracker F}
    (step : TrackerStep fl st e st') (sound : st.Sound fl) :
    st'.Sound fl ∧ (FinalisesOnce st st' ↔ ExitsUntracked st e) := by
  cases step with
  | dequeue pid startTs stopTs sliceNs now positive room =>
    refine ⟨sound.noteDequeued positive startTs stopTs sliceNs now, iff_of_true ?_ trivial⟩
    have folds : ∀ q, (st.noteDequeued pid startTs stopTs sliceNs now).folds q = st.folds q :=
      fun _ => rfl
    exact (finalisesOnce_iff_kept folds).mpr
      (noteDequeued_keeps sound positive room startTs stopTs sliceNs now)
  | disable pid usersched kthread reserved =>
    refine ⟨sound.cognisDisable usersched kthread reserved, iff_of_true ?_ trivial⟩
    unfold Tracker.cognisDisable
    split
    · exact (finalisesOnce_iff_kept fun _ => rfl).mpr fun _ => id
    split
    · exact (finalisesOnce_iff_kept fun _ => rfl).mpr fun _ => id
    · exact (finalisesOnce_iff_kept fun _ => rfl).mpr fun _ => id
  | drain maxBatch fails =>
    exact ⟨(sound.drain fails maxBatch).1, drain_finalisesOnce_iff sound fails maxBatch⟩
  | flush instant reset now =>
    obtain ⟨sound', finalised⟩ := flushTrustUpdates_finalisesOnce sound instant reset now
    exact ⟨sound', iff_of_true finalised trivial⟩

end

/-- The trust table is what the logged operations make of an empty one. Every step of a run
finalises what leaves exactly if no step reads a tracked PID from the exit ring. -/
theorem finalised_iff {F : Type} {fl : Floats F} {es : List TrackerEvent} {st : Tracker F}
    (run : Run (TrackerStep fl) (.init fl) es st) :
    st.trust = st.trustOps.foldl (TrustTable.replay fl) (.new fl) ∧
      (Run (fun st e st' => TrackerStep fl st e st' ∧ FinalisesOnce st st') (.init fl) es st ↔
        Run (fun st e st' => TrackerStep fl st e st' ∧ ExitsUntracked st e) (.init fl) es st) := by
  have kept : ∀ st e st', TrackerStep fl st e st' → st.Sound fl → st'.Sound fl :=
    fun _ _ _ step sound => (step.finalisesOnce_iff sound).1
  constructor
  · exact (run.keeps (P := fun _ => True) (fun st e st' _ => kept st e st') (fun _ _ => trivial)
      Tracker.sound_init).trust
  · exact restricted_run_iff kept
      (fun _ _ _ sound step => (step.finalisesOnce_iff sound).2) Tracker.sound_init

theorem roomToStart : Records.count (Tracker.init Floats.rational).lifetimes.lifetimeGet <
    tableSize :=
  Lifetimes.sound_init.count_lt (s := 0) fun live => live.1 rfl

/-- Task 7 is noted, leaves, and its PID is read from the ring. -/
theorem exit_not_folded : ¬ ∀ es st,
    Run (TrackerStep .rational) (.init .rational) es st →
      Run (fun st e st' => TrackerStep .rational st e st' ∧ FinalisesOnce st st')
        (.init .rational) es st := by
  intro finalised
  have noted : TrackerStep .rational (.init .rational) (.dequeue 7 0 5 10 1) _ :=
    .dequeue 7 0 5 10 1 (by decide) (.inr roomToStart)
  have run := finalised _ _ (.cons noted (.cons (.disable 7 false false true)
    (.single (.drain 1 fun _ => false))))
  cases run with
  | cons first rest =>
    obtain ⟨step, _⟩ := first
    cases step
    cases rest with
    | cons second rest =>
      obtain ⟨step, _⟩ := second
      cases step
      cases rest with
      | cons third _ =>
        obtain ⟨step, once⟩ := third
        cases step
        exact absurd (once 7) (by decide +kernel)

/-- Task 7 is noted and not seen again. -/
theorem finalised_stale :
    let st := (Tracker.init .rational).noteDequeued 7 0 5 10 1
    Run (fun st e st' => TrackerStep .rational st e st' ∧ FinalisesOnce st st') (.init .rational)
      [.dequeue 7 0 5 10 1, .flush 3000000000 3000000000 3000000000]
      (st.flushTrustUpdates .rational 3000000000 3000000000 3000000000) := by
  intro st
  have noted : TrackerStep .rational _ _ st := .dequeue 7 0 5 10 1 (by decide) (.inr roomToStart)
  have flushed : TrackerStep .rational st _ _ := .flush 3000000000 3000000000 3000000000
  exact (finalised_iff (.cons noted (.single flushed))).2.mpr
    (.cons ⟨noted, trivial⟩ (.single ⟨flushed, trivial⟩))

end Cognis.Reputation
