import Mathlib.Algebra.Order.BigOperators.Group.Finset
import Cognis.Bpf.Draining
import Cognis.Bpf.EarliestFirst
import Cognis.Bpf.Overtaking

/-! How long a task waits without the fallback. The tiers of a CPU compare their heads, so a
task that nobody can overtake any more is taken as soon as the tasks of the hierarchy with no
later deadline are gone, whatever queues these wait in. -/
namespace Cognis.Bpf
open StateLogic Runs WrapTime Overtaking

/-- `p` is no later than `u`. -/
def Machine.rival (m : Machine) (u p : Nat) : Bool :=
  decide (p ≠ u) && !timeBefore (m.deadline u) (m.deadline p)

/-- How many tasks of the hierarchy may be taken before `u`. -/
def Machine.rivals (ro : Rodata) (u : Nat) (m : Machine) : Nat :=
  (taskDsqs ro m.kernel.nrCpuIds).toFinset.sum fun q => (m.kernel.dsq q).countP (m.rival u)

/-- The deadlines of the hierarchy lie in one half of the clock that does not wrap. -/
def Machine.Unwrapped (ro : Rodata) (m : Machine) : Prop :=
  ∃ low, ∀ q ∈ taskDsqs ro m.kernel.nrCpuIds, ∀ p ∈ m.kernel.dsq q,
    low ≤ (m.deadline p).toNat ∧ (m.deadline p).toNat < low + 2 ^ 63

/-- A CPU that has `q` among its own tiers dispatches, and may run the task that leads them. -/
def Turn (ro : Rodata) (q : Nat) (m : Machine) (e : Event) (_ : Machine) : Prop :=
  ∃ cpu prev env, e = .dispatch cpu prev env ∧ q ∈ ownTiers ro m.kernel.nrCpuIds cpu ∧
    LeaderFits ro m.kernel.queues cpu

section

variable {ro : Rodata} {m m' : Machine} {q u : Nat} {e : Event}

/-- Where the leading task may run on the CPU, it is the one that the dispatch takes. -/
theorem leader_moved {env : Env} {cpu : Int} (prev : Option Nat) {k : Kernel} {p : Nat}
    (fallbackOff : ro.userschedEnabled = false) (quiet : Quiet k)
    (lead : (leadingTier ro k.queues cpu).1 = some p) (allowed : (k.task p).cpusPtr cpu = true) :
    k.queues.Moved ((Callback.dispatch cpu prev).exec ro env k).queues cpu
      (leadingTier ro k.queues cpu).2 p := by
  obtain ⟨source, front⟩ := leadingTier_own lead
  have first : k.queues.firstAllowed cpu (leadingTier ro k.queues cpu).2 = some p := by
    obtain ⟨ps, queue⟩ := List.head?_eq_some_iff.mp front
    rw [Queues.firstAllowed, queue]
    exact List.find?_cons_of_pos allowed
  have found : (k.landed env).source cpu (k.tried ro env cpu) =
      some ((leadingTier ro k.queues cpu).2, p) := by
    rw [landed_of_empty env quiet.ring, Kernel.tried, shown_of_empty ro env quiet.ring, View.inTurn,
      Queues.still_now, tierOrder, lead, Option.isSome_some, if_pos rfl, List.append_assoc,
      Queues.source_append, Queues.source_singleton, first]
    rfl
  have moved := (dispatch_moved_iff prev quiet.fresh (userschedRuns_off fallbackOff)
    source).mpr found
  rwa [landed_of_empty env quiet.ring] at moved

namespace Watched

variable (exported : ro.PidExported) (watched : Watched ro q u m) (stays : Stays ro q u m e m')
include watched stays

theorem rival_same {p r : Nat} (member : p ∈ m.kernel.dsq r) : m'.rival u p = m.rival u p := by
  have queued := watched.sound.homes.owned_of_mem member
  rw [Machine.rival, stays.step.deadline watched.sound watched.waiting,
    stays.step.deadline watched.sound queued, ← Machine.rival]

include exported in
/-- No queue of the hierarchy gains a rival. -/
theorem countP_rival_le {r : Nat} (known : r ∈ taskDsqs ro m.kernel.nrCpuIds) :
    (m'.kernel.dsq r).countP (m'.rival u) ≤ (m.kernel.dsq r).countP (m.rival u) := by
  have same : (m.kernel.dsq r).countP (m'.rival u) = (m.kernel.dsq r).countP (m.rival u) :=
    List.countP_congr fun p member => by rw [watched.rival_same stays member]
  rw [← same]
  cases stays.step.shift exported watched.sound with
  | still dsq _ => rw [dsq]
  | sorted p t enqFlags env event ready _ dsq _ =>
    by_cases here : r = t
    · subst here
      have inserted := (congrFun dsq r).trans (Function.update_self ..)
      have perm := insertByVtime_perm (fun s => (m'.kernel.task s).dsqVtime) p (m.kernel.dsq r)
      have entered : p ∈ m'.kernel.dsq r := inserted ▸ perm.symm.subset List.mem_cons_self
      obtain ⟨front, near', later⟩ := watched.late_arrival stays event ready known entered
      have near := watched.tame.near u (.inr watched.waiting)
      rw [Machine.NearFront, front] at near'
      have behind : timeBefore (m'.deadline u) (m'.deadline p) = true := by
        rw [stays.step.deadline watched.sound watched.waiting]
        exact (timeBefore_iff_offset near near').mpr later
      rw [inserted, perm.countP_eq, List.countP_cons_of_neg (by simp [Machine.rival, behind])]
    · rw [dsq, Function.update_of_ne here]
  | queued p t qs _ foreign _ _ dsq _ =>
    have apart : r ≠ t := fun same => foreign (same ▸ known)
    rw [dsq, Function.update_of_ne apart]
  | taken p t s _ _ dsq _ =>
    rw [dsq]
    by_cases here : r = t
    · rw [← here, Function.update_self]
      exact List.erase_sublist.countP_le
    · rw [Function.update_of_ne here]
  | moved p t cpu _ _ _ _ _ dsq _ =>
    rw [dsq, Function.update_of_ne (taskDsqs_ne_localOn ro _ known cpu)]
    by_cases here : r = t
    · rw [← here, Function.update_self]
      exact List.erase_sublist.countP_le
    · rw [Function.update_of_ne here]

include exported in
theorem rivals_le : m'.rivals ro u ≤ m.rivals ro u := by
  unfold Machine.rivals
  rw [stays.step.storage.1]
  exact Finset.sum_le_sum fun r known =>
    watched.countP_rival_le exported stays (List.mem_toFinset.mp known)

omit exported stays in
/-- The leader of tiers among which `u` waits is no later than `u`. -/
theorem leader_no_later {cpu : Int} {p : Nat} (unwrapped : m.Unwrapped ro)
    (own : q ∈ ownTiers ro m.kernel.nrCpuIds cpu)
    (lead : (leadingTier ro m.kernel.queues cpu).1 = some p) :
    timeBefore (m.deadline u) (m.deadline p) = false := by
  obtain ⟨low, half⟩ := unwrapped
  obtain ⟨source, front⟩ := leadingTier_own lead
  have inside := ownTiers_subset ro m.kernel.nrCpuIds cpu
  have p_half := half _ (inside source) p (List.mem_of_head? front)
  have u_half := half q watched.known u watched.waits
  obtain ⟨h, hs, queue⟩ := List.exists_cons_of_ne_nil (List.ne_nil_of_mem watched.waits)
  have h_half := half q watched.known h (queue ▸ List.mem_cons_self)
  have top : ¬ m.deadline h < m.deadline p :=
    (pickTier_least _ (none, 0) (tiersOf ro m.kernel.queues cpu) lead).2 _
      (mem_tiersOf ro own) h (by simp [tierOf, queue])
  have behind : timeBefore (m.deadline u) (m.deadline h) = false := by
    have ordered := watched.ordered q watched.known
    have waits := watched.waits
    rw [queue] at ordered waits
    rcases List.mem_cons.mp waits with rfl | later
    · rw [timeBefore, sub_self]
      decide
    · exact (List.pairwise_cons.mp ordered).1 u later
  rw [← Bool.not_eq_true, timeBefore_iff u_half.1 u_half.2 h_half.1 h_half.2] at behind
  rw [← Bool.not_eq_true, timeBefore_iff u_half.1 u_half.2 p_half.1 p_half.2]
  rw [BitVec.lt_def] at top behind ⊢
  omega

include exported in
/-- A turn takes a rival, as it does not take `u`. -/
theorem turn_takes (fallbackOff : ro.userschedEnabled = false) (unwrapped : m.Unwrapped ro)
    (turn : Turn ro q m e m') : m'.rivals ro u < m.rivals ro u := by
  obtain ⟨cpu, prev, env, event, own, p, lead, allowed⟩ := turn
  have step := stays.step
  rw [event] at step
  have result : m'.kernel = (Callback.dispatch cpu prev).exec ro env m.kernel := by
    cases step
    rfl
  obtain ⟨source, front⟩ := leadingTier_own lead
  have moved : m.kernel.queues.Moved ((Callback.dispatch cpu prev).exec ro env m.kernel).queues
      cpu (leadingTier ro m.kernel.queues cpu).2 p :=
    leader_moved prev fallbackOff watched.sound.quiet lead allowed
  have known := ownTiers_subset ro _ cpu source
  have dsq := (congrArg Kernel.dsq result).trans moved.dsq
  have apart := taskDsqs_ne_localOn ro _ known cpu
  have erased := (congrFun dsq _).trans ((Function.update_of_ne apart ..).trans
    (Function.update_self ..))
  have other : p ≠ u := by
    rintro rfl
    have home := (watched.step exported stays).sound.homes.placed_of_mem stays.waits (localOn cpu)
    have delivered := (congrFun dsq (localOn cpu)).trans (Function.update_self ..)
    rw [if_neg (taskDsqs_ne_localOn ro _ watched.known cpu).symm] at home
    exact List.count_eq_zero.mp home (delivered ▸ List.mem_append_right _ List.mem_cons_self)
  unfold Machine.rivals
  rw [stays.step.storage.1]
  refine Finset.sum_lt_sum (fun r member => watched.countP_rival_le exported stays
    (List.mem_toFinset.mp member)) ⟨_, List.mem_toFinset.mpr known, ?_⟩
  have member := List.mem_of_head? front
  have rival : m.rival u p = true := by
    simp [Machine.rival, other, watched.leader_no_later unwrapped own lead]
  have fewer := List.countP_erase (m.rival u)
    (m.kernel.dsq (leadingTier ro m.kernel.queues cpu).2) p
  rw [if_pos ⟨member, rival⟩] at fewer
  rw [erased, List.countP_congr fun r inside =>
    by rw [watched.rival_same stays (List.mem_of_mem_erase inside)]]
  exact fewer.trans_lt (Nat.sub_one_lt_of_lt (List.countP_pos_iff.mpr ⟨p, member, rival⟩))

end Watched

variable (ro) in
/-- Without the fallback, once the virtual front has passed the deadline of a waiting task by
the largest lag, the task waits for at most as many turns of the CPUs that have its queue
among their own tiers as there are tasks in the hierarchy with no later deadline. -/
theorem waiting_is_bounded {boot : Env} {task : Nat → TaskStruct} {k : Kernel}
    {es : List Event} {ls : List (Event × Bool)} (exported : ro.PidExported)
    (fallbackOff : ro.userschedEnabled = false) (booted : Booted ro boot task k)
    (arrival : Run (fun m e m' => Disciplined ro m e m' ∧ m'.InWindow ro) (.start k) es m)
    (tame : m.Tame ro) (unwrapped : m.Unwrapped ro)
    (known : q ∈ taskDsqs ro m.kernel.nrCpuIds) (waits : u ∈ m.kernel.dsq q)
    (passed : Passed ro u m) (stays : Run (Marked (fun m e m' => Stays ro q u m e m' ∧
      m'.Unwrapped ro) (Turn ro q)) m ls m') :
    ls.countP Prod.snd + m'.rivals ro u ≤ m.rivals ro u := by
  have watched := Watched.of_run exported booted arrival tame known waits passed
  refine marked_le (I := fun s => Watched ro q u s ∧ s.Unwrapped ro) (Machine.rivals ro u) ?_ ?_ ?_
    stays ⟨watched, unwrapped⟩
  · exact fun _ _ _ now before => ⟨before.1.step exported now.1, now.2⟩
  · exact fun _ _ _ now before => before.1.rivals_le exported now.1
  · exact fun _ _ _ now before turn =>
      before.1.turn_takes exported now.1 fallbackOff before.2 turn

end

/-- Tasks 5 and 6 wait, task 8 has 300 virtual seconds more. -/
def rivalTasks (p : Nat) : TaskStruct :=
  .waiting (fun _ => true) (if p = 8 then 300000000000 else 0)

/-- Task 6 waits in the queue of the cache domain; one turn of the CPU takes task 5. -/
theorem rivalTask_taken :
    ∃ m m', Run (Marked (fun m e m' => Stays (Rodata.kernelOnly .flat) (llcToDsq 0) 6 m e m' ∧
        m'.Unwrapped (Rodata.kernelOnly .flat)) (Turn (Rodata.kernelOnly .flat) (llcToDsq 0))) m
      [(.dispatch 0 none (Env.busy 1 0 0), true)] m' ∧
      1 + m'.rivals (Rodata.kernelOnly .flat) 6 ≤ m.rivals (Rodata.kernelOnly .flat) 6 := by
  have lag : (Rodata.kernelOnly .flat).sliceLagNs = 40000000 := rfl
  let us := [(8, Stage.onCpu 0), (8, .waiting), (6, .waiting), (5, .waiting), (8, .ready),
    (6, .ready), (5, .ready), (8, .away), (6, .away), (5, .away)]
  have runs : ∀ r, stagesAfter us r ≠ .absent → r ∈ [5, 6, 8] := stagesAfter_present (by decide)
  obtain ⟨m, m', arrival, tame, unwrapped, known, waits, passed, stays⟩ : ∃ m m',
      Run (fun m e m' => Disciplined (Rodata.kernelOnly .flat) m e m' ∧
        m'.InWindow (Rodata.kernelOnly .flat))
        (.start ((Kernel.boot rivalTasks).initialized (Rodata.kernelOnly .flat) (Env.busy 1 0 0)))
        [.join 5 true, .join 6 true, .join 8 true, .wake 5, .wake 6, .wake 8,
          .enqueue 5 0 (Env.busy 1 0 0).scaling, .enqueue 6 0 (Env.busy 1 0 0).scaling,
          .place 8 0, .pick 0 8 (Env.busy 1 0 0)] m ∧
      m.Tame (Rodata.kernelOnly .flat) ∧ m.Unwrapped (Rodata.kernelOnly .flat) ∧
      llcToDsq 0 ∈ taskDsqs (Rodata.kernelOnly .flat) m.kernel.nrCpuIds ∧
      6 ∈ m.kernel.dsq (llcToDsq 0) ∧ Passed (Rodata.kernelOnly .flat) 6 m ∧
      Run (Marked (fun m e m' => Stays (Rodata.kernelOnly .flat) (llcToDsq 0) 6 m e m' ∧
        m'.Unwrapped (Rodata.kernelOnly .flat)) (Turn (Rodata.kernelOnly .flat) (llcToDsq 0))) m
        [(.dispatch 0 none (Env.busy 1 0 0), true)] m' :=
    ⟨_, _,
      .cons ⟨.join 5 true _ rfl (by decide) rfl, inWindow_of_low 0 (by decide)⟩ <|
      .cons ⟨.join 6 true _ rfl (by decide) rfl, inWindow_of_low 0 (by decide)⟩ <|
      .cons ⟨.join 8 true _ rfl (by decide) rfl, inWindow_of_low 0 (by decide)⟩ <|
      .cons ⟨.wake 5 rfl, inWindow_of_low 0 (by decide)⟩ <|
      .cons ⟨.wake 6 rfl, inWindow_of_low 0 (by decide)⟩ <|
      .cons ⟨.wake 8 rfl, inWindow_of_low 0 (by decide)⟩ <|
      .cons ⟨.enqueue 5 0 (Env.busy 1 0 0).scaling rfl, inWindow_of_low 0 (by decide)⟩ <|
      .cons ⟨.enqueue 6 0 (Env.busy 1 0 0).scaling rfl, inWindow_of_low 0 (by decide)⟩ <|
      .cons ⟨.place 8 0 rfl, inWindow_of_low 0 (by decide)⟩ <|
      .cons ⟨.pick 0 8 (Env.busy 1 0 0) (by decide) rfl
        (List.mem_append_right _ List.mem_cons_self), inWindow_of_low 0 (by decide)⟩ (.nil _),
      Machine.tame_of_tameOn lag runs (by decide), ⟨0, by decide⟩, by decide, by decide,
      by unfold Passed; decide,
      .cons ⟨⟨⟨.dispatch 0 none (Env.busy 1 0 0), Machine.tame_of_tameOn lag runs (by decide),
        nofun, by decide⟩, ⟨0, by decide⟩⟩,
        ⟨fun _ => ⟨0, none, _, rfl, by decide, ⟨5, rfl, rfl⟩⟩, fun _ => rfl⟩⟩ (.nil _)⟩
  exact ⟨m, m', stays, waiting_is_bounded _ (fun _ => rfl) rfl (booted_busy _ _) arrival tame
    unwrapped known waits passed stays⟩

end Cognis.Bpf
