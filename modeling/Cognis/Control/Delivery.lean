import Cognis.Control.RunLoop
import Cognis.Fallback.Conservation

/-! Every task that the kernel side puts into the queued ring comes back through the dispatch
ring, waits in a lane or is still in the ring, byte for byte and exactly once. -/
namespace Cognis.Control
open Runs RateLimit Wire Fallback Reputation

/-- What identifies a task in the messages of both directions. -/
structure MessageId where
  pid : BitVec 32
  flags : BitVec 64
  enqCnt : BitVec 64
deriving DecidableEq

def messageId (t : TaskId) : MessageId :=
  ⟨BitVec.ofInt 32 t.pid, BitVec.ofNat 64 t.flags, BitVec.ofNat 64 t.enqCnt⟩

def queuedTask (data : List Byte) : Option QueuedTask :=
  (decodeQueuedTask data).toOption.map QueuedRecord.toQueuedTask

/-- The task of a record of the queued ring; none if user space refuses the record. -/
def recordId (data : List Byte) : Option MessageId :=
  (queuedTask data).map fun t => messageId t.taskId

/-- The task of a sample as the kernel side reads it. -/
def sampleId (data : List Byte) : Option MessageId :=
  (readDispatched data).map fun c => ⟨BitVec.ofNat 32 c.pid, c.flags, c.enqCnt⟩

theorem sampleId_bytes (t : DispatchedTask) : sampleId t.bytes = some (messageId t.taskId) := by
  rw [sampleId, readDispatched_bytes, Option.map_some, BitVec.ofNat_toNat, BitVec.setWidth_eq]
  rfl

theorem pushTask_dequeued (s : Scheduler) (task : Task) :
    (s.pushTask task).dequeued = s.dequeued := by
  rw [Scheduler.pushTask]
  split <;> rfl

theorem receive_dequeued (s : Scheduler) (a : Arrival) :
    (s.receive a).dequeued = s.dequeued ++ [a.qtask] := pushTask_dequeued _ _

theorem dispatchTask_dequeued (percpuLocal : Bool) (attempt : Attempt) {s : Scheduler}
    (some_ : s.tasksEmpty = false) :
    (s.dispatchTask percpuLocal attempt).2.dequeued = s.dequeued := by
  obtain ⟨lane, task, s', popped, outcome⟩ :=
    Scheduler.dispatchTask_cases percpuLocal attempt some_
  rcases outcome with ⟨_, run⟩ | ⟨_, run⟩
  · rw [run]
    exact popped.keeps.1
  · rw [run, pushTask_dequeued]
    exact popped.keeps.1

/-- Dispatching everything keeps the scheduler sound and reads no task. -/
theorem dispatchAll_sound (percpuLocal : Bool) (attempts : Nat → Attempt) (i : Nat)
    {s : Scheduler} (sound : s.Sound) :
    (s.dispatchAll percpuLocal attempts i).Sound ∧
      (s.dispatchAll percpuLocal attempts i).dequeued = s.dequeued := by
  induction i, s using Scheduler.dispatchAll.induct percpuLocal attempts with
  | case1 i s empty =>
    rw [Scheduler.dispatchAll, dif_pos empty]
    exact ⟨sound, rfl⟩
  | case2 i s nonempty s' step ih =>
    have some_ := Bool.eq_false_iff.mpr nonempty
    have after := sound.dispatch percpuLocal (attempts i) some_
    have same := dispatchTask_dequeued percpuLocal (attempts i) some_
    rw [step] at after same
    rw [dispatchAll_accepted nonempty step]
    exact ⟨(ih after).1, (ih after).2.trans same⟩
  | case3 i s nonempty s' step =>
    have some_ := Bool.eq_false_iff.mpr nonempty
    have after := sound.dispatch percpuLocal (attempts i) some_
    have same := dispatchTask_dequeued percpuLocal (attempts i) some_
    rw [step] at after same
    rw [dispatchAll_refused nonempty step]
    exact ⟨after, same⟩

namespace Userspace

variable {F G : Type} {setup : Setup F G} {seen : List QueuedTask} {u v : Userspace G}

/-- The scheduler is sound, and together with the queued ring it accounts for the tasks
`seen`. -/
structure Accounts (seen : List QueuedTask) (u : Userspace G) : Prop where
  sound : u.scheduler.Sound
  tasks : u.scheduler.dequeued ++ u.queued.reader.ring.filterMap queuedTask = seen

theorem Accounts.congr (accounts : u.Accounts seen) (scheduler : v.scheduler = u.scheduler)
    (queued : v.queued.reader.ring = u.queued.reader.ring) : v.Accounts seen :=
  ⟨scheduler ▸ accounts.sound, by rw [scheduler, queued, accounts.tasks]⟩

/-- A record leaves the ring only into a lane, or because it is no task at all. -/
theorem Accounts.drain (nrOnlineCpus : Nat) (times : Nat → Nat × Nat) (left : Nat)
    (accounts : u.Accounts seen) :
    (u.drainQueuedTasks setup nrOnlineCpus times left).Accounts seen := by
  induction left generalizing u with
  | zero => exact accounts
  | succ left ih =>
    rw [drainQueuedTasks]
    by_cases deferred : u.scheduler.hasDeferredTasks = true
    · rw [if_pos deferred]
      exact accounts
    rw [if_neg deferred]
    have tasks := accounts.tasks
    cases held : u.queued.reader.ring with
    | nil =>
      rw [QueuedRing.dequeueTask_empty setup.rings held]
      exact accounts.congr rfl held.symm
    | cons data rest =>
      rw [held, List.filterMap_cons] at tasks
      rw [QueuedRing.dequeueTask_cons setup.rings held, RingReader.report]
      cases read : decodeQueuedTask data with
      | error err =>
        have nothing : queuedTask data = none := by rw [queuedTask, read]; rfl
        rw [nothing] at tasks
        exact ⟨accounts.sound, tasks⟩
      | ok task =>
        have found : queuedTask data = some task.toQueuedTask := by rw [queuedTask, read]; rfl
        rw [found] at tasks
        refine ih ⟨accounts.sound.receive (Bool.eq_false_iff.mpr deferred) _, ?_⟩
        rw [receive_dequeued, List.append_assoc]
        exact tasks

theorem Accounts.schedule (a : Answers) (accounts : u.Accounts seen) :
    (u.schedule setup a).Accounts seen ∧
      (u.schedule setup a).scheduler.nrScheduled = (u.schedule setup a).scheduler.tasksLen := by
  have drained : (u.drainQueuedTasks setup a.nrOnlineCpus a.times
      (drainBudget a.nrOnlineCpus)).Accounts seen := accounts.drain _ _ _
  obtain ⟨sound, dequeued⟩ := dispatchAll_sound setup.percpuLocal a.attempts 0 drained.sound
  refine ⟨⟨⟨sound.sorted, sound.conserved, sound.unviolated⟩, ?_⟩, rfl⟩
  exact (congrArg (· ++ _) dequeued).trans drained.tasks

/-- Exits, housekeeping and the dashboard leave the tasks alone. -/
structure SameTasks (u v : Userspace G) : Prop where
  scheduler : v.scheduler = u.scheduler
  queued : v.queued = u.queued

theorem SameTasks.trans {w : Userspace G} (first : SameTasks u v) (second : SameTasks v w) :
    SameTasks u w :=
  ⟨second.scheduler.trans first.scheduler, second.queued.trans first.queued⟩

theorem drainExitedTasks_tasks (left : Nat) (u : Userspace G) :
    SameTasks u (u.drainExitedTasks setup left) := by
  induction left generalizing u with
  | zero => exact ⟨rfl, rfl⟩
  | succ left ih =>
    rw [drainExitedTasks]
    split
    · split
      · refine .trans ?_ (ih _)
        exact ⟨rfl, rfl⟩
      · refine .trans ?_ (ih _)
        exact ⟨rfl, rfl⟩
    · exact ⟨rfl, rfl⟩

theorem background_tasks (a : Answers) (u : Userspace G) : SameTasks u (u.background setup a) := by
  rw [background]
  split
  · rw [housekeeping, tickSliceController]
    split <;> exact ⟨rfl, rfl⟩
  · exact ⟨rfl, rfl⟩

theorem driveTui_tasks (a : Answers) (u : Userspace G) :
    SameTasks u (if u.tui then u.driveTui a else u) := by
  rw [driveTui]
  split
  · split <;> exact ⟨rfl, rfl⟩
  · exact ⟨rfl, rfl⟩

variable (setup) in
/-- After the scheduling cycle, if there is one, an iteration leaves the tasks alone. -/
theorem iterate_tasks (a : Answers) (u : Userspace G) :
    SameTasks (if u.hasUserspaceWork then u.schedule setup a else u) (u.iterate setup a) :=
  ((drainExitedTasks_tasks 128 _).trans (background_tasks a _)).trans (driveTui_tasks a _)

end Userspace

section

variable {F G : Type} {setup : Setup F G} {profile : Loader.BpfProfile} {tui : Bool}
  {created started : Nat} {es : List LoopEvent} {l l' : Loop G}

/-- What holds in every state of the loop. -/
structure Loop.Sound (l : Loop G) : Prop where
  accounts : l.user.Accounts (l.published.filterMap queuedTask)
  reported : l.user.scheduler.nrScheduled = l.user.scheduler.tasksLen

theorem LoopStep.sound {e : LoopEvent} (step : LoopStep setup l e l') (sound : l.Sound) :
    l'.Sound := by
  cases step with
  | publish data =>
    refine ⟨⟨sound.accounts.sound, ?_⟩, sound.reported⟩
    change l.user.scheduler.dequeued ++ (l.user.queued.reader.ring ++ [data]).filterMap queuedTask =
      (l.published ++ [data]).filterMap queuedTask
    rw [List.filterMap_append, List.filterMap_append, ← List.append_assoc, sound.accounts.tasks]
  | exit data => exact ⟨sound.accounts.congr rfl rfl, sound.reported⟩
  | count nrQueued => exact ⟨sound.accounts.congr rfl rfl, sound.reported⟩
  | iterate a _ _ _ =>
    have kept := Userspace.iterate_tasks setup a l.user
    let u := if l.user.hasUserspaceWork then l.user.schedule setup a else l.user
    have worked : u.Accounts (l.published.filterMap queuedTask) ∧
        u.scheduler.nrScheduled = u.scheduler.tasksLen := by
      dsimp only [u]
      split
      · exact sound.accounts.schedule a
      · exact ⟨sound.accounts, sound.reported⟩
    exact ⟨worked.1.congr kept.scheduler (congrArg (·.reader.ring) kept.queued),
      kept.scheduler.symm ▸ worked.2⟩

theorem run_sound
    (run : Run (LoopStep setup) (.init setup.floats profile tui created started) es l) :
    l.Sound :=
  run.keeps (P := fun _ => True) (fun _ _ _ _ step => step.sound) (fun _ _ => trivial)
    ⟨⟨Scheduler.init_sound, rfl⟩, rfl⟩

/-- In every run of the loop, whatever bytes arrive and whatever the dispatch ring answers,
the records of the queued ring that decode are, each once, the samples that the kernel side
reads, the tasks in the lanes and the records still in the ring; no task was dropped, and
`nr_scheduled` counts the lanes. -/
theorem tasks_cross_once
    (run : Run (LoopStep setup) (.init setup.floats profile tui created started) es l) :
    (l.published.filterMap recordId : Multiset MessageId) =
        l.user.submitted.filterMap sampleId +
          l.user.scheduler.queued.map (fun task => messageId task.qtask.taskId) +
          l.user.queued.reader.ring.filterMap recordId ∧
      l.user.scheduler.violations = 0 ∧
      l.user.scheduler.nrScheduled = l.user.scheduler.tasksLen := by
  have sound := run_sound run
  refine ⟨?_, sound.accounts.sound.unviolated, sound.reported⟩
  have records (datas : List (List Byte)) : datas.filterMap recordId =
      (datas.filterMap queuedTask).map fun t => messageId t.taskId := by
    rw [List.map_filterMap]
    rfl
  have samples : l.user.submitted.filterMap sampleId =
      l.user.scheduler.dispatched.map fun t => messageId t.taskId := by
    rw [Userspace.submitted, List.filterMap_map]
    exact (List.filterMap_congr fun t _ => sampleId_bytes t).trans
      (congrFun List.filterMap_eq_map' _)
  have conserved := congrArg (Multiset.map messageId) sound.accounts.sound.conserved
  simp only [Multiset.map_add, Multiset.map_map, Function.comp_def] at conserved
  rw [records, records, ← sound.accounts.tasks, List.map_append, ← Multiset.coe_add, samples]
  congr 1

/-- A kernel worker's record and one that is too short, then an iteration. -/
theorem kworker_crosses_once :
    let record := QueuedTaskCtx.layout.encode Loader.kworker.ctx
    ∃ l, Run (LoopStep Setup.rational)
        (.init Setup.rational.floats (.fromOpts ⟨0, 0, .desktop⟩) false 0 0)
        [.publish record, .publish [1], .count 2, .iterate (.quiet 0)] l ∧
      (l.published.filterMap recordId : Multiset MessageId) =
        l.user.submitted.filterMap sampleId +
          l.user.scheduler.queued.map (fun task => messageId task.qtask.taskId) +
          l.user.queued.reader.ring.filterMap recordId := by
  intro record
  have run : Run (LoopStep Setup.rational)
      (.init Setup.rational.floats (.fromOpts ⟨0, 0, .desktop⟩) false 0 0)
      [.publish record, .publish [1], .count 2, .iterate (.quiet 0)] _ :=
    .cons (.publish record) <| .cons (.publish [1]) <| .cons (.count 2) <|
      .single (.iterate _ rfl (by decide) (Answers.quiet_forward _))
  exact ⟨_, run, (tasks_cross_once run).1⟩

end

end Cognis.Control
