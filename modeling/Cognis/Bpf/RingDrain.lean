import Mathlib.Logic.Function.Iterate
import Cognis.Bpf.DispatchSteps

/-! How many messages of the user ring buffer one dispatch handles. -/
namespace Cognis.Bpf
open StateLogic

section

variable (env : Env)

/-- The callback runs on the first message of the ring, if there is one. -/
def consume (k : Kernel) : Kernel :=
  match k.ring with
  | [] => k
  | sample :: rest => ((handleDispatchedTask env sample).run { k with ring := rest }).2

def ringDrained (k : Kernel) : Kernel :=
  ((bpfUserRingbufDrain (handleDispatchedTask env)).run k).2

/-- From `k` to `k'` messages were handled in order, each while a slot was free,
until the ring was empty or no slot was left, and no insertion found no slot. -/
def HandledUntilFull (k k' : Kernel) : Prop :=
  ∃ n, k' = (consume env)^[n] k ∧
    (∀ m < n, ((consume env)^[m] k).ring ≠ [] ∧ ((consume env)^[m] k).slots ≠ 0) ∧
    (k'.ring = [] ∨ k'.slots = 0) ∧ k'.overflows = k.overflows

theorem consume_malformed {k : Kernel} {rest : List (Option DispatchedTaskCtx)}
    (ring : k.ring = none :: rest) : consume env k = { k with ring := rest } := by
  simp only [consume, ring]
  rfl

/-- The callback itself leaves the rest of the ring alone. -/
theorem consume_ring {k : Kernel} {sample : Option DispatchedTaskCtx}
    {rest : List (Option DispatchedTaskCtx)} (ring : k.ring = sample :: rest) :
    (consume env k).ring = rest := by
  simp only [consume, ring]
  -- A message never reads the read-only data, so any will do.
  have steps := handled_steps (Rodata.kernelOnly .flat) env sample { k with ring := rest }
  exact Runs.updates_keep (I := fun s => s.ring = rest)
    (fun _ _ step before => step.ring.1.trans before) steps rfl

section

variable {env} {o : Nat}

theorem dispatchVtime_overflows (p q : Nat) (slice vtime flags : U64) :
    Triple (fun s => s.slots ≠ 0 ∧ s.overflows = o) (scxBpfDispatchVtime p q slice vtime flags)
      fun _ s => s.overflows = o :=
  Triple.modify fun s start => by
    simp only [Kernel.dispatchVtime, if_neg start.1]
    exact start.2

theorem kickTaskCpu_overflows (p : Nat) (cpu : Int) :
    Keeps (fun s => s.overflows = o) (kickTaskCpu env p cpu) := by
  apply kickTaskCpu_keeps
  intro c
  exact Keeps.update fun _ start => start

theorem kickOrCancel_overflows (task : DispatchedTaskCtx) (cpu : Int) :
    Keeps (fun s => s.overflows = o) (kickOrCancel task cpu) := by
  refine Keeps.bind (Keeps.bind Keeps.get fun _ => Keeps.pure _) fun tctx => ?_
  split
  · refine Keeps.bind (Keeps.update fun s start => ?_) fun _ => Keeps.update fun _ start => start
    unfold Kernel.dispatchCancel
    split <;> exact start
  · exact Keeps.update fun _ start => start

theorem dispatchTask_overflows (task : DispatchedTaskCtx) :
    Triple (fun s => s.slots ≠ 0 ∧ s.overflows = o) (dispatchTask env task)
      fun _ s => s.overflows = o := by
  have read : Keeps (fun s : Kernel => s.slots ≠ 0 ∧ s.overflows = o) get := Keeps.get
  unfold dispatchTask
  split
  · exact Triple.pure fun _ start => start.2
  refine Triple.bind read fun s => ?_
  split
  · exact Triple.bind (dispatchVtime_overflows _ _ _ _ _) fun _ =>
      Keeps.bind (Keeps.update fun _ start => start) fun _ => kickTaskCpu_overflows _ _
  · refine Triple.bind read fun s => Triple.bind (Keeps.update fun _ start => start) fun _ => ?_
    exact Triple.bind (dispatchVtime_overflows _ _ _ _ _) fun _ => kickOrCancel_overflows _ _

end

theorem consume_overflows {k : Kernel} (free : k.slots ≠ 0) :
    (consume env k).overflows = k.overflows := by
  unfold consume
  split
  · rfl
  · rename_i sample rest _
    cases sample with
    | none => rfl
    | some task => exact dispatchTask_overflows task { k with ring := rest } ⟨free, rfl⟩

theorem handledUntilFull_cons {k k' : Kernel} (some : k.ring ≠ []) (moved : k'.ring ≠ k.ring) :
    HandledUntilFull env k k' ↔ k.slots ≠ 0 ∧ HandledUntilFull env (consume env k) k' := by
  constructor
  · rintro ⟨n, rfl, each, full, safe⟩
    cases n with
    | zero => exact absurd rfl moved
    | succ n =>
      have free := (each 0 (Nat.succ_pos n)).2
      refine ⟨free, n, Function.iterate_succ_apply .., fun m below => ?_, full, ?_⟩
      · exact each (m + 1) (Nat.succ_lt_succ below)
      · exact safe.trans (consume_overflows env free).symm
  · rintro ⟨free, n, rfl, each, full, safe⟩
    refine ⟨n + 1, (Function.iterate_succ_apply ..).symm, fun m below => ?_, full, ?_⟩
    · cases m with
      | zero => exact ⟨some, free⟩
      | succ m => exact each m (Nat.lt_of_succ_lt_succ below)
    · exact safe.trans (consume_overflows env free)

theorem ringDrained_nil {k : Kernel} (ring : k.ring = []) : ringDrained env k = k := by
  simp only [ringDrained, bpfUserRingbufDrain, run_then, run_getThe, ring]
  rfl

theorem ringDrained_malformed {k : Kernel} {rest : List (Option DispatchedTaskCtx)}
    (ring : k.ring = none :: rest) : ringDrained env k = ringDrained env (consume env k) := by
  simp only [consume_malformed env ring, ringDrained, bpfUserRingbufDrain, run_then, run_getThe,
    ring]
  rfl

/-- The answer of the callback: a free slot stops the drain. -/
theorem ringDrained_task {k : Kernel} {task : DispatchedTaskCtx}
    {rest : List (Option DispatchedTaskCtx)} (ring : k.ring = some task :: rest) :
    ringDrained env k =
      if (consume env k).slots ≠ 0 then consume env k else ringDrained env (consume env k) := by
  have popped := consume_ring env ring
  have state : (handleDispatchedTask env (some task)).run { k with ring := rest } =
      (if (consume env k).slots ≠ 0 then 1 else 0, consume env k) := by
    simp only [consume, ring]
    rfl
  simp only [ringDrained, bpfUserRingbufDrain, run_then, run_getThe, ring, drainSamples,
    run_modifyState, state, popped]
  by_cases free : (consume env k).slots ≠ 0
  · simp only [if_pos free]
    rfl
  · simp only [if_neg free]
    rfl

theorem ringDrained_shorter (ring : List (Option DispatchedTaskCtx)) {k : Kernel}
    (start : k.ring = ring) (some : ring ≠ []) : (ringDrained env k).ring.length < ring.length := by
  induction ring generalizing k with
  | nil => contradiction
  | cons sample rest ih =>
    have popped := consume_ring env start
    have later : (ringDrained env (consume env k)).ring.length ≤ rest.length := by
      cases rest with
      | nil => rw [ringDrained_nil env popped, popped]
      | cons next rest => exact (ih popped (by simp)).le
    cases sample with
    | none =>
      rw [ringDrained_malformed env start]
      exact Nat.lt_succ_of_le later
    | some task =>
      rw [ringDrained_task env start]
      split
      · rw [popped]
        exact Nat.lt_succ_self _
      · exact Nat.lt_succ_of_le later

/-- With two messages left the first one has to be malformed: an insertion stops
the drain as long as it leaves a slot, and goes on when it took the last one. -/
theorem ringDrained_handledUntilFull_iff (ring : List (Option DispatchedTaskCtx)) {k : Kernel}
    (start : k.ring = ring) :
    HandledUntilFull env k (ringDrained env k) ↔
      ring = [] ∨ k.slots ≠ 0 ∧ ∀ sample ∈ ring.dropLast, sample = none := by
  induction ring generalizing k with
  | nil =>
    rw [ringDrained_nil env start]
    exact iff_of_true ⟨0, rfl, fun m below => absurd below (Nat.not_lt_zero m), .inl start, rfl⟩
      (.inl rfl)
  | cons sample rest ih =>
    have some : k.ring ≠ [] := by simp [start]
    have moved : (ringDrained env k).ring ≠ k.ring := by
      intro same
      have shorter := ringDrained_shorter env _ start (by simp)
      rw [same, start] at shorter
      exact Nat.lt_irrefl _ shorter
    have popped := consume_ring env start
    rw [handledUntilFull_cons env some moved]
    cases sample with
    | none =>
      have slots : (consume env k).slots = k.slots := by rw [consume_malformed env start]
      rw [ringDrained_malformed env start, ih popped, slots]
      cases rest <;> simp
    | some task =>
      rw [ringDrained_task env start]
      by_cases free : (consume env k).slots = 0
      · rw [if_neg (not_not.mpr free), ih popped]
        cases rest <;> simp [free]
      · have stops : HandledUntilFull env (consume env k) (consume env k) ↔ rest = [] := by
          constructor
          · rintro ⟨_, _, _, full, _⟩
            exact popped.symm.trans (full.resolve_right free)
          · intro last
            exact ⟨0, rfl, fun m below => absurd below (Nat.not_lt_zero m),
              .inl (popped.trans last), rfl⟩
        rw [if_pos free, stops]
        cases rest <;> simp

/-- One `ops.dispatch` drains the ring as documented, and its other steps leave the
ring alone and insert nothing. -/
def DrainsRing (ro : Rodata) (cpu : Int) (prev : Option Nat) (k : Kernel) : Prop :=
  HandledUntilFull env (stamped env k) (ringDrained env (stamped env k)) ∧
    ((cognisDispatch ro env cpu prev).run k).2.ring = (ringDrained env (stamped env k)).ring ∧
    ((cognisDispatch ro env cpu prev).run k).2.overflows = k.overflows

theorem drained_eq (k : Kernel) : drained env k = ringDrained env (stamped env k) := rfl

theorem cognisDispatch_ring (ro : Rodata) (cpu : Int) (prev : Option Nat) (k : Kernel) :
    ((cognisDispatch ro env cpu prev).run k).2.ring = (ringDrained env (stamped env k)).ring ∧
      ((cognisDispatch ro env cpu prev).run k).2.overflows =
        (ringDrained env (stamped env k)).overflows := by
  rw [cognisDispatch_run, drained_eq]
  have steps := selectTask_steps ro env cpu prev (ringDrained env (stamped env k))
  exact Runs.updates_keep (I := fun s => s.ring = (ringDrained env (stamped env k)).ring ∧
      s.overflows = (ringDrained env (stamped env k)).overflows)
    (fun _ _ step before => ⟨step.ring.1.trans before.1, step.ring.2.2.2.trans before.2⟩) steps
    ⟨rfl, rfl⟩

/-- The ring is drained as documented exactly when at most its last message is a
well-formed one and a slot is free for it. -/
theorem dispatch_drainsRing_iff (ro : Rodata) (cpu : Int) (prev : Option Nat) (k : Kernel) :
    DrainsRing env ro cpu prev k ↔
      k.ring = [] ∨ k.slots ≠ 0 ∧ ∀ sample ∈ k.ring.dropLast, sample = none := by
  have handled := ringDrained_handledUntilFull_iff env k.ring (k := stamped env k) rfl
  rw [← show (stamped env k).slots = k.slots from rfl, ← handled]
  obtain ⟨ring, overflows⟩ := cognisDispatch_ring env ro cpu prev k
  constructor
  · exact fun drains => drains.1
  · intro until_full
    obtain ⟨_, _, _, _, safe⟩ := id until_full
    exact ⟨until_full, ring, overflows.trans safe⟩

end

def twoMessages : Kernel :=
  let message := fun pid =>
    some { pid, cpu := 0, flags := 0, sliceNs := 1, vtime := 0, enqCnt := 0 }
  { Kernel.boot fun _ => .waiting (fun _ => true) 0 with
    nrCpuIds := 1, slots := 512, ring := [message 1, message 2] }

theorem twoMessages_not_drained :
    ¬ DrainsRing (Env.busy 1 1000 0) (Rodata.withFallback .flat 7) 0 none twoMessages := by
  rintro ⟨⟨_, _, _, full, _⟩, _⟩
  exact absurd full (by decide +kernel)

end Cognis.Bpf
