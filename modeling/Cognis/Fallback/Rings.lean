import Cognis.Lib.Runs
import Cognis.Fallback.Messages

/-! Reading the rings that the kernel side fills. A read takes one record; the callback of
the ring leaves what it decodes in a slot, from which the reader picks it up. -/
namespace Cognis.Fallback
open Wire Runs Reputation

def eio : Int := -5

def eproto : Int := -71

/-- The `RingBuffer` of libbpf: `consume_raw_n` shows the callback one record after another
and counts them. A record is taken also when the callback fails, with whose error the call
then ends. The program asks for one record at a time. -/
structure RingBuffer where
  consumeRawN {σ : Type} (n : Nat) (callback : List Byte → σ → Int × σ) :
    List (List Byte) → σ → Int × List (List Byte) × σ
  empty {σ : Type} (callback : List Byte → σ → Int × σ) (s : σ) :
    consumeRawN 1 callback [] s = (0, [], s)
  taken {σ : Type} (callback : List Byte → σ → Int × σ) (data : List Byte)
    (rest : List (List Byte)) (s : σ) : 0 ≤ (callback data s).1 →
      consumeRawN 1 callback (data :: rest) s = (1, rest, (callback data s).2)
  failed {σ : Type} (callback : List Byte → σ → Int × σ) (data : List Byte)
    (rest : List (List Byte)) (s : σ) : (callback data s).1 < 0 →
      consumeRawN 1 callback (data :: rest) s = ((callback data s).1, rest, (callback data s).2)

def consumeRecords {σ : Type} (callback : List Byte → σ → Int × σ) :
    Nat → List (List Byte) → σ → Int × List (List Byte) × σ
  | 0, ring, s => (0, ring, s)
  | _ + 1, [], s => (0, [], s)
  | n + 1, data :: rest, s =>
    let (err, s) := callback data s
    if err < 0 then (err, rest, s)
    else
      let (res, ring, s) := consumeRecords callback n rest s
      (if res < 0 then res else res + 1, ring, s)

/-- A ring that holds its records in a list. -/
def RingBuffer.records : RingBuffer where
  consumeRawN n callback := consumeRecords callback n
  empty _ _ := rfl
  taken callback data rest s fine := by simp [consumeRecords, not_lt.mpr fine]
  failed callback data rest s err := by simp [consumeRecords, err]

structure RingReader (α : Type) where
  ring : List (List Byte)
  slot : Option α

namespace RingReader

variable {α : Type} (lib : RingBuffer) (decode : List Byte → Except Int α)

def empty : RingReader α := ⟨[], none⟩

/-- What `init` gives each ring as its callback. -/
def callback (data : List Byte) (slot : Option α) : Int × Option α :=
  match decode data with
  | .ok a => (0, some a)
  | .error err => (err, slot)

/-- The reads of `dequeue_task` and `dequeue_exited_pid`. -/
def dequeue (r : RingReader α) : Except Int (Option α) × RingReader α :=
  let (res, ring, slot) := lib.consumeRawN 1 (callback decode) r.ring none
  if res = 0 then (.ok none, ⟨ring, slot⟩)
  else if res = 1 then
    match slot with
    | some a => (.ok (some a), ⟨ring, none⟩)
    | none => (.error eio, ⟨ring, none⟩)
  else if res < 0 then (.error res, ⟨ring, slot⟩)
  else (.error eproto, ⟨ring, slot⟩)

/-- What a read reports of the first record. -/
def report (data : List Byte) : Except Int (Option α) := (decode data).map some

theorem dequeue_empty {r : RingReader α} (none_ : r.ring = []) :
    r.dequeue lib decode = (.ok none, empty) := by
  rw [dequeue, none_, lib.empty]
  rfl

/-- Whatever the slot held before, a read returns the first record as it is decoded. -/
theorem dequeue_cons (negative : ∀ data err, decode data = .error err → err < 0)
    {r : RingReader α} {data : List Byte} {rest : List (List Byte)}
    (first : r.ring = data :: rest) :
    r.dequeue lib decode = (report decode data, ⟨rest, none⟩) := by
  rw [dequeue, first, report]
  cases read : decode data with
  | ok a =>
    have shown : callback decode data none = (0, some a) := by rw [callback, read]
    rw [lib.taken _ _ _ _ (shown ▸ le_refl _), shown]
    rfl
  | error err =>
    have below := negative data err read
    have shown : callback decode data none = (err, none) := by rw [callback, read]
    rw [lib.failed _ _ _ _ (shown ▸ below), shown]
    dsimp only
    rw [if_neg (by omega), if_neg (by omega), if_pos below]
    rfl

end RingReader

theorem einval_negative {data : List Byte} {err : Int} :
    (decodeQueuedTask data = .error err → err < 0) ∧
      (decodeExitedPid data = .error err → err < 0) := by
  have below : einval < 0 := by decide
  constructor
  · intro failed
    exact ((decodeQueuedTask_error_iff data err).mp failed).1 ▸ below
  · intro failed
    unfold decodeExitedPid at failed
    split at failed
    · exact Except.error.inj failed ▸ below
    · cases failed

/-- The queued ring with the variable `nr_queued`, which lies in memory shared with BPF. -/
structure QueuedRing where
  reader : RingReader QueuedRecord
  nrQueued : Nat

def QueuedRing.dequeueTask (lib : RingBuffer) (q : QueuedRing) :
    Except Int (Option QueuedRecord) × QueuedRing :=
  let (result, reader) := q.reader.dequeue lib decodeQueuedTask
  match result with
  | .ok none => (result, ⟨reader, 0⟩)
  | .ok (some _) => (result, ⟨reader, q.nrQueued - 1⟩)
  | .error _ => (result, { q with reader := reader })

def dequeueExitedPid (lib : RingBuffer) (r : RingReader Pid) :
    Except Int (Option Pid) × RingReader Pid :=
  r.dequeue lib decodeExitedPid

theorem QueuedRing.dequeueTask_empty (lib : RingBuffer) {q : QueuedRing}
    (none_ : q.reader.ring = []) : q.dequeueTask lib = (.ok none, ⟨.empty, 0⟩) := by
  rw [dequeueTask, RingReader.dequeue_empty lib decodeQueuedTask none_]

theorem QueuedRing.dequeueTask_cons (lib : RingBuffer) {q : QueuedRing} {data : List Byte}
    {rest : List (List Byte)} (first : q.reader.ring = data :: rest) :
    q.dequeueTask lib = (RingReader.report decodeQueuedTask data,
      ⟨⟨rest, none⟩, if data.length = 88 then q.nrQueued - 1 else q.nrQueued⟩) := by
  rw [dequeueTask,
    RingReader.dequeue_cons lib decodeQueuedTask (fun _ _ => einval_negative.1) first]
  by_cases exact_ : data.length = 88
  · rw [if_pos exact_]
    cases read : decodeQueuedTask data with
    | ok task => simp only [RingReader.report, read, Except.map]
    | error err => exact absurd exact_ ((decodeQueuedTask_error_iff data err).mp read).2
  · have read := (decodeQueuedTask_error_iff data einval).mpr ⟨rfl, exact_⟩
    simp only [RingReader.report, read, Except.map, if_neg exact_]

/-- A ring in use. The fields after `reader` are ghosts: every record published, and what
the reads reported, without those that found the ring empty. -/
structure RingUse (α : Type) where
  reader : RingReader α
  published : List (List Byte)
  delivered : List (Except Int α)

def RingUse.init {α : Type} : RingUse α := ⟨.empty, [], []⟩

inductive RingEvent
  | publish (data : List Byte)
  | read

section

variable {α : Type} (lib : RingBuffer) (decode : List Byte → Except Int α)

def noteReport : Except Int (Option α) → List (Except Int α)
  | .ok none => []
  | .ok (some a) => [.ok a]
  | .error err => [.error err]

inductive RingStep (u : RingUse α) : RingEvent → RingUse α → Prop
  | publish (data : List Byte) : RingStep u (.publish data)
      { u with
        reader := { u.reader with ring := u.reader.ring ++ [data] }
        published := u.published ++ [data] }
  | read : RingStep u .read
      { u with
        reader := (u.reader.dequeue lib decode).2
        delivered := u.delivered ++ noteReport (u.reader.dequeue lib decode).1 }

/-- In every interleaving of both sides the reads report each record exactly once, in the
order of publication and as it decodes; what is still to come is what the ring holds. -/
theorem records_reported_once (negative : ∀ data err, decode data = .error err → err < 0)
    {es : List RingEvent} {u : RingUse α} (run : Run (RingStep lib decode) .init es u) :
    u.delivered ++ u.reader.ring.map decode = u.published.map decode := by
  refine run.keeps (I := fun u => u.delivered ++ u.reader.ring.map decode = u.published.map decode)
    (P := fun _ => True) (fun u _ v _ step before => ?_) (fun _ _ => trivial) rfl
  cases step with
  | publish data =>
    simp only [List.map_append, ← List.append_assoc, before]
  | read =>
    cases held : u.reader.ring with
    | nil =>
      rw [held] at before
      rw [RingReader.dequeue_empty lib decode held]
      simpa [RingReader.empty, noteReport] using before
    | cons data rest =>
      rw [held, List.map_cons] at before
      rw [RingReader.dequeue_cons lib decode negative held]
      have note : noteReport (RingReader.report decode data) = [decode data] := by
        rw [RingReader.report]
        cases decode data <;> rfl
      rw [note, List.append_assoc]
      exact before

end

/-- The two rings that user space reads lose, repeat and reorder nothing: a record that
cannot be decoded is reported as an error in its place, and those behind it still arrive. -/
theorem rings_deliver_once (lib : RingBuffer) {es fs : List RingEvent} {u : RingUse QueuedRecord}
    {v : RingUse Pid} (queued : Run (RingStep lib decodeQueuedTask) .init es u)
    (exits : Run (RingStep lib decodeExitedPid) .init fs v) :
    u.delivered ++ u.reader.ring.map decodeQueuedTask = u.published.map decodeQueuedTask ∧
      v.delivered ++ v.reader.ring.map decodeExitedPid = v.published.map decodeExitedPid :=
  ⟨records_reported_once lib decodeQueuedTask (fun _ _ => einval_negative.1) queued,
    records_reported_once lib decodeExitedPid (fun _ _ => einval_negative.2) exits⟩

/-- A short record, then the exit of task 7. -/
theorem short_record_reported :
    ∃ u v, Run (RingStep .records decodeQueuedTask) .init [.publish [1], .read] u ∧
      Run (RingStep .records decodeExitedPid) .init
        [.publish [1], .publish [7, 0, 0, 0], .read, .read] v ∧
      u.delivered = [.error einval] ∧ v.delivered = [.error einval, .ok 7] := by
  have queued : Run (RingStep .records decodeQueuedTask) .init [.publish [1], .read] _ :=
    .cons (.publish [1]) <| .cons .read <| .nil _
  have exits : Run (RingStep .records decodeExitedPid) .init
      [.publish [1], .publish [7, 0, 0, 0], .read, .read] _ :=
    .cons (.publish [1]) <| .cons (.publish [7, 0, 0, 0]) <| .cons .read <| .cons .read <| .nil _
  obtain ⟨first, second⟩ := rings_deliver_once .records queued exits
  exact ⟨_, _, queued, exits, first, second⟩

end Cognis.Fallback
