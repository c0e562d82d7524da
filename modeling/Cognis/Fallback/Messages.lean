import Cognis.Lib.Wire
import Cognis.Fallback.Policy

/-! The messages between the kernel side and user space, byte for byte: tasks sent to user
space, PIDs of tasks that leave, and tasks sent back. -/
namespace Cognis.Fallback
open Wire Reputation

def taskCommLen : Nat := 16

def einval : Int := -22

/-- `struct queued_task_ctx`. -/
structure QueuedTaskCtx where
  pid : BitVec 32
  cpu : BitVec 32
  nrCpusAllowed : BitVec 64
  flags : BitVec 64
  startTs : BitVec 64
  stopTs : BitVec 64
  execRuntime : BitVec 64
  weight : BitVec 64
  vtime : BitVec 64
  enqCnt : BitVec 64
  comm : Fin taskCommLen → Byte

/-- `struct dispatched_task_ctx`. -/
structure DispatchedMessage where
  pid : BitVec 32
  cpu : BitVec 32
  flags : BitVec 64
  sliceNs : BitVec 64
  vtime : BitVec 64
  enqCnt : BitVec 64

def int32 : Format (BitVec 32) := .word 4

def uint64 : Format (BitVec 64) := .word 8

/-- The members without padding, in the order of the structure. -/
def QueuedTaskCtx.layout : Format QueuedTaskCtx :=
  (int32.pair <| int32.pair <| uint64.pair <| uint64.pair <| uint64.pair <| uint64.pair <|
    uint64.pair <| uint64.pair <| uint64.pair <| uint64.pair <| .bytes taskCommLen).image
    { toFun := fun (pid, cpu, nrCpusAllowed, flags, startTs, stopTs, execRuntime, weight, vtime,
        enqCnt, comm) => ⟨pid, cpu, nrCpusAllowed, flags, startTs, stopTs, execRuntime, weight,
          vtime, enqCnt, comm⟩
      invFun := fun c => (c.pid, c.cpu, c.nrCpusAllowed, c.flags, c.startTs, c.stopTs,
        c.execRuntime, c.weight, c.vtime, c.enqCnt, c.comm)
      left_inv := fun _ => rfl
      right_inv := fun _ => rfl }

def DispatchedMessage.layout : Format DispatchedMessage :=
  (int32.pair <| int32.pair <| uint64.pair <| uint64.pair <| uint64.pair uint64).image
    { toFun := fun (pid, cpu, flags, sliceNs, vtime, enqCnt) =>
        ⟨pid, cpu, flags, sliceNs, vtime, enqCnt⟩
      invFun := fun c => (c.pid, c.cpu, c.flags, c.sliceNs, c.vtime, c.enqCnt)
      left_inv := fun _ => rfl
      right_inv := fun _ => rfl }

theorem QueuedTaskCtx.size : QueuedTaskCtx.layout.size = 88 := rfl

def QueuedTaskCtx.record (c : QueuedTaskCtx) : QueuedRecord where
  pid := c.pid.toInt
  cpu := c.cpu.toInt
  nrCpusAllowed := c.nrCpusAllowed.toNat
  flags := c.flags.toNat
  startTs := c.startTs.toNat
  stopTs := c.stopTs.toNat
  execRuntime := c.execRuntime.toNat
  weight := c.weight.toNat
  vtime := c.vtime.toNat
  enqCnt := c.enqCnt.toNat
  comm := c.comm
  vtime_le := Nat.le_sub_one_of_lt c.vtime.isLt

/-- The message that is read as a record whose numbers fit their members. -/
def QueuedRecord.ctx (task : QueuedRecord) : QueuedTaskCtx where
  pid := BitVec.ofInt 32 task.pid
  cpu := BitVec.ofInt 32 task.cpu
  nrCpusAllowed := BitVec.ofNat 64 task.nrCpusAllowed
  flags := BitVec.ofNat 64 task.flags
  startTs := BitVec.ofNat 64 task.startTs
  stopTs := BitVec.ofNat 64 task.stopTs
  execRuntime := BitVec.ofNat 64 task.execRuntime
  weight := BitVec.ofNat 64 task.weight
  vtime := BitVec.ofNat 64 task.vtime
  enqCnt := BitVec.ofNat 64 task.enqCnt
  comm := task.comm

theorem QueuedTaskCtx.ctx_record (c : QueuedTaskCtx) : c.record.ctx = c := by
  simp only [QueuedRecord.ctx, record, BitVec.ofInt_toInt, BitVec.ofNat_toNat, BitVec.setWidth_eq]

def decodeQueuedTask (data : List Byte) : Except Int QueuedRecord :=
  if data.length ≠ QueuedTaskCtx.layout.size then .error einval
  else .ok (QueuedTaskCtx.layout.decode data).record

def decodeExitedPid (data : List Byte) : Except Int Pid :=
  if data.length ≠ int32.size then .error einval else .ok (int32.decode data)

/-- What is read is read as it was written. -/
theorem decodeQueuedTask_ok_iff (data : List Byte) (task : QueuedRecord) :
    decodeQueuedTask data = .ok task ↔
      ∃ c : QueuedTaskCtx, c.record = task ∧ data = QueuedTaskCtx.layout.encode c := by
  unfold decodeQueuedTask
  constructor
  · intro read
    split at read
    · cases read
    · rename_i exact_
      refine ⟨QueuedTaskCtx.layout.decode data, Except.ok.inj read, ?_⟩
      exact (Format.decode_eq_iff _ (not_not.mp exact_)).mp rfl
  · rintro ⟨c, rfl, rfl⟩
    have length := QueuedTaskCtx.layout.length_encode c
    rw [if_neg (not_not.mpr length), (Format.decode_eq_iff _ length).mpr rfl]

theorem decodeQueuedTask_error_iff (data : List Byte) (err : Int) :
    decodeQueuedTask data = .error err ↔ err = einval ∧ data.length ≠ 88 := by
  unfold decodeQueuedTask
  rw [QueuedTaskCtx.size]
  split
  · rename_i other
    exact ⟨fun h => ⟨(Except.error.inj h).symm, other⟩, fun h => h.1 ▸ rfl⟩
  · rename_i exact_
    exact iff_of_false nofun fun h => exact_ h.2

/-- A message of the queued ring is refused for its length only, and a record is read from
exactly one message: its own bytes, provided that its numbers fit the members. -/
theorem queued_message_read (data : List Byte) (task : QueuedRecord) (err : Int) :
    (decodeQueuedTask data = .ok task ↔
        data = QueuedTaskCtx.layout.encode task.ctx ∧ task.ctx.record = task) ∧
      (decodeQueuedTask data = .error err ↔ err = einval ∧ data.length ≠ 88) := by
  refine ⟨?_, decodeQueuedTask_error_iff data err⟩
  rw [decodeQueuedTask_ok_iff]
  constructor
  · rintro ⟨c, rfl, rfl⟩
    rw [c.ctx_record]
    exact ⟨rfl, rfl⟩
  · rintro ⟨bytes, fits⟩
    exact ⟨task.ctx, fits, bytes⟩

/-- The values that the fields of a Rust `DispatchedTask` can hold. -/
structure DispatchedTask.Typed (t : DispatchedTask) : Prop where
  pid : -2 ^ 31 ≤ t.pid ∧ t.pid < 2 ^ 31
  cpu : -2 ^ 31 ≤ t.cpu ∧ t.cpu < 2 ^ 31
  flags : t.flags < 2 ^ 64
  sliceNs : t.sliceNs < 2 ^ 64
  vtime : t.vtime < 2 ^ 64
  enqCnt : t.enqCnt < 2 ^ 64

/-- What `dispatch_task` stores in the sample it reserved. -/
def DispatchedTask.message (t : DispatchedTask) : DispatchedMessage where
  pid := BitVec.ofInt 32 t.pid
  cpu := BitVec.ofInt 32 t.cpu
  flags := BitVec.ofNat 64 t.flags
  sliceNs := BitVec.ofNat 64 t.sliceNs
  vtime := BitVec.ofNat 64 t.vtime
  enqCnt := BitVec.ofNat 64 t.enqCnt

def DispatchedTask.bytes (t : DispatchedTask) : List Byte :=
  DispatchedMessage.layout.encode t.message

/-- The head of `handle_dispatched_task`: no message in a sample that is too short. -/
def readDispatched (data : List Byte) : Option Bpf.DispatchedTaskCtx :=
  if data.length < DispatchedMessage.layout.size then none
  else
    let task := DispatchedMessage.layout.decode data
    some
      { pid := task.pid.toNat
        cpu := task.cpu.toInt
        flags := task.flags
        sliceNs := task.sliceNs
        vtime := task.vtime
        enqCnt := task.enqCnt }

theorem readDispatched_bytes (t : DispatchedTask) :
    readDispatched t.bytes = some
      { pid := t.message.pid.toNat
        cpu := t.message.cpu.toInt
        flags := t.message.flags
        sliceNs := t.message.sliceNs
        vtime := t.message.vtime
        enqCnt := t.message.enqCnt } := by
  have length := DispatchedMessage.layout.length_encode t.message
  have read := (Format.decode_eq_iff DispatchedMessage.layout length).mpr rfl
  rw [readDispatched, DispatchedTask.bytes, if_neg (by omega), read]

theorem toInt_ofInt32 {x : Int} (low : -2 ^ 31 ≤ x) (high : x < 2 ^ 31) :
    (BitVec.ofInt 32 x).toInt = x := by
  rw [BitVec.toInt_ofInt]
  exact Int.bmod_eq_of_le (by omega) (by omega)

/-- What user space sends is what the kernel side reads: every field of a task arrives
unchanged, a CPU number below zero included, and the kernel side never sees a short sample. -/
theorem dispatched_message_arrives (t : DispatchedTask) (typed : t.Typed) :
    t.bytes.length = 40 ∧ ∃ c, readDispatched t.bytes = some c ∧
      (0 ≤ t.pid → (c.pid : Int) = t.pid) ∧ c.cpu = t.cpu ∧ c.flags.toNat = t.flags ∧
      c.sliceNs.toNat = t.sliceNs ∧ c.vtime.toNat = t.vtime ∧ c.enqCnt.toNat = t.enqCnt := by
  refine ⟨DispatchedMessage.layout.length_encode _, _, readDispatched_bytes t, fun live => ?_,
    toInt_ofInt32 typed.cpu.1 typed.cpu.2, ?_, ?_, ?_, ?_⟩
  · have value : (BitVec.ofInt 32 t.pid).toInt = t.pid := toInt_ofInt32 typed.pid.1 typed.pid.2
    rw [BitVec.toInt_eq_toNat_cond] at value
    have bound := (BitVec.ofInt 32 t.pid).isLt
    change ((BitVec.ofInt 32 t.pid).toNat : Int) = t.pid
    split at value <;> omega
  · exact Nat.mod_eq_of_lt typed.flags
  · exact Nat.mod_eq_of_lt typed.sliceNs
  · exact Nat.mod_eq_of_lt typed.vtime
  · exact Nat.mod_eq_of_lt typed.enqCnt

/-- A task pinned to no CPU, with the largest deadline there is. -/
theorem largest_message_arrives :
    let t : DispatchedTask := ⟨7, -1, 2, 1000000, 2 ^ 64 - 1, 3⟩
    ∃ c, readDispatched t.bytes = some c ∧ c.cpu = -1 ∧ c.vtime.toNat = 2 ^ 64 - 1 := by
  have typed : DispatchedTask.Typed ⟨7, -1, 2, 1000000, 2 ^ 64 - 1, 3⟩ :=
    ⟨by decide, by decide, by decide, by decide, by decide, by decide⟩
  obtain ⟨_, c, read, _, cpu, _, _, vtime, _⟩ := dispatched_message_arrives _ typed
  exact ⟨c, read, cpu, vtime⟩

end Cognis.Fallback
