import Mathlib.Data.List.TakeWhile
import Mathlib.Tactic.Common

/-! The name under which the scheduler registers: the given name and the version suffix
in a field of fixed length, and the wait that recognises the scheduler by it. -/
namespace Cognis.Loader

abbrev Byte := BitVec 8

/-- `fuel` stands for a loop that is still running. -/
inductive NameFault
  | notAscii
  | panic
  | fuel
deriving DecidableEq

def loadByte (bytes : List Byte) (i : Nat) : Except NameFault Byte :=
  match bytes[i]? with
  | none => throw .panic
  | some b => return b

def storeByte (field : List Byte) (i : Nat) (b : Byte) : Except NameFault (List Byte) :=
  if i < field.length then return field.set i b else throw .panic

/-- `for i in 0..n` over the bytes of the name. -/
def copyName (bytes : List Byte) : List Nat → List Byte → Except NameFault (List Byte)
  | [], field => return field
  | i :: is, field => do copyName bytes is (← storeByte field i (← loadByte bytes i))

/-- The loop skips the copied name up to the first NUL, then writes the suffix. -/
def appendSuffix (bytes : List Byte) :
    Nat → List Byte → Nat → Nat → Bool → Except NameFault (List Byte × Nat)
  | 0, _, _, _, _ => throw .fuel
  | fuel + 1, field, i, bytesIdx, foundNull => do
    if i < field.length - 1 then
      let foundNull := foundNull || (← loadByte field i) == 0
      if !foundNull then appendSuffix bytes fuel field (i + 1) bytesIdx foundNull
      else if bytesIdx < bytes.length then
        let field ← storeByte field i (← loadByte bytes bytesIdx)
        appendSuffix bytes fuel field (i + 1) (bytesIdx + 1) foundNull
      else return (field, i)
    else return (field, i)

/-- `suffix` is what `ops_version_suffix` returns. -/
def setScxOpsName (fuel : Nat) (nameField src suffix : List Byte) :
    Except NameFault (List Byte) := do
  if !src.all (· < 128) then throw .notAscii
  let n := min src.length (nameField.length - 1)
  let field ← copyName src (List.range n) (nameField.map fun _ => 0)
  -- `len() - 1` below underflows on an empty field
  if field.length = 0 then throw .panic
  let (field, i) ← appendSuffix suffix fuel field 0 0 false
  storeByte field i 0

/-- The bytes of `cognis_`. -/
def detachPrefix : List Byte := [99, 111, 103, 110, 105, 115, 95]

/-- `reported` is the trimmed name read at each poll, `timedOut` whether the wait is
over by then. The outer `none` is a loop that is still running. -/
def waitForDetach (reported : Nat → Option (List Byte)) (timedOut : Nat → Bool) :
    Nat → Nat → Option (Option (List Byte))
  | 0, _ => none
  | fuel + 1, i =>
    match reported i with
    | none => some none
    | some name =>
      if detachPrefix.isPrefixOf name then
        if timedOut i then some (some name) else waitForDetach reported timedOut fuel (i + 1)
      else some none

/-- The field read as a C string. -/
def cString (field : List Byte) : List Byte := field.takeWhile (· != 0)

section

variable {front room : List Byte}

@[simp] theorem ok_then {α β : Type} (a : α) (f : α → Except NameFault β) :
    (Except.ok a >>= f) = f a := rfl

@[simp] theorem done_ok {α : Type} (a : α) : (pure a : Except NameFault α) = .ok a := rfl

theorem storeByte_next (b cell : Byte) :
    storeByte (front ++ cell :: room) front.length b = .ok (front ++ [b] ++ room) := by
  have inside : front.length < (front ++ cell :: room).length := by simp
  rw [storeByte, if_pos inside]
  simp

theorem loadByte_next (cell : Byte) : loadByte (front ++ cell :: room) front.length = .ok cell := by
  simp [loadByte]

theorem copyName_run (front rest : List Byte) (blank : List Byte)
    (fits : rest.length ≤ blank.length)
    (tail : List Byte) :
    copyName (front ++ rest ++ tail) (List.range' front.length rest.length) (front ++ blank) =
      .ok (front ++ rest ++ blank.drop rest.length) := by
  induction rest generalizing front blank with
  | nil => simp [copyName]
  | cons b rest ih =>
    obtain ⟨cell, blank, rfl⟩ := List.exists_cons_of_length_pos (Nat.lt_of_lt_of_le (by simp) fits)
    have next := ih (front ++ [b]) blank (by simpa using fits)
    rw [List.length_cons, List.range'_succ, copyName]
    have loaded : loadByte (front ++ b :: rest ++ tail) front.length = .ok b := by
      rw [List.append_assoc, List.cons_append]
      exact loadByte_next b
    rw [loaded, ok_then, storeByte_next, ok_then]
    simpa [List.append_assoc] using next

/-- The loop passes over cells that are not NUL. -/
theorem appendSuffix_skips (front suffix : List Byte) {rest : List Byte} (nulFree : 0 ∉ rest)
    (fuel z : Nat) :
    appendSuffix suffix (fuel + rest.length) (front ++ rest ++ List.replicate (z + 1) 0)
        front.length 0 false =
      appendSuffix suffix fuel (front ++ rest ++ List.replicate (z + 1) 0)
        (front ++ rest).length 0 false := by
  induction rest generalizing front with
  | nil => simp
  | cons b rest ih =>
    have other := List.ne_of_not_mem_cons nulFree
    have nulFree := List.not_mem_of_not_mem_cons nulFree
    have next := ih (front ++ [b]) nulFree
    have ahead : front.length < (front ++ b :: rest ++ List.replicate (z + 1) 0).length - 1 := by
      rw [List.length_append, List.length_append, List.length_cons, List.length_replicate]
      omega
    have cell : loadByte (front ++ b :: rest ++ List.replicate (z + 1) 0) front.length = .ok b := by
      rw [List.append_assoc, List.cons_append]
      exact loadByte_next b
    have passes : (b == 0) = false := beq_eq_false_iff_ne.mpr (Ne.symm other)
    rw [List.length_cons, ← Nat.add_assoc, appendSuffix, if_pos ahead, cell, ok_then]
    simp only [passes, Bool.or_self, Bool.not_false, if_true]
    simpa [List.append_assoc] using next

/-- From the first NUL on the loop writes the suffix, as far as there is room before
the last cell. -/
theorem appendSuffix_writes (front suffix : List Byte) (z j fuel : Nat) (found : Bool)
    (enough : z + 1 ≤ fuel) :
    appendSuffix suffix fuel (front ++ List.replicate (z + 1) 0) front.length j found =
      .ok (front ++ (suffix.drop j).take z ++
          List.replicate (z + 1 - ((suffix.drop j).take z).length) 0,
        front.length + ((suffix.drop j).take z).length) := by
  induction z generalizing front j found fuel with
  | zero =>
    obtain ⟨fuel, rfl⟩ := Nat.exists_eq_add_of_le' enough
    have last : ¬ front.length < (front ++ List.replicate (0 + 1) 0).length - 1 := by simp
    rw [appendSuffix, if_neg last]
    simp
  | succ z ih =>
    obtain ⟨fuel, rfl⟩ := Nat.exists_eq_add_of_le' (Nat.le_of_add_left_le enough)
    have ahead : front.length < (front ++ List.replicate (z + 1 + 1) 0).length - 1 := by simp
    rw [appendSuffix, if_pos ahead, List.replicate_succ, loadByte_next, ok_then]
    simp only [beq_self_eq_true, Bool.or_true, Bool.not_true, Bool.false_eq_true, if_false]
    split
    · rename_i more
      have loaded : loadByte suffix j = .ok suffix[j] := by simp [loadByte, more]
      have taken : (suffix.drop j).take (z + 1) = suffix[j] :: (suffix.drop (j + 1)).take z := by
        rw [List.drop_eq_getElem_cons more, List.take_succ_cons]
      have next := ih (front ++ [suffix[j]]) (j + 1) fuel true (by omega)
      rw [List.length_append, List.length_singleton] at next
      rw [loaded, ok_then, storeByte_next, ok_then, taken, List.length_cons,
        Nat.add_sub_add_right, next]
      simp only [List.append_assoc, List.cons_append, List.nil_append, Nat.add_assoc,
        Nat.add_comm 1]
    · rename_i done
      rw [List.drop_eq_nil_of_le (not_lt.mp done), ← List.replicate_succ]
      simp

theorem copyName_blank (src : List Byte) (room : Nat) :
    copyName src (List.range (min src.length room)) (List.replicate (room + 1) 0) =
      .ok (src.take room ++ List.replicate (room + 1 - min src.length room) 0) := by
  have taken : (src.take room).length = min src.length room := by
    rw [List.length_take, min_comm]
  have copied := copyName_run [] (src.take room) (List.replicate (room + 1) 0) (by
    rw [taken, List.length_replicate]
    omega) (src.drop room)
  simp only [List.nil_append, List.take_append_drop, List.length_nil, taken,
    List.drop_replicate] at copied
  rwa [List.range_eq_range']

/-- Both parts of the loop: `front` is skipped, the suffix fills the room behind it. -/
theorem appendSuffix_run (suffix : List Byte) (nulFree : 0 ∉ front) {z fuel : Nat}
    (enough : front.length + (z + 1) ≤ fuel) :
    appendSuffix suffix fuel (front ++ List.replicate (z + 1) 0) 0 0 false =
      .ok (front ++ suffix.take z ++ List.replicate (z + 1 - (suffix.take z).length) 0,
        front.length + (suffix.take z).length) := by
  obtain ⟨spare, rfl⟩ : ∃ spare, fuel = spare + front.length :=
    Nat.exists_eq_add_of_le' (Nat.le_of_add_right_le enough)
  have skips := appendSuffix_skips [] suffix nulFree spare z
  simp only [List.nil_append, List.length_nil] at skips
  rw [skips, appendSuffix_writes front suffix z 0 spare false (by omega), List.drop_zero]

theorem storeByte_last (z : Nat) :
    storeByte (front ++ List.replicate (z + 1) 0) front.length 0 =
      .ok (front ++ List.replicate (z + 1) 0) := by
  rw [List.replicate_succ, storeByte_next, List.append_assoc]
  rfl

/-- The two loops leave the name and the suffix, cut to the room before the last cell. -/
theorem setScxOpsName_run {field src : List Byte} (suffix : List Byte) (ascii : ∀ b ∈ src, b < 128)
    (nulFree : 0 ∉ src) {room fuel : Nat} (length : field.length = room + 1)
    (enough : field.length ≤ fuel) :
    setScxOpsName fuel field src suffix =
      .ok ((src ++ suffix).take room ++
        List.replicate (room + 1 - ((src ++ suffix).take room).length) 0) := by
  have plain : (!src.all (· < 128)) = false := by simpa using ascii
  have blank : field.map (fun _ => (0 : Byte)) = List.replicate (room + 1) 0 :=
    length ▸ List.map_const' ..
  obtain ⟨z, left⟩ : ∃ z, room + 1 - min src.length room = z + 1 :=
    Nat.exists_eq_add_of_le' (by omega)
  have free : 0 ∉ src.take room := fun member => nulFree (List.mem_of_mem_take member)
  have taken : (src.take room).length = min src.length room := by
    rw [List.length_take, min_comm]
  have room_ : (src.take room).length + (z + 1) ≤ fuel := by omega
  have appended := appendSuffix_run suffix free room_
  have behind : z = room - src.length := by omega
  have whole : (src ++ suffix).take room = src.take room ++ suffix.take z := by
    rw [List.take_append, behind]
  obtain ⟨y, last⟩ : ∃ y, z + 1 - (suffix.take z).length = y + 1 :=
    Nat.exists_eq_add_of_le' (by rw [List.length_take]; omega)
  have width : room + 1 - ((src ++ suffix).take room).length = y + 1 := by
    rw [whole, List.length_append, taken]
    omega
  have nonempty : ¬ (src.take room ++ List.replicate (z + 1) (0 : Byte)).length = 0 := by simp
  rw [last, ← List.length_append] at appended
  rw [width, whole, ← storeByte_last y]
  simp only [setScxOpsName, plain, Bool.false_eq_true, if_false, length, Nat.add_sub_cancel, blank,
    copyName_blank, left, ok_then, nonempty, appended]

theorem cString_padded {bytes : List Byte} (nulFree : 0 ∉ bytes) (y : Nat) :
    cString (bytes ++ List.replicate (y + 1) 0) = bytes := by
  have plain : ∀ b ∈ bytes, (b != 0) = true :=
    fun b member => bne_iff_ne.mpr fun zero => nulFree (zero ▸ member)
  rw [cString, List.takeWhile_append_of_pos plain, List.replicate_succ,
    List.takeWhile_cons_of_neg (by decide), List.append_nil]

/-- Whatever fits of the name is a prefix of what is read back. -/
theorem prefix_take {pre whole : List Byte} {room : Nat} (starts : pre <+: whole)
    (fits : pre.length ≤ room) : pre <+: whole.take room :=
  List.prefix_take_iff.mpr ⟨starts, fits⟩

end

/-- For an ASCII name and a suffix without NULs the field ends up with their
concatenation, cut to one byte less than the field, and zeros behind it. A name that
fits is a prefix of it, and the wait does not take the scheduler for another. -/
theorem ops_name_truncated (field src suffix : List Byte) (ascii : ∀ b ∈ src, b < 128)
    (src_nul : 0 ∉ src) (suffix_nul : 0 ∉ suffix) (some_ : 1 ≤ field.length) :
    ∃ field', (∀ fuel, field.length ≤ fuel → setScxOpsName fuel field src suffix = .ok field') ∧
      field' = (src ++ suffix).take (field.length - 1) ++
        List.replicate (field.length - ((src ++ suffix).take (field.length - 1)).length) 0 ∧
      field'.length = field.length ∧ field'.getLast? = some 0 ∧
      cString field' = (src ++ suffix).take (field.length - 1) ∧
      (src.length ≤ field.length - 1 → src <+: cString field') ∧
      (detachPrefix <+: src ++ suffix → detachPrefix.length ≤ field.length - 1 →
        ∀ reported timedOut fuel i, reported i = some (cString field') →
          waitForDetach reported timedOut (fuel + 1) i =
            if timedOut i then some (some (cString field'))
            else waitForDetach reported timedOut fuel (i + 1)) := by
  obtain ⟨room, length⟩ := Nat.exists_eq_add_of_le' some_
  have nulFree : 0 ∉ (src ++ suffix).take room := by
    intro member
    rcases List.mem_append.mp (List.mem_of_mem_take member) with name | version
    · exact src_nul name
    · exact suffix_nul version
  obtain ⟨y, last⟩ : ∃ y, room + 1 - ((src ++ suffix).take room).length = y + 1 :=
    Nat.exists_eq_add_of_le' (by rw [List.length_take]; omega)
  have run : ∀ fuel, field.length ≤ fuel → _ := fun fuel enough =>
    setScxOpsName_run suffix ascii src_nul length enough
  have back := cString_padded nulFree y
  rw [length, Nat.add_sub_cancel, last]
  simp only [last, length] at run
  refine ⟨_, run, rfl, ?_, ?_, back, ?_, ?_⟩
  · rw [List.length_append, List.length_replicate]
    omega
  · rw [List.getLast?_append, List.getLast?_replicate]
    rfl
  · intro fits
    rw [back]
    exact prefix_take (List.prefix_append src suffix) fits
  · intro starts fits reported timedOut fuel i now
    have recognised : detachPrefix.isPrefixOf ((src ++ suffix).take room) = true :=
      List.isPrefixOf_iff_prefix.mpr (prefix_take starts fits)
    rw [waitForDetach, now, back]
    exact if_pos recognised

/-- `cognis` and `_1.0` in a field of twelve bytes. -/
theorem ops_name_truncated_cognis :
    ∃ field', (∀ fuel, 12 ≤ fuel → setScxOpsName fuel (List.replicate 12 7)
        [99, 111, 103, 110, 105, 115] [95, 49, 46, 48] = .ok field') ∧
      field' = [99, 111, 103, 110, 105, 115, 95, 49, 46, 48, 0, 0] := by
  obtain ⟨field', run, cut, _⟩ := ops_name_truncated (List.replicate 12 7)
    [99, 111, 103, 110, 105, 115] [95, 49, 46, 48] (by decide) (by decide) (by decide) (by decide)
  exact ⟨field', run, cut⟩

end Cognis.Loader
