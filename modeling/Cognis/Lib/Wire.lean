import Mathlib.Algebra.Order.Ring.Nat
import Mathlib.Data.List.GetD
import Mathlib.Data.List.OfFn
import Mathlib.Logic.Equiv.Defs
import Mathlib.Tactic.Common

/-! Fixed-size memory layouts. A format writes a value as a given number of bytes and reads
it back; formats compose field by field, as the members of a packed structure do. -/
namespace Wire

abbrev Byte := BitVec 8

structure Format (α : Type) where
  size : Nat
  encode : α → List Byte
  /-- Reads from the front of at least `size` bytes. -/
  decode : List Byte → α
  length_encode : ∀ a, (encode a).length = size
  decode_encode : ∀ a rest, decode (encode a ++ rest) = a
  encode_decode : ∀ bytes, size ≤ bytes.length → encode (decode bytes) = bytes.take size

/-- Little-endian digits. -/
def digits : Nat → Nat → List Byte
  | 0, _ => []
  | n + 1, x => BitVec.ofNat 8 x :: digits n (x / 256)

def value : List Byte → Nat
  | [] => 0
  | b :: bytes => b.toNat + 256 * value bytes

theorem length_digits (n x : Nat) : (digits n x).length = n := by
  induction n generalizing x with
  | zero => rfl
  | succ n ih => rw [digits, List.length_cons, ih]

theorem value_digits (n x : Nat) : value (digits n x) = x % 2 ^ (8 * n) := by
  induction n generalizing x with
  | zero => simp [digits, value, Nat.mod_one]
  | succ n ih =>
    have radix : 2 ^ (8 * (n + 1)) = 256 * 2 ^ (8 * n) := by
      rw [Nat.mul_succ, Nat.pow_add, Nat.mul_comm]
    rw [digits, value, ih, BitVec.toNat_ofNat, radix, Nat.mod_mul]

theorem digits_value (bytes : List Byte) : digits bytes.length (value bytes) = bytes := by
  induction bytes with
  | nil => rfl
  | cons b bytes ih =>
    have small : b.toNat < 256 := b.isLt
    have low : BitVec.ofNat 8 (b.toNat + 256 * value bytes) = b := by
      apply BitVec.eq_of_toNat_eq
      rw [BitVec.toNat_ofNat, Nat.add_mul_mod_self_left]
      exact Nat.mod_eq_of_lt small
    have high : (b.toNat + 256 * value bytes) / 256 = value bytes := by
      rw [Nat.add_mul_div_left _ _ (by decide), Nat.div_eq_of_lt small, Nat.zero_add]
    rw [List.length_cons, value, digits, low, high, ih]

theorem value_lt (bytes : List Byte) : value bytes < 2 ^ (8 * bytes.length) := by
  have bound := value_digits bytes.length (value bytes)
  rw [digits_value] at bound
  rw [bound]
  exact Nat.mod_lt _ (Nat.two_pow_pos _)

namespace Format

/-- An integer of `n` bytes, least significant byte first. -/
def word (n : Nat) : Format (BitVec (8 * n)) where
  size := n
  encode x := digits n x.toNat
  decode bytes := BitVec.ofNat (8 * n) (value (bytes.take n))
  length_encode x := length_digits n x.toNat
  decode_encode x rest := by
    have front : (digits n x.toNat ++ rest).take n = digits n x.toNat := by
      rw [List.take_append_of_le_length (Nat.le_of_eq (length_digits n _).symm),
        List.take_of_length_le (Nat.le_of_eq (length_digits n _))]
    rw [front, value_digits, Nat.mod_eq_of_lt x.isLt, BitVec.ofNat_toNat, BitVec.setWidth_eq]
  encode_decode bytes long := by
    have length : (bytes.take n).length = n := List.length_take_of_le long
    have bound := value_lt (bytes.take n)
    have back := digits_value (bytes.take n)
    rw [length] at bound back
    rw [BitVec.toNat_ofNat, Nat.mod_eq_of_lt bound, back]

/-- An array of `n` single bytes. -/
def bytes (n : Nat) : Format (Fin n → Byte) where
  size := n
  encode a := List.ofFn a
  decode bytes i := bytes.getD i 0
  length_encode a := List.length_ofFn
  decode_encode a rest := by
    funext i
    have inside : (i : Nat) < (List.ofFn a).length := by
      rw [List.length_ofFn]
      exact i.isLt
    rw [List.getD_append _ _ _ _ inside, List.getD_eq_getElem _ _ inside, List.getElem_ofFn]
  encode_decode bytes long := by
    apply List.ext_getElem
    · rw [List.length_ofFn, List.length_take_of_le long]
    · intro i first second
      have inside : i < bytes.length := (List.length_ofFn ▸ first).trans_le long
      rw [List.getElem_ofFn, List.getElem_take, List.getD_eq_getElem _ _ inside]

variable {α β : Type}

/-- One field after the other. -/
def pair (f : Format α) (g : Format β) : Format (α × β) where
  size := f.size + g.size
  encode a := f.encode a.1 ++ g.encode a.2
  decode bytes := (f.decode bytes, g.decode (bytes.drop f.size))
  length_encode a := by rw [List.length_append, f.length_encode, g.length_encode]
  decode_encode a rest := by
    have behind : (f.encode a.1 ++ (g.encode a.2 ++ rest)).drop f.size = g.encode a.2 ++ rest := by
      rw [← f.length_encode a.1, List.drop_left]
    rw [List.append_assoc, f.decode_encode, behind, g.decode_encode]
  encode_decode bytes long := by
    have first := f.encode_decode bytes (by omega)
    have second := g.encode_decode (bytes.drop f.size) (by
      rw [List.length_drop]
      omega)
    rw [first, second, List.take_add]

/-- The same bytes under another name. -/
def image (f : Format α) (e : α ≃ β) : Format β where
  size := f.size
  encode b := f.encode (e.symm b)
  decode bytes := e (f.decode bytes)
  length_encode b := f.length_encode (e.symm b)
  decode_encode b rest := by rw [f.decode_encode, e.apply_symm_apply]
  encode_decode bytes long := by rw [e.symm_apply_apply, f.encode_decode bytes long]

theorem decode_eq_iff (f : Format α) {bytes : List Byte} {a : α} (exact_ : bytes.length = f.size) :
    f.decode bytes = a ↔ bytes = f.encode a := by
  constructor
  · rintro rfl
    rw [f.encode_decode bytes exact_.ge, List.take_of_length_le exact_.le]
  · rintro rfl
    have back := f.decode_encode a []
    rwa [List.append_nil] at back

end Format

end Wire
