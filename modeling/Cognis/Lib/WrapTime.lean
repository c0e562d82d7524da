import Mathlib.Tactic.Common
import Mathlib.Data.BitVec

/-! Times on a clock that wraps around, read as signed distances from a front. Distances
add up as long as they stay within one half of the clock. -/
namespace WrapTime

variable {w : Nat}

def offset (front x : BitVec w) : Int := (x - front).toInt

/-- Halves of the clock, without powers of a difference. -/
def InHalf (w : Nat) (d : Int) : Prop := -(2 ^ w : Int) ≤ d * 2 ∧ d * 2 < 2 ^ w

theorem toInt_add {x y : BitVec w} (half : InHalf w (x.toInt + y.toInt)) :
    (x + y).toInt = x.toInt + y.toInt := by
  rw [BitVec.toInt_add]
  apply Int.bmod_eq_of_le_mul_two
  · exact_mod_cast half.1
  · exact_mod_cast half.2

theorem toInt_sub {x y : BitVec w} (half : InHalf w (x.toInt - y.toInt)) :
    (x - y).toInt = x.toInt - y.toInt := by
  rw [BitVec.toInt_sub]
  apply Int.bmod_eq_of_le_mul_two
  · exact_mod_cast half.1
  · exact_mod_cast half.2

theorem toInt_neg {x : BitVec w} (half : InHalf w (-x.toInt)) : (-x).toInt = -x.toInt := by
  have zero : (0 : BitVec w).toInt = 0 := BitVec.toInt_zero
  have back := toInt_sub (x := 0) (y := x) (by rwa [zero, Int.zero_sub])
  rwa [zero_sub, zero, Int.zero_sub] at back

theorem offset_self_sub {front y : BitVec w} (half : InHalf w (-y.toInt)) :
    offset front (front - y) = -y.toInt := by
  rw [offset, sub_sub_cancel_left]
  exact toInt_neg half

theorem offset_add {front x y : BitVec w} (half : InHalf w (offset front x + y.toInt)) :
    offset front (x + y) = offset front x + y.toInt := by
  rw [offset, add_sub_right_comm]
  exact toInt_add half

/-- The distance between two times does not depend on the front. -/
theorem toInt_sub_eq_offset {front x y : BitVec w}
    (half : InHalf w (offset front x - offset front y)) :
    (x - y).toInt = offset front x - offset front y := by
  rw [← sub_sub_sub_cancel_right x y front]
  exact toInt_sub half

theorem toInt_of_lt {x : BitVec w} (small : x.toNat * 2 < 2 ^ w) : x.toInt = x.toNat :=
  BitVec.toInt_eq_toNat_of_lt (by omega)

end WrapTime
