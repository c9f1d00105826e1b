import Mathlib.Algebra.Group.Int.Defs
import Mathlib.Algebra.Group.Nat.Defs

/-!
# Arithmetic of a fixed width

The saturating operations, the minimum and the clamp of Rust's integer
types. `u128` is a `BitVec 128`, the other types are Lean's own. Where
the result fits, an operation is the one on the numbers.
-/

namespace TunnelWarden

variable {w : ℕ} {a b : BitVec w} {i j lo hi : Int16}

/-- `saturating_mul`, of an unsigned type. -/
def saturatingMul (a b : BitVec w) : BitVec w :=
  if a.toNat * b.toNat < 2 ^ w then a * b else BitVec.allOnes w

/-- `saturating_sub`, of a `u32`. -/
def saturatingSub (a b : UInt32) : UInt32 := if b ≤ a then a - b else 0

/-- `Ord::min`, of an unsigned type. -/
def minBits (a b : BitVec w) : BitVec w := if a ≤ b then a else b

/-- `Ord::clamp`; it panics unless `lo ≤ hi`. -/
def clamp (i lo hi : Int16) : Int16 := if i < lo then lo else if hi < i then hi else i

/-- `as u128`, of a signed number: a negative one wraps. -/
def asU128 (i : Int16) : BitVec 128 := BitVec.ofInt 128 i.toInt

/-- A product that fits does not saturate. -/
theorem toNat_saturatingMul (h : a.toNat * b.toNat < 2 ^ w) :
    (saturatingMul a b).toNat = a.toNat * b.toNat := by
  rw [saturatingMul, if_pos h, BitVec.toNat_mul, Nat.mod_eq_of_lt h]

theorem toNat_saturatingSub (a b : UInt32) : (saturatingSub a b).toNat = a.toNat - b.toNat := by
  unfold saturatingSub
  by_cases h : b ≤ a
  · rw [if_pos h, UInt32.toNat_sub_of_le a b h]
  · have hlt : a.toNat < b.toNat := UInt32.lt_iff_toNat_lt.1 (UInt32.not_le.1 h)
    rw [if_neg h, UInt32.toNat_zero]
    omega

theorem toNat_minBits (a b : BitVec w) : (minBits a b).toNat = min a.toNat b.toNat := by
  unfold minBits
  by_cases h : a ≤ b
  · rw [if_pos h, Nat.min_eq_left (BitVec.le_def.1 h)]
  · have hle : b.toNat ≤ a.toNat := Nat.le_of_not_le fun hle => h (BitVec.le_def.2 hle)
    rw [if_neg h, Nat.min_eq_right hle]

/-- Between two bounds in their order the clamp is the one of the
numbers. -/
theorem toInt_clamp (h : lo.toInt ≤ hi.toInt) :
    (clamp i lo hi).toInt = max lo.toInt (min hi.toInt i.toInt) := by
  unfold clamp
  simp only [Int16.lt_iff_toInt_lt]
  split
  · omega
  · split <;> omega

/-- A sum that fits does not wrap. -/
theorem toInt_add_of_fits (hlo : -2 ^ 15 ≤ i.toInt + j.toInt) (hhi : i.toInt + j.toInt < 2 ^ 15) :
    (i + j).toInt = i.toInt + j.toInt := by
  rw [Int16.toInt_add]
  exact Int.bmod_eq_of_le (by omega) (by omega)

/-- Only the least number has no negative. -/
theorem toInt_neg_of_ne (h : -2 ^ 15 < i.toInt) : (-i).toInt = -i.toInt := by
  have hlt : i.toInt < 2 ^ 15 := i.toInt_lt
  rw [Int16.toInt_neg]
  exact Int.bmod_eq_of_le (by omega) (by omega)

/-- A number that is not negative is converted as it is. -/
theorem toNat_asU128 (h : 0 ≤ i.toInt) : ((asU128 i).toNat : ℤ) = i.toInt := by
  have hlt : i.toInt < 2 ^ 15 := i.toInt_lt
  rw [asU128, BitVec.toNat_ofInt]
  omega

end TunnelWarden
