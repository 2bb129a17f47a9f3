import Mathlib.Data.Nat.Bitwise

/-!
# Rounding to a power of two in 64-bit arithmetic

The masks clear the low bits. Rounding up adds first and may wrap around.
-/

namespace Base.Alignment

set_option autoImplicit false

/-- `x & ~(align - 1)`. -/
def alignDown (align x : UInt64) : UInt64 := x &&& ~~~(align - 1)

/-- `(x + align - 1) & ~(align - 1)`. -/
def alignUp (align x : UInt64) : UInt64 := alignDown align (x + align - 1)

theorem and_highMask {n x : Nat} (hx : x < 2 ^ 64) (hn : n ≤ 64) :
    x &&& (2 ^ 64 - 2 ^ n) = x / 2 ^ n * 2 ^ n := by
  have hmask : 2 ^ 64 - 2 ^ n = (2 ^ (64 - n) - 1) <<< n := by
    rw [Nat.shiftLeft_eq, Nat.sub_mul, ← pow_add, Nat.sub_add_cancel hn, one_mul]
  rw [hmask, ← Nat.shiftRight_eq_div_pow, ← Nat.shiftLeft_eq]
  apply Nat.eq_of_testBit_eq
  intro i
  rw [Nat.testBit_and, Nat.testBit_shiftLeft, Nat.testBit_shiftLeft, Nat.testBit_shiftRight,
    Nat.testBit_two_pow_sub_one]
  by_cases hin : n ≤ i
  · rw [Nat.add_sub_cancel' hin]
    by_cases hi : i < 64
    · simp [hin, show i - n < 64 - n by omega]
    · have hhigh : x.testBit i = false :=
        Nat.testBit_lt_two_pow (hx.trans_le (Nat.pow_le_pow_right (by omega) (Nat.not_lt.mp hi)))
      simp [hhigh]
  · simp [hin]

section Powers
variable {align : UInt64} {n : Nat} (halign : align.toNat = 2 ^ n)
include halign

theorem toNat_sub_one : (align - 1).toNat = 2 ^ n - 1 := by
  have hpos : 0 < 2 ^ n := Nat.two_pow_pos n
  have hle : (1 : UInt64) ≤ align := UInt64.le_iff_toNat_le.mpr (by rw [halign]; exact hpos)
  rw [UInt64.toNat_sub_of_le _ _ hle, halign]
  rfl

theorem toNat_alignDown (x : UInt64) :
    (alignDown align x).toNat = x.toNat / 2 ^ n * 2 ^ n := by
  have hlt : 2 ^ n < 2 ^ 64 := halign ▸ align.toNat_lt
  have hn : n < 64 := (Nat.pow_lt_pow_iff_right (by omega)).mp hlt
  have hpos : 0 < 2 ^ n := Nat.two_pow_pos n
  have hmask : (~~~(align - 1)).toNat = 2 ^ 64 - 2 ^ n := by
    rw [UInt64.toNat_not, toNat_sub_one halign]
    simp only [UInt64.size]
    omega
  rw [alignDown, UInt64.toNat_and, hmask, and_highMask x.toNat_lt hn.le]

/-- Where the sum does not wrap, the least multiple that is not smaller. -/
theorem toNat_alignUp (x : UInt64) :
    (alignUp align x).toNat = (x.toNat + (2 ^ n - 1)) % 2 ^ 64 / 2 ^ n * 2 ^ n := by
  have hsum : x + align - 1 = x + (align - 1) := by
    rw [UInt64.sub_eq_add_neg, UInt64.sub_eq_add_neg, UInt64.add_assoc]
  rw [alignUp, toNat_alignDown halign, hsum, UInt64.toNat_add, toNat_sub_one halign]

end Powers

end Base.Alignment
