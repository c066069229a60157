/-
Words put together from their pieces, and rounded to pages.
-/
import Mathlib.Tactic

namespace Omiiba

/-- A piece shifted over the pieces below it. -/
theorem toNat_shiftLeft_or (x y : UInt32) {k : Nat} (hy : y.toNat < 2 ^ k) (hk : k < 32) (hx : x.toNat < 2 ^ (32 - k)) :
    ((x <<< UInt32.ofNat k) ||| y).toNat = x.toNat * 2 ^ k + y.toNat := by
  have hlt : x.toNat * 2 ^ k < 2 ^ 32 := by
    calc x.toNat * 2 ^ k < 2 ^ (32 - k) * 2 ^ k := (Nat.mul_lt_mul_right (Nat.two_pow_pos k)).2 hx
      _ = 2 ^ 32 := by rw [← pow_add, Nat.sub_add_cancel hk.le]
  have hofNat : (UInt32.ofNat k).toNat % 32 = k := by
    rw [UInt32.toNat_ofNat', Nat.mod_eq_of_lt (a := k) (by omega), Nat.mod_eq_of_lt hk]
  rw [UInt32.toNat_or, UInt32.toNat_shiftLeft, hofNat, Nat.shiftLeft_eq, Nat.mod_eq_of_lt hlt, ← Nat.shiftLeft_eq,
    ← Nat.shiftLeft_add_eq_or_of_lt hy]

/-- A word rounded down to a page. -/
theorem toNat_and_not_0xFFF (a : UInt32) : (a &&& ~~~0xFFF).toNat = a.toNat / 4096 * 4096 := by
  have hlt := a.toNat_lt
  have hmask : (~~~0xFFF : UInt32).toNat = 2 ^ 32 - 2 ^ 12 := by decide
  rw [UInt32.toNat_and, hmask]
  refine Nat.eq_of_testBit_eq fun i => ?_
  have hpow : a.toNat / 4096 * 4096 = 2 ^ 12 * (a.toNat / 2 ^ 12) := by omega
  rw [hpow, Nat.testBit_and, Nat.testBit_two_pow_mul, Nat.testBit_div_two_pow,
    show 2 ^ 32 - 2 ^ 12 = 2 ^ 12 * (2 ^ 20 - 1) by norm_num, Nat.testBit_two_pow_mul, Nat.testBit_two_pow_sub_one]
  by_cases hi : 12 ≤ i
  · by_cases hhigh : i - 12 < 20
    · simp [hi, hhigh]
    · have hbits : a.toNat < 2 ^ i := Nat.lt_of_lt_of_le hlt (Nat.pow_le_pow_right (by omega) (by omega))
      have hzero : a.toNat.testBit i = false := Nat.testBit_lt_two_pow hbits
      simp [hi, hhigh, hzero]
  · simp [hi]

end Omiiba
