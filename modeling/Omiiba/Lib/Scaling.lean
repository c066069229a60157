/-
Counts that are turned from one unit into another by a product in a machine word and a division: what the division
rounds off, and how much is missing where the product wraps.
-/
import Mathlib.Tactic

namespace Omiiba.Scaling

variable {word num den n : Nat}

/-- `n` times `num / den`, with the product in a word. -/
def scaled (word num den n : Nat) : Nat := num * n % word / den

/-- What the division adds to `n` times `num / den`. -/
def rounding (num den n : Nat) : ℚ := (num * n / den : ℕ) - (num : ℚ) * n / den

theorem rounding_range (hden : 0 < den) : -1 < rounding num den n ∧ rounding num den n ≤ 0 := by
  have hposQ : (0 : ℚ) < den := by exact_mod_cast hden
  have hsplit : ((num * n / den : ℕ) : ℚ) * den + ((num * n % den : ℕ) : ℚ) = (num : ℚ) * n := by
    exact_mod_cast Nat.div_add_mod' (num * n) den
  have hmod : ((num * n % den : ℕ) : ℚ) < den := by exact_mod_cast Nat.mod_lt _ hden
  have hmod0 : (0 : ℚ) ≤ ((num * n % den : ℕ) : ℚ) := Nat.cast_nonneg _
  have heq : rounding num den n = -(((num * n % den : ℕ) : ℚ) / den) := by
    unfold rounding
    field_simp
    linarith
  rw [heq]
  have hlt : ((num * n % den : ℕ) : ℚ) / den < 1 := (div_lt_one hposQ).mpr hmod
  have hnonneg := div_nonneg hmod0 hposQ.le
  constructor <;> linarith

theorem scaled_eq (h : num * n < word) : scaled word num den n = num * n / den := by
  rw [scaled, Nat.mod_eq_of_lt h]

theorem scaled_le : scaled word num den n ≤ num * n / den := Nat.div_le_div_right (Nat.mod_le _ _)

/-- A product that wraps is short by a whole word at least. -/
theorem scaled_add_le (h : word ≤ num * n) : scaled word num den n + word / den ≤ num * n / den := by
  have hwrap : num * n % word + word ≤ num * n := by
    have hmod : num * n % word = (num * n - word) % word := Nat.mod_eq_sub_mod h
    have hle := Nat.mod_le (num * n - word) word
    omega
  calc num * n % word / den + word / den ≤ (num * n % word + word) / den := Nat.div_add_div_le_add_div
    _ ≤ num * n / den := Nat.div_le_div_right hwrap

end Omiiba.Scaling
