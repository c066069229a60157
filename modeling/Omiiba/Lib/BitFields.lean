/-
Bit fields of machine words, read and written as a unit, and words of a memory that are rewritten one by one.
-/
import Mathlib.Tactic

namespace Omiiba.BitFields

/-! ## Fields -/

section Fields

variable {n lo width lo' width' : Nat} {x : BitVec n} {v : BitVec width}

/-- The word with `v` in the bits from `lo` on. -/
def setField (lo : Nat) (v : BitVec width) (x : BitVec n) : BitVec n :=
  (x &&& ~~~((BitVec.allOnes width).setWidth n <<< lo)) ||| (v.setWidth n <<< lo)

theorem getLsbD_setField (h : lo + width ≤ n) (i : Nat) : (setField lo v x).getLsbD i =
    if lo ≤ i ∧ i < lo + width then v.getLsbD (i - lo) else x.getLsbD i := by
  unfold setField
  simp only [BitVec.getLsbD_or, BitVec.getLsbD_and, BitVec.getLsbD_not, BitVec.getLsbD_shiftLeft, BitVec.getLsbD_setWidth,
    BitVec.getLsbD_allOnes]
  by_cases hfield : lo ≤ i ∧ i < lo + width
  · have hi : i < n := by omega
    have hsub : i - lo < width := by omega
    have hsub' : i - lo < n := by omega
    rw [if_pos hfield]
    simp [hi, hsub, hsub', Nat.not_lt.mpr hfield.1]
  · rw [if_neg hfield]
    -- outside the field there is neither a bit of the mask nor one of the value
    by_cases hlt : i < lo
    · by_cases hi : i < n
      · simp [hi, hlt]
      · simp [hi, hlt, BitVec.getLsbD_of_ge x i (by omega)]
    · have hv : v.getLsbD (i - lo) = false := BitVec.getLsbD_of_ge v _ (by omega)
      have hsub : ¬i - lo < width := by omega
      by_cases hi : i < n
      · simp [hi, hv, hsub]
      · simp [hi, BitVec.getLsbD_of_ge x i (by omega)]

theorem field_setField (h : lo + width ≤ n) : (setField lo v x).extractLsb' lo width = v := by
  refine BitVec.eq_of_getLsbD_eq fun i hi => ?_
  rw [BitVec.getLsbD_extractLsb', getLsbD_setField h, if_pos (by omega)]
  simp [hi]

/-- Other fields keep what they hold. -/
theorem field_setField_of_disjoint (h : lo + width ≤ n) (hdisjoint : lo' + width' ≤ lo ∨ lo + width ≤ lo') :
    (setField lo v x).extractLsb' lo' width' = x.extractLsb' lo' width' := by
  refine BitVec.eq_of_getLsbD_eq fun i hi => ?_
  rw [BitVec.getLsbD_extractLsb', BitVec.getLsbD_extractLsb', getLsbD_setField h, if_neg (by omega)]

/-- Writing what the field holds changes nothing. -/
theorem setField_eq_self (h : lo + width ≤ n) (hv : x.extractLsb' lo width = v) : setField lo v x = x := by
  refine BitVec.eq_of_getLsbD_eq fun i hi => ?_
  rw [getLsbD_setField h]
  split_ifs with hfield
  · subst hv
    have hsub : i - lo < width := by omega
    rw [BitVec.getLsbD_extractLsb', Nat.add_sub_cancel' hfield.1]
    simp [hsub]
  · rfl

end Fields

/-! ## Rewriting -/

section Rewriting

variable {κ α : Type*} [DecidableEq κ] {f : α → α}

/-- The words at the addresses, each replaced by what `f` makes of it. -/
def rewriteAll (f : α → α) (as : List κ) (m : κ → α) : κ → α := as.foldl (fun m a => Function.update m a (f (m a))) m

/-- If `f` changes nothing the second time, an address may come more than once. -/
theorem rewriteAll_apply (hf : ∀ v, f (f v) = f v) (as : List κ) (m : κ → α) (a : κ) :
    rewriteAll f as m a = if a ∈ as then f (m a) else m a := by
  induction as generalizing m with
  | nil => rfl
  | cons b as ih =>
    show rewriteAll f as (Function.update m b (f (m b))) a = _
    rw [ih]
    by_cases hab : a = b
    · subst hab
      simp [hf]
    · simp [hab]

end Rewriting

end Omiiba.BitFields
