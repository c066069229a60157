/-
Periods of different lengths that follow one another, such as the months of a year: in which one a moment is, and
how far inside it.
-/
import Mathlib.Tactic

namespace Omiiba.Periods

variable {len : Nat → Nat}

/-- The length of the periods from `start` on that are before period `k`. -/
def before (len : Nat → Nat) (start k : Nat) : Nat := ((List.range' start (k - start)).map len).sum

/-- `t` after the beginning of period `start` it is period `k`, of which `rest` is over. -/
structure At (len : Nat → Nat) (start t k rest : Nat) : Prop where
  from_start : start ≤ k
  total : t = before len start k + rest
  inside : rest < len k

@[simp] theorem before_self (len : Nat → Nat) (k : Nat) : before len k k = 0 := by simp [before]

theorem before_add {start mid k : Nat} (h : start ≤ mid) (h' : mid ≤ k) :
    before len start mid + before len mid k = before len start k := by
  have hcount : k - start = (mid - start) + (k - mid) := by omega
  have hmid : start + (mid - start) = mid := by omega
  rw [before, before, before, hcount, ← List.range'_append_1, hmid, List.map_append, List.sum_append]

theorem before_one (len : Nat → Nat) (k : Nat) : before len k (k + 1) = len k := by
  simp [before]

theorem before_succ {start k : Nat} (h : start ≤ k) : before len start (k + 1) = before len start k + len k := by
  rw [← before_add h (Nat.le_succ k), before_one]

theorem before_head {start k : Nat} (h : start < k) : before len start k = len start + before len (start + 1) k := by
  rw [← before_add (Nat.le_succ start) h, before_one]

theorem before_mono {start k k' : Nat} (h : k ≤ k') : before len start k ≤ before len start k' := by
  rcases Nat.le_total start k with hle | hle
  · rw [← before_add hle h]
    exact Nat.le_add_right _ _
  · rw [before, Nat.sub_eq_zero_of_le hle]
    simp

/-- The first period, or one behind it. -/
theorem At.here {start t : Nat} (h : t < len start) : At len start t start t := ⟨le_rfl, by simp, h⟩

theorem At.next {start t k rest : Nat} (hle : len start ≤ t) (h : At len (start + 1) (t - len start) k rest) :
    At len start t k rest := by
  have hstart := h.from_start
  refine ⟨by omega, ?_, h.inside⟩
  rw [before_head (by omega)]
  have htotal := h.total
  omega

/-- What is over of a later period is beyond all of an earlier one. -/
theorem At.le_of_lt {start t t' k k' rest rest' : Nat} (h : At len start t k rest) (h' : At len start t' k' rest')
    (hlt : k < k') : t < t' := by
  have hmono := @before_mono len start _ _ (Nat.succ_le_of_lt hlt)
  rw [before_succ h.from_start] at hmono
  have htotal := h.total
  have htotal' := h'.total
  have hinside := h.inside
  omega

/-- A moment is in one period, at one place. -/
theorem At.unique {start t k k' rest rest' : Nat} (h : At len start t k rest) (h' : At len start t k' rest') :
    k = k' ∧ rest = rest' := by
  rcases Nat.lt_trichotomy k k' with hlt | rfl | hlt
  · exact absurd (h.le_of_lt h' hlt) (Nat.lt_irrefl t)
  · have htotal := h.total
    have htotal' := h'.total
    exact ⟨rfl, by omega⟩
  · exact absurd (h'.le_of_lt h hlt) (Nat.lt_irrefl t)

end Omiiba.Periods
