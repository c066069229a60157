/-
The first place where a pattern occurs, and how far a search may go on from a place where it does not.
-/
import Mathlib.Order.Bounds.Basic
import Mathlib.Data.List.Basic

namespace Omiiba

variable {α : Type*} {hay pattern : Nat → α} {n size p : Nat}

/-- The `n` elements of the pattern are at a place. -/
def Occurs (hay pattern : Nat → α) (n p : Nat) : Prop := ∀ k < n, hay (p + k) = pattern k

instance [DecidableEq α] : Decidable (Occurs hay pattern n p) := by
  unfold Occurs
  exact inferInstance

/-- The first place where the pattern occurs inside of the first `size` elements; none where it does not. -/
def IsFirst (hay pattern : Nat → α) (n size : Nat) : Option Nat → Prop
  | some p => IsLeast {q | q + n ≤ size ∧ Occurs hay pattern n q} p
  | none => ∀ q, q + n ≤ size → ¬Occurs hay pattern n q

/-- The places before `p` have been looked at, and the pattern occurs at none of them. -/
def Scanned (hay pattern : Nat → α) (n p : Nat) : Prop := ∀ q < p, ¬Occurs hay pattern n q

/-- A distance that is not longer than from any `c` in the pattern, its last element apart, to the end. -/
structure SafeShift (pattern : Nat → α) (n : Nat) (c : α) (s : Nat) : Prop where
  le : s ≤ n
  near : ∀ i, i + 1 < n → pattern i = c → s + i + 1 ≤ n

theorem scanned_zero : Scanned hay pattern n 0 := fun q hq => absurd hq (Nat.not_lt_zero q)

/-- The last element under the pattern says how far the pattern cannot occur. -/
theorem Scanned.shift {s : Nat} (h : Scanned hay pattern n p) (hp : ¬Occurs hay pattern n p)
    (hs : SafeShift pattern n (hay (p + (n - 1))) s) : Scanned hay pattern n (p + s) := by
  intro q hq hoccurs
  rcases Nat.lt_trichotomy q p with hlt | rfl | hgt
  · exact h q hlt hoccurs
  · exact hp hoccurs
  · have hle := hs.le
    -- the element of the pattern that comes to lie on the last one
    have hlast := hoccurs (n - 1 - (q - p)) (by omega)
    rw [show q + (n - 1 - (q - p)) = p + (n - 1) by omega] at hlast
    have hnear := hs.near (n - 1 - (q - p)) (by omega) hlast.symm
    omega

theorem Scanned.isFirst_some (h : Scanned hay pattern n p) (hp : Occurs hay pattern n p) (hle : p + n ≤ size) :
    IsFirst hay pattern n size (some p) :=
  ⟨⟨hle, hp⟩, fun q hq => Nat.not_lt.mp fun hlt => h q hlt hq.2⟩

theorem Scanned.isFirst_none (h : Scanned hay pattern n p) (hle : size < p + n) : IsFirst hay pattern n size none :=
  fun q hq => h q (by omega)

/-- The elements behind the pattern do not count. -/
theorem IsFirst.congr {pattern' : Nat → α} {r : Option Nat} (h : IsFirst hay pattern n size r)
    (heq : ∀ k < n, pattern' k = pattern k) : IsFirst hay pattern' n size r := by
  have hoccurs (q : Nat) : Occurs hay pattern' n q ↔ Occurs hay pattern n q :=
    forall_congr' fun k => imp_congr_right fun hk => by rw [heq k hk]
  cases r with
  | none => exact fun q hq hpattern => h q hq ((hoccurs q).mp hpattern)
  | some p => exact ⟨⟨h.1.1, (hoccurs p).mpr h.1.2⟩, fun q hq => h.2 ⟨hq.1, (hoccurs q).mp hq.2⟩⟩

/-- Nor do the elements behind those that are searched. -/
theorem IsFirst.congr_hay {hay' : Nat → α} {r : Option Nat} (h : IsFirst hay pattern n size r)
    (heq : ∀ k < size, hay' k = hay k) : IsFirst hay' pattern n size r := by
  have hoccurs {q : Nat} (hq : q + n ≤ size) : Occurs hay' pattern n q ↔ Occurs hay pattern n q :=
    forall_congr' fun k => imp_congr_right fun hk => by rw [heq (q + k) (by omega)]
  cases r with
  | none => exact fun q hq hpattern => h q hq ((hoccurs hq).mp hpattern)
  | some p => exact ⟨⟨h.1.1, (hoccurs h.1.1).mpr h.1.2⟩, fun q hq => h.2 ⟨hq.1, (hoccurs hq.1).mp hq.2⟩⟩

theorem IsFirst.unique {r r' : Option Nat} (h : IsFirst hay pattern n size r) (h' : IsFirst hay pattern n size r') : r = r' := by
  rcases r with _ | p <;> rcases r' with _ | q
  · rfl
  · exact absurd h'.1.2 (h q h'.1.1)
  · exact absurd h.1.2 (h' p h.1.1)
  · rw [IsLeast.unique h h']

end Omiiba
