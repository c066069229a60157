/-
Tables kept dense by moving the last entry into the place of a removed one, as arrays with a
count do.
-/
import Mathlib.Data.List.Perm.Basic
import Mathlib.Tactic

namespace Omiiba

open scoped List

variable {α : Type*}

/-- Entry `i` replaced by the last entry, and the last place given up. -/
def swapRemove (l : List α) (i : Nat) : List α :=
  match l.getLast? with
  | none => l
  | some x => (l.set i x).dropLast

/-- Removing by swapping takes one entry out and keeps the others in some order. -/
theorem swapRemove_perm (xs : List α) (a : α) (ys : List α) :
    swapRemove (xs ++ a :: ys) xs.length ~ xs ++ ys := by
  rcases List.eq_nil_or_concat ys with rfl | ⟨zs, z, rfl⟩
  · unfold swapRemove
    simp
  · have hlast : (xs ++ a :: zs.concat z).getLast? = some z := by simp [List.getLast?_append, List.getLast?_cons]
    unfold swapRemove
    rw [hlast]
    have hset : (xs ++ a :: zs.concat z).set xs.length z = (xs ++ z :: zs) ++ [z] := by simp
    dsimp only
    rw [hset, List.dropLast_concat, List.concat_eq_append]
    exact List.Perm.append_left xs (List.perm_append_singleton z zs).symm

theorem swapRemove_perm_of_getElem {l : List α} {i : Nat} {a : α} (h : l[i]? = some a) :
    a :: swapRemove l i ~ l := by
  obtain ⟨hi, rfl⟩ := List.getElem?_eq_some_iff.1 h
  have hsplit : l = l.take i ++ l[i] :: l.drop (i + 1) := by simp
  have hlen : (l.take i).length = i := by simp [hi.le]
  have hperm := swapRemove_perm (l.take i) l[i] (l.drop (i + 1))
  rw [hlen, ← hsplit] at hperm
  calc l[i] :: swapRemove l i ~ l[i] :: (l.take i ++ l.drop (i + 1)) := hperm.cons _
    _ ~ l.take i ++ l[i] :: l.drop (i + 1) := List.perm_middle.symm
    _ = l := hsplit.symm

theorem swapRemove_length {l : List α} {i : Nat} {a : α} (h : l[i]? = some a) :
    (swapRemove l i).length + 1 = l.length := by
  rw [← (swapRemove_perm_of_getElem h).length_eq]; rfl

theorem swapRemove_getElem? (l : List α) (i j : Nat) (hj : j < l.length - 1) :
    (swapRemove l i)[j]? = if j = i then l[l.length - 1]? else l[j]? := by
  rcases List.eq_nil_or_concat' l with rfl | ⟨l, x, rfl⟩
  · exact absurd hj (Nat.not_lt_zero j)
  · have hlen : (l ++ [x]).length - 1 = l.length := by simp
    rw [hlen] at hj ⊢
    unfold swapRemove
    rw [List.getLast?_concat]
    dsimp only
    rw [List.getElem?_dropLast, List.length_set, hlen, if_pos hj, List.getElem?_set]
    by_cases hij : i = j
    · subst hij
      rw [if_pos rfl, if_pos rfl, if_pos (by simp; omega), List.getElem?_concat_length]
    · rw [if_neg hij, if_neg (Ne.symm hij)]

/-- The entries before the removed one stay where they are. -/
theorem swapRemove_take {l : List α} {i : Nat} {a : α} (h : l[i]? = some a) :
    (swapRemove l i).take i = l.take i := by
  obtain ⟨hi, -⟩ := List.getElem?_eq_some_iff.1 h
  unfold swapRemove
  rcases hl : l.getLast? with - | x
  · rfl
  · dsimp only
    rw [List.dropLast_eq_take, List.take_take, List.length_set, Nat.min_eq_left (by omega), List.take_set_of_le le_rfl]

end Omiiba
