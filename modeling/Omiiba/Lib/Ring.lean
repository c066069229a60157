/-
Ring buffers: the window of a buffer that starts at an index and wraps around after `n` places.
Writing behind the window appends to it, advancing its start takes its head off.
-/
import Mathlib.Data.Nat.ModEq
import Mathlib.Tactic

namespace Omiiba.Ring

variable {α : Type*}

/-- The `len` elements from `start` on. -/
def window (buf : Nat → α) (n start len : Nat) : List α := (List.range len).map fun i => buf ((start + i) % n)

@[simp] theorem window_length (buf : Nat → α) (n start len : Nat) : (window buf n start len).length = len := by
  simp [window]

@[simp] theorem window_zero (buf : Nat → α) (n start : Nat) : window buf n start 0 = [] := rfl

/-- Two places of a window that is not full are different. -/
theorem place_inj {n start i j : Nat} (hi : i < n) (hj : j < n) (h : (start + i) % n = (start + j) % n) : i = j := by
  have hmod : i ≡ j [MOD n] := Nat.ModEq.add_left_cancel' start h
  calc i = i % n := (Nat.mod_eq_of_lt hi).symm
    _ = j % n := hmod
    _ = j := Nat.mod_eq_of_lt hj

theorem window_push {buf : Nat → α} {n start len : Nat} (x : α) (h : len < n) :
    window (fun i => if i = (start + len) % n then x else buf i) n start (len + 1) = window buf n start len ++ [x] := by
  unfold window
  rw [List.range_succ, List.map_append]
  congr 1
  · refine List.map_congr_left fun i hi => ?_
    have hi := List.mem_range.1 hi
    exact if_neg fun he => hi.ne (place_inj (hi.trans h) h he)
  · simp

theorem window_pop (buf : Nat → α) (n start len : Nat) :
    window buf n start (len + 1) = buf (start % n) :: window buf n ((start + 1) % n) len := by
  unfold window
  rw [List.range_succ_eq_map, List.map_cons, List.map_map]
  congr 1
  refine List.map_congr_left fun i _ => ?_
  show buf ((start + (i + 1)) % n) = buf (((start + 1) % n + i) % n)
  rw [Nat.mod_add_mod, Nat.add_assoc, Nat.add_comm 1]

end Omiiba.Ring
