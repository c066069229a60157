/-
Blocks of a fixed width copied one by one, where the places they are taken from and those they are put to are evenly spaced.
-/
import Omiiba.Lib.Writes

namespace Omiiba.Memory

variable {α : Type*}

/-- `n` blocks of `src`, `srcStep` apart from one another, put `dstStep` apart from one another into `dst`. -/
def copyStrided (width dstStep srcStep n : Nat) (src dst : Memory α) : Memory α :=
  (List.range n).foldl (fun dst i => dst.store (dstStep * i) (src.read (srcStep * i) width)) dst

/-- A block that has been copied. -/
theorem store_read (m m' : Memory α) (a b : Nat) {n k : Nat} (hk : k < n) : m.store a (m'.read b n) (a + k) = m' (b + k) := by
  rw [store_inside _ (Nat.le_add_right a k) (by rw [read_length]; omega)]
  simp [read]

theorem read_eq_replicate {m : Memory α} {a n : Nat} {v : α} (h : ∀ x, a ≤ x → x < a + n → m x = v) :
    m.read a n = List.replicate n v := by
  have hconst : m.read a n = read (fun _ => v) a n := read_congr h
  rw [hconst]
  simp [read]

variable {width dstStep srcStep n : Nat} (src dst : Memory α)

theorem copyStrided_succ : copyStrided width dstStep srcStep (n + 1) src dst =
    (copyStrided width dstStep srcStep n src dst).store (dstStep * n) (src.read (srcStep * n) width) := by
  unfold copyStrided
  rw [List.range_succ, List.foldl_append]
  rfl

/-- Blocks that do not overlap are all there. -/
theorem copyStrided_block (hstep : width ≤ dstStep) {i k : Nat} (hi : i < n) (hk : k < width) :
    copyStrided width dstStep srcStep n src dst (dstStep * i + k) = src (srcStep * i + k) := by
  induction n with
  | zero => exact absurd hi (Nat.not_lt_zero i)
  | succ n ih =>
    rw [copyStrided_succ]
    rcases Nat.lt_succ_iff_lt_or_eq.mp hi with hlt | rfl
    · -- an earlier block ends before the last one begins
      have hbefore : dstStep * i + dstStep ≤ dstStep * n := by
        rw [← Nat.mul_succ]
        exact Nat.mul_le_mul_left dstStep hlt
      rw [store_outside _ (.inl (by omega)), ih hlt]
    · exact store_read _ _ _ _ hk

/-- Blocks that are spread out and gathered again are where they were. -/
theorem copyStrided_gather {stride : Nat} (hstride : width ≤ stride) (hpos : 0 < width) (fcram : Memory α) {x : Nat}
    (hx : x < width * n) :
    copyStrided width width stride n (copyStrided width stride width n src fcram) dst x = src x := by
  have hi : x / width < n := Nat.div_lt_of_lt_mul hx
  have hk : x % width < width := Nat.mod_lt x hpos
  have hplace : x = width * (x / width) + x % width := (Nat.div_add_mod x width).symm
  rw [hplace, copyStrided_block _ _ le_rfl hi hk, copyStrided_block _ _ hstride hi hk]

end Omiiba.Memory
