/-
Sets of small numbers as the bits of a machine word: their positions in order, and what is left of them when the lowest,
the highest or a part of them is taken away.
-/
import Mathlib.Tactic

namespace Omiiba.Bits

variable {w : Nat} {v v' : BitVec w} {b : Nat}

/-- The positions of the bits that are set, from the lowest on. -/
def positions (v : BitVec w) : List Nat := (List.range w).filter v.getLsbD

theorem mem_positions : b ∈ positions v ↔ v.getLsbD b = true := by
  unfold positions
  rw [List.mem_filter, List.mem_range]
  constructor
  · exact fun h => h.2
  · exact fun h => ⟨BitVec.lt_of_getLsbD h, h⟩

theorem nodup_positions (v : BitVec w) : (positions v).Nodup := List.Nodup.filter _ List.nodup_range

theorem find?_range_eq_head? (v : BitVec w) : (List.range w).find? v.getLsbD = (positions v).head? :=
  (List.head?_filter ..).symm

theorem find?_range_reverse_eq_getLast? (v : BitVec w) : (List.range w).reverse.find? v.getLsbD = (positions v).getLast? := by
  unfold positions
  rw [← List.head?_filter, List.filter_reverse, List.head?_reverse]

/-! ## Bits that are left -/

/-- The positions of the bits of a word that meet a condition. -/
theorem positions_eq_filter {p : Nat → Bool} (h : ∀ b, v'.getLsbD b = (v.getLsbD b && p b)) :
    positions v' = (positions v).filter p := by
  unfold positions
  rw [List.filter_filter]
  apply List.filter_congr
  intro b _
  rw [h b, Bool.and_comm]

/-- Without its highest bit. -/
theorem positions_of_last {init : List Nat} {last : Nat} (hv : positions v = init ++ [last])
    (h : ∀ b, v'.getLsbD b = (v.getLsbD b && decide (b ≠ last))) : positions v' = init := by
  have hnodup := nodup_positions v
  rw [hv, List.nodup_append] at hnodup
  rw [positions_eq_filter h, hv, List.filter_append]
  have hinit : init.filter (fun b => decide (b ≠ last)) = init := by
    apply List.filter_eq_self.mpr
    intro b hb
    exact decide_eq_true (hnodup.2.2 b hb last (List.mem_singleton_self _))
  rw [hinit]
  simp

/-- Without its lowest bit. -/
theorem positions_of_head {first : Nat} {rest : List Nat} (hv : positions v = first :: rest)
    (h : ∀ b, v'.getLsbD b = (v.getLsbD b && decide (b ≠ first))) : positions v' = rest := by
  have hnodup := nodup_positions v
  rw [hv, List.nodup_cons] at hnodup
  rw [positions_eq_filter h, hv, List.filter_cons_of_neg (by simp)]
  apply List.filter_eq_self.mpr
  intro b hb
  refine decide_eq_true fun heq => hnodup.1 ?_
  exact heq ▸ hb

/-- The bits that are taken away, when the lowest `n` are left. -/
theorem positions_of_taken {v'' : BitVec w} {n : Nat} (hv : positions v' = (positions v).take n)
    (h : ∀ b, v''.getLsbD b = (v.getLsbD b && !v'.getLsbD b)) : positions v'' = (positions v).drop n := by
  have hnodup := nodup_positions v
  rw [positions_eq_filter h]
  have hmem : ∀ b, v'.getLsbD b = decide (b ∈ (positions v).take n) := by
    intro b
    rw [← hv]
    apply Bool.eq_iff_iff.mpr
    simp [mem_positions]
  rw [← List.take_append_drop n (positions v), List.nodup_append] at hnodup
  conv_lhs => rw [← List.take_append_drop n (positions v), List.filter_append]
  have htaken : ((positions v).take n).filter (fun b => !v'.getLsbD b) = [] := by
    apply List.filter_eq_nil_iff.mpr
    intro b hb
    simp [hmem, hb]
  have hleft : ((positions v).drop n).filter (fun b => !v'.getLsbD b) = (positions v).drop n := by
    apply List.filter_eq_self.mpr
    intro b hb
    have hnot : b ∉ (positions v).take n := fun htake => hnodup.2.2 b htake b hb rfl
    simp [hmem, hnot]
  rw [htaken, hleft, List.nil_append]

/-! ## Bits as numbers -/

/-- The bit of a position, as a number. -/
def bit (v : BitVec w) (b : Nat) : Nat := (v.getLsbD b).toNat

theorem bit_le_one (v : BitVec w) (b : Nat) : bit v b ≤ 1 := Bool.toNat_le _

theorem bit_eq_one_iff : bit v b = 1 ↔ v.getLsbD b = true := by
  unfold bit
  cases v.getLsbD b <;> decide

/-- Words that are taken from one another give its bits back. -/
theorem bit_or_of_disjoint (h : ¬ (v.getLsbD b = true ∧ v'.getLsbD b = true)) : bit (v ||| v') b = bit v b + bit v' b := by
  unfold bit
  rw [BitVec.getLsbD_or]
  cases hv : v.getLsbD b <;> cases hv' : v'.getLsbD b <;> simp_all

theorem bit_sub {v'' : BitVec w} (hle : v'.getLsbD b = true → v.getLsbD b = true)
    (h : v''.getLsbD b = (v.getLsbD b && !v'.getLsbD b)) : bit v b = bit v' b + bit v'' b := by
  unfold bit
  rw [h]
  cases hv : v.getLsbD b <;> cases hv' : v'.getLsbD b <;> simp_all

theorem length_filter_range (p : Nat → Bool) (n : Nat) :
    ((List.range n).filter p).length = ∑ b ∈ Finset.range n, (p b).toNat := by
  induction n with
  | zero => rfl
  | succ n ih =>
    rw [List.range_succ, List.filter_append, List.length_append, ih, Finset.sum_range_succ]
    cases hp : p n <;> simp [hp]

/-- There are as many positions as bits. -/
theorem length_positions (v : BitVec w) : (positions v).length = ∑ b ∈ Finset.range w, bit v b :=
  length_filter_range v.getLsbD w

/-! ## Masks -/

theorem or_and (x y z : UInt8) : (x ||| y) &&& z = x &&& z ||| y &&& z :=
  UInt8.toBitVec_inj.mp BitVec.and_or_distrib_right

theorem xor_and (x y z : UInt32) : (x ^^^ y) &&& z = (x &&& z) ^^^ (y &&& z) := by
  apply UInt32.toNat_inj.mp
  rw [UInt32.toNat_and, UInt32.toNat_xor, UInt32.toNat_xor, UInt32.toNat_and, UInt32.toNat_and, Nat.and_xor_distrib_right]

end Omiiba.Bits
