/-
Arrays of which the first entries are in use: the loops that make room for an entry and that close the
gap of one, and tables sorted by a key that are kept in such arrays.
-/
import Mathlib.Tactic

namespace Omiiba.Slots

variable {α κ : Type*}

/-! ## Loops -/

/-- From slot `n` down to the one behind `id`, every slot takes the entry before it. -/
def shiftUp (id : Nat) : Nat → (Nat → α) → Nat → α
  | 0, s => s
  | n + 1, s => if id < n + 1 then shiftUp id n (Function.update s (n + 1) (s n)) else s

/-- From slot `id` on, `count` slots take the entry behind them. -/
def shiftDown : Nat → Nat → (Nat → α) → Nat → α
  | 0, _, s => s
  | count + 1, id, s => shiftDown count (id + 1) (Function.update s id (s (id + 1)))

theorem shiftUp_apply (id : Nat) : ∀ (n : Nat) (s : Nat → α) (j : Nat),
    shiftUp id n s j = if id < j ∧ j ≤ n then s (j - 1) else s j := by
  intro n
  induction n with
  | zero =>
    intro s j
    rw [if_neg (by omega)]
    rfl
  | succ n ih =>
    intro s j
    unfold shiftUp
    by_cases hid : id < n + 1
    · rw [if_pos hid, ih]
      by_cases hj : j = n + 1
      · subst hj
        rw [if_neg (by omega), if_pos (by omega), Function.update_self]
        rfl
      · by_cases hrange : id < j ∧ j ≤ n
        · rw [if_pos hrange, if_pos (by omega), Function.update_of_ne (by omega)]
        · rw [if_neg hrange, if_neg (by omega), Function.update_of_ne hj]
    · rw [if_neg hid, if_neg (by omega)]

theorem shiftDown_apply : ∀ (count id : Nat) (s : Nat → α) (j : Nat),
    shiftDown count id s j = if id ≤ j ∧ j < id + count then s (j + 1) else s j := by
  intro count
  induction count with
  | zero =>
    intro id s j
    rw [if_neg (by omega)]
    rfl
  | succ count ih =>
    intro id s j
    unfold shiftDown
    rw [ih]
    by_cases hj : j = id
    · subst hj
      rw [if_neg (by omega), if_pos (by omega), Function.update_self]
    · by_cases hrange : id + 1 ≤ j ∧ j < id + 1 + count
      · rw [if_pos hrange, if_pos (by omega), Function.update_of_ne (by omega)]
      · rw [if_neg hrange, if_neg (by omega), Function.update_of_ne hj]

/-! ## Sorted tables -/

section

variable [LinearOrder κ] (key : α → κ)

/-- The first `n` entries have increasing keys. -/
def Sorted (n : Nat) (s : Nat → α) : Prop := ∀ i j, i < j → j < n → key (s i) < key (s j)

/-- The slot of a key: the entries before it have smaller keys, those from it on have not. -/
structure IsSlot (n : Nat) (s : Nat → α) (k : κ) (id : Nat) : Prop where
  le : id ≤ n
  below : ∀ i, i < id → key (s i) < k
  above : ∀ i, id ≤ i → i < n → k ≤ key (s i)

variable {key} {n : Nat} {s : Nat → α}

theorem Sorted.le (h : Sorted key n s) {i j : Nat} (hij : i ≤ j) (hj : j < n) : key (s i) ≤ key (s j) := by
  rcases Nat.lt_or_eq_of_le hij with hlt | rfl
  · exact le_of_lt (h i j hlt hj)
  · exact le_rfl

/-- A key is in a sorted table exactly if it is at its slot. -/
theorem IsSlot.mem_iff (hs : Sorted key n s) {k : κ} {id : Nat} (h : IsSlot key n s k id) :
    (∃ i < n, key (s i) = k) ↔ id < n ∧ key (s id) = k := by
  constructor
  · rintro ⟨i, hi, rfl⟩
    have hge : id ≤ i := by
      by_contra hlt
      exact lt_irrefl _ (h.below i (by omega))
    rcases Nat.lt_or_eq_of_le hge with hlt | rfl
    · exact absurd (hs id i hlt hi) (not_lt_of_ge (h.above id le_rfl (by omega)))
    · exact ⟨hi, rfl⟩
  · rintro ⟨hlt, heq⟩
    exact ⟨id, hlt, heq⟩

/-! ## Search -/

/-- Halving a part of the table, between an entry with a smaller key and one with a key that is not. -/
def search (key : α → κ) (s : Nat → α) (k : κ) : Nat → Nat → Nat → Nat
  | 0, _, b => b
  | fuel + 1, a, b =>
    let m := (a + b) / 2
    if key (s m) < k then if b - m > 1 then search key s k fuel m b else b
    else if key (s m) > k then if m - a > 1 then search key s k fuel a m else m
    else m

/-- The slot of a key, looked for at both ends first. -/
def closestSlot (key : α → κ) (n : Nat) (s : Nat → α) (k : κ) : Nat :=
  if n = 0 ∨ k ≤ key (s 0) then 0 else if k > key (s (n - 1)) then n else search key s k n 0 (n - 1)

theorem Sorted.isSlot_succ (hs : Sorted key n s) {i : Nat} {k : κ} (hi : i + 1 < n) (hbelow : key (s i) < k)
    (habove : k ≤ key (s (i + 1))) : IsSlot key n s k (i + 1) := by
  constructor
  · omega
  · exact fun j hj => lt_of_le_of_lt (hs.le (by omega) (by omega)) hbelow
  · exact fun j hj hjn => le_trans habove (hs.le hj hjn)

theorem Sorted.search (hs : Sorted key n s) {k : κ} (fuel : Nat) : ∀ {a b : Nat}, a < b → b < n → key (s a) < k →
    k ≤ key (s b) → b - a ≤ fuel → IsSlot key n s k (search key s k fuel a b) := by
  induction fuel with
  | zero =>
    intro a b hab _ _ _ hfuel
    omega
  | succ fuel ih =>
    intro a b hab hb hbelow habove hfuel
    unfold Slots.search
    obtain ⟨m, hm⟩ : ∃ m, m = (a + b) / 2 := ⟨_, rfl⟩
    rw [← hm]
    dsimp only
    by_cases hless : key (s m) < k
    · rw [if_pos hless]
      by_cases hfar : b - m > 1
      · rw [if_pos hfar]
        exact ih (by omega) hb hless habove (by omega)
      · rw [if_neg hfar]
        obtain rfl : b = m + 1 := by omega
        exact hs.isSlot_succ hb hless habove
    · have hge : k ≤ key (s m) := le_of_not_gt hless
      rw [if_neg hless]
      by_cases hmore : key (s m) > k
      · rw [if_pos hmore]
        have hne : a ≠ m := by
          rintro rfl
          exact hless hbelow
        by_cases hfar : m - a > 1
        · rw [if_pos hfar]
          exact ih (by omega) (by omega) hbelow hge (by omega)
        · rw [if_neg hfar]
          obtain rfl : m = a + 1 := by omega
          exact hs.isSlot_succ (by omega) hbelow hge
      · rw [if_neg hmore]
        constructor
        · omega
        · exact fun j hj => lt_of_lt_of_le (hs j m hj (by omega)) (le_of_not_gt hmore)
        · exact fun j hj hjn => le_trans hge (hs.le hj hjn)

/-- The slot that is found is the slot of the key. -/
theorem Sorted.closestSlot (hs : Sorted key n s) (k : κ) : IsSlot key n s k (closestSlot key n s k) := by
  unfold Slots.closestSlot
  split_ifs with hfirst hlast
  · constructor
    · exact Nat.zero_le _
    · exact fun i hi => absurd hi (Nat.not_lt_zero i)
    · intro i _ hi
      rcases hfirst with hnone | hle
      · omega
      · exact le_trans hle (hs.le (Nat.zero_le i) hi)
  · constructor
    · exact le_rfl
    · exact fun i hi => lt_of_le_of_lt (hs.le (by omega) (by omega)) hlast
    · exact fun i hi hin => absurd hin (by omega)
  · push Not at hfirst
    obtain ⟨hsome, hbelow⟩ := hfirst
    have habove : k ≤ key (s (n - 1)) := le_of_not_gt hlast
    have htwo : 0 < n - 1 := by
      by_contra hone
      rw [show n - 1 = 0 by omega] at habove
      exact absurd hbelow (not_lt_of_ge habove)
    exact hs.search n htwo (by omega) hbelow habove (by omega)

/-! ## Insertion and removal -/

/-- The entry `e` in slot `id`, with those from there on one slot further. -/
def insert (n id : Nat) (e : α) (s : Nat → α) : Nat → α := Function.update (shiftUp id n s) id e

theorem insert_self (n id : Nat) (e : α) (s : Nat → α) : insert n id e s id = e := Function.update_self ..

theorem insert_below {id i : Nat} (n : Nat) (e : α) (s : Nat → α) (h : i < id) : insert n id e s i = s i := by
  unfold insert
  rw [Function.update_of_ne (by omega), shiftUp_apply, if_neg (by omega)]

theorem insert_above {id i n : Nat} (e : α) (s : Nat → α) (h : id ≤ i) (hn : i < n) : insert n id e s (i + 1) = s i := by
  unfold insert
  rw [Function.update_of_ne (by omega), shiftUp_apply, if_pos (by omega)]
  rfl

theorem insert_beyond {id i n : Nat} (e : α) (s : Nat → α) (hid : id ≤ n) (h : n < i) : insert n id e s i = s i := by
  unfold insert
  rw [Function.update_of_ne (by omega), shiftUp_apply, if_neg (by omega)]

/-- Every slot of a table after an insertion is an old one, or the new entry's. -/
theorem insert_cases {id j n : Nat} (e : α) (s : Nat → α) (hid : id ≤ n) (hj : j < n + 1) :
    (j < id ∧ insert n id e s j = s j) ∨ (j = id ∧ insert n id e s j = e) ∨
      ∃ i, j = i + 1 ∧ id ≤ i ∧ i < n ∧ insert n id e s j = s i := by
  rcases Nat.lt_trichotomy j id with hlt | rfl | hgt
  · exact Or.inl ⟨hlt, insert_below n e s hlt⟩
  · exact Or.inr (Or.inl ⟨rfl, insert_self n j e s⟩)
  · obtain ⟨i, rfl⟩ : ∃ i, j = i + 1 := ⟨j - 1, by omega⟩
    exact Or.inr (Or.inr ⟨i, rfl, by omega, by omega, insert_above e s (by omega) (by omega)⟩)

theorem Sorted.insert (hs : Sorted key n s) {e : α} {id : Nat} (h : IsSlot key n s (key e) id)
    (hnew : ¬∃ i < n, key (s i) = key e) : Sorted key (n + 1) (insert n id e s) := by
  have habove (i : Nat) (hid : id ≤ i) (hi : i < n) : key e < key (s i) :=
    lt_of_le_of_ne (h.above i hid hi) fun heq => hnew ⟨i, hi, heq.symm⟩
  intro i j hij hj
  rcases insert_cases e s h.le (by omega : i < n + 1) with ⟨hi, hvi⟩ | ⟨rfl, hvi⟩ | ⟨i', rfl, hi, hin, hvi⟩
  · rcases insert_cases e s h.le hj with ⟨hj', hvj⟩ | ⟨rfl, hvj⟩ | ⟨j', rfl, hj', hjn, hvj⟩
    · rw [hvi, hvj]
      exact hs i j hij (by have := h.le; omega)
    · rw [hvi, hvj]
      exact h.below i hi
    · rw [hvi, hvj]
      exact lt_trans (h.below i hi) (habove j' hj' hjn)
  · rcases insert_cases e s h.le hj with ⟨hj', hvj⟩ | ⟨rfl, hvj⟩ | ⟨j', rfl, hj', hjn, hvj⟩
    · omega
    · omega
    · rw [hvi, hvj]
      exact habove j' hj' hjn
  · rcases insert_cases e s h.le hj with ⟨hj', hvj⟩ | ⟨rfl, hvj⟩ | ⟨j', rfl, hj', hjn, hvj⟩
    · omega
    · omega
    · rw [hvi, hvj]
      exact hs i' j' (by omega) hjn

theorem insert_mem (e : α) (s : Nat → α) {id : Nat} (hid : id ≤ n) (p : α → Prop) :
    (∃ j < n + 1, p (insert n id e s j)) ↔ p e ∨ ∃ i < n, p (s i) := by
  constructor
  · rintro ⟨j, hj, hp⟩
    rcases insert_cases e s hid hj with ⟨hlt, hv⟩ | ⟨-, hv⟩ | ⟨i, -, -, hin, hv⟩
    · exact Or.inr ⟨j, by omega, hv ▸ hp⟩
    · exact Or.inl (hv ▸ hp)
    · exact Or.inr ⟨i, hin, hv ▸ hp⟩
  · rintro (hp | ⟨i, hi, hp⟩)
    · exact ⟨id, by omega, (insert_self n id e s).symm ▸ hp⟩
    · rcases Nat.lt_or_ge i id with hlt | hge
      · exact ⟨i, by omega, (insert_below n e s hlt).symm ▸ hp⟩
      · exact ⟨i + 1, by omega, (insert_above e s hge hi).symm ▸ hp⟩

/-- The entries without the one in slot `id`; the last slot gets `zero`. -/
def erase (n id : Nat) (zero : α) (s : Nat → α) : Nat → α :=
  Function.update (shiftDown (n - 1 - id) id s) (n - 1) zero

theorem erase_below {id i : Nat} (zero : α) (s : Nat → α) (hid : id < n) (h : i < id) : erase n id zero s i = s i := by
  unfold erase
  rw [Function.update_of_ne (by omega), shiftDown_apply, if_neg (by omega)]

theorem erase_above {id i : Nat} (zero : α) (s : Nat → α) (h : id ≤ i) (hi : i < n - 1) :
    erase n id zero s i = s (i + 1) := by
  unfold erase
  rw [Function.update_of_ne (by omega), shiftDown_apply, if_pos (by omega)]

theorem erase_last (id : Nat) (zero : α) (s : Nat → α) : erase n id zero s (n - 1) = zero := Function.update_self ..

theorem erase_beyond {id i : Nat} (zero : α) (s : Nat → α) (hid : id < n) (h : n ≤ i) : erase n id zero s i = s i := by
  unfold erase
  rw [Function.update_of_ne (by omega), shiftDown_apply, if_neg (by omega)]

/-- Every slot of a table after a removal is an old one, not the one removed. -/
theorem erase_cases {id j : Nat} (zero : α) (s : Nat → α) (hid : id < n) (hj : j < n - 1) :
    (j < id ∧ erase n id zero s j = s j) ∨ (id ≤ j ∧ erase n id zero s j = s (j + 1)) := by
  rcases Nat.lt_or_ge j id with hlt | hge
  · exact Or.inl ⟨hlt, erase_below zero s hid hlt⟩
  · exact Or.inr ⟨hge, erase_above zero s hge hj⟩

theorem Sorted.erase (hs : Sorted key n s) {id : Nat} (hid : id < n) (zero : α) :
    Sorted key (n - 1) (erase n id zero s) := by
  intro i j hij hj
  rcases erase_cases zero s hid (by omega : i < n - 1) with ⟨hi, hvi⟩ | ⟨hi, hvi⟩
  · rcases erase_cases zero s hid hj with ⟨hj', hvj⟩ | ⟨hj', hvj⟩
    · rw [hvi, hvj]
      exact hs i j hij (by omega)
    · rw [hvi, hvj]
      exact hs i (j + 1) (by omega) (by omega)
  · rcases erase_cases zero s hid hj with ⟨hj', hvj⟩ | ⟨hj', hvj⟩
    · omega
    · rw [hvi, hvj]
      exact hs (i + 1) (j + 1) (by omega) (by omega)

theorem erase_mem (zero : α) (s : Nat → α) {id : Nat} (hid : id < n) (p : α → Prop) :
    (∃ j < n - 1, p (erase n id zero s j)) ↔ ∃ i < n, i ≠ id ∧ p (s i) := by
  constructor
  · rintro ⟨j, hj, hp⟩
    rcases erase_cases zero s hid hj with ⟨hlt, hv⟩ | ⟨hge, hv⟩
    · exact ⟨j, by omega, by omega, hv ▸ hp⟩
    · exact ⟨j + 1, by omega, by omega, hv ▸ hp⟩
  · rintro ⟨i, hi, hne, hp⟩
    rcases Nat.lt_or_ge i id with hlt | hge
    · exact ⟨i, by omega, (erase_below zero s hid hlt).symm ▸ hp⟩
    · obtain ⟨i, rfl⟩ : ∃ i', i = i' + 1 := ⟨i - 1, by omega⟩
      have hv : erase n id zero s i = s (i + 1) := erase_above zero s (by omega) (by omega)
      exact ⟨i, by omega, hv.symm ▸ hp⟩

/-- Making room and closing the gap again leaves the table as it was. -/
theorem erase_insert (e zero : α) (s : Nat → α) {id : Nat} (hid : id ≤ n) (hzero : s n = zero) :
    erase (n + 1) id zero (insert n id e s) = s := by
  funext j
  rcases Nat.lt_trichotomy j n with hlt | rfl | hgt
  · rcases Nat.lt_or_ge j id with hbelow | habove
    · rw [erase_below zero _ (by omega) hbelow, insert_below n e s hbelow]
    · rw [erase_above zero _ habove (by omega), insert_above e s habove hlt]
  · rw [← hzero]
    exact erase_last id (s j) _
  · rw [erase_beyond zero _ (by omega) (by omega), insert_beyond e s hid hgt]

/-! ### The entries as a list -/

theorem map_range_push (n : Nat) (e : α) (s : Nat → α) :
    (List.range (n + 1)).map (Function.update s n e) = (List.range n).map s ++ [e] := by
  rw [List.range_succ, List.map_append, List.map_singleton, Function.update_self]
  congr 1
  apply List.map_congr_left
  intro i hi
  exact Function.update_of_ne (List.mem_range.mp hi).ne e s

theorem map_range_erase {id : Nat} (zero : α) (s : Nat → α) (hid : id < n) :
    (List.range (n - 1)).map (erase n id zero s) = ((List.range n).map s).eraseIdx id := by
  apply List.ext_getElem
  · rw [List.length_eraseIdx]
    simp only [List.length_map, List.length_range]
    rw [if_pos hid]
  · intro i hi hi'
    rw [List.length_map, List.length_range] at hi
    rw [List.getElem_map, List.getElem_range, List.getElem_eraseIdx]
    rcases erase_cases zero s hid hi with ⟨hlt, hv⟩ | ⟨hge, hv⟩
    · rw [hv, dif_pos hlt, List.getElem_map, List.getElem_range]
    · rw [hv, dif_neg (by omega), List.getElem_map, List.getElem_range]

end

/-- Where keys are distinct, removing the entry of a key is keeping those of the others. -/
theorem eraseIdx_eq_filter [DecidableEq κ] (key : α → κ) : ∀ {l : List α} {i : Nat} (_ : (l.map key).Nodup)
    (hi : i < l.length), l.eraseIdx i = l.filter fun x => key x ≠ key (l.get ⟨i, hi⟩)
  | [], _, _, hi => absurd hi (Nat.not_lt_zero _)
  | x :: l, 0, hnodup, _ => by
    obtain ⟨hnew, -⟩ := List.nodup_cons.mp hnodup
    have hself : (x :: l).filter (fun y => key y ≠ key x) = l.filter fun y => key y ≠ key x :=
      List.filter_cons_of_neg (by simp)
    rw [List.eraseIdx_cons_zero]
    show l = (x :: l).filter fun y => key y ≠ key x
    rw [hself]
    symm
    apply List.filter_eq_self.mpr
    intro y hy
    apply decide_eq_true
    rintro heq
    exact hnew (heq ▸ List.mem_map_of_mem hy)
  | x :: l, i + 1, hnodup, hi => by
    obtain ⟨hnew, hrest⟩ := List.nodup_cons.mp hnodup
    have hi' : i < l.length := Nat.lt_of_succ_lt_succ hi
    have hother : (x :: l).filter (fun y => key y ≠ key (l.get ⟨i, hi'⟩)) =
        x :: l.filter fun y => key y ≠ key (l.get ⟨i, hi'⟩) := by
      apply List.filter_cons_of_pos
      apply decide_eq_true
      rintro heq
      exact hnew (heq ▸ List.mem_map_of_mem (List.get_mem l ⟨i, hi'⟩))
    rw [List.eraseIdx_cons_succ, eraseIdx_eq_filter key hrest hi']
    exact hother.symm

end Omiiba.Slots
