/-
Lanes: finitely or infinitely many lists that share their elements out among themselves. The
one operation moves an element to the front or the back of a lane. Moving keeps the lanes
disjoint and free of duplicates, keeps which elements are in some lane, and leaves the order of
the other elements alone.
-/
import Mathlib.Data.List.Nodup
import Mathlib.Tactic

namespace Omiiba

/-- Lists indexed by lane. -/
abbrev Lanes (ι α : Type*) := ι → List α

namespace Lanes

variable {ι α : Type*}

/-- `a` at the chosen end of `l`. -/
def insertAt (back : Bool) (a : α) (l : List α) : List α := if back then l ++ [a] else a :: l

/-- No element is twice in a lane or in two lanes. -/
structure WF (L : Lanes ι α) : Prop where
  nodup : ∀ l, (L l).Nodup
  unique : ∀ {a l l'}, a ∈ L l → a ∈ L l' → l = l'

/-! ## Inserting at an end -/

@[simp] theorem mem_insertAt {back : Bool} {a b : α} {l : List α} :
    b ∈ insertAt back a l ↔ b = a ∨ b ∈ l := by
  cases back <;> simp [insertAt, or_comm]

theorem nodup_insertAt (back : Bool) {a : α} {l : List α} (ha : a ∉ l) (hl : l.Nodup) :
    (insertAt back a l).Nodup := by
  cases back
  · exact List.nodup_cons.2 ⟨ha, hl⟩
  · exact (List.nodup_append.2 ⟨hl, List.nodup_singleton a, fun x hx y hy => by
      rw [List.mem_singleton.1 hy]; rintro rfl; exact ha hx⟩)

theorem filter_insertAt {back : Bool} {a : α} {l : List α} {p : α → Bool} (ha : p a = false) :
    (insertAt back a l).filter p = l.filter p := by
  cases back <;> simp [insertAt, ha]

/-! ## Moving -/

variable [DecidableEq ι] [DecidableEq α]

/-- Move `a` to an end of lane `dst`; an element already there stays where it is. -/
def move (L : Lanes ι α) (a : α) (dst : ι) (back : Bool) : Lanes ι α :=
  if a ∈ L dst then L
  else fun l => if l = dst then insertAt back a (L l) else (L l).erase a

omit [DecidableEq ι] in
theorem filter_erase {a : α} {p : α → Bool} (ha : p a = false) :
    ∀ l : List α, (l.erase a).filter p = l.filter p
  | [] => rfl
  | b :: l => by
    by_cases hb : b = a
    · subst hb; simp [ha]
    · rw [List.erase_cons_tail (by simpa using hb), List.filter_cons, List.filter_cons, filter_erase ha l]

theorem move_of_mem {L : Lanes ι α} {a : α} {dst : ι} (back : Bool) (h : a ∈ L dst) : L.move a dst back = L :=
  if_pos h

theorem move_dst {L : Lanes ι α} {a : α} {dst : ι} (back : Bool) (h : a ∉ L dst) :
    L.move a dst back dst = insertAt back a (L dst) := by
  unfold move; rw [if_neg h, if_pos rfl]

theorem move_other {L : Lanes ι α} {a : α} {dst l : ι} (back : Bool) (h : a ∉ L dst) (hl : l ≠ dst) :
    L.move a dst back l = (L l).erase a := by
  unfold move; rw [if_neg h, if_neg hl]

/-- A lane that neither holds the element nor receives it is untouched. -/
theorem move_frame {L : Lanes ι α} {a : α} {dst l : ι} (back : Bool) (h : a ∉ L l) (hl : l ≠ dst) :
    L.move a dst back l = L l := by
  by_cases hd : a ∈ L dst
  · rw [move_of_mem back hd]
  · rw [move_other back hd hl, List.erase_of_not_mem h]

theorem mem_move_self (L : Lanes ι α) (a : α) (dst : ι) (back : Bool) : a ∈ L.move a dst back dst := by
  by_cases h : a ∈ L dst
  · rw [move_of_mem back h]; exact h
  · rw [move_dst back h]; exact mem_insertAt.2 (.inl rfl)

theorem mem_move_of_ne {L : Lanes ι α} {a b : α} {dst l : ι} {back : Bool} (hb : b ≠ a) :
    b ∈ L.move a dst back l ↔ b ∈ L l := by
  by_cases hd : a ∈ L dst
  · rw [move_of_mem back hd]
  · by_cases hl : l = dst
    · subst hl; rw [move_dst back hd, mem_insertAt]; tauto
    · rw [move_other back hd hl]; exact List.mem_erase_of_ne hb

theorem mem_move {L : Lanes ι α} (hL : L.WF) {a b : α} {dst l : ι} {back : Bool} :
    b ∈ L.move a dst back l ↔ (b = a ∧ l = dst) ∨ (b ≠ a ∧ b ∈ L l) := by
  by_cases hb : b = a
  · subst hb
    simp only [true_and, ne_eq, not_true, false_and, or_false]
    refine ⟨fun h => ?_, fun h => h ▸ mem_move_self L b dst back⟩
    by_cases hd : b ∈ L dst
    · rw [move_of_mem back hd] at h; exact hL.unique h hd
    · by_contra hl
      rw [move_other back hd hl] at h
      exact (hL.nodup l).not_mem_erase h
  · rw [mem_move_of_ne hb]; tauto

theorem WF.move {L : Lanes ι α} (hL : L.WF) (a : α) (dst : ι) (back : Bool) : (L.move a dst back).WF := by
  by_cases h : a ∈ L dst
  · rw [move_of_mem back h]; exact hL
  refine ⟨fun l => ?_, fun {b l l'} h1 h2 => ?_⟩
  · by_cases hl : l = dst
    · subst hl; rw [move_dst back h]; exact nodup_insertAt back h (hL.nodup l)
    · rw [move_other back h hl]; exact (hL.nodup l).erase a
  · rcases (mem_move hL).1 h1 with ⟨rfl, rfl⟩ | ⟨hb, h1⟩ <;> rcases (mem_move hL).1 h2 with ⟨hb', rfl⟩ | ⟨hb', h2⟩
    · rfl
    · exact absurd rfl hb'
    · exact absurd hb' hb
    · exact hL.unique h1 h2

/-- Moving an element keeps the order of all others in every lane. -/
theorem move_order (L : Lanes ι α) (a : α) (dst : ι) (back : Bool) (l : ι) :
    (L.move a dst back l).filter (· ≠ a) = (L l).filter (· ≠ a) := by
  have ha : (fun b : α => decide (b ≠ a)) a = false := by simp
  by_cases hd : a ∈ L dst
  · rw [move_of_mem back hd]
  · by_cases hl : l = dst
    · subst hl; rw [move_dst back hd]; exact filter_insertAt ha
    · rw [move_other back hd hl]; exact filter_erase (p := fun b => decide (b ≠ a)) ha _

/-- Moving within the lanes keeps the set of elements that are in some lane. -/
theorem exists_mem_move {L : Lanes ι α} {a b : α} {dst : ι} {back : Bool} (ha : ∃ l, a ∈ L l) :
    (∃ l, b ∈ L.move a dst back l) ↔ ∃ l, b ∈ L l := by
  by_cases hb : b = a
  · subst hb
    exact ⟨fun _ => ha, fun _ => ⟨dst, mem_move_self L b dst back⟩⟩
  · simp only [mem_move_of_ne hb]

/-- Everything in one lane. -/
def only (l : ι) (as : List α) : Lanes ι α := fun l' => if l' = l then as else []

omit [DecidableEq α] in
theorem mem_only {l l' : ι} {as : List α} {a : α} : a ∈ only l as l' ↔ l' = l ∧ a ∈ as := by
  unfold only
  split <;> simp_all

omit [DecidableEq α] in
theorem WF.only {as : List α} (h : as.Nodup) (l : ι) : (only l as).WF := by
  refine ⟨fun l' => ?_, fun {a l1 l2} h1 h2 => ?_⟩
  · unfold Lanes.only
    split
    · exact h
    · exact List.nodup_nil
  · rw [(mem_only.1 h1).1, (mem_only.1 h2).1]

/-! ## Moving several -/

/-- Move the elements of a list, one after the other, to the back of lane `dst`. -/
def moveAll (L : Lanes ι α) (as : List α) (dst : ι) : Lanes ι α := as.foldl (fun L a => L.move a dst true) L

theorem WF.moveAll {L : Lanes ι α} (hL : L.WF) (as : List α) (dst : ι) : (L.moveAll as dst).WF := by
  induction as generalizing L with
  | nil => exact hL
  | cons a as ih => exact ih (hL.move a dst true)

/-- What moving elements of one lane to another does to every lane. -/
structure MovedAll (L : Lanes ι α) (as : List α) (src dst : ι) (L' : Lanes ι α) : Prop where
  at_dst : L' dst = L dst ++ as
  at_src : L' src = (L src).filter (· ∉ as)
  frame : ∀ l, l ≠ src → l ≠ dst → L' l = L l

theorem moveAll_spec {L : Lanes ι α} (hL : L.WF) {as : List α} (hnd : as.Nodup) {src dst : ι}
    (hsrc : ∀ a ∈ as, a ∈ L src) (hne : src ≠ dst) : MovedAll L as src dst (L.moveAll as dst) := by
  induction as generalizing L with
  | nil => exact ⟨by simp [moveAll], by simp [moveAll], fun _ _ _ => rfl⟩
  | cons a as ih =>
    obtain ⟨ha, hnd⟩ := List.nodup_cons.1 hnd
    have has : a ∈ L src := hsrc a List.mem_cons_self
    have had : a ∉ L dst := fun h => hne (hL.unique has h)
    have hne' : ∀ b ∈ as, b ≠ a := by rintro b hb rfl; exact ha hb
    have hrest : ∀ b ∈ as, b ∈ L.move a dst true src := fun b hb =>
      (mem_move_of_ne (hne' b hb)).2 (hsrc b (List.mem_cons_of_mem _ hb))
    obtain ⟨h1, h2, h3⟩ := ih (hL.move a dst true) hnd hrest
    refine ⟨?_, ?_, fun l hl hl' => ?_⟩
    · show (L.move a dst true).moveAll as dst dst = _
      rw [h1, move_dst true had]
      simp [insertAt]
    · show (L.move a dst true).moveAll as dst src = _
      rw [h2, move_other true had hne, (hL.nodup src).erase_eq_filter, List.filter_filter]
      refine List.filter_congr fun b _ => ?_
      simp [Bool.and_comm, bne, beq_eq_decide]
    · show (L.move a dst true).moveAll as dst l = _
      rw [h3 l hl hl', move_frame true (fun h => hl (hL.unique h has)) hl']

namespace MovedAll

variable {L L' L'' : Lanes ι α} {as bs : List α} {src dst : ι}

omit [DecidableEq ι] in
/-- An element that was moved is in `dst`, the others are where they were. -/
theorem mem (h : MovedAll L as src dst L') (hL : L.WF) (hsrc : ∀ a ∈ as, a ∈ L src) (hne : src ≠ dst) {b : α} {l : ι} :
    b ∈ L' l ↔ (b ∈ as ∧ l = dst) ∨ (b ∉ as ∧ b ∈ L l) := by
  by_cases hd : l = dst
  · subst hd
    rw [h.at_dst, List.mem_append]
    tauto
  by_cases hs : l = src
  · subst hs
    rw [h.at_src, List.mem_filter]
    simp [hd, and_comm]
  · rw [h.frame l hs hd]
    simp only [hd, and_false, false_or, iff_and_self]
    exact fun hb hin => hs (hL.unique hb (hsrc b hin))

omit [DecidableEq ι] in
theorem refl (L : Lanes ι α) (src dst : ι) : MovedAll L [] src dst L :=
  ⟨by simp, by simp, fun _ _ _ => rfl⟩

omit [DecidableEq ι] in
theorem trans (h1 : MovedAll L as src dst L') (h2 : MovedAll L' bs src dst L'') : MovedAll L (as ++ bs) src dst L'' := by
  refine ⟨by rw [h2.at_dst, h1.at_dst, List.append_assoc], ?_, fun l hs hd => by rw [h2.frame l hs hd, h1.frame l hs hd]⟩
  rw [h2.at_src, h1.at_src, List.filter_filter]
  refine List.filter_congr fun b _ => ?_
  by_cases h1 : b ∈ as <;> by_cases h2 : b ∈ bs <;> simp [h1, h2]

end MovedAll

end Lanes

end Omiiba
