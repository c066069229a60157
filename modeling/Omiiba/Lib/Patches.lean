/-
Patches over a memory: blocks that are put one over the other, each of which keeps what it has
overwritten, and that are undone in another order. When all is as it was.
-/
import Omiiba.Lib.Memory

namespace Omiiba

open scoped List

variable {α : Type*}

/-- Bytes at an address. -/
structure Patch (α : Type*) where
  start : Nat
  bytes : List α
  deriving DecidableEq

namespace Patch

def Covers (p : Patch α) (x : Nat) : Prop := p.start ≤ x ∧ x < p.start + p.bytes.length

instance (p : Patch α) (x : Nat) : Decidable (p.Covers x) := inferInstanceAs (Decidable (_ ∧ _))

def put (p : Patch α) (m : Memory α) : Memory α := m.store p.start p.bytes

theorem put_of_not_covers {p : Patch α} {x : Nat} (h : ¬p.Covers x) (m : Memory α) : p.put m x = m x := by
  refine Memory.store_outside m ?_
  unfold Covers at h
  omega

/-- At a place that it covers, a patch does not depend on what is under it. -/
theorem put_of_covers {p : Patch α} {x : Nat} (h : p.Covers x) (m m' : Memory α) : p.put m x = p.put m' x := by
  obtain ⟨hlow, hhigh⟩ := h
  have hlt : x - p.start < p.bytes.length := by omega
  unfold put
  rw [Memory.store_inside m hlow hlt, Memory.store_inside m' hlow hlt]

/-- What a patch overwrites in a memory. -/
def overwritten (p : Patch α) (m : Memory α) : Patch α := ⟨p.start, (List.range p.bytes.length).map fun i => m (p.start + i)⟩

theorem overwritten_covers (p : Patch α) (m : Memory α) (x : Nat) : (p.overwritten m).Covers x ↔ p.Covers x := by
  simp [overwritten, Covers]

theorem overwritten_put {p : Patch α} {x : Nat} (h : p.Covers x) (m m' : Memory α) : (p.overwritten m).put m' x = m x := by
  obtain ⟨hlow, hhigh⟩ := h
  have hlt : x - p.start < (p.overwritten m).bytes.length := by
    simp only [overwritten, List.length_map, List.length_range]
    omega
  unfold put
  rw [Memory.store_inside m' (show (p.overwritten m).start ≤ x from hlow) hlt]
  simp only [overwritten, List.getElem_map, List.getElem_range]
  congr 1
  omega

/-! ## Patches one after the other -/

def putAll (ps : List (Patch α)) (m : Memory α) : Memory α := ps.foldl (fun m p => p.put m) m

/-- The patches that cover a place. -/
def covering (ps : List (Patch α)) (x : Nat) : List (Patch α) := ps.filter fun p => p.Covers x

theorem putAll_append (ps qs : List (Patch α)) (m : Memory α) : putAll (ps ++ qs) m = putAll qs (putAll ps m) :=
  List.foldl_append

/-- At a place, only the last patch that covers it counts. -/
theorem putAll_of_covering_eq {ps : List (Patch α)} {x : Nat} {p : Patch α} (h : (covering ps x).getLast? = some p)
    (m m' : Memory α) : putAll ps m x = p.put m' x := by
  induction ps using List.reverseRecOn with
  | nil => simp [covering] at h
  | append_singleton ps q ih =>
    rw [putAll_append]
    show q.put (putAll ps m) x = p.put m' x
    unfold covering at h
    rw [List.filter_append] at h
    by_cases hq : q.Covers x
    · rw [List.filter_cons_of_pos (by simpa using hq), List.filter_nil, List.getLast?_append] at h
      obtain rfl : q = p := by simpa using h
      exact put_of_covers hq _ _
    · rw [List.filter_cons_of_neg (by simpa using hq), List.filter_nil, List.append_nil] at h
      rw [put_of_not_covers hq]
      exact ih h

theorem putAll_of_covering_nil {ps : List (Patch α)} {x : Nat} (h : covering ps x = []) (m : Memory α) :
    putAll ps m x = m x := by
  induction ps using List.reverseRecOn with
  | nil => rfl
  | append_singleton ps q ih =>
    unfold covering at h
    rw [List.filter_append, List.append_eq_nil_iff] at h
    have hq : ¬q.Covers x := by simpa [List.filter_cons] using h.2
    rw [putAll_append]
    show q.put (putAll ps m) x = m x
    rw [put_of_not_covers hq]
    exact ih h.1

/-! ## Patches in place -/

/-- The memory has the bytes of the patch. -/
def InPlace (p : Patch α) (m : Memory α) : Prop := ∀ i (h : i < p.bytes.length), m (p.start + i) = p.bytes[i]

theorem InPlace.put_eq {p : Patch α} {m : Memory α} {x : Nat} (h : p.InPlace m) (hx : p.Covers x) (m' : Memory α) :
    p.put m' x = m x := by
  obtain ⟨hlow, hhigh⟩ := hx
  have hbyte := h (x - p.start) (by omega)
  unfold put
  rw [Memory.store_inside m' hlow (by omega), ← hbyte]
  congr 1
  omega

theorem inPlace_put (p : Patch α) (m : Memory α) : p.InPlace (p.put m) := by
  intro i hi
  unfold put
  rw [Memory.store_inside m (Nat.le_add_right ..) (by omega)]
  simp

theorem inPlace_append {a : Nat} {bs cs : List α} {m : Memory α} :
    InPlace ⟨a, bs ++ cs⟩ m ↔ InPlace ⟨a, bs⟩ m ∧ InPlace ⟨a + bs.length, cs⟩ m := by
  constructor
  · intro h
    refine ⟨fun i hi => ?_, fun i hi => ?_⟩
    · dsimp only at hi ⊢
      rw [h i (by simp; omega), List.getElem_append_left hi]
    · dsimp only at hi ⊢
      rw [Nat.add_assoc, h (bs.length + i) (by simp; omega)]
      simp
  · rintro ⟨hleft, hright⟩ i hi
    dsimp only at hi ⊢
    by_cases hlt : i < bs.length
    · rw [List.getElem_append_left hlt]
      exact hleft i hlt
    · have hbyte := hright (i - bs.length) (by rw [List.length_append] at hi; dsimp only; omega)
      rw [List.getElem_append_right (by omega), ← hbyte]
      dsimp only
      congr 1
      omega

/-- Bytes that are in place at the same address are the same. -/
theorem InPlace.getElem?_eq {a : Nat} {bs cs : List α} {m : Memory α} (h : InPlace ⟨a, bs⟩ m) (h' : InPlace ⟨a, cs⟩ m) {i : Nat}
    (hi : i < bs.length) (hi' : i < cs.length) : bs[i]? = cs[i]? := by
  rw [List.getElem?_eq_getElem hi, List.getElem?_eq_getElem hi', ← h i hi, ← h' i hi']

/-- Patches with the bytes that a memory has where another one differs make the other one that memory. -/
theorem putAll_eq_of_inPlace {ps : List (Patch α)} {m m' : Memory α} (h : ∀ p ∈ ps, p.InPlace m)
    (hrest : ∀ x, (∀ p ∈ ps, ¬p.Covers x) → m' x = m x) : putAll ps m' = m := by
  funext x
  cases hlast : (covering ps x).getLast? with
  | none =>
    have hnil : covering ps x = [] := List.getLast?_eq_none_iff.mp hlast
    rw [putAll_of_covering_nil hnil]
    refine hrest x fun p hp hcovers => ?_
    have hmem : p ∈ covering ps x := List.mem_filter.mpr ⟨hp, by simpa using hcovers⟩
    rw [hnil] at hmem
    simp at hmem
  | some p =>
    have hmem := List.mem_filter.mp (List.mem_of_getLast? hlast)
    rw [putAll_of_covering_eq hlast m' m']
    exact (h p hmem.1).put_eq (by simpa using hmem.2) m'

/-- No place is covered by both. -/
def Apart (p q : Patch α) : Prop := p.start + p.bytes.length ≤ q.start ∨ q.start + q.bytes.length ≤ p.start

instance (p q : Patch α) : Decidable (p.Apart q) := inferInstanceAs (Decidable (_ ∨ _))

theorem Apart.not_covers {p q : Patch α} {x : Nat} (h : p.Apart q) (hp : p.Covers x) : ¬q.Covers x := by
  unfold Apart at h
  unfold Covers at hp ⊢
  omega

theorem putAll_of_not_covers {ps : List (Patch α)} {x : Nat} (h : ∀ p ∈ ps, ¬p.Covers x) (m : Memory α) :
    putAll ps m x = m x := by
  refine putAll_of_covering_nil (List.filter_eq_nil_iff.mpr fun p hp => ?_) m
  simpa using h p hp

/-- Patches that are apart are all in place. -/
theorem inPlace_putAll {ps : List (Patch α)} (h : ps.Pairwise Apart) {p : Patch α} (hp : p ∈ ps) (m : Memory α) :
    p.InPlace (putAll ps m) := by
  induction ps generalizing m with
  | nil => simp at hp
  | cons q qs ih =>
    obtain ⟨hq, hqs⟩ := List.pairwise_cons.mp h
    rcases List.mem_cons.mp hp with rfl | hmem
    · intro i hi
      have hcovers : p.Covers (p.start + i) := ⟨Nat.le_add_right .., by omega⟩
      have hrest : putAll (p :: qs) m (p.start + i) = p.put m (p.start + i) :=
        putAll_of_not_covers (fun r hr => (hq r hr).not_covers hcovers) (p.put m)
      rw [hrest]
      exact inPlace_put p m i hi
    · exact ih hqs hmem (q.put m)

/-- Wherever one of the two begins in the other, they differ. -/
def Clash [DecidableEq α] (bs cs : List α) : Bool :=
  (List.range bs.length).all fun i => (List.range cs.length).all fun j => i ≠ 0 && j ≠ 0 ||
    (List.range (min (bs.length - i) (cs.length - j))).any fun k => bs[i + k]? ≠ cs[j + k]?

/-- Bytes that clash are in place apart from each other. -/
theorem apart_of_clash [DecidableEq α] {p q : Patch α} {m : Memory α} (hp : p.InPlace m) (hq : q.InPlace m)
    (hpos : 0 < p.bytes.length ∧ 0 < q.bytes.length) (h : Clash p.bytes q.bytes = true) : p.Apart q := by
  have hno : ∀ i < p.bytes.length, ∀ j < q.bytes.length, i = 0 ∨ j = 0 → p.start + i ≠ q.start + j := by
    intro i hi j hj hzero heq
    unfold Clash at h
    have hclash := List.all_eq_true.mp (List.all_eq_true.mp h i (List.mem_range.mpr hi)) j (List.mem_range.mpr hj)
    have hnot : (decide (i ≠ 0) && decide (j ≠ 0)) = false := by
      rcases hzero with rfl | rfl <;> simp
    rw [hnot, Bool.false_or] at hclash
    obtain ⟨k, hk, hdiffer⟩ := List.any_eq_true.mp hclash
    have hk := List.mem_range.mp hk
    have hpk := hp (i + k) (by omega)
    have hqk := hq (j + k) (by omega)
    rw [← Nat.add_assoc, heq, Nat.add_assoc, hqk] at hpk
    rw [List.getElem?_eq_getElem (by omega), List.getElem?_eq_getElem (by omega), hpk] at hdiffer
    simp at hdiffer
  unfold Apart
  by_contra hboth
  -- one of the two begins in the other
  rcases Nat.le_total p.start q.start with hle | hle
  · exact hno (q.start - p.start) (by omega) 0 (by omega) (.inr rfl) (by omega)
  · exact hno 0 (by omega) (p.start - q.start) (by omega) (.inl rfl) (by omega)

/-! ## Undoing -/

section

variable [DecidableEq α]

/-- What a patch among others keeps: what the ones before it have left. -/
def undo (ps : List (Patch α)) (m : Memory α) (p : Patch α) : Patch α := p.overwritten (putAll (ps.takeWhile (· ≠ p)) m)

/-- The memory after the patches, and after they are undone in an order. -/
def restore (ps order : List (Patch α)) (m : Memory α) : Memory α := putAll (order.map (undo ps m)) (putAll ps m)

/-- What a patch keeps does not depend on the ones after it. -/
theorem undo_append {ps : List (Patch α)} {p : Patch α} (h : p ∈ ps) (qs : List (Patch α)) (m : Memory α) :
    undo (ps ++ qs) m p = undo ps m p := by
  have htake : (ps ++ qs).takeWhile (· ≠ p) = ps.takeWhile (· ≠ p) := by
    induction ps with
    | nil => simp at h
    | cons r ps ih =>
      by_cases hr : r = p
      · simp [hr]
      · have hmem : p ∈ ps := by simpa [Ne.symm hr] using h
        rw [List.cons_append, List.takeWhile_cons_of_pos (by simpa using hr),
          List.takeWhile_cons_of_pos (by simpa using hr), ih hmem]
  unfold undo
  rw [htake]

theorem undo_last {ps : List (Patch α)} {p : Patch α} (h : p ∉ ps) (m : Memory α) :
    undo (ps ++ [p]) m p = p.overwritten (putAll ps m) := by
  have htake : (ps ++ [p]).takeWhile (· ≠ p) = ps := by
    have hall : ∀ q ∈ ps, decide (q ≠ p) = true := by
      intro q hq
      simp only [decide_eq_true_eq]
      rintro rfl
      exact h hq
    rw [List.takeWhile_append_of_pos hall]
    simp
  unfold undo
  rw [htake]

theorem covering_map_undo (ps order : List (Patch α)) (m : Memory α) (x : Nat) :
    covering (order.map (undo ps m)) x = (covering order x).map (undo ps m) := by
  unfold covering
  rw [List.filter_map]
  congr 1
  refine List.filter_congr fun p _ => ?_
  simp only [Function.comp_apply, decide_eq_decide]
  exact overwritten_covers p _ x

theorem covering_takeWhile {p : Patch α} {x : Nat} (hp : p.Covers x) (ps : List (Patch α)) :
    covering (ps.takeWhile (· ≠ p)) x = (covering ps x).takeWhile (· ≠ p) := by
  induction ps with
  | nil => rfl
  | cons q ps ih =>
    by_cases hq : q = p
    · subst hq
      simp [covering, hp]
    · unfold covering at *
      rw [List.takeWhile_cons_of_pos (by simpa using hq)]
      by_cases hcovers : q.Covers x
      · rw [List.filter_cons_of_pos (by simpa using hcovers), List.filter_cons_of_pos (by simpa using hcovers),
          List.takeWhile_cons_of_pos (by simpa using hq), ih]
      · rw [List.filter_cons_of_neg (by simpa using hcovers), List.filter_cons_of_neg (by simpa using hcovers), ih]

/-- A place that is restored from a patch gets what was under that patch. -/
theorem restore_of_covering {ps order : List (Patch α)} {m : Memory α} {x : Nat} {p : Patch α}
    (h : (covering order x).getLast? = some p) : restore ps order m x = putAll (ps.takeWhile (· ≠ p)) m x := by
  have hp : p.Covers x := by
    have hmem := List.mem_of_getLast? h
    unfold covering at hmem
    simpa using (List.mem_filter.mp hmem).2
  have hlast : (covering (order.map (undo ps m)) x).getLast? = some (undo ps m p) := by
    rw [covering_map_undo, List.getLast?_map, h]
    rfl
  unfold restore
  rw [putAll_of_covering_eq hlast _ m]
  exact overwritten_put hp _ _

omit [DecidableEq α] in
theorem pair_sublist_iff {ps : List (Patch α)} {x : Nat} (htwo : (covering ps x).length ≤ 2) {q p : Patch α} :
    ([q, p] <+ ps ∧ q.Covers x ∧ p.Covers x) ↔ covering ps x = [q, p] := by
  constructor
  · rintro ⟨hsub, hq, hp⟩
    have hfilter := hsub.filter fun r : Patch α => decide (r.Covers x)
    rw [List.filter_cons_of_pos (by simpa using hq), List.filter_cons_of_pos (by simpa using hp), List.filter_nil] at hfilter
    exact (hfilter.eq_of_length_le htwo).symm
  · intro h
    have hmem (r : Patch α) (hr : r ∈ [q, p]) : r.Covers x := by
      rw [← h] at hr
      simpa using (List.mem_filter.mp hr).2
    refine ⟨?_, hmem q (by simp), hmem p (by simp)⟩
    rw [← h]
    exact List.filter_sublist

/-- Two in each of two orders, of which the last of the one is not the first of the other. -/
theorem pair_of_perm {β : Type*} [DecidableEq β] {l l' : List β} {p q : β} (hperm : l' ~ l) (htwo : l.length ≤ 2)
    (hlast : l'.getLast? = some p) (hunder : (l.takeWhile (· ≠ p)).getLast? = some q) : l = [q, p] ∧ l' = [q, p] := by
  have hp : p ∈ l := hperm.subset (List.mem_of_getLast? hlast)
  rcases l with _ | ⟨a, _ | ⟨b, _ | ⟨c, l⟩⟩⟩
  · simp at hp
  · obtain rfl : p = a := by simpa using hp
    simp at hunder
  · by_cases ha : a = p
    · simp [ha] at hunder
    · obtain rfl : p = b := by simpa [Ne.symm ha] using hp
      obtain rfl : a = q := by simpa [ha] using hunder
      refine ⟨rfl, ?_⟩
      have hlen := hperm.length_eq
      rcases l' with _ | ⟨c, _ | ⟨d, _ | ⟨e, l'⟩⟩⟩
      · simp at hlen
      · simp at hlen
      · obtain rfl : d = p := by simpa using hlast
        have ha' := hperm.symm.subset (List.mem_cons_self : a ∈ [a, d])
        obtain rfl : a = c := by simpa [ha] using ha'
        rfl
      · simp at hlen
  · simp at htwo

/-- Where at most two patches cover a place, undoing them in any order restores the memory exactly if of two
patches over a place that are undone in the order that they were put in, the first has not changed it. -/
theorem restore_eq_iff {ps order : List (Patch α)} (hnodup : ps.Nodup) (hperm : order ~ ps) {m : Memory α}
    (htwo : ∀ x, (covering ps x).length ≤ 2) :
    restore ps order m = m ↔
      ∀ q p x, [q, p] <+ ps → [q, p] <+ order → q.Covers x → p.Covers x → q.put m x = m x := by
  have horder (x : Nat) : covering order x ~ covering ps x := hperm.filter _
  rw [funext_iff]
  constructor
  · intro h q p x hps hord hq hp
    have hpsx := (pair_sublist_iff (htwo x)).mp ⟨hps, hq, hp⟩
    have hordx := (pair_sublist_iff ((horder x).length_eq.le.trans (htwo x))).mp ⟨hord, hq, hp⟩
    have hne : q ≠ p := by simpa using hps.nodup hnodup
    have hunder : (covering (ps.takeWhile (· ≠ p)) x).getLast? = some q := by
      rw [covering_takeWhile hp, hpsx]
      simp [hne]
    have hlast : (covering order x).getLast? = some p := by
      rw [hordx]
      rfl
    rw [← putAll_of_covering_eq hunder m m, ← restore_of_covering hlast]
    exact h x
  · intro h x
    cases hlast : (covering order x).getLast? with
    | none =>
      have hnil : covering order x = [] := List.getLast?_eq_none_iff.mp hlast
      have hps : covering ps x = [] := by
        have hlen := (horder x).length_eq
        rw [hnil] at hlen
        exact List.length_eq_zero_iff.mp hlen.symm
      have hundo : covering (order.map (undo ps m)) x = [] := by
        rw [covering_map_undo, hnil]
        rfl
      unfold restore
      rw [putAll_of_covering_nil hundo, putAll_of_covering_nil hps]
    | some p =>
      have hp : p.Covers x := by simpa using (List.mem_filter.mp (List.mem_of_getLast? hlast)).2
      rw [restore_of_covering hlast]
      cases hunder : (covering (ps.takeWhile (· ≠ p)) x).getLast? with
      | none => exact putAll_of_covering_nil (List.getLast?_eq_none_iff.mp hunder) m
      | some q =>
        rw [putAll_of_covering_eq hunder m m]
        rw [covering_takeWhile hp] at hunder
        obtain ⟨hpsx, hordx⟩ := pair_of_perm (horder x) (htwo x) hlast hunder
        have hps := (pair_sublist_iff (htwo x)).mpr hpsx
        have hord := (pair_sublist_iff ((horder x).length_eq.le.trans (htwo x))).mpr hordx
        exact h q p x hps.1 hord.1 hps.2.1 hps.2.2

end

end Patch

end Omiiba
