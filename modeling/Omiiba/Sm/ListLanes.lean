/-
What the functions of list.c keep, for any lists over a pool of any size: a heap that represents
lanes represents the moved lanes after `moveNode` and `allocateNode`, `buildList` puts the whole
pool in one lane, and a heap that represents lanes is intact read pointer by pointer.
-/
import Omiiba.Sm.List

namespace Omiiba.Sm

namespace ListHeap

variable {ι : Type}

/-! ## Representation -/

/-- The heap represents the lanes: ends, links and parents are what the lanes say. -/
structure Represents (h : ListHeap ι) (L : Lanes ι Nat) : Prop where
  first : ∀ l, (h.lists l).first = (L l).head?
  last : ∀ l, (h.lists l).last = (L l).getLast?
  prev : ∀ {l xs a ys}, L l = xs ++ a :: ys → (h.nodes a).prev = xs.getLast?
  next : ∀ {l xs a ys}, L l = xs ++ a :: ys → (h.nodes a).next = ys.head?
  parent : ∀ {l a}, a ∈ L l → (h.nodes a).parent = some l
  nodup : ∀ l, (L l).Nodup

theorem Represents.wf {h : ListHeap ι} {L : Lanes ι Nat} (r : h.Represents L) : L.WF :=
  ⟨r.nodup, fun h1 h2 => by have := (r.parent h1).symm.trans (r.parent h2); simpa using this⟩

section relink

variable [DecidableEq ι]

/-! ## Unlinking -/

section unlink

variable {h : ListHeap ι} {a : Nat} {src : ι}

theorem unlink_next (hp : (h.nodes a).prev ≠ some a) (b : Nat) : ((h.unlink a src).nodes b).next =
    if (h.nodes a).prev = some b then (h.nodes a).next else (h.nodes b).next := by
  unfold unlink; dsimp only
  split_ifs <;> simp_all

theorem unlink_prev (hp : (h.nodes a).prev ≠ some a) (hn : (h.nodes a).next ≠ some a) (b : Nat) :
    ((h.unlink a src).nodes b).prev =
      if (h.nodes a).next = some b then (h.nodes a).prev else (h.nodes b).prev := by
  unfold unlink; dsimp only
  split_ifs <;> simp_all

theorem unlink_parent (b : Nat) : ((h.unlink a src).nodes b).parent = (h.nodes b).parent := by
  unfold unlink; dsimp only
  split_ifs <;> simp

theorem unlink_first (hp : (h.nodes a).prev ≠ some a) (m : ι) : ((h.unlink a src).lists m).first =
    if m = src ∧ (h.lists src).first = some a then (h.nodes a).next else (h.lists m).first := by
  unfold unlink; dsimp only
  split_ifs <;> simp_all

theorem unlink_last (hp : (h.nodes a).prev ≠ some a) (hn : (h.nodes a).next ≠ some a) (m : ι) :
    ((h.unlink a src).lists m).last =
      if m = src ∧ (h.lists src).last = some a then (h.nodes a).prev else (h.lists m).last := by
  unfold unlink; dsimp only
  split_ifs <;> simp_all

end unlink

/-- What two splits of a list without `a` say about each other: `b` is before or after the gap. -/
theorem gap_cases {xs ys us vs : List Nat} {b : Nat} (h : xs ++ ys = us ++ b :: vs) :
    (∃ zs, us = xs ++ zs ∧ ys = zs ++ b :: vs) ∨ ∃ zs, xs = us ++ b :: zs ∧ vs = zs ++ ys := by
  rcases List.append_eq_append_iff.1 h with ⟨zs, rfl, hy⟩ | ⟨zs, hx, hb⟩
  · exact .inl ⟨zs, rfl, hy⟩
  · cases zs with
    | nil => exact .inl ⟨[], by simpa using hx.symm, by simpa using hb.symm⟩
    | cons z zs =>
      obtain ⟨rfl, rfl⟩ : b = z ∧ vs = zs ++ ys := by simpa using hb
      exact .inr ⟨zs, hx, rfl⟩

theorem Represents.unlink {h : ListHeap ι} {L : Lanes ι Nat} (r : h.Represents L) {src : ι} {a : Nat}
    (ha : a ∈ L src) : (h.unlink a src).Represents fun l => (L l).erase a := by
  obtain ⟨xs, ys, hL⟩ := List.append_of_mem ha
  have hnd := r.nodup src
  rw [hL] at hnd
  obtain ⟨hxs, hcons, hdis⟩ := List.nodup_append.1 hnd
  have hax : a ∉ xs := fun hm => hdis a hm a (by simp) rfl
  have hay : a ∉ ys := (List.nodup_cons.1 hcons).1
  have hprev := r.prev hL
  have hnext := r.next hL
  have hp : (h.nodes a).prev ≠ some a := fun e => hax (List.mem_of_getLast? (hprev.symm.trans e))
  have hn : (h.nodes a).next ≠ some a := fun e => hay (List.mem_of_head? (hnext.symm.trans e))
  have hsrc : (L src).erase a = xs ++ ys := by rw [hL, List.erase_append_right _ hax]; simp
  have hother : ∀ l, l ≠ src → (L l).erase a = L l := fun l hl =>
    List.erase_of_not_mem fun hm => hl (r.wf.unique hm ha)
  -- a node of another list is no neighbour of `a`
  have hfar : ∀ {l b}, l ≠ src → b ∈ L l → b ∉ xs ∧ b ∉ ys := by
    intro l b hl hb
    refine ⟨fun hm => hl (r.wf.unique hb (by rw [hL]; simp [hm])), fun hm => hl (r.wf.unique hb (by rw [hL]; simp [hm]))⟩
  refine ⟨fun l => ?_, fun l => ?_, ?_, ?_, ?_, fun l => (r.nodup l).erase a⟩
  · rw [unlink_first hp]
    by_cases hl : l = src
    · subst hl
      rw [hsrc, r.first, hL, hnext]
      cases xs with
      | nil => simp
      | cons x xs => simp at hax; simp [Ne.symm hax.1]
    · rw [if_neg (by tauto), hother l hl, r.first]
  · rw [unlink_last hp hn]
    by_cases hl : l = src
    · subst hl
      rw [hsrc, r.last, hL, hprev]
      rcases List.eq_nil_or_concat ys with rfl | ⟨zs, z, rfl⟩
      · simp
      · have hz : z ≠ a := by rintro rfl; simp at hay
        simp [hz, List.getLast?_append, List.getLast?_cons]
    · rw [if_neg (by tauto), hother l hl, r.last]
  · intro l us b vs hsplit
    rw [unlink_prev hp hn]
    by_cases hl : l = src
    · subst hl
      rw [hsrc] at hsplit
      rw [hprev, hnext]
      rcases gap_cases hsplit with ⟨zs, rfl, hy⟩ | ⟨zs, hx, rfl⟩
      · have hold : L l = (xs ++ a :: zs) ++ b :: vs := by rw [hL, hy]; simp
        rw [hy] at hay hcons ⊢
        cases zs with
        | nil => simp
        | cons z zs =>
          have hz : z ≠ b := by rintro rfl; simp at hcons
          rw [if_neg (by simpa using hz), r.prev hold]
          simp [List.getLast?_append, List.getLast?_cons]
      · have hold : L l = us ++ b :: (zs ++ a :: ys) := by rw [hL, hx]; simp
        have hb : b ∉ ys := fun hm => hdis b (by rw [hx]; simp) b (by simp [hm]) rfl
        rw [if_neg (fun e => hb (List.mem_of_head? e)), r.prev hold]
    · rw [hother l hl] at hsplit
      have := hfar hl (b := b) (by rw [hsplit]; simp)
      rw [if_neg (fun e => this.2 (List.mem_of_head? (hnext.symm.trans e))), r.prev hsplit]
  · intro l us b vs hsplit
    rw [unlink_next hp]
    by_cases hl : l = src
    · subst hl
      rw [hsrc] at hsplit
      rw [hprev, hnext]
      rcases gap_cases hsplit with ⟨zs, rfl, hy⟩ | ⟨zs, hx, rfl⟩
      · have hold : L l = (xs ++ a :: zs) ++ b :: vs := by rw [hL, hy]; simp
        have hb : b ∉ xs := fun hm => hdis b hm b (by rw [hy]; simp) rfl
        rw [if_neg (fun e => hb (List.mem_of_getLast? e)), r.next hold]
      · have hold : L l = us ++ b :: (zs ++ a :: ys) := by rw [hL, hx]; simp
        rcases List.eq_nil_or_concat zs with rfl | ⟨ws, w, rfl⟩
        · rw [hx]; simp
        · have hw : w ≠ b := by rintro rfl; rw [hx] at hxs; simpa using (List.nodup_append.1 hxs).2.1
          rw [hx, if_neg (by simpa [List.getLast?_append, List.getLast?_cons] using hw), r.next hold]
          simp
    · rw [hother l hl] at hsplit
      have := hfar hl (b := b) (by rw [hsplit]; simp)
      rw [if_neg (fun e => this.1 (List.mem_of_getLast? (hprev.symm.trans e))), r.next hsplit]
  · intro l b hb
    rw [unlink_parent]; exact r.parent (List.mem_of_mem_erase hb)

/-! ## Linking -/

/-- The second half of `moveNode`. -/
def link (h : ListHeap ι) (node : Nat) (dst : ι) (back : Bool) : ListHeap ι :=
  ((h.insert node dst back).normalize dst).setParent node dst

section link

variable {h : ListHeap ι} {a : Nat} {dst : ι}

@[simp] theorem normalize_nodes : (h.normalize dst).nodes = h.nodes := by
  unfold normalize; split_ifs <;> rfl

theorem link_back_next (b : Nat) : ((h.link a dst true).nodes b).next =
    if b = a then none else if (h.lists dst).last = some b then some a else (h.nodes b).next := by
  unfold link insert
  simp [eq_comm (a := a)]

theorem link_back_prev (b : Nat) : ((h.link a dst true).nodes b).prev =
    if b = a then (h.lists dst).last else (h.nodes b).prev := by
  unfold link insert
  simp [eq_comm (a := a)]

theorem link_front_next (b : Nat) : ((h.link a dst false).nodes b).next =
    if b = a then (h.lists dst).first else (h.nodes b).next := by
  unfold link insert
  simp [eq_comm (a := a)]

theorem link_front_prev (b : Nat) : ((h.link a dst false).nodes b).prev =
    if b = a then none else if (h.lists dst).first = some b then some a else (h.nodes b).prev := by
  unfold link insert
  simp [eq_comm (a := a)]

theorem link_parent (back : Bool) (b : Nat) : ((h.link a dst back).nodes b).parent =
    if b = a then some dst else (h.nodes b).parent := by
  unfold link insert
  cases back <;> simp

theorem normalize_first (m : ι) : ((h.normalize dst).lists m).first =
    if m = dst then (h.lists dst).first.or (h.lists dst).last else (h.lists m).first := by
  unfold normalize
  rcases hf : (h.lists dst).first with - | f <;> rcases hl : (h.lists dst).last with - | l <;>
    by_cases hm : m = dst <;> simp_all

theorem normalize_last (m : ι) : ((h.normalize dst).lists m).last =
    if m = dst then (h.lists dst).last.or (h.lists dst).first else (h.lists m).last := by
  unfold normalize
  rcases hf : (h.lists dst).first with - | f <;> rcases hl : (h.lists dst).last with - | l <;>
    by_cases hm : m = dst <;> simp_all

theorem link_back_first (m : ι) : ((h.link a dst true).lists m).first =
    if m = dst then (h.lists dst).first.or (some a) else (h.lists m).first := by
  unfold link insert
  simp [normalize_first]

theorem link_back_last (m : ι) : ((h.link a dst true).lists m).last =
    if m = dst then some a else (h.lists m).last := by
  unfold link insert
  by_cases hm : m = dst <;> simp [normalize_last, hm]

theorem link_front_first (m : ι) : ((h.link a dst false).lists m).first =
    if m = dst then some a else (h.lists m).first := by
  unfold link insert
  by_cases hm : m = dst <;> simp [normalize_first, hm]

theorem link_front_last (m : ι) : ((h.link a dst false).lists m).last =
    if m = dst then (h.lists dst).last.or (some a) else (h.lists m).last := by
  unfold link insert
  simp [normalize_last]

end link

/-- A split of a list with a new last element. -/
theorem snoc_cases {l us vs : List Nat} {a b : Nat} (h : l ++ [a] = us ++ b :: vs) :
    (us = l ∧ b = a ∧ vs = []) ∨ ∃ ws, vs = ws ++ [a] ∧ l = us ++ b :: ws := by
  rcases List.eq_nil_or_concat vs with rfl | ⟨ws, w, rfl⟩
  · left
    obtain ⟨hl, hb⟩ := List.append_inj' h rfl
    exact ⟨hl.symm, by simpa using hb.symm, rfl⟩
  · right
    rw [show us ++ b :: ws.concat w = (us ++ b :: ws) ++ [w] by simp] at h
    obtain ⟨hl, hw⟩ := List.append_inj' h rfl
    obtain rfl : a = w := by simpa using hw
    exact ⟨ws, by simp, hl⟩

/-- A split of a list with a new first element. -/
theorem cons_cases {l us vs : List Nat} {a b : Nat} (h : a :: l = us ++ b :: vs) :
    (us = [] ∧ b = a ∧ vs = l) ∨ ∃ ws, us = a :: ws ∧ l = ws ++ b :: vs := by
  cases us with
  | nil => left; simp_all
  | cons u us => right; exact ⟨us, by simp_all⟩

theorem Represents.link_back {h : ListHeap ι} {L : Lanes ι Nat} (r : h.Represents L) {dst : ι} {a : Nat}
    (ha : ∀ l, a ∉ L l) :
    (h.link a dst true).Represents fun l => if l = dst then L l ++ [a] else L l := by
  have hne : ∀ {l b}, b ∈ L l → b ≠ a := by rintro l b hb rfl; exact ha l hb
  refine ⟨fun l => ?_, fun l => ?_, ?_, ?_, ?_, fun l => ?_⟩
  · rw [link_back_first, r.first, r.first]
    split
    · next hl => subst hl; simp [List.head?_append]
    · rfl
  · rw [link_back_last, r.last]
    split <;> simp
  · intro l us b vs hsplit
    rw [link_back_prev, r.last]
    split at hsplit
    · next hl =>
      subst hl
      rcases snoc_cases hsplit with ⟨rfl, rfl, rfl⟩ | ⟨ws, rfl, hold⟩
      · rw [if_pos rfl]
      · rw [if_neg (hne (l := l) (by rw [hold]; simp)), r.prev hold]
    · rw [if_neg (hne (l := l) (by rw [hsplit]; simp)), r.prev hsplit]
  · intro l us b vs hsplit
    rw [link_back_next, r.last]
    split at hsplit
    · next hl =>
      subst hl
      rcases snoc_cases hsplit with ⟨rfl, rfl, rfl⟩ | ⟨ws, rfl, hold⟩
      · rw [if_pos rfl]; rfl
      · have hnd := r.nodup l
        rw [if_neg (hne (l := l) (by rw [hold]; simp)), r.next hold]
        rw [hold] at hnd ⊢
        rcases List.eq_nil_or_concat ws with rfl | ⟨ys, y, rfl⟩
        · simp
        · -- `b` is not the last of its list, so its successor stays
          have hy : y ≠ b := by rintro rfl; simp [List.nodup_append] at hnd
          rw [if_neg (by simpa [List.getLast?_append, List.getLast?_cons] using hy)]
          simp [List.head?_append]
    · next hl =>
      have hb : b ∈ L l := by rw [hsplit]; simp
      rw [if_neg (hne hb), if_neg fun e => hl (r.wf.unique hb (List.mem_of_getLast? e)), r.next hsplit]
  · intro l b hb
    rw [link_parent]
    split at hb
    · next hl =>
      subst hl
      rcases List.mem_append.1 hb with hb | hb
      · rw [if_neg (hne hb), r.parent hb]
      · rw [if_pos (by simpa using hb)]
    · rw [if_neg (hne hb), r.parent hb]
  · split
    · exact Lanes.nodup_insertAt true (ha l) (r.nodup l)
    · exact r.nodup l

theorem Represents.link_front {h : ListHeap ι} {L : Lanes ι Nat} (r : h.Represents L) {dst : ι} {a : Nat}
    (ha : ∀ l, a ∉ L l) :
    (h.link a dst false).Represents fun l => if l = dst then a :: L l else L l := by
  have hne : ∀ {l b}, b ∈ L l → b ≠ a := by rintro l b hb rfl; exact ha l hb
  refine ⟨fun l => ?_, fun l => ?_, ?_, ?_, ?_, fun l => ?_⟩
  · rw [link_front_first, r.first]
    split <;> simp
  · rw [link_front_last, r.last, r.last]
    split
    · next hl => subst hl; cases hL : (L l).getLast? <;> simp [List.getLast?_cons, hL]
    · rfl
  · intro l us b vs hsplit
    rw [link_front_prev, r.first]
    split at hsplit
    · next hl =>
      subst hl
      rcases cons_cases hsplit with ⟨rfl, rfl, rfl⟩ | ⟨ws, rfl, hold⟩
      · rw [if_pos rfl]; rfl
      · have hnd := r.nodup l
        rw [if_neg (hne (l := l) (by rw [hold]; simp)), r.prev hold]
        rw [hold] at hnd ⊢
        cases ws with
        | nil => simp
        | cons y ys =>
          -- `b` is not the first of its list, so its predecessor stays
          have hy : y ≠ b := by rintro rfl; simp at hnd
          rw [if_neg (by simpa using hy)]
          simp [List.getLast?_cons]
    · next hl =>
      have hb : b ∈ L l := by rw [hsplit]; simp
      rw [if_neg (hne hb), if_neg fun e => hl (r.wf.unique hb (List.mem_of_head? e)), r.prev hsplit]
  · intro l us b vs hsplit
    rw [link_front_next, r.first]
    split at hsplit
    · next hl =>
      subst hl
      rcases cons_cases hsplit with ⟨rfl, rfl, rfl⟩ | ⟨ws, rfl, hold⟩
      · rw [if_pos rfl]
      · rw [if_neg (hne (l := l) (by rw [hold]; simp)), r.next hold]
    · rw [if_neg (hne (l := l) (by rw [hsplit]; simp)), r.next hsplit]
  · intro l b hb
    rw [link_parent]
    split at hb
    · next hl =>
      subst hl
      rcases List.mem_cons.1 hb with rfl | hb
      · rw [if_pos rfl]
      · rw [if_neg (hne hb), r.parent hb]
    · rw [if_neg (hne hb), r.parent hb]
  · split
    · exact Lanes.nodup_insertAt false (ha l) (r.nodup l)
    · exact r.nodup l

theorem Represents.link {h : ListHeap ι} {L : Lanes ι Nat} (r : h.Represents L) {dst : ι} {a : Nat}
    (ha : ∀ l, a ∉ L l) (back : Bool) :
    (h.link a dst back).Represents fun l => if l = dst then Lanes.insertAt back a (L l) else L l := by
  cases back
  · exact r.link_front ha
  · exact r.link_back ha

/-! ## Moving and allocating -/

/-- `moveNode` is a move of the lanes. -/
theorem moveNode_represents {h : ListHeap ι} {L : Lanes ι Nat} (r : h.Represents L) {src : ι} {a : Nat}
    (ha : a ∈ L src) (dst : ι) (back : Bool) :
    ∃ h', h.moveNode a dst back = some h' ∧ h'.Represents (L.move a dst back) := by
  unfold moveNode
  rw [r.parent ha]
  refine ⟨_, rfl, ?_⟩
  by_cases hd : dst = src
  · subst hd
    rw [if_pos rfl, Lanes.move_of_mem back ha]; exact r
  · have hnot : a ∉ L dst := fun hm => hd (r.wf.unique hm ha)
    have hgone : ∀ l, a ∉ (L l).erase a := fun l => (r.nodup l).not_mem_erase
    rw [if_neg hd]
    have hmove : L.move a dst back =
        fun l => if l = dst then Lanes.insertAt back a ((L l).erase a) else (L l).erase a := by
      funext l
      by_cases hl : l = dst
      · subst hl; rw [Lanes.move_dst back hnot, if_pos rfl, List.erase_of_not_mem hnot]
      · rw [Lanes.move_other back hnot hl, if_neg hl]
    rw [hmove]
    exact (r.unlink ha).link hgone back

/-- `allocateNode` takes the head of the free lane. -/
theorem allocateNode_represents {h : ListHeap ι} {L : Lanes ι Nat} (r : h.Represents L) {free : ι}
    {a : Nat} (ha : (L free).head? = some a) (inUse : ι) (back : Bool) :
    ∃ h', h.allocateNode inUse free back = some (a, h') ∧ h'.Represents (L.move a inUse back) := by
  obtain ⟨h', hm, r'⟩ := moveNode_represents r (List.mem_of_head? ha) inUse back
  refine ⟨h', ?_, r'⟩
  unfold allocateNode
  rw [r.first, ha]
  simp only [hm, Option.map_some]

theorem allocateNode_none {h : ListHeap ι} {L : Lanes ι Nat} (r : h.Represents L) {inUse free : ι}
    (hf : L free = []) (back : Bool) : h.allocateNode inUse free back = none := by
  unfold allocateNode
  rw [r.first, hf]; rfl

/-! ## Building -/

/-- The lanes after `buildList`: the pool in order on one lane. -/
def poolLanes (list : ι) (nb : Nat) : Lanes ι Nat := fun l => if l = list then List.range nb else []

theorem range_split {n a : Nat} {xs ys : List Nat} (h : List.range n = xs ++ a :: ys) :
    xs = List.range a ∧ ys.head? = if a + 1 < n then some (a + 1) else none := by
  have hlen : xs.length < n := by
    have := congrArg List.length h
    simp at this; omega
  have hget : ∀ i, i < n → (xs ++ a :: ys)[i]? = some i := fun i hi => by
    rw [← h, List.getElem?_range hi]
  obtain rfl : xs.length = a := by
    have := hget _ hlen
    rw [List.getElem?_append_right le_rfl] at this
    simpa using this.symm
  refine ⟨?_, ?_⟩
  · have := congrArg (List.take xs.length) h
    rw [List.take_left, List.take_range, Nat.min_eq_left hlen.le] at this
    exact this.symm
  · split
    · next hn =>
      have := hget _ hn
      rw [List.getElem?_append_right (by simp)] at this
      simpa [List.head?_eq_getElem?] using this
    · next hn =>
      have := congrArg List.length h
      simp at this
      rw [List.length_eq_zero_iff.1 (by omega : ys.length = 0)]; rfl

/-- What the loop of `buildList` leaves in the nodes. -/
theorem buildList_nodes (h : ListHeap ι) (list : ι) (nb : UInt32) (b : Nat) :
    (h.buildList list nb).nodes b = if b < nb.toNat then
      ⟨if b = 0 then none else some (b - 1), if b = (nb - 1).toNat then none else some (b + 1), some list⟩
    else h.nodes b := by
  unfold buildList
  simp only [setLast_nodes, setFirst_nodes]
  generalize nb.toNat = n
  induction n with
  | zero => rfl
  | succ n ih =>
    rw [List.range_succ, List.foldl_append, List.foldl_cons, List.foldl_nil]
    generalize (List.range n).foldl _ h = g at ih ⊢
    have hset : ∀ p q, (((g.setPrev (some n) p).setNext (some n) q).setParent n list).nodes b =
        if b = n then ⟨p, q, some list⟩ else g.nodes b := by
      intro p q
      unfold setParent setNext setPrev
      by_cases hb : b = n
      · subst hb; simp
      · simp [hb, Ne.symm hb]
    rw [hset, ih]
    rcases Nat.lt_trichotomy b n with hb | rfl | hb
    · rw [if_neg hb.ne, if_pos hb, if_pos (Nat.lt_succ_of_lt hb)]
    · rw [if_pos rfl, if_pos (Nat.lt_succ_self b)]
    · rw [if_neg hb.ne', if_neg (Nat.not_lt_of_lt hb), if_neg (Nat.not_lt.2 hb)]

theorem buildList_lists (h : ListHeap ι) (list : ι) (nb : UInt32) (l : ι) :
    (h.buildList list nb).lists l =
      if l = list then ⟨some 0, some (nb - 1).toNat⟩ else h.lists l := by
  have hloop : ∀ is : List Nat, ∀ g : ListHeap ι, (is.foldl (fun h i =>
      let h := h.setPrev (some i) (if i = 0 then none else some (i - 1))
      let h := h.setNext (some i) (if i = (nb - 1).toNat then none else some (i + 1))
      h.setParent i list) g).lists = g.lists := by
    intro is
    induction is with
    | nil => intro g; rfl
    | cons i is ih => intro g; rw [List.foldl_cons, ih]; rfl
  unfold buildList setLast setFirst
  dsimp only
  split
  · rfl
  · rw [hloop]

theorem buildList_represents (list : ι) {nb : UInt32} (hnb : 0 < nb) :
    ((empty : ListHeap ι).buildList list nb).Represents (poolLanes list nb.toNat) := by
  have hpos : 0 < nb.toNat := UInt32.lt_iff_toNat_lt.1 hnb
  have hlast : (nb - 1).toNat = nb.toNat - 1 := by
    rw [UInt32.toNat_sub_of_le _ _ (UInt32.le_iff_toNat_le.2 (by simpa using Nat.succ_le_of_lt hpos))]; rfl
  have hsplit : ∀ {l xs a ys}, poolLanes list nb.toNat l = xs ++ a :: ys →
      a < nb.toNat ∧ xs = List.range a ∧ ys.head? = if a + 1 < nb.toNat then some (a + 1) else none := by
    intro l xs a ys hL
    unfold poolLanes at hL
    split at hL
    · exact ⟨List.mem_range.1 (by rw [hL]; simp), range_split hL⟩
    · simp at hL
  refine ⟨fun l => ?_, fun l => ?_, ?_, ?_, ?_, fun l => ?_⟩
  · rw [buildList_lists]
    unfold poolLanes
    split
    · simp [List.head?_range, hpos.ne']
    · rfl
  · rw [buildList_lists]
    unfold poolLanes
    split
    · simp [List.getLast?_range, hpos.ne', hlast]
    · rfl
  · intro l xs a ys hL
    obtain ⟨ha, rfl, -⟩ := hsplit hL
    rw [buildList_nodes, if_pos ha, List.getLast?_range]
  · intro l xs a ys hL
    obtain ⟨ha, -, hys⟩ := hsplit hL
    rw [buildList_nodes, if_pos ha, hys, hlast]
    dsimp only
    split_ifs <;> first | rfl | omega
  · intro l a ha
    unfold poolLanes at ha
    split at ha
    · next hl => rw [buildList_nodes, if_pos (List.mem_range.1 ha), hl]
    · simp at ha
  · unfold poolLanes
    split
    · exact List.nodup_range
    · exact List.nodup_nil

end relink

/-! ## Reading the lists back -/

/-- The nodes met from `p` along `next`, when the walk ends within `fuel` nodes. -/
def walkNext (h : ListHeap ι) : Nat → Option Nat → Option (List Nat)
  | _, none => some []
  | 0, some _ => none
  | fuel + 1, some a => (walkNext h fuel (h.nodes a).next).map (a :: ·)

/-- The nodes met from `p` along `prev`, when the walk ends within `fuel` nodes. -/
def walkPrev (h : ListHeap ι) : Nat → Option Nat → Option (List Nat)
  | _, none => some []
  | 0, some _ => none
  | fuel + 1, some a => (walkPrev h fuel (h.nodes a).prev).map (a :: ·)

theorem Represents.walkNext {h : ListHeap ι} {L : Lanes ι Nat} (r : h.Represents L) {l : ι} :
    ∀ (xs ys : List Nat) (fuel : Nat), L l = xs ++ ys → ys.length ≤ fuel → h.walkNext fuel ys.head? = some ys
  | _, [], fuel, _, _ => by cases fuel <;> rfl
  | xs, a :: ys, fuel + 1, hL, hf => by
    have ih := Represents.walkNext r (xs ++ [a]) ys fuel (by rw [hL]; simp) (Nat.le_of_succ_le_succ hf)
    show (h.walkNext fuel (h.nodes a).next).map (a :: ·) = some (a :: ys)
    rw [r.next hL, ih]; rfl

theorem Represents.walkPrev {h : ListHeap ι} {L : Lanes ι Nat} (r : h.Represents L) {l : ι} :
    ∀ (ys xs : List Nat) (fuel : Nat), L l = xs.reverse ++ ys → xs.length ≤ fuel →
      h.walkPrev fuel xs.head? = some xs
  | _, [], fuel, _, _ => by cases fuel <;> rfl
  | ys, a :: xs, fuel + 1, hL, hf => by
    have hL' : L l = xs.reverse ++ a :: ys := by rw [hL]; simp
    have ih := Represents.walkPrev r (a :: ys) xs fuel hL' (Nat.le_of_succ_le_succ hf)
    show (h.walkPrev fuel (h.nodes a).prev).map (a :: ·) = some (a :: xs)
    rw [r.prev hL', List.getLast?_reverse, ih]; rfl

/-- The lists of a heap read pointer by pointer: they partition the pool of `nb` nodes, and every
link, end and parent pointer agrees with them. -/
structure ListsIntact (h : ListHeap ι) (nb : Nat) : Prop where
  walks : ∀ l, ∃ xs, h.walkNext nb (h.lists l).first = some xs ∧
    h.walkPrev nb (h.lists l).last = some xs.reverse ∧ xs.Nodup ∧
    ∀ a ∈ xs, a < nb ∧ (h.nodes a).parent = some l
  partition : ∀ a < nb, ∃! l, ∃ xs, h.walkNext nb (h.lists l).first = some xs ∧ a ∈ xs
  inverse : ∀ a < nb, ∀ b < nb, (h.nodes a).next = some b ↔ (h.nodes b).prev = some a
  ends : ∀ l, (h.lists l).first = none ↔ (h.lists l).last = none

/-- The pool of `nb` nodes is shared out among the lanes. -/
structure Covers (L : Lanes ι Nat) (nb : Nat) : Prop where
  mem : ∀ a, (∃ l, a ∈ L l) ↔ a < nb

theorem Represents.walks_eq {h : ListHeap ι} {L : Lanes ι Nat} (r : h.Represents L) {nb : Nat}
    (hc : Covers L nb) (l : ι) :
    h.walkNext nb (h.lists l).first = some (L l) ∧ h.walkPrev nb (h.lists l).last = some (L l).reverse := by
  have hlen : (L l).length ≤ nb := by
    have hsub : L l ⊆ List.range nb := fun a ha => List.mem_range.2 ((hc.mem a).1 ⟨l, ha⟩)
    simpa using (List.subperm_of_subset (r.nodup l) hsub).length_le
  refine ⟨?_, ?_⟩
  · rw [r.first]; exact r.walkNext [] _ _ rfl hlen
  · rw [r.last, ← List.head?_reverse]
    exact r.walkPrev (l := l) [] _ _ (by simp) (by simpa using hlen)

theorem Represents.next_some_iff {h : ListHeap ι} {L : Lanes ι Nat} (r : h.Represents L) {l : ι} {a b : Nat}
    (ha : a ∈ L l) : (h.nodes a).next = some b ↔ ∃ xs ys, L l = xs ++ a :: b :: ys := by
  constructor
  · intro hn
    obtain ⟨xs, ys, hL⟩ := List.append_of_mem ha
    rw [r.next hL] at hn
    cases ys with
    | nil => cases hn
    | cons y ys => obtain rfl : y = b := by simpa using hn
                   exact ⟨xs, ys, hL⟩
  · rintro ⟨xs, ys, hL⟩
    rw [r.next hL]; rfl

theorem Represents.prev_some_iff {h : ListHeap ι} {L : Lanes ι Nat} (r : h.Represents L) {l : ι} {a b : Nat}
    (hb : b ∈ L l) : (h.nodes b).prev = some a ↔ ∃ xs ys, L l = xs ++ a :: b :: ys := by
  constructor
  · intro hp
    obtain ⟨xs, ys, hL⟩ := List.append_of_mem hb
    rw [r.prev hL] at hp
    obtain ⟨zs, rfl⟩ := List.getLast?_eq_some_iff.1 hp
    exact ⟨zs, ys, by rw [hL]; simp⟩
  · rintro ⟨xs, ys, hL⟩
    have hL' : L l = (xs ++ [a]) ++ b :: ys := by rw [hL]; simp
    rw [r.prev hL']; simp

/-- A heap that represents lanes sharing out the pool is intact. -/
theorem Represents.listsIntact {h : ListHeap ι} {L : Lanes ι Nat} (r : h.Represents L) {nb : Nat}
    (hc : Covers L nb) : h.ListsIntact nb := by
  refine ⟨fun l => ?_, fun a ha => ?_, fun a ha b hb => ?_, fun l => ?_⟩
  · obtain ⟨h1, h2⟩ := r.walks_eq hc l
    exact ⟨L l, h1, h2, r.nodup l, fun a ha => ⟨(hc.mem a).1 ⟨l, ha⟩, r.parent ha⟩⟩
  · obtain ⟨l, hl⟩ := (hc.mem a).2 ha
    refine ⟨l, ⟨L l, (r.walks_eq hc l).1, hl⟩, ?_⟩
    rintro l' ⟨xs, hw, hx⟩
    rw [(r.walks_eq hc l').1] at hw
    cases hw
    exact r.wf.unique hx hl
  · obtain ⟨l, hl⟩ := (hc.mem a).2 ha
    obtain ⟨l', hl'⟩ := (hc.mem b).2 hb
    rw [r.next_some_iff hl, r.prev_some_iff hl']
    -- two neighbours are in one list
    constructor
    · rintro ⟨xs, ys, hL⟩
      obtain rfl : l = l' := r.wf.unique (by rw [hL]; simp) hl'
      exact ⟨xs, ys, hL⟩
    · rintro ⟨xs, ys, hL⟩
      obtain rfl : l' = l := r.wf.unique (by rw [hL]; simp) hl
      exact ⟨xs, ys, hL⟩
  · rw [r.first, r.last]; simp

/-! ## Runs -/

variable [DecidableEq ι]

/-- A call of the two functions that relink nodes. -/
inductive ListOp (ι : Type)
  | moveNode (node : Nat) (dst : ι) (back : Bool)
  | allocateNode (inUse free : ι) (back : Bool)

namespace ListOp

/-- The node a call relinks and the heap it leaves. -/
def apply (h : ListHeap ι) : ListOp ι → Option (Nat × ListHeap ι)
  | .moveNode node dst back => (h.moveNode node dst back).map (node, ·)
  | .allocateNode inUse free back => h.allocateNode inUse free back

/-- The call names a node of the pool. -/
def InPool (nb : Nat) : ListOp ι → Prop
  | .moveNode node _ _ => node < nb
  | .allocateNode _ _ _ => True

end ListOp

/-- A sequence of calls, with the nodes they relinked. -/
def run (h : ListHeap ι) : List (ListOp ι) → Option (List Nat × ListHeap ι)
  | [] => some ([], h)
  | op :: ops =>
    match op.apply h with
    | none => none
    | some (a, h1) => (run h1 ops).map fun r => (a :: r.1, r.2)

theorem Covers.move {L : Lanes ι Nat} {nb : Nat} (hc : Covers L nb) {src : ι} {a : Nat} (ha : a ∈ L src)
    (dst : ι) (back : Bool) : Covers (L.move a dst back) nb :=
  ⟨fun b => (Lanes.exists_mem_move ⟨src, ha⟩).trans (hc.mem b)⟩

/-- What one call does to the lanes. -/
theorem apply_spec {h : ListHeap ι} {L : Lanes ι Nat} (r : h.Represents L) {nb : Nat} (hc : Covers L nb)
    {op : ListOp ι} (hop : op.InPool nb) :
    (∃ a dst back h', op.apply h = some (a, h') ∧ (∃ src, a ∈ L src) ∧ h'.Represents (L.move a dst back)) ∨
    (∃ inUse free back, op = .allocateNode inUse free back ∧ L free = [] ∧ op.apply h = none) := by
  cases op with
  | moveNode node dst back =>
    obtain ⟨src, hs⟩ := (hc.mem node).2 hop
    obtain ⟨h', hm, r'⟩ := moveNode_represents r hs dst back
    exact .inl ⟨node, dst, back, h', by simp [ListOp.apply, hm], ⟨src, hs⟩, r'⟩
  | allocateNode inUse free back =>
    rcases hf : (L free).head? with - | a
    · rw [List.head?_eq_none_iff] at hf
      exact .inr ⟨inUse, free, back, rfl, hf, allocateNode_none r hf back⟩
    · obtain ⟨h', hm, r'⟩ := allocateNode_represents r hf inUse back
      exact .inl ⟨a, inUse, back, h', hm, ⟨free, List.mem_of_head? hf⟩, r'⟩

theorem run_spec : ∀ {ops : List (ListOp ι)} {h h' : ListHeap ι} {L : Lanes ι Nat} {nb : Nat} {moved : List Nat},
    h.Represents L → Covers L nb → (∀ op ∈ ops, op.InPool nb) → h.run ops = some (moved, h') →
    ∃ L', h'.Represents L' ∧ Covers L' nb ∧
      ∀ l, (L' l).filter (· ∉ moved) = (L l).filter (· ∉ moved)
  | [], h, h', L, nb, moved, r, hc, _, hr => by
    cases hr
    exact ⟨L, r, hc, fun _ => rfl⟩
  | op :: ops, h, h', L, nb, moved, r, hc, hops, hr => by
    unfold run at hr
    rcases apply_spec r hc (hops op List.mem_cons_self) with ⟨a, dst, back, h1, hap, ⟨src, hs⟩, r1⟩ | ⟨_, _, _, _, _, hap⟩
    · rw [hap] at hr
      obtain ⟨⟨moved', h2⟩, hr', heq⟩ := Option.map_eq_some_iff.1 hr
      obtain ⟨rfl, rfl⟩ := Prod.mk.injEq .. ▸ heq
      obtain ⟨L', r', hc', hord⟩ := run_spec r1 (hc.move hs dst back)
        (fun op h => hops op (List.mem_cons_of_mem _ h)) hr'
      refine ⟨L', r', hc', fun l => ?_⟩
      have hsplit : ∀ xs : List Nat, xs.filter (· ∉ a :: moved') = (xs.filter (· ≠ a)).filter (· ∉ moved') := by
        intro xs
        rw [List.filter_filter]
        exact List.filter_congr fun b _ => by simp [Bool.and_comm]
      -- the order of the rest after the call, then after the calls that follow
      rw [hsplit, hsplit, ← Lanes.move_order L a dst back l, List.filter_comm, hord l, List.filter_comm]
    · rw [hap] at hr; cases hr

theorem covers_poolLanes (list : ι) (nb : Nat) : Covers (poolLanes list nb) nb := by
  refine ⟨fun a => ⟨?_, fun ha => ⟨list, by simpa [poolLanes] using ha⟩⟩⟩
  rintro ⟨l, hl⟩
  unfold poolLanes at hl
  split at hl
  · exact List.mem_range.1 hl
  · simp at hl

/-- From `buildList` over a pool of at least one node, after any calls naming nodes of the pool:
the lists are intact, further calls leave the order of the nodes they do not relink alone, and
the next call returns unless it allocates from an empty list. -/
theorem run_listsIntact (list : ι) (nb : UInt32) (hnb : 0 < nb) (ops : List (ListOp ι))
    (hops : ∀ op ∈ ops, op.InPool nb.toNat) (moved : List Nat) (h : ListHeap ι)
    (hr : ((empty : ListHeap ι).buildList list nb).run ops = some (moved, h)) :
    h.ListsIntact nb.toNat ∧
    (∀ more moved' h', (∀ op ∈ more, op.InPool nb.toNat) → h.run more = some (moved', h') →
      ∀ l xs xs', h.walkNext nb.toNat (h.lists l).first = some xs →
        h'.walkNext nb.toNat (h'.lists l).first = some xs' →
        xs'.filter (· ∉ moved') = xs.filter (· ∉ moved')) ∧
    ∀ op : ListOp ι, op.InPool nb.toNat → (op.apply h = none ↔
      ∃ inUse free back, op = .allocateNode inUse free back ∧ (h.lists free).first = none) := by
  obtain ⟨L, r, hc, -⟩ := run_spec (buildList_represents list hnb) (covers_poolLanes list nb.toNat) hops hr
  refine ⟨r.listsIntact hc, ?_, fun op hop => ?_⟩
  · intro more moved' h' hmore hr' l xs xs' hx hx'
    obtain ⟨L', r', hc', hord⟩ := run_spec r hc hmore hr'
    rw [(r.walks_eq hc l).1] at hx
    rw [(r'.walks_eq hc' l).1] at hx'
    cases hx; cases hx'
    exact hord l
  · constructor
    · intro hnone
      rcases apply_spec r hc hop with ⟨a, dst, back, h1, hap, -⟩ | ⟨inUse, free, back, rfl, hf, -⟩
      · rw [hap] at hnone; cases hnone
      · exact ⟨inUse, free, back, rfl, by rw [r.first, hf]; rfl⟩
    · rintro ⟨inUse, free, back, rfl, hf⟩
      rw [r.first, List.head?_eq_none_iff] at hf
      exact allocateNode_none r hf back

/-- Two lists over a pool of three: a node is taken, the others follow, one goes back. -/
theorem run_listsIntact_three : ∃ moved h,
    ((empty : ListHeap Bool).buildList false 3).run
      [.allocateNode true false false, .moveNode 2 true true, .moveNode 1 true false, .moveNode 0 false true] =
        some (moved, h) ∧
    h.ListsIntact (3 : UInt32).toNat := by
  obtain ⟨⟨moved, h⟩, hr⟩ := Option.isSome_iff_exists.1 (show
    (((empty : ListHeap Bool).buildList false 3).run [.allocateNode true false false, .moveNode 2 true true,
      .moveNode 1 true false, .moveNode 0 false true]).isSome = true by decide)
  exact ⟨moved, h, hr, (run_listsIntact false 3 (by decide) _ (by simp [ListOp.InPool]) moved h hr).1⟩

/-- Over a pool without nodes the free list starts at memory that is no node of the pool. -/
theorem buildList_zero_not_intact : ¬ ((empty : ListHeap Unit).buildList () 0).ListsIntact 0 := by
  rintro ⟨walks, -, -, -⟩
  obtain ⟨xs, hw, -⟩ := walks ()
  cases hw

end ListHeap

end Omiiba.Sm
