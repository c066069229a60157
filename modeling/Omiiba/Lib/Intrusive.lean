/-
Circular doubly linked lists whose links are in the nodes, with a head that is no element: what inserting and erasing do
to the list, and that they leave everything else alone.
-/
import Mathlib.Tactic

namespace Omiiba.Intrusive

variable {α : Type*} [DecidableEq α]

/-- The links of the nodes; `none` is `NULL`. -/
structure Links (α : Type*) where
  prev : α → Option α
  next : α → Option α

namespace Links

variable {l l' l'' : Links α} {a b head nd p x : α} {xs ys nodes touched : List α}

def setPrev (nd : α) (p : Option α) (l : Links α) : Links α := { l with prev := Function.update l.prev nd p }

def setNext (nd : α) (p : Option α) (l : Links α) : Links α := { l with next := Function.update l.next nd p }

/-- An empty list. -/
def init (head : α) (l : Links α) : Links α := (l.setPrev head (some head)).setNext head (some head)

/-- `nd` is put behind `pos`; there is no result where a `NULL` is followed. -/
def insertAfter (pos nd : α) (l : Links α) : Option (Links α) := do
  let next ← l.next pos
  let l := l.setPrev next (some nd)
  let l := l.setPrev nd (some pos)
  let l := l.setNext nd (l.next pos)
  return l.setNext pos (some nd)

/-- `nd` is left out; its own links stay. -/
def erase (nd : α) (l : Links α) : Option (Links α) := do
  let prev ← l.prev nd
  let l := l.setNext prev (l.next nd)
  let next ← l.next nd
  return l.setPrev next (l.prev nd)

/-! ## What is linked -/

/-- `b` comes after `a`, by both links. -/
def Joined (l : Links α) (a b : α) : Prop := l.next a = some b ∧ l.prev b = some a

/-- From `a` along `nodes` to `b`. -/
def Segment (l : Links α) (a : α) : List α → α → Prop
  | [], b => l.Joined a b
  | x :: nodes, b => l.Joined a x ∧ l.Segment x nodes b

/-- From the head around to the head. -/
structure Linked (l : Links α) (head : α) (nodes : List α) : Prop where
  segment : l.Segment head nodes head
  nodup : (head :: nodes).Nodup

/-- Only the links of the nodes in `touched` are different. -/
def AgreeOff (touched : List α) (l l' : Links α) : Prop :=
  ∀ a, a ∉ touched → l'.next a = l.next a ∧ l'.prev a = l.prev a

omit [DecidableEq α] in
omit [DecidableEq α] in
theorem AgreeOff.mono {touched' : List α} (h : AgreeOff touched l l') (hsub : touched ⊆ touched') :
    AgreeOff touched' l l' :=
  fun a ha => h a fun hmem => ha (hsub hmem)

omit [DecidableEq α] in
theorem segment_append : l.Segment a (xs ++ x :: ys) b ↔ l.Segment a xs x ∧ l.Segment x ys b := by
  induction xs generalizing a with
  | nil => exact Iff.rfl
  | cons y xs ih =>
    rw [List.cons_append, Segment, Segment, ih, and_assoc]

omit [DecidableEq α] in
/-- A segment depends on the forward links of its nodes but the last, and on the backward ones of all but the first. -/
theorem Segment.congr (h : l.Segment a nodes b) (hnext : ∀ c ∈ a :: nodes, l'.next c = l.next c)
    (hprev : ∀ c ∈ nodes ++ [b], l'.prev c = l.prev c) : l'.Segment a nodes b := by
  induction nodes generalizing a with
  | nil => exact ⟨(hnext a (by simp)).trans h.1, (hprev b (by simp)).trans h.2⟩
  | cons x nodes ih =>
    refine ⟨⟨(hnext a (by simp)).trans h.1.1, (hprev x (by simp)).trans h.1.2⟩, ih h.2 ?_ ?_⟩
    · exact fun c hc => hnext c (List.mem_cons_of_mem _ hc)
    · exact fun c hc => hprev c (List.mem_cons_of_mem _ hc)

omit [DecidableEq α] in
theorem Linked.frame (h : l.Linked head nodes) (hoff : AgreeOff touched l l')
    (hapart : ∀ a ∈ head :: nodes, a ∉ touched) : l'.Linked head nodes := by
  refine ⟨h.segment.congr (fun c hc => (hoff c (hapart c hc)).1) fun c hc => (hoff c (hapart c ?_)).2, h.nodup⟩
  rcases List.mem_append.mp hc with hmem | hmem
  · exact List.mem_cons_of_mem _ hmem
  · rw [List.mem_singleton.mp hmem]
    exact List.mem_cons_self

omit [DecidableEq α] in
/-- The circle can be read from any of its nodes. -/
theorem linked_rotate : l.Linked head (xs ++ p :: ys) ↔ l.Linked p (ys ++ head :: xs) := by
  have hperm : (head :: (xs ++ p :: ys)).Perm (p :: (ys ++ head :: xs)) := by
    have hswap := @List.perm_append_comm _ (head :: xs) (p :: ys)
    simpa using hswap
  constructor
  · rintro ⟨hsegment, hnodup⟩
    exact ⟨segment_append.mpr (segment_append.mp hsegment).symm, hperm.nodup_iff.mp hnodup⟩
  · rintro ⟨hsegment, hnodup⟩
    exact ⟨segment_append.mpr (segment_append.mp hsegment).symm, hperm.nodup_iff.mpr hnodup⟩

omit [DecidableEq α] in
theorem Linked.next_nil (h : l.Linked head []) : l.next head = some head := h.segment.1

omit [DecidableEq α] in
theorem Linked.next_cons (h : l.Linked head (x :: nodes)) : l.next head = some x := h.segment.1.1

omit [DecidableEq α] in
theorem Linked.prev_append (h : l.Linked head (nodes ++ [x])) : l.prev head = some x :=
  (segment_append.mp h.segment).2.2

theorem linked_init (head : α) (l : Links α) : (l.init head).Linked head [] := by
  refine ⟨⟨?_, ?_⟩, List.nodup_singleton head⟩ <;> simp [init, setPrev, setNext]

theorem agreeOff_init (head : α) (l : Links α) : AgreeOff [head] l (l.init head) := by
  intro a ha
  have hne : a ≠ head := fun heq => ha (by simp [heq])
  simp [init, setPrev, setNext, hne]

/-! ## Inserting -/

/-- The links after an insertion between `p` and `x`. -/
theorem insertAfter_eq (h : l.next p = some x) : l.insertAfter p nd = some
    ⟨Function.update (Function.update l.prev x (some nd)) nd (some p),
      Function.update (Function.update l.next nd (some x)) p (some nd)⟩ := by
  simp [insertAfter, setPrev, setNext, h]

/-- Behind the head. -/
theorem Linked.insert_first (h : l.Linked head nodes) (hnew : nd ∉ head :: nodes) :
    ∃ l', l.insertAfter head nd = some l' ∧ l'.Linked head (nd :: nodes) ∧ AgreeOff (nd :: head :: nodes) l l' := by
  have hne : nd ≠ head := fun heq => hnew (by simp [heq])
  have hnodup : (head :: nd :: nodes).Nodup := by
    have hhead := List.nodup_cons.mp h.nodup
    simp only [List.mem_cons, not_or] at hnew
    simp only [List.nodup_cons, List.mem_cons, not_or]
    exact ⟨⟨Ne.symm hne, hhead.1⟩, hnew.2, hhead.2⟩
  cases nodes with
  | nil =>
    refine ⟨_, insertAfter_eq h.next_nil, ⟨⟨⟨?_, ?_⟩, ?_, ?_⟩, hnodup⟩, ?_⟩
    · simp
    · simp
    · simp [hne]
    · simp [hne.symm]
    · intro a ha
      simp only [List.mem_cons, List.not_mem_nil, or_false, not_or] at ha
      simp [ha.1, ha.2]
  | cons x nodes =>
    have hx : x ≠ nd := fun heq => hnew (by simp [heq])
    refine ⟨_, insertAfter_eq h.next_cons, ⟨⟨⟨?_, ?_⟩, ⟨?_, ?_⟩, h.segment.2.congr ?_ ?_⟩, hnodup⟩, ?_⟩
    · simp
    · simp
    · simp [hne]
    · simp [hx]
    · -- The forward links of the others: neither the head nor the new node is among them.
      intro c hc
      have hhead : c ≠ head := fun heq => (List.nodup_cons.mp h.nodup).1 (heq ▸ hc)
      have hnd : c ≠ nd := fun heq => hnew (List.mem_cons_of_mem _ (heq ▸ hc))
      simp [hhead, hnd]
    · -- The backward ones: the first node is not among them.
      intro c hc
      have hcx : c ≠ x := by
        rintro rfl
        rcases List.mem_append.mp hc with hmem | hmem
        · exact (List.nodup_cons.mp (List.nodup_cons.mp h.nodup).2).1 hmem
        · exact (List.nodup_cons.mp h.nodup).1 (by simp [List.mem_singleton.mp hmem])
      have hnd : c ≠ nd := by
        rintro rfl
        rcases List.mem_append.mp hc with hmem | hmem
        · exact hnew (by simp [hmem])
        · exact hne (List.mem_singleton.mp hmem)
      simp [hcx, hnd]
    · intro a ha
      simp only [List.mem_cons, not_or] at ha
      simp [ha.1, ha.2.1, ha.2.2.1]

/-- Behind a node of the list. -/
theorem Linked.insert_after (h : l.Linked head (xs ++ p :: ys)) (hnew : nd ∉ head :: (xs ++ p :: ys)) :
    ∃ l', l.insertAfter p nd = some l' ∧ l'.Linked head (xs ++ p :: nd :: ys) ∧
      AgreeOff (nd :: head :: (xs ++ p :: ys)) l l' := by
  obtain ⟨l', hinsert, hlinked, hoff⟩ := (linked_rotate.mp h).insert_first (by
    simp only [List.mem_cons, List.mem_append, not_or] at hnew ⊢
    tauto)
  refine ⟨l', hinsert, linked_rotate.mpr hlinked, hoff.mono fun a ha => ?_⟩
  simp only [List.mem_cons, List.mem_append] at ha ⊢
  tauto

/-- Behind the last node, or the head of an empty list. -/
theorem Linked.insert_last (h : l.Linked head nodes) (hnew : nd ∉ head :: nodes) :
    ∃ last l', l.prev head = some last ∧ l.insertAfter last nd = some l' ∧ l'.Linked head (nodes ++ [nd]) ∧
      AgreeOff (nd :: head :: nodes) l l' := by
  rcases List.eq_nil_or_concat nodes with rfl | ⟨front, last, rfl⟩
  · obtain ⟨l', hinsert, hlinked, hoff⟩ := h.insert_first hnew
    exact ⟨head, l', h.segment.2, hinsert, hlinked, hoff⟩
  · rw [List.concat_eq_append] at h hnew ⊢
    obtain ⟨l', hinsert, hlinked, hoff⟩ := h.insert_after hnew
    exact ⟨last, l', h.prev_append, hinsert, by rwa [List.append_assoc], hoff⟩

/-- Behind the first node, or the head of an empty list. -/
theorem Linked.insert_second (h : l.Linked head nodes) (hnew : nd ∉ head :: nodes) :
    ∃ first l', l.next head = some first ∧ l.insertAfter first nd = some l' ∧
      l'.Linked head (nodes.take 1 ++ nd :: nodes.drop 1) ∧ AgreeOff (nd :: head :: nodes) l l' := by
  cases nodes with
  | nil =>
    obtain ⟨l', hinsert, hlinked, hoff⟩ := h.insert_first hnew
    exact ⟨head, l', h.next_nil, hinsert, hlinked, hoff⟩
  | cons first nodes =>
    obtain ⟨l', hinsert, hlinked, hoff⟩ := @Linked.insert_after _ _ _ _ _ _ [] _ h hnew
    exact ⟨first, l', h.next_cons, hinsert, hlinked, hoff⟩

/-! ## Erasing -/

/-- The links after `nd` is left out between `a` and `x`. -/
theorem erase_eq (hprev : l.prev nd = some a) (hnext : l.next nd = some x) (hne : nd ≠ a) : l.erase nd = some
    ⟨Function.update l.prev x (some a), Function.update l.next a (some x)⟩ := by
  simp [erase, setPrev, setNext, hprev, hnext, hne]

/-- The head itself: what is left begins with the node behind it. -/
theorem Linked.erase_head (h : l.Linked nd (x :: nodes)) :
    ∃ l', l.erase nd = some l' ∧ l'.Linked x nodes ∧ AgreeOff (x :: nodes) l l' := by
  have hnodup := List.nodup_cons.mp h.nodup
  rcases List.eq_nil_or_concat nodes with rfl | ⟨front, last, rfl⟩
  · have hne : nd ≠ x := fun heq => hnodup.1 (by simp [heq])
    refine ⟨_, erase_eq h.segment.2.2 h.segment.1.1 hne, ⟨⟨?_, ?_⟩, hnodup.2⟩, ?_⟩
    · simp
    · simp
    · intro a ha
      have hx : a ≠ x := fun heq => ha (by simp [heq])
      simp [hx]
  · rw [List.concat_eq_append] at h hnodup ⊢
    have hne : nd ≠ last := fun heq => hnodup.1 (by simp [heq])
    have hsegment := segment_append.mp h.segment.2
    refine ⟨_, erase_eq hsegment.2.2 h.segment.1.1 hne,
      ⟨segment_append.mpr ⟨hsegment.1.congr ?_ ?_, ?_, ?_⟩, hnodup.2⟩, ?_⟩
    · -- The last node's forward link goes to the first now.
      intro c hc
      have hlast : c ≠ last := by
        rintro rfl
        exact (List.disjoint_of_nodup_append (by simpa using hnodup.2 : (x :: front ++ [c]).Nodup)) hc (by simp)
      simp [hlast]
    · intro c hc
      have hx : c ≠ x := by
        rintro rfl
        exact (List.nodup_cons.mp hnodup.2).1 hc
      simp [hx]
    · simp
    · simp
    · intro a ha
      have hx : a ≠ x := fun heq => ha (by simp [heq])
      have hlast : a ≠ last := fun heq => ha (by simp [heq])
      simp [hx, hlast]

/-- A node of the list. -/
theorem Linked.erase (h : l.Linked head (xs ++ nd :: ys)) :
    ∃ l', l.erase nd = some l' ∧ l'.Linked head (xs ++ ys) ∧ AgreeOff (head :: (xs ++ ys)) l l' := by
  have hrotated := linked_rotate.mp h
  cases ys with
  | nil =>
    obtain ⟨l', herase, hlinked, hoff⟩ := hrotated.erase_head
    exact ⟨l', herase, by rwa [List.append_nil], by rwa [List.append_nil]⟩
  | cons y ys =>
    rw [List.cons_append] at hrotated
    obtain ⟨l', herase, hlinked, hoff⟩ := hrotated.erase_head
    refine ⟨l', herase, linked_rotate.mpr hlinked, hoff.mono fun a ha => ?_⟩
    simp only [List.mem_cons, List.mem_append] at ha ⊢
    tauto

end Links

end Omiiba.Intrusive
