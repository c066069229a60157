/-
The list of processes in its buffer, after intrusive_list.h, process_data.h and process_data.c, and the array of handles
that the monitor builds from it.
-/
import Omiiba.Lib.Intrusive
import Omiiba.Pm.ProcessData

namespace Omiiba.Pm

open Intrusive

/-! ## The code -/

/-- Where a node is: in the head of a list, or in an element of the buffer. -/
inductive Place (n : Nat) where
  | list
  | freeList
  | slot (i : Fin n)
  deriving DecidableEq

/-- What the monitor reads of a `ProcessData`. -/
structure Monitored where
  handle : UInt32
  terminationStatus : TerminationStatus

/-- `ProcessList`, over a buffer of `n` elements. -/
structure ProcessList (n : Nat) where
  links : Links (Place n)
  data : Fin n → Monitored

namespace ProcessList

variable {n : Nat}

/-- The loop of `IntrusiveList_CreateFromBuffer`, over the elements that are left. -/
def createFromBuffer : List (Fin n) → Links (Place n) → Option (Links (Place n))
  | [], links => some links
  | i :: rest, links => do
    let last ← links.prev .freeList
    let links ← links.insertAfter last (.slot i)
    createFromBuffer rest links

/-- `ProcessList_Init`, whatever is in the memory. -/
def init (list : ProcessList n) : Option (ProcessList n) := do
  let links := list.links.init .list
  let links := links.init .freeList
  let links ← createFromBuffer (List.finRange n) links
  return { list with links := links }

/-- `memset` of a `ProcessData`, its node included. -/
def clear (place : Place n) (list : ProcessList n) : ProcessList n where
  links := (list.links.setPrev place none).setNext place none
  data i := if place = .slot i then ⟨0, .running⟩ else list.data i

/-- `ProcessList_New`: the element, if there is one. -/
def new (list : ProcessList n) : Option (Option (Place n) × ProcessList n) := do
  let nd ← list.links.next .freeList
  if nd = .freeList then return (none, list)
  let links ← list.links.erase nd
  let list := clear nd { list with links := links }
  let last ← list.links.prev .list
  let links ← list.links.insertAfter last nd
  return (some nd, { list with links := links })

/-- `ProcessList_Delete`. -/
def delete (process : Place n) (list : ProcessList n) : Option (ProcessList n) := do
  let links ← list.links.erase process
  let first ← links.next .freeList
  let links ← links.insertAfter first process
  return { list with links := links }

/-- How many elements `processDataBuffer` has; `Manager_Init` gets it with them. -/
def processDataNum : Nat := 0x40

/-- The size of `handles`. -/
def handlesSize : Nat := 0x41

/-- `FOREACH_PROCESS` of `processMonitor` from `place` on, with the handles there are already. There is no result where a
handle is written behind the array, nor where the list does not end in `fuel` rounds. -/
def rebuildHandles (list : ProcessList n) : (fuel : Nat) → Place n → List UInt32 → Option (List UInt32)
  | 0, _, _ => none
  | _ + 1, .list, handles => some handles
  -- The head of the other list is no element; it would be read as one.
  | _ + 1, .freeList, _ => none
  | fuel + 1, .slot i, handles => do
    let next ← list.links.next (.slot i)
    if (list.data i).terminationStatus ≠ .terminated then
      if handles.length < handlesSize then list.rebuildHandles fuel next (handles ++ [(list.data i).handle]) else none
    else list.rebuildHandles fuel next handles

/-- The array of the monitor, of which `g_manager.newProcessEvent` is the first entry. -/
def handles (list : ProcessList n) (newProcessEvent : UInt32) (fuel : Nat) : Option (List UInt32) := do
  let first ← list.links.next .list
  list.rebuildHandles fuel first [newProcessEvent]

end ProcessList

/-! ## Its users -/

/-- What is done with a list. Between the calls the fields of the elements are written. -/
inductive ListCall (n : Nat) where
  | new
  | delete (i : Fin n)
  | store (i : Fin n) (process : Monitored)

/-- What happened to an element. -/
inductive ListEvent (n : Nat) where
  | created (i : Fin n)
  | deleted (i : Fin n)

/-- A list, and what happened, the last first. -/
structure ListRun (n : Nat) where
  list : ProcessList n
  past : List (ListEvent n)

namespace ListRun

variable {n : Nat}

def step (run : ListRun n) : ListCall n → Option (ListRun n)
  | .new => do
    let (nd, list) ← run.list.new
    return ⟨list, match nd with
      | some (.slot i) => .created i :: run.past
      | _ => run.past⟩
  | .delete i => do
    let list ← run.list.delete (.slot i)
    return ⟨list, .deleted i :: run.past⟩
  | .store i process => some { run with list.data := Function.update run.list.data i process }

/-- The calls one after another. -/
def steps (run : ListRun n) (calls : List (ListCall n)) : Option (ListRun n) := calls.foldlM step run

/-- The elements in the order in which they were created, but for those that were deleted. -/
def survivors : List (ListEvent n) → List (Fin n)
  | [] => []
  | .created i :: past => survivors past ++ [i]
  | .deleted i :: past => (survivors past).erase i

/-- What is promised of a list: the elements are on the one list or on the other, the active ones in the order of their
creation, there is a new one unless all are active, and the monitor's array has room. -/
structure Consistent (run : ListRun n) : Prop where
  active : run.list.links.Linked .list ((survivors run.past).map .slot)
  free : ∃ free, run.list.links.Linked .freeList (free.map .slot) ∧
    (survivors run.past ++ free).Perm (List.finRange n)
  new_fails : ∃ nd list, run.list.new = some (nd, list) ∧ (nd = none ↔ (survivors run.past).length = n)
  monitor : n ≤ ProcessList.processDataNum → ∀ newProcessEvent fuel, n < fuel → ∃ handles,
    run.list.handles newProcessEvent fuel = some handles ∧ handles.length ≤ ProcessList.handlesSize

end ListRun

/-! ## Both lists -/

section

variable {n : Nat} {list : ProcessList n} {links : Links (Place n)} {active free out : List (Fin n)} {i : Fin n}

/-- The two lists, and that they have every element between them but those in `out`. -/
structure Parted (links : Links (Place n)) (active free out : List (Fin n)) : Prop where
  list : links.Linked .list (active.map .slot)
  freeList : links.Linked .freeList (free.map .slot)
  all : (active ++ free ++ out).Perm (List.finRange n)

theorem Parted.nodup (h : Parted links active free out) : (active ++ free ++ out).Nodup :=
  h.all.nodup_iff.mpr (List.nodup_finRange n)

/-- Lists with different elements and heads have no node in common. -/
theorem places_apart {head head' : Place n} {xs ys : List (Fin n)} (hne : head ≠ head') (hhead : ∀ i, head ≠ .slot i)
    (hhead' : ∀ i, head' ≠ .slot i) (hdisjoint : ∀ i ∈ xs, i ∉ ys) :
    ∀ place ∈ head :: xs.map Place.slot, place ∉ head' :: ys.map Place.slot := by
  rintro place hmem hmem'
  rcases List.mem_cons.mp hmem with rfl | hmem
  · rcases List.mem_cons.mp hmem' with heq | hmem'
    · exact hne heq
    · obtain ⟨i, -, heq⟩ := List.mem_map.mp hmem'
      exact hhead i heq.symm
  · obtain ⟨i, hi, rfl⟩ := List.mem_map.mp hmem
    rcases List.mem_cons.mp hmem' with heq | hmem'
    · exact hhead' i heq.symm
    · obtain ⟨j, hj, heq⟩ := List.mem_map.mp hmem'
      exact hdisjoint i hi (Place.slot.inj heq ▸ hj)

theorem not_mem_places {head : Place n} {elements : List (Fin n)} (hhead : head ≠ .slot i) (hi : i ∉ elements) :
    Place.slot i ∉ head :: elements.map Place.slot := by
  simp [hhead.symm, hi]

/-- The counts of every element decide whether two ways to put lists together have the same elements. -/
theorem perm_of_count {xs ys : List (Fin n)} (h : ys.Perm (List.finRange n)) (hcount : ∀ i, xs.count i = ys.count i) :
    xs.Perm (List.finRange n) :=
  (List.perm_iff_count.mpr hcount).trans h

theorem Parted.active_disjoint (h : Parted links active free out) : ∀ i ∈ active, i ∉ free ∧ i ∉ out := by
  have hnodup := h.nodup
  simp only [List.nodup_append, List.mem_append] at hnodup
  intro i hi
  exact ⟨fun hmem => hnodup.1.2.2 i hi i hmem rfl, fun hmem => hnodup.2.2 i (Or.inl hi) i hmem rfl⟩

theorem Parted.free_disjoint (h : Parted links active free out) : ∀ i ∈ free, i ∉ active ∧ i ∉ out := by
  have hnodup := h.nodup
  simp only [List.nodup_append, List.mem_append] at hnodup
  intro i hi
  exact ⟨fun hmem => hnodup.1.2.2 i hmem i hi rfl, fun hmem => hnodup.2.2 i (Or.inr hi) i hmem rfl⟩

/-- An element is taken from the free list. -/
theorem Parted.erase_free {before behind : List (Fin n)} (h : Parted links active (before ++ i :: behind) []) :
    ∃ links', links.erase (.slot i) = some links' ∧ Parted links' active (before ++ behind) [i] := by
  have hfree := h.freeList
  rw [List.map_append, List.map_cons] at hfree
  obtain ⟨links', herase, hlinked, hoff⟩ := hfree.erase
  rw [← List.map_append] at hlinked hoff
  refine ⟨links', herase, h.list.frame hoff (places_apart (by simp) (by simp) (by simp) ?_), hlinked,
    perm_of_count h.all ?_⟩
  · intro j hj hmem
    have hnot := (h.active_disjoint j hj).1
    simp only [List.mem_append, List.mem_cons, not_or] at hnot hmem
    tauto
  · intro j
    simp only [List.count_append, List.count_cons, List.count_nil]
    omega

/-- An element is taken from the active list. -/
theorem Parted.erase_active {before behind : List (Fin n)} (h : Parted links (before ++ i :: behind) free []) :
    ∃ links', links.erase (.slot i) = some links' ∧ Parted links' (before ++ behind) free [i] := by
  have hactive := h.list
  rw [List.map_append, List.map_cons] at hactive
  obtain ⟨links', herase, hlinked, hoff⟩ := hactive.erase
  rw [← List.map_append] at hlinked hoff
  refine ⟨links', herase, hlinked, h.freeList.frame hoff (places_apart (by simp) (by simp) (by simp) ?_),
    perm_of_count h.all ?_⟩
  · intro j hj hmem
    have hnot := (h.free_disjoint j hj).1
    simp only [List.mem_append, List.mem_cons, not_or] at hnot hmem
    tauto
  · intro j
    simp only [List.count_append, List.count_cons, List.count_nil]
    omega

/-- An element that is in neither list becomes the last of the active ones. -/
theorem Parted.insert_active (h : Parted links active free [i]) : ∃ last links', links.prev .list = some last ∧
    links.insertAfter last (.slot i) = some links' ∧ Parted links' (active ++ [i]) free [] := by
  have hnew : i ∉ active := fun hmem => (h.active_disjoint i hmem).2 (by simp)
  obtain ⟨last, links', hlast, hinsert, hlinked, hoff⟩ := h.list.insert_last (not_mem_places (by simp) hnew)
  have hoff' : Links.AgreeOff (.list :: (i :: active).map .slot) links links' := hoff.mono fun place hmem => by
    simp only [List.map_cons, List.mem_cons] at hmem ⊢
    tauto
  refine ⟨last, links', hlast, hinsert, by simpa using hlinked,
    h.freeList.frame hoff' (places_apart (by simp) (by simp) (by simp) ?_), perm_of_count h.all ?_⟩
  · intro j hj hmem
    have hnot := h.free_disjoint j hj
    simp only [List.mem_cons, List.not_mem_nil, or_false] at hnot hmem
    tauto
  · intro j
    simp only [List.count_append, List.count_cons, List.count_nil]
    omega

/-- Or the second of the free ones. -/
theorem Parted.insert_free (h : Parted links active free [i]) : ∃ first links', links.next .freeList = some first ∧
    links.insertAfter first (.slot i) = some links' ∧ Parted links' active (free.take 1 ++ i :: free.drop 1) [] := by
  have hnew : i ∉ free := fun hmem => (h.free_disjoint i hmem).2 (by simp)
  obtain ⟨first, links', hfirst, hinsert, hlinked, hoff⟩ := h.freeList.insert_second (not_mem_places (by simp) hnew)
  have hoff' : Links.AgreeOff (.freeList :: (i :: free).map .slot) links links' := hoff.mono fun place hmem => by
    simp only [List.map_cons, List.mem_cons] at hmem ⊢
    tauto
  refine ⟨first, links', hfirst, hinsert, h.list.frame hoff' (places_apart (by simp) (by simp) (by simp) ?_),
    by simpa [List.map_take, List.map_drop] using hlinked, perm_of_count h.all ?_⟩
  · intro j hj hmem
    have hnot := h.active_disjoint j hj
    simp only [List.mem_cons, List.not_mem_nil, or_false] at hnot hmem
    tauto
  · intro j
    have hsplit := congrArg (List.count j) (List.take_append_drop 1 free)
    simp only [List.count_append, List.count_cons, List.count_nil] at hsplit ⊢
    omega

/-! ## What the functions do -/

theorem createFromBuffer_linked : ∀ {rest done : List (Fin n)} {links : Links (Place n)}, (done ++ rest).Nodup →
    links.Linked .list [] → links.Linked .freeList (done.map .slot) → ∃ links',
      ProcessList.createFromBuffer rest links = some links' ∧ links'.Linked .list [] ∧
        links'.Linked .freeList ((done ++ rest).map .slot) := by
  intro rest
  induction rest with
  | nil => exact fun _ hlist hfree => ⟨_, rfl, hlist, by rwa [List.append_nil]⟩
  | cons i rest ih =>
    intro done links hnodup hlist hfree
    have hnew : i ∉ done := fun hmem => List.disjoint_of_nodup_append hnodup hmem List.mem_cons_self
    obtain ⟨last, links', hlast, hinsert, hlinked, hoff⟩ := hfree.insert_last (not_mem_places (by simp) hnew)
    have hlist' : links'.Linked .list [] := by
      refine hlist.frame hoff ?_
      rintro place hmem
      obtain rfl := List.mem_singleton.mp hmem
      simp
    rw [List.append_cons] at hnodup ⊢
    obtain ⟨links'', hrest, hboth⟩ := ih hnodup hlist' (by simpa using hlinked)
    exact ⟨links'', by simp only [ProcessList.createFromBuffer, hlast, hinsert, hrest, Option.bind_eq_bind, Option.bind_some],
      hboth⟩

theorem init_parted (list : ProcessList n) :
    ∃ list', list.init = some list' ∧ Parted list'.links [] (List.finRange n) [] := by
  have hlist : ((list.links.init .list).init .freeList).Linked .list [] := by
    refine (Links.linked_init .list list.links).frame (Links.agreeOff_init _ _) ?_
    rintro place hmem
    obtain rfl := List.mem_singleton.mp hmem
    simp
  obtain ⟨links', hcreate, hlist', hfree⟩ := @createFromBuffer_linked n (List.finRange n) [] _ (List.nodup_finRange n)
    hlist (Links.linked_init Place.freeList _)
  exact ⟨{ list with links := links' }, by simp only [ProcessList.init, hcreate]; rfl, hlist', hfree, by simp⟩

theorem Parted.clear (h : Parted links active free [i]) :
    Parted ((links.setPrev (.slot i) none).setNext (.slot i) none) active free [i] := by
  have hoff : Links.AgreeOff [.slot i] links ((links.setPrev (.slot i) none).setNext (.slot i) none) := by
    intro place hplace
    have hne : place ≠ .slot i := fun heq => hplace (by simp [heq])
    simp [Links.setPrev, Links.setNext, hne]
  refine ⟨h.list.frame hoff ?_, h.freeList.frame hoff ?_, h.all⟩
  · rintro place hmem hslot
    obtain rfl := List.mem_singleton.mp hslot
    exact not_mem_places (by simp) (fun hmem => (h.active_disjoint i hmem).2 (by simp)) hmem
  · rintro place hmem hslot
    obtain rfl := List.mem_singleton.mp hslot
    exact not_mem_places (by simp) (fun hmem => (h.free_disjoint i hmem).2 (by simp)) hmem

theorem new_none (h : Parted list.links active [] []) : list.new = some (none, list) := by
  simp [ProcessList.new, h.freeList.next_nil]

theorem new_some (h : Parted list.links active (i :: free) []) :
    ∃ list', list.new = some (some (.slot i), list') ∧ Parted list'.links (active ++ [i]) free [] := by
  obtain ⟨erased, herase, hparted⟩ := @Parted.erase_free n list.links active i [] free h
  obtain ⟨last, links', hlast, hinsert, hparted'⟩ := hparted.clear.insert_active
  have hfirst : list.links.next .freeList = some (.slot i) := h.freeList.next_cons
  refine ⟨⟨links', (ProcessList.clear (.slot i) { list with links := erased }).data⟩, ?_, hparted'⟩
  simp only [ProcessList.new, hfirst, Option.bind_eq_bind, Option.bind_some, reduceCtorEq, if_false, herase,
    ProcessList.clear, hlast, hinsert]
  rfl

theorem delete_some (h : Parted list.links active free []) (i : Fin n) :
    ∃ list' free', list.delete (.slot i) = some list' ∧ Parted list'.links (active.erase i) free' [] := by
  have hinserted : ∀ {links : Links (Place n)} {free : List (Fin n)}, list.links.erase (.slot i) = some links →
      Parted links (active.erase i) free [i] → ∃ list' free', list.delete (.slot i) = some list' ∧
        Parted list'.links (active.erase i) free' [] := by
    intro links free herase hparted
    obtain ⟨first, links', hfirst, hinsert, hparted'⟩ := hparted.insert_free
    refine ⟨{ list with links := links' }, _, ?_, hparted'⟩
    simp only [ProcessList.delete, herase, hfirst, hinsert, Option.bind_eq_bind, Option.bind_some]
    rfl
  have hmem : i ∈ active ++ free ++ [] := h.all.mem_iff.mpr (List.mem_finRange i)
  rw [List.append_nil, List.mem_append] at hmem
  rcases hmem with hmem | hmem
  · obtain ⟨before, behind, rfl⟩ := List.append_of_mem hmem
    obtain ⟨links', herase, hparted⟩ := h.erase_active
    have hnot : i ∉ before := by
      have hnodup := h.nodup
      rw [List.append_assoc, List.append_assoc] at hnodup
      exact fun hin => List.disjoint_of_nodup_append hnodup hin (by simp)
    have hactive : (before ++ i :: behind).erase i = before ++ behind := by
      rw [List.erase_append_right _ hnot, List.erase_cons_head]
    rw [hactive] at hinserted ⊢
    exact hinserted herase hparted
  · have hnot : i ∉ active := (h.free_disjoint i hmem).1
    obtain ⟨before, behind, rfl⟩ := List.append_of_mem hmem
    obtain ⟨links', herase, hparted⟩ := h.erase_free
    rw [List.erase_of_not_mem hnot] at hinserted ⊢
    exact hinserted herase hparted

/-- From the node behind `place` on the handles of the processes that have not terminated are added, where there is
room for them. -/
theorem rebuildHandles_eq (list : ProcessList n) {rest : List (Fin n)} : ∀ {place : Place n} {handles : List UInt32}
    {fuel : Nat}, list.links.Segment place (rest.map .slot) .list → rest.length < fuel →
    handles.length + rest.length ≤ ProcessList.handlesSize → ∃ next, list.links.next place = some next ∧
      list.rebuildHandles fuel next handles = some (handles ++ (rest.filter fun i =>
        (list.data i).terminationStatus ≠ .terminated).map fun i => (list.data i).handle) := by
  induction rest with
  | nil =>
    intro place handles fuel h hfuel hroom
    obtain ⟨fuel, rfl⟩ := Nat.exists_eq_add_of_lt hfuel
    exact ⟨.list, h.1, by simp [ProcessList.rebuildHandles]⟩
  | cons i rest ih =>
    intro place handles fuel h hfuel hroom
    obtain ⟨fuel, rfl⟩ : ∃ fuel', fuel = fuel' + 1 := ⟨fuel - 1, by omega⟩
    rw [List.length_cons] at hfuel hroom
    refine ⟨.slot i, h.1.1, ?_⟩
    by_cases halive : (list.data i).terminationStatus ≠ .terminated
    · have hlength : (handles ++ [(list.data i).handle]).length = handles.length + 1 := by simp
      obtain ⟨next, hnext, hrest⟩ := @ih (.slot i) (handles ++ [(list.data i).handle]) fuel h.2 (by omega) (by omega)
      have hroom' : handles.length < ProcessList.handlesSize := by omega
      simp only [ProcessList.rebuildHandles, hnext, Option.bind_eq_bind, Option.bind_some, if_pos halive, if_pos hroom',
        hrest]
      simp [halive]
    · obtain ⟨next, hnext, hrest⟩ := @ih (.slot i) handles fuel h.2 (by omega) (by omega)
      simp only [ProcessList.rebuildHandles, hnext, Option.bind_eq_bind, Option.bind_some, if_neg halive, hrest]
      simp [halive]

/-! ## Every sequence of calls -/

/-- The elements are on the two lists, the active ones as they were created. -/
def ListRun.Kept (run : ListRun n) : Prop := ∃ free, Parted run.list.links (ListRun.survivors run.past) free []

theorem step_kept {run : ListRun n} (h : run.Kept) (call : ListCall n) : ∃ run', run.step call = some run' ∧ run'.Kept := by
  obtain ⟨free, hparted⟩ := h
  cases call with
  | new =>
    cases free with
    | nil =>
      exact ⟨run, by simp [ListRun.step, new_none hparted], [], hparted⟩
    | cons i free =>
      obtain ⟨list', hnew, hparted'⟩ := new_some hparted
      exact ⟨⟨list', .created i :: run.past⟩, by simp [ListRun.step, hnew], free, hparted'⟩
  | delete i =>
    obtain ⟨list', free', hdelete, hparted'⟩ := delete_some hparted i
    exact ⟨⟨list', .deleted i :: run.past⟩, by simp [ListRun.step, hdelete], free', hparted'⟩
  | store i process => exact ⟨_, rfl, free, hparted⟩

theorem steps_kept {calls : List (ListCall n)} : ∀ {run : ListRun n}, run.Kept →
    ∃ run', run.steps calls = some run' ∧ run'.Kept := by
  induction calls with
  | nil => exact fun h => ⟨_, rfl, h⟩
  | cons call calls ih =>
    intro run h
    obtain ⟨run', hstep, hkept⟩ := step_kept h call
    obtain ⟨run'', hsteps, hkept'⟩ := ih hkept
    refine ⟨run'', ?_, hkept'⟩
    rw [ListRun.steps, List.foldlM_cons, hstep]
    exact hsteps

theorem ListRun.Kept.consistent {run : ListRun n} (h : run.Kept) : run.Consistent := by
  obtain ⟨free, hparted⟩ := h
  have hperm := hparted.all
  rw [List.append_nil] at hperm
  have hcount : (survivors run.past).length + free.length = n := by
    have hlength := hperm.length_eq
    rwa [List.length_append, List.length_finRange] at hlength
  refine ⟨hparted.list, ⟨free, hparted.freeList, hperm⟩, ?_, ?_⟩
  · cases free with
    | nil =>
      exact ⟨none, run.list, new_none hparted, iff_of_true rfl (by simpa using hcount)⟩
    | cons i free =>
      obtain ⟨list', hnew, -⟩ := new_some hparted
      refine ⟨some (.slot i), list', hnew, iff_of_false (by simp) ?_⟩
      rw [List.length_cons] at hcount
      omega
  · intro hn newProcessEvent fuel hfuel
    have hroom : [newProcessEvent].length + (survivors run.past).length ≤ ProcessList.handlesSize := by
      rw [List.length_singleton, ProcessList.handlesSize]
      rw [ProcessList.processDataNum] at hn
      omega
    obtain ⟨next, hnext, hhandles⟩ := @rebuildHandles_eq n run.list (survivors run.past) .list [newProcessEvent] fuel
      hparted.list.segment (by omega) hroom
    refine ⟨_, by rw [ProcessList.handles, hnext]; exact hhandles, ?_⟩
    rw [List.length_append, List.length_map]
    exact (Nat.add_le_add_left (List.length_filter_le _ _) _).trans hroom

/-- From the list that `ProcessList_Init` makes, whatever was in the memory, every sequence of calls leaves both lists as
they should be. -/
theorem processList_consistent (n : Nat) (list : ProcessList n) (calls : List (ListCall n)) :
    ∃ list' run, list.init = some list' ∧ ListRun.steps ⟨list', []⟩ calls = some run ∧ run.Consistent := by
  obtain ⟨list', hinit, hparted⟩ := init_parted list
  obtain ⟨run, hsteps, hkept⟩ := @steps_kept n calls ⟨list', []⟩ ⟨_, hparted⟩
  exact ⟨list', run, hinit, hsteps, hkept.consistent⟩

end

end Omiiba.Pm
