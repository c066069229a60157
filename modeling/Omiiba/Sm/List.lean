/-
The intrusive doubly linked lists of list.c, pointer for pointer: `buildList`, `moveNode` and
`allocateNode` over a pool of nodes. The lists are lanes: a heap represents them when every
link, end and parent pointer says what the lanes say, and each function of list.c is one lane
operation on the lanes represented.
-/
import Omiiba.Lib.Lanes
import Mathlib.Tactic

namespace Omiiba.Sm

/-! ## list.c -/

/-- A node of a pool, named by its index there; `parent` points to one of the lists. -/
structure ListNodeBase (ι : Type) where
  prev : Option Nat
  next : Option Nat
  parent : Option ι

structure ListBase where
  first : Option Nat
  last : Option Nat

/-- The memory `list.c` works on: the nodes of one pool and the list heads. -/
structure ListHeap (ι : Type) where
  nodes : Nat → ListNodeBase ι
  lists : ι → ListBase

namespace ListHeap

variable {ι : Type}

/-- `if(p != NULL) p->prev = v`. -/
def setPrev (h : ListHeap ι) (p v : Option Nat) : ListHeap ι :=
  { h with nodes := fun b => if p = some b then { h.nodes b with prev := v } else h.nodes b }

/-- `if(p != NULL) p->next = v`. -/
def setNext (h : ListHeap ι) (p v : Option Nat) : ListHeap ι :=
  { h with nodes := fun b => if p = some b then { h.nodes b with next := v } else h.nodes b }

def setParent (h : ListHeap ι) (a : Nat) (v : ι) : ListHeap ι :=
  { h with nodes := fun b => if b = a then { h.nodes b with parent := some v } else h.nodes b }

/-- Static memory before `initSystem`. -/
def empty : ListHeap ι := ⟨fun _ => ⟨none, none, none⟩, fun _ => ⟨none, none⟩⟩

section setters

variable (h : ListHeap ι) (a b : Nat) (p v : Option Nat) (w : ι)

@[simp] theorem setPrev_prev : ((h.setPrev p v).nodes b).prev = if p = some b then v else (h.nodes b).prev := by
  unfold setPrev; dsimp only; split <;> rfl

@[simp] theorem setPrev_next : ((h.setPrev p v).nodes b).next = (h.nodes b).next := by
  unfold setPrev; dsimp only; split <;> rfl

@[simp] theorem setPrev_parent : ((h.setPrev p v).nodes b).parent = (h.nodes b).parent := by
  unfold setPrev; dsimp only; split <;> rfl

@[simp] theorem setPrev_lists : (h.setPrev p v).lists = h.lists := rfl

@[simp] theorem setNext_prev : ((h.setNext p v).nodes b).prev = (h.nodes b).prev := by
  unfold setNext; dsimp only; split <;> rfl

@[simp] theorem setNext_next : ((h.setNext p v).nodes b).next = if p = some b then v else (h.nodes b).next := by
  unfold setNext; dsimp only; split <;> rfl

@[simp] theorem setNext_parent : ((h.setNext p v).nodes b).parent = (h.nodes b).parent := by
  unfold setNext; dsimp only; split <;> rfl

@[simp] theorem setNext_lists : (h.setNext p v).lists = h.lists := rfl

@[simp] theorem setParent_prev : ((h.setParent a w).nodes b).prev = (h.nodes b).prev := by
  unfold setParent; dsimp only; split <;> rfl

@[simp] theorem setParent_next : ((h.setParent a w).nodes b).next = (h.nodes b).next := by
  unfold setParent; dsimp only; split <;> rfl

@[simp] theorem setParent_parent :
    ((h.setParent a w).nodes b).parent = if b = a then some w else (h.nodes b).parent := by
  unfold setParent; dsimp only; split <;> rfl

@[simp] theorem setParent_lists : (h.setParent a w).lists = h.lists := rfl

end setters

variable [DecidableEq ι]

def setFirst (h : ListHeap ι) (l : ι) (v : Option Nat) : ListHeap ι :=
  { h with lists := fun m => if m = l then { h.lists m with first := v } else h.lists m }

def setLast (h : ListHeap ι) (l : ι) (v : Option Nat) : ListHeap ι :=
  { h with lists := fun m => if m = l then { h.lists m with last := v } else h.lists m }

section heads

variable (h : ListHeap ι) (l m : ι) (v : Option Nat)

@[simp] theorem setFirst_first : ((h.setFirst l v).lists m).first = if m = l then v else (h.lists m).first := by
  unfold setFirst; dsimp only; split <;> rfl

@[simp] theorem setFirst_last : ((h.setFirst l v).lists m).last = (h.lists m).last := by
  unfold setFirst; dsimp only; split <;> rfl

@[simp] theorem setFirst_nodes : (h.setFirst l v).nodes = h.nodes := rfl

@[simp] theorem setLast_first : ((h.setLast l v).lists m).first = (h.lists m).first := by
  unfold setLast; dsimp only; split <;> rfl

@[simp] theorem setLast_last : ((h.setLast l v).lists m).last = if m = l then v else (h.lists m).last := by
  unfold setLast; dsimp only; split <;> rfl

@[simp] theorem setLast_nodes : (h.setLast l v).nodes = h.nodes := rfl

end heads

/-- `buildList`; `nb - 1` is unsigned 32-bit arithmetic. -/
def buildList (h : ListHeap ι) (list : ι) (nb : UInt32) : ListHeap ι :=
  let h := (List.range nb.toNat).foldl (fun h i =>
    let h := h.setPrev (some i) (if i = 0 then none else some (i - 1))
    let h := h.setNext (some i) (if i = (nb - 1).toNat then none else some (i + 1))
    h.setParent i list) h
  (h.setFirst list (some 0)).setLast list (some (nb - 1).toNat)

/-- "Remove the node in the source list", "Update the source list if needed". -/
def unlink (h : ListHeap ι) (node : Nat) (src : ι) : ListHeap ι :=
  let h := h.setNext (h.nodes node).prev (h.nodes node).next
  let h := h.setPrev (h.nodes node).next (h.nodes node).prev
  let h := if (h.lists src).first = some node then h.setFirst src (h.nodes node).next else h
  if (h.lists src).last = some node then h.setLast src (h.nodes node).prev else h

/-- "Insert the node in the destination list". -/
def insert (h : ListHeap ι) (node : Nat) (dst : ι) (back : Bool) : ListHeap ι :=
  if back then
    let h := h.setNext (h.lists dst).last (some node)
    let h := h.setPrev (some node) (h.lists dst).last
    (h.setNext (some node) none).setLast dst (some node)
  else
    let h := h.setPrev (h.lists dst).first (some node)
    let h := h.setNext (some node) (h.lists dst).first
    (h.setPrev (some node) none).setFirst dst (some node)

/-- "Normalize the destination list". -/
def normalize (h : ListHeap ι) (dst : ι) : ListHeap ι :=
  if (h.lists dst).first ≠ none ∧ (h.lists dst).last = none then h.setLast dst (h.lists dst).first
  else if (h.lists dst).first = none ∧ (h.lists dst).last ≠ none then h.setFirst dst (h.lists dst).last
  else h

/-- `moveNode`; `none` is a NULL parent dereferenced. -/
def moveNode (h : ListHeap ι) (node : Nat) (dst : ι) (back : Bool) : Option (ListHeap ι) :=
  match (h.nodes node).parent with
  | none => none
  | some src => some (if dst = src then h
    else (((h.unlink node src).insert node dst back).normalize dst).setParent node dst)

/-- `allocateNode`; `none` is the panic on an empty free list. The node's links survive the
`memset`, which clears the rest of the element. -/
def allocateNode (h : ListHeap ι) (inUse free : ι) (back : Bool) : Option (Nat × ListHeap ι) :=
  match (h.lists free).first with
  | none => none
  | some node => (h.moveNode node inUse back).map (node, ·)

end ListHeap

end Omiiba.Sm
