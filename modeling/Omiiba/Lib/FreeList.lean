/-
Free lists: the blocks of a pool that are not in use lie along links from a head, and behind the last of them comes a fixed
value. A block is taken from the head and given back to it.
-/
import Mathlib.Tactic

namespace Omiiba.FreeList

variable {α : Type*} {next next' : α → α} {head last p : α} {nodes : List α}

/-! ## Chains -/

/-- The links from `head` lead along `nodes` to `last`. -/
def Chain (next : α → α) (last : α) : α → List α → Prop
  | head, [] => head = last
  | head, p :: nodes => head = p ∧ Chain next last (next p) nodes

@[simp] theorem chain_nil : Chain next last head [] ↔ head = last := Iff.rfl

@[simp] theorem chain_cons : Chain next last head (p :: nodes) ↔ head = p ∧ Chain next last (next p) nodes := Iff.rfl

/-- A chain depends on the links of its own nodes only. -/
theorem Chain.congr (h : Chain next last head nodes) (heq : ∀ q ∈ nodes, next' q = next q) : Chain next' last head nodes := by
  induction nodes generalizing head with
  | nil => simpa using h
  | cons q nodes ih =>
    obtain ⟨rfl, hrest⟩ := h
    refine ⟨rfl, ?_⟩
    rw [heq head (by simp)]
    exact ih hrest fun r hr => heq r (by simp [hr])

/-! ## Pools -/

/-- The blocks that are not outstanding lie on the list from `head`. -/
def Keeps (blocks : List α) (last : α) (next : α → α) (head : α) (outstanding : List α) : Prop :=
  ∃ free, Chain next last head free ∧ (free ++ outstanding).Perm blocks

namespace Keeps

variable {blocks outstanding : List α}

/-- At first the list is the pool. -/
theorem start (h : Chain next last head blocks) : Keeps blocks last next head [] :=
  ⟨blocks, h, by simp⟩

theorem outstanding_mem (h : Keeps blocks last next head outstanding) (hp : p ∈ outstanding) : p ∈ blocks := by
  obtain ⟨free, -, hperm⟩ := h
  exact hperm.mem_iff.mp (by simp [hp])

/-- The links of the blocks that are outstanding do not matter, nor do those outside the pool. -/
theorem frame (h : Keeps blocks last next head outstanding) (hnodup : blocks.Nodup)
    (heq : ∀ q ∈ blocks, q ∉ outstanding → next' q = next q) : Keeps blocks last next' head outstanding := by
  obtain ⟨free, hchain, hperm⟩ := h
  have hdisjoint := List.disjoint_of_nodup_append (hperm.nodup_iff.mpr hnodup)
  exact ⟨free, hchain.congr fun q hq => heq q (hperm.mem_iff.mp (by simp [hq])) fun hout => hdisjoint hq hout, hperm⟩

/-- With the whole pool outstanding, the head is what the last block was linked to. -/
theorem exhausted (h : Keeps blocks last next head outstanding) (hall : outstanding.length = blocks.length) : head = last := by
  obtain ⟨free, hchain, hperm⟩ := h
  have hlength := hperm.length_eq
  rw [List.length_append] at hlength
  have hnil : free = [] := List.length_eq_zero_iff.mp (by omega)
  subst hnil
  simpa using hchain

/-- Otherwise it is a block of the pool that is not outstanding, and the pool is kept when it is taken. -/
theorem take (h : Keeps blocks last next head outstanding) (hnodup : blocks.Nodup)
    (hsome : outstanding.length ≠ blocks.length) :
    head ∈ blocks ∧ head ∉ outstanding ∧ Keeps blocks last next (next head) (head :: outstanding) := by
  obtain ⟨free, hchain, hperm⟩ := h
  cases free with
  | nil => exact absurd hperm.length_eq (by simpa using hsome)
  | cons p free =>
    -- the head is the first free block
    obtain ⟨rfl, hrest⟩ := hchain
    have hdisjoint := List.disjoint_of_nodup_append (hperm.nodup_iff.mpr hnodup)
    refine ⟨hperm.mem_iff.mp (by simp), fun hout => hdisjoint (by simp) hout, free, hrest, ?_⟩
    exact List.perm_middle.trans hperm

/-- A block that is outstanding is given back when it has been linked to the head. -/
theorem give [DecidableEq α] (h : Keeps blocks last next head outstanding) (hp : p ∈ outstanding) (hlink : next p = head) :
    Keeps blocks last next p (outstanding.erase p) := by
  obtain ⟨free, hchain, hperm⟩ := h
  refine ⟨p :: free, ⟨rfl, by rwa [hlink]⟩, ?_⟩
  -- the block moves from the one list to the other
  exact (List.perm_middle.symm.trans ((List.perm_cons_erase hp).symm.append_left free)).trans hperm

end Keeps

end Omiiba.FreeList
