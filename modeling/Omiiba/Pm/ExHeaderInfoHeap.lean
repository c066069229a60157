/-
The heap of the exheaders, after exheader_info_heap.c: a free list through the blocks of a buffer. The last block is linked
to what lies behind the buffer, so a heap that is exhausted gives that out.
-/
import Omiiba.Lib.FreeList
import Omiiba.Lib.System

namespace Omiiba.Pm

/-! ## The code -/

/-- The array that `ExHeaderInfoHeap_Init` gets: its address, the size of a `Node` and the number of nodes. -/
structure NodeBuffer where
  buf : Nat
  size : Nat
  num : Nat
  buf_pos : 0 < buf
  size_pos : 0 < size

/-- `g_headNode`, 0 if it is `NULL`, and the memory, by the words that are read as links. -/
structure ExHeaderInfoHeap where
  headNode : Nat
  word : Nat → Nat

namespace ExHeaderInfoHeap

variable (size : Nat)

/-- The loop of `ExHeaderInfoHeap_Init`. -/
def linkNodes : Nat → Nat → (Nat → Nat) → Nat → Nat
  | 0, _, word => word
  | num + 1, node, word =>
    let word := Function.update word node (node + size)
    linkNodes num (word node) word

/-- `ExHeaderInfoHeap_Init`. -/
def init (buf num : Nat) (word : Nat → Nat) : ExHeaderInfoHeap := ⟨buf, linkNodes size num buf word⟩

/-- `memset` of a node. -/
def clear (node : Nat) (word : Nat → Nat) : Nat → Nat := fun a => if node ≤ a ∧ a < node + size then 0 else word a

/-- `ExHeaderInfoHeap_New`, with nobody else between the load of the head and its exchange. -/
def new (h : ExHeaderInfoHeap) : Nat × ExHeaderInfoHeap :=
  let oldHead := h.headNode
  if oldHead = 0 then (0, h)
  else
    let newHead := h.word oldHead
    (oldHead, ⟨newHead, clear size oldHead h.word⟩)

/-- `ExHeaderInfoHeap_Delete`. -/
def delete (data : Nat) (h : ExHeaderInfoHeap) : ExHeaderInfoHeap := ⟨data, Function.update h.word data h.headNode⟩

end ExHeaderInfoHeap

/-! ## Its users -/

/-- The heap and the blocks that were given out and not returned. -/
structure HeapState where
  heap : ExHeaderInfoHeap
  outstanding : List Nat

/-- What is done: the calls, and what anybody writes into the memory. -/
inductive HeapAction
  | new
  | delete (data : Nat)
  | store (a value : Nat)

namespace NodeBuffer

variable (b : NodeBuffer)

/-- The blocks of the buffer. -/
def blocks : List Nat := (List.range b.num).map fun i => b.buf + i * b.size

/-- Only a block that is outstanding is returned, and nobody writes into one that is not. -/
def enabled (s : HeapState) : HeapAction → Prop
  | .new => True
  | .delete data => data ∈ s.outstanding
  | .store a _ => ∀ p ∈ b.blocks, p ≤ a → a < p + b.size → p ∈ s.outstanding

def step (s : HeapState) : HeapAction → HeapState
  | .new =>
    let (block, heap) := s.heap.new b.size
    ⟨heap, if block = 0 then s.outstanding else block :: s.outstanding⟩
  | .delete data => ⟨s.heap.delete data, s.outstanding.erase data⟩
  | .store a value => ⟨{ s.heap with word := Function.update s.heap.word a value }, s.outstanding⟩

/-- The heap after `ExHeaderInfoHeap_Init`, whatever the memory held before. -/
def Starts (s : HeapState) : Prop := ∃ word, s = ⟨ExHeaderInfoHeap.init b.size b.buf b.num word, []⟩

/-- Every sequence of calls. -/
def heaps : System HeapState HeapAction := System.guarded b.Starts b.enabled fun s i => some (b.step s i)

/-- What `ExHeaderInfoHeap_New` should give: nothing if all blocks are outstanding, else a block in the buffer apart from
those. -/
structure NewRight (s : HeapState) : Prop where
  null_iff : (s.heap.new b.size).1 = 0 ↔ s.outstanding.length = b.num
  inside : (s.heap.new b.size).1 ≠ 0 →
    b.buf ≤ (s.heap.new b.size).1 ∧ (s.heap.new b.size).1 + b.size ≤ b.buf + b.num * b.size
  distinct : (s.heap.new b.size).1 ≠ 0 → ∀ p ∈ s.outstanding,
    p + b.size ≤ (s.heap.new b.size).1 ∨ (s.heap.new b.size).1 + b.size ≤ p

/-- A block is asked for only while there is one left. -/
def OneLeft (s : HeapState) : HeapAction → Prop
  | .new => s.outstanding.length ≠ b.num
  | _ => True

/-! ## The blocks -/

variable {b} {s : HeapState} {p q : Nat}

theorem length_blocks : b.blocks.length = b.num := by
  simp [blocks]

theorem mem_blocks : p ∈ b.blocks ↔ ∃ i < b.num, b.buf + i * b.size = p := by
  simp [blocks]

theorem nodup_blocks : b.blocks.Nodup := by
  refine List.nodup_range.map fun i j hij => ?_
  exact Nat.eq_of_mul_eq_mul_right b.size_pos (Nat.add_left_cancel hij)

theorem block_inside (hp : p ∈ b.blocks) : b.buf ≤ p ∧ p + b.size ≤ b.buf + b.num * b.size := by
  obtain ⟨i, hi, rfl⟩ := mem_blocks.mp hp
  have hle : (i + 1) * b.size ≤ b.num * b.size := Nat.mul_le_mul_right b.size hi
  rw [Nat.add_one_mul] at hle
  omega

theorem block_ne_zero (hp : p ∈ b.blocks) : p ≠ 0 := by
  have hinside := block_inside hp
  have hpos := b.buf_pos
  omega

theorem blocks_apart (hp : p ∈ b.blocks) (hq : q ∈ b.blocks) (hne : p ≠ q) : p + b.size ≤ q ∨ q + b.size ≤ p := by
  obtain ⟨i, -, rfl⟩ := mem_blocks.mp hp
  obtain ⟨j, -, rfl⟩ := mem_blocks.mp hq
  rcases Nat.lt_trichotomy i j with hij | rfl | hij
  · have hle := Nat.mul_le_mul_right b.size hij
    rw [Nat.succ_mul] at hle
    omega
  · exact absurd rfl hne
  · have hle := Nat.mul_le_mul_right b.size hij
    rw [Nat.succ_mul] at hle
    omega

/-! ## The free list -/

theorem linkNodes_succ (size num node : Nat) (word : Nat → Nat) : ExHeaderInfoHeap.linkNodes size (num + 1) node word =
    ExHeaderInfoHeap.linkNodes size num (node + size) (Function.update word node (node + size)) := by
  simp [ExHeaderInfoHeap.linkNodes]

theorem linkNodes_below {size : Nat} (hsize : 0 < size) {num node a : Nat} {word : Nat → Nat} (ha : a < node) :
    ExHeaderInfoHeap.linkNodes size num node word a = word a := by
  induction num generalizing node word with
  | zero => rfl
  | succ num ih =>
    rw [linkNodes_succ, ih (by omega), Function.update_of_ne (by omega)]

/-- The loop links every node to the next one, also the last. -/
theorem linkNodes_chain {size : Nat} (hsize : 0 < size) (num node : Nat) (word : Nat → Nat) :
    FreeList.Chain (ExHeaderInfoHeap.linkNodes size num node word) (node + num * size) node
      ((List.range num).map fun i => node + i * size) := by
  induction num generalizing node word with
  | zero => simp
  | succ num ih =>
    have hmap : (List.range (num + 1)).map (fun i => node + i * size) =
        node :: (List.range num).map fun i => node + size + i * size := by
      simp only [List.range_succ_eq_map, List.map_cons, List.map_map, Nat.zero_mul, Nat.add_zero]
      refine congrArg (node :: ·) (List.map_congr_left fun i _ => ?_)
      simp only [Function.comp_apply, Nat.succ_mul]
      omega
    have hend : node + (num + 1) * size = node + size + num * size := by
      rw [Nat.add_one_mul]
      omega
    rw [linkNodes_succ, hmap, hend, FreeList.chain_cons, linkNodes_below hsize (by omega), Function.update_self]
    refine ⟨rfl, ?_⟩
    exact ih (node + size) _

/-- The blocks that nobody has lie on the free list, which ends behind the buffer. -/
def Inv (b : NodeBuffer) (s : HeapState) : Prop :=
  FreeList.Keeps b.blocks (b.buf + b.num * b.size) s.heap.word s.heap.headNode s.outstanding

theorem inv_init (h : b.Starts s) : b.Inv s := by
  obtain ⟨word, rfl⟩ := h
  exact FreeList.Keeps.start (linkNodes_chain b.size_pos b.num b.buf word)

theorem new_eq (h : s.heap.headNode ≠ 0) : s.heap.new b.size =
    (s.heap.headNode, ⟨s.heap.word s.heap.headNode, ExHeaderInfoHeap.clear b.size s.heap.headNode s.heap.word⟩) :=
  if_neg h

theorem inv_new (h : b.Inv s) (hleft : s.outstanding.length ≠ b.num) : b.Inv (b.step s .new) := by
  obtain ⟨hmem, hout, htake⟩ := h.take nodup_blocks (by rwa [length_blocks])
  have hne := block_ne_zero hmem
  unfold step
  rw [new_eq hne]
  simp only [if_neg hne]
  refine htake.frame nodup_blocks fun q hq hqout => ?_
  -- only the block that was taken is cleared
  have hapart := blocks_apart hmem hq (by rintro rfl; simp at hqout)
  have hsize := b.size_pos
  exact if_neg (by omega)

theorem inv_delete (h : b.Inv s) (hdata : p ∈ s.outstanding) : b.Inv (b.step s (.delete p)) := by
  refine FreeList.Keeps.give (h.frame nodup_blocks fun q hq hqout => ?_) hdata (Function.update_self ..)
  exact Function.update_of_ne (by rintro rfl; exact hqout hdata) _ _

theorem inv_store (h : b.Inv s) {a value : Nat} (henabled : b.enabled s (.store a value)) :
    b.Inv (b.step s (.store a value)) := by
  refine h.frame nodup_blocks fun q hq hqout => Function.update_of_ne ?_ _ _
  -- whoever has a block writes to no other
  rintro rfl
  exact hqout (henabled q hq (Nat.le_refl q) (Nat.lt_add_of_pos_right b.size_pos))

theorem inv_reachable (h : (b.heaps.restrict b.OneLeft).Reachable s) : b.Inv s := by
  refine h.invariant (J := b.Inv) (fun s hs => inv_init hs) fun s i s' _ hinv hstep => ?_
  obtain ⟨hleft, henabled, hs'⟩ := hstep
  obtain rfl := Option.some.inj hs'
  cases i with
  | new => exact inv_new hinv hleft
  | delete data => exact inv_delete hinv henabled
  | store a value => exact inv_store hinv henabled

/-- As long as no block was asked for with none left, `ExHeaderInfoHeap_New` does what it should unless none is left now. -/
theorem newRight_iff (h : (b.heaps.restrict b.OneLeft).Reachable s) : b.NewRight s ↔ s.outstanding.length ≠ b.num := by
  have hinv := inv_reachable h
  constructor
  · rintro ⟨hnull, -, -⟩ hall
    -- the head is what lies behind the buffer, and that is not `NULL`
    have hhead := hinv.exhausted (by rwa [length_blocks])
    have hpos := b.buf_pos
    have hne : s.heap.headNode ≠ 0 := by omega
    rw [new_eq hne] at hnull
    exact hne (hnull.mpr hall)
  · intro hleft
    obtain ⟨hmem, hout, -⟩ := hinv.take nodup_blocks (by rwa [length_blocks])
    have hne := block_ne_zero hmem
    constructor
    · simp [new_eq hne, hne, hleft]
    · rw [new_eq hne]
      exact fun _ => block_inside hmem
    · rw [new_eq hne]
      intro _ p hp
      exact blocks_apart (hinv.outstanding_mem hp) hmem (by rintro rfl; exact hout hp)

/-! ## Two buffers -/

/-- A buffer of two blocks, and one of a single block. -/
def two : NodeBuffer := ⟨0x1000, 0x400, 2, by decide, by decide⟩

def one : NodeBuffer := ⟨0x1000, 0x400, 1, by decide, by decide⟩

def started (b : NodeBuffer) : HeapState := ⟨ExHeaderInfoHeap.init b.size b.buf b.num fun _ => 0, []⟩

/-- A block was given out, returned and given out again. -/
def usedAgain : HeapState := two.step (two.step (two.step (started two) .new) (.delete 0x1000)) .new

theorem usedAgain_newRight_iff : two.NewRight usedAgain ↔ usedAgain.outstanding.length ≠ two.num := by
  have hstarted : (two.heaps.restrict two.OneLeft).Reachable (started two) := .init ⟨_, rfl⟩
  have hgiven : (two.heaps.restrict two.OneLeft).Reachable (two.step (started two) .new) :=
    .step (i := HeapAction.new) hstarted ⟨(by decide : ([] : List Nat).length ≠ 2), (trivial : True), rfl⟩
  have hreturned : (two.heaps.restrict two.OneLeft).Reachable (two.step (two.step (started two) .new) (.delete 0x1000)) :=
    .step (i := HeapAction.delete 0x1000) hgiven ⟨(trivial : True), (by decide : (0x1000 : Nat) ∈ [0x1000]), rfl⟩
  exact newRight_iff (.step (i := HeapAction.new) hreturned ⟨(by decide : ([] : List Nat).length ≠ 2), (trivial : True), rfl⟩)

/-- When the only block is outstanding, the next one asked for lies behind the buffer. -/
theorem exhausted_new : one.heaps.Reachable (one.step (started one) .new) ∧ ¬one.NewRight (one.step (started one) .new) ∧
    ((one.step (started one) .new).heap.new one.size).1 = one.buf + one.num * one.size := by
  refine ⟨.step (i := HeapAction.new) (.init ⟨_, rfl⟩) ⟨(trivial : True), rfl⟩, ?_, rfl⟩
  rintro ⟨hnull, -, -⟩
  exact absurd (hnull.mpr rfl) (by decide)

end NodeBuffer

end Omiiba.Pm
