/-
Modes of operation of block ciphers as machines that take one block after the other, and such a machine between two
queues.
-/
import Mathlib.Tactic

namespace Omiiba

/-- A machine with a register: what it gives for a block, and what is in the register then. -/
structure BlockMode (σ β : Type*) where
  out : σ → β → β
  next : σ → β → σ

namespace BlockMode

variable {σ β : Type*} (m : BlockMode σ β)

/-! ## Texts -/

/-- What it gives for the blocks of a text. -/
def outs : σ → List β → List β
  | _, [] => []
  | s, b :: bs => m.out s b :: outs (m.next s b) bs

/-- The register after a text. -/
def after (s : σ) (bs : List β) : σ := bs.foldl m.next s

@[simp] theorem after_nil (s : σ) : m.after s [] = s := rfl

@[simp] theorem after_cons (s : σ) (b : β) (bs : List β) : m.after s (b :: bs) = m.after (m.next s b) bs := rfl

theorem after_append (s : σ) (bs cs : List β) : m.after s (bs ++ cs) = m.after (m.after s bs) cs := List.foldl_append

@[simp] theorem outs_nil (s : σ) : m.outs s [] = [] := rfl

@[simp] theorem length_outs (s : σ) (bs : List β) : (m.outs s bs).length = bs.length := by
  induction bs generalizing s with
  | nil => rfl
  | cons b bs ih => exact congrArg Nat.succ (ih _)

/-- A text may be processed in pieces. -/
theorem outs_append (s : σ) (bs cs : List β) : m.outs s (bs ++ cs) = m.outs s bs ++ m.outs (m.after s bs) cs := by
  induction bs generalizing s with
  | nil => rfl
  | cons b bs ih => exact congrArg (m.out s b :: ·) (ih _)

theorem outs_concat (s : σ) (bs : List β) (b : β) : m.outs s (bs ++ [b]) = m.outs s bs ++ [m.out (m.after s bs) b] :=
  m.outs_append s bs [b]

theorem getElem_outs (s : σ) (bs : List β) {i : Nat} (h : i < bs.length) (hi : i < (m.outs s bs).length) :
    (m.outs s bs)[i] = m.out (m.after s (bs.take i)) bs[i] := by
  induction bs generalizing s i with
  | nil => simp at h
  | cons b bs ih =>
    cases i with
    | zero => rfl
    | succ i => exact ih _ _ _

/-! ## The modes -/

section Modes

variable (xor : β → β → β) (f : β → β)

/-- Each block on its own. -/
def ecb : BlockMode β β := ⟨fun _ b => f b, fun s _ => s⟩

/-- Each block is combined with the image of a counter. -/
def ctr (count : β → β) : BlockMode β β := ⟨fun s b => xor b (f s), fun s _ => count s⟩

/-- Each block is combined with what was given for the block before it. -/
def cbcEncrypt : BlockMode β β := ⟨fun s b => f (xor b s), fun s b => f (xor b s)⟩

def cbcDecrypt : BlockMode β β := ⟨fun s b => xor (f b) s, fun _ b => b⟩

variable {xor f}

theorem outs_ecb (s : β) (bs : List β) : (ecb f).outs s bs = bs.map f := by
  induction bs generalizing s with
  | nil => rfl
  | cons b bs ih => exact congrArg (f b :: ·) (ih _)

theorem after_ecb (s : β) (bs : List β) : (ecb f).after s bs = s := by
  induction bs with
  | nil => rfl
  | cons b bs ih => exact ih

/-- A counter goes on by one for each block. -/
theorem after_ctr (count : β → β) (s : β) (bs : List β) : (ctr xor f count).after s bs = count^[bs.length] s := by
  induction bs generalizing s with
  | nil => rfl
  | cons b bs ih => exact ih _

/-- Each block is combined with the image of its own counter. -/
theorem outs_ctr (count : β → β) (s : β) (bs : List β) :
    (ctr xor f count).outs s bs = bs.mapIdx fun i b => xor b (f (count^[i] s)) := by
  induction bs generalizing s with
  | nil => rfl
  | cons b bs ih =>
    rw [List.mapIdx_cons]
    exact congrArg (xor b (f s) :: ·) (ih _)

/-- The register is the last block that was given. -/
theorem after_cbcEncrypt (s : β) (bs : List β) :
    (cbcEncrypt xor f).after s bs = ((cbcEncrypt xor f).outs s bs).getLastD s := by
  induction bs generalizing s with
  | nil => rfl
  | cons b bs ih => rw [after_cons, ih, outs, List.getLastD_cons]; rfl

/-- The register is the last block that was taken. -/
theorem after_cbcDecrypt (s : β) (bs : List β) : (cbcDecrypt xor f).after s bs = bs.getLastD s := by
  induction bs generalizing s with
  | nil => rfl
  | cons b bs ih => rw [after_cons, ih, List.getLastD_cons]; rfl

end Modes

end BlockMode

/-! ## A machine between two queues -/

/-- The blocks that a machine has not taken yet, its register, and the blocks that it has given. -/
structure Pipe (σ β : Type*) where
  input : List β
  register : σ
  output : List β

namespace Pipe

variable {σ β : Type*} (p : Pipe σ β) (m : BlockMode σ β)

def feed (b : β) : Pipe σ β := { p with input := p.input ++ [b] }

/-- The machine takes a block. -/
def work : Pipe σ β :=
  match p.input with
  | [] => p
  | b :: input => ⟨input, m.next p.register b, p.output ++ [m.out p.register b]⟩

def take : Pipe σ β := { p with output := p.output.tail }

/-- What the pipe will still give. -/
def pending : List β := p.output ++ m.outs p.register p.input

/-- The register, once the machine has taken all blocks. -/
def final : σ := m.after p.register p.input

variable {p m}

theorem pending_feed (b : β) : (p.feed b).pending m = p.pending m ++ [m.out (p.final m) b] := by
  unfold pending feed final
  rw [m.outs_concat, List.append_assoc]

theorem final_feed (b : β) : (p.feed b).final m = m.next (p.final m) b := m.after_append _ _ _

theorem pending_work : (p.work m).pending m = p.pending m := by
  unfold work
  split
  · rfl
  · rename_i b input hinput
    unfold pending
    rw [hinput, List.append_assoc]
    rfl

theorem final_work : (p.work m).final m = p.final m := by
  unfold work
  split
  · rfl
  · rename_i b input hinput
    unfold final
    rw [hinput]
    rfl

/-- No block is lost or added. -/
theorem length_work : (p.work m).input.length + (p.work m).output.length = p.input.length + p.output.length := by
  unfold work
  split
  · rfl
  · rename_i b input hinput
    rw [hinput]
    simp only [List.length_append, List.length_cons, List.length_nil]
    omega

theorem length_input_work (h : p.input ≠ []) : (p.work m).input.length + 1 = p.input.length := by
  unfold work
  split
  · contradiction
  · rename_i b input hinput
    rw [hinput, List.length_cons]

theorem pending_take {b : β} {output : List β} (h : p.output = b :: output) : p.pending m = b :: p.take.pending m := by
  unfold pending take
  rw [h]
  rfl

end Pipe

end Omiiba
