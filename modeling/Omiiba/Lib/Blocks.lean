/-
Blocks of a fixed length read from a stream of keys: a symbol is added to the block, a clearing key begins it
again, and a whole block is accepted or another one is read.
-/
import Mathlib.Tactic

namespace Omiiba.Blocks

/-- What a key of the stream means to the reader. -/
inductive Key (α : Type)
  | ignored
  | clear
  | stop
  | symbol (a : α)

/-- How a reader ends: with a block and what it has not read, at a stopping key, or without more to read. -/
inductive Outcome (α κ : Type)
  | accepted (block : List α) (rest : List κ)
  | stopped
  | waiting

variable {α κ : Type} (key : κ → Key α) (n : Nat) (accept : List α → Bool)

/-- The reader, with the symbols it has of the block it is in. -/
def readBlocks : List α → List κ → Outcome α κ
  | _, [] => .waiting
  | as, k :: ks =>
    match key k with
    | .ignored => readBlocks as ks
    | .clear => readBlocks [] ks
    | .stop => .stopped
    | .symbol a =>
      if (as ++ [a]).length < n then readBlocks (as ++ [a]) ks
      else if accept (as ++ [a]) then .accepted (as ++ [a]) ks
      else readBlocks [] ks

/-- Keys that only type, and what they type. -/
inductive Types : List κ → List α → Prop
  | nil : Types [] []
  | ignored {ks as k} : Types ks as → key k = .ignored → Types (ks ++ [k]) as
  | symbol {ks as k a} : Types ks as → key k = .symbol a → Types (ks ++ [k]) (as ++ [a])

/-- The keys of a whole block, which ends with its last symbol. -/
inductive Block : List κ → List α → Prop
  | mk {ks as k a} : Types key ks as → key k = .symbol a → as.length + 1 = n → Block (ks ++ [k]) (as ++ [a])

/-- Keys after which a block begins anew: blocks that were cleared on their way and whole ones that were not
accepted, in any order. -/
inductive Attempts : List κ → Prop
  | nil : Attempts []
  | cleared {ks as k rest} : Types key ks as → as.length < n → key k = .clear → Attempts rest →
      Attempts (ks ++ k :: rest)
  | refused {ks as rest} : Block key n ks as → accept as = false → Attempts rest → Attempts (ks ++ rest)

variable {key n accept}

/-! ## What is read -/

/-- Typing in the middle of a block. -/
theorem readBlocks_types {ks : List κ} {as : List α} (h : Types key ks as) (hlen : as.length < n) (rest : List κ) :
    readBlocks key n accept [] (ks ++ rest) = readBlocks key n accept as rest := by
  induction h generalizing rest with
  | nil => rfl
  | ignored _ hkey ih =>
    rw [List.append_assoc, ih hlen]
    simp [readBlocks, hkey]
  | symbol _ hkey ih =>
    rw [List.length_append, List.length_singleton] at hlen
    rw [List.append_assoc, ih (by omega)]
    simp [readBlocks, hkey, hlen]

/-- A whole block. -/
theorem readBlocks_block {ks : List κ} {as : List α} (h : Block key n ks as) (rest : List κ) :
    readBlocks key n accept [] (ks ++ rest) =
      if accept as then .accepted as rest else readBlocks key n accept [] rest := by
  obtain ⟨htypes, hkey, hlen⟩ := h
  rw [List.append_assoc, readBlocks_types htypes (by omega)]
  simp [readBlocks, hkey, hlen]

/-- What was cleared or refused has no part in what is read after it. -/
theorem readBlocks_attempts {before : List κ} (h : Attempts key n accept before) (rest : List κ) :
    readBlocks key n accept [] (before ++ rest) = readBlocks key n accept [] rest := by
  induction h with
  | nil => rfl
  | cleared htypes hlen hkey _ ih =>
    rw [List.append_assoc, readBlocks_types htypes hlen]
    simp [readBlocks, hkey, ih]
  | refused hblock hrefused _ ih =>
    rw [List.append_assoc, readBlocks_block hblock, hrefused, if_neg (by simp), ih]

/-- A block that is accepted, after keys that typed the first part of the one that is read. -/
theorem readBlocks_accepted_split {block : List α} {rest : List κ} : ∀ (ks done : List κ) (as : List α), Types key done as →
    as.length < n → readBlocks key n accept as ks = .accepted block rest →
    ∃ before part, done ++ ks = before ++ (part ++ rest) ∧ Attempts key n accept before ∧ Block key n part block ∧
      accept block = true := by
  intro ks
  induction ks with
  | nil =>
    intro done as _ _ h
    cases h
  | cons k ks ih =>
    intro done as htypes hlen h
    rw [readBlocks] at h
    cases hkey : key k with
    | ignored =>
      rw [hkey] at h
      obtain ⟨before, part, hall, hrest⟩ := ih (done ++ [k]) as (.ignored htypes hkey) hlen h
      exact ⟨before, part, by rw [← hall, List.append_assoc, List.singleton_append], hrest⟩
    | clear =>
      rw [hkey] at h
      obtain ⟨before, part, hall, hbefore, hrest⟩ := ih [] [] .nil (by rw [List.length_nil]; omega) h
      refine ⟨done ++ k :: before, part, ?_, .cleared htypes hlen hkey hbefore, hrest⟩
      rw [List.append_assoc, List.cons_append, ← hall, List.nil_append]
    | stop =>
      rw [hkey] at h
      cases h
    | symbol a =>
      rw [hkey] at h
      dsimp only at h
      have hone : (as ++ [a]).length = as.length + 1 := by rw [List.length_append, List.length_singleton]
      split_ifs at h with hmore haccept
      · obtain ⟨before, part, hall, hrest⟩ := ih (done ++ [k]) (as ++ [a]) (.symbol htypes hkey) hmore h
        exact ⟨before, part, by rw [← hall, List.append_assoc, List.singleton_append], hrest⟩
      · cases h
        exact ⟨[], done ++ [k], by simp, .nil, .mk htypes hkey (by omega), haccept⟩
      · have hblock : Block key n (done ++ [k]) (as ++ [a]) := .mk htypes hkey (by omega)
        obtain ⟨before, part, hall, hbefore, hrest⟩ := ih [] [] .nil (by rw [List.length_nil]; omega) h
        refine ⟨(done ++ [k]) ++ before, part, ?_, .refused hblock (by simpa using haccept) hbefore, hrest⟩
        rw [List.append_assoc _ before, ← hall, List.nil_append, List.append_assoc, List.singleton_append]

/-- A block is accepted at its end exactly when only cleared and refused ones are before it. -/
theorem readBlocks_accepted_iff (hn : 0 < n) {ks rest : List κ} {block : List α} :
    readBlocks key n accept [] ks = .accepted block rest ↔
      ∃ before part, ks = before ++ (part ++ rest) ∧ Attempts key n accept before ∧ Block key n part block ∧
        accept block = true := by
  constructor
  · intro h
    exact readBlocks_accepted_split ks [] [] .nil hn h
  · rintro ⟨before, part, rfl, hbefore, hblock, haccept⟩
    rw [readBlocks_attempts hbefore, readBlocks_block hblock, if_pos haccept]

/-- Only what is said of whole blocks counts. -/
theorem readBlocks_congr {accept' : List α → Bool} (h : ∀ as : List α, as.length = n → accept as = accept' as) :
    ∀ (ks : List κ) (as : List α), as.length < n → readBlocks key n accept as ks = readBlocks key n accept' as ks := by
  intro ks
  induction ks with
  | nil =>
    intro as _
    rfl
  | cons k ks ih =>
    intro as hlen
    have hnil : ([] : List α).length < n := by
      rw [List.length_nil]
      omega
    rw [readBlocks, readBlocks]
    cases key k with
    | ignored => exact ih as hlen
    | clear => exact ih [] hnil
    | stop => rfl
    | symbol a =>
      dsimp only
      by_cases hmore : (as ++ [a]).length < n
      · rw [if_pos hmore, if_pos hmore]
        exact ih _ hmore
      · have hwhole : (as ++ [a]).length = n := by
          rw [List.length_append, List.length_singleton] at hmore ⊢
          omega
        rw [if_neg hmore, if_neg hmore, h _ hwhole, ih [] hnil]

theorem Block.length_eq {ks : List κ} {as : List α} (h : Block key n ks as) : as.length = n := by
  obtain ⟨_, _, hlen⟩ := h
  rw [List.length_append, List.length_singleton, hlen]

end Omiiba.Blocks
