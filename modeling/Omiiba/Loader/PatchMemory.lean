/-
`memsearch` in memory.c and `patchMemory` in patcher.c: where a pattern is found, what is read for it, and which places
are patched.
-/
import Omiiba.Lib.Search
import Mathlib.Tactic

namespace Omiiba.Loader.Patcher

/-- Memory at addresses, or at offsets, of 32 bits. -/
abbrev Bytes := UInt32 → UInt8

/-! ## Searching -/

/-- Bytes of the memory that is searched, from an offset on, that have been read. -/
structure Access where
  offset : UInt32
  size : UInt32
  deriving DecidableEq

/-- `memcmp` of two blocks of `n` bytes is 0. -/
def memcmpEqual (p q : Bytes) (n : UInt32) : Bool :=
  (List.range n.toNat).all fun k => p (UInt32.ofNat k) = q (UInt32.ofNat k)

/-- The table of the preprocessing: how far the search goes on from a place where the last byte is this one. -/
def preprocess (pattern : Bytes) (patternSize : UInt32) : UInt8 → UInt32 :=
  (List.range (patternSize - 1).toNat).foldl
    (fun table i => Function.update table (pattern (UInt32.ofNat i)) (patternSize - UInt32.ofNat i - 1)) fun _ => patternSize

section

variable (mem : Bytes) (startPos : UInt32) (pattern : Bytes) (size patternSize : UInt32)

/-- The loop over `j`, for so many turns: what is found, and what has been read; none if the loop goes on. -/
def searchLoop (table : UInt8 → UInt32) : Nat → UInt32 → List Access → Option (Option UInt32 × List Access)
  | 0, _, _ => none
  | turns + 1, j, reads =>
    if j ≤ size - patternSize then
      let c := mem (startPos + (j + patternSize - 1))
      let reads := ⟨j + patternSize - 1, 1⟩ :: reads
      if pattern (patternSize - 1) = c then
        let reads := ⟨j, patternSize - 1⟩ :: reads
        if memcmpEqual pattern (fun k => mem (startPos + j + k)) (patternSize - 1) then some (some (startPos + j), reads)
        else searchLoop table turns (j + table c) reads
      else searchLoop table turns (j + table c) reads
    else some (none, reads)

/-- `memsearch`; what is found is none for `NULL`. -/
def memsearch (turns : Nat) : Option (Option UInt32 × List Access) :=
  searchLoop mem startPos pattern size patternSize (preprocess pattern patternSize) turns 0 []

end

/-! ## Patching -/

/-- `memcpy` from other memory. -/
def memcpy (mem : Bytes) (dst : UInt32) (src : Bytes) (n : UInt32) : Bytes := fun x => if x - dst < n then src (x - dst) else mem x

/-- The memory, how many patches are counted, and what each search has read with the size of what it has searched. -/
structure Patched where
  mem : Bytes
  patches : UInt32
  searches : List (UInt32 × List Access)

section

variable (pattern : Bytes) (patSize : UInt32) (offset : Int32) (replace : Bytes) (repSize : UInt32)

/-- The loop over `i`, for the patches that are left. -/
def patchLoop (turns : Nat) : Nat → Bytes → UInt32 → UInt32 → UInt32 → Option Patched
  | 0, mem, _, _, i => some ⟨mem, i, []⟩
  | n + 1, mem, start, size, i =>
    match memsearch mem start pattern size patSize turns with
    | none => none
    | some (none, reads) => some ⟨mem, i, [(size, reads)]⟩
    | some (some found, reads) =>
      let mem := memcpy mem (found + offset.toUInt32) replace repSize
      let place := found - start
      if place + patSize > size then some ⟨mem, i, [(size, reads)]⟩
      else
        (patchLoop turns n mem (found + patSize) (size - (place + patSize)) (i + 1)).map fun rest =>
          { rest with searches := (size, reads) :: rest.searches }

/-- `patchMemory`. -/
def patchMemory (mem : Bytes) (start size count : UInt32) (turns : Nat) : Option Patched :=
  patchLoop pattern patSize offset replace repSize turns count.toNat mem start size 0

end

/-! ## What is to be found -/

/-- The bytes from an address on. -/
def bytesAt (mem : Bytes) (a : UInt32) : Nat → UInt8 := fun k => mem (a + UInt32.ofNat k)

/-- All bytes are of the `size` that are searched. -/
def Access.Inside (size : UInt32) (r : Access) : Prop := r.size = 0 ∨ r.offset.toNat + r.size.toNat ≤ size.toNat

/-- A place is the first one of the pattern, if it is one. -/
def FoundFirst (mem : Bytes) (startPos : UInt32) (pattern : Bytes) (size patternSize : UInt32) (found : Option UInt32) : Prop :=
  ∃ p, IsFirst (bytesAt mem startPos) (bytesAt pattern 0) patternSize.toNat size.toNat p ∧
    found = p.map fun p => startPos + UInt32.ofNat p

/-- The search ends, finds the first place of the pattern if there is one, and reads nothing outside. -/
def SearchCorrect (mem : Bytes) (startPos : UInt32) (pattern : Bytes) (size patternSize : UInt32) : Prop :=
  ∃ turns found reads, memsearch mem startPos pattern size patternSize turns = some (found, reads) ∧
    FoundFirst mem startPos pattern size patternSize found ∧ ∀ r ∈ reads, r.Inside size

section

variable (pattern : Bytes) (patSize : UInt32) (offset : Int32) (replace : Bytes) (repSize : UInt32)

/-- The memory with the place patched that is so far from the start. -/
def patchAt (mem : Bytes) (start : UInt32) (p : Nat) : Bytes :=
  memcpy mem (start + UInt32.ofNat p + offset.toUInt32) replace repSize

/-- The first places of the pattern that do not overlap are patched, `n` at most: what becomes of the memory, and how many
they are. -/
inductive PatchesFirst : Nat → Bytes → UInt32 → Nat → Bytes → Nat → Prop
  | enough {mem : Bytes} {start : UInt32} {size : Nat} : PatchesFirst 0 mem start size mem 0
  | noMore {n : Nat} {mem : Bytes} {start : UInt32} {size : Nat}
      (hnone : IsFirst (bytesAt mem start) (bytesAt pattern 0) patSize.toNat size none) :
      PatchesFirst (n + 1) mem start size mem 0
  | next {n : Nat} {mem mem' : Bytes} {start : UInt32} {size p k : Nat}
      (hfirst : IsFirst (bytesAt mem start) (bytesAt pattern 0) patSize.toNat size (some p))
      (hrest : PatchesFirst n (patchAt offset replace repSize mem start p) (start + UInt32.ofNat p + patSize)
        (size - (p + patSize.toNat)) mem' k) :
      PatchesFirst (n + 1) mem start size mem' (k + 1)

/-- Wherever a place is to be looked for, what is left is not shorter than the pattern, which is not empty. -/
def Roomy : Nat → Bytes → UInt32 → Nat → Prop
  | 0, _, _, _ => True
  | n + 1, mem, start, size =>
    (0 < patSize.toNat ∧ patSize.toNat ≤ size) ∧
      ∀ p, IsFirst (bytesAt mem start) (bytesAt pattern 0) patSize.toNat size (some p) →
        Roomy n (patchAt offset replace repSize mem start p) (start + UInt32.ofNat p + patSize) (size - (p + patSize.toNat))

/-- The first places are patched and counted, and no search reads anything outside of what is left. -/
def PatchCorrect (mem : Bytes) (start size count : UInt32) : Prop :=
  ∃ turns r, patchMemory pattern patSize offset replace repSize mem start size count turns = some r ∧
    PatchesFirst pattern patSize offset replace repSize count.toNat mem start size.toNat r.mem r.patches.toNat ∧
    ∀ search ∈ r.searches, ∀ a ∈ search.2, a.Inside search.1

end

/-! ## The table -/

theorem toNat_sub_one {n : UInt32} (h : 0 < n.toNat) : (n - 1).toNat = n.toNat - 1 := by
  rw [UInt32.toNat_sub_of_le]
  · rfl
  · exact UInt32.le_iff_toNat_le.mpr h

section

variable (pattern : Bytes) {patternSize : UInt32}

/-- What the table has after some bytes of the pattern is not longer than from any of them to the end. -/
theorem foldl_table (hpos : 0 < patternSize.toNat) (c : UInt8) : ∀ n, n + 1 ≤ patternSize.toNat →
    let table := (List.range n).foldl
      (fun table i => Function.update table (pattern (UInt32.ofNat i)) (patternSize - UInt32.ofNat i - 1)) fun _ => patternSize
    0 < (table c).toNat ∧ (table c).toNat ≤ patternSize.toNat ∧
      ∀ i < n, bytesAt pattern 0 i = c → (table c).toNat + i + 1 ≤ patternSize.toNat
  | 0, _ => ⟨hpos, le_rfl, fun i hi => absurd hi (Nat.not_lt_zero i)⟩
  | n + 1, hn => by
    obtain ⟨hsome, hle, hnear⟩ := foldl_table hpos c n (by omega)
    intro table
    have hlt := patternSize.toNat_lt
    have hlast : (patternSize - UInt32.ofNat n - 1).toNat = patternSize.toNat - n - 1 := by
      have hn' : (UInt32.ofNat n).toNat = n := by
        rw [UInt32.toNat_ofNat']
        omega
      rw [UInt32.toNat_sub_of_le, UInt32.toNat_sub_of_le, hn']
      · rfl
      · rw [UInt32.le_iff_toNat_le, hn']
        omega
      · rw [UInt32.le_iff_toNat_le, UInt32.toNat_sub_of_le, hn']
        · show 1 ≤ _
          omega
        · rw [UInt32.le_iff_toNat_le, hn']
          omega
    have htable : table = Function.update ((List.range n).foldl
        (fun table i => Function.update table (pattern (UInt32.ofNat i)) (patternSize - UInt32.ofNat i - 1)) fun _ => patternSize)
        (pattern (UInt32.ofNat n)) (patternSize - UInt32.ofNat n - 1) := by
      show (List.range (n + 1)).foldl _ _ = _
      rw [List.range_succ, List.foldl_append]
      rfl
    have hbyte (i : Nat) : bytesAt pattern 0 i = pattern (UInt32.ofNat i) := by
      unfold bytesAt
      rw [UInt32.zero_add]
    rw [htable]
    by_cases hc : c = pattern (UInt32.ofNat n)
    · -- the last place of the byte so far is the one that counts
      rw [hc, Function.update_self, hlast]
      refine ⟨by omega, by omega, fun i hi _ => by omega⟩
    · rw [Function.update_of_ne hc]
      refine ⟨hsome, hle, fun i hi hi' => ?_⟩
      rcases Nat.lt_succ_iff_lt_or_eq.mp hi with hi | rfl
      · exact hnear i hi hi'
      · rw [hbyte] at hi'
        exact absurd hi'.symm hc

theorem preprocess_spec (hpos : 0 < patternSize.toNat) (c : UInt8) :
    0 < (preprocess pattern patternSize c).toNat ∧
      SafeShift (bytesAt pattern 0) patternSize.toNat c (preprocess pattern patternSize c).toNat := by
  have hn := toNat_sub_one hpos
  obtain ⟨hsome, hle, hnear⟩ := foldl_table pattern hpos c (patternSize - 1).toNat (by omega)
  exact ⟨hsome, hle, fun i hi hc => hnear i (by omega) hc⟩

end

/-! ## What the search finds -/

section

variable (mem : Bytes) (startPos : UInt32) (pattern : Bytes) {size patternSize : UInt32}

theorem bytesAt_add (j : UInt32) (k : Nat) : bytesAt mem startPos (j.toNat + k) = mem (startPos + j + UInt32.ofNat k) := by
  unfold bytesAt
  rw [UInt32.ofNat_add, UInt32.ofNat_toNat, UInt32.add_assoc]

theorem bytesAt_last (hpos : 0 < patternSize.toNat) (j : UInt32) :
    bytesAt mem startPos (j.toNat + (patternSize.toNat - 1)) = mem (startPos + (j + patternSize - 1)) := by
  have hlast : UInt32.ofNat (patternSize.toNat - 1) = patternSize - 1 := by
    rw [UInt32.ofNat_sub (by omega), UInt32.ofNat_toNat]
    rfl
  rw [bytesAt_add, hlast]
  congr 1
  grind

/-- The last byte and all before it are compared. -/
theorem occurs_iff (hpos : 0 < patternSize.toNat) (j : UInt32) :
    Occurs (bytesAt mem startPos) (bytesAt pattern 0) patternSize.toNat j.toNat ↔
      pattern (patternSize - 1) = mem (startPos + (j + patternSize - 1)) ∧
        memcmpEqual pattern (fun k => mem (startPos + j + k)) (patternSize - 1) = true := by
  have hsub := toNat_sub_one hpos
  have hlast : UInt32.ofNat (patternSize.toNat - 1) = patternSize - 1 := by
    rw [← hsub, UInt32.ofNat_toNat]
  have hbyte (k : Nat) : bytesAt pattern 0 k = pattern (UInt32.ofNat k) := by
    unfold bytesAt
    rw [UInt32.zero_add]
  unfold memcmpEqual
  rw [hsub, List.all_eq_true]
  constructor
  · intro h
    refine ⟨?_, fun k hk => ?_⟩
    · have hk := h (patternSize.toNat - 1) (by omega)
      rw [bytesAt_last mem startPos hpos, hbyte, hlast] at hk
      exact hk.symm
    · have hk' := h k (by have := List.mem_range.mp hk; omega)
      rw [bytesAt_add, hbyte] at hk'
      exact decide_eq_true hk'.symm
  · rintro ⟨hend, hall⟩ k hk
    rcases Nat.lt_or_ge k (patternSize.toNat - 1) with hk' | hk'
    · rw [bytesAt_add, hbyte]
      exact (of_decide_eq_true (hall k (List.mem_range.mpr hk'))).symm
    · obtain rfl : k = patternSize.toNat - 1 := by omega
      rw [bytesAt_last mem startPos hpos, hbyte, hlast]
      exact hend.symm

/-- From places that have been looked at, the search finds the first one, unless it has too few turns. -/
theorem searchLoop_spec (hpos : 0 < patternSize.toNat) (hle : patternSize.toNat ≤ size.toNat) :
    ∀ (turns : Nat) (j : UInt32) (reads : List Access), j.toNat ≤ size.toNat →
      Scanned (bytesAt mem startPos) (bytesAt pattern 0) patternSize.toNat j.toNat → (∀ r ∈ reads, r.Inside size) →
        match searchLoop mem startPos pattern size patternSize (preprocess pattern patternSize) turns j reads with
        | none => turns + j.toNat ≤ size.toNat
        | some (found, reads) => FoundFirst mem startPos pattern size patternSize found ∧ ∀ r ∈ reads, r.Inside size := by
  have hlimit : (size - patternSize).toNat = size.toNat - patternSize.toNat :=
    UInt32.toNat_sub_of_le _ _ (UInt32.le_iff_toNat_le.mpr hle)
  have hsizeLt := size.toNat_lt
  intro turns
  induction turns with
  | zero =>
    intro j reads hj _ _
    show 0 + j.toNat ≤ size.toNat
    omega
  | succ turns ih =>
    intro j reads hj hscanned hreads
    unfold searchLoop
    by_cases hmore : j ≤ size - patternSize
    · have hmore' := UInt32.le_iff_toNat_le.mp hmore
      have hsub := toNat_sub_one hpos
      have hadd : (j + patternSize - 1).toNat = j.toNat + (patternSize.toNat - 1) := by
        rw [show j + patternSize - 1 = j + (patternSize - 1) by grind, UInt32.toNat_add, hsub]
        omega
      have hbyte : (⟨j + patternSize - 1, 1⟩ : Access).Inside size := by
        right
        show (j + patternSize - 1).toNat + 1 ≤ size.toNat
        omega
      have hblock : (⟨j, patternSize - 1⟩ : Access).Inside size := by
        right
        show j.toNat + (patternSize - 1).toNat ≤ size.toNat
        omega
      rw [if_pos hmore]
      simp only
      have hoccurs := occurs_iff mem startPos pattern hpos j
      have hlast := bytesAt_last mem startPos hpos j
      generalize mem (startPos + (j + patternSize - 1)) = c at hoccurs hlast ⊢
      obtain ⟨hsome, hshift⟩ := preprocess_spec pattern hpos c
      have hshiftLe := hshift.le
      have hj' : (j + preprocess pattern patternSize c).toNat = j.toNat + (preprocess pattern patternSize c).toNat := by
        rw [UInt32.toNat_add]
        omega
      -- the search goes on where the pattern does not occur
      have hnext {reads : List Access} (hno : ¬Occurs (bytesAt mem startPos) (bytesAt pattern 0) patternSize.toNat j.toNat)
          (hreads : ∀ r ∈ reads, r.Inside size) :
          match searchLoop mem startPos pattern size patternSize (preprocess pattern patternSize) turns
              (j + preprocess pattern patternSize c) reads with
          | none => turns + 1 + j.toNat ≤ size.toNat
          | some (found, reads) => FoundFirst mem startPos pattern size patternSize found ∧ ∀ r ∈ reads, r.Inside size := by
        have hscanned' : Scanned (bytesAt mem startPos) (bytesAt pattern 0) patternSize.toNat
            (j.toNat + (preprocess pattern patternSize c).toNat) := hscanned.shift hno (by rw [hlast]; exact hshift)
        rw [← hj'] at hscanned'
        have hrest := ih _ reads (by omega) hscanned' hreads
        split
        · rename_i hloop
          rw [hloop] at hrest
          simp only at hrest
          omega
        · rename_i hloop
          rw [hloop] at hrest
          exact hrest
      have hreads₁ : ∀ r ∈ ⟨j + patternSize - 1, 1⟩ :: reads, r.Inside size := List.forall_mem_cons.mpr ⟨hbyte, hreads⟩
      have hreads₂ : ∀ r ∈ ⟨j, patternSize - 1⟩ :: ⟨j + patternSize - 1, 1⟩ :: reads, r.Inside size :=
        List.forall_mem_cons.mpr ⟨hblock, hreads₁⟩
      by_cases hc : pattern (patternSize - 1) = c
      · rw [if_pos hc]
        by_cases hequal : memcmpEqual pattern (fun k => mem (startPos + j + k)) (patternSize - 1) = true
        · rw [if_pos hequal]
          refine ⟨⟨some j.toNat, hscanned.isFirst_some (hoccurs.mpr ⟨hc, hequal⟩) (by omega), ?_⟩, hreads₂⟩
          rw [Option.map_some, UInt32.ofNat_toNat]
        · rw [if_neg hequal]
          exact hnext (fun h => hequal (hoccurs.mp h).2) hreads₂
      · rw [if_neg hc]
        exact hnext (fun h => hc (hoccurs.mp h).1) hreads₁
    · have hmore' := UInt32.lt_iff_toNat_lt.mp (UInt32.not_le.mp hmore)
      rw [if_neg hmore]
      exact ⟨⟨none, hscanned.isFirst_none (by omega), rfl⟩, hreads⟩

/-- A pattern that is not longer than what is searched is found. -/
theorem memsearch_spec (hpos : 0 < patternSize.toNat) (hle : patternSize.toNat ≤ size.toNat) (turns : Nat) :
    match memsearch mem startPos pattern size patternSize turns with
    | none => turns ≤ size.toNat
    | some (found, reads) => FoundFirst mem startPos pattern size patternSize found ∧ ∀ r ∈ reads, r.Inside size :=
  searchLoop_spec mem startPos pattern hpos hle turns 0 [] (Nat.zero_le _) scanned_zero fun _ hr => absurd hr List.not_mem_nil

theorem searchLoop_reads (table : UInt8 → UInt32) : ∀ (turns : Nat) (j : UInt32) (reads : List Access)
    {found : Option UInt32} {reads' : List Access},
    searchLoop mem startPos pattern size patternSize table turns j reads = some (found, reads') → ∀ r ∈ reads, r ∈ reads' := by
  intro turns
  induction turns with
  | zero =>
    intro j reads found reads' h
    cases h
  | succ turns ih =>
    intro j reads found reads' h r hr
    unfold searchLoop at h
    simp only at h
    split_ifs at h
    · obtain ⟨-, rfl⟩ := Prod.mk.inj (Option.some.inj h)
      simp [hr]
    · exact ih _ _ h r (by simp [hr])
    · exact ih _ _ h r (by simp [hr])
    · obtain ⟨-, rfl⟩ := Prod.mk.inj (Option.some.inj h)
      exact hr

/-- The first byte that is read is the one under the last of the pattern, whatever the sizes are. -/
theorem memsearch_inside {turns : Nat} {found : Option UInt32} {reads : List Access}
    (h : memsearch mem startPos pattern size patternSize turns = some (found, reads)) (hinside : ∀ r ∈ reads, r.Inside size) :
    0 < patternSize.toNat ∧ patternSize.toNat ≤ size.toNat := by
  have hfirst : (⟨0 + patternSize - 1, 1⟩ : Access) ∈ reads := by
    unfold memsearch at h
    rcases turns with _ | turns
    · cases h
    · unfold searchLoop at h
      simp only at h
      split_ifs at h with hmore
      · obtain ⟨-, rfl⟩ := Prod.mk.inj (Option.some.inj h)
        simp
      · exact searchLoop_reads mem startPos pattern _ _ _ _ h _ (by simp)
      · exact searchLoop_reads mem startPos pattern _ _ _ _ h _ (by simp)
      · exact absurd (UInt32.le_iff_toNat_le.mpr (Nat.zero_le _)) hmore
  have hsizeLt := size.toNat_lt
  rcases hinside _ hfirst with hzero | hle
  · exact absurd hzero (by simp)
  · change (0 + patternSize - 1).toNat + 1 ≤ size.toNat at hle
    rw [UInt32.zero_add] at hle
    by_cases hnone : patternSize = 0
    · -- the offset wraps around
      rw [hnone] at hle
      change 2 ^ 32 - 1 + 1 ≤ size.toNat at hle
      omega
    · have hpos : 0 < patternSize.toNat := Nat.pos_of_ne_zero fun h0 => hnone (UInt32.toNat_inj.mp h0)
      rw [toNat_sub_one hpos] at hle
      omega

theorem searchCorrect_iff :
    SearchCorrect mem startPos pattern size patternSize ↔ 0 < patternSize.toNat ∧ patternSize.toNat ≤ size.toNat := by
  constructor
  · rintro ⟨turns, found, reads, hrun, -, hinside⟩
    exact memsearch_inside mem startPos pattern hrun hinside
  · rintro ⟨hpos, hle⟩
    have hspec := memsearch_spec mem startPos pattern hpos hle (size.toNat + 1)
    rcases hrun : memsearch mem startPos pattern size patternSize (size.toNat + 1) with _ | ⟨found, reads⟩
    · rw [hrun] at hspec
      exact absurd hspec (Nat.not_succ_le_self _)
    · rw [hrun] at hspec
      exact ⟨_, found, reads, hrun, hspec.1, hspec.2⟩

end

/-! ## What is patched -/

section

variable (pattern : Bytes) (patSize : UInt32) (offset : Int32) (replace : Bytes) (repSize : UInt32)

/-- The place behind one that has been found, as the code has it. -/
theorem place_toNat {start size : UInt32} {p : Nat} (hle : p + patSize.toNat ≤ size.toNat) :
    (start + UInt32.ofNat p - start + patSize).toNat = p + patSize.toNat := by
  have hlt := size.toNat_lt
  rw [show start + UInt32.ofNat p - start = UInt32.ofNat p by grind, UInt32.toNat_add, UInt32.toNat_ofNat']
  omega

/-- After a place has been patched, the loop goes on behind it. -/
theorem patchLoop_next {turns n : Nat} {mem : Bytes} {start size i : UInt32} {p : Nat} {reads : List Access}
    (hle : p + patSize.toNat ≤ size.toNat)
    (hrun : memsearch mem start pattern size patSize turns = some (some (start + UInt32.ofNat p), reads)) :
    patchLoop pattern patSize offset replace repSize turns (n + 1) mem start size i =
      (patchLoop pattern patSize offset replace repSize turns n (patchAt offset replace repSize mem start p)
        (start + UInt32.ofNat p + patSize) (size - (start + UInt32.ofNat p - start + patSize)) (i + 1)).map fun rest =>
          { rest with searches := (size, reads) :: rest.searches } := by
  have hinside : ¬start + UInt32.ofNat p - start + patSize > size := by
    rw [gt_iff_lt, UInt32.lt_iff_toNat_lt, place_toNat patSize hle]
    omega
  rw [patchLoop, hrun]
  simp only
  rw [if_neg hinside]
  rfl

theorem left_toNat (start : UInt32) {size : UInt32} {p : Nat} (hle : p + patSize.toNat ≤ size.toNat) :
    (size - (start + UInt32.ofNat p - start + patSize)).toNat = size.toNat - (p + patSize.toNat) := by
  rw [UInt32.toNat_sub_of_le, place_toNat patSize hle]
  rwa [UInt32.le_iff_toNat_le, place_toNat patSize hle]

/-- With enough room, the first places are patched. -/
theorem patchLoop_patches (turns : Nat) : ∀ (n : Nat) (mem : Bytes) (start size i : UInt32), size.toNat < turns →
    Roomy pattern patSize offset replace repSize n mem start size.toNat →
      ∃ r k, patchLoop pattern patSize offset replace repSize turns n mem start size i = some r ∧
        r.patches = i + UInt32.ofNat k ∧ k ≤ n ∧
        PatchesFirst pattern patSize offset replace repSize n mem start size.toNat r.mem k ∧
        ∀ search ∈ r.searches, ∀ a ∈ search.2, a.Inside search.1 := by
  intro n
  induction n with
  | zero =>
    intro mem start size i _ _
    exact ⟨_, 0, rfl, (UInt32.add_zero i).symm, le_rfl, .enough, fun _ hs => absurd hs List.not_mem_nil⟩
  | succ n ih =>
    intro mem start size i hturns hroomy
    obtain ⟨⟨hpos, hle⟩, hrest⟩ := hroomy
    have hspec := memsearch_spec mem start pattern hpos hle turns
    rcases hrun : memsearch mem start pattern size patSize turns with _ | ⟨found, reads⟩
    · rw [hrun] at hspec
      exact absurd hspec (Nat.not_le.mpr hturns)
    · rw [hrun] at hspec
      obtain ⟨⟨place, hfirst, rfl⟩, hinside⟩ := hspec
      rcases place with _ | p
      · refine ⟨⟨mem, i, [(size, reads)]⟩, 0, ?_, (UInt32.add_zero i).symm, Nat.zero_le _, .noMore hfirst, ?_⟩
        · rw [patchLoop, hrun]
          rfl
        · exact fun search hsearch => List.mem_singleton.mp hsearch ▸ hinside
      · have hp : p + patSize.toNat ≤ size.toNat := hfirst.1.1
        have hleft := left_toNat patSize start hp
        obtain ⟨r, k, hloop, hpatches, hk, hpatched, hsearches⟩ := ih (patchAt offset replace repSize mem start p)
          (start + UInt32.ofNat p + patSize) (size - (start + UInt32.ofNat p - start + patSize)) (i + 1)
          (by omega) (by rw [hleft]; exact hrest p hfirst)
        rw [hleft] at hpatched
        refine ⟨{ r with searches := (size, reads) :: r.searches }, k + 1, ?_, ?_, by omega, .next hfirst hpatched, ?_⟩
        · rw [patchLoop_next pattern patSize offset replace repSize hp hrun, hloop]
          rfl
        · show r.patches = _
          rw [hpatches, UInt32.add_assoc, UInt32.add_comm 1, UInt32.ofNat_add]
          rfl
        · exact List.forall_mem_cons.mpr ⟨hinside, hsearches⟩

/-- Each search is kept with what it has read. -/
theorem patchLoop_searches {turns n : Nat} {mem : Bytes} {start size i : UInt32} {found : Option UInt32} {reads : List Access}
    {r : Patched} (hrun : memsearch mem start pattern size patSize turns = some (found, reads))
    (hloop : patchLoop pattern patSize offset replace repSize turns (n + 1) mem start size i = some r) :
    (size, reads) ∈ r.searches := by
  rw [patchLoop, hrun] at hloop
  rcases found with _ | found
  · obtain rfl := Option.some.inj hloop
    exact List.mem_singleton.mpr rfl
  · simp only at hloop
    split_ifs at hloop
    · obtain rfl := Option.some.inj hloop
      exact List.mem_singleton.mpr rfl
    · obtain ⟨rest, -, rfl⟩ := Option.map_eq_some_iff.mp hloop
      exact List.mem_cons_self

/-- Searches that read nothing outside have had enough room. -/
theorem patchLoop_roomy (turns : Nat) : ∀ (n : Nat) (mem : Bytes) (start size i : UInt32) (r : Patched),
    patchLoop pattern patSize offset replace repSize turns n mem start size i = some r →
      (∀ search ∈ r.searches, ∀ a ∈ search.2, a.Inside search.1) →
        Roomy pattern patSize offset replace repSize n mem start size.toNat := by
  intro n
  induction n with
  | zero => exact fun _ _ _ _ _ _ _ => trivial
  | succ n ih =>
    intro mem start size i r hloop hsearches
    rcases hrun : memsearch mem start pattern size patSize turns with _ | ⟨found, reads⟩
    · rw [patchLoop, hrun] at hloop
      cases hloop
    · obtain ⟨hpos, hle⟩ := memsearch_inside mem start pattern hrun
        (hsearches _ (patchLoop_searches pattern patSize offset replace repSize hrun hloop))
      have hspec := memsearch_spec mem start pattern hpos hle turns
      rw [hrun] at hspec
      obtain ⟨⟨place, hfirst, rfl⟩, -⟩ := hspec
      refine ⟨⟨hpos, hle⟩, fun p hp => ?_⟩
      obtain rfl := hfirst.unique hp
      have hfits : p + patSize.toNat ≤ size.toNat := hp.1.1
      rw [patchLoop_next pattern patSize offset replace repSize hfits hrun] at hloop
      obtain ⟨rest, hrest, rfl⟩ := Option.map_eq_some_iff.mp hloop
      have hroomy := ih _ _ _ _ rest hrest fun search hsearch => hsearches search (List.mem_cons_of_mem _ hsearch)
      rwa [left_toNat patSize start hfits] at hroomy

theorem patchCorrect_iff (mem : Bytes) (start size count : UInt32) :
    PatchCorrect pattern patSize offset replace repSize mem start size count ↔
      Roomy pattern patSize offset replace repSize count.toNat mem start size.toNat := by
  constructor
  · rintro ⟨turns, r, hloop, -, hsearches⟩
    exact patchLoop_roomy pattern patSize offset replace repSize turns _ _ _ _ _ r hloop hsearches
  · intro hroomy
    obtain ⟨r, k, hloop, hpatches, hk, hpatched, hsearches⟩ :=
      patchLoop_patches pattern patSize offset replace repSize (size.toNat + 1) _ mem start size 0 (Nat.lt_succ_self _) hroomy
    refine ⟨_, r, hloop, ?_, hsearches⟩
    have hcount := count.toNat_lt
    have hk' : r.patches.toNat = k := by
      rw [hpatches, UInt32.zero_add, UInt32.toNat_ofNat']
      omega
    rwa [hk']

/-- A search is right for exactly the patterns that are not empty and not longer than what is searched, and so patches
are right exactly if each search that is made for them is one of those. -/
theorem searches_correct_iff (mem : Bytes) (start size count : UInt32) :
    (SearchCorrect mem start pattern size patSize ↔ 0 < patSize.toNat ∧ patSize.toNat ≤ size.toNat) ∧
      (PatchCorrect pattern patSize offset replace repSize mem start size count ↔
        Roomy pattern patSize offset replace repSize count.toNat mem start size.toNat) :=
  ⟨searchCorrect_iff mem start pattern, patchCorrect_iff pattern patSize offset replace repSize mem start size count⟩

end

/-- Memory with 1, 2, 1 and 2 from an address on. -/
def fourBytes : Bytes := fun a => if a = 0x1000 ∨ a = 0x1002 then 1 else if a = 0x1001 ∨ a = 0x1003 then 2 else 0

/-- The pattern 1 and 2. -/
def twoBytes : Bytes := fun a => if a = 0 then 1 else 2

/-- A pattern of two bytes is found where one byte is left, also after a hit, and what is behind the memory is patched. -/
theorem short_remainder :
    (memsearch fourBytes 0x1002 twoBytes 1 2 1).map Prod.fst = some (some 0x1002) ∧
      ¬SearchCorrect fourBytes 0x1002 twoBytes 1 2 ∧
      ((patchMemory twoBytes 2 0 (fun _ => 9) 2 fourBytes 0x1000 3 2 4).map fun r => (r.mem 0x1003, r.patches)) = some (9, 1) ∧
      ¬PatchCorrect twoBytes 2 0 (fun _ => 9) 2 fourBytes 0x1000 3 2 := by
  refine ⟨by decide +kernel, ?_, by decide +kernel, ?_⟩
  · rw [searchCorrect_iff]
    rintro ⟨-, hle⟩
    exact absurd hle (by decide)
  · rw [patchCorrect_iff]
    intro hroomy
    have hfirst : IsFirst (bytesAt fourBytes 0x1000) (bytesAt twoBytes 0) (2 : UInt32).toNat (3 : UInt32).toNat (some 0) :=
      ⟨⟨by decide, by decide⟩, fun q _ => Nat.zero_le q⟩
    have hnext := (hroomy.2 0 hfirst).1.2
    exact absurd hnext (by decide)

end Omiiba.Loader.Patcher
