/-
The decompression of a `.code` section in loader.c: which addresses it reads and writes, and for which
sections all of them are in the region that the code is mapped to.
-/
import Omiiba.Lib.Memory

namespace Omiiba.Loader

open Memory

/-! ## Decompression -/

/-- The memory, the pointers for output and input, the last byte, and the addresses read and written so far. -/
structure LzssState where
  mem : Memory UInt8
  v2 : UInt32
  v3 : UInt32
  ret : UInt8
  touched : List UInt32

namespace LzssState

/-- `ret = v2[v15]; *(v2-- - 1) = ret`. -/
def copyByte (v15 : UInt32) (s : LzssState) : LzssState :=
  let ret := s.mem (s.v2 + v15).toNat
  { s with
    mem := s.mem.store (s.v2 - 1).toNat [ret]
    v2 := s.v2 - 1
    ret := ret
    touched := (s.v2 - 1) :: (s.v2 + v15) :: s.touched }

def copyLoop (v15 : UInt32) : Nat → LzssState → LzssState
  | 0, s => s
  | n + 1, s => copyLoop v15 n (s.copyByte v15)

/-- A pair of bytes: where to copy from, and how much. `v16` falls from `v12 + 32` by 16 until it is negative. -/
def copyToken (s : LzssState) : LzssState :=
  let v12 := s.mem (s.v3 - 1).toNat
  let v14 := s.mem (s.v3 - 2).toNat
  let v15 := ((v14.toUInt32 ||| (v12.toUInt32 <<< 8)) &&& 0xFFFF0FFF) + 2
  copyLoop v15 ((v12.toNat + 32) / 16 + 1) { s with v3 := s.v3 - 2, touched := (s.v3 - 2) :: (s.v3 - 1) :: s.touched }

def literalToken (s : LzssState) : LzssState :=
  let v9 := s.mem (s.v3 - 1).toNat
  { mem := s.mem.store (s.v2 - 1).toNat [v9]
    v2 := s.v2 - 1
    v3 := s.v3 - 1
    ret := v9
    touched := (s.v2 - 1) :: (s.v3 - 1) :: s.touched }

def flags (s : LzssState) : UInt8 := s.mem (s.v3 - 1).toNat

def skipFlags (s : LzssState) : LzssState := { s with v3 := s.v3 - 1, touched := (s.v3 - 1) :: s.touched }

/-- The loop over the bits of `v5`, of which `v7` are left; whether the function returns in it. -/
def bitLoop (v4 : UInt32) : Nat → UInt8 → LzssState → LzssState × Bool
  | 0, _, s => (s, false)
  | v7 + 1, v5, s =>
    let s := if v5 &&& 0x80 ≠ 0 then s.copyToken else s.literalToken
    if s.v3 ≤ v4 then (s, true) else bitLoop v4 v7 (v5 * 2) s

/-- The loop `while ( v3 > v4 )`. -/
def flagLoop (v4 : UInt32) : Nat → LzssState → LzssState
  | 0, s => s
  | fuel + 1, s =>
    if s.v3 > v4 then
      match bitLoop v4 8 s.flags s.skipFlags with
      | (s, true) => s
      | (s, false) => flagLoop v4 fuel s
    else s

end LzssState

def word (mem : Memory UInt8) (a : UInt32) : UInt32 := UInt32.ofNat (mem.load a.toNat 4)

/-- `v4`, where the input ends. -/
def inputEnd (mem : Memory UInt8) (codeEnd : UInt32) : UInt32 := codeEnd - (word mem (codeEnd - 8) &&& 0xFFFFFF)

/-- The pointers after the footer has been read. -/
def lzssStart (mem : Memory UInt8) (codeEnd : UInt32) : LzssState where
  mem := mem
  v2 := codeEnd + word mem (codeEnd - 4)
  v3 := codeEnd - (word mem (codeEnd - 8) >>> 24)
  ret := 0
  touched := (List.range 8).map fun i => codeEnd - UInt32.ofNat (i + 1)

/-- `lzss_decompress`; each turn of its outer loop reads one byte of the input at least. -/
def lzssDecompress (mem : Memory UInt8) (codeEnd : UInt32) : LzssState :=
  if codeEnd ≠ 0 then
    let s := lzssStart mem codeEnd
    s.flagLoop (inputEnd mem codeEnd) (s.v3 - inputEnd mem codeEnd).toNat
  else ⟨mem, 0, 0, 0, []⟩

/-! ## Loading -/

/-- `mapped->text_addr`. -/
def textAddr : UInt32 := 0x10000000

/-- `total_size`, in pages, for the sizes in the exheader. -/
def totalSize (text rodata data : UInt32) : UInt32 := ((text + 4095) >>> 12) + ((rodata + 4095) >>> 12) + ((data + 4095) >>> 12)

/-- What `allocateProgramMemoryWrapper` maps. -/
def mappedSize (total : UInt32) : Nat := (total <<< 12).toNat

/-- The content of the `.code` section, the size of which has 32 bits in the header of the ExeFS. -/
structure CodeSection where
  content : List UInt8
  small : content.length < 2 ^ 32

/-- The checks of the size: for a CXI in `readSysmoduleCxiCode`, whose `maxSize` has 32 bits, else in `loadCode`. -/
def accepts (cxi : Bool) (total : UInt32) (code : CodeSection) : Bool :=
  if cxi then code.content.length ≤ mappedSize total else code.content.length ≤ total.toNat * 2 ^ 12

/-- What `loadCode` does with a compressed section that it does not refuse. -/
def loadCompressed (cxi : Bool) (total : UInt32) (code : CodeSection) (mem : Memory UInt8) : Option LzssState :=
  if accepts cxi total code then
    some (lzssDecompress (mem.store textAddr.toNat code.content) (textAddr + UInt32.ofNat code.content.length))
  else none

/-! ## Tokens -/

/-- What the input consists of: bytes of flags, bytes as they are, and pairs of bytes for what is copied. -/
inductive Token
  | flags
  | literal
  | copy (offset : UInt32) (length : Nat)
  deriving DecidableEq

namespace Token

/-- How many bytes of input it takes. -/
def consumed : Token → Nat
  | flags => 1
  | literal => 1
  | copy _ _ => 2

/-- How many bytes of output it makes. -/
def produced : Token → Nat
  | flags => 0
  | literal => 1
  | copy _ length => length

/-- The addresses that it reads and writes. -/
def addresses (v2 v3 : UInt32) : Token → List UInt32
  | flags => [v3 - 1]
  | literal => [v2 - 1, v3 - 1]
  | copy offset length => (v3 - 2) :: (v3 - 1) :: (List.range length).flatMap fun i =>
      [v2 - UInt32.ofNat i - 1, v2 - UInt32.ofNat i + offset]

def allAddresses : UInt32 → UInt32 → List Token → List UInt32
  | _, _, [] => []
  | v2, v3, t :: ts => t.addresses v2 v3 ++ allAddresses (v2 - UInt32.ofNat t.produced) (v3 - UInt32.ofNat t.consumed) ts

end Token

theorem toNat_sub_ofNat {a : UInt32} {k : Nat} (h : k ≤ a.toNat) : (a - UInt32.ofNat k).toNat = a.toNat - k := by
  have hlt := a.toNat_lt
  have hk : (UInt32.ofNat k).toNat = k := by
    rw [UInt32.toNat_ofNat']
    omega
  rw [UInt32.toNat_sub_of_le _ _ (UInt32.le_iff_toNat_le.mpr (by rw [hk]; exact h)), hk]

namespace LzssState

/-- The pair of bytes below the input pointer. -/
def pair (s : LzssState) : Token :=
  .copy ((((s.mem (s.v3 - 2).toNat).toUInt32 ||| ((s.mem (s.v3 - 1).toNat).toUInt32 <<< 8)) &&& 0xFFFF0FFF) + 2)
    (((s.mem (s.v3 - 1).toNat).toNat + 32) / 16 + 1)

/-- The tokens of the loop over the bits of `v5`, each as it stands in the memory when it is reached. -/
def bitTokens (v4 : UInt32) : Nat → UInt8 → LzssState → List Token
  | 0, _, _ => []
  | v7 + 1, v5, s =>
    let t := if v5 &&& 0x80 ≠ 0 then s.pair else .literal
    let s := if v5 &&& 0x80 ≠ 0 then s.copyToken else s.literalToken
    t :: if s.v3 ≤ v4 then [] else bitTokens v4 v7 (v5 * 2) s

/-- The tokens of the input, each as it stands in the memory when it is reached. -/
def tokens (v4 : UInt32) : Nat → LzssState → List Token
  | 0, _ => []
  | fuel + 1, s =>
    if s.v3 > v4 then
      .flags :: bitTokens v4 8 s.flags s.skipFlags ++
        match bitLoop v4 8 s.flags s.skipFlags with
        | (_, true) => []
        | (s, false) => tokens v4 fuel s
    else []

/-- What tokens do to the pointers and which addresses they touch. -/
structure Takes (s s' : LzssState) (ts : List Token) : Prop where
  v2 : s'.v2 = s.v2 - UInt32.ofNat (ts.map Token.produced).sum
  v3 : s'.v3 = s.v3 - UInt32.ofNat (ts.map Token.consumed).sum
  touched : ∀ a, a ∈ s'.touched ↔ a ∈ s.touched ∨ a ∈ Token.allAddresses s.v2 s.v3 ts

theorem takes_nil (s : LzssState) : s.Takes s [] := by
  constructor
  · simp
  · simp
  · simp [Token.allAddresses]

theorem takes_of_eq {s s' : LzssState} {t : Token} (hv2 : s'.v2 = s.v2 - UInt32.ofNat t.produced)
    (hv3 : s'.v3 = s.v3 - UInt32.ofNat t.consumed) (htouched : ∀ a, a ∈ s'.touched ↔ a ∈ s.touched ∨ a ∈ t.addresses s.v2 s.v3) :
    s.Takes s' [t] := by
  constructor
  · simpa using hv2
  · simpa using hv3
  · simpa [Token.allAddresses] using htouched

theorem sub_ofNat_add (a : UInt32) (m n : Nat) : a - UInt32.ofNat m - UInt32.ofNat n = a - UInt32.ofNat (m + n) := by
  rw [UInt32.ofNat_add, UInt32.sub_eq_add_neg, UInt32.sub_eq_add_neg, UInt32.sub_eq_add_neg, UInt32.neg_add, UInt32.add_assoc,
    UInt32.sub_eq_add_neg]

theorem allAddresses_append (ts us : List Token) : ∀ v2 v3 : UInt32, Token.allAddresses v2 v3 (ts ++ us) =
    Token.allAddresses v2 v3 ts ++ Token.allAddresses (v2 - UInt32.ofNat (ts.map Token.produced).sum)
      (v3 - UInt32.ofNat (ts.map Token.consumed).sum) us := by
  induction ts with
  | nil => simp [Token.allAddresses]
  | cons t ts ih =>
    intro v2 v3
    simp only [List.cons_append, Token.allAddresses, ih, List.map_cons, List.sum_cons, sub_ofNat_add, List.append_assoc]

theorem Takes.trans {s s₁ s₂ : LzssState} {ts us : List Token} (h₁ : s.Takes s₁ ts) (h₂ : s₁.Takes s₂ us) :
    s.Takes s₂ (ts ++ us) := by
  constructor
  · rw [h₂.v2, h₁.v2, sub_ofNat_add, List.map_append, List.sum_append]
  · rw [h₂.v3, h₁.v3, sub_ofNat_add, List.map_append, List.sum_append]
  · intro a
    rw [h₂.touched, h₁.touched, allAddresses_append, List.mem_append, h₁.v2, h₁.v3, or_assoc]

theorem copyLoop_spec (v15 : UInt32) : ∀ (n : Nat) (s : LzssState),
    (s.copyLoop v15 n).v2 = s.v2 - UInt32.ofNat n ∧ (s.copyLoop v15 n).v3 = s.v3 ∧
      ∀ a, a ∈ (s.copyLoop v15 n).touched ↔ a ∈ s.touched ∨
        a ∈ (List.range n).flatMap fun i => [s.v2 - UInt32.ofNat i - 1, s.v2 - UInt32.ofNat i + v15]
  | 0, s => ⟨by simp [copyLoop], rfl, by simp [copyLoop]⟩
  | n + 1, s => by
    obtain ⟨hv2, hv3, htouched⟩ := copyLoop_spec v15 n (s.copyByte v15)
    refine ⟨?_, ?_, fun a => ?_⟩
    · show ((s.copyByte v15).copyLoop v15 n).v2 = _
      rw [hv2, show (s.copyByte v15).v2 = s.v2 - UInt32.ofNat 1 from rfl, sub_ofNat_add, Nat.add_comm]
    · exact hv3
    · show a ∈ ((s.copyByte v15).copyLoop v15 n).touched ↔ _
      have hfirst : (s.copyByte v15).touched = (s.v2 - 1) :: (s.v2 + v15) :: s.touched := rfl
      have hshift (i : Nat) : (s.copyByte v15).v2 - UInt32.ofNat i = s.v2 - UInt32.ofNat (i + 1) := by
        rw [show (s.copyByte v15).v2 = s.v2 - UInt32.ofNat 1 from rfl, sub_ofNat_add, Nat.add_comm]
      rw [htouched, hfirst, List.range_succ_eq_map, List.flatMap_cons, List.flatMap_map]
      simp only [hshift, List.mem_cons, List.mem_append, Nat.succ_eq_add_one]
      grind

theorem skipFlags_takes (s : LzssState) : s.Takes s.skipFlags [.flags] := by
  refine takes_of_eq (by simp [Token.produced, skipFlags]) rfl fun a => ?_
  simp [Token.addresses, skipFlags, or_comm]

theorem literalToken_takes (s : LzssState) : s.Takes s.literalToken [.literal] := by
  refine takes_of_eq rfl rfl fun a => ?_
  simp only [literalToken, Token.addresses, List.mem_cons, List.not_mem_nil, or_false]
  grind

theorem copyToken_takes (s : LzssState) : s.Takes s.copyToken [s.pair] := by
  unfold copyToken
  dsimp only
  obtain ⟨hv2, hv3, htouched⟩ := copyLoop_spec
    ((((s.mem (s.v3 - 2).toNat).toUInt32 ||| ((s.mem (s.v3 - 1).toNat).toUInt32 <<< 8)) &&& 0xFFFF0FFF) + 2)
    (((s.mem (s.v3 - 1).toNat).toNat + 32) / 16 + 1)
    { s with v3 := s.v3 - 2, touched := (s.v3 - 2) :: (s.v3 - 1) :: s.touched }
  refine takes_of_eq hv2 hv3 fun a => ?_
  rw [htouched]
  simp only [pair, Token.addresses, List.mem_cons]
  grind

/-- The token that a bit stands for. -/
theorem token_takes (s : LzssState) (v5 : UInt8) :
    s.Takes (if v5 &&& 0x80 ≠ 0 then s.copyToken else s.literalToken) [if v5 &&& 0x80 ≠ 0 then s.pair else .literal] := by
  split_ifs with hbit
  · exact s.copyToken_takes
  · exact s.literalToken_takes

theorem bitLoop_takes (v4 : UInt32) : ∀ (v7 : Nat) (v5 : UInt8) (s : LzssState),
    s.Takes (bitLoop v4 v7 v5 s).1 (bitTokens v4 v7 v5 s)
  | 0, _, s => takes_nil s
  | v7 + 1, v5, s => by
    have hfirst := s.token_takes v5
    unfold bitLoop bitTokens
    dsimp only
    split_ifs at hfirst ⊢ with hbit hend hend
    · exact hfirst
    · exact hfirst.trans (bitLoop_takes v4 v7 (v5 * 2) _)
    · exact hfirst
    · exact hfirst.trans (bitLoop_takes v4 v7 (v5 * 2) _)

theorem flagLoop_takes (v4 : UInt32) : ∀ (fuel : Nat) (s : LzssState), s.Takes (s.flagLoop v4 fuel) (s.tokens v4 fuel)
  | 0, s => takes_nil s
  | fuel + 1, s => by
    unfold flagLoop tokens
    split_ifs with hmore
    · have hbits := s.skipFlags_takes.trans (bitLoop_takes v4 8 s.flags s.skipFlags)
      split
      · rename_i s' heq
        rw [heq, List.singleton_append] at hbits
        simpa using hbits
      · rename_i s' heq
        rw [heq, List.singleton_append] at hbits
        exact hbits.trans (flagLoop_takes v4 fuel s')
    · exact takes_nil s

/-! ## Ends -/

theorem token_v3 (s : LzssState) (v5 : UInt8) (h : 2 ≤ s.v3.toNat) :
    let s' := if v5 &&& 0x80 ≠ 0 then s.copyToken else s.literalToken
    s'.v3.toNat < s.v3.toNat ∧ s.v3.toNat ≤ s'.v3.toNat + 2 := by
  intro s'
  have hv3 := (s.token_takes v5).v3
  have hcount : (if v5 &&& 0x80 ≠ 0 then s.pair else .literal).consumed = 1 ∨
      (if v5 &&& 0x80 ≠ 0 then s.pair else .literal).consumed = 2 := by
    split_ifs
    · exact Or.inr rfl
    · exact Or.inl rfl
  rw [List.map_singleton, List.sum_singleton] at hv3
  change s'.v3 = _ at hv3
  rw [hv3]
  rcases hcount with hone | htwo
  · rw [hone, toNat_sub_ofNat (by omega)]
    omega
  · rw [htwo, toNat_sub_ofNat (by omega)]
    omega

/-- The loop over bits either reaches the end of the input, or leaves less of it. -/
theorem bitLoop_v3 {v4 : UInt32} (hlow : 2 ≤ v4.toNat) : ∀ (v7 : Nat) (v5 : UInt8) (s : LzssState), v4 ≤ s.v3 →
    (v7 = 0 → v4 < s.v3) →
      let (s', returned) := bitLoop v4 v7 v5 s
      if returned then s'.v3 ≤ v4 else v4 < s'.v3 ∧ s'.v3 ≤ s.v3
  | 0, v5, s, _, hmore => ⟨hmore rfl, UInt32.le_refl _⟩
  | v7 + 1, v5, s, hle, _ => by
    have hle' := UInt32.le_iff_toNat_le.mp hle
    obtain ⟨hless, hnear⟩ := token_v3 s v5 (by omega)
    unfold bitLoop
    dsimp only
    generalize (if v5 &&& 0x80 ≠ 0 then s.copyToken else s.literalToken) = s₁ at *
    by_cases hend : s₁.v3 ≤ v4
    · rw [if_pos hend]
      exact hend
    · rw [if_neg hend]
      have hgt := UInt32.not_le.mp hend
      have hrest := bitLoop_v3 hlow v7 (v5 * 2) s₁ (UInt32.le_of_lt hgt) fun _ => hgt
      revert hrest
      generalize bitLoop v4 v7 (v5 * 2) s₁ = result
      obtain ⟨s', returned⟩ := result
      cases returned with
      | true => exact fun hrest => hrest
      | false =>
        rintro ⟨hgt', hle₁⟩
        exact ⟨hgt', UInt32.le_trans hle₁ (UInt32.le_iff_toNat_le.mpr (by omega))⟩

/-- The loops end, with the input at its end. -/
theorem flagLoop_v3 {v4 : UInt32} (hlow : 2 ≤ v4.toNat) : ∀ (fuel : Nat) (s : LzssState), s.v3.toNat - v4.toNat ≤ fuel →
    (s.flagLoop v4 fuel).v3 ≤ v4
  | 0, s, hfuel => UInt32.le_iff_toNat_le.mpr (show s.v3.toNat ≤ v4.toNat by omega)
  | fuel + 1, s, hfuel => by
    unfold flagLoop
    by_cases hmore : s.v3 > v4
    · rw [if_pos hmore]
      have hlt := UInt32.lt_iff_toNat_lt.mp hmore
      have hskip : s.skipFlags.v3.toNat = s.v3.toNat - 1 := toNat_sub_ofNat (k := 1) (by omega)
      have hbits := bitLoop_v3 hlow 8 s.flags s.skipFlags (UInt32.le_iff_toNat_le.mpr (by omega)) (by simp)
      revert hbits
      generalize bitLoop v4 8 s.flags s.skipFlags = result
      obtain ⟨s', returned⟩ := result
      cases returned with
      | true => exact fun hbits => hbits
      | false =>
        rintro ⟨-, hle⟩
        have hle' := UInt32.le_iff_toNat_le.mp hle
        exact flagLoop_v3 hlow fuel s' (by omega)
    · rw [if_neg hmore]
      exact UInt32.not_lt.mp hmore

end LzssState

/-! ## Where tokens stay -/

/-- From the first to before the second. -/
def Between (low high : Nat) (a : UInt32) : Prop := low ≤ a.toNat ∧ a.toNat < high

instance (low high : Nat) (a : UInt32) : Decidable (Between low high a) := inferInstanceAs (Decidable (_ ∧ _))

/-- Tokens read and write between two addresses: there is input and room for output, and what is copied from is
not behind the end. -/
structure Fits (low high v2 v3 : Nat) (ts : List Token) : Prop where
  input : ts ≠ [] → low + (ts.map Token.consumed).sum ≤ v3
  output : (ts.map Token.produced).sum ≠ 0 → v2 ≤ high ∧ low + (ts.map Token.produced).sum ≤ v2
  source : ∀ before offset length after, ts = before ++ .copy offset length :: after →
    v2 + offset.toNat < high + (before.map Token.produced).sum

/-- A token as a pair of bytes can make it. -/
def Token.Small : Token → Prop
  | .copy offset length => offset.toNat < 2 ^ 17 ∧ 0 < length ∧ length ≤ 18
  | _ => True

section

variable {low high : Nat}

theorem between_sub_iff (hlow : 2 ^ 17 ≤ low) (hhigh : high + 4096 ≤ 2 ^ 32) (a : UInt32) {k : Nat} (hk : k ≤ 4096) :
    Between low high (a - UInt32.ofNat k) ↔ low + k ≤ a.toNat ∧ a.toNat < high + k := by
  unfold Between
  have hlt := a.toNat_lt
  by_cases hle : k ≤ a.toNat
  · rw [toNat_sub_ofNat hle]
    omega
  · have hofNat : (UInt32.ofNat k).toNat = k := by
      rw [UInt32.toNat_ofNat']
      omega
    rw [UInt32.toNat_sub, hofNat]
    omega

/-- A pair of bytes has its output and what it is copied from in between exactly if its ends are. -/
theorem copy_between_iff (hlow : 2 ^ 17 ≤ low) (hhigh : high + 4096 ≤ 2 ^ 32) (v2 : UInt32) {offset : UInt32} {length : Nat}
    (hsmall : (Token.copy offset length).Small) :
    (∀ i < length, Between low high (v2 - UInt32.ofNat i - 1) ∧ Between low high (v2 - UInt32.ofNat i + offset)) ↔
      v2.toNat ≤ high ∧ low + length ≤ v2.toNat ∧ v2.toNat + offset.toNat < high := by
  obtain ⟨hoffset, hpos, hlength⟩ := hsmall
  have hv2 := v2.toNat_lt
  have hout (i : Nat) (hi : i < length) : Between low high (v2 - UInt32.ofNat i - 1) ↔
      low + (i + 1) ≤ v2.toNat ∧ v2.toNat < high + (i + 1) := by
    rw [show v2 - UInt32.ofNat i - 1 = v2 - UInt32.ofNat (i + 1) from LzssState.sub_ofNat_add v2 i 1]
    exact between_sub_iff hlow hhigh v2 (by omega)
  constructor
  · intro h
    have hfirst := (hout 0 hpos).mp (h 0 hpos).1
    have hlast := (hout (length - 1) (by omega)).mp (h (length - 1) (by omega)).1
    have hsource := (h 0 hpos).2
    rw [show v2 - UInt32.ofNat 0 = v2 by simp] at hsource
    unfold Between at hsource
    rw [UInt32.toNat_add] at hsource
    omega
  · rintro ⟨hle, hroom, hsource⟩ i hi
    refine ⟨(hout i hi).mpr (by omega), ?_⟩
    unfold Between
    rw [UInt32.toNat_add, toNat_sub_ofNat (by omega)]
    omega

/-- One token stays in between exactly if there is input and room for it. -/
theorem addresses_between_iff (hlow : 2 ^ 17 ≤ low) (hhigh : high + 4096 ≤ 2 ^ 32) {t : Token} (hsmall : t.Small)
    (v2 : UInt32) {v3 : UInt32} (hv3 : v3.toNat ≤ high) :
    (∀ a ∈ t.addresses v2 v3, Between low high a) ↔
      low + t.consumed ≤ v3.toNat ∧ (t.produced ≠ 0 → v2.toNat ≤ high ∧ low + t.produced ≤ v2.toNat) ∧
        ∀ offset length, t = .copy offset length → v2.toNat + offset.toNat < high := by
  have hone (v : UInt32) : Between low high (v - 1) ↔ low + 1 ≤ v.toNat ∧ v.toNat < high + 1 :=
    between_sub_iff hlow hhigh v (k := 1) (by omega)
  cases t with
  | flags =>
    simp only [Token.addresses, List.mem_singleton, forall_eq, hone, Token.consumed, Token.produced]
    constructor
    · rintro ⟨hle, -⟩
      exact ⟨hle, fun h => absurd rfl h, by simp⟩
    · rintro ⟨hle, -, -⟩
      omega
  | literal =>
    simp only [Token.addresses, List.mem_cons, List.not_mem_nil, or_false, forall_eq_or_imp, forall_eq, hone, Token.consumed,
      Token.produced]
    constructor
    · rintro ⟨hout, hin⟩
      exact ⟨hin.1, fun _ => ⟨by omega, hout.1⟩, by simp⟩
    · rintro ⟨hin, hout, -⟩
      have hout := hout (by decide)
      omega
  | copy offset length =>
    have htwo : Between low high (v3 - 2) ↔ low + 2 ≤ v3.toNat ∧ v3.toNat < high + 2 :=
      between_sub_iff hlow hhigh v3 (k := 2) (by omega)
    have hcopies := copy_between_iff hlow hhigh v2 hsmall
    have hmem : (∀ a ∈ (Token.copy offset length).addresses v2 v3, Between low high a) ↔
        Between low high (v3 - 2) ∧ Between low high (v3 - 1) ∧
          ∀ i < length, Between low high (v2 - UInt32.ofNat i - 1) ∧ Between low high (v2 - UInt32.ofNat i + offset) := by
      simp only [Token.addresses, List.mem_cons, List.mem_flatMap, List.mem_range, List.not_mem_nil, or_false,
        forall_eq_or_imp]
      grind
    rw [hmem, htwo, hone, hcopies]
    constructor
    · rintro ⟨hpair, -, hle, hroom, hsource⟩
      refine ⟨hpair.1, fun _ => ⟨hle, hroom⟩, ?_⟩
      rintro offset' length' heq
      cases heq
      exact hsource
    · rintro ⟨hin, hout, hsource⟩
      have hpos := hsmall.2.1
      have hout' := hout (show length ≠ 0 by omega)
      have hsource' := hsource offset length rfl
      simp only [Token.consumed] at hin
      exact ⟨by omega, by omega, hout'.1, hout'.2, hsource'⟩

theorem fits_nil (v2 v3 : Nat) : Fits low high v2 v3 [] := by
  constructor
  · simp
  · simp
  · simp

/-- The first token, and the others from where it leaves the pointers. -/
theorem fits_cons_iff {t : Token} {ts : List Token} {v2 v3 : Nat} :
    Fits low high v2 v3 (t :: ts) ↔
      (low + t.consumed ≤ v3 ∧ (t.produced ≠ 0 → v2 ≤ high ∧ low + t.produced ≤ v2) ∧
        ∀ offset length, t = .copy offset length → v2 + offset.toNat < high) ∧
        Fits low high (v2 - t.produced) (v3 - t.consumed) ts := by
  constructor
  · intro h
    have hinput := h.input (List.cons_ne_nil _ _)
    have houtput := h.output
    rw [List.map_cons, List.sum_cons] at hinput houtput
    have hroom : t.produced ≤ v2 := by
      by_cases hzero : t.produced = 0
      · omega
      · have := houtput (by omega)
        omega
    refine ⟨⟨by omega, fun hne => ?_, fun offset length heq => ?_⟩, fun _ => by omega, fun hne => ?_, ?_⟩
    · have := houtput (by omega)
      omega
    · simpa using h.source [] offset length ts (by rw [heq]; rfl)
    · have := houtput (by omega)
      omega
    · intro before offset length after heq
      have hsource := h.source (t :: before) offset length after (by rw [heq]; rfl)
      rw [List.map_cons, List.sum_cons] at hsource
      omega
  · rintro ⟨⟨hinput, houtput, hsource⟩, h⟩
    constructor
    · intro _
      rw [List.map_cons, List.sum_cons]
      by_cases hnil : ts = []
      · subst hnil
        simpa using hinput
      · have hrest := h.input hnil
        omega
    · rw [List.map_cons, List.sum_cons]
      intro hne
      by_cases hrest : (ts.map Token.produced).sum = 0
      · have := houtput (by omega)
        omega
      · have hrest' := h.output hrest
        by_cases hzero : t.produced = 0
        · omega
        · have := houtput hzero
          omega
    · rintro (_ | ⟨u, before⟩) offset length after heq
      · simp only [List.nil_append, List.cons.injEq] at heq
        simpa using hsource offset length heq.1
      · simp only [List.cons_append, List.cons.injEq] at heq
        obtain ⟨rfl, htail⟩ := heq
        have hrest := h.source before offset length after htail
        rw [List.map_cons, List.sum_cons]
        omega

theorem allAddresses_between_iff (hlow : 2 ^ 17 ≤ low) (hhigh : high + 4096 ≤ 2 ^ 32) (ts : List Token) :
    ∀ v2 v3 : UInt32, (∀ t ∈ ts, t.Small) → v3.toNat ≤ high →
      ((∀ a ∈ Token.allAddresses v2 v3 ts, Between low high a) ↔ Fits low high v2.toNat v3.toNat ts) := by
  induction ts with
  | nil => exact fun v2 v3 _ _ => ⟨fun _ => fits_nil _ _, by simp [Token.allAddresses]⟩
  | cons t ts ih =>
    intro v2 v3 hsmall hv3
    have hfirst := addresses_between_iff hlow hhigh (hsmall t (by simp)) v2 hv3
    rw [fits_cons_iff, ← hfirst]
    have hmem : (∀ a ∈ Token.allAddresses v2 v3 (t :: ts), Between low high a) ↔
        (∀ a ∈ t.addresses v2 v3, Between low high a) ∧
          ∀ a ∈ Token.allAddresses (v2 - UInt32.ofNat t.produced) (v3 - UInt32.ofNat t.consumed) ts, Between low high a := by
      simp only [Token.allAddresses, List.mem_append]
      grind
    rw [hmem]
    refine and_congr_right fun hin => ?_
    obtain ⟨hinput, houtput, -⟩ := hfirst.mp hin
    have hv2' : (v2 - UInt32.ofNat t.produced).toNat = v2.toNat - t.produced := by
      refine toNat_sub_ofNat ?_
      by_cases hzero : t.produced = 0
      · omega
      · have hroom := (houtput hzero).2
        omega
    have hv3' : (v3 - UInt32.ofNat t.consumed).toNat = v3.toNat - t.consumed := toNat_sub_ofNat (by omega)
    rw [← hv2', ← hv3']
    exact ih _ _ (fun u hu => hsmall u (by simp [hu])) (by omega)

end

/-! ## The region -/

theorem pair_small (s : LzssState) : s.pair.Small := by
  have hbyte := (s.mem (s.v3 - 1).toNat).toNat_lt
  refine ⟨?_, by omega, by omega⟩
  obtain ⟨x, hx⟩ : ∃ x, x = ((s.mem (s.v3 - 2).toNat).toUInt32 ||| ((s.mem (s.v3 - 1).toNat).toUInt32 <<< 8)) := ⟨_, rfl⟩
  have hlt : x.toNat < 2 ^ 16 := by
    rw [hx, UInt32.toNat_or, UInt32.toNat_shiftLeft]
    refine Nat.or_lt_two_pow ?_ ?_
    · have hlow := (s.mem (s.v3 - 2).toNat).toNat_lt
      rw [UInt8.toNat_toUInt32]
      omega
    · rw [UInt8.toNat_toUInt32]
      show (s.mem (s.v3 - 1).toNat).toNat <<< 8 % 2 ^ 32 < 2 ^ 16
      rw [Nat.shiftLeft_eq]
      omega
  have hand : (x &&& 0xFFFF0FFF).toNat ≤ x.toNat := by
    rw [UInt32.toNat_and]
    exact Nat.and_le_left
  show ((_ &&& 0xFFFF0FFF) + 2 : UInt32).toNat < 2 ^ 17
  rw [← hx, UInt32.toNat_add]
  show ((x &&& 0xFFFF0FFF).toNat + 2) % 2 ^ 32 < 2 ^ 17
  omega

theorem bitTokens_small (v4 : UInt32) : ∀ (v7 : Nat) (v5 : UInt8) (s : LzssState), ∀ t ∈ s.bitTokens v4 v7 v5, t.Small
  | 0, _, _, _, ht => by simp [LzssState.bitTokens] at ht
  | v7 + 1, v5, s, t, ht => by
    unfold LzssState.bitTokens at ht
    rcases List.mem_cons.mp ht with rfl | ht
    · split_ifs
      · exact pair_small s
      · trivial
    · generalize (if v5 &&& 0x80 ≠ 0 then s.copyToken else s.literalToken) = s' at ht
      by_cases hend : s'.v3 ≤ v4
      · simp [hend] at ht
      · rw [if_neg hend] at ht
        exact bitTokens_small v4 v7 (v5 * 2) s' t ht

theorem tokens_small (v4 : UInt32) : ∀ (fuel : Nat) (s : LzssState), ∀ t ∈ s.tokens v4 fuel, t.Small
  | 0, _, _, ht => by simp [LzssState.tokens] at ht
  | fuel + 1, s, t, ht => by
    unfold LzssState.tokens at ht
    split at ht
    · rcases List.mem_append.mp ht with ht | ht
      · rcases List.mem_cons.mp ht with rfl | ht
        · trivial
        · exact bitTokens_small v4 8 s.flags s.skipFlags t ht
      · split at ht
        · simp at ht
        · exact tokens_small v4 fuel _ t ht
    · simp at ht

/-- The tokens of a section that ends at an address. -/
def sectionTokens (mem : Memory UInt8) (codeEnd : UInt32) : List Token :=
  (lzssStart mem codeEnd).tokens (inputEnd mem codeEnd) ((lzssStart mem codeEnd).v3 - inputEnd mem codeEnd).toNat

/-- The whole footer is in the region that is mapped, and the tokens stay in it. -/
structure SectionFits (total : UInt32) (mem : Memory UInt8) (codeEnd : UInt32) : Prop where
  footer : textAddr.toNat + 8 ≤ codeEnd.toNat ∧ codeEnd.toNat ≤ textAddr.toNat + mappedSize total
  tokens : Fits textAddr.toNat (textAddr.toNat + mappedSize total) (lzssStart mem codeEnd).v2.toNat
    (lzssStart mem codeEnd).v3.toNat (sectionTokens mem codeEnd)

theorem mappedSize_mod (total : UInt32) : mappedSize total % 4096 = 0 := by
  unfold mappedSize
  rw [UInt32.toNat_shiftLeft]
  show total.toNat <<< 12 % 2 ^ 32 % 4096 = 0
  rw [Nat.shiftLeft_eq]
  omega

/-- The input pointers are below the end, and above the lowest addresses. -/
theorem lzssStart_v3 (mem : Memory UInt8) {codeEnd : UInt32} (h : textAddr.toNat ≤ codeEnd.toNat) :
    (lzssStart mem codeEnd).v3.toNat ≤ codeEnd.toNat ∧ 2 ≤ (inputEnd mem codeEnd).toNat := by
  have htext : textAddr.toNat = 0x10000000 := rfl
  constructor
  · have hheader : (word mem (codeEnd - 8) >>> 24).toNat < 2 ^ 8 := by
      have hword := (word mem (codeEnd - 8)).toNat_lt
      rw [UInt32.toNat_shiftRight]
      show (word mem (codeEnd - 8)).toNat >>> 24 < 2 ^ 8
      rw [Nat.shiftRight_eq_div_pow]
      omega
    show (codeEnd - (word mem (codeEnd - 8) >>> 24)).toNat ≤ _
    rw [UInt32.toNat_sub_of_le _ _ (UInt32.le_iff_toNat_le.mpr (by omega))]
    omega
  · have hinput : (word mem (codeEnd - 8) &&& 0xFFFFFF).toNat ≤ 0xFFFFFF := by
      rw [UInt32.toNat_and]
      exact Nat.and_le_right
    unfold inputEnd
    rw [UInt32.toNat_sub_of_le _ _ (UInt32.le_iff_toNat_le.mpr (by omega))]
    omega

/-- Decompressing a section that is loaded ends, and stays in the region that is mapped, exactly if the section fits into
the region. -/
theorem lzssDecompress_inside_iff {cxi : Bool} {total : UInt32} {code : CodeSection} {mem : Memory UInt8} {s : LzssState}
    (hmapped : textAddr.toNat + mappedSize total < 2 ^ 32) (hload : loadCompressed cxi total code mem = some s) :
    let mem := mem.store textAddr.toNat code.content
    let codeEnd := textAddr + UInt32.ofNat code.content.length
    ((codeEnd = 0 ∨ s.v3 ≤ inputEnd mem codeEnd) ∧
        ∀ a ∈ s.touched, Between textAddr.toNat (textAddr.toNat + mappedSize total) a) ↔
      codeEnd = 0 ∨ SectionFits total mem codeEnd := by
  intro mem codeEnd
  have hs : s = lzssDecompress mem codeEnd := by
    unfold loadCompressed at hload
    split_ifs at hload
    exact (Option.some.inj hload).symm
  by_cases hzero : codeEnd = 0
  · have hnone : s.touched = [] := by
      rw [hs]
      unfold lzssDecompress
      rw [if_neg (not_not.mpr hzero)]
    simp [hzero, hnone]
  · simp only [hzero, false_or]
    have hhigh : textAddr.toNat + mappedSize total + 4096 ≤ 2 ^ 32 := by
      have hpages := mappedSize_mod total
      have htext : textAddr.toNat = 0x10000000 := rfl
      omega
    have hlow : 2 ^ 17 ≤ textAddr.toNat := by decide
    have hrun : s = (lzssStart mem codeEnd).flagLoop (inputEnd mem codeEnd)
        ((lzssStart mem codeEnd).v3 - inputEnd mem codeEnd).toNat := by
      rw [hs]
      unfold lzssDecompress
      rw [if_pos hzero]
    have htakes := (lzssStart mem codeEnd).flagLoop_takes (inputEnd mem codeEnd)
      ((lzssStart mem codeEnd).v3 - inputEnd mem codeEnd).toNat
    rw [← hrun] at htakes
    have hfooter : (∀ a ∈ (lzssStart mem codeEnd).touched, Between textAddr.toNat (textAddr.toNat + mappedSize total) a) ↔
        textAddr.toNat + 8 ≤ codeEnd.toNat ∧ codeEnd.toNat ≤ textAddr.toNat + mappedSize total := by
      have hbyte (i : Nat) (hi : i < 8) := between_sub_iff hlow hhigh codeEnd (k := i + 1) (by omega)
      simp only [lzssStart, List.mem_map, List.mem_range, forall_exists_index, and_imp, forall_apply_eq_imp_iff₂]
      constructor
      · intro h
        have hfirst := (hbyte 0 (by omega)).mp (h 0 (by omega))
        have hlast := (hbyte 7 (by omega)).mp (h 7 (by omega))
        omega
      · intro h i hi
        exact (hbyte i hi).mpr (by omega)
    have hinside : (∀ a ∈ s.touched, Between textAddr.toNat (textAddr.toNat + mappedSize total) a) ↔
        SectionFits total mem codeEnd := by
      have hsplit : (∀ a ∈ s.touched, Between textAddr.toNat (textAddr.toNat + mappedSize total) a) ↔
          (∀ a ∈ (lzssStart mem codeEnd).touched, Between textAddr.toNat (textAddr.toNat + mappedSize total) a) ∧
            ∀ a ∈ Token.allAddresses (lzssStart mem codeEnd).v2 (lzssStart mem codeEnd).v3 (sectionTokens mem codeEnd),
              Between textAddr.toNat (textAddr.toNat + mappedSize total) a := by
        simp only [htakes.touched]
        constructor
        · exact fun h => ⟨fun a ha => h a (Or.inl ha), fun a ha => h a (Or.inr ha)⟩
        · rintro ⟨hstart, htokens⟩ a (ha | ha)
          · exact hstart a ha
          · exact htokens a ha
      rw [hsplit, hfooter]
      have hbetween (hend : textAddr.toNat + 8 ≤ codeEnd.toNat ∧ codeEnd.toNat ≤ textAddr.toNat + mappedSize total) :=
        allAddresses_between_iff hlow hhigh (sectionTokens mem codeEnd) (lzssStart mem codeEnd).v2 (lzssStart mem codeEnd).v3
          (tokens_small _ _ _) ((lzssStart_v3 mem (by omega)).1.trans hend.2)
      constructor
      · rintro ⟨hend, htokens⟩
        exact ⟨hend, (hbetween hend).mp htokens⟩
      · rintro ⟨hend, htokens⟩
        exact ⟨hend, (hbetween hend).mpr htokens⟩
    rw [hinside]
    refine and_iff_right_of_imp fun h => ?_
    have hfits := h.footer
    have hend := (lzssStart_v3 mem (show textAddr.toNat ≤ codeEnd.toNat by omega)).2
    rw [hrun]
    by_cases hmore : inputEnd mem codeEnd ≤ (lzssStart mem codeEnd).v3
    · refine LzssState.flagLoop_v3 hend _ _ ?_
      rw [UInt32.toNat_sub_of_le _ _ hmore]
    · have hless := UInt32.lt_iff_toNat_lt.mp (UInt32.not_le.mp hmore)
      exact LzssState.flagLoop_v3 hend _ _ (by omega)

/-- Three bytes as they are, their flags, and the footer. -/
def threeLiterals : CodeSection := ⟨[1, 2, 3, 0, 12, 0, 0, 8, 0, 0, 0, 0], by decide⟩

theorem lzssDecompress_inside_threeLiterals :
    let mem := Memory.store (fun _ => 0) textAddr.toNat threeLiterals.content
    let codeEnd := textAddr + UInt32.ofNat threeLiterals.content.length
    codeEnd = 0 ∨ SectionFits 1 mem codeEnd := by
  have haccepts : accepts false 1 threeLiterals = true := by decide
  have hload : loadCompressed false 1 threeLiterals (fun _ => 0) = some (lzssDecompress
      (Memory.store (fun _ => 0) textAddr.toNat threeLiterals.content)
      (textAddr + UInt32.ofNat threeLiterals.content.length)) := if_pos haccepts
  have htouched : ((lzssDecompress (Memory.store (fun _ => 0) textAddr.toNat threeLiterals.content)
      (textAddr + UInt32.ofNat threeLiterals.content.length)).touched.all fun a =>
        Between textAddr.toNat (textAddr.toNat + mappedSize 1) a) = true := by decide +kernel
  refine (lzssDecompress_inside_iff (by decide) hload).mp ⟨by decide +kernel, fun a ha => ?_⟩
  exact of_decide_eq_true (List.all_eq_true.mp htouched a ha)

/-- A section with a footer that puts the end of the output behind the page that is mapped. -/
def hugeIncrement : CodeSection := ⟨[1, 2, 3, 0, 12, 0, 0, 8, 0, 0x20, 0, 0], by decide⟩

theorem hugeIncrement_outside :
    ∃ s, loadCompressed false (totalSize 12 0 0) hugeIncrement (fun _ => 0) = some s ∧ textAddr + 0x200B ∈ s.touched ∧
      ¬Between textAddr.toNat (textAddr.toNat + mappedSize (totalSize 12 0 0)) (textAddr + 0x200B) := by
  have haccepts : accepts false (totalSize 12 0 0) hugeIncrement = true := by decide
  exact ⟨_, if_pos haccepts, by decide +kernel⟩

end Omiiba.Loader
