/-
What the decompression in loader.c computes: the output of a decoder that has the compressed bytes apart from its output, as
long as the output does not overtake the input that is still to be read.
-/
import Omiiba.Loader.Lzss

namespace Omiiba.Loader.Lzss

open Memory

/-! ## The reference decoder -/

/-- What a stream consists of: a byte of flags, a byte as it is, and a copy of output behind, by a displacement. -/
inductive Item
  | flags
  | literal (b : UInt8)
  | copy (disp length : Nat)
  deriving DecidableEq

namespace Item

/-- How many bytes of input it takes. -/
def consumed : Item → Nat
  | flags => 1
  | literal _ => 1
  | copy _ _ => 2

/-- How many bytes of output it makes. -/
def produced : Item → Nat
  | flags => 0
  | literal _ => 1
  | copy _ length => length

end Item

/-- The items of a stream, the last byte of which comes first; `bits` of the flags are left. A pair of bytes has 12 bits of
displacement, and 4 bits of length with a minimum of 3. A stream does not end behind flags or within a pair. -/
def items : Nat → UInt8 → List UInt8 → Option (List Item)
  | _, _, [] => some []
  | 0, _, flags :: input => if input = [] then none else (items 8 flags input).map (.flags :: ·)
  | bits + 1, flags, b :: input =>
    if flags &&& 0x80 = 0 then (items bits (flags * 2) input).map (.literal b :: ·)
    else
      match input with
      | [] => none
      | b' :: input =>
        (items bits (flags * 2) input).map (.copy (b.toNat % 16 * 256 + b'.toNat) (b.toNat / 16 + 3) :: ·)

/-- A copy of output, byte by byte, from `disp + 3` behind; the last byte of the output comes first. -/
def copyBack (disp : Nat) : Nat → List UInt8 → Option (List UInt8)
  | 0, out => some out
  | n + 1, out =>
    match out[disp + 2]? with
    | none => none
    | some b => copyBack disp n (b :: out)

def expand : List Item → List UInt8 → Option (List UInt8)
  | [], out => some out
  | .flags :: is, out => expand is out
  | .literal b :: is, out => expand is (b :: out)
  | .copy disp length :: is, out => (copyBack disp length out).bind (expand is)

/-- The reference decoder. -/
def decode (input : List UInt8) : Option (List UInt8) := (items 0 0 input).bind fun is => expand is []

/-- With `gap` bytes between the input that is left and the output, the output does not come into the input. -/
def NotOvertaken : Nat → List Item → Prop
  | _, [] => True
  | gap, i :: is => i.produced ≤ gap + i.consumed ∧ NotOvertaken (gap + i.consumed - i.produced) is

instance decidableNotOvertaken : ∀ (gap : Nat) (is : List Item), Decidable (NotOvertaken gap is)
  | _, [] => isTrue trivial
  | gap, i :: is =>
    have := decidableNotOvertaken (gap + i.consumed - i.produced) is
    inferInstanceAs (Decidable (_ ∧ _))

/-! ## The section -/

/-- `n` bytes from an address on, the last one first. -/
def below (mem : Memory UInt8) (low : Nat) : Nat → List UInt8
  | 0 => []
  | n + 1 => mem (low + n) :: below mem low n

/-- The fields of the footer: how much the output is longer, the size of the footer, and the size with the footer. -/
def increment (mem : Memory UInt8) (codeEnd : UInt32) : Nat := (word mem (codeEnd - 4)).toNat

def headerSize (mem : Memory UInt8) (codeEnd : UInt32) : Nat := (word mem (codeEnd - 8) >>> 24).toNat

def compressedSize (mem : Memory UInt8) (codeEnd : UInt32) : Nat := (word mem (codeEnd - 8) &&& 0xFFFFFF).toNat

/-- A copy of the compressed bytes. -/
def compressed (mem : Memory UInt8) (codeEnd : UInt32) : List UInt8 :=
  below mem (codeEnd.toNat - compressedSize mem codeEnd) (compressedSize mem codeEnd - headerSize mem codeEnd)

/-- A section that ends at an address and holds a valid stream for an output, which does not overtake the input. -/
structure Valid (mem : Memory UInt8) (codeEnd : UInt32) (out : List UInt8) : Prop where
  nonempty : codeEnd ≠ 0
  inside : compressedSize mem codeEnd ≤ codeEnd.toNat
  footer : headerSize mem codeEnd ≤ compressedSize mem codeEnd
  room : codeEnd.toNat + increment mem codeEnd < 2 ^ 32
  decodes : decode (compressed mem codeEnd) = some out
  notOvertaken : ∀ is, items 0 0 (compressed mem codeEnd) = some is →
    NotOvertaken (increment mem codeEnd + headerSize mem codeEnd) is

/-! ## One item -/

theorem items_literal {bits : Nat} {flags : UInt8} (b : UInt8) (input : List UInt8) (h : flags &&& 0x80 = 0) :
    items (bits + 1) flags (b :: input) = (items bits (flags * 2) input).map (.literal b :: ·) := by
  cases input <;> simp [items, h]

theorem store_cons (m : Memory UInt8) (a : Nat) (b : UInt8) (bs : List UInt8) :
    (m.store (a + 1) bs).store a [b] = m.store a (b :: bs) := by
  funext x
  by_cases hx : x = a
  · subst hx
    rw [store_inside _ le_rfl (by simp), store_inside _ le_rfl (by simp)]
    simp
  · rw [store_outside _ (by simp; omega)]
    unfold Memory.store
    by_cases hlow : a + 1 ≤ x
    · rw [if_pos hlow, if_pos (by omega), show x - a = x - (a + 1) + 1 by omega, List.getElem?_cons_succ]
    · rw [if_neg hlow, if_neg (by omega)]

theorem store_before (m : Memory UInt8) {a : Nat} (ha : 1 ≤ a) (b : UInt8) (bs : List UInt8) :
    (m.store a bs).store (a - 1) [b] = m.store (a - 1) (b :: bs) := by
  have h := store_cons m (a - 1) b bs
  rwa [Nat.sub_add_cancel ha] at h

theorem length_of_copyBack (disp : Nat) : ∀ (n : Nat) {out out' : List UInt8}, copyBack disp n out = some out' →
    out'.length = out.length + n := by
  intro n
  induction n with
  | zero =>
    intro out out' h
    obtain rfl := Option.some.inj h
    rfl
  | succ n ih =>
    intro out out' h
    unfold copyBack at h
    split at h
    · cases h
    · have hlen := ih h
      rw [List.length_cons] at hlen
      omega

/-- The offset that the code makes of a pair of bytes. -/
theorem offset_toNat (v12 v14 : UInt8) :
    (((v14.toUInt32 ||| (v12.toUInt32 <<< 8)) &&& 0xFFFF0FFF) + 2 : UInt32).toNat =
      v12.toNat % 16 * 256 + v14.toNat + 2 := by
  have h12 := v12.toNat_lt
  have h14 := v14.toNat_lt
  have hor : (v14.toUInt32 ||| (v12.toUInt32 <<< 8)).toNat = v12.toNat * 256 + v14.toNat := by
    rw [UInt32.toNat_or, UInt32.toNat_shiftLeft, UInt8.toNat_toUInt32, UInt8.toNat_toUInt32]
    show v14.toNat ||| v12.toNat <<< 8 % 2 ^ 32 = _
    rw [Nat.mod_eq_of_lt (by rw [Nat.shiftLeft_eq]; omega), Nat.or_comm, ← Nat.shiftLeft_add_eq_or_of_lt (by omega),
      Nat.shiftLeft_eq]
  have hand : (((v14.toUInt32 ||| (v12.toUInt32 <<< 8)) &&& 0xFFFF0FFF) : UInt32).toNat =
      (v12.toNat * 256 + v14.toNat) % 2 ^ 12 := by
    rw [UInt32.toNat_and, hor]
    show (v12.toNat * 256 + v14.toNat) &&& 0xFFFF0FFF = _
    have hsmall : (v12.toNat * 256 + v14.toNat) &&& 0xFFFF0FFF < 2 ^ 16 :=
      lt_of_le_of_lt Nat.and_le_left (by omega)
    rw [← Nat.mod_eq_of_lt hsmall, Nat.and_mod_two_pow, Nat.mod_eq_of_lt (by omega : v12.toNat * 256 + v14.toNat < 2 ^ 16)]
    exact Nat.and_two_pow_sub_one_eq_mod _ 12
  rw [UInt32.toNat_add, hand]
  show ((v12.toNat * 256 + v14.toNat) % 2 ^ 12 + 2) % 2 ^ 32 = _
  omega

/-! ## The pointers -/

section

variable {mem : Memory UInt8} {v4 top : Nat}

/-- The state of the code where `n` bytes of input and the items of these are left: they have not been written to, and the
output so far is all that has been written. -/
structure Reads (mem : Memory UInt8) (v4 top : Nat) (s : LzssState) (n : Nat) (is : List Item) (out : List UInt8) : Prop where
  mem : s.mem = mem.store s.v2.toNat out
  top : s.v2.toNat + out.length = top
  input : s.v3.toNat = v4 + n
  apart : s.v3.toNat ≤ s.v2.toNat
  gap : NotOvertaken (s.v2.toNat - s.v3.toNat) is

theorem Reads.byte {s : LzssState} {n : Nat} {is : List Item} {out : List UInt8} (h : Reads mem v4 top s n is out) {x : Nat}
    (hx : x < s.v2.toNat) : s.mem x = mem x := by
  rw [h.mem, store_outside _ (Or.inl hx)]

theorem toNat_sub_one {a : UInt32} (h : 1 ≤ a.toNat) : (a - 1).toNat = a.toNat - 1 := toNat_sub_ofNat (k := 1) h

theorem toNat_sub_two {a : UInt32} (h : 2 ≤ a.toNat) : (a - 2).toNat = a.toNat - 2 := toNat_sub_ofNat (k := 2) h

theorem skipFlags_reads {s : LzssState} {n : Nat} {is : List Item} {out : List UInt8}
    (h : Reads mem v4 top s (n + 1) (.flags :: is) out) :
    s.flags = mem (v4 + n) ∧ Reads mem v4 top s.skipFlags n is out := by
  have hinput := h.input
  have hapart := h.apart
  have hv3 : (s.v3 - 1).toNat = s.v3.toNat - 1 := toNat_sub_one (by omega)
  have hgap := h.gap.2
  simp only [Item.consumed, Item.produced] at hgap
  refine ⟨?_, h.mem, h.top, ?_, ?_, ?_⟩
  · rw [LzssState.flags, hv3, h.byte (by omega), show s.v3.toNat - 1 = v4 + n by omega]
  · show (s.v3 - 1).toNat = _
    omega
  · show (s.v3 - 1).toNat ≤ s.v2.toNat
    omega
  · show NotOvertaken (s.v2.toNat - (s.v3 - 1).toNat) is
    rwa [show s.v2.toNat - (s.v3 - 1).toNat = s.v2.toNat - s.v3.toNat + 1 - 0 by omega]

theorem literalToken_reads {s : LzssState} {n : Nat} {is : List Item} {out : List UInt8}
    (h : Reads mem v4 top s (n + 1) (.literal (mem (v4 + n)) :: is) out) :
    Reads mem v4 top s.literalToken n is (mem (v4 + n) :: out) := by
  have hinput := h.input
  have hapart := h.apart
  have htop := h.top
  have hv3 : (s.v3 - 1).toNat = s.v3.toNat - 1 := toNat_sub_one (by omega)
  have hv2 : (s.v2 - 1).toNat = s.v2.toNat - 1 := toNat_sub_one (by omega)
  have hbyte : s.mem (s.v3 - 1).toNat = mem (v4 + n) := by
    rw [hv3, h.byte (by omega), show s.v3.toNat - 1 = v4 + n by omega]
  have hgap := h.gap.2
  simp only [Item.consumed, Item.produced] at hgap
  refine ⟨?_, ?_, ?_, ?_, ?_⟩
  · show s.mem.store (s.v2 - 1).toNat [s.mem (s.v3 - 1).toNat] = mem.store (s.v2 - 1).toNat (mem (v4 + n) :: out)
    rw [hbyte, h.mem, hv2, store_before _ (by omega)]
  · show (s.v2 - 1).toNat + (out.length + 1) = top
    omega
  · show (s.v3 - 1).toNat = _
    omega
  · show (s.v3 - 1).toNat ≤ (s.v2 - 1).toNat
    omega
  · show NotOvertaken ((s.v2 - 1).toNat - (s.v3 - 1).toNat) is
    rwa [show (s.v2 - 1).toNat - (s.v3 - 1).toNat = s.v2.toNat - s.v3.toNat + 1 - 1 by omega]

/-- A copy has its source in the output, even where it is written itself, so that no other byte counts. -/
theorem copyLoop_reads {v15 : UInt32} {disp : Nat} (hv15 : v15.toNat = disp + 2) (htop : top < 2 ^ 32) :
    ∀ (m : Nat) (s : LzssState) (out out' : List UInt8), s.mem = mem.store s.v2.toNat out → s.v2.toNat + out.length = top →
      m ≤ s.v2.toNat → copyBack disp m out = some out' →
        (s.copyLoop v15 m).mem = mem.store (s.v2.toNat - m) out' := by
  intro m
  induction m with
  | zero =>
    intro s out out' hmem _ _ hcopy
    obtain rfl := Option.some.inj hcopy
    exact hmem
  | succ m ih =>
    intro s out out' hmem hsum hroom hcopy
    unfold copyBack at hcopy
    split at hcopy
    · cases hcopy
    rename_i b hb
    obtain ⟨hlt, hget⟩ := List.getElem?_eq_some_iff.mp hb
    have hsource : (s.v2 + v15).toNat = s.v2.toNat + (disp + 2) := by
      rw [UInt32.toNat_add, hv15, Nat.mod_eq_of_lt (by omega)]
    have hbyte : s.mem (s.v2 + v15).toNat = b := by
      rw [hsource, hmem, store_inside _ (by omega) (by omega)]
      simpa using hget
    have hv2 : (s.v2 - 1).toNat = s.v2.toNat - 1 := toNat_sub_one (by omega)
    have hnext := ih (s.copyByte v15) (b :: out) out' ?_ ?_ ?_ hcopy
    · show ((s.copyByte v15).copyLoop v15 m).mem = _
      rw [hnext]
      show mem.store ((s.v2 - 1).toNat - m) out' = _
      rw [hv2, Nat.sub_sub, Nat.add_comm 1 m]
    · show s.mem.store (s.v2 - 1).toNat [s.mem (s.v2 + v15).toNat] = mem.store (s.v2 - 1).toNat (b :: out)
      rw [hbyte, hmem, hv2, store_before _ (by omega)]
    · show (s.v2 - 1).toNat + (out.length + 1) = top
      omega
    · show m ≤ (s.v2 - 1).toNat
      omega

theorem copyToken_reads {s : LzssState} {n : Nat} {is : List Item} {out out' : List UInt8} (htop : top < 2 ^ 32)
    (h : Reads mem v4 top s (n + 2)
      (.copy ((mem (v4 + n + 1)).toNat % 16 * 256 + (mem (v4 + n)).toNat) ((mem (v4 + n + 1)).toNat / 16 + 3) :: is) out)
    (hcopy : copyBack ((mem (v4 + n + 1)).toNat % 16 * 256 + (mem (v4 + n)).toNat) ((mem (v4 + n + 1)).toNat / 16 + 3) out =
      some out') :
    Reads mem v4 top s.copyToken n is out' := by
  have hinput := h.input
  have hapart := h.apart
  have hsum := h.top
  obtain ⟨hfits, hgap⟩ := h.gap
  simp only [Item.consumed, Item.produced] at hfits hgap
  have hv3 : (s.v3 - 1).toNat = s.v3.toNat - 1 := toNat_sub_one (by omega)
  have hv3' : (s.v3 - 2).toNat = s.v3.toNat - 2 := toNat_sub_two (by omega)
  have hfirst : s.mem (s.v3 - 1).toNat = mem (v4 + n + 1) := by
    rw [hv3, h.byte (by omega), show s.v3.toNat - 1 = v4 + n + 1 by omega]
  have hsecond : s.mem (s.v3 - 2).toNat = mem (v4 + n) := by
    rw [hv3', h.byte (by omega), show s.v3.toNat - 2 = v4 + n by omega]
  unfold LzssState.copyToken
  dsimp only
  rw [hfirst, hsecond]
  set length := (mem (v4 + n + 1)).toNat / 16 + 3 with hlength
  have hcount : ((mem (v4 + n + 1)).toNat + 32) / 16 + 1 = length := by omega
  rw [hcount]
  set s' : LzssState := { s with v3 := s.v3 - 2, touched := (s.v3 - 2) :: (s.v3 - 1) :: s.touched }
  have hmem := copyLoop_reads (offset_toNat (mem (v4 + n + 1)) (mem (v4 + n))) htop length s' _ _ h.mem hsum
    (show length ≤ s.v2.toNat by omega) hcopy
  obtain ⟨hv2, hsame, -⟩ := LzssState.copyLoop_spec
    ((((mem (v4 + n)).toUInt32 ||| ((mem (v4 + n + 1)).toUInt32 <<< 8)) &&& 0xFFFF0FFF) + 2) length s'
  set s'' := s'.copyLoop ((((mem (v4 + n)).toUInt32 ||| ((mem (v4 + n + 1)).toUInt32 <<< 8)) &&& 0xFFFF0FFF) + 2) length
  have hout : s''.v2.toNat = s.v2.toNat - length := by
    rw [hv2]
    exact toNat_sub_ofNat (show length ≤ s.v2.toNat by omega)
  have hin : s''.v3.toNat = s.v3.toNat - 2 := by
    rw [hsame]
    exact hv3'
  have hlen := length_of_copyBack _ _ hcopy
  refine ⟨?_, ?_, ?_, ?_, ?_⟩
  · rw [hmem, hout]
  · omega
  · omega
  · omega
  · rwa [show s''.v2.toNat - s''.v3.toNat = s.v2.toNat - s.v3.toNat + 2 - length by omega]

/-! ## The loops -/

/-- One bit of the flags, where there is input left. -/
theorem token_reads {bits : Nat} {flags : UInt8} {s : LzssState} {n : Nat} {is : List Item} {out res : List UInt8}
    (htop : top < 2 ^ 32) (hn : 0 < n) (h : Reads mem v4 top s n is out)
    (hitems : items (bits + 1) flags (below mem v4 n) = some is) (hexpand : expand is out = some res) :
    ∃ n' is' out', n' < n ∧
      Reads mem v4 top (if flags &&& 0x80 ≠ 0 then s.copyToken else s.literalToken) n' is' out' ∧
        items bits (flags * 2) (below mem v4 n') = some is' ∧ expand is' out' = some res := by
  obtain ⟨k, rfl⟩ := Nat.exists_eq_succ_of_ne_zero hn.ne'
  by_cases hflag : flags &&& 0x80 = 0
  · rw [if_neg (not_not.mpr hflag)]
    rw [Nat.succ_eq_add_one, below, items_literal _ _ hflag] at hitems
    obtain ⟨is', his, rfl⟩ := Option.map_eq_some_iff.mp hitems
    exact ⟨k, is', _, Nat.lt_succ_self k, literalToken_reads h, his, hexpand⟩
  · rw [if_pos hflag]
    cases k with
    | zero => simp [below, items, hflag] at hitems
    | succ k =>
      simp only [below, items, if_neg hflag] at hitems
      obtain ⟨is', his, rfl⟩ := Option.map_eq_some_iff.mp hitems
      rw [expand] at hexpand
      obtain ⟨out', hcopy, hrest⟩ := Option.bind_eq_some_iff.mp hexpand
      exact ⟨k, is', out', by omega, copyToken_reads htop h hcopy, his, hrest⟩

/-- The loop over the bits ends with the input, or with bits used up and input left. -/
theorem bitLoop_reads {v4' : UInt32} (hv4 : v4'.toNat = v4) (htop : top < 2 ^ 32) : ∀ (bits : Nat) (flags : UInt8)
    {s : LzssState} {n : Nat} {is : List Item} {out res : List UInt8}, 0 < n → Reads mem v4 top s n is out →
      items bits flags (below mem v4 n) = some is → expand is out = some res →
        let (s', returned) := LzssState.bitLoop v4' bits flags s
        if returned then Reads mem v4 top s' 0 [] res
        else ∃ flags' n' is' out', 0 < n' ∧ n' ≤ n ∧ Reads mem v4 top s' n' is' out' ∧
          items 0 flags' (below mem v4 n') = some is' ∧ expand is' out' = some res := by
  intro bits
  induction bits with
  | zero => exact fun flags s n is out res hn h hitems hexpand => ⟨flags, n, is, out, hn, le_rfl, h, hitems, hexpand⟩
  | succ bits ih =>
    intro flags s n is out res hn h hitems hexpand
    obtain ⟨n', is', out', hless, h', hitems', hexpand'⟩ := token_reads htop hn h hitems hexpand
    unfold LzssState.bitLoop
    dsimp only
    generalize (if flags &&& 0x80 ≠ 0 then s.copyToken else s.literalToken) = s' at h'
    by_cases hend : s'.v3 ≤ v4'
    · rw [if_pos hend]
      have hle := UInt32.le_iff_toNat_le.mp hend
      have hinput := h'.input
      obtain rfl : n' = 0 := by omega
      obtain rfl : [] = is' := by simpa [below, items] using hitems'
      obtain rfl : out' = res := by simpa [expand] using hexpand'
      exact h'
    · rw [if_neg hend]
      have hlt := UInt32.lt_iff_toNat_lt.mp (UInt32.not_le.mp hend)
      have hinput := h'.input
      have hnext := ih (flags * 2) (by omega) h' hitems' hexpand'
      revert hnext
      generalize LzssState.bitLoop v4' bits (flags * 2) s' = result
      obtain ⟨s'', returned⟩ := result
      cases returned with
      | true => exact fun hdone => hdone
      | false =>
        rintro ⟨flags', n'', is'', out'', hpos, hle, hrest⟩
        exact ⟨flags', n'', is'', out'', hpos, by omega, hrest⟩

/-- The loop over the flags, with fuel for the input. -/
theorem flagLoop_reads {v4' : UInt32} (hv4 : v4'.toNat = v4) (htop : top < 2 ^ 32) : ∀ (fuel : Nat) (flags : UInt8)
    {s : LzssState} {n : Nat} {is : List Item} {out res : List UInt8}, n ≤ fuel → Reads mem v4 top s n is out →
      items 0 flags (below mem v4 n) = some is → expand is out = some res →
        Reads mem v4 top (s.flagLoop v4' fuel) 0 [] res := by
  intro fuel
  induction fuel with
  | zero =>
    intro flags s n is out res hn h hitems hexpand
    obtain rfl : n = 0 := by omega
    obtain rfl : [] = is := by simpa [below, items] using hitems
    obtain rfl : out = res := by simpa [expand] using hexpand
    exact h
  | succ fuel ih =>
    intro flags s n is out res hn h hitems hexpand
    have hinput := h.input
    unfold LzssState.flagLoop
    cases n with
    | zero =>
      rw [if_neg (UInt32.not_lt.mpr (UInt32.le_iff_toNat_le.mpr (by omega)))]
      obtain rfl : [] = is := by simpa [below, items] using hitems
      obtain rfl : out = res := by simpa [expand] using hexpand
      exact h
    | succ n =>
      rw [if_pos (UInt32.lt_iff_toNat_lt.mpr (by omega))]
      rw [below, items] at hitems
      have hmore : below mem v4 n ≠ [] := by
        intro hnil
        simp [hnil] at hitems
      rw [if_neg hmore] at hitems
      obtain ⟨is', his, rfl⟩ := Option.map_eq_some_iff.mp hitems
      have hpos : 0 < n := by
        refine Nat.pos_of_ne_zero fun h0 => hmore ?_
        rw [h0]
        rfl
      obtain ⟨hflags, hskip⟩ := skipFlags_reads h
      rw [hflags]
      have hbits := bitLoop_reads hv4 htop 8 (mem (v4 + n)) hpos hskip his hexpand
      revert hbits
      generalize LzssState.bitLoop v4' 8 (mem (v4 + n)) s.skipFlags = result
      obtain ⟨s', returned⟩ := result
      cases returned with
      | true => exact fun hdone => hdone
      | false =>
        rintro ⟨flags', n', is', out', -, hle, h', hitems', hexpand'⟩
        exact ih flags' (by omega) h' hitems' hexpand'

end

/-! ## In place -/

/-- Decompressing a valid section in place writes what the reference decoder makes of a copy of the compressed bytes, up to
where the output begins, and nothing else; above all nothing before the compressed bytes. -/
theorem lzssDecompress_reference {mem : Memory UInt8} {codeEnd : UInt32} {out : List UInt8} (h : Valid mem codeEnd out) :
    (lzssDecompress mem codeEnd).mem = mem.store (codeEnd.toNat + increment mem codeEnd - out.length) out ∧
      out.length ≤ increment mem codeEnd + compressedSize mem codeEnd ∧
        ∀ a < codeEnd.toNat - compressedSize mem codeEnd, (lzssDecompress mem codeEnd).mem a = mem a := by
  have hinside := h.inside
  have hfooter := h.footer
  have hroom := h.room
  obtain ⟨is, hitems, hexpand⟩ := Option.bind_eq_some_iff.mp h.decodes
  have hgap := h.notOvertaken is hitems
  have hend : (inputEnd mem codeEnd).toNat = codeEnd.toNat - compressedSize mem codeEnd :=
    UInt32.toNat_sub_of_le _ _ (UInt32.le_iff_toNat_le.mpr hinside)
  have hv3 : (lzssStart mem codeEnd).v3.toNat = codeEnd.toNat - headerSize mem codeEnd :=
    UInt32.toNat_sub_of_le _ _ (UInt32.le_iff_toNat_le.mpr (hfooter.trans hinside))
  have hv2 : (lzssStart mem codeEnd).v2.toNat = codeEnd.toNat + increment mem codeEnd := by
    show (codeEnd + word mem (codeEnd - 4)).toNat = codeEnd.toNat + (word mem (codeEnd - 4)).toNat
    exact (UInt32.toNat_add _ _).trans (Nat.mod_eq_of_lt hroom)
  have hfuel : ((lzssStart mem codeEnd).v3 - inputEnd mem codeEnd).toNat =
      compressedSize mem codeEnd - headerSize mem codeEnd := by
    rw [UInt32.toNat_sub_of_le _ _ (UInt32.le_iff_toNat_le.mpr (by omega)), hv3, hend]
    omega
  have hstart : Reads mem (codeEnd.toNat - compressedSize mem codeEnd) (codeEnd.toNat + increment mem codeEnd)
      (lzssStart mem codeEnd) (compressedSize mem codeEnd - headerSize mem codeEnd) is [] := by
    refine ⟨(store_nil mem _).symm, hv2, by omega, by omega, ?_⟩
    rwa [hv2, hv3, show codeEnd.toNat + increment mem codeEnd - (codeEnd.toNat - headerSize mem codeEnd) =
      increment mem codeEnd + headerSize mem codeEnd by omega]
  have hrun := flagLoop_reads hend hroom ((lzssStart mem codeEnd).v3 - inputEnd mem codeEnd).toNat 0 hfuel.ge hstart hitems
    hexpand
  have hdecompress : lzssDecompress mem codeEnd =
      (lzssStart mem codeEnd).flagLoop (inputEnd mem codeEnd) ((lzssStart mem codeEnd).v3 - inputEnd mem codeEnd).toNat := by
    unfold lzssDecompress
    rw [if_pos h.nonempty]
  rw [hdecompress]
  have htop := hrun.top
  have hlast := hrun.input
  have hapart := hrun.apart
  have hmem := hrun.mem
  set s := (lzssStart mem codeEnd).flagLoop (inputEnd mem codeEnd) ((lzssStart mem codeEnd).v3 - inputEnd mem codeEnd).toNat
  have hout : s.v2.toNat = codeEnd.toNat + increment mem codeEnd - out.length := by omega
  refine ⟨by rw [hmem, hout], by omega, fun a ha => ?_⟩
  rw [hmem, store_outside _ (Or.inl (by omega))]

/-- A byte before a section of three bytes as they are and a copy of 18 that overlaps itself. -/
def overlapping : Memory UInt8 :=
  Memory.store (fun _ => 0) 0x1000 [0x55, 0, 0xF0, 3, 2, 1, 0x10, 14, 0, 0, 8, 7, 0, 0, 0]

theorem lzssDecompress_reference_overlapping :
    Valid overlapping 0x100F (List.replicate 7 [3, 2, 1]).flatten ∧
      (lzssDecompress overlapping 0x100F).mem = overlapping.store 0x1001 (List.replicate 7 [3, 2, 1]).flatten := by
  have hvalid : Valid overlapping 0x100F (List.replicate 7 [3, 2, 1]).flatten := by
    refine ⟨by decide, by decide +kernel, by decide +kernel, by decide +kernel, by decide +kernel, ?_⟩
    have hitems : items 0 0 (compressed overlapping 0x100F) =
        some [.flags, .literal 1, .literal 2, .literal 3, .copy 0 18] := by decide +kernel
    intro is his
    rw [hitems] at his
    obtain rfl := Option.some.inj his
    decide +kernel
  exact ⟨hvalid, (lzssDecompress_reference hvalid).1⟩

end Omiiba.Loader.Lzss
