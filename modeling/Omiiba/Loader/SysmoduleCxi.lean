/-
What the readers of a CXI file write, after patcher.c: of the exheader as much as the file announces, and of the code what fits,
found with sizes and offsets that are shifted and added in 32 bits.
-/
import Omiiba.Loader.ProgramCache

namespace Omiiba.Loader.Programs

/-! ## The code -/

/-- `sizeof(ExHeader_Info)`. -/
def exHeaderInfoSize : UInt32 := 0x400

section

variable (limit : Reading → Nat) (maxSize : UInt32) (file ncch : List UInt8)

/-- What `readSysmoduleCxiExHeaderInfo` writes to `outExhi`. -/
def exHeaderInfoWritten : List UInt8 :=
  let size := exHeaderSize ncch
  if size < exHeaderInfoSize then [] else readAt (limit .exHeaderInfo) (some file) ncchSize size

/-- What it returns. -/
def exHeaderInfoRead : Bool :=
  let size := exHeaderSize ncch
  if size < exHeaderInfoSize then false else (readAt (limit .exHeaderInfo) (some file) ncchSize size).length = size.toNat

/-- What `readSysmoduleCxiCode` writes to `outCode`. -/
def codeWritten : List UInt8 :=
  if exeFsSize ncch < exeFsHeaderSize ∨ exeFsOffset ncch < 0x200 + exHeaderSize ncch then []
  else
    match readWhole (limit .exeFsHeader) (some file) (exeFsOffset ncch) exeFsHeaderSize with
    | none => []
    | some hdr =>
      match codeHeader hdr with
      | none => []
      | some codeHdr =>
        let size := word codeHdr 12
        if size > maxSize then []
        else readAt (limit .code) (some file) (exeFsOffset ncch + exeFsHeaderSize + word codeHdr 8) size

/-! ## What the headers denote -/

/-- `n` bytes of a file. -/
def bytesAt (off n : Nat) : List UInt8 := (file.drop off).take n

/-- Where the ExeFS begins: the offset in units. -/
def exeFsStart : Nat := (word ncch 0x1A0).toNat * 2 ^ contentUnitShift ncch

/-- No shift and no sum is 2³² or more. -/
structure Unwrapped (codeHdr : List UInt8) : Prop where
  offset_lt : exeFsStart ncch < 2 ^ 32
  size_lt : (word ncch 0x1A4).toNat * 2 ^ contentUnitShift ncch < 2 ^ 32
  exHeader_lt : 0x200 + (exHeaderSize ncch).toNat < 2 ^ 32
  code_lt : exeFsStart ncch + 0x200 + (word codeHdr 8).toNat < 2 ^ 32

/-- The readers write into their buffers only, and what they report to have read is what the headers denote. -/
structure ReadsCxi : Prop where
  exHeaderInside : (exHeaderInfoWritten limit file ncch).length ≤ exHeaderInfoSize.toNat
  exHeader : exHeaderInfoRead limit file ncch = true →
    exHeaderInfoWritten limit file ncch = bytesAt file 0x200 (exHeaderSize ncch).toNat
  codeInside : (codeWritten limit maxSize file ncch).length ≤ maxSize.toNat
  code : ∀ {code}, readSysmoduleCxiCode limit maxSize (some file) ncch = some code → codeWritten limit maxSize file ncch = code ∧
    ∃ codeHdr, codeHeader (bytesAt file (exeFsStart ncch) 0x200) = some codeHdr ∧ code.length = (word codeHdr 12).toNat ∧
      code = bytesAt file (exeFsStart ncch + 0x200 + (word codeHdr 8).toNat) (word codeHdr 12).toNat ∧ Unwrapped ncch codeHdr

/-- No more is read of the exheader than there is room for; and what wraps is refused for another reason. -/
structure CxiSound : Prop where
  exHeader : exHeaderSize ncch ≤ exHeaderInfoSize ∨ (bytesAt file 0x200 (limit .exHeaderInfo)).length ≤ exHeaderInfoSize.toNat
  code : ∀ {hdr codeHdr : List UInt8}, exeFsHeaderSize ≤ exeFsSize ncch → 0x200 + exHeaderSize ncch ≤ exeFsOffset ncch →
    readWhole (limit .exeFsHeader) (some file) (exeFsOffset ncch) exeFsHeaderSize = some hdr → codeHeader hdr = some codeHdr →
    word codeHdr 12 ≤ maxSize →
    (readWhole (limit .code) (some file) (exeFsOffset ncch + exeFsHeaderSize + word codeHdr 8) (word codeHdr 12)).isSome →
    Unwrapped ncch codeHdr

end

/-! ## Words that do not wrap -/

theorem toNat_lsl {a : UInt32} {n : Nat} (h : a.toNat * 2 ^ n < 2 ^ 32) : (lsl a n).toNat = a.toNat * 2 ^ n := by
  unfold lsl
  rcases Nat.eq_zero_or_pos a.toNat with hzero | hpos
  · have ha : a = 0 := UInt32.toNat_inj.mp hzero
    subst ha
    split_ifs <;> simp
  · have hn : n < 32 := by
      by_contra hge
      have hpow : 2 ^ 32 ≤ 2 ^ n := Nat.pow_le_pow_right (by decide) (by omega)
      have hmul : 2 ^ n ≤ a.toNat * 2 ^ n := Nat.le_mul_of_pos_left _ hpos
      omega
    rw [Nat.mod_eq_of_lt (by omega), if_pos hn, UInt32.toNat_shiftLeft, UInt32.toNat_ofNat', Nat.mod_eq_of_lt (a := n) (by omega),
      Nat.mod_eq_of_lt hn, Nat.shiftLeft_eq, Nat.mod_eq_of_lt h]

theorem toNat_add_of_lt {a b : UInt32} (h : a.toNat + b.toNat < 2 ^ 32) : (a + b).toNat = a.toNat + b.toNat := by
  rw [UInt32.toNat_add, Nat.mod_eq_of_lt h]

section

variable {limit : Reading → Nat} {maxSize : UInt32} {file ncch codeHdr : List UInt8}

theorem Unwrapped.offset (h : Unwrapped ncch codeHdr) : (exeFsOffset ncch).toNat = exeFsStart ncch := toNat_lsl h.offset_lt

theorem Unwrapped.codeOffset (h : Unwrapped ncch codeHdr) : (exeFsOffset ncch + exeFsHeaderSize + word codeHdr 8).toNat =
    exeFsStart ncch + 0x200 + (word codeHdr 8).toNat := by
  have hcode := h.code_lt
  have hhdr : (exeFsOffset ncch + exeFsHeaderSize).toNat = exeFsStart ncch + 0x200 := by
    rw [toNat_add_of_lt (by rw [h.offset]; show exeFsStart ncch + 0x200 < _; omega), h.offset]
    rfl
  rw [toNat_add_of_lt (by rw [hhdr]; exact hcode), hhdr]

/-! ## Reads -/

theorem readAt_length_le (limit : Nat) (file : List UInt8) (offset size : UInt32) :
    (readAt limit (some file) offset size).length ≤ size.toNat := by
  unfold readAt
  simp only [List.length_take]
  omega

/-- What is read whole is a part of the file. -/
theorem readWhole_eq_some {limit : Nat} {offset size : UInt32} {bytes : List UInt8}
    (h : readWhole limit (some file) offset size = some bytes) : bytes = readAt limit (some file) offset size ∧
      bytes = bytesAt file offset.toNat size.toNat ∧ bytes.length = size.toNat := by
  unfold readWhole at h
  dsimp only at h
  split_ifs at h with hlength
  cases h
  refine ⟨rfl, ?_, hlength⟩
  unfold readAt bytesAt at *
  dsimp only at *
  refine List.take_of_length_le ?_
  rw [List.length_take] at hlength
  rw [List.length_take] at hlength ⊢
  omega

/-! ## The exheader -/

theorem exHeaderInside_iff : (exHeaderInfoWritten limit file ncch).length ≤ exHeaderInfoSize.toNat ↔
    exHeaderSize ncch ≤ exHeaderInfoSize ∨ (bytesAt file 0x200 (limit .exHeaderInfo)).length ≤ exHeaderInfoSize.toNat := by
  unfold exHeaderInfoWritten
  dsimp only
  by_cases hsmall : exHeaderSize ncch < exHeaderInfoSize
  · rw [if_pos hsmall]
    exact iff_of_true (Nat.zero_le _) (.inl (UInt32.le_of_lt hsmall))
  rw [if_neg hsmall]
  have hlength : (readAt (limit .exHeaderInfo) (some file) ncchSize (exHeaderSize ncch)).length =
      min (exHeaderSize ncch).toNat (bytesAt file 0x200 (limit .exHeaderInfo)).length := by
    unfold readAt bytesAt
    simp only [List.length_take]
    show min _ (min _ (List.drop 0x200 file).length) = _
    omega
  rw [hlength, min_le_iff, UInt32.le_iff_toNat_le]

/-- What the loader is told, with the structure of that size. -/
theorem readSysmoduleCxiExHeaderInfo_run {env : Environment} {a : Answers} {s : LoaderState}
    (hsize : env.layout.size = exHeaderInfoSize) (hfile : s.cxiFile = some file) :
    ((readSysmoduleCxiExHeaderInfo env a).run.run s).1 = .ok (exHeaderInfoRead a.limit file s.cxiNcch) := by
  have hread : (readSysmoduleCxiExHeaderInfo env a).run.run s = ((if exHeaderSize s.cxiNcch < env.layout.size then pure false
      else do
        let bytes := readAt (a.limit .exHeaderInfo) s.cxiFile ncchSize (exHeaderSize s.cxiNcch)
        modify fun s => { s with exheaderInfo := overwrite env.layout.size.toNat s.exheaderInfo bytes }
        pure (bytes.length = (exHeaderSize s.cxiNcch).toNat) : LoaderM Bool).run.run s) := rfl
  unfold exHeaderInfoRead
  rw [hread, hsize, hfile]
  by_cases hsmall : exHeaderSize s.cxiNcch < exHeaderInfoSize
  · rw [if_pos hsmall, if_pos hsmall]
    rfl
  · rw [if_neg hsmall, if_neg hsmall]
    rfl

/-! ## The code -/

theorem codeInside (limit : Reading → Nat) (maxSize : UInt32) (file ncch : List UInt8) :
    (codeWritten limit maxSize file ncch).length ≤ maxSize.toNat := by
  unfold codeWritten
  split
  · exact Nat.zero_le _
  split
  · exact Nat.zero_le _
  split
  · exact Nat.zero_le _
  dsimp only
  split
  · exact Nat.zero_le _
  · rename_i hsize
    exact (readAt_length_le _ _ _ _).trans (UInt32.le_iff_toNat_le.mp (UInt32.not_lt.mp hsize))

/-- The file is accepted if all checks let it pass, and then the code is what is written. -/
theorem readSysmoduleCxiCode_eq_some {code : List UInt8} : readSysmoduleCxiCode limit maxSize (some file) ncch = some code ↔
    exeFsHeaderSize ≤ exeFsSize ncch ∧ 0x200 + exHeaderSize ncch ≤ exeFsOffset ncch ∧
      ∃ hdr codeHdr, readWhole (limit .exeFsHeader) (some file) (exeFsOffset ncch) exeFsHeaderSize = some hdr ∧
        codeHeader hdr = some codeHdr ∧ word codeHdr 12 ≤ maxSize ∧
        readWhole (limit .code) (some file) (exeFsOffset ncch + exeFsHeaderSize + word codeHdr 8) (word codeHdr 12) = some code := by
  unfold readSysmoduleCxiCode
  split
  · rename_i hrefused
    refine iff_of_false (by simp) ?_
    rintro ⟨hsize, hoffset, -⟩
    rcases hrefused with h | h
    · exact UInt32.not_lt.mpr hsize h
    · exact UInt32.not_lt.mpr hoffset h
  · rename_i haccepted
    rw [not_or, UInt32.not_lt, UInt32.not_lt] at haccepted
    simp only [haccepted.1, haccepted.2, true_and, Option.bind_eq_bind, Option.bind_eq_some_iff]
    refine exists_congr fun hdr => ?_
    rw [← exists_and_left]
    refine exists_congr fun codeHdr => and_congr_right fun _ => and_congr_right fun _ => ?_
    rw [← UInt32.not_lt]
    split
    · rename_i hlarge
      exact iff_of_false (by simp) fun h => h.1 hlarge
    · rename_i hfits
      exact (and_iff_right hfits).symm

/-- A file that is accepted has its code written. -/
theorem codeWritten_eq {code : List UInt8} (h : readSysmoduleCxiCode limit maxSize (some file) ncch = some code) :
    codeWritten limit maxSize file ncch = code := by
  obtain ⟨hsize, hoffset, hdr, codeHdr, hhdr, hcodeHdr, hmax, hcode⟩ := readSysmoduleCxiCode_eq_some.mp h
  unfold codeWritten
  rw [if_neg (by rw [not_or, UInt32.not_lt, UInt32.not_lt]; exact ⟨hsize, hoffset⟩), hhdr]
  dsimp only
  rw [hcodeHdr]
  dsimp only
  rw [if_neg (UInt32.not_lt.mpr hmax)]
  exact (readWhole_eq_some hcode).1.symm

/-- Where nothing wraps, the code is the section that the headers denote. -/
theorem Unwrapped.code (hunwrapped : Unwrapped ncch codeHdr) {hdr code : List UInt8}
    (hhdr : readWhole (limit .exeFsHeader) (some file) (exeFsOffset ncch) exeFsHeaderSize = some hdr)
    (hcode : readWhole (limit .code) (some file) (exeFsOffset ncch + exeFsHeaderSize + word codeHdr 8) (word codeHdr 12) =
      some code) :
    hdr = bytesAt file (exeFsStart ncch) 0x200 ∧ code.length = (word codeHdr 12).toNat ∧
      code = bytesAt file (exeFsStart ncch + 0x200 + (word codeHdr 8).toNat) (word codeHdr 12).toNat := by
  obtain ⟨-, hbytes, -⟩ := readWhole_eq_some hhdr
  obtain ⟨-, hsection, hlength⟩ := readWhole_eq_some hcode
  rw [hunwrapped.offset] at hbytes
  rw [hunwrapped.codeOffset] at hsection
  exact ⟨hbytes, hlength, hsection⟩

/-! ## When the readers are right -/

/-- The readers do what they should exactly if of an exheader that is too large no more is read than there is room for, and a
file with a shift or a sum that wraps is refused by a check. -/
theorem readsCxi_iff (limit : Reading → Nat) (maxSize : UInt32) (file ncch : List UInt8) :
    ReadsCxi limit maxSize file ncch ↔ CxiSound limit maxSize file ncch := by
  constructor
  · intro h
    refine ⟨exHeaderInside_iff.mp h.exHeaderInside, fun hsize hoffset hhdr hcodeHdr hmax hwhole => ?_⟩
    obtain ⟨code, hcode⟩ := Option.isSome_iff_exists.mp hwhole
    obtain ⟨-, codeHdr', hcodeHdr', -, -, hunwrapped⟩ :=
      h.code (readSysmoduleCxiCode_eq_some.mpr ⟨hsize, hoffset, _, _, hhdr, hcodeHdr, hmax, hcode⟩)
    -- the header of the code is the one that is meant, as the offset of the ExeFS does not wrap
    obtain ⟨-, hbytes, -⟩ := readWhole_eq_some hhdr
    rw [hunwrapped.offset] at hbytes
    rw [hbytes] at hcodeHdr
    obtain rfl : codeHdr' = _ := Option.some.inj (hcodeHdr'.symm.trans hcodeHdr)
    exact hunwrapped
  · intro h
    refine ⟨exHeaderInside_iff.mpr h.exHeader, fun hread => ?_, codeInside limit maxSize file ncch, fun {code} hread => ?_⟩
    · unfold exHeaderInfoRead exHeaderInfoWritten at *
      dsimp only at *
      split_ifs at hread with hsmall
      rw [if_neg hsmall]
      have hwhole : readWhole (limit .exHeaderInfo) (some file) ncchSize (exHeaderSize ncch) = some _ :=
        if_pos (of_decide_eq_true hread)
      exact (readWhole_eq_some hwhole).2.1
    · obtain ⟨hsize, hoffset, hdr, codeHdr, hhdr, hcodeHdr, hmax, hcode⟩ := readSysmoduleCxiCode_eq_some.mp hread
      have hunwrapped := h.code hsize hoffset hhdr hcodeHdr hmax (by rw [hcode]; rfl)
      obtain ⟨hbytes, hlength, hsection⟩ := hunwrapped.code hhdr hcode
      rw [hbytes] at hcodeHdr
      exact ⟨codeWritten_eq hread, codeHdr, hcodeHdr, hlength, hsection, hunwrapped⟩

end

/-- An NCCH header that announces 0x800 bytes of exheader. -/
def largeExHeader : List UInt8 := List.replicate 0x181 0 ++ 8 :: List.replicate 0x7E 0

/-- Of such a file twice as many bytes are written to the buffer of the exheader as it has. -/
theorem largeExHeader_overflows : ¬ReadsCxi (fun _ => 0x1000) 0x1000 (largeExHeader ++ List.replicate 0x800 1) largeExHeader := by
  intro h
  have hsize : exHeaderSize largeExHeader = 0x800 := by decide +kernel
  have hinside := exHeaderInside_iff.mp h.exHeaderInside
  rw [hsize] at hinside
  revert hinside
  decide +kernel

end Omiiba.Loader.Programs
