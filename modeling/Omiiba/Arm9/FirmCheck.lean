/-
The check of a FIRM before it is started, `checkFirm` of firm.c, and the copying of its sections in chainloader.c. The
check does not look at where the sections end in the file.
-/
import Omiiba.Lib.Memory

namespace Omiiba.Arm9

open Memory

/-! ## The file in memory -/

structure FirmSection where
  offset : UInt32
  address : UInt32
  size : UInt32
  hash : List UInt8

/-- What `checkFirm` and the chainloader read of a FIRM. -/
structure Firm where
  magic : List UInt8
  arm11Entry : UInt32
  arm9Entry : UInt32
  sections : Fin 4 → FirmSection

/-- The address `firm`. -/
def firmAddress : UInt32 := 0x20001000

def readWord (mem : Memory UInt8) (a : Nat) : UInt32 := UInt32.ofNat (mem.load a 4)

def readBytes (mem : Memory UInt8) (a n : Nat) : List UInt8 := (List.range n).map fun i => mem (a + i)

/-- `firm->section[i]`. -/
def firmSection (mem : Memory UInt8) (i : Fin 4) : FirmSection :=
  let a := firmAddress.toNat + 0x40 + 0x30 * i
  { offset := readWord mem a
    address := readWord mem (a + 4)
    size := readWord mem (a + 8)
    hash := readBytes mem (a + 0x10) 0x20 }

/-- `*firm`. -/
def firmAt (mem : Memory UInt8) : Firm where
  magic := readBytes mem firmAddress.toNat 4
  arm11Entry := readWord mem (firmAddress.toNat + 8)
  arm9Entry := readWord mem (firmAddress.toNat + 0xC)
  sections := firmSection mem

/-- `((u8 *)firm + section->offset)[k]`. -/
def FirmSection.source (s : FirmSection) (k : Nat) : Nat := (firmAddress + s.offset + UInt32.ofNat k).toNat

/-! ## The check -/

def overlaps (as ae bs be : UInt32) : Bool := (as ≤ bs && bs ≤ ae) || (bs ≤ as && as ≤ be)

def inRange (as ae bs be : UInt32) : Bool := as ≥ bs && ae ≤ be

/-- The ranges of memory that sections may be copied to. -/
def firmRegions : List (UInt32 × UInt32) :=
  [(0x08000000, 0x08000000 + 0x00100000), (0x18000000, 0x18000000 + 0x00600000), (0x1FF00000, 0x1FFFFC00),
    (0x20000000, 0x20000000 + 0x8000000)]

/-- The header with all sections, as `checkFirm` counts it. -/
def Firm.countedSize (firm : Firm) : UInt32 := (List.finRange 4).foldl (fun size i => size + (firm.sections i).size) 0x200

/-- A section passes the checks, with `sha` for `SHA_256_MODE`. -/
def checkSection (sha : List UInt8 → List UInt8) (mem : Memory UInt8) (size : UInt32) (s : FirmSection) : Bool :=
  s.size = 0 ||
    (!(s.offset < 0x200 || s.address + s.size < s.address ||
        s.address &&& 3 ≠ 0 || s.offset &&& 0x1FF ≠ 0 || s.size &&& 0x1FF ≠ 0 ||
        overlaps s.address (s.address + s.size) firmAddress (firmAddress + size) ||
        firmRegions.all fun region => !inRange s.address (s.address + s.size) region.1 region.2) &&
      sha ((List.range s.size.toNat).map fun k => mem (s.source k)) = s.hash)

/-- An entrypoint lies in a section. -/
def FirmSection.hasEntry (s : FirmSection) (entry : UInt32) : Bool :=
  s.size ≠ 0 && entry ≥ s.address && entry < s.address + s.size

/-- `checkFirm`. -/
def checkFirm (sha : List UInt8 → List UInt8) (mem : Memory UInt8) (firmSize : UInt32) : Bool :=
  let firm := firmAt mem
  firm.magic = [0x46, 0x49, 0x52, 0x4D] && firm.arm9Entry ≠ 0 && !(firmSize < firm.countedSize) &&
    ((List.finRange 4).all fun i => checkSection sha mem firm.countedSize (firm.sections i)) &&
    ((List.finRange 4).any fun i => (firm.sections i).hasEntry firm.arm9Entry) &&
    (firm.arm11Entry = 0 || (List.finRange 4).any fun i => (firm.sections i).hasEntry firm.arm11Entry)

/-! ## The copying -/

/-- `xmemcpy`. -/
def xmemcpy (mem : Memory UInt8) (dst src : UInt32) (len : Nat) : Memory UInt8 :=
  (List.range len).foldl (fun mem i => Function.update mem (dst + UInt32.ofNat i).toNat (mem (src + UInt32.ofNat i).toNat)) mem

/-- A section is copied, by the header that is in memory by then. -/
def copySection (mem : Memory UInt8) (i : Fin 4) : Memory UInt8 :=
  let s := firmSection mem i
  xmemcpy mem s.address (firmAddress + s.offset) s.size.toNat

/-- `doLaunchFirm`, before it jumps to the entrypoints. -/
def doLaunchFirm (mem : Memory UInt8) : Memory UInt8 := (List.finRange 4).foldl copySection mem

/-! ## What the check leaves open -/

/-- An address that the section is copied to. -/
def FirmSection.Writes (s : FirmSection) (a : Nat) : Prop := s.address.toNat ≤ a ∧ a < s.address.toNat + s.size.toNat

/-- Where the sections would end if they were in the file one after the other. -/
def Firm.sectionsEnd (firm : Firm) : Nat := 0x200 + ∑ i, (firm.sections i).size.toNat

/-- The sections come from the file, go to memory that they may be copied to, and none is copied over the source of a
later one. -/
structure Firm.Safe (firm : Firm) (firmSize : UInt32) : Prop where
  inFile : ∀ i, (firm.sections i).size ≠ 0 →
    (firm.sections i).offset.toNat + (firm.sections i).size.toNat ≤ firmSize.toNat
  allowed : ∀ i, (firm.sections i).size ≠ 0 → ∃ region ∈ firmRegions,
    ∀ a, (firm.sections i).Writes a → region.1.toNat ≤ a ∧ a < region.2.toNat
  kept : ∀ i j, i < j → ∀ k < (firm.sections j).size.toNat, ¬ (firm.sections i).Writes ((firm.sections j).source k)

/-- No section reaches beyond the file, and none is copied over what a later one has behind the first bytes, as many as
the header and all sections are. -/
structure Firm.Compact (firm : Firm) (firmSize : UInt32) : Prop where
  inFile : ∀ i, (firm.sections i).size ≠ 0 →
    (firm.sections i).offset.toNat + (firm.sections i).size.toNat ≤ firmSize.toNat
  behind : ∀ i j, i < j → ∀ k < (firm.sections j).size.toNat, firm.sectionsEnd ≤ (firm.sections j).offset.toNat + k →
    ¬ (firm.sections i).Writes ((firm.sections j).source k)

/-- No section is copied over the source of a later one or its own, and none over one that is already in its place. -/
structure Firm.Kept (firm : Firm) : Prop where
  source : ∀ i j, i ≤ j → ∀ k < (firm.sections j).size.toNat, ¬ (firm.sections i).Writes ((firm.sections j).source k)
  landed : ∀ i j, i < j → ∀ a, (firm.sections i).Writes a → ¬ (firm.sections j).Writes a

/-! ## What the check tells of a section -/

theorem toNat_add_of_not_lt {a s : UInt32} (h : ¬ a + s < a) : (a + s).toNat = a.toNat + s.toNat := by
  rw [UInt32.lt_iff_toNat_lt, UInt32.toNat_add] at h
  rw [UInt32.toNat_add]
  have ha := a.toNat_lt
  have hs := s.toNat_lt
  omega

theorem inRange_iff {as ae bs be : UInt32} : inRange as ae bs be = true ↔ bs.toNat ≤ as.toNat ∧ ae.toNat ≤ be.toNat := by
  simp [inRange, UInt32.le_iff_toNat_le]

/-- Ranges that do not overlap are one behind the other. -/
theorem lt_of_not_overlaps {as ae bs be : UInt32} (h : overlaps as ae bs be = false) :
    ae.toNat < bs.toNat ∨ be.toNat < as.toNat := by
  simp only [overlaps, Bool.or_eq_false_iff, Bool.and_eq_false_iff, decide_eq_false_iff_not, UInt32.le_iff_toNat_le] at h
  omega

/-- The regions do not wrap around and are at most as long as FCRAM. -/
theorem firmRegions_length {region : UInt32 × UInt32} (h : region ∈ firmRegions) :
    region.2.toNat ≤ region.1.toNat + 0x8000000 := by
  simp only [firmRegions, List.mem_cons, List.not_mem_nil, or_false] at h
  rcases h with rfl | rfl | rfl | rfl <;> decide

/-- What the check tells of a section that is not empty. -/
structure FirmSection.Checked (s : FirmSection) (size : UInt32) : Prop where
  noWrap : (s.address + s.size).toNat = s.address.toNat + s.size.toNat
  apart : overlaps s.address (s.address + s.size) firmAddress (firmAddress + size) = false
  region : ∃ region ∈ firmRegions, region.1.toNat ≤ s.address.toNat ∧ s.address.toNat + s.size.toNat ≤ region.2.toNat

theorem checked_of_checkSection {sha : List UInt8 → List UInt8} {mem : Memory UInt8} {size : UInt32} {s : FirmSection}
    (h : checkSection sha mem size s = true) (hsize : s.size ≠ 0) : s.Checked size := by
  unfold checkSection at h
  rw [Bool.or_eq_true, Bool.and_eq_true, Bool.not_eq_true'] at h
  obtain ⟨hchecks, -⟩ := h.resolve_left (by simpa using hsize)
  simp only [Bool.or_eq_false_iff, decide_eq_false_iff_not, List.all_eq_false, Bool.not_eq_true', Bool.not_eq_false] at hchecks
  obtain ⟨⟨⟨⟨⟨⟨-, hwrap⟩, -⟩, -⟩, -⟩, hapart⟩, region, hregion, hin⟩ := hchecks
  have hnoWrap := toNat_add_of_not_lt hwrap
  refine ⟨hnoWrap, hapart, region, hregion, ?_⟩
  have hrange := inRange_iff.mp hin
  rw [hnoWrap] at hrange
  exact hrange

theorem FirmSection.Checked.size_le {s : FirmSection} {size : UInt32} (h : s.Checked size) : s.size.toNat ≤ 0x8000000 := by
  obtain ⟨region, hregion, hle⟩ := h.region
  have hlength := firmRegions_length hregion
  omega

/-! ## What the check tells of a FIRM -/

section

variable {sha : List UInt8 → List UInt8} {mem : Memory UInt8} {firmSize : UInt32}

theorem checked_of_checkFirm (h : checkFirm sha mem firmSize = true) {i : Fin 4} (hsize : ((firmAt mem).sections i).size ≠ 0) :
    ((firmAt mem).sections i).Checked (firmAt mem).countedSize := by
  unfold checkFirm at h
  simp only [Bool.and_eq_true, List.all_eq_true] at h
  exact checked_of_checkSection (h.1.1.2 i (List.mem_finRange i)) hsize

theorem size_le_of_checkFirm (h : checkFirm sha mem firmSize = true) (i : Fin 4) :
    ((firmAt mem).sections i).size.toNat ≤ 0x8000000 := by
  by_cases hsize : ((firmAt mem).sections i).size = 0
  · rw [hsize]
    exact Nat.zero_le _
  · exact (checked_of_checkFirm h hsize).size_le

theorem sectionsEnd_le (h : checkFirm sha mem firmSize = true) : (firmAt mem).sectionsEnd ≤ 0x20000200 := by
  have hle := Finset.sum_le_sum fun i (_ : i ∈ Finset.univ) => size_le_of_checkFirm h i
  rw [Finset.sum_const, Finset.card_univ, Fintype.card_fin, smul_eq_mul] at hle
  unfold Firm.sectionsEnd
  omega

/-- The size is counted without wrapping around. -/
theorem countedSize_toNat (h : checkFirm sha mem firmSize = true) :
    (firmAt mem).countedSize.toNat = (firmAt mem).sectionsEnd := by
  have hle := size_le_of_checkFirm h
  have h0 := hle 0
  have h1 := hle 1
  have h2 := hle 2
  have h3 := hle 3
  unfold Firm.countedSize Firm.sectionsEnd
  rw [Fin.sum_univ_four]
  show (0x200 + ((firmAt mem).sections 0).size + ((firmAt mem).sections 1).size + ((firmAt mem).sections 2).size +
    ((firmAt mem).sections 3).size).toNat = _
  simp only [UInt32.toNat_add]
  have hhead : (0x200 : UInt32).toNat = 0x200 := rfl
  rw [hhead]
  omega

/-- Nothing is copied over the header and as much of the file as all sections are long. -/
theorem not_writes (h : checkFirm sha mem firmSize = true) (i : Fin 4) {a : Nat} (hlow : firmAddress.toNat ≤ a)
    (hhigh : a < firmAddress.toNat + (firmAt mem).sectionsEnd) : ¬ ((firmAt mem).sections i).Writes a := by
  rintro ⟨hfrom, hto⟩
  have hsize : ((firmAt mem).sections i).size ≠ 0 := by
    intro hzero
    rw [hzero] at hto
    exact absurd hto (Nat.not_lt_of_le hfrom)
  have hchecked := checked_of_checkFirm h hsize
  have hend := sectionsEnd_le h
  have hfirm : firmAddress.toNat = 0x20001000 := rfl
  have hsum : (firmAddress + (firmAt mem).countedSize).toNat = firmAddress.toNat + (firmAt mem).sectionsEnd := by
    rw [UInt32.toNat_add, countedSize_toNat h]
    omega
  have hapart := lt_of_not_overlaps hchecked.apart
  rw [hsum, hchecked.noWrap] at hapart
  omega

theorem source_toNat (s : FirmSection) {k : Nat} (h : s.offset.toNat + k ≤ 0x20000200) :
    s.source k = firmAddress.toNat + (s.offset.toNat + k) := by
  have hfirm : firmAddress.toNat = 0x20001000 := rfl
  unfold FirmSection.source
  rw [UInt32.toNat_add, UInt32.toNat_add, UInt32.toNat_ofNat']
  omega

/-- A FIRM that is accepted is safe exactly if it is compact. -/
theorem safe_iff_compact (h : checkFirm sha mem firmSize = true) :
    (firmAt mem).Safe firmSize ↔ (firmAt mem).Compact firmSize := by
  constructor
  · exact fun hsafe => ⟨hsafe.inFile, fun i j hij k hk _ => hsafe.kept i j hij k hk⟩
  · intro hcompact
    refine ⟨hcompact.inFile, fun i hsize => ?_, fun i j hij k hk => ?_⟩
    · obtain ⟨region, hregion, hlow, hhigh⟩ := (checked_of_checkFirm h hsize).region
      refine ⟨region, hregion, fun a ha => ?_⟩
      obtain ⟨hfrom, hto⟩ := ha
      omega
    · rcases Nat.lt_or_ge (((firmAt mem).sections j).offset.toNat + k) (firmAt mem).sectionsEnd with hfront | hbehind
      · have hend := sectionsEnd_le h
        rw [source_toNat _ (by omega)]
        exact not_writes h i (by omega) (by omega)
      · exact hcompact.behind i j hij k hk hbehind

end

/-! ## What the copying reads -/

/-- Memory when the first sections have been copied. -/
def copied (mem : Memory UInt8) (n : Nat) : Memory UInt8 := ((List.finRange 4).take n).foldl copySection mem

theorem copied_four (mem : Memory UInt8) : copied mem 4 = doLaunchFirm mem := rfl

theorem copied_succ (mem : Memory UInt8) (i : Fin 4) : copied mem (i + 1) = copySection (copied mem i) i := by
  unfold copied
  have htake : (List.finRange 4).take (i + 1) = (List.finRange 4).take i ++ [i] := by
    revert i
    decide
  rw [htake, List.foldl_append]
  rfl

theorem xmemcpy_succ (mem : Memory UInt8) (dst src : UInt32) (len : Nat) : xmemcpy mem dst src (len + 1) =
    Function.update (xmemcpy mem dst src len) (dst + UInt32.ofNat len).toNat
      (xmemcpy mem dst src len (src + UInt32.ofNat len).toNat) := by
  unfold xmemcpy
  rw [List.range_succ, List.foldl_append]
  rfl

theorem xmemcpy_outside (mem : Memory UInt8) (dst src : UInt32) (len : Nat) {a : Nat}
    (h : ∀ i < len, (dst + UInt32.ofNat i).toNat ≠ a) : xmemcpy mem dst src len a = mem a := by
  induction len with
  | zero => rfl
  | succ len ih =>
    rw [xmemcpy_succ, Function.update_of_ne (Ne.symm (h len (Nat.lt_succ_self _)))]
    exact ih fun i hi => h i (Nat.lt_succ_of_lt hi)

/-- A part of memory that is not copied over itself arrives as it was. -/
theorem xmemcpy_inside (mem : Memory UInt8) (dst src : UInt32) {len : Nat} (hlen : len < 2 ^ 32)
    (h : ∀ i < len, ∀ k < len, (dst + UInt32.ofNat i).toNat ≠ (src + UInt32.ofNat k).toNat) {k : Nat} (hk : k < len) :
    xmemcpy mem dst src len (dst + UInt32.ofNat k).toNat = mem (src + UInt32.ofNat k).toNat := by
  induction len with
  | zero => exact absurd hk (Nat.not_lt_zero k)
  | succ len ih =>
    rw [xmemcpy_succ]
    rcases Nat.lt_succ_iff_lt_or_eq.mp hk with hlt | rfl
    · have hne : (dst + UInt32.ofNat k).toNat ≠ (dst + UInt32.ofNat len).toNat := by
        simp only [UInt32.toNat_add, UInt32.toNat_ofNat']
        have hdst := dst.toNat_lt
        omega
      rw [Function.update_of_ne hne]
      exact ih (by omega) (fun i hi k hk => h i (Nat.lt_succ_of_lt hi) k (Nat.lt_succ_of_lt hk)) hlt
    · rw [Function.update_self]
      exact xmemcpy_outside mem dst src k fun i hi => h i (Nat.lt_succ_of_lt hi) k (Nat.lt_succ_self k)

theorem firmSection_congr {mem mem' : Memory UInt8}
    (h : ∀ a, firmAddress.toNat ≤ a → a < firmAddress.toNat + 0x200 → mem' a = mem a) (i : Fin 4) :
    firmSection mem' i = firmSection mem i := by
  have hi := i.isLt
  have hword : ∀ a, firmAddress.toNat ≤ a → a + 4 ≤ firmAddress.toNat + 0x200 → readWord mem' a = readWord mem a := by
    intro a hlow hhigh
    exact congrArg UInt32.ofNat (load_congr fun x hx hlt => h x (by omega) (by omega))
  unfold firmSection
  simp only [FirmSection.mk.injEq]
  refine ⟨hword _ (by omega) (by omega), hword _ (by omega) (by omega), hword _ (by omega) (by omega), ?_⟩
  unfold readBytes
  apply List.map_congr_left
  intro k hk
  have hlt := List.mem_range.mp hk
  exact h _ (by omega) (by omega)

section

variable {sha : List UInt8 → List UInt8} {mem : Memory UInt8} {firmSize : UInt32}

/-- The addresses that a section is copied to do not wrap around. -/
theorem address_toNat (h : checkFirm sha mem firmSize = true) {i : Fin 4} {k : Nat}
    (hk : k < ((firmAt mem).sections i).size.toNat) :
    (((firmAt mem).sections i).address + UInt32.ofNat k).toNat = ((firmAt mem).sections i).address.toNat + k := by
  have hsize : ((firmAt mem).sections i).size ≠ 0 := by
    intro hzero
    rw [hzero] at hk
    exact absurd hk (Nat.not_lt_zero k)
  have hnoWrap := (checked_of_checkFirm h hsize).noWrap
  have hlt := ((firmAt mem).sections i).address.toNat_lt
  have hsum := (((firmAt mem).sections i).address + ((firmAt mem).sections i).size).toNat_lt
  rw [UInt32.toNat_add, UInt32.toNat_ofNat']
  omega

/-- A section that has been checked is copied to its own addresses only. -/
theorem copySection_outside (h : checkFirm sha mem firmSize = true) {mem' : Memory UInt8} {i : Fin 4}
    (hsame : firmSection mem' i = firmSection mem i) {a : Nat} (hnot : ¬ ((firmAt mem).sections i).Writes a) :
    copySection mem' i a = mem' a := by
  unfold copySection
  rw [hsame]
  apply xmemcpy_outside
  rintro k hk rfl
  refine hnot ?_
  show _ ≤ (((firmAt mem).sections i).address + UInt32.ofNat k).toNat ∧ (((firmAt mem).sections i).address + UInt32.ofNat k).toNat < _
  rw [address_toNat h hk]
  exact ⟨Nat.le_add_right _ _, Nat.add_lt_add_left hk _⟩

/-- It arrives there, unless it is copied over itself. -/
theorem copySection_inside (h : checkFirm sha mem firmSize = true) {mem' : Memory UInt8} {i : Fin 4}
    (hsame : firmSection mem' i = firmSection mem i)
    (hown : ∀ k < ((firmAt mem).sections i).size.toNat, ¬((firmAt mem).sections i).Writes (((firmAt mem).sections i).source k))
    {k : Nat} (hk : k < ((firmAt mem).sections i).size.toNat) :
    copySection mem' i (((firmAt mem).sections i).address.toNat + k) = mem' (((firmAt mem).sections i).source k) := by
  unfold copySection
  rw [hsame, ← address_toNat h hk]
  refine xmemcpy_inside mem' _ _ (firmSection mem i).size.toNat_lt (fun l hl k hk heq => hown k hk ?_) hk
  show _ ≤ (firmAddress + (firmSection mem i).offset + UInt32.ofNat k).toNat ∧
    (firmAddress + (firmSection mem i).offset + UInt32.ofNat k).toNat < _
  rw [← heq, show ((firmSection mem i).address + UInt32.ofNat l).toNat = _ from address_toNat h hl]
  exact ⟨Nat.le_add_right _ _, Nat.add_lt_add_left hl _⟩

/-- When a section's turn comes, its header and its source are still those of the file. -/
theorem copied_from_file (h : checkFirm sha mem firmSize = true) (hkept : (firmAt mem).Kept) (n : Nat) (hn : n ≤ 4) :
    (∀ a, firmAddress.toNat ≤ a → a < firmAddress.toNat + 0x200 → copied mem n a = mem a) ∧
      ∀ j : Fin 4, n ≤ j → ∀ k < ((firmAt mem).sections j).size.toNat,
        copied mem n (((firmAt mem).sections j).source k) = mem (((firmAt mem).sections j).source k) := by
  induction n with
  | zero => exact ⟨fun _ _ _ => rfl, fun _ _ _ _ => rfl⟩
  | succ n ih =>
    obtain ⟨hheader, hsources⟩ := ih (by omega)
    have hsame := firmSection_congr hheader ⟨n, hn⟩
    rw [show copied mem (n + 1) = copySection (copied mem n) ⟨n, hn⟩ from copied_succ mem ⟨n, hn⟩]
    refine ⟨fun a hlow hhigh => ?_, fun j hj k hk => ?_⟩
    · have hfront : 0x200 ≤ (firmAt mem).sectionsEnd := Nat.le_add_right _ _
      rw [copySection_outside h hsame (not_writes h _ hlow (by omega))]
      exact hheader a hlow hhigh
    · rw [copySection_outside h hsame (hkept.source ⟨n, hn⟩ j (Fin.le_def.mpr (Nat.le_of_lt hj)) k hk)]
      exact hsources j (by omega) k hk

/-- What has been copied stays where it is. -/
theorem copied_arrived (h : checkFirm sha mem firmSize = true) (hkept : (firmAt mem).Kept) (n : Nat) (hn : n ≤ 4) :
    (∀ j : Fin 4, j < n → ∀ k < ((firmAt mem).sections j).size.toNat,
        copied mem n (((firmAt mem).sections j).address.toNat + k) = mem (((firmAt mem).sections j).source k)) ∧
      ∀ a, (∀ j : Fin 4, j < n → ¬((firmAt mem).sections j).Writes a) → copied mem n a = mem a := by
  induction n with
  | zero => exact ⟨fun j hj => absurd hj (Nat.not_lt_zero _), fun _ _ => rfl⟩
  | succ n ih =>
    obtain ⟨harrived, houtside⟩ := ih (by omega)
    obtain ⟨hheader, hsources⟩ := copied_from_file h hkept n (by omega)
    have hsame := firmSection_congr hheader ⟨n, hn⟩
    rw [show copied mem (n + 1) = copySection (copied mem n) ⟨n, hn⟩ from copied_succ mem ⟨n, hn⟩]
    refine ⟨fun j hj k hk => ?_, fun a hnot => ?_⟩
    · rcases Nat.lt_succ_iff_lt_or_eq.mp hj with hlt | heq
      · have hlanded := hkept.landed j ⟨n, hn⟩ (Fin.lt_def.mpr hlt) (((firmAt mem).sections j).address.toNat + k)
          ⟨Nat.le_add_right _ _, Nat.add_lt_add_left hk _⟩
        rw [copySection_outside h hsame hlanded]
        exact harrived j hlt k hk
      · obtain rfl : j = ⟨n, hn⟩ := Fin.ext heq
        rw [copySection_inside h hsame (hkept.source _ _ le_rfl) hk]
        exact hsources ⟨n, hn⟩ le_rfl k hk
    · rw [copySection_outside h hsame (hnot ⟨n, hn⟩ (Nat.lt_succ_self n))]
      exact houtside a fun j hj => hnot j (Nat.lt_succ_of_lt hj)

/-- What a section of a FIRM that is accepted holds in the file has the hash of its header. -/
theorem hash_of_checkFirm (h : checkFirm sha mem firmSize = true) {i : Fin 4} (hsize : ((firmAt mem).sections i).size ≠ 0) :
    sha ((List.range ((firmAt mem).sections i).size.toNat).map fun k => mem (((firmAt mem).sections i).source k)) =
      ((firmAt mem).sections i).hash := by
  unfold checkFirm at h
  simp only [Bool.and_eq_true, List.all_eq_true] at h
  have hsection := h.1.1.2 i (List.mem_finRange i)
  unfold checkSection at hsection
  rw [Bool.or_eq_true, Bool.and_eq_true] at hsection
  exact of_decide_eq_true (hsection.resolve_left (by simpa using hsize)).2

/-- A FIRM is started as it was checked, if its sections are not copied over each other or over what is still to be copied: at
the address of each section is what its hash was computed of, and nothing else has changed. -/
theorem doLaunchFirm_as_checked (h : checkFirm sha mem firmSize = true) (hkept : (firmAt mem).Kept) :
    (∀ i, ((firmAt mem).sections i).size ≠ 0 →
      sha (readBytes (doLaunchFirm mem) ((firmAt mem).sections i).address.toNat ((firmAt mem).sections i).size.toNat) =
        ((firmAt mem).sections i).hash) ∧
      ∀ a, (∀ i, ¬((firmAt mem).sections i).Writes a) → doLaunchFirm mem a = mem a := by
  obtain ⟨harrived, houtside⟩ := copied_arrived h hkept 4 le_rfl
  rw [copied_four] at harrived houtside
  refine ⟨fun i hsize => ?_, fun a hnot => houtside a fun i _ => hnot i⟩
  rw [← hash_of_checkFirm h hsize]
  refine congrArg sha (List.map_congr_left fun k hk => ?_)
  exact harrived i i.isLt k (List.mem_range.mp hk)

end

/-! ## A FIRM that is safe, and one that is accepted and not -/

/-- The SHA-256 of 512 zeros. -/
def zerosHash : List UInt8 :=
  [7, 106, 39, 199, 158, 90, 206, 42, 61, 71, 249, 221, 46, 131, 228, 255,
    110, 168, 135, 43, 60, 34, 24, 246, 108, 146, 184, 155, 85, 243, 101, 96]

/-- SHA-256, for 512 zeros. -/
def zerosSha (bytes : List UInt8) : List UInt8 := if bytes = List.replicate 0x200 0 then zerosHash else []

/-- A FIRM of one section of zeros, which goes to 0x08000000. -/
def zerosFirm (offset : Nat) : Memory UInt8 :=
  Memory.store (fun _ => 0) firmAddress.toNat
    ([0x46, 0x49, 0x52, 0x4D] ++ leBytes 4 0 ++ leBytes 4 0 ++ leBytes 4 0x08000000 ++ List.replicate 0x30 0 ++
      leBytes 4 offset ++ leBytes 4 0x08000000 ++ leBytes 4 0x200 ++ leBytes 4 0 ++ zerosHash)

/-- With its section behind the header it is accepted and safe. -/
theorem zerosFirm_safe : checkFirm zerosSha (zerosFirm 0x200) 0x400 = true ∧ (firmAt (zerosFirm 0x200)).Safe 0x400 := by
  have haccepted : checkFirm zerosSha (zerosFirm 0x200) 0x400 = true := by decide +kernel
  refine ⟨haccepted, (safe_iff_compact haccepted).mpr ⟨?_, fun i j hij k hk => ?_⟩⟩
  · decide +kernel
  · have hempty : ∀ j : Fin 4, j ≠ 0 → ((firmAt (zerosFirm 0x200)).sections j).size.toNat = 0 := by decide +kernel
    rw [hempty j (Fin.ne_zero_of_lt hij)] at hk
    exact absurd hk (Nat.not_lt_zero k)

theorem zerosFirm_as_checked : (∀ i, ((firmAt (zerosFirm 0x200)).sections i).size ≠ 0 →
    zerosSha (readBytes (doLaunchFirm (zerosFirm 0x200)) ((firmAt (zerosFirm 0x200)).sections i).address.toNat
      ((firmAt (zerosFirm 0x200)).sections i).size.toNat) = ((firmAt (zerosFirm 0x200)).sections i).hash) ∧
    ∀ a, (∀ i, ¬((firmAt (zerosFirm 0x200)).sections i).Writes a) → doLaunchFirm (zerosFirm 0x200) a = zerosFirm 0x200 a := by
  have haccepted : checkFirm zerosSha (zerosFirm 0x200) 0x400 = true := by decide +kernel
  have hempty : ∀ j : Fin 4, j ≠ 0 → ((firmAt (zerosFirm 0x200)).sections j).size.toNat = 0 := by decide +kernel
  have hoffset : ((firmAt (zerosFirm 0x200)).sections 0).offset.toNat = 0x200 ∧
      ((firmAt (zerosFirm 0x200)).sections 0).size.toNat = 0x200 := by decide +kernel
  have hend : (firmAt (zerosFirm 0x200)).sectionsEnd = 0x400 := by decide +kernel
  refine doLaunchFirm_as_checked haccepted ⟨fun i j _ k hk => ?_, fun i j hij a _ ⟨hlow, hhigh⟩ => ?_⟩
  · by_cases hj : j = 0
    · subst hj
      rw [source_toNat _ (by omega)]
      exact not_writes haccepted i (by omega) (by omega)
    · rw [hempty j hj] at hk
      exact absurd hk (Nat.not_lt_zero k)
  · rw [hempty j (Fin.ne_zero_of_lt hij)] at hhigh
    exact absurd hhigh (Nat.not_lt_of_le hlow)

/-- With its section behind the end of the file it is accepted as well. -/
theorem zerosFirm_unsafe : checkFirm zerosSha (zerosFirm 0x1000) 0x400 = true ∧ ¬ (firmAt (zerosFirm 0x1000)).Safe 0x400 := by
  refine ⟨by decide +kernel, fun hsafe => ?_⟩
  have hbehind : ((firmAt (zerosFirm 0x1000)).sections 0).size ≠ 0 ∧
      ¬ ((firmAt (zerosFirm 0x1000)).sections 0).offset.toNat + ((firmAt (zerosFirm 0x1000)).sections 0).size.toNat ≤
        (0x400 : UInt32).toNat := by decide +kernel
  exact hbehind.2 (hsafe.inFile 0 hbehind.1)

end Omiiba.Arm9
