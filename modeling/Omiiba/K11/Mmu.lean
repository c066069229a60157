/-
The page tables of a process, after mmu.c and mmu.h: all that is mapped is made readable, writable and executable.
-/
import Omiiba.Lib.BitFields

namespace Omiiba.K11

open BitFields

/-! ## Descriptors -/

inductive DescType
  | translationFault
  | coarsePageTable
  | sectionDesc
  | supersection
  | reserved
  | largePage
  | smallPage
  deriving DecidableEq

/-- Where a descriptor keeps its permissions: the positions of `xn`, `ap` and `apx`, which a supersection is read without. -/
structure PermFields where
  xn : Nat
  ap : Nat
  apx : Option Nat
  xn_lt : xn < 32
  ap_lt : ap + 1 < 32
  apx_lt : ∀ a ∈ apx, a < 32
  xn_ap : xn < ap ∨ ap + 1 < xn
  apx_xn : ∀ a ∈ apx, a ≠ xn
  apx_ap : ∀ a ∈ apx, a < ap ∨ ap + 1 < a

namespace PermFields

/-- `Desc_Section`. -/
def ofSection : PermFields where
  xn := 4
  ap := 10
  apx := some 15
  xn_lt := by decide
  ap_lt := by decide
  apx_lt := by decide
  xn_ap := by decide
  apx_xn := by decide
  apx_ap := by decide

/-- `Desc_Supersection`. -/
def ofSupersection : PermFields where
  xn := 4
  ap := 10
  apx := none
  xn_lt := by decide
  ap_lt := by decide
  apx_lt := by decide
  xn_ap := by decide
  apx_xn := by decide
  apx_ap := by decide

/-- `Desc_LargePage`. -/
def ofLargePage : PermFields where
  xn := 15
  ap := 4
  apx := some 9
  xn_lt := by decide
  ap_lt := by decide
  apx_lt := by decide
  xn_ap := by decide
  apx_xn := by decide
  apx_ap := by decide

/-- `Desc_SmallPage`. -/
def ofSmallPage : PermFields where
  xn := 0
  ap := 4
  apx := some 9
  xn_lt := by decide
  ap_lt := by decide
  apx_lt := by decide
  xn_ap := by decide
  apx_xn := by decide
  apx_ap := by decide

variable (f : PermFields) (d : BitVec 32)

/-- `apx` is cleared where there is one. -/
def clearApx : BitVec 32 :=
  match f.apx with
  | some apx => setField apx 0#1 d
  | none => d

/-- What the loops over the tables make of a descriptor. -/
def rwx : BitVec 32 := setField f.ap 3#2 (f.clearApx (setField f.xn 0#1 d))

/-- Read-only by `apx`. -/
def readOnly : Bool :=
  match f.apx with
  | some apx => d.extractLsb' apx 1 ≠ 0
  | none => false

/-- What `GetAddressUserPerm` reads off a descriptor. -/
def userPerm : BitVec 32 :=
  let ap := d.extractLsb' f.ap 2
  let perm := ap.setWidth 32 >>> 1
  if perm = 0 then perm
  else perm ||| (if !f.readOnly d && ap &&& 1 ≠ 0 then 1 <<< 1 else 0) ||| (if d.extractLsb' f.xn 1 = 0 then 1 <<< 2 else 0)

end PermFields

/-- `L1Descriptor__GetType`. -/
def l1GetType (descriptor : BitVec 32) : DescType :=
  if descriptor.extractLsb' 0 2 = 0b00 then .translationFault
  else if descriptor.extractLsb' 0 2 = 0b01 then .coarsePageTable
  else if descriptor.extractLsb' 0 2 = 0b10 then
    if descriptor.extractLsb' 18 1 = 0 then .sectionDesc else .supersection
  else .reserved

/-- `L2Descriptor__GetType`. -/
def l2GetType (descriptor : BitVec 32) : DescType :=
  if descriptor.extractLsb' 0 2 = 0b01 then .largePage
  else if descriptor.extractLsb' 1 1 = 1 then .smallPage
  else .translationFault

/-- Where the kernel sees the second-level table that a descriptor points to; `addr` has 21 bits. -/
def l2Table (descriptor : BitVec 32) : BitVec 32 := ((descriptor.extractLsb' 10 21).setWidth 32 <<< 10) - 0x40000000

/-! ## The walkers -/

/-- The words of the memory, by their addresses. -/
abbrev Mem := BitVec 32 → BitVec 32

/-- The addresses of a table with `count` entries. -/
def entries (table : BitVec 32) (count : Nat) : List (BitVec 32) :=
  (List.range count).map fun i => table + BitVec.ofNat 32 (4 * i)

/-- `L2MMUTable__RWXForAll`, for one entry. -/
def l2EntryRwx (descriptor : BitVec 32) : BitVec 32 :=
  match l2GetType descriptor with
  | .largePage => PermFields.ofLargePage.rwx descriptor
  | .smallPage => PermFields.ofSmallPage.rwx descriptor
  | _ => descriptor

/-- `L2MMUTable__RWXForAll`. -/
def l2RwxForAll (table : BitVec 32) (m : Mem) : Mem := rewriteAll l2EntryRwx (entries table 256) m

/-- `L1MMUTable__RWXForAll`, for one entry. -/
def l1EntryRwx (m : Mem) (table : BitVec 32) : Mem :=
  let descriptor := m table
  match l1GetType descriptor with
  | .coarsePageTable => l2RwxForAll (l2Table descriptor) m
  | .sectionDesc => Function.update m table (PermFields.ofSection.rwx descriptor)
  | .supersection => Function.update m table (PermFields.ofSupersection.rwx descriptor)
  | _ => m

/-- `L1MMUTable__RWXForAll`. -/
def l1RwxForAll (table : BitVec 32) (m : Mem) : Mem := (entries table 1024).foldl l1EntryRwx m

/-- The descriptor of `va` in a second-level table. -/
def l2Descriptor (table va : BitVec 32) (m : Mem) : BitVec 32 := m (table + ((va <<< 12) >>> 24) * 4)

/-- The descriptor of `va` in the first-level table. -/
def l1Descriptor (table va : BitVec 32) (m : Mem) : BitVec 32 := m (table + (va >>> 20) * 4)

/-- `L2MMUTable__GetPAFromVA`. -/
def l2GetPAFromVA (table va : BitVec 32) (m : Mem) : BitVec 32 :=
  let descriptor := l2Descriptor table va m
  match l2GetType descriptor with
  | .largePage => ((descriptor.extractLsb' 16 16).setWidth 32 <<< 16) ||| (va &&& 0xFFFF)
  | .smallPage => ((descriptor.extractLsb' 12 20).setWidth 32 <<< 12) ||| (va &&& 0xFFF)
  | _ => 0

/-- `L1MMUTable__GetPAFromVA`. -/
def l1GetPAFromVA (table va : BitVec 32) (m : Mem) : BitVec 32 :=
  let descriptor := l1Descriptor table va m
  match l1GetType descriptor with
  | .coarsePageTable => l2GetPAFromVA (l2Table descriptor) va m
  | .sectionDesc => ((descriptor.extractLsb' 20 12).setWidth 32 <<< 20) ||| ((va <<< 12) >>> 12)
  | .supersection => ((descriptor.extractLsb' 24 8).setWidth 32 <<< 24) ||| ((va <<< 8) >>> 8)
  | _ => 0 -- VA not found

/-- `L2MMUTable__GetAddressUserPerm`. -/
def l2GetAddressUserPerm (table va : BitVec 32) (m : Mem) : BitVec 32 :=
  let descriptor := l2Descriptor table va m
  match l2GetType descriptor with
  | .largePage => PermFields.ofLargePage.userPerm descriptor
  | .smallPage => PermFields.ofSmallPage.userPerm descriptor
  | _ => 0

/-- `L1MMUTable__GetAddressUserPerm`. -/
def l1GetAddressUserPerm (table va : BitVec 32) (m : Mem) : BitVec 32 :=
  let descriptor := l1Descriptor table va m
  match l1GetType descriptor with
  | .coarsePageTable => l2GetAddressUserPerm (l2Table descriptor) va m
  | .sectionDesc => PermFields.ofSection.userPerm descriptor
  | .supersection => PermFields.ofSupersection.userPerm descriptor
  | _ => 0 -- VA not found

/-- The tables map an address: by a section, or by a page of a second-level table. -/
def Mapped (table va : BitVec 32) (m : Mem) : Prop :=
  let descriptor := l1Descriptor table va m
  l1GetType descriptor = .sectionDesc ∨ l1GetType descriptor = .supersection ∨
    l1GetType descriptor = .coarsePageTable ∧ l2GetType (l2Descriptor (l2Table descriptor) va m) ≠ .translationFault

instance (table va : BitVec 32) (m : Mem) : Decidable (Mapped table va m) := inferInstanceAs (Decidable (_ ∨ _ ∨ _))

/-- A first-level table apart from the second-level tables that it points to; these may be shared. -/
@[ext] structure PageTables where
  table : BitVec 32
  memory : Mem
  apart : ∀ t ∈ entries table 1024, l1GetType (memory t) = .coarsePageTable →
    ∀ a ∈ entries (l2Table (memory t)) 256, a ∉ entries table 1024

/-! ## Permissions that were rewritten -/

namespace PermFields

variable {f : PermFields} {d : BitVec 32} {lo width : Nat}

theorem field_clearApx (h : ∀ a ∈ f.apx, lo + width ≤ a ∨ a + 1 ≤ lo) :
    (f.clearApx d).extractLsb' lo width = d.extractLsb' lo width := by
  unfold clearApx
  cases hapx : f.apx with
  | none => rfl
  | some a => exact field_setField_of_disjoint (f.apx_lt a hapx) (h a hapx)

/-- What is no permission stays. -/
theorem field_rwx (hxn : lo + width ≤ f.xn ∨ f.xn + 1 ≤ lo) (hap : lo + width ≤ f.ap ∨ f.ap + 2 ≤ lo)
    (hapx : ∀ a ∈ f.apx, lo + width ≤ a ∨ a + 1 ≤ lo) : (f.rwx d).extractLsb' lo width = d.extractLsb' lo width := by
  unfold rwx
  rw [field_setField_of_disjoint f.ap_lt hap, field_clearApx hapx, field_setField_of_disjoint f.xn_lt hxn]

theorem rwx_ap : (f.rwx d).extractLsb' f.ap 2 = 3#2 := field_setField f.ap_lt

theorem rwx_xn : (f.rwx d).extractLsb' f.xn 1 = 0#1 := by
  unfold rwx
  rw [field_setField_of_disjoint f.ap_lt (by have := f.xn_ap; omega), field_clearApx, field_setField f.xn_lt]
  intro a ha
  have hne := f.apx_xn a ha
  omega

theorem rwx_apx {a : Nat} (ha : f.apx = some a) : (f.rwx d).extractLsb' a 1 = 0#1 := by
  unfold rwx clearApx
  rw [field_setField_of_disjoint f.ap_lt (by have := f.apx_ap a ha; omega)]
  simp only [ha]
  exact field_setField (f.apx_lt a ha)

theorem userPerm_rwx : f.userPerm (f.rwx d) = 7 := by
  have hwritable : f.readOnly (f.rwx d) = false := by
    unfold readOnly
    cases hapx : f.apx with
    | none => rfl
    | some a => simp [rwx_apx hapx]
  unfold userPerm
  rw [rwx_ap, rwx_xn, hwritable]
  rfl

theorem rwx_rwx : f.rwx (f.rwx d) = f.rwx d := by
  have hapx : f.clearApx (f.rwx d) = f.rwx d := by
    unfold clearApx
    cases hapx : f.apx with
    | none => rfl
    | some a => exact setField_eq_self (f.apx_lt a hapx) (rwx_apx hapx)
  show setField f.ap 3#2 (f.clearApx (setField f.xn 0#1 (f.rwx d))) = f.rwx d
  rw [setField_eq_self f.xn_lt rwx_xn, hapx]
  exact setField_eq_self f.ap_lt rwx_ap

end PermFields

/-! ## Descriptors that were rewritten -/

section Descriptors

variable {d : BitVec 32}

/-- The entry of a first-level table, if it is a section or a supersection. -/
def l1Rwx (d : BitVec 32) : BitVec 32 :=
  match l1GetType d with
  | .sectionDesc => PermFields.ofSection.rwx d
  | .supersection => PermFields.ofSupersection.rwx d
  | _ => d

theorem l1GetType_cases (d : BitVec 32) : l1GetType d = .translationFault ∨ l1GetType d = .coarsePageTable ∨
    l1GetType d = .sectionDesc ∨ l1GetType d = .supersection ∨ l1GetType d = .reserved := by
  unfold l1GetType
  split_ifs <;> simp

theorem l1GetType_section : l1GetType d = .sectionDesc ↔ d.extractLsb' 0 2 = 0b10 ∧ d.extractLsb' 18 1 = 0 := by
  unfold l1GetType
  split_ifs <;> simp_all

theorem l1GetType_supersection : l1GetType d = .supersection ↔ d.extractLsb' 0 2 = 0b10 ∧ d.extractLsb' 18 1 ≠ 0 := by
  unfold l1GetType
  split_ifs <;> simp_all

theorem l2GetType_cases (d : BitVec 32) :
    l2GetType d = .translationFault ∨ l2GetType d = .largePage ∨ l2GetType d = .smallPage := by
  unfold l2GetType
  split_ifs <;> simp

theorem l2GetType_largePage : l2GetType d = .largePage ↔ d.extractLsb' 0 2 = 0b01 := by
  unfold l2GetType
  split_ifs <;> simp_all

theorem l2GetType_smallPage : l2GetType d = .smallPage ↔ d.extractLsb' 0 2 ≠ 0b01 ∧ d.extractLsb' 1 1 = 1 := by
  unfold l2GetType
  split_ifs <;> simp_all

/-- The type shares no bit with the permissions of a section or a supersection. -/
theorem l1GetType_l1Rwx : l1GetType (l1Rwx d) = l1GetType d := by
  unfold l1Rwx
  cases htype : l1GetType d with
  | sectionDesc =>
    obtain ⟨htag, hkind⟩ := l1GetType_section.mp htype
    refine l1GetType_section.mpr ⟨?_, ?_⟩
    · rwa [PermFields.field_rwx (by decide) (by decide) (by decide)]
    · rwa [PermFields.field_rwx (by decide) (by decide) (by decide)]
  | supersection =>
    obtain ⟨htag, hkind⟩ := l1GetType_supersection.mp htype
    refine l1GetType_supersection.mpr ⟨?_, ?_⟩
    · rwa [PermFields.field_rwx (by decide) (by decide) (by decide)]
    · rwa [PermFields.field_rwx (by decide) (by decide) (by decide)]
  | _ => exact htype

theorem bit0_of_bits1_0 (h : d.extractLsb' 0 2 = 0b01) : d.extractLsb' 0 1 = 1 := by
  have hbit := congrArg (BitVec.extractLsb' 0 1) h
  rw [BitVec.extractLsb'_extractLsb'_of_le (by decide)] at hbit
  simpa using hbit

/-- A small page keeps its `xn` in a bit of the type, but one that is cleared leaves it a small page. -/
theorem l2GetType_l2EntryRwx : l2GetType (l2EntryRwx d) = l2GetType d := by
  unfold l2EntryRwx
  cases htype : l2GetType d with
  | largePage =>
    refine l2GetType_largePage.mpr ?_
    rw [PermFields.field_rwx (by decide) (by decide) (by decide)]
    exact l2GetType_largePage.mp htype
  | smallPage =>
    obtain ⟨-, hbit⟩ := l2GetType_smallPage.mp htype
    refine l2GetType_smallPage.mpr ⟨fun htag => ?_, ?_⟩
    · -- the lowest bit of a large page is set
      have hxn : (PermFields.ofSmallPage.rwx d).extractLsb' 0 1 = 0#1 := PermFields.rwx_xn
      rw [bit0_of_bits1_0 htag] at hxn
      exact absurd hxn (by decide)
    · rwa [PermFields.field_rwx (by decide) (by decide) (by decide)]
  | _ => exact htype

theorem l1Rwx_section (h : l1GetType d = .sectionDesc) : l1Rwx d = PermFields.ofSection.rwx d := by
  simp [l1Rwx, h]

theorem l1Rwx_supersection (h : l1GetType d = .supersection) : l1Rwx d = PermFields.ofSupersection.rwx d := by
  simp [l1Rwx, h]

theorem l1Rwx_other (hsection : l1GetType d ≠ .sectionDesc) (hsuper : l1GetType d ≠ .supersection) : l1Rwx d = d := by
  unfold l1Rwx
  split <;> simp_all

theorem l2EntryRwx_largePage (h : l2GetType d = .largePage) : l2EntryRwx d = PermFields.ofLargePage.rwx d := by
  simp [l2EntryRwx, h]

theorem l2EntryRwx_smallPage (h : l2GetType d = .smallPage) : l2EntryRwx d = PermFields.ofSmallPage.rwx d := by
  simp [l2EntryRwx, h]

theorem l1Rwx_l1Rwx : l1Rwx (l1Rwx d) = l1Rwx d := by
  by_cases hsection : l1GetType d = .sectionDesc
  · rw [l1Rwx_section (l1GetType_l1Rwx.trans hsection), l1Rwx_section hsection, PermFields.rwx_rwx]
  by_cases hsuper : l1GetType d = .supersection
  · rw [l1Rwx_supersection (l1GetType_l1Rwx.trans hsuper), l1Rwx_supersection hsuper, PermFields.rwx_rwx]
  · rw [l1Rwx_other hsection hsuper, l1Rwx_other hsection hsuper]

theorem l2EntryRwx_l2EntryRwx (d : BitVec 32) : l2EntryRwx (l2EntryRwx d) = l2EntryRwx d := by
  cases htype : l2GetType d with
  | largePage => rw [l2EntryRwx_largePage (l2GetType_l2EntryRwx.trans htype), l2EntryRwx_largePage htype, PermFields.rwx_rwx]
  | smallPage => rw [l2EntryRwx_smallPage (l2GetType_l2EntryRwx.trans htype), l2EntryRwx_smallPage htype, PermFields.rwx_rwx]
  | _ => simp [l2EntryRwx, htype]

end Descriptors

/-! ## The walkers over tables that were rewritten -/

section Walkers

variable {table table' va : BitVec 32} {m m' : Mem}

theorem l1Rwx_coarse {d : BitVec 32} (h : l1GetType d = .coarsePageTable) : l1Rwx d = d :=
  l1Rwx_other (by simp [h]) (by simp [h])

theorem l2GetPAFromVA_of_rwx (h : l2Descriptor table va m' = l2EntryRwx (l2Descriptor table va m)) :
    l2GetPAFromVA table va m' = l2GetPAFromVA table va m := by
  simp only [l2GetPAFromVA, h, l2GetType_l2EntryRwx]
  cases htype : l2GetType (l2Descriptor table va m) with
  | largePage =>
    simp only [l2EntryRwx_largePage htype]
    rw [PermFields.field_rwx (by decide) (by decide) (by decide)]
  | smallPage =>
    simp only [l2EntryRwx_smallPage htype]
    rw [PermFields.field_rwx (by decide) (by decide) (by decide)]
  | _ => rfl

theorem l2GetAddressUserPerm_of_rwx (h : l2Descriptor table va m' = l2EntryRwx (l2Descriptor table va m)) :
    l2GetAddressUserPerm table va m' = if l2GetType (l2Descriptor table va m) ≠ .translationFault then 7 else 0 := by
  simp only [l2GetAddressUserPerm, h, l2GetType_l2EntryRwx]
  rcases l2GetType_cases (l2Descriptor table va m) with htype | htype | htype
  · simp [htype]
  · simp [htype, l2EntryRwx_largePage htype, PermFields.userPerm_rwx]
  · simp [htype, l2EntryRwx_smallPage htype, PermFields.userPerm_rwx]

variable (hfirst : l1Descriptor table va m' = l1Rwx (l1Descriptor table va m))
  (hsecond : l1GetType (l1Descriptor table va m) = .coarsePageTable →
    l2Descriptor (l2Table (l1Descriptor table va m)) va m' =
      l2EntryRwx (l2Descriptor (l2Table (l1Descriptor table va m)) va m))

include hfirst hsecond

theorem l1GetPAFromVA_of_rwx : l1GetPAFromVA table va m' = l1GetPAFromVA table va m := by
  simp only [l1GetPAFromVA, hfirst, l1GetType_l1Rwx]
  cases htype : l1GetType (l1Descriptor table va m) with
  | coarsePageTable =>
    simp only [l1Rwx_coarse htype]
    exact l2GetPAFromVA_of_rwx (hsecond htype)
  | sectionDesc =>
    simp only [l1Rwx_section htype]
    rw [PermFields.field_rwx (by decide) (by decide) (by decide)]
  | supersection =>
    simp only [l1Rwx_supersection htype]
    rw [PermFields.field_rwx (by decide) (by decide) (by decide)]
  | _ => rfl

theorem l1GetAddressUserPerm_of_rwx : l1GetAddressUserPerm table va m' = if Mapped table va m then 7 else 0 := by
  simp only [l1GetAddressUserPerm, hfirst, l1GetType_l1Rwx]
  rcases l1GetType_cases (l1Descriptor table va m) with htype | htype | htype | htype | htype
  · simp [htype, Mapped]
  · simp only [htype, l1Rwx_coarse htype, l2GetAddressUserPerm_of_rwx (hsecond htype)]
    simp [htype, Mapped]
  · simp [htype, Mapped, l1Rwx_section htype, PermFields.userPerm_rwx]
  · simp [htype, Mapped, l1Rwx_supersection htype, PermFields.userPerm_rwx]
  · simp [htype, Mapped]

end Walkers

/-! ## The loop over the first-level table -/

section Loop

variable {table a va : BitVec 32} {m : Mem}

theorem mem_entries {count : Nat} : a ∈ entries table count ↔ ∃ i < count, table + BitVec.ofNat 32 (4 * i) = a := by
  simp [entries]

theorem index_mem_entries {count : Nat} {v : BitVec 32} (hv : v.toNat < count) : table + v * 4 ∈ entries table count := by
  refine mem_entries.mpr ⟨v.toNat, hv, congrArg (table + ·) (BitVec.eq_of_toNat_eq ?_)⟩
  simp [Nat.mul_comm]

theorem nodup_entries {count : Nat} (hcount : 4 * count ≤ 2 ^ 32) : (entries table count).Nodup := by
  refine List.nodup_range.map_on fun i hi j hj hij => ?_
  have hnat := congrArg BitVec.toNat ((BitVec.add_right_inj table).mp hij)
  rw [BitVec.toNat_ofNat, BitVec.toNat_ofNat] at hnat
  have hi' := List.mem_range.mp hi
  have hj' := List.mem_range.mp hj
  omega

/-- The word belongs to the second-level table of the descriptor, if it has one. -/
def InL2Table (descriptor a : BitVec 32) : Prop :=
  l1GetType descriptor = .coarsePageTable ∧ a ∈ entries (l2Table descriptor) 256

instance (descriptor a : BitVec 32) : Decidable (InL2Table descriptor a) := inferInstanceAs (Decidable (_ ∧ _))

theorem inL2Table_l1Rwx {d : BitVec 32} : InL2Table (l1Rwx d) a ↔ InL2Table d a := by
  unfold InL2Table
  rw [l1GetType_l1Rwx]
  refine and_congr_right fun hcoarse => ?_
  rw [l1Rwx_coarse hcoarse]

theorem l1EntryRwx_apply (h : ¬InL2Table (m table) table) : l1EntryRwx m table a =
    if a = table then l1Rwx (m table) else if InL2Table (m table) a then l2EntryRwx (m a) else m a := by
  unfold l1EntryRwx
  by_cases hcoarse : l1GetType (m table) = .coarsePageTable
  · have hsame : l1Rwx (m table) = m table := l1Rwx_other (by simp [hcoarse]) (by simp [hcoarse])
    simp only [hcoarse, l2RwxForAll, rewriteAll_apply l2EntryRwx_l2EntryRwx]
    by_cases ha : a = table
    · -- the entry is not one of the table that it points to
      subst ha
      rw [if_neg fun hmem => h ⟨hcoarse, hmem⟩, if_pos rfl, hsame]
    · simp [ha, InL2Table, hcoarse]
  · have hno : ¬InL2Table (m table) a := fun hin => hcoarse hin.1
    rw [if_neg hno]
    unfold l1Rwx
    by_cases ha : a = table
    · subst ha
      cases htype : l1GetType (m a) <;> simp_all
    · cases htype : l1GetType (m table) <;> simp_all

/-- The loop over a part of a table whose words no second-level table has. -/
theorem foldl_l1EntryRwx {L l : List (BitVec 32)} (hnodup : l.Nodup) (hsub : l ⊆ L)
    (hapart : ∀ t ∈ l, ∀ b ∈ L, ¬InL2Table (m t) b) : l.foldl l1EntryRwx m a =
      if a ∈ l then l1Rwx (m a) else if ∃ t ∈ l, InL2Table (m t) a then l2EntryRwx (m a) else m a := by
  induction l generalizing m with
  | nil => simp
  | cons t l ih =>
    obtain ⟨htl, hnodup⟩ := List.nodup_cons.mp hnodup
    have ht : t ∈ L := hsub (by simp)
    have hsub' : l ⊆ L := fun b hb => hsub (by simp [hb])
    have happly (b : BitVec 32) := l1EntryRwx_apply (a := b) (hapart t (by simp) t ht)
    -- the entries that are still to come are as they were
    have hsame : ∀ b ∈ l, l1EntryRwx m t b = m b := by
      intro b hb
      rw [happly, if_neg (by rintro rfl; exact htl hb), if_neg (hapart t (by simp) b (hsub' hb))]
    have hiff (b : BitVec 32) : (∃ t' ∈ l, InL2Table (l1EntryRwx m t t') b) ↔ ∃ t' ∈ l, InL2Table (m t') b := by
      constructor
      · rintro ⟨t', ht', hin⟩
        exact ⟨t', ht', by rwa [hsame t' ht'] at hin⟩
      · rintro ⟨t', ht', hin⟩
        exact ⟨t', ht', by rwa [hsame t' ht']⟩
    rw [List.foldl_cons, ih hnodup hsub' fun t' ht' b hb => by rw [hsame t' ht']; exact hapart t' (by simp [ht']) b hb]
    simp only [hiff]
    by_cases hal : a ∈ l
    · rw [if_pos hal, if_pos (by simp [hal]), hsame a hal]
    rw [if_neg hal]
    by_cases hat : a = t
    · -- no entry that is still to come rewrites this one
      subst hat
      have hno : ¬∃ t' ∈ l, InL2Table (m t') a := by
        rintro ⟨t', ht', hin⟩
        exact hapart t' (by simp [ht']) a ht hin
      rw [if_neg hno, if_pos (by simp), happly, if_pos rfl]
    · have hmem : a ∉ t :: l := by simp [hat, hal]
      rw [if_neg hmem, happly, if_neg hat]
      -- a word of two tables is rewritten twice
      by_cases htable : InL2Table (m t) a
      · simp [htable, l2EntryRwx_l2EntryRwx]
      · simp [htable]

end Loop

/-! ## Page tables -/

namespace PageTables

variable (p : PageTables) (va : BitVec 32)

/-- The words of the second-level tables. -/
def InL2Tables (a : BitVec 32) : Prop := ∃ t ∈ entries p.table 1024, InL2Table (p.memory t) a

instance (a : BitVec 32) : Decidable (p.InL2Tables a) := inferInstanceAs (Decidable (∃ t ∈ _, _))

theorem l1RwxForAll_apply (a : BitVec 32) : l1RwxForAll p.table p.memory a =
    if a ∈ entries p.table 1024 then l1Rwx (p.memory a)
    else if p.InL2Tables a then l2EntryRwx (p.memory a) else p.memory a :=
  foldl_l1EntryRwx (nodup_entries (by decide)) (fun _ h => h) fun t ht b hb hin => p.apart t ht hin.1 b hin.2 hb

theorem l1RwxForAll_entry {t : BitVec 32} (ht : t ∈ entries p.table 1024) :
    l1RwxForAll p.table p.memory t = l1Rwx (p.memory t) := by
  rw [l1RwxForAll_apply, if_pos ht]

/-- `L1MMUTable__RWXForAll` leaves the second-level tables where they are. -/
def rwxForAll : PageTables where
  table := p.table
  memory := l1RwxForAll p.table p.memory
  apart := by
    intro t ht hcoarse
    rw [p.l1RwxForAll_entry ht] at hcoarse ⊢
    rw [l1GetType_l1Rwx] at hcoarse
    rw [l1Rwx_coarse hcoarse]
    exact p.apart t ht hcoarse

/-- `L1MMUTable__GetPAFromVA`. -/
def getPAFromVA : BitVec 32 := l1GetPAFromVA p.table va p.memory

/-- `L1MMUTable__GetAddressUserPerm`. -/
def getAddressUserPerm : BitVec 32 := l1GetAddressUserPerm p.table va p.memory

variable {p va}

theorem l1Descriptor_mem (hva : va < 0x40000000) : p.table + (va >>> 20) * 4 ∈ entries p.table 1024 := by
  refine index_mem_entries ?_
  have hlt : va.toNat < 0x40000000 := hva
  rw [BitVec.toNat_ushiftRight, Nat.shiftRight_eq_div_pow]
  omega

theorem l2Descriptor_mem (table va : BitVec 32) : table + ((va <<< 12) >>> 24) * 4 ∈ entries table 256 := by
  refine index_mem_entries ?_
  rw [BitVec.toNat_ushiftRight, Nat.shiftRight_eq_div_pow]
  exact Nat.div_lt_of_lt_mul (va <<< 12).isLt

theorem rwxForAll_memory : p.rwxForAll.memory = l1RwxForAll p.table p.memory := by
  rw [rwxForAll]

theorem rwxForAll_table : p.rwxForAll.table = p.table := by
  rw [rwxForAll]

/-- What the walkers find in the first-level table. -/
theorem l1Descriptor_rwxForAll (hva : va < 0x40000000) :
    l1Descriptor p.table va p.rwxForAll.memory = l1Rwx (l1Descriptor p.table va p.memory) := by
  rw [rwxForAll_memory]
  unfold l1Descriptor
  exact p.l1RwxForAll_entry (l1Descriptor_mem hva)

/-- What they find in a second-level table. -/
theorem l2Descriptor_rwxForAll (hva : va < 0x40000000) (hcoarse : l1GetType (l1Descriptor p.table va p.memory) = .coarsePageTable) :
    l2Descriptor (l2Table (l1Descriptor p.table va p.memory)) va p.rwxForAll.memory =
      l2EntryRwx (l2Descriptor (l2Table (l1Descriptor p.table va p.memory)) va p.memory) := by
  have ht := l1Descriptor_mem (p := p) hva
  have hmem := l2Descriptor_mem (l2Table (l1Descriptor p.table va p.memory)) va
  have hout := p.apart _ ht hcoarse _ hmem
  have hin : p.InL2Tables (l2Table (l1Descriptor p.table va p.memory) + ((va <<< 12) >>> 24) * 4) := ⟨_, ht, hcoarse, hmem⟩
  rw [rwxForAll_memory]
  unfold l2Descriptor
  rw [l1RwxForAll_apply, if_neg hout, if_pos hin]

theorem getPAFromVA_rwxForAll (hva : va < 0x40000000) : p.rwxForAll.getPAFromVA va = p.getPAFromVA va := by
  unfold getPAFromVA
  rw [rwxForAll_table]
  exact l1GetPAFromVA_of_rwx (l1Descriptor_rwxForAll hva) (l2Descriptor_rwxForAll hva)

theorem getAddressUserPerm_rwxForAll (hva : va < 0x40000000) :
    p.rwxForAll.getAddressUserPerm va = if Mapped p.table va p.memory then 7 else 0 := by
  unfold getAddressUserPerm
  rw [rwxForAll_table]
  exact l1GetAddressUserPerm_of_rwx (l1Descriptor_rwxForAll hva) (l2Descriptor_rwxForAll hva)

/-- The second-level tables stay the same. -/
theorem inL2Tables_rwxForAll {a : BitVec 32} : p.rwxForAll.InL2Tables a ↔ p.InL2Tables a := by
  unfold InL2Tables
  rw [rwxForAll_table, rwxForAll_memory]
  constructor
  · rintro ⟨t, ht, hin⟩
    rw [p.l1RwxForAll_entry ht, inL2Table_l1Rwx] at hin
    exact ⟨t, ht, hin⟩
  · rintro ⟨t, ht, hin⟩
    refine ⟨t, ht, ?_⟩
    rwa [p.l1RwxForAll_entry ht, inL2Table_l1Rwx]

/-- The same descriptors are rewritten a second time, and to what they are. -/
theorem rwxForAll_rwxForAll_memory : p.rwxForAll.rwxForAll.memory = p.rwxForAll.memory := by
  funext a
  rw [rwxForAll_memory, l1RwxForAll_apply, rwxForAll_table, rwxForAll_memory, l1RwxForAll_apply]
  by_cases ha : a ∈ entries p.table 1024
  · rw [if_pos ha, if_pos ha, l1Rwx_l1Rwx]
  rw [if_neg ha, if_neg ha]
  by_cases hin : p.InL2Tables a
  · rw [if_pos (inL2Tables_rwxForAll.mpr hin), if_pos hin, l2EntryRwx_l2EntryRwx]
  · rw [if_neg fun h => hin (inL2Tables_rwxForAll.mp h), if_neg hin]

theorem rwxForAll_rwxForAll : p.rwxForAll.rwxForAll = p.rwxForAll :=
  PageTables.ext rwxForAll_table rwxForAll_rwxForAll_memory

/-- What is not mapped has no permissions. -/
theorem getAddressUserPerm_unmapped (h : ¬Mapped p.table va p.memory) : p.getAddressUserPerm va = 0 := by
  unfold getAddressUserPerm l1GetAddressUserPerm
  unfold Mapped at h
  rcases l1GetType_cases (l1Descriptor p.table va p.memory) with htype | htype | htype | htype | htype
  · simp [htype]
  · have hfault : l2GetType (l2Descriptor (l2Table (l1Descriptor p.table va p.memory)) va p.memory) = .translationFault := by
      simpa [htype] using h
    simp [htype, l2GetAddressUserPerm, hfault]
  · simp [htype] at h
  · simp [htype] at h
  · simp [htype]

/-- The addresses stay, and all that is mapped, but nothing else, is read, written and executed. -/
theorem rwxForAll_walkers (p : PageTables) :
    (∀ va < 0x40000000, p.rwxForAll.getPAFromVA va = p.getPAFromVA va ∧
      (Mapped p.table va p.memory → p.rwxForAll.getAddressUserPerm va = 7) ∧
      (¬Mapped p.table va p.memory → p.getAddressUserPerm va = 0 ∧ p.rwxForAll.getAddressUserPerm va = 0)) ∧
    p.rwxForAll.rwxForAll = p.rwxForAll := by
  refine ⟨fun va hva => ⟨getPAFromVA_rwxForAll hva, fun hmapped => ?_, fun hunmapped => ⟨?_, ?_⟩⟩, rwxForAll_rwxForAll⟩
  · rw [getAddressUserPerm_rwxForAll hva, if_pos hmapped]
  · exact getAddressUserPerm_unmapped hunmapped
  · rw [getAddressUserPerm_rwxForAll hva, if_neg hunmapped]

/-- Two megabytes in one second-level table, of which every page is a small one, read-only and not to be executed. -/
def sharedTable : PageTables where
  table := 0xFFF00000
  memory a := if a = 0xFFF00000 ∨ a = 0xFFF00004 then 0x30000001 else if 0xFFF00000 ≤ a then 0 else 0x20000233
  apart := by
    intro t ht hcoarse a ha hin
    have htable : l2Table (if t = 0xFFF00000 ∨ t = 0xFFF00004 then 0x30000001 else if 0xFFF00000 ≤ t then 0 else 0x20000233) =
        0xF0000000 := by
      split_ifs at hcoarse ⊢
      · rfl
      · exact absurd hcoarse (by decide)
      · exact absurd hcoarse (by decide)
    rw [htable] at ha
    obtain ⟨i, hi, rfl⟩ := mem_entries.mp ha
    obtain ⟨j, hj, heq⟩ := mem_entries.mp hin
    have hnat := congrArg BitVec.toNat heq
    simp only [BitVec.ofNat_eq_ofNat, BitVec.toNat_add, BitVec.toNat_ofNat] at hnat
    omega

theorem sharedTable_rwx : sharedTable.rwxForAll.getAddressUserPerm 0x101000 = 7 ∧ sharedTable.getAddressUserPerm 0x101000 = 1 ∧
    sharedTable.rwxForAll.getAddressUserPerm 0x200000 = 0 := by
  have hwalkers := (rwxForAll_walkers sharedTable).1
  refine ⟨(hwalkers 0x101000 (by decide)).2.1 (by decide), by decide, ((hwalkers 0x200000 (by decide)).2.2 (by decide)).2⟩

end PageTables

end Omiiba.K11
