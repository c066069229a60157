/-
How the modules of section 0 of a FIRM are put together, after firm.c: Nintendo's modules, our own ones, and those of files.
-/
import Omiiba.Lib.System

namespace Omiiba.Arm9

/-! ## Modules -/

/-- `appTitle`, and the name of a file of an ExeFS. -/
abbrev Name8 := Vector UInt8 8

/-- The C string at the start of a name, as `%.8s` prints it. -/
def nameString (name : Name8) : List UInt8 := name.toList.takeWhile (· ≠ 0)

/-- What is read of the ExeFS of a module: the first file, and the size of the second one. -/
structure ExeFs where
  name : Name8
  offset : UInt32
  size : UInt32
  nextSize : UInt32

/-- What is read of a module: its NCCH and extended headers, with the sizes of its three segments, and its ExeFS. -/
structure CxiView where
  magic : UInt32
  contentSize : UInt32
  flag6 : UInt8
  exeFsOffset : UInt32
  appTitle : Name8
  flag : UInt8
  textSize : UInt32
  roSize : UInt32
  dataSize : UInt32
  exeFs : ExeFs

/-- `"NCCH"`. -/
def ncchMagic : UInt32 := 0x4843434E

/-- `".code\0\0\0"`. -/
def codeName : Name8 := #v[0x2E, 0x63, 0x6F, 0x64, 0x65, 0, 0, 0]

/-- `"TwlBg"`. -/
def twlBg : List UInt8 := [0x54, 0x77, 0x6C, 0x42, 0x67]

/-- `sizeof(Cxi)`. -/
def cxiHeadersSize : UInt32 := 0xA00

/-- The calls of `error`, and what is not defined: an entry behind the table, and a loop that does not end. -/
inductive MergeError
  | tooLarge
  | invalidLayout
  | invalidFile
  | outOfTable
  | endless
  deriving DecidableEq

/-! ### `copyKip` -/

structure CopyKipResult where
  cxiSize : UInt32
  codeOffset : UInt32
  codeSize : UInt32

namespace CxiView

variable (c : CxiView)

def mediaUnitShift : UInt32 := 9 + c.flag6.toUInt32

def totalSizeCompressed : UInt32 := c.contentSize <<< c.mediaUnitShift

def hasLayout : Bool := c.exeFs.name = codeName && c.exeFs.offset = 0 && c.exeFs.nextSize = 0

/-- `codeAddr`, behind the start of the module. -/
def codeOffset : UInt32 := (c.exeFsOffset <<< c.mediaUnitShift) + 0x200 + c.exeFs.offset

def codeSize : UInt32 := c.textSize + c.roSize + c.dataSize

def codeSizePadded : UInt32 :=
  ((c.codeSize + (1 <<< c.mediaUnitShift) - 1) >>> c.mediaUnitShift) <<< c.mediaUnitShift

def newTotalSize : UInt32 := c.codeOffset + c.codeSizePadded

/-- The module is decompressed while it is copied. -/
def decompressed (decompress : Bool) : Bool := decompress && c.flag &&& 1 ≠ 0

end CxiView

/-- `copyKip`, by the sizes. -/
def copyKip (c : CxiView) (maxSize : UInt32) (decompress : Bool) : Except MergeError CopyKipResult :=
  if c.totalSizeCompressed > maxSize then .error .tooLarge
  else if !c.hasLayout then .error .invalidLayout
  else if !c.decompressed decompress then .ok ⟨c.totalSizeCompressed, c.codeOffset, c.exeFs.size⟩
  else if c.newTotalSize > maxSize then .error .tooLarge
  else .ok ⟨c.newTotalSize, c.codeOffset, c.codeSize⟩

/-! ## `mergeSection0` -/

/-- An entry of `moduleList`. -/
structure ModuleInfo where
  name : Name8
  src : UInt32
  size : UInt32
  deriving DecidableEq

/-- The length of `moduleList`. -/
def maxModules : Nat := 6

/-- The address of our own modules. -/
def ownModules : UInt32 := 0x18180000

inductive FirmwareType
  | nativeFirm
  | twlFirm
  | agbFirm
  | safeFirm
  | sysUpdater
  | nativeFirm1x2x
  deriving DecidableEq

/-- A file of the card: its size, the bytes that can be read of it, and its headers. -/
structure ModuleFile where
  size : UInt32
  read : UInt32
  cxi : CxiView

/-- What `mergeSection0` is called with, the offset and size of section 0, memory as modules, the files, and what
`moduleList` holds before. -/
structure MergeCall where
  firmType : FirmwareType
  firmVersion : UInt32
  loadFromStorage : Bool
  isN3ds : Bool
  section0 : UInt32
  section0Size : UInt32
  cxi : UInt32 → CxiView
  files : List UInt8 → Option ModuleFile
  moduleList : Nat → ModuleInfo

/-- Where a module comes from. -/
inductive ModuleSource
  | file (name : List UInt8)
  | memory (src : UInt32) (decompressed : Bool)
  deriving DecidableEq

/-- A module that has been put into section 0, behind its start. -/
structure PlacedModule where
  offset : Nat
  size : UInt32
  source : ModuleSource
  deriving DecidableEq

namespace MergeCall

variable (call : MergeCall)

/-- The module at an address. -/
def moduleAt (src : UInt32) : ModuleInfo := ⟨(call.cxi src).appTitle, src, (call.cxi src).contentSize * 0x200⟩

/-- The loop over Nintendo's modules, with `nbModules`; the fuel bounds its rounds. -/
def parseStock (srcEnd : UInt32) : Nat → UInt32 → Nat → (Nat → ModuleInfo) → Except MergeError (Nat × (Nat → ModuleInfo))
  | 0, _, _, _ => .error .endless
  | fuel + 1, src, nbModules, moduleList =>
    if src < srcEnd then
      if nbModules < maxModules then
        parseStock srcEnd fuel (src + (call.moduleAt src).size) (nbModules + 1)
          (Function.update moduleList nbModules (call.moduleAt src))
      else .error .outOfTable
    else .ok (nbModules, moduleList)

/-- The search among the first five entries. -/
def findModule (moduleList : Nat → ModuleInfo) (name : Name8) : Nat :=
  ((List.range 5).find? fun i => (moduleList i).name = name).getD 5

/-- The loop over our own modules. -/
def mergeOwn : Nat → UInt32 → Nat → (Nat → ModuleInfo) → Except MergeError (Nat × (Nat → ModuleInfo))
  | 0, _, _, _ => .error .endless
  | fuel + 1, src, nbModules, moduleList =>
    if (call.cxi src).magic = ncchMagic then
      let own := call.moduleAt src
      let i := findModule moduleList own.name
      let name := if i = 5 then own.name else (moduleList i).name
      mergeOwn fuel (src + own.size) (if i = 5 then nbModules + 1 else nbModules)
        (Function.update moduleList i ⟨name, src, own.size⟩)
    else .ok (nbModules, moduleList)

/-- Our own modules are merged. -/
def merges : Bool :=
  (call.firmType = .nativeFirm || call.firmType = .safeFirm) && (call.isN3ds || call.firmVersion ≥ 0x25)

def isLgyFirm : Bool := call.firmType = .twlFirm || call.firmType = .agbFirm

def maxModuleSize : UInt32 := if !call.isLgyFirm then 0x80000 else 0x600000

/-- The file that a module is read from, if there is one. -/
def moduleFile (m : ModuleInfo) : Option ModuleFile :=
  if call.loadFromStorage then (call.files (nameString m.name)).filter fun file => file.size ≠ 0 else none

/-- The checks on a file, once it is small enough. -/
def validFile (m : ModuleInfo) (file : ModuleFile) : Bool :=
  file.size > cxiHeadersSize + 0x200 && file.read = file.size && file.cxi.magic = ncchMagic && m.name = file.cxi.appTitle

def isStockTwlBg (m : ModuleInfo) : Bool := call.firmType = .twlFirm && nameString m.name = twlBg

/-- One round of the last loop: the size of what is read or copied, and where it comes from. -/
def placeModule (m : ModuleInfo) (maxSize : UInt32) : Except MergeError (UInt32 × ModuleSource) :=
  match call.moduleFile m with
  | some file =>
    if file.size > maxSize then .error .tooLarge
    else if !validFile m file then .error .invalidFile
    else .ok (file.size, .file (nameString m.name))
  | none =>
    match copyKip (call.cxi m.src) maxSize (call.isStockTwlBg m) with
    | .error e => .error e
    | .ok res => .ok (res.cxiSize, .memory m.src ((call.cxi m.src).decompressed (call.isStockTwlBg m)))

/-- The last loop, over the indices that are left. -/
def placeModules (moduleList : Nat → ModuleInfo) : List Nat → Nat → UInt32 → Except MergeError (List PlacedModule)
  | [], _, _ => .ok []
  | i :: is, offset, maxSize =>
    if i < maxModules then
      match call.placeModule (moduleList i) maxSize with
      | .error e => .error e
      | .ok (size, source) =>
        (placeModules moduleList is (offset + size.toNat) (maxSize - size)).map fun placed => ⟨offset, size, source⟩ :: placed
    else .error .outOfTable

/-- `mergeSection0`, up to the patches of the kernel. -/
def mergeSection0 (fuel : Nat) : Except MergeError (List PlacedModule) :=
  match call.parseStock (call.section0 + call.section0Size) fuel call.section0 0 call.moduleList with
  | .error e => .error e
  | .ok (nbModules, moduleList) =>
    match if call.merges then call.mergeOwn fuel ownModules nbModules moduleList else .ok (nbModules, moduleList) with
    | .error e => .error e
    | .ok (nbModules, moduleList) => call.placeModules moduleList (List.range nbModules) 0 call.maxModuleSize

end MergeCall

/-! ## What it is to yield -/

/-- Modules follow one another from an address to an end; none is empty, and they do not wrap around. -/
inductive Laid (call : MergeCall) : UInt32 → List ModuleInfo → UInt32 → Prop
  | nil (a : UInt32) : Laid call a [] a
  | cons {a stop : UInt32} {ms : List ModuleInfo} : (call.cxi a).magic = ncchMagic → a < a + (call.moduleAt a).size →
      Laid call (a + (call.moduleAt a).size) ms stop → Laid call a (call.moduleAt a :: ms) stop

/-- A module has the name of none of a list. -/
def IsNew (stock : List ModuleInfo) (m : ModuleInfo) : Prop := ∀ s ∈ stock, s.name ≠ m.name

instance (stock : List ModuleInfo) (m : ModuleInfo) : Decidable (IsNew stock m) :=
  inferInstanceAs (Decidable (∀ s ∈ stock, s.name ≠ m.name))

/-- A module, or the one of the same name among others. -/
def replacement (own : List ModuleInfo) (m : ModuleInfo) : ModuleInfo := (own.find? fun o => o.name = m.name).getD m

/-- Modules of the same name are replaced, and the others are appended. -/
def mergedModules (stock own : List ModuleInfo) : List ModuleInfo :=
  stock.map (replacement own) ++ own.filter fun o => IsNew stock o

namespace MergeCall

variable (call : MergeCall)

/-- The list that section 0 is to hold. -/
def expected (stock own : List ModuleInfo) : List ModuleInfo := if call.merges then mergedModules stock own else stock

def source (m : ModuleInfo) : ModuleSource :=
  match call.moduleFile m with
  | some _ => .file (nameString m.name)
  | none => .memory m.src ((call.cxi m.src).decompressed (call.isStockTwlBg m))

def placedSize (m : ModuleInfo) : UInt32 :=
  match call.moduleFile m with
  | some file => file.size
  | none =>
    if (call.cxi m.src).decompressed (call.isStockTwlBg m) then (call.cxi m.src).newTotalSize
    else (call.cxi m.src).totalSizeCompressed

/-- The room that a module takes; one that is decompressed is first copied as it is. -/
def room (m : ModuleInfo) : Nat :=
  match call.moduleFile m with
  | some file => file.size.toNat
  | none => max (call.cxi m.src).totalSizeCompressed.toNat (call.placedSize m).toNat

/-- The file of a module is that of a module of its name; or the module itself has the layout that is looked for. -/
def Placeable (m : ModuleInfo) : Prop :=
  match call.moduleFile m with
  | some file => validFile m file = true
  | none => (call.cxi m.src).hasLayout = true

/-- Modules can be placed, and there is room for them. -/
def Fits : List ModuleInfo → Nat → Prop
  | [], _ => True
  | m :: ms, free => call.Placeable m ∧ call.room m ≤ free ∧ Fits ms (free - (call.placedSize m).toNat)

/-- Modules one behind the other. -/
def layout : Nat → List ModuleInfo → List PlacedModule
  | _, [] => []
  | offset, m :: ms => ⟨offset, call.placedSize m, call.source m⟩ :: layout (offset + (call.placedSize m).toNat) ms

/-- The size of modules one behind the other. -/
def totalSize (ms : List ModuleInfo) : Nat := (ms.map fun m => (call.placedSize m).toNat).sum

end MergeCall

/-- The table has room for Nintendo's modules; and of our own, each has the name of one of the first five of those, or is the
only new one besides five. -/
structure FitsTable (call : MergeCall) (stock own : List ModuleInfo) : Prop where
  capacity : stock.length ≤ maxModules
  known : call.merges = true → ∀ o ∈ own, ¬ IsNew stock o →
    ∃ i < 5, ∀ j (_ : j < stock.length), stock[j].name = o.name ↔ j = i
  new : call.merges = true → (own.filter fun o => IsNew stock o).length = 0 ∨
    stock.length = 5 ∧ (own.filter fun o => IsNew stock o).length = 1

/-- The modules are placed, unless they do not fit, and there is nothing that is not defined. -/
structure Merged (call : MergeCall) (stock own : List ModuleInfo) (result : Except MergeError (List PlacedModule)) : Prop where
  placed : ∀ placed, result = .ok placed ↔
    call.Fits (call.expected stock own) call.maxModuleSize.toNat ∧ placed = call.layout 0 (call.expected stock own)
  stops : ∀ e, result = .error e → e = .tooLarge ∨ e = .invalidLayout ∨ e = .invalidFile
  count : (call.expected stock own).length ≤ maxModules
  bytes : call.Fits (call.expected stock own) call.maxModuleSize.toNat →
    call.totalSize (call.expected stock own) ≤ call.maxModuleSize.toNat

/-! ## Nintendo's modules -/

section

variable {call : MergeCall}

theorem Laid.le {a stop : UInt32} {ms : List ModuleInfo} (h : Laid call a ms stop) : a ≤ stop := by
  induction h with
  | nil a => exact UInt32.le_refl a
  | cons _ hlt _ ih => exact UInt32.le_trans (UInt32.le_of_lt hlt) ih

/-- The loop lists modules that follow one another. -/
theorem Laid.parseStock {a stop : UInt32} {ms : List ModuleInfo} (h : Laid call a ms stop) :
    ∀ {fuel : Nat} (nbModules : Nat) (moduleList : Nat → ModuleInfo), ms.length < fuel → nbModules + ms.length ≤ maxModules →
      ∃ moduleList', call.parseStock stop fuel a nbModules moduleList = .ok (nbModules + ms.length, moduleList') ∧
        (∀ j < nbModules, moduleList' j = moduleList j) ∧ ∀ i m, ms[i]? = some m → moduleList' (nbModules + i) = m := by
  induction h with
  | nil a =>
    intro fuel nbModules moduleList hfuel _
    obtain ⟨fuel, rfl⟩ := Nat.exists_eq_succ_of_ne_zero (Nat.ne_of_gt hfuel)
    refine ⟨moduleList, ?_, fun _ _ => rfl, nofun⟩
    unfold MergeCall.parseStock
    rw [if_neg (UInt32.lt_irrefl a)]
    rfl
  | @cons a stop ms _ hlt hrest ih =>
    intro fuel nbModules moduleList hfuel hroom
    rw [List.length_cons] at hfuel hroom
    obtain ⟨fuel, rfl⟩ := Nat.exists_eq_succ_of_ne_zero (Nat.ne_of_gt (Nat.zero_lt_of_lt hfuel))
    obtain ⟨moduleList', hloop, hbefore, hlisted⟩ :=
      ih (nbModules + 1) (Function.update moduleList nbModules (call.moduleAt a))
        (Nat.lt_of_succ_lt_succ hfuel) (by omega)
    refine ⟨moduleList', ?_, fun j hj => ?_, fun i m hm => ?_⟩
    · unfold MergeCall.parseStock
      rw [if_pos (UInt32.lt_of_lt_of_le hlt hrest.le), if_pos (by omega), hloop, List.length_cons]
      congr 2
      omega
    · rw [hbefore j (by omega), Function.update_of_ne (by omega)]
    · rcases i with - | i
      · rw [Nat.add_zero, hbefore nbModules (Nat.lt_succ_self _), Function.update_self]
        exact Option.some.inj hm
      · have hnext := hlisted i m hm
        rwa [show nbModules + (i + 1) = nbModules + 1 + i by omega]

/-! ## Our own modules -/

variable {stock done rest own : List ModuleInfo} {nbModules : Nat} {moduleList : Nat → ModuleInfo} {o m : ModuleInfo}

/-- The table after some of our own modules have been merged. -/
structure Merging (stock done : List ModuleInfo) (nbModules : Nat) (moduleList : Nat → ModuleInfo) : Prop where
  count : nbModules = stock.length + (done.filter fun o => IsNew stock o).length
  replaced : ∀ i m, stock[i]? = some m → moduleList i = replacement done m
  appended : ∀ o ∈ done, IsNew stock o → moduleList 5 = o

theorem replacement_name (own : List ModuleInfo) (m : ModuleInfo) : (replacement own m).name = m.name := by
  unfold replacement
  cases hfind : own.find? (fun o => o.name = m.name) with
  | none => rfl
  | some o =>
    have hname := List.find?_some hfind
    exact of_decide_eq_true hname

/-- A module more replaces those of its name that have not been replaced. -/
theorem replacement_append_of_eq (hnew : ∀ d ∈ done, d.name ≠ o.name) (hname : m.name = o.name) :
    replacement (done ++ [o]) m = o := by
  have hnone : done.find? (fun d => d.name = m.name) = none := by
    apply List.find?_eq_none.mpr
    intro d hd
    rw [hname]
    simpa using hnew d hd
  unfold replacement
  rw [List.find?_append, hnone, Option.none_or, List.find?_singleton, if_pos (by simp [hname])]
  rfl

theorem replacement_append_of_ne (hname : m.name ≠ o.name) : replacement (done ++ [o]) m = replacement done m := by
  unfold replacement
  rw [List.find?_append, List.find?_singleton, if_neg (by simpa using Ne.symm hname), Option.or_none]

/-- A name that is not new is found where it is. -/
theorem Merging.findModule_known (h : Merging stock done nbModules moduleList) (hknown : ¬ IsNew stock o) {i : Nat} (hi : i < 5)
    (honly : ∀ j (_ : j < stock.length), stock[j].name = o.name ↔ j = i) :
    MergeCall.findModule moduleList o.name = i ∧ i < stock.length ∧ (moduleList i).name = o.name := by
  have hat : ∃ m, stock[i]? = some m ∧ m.name = o.name := by
    unfold IsNew at hknown
    push Not at hknown
    obtain ⟨m, hm, hname⟩ := hknown
    obtain ⟨j, hj, rfl⟩ := List.mem_iff_getElem.mp hm
    have hget : stock[j]? = some stock[j] := List.getElem?_eq_getElem hj
    obtain rfl := (honly j hj).mp hname
    exact ⟨_, hget, hname⟩
  obtain ⟨m, hm, hname⟩ := hat
  have hlt : i < stock.length := (List.getElem?_eq_some_iff.mp hm).1
  have hentry : (moduleList i).name = o.name := by
    rw [h.replaced i m hm, replacement_name]
    exact hname
  refine ⟨?_, hlt, hentry⟩
  have hfind : (List.range 5).find? (fun j => (moduleList j).name = o.name) = some i := by
    rw [List.find?_range_eq_some]
    refine ⟨decide_eq_true hentry, List.mem_range.mpr hi, fun j hj => ?_⟩
    have hget : stock[j]? = some stock[j] := List.getElem?_eq_getElem (hj.trans hlt)
    rw [h.replaced j _ hget, replacement_name, Bool.not_eq_true', decide_eq_false_iff_not]
    intro heq
    exact absurd ((honly j (hj.trans hlt)).mp heq) hj.ne
  unfold MergeCall.findModule
  rw [hfind]
  rfl

/-- A new name is not found among five modules. -/
theorem Merging.findModule_new (h : Merging stock done nbModules moduleList) (hnew : IsNew stock o) (hfive : stock.length = 5) :
    MergeCall.findModule moduleList o.name = 5 := by
  have hfind : (List.range 5).find? (fun j => (moduleList j).name = o.name) = none := by
    apply List.find?_eq_none.mpr
    intro j hj
    have hlt : j < stock.length := hfive ▸ List.mem_range.mp hj
    have hget : stock[j]? = some stock[j] := List.getElem?_eq_getElem hlt
    rw [h.replaced j _ hget, replacement_name]
    simpa using hnew _ (List.getElem_mem hlt)
  unfold MergeCall.findModule
  rw [hfind]
  rfl

/-- One module of a known name replaces the entry of that name. -/
theorem Merging.replace (h : Merging stock done nbModules moduleList) (hfirst : ∀ d ∈ done, d.name ≠ o.name)
    (hknown : ¬ IsNew stock o) {i : Nat} (hi : i < 5) (honly : ∀ j (_ : j < stock.length), stock[j].name = o.name ↔ j = i) :
    Merging stock (done ++ [o]) nbModules (Function.update moduleList i o) := by
  have hdrop : [o].filter (fun o => IsNew stock o) = [] := List.filter_cons_of_neg (by simpa using hknown)
  refine ⟨?_, fun j m hm => ?_, fun d hd hnew => ?_⟩
  · rw [List.filter_append, hdrop, List.append_nil]
    exact h.count
  · obtain ⟨hj, rfl⟩ := List.getElem?_eq_some_iff.mp hm
    rcases eq_or_ne j i with rfl | hne
    · rw [Function.update_self, replacement_append_of_eq hfirst ((honly j hj).mpr rfl)]
    · rw [Function.update_of_ne hne, replacement_append_of_ne fun hname => hne ((honly j hj).mp hname)]
      exact h.replaced j _ hm
  · rw [Function.update_of_ne (by omega)]
    rcases List.mem_append.mp hd with hold | hlast
    · exact h.appended d hold hnew
    · rw [List.mem_singleton.mp hlast] at hnew
      exact absurd hnew hknown

/-- The only new module is put behind five. -/
theorem Merging.append (h : Merging stock done nbModules moduleList) (hnew : IsNew stock o) (hfive : stock.length = 5)
    (honly : done.filter (fun o => IsNew stock o) = []) :
    Merging stock (done ++ [o]) (nbModules + 1) (Function.update moduleList 5 o) := by
  have hkeep : [o].filter (fun o => IsNew stock o) = [o] := List.filter_cons_of_pos (by simpa using hnew)
  refine ⟨?_, fun j m hm => ?_, fun d hd hdnew => ?_⟩
  · rw [List.filter_append, hkeep, List.length_append, List.length_singleton, ← Nat.add_assoc, h.count]
  · have hlt : j < stock.length := (List.getElem?_eq_some_iff.mp hm).1
    have hname : m.name ≠ o.name := hnew m (List.mem_of_getElem? hm)
    rw [Function.update_of_ne (by omega), replacement_append_of_ne hname]
    exact h.replaced j m hm
  · rcases List.mem_append.mp hd with hold | hlast
    · have hmem : d ∈ done.filter fun o => IsNew stock o := List.mem_filter.mpr ⟨hold, decide_eq_true hdnew⟩
      rw [honly] at hmem
      exact absurd hmem List.not_mem_nil
    · rw [List.mem_singleton.mp hlast, Function.update_self]

/-- The loop merges our own modules. -/
theorem Merging.mergeOwn {a stop : UInt32} (hrest : Laid call a rest stop) (hstop : (call.cxi stop).magic ≠ ncchMagic)
    (hfits : FitsTable call stock own) (hmerges : call.merges = true) (hnames : (own.map ModuleInfo.name).Nodup) :
    ∀ {fuel : Nat} {done : List ModuleInfo} {nbModules : Nat} {moduleList : Nat → ModuleInfo}, rest.length < fuel →
      own = done ++ rest → Merging stock done nbModules moduleList →
        ∃ nbModules' moduleList', call.mergeOwn fuel a nbModules moduleList = .ok (nbModules', moduleList') ∧
          Merging stock own nbModules' moduleList' := by
  induction hrest with
  | nil a =>
    intro fuel done nbModules moduleList hfuel hown h
    obtain ⟨fuel, rfl⟩ := Nat.exists_eq_succ_of_ne_zero (Nat.ne_of_gt hfuel)
    refine ⟨nbModules, moduleList, ?_, ?_⟩
    · unfold MergeCall.mergeOwn
      rw [if_neg hstop]
    · rw [hown, List.append_nil]
      exact h
  | @cons a stop ms hmagic _ _ ih =>
    intro fuel done nbModules moduleList hfuel hown h
    rw [List.length_cons] at hfuel
    obtain ⟨fuel, rfl⟩ := Nat.exists_eq_succ_of_ne_zero (Nat.ne_of_gt (Nat.zero_lt_of_lt hfuel))
    have hnext : own = (done ++ [call.moduleAt a]) ++ ms := by rw [hown, List.append_assoc, List.singleton_append]
    have hmem : call.moduleAt a ∈ own := by
      rw [hown]
      exact List.mem_append_right _ List.mem_cons_self
    have hfirst : ∀ d ∈ done, d.name ≠ (call.moduleAt a).name := by
      rw [hown, List.map_append] at hnames
      intro d hd
      exact (List.nodup_append.mp hnames).2.2 _ (List.mem_map_of_mem hd) _ (List.mem_map_of_mem List.mem_cons_self)
    unfold MergeCall.mergeOwn
    rw [if_pos hmagic]
    dsimp only
    by_cases hnew : IsNew stock (call.moduleAt a)
    · -- the only new module: none has been merged before
      have hwhole := hfits.new hmerges
      rw [hown, List.filter_append, List.filter_cons_of_pos (by simpa using hnew)] at hwhole
      rw [List.length_append, List.length_cons] at hwhole
      rcases hwhole with hnone | ⟨hfive, hone⟩
      · omega
      have honly : done.filter (fun o => IsNew stock o) = [] := List.length_eq_zero_iff.mp (by omega)
      rw [h.findModule_new hnew hfive]
      simp only [if_true]
      exact ih hstop (Nat.lt_of_succ_lt_succ hfuel) hnext (h.append hnew hfive honly)
    · obtain ⟨i, hi, honly⟩ := hfits.known hmerges _ hmem hnew
      obtain ⟨hfound, -, hname⟩ := h.findModule_known hnew hi honly
      rw [hfound, if_neg hi.ne, if_neg hi.ne, hname]
      exact ih hstop (Nat.lt_of_succ_lt_succ hfuel) hnext (h.replace hfirst hnew hi honly)

/-- Entries that are those of a list, as a list. -/
theorem map_range_of_getElem? {f : ModuleInfo → ModuleInfo} (h : ∀ i m, stock[i]? = some m → moduleList i = f m) :
    (List.range stock.length).map moduleList = stock.map f := by
  apply List.ext_getElem
  · rw [List.length_map, List.length_map, List.length_range]
  · intro i hi _
    rw [List.length_map, List.length_range] at hi
    rw [List.getElem_map, List.getElem_map, List.getElem_range]
    exact h i _ (List.getElem?_eq_getElem hi)

/-- The table, once all of our own modules have been merged. -/
theorem Merging.list (h : Merging stock own nbModules moduleList) (hfits : FitsTable call stock own) (hmerges : call.merges = true) :
    (List.range nbModules).map moduleList = mergedModules stock own ∧ nbModules ≤ maxModules := by
  have hstock := map_range_of_getElem? h.replaced
  have hcapacity := hfits.capacity
  rcases hfits.new hmerges with hnone | ⟨hfive, hone⟩
  · have hcount : nbModules = stock.length := by rw [h.count, hnone, Nat.add_zero]
    unfold mergedModules
    rw [hcount, hstock, List.length_eq_zero_iff.mp hnone, List.append_nil]
    exact ⟨rfl, hcapacity⟩
  · have hcount : nbModules = stock.length + 1 := by rw [h.count, hone]
    obtain ⟨o, hone⟩ := List.length_eq_one_iff.mp hone
    have hmem : o ∈ own.filter fun o => IsNew stock o := hone ▸ List.mem_singleton_self o
    have hlast : moduleList 5 = o := h.appended o (List.mem_of_mem_filter hmem) (of_decide_eq_true (List.mem_filter.mp hmem).2)
    unfold mergedModules
    rw [hcount, List.range_succ, List.map_append, hstock, hone, List.map_singleton, hfive, hlast]
    exact ⟨rfl, by decide⟩

/-! ## Placement -/

/-- A module is placed where it can be and there is room; what stops it is an error of the source. -/
theorem placeModule_cases (call : MergeCall) (m : ModuleInfo) (maxSize : UInt32) :
    (call.Placeable m ∧ call.room m ≤ maxSize.toNat ∧
      call.placeModule m maxSize = .ok (call.placedSize m, call.source m)) ∨
    (¬ (call.Placeable m ∧ call.room m ≤ maxSize.toNat) ∧
      ∃ e, call.placeModule m maxSize = .error e ∧ (e = .tooLarge ∨ e = .invalidLayout ∨ e = .invalidFile)) := by
  unfold MergeCall.Placeable MergeCall.room MergeCall.placeModule MergeCall.placedSize MergeCall.source
  cases hfile : call.moduleFile m with
  | some file =>
    dsimp only
    by_cases hsize : file.size > maxSize
    · refine .inr ⟨fun h => absurd h.2 (Nat.not_le.mpr (UInt32.lt_iff_toNat_lt.mp hsize)), _, if_pos hsize, .inl rfl⟩
    rw [if_neg hsize]
    by_cases hvalid : MergeCall.validFile m file = true
    · refine .inl ⟨hvalid, ?_, by rw [hvalid]; rfl⟩
      exact Nat.not_lt.mp fun h => hsize (UInt32.lt_iff_toNat_lt.mpr h)
    · refine .inr ⟨fun h => hvalid h.1, _, if_pos (by simpa using hvalid), .inr (.inr rfl)⟩
  | none =>
    dsimp only
    unfold copyKip
    by_cases htotal : (call.cxi m.src).totalSizeCompressed > maxSize
    · rw [if_pos htotal]
      have hlt := UInt32.lt_iff_toNat_lt.mp htotal
      exact .inr ⟨fun h => absurd (le_of_max_le_left h.2) (Nat.not_le.mpr hlt), _, rfl, .inl rfl⟩
    rw [if_neg htotal]
    have htotal' : (call.cxi m.src).totalSizeCompressed.toNat ≤ maxSize.toNat :=
      Nat.not_lt.mp fun h => htotal (UInt32.lt_iff_toNat_lt.mpr h)
    by_cases hlayout : (call.cxi m.src).hasLayout = true
    · rw [hlayout]
      by_cases hdecompress : (call.cxi m.src).decompressed (call.isStockTwlBg m) = true
      · simp only [hdecompress, if_true, Bool.not_true, Bool.false_eq_true, if_false]
        by_cases hnew : (call.cxi m.src).newTotalSize > maxSize
        · rw [if_pos hnew]
          have hlt := UInt32.lt_iff_toNat_lt.mp hnew
          exact .inr ⟨fun h => absurd (le_of_max_le_right h.2) (Nat.not_le.mpr hlt), _, rfl, .inl rfl⟩
        · rw [if_neg hnew]
          refine .inl ⟨trivial, max_le htotal' ?_, rfl⟩
          exact Nat.not_lt.mp fun h => hnew (UInt32.lt_iff_toNat_lt.mpr h)
      · rw [Bool.not_eq_true] at hdecompress
        simp only [hdecompress, Bool.not_true, Bool.not_false, Bool.false_eq_true, if_false, if_true]
        exact .inl ⟨trivial, max_le htotal' htotal', trivial⟩
    · rw [Bool.not_eq_true] at hlayout
      simp only [hlayout, Bool.not_false, if_true]
      exact .inr ⟨fun h => absurd h.1 (by decide), _, rfl, .inr (.inl rfl)⟩

theorem placedSize_le_room (call : MergeCall) (m : ModuleInfo) : (call.placedSize m).toNat ≤ call.room m := by
  unfold MergeCall.room
  cases hfile : call.moduleFile m with
  | some file =>
    unfold MergeCall.placedSize
    rw [hfile]
  | none => exact le_max_right _ _

/-- The modules of the table are placed one behind the other, or the loop stops at one that does not fit. -/
theorem placeModules_spec (call : MergeCall) (moduleList : Nat → ModuleInfo) : ∀ (is : List Nat) (_ : ∀ i ∈ is, i < maxModules)
    (offset : Nat) (maxSize : UInt32),
    (call.Fits (is.map moduleList) maxSize.toNat ∧
      call.placeModules moduleList is offset maxSize = .ok (call.layout offset (is.map moduleList))) ∨
    (¬ call.Fits (is.map moduleList) maxSize.toNat ∧ ∃ e, call.placeModules moduleList is offset maxSize = .error e ∧
      (e = .tooLarge ∨ e = .invalidLayout ∨ e = .invalidFile))
  | [], _, _, _ => .inl ⟨trivial, rfl⟩
  | i :: is, hbound, offset, maxSize => by
    have hi : i < maxModules := hbound i List.mem_cons_self
    unfold MergeCall.placeModules
    rw [if_pos hi]
    rcases placeModule_cases call (moduleList i) maxSize with ⟨hplaceable, hroom, hok⟩ | ⟨hnot, e, herror, hkind⟩
    · rw [hok]
      dsimp only
      have hle : call.placedSize (moduleList i) ≤ maxSize :=
        UInt32.le_iff_toNat_le.mpr ((placedSize_le_room call _).trans hroom)
      have hfree : (maxSize - call.placedSize (moduleList i)).toNat = maxSize.toNat - (call.placedSize (moduleList i)).toNat :=
        UInt32.toNat_sub_of_le _ _ hle
      rcases placeModules_spec call moduleList is (fun j hj => hbound j (List.mem_cons_of_mem i hj))
          (offset + (call.placedSize (moduleList i)).toNat) (maxSize - call.placedSize (moduleList i))
        with ⟨hfits, hrest⟩ | ⟨hnot, e, herror, hkind⟩
      · rw [hfree] at hfits
        rw [hrest]
        exact .inl ⟨⟨hplaceable, hroom, hfits⟩, rfl⟩
      · rw [hfree] at hnot
        rw [herror]
        exact .inr ⟨fun h => hnot h.2.2, e, rfl, hkind⟩
    · rw [herror]
      exact .inr ⟨fun h => hnot ⟨h.1, h.2.1⟩, e, rfl, hkind⟩

/-- Modules that fit are not larger than the room there is. -/
theorem Fits.totalSize_le (call : MergeCall) : ∀ {ms : List ModuleInfo} {free : Nat}, call.Fits ms free → call.totalSize ms ≤ free
  | [], free, _ => Nat.zero_le free
  | m :: ms, free, ⟨_, hroom, hrest⟩ => by
    have hsize := (placedSize_le_room call m).trans hroom
    have htotal := Fits.totalSize_le call hrest
    unfold MergeCall.totalSize at htotal ⊢
    rw [List.map_cons, List.sum_cons]
    omega

end

/-- For all modules that the table has room for, section 0 is put together as it is to be. -/
theorem modules_merged (call : MergeCall) (stock own : List ModuleInfo) (stop : UInt32)
    (hstock : Laid call call.section0 stock (call.section0 + call.section0Size)) (hown : Laid call ownModules own stop)
    (hstop : (call.cxi stop).magic ≠ ncchMagic) (hnames : (own.map ModuleInfo.name).Nodup) (hfits : FitsTable call stock own)
    (fuel : Nat) (hfuel : stock.length < fuel) (hfuel' : own.length < fuel) :
    Merged call stock own (call.mergeSection0 fuel) := by
  have hcapacity := hfits.capacity
  obtain ⟨parsed, hparse, -, hlisted⟩ :=
    hstock.parseStock 0 call.moduleList hfuel (by rwa [Nat.zero_add])
  rw [Nat.zero_add] at hparse
  simp only [Nat.zero_add] at hlisted
  -- the table that the last loop is given
  have htable : ∃ nbModules moduleList, call.mergeSection0 fuel =
      call.placeModules moduleList (List.range nbModules) 0 call.maxModuleSize ∧
      (List.range nbModules).map moduleList = call.expected stock own ∧ nbModules ≤ maxModules := by
    unfold MergeCall.mergeSection0 MergeCall.expected
    rw [hparse]
    dsimp only
    by_cases hmerges : call.merges = true
    · have hstart : Merging stock [] stock.length parsed := ⟨rfl, hlisted, nofun⟩
      obtain ⟨nbModules, moduleList, hloop, hmerging⟩ :=
        Merging.mergeOwn hown hstop hfits hmerges hnames hfuel' (List.nil_append own).symm hstart
      obtain ⟨hlist, hbound⟩ := hmerging.list hfits hmerges
      rw [if_pos hmerges, if_pos hmerges, hloop]
      exact ⟨nbModules, moduleList, rfl, hlist, hbound⟩
    · rw [if_neg hmerges, if_neg hmerges]
      refine ⟨stock.length, parsed, rfl, ?_, hcapacity⟩
      rw [map_range_of_getElem? (f := id) hlisted, List.map_id]
  obtain ⟨nbModules, moduleList, hmerge, hlist, hbound⟩ := htable
  have hindices : ∀ i ∈ List.range nbModules, i < maxModules := fun i hi => (List.mem_range.mp hi).trans_le hbound
  have hplace := placeModules_spec call moduleList _ hindices 0 call.maxModuleSize
  rw [hlist, ← hmerge] at hplace
  have hcount : (call.expected stock own).length ≤ maxModules := by
    rw [← hlist, List.length_map, List.length_range]
    exact hbound
  refine ⟨fun placed => ?_, fun e he => ?_, hcount, Fits.totalSize_le call⟩
  · rcases hplace with ⟨hok, hresult⟩ | ⟨hnot, e, herror, -⟩
    · rw [hresult]
      constructor
      · rintro hplaced
        exact ⟨hok, (Except.ok.inj hplaced).symm⟩
      · rintro ⟨-, rfl⟩
        rfl
    · rw [herror]
      constructor
      · nofun
      · rintro ⟨hok, -⟩
        exact absurd hok hnot
  · rcases hplace with ⟨-, hresult⟩ | ⟨-, e', herror, hkind⟩
    · rw [hresult] at he
      cases he
    · rw [herror] at he
      obtain rfl := Except.error.inj he
      exact hkind

/-! ## Five modules -/

/-- `Laid`, as a check. -/
def follows (call : MergeCall) : UInt32 → List ModuleInfo → UInt32 → Bool
  | a, [], stop => a = stop
  | a, m :: ms, stop =>
    m = call.moduleAt a && (call.cxi a).magic = ncchMagic && a < a + m.size && follows call (a + m.size) ms stop

theorem laid_of_follows {call : MergeCall} : ∀ {ms : List ModuleInfo} {a stop : UInt32}, follows call a ms stop = true →
    Laid call a ms stop
  | [], a, stop, h => by
    obtain rfl : a = stop := of_decide_eq_true h
    exact .nil a
  | m :: ms, a, stop, h => by
    simp only [follows, Bool.and_eq_true, decide_eq_true_eq] at h
    obtain ⟨⟨⟨rfl, hmagic⟩, hlt⟩, hrest⟩ := h
    exact .cons hmagic hlt (laid_of_follows hrest)

def smName : Name8 := #v[0x73, 0x6D, 0, 0, 0, 0, 0, 0]
def fsName : Name8 := #v[0x66, 0x73, 0, 0, 0, 0, 0, 0]
def pmName : Name8 := #v[0x70, 0x6D, 0, 0, 0, 0, 0, 0]
def loaderName : Name8 := #v[0x6C, 0x6F, 0x61, 0x64, 0x65, 0x72, 0, 0]
def pxiName : Name8 := #v[0x70, 0x78, 0x69, 0, 0, 0, 0, 0]
def rosalinaName : Name8 := #v[0x72, 0x6F, 0x73, 0x61, 0x6C, 0x69, 0x6E, 0x61]

/-- A module of 0x1000 bytes, with a magic. -/
def smallModule (magic : UInt32) (name : Name8) : CxiView where
  magic := magic
  contentSize := 8
  flag6 := 0
  exeFsOffset := 5
  appTitle := name
  flag := 0
  textSize := 0
  roSize := 0
  dataSize := 0
  exeFs := ⟨codeName, 0, 0x400, 0⟩

/-- Five modules in section 0, and two of our own: one in place of `loader`, and `rosalina`. -/
def nativeCall (files : List UInt8 → Option ModuleFile) : MergeCall where
  firmType := .nativeFirm
  firmVersion := 0
  loadFromStorage := true
  isN3ds := true
  section0 := 0x20001200
  section0Size := 0x5000
  cxi a := ([(0x20001200, smName), (0x20002200, fsName), (0x20003200, pmName), (0x20004200, loaderName), (0x20005200, pxiName),
    (0x18180000, loaderName), (0x18181000, rosalinaName)].lookup a).elim (smallModule 0 smName) (smallModule ncchMagic)
  files := files
  moduleList _ := ⟨smName, 0, 0⟩

def nativeStock : List ModuleInfo := [⟨smName, 0x20001200, 0x1000⟩, ⟨fsName, 0x20002200, 0x1000⟩, ⟨pmName, 0x20003200, 0x1000⟩,
  ⟨loaderName, 0x20004200, 0x1000⟩, ⟨pxiName, 0x20005200, 0x1000⟩]

def nativeOwn : List ModuleInfo := [⟨loaderName, 0x18180000, 0x1000⟩, ⟨rosalinaName, 0x18181000, 0x1000⟩]

/-- Only one file, of a name. -/
def oneFile (fileName : Name8) (name : List UInt8) : Option ModuleFile :=
  if name = nameString fileName then some ⟨0x2000, 0x2000, smallModule ncchMagic fileName⟩ else none

/-- A file takes the place of `fs`, our own `loader` that of Nintendo's, and `rosalina` is appended. -/
theorem native_merged : Merged (nativeCall (oneFile fsName)) nativeStock nativeOwn ((nativeCall (oneFile fsName)).mergeSection0 6) ∧
    ((nativeCall (oneFile fsName)).mergeSection0 6).toOption.map (fun placed => placed.map PlacedModule.source) =
      some [.memory 0x20001200 false, .file (nameString fsName), .memory 0x20003200 false, .memory 0x18180000 false,
        .memory 0x20005200 false, .memory 0x18181000 false] := by
  refine ⟨?_, by decide +kernel⟩
  refine modules_merged _ nativeStock nativeOwn 0x18182000 (laid_of_follows (by decide +kernel))
    (laid_of_follows (by decide +kernel)) (by decide +kernel) (by decide +kernel) ?_ 6 (by decide) (by decide)
  exact ⟨by decide, fun _ => by decide +kernel, fun _ => by decide +kernel⟩

/-- All modules on the card are in section 0. -/
def HasFiles (call : MergeCall) (placed : List PlacedModule) : Prop :=
  ∀ name file, call.files name = some file → ∃ p ∈ placed, p.source = .file name

def fooName : Name8 := #v[0x66, 0x6F, 0x6F, 0, 0, 0, 0, 0]

/-- A module on the card that has the name of none in the table is not appended: it is not looked for. -/
theorem other_file_not_appended : ∃ placed, (nativeCall (oneFile fooName)).mergeSection0 6 = .ok placed ∧
    placed.length = 6 ∧ ¬ HasFiles (nativeCall (oneFile fooName)) placed := by
  have hrun : ((nativeCall (oneFile fooName)).mergeSection0 6).toOption.map (fun placed => placed.map PlacedModule.source) =
      some [.memory 0x20001200 false, .memory 0x20002200 false, .memory 0x20003200 false, .memory 0x18180000 false,
        .memory 0x20005200 false, .memory 0x18181000 false] := by decide +kernel
  obtain ⟨placed, hplaced, hsources⟩ := Option.map_eq_some_iff.mp hrun
  have hlength := congrArg List.length hsources
  rw [List.length_map] at hlength
  refine ⟨placed, System.eq_ok_of_toOption hplaced, hlength, fun hfiles => ?_⟩
  have hfile : oneFile fooName (nameString fooName) = some ⟨0x2000, 0x2000, smallModule ncchMagic fooName⟩ := if_pos rfl
  obtain ⟨p, hp, hsource⟩ := hfiles (nameString fooName) _ hfile
  have hmem : ModuleSource.file (nameString fooName) ∈ placed.map PlacedModule.source := hsource ▸ List.mem_map_of_mem hp
  rw [hsources] at hmem
  simp at hmem

end Omiiba.Arm9
