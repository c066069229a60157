/-
The loading of 3DSX files in 3dsx.c: the size of the memory for a file, and what is written while the file
is read and relocated into it.
-/
import Omiiba.Lib.Effects
import Omiiba.Lib.Memory
import Omiiba.Lib.Words

namespace Omiiba.Loader.Homebrew

open Memory

/-! ## Files -/

/-- The fields of `_3DSX_Header` that are read. -/
structure Header where
  magic : UInt32
  headerSize : UInt16
  relocHdrSize : UInt16
  codeSegSize : UInt32
  rodataSegSize : UInt32
  dataSegSize : UInt32
  bssSize : UInt32

/-- The header at the start of a file. -/
def Header.ofFile (file : List UInt8) : Header where
  magic := UInt32.ofNat ((ofBytes file).load 0 4)
  headerSize := UInt16.ofNat ((ofBytes file).load 4 2)
  relocHdrSize := UInt16.ofNat ((ofBytes file).load 6 2)
  codeSegSize := UInt32.ofNat ((ofBytes file).load 16 4)
  rodataSegSize := UInt32.ofNat ((ofBytes file).load 20 4)
  dataSegSize := UInt32.ofNat ((ofBytes file).load 24 4)
  bssSize := UInt32.ofNat ((ofBytes file).load 28 4)

/-- `sizeof(_3DSX_Header)`. -/
def headerBytes : Nat := 32

/-- `_3DSX_MAGIC`. -/
def magic3dsx : UInt32 := 0x58534433

/-- A size in whole pages. -/
def pages (size : UInt32) : UInt32 := (size + 0xFFF) &&& ~~~0xFFF

/-- `Ldr_Get3dsxSize`; none for false. -/
def get3dsxSize (file : List UInt8) : Option UInt32 :=
  let hdr := Header.ofFile file
  if file.length < headerBytes then none
  else if hdr.magic ≠ magic3dsx then none
  else if pages hdr.codeSegSize ≥ hdr.codeSegSize ∧ pages hdr.rodataSegSize ≥ hdr.rodataSegSize ∧
      pages hdr.dataSegSize ≥ hdr.dataSegSize then
    some (pages hdr.codeSegSize + pages hdr.rodataSegSize + pages hdr.dataSegSize + 0x1000)
  else none

/-! ## Loading -/

/-- `_3DSX_LoadInfo`, for segment 0, 1 and 2. -/
structure LoadInfo where
  segPtrs : Nat → UInt32
  segAddrs : Nat → UInt32
  segSizes : Nat → UInt32

/-- What is written to: the memory from `codePages` on, at an address, or `s_relocBuf`, at an offset. -/
inductive Buffer
  | pages
  | relocBuf
  deriving DecidableEq

structure Write where
  buffer : Buffer
  address : UInt32
  size : Nat
  deriving DecidableEq

/-- The memory and `s_relocBuf`, what is behind it included; the place that is relocated and the place in the file;
what has been written, and the counts of relocations come to with the places of the relocations. -/
structure LoadState where
  mem : Memory UInt8
  relocBuf : Memory UInt8
  pos : UInt32
  readOffset : UInt32
  writes : List Write
  counts : List (UInt32 × UInt32)

/-- Loading, which ends with no code set or goes on. -/
abbrev Load := ExceptT Unit (StateM LoadState)

/-- What `IFile_Read2` gets of a file. -/
def got (file : List UInt8) (size offset : UInt32) : List UInt8 := (file.drop offset.toNat).take size.toNat

/-- `IFile_Read2`, of a file that can be read. -/
def ifileRead2 (file : List UInt8) (buffer : Buffer) (address size offset : UInt32) : Load UInt32 :=
  modifyGet fun s =>
    let bytes := got file size offset
    let s := { s with writes := ⟨buffer, address, bytes.length⟩ :: s.writes }
    (UInt32.ofNat bytes.length,
      match buffer with
      | .pages => { s with mem := s.mem.store address.toNat bytes }
      | .relocBuf => { s with relocBuf := s.relocBuf.store address.toNat bytes })

/-- A store to the memory. -/
def put (address : UInt32) (bytes : List UInt8) : Load PUnit :=
  modify fun s => { s with mem := s.mem.store address.toNat bytes, writes := ⟨.pages, address, bytes.length⟩ :: s.writes }

def putWord (address value : UInt32) : Load PUnit := put address (leBytes 4 value.toNat)

def LoadState.word (s : LoadState) (address : UInt32) : UInt32 := UInt32.ofNat (s.mem.load address.toNat 4)

/-- `SEC_ASSERT` and the places where 0 is returned. -/
def require (p : Prop) [Decidable p] : Load PUnit := if p then pure () else throw ()

/-- `MAXRELOCS`. -/
def maxRelocs : UInt32 := 512

/-- `TranslateAddr`. -/
def translateAddr (d : LoadInfo) (off : UInt32) : UInt32 :=
  if off < d.segSizes 0 then d.segAddrs 0 + off
  else if off < d.segSizes 0 + d.segSizes 1 then d.segAddrs 1 + off - d.segSizes 0
  else d.segAddrs 2 + off - (d.segSizes 0 + d.segSizes 1)

/-- The word that a relocation of table `j` makes of a word; none for one that is not supported. -/
def relocate (d : LoadInfo) (j : Nat) (inAddr origData : UInt32) : Option UInt32 :=
  let subType := origData >>> 28
  let addr := translateAddr d (origData &&& ~~~0xF0000000)
  if j = 0 then if subType ≠ 0 then none else some addr
  else if subType = 0 then some (addr - inAddr)
  else if subType = 1 then some ((addr - inAddr) &&& ~~~0x80000000)
  else none

/-- The loop over `m`, for the patches that are left. -/
def patchLoop (d : LoadInfo) (j : Nat) (endPos : UInt32) : Nat → Load PUnit
  | 0 => pure ()
  | n + 1 => do
    let s ← get
    if s.pos < endPos then
      match relocate d j (d.segAddrs 0 + (s.pos - d.segPtrs 0)) (s.word s.pos) with
      | none => throw ()
      | some data =>
        putWord s.pos data
        modify fun s => { s with pos := s.pos + 4 }
        patchLoop d j endPos n
    else pure ()

/-- The loop over `k`, for the entries of `s_relocBuf` that are left: some words are skipped, some are patched. -/
def entryLoop (d : LoadInfo) (j : Nat) (endPos : UInt32) : Nat → Nat → Load PUnit
  | 0, _ => pure ()
  | n + 1, k => do
    let s ← get
    if s.pos < endPos then
      modify fun s => { s with pos := s.pos + 4 * UInt32.ofNat (s.relocBuf.load (4 * k) 2) }
      patchLoop d j endPos (s.relocBuf.load (4 * k + 2) 2)
      entryLoop d j endPos n (k + 1)
    else pure ()

/-- `nRelocs > MAXRELOCS ? MAXRELOCS : nRelocs`, where `nRelocs` is an `int`. -/
def chunk (nRelocs : UInt32) : UInt32 := if nRelocs > maxRelocs ∧ nRelocs < 0x80000000 then maxRelocs else nRelocs

/-- The loop `while(nRelocs)`; each turn takes one relocation at least. -/
def chunkLoop (file : List UInt8) (d : LoadInfo) (j : Nat) (endPos : UInt32) : Nat → UInt32 → Load PUnit
  | 0, _ => pure ()
  | fuel + 1, nRelocs =>
    if nRelocs = 0 then pure ()
    else do
      let toDo := chunk nRelocs
      let readSize := toDo * 4
      let s ← get
      let total ← ifileRead2 file .relocBuf 0 readSize s.readOffset
      require (total = readSize)
      modify fun s => { s with readOffset := s.readOffset + readSize }
      entryLoop d j endPos toDo.toNat 0
      chunkLoop file d j endPos fuel (nRelocs - toDo)

/-- The loop over `j`, for the tables of segment `i` that are left; only the first two kinds of them are used. -/
def tableLoop (file : List UInt8) (d : LoadInfo) (extraPage nRelocTables : UInt32) (i : Nat) : Nat → Nat → Load PUnit
  | 0, _ => pure ()
  | n + 1, j => do
    let s ← get
    let nRelocs := s.word (extraPage + 4 * (UInt32.ofNat i * nRelocTables + UInt32.ofNat j))
    if j ≥ 2 then modify fun s => { s with readOffset := s.readOffset + nRelocs }
    else
      let endPos := d.segPtrs i + 4 * (d.segSizes i / 4)
      require (endPos ≤ d.segPtrs 2 + d.segSizes 2)
      modify fun s => { s with pos := d.segPtrs i, counts := (nRelocs, s.readOffset) :: s.counts }
      chunkLoop file d j endPos nRelocs.toNat nRelocs
    tableLoop file d extraPage nRelocTables i n (j + 1)

/-- A part of the file, and where it is read to. -/
structure Request where
  address : UInt32
  size : UInt32
  offset : UInt32

/-- The parts of the file that are read one after the other; the loading ends if one is not there whole. -/
def readAll (file : List UInt8) : List Request → Load PUnit
  | [] => pure ()
  | r :: rs => do
    let total ← ifileRead2 file .pages r.address r.size r.offset
    require (total = r.size)
    readAll file rs

section

variable (hdr : Header) (codePages baseAddr : UInt32)

def segSizes : Nat → UInt32
  | 0 => pages hdr.codeSegSize
  | 1 => pages hdr.rodataSegSize
  | _ => pages hdr.dataSegSize

/-- Where the segments start, of which the first one starts at `first`. -/
def segStarts (first : UInt32) : Nat → UInt32
  | 0 => first
  | 1 => first + segSizes hdr 0
  | _ => first + segSizes hdr 0 + segSizes hdr 1

def loadInfo : LoadInfo := ⟨segStarts hdr codePages, segStarts hdr baseAddr, segSizes hdr⟩

def relocTables : UInt32 := hdr.relocHdrSize.toUInt32 / 4

/-- The last page, behind the segments. -/
def extraPage : UInt32 := (loadInfo hdr codePages baseAddr).segPtrs 2 + (loadInfo hdr codePages baseAddr).segSizes 2

/-- The headers of the relocation tables, which are read to the extra page, and the segments. -/
def requests : List Request :=
  let d := loadInfo hdr codePages baseAddr
  let relocHdr (i : Nat) : Request :=
    ⟨extraPage hdr codePages baseAddr + 4 * (UInt32.ofNat i * relocTables hdr), hdr.relocHdrSize.toUInt32,
      hdr.headerSize.toUInt32 + UInt32.ofNat i * hdr.relocHdrSize.toUInt32⟩
  let code := hdr.headerSize.toUInt32 + 3 * hdr.relocHdrSize.toUInt32
  let rodata := code + hdr.codeSegSize
  let data := rodata + hdr.rodataSegSize
  [relocHdr 0, relocHdr 1, relocHdr 2, ⟨d.segPtrs 0, hdr.codeSegSize, code⟩, ⟨d.segPtrs 1, hdr.rodataSegSize, rodata⟩,
    ⟨d.segPtrs 2, hdr.dataSegSize - hdr.bssSize, data⟩]

/-- The end of the data segment in the file. -/
def relocStart : UInt32 :=
  hdr.headerSize.toUInt32 + 3 * hdr.relocHdrSize.toUInt32 + hdr.codeSegSize + hdr.rodataSegSize +
    (hdr.dataSegSize - hdr.bssSize)

end

/-- What is not in the file: the arguments, a constant of the system library, and the console. -/
structure Environment where
  ldrArgvBuf : List UInt8
  aptChainload : UInt32
  isN3DS : Bool
  argv : ldrArgvBuf.length = 0x400

/-- `_PRM_MAGIC`. -/
def prmMagic : UInt32 := 0x6D72705F

/-- The `PrmStruct` in the second word of the code, if it is there. -/
def fillPrm (env : Environment) (codePages extraPage extraPageAddr : UInt32) : Load PUnit := do
  let pst := codePages + 4
  let s ← get
  if s.word pst = prmMagic then
    put extraPage (List.replicate 0x1000 0)
    put extraPage env.ldrArgvBuf
    putWord (pst + 4) (extraPageAddr + 0xFFC)
    putWord (pst + 20) extraPageAddr
    let s ← get
    putWord (pst + 24) (s.word (pst + 24) ||| env.aptChainload)
    putWord (pst + 12) (if env.isN3DS then 48 * 1024 * 1024 else 24 * 1024 * 1024)
    putWord (pst + 16) (if env.isN3DS then 64 * 1024 * 1024 else 32 * 1024 * 1024)
  else pure ()

/-- What of `CodeSetHeader` comes from the file. -/
structure CodeSetHeader where
  text_addr : UInt32
  text_size : UInt32
  ro_addr : UInt32
  ro_size : UInt32
  rw_addr : UInt32
  rw_size : UInt32

/-- What comes after the parts of the file have been read: the segments are relocated. -/
def relocateSegments (file : List UInt8) (env : Environment) (codePages baseAddr : UInt32) : Load CodeSetHeader := do
  let hdr := Header.ofFile file
  let d := loadInfo hdr codePages baseAddr
  let nRelocTables := relocTables hdr
  let page := extraPage hdr codePages baseAddr
  modify fun s => { s with readOffset := relocStart hdr }
  tableLoop file d page nRelocTables 0 nRelocTables.toNat 0
  tableLoop file d page nRelocTables 1 nRelocTables.toNat 0
  tableLoop file d page nRelocTables 2 nRelocTables.toNat 0
  fillPrm env codePages page (d.segAddrs 2 + d.segSizes 2)
  pure ⟨d.segAddrs 0, d.segSizes 0 >>> 12, d.segAddrs 1, d.segSizes 1 >>> 12, d.segAddrs 2, (d.segSizes 2 >>> 12) + 1⟩

/-- `Ldr_CodesetFrom3dsx`, up to the code set that the kernel makes. -/
def codesetFrom3dsx (file : List UInt8) (env : Environment) (codePages baseAddr : UInt32) : Load CodeSetHeader := do
  let hdr := Header.ofFile file
  require (3 * 4 * relocTables hdr ≤ 0x1000)
  readAll file (requests hdr codePages baseAddr)
  relocateSegments file env codePages baseAddr

/-! ## Sizes -/

theorem pages_mod (size : UInt32) : (pages size).toNat % 4096 = 0 := by
  unfold pages
  rw [toNat_and_not_0xFFF]
  omega

/-- Where it does not wrap around, the size in pages is the least one that has room. -/
theorem pages_toNat {size : UInt32} (h : pages size ≥ size) : (pages size).toNat = (size.toNat + 4095) / 4096 * 4096 := by
  have hge := UInt32.le_iff_toNat_le.mp h
  have hlt := size.toNat_lt
  unfold pages at hge ⊢
  rw [toNat_and_not_0xFFF, UInt32.toNat_add] at hge ⊢
  change size.toNat ≤ (size.toNat + 4095) % 2 ^ 32 / 4096 * 4096 at hge
  show (size.toNat + 4095) % 2 ^ 32 / 4096 * 4096 = _
  omega

theorem four_mul_div (a : UInt32) (h : a.toNat % 4096 = 0) : 4 * (a / 4) = a := by
  have hlt := a.toNat_lt
  rw [← UInt32.toNat_inj, UInt32.toNat_mul, UInt32.toNat_div]
  show 4 * (a.toNat / 4) % 2 ^ 32 = a.toNat
  omega

/-! ## What stays inside -/

/-- Where the homebrew loader maps the memory that it allocates. -/
def addr : UInt32 := 0x10000000

/-- A write of bytes is in the memory that is allocated, or in `s_relocBuf`. -/
def Write.Inside (total : UInt32) (w : Write) : Prop :=
  w.size = 0 ∨
    match w.buffer with
    | .pages => addr.toNat ≤ w.address.toNat ∧ w.address.toNat + w.size ≤ addr.toNat + total.toNat
    | .relocBuf => w.address.toNat + w.size ≤ 2048

instance (total : UInt32) (w : Write) : Decidable (w.Inside total) := by
  unfold Write.Inside
  cases w.buffer <;> exact inferInstance

/-- The file has a part whole. -/
def Request.Complete (file : List UInt8) (r : Request) : Prop := (got file r.size r.offset).length = r.size.toNat

/-- What the file has of a part stays in the memory. -/
def Request.Fits (file : List UInt8) (total : UInt32) (r : Request) : Prop :=
  (⟨.pages, r.address, (got file r.size r.offset).length⟩ : Write).Inside total

theorem got_length_le (file : List UInt8) (size offset : UInt32) : (got file size offset).length ≤ size.toNat := by
  unfold got
  rw [List.length_take]
  omega

theorem complete_iff {file : List UInt8} {size offset : UInt32} :
    UInt32.ofNat (got file size offset).length = size ↔ (got file size offset).length = size.toNat := by
  have hle := got_length_le file size offset
  have hlt := size.toNat_lt
  rw [← UInt32.toNat_inj, UInt32.toNat_ofNat', Nat.mod_eq_of_lt (by omega)]

theorem after_require_bind {β : Type} (p : Prop) [Decidable p] (f : PUnit → Load β) (s : LoadState) :
    after (require p >>= f) s = if p then after (f ⟨⟩) s else s := by
  unfold require
  split_ifs with hp
  · exact after_bind_of_runs (runs_pure_iff.mpr ⟨rfl, rfl⟩)
  · rfl

/-- The state after a part of the file has been read to the memory. -/
def LoadState.readTo (s : LoadState) (file : List UInt8) (r : Request) : LoadState :=
  { s with
    writes := ⟨.pages, r.address, (got file r.size r.offset).length⟩ :: s.writes
    mem := s.mem.store r.address.toNat (got file r.size r.offset) }

theorem after_readAll_cons (file : List UInt8) (r : Request) (rs : List Request) {β : Type} (f : PUnit → Load β)
    (s : LoadState) :
    after (readAll file (r :: rs) >>= f) s =
      if (got file r.size r.offset).length = r.size.toNat then after (readAll file rs >>= f) (s.readTo file r)
      else s.readTo file r := by
  have hassoc : readAll file (r :: rs) >>= f =
      ifileRead2 file .pages r.address r.size r.offset >>= fun total =>
        require (total = r.size) >>= fun _ => readAll file rs >>= f := by
    simp only [readAll, bind_assoc]
  rw [hassoc]
  unfold ifileRead2
  rw [after_modifyGet_bind, after_require_bind]
  simp only [complete_iff]
  rfl

/-- Each part that comes after parts that the file has whole stays in the memory. -/
def AllFit (file : List UInt8) (total : UInt32) (rs : List Request) : Prop :=
  ∀ before r after, rs = before ++ r :: after → (∀ q ∈ before, q.Complete file) → r.Fits file total

theorem allFit_cons_iff {file : List UInt8} {total : UInt32} {r : Request} {rs : List Request} :
    AllFit file total (r :: rs) ↔ r.Fits file total ∧ (r.Complete file → AllFit file total rs) := by
  constructor
  · intro h
    refine ⟨h [] r rs rfl (by simp), fun hr before q after heq hbefore => ?_⟩
    refine h (r :: before) q after (by rw [heq]; rfl) fun p hp => ?_
    rcases List.mem_cons.mp hp with rfl | hp
    · exact hr
    · exact hbefore p hp
  · rintro ⟨hr, hrs⟩ (_ | ⟨p, before⟩) q after heq hbefore
    · simp only [List.nil_append, List.cons.injEq] at heq
      rw [← heq.1]
      exact hr
    · simp only [List.cons_append, List.cons.injEq] at heq
      obtain ⟨rfl, htail⟩ := heq
      exact hrs (hbefore r (by simp)) before q after htail fun p hp => hbefore p (by simp [hp])

/-- Everything written to the memory is inside. -/
def LoadState.PagesInside (total : UInt32) (s : LoadState) : Prop := ∀ w ∈ s.writes, w.buffer = .pages → w.Inside total

/-- What has been written to `s_relocBuf`. -/
def LoadState.relocWrites (s : LoadState) : List Write := s.writes.filter (·.buffer = .relocBuf)

/-- What leaves `s_relocBuf` and the counts as they are. -/
structure RelocFrame (s s' : LoadState) : Prop where
  counts : s'.counts = s.counts
  writes : s'.relocWrites = s.relocWrites

instance : Std.Refl RelocFrame := ⟨fun _ => ⟨rfl, rfl⟩⟩

instance : IsTrans LoadState RelocFrame :=
  ⟨fun _ _ _ h₁ h₂ => ⟨h₂.counts.trans h₁.counts, h₂.writes.trans h₁.writes⟩⟩

/-- What has been written stays so. -/
def Grows (s s' : LoadState) : Prop := ∀ w ∈ s.writes, w ∈ s'.writes

instance : Std.Refl Grows := ⟨fun _ _ h => h⟩

instance : IsTrans LoadState Grows := ⟨fun _ _ _ h₁ h₂ w hw => h₂ w (h₁ w hw)⟩

theorem readTo_pagesInside {file : List UInt8} {total : UInt32} {s : LoadState} {r : Request} :
    (s.readTo file r).PagesInside total ↔ r.Fits file total ∧ s.PagesInside total := by
  unfold LoadState.PagesInside LoadState.readTo
  simp only [List.mem_cons, forall_eq_or_imp, true_implies]
  rfl

theorem readTo_relocFrame (file : List UInt8) (s : LoadState) (r : Request) : RelocFrame s (s.readTo file r) := by
  refine ⟨rfl, ?_⟩
  simp [LoadState.relocWrites, LoadState.readTo]

/-- Reading parts of the file one after the other, and what comes then if the file has all of them. -/
theorem after_readAll_cases (file : List UInt8) (total : UInt32) (rs : List Request) {β : Type} (f : PUnit → Load β) :
    ∀ s : LoadState, ∃ s', RelocFrame s s' ∧ (s'.PagesInside total ↔ s.PagesInside total ∧ AllFit file total rs) ∧
      (after (readAll file rs >>= f) s = s' ∨
        (∀ r ∈ rs, r.Complete file) ∧ after (readAll file rs >>= f) s = after (f ⟨⟩) s') := by
  induction rs with
  | nil =>
    intro s
    refine ⟨s, ⟨rfl, rfl⟩, ?_, Or.inr ⟨by simp, rfl⟩⟩
    have hnone : AllFit file total [] := by
      intro before r after heq
      simp at heq
    exact ⟨fun h => ⟨h, hnone⟩, fun h => h.1⟩
  | cons r rs ih =>
    intro s
    rw [after_readAll_cons, allFit_cons_iff]
    by_cases hcomplete : (got file r.size r.offset).length = r.size.toNat
    · rw [if_pos hcomplete]
      obtain ⟨s', hframe, hinside, hcases⟩ := ih (s.readTo file r)
      refine ⟨s', IsTrans.trans _ _ _ (readTo_relocFrame file s r) hframe, ?_, ?_⟩
      · have hr : r.Complete file := hcomplete
        rw [hinside, readTo_pagesInside]
        simp only [hr, true_implies]
        tauto
      · rcases hcases with hshort | ⟨hall, hrest⟩
        · exact Or.inl hshort
        · refine Or.inr ⟨fun q hq => ?_, hrest⟩
          rcases List.mem_cons.mp hq with rfl | hq
          · exact hcomplete
          · exact hall q hq
    · rw [if_neg hcomplete]
      refine ⟨s.readTo file r, readTo_relocFrame file s r, ?_, Or.inl rfl⟩
      have hr : ¬r.Complete file := hcomplete
      rw [readTo_pagesInside]
      simp only [hr, false_implies]
      tauto

/-! ## Relocations -/

/-- Relocations of words from `pos` to `endPos` are in the memory. -/
structure Room (total pos endPos : UInt32) : Prop where
  low : addr.toNat ≤ pos.toNat
  aligned : pos.toNat % 4 = 0
  high : endPos.toNat ≤ addr.toNat + total.toNat
  endAligned : endPos.toNat % 4 = 0

/-- The memory is mapped, below the end of the addresses of a process. -/
structure Mapped (total : UInt32) : Prop where
  some : total ≠ 0
  user : addr.toNat + total.toNat ≤ 0x40000000

/-- Everything written to the memory is inside, and what is to be relocated is, too. -/
def Relocating (total endPos : UInt32) (s : LoadState) : Prop :=
  s.PagesInside total ∧ (s.pos < endPos → Room total s.pos endPos)

section

variable {total : UInt32} (hmapped : Mapped total) (file : List UInt8) (d : LoadInfo) (j : Nat) (endPos : UInt32)

include hmapped

theorem patchLoop_relocating : ∀ n, Preserves (Relocating total endPos) (patchLoop d j endPos n)
  | 0 => fun _ h => h
  | n + 1 => by
    intro s hs
    have huser := hmapped.user
    simp only [patchLoop, after_get_bind]
    by_cases hmore : s.pos < endPos
    · have hroom := hs.2 hmore
      have hlt := UInt32.lt_iff_toNat_lt.mp hmore
      have hlow := hroom.low
      have haligned := hroom.aligned
      have hhigh := hroom.high
      have hend := hroom.endAligned
      rw [if_pos hmore]
      cases hdata : relocate d j (d.segAddrs 0 + (s.pos - d.segPtrs 0)) (s.word s.pos) with
      | none => exact hs
      | some data =>
        simp only [putWord, put, after_modify_bind]
        refine patchLoop_relocating n _ ⟨?_, ?_⟩
        · intro w hw hbuffer
          rcases List.mem_cons.mp hw with rfl | hw
          · refine Or.inr ⟨hlow, ?_⟩
            show s.pos.toNat + (leBytes 4 data.toNat).length ≤ _
            rw [leBytes_length]
            omega
          · exact hs.1 w hw hbuffer
        · intro _
          have hnext : (s.pos + 4).toNat = s.pos.toNat + 4 := by
            rw [UInt32.toNat_add]
            show (s.pos.toNat + 4) % 2 ^ 32 = _
            omega
          constructor
          · show addr.toNat ≤ (s.pos + 4).toNat
            omega
          · show (s.pos + 4).toNat % 4 = 0
            omega
          · exact hhigh
          · exact hend
    · rw [if_neg hmore]
      exact hs

theorem entryLoop_relocating : ∀ n k, Preserves (Relocating total endPos) (entryLoop d j endPos n k)
  | 0, _ => fun _ h => h
  | n + 1, k => by
    intro s hs
    have huser := hmapped.user
    simp only [entryLoop, after_get_bind]
    by_cases hmore : s.pos < endPos
    · have hroom := hs.2 hmore
      have hlt := UInt32.lt_iff_toNat_lt.mp hmore
      have hlow := hroom.low
      have haligned := hroom.aligned
      have hhigh := hroom.high
      rw [if_pos hmore, after_modify_bind]
      refine preserves_bind (patchLoop_relocating hmapped d j endPos _) (fun _ => entryLoop_relocating n (k + 1)) _
        ⟨hs.1, fun _ => ?_⟩
      -- the skip is too short to wrap around
      have hskip : s.relocBuf.load (4 * k) 2 < 2 ^ 16 := s.relocBuf.load_lt 2 (4 * k)
      have hnext : (s.pos + 4 * UInt32.ofNat (s.relocBuf.load (4 * k) 2)).toNat =
          s.pos.toNat + 4 * s.relocBuf.load (4 * k) 2 := by
        rw [UInt32.toNat_add, UInt32.toNat_mul, UInt32.toNat_ofNat']
        show (s.pos.toNat + 4 * (s.relocBuf.load (4 * k) 2 % 2 ^ 32) % 2 ^ 32) % 2 ^ 32 = _
        omega
      constructor
      · show addr.toNat ≤ (s.pos + 4 * UInt32.ofNat (s.relocBuf.load (4 * k) 2)).toNat
        omega
      · show (s.pos + 4 * UInt32.ofNat (s.relocBuf.load (4 * k) 2)).toNat % 4 = 0
        omega
      · exact hhigh
      · exact hroom.endAligned
    · rw [if_neg hmore]
      exact hs

theorem chunkLoop_relocating : ∀ fuel nRelocs, Preserves (Relocating total endPos) (chunkLoop file d j endPos fuel nRelocs)
  | 0, _ => fun _ h => h
  | fuel + 1, nRelocs => by
    intro s hs
    unfold chunkLoop
    split_ifs with hnone
    · exact hs
    · have hread : Relocating total endPos
          { s with
            writes := ⟨.relocBuf, 0, (got file (chunk nRelocs * 4) s.readOffset).length⟩ :: s.writes
            relocBuf := s.relocBuf.store 0 (got file (chunk nRelocs * 4) s.readOffset) } := by
        refine ⟨fun w hw hbuffer => ?_, hs.2⟩
        rcases List.mem_cons.mp hw with rfl | hw
        · exact absurd hbuffer (by simp)
        · exact hs.1 w hw hbuffer
      simp only [ifileRead2, after_get_bind, after_modifyGet_bind, after_require_bind]
      split_ifs with htotal
      · rw [after_modify_bind]
        exact preserves_bind (entryLoop_relocating hmapped d j endPos _ _) (fun _ => chunkLoop_relocating fuel _) _ hread
      · exact hread

/-- Relocations of segments that are in the memory stay in it. -/
theorem tableLoop_pagesInside (extraPage nRelocTables : UInt32) {i : Nat}
    (hroom : Room total (d.segPtrs i) (d.segPtrs i + 4 * (d.segSizes i / 4))) :
    ∀ n j, Preserves (LoadState.PagesInside total) (tableLoop file d extraPage nRelocTables i n j)
  | 0, _ => fun _ h => h
  | n + 1, j => by
    intro s hs
    have hrest := tableLoop_pagesInside extraPage nRelocTables hroom n (j + 1)
    simp only [tableLoop, after_get_bind]
    by_cases hunused : j ≥ 2
    · rw [if_pos hunused, after_modify_bind]
      exact hrest _ hs
    · rw [if_neg hunused]
      simp only [after_require_bind]
      split_ifs with hlimit
      · rw [after_modify_bind]
        generalize hnRelocs : s.word (extraPage + 4 * (UInt32.ofNat i * nRelocTables + UInt32.ofNat j)) = nRelocs
        have hstart : Relocating total (d.segPtrs i + 4 * (d.segSizes i / 4))
            { s with pos := d.segPtrs i, counts := (nRelocs, s.readOffset) :: s.counts } := ⟨hs, fun _ => hroom⟩
        have hchunks := (chunkLoop_relocating hmapped file d j _ nRelocs.toNat nRelocs _ hstart).1
        refine after_bind_cases hchunks fun a s₁ hrun => hrest s₁ ?_
        rw [← hrun.after_eq]
        exact hchunks
      · exact hs

end

/-! ## Relocation buffers -/

section

variable (file : List UInt8) (d : LoadInfo) (j : Nat) (endPos : UInt32)

theorem put_relocFrame (address : UInt32) (bytes : List UInt8) : Ensures RelocFrame (put address bytes) := by
  refine ensures_modify fun s => ⟨rfl, ?_⟩
  simp [LoadState.relocWrites]

theorem patchLoop_relocFrame : ∀ n, Ensures RelocFrame (patchLoop d j endPos n)
  | 0 => ensures_pure _
  | n + 1 => by
    unfold patchLoop
    refine ensures_bind ensures_get fun s => ?_
    split_ifs
    · split
      · exact ensures_throw _
      · refine ensures_bind (put_relocFrame _ _) fun _ => ?_
        exact ensures_bind (ensures_modify fun s => ⟨rfl, rfl⟩) fun _ => patchLoop_relocFrame n
    · exact ensures_pure _

theorem entryLoop_relocFrame : ∀ n k, Ensures RelocFrame (entryLoop d j endPos n k)
  | 0, _ => ensures_pure _
  | n + 1, k => by
    unfold entryLoop
    refine ensures_bind ensures_get fun s => ?_
    split_ifs
    · refine ensures_bind (ensures_modify fun s => ⟨rfl, rfl⟩) fun _ => ?_
      exact ensures_bind (patchLoop_relocFrame d j endPos _) fun _ => entryLoop_relocFrame n (k + 1)
    · exact ensures_pure _

/-- Everything written to `s_relocBuf` is inside. -/
def LoadState.RelocInside (total : UInt32) (s : LoadState) : Prop := ∀ w ∈ s.relocWrites, w.Inside total

/-- A count that is not negative, or of whose relocations the file has no more than `s_relocBuf` has room for. -/
def CountFits (nRelocs readOffset : UInt32) : Prop :=
  nRelocs < 0x80000000 ∨ (got file (nRelocs * 4) readOffset).length ≤ 2048

variable {total : UInt32}

/-- The state after a chunk of relocations has been read. -/
def LoadState.readChunk (s : LoadState) (toDo : UInt32) : LoadState :=
  { s with
    writes := ⟨.relocBuf, 0, (got file (toDo * 4) s.readOffset).length⟩ :: s.writes
    relocBuf := s.relocBuf.store 0 (got file (toDo * 4) s.readOffset) }

theorem readChunk_relocInside {s : LoadState} {toDo : UInt32} :
    (s.readChunk file toDo).RelocInside total ↔
      (got file (toDo * 4) s.readOffset).length ≤ 2048 ∧ s.RelocInside total := by
  have hone : (⟨.relocBuf, 0, (got file (toDo * 4) s.readOffset).length⟩ : Write).Inside total ↔
      (got file (toDo * 4) s.readOffset).length ≤ 2048 := by
    unfold Write.Inside
    simp only [UInt32.toNat_zero, Nat.zero_add]
    omega
  unfold LoadState.RelocInside LoadState.relocWrites LoadState.readChunk
  rw [List.filter_cons_of_pos (by simp), List.forall_mem_cons, hone]

theorem RelocFrame.relocInside {s s' : LoadState} (h : RelocFrame s s') : s'.RelocInside total ↔ s.RelocInside total := by
  unfold LoadState.RelocInside
  rw [h.writes]

theorem chunk_toNat {nRelocs : UInt32} (h : nRelocs < 0x80000000) :
    (chunk nRelocs).toNat ≤ 512 ∧ chunk nRelocs ≤ nRelocs := by
  unfold chunk
  split_ifs with hmany
  · exact ⟨le_rfl, UInt32.le_of_lt hmany.1⟩
  · have hfew : ¬nRelocs > maxRelocs := fun hmore => hmany ⟨hmore, h⟩
    exact ⟨UInt32.le_iff_toNat_le.mp (UInt32.not_lt.mp hfew), UInt32.le_refl _⟩

theorem chunk_fits_iff {nRelocs readOffset : UInt32} :
    (got file (chunk nRelocs * 4) readOffset).length ≤ 2048 ↔ CountFits file nRelocs readOffset := by
  unfold CountFits
  by_cases hsign : nRelocs < 0x80000000
  · have hchunk := (chunk_toNat hsign).1
    have hle := got_length_le file (chunk nRelocs * 4) readOffset
    rw [UInt32.toNat_mul] at hle
    change _ ≤ (chunk nRelocs).toNat * 4 % 2 ^ 32 at hle
    constructor
    · exact fun _ => Or.inl hsign
    · intro _
      omega
  · have hchunk : chunk nRelocs = nRelocs := if_neg fun h => hsign h.2
    rw [hchunk]
    simp [hsign]

/-- What is left after a chunk is not negative. -/
theorem sub_chunk_lt (nRelocs : UInt32) : nRelocs - chunk nRelocs < 0x80000000 := by
  by_cases hsign : nRelocs < 0x80000000
  · have hle := (chunk_toNat hsign).2
    rw [UInt32.lt_iff_toNat_lt, UInt32.toNat_sub_of_le _ _ hle]
    have hlt := UInt32.lt_iff_toNat_lt.mp hsign
    omega
  · have hchunk : chunk nRelocs = nRelocs := if_neg fun h => hsign h.2
    rw [hchunk, UInt32.sub_self]
    decide

def LoadState.advance (s : LoadState) (n : UInt32) : LoadState := { s with readOffset := s.readOffset + n }

theorem after_chunkLoop_succ (fuel : Nat) {nRelocs : UInt32} (h : nRelocs ≠ 0) {s : LoadState} :
    after (chunkLoop file d j endPos (fuel + 1) nRelocs) s =
      if (got file (chunk nRelocs * 4) s.readOffset).length = (chunk nRelocs * 4).toNat then
        after (entryLoop d j endPos (chunk nRelocs).toNat 0 >>= fun _ =>
            chunkLoop file d j endPos fuel (nRelocs - chunk nRelocs))
          ((s.readChunk file (chunk nRelocs)).advance (chunk nRelocs * 4))
      else s.readChunk file (chunk nRelocs) := by
  conv_lhs => unfold chunkLoop
  rw [if_neg h]
  simp only [ifileRead2, after_get_bind, after_modifyGet_bind, after_require_bind, complete_iff, after_modify_bind]
  rfl

/-- The relocations of a table are inside exactly if its count fits. -/
theorem chunkLoop_relocInside : ∀ (fuel : Nat) (nRelocs : UInt32) (s : LoadState), nRelocs < 0x80000000 ∨ 0 < fuel →
    (after (chunkLoop file d j endPos fuel nRelocs) s).counts = s.counts ∧
      ((after (chunkLoop file d j endPos fuel nRelocs) s).RelocInside total ↔
        s.RelocInside total ∧ CountFits file nRelocs s.readOffset)
  | 0, nRelocs, s, hfuel => by
    have hfits : CountFits file nRelocs s.readOffset := Or.inl (hfuel.resolve_right (Nat.lt_irrefl 0))
    exact ⟨rfl, ⟨fun h => ⟨h, hfits⟩, fun h => h.1⟩⟩
  | fuel + 1, nRelocs, s, _ => by
    by_cases hnone : nRelocs = 0
    · have hfits : CountFits file nRelocs s.readOffset := Or.inl (by rw [hnone]; decide)
      unfold chunkLoop
      rw [if_pos hnone]
      exact ⟨rfl, ⟨fun h => ⟨h, hfits⟩, fun h => h.1⟩⟩
    · have hread : (s.readChunk file (chunk nRelocs)).RelocInside total ↔
          s.RelocInside total ∧ CountFits file nRelocs s.readOffset := by
        rw [readChunk_relocInside, chunk_fits_iff, and_comm]
      rw [after_chunkLoop_succ file d j endPos fuel hnone]
      split_ifs with hcomplete
      · obtain ⟨s₁, hs₁⟩ : ∃ s₁, s₁ = (s.readChunk file (chunk nRelocs)).advance (chunk nRelocs * 4) := ⟨_, rfl⟩
        rw [← hs₁]
        have hentries : RelocFrame (s.readChunk file (chunk nRelocs))
            (after (entryLoop d j endPos (chunk nRelocs).toNat 0) s₁) := by
          have hadvance : RelocFrame (s.readChunk file (chunk nRelocs)) s₁ := by
            rw [hs₁]
            exact ⟨rfl, rfl⟩
          exact IsTrans.trans _ _ _ hadvance (entryLoop_relocFrame d j endPos _ 0 s₁)
        have hafter (s' : LoadState) (hframe : RelocFrame (s.readChunk file (chunk nRelocs)) s') :
            s'.counts = s.counts ∧ (s'.RelocInside total ↔ s.RelocInside total ∧ CountFits file nRelocs s.readOffset) :=
          ⟨hframe.counts, hframe.relocInside.trans hread⟩
        refine after_bind_cases (P := fun s' : LoadState => s'.counts = s.counts ∧
          (s'.RelocInside total ↔ s.RelocInside total ∧ CountFits file nRelocs s.readOffset)) (hafter _ hentries)
          fun _ s₂ hrun => ?_
        rw [hrun.after_eq] at hentries
        obtain ⟨hcounts, hinside⟩ := hafter s₂ hentries
        -- what is left of the count is not negative, so that it fits
        have hleft := sub_chunk_lt nRelocs
        obtain ⟨hcounts', hinside'⟩ := chunkLoop_relocInside fuel (nRelocs - chunk nRelocs) s₂ (Or.inl hleft)
        refine ⟨hcounts'.trans hcounts, hinside'.trans ?_⟩
        rw [hinside]
        exact and_iff_left (Or.inl hleft)
      · exact ⟨rfl, hread⟩

/-- What is written to `s_relocBuf` is inside exactly if the counts come to fit. -/
def CountsExact (total : UInt32) (s : LoadState) : Prop :=
  s.RelocInside total ↔ ∀ c ∈ s.counts, CountFits file c.1 c.2

theorem CountsExact.of_frame {s s' : LoadState} (h : CountsExact file total s) (hframe : RelocFrame s s') :
    CountsExact file total s' := by
  unfold CountsExact
  rw [hframe.relocInside, hframe.counts]
  exact h

theorem tableLoop_countsExact (extraPage nRelocTables : UInt32) (i : Nat) :
    ∀ n j, Preserves (CountsExact file total) (tableLoop file d extraPage nRelocTables i n j)
  | 0, _ => fun _ h => h
  | n + 1, j => by
    intro s hs
    have hrest := tableLoop_countsExact extraPage nRelocTables i n (j + 1)
    simp only [tableLoop, after_get_bind]
    by_cases hunused : j ≥ 2
    · rw [if_pos hunused, after_modify_bind]
      exact hrest _ hs
    · rw [if_neg hunused]
      simp only [after_require_bind]
      split_ifs with hlimit
      · rw [after_modify_bind]
        generalize s.word (extraPage + 4 * (UInt32.ofNat i * nRelocTables + UInt32.ofNat j)) = nRelocs
        generalize d.segPtrs i + 4 * (d.segSizes i / 4) = endPos
        obtain ⟨s₀, hs₀⟩ : ∃ s₀ : LoadState,
            s₀ = { s with pos := d.segPtrs i, counts := (nRelocs, s.readOffset) :: s.counts } := ⟨_, rfl⟩
        rw [← hs₀]
        have hfuel : nRelocs < 0x80000000 ∨ 0 < nRelocs.toNat := by
          by_cases hsign : nRelocs < 0x80000000
          · exact Or.inl hsign
          · have hle := UInt32.le_iff_toNat_le.mp (UInt32.not_lt.mp hsign)
            exact Or.inr (Nat.lt_of_lt_of_le (by decide) hle)
        obtain ⟨hcounts, hinside⟩ : _ ∧ (LoadState.RelocInside total _ ↔ _) :=
          chunkLoop_relocInside file d j endPos nRelocs.toNat nRelocs s₀ hfuel
        have hchunks : CountsExact file total (after (chunkLoop file d j endPos nRelocs.toNat nRelocs) s₀) := by
          unfold CountsExact
          rw [hinside, hcounts, hs₀]
          simp only [List.mem_cons, forall_eq_or_imp]
          rw [and_comm]
          exact and_congr_right fun _ => hs
        refine after_bind_cases hchunks fun _ s₁ hrun => hrest s₁ ?_
        rw [← hrun.after_eq]
        exact hchunks
      · exact hs

end

/-! ## Growth -/

theorem ifileRead2_grows (file : List UInt8) (buffer : Buffer) (address size offset : UInt32) :
    Ensures Grows (ifileRead2 file buffer address size offset) := by
  refine ensures_modifyGet fun s w hw => ?_
  cases buffer with
  | pages => exact List.mem_cons_of_mem _ hw
  | relocBuf => exact List.mem_cons_of_mem _ hw

theorem put_grows (address : UInt32) (bytes : List UInt8) : Ensures Grows (put address bytes) :=
  ensures_modify fun _ _ hw => List.mem_cons_of_mem _ hw

theorem require_grows (p : Prop) [Decidable p] : Ensures Grows (require p) := by
  unfold require
  split_ifs
  · exact ensures_pure _
  · exact ensures_throw _

section

variable (file : List UInt8) (d : LoadInfo) (j : Nat) (endPos : UInt32)

theorem patchLoop_grows : ∀ n, Ensures Grows (patchLoop d j endPos n)
  | 0 => ensures_pure _
  | n + 1 => by
    unfold patchLoop
    refine ensures_bind ensures_get fun s => ?_
    split_ifs
    · split
      · exact ensures_throw _
      · refine ensures_bind (put_grows _ _) fun _ => ?_
        exact ensures_bind (ensures_modify fun _ _ hw => hw) fun _ => patchLoop_grows n
    · exact ensures_pure _

theorem entryLoop_grows : ∀ n k, Ensures Grows (entryLoop d j endPos n k)
  | 0, _ => ensures_pure _
  | n + 1, k => by
    unfold entryLoop
    refine ensures_bind ensures_get fun s => ?_
    split_ifs
    · refine ensures_bind (ensures_modify fun _ _ hw => hw) fun _ => ?_
      exact ensures_bind (patchLoop_grows d j endPos _) fun _ => entryLoop_grows n (k + 1)
    · exact ensures_pure _

theorem chunkLoop_grows : ∀ fuel nRelocs, Ensures Grows (chunkLoop file d j endPos fuel nRelocs)
  | 0, _ => ensures_pure _
  | fuel + 1, nRelocs => by
    unfold chunkLoop
    split_ifs
    · exact ensures_pure _
    · refine ensures_bind ensures_get fun s => ?_
      refine ensures_bind (ifileRead2_grows _ _ _ _ _) fun _ => ?_
      refine ensures_bind (require_grows _) fun _ => ?_
      refine ensures_bind (ensures_modify fun _ _ hw => hw) fun _ => ?_
      exact ensures_bind (entryLoop_grows d j endPos _ _) fun _ => chunkLoop_grows fuel _

theorem tableLoop_grows (extraPage nRelocTables : UInt32) (i : Nat) :
    ∀ n j, Ensures Grows (tableLoop file d extraPage nRelocTables i n j)
  | 0, _ => ensures_pure _
  | n + 1, j => by
    unfold tableLoop
    refine ensures_bind ensures_get fun s => ?_
    dsimp only
    split_ifs
    · exact ensures_bind (ensures_modify fun _ _ hw => hw) fun _ => tableLoop_grows extraPage nRelocTables i n (j + 1)
    · refine ensures_bind (require_grows _) fun _ => ?_
      refine ensures_bind (ensures_modify fun _ _ hw => hw) fun _ => ?_
      exact ensures_bind (chunkLoop_grows file d j _ _ _) fun _ => tableLoop_grows extraPage nRelocTables i n (j + 1)

theorem fillPrm_grows (env : Environment) (codePages extraPage extraPageAddr : UInt32) :
    Ensures Grows (fillPrm env codePages extraPage extraPageAddr) := by
  unfold fillPrm
  refine ensures_bind ensures_get fun s => ?_
  split
  · refine ensures_bind (put_grows _ _) fun _ => ?_
    refine ensures_bind (put_grows _ _) fun _ => ?_
    refine ensures_bind (put_grows _ _) fun _ => ?_
    refine ensures_bind (put_grows _ _) fun _ => ?_
    refine ensures_bind ensures_get fun _ => ?_
    refine ensures_bind (put_grows _ _) fun _ => ?_
    refine ensures_bind (put_grows _ _) fun _ => ?_
    exact put_grows _ _
  · exact ensures_pure _

end

/-! ## Places -/

/-- The sizes of the segments of a file that has a size. -/
structure Sized (hdr : Header) (total : UInt32) : Prop where
  total_eq : total = pages hdr.codeSegSize + pages hdr.rodataSegSize + pages hdr.dataSegSize + 0x1000
  code : (pages hdr.codeSegSize).toNat = (hdr.codeSegSize.toNat + 4095) / 4096 * 4096
  rodata : (pages hdr.rodataSegSize).toNat = (hdr.rodataSegSize.toNat + 4095) / 4096 * 4096
  data : (pages hdr.dataSegSize).toNat = (hdr.dataSegSize.toNat + 4095) / 4096 * 4096

theorem sized_of_get3dsxSize {file : List UInt8} {total : UInt32} (h : get3dsxSize file = some total) :
    Sized (Header.ofFile file) total := by
  unfold get3dsxSize at h
  simp only at h
  split_ifs at h with hshort hmagic hpages
  obtain ⟨hcode, hrodata, hdata⟩ := hpages
  exact ⟨(Option.some.inj h).symm, pages_toNat hcode, pages_toNat hrodata, pages_toNat hdata⟩

/-- What is written at a place is inside, if the whole part would be. -/
theorem Request.fits_of_size {file : List UInt8} {total : UInt32} {r : Request} (hlow : addr.toNat ≤ r.address.toNat)
    (hhigh : r.address.toNat + r.size.toNat ≤ addr.toNat + total.toNat) : r.Fits file total := by
  have hle := got_length_le file r.size r.offset
  refine Or.inr ⟨hlow, ?_⟩
  show r.address.toNat + (got file r.size r.offset).length ≤ _
  omega

theorem allFit_of_forall {file : List UInt8} {total : UInt32} {rs : List Request} (h : ∀ r ∈ rs, r.Fits file total) :
    AllFit file total rs := by
  rintro before r after rfl -
  exact h r (by simp)

theorem put_pagesInside {total address : UInt32} {bytes : List UInt8}
    (hinside : (⟨.pages, address, bytes.length⟩ : Write).Inside total) :
    Preserves (LoadState.PagesInside total) (put address bytes) := by
  intro s hs w hw hbuffer
  rcases List.mem_cons.mp hw with rfl | hw
  · exact hinside
  · exact hs w hw hbuffer

section

variable {hdr : Header} {total : UInt32} (h : Sized hdr total) (hmapped : Mapped total)

include h hmapped

/-- The whole pages that are mapped. -/
theorem Sized.total_toNat : total.toNat % 4096 = 0 ∧ 4096 ≤ total.toNat := by
  have hmod : total.toNat % 4096 = 0 := by
    have hpage : (0x1000 : UInt32).toNat = 4096 := rfl
    rw [h.total_eq, UInt32.toNat_add, UInt32.toNat_add, UInt32.toNat_add, h.code, h.rodata, h.data, hpage]
    omega
  have hpos : total.toNat ≠ 0 := fun hzero => hmapped.some (UInt32.toNat_inj.mp hzero)
  omega

/-- The extra page is the last one of the memory. -/
theorem Sized.extraPage_toNat (baseAddr : UInt32) :
    (extraPage hdr addr baseAddr).toNat + 4096 = addr.toNat + total.toNat := by
  have heq : extraPage hdr addr baseAddr = addr + (total - 0x1000) := by
    rw [h.total_eq, UInt32.add_sub_cancel]
    show addr + pages hdr.codeSegSize + pages hdr.rodataSegSize + pages hdr.dataSegSize = _
    simp only [UInt32.add_assoc]
  have hpage : (0x1000 : UInt32) ≤ total := UInt32.le_iff_toNat_le.mpr (h.total_toNat hmapped).2
  have hle := UInt32.le_iff_toNat_le.mp hpage
  have huser := hmapped.user
  rw [heq, UInt32.toNat_add, UInt32.toNat_sub_of_le _ _ hpage]
  change 4096 ≤ total.toNat at hle
  show (addr.toNat + (total.toNat - 4096)) % 2 ^ 32 + 4096 = _
  omega

/-- What is read of the segments of a file that has all of them. -/
structure SegmentsFit (hdr : Header) (total : UInt32) : Prop where
  code : hdr.codeSegSize.toNat ≤ total.toNat
  rodata : hdr.rodataSegSize = 0 ∨ (pages hdr.codeSegSize).toNat + hdr.rodataSegSize.toNat ≤ total.toNat

/-- The segments are in the memory, so that their relocations are. -/
theorem Sized.room (hfit : SegmentsFit hdr total) (baseAddr : UInt32) {i : Nat} (hi : i < 3) :
    let d := loadInfo hdr addr baseAddr
    Room total (d.segPtrs i) (d.segPtrs i + 4 * (d.segSizes i / 4)) := by
  obtain ⟨hmod, hmin⟩ := h.total_toNat hmapped
  have huser := hmapped.user
  have hextra := h.extraPage_toNat hmapped baseAddr
  have haddr : addr.toNat = 0x10000000 := rfl
  have hcode := h.code
  have hrodata := h.rodata
  have hdata := h.data
  have hfitCode := hfit.code
  have hcodePages : (pages hdr.codeSegSize).toNat ≤ total.toNat := by omega
  have hrodataPages : (pages hdr.codeSegSize).toNat + (pages hdr.rodataSegSize).toNat ≤ total.toNat := by
    rcases hfit.rodata with hnone | hsome
    · have hzero : hdr.rodataSegSize.toNat = 0 := by
        rw [hnone]
        rfl
      omega
    · omega
  have hrodataStart : (addr + pages hdr.codeSegSize).toNat = addr.toNat + (pages hdr.codeSegSize).toNat := by
    rw [UInt32.toNat_add]
    omega
  have hdataStart : (addr + pages hdr.codeSegSize + pages hdr.rodataSegSize).toNat =
      addr.toNat + (pages hdr.codeSegSize).toNat + (pages hdr.rodataSegSize).toNat := by
    rw [UInt32.toNat_add, hrodataStart]
    omega
  have hcodeEnd := four_mul_div (pages hdr.codeSegSize) (by omega)
  have hrodataEnd := four_mul_div (pages hdr.rodataSegSize) (by omega)
  have hdataEnd := four_mul_div (pages hdr.dataSegSize) (by omega)
  -- the end of the data is the extra page, also where the sizes wrap around
  have hend : (addr + pages hdr.codeSegSize + pages hdr.rodataSegSize + pages hdr.dataSegSize).toNat + 4096 =
      addr.toNat + total.toNat := hextra
  intro d
  match i, hi with
  | 0, _ =>
    show Room total addr (addr + 4 * (pages hdr.codeSegSize / 4))
    rw [hcodeEnd]
    constructor <;> omega
  | 1, _ =>
    show Room total (addr + pages hdr.codeSegSize) (addr + pages hdr.codeSegSize + 4 * (pages hdr.rodataSegSize / 4))
    rw [hrodataEnd]
    constructor <;> omega
  | 2, _ =>
    show Room total (addr + pages hdr.codeSegSize + pages hdr.rodataSegSize)
      (addr + pages hdr.codeSegSize + pages hdr.rodataSegSize + 4 * (pages hdr.dataSegSize / 4))
    rw [hdataEnd]
    constructor <;> omega

/-- Parts that the file has whole and that fit: so do the segments. -/
theorem Sized.segmentsFit {file : List UInt8} {baseAddr : UInt32} (hfit : AllFit file total (requests hdr addr baseAddr))
    (hcomplete : ∀ r ∈ requests hdr addr baseAddr, r.Complete file) : SegmentsFit hdr total := by
  have hpart (before : List Request) {after : List Request} {r : Request}
      (heq : requests hdr addr baseAddr = before ++ r :: after) :
      r.size.toNat = 0 ∨ addr.toNat ≤ r.address.toNat ∧ r.address.toNat + r.size.toNat ≤ addr.toNat + total.toNat := by
    have hr := hfit before r after heq fun q hq => hcomplete q (by rw [heq]; simp [hq])
    have hsize : (got file r.size r.offset).length = r.size.toNat := hcomplete r (by rw [heq]; simp)
    rw [← hsize]
    exact hr
  obtain ⟨hmod, -⟩ := h.total_toNat hmapped
  have huser := hmapped.user
  have haddr : addr.toNat = 0x10000000 := rfl
  have hpages := h.code
  have hcode : hdr.codeSegSize.toNat = 0 ∨ addr.toNat ≤ addr.toNat ∧
      addr.toNat + hdr.codeSegSize.toNat ≤ addr.toNat + total.toNat := hpart [_, _, _] rfl
  have hrodata : hdr.rodataSegSize.toNat = 0 ∨ addr.toNat ≤ (addr + pages hdr.codeSegSize).toNat ∧
      (addr + pages hdr.codeSegSize).toNat + hdr.rodataSegSize.toNat ≤ addr.toNat + total.toNat := hpart [_, _, _, _] rfl
  rw [UInt32.toNat_add] at hrodata
  constructor
  · omega
  · rcases hrodata with hnone | hsome
    · exact Or.inl (UInt32.toNat_inj.mp hnone)
    · right
      omega

/-- The headers of the relocation tables are in the extra page. -/
theorem Sized.relocHdr_fits (file : List UInt8) (baseAddr : UInt32) (htables : 3 * 4 * relocTables hdr ≤ 0x1000)
    {i : Nat} (hi : i < 3) :
    Request.Fits file total ⟨extraPage hdr addr baseAddr + 4 * (UInt32.ofNat i * relocTables hdr), hdr.relocHdrSize.toUInt32,
      hdr.headerSize.toUInt32 + UInt32.ofNat i * hdr.relocHdrSize.toUInt32⟩ := by
  have huser := hmapped.user
  have hextra := h.extraPage_toNat hmapped baseAddr
  obtain ⟨-, hmin⟩ := h.total_toNat hmapped
  have haddr : addr.toNat = 0x10000000 := rfl
  have hhdr : hdr.relocHdrSize.toNat < 65536 := hdr.relocHdrSize.toNat_lt
  have htablesEq : (relocTables hdr).toNat = hdr.relocHdrSize.toNat / 4 := rfl
  have hlimit : (relocTables hdr).toNat ≤ 341 := by
    have hle := UInt32.le_iff_toNat_le.mp htables
    rw [UInt32.toNat_mul] at hle
    change 12 * (relocTables hdr).toNat % 2 ^ 32 ≤ 4096 at hle
    rw [Nat.mod_eq_of_lt (by omega)] at hle
    omega
  have hplace : (4 * (UInt32.ofNat i * relocTables hdr)).toNat = 4 * (i * (relocTables hdr).toNat) := by
    have hle : i * (relocTables hdr).toNat ≤ 2 * 341 := Nat.mul_le_mul (by omega) hlimit
    rw [UInt32.toNat_mul, UInt32.toNat_mul, UInt32.toNat_ofNat', Nat.mod_eq_of_lt (by omega : i < 2 ^ 32)]
    show 4 * (i * (relocTables hdr).toNat % 2 ^ 32) % 2 ^ 32 = _
    omega
  have hindex : i * (relocTables hdr).toNat ≤ 2 * (relocTables hdr).toNat := Nat.mul_le_mul_right _ (by omega)
  refine Request.fits_of_size ?_ ?_
  · show addr.toNat ≤ (extraPage hdr addr baseAddr + 4 * (UInt32.ofNat i * relocTables hdr)).toNat
    rw [UInt32.toNat_add, hplace]
    omega
  · show (extraPage hdr addr baseAddr + 4 * (UInt32.ofNat i * relocTables hdr)).toNat + hdr.relocHdrSize.toNat ≤ _
    rw [UInt32.toNat_add, hplace]
    omega

/-- Sizes whose sum does not wrap around, and data that is at least as long as its part that is zero. -/
theorem Sized.allFit (file : List UInt8) (baseAddr : UInt32) (htables : 3 * 4 * relocTables hdr ≤ 0x1000)
    (hsum : (pages hdr.codeSegSize).toNat + (pages hdr.rodataSegSize).toNat + (pages hdr.dataSegSize).toNat + 0x1000 < 2 ^ 32)
    (hbss : hdr.bssSize ≤ hdr.dataSegSize) : AllFit file total (requests hdr addr baseAddr) := by
  have huser := hmapped.user
  have hextra := h.extraPage_toNat hmapped baseAddr
  have haddr : addr.toNat = 0x10000000 := rfl
  have hcode := h.code
  have hrodata := h.rodata
  have hdata := h.data
  have htotal : total.toNat =
      (pages hdr.codeSegSize).toNat + (pages hdr.rodataSegSize).toNat + (pages hdr.dataSegSize).toNat + 4096 := by
    have hpage : (0x1000 : UInt32).toNat = 4096 := rfl
    rw [h.total_eq, UInt32.toNat_add, UInt32.toNat_add, UInt32.toNat_add, hpage]
    omega
  have hrelocHdr {i : Nat} (hi : i < 3) := h.relocHdr_fits hmapped file baseAddr htables hi
  have hrodataStart : (addr + pages hdr.codeSegSize).toNat = addr.toNat + (pages hdr.codeSegSize).toNat := by
    rw [UInt32.toNat_add]
    omega
  have hdataStart : (addr + pages hdr.codeSegSize + pages hdr.rodataSegSize).toNat =
      addr.toNat + (pages hdr.codeSegSize).toNat + (pages hdr.rodataSegSize).toNat := by
    rw [UInt32.toNat_add, hrodataStart]
    omega
  have hload := UInt32.toNat_sub_of_le _ _ hbss
  refine allFit_of_forall fun r hr => ?_
  simp only [requests, List.mem_cons, List.not_mem_nil, or_false] at hr
  rcases hr with rfl | rfl | rfl | rfl | rfl | rfl
  · exact hrelocHdr (by omega)
  · exact hrelocHdr (by omega)
  · exact hrelocHdr (by omega)
  · refine Request.fits_of_size le_rfl ?_
    show addr.toNat + hdr.codeSegSize.toNat ≤ _
    omega
  · refine Request.fits_of_size ?_ ?_
    · show addr.toNat ≤ (addr + pages hdr.codeSegSize).toNat
      omega
    · show (addr + pages hdr.codeSegSize).toNat + hdr.rodataSegSize.toNat ≤ _
      omega
  · refine Request.fits_of_size ?_ ?_
    · show addr.toNat ≤ (addr + pages hdr.codeSegSize + pages hdr.rodataSegSize).toNat
      omega
    · show (addr + pages hdr.codeSegSize + pages hdr.rodataSegSize).toNat + (hdr.dataSegSize - hdr.bssSize).toNat ≤ _
      omega

/-- The structure is in the first page, and the arguments are in the extra page. -/
theorem Sized.fillPrm_pagesInside (env : Environment) (baseAddr extraPageAddr : UInt32) :
    Preserves (LoadState.PagesInside total) (fillPrm env addr (extraPage hdr addr baseAddr) extraPageAddr) := by
  obtain ⟨-, hmin⟩ := h.total_toNat hmapped
  have huser := hmapped.user
  have hextra := h.extraPage_toNat hmapped baseAddr
  have hwords {address value : UInt32} (hlow : addr.toNat ≤ address.toNat) (hhigh : address.toNat + 4 ≤ addr.toNat + 4096) :
      Preserves (LoadState.PagesInside total) (putWord address value) := by
    refine put_pagesInside (Or.inr ⟨hlow, ?_⟩)
    show address.toNat + (leBytes 4 value.toNat).length ≤ _
    rw [leBytes_length]
    omega
  have hpage {bytes : List UInt8} (hlength : bytes.length ≤ 4096) :
      Preserves (LoadState.PagesInside total) (put (extraPage hdr addr baseAddr) bytes) := by
    refine put_pagesInside (Or.inr ⟨?_, ?_⟩)
    · show addr.toNat ≤ (extraPage hdr addr baseAddr).toNat
      omega
    · show (extraPage hdr addr baseAddr).toNat + bytes.length ≤ _
      omega
  unfold fillPrm
  refine preserves_bind preserves_get fun s => ?_
  split
  · refine preserves_bind (hpage (by rw [List.length_replicate])) fun _ => ?_
    refine preserves_bind (hpage (by rw [env.argv]; omega)) fun _ => ?_
    refine preserves_bind (hwords (by decide) (by decide)) fun _ => ?_
    refine preserves_bind (hwords (by decide) (by decide)) fun _ => ?_
    refine preserves_bind preserves_get fun _ => ?_
    refine preserves_bind (hwords (by decide) (by decide)) fun _ => ?_
    refine preserves_bind (hwords (by decide) (by decide)) fun _ => ?_
    exact hwords (by decide) (by decide)
  · exact preserves_pure _

end

/-! ## Loaded files -/

/-- A file is loaded to the memory that the homebrew loader allocates, which holds anything. -/
def loaded (file : List UInt8) (env : Environment) (baseAddr : UInt32) (mem relocBuf : Memory UInt8) : LoadState :=
  after (codesetFrom3dsx file env addr baseAddr) ⟨mem, relocBuf, 0, 0, [], []⟩

section

variable (file : List UInt8) (env : Environment) (codePages baseAddr : UInt32)

theorem after_codesetFrom3dsx (s : LoadState) :
    after (codesetFrom3dsx file env codePages baseAddr) s =
      if 3 * 4 * relocTables (Header.ofFile file) ≤ 0x1000 then
        after (readAll file (requests (Header.ofFile file) codePages baseAddr) >>= fun _ =>
          relocateSegments file env codePages baseAddr) s
      else s :=
  after_require_bind _ _ s

theorem relocateSegments_grows : Ensures Grows (relocateSegments file env codePages baseAddr) := by
  refine ensures_bind (ensures_modify fun _ _ hw => hw) fun _ => ?_
  refine ensures_bind (tableLoop_grows file _ _ _ 0 _ 0) fun _ => ?_
  refine ensures_bind (tableLoop_grows file _ _ _ 1 _ 0) fun _ => ?_
  refine ensures_bind (tableLoop_grows file _ _ _ 2 _ 0) fun _ => ?_
  exact ensures_bind (fillPrm_grows env _ _ _) fun _ => ensures_pure _

theorem fillPrm_countsExact {total : UInt32} (extraPage extraPageAddr : UInt32) :
    Preserves (CountsExact file total) (fillPrm env codePages extraPage extraPageAddr) := by
  have hput (address : UInt32) (bytes : List UInt8) : Preserves (CountsExact file total) (put address bytes) :=
    fun s hs => hs.of_frame file (put_relocFrame address bytes s)
  unfold fillPrm
  refine preserves_bind preserves_get fun s => ?_
  split
  · refine preserves_bind (hput _ _) fun _ => ?_
    refine preserves_bind (hput _ _) fun _ => ?_
    refine preserves_bind (hput _ _) fun _ => ?_
    refine preserves_bind (hput _ _) fun _ => ?_
    refine preserves_bind preserves_get fun _ => ?_
    refine preserves_bind (hput _ _) fun _ => ?_
    refine preserves_bind (hput _ _) fun _ => ?_
    exact hput _ _
  · exact preserves_pure _

theorem relocateSegments_countsExact {total : UInt32} :
    Preserves (CountsExact file total) (relocateSegments file env codePages baseAddr) := by
  refine preserves_bind (preserves_modify fun _ hs => hs) fun _ => ?_
  refine preserves_bind (tableLoop_countsExact file _ _ _ 0 _ 0) fun _ => ?_
  refine preserves_bind (tableLoop_countsExact file _ _ _ 1 _ 0) fun _ => ?_
  refine preserves_bind (tableLoop_countsExact file _ _ _ 2 _ 0) fun _ => ?_
  exact preserves_bind (fillPrm_countsExact file env _ _ _) fun _ => preserves_pure _

variable {file} {total : UInt32}

theorem relocateSegments_pagesInside (h : Sized (Header.ofFile file) total) (hmapped : Mapped total)
    (hfit : SegmentsFit (Header.ofFile file) total) :
    Preserves (LoadState.PagesInside total) (relocateSegments file env addr baseAddr) := by
  have hroom {i : Nat} (hi : i < 3) := h.room hmapped hfit baseAddr hi
  refine preserves_bind (preserves_modify fun _ hs => hs) fun _ => ?_
  refine preserves_bind (tableLoop_pagesInside hmapped file _ _ _ (hroom (by omega)) _ 0) fun _ => ?_
  refine preserves_bind (tableLoop_pagesInside hmapped file _ _ _ (hroom (by omega)) _ 0) fun _ => ?_
  refine preserves_bind (tableLoop_pagesInside hmapped file _ _ _ (hroom (by omega)) _ 0) fun _ => ?_
  exact preserves_bind (h.fillPrm_pagesInside hmapped env baseAddr _) fun _ => preserves_pure _

theorem all_inside_iff {s : LoadState} :
    (∀ w ∈ s.writes, w.Inside total) ↔ s.PagesInside total ∧ s.RelocInside total := by
  unfold LoadState.PagesInside LoadState.RelocInside LoadState.relocWrites
  simp only [List.mem_filter, decide_eq_true_eq]
  constructor
  · intro h
    exact ⟨fun w hw _ => h w hw, fun w hw => h w hw.1⟩
  · rintro ⟨hpages, hreloc⟩ w hw
    cases hbuffer : w.buffer with
    | pages => exact hpages w hw hbuffer
    | relocBuf => exact hreloc w ⟨hw, hbuffer⟩

/-- A file is loaded inside the memory for it exactly if the parts that are read fit into it, and no count of relocations
that is negative makes more of the file be read than `s_relocBuf` has room for. -/
theorem codesetFrom3dsx_inside_iff (hsize : get3dsxSize file = some total) (hmapped : Mapped total)
    (mem relocBuf : Memory UInt8) :
    (∀ w ∈ (loaded file env baseAddr mem relocBuf).writes, w.Inside total) ↔
      (3 * 4 * relocTables (Header.ofFile file) ≤ 0x1000 →
          AllFit file total (requests (Header.ofFile file) addr baseAddr)) ∧
        ∀ c ∈ (loaded file env baseAddr mem relocBuf).counts, CountFits file c.1 c.2 := by
  have hsized := sized_of_get3dsxSize hsize
  have hstart : CountsExact file total ⟨mem, relocBuf, 0, 0, [], []⟩ := by
    unfold CountsExact LoadState.RelocInside LoadState.relocWrites
    simp
  have hempty : LoadState.PagesInside total ⟨mem, relocBuf, 0, 0, [], []⟩ := by
    unfold LoadState.PagesInside
    simp
  rw [all_inside_iff]
  unfold loaded
  rw [after_codesetFrom3dsx]
  split_ifs with htables
  · obtain ⟨s', hframe, hinside, hcases⟩ := after_readAll_cases file total (requests (Header.ofFile file) addr baseAddr)
      (fun _ => relocateSegments file env addr baseAddr) ⟨mem, relocBuf, 0, 0, [], []⟩
    have hcounts := hstart.of_frame file hframe
    simp only [hempty, true_and] at hinside
    simp only [htables, true_implies]
    rcases hcases with hshort | ⟨hcomplete, hrest⟩
    · rw [hshort, hinside]
      exact and_congr_right fun _ => hcounts
    · have hcounts' := relocateSegments_countsExact file env addr baseAddr s' hcounts
      rw [hrest, ← hinside]
      refine (and_congr_right fun _ => hcounts').trans ?_
      refine and_congr_left fun _ => ⟨fun hpages w hw hbuffer => ?_, fun hpages => ?_⟩
      · exact hpages w (relocateSegments_grows file env addr baseAddr s' w hw) hbuffer
      · have hfit := hsized.segmentsFit hmapped (hinside.mp hpages) hcomplete
        exact relocateSegments_pagesInside env baseAddr hsized hmapped hfit s' hpages
  · simp only [htables, false_implies, true_and]
    exact (and_iff_right hempty).trans hstart

/-- A file with the given header fields, and what is behind the header. -/
def fileWith (relocHdrSize codeSegSize rodataSegSize dataSegSize bssSize : Nat) (rest : List UInt8) : List UInt8 :=
  leBytes 4 magic3dsx.toNat ++ leBytes 2 32 ++ leBytes 2 relocHdrSize ++ leBytes 8 0 ++ leBytes 4 codeSegSize ++
    leBytes 4 rodataSegSize ++ leBytes 4 dataSegSize ++ leBytes 4 bssSize ++ rest

/-- Two words of code, the second of which is relocated. -/
def oneRelocation : List UInt8 :=
  fileWith 8 8 0 0 0 (leBytes 4 1 ++ leBytes 20 0 ++ leBytes 8 0 ++ leBytes 2 1 ++ leBytes 2 1)

/-- Data that is shorter than its part that is zero, and a little more than a page of it in the file. -/
def longBss : List UInt8 := fileWith 0 0 0 0 1 (List.replicate 0x1001 0)

def noArguments : Environment := ⟨List.replicate 0x400 0, 2, false, by decide +kernel⟩

theorem codesetFrom3dsx_inside_oneRelocation :
    (loaded oneRelocation noArguments 0x100000 (fun _ => 0) (fun _ => 0)).counts.length = 6 ∧
      ∀ w ∈ (loaded oneRelocation noArguments 0x100000 (fun _ => 0) (fun _ => 0)).writes, w.Inside 0x2000 := by
  have hsize : get3dsxSize oneRelocation = some 0x2000 := by decide +kernel
  have hmapped : Mapped 0x2000 := ⟨by decide, by decide⟩
  have hcounts : (loaded oneRelocation noArguments 0x100000 (fun _ => 0) (fun _ => 0)).counts.map (·.1.toNat) =
      [0, 0, 0, 0, 0, 1] := by decide +kernel
  refine ⟨by decide +kernel, (codesetFrom3dsx_inside_iff _ _ hsize hmapped _ _).mpr ⟨fun htables => ?_, ?_⟩⟩
  · exact (sized_of_get3dsxSize hsize).allFit hmapped _ _ htables (by decide +kernel) (by decide +kernel)
  · intro c hc
    have hmem := List.mem_map_of_mem (f := (·.1.toNat)) hc
    rw [hcounts] at hmem
    simp only [List.mem_cons, List.not_mem_nil, or_false] at hmem
    refine Or.inl (UInt32.lt_iff_toNat_lt.mpr ?_)
    show c.1.toNat < 0x80000000
    omega

theorem longBss_outside :
    get3dsxSize longBss = some 0x1000 ∧ Mapped 0x1000 ∧
      ∃ w ∈ (loaded longBss noArguments 0x100000 (fun _ => 0) (fun _ => 0)).writes, ¬w.Inside 0x1000 := by
  refine ⟨by decide +kernel, ⟨by decide, by decide⟩, ⟨.pages, addr, 0x1001⟩, ?_, by decide +kernel⟩
  decide +kernel

end

end Omiiba.Loader.Homebrew
