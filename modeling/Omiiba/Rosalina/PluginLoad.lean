/-
How a 3GX plugin is loaded into its memory block, after file_loader.c, 3gx.c and memoryblock.c: the header is parked at an
offset from the end that is the size of the file, strings are put behind it, and the code goes to the start.
-/
import Omiiba.Lib.Words

namespace Omiiba.Rosalina

/-! ## The file -/

/-- What is used of a `_3gx_Header`, without its magic; pointers are offsets in the file until they are relocated. -/
structure PluginFileHeader where
  version : UInt32
  authorLen : UInt32
  authorMsg : UInt32
  titleLen : UInt32
  titleMsg : UInt32
  embeddedExeLoadFunc : Bool
  embeddedSwapSaveLoadFunc : Bool
  memoryRegionSize : Fin 4
  compatibility : Fin 4
  allowHomebrewLoad : Bool
  exeLoadChecksum : UInt32
  codeOffset : UInt32
  codeSize : UInt32
  rodataSize : UInt32
  dataSize : UInt32
  bssSize : UInt32
  targetsCount : UInt32
  targetsTitles : UInt32
  deriving DecidableEq

/-- `sizeof(_3gx_Header)`. -/
def fileHeaderSize : UInt32 := 0x94

/-- `sizeof(PluginHeader)`. -/
def pluginHeaderSize : UInt32 := 0x100

/-- `_3GX_MAGIC`. -/
def pluginMagic : UInt64 := 0x3230303024584733

structure PluginFile where
  size : UInt64
  magic : UInt64
  header : PluginFileHeader

/-- The bytes that `IFile_Read` finds in a file at a position. -/
def PluginFile.available (file : PluginFile) (pos len : UInt32) : Nat := min len.toNat (file.size.toNat - pos.toNat)

/-! ## The memory block -/

/-- `memRegionSizes`. -/
def memRegionSizes : Fin 4 → UInt32 := ![5 * 1024 * 1024, 2 * 1024 * 1024, 10 * 1024 * 1024, 5 * 1024 * 1024]

/-- The address of a memory block, which ends below the end of the address space. -/
structure MemBlock where
  address : UInt32
  fits : address.toNat + 10 * 1024 * 1024 < 2 ^ 32

/-- What the services and the memory say while a plugin is loaded: if their calls succeed, and what the parked header reads
as once something has been written over it. -/
structure PluginEnv where
  isHomebrew : Bool
  opened : Bool
  sizeKnown : Bool
  reads : Fin 4 → Bool
  blockReady : Bool
  allocated : Bool
  block : MemBlock
  payloadsValid : Bool
  exeLoadFunctionSet : Bool
  listsTitle : Bool
  loadChecksum : UInt32
  mounted : Bool
  mapped : Bool
  overwritten : UInt32 → Nat → PluginFileHeader → PluginFileHeader

/-- A range of addresses: where it starts, and its length. -/
abbrev AddressRange := UInt32 × Nat

/-- Two ranges have no address in common. -/
def Apart (r r' : AddressRange) : Prop := r.2 = 0 ∨ r'.2 = 0 ∨ r.1.toNat + r.2 ≤ r'.1.toNat ∨ r'.1.toNat + r'.2 ≤ r.1.toNat

instance (r r' : AddressRange) : Decidable (Apart r r') :=
  inferInstanceAs (Decidable (_ ∨ _ ∨ _ ∨ _))

/-- A range is part of another one, if it is not empty. -/
def Within (r r' : AddressRange) : Prop := r.2 = 0 ∨ r'.1.toNat ≤ r.1.toNat ∧ r.1.toNat + r.2 ≤ r'.1.toNat + r'.2

instance (r r' : AddressRange) : Decidable (Within r r') := inferInstanceAs (Decidable (_ ∨ _ ∧ _))

instance neZero_four : NeZero 4 := ⟨by decide⟩

/-! ## Loading -/

/-- The parked header, and the ranges that data of the file has been written to. -/
structure PluginLoadState where
  header : PluginFileHeader
  data : List AddressRange

namespace PluginFile

variable (file : PluginFile) (env : PluginEnv)

/-- `g_memBlockSize`. -/
def blockSize : UInt32 := memRegionSizes file.header.memoryRegionSize

def blockRange : AddressRange := (env.block.address, file.blockSize.toNat)

/-- Where the header is parked. -/
def headerAddress : UInt32 := env.block.address + file.blockSize - file.size.toUInt32

def headerRange : AddressRange := (file.headerAddress env, fileHeaderSize.toNat)

/-- Data is written, maybe over the header. -/
def put (st : PluginLoadState) (r : AddressRange) : PluginLoadState where
  header := if Apart r (file.headerRange env) then st.header else env.overwritten r.1 r.2 st.header
  data := st.data ++ [r]

/-- `IFile_Read`. -/
def read (st : PluginLoadState) (dst pos len : UInt32) : PluginLoadState := file.put env st (dst, file.available pos len)

/-- The author is read. -/
def readAuthor : PluginLoadState :=
  let st : PluginLoadState := ⟨file.header, []⟩
  let dst := file.headerAddress env + fileHeaderSize
  let st := file.read env st dst st.header.authorMsg st.header.authorLen
  { st with header.authorMsg := dst }

/-- Then the title. -/
def readTitle : PluginLoadState :=
  let st := file.readAuthor env
  let dst := file.headerAddress env + fileHeaderSize + st.header.authorLen
  let st := file.read env st dst st.header.titleMsg st.header.titleLen
  { st with header.titleMsg := dst }

/-- An address is rounded up to the next multiple of four above it. -/
def alignTargets (dst : UInt32) : UInt32 := dst + (4 - (dst &&& 3))

/-- `Read_3gx_ParseHeader`: at last, the titles that the plugin is for. -/
def parseHeader : PluginLoadState :=
  let st := file.readTitle env
  let dst := alignTargets (st.header.titleMsg + st.header.titleLen)
  let st := file.read env st dst st.header.targetsTitles (st.header.targetsCount * 4)
  { st with header.targetsTitles := dst }

end PluginFile

/-- The size of what is loaded of a file. -/
def PluginFileHeader.segmentsSize (header : PluginFileHeader) : UInt32 := header.codeSize + header.rodataSize + header.dataSize

/-- `exeSize`. -/
def PluginFileHeader.exeSize (header : PluginFileHeader) : UInt32 :=
  (pluginHeaderSize + header.codeSize + header.rodataSize + header.dataSize + header.bssSize + 0x1000) &&& ~~~0xFFF

namespace PluginFile

variable (file : PluginFile) (env : PluginEnv)

def codeAddress : UInt32 := env.block.address + pluginHeaderSize

/-- `Read_3gx_LoadSegments`: the segments are read, and the load function is given their whole range. -/
def loadSegments : PluginLoadState :=
  let st := file.parseHeader env
  let size := st.header.segmentsSize
  let st := file.read env st (codeAddress env) st.header.codeOffset size
  file.put env st (codeAddress env, size.toNat)

end PluginFile

/-- Why a plugin is not loaded. -/
inductive PluginError
  | notOpened
  | fileSize
  | readFile
  | invalidFile
  | outdatedPlugin
  | outdatedLoader
  | onlyEmulators
  | notForHomebrew
  | setBlockSize
  | allocate
  | payloads
  | incompatible
  | readCode
  | noLoadFunction
  | corrupted
  | mount
  | mapProcess
  deriving DecidableEq

/-- `invertEndianness`. -/
def invertEndianness (val : UInt32) : UInt32 :=
  ((val &&& 0xFF) <<< 24) ||| ((val &&& 0xFF00) <<< 8) ||| ((val &&& 0xFF0000) >>> 8) ||| ((val &&& 0xFF000000) >>> 24)

namespace PluginFile

variable (file : PluginFile) (env : PluginEnv)

/-- `verDif`. -/
def versionDifference : Int32 :=
  (invertEndianness (file.magic >>> 32).toUInt32 - invertEndianness (pluginMagic >>> 32).toUInt32).toInt32

/-- The checks of `TryToLoadPlugin`, in their order, with what is said if they fail. -/
def checks : List (Bool × PluginError) :=
  let parsed := (file.parseHeader env).header
  [(env.opened, .notOpened), (env.sizeKnown, .fileSize), (env.reads 0, .readFile),
    (file.magic.toUInt32 = pluginMagic.toUInt32, .invalidFile), (file.versionDifference ≥ 0, .outdatedPlugin),
    (file.versionDifference ≤ 0, .outdatedLoader), (env.reads 1, .readFile), (file.header.compatibility ≠ 1, .onlyEmulators),
    (!env.isHomebrew || file.header.allowHomebrewLoad, .notForHomebrew), (!env.blockReady, .setBlockSize),
    (env.allocated, .allocate), (env.reads 2, .readFile),
    ((!parsed.embeddedExeLoadFunc && !parsed.embeddedSwapSaveLoadFunc) || env.payloadsValid, .payloads),
    (parsed.targetsCount = 0 || env.listsTitle, .incompatible), (env.reads 3, .readCode),
    (env.exeLoadFunctionSet || parsed.embeddedExeLoadFunc, .noLoadFunction),
    (env.loadChecksum = parsed.exeLoadChecksum, .corrupted), (env.mounted, .mount), (env.mapped, .mapProcess)]

end PluginFile

/-- A plugin that has been loaded: its header as it is parked in the end, the ranges of its data, all ranges that have been
written to, and the sizes of its `PluginHeader`. -/
structure LoadedPlugin where
  header : PluginFileHeader
  data : List AddressRange
  writes : List AddressRange
  version : UInt32
  exeSize : UInt32
  heapSize : UInt32

namespace PluginFile

variable (file : PluginFile) (env : PluginEnv)

/-- What `TryToLoadPlugin` does to the memory block of a plugin that it accepts. -/
def loaded : LoadedPlugin :=
  let st := file.loadSegments env
  let exeSize := st.header.exeSize
  let heapSize := file.blockSize - exeSize
  { header := st.header
    data := st.data
    writes := [file.blockRange env, file.headerRange env] ++ st.data ++
      [(env.block.address, pluginHeaderSize.toNat), (env.block.address + exeSize, heapSize.toNat)]
    version := st.header.version
    exeSize := exeSize
    heapSize := heapSize }

/-- `TryToLoadPlugin`. -/
def tryToLoad : Except PluginError LoadedPlugin :=
  match (file.checks env).find? fun check => !check.1 with
  | some (_, e) => .error e
  | none => .ok (file.loaded env)

end PluginFile

/-! ## What is to hold of a plugin -/

/-- A plugin is loaded within its block, its header is not written over while it is in use, and the block is divided into
pages for the executable and for the heap. -/
structure LoadedPlugin.Placed (plugin : LoadedPlugin) (file : PluginFile) (env : PluginEnv) : Prop where
  within : ∀ r ∈ plugin.writes, Within r (file.blockRange env)
  kept : ∀ r ∈ plugin.data, Apart r (file.headerRange env)
  sizes : plugin.header.exeSize = file.header.exeSize ∧ plugin.header.segmentsSize = file.header.segmentsSize
  pages : plugin.exeSize.toNat % 0x1000 = 0 ∧ plugin.heapSize.toNat % 0x1000 = 0
  whole : plugin.exeSize.toNat + plugin.heapSize.toNat = file.blockSize.toNat

namespace PluginFile

variable (file : PluginFile) (env : PluginEnv)

/-- Data may be written to a range: it is within the block, and not over the header. -/
def Clear (r : AddressRange) : Prop := Within r (file.blockRange env) ∧ Apart r (file.headerRange env)

instance (r : AddressRange) : Decidable (file.Clear env r) := inferInstanceAs (Decidable (_ ∧ _))

/-- Where the file has the author, the title and the list of titles put. -/
def authorRange : AddressRange :=
  (file.headerAddress env + fileHeaderSize, file.available file.header.authorMsg file.header.authorLen)

def titleRange : AddressRange :=
  (file.headerAddress env + fileHeaderSize + file.header.authorLen, file.available file.header.titleMsg file.header.titleLen)

def targetsRange : AddressRange :=
  (alignTargets (file.headerAddress env + fileHeaderSize + file.header.authorLen + file.header.titleLen),
    file.available file.header.targetsTitles (file.header.targetsCount * 4))

/-- The header fits between the start and the end of the block, its strings behind it; the segments are before it, or all of
it is before them; and with their `bss` they are not larger than the block. -/
structure Fits : Prop where
  header : fileHeaderSize ≤ file.size.toUInt32 ∧ file.size.toUInt32 ≤ file.blockSize
  author : file.Clear env (file.authorRange env)
  title : file.Clear env (file.titleRange env)
  targets : file.Clear env (file.targetsRange env)
  segments : file.header.segmentsSize.toNat = 0 ∨ 0x100 + file.header.segmentsSize.toNat ≤ file.blockSize.toNat ∧
    (0x100 + file.header.segmentsSize.toNat + file.size.toUInt32.toNat ≤ file.blockSize.toNat ∨
      file.blockSize.toNat + 0x94 ≤ 0x100 + file.size.toUInt32.toNat)
  exe : file.header.exeSize ≤ file.blockSize

end PluginFile

/-! ## The parked header -/

namespace PluginFile

variable {file : PluginFile} {env : PluginEnv}

theorem blockSize_facts (file : PluginFile) : file.blockSize.toNat % 0x1000 = 0 ∧ 0x100 ≤ file.blockSize.toNat ∧
    file.blockSize.toNat ≤ 10 * 1024 * 1024 := by
  unfold blockSize memRegionSizes
  generalize file.header.memoryRegionSize = i
  fin_cases i <;> exact ⟨by decide, by decide, by decide⟩

/-- The header is in the block exactly if it is not larger than the file, and the file not larger than the block. -/
theorem headerRange_within (file : PluginFile) (env : PluginEnv) : Within (file.headerRange env) (file.blockRange env) ↔
    fileHeaderSize ≤ file.size.toUInt32 ∧ file.size.toUInt32 ≤ file.blockSize := by
  obtain ⟨-, -, hblock⟩ := file.blockSize_facts
  have hfits := env.block.fits
  have hsize := file.size.toUInt32.toNat_lt
  have haddress : (file.headerAddress env).toNat =
      (2 ^ 32 - file.size.toUInt32.toNat + (env.block.address.toNat + file.blockSize.toNat)) % 2 ^ 32 := by
    unfold headerAddress
    rw [UInt32.toNat_sub, UInt32.toNat_add, Nat.mod_eq_of_lt (a := env.block.address.toNat + file.blockSize.toNat) (by omega)]
  have hheader : fileHeaderSize.toNat = 0x94 := rfl
  rw [UInt32.le_iff_toNat_le, UInt32.le_iff_toNat_le]
  unfold Within headerRange blockRange
  dsimp only
  rw [haddress, hheader]
  omega

theorem headerAddress_toNat (env : PluginEnv) (h : file.size.toUInt32 ≤ file.blockSize) :
    (file.headerAddress env).toNat + file.size.toUInt32.toNat = env.block.address.toNat + file.blockSize.toNat := by
  obtain ⟨-, -, hblock⟩ := file.blockSize_facts
  have hfits := env.block.fits
  rw [UInt32.le_iff_toNat_le] at h
  unfold headerAddress
  rw [UInt32.toNat_sub, UInt32.toNat_add, Nat.mod_eq_of_lt (a := env.block.address.toNat + file.blockSize.toNat) (by omega)]
  omega

theorem put_header (st : PluginLoadState) {r : AddressRange} (h : Apart r (file.headerRange env)) :
    (file.put env st r).header = st.header := if_pos h

/-- The header, once the author has been read. -/
def authored (file : PluginFile) (env : PluginEnv) : PluginFileHeader :=
  { file.header with authorMsg := file.headerAddress env + fileHeaderSize }

/-- Once the title has. -/
def titled (file : PluginFile) (env : PluginEnv) : PluginFileHeader :=
  { file.authored env with titleMsg := file.headerAddress env + fileHeaderSize + file.header.authorLen }

/-- Once the list of titles has. -/
def parsed (file : PluginFile) (env : PluginEnv) : PluginFileHeader :=
  { file.titled env with
    targetsTitles := alignTargets (file.headerAddress env + fileHeaderSize + file.header.authorLen + file.header.titleLen) }

theorem readAuthor_data (file : PluginFile) (env : PluginEnv) : (file.readAuthor env).data = [file.authorRange env] := rfl

theorem readAuthor_header (h : Apart (file.authorRange env) (file.headerRange env)) :
    (file.readAuthor env).header = file.authored env := by
  have hput := put_header ⟨file.header, []⟩ h
  unfold readAuthor authored read
  dsimp only
  unfold authorRange at hput
  rw [hput]

/-- The title is put where the header says, if the author has not been put over it. -/
theorem readTitle_data (h : Apart (file.authorRange env) (file.headerRange env)) :
    (file.readTitle env).data = [file.authorRange env, file.titleRange env] := by
  have hdata : (file.readTitle env).data = (file.readAuthor env).data ++
      [(file.headerAddress env + fileHeaderSize + (file.readAuthor env).header.authorLen,
        file.available (file.readAuthor env).header.titleMsg (file.readAuthor env).header.titleLen)] := rfl
  rw [hdata, readAuthor_data, readAuthor_header h]
  rfl

theorem readTitle_header (h : Apart (file.authorRange env) (file.headerRange env))
    (h' : Apart (file.titleRange env) (file.headerRange env)) : (file.readTitle env).header = file.titled env := by
  have hput := put_header (file.readAuthor env) h'
  unfold readTitle titled read
  dsimp only
  unfold titleRange at hput
  rw [readAuthor_header h] at hput ⊢
  have hauthored : (file.put env (file.readAuthor env) (file.headerAddress env + fileHeaderSize + (file.authored env).authorLen,
      file.available (file.authored env).titleMsg (file.authored env).titleLen)).header = file.authored env := hput
  rw [hauthored]
  rfl

theorem parseHeader_data (h : Apart (file.authorRange env) (file.headerRange env))
    (h' : Apart (file.titleRange env) (file.headerRange env)) :
    (file.parseHeader env).data = [file.authorRange env, file.titleRange env, file.targetsRange env] := by
  have hdata : (file.parseHeader env).data = (file.readTitle env).data ++
      [(alignTargets ((file.readTitle env).header.titleMsg + (file.readTitle env).header.titleLen),
        file.available (file.readTitle env).header.targetsTitles ((file.readTitle env).header.targetsCount * 4))] := rfl
  rw [hdata, readTitle_data h, readTitle_header h h']
  rfl

theorem parseHeader_header (h : Apart (file.authorRange env) (file.headerRange env))
    (h' : Apart (file.titleRange env) (file.headerRange env)) (h'' : Apart (file.targetsRange env) (file.headerRange env)) :
    (file.parseHeader env).header = file.parsed env := by
  have hput := put_header (file.readTitle env) h''
  unfold parseHeader parsed read
  dsimp only
  unfold targetsRange at hput
  rw [readTitle_header h h'] at hput ⊢
  have htitled : (file.put env (file.readTitle env) (alignTargets ((file.titled env).titleMsg + (file.titled env).titleLen),
      file.available (file.titled env).targetsTitles ((file.titled env).targetsCount * 4))).header = file.titled env := hput
  rw [htitled]
  rfl

/-! ## The segments -/

/-- What the load function is given. -/
def segmentsRange (file : PluginFile) (env : PluginEnv) : AddressRange := (codeAddress env, file.header.segmentsSize.toNat)

/-- What is read. -/
def codeRange (file : PluginFile) (env : PluginEnv) : AddressRange :=
  (codeAddress env, file.available file.header.codeOffset file.header.segmentsSize)

theorem codeAddress_toNat (env : PluginEnv) : (codeAddress env).toNat = env.block.address.toNat + 0x100 := by
  have hfits := env.block.fits
  have hheader : pluginHeaderSize.toNat = 0x100 := rfl
  unfold codeAddress
  rw [UInt32.toNat_add, hheader, Nat.mod_eq_of_lt (by omega)]

/-- Not more is read than the load function is given. -/
theorem codeRange_le (file : PluginFile) (env : PluginEnv) : (file.codeRange env).2 ≤ (file.segmentsRange env).2 := min_le_left _ _

theorem within_of_le {a : UInt32} {n n' : Nat} {r : AddressRange} (hle : n ≤ n') (h : Within (a, n') r) : Within (a, n) r := by
  rcases h with hempty | ⟨hstart, hend⟩
  · exact .inl (Nat.le_zero.mp (hle.trans hempty.le))
  · refine .inr ⟨hstart, ?_⟩
    dsimp only at hend ⊢
    omega

theorem apart_of_le {a : UInt32} {n n' : Nat} {r : AddressRange} (hle : n ≤ n') (h : Apart (a, n') r) : Apart (a, n) r := by
  unfold Apart at h ⊢
  dsimp only at h ⊢
  omega

/-- The segments are clear of the header exactly if they are before it, or behind all of it. -/
theorem segmentsRange_clear (env : PluginEnv) (hheader : fileHeaderSize ≤ file.size.toUInt32 ∧ file.size.toUInt32 ≤ file.blockSize) :
    file.Clear env (file.segmentsRange env) ↔
      file.header.segmentsSize.toNat = 0 ∨ 0x100 + file.header.segmentsSize.toNat ≤ file.blockSize.toNat ∧
        (0x100 + file.header.segmentsSize.toNat + file.size.toUInt32.toNat ≤ file.blockSize.toNat ∨
          file.blockSize.toNat + 0x94 ≤ 0x100 + file.size.toUInt32.toNat) := by
  have haddress := headerAddress_toNat env hheader.2
  have hsize := UInt32.le_iff_toNat_le.mp hheader.1
  have hcode := codeAddress_toNat env
  have hlength : fileHeaderSize.toNat = 0x94 := rfl
  unfold Clear Within Apart segmentsRange headerRange blockRange
  dsimp only
  rw [hcode, hlength]
  rw [hlength] at hsize
  omega

theorem loadSegments_data (h : Apart (file.authorRange env) (file.headerRange env))
    (h' : Apart (file.titleRange env) (file.headerRange env)) (h'' : Apart (file.targetsRange env) (file.headerRange env)) :
    (file.loadSegments env).data = [file.authorRange env, file.titleRange env, file.targetsRange env, file.codeRange env,
      file.segmentsRange env] := by
  have hdata : (file.loadSegments env).data = (file.parseHeader env).data ++
      [(codeAddress env, file.available (file.parseHeader env).header.codeOffset (file.parseHeader env).header.segmentsSize)] ++
      [(codeAddress env, (file.parseHeader env).header.segmentsSize.toNat)] := rfl
  rw [hdata, parseHeader_data h h', parseHeader_header h h' h'']
  rfl

theorem loadSegments_header (h : Apart (file.authorRange env) (file.headerRange env))
    (h' : Apart (file.titleRange env) (file.headerRange env)) (h'' : Apart (file.targetsRange env) (file.headerRange env))
    (hsegments : Apart (file.segmentsRange env) (file.headerRange env)) :
    (file.loadSegments env).header = file.parsed env := by
  have hcode : Apart (file.codeRange env) (file.headerRange env) := apart_of_le (codeRange_le file env) hsegments
  have hparsed := parseHeader_header h h' h''
  have hread : (file.put env (file.parseHeader env) (file.codeRange env)).header = file.parsed env := by
    rw [put_header _ hcode, hparsed]
  have hloaded : (file.loadSegments env).header = (file.put env (file.put env (file.parseHeader env)
      (codeAddress env, file.available (file.parseHeader env).header.codeOffset (file.parseHeader env).header.segmentsSize))
      (codeAddress env, (file.parseHeader env).header.segmentsSize.toNat)).header := rfl
  rw [hloaded, hparsed]
  exact (put_header _ hsegments).trans hread

/-! ## The sizes -/

theorem exeSize_mod (header : PluginFileHeader) : header.exeSize.toNat % 0x1000 = 0 := by
  unfold PluginFileHeader.exeSize
  rw [toNat_and_not_0xFFF]
  omega

/-- The heap is what is left of the block exactly if there is room for the executable. -/
theorem heapSize_iff (file : PluginFile) (exeSize : UInt32) :
    exeSize.toNat + (file.blockSize - exeSize).toNat = file.blockSize.toNat ↔ exeSize ≤ file.blockSize := by
  have hexe := exeSize.toNat_lt
  have hblock := file.blockSize.toNat_lt
  rw [UInt32.le_iff_toNat_le, UInt32.toNat_sub]
  omega

theorem heapSize_mod (file : PluginFile) {exeSize : UInt32} (h : exeSize.toNat % 0x1000 = 0) :
    (file.blockSize - exeSize).toNat % 0x1000 = 0 := by
  obtain ⟨hblock, -, -⟩ := file.blockSize_facts
  have hexe := exeSize.toNat_lt
  rw [UInt32.toNat_sub]
  omega

/-! ## Plugins that are accepted -/

theorem tryToLoad_eq {plugin : LoadedPlugin} (h : file.tryToLoad env = .ok plugin) : plugin = file.loaded env := by
  unfold tryToLoad at h
  split at h
  · cases h
  · exact (Except.ok.inj h).symm

theorem loaded_header (file : PluginFile) (env : PluginEnv) : (file.loaded env).header = (file.loadSegments env).header := by
  unfold loaded
  dsimp only

theorem loaded_data (file : PluginFile) (env : PluginEnv) : (file.loaded env).data = (file.loadSegments env).data := by
  unfold loaded
  rfl

theorem loaded_exeSize (file : PluginFile) (env : PluginEnv) :
    (file.loaded env).exeSize = (file.loadSegments env).header.exeSize := by
  unfold loaded
  rfl

theorem loaded_heapSize (file : PluginFile) (env : PluginEnv) :
    (file.loaded env).heapSize = file.blockSize - (file.loadSegments env).header.exeSize := by
  unfold loaded
  rfl

theorem mem_writes {r : AddressRange} : r ∈ (file.loaded env).writes ↔ r = file.blockRange env ∨ r = file.headerRange env ∨
    r ∈ (file.loadSegments env).data ∨ r = (env.block.address, pluginHeaderSize.toNat) ∨
    r = (env.block.address + (file.loadSegments env).header.exeSize,
      (file.blockSize - (file.loadSegments env).header.exeSize).toNat) := by
  unfold loaded
  simp only [List.mem_append, List.mem_cons, List.not_mem_nil, or_false, or_assoc]

/-- The `PluginHeader` and the heap are within the block, if the executable is not larger than it. -/
theorem pluginHeader_within (file : PluginFile) (env : PluginEnv) :
    Within (env.block.address, pluginHeaderSize.toNat) (file.blockRange env) := by
  obtain ⟨-, hroom, -⟩ := file.blockSize_facts
  have hheader : pluginHeaderSize.toNat = 0x100 := rfl
  unfold Within blockRange
  dsimp only
  omega

theorem heap_within {exeSize : UInt32} (h : exeSize ≤ file.blockSize) :
    Within (env.block.address + exeSize, (file.blockSize - exeSize).toNat) (file.blockRange env) := by
  obtain ⟨-, -, hsmall⟩ := file.blockSize_facts
  have hfits := env.block.fits
  have hwhole := (heapSize_iff file exeSize).mpr h
  unfold Within blockRange
  dsimp only
  rw [UInt32.toNat_add, Nat.mod_eq_of_lt (by omega)]
  omega

theorem Fits.placed (h : file.Fits env) : (file.loaded env).Placed file env := by
  have hsegments := (segmentsRange_clear env h.header).mpr h.segments
  have hdata := loadSegments_data h.author.2 h.title.2 h.targets.2
  have hheader := loadSegments_header h.author.2 h.title.2 h.targets.2 hsegments.2
  have hclear : ∀ r ∈ (file.loadSegments env).data, file.Clear env r := by
    intro r hr
    rw [hdata] at hr
    simp only [List.mem_cons, List.not_mem_nil, or_false] at hr
    rcases hr with rfl | rfl | rfl | rfl | rfl
    · exact h.author
    · exact h.title
    · exact h.targets
    · exact ⟨within_of_le (codeRange_le file env) hsegments.1, apart_of_le (codeRange_le file env) hsegments.2⟩
    · exact hsegments
  have hexe : (file.loadSegments env).header.exeSize = file.header.exeSize := by rw [hheader]; rfl
  have hsize : (file.loadSegments env).header.segmentsSize = file.header.segmentsSize := by rw [hheader]; rfl
  have hmod := exeSize_mod file.header
  constructor
  · intro r hr
    rcases mem_writes.mp hr with rfl | rfl | hfile | rfl | rfl
    · exact .inr ⟨le_rfl, le_rfl⟩
    · exact (headerRange_within file env).mpr h.header
    · exact (hclear r hfile).1
    · exact pluginHeader_within file env
    · rw [hexe]
      exact heap_within h.exe
  · intro r hr
    rw [loaded_data] at hr
    exact (hclear r hr).2
  · rw [loaded_header]
    exact ⟨hexe, hsize⟩
  · rw [loaded_exeSize, loaded_heapSize, hexe]
    exact ⟨hmod, heapSize_mod file hmod⟩
  · rw [loaded_exeSize, loaded_heapSize, hexe]
    exact (heapSize_iff file file.header.exeSize).mpr h.exe

/-- The data that is written for the strings stays, whatever is read next. -/
theorem mem_loadSegments_data {r : AddressRange} (h : r ∈ (file.parseHeader env).data) : r ∈ (file.loadSegments env).data :=
  List.mem_append_left _ (List.mem_append_left _ h)

theorem Placed.fits (h : (file.loaded env).Placed file env) : file.Fits env := by
  have hclear : ∀ r ∈ (file.loadSegments env).data, file.Clear env r := fun r hr =>
    ⟨h.within r (mem_writes.mpr (.inr (.inr (.inl hr)))), h.kept r (loaded_data file env ▸ hr)⟩
  have hheader : Within (file.headerRange env) (file.blockRange env) := h.within _ (mem_writes.mpr (.inr (.inl rfl)))
  -- each range is where the file has it, as the ones before have left the header alone
  have hauthor : file.Clear env (file.authorRange env) := by
    apply hclear
    apply mem_loadSegments_data
    apply List.mem_append_left
    apply List.mem_append_left
    rw [readAuthor_data]
    exact List.mem_cons_self
  have htitle : file.Clear env (file.titleRange env) := by
    apply hclear
    apply mem_loadSegments_data
    apply List.mem_append_left
    rw [readTitle_data hauthor.2]
    exact List.mem_cons_of_mem _ List.mem_cons_self
  have htargets : file.Clear env (file.targetsRange env) := by
    apply hclear
    apply mem_loadSegments_data
    rw [parseHeader_data hauthor.2 htitle.2]
    simp
  have hsegments : file.Clear env (file.segmentsRange env) := by
    apply hclear
    rw [loadSegments_data hauthor.2 htitle.2 htargets.2]
    simp
  have hsizes := (headerRange_within file env).mp hheader
  refine ⟨hsizes, hauthor, htitle, htargets, (segmentsRange_clear env hsizes).mp hsegments, ?_⟩
  have hexe := h.sizes.1
  have hwhole := h.whole
  rw [loaded_header] at hexe
  rw [loaded_exeSize, loaded_heapSize, hexe] at hwhole
  exact (heapSize_iff file file.header.exeSize).mp hwhole

end PluginFile

/-- A plugin that is accepted is placed as it is to be exactly if its sizes fit. -/
theorem plugin_placed_iff (file : PluginFile) (env : PluginEnv) (plugin : LoadedPlugin) (h : file.tryToLoad env = .ok plugin) :
    plugin.Placed file env ↔ file.Fits env := by
  obtain rfl := PluginFile.tryToLoad_eq h
  exact ⟨PluginFile.Placed.fits, PluginFile.Fits.placed⟩

/-! ## A small plugin, and a large one -/

/-- All calls succeed; what has been written over the header reads as zero segments. -/
def pluginEnv : PluginEnv where
  isHomebrew := false
  opened := true
  sizeKnown := true
  reads := fun _ => true
  blockReady := false
  allocated := true
  block := ⟨0x30000000, by decide⟩
  payloadsValid := true
  exeLoadFunctionSet := false
  listsTitle := false
  loadChecksum := 0
  mounted := true
  mapped := true
  overwritten _ _ header := { header with codeSize := 0, rodataSize := 0, dataSize := 0, bssSize := 0 }

/-- A plugin for all titles, in a block of 5 MiB, with a file of a size and as much code. -/
def codePlugin (size : UInt64) (codeSize : UInt32) : PluginFile where
  size := size
  magic := pluginMagic
  header := {
    version := 1
    authorLen := 8
    authorMsg := 0x94
    titleLen := 8
    titleMsg := 0x9C
    embeddedExeLoadFunc := true
    embeddedSwapSaveLoadFunc := false
    memoryRegionSize := 0
    compatibility := 0
    allowHomebrewLoad := false
    exeLoadChecksum := 0
    codeOffset := 0x100
    codeSize := codeSize
    rodataSize := 0
    dataSize := 0
    bssSize := 0x1000
    targetsCount := 0
    targetsTitles := 0 }

/-- A plugin of a few pages is placed as it is to be. -/
theorem small_plugin_placed : ∃ plugin, (codePlugin 0x8000 0x6000).tryToLoad pluginEnv = .ok plugin ∧
    plugin.Placed (codePlugin 0x8000 0x6000) pluginEnv := by
  have hfits : (codePlugin 0x8000 0x6000).Fits pluginEnv :=
    ⟨by decide, by decide, by decide, by decide, by decide, by decide⟩
  have hok : (codePlugin 0x8000 0x6000).tryToLoad pluginEnv = .ok ((codePlugin 0x8000 0x6000).loaded pluginEnv) := by
    have hchecks : ((codePlugin 0x8000 0x6000).checks pluginEnv).find? (fun check => !check.1) = none := by decide
    unfold PluginFile.tryToLoad
    rw [hchecks]
  exact ⟨_, hok, (plugin_placed_iff _ _ _ hok).mpr hfits⟩

/-- The code of a plugin of 3 MiB reaches the header, whose sizes are used after it. -/
theorem large_plugin_overwrites_header : ∃ plugin, (codePlugin 0x300000 0x280000).tryToLoad pluginEnv = .ok plugin ∧
    plugin.exeSize = 0x1000 ∧ (codePlugin 0x300000 0x280000).header.exeSize = 0x282000 ∧
    ¬ plugin.Placed (codePlugin 0x300000 0x280000) pluginEnv := by
  have hok : (codePlugin 0x300000 0x280000).tryToLoad pluginEnv = .ok ((codePlugin 0x300000 0x280000).loaded pluginEnv) := by
    have hchecks : ((codePlugin 0x300000 0x280000).checks pluginEnv).find? (fun check => !check.1) = none := by decide
    unfold PluginFile.tryToLoad
    rw [hchecks]
  have hexe : ((codePlugin 0x300000 0x280000).loaded pluginEnv).exeSize = 0x1000 := by decide
  have hsize : (codePlugin 0x300000 0x280000).header.exeSize = 0x282000 := by decide
  refine ⟨_, hok, hexe, hsize, fun hplaced => ?_⟩
  have hsizes := hplaced.sizes.1
  have hused : ((codePlugin 0x300000 0x280000).loaded pluginEnv).header.exeSize = 0x1000 := by decide
  rw [hused, hsize] at hsizes
  exact absurd hsizes (by decide)

end Omiiba.Rosalina
