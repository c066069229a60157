/-
The caches of loader.c: the exheader of the program asked for last, and the CXI file of a system module that is
open, with its NCCH header; and the four commands that use them.
-/
import Omiiba.Lib.Effects
import Omiiba.Lib.System
import Omiiba.Loader.Lzss
import Omiiba.Loader.TitlePath

namespace Omiiba.Loader.Programs

open Memory

/-! ## Handles -/

/-- `SYSMODULE_CXI_COOKIE_MASK`. -/
def sysmoduleCxiCookieMask : UInt64 := 0xEEEE000000000000

/-- `(u32)` of an id. -/
def low (id : UInt64) : UInt64 := id &&& 0xFFFFFFFF

def isApplicationId (tid : UInt64) : Bool := tid >>> 32 == 0x00040000

def isSysmoduleCxiCookie (programHandle : UInt64) : Bool := programHandle >>> 32 == sysmoduleCxiCookieMask >>> 32

/-- The handle that `RegisterProgram` makes for the CXI of a system module. -/
def cookieOf (titleId : UInt64) : UInt64 := sysmoduleCxiCookieMask ||| low (clearN3dsBit titleId)

/-- The title that `GetProgramInfoImpl` makes of such a handle. -/
def titleOf (programHandle : UInt64) : UInt64 := 0x0004013000000000 ||| low programHandle

/-! ## Surroundings -/

/-- What is read of an `ExHeader_Info`, a structure of the system library that has `size` bytes. -/
structure ExHeaderLayout where
  size : UInt32
  titleId : List UInt8 → UInt64
  withTitleId : UInt64 → List UInt8 → List UInt8
  withO3dsSystemMode : UInt8 → List UInt8 → List UInt8
  withN3dsSystemMode : UInt8 → List UInt8 → List UInt8
  compressed : List UInt8 → Bool
  textSize : List UInt8 → UInt32
  rodataSize : List UInt8 → UInt32
  dataSize : List UInt8 → UInt32
  descriptors : List UInt8 → List UInt32

/-- What stays as it is: the settings, the files in the folder of Omiiba, and the programs of the system. -/
structure Environment where
  layout : ExHeaderLayout
  loadExtFirmsAndModules : Bool
  patchGames : Bool
  o3dsMode : Option UInt8
  n3dsMode : Option UInt8
  sysmoduleCxi : UInt64 → Option (List UInt8)
  titleExheader : UInt64 → Option (List UInt8)
  titleCode : UInt64 → Option (List UInt8)
  /-- What FSREG (true) and PXIPM say of a program. -/
  programInfo : Bool → UInt64 → List UInt8
  /-- The `.code` of a program. -/
  content : UInt64 → List UInt8
  hbldrPatchExHeaderInfo : List UInt8 → List UInt8
  patchCode : List UInt8 → Memory UInt8 → Memory UInt8

/-- What can fail. -/
inductive Operation
  | openCxi
  | programInfo
  | openTitleExheader
  | readTitleExheader
  | register
  | unregister
  | allocate
  | openTitleCode
  | readTitleCode
  | content
  | makeProcess
  | hbldrLoadProcess
  deriving DecidableEq

/-- The reads of a CXI file. -/
inductive Reading
  | ncchHeader
  | exHeaderInfo
  | exeFsHeader
  | code
  deriving DecidableEq

/-- How the system answers while a command is handled: what fails with which result, how much of a file can be read,
which programs are loaded by HIO, the handle of a program registered, the title of the homebrew loader if it is used,
and what is in memory that is allocated. -/
structure Answers where
  fails : Operation → Option UInt32
  limit : Reading → Nat
  isHioId : UInt64 → Bool
  registered : UInt64
  hbldr3dsxTid : Option UInt64
  fresh : Memory UInt8

/-! ## Files -/

/-- What `IFile_ReadAt` gets of a file, nothing of one that is not open. -/
def readAt (limit : Nat) (file : Option (List UInt8)) (offset size : UInt32) : List UInt8 :=
  match file with
  | none => []
  | some bytes => ((bytes.drop offset.toNat).take size.toNat).take limit

/-- A buffer of `n` bytes, the first ones of which are read to. -/
def overwrite (n : Nat) (buffer bytes : List UInt8) : List UInt8 := (bytes ++ buffer.drop bytes.length).take n

def word (bytes : List UInt8) (offset : Nat) : UInt32 := UInt32.ofNat ((ofBytes bytes).load offset 4)

/-- `sizeof(Ncch)`. -/
def ncchSize : UInt32 := 0x200

/-- `sizeof(ExeFsHeader)`. -/
def exeFsHeaderSize : UInt32 := 0x200

/-- A shift of the processor, which looks at the last byte of the amount. -/
def lsl (a : UInt32) (n : Nat) : UInt32 := if n % 256 < 32 then a <<< UInt32.ofNat (n % 256) else 0

section

variable (ncch : List UInt8)

def exHeaderSize : UInt32 := word ncch 0x180
def contentUnitShift : Nat := 9 + ((ncch[0x18E]?).getD 0).toNat
def exeFsOffset : UInt32 := lsl (word ncch 0x1A0) (contentUnitShift ncch)
def exeFsSize : UInt32 := lsl (word ncch 0x1A4) (contentUnitShift ncch)

end

/-- The bytes of `".code"`. -/
def codeName : List UInt8 := [46, 99, 111, 100, 101, 0]

/-- The last file header of `.code`. -/
def codeHeader (exeFs : List UInt8) : Option (List UInt8) :=
  (((List.range 8).map fun i => exeFs.drop (16 * i)).filter fun fileHdr => fileHdr.take 6 = codeName).getLast?

/-- What is read, if it is there whole. -/
def readWhole (limit : Nat) (file : Option (List UInt8)) (offset size : UInt32) : Option (List UInt8) :=
  let bytes := readAt limit file offset size
  if bytes.length = size.toNat then some bytes else none

/-- `readSysmoduleCxiCode`; none for false. -/
def readSysmoduleCxiCode (limit : Reading → Nat) (maxSize : UInt32) (file : Option (List UInt8)) (ncch : List UInt8) :
    Option (List UInt8) :=
  if exeFsSize ncch < exeFsHeaderSize ∨ exeFsOffset ncch < 0x200 + exHeaderSize ncch then none
  else do
    let hdr ← readWhole (limit .exeFsHeader) file (exeFsOffset ncch) exeFsHeaderSize
    let codeHdr ← codeHeader hdr
    let size := word codeHdr 12
    if size > maxSize then none
    else readWhole (limit .code) file (exeFsOffset ncch + exeFsHeaderSize + word codeHdr 8) size

/-! ## The loader -/

/-- Code in the memory, for which program, and with which exheader. -/
structure Loaded where
  programHandle : UInt64
  exheader : List UInt8
  memory : Memory UInt8

/-- The caches, the file being none where its handle is 0, and the code that has been loaded. -/
structure LoaderState where
  cachedProgramHandle : UInt64
  exheaderInfo : List UInt8
  cxiFile : Option (List UInt8)
  cxiCookie : UInt64
  cxiNcch : List UInt8
  loaded : List Loaded

/-- A command, which ends with a panic or goes on. -/
abbrev LoaderM := ExceptT Unit (StateM LoaderState)

/-- A result that is a failure, or none. -/
abbrev Failure := Option UInt32

section

variable (env : Environment) (a : Answers)

def invalidateCachedCxiFile : LoaderM PUnit := modify fun s => { s with cxiFile := none, cxiCookie := 0 }

/-- The result of a file that is not there. -/
def notFound : UInt32 := 0xC8804478

/-- `openSysmoduleCxi`, for `g_cached_sysmoduleCxiFile`. -/
def openSysmoduleCxi (progId : UInt64) : LoaderM Failure :=
  match a.fails .openCxi, env.sysmoduleCxi (clearN3dsBit progId) with
  | some res, _ => pure (some res)
  | none, none => pure (some notFound)
  | none, some file => do
    modify fun s => { s with cxiFile := some file }
    pure none

def readSysmoduleCxiNcchHeader : LoaderM Bool := do
  let s ← get
  let bytes := readAt (a.limit .ncchHeader) s.cxiFile 0 ncchSize
  modify fun s => { s with cxiNcch := overwrite ncchSize.toNat s.cxiNcch bytes }
  pure (bytes.length = ncchSize.toNat)

/-- What is read behind the end of `g_exheaderInfo` is not looked at. -/
def readSysmoduleCxiExHeaderInfo : LoaderM Bool := do
  let s ← get
  let size := exHeaderSize s.cxiNcch
  if size < env.layout.size then pure false
  else
    let bytes := readAt (a.limit .exHeaderInfo) s.cxiFile ncchSize size
    modify fun s => { s with exheaderInfo := overwrite env.layout.size.toNat s.exheaderInfo bytes }
    pure (bytes.length = size.toNat)

def hbldrIs3dsxTitle (tid : UInt64) : Bool :=
  match a.hbldr3dsxTid with
  | none => false
  | some hbldrTid => (tid ^^^ hbldrTid) &&& ~~~0xF0000000 == 0

/-- Whether files of a title are looked for in the folder of Omiiba. -/
def loadsExternally (titleId : UInt64) : Bool :=
  env.patchGames && (if isSysmodule titleId then env.loadExtFirmsAndModules else true)

/-- The changes to what the system says of a program, where `external` is the exheader of the title found in the
folder. -/
def tweak (info : List UInt8) (external : Option (List UInt8)) : List UInt8 :=
  let originalTitleId := env.layout.titleId info
  let exheader :=
    if hbldrIs3dsxTitle a originalTitleId then env.hbldrPatchExHeaderInfo info
    else (external.map (env.layout.withTitleId originalTitleId)).getD info
  if isApplicationId originalTitleId then
    let exheader := (env.o3dsMode.map (env.layout.withO3dsSystemMode · exheader)).getD exheader
    (env.n3dsMode.map (env.layout.withN3dsSystemMode · exheader)).getD exheader
  else exheader

/-- A file in the folder of a title, none if it cannot be opened; the loader stops if it cannot be read. -/
def titleFile (opening reading : Operation) (file : Option (List UInt8)) : LoaderM (Option (List UInt8)) :=
  if (a.fails opening).isSome then pure none
  else if file.isSome ∧ (a.fails reading).isSome then throw ()
  else pure file

/-- The CXI file of a handle is opened, if it is not open. -/
def openCached (programHandle : UInt64) : LoaderM Failure := do
  let s ← get
  if s.cxiCookie ≠ programHandle then do
    invalidateCachedCxiFile
    let res ← openSysmoduleCxi env a (titleOf programHandle)
    if res.isSome then pure res
    else do
      modify fun s => { s with cxiCookie := programHandle }
      pure none
  else pure none

/-- The part of `GetProgramInfoImpl` for a system module that was opened from a CXI file. -/
def getCxiInfo (programHandle : UInt64) : LoaderM Failure := do
  let res ← openCached env a programHandle
  if res.isSome then pure res
  else
    let ok ← readSysmoduleCxiNcchHeader a
    if !ok then pure (some (-2))
    else
      let ok ← readSysmoduleCxiExHeaderInfo env a
      if !ok then pure (some (-2)) else pure none

/-- The other part of it. -/
def getTitleInfo (programHandle : UInt64) : LoaderM Failure :=
  match a.fails .programInfo with
  | some res => pure (some res)
  | none => do
    let info := env.programInfo (a.isHioId programHandle) programHandle
    let originalTitleId := env.layout.titleId info
    let external ← if !hbldrIs3dsxTitle a originalTitleId && loadsExternally env originalTitleId then
        titleFile a .openTitleExheader .readTitleExheader (env.titleExheader originalTitleId)
      else pure none
    modify fun s => { s with exheaderInfo := tweak env a info external }
    pure none

def getProgramInfoImpl (programHandle : UInt64) : LoaderM Failure :=
  if isSysmoduleCxiCookie programHandle then getCxiInfo env a programHandle else getTitleInfo env a programHandle

/-- The info of a program is in the cache, and is not read again. -/
def LoaderState.hasInfo (s : LoaderState) (programHandle : UInt64) : Bool :=
  programHandle = s.cachedProgramHandle && !hbldrIs3dsxTitle a (env.layout.titleId s.exheaderInfo)

def getProgramInfo (programHandle : UInt64) : LoaderM Failure := do
  let s ← get
  if s.hasInfo env a programHandle then pure none
  else
    let res ← getProgramInfoImpl env a programHandle
    modify fun s => { s with cachedProgramHandle := if res.isNone then programHandle else 0 }
    pure res

/-- `total_size`, in pages. -/
def pagesOf (exheader : List UInt8) : UInt32 :=
  totalSize (env.layout.textSize exheader) (env.layout.rodataSize exheader) (env.layout.dataSize exheader)

/-- The memory with code in it, decompressed if it has to be. -/
def image (exheader code : List UInt8) (decompress : Bool) (fresh : Memory UInt8) : Memory UInt8 :=
  let mem := fresh.store textAddr.toNat code
  if decompress && env.layout.compressed exheader then (lzssDecompress mem (textAddr + UInt32.ofNat code.length)).mem
  else mem

/-- The part of `loadCode` for a system module that was opened from a CXI file. -/
def loadCxiCode (exheader : List UInt8) : LoaderM (Option (Memory UInt8)) := do
  let s ← get
  match readSysmoduleCxiCode a.limit (pagesOf env exheader <<< 12) s.cxiFile s.cxiNcch with
  | none => pure none
  | some code =>
    invalidateCachedCxiFile
    pure (some (image env exheader code true a.fresh))

/-- The code of a title: that found in the folder of Omiiba, or that of the program. -/
def titleImage (exheader : List UInt8) (programHandle : UInt64) (external : Option (List UInt8)) :
    LoaderM (Option (Memory UInt8)) :=
  match external with
  | some code =>
    if code.length > (pagesOf env exheader <<< 12).toNat then throw ()
    else pure (some (env.patchCode exheader (image env exheader code false a.fresh)))
  | none =>
    if (a.fails .content).isSome then throw ()
    else if (env.content programHandle).length > (pagesOf env exheader).toNat * 2 ^ 12 then pure none
    else pure (some (env.patchCode exheader (image env exheader (env.content programHandle) true a.fresh)))

/-- The other part of it. -/
def loadTitleCode (exheader : List UInt8) (programHandle : UInt64) : LoaderM (Option (Memory UInt8)) :=
  if loadsExternally env (env.layout.titleId exheader) then
    titleFile a .openTitleCode .readTitleCode (env.titleCode (env.layout.titleId exheader)) >>=
      titleImage env a exheader programHandle
  else titleImage env a exheader programHandle none

/-- `loadCode`; none for a failure. -/
def loadCode (exheader : List UInt8) (programHandle : UInt64) : LoaderM (Option (Memory UInt8)) :=
  if isSysmoduleCxiCookie programHandle then loadCxiCode env a exheader else loadTitleCode env a exheader programHandle

/-- The kernel's memory region among the descriptors. -/
def region (exheader : List UInt8) : UInt32 :=
  ((env.layout.descriptors exheader).take 28).foldl
    (fun (region desc : UInt32) => if desc >>> 23 = 0x1FE then desc &&& 0xF00 else region) 0

/-- `LoadProcessImpl`, with the panic of `LoadProcess` on every failure. -/
def loadProcessImpl (programHandle : UInt64) : LoaderM Failure := do
  let s ← get
  if region env s.exheaderInfo = 0 ∨ (a.fails .allocate).isSome then throw ()
  else
    match ← loadCode env a s.exheaderInfo programHandle with
    | none => throw ()
    | some memory =>
      let code : Loaded := ⟨programHandle, s.exheaderInfo, memory⟩
      modify fun s => { s with loaded := code :: s.loaded }
      if (a.fails .makeProcess).isSome then throw () else pure none

def loadProcess (programHandle : UInt64) : LoaderM Failure := do
  let res ← getProgramInfo env a programHandle
  if res.isSome then pure res
  else
    let s ← get
    if hbldrIs3dsxTitle a (env.layout.titleId s.exheaderInfo) then
      -- the code of a homebrew comes from its own file
      if (a.fails .hbldrLoadProcess).isSome then throw () else pure none
    else loadProcessImpl env a programHandle

/-- The part of `RegisterProgram` for programs that the system registers, which must be loaded by HIO exactly if their
title is. -/
def registerTitle (hio : Bool) : LoaderM (Except UInt32 UInt64) :=
  match a.fails .register with
  | some res => pure (.error res)
  | none => if a.isHioId a.registered = hio then pure (.ok a.registered) else throw ()

/-- `RegisterProgram`, with the handle that it gives; the update is that of the title itself if `sameUpdate`. -/
def registerProgram (titleId : UInt64) (sameUpdate : Bool) : LoaderM (Except UInt32 UInt64) :=
  if a.isHioId titleId then
    if sameUpdate then registerTitle a true else throw ()
  else if isSysmodule titleId && env.loadExtFirmsAndModules then do
    invalidateCachedCxiFile
    let res ← openSysmoduleCxi env a (clearN3dsBit titleId)
    if res.isSome then registerTitle a false
    else do
      modify fun s => { s with cxiCookie := cookieOf titleId }
      pure (.ok (cookieOf titleId))
  else registerTitle a false

def unregisterProgram (programHandle : UInt64) : LoaderM Failure := do
  modify fun s =>
    { s with cachedProgramHandle := if s.cachedProgramHandle = programHandle then 0 else s.cachedProgramHandle }
  if isSysmoduleCxiCookie programHandle then do
    let s ← get
    if programHandle = s.cxiCookie then invalidateCachedCxiFile
    pure none
  else pure (a.fails .unregister)

end

/-! ## Runs -/

inductive Command
  | loadProcess (programHandle : UInt64)
  | registerProgram (titleId : UInt64) (sameUpdate : Bool)
  | unregisterProgram (programHandle : UInt64)
  | getProgramInfo (programHandle : UInt64)

/-- What is done for a command, whose results go to the caller. -/
def handle (env : Environment) (a : Answers) : Command → LoaderM PUnit
  | .loadProcess programHandle => do
    let _ ← loadProcess env a programHandle
    pure ⟨⟩
  | .registerProgram titleId sameUpdate => do
    let _ ← registerProgram env a titleId sameUpdate
    pure ⟨⟩
  | .unregisterProgram programHandle => do
    let _ ← unregisterProgram a programHandle
    pure ⟨⟩
  | .getProgramInfo programHandle => do
    let _ ← getProgramInfo env a programHandle
    pure ⟨⟩

/-- The loader, which handles nothing any more after a panic. -/
structure Running where
  state : LoaderState
  panicked : Bool

/-- The next state. -/
def Running.next (env : Environment) (r : Running) (i : Command × Answers) : Running :=
  match (handle env i.2 i.1).run.run r.state with
  | (.ok _, s) => ⟨s, false⟩
  | (.error _, s) => ⟨s, true⟩

/-- The caches are zeros at first. -/
def start (env : Environment) : Running :=
  ⟨⟨0, List.replicate env.layout.size.toNat 0, none, 0, List.replicate ncchSize.toNat 0, []⟩, false⟩

/-- The loader, handling any commands. -/
def loader (env : Environment) : System Running (Command × Answers) where
  init r := r = start env
  step r i r' := r.panicked = false ∧ r' = r.next env i

/-! ## Cookies -/

/-- The bits of the constants: those of the upper half are those of a system module's id. -/
theorem constant_bits : ∀ i : Fin 64,
    (i.val < 32 → (0x0004013000000000#64).getLsbD i = false ∧ (0xEEEE000000000000#64).getLsbD i = false ∧
      (0xFFFFFFFF#64).getLsbD i = true) ∧
    (32 ≤ i.val → (0xFFFFFFFF#64).getLsbD i = false ∧
      (0x0004013000000000#64).getLsbD i = (0x00040130#64).getLsbD (i - 32)) := by
  decide

theorem clearN3dsBit_titleOf {titleId : UInt64} (h : isSysmodule titleId) :
    clearN3dsBit (titleOf (cookieOf titleId)) = clearN3dsBit titleId := by
  have hhigh : titleId.toBitVec >>> 32 = 0x00040130#64 := by
    have heq : titleId >>> 32 = 0x00040130 := by simpa [isSysmodule] using h
    have hbits := congrArg UInt64.toBitVec heq
    simpa using hbits
  unfold clearN3dsBit titleOf cookieOf low clearN3dsBit sysmoduleCxiCookieMask
  rw [← UInt64.toBitVec_inj]
  refine BitVec.eq_of_getLsbD_eq fun i hi => ?_
  obtain ⟨hlowBits, hhighBits⟩ := constant_bits ⟨i, hi⟩
  simp only [UInt64.toBitVec_and, UInt64.toBitVec_or, BitVec.getLsbD_and, BitVec.getLsbD_or]
  show (((0x0004013000000000#64).getLsbD i || ((0xEEEE000000000000#64).getLsbD i ||
    (titleId.toBitVec.getLsbD i && _ && (0xFFFFFFFF#64).getLsbD i)) && (0xFFFFFFFF#64).getLsbD i) && _) = _
  by_cases hlow : i < 32
  · obtain ⟨htitle, hmask, hones⟩ := hlowBits hlow
    simp only at htitle hmask hones
    rw [htitle, hmask, hones]
    simp
  · obtain ⟨hones, htitle⟩ := hhighBits (Nat.not_lt.mp hlow)
    have hbit := congrArg (fun x => x.getLsbD (i - 32)) hhigh
    simp only [BitVec.getLsbD_ushiftRight] at hbit
    simp only at htitle hones
    rw [show 32 + (i - 32) = i by omega] at hbit
    rw [hones, htitle, hbit]
    simp

theorem low_shiftRight (id : UInt64) : low id >>> 32 = 0 := by
  unfold low
  rw [← UInt64.toNat_inj, UInt64.toNat_shiftRight, UInt64.toNat_and]
  show (id.toNat &&& (2 ^ 32 - 1)) >>> 32 = 0
  rw [Nat.and_two_pow_sub_one_eq_mod, Nat.shiftRight_eq_div_pow]
  omega

theorem isSysmoduleCxiCookie_cookieOf (titleId : UInt64) : isSysmoduleCxiCookie (cookieOf titleId) = true := by
  unfold isSysmoduleCxiCookie cookieOf
  rw [UInt64.shiftRight_or, low_shiftRight, UInt64.or_zero]
  rfl

/-- The CXI file of a handle. -/
def Environment.cxiOf (env : Environment) (programHandle : UInt64) : Option (List UInt8) :=
  env.sysmoduleCxi (clearN3dsBit (titleOf programHandle))

theorem cxiOf_cookieOf (env : Environment) {titleId : UInt64} (h : isSysmodule titleId) :
    env.cxiOf (cookieOf titleId) = env.sysmoduleCxi (clearN3dsBit (clearN3dsBit titleId)) := by
  have hidem : clearN3dsBit (clearN3dsBit titleId) = clearN3dsBit titleId := by
    unfold clearN3dsBit
    rw [UInt64.and_assoc, UInt64.and_self]
  unfold Environment.cxiOf
  rw [clearN3dsBit_titleOf h, hidem]

/-! ## Whole reads -/

/-- The NCCH header of a CXI file. -/
def cxiNcch (file : List UInt8) : List UInt8 := file.take ncchSize.toNat

/-- The exheader of a CXI file. -/
def cxiExheader (env : Environment) (file : List UInt8) : List UInt8 :=
  (file.drop ncchSize.toNat).take env.layout.size.toNat

theorem overwrite_of_length {n : Nat} {buffer bytes : List UInt8} (h : n ≤ bytes.length) :
    overwrite n buffer bytes = bytes.take n := by
  unfold overwrite
  rw [List.take_append_of_le_length h]

/-- A read that gets all that it asks for does not depend on how much can be read. -/
theorem readAt_of_length {limit : Nat} {file : List UInt8} {offset size : UInt32}
    (h : (readAt limit (some file) offset size).length = size.toNat) :
    readAt limit (some file) offset size = (file.drop offset.toNat).take size.toNat := by
  unfold readAt at h ⊢
  simp only at h ⊢
  rw [List.length_take, List.length_take, List.length_drop] at h
  refine List.take_of_length_le ?_
  rw [List.length_take, List.length_drop]
  omega

theorem readSysmoduleCxiCode_none (limit : Reading → Nat) (maxSize : UInt32) (ncch : List UInt8) :
    readSysmoduleCxiCode limit maxSize none ncch = none := by
  unfold readSysmoduleCxiCode
  split_ifs with hsizes
  · rfl
  · rfl

/-- What a whole read gets does not depend on how much could be read. -/
theorem readWhole_of_some {limit : Nat} {file bytes : List UInt8} {offset size : UInt32}
    (h : readWhole limit (some file) offset size = some bytes) :
    bytes = (file.drop offset.toNat).take size.toNat ∧ readWhole file.length (some file) offset size = some bytes := by
  unfold readWhole at h ⊢
  simp only [Option.ite_none_right_eq_some, Option.some.injEq] at h ⊢
  obtain ⟨hlength, rfl⟩ := h
  have heq := readAt_of_length hlength
  have hwhole : readAt file.length (some file) offset size = (file.drop offset.toNat).take size.toNat := by
    unfold readAt
    refine List.take_of_length_le ?_
    rw [List.length_take, List.length_drop]
    omega
  rw [hwhole, ← heq]
  exact ⟨rfl, hlength, rfl⟩

/-- The code that a CXI file has. -/
def cxiCode (maxSize : UInt32) (file : List UInt8) : Option (List UInt8) :=
  readSysmoduleCxiCode (fun _ => file.length) maxSize (some file) (cxiNcch file)

theorem cxiCode_of_read {limit : Reading → Nat} {maxSize : UInt32} {file code : List UInt8}
    (h : readSysmoduleCxiCode limit maxSize (some file) (cxiNcch file) = some code) :
    cxiCode maxSize file = some code := by
  unfold cxiCode
  unfold readSysmoduleCxiCode at h ⊢
  split_ifs at h ⊢ with hsizes
  simp only [Option.bind_eq_bind, Option.bind_eq_some_iff] at h ⊢
  obtain ⟨hdr, hread, codeHdr, hcode, hrest⟩ := h
  refine ⟨hdr, (readWhole_of_some hread).2, codeHdr, hcode, ?_⟩
  split_ifs at hrest ⊢ with hsize
  exact (readWhole_of_some hrest).2

/-! ## Coherence -/

/-- The headers describe a program: they are those of its CXI file, or the exheader is what the system says of it, with
the changes made to it. -/
def Describes (env : Environment) (programHandle : UInt64) (exheader ncch : List UInt8) : Prop :=
  if isSysmoduleCxiCookie programHandle then
    ∃ file, env.cxiOf programHandle = some file ∧ exheader = cxiExheader env file ∧ ncch = cxiNcch file
  else
    ∃ a hio external, exheader = tweak env a (env.programInfo hio programHandle) external ∧
      (external = none ∨ external = env.titleExheader (env.layout.titleId (env.programInfo hio programHandle)))

/-- The code is that of the program described, from the same CXI file if it is from one. -/
def Loaded.Whole (env : Environment) (l : Loaded) : Prop :=
  if isSysmoduleCxiCookie l.programHandle then
    ∃ file code fresh, env.cxiOf l.programHandle = some file ∧ l.exheader = cxiExheader env file ∧
      cxiCode (pagesOf env l.exheader <<< 12) file = some code ∧ l.memory = image env l.exheader code true fresh
  else
    (∃ ncch, Describes env l.programHandle l.exheader ncch) ∧ ∃ code decompress fresh,
      (code = env.content l.programHandle ∨ env.titleCode (env.layout.titleId l.exheader) = some code) ∧
        l.memory = env.patchCode l.exheader (image env l.exheader code decompress fresh)

/-- The file that is open is that of its cookie. -/
structure FileCoherent (env : Environment) (s : LoaderState) : Prop where
  opened : s.cxiCookie ≠ 0 → isSysmoduleCxiCookie s.cxiCookie ∧
    ∃ file, s.cxiFile = some file ∧ env.cxiOf s.cxiCookie = some file
  closed : s.cxiCookie = 0 → s.cxiFile = none

/-- So it is, and the headers are those of the program whose info is cached. -/
structure Coherent (env : Environment) (s : LoaderState) : Prop extends FileCoherent env s where
  info : s.cachedProgramHandle ≠ 0 → Describes env s.cachedProgramHandle s.exheaderInfo s.cxiNcch

def AllWhole (env : Environment) (s : LoaderState) : Prop := ∀ l ∈ s.loaded, l.Whole env

theorem ne_zero_of_cookie {programHandle : UInt64} (h : isSysmoduleCxiCookie programHandle = true) :
    programHandle ≠ 0 := by
  rintro rfl
  exact absurd h (by decide)

section

variable {env : Environment} {a : Answers} {s : LoaderState} {E : Unit → LoaderState → Prop}

theorem fileCoherent_invalidated (env : Environment) (s : LoaderState) :
    FileCoherent env { s with cxiFile := none, cxiCookie := 0 } :=
  ⟨fun h => absurd rfl h, fun _ => rfl⟩

/-- A file is opened, or nothing is changed. -/
theorem openSysmoduleCxi_spec (progId : UInt64) :
    Wp (openSysmoduleCxi env a progId) (fun res s' => (res.isSome ∧ s' = s) ∨
      ∃ file, res = none ∧ env.sysmoduleCxi (clearN3dsBit progId) = some file ∧ s' = { s with cxiFile := some file }) E s := by
  unfold openSysmoduleCxi
  split
  · exact Or.inl ⟨rfl, rfl⟩
  · exact Or.inl ⟨rfl, rfl⟩
  · rename_i file _ hfile
    exact Or.inr ⟨file, rfl, hfile, rfl⟩

theorem openCached_spec (hs : FileCoherent env s) {programHandle : UInt64}
    (hcookie : isSysmoduleCxiCookie programHandle = true) :
    Wp (openCached env a programHandle) (fun res s' => FileCoherent env s' ∧ s'.loaded = s.loaded ∧
      (res = none → s'.cxiCookie = programHandle)) E s := by
  unfold openCached
  simp only [wp_bind, wp_get]
  split_ifs with hother
  · simp only [invalidateCachedCxiFile, wp_bind, wp_modify]
    refine (openSysmoduleCxi_spec _).mono ?_ fun _ _ he => he
    rintro res s' (⟨hres, rfl⟩ | ⟨file, rfl, hfile, rfl⟩)
    · rw [if_pos hres]
      refine ⟨fileCoherent_invalidated env s, rfl, ?_⟩
      rintro rfl
      cases hres
    · rw [if_neg (by simp)]
      refine ⟨⟨fun _ => ⟨hcookie, file, rfl, hfile⟩, fun hzero => ?_⟩, rfl, fun _ => rfl⟩
      exact absurd hzero (ne_zero_of_cookie hcookie)
  · exact ⟨hs, rfl, fun _ => not_not.mp hother⟩

theorem readSysmoduleCxiNcchHeader_spec {file : List UInt8} (hfile : s.cxiFile = some file) :
    Wp (readSysmoduleCxiNcchHeader a)
      (fun ok s' => ∃ ncch, s' = { s with cxiNcch := ncch } ∧ (ok = true → ncch = cxiNcch file)) E s := by
  refine ⟨_, rfl, fun hok => ?_⟩
  rw [decide_eq_true_eq, hfile] at hok
  rw [hfile, overwrite_of_length hok.ge, readAt_of_length hok]
  show ((file.drop 0).take _).take _ = file.take _
  rw [List.drop_zero, List.take_take, Nat.min_self]

theorem readSysmoduleCxiExHeaderInfo_spec {file : List UInt8} (hfile : s.cxiFile = some file) :
    Wp (readSysmoduleCxiExHeaderInfo env a)
      (fun ok s' => ∃ exheader, s' = { s with exheaderInfo := exheader } ∧ (ok = true → exheader = cxiExheader env file))
      E s := by
  unfold readSysmoduleCxiExHeaderInfo
  simp only [wp_bind, wp_get]
  split_ifs with hsmall
  · exact ⟨s.exheaderInfo, rfl, fun hok => absurd hok (by simp)⟩
  · refine ⟨_, rfl, fun hok => ?_⟩
    have hle := UInt32.le_iff_toNat_le.mp (UInt32.not_lt.mp hsmall)
    rw [decide_eq_true_eq, hfile] at hok
    rw [hfile, overwrite_of_length (hle.trans hok.ge), readAt_of_length hok, List.take_take, Nat.min_eq_left hle]
    rfl

/-- The headers are read from the file of the handle. -/
theorem getCxiInfo_spec (hs : FileCoherent env s) {programHandle : UInt64}
    (hcookie : isSysmoduleCxiCookie programHandle = true) :
    Wp (getCxiInfo env a programHandle) (fun res s' => FileCoherent env s' ∧ s'.loaded = s.loaded ∧
      (res = none → s'.cxiCookie = programHandle ∧ Describes env programHandle s'.exheaderInfo s'.cxiNcch)) E s := by
  unfold getCxiInfo
  refine (openCached_spec hs hcookie).bind ?_
  rintro res s₁ ⟨hs₁, hloaded, hopen⟩
  split_ifs with hres
  · refine ⟨hs₁, hloaded, ?_⟩
    rintro rfl
    cases hres
  · have hcookie₁ : s₁.cxiCookie = programHandle := hopen (by simpa using hres)
    obtain ⟨-, file, hfile, hcxi⟩ := hs₁.opened (by rw [hcookie₁]; exact ne_zero_of_cookie hcookie)
    refine (readSysmoduleCxiNcchHeader_spec hfile).bind ?_
    rintro ok _ ⟨ncch, rfl, hncch⟩
    cases ok with
    | false => exact ⟨⟨hs₁.opened, hs₁.closed⟩, hloaded, fun h => absurd h (by simp)⟩
    | true =>
      refine (readSysmoduleCxiExHeaderInfo_spec (s := { s₁ with cxiNcch := ncch }) hfile).bind ?_
      rintro ok _ ⟨exheader, rfl, hexheader⟩
      cases ok with
      | false => exact ⟨⟨hs₁.opened, hs₁.closed⟩, hloaded, fun h => absurd h (by simp)⟩
      | true =>
        refine ⟨⟨hs₁.opened, hs₁.closed⟩, hloaded, fun _ => ⟨hcookie₁, ?_⟩⟩
        unfold Describes
        rw [if_pos hcookie]
        refine ⟨file, ?_, hexheader rfl, hncch rfl⟩
        rw [← hcookie₁]
        exact hcxi

theorem titleFile_spec (opening reading : Operation) (file : Option (List UInt8)) :
    Wp (titleFile a opening reading file) (fun found s' => s' = s ∧ (found = none ∨ found = file))
      (fun _ s' => s' = s) s := by
  unfold titleFile
  split_ifs
  · exact ⟨rfl, Or.inl rfl⟩
  · rfl
  · exact ⟨rfl, Or.inr rfl⟩

theorem getTitleInfo_spec {programHandle : UInt64} (hcookie : isSysmoduleCxiCookie programHandle = false) :
    Wp (getTitleInfo env a programHandle) (fun res s' => ∃ exheader, s' = { s with exheaderInfo := exheader } ∧
      (res = none → Describes env programHandle exheader s.cxiNcch)) (fun _ s' => s' = s) s := by
  unfold getTitleInfo
  split
  · exact ⟨s.exheaderInfo, rfl, fun h => absurd h (by simp)⟩
  · dsimp only
    generalize hhio : a.isHioId programHandle = hio
    have hfound (found : Option (List UInt8))
        (h : found = none ∨ found = env.titleExheader (env.layout.titleId (env.programInfo hio programHandle))) :
        Describes env programHandle (tweak env a (env.programInfo hio programHandle) found) s.cxiNcch := by
      unfold Describes
      rw [if_neg (by simp [hcookie])]
      exact ⟨a, _, found, rfl, h⟩
    split_ifs with hexternal
    · refine (titleFile_spec _ _ _).bind ?_
      rintro found _ ⟨rfl, hfile⟩
      exact ⟨_, rfl, fun _ => hfound found hfile⟩
    · exact ⟨_, rfl, fun _ => hfound none (Or.inl rfl)⟩

/-- After `GetProgramInfo` the headers are those of the program, read now from the file that is open then, or cached. -/
theorem getProgramInfo_spec (hs : Coherent env s) (programHandle : UInt64) :
    Wp (getProgramInfo env a programHandle) (fun res s' => Coherent env s' ∧ s'.loaded = s.loaded ∧
      (res = none → (s.hasInfo env a programHandle = true ∧ s' = s) ∨
        Describes env programHandle s'.exheaderInfo s'.cxiNcch ∧
          (isSysmoduleCxiCookie programHandle = true → s'.cxiCookie = programHandle)))
      (fun _ s' => s'.loaded = s.loaded) s := by
  unfold getProgramInfo
  simp only [wp_bind, wp_get]
  split_ifs with hcached
  · exact ⟨hs, rfl, fun _ => Or.inl ⟨hcached, rfl⟩⟩
  · -- the handle is kept only if the headers have been read whole
    have hkept (res : Failure) (s₁ : LoaderState) (hfile : FileCoherent env s₁)
        (hinfo : res = none → Describes env programHandle s₁.exheaderInfo s₁.cxiNcch) :
        Coherent env { s₁ with cachedProgramHandle := if res.isNone then programHandle else 0 } := by
      refine ⟨⟨hfile.opened, hfile.closed⟩, fun hne => ?_⟩
      cases res with
      | none => exact hinfo rfl
      | some code => exact absurd rfl hne
    unfold getProgramInfoImpl
    cases hcookie : isSysmoduleCxiCookie programHandle with
    | true =>
      rw [if_pos rfl]
      refine (getCxiInfo_spec hs.toFileCoherent hcookie).bind ?_
      rintro res s₁ ⟨hfile, hloaded, hinfo⟩
      exact ⟨hkept res s₁ hfile fun h => (hinfo h).2, hloaded, fun h => Or.inr ⟨(hinfo h).2, fun _ => (hinfo h).1⟩⟩
    | false =>
      rw [if_neg (by simp)]
      refine ((getTitleInfo_spec hcookie).mono (fun _ _ h => h) fun _ s' h => congrArg LoaderState.loaded h).bind ?_
      rintro res _ ⟨exheader, rfl, hinfo⟩
      exact ⟨hkept res _ ⟨hs.opened, hs.closed⟩ hinfo, rfl, fun h => Or.inr ⟨hinfo h, fun h => absurd h (by simp)⟩⟩

/-! ## Loading -/

/-- Before code is loaded: the headers describe the program, and of CXI files only that of the program can be open. -/
structure Ready (env : Environment) (programHandle : UInt64) (s : LoaderState) : Prop extends Coherent env s where
  describes : Describes env programHandle s.exheaderInfo s.cxiNcch
  own : isSysmoduleCxiCookie programHandle = true → s.cxiCookie = programHandle ∨ s.cxiCookie = 0

theorem loadCxiCode_spec {programHandle : UInt64} (hs : Ready env programHandle s)
    (hcookie : isSysmoduleCxiCookie programHandle = true) :
    Wp (loadCxiCode env a s.exheaderInfo) (fun memory s' => Coherent env s' ∧
      s'.loaded = s.loaded ∧ ∀ m, memory = some m → (⟨programHandle, s.exheaderInfo, m⟩ : Loaded).Whole env) E s := by
  unfold loadCxiCode
  simp only [wp_bind, wp_get]
  split
  · exact ⟨hs.toCoherent, rfl, fun m h => absurd h (by simp)⟩
  · rename_i code hread
    refine ⟨⟨fileCoherent_invalidated env s, hs.info⟩, rfl, ?_⟩
    rintro m ⟨⟩
    have hdescribes := hs.describes
    unfold Describes at hdescribes
    rw [if_pos hcookie] at hdescribes
    obtain ⟨file, hfile, hexheader, hncch⟩ := hdescribes
    rcases hs.own hcookie with hown | hnone
    · -- the file of the cookie is the one that the headers were read from
      obtain ⟨-, file', hopen, hcxi⟩ := hs.opened (by rw [hown]; exact ne_zero_of_cookie hcookie)
      rw [hown, hfile, Option.some.injEq] at hcxi
      rw [hopen, ← hcxi, hncch] at hread
      unfold Loaded.Whole
      rw [if_pos hcookie]
      exact ⟨file, code, a.fresh, hfile, hexheader, cxiCode_of_read hread, rfl⟩
    · rw [hs.closed hnone, readSysmoduleCxiCode_none] at hread
      cases hread

/-- Where a file of another program is open, code is read from it, by the headers of the program. -/
theorem loadCxiCode_other {programHandle : UInt64} (hs : Coherent env s)
    (hdescribes : Describes env programHandle s.exheaderInfo s.cxiNcch)
    (hcookie : isSysmoduleCxiCookie programHandle = true) (hother : s.cxiCookie ≠ 0) :
    Wp (loadCxiCode env a s.exheaderInfo) (fun memory _ => ∀ m, memory = some m → ∃ file other code,
      env.cxiOf programHandle = some file ∧ env.cxiOf s.cxiCookie = some other ∧
        readSysmoduleCxiCode a.limit (pagesOf env (cxiExheader env file) <<< 12) (some other) (cxiNcch file) = some code ∧
          m = image env (cxiExheader env file) code true a.fresh) E s := by
  unfold Describes at hdescribes
  rw [if_pos hcookie] at hdescribes
  obtain ⟨file, hfile, hexheader, hncch⟩ := hdescribes
  obtain ⟨-, other, hopen, hcxi⟩ := hs.opened hother
  unfold loadCxiCode
  simp only [wp_bind, wp_get]
  rw [hexheader, hncch, hopen]
  split
  · rintro m ⟨⟩
  · rename_i code hread
    rintro m ⟨⟩
    exact ⟨file, other, code, hfile, hcxi, hread, rfl⟩

theorem titleImage_spec {programHandle : UInt64} (hs : Ready env programHandle s)
    (hcookie : isSysmoduleCxiCookie programHandle = false) {external : Option (List UInt8)}
    (hexternal : external = none ∨ external = env.titleCode (env.layout.titleId s.exheaderInfo)) :
    Wp (titleImage env a s.exheaderInfo programHandle external) (fun memory s' => s' = s ∧
      ∀ m, memory = some m → (⟨programHandle, s.exheaderInfo, m⟩ : Loaded).Whole env) (fun _ s' => s' = s) s := by
  have hwhole (code : List UInt8) (decompress : Bool)
      (hcode : code = env.content programHandle ∨ env.titleCode (env.layout.titleId s.exheaderInfo) = some code) :
      (⟨programHandle, s.exheaderInfo, env.patchCode s.exheaderInfo (image env s.exheaderInfo code decompress a.fresh)⟩ :
        Loaded).Whole env := by
    unfold Loaded.Whole
    rw [if_neg (by simp [hcookie])]
    exact ⟨⟨_, hs.describes⟩, code, decompress, a.fresh, hcode, rfl⟩
  unfold titleImage
  cases external with
  | some code =>
    dsimp only
    split_ifs
    · exact rfl
    · refine ⟨rfl, ?_⟩
      rintro m ⟨⟩
      exact hwhole code false (Or.inr (hexternal.resolve_left (by simp)).symm)
  | none =>
    dsimp only
    split_ifs
    · exact rfl
    · exact ⟨rfl, fun m h => absurd h (by simp)⟩
    · refine ⟨rfl, ?_⟩
      rintro m ⟨⟩
      exact hwhole _ true (Or.inl rfl)

theorem loadTitleCode_spec {programHandle : UInt64} (hs : Ready env programHandle s)
    (hcookie : isSysmoduleCxiCookie programHandle = false) :
    Wp (loadTitleCode env a s.exheaderInfo programHandle) (fun memory s' => s' = s ∧
      ∀ m, memory = some m → (⟨programHandle, s.exheaderInfo, m⟩ : Loaded).Whole env) (fun _ s' => s' = s) s := by
  unfold loadTitleCode
  split_ifs
  · refine (titleFile_spec _ _ _).bind ?_
    rintro found _ ⟨rfl, hfound⟩
    exact titleImage_spec hs hcookie hfound
  · exact titleImage_spec hs hcookie (Or.inl rfl)

theorem loadProcessImpl_spec {programHandle : UInt64} (hs : Ready env programHandle s) (hall : AllWhole env s) :
    Wp (loadProcessImpl env a programHandle) (fun _ s' => Coherent env s' ∧ AllWhole env s')
      (fun _ s' => AllWhole env s') s := by
  have hcode : Wp (loadCode env a s.exheaderInfo programHandle) (fun memory s' => Coherent env s' ∧
      s'.loaded = s.loaded ∧ ∀ m, memory = some m → (⟨programHandle, s.exheaderInfo, m⟩ : Loaded).Whole env)
      (fun _ s' => AllWhole env s') s := by
    unfold loadCode
    cases hcookie : isSysmoduleCxiCookie programHandle with
    | true => exact loadCxiCode_spec hs hcookie
    | false =>
      refine (loadTitleCode_spec hs hcookie).mono ?_ fun _ s' h => by rw [h]; exact hall
      rintro memory _ ⟨rfl, hwhole⟩
      exact ⟨hs.toCoherent, rfl, hwhole⟩
  unfold loadProcessImpl
  simp only [wp_bind, wp_get]
  split
  · exact hall
  · refine hcode.bind ?_
    rintro memory s₁ ⟨hcoherent, hloaded, hwhole⟩
    cases memory with
    | none =>
      intro l hl
      rw [hloaded] at hl
      exact hall l hl
    | some m =>
      have hall₁ : AllWhole env { s₁ with loaded := ⟨programHandle, s.exheaderInfo, m⟩ :: s₁.loaded } := by
        rintro l (_ | ⟨_, hl⟩)
        · exact hwhole m rfl
        · rw [hloaded] at hl
          exact hall l hl
      simp only [wp_bind, wp_modify]
      split
      · exact hall₁
      · exact ⟨⟨⟨hcoherent.opened, hcoherent.closed⟩, hcoherent.info⟩, hall₁⟩

/-- `LoadProcess(programHandle)` does not take a file of another program, where the info is cached. -/
def Fits (env : Environment) (s : LoaderState) (i : Command × Answers) : Prop :=
  match i.1 with
  | .loadProcess programHandle =>
    s.hasInfo env i.2 programHandle = true → programHandle ≠ 0 ∧
      (isSysmoduleCxiCookie programHandle = true → s.cxiCookie = programHandle ∨ s.cxiCookie = 0)
  | _ => True

theorem loadProcess_spec (hs : Coherent env s) (hall : AllWhole env s) {programHandle : UInt64}
    (hfits : Fits env s (.loadProcess programHandle, a)) :
    Wp (loadProcess env a programHandle) (fun _ s' => Coherent env s' ∧ AllWhole env s')
      (fun _ s' => AllWhole env s') s := by
  have hkeep {s' : LoaderState} (h : s'.loaded = s.loaded) : AllWhole env s' := by
    unfold AllWhole
    rw [h]
    exact hall
  unfold loadProcess
  refine ((getProgramInfo_spec hs programHandle).mono (fun _ _ h => h) fun _ _ h => hkeep h).bind ?_
  rintro res s₁ ⟨hcoherent, hloaded, hinfo⟩
  by_cases hres : res.isSome
  · rw [if_pos hres]
    exact ⟨hcoherent, hkeep hloaded⟩
  · rw [if_neg hres]
    have hready : Ready env programHandle s₁ := by
      rcases hinfo (by simpa using hres) with ⟨hcached, rfl⟩ | ⟨hdescribes, hown⟩
      · obtain ⟨hne, hown⟩ := hfits hcached
        have hhandle : programHandle = s₁.cachedProgramHandle := by
          unfold LoaderState.hasInfo at hcached
          simp only [Bool.and_eq_true, decide_eq_true_eq] at hcached
          exact hcached.1
        have hdescribes := hcoherent.info (by rw [← hhandle]; exact hne)
        rw [← hhandle] at hdescribes
        exact ⟨hcoherent, hdescribes, hown⟩
      · exact ⟨hcoherent, hdescribes, fun h => Or.inl (hown h)⟩
    simp only [wp_bind, wp_get]
    split
    · split
      · exact hkeep hloaded
      · exact ⟨hcoherent, hkeep hloaded⟩
    · exact loadProcessImpl_spec hready (hkeep hloaded)

/-! ## Runs -/

theorem registerTitle_spec (hio : Bool) : Wp (registerTitle a hio) (fun _ s' => s' = s) (fun _ s' => s' = s) s := by
  unfold registerTitle
  split
  · rfl
  · split_ifs
    · rfl
    · rfl

/-- The headers stay those of the program whose info is cached, while another file is opened. -/
theorem registerProgram_spec (hs : Coherent env s) (titleId : UInt64) (sameUpdate : Bool) :
    Wp (registerProgram env a titleId sameUpdate) (fun _ s' => Coherent env s' ∧ s'.loaded = s.loaded)
      (fun _ s' => s'.loaded = s.loaded) s := by
  have htitle (hio : Bool) {s' : LoaderState} (hcoherent : Coherent env s') (hloaded : s'.loaded = s.loaded) :
      Wp (registerTitle a hio) (fun _ s' => Coherent env s' ∧ s'.loaded = s.loaded)
        (fun _ s' => s'.loaded = s.loaded) s' := by
    refine (registerTitle_spec hio).mono ?_ ?_
    · rintro _ _ rfl
      exact ⟨hcoherent, hloaded⟩
    · rintro _ _ rfl
      exact hloaded
  unfold registerProgram
  split
  · split
    · exact htitle true hs rfl
    · rfl
  · split
    · rename_i hsysmodule
      rw [Bool.and_eq_true] at hsysmodule
      have hinvalidated : Coherent env { s with cxiFile := none, cxiCookie := 0 } :=
        ⟨fileCoherent_invalidated env s, hs.info⟩
      simp only [invalidateCachedCxiFile, wp_bind, wp_modify]
      refine (openSysmoduleCxi_spec _).mono ?_ fun _ _ he => he
      rintro res s' (⟨hres, rfl⟩ | ⟨file, rfl, hfile, rfl⟩)
      · rw [if_pos hres]
        exact htitle false hinvalidated rfl
      · rw [if_neg (by simp)]
        have hcookie := isSysmoduleCxiCookie_cookieOf titleId
        have hcxi := cxiOf_cookieOf env hsysmodule.1
        refine ⟨⟨⟨fun _ => ⟨hcookie, file, rfl, hcxi.trans hfile⟩, fun hzero => ?_⟩, hs.info⟩, rfl⟩
        exact absurd hzero (ne_zero_of_cookie hcookie)
    · exact htitle false hs rfl

theorem unregisterProgram_spec (hs : Coherent env s) (programHandle : UInt64) :
    Wp (unregisterProgram a programHandle) (fun _ s' => Coherent env s' ∧ s'.loaded = s.loaded) E s := by
  have hcleared : Coherent env
      { s with cachedProgramHandle := if s.cachedProgramHandle = programHandle then 0 else s.cachedProgramHandle } := by
    refine ⟨⟨hs.opened, hs.closed⟩, fun hne => ?_⟩
    dsimp only at hne ⊢
    split_ifs at hne ⊢ with hsame
    · exact absurd rfl hne
    · exact hs.info hne
  unfold unregisterProgram
  simp only [wp_bind, wp_modify]
  split
  · simp only [wp_bind, wp_get]
    split
    · exact ⟨⟨fileCoherent_invalidated env _, hcleared.info⟩, rfl⟩
    · exact ⟨hcleared, rfl⟩
  · exact ⟨hcleared, rfl⟩

/-- What a command does to the caches and to the code that is loaded. -/
theorem handle_spec (hs : Coherent env s) (hall : AllWhole env s) {command : Command} (hfits : Fits env s (command, a)) :
    Wp (handle env a command) (fun _ s' => Coherent env s' ∧ AllWhole env s') (fun _ s' => AllWhole env s') s := by
  have hkeep {s' : LoaderState} (h : s'.loaded = s.loaded) : AllWhole env s' := by
    unfold AllWhole
    rw [h]
    exact hall
  cases command with
  | loadProcess programHandle => exact (loadProcess_spec hs hall hfits).bind fun _ _ h => h
  | registerProgram titleId sameUpdate =>
    refine ((registerProgram_spec hs titleId sameUpdate).mono (fun _ _ h => h) fun _ _ h => hkeep h).bind ?_
    rintro _ s' ⟨hcoherent, hloaded⟩
    exact ⟨hcoherent, hkeep hloaded⟩
  | unregisterProgram programHandle =>
    refine (unregisterProgram_spec hs programHandle).bind ?_
    rintro _ s' ⟨hcoherent, hloaded⟩
    exact ⟨hcoherent, hkeep hloaded⟩
  | getProgramInfo programHandle =>
    refine ((getProgramInfo_spec hs programHandle).mono (fun _ _ h => h) fun _ _ h => hkeep h).bind ?_
    rintro _ s' ⟨hcoherent, hloaded, -⟩
    exact ⟨hcoherent, hkeep hloaded⟩

end

theorem start_coherent (env : Environment) : Coherent env (start env).state :=
  ⟨⟨fun h => absurd rfl h, fun _ => rfl⟩, fun h => absurd rfl h⟩

/-- A step keeps what is coherent, and what has been loaded. -/
theorem next_coherent {env : Environment} {r : Running} {i : Command × Answers} (hs : Coherent env r.state)
    (hall : AllWhole env r.state) (hfits : Fits env r.state i) :
    AllWhole env (r.next env i).state ∧ ((r.next env i).panicked = false → Coherent env (r.next env i).state) := by
  have hspec := handle_spec hs hall hfits
  unfold Wp at hspec
  unfold Running.next
  rcases hrun : (handle env i.2 i.1).run.run r.state with ⟨e | u, s'⟩
  · rw [hrun] at hspec
    exact ⟨hspec, fun h => absurd h (by simp)⟩
  · rw [hrun] at hspec
    exact ⟨hspec.2, fun _ => hspec.1⟩

/-- In every run in which no `LoadProcess` takes a file of another program, all code that is loaded is that of the program
that its exheader and its NCCH header describe; and the caches stay coherent. -/
theorem loaded_whole (env : Environment) {r : Running}
    (h : ((loader env).restrict fun r i => Fits env r.state i).Reachable r) :
    (∀ l ∈ r.state.loaded, l.Whole env) ∧ (r.panicked = false → Coherent env r.state) := by
  refine System.Reachable.invariant
    (J := fun r => AllWhole env r.state ∧ (r.panicked = false → Coherent env r.state)) ?_ ?_ h
  · rintro _ rfl
    exact ⟨fun l hl => absurd hl (by simp [start]), fun _ => start_coherent env⟩
  · rintro r i _ - ⟨hall, hcoherent⟩ ⟨hfits, hrunning, rfl⟩
    exact next_coherent (hcoherent hrunning) hall hfits

/-- A CXI file, of an exheader of eight bytes and of code of four. -/
def smallCxi (exheader code : List UInt8) : List UInt8 :=
  List.replicate 0x180 0 ++ leBytes 4 8 ++ List.replicate 0x1C 0 ++ leBytes 4 2 ++ leBytes 4 2 ++ List.replicate 0x58 0 ++
    exheader ++ List.replicate 0x1F8 0 ++ codeName ++ List.replicate 6 0 ++ leBytes 4 4 ++ List.replicate 0x1F0 0 ++ code

/-- Two system modules in the folder of Omiiba. -/
def twoSysmodules : Environment where
  layout :=
    { size := 8
      titleId := fun e => UInt64.ofNat ((ofBytes e).load 0 8)
      withTitleId := fun _ e => e
      withO3dsSystemMode := fun _ e => e
      withN3dsSystemMode := fun _ e => e
      compressed := fun _ => false
      textSize := fun _ => 4
      rodataSize := fun _ => 0
      dataSize := fun _ => 0
      descriptors := fun _ => [0xFF000100] }
  loadExtFirmsAndModules := true
  patchGames := false
  o3dsMode := none
  n3dsMode := none
  sysmoduleCxi := fun tid =>
    if tid = 0x0004013000001002 then some (smallCxi (leBytes 8 0x0004013000001002) [1, 0, 0, 0])
    else if tid = 0x0004013000001502 then some (smallCxi (leBytes 8 0x0004013000001502) [2, 0, 0, 0])
    else none
  titleExheader := fun _ => none
  titleCode := fun _ => none
  programInfo := fun _ _ => []
  content := fun _ => []
  hbldrPatchExHeaderInfo := id
  patchCode := fun _ => id

/-- Nothing fails. -/
def allWell : Answers where
  fails := fun _ => none
  limit := fun _ => 0x1000
  isHioId := fun _ => false
  registered := 0
  hbldr3dsxTid := none
  fresh := fun _ => 0

def register (titleId : UInt64) : Command × Answers := (.registerProgram titleId true, allWell)

def infoOf (programHandle : UInt64) : Command × Answers := (.getProgramInfo programHandle, allWell)

def load (programHandle : UInt64) : Command × Answers := (.loadProcess programHandle, allWell)

/-- A system module is registered, asked for and loaded. -/
def loadedFirst : Running :=
  (((start twoSysmodules).next twoSysmodules (register 0x0004013000001002)).next twoSysmodules
    (infoOf 0xEEEE000000001002)).next twoSysmodules (load 0xEEEE000000001002)

theorem loaded_whole_first :
    loadedFirst.state.loaded.length = 1 ∧ ∀ l ∈ loadedFirst.state.loaded, l.Whole twoSysmodules := by
  refine ⟨by decide +kernel, (loaded_whole twoSysmodules ?_).1⟩
  refine .step (i := load 0xEEEE000000001002) (.step (i := infoOf 0xEEEE000000001002)
    (.step (i := register 0x0004013000001002) (.init rfl) ⟨trivial, rfl, rfl⟩) ⟨trivial, by decide +kernel, rfl⟩)
    ⟨?_, by decide +kernel, rfl⟩
  exact fun _ => ⟨by decide, fun _ => Or.inl (by decide +kernel)⟩

/-- The second one is registered in between. -/
def loadedMixed : Running :=
  ((((start twoSysmodules).next twoSysmodules (register 0x0004013000001002)).next twoSysmodules
    (infoOf 0xEEEE000000001002)).next twoSysmodules (register 0x0004013000001502)).next twoSysmodules
      (load 0xEEEE000000001002)

/-- Then code of the second one is loaded with the exheader of the first one. -/
theorem mixed_of_register :
    (loader twoSysmodules).Reachable loadedMixed ∧ ∃ l ∈ loadedMixed.state.loaded, ¬l.Whole twoSysmodules := by
  refine ⟨.step (.step (.step (.step (.init rfl) ⟨rfl, rfl⟩) ⟨by decide +kernel, rfl⟩) ⟨by decide +kernel, rfl⟩)
    ⟨by decide +kernel, rfl⟩, ?_⟩
  obtain ⟨l, hl⟩ : ∃ l, loadedMixed.state.loaded.head? = some l := Option.isSome_iff_exists.mp (by decide +kernel)
  have hhandle : loadedMixed.state.loaded.head?.map (·.programHandle) = some 0xEEEE000000001002 := by decide +kernel
  have hbyte : loadedMixed.state.loaded.head?.map (·.memory textAddr.toNat) = some 2 := by decide +kernel
  simp only [hl, Option.map_some, Option.some.injEq] at hhandle hbyte
  refine ⟨l, List.mem_of_mem_head? hl, fun hwhole => ?_⟩
  unfold Loaded.Whole at hwhole
  rw [hhandle, if_pos (by decide)] at hwhole
  obtain ⟨file, code, fresh, hfile, -, hcode, hmemory⟩ := hwhole
  have hfirst : twoSysmodules.cxiOf 0xEEEE000000001002 = some (smallCxi (leBytes 8 0x0004013000001002) [1, 0, 0, 0]) := by
    decide +kernel
  rw [hfirst, Option.some.injEq] at hfile
  have hcode' : cxiCode 0x1000 (smallCxi (leBytes 8 0x0004013000001002) [1, 0, 0, 0]) = some [1, 0, 0, 0] := by
    decide +kernel
  have hpages : pagesOf twoSysmodules l.exheader <<< 12 = 0x1000 := by
    show totalSize 4 0 0 <<< 12 = 0x1000
    decide
  rw [← hfile, hpages, hcode', Option.some.injEq] at hcode
  rw [hmemory, ← hcode] at hbyte
  have himage : image twoSysmodules l.exheader [1, 0, 0, 0] true fresh = fresh.store textAddr.toNat [1, 0, 0, 0] := rfl
  rw [himage, store_inside fresh le_rfl (by simp)] at hbyte
  simp at hbyte

end Omiiba.Loader.Programs
