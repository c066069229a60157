/-
The redirection of a title's files, after patcher.c and romfsredir.s: how the functions to hook and places for the payload and
the path are looked for in the code, and what is written there. When the places can hold it.
-/
import Omiiba.Lib.Words
import Omiiba.Lib.Writes
import Omiiba.Loader.PatchMemory
import Omiiba.Loader.TitlePath

namespace Omiiba.Loader.LayeredFs

open Memory (leBytes)

/-! ## Code -/

def word (code : Memory UInt8) (a : Nat) : UInt32 := UInt32.ofNat (code.load a 4)

def half (code : Memory UInt8) (a : Nat) : UInt16 := UInt16.ofNat (code.load a 2)

def branchOffset (src dst : Nat) : UInt32 :=
  (((UInt32.ofNat dst - UInt32.ofNat src).toInt32 >>> 2) - 2).toUInt32 &&& 0xFFFFFF

/-- `MAKE_BRANCH`. -/
def makeBranch (src dst : Nat) : UInt32 := 0xEA000000 ||| branchOffset src dst

/-- `MAKE_BRANCH_LINK`. -/
def makeBranchLink (src dst : Nat) : UInt32 := 0xEB000000 ||| branchOffset src dst

/-- The places from `start` on that a loop over the words goes through, where the code has a word. -/
def wordsFrom (start : Nat) (size : UInt32) : List Nat := (List.range ((size.toNat - start) / 4)).map fun k => start + 4 * k

def functionStartLoop (code : Memory UInt8) (rest : Nat) : Nat → Option Nat
  | 0 => none
  | n + 1 => if half code (rest + 4 * n + 2) = 0xE92D then some (rest + 4 * n) else functionStartLoop code rest n

/-- `findFunctionStart`; none for `0xFFFFFFFF`. -/
def findFunctionStart (code : Memory UInt8) (pos : Nat) : Option Nat := functionStartLoop code (pos % 4) (pos / 4)

/-! ## The functions to hook -/

/-- The functions that are looked for. -/
inductive Symbol where
  | fsMountArchive
  | fsRegisterArchive
  | fsTryOpenFile
  | fsOpenFileDirectly
  | fsUnMountArchive
  deriving DecidableEq

/-- The cases of `findLayeredFsSymbols` without the test whether the function has been found already. -/
def symbolAt (code : Memory UInt8) (size : UInt32) (addr : Nat) : Option Symbol :=
  let addr32 := fun i => word code (addr + 4 * i)
  if addr32 0 = 0xE5970010 then
    if addr ≤ (size - 12).toNat ∧ addr32 1 = 0xE1CD20D8 ∧ addr32 2 &&& 0xFFFFFF = 0x008D0000 then some .fsMountArchive else none
  else if addr32 0 = 0xE24DD028 then
    if addr ≤ (size - 16).toNat ∧ addr32 1 = 0xE1A04000 ∧ addr32 2 = 0xE59F60A8 ∧ addr32 3 = 0xE3A0C001 then
      some .fsMountArchive
    else none
  else if addr32 0 = 0xE2844001 then
    if addr ≤ (size - 12).toNat ∧ addr32 1 = 0xE3540020 ∧ addr32 2 = 0x3AFFFFF0 then some .fsUnMountArchive else none
  else if addr32 0 = 0xE353003A then
    if addr ≤ (size - 12).toNat ∧ addr32 1 &&& 0xFFFFFF0F = 0x0A000009 ∧ addr32 2 &&& 0xFFFF0FF0 = 0xE1A00400 then
      some .fsUnMountArchive
    else none
  else if addr32 0 = 0xE3500008 then
    if addr ≤ (size - 12).toNat ∧ addr32 1 &&& 0xFFF00FF0 = 0xE1800400 ∧ addr32 2 &&& 0xFFF00FF0 = 0xE1800FC0 then
      some .fsRegisterArchive
    else none
  else if addr32 0 = 0xE351003A then
    if addr ≤ (size - 0x40).toNat ∧ addr32 1 = 0x1AFFFFFC ∧ addr32 0xD = 0xE590C000 ∧ addr32 0xF = 0xE12FFF3C then
      some .fsTryOpenFile
    else none
  else if addr32 0 = 0x08030204 then some .fsOpenFileDirectly
  else none

def symbolsLoop (code : Memory UInt8) (size : UInt32) :
    List Nat → (Symbol → Option Nat) → Nat → (Symbol → Option Nat) × Nat
  | [], symbols, found => (symbols, found)
  | addr :: addrs, symbols, found =>
    match (symbolAt code size addr).filter fun s => (symbols s).isNone with
    | none => symbolsLoop code size addrs symbols found
    | some temp =>
      match findFunctionStart code addr with
      -- a word in front of all functions leaves the symbol missing
      | none => symbolsLoop code size addrs symbols found
      | some pos =>
        let symbols := Function.update symbols temp (some pos)
        if found + 1 = 5 then (symbols, found + 1) else symbolsLoop code size addrs symbols (found + 1)

/-- `findLayeredFsSymbols`. -/
def findLayeredFsSymbols (code : Memory UInt8) (size : UInt32) : Option (Symbol → Nat) :=
  let (symbols, found) := symbolsLoop code size (wordsFrom 0 size) (fun _ => none) 0
  if found = 5 then some fun s => (symbols s).getD 0xFFFFFFFF else none

/-! ## The payload of romfsredir.s -/

/-- The labels of the payload, with the names that begin with `romfsRedirPatch` cut short. -/
inductive Label where
  | mountArchiveEntry
  | substituted1
  | hook1
  | fsRedirEntry
  | substituted2
  | hook2
  | mountArchive
  | fsUnMountArchive
  | fsMountArchive
  | fsRegisterArchive
  | fsRedir
  | pathRedir
  | pathRedir1
  | pathRedir2
  | pathRedir3
  | endRedir
  | compare
  | loop
  | archiveName
  | archiveId
  | romFsMount
  | updateRomFsMount
  | customPath
  deriving DecidableEq

namespace Label

/-- The labels in order. -/
def all : List Label :=
  [mountArchiveEntry, substituted1, hook1, fsRedirEntry, substituted2, hook2, mountArchive, fsUnMountArchive, fsMountArchive,
    fsRegisterArchive, fsRedir, pathRedir, pathRedir1, pathRedir2, pathRedir3, endRedir, compare, loop, archiveName, archiveId,
    romFsMount, updateRomFsMount, customPath]

/-- How many words there are from a label to the next one. -/
def words : Label → Nat
  | mountArchive => 4
  | fsUnMountArchive => 4
  | fsMountArchive => 5
  | fsRegisterArchive => 4
  | fsRedir => 7
  | pathRedir => 3
  | pathRedir1 => 4
  | pathRedir2 => 5
  | pathRedir3 => 9
  | endRedir => 4
  | compare => 2
  | loop => 7
  | _ => 1

/-- The distance of a label from `romfsRedirPatch`. -/
def offset (label : Label) : Nat := 4 * ((all.takeWhile (· ≠ label)).map words).sum

end Label

def romfsRedirPatchSize : Nat := 4 * (Label.all.map Label.words).sum

/-- The payload, of which some labels have other words than the assembled ones. -/
def romfsRedirPatch (assembled : Label → Nat → UInt32) (filled : Label → Option UInt32) : List UInt8 :=
  Label.all.flatMap fun label => (List.range label.words).flatMap fun i =>
    leBytes 4 (if i = 0 then (filled label).getD (assembled label 0) else assembled label i).toNat

/-! ## Places -/

/-- `(size + 4095) & 0xFFFFF000`. -/
def rounded (size : UInt32) : UInt32 := (size + 4095) &&& 0xFFFFF000

/-- The loops for the "throwFatalError" function. -/
def throwFatalError (code : Memory UInt8) (size : UInt32) : Option Nat :=
  match (wordsFrom 4 size).find? fun addr => word code addr = 0xEF00002D with
  | none => none
  | some addr =>
    let svcConnectToPort := addr - 4
    (wordsFrom 4 size).findSome? fun i =>
      if word code i = makeBranchLink i svcConnectToPort then
        (findFunctionStart code i).filter fun func =>
          -- a function that has the word is passed over, and the next call is looked at
          let body := (wordsFrom (func + 4) size).takeWhile fun pos => half code (pos + 2) ≠ 0xE92D
          body.all fun pos => word code pos ≠ 0xE200167E
      else none

/-- The loop for `strSpace`. -/
def strSpace (code : Memory UInt8) (size : UInt32) : Option Nat :=
  (wordsFrom 0 size).findSome? fun addr => if word code addr = 0xE3A00B42 then findFunctionStart code addr else none

/-- Where the payload and the path are put, and the address of the path. -/
structure Place where
  payloadOffset : Nat
  pathOffset : Nat
  pathAddress : UInt32

/-- The choice of the place for the payload; 0 for none. -/
def payloadPlace (code : Memory UInt8) (size : UInt32) : Nat :=
  let roundedTextSize := rounded size
  if (roundedTextSize - size).toNat ≥ romfsRedirPatchSize then size.toNat else (throwFatalError code size).getD 0

/-- The choice of the place for the path, with its address; 0 for none. -/
def pathPlace (code : Memory UInt8) (size roSize dataSize roAddress dataAddress : UInt32) : Nat × UInt32 :=
  let roundedTextSize := rounded size
  let roundedRoSize := rounded roSize
  let roundedDataSize := rounded dataSize
  -- what is put there has 41 bytes
  if roundedRoSize - roSize ≥ 39 then ((roundedTextSize + roSize).toNat, roAddress + roSize)
  else if roundedDataSize - dataSize ≥ 39 then ((roundedTextSize + roundedRoSize + dataSize).toNat, dataAddress + dataSize)
  else
    match strSpace code size with
    | some func => (func, 0x100000 + UInt32.ofNat func)
    | none => (0, 0xDEADCAFE)

/-- `findLayeredFsPayloadOffset`. -/
def findLayeredFsPayloadOffset (code : Memory UInt8) (size roSize dataSize roAddress dataAddress : UInt32) : Option Place :=
  let payloadOffset := payloadPlace code size
  let (pathOffset, pathAddress) := pathPlace code size roSize dataSize roAddress dataAddress
  if payloadOffset ≠ 0 ∧ pathOffset ≠ 0 then some ⟨payloadOffset, pathOffset, pathAddress⟩ else none

/-! ## The patch -/

/-- The image of a title's code: the segments one behind the other, each of them in whole pages. -/
structure Image where
  code : Memory UInt8
  textSize : UInt32
  roSize : UInt32
  dataSize : UInt32
  hasWord : 4 ≤ textSize.toNat
  mapped : (textSize.toNat + 4095) / 4096 * 4096 + (roSize.toNat + 4095) / 4096 * 4096 +
    (dataSize.toNat + 4095) / 4096 * 4096 < 2 ^ 32

/-- The size of what is mapped. -/
def Image.size (image : Image) : UInt32 := rounded image.textSize + rounded image.roSize + rounded image.dataSize

def bytes (s : List Char) : List UInt8 := s.map fun c => UInt8.ofNat c.toNat

def updateRomFsMounts : List (List UInt8) := ["ro2:", "rom2:", "rex:", "patch:", "ext:", "rom:"].map fun s => bytes s.toList

def isMarioKart7 (progId : UInt64) : Bool :=
  [0x00030600, 0x00030700, 0x00030800, 0x00030A00, 0x0008B400].contains progId.toUInt32

/-- `memsearch` finds the name with a 0 in front of it, within as many turns as it can take. -/
def mountFound (image : Image) (mount : List UInt8) : Bool :=
  ((Patcher.memsearch (fun a => image.code a.toNat) 0 (fun k => Memory.ofBytes (0 :: mount) k.toNat) image.size
    (UInt32.ofNat mount.length + 1) (image.size.toNat + 1)).bind Prod.fst).isSome

def updateRomFsMount (image : Image) (progId : UInt64) : List UInt8 :=
  if isMarioKart7 progId then bytes "pat1".toList
  else ((updateRomFsMounts.take 5).find? (mountFound image)).getD (bytes "rom:".toList)

/-- `path`, with the 0 behind it. -/
def romfsPath (progId : UInt64) : List UInt8 := bytes ((patchLayeredFsPath progId).getD []) ++ [0]

/-- The places, the hooked words and what is written to the image. -/
structure Redirection where
  place : Place
  fsOpenFileDirectly : Nat
  fsTryOpenFile : Nat
  writes : List (Write UInt8)

/-- What `patchLayeredFs` does where it reports success. -/
inductive Outcome where
  | unchanged
  | redirected (redirection : Redirection)

/-- `patchLayeredFs`, where `archiveId` is what `checkOmiibaDir` returns for the path; none for false. -/
def patchLayeredFs (assembled : Label → Nat → UInt32) (image : Image) (progId : UInt64)
    (archiveId roAddress dataAddress : UInt32) : Option Outcome :=
  let code := image.code
  if archiveId = 0 then some .unchanged
  else
    match findLayeredFsSymbols code image.textSize,
        findLayeredFsPayloadOffset code image.textSize image.roSize image.dataSize roAddress dataAddress with
    | some symbols, some place =>
      let filled : Label → Option UInt32 := fun label =>
        let here := place.payloadOffset + label.offset
        match label with
        | .substituted1 => some (word code (symbols .fsOpenFileDirectly))
        | .hook1 => some (makeBranch here (symbols .fsOpenFileDirectly + 4))
        | .substituted2 => some (word code (symbols .fsTryOpenFile))
        | .hook2 => some (makeBranch here (symbols .fsTryOpenFile + 4))
        | .customPath => some place.pathAddress
        | .fsMountArchive => some (makeBranchLink here (symbols .fsMountArchive))
        | .fsUnMountArchive => some (makeBranchLink here (symbols .fsUnMountArchive))
        | .fsRegisterArchive => some (makeBranchLink here (symbols .fsRegisterArchive))
        | .archiveId => some archiveId
        | .updateRomFsMount => some (word (Memory.ofBytes (updateRomFsMount image progId)) 0)
        | _ => none
      some <| .redirected
        { place
          fsOpenFileDirectly := symbols .fsOpenFileDirectly
          fsTryOpenFile := symbols .fsTryOpenFile
          writes :=
            [⟨place.payloadOffset, romfsRedirPatch assembled filled⟩,
              ⟨place.pathOffset, bytes "lf:".toList⟩,
              ⟨place.pathOffset + 3, romfsPath progId⟩,
              ⟨symbols .fsOpenFileDirectly, leBytes 4 (makeBranch (symbols .fsOpenFileDirectly) place.payloadOffset).toNat⟩,
              ⟨symbols .fsTryOpenFile, leBytes 4 (makeBranch (symbols .fsTryOpenFile) (place.payloadOffset + 12)).toNat⟩] }
    | _, _ => none

/-! ## What is expected -/

/-- Two ranges have nothing in common. -/
def Apart (a n b k : Nat) : Prop := a + n ≤ b ∨ b + k ≤ a

namespace Image

variable (image : Image)

/-- Where the segments behind the text begin, and where the last one ends. -/
def roStart : Nat := (image.textSize.toNat + 4095) / 4096 * 4096

def dataStart : Nat := image.roStart + (image.roSize.toNat + 4095) / 4096 * 4096

def stop : Nat := image.dataStart + (image.dataSize.toNat + 4095) / 4096 * 4096

/-- The bytes are padding of a segment. -/
def InPadding (a n : Nat) : Prop :=
  (image.textSize.toNat ≤ a ∧ a + n ≤ image.roStart) ∨
    (image.roStart + image.roSize.toNat ≤ a ∧ a + n ≤ image.dataStart) ∨
    (image.dataStart + image.dataSize.toNat ≤ a ∧ a + n ≤ image.stop)

/-- A function begins at the word: it pushes registers. -/
def FunctionAt (p : Nat) : Prop := p % 4 = 0 ∧ p + 4 ≤ image.textSize.toNat ∧ half image.code (p + 2) = 0xE92D

/-- The bytes are of one function, from its beginning on. -/
def InBody (p n : Nat) : Prop :=
  image.FunctionAt p ∧ p + n ≤ image.textSize.toNat ∧ ∀ q, p < q → q < p + n → ¬image.FunctionAt q

/-- The function that a word of the text is in. -/
def FunctionOf (a p : Nat) : Prop := IsGreatest {q | image.FunctionAt q ∧ q + 4 ≤ a} p

/-- Words of a kind, in functions of a kind. -/
def Candidates (start : Nat) (kind good : Nat → Prop) : Set Nat :=
  {a | start ≤ a ∧ a % 4 = 0 ∧ a + 4 ≤ image.textSize.toNat ∧ kind a ∧ ∃ p, image.FunctionOf a p ∧ good p}

/-- The function of the first one of them. -/
def FirstFunction (start : Nat) (kind good : Nat → Prop) (p : Nat) : Prop :=
  ∃ a, IsLeast (image.Candidates start kind good) a ∧ image.FunctionOf a p

/-- The function that is taken for the symbol. -/
def SymbolFunction (symbol : Symbol) : Nat → Prop :=
  image.FirstFunction 0 (fun a => symbolAt image.code image.textSize a = some symbol) fun _ => True

/-- The function whose first word is hooked. -/
def Hooked (p : Nat) : Prop := image.SymbolFunction .fsOpenFileDirectly p ∨ image.SymbolFunction .fsTryOpenFile p

/-- The first system call to connect to a port, with the word in front of it. -/
def SvcConnectToPort : Nat → Prop :=
  IsLeast {p | p % 4 = 0 ∧ p + 8 ≤ image.textSize.toNat ∧ word image.code (p + 4) = 0xEF00002D}

/-- The function that the payload replaces where the padding of the text is too short: the first one that calls the system call
and does not have a certain word. -/
def Replaced (p : Nat) : Prop :=
  ∃ svc, image.SvcConnectToPort svc ∧ image.FirstFunction 4 (fun a => word image.code a = makeBranchLink a svc)
    (fun p => ∀ q, p < q → q % 4 = 0 → image.InBody p (q + 4 - p) → word image.code q ≠ 0xE200167E) p

/-- The function that the path replaces where no padding is long enough. -/
def StringFunction : Nat → Prop := image.FirstFunction 0 (fun a => word image.code a = 0xE3A00B42) fun _ => True

/-- The address that an offset of the image is mapped to. -/
def addressOf (roAddress dataAddress : UInt32) (a : Nat) : UInt32 :=
  if a < image.roStart then 0x100000 + UInt32.ofNat a
  else if a < image.dataStart then roAddress + UInt32.ofNat (a - image.roStart)
  else dataAddress + UInt32.ofNat (a - image.dataStart)

end Image

/-- `3 + sizeof(path)`. -/
def pathSize : Nat := 41

/-- The byte is of a hooked word, the payload or the path. -/
def Redirection.Touches (r : Redirection) (x : Nat) : Prop :=
  (r.fsOpenFileDirectly ≤ x ∧ x < r.fsOpenFileDirectly + 4) ∨ (r.fsTryOpenFile ≤ x ∧ x < r.fsTryOpenFile + 4) ∨
    (r.place.payloadOffset ≤ x ∧ x < r.place.payloadOffset + romfsRedirPatchSize) ∨
    (r.place.pathOffset ≤ x ∧ x < r.place.pathOffset + pathSize)

/-- Nothing else is written, all of it is inside the image, the payload and the path are where nothing else is, and the address
of the path is that of the place where it is. -/
structure Placed (image : Image) (progId : UInt64) (roAddress dataAddress : UInt32) (r : Redirection) : Prop where
  openFileDirectly : image.SymbolFunction .fsOpenFileDirectly r.fsOpenFileDirectly
  tryOpenFile : image.SymbolFunction .fsTryOpenFile r.fsTryOpenFile
  frame : ∀ x, image.code.written r.writes x ≠ image.code x → r.Touches x
  inside : ∀ w ∈ r.writes, w.stop ≤ image.stop
  payload : image.InPadding r.place.payloadOffset romfsRedirPatchSize ∨
    image.Replaced r.place.payloadOffset ∧ image.InBody r.place.payloadOffset romfsRedirPatchSize
  path : image.InPadding r.place.pathOffset pathSize ∨
    image.StringFunction r.place.pathOffset ∧ image.InBody r.place.pathOffset pathSize
  apart : Apart r.place.payloadOffset romfsRedirPatchSize r.place.pathOffset pathSize
  hooksApart : ∀ p, image.Hooked p →
    Apart p 4 r.place.payloadOffset romfsRedirPatchSize ∧ Apart p 4 r.place.pathOffset pathSize
  stored : (image.code.written r.writes).read r.place.pathOffset pathSize = bytes "lf:".toList ++ romfsPath progId
  address : r.place.pathAddress = image.addressOf roAddress dataAddress r.place.pathOffset

/-- What is done in a success is right. -/
def Outcome.Right (image : Image) (progId : UInt64) (roAddress dataAddress : UInt32) : Outcome → Prop
  | .unchanged => True
  | .redirected r => Placed image progId roAddress dataAddress r

namespace Image

variable (image : Image)

/-- There is enough padding behind the text, or else the replaced function is long enough and not hooked. -/
def PayloadFits : Prop :=
  image.textSize.toNat + romfsRedirPatchSize ≤ image.roStart ∨
    ∃ p, image.Replaced p ∧ image.InBody p romfsRedirPatchSize ∧ ¬image.Hooked p

/-- The padding that is taken for the path has 41 bytes, where 39 are asked for, or else the replaced function is long enough,
not hooked and not that of the payload. -/
def PathFits : Prop :=
  let roEnd := image.roStart + image.roSize.toNat
  let dataEnd := image.dataStart + image.dataSize.toNat
  roEnd + pathSize ≤ image.dataStart ∨
    image.dataStart < roEnd + 39 ∧
      (dataEnd + pathSize ≤ image.stop ∨
        image.stop < dataEnd + 39 ∧
          ∃ p, image.StringFunction p ∧ image.InBody p pathSize ∧ ¬image.Hooked p ∧
            (image.textSize.toNat + romfsRedirPatchSize ≤ image.roStart ∨ ¬image.Replaced p))

end Image

/-! ## Sizes -/

theorem rounded_toNat {n : UInt32} (h : (n.toNat + 4095) / 4096 * 4096 < 2 ^ 32) :
    (rounded n).toNat = (n.toNat + 4095) / 4096 * 4096 := by
  have hmask : (0xFFFFF000 : UInt32) = ~~~0xFFF := by decide
  unfold rounded
  rw [hmask, toNat_and_not_0xFFF, UInt32.toNat_add]
  show (n.toNat + 4095) % 2 ^ 32 / 4096 * 4096 = _
  omega

theorem romfsRedirPatchSize_eq : romfsRedirPatchSize = 276 := rfl

@[simp] theorem romfsRedirPatch_length (assembled : Label → Nat → UInt32) (filled : Label → Option UInt32) :
    (romfsRedirPatch assembled filled).length = romfsRedirPatchSize := by
  have hwords : ∀ label : Label, ((List.range label.words).flatMap fun i =>
      leBytes 4 (if i = 0 then (filled label).getD (assembled label 0) else assembled label i).toNat).length =
        4 * label.words :=
    fun label => Memory.length_flatMap_range fun i _ => Memory.leBytes_length 4 _
  unfold romfsRedirPatch romfsRedirPatchSize
  rw [List.length_flatMap]
  simp only [hwords]
  rfl

theorem bytes_length (s : List Char) : (bytes s).length = s.length := List.length_map _

/-- The path of the folder has as many characters as its template. -/
theorem romfsPath_length (progId : UInt64) : (romfsPath progId).length = 38 := by
  have htemplate : (titleTemplate "romfs".toList).length = 37 := by decide
  have hdigits := hexOf_length_le progId
  have hpath : patchLayeredFsPath progId = some _ := titleTemplate_path "romfs".toList progId
  unfold romfsPath
  rw [hpath, Option.getD_some, List.length_append, bytes_length]
  unfold overlay
  simp only [List.length_append, List.length_take, List.length_drop, htemplate, List.length_singleton]
  omega

/-! ## Scans -/

theorem mem_wordsFrom {start : Nat} {size : UInt32} (hstart : start % 4 = 0) {a : Nat} :
    a ∈ wordsFrom start size ↔ start ≤ a ∧ a % 4 = 0 ∧ a + 4 ≤ size.toNat := by
  unfold wordsFrom
  simp only [List.mem_map, List.mem_range]
  constructor
  · rintro ⟨k, hk, rfl⟩
    omega
  · rintro ⟨hle, hword, hsize⟩
    exact ⟨(a - start) / 4, by omega, by omega⟩

theorem wordsFrom_sorted (start : Nat) (size : UInt32) : (wordsFrom start size).Pairwise (· < ·) := by
  unfold wordsFrom
  rw [List.pairwise_map]
  exact List.pairwise_lt_range.imp fun h => by omega

theorem mem_takeWhile_sorted {p : Nat → Bool} : ∀ {l : List Nat}, l.Pairwise (· < ·) → ∀ {q : Nat},
    (q ∈ l.takeWhile p ↔ q ∈ l ∧ ∀ r ∈ l, r ≤ q → p r = true)
  | [], _, q => by simp
  | a :: l, h, q => by
    obtain ⟨hfirst, hrest⟩ := List.pairwise_cons.mp h
    rw [List.takeWhile_cons]
    cases ha : p a with
    | false =>
      simp only [Bool.false_eq_true, if_false, List.not_mem_nil, false_iff]
      rintro ⟨hq, hall⟩
      have hle : a ≤ q := by
        rcases List.mem_cons.mp hq with rfl | hq
        · exact le_rfl
        · exact (hfirst q hq).le
      rw [hall a List.mem_cons_self hle] at ha
      cases ha
    | true =>
      simp only [if_true, List.mem_cons, mem_takeWhile_sorted hrest, forall_eq_or_imp, ha, implies_true, true_and]
      constructor
      · rintro (rfl | ⟨hq, hall⟩)
        · exact ⟨.inl rfl, fun r hr hle => absurd (hfirst r hr) (Nat.not_lt.mpr hle)⟩
        · exact ⟨.inr hq, hall⟩
      · rintro ⟨rfl | hq, hall⟩
        · exact .inl rfl
        · exact .inr ⟨hq, hall⟩

/-- A loop that stops at the first word that has something finds it at the least of those words. -/
theorem isLeast_of_findSome? {α : Type*} {start : Nat} {size : UInt32} {find : Nat → Option α} {v : α}
    (h : (wordsFrom start size).findSome? find = some v) :
    ∃ a, IsLeast {a | a ∈ wordsFrom start size ∧ find a ≠ none} a ∧ find a = some v := by
  obtain ⟨before, a, behind, hwords, hfind, hnone⟩ := List.findSome?_eq_some_iff.mp h
  have hsorted := wordsFrom_sorted start size
  rw [hwords] at hsorted ⊢
  refine ⟨a, ⟨⟨by simp, by rw [hfind]; exact Option.some_ne_none v⟩, ?_⟩, hfind⟩
  rintro b ⟨hb, hsome⟩
  rcases List.mem_append.mp hb with hb | hb
  · exact absurd (hnone b hb) hsome
  · rcases List.mem_cons.mp hb with rfl | hb
    · exact le_rfl
    · exact (List.rel_of_pairwise_cons (List.pairwise_append.mp hsorted).2.1 hb).le

theorem functionStartLoop_spec {code : Memory UInt8} {rest : Nat} : ∀ {n p : Nat}, functionStartLoop code rest n = some p →
    IsGreatest {q | q % 4 = rest % 4 ∧ q + 4 ≤ rest + 4 * n ∧ rest ≤ q ∧ half code (q + 2) = 0xE92D} p
  | 0, p, h => by cases h
  | n + 1, p, h => by
    unfold functionStartLoop at h
    split at h
    · rename_i hpush
      obtain rfl := Option.some.inj h
      exact ⟨⟨by omega, by omega, by omega, hpush⟩, fun q hq => by have := hq.2.1; omega⟩
    · rename_i hpush
      obtain ⟨⟨hmod, hle, hrest, hstart⟩, hmax⟩ := functionStartLoop_spec h
      refine ⟨⟨hmod, by omega, hrest, hstart⟩, ?_⟩
      rintro q ⟨hqmod, hqle, hqrest, hq⟩
      -- the word that the loop has just looked at does not begin a function
      have hne : q ≠ rest + 4 * n := by
        rintro rfl
        exact hpush hq
      exact hmax ⟨hqmod, by omega, hqrest, hq⟩

theorem functionStartLoop_none {code : Memory UInt8} {rest : Nat} : ∀ {n : Nat}, functionStartLoop code rest n = none →
    ∀ q, q % 4 = rest % 4 → q + 4 ≤ rest + 4 * n → rest ≤ q → half code (q + 2) ≠ 0xE92D
  | 0, _, q, hmod, hle, hrest => by omega
  | n + 1, h, q, hmod, hle, hrest => by
    unfold functionStartLoop at h
    split at h
    · cases h
    · rename_i hpush
      by_cases hq : q = rest + 4 * n
      · rwa [hq]
      · exact functionStartLoop_none h q hmod (by omega) hrest

section

variable {image : Image}

/-- What is found for a word of the text is the function that it is in. -/
theorem findFunctionStart_eq_some_iff {a p : Nat} (hword : a % 4 = 0) (ha : a + 4 ≤ image.textSize.toNat) :
    findFunctionStart image.code a = some p ↔ image.FunctionOf a p := by
  have hset : {q | q % 4 = (a % 4) % 4 ∧ q + 4 ≤ a % 4 + 4 * (a / 4) ∧ a % 4 ≤ q ∧ half image.code (q + 2) = 0xE92D} =
      {q | image.FunctionAt q ∧ q + 4 ≤ a} := by
    ext q
    simp only [Set.mem_ofPred_eq, Image.FunctionAt]
    constructor
    · rintro ⟨hmod, hle, -, hpush⟩
      exact ⟨⟨by omega, by omega, hpush⟩, by omega⟩
    · rintro ⟨⟨hmod, -, hpush⟩, hle⟩
      exact ⟨by omega, by omega, by omega, hpush⟩
  unfold findFunctionStart Image.FunctionOf
  rw [← hset]
  constructor
  · exact functionStartLoop_spec
  · intro h
    cases hloop : functionStartLoop image.code (a % 4) (a / 4) with
    | none => exact absurd h.1.2.2.2 (functionStartLoop_none hloop p h.1.1 h.1.2.1 h.1.2.2.1)
    | some q => exact congrArg some ((functionStartLoop_spec hloop).unique h)

/-- A loop for the function of a word of a kind. -/
theorem firstFunction_of_findSome? {start : Nat} {kind good : Nat → Prop} {find : Nat → Option Nat} (hstart : start % 4 = 0)
    (hfind : ∀ a p, a % 4 = 0 → a + 4 ≤ image.textSize.toNat → (find a = some p ↔ kind a ∧ image.FunctionOf a p ∧ good p))
    {p : Nat} (h : (wordsFrom start image.textSize).findSome? find = some p) : image.FirstFunction start kind good p := by
  have hcandidates : {a | a ∈ wordsFrom start image.textSize ∧ find a ≠ none} = image.Candidates start kind good := by
    ext a
    simp only [Set.mem_ofPred_eq, Image.Candidates, mem_wordsFrom hstart, Option.ne_none_iff_exists']
    constructor
    · rintro ⟨⟨hle, hword, hin⟩, q, hq⟩
      obtain ⟨hkind, hfunction⟩ := (hfind a q hword hin).mp hq
      exact ⟨hle, hword, hin, hkind, q, hfunction⟩
    · rintro ⟨hle, hword, hin, hkind, q, hfunction⟩
      exact ⟨⟨hle, hword, hin⟩, q, (hfind a q hword hin).mpr ⟨hkind, hfunction⟩⟩
  obtain ⟨a, hleast, hsome⟩ := isLeast_of_findSome? h
  rw [hcandidates] at hleast
  obtain ⟨-, hword, hin, -⟩ := hleast.1
  exact ⟨a, hleast, ((hfind a p hword hin).mp hsome).2.1⟩

theorem FirstFunction.unique {start : Nat} {kind good : Nat → Prop} {p q : Nat} (hp : image.FirstFunction start kind good p)
    (hq : image.FirstFunction start kind good q) : p = q := by
  obtain ⟨a, ha, hp⟩ := hp
  obtain ⟨b, hb, hq⟩ := hq
  obtain rfl := ha.unique hb
  exact hp.unique hq

theorem FirstFunction.functionAt {start : Nat} {kind good : Nat → Prop} {p : Nat} (h : image.FirstFunction start kind good p) :
    image.FunctionAt p := by
  obtain ⟨a, -, hp⟩ := h
  exact hp.1.1

theorem Replaced.unique {p q : Nat} (hp : image.Replaced p) (hq : image.Replaced q) : p = q := by
  obtain ⟨svc, hsvc, hp⟩ := hp
  obtain ⟨svc', hsvc', hq⟩ := hq
  obtain rfl := hsvc.unique hsvc'
  exact FirstFunction.unique hp hq

theorem Replaced.functionAt {p : Nat} (h : image.Replaced p) : image.FunctionAt p := by
  obtain ⟨svc, -, hp⟩ := h
  exact FirstFunction.functionAt hp

theorem Hooked.functionAt {p : Nat} (h : image.Hooked p) : image.FunctionAt p := by
  rcases h with h | h
  · exact FirstFunction.functionAt h
  · exact FirstFunction.functionAt h

/-- The words that the loop for the word to avoid looks at are those of the function behind its first one. -/
theorem mem_body_iff {p q : Nat} (hp : image.FunctionAt p) :
    q ∈ (wordsFrom (p + 4) image.textSize).takeWhile (fun pos => half image.code (pos + 2) ≠ 0xE92D) ↔
      p < q ∧ q % 4 = 0 ∧ image.InBody p (q + 4 - p) := by
  have hword := hp.1
  have hmem := fun {r : Nat} => @mem_wordsFrom (p + 4) image.textSize (by omega) r
  rw [mem_takeWhile_sorted (wordsFrom_sorted _ _), hmem]
  unfold Image.InBody
  constructor
  · rintro ⟨⟨hle, hmod, hin⟩, hnone⟩
    refine ⟨by omega, hmod, hp, by omega, fun r hpr hrq hr => ?_⟩
    have hpush := hnone r (hmem.mpr ⟨by have := hr.1; omega, hr.1, hr.2.1⟩) (by have := hr.1; omega)
    exact absurd hr.2.2 (by simpa using hpush)
  · rintro ⟨hpq, hmod, -, hin, hnone⟩
    refine ⟨⟨by omega, hmod, by omega⟩, fun r hr hrq => ?_⟩
    obtain ⟨hpr, hrmod, hrin⟩ := hmem.mp hr
    have hstart := hnone r (by omega) (by omega)
    simpa using fun hpush => hstart ⟨hrmod, hrin, hpush⟩

theorem svcConnectToPort_of_find? {addr : Nat}
    (h : ((wordsFrom 4 image.textSize).find? fun addr => word image.code addr = 0xEF00002D) = some addr) :
    image.SvcConnectToPort (addr - 4) := by
  rw [List.find?_eq_findSome?_guard] at h
  obtain ⟨a, ⟨⟨hmem, -⟩, hmin⟩, hfind⟩ := isLeast_of_findSome? h
  obtain ⟨rfl, hsvc⟩ := Option.guard_eq_some_iff.mp hfind
  obtain ⟨hle, hmod, hin⟩ := (mem_wordsFrom rfl).mp hmem
  refine ⟨⟨by omega, by omega, ?_⟩, ?_⟩
  · rw [Nat.sub_add_cancel hle]
    simpa using hsvc
  · rintro q ⟨hqmod, hqin, hq⟩
    have hq' : q + 4 ∈ wordsFrom 4 image.textSize := (mem_wordsFrom rfl).mpr ⟨by omega, by omega, by omega⟩
    have hleast := hmin ⟨hq', by simp [Option.guard, hq]⟩
    omega

theorem replaced_of_throwFatalError {p : Nat} (h : throwFatalError image.code image.textSize = some p) : image.Replaced p := by
  unfold throwFatalError at h
  split at h
  · cases h
  · rename_i addr haddr
    refine ⟨addr - 4, svcConnectToPort_of_find? haddr, firstFunction_of_findSome? rfl (fun a q hword hin => ?_) h⟩
    rw [← findFunctionStart_eq_some_iff hword hin]
    split
    · rename_i hcall
      rw [Option.filter_eq_some_iff, and_iff_right hcall]
      refine and_congr_right fun hfunction => ?_
      have hstart : image.FunctionAt q := ((findFunctionStart_eq_some_iff hword hin).mp hfunction).1.1
      rw [List.all_eq_true]
      simp only [mem_body_iff hstart, decide_eq_true_eq, and_imp]
    · rename_i hcall
      simp [hcall]

theorem stringFunction_of_strSpace {p : Nat} (h : strSpace image.code image.textSize = some p) : image.StringFunction p := by
  refine firstFunction_of_findSome? rfl (fun a q hword hin => ?_) h
  rw [← findFunctionStart_eq_some_iff hword hin]
  split <;> simp_all

/-! ## The functions that are found -/

/-- The symbols, as they are counted. -/
def allSymbols : List Symbol := [.fsMountArchive, .fsRegisterArchive, .fsTryOpenFile, .fsOpenFileDirectly, .fsUnMountArchive]

theorem countP_update {symbols : Symbol → Option Nat} {s : Symbol} (hnew : symbols s = none) (pos : Nat) :
    allSymbols.countP (fun t => (Function.update symbols s (some pos) t).isSome) =
      allSymbols.countP (fun t => (symbols t).isSome) + 1 := by
  cases s <;> simp [allSymbols, List.countP_cons, Function.update, hnew] <;> omega

/-- The function of a word that is taken for a symbol. -/
def symbolFound (code : Memory UInt8) (size : UInt32) (s : Symbol) (addr : Nat) : Option Nat :=
  if symbolAt code size addr = some s then findFunctionStart code addr else none

section

variable {code : Memory UInt8} {size : UInt32} {addr : Nat} {addrs : List Nat} {symbols : Symbol → Option Nat} {temp s : Symbol}
  {pos p : Nat}

/-- What a word has nothing for is found behind it. -/
theorem findSome?_skip (hnone : symbolAt code size addr = some s → findFunctionStart code addr = none)
    (hrest : addrs.findSome? (symbolFound code size s) = some p) :
    (addr :: addrs).findSome? (symbolFound code size s) = some p := by
  have hhere : symbolFound code size s addr = none := by
    unfold symbolFound
    split
    · exact hnone ‹_›
    · rfl
  rw [List.findSome?_cons, hhere]
  exact hrest

/-- What is entered for a word is what is found for it. -/
theorem found_of_update (hsymbol : symbolAt code size addr = some temp) (hnew : symbols temp = none)
    (hfunction : findFunctionStart code addr = some pos) (hs : Function.update symbols temp (some pos) s = some p) :
    symbols s = some p ∨ symbols s = none ∧ (addr :: addrs).findSome? (symbolFound code size s) = some p := by
  by_cases hst : s = temp
  · rw [hst, Function.update_self] at hs
    cases hs
    refine .inr ⟨hst ▸ hnew, ?_⟩
    rw [List.findSome?_cons, symbolFound, hst, if_pos hsymbol, hfunction]
  · rw [Function.update_of_ne hst] at hs
    exact .inl hs

end

/-- The loop counts what it finds, and finds for a symbol that is still missing the first function there is. -/
theorem symbolsLoop_spec {code : Memory UInt8} {size : UInt32} : ∀ {addrs : List Nat} {symbols symbols' : Symbol → Option Nat}
    {found found' : Nat}, symbolsLoop code size addrs symbols found = (symbols', found') →
      allSymbols.countP (fun s => (symbols s).isSome) = found →
      allSymbols.countP (fun s => (symbols' s).isSome) = found' ∧
        ∀ s p, symbols' s = some p → symbols s = some p ∨ symbols s = none ∧ addrs.findSome? (symbolFound code size s) = some p
  | [], symbols, symbols', found, found', h, hcount => by
    cases h
    exact ⟨hcount, fun s p hp => .inl hp⟩
  | addr :: addrs, symbols, symbols', found, found', h, hcount => by
    unfold symbolsLoop at h
    cases htemp : (symbolAt code size addr).filter fun s => (symbols s).isNone with
    | none =>
      rw [htemp] at h
      obtain ⟨hcount', hfound⟩ := symbolsLoop_spec h hcount
      refine ⟨hcount', fun s p hp => (hfound s p hp).imp_right fun ⟨hs, hrest⟩ => ⟨hs, findSome?_skip (fun hsymbol => ?_) hrest⟩⟩
      rw [hsymbol, Option.filter_some, hs] at htemp
      cases htemp
    | some temp =>
      obtain ⟨hsymbol, hnew⟩ := Option.filter_eq_some_iff.mp htemp
      rw [Option.isNone_iff_eq_none] at hnew
      rw [htemp] at h
      dsimp only at h
      cases hfunction : findFunctionStart code addr with
      | none =>
        rw [hfunction] at h
        obtain ⟨hcount', hfound⟩ := symbolsLoop_spec h hcount
        exact ⟨hcount', fun s p hp => (hfound s p hp).imp_right fun ⟨hs, hrest⟩ =>
          ⟨hs, findSome?_skip (fun _ => hfunction) hrest⟩⟩
      | some pos =>
        rw [hfunction] at h
        dsimp only at h
        have hcount' := countP_update hnew pos
        rw [hcount] at hcount'
        split at h
        · cases h
          exact ⟨hcount', fun s p hs => found_of_update hsymbol hnew hfunction hs⟩
        · obtain ⟨hcount'', hfound⟩ := symbolsLoop_spec h hcount'
          refine ⟨hcount'', fun s p hp => ?_⟩
          rcases hfound s p hp with hs | ⟨hs, hrest⟩
          · exact found_of_update hsymbol hnew hfunction hs
          · -- a symbol that is still missing is another one
            have hst : s ≠ temp := by
              rintro rfl
              rw [Function.update_self] at hs
              cases hs
            rw [Function.update_of_ne hst] at hs
            exact .inr ⟨hs, findSome?_skip (fun h => absurd (Option.some.inj (h.symm.trans hsymbol)) hst) hrest⟩

/-- All symbols have the functions that are to be taken for them. -/
theorem symbolFunction_of_find {symbols : Symbol → Nat} (h : findLayeredFsSymbols image.code image.textSize = some symbols)
    (s : Symbol) : image.SymbolFunction s (symbols s) := by
  unfold findLayeredFsSymbols at h
  rcases hloop : symbolsLoop image.code image.textSize (wordsFrom 0 image.textSize) (fun _ => none) 0 with ⟨found, n⟩
  rw [hloop] at h
  obtain ⟨hcount, hfound⟩ := symbolsLoop_spec hloop rfl
  dsimp only at h
  split at h
  · rename_i hall
    obtain rfl := Option.some.inj h
    have hsome : ∀ s ∈ allSymbols, (found s).isSome = true := List.countP_eq_length.mp (hcount.trans hall)
    obtain ⟨p, hp⟩ := Option.isSome_iff_exists.mp (hsome s (by cases s <;> decide))
    rcases hfound s p hp with hnone | ⟨-, hfirst⟩
    · cases hnone
    · show image.SymbolFunction s ((found s).getD 0xFFFFFFFF)
      rw [hp, Option.getD_some]
      refine firstFunction_of_findSome? rfl (fun a q hword hin => ?_) hfirst
      rw [← findFunctionStart_eq_some_iff hword hin]
      unfold symbolFound
      split <;> simp_all
  · cases h

/-! ## The places that are found -/

theorem roStart_toNat : (rounded image.textSize).toNat = image.roStart := by
  rw [@rounded_toNat image.textSize (Nat.lt_of_le_of_lt (by omega) image.mapped)]
  rfl

theorem roSize_rounded : image.roStart + (rounded image.roSize).toNat = image.dataStart := by
  rw [@rounded_toNat image.roSize (Nat.lt_of_le_of_lt (by omega) image.mapped)]
  rfl

theorem dataSize_rounded : image.dataStart + (rounded image.dataSize).toNat = image.stop := by
  rw [@rounded_toNat image.dataSize (Nat.lt_of_le_of_lt (by omega) image.mapped)]
  rfl

/-- The segments are behind one another, and none of them is shorter than what is in it. -/
theorem segments (image : Image) : image.textSize.toNat ≤ image.roStart ∧ image.roStart + image.roSize.toNat ≤ image.dataStart ∧
    image.dataStart + image.dataSize.toNat ≤ image.stop ∧ image.stop < 2 ^ 32 := by
  have := image.mapped
  unfold Image.stop Image.dataStart Image.roStart
  omega

/-- Where the payload is put. -/
def PayloadAt (image : Image) (p : Nat) : Prop :=
  image.textSize.toNat + romfsRedirPatchSize ≤ image.roStart ∧ p = image.textSize.toNat ∨
    image.roStart < image.textSize.toNat + romfsRedirPatchSize ∧ image.Replaced p

/-- Where the path is put, and the address that is given for it. -/
inductive PathAt (image : Image) (roAddress dataAddress : UInt32) (p : Nat) (address : UInt32) : Prop where
  | ro (hroom : image.roStart + image.roSize.toNat + 39 ≤ image.dataStart) (hplace : p = image.roStart + image.roSize.toNat)
      (haddress : address = roAddress + image.roSize)
  | data (hro : image.dataStart < image.roStart + image.roSize.toNat + 39)
      (hroom : image.dataStart + image.dataSize.toNat + 39 ≤ image.stop) (hplace : p = image.dataStart + image.dataSize.toNat)
      (haddress : address = dataAddress + image.dataSize)
  | function (hro : image.dataStart < image.roStart + image.roSize.toNat + 39)
      (hdata : image.stop < image.dataStart + image.dataSize.toNat + 39) (hfunction : image.StringFunction p)
      (haddress : address = 0x100000 + UInt32.ofNat p)

/-- The padding of a segment. -/
theorem padding_toNat {n : UInt32} {start stop : Nat} (hstop : start + (rounded n).toNat = stop)
    (hle : start + n.toNat ≤ stop) : (rounded n - n).toNat = stop - (start + n.toNat) := by
  rw [UInt32.toNat_sub_of_le _ _ (UInt32.le_iff_toNat_le.mpr (by omega))]
  omega

theorem payloadPlace_spec (h : payloadPlace image.code image.textSize ≠ 0) :
    PayloadAt image (payloadPlace image.code image.textSize) := by
  have hle := (segments image).1
  have hpad := @padding_toNat image.textSize 0 image.roStart (by rw [roStart_toNat, Nat.zero_add]) (by omega)
  unfold payloadPlace at h ⊢
  dsimp only at h ⊢
  rw [hpad] at h ⊢
  split
  · exact .inl ⟨by omega, rfl⟩
  · rename_i hshort
    rw [if_neg hshort] at h
    refine .inr ⟨by omega, ?_⟩
    cases hfunction : throwFatalError image.code image.textSize with
    | none =>
      rw [hfunction] at h
      exact absurd rfl h
    | some p => exact replaced_of_throwFatalError hfunction

theorem pathPlace_spec {roAddress dataAddress : UInt32} :
    let path := pathPlace image.code image.textSize image.roSize image.dataSize roAddress dataAddress
    path.1 ≠ 0 → PathAt image roAddress dataAddress path.1 path.2 := by
  obtain ⟨-, hro, hdata, hstop⟩ := segments image
  have hroRounded := @roSize_rounded image
  have hpadRo := padding_toNat hroRounded hro
  have hpadData := padding_toNat dataSize_rounded hdata
  intro path hpath
  have hpathEq : path = pathPlace image.code image.textSize image.roSize image.dataSize roAddress dataAddress := rfl
  unfold pathPlace at hpathEq
  dsimp only at hpathEq
  simp only [ge_iff_le, UInt32.le_iff_toNat_le, hpadRo, hpadData] at hpathEq
  have h39 : (39 : UInt32).toNat = 39 := rfl
  split at hpathEq
  · rw [hpathEq]
    refine .ro (by omega) ?_ rfl
    rw [UInt32.toNat_add, roStart_toNat]
    omega
  · split at hpathEq
    · rw [hpathEq]
      refine .data (by omega) (by omega) ?_ rfl
      rw [UInt32.toNat_add, UInt32.toNat_add, roStart_toNat]
      omega
    · split at hpathEq
      · rename_i p hfunction
        rw [hpathEq]
        exact .function (by omega) (by omega) (stringFunction_of_strSpace hfunction) rfl
      · rw [hpathEq] at hpath
        exact absurd rfl hpath

theorem place_spec {roAddress dataAddress : UInt32} {place : Place}
    (h : findLayeredFsPayloadOffset image.code image.textSize image.roSize image.dataSize roAddress dataAddress = some place) :
    PayloadAt image place.payloadOffset ∧ PathAt image roAddress dataAddress place.pathOffset place.pathAddress := by
  unfold findLayeredFsPayloadOffset at h
  dsimp only at h
  split at h
  · rename_i hfound
    obtain rfl := Option.some.inj h
    exact ⟨payloadPlace_spec hfound.1, pathPlace_spec hfound.2⟩
  · cases h

/-! ## Where things are apart -/

theorem InBody.apart_functionAt {p n q : Nat} (h : image.InBody p n) (hq : image.FunctionAt q) (hne : q ≠ p) :
    Apart q 4 p n := by
  obtain ⟨hp, -, hnone⟩ := h
  have hpmod := hp.1
  have hqmod := hq.1
  rcases Nat.lt_or_gt_of_ne hne with hlt | hgt
  · exact .inl (by omega)
  · exact .inr (Nat.not_lt.mp fun hin => hnone q hgt hin hq)

theorem InBody.apart {p n q k : Nat} (hp : image.InBody p n) (hq : image.InBody q k) (hne : p ≠ q) : Apart p n q k := by
  rcases Nat.lt_or_gt_of_ne hne with hlt | hgt
  · exact .inl (Nat.not_lt.mp fun hin => hp.2.2 q hlt hin hq.1)
  · exact .inr (Nat.not_lt.mp fun hin => hq.2.2 p hgt hin hp.1)

theorem not_inPadding {a n : Nat} (h : image.FunctionAt a) : ¬image.InPadding a n := by
  obtain ⟨htext, hro, hdata, -⟩ := segments image
  have hin := h.2.1
  rintro (⟨hle, -⟩ | ⟨hle, -⟩ | ⟨hle, -⟩) <;> omega

theorem InPadding.stop_le {a n : Nat} (h : image.InPadding a n) : image.textSize.toNat ≤ a ∧ a + n ≤ image.stop := by
  obtain ⟨htext, hro, hdata, -⟩ := segments image
  rcases h with ⟨hle, hstop⟩ | ⟨hle, hstop⟩ | ⟨hle, hstop⟩ <;> omega

/-- A place for something is in padding, or it is that of a function with enough room that is not hooked. -/
def FreePlace (image : Image) (a n : Nat) : Prop := image.InPadding a n ∨ image.InBody a n ∧ ¬image.Hooked a

theorem FreePlace.stop_le {a n : Nat} (h : FreePlace image a n) : a + n ≤ image.stop := by
  obtain ⟨htext, hro, hdata, -⟩ := segments image
  rcases h with h | ⟨⟨-, hstop, -⟩, -⟩
  · exact (InPadding.stop_le h).2
  · omega

theorem FreePlace.apart_hooked {a n p : Nat} (h : FreePlace image a n) (hp : image.Hooked p) : Apart p 4 a n := by
  have hfunction := Hooked.functionAt hp
  rcases h with h | ⟨hbody, hnot⟩
  · have hle := (InPadding.stop_le h).1
    have hin := hfunction.2.1
    exact .inl (by omega)
  · refine InBody.apart_functionAt hbody hfunction ?_
    rintro rfl
    exact hnot hp

/-- The hooked word is not apart from what is put over it. -/
theorem not_apart_self {a n : Nat} (hn : 0 < n) : ¬Apart a 4 a n := by
  rintro (h | h) <;> omega

/-! ## When the places are free -/

section

variable {p q : Nat} {roAddress dataAddress address : UInt32}

theorem payload_of_fits (hfits : image.PayloadFits) (hp : PayloadAt image p) : FreePlace image p romfsRedirPatchSize := by
  rcases hp with ⟨hroom, rfl⟩ | ⟨hshort, hreplaced⟩
  · exact .inl (.inl ⟨le_rfl, hroom⟩)
  · rcases hfits with hroom | ⟨p', hp', hbody, hnot⟩
    · omega
    · obtain rfl := Replaced.unique hreplaced hp'
      exact .inr ⟨hbody, hnot⟩

theorem path_of_fits (hfits : image.PathFits) (hq : PathAt image roAddress dataAddress q address) :
    image.roStart ≤ q ∧ image.InPadding q pathSize ∨
      image.StringFunction q ∧ (image.InBody q pathSize ∧ ¬image.Hooked q) ∧
        (image.textSize.toNat + romfsRedirPatchSize ≤ image.roStart ∨ ¬image.Replaced q) := by
  obtain ⟨-, -, hdata, -⟩ := segments image
  have hsize : pathSize = 41 := rfl
  unfold Image.PathFits at hfits
  dsimp only at hfits
  cases hq with
  | ro hroom hplace _ =>
    obtain hfits | ⟨hshort, -⟩ := hfits
    · exact .inl ⟨by omega, .inr (.inl ⟨by omega, by omega⟩)⟩
    · omega
  | data hro hroom hplace _ =>
    obtain hfits | ⟨-, hfits | ⟨hshort, -⟩⟩ := hfits
    · omega
    · exact .inl ⟨by unfold Image.dataStart at hplace; omega, .inr (.inr ⟨by omega, by omega⟩)⟩
    · omega
  | function hro hdata hfunction _ =>
    obtain hfits | ⟨-, hfits | ⟨-, q', hq', hbody, hnot, hother⟩⟩ := hfits
    · omega
    · omega
    · obtain rfl := FirstFunction.unique hfunction hq'
      exact .inr ⟨hfunction, ⟨hbody, hnot⟩, hother⟩

/-- Free places are apart, as the payload and the path do not get the same function. -/
theorem apart_of_fits (hpayload : image.PayloadFits) (hpath : image.PathFits) (hp : PayloadAt image p)
    (hq : PathAt image roAddress dataAddress q address) : Apart p romfsRedirPatchSize q pathSize := by
  obtain ⟨htext, -⟩ := segments image
  rcases path_of_fits hpath hq with ⟨hbehind, -⟩ | ⟨-, ⟨hbody, -⟩, hother⟩
  · rcases hp with ⟨hroom, rfl⟩ | ⟨hshort, hreplaced⟩
    · exact .inl (by omega)
    · rcases payload_of_fits hpayload (.inr ⟨hshort, hreplaced⟩) with hpadding | ⟨⟨-, hstop, -⟩, -⟩
      · exact absurd hpadding (not_inPadding (Replaced.functionAt hreplaced))
      · exact .inl (by omega)
  · have hstop := hbody.2.1
    rcases hp with ⟨hroom, rfl⟩ | ⟨hshort, hreplaced⟩
    · exact .inr (by omega)
    · rcases payload_of_fits hpayload (.inr ⟨hshort, hreplaced⟩) with hpadding | ⟨hbody', -⟩
      · exact absurd hpadding (not_inPadding (Replaced.functionAt hreplaced))
      · refine InBody.apart hbody' hbody ?_
        rintro rfl
        rcases hother with hroom | hother
        · omega
        · exact hother hreplaced

theorem payloadFits_of_free (hp : PayloadAt image p) (hplace : image.InPadding p romfsRedirPatchSize ∨
    image.Replaced p ∧ image.InBody p romfsRedirPatchSize) (hnot : image.Hooked p → False) : image.PayloadFits := by
  rcases hp with ⟨hroom, -⟩ | ⟨-, hreplaced⟩
  · exact .inl hroom
  · rcases hplace with hpadding | ⟨-, hbody⟩
    · exact absurd hpadding (not_inPadding (Replaced.functionAt hreplaced))
    · exact .inr ⟨p, hreplaced, hbody, hnot⟩

theorem pathFits_of_free (hq : PathAt image roAddress dataAddress q address) (hplace : image.InPadding q pathSize ∨
    image.StringFunction q ∧ image.InBody q pathSize) (hnot : image.Hooked q → False)
    (hother : image.textSize.toNat + romfsRedirPatchSize ≤ image.roStart ∨ ¬image.Replaced q) : image.PathFits := by
  obtain ⟨htext, hro, hdata, -⟩ := segments image
  have hsize : pathSize = 41 := rfl
  unfold Image.PathFits
  dsimp only
  cases hq with
  | ro hroom hplace' _ =>
    -- the place is at the end of the read-only data, and so it is padding of that segment or none at all
    rcases hplace with (⟨-, hstop⟩ | ⟨-, hstop⟩ | ⟨hle, -⟩) | ⟨-, -, hstop, -⟩
    · omega
    · exact .inl (by omega)
    · omega
    · omega
  | data hshort hroom hplace' _ =>
    rcases hplace with (⟨-, hstop⟩ | ⟨-, hstop⟩ | ⟨-, hstop⟩) | ⟨-, -, hstop, -⟩
    · omega
    · omega
    · exact .inr ⟨hshort, .inl (by omega)⟩
    · omega
  | function hshort hshort' hfunction _ =>
    rcases hplace with hpadding | ⟨-, hbody⟩
    · exact absurd hpadding (not_inPadding (FirstFunction.functionAt hfunction))
    · exact .inr ⟨hshort, .inr ⟨hshort', q, hfunction, hbody, hnot, hother⟩⟩

/-- The address that is given for the path is always that of its place. -/
theorem PathAt.address_eq (hq : PathAt image roAddress dataAddress q address) :
    address = image.addressOf roAddress dataAddress q := by
  obtain ⟨htext, hro, hdata, -⟩ := segments image
  unfold Image.addressOf
  cases hq with
  | ro hroom hplace haddress =>
    rw [if_neg (by omega), if_pos (by omega), hplace, Nat.add_sub_cancel_left, UInt32.ofNat_toNat, haddress]
  | data hshort hroom hplace haddress =>
    have hle : image.roStart ≤ image.dataStart := Nat.le_add_right _ _
    rw [if_neg (by omega), if_neg (by omega), hplace, Nat.add_sub_cancel_left, UInt32.ofNat_toNat, haddress]
  | function hshort hshort' hfunction haddress =>
    have hin := (FirstFunction.functionAt hfunction).2.1
    rw [if_pos (by omega), haddress]

end

/-! ## What is written -/

/-- The places of a success, and the blocks that are written there. -/
structure Redirects (image : Image) (progId : UInt64) (roAddress dataAddress : UInt32) (r : Redirection) : Prop where
  openFileDirectly : image.SymbolFunction .fsOpenFileDirectly r.fsOpenFileDirectly
  tryOpenFile : image.SymbolFunction .fsTryOpenFile r.fsTryOpenFile
  payload : PayloadAt image r.place.payloadOffset
  path : PathAt image roAddress dataAddress r.place.pathOffset r.place.pathAddress
  writes : ∃ payload hook1 hook2 : List UInt8,
    payload.length = romfsRedirPatchSize ∧ hook1.length = 4 ∧ hook2.length = 4 ∧
      r.writes = [⟨r.place.payloadOffset, payload⟩, ⟨r.place.pathOffset, bytes "lf:".toList⟩,
        ⟨r.place.pathOffset + 3, romfsPath progId⟩, ⟨r.fsOpenFileDirectly, hook1⟩, ⟨r.fsTryOpenFile, hook2⟩]

theorem redirects_of_success {assembled : Label → Nat → UInt32} {progId : UInt64} {archiveId roAddress dataAddress : UInt32}
    {r : Redirection} (h : patchLayeredFs assembled image progId archiveId roAddress dataAddress = some (.redirected r)) :
    archiveId ≠ 0 ∧ Redirects image progId roAddress dataAddress r := by
  unfold patchLayeredFs at h
  dsimp only at h
  split at h
  · cases h
  · rename_i hfolder
    split at h
    · rename_i symbols place hsymbols hplace
      obtain ⟨hpayload, hpath⟩ := place_spec hplace
      cases h
      exact ⟨hfolder, symbolFunction_of_find hsymbols _, symbolFunction_of_find hsymbols _, hpayload, hpath,
        _, _, _, romfsRedirPatch_length _ _, Memory.leBytes_length _ _, Memory.leBytes_length _ _, rfl⟩
    · cases h

section

variable {progId : UInt64} {roAddress dataAddress : UInt32} {r : Redirection}
  (h : Redirects image progId roAddress dataAddress r)

include h

theorem Redirects.frame (x : Nat) (hx : image.code.written r.writes x ≠ image.code x) : r.Touches x := by
  obtain ⟨payload, hook1, hook2, hpayload, hhook1, hhook2, hwrites⟩ := h.writes
  have hpath := romfsPath_length progId
  have hlf : (bytes "lf:".toList).length = 3 := rfl
  by_contra hnot
  refine hx (Memory.written_untouched ?_)
  unfold Redirection.Touches pathSize at hnot
  rw [hwrites]
  simp only [List.forall_mem_cons, List.not_mem_nil, false_imp_iff, implies_true, and_true, Write.Covers, Write.stop, hpayload,
    hhook1, hhook2, hpath, hlf]
  omega

theorem Redirects.hooked_iff {p : Nat} : image.Hooked p ↔ p = r.fsOpenFileDirectly ∨ p = r.fsTryOpenFile := by
  constructor
  · rintro (hp | hp)
    · exact .inl (FirstFunction.unique hp h.openFileDirectly)
    · exact .inr (FirstFunction.unique hp h.tryOpenFile)
  · rintro (rfl | rfl)
    · exact .inl h.openFileDirectly
    · exact .inr h.tryOpenFile

/-- What is put at the place of the path stays there, if the hooked words are apart from it. -/
theorem Redirects.stored (hapart : ∀ p, image.Hooked p → Apart p 4 r.place.pathOffset pathSize) :
    (image.code.written r.writes).read r.place.pathOffset pathSize = bytes "lf:".toList ++ romfsPath progId := by
  obtain ⟨payload, hook1, hook2, -, hhook1, hhook2, hwrites⟩ := h.writes
  have hlength : (bytes "lf:".toList ++ romfsPath progId).length = pathSize := by
    rw [List.length_append, romfsPath_length]
    rfl
  have hoff : ∀ p, image.Hooked p → r.place.pathOffset + pathSize ≤ p ∨ p + 4 ≤ r.place.pathOffset :=
    fun p hp => (hapart p hp).symm
  have hfirst := hoff _ (h.hooked_iff.mpr (.inl rfl))
  have hsecond := hoff _ (h.hooked_iff.mpr (.inr rfl))
  rw [hwrites]
  simp only [Memory.written_cons, Memory.written_nil]
  rw [Memory.read_store_outside _ (by rwa [hhook2]), Memory.read_store_outside _ (by rwa [hhook1])]
  have hblock := (image.code.store r.place.payloadOffset payload).store_append r.place.pathOffset (bytes "lf:".toList)
    (romfsPath progId)
  rw [show (bytes "lf:".toList).length = 3 from rfl] at hblock
  rw [← hblock, ← hlength, Memory.read_store_take _ _ le_rfl, List.take_length]

/-- Where the places fit, all is as it should be. -/
theorem Redirects.placed (hpayload : image.PayloadFits) (hpath : image.PathFits) :
    Placed image progId roAddress dataAddress r := by
  obtain ⟨htext, hro, hdata, -⟩ := segments image
  have hpayloadFree := payload_of_fits hpayload h.payload
  have hpathFree : FreePlace image r.place.pathOffset pathSize :=
    (path_of_fits hpath h.path).imp And.right fun hfunction => hfunction.2.1
  have hhooks : ∀ p, image.Hooked p →
      Apart p 4 r.place.payloadOffset romfsRedirPatchSize ∧ Apart p 4 r.place.pathOffset pathSize :=
    fun p hp => ⟨hpayloadFree.apart_hooked hp, hpathFree.apart_hooked hp⟩
  constructor
  · exact h.openFileDirectly
  · exact h.tryOpenFile
  · exact h.frame
  · obtain ⟨payload, hook1, hook2, hpayload, hhook1, hhook2, hwrites⟩ := h.writes
    have hstop := hpayloadFree.stop_le
    have hstop' := hpathFree.stop_le
    have hopen := (FirstFunction.functionAt h.openFileDirectly).2.1
    have htry := (FirstFunction.functionAt h.tryOpenFile).2.1
    have hlength := romfsPath_length progId
    have hlf : (bytes "lf:".toList).length = 3 := rfl
    rw [hwrites]
    unfold pathSize at hstop'
    simp only [List.forall_mem_cons, List.not_mem_nil, false_imp_iff, implies_true, and_true, Write.stop, hpayload, hhook1,
      hhook2, hlength, hlf]
    omega
  · rcases h.payload with ⟨hroom, hplace⟩ | ⟨hshort, hreplaced⟩
    · exact .inl (.inl ⟨hplace.ge, by rwa [hplace]⟩)
    · exact hpayloadFree.imp_right fun hbody => ⟨hreplaced, hbody.1⟩
  · exact (path_of_fits hpath h.path).imp And.right fun ⟨hfunction, hbody, _⟩ => ⟨hfunction, hbody.1⟩
  · exact apart_of_fits hpayload hpath h.payload h.path
  · exact hhooks
  · exact h.stored fun p hp => (hhooks p hp).2
  · exact h.path.address_eq

theorem Redirects.fits (hplaced : Placed image progId roAddress dataAddress r) : image.PayloadFits ∧ image.PathFits := by
  have hhooks := hplaced.hooksApart
  refine ⟨payloadFits_of_free h.payload hplaced.payload fun hp => ?_, pathFits_of_free h.path hplaced.path (fun hp => ?_) ?_⟩
  · exact not_apart_self (by decide) (hhooks _ hp).1
  · exact not_apart_self (by decide) (hhooks _ hp).2
  · rcases h.payload with ⟨hroom, -⟩ | ⟨-, hreplaced⟩
    · exact .inl hroom
    · refine .inr fun hsame => ?_
      have hapart := hplaced.apart
      rw [Replaced.unique hreplaced hsame] at hapart
      have hsize : pathSize = 41 := rfl
      have hsize' := romfsRedirPatchSize_eq
      rcases hapart with hapart | hapart <;> omega

end

end

/-- The claim for every image and all addresses: what is done in a success is right exactly if there is no folder, or if the
place that is chosen for the payload, of 276 bytes, and that for the path, of 41, can hold them. -/
theorem layeredFs_iff (assembled : Label → Nat → UInt32) {image : Image} {progId : UInt64}
    {archiveId roAddress dataAddress : UInt32} {outcome : Outcome}
    (h : patchLayeredFs assembled image progId archiveId roAddress dataAddress = some outcome) :
    outcome.Right image progId roAddress dataAddress ↔ archiveId = 0 ∨ image.PayloadFits ∧ image.PathFits := by
  cases outcome with
  | unchanged =>
    refine iff_of_true trivial (.inl ?_)
    unfold patchLayeredFs at h
    dsimp only at h
    split at h
    · assumption
    · split at h <;> cases h
  | redirected r =>
    obtain ⟨hfolder, hredirects⟩ := redirects_of_success h
    constructor
    · exact fun hplaced => .inr (hredirects.fits hplaced)
    · rintro (hnone | ⟨hpayload, hpath⟩)
      · exact absurd hnone hfolder
      · exact hredirects.placed hpayload hpath

theorem success_of_found (assembled : Label → Nat → UInt32) {image : Image} (progId : UInt64)
    {archiveId roAddress dataAddress : UInt32} (hfolder : archiveId ≠ 0)
    (hsymbols : (findLayeredFsSymbols image.code image.textSize).isSome = true)
    (hplace : (findLayeredFsPayloadOffset image.code image.textSize image.roSize image.dataSize roAddress
      dataAddress).isSome = true) :
    ∃ r, patchLayeredFs assembled image progId archiveId roAddress dataAddress = some (.redirected r) := by
  obtain ⟨symbols, hsymbols⟩ := Option.isSome_iff_exists.mp hsymbols
  obtain ⟨place, hplace⟩ := Option.isSome_iff_exists.mp hplace
  unfold patchLayeredFs
  dsimp only
  rw [if_neg hfolder, hsymbols, hplace]
  exact ⟨_, rfl⟩

/-- A text with a function for each symbol. -/
def shortText : List UInt32 :=
  [0xE92D4010, 0xE5970010, 0xE1CD20D8, 0xE28D0000,
    0xE92D4010, 0xE2844001, 0xE3540020, 0x3AFFFFF0,
    0xE92D4010, 0xE3500008, 0xE1800400, 0xE1800FC0,
    0xE92D4010, 0xE351003A, 0x1AFFFFFC, 0xE92D4010,
    0x08030204, 0, 0, 0, 0, 0, 0, 0, 0, 0, 0xE590C000, 0, 0xE12FFF3C, 0, 0, 0]

/-- The text, with a page of data and read-only data that leave so much padding. -/
def shortImage (padding : UInt32) (h : padding.toNat ≤ 4096) : Image where
  code := Memory.ofBytes (shortText.flatMap fun w => leBytes 4 w.toNat)
  textSize := 128
  roSize := 4096 - padding
  dataSize := 4096
  hasWord := by decide
  mapped := by
    have hro : (4096 - padding).toNat ≤ 4096 := by
      rw [UInt32.toNat_sub_of_le _ _ (UInt32.le_iff_toNat_le.mpr h)]
      exact Nat.sub_le _ _
    show (128 + 4095) / 4096 * 4096 + _ + (4096 + 4095) / 4096 * 4096 < _
    omega

theorem layeredFs_iff_shortImage :
    ∃ outcome, patchLayeredFs (fun _ _ => 0) (shortImage 41 (by decide)) 0x0004000000055D00 9 0x101000 0x102000 = some outcome ∧
      outcome.Right (shortImage 41 (by decide)) 0x0004000000055D00 0x101000 0x102000 := by
  obtain ⟨r, hr⟩ := success_of_found (fun _ _ => 0) 0x0004000000055D00 (show (9 : UInt32) ≠ 0 by decide)
    (show (findLayeredFsSymbols (shortImage 41 (by decide)).code 128).isSome = true by decide +kernel)
    (show (findLayeredFsPayloadOffset (shortImage 41 (by decide)).code 128 4055 4096 0x101000 0x102000).isSome = true
      by decide +kernel)
  exact ⟨_, hr, (layeredFs_iff _ hr).mpr (.inr ⟨.inl (by decide), .inl (by decide)⟩)⟩

/-- Where the read-only data have 39 bytes of padding, the path is written over the first two bytes of the data. -/
theorem shortPadding_overwrites :
    ∃ outcome, patchLayeredFs (fun _ _ => 0) (shortImage 39 (by decide)) 0x0004000000055D00 9 0x101000 0x102000 = some outcome ∧
      ¬outcome.Right (shortImage 39 (by decide)) 0x0004000000055D00 0x101000 0x102000 := by
  obtain ⟨r, hr⟩ := success_of_found (fun _ _ => 0) 0x0004000000055D00 (show (9 : UInt32) ≠ 0 by decide)
    (show (findLayeredFsSymbols (shortImage 39 (by decide)).code 128).isSome = true by decide +kernel)
    (show (findLayeredFsPayloadOffset (shortImage 39 (by decide)).code 128 4057 4096 0x101000 0x102000).isSome = true
      by decide +kernel)
  refine ⟨_, hr, fun hright => ?_⟩
  obtain ⟨-, hpath⟩ := (redirects_of_success hr).2.fits hright
  rcases hpath with hroom | ⟨hshort, -⟩
  · exact absurd hroom (by decide)
  · exact absurd hshort (by decide)

end Omiiba.Loader.LayeredFs
