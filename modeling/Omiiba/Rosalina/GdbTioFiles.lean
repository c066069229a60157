/-
The files that the host has open, after tio.c: the slots of a context, their counter, and the handles of the
file system that the requests open and close.
-/
import Omiiba.Lib.Effects
import Omiiba.Lib.Handles
import Omiiba.Lib.System

namespace Omiiba.Rosalina

/-- `MAX_TIO_OPEN_FILE`. -/
def maxTioOpenFile : Nat := 32

/-- `GdbTioFileInfo`; without a handle the slot is free. -/
structure TioFileInfo where
  handle : Nat
  pos : Nat
  size : Nat
  flags : UInt32
  deriving DecidableEq

/-- A slot of zeros. -/
def TioFileInfo.zero : TioFileInfo := ⟨0, 0, 0, 0⟩

/-- The fields of a context for files, and the handles that the file system has given out. -/
structure TioState where
  openTioFileInfos : List TioFileInfo
  size_eq : openTioFileInfos.length = maxTioOpenFile
  numOpenTioFiles : Nat
  archives : Handles
  files : Handles
  deriving DecidableEq

namespace TioState

/-- A context that has just been initialised. -/
def init : TioState := ⟨List.replicate maxTioOpenFile .zero, List.length_replicate, 0, .empty, .empty⟩

/-- A slot written. -/
def setSlot (s : TioState) (i : Nat) (slot : TioFileInfo) : TioState :=
  { s with
    openTioFileInfos := s.openTioFileInfos.set i slot
    size_eq := (List.length_set ..).trans s.size_eq }

/-- The handles in slots. -/
def handlesOf (slots : List TioFileInfo) : List Nat := (slots.map (·.handle)).filter (· ≠ 0)

/-- The handles that a context holds. -/
def held (s : TioState) : List Nat := handlesOf s.openTioFileInfos

end TioState

/-! ## Replies -/

/-- What is sent back: `E`, `F-1,` with an error, or `F` with a number. -/
inductive TioReply
  | eilseq
  | errno (err : Nat)
  | value (n : Nat)
  deriving DecidableEq

/-- `GDBHIO_EINVAL`, `GDBHIO_ENAMETOOLONG`, `GDBHIO_EBADF` and `GDBHIO_EMFILE`. -/
def gdbhioEinval : Nat := 22
def gdbhioEnametoolong : Nat := 91
def gdbhioEbadf : Nat := 9
def gdbhioEmfile : Nat := 24

/-- `GDB_TioConvertResult`. -/
def tioConvertResult (res : UInt32) : Nat :=
  if res = 0 then 0
  else if res = 0x082044BE then 17
  else if res = 0x086044D2 then 28
  else if res = 0xC8804478 ∨ res = 0xC92044FA then 2
  else if res = 0xE0E046BE then gdbhioEinval
  else if res = 0xE0E046BF then gdbhioEnametoolong
  else 9999

/-- How `GDB_MakeUtf16Path` can end. -/
inductive PathResult
  | ok
  | invalid
  | tooLong
  deriving DecidableEq

def PathResult.err : PathResult → Nat
  | ok => 0
  | invalid => gdbhioEinval
  | tooLong => gdbhioEnametoolong

/-! ## Requests -/

/-- The arguments of `vFile:open`; the mode is unused. -/
structure OpenRequest where
  path : PathResult
  flags : UInt32
  deriving DecidableEq

/-- What the file system answers to an open, call by call. -/
structure OpenResults where
  openArchive : UInt32
  createFile : UInt32
  openFile : UInt32
  setSize : UInt32
  deriving DecidableEq

/-- The same for `fstat`. -/
structure StatResults where
  openArchive : UInt32
  openFile : UInt32
  getSize : UInt32
  openDirectory : UInt32
  deriving DecidableEq

/-- `O_ACCMODE`, and whether `O_APPEND`, `O_CREAT`, `O_TRUNC` and `O_EXCL` are set. -/
def OpenRequest.accmode (req : OpenRequest) : UInt32 := req.flags &&& 3
def OpenRequest.append (req : OpenRequest) : Bool := req.flags &&& 0x8 ≠ 0
def OpenRequest.creat (req : OpenRequest) : Bool := req.flags &&& 0x200 ≠ 0
def OpenRequest.trunc (req : OpenRequest) : Bool := req.flags &&& 0x400 ≠ 0
def OpenRequest.excl (req : OpenRequest) : Bool := req.flags &&& 0x800 ≠ 0

/-- The `switch` over the access mode. -/
def OpenRequest.modeErr (req : OpenRequest) : Nat :=
  if req.accmode = 0 then (if req.append then gdbhioEinval else 0)
  else if req.accmode = 1 ∨ req.accmode = 2 then 0
  else gdbhioEinval

/-! ## Handlers -/

abbrev Tio := ExceptT TioReply (StateM TioState)

/-- The slot of a descriptor, if it is used. -/
def tioConvertFd (s : TioState) (fd : UInt32) : Option Nat :=
  if fd.toInt32 < 3 ∨ fd.toInt32 - 3 ≥ 32 then none
  else
    match s.openTioFileInfos[fd.toNat - 3]? with
    | some slot => if slot.handle = 0 then none else some (fd.toNat - 3)
    | none => none

/-- `FSUSER_OpenArchive` that succeeds. -/
def openArchive : Tio Nat := modifyGet fun s => (s.archives.next, { s with archives := s.archives.give })

/-- `FSUSER_CloseArchive`. -/
def closeArchive (ar : Nat) : Tio Unit := modify fun s => { s with archives := s.archives.close ar }

/-- `FSUSER_OpenFile` that succeeds. -/
def openFile : Tio Nat := modifyGet fun s => (s.files.next, { s with files := s.files.give })

/-- `FSFILE_Close`. -/
def closeFile (h : Nat) : Tio Unit := modify fun s => { s with files := s.files.close h }

/-- `GDB_TioRegisterFile`: the slot that the file gets, if there is a free one. -/
def tioRegisterFile (h : Nat) (gdbOpenFlags : UInt32) : Tio (Option Nat) := modifyGet fun s =>
  let i := s.openTioFileInfos.findIdx (·.handle = 0)
  if i ≥ maxTioOpenFile then (none, s)
  else (some (i + 3), { s.setSlot i ⟨h, 0, 0, gdbOpenFlags⟩ with numOpenTioFiles := s.numOpenTioFiles + 1 })

/-- The end of the handler `Open`: the file gets its descriptor. -/
def tioReplyFd (h : Nat) (gdbOpenFlags : UInt32) : Tio TioReply := do
  match ← tioRegisterFile h gdbOpenFlags with
  | none => throw (.errno gdbhioEmfile)
  | some fd => return .value fd

/-- The handler `Open` from the file on, once it is open. -/
def tioOpened (req : OpenRequest) (fs : OpenResults) (ar : Nat) : Tio TioReply := do
  let h ← openFile
  closeArchive ar
  if req.accmode ≠ 0 ∧ req.trunc then
    let err := tioConvertResult fs.setSize
    if err ≠ 0 then
      closeFile h
      throw (.errno err)
  tioReplyFd h (req.flags &&& 0xB)

/-- The handler `Open` from the archive on, once it is open. -/
def tioInArchive (req : OpenRequest) (fs : OpenResults) : Tio TioReply := do
  let ar ← openArchive
  if req.creat ∧ req.excl then
    let err := tioConvertResult fs.createFile
    if err ≠ 0 then
      closeArchive ar
      throw (.errno err)
  let err := tioConvertResult fs.openFile
  if err ≠ 0 then throw (.errno err) -- the archive stays open
  tioOpened req fs ar

/-- The handler `Open`. -/
def tioOpen (req : OpenRequest) (fs : OpenResults) : Tio TioReply := do
  if (← get).numOpenTioFiles ≥ maxTioOpenFile then throw (.errno gdbhioEmfile)
  if req.path.err ≠ 0 then throw (.errno req.path.err)
  if req.modeErr ≠ 0 then throw (.errno req.modeErr)
  let err := tioConvertResult fs.openArchive
  if err ≠ 0 then throw (.errno err)
  tioInArchive req fs

/-- The handler `Close`; the counter stays as it is. -/
def tioClose (fd : UInt32) (closed : UInt32) : Tio TioReply := do
  let s ← get
  match tioConvertFd s fd with
  | none => throw (.errno gdbhioEbadf)
  | some i =>
    closeFile ((s.openTioFileInfos.map (·.handle)).getD i 0)
    modify (·.setSlot i .zero)
    let err := tioConvertResult closed
    if err ≠ 0 then throw (.errno err)
    return .value 0

/-- The handlers `Read` and `Write`, as far as the slot is concerned: it is moved to the offset, and by what has been
transferred. -/
def tioTransfer (fd offset : UInt32) (res : UInt32) (transferred : Nat) : Tio TioReply := do
  let s ← get
  match tioConvertFd s fd with
  | none => throw (.errno gdbhioEbadf)
  | some i =>
    modify (·.setSlot i { s.openTioFileInfos.getD i .zero with pos := offset.toNat + transferred })
    let err := tioConvertResult res
    if err ≠ 0 then throw (.errno err)
    return .value transferred

/-- The handler `Stat` in the archive: a file is opened to see its size, or else a directory. -/
def tioStatEntry (fs : StatResults) : Tio Nat := do
  if tioConvertResult fs.openFile = 0 then
    let h ← openFile
    closeFile h
    return tioConvertResult fs.getSize
  else if tioConvertResult fs.openDirectory = 0 then
    let h ← openFile
    closeFile h
    return 0
  else return tioConvertResult fs.openDirectory

/-- The handler `Stat`. -/
def tioStat (path : PathResult) (fs : StatResults) : Tio TioReply := do
  if path.err ≠ 0 then throw (.errno path.err)
  if tioConvertResult fs.openArchive ≠ 0 then throw (.errno (tioConvertResult fs.openArchive))
  let ar ← openArchive
  let err ← tioStatEntry fs
  closeArchive ar
  if err ≠ 0 then throw (.errno err)
  return .value 0

/-- The part of `GDB_CloseClient` for files. -/
def tioDetach : Tio TioReply := do
  modify fun s =>
    { s with
      openTioFileInfos := List.replicate maxTioOpenFile .zero
      size_eq := List.length_replicate
      numOpenTioFiles := 0
      files := s.held.foldl Handles.close s.files }
  return .value 0

/-! ## Runs -/

/-- The packets, `none` where the arguments cannot be parsed, with the answers of the file system. -/
inductive TioInput
  | open (req : Option OpenRequest) (fs : OpenResults)
  | close (fd : Option UInt32) (closed : UInt32)
  | pread (args : Option (UInt32 × UInt32)) (res : UInt32) (transferred : Nat)
  | pwrite (args : Option (UInt32 × UInt32)) (res : UInt32) (transferred : Nat)
  | fstat (path : Option PathResult) (fs : StatResults)
  | detach

/-- `GDB_HandleVerboseFile`, and the end of a connection. -/
def tioHandler : TioInput → Tio TioReply
  | .open (some req) fs => tioOpen req fs
  | .close (some fd) closed => tioClose fd closed
  | .pread (some (fd, offset)) res transferred => tioTransfer fd offset res transferred
  | .pwrite (some (fd, offset)) res transferred => tioTransfer fd offset res transferred
  | .fstat (some path) fs => tioStat path fs
  | .detach => tioDetach
  | _ => throw .eilseq

/-- The reply to a packet. -/
def tioReply (s : TioState) (i : TioInput) : TioReply :=
  match ((tioHandler i).run.run s).1 with
  | .ok reply => reply
  | .error reply => reply

def tioSystem : System TioState TioInput where
  init s := s = .init
  step s i s' := s' = after (tioHandler i) s

/-! ## Slots -/

namespace TioState

theorem handlesOf_append (slots slots' : List TioFileInfo) : handlesOf (slots ++ slots') = handlesOf slots ++ handlesOf slots' := by
  simp [handlesOf]

theorem handlesOf_cons (slot : TioFileInfo) (slots : List TioFileInfo) :
    handlesOf (slot :: slots) = if slot.handle = 0 then handlesOf slots else slot.handle :: handlesOf slots := by
  by_cases h : slot.handle = 0 <;> simp [handlesOf, h]

variable {slots : List TioFileInfo} {i : Nat} {slot : TioFileInfo}

/-- The handles around a slot, and what the slot itself adds. -/
theorem handlesOf_set (hi : i < slots.length) :
    (handlesOf (slots.set i slot)).Perm (handlesOf [slot] ++ handlesOf (slots.take i ++ slots.drop (i + 1))) := by
  rw [List.set_eq_take_append_cons_drop, if_pos hi, handlesOf_append, ← List.singleton_append, handlesOf_append, handlesOf_append]
  rw [← List.append_assoc, ← List.append_assoc]
  exact List.perm_append_comm.append_right _

theorem handlesOf_slot (hi : i < slots.length) :
    (handlesOf slots).Perm (handlesOf [slots[i]] ++ handlesOf (slots.take i ++ slots.drop (i + 1))) := by
  have h : (handlesOf (slots.set i slots[i])).Perm _ := handlesOf_set hi
  rwa [List.set_getElem_self] at h

/-- A free slot takes a file. -/
theorem handlesOf_register (hi : i < slots.length) (hfree : slots[i].handle = 0) (hslot : slot.handle ≠ 0) :
    (handlesOf (slots.set i slot)).Perm (slot.handle :: handlesOf slots) := by
  have hbefore := handlesOf_slot hi
  have hafter : (handlesOf (slots.set i slot)).Perm _ := handlesOf_set hi
  rw [handlesOf_cons, if_pos hfree] at hbefore
  rw [handlesOf_cons, if_neg hslot] at hafter
  exact hafter.trans (List.Perm.cons _ hbefore.symm)

/-- The handle of a slot that keeps it stays. -/
theorem handlesOf_keep (hi : i < slots.length) (hsame : slot.handle = slots[i].handle) : handlesOf (slots.set i slot) = handlesOf slots := by
  have hmap : (slots.set i slot).map (·.handle) = slots.map (·.handle) := by
    rw [List.map_set, hsame]
    exact List.ext_getElem (by simp) fun j _ _ => by
      simp only [List.getElem_set, List.getElem_map]
      split
      · rename_i heq
        subst heq
        rfl
      · rfl
  unfold handlesOf
  rw [hmap]

theorem handlesOf_length_le (slots : List TioFileInfo) : (handlesOf slots).length ≤ slots.length :=
  (List.length_filter_le _ _).trans_eq (List.length_map _)

/-- There is a free slot if not all of them hold a handle. -/
theorem findIdx_free (h : (handlesOf slots).length < slots.length) : slots.findIdx (·.handle = 0) < slots.length := by
  rw [List.findIdx_lt_length]
  by_contra hno
  simp only [not_exists, not_and] at hno
  have hall : handlesOf slots = slots.map (·.handle) := by
    apply List.filter_eq_self.mpr
    intro n hn
    obtain ⟨slot, hslot, rfl⟩ := List.mem_map.mp hn
    simpa using hno slot hslot
  rw [hall, List.length_map] at h
  exact lt_irrefl _ h

end TioState

/-- The counter tells how many slots are used, and each handle is in a slot or has been closed, once in all. -/
structure TioState.Good (s : TioState) : Prop where
  count : s.numOpenTioFiles = s.held.length
  archives : s.archives.Balanced []
  files : s.files.Balanced s.held

/-- No descriptor in use is closed, and where an open gets as far as the file, the file can be opened. -/
def TioSafe (s : TioState) : TioInput → Prop
  | .close (some fd) _ => tioConvertFd s fd = none
  | .open (some req) fs => s.numOpenTioFiles < maxTioOpenFile → req.path.err = 0 → req.modeErr = 0 →
      tioConvertResult fs.openArchive = 0 → (req.creat ∧ req.excl → tioConvertResult fs.createFile = 0) →
        tioConvertResult fs.openFile = 0
  | _ => True

/-! ## Handlers keep the books -/

/-- What handlers should leave: a reply other than `EMFILE`, and the books in order. -/
def Kept (r : TioReply) (s : TioState) : Prop := r ≠ .errno gdbhioEmfile ∧ s.Good

theorem tioConvertResult_ne (res : UInt32) : tioConvertResult res ≠ gdbhioEmfile := by
  unfold tioConvertResult gdbhioEinval gdbhioEnametoolong gdbhioEmfile
  repeat' split
  all_goals decide

theorem errno_ne {err : Nat} (h : err ≠ gdbhioEmfile) : TioReply.errno err ≠ .errno gdbhioEmfile := by
  intro heq
  exact h (TioReply.errno.inj heq)

variable {s : TioState}

/-- A file that is open gets one of the free slots. -/
theorem tioReplyFd_wp {h : Nat} {flags : UInt32} (hcount : s.numOpenTioFiles = s.held.length)
    (hroom : s.numOpenTioFiles < maxTioOpenFile) (harchives : s.archives.Balanced []) (hfiles : s.files.Balanced (h :: s.held))
    (hh : h ≠ 0) : Wp (tioReplyFd h flags) Kept Kept s := by
  have hfree : s.openTioFileInfos.findIdx (·.handle = 0) < s.openTioFileInfos.length :=
    TioState.findIdx_free (by rw [s.size_eq]; exact hcount ▸ hroom)
  have hslot : s.openTioFileInfos[s.openTioFileInfos.findIdx (·.handle = 0)].handle = 0 := by
    simpa using List.findIdx_getElem (w := hfree)
  have hheld : (TioState.handlesOf (s.openTioFileInfos.set _ ⟨h, 0, 0, flags⟩)).Perm _ :=
    TioState.handlesOf_register hfree hslot hh
  unfold tioReplyFd tioRegisterFile
  rw [wp_bind, wp_modifyGet]
  dsimp only
  rw [if_neg (by rw [← s.size_eq]; omega)]
  refine ⟨by simp, ?_, harchives, ?_⟩
  · exact (congrArg (· + 1) hcount).trans hheld.length_eq.symm
  · exact hfiles.perm hheld.symm

theorem tioOpened_wp {req : OpenRequest} {fs : OpenResults} {ar : Nat} (hcount : s.numOpenTioFiles = s.held.length)
    (hroom : s.numOpenTioFiles < maxTioOpenFile) (harchives : s.archives.Balanced [ar]) (hfiles : s.files.Balanced s.held) :
    Wp (tioOpened req fs ar) Kept Kept s := by
  have hregister : Wp (tioReplyFd s.files.next (req.flags &&& 0xB)) Kept Kept
      { s with archives := s.archives.close ar, files := s.files.give } :=
    tioReplyFd_wp hcount hroom harchives.close hfiles.give (Handles.next_ne_zero _)
  unfold tioOpened openFile closeArchive closeFile
  simp only [wp_bind, wp_modifyGet, wp_modify]
  split
  · split
    · simp only [wp_bind, wp_modify, wp_throw]
      exact ⟨errno_ne (tioConvertResult_ne _), hcount, harchives.close, hfiles.give.close⟩
    · exact hregister
  · exact hregister

theorem tioInArchive_wp {req : OpenRequest} {fs : OpenResults} (hs : s.Good) (hroom : s.numOpenTioFiles < maxTioOpenFile)
    (hfile : (req.creat ∧ req.excl → tioConvertResult fs.createFile = 0) → tioConvertResult fs.openFile = 0) :
    Wp (tioInArchive req fs) Kept Kept s := by
  unfold tioInArchive openArchive closeArchive
  simp only [wp_bind, wp_modifyGet]
  have hopened : Wp (tioOpened req fs s.archives.next) Kept Kept { s with archives := s.archives.give } :=
    tioOpened_wp hs.count hroom hs.archives.give hs.files
  split
  · split
    · simp only [wp_bind, wp_modify, wp_throw]
      exact ⟨errno_ne (tioConvertResult_ne _), hs.count, hs.archives.give.close, hs.files⟩
    · rename_i hcreate
      rw [if_neg (not_not.mpr (hfile fun _ => not_not.mp hcreate))]
      exact hopened
  · rename_i hexcl
    rw [if_neg (not_not.mpr (hfile fun h => absurd h hexcl))]
    exact hopened

/-- Where the file cannot be opened, the reply tells why. -/
theorem tioInArchive_failed {req : OpenRequest} {fs : OpenResults} (hfile : tioConvertResult fs.openFile ≠ 0) :
    Wp (tioInArchive req fs) (fun r _ => r ≠ .errno gdbhioEmfile) (fun r _ => r ≠ .errno gdbhioEmfile) s := by
  unfold tioInArchive openArchive closeArchive
  simp only [wp_bind, wp_modifyGet]
  split
  · split
    · simp only [wp_bind, wp_modify, wp_throw]
      exact errno_ne (tioConvertResult_ne _)
    · simp only [wp_bind, wp_throw]
      exact errno_ne (tioConvertResult_ne _)
  · simp only [wp_bind, wp_throw]
    exact errno_ne (tioConvertResult_ne _)

theorem path_err_ne (path : PathResult) : path.err ≠ gdbhioEmfile := by
  cases path <;> decide

theorem modeErr_ne (req : OpenRequest) : req.modeErr ≠ gdbhioEmfile := by
  unfold OpenRequest.modeErr
  repeat' split
  all_goals decide

/-- The handler from its first checks on: with a free slot the reply is another one. -/
theorem tioOpen_wp {req : OpenRequest} {fs : OpenResults} (hs : s.Good) (hroom : s.numOpenTioFiles < maxTioOpenFile) :
    Wp (tioOpen req fs) (fun r s' => r ≠ .errno gdbhioEmfile ∧ (TioSafe s (.open (some req) fs) → s'.Good))
      (fun r s' => r ≠ .errno gdbhioEmfile ∧ (TioSafe s (.open (some req) fs) → s'.Good)) s := by
  unfold tioOpen
  simp only [wp_bind, wp_get]
  rw [if_neg (Nat.not_le.mpr hroom)]
  split
  · exact ⟨errno_ne (path_err_ne _), fun _ => hs⟩
  split
  · exact ⟨errno_ne (modeErr_ne _), fun _ => hs⟩
  split
  · exact ⟨errno_ne (tioConvertResult_ne _), fun _ => hs⟩
  rename_i hpath hmode harchive
  by_cases hfile : (req.creat ∧ req.excl → tioConvertResult fs.createFile = 0) → tioConvertResult fs.openFile = 0
  · exact (tioInArchive_wp hs hroom hfile).mono (fun _ _ h => ⟨h.1, fun _ => h.2⟩) fun _ _ h => ⟨h.1, fun _ => h.2⟩
  · have hfailed : tioConvertResult fs.openFile ≠ 0 := fun h => hfile fun _ => h
    have hunsafe : ¬TioSafe s (.open (some req) fs) := fun h =>
      hfile (h hroom (not_not.mp hpath) (not_not.mp hmode) (not_not.mp harchive))
    exact (tioInArchive_failed hfailed).mono (fun _ _ h => ⟨h, fun h => absurd h hunsafe⟩)
      fun _ _ h => ⟨h, fun h => absurd h hunsafe⟩

theorem tioTransfer_wp {fd offset res : UInt32} {transferred : Nat} (hs : s.Good) :
    Wp (tioTransfer fd offset res transferred) (fun _ s' => s'.Good) (fun _ s' => s'.Good) s := by
  unfold tioTransfer
  simp only [wp_bind, wp_get]
  cases hfd : tioConvertFd s fd with
  | none => exact hs
  | some i =>
    have hmoved : (s.setSlot i { s.openTioFileInfos.getD i .zero with pos := offset.toNat + transferred }).Good := by
      have hheld : (s.setSlot i { s.openTioFileInfos.getD i .zero with pos := offset.toNat + transferred }).held = s.held := by
        rcases Nat.lt_or_ge i s.openTioFileInfos.length with hi | hi
        · refine TioState.handlesOf_keep hi ?_
          simp [List.getD_eq_getElem?_getD, List.getElem?_eq_getElem hi]
        · exact congrArg TioState.handlesOf (List.set_eq_of_length_le hi)
      exact ⟨hs.count.trans (congrArg List.length hheld.symm), hs.archives, by rw [hheld]; exact hs.files⟩
    simp only [wp_bind, wp_modify]
    split
    · exact hmoved
    · exact hmoved

/-- What is opened to look at an entry is closed again. -/
theorem tioStatEntry_wp {fs : StatResults} {ar : Nat} (hcount : s.numOpenTioFiles = s.held.length) (harchives : s.archives.Balanced [ar])
    (hfiles : s.files.Balanced s.held) :
    Wp (tioStatEntry fs) (fun _ s' => s'.numOpenTioFiles = s'.held.length ∧ s'.archives.Balanced [ar] ∧ s'.files.Balanced s'.held)
      (fun _ _ => False) s := by
  unfold tioStatEntry openFile closeFile
  split
  · simp only [wp_bind, wp_modifyGet, wp_modify, wp_pure]
    exact ⟨hcount, harchives, hfiles.give.close⟩
  · split
    · simp only [wp_bind, wp_modifyGet, wp_modify, wp_pure]
      exact ⟨hcount, harchives, hfiles.give.close⟩
    · exact ⟨hcount, harchives, hfiles⟩

theorem tioStat_wp {path : PathResult} {fs : StatResults} (hs : s.Good) :
    Wp (tioStat path fs) (fun _ s' => s'.Good) (fun _ s' => s'.Good) s := by
  have hentry : Wp (tioStatEntry fs) (fun _ s' => s'.numOpenTioFiles = s'.held.length ∧ s'.archives.Balanced [s.archives.next] ∧
      s'.files.Balanced s'.held) (fun _ _ => False) { s with archives := s.archives.give } :=
    tioStatEntry_wp hs.count hs.archives.give hs.files
  unfold tioStat openArchive closeArchive
  dsimp only
  split
  · exact hs
  split
  · exact hs
  simp only [wp_bind, wp_modifyGet]
  refine hentry.mono (fun err s' h => ?_) fun _ _ h => h.elim
  obtain ⟨hcount, harchives, hfiles⟩ := h
  split
  · exact ⟨hcount, harchives.close, hfiles⟩
  · exact ⟨hcount, harchives.close, hfiles⟩

theorem tioDetach_wp (hs : s.Good) : Wp tioDetach (fun _ s' => s'.Good) (fun _ s' => s'.Good) s := by
  unfold tioDetach
  simp only [wp_bind, wp_modify]
  refine ⟨?_, hs.archives, ?_⟩
  · rfl
  · exact hs.files.closeAll

/-! ## Runs keep the books -/

theorem good_init : TioState.init.Good := ⟨rfl, Handles.balanced_empty, Handles.balanced_empty⟩

theorem tioHandler_good {i : TioInput} (hs : s.Good) (hsafe : TioSafe s i) :
    Wp (tioHandler i) (fun _ s' => s'.Good) (fun _ s' => s'.Good) s := by
  match i with
  | .open none _ => exact hs
  | .open (some req) fs =>
    rcases Nat.lt_or_ge s.numOpenTioFiles maxTioOpenFile with hfree | hfull
    · exact (tioOpen_wp hs hfree).mono (fun _ _ h => h.2 hsafe) fun _ _ h => h.2 hsafe
    · show Wp (tioOpen req fs) _ _ s
      unfold tioOpen
      simp only [wp_bind, wp_get]
      rw [if_pos hfull]
      exact hs
  | .close none _ => exact hs
  | .close (some fd) closed =>
    show Wp (tioClose fd closed) _ _ s
    unfold tioClose
    simp only [wp_bind, wp_get]
    rw [show tioConvertFd s fd = none from hsafe]
    exact hs
  | .pread none _ _ => exact hs
  | .pread (some (fd, offset)) res transferred => exact tioTransfer_wp hs
  | .pwrite none _ _ => exact hs
  | .pwrite (some (fd, offset)) res transferred => exact tioTransfer_wp hs
  | .fstat none _ => exact hs
  | .fstat (some path) fs => exact tioStat_wp hs
  | .detach => exact tioDetach_wp hs

theorem TioState.Good.room (hs : s.Good) : s.numOpenTioFiles ≤ maxTioOpenFile := by
  rw [hs.count, ← s.size_eq]
  exact TioState.handlesOf_length_le _

/-- An open is refused for want of a slot if and only if there is none. -/
theorem tioReply_emfile (hs : s.Good) (req : OpenRequest) (fs : OpenResults) :
    tioReply s (.open (some req) fs) = .errno gdbhioEmfile ↔ s.held.length = maxTioOpenFile := by
  have hroom := hs.room
  rw [← hs.count]
  constructor
  · intro hreply
    by_contra hfree
    have hless : s.numOpenTioFiles < maxTioOpenFile := by omega
    have hwp : Wp (tioOpen req fs) _ _ s := tioOpen_wp hs hless
    unfold tioReply tioHandler at hreply
    unfold Wp at hwp
    rcases hrun : (tioOpen req fs).run.run s with ⟨e | a, s'⟩
    · rw [hrun] at hreply hwp
      exact hwp.1 hreply
    · rw [hrun] at hreply hwp
      exact hwp.1 hreply
  · intro hfull
    have hwp : Wp (tioOpen req fs) (fun _ _ => False) (fun r _ => r = .errno gdbhioEmfile) s := by
      unfold tioOpen
      simp only [wp_bind, wp_get]
      rw [if_pos (by omega)]
      rfl
    unfold tioReply tioHandler
    unfold Wp at hwp
    rcases hrun : (tioOpen req fs).run.run s with ⟨e | a, s'⟩
    · rw [hrun] at hwp
      exact hwp
    · rw [hrun] at hwp
      exact hwp.elim

theorem after_of_wp {σ ε α : Type} {x : ExceptT ε (StateM σ) α} {P : σ → Prop} {s : σ}
    (h : Wp x (fun _ s' => P s') (fun _ s' => P s') s) : P (after x s) := by
  unfold Wp at h
  unfold after
  rcases hx : x.run.run s with ⟨e | a, s'⟩
  · rwa [hx] at h
  · rwa [hx] at h

theorem tio_books {s : TioState} (h : (tioSystem.restrict TioSafe).Reachable s) :
    s.Good ∧ ∀ req fs, tioReply s (.open (some req) fs) = .errno gdbhioEmfile ↔ s.held.length = maxTioOpenFile := by
  have hgood : s.Good := by
    refine h.invariant ?_ ?_
    · rintro s rfl
      exact good_init
    · rintro s i s' _ hs ⟨hsafe, rfl⟩
      exact after_of_wp (tioHandler_good hs hsafe)
  exact ⟨hgood, tioReply_emfile hgood⟩

/-- The file `/` for reading, with a file system that agrees to everything. -/
def openForReading : TioInput := .open (some ⟨.ok, 0⟩ : Option OpenRequest) ⟨0, 0, 0, 0⟩

/-- The state with one file. -/
def tioOneFile : TioState := after (tioHandler openForReading) .init

theorem tio_books_oneFile : tioOneFile.held = [1] ∧ tioOneFile.Good ∧
    ∀ req fs, tioReply tioOneFile (.open (some req) fs) = .errno gdbhioEmfile ↔ tioOneFile.held.length = maxTioOpenFile :=
  ⟨rfl, tio_books (.step (i := openForReading) (.init rfl) ⟨fun _ _ _ _ _ => rfl, rfl⟩)⟩

/-- After the file is closed again the counter still counts it. -/
theorem tio_close_miscounts : ∃ s, tioSystem.Reachable s ∧ s.held = [] ∧ ¬s.Good := by
  refine ⟨after (tioHandler (.close (some 3) 0)) tioOneFile, ?_, rfl, fun hgood => ?_⟩
  · have hopened : tioSystem.Reachable tioOneFile := .step (i := openForReading) (.init rfl) rfl
    exact .step (i := TioInput.close (some 3) 0) hopened rfl
  · have hcount : (1 : Nat) = 0 := hgood.count
    cases hcount

end Omiiba.Rosalina
