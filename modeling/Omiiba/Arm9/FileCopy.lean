/-
Copying a file, after `fileCopy` and `doOmiibaUpgradeProcess` of fs.c, over a FatFs of which every operation
can fail: when a copy that returns is one that can be relied on.
-/
import Mathlib.Tactic

namespace Omiiba.Arm9

/-! ## The file system -/

/-- `FRESULT`. -/
inductive FResult
  | ok
  | diskErr
  | intErr
  | notReady
  | noFile
  | noPath
  | invalidName
  | denied
  | exist
  | invalidObject
  | writeProtected
  | invalidDrive
  | notEnabled
  | noFilesystem
  | mkfsAborted
  | timeout
  | locked
  | notEnoughCore
  | tooManyOpenFiles
  | invalidParameter
  deriving DecidableEq

/-- The answers of an open that say what is at the path, and are not failures of their own. -/
def FResult.regular (res : FResult) : Bool := res = .ok || res = .noFile || res = .noPath || res = .exist

/-- The error of an operation that fails on its way. -/
abbrev Failure := { res : FResult // res.regular = false }

/-- What is at a path: its folder is missing, the folder has no such file, a file. -/
inductive Entry
  | noPath
  | noFile
  | file (content : List UInt8)
  deriving DecidableEq

def Entry.content : Entry → Option (List UInt8)
  | .noPath => none
  | .noFile => none
  | .file content => some content

/-- A failure of an operation that was changing the destination, with what it leaves there. -/
abbrev Fault := Option (Failure × Entry)

/-- The failures of the operations of a copy. A read or a write that is not whole has its result and the bytes
it counts; they are numbered by the rounds of the loop. -/
structure Faults where
  openSrc : Option Failure
  openDst : Fault
  mkdir : List Char → FResult
  reopenDst : Fault
  read : Nat → Option (FResult × Nat)
  write : Nat → Option (FResult × Nat)
  closeDst : Fault
  unlink : Fault

/-- `f_open` with `FA_READ`. -/
def openRead (fault : Option Failure) : Entry → FResult
  | .noPath => (fault.map (·.val)).getD .noPath
  | .noFile => (fault.map (·.val)).getD .noFile
  | .file _ => (fault.map (·.val)).getD .ok

/-- `f_open` with `FA_WRITE | (replace ? FA_CREATE_ALWAYS : FA_CREATE_NEW)`: a file that is there is cut before
its clusters are freed, which can fail; one that is not to be replaced stays as it is. -/
def openCreate (fault : Fault) (replace : Bool) : Entry → FResult × Entry
  | .noPath => ((fault.map (·.1.val)).getD .noPath, .noPath)
  | .noFile =>
    match fault with
    | some (res, left) => (res, left)
    | none => (.ok, .file [])
  | .file content =>
    if replace then
      match fault with
      | some (res, left) => (res, left)
      | none => (.ok, .file [])
    else ((fault.map (·.1.val)).getD .exist, .file content)

/-- What `f_close` leaves of a file that was written to; its result is not looked at. -/
def closed (fault : Fault) (entry : Entry) : Entry := (fault.map (·.2)).getD entry

/-- What `f_unlink` leaves, its result is not looked at either. -/
def unlinked (fault : Fault) : Entry := (fault.map (·.2)).getD .noFile

/-! ## The copy -/

/-- The folder of `pathDst`, of at most `FF_MAX_LFN` characters. -/
def lastDir (pathDst : List Char) : Option (List Char) :=
  let folder := (pathDst.reverse.dropWhile (· ≠ '/')).reverse
  if '/' ∈ pathDst ∧ folder.length - 1 ≤ 255 then some folder.dropLast else none

/-- The answer to `FR_NO_PATH`: the last folder is made, and the destination opened in it. -/
def makeAndOpen (f : Faults) (pathDst : List Char) (replace : Bool) : FResult × Entry :=
  match lastDir pathDst with
  | none => (.noPath, .noPath)
  | some folder =>
    match f.mkdir folder with
    | .ok => openCreate f.reopenDst replace .noFile
    | res => (res, .noPath)

/-- The loop over the source, from round `i` with `rem` bytes left: whether it comes to its end, and what it has
written. -/
def copyLoop (f : Faults) (content : List UInt8) (bufferSize : Nat) : Nat → Nat → Nat → List UInt8 →
    Option (Bool × List UInt8)
  | _, _, 0, written => some (true, written)
  | 0, _, _ + 1, _ => none
  | fuel + 1, i, rem + 1, written =>
    let sz := if rem + 1 ≥ bufferSize then bufferSize else rem + 1
    let chunk := (content.drop (content.length - (rem + 1))).take sz
    let (res, n) := (f.read i).getD (.ok, sz)
    let res := if n ≠ sz then .intErr else res
    if res = .ok then
      let (res, n) := (f.write i).getD (.ok, sz)
      let res := if n ≠ sz then .denied else res
      if res = .ok then copyLoop f content bufferSize fuel (i + 1) (rem + 1 - sz) (written ++ chunk)
      else some (false, written ++ chunk.take n)
    else some (false, written)

/-- `fileCopy`: what it returns and what is at the destination after it. The fuel is of one round for each byte,
it only runs out with an empty buffer, where the source goes on for ever. -/
def fileCopy (f : Faults) (pathDst : List Char) (src dst : Entry) (replace : Bool) (bufferSize : Nat) :
    Option (Bool × Entry) :=
  match openRead f.openSrc src, src.content with
  | .ok, some content =>
    let (res, dst) := openCreate f.openDst replace dst
    if res = .exist then some (true, dst)
    else
      let (res, dst) := if res = .noPath then makeAndOpen f pathDst replace else (res, dst)
      if res ≠ .ok then some (false, dst)
      else
        match copyLoop f content bufferSize content.length 0 content.length [] with
        | some (true, written) => some (true, closed f.closeDst (.file written))
        | some (false, _) => some (false, unlinked f.unlink)
        | none => none
  | _, _ => some (true, dst)

/-- `doOmiibaUpgradeProcess`: what it returns and what is then at nand:/boot.firm; `backedUp` is what
`backupEssentialFiles` returns, which like the rest of the function has other files. -/
def doOmiibaUpgradeProcess (f : Faults) (isSdMode : Bool) (launchedPathForFatfs : List Char) (launched boot : Entry)
    (backedUp : Bool) : Option (Bool × Entry) :=
  if isSdMode ∧ launchedPathForFatfs.take 5 = "sdmc:".toList then
    (fileCopy f "nand:/boot.firm".toList launched boot true 0x10000).map fun (ok, boot) => (ok && backedUp, boot)
  else some (backedUp, boot)

/-! ## The loop -/

/-- A read or a write of `sz` bytes that does all of it. -/
def WholeTransfer (transfer : Option (FResult × Nat)) (sz : Nat) : Prop := transfer.getD (.ok, sz) = (.ok, sz)

/-- Round `i` reads and writes its part of `length` bytes. -/
def WholeRound (f : Faults) (length bufferSize i : Nat) : Prop :=
  WholeTransfer (f.read i) (min bufferSize (length - i * bufferSize)) ∧
    WholeTransfer (f.write i) (min bufferSize (length - i * bufferSize))

/-- No transfer of the loop fails. -/
def WholeTransfers (f : Faults) (length bufferSize : Nat) : Prop :=
  ∀ i, i * bufferSize < length → WholeRound f length bufferSize i

section Loop

variable {f : Faults} {content : List UInt8} {bufferSize : Nat}

/-- The result of a transfer, after it is compared with what was wanted. -/
theorem transfer_ok_iff (transfer : Option (FResult × Nat)) (sz : Nat) (res : FResult) (hres : res ≠ .ok) :
    (if (transfer.getD (.ok, sz)).2 ≠ sz then res else (transfer.getD (.ok, sz)).1) = .ok ↔ WholeTransfer transfer sz := by
  unfold WholeTransfer
  rcases transfer.getD (.ok, sz) with ⟨result, n⟩
  by_cases hn : n = sz
  · simp [hn]
  · simp [hn, hres]

/-- A round: it goes on with what is behind its chunk, or the loop has failed. -/
theorem copyLoop_round (fuel i : Nat) (written : List UInt8)
    (hmore : i * bufferSize < content.length) :
    (WholeRound f content.length bufferSize i →
      copyLoop f content bufferSize (fuel + 1) i (content.length - i * bufferSize) written =
        copyLoop f content bufferSize fuel (i + 1) (content.length - (i + 1) * bufferSize)
          (written ++ (content.drop (i * bufferSize)).take bufferSize)) ∧
      (¬ WholeRound f content.length bufferSize i →
        ∃ left, copyLoop f content bufferSize (fuel + 1) i (content.length - i * bufferSize) written =
          some (false, left)) := by
  obtain ⟨rem, hrem⟩ : ∃ rem, content.length - i * bufferSize = rem + 1 := ⟨_, (Nat.succ_pred (by omega)).symm⟩
  have hsz : (if rem + 1 ≥ bufferSize then bufferSize else rem + 1) = min bufferSize (content.length - i * bufferSize) := by
    rw [hrem]
    split <;> omega
  have hnext : rem + 1 - min bufferSize (content.length - i * bufferSize) = content.length - (i + 1) * bufferSize := by
    rw [← hrem, Nat.succ_mul]
    omega
  have hat : content.length - (rem + 1) = i * bufferSize := by omega
  have hchunk : (content.drop (i * bufferSize)).take (min bufferSize (content.length - i * bufferSize)) =
      (content.drop (i * bufferSize)).take bufferSize := by
    rw [List.take_eq_take_iff, List.length_drop]
    omega
  have hread := transfer_ok_iff (f.read i) (min bufferSize (content.length - i * bufferSize)) .intErr (by decide)
  have hwrite := transfer_ok_iff (f.write i) (min bufferSize (content.length - i * bufferSize)) .denied (by decide)
  rw [hrem, copyLoop]
  dsimp only
  rw [hsz, hat, hnext, hchunk]
  constructor
  · rintro ⟨hr, hw⟩
    rw [if_pos (hread.mpr hr), if_pos (hwrite.mpr hw)]
  · intro hfail
    by_cases hr : WholeTransfer (f.read i) (min bufferSize (content.length - i * bufferSize))
    · rw [if_pos (hread.mpr hr), if_neg (mt hwrite.mp fun hw => hfail ⟨hr, hw⟩)]
      exact ⟨_, rfl⟩
    · rw [if_neg (mt hread.mp hr)]
      exact ⟨_, rfl⟩

/-- The loop comes to its end, with the whole source written, when no transfer from here on fails. -/
theorem copyLoop_from (hbuf : 0 < bufferSize) : ∀ (fuel i : Nat) (written : List UInt8),
    content.length - i * bufferSize ≤ fuel →
    ((∀ j ≥ i, j * bufferSize < content.length → WholeRound f content.length bufferSize j) ∧
      copyLoop f content bufferSize fuel i (content.length - i * bufferSize) written =
        some (true, written ++ content.drop (i * bufferSize))) ∨
    ((∃ j ≥ i, j * bufferSize < content.length ∧ ¬ WholeRound f content.length bufferSize j) ∧
      ∃ left, copyLoop f content bufferSize fuel i (content.length - i * bufferSize) written = some (false, left)) := by
  intro fuel
  induction fuel with
  | zero =>
    intro i written hfuel
    have hend : content.length ≤ i * bufferSize := by omega
    refine Or.inl ⟨fun j hj hmore => ?_, ?_⟩
    · have hle := Nat.mul_le_mul_right bufferSize hj
      omega
    · rw [Nat.sub_eq_zero_of_le hend, List.drop_of_length_le hend, List.append_nil, copyLoop]
  | succ fuel ih =>
    intro i written hfuel
    by_cases hmore : i * bufferSize < content.length
    · obtain ⟨hgoes, hfails⟩ := copyLoop_round (f := f) fuel i written hmore
      by_cases hwhole : WholeRound f content.length bufferSize i
      · rw [hgoes hwhole]
        rcases ih (i + 1) (written ++ (content.drop (i * bufferSize)).take bufferSize)
          (by rw [Nat.succ_mul]; omega) with ⟨hall, hloop⟩ | ⟨⟨j, hj, hbad⟩, hloop⟩
        · refine Or.inl ⟨fun j hj hlt => ?_, ?_⟩
          · rcases hj.eq_or_lt with rfl | hj
            · exact hwhole
            · exact hall j hj hlt
          · rw [hloop, List.append_assoc, Nat.succ_mul, ← List.drop_drop, List.take_append_drop]
        · exact Or.inr ⟨⟨j, by omega, hbad⟩, hloop⟩
      · exact Or.inr ⟨⟨i, le_rfl, hmore, hwhole⟩, hfails hwhole⟩
    · have hend : content.length ≤ i * bufferSize := by omega
      refine Or.inl ⟨fun j hj hlt => ?_, ?_⟩
      · have hle := Nat.mul_le_mul_right bufferSize hj
        omega
      · rw [Nat.sub_eq_zero_of_le hend, List.drop_of_length_le hend, List.append_nil, copyLoop]

/-- The whole loop. -/
theorem copyLoop_whole (hbuf : 0 < bufferSize) (hwhole : WholeTransfers f content.length bufferSize) :
    copyLoop f content bufferSize content.length 0 content.length [] = some (true, content) := by
  have hloop := @copyLoop_from f content bufferSize hbuf content.length 0 [] (by omega)
  rw [Nat.zero_mul, Nat.sub_zero, List.drop_zero, List.nil_append] at hloop
  rcases hloop with ⟨_, h⟩ | ⟨⟨j, _, hlt, hbad⟩, _⟩
  · exact h
  · exact absurd (hwhole j hlt) hbad

theorem copyLoop_fails (hbuf : 0 < bufferSize) (hwhole : ¬ WholeTransfers f content.length bufferSize) :
    ∃ left, copyLoop f content bufferSize content.length 0 content.length [] = some (false, left) := by
  have hloop := @copyLoop_from f content bufferSize hbuf content.length 0 [] (by omega)
  rw [Nat.zero_mul, Nat.sub_zero] at hloop
  rcases hloop with ⟨hall, _⟩ | ⟨_, h⟩
  · exact absurd (fun j hlt => hall j (Nat.zero_le _) hlt) hwhole
  · exact h

end Loop

/-! ## The destination -/

section Destination

variable (f : Faults) (pathDst : List Char) (dst : Entry) (replace : Bool)

/-- The folder of the destination is missing, and is made. -/
def FolderMade : Prop := f.openDst = none ∧ ∃ folder, lastDir pathDst = some folder ∧ f.mkdir folder = .ok

/-- The destination comes to be an empty file, for the loop to write to. -/
def Opened : Prop :=
  match dst with
  | .noPath => FolderMade f pathDst ∧ f.reopenDst = none
  | .noFile => f.openDst = none
  | .file _ => replace = true ∧ f.openDst = none

/-- The open that was to make or to cut the destination fails, and leaves `left` there. -/
def FailedOpen (left : Entry) : Prop :=
  match dst with
  | .noPath => FolderMade f pathDst ∧ ∃ res, f.reopenDst = some (res, left)
  | .noFile => ∃ res, f.openDst = some (res, left)
  | .file _ => replace = true ∧ ∃ res, f.openDst = some (res, left)

variable {f pathDst dst replace}

theorem failure_ne_ok (e : Failure) : e.val ≠ .ok := fun h => by
  have hirregular := e.property
  rw [h] at hirregular
  exact absurd hirregular (by decide)

theorem failure_ne_noPath (e : Failure) : e.val ≠ .noPath := fun h => by
  have hirregular := e.property
  rw [h] at hirregular
  exact absurd hirregular (by decide)

theorem failure_ne_exist (e : Failure) : e.val ≠ .exist := fun h => by
  have hirregular := e.property
  rw [h] at hirregular
  exact absurd hirregular (by decide)

/-- The second attempt: the folder is not made, the open in it fails, or the loop is entered. -/
theorem makeAndOpen_cases (hopen : f.openDst = none) :
    (Opened f pathDst .noPath replace ∧ makeAndOpen f pathDst replace = (.ok, .file [])) ∨
    (∃ left, FailedOpen f pathDst .noPath replace left ∧ (makeAndOpen f pathDst replace).2 = left ∧
      (makeAndOpen f pathDst replace).1 ≠ .ok) ∨
    (¬ FolderMade f pathDst ∧ (makeAndOpen f pathDst replace).2 = .noPath ∧ (makeAndOpen f pathDst replace).1 ≠ .ok) := by
  unfold makeAndOpen
  cases hfolder : lastDir pathDst with
  | none =>
    refine Or.inr (Or.inr ⟨?_, rfl, by simp⟩)
    rintro ⟨_, folder, h, _⟩
    rw [hfolder] at h
    cases h
  | some folder =>
    dsimp only
    by_cases hmade : f.mkdir folder = .ok
    · have hfolderMade : FolderMade f pathDst := ⟨hopen, folder, hfolder, hmade⟩
      rw [hmade]
      dsimp only
      cases hreopen : f.reopenDst with
      | none => exact Or.inl ⟨⟨hfolderMade, hreopen⟩, rfl⟩
      | some fault => exact Or.inr (Or.inl ⟨fault.2, ⟨hfolderMade, fault.1, hreopen⟩, rfl, failure_ne_ok fault.1⟩)
    · refine Or.inr (Or.inr ⟨?_, ?_⟩)
      · rintro ⟨_, folder', h, hmade'⟩
        rw [hfolder] at h
        cases h
        exact hmade hmade'
      · split
        · exact absurd ‹_› hmade
        · exact ⟨rfl, hmade⟩

/-- What becomes of a copy before its loop: the loop is entered, the open fails on its way, or the destination
stays as it was. -/
theorem fileCopy_cases (content : List UInt8) (bufferSize : Nat) (hsrc : f.openSrc = none) :
    (Opened f pathDst dst replace ∧ fileCopy f pathDst (.file content) dst replace bufferSize =
      match copyLoop f content bufferSize content.length 0 content.length [] with
      | some (true, written) => some (true, closed f.closeDst (.file written))
      | some (false, _) => some (false, unlinked f.unlink)
      | none => none) ∨
    (∃ left, FailedOpen f pathDst dst replace left ∧
      fileCopy f pathDst (.file content) dst replace bufferSize = some (false, left)) ∨
    (¬ Opened f pathDst dst replace ∧ (∀ left, ¬ FailedOpen f pathDst dst replace left) ∧
      ∃ ret, fileCopy f pathDst (.file content) dst replace bufferSize = some (ret, dst) ∧
        (ret = true → replace = false ∧ dst.content ≠ none)) := by
  have hread : openRead f.openSrc (.file content) = .ok := by
    rw [hsrc]
    rfl
  have hcontent : (Entry.file content).content = some content := rfl
  unfold fileCopy
  rw [hread, hcontent]
  dsimp only
  cases hopen : f.openDst with
  | none =>
    cases dst with
    | noPath =>
      have hfirst : openCreate none replace .noPath = (.noPath, .noPath) := rfl
      rw [hfirst]
      dsimp only
      rw [if_neg (by decide), if_pos rfl]
      rcases @makeAndOpen_cases f pathDst replace hopen with
        ⟨hopened, hmake⟩ | ⟨left, hleft, hat, hres⟩ | ⟨hmade, hat, hres⟩
      · rw [hmake]
        exact Or.inl ⟨hopened, rfl⟩
      · rw [if_pos hres, hat]
        exact Or.inr (Or.inl ⟨left, hleft, rfl⟩)
      · rw [if_pos hres, hat]
        exact Or.inr (Or.inr ⟨fun h => hmade h.1, fun left h => hmade h.1, false, rfl, by simp⟩)
    | noFile => exact Or.inl ⟨hopen, rfl⟩
    | file old =>
      cases replace with
      | true => exact Or.inl ⟨⟨rfl, hopen⟩, rfl⟩
      | false =>
        refine Or.inr (Or.inr ⟨fun h => ?_, fun left h => ?_, true, rfl, fun _ => ⟨rfl, ?_⟩⟩)
        · cases h.1
        · cases h.1
        · simp [Entry.content]
  | some fault =>
    obtain ⟨e, left⟩ := fault
    have hend : ∀ at' : Entry, (if e.val = .exist then some (true, at') else
        if (if e.val = .noPath then makeAndOpen f pathDst replace else (e.val, at')).1 ≠ .ok then
          some (false, (if e.val = .noPath then makeAndOpen f pathDst replace else (e.val, at')).2)
        else
          match copyLoop f content bufferSize content.length 0 content.length [] with
          | some (true, written) => some (true, closed f.closeDst (.file written))
          | some (false, _) => some (false, unlinked f.unlink)
          | none => none) = some (false, at') := by
      intro at'
      rw [if_neg (failure_ne_exist e), if_neg (failure_ne_noPath e), if_pos (failure_ne_ok e)]
    cases dst with
    | noPath =>
      refine Or.inr (Or.inr ⟨fun h => ?_, fun left h => ?_, false, hend _, by simp⟩)
      · exact absurd (hopen.symm.trans h.1.1) (by simp)
      · exact absurd (hopen.symm.trans h.1.1) (by simp)
    | noFile => exact Or.inr (Or.inl ⟨left, ⟨e, hopen⟩, hend _⟩)
    | file old =>
      cases replace with
      | true => exact Or.inr (Or.inl ⟨left, ⟨rfl, e, hopen⟩, hend _⟩)
      | false =>
        refine Or.inr (Or.inr ⟨fun h => ?_, fun left h => ?_, false, hend _, by simp⟩)
        · cases h.1
        · cases h.1

end Destination

/-! ## When a copy can be relied on -/

/-- What is promised of a copy, of which `before` and `after` are at the destination. -/
structure Reliable (src before after : Entry) (replace ret : Bool) : Prop where
  success : ret = true →
    src.content = none ∨ (replace = false ∧ before.content ≠ none ∧ after = before) ∨ after.content = src.content
  failure : ret = false → after.content = before.content

/-- The failures do no harm to the copy. -/
structure Harmless (f : Faults) (pathDst : List Char) (src dst : Entry) (replace : Bool) (bufferSize : Nat) : Prop where
  /-- A source that is there is opened, or the destination is what it should be without it. -/
  source : ∀ content, src = .file content → f.openSrc ≠ none →
    (replace = false ∧ dst.content ≠ none) ∨ dst.content = some content
  /-- An open that fails leaves the destination as it was. -/
  opens : ∀ content left, src = .file content → f.openSrc = none → FailedOpen f pathDst dst replace left →
    left.content = dst.content
  /-- Where the loop fails, what the unlink leaves is what was there before the copy. -/
  transfers : ∀ content, src = .file content → f.openSrc = none → Opened f pathDst dst replace →
    ¬ WholeTransfers f content.length bufferSize → (unlinked f.unlink).content = dst.content
  /-- Where it does not, the close leaves what was written. -/
  closes : ∀ content, src = .file content → f.openSrc = none → Opened f pathDst dst replace →
    WholeTransfers f content.length bufferSize → (closed f.closeDst (.file content)).content = some content

section Copy

variable {f : Faults} {pathDst : List Char} {dst : Entry} {replace : Bool} {bufferSize : Nat}

/-- Without a source that opens, the copy returns at once. -/
theorem fileCopy_of_closed {src : Entry} (h : src.content = none ∨ f.openSrc ≠ none) :
    fileCopy f pathDst src dst replace bufferSize = some (true, dst) := by
  unfold fileCopy
  cases src with
  | noPath => split <;> simp_all [Entry.content]
  | noFile => split <;> simp_all [Entry.content]
  | file content =>
    rcases h with h | h
    · cases h
    · obtain ⟨e, he⟩ := Option.ne_none_iff_exists'.mp h
      have hres : openRead f.openSrc (.file content) = e.val := by
        rw [he]
        rfl
      rw [hres]
      split
      · exact absurd ‹_› (failure_ne_ok e)
      · rfl

theorem reliable_false {src : Entry} {after : Entry} :
    Reliable src dst after replace false ↔ after.content = dst.content := by
  constructor
  · intro h
    exact h.failure rfl
  · intro h
    exact ⟨by simp, fun _ => h⟩

/-- A loop that was entered: the copy can be relied on when its last operation leaves what it should. -/
theorem reliable_opened (content : List UInt8) (hbuf : 0 < bufferSize) (hopened : Opened f pathDst dst replace)
    (hcopy : fileCopy f pathDst (.file content) dst replace bufferSize =
      match copyLoop f content bufferSize content.length 0 content.length [] with
      | some (true, written) => some (true, closed f.closeDst (.file written))
      | some (false, _) => some (false, unlinked f.unlink)
      | none => none) :
    (∃ ret after, fileCopy f pathDst (.file content) dst replace bufferSize = some (ret, after) ∧
        Reliable (.file content) dst after replace ret) ↔
      (¬ WholeTransfers f content.length bufferSize → (unlinked f.unlink).content = dst.content) ∧
        (WholeTransfers f content.length bufferSize →
          (closed f.closeDst (.file content)).content = some content) := by
  by_cases hwhole : WholeTransfers f content.length bufferSize
  · rw [hcopy, copyLoop_whole hbuf hwhole]
    dsimp only
    constructor
    · rintro ⟨ret, after, hres, hreliable⟩
      cases hres
      refine ⟨fun h => absurd hwhole h, fun _ => ?_⟩
      rcases hreliable.success rfl with h | ⟨hkeep, hthere, _⟩ | h
      · cases h
      · -- a file that is not to be replaced is not opened
        cases dst with
        | noPath => exact absurd rfl hthere
        | noFile => exact absurd rfl hthere
        | file old => exact absurd (hkeep.symm.trans hopened.1) (by simp)
      · exact h
    · rintro ⟨_, hclose⟩
      exact ⟨true, _, rfl, fun _ => Or.inr (Or.inr (hclose hwhole)), by simp⟩
  · obtain ⟨left, hloop⟩ := copyLoop_fails hbuf hwhole
    rw [hcopy, hloop]
    dsimp only
    constructor
    · rintro ⟨ret, after, hres, hreliable⟩
      cases hres
      exact ⟨fun _ => hreliable.failure rfl, fun h => absurd h hwhole⟩
    · rintro ⟨hunlink, _⟩
      exact ⟨false, _, rfl, reliable_false.mpr (hunlink hwhole)⟩

/-- The two outcomes exclude each other: an open that fails does not lead to the loop. -/
theorem FailedOpen.not_opened {left : Entry} (h : FailedOpen f pathDst dst replace left) :
    ¬ Opened f pathDst dst replace := by
  intro hopened
  cases dst with
  | noPath =>
    obtain ⟨_, res, hres⟩ := h
    exact absurd (hopened.2.symm.trans hres) (by simp)
  | noFile =>
    obtain ⟨res, hres⟩ := h
    exact absurd (Eq.symm hopened |>.trans hres) (by simp)
  | file old =>
    obtain ⟨_, res, hres⟩ := h
    exact absurd (hopened.2.symm.trans hres) (by simp)

theorem FailedOpen.unique {left left' : Entry} (h : FailedOpen f pathDst dst replace left)
    (h' : FailedOpen f pathDst dst replace left') : left = left' := by
  cases dst with
  | noPath =>
    obtain ⟨_, res, hres⟩ := h
    obtain ⟨_, res', hres'⟩ := h'
    exact congrArg Prod.snd (Option.some.inj (hres.symm.trans hres'))
  | noFile =>
    obtain ⟨res, hres⟩ := h
    obtain ⟨res', hres'⟩ := h'
    exact congrArg Prod.snd (Option.some.inj (hres.symm.trans hres'))
  | file old =>
    obtain ⟨_, res, hres⟩ := h
    obtain ⟨_, res', hres'⟩ := h'
    exact congrArg Prod.snd (Option.some.inj (hres.symm.trans hres'))

/-- A copy of a source that opens. -/
theorem reliable_open_iff (content : List UInt8) (hbuf : 0 < bufferSize) (hsrc : f.openSrc = none) :
    (∃ ret after, fileCopy f pathDst (.file content) dst replace bufferSize = some (ret, after) ∧
        Reliable (.file content) dst after replace ret) ↔
      (∀ left, FailedOpen f pathDst dst replace left → left.content = dst.content) ∧
        (Opened f pathDst dst replace →
          (¬ WholeTransfers f content.length bufferSize → (unlinked f.unlink).content = dst.content) ∧
            (WholeTransfers f content.length bufferSize →
              (closed f.closeDst (.file content)).content = some content)) := by
  rcases @fileCopy_cases f pathDst dst replace content bufferSize hsrc with
    ⟨hopened, hcopy⟩ | ⟨left, hleft, hcopy⟩ | ⟨hopened, hfailed, ret, hcopy, hret⟩
  · rw [reliable_opened content hbuf hopened hcopy]
    constructor
    · intro h
      exact ⟨fun left hleft => absurd hopened hleft.not_opened, fun _ => h⟩
    · rintro ⟨_, h⟩
      exact h hopened
  · rw [hcopy]
    constructor
    · rintro ⟨ret, after, hres, hreliable⟩
      cases hres
      exact ⟨fun left' h => (h.unique hleft) ▸ hreliable.failure rfl, fun h => absurd h hleft.not_opened⟩
    · rintro ⟨h, _⟩
      exact ⟨false, left, rfl, reliable_false.mpr (h left hleft)⟩
  · rw [hcopy]
    constructor
    · intro _
      exact ⟨fun left h => absurd h (hfailed left), fun h => absurd h hopened⟩
    · intro _
      refine ⟨ret, dst, rfl, fun h => ?_, fun _ => rfl⟩
      obtain ⟨hkeep, hthere⟩ := hret h
      exact Or.inr (Or.inl ⟨hkeep, hthere, rfl⟩)

/-- A copy can be relied on exactly when the failures do no harm to it. -/
theorem reliable_iff_harmless (src : Entry) (hbuf : 0 < bufferSize) :
    (∃ ret after, fileCopy f pathDst src dst replace bufferSize = some (ret, after) ∧
      Reliable src dst after replace ret) ↔ Harmless f pathDst src dst replace bufferSize := by
  cases hcontent : src.content with
  | none =>
    -- nothing to copy
    have hnone : ∀ content, src ≠ .file content := by
      rintro content rfl
      cases hcontent
    rw [fileCopy_of_closed (Or.inl hcontent)]
    constructor
    · intro _
      exact ⟨fun c h => absurd h (hnone c), fun c _ h => absurd h (hnone c), fun c h => absurd h (hnone c),
        fun c h => absurd h (hnone c)⟩
    · intro _
      exact ⟨true, dst, rfl, fun _ => Or.inl hcontent, by simp⟩
  | some content =>
    obtain rfl : src = .file content := by
      cases src with
      | noPath => cases hcontent
      | noFile => cases hcontent
      | file c => exact congrArg Entry.file (Option.some.inj hcontent)
    by_cases hsrc : f.openSrc = none
    · rw [reliable_open_iff content hbuf hsrc]
      constructor
      · rintro ⟨hopen, hloop⟩
        refine ⟨fun c _ h => absurd hsrc h, ?_, ?_, ?_⟩
        · rintro c left ⟨⟩ _ hleft
          exact hopen left hleft
        · rintro c ⟨⟩ _ hopened hbad
          exact (hloop hopened).1 hbad
        · rintro c ⟨⟩ _ hopened hwhole
          exact (hloop hopened).2 hwhole
      · intro h
        exact ⟨fun left hleft => h.opens content left rfl hsrc hleft, fun hopened =>
          ⟨h.transfers content rfl hsrc hopened, h.closes content rfl hsrc hopened⟩⟩
    · rw [fileCopy_of_closed (Or.inr hsrc)]
      constructor
      · rintro ⟨ret, after, hres, hreliable⟩
        cases hres
        refine ⟨?_, fun c _ _ h => absurd h hsrc, fun c _ h => absurd h hsrc, fun c _ h => absurd h hsrc⟩
        rintro c ⟨⟩ _
        rcases hreliable.success rfl with h | ⟨hkeep, hthere, _⟩ | h
        · cases h
        · exact Or.inl ⟨hkeep, hthere⟩
        · exact Or.inr h
      · intro h
        refine ⟨true, dst, rfl, fun _ => ?_, by simp⟩
        rcases h.source content rfl hsrc with ⟨hkeep, hthere⟩ | hsame
        · exact Or.inr (Or.inl ⟨hkeep, hthere, rfl⟩)
        · exact Or.inr (Or.inr hsame)

end Copy

/-- An upgrade with harmless failures leaves a whole boot.firm, the old one or the launched one. -/
theorem upgrade_keeps {f : Faults} {launchedPathForFatfs : List Char} {launched boot : Entry}
    (h : Harmless f "nand:/boot.firm".toList launched boot true 0x10000) (isSdMode backedUp : Bool) :
    ∃ ret after, doOmiibaUpgradeProcess f isSdMode launchedPathForFatfs launched boot backedUp = some (ret, after) ∧
      (after.content = boot.content ∨ after.content = launched.content) := by
  unfold doOmiibaUpgradeProcess
  split
  · obtain ⟨ret, after, hcopy, hreliable⟩ := (reliable_iff_harmless launched (by decide)).mpr h
    refine ⟨ret && backedUp, after, by rw [hcopy]; rfl, ?_⟩
    cases ret with
    | false => exact Or.inl (hreliable.failure rfl)
    | true =>
      rcases hreliable.success rfl with hnone | ⟨hkeep, _⟩ | hsame
      · rw [fileCopy_of_closed (Or.inl hnone)] at hcopy
        cases hcopy
        exact Or.inl rfl
      · cases hkeep
      · exact Or.inr hsame
  · exact ⟨backedUp, boot, rfl, Or.inl rfl⟩

/-- For every way in which the operations can fail: the copy returns true only with the source missing, a
destination left alone or one that is the source, and false only with the destination as it was, exactly where
the failures are harmless; then an upgrade never loses boot.firm. -/
theorem fileCopy_iff (f : Faults) (pathDst : List Char) (src dst : Entry) (replace : Bool) (bufferSize : Nat)
    (hbuf : 0 < bufferSize) :
    ((∃ ret after, fileCopy f pathDst src dst replace bufferSize = some (ret, after) ∧
      Reliable src dst after replace ret) ↔ Harmless f pathDst src dst replace bufferSize) ∧
    (Harmless f "nand:/boot.firm".toList src dst true 0x10000 →
      ∀ isSdMode launchedPathForFatfs backedUp,
        ∃ ret after, doOmiibaUpgradeProcess f isSdMode launchedPathForFatfs src dst backedUp = some (ret, after) ∧
          (after.content = dst.content ∨ after.content = src.content)) := by
  refine ⟨reliable_iff_harmless src hbuf, fun h isSdMode launchedPathForFatfs backedUp => ?_⟩
  exact upgrade_keeps h isSdMode backedUp

/-- The card is full when boot.firm is written over. -/
def fullDisk : Faults where
  openSrc := none
  openDst := none
  mkdir _ := .ok
  reopenDst := none
  read _ := none
  write _ := some (.ok, 0)
  closeDst := none
  unlink := none

/-- The failures of a full disk are harmless where there was no file before. -/
theorem fullDisk_reliable :
    0 < 0x10000 ∧ ((∃ ret after, fileCopy fullDisk "sdmc:/a".toList (.file [1]) .noFile false 0x10000 = some (ret, after) ∧
      Reliable (.file [1]) .noFile after false ret) ↔
        Harmless fullDisk "sdmc:/a".toList (.file [1]) .noFile false 0x10000) :=
  ⟨by decide, (fileCopy_iff fullDisk "sdmc:/a".toList (.file [1]) .noFile false 0x10000 (by decide)).1⟩

/-- With a full disk the upgrade fails, and the boot.firm that was there is gone. -/
theorem upgrade_loses_boot :
    doOmiibaUpgradeProcess fullDisk true "sdmc:/boot.firm".toList (.file [1]) (.file [2]) true = some (false, .noFile) ∧
      ¬ ∃ ret after, fileCopy fullDisk "nand:/boot.firm".toList (.file [1]) (.file [2]) true 0x10000 = some (ret, after) ∧
        Reliable (.file [1]) (.file [2]) after true ret := by
  have hcopy : fileCopy fullDisk "nand:/boot.firm".toList (.file [1]) (.file [2]) true 0x10000 = some (false, .noFile) := by
    decide
  refine ⟨?_, ?_⟩
  · unfold doOmiibaUpgradeProcess
    rw [if_pos (by decide), hcopy]
    rfl
  · rw [hcopy]
    rintro ⟨ret, after, hres, hreliable⟩
    cases hres
    exact absurd (hreliable.failure rfl) (by decide)

end Omiiba.Arm9
