/-
The updater, after main.c of omiiba-updater: the request with its redirects, the download into a file, and the
installation over the old boot.firm. What is on the card at each moment, whatever the server and the card do.
-/
import Omiiba.Lib.Files

namespace Omiiba.Updater

open Files

abbrev Bytes := List UInt8

/-! ## The server -/

/-- What the calls for one request give. -/
structure Answer where
  openContext : Int32
  beginRequest : Int32
  getStatus : Int32
  statusCode : UInt32
  getLocation : Int32

/-- What one `httpcDownloadData` gives. -/
structure Download where
  result : Int32
  data : Bytes

/-- The answers to one request after another, and what is downloaded after the last of them. -/
structure Http where
  answers : Nat → Answer
  downloads : Nat → Download

/-- `HTTPC_RESULTCODE_DOWNLOADPENDING`. -/
def downloadPending : Int32 := (0xD840A02B : UInt32).toInt32

def isRedirect (statusCode : UInt32) : Bool :=
  301 ≤ statusCode && statusCode ≤ 303 || 307 ≤ statusCode && statusCode ≤ 308

/-- `openRequest`, from request `i` on; `none` is that it has not ended with the requests that there were. -/
def openRequest (answers : Nat → Answer) : (fuel i : Nat) → Option Int32
  | 0, _ => none
  | fuel + 1, i =>
    let answer := answers i
    if answer.openContext < 0 then some answer.openContext
    else if answer.beginRequest < 0 then some answer.beginRequest
    else if answer.getStatus < 0 then some answer.getStatus
    else if isRedirect answer.statusCode then
      if answer.getLocation < 0 then some answer.getLocation else openRequest answers fuel (i + 1)
    else if answer.statusCode ≠ 200 then some (-2)
    else some 0

/-! ## The card -/

inductive Path where
  | boot
  | backup
  | tmp
  deriving DecidableEq

/-- Which operations on the files do what they are asked for. `fwrite` gives the bytes that are written of each piece,
and `fclose` how many bytes are in the file where it fails. -/
structure Outcomes where
  removeOld : Bool
  fopen : Bool
  malloc : Bool
  fwrite : Nat → Nat
  fclose : Option Nat
  removePartial : Bool
  fopenCheck : Bool
  fseek : Bool
  ftell : Bool
  removeInvalid : Bool
  removeBackup : Bool
  renameBackup : Bool
  renameBoot : Bool
  renameRestore : Bool
  removeTmp : Bool

def minBootFirmSize : Nat := 128 * 1024

def maxBootFirmSize : Nat := 2 * 1024 * 1024

/-! ## The code -/

/-- The loop of `downloadToFile`, from piece `i` on, with what is in the file: the result and the bytes. -/
def downloadLoop (downloads : Nat → Download) (fwrite : Nat → Nat) :
    (fuel i : Nat) → Bytes → Log Path Bytes → Option (Int32 × Bytes) × Log Path Bytes
  | 0, _, _, log => (none, log)
  | fuel + 1, i, written, log =>
    let piece := downloads i
    if fwrite i < piece.data.length then
      (some (-5, written ++ piece.data.take (fwrite i)), log.write .tmp (written ++ piece.data.take (fwrite i)))
    else
      let log := if piece.data.length > 0 then log.write .tmp (written ++ piece.data) else log
      if piece.result ≠ downloadPending then (some (piece.result, written ++ piece.data), log)
      else downloadLoop downloads fwrite fuel (i + 1) (written ++ piece.data) log

/-- What is in the file when it has been closed. -/
def Outcomes.kept (out : Outcomes) (written : Bytes) : Bytes :=
  match out.fclose with
  | none => written
  | some n => written.take n

def downloadToFile (http : Http) (out : Outcomes) (fuel : Nat) (log : Log Path Bytes) : Option Int32 × Log Path Bytes :=
  match openRequest http.answers fuel 0 with
  | none => (none, log)
  | some ret =>
    if ret < 0 then (some ret, log)
    else if !out.fopen then (some (-3), log)
    else
      let log := log.write .tmp []
      if !out.malloc then (some (-4), log)
      else match downloadLoop http.downloads out.fwrite fuel 0 [] log with
        | (none, log) => (none, log)
        | (some (ret, written), log) =>
          let log := log.write .tmp (out.kept written)
          (some ret, if ret < 0 then log.remove out.removePartial .tmp else log)

def validateDownloadedFirm (out : Outcomes) (file : Option Bytes) : Int32 :=
  match file with
  | none => -7
  | some content =>
    if !out.fopenCheck then -7
    else if !out.fseek then -8
    -- A size of -1, which is what a `ftell` that fails gives, is below the bound.
    else if !out.ftell || content.length < minBootFirmSize || content.length > maxBootFirmSize then -9
    else 0

/-- The rest of `installBootFirm`, with a file that has been checked. -/
def replaceBootFirm (out : Outcomes) (log : Log Path Bytes) : Int32 × Log Path Bytes :=
  let log := log.remove out.removeBackup .backup
  let (hadBootFirm, log) := log.rename out.renameBackup .boot .backup
  let (installed, log) := log.rename out.renameBoot .tmp .boot
  if !installed then
    let log := if hadBootFirm then (log.rename out.renameRestore .backup .boot).2 else log
    (-6, log.remove out.removeTmp .tmp)
  else (0, log)

/-- `installBootFirm`; `none` is that it has not ended with what the server has sent. -/
def installBootFirm (http : Http) (out : Outcomes) (fuel : Nat) (disk : Disk Path Bytes) :
    Option Int32 × Log Path Bytes :=
  let log := (Log.start disk).remove out.removeOld .tmp
  match downloadToFile http out fuel log with
  | (none, log) => (none, log)
  | (some ret, log) =>
    if ret < 0 then (some ret, log)
    else
      let ret := validateDownloadedFirm out (log.now .tmp)
      if ret < 0 then (some ret, log.remove out.removeInvalid .tmp)
      else
        let (ret, log) := replaceBootFirm out log
        (some ret, log)

/-! ## What is meant -/

/-- A redirect that is followed. -/
structure Followed (answer : Answer) : Prop where
  openContext : 0 ≤ answer.openContext
  beginRequest : 0 ≤ answer.beginRequest
  getStatus : 0 ≤ answer.getStatus
  redirect : isRedirect answer.statusCode = true
  getLocation : 0 ≤ answer.getLocation

/-- The answer that is downloaded. -/
structure Served (answer : Answer) : Prop where
  openContext : 0 ≤ answer.openContext
  beginRequest : 0 ≤ answer.beginRequest
  getStatus : 0 ≤ answer.getStatus
  ok : answer.statusCode = 200

/-- The bytes of `count` pieces from piece `i` on. -/
def received (downloads : Nat → Download) (i count : Nat) : Bytes :=
  (List.range' i count).flatMap fun j => (downloads j).data

/-- From request `i` on redirects are followed to one that is answered. -/
def Final (answers : Nat → Answer) (i n : Nat) : Prop :=
  (∀ j, i ≤ j → j < i + n → Followed (answers j)) ∧ Served (answers (i + n))

/-- From piece `i` on there are pieces up to one which is said to be the last. -/
def Complete (downloads : Nat → Download) (i count : Nat) : Prop :=
  (∀ j, i ≤ j → j < i + count → (downloads j).result = downloadPending) ∧ 0 ≤ (downloads (i + count)).result

/-- The complete body of the final answer. -/
def Body (http : Http) (body : Bytes) : Prop :=
  ∃ n count, Final http.answers 0 n ∧ Complete http.downloads 0 count ∧ body = received http.downloads 0 (count + 1)

/-- The image is under its name or is backed up. -/
def Held (image : Bytes) (moment : Disk Path Bytes) : Prop := moment .boot = some image ∨ moment .backup = some image

/-- What is promised of an installation, for what it has done so far. -/
structure Installs (http : Http) (disk : Disk Path Bytes) (result : Option Int32 × Log Path Bytes) : Prop where
  success : ∀ ret, result.1 = some ret → 0 ≤ ret → ∃ body, Body http body ∧ result.2.now .boot = some body
  failure : ∀ ret, result.1 = some ret → ret < 0 → result.2.now .boot = disk .boot
  always : ∀ image, disk .boot = some image → result.2.Always (Held image)

/-! ## When it is so -/

/-- The body is downloaded and written piece by piece. -/
structure Stored (http : Http) (out : Outcomes) (body : Bytes) : Prop where
  final : ∃ n, Final http.answers 0 n
  complete : ∃ count, Complete http.downloads 0 count ∧ body = received http.downloads 0 (count + 1) ∧
    ∀ j ≤ count, (http.downloads j).data.length ≤ out.fwrite j
  fopen : out.fopen = true
  malloc : out.malloc = true

/-- The file that is left of it passes the check as well. -/
structure Accepted (http : Http) (out : Outcomes) (body : Bytes) : Prop extends Stored http out body where
  fopenCheck : out.fopenCheck = true
  fseek : out.fseek = true
  ftell : out.ftell = true
  size_from : minBootFirmSize ≤ (out.kept body).length
  size_to : (out.kept body).length ≤ maxBootFirmSize

/-- Where a body is accepted, closing the file loses nothing of what takes the name, a restoring that is needed
succeeds, and nothing takes the name of an image that is not backed up, unless it or the old backup is the same. -/
structure Dependable (http : Http) (out : Outcomes) (disk : Disk Path Bytes) : Prop where
  closed : ∀ body, Accepted http out body → out.renameBoot = true → ∀ n, out.fclose = some n → body.length ≤ n
  restored : ∀ body, Accepted http out body → disk .boot ≠ none → out.renameBackup = true → out.renameBoot = false →
    out.renameRestore = true
  backedUp : ∀ body image, Accepted http out body → disk .boot = some image → out.renameBackup = false →
    out.renameBoot = true → out.kept body = image ∨ out.removeBackup = false ∧ disk .backup = some image

/-! ## The request -/

theorem openRequest_followed {answers : Nat → Answer} {i : Nat} (fuel : Nat) (h : Followed (answers i)) :
    openRequest answers (fuel + 1) i = openRequest answers fuel (i + 1) := by
  simp only [openRequest, if_neg (Int32.not_lt.mpr h.openContext), if_neg (Int32.not_lt.mpr h.beginRequest),
    if_neg (Int32.not_lt.mpr h.getStatus), h.redirect, if_true, if_neg (Int32.not_lt.mpr h.getLocation)]

theorem openRequest_served {answers : Nat → Answer} {i : Nat} (fuel : Nat) (h : Served (answers i)) :
    openRequest answers (fuel + 1) i = some 0 := by
  have hredirect : isRedirect 200 = false := by decide
  simp only [openRequest, if_neg (Int32.not_lt.mpr h.openContext), if_neg (Int32.not_lt.mpr h.beginRequest),
    if_neg (Int32.not_lt.mpr h.getStatus), h.ok, hredirect, Bool.false_eq_true, if_false, ne_eq, not_true_eq_false]

/-- An answer that is not followed ends it, with success only where it is served. -/
theorem openRequest_other {answers : Nat → Answer} {i : Nat} (fuel : Nat) (h : ¬Followed (answers i)) :
    ∃ ret, openRequest answers (fuel + 1) i = some ret ∧ (0 ≤ ret → Served (answers i)) := by
  have hneg : ∀ ret : Int32, ret < 0 → 0 ≤ ret → Served (answers i) :=
    fun ret hlt hle => absurd hle (Int32.not_le.mpr hlt)
  by_cases hopen : (answers i).openContext < 0
  · exact ⟨_, by simp only [openRequest, if_pos hopen], hneg _ hopen⟩
  by_cases hbegin : (answers i).beginRequest < 0
  · exact ⟨_, by simp only [openRequest, if_neg hopen, if_pos hbegin], hneg _ hbegin⟩
  by_cases hstatus : (answers i).getStatus < 0
  · exact ⟨_, by simp only [openRequest, if_neg hopen, if_neg hbegin, if_pos hstatus], hneg _ hstatus⟩
  by_cases hredirect : isRedirect (answers i).statusCode = true
  · by_cases hlocation : (answers i).getLocation < 0
    · exact ⟨_, by simp only [openRequest, if_neg hopen, if_neg hbegin, if_neg hstatus, if_pos hredirect,
        if_pos hlocation], hneg _ hlocation⟩
    · exact absurd ⟨Int32.not_lt.mp hopen, Int32.not_lt.mp hbegin, Int32.not_lt.mp hstatus, hredirect,
        Int32.not_lt.mp hlocation⟩ h
  by_cases hok : (answers i).statusCode = 200
  · have hserved : Served (answers i) :=
      ⟨Int32.not_lt.mp hopen, Int32.not_lt.mp hbegin, Int32.not_lt.mp hstatus, hok⟩
    exact ⟨0, openRequest_served fuel hserved, fun _ => hserved⟩
  · exact ⟨-2, by simp only [openRequest, if_neg hopen, if_neg hbegin, if_neg hstatus, if_neg hredirect, if_pos hok],
      hneg _ (by decide)⟩

theorem openRequest_final {answers : Nat → Answer} {n : Nat} : ∀ {i : Nat} (extra : Nat), Final answers i n →
    openRequest answers (n + 1 + extra) i = some 0 := by
  induction n with
  | zero =>
    intro i extra h
    rw [show 0 + 1 + extra = extra + 1 by omega]
    exact openRequest_served extra h.2
  | succ n ih =>
    intro i extra h
    rw [show n + 1 + 1 + extra = (n + 1 + extra) + 1 by omega,
      openRequest_followed _ (h.1 i le_rfl (by omega))]
    exact ih extra ⟨fun j hfrom hto => h.1 j (by omega) (by omega), by
      rw [show i + 1 + n = i + (n + 1) by omega]
      exact h.2⟩

theorem openRequest_some {answers : Nat → Answer} {ret : Int32} : ∀ {fuel i : Nat},
    openRequest answers fuel i = some ret → 0 ≤ ret → ∃ n, Final answers i n := by
  intro fuel
  induction fuel with
  | zero =>
    intro i h
    cases h
  | succ fuel ih =>
    intro i h hret
    by_cases hfollowed : Followed (answers i)
    · rw [openRequest_followed fuel hfollowed] at h
      obtain ⟨n, hbefore, hserved⟩ := ih h hret
      refine ⟨n + 1, ?_, by rwa [show i + (n + 1) = i + 1 + n by omega]⟩
      intro j hfrom hto
      rcases Nat.eq_or_lt_of_le hfrom with rfl | hlt
      · exact hfollowed
      · exact hbefore j hlt (by omega)
    · obtain ⟨ret', hret', hserved⟩ := openRequest_other fuel hfollowed
      rw [hret'] at h
      injection h with h
      exact ⟨0, fun j hfrom hto => by omega, hserved (h ▸ hret)⟩

/-- The loop ends exactly where some answer is not a redirect that is followed. -/
theorem openRequest_ends_iff (answers : Nat → Answer) :
    (∃ fuel, openRequest answers fuel 0 ≠ none) ↔ ∃ n, ¬Followed (answers n) := by
  constructor
  · rintro ⟨fuel, hends⟩
    by_contra hall
    have hnone : ∀ fuel i, openRequest answers fuel i = none := by
      intro fuel
      induction fuel with
      | zero => exact fun i => rfl
      | succ fuel ih =>
        intro i
        rw [openRequest_followed fuel (not_not.mp (fun hnot => hall ⟨i, hnot⟩)), ih]
    exact hends (hnone fuel 0)
  · rintro ⟨n, hnot⟩
    have hends : ∀ n i, ¬Followed (answers (i + n)) → openRequest answers (n + 1) i ≠ none := by
      intro n
      induction n with
      | zero =>
        intro i hnot
        obtain ⟨ret, hret, -⟩ := @openRequest_other answers i 0 hnot
        rw [hret]
        exact Option.some_ne_none ret
      | succ n ih =>
        intro i hnot
        by_cases hfollowed : Followed (answers i)
        · rw [openRequest_followed _ hfollowed]
          exact ih (i + 1) (by rwa [show i + 1 + n = i + (n + 1) by omega])
        · obtain ⟨ret, hret, -⟩ := openRequest_other (n + 1) hfollowed
          rw [hret]
          exact Option.some_ne_none ret
    exact ⟨n + 1, hends n 0 (by rwa [Nat.zero_add])⟩

/-! ## The download -/

@[simp] theorem received_zero (downloads : Nat → Download) (i : Nat) : received downloads i 0 = [] := rfl

theorem received_succ (downloads : Nat → Download) (i count : Nat) :
    received downloads i (count + 1) = (downloads i).data ++ received downloads (i + 1) count := by
  simp [received, List.range'_succ]

theorem result_of_pending {result : Int32} (h : result = downloadPending) : ¬0 ≤ result := by
  rw [h]
  decide

theorem Complete.unique {downloads : Nat → Download} {i count count' : Nat} (h : Complete downloads i count)
    (h' : Complete downloads i count') : count = count' := by
  rcases Nat.lt_trichotomy count count' with hlt | rfl | hlt
  · exact absurd h.2 (result_of_pending (h'.1 _ (by omega) (by omega)))
  · rfl
  · exact absurd h'.2 (result_of_pending (h.1 _ (by omega) (by omega)))

theorem Body.unique {http : Http} {body body' : Bytes} (h : Body http body) (h' : Body http body') : body = body' := by
  obtain ⟨-, count, -, hcomplete, rfl⟩ := h
  obtain ⟨-, count', -, hcomplete', rfl⟩ := h'
  rw [hcomplete.unique hcomplete']

section

variable {downloads : Nat → Download} {fwrite : Nat → Nat}

/-- A piece that is written whole, and is not the last. -/
theorem downloadLoop_pending {i : Nat} (fuel : Nat) (written : Bytes) (log : Log Path Bytes)
    (hwhole : (downloads i).data.length ≤ fwrite i) (hpending : (downloads i).result = downloadPending) :
    ∃ log', downloadLoop downloads fwrite (fuel + 1) i written log =
      downloadLoop downloads fwrite fuel (i + 1) (written ++ (downloads i).data) log' := by
  simp only [downloadLoop, if_neg (Nat.not_lt.mpr hwhole), hpending, ne_eq, not_true_eq_false, if_false]
  exact ⟨_, rfl⟩

theorem downloadLoop_complete {count : Nat} : ∀ {i : Nat} (extra : Nat) (written : Bytes) (log : Log Path Bytes),
    Complete downloads i count → (∀ j, i ≤ j → j ≤ i + count → (downloads j).data.length ≤ fwrite j) →
    ∃ ret log', downloadLoop downloads fwrite (count + 1 + extra) i written log =
      (some (ret, written ++ received downloads i (count + 1)), log') ∧ 0 ≤ ret := by
  induction count with
  | zero =>
    intro i extra written log h hwhole
    have hlast : (downloads i).result ≠ downloadPending := fun hpending => result_of_pending hpending h.2
    refine ⟨(downloads i).result, ?_⟩
    rw [show 0 + 1 + extra = extra + 1 by omega, received_succ, received_zero, List.append_nil]
    simp only [downloadLoop, if_neg (Nat.not_lt.mpr (hwhole i le_rfl (by omega))), if_pos hlast]
    exact ⟨_, rfl, h.2⟩
  | succ count ih =>
    intro i extra written log h hwhole
    obtain ⟨log', hnext⟩ := @downloadLoop_pending downloads fwrite i (count + 1 + extra) written log
      (hwhole i le_rfl (by omega)) (h.1 i le_rfl (by omega))
    obtain ⟨ret, log'', hrest, hret⟩ := @ih (i + 1) extra (written ++ (downloads i).data) log'
      ⟨fun j hfrom hto => h.1 j (by omega) (by omega), by
        rw [show i + 1 + count = i + (count + 1) by omega]
        exact h.2⟩ (fun j hfrom hto => hwhole j (by omega) (by omega))
    refine ⟨ret, log'', ?_, hret⟩
    rw [show count + 1 + 1 + extra = count + 1 + extra + 1 by omega, hnext, hrest, received_succ downloads i,
      List.append_assoc]

/-- The other way: what has succeeded is complete, and was written whole. -/
theorem downloadLoop_some {ret : Int32} {whole : Bytes} {log' : Log Path Bytes} : ∀ {fuel i : Nat} {written : Bytes}
    {log : Log Path Bytes}, downloadLoop downloads fwrite fuel i written log = (some (ret, whole), log') → 0 ≤ ret →
    ∃ count, Complete downloads i count ∧ whole = written ++ received downloads i (count + 1) ∧
      ∀ j, i ≤ j → j ≤ i + count → (downloads j).data.length ≤ fwrite j := by
  intro fuel
  induction fuel with
  | zero =>
    intro i written log h
    cases h
  | succ fuel ih =>
    intro i written log h hret
    by_cases hshort : fwrite i < (downloads i).data.length
    · simp only [downloadLoop, if_pos hshort, Prod.mk.injEq, Option.some.injEq] at h
      rw [← h.1.1] at hret
      exact absurd hret (by decide)
    by_cases hpending : (downloads i).result = downloadPending
    · obtain ⟨log'', hnext⟩ := @downloadLoop_pending downloads fwrite i fuel written log (Nat.not_lt.mp hshort) hpending
      rw [hnext] at h
      obtain ⟨count, hcomplete, rfl, hwhole⟩ := ih h hret
      refine ⟨count + 1, ⟨?_, ?_⟩, by rw [received_succ downloads i, List.append_assoc], ?_⟩
      · intro j hfrom hto
        rcases Nat.eq_or_lt_of_le hfrom with rfl | hlt
        · exact hpending
        · exact hcomplete.1 j hlt (by omega)
      · rw [show i + (count + 1) = i + 1 + count by omega]
        exact hcomplete.2
      · intro j hfrom hto
        rcases Nat.eq_or_lt_of_le hfrom with rfl | hlt
        · exact Nat.not_lt.mp hshort
        · exact hwhole j hlt (by omega)
    · simp only [downloadLoop, if_neg hshort, ne_eq, hpending, not_false_eq_true, if_true, Prod.mk.injEq,
        Option.some.injEq] at h
      obtain ⟨⟨rfl, rfl⟩, -⟩ := h
      refine ⟨0, ⟨fun j hfrom hto => by omega, hret⟩, by simp [received], ?_⟩
      intro j hfrom hto
      obtain rfl : j = i := by omega
      exact Nat.not_lt.mp hshort

theorem downloadLoop_within : ∀ (fuel i : Nat) (written : Bytes) (log : Log Path Bytes),
    Log.Within .tmp log (downloadLoop downloads fwrite fuel i written log).2 := by
  intro fuel
  induction fuel with
  | zero => exact fun i written log => Log.Within.refl
  | succ fuel ih =>
    intro i written log
    have hpiece : Log.Within .tmp log (if (downloads i).data.length > 0 then log.write .tmp (written ++ (downloads i).data)
        else log) := by
      split
      · exact Log.Within.write
      · exact Log.Within.refl
    simp only [downloadLoop]
    split
    · exact Log.Within.write
    · split
      · exact hpiece
      · exact hpiece.trans (ih _ _ _)

end

theorem Stored.body {http : Http} {out : Outcomes} {body : Bytes} (h : Stored http out body) : Body http body := by
  obtain ⟨n, hfinal⟩ := h.final
  obtain ⟨count, hcomplete, hbody, -⟩ := h.complete
  exact ⟨n, count, hfinal, hcomplete, hbody⟩

theorem downloadToFile_within (http : Http) (out : Outcomes) (fuel : Nat) (log : Log Path Bytes) :
    Log.Within .tmp log (downloadToFile http out fuel log).2 := by
  unfold downloadToFile
  split
  · exact Log.Within.refl
  split
  · exact Log.Within.refl
  split
  · exact Log.Within.refl
  have hempty : Log.Within .tmp log (log.write .tmp []) := Log.Within.write
  dsimp only
  split
  · exact hempty
  have hloop := @downloadLoop_within http.downloads out.fwrite fuel 0 [] (log.write .tmp [])
  split
  · rename_i heq
    rw [heq] at hloop
    exact hempty.trans hloop
  · rename_i heq
    rw [heq] at hloop
    dsimp only
    split
    · exact ((hempty.trans hloop).trans Log.Within.write).trans Log.Within.remove
    · exact (hempty.trans hloop).trans Log.Within.write

/-- A download that has succeeded is stored. -/
theorem downloadToFile_some {http : Http} {out : Outcomes} {fuel : Nat} {log log' : Log Path Bytes} {ret : Int32}
    (h : downloadToFile http out fuel log = (some ret, log')) (hret : 0 ≤ ret) :
    ∃ body, Stored http out body ∧ log'.now .tmp = some (out.kept body) := by
  have hneg : ∀ {ret' : Int32}, ret' < 0 → ret' ≠ ret := by
    rintro ret' hlt rfl
    exact absurd hret (Int32.not_le.mpr hlt)
  unfold downloadToFile at h
  split at h
  · cases h
  rename_i opened hopened
  split at h
  · rename_i hlt
    simp only [Prod.mk.injEq, Option.some.injEq] at h
    exact absurd h.1 (hneg hlt)
  rename_i hserved
  split at h
  · simp only [Prod.mk.injEq, Option.some.injEq] at h
    exact absurd h.1 (hneg (by decide))
  rename_i hfopen
  dsimp only at h
  split at h
  · simp only [Prod.mk.injEq, Option.some.injEq] at h
    exact absurd h.1 (hneg (by decide))
  rename_i hmalloc
  split at h
  · cases h
  rename_i ret' written log'' hloop
  simp only [Prod.mk.injEq, Option.some.injEq] at h
  obtain ⟨rfl, hlog⟩ := h
  rw [if_neg (Int32.not_lt.mpr hret)] at hlog
  obtain ⟨count, hcomplete, hwritten, hwhole⟩ := downloadLoop_some hloop hret
  refine ⟨written, ⟨openRequest_some hopened (Int32.not_lt.mp hserved), ⟨count, hcomplete, hwritten,
    fun j hle => hwhole j (Nat.zero_le j) (by omega)⟩, by simpa using hfopen, by simpa using hmalloc⟩, ?_⟩
  rw [← hlog, Log.write_now]

/-- The other way: what can be stored is, with answers enough. -/
theorem downloadToFile_stored {http : Http} {out : Outcomes} {body : Bytes} (h : Stored http out body)
    (log : Log Path Bytes) : ∃ fuel ret log', downloadToFile http out fuel log = (some ret, log') ∧ 0 ≤ ret ∧
      log'.now .tmp = some (out.kept body) := by
  obtain ⟨n, hfinal⟩ := h.final
  obtain ⟨count, hcomplete, rfl, hwhole⟩ := h.complete
  obtain ⟨ret, log', hloop, hret⟩ := @downloadLoop_complete http.downloads out.fwrite count 0 (n + 1) []
    (log.write .tmp []) hcomplete (fun j hfrom hto => hwhole j (by omega))
  have hopened := openRequest_final (count + 1) hfinal
  rw [Nat.add_comm] at hopened
  refine ⟨count + 1 + (n + 1), ret, log'.write .tmp (out.kept (received http.downloads 0 (count + 1))), ?_, hret,
    Log.write_now⟩
  simp only [downloadToFile, hopened, h.fopen, h.malloc, hloop, if_neg (Int32.not_lt.mpr hret), Bool.not_true,
    Bool.false_eq_true, if_false, List.nil_append]
  rfl

/-! ## The check and the replacement -/

theorem validate_ok_iff (out : Outcomes) (content : Bytes) : ¬validateDownloadedFirm out (some content) < 0 ↔
    out.fopenCheck = true ∧ out.fseek = true ∧ out.ftell = true ∧ minBootFirmSize ≤ content.length ∧
      content.length ≤ maxBootFirmSize := by
  have hfail : (-7 : Int32) < 0 ∧ (-8 : Int32) < 0 ∧ (-9 : Int32) < 0 ∧ ¬(0 : Int32) < 0 := by decide
  unfold validateDownloadedFirm
  dsimp only
  split
  · simp_all
  split
  · simp_all
  split
  · rename_i hsize
    simp only [Bool.or_eq_true, Bool.not_eq_true', decide_eq_true_eq] at hsize
    refine iff_of_false (not_not.mpr hfail.2.2.1) ?_
    rintro ⟨-, -, htell, hmin, hmax⟩
    rcases hsize with (hsize | hsize) | hsize
    · exact absurd htell (by simp [hsize])
    · omega
    · omega
  · rename_i hopen hseek hsize
    simp only [Bool.or_eq_true, Bool.not_eq_true', decide_eq_true_eq, not_or, Bool.not_eq_false, not_lt] at hopen hseek hsize
    exact iff_of_true hfail.2.2.2 ⟨hopen, hseek, hsize.1.1, hsize.1.2, hsize.2⟩

section

variable {out : Outcomes} {log : Log Path Bytes} {content image : Bytes}

theorem Held.update_tmp {moment : Disk Path Bytes} (content : Option Bytes) (h : Held image moment) :
    Held image (Function.update moment .tmp content) := by
  simpa [Held] using h

theorem replace_installed (htmp : log.now .tmp = some content) (hboot : out.renameBoot = true) :
    (replaceBootFirm out log).1 = 0 ∧ (replaceBootFirm out log).2.now .boot = some content := by
  have htmp' : ((log.remove out.removeBackup .backup).rename out.renameBackup .boot .backup).2.now .tmp = some content := by
    unfold Log.rename
    split <;> simp [Log.remove_other, htmp]
  obtain ⟨installed, hrename, hinstalled⟩ := Log.rename_some (by decide : Path.tmp ≠ .boot) htmp'
  unfold replaceBootFirm
  dsimp only
  rw [hboot, hrename]
  exact ⟨rfl, hinstalled.placed⟩

theorem replace_failed (hboot : out.renameBoot = false) : (replaceBootFirm out log).1 = -6 ∧
    ((replaceBootFirm out log).2.now .boot = log.now .boot ↔
      (log.now .boot ≠ none → out.renameBackup = true → out.renameRestore = true)) := by
  have hkept : (log.remove out.removeBackup .backup).now .boot = log.now .boot := Log.remove_other (by decide)
  unfold replaceBootFirm
  dsimp only
  rw [hboot, ← hkept]
  generalize log.remove out.removeBackup .backup = log at *
  cases hold : log.now .boot with
  | none => simp [Log.rename_none hold, Log.remove_other, hold]
  | some image =>
    cases hbackup : out.renameBackup with
    | false => simp [Log.remove_other, hold]
    | true =>
      obtain ⟨backed, hrename, hbacked⟩ := Log.rename_some (by decide : Path.boot ≠ .backup) hold
      rw [hrename]
      cases hrestore : out.renameRestore with
      | false => simp [Log.remove_other, hbacked.gone]
      | true =>
        obtain ⟨restored, hrename', hrestored⟩ := Log.rename_some (by decide : Path.backup ≠ .boot) hbacked.placed
        simp [hrename', Log.remove_other, hrestored.placed]

theorem replace_always (htmp : log.now .tmp = some content) (hold : log.now .boot = some image)
    (h : log.Always (Held image)) : (replaceBootFirm out log).2.Always (Held image) ↔
      (out.renameBackup = false → out.renameBoot = true →
        content = image ∨ out.removeBackup = false ∧ log.now .backup = some image) := by
  have hold' : (log.remove out.removeBackup .backup).now .boot = some image := by
    rw [Log.remove_other (by decide), hold]
  have htmp' : (log.remove out.removeBackup .backup).now .tmp = some content := by
    rw [Log.remove_other (by decide), htmp]
  have hfirst : (log.remove out.removeBackup .backup).Always (Held image) :=
    h.remove fun _ => Or.inl (by simpa using hold)
  have hbackup' : (log.remove out.removeBackup .backup).now .backup = some image ↔
      out.removeBackup = false ∧ log.now .backup = some image := by
    cases hremove : out.removeBackup <;> simp [Log.remove_now]
  unfold replaceBootFirm
  dsimp only
  rw [← hbackup']
  generalize log.remove out.removeBackup .backup = log at *
  cases hbackup : out.renameBackup with
  | true =>
    refine iff_of_true ?_ (by simp)
    obtain ⟨backed, hrename, hbacked⟩ := Log.rename_some (by decide : Path.boot ≠ .backup) hold'
    have hsecond : backed.Always (Held image) := hbacked.always hfirst (Or.inr hbacked.placed)
    rw [hrename]
    cases hboot : out.renameBoot with
    | true =>
      have htmp'' : backed.now .tmp = some content := (hbacked.other (by decide) (by decide)).trans htmp'
      obtain ⟨installed, hrename', hinstalled⟩ := Log.rename_some (by decide : Path.tmp ≠ .boot) htmp''
      rw [hrename']
      exact hinstalled.always hsecond (Or.inr ((hinstalled.other (by decide) (by decide)).trans hbacked.placed))
    | false =>
      rw [Log.rename_fails]
      cases hrestore : out.renameRestore with
      | true =>
        obtain ⟨restored, hrename', hrestored⟩ := Log.rename_some (by decide : Path.backup ≠ .boot) hbacked.placed
        rw [hrename']
        have hthird := hrestored.always hsecond (Or.inl hrestored.placed)
        exact hthird.remove fun _ => hthird.now.update_tmp none
      | false =>
        rw [Log.rename_fails]
        exact hsecond.remove fun _ => hsecond.now.update_tmp none
  | false =>
    rw [Log.rename_fails]
    cases hboot : out.renameBoot with
    | true =>
      obtain ⟨installed, hrename, hinstalled⟩ := Log.rename_some (by decide : Path.tmp ≠ .boot) htmp'
      have hbackup : installed.now .backup = log.now .backup := hinstalled.other (by decide) (by decide)
      rw [hrename, ← hbackup]
      have hheld : Held image installed.now ↔ content = image ∨ installed.now .backup = some image := by
        rw [Held, hinstalled.placed, Option.some_inj]
      constructor
      · exact fun hall _ _ => hheld.mp hall.now
      · exact fun hsame => hinstalled.always hfirst (hheld.mpr (hsame rfl rfl))
    | false =>
      rw [Log.rename_fails]
      exact iff_of_true (hfirst.remove fun _ => hfirst.now.update_tmp none) (by simp)

end

/-! ## The claim on the installation -/

theorem kept_eq_iff (out : Outcomes) (body : Bytes) :
    out.kept body = body ↔ ∀ n, out.fclose = some n → body.length ≤ n := by
  unfold Outcomes.kept
  cases out.fclose with
  | none => simp
  | some n => simp

section

variable (http : Http) (out : Outcomes) (disk : Disk Path Bytes)

/-- What is behind the download and its check. -/
theorem install_cases (fuel : Nat) :
    (Log.Within .tmp (Log.start disk) (installBootFirm http out fuel disk).2 ∧
      ∀ ret, (installBootFirm http out fuel disk).1 = some ret → ret < 0) ∨
    ∃ body log, Accepted http out body ∧ Log.Within .tmp (Log.start disk) log ∧ log.now .tmp = some (out.kept body) ∧
      installBootFirm http out fuel disk = (some (replaceBootFirm out log).1, (replaceBootFirm out log).2) := by
  have hwithin := (@Log.Within.remove _ _ _ .tmp out.removeOld (Log.start disk)).trans
    (downloadToFile_within http out fuel ((Log.start disk).remove out.removeOld .tmp))
  unfold installBootFirm
  dsimp only
  split
  · rename_i heq
    rw [heq] at hwithin
    exact Or.inl ⟨hwithin, fun ret hret => by cases hret⟩
  rename_i ret log heq
  rw [heq] at hwithin
  by_cases hret : ret < 0
  · rw [if_pos hret]
    exact Or.inl ⟨hwithin, fun ret' hret' => Option.some.inj hret' ▸ hret⟩
  rw [if_neg hret]
  obtain ⟨body, hstored, htmp⟩ := downloadToFile_some heq (Int32.not_lt.mp hret)
  by_cases hvalid : validateDownloadedFirm out (log.now .tmp) < 0
  · rw [if_pos hvalid]
    exact Or.inl ⟨hwithin.trans Log.Within.remove, fun ret' hret' => Option.some.inj hret' ▸ hvalid⟩
  · rw [if_neg hvalid]
    rw [htmp] at hvalid
    obtain ⟨hopen, hseek, htell, hmin, hmax⟩ := (validate_ok_iff out _).mp hvalid
    exact Or.inr ⟨body, log, ⟨hstored, hopen, hseek, htell, hmin, hmax⟩, hwithin, htmp, rfl⟩

variable {http out}

theorem install_accepted {body : Bytes} (h : Accepted http out body) : ∃ fuel log,
    Log.Within .tmp (Log.start disk) log ∧ log.now .tmp = some (out.kept body) ∧
      installBootFirm http out fuel disk = (some (replaceBootFirm out log).1, (replaceBootFirm out log).2) := by
  obtain ⟨fuel, ret, log, hdownload, hret, htmp⟩ :=
    downloadToFile_stored h.toStored ((Log.start disk).remove out.removeOld .tmp)
  have hwithin := (@Log.Within.remove _ _ _ .tmp out.removeOld (Log.start disk)).trans
    (downloadToFile_within http out fuel ((Log.start disk).remove out.removeOld .tmp))
  rw [hdownload] at hwithin
  have hvalid : ¬validateDownloadedFirm out (log.now .tmp) < 0 := by
    rw [htmp, validate_ok_iff]
    exact ⟨h.fopenCheck, h.fseek, h.ftell, h.size_from, h.size_to⟩
  refine ⟨fuel, log, hwithin, htmp, ?_⟩
  simp only [installBootFirm, hdownload, if_neg (Int32.not_lt.mpr hret), if_neg hvalid]

theorem always_held {log : Log Path Bytes} {image : Bytes} (h : Log.Within .tmp (Log.start disk) log)
    (hold : disk .boot = some image) : log.Always (Held image) :=
  h.always (fun _ _ hheld => hheld.update_tmp _) (Log.Always.start (Or.inl hold))

theorem installs_iff :
    (∀ fuel, Installs http disk (installBootFirm http out fuel disk)) ↔ Dependable http out disk := by
  constructor
  · intro h
    refine ⟨?_, ?_, ?_⟩
    · intro body haccepted hboot
      obtain ⟨fuel, log, hwithin, htmp, heq⟩ := install_accepted disk haccepted
      have hinstalls := h fuel
      obtain ⟨hret, hnow⟩ := replace_installed htmp hboot
      rw [heq, hret] at hinstalls
      obtain ⟨body', hbody, hnow'⟩ := hinstalls.success 0 rfl (by decide)
      have hsame : out.kept body = body' := Option.some.inj (hnow.symm.trans hnow')
      exact (kept_eq_iff out body).mp (by rw [hsame, haccepted.body.unique hbody])
    · intro body haccepted hold hbackup hboot
      obtain ⟨fuel, log, hwithin, htmp, heq⟩ := install_accepted disk haccepted
      have hinstalls := h fuel
      obtain ⟨hret, hnow⟩ := @replace_failed out log hboot
      have hbefore : log.now .boot = disk .boot := hwithin.other (by decide)
      rw [heq, hret] at hinstalls
      have hfailure : (replaceBootFirm out log).2.now .boot = disk .boot := hinstalls.failure (-6) rfl (by decide)
      exact hnow.mp (hfailure.trans hbefore.symm) (by rwa [hbefore]) hbackup
    · intro body image haccepted hold hbackup hboot
      obtain ⟨fuel, log, hwithin, htmp, heq⟩ := install_accepted disk haccepted
      have hinstalls := h fuel
      rw [heq] at hinstalls
      have hbefore : log.now .backup = disk .backup := hwithin.other (by decide)
      have hlog : log.now .boot = some image := (hwithin.other (by decide)).trans hold
      have hall := (replace_always htmp hlog (always_held disk hwithin hold)).mp (hinstalls.always image hold) hbackup hboot
      rwa [hbefore] at hall
  · intro h fuel
    rcases install_cases http out disk fuel with ⟨hwithin, hfails⟩ | ⟨body, log, haccepted, hwithin, htmp, heq⟩
    · refine ⟨?_, ?_, fun image hold => always_held disk hwithin hold⟩
      · intro ret hret hle
        exact absurd hle (Int32.not_le.mpr (hfails ret hret))
      · intro ret hret hlt
        exact hwithin.other (by decide)
    rw [heq]
    refine ⟨?_, ?_, ?_⟩
    · intro ret hret hle
      cases hboot : out.renameBoot with
      | true =>
        refine ⟨body, haccepted.body, ?_⟩
        rw [(replace_installed htmp hboot).2, (kept_eq_iff out body).mpr (h.closed body haccepted hboot)]
      | false =>
        rw [(replace_failed hboot).1] at hret
        obtain rfl := Option.some.inj hret
        exact absurd hle (by decide)
    · intro ret hret hlt
      cases hboot : out.renameBoot with
      | true =>
        rw [(replace_installed htmp hboot).1] at hret
        obtain rfl := Option.some.inj hret
        exact absurd hlt (by decide)
      | false =>
        have hbefore : log.now .boot = disk .boot := hwithin.other (by decide)
        have hnow := (@replace_failed out log hboot).2.mpr
        rw [hbefore] at hnow
        exact hnow fun hold hbackup => h.restored body haccepted hold hbackup hboot
    · intro image hold
      have hbefore : log.now .backup = disk .backup := hwithin.other (by decide)
      have hlog : log.now .boot = some image := (hwithin.other (by decide)).trans hold
      refine (replace_always htmp hlog (always_held disk hwithin hold)).mpr fun hbackup hboot => ?_
      rw [hbefore]
      exact h.backedUp body image haccepted hold hbackup hboot

end

/-- The request ends where some answer is no redirect, and the installation does what is promised, at every moment,
where closing, restoring and backing up can be depended on. -/
theorem update_iff (http : Http) (out : Outcomes) (disk : Disk Path Bytes) :
    ((∃ fuel, openRequest http.answers fuel 0 ≠ none) ↔ ∃ n, ¬Followed (http.answers n)) ∧
      ((∀ fuel, Installs http disk (installBootFirm http out fuel disk)) ↔ Dependable http out disk) :=
  ⟨openRequest_ends_iff http.answers, installs_iff disk⟩

/-- A server that sends a body of 128 KiB at once. -/
def oneBody : Http where
  answers _ := ⟨0, 0, 0, 200, 0⟩
  downloads _ := ⟨0, List.replicate minBootFirmSize 0⟩

/-- The new file does not take the name, and the old one is not put back. -/
def unrestored : Outcomes where
  removeOld := true
  fopen := true
  malloc := true
  fwrite _ := minBootFirmSize
  fclose := none
  removePartial := true
  fopenCheck := true
  fseek := true
  ftell := true
  removeInvalid := true
  removeBackup := true
  renameBackup := true
  renameBoot := false
  renameRestore := false
  removeTmp := true

theorem oneBody_accepted : Accepted oneBody unrestored (List.replicate minBootFirmSize 0) := by
  have hlength : (unrestored.kept (List.replicate minBootFirmSize 0)).length = minBootFirmSize :=
    List.length_replicate
  refine ⟨⟨⟨0, fun j hfrom hto => by omega, by decide, by decide, by decide, rfl⟩, ⟨0, ⟨fun j hfrom hto => by omega,
    by decide⟩, ?_, ?_⟩, rfl, rfl⟩, rfl, rfl, rfl, hlength.ge, ?_⟩
  · rw [received_succ, received_zero, List.append_nil]
    rfl
  · intro j hle
    exact List.length_replicate.le
  · rw [hlength]
    decide

/-- A server that redirects without end is asked without end; and after a failure there is no boot.firm, where there was
one. -/
theorem boot_lost : (∀ fuel, openRequest (fun _ => ⟨0, 0, 0, 301, 0⟩) fuel 0 = none) ∧
    ¬∀ fuel, Installs oneBody (fun _ => some [0x46]) (installBootFirm oneBody unrestored fuel fun _ => some [0x46]) := by
  constructor
  · by_contra hends
    obtain ⟨fuel, hfuel⟩ := not_forall.mp hends
    obtain ⟨n, hnot⟩ := (openRequest_ends_iff _).mp ⟨fuel, hfuel⟩
    exact hnot ⟨by decide, by decide, by decide, by decide, by decide⟩
  · intro hinstalls
    have hrestored := ((installs_iff _).mp hinstalls).restored _ oneBody_accepted (by simp) rfl rfl
    cases hrestored

end Omiiba.Updater
