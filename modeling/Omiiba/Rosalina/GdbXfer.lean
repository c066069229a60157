/-
`qXfer:...:read`: `GDB_SendStreamData` of net.c, and the objects of xfer.c that are read through it. The
texts about memory and processes are made once and kept until a request is seen to be the last.
-/
import Omiiba.Rosalina.GdbNet
import Omiiba.Lib.Hex
import Omiiba.Lib.Memory

namespace Omiiba.Rosalina

/-! ## Windows -/

/-- What `GDB_SendStreamData` does: a packet of an `'l'` or an `'m'` and a payload, or a `memcpy` outside
the stream or the buffer. -/
inductive StreamReply
  | packet (last : Bool) (payload : List UInt8)
  | outside
  deriving DecidableEq

/-- The `memcpy` behind the first letter in `buf`, and the packet. -/
def sendWindow (stream : List UInt8) (last : Bool) (offset length : Nat) : StreamReply :=
  if 1 + length ≤ gdbBufLen ∧ (length = 0 ∨ offset + length ≤ stream.length) then
    .packet last ((stream.drop offset).take length)
  else .outside

/-- The length of a request, clamped to the buffer. -/
def clampLength (length : UInt32) : Nat := if length.toNat > gdbBufLen - 1 then gdbBufLen - 1 else length.toNat

/-- `GDB_SendStreamData`. -/
def sendStreamData (stream : List UInt8) (offset length : UInt32) (forceEmptyLast : Bool) : StreamReply :=
  let totalSize := stream.length
  if (forceEmptyLast ∧ offset.toNat ≥ totalSize) ∨
      (¬forceEmptyLast ∧ (offset.toNat + clampLength length) % 2 ^ 32 ≥ totalSize) then
    sendWindow stream true offset.toNat (if offset.toNat ≥ totalSize then 0 else totalSize - offset.toNat)
  else sendWindow stream false offset.toNat (clampLength length)

theorem clampLength_lt (length : UInt32) : clampLength length < gdbBufLen := by
  unfold clampLength gdbBufLen
  split_ifs <;> omega

/-- The window of a request, `'l'` if it reaches the end of the stream. -/
def windowReply (stream : List UInt8) (offset length : UInt32) : StreamReply :=
  .packet (stream.length ≤ offset.toNat + clampLength length) ((stream.drop offset.toNat).take (clampLength length))

/-- The sum of the offset and the clamped length wraps to a place in the stream. -/
def WrapsInto (stream : List UInt8) (offset length : UInt32) : Prop :=
  2 ^ 32 ≤ offset.toNat + clampLength length ∧ offset.toNat + clampLength length - 2 ^ 32 < stream.length

/-- A request is answered with its window, but for an offset that makes the sum with its length wrap. -/
theorem sendStreamData_eq_iff {stream : List UInt8} (hsize : stream.length < 2 ^ 32) (offset length : UInt32) :
    sendStreamData stream offset length false = windowReply stream offset length ↔ ¬WrapsInto stream offset length := by
  have hclamp := clampLength_lt length
  have hoffset := offset.toNat_lt
  unfold sendStreamData windowReply WrapsInto
  generalize clampLength length = window at *
  generalize offset.toNat = o at *
  simp only [Bool.false_eq_true, false_and, false_or, not_false_eq_true, true_and]
  unfold gdbBufLen at hclamp
  by_cases hwrap : 2 ^ 32 ≤ o + window
  · have hmod : (o + window) % 2 ^ 32 = o + window - 2 ^ 32 := by
      rw [Nat.mod_eq_sub_mod hwrap, Nat.mod_eq_of_lt (by omega)]
    have hreach : stream.length ≤ o + window := by omega
    rw [hmod]
    by_cases hinto : o + window - 2 ^ 32 < stream.length
    · rw [if_neg (by omega)]
      unfold sendWindow
      simp only [hwrap, hinto, hreach]
      split_ifs <;> simp
    · rw [if_pos (by omega), if_pos (by omega)]
      have hdrop : stream.drop o = [] := List.drop_eq_nil_of_le (by omega)
      unfold sendWindow
      simp only [hinto, hreach, hdrop]
      simp [gdbBufLen]
  · rw [Nat.mod_eq_of_lt (by omega)]
    simp only [hwrap, false_and, not_false_eq_true, iff_true]
    unfold sendWindow gdbBufLen
    by_cases hreach : stream.length ≤ o + window
    · rw [if_pos hreach, decide_eq_true hreach]
      by_cases hbeyond : stream.length ≤ o
      · rw [if_pos hbeyond, if_pos (by omega), List.drop_eq_nil_of_le hbeyond]
        simp
      · rw [if_neg hbeyond, if_pos (by omega)]
        congr 1
        rw [List.take_of_length_le (by simp), List.take_of_length_le (by rw [List.length_drop]; omega)]
    · rw [if_neg hreach, decide_eq_false hreach, if_pos (by omega)]

/-! ## Objects -/

/-- `%u` and `%lu`. -/
def decimal (n : Nat) : List UInt8 := (Nat.toDigits 10 n).map fun c => UInt8.ofNat c.toNat

/-- A process of `svcGetProcessList`; its name is in the bytes of a number. -/
structure ProcessInfo where
  pid : UInt32
  opened : Bool
  name : UInt64

/-- What the system says of itself when it is asked. -/
structure SystemInfo where
  applicationUsed : UInt32
  applicationTotal : UInt32
  systemUsed : UInt32
  systemTotal : UInt32
  baseUsed : UInt32
  baseTotal : UInt32
  processes : List ProcessInfo

/-- What does not change: the files that are embedded, and the version. -/
structure XferFiles where
  targetXml : List UInt8
  targetXml_length : targetXml.length = 1767
  osdataXml : List UInt8
  osdataXml_length : osdataXml.length = 631
  version : UInt32
  commitHash : UInt32
  isRelease : Bool

def versionString (version : UInt32) : List UInt8 :=
  let major := decimal (version.toNat / 2 ^ 24 % 256)
  let minor := decimal (version.toNat / 2 ^ 16 % 256)
  let revision := version.toNat / 2 ^ 8 % 256
  if revision = 0 then ascii "v" ++ major ++ ascii "." ++ minor
  else ascii "v" ++ major ++ ascii "." ++ minor ++ ascii "." ++ decimal revision

/-- `osdata_cfw_version_template.xml`, filled in. -/
def cfwVersionXml (files : XferFiles) : List UInt8 :=
  ascii "<?xml version=\"1.0\"?>\n<!DOCTYPE target SYSTEM \"osdata.dtd\">\n<osdata type=\"cfwversion\">\n" ++
    ascii "  <item>\n    <column name=\"Version\">" ++ versionString files.version ++
    ascii "</column>\n    <column name=\"Commit hash\">" ++ Hex.fixed 8 files.commitHash.toNat ++
    ascii "</column>\n    <column name=\"Release\">" ++ (if files.isRelease then ascii "Yes" else ascii "No") ++
    ascii "</column>\n  </item>\n</osdata>\n"

/-- An item of `osdata_memory_template.xml`, filled in. -/
def memoryItem (region : String) (used total : UInt32) : List UInt8 :=
  ascii "  <item>\n    <column name=\"Region\">" ++ ascii region ++
    ascii "</column>\n    <column name=\"Bytes used\">" ++ decimal used.toNat ++
    ascii "</column>\n    <column name=\"Bytes free\">" ++ decimal (total - used).toNat ++
    ascii "</column>\n    <column name=\"Total size\">" ++ decimal total.toNat ++
    ascii "</column>\n    <column name=\"Percentage used\">" ++
    decimal ((5 + 1000 * used.toNat / total.toNat) / 10 % 2 ^ 32) ++ ascii "%</column>\n  </item>\n"

def memoryXml (system : SystemInfo) : List UInt8 :=
  ascii "<?xml version=\"1.0\"?>\n<!DOCTYPE target SYSTEM \"osdata.dtd\">\n<osdata type=\"memory\">\n" ++
    memoryItem "APPLICATION" system.applicationUsed system.applicationTotal ++
    memoryItem "SYSTEM" system.systemUsed system.systemTotal ++
    memoryItem "BASE" system.baseUsed system.baseTotal ++ ascii "</osdata>\n"

def processItem (process : ProcessInfo) : List UInt8 :=
  ascii "<item><column name=\"pid\">" ++ decimal (process.pid + 1).toNat ++ ascii "</column><column name=\"command\">" ++
    (Memory.leBytes 8 process.name.toNat).takeWhile (· ≠ 0) ++ ascii "</column></item>"

def processesXml (system : SystemInfo) : List UInt8 :=
  ascii "<osdata type=\"processes\">" ++ ((system.processes.take 0x40).filter (·.opened)).flatMap processItem ++
    ascii "</osdata>"

/-- The objects of `xferCommandHandlers` and `xferOsDataCommandHandlers`. -/
inductive XferObject
  | targetXml
  | osdata
  | cfwVersion
  | memory
  | processes
  deriving DecidableEq

/-- `memoryOsInfoXmlData` and `processesOsInfoXmlData` of a context. -/
structure OsInfoCache where
  memory : List UInt8
  processes : List UInt8

/-- A read of an object that is kept: its text is made if there is none, and dropped after a request whose
length, as the client gave it, reaches its end. -/
def readKept (made kept : List UInt8) (offset length : UInt32) : StreamReply × List UInt8 :=
  let data := if kept = [] then made else kept
  (sendStreamData data offset length false, if (offset + length).toNat ≥ data.length then [] else data)

section

variable (files : XferFiles)

/-- The handlers of reads. -/
def xferRead (system : SystemInfo) (cache : OsInfoCache) (object : XferObject) (offset length : UInt32) :
    StreamReply × OsInfoCache :=
  match object with
  | .targetXml => (sendStreamData files.targetXml offset length false, cache)
  | .osdata => (sendStreamData files.osdataXml offset length false, cache)
  | .cfwVersion => (sendStreamData (cfwVersionXml files) offset length false, cache)
  | .memory =>
    let (reply, memory) := readKept (memoryXml system) cache.memory offset length
    (reply, { cache with memory })
  | .processes =>
    let (reply, processes) := readKept (processesXml system) cache.processes offset length
    (reply, { cache with processes })

/-- A request, and what the system says when it is handled. -/
structure XferRequest where
  system : SystemInfo
  object : XferObject
  offset : UInt32
  length : UInt32

/-- Requests one after the other, with their replies. -/
def xferRun : OsInfoCache → List XferRequest → List (XferRequest × StreamReply)
  | _, [] => []
  | cache, request :: requests =>
    let (reply, cache) := xferRead files request.system cache request.object request.offset request.length
    (request, reply) :: xferRun cache requests

/-- What is kept after requests. -/
def xferCache : OsInfoCache → List XferRequest → OsInfoCache
  | cache, [] => cache
  | cache, request :: requests =>
    xferCache (xferRead files request.system cache request.object request.offset request.length).2 requests

/-! ## Texts -/

/-- The text that a request is served from. -/
def servedText (system : SystemInfo) (cache : OsInfoCache) : XferObject → List UInt8
  | .targetXml => files.targetXml
  | .osdata => files.osdataXml
  | .cfwVersion => cfwVersionXml files
  | .memory => if cache.memory = [] then memoryXml system else cache.memory
  | .processes => if cache.processes = [] then processesXml system else cache.processes

theorem decimal_length {n k : Nat} (hk : 0 < k) (h : n < 10 ^ k) : (decimal n).length ≤ k := by
  unfold decimal
  rw [List.length_map]
  exact (Nat.length_toDigits_le_iff (by norm_num) hk).mpr h

theorem decimal_word (x : UInt32) : (decimal x.toNat).length ≤ 10 :=
  decimal_length (by norm_num) (Nat.lt_of_lt_of_le x.toNat_lt (by norm_num))

theorem versionString_length (version : UInt32) : (versionString version).length ≤ 12 := by
  have hbyte (n : Nat) : (decimal (n % 256)).length ≤ 3 :=
    decimal_length (by norm_num) (Nat.lt_of_lt_of_le (Nat.mod_lt n (by norm_num)) (by norm_num))
  have hmajor := hbyte (version.toNat / 2 ^ 24)
  have hminor := hbyte (version.toNat / 2 ^ 16)
  have hrevision := hbyte (version.toNat / 2 ^ 8)
  have hv : (ascii "v").length = 1 := rfl
  have hdot : (ascii ".").length = 1 := rfl
  unfold versionString
  dsimp only
  split_ifs
  · simp only [List.length_append]
    omega
  · simp only [List.length_append]
    omega

theorem memoryItem_length {region : String} (h : (ascii region).length ≤ 11) (used total : UInt32) :
    (memoryItem region used total).length ≤ 284 := by
  have hused := decimal_word used
  have hfree := decimal_word (total - used)
  have htotal := decimal_word total
  have hpercent : (decimal ((5 + 1000 * used.toNat / total.toNat) / 10 % 2 ^ 32)).length ≤ 10 :=
    decimal_length (by norm_num) (Nat.lt_of_lt_of_le (Nat.mod_lt _ (by norm_num)) (by norm_num))
  unfold memoryItem
  simp only [List.length_append]
  have htexts : (ascii "  <item>\n    <column name=\"Region\">").length + (ascii "</column>\n    <column name=\"Bytes used\">").length +
      (ascii "</column>\n    <column name=\"Bytes free\">").length + (ascii "</column>\n    <column name=\"Total size\">").length +
      (ascii "</column>\n    <column name=\"Percentage used\">").length + (ascii "%</column>\n  </item>\n").length ≤ 233 := by decide
  omega

/-- The text about memory fits in one window. -/
theorem memoryXml_length (system : SystemInfo) : (memoryXml system).length < gdbBufLen := by
  have happlication := memoryItem_length (show (ascii "APPLICATION").length ≤ 11 by decide) system.applicationUsed system.applicationTotal
  have hsystem := memoryItem_length (show (ascii "SYSTEM").length ≤ 11 by decide) system.systemUsed system.systemTotal
  have hbase := memoryItem_length (show (ascii "BASE").length ≤ 11 by decide) system.baseUsed system.baseTotal
  unfold memoryXml gdbBufLen
  simp only [List.length_append]
  have htexts : (ascii "<?xml version=\"1.0\"?>\n<!DOCTYPE target SYSTEM \"osdata.dtd\">\n<osdata type=\"memory\">\n").length +
      (ascii "</osdata>\n").length ≤ 100 := by decide
  omega

theorem cfwVersionXml_length : (cfwVersionXml files).length < gdbBufLen := by
  have hversion := versionString_length files.version
  have hrelease : (if files.isRelease then ascii "Yes" else ascii "No").length ≤ 3 := by
    split_ifs <;> decide
  unfold cfwVersionXml gdbBufLen
  simp only [List.length_append, Hex.fixed_length]
  have htexts : (ascii "<?xml version=\"1.0\"?>\n<!DOCTYPE target SYSTEM \"osdata.dtd\">\n<osdata type=\"cfwversion\">\n").length +
      (ascii "  <item>\n    <column name=\"Version\">").length + (ascii "</column>\n    <column name=\"Commit hash\">").length +
      (ascii "</column>\n    <column name=\"Release\">").length + (ascii "</column>\n  </item>\n</osdata>\n").length ≤ 300 := by decide
  omega

theorem processItem_length (process : ProcessInfo) : (processItem process).length ≤ 91 := by
  have hpid := decimal_word (process.pid + 1)
  have hname : ((Memory.leBytes 8 process.name.toNat).takeWhile (· ≠ 0)).length ≤ 8 :=
    (List.takeWhile_prefix _).length_le.trans (by simp)
  unfold processItem
  simp only [List.length_append]
  have htexts : (ascii "<item><column name=\"pid\">").length + (ascii "</column><column name=\"command\">").length +
      (ascii "</column></item>").length ≤ 73 := by decide
  omega

theorem flatMap_length_le {α β : Type} {f : α → List β} {n : Nat} (h : ∀ a, (f a).length ≤ n) (l : List α) :
    (l.flatMap f).length ≤ n * l.length := by
  induction l with
  | nil => simp
  | cons a l ih =>
    have ha := h a
    rw [List.flatMap_cons, List.length_append, List.length_cons, Nat.mul_succ]
    omega

/-- The text about processes fits in the array that keeps it. -/
theorem processesXml_length (system : SystemInfo) : (processesXml system).length < 0x1800 := by
  have hitems := flatMap_length_le processItem_length ((system.processes.take 0x40).filter (·.opened))
  have hcount : ((system.processes.take 0x40).filter (·.opened)).length ≤ 0x40 :=
    (List.length_filter_le _ _).trans (List.length_take_le _ _)
  unfold processesXml
  simp only [List.length_append]
  have htexts : (ascii "<osdata type=\"processes\">").length + (ascii "</osdata>").length ≤ 35 := by decide
  omega

/-- What is kept is a text about memory and a text about processes, if there is one. -/
structure OsInfoCache.Made (cache : OsInfoCache) : Prop where
  memory : cache.memory = [] ∨ ∃ system, cache.memory = memoryXml system
  processes : cache.processes = [] ∨ ∃ system, cache.processes = processesXml system

theorem readKept_kept (made kept : List UInt8) (offset length : UInt32) :
    (readKept made kept offset length).2 = [] ∨ (readKept made kept offset length).2 = made ∨
      (readKept made kept offset length).2 = kept := by
  unfold readKept
  dsimp only
  split_ifs <;> simp

theorem xferRead_made (system : SystemInfo) {cache : OsInfoCache} (h : cache.Made) (object : XferObject)
    (offset length : UInt32) : (xferRead files system cache object offset length).2.Made := by
  cases object with
  | targetXml => exact h
  | osdata => exact h
  | cfwVersion => exact h
  | memory =>
    refine ⟨?_, h.processes⟩
    rcases readKept_kept (memoryXml system) cache.memory offset length with hnone | hmade | hkept
    · exact Or.inl hnone
    · exact Or.inr ⟨system, hmade⟩
    · rcases h.memory with hnone | ⟨system', hmade⟩
      · exact Or.inl (hkept.trans hnone)
      · exact Or.inr ⟨system', hkept.trans hmade⟩
  | processes =>
    refine ⟨h.memory, ?_⟩
    rcases readKept_kept (processesXml system) cache.processes offset length with hnone | hmade | hkept
    · exact Or.inl hnone
    · exact Or.inr ⟨system, hmade⟩
    · rcases h.processes with hnone | ⟨system', hmade⟩
      · exact Or.inl (hkept.trans hnone)
      · exact Or.inr ⟨system', hkept.trans hmade⟩

theorem xferCache_made (requests : List XferRequest) : ∀ {cache : OsInfoCache}, cache.Made →
    (xferCache files cache requests).Made := by
  induction requests with
  | nil => exact fun h => h
  | cons request requests ih => exact fun h => ih (xferRead_made files _ h _ _ _)

/-- Texts are far shorter than what an offset can hold. -/
theorem servedText_length (system : SystemInfo) {cache : OsInfoCache} (h : cache.Made) (object : XferObject) :
    (servedText files system cache object).length < 0x1800 := by
  cases object with
  | targetXml =>
    unfold servedText
    rw [files.targetXml_length]
    norm_num
  | osdata =>
    unfold servedText
    rw [files.osdataXml_length]
    norm_num
  | cfwVersion => exact Nat.lt_of_lt_of_le (cfwVersionXml_length files) (by unfold gdbBufLen; norm_num)
  | memory =>
    have hlen (system : SystemInfo) : (memoryXml system).length < 0x1800 :=
      Nat.lt_of_lt_of_le (memoryXml_length system) (by unfold gdbBufLen; norm_num)
    show (if cache.memory = [] then memoryXml system else cache.memory).length < 0x1800
    split_ifs with hnone
    · exact hlen system
    · obtain ⟨system', hmade⟩ := h.memory.resolve_left hnone
      rw [hmade]
      exact hlen system'
  | processes =>
    show (if cache.processes = [] then processesXml system else cache.processes).length < 0x1800
    split_ifs with hnone
    · exact processesXml_length system
    · obtain ⟨system', hmade⟩ := h.processes.resolve_left hnone
      rw [hmade]
      exact processesXml_length system'

/-! ## Transfers -/

/-- The client asks, as it says it, up to the end of the text or beyond. -/
def Overlong (text : List UInt8) (request : XferRequest) : Prop := text.length ≤ (request.offset + request.length).toNat

theorem xferRead_reply (system : SystemInfo) (cache : OsInfoCache) (object : XferObject) (offset length : UInt32) :
    (xferRead files system cache object offset length).1 =
      sendStreamData (servedText files system cache object) offset length false := by
  cases object <;> rfl

/-- Requests for other objects change nothing for an object. -/
theorem servedText_frame {object object' : XferObject} (hne : object' ≠ object) (system system' : SystemInfo)
    (cache : OsInfoCache) (offset length : UInt32) :
    servedText files system' (xferRead files system cache object' offset length).2 object =
      servedText files system' cache object := by
  cases object <;> cases object' <;> first | rfl | exact absurd rfl hne

/-- A text that is not dropped is served again, whatever the system says then. -/
theorem servedText_kept (request : XferRequest) (system' : SystemInfo) (cache : OsInfoCache)
    (h : request.object = .memory ∨ request.object = .processes →
      ¬Overlong (servedText files request.system cache request.object) request)
    (hmade : servedText files request.system cache request.object ≠ []) :
    servedText files system' (xferRead files request.system cache request.object request.offset request.length).2 request.object =
      servedText files request.system cache request.object := by
  obtain ⟨system, object, offset, length⟩ := request
  dsimp only at *
  have hkeep (made kept : List UInt8) (hne : (if kept = [] then made else kept) ≠ [])
      (hnot : ¬(if kept = [] then made else kept).length ≤ (offset + length).toNat) (other : List UInt8) :
      (if (readKept made kept offset length).2 = [] then other else (readKept made kept offset length).2) =
        if kept = [] then made else kept := by
    have heq : (readKept made kept offset length).2 = if kept = [] then made else kept := if_neg hnot
    rw [heq, if_neg hne]
  cases object with
  | targetXml => rfl
  | osdata => rfl
  | cfwVersion => rfl
  | memory => exact hkeep (memoryXml system) cache.memory hmade (h (Or.inl rfl)) (memoryXml system')
  | processes => exact hkeep (processesXml system) cache.processes hmade (h (Or.inr rfl)) (processesXml system')

/-- The payload of a reply. -/
def StreamReply.payload : StreamReply → List UInt8
  | .packet _ payload => payload
  | .outside => []

/-- Each request starts where the payload of the one before ended, and the last reply is the first `'l'`. -/
def Successive : Nat → List (XferRequest × StreamReply) → Prop
  | _, [] => False
  | pos, [(request, reply)] => request.offset.toNat = pos ∧ reply = .packet true reply.payload
  | pos, (request, reply) :: next :: rest =>
    request.offset.toNat = pos ∧ reply = .packet false reply.payload ∧ Successive (pos + reply.payload.length) (next :: rest)

/-- The replies about an object. -/
def repliesFor (object : XferObject) (replies : List (XferRequest × StreamReply)) : List (XferRequest × StreamReply) :=
  replies.filter fun x => x.1.object = object

/-- A text that fits in one window is not asked beyond its end by a request that is answered with `'m'`. -/
theorem not_overlong_of_short {text : List UInt8} (hshort : text.length < gdbBufLen) {request : XferRequest}
    (hmiddle : request.offset.toNat + clampLength request.length < text.length) : ¬Overlong text request := by
  unfold Overlong
  have hlength : clampLength request.length = request.length.toNat := by
    unfold clampLength gdbBufLen at *
    split_ifs at hmiddle ⊢ with hlong
    · omega
    · rfl
  rw [hlength] at hmiddle
  unfold gdbBufLen at hshort
  have hsum : (request.offset + request.length).toNat = request.offset.toNat + request.length.toNat := by
    rw [UInt32.toNat_add]
    exact Nat.mod_eq_of_lt (by omega)
  omega

theorem repliesFor_cons_self (request : XferRequest) (requests : List XferRequest) (cache : OsInfoCache) :
    repliesFor request.object (xferRun files cache (request :: requests)) =
      (request, sendStreamData (servedText files request.system cache request.object) request.offset request.length false) ::
        repliesFor request.object (xferRun files
          (xferRead files request.system cache request.object request.offset request.length).2 requests) := by
  rw [← xferRead_reply]
  exact List.filter_cons_of_pos (decide_eq_true rfl)

theorem repliesFor_cons_other {object : XferObject} {request : XferRequest} (hne : request.object ≠ object)
    (requests : List XferRequest) (cache : OsInfoCache) :
    repliesFor object (xferRun files cache (request :: requests)) = repliesFor object (xferRun files
      (xferRead files request.system cache request.object request.offset request.length).2 requests) :=
  List.filter_cons_of_neg (by simpa using hne)

/-- A text that is shorter than an offset can tell is read window by window. -/
theorem sendStreamData_short {text : List UInt8} (hsize : text.length < 0x1800) {offset : UInt32}
    (hoffset : offset.toNat ≤ text.length) (length : UInt32) :
    sendStreamData text offset length false = windowReply text offset length := by
  have hclamp := clampLength_lt length
  unfold gdbBufLen at hclamp
  refine (sendStreamData_eq_iff (by omega) _ _).mpr fun hwraps => ?_
  unfold WrapsInto at hwraps
  omega

/-- The payloads of a transfer are the text that its first request is served from, if no request for the
processes is overlong that is not the last. -/
theorem transfer_concat {object : XferObject} {text : List UInt8} (hsize : text.length < 0x1800) (hnonempty : text ≠ [])
    (hshort : object = .memory → text.length < gdbBufLen) (requests : List XferRequest) :
    ∀ {cache : OsInfoCache} {pos : Nat}, pos ≤ text.length →
      (∀ request, (requests.filter fun r => r.object = object).head? = some request →
        servedText files request.system cache object = text) →
      Successive pos (repliesFor object (xferRun files cache requests)) →
      (object = .processes → ∀ x ∈ (repliesFor object (xferRun files cache requests)).dropLast, ¬Overlong text x.1) →
      (repliesFor object (xferRun files cache requests)).flatMap (·.2.payload) = text.drop pos := by
  induction requests with
  | nil => exact fun _ _ h _ => absurd h id
  | cons request requests ih =>
    intro cache pos hpos hserved hsuccessive hlong
    by_cases hobject : request.object = object
    · subst hobject
      have htext := hserved request (by simp)
      rw [repliesFor_cons_self, htext] at hsuccessive hlong ⊢
      have hoffset : request.offset.toNat = pos := by
        revert hsuccessive
        cases repliesFor request.object (xferRun files
          (xferRead files request.system cache request.object request.offset request.length).2 requests) with
        | nil => exact fun h => h.1
        | cons next rest => exact fun h => h.1
      rw [sendStreamData_short hsize (hoffset ▸ hpos)] at hsuccessive hlong ⊢
      unfold windowReply at hsuccessive hlong ⊢
      rw [hoffset] at hsuccessive hlong ⊢
      cases hrest : repliesFor request.object (xferRun files
          (xferRead files request.system cache request.object request.offset request.length).2 requests) with
      | nil =>
        rw [hrest] at hsuccessive
        obtain ⟨-, hlast⟩ := hsuccessive
        have hreach : text.length ≤ pos + clampLength request.length := by
          simpa [StreamReply.payload] using hlast
        simp only [StreamReply.payload, List.flatMap_cons, List.flatMap_nil, List.append_nil]
        exact List.take_of_length_le (by rw [List.length_drop]; omega)
      | cons next rest =>
        rw [hrest] at hsuccessive hlong
        obtain ⟨-, hmiddle, hnext⟩ := hsuccessive
        rw [List.dropLast_cons_of_ne_nil (by simp)] at hlong
        have hinside : pos + clampLength request.length < text.length := by
          simpa [StreamReply.payload] using hmiddle
        -- the text is kept for the next request
        have hkept (system' : SystemInfo) : servedText files system'
            (xferRead files request.system cache request.object request.offset request.length).2 request.object = text := by
          rw [servedText_kept files request system' cache ?_ (htext ▸ hnonempty), htext]
          rw [htext]
          rintro (hmemory | hprocesses)
          · exact not_overlong_of_short (hshort hmemory) (hoffset ▸ hinside)
          · exact hlong hprocesses _ List.mem_cons_self
        have hlen : ((text.drop pos).take (clampLength request.length)).length = clampLength request.length := by
          rw [List.length_take_of_le]
          rw [List.length_drop]
          omega
        have htail := ih (by omega : pos + clampLength request.length ≤ text.length) (fun r _ => hkept r.system)
          (by rw [hrest]; simpa [StreamReply.payload, hlen] using hnext)
          (by rw [hrest]; exact fun hprocesses x hx => hlong hprocesses x (List.mem_cons_of_mem _ hx))
        rw [List.flatMap_cons, ← hrest, htail, ← List.drop_drop]
        exact List.take_append_drop _ _
    · rw [repliesFor_cons_other files hobject] at hsuccessive hlong ⊢
      refine ih hpos (fun r hr => ?_) hsuccessive hlong
      rw [servedText_frame files hobject]
      refine hserved r ?_
      rwa [List.filter_cons_of_neg (by simpa using hobject)]

theorem cfwVersionXml_ne_nil : cfwVersionXml files ≠ [] := by
  have hend : 0 < (ascii "</column>\n  </item>\n</osdata>\n").length := by decide
  refine List.ne_nil_of_length_pos ?_
  unfold cfwVersionXml
  simp only [List.length_append]
  omega

theorem memoryXml_ne_nil (system : SystemInfo) : memoryXml system ≠ [] := by
  have hend : 0 < (ascii "</osdata>\n").length := by decide
  refine List.ne_nil_of_length_pos ?_
  unfold memoryXml
  simp only [List.length_append]
  omega

theorem processesXml_ne_nil (system : SystemInfo) : processesXml system ≠ [] := by
  have hend : 0 < (ascii "</osdata>").length := by decide
  refine List.ne_nil_of_length_pos ?_
  unfold processesXml
  simp only [List.length_append]
  omega

theorem servedText_ne_nil (system : SystemInfo) (cache : OsInfoCache) (object : XferObject) :
    servedText files system cache object ≠ [] := by
  cases object with
  | targetXml =>
    refine List.ne_nil_of_length_pos ?_
    show 0 < files.targetXml.length
    rw [files.targetXml_length]
    norm_num
  | osdata =>
    refine List.ne_nil_of_length_pos ?_
    show 0 < files.osdataXml.length
    rw [files.osdataXml_length]
    norm_num
  | cfwVersion => exact cfwVersionXml_ne_nil files
  | memory =>
    show (if cache.memory = [] then memoryXml system else cache.memory) ≠ []
    split_ifs with hnone
    · exact memoryXml_ne_nil system
    · exact hnone
  | processes =>
    show (if cache.processes = [] then processesXml system else cache.processes) ≠ []
    split_ifs with hnone
    · exact processesXml_ne_nil system
    · exact hnone

theorem servedText_memory_length (system : SystemInfo) {cache : OsInfoCache} (h : cache.Made) :
    (servedText files system cache .memory).length < gdbBufLen := by
  show (if cache.memory = [] then memoryXml system else cache.memory).length < gdbBufLen
  split_ifs with hnone
  · exact memoryXml_length system
  · obtain ⟨system', hmade⟩ := h.memory.resolve_left hnone
    rw [hmade]
    exact memoryXml_length system'

end

/-- What a context has kept before any request. -/
def OsInfoCache.empty : OsInfoCache := ⟨[], []⟩

/-- A request is answered with its window, but for an offset that makes the sum with its length wrap to a
place in the stream. After any requests, the payloads of a transfer are one snapshot of its object, if it is
not the list of processes or no request of it but the last asks, unclamped, up to the end of the text. -/
theorem xfer_windows_and_snapshots (stream : List UInt8) (files : XferFiles) (history requests : List XferRequest)
    (object : XferObject) (first : XferRequest) :
    (stream.length < 2 ^ 32 → ∀ offset length : UInt32,
      sendStreamData stream offset length false = windowReply stream offset length ↔ ¬WrapsInto stream offset length) ∧
    ((requests.filter fun r => r.object = object).head? = some first →
      let cache := xferCache files OsInfoCache.empty history
      let text := servedText files first.system cache object
      let replies := repliesFor object (xferRun files cache requests)
      Successive 0 replies → (object = .processes → ∀ x ∈ replies.dropLast, ¬Overlong text x.1) →
      replies.flatMap (·.2.payload) = text) := by
  constructor
  · exact fun hsize offset length => sendStreamData_eq_iff hsize offset length
  · intro hfirst cache text replies hsuccessive hlong
    have hmade : cache.Made := xferCache_made files history ⟨Or.inl rfl, Or.inl rfl⟩
    have hshort : object = .memory → text.length < gdbBufLen := by
      rintro rfl
      exact servedText_memory_length files first.system hmade
    refine transfer_concat files (servedText_length files first.system hmade object)
      (servedText_ne_nil files first.system cache object) hshort requests (Nat.zero_le _) (fun request hhead => ?_)
      hsuccessive hlong
    rw [hfirst] at hhead
    rw [Option.some.inj hhead]

/-- A system with as many processes of one letter. -/
def systemOf (name : UInt64) (n : Nat) : SystemInfo := ⟨0, 1, 0, 1, 0, 1, List.replicate n ⟨1, true, name⟩⟩

def emptyFiles : XferFiles :=
  ⟨List.replicate 1767 0x20, List.length_replicate, List.replicate 631 0x20, List.length_replicate, 0, 0, true⟩

theorem xfer_one_window :
    sendStreamData [0x61] 0 1 false = windowReply [0x61] 0 1 ∧
      (repliesFor .processes (xferRun emptyFiles OsInfoCache.empty [⟨systemOf 0x61 1, .processes, 0, 1000⟩])).flatMap
        (·.2.payload) = processesXml (systemOf 0x61 1) := by
  constructor
  · exact ((xfer_windows_and_snapshots [0x61] emptyFiles [] [] .processes ⟨systemOf 0x61 1, .processes, 0, 1000⟩).1
      (by decide) 0 1).mpr (by rintro ⟨h, -⟩; exact absurd h (by decide))
  · exact (xfer_windows_and_snapshots [] emptyFiles [] [⟨systemOf 0x61 1, .processes, 0, 1000⟩] .processes
      ⟨systemOf 0x61 1, .processes, 0, 1000⟩).2 rfl ⟨rfl, by decide +kernel⟩ (by simp [repliesFor, xferRun])

/-- An offset near `2 ^ 32` is read outside the stream. A client that asks for 4096 bytes at a time gets the
end of another list of processes than the start. -/
theorem xfer_outside_and_mixed :
    sendStreamData (List.replicate 100 0x41) 0xFFFFFFFF 2 false = .outside ∧
    let before := systemOf 0x61 20
    let after := systemOf 0x62 20
    let replies := xferRun emptyFiles OsInfoCache.empty [⟨before, .processes, 0, 4096⟩, ⟨after, .processes, 1023, 4096⟩]
    Successive 0 replies ∧ replies.flatMap (·.2.payload) ≠ processesXml before ∧
      replies.flatMap (·.2.payload) ≠ processesXml after := by
  refine ⟨by decide +kernel, ⟨rfl, by decide +kernel, by decide +kernel, by decide +kernel⟩, ?_, ?_⟩
  · decide +kernel
  · decide +kernel

end Omiiba.Rosalina
