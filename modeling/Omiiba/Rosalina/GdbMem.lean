/-
The `m` packet of the debugger, after mem.c: the target's memory is read page by page into a buffer on the
stack, and what could be read is sent in hexadecimal.
-/
import Omiiba.Rosalina.GdbNet

namespace Omiiba.Rosalina

/-- A `u32`. -/
def word (n : Nat) : Nat := n % 2 ^ 32

theorem word_word_add (a n i : Nat) : word (word (a + n) + i) = word (a + (n + i)) := by
  unfold word
  omega

/-- What the kernel says of the target's memory, which is the same for the addresses of one page. -/
structure TargetMemory where
  /-- N of TTBCR: the process has the addresses below `2 ^ (32 - N)` -/
  ttbcr : Nat
  ttbcr_pos : 1 ≤ ttbcr
  ttbcr_le : ttbcr ≤ 7
  /-- the pages that `svcReadProcessMemory` can read -/
  mapped : Nat → Bool
  /-- `ctx->enableExternalMemoryAccess` -/
  enableExternalMemoryAccess : Bool
  /-- the pages for which `svcConvertVAToPA` has an address -/
  physical : Nat → Bool
  byte : Nat → UInt8

namespace TargetMemory

/-- `1u << (32 - TTBCR)`. -/
def userLimit (target : TargetMemory) : Nat := 2 ^ (32 - target.ttbcr)

/-- The bytes from an address on. -/
def bytes (target : TargetMemory) (addr n : Nat) : List UInt8 := (List.range n).map fun i => target.byte (word (addr + i))

end TargetMemory

/-- The pages that `rosalina` has mapped itself. -/
def inWindow (addr : Nat) : Bool := 0x80000000 ≤ addr ∧ addr < 0xB0000000

/-- Those of them that are registers. -/
def inIo (addr : Nat) : Bool := 0x90000000 ≤ addr ∧ addr < 0x98000000

/-- The loop over registers: the offset of the buffer is counted in units of the access. -/
def ioLoop (target : TargetMemory) (addr len off : Nat) : List (Write UInt8) :=
  if off < len then
    if word (addr + off) % 2 = 1 then ⟨off, target.bytes (addr + off) 1⟩ :: ioLoop target addr len (off + 1)
    else if word (addr + off) % 4 ≠ 0 then ⟨2 * off, target.bytes (addr + off) 2⟩ :: ioLoop target addr len (off + 2)
    else ⟨4 * off, target.bytes (addr + off) 4⟩ :: ioLoop target addr len (off + 4)
  else []
termination_by len - off

/-- `GDB_ReadTargetMemoryInPage`: what it writes to `out`, unless it fails. -/
def readTargetMemoryInPage (target : TargetMemory) (addr len : Nat) : Option (List (Write UInt8)) :=
  if addr < target.userLimit then
    if target.mapped (addr / 0x1000) then some [⟨0, target.bytes addr len⟩] else none
  else if !target.enableExternalMemoryAccess then none
  else if inWindow addr then
    if inIo addr then some (ioLoop target addr len 0) else some [⟨0, target.bytes addr len⟩]
  else if target.physical (addr / 0x1000) then some [⟨0, target.bytes addr len⟩]
  else none

/-- `nb`: what is left of the request on the page of the address. -/
def onPage (addr remaining : Nat) : Nat :=
  if remaining > 0x1000 - addr % 0x1000 then 0x1000 - addr % 0x1000 else remaining

theorem onPage_le (addr remaining : Nat) : onPage addr remaining ≤ remaining := by
  unfold onPage
  split <;> omega

theorem onPage_pos (addr : Nat) {remaining : Nat} (h : 0 < remaining) : 0 < onPage addr remaining := by
  unfold onPage
  split <;> omega

theorem onPage_fits (addr remaining : Nat) : addr % 0x1000 + onPage addr remaining ≤ 0x1000 := by
  unfold onPage
  split <;> omega

/-- Only the last page of a request is not read to its end. -/
theorem onPage_end {addr remaining : Nat} (h : onPage addr remaining < remaining) :
    addr % 0x1000 + onPage addr remaining = 0x1000 := by
  unfold onPage at h ⊢
  split at h
  · rename_i hmore
    rw [if_pos hmore]
    omega
  · omega

/-- `GDB_ReadTargetMemory`, with `total` bytes already read: what it writes, and how much it reads in all. -/
def readTargetMemory (target : TargetMemory) (addr remaining total : Nat) : List (Write UInt8) × Nat :=
  match readTargetMemoryInPage target addr (onPage addr remaining) with
  | none => ([], total)
  | some writes =>
    if 0 < remaining - onPage addr remaining then
      let (more, all) := readTargetMemory target (word (addr + onPage addr remaining)) (remaining - onPage addr remaining)
        (total + onPage addr remaining)
      (writes.map (Write.shift total) ++ more, all)
    else (writes.map (Write.shift total), total + onPage addr remaining)
termination_by remaining
decreasing_by
  have := onPage_pos addr (show 0 < remaining by omega)
  omega

inductive MemoryReply
  /-- `ENOMEM` or `EFAULT` -/
  | errno (no : Nat)
  | packet (data : List UInt8)

/-- `GDB_SendMemory` without a prefix: what it writes to `membuf`, and the reply. -/
def sendMemory (target : TargetMemory) (membuf : Memory UInt8) (addr len : UInt32) : List (Write UInt8) × MemoryReply :=
  if (2 * len).toNat > gdbBufLen then ([], .errno 12)
  else
    let (writes, total) := readTargetMemory target addr.toNat len.toNat 0
    if total = 0 then (writes, .errno 14)
    else (writes, .packet (encodeHex ((List.range total).map (membuf.written writes))))

/-! ## What can be read -/

namespace TargetMemory

/-- The byte at the address can be read. -/
def readable (target : TargetMemory) (addr : Nat) : Bool :=
  if addr < target.userLimit then target.mapped (addr / 0x1000)
  else target.enableExternalMemoryAccess && (inWindow addr || target.physical (addr / 0x1000))

/-- The length of the longest prefix of a request that can be read. -/
def readablePrefix (target : TargetMemory) (addr len : Nat) : Nat :=
  Nat.findGreatest (fun k => ∀ i < k, target.readable (word (addr + i)) = true) len

theorem readablePrefix_eq_iff (target : TargetMemory) {addr len k : Nat} : target.readablePrefix addr len = k ↔
    k ≤ len ∧ (∀ i < k, target.readable (word (addr + i)) = true) ∧
      (k < len → target.readable (word (addr + k)) = false) := by
  unfold readablePrefix
  rw [Nat.findGreatest_eq_iff]
  constructor
  · rintro ⟨hle, hall, hgreatest⟩
    have hall : ∀ i < k, target.readable (word (addr + i)) = true := fun i hi => hall (by omega) i hi
    refine ⟨hle, hall, fun hlt => ?_⟩
    by_contra hnext
    refine hgreatest (Nat.lt_succ_self k) hlt fun i hi => ?_
    rcases Nat.lt_succ_iff_lt_or_eq.mp hi with hlow | rfl
    · exact hall i hlow
    · exact Bool.not_eq_false _ ▸ hnext
  · rintro ⟨hle, hall, hend⟩
    refine ⟨hle, fun _ => hall, fun n hn hnle hfits => ?_⟩
    have hbyte := hfits k hn
    rw [hend (by omega)] at hbyte
    cases hbyte

theorem userLimit_page (target : TargetMemory) : target.userLimit = 0x1000 * 2 ^ (20 - target.ttbcr) := by
  have h := target.ttbcr_le
  unfold userLimit
  rw [show 32 - target.ttbcr = 12 + (20 - target.ttbcr) by omega, pow_add]
  rfl

theorem userLimit_le (target : TargetMemory) : target.userLimit ≤ 2 ^ 31 := by
  have h := target.ttbcr_pos
  unfold userLimit
  exact Nat.pow_le_pow_right (by omega) (by omega)

/-- The bytes of a page can all be read, or none of them. -/
theorem readable_page (target : TargetMemory) {addr addr' : Nat} (h : addr / 0x1000 = addr' / 0x1000) :
    target.readable addr = target.readable addr' := by
  unfold readable inWindow
  rw [h, target.userLimit_page]
  have hlimit : addr < 0x1000 * 2 ^ (20 - target.ttbcr) ↔ addr' < 0x1000 * 2 ^ (20 - target.ttbcr) := by omega
  have hlow : 0x80000000 ≤ addr ↔ 0x80000000 ≤ addr' := by omega
  have hhigh : addr < 0xB0000000 ↔ addr' < 0xB0000000 := by omega
  simp only [hlimit, hlow, hhigh]

end TargetMemory

/-- What one page contributes. -/
def pageWrites (target : TargetMemory) (addr len : Nat) : List (Write UInt8) :=
  if inIo addr then ioLoop target addr len 0 else [⟨0, target.bytes addr len⟩]

theorem readTargetMemoryInPage_eq (target : TargetMemory) (addr len : Nat) :
    readTargetMemoryInPage target addr len =
      if target.readable addr then some (pageWrites target addr len) else none := by
  have hlimit := target.userLimit_le
  unfold readTargetMemoryInPage TargetMemory.readable pageWrites
  rcases Decidable.em (addr < target.userLimit) with hlow | hhigh
  · have hio : inIo addr = false := by
      unfold inIo
      rw [decide_eq_false_iff_not]
      omega
    simp [hlow, hio]
  · rcases Decidable.em (inWindow addr = true) with hin | hout
    · cases hext : target.enableExternalMemoryAccess
      · simp [hhigh]
      · simp only [hhigh, hin, if_true, if_false, Bool.not_true, Bool.false_eq_true, Bool.true_or, Bool.and_self]
        split <;> rfl
    · have hio : inIo addr = false := by
        unfold inWindow at hout
        unfold inIo
        rw [decide_eq_true_iff] at hout
        rw [decide_eq_false_iff_not]
        omega
      cases hext : target.enableExternalMemoryAccess <;> simp [hhigh, hout, hio]

/-! ## Pages -/

/-- A read of `remaining` bytes with `total` bytes in front of it: its writes, and how many bytes it reads. -/
inductive Reads (target : TargetMemory) : Nat → Nat → Nat → List (Write UInt8) → Nat → Prop
  | stop {addr remaining total : Nat} : target.readable addr = false → Reads target addr remaining total [] 0
  | last {addr remaining total : Nat} : target.readable addr = true → 0 < remaining → addr % 0x1000 + remaining ≤ 0x1000 →
      Reads target addr remaining total ((pageWrites target addr remaining).map (Write.shift total)) remaining
  | more {addr nb rest total k : Nat} {writes : List (Write UInt8)} : target.readable addr = true → 0 < nb → 0 < rest →
      addr % 0x1000 + nb = 0x1000 → Reads target (word (addr + nb)) rest (total + nb) writes k →
      Reads target addr (nb + rest) total ((pageWrites target addr nb).map (Write.shift total) ++ writes) (nb + k)

theorem reads_readTargetMemory (target : TargetMemory) (remaining : Nat) : 0 < remaining → ∀ addr total : Nat, ∃ k,
      (readTargetMemory target addr remaining total).2 = total + k ∧
      Reads target addr remaining total (readTargetMemory target addr remaining total).1 k := by
  induction remaining using Nat.strong_induction_on with
  | _ remaining ih =>
    intro hpos addr total
    rw [readTargetMemory, readTargetMemoryInPage_eq]
    cases hread : target.readable addr with
    | false => exact ⟨0, rfl, .stop hread⟩
    | true =>
      have hle := onPage_le addr remaining
      simp only [if_true]
      rcases Decidable.em (0 < remaining - onPage addr remaining) with hmore | hlast
      · rw [if_pos hmore]
        obtain ⟨k, hk, hreads⟩ := ih (remaining - onPage addr remaining)
          (by have := onPage_pos addr hpos; omega) hmore (word (addr + onPage addr remaining))
          (total + onPage addr remaining)
        refine ⟨onPage addr remaining + k, ?_, ?_⟩
        · rw [hk, Nat.add_assoc]
        · have hstep := Reads.more hread (onPage_pos addr hpos) hmore (onPage_end (by omega)) hreads
          rwa [Nat.add_sub_cancel' hle] at hstep
      · rw [if_neg hlast]
        have hall : onPage addr remaining = remaining := by omega
        refine ⟨remaining, by rw [hall], ?_⟩
        rw [hall]
        exact .last hread hpos (hall ▸ onPage_fits addr remaining)

/-- As many bytes are read as can be read. -/
theorem Reads.count {target : TargetMemory} {addr remaining total k : Nat} {writes : List (Write UInt8)}
    (h : Reads target addr remaining total writes k) (haddr : addr < 2 ^ 32) :
    k ≤ remaining ∧ (∀ i < k, target.readable (word (addr + i)) = true) ∧
      (k < remaining → target.readable (word (addr + k)) = false) := by
  induction h with
  | @stop addr _ _ hread =>
    refine ⟨Nat.zero_le _, fun i hi => absurd hi (Nat.not_lt_zero i), fun _ => ?_⟩
    rwa [Nat.add_zero, word, Nat.mod_eq_of_lt haddr]
  | @last addr remaining total hread _ hpage =>
    refine ⟨le_rfl, fun i hi => ?_, fun hlt => absurd hlt (lt_irrefl _)⟩
    rw [← hread]
    apply target.readable_page
    unfold word
    omega
  | @more addr nb rest total k writes hread hnb _ hpage _ ih =>
    obtain ⟨hle, hall, hend⟩ := ih (Nat.mod_lt _ (by decide))
    refine ⟨Nat.add_le_add_left hle nb, fun i hi => ?_, fun hlt => ?_⟩
    · rcases Nat.lt_or_ge i nb with hin | hout
      · rw [← hread]
        apply target.readable_page
        unfold word
        omega
      · have hbyte := hall (i - nb) (by omega)
        rwa [word_word_add, Nat.add_sub_cancel' hout] at hbyte
    · have hbyte := hend (by omega)
      rwa [word_word_add] at hbyte

theorem Reads.count_eq {target : TargetMemory} {addr remaining total k : Nat} {writes : List (Write UInt8)}
    (h : Reads target addr remaining total writes k) (haddr : addr < 2 ^ 32) : k = target.readablePrefix addr remaining :=
  (target.readablePrefix_eq_iff.mpr (h.count haddr)).symm

/-! ## Registers -/

/-- The size of the access at an address. -/
def accessWidth (addr : Nat) : Nat := if addr % 2 = 1 then 1 else if addr % 4 ≠ 0 then 2 else 4

theorem accessWidth_pos (addr : Nat) : 0 < accessWidth addr := by
  unfold accessWidth
  split
  · exact Nat.one_pos
  · split <;> decide

/-- After an access the address is even, and no access crosses the end of a page. -/
theorem accessWidth_next (addr : Nat) : (addr + accessWidth addr) % 2 = 0 ∧ addr % 0x1000 + accessWidth addr ≤ 0x1000 := by
  unfold accessWidth
  split
  · omega
  · split <;> omega

theorem accessWidth_even {addr : Nat} (h : addr % 2 = 0) : 2 ≤ accessWidth addr := by
  unfold accessWidth
  rw [if_neg (by omega)]
  split <;> decide

theorem ioLoop_done (target : TargetMemory) (addr : Nat) {len off : Nat} (h : len ≤ off) : ioLoop target addr len off = [] := by
  rw [ioLoop, if_neg (Nat.not_lt.mpr h)]

theorem ioLoop_access (target : TargetMemory) (addr : Nat) {len off : Nat} (h : off < len) :
    ioLoop target addr len off =
      ⟨accessWidth (word (addr + off)) * off, target.bytes (addr + off) (accessWidth (word (addr + off)))⟩ ::
        ioLoop target addr len (off + accessWidth (word (addr + off))) := by
  rw [ioLoop, if_pos h]
  unfold accessWidth
  split
  · rw [Nat.one_mul]
  · split <;> rfl

@[simp] theorem TargetMemory.bytes_length (target : TargetMemory) (addr n : Nat) : (target.bytes addr n).length = n := by
  simp [bytes]

/-- From an even address on the offsets are at least doubled. -/
theorem ioLoop_far (target : TargetMemory) (addr len : Nat) : ∀ {n off : Nat}, len - off ≤ n → word (addr + off) % 2 = 0 →
    ∀ w ∈ ioLoop target addr len off, 2 * off ≤ w.off := by
  intro n
  induction n with
  | zero =>
    intro off hn _ w hw
    rw [ioLoop_done target addr (by omega)] at hw
    cases hw
  | succ n ih =>
    intro off hn heven w hw
    rcases Nat.lt_or_ge off len with hlt | hge
    · rw [ioLoop_access target addr hlt] at hw
      have hwidth := accessWidth_even heven
      rcases List.mem_cons.mp hw with rfl | hw
      · exact Nat.mul_le_mul_right off hwidth
      · have hnext := accessWidth_next (word (addr + off))
        have hfar := ih (by omega) (by unfold word at *; omega) w hw
        omega
    · rw [ioLoop_done target addr hge] at hw
      cases hw

/-- The loop writes up to the end of its piece or further. -/
theorem ioLoop_reaches (target : TargetMemory) (addr len : Nat) : ∀ {n off : Nat}, len - off ≤ n → off < len →
    ∃ w ∈ ioLoop target addr len off, len ≤ w.stop := by
  intro n
  induction n with
  | zero =>
    intro off hn hlt
    omega
  | succ n ih =>
    intro off hn hlt
    rw [ioLoop_access target addr hlt]
    have hwidth := accessWidth_pos (word (addr + off))
    rcases Nat.lt_or_ge (off + accessWidth (word (addr + off))) len with hmore | hend
    · obtain ⟨w, hw, hstop⟩ := ih (by omega) hmore
      exact ⟨w, List.mem_cons_of_mem _ hw, hstop⟩
    · refine ⟨_, List.mem_cons_self, ?_⟩
      have hoff := Nat.le_mul_of_pos_left off hwidth
      simp only [Write.stop, TargetMemory.bytes_length]
      omega

/-- A piece that takes more than one access leaves the cell behind the first one as it was. -/
theorem ioLoop_hole (target : TargetMemory) {addr len : Nat} (haddr : addr < 2 ^ 32) (h : accessWidth addr < len) :
    ∀ w ∈ ioLoop target addr len 0, ¬w.Covers (accessWidth addr) := by
  have hword : word (addr + 0) = addr := Nat.mod_eq_of_lt haddr
  have hpos := accessWidth_pos addr
  have hnext := (accessWidth_next addr).1
  intro w hw hcov
  rw [ioLoop_access target addr (by omega), hword, Nat.zero_add] at hw
  rcases List.mem_cons.mp hw with rfl | hw
  · simp only [Write.Covers, Write.stop, TargetMemory.bytes_length] at hcov
    omega
  · have hfar := ioLoop_far target addr len le_rfl (by unfold word; omega) w hw
    unfold Write.Covers at hcov
    omega

/-! ## What a page leaves in the buffer -/

theorem inIo_page {addr addr' : Nat} (h : addr / 0x1000 = addr' / 0x1000) : inIo addr = inIo addr' := by
  unfold inIo
  have hlow : 0x90000000 ≤ addr ↔ 0x90000000 ≤ addr' := by omega
  have hhigh : addr < 0x98000000 ↔ addr' < 0x98000000 := by omega
  simp only [hlow, hhigh]

/-- The size of `membuf`. -/
def membufSize : Nat := gdbBufLen / 2

/-- The part of each page of registers is one access, which ends in the buffer. -/
def OneAccess (addr total k : Nat) : Prop :=
  ∀ i < k, inIo (word (addr + i)) = true →
    if addr % 0x1000 + i < 0x1000 then i < accessWidth addr ∧ total + accessWidth addr ≤ membufSize
    else word (addr + i) % 0x1000 < 4 ∧ total + i - word (addr + i) % 0x1000 + 4 ≤ membufSize

theorem oneAccess_page {addr total nb : Nat} (haddr : addr < 2 ^ 32) (hnb : 0 < nb) (hpage : addr % 0x1000 + nb ≤ 0x1000) :
    OneAccess addr total nb ↔ (inIo addr = true → nb ≤ accessWidth addr ∧ total + accessWidth addr ≤ membufSize) := by
  have hio : ∀ i < nb, inIo (word (addr + i)) = inIo addr := by
    intro i hi
    apply inIo_page
    unfold word
    omega
  constructor
  · intro h hin
    have hlast := h (nb - 1) (by omega) (by rwa [hio _ (by omega)])
    rw [if_pos (by omega)] at hlast
    omega
  · intro h i hi hin
    rw [hio i hi] at hin
    rw [if_pos (by omega)]
    have := h hin
    omega

theorem oneAccess_more {addr total nb k : Nat} (hpage : addr % 0x1000 + nb = 0x1000) :
    OneAccess addr total (nb + k) ↔ OneAccess addr total nb ∧ OneAccess (word (addr + nb)) (total + nb) k := by
  have hstart : word (addr + nb) % 0x1000 = 0 := by
    unfold word
    omega
  have hwidth : accessWidth (word (addr + nb)) = 4 := by
    unfold accessWidth
    rw [if_neg (by omega), if_neg (by omega)]
  have hlater : ∀ i, (if addr % 0x1000 + (nb + i) < 0x1000 then nb + i < accessWidth addr ∧ total + accessWidth addr ≤ membufSize
      else word (addr + (nb + i)) % 0x1000 < 4 ∧ total + (nb + i) - word (addr + (nb + i)) % 0x1000 + 4 ≤ membufSize) ↔
      if word (addr + nb) % 0x1000 + i < 0x1000 then
        i < accessWidth (word (addr + nb)) ∧ total + nb + accessWidth (word (addr + nb)) ≤ membufSize
      else word (word (addr + nb) + i) % 0x1000 < 4 ∧
        total + nb + i - word (word (addr + nb) + i) % 0x1000 + 4 ≤ membufSize := by
    intro i
    rw [if_neg (by omega), hstart, hwidth, word_word_add]
    unfold word
    split <;> omega
  constructor
  · intro h
    refine ⟨fun i hi => h i (by omega), fun i hi hin => ?_⟩
    rw [word_word_add] at hin
    exact (hlater i).mp (h (nb + i) (by omega) hin)
  · rintro ⟨hfirst, hrest⟩ i hi hin
    rcases Nat.lt_or_ge i nb with hlt | hge
    · exact hfirst i hlt hin
    · obtain ⟨j, rfl⟩ := Nat.exists_eq_add_of_le hge
      exact (hlater j).mpr (hrest j (by omega) (by rwa [word_word_add]))

theorem pageWrites_reaches (target : TargetMemory) (addr : Nat) {nb : Nat} (hnb : 0 < nb) :
    ∃ w ∈ pageWrites target addr nb, nb ≤ w.stop := by
  unfold pageWrites
  split
  · exact ioLoop_reaches target addr nb le_rfl hnb
  · exact ⟨_, List.mem_singleton_self _, by simp [Write.stop]⟩

/-- A page of which no more than one access is needed is written at once. -/
theorem pageWrites_once (target : TargetMemory) {addr nb : Nat} (haddr : addr < 2 ^ 32) (hnb : 0 < nb)
    (hone : inIo addr = true → nb ≤ accessWidth addr) :
    pageWrites target addr nb = [⟨0, target.bytes addr (if inIo addr then accessWidth addr else nb)⟩] := by
  have hword : word (addr + 0) = addr := Nat.mod_eq_of_lt haddr
  unfold pageWrites
  split
  · rename_i hio
    rw [ioLoop_access target addr hnb, hword, ioLoop_done target addr (by simpa using hone hio)]
    rfl
  · rfl

/-- A page that needs more than one access leaves a hole, which the pages behind it do not fill. -/
theorem pageWrites_hole (target : TargetMemory) {addr nb : Nat} (haddr : addr < 2 ^ 32) (hio : inIo addr = true)
    (h : accessWidth addr < nb) : ∀ w ∈ pageWrites target addr nb, ¬w.Covers (accessWidth addr) := by
  unfold pageWrites
  rw [if_pos hio]
  exact ioLoop_hole target haddr h

theorem Reads.behind {target : TargetMemory} {addr remaining total k : Nat} {writes : List (Write UInt8)}
    (h : Reads target addr remaining total writes k) : ∀ w ∈ writes, total ≤ w.off := by
  induction h with
  | stop => simp
  | @last addr remaining total hread _ hpage =>
    intro w hw
    obtain ⟨w', _, rfl⟩ := List.mem_map.mp hw
    exact Nat.le_add_right _ _
  | @more addr nb rest total k writes _ _ _ _ _ ih =>
    intro w hw
    rcases List.mem_append.mp hw with hw | hw
    · obtain ⟨w', _, rfl⟩ := List.mem_map.mp hw
      exact Nat.le_add_right _ _
    · exact Nat.le_of_add_right_le (ih w hw)

/-- How much a page that is written at once writes. -/
def atOnce (addr nb : Nat) : Nat := if inIo addr then accessWidth addr else nb

theorem le_atOnce {addr nb : Nat} (hone : inIo addr = true → nb ≤ accessWidth addr) : nb ≤ atOnce addr nb := by
  unfold atOnce
  split
  · exact hone (by assumption)
  · exact le_rfl

/-- No access goes behind the end of a page. -/
theorem atOnce_page {addr nb : Nat} (hpage : addr % 0x1000 + nb = 0x1000) : atOnce addr nb ≤ nb := by
  have hnext := (accessWidth_next addr).2
  unfold atOnce
  split <;> omega

/-- One access for each page of registers is enough: the bytes are in the buffer, in their places. -/
theorem Reads.sound {target : TargetMemory} {addr remaining total k : Nat} {writes : List (Write UInt8)}
    (h : Reads target addr remaining total writes k) : addr < 2 ^ 32 → total + k ≤ membufSize → OneAccess addr total k →
    (∀ w ∈ writes, w.stop ≤ membufSize) ∧
      ∀ (m : Memory UInt8), ∀ i < k, m.written writes (total + i) = target.byte (word (addr + i)) := by
  -- the first page alone, with whatever the cells held before
  have hfirst : ∀ {addr total nb : Nat}, addr < 2 ^ 32 → 0 < nb → addr % 0x1000 + nb ≤ 0x1000 → total + nb ≤ membufSize →
      OneAccess addr total nb →
      (∀ w ∈ (pageWrites target addr nb).map (Write.shift total), w.stop ≤ membufSize ∧ w.stop ≤ total + atOnce addr nb) ∧
        ∀ (m : Memory UInt8), ∀ i < nb,
          m.written ((pageWrites target addr nb).map (Write.shift total)) (total + i) = target.byte (word (addr + i)) := by
    intro addr total nb haddr hnb hpage hroom hone
    have hacc := (oneAccess_page haddr hnb hpage).mp hone
    have hle := le_atOnce fun hio => (hacc hio).1
    rw [pageWrites_once target haddr hnb fun hio => (hacc hio).1]
    constructor
    · intro w hw
      obtain rfl := List.mem_singleton.mp hw
      simp only [Write.stop, Write.shift, TargetMemory.bytes_length, Nat.add_zero]
      refine ⟨?_, le_rfl⟩
      split
      · exact (hacc (by assumption)).2
      · exact hroom
    · intro m i hi
      have hin : i < atOnce addr nb := by omega
      show (m.store (total + 0) (target.bytes addr (atOnce addr nb))) (total + i) = _
      rw [m.store_inside (by omega) (by simpa using hin)]
      simp [TargetMemory.bytes]
  induction h with
  | stop => simp
  | @last addr remaining total hread hpos hpage =>
    intro haddr hroom hone
    obtain ⟨hstop, hcell⟩ := hfirst haddr hpos hpage hroom hone
    exact ⟨fun w hw => (hstop w hw).1, hcell⟩
  | @more addr nb rest total k writes _ hnb _ hpage hreads ih =>
    intro haddr hroom hone
    obtain ⟨honehere, honerest⟩ := (oneAccess_more hpage).mp hone
    obtain ⟨hstop, hcell⟩ := hfirst haddr hnb hpage.le (by omega) honehere
    obtain ⟨hstop', hcell'⟩ := ih (Nat.mod_lt _ (by decide)) (by omega) honerest
    constructor
    · intro w hw
      rcases List.mem_append.mp hw with hw | hw
      · exact (hstop w hw).1
      · exact hstop' w hw
    · intro m i hi
      rw [Memory.written_append]
      rcases Nat.lt_or_ge i nb with hlt | hge
      · rw [Memory.written_untouched, hcell m i hlt]
        intro w hw hcov
        have := hreads.behind w hw
        unfold Write.Covers at hcov
        omega
      · obtain ⟨j, rfl⟩ := Nat.exists_eq_add_of_le hge
        rw [← Nat.add_assoc, hcell' _ j (by omega)]
        congr 1
        unfold word
        omega

/-- The writes go as far as the read does. -/
theorem Reads.reaches {target : TargetMemory} {addr remaining total k : Nat} {writes : List (Write UInt8)}
    (h : Reads target addr remaining total writes k) : 0 < k → ∃ w ∈ writes, total + k ≤ w.stop := by
  have hpage : ∀ {addr total nb : Nat}, 0 < nb →
      ∃ w ∈ (pageWrites target addr nb).map (Write.shift total), total + nb ≤ w.stop := by
    intro addr total nb hnb
    obtain ⟨w, hw, hreach⟩ := pageWrites_reaches target addr hnb
    refine ⟨_, List.mem_map_of_mem hw, ?_⟩
    rw [Write.stop_shift]
    omega
  induction h with
  | stop => exact fun hk => absurd hk (Nat.lt_irrefl 0)
  | last => exact hpage
  | @more addr nb rest total k writes _ hnb _ _ _ ih =>
    intro _
    rcases Nat.eq_zero_or_pos k with rfl | hk
    · obtain ⟨w, hw, hreach⟩ := hpage hnb
      exact ⟨w, List.mem_append_left _ hw, hreach⟩
    · obtain ⟨w, hw, hreach⟩ := ih hk
      exact ⟨w, List.mem_append_right _ hw, by omega⟩

/-- One access for each page of registers is also needed, where all cells are written and no others. -/
theorem Reads.needs {target : TargetMemory} {addr remaining total k : Nat} {writes : List (Write UInt8)}
    (h : Reads target addr remaining total writes k) : addr < 2 ^ 32 → (∀ w ∈ writes, w.stop ≤ membufSize) →
    (∀ i < k, ∃ w ∈ writes, w.Covers (total + i)) → OneAccess addr total k := by
  -- the first page: its cells are written by itself, as all that comes later is behind it
  have hfirst : ∀ {addr total nb : Nat} (later : List (Write UInt8)), addr < 2 ^ 32 → 0 < nb → addr % 0x1000 + nb ≤ 0x1000 →
      (∀ w ∈ later, total + nb ≤ w.off) →
      (∀ w ∈ (pageWrites target addr nb).map (Write.shift total), w.stop ≤ membufSize) →
      (∀ i < nb, ∃ w ∈ (pageWrites target addr nb).map (Write.shift total) ++ later, w.Covers (total + i)) →
      (inIo addr = true → nb ≤ accessWidth addr) ∧ OneAccess addr total nb := by
    intro addr total nb later haddr hnb hpage hlater hstop hcov
    have hone : inIo addr = true → nb ≤ accessWidth addr := by
      intro hio
      by_contra hmany
      obtain ⟨w, hw, hcovers⟩ := hcov (accessWidth addr) (by omega)
      rcases List.mem_append.mp hw with hw | hw
      · obtain ⟨w', hw', rfl⟩ := List.mem_map.mp hw
        exact pageWrites_hole target haddr hio (Nat.lt_of_not_le hmany) w' hw' (Write.covers_shift.mp hcovers)
      · have := hlater w hw
        unfold Write.Covers at hcovers
        omega
    refine ⟨hone, (oneAccess_page haddr hnb hpage).mpr fun hio => ⟨hone hio, ?_⟩⟩
    rw [pageWrites_once target haddr hnb hone, if_pos hio] at hstop
    have := hstop _ (List.mem_singleton_self _)
    rw [Write.stop_shift] at this
    simpa [Write.stop] using this
  induction h with
  | stop =>
    intro _ _ _ i hi
    exact absurd hi (Nat.not_lt_zero i)
  | @last addr remaining total hread hpos hpage =>
    intro haddr hstop hcov
    exact (hfirst [] haddr hpos hpage (by simp) hstop (by simpa using hcov)).2
  | @more addr nb rest total k writes _ hnb _ hpage hreads ih =>
    intro haddr hstop hcov
    obtain ⟨hstop, hstop'⟩ := List.forall_mem_append.mp hstop
    obtain ⟨honce, hone⟩ := hfirst writes haddr hnb hpage.le hreads.behind hstop fun i hi => hcov i (by omega)
    refine (oneAccess_more hpage).mpr ⟨hone, ih (Nat.mod_lt _ (by decide)) hstop' fun i hi => ?_⟩
    obtain ⟨w, hw, hcovers⟩ := hcov (nb + i) (by omega)
    rcases List.mem_append.mp hw with hw | hw
    · -- the first page goes no further than its end
      rw [pageWrites_once target haddr hnb honce] at hw
      obtain rfl := List.mem_singleton.mp hw
      have hend := atOnce_page hpage
      unfold atOnce at hend
      simp only [Write.Covers, Write.stop, Write.shift, TargetMemory.bytes_length] at hcovers
      omega
    · exact ⟨w, hw, by rwa [Nat.add_assoc]⟩

/-- Whatever the memory and the buffer hold, the bytes are read to their places exactly if one access is enough for each page of
registers. -/
theorem readTargetMemory_right_iff (target : TargetMemory) {addr len : Nat} (haddr : addr < 2 ^ 32) (hlen : 0 < len)
    (hroom : target.readablePrefix addr len ≤ membufSize) :
    (∀ byte (membuf : Memory UInt8), (∀ w ∈ (readTargetMemory { target with byte := byte } addr len 0).1, w.stop ≤ membufSize) ∧
      ∀ i < target.readablePrefix addr len,
        membuf.written (readTargetMemory { target with byte := byte } addr len 0).1 i = byte (word (addr + i))) ↔
      OneAccess addr 0 (target.readablePrefix addr len) := by
  have hreads : ∀ byte, Reads { target with byte := byte } addr len 0 (readTargetMemory { target with byte := byte } addr len 0).1
      (target.readablePrefix addr len) := by
    intro byte
    obtain ⟨k, -, hreads⟩ := reads_readTargetMemory { target with byte := byte } len hlen addr 0
    rwa [hreads.count_eq haddr] at hreads
  constructor
  · intro h
    -- zeros to be read into a buffer of ones: only cells that are written hold what they should
    obtain ⟨hstop, hcell⟩ := h (fun _ => 0) fun _ => 1
    refine (hreads fun _ => 0).needs haddr hstop fun i hi => ?_
    by_contra hno
    have hvalue := hcell i hi
    rw [Memory.written_untouched fun w hw hcov => hno ⟨w, hw, by rwa [Nat.zero_add]⟩] at hvalue
    cases hvalue
  · intro hone byte membuf
    obtain ⟨hstop, hcell⟩ := (hreads byte).sound haddr (by rwa [Nat.zero_add]) hone
    refine ⟨hstop, fun i hi => ?_⟩
    have hvalue := hcell membuf i hi
    rwa [Nat.zero_add] at hvalue

/-! ## The reply -/

/-- Nothing is written behind the buffers, and a packet has the bytes of the longest prefix that can be read. -/
def Answers (target : TargetMemory) (membuf : Memory UInt8) (addr len : UInt32) : Prop :=
  (∀ w ∈ (sendMemory target membuf addr len).1, w.stop ≤ membufSize) ∧
    match (sendMemory target membuf addr len).2 with
    | .errno _ => True
    | .packet data => data.length ≤ gdbBufLen ∧ (sendPacket data).stop ≤ packetBufSize ∧
        data = encodeHex (target.bytes addr.toNat (target.readablePrefix addr.toNat len.toNat))

/-- What the request does, unless it is refused at once. -/
theorem sendMemory_reads (target : TargetMemory) (membuf : Memory UInt8) (addr : UInt32) {len : UInt32} (hlen : 0 < len.toNat)
    (h : ¬gdbBufLen < (2 * len).toNat) :
    sendMemory target membuf addr len = ((readTargetMemory target addr.toNat len.toNat 0).1,
      if target.readablePrefix addr.toNat len.toNat = 0 then .errno 14
      else .packet (encodeHex ((List.range (target.readablePrefix addr.toNat len.toNat)).map
        (membuf.written (readTargetMemory target addr.toNat len.toNat 0).1)))) := by
  obtain ⟨k, htotal, hreads⟩ := reads_readTargetMemory target len.toNat hlen addr.toNat 0
  have hk := hreads.count_eq addr.toNat_lt
  rw [Nat.zero_add] at htotal
  rw [hk] at htotal
  unfold sendMemory
  rw [if_neg h]
  simp only [htotal]
  split <;> rfl

/-- A request of nothing is answered with an error. -/
theorem answers_nothing (target : TargetMemory) (membuf : Memory UInt8) {addr len : UInt32} (hlen : len.toNat = 0) :
    Answers target membuf addr len := by
  have hzero : len = 0 := UInt32.toNat_inj.mp hlen
  subst hzero
  have hpage : onPage addr.toNat 0 = 0 := Nat.le_zero.mp (onPage_le _ _)
  have hread : (readTargetMemory target addr.toNat 0 0).2 = 0 ∧
      ∀ w ∈ (readTargetMemory target addr.toNat 0 0).1, w.stop ≤ membufSize := by
    rw [readTargetMemory, readTargetMemoryInPage_eq, hpage]
    unfold pageWrites
    rw [ioLoop_done target _ le_rfl]
    split
    · exact ⟨rfl, by simp⟩
    · rename_i heq
      split at heq
      · obtain rfl := Option.some.inj heq
        refine ⟨rfl, ?_⟩
        rw [if_neg (show ¬0 < 0 - 0 by decide)]
        split
        · simp
        · simp [Write.stop, Write.shift]
      · cases heq
  unfold Answers sendMemory
  rw [if_neg (by decide)]
  simp only [UInt32.toNat_zero, hread.1]
  exact ⟨hread.2, trivial⟩

theorem sendPacket_stop (data : List UInt8) : (sendPacket data).stop = data.length + 4 := by
  simp only [Write.stop, sendPacket, List.length_append, List.length_cons, Hex.fixed_length]
  omega

/-- The answer in terms of what is read. -/
theorem answers_of_reads {target : TargetMemory} {membuf : Memory UInt8} {addr len : UInt32} {writes : List (Write UInt8)} {k : Nat}
    (hk : target.readablePrefix addr.toNat len.toNat = k)
    (hsend : sendMemory target membuf addr len =
      (writes, if k = 0 then .errno 14 else .packet (encodeHex ((List.range k).map (membuf.written writes))))) :
    Answers target membuf addr len ↔ (∀ w ∈ writes, w.stop ≤ membufSize) ∧
      (0 < k → k ≤ membufSize ∧ ∀ i < k, membuf.written writes i = target.byte (word (addr.toNat + i))) := by
  unfold Answers
  rw [hsend, hk]
  refine and_congr_right fun _ => ?_
  rcases Nat.eq_zero_or_pos k with rfl | hpos
  · simp
  · simp only [if_neg (Nat.ne_of_gt hpos), hpos, true_imp_iff, sendPacket_stop, encodeHex_length, List.length_map, List.length_range]
    constructor
    · rintro ⟨hroom, _, hdata⟩
      refine ⟨by simp only [gdbBufLen, membufSize] at *; omega, fun i hi => ?_⟩
      have hbyte := congrArg (fun bytes => bytes[i]?) (encodeHex_inj hdata)
      simpa [TargetMemory.bytes, hi] using hbyte
    · rintro ⟨hroom, hcell⟩
      simp only [gdbBufLen, membufSize, packetBufSize] at *
      refine ⟨by omega, by omega, congrArg encodeHex ?_⟩
      exact List.map_congr_left fun i hi => hcell i (List.mem_range.mp hi)

theorem sendMemory_answers_iff (target : TargetMemory) (addr len : UInt32) :
    (∀ byte membuf, Answers { target with byte := byte } membuf addr len) ↔
      gdbBufLen < (2 * len).toNat ∨
        target.readablePrefix addr.toNat len.toNat ≤ membufSize ∧
          OneAccess addr.toNat 0 (target.readablePrefix addr.toNat len.toNat) := by
  rcases Decidable.em (gdbBufLen < (2 * len).toNat) with hrefused | htaken
  · simp only [hrefused, true_or, iff_true]
    intro byte membuf
    unfold Answers sendMemory
    rw [if_pos hrefused]
    exact ⟨by simp, trivial⟩
  simp only [htaken, false_or]
  rcases Nat.eq_zero_or_pos len.toNat with hzero | hlen
  · have hfits : target.readablePrefix addr.toNat len.toNat = 0 := by
      rw [hzero]
      exact Nat.findGreatest_zero
    rw [hfits]
    exact ⟨fun _ => ⟨Nat.zero_le _, fun i hi => absurd hi (Nat.not_lt_zero i)⟩,
      fun _ byte membuf => answers_nothing _ membuf hzero⟩
  have hanswers : ∀ byte membuf, Answers { target with byte := byte } membuf addr len ↔
      (∀ w ∈ (readTargetMemory { target with byte := byte } addr.toNat len.toNat 0).1, w.stop ≤ membufSize) ∧
        (0 < target.readablePrefix addr.toNat len.toNat → target.readablePrefix addr.toNat len.toNat ≤ membufSize ∧
          ∀ i < target.readablePrefix addr.toNat len.toNat,
            membuf.written (readTargetMemory { target with byte := byte } addr.toNat len.toNat 0).1 i =
              byte (word (addr.toNat + i))) :=
    fun byte membuf => answers_of_reads rfl (sendMemory_reads _ membuf addr hlen htaken)
  simp only [hanswers]
  constructor
  · intro h
    have hroom : target.readablePrefix addr.toNat len.toNat ≤ membufSize := by
      rcases Nat.eq_zero_or_pos (target.readablePrefix addr.toNat len.toNat) with hnone | hsome
      · omega
      · exact ((h (fun _ => 0) fun _ => 0).2 hsome).1
    refine ⟨hroom, (readTargetMemory_right_iff target addr.toNat_lt hlen hroom).mp fun byte membuf => ?_⟩
    obtain ⟨hstop, hcell⟩ := h byte membuf
    exact ⟨hstop, fun i hi => (hcell (Nat.zero_lt_of_lt hi)).2 i hi⟩
  · rintro ⟨hroom, hone⟩ byte membuf
    obtain ⟨hstop, hcell⟩ := (readTargetMemory_right_iff target addr.toNat_lt hlen hroom).mpr hone byte membuf
    exact ⟨hstop, fun _ => ⟨hroom, hcell⟩⟩

theorem one_le_seven : 1 ≤ 7 := by decide

/-- A process that has all its pages. -/
def allMapped : TargetMemory := ⟨1, Nat.one_pos, one_le_seven, fun _ => true, false, fun _ => false, fun _ => 0⟩

/-- A length of which the double is zero is not refused. -/
theorem sendMemory_overflow : ¬Answers allMapped (fun _ => 0) 0x100000 0x80000000 := by
  have hpos : 0 < UInt32.toNat 0x80000000 := by decide
  have hsend := sendMemory_reads allMapped (fun _ => 0) 0x100000 hpos (by decide)
  obtain ⟨k, -, hreads⟩ := reads_readTargetMemory allMapped (UInt32.toNat 0x80000000) hpos (UInt32.toNat 0x100000) 0
  rw [hreads.count_eq (by decide)] at hreads
  intro h
  have hlong : 0x1000 ≤ allMapped.readablePrefix (UInt32.toNat 0x100000) (UInt32.toNat 0x80000000) := by
    refine Nat.le_findGreatest (by decide) fun i hi => ?_
    unfold TargetMemory.readable
    rw [if_pos]
    · rfl
    · show word (0x100000 + i) < 2 ^ 31
      unfold word
      omega
  obtain ⟨w, hw, hreach⟩ := hreads.reaches (Nat.lt_of_lt_of_le (by decide) hlong)
  have hstop := ((answers_of_reads rfl hsend).mp h).1 w hw
  have hsize : membufSize = 512 := rfl
  omega

end Omiiba.Rosalina
