/-
The `qSearch:memory` packet of the debugger, after mem.c: the target's memory is read into a buffer of two pages, from each page
of the range on, and `memsearch` looks for the pattern there.
-/
import Omiiba.Lib.Scan
import Omiiba.Loader.PatchMemory
import Omiiba.Rosalina.GdbThread
import Omiiba.Rosalina.GdbWriteRaw

namespace Omiiba.Rosalina

/-! ## The code -/

/-- The kernel also says where an address is. -/
structure SearchTarget extends TargetMemory where
  /-- `svcConvertVAToPA`, which is 0 where there is nothing -/
  convertVAToPA : Nat → Nat
  physical_iff : ∀ addr, physical (addr / 0x1000) = true ↔ convertVAToPA addr ≠ 0

/-- `ctx->commandData` of the query, up to `ctx->commandEnd`, where there is a NUL. -/
structure SearchQuery where
  commandData : List UInt8
  fits : commandData.length ≤ gdbBufLen

/-- The address, the length and the text of the pattern. -/
def SearchQuery.request (query : SearchQuery) : Option (UInt32 × UInt32 × List UInt8) :=
  if query.commandData.take 7 = ascii "memory:" then
    let numbers := (query.commandData.drop 7).takeWhile (· ≠ 0)
    match parseIntegerList (2 ^ 32) 0x3B 0x3B 16 false 2 numbers with
    | none => none
    | some (lst, pos) =>
      if numbers.getD pos 0 = 0x3B then
        some (UInt32.ofNat (lst.getD 0 0), UInt32.ofNat (lst.getD 1 0), query.commandData.drop (7 + pos + 1))
      else none
  else none

/-- The size of `buf`. -/
def searchBufSize : Nat := 0x1000 + 0x1000 * ((gdbBufLen + 0xFFF) / 0x1000)

def maxNbPages : Nat := 1 + (gdbBufLen + 0xFFF) / 0x1000

namespace SearchTarget

variable (target : SearchTarget)

/-- The loop over `nbPages` does not read: it looks at where `addr` is, and not the page. -/
def barred (addr : Nat) : Bool :=
  target.userLimit ≤ addr ∧
    (target.convertVAToPA addr = 0 ∨ 0x10000000 ≤ target.convertVAToPA addr ∧ target.convertVAToPA addr ≤ 0x18000000)

/-- The loop over `nbPages`, with so many turns left: what it writes to `buf`, and how many pages there are in the end. -/
def readPages (addr addrBase : Nat) : Nat → Nat → List (Write UInt8) × Nat
  | 0, nbPages => ([], nbPages)
  | left + 1, nbPages =>
    if target.barred addr then ([], nbPages)
    else
      match readTargetMemoryInPage target.toTargetMemory (word (addrBase + nbPages * 0x1000)) 0x1000 with
      | none => ([], nbPages)
      | some writes =>
        let (more, all) := readPages addr addrBase left (nbPages + 1)
        (writes.map (Write.shift (0x1000 * nbPages)) ++ more, all)

section

variable (addr : Nat) (pattern : List UInt8) (patternLen turns : Nat)

/-- One turn of the loop: what is in `buf` then, and the address at which the pattern is there. It is not defined, if a write is
behind `buf`, or the pattern is empty, of which `memsearch` would read `2 ^ 32 - 1` bytes. -/
def searchBlock (curAddr : Nat) (buf : Memory UInt8) : Option (Memory UInt8 × Option Nat) :=
  let addrBase := curAddr / 0x1000 * 0x1000
  let addrDispl := curAddr % 0x1000
  let (writes, nbPages) := target.readPages addr addrBase maxNbPages 0
  if ∃ w ∈ writes, searchBufSize < w.stop then none
  else
    let buf := buf.written writes
    if addrDispl + patternLen ≤ 0x1000 * nbPages then
      if patternLen = 0 then none
      else
        match Loader.Patcher.memsearch (fun x => buf x.toNat) (UInt32.ofNat addrDispl) (fun k => pattern.getD k.toNat 0)
            (UInt32.ofNat (0x1000 * nbPages - addrDispl)) (UInt32.ofNat patternLen) turns with
        | none => none
        | some (pos, _) => some (buf, pos.map fun pos => word (addrBase + pos.toNat))
    else some (buf, none)

/-- The loop over `curAddr`, for so many turns: where the pattern is found, if it is. -/
def searchLoop (stop : Nat) : Nat → Nat → Memory UInt8 → Option (Option Nat)
  | 0, _, _ => none
  | blocks + 1, curAddr, buf =>
    if curAddr < stop then
      match target.searchBlock addr pattern patternLen turns curAddr buf with
      | none => none
      | some (_, some found) => some (some found)
      | some (buf, none) => searchLoop stop blocks (word (curAddr / 0x1000 * 0x1000 + 0x1000)) buf
    else some none

end

/-- `GDB_SearchMemory`, with what is on the stack where `buf` is. -/
def searchMemory (addr len : UInt32) (pattern : List UInt8) (patternLen : Nat) (stack : Memory UInt8) (turns : Nat) :
    Option (Option Nat) :=
  target.searchLoop addr.toNat pattern patternLen turns (addr + len).toNat turns addr.toNat stack

end SearchTarget

inductive SearchReply
  | errno (no : Nat)
  | packet (data : List UInt8)

/-- `GDB_HandleQuerySearchMemory`. The pattern is decoded, but its text is what is searched. -/
def handleQuerySearchMemory (query : SearchQuery) (target : SearchTarget) (stack : Memory UInt8) (turns : Nat) :
    Option SearchReply :=
  match query.request with
  | none => some (.errno 138)
  | some (addr, len, patternStart) =>
    let pattern := unescapeBinaryData 0 patternStart
    match target.searchMemory addr len patternStart pattern.length stack turns with
    | none => none
    | some (some foundAddr) => some (.packet (ascii "1," ++ hexText foundAddr))
    | some none => some (.packet (ascii "0"))

/-! ## What should be found -/

namespace TargetMemory

/-- The bytes are at the place and can be read there. -/
def Holds (target : TargetMemory) (bytes : List UInt8) (q : Nat) : Prop :=
  ∀ k (h : k < bytes.length), target.readable (word (q + k)) = true ∧ target.byte (word (q + k)) = bytes[k]

/-- The places of the pattern in the range. -/
def places (target : TargetMemory) (addr len : UInt32) (pattern : List UInt8) : Set Nat :=
  {q | addr.toNat ≤ q ∧ q + pattern.length ≤ addr.toNat + len.toNat ∧ q + pattern.length ≤ 2 ^ 32 ∧ target.Holds pattern q}

/-- The reply names the first place, or says that there is none. -/
def SearchAnswered (target : TargetMemory) (addr len : UInt32) (pattern : List UInt8) (reply : SearchReply) : Prop :=
  (∃ a, reply = .packet (ascii "1," ++ hexText a) ∧ IsLeast (target.places addr len pattern) a) ∨
    (reply = .packet (ascii "0") ∧ target.places addr len pattern = ∅)

end TargetMemory

/-! ## What is searched -/

namespace SearchTarget

variable (target : SearchTarget)

/-- The search from `addr` on can read the byte. -/
def searched (addr a : Nat) : Bool := !target.barred addr && target.readable a

/-- The bytes from the page of `cur` up to `stop` are read for a block. -/
def Loaded (addr cur stop : Nat) : Prop :=
  stop ≤ cur / 0x1000 * 0x1000 + searchBufSize ∧
    ∀ a, cur / 0x1000 * 0x1000 ≤ a → a < stop → target.searched addr (word a) = true

/-- The text is at the place, in the block from `cur` on. -/
def InBlock (addr : Nat) (text : List UInt8) (cur q : Nat) : Prop :=
  cur ≤ q ∧ target.Loaded addr cur (q + text.length) ∧ ∀ k (h : k < text.length), target.byte (word (q + k)) = text[k]

/-- The block has registers in it, the reading of which does not stop at the end of `buf`. -/
def HasRegisters (addr cur : Nat) : Prop :=
  ∃ a, cur / 0x1000 * 0x1000 ≤ a ∧ target.Loaded addr cur (a + 1) ∧ inIo (word a) = true

/-- Where the blocks begin. -/
def blockStart (addr i : Nat) : Nat := if i = 0 then addr else (addr / 0x1000 + i) * 0x1000

/-- The requests that are answered as they should be. If the pattern is in the range, the search has to find it: its text is the
pattern, it is not barred by where it begins, the range ends below `2 ^ 32`, and no block up to the one with the pattern has
registers. If it is not, the range does not end below `2 ^ 32`, or it is empty or its end is not in the last page, and no block
of it has registers or the text. -/
def SearchRight (addr len : UInt32) (text pattern : List UInt8) : Prop :=
  pattern ≠ [] ∧
    ((target.places addr len pattern).Nonempty →
      text.take pattern.length = pattern ∧ target.barred addr.toNat = false ∧ addr.toNat + len.toNat < 2 ^ 32 ∧
        ∀ i, blockStart addr.toNat i < addr.toNat + len.toNat →
          (∀ j < i, ∀ q, ¬target.InBlock addr.toNat pattern (blockStart addr.toNat j) q) →
            ¬target.HasRegisters addr.toNat (blockStart addr.toNat i)) ∧
    (target.places addr len pattern = ∅ →
      2 ^ 32 ≤ addr.toNat + len.toNat ∨
        (len.toNat = 0 ∨ addr.toNat + len.toNat ≤ 0xFFFFF000) ∧
          ∀ i, blockStart addr.toNat i < addr.toNat + len.toNat →
            ¬target.HasRegisters addr.toNat (blockStart addr.toNat i) ∧
              ∀ q, ¬target.InBlock addr.toNat (text.take pattern.length) (blockStart addr.toNat i) q)

end SearchTarget

/-! ## The pages of a block -/

namespace SearchTarget

variable {target : SearchTarget} {addr : Nat}

theorem searched_page {a a' : Nat} (h : a / 0x1000 = a' / 0x1000) : target.searched addr a = target.searched addr a' := by
  unfold searched
  rw [target.readable_page h]

theorem readPages_searched {addrBase nbPages : Nat} (left : Nat)
    (h : target.searched addr (word (addrBase + nbPages * 0x1000)) = true) :
    target.readPages addr addrBase (left + 1) nbPages =
      ((pageWrites target.toTargetMemory (word (addrBase + nbPages * 0x1000)) 0x1000).map (Write.shift (0x1000 * nbPages)) ++
        (target.readPages addr addrBase left (nbPages + 1)).1, (target.readPages addr addrBase left (nbPages + 1)).2) := by
  unfold searched at h
  rw [Bool.and_eq_true, Bool.not_eq_true'] at h
  rw [readPages, if_neg (by rw [h.1]; decide), readTargetMemoryInPage_eq, if_pos h.2]

theorem readPages_unsearched {addrBase nbPages : Nat} (left : Nat)
    (h : target.searched addr (word (addrBase + nbPages * 0x1000)) = false) :
    target.readPages addr addrBase (left + 1) nbPages = ([], nbPages) := by
  unfold searched at h
  rw [readPages]
  split
  · rfl
  · rename_i hbarred
    rw [Bool.not_eq_true] at hbarred
    rw [hbarred, Bool.not_false, Bool.true_and] at h
    rw [readTargetMemoryInPage_eq, if_neg (by rw [h]; decide)]

variable (target addr) in
/-- The pages are read up to the first one that cannot be. -/
theorem le_readPages_iff (addrBase : Nat) : ∀ left nbPages n, nbPages ≤ n → n ≤ nbPages + left →
    (n ≤ (target.readPages addr addrBase left nbPages).2 ↔
      ∀ i, nbPages ≤ i → i < n → target.searched addr (word (addrBase + i * 0x1000)) = true) := by
  intro left
  induction left with
  | zero =>
    intro nbPages n hle hmax
    rw [readPages]
    exact ⟨fun _ i hi hin => by omega, fun _ => by omega⟩
  | succ left ih =>
    intro nbPages n hle hmax
    cases hpage : target.searched addr (word (addrBase + nbPages * 0x1000)) with
    | false =>
      rw [readPages_unsearched left hpage]
      constructor
      · exact fun hn i hi hin => absurd (hin.trans_le hn) (Nat.not_lt.mpr hi)
      · intro hall
        by_contra hlt
        have hfirst := hall nbPages le_rfl (by omega)
        rw [hpage] at hfirst
        cases hfirst
    | true =>
      rw [readPages_searched left hpage]
      rcases hle.eq_or_lt with rfl | hlt
      · -- the first of the pages counts in any case
        have hself := (ih (nbPages + 1) (nbPages + 1) le_rfl (by omega)).mpr fun i hi hin => absurd hin (Nat.not_lt.mpr hi)
        exact ⟨fun _ i hi hin => absurd hin (Nat.not_lt.mpr hi), fun _ => (Nat.le_succ _).trans hself⟩
      · rw [ih (nbPages + 1) n hlt (by omega)]
        refine ⟨fun hall i hi hin => ?_, fun hall i hi hin => hall i (by omega) hin⟩
        rcases hi.eq_or_lt with rfl | hi
        · exact hpage
        · exact hall i hi hin

variable (target addr) in
theorem readPages_le (addrBase left nbPages : Nat) : nbPages ≤ (target.readPages addr addrBase left nbPages).2 ∧
    (target.readPages addr addrBase left nbPages).2 ≤ nbPages + left := by
  induction left generalizing nbPages with
  | zero => exact ⟨le_rfl, le_rfl⟩
  | succ left ih =>
    cases hpage : target.searched addr (word (addrBase + nbPages * 0x1000)) with
    | false =>
      rw [readPages_unsearched left hpage]
      exact ⟨le_rfl, Nat.le_add_right ..⟩
    | true =>
      rw [readPages_searched left hpage]
      have hrest := ih (nbPages + 1)
      omega

theorem store_bytes (target : TargetMemory) (buf : Memory UInt8) {a b n x : Nat} (hle : a ≤ x) (hlt : x - a < n) :
    buf.store a (target.bytes b n) x = target.byte (word (b + (x - a))) := by
  rw [Memory.store_inside _ hle (by rwa [TargetMemory.bytes_length])]
  simp only [TargetMemory.bytes, List.getElem_map, List.getElem_range]

/-- Without registers, `buf` has the bytes of the pages. -/
theorem readPages_bytes {addrBase : Nat} (left : Nat) : ∀ nbPages (buf : Memory UInt8),
    (∀ i, i < (target.readPages addr addrBase left nbPages).2 → inIo (word (addrBase + i * 0x1000)) = false) →
    (∀ x < 0x1000 * nbPages, buf x = target.byte (word (addrBase + x))) →
    (∀ w ∈ (target.readPages addr addrBase left nbPages).1, w.stop ≤ 0x1000 * (nbPages + left)) ∧
    ∀ x < 0x1000 * (target.readPages addr addrBase left nbPages).2,
      buf.written (target.readPages addr addrBase left nbPages).1 x = target.byte (word (addrBase + x)) := by
  induction left with
  | zero =>
    intro nbPages buf _ hbuf
    exact ⟨fun w hw => absurd hw List.not_mem_nil, hbuf⟩
  | succ left ih =>
    intro nbPages buf hio hbuf
    cases hpage : target.searched addr (word (addrBase + nbPages * 0x1000)) with
    | false =>
      rw [readPages_unsearched left hpage]
      exact ⟨fun w hw => absurd hw List.not_mem_nil, hbuf⟩
    | true =>
      have hmore := (readPages_le target addr addrBase left (nbPages + 1)).1
      rw [readPages_searched left hpage] at hio ⊢
      have hwrites : pageWrites target.toTargetMemory (word (addrBase + nbPages * 0x1000)) 0x1000 =
          [⟨0, target.bytes (word (addrBase + nbPages * 0x1000)) 0x1000⟩] := by
        unfold pageWrites
        rw [if_neg (by rw [hio nbPages (by omega)]; decide)]
      simp only [hwrites, List.map_cons, List.map_nil, List.cons_append, List.nil_append]
      obtain ⟨hfits, hbytes⟩ := ih (nbPages + 1)
        (buf.store (0x1000 * nbPages) (target.bytes (word (addrBase + nbPages * 0x1000)) 0x1000)) hio fun x hx => by
          -- the pages before are not written again
          rcases Nat.lt_or_ge x (0x1000 * nbPages) with hlow | hhigh
          · rw [Memory.store_outside _ (.inl hlow)]
            exact hbuf x hlow
          · have hplace : addrBase + (nbPages * 0x1000 + (x - 0x1000 * nbPages)) = addrBase + x := by omega
            have hlt : x - 0x1000 * nbPages < 0x1000 := by omega
            rw [store_bytes target.toTargetMemory buf hhigh hlt, word_word_add, hplace]
      refine ⟨List.forall_mem_cons.mpr ⟨?_, fun w hw => ?_⟩, fun x hx => ?_⟩
      · rw [Write.stop_shift]
        simp only [Write.stop, TargetMemory.bytes_length]
        omega
      · have hw' := hfits w hw
        omega
      · simp only [Memory.written_cons, Write.shift_off, Write.shift_bytes, Nat.add_zero]
        exact hbytes x hx

theorem maxNbPages_eq : maxNbPages = 2 := by decide

theorem searchBufSize_eq : searchBufSize = 0x2000 := by decide

/-- Of a page of registers the last one comes to lie behind `buf`. -/
theorem ioLoop_overflow (target : TargetMemory) {addr : Nat} (hpage : addr % 0x1000 = 0) : ∀ n off, 0x1000 - off ≤ n →
    off < 0x1000 → off % 4 = 0 → ∃ w ∈ ioLoop target addr 0x1000 off, searchBufSize < w.stop := by
  intro n
  induction n with
  | zero =>
    intro off hn hlt
    exact absurd hn (by omega)
  | succ n ih =>
    intro off hn hlt hoff
    have hwidth : accessWidth (word (addr + off)) = 4 := by
      unfold accessWidth word
      rw [if_neg (by omega), if_neg (by omega)]
    rw [ioLoop_access target addr hlt, hwidth]
    -- offsets are scaled by the four bytes of an access
    rcases Nat.lt_or_ge (off + 4) 0x1000 with hmore | hlast
    · obtain ⟨w, hw, hstop⟩ := ih (off + 4) (by omega) hmore (by omega)
      exact ⟨w, List.mem_cons_of_mem _ hw, hstop⟩
    · refine ⟨⟨4 * off, target.bytes (addr + off) 4⟩, List.mem_cons_self, ?_⟩
      rw [searchBufSize_eq, Write.stop, TargetMemory.bytes_length]
      show 0x2000 < 4 * off + 4
      omega

theorem readPages_overflow {addrBase : Nat} (hbase : addrBase % 0x1000 = 0) (left : Nat) : ∀ nbPages i, nbPages ≤ i →
    i < (target.readPages addr addrBase left nbPages).2 → inIo (word (addrBase + i * 0x1000)) = true →
      ∃ w ∈ (target.readPages addr addrBase left nbPages).1, searchBufSize < w.stop := by
  induction left with
  | zero =>
    intro nbPages i hle hlt
    exact absurd hlt (Nat.not_lt.mpr hle)
  | succ left ih =>
    intro nbPages i hle hlt hio
    cases hpage : target.searched addr (word (addrBase + nbPages * 0x1000)) with
    | false =>
      rw [readPages_unsearched left hpage] at hlt
      exact absurd hlt (Nat.not_lt.mpr hle)
    | true =>
      rw [readPages_searched left hpage] at hlt ⊢
      rcases hle.eq_or_lt with rfl | hnext
      · obtain ⟨w, hw, hstop⟩ := ioLoop_overflow target.toTargetMemory
          (show word (addrBase + nbPages * 0x1000) % 0x1000 = 0 by unfold word; omega) 0x1000 0 (by omega) (by omega) rfl
        refine ⟨w.shift (0x1000 * nbPages), List.mem_append_left _ (List.mem_map_of_mem ?_), ?_⟩
        · unfold pageWrites
          rwa [if_pos hio]
        · rw [Write.stop_shift]
          omega
      · obtain ⟨w, hw, hstop⟩ := ih (nbPages + 1) i hnext hlt hio
        exact ⟨w, List.mem_append_right _ hw, hstop⟩

/-- What is loaded are the pages that the loop reads. -/
theorem loaded_iff {cur stop : Nat} (hlow : cur / 0x1000 * 0x1000 < stop) : target.Loaded addr cur stop ↔
    stop ≤ cur / 0x1000 * 0x1000 + 0x1000 * (target.readPages addr (cur / 0x1000 * 0x1000) maxNbPages 0).2 := by
  have hbase : cur / 0x1000 * 0x1000 % 0x1000 = 0 := Nat.mul_mod_left ..
  have hcount := (readPages_le target addr (cur / 0x1000 * 0x1000) maxNbPages 0).2
  have hpages := le_readPages_iff target addr (cur / 0x1000 * 0x1000) maxNbPages 0
  unfold Loaded
  rw [searchBufSize_eq]
  rw [maxNbPages_eq] at *
  generalize (target.readPages addr (cur / 0x1000 * 0x1000) 2 0).2 = count at *
  generalize cur / 0x1000 * 0x1000 = addrBase at *
  constructor
  · rintro ⟨hmax, hall⟩
    have hn := (hpages ((stop - addrBase + 0xFFF) / 0x1000) (Nat.zero_le _) (by omega)).mpr fun i _ hi =>
      hall (addrBase + i * 0x1000) (Nat.le_add_right ..) (by omega)
    omega
  · intro hstop
    refine ⟨by omega, fun a ha hlt => ?_⟩
    have hn := (hpages count (Nat.zero_le _) hcount).mp le_rfl ((a - addrBase) / 0x1000) (Nat.zero_le _) (by omega)
    rw [← hn]
    apply searched_page
    unfold word
    omega

/-- The registers of a block are those of its pages. -/
theorem hasRegisters_iff {cur : Nat} : target.HasRegisters addr cur ↔
    ∃ i < (target.readPages addr (cur / 0x1000 * 0x1000) maxNbPages 0).2,
      inIo (word (cur / 0x1000 * 0x1000 + i * 0x1000)) = true := by
  constructor
  · rintro ⟨a, hlow, hloaded, hio⟩
    rw [loaded_iff (by omega)] at hloaded
    refine ⟨(a - cur / 0x1000 * 0x1000) / 0x1000, by omega, ?_⟩
    rw [← hio]
    apply inIo_page
    unfold word
    omega
  · rintro ⟨i, hi, hio⟩
    refine ⟨cur / 0x1000 * 0x1000 + i * 0x1000, Nat.le_add_right .., ?_, hio⟩
    rw [loaded_iff (by omega)]
    omega

/-! ## One turn of the loop -/

variable (target addr) in
/-- What the loop finds in the block from `cur` on. -/
def Finds (text : List UInt8) (cur : Nat) : Option Nat → Prop
  | none => ∀ q, ¬target.InBlock addr text cur q
  | some found => ∃ q, found = word q ∧ IsLeast {q | target.InBlock addr text cur q} q

variable (target addr) in
/-- How many bytes of `buf` are searched. -/
def blockSize (cur : Nat) : Nat :=
  0x1000 * (target.readPages addr (cur / 0x1000 * 0x1000) maxNbPages 0).2 - cur % 0x1000

theorem inBlock_iff {text : List UInt8} (hpos : 0 < text.length) (cur k : Nat) : target.InBlock addr text cur (cur + k) ↔
    k + text.length ≤ target.blockSize addr cur ∧
      Occurs (fun k => target.byte (word (cur + k))) (fun k => text.getD k 0) text.length k := by
  have hbytes : (∀ j (h : j < text.length), target.byte (word (cur + k + j)) = text[j]) ↔
      Occurs (fun k => target.byte (word (cur + k))) (fun k => text.getD k 0) text.length k :=
    forall_congr' fun j => forall_congr' fun hj => by
      simp only [List.getD_eq_getElem?_getD, List.getElem?_eq_getElem hj, Option.getD_some, Nat.add_assoc]
  unfold InBlock
  rw [loaded_iff (by omega), hbytes, ← and_assoc]
  refine and_congr_left fun _ => ?_
  unfold blockSize
  omega

/-- What a search of the bytes of a block finds is what is in the block. -/
theorem finds_of_isFirst {text : List UInt8} (hpos : 0 < text.length) {cur : Nat} {p : Option Nat}
    (h : IsFirst (fun k => target.byte (word (cur + k))) (fun k => text.getD k 0) text.length (target.blockSize addr cur) p) :
    target.Finds addr text cur (p.map fun k => word (cur + k)) := by
  cases p with
  | none =>
    intro q hq
    obtain ⟨k, rfl⟩ := Nat.exists_eq_add_of_le hq.1
    obtain ⟨hle, hoccurs⟩ := (inBlock_iff hpos cur k).mp hq
    exact h k hle hoccurs
  | some k =>
    refine ⟨cur + k, rfl, (inBlock_iff hpos cur k).mpr h.1, fun q hq => ?_⟩
    obtain ⟨j, rfl⟩ := Nat.exists_eq_add_of_le hq.1
    exact Nat.add_le_add_left (h.2 ((inBlock_iff hpos cur j).mp hq)) cur

theorem Finds.unique {text : List UInt8} {cur : Nat} {r r' : Option Nat} (h : target.Finds addr text cur r)
    (h' : target.Finds addr text cur r') : r = r' := by
  rcases r with _ | found <;> rcases r' with _ | found'
  · rfl
  · obtain ⟨q, -, hq⟩ := h'
    exact absurd hq.1 (h q)
  · obtain ⟨q, -, hq⟩ := h
    exact absurd hq.1 (h' q)
  · obtain ⟨q, rfl, hq⟩ := h
    obtain ⟨q', rfl, hq'⟩ := h'
    rw [hq.unique hq']

/-- `memsearch` in a buffer. -/
theorem memsearch_buffer (buf : Memory UInt8) (pattern : List UInt8) {displ size n : Nat} (hend : displ + size < 2 ^ 32)
    (hpos : 0 < n) (hroom : n ≤ size) (turns : Nat) :
    match Loader.Patcher.memsearch (fun x => buf x.toNat) (UInt32.ofNat displ) (fun k => pattern.getD k.toNat 0)
        (UInt32.ofNat size) (UInt32.ofNat n) turns with
    | none => turns ≤ size
    | some (pos, _) => ∃ p, IsFirst (fun k => buf (displ + k)) (fun k => (pattern.take n).getD k 0) n size p ∧
        pos.map UInt32.toNat = p.map (displ + ·) := by
  have hnum {m : Nat} (h : m < 2 ^ 32) : (UInt32.ofNat m).toNat = m := by
    rw [UInt32.toNat_ofNat', Nat.mod_eq_of_lt h]
  have hsize := hnum (show size < 2 ^ 32 by omega)
  have hlen := hnum (show n < 2 ^ 32 by omega)
  have hpos' : 0 < (UInt32.ofNat n).toNat := by rwa [hlen]
  have hroom' : (UInt32.ofNat n).toNat ≤ (UInt32.ofNat size).toNat := by rwa [hlen, hsize]
  have hspec := Loader.Patcher.memsearch_spec (fun x => buf x.toNat) (UInt32.ofNat displ) (fun k => pattern.getD k.toNat 0)
    hpos' hroom' turns
  rcases hfound : Loader.Patcher.memsearch (fun x => buf x.toNat) (UInt32.ofNat displ) (fun k => pattern.getD k.toNat 0)
      (UInt32.ofNat size) (UInt32.ofNat n) turns with _ | ⟨found, reads⟩
  · rw [hfound, hsize] at hspec
    exact hspec
  · rw [hfound] at hspec
    obtain ⟨⟨p, hfirst, rfl⟩, -⟩ := hspec
    rw [hlen, hsize] at hfirst
    have hplace {k : Nat} (hk : k ≤ size) : (UInt32.ofNat displ + UInt32.ofNat k).toNat = displ + k := by
      rw [← UInt32.ofNat_add, hnum (by omega)]
    refine ⟨p, (hfirst.congr_hay fun k hk => ?_).congr fun k hk => ?_, ?_⟩
    · show buf (displ + k) = buf (UInt32.ofNat displ + UInt32.ofNat k).toNat
      rw [hplace hk.le]
    · show (pattern.take n).getD k 0 = pattern.getD (0 + UInt32.ofNat k).toNat 0
      rw [UInt32.zero_add, hnum (by omega)]
      simp [hk]
    · cases p with
      | none => rfl
      | some k =>
        have hk := hfirst.1.1
        simp only [Option.map_some]
        rw [hplace (by omega)]

variable (target addr) in
/-- Without registers a turn finds what is in the block, unless `memsearch` has too few turns. -/
theorem searchBlock_spec {pattern : List UInt8} {patternLen : Nat} (hpos : 0 < patternLen) (hle : patternLen ≤ pattern.length)
    (turns cur : Nat) (buf : Memory UInt8) :
    match target.searchBlock addr pattern patternLen turns cur buf with
    | none => target.HasRegisters addr cur ∨ turns ≤ searchBufSize
    | some (_, r) => ¬target.HasRegisters addr cur ∧ target.Finds addr (pattern.take patternLen) cur r := by
  have htext : (pattern.take patternLen).length = patternLen := List.length_take_of_le hle
  have hcount : (target.readPages addr (cur / 0x1000 * 0x1000) maxNbPages 0).2 ≤ 2 :=
    (readPages_le target addr (cur / 0x1000 * 0x1000) maxNbPages 0).2
  have hsize : target.blockSize addr cur ≤ searchBufSize := by
    unfold blockSize
    rw [searchBufSize_eq]
    omega
  unfold searchBlock
  by_cases hreg : target.HasRegisters addr cur
  · obtain ⟨i, hi, hio⟩ := hasRegisters_iff.mp hreg
    simp only [if_pos (readPages_overflow (Nat.mul_mod_left ..) maxNbPages 0 i (Nat.zero_le i) hi hio)]
    exact .inl hreg
  · -- otherwise `buf` has the bytes of the block
    have hnone : ∀ i < (target.readPages addr (cur / 0x1000 * 0x1000) maxNbPages 0).2,
        inIo (word (cur / 0x1000 * 0x1000 + i * 0x1000)) = false := fun i hi => by
      rw [← Bool.not_eq_true]
      exact fun hio => hreg (hasRegisters_iff.mpr ⟨i, hi, hio⟩)
    obtain ⟨hstop, hbytes⟩ := readPages_bytes maxNbPages 0 buf hnone fun x hx => absurd hx (Nat.not_lt_zero x)
    have hinside : ¬∃ w ∈ (target.readPages addr (cur / 0x1000 * 0x1000) maxNbPages 0).1, searchBufSize < w.stop := by
      rintro ⟨w, hw, hlt⟩
      have hw' := hstop w hw
      rw [searchBufSize_eq] at hlt
      rw [maxNbPages_eq] at hw'
      omega
    simp only [if_neg hinside]
    by_cases hroom : cur % 0x1000 + patternLen ≤ 0x1000 * (target.readPages addr (cur / 0x1000 * 0x1000) maxNbPages 0).2
    · have hsearch := memsearch_buffer (buf.written (target.readPages addr (cur / 0x1000 * 0x1000) maxNbPages 0).1) pattern
        (show cur % 0x1000 + target.blockSize addr cur < 2 ^ 32 by unfold blockSize; omega) hpos
        (show patternLen ≤ target.blockSize addr cur by unfold blockSize; omega) turns
      have hblock : target.blockSize addr cur =
          0x1000 * (target.readPages addr (cur / 0x1000 * 0x1000) maxNbPages 0).2 - cur % 0x1000 := rfl
      simp only [if_pos hroom, if_neg (Nat.pos_iff_ne_zero.mp hpos), ← hblock]
      generalize Loader.Patcher.memsearch _ _ _ _ _ turns = result at hsearch ⊢
      rcases result with _ | ⟨pos, reads⟩
      · exact .inr (hsearch.trans hsize)
      · -- an offset of `buf` is one from the base of the page
        obtain ⟨p, hfirst, hpos'⟩ := hsearch
        have hplace : pos.map (fun pos => word (cur / 0x1000 * 0x1000 + pos.toNat)) = p.map fun k => word (cur + k) := by
          rw [← Function.comp_def (fun n => word (cur / 0x1000 * 0x1000 + n)) UInt32.toNat, ← Option.map_map, hpos',
            Option.map_map]
          refine Option.map_congr fun k _ => ?_
          show word (cur / 0x1000 * 0x1000 + (cur % 0x1000 + k)) = word (cur + k)
          rw [← Nat.add_assoc, Nat.div_add_mod']
        refine ⟨hreg, ?_⟩
        simp only [hplace]
        apply finds_of_isFirst (htext.symm ▸ hpos)
        rw [htext]
        refine hfirst.congr_hay fun k hk => ?_
        rw [hbytes _ (by omega), ← Nat.add_assoc, Nat.div_add_mod']
    · -- the pattern is longer than what has been read
      rw [if_neg hroom]
      refine ⟨hreg, finds_of_isFirst (htext.symm ▸ hpos) (p := none) fun k hk _ => ?_⟩
      rw [htext] at hk
      unfold blockSize at hk
      omega

/-! ## The loop -/

variable (target addr) in
/-- The search of the text in one block after the other. -/
def scan (text : List UInt8) (stop : Nat) : Scan Nat Nat where
  done cur := stop ≤ cur
  looks cur r := ¬target.HasRegisters addr cur ∧ target.Finds addr text cur r
  next cur := word (cur / 0x1000 * 0x1000 + 0x1000)

section

variable {pattern : List UInt8} {patternLen : Nat}

/-- A turn that comes to an end looks at the block. -/
theorem searchLoop_turn (hpos : 0 < patternLen) (hle : patternLen ≤ pattern.length) {stop turns blocks cur : Nat}
    {buf : Memory UInt8} {r : Option Nat}
    (h : target.searchLoop addr pattern patternLen turns stop (blocks + 1) cur buf = some r) :
    (target.scan addr (pattern.take patternLen) stop).Stops cur r ∨
      (target.scan addr (pattern.take patternLen) stop).Passes cur ∧ ∃ buf',
        target.searchLoop addr pattern patternLen turns stop blocks (word (cur / 0x1000 * 0x1000 + 0x1000)) buf' = some r := by
  have hspec := searchBlock_spec target addr hpos hle turns cur buf
  unfold searchLoop at h
  split at h
  · rename_i hgo
    split at h
    · cases h
    · rename_i buf' found hblock
      rw [hblock] at hspec
      cases h
      exact .inl (.found (Nat.not_le.mpr hgo) hspec)
    · rename_i buf' hblock
      rw [hblock] at hspec
      exact .inr ⟨⟨Nat.not_le.mpr hgo, hspec⟩, buf', h⟩
  · rename_i hthrough
    cases h
    exact .inl (.through (Nat.not_lt.mp hthrough))

theorem searchBlock_of_finds (hpos : 0 < patternLen) (hle : patternLen ≤ pattern.length) {turns cur : Nat}
    (hturns : searchBufSize < turns) (hreg : ¬target.HasRegisters addr cur) {r : Option Nat}
    (h : target.Finds addr (pattern.take patternLen) cur r) (buf : Memory UInt8) :
    ∃ buf', target.searchBlock addr pattern patternLen turns cur buf = some (buf', r) := by
  have hspec := searchBlock_spec target addr hpos hle turns cur buf
  rcases hblock : target.searchBlock addr pattern patternLen turns cur buf with _ | ⟨buf', r'⟩
  · rw [hblock] at hspec
    rcases hspec with hreg' | hfew
    · exact absurd hreg' hreg
    · omega
  · rw [hblock] at hspec
    rw [h.unique hspec.2]
    exact ⟨buf', rfl⟩

/-- With enough turns the search of the code is the one of the blocks. -/
theorem searchLoop_iff (hpos : 0 < patternLen) (hle : patternLen ≤ pattern.length) (stop cur : Nat) (buf : Memory UInt8)
    (r : Option Nat) : (∃ turns, target.searchLoop addr pattern patternLen turns stop turns cur buf = some r) ↔
      (target.scan addr (pattern.take patternLen) stop).Ends cur r := by
  constructor
  · rintro ⟨turns, h⟩
    exact Scan.ends_of_run (f := target.searchLoop addr pattern patternLen turns stop) (fun _ _ => rfl)
      (fun _ _ _ _ hrun => searchLoop_turn hpos hle hrun) turns cur buf h
  · intro h
    -- the buffer, and how many turns `memsearch` has
    let f (n cur : Nat) (b : Memory UInt8 × { turns // searchBufSize < turns }) : Option (Option Nat) :=
      target.searchLoop addr pattern patternLen b.2 stop n cur b.1
    have hstops (n s : Nat) (b : Memory UInt8 × { turns // searchBufSize < turns }) (r : Option Nat)
        (hstop : (target.scan addr (pattern.take patternLen) stop).Stops s r) : f (n + 1) s b = some r := by
      simp only [f, searchLoop]
      cases hstop with
      | through hdone => exact if_neg (Nat.not_lt.mpr hdone)
      | found hgo hlook =>
        obtain ⟨buf', hblock⟩ := searchBlock_of_finds hpos hle b.2.2 hlook.1 hlook.2 b.1
        rw [if_pos (Nat.not_le.mp hgo), hblock]
    have hpasses (n s : Nat) (b : Memory UInt8 × { turns // searchBufSize < turns })
        (hpass : (target.scan addr (pattern.take patternLen) stop).Passes s) :
        ∃ b', f (n + 1) s b = f n (word (s / 0x1000 * 0x1000 + 0x1000)) b' := by
      obtain ⟨hgo, hlook⟩ := hpass
      obtain ⟨buf', hblock⟩ := searchBlock_of_finds hpos hle b.2.2 hlook.1 hlook.2 b.1
      refine ⟨(buf', b.2), ?_⟩
      simp only [f]
      rw [searchLoop, if_pos (Nat.not_le.mp hgo), hblock]
    obtain ⟨m, hm⟩ := Scan.run_of_ends hstops hpasses h
    have hturns : searchBufSize < max m (searchBufSize + 1) := by omega
    exact ⟨max m (searchBufSize + 1), hm _ (le_max_left ..) (buf, ⟨_, hturns⟩)⟩

end

/-! ## Where the blocks are -/

theorem blockStart_le (i : Nat) : addr ≤ blockStart addr i := by
  unfold blockStart
  split
  · exact le_rfl
  · omega

theorem blockStart_mono {i j : Nat} (h : i ≤ j) : blockStart addr i ≤ blockStart addr j := by
  unfold blockStart
  split_ifs <;> omega

theorem blockStart_succ (i : Nat) : blockStart addr (i + 1) = blockStart addr i / 0x1000 * 0x1000 + 0x1000 := by
  unfold blockStart
  rw [if_neg (Nat.succ_ne_zero i)]
  split
  · omega
  · rw [Nat.mul_div_cancel _ (show 0 < 0x1000 by decide)]
    omega

/-- Below the end of the address space one block is behind the other. -/
theorem iterate_next (text : List UInt8) (stop : Nat) : ∀ i, blockStart addr i < 2 ^ 32 →
    (target.scan addr text stop).next^[i] addr = blockStart addr i := by
  intro i
  induction i with
  | zero => exact fun _ => rfl
  | succ i ih =>
    intro hi
    rw [Function.iterate_succ_apply', ih ((blockStart_mono (Nat.le_succ i)).trans_lt hi)]
    rw [blockStart_succ] at hi ⊢
    exact Nat.mod_eq_of_lt hi

/-- A place of the text that can be read is in the block of its page, if the search is not barred. -/
theorem inBlock_own {text : List UInt8} {q : Nat} (hlow : addr ≤ q) (hfits : text.length ≤ 0x1000)
    (hbarred : target.barred addr = false) (hpos : 0 < text.length) (h : target.Holds text q) :
    target.InBlock addr text (blockStart addr (q / 0x1000 - addr / 0x1000)) q := by
  have hpage : blockStart addr (q / 0x1000 - addr / 0x1000) / 0x1000 = q / 0x1000 ∧
      blockStart addr (q / 0x1000 - addr / 0x1000) ≤ q := by
    unfold blockStart
    split <;> omega
  refine ⟨hpage.2, ⟨?_, fun a ha hlt => ?_⟩, fun k hk => (h k hk).2⟩
  · rw [hpage.1, searchBufSize_eq]
    omega
  · rw [hpage.1] at ha
    unfold searched
    rw [hbarred, Bool.not_false, Bool.true_and]
    rcases Nat.lt_or_ge a q with hbefore | hbehind
    · -- the byte is on the page of the first one
      rw [target.readable_page (show word a / 0x1000 = word (q + 0) / 0x1000 by unfold word; omega)]
      exact (h 0 hpos).1
    · obtain ⟨k, rfl⟩ := Nat.exists_eq_add_of_le hbehind
      exact (h k (by omega)).1

/-- What is in a block is there and can be read. -/
theorem InBlock.holds {text : List UInt8} {cur q : Nat} (h : target.InBlock addr text cur q) : target.Holds text q := by
  intro k hk
  have hsearched := h.2.1.2 (q + k) (by have := h.1; omega) (by omega)
  unfold searched at hsearched
  rw [Bool.and_eq_true] at hsearched
  exact ⟨hsearched.2, h.2.2 k hk⟩

theorem InBlock.open {text : List UInt8} {cur q : Nat} (hpos : 0 < text.length) (h : target.InBlock addr text cur q) :
    target.barred addr = false := by
  have hsearched := h.2.1.2 (q + 0) (by have := h.1; omega) (by omega)
  unfold searched at hsearched
  rw [Bool.and_eq_true, Bool.not_eq_true'] at hsearched
  exact hsearched.1

/-! ## What the search ends with -/

section

variable {addr len : UInt32} {text : List UInt8}

theorem stop_toNat (h : addr.toNat + len.toNat < 2 ^ 32) : (addr + len).toNat = addr.toNat + len.toNat := by
  rw [UInt32.toNat_add, Nat.mod_eq_of_lt h]

/-- A range that reaches the end of the address space is taken for an empty one. -/
theorem stop_le (h : 2 ^ 32 ≤ addr.toNat + len.toNat) : (addr + len).toNat ≤ addr.toNat := by
  have haddr := addr.toNat_lt
  have hlen := len.toNat_lt
  rw [UInt32.toNat_add]
  omega

/-- Where the range ends in the last page, the search never gets through: behind that page it goes on at 0. -/
theorem not_ends_lastPage (hlen : len.toNat ≠ 0) (hlast : 0xFFFFF000 < addr.toNat + len.toNat)
    (hend : addr.toNat + len.toNat < 2 ^ 32) : ¬(target.scan addr.toNat text (addr + len).toNat).Ends addr.toNat none := by
  refine Scan.not_ends_none (J := fun cur => cur < addr.toNat + len.toNat) (fun cur _ => ?_) (fun cur hcur hdone => ?_) ?_
  · simp only [scan, word]
    omega
  · exact absurd (stop_toNat hend ▸ hdone) (Nat.not_le.mpr hcur)
  · omega

/-- A block is passed if it begins in the range, and has no registers and not the text. -/
theorem passes_iff (hend : addr.toNat + len.toNat < 2 ^ 32) {i : Nat} (hi : blockStart addr.toNat i < 2 ^ 32) :
    (target.scan addr.toNat text (addr + len).toNat).Passes
        ((target.scan addr.toNat text (addr + len).toNat).next^[i] addr.toNat) ↔
      blockStart addr.toNat i < addr.toNat + len.toNat ∧ ¬target.HasRegisters addr.toNat (blockStart addr.toNat i) ∧
        ∀ q, ¬target.InBlock addr.toNat text (blockStart addr.toNat i) q := by
  rw [iterate_next text _ i hi]
  show ¬(addr + len).toNat ≤ _ ∧ _ ↔ _
  rw [stop_toNat hend, Nat.not_le]
  rfl

/-- The first block behind a range that does not end in the last page. -/
theorem exists_firstBehind (hlast : len.toNat = 0 ∨ addr.toNat + len.toNat ≤ 0xFFFFF000) :
    ∃ k, addr.toNat + len.toNat ≤ blockStart addr.toNat k ∧ blockStart addr.toNat k < 2 ^ 32 ∧
      ∀ j < k, blockStart addr.toNat j < addr.toNat + len.toNat := by
  have hbehind : ∃ i, addr.toNat + len.toNat ≤ blockStart addr.toNat i := by
    refine ⟨addr.toNat + len.toNat + 1, ?_⟩
    unfold blockStart
    rw [if_neg (Nat.succ_ne_zero _)]
    omega
  have hbefore : ∀ j < Nat.find hbehind, blockStart addr.toNat j < addr.toNat + len.toNat := fun j hj =>
    Nat.not_le.mp (Nat.find_min hbehind hj)
  refine ⟨Nat.find hbehind, Nat.find_spec hbehind, ?_, hbefore⟩
  rcases hk : Nat.find hbehind with _ | j
  · exact addr.toNat_lt
  · have hj := hbefore j (by omega)
    have hlow : addr.toNat ≤ blockStart addr.toNat j := blockStart_le j
    rw [blockStart_succ]
    omega

/-- Nothing is found, if there is nothing in the blocks, or none of them. -/
theorem ends_none_iff : (target.scan addr.toNat text (addr + len).toNat).Ends addr.toNat none ↔
    2 ^ 32 ≤ addr.toNat + len.toNat ∨ (len.toNat = 0 ∨ addr.toNat + len.toNat ≤ 0xFFFFF000) ∧
      ∀ i, blockStart addr.toNat i < addr.toNat + len.toNat → ¬target.HasRegisters addr.toNat (blockStart addr.toNat i) ∧
        ∀ q, ¬target.InBlock addr.toNat text (blockStart addr.toNat i) q := by
  rcases Nat.lt_or_ge (addr.toNat + len.toNat) (2 ^ 32) with hend | hwrap
  · simp only [Nat.not_le.mpr hend, false_or]
    constructor
    · intro h
      refine ⟨?_, fun i hi => ?_⟩
      · by_contra hlast
        rw [not_or, Nat.not_le] at hlast
        exact not_ends_lastPage hlast.1 hlast.2 hend h
      · obtain ⟨k, hpass, hthrough⟩ := Scan.ends_iff.mp h
        rcases Nat.lt_or_ge i k with hlt | hge
        · exact ((passes_iff hend (hi.trans hend)).mp (hpass i hlt)).2
        · -- the search would be through in a block of the range
          have hk := (blockStart_mono hge).trans_lt hi
          cases hthrough with
          | through hdone =>
            rw [iterate_next text _ k (hk.trans hend)] at hdone
            exact absurd (stop_toNat hend ▸ hdone) (Nat.not_le.mpr hk)
    · rintro ⟨hlast, hall⟩
      obtain ⟨k, hbehind, hfirst, hbefore⟩ := exists_firstBehind hlast
      refine Scan.ends_iff.mpr ⟨k, fun j hj => ?_, .through ?_⟩
      · exact (passes_iff hend ((hbefore j hj).trans hend)).mpr ⟨hbefore j hj, hall j (hbefore j hj)⟩
      · rw [iterate_next text _ _ hfirst]
        exact (stop_toNat hend).trans_le hbehind
  · exact ⟨fun _ => .inl hwrap, fun _ => .through (stop_le hwrap)⟩

/-- The first place of the range is in front of any in a block. -/
theorem le_of_inBlock {pattern : List UInt8} {a i q : Nat} (ha : IsLeast (target.places addr len pattern) a)
    (h : target.InBlock addr.toNat pattern (blockStart addr.toNat i) q) : a ≤ q := by
  obtain ⟨⟨-, hend, htop, -⟩, hleast⟩ := ha
  by_contra hlt
  exact hlt (hleast ⟨(blockStart_le i).trans h.1, by omega, by omega, h.holds⟩)

/-- And in the block, too, if that begins in front of it. -/
theorem InBlock.first {pattern : List UInt8} {a i q : Nat} (ha : IsLeast (target.places addr len pattern) a)
    (h : target.InBlock addr.toNat pattern (blockStart addr.toNat i) q) (hbegin : blockStart addr.toNat i ≤ a) :
    target.InBlock addr.toNat pattern (blockStart addr.toNat i) a := by
  have hle := le_of_inBlock ha h
  obtain ⟨-, ⟨hmax, hall⟩, -⟩ := h
  exact ⟨hbegin, ⟨by omega, fun x hx hlt => hall x hx (by omega)⟩, fun k hk => (ha.1.2.2.2 k hk).2⟩

/-- Texts of one length that are at the same place are the same. -/
theorem InBlock.eq_of_holds {pattern : List UInt8} {cur q a : Nat} (h : target.InBlock addr.toNat text cur q)
    (ha : target.Holds pattern a) (hsame : a = word q) (hlength : text.length = pattern.length) : text = pattern := by
  refine List.ext_getElem hlength fun k hk hk' => ?_
  rw [← h.2.2 k hk, ← (ha k hk').2, hsame]
  congr 1
  unfold word
  omega

/-- The first place of the range is found, if the text is the pattern and nothing keeps the search from it. -/
theorem ends_found_iff {pattern : List UInt8} {a : Nat} (ha : IsLeast (target.places addr len pattern) a)
    (hpos : 0 < pattern.length) (hfits : pattern.length ≤ 0x1000) (hlength : text.length = pattern.length) :
    (target.scan addr.toNat text (addr + len).toNat).Ends addr.toNat (some a) ↔
      text = pattern ∧ target.barred addr.toNat = false ∧ addr.toNat + len.toNat < 2 ^ 32 ∧
        ∀ i, blockStart addr.toNat i < addr.toNat + len.toNat →
          (∀ j < i, ∀ q, ¬target.InBlock addr.toNat pattern (blockStart addr.toNat j) q) →
            ¬target.HasRegisters addr.toNat (blockStart addr.toNat i) := by
  obtain ⟨⟨hlow, hhigh, htop, hholds⟩, hleast⟩ := id ha
  constructor
  · intro h
    obtain ⟨k, hpass, hstop⟩ := Scan.ends_iff.mp h
    obtain ⟨hgo, hreg, q, hsame, hq, hfirst⟩ : ¬(addr + len).toNat ≤ _ ∧ ¬target.HasRegisters addr.toNat _ ∧
        target.Finds addr.toNat text _ (some a) := by
      cases hstop with
      | found hgo hlook => exact ⟨hgo, hlook.1, hlook.2⟩
    obtain rfl := hq.eq_of_holds hholds hsame hlength
    have hend : addr.toNat + len.toNat < 2 ^ 32 := by
      by_contra hwrap
      cases k with
      | zero => exact hgo (stop_le (Nat.not_lt.mp hwrap))
      | succ k => exact (hpass 0 (Nat.zero_lt_succ k)).1 (stop_le (Nat.not_lt.mp hwrap))
    refine ⟨rfl, hq.open hpos, hend, fun i hi hnone => ?_⟩
    rcases Nat.lt_trichotomy i k with hlt | rfl | hgt
    · exact ((passes_iff hend (hi.trans hend)).mp (hpass i hlt)).2.1
    · rwa [iterate_next text _ i (hi.trans hend)] at hreg
    · -- the search has stopped before this block
      rw [iterate_next text _ k (((blockStart_mono hgt.le).trans_lt hi).trans hend)] at hq
      exact absurd hq (hnone k hgt q)
  · classical
    rintro ⟨rfl, hopen, hend, hspared⟩
    have hown : ∃ i, target.InBlock addr.toNat text (blockStart addr.toNat i) a := ⟨_, inBlock_own hlow hfits hopen hpos hholds⟩
    have hk := Nat.find_spec hown
    have hbegin {j : Nat} (hj : j ≤ Nat.find hown) : blockStart addr.toNat j ≤ a := (blockStart_mono hj).trans hk.1
    have hgo {j : Nat} (hj : j ≤ Nat.find hown) : blockStart addr.toNat j < addr.toNat + len.toNat := by
      have := hbegin hj
      omega
    -- a block with any place of the text that begins in front of the first one has that, too
    have hnone : ∀ j < Nat.find hown, ∀ q, ¬target.InBlock addr.toNat text (blockStart addr.toNat j) q := fun j hj q hq =>
      Nat.find_min hown hj (hq.first ha (hbegin hj.le))
    have hreg {j : Nat} (hj : j ≤ Nat.find hown) : ¬target.HasRegisters addr.toNat (blockStart addr.toNat j) :=
      hspared j (hgo hj) fun i hi => hnone i (hi.trans_le hj)
    refine Scan.ends_iff.mpr ⟨Nat.find hown, fun j hj => ?_, ?_⟩
    · exact (passes_iff hend ((hgo hj.le).trans hend)).mpr ⟨hgo hj.le, hreg hj.le, hnone j hj⟩
    · rw [iterate_next text _ _ ((hgo le_rfl).trans hend)]
      refine .found (fun hdone => ?_) ⟨hreg le_rfl, a, ?_, hk, fun q hq => le_of_inBlock ha hq⟩
      · exact absurd (stop_toNat hend ▸ hdone) (Nat.not_le.mpr (hgo le_rfl))
      · exact (Nat.mod_eq_of_lt (by omega)).symm

end

/-! ## The answer -/

/-- What is found is the first place of the range; nothing is, if there is none. -/
def FindsFirst (target : TargetMemory) (addr len : UInt32) (pattern : List UInt8) : Option Nat → Prop
  | some a => IsLeast (target.places addr len pattern) a
  | none => target.places addr len pattern = ∅

section

variable {addr len : UInt32} {text pattern : List UInt8}

/-- An empty pattern is never found. -/
theorem searchLoop_empty (stop turns : Nat) : ∀ blocks cur buf found,
    target.searchLoop addr.toNat text 0 turns stop blocks cur buf ≠ some (some found) := by
  intro blocks
  induction blocks with
  | zero =>
    intro cur buf found h
    cases h
  | succ blocks ih =>
    intro cur buf found h
    unfold searchLoop searchBlock at h
    simp only [if_true] at h
    split at h
    · split_ifs at h
      exact ih _ _ _ h
    · cases h

theorem places_empty : addr.toNat ∈ target.places addr len [] :=
  ⟨le_rfl, Nat.le_add_right .., addr.toNat_lt.le, fun k hk => absurd hk (Nat.not_lt_zero k)⟩

theorem searchMemory_iff (stack : Memory UInt8) (hle : pattern.length ≤ text.length) (hfits : pattern.length ≤ 0x1000) :
    (∃ turns found, target.searchMemory addr len text pattern.length stack turns = some found ∧
      FindsFirst target.toTargetMemory addr len pattern found) ↔ target.SearchRight addr len text pattern := by
  by_cases hempty : pattern = []
  · subst hempty
    refine iff_of_false ?_ fun h => h.1 rfl
    rintro ⟨turns, _ | a, hrun, hfirst⟩
    · exact Set.eq_empty_iff_forall_notMem.mp hfirst _ places_empty
    · exact searchLoop_empty _ _ _ _ _ _ hrun
  have hpos : 0 < pattern.length := List.length_pos_iff.mpr hempty
  have hends (found : Option Nat) : (∃ turns, target.searchMemory addr len text pattern.length stack turns = some found) ↔
      (target.scan addr.toNat (text.take pattern.length) (addr + len).toNat).Ends addr.toNat found :=
    searchLoop_iff hpos hle _ _ stack found
  unfold SearchRight
  rcases Set.eq_empty_or_nonempty (target.places addr len pattern) with hnone | ⟨q, hq⟩
  · -- only 0 is the right answer
    have hleft : (∃ turns found, target.searchMemory addr len text pattern.length stack turns = some found ∧
        FindsFirst target.toTargetMemory addr len pattern found) ↔
        ∃ turns, target.searchMemory addr len text pattern.length stack turns = some none := by
      refine exists_congr fun turns => ⟨?_, fun hrun => ⟨none, hrun, hnone⟩⟩
      rintro ⟨_ | a, hrun, hfirst⟩
      · exact hrun
      · exact absurd hfirst.1 (hnone ▸ Set.notMem_empty a)
    rw [hleft, hends, ends_none_iff]
    simp [hempty, hnone]
  · -- only the first place is
    obtain ⟨a, ha⟩ : ∃ a, IsLeast (target.places addr len pattern) a := ⟨_, isLeast_csInf ⟨q, hq⟩⟩
    have hleft : (∃ turns found, target.searchMemory addr len text pattern.length stack turns = some found ∧
        FindsFirst target.toTargetMemory addr len pattern found) ↔
        ∃ turns, target.searchMemory addr len text pattern.length stack turns = some (some a) := by
      refine exists_congr fun turns => ⟨?_, fun hrun => ⟨some a, hrun, ha⟩⟩
      rintro ⟨_ | a', hrun, hfirst⟩
      · exact absurd hq (hfirst ▸ Set.notMem_empty q)
      · rw [hrun, ha.unique hfirst]
    have hne : target.places addr len pattern ≠ ∅ := Set.nonempty_iff_ne_empty.mp ⟨q, hq⟩
    rw [hleft, hends, ends_found_iff ha hpos hfits (List.length_take_of_le hle)]
    simp [hempty, hne, Set.nonempty_iff_ne_empty]

end

end SearchTarget

section

variable {target : TargetMemory} {addr len : UInt32} {pattern : List UInt8}

theorem searchAnswered_none : target.SearchAnswered addr len pattern (.packet (ascii "0")) ↔
    target.places addr len pattern = ∅ := by
  constructor
  · rintro (⟨a, hreply, -⟩ | ⟨-, hnone⟩)
    · cases hreply
    · exact hnone
  · exact fun hnone => .inr ⟨rfl, hnone⟩

theorem searchAnswered_found {a : Nat} : target.SearchAnswered addr len pattern (.packet (ascii "1," ++ hexText a)) ↔
    IsLeast (target.places addr len pattern) a := by
  constructor
  · rintro (⟨a', hreply, ha⟩ | ⟨hreply, -⟩)
    · rwa [hexText_inj (List.append_cancel_left (SearchReply.packet.inj hreply))]
    · cases hreply
  · exact fun ha => .inl ⟨a, rfl, ha⟩

end

theorem SearchQuery.text_fits {query : SearchQuery} {addr len : UInt32} {text : List UInt8}
    (h : query.request = some (addr, len, text)) : text.length ≤ gdbBufLen := by
  unfold request at h
  split at h
  · simp only at h
    split at h
    · cases h
    · split_ifs at h
      cases h
      rw [List.length_drop]
      exact (Nat.sub_le ..).trans query.fits
  · cases h

section

variable {query : SearchQuery} {addr len : UInt32} {text pattern : List UInt8}

/-- The handler answers what the search finds. -/
theorem answered_iff_findsFirst (target : SearchTarget) (stack : Memory UInt8)
    (hrequest : query.request = some (addr, len, text)) (hdecode : decode text = some pattern) :
    (∃ turns reply, handleQuerySearchMemory query target stack turns = some reply ∧
        target.SearchAnswered addr len pattern reply) ↔
      ∃ turns found, target.searchMemory addr len text pattern.length stack turns = some found ∧
        SearchTarget.FindsFirst target.toTargetMemory addr len pattern found := by
  refine exists_congr fun turns => ?_
  unfold handleQuerySearchMemory
  rw [hrequest]
  simp only [unescapeBinaryData_of_decode 0 text hdecode]
  rcases target.searchMemory addr len text pattern.length stack turns with _ | _ | a
  · simp
  · simp only [Option.some.injEq, exists_eq_left']
    exact searchAnswered_none
  · simp only [Option.some.injEq, exists_eq_left']
    exact searchAnswered_found

theorem pattern_fits (hrequest : query.request = some (addr, len, text)) (hdecode : decode text = some pattern) :
    pattern.length ≤ text.length ∧ pattern.length ≤ 0x1000 := by
  have hle := decode_length_le text hdecode
  exact ⟨hle, (hle.trans (query.text_fits hrequest)).trans (by decide)⟩

end

/-- The requests that are answered with the first place of the pattern in the range, or with 0 if there is none. -/
theorem handleQuerySearchMemory_iff (query : SearchQuery) (target : SearchTarget) (stack : Memory UInt8) {addr len : UInt32}
    {text pattern : List UInt8} (hrequest : query.request = some (addr, len, text)) (hdecode : decode text = some pattern) :
    (∃ turns reply, handleQuerySearchMemory query target stack turns = some reply ∧
      target.SearchAnswered addr len pattern reply) ↔ target.SearchRight addr len text pattern := by
  obtain ⟨hle, hfits⟩ := pattern_fits hrequest hdecode
  rw [answered_iff_findsFirst target stack hrequest hdecode, target.searchMemory_iff stack hle hfits]

/-! ## Four requests -/

/-- A process with `#ab` at 0x100000. -/
def plainTarget : SearchTarget where
  ttbcr := 1
  ttbcr_pos := Nat.one_pos
  ttbcr_le := one_le_seven
  mapped := fun _ => true
  enableExternalMemoryAccess := false
  physical := fun _ => false
  byte := fun a => if a = 0x100000 then 0x23 else if a = 0x100001 then 0x61 else if a = 0x100002 then 0x62 else 0
  convertVAToPA := fun _ => 0
  physical_iff := by simp

/-- `memory:100000;4;ab`. -/
def plainQuery : SearchQuery := ⟨ascii "memory:100000;4;ab", by decide⟩

theorem plainQuery_request : plainQuery.request = some (0x100000, 4, [0x61, 0x62]) := by
  decide +kernel

theorem plainTarget_readable (a : Nat) : plainTarget.readable a = decide (a < 2 ^ 31) := by
  unfold TargetMemory.readable TargetMemory.userLimit
  simp [plainTarget]

theorem plainTarget_noRegisters (addr : Nat) {cur : Nat} (h : cur < 0x200000) : ¬plainTarget.HasRegisters addr cur := by
  rintro ⟨a, -, hloaded, hio⟩
  have hle := hloaded.1
  rw [SearchTarget.searchBufSize_eq] at hle
  unfold inIo word at hio
  rw [decide_eq_true_iff] at hio
  omega

theorem plainTarget_holds {bytes : List UInt8} {q : Nat} (hend : q + bytes.length ≤ 2 ^ 31)
    (h : ∀ k (h : k < bytes.length), plainTarget.byte (q + k) = bytes[k]) : plainTarget.Holds bytes q := by
  intro k hk
  rw [show word (q + k) = q + k from Nat.mod_eq_of_lt (by omega), plainTarget_readable, decide_eq_true_iff]
  exact ⟨by omega, h k hk⟩

theorem plainSearch_right : plainTarget.SearchRight 0x100000 4 [0x61, 0x62] [0x61, 0x62] := by
  have hplace : 0x100001 ∈ plainTarget.places 0x100000 4 [0x61, 0x62] :=
    ⟨by decide, by decide, by decide, plainTarget_holds (by decide) (by decide)⟩
  refine ⟨by decide, fun _ => ⟨rfl, rfl, by decide, fun i hi _ => plainTarget_noRegisters _ ?_⟩, fun hnone => ?_⟩
  · exact hi.trans (by decide)
  · rw [hnone] at hplace
    cases hplace

theorem plainSearch_answered : ∃ turns reply, handleQuerySearchMemory plainQuery plainTarget (fun _ => 0) turns = some reply ∧
    plainTarget.SearchAnswered 0x100000 4 [0x61, 0x62] reply :=
  (handleQuerySearchMemory_iff plainQuery plainTarget (fun _ => 0) plainQuery_request (by decide)).mpr plainSearch_right

/-- `}` and a byte behind it, which mean `#`. -/
def escapedQuery : SearchQuery := ⟨ascii "memory:100000;4;" ++ [0x7D, 0x03], by decide⟩

/-- The pattern goes on behind the range. -/
def crossingQuery : SearchQuery := ⟨ascii "memory:100000;2;ab", by decide⟩

/-- A range in the last page, where nothing can be read. -/
def topQuery : SearchQuery := ⟨ascii "memory:fffff000;800;ab", by decide⟩

def emptyQuery : SearchQuery := ⟨ascii "memory:100000;4;", by decide⟩

/-- The escaped pattern is not found, the one that crosses the end of the range is; the search of the last page does not end,
and that of the empty pattern is not defined. -/
theorem fourQueries_unanswered :
    (¬∃ turns reply, handleQuerySearchMemory escapedQuery plainTarget (fun _ => 0) turns = some reply ∧
      plainTarget.SearchAnswered 0x100000 4 [0x23] reply) ∧
    (¬∃ turns reply, handleQuerySearchMemory crossingQuery plainTarget (fun _ => 0) turns = some reply ∧
      plainTarget.SearchAnswered 0x100000 2 [0x61, 0x62] reply) ∧
    (¬∃ turns reply, handleQuerySearchMemory topQuery plainTarget (fun _ => 0) turns = some reply ∧
      plainTarget.SearchAnswered 0xFFFFF000 0x800 [0x61, 0x62] reply) ∧
    ¬∃ turns reply, handleQuerySearchMemory emptyQuery plainTarget (fun _ => 0) turns = some reply ∧
      plainTarget.SearchAnswered 0x100000 4 [] reply := by
  have hescaped : escapedQuery.request = some (0x100000, 4, [0x7D, 0x03]) := by decide +kernel
  have hcrossing : crossingQuery.request = some (0x100000, 2, [0x61, 0x62]) := by decide +kernel
  have htop : topQuery.request = some (0xFFFFF000, 0x800, [0x61, 0x62]) := by decide +kernel
  have hempty : emptyQuery.request = some (0x100000, 4, []) := by decide +kernel
  refine ⟨?_, ?_, ?_, ?_⟩
  · rw [answered_iff_findsFirst _ _ hescaped (by decide), SearchTarget.searchMemory_iff _ (by decide) (by decide)]
    rintro ⟨-, hfound, -⟩
    have hplace : 0x100000 ∈ plainTarget.places 0x100000 4 [0x23] :=
      ⟨by decide, by decide, by decide, plainTarget_holds (by decide) (by decide)⟩
    exact absurd (hfound ⟨_, hplace⟩).1 (by decide)
  · rw [answered_iff_findsFirst _ _ hcrossing (by decide), SearchTarget.searchMemory_iff _ (by decide) (by decide)]
    rintro ⟨-, -, hmissed⟩
    have hnone : plainTarget.places 0x100000 2 [0x61, 0x62] = ∅ := by
      refine Set.eq_empty_iff_forall_notMem.mpr fun q hq => ?_
      obtain ⟨hlow, hhigh, -, hholds⟩ := hq
      -- the pattern would be all of the range, which begins with `#`
      obtain rfl : q = 0x100000 := le_antisymm (Nat.le_of_add_le_add_right hhigh) hlow
      exact absurd (hholds 0 (by decide)).2 (by decide)
    have hblock : plainTarget.InBlock 0x100000 [0x61, 0x62]
        (SearchTarget.blockStart 0x100000 (0x100001 / 0x1000 - 0x100000 / 0x1000)) 0x100001 :=
      SearchTarget.inBlock_own (by decide) (by decide) rfl (by decide) (plainTarget_holds (by decide) (by decide))
    rcases hmissed hnone with hwrap | ⟨-, hall⟩
    · exact absurd hwrap (by decide)
    · exact (hall 0 (by decide)).2 _ hblock
  · rw [answered_iff_findsFirst _ _ htop (by decide), SearchTarget.searchMemory_iff _ (by decide) (by decide)]
    rintro ⟨-, -, hmissed⟩
    have hnone : plainTarget.places 0xFFFFF000 0x800 [0x61, 0x62] = ∅ := by
      refine Set.eq_empty_iff_forall_notMem.mpr fun q hq => ?_
      obtain ⟨hlow, -, htop, hholds⟩ := hq
      have hread := (hholds 0 (by decide)).1
      rw [plainTarget_readable, decide_eq_true_iff] at hread
      change 0xFFFFF000 ≤ q at hlow
      change q + 2 ≤ 2 ^ 32 at htop
      unfold word at hread
      omega
    rcases hmissed hnone with hwrap | ⟨hlast | hlast, -⟩
    · exact absurd hwrap (by decide)
    · exact absurd hlast (by decide)
    · exact absurd hlast (by decide)
  · rw [answered_iff_findsFirst _ _ hempty (by decide), SearchTarget.searchMemory_iff _ (by decide) (by decide)]
    exact fun h => h.1 rfl

end Omiiba.Rosalina
