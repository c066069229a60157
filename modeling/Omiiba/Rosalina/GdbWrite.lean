/-
The debugger's writes to the target, after mem.c: they go page by page, in a loop of accesses where the page is one
of registers, and a kernel page without a physical address is tried for ever.
-/
import Omiiba.Rosalina.GdbMem

namespace Omiiba.Rosalina

/-! ## The code -/

section

/- The kernel answers for writes as `TargetMemory` says; `data` is the local buffer, with what is behind it on the stack. -/
variable (target : TargetMemory) (data : Memory UInt8)

/-- The loop over registers, for the bytes of the buffer from `total` on: the offset into it is counted in units of the
access. -/
def ioWriteLoop (total addr len off : Nat) : List (Write UInt8) :=
  if off < len then
    if word (addr + off) % 2 = 1 then ⟨addr + off, data.read (total + off) 1⟩ :: ioWriteLoop total addr len (off + 1)
    else if word (addr + off) % 4 ≠ 0 then ⟨addr + off, data.read (total + 2 * off) 2⟩ :: ioWriteLoop total addr len (off + 2)
    else ⟨addr + off, data.read (total + 4 * off) 4⟩ :: ioWriteLoop total addr len (off + 4)
  else []
termination_by len - off

/-- `GDB_WriteTargetMemoryInPage`, if it returns in that many calls: what it writes, unless it fails. -/
def writeTargetMemoryInPage (total addr len : Nat) : Nat → Option (Option (List (Write UInt8)))
  | 0 => none
  | calls + 1 =>
    if addr < target.userLimit then
      some (if target.mapped (addr / 0x1000) then some [⟨addr, data.read total len⟩] else none)
    else if !target.enableExternalMemoryAccess then some none
    else if inWindow addr then
      some (some (if inIo addr then ioWriteLoop data total addr len 0 else [⟨addr, data.read total len⟩]))
    else if target.physical (addr / 0x1000) then some (some [⟨addr, data.read total len⟩])
    -- once more, with the same address; only the buffer is named by its physical one
    else writeTargetMemoryInPage total addr len calls

/-- `GDB_WriteTargetMemory`, with `total` bytes already written: what it writes, and how much in all. -/
def writeTargetMemory (calls addr remaining total : Nat) : Option (List (Write UInt8) × Nat) :=
  match writeTargetMemoryInPage target data total addr (onPage addr remaining) calls with
  | none => none
  | some none => some ([], total)
  | some (some writes) =>
    if 0 < remaining - onPage addr remaining then
      (writeTargetMemory calls (word (addr + onPage addr remaining)) (remaining - onPage addr remaining)
        (total + onPage addr remaining)).map fun (more, all) => (writes ++ more, all)
    else some (writes, total + onPage addr remaining)
termination_by remaining
decreasing_by
  have := onPage_pos addr (show 0 < remaining by omega)
  omega

inductive WriteReply
  | ok
  | errno (no : Nat)
  deriving DecidableEq

/-- `GDB_WriteMemory`. -/
def gdbWriteMemory (calls : Nat) (addr len : UInt32) : Option (List (Write UInt8) × WriteReply) :=
  (writeTargetMemory target data calls addr.toNat len.toNat 0).map fun (writes, total) =>
    (writes, if total ≠ len.toNat then .errno 14 else .ok)

end

/-! ## One page -/

namespace TargetMemory

/-- Kernel memory that may be accessed, but has no physical address. -/
def unbacked (target : TargetMemory) (addr : Nat) : Bool :=
  !decide (addr < target.userLimit) && target.enableExternalMemoryAccess && !inWindow addr && !target.physical (addr / 0x1000)

/-- What is unbacked cannot be accessed. -/
theorem readable_of_unbacked {target : TargetMemory} {addr : Nat} (h : target.unbacked addr = true) :
    target.readable addr = false := by
  unfold unbacked at h
  simp only [Bool.and_eq_true, Bool.not_eq_true', decide_eq_false_iff_not] at h
  obtain ⟨⟨⟨hhigh, hext⟩, hwindow⟩, hphysical⟩ := h
  unfold readable
  rw [if_neg hhigh, hext, hwindow, hphysical]
  rfl

end TargetMemory

/-- What one page gets. -/
def pieceWrites (data : Memory UInt8) (total addr nb : Nat) : List (Write UInt8) :=
  if inIo addr then ioWriteLoop data total addr nb 0 else [⟨addr, data.read total nb⟩]

variable {target : TargetMemory} {data : Memory UInt8}

theorem writeTargetMemoryInPage_unbacked {addr : Nat} (h : target.unbacked addr = true) (total len : Nat) :
    ∀ calls, writeTargetMemoryInPage target data total addr len calls = none := by
  unfold TargetMemory.unbacked at h
  simp only [Bool.and_eq_true, Bool.not_eq_true', decide_eq_false_iff_not] at h
  obtain ⟨⟨⟨hhigh, hext⟩, hwindow⟩, hphysical⟩ := h
  intro calls
  induction calls with
  | zero => rfl
  | succ calls ih => simp [writeTargetMemoryInPage, hhigh, hext, hwindow, hphysical, ih]

theorem writeTargetMemoryInPage_eq {addr : Nat} (h : target.unbacked addr = false) (total len calls : Nat) :
    writeTargetMemoryInPage target data total addr len (calls + 1) =
      some (if target.readable addr then some (pieceWrites data total addr len) else none) := by
  have hlimit := target.userLimit_le
  unfold TargetMemory.unbacked at h
  unfold writeTargetMemoryInPage TargetMemory.readable pieceWrites
  rcases Decidable.em (addr < target.userLimit) with hlow | hhigh
  · have hio : inIo addr = false := by
      unfold inIo
      rw [decide_eq_false_iff_not]
      omega
    simp [hlow, hio]
  · cases hext : target.enableExternalMemoryAccess
    · simp [hhigh]
    · cases hwindow : inWindow addr
      · have hio : inIo addr = false := by
          unfold inWindow at hwindow
          unfold inIo
          rw [decide_eq_false_iff_not] at *
          omega
        have hphysical : target.physical (addr / 0x1000) = true := by
          simpa [hhigh, hext, hwindow] using h
        simp [hhigh, hphysical, hio]
      · simp [hhigh]

/-! ## What a page gets -/

/-- The bytes that the loop over registers takes from the buffer, from an offset on. -/
def ioTaken (data : Memory UInt8) (total addr len off : Nat) : List UInt8 :=
  if off < len then
    data.read (total + accessWidth (addr + off) * off) (accessWidth (addr + off)) ++
      ioTaken data total addr len (off + accessWidth (addr + off))
  else []
termination_by len - off
decreasing_by
  have := accessWidth_pos (addr + off)
  omega

/-- The bytes that a page gets. -/
def pieceTaken (data : Memory UInt8) (total addr nb : Nat) : List UInt8 :=
  if inIo addr then ioTaken data total addr nb 0 else data.read total nb

theorem ioWriteLoop_done (data : Memory UInt8) (total addr : Nat) {len off : Nat} (h : len ≤ off) :
    ioWriteLoop data total addr len off = [] ∧ ioTaken data total addr len off = [] := by
  rw [ioWriteLoop, ioTaken, if_neg (Nat.not_lt.mpr h), if_neg (Nat.not_lt.mpr h)]
  exact ⟨rfl, rfl⟩

theorem ioWriteLoop_access (data : Memory UInt8) (total : Nat) {addr len off : Nat} (h : off < len)
    (hword : addr + off < 2 ^ 32) :
    ioWriteLoop data total addr len off =
      ⟨addr + off, data.read (total + accessWidth (addr + off) * off) (accessWidth (addr + off))⟩ ::
        ioWriteLoop data total addr len (off + accessWidth (addr + off)) := by
  rw [ioWriteLoop, if_pos h, show word (addr + off) = addr + off from Nat.mod_eq_of_lt hword]
  unfold accessWidth
  split
  · rw [Nat.one_mul]
  · split <;> rfl

/-- The loop takes what is left of its piece and at most three bytes more, and stays on the page. -/
theorem ioTaken_length (data : Memory UInt8) (total : Nat) {addr len : Nat} (hpage : addr % 0x1000 + len ≤ 0x1000) :
    ∀ n off : Nat, len - off ≤ n → off ≤ len →
      len ≤ off + (ioTaken data total addr len off).length ∧ off + (ioTaken data total addr len off).length ≤ len + 3 ∧
        addr % 0x1000 + off + (ioTaken data total addr len off).length ≤ 0x1000 := by
  intro n
  induction n with
  | zero =>
    intro off hn hoff
    rw [(ioWriteLoop_done data total addr (show len ≤ off by omega)).2, List.length_nil]
    omega
  | succ n ih =>
    intro off hn hoff
    rcases Nat.lt_or_ge off len with hlt | hge
    · have hpos := accessWidth_pos (addr + off)
      have hnext := (accessWidth_next (addr + off)).2
      have hle : accessWidth (addr + off) ≤ 4 := by
        unfold accessWidth
        split_ifs <;> omega
      rw [ioTaken, if_pos hlt, List.length_append, Memory.read_length]
      rcases Nat.lt_or_ge (off + accessWidth (addr + off)) len with hmore | hend
      · have := ih (off + accessWidth (addr + off)) (by omega) hmore.le
        omega
      · rw [(ioWriteLoop_done data total addr hend).2, List.length_nil]
        omega
    · rw [(ioWriteLoop_done data total addr hge).2, List.length_nil]
      omega

theorem puts_ioWriteLoop (data : Memory UInt8) (total : Nat) {addr len : Nat} (haddr : addr < 2 ^ 32)
    (hpage : addr % 0x1000 + len ≤ 0x1000) : ∀ n off : Nat, len - off ≤ n →
      Memory.Puts (2 ^ 32) (ioWriteLoop data total addr len off) (word (addr + off)) (ioTaken data total addr len off) := by
  intro n
  induction n with
  | zero =>
    intro off hn
    obtain ⟨hwrites, htaken⟩ := ioWriteLoop_done data total addr (show len ≤ off by omega)
    rw [hwrites, htaken]
    exact .nil _ _
  | succ n ih =>
    intro off hn
    rcases Nat.lt_or_ge off len with hlt | hge
    · have hpos := accessWidth_pos (addr + off)
      have hnext := (accessWidth_next (addr + off)).2
      have hin : addr + off < 2 ^ 32 := by omega
      have hlength := ioTaken_length data total hpage _ _ le_rfl hlt.le
      have hrest := ih (off + accessWidth (addr + off)) (by omega)
      rw [ioTaken, if_pos hlt, List.length_append, Memory.read_length] at hlength
      rw [← Nat.add_assoc] at hrest
      rw [ioWriteLoop_access data total hlt hin, ioTaken, if_pos hlt,
        show word (addr + off) = addr + off from Nat.mod_eq_of_lt hin]
      refine (Memory.Puts.single ?_).append ?_ hin ?_
      · rw [Memory.read_length]
        omega
      · rw [Memory.read_length]
        exact hrest
      · rw [Memory.read_length]
        omega
    · obtain ⟨hwrites, htaken⟩ := ioWriteLoop_done data total addr hge
      rw [hwrites, htaken]
      exact .nil _ _

theorem pieceTaken_length (data : Memory UInt8) (total : Nat) {addr nb : Nat} (hpage : addr % 0x1000 + nb ≤ 0x1000) :
    nb ≤ (pieceTaken data total addr nb).length ∧ (pieceTaken data total addr nb).length ≤ nb + 3 ∧
      addr % 0x1000 + (pieceTaken data total addr nb).length ≤ 0x1000 := by
  unfold pieceTaken
  split
  · have := ioTaken_length data total hpage _ _ le_rfl (Nat.zero_le nb)
    omega
  · rw [Memory.read_length]
    omega

theorem puts_pieceWrites (data : Memory UInt8) (total : Nat) {addr nb : Nat} (haddr : addr < 2 ^ 32)
    (hpage : addr % 0x1000 + nb ≤ 0x1000) :
    Memory.Puts (2 ^ 32) (pieceWrites data total addr nb) addr (pieceTaken data total addr nb) := by
  unfold pieceWrites pieceTaken
  split
  · have h := puts_ioWriteLoop data total haddr hpage _ 0 le_rfl
    rwa [Nat.add_zero, word, Nat.mod_eq_of_lt haddr] at h
  · refine .single ?_
    rw [Memory.read_length]
    omega

/-! ## Where the loop over registers is right -/

/-- An access of the loop begins at the offset. -/
def BeginsAccess (addr off : Nat) : Prop := off = 0 ∨ (addr % 4 = 1 ∧ off = 1) ∨ (addr + off) % 4 = 0

/-- Each access ends in the piece, and the bytes at its scaled offset are those that belong there. -/
def RegistersRight (data : Memory UInt8) (total addr nb : Nat) : Prop :=
  ∀ off < nb, BeginsAccess addr off → off + accessWidth (addr + off) ≤ nb ∧
    ∀ i < accessWidth (addr + off), data (total + accessWidth (addr + off) * off + i) = data (total + off + i)

/-- No access begins before another ends. -/
theorem beginsAccess_next {addr off off' : Nat} (hlt : off < off') (h' : BeginsAccess addr off') :
    off + accessWidth (addr + off) ≤ off' := by
  unfold BeginsAccess at h'
  unfold accessWidth
  split_ifs <;> omega

theorem beginsAccess_end {addr off : Nat} (h : BeginsAccess addr off) : BeginsAccess addr (off + accessWidth (addr + off)) := by
  unfold BeginsAccess at h ⊢
  unfold accessWidth
  split_ifs <;> omega

theorem ioTaken_eq_iff (data : Memory UInt8) (total : Nat) {addr len : Nat} (hpage : addr % 0x1000 + len ≤ 0x1000) :
    ∀ n off : Nat, len - off ≤ n → off ≤ len → BeginsAccess addr off →
      (ioTaken data total addr len off = data.read (total + off) (len - off) ↔
        ∀ off', off ≤ off' → off' < len → BeginsAccess addr off' → off' + accessWidth (addr + off') ≤ len ∧
          ∀ i < accessWidth (addr + off'), data (total + accessWidth (addr + off') * off' + i) = data (total + off' + i)) := by
  intro n
  induction n with
  | zero =>
    intro off hn _ _
    rw [(ioWriteLoop_done data total addr (show len ≤ off by omega)).2, show len - off = 0 by omega]
    refine ⟨fun _ off' => ?_, fun _ => rfl⟩
    omega
  | succ n ih =>
    intro off hn hoff hbegins
    rcases Nat.lt_or_ge off len with hlt | hge
    · have hpos := accessWidth_pos (addr + off)
      rcases Nat.lt_or_ge len (off + accessWidth (addr + off)) with hover | hfits
      · -- the last access goes behind the end of the piece
        have hlength := ioTaken_length data total hpage _ off le_rfl hoff
        constructor
        · intro h
          rw [ioTaken, if_pos hlt, List.length_append] at hlength
          have := congrArg List.length h
          rw [ioTaken, if_pos hlt, List.length_append, Memory.read_length, Memory.read_length] at this
          omega
        · intro h
          have := (h off le_rfl hlt hbegins).1
          omega
      · have hrest := ih (off + accessWidth (addr + off)) (by omega) hfits (beginsAccess_end hbegins)
        have hsplit : data.read (total + off) (len - off) = data.read (total + off) (accessWidth (addr + off)) ++
            data.read (total + (off + accessWidth (addr + off))) (len - (off + accessWidth (addr + off))) := by
          rw [← Nat.add_assoc, ← data.read_add]
          congr 1
          omega
        rw [ioTaken, if_pos hlt, hsplit]
        constructor
        · intro h off' hle hlt' hbegins'
          obtain ⟨hhere, hlater⟩ := List.append_inj h (by simp)
          rcases Nat.eq_or_lt_of_le hle with rfl | hafter
          · exact ⟨hfits, Memory.read_eq_iff.mp hhere⟩
          · exact hrest.mp hlater off' (beginsAccess_next hafter hbegins') hlt' hbegins'
        · intro h
          rw [Memory.read_eq_iff.mpr (h off le_rfl hlt hbegins).2, hrest.mpr fun off' hle => h off' (by omega)]
    · rw [(ioWriteLoop_done data total addr hge).2, show len - off = 0 by omega]
      refine ⟨fun _ off' => ?_, fun _ => rfl⟩
      omega

/-- What a page gets is what it should get. -/
theorem pieceTaken_eq_iff (data : Memory UInt8) (total : Nat) {addr nb : Nat} (hpage : addr % 0x1000 + nb ≤ 0x1000) :
    pieceTaken data total addr nb = data.read total nb ↔ (inIo addr = true → RegistersRight data total addr nb) := by
  unfold pieceTaken
  split
  · rename_i hio
    have h := ioTaken_eq_iff data total hpage _ 0 le_rfl (Nat.zero_le nb) (Or.inl rfl)
    simp only [Nat.add_zero, Nat.sub_zero, Nat.zero_le, true_imp_iff] at h
    simp only [hio, true_imp_iff]
    exact h
  · simp_all

/-! ## The pages of a request -/

/-- The part of a request that is on one page. -/
structure Piece where
  total : Nat
  addr : Nat
  nb : Nat

/-- The parts of a request, with `total` bytes in front of it. -/
def pieces (addr len total : Nat) : List Piece :=
  if 0 < len then
    ⟨total, addr, onPage addr len⟩ :: pieces (word (addr + onPage addr len)) (len - onPage addr len) (total + onPage addr len)
  else []
termination_by len
decreasing_by
  have := onPage_pos addr (show 0 < len by assumption)
  omega

theorem pieces_none (addr total : Nat) : pieces addr 0 total = [] := by
  rw [pieces, if_neg (lt_irrefl 0)]

/-- What a request of so many bytes takes from the buffer. -/
def taken (data : Memory UInt8) (addr len total : Nat) : List UInt8 :=
  (pieces addr len total).flatMap fun p => pieceTaken data p.total p.addr p.nb

theorem taken_pos (data : Memory UInt8) (addr total : Nat) {len : Nat} (h : 0 < len) :
    taken data addr len total = pieceTaken data total addr (onPage addr len) ++
      taken data (word (addr + onPage addr len)) (len - onPage addr len) (total + onPage addr len) := by
  unfold taken
  rw [pieces, if_pos h, List.flatMap_cons]

/-- A part that ends its page gets as many bytes as it has. -/
theorem pieceTaken_more (data : Memory UInt8) (total : Nat) {addr nb : Nat} (hpage : addr % 0x1000 + nb = 0x1000) :
    (pieceTaken data total addr nb).length = nb := by
  have := pieceTaken_length data total hpage.le
  omega

theorem taken_last (data : Memory UInt8) {addr len : Nat} (total : Nat) (h : onPage addr len = len) :
    taken data addr len total = pieceTaken data total addr len := by
  rcases Nat.eq_zero_or_pos len with rfl | hpos
  · have hnothing : pieceTaken data total addr 0 = [] := by
      unfold pieceTaken
      rw [(ioWriteLoop_done data total addr le_rfl).2]
      exact ite_self _
    rw [taken, pieces_none, hnothing]
    rfl
  · rw [taken_pos data addr total hpos, h, Nat.sub_self, taken, pieces_none, List.flatMap_nil, List.append_nil]

theorem taken_length (data : Memory UInt8) (len : Nat) : ∀ addr total, (taken data addr len total).length ≤ len + 3 := by
  induction len using Nat.strong_induction_on with
  | _ len ih =>
    intro addr total
    have hle := onPage_le addr len
    have hpage := onPage_fits addr len
    rcases Nat.lt_or_ge (onPage addr len) len with hmore | hlast
    · have hpos := onPage_pos addr (show 0 < len by omega)
      have hrest := ih (len - onPage addr len) (by omega) (word (addr + onPage addr len)) (total + onPage addr len)
      rw [taken_pos data addr total (by omega), List.length_append, pieceTaken_more data total (onPage_end hmore)]
      omega
    · have hall : onPage addr len = len := by omega
      rw [hall] at hpage
      have := pieceTaken_length data total hpage
      rw [taken_last data total hall]
      omega

/-- A request takes the bytes that it should if each of its parts on a page of registers does. -/
theorem taken_eq_iff (data : Memory UInt8) (len : Nat) : ∀ addr total,
    taken data addr len total = data.read total len ↔
      ∀ p ∈ pieces addr len total, inIo p.addr = true → RegistersRight data p.total p.addr p.nb := by
  induction len using Nat.strong_induction_on with
  | _ len ih =>
    intro addr total
    rcases Nat.eq_zero_or_pos len with rfl | hpos
    · simp [taken, pieces_none, Memory.read]
    · have hle := onPage_le addr len
      have hpage := onPage_fits addr len
      have hhere := pieceTaken_eq_iff data total hpage
      have hlater := ih (len - onPage addr len) (by have := onPage_pos addr hpos; omega) (word (addr + onPage addr len))
        (total + onPage addr len)
      have hsplit : data.read total len = data.read total (onPage addr len) ++
          data.read (total + onPage addr len) (len - onPage addr len) := by
        rw [← data.read_add, Nat.add_sub_cancel' hle]
      rw [taken_pos data addr total hpos, pieces, if_pos hpos, List.forall_mem_cons, ← hhere, ← hlater, hsplit]
      constructor
      · intro h
        rcases Nat.lt_or_ge (onPage addr len) len with hmore | hlast
        · exact List.append_inj h (by rw [pieceTaken_more data total (onPage_end hmore), Memory.read_length])
        · rw [show len - onPage addr len = 0 by omega] at h ⊢
          simp only [taken, pieces_none, List.flatMap_nil, List.append_nil, Memory.read, List.range_zero, List.map_nil] at h ⊢
          exact ⟨h, trivial⟩
      · rintro ⟨hfirst, hrest⟩
        rw [hfirst, hrest]

/-! ## A whole request -/

namespace TargetMemory

/-- Nothing can be accessed where the first byte cannot. -/
theorem readablePrefix_none {target : TargetMemory} {addr : Nat} (haddr : addr < 2 ^ 32) (h : target.readable addr = false)
    (len : Nat) : target.readablePrefix addr len = 0 := by
  rw [readablePrefix_eq_iff]
  refine ⟨Nat.zero_le _, fun i hi => absurd hi (Nat.not_lt_zero i), fun _ => ?_⟩
  rwa [Nat.add_zero, word, Nat.mod_eq_of_lt haddr]

/-- Otherwise the page can be accessed, and the rest of the request is another one. -/
theorem readablePrefix_page {target : TargetMemory} {addr : Nat} (haddr : addr < 2 ^ 32) (h : target.readable addr = true)
    (len : Nat) : target.readablePrefix addr len =
      onPage addr len + target.readablePrefix (word (addr + onPage addr len)) (len - onPage addr len) := by
  obtain ⟨hle, hall, hend⟩ := target.readablePrefix_eq_iff.mp
    (Eq.refl (target.readablePrefix (word (addr + onPage addr len)) (len - onPage addr len)))
  have hfits := onPage_fits addr len
  have hnb := onPage_le addr len
  rw [readablePrefix_eq_iff]
  refine ⟨by omega, fun i hi => ?_, fun hlt => ?_⟩
  · rcases Nat.lt_or_ge i (onPage addr len) with hin | hout
    · rw [← h]
      apply target.readable_page
      unfold word
      omega
    · have hbyte := hall (i - onPage addr len) (by omega)
      rwa [word_word_add, Nat.add_sub_cancel' hout] at hbyte
  · have hbyte := hend (by omega)
    rwa [word_word_add] at hbyte

/-- The address at which a write is tried for ever, if it comes to that: the first one that cannot be accessed. A request
of nothing is tried, too. -/
def Stuck (target : TargetMemory) (addr len : Nat) : Prop :=
  (target.readablePrefix addr len < len ∨ len = 0) ∧ target.unbacked (word (addr + target.readablePrefix addr len)) = true

end TargetMemory

theorem onPage_add {addr len k : Nat} (h : k ≤ len - onPage addr len) : onPage addr (onPage addr len + k) = onPage addr len := by
  unfold onPage at *
  split_ifs at * <;> omega

/-- The rest of a request is stuck where the request is. -/
theorem stuck_page {addr len : Nat} (haddr : addr < 2 ^ 32) (h : target.readable addr = true)
    (hmore : 0 < len - onPage addr len) :
    target.Stuck addr len ↔ target.Stuck (word (addr + onPage addr len)) (len - onPage addr len) := by
  unfold TargetMemory.Stuck
  rw [TargetMemory.readablePrefix_page haddr h]
  rw [word_word_add]
  exact and_congr_left' (by omega)

theorem writeTargetMemory_stuck (data : Memory UInt8) (calls len : Nat) : ∀ addr total, addr < 2 ^ 32 → target.Stuck addr len →
    writeTargetMemory target data calls addr len total = none := by
  induction len using Nat.strong_induction_on with
  | _ len ih =>
    intro addr total haddr hstuck
    have hhere : word (addr + 0) = addr := Nat.mod_eq_of_lt haddr
    rw [writeTargetMemory]
    cases hunbacked : target.unbacked addr with
    | true => rw [writeTargetMemoryInPage_unbacked hunbacked]
    | false =>
      cases calls with
      | zero => rfl
      | succ calls =>
        rw [writeTargetMemoryInPage_eq hunbacked]
        obtain ⟨hshort, hat⟩ := id hstuck
        cases hread : target.readable addr with
        | false =>
          rw [TargetMemory.readablePrefix_none haddr hread, hhere, hunbacked] at hat
          cases hat
        | true =>
          have hmore : 0 < len - onPage addr len := by
            rcases Nat.eq_zero_or_pos len with rfl | _
            · rw [show target.readablePrefix addr 0 = 0 from Nat.findGreatest_zero, hhere, hunbacked] at hat
              cases hat
            · rw [TargetMemory.readablePrefix_page haddr hread] at hshort
              omega
          have hpos := onPage_pos addr (show 0 < len by omega)
          simp only [if_true, if_pos hmore]
          rw [ih (len - onPage addr len) (by omega) (word (addr + onPage addr len)) _ (Nat.mod_lt _ (by decide))
            ((stuck_page haddr hread hmore).mp hstuck)]
          rfl

theorem unbacked_of_not_stuck {addr len : Nat} (haddr : addr < 2 ^ 32) (hstuck : ¬target.Stuck addr len) :
    target.unbacked addr = false := by
  by_contra h
  have h : target.unbacked addr = true := Bool.not_eq_false _ ▸ h
  have hnone := TargetMemory.readablePrefix_none haddr (TargetMemory.readable_of_unbacked h) len
  refine hstuck ⟨?_, ?_⟩
  · rw [hnone]
    exact (Nat.eq_zero_or_pos len).symm
  · rw [hnone, Nat.add_zero, show word addr = addr from Nat.mod_eq_of_lt haddr, h]

/-- Where no write is tried for ever, what can be written is written. -/
theorem writeTargetMemory_puts (data : Memory UInt8) (calls len : Nat) : ∀ addr total, addr < 2 ^ 32 → len + 3 ≤ 2 ^ 32 →
    ¬target.Stuck addr len → ∃ writes,
      writeTargetMemory target data (calls + 1) addr len total = some (writes, total + target.readablePrefix addr len) ∧
        Memory.Puts (2 ^ 32) writes addr (taken data addr (target.readablePrefix addr len) total) := by
  induction len using Nat.strong_induction_on with
  | _ len ih =>
    intro addr total haddr hlen hstuck
    have hnothing : taken data addr 0 total = [] := by rw [taken, pieces_none, List.flatMap_nil]
    rw [writeTargetMemory, writeTargetMemoryInPage_eq (unbacked_of_not_stuck haddr hstuck)]
    cases hread : target.readable addr with
    | false =>
      rw [TargetMemory.readablePrefix_none haddr hread, hnothing]
      exact ⟨[], rfl, .nil _ _⟩
    | true =>
      have hle := onPage_le addr len
      have hpiece := puts_pieceWrites data total haddr (onPage_fits addr len)
      simp only [if_true]
      rw [TargetMemory.readablePrefix_page haddr hread]
      rcases Decidable.em (0 < len - onPage addr len) with hmore | hlast
      · have hpos := onPage_pos addr (show 0 < len by omega)
        obtain ⟨writes, heq, hputs⟩ := ih (len - onPage addr len) (by omega) (word (addr + onPage addr len))
          (total + onPage addr len) (Nat.mod_lt _ (by decide)) (by omega) fun h => hstuck ((stuck_page haddr hread hmore).mpr h)
        have hk := (target.readablePrefix_eq_iff.mp
          (Eq.refl (target.readablePrefix (word (addr + onPage addr len)) (len - onPage addr len)))).1
        have hlength := taken_length data (target.readablePrefix (word (addr + onPage addr len)) (len - onPage addr len))
          (word (addr + onPage addr len)) (total + onPage addr len)
        refine ⟨pieceWrites data total addr (onPage addr len) ++ writes, ?_, ?_⟩
        · rw [if_pos hmore, heq, Option.map_some, Nat.add_assoc]
        · rw [taken_pos data addr total (by omega), onPage_add hk, Nat.add_sub_cancel_left]
          refine hpiece.append ?_ haddr ?_
          · rwa [pieceTaken_more data total (onPage_end (by omega))]
          · rw [pieceTaken_more data total (onPage_end (by omega))]
            omega
      · rw [if_neg hlast, show len - onPage addr len = 0 by omega, show onPage addr len = len by omega,
          show target.readablePrefix (word (addr + len)) 0 = 0 from Nat.findGreatest_zero]
        rw [show onPage addr len = len by omega] at hpiece
        refine ⟨_, rfl, ?_⟩
        rwa [Nat.add_zero, taken_last data total (by omega)]

/-! ## The bytes that arrive -/

/-- No page is tried for ever, and the loop over registers is right on each page of them that is reached. -/
def Transferable (target : TargetMemory) (data : Memory UInt8) (addr len : Nat) : Prop :=
  ¬target.Stuck addr len ∧
    ∀ p ∈ pieces addr (target.readablePrefix addr len) 0, inIo p.addr = true → RegistersRight data p.total p.addr p.nb

/-- The longest prefix of the buffer that can be written is written, nothing else is, and the reply says if that was all. -/
def WritesPrefix (target : TargetMemory) (bytes : List UInt8) (addr : Nat) (writes : List (Write UInt8))
    (reply : WriteReply) : Prop :=
  Memory.Puts (2 ^ 32) writes addr (bytes.take (target.readablePrefix addr bytes.length)) ∧
    reply = if target.readablePrefix addr bytes.length = bytes.length then .ok else .errno 14

theorem gdbWriteMemory_iff (target : TargetMemory) (data : Memory UInt8) (addr : UInt32) {len : UInt32}
    (hlen : len.toNat + 3 ≤ 2 ^ 32) :
    (∃ calls writes reply, gdbWriteMemory target data calls addr len = some (writes, reply) ∧
      WritesPrefix target (data.read 0 len.toNat) addr.toNat writes reply) ↔
      Transferable target data addr.toNat len.toNat := by
  have hk := (target.readablePrefix_eq_iff.mp (Eq.refl (target.readablePrefix addr.toNat len.toNat))).1
  have htake : (data.read 0 len.toNat).take (target.readablePrefix addr.toNat len.toNat) =
      data.read 0 (target.readablePrefix addr.toNat len.toNat) := data.read_take 0 hk
  unfold gdbWriteMemory WritesPrefix Transferable
  rw [Memory.read_length, htake, ← taken_eq_iff]
  constructor
  · rintro ⟨calls, writes, reply, heq, hputs, -⟩
    have hstuck : ¬target.Stuck addr.toNat len.toNat := by
      intro hstuck
      rw [writeTargetMemory_stuck data calls len.toNat _ _ addr.toNat_lt hstuck] at heq
      cases heq
    refine ⟨hstuck, ?_⟩
    cases calls with
    | zero =>
      rw [writeTargetMemory, writeTargetMemoryInPage] at heq
      cases heq
    | succ calls =>
      obtain ⟨writes', heq', hputs'⟩ := writeTargetMemory_puts data calls len.toNat addr.toNat 0 addr.toNat_lt hlen hstuck
      rw [heq', Option.map_some, Option.some.injEq, Prod.mk.injEq] at heq
      obtain ⟨rfl, -⟩ := heq
      have hlength := taken_length data (target.readablePrefix addr.toNat len.toNat) addr.toNat 0
      have : Nontrivial UInt8 := ⟨0, 1, by decide⟩
      refine (hputs'.unique addr.toNat_lt (by omega) ?_).mp hputs
      rw [Memory.read_length]
      omega
  · rintro ⟨hstuck, htaken⟩
    obtain ⟨writes, heq, hputs⟩ := writeTargetMemory_puts data 0 len.toNat addr.toNat 0 addr.toNat_lt hlen hstuck
    rw [htaken] at hputs
    refine ⟨1, writes, _, ?_, hputs, rfl⟩
    rw [heq, Option.map_some, Nat.zero_add]
    simp only [ne_eq, ite_not]

end Omiiba.Rosalina
