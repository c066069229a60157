/-
The transfers between the debugger's buffers and the target, after mem.c: which byte goes where in the loops over
registers, and what of a request of many pages is transferred.
-/
import Omiiba.Rosalina.GdbWrite

namespace Omiiba.Rosalina

/-! ## Registers -/

/-- An access of a loop over registers: the address in the target, the offset in the buffer, and how many bytes. -/
structure RegisterAccess where
  addr : Nat
  off : Nat
  width : Nat
  deriving DecidableEq

/-- The accesses of the loops, which are the same for reading and for writing. -/
def registerAccesses (addr len off : Nat) : List RegisterAccess :=
  if off < len then
    ⟨addr + off, accessWidth (word (addr + off)) * off, accessWidth (word (addr + off))⟩ ::
      registerAccesses addr len (off + accessWidth (word (addr + off)))
  else []
termination_by len - off
decreasing_by
  have := accessWidth_pos (word (addr + off))
  omega

namespace RegisterAccess

/-- The bytes of an access: of each one the address and its place in the buffer. -/
def bytes (a : RegisterAccess) : List (Nat × Nat) := (List.range a.width).map fun i => (word (a.addr + i), a.off + i)

/-- Reading: what it puts into the buffer. -/
def read (target : TargetMemory) (a : RegisterAccess) : Write UInt8 := ⟨a.off, target.bytes a.addr a.width⟩

/-- Writing: what it puts into the target. -/
def write (data : Memory UInt8) (total : Nat) (a : RegisterAccess) : Write UInt8 := ⟨a.addr, data.read (total + a.off) a.width⟩

end RegisterAccess

theorem registerAccesses_done (addr : Nat) {len off : Nat} (h : len ≤ off) : registerAccesses addr len off = [] := by
  rw [registerAccesses, if_neg (Nat.not_lt.mpr h)]

theorem registerAccesses_step (addr : Nat) {len off : Nat} (h : off < len) : registerAccesses addr len off =
    ⟨addr + off, accessWidth (word (addr + off)) * off, accessWidth (word (addr + off))⟩ ::
      registerAccesses addr len (off + accessWidth (word (addr + off))) := by
  rw [registerAccesses, if_pos h]

theorem ioLoop_eq (target : TargetMemory) (addr len : Nat) : ∀ off, ioLoop target addr len off =
    (registerAccesses addr len off).map (RegisterAccess.read target) := by
  intro off
  fun_induction registerAccesses addr len off with
  | case1 off h ih =>
    rw [ioLoop_access target addr h, ih, List.map_cons]
    rfl
  | case2 off h => exact ioLoop_done target addr (Nat.not_lt.mp h)

theorem ioWriteLoop_eq (data : Memory UInt8) (total addr len : Nat) : ∀ off, ioWriteLoop data total addr len off =
    (registerAccesses addr len off).map (RegisterAccess.write data total) := by
  intro off
  fun_induction registerAccesses addr len off with
  | case1 off h ih =>
    rw [ioWriteLoop, if_pos h, List.map_cons, ← ih]
    unfold RegisterAccess.write accessWidth
    split
    · simp
    · split <;> rfl
  | case2 off h => exact (ioWriteLoop_done data total addr (Nat.not_lt.mp h)).1

/-- Byte `k` of the buffer belongs to the address `addr + k`; each of the `len` bytes is transferred once, and no other. -/
def TransfersAll (addr len : Nat) : Prop :=
  ((registerAccesses addr len 0).flatMap RegisterAccess.bytes).Perm ((List.range len).map fun k => (word (addr + k), k))

/-- The loops are right only where they access nothing, or all of it at once. -/
theorem transfersAll_iff {addr len : Nat} (haddr : addr < 2 ^ 32) : TransfersAll addr len ↔ len = 0 ∨ len = accessWidth addr := by
  have hword : word (addr + 0) = addr := Nat.mod_eq_of_lt haddr
  unfold TransfersAll
  rcases Nat.eq_zero_or_pos len with rfl | hpos
  · simp [registerAccesses_done]
  simp only [hpos.ne', false_or]
  constructor
  · intro hperm
    rcases Nat.lt_trichotomy len (accessWidth addr) with hless | heq | hmore
    · -- the first access goes behind the end
      have hlength := hperm.length_eq
      rw [registerAccesses_step addr hpos, hword, Nat.zero_add, registerAccesses_done addr hless.le] at hlength
      simp [RegisterAccess.bytes] at hlength
      omega
    · exact heq
    · -- the byte behind the first access is in no other one, as offsets are scaled
      have hmem : (word (addr + accessWidth addr), accessWidth addr) ∈
          (registerAccesses addr len 0).flatMap RegisterAccess.bytes :=
        hperm.mem_iff.mpr (List.mem_map.mpr ⟨accessWidth addr, List.mem_range.mpr hmore, rfl⟩)
      obtain ⟨a, ha, hbyte⟩ := List.mem_flatMap.mp hmem
      obtain ⟨i, hi, hplace⟩ := List.mem_map.mp hbyte
      have hi := List.mem_range.mp hi
      have hoff : a.off + i = accessWidth addr := (Prod.mk.inj hplace).2
      refine absurd ?_ (ioLoop_hole allMapped haddr hmore (a.read allMapped) ?_)
      · constructor
        · show a.off ≤ accessWidth addr
          omega
        · simp only [RegisterAccess.read, Write.stop, TargetMemory.bytes_length]
          omega
      · rw [ioLoop_eq]
        exact List.mem_map_of_mem ha
  · rintro rfl
    rw [registerAccesses_step addr hpos, hword, Nat.zero_add, registerAccesses_done addr le_rfl]
    simp [RegisterAccess.bytes]

theorem inIo_high {addr : Nat} (h : inIo addr = true) (target : TargetMemory) : ¬addr < target.userLimit ∧ inWindow addr = true := by
  have hlimit := target.userLimit_le
  unfold inIo at h
  unfold inWindow
  rw [decide_eq_true_iff] at *
  omega

/-- The accesses to registers of the two helpers, and when each byte is where it belongs. -/
theorem registers_transferred_iff (target : TargetMemory) (data : Memory UInt8) {addr : Nat} (len : Nat) (hio : inIo addr = true)
    (hext : target.enableExternalMemoryAccess = true) :
    readTargetMemoryInPage target addr len = some ((registerAccesses addr len 0).map (RegisterAccess.read target)) ∧
      writeTargetMemoryInPage target data 0 addr len 1 =
        some (some ((registerAccesses addr len 0).map (RegisterAccess.write data 0))) ∧
      (TransfersAll addr len ↔ len = 0 ∨ len = accessWidth addr) := by
  obtain ⟨hhigh, hwindow⟩ := inIo_high hio target
  refine ⟨?_, ?_, transfersAll_iff ?_⟩
  · unfold readTargetMemoryInPage
    simp [hhigh, hwindow, hio, hext, ioLoop_eq]
  · unfold writeTargetMemoryInPage
    simp [hhigh, hwindow, hio, hext, ioWriteLoop_eq]
  · unfold inIo at hio
    rw [decide_eq_true_iff] at hio
    omega

/-- A process whose debugger may access everything. -/
def externalAccess : TargetMemory := ⟨1, Nat.one_pos, one_le_seven, fun _ => true, true, fun _ => true, fun _ => 0⟩

/-- A register of four bytes. -/
theorem registers_transferred_word :
    readTargetMemoryInPage externalAccess 0x90000000 4 =
        some ((registerAccesses 0x90000000 4 0).map (RegisterAccess.read externalAccess)) ∧
      writeTargetMemoryInPage externalAccess (fun _ => 0) 0 0x90000000 4 1 =
        some (some ((registerAccesses 0x90000000 4 0).map (RegisterAccess.write (fun _ => 0) 0))) ∧
      (TransfersAll 0x90000000 4 ↔ 4 = 0 ∨ 4 = accessWidth 0x90000000) :=
  registers_transferred_iff externalAccess (fun _ => 0) 4 (by decide) rfl

/-- Two words: the second one is 16 bytes further on in the buffer, and not 4. -/
theorem secondRegister_misplaced :
    registerAccesses 0x90000000 8 0 = [⟨0x90000000, 0, 4⟩, ⟨0x90000004, 16, 4⟩] ∧ ¬TransfersAll 0x90000000 8 := by
  constructor
  · rw [registerAccesses_step _ (by decide), registerAccesses_step _ (by decide), registerAccesses_done _ (by decide)]
    rfl
  · rw [transfersAll_iff (by decide)]
    decide

/-! ## Requests of many pages -/

section

variable {β : Type*}

/-- Where all parts but the last one have the length that they should, all of them are right if their sequence is. -/
theorem pieces_flatMap_eq_iff {got want : Piece → List β}
    (hlength : ∀ p : Piece, p.addr < 2 ^ 32 → p.addr % 0x1000 + p.nb = 0x1000 → (got p).length = (want p).length) (len : Nat) :
    ∀ addr total, addr < 2 ^ 32 → ((pieces addr len total).flatMap got = (pieces addr len total).flatMap want ↔
      ∀ p ∈ pieces addr len total, got p = want p) := by
  -- each step takes the first page off, and the part on it is not empty
  induction len using Nat.strong_induction_on with
  | _ len ih =>
    intro addr total haddr
    rcases Nat.eq_zero_or_pos len with rfl | hpos
    · simp [pieces_none]
    have hnb := onPage_pos addr hpos
    have hlater := ih (len - onPage addr len) (by omega) (word (addr + onPage addr len)) (total + onPage addr len)
      (Nat.mod_lt _ (by decide))
    rw [pieces, if_pos hpos, List.flatMap_cons, List.flatMap_cons, List.forall_mem_cons, ← hlater]
    constructor
    · intro h
      rcases Nat.lt_or_ge (onPage addr len) len with hmore | hlast
      · -- a first part that is not the last one ends where it should
        exact List.append_inj h (hlength _ haddr (onPage_end hmore))
      · rw [show len - onPage addr len = 0 by omega] at h ⊢
        simpa [pieces_none] using h
    · rintro ⟨hfirst, hrest⟩
      rw [hfirst, hrest]

/-- The bytes of the parts are those of the request. -/
theorem pieces_bytes (f : Nat → Nat → β) (len : Nat) : ∀ addr total,
    ((pieces addr len total).flatMap fun p => (List.range p.nb).map fun i => f (word (p.addr + i)) (p.total + i)) =
      (List.range len).map fun i => f (word (addr + i)) (total + i) := by
  induction len using Nat.strong_induction_on with
  | _ len ih =>
    intro addr total
    rcases Nat.eq_zero_or_pos len with rfl | hpos
    · simp [pieces_none]
    have hnb := onPage_pos addr hpos
    have hle := onPage_le addr len
    rw [pieces, if_pos hpos, List.flatMap_cons, ih (len - onPage addr len) (by omega)]
    conv_rhs => rw [← Nat.add_sub_cancel' hle, List.range_add, List.map_append, List.map_map]
    simp only [word_word_add, Function.comp_def, Nat.add_assoc]

end

theorem pieces_pos {addr len total : Nat} {p : Piece} (h : p ∈ pieces addr len total) : 0 < p.nb := by
  fun_induction pieces addr len total with
  | case1 addr len total hpos ih =>
    rcases List.mem_cons.mp h with rfl | h
    · exact onPage_pos addr hpos
    · exact ih h
  | case2 => cases h

theorem pieces_fit {addr len total : Nat} (haddr : addr < 2 ^ 32) {p : Piece} (h : p ∈ pieces addr len total) :
    p.addr < 2 ^ 32 ∧ p.addr % 0x1000 + p.nb ≤ 0x1000 := by
  fun_induction pieces addr len total with
  | case1 addr len total hpos ih =>
    rcases List.mem_cons.mp h with rfl | h
    · exact ⟨haddr, onPage_fits addr len⟩
    · exact ih (Nat.mod_lt _ (by decide)) h
  | case2 => cases h

/-- The parts of what can be accessed come from the first page and from the rest. -/
theorem pieces_page {target : TargetMemory} {addr len : Nat} (haddr : addr < 2 ^ 32) (hread : target.readable addr = true)
    (hpos : 0 < len) (total : Nat) :
    pieces addr (target.readablePrefix addr len) total = ⟨total, addr, onPage addr len⟩ ::
      pieces (word (addr + onPage addr len))
        (target.readablePrefix (word (addr + onPage addr len)) (len - onPage addr len)) (total + onPage addr len) := by
  have hnb := onPage_pos addr hpos
  have hk := (target.readablePrefix_eq_iff.mp
    (Eq.refl (target.readablePrefix (word (addr + onPage addr len)) (len - onPage addr len)))).1
  rw [TargetMemory.readablePrefix_page haddr hread, pieces, if_pos (by omega), onPage_add hk, Nat.add_sub_cancel_left]

/-- What is read, page by page. -/
theorem readTargetMemory_eq (target : TargetMemory) (len : Nat) : ∀ addr total, addr < 2 ^ 32 → 0 < len →
    readTargetMemory target addr len total =
      ((pieces addr (target.readablePrefix addr len) total).flatMap fun p =>
          (pageWrites target p.addr p.nb).map (Write.shift p.total),
        total + target.readablePrefix addr len) := by
  -- a page that cannot be read ends the loop and the prefix at once
  induction len using Nat.strong_induction_on with
  | _ len ih =>
    intro addr total haddr hpos
    have hnb := onPage_pos addr hpos
    have hle := onPage_le addr len
    rw [readTargetMemory, readTargetMemoryInPage_eq]
    cases hread : target.readable addr with
    | false => simp [TargetMemory.readablePrefix_none haddr hread, pieces_none]
    | true =>
      rw [pieces_page haddr hread hpos, TargetMemory.readablePrefix_page haddr hread, List.flatMap_cons]
      simp only [if_true]
      rcases Decidable.em (0 < len - onPage addr len) with hmore | hlast
      · rw [if_pos hmore, ih (len - onPage addr len) (by omega) (word (addr + onPage addr len)) _ (Nat.mod_lt _ (by decide)) hmore,
          Nat.add_assoc]
      · have hnone : len - onPage addr len = 0 := by omega
        rw [if_neg hlast, hnone, show target.readablePrefix (word (addr + onPage addr len)) 0 = 0 from Nat.findGreatest_zero]
        simp [pieces_none]

/-- What is written, page by page, where no write is tried for ever. -/
theorem writeTargetMemory_eq {target : TargetMemory} (data : Memory UInt8) (calls len : Nat) : ∀ addr total, addr < 2 ^ 32 →
    0 < len → ¬target.Stuck addr len → writeTargetMemory target data (calls + 1) addr len total =
      some ((pieces addr (target.readablePrefix addr len) total).flatMap fun p => pieceWrites data p.total p.addr p.nb,
        total + target.readablePrefix addr len) := by
  induction len using Nat.strong_induction_on with
  | _ len ih =>
    intro addr total haddr hpos hstuck
    have hnb := onPage_pos addr hpos
    rw [writeTargetMemory, writeTargetMemoryInPage_eq (unbacked_of_not_stuck haddr hstuck)]
    cases hread : target.readable addr with
    | false => simp [TargetMemory.readablePrefix_none haddr hread, pieces_none]
    | true =>
      rw [pieces_page haddr hread hpos, TargetMemory.readablePrefix_page haddr hread, List.flatMap_cons]
      simp only [if_true]
      rcases Decidable.em (0 < len - onPage addr len) with hmore | hlast
      · rw [if_pos hmore, ih (len - onPage addr len) (by omega) (word (addr + onPage addr len)) _ (Nat.mod_lt _ (by decide)) hmore
          fun h => hstuck ((stuck_page haddr hread hmore).mpr h), Option.map_some, Nat.add_assoc]
      · have hnone : len - onPage addr len = 0 := by omega
        rw [if_neg hlast, hnone, show target.readablePrefix (word (addr + onPage addr len)) 0 = 0 from Nat.findGreatest_zero]
        simp [pieces_none]

/-! ## The bytes of a page -/

theorem bytes_cells (target : TargetMemory) (off addr n : Nat) : (⟨off, target.bytes addr n⟩ : Write UInt8).cells =
    (List.range n).map fun i => (off + i, target.byte (word (addr + i))) := Write.cells_range off n _

/-- What a page of registers is read to: where its bytes are, and that they are in their places only if one access is enough. -/
theorem pageWrites_cells_iff (target : TargetMemory) {p : Piece} (haddr : p.addr < 2 ^ 32) (hpos : 0 < p.nb) :
    ((pageWrites target p.addr p.nb).map (Write.shift p.total)).flatMap Write.cells =
        (List.range p.nb).map (fun i => (p.total + i, target.byte (word (p.addr + i)))) ↔
      (inIo p.addr = true → p.nb = accessWidth p.addr) := by
  have hword : word (p.addr + 0) = p.addr := Nat.mod_eq_of_lt haddr
  unfold pageWrites
  cases hio : inIo p.addr with
  | false => simp [Write.shift, bytes_cells]
  | true =>
    simp only [if_true, true_imp_iff]
    rw [ioLoop_access target p.addr hpos, hword]
    simp only [List.map_cons, List.flatMap_cons, Write.shift, Nat.mul_zero, Nat.add_zero, Nat.zero_add]
    constructor
    · intro h
      rcases Nat.lt_trichotomy p.nb (accessWidth p.addr) with hless | heq | hmore
      · -- one access reads more bytes than there should be
        have hlength := congrArg List.length h
        simp only [List.length_append, Write.cells_length, TargetMemory.bytes_length, List.length_map, List.length_range] at hlength
        omega
      · exact heq
      · -- the second access begins too far on
        have hwidth := accessWidth_pos p.addr
        have heven := accessWidth_even (show word (p.addr + accessWidth p.addr) % 2 = 0 by
          have := (accessWidth_next p.addr).1
          unfold word
          omega)
        rw [ioLoop_access target p.addr hmore, bytes_cells] at h
        simp only [List.map_cons, List.flatMap_cons, Write.shift, bytes_cells] at h
        have hcell := congrArg (fun cells => cells[accessWidth p.addr]?) h
        simp [hmore, show 0 < accessWidth (word (p.addr + accessWidth p.addr)) by omega] at hcell
        have hfar : accessWidth p.addr * 2 ≤ accessWidth (word (p.addr + accessWidth p.addr)) * accessWidth p.addr := by
          rw [Nat.mul_comm]
          exact Nat.mul_le_mul_right _ heven
        omega
    · intro heq
      rw [ioLoop_done target p.addr heq.le, heq]
      simp [bytes_cells]

/-- What the loop over registers writes, in order. -/
theorem ioWriteLoop_cells (data : Memory UInt8) (total : Nat) {addr len : Nat} (haddr : addr < 2 ^ 32)
    (hpage : addr % 0x1000 + len ≤ 0x1000) : ∀ off, (ioWriteLoop data total addr len off).flatMap Write.cells =
      (⟨addr + off, ioTaken data total addr len off⟩ : Write UInt8).cells := by
  intro off
  -- the writes follow each other without a gap, although what they take from the buffer does not
  fun_induction ioTaken data total addr len off with
  | case1 off h ih =>
    rw [ioWriteLoop_access data total h (by omega), List.flatMap_cons, ih, Write.cells_append, Memory.read_length, Nat.add_assoc]
  | case2 off h =>
    rw [(ioWriteLoop_done data total addr (Nat.not_lt.mp h)).1]
    rfl

theorem pieceWrites_cells (data : Memory UInt8) {p : Piece} (haddr : p.addr < 2 ^ 32) (hpage : p.addr % 0x1000 + p.nb ≤ 0x1000) :
    (pieceWrites data p.total p.addr p.nb).flatMap Write.cells =
      (⟨p.addr, pieceTaken data p.total p.addr p.nb⟩ : Write UInt8).cells := by
  unfold pieceWrites pieceTaken
  split
  · rw [ioWriteLoop_cells data p.total haddr hpage, Nat.add_zero]
  · simp

/-- Reading accesses as many bytes as writing does. -/
theorem pageWrites_length (target : TargetMemory) (data : Memory UInt8) {p : Piece} (haddr : p.addr < 2 ^ 32)
    (hpage : p.addr % 0x1000 + p.nb ≤ 0x1000) :
    ((pageWrites target p.addr p.nb).flatMap Write.cells).length = (pieceTaken data p.total p.addr p.nb).length := by
  rw [← Write.cells_length ⟨p.addr, pieceTaken data p.total p.addr p.nb⟩, ← pieceWrites_cells data haddr hpage]
  unfold pageWrites pieceWrites
  split
  · rw [ioLoop_eq, ioWriteLoop_eq]
    simp [List.length_flatMap, Function.comp_def, RegisterAccess.read, RegisterAccess.write]
  · simp

/-- What a page gets is right where the loop over registers is. -/
theorem pieceWrites_cells_iff (data : Memory UInt8) {p : Piece} (haddr : p.addr < 2 ^ 32) (hpage : p.addr % 0x1000 + p.nb ≤ 0x1000) :
    (pieceWrites data p.total p.addr p.nb).flatMap Write.cells =
        (List.range p.nb).map (fun i => (word (p.addr + i), data (p.total + i))) ↔
      (inIo p.addr = true → RegistersRight data p.total p.addr p.nb) := by
  have hwant : (List.range p.nb).map (fun i => (word (p.addr + i), data (p.total + i))) =
      (⟨p.addr, data.read p.total p.nb⟩ : Write UInt8).cells := by
    rw [Memory.read, Write.cells_range]
    refine List.map_congr_left fun i hi => ?_
    have := List.mem_range.mp hi
    rw [show word (p.addr + i) = p.addr + i from Nat.mod_eq_of_lt (by omega)]
  rw [hwant, pieceWrites_cells data haddr hpage, Write.cells_inj, pieceTaken_eq_iff data p.total hpage]

/-! ## What is transferred -/

/-- `GDB_ReadTargetMemory` returns the length of the longest prefix that can be read, and puts each of its bytes into its
place of the buffer, once, and nothing else. -/
def ReadsExactly (target : TargetMemory) (addr len : Nat) : Prop :=
  (readTargetMemory target addr len 0).2 = target.readablePrefix addr len ∧
    (readTargetMemory target addr len 0).1.flatMap Write.cells =
      (List.range (target.readablePrefix addr len)).map fun i => (i, target.byte (word (addr + i)))

/-- `GDB_WriteTargetMemory` returns, and what it returns is the length of the longest prefix that can be written; each of
its bytes is written to its address, once, and nothing else is. -/
def WritesExactly (target : TargetMemory) (data : Memory UInt8) (addr len : Nat) : Prop :=
  ∃ calls writes, writeTargetMemory target data calls addr len 0 = some (writes, target.readablePrefix addr len) ∧
    writes.flatMap Write.cells = (List.range (target.readablePrefix addr len)).map fun i => (word (addr + i), data i)

/-- The parts that are read are the bytes of the request exactly if each part is right. -/
theorem pageWrites_flatMap_iff (target : TargetMemory) {addr : Nat} (haddr : addr < 2 ^ 32) (k : Nat) :
    ((pieces addr k 0).flatMap fun p => ((pageWrites target p.addr p.nb).map (Write.shift p.total)).flatMap Write.cells) =
        ((List.range k).map fun i => (i, target.byte (word (addr + i)))) ↔
      ∀ p ∈ pieces addr k 0, inIo p.addr = true → p.nb = accessWidth p.addr := by
  have hbytes := pieces_bytes (fun a i => (i, target.byte a)) k addr 0
  simp only [Nat.zero_add] at hbytes
  rw [← hbytes, pieces_flatMap_eq_iff (fun p hp hpage => ?_) _ addr 0 haddr]
  · refine forall₂_congr fun p hp => ?_
    exact pageWrites_cells_iff target (pieces_fit haddr hp).1 (pieces_pos hp)
  · -- up to the end of a page there are as many bytes as there should be
    have hlength := pageWrites_length target (fun _ => 0) hp hpage.le
    rw [pieceTaken_more _ p.total hpage] at hlength
    simp only [List.length_flatMap, List.map_map, Function.comp_def, Write.cells_length, Write.shift_bytes, List.length_map,
      List.length_range] at hlength ⊢
    exact hlength

/-- And those that are written. -/
theorem pieceWrites_flatMap_iff (data : Memory UInt8) {addr : Nat} (haddr : addr < 2 ^ 32) (k : Nat) :
    ((pieces addr k 0).flatMap fun p => (pieceWrites data p.total p.addr p.nb).flatMap Write.cells) =
        ((List.range k).map fun i => (word (addr + i), data i)) ↔
      ∀ p ∈ pieces addr k 0, inIo p.addr = true → RegistersRight data p.total p.addr p.nb := by
  have hbytes := pieces_bytes (fun a i => (a, data i)) k addr 0
  simp only [Nat.zero_add] at hbytes
  rw [← hbytes, pieces_flatMap_eq_iff (fun p hp hpage => ?_) _ addr 0 haddr]
  · refine forall₂_congr fun p hp => ?_
    obtain ⟨hword, hfits⟩ := pieces_fit haddr hp
    exact pieceWrites_cells_iff data hword hfits
  · rw [pieceWrites_cells data hp hpage.le, Write.cells_length, pieceTaken_more data p.total hpage]
    simp

theorem readsExactly_iff (target : TargetMemory) {addr len : Nat} (haddr : addr < 2 ^ 32) : ReadsExactly target addr len ↔
    ∀ p ∈ pieces addr (target.readablePrefix addr len) 0, inIo p.addr = true → p.nb = accessWidth p.addr := by
  unfold ReadsExactly
  rcases Nat.eq_zero_or_pos len with rfl | hpos
  · -- the loop reads no bytes of the first page
    have hnb : onPage addr 0 = 0 := Nat.le_zero.mp (onPage_le addr 0)
    rw [readTargetMemory, readTargetMemoryInPage_eq, hnb, show target.readablePrefix addr 0 = 0 from Nat.findGreatest_zero,
      pieces_none]
    unfold pageWrites
    rw [ioLoop_done target addr le_rfl]
    cases target.readable addr <;> cases inIo addr <;> simp [Write.shift, Write.cells, TargetMemory.bytes]
  · rw [readTargetMemory_eq target len addr 0 haddr hpos, List.flatMap_assoc, pageWrites_flatMap_iff target haddr]
    simp only [Nat.zero_add, true_and]

theorem writesExactly_iff (target : TargetMemory) (data : Memory UInt8) {addr len : Nat} (haddr : addr < 2 ^ 32) :
    WritesExactly target data addr len ↔ Transferable target data addr len := by
  unfold WritesExactly Transferable
  by_cases hstuck : target.Stuck addr len
  · simp [hstuck, writeTargetMemory_stuck data _ len addr 0 haddr hstuck]
  simp only [hstuck, not_false_eq_true, true_and]
  rcases Nat.eq_zero_or_pos len with rfl | hpos
  · -- the loop writes no bytes of the first page
    have hnb : onPage addr 0 = 0 := Nat.le_zero.mp (onPage_le addr 0)
    rw [show target.readablePrefix addr 0 = 0 from Nat.findGreatest_zero, pieces_none]
    simp only [List.not_mem_nil, false_imp_iff, implies_true, iff_true]
    refine ⟨1, ?_⟩
    rw [writeTargetMemory, hnb, writeTargetMemoryInPage_eq (unbacked_of_not_stuck haddr hstuck)]
    unfold pieceWrites
    rw [(ioWriteLoop_done data 0 addr le_rfl).1]
    cases target.readable addr <;> cases inIo addr <;> simp [Write.cells, Memory.read]
  rw [← pieceWrites_flatMap_iff data haddr]
  constructor
  · rintro ⟨calls, writes, heq, hwrites⟩
    -- without a call nothing is returned, and one is enough
    cases calls with
    | zero =>
      rw [writeTargetMemory, writeTargetMemoryInPage] at heq
      cases heq
    | succ calls =>
      rw [writeTargetMemory_eq data calls len addr 0 haddr hpos hstuck, Option.some.injEq, Prod.mk.injEq] at heq
      rw [← hwrites, ← heq.1, List.flatMap_assoc]
  · intro hwrites
    refine ⟨1, _, writeTargetMemory_eq data 0 len addr 0 haddr hpos hstuck |>.trans (by rw [Nat.zero_add]), ?_⟩
    rw [List.flatMap_assoc]
    exact hwrites

/-- The two transfers: reading is right where each part of a request on a page of registers is one access, and writing where
no page is tried for ever and the accesses find the right bytes at their scaled offsets. -/
theorem transfers_exactly_iff (source dest : TargetMemory) (data : Memory UInt8) (addr len : UInt32) :
    (ReadsExactly source addr.toNat len.toNat ↔
      ∀ p ∈ pieces addr.toNat (source.readablePrefix addr.toNat len.toNat) 0, inIo p.addr = true → p.nb = accessWidth p.addr) ∧
    (WritesExactly dest data addr.toNat len.toNat ↔ Transferable dest data addr.toNat len.toNat) :=
  ⟨readsExactly_iff source addr.toNat_lt, writesExactly_iff dest data addr.toNat_lt⟩

/-- A process whose debugger may access everything, where kernel addresses do not translate. -/
def nothingPhysical : TargetMemory := ⟨1, Nat.one_pos, one_le_seven, fun _ => true, true, fun _ => false, fun _ => 0⟩

/-- A write to a kernel address that does not translate never returns, and eight bytes of registers are not read to the
first eight bytes of the buffer. -/
theorem transfer_fails :
    ¬WritesExactly nothingPhysical (fun _ => 0) 0xE0000000 4 ∧ ¬ReadsExactly externalAccess 0x90000000 8 := by
  constructor
  · rw [writesExactly_iff _ _ (by decide)]
    rintro ⟨hstuck, -⟩
    have hunbacked : nothingPhysical.unbacked 0xE0000000 = true := by decide
    rw [unbacked_of_not_stuck (by decide) hstuck] at hunbacked
    cases hunbacked
  · have hnb : onPage 0x90000000 8 = 8 := by decide
    have hk : externalAccess.readablePrefix 0x90000000 8 = 8 := by
      rw [TargetMemory.readablePrefix_page (by decide) (by decide), hnb]
      exact congrArg (8 + ·) Nat.findGreatest_zero
    rw [readsExactly_iff _ (by decide), hk]
    intro hall
    have hfirst : (⟨0, 0x90000000, 8⟩ : Piece) ∈ pieces 0x90000000 8 0 := by
      rw [pieces, if_pos (by decide), hnb]
      exact List.mem_cons_self
    exact absurd (hall _ hfirst (by decide)) (by decide)

end Omiiba.Rosalina
