/-
The handles of the debugged process, after ControlProcess.c and remote_command.c: the kernel extension puts them into an array of
the debugger, which makes a text of them.
-/
import Omiiba.Rosalina.GdbPacket
import Omiiba.Rosalina.GdbXfer
import Omiiba.Lib.Writes

namespace Omiiba.Rosalina

/-! ## The kernel extension -/

/-- `HandleDescriptor`: of the object the flags of its class token, where there is an object. -/
structure HandleDescriptor where
  info : UInt32
  pointer : Option UInt8

/-- `KProcessHandleTable`; the table in use has an entry for each handle that is counted. -/
structure KProcessHandleTable where
  handleTable : Option (List HandleDescriptor)
  internalTable : List HandleDescriptor
  /-- an `s16` -/
  maxHandleCount : Nat
  internal_length : internalTable.length = 40
  count_lt : maxHandleCount < 2 ^ 15
  count_le : maxHandleCount ≤ (handleTable.getD internalTable).length

/-- The entries that are looked at. -/
def KProcessHandleTable.entries (table : KProcessHandleTable) : List HandleDescriptor :=
  (table.handleTable.getD table.internalTable).take table.maxHandleCount

/-- The loop of `PROCESSOP_GET_ALL_HANDLES`, from entry `idx` and place `count` of the list on: what is written to the list, and how
many handles there are. -/
def getAllHandles (searchForToken : UInt32) (idx count : Nat) : List HandleDescriptor → List (Write UInt32) × Nat
  | [] => ([], count)
  | handleDesc :: table =>
    match handleDesc.pointer with
    | none => getAllHandles searchForToken (idx + 1) count table
    | some flags =>
      if searchForToken ≠ 0 ∧ searchForToken ≠ flags.toUInt32 then getAllHandles searchForToken (idx + 1) count table
      else
        let (writes, n) := getAllHandles searchForToken (idx + 1) (count + 1) table
        (⟨count, [UInt32.ofNat idx ||| ((handleDesc.info <<< 16) >>> 1)]⟩ :: writes, n)

/-! ## The debugger -/

/-- `%08lX`. -/
def upperHex (n : UInt32) : List UInt8 := (Hex.fixed 8 n.toNat).map fun c => if 0x61 ≤ c then c - 0x20 else c

/-- `sizeof(procHandles) / sizeof(Handle)`. -/
def procHandlesSize : Nat := 0x100

/-- `sizeof(outbuf)`. -/
def handlesOutbufSize : Nat := gdbBufLen / 2 + 1

/-- The loop over the handles, which stops where the text becomes long; the text is in `outbuf` and has a terminator behind it. -/
def handlesLoop (procHandles : Memory UInt32) (count i : Nat) (comma outbuf : List UInt8) : List UInt8 :=
  if i < count ∧ outbuf.length < gdbBufLen / 2 - 20 then
    let outbuf := outbuf ++ comma ++ ascii "0x" ++ upperHex (procHandles i)
    if (i + 1) % 8 = 0 then handlesLoop procHandles count (i + 1) [] (outbuf ++ ascii "\n")
    else handlesLoop procHandles count (i + 1) (ascii ", ") outbuf
  else outbuf
termination_by count - i

/-- How the process answers: it is not opened, or the call fails, or its table is gone through. -/
inductive HandlesAnswer
  | notOpened
  | failed (result : UInt32)
  | handles (table : KProcessHandleTable)

/-- What is written to `procHandles`, how many handles there are, and the text. -/
structure HandleListing where
  writes : List (Write UInt32)
  count : Nat
  outbuf : List UInt8

/-- `ListAllHandles`, for handles of the type `val` or, where it is 0, of any. -/
def listHandles (answer : HandlesAnswer) (procHandles : Memory UInt32) (val : UInt32) : HandleListing :=
  match answer with
  | .notOpened => ⟨[], 0, ascii "Invalid process (wtf?)\n"⟩
  | .failed result => ⟨[], 0, ascii "An error occured: " ++ upperHex result ++ ascii "\n"⟩
  | .handles table =>
    let (writes, count) := getAllHandles val 0 0 table.entries
    ⟨writes, count,
      if count = 0 then ascii "Process has no handles ?\n"
      else handlesLoop (procHandles.written writes) count 0 [] (ascii "Found " ++ decimal count ++ ascii " handles.\n")⟩

/-- The type of `ListAllHandles`, 0 if none is given; none where `EILSEQ` is replied. -/
def handleType (commandData : List UInt8) : Option UInt32 :=
  if commandData = [] then some 0
  else
    (xstrtoul (2 ^ 32) 0 true commandData).bind fun (val, endpos) =>
      if (commandData.drop endpos).dropWhile isSpace = [] then some (UInt32.ofNat val) else none

/-- `ListAllHandles`. -/
def listAllHandles (answer : HandlesAnswer) (procHandles : Memory UInt32) (commandData : List UInt8) : Option HandleListing :=
  (handleType commandData).map (listHandles answer procHandles)

/-- `GDB_SendHexPacket` sends a text of this length. -/
def HexPacketFits (len : Nat) : Prop := 4 + 2 * len ≤ gdbBufLen

/-! ## What is expected -/

/-- There is an object, of the type that is asked for. -/
def HandleDescriptor.Matches (searchForToken : UInt32) (handleDesc : HandleDescriptor) : Prop :=
  ∃ flags ∈ handleDesc.pointer, searchForToken = 0 ∨ searchForToken = flags.toUInt32

instance (searchForToken : UInt32) (handleDesc : HandleDescriptor) : Decidable (handleDesc.Matches searchForToken) :=
  match h : handleDesc.pointer with
  | none => .isFalse (by simp [HandleDescriptor.Matches, h])
  | some flags => decidable_of_iff (searchForToken = 0 ∨ searchForToken = flags.toUInt32) (by simp [HandleDescriptor.Matches, h])

/-- A handle: the index, and above it the low half of `info`. -/
def handleAt (handleDesc : HandleDescriptor) (idx : Nat) : UInt32 := UInt32.ofNat (handleDesc.info.toNat % 2 ^ 16 * 2 ^ 15 + idx)

/-- The handles that match, from index `idx` on, in order. -/
def matching (searchForToken : UInt32) (entries : List HandleDescriptor) (idx : Nat) : List UInt32 :=
  (entries.zipIdx idx).filterMap fun (handleDesc, i) =>
    if handleDesc.Matches searchForToken then some (handleAt handleDesc i) else none

/-- The list stays in the array and is that of the handles that match, and the text stays in its buffer and is sent. -/
structure ListsHandles (table : KProcessHandleTable) (procHandles : Memory UInt32) (val : UInt32) : Prop where
  inside : ∀ w ∈ (listHandles (.handles table) procHandles val).writes, w.stop ≤ procHandlesSize
  handles : (procHandles.written (listHandles (.handles table) procHandles val).writes).read 0
    (listHandles (.handles table) procHandles val).count = matching val table.entries 0
  fits : (listHandles (.handles table) procHandles val).outbuf.length < handlesOutbufSize
  sent : HexPacketFits (listHandles (.handles table) procHandles val).outbuf.length

/-! ## The list -/

theorem or_eq_handleAt (handleDesc : HandleDescriptor) {idx : Nat} (h : idx < 2 ^ 15) :
    UInt32.ofNat idx ||| ((handleDesc.info <<< 16) >>> 1) = handleAt handleDesc idx := by
  have hlow : handleDesc.info.toNat % 2 ^ 16 < 2 ^ 16 := Nat.mod_lt _ (by norm_num)
  have hhigh : ((handleDesc.info <<< 16) >>> 1).toNat = 2 ^ 15 * (handleDesc.info.toNat % 2 ^ 16) := by
    simp only [UInt32.toNat_shiftRight, UInt32.toNat_shiftLeft, UInt32.reduceToNat, Nat.reduceMod, Nat.shiftLeft_eq,
      Nat.shiftRight_eq_div_pow]
    omega
  rw [← UInt32.toNat_inj, UInt32.toNat_or, hhigh, UInt32.toNat_ofNat_of_lt' (by norm_num [UInt32.size]; omega), handleAt,
    UInt32.toNat_ofNat_of_lt' (by norm_num [UInt32.size]; omega), Nat.or_comm, ← Nat.two_pow_add_eq_or_of_lt h, Nat.mul_comm]

theorem matching_none {searchForToken : UInt32} {handleDesc : HandleDescriptor} (h : ¬handleDesc.Matches searchForToken)
    (table : List HandleDescriptor) (idx : Nat) : matching searchForToken (handleDesc :: table) idx =
      matching searchForToken table (idx + 1) := by
  simp [matching, h]

theorem matching_some {searchForToken : UInt32} {handleDesc : HandleDescriptor} (h : handleDesc.Matches searchForToken)
    (table : List HandleDescriptor) (idx : Nat) : matching searchForToken (handleDesc :: table) idx =
      handleAt handleDesc idx :: matching searchForToken table (idx + 1) := by
  simp [matching, h]

/-- The handles that match are written one behind the other. -/
theorem getAllHandles_eq (searchForToken : UInt32) (table : List HandleDescriptor) : ∀ {idx : Nat} (count : Nat),
    idx + table.length ≤ 2 ^ 15 → getAllHandles searchForToken idx count table =
      ((matching searchForToken table idx).mapIdx fun i handle => ⟨count + i, [handle]⟩,
        count + (matching searchForToken table idx).length) := by
  induction table with
  | nil =>
    intro idx count _
    simp [getAllHandles, matching]
  | cons handleDesc table ih =>
    intro idx count hidx
    rw [List.length_cons] at hidx
    rw [getAllHandles]
    cases hpointer : handleDesc.pointer with
    | none =>
      rw [matching_none (by simp [HandleDescriptor.Matches, hpointer])]
      exact ih count (by omega)
    | some flags =>
      dsimp only
      split
      · rename_i htoken
        rw [matching_none (by simp [HandleDescriptor.Matches, hpointer, htoken])]
        exact ih count (by omega)
      · rename_i htoken
        have hmatches : handleDesc.Matches searchForToken := ⟨flags, hpointer, by tauto⟩
        rw [matching_some hmatches, ih (count + 1) (by omega), or_eq_handleAt handleDesc (by omega), List.mapIdx_cons,
          List.length_cons]
        simp only [Nat.add_assoc, Nat.add_comm 1, Nat.add_zero]

theorem KProcessHandleTable.entries_length (table : KProcessHandleTable) : table.entries.length < 2 ^ 15 := by
  unfold KProcessHandleTable.entries
  rw [List.length_take]
  have := table.count_lt
  omega

theorem matching_length_le (searchForToken : UInt32) (entries : List HandleDescriptor) (idx : Nat) :
    (matching searchForToken entries idx).length ≤ entries.length := by
  unfold matching
  exact (List.length_filterMap_le _ _).trans (by simp)

/-! ## The text -/

theorem upperHex_length (n : UInt32) : (upperHex n).length = 8 := by
  simp [upperHex]

/-- Each round adds a handle with what is around it, and there is a round only where there is room for one. -/
theorem handlesLoop_length {procHandles : Memory UInt32} {count : Nat} : ∀ {i : Nat} {comma outbuf : List UInt8},
    comma.length ≤ 2 → outbuf.length ≤ 504 → (handlesLoop procHandles count i comma outbuf).length ≤ 504 := by
  intro i comma outbuf
  induction i, comma, outbuf using handlesLoop.induct procHandles count with
  | case1 i comma outbuf hround outbuf' hline ih =>
    intro hcomma _
    rw [handlesLoop, if_pos hround]
    dsimp only
    rw [if_pos hline]
    have hlength : (outbuf' ++ ascii "\n").length ≤ 504 := by
      have := hround.2
      simp only [outbuf', ascii, gdbBufLen, List.length_append, upperHex_length, List.length_map, String.length_toList] at *
      show outbuf.length + comma.length + 2 + 8 + 1 ≤ 504
      omega
    exact ih (by simp) hlength
  | case2 i comma outbuf hround outbuf' hline ih =>
    intro hcomma _
    rw [handlesLoop, if_pos hround]
    dsimp only
    rw [if_neg hline]
    have hlength : outbuf'.length ≤ 504 := by
      have := hround.2
      simp only [outbuf', ascii, gdbBufLen, List.length_append, upperHex_length, List.length_map, String.length_toList] at *
      show outbuf.length + comma.length + 2 + 8 ≤ 504
      omega
    exact ih (by decide) hlength
  | case3 i comma outbuf hround =>
    intro _ houtbuf
    rw [handlesLoop, if_neg hround]
    exact houtbuf

theorem decimal_length_le {n : Nat} (h : n < 10 ^ 5) : (decimal n).length ≤ 5 := by
  rw [decimal, List.length_map]
  exact (Nat.length_toDigits_le_iff (by norm_num) (by norm_num)).mpr h

/-- Every text is short. -/
theorem listHandles_fits (answer : HandlesAnswer) (procHandles : Memory UInt32) (val : UInt32) :
    (listHandles answer procHandles val).outbuf.length ≤ 504 := by
  unfold listHandles
  cases answer with
  | notOpened => exact (show (23 : Nat) ≤ 504 by omega)
  | failed result =>
    simp only [List.length_append, upperHex_length]
    exact (show (18 : Nat) + 8 + 1 ≤ 504 by omega)
  | handles table =>
    have hentries := table.entries_length
    have hmatching := matching_length_le val table.entries 0
    simp only [getAllHandles_eq val table.entries 0 (show 0 + table.entries.length ≤ 2 ^ 15 by omega), Nat.zero_add]
    split
    · exact (show (25 : Nat) ≤ 504 by omega)
    · refine handlesLoop_length (by simp) ?_
      have hdecimal := decimal_length_le (show (matching val table.entries 0).length < 10 ^ 5 by omega)
      simp only [List.length_append]
      show 6 + _ + 10 ≤ 504
      omega

/-- The text of the command stays in its buffer and is sent. -/
theorem listAllHandles_fits {answer : HandlesAnswer} {procHandles : Memory UInt32} {commandData : List UInt8}
    {listing : HandleListing} (h : listAllHandles answer procHandles commandData = some listing) :
    listing.outbuf.length < handlesOutbufSize ∧ HexPacketFits listing.outbuf.length := by
  obtain ⟨val, -, rfl⟩ := Option.map_eq_some_iff.mp h
  have hfits := listHandles_fits answer procHandles val
  unfold handlesOutbufSize HexPacketFits gdbBufLen
  omega

section

variable (table : KProcessHandleTable) (procHandles : Memory UInt32) (val : UInt32)

theorem listHandles_writes : (listHandles (.handles table) procHandles val).writes =
    (matching val table.entries 0).mapIdx fun i handle => ⟨0 + i, [handle]⟩ := by
  have hentries := table.entries_length
  simp only [listHandles, getAllHandles_eq val table.entries 0 (show 0 + table.entries.length ≤ 2 ^ 15 by omega)]

theorem listHandles_count : (listHandles (.handles table) procHandles val).count = (matching val table.entries 0).length := by
  have hentries := table.entries_length
  simp only [listHandles, getAllHandles_eq val table.entries 0 (show 0 + table.entries.length ≤ 2 ^ 15 by omega), Nat.zero_add]

/-- The list stays in the array if it is not longer. -/
theorem listHandles_inside_iff : (∀ w ∈ (listHandles (.handles table) procHandles val).writes, w.stop ≤ procHandlesSize) ↔
    (matching val table.entries 0).length ≤ procHandlesSize := by
  rw [listHandles_writes]
  constructor
  · intro hinside
    by_contra hlong
    have hlt : procHandlesSize < (matching val table.entries 0).length := by omega
    -- otherwise the handle behind the last place is written
    have hlast := hinside ⟨0 + procHandlesSize, [(matching val table.entries 0)[procHandlesSize]]⟩
      (List.mem_mapIdx.mpr ⟨procHandlesSize, hlt, rfl⟩)
    simp [Write.stop] at hlast
  · intro hle w hw
    obtain ⟨i, hi, rfl⟩ := List.mem_mapIdx.mp hw
    simp only [Write.stop, List.length_singleton]
    omega

/-- The array holds the handles that match. -/
theorem listHandles_read : (procHandles.written (listHandles (.handles table) procHandles val).writes).read 0
    (listHandles (.handles table) procHandles val).count = matching val table.entries 0 := by
  rw [listHandles_writes, listHandles_count, Memory.written_mapIdx]
  have hread : (procHandles.store 0 (matching val table.entries 0)).read (0 + 0) (matching val table.entries 0).length = _ :=
    procHandles.read_store 0 (by omega)
  simpa using hread

/-- The list stays in the array exactly if it has no more than 256 handles; all else is as it should be. -/
theorem listsHandles_iff : ListsHandles table procHandles val ↔ (matching val table.entries 0).length ≤ procHandlesSize := by
  have hfits := listHandles_fits (.handles table) procHandles val
  constructor
  · exact fun h => (listHandles_inside_iff table procHandles val).mp h.inside
  · intro hle
    constructor
    · exact (listHandles_inside_iff table procHandles val).mpr hle
    · exact listHandles_read table procHandles val
    · unfold handlesOutbufSize gdbBufLen
      omega
    · unfold HexPacketFits gdbBufLen
      omega

end

/-- A process with 257 handles. -/
def manyHandles : KProcessHandleTable where
  handleTable := some (List.replicate 257 ⟨1, some 0x1F⟩)
  internalTable := List.replicate 40 ⟨0, none⟩
  maxHandleCount := 257
  internal_length := List.length_replicate
  count_lt := by omega
  count_le := by rw [Option.getD_some, List.length_replicate]

/-- Their list is longer than the array. -/
theorem listHandles_overflow : ¬ListsHandles manyHandles (fun _ => 0) 0 := by
  intro h
  have hlength : (matching 0 manyHandles.entries 0).length = 257 := by decide +kernel
  have hle := (listHandles_inside_iff manyHandles (fun _ => 0) 0).mp h.inside
  rw [hlength] at hle
  exact absurd hle (by decide)

end Omiiba.Rosalina
