/-
Texts for the console of the debugger, after net.c and debug.c: those of the stub itself, and those that the process puts out,
which are forwarded in pieces.
-/
import Omiiba.Rosalina.GdbMem
import Omiiba.Rosalina.GdbFrame

namespace Omiiba.Rosalina

/-! ## The code -/

/-- `sizeof(formatted)`. -/
def formattedSize : Nat := (gdbBufLen - 1) / 2 + 1

/-- How many characters of `formatted` are read, what is written to `ctx->buffer`, and the packet that is sent. -/
structure ConsoleTrace where
  read : Nat
  writes : List (Write UInt8)
  sent : List (List UInt8)

/-- `GDB_SendDebugString`, for the text that `vsprintf` makes; `stack` is what was in `formatted`. -/
def sendDebugString (stack buffer : Memory UInt8) (text : List UInt8) : ConsoleTrace :=
  let formatted := stack.store 0 (text ++ [0])
  let n := text.length
  if n = 0 then ⟨0, [⟨0, ascii "$O"⟩], []⟩
  else
    -- the length is that of the digits, not of the characters
    let writes := [⟨0, ascii "$O"⟩, ⟨2, encodeHex (formatted.read 0 (2 * n))⟩, ⟨2 * n + 2, ascii "#"⟩]
    let checksum := computeChecksum ((buffer.written writes).read 1 (2 * n + 1))
    let writes := writes ++ [⟨2 * n + 3, Hex.fixed 2 checksum.toNat⟩]
    ⟨2 * n, writes, [(buffer.written writes).read 0 (5 + 2 * n)]⟩

/-- `GDB_SendMemory` with a prefix: what it writes to `membuf`, and the packet's data. -/
def sendMemoryWith (head : List UInt8) (target : TargetMemory) (membuf : Memory UInt8) (addr len : UInt32) :
    List (Write UInt8) × Option (List UInt8) :=
  if (UInt32.ofNat head.length + 2 * len).toNat > gdbBufLen then ([], none)
  else
    let (writes, total) := readTargetMemory target addr.toNat len.toNat 0
    if total = 0 then (writes, none) else (writes, some (head ++ encodeHex ((List.range total).map (membuf.written writes))))

/-- What is written to the buffers `membuf`, and the data of the packets that are sent whole. -/
structure OutputTrace where
  writes : List (Write UInt8)
  sent : List (List UInt8)

/-- The length of a piece of the string. -/
def pendingLen (remaining : Nat) : Nat := min ((gdbBufLen - 1) / 2) remaining

theorem pendingLen_pos {remaining : Nat} (h : remaining ≠ 0) : 0 < pendingLen remaining :=
  lt_min (by decide) (Nat.pos_of_ne_zero h)

/-- The loop of `GDB_SendStopReply` for a string, of which `sent` characters have been sent in `i` packets; `stack` is what is in
`membuf` at each call, and `whole` says of which packets the socket takes all. -/
def outputLoop (target : TargetMemory) (stack : Nat → Memory UInt8) (whole : Nat → Bool) (addr : UInt32) (i sent remaining : Nat) :
    OutputTrace :=
  if _hmore : remaining = 0 then ⟨[], []⟩
  else
    let pending := pendingLen remaining
    match sendMemoryWith (ascii "O") target (stack i) (addr + UInt32.ofNat sent) (UInt32.ofNat pending) with
    | (writes, none) => ⟨writes, []⟩
    | (writes, some data) =>
      if whole i = false then ⟨writes, []⟩
      else if 4 + data.length ≠ 5 + 2 * pending then ⟨writes, [data]⟩
      else
        let trace := outputLoop target stack whole addr (i + 1) (sent + pending) (remaining - pending)
        ⟨writes ++ trace.writes, data :: trace.sent⟩
termination_by remaining
decreasing_by
  have := pendingLen_pos _hmore
  omega

/-- `DBGEVENT_OUTPUT_STRING`, where no request to the host is in progress. -/
def outputString (target : TargetMemory) (stack : Nat → Memory UInt8) (whole : Nat → Bool) (addr size : UInt32) : OutputTrace :=
  outputLoop target stack whole addr 0 0 size.toNat

/-! ## What is expected -/

/-- A packet has the digits of the text, and no more than the text is read and the buffer written. -/
structure SendsConsole (stack buffer : Memory UInt8) (text : List UInt8) : Prop where
  packet : ∀ p ∈ (sendDebugString stack buffer text).sent, p = (sendPacket (ascii "O" ++ encodeHex text)).bytes
  reads : (sendDebugString stack buffer text).read ≤ text.length
  inside : ∀ w ∈ (sendDebugString stack buffer text).writes, w.stop ≤ packetBufSize

/-- The characters of an `O` packet. -/
def decodeOutput (data : List UInt8) : List UInt8 := decodeHex ((data.length - 1) / 2) (data.drop 1)

/-- The packets are together the string in the memory, and the buffers are kept to. -/
structure ForwardsString (target : TargetMemory) (stack : Nat → Memory UInt8) (whole : Nat → Bool) (addr size : UInt32) : Prop where
  membuf : ∀ w ∈ (outputString target stack whole addr size).writes, w.stop ≤ membufSize
  string : (outputString target stack whole addr size).sent.flatMap decodeOutput = target.bytes addr.toNat size.toNat

/-! ## Texts of the stub -/

section

variable (stack buffer : Memory UInt8)

theorem encodeHex_append (s t : List UInt8) : encodeHex (s ++ t) = encodeHex s ++ encodeHex t := List.flatMap_append

/-- The digits of the text are the first of those that are written. -/
theorem encodeHex_formatted (text : List UInt8) :
    (encodeHex ((stack.store 0 (text ++ [0])).read 0 (2 * text.length))).take (2 * text.length) = encodeHex text := by
  have htext : (stack.store 0 (text ++ [0])).read 0 text.length = text := by
    rw [Memory.read_store_take _ _ (by simp)]
    simp
  rw [Nat.two_mul, Memory.read_add, htext, encodeHex_append, ← Nat.two_mul, ← encodeHex_length, List.take_left]

/-- The packet is right, although twice as many digits are written as there should be. -/
theorem sendDebugString_packet (text : List UInt8) :
    ∀ p ∈ (sendDebugString stack buffer text).sent, p = (sendPacket (ascii "O" ++ encodeHex text)).bytes := by
  intro p hp
  unfold sendDebugString at hp
  dsimp only at hp
  split at hp
  · simp at hp
  · rw [List.mem_singleton.mp hp]
    have hlong : 2 * text.length ≤ (encodeHex ((stack.store 0 (text ++ [0])).read 0 (2 * text.length))).length := by
      rw [encodeHex_length, Memory.read_length]
      omega
    simp only [Memory.written_cons, Memory.written_nil, List.cons_append, List.nil_append]
    generalize hhead : buffer.store 0 (ascii "$O") = head
    have hdollar : head.read 0 2 = ascii "$O" := by
      rw [← hhead]
      exact Memory.read_store_take _ _ le_rfl
    have hletter : head.read 1 1 = ascii "O" := by
      rw [← hhead]
      exact Memory.read_store _ 0 (show 1 + 1 ≤ (ascii "$O").length from le_rfl)
    -- the digits behind those of the text are overwritten or not sent
    have hdigits : ((head.store 2 (encodeHex ((stack.store 0 (text ++ [0])).read 0 (2 * text.length)))).store
        (2 * text.length + 2) (ascii "#")).read 2 (2 * text.length) = encodeHex text := by
      rw [Memory.read_store_outside _ (.inl (by omega)), Memory.read_store_take _ _ hlong, encodeHex_formatted]
    generalize hbody : (head.store 2 (encodeHex ((stack.store 0 (text ++ [0])).read 0 (2 * text.length)))).store
      (2 * text.length + 2) (ascii "#") = body at hdigits
    have hbodyHead : ∀ {a n : Nat}, a + n ≤ 2 → body.read a n = head.read a n := by
      intro a n h
      rw [← hbody, Memory.read_store_outside _ (.inl (by omega)), Memory.read_store_outside _ (.inl h)]
    have hhash : body.read (2 * text.length + 2) 1 = ascii "#" := by
      rw [← hbody]
      exact Memory.read_store_take _ _ le_rfl
    have hsum : body.read 1 (2 * text.length + 1) = ascii "O" ++ encodeHex text := by
      rw [Nat.add_comm, Memory.read_add, hbodyHead (by omega), hletter, hdigits]
    have hparts : ∀ m : Memory UInt8, m.read 0 (5 + 2 * text.length) =
        m.read 0 2 ++ m.read 2 (2 * text.length) ++ m.read (2 * text.length + 2) 1 ++ m.read (2 * text.length + 3) 2 := by
      intro m
      rw [show 5 + 2 * text.length = 2 + 2 * text.length + 1 + 2 by omega, Memory.read_add, Memory.read_add, Memory.read_add,
        Nat.zero_add, Nat.zero_add, Nat.zero_add, Nat.add_comm 2]
    rw [hsum, hparts, Memory.read_store_outside _ (.inl (by omega)), hbodyHead le_rfl, hdollar,
      Memory.read_store_outside _ (.inl (by omega)), hdigits, Memory.read_store_outside _ (.inl (by omega)), hhash,
      Memory.read_store_take _ _ (by rw [Hex.fixed_length]), List.take_of_length_le (by rw [Hex.fixed_length])]
    simp [sendPacket, ascii]

/-- Of a text that is not empty twice as many characters are read as it has. -/
theorem sendDebugString_read (text : List UInt8) : (sendDebugString stack buffer text).read = 2 * text.length := by
  unfold sendDebugString
  dsimp only
  split
  · rename_i h
    rw [h]
  · rfl

/-- The buffer is kept to by texts of at most 256 characters. -/
theorem sendDebugString_inside_iff (text : List UInt8) :
    (∀ w ∈ (sendDebugString stack buffer text).writes, w.stop ≤ packetBufSize) ↔ text.length ≤ 256 := by
  unfold sendDebugString packetBufSize gdbBufLen
  dsimp only
  split
  · rename_i h
    simp [h, Write.stop, ascii]
  · simp only [List.cons_append, List.nil_append, List.forall_mem_cons, List.not_mem_nil, false_imp_iff, implies_true, and_true,
      Write.stop, encodeHex_length, Memory.read_length, Hex.fixed_length]
    show 0 + 2 ≤ _ ∧ _ ∧ 2 * text.length + 2 + 1 ≤ _ ∧ _ ↔ _
    omega

theorem sendsConsole_iff (text : List UInt8) : SendsConsole stack buffer text ↔ text = [] := by
  constructor
  · intro h
    have hread := h.reads
    rw [sendDebugString_read] at hread
    exact List.length_eq_zero_iff.mp (by omega)
  · rintro rfl
    constructor
    · exact sendDebugString_packet stack buffer []
    · exact (sendDebugString_read stack buffer []).le
    · exact (sendDebugString_inside_iff stack buffer []).mpr (by simp)

end

/-! ## Strings of the process -/

theorem pendingLen_le (remaining : Nat) : pendingLen remaining ≤ remaining ∧ pendingLen remaining ≤ 511 :=
  ⟨min_le_right _ _, min_le_left _ _⟩

/-- All of a piece that can be read is read. -/
theorem readTargetMemory_count {target : TargetMemory} {addr len : Nat} (haddr : addr < 2 ^ 32) (hlen : 0 < len)
    (hreadable : ∀ i < len, target.readable (word (addr + i)) = true) :
    (readTargetMemory target addr len 0).2 = len ∧ target.readablePrefix addr len = len := by
  have hall : target.readablePrefix addr len = len :=
    (target.readablePrefix_eq_iff).mpr ⟨le_rfl, hreadable, fun h => absurd h (lt_irrefl _)⟩
  obtain ⟨k, htotal, hreads⟩ := reads_readTargetMemory target len hlen addr 0
  rw [hreads.count_eq haddr, hall, Nat.zero_add] at htotal
  exact ⟨htotal, hall⟩

/-- A piece that can be read is sent in a packet. -/
theorem sendMemoryWith_eq (target : TargetMemory) (membuf : Memory UInt8) (addr : UInt32) {len : UInt32} (hlen : 0 < len.toNat)
    (hshort : len.toNat ≤ 511) (hreadable : ∀ i < len.toNat, target.readable (word (addr.toNat + i)) = true) :
    sendMemoryWith (ascii "O") target membuf addr len =
      ((readTargetMemory target addr.toNat len.toNat 0).1, some (ascii "O" ++
        encodeHex (((List.range len.toNat).map (membuf.written (readTargetMemory target addr.toNat len.toNat 0).1))))) := by
  obtain ⟨htotal, -⟩ := readTargetMemory_count addr.toNat_lt hlen hreadable
  have hfits : ¬(UInt32.ofNat (ascii "O").length + 2 * len).toNat > gdbBufLen := by
    rw [UInt32.toNat_add, UInt32.toNat_mul]
    show ¬(1 + 2 * len.toNat % 2 ^ 32) % 2 ^ 32 > 1024
    omega
  unfold sendMemoryWith
  rw [if_neg hfits]
  simp only [htotal]
  rw [if_neg (by omega)]

theorem decodeOutput_append (bytes : List UInt8) : decodeOutput (ascii "O" ++ encodeHex bytes) = bytes := by
  have hlength : (ascii "O" ++ encodeHex bytes).length = 2 * bytes.length + 1 := by
    simp [ascii]
  have hdrop : (ascii "O" ++ encodeHex bytes).drop 1 = encodeHex bytes := rfl
  unfold decodeOutput
  rw [hlength, hdrop, Nat.add_sub_cancel, Nat.mul_div_cancel_left _ (by norm_num)]
  have hdecode := decodeHex_encodeHex bytes []
  rwa [List.append_nil] at hdecode

/-- The piece from character `x` of a string of which `remaining` characters are left there. -/
def PieceSent (addr : UInt32) (whole : Nat → Bool) (i x remaining : Nat) : Prop :=
  whole i = true ∧ OneAccess (word (addr.toNat + x)) 0 (pendingLen remaining)

theorem piece_addr (addr : UInt32) (x : Nat) : (addr + UInt32.ofNat x).toNat = word (addr.toNat + x) := by
  rw [UInt32.toNat_add, UInt32.toNat_ofNat']
  unfold word
  omega

theorem bytes_pieces (target : TargetMemory) (a : Nat) {n remaining : Nat} (h : n ≤ remaining) :
    target.bytes a remaining = target.bytes a n ++ target.bytes (a + n) (remaining - n) := by
  obtain ⟨k, rfl⟩ := Nat.exists_eq_add_of_le h
  unfold TargetMemory.bytes
  rw [Nat.add_sub_cancel_left, List.range_add, List.map_append, List.map_map]
  simp [Function.comp_def, Nat.add_assoc]

/-- The part of the string from a character on is forwarded. -/
def ForwardsFrom (target : TargetMemory) (stack : Nat → Memory UInt8) (whole : Nat → Bool) (addr : UInt32) (i x remaining : Nat) :
    Prop :=
  (∀ w ∈ (outputLoop target stack whole addr i x remaining).writes, w.stop ≤ membufSize) ∧
    (outputLoop target stack whole addr i x remaining).sent.flatMap decodeOutput = target.bytes (addr.toNat + x) remaining

/-- A piece is read into its buffer. -/
def PieceRead (target : TargetMemory) (membuf : Memory UInt8) (a n : Nat) : Prop :=
  (∀ w ∈ (readTargetMemory target a n 0).1, w.stop ≤ membufSize) ∧
    ∀ j < n, membuf.written (readTargetMemory target a n 0).1 j = target.byte (word (a + j))

section

variable (target : TargetMemory) {whole : Nat → Bool} {addr : UInt32}

/-- A round of the loop. -/
theorem outputLoop_round (stack : Nat → Memory UInt8) {i x remaining : Nat} (hmore : remaining ≠ 0)
    (hreadable : ∀ j < remaining, target.readable (word (addr.toNat + (x + j))) = true) :
    outputLoop target stack whole addr i x remaining =
      let writes := (readTargetMemory target (word (addr.toNat + x)) (pendingLen remaining) 0).1
      if whole i = false then ⟨writes, []⟩
      else
        let trace := outputLoop target stack whole addr (i + 1) (x + pendingLen remaining) (remaining - pendingLen remaining)
        ⟨writes ++ trace.writes,
          (ascii "O" ++ encodeHex ((List.range (pendingLen remaining)).map ((stack i).written writes))) :: trace.sent⟩ := by
  have hpos := pendingLen_pos hmore
  obtain ⟨hle, hshort⟩ := pendingLen_le remaining
  have hlen : (UInt32.ofNat (pendingLen remaining)).toNat = pendingLen remaining :=
    UInt32.toNat_ofNat_of_lt' (by norm_num [UInt32.size]; omega)
  have hpiece : ∀ j < (UInt32.ofNat (pendingLen remaining)).toNat,
      target.readable (word ((addr + UInt32.ofNat x).toNat + j)) = true := by
    intro j hj
    rw [hlen] at hj
    rw [piece_addr, word_word_add]
    exact hreadable j (by omega)
  have hsend := sendMemoryWith_eq target (stack i) _ (by rwa [hlen]) (by rwa [hlen]) hpiece
  rw [hlen, piece_addr] at hsend
  rw [outputLoop, dif_neg hmore]
  dsimp only
  rw [hsend]
  dsimp only
  split
  · rfl
  · rw [if_neg]
    simp [ascii]
    omega

/-- A piece that is sent has been read, and the rest is forwarded. -/
theorem forwardsFrom_round (stack : Nat → Memory UInt8) {i x remaining : Nat} (hmore : remaining ≠ 0)
    (hreadable : ∀ j < remaining, target.readable (word (addr.toNat + (x + j))) = true) (hwhole : whole i = true) :
    ForwardsFrom target stack whole addr i x remaining ↔
      PieceRead target (stack i) (word (addr.toNat + x)) (pendingLen remaining) ∧
        ForwardsFrom target stack whole addr (i + 1) (x + pendingLen remaining) (remaining - pendingLen remaining) := by
  have hround : outputLoop target stack whole addr i x remaining = _ := outputLoop_round target stack hmore hreadable
  have hcontent : ∀ m : Memory UInt8, (List.range (pendingLen remaining)).map m =
      target.bytes (addr.toNat + x) (pendingLen remaining) ↔
        ∀ j < pendingLen remaining, m j = target.byte (word (word (addr.toNat + x) + j)) := by
    intro m
    unfold TargetMemory.bytes
    rw [List.map_inj_left]
    simp only [List.mem_range, word_word_add, Nat.add_assoc]
  have happend : ∀ (bs bs' cs cs' : List UInt8), bs.length = bs'.length → (bs ++ cs = bs' ++ cs' ↔ bs = bs' ∧ cs = cs') :=
    fun bs bs' cs cs' h => ⟨fun heq => List.append_inj heq h, fun ⟨h1, h2⟩ => by rw [h1, h2]⟩
  dsimp only at hround
  rw [hwhole, if_neg (by decide)] at hround
  unfold ForwardsFrom PieceRead
  rw [hround, ← hcontent, List.forall_mem_append, List.flatMap_cons, decodeOutput_append,
    bytes_pieces target _ (pendingLen_le remaining).1, Nat.add_assoc, happend _ _ _ _ (by simp)]
  tauto

/-- A packet that the socket does not take is missing. -/
theorem not_forwardsFrom (stack : Nat → Memory UInt8) {i x remaining : Nat} (hmore : remaining ≠ 0)
    (hreadable : ∀ j < remaining, target.readable (word (addr.toNat + (x + j))) = true) (hwhole : whole i = false) :
    ¬ForwardsFrom target stack whole addr i x remaining := by
  rintro ⟨-, hstring⟩
  rw [outputLoop_round target stack hmore hreadable, if_pos hwhole] at hstring
  have hlength := congrArg List.length hstring
  rw [List.flatMap_nil, List.length_nil, TargetMemory.bytes_length] at hlength
  exact hmore hlength.symm

/-- A piece that can be read is read whatever the memory holds, if single accesses to registers are enough for it. -/
theorem pieceRead_iff {a n : Nat} (ha : a < 2 ^ 32) (hpos : 0 < n) (hshort : n ≤ 511)
    (hreadable : ∀ j < n, target.readable (word (a + j)) = true) :
    (∀ byte membuf, PieceRead { target with byte := byte } membuf a n) ↔ OneAccess a 0 n := by
  have hcount := (readTargetMemory_count ha hpos hreadable).2
  have hone := readTargetMemory_right_iff target ha hpos (by rw [hcount]; exact hshort.trans (by decide))
  rwa [hcount] at hone

/-- The first piece and those behind it. -/
theorem forall_pieces {P : Nat → Prop} {remaining : Nat} (hmore : remaining ≠ 0) :
    (∀ j, 511 * j < remaining → P j) ↔ P 0 ∧ ∀ j, 511 * j < remaining - pendingLen remaining → P (j + 1) := by
  have hnext : ∀ j, 511 * j < remaining - pendingLen remaining ↔ 511 * (j + 1) < remaining := by
    intro j
    show 511 * j < remaining - min 511 remaining ↔ _
    omega
  constructor
  · exact fun h => ⟨h 0 (by omega), fun j hj => h (j + 1) ((hnext j).mp hj)⟩
  · rintro ⟨hfirst, hrest⟩ j hj
    cases j with
    | zero => exact hfirst
    | succ j => exact hrest j ((hnext j).mpr hj)

/-- All pieces are sent and read with single accesses to registers, or the string does not arrive. -/
theorem forwardsFrom_iff (remaining : Nat) : ∀ {i x : Nat},
    (∀ j < remaining, target.readable (word (addr.toNat + (x + j))) = true) →
    ((∀ byte stack, ForwardsFrom { target with byte := byte } stack whole addr i x remaining) ↔
      ∀ j, 511 * j < remaining → PieceSent addr whole (i + j) (x + 511 * j) (remaining - 511 * j)) := by
  induction remaining using Nat.strong_induction_on with
  | _ remaining ih =>
    intro i x hreadable
    by_cases hmore : remaining = 0
    · subst hmore
      refine iff_of_true (fun byte stack => ?_) (fun j hj => absurd hj (Nat.not_lt_zero _))
      unfold ForwardsFrom
      rw [outputLoop, dif_pos rfl]
      simp [TargetMemory.bytes]
    · have hpos := pendingLen_pos hmore
      obtain ⟨hle, hshort⟩ := pendingLen_le remaining
      rw [forall_pieces hmore]
      cases hwhole : whole i with
      | false =>
        refine iff_of_false (fun h => ?_) (fun h => ?_)
        · exact not_forwardsFrom { target with byte := fun _ => 0 } _ hmore hreadable hwhole (h _ fun _ _ => 0)
        · have hfirst := h.1.1
          rw [Nat.add_zero, hwhole] at hfirst
          cases hfirst
      | true =>
        have hpiece : ∀ j < pendingLen remaining, target.readable (word (word (addr.toNat + x) + j)) = true := by
          intro j hj
          rw [word_word_add]
          exact hreadable j (by omega)
        have hword : word (addr.toNat + x) < 2 ^ 32 := Nat.mod_lt _ (by norm_num)
        have hread := pieceRead_iff target hword hpos hshort hpiece
        have hrest := @ih (remaining - pendingLen remaining) (by omega) (i + 1) (x + pendingLen remaining) (by
          intro j hj
          rw [Nat.add_assoc]
          exact hreadable _ (by omega))
        have hround := fun (byte : Nat → UInt8) (stack : Nat → Memory UInt8) =>
          forwardsFrom_round { target with byte := byte } stack hmore hreadable hwhole
        -- the contents of the buffers of different pieces have nothing to do with each other
        calc (∀ byte stack, ForwardsFrom { target with byte := byte } stack whole addr i x remaining)
            ↔ (∀ byte membuf, PieceRead { target with byte := byte } membuf (word (addr.toNat + x)) (pendingLen remaining)) ∧
                ∀ byte stack, ForwardsFrom { target with byte := byte } stack whole addr (i + 1) (x + pendingLen remaining)
                  (remaining - pendingLen remaining) := by
              constructor
              · exact fun h => ⟨fun byte membuf => ((hround byte fun _ => membuf).mp (h _ _)).1,
                  fun byte stack => ((hround byte stack).mp (h _ _)).2⟩
              · exact fun h byte stack => (hround byte stack).mpr ⟨h.1 byte (stack i), h.2 byte stack⟩
          _ ↔ _ := by
              rw [hread, hrest]
              refine and_congr ?_ (forall₂_congr fun j hj => ?_)
              · simp [PieceSent, hwhole]
              · have hfull : pendingLen remaining = 511 := by
                  unfold pendingLen gdbBufLen at *
                  omega
                rw [hfull, show i + 1 + j = i + (j + 1) by omega, show x + 511 + 511 * j = x + 511 * (j + 1) by omega,
                  show remaining - 511 - 511 * j = remaining - 511 * (j + 1) by omega]

end

/-- The claim about both kinds of texts. A text of the stub is sent as it should be only if there is none. A string of the process
arrives whatever it is and whatever the buffers held, exactly if the socket takes each packet whole and no piece needs more than
one access to a page of registers. -/
theorem console_iff (stack buffer : Memory UInt8) (text : List UInt8) (target : TargetMemory) (whole : Nat → Bool)
    (addr size : UInt32) :
    (SendsConsole stack buffer text ↔ text = []) ∧
      ((∀ i < size.toNat, target.readable (word (addr.toNat + i)) = true) →
        ((∀ byte stack, ForwardsString { target with byte := byte } stack whole addr size) ↔
          ∀ j, 511 * j < size.toNat → PieceSent addr whole j (511 * j) (size.toNat - 511 * j))) := by
  refine ⟨sendsConsole_iff stack buffer text, fun hreadable => ?_⟩
  have hstart : ∀ i < size.toNat, target.readable (word (addr.toNat + (0 + i))) = true := by
    simpa using hreadable
  have hforwards : (∀ byte stack, ForwardsFrom { target with byte := byte } stack whole addr 0 0 size.toNat) ↔ _ :=
    forwardsFrom_iff target size.toNat hstart
  simp only [Nat.zero_add] at hforwards
  rw [← hforwards]
  refine forall₂_congr fun byte stack => ⟨fun h => ⟨h.membuf, ?_⟩, fun h => ⟨h.1, ?_⟩⟩
  · exact h.string
  · exact h.2

/-- For a text of 257 characters the buffer is written behind its end. -/
theorem longText_overflows : ¬SendsConsole (fun _ => 0) (fun _ => 0) (List.replicate 257 0x41) := by
  intro h
  have hlength := (sendDebugString_inside_iff _ _ _).mp h.inside
  rw [List.length_replicate] at hlength
  omega

end Omiiba.Rosalina
