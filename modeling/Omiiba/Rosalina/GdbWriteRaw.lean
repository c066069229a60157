/-
The `X` packet of the debugger, after mem.c: the announced length is that of the data without the escapes, the handler takes
it for the number of bytes in the packet.
-/
import Omiiba.Rosalina.GdbPacket
import Omiiba.Rosalina.GdbWrite

namespace Omiiba.Rosalina

/-! ## The code -/

/-- `ctx->buffer` with a packet: its command letter is the second byte, and the terminator is where the `#` was. -/
structure PacketBuffer where
  /-- where the buffer is -/
  address : UInt32
  object : address.toNat + packetBufSize < 2 ^ 32
  bytes : Memory UInt8
  /-- `ctx->commandEnd` -/
  commandEnd : Nat
  le_commandEnd : 2 ≤ commandEnd
  commandEnd_lt : commandEnd < packetBufSize
  terminated : bytes commandEnd = 0

namespace PacketBuffer

variable (packet : PacketBuffer)

/-- `ctx->commandData`, as a string. -/
def commandData : List UInt8 := (packet.bytes.read 2 (packet.commandEnd - 2)).takeWhile (· ≠ 0)

/-- The address and the length in front of the data, and where the data begins. -/
def announced : Option (UInt32 × UInt32 × Nat) :=
  match parseHexIntegerList 2 0x3A packet.commandData with
  | none => none
  | some (lst, pos) =>
    if packet.commandData.getD pos 0 = 0x3A then
      some (UInt32.ofNat (lst.getD 0 0), UInt32.ofNat (lst.getD 1 0), 2 + pos + 1)
    else none

/-- `GDB_UnescapeBinaryData` of `len` bytes from `dataStart` on; where their end wraps around, the loop does not begin. -/
def unescape (dataStart : Nat) (len : UInt32) : List UInt8 :=
  if packet.address + UInt32.ofNat dataStart < packet.address + UInt32.ofNat dataStart + len then
    unescapeBinaryData (packet.bytes (dataStart + len.toNat)) (packet.bytes.read dataStart len.toNat)
  else []

end PacketBuffer

/-- What the handler writes to `data` and to the target, and its reply. -/
structure RawOutcome where
  /-- `GDB_WriteMemory` is called -/
  accepted : Bool
  data : List (Write UInt8)
  target : List (Write UInt8)
  reply : WriteReply

/-- `GDB_HandleWriteMemoryRaw`, with what is on the stack where `data` is. -/
def handleWriteMemoryRaw (packet : PacketBuffer) (target : TargetMemory) (stack : Memory UInt8) (calls : Nat) :
    Option RawOutcome :=
  match packet.announced with
  | none => some ⟨false, [], [], .errno 138⟩
  | some (addr, len, dataStart) =>
    if packet.address + UInt32.ofNat dataStart + len ≥ packet.address + 4 + UInt32.ofNat gdbBufLen then
      some ⟨false, [], [], .errno 12⟩
    else
      let bytes := packet.unescape dataStart len
      if bytes.length ≠ len.toNat then some ⟨false, [⟨0, bytes⟩], [], .errno bytes.length⟩
      else
        (gdbWriteMemory target (stack.written [⟨0, bytes⟩]) calls addr len).map fun (writes, reply) =>
          ⟨true, [⟨0, bytes⟩], writes, reply⟩

/-! ## What the sender means -/

/-- The data of a payload; none if it ends in an escape character. -/
def decode : List UInt8 → Option (List UInt8)
  | [] => some []
  | [b] => if b = 0x7D then none else some [b]
  | b :: c :: payload => if b = 0x7D then (decode payload).map ((c ^^^ 0x20) :: ·) else (decode (c :: payload)).map (b :: ·)

namespace PacketBuffer

/-- The data of the packet, if there are as many as announced, and their address. -/
def requested (packet : PacketBuffer) : Option (UInt32 × List UInt8) := do
  let (addr, len, dataStart) ← packet.announced
  let bytes ← decode (packet.bytes.read dataStart (packet.commandEnd - dataStart))
  if bytes.length = len.toNat then some (addr, bytes) else none

end PacketBuffer

/-- The data are written where they should be, as far as the target can be written; another packet is rejected. -/
def Obeys (packet : PacketBuffer) (target : TargetMemory) (out : RawOutcome) : Prop :=
  (∀ w ∈ out.data, w.stop ≤ gdbBufLen) ∧
    match packet.requested with
    | some (addr, bytes) => out.accepted = true ∧ WritesPrefix target bytes addr.toNat out.target out.reply
    | none => out.accepted = false ∧ out.target = [] ∧ ∃ no, out.reply = .errno no

/-- The packet has an escape character among the first `len - 1` bytes from `dataStart` on. -/
def PacketBuffer.EscapesEarly (packet : PacketBuffer) (dataStart len : Nat) : Prop :=
  0x7D ∈ packet.bytes.read dataStart (len - 1)

/-- A packet as the code takes it: of the announced data at most the last byte is escaped, and the target can take them; or the
data are not the announced ones, and the length does not fit into the buffer, or there is an escape character in front of its
last byte. -/
def RawRight (packet : PacketBuffer) (target : TargetMemory) (stack : Memory UInt8) : Prop :=
  match packet.announced with
  | none => True
  | some (addr, len, dataStart) =>
    match packet.requested with
    | some (_, bytes) => ¬packet.EscapesEarly dataStart len.toNat ∧
        Transferable target (stack.written [⟨0, bytes⟩]) addr.toNat len.toNat
    | none => packetBufSize ≤ dataStart + len.toNat ∨ packet.EscapesEarly dataStart len.toNat

/-! ## Escapes -/

theorem unescapeBinaryData_length_le (behind : UInt8) (src : List UInt8) :
    (unescapeBinaryData behind src).length ≤ src.length := by
  induction src using unescapeBinaryData.induct with
  | case1 => simp [unescapeBinaryData]
  | case2 => simp [unescapeBinaryData]
  | case3 b hb => simp [unescapeBinaryData, hb]
  | case4 c src ih =>
    simp only [unescapeBinaryData, if_true, List.length_cons]
    omega
  | case5 b c src hb ih =>
    simp only [unescapeBinaryData, if_neg hb, List.length_cons] at ih ⊢
    omega

/-- As many bytes as there were, if only the last one may be an escape character. -/
theorem unescapeBinaryData_length_eq (behind : UInt8) (src : List UInt8) :
    (unescapeBinaryData behind src).length = src.length ↔ 0x7D ∉ src.dropLast := by
  induction src using unescapeBinaryData.induct with
  | case1 => simp [unescapeBinaryData]
  | case2 => simp [unescapeBinaryData]
  | case3 b hb => simp [unescapeBinaryData, hb]
  | case4 c src ih =>
    have hle := unescapeBinaryData_length_le behind src
    simp only [unescapeBinaryData, if_true, List.length_cons, List.dropLast_cons_cons, List.mem_cons, true_or, not_true,
      iff_false]
    omega
  | case5 b c src hb ih =>
    have hb' : ¬(0x7D : UInt8) = b := fun h => hb h.symm
    rw [unescapeBinaryData, if_neg hb, List.dropLast_cons_cons, List.mem_cons, not_or, ← ih]
    simp [hb']

/-- Where no byte but the last one is escaped, the handler reads what the sender means. -/
theorem unescapeBinaryData_decode (behind payload : List UInt8) : ∀ {bytes : List UInt8}, decode payload = some bytes →
    0x7D ∉ payload.take (bytes.length - 1) →
    unescapeBinaryData ((payload ++ behind).getD bytes.length 0) ((payload ++ behind).take bytes.length) = bytes := by
  induction payload using decode.induct with
  | case1 =>
    intro bytes h _
    obtain rfl := Option.some.inj h
    rfl
  | case2 =>
    intro bytes h _
    cases h
  | case3 b hb =>
    intro bytes h _
    simp only [decode, if_neg hb, Option.some.injEq] at h
    subst h
    simp [unescapeBinaryData, hb]
  | case4 c payload ih =>
    intro bytes h hescape
    simp only [decode, if_true, Option.map_eq_some_iff] at h
    obtain ⟨bs, -, rfl⟩ := h
    -- the escape character is the last byte that the handler reads
    cases bs with
    | nil => simp [unescapeBinaryData]
    | cons b bs => simp at hescape
  | case5 b c payload hb ih =>
    intro bytes h hescape
    simp only [decode, if_neg hb, Option.map_eq_some_iff] at h
    obtain ⟨bs, hbs, rfl⟩ := h
    simp only [List.cons_append, List.length_cons, List.take_succ_cons, List.getD_cons_succ]
    rw [unescapeBinaryData_of_ne _ hb]
    refine congrArg (b :: ·) (ih hbs ?_)
    cases bs with
    | nil => simp
    | cons b' bs => simp_all

/-- A whole payload that means something is read as it is meant. -/
theorem unescapeBinaryData_of_decode (behind : UInt8) (payload : List UInt8) : ∀ {bytes : List UInt8}, decode payload = some bytes →
    unescapeBinaryData behind payload = bytes := by
  induction payload using decode.induct with
  | case1 =>
    intro bytes h
    obtain rfl := Option.some.inj h
    rfl
  | case2 =>
    intro bytes h
    cases h
  | case3 b hb =>
    intro bytes h
    simp only [decode, if_neg hb, Option.some.injEq] at h
    subst h
    simp [unescapeBinaryData, hb]
  | case4 c payload ih =>
    intro bytes h
    simp only [decode, if_true, Option.map_eq_some_iff] at h
    obtain ⟨bs, hbs, rfl⟩ := h
    simp only [unescapeBinaryData, if_true, ih hbs]
  | case5 b c payload hb ih =>
    intro bytes h
    simp only [decode, if_neg hb, Option.map_eq_some_iff] at h
    obtain ⟨bs, hbs, rfl⟩ := h
    rw [unescapeBinaryData_of_ne _ hb, ih hbs]

theorem decode_length_le (payload : List UInt8) : ∀ {bytes : List UInt8}, decode payload = some bytes →
    bytes.length ≤ payload.length := by
  induction payload using decode.induct with
  | case1 =>
    intro bytes h
    obtain rfl := Option.some.inj h
    exact le_rfl
  | case2 =>
    intro bytes h
    cases h
  | case3 b hb =>
    intro bytes h
    simp only [decode, if_neg hb, Option.some.injEq] at h
    subst h
    exact le_rfl
  | case4 c payload ih =>
    intro bytes h
    simp only [decode, if_true, Option.map_eq_some_iff] at h
    obtain ⟨bs, hbs, rfl⟩ := h
    have := ih hbs
    simp only [List.length_cons]
    omega
  | case5 b c payload hb ih =>
    intro bytes h
    simp only [decode, if_neg hb, Option.map_eq_some_iff] at h
    obtain ⟨bs, hbs, rfl⟩ := h
    exact Nat.succ_le_succ (ih hbs)

/-! ## The packet -/

namespace PacketBuffer

variable {packet : PacketBuffer} {addr len : UInt32} {dataStart : Nat} {bytes : List UInt8}

/-- The data begin behind the announcement, in the packet. -/
theorem announced_bounds (h : packet.announced = some (addr, len, dataStart)) :
    4 ≤ dataStart ∧ dataStart ≤ packet.commandEnd := by
  unfold announced at h
  split at h
  · cases h
  · rename_i lst pos hnumbers
    split at h
    · rename_i hcolon
      cases h
      have hpos := parseIntegerList_pos hnumbers
      have hlt : pos < packet.commandData.length := lt_of_getD_ne_zero (by rw [hcolon]; decide)
      have hle : packet.commandData.length ≤ packet.commandEnd - 2 := by
        have := (List.takeWhile_prefix (· ≠ 0) (l := packet.bytes.read 2 (packet.commandEnd - 2))).length_le
        rwa [Memory.read_length] at this
      have := packet.le_commandEnd
      omega
    · cases h

/-- The sums of pointers. -/
theorem address_add (packet : PacketBuffer) {n : Nat} (h : n ≤ packetBufSize) :
    (packet.address + UInt32.ofNat n).toNat = packet.address.toNat + n := by
  have hobject := packet.object
  rw [UInt32.toNat_add, UInt32.toNat_ofNat']
  omega

theorem address_end (packet : PacketBuffer) :
    (packet.address + 4 + UInt32.ofNat gdbBufLen).toNat = packet.address.toNat + packetBufSize := by
  have hobject := packet.object
  rw [UInt32.toNat_add, UInt32.toNat_add, UInt32.toNat_ofNat', show UInt32.toNat 4 = 4 from rfl]
  unfold packetBufSize gdbBufLen at *
  omega

theorem address_add_len (packet : PacketBuffer) {len : UInt32} (h : dataStart + len.toNat < packetBufSize) :
    (packet.address + UInt32.ofNat dataStart + len).toNat = packet.address.toNat + dataStart + len.toNat := by
  have hobject := packet.object
  rw [UInt32.toNat_add, packet.address_add (by omega), Nat.mod_eq_of_lt (by omega)]

/-- `len` bytes are read, if their end does not wrap around. -/
theorem unescape_eq (h : dataStart + len.toNat < packetBufSize) :
    packet.unescape dataStart len =
      unescapeBinaryData (packet.bytes (dataStart + len.toNat)) (packet.bytes.read dataStart len.toNat) := by
  unfold unescape
  split
  · rfl
  · rename_i hloop
    rw [UInt32.lt_iff_toNat_lt, packet.address_add_len h, packet.address_add (by omega)] at hloop
    rw [show len.toNat = 0 by omega]
    rfl

/-- They are as many bytes as before, if no escape character is in front of the last one. -/
theorem unescape_length_eq (h : dataStart + len.toNat < packetBufSize) :
    (packet.unescape dataStart len).length = len.toNat ↔ ¬packet.EscapesEarly dataStart len.toNat := by
  have hlast : (packet.bytes.read dataStart len.toNat).dropLast = packet.bytes.read dataStart (len.toNat - 1) := by
    rw [List.dropLast_eq_take, Memory.read_length, packet.bytes.read_take _ (Nat.sub_le _ _)]
  have hlength := unescapeBinaryData_length_eq (packet.bytes (dataStart + len.toNat)) (packet.bytes.read dataStart len.toNat)
  rw [Memory.read_length, hlast] at hlength
  rw [unescape_eq h, hlength]
  rfl

theorem unescape_length_le (h : dataStart + len.toNat < packetBufSize) :
    (packet.unescape dataStart len).length ≤ len.toNat := by
  have hle := unescapeBinaryData_length_le (packet.bytes (dataStart + len.toNat)) (packet.bytes.read dataStart len.toNat)
  rwa [Memory.read_length, ← unescape_eq h] at hle

/-- The end of a range that does not fit into the buffer is behind it, or wraps around, and then nothing is read. -/
theorem unescape_wraps (hstart : dataStart ≤ packet.commandEnd) (h : packetBufSize ≤ dataStart + len.toNat)
    (hlow : packet.address + UInt32.ofNat dataStart + len < packet.address + 4 + UInt32.ofNat gdbBufLen) :
    packet.unescape dataStart len = [] ∧ 0 < len.toNat := by
  have hobject := packet.object
  have hend := packet.commandEnd_lt
  have hlen := len.toNat_lt
  rw [UInt32.lt_iff_toNat_lt, packet.address_end, UInt32.toNat_add, packet.address_add (by omega)] at hlow
  refine ⟨?_, by omega⟩
  unfold unescape
  rw [if_neg]
  rw [UInt32.lt_iff_toNat_lt, UInt32.toNat_add _ len, packet.address_add (by omega)]
  omega

/-- What is requested is announced, and in the packet. -/
theorem requested_eq (hannounced : packet.announced = some (addr, len, dataStart)) {a : UInt32}
    (h : packet.requested = some (a, bytes)) :
    a = addr ∧ bytes.length = len.toNat ∧ decode (packet.bytes.read dataStart (packet.commandEnd - dataStart)) = some bytes := by
  unfold requested at h
  rw [hannounced] at h
  simp only [Option.bind_eq_bind, Option.bind_some, Option.bind_eq_some_iff] at h
  obtain ⟨bs, hdecode, h⟩ := h
  split at h
  · rename_i hlength
    cases h
    exact ⟨rfl, hlength, hdecode⟩
  · cases h

/-- It has room in the buffer, and without an early escape character it is what the handler reads. -/
theorem requested_fits (hannounced : packet.announced = some (addr, len, dataStart)) {a : UInt32}
    (h : packet.requested = some (a, bytes)) :
    dataStart + len.toNat < packetBufSize ∧
      (¬packet.EscapesEarly dataStart len.toNat → packet.unescape dataStart len = bytes) := by
  obtain ⟨-, hlength, hdecode⟩ := requested_eq hannounced h
  have hend := packet.commandEnd_lt
  have hstart := (announced_bounds hannounced).2
  have hle := decode_length_le _ hdecode
  rw [Memory.read_length] at hle
  refine ⟨by omega, fun hearly => ?_⟩
  have hbehind : packet.bytes.read dataStart (packet.commandEnd - dataStart) ++ packet.bytes.read packet.commandEnd 1 =
      packet.bytes.read dataStart (packet.commandEnd - dataStart + 1) := by
    rw [packet.bytes.read_add, Nat.add_sub_cancel' hstart]
  have hread := unescapeBinaryData_decode (packet.bytes.read packet.commandEnd 1) _ hdecode
  rw [hbehind, hlength, packet.bytes.read_take _ (by omega), packet.bytes.read_take _ (by omega),
    packet.bytes.read_getD _ (by omega)] at hread
  rw [unescape_eq (by omega)]
  exact hread hearly

end PacketBuffer

/-! ## The handler -/

section

variable {packet : PacketBuffer} {addr len : UInt32} {dataStart : Nat} (target : TargetMemory) (stack : Memory UInt8)

/-- A length that does not fit into the buffer is rejected. -/
theorem handleWriteMemoryRaw_beyond (hannounced : packet.announced = some (addr, len, dataStart))
    (h : packetBufSize ≤ dataStart + len.toNat) : ∃ data no, (∀ w ∈ data, w.stop ≤ gdbBufLen) ∧
      ∀ calls, handleWriteMemoryRaw packet target stack calls = some ⟨false, data, [], .errno no⟩ := by
  unfold handleWriteMemoryRaw
  rw [hannounced]
  simp only
  split
  · exact ⟨[], 12, by simp, fun _ => rfl⟩
  · rename_i hlow
    obtain ⟨hnone, hpos⟩ := PacketBuffer.unescape_wraps (PacketBuffer.announced_bounds hannounced).2 h (UInt32.not_le.mp hlow)
    refine ⟨[⟨0, []⟩], 0, by simp [Write.stop], fun _ => ?_⟩
    rw [hnone, if_pos (by rw [List.length_nil]; omega)]
    rfl

/-- Otherwise the escape characters decide. -/
theorem handleWriteMemoryRaw_inside (hannounced : packet.announced = some (addr, len, dataStart))
    (h : dataStart + len.toNat < packetBufSize) (calls : Nat) : handleWriteMemoryRaw packet target stack calls =
      if (packet.unescape dataStart len).length ≠ len.toNat then
        some ⟨false, [⟨0, packet.unescape dataStart len⟩], [], .errno (packet.unescape dataStart len).length⟩
      else (gdbWriteMemory target (stack.written [⟨0, packet.unescape dataStart len⟩]) calls addr len).map fun (writes, reply) =>
        ⟨true, [⟨0, packet.unescape dataStart len⟩], writes, reply⟩ := by
  unfold handleWriteMemoryRaw
  rw [hannounced]
  simp only
  rw [if_neg]
  rw [ge_iff_le, UInt32.not_le, UInt32.lt_iff_toNat_lt, packet.address_end, packet.address_add_len h]
  omega

end

theorem handleWriteMemoryRaw_iff (packet : PacketBuffer) (target : TargetMemory) (stack : Memory UInt8) :
    (∃ calls out, handleWriteMemoryRaw packet target stack calls = some out ∧ Obeys packet target out) ↔
      RawRight packet target stack := by
  unfold RawRight Obeys
  rcases hannounced : packet.announced with _ | ⟨addr, len, dataStart⟩
  · have hrequested : packet.requested = none := by
      unfold PacketBuffer.requested
      rw [hannounced]
      rfl
    simp only [hrequested, iff_true]
    refine ⟨0, ⟨false, [], [], .errno 138⟩, ?_, by simp, rfl, rfl, 138, rfl⟩
    unfold handleWriteMemoryRaw
    rw [hannounced]
  simp only
  rcases Nat.lt_or_ge (dataStart + len.toNat) packetBufSize with hfits | hbeyond
  · have hhandle := handleWriteMemoryRaw_inside target stack hannounced hfits
    have hsize : (packet.unescape dataStart len).length ≤ gdbBufLen := by
      have hle := packet.unescape_length_le hfits
      have hstart := (PacketBuffer.announced_bounds hannounced).1
      unfold packetBufSize at hfits
      omega
    have hdata : ∀ w ∈ [(⟨0, packet.unescape dataStart len⟩ : Write UInt8)], w.stop ≤ gdbBufLen := by
      simpa [Write.stop] using hsize
    have hlength := packet.unescape_length_eq hfits
    by_cases hearly : packet.EscapesEarly dataStart len.toNat
    · -- the handler reads too few bytes, and rejects the packet
      simp only [if_pos (show (packet.unescape dataStart len).length ≠ len.toNat from fun h => hlength.mp h hearly)] at hhandle
      simp only [hhandle, Option.some.injEq, exists_eq_left', exists_const, hearly, not_true, false_and, or_true]
      rcases packet.requested with _ | ⟨a, bytes⟩
      · simp [hdata]
      · simp
    · simp only [hlength.mpr hearly, ne_eq, not_true, if_false] at hhandle
      simp only [hhandle, hearly, or_false, Nat.not_le.mpr hfits]
      rcases hrequested : packet.requested with _ | ⟨a, bytes⟩
      · -- it takes what are not the announced data
        simp
      · obtain ⟨rfl, hbytes, -⟩ := PacketBuffer.requested_eq hannounced hrequested
        have hread := (PacketBuffer.requested_fits hannounced hrequested).2 hearly
        have hstack : (stack.written [⟨0, bytes⟩]).read 0 len.toNat = bytes := by
          have h := stack.read_store 0 (show 0 + bytes.length ≤ bytes.length by omega)
          rwa [List.drop_zero, List.take_length, hbytes] at h
        have hlen : len.toNat + 3 ≤ 2 ^ 32 := by
          unfold packetBufSize gdbBufLen at hfits
          omega
        have hwrite := gdbWriteMemory_iff target (stack.written [⟨0, bytes⟩]) a hlen
        rw [hstack] at hwrite
        rw [hread] at hdata ⊢
        simp only [not_false_eq_true, true_and, ← hwrite]
        constructor
        · rintro ⟨calls, out, hout, -, -, hprefix⟩
          obtain ⟨⟨writes, reply⟩, hwrites, rfl⟩ := Option.map_eq_some_iff.mp hout
          exact ⟨calls, writes, reply, hwrites, hprefix⟩
        · rintro ⟨calls, writes, reply, hwrites, hprefix⟩
          refine ⟨calls, ⟨true, [⟨0, bytes⟩], writes, reply⟩, ?_, hdata, rfl, hprefix⟩
          rw [hwrites]
          rfl
  · obtain ⟨data, no, hdata, hhandle⟩ := handleWriteMemoryRaw_beyond target stack hannounced hbeyond
    have hrequested : packet.requested = none := by
      rcases hrequested : packet.requested with _ | ⟨a, bytes⟩
      · rfl
      · have := (PacketBuffer.requested_fits hannounced hrequested).1
        omega
    simp only [hrequested, hbeyond, true_or, iff_true]
    exact ⟨0, _, hhandle 0, hdata, rfl, rfl, no, rfl⟩

/-- `X100000,2:` and two bytes, the first of which has to be escaped. -/
def escapedPacket : PacketBuffer where
  address := 0x100000
  object := by decide
  bytes := Memory.ofBytes (0x24 :: ascii "X100000,2:" ++ [0x7D, 0x03, 0x61])
  commandEnd := 14
  le_commandEnd := by decide
  commandEnd_lt := by decide
  terminated := by decide

/-- It is rejected. -/
theorem escapedPacket_rejected :
    ¬∃ calls out, handleWriteMemoryRaw escapedPacket allMapped (fun _ => 0) calls = some out ∧
      Obeys escapedPacket allMapped out := by
  have hrequested : escapedPacket.requested = some (0x100000, [0x23, 0x61]) := by decide +kernel
  have hhandle : ∀ calls, handleWriteMemoryRaw escapedPacket allMapped (fun _ => 0) calls =
      some ⟨false, [⟨0, [0x23]⟩], [], .errno 1⟩ := fun _ => rfl
  rintro ⟨calls, out, hout, -, hobeys⟩
  rw [hhandle calls] at hout
  obtain rfl := Option.some.inj hout
  rw [hrequested] at hobeys
  cases hobeys.1

end Omiiba.Rosalina
