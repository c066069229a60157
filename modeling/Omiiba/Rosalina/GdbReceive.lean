/-
How a packet comes in, after `GDB_ReceivePacket` of net.c and `GDB_DoPacket` of server.c: it is looked at
before it is taken from the socket, and checked before a handler gets it.
-/
import Omiiba.Rosalina.GdbNet

namespace Omiiba.Rosalina

/-- What the calls on the socket return, in the order of the source; how much arrives with each of them is
up to the network. -/
structure SocketResults where
  peek : Int
  /-- for the `+` in front of a packet -/
  consume : Int
  peekAgain : Int
  receive : Int
  send : Int

/-- `socRecv` for at most `len` bytes of a stream: an error, or the first bytes of the stream. -/
def socRecv (stream : List UInt8) (len : Nat) (result : Int) : Int × List UInt8 :=
  if result < 1 then (result, [])
  else (((stream.take (min result.toNat len)).length : Int), stream.take (min result.toNat len))

/-- The fields of a context that receiving uses. -/
structure ReceiveContext where
  /-- `GDB_FLAG_NOACK` -/
  noAck : Bool
  noAckSent : Bool
  buffer : Memory UInt8
  latestSentPacketSize : Nat

/-- What a call has done: the writes to `ctx->buffer`, the bytes sent, what is left in the socket. -/
structure Received where
  ret : Int
  writes : List (Write UInt8)
  sent : List UInt8
  stream : List UInt8
  commandEnd : Option Nat
  noAck : Bool
  noAckSent : Bool

/-! ## Digits -/

/-- `GDB_DecodeHexDigit`, with what it leaves in `*ok`. -/
def decodeHexDigit (src : UInt8) : Nat × Bool := ((Hex.digitValue src).getD 0, (Hex.digitValue src).isSome)

/-- `GDB_DecodeHex`: the bytes it counts. The second digit of a byte overwrites what the first one left in `ok`. -/
def decodeHex : Nat → List UInt8 → List UInt8
  | len + 1, a :: b :: src =>
    if a = 0 ∨ b = 0 then []
    else
      let (high, _) := decodeHexDigit a
      let (low, ok) := decodeHexDigit b
      if ok then UInt8.ofNat (16 * high + low) :: decodeHex len src else []
  | _, _ => []

/-! ## Receiving -/

section

variable (ctx : ReceiveContext) (results : SocketResults)

/-- The end of `GDB_ReceivePacket` for a packet that is well formed. -/
def acknowledge (writes : List (Write UInt8)) (stream : List UInt8) (commandEnd : Option Nat) (r : Int) : Received :=
  if !ctx.noAck && results.send != 1 then ⟨-1, writes, ascii "+", stream, commandEnd, ctx.noAck, ctx.noAckSent⟩
  else ⟨r, writes, if ctx.noAck then [] else ascii "+", stream, commandEnd, ctx.noAck || ctx.noAckSent, false⟩

/-- The label `packet_error`. -/
def packetError (writes : List (Write UInt8)) (stream : List UInt8) : Received :=
  if ctx.noAck then ⟨-1, writes, [], stream, none, ctx.noAck, ctx.noAckSent⟩
  else ⟨if results.send = 1 then 0 else -1, writes, ascii "-", stream, none, ctx.noAck, ctx.noAckSent⟩

/-- The buffer after writes, which begins with zeros. -/
def bufferAfter (writes : List (Write UInt8)) : Memory UInt8 := ctx.buffer.written writes

/-- `GDB_ReceivePacket` for a packet that begins with `$`, of which `maxlen` bytes are in the buffer. -/
def receiveNormal (writes : List (Write UInt8)) (stream : List UInt8) (maxlen : Nat) : Received :=
  let pos := ((bufferAfter ctx writes).read 0 maxlen).idxOf 0x23
  if pos = maxlen then ⟨-1, writes, [], stream, none, ctx.noAck, ctx.noAckSent⟩ -- malformed packet
  else
    let (r, got) := socRecv stream (3 + pos) results.receive
    let writes := writes ++ [⟨0, got⟩]
    let stream := stream.drop got.length
    match decodeHex 1 ((bufferAfter ctx writes).read (pos + 1) 2) with
    | [checksum] =>
      if r ≠ 3 + pos ∨ computeChecksum ((bufferAfter ctx writes).read 1 (pos - 1)) ≠ checksum then
        packetError ctx results writes stream
      else acknowledge ctx results (writes ++ [⟨pos, [0]⟩]) stream (some pos) r
    | _ => packetError ctx results writes stream

/-- `GDB_ReceivePacket` from the second look on, which has returned `r`. -/
def receiveRest (writes : List (Write UInt8)) (stream : List UInt8) (r : Int) : Received :=
  let first := bufferAfter ctx writes 0
  if first = 0x2D then -- '-': the packet is sent again
    ⟨0, writes, ctx.buffer.read 0 ctx.latestSentPacketSize, stream, none, ctx.noAck, ctx.noAckSent⟩
  else if first = 0x24 then receiveNormal ctx results writes stream (min r.toNat packetBufSize)
  else if first = 0x03 then
    let (r, got) := socRecv stream 1 results.receive
    if r ≠ 1 then packetError ctx results (writes ++ [⟨0, got⟩]) (stream.drop got.length)
    else acknowledge ctx results (writes ++ [⟨0, got⟩]) (stream.drop got.length) (some 0) r
  else acknowledge ctx results writes stream none r

/-- `GDB_ReceivePacket`. -/
def receivePacket (stream : List UInt8) : Received :=
  let (r, got) := socRecv stream packetBufSize results.peek
  let writes := [⟨0, List.replicate packetBufSize 0⟩, ⟨0, got⟩]
  let failed : Received := ⟨-1, writes, [], stream, none, ctx.noAck, ctx.noAckSent⟩
  if r < 1 then failed
  else if bufferAfter ctx writes 0 = 0x2B then -- '+'
    if ctx.noAck then failed
    else
      let (r, got) := socRecv stream 1 results.consume
      let writes := writes ++ [⟨0, got⟩]
      if r ≠ 1 then { failed with writes := writes, stream := stream.drop got.length }
      else
        let stream := stream.drop 1
        let (r, got) := socRecv stream packetBufSize results.peekAgain
        let writes := writes ++ [⟨0, [0]⟩, ⟨0, got⟩]
        if r = -1 then packetError ctx results writes stream
        else receiveRest ctx results writes stream r
  else receiveRest ctx results writes stream r

/-- `GDB_DoPacket`: what a handler gets, from the command letter to `commandEnd`. -/
def handedOver (received : Received) : Option (List UInt8) :=
  if received.ret = 0 ∨ received.ret = -1 then none
  else if bufferAfter ctx received.writes 0 = 0x24 then
    some ((bufferAfter ctx received.writes).read 1 (received.commandEnd.getD 0 - 1))
  else none

/-! ## What should hold -/

/-- Nothing is written behind the buffer. -/
def StaysInside (received : Received) : Prop := ∀ w ∈ received.writes, w.stop ≤ packetBufSize

/-- A handler gets what was between `$` and the first `#`, with its checksum behind it, all taken from the stream. -/
def HandsChecked (stream : List UInt8) (received : Received) : Prop :=
  ∀ payload, handedOver ctx received = some payload → ∃ front c₁ c₂,
    stream = front ++ 0x24 :: (payload ++ 0x23 :: c₁ :: c₂ :: received.stream) ∧ 0x23 ∉ payload ∧
      Hex.value 0 [c₁, c₂] = some (computeChecksum payload).toNat

/-- The bytes without the `+` in front, and how many of them have been looked at. -/
def packetSeen (stream : List UInt8) : Option (List UInt8 × Nat) :=
  let seen := (socRecv stream packetBufSize results.peek).2
  if seen = [] then none
  else if seen.head? = some 0x2B then
    if ctx.noAck ∨ (socRecv stream 1 results.consume).2 = [] then none
    else some (stream.tail, (socRecv stream.tail packetBufSize results.peekAgain).2.length)
  else some (stream, seen.length)

/-- The payload of a packet that ends at `pos`. -/
def payloadOf (packet : List UInt8) (pos : Nat) : List UInt8 := (packet.drop 1).take (pos - 1)

/-- The first digit of the checksum is none, and the second one alone is the checksum. -/
def Misread (packet : List UInt8) (pos : Nat) : Prop :=
  ∃ c₁ c₂, (packet.drop (pos + 1)).take 2 = [c₁, c₂] ∧ c₁ ≠ 0 ∧ Hex.digitValue c₁ = none ∧
    Hex.digitValue c₂ = some (computeChecksum (payloadOf packet pos)).toNat

/-- For a packet of which `n` bytes have been looked at: if that shows its end, then what is taken for it has room
in the buffer, and its checksum is not misread. -/
def Harmless (packet : List UInt8) (n : Nat) : Prop :=
  packet.head? = some 0x24 → packet.idxOf 0x23 < n →
    (socRecv packet (3 + packet.idxOf 0x23) results.receive).2.length ≤ packetBufSize ∧
      ((socRecv packet (3 + packet.idxOf 0x23) results.receive).2.length = 3 + packet.idxOf 0x23 →
        (ctx.noAck = true ∨ results.send = 1) → ¬Misread packet (packet.idxOf 0x23))

end

/-! ## The socket -/

theorem socRecv_cases (stream : List UInt8) (len : Nat) (result : Int) :
    ((socRecv stream len result).1 < 1 ∧ (socRecv stream len result).2 = []) ∨
      ∃ k, 0 < k ∧ k ≤ len ∧ k ≤ stream.length ∧ socRecv stream len result = ((k : Int), stream.take k) := by
  unfold socRecv
  split
  · exact Or.inl ⟨by assumption, rfl⟩
  · rcases Nat.eq_zero_or_pos (stream.take (min result.toNat len)).length with hnone | hsome
    · left
      exact ⟨by simp only [hnone]; decide, List.length_eq_zero_iff.mp hnone⟩
    · right
      refine ⟨_, hsome, ?_, ?_, ?_⟩
      · rw [List.length_take]
        omega
      · rw [List.length_take]
        omega
      · rw [List.length_take, ← List.take_eq_take_min]

/-! ## Where a packet ends -/

/-- In the part that has been looked at, the first `#` is where it is in the packet, or nowhere. -/
theorem idxOf_seen {packet : List UInt8} {n : Nat} (h : n ≤ packet.length) :
    (packet.take n).idxOf 0x23 = if packet.idxOf 0x23 < n then packet.idxOf 0x23 else n := by
  have hlength : (packet.take n).length = n := List.length_take_of_le h
  have happend : (packet.take n ++ packet.drop n).idxOf 0x23 = _ := List.idxOf_append
  rw [List.take_append_drop, hlength] at happend
  rcases Decidable.em ((0x23 : UInt8) ∈ packet.take n) with hin | hout
  · rw [if_pos hin] at happend
    have hlt := List.idxOf_lt_length_of_mem hin
    rw [hlength] at hlt
    rw [happend, if_pos hlt]
  · rw [if_neg hout] at happend
    rw [if_neg (by omega), List.idxOf_eq_length_iff.mpr hout, hlength]

theorem not_mem_before (packet : List UInt8) : 0x23 ∉ packet.take (packet.idxOf 0x23) := by
  intro hin
  have happend : (packet.take (packet.idxOf 0x23) ++ packet.drop (packet.idxOf 0x23)).idxOf 0x23 = _ := List.idxOf_append
  rw [List.take_append_drop, if_pos hin] at happend
  have hlt := List.idxOf_lt_length_of_mem hin
  rw [List.length_take] at hlt
  omega

/-- The parts of a packet whose checksum has arrived. -/
theorem packet_parts {packet : List UInt8} (hhead : packet.head? = some 0x24) (hall : 3 + packet.idxOf 0x23 ≤ packet.length) :
    ∃ c₁ c₂, (packet.drop (packet.idxOf 0x23 + 1)).take 2 = [c₁, c₂] ∧ 0 < packet.idxOf 0x23 ∧
      0x23 ∉ payloadOf packet (packet.idxOf 0x23) ∧
      packet = 0x24 :: (payloadOf packet (packet.idxOf 0x23) ++ 0x23 :: c₁ :: c₂ :: packet.drop (3 + packet.idxOf 0x23)) := by
  obtain ⟨tail, rfl⟩ : ∃ tail, packet = 0x24 :: tail := by
    cases packet with
    | nil => cases hhead
    | cons b tail => exact ⟨tail, by rw [Option.some.inj hhead]⟩
  have hpos : List.idxOf (0x23 : UInt8) (0x24 :: tail) = tail.idxOf 0x23 + 1 := List.idxOf_cons_ne tail (by decide)
  have hbefore := not_mem_before (0x24 :: tail)
  rw [hpos] at hall hbefore ⊢
  have hlength : 3 + tail.idxOf 0x23 ≤ tail.length := by
    rw [List.length_cons] at hall
    omega
  have h0 : tail.idxOf 0x23 < tail.length := by omega
  have h1 : tail.idxOf 0x23 + 1 < tail.length := by omega
  have h2 : tail.idxOf 0x23 + 2 < tail.length := by omega
  have hend : tail[tail.idxOf 0x23] = 0x23 := List.getElem_idxOf h0
  refine ⟨tail[tail.idxOf 0x23 + 1], tail[tail.idxOf 0x23 + 2], ?_, Nat.succ_pos _, ?_, ?_⟩
  · rw [List.drop_succ_cons, List.drop_eq_getElem_cons (by omega), List.drop_eq_getElem_cons (by omega)]
    rfl
  · intro hin
    exact hbefore (List.mem_cons_of_mem _ hin)
  · have hrest : List.drop (3 + (tail.idxOf 0x23 + 1)) ((0x24 : UInt8) :: tail) = tail.drop (tail.idxOf 0x23 + 3) := by
      rw [show 3 + (tail.idxOf 0x23 + 1) = (tail.idxOf 0x23 + 3) + 1 by omega, List.drop_succ_cons]
    rw [hrest]
    congr 1
    show tail = tail.take (tail.idxOf 0x23) ++ _
    conv_lhs => rw [← List.take_append_drop (tail.idxOf 0x23) tail]
    congr 1
    rw [List.drop_eq_getElem_cons (by omega), hend, List.drop_eq_getElem_cons (by omega), List.drop_eq_getElem_cons (by omega)]

/-! ## The checksum -/

theorem digitValue_lt {c : UInt8} {v : Nat} (h : Hex.digitValue c = some v) : v < 16 := by
  unfold Hex.digitValue at h
  simp only [UInt8.le_iff_toNat_le] at h
  split at h
  · rename_i hc
    have : v = c.toNat - 48 := (Option.some.inj h).symm
    have : c.toNat ≤ 57 := hc.2
    omega
  · split at h
    · rename_i hc
      have : v = c.toNat - 87 := (Option.some.inj h).symm
      have : c.toNat ≤ 102 := hc.2
      omega
    · split at h
      · rename_i hc
        have : v = c.toNat - 55 := (Option.some.inj h).symm
        have : c.toNat ≤ 70 := hc.2
        omega
      · cases h

theorem digitValue_zero : Hex.digitValue 0 = none := rfl

theorem value_pair (c₁ c₂ : UInt8) :
    Hex.value 0 [c₁, c₂] = (Hex.digitValue c₁).bind fun high => (Hex.digitValue c₂).map fun low => 16 * high + low := by
  simp only [Hex.value]
  cases Hex.digitValue c₁ with
  | none => rfl
  | some high =>
    cases Hex.digitValue c₂ with
    | none => rfl
    | some low => simp

/-- The checksum that the code reads is the one that stands there, unless the first digit is none. -/
theorem decodeHex_pair (c₁ c₂ checksum : UInt8) :
    decodeHex 1 [c₁, c₂] = [checksum] ↔ Hex.value 0 [c₁, c₂] = some checksum.toNat ∨
      c₁ ≠ 0 ∧ Hex.digitValue c₁ = none ∧ Hex.digitValue c₂ = some checksum.toNat := by
  rw [value_pair]
  unfold decodeHex decodeHexDigit
  rcases eq_or_ne c₁ 0 with rfl | hfirst
  · simp [digitValue_zero]
  rcases eq_or_ne c₂ 0 with rfl | hsecond
  · simp [digitValue_zero]
  cases hlow : Hex.digitValue c₂ with
  | none => simp [hfirst, hsecond]
  | some low =>
    have hlow16 := digitValue_lt hlow
    have hbyte : ∀ {n : Nat}, n < 256 → (UInt8.ofNat n = checksum ↔ n = checksum.toNat) := by
      intro n hn
      rw [← UInt8.toNat_inj, UInt8.toNat_ofNat_of_lt' hn]
    cases hhigh : Hex.digitValue c₁ with
    | none =>
      simp only [hfirst, hsecond, or_self, if_false, Option.getD_none, Nat.mul_zero, Nat.zero_add, Option.isSome_some, if_true, decodeHex,
        List.cons.injEq, and_true, Option.getD_some, Option.bind_none, reduceCtorEq, false_or, ne_eq, not_false_eq_true, true_and,
        Option.some.injEq]
      exact hbyte (by omega)
    | some high =>
      have hhigh16 := digitValue_lt hhigh
      simp only [hfirst, hsecond, or_self, if_false, Option.getD_some, Option.isSome_some, if_true, decodeHex, List.cons.injEq, and_true,
        Option.bind_some, Option.map_some, Option.some.injEq, reduceCtorEq, false_and, and_false, or_false]
      exact hbyte (by omega)

/-! ## A packet -/

section

variable {ctx : ReceiveContext} {results : SocketResults} {writes : List (Write UInt8)} {stream packet : List UInt8} {n : Nat}

theorem handsChecked_of_none {received : Received} (h : handedOver ctx received = none) : HandsChecked ctx stream received := by
  intro payload hpayload
  rw [h] at hpayload
  cases hpayload

theorem handedOver_of_ret {received : Received} (h : received.ret = 0 ∨ received.ret = -1) : handedOver ctx received = none :=
  if_pos h

theorem handedOver_packetError : handedOver ctx (packetError ctx results writes stream) = none := by
  apply handedOver_of_ret
  unfold packetError
  split
  · exact Or.inr rfl
  · dsimp only
    split
    · exact Or.inl rfl
    · exact Or.inr rfl

@[simp] theorem packetError_writes : (packetError ctx results writes stream).writes = writes := by
  unfold packetError
  split <;> rfl

@[simp] theorem acknowledge_writes {commandEnd : Option Nat} {r : Int} :
    (acknowledge ctx results writes stream commandEnd r).writes = writes := by
  unfold acknowledge
  split <;> rfl

@[simp] theorem acknowledge_stream {commandEnd : Option Nat} {r : Int} :
    (acknowledge ctx results writes stream commandEnd r).stream = stream := by
  unfold acknowledge
  split <;> rfl

theorem receiveNormal_malformed (hn : n ≤ packet.length) (hseen : (bufferAfter ctx writes).read 0 n = packet.take n)
    (h : ¬packet.idxOf 0x23 < n) :
    receiveNormal ctx results writes packet n = ⟨-1, writes, [], packet, none, ctx.noAck, ctx.noAckSent⟩ := by
  unfold receiveNormal
  rw [hseen, idxOf_seen hn, if_neg h]
  simp only [if_true]

/-- Of a packet that does not arrive whole nothing is handed over. -/
theorem receiveNormal_short (hn : n ≤ packet.length) (hseen : (bufferAfter ctx writes).read 0 n = packet.take n)
    (h : packet.idxOf 0x23 < n) {r : Int} {got : List UInt8}
    (hgot : socRecv packet (3 + packet.idxOf 0x23) results.receive = (r, got)) (hr : r ≠ 3 + packet.idxOf 0x23) :
    receiveNormal ctx results writes packet n = packetError ctx results (writes ++ [⟨0, got⟩]) (packet.drop got.length) := by
  unfold receiveNormal
  rw [hseen, idxOf_seen hn, if_pos h]
  simp only [if_neg (Nat.ne_of_lt h), hgot]
  split
  · rw [if_pos (Or.inl hr)]
  · rfl

/-- A packet that does is handed over if its checksum, as the code reads it, is right. -/
theorem receiveNormal_whole (hn : n ≤ packet.length) (hseen : (bufferAfter ctx writes).read 0 n = packet.take n)
    (h : packet.idxOf 0x23 < n) (hpos : 0 < packet.idxOf 0x23) (hall : 3 + packet.idxOf 0x23 ≤ packet.length)
    (hgot : socRecv packet (3 + packet.idxOf 0x23) results.receive =
      (((3 + packet.idxOf 0x23 : Nat) : Int), packet.take (3 + packet.idxOf 0x23))) :
    receiveNormal ctx results writes packet n =
      if decodeHex 1 ((packet.drop (packet.idxOf 0x23 + 1)).take 2) =
          [computeChecksum (payloadOf packet (packet.idxOf 0x23))] then
        acknowledge ctx results (writes ++ [⟨0, packet.take (3 + packet.idxOf 0x23)⟩] ++ [⟨packet.idxOf 0x23, [0]⟩])
          (packet.drop (3 + packet.idxOf 0x23)) (some (packet.idxOf 0x23)) (3 + packet.idxOf 0x23 : Nat)
      else packetError ctx results (writes ++ [⟨0, packet.take (3 + packet.idxOf 0x23)⟩]) (packet.drop (3 + packet.idxOf 0x23)) := by
  have hlength : (packet.take (3 + packet.idxOf 0x23)).length = 3 + packet.idxOf 0x23 := List.length_take_of_le hall
  -- what is read from the buffer is what has just arrived
  have hread : ∀ {j m : Nat}, j + m ≤ 3 + packet.idxOf 0x23 →
      (bufferAfter ctx (writes ++ [⟨0, packet.take (3 + packet.idxOf 0x23)⟩])).read j m = (packet.drop j).take m := by
    intro j m hjm
    unfold bufferAfter
    rw [Memory.written_append, Memory.written_cons, Memory.written_nil]
    have hstore := Memory.read_store (ctx.buffer.written writes) 0 (show j + m ≤ (packet.take (3 + packet.idxOf 0x23)).length by omega)
    rw [Nat.zero_add] at hstore
    dsimp only
    rw [hstore, List.drop_take, List.take_take, Nat.min_eq_left (by omega)]
  have hchecksum := hread (show packet.idxOf 0x23 + 1 + 2 ≤ 3 + packet.idxOf 0x23 by omega)
  have hpayload := hread (show 1 + (packet.idxOf 0x23 - 1) ≤ 3 + packet.idxOf 0x23 by omega)
  unfold receiveNormal
  rw [hseen, idxOf_seen hn, if_pos h]
  simp only [if_neg (Nat.ne_of_lt h), hgot, hlength, hchecksum, hpayload]
  split
  · rename_i checksum hdecode
    rw [hdecode]
    unfold payloadOf
    by_cases hsame : computeChecksum ((packet.drop 1).take (packet.idxOf 0x23 - 1)) = checksum
    · rw [if_neg (not_or.mpr ⟨not_not.mpr (by push_cast; rfl), not_not.mpr hsame⟩), if_pos (by rw [hsame])]
    · rw [if_pos (Or.inr hsame), if_neg (by simpa using Ne.symm hsame)]
  · rename_i hdecode
    rw [if_neg (hdecode _)]

/-- What a handler gets of a packet that is acknowledged. -/
theorem handedOver_acknowledge (hpos : 0 < packet.idxOf 0x23) (hall : 3 + packet.idxOf 0x23 ≤ packet.length)
    (hhead : packet.head? = some 0x24) {left : List UInt8} :
    handedOver ctx (acknowledge ctx results
      (writes ++ [⟨0, packet.take (3 + packet.idxOf 0x23)⟩] ++ [⟨packet.idxOf 0x23, [0]⟩]) left
      (some (packet.idxOf 0x23)) (3 + packet.idxOf 0x23 : Nat)) =
      if ctx.noAck = true ∨ results.send = 1 then some (payloadOf packet (packet.idxOf 0x23)) else none := by
  have hlength : (packet.take (3 + packet.idxOf 0x23)).length = 3 + packet.idxOf 0x23 := List.length_take_of_le hall
  by_cases hsent : ctx.noAck = true ∨ results.send = 1
  · have hguard : ¬(!ctx.noAck && results.send != 1) = true := by
      rcases hsent with h | h <;> simp [h]
    have hbuffer : ∀ {j m : Nat}, j + m ≤ packet.idxOf 0x23 →
        (bufferAfter ctx (writes ++ [⟨0, packet.take (3 + packet.idxOf 0x23)⟩] ++ [⟨packet.idxOf 0x23, [0]⟩])).read j m =
          (packet.drop j).take m := by
      intro j m hjm
      unfold bufferAfter
      rw [Memory.written_append, Memory.written_append, Memory.written_cons, Memory.written_nil, Memory.written_cons,
        Memory.written_nil]
      dsimp only
      rw [Memory.read_congr fun x _ hx => Memory.store_outside _ (Or.inl (by omega))]
      have hstore := Memory.read_store (ctx.buffer.written writes) 0 (show j + m ≤ (packet.take (3 + packet.idxOf 0x23)).length by omega)
      rw [Nat.zero_add] at hstore
      rw [hstore, List.drop_take, List.take_take, Nat.min_eq_left (by omega)]
    have hfirst : bufferAfter ctx
        (writes ++ [⟨0, packet.take (3 + packet.idxOf 0x23)⟩] ++ [⟨packet.idxOf 0x23, [0]⟩]) 0 = 0x24 := by
      have hone := hbuffer (show 0 + 1 ≤ packet.idxOf 0x23 from hpos)
      rw [List.drop_zero, List.take_one, hhead] at hone
      exact (List.cons.inj hone).1
    rw [if_pos hsent]
    unfold handedOver acknowledge
    rw [if_neg hguard]
    dsimp only
    rw [if_neg (by omega), hfirst, if_pos rfl, Option.getD_some, hbuffer (by omega)]
    rfl
  · have hguard : (!ctx.noAck && results.send != 1) = true := by
      rw [not_or] at hsent
      simp [hsent]
    rw [if_neg hsent]
    apply handedOver_of_ret
    unfold acknowledge
    rw [if_pos hguard]
    exact Or.inr rfl

/-- Of a misread packet the handler gets a payload whose checksum does not stand behind it. -/
theorem not_handsChecked {front : List UInt8} (hall : 3 + packet.idxOf 0x23 ≤ packet.length) (hhead : packet.head? = some 0x24)
    (hmisread : Misread packet (packet.idxOf 0x23)) {received : Received}
    (hleft : received.stream = packet.drop (3 + packet.idxOf 0x23))
    (hhanded : handedOver ctx received = some (payloadOf packet (packet.idxOf 0x23))) :
    ¬HandsChecked ctx (front ++ packet) received := by
  intro h
  obtain ⟨c₁, c₂, hpair, -, hnone, -⟩ := hmisread
  obtain ⟨d₁, d₂, hpair', -, -, hparts⟩ := packet_parts hhead hall
  rw [hpair] at hpair'
  obtain ⟨rfl, rfl⟩ : c₁ = d₁ ∧ c₂ = d₂ := by simpa using hpair'
  obtain ⟨front', e₁, e₂, hstream, -, hvalue⟩ := h _ hhanded
  -- both decompositions end with the two digits and what is left
  have hsplit : (front ++ 0x24 :: payloadOf packet (packet.idxOf 0x23) ++ [0x23]) ++ c₁ :: c₂ :: received.stream =
      (front' ++ 0x24 :: payloadOf packet (packet.idxOf 0x23) ++ [0x23]) ++ e₁ :: e₂ :: received.stream := by
    rw [hleft]
    conv at hstream => lhs; rw [hparts]
    simpa [List.append_assoc, hleft] using hstream
  have hdigits := (List.append_inj' hsplit (by simp)).2
  obtain ⟨rfl, -⟩ := List.cons.inj hdigits
  rw [value_pair, hnone] at hvalue
  cases hvalue

/-- A packet of which `n` bytes have been looked at is received as it should be, if and only if it is harmless. -/
theorem receiveNormal_iff {front : List UInt8} (hin : ∀ w ∈ writes, w.stop ≤ packetBufSize) (hn : n ≤ packet.length)
    (hseen : (bufferAfter ctx writes).read 0 n = packet.take n) (hhead : packet.head? = some 0x24) :
    StaysInside (receiveNormal ctx results writes packet n) ∧
      HandsChecked ctx (front ++ packet) (receiveNormal ctx results writes packet n) ↔ Harmless ctx results packet n := by
  by_cases h : packet.idxOf 0x23 < n
  · unfold Harmless
    simp only [hhead, h, true_imp_iff]
    have hinside : ∀ {got : List UInt8}, (∀ w ∈ writes ++ [(⟨0, got⟩ : Write UInt8)], w.stop ≤ packetBufSize) ↔
        got.length ≤ packetBufSize := by
      intro got
      rw [List.forall_mem_append, List.forall_mem_singleton]
      simp only [Write.stop, Nat.zero_add, and_iff_right_iff_imp]
      exact fun _ => hin
    have hshort : ∀ {r : Int} {got : List UInt8}, socRecv packet (3 + packet.idxOf 0x23) results.receive = (r, got) →
        r ≠ 3 + packet.idxOf 0x23 →
        (StaysInside (receiveNormal ctx results writes packet n) ∧
          HandsChecked ctx (front ++ packet) (receiveNormal ctx results writes packet n) ↔ got.length ≤ packetBufSize) := by
      intro r got hgot hr
      rw [receiveNormal_short hn hseen h hgot hr]
      constructor
      · rintro ⟨hstays, -⟩
        unfold StaysInside at hstays
        rwa [packetError_writes, hinside] at hstays
      · intro hgot
        refine ⟨?_, handsChecked_of_none handedOver_packetError⟩
        unfold StaysInside
        rwa [packetError_writes, hinside]
    rcases socRecv_cases packet (3 + packet.idxOf 0x23) results.receive with ⟨hr, hnil⟩ | ⟨k, hk, hkmax, hklength, hgot⟩
    · obtain ⟨r, got, hgot⟩ : ∃ r got, socRecv packet (3 + packet.idxOf 0x23) results.receive = (r, got) := ⟨_, _, rfl⟩
      rw [hgot] at hr hnil ⊢
      dsimp only at hr hnil ⊢
      subst hnil
      rw [hshort hgot (ne_of_lt (hr.trans_le (by omega)))]
      simp only [List.length_nil]
      constructor
      · exact fun hle => ⟨hle, fun habs => by omega⟩
      · exact fun hle => hle.1
    · have hlength : (packet.take k).length = k := List.length_take_of_le hklength
      rcases Nat.lt_or_ge k (3 + packet.idxOf 0x23) with hless | hwhole
      · rw [hshort hgot (by omega), hgot]
        simp only [hlength]
        constructor
        · exact fun hle => ⟨hle, fun habs => by omega⟩
        · exact fun hle => hle.1
      · obtain rfl : k = 3 + packet.idxOf 0x23 := by omega
        obtain ⟨c₁, c₂, hpair, hpos, hfirst, hparts⟩ := packet_parts hhead hklength
        rw [receiveNormal_whole hn hseen h hpos hklength hgot, hgot, hpair]
        simp only [hlength, true_imp_iff]
        have hinside' : (∀ w ∈ writes ++ [⟨0, packet.take (3 + packet.idxOf 0x23)⟩] ++ [(⟨packet.idxOf 0x23, [0]⟩ : Write UInt8)],
            w.stop ≤ packetBufSize) ↔ 3 + packet.idxOf 0x23 ≤ packetBufSize := by
          rw [List.forall_mem_append, hinside, hlength, List.forall_mem_singleton]
          simp only [Write.stop, List.length_singleton, and_iff_left_iff_imp]
          omega
        by_cases hdecode : decodeHex 1 [c₁, c₂] = [computeChecksum (payloadOf packet (packet.idxOf 0x23))]
        · rw [if_pos hdecode]
          rw [decodeHex_pair] at hdecode
          unfold StaysInside
          rw [acknowledge_writes, hinside']
          refine and_congr_right fun _ => ?_
          constructor
          · intro hchecked hsent hmisread
            refine not_handsChecked hklength hhead hmisread acknowledge_stream ?_ hchecked
            rw [handedOver_acknowledge hpos hklength hhead, if_pos hsent]
          · intro hharmless payload hpayload
            rw [handedOver_acknowledge hpos hklength hhead] at hpayload
            split at hpayload
            · rename_i hsent
              obtain rfl := Option.some.inj hpayload
              rcases hdecode with hvalue | ⟨hzero, hnone, hlow⟩
              · refine ⟨front, c₁, c₂, ?_, hfirst, hvalue⟩
                rw [acknowledge_stream, ← hparts]
              · exact absurd ⟨c₁, c₂, hpair, hzero, hnone, hlow⟩ (hharmless hsent)
            · cases hpayload
        · rw [if_neg hdecode]
          unfold StaysInside
          rw [packetError_writes, hinside, hlength]
          refine and_congr_right fun _ => ⟨fun _ _ hmisread => ?_, fun _ => handsChecked_of_none handedOver_packetError⟩
          obtain ⟨d₁, d₂, hpair', hzero, hnone, hlow⟩ := hmisread
          rw [hpair] at hpair'
          obtain ⟨rfl, rfl⟩ : c₁ = d₁ ∧ c₂ = d₂ := by simpa using hpair'
          exact hdecode ((decodeHex_pair _ _ _).mpr (Or.inr ⟨hzero, hnone, hlow⟩))
  · rw [receiveNormal_malformed hn hseen h]
    constructor
    · exact fun _ _ habs => absurd habs h
    · exact fun _ => ⟨hin, handsChecked_of_none (handedOver_of_ret (Or.inr rfl))⟩

/-- Without a `$` in front nothing is handed over. -/
theorem handedOver_of_first {received : Received} (h : bufferAfter ctx received.writes 0 ≠ 0x24) :
    handedOver ctx received = none := by
  unfold handedOver
  rw [if_neg h, ite_self]

/-- What comes after the last look at the socket, which has shown `n` bytes. -/
theorem receiveRest_iff {front : List UInt8} {r : Int} (hin : ∀ w ∈ writes, w.stop ≤ packetBufSize) (hn : n ≤ packet.length)
    (hroom : n ≤ packetBufSize) (hseen : (bufferAfter ctx writes).read 0 n = packet.take n) (hr : 0 < n → r = n)
    (hnone : n = 0 → bufferAfter ctx writes 0 = 0) :
    StaysInside (receiveRest ctx results writes packet r) ∧
      HandsChecked ctx (front ++ packet) (receiveRest ctx results writes packet r) ↔ Harmless ctx results packet n := by
  have hhead : 0 < n → packet.head? = some (bufferAfter ctx writes 0) := by
    intro hpos
    obtain ⟨b, tail, rfl⟩ := List.exists_cons_of_ne_nil (List.ne_nil_of_length_pos (hpos.trans_le hn))
    obtain ⟨n, rfl⟩ := Nat.exists_eq_succ_of_ne_zero hpos.ne'
    have hfirst := congrArg List.head? hseen
    simp only [Memory.read, List.range_succ_eq_map, List.map_cons, List.head?_cons, List.take_succ_cons, Nat.add_zero] at hfirst
    exact hfirst.symm
  unfold receiveRest
  dsimp only
  by_cases hminus : bufferAfter ctx writes 0 = 0x2D
  · rw [if_pos hminus]
    constructor
    · intro _ hdollar hlt
      rw [hhead (by omega), hminus] at hdollar
      cases hdollar
    · exact fun _ => ⟨hin, handsChecked_of_none (handedOver_of_ret (Or.inl rfl))⟩
  rw [if_neg hminus]
  by_cases hdollar : bufferAfter ctx writes 0 = 0x24
  · have hpos : 0 < n := by
      rcases Nat.eq_zero_or_pos n with h | h
      · rw [hnone h] at hdollar
        cases hdollar
      · exact h
    rw [if_pos hdollar, hr hpos, Int.toNat_natCast, Nat.min_eq_left hroom]
    exact receiveNormal_iff hin hn hseen (by rw [hhead hpos, hdollar])
  rw [if_neg hdollar]
  have hharmless : Harmless ctx results packet n := by
    intro h hlt
    rw [hhead (by omega)] at h
    exact absurd (Option.some.inj h) hdollar
  simp only [hharmless, iff_true]
  by_cases hbreak : bufferAfter ctx writes 0 = 0x03
  · rw [if_pos hbreak]
    obtain ⟨r', got, hgot⟩ : ∃ r' got, socRecv packet 1 results.receive = (r', got) := ⟨_, _, rfl⟩
    have hshort : got.length ≤ 1 ∧ (r' = 1 → got = packet.take 1) := by
      rcases socRecv_cases packet 1 results.receive with ⟨hlt, hnil⟩ | ⟨k, hk, hkmax, hklength, heq⟩
      · rw [hgot] at hlt hnil
        exact ⟨by simp only at hnil; simp [hnil], fun h => by simp only at hlt; omega⟩
      · obtain rfl : k = 1 := by omega
        rw [hgot] at heq
        obtain ⟨-, rfl⟩ := Prod.mk.inj heq
        exact ⟨by simp, fun _ => rfl⟩
    have hinside : ∀ w ∈ writes ++ [(⟨0, got⟩ : Write UInt8)], w.stop ≤ packetBufSize := by
      rw [List.forall_mem_append, List.forall_mem_singleton]
      refine ⟨hin, ?_⟩
      simp only [Write.stop, packetBufSize]
      omega
    rw [hgot]
    dsimp only
    split
    · exact ⟨by unfold StaysInside; rwa [packetError_writes], handsChecked_of_none handedOver_packetError⟩
    · rename_i hone
      refine ⟨by unfold StaysInside; rwa [acknowledge_writes], handsChecked_of_none (handedOver_of_first ?_)⟩
      rw [acknowledge_writes, hshort.2 (not_not.mp hone)]
      -- the byte that is taken is the one that has been looked at
      have hpos : 0 < n := by
        rcases Nat.eq_zero_or_pos n with h | h
        · rw [hnone h] at hbreak
          cases hbreak
        · exact h
      rw [List.take_one, hhead hpos, hbreak]
      unfold bufferAfter
      rw [Memory.written_append]
      show (0x03 : UInt8) ≠ 0x24
      decide
  · rw [if_neg hbreak]
    exact ⟨by unfold StaysInside; rwa [acknowledge_writes], handsChecked_of_none (handedOver_of_first (by rwa [acknowledge_writes]))⟩

end

/-- What has just been looked at is at the beginning of the buffer. -/
theorem read_looked (ctx : ReceiveContext) (writes : List (Write UInt8)) (got : List UInt8) :
    (bufferAfter ctx (writes ++ [⟨0, got⟩])).read 0 got.length = got := by
  unfold bufferAfter
  rw [Memory.written_append]
  have hstore := Memory.read_store (ctx.buffer.written writes) 0 (show 0 + got.length ≤ got.length by omega)
  rwa [List.drop_zero, List.take_length] at hstore

/-- The first look, which has shown `k` bytes: zeros and then these are in the buffer. -/
theorem first_look (ctx : ReceiveContext) {zeros : List UInt8} (hzeros : zeros.length ≤ packetBufSize) {first : UInt8} {tail : List UInt8}
    {k : Nat} (hk : 0 < k) (hkmax : k ≤ packetBufSize) (hklength : k ≤ (first :: tail).length) :
    bufferAfter ctx [⟨0, zeros⟩, ⟨0, (first :: tail).take k⟩] 0 = first ∧
      (bufferAfter ctx [⟨0, zeros⟩, ⟨0, (first :: tail).take k⟩]).read 0 k = (first :: tail).take k ∧
      ∀ w ∈ [(⟨0, zeros⟩ : Write UInt8), ⟨0, (first :: tail).take k⟩], w.stop ≤ packetBufSize := by
  obtain ⟨k, rfl⟩ : ∃ j, k = j + 1 := ⟨k - 1, by omega⟩
  have hlength : ((first :: tail).take (k + 1)).length = k + 1 := List.length_take_of_le hklength
  have hseen := read_looked ctx [⟨0, zeros⟩] ((first :: tail).take (k + 1))
  rw [hlength] at hseen
  refine ⟨rfl, hseen, ?_⟩
  rw [List.forall_mem_cons, List.forall_mem_singleton]
  simp only [Write.stop, Nat.zero_add, hlength]
  exact ⟨hzeros, hkmax⟩

/-- A packet without an acknowledgement in front. -/
theorem receivePacket_plain {ctx : ReceiveContext} {results : SocketResults} {first : UInt8} {tail : List UInt8} {k : Nat}
    (hplus : first ≠ 0x2B) (hk : 0 < k) (hkmax : k ≤ packetBufSize) (hklength : k ≤ (first :: tail).length)
    (hgot : socRecv (first :: tail) packetBufSize results.peek = ((k : Int), (first :: tail).take k)) :
    StaysInside (receivePacket ctx results (first :: tail)) ∧
      HandsChecked ctx (first :: tail) (receivePacket ctx results (first :: tail)) ↔ Harmless ctx results (first :: tail) k := by
  have hzeros : (List.replicate packetBufSize (0 : UInt8)).length ≤ packetBufSize := by simp
  unfold receivePacket
  generalize List.replicate packetBufSize (0 : UInt8) = zeros at hzeros ⊢
  obtain ⟨hfirst, hseen, hlooked⟩ := first_look ctx hzeros hk hkmax hklength
  rw [hgot]
  dsimp only
  rw [if_neg (by omega), hfirst, if_neg hplus]
  exact @receiveRest_iff ctx results _ _ _ [] k hlooked hklength hkmax hseen (fun _ => rfl) (fun h => absurd h hk.ne')

theorem receivePacket_iff (ctx : ReceiveContext) (results : SocketResults) (stream : List UInt8) :
    StaysInside (receivePacket ctx results stream) ∧ HandsChecked ctx stream (receivePacket ctx results stream) ↔
      ∀ packet n, packetSeen ctx results stream = some (packet, n) → Harmless ctx results packet n := by
  rcases socRecv_cases stream packetBufSize results.peek with ⟨hlt, hnil⟩ | ⟨k, hk, hkmax, hklength, hgot⟩
  · -- nothing has arrived
    obtain ⟨r, got, hgot⟩ : ∃ r got, socRecv stream packetBufSize results.peek = (r, got) := ⟨_, _, rfl⟩
    unfold receivePacket packetSeen
    rw [hgot] at hlt hnil ⊢
    dsimp only at hlt hnil ⊢
    subst hnil
    rw [if_pos hlt, if_pos rfl]
    simp only [reduceCtorEq, false_imp_iff, implies_true, iff_true]
    refine ⟨?_, handsChecked_of_none (handedOver_of_ret (Or.inr rfl))⟩
    simp [StaysInside, Write.stop]
  obtain ⟨first, tail, rfl⟩ := List.exists_cons_of_ne_nil (List.ne_nil_of_length_pos (hk.trans_le hklength))
  have hlength : ((first :: tail).take k).length = k := List.length_take_of_le hklength
  have hhead : ((first :: tail).take k).head? = some first := by
    rw [List.head?_take, if_neg hk.ne', List.head?_cons]
  have hsome : ¬(first :: tail).take k = [] := by
    intro habs
    rw [habs] at hhead
    cases hhead
  by_cases hplus : first = 0x2B
  · subst hplus
    have hzeros : (List.replicate packetBufSize (0 : UInt8)).length ≤ packetBufSize := by simp
    unfold receivePacket packetSeen
    generalize List.replicate packetBufSize (0 : UInt8) = zeros at hzeros ⊢
    obtain ⟨hfirst, hseen, hlooked⟩ := first_look ctx hzeros hk hkmax hklength
    rw [hgot]
    dsimp only
    rw [if_neg (by omega), if_neg hsome, hfirst, if_pos rfl, if_pos hhead]
    by_cases hnoAck : ctx.noAck = true
    · rw [if_pos hnoAck, if_pos (Or.inl hnoAck)]
      simp only [reduceCtorEq, false_imp_iff, implies_true, iff_true]
      exact ⟨hlooked, handsChecked_of_none (handedOver_of_ret (Or.inr rfl))⟩
    rw [if_neg hnoAck]
    rcases socRecv_cases (0x2B :: tail) 1 results.consume with ⟨hlt, hnil⟩ | ⟨j, hj, hjmax, -, hone⟩
    · -- the acknowledgement cannot be taken
      obtain ⟨r, got, hone⟩ : ∃ r got, socRecv (0x2B :: tail) 1 results.consume = (r, got) := ⟨_, _, rfl⟩
      rw [hone] at hlt hnil ⊢
      dsimp only at hlt hnil ⊢
      subst hnil
      rw [if_pos (show r ≠ 1 by omega), if_pos (Or.inr rfl)]
      simp only [reduceCtorEq, false_imp_iff, implies_true, iff_true]
      refine ⟨?_, handsChecked_of_none (handedOver_of_ret (Or.inr rfl))⟩
      refine List.forall_mem_append.mpr ⟨hlooked, ?_⟩
      simp [Write.stop]
    obtain rfl : j = 1 := by omega
    rw [hone]
    dsimp only
    rw [if_neg (show ¬((1 : Nat) : Int) ≠ 1 by decide), if_neg (not_or.mpr ⟨hnoAck, by simp⟩)]
    have hconsumed : ∀ {got : List UInt8}, got.length ≤ packetBufSize →
        ∀ w ∈ [(⟨0, zeros⟩ : Write UInt8), ⟨0, (0x2B :: tail).take k⟩] ++ [⟨0, (0x2B :: tail).take 1⟩] ++ [⟨0, [0]⟩, ⟨0, got⟩],
          w.stop ≤ packetBufSize := by
      intro got hgot
      refine List.forall_mem_append.mpr ⟨List.forall_mem_append.mpr ⟨hlooked, ?_⟩, ?_⟩
      · simp [Write.stop, packetBufSize]
      · simpa [Write.stop, packetBufSize] using hgot
    have hagain : ∀ got, (bufferAfter ctx ([⟨0, zeros⟩, ⟨0, (0x2B :: tail).take k⟩] ++ [⟨0, (0x2B :: tail).take 1⟩] ++
        [⟨0, [0]⟩, ⟨0, got⟩])).read 0 got.length = got := by
      intro got
      exact read_looked ctx ([⟨0, zeros⟩, ⟨0, (0x2B :: tail).take k⟩] ++ [⟨0, (0x2B :: tail).take 1⟩] ++ [⟨0, [0]⟩]) got
    simp only [List.drop_succ_cons, List.drop_zero, List.tail_cons, Option.some.injEq, Prod.mk.injEq, and_imp, forall_apply_eq_imp_iff,
      forall_eq']
    rcases socRecv_cases tail packetBufSize results.peekAgain with ⟨hlt, hnil⟩ | ⟨j, hj, hjmax, hjlength, hgot'⟩
    · obtain ⟨r, got, hgot'⟩ : ∃ r got, socRecv tail packetBufSize results.peekAgain = (r, got) := ⟨_, _, rfl⟩
      rw [hgot'] at hlt hnil ⊢
      dsimp only at hlt hnil ⊢
      subst hnil
      by_cases herror : r = -1
      · rw [if_pos herror]
        constructor
        · exact fun _ _ habs => absurd habs (Nat.not_lt_zero _)
        · intro _
          refine ⟨?_, handsChecked_of_none handedOver_packetError⟩
          unfold StaysInside
          rw [packetError_writes]
          exact hconsumed (Nat.zero_le _)
      · rw [if_neg herror]
        exact @receiveRest_iff ctx results _ _ _ [0x2B] r (hconsumed (Nat.zero_le _)) (Nat.zero_le _) (Nat.zero_le _)
          (hagain []) (fun h => absurd h (Nat.lt_irrefl 0)) (fun _ => rfl)
    · have hjtake : (tail.take j).length = j := List.length_take_of_le hjlength
      have hjagain := hagain (tail.take j)
      rw [hgot']
      dsimp only
      rw [hjtake] at hjagain ⊢
      rw [if_neg (by omega)]
      exact @receiveRest_iff ctx results _ _ _ [0x2B] j (hconsumed (by omega)) hjlength hjmax hjagain (fun _ => rfl)
        (fun h => absurd h hj.ne')
  · rw [receivePacket_plain hplus hk hkmax hklength hgot]
    unfold packetSeen
    rw [hgot]
    dsimp only
    rw [if_neg hsome, if_neg (by rw [hhead]; simpa using hplus), hlength]
    simp

/-- One byte more than a packet may have. -/
def longPacket : List UInt8 := 0x24 :: List.replicate (gdbBufLen + 1) 0x61 ++ ascii "#21"

/-- Its end is in the part that is looked at, its checksum is not. -/
theorem longPacket_overflows :
    ¬(StaysInside (receivePacket ⟨false, false, fun _ => 0, 0⟩ ⟨1028, 1, 1, 1029, 1⟩ longPacket) ∧
      HandsChecked ⟨false, false, fun _ => 0, 0⟩ longPacket
        (receivePacket ⟨false, false, fun _ => 0, 0⟩ ⟨1028, 1, 1, 1029, 1⟩ longPacket)) := by
  have hlong : longPacket = 0x24 :: (List.replicate (gdbBufLen + 1) 0x61 ++ ascii "#21") := rfl
  rw [hlong, receivePacket_plain (by decide) (by decide) (le_refl packetBufSize) (by decide +kernel) (by decide +kernel)]
  intro h
  have hfits := (h rfl (by decide +kernel)).1
  exact absurd hfits (by decide +kernel)

end Omiiba.Rosalina
