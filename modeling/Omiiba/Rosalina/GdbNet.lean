/-
The data of GDB packets, after net.c: how `GDB_EscapeBinaryData` and `GDB_UnescapeBinaryData` treat the bytes
that have a meaning of their own in a packet, the hexadecimal form of the other data, and the frame of a packet.
-/
import Omiiba.Lib.Hex
import Omiiba.Lib.Writes

namespace Omiiba.Rosalina

/-- `GDB_BUF_LEN`. -/
def gdbBufLen : Nat := 1024

/-- A text as its bytes. -/
def ascii (s : String) : List UInt8 := s.toList.map fun c => UInt8.ofNat c.toNat

/-! ## Escaping -/

/-- `'$'`, `'#'`, `'}'` and `'*'`. -/
def special (b : UInt8) : Bool := b = 0x24 ∨ b = 0x23 ∨ b = 0x7D ∨ b = 0x2A

/-- The loop of `GDB_EscapeBinaryData`, with room for that many bytes: what is emitted, and how many bytes
of the source are consumed. -/
def escapeLoop : List UInt8 → Nat → List UInt8 × Nat
  | _, 0 => ([], 0)
  | [], _ + 1 => ([], 0) -- there is no more room than source
  | b :: src, room + 1 =>
    if special b then
      match room with
      | 0 => ([], 0)
      | room + 1 =>
        let (emitted, consumed) := escapeLoop src room
        (0x7D :: (b ^^^ 0x20) :: emitted, consumed + 1)
    else
      let (emitted, consumed) := escapeLoop src room
      (b :: emitted, consumed + 1)

/-- `GDB_EscapeBinaryData`. -/
def escapeBinaryData (src : List UInt8) (maxLen : Nat) : List UInt8 × Nat :=
  escapeLoop src (if maxLen ≥ src.length then src.length else maxLen)

/-- `GDB_UnescapeBinaryData`; after an escape character at the end it reads the byte behind the source. -/
def unescapeBinaryData (behind : UInt8) : List UInt8 → List UInt8
  | [] => []
  | [b] => if b = 0x7D then [behind ^^^ 0x20] else [b]
  | b :: c :: src => if b = 0x7D then (c ^^^ 0x20) :: unescapeBinaryData behind src else b :: unescapeBinaryData behind (c :: src)

/-- Bytes with a meaning of their own are only those before an escaped byte. -/
def Escaped : List UInt8 → Prop
  | [] => True
  | [b] => special b = false
  | b :: c :: data => (b = 0x7D ∧ special c = false ∧ Escaped data) ∨ (special b = false ∧ Escaped (c :: data))

theorem Escaped.cons {b : UInt8} {data : List UInt8} (hb : special b = false) (h : Escaped data) : Escaped (b :: data) := by
  cases data with
  | nil => exact hb
  | cons c data => exact Or.inr ⟨hb, h⟩

theorem unescapeBinaryData_of_ne (behind : UInt8) {b : UInt8} (hb : b ≠ 0x7D) (src : List UInt8) :
    unescapeBinaryData behind (b :: src) = b :: unescapeBinaryData behind src := by
  cases src with
  | nil => simp [unescapeBinaryData, hb]
  | cons c src => simp [unescapeBinaryData, hb]

theorem unescapeBinaryData_cons (behind : UInt8) {b : UInt8} (hb : special b = false) (src : List UInt8) :
    unescapeBinaryData behind (b :: src) = b :: unescapeBinaryData behind src := by
  refine unescapeBinaryData_of_ne behind ?_ src
  rintro rfl
  simp [special] at hb

theorem special_xor {b : UInt8} (hb : special b = true) : special (b ^^^ 0x20) = false := by
  have hcases : b = 0x24 ∨ b = 0x23 ∨ b = 0x7D ∨ b = 0x2A := of_decide_eq_true hb
  rcases hcases with rfl | rfl | rfl | rfl <;> rfl

theorem xor_xor_space (b : UInt8) : b ^^^ 0x20 ^^^ 0x20 = b := by
  rw [UInt8.xor_assoc]
  simp

/-- The loop: what is emitted can be unescaped to what is consumed. -/
theorem unescape_escapeLoop (behind : UInt8) (src : List UInt8) : ∀ room : Nat,
    (escapeLoop src room).2 ≤ src.length ∧ (escapeLoop src room).1.length ≤ room ∧
      Escaped (escapeLoop src room).1 ∧
      unescapeBinaryData behind (escapeLoop src room).1 = src.take (escapeLoop src room).2 := by
  induction src with
  | nil => intro room; cases room <;> simp [escapeLoop, Escaped, unescapeBinaryData]
  | cons b src ih =>
    intro room
    cases room with
    | zero => simp [escapeLoop, Escaped, unescapeBinaryData]
    | succ room =>
      by_cases hb : special b = true
      · cases room with
        | zero => simp [escapeLoop, hb, Escaped, unescapeBinaryData]
        | succ room =>
          obtain ⟨hconsumed, hlength, hescaped, hunescape⟩ := ih room
          simp only [escapeLoop, hb, if_true]
          refine ⟨Nat.succ_le_succ hconsumed, ?_, Or.inl ⟨rfl, special_xor hb, hescaped⟩, ?_⟩
          · simp only [List.length_cons]
            omega
          · simp only [unescapeBinaryData, if_true, xor_xor_space, hunescape]
            rfl
      · have hb' : special b = false := Bool.eq_false_iff.mpr hb
        obtain ⟨hconsumed, hlength, hescaped, hunescape⟩ := ih room
        simp only [escapeLoop, hb', Bool.false_eq_true, if_false]
        refine ⟨Nat.succ_le_succ hconsumed, Nat.succ_le_succ hlength, hescaped.cons hb', ?_⟩
        rw [unescapeBinaryData_cons behind hb', hunescape]
        rfl

/-- Escaped data: a prefix of the source, in the room that there is, that can be unescaped again. -/
theorem escapeBinaryData_roundTrip (src : List UInt8) (maxLen : Nat) (behind : UInt8) :
    ∃ p, p <+: src ∧ (escapeBinaryData src maxLen).2 = p.length ∧ (escapeBinaryData src maxLen).1.length ≤ maxLen ∧
      Escaped (escapeBinaryData src maxLen).1 ∧ unescapeBinaryData behind (escapeBinaryData src maxLen).1 = p := by
  obtain ⟨hconsumed, hlength, hescaped, hunescape⟩ :=
    unescape_escapeLoop behind src (if maxLen ≥ src.length then src.length else maxLen)
  refine ⟨_, List.take_prefix _ src, (List.length_take_of_le hconsumed).symm, hlength.trans ?_, hescaped, hunescape⟩
  split_ifs with hmax
  · exact hmax
  · exact le_rfl

/-! ## Hexadecimal data -/

/-- `GDB_EncodeHex`. -/
def encodeHex (src : List UInt8) : List UInt8 := src.flatMap fun b => [Hex.digit (b.toNat / 16), Hex.digit (b.toNat % 16)]

theorem encodeHex_cons (b : UInt8) (src : List UInt8) :
    encodeHex (b :: src) = Hex.digit (b.toNat / 16) :: Hex.digit (b.toNat % 16) :: encodeHex src := rfl

@[simp] theorem encodeHex_length (src : List UInt8) : (encodeHex src).length = 2 * src.length := by
  induction src with
  | nil => rfl
  | cons b src ih =>
    rw [encodeHex_cons, List.length_cons, List.length_cons, ih, List.length_cons]
    omega

theorem digit_inj {m n : Nat} (hm : m < 16) (hn : n < 16) (h : Hex.digit m = Hex.digit n) : m = n := by
  have hvalue := congrArg Hex.digitValue h
  rw [Hex.digitValue_digit hm, Hex.digitValue_digit hn] at hvalue
  exact Option.some.inj hvalue

/-- Different data have different texts. -/
theorem encodeHex_inj {src : List UInt8} : ∀ {src' : List UInt8}, encodeHex src = encodeHex src' → src = src' := by
  induction src with
  | nil =>
    intro src' h
    have hlength := congrArg List.length h
    rw [encodeHex_length, encodeHex_length] at hlength
    exact (List.length_eq_zero_iff.mp (by simpa using hlength.symm)).symm
  | cons b src ih =>
    intro src' h
    cases src' with
    | nil => simp [encodeHex] at h
    | cons b' src' =>
      simp only [encodeHex_cons, List.cons.injEq] at h
      obtain ⟨hhigh, hlow, hrest⟩ := h
      have hb := b.toNat_lt
      have hb' := b'.toNat_lt
      have h1 := digit_inj (by omega) (by omega) hhigh
      have h2 := digit_inj (by omega) (by omega) hlow
      rw [ih hrest, UInt8.toNat_inj.mp (show b.toNat = b'.toNat by omega)]

/-! ## The frame of a packet -/

/-- `GDB_ComputeChecksum`. -/
def computeChecksum (packetData : List UInt8) : UInt8 := packetData.foldl (· + ·) 0

/-- The size of `ctx->buffer`. -/
def packetBufSize : Nat := gdbBufLen + 4

/-- `GDB_SendPacket`: what it puts in `ctx->buffer`. -/
def sendPacket (packetData : List UInt8) : Write UInt8 :=
  ⟨0, 0x24 :: packetData ++ 0x23 :: Hex.fixed 2 (computeChecksum packetData).toNat⟩

end Omiiba.Rosalina
