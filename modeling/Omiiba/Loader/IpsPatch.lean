/-
The IPS patcher of patcher.c: a reader of records that writes into the mapped code as it reads,
against the records of the format.
-/
import Omiiba.Lib.Memory
import Omiiba.Lib.Words

namespace Omiiba.Loader

/-! ## The patcher -/

/-- `IFile_Read` of what is left of a file: the bytes read, of which `*total` is the number, and
what is left then. -/
def iFileRead (file : List UInt8) (len : Nat) : List UInt8 × List UInt8 := (file.take len, file.drop len)

/-- "PATCH". -/
def ipsMagic : List UInt8 := [0x50, 0x41, 0x54, 0x43, 0x48]

/-- "EOF". -/
def ipsEof : List UInt8 := [0x45, 0x4F, 0x46]

/-- `(buffer[0] << 16) | (buffer[1] << 8) | buffer[2]`. -/
def be24 (buffer : List UInt8) : UInt32 :=
  ((buffer.getD 0 0).toUInt32 <<< 16) ||| ((buffer.getD 1 0).toUInt32 <<< 8) ||| (buffer.getD 2 0).toUInt32

/-- `(buffer[0] << 8) | buffer[1]`. -/
def be16 (buffer : List UInt8) : UInt32 := ((buffer.getD 0 0).toUInt32 <<< 8) ||| (buffer.getD 1 0).toUInt32

/-- How a turn of the loop ends: with `ret`, or with the rest of the file to go on with. -/
inductive IpsTurn
  | done (ret : Bool) (code : Memory UInt8)
  | next (file : List UInt8) (code : Memory UInt8)

def ipsTurn (size : UInt32) (file : List UInt8) (code : Memory UInt8) : IpsTurn :=
  let (buffer, file) := iFileRead file 3
  if buffer.length ≠ 3 then .done false code
  else if buffer = ipsEof then .done true code
  else
    let offset := be24 buffer
    let (buffer, file) := iFileRead file 2
    if buffer.length ≠ 2 then .done false code
    else
      let patchSize := be16 buffer
      if patchSize = 0 then
        let (buffer, file) := iFileRead file 2
        if buffer.length ≠ 2 then .done false code
        else
          let rleSize := be16 buffer
          if offset + rleSize > size then .done false code
          else
            let (buffer, file) := iFileRead file 1
            if buffer.length ≠ 1 then .done false code
            else .next file (code.store offset.toNat (List.replicate rleSize.toNat (buffer.getD 0 0)))
      else if offset + patchSize > size then .done false code
      else
        -- read straight into the code, so what there is of the data is written
        let (data, file) := iFileRead file patchSize.toNat
        if data.length ≠ patchSize.toNat then .done false (code.store offset.toNat data)
        else .next file (code.store offset.toNat data)

/-- The loop; `none` is a loop that does not end within the fuel. -/
def ipsLoop (size : UInt32) : Nat → List UInt8 → Memory UInt8 → Option (Bool × Memory UInt8)
  | 0, _, _ => none
  | fuel + 1, file, code =>
    match ipsTurn size file code with
    | .done ret code => some (ret, code)
    | .next file code => ipsLoop size fuel file code

/-- `applyCodeIpsPatch` on the file it opens, if there is one; every turn of the loop reads some of
the file. -/
def applyCodeIpsPatch (file : Option (List UInt8)) (code : Memory UInt8) (size : UInt32) :
    Option (Bool × Memory UInt8) :=
  match file with
  | none => some (true, code)
  | some file =>
    let (buffer, file) := iFileRead file 5
    if buffer ≠ ipsMagic then some (false, code)
    else ipsLoop size (file.length + 1) file code

/-! ## The format -/

inductive IpsRecord
  | plain (offset : Nat) (data : List UInt8)
  | rle (offset count : Nat) (byte : UInt8)

/-- Three bytes of a number, the most significant first. -/
def bytes24 (n : Nat) : List UInt8 := [UInt8.ofNat (n / 65536), UInt8.ofNat (n / 256), UInt8.ofNat n]

def bytes16 (n : Nat) : List UInt8 := [UInt8.ofNat (n / 256), UInt8.ofNat n]

namespace IpsRecord

def encode : IpsRecord → List UInt8
  | plain offset data => bytes24 offset ++ (bytes16 data.length ++ data)
  | rle offset count byte => bytes24 offset ++ (bytes16 0 ++ (bytes16 count ++ [byte]))

theorem encode_plain (offset : Nat) (data : List UInt8) :
    (plain offset data).encode = bytes24 offset ++ (bytes16 data.length ++ data) := rfl

theorem encode_rle (offset count : Nat) (byte : UInt8) :
    (rle offset count byte).encode = bytes24 offset ++ (bytes16 0 ++ (bytes16 count ++ [byte])) := rfl

/-- A record says what it means: its numbers fit their fields, it does not look like the end
mark or like the other kind, and its range lies in the code. -/
def Fits (size : Nat) : IpsRecord → Prop
  | plain offset data =>
    offset < 2 ^ 24 ∧ bytes24 offset ≠ ipsEof ∧ 0 < data.length ∧ data.length < 2 ^ 16 ∧ offset + data.length ≤ size
  | rle offset count _ => offset < 2 ^ 24 ∧ bytes24 offset ≠ ipsEof ∧ count < 2 ^ 16 ∧ offset + count ≤ size

def write (code : Memory UInt8) : IpsRecord → Memory UInt8
  | plain offset data => code.store offset data
  | rle offset count byte => code.store offset (List.replicate count byte)

end IpsRecord

/-- A plain record cut off in its data. -/
def Truncated (size : Nat) (rest : List UInt8) (offset : Nat) (data : List UInt8) : Prop :=
  ∃ length, rest = bytes24 offset ++ (bytes16 length ++ data) ∧ offset < 2 ^ 24 ∧ bytes24 offset ≠ ipsEof ∧
    length < 2 ^ 16 ∧ data.length < length ∧ offset + length ≤ size

/-- What does not begin with the end mark or a complete record. -/
def Bad (size : Nat) (rest : List UInt8) : Prop :=
  (¬ ipsEof <+: rest) ∧ ∀ r : IpsRecord, r.Fits size → ¬ r.encode <+: rest

/-- The code after the first bad record: only data of a record cut off there is written. -/
inductive Left (size : Nat) (rest : List UInt8) (code : Memory UInt8) : Memory UInt8 → Prop
  | data (offset : Nat) (data : List UInt8) (cut : Truncated size rest offset data) :
      Left size rest code (code.store offset data)
  | nothing (whole : ∀ offset data, ¬ Truncated size rest offset data) : Left size rest code code

/-! ## Numbers -/

theorem be16_toNat (b0 b1 : UInt8) : (be16 [b0, b1]).toNat = b0.toNat * 256 + b1.toNat := by
  have h0 := b0.toNat_lt
  have h1 := b1.toNat_lt
  exact toNat_shiftLeft_or b0.toUInt32 b1.toUInt32 (k := 8) (by simpa using h1) (by decide) (by simp; omega)

theorem be24_toNat (b0 b1 b2 : UInt8) : (be24 [b0, b1, b2]).toNat = b0.toNat * 65536 + b1.toNat * 256 + b2.toNat := by
  have h0 := b0.toNat_lt
  have hlow := be16_toNat b1 b2
  have h1 := b1.toNat_lt
  have h2 := b2.toNat_lt
  have hor : be24 [b0, b1, b2] = (b0.toUInt32 <<< 16) ||| be16 [b1, b2] := UInt32.or_assoc ..
  have hb := toNat_shiftLeft_or b0.toUInt32 (be16 [b1, b2]) (k := 16) (by rw [hlow]; omega) (by decide) (by simp; omega)
  rw [hor]
  refine hb.trans ?_
  rw [hlow]
  simp
  omega

theorem ofNat_toNat_add (b : UInt8) (n : Nat) : UInt8.ofNat (b.toNat + 256 * n) = b := by
  apply UInt8.toNat_inj.1
  have := b.toNat_lt
  rw [UInt8.toNat_ofNat']
  omega

/-- Two bytes are the bytes of their number. -/
theorem bytes16_be16 (b0 b1 : UInt8) : bytes16 (be16 [b0, b1]).toNat = [b0, b1] := by
  have h1 := b1.toNat_lt
  rw [be16_toNat]
  unfold bytes16
  rw [show (b0.toNat * 256 + b1.toNat) / 256 = b0.toNat + 256 * 0 by omega,
    show b0.toNat * 256 + b1.toNat = b1.toNat + 256 * b0.toNat by omega, ofNat_toNat_add, ofNat_toNat_add]

theorem bytes24_be24 (b0 b1 b2 : UInt8) : bytes24 (be24 [b0, b1, b2]).toNat = [b0, b1, b2] := by
  have h1 := b1.toNat_lt
  have h2 := b2.toNat_lt
  rw [be24_toNat]
  unfold bytes24
  rw [show (b0.toNat * 65536 + b1.toNat * 256 + b2.toNat) / 65536 = b0.toNat + 256 * 0 by omega,
    show (b0.toNat * 65536 + b1.toNat * 256 + b2.toNat) / 256 = b1.toNat + 256 * b0.toNat by omega,
    show b0.toNat * 65536 + b1.toNat * 256 + b2.toNat = b2.toNat + 256 * (b0.toNat * 256 + b1.toNat) by omega,
    ofNat_toNat_add, ofNat_toNat_add, ofNat_toNat_add]

/-- A number that fits is read back. -/
theorem be16_bytes16 {n : Nat} (h : n < 2 ^ 16) : (be16 (bytes16 n)).toNat = n := by
  unfold bytes16
  rw [be16_toNat, UInt8.toNat_ofNat', UInt8.toNat_ofNat']
  omega

theorem be24_bytes24 {n : Nat} (h : n < 2 ^ 24) : (be24 (bytes24 n)).toNat = n := by
  unfold bytes24
  rw [be24_toNat, UInt8.toNat_ofNat', UInt8.toNat_ofNat', UInt8.toNat_ofNat']
  omega

theorem be24_lt (b0 b1 b2 : UInt8) : (be24 [b0, b1, b2]).toNat < 2 ^ 24 := by
  have h0 := b0.toNat_lt
  have h1 := b1.toNat_lt
  have h2 := b2.toNat_lt
  rw [be24_toNat]
  omega

theorem be16_lt (b0 b1 : UInt8) : (be16 [b0, b1]).toNat < 2 ^ 16 := by
  have h0 := b0.toNat_lt
  have h1 := b1.toNat_lt
  rw [be16_toNat]
  omega

/-- The bounds check does not overflow. -/
theorem above_iff {offset count size : UInt32} (ho : offset.toNat < 2 ^ 24) (hc : count.toNat < 2 ^ 16) :
    offset + count > size ↔ size.toNat < offset.toNat + count.toNat := by
  show size < offset + count ↔ _
  rw [UInt32.lt_iff_toNat_lt, UInt32.toNat_add, Nat.mod_eq_of_lt (by omega)]

/-! ## One turn of the loop -/

section

variable {size : UInt32} {code : Memory UInt8} {b c : List UInt8}

theorem iFileRead_append {len : Nat} (hb : b.length = len) (rest : List UInt8) : iFileRead (b ++ rest) len = (b, rest) := by
  unfold iFileRead
  rw [List.take_left' hb, List.drop_left' hb]

theorem bytes24_length (n : Nat) : (bytes24 n).length = 3 := rfl

theorem bytes16_length (n : Nat) : (bytes16 n).length = 2 := rfl

theorem ipsTurn_eof (rest : List UInt8) : ipsTurn size (ipsEof ++ rest) code = .done true code := by
  unfold ipsTurn
  rw [iFileRead_append (by rfl)]
  rfl

/-- A turn that gets an offset and a size. -/
theorem ipsTurn_header (size : UInt32) (code : Memory UInt8) (hb : b.length = 3) (hne : b ≠ ipsEof) (hc : c.length = 2) (rest : List UInt8) :
    ipsTurn size (b ++ (c ++ rest)) code =
      if be16 c = 0 then
        if (iFileRead rest 2).1.length ≠ 2 then .done false code
        else if be24 b + be16 (iFileRead rest 2).1 > size then .done false code
        else if (iFileRead (iFileRead rest 2).2 1).1.length ≠ 1 then .done false code
        else .next (iFileRead (iFileRead rest 2).2 1).2 (code.store (be24 b).toNat
          (List.replicate (be16 (iFileRead rest 2).1).toNat ((iFileRead (iFileRead rest 2).2 1).1.getD 0 0)))
      else if be24 b + be16 c > size then .done false code
      else if (iFileRead rest (be16 c).toNat).1.length ≠ (be16 c).toNat then
        .done false (code.store (be24 b).toNat (iFileRead rest (be16 c).toNat).1)
      else .next (iFileRead rest (be16 c).toNat).2 (code.store (be24 b).toNat (iFileRead rest (be16 c).toNat).1) := by
  unfold ipsTurn
  rw [iFileRead_append hb]
  dsimp only
  rw [if_neg (not_not.2 hb), if_neg hne, iFileRead_append hc]
  dsimp only
  rw [if_neg (not_not.2 hc)]

theorem be16_eq_zero {n : Nat} (h : n < 2 ^ 16) : be16 (bytes16 n) = 0 ↔ n = 0 := by
  rw [← UInt32.toNat_inj, be16_bytes16 h]
  rfl

/-- A complete record that fits is written, and the loop goes on behind it. -/
theorem ipsTurn_record {r : IpsRecord} (h : r.Fits size.toNat) (rest : List UInt8) :
    ipsTurn size (r.encode ++ rest) code = .next rest (r.write code) := by
  cases r with
  | plain offset data =>
    obtain ⟨ho, hne, hpos, hlen, hfit⟩ := h
    have hoff := be24_bytes24 ho
    have hsize := be16_bytes16 hlen
    show ipsTurn size (bytes24 offset ++ (bytes16 data.length ++ data) ++ rest) code = _
    rw [List.append_assoc, List.append_assoc, ipsTurn_header _ _ (bytes24_length _) hne (bytes16_length _),
      if_neg (mt (be16_eq_zero hlen).1 hpos.ne'), if_neg (mt (above_iff (by omega) (by omega)).1 (by omega)), hsize, hoff,
      iFileRead_append rfl, if_neg (not_not.2 rfl)]
    rfl
  | rle offset count byte =>
    obtain ⟨ho, hne, hcount, hfit⟩ := h
    have hoff := be24_bytes24 ho
    have hsize := be16_bytes16 hcount
    have hin : ¬ be24 (bytes24 offset) + be16 (bytes16 count) > size :=
      mt (above_iff (by omega) (by omega)).1 (by omega)
    have hbyte : iFileRead ([byte] ++ rest) 1 = ([byte], rest) := iFileRead_append rfl rest
    show ipsTurn size (bytes24 offset ++ (bytes16 0 ++ (bytes16 count ++ [byte])) ++ rest) code = _
    rw [List.append_assoc, List.append_assoc, List.append_assoc, ipsTurn_header _ _ (bytes24_length _) hne (bytes16_length _),
      if_pos ((be16_eq_zero (by decide)).2 rfl), iFileRead_append (bytes16_length _), if_neg (not_not.2 (bytes16_length _)),
      if_neg hin]
    dsimp only
    rw [hbyte, if_neg (not_not.2 (List.length_singleton (a := byte))), hsize, hoff]
    rfl

/-- A plain record that is cut off leaves the data there is of it. -/
theorem ipsTurn_truncated {rest data : List UInt8} {offset : Nat} (h : Truncated size.toNat rest offset data) :
    ipsTurn size rest code = .done false (code.store offset data) := by
  obtain ⟨length, rfl, ho, hne, hlen, hcut, hfit⟩ := h
  have hoff := be24_bytes24 ho
  have hsize := be16_bytes16 hlen
  rw [ipsTurn_header _ _ (bytes24_length _) hne (bytes16_length _), if_neg (mt (be16_eq_zero hlen).1 (by omega)),
    if_neg (mt (above_iff (by omega) (by omega)).1 (by omega)), hsize, hoff]
  unfold iFileRead
  rw [List.take_of_length_le hcut.le, if_pos hcut.ne]

/-- Everything else ends the loop with the code as it is, or is a record or the end mark. -/
theorem ipsTurn_cases (size : UInt32) (file : List UInt8) (code : Memory UInt8) :
    (∃ (r : IpsRecord) (rest : List UInt8), r.Fits size.toNat ∧ file = r.encode ++ rest) ∨ (∃ rest, file = ipsEof ++ rest) ∨
    (∃ offset data, Truncated size.toNat file offset data) ∨ ipsTurn size file code = .done false code := by
  rcases file with - | ⟨b0, - | ⟨b1, - | ⟨b2, file⟩⟩⟩
  · exact .inr (.inr (.inr rfl))
  · exact .inr (.inr (.inr rfl))
  · exact .inr (.inr (.inr rfl))
  by_cases hne : [b0, b1, b2] = ipsEof
  · exact .inr (.inl ⟨file, by rw [← hne]; rfl⟩)
  have hb := bytes24_be24 b0 b1 b2
  have ho := be24_lt b0 b1 b2
  have hstop : ∀ t : List UInt8, t.length < 2 → ipsTurn size (b0 :: b1 :: b2 :: t) code = .done false code := by
    intro t ht
    have hlen : (t.take 2).length ≠ 2 := by rw [List.length_take]; omega
    unfold ipsTurn
    have hread : iFileRead (b0 :: b1 :: b2 :: t) 3 = ([b0, b1, b2], t) := rfl
    rw [hread]
    dsimp only
    rw [if_neg (by simp), if_neg hne]
    unfold iFileRead
    rw [if_pos hlen]
  rcases file with - | ⟨c0, - | ⟨c1, file⟩⟩
  · exact .inr (.inr (.inr (hstop [] (by simp))))
  · exact .inr (.inr (.inr (hstop [c0] (by simp))))
  have hturn := ipsTurn_header size code (b := [b0, b1, b2]) (c := [c0, c1]) rfl hne rfl file
  have hin : ∀ {count : UInt32}, count.toNat < 2 ^ 16 → ¬ be24 [b0, b1, b2] + count > size →
      (be24 [b0, b1, b2]).toNat + count.toNat ≤ size.toNat :=
    fun hc h => Nat.not_lt.1 (mt (above_iff ho hc).2 h)
  have hc := bytes16_be16 c0 c1
  have hlt := be16_lt c0 c1
  by_cases h0 : be16 [c0, c1] = 0
  · rw [if_pos h0] at hturn
    by_cases h2 : (iFileRead file 2).1.length ≠ 2
    · rw [if_pos h2] at hturn
      exact .inr (.inr (.inr hturn))
    rw [if_neg h2] at hturn
    rcases file with - | ⟨d0, - | ⟨d1, file⟩⟩
    · exact absurd (by simp [iFileRead]) h2
    · exact absurd (by simp [iFileRead]) h2
    have hread : iFileRead (d0 :: d1 :: file) 2 = ([d0, d1], file) := rfl
    rw [hread] at hturn
    by_cases habove : be24 [b0, b1, b2] + be16 [d0, d1] > size
    · rw [if_pos habove] at hturn
      exact .inr (.inr (.inr hturn))
    rw [if_neg habove] at hturn
    rcases file with - | ⟨byte, rest⟩
    · exact .inr (.inr (.inr hturn))
    · refine .inl ⟨.rle (be24 [b0, b1, b2]).toNat (be16 [d0, d1]).toNat byte, rest,
        ⟨ho, by rw [hb]; exact hne, be16_lt d0 d1, hin (be16_lt d0 d1) habove⟩, ?_⟩
      have hzero : bytes16 0 = [c0, c1] := by rw [← hc, h0]; rfl
      rw [IpsRecord.encode_rle, hb, hzero, bytes16_be16]
      rfl
  · rw [if_neg h0] at hturn
    by_cases habove : be24 [b0, b1, b2] + be16 [c0, c1] > size
    · rw [if_pos habove] at hturn
      exact .inr (.inr (.inr hturn))
    by_cases hcut : file.length < (be16 [c0, c1]).toNat
    · refine .inr (.inr (.inl ⟨_, file, (be16 [c0, c1]).toNat, ?_, ho, by rw [hb]; exact hne, hlt, hcut, hin hlt habove⟩))
      rw [hb, hc]
      rfl
    · have hdata : (file.take (be16 [c0, c1]).toNat).length = (be16 [c0, c1]).toNat := by
        rw [List.length_take]
        omega
      have hpos : (be16 [c0, c1]).toNat ≠ 0 := fun h => h0 (UInt32.toNat_inj.1 h)
      refine .inl ⟨.plain (be24 [b0, b1, b2]).toNat (file.take (be16 [c0, c1]).toNat), file.drop (be16 [c0, c1]).toNat,
        ⟨ho, by rw [hb]; exact hne, by omega, by omega, by rw [hdata]; exact hin hlt habove⟩, ?_⟩
      rw [IpsRecord.encode_plain, hdata, hb, hc, List.append_assoc, List.append_assoc, List.take_append_drop]
      rfl

/-! ## The loop -/

theorem ipsLoop_done {fuel : Nat} {file : List UInt8} {ret : Bool} {code' : Memory UInt8}
    (h : ipsTurn size file code = .done ret code') : ipsLoop size (fuel + 1) file code = some (ret, code') := by
  unfold ipsLoop
  rw [h]

theorem ipsLoop_next {fuel : Nat} {file rest : List UInt8} {code' : Memory UInt8}
    (h : ipsTurn size file code = .next rest code') : ipsLoop size (fuel + 1) file code = ipsLoop size fuel rest code' := by
  conv_lhs => unfold ipsLoop
  rw [h]

/-- Complete records are written from left to right. -/
theorem ipsLoop_records {rs : List IpsRecord} (h : ∀ r ∈ rs, r.Fits size.toNat) (fuel : Nat) (rest : List UInt8) :
    ipsLoop size (rs.length + fuel) (rs.flatMap IpsRecord.encode ++ rest) code =
      ipsLoop size fuel rest (rs.foldl IpsRecord.write code) := by
  induction rs generalizing code with
  | nil => rw [List.length_nil, Nat.zero_add]; rfl
  | cons r rs ih =>
    rw [List.length_cons, Nat.add_right_comm, List.flatMap_cons, List.append_assoc]
    rw [ipsLoop_next (ipsTurn_record (h r List.mem_cons_self) _)]
    exact ih fun r' hr' => h r' (List.mem_cons_of_mem _ hr')

theorem encode_length_pos (r : IpsRecord) : 0 < r.encode.length := by
  cases r <;> exact Nat.succ_pos _

theorem length_le_encode (rs : List IpsRecord) : rs.length ≤ (rs.flatMap IpsRecord.encode).length := by
  induction rs with
  | nil => exact Nat.le_refl 0
  | cons r rs ih =>
    have := encode_length_pos r
    rw [List.flatMap_cons, List.length_cons, List.length_append]
    omega

/-- What the loop does with a file: complete records, and then the end mark or a bad record. -/
structure LoopEnd (size : UInt32) (fuel : Nat) (file : List UInt8) (code : Memory UInt8) (rs : List IpsRecord)
    (rest : List UInt8) (ret : Bool) (code' : Memory UInt8) : Prop where
  file_eq : file = rs.flatMap IpsRecord.encode ++ rest
  fits : ∀ r ∈ rs, r.Fits size.toNat
  loop : ipsLoop size fuel file code = some (ret, code')
  eof : ret = true → ipsEof <+: rest ∧ code' = rs.foldl IpsRecord.write code
  bad : ret = false → Bad size.toNat rest ∧ Left size.toNat rest (rs.foldl IpsRecord.write code) code'

/-- A turn that fails at once was no record, nor the end mark. -/
theorem bad_of_done {rest : List UInt8} {code' : Memory UInt8} (h : ipsTurn size rest code = .done false code') :
    Bad size.toNat rest := by
  constructor
  · rintro ⟨t, rfl⟩
    rw [ipsTurn_eof] at h
    cases h
  · rintro r hr ⟨t, rfl⟩
    rw [ipsTurn_record hr] at h
    cases h

/-- The loop ends on every file. -/
theorem ipsLoop_ends (size : UInt32) (code : Memory UInt8) {fuel : Nat} {file : List UInt8} (hfuel : file.length < fuel) :
    ∃ rs rest ret code', LoopEnd size fuel file code rs rest ret code' := by
  induction fuel generalizing file code with
  | zero => exact absurd hfuel (Nat.not_lt_zero _)
  | succ fuel ih =>
    rcases ipsTurn_cases size file code with ⟨r, rest, hr, rfl⟩ | ⟨rest, rfl⟩ | ⟨offset, data, hcut⟩ | hdone
    · have hpos := encode_length_pos r
      obtain ⟨rs, rest', ret, code', hend⟩ := ih (r.write code) (show rest.length < fuel by
        rw [List.length_append] at hfuel
        omega)
      refine ⟨r :: rs, rest', ret, code', ?_, ?_, ?_, hend.eof, hend.bad⟩
      · rw [List.flatMap_cons, List.append_assoc, ← hend.file_eq]
      · rintro r' (_ | ⟨_, hr'⟩)
        · exact hr
        · exact hend.fits r' hr'
      · rw [ipsLoop_next (ipsTurn_record hr _)]
        exact hend.loop
    · exact ⟨[], ipsEof ++ rest, true, code, rfl, nofun, ipsLoop_done (ipsTurn_eof rest),
        fun _ => ⟨List.prefix_append _ _, rfl⟩, nofun⟩
    · have hturn : ipsTurn size file code = _ := ipsTurn_truncated hcut
      exact ⟨[], file, false, _, rfl, nofun, ipsLoop_done hturn, nofun,
        fun _ => ⟨bad_of_done hturn, .data offset data hcut⟩⟩
    · refine ⟨[], file, false, code, rfl, nofun, ipsLoop_done hdone, nofun, fun _ => ⟨bad_of_done hdone, ?_⟩⟩
      by_cases hcut : ∃ offset data, Truncated size.toNat file offset data
      · -- nothing of the record's data is there
        obtain ⟨offset, data, hcut⟩ := hcut
        have heq : code = code.store offset data := by
          have hturn := hdone.symm.trans (ipsTurn_truncated hcut)
          injection hturn
        conv => arg 4; rw [heq]
        exact .data offset data hcut
      · exact .nothing fun offset data h => hcut ⟨offset, data, h⟩

/-! ## What is written -/

/-- A record that fits writes below the size. -/
theorem write_above {r : IpsRecord} {n : Nat} (h : r.Fits n) (code : Memory UInt8) {x : Nat} (hx : n ≤ x) :
    r.write code x = code x := by
  cases r with
  | plain offset data => exact code.store_above h.2.2.2.2 hx
  | rle offset count byte => exact code.store_above (by rw [List.length_replicate]; exact h.2.2.2) hx

theorem foldl_write_above {rs : List IpsRecord} {n : Nat} (h : ∀ r ∈ rs, r.Fits n) (code : Memory UInt8) {x : Nat}
    (hx : n ≤ x) : rs.foldl IpsRecord.write code x = code x := by
  induction rs generalizing code with
  | nil => rfl
  | cons r rs ih =>
    rw [List.foldl_cons, ih fun r' hr' => h r' (List.mem_cons_of_mem _ hr')]
    exact write_above (h r List.mem_cons_self) code hx

theorem Left.above {n : Nat} {rest : List UInt8} {code code' : Memory UInt8} (h : Left n rest code code') {x : Nat}
    (hx : n ≤ x) : code' x = code x := by
  cases h with
  | data offset data cut =>
    obtain ⟨length, -, -, -, -, hcut, hfit⟩ := cut
    exact code.store_above (by omega) hx
  | nothing => rfl

theorem applyCodeIpsPatch_magic (file : List UInt8) :
    applyCodeIpsPatch (some (ipsMagic ++ file)) code size = ipsLoop size (file.length + 1) file code := rfl

theorem applyCodeIpsPatch_other {file : List UInt8} (h : ¬ ipsMagic <+: file) :
    applyCodeIpsPatch (some file) code size = some (false, code) := by
  have hne : file.take 5 ≠ ipsMagic := fun heq => h (heq ▸ List.take_prefix 5 file)
  exact if_pos hne

/-- The patcher returns on every file. It succeeds exactly on the magic, complete records that fit
and the end mark; then the records have been written from left to right. When it fails, those before
the first bad one have been, and what there is of the data of a bad one that is cut off. Nothing
is written from the size on. -/
theorem applyCodeIpsPatch_writes (file : List UInt8) (code : Memory UInt8) (size : UInt32) :
    ∃ ret code', applyCodeIpsPatch (some file) code size = some (ret, code') ∧
      (ret = true ↔ ∃ (rs : List IpsRecord) (rest : List UInt8), (∀ r ∈ rs, r.Fits size.toNat) ∧
        file = ipsMagic ++ (rs.flatMap IpsRecord.encode ++ (ipsEof ++ rest))) ∧
      (∀ (rs : List IpsRecord) (rest : List UInt8), (∀ r ∈ rs, r.Fits size.toNat) →
        file = ipsMagic ++ (rs.flatMap IpsRecord.encode ++ (ipsEof ++ rest)) → code' = rs.foldl IpsRecord.write code) ∧
      (∀ (rs : List IpsRecord) (rest : List UInt8), (∀ r ∈ rs, r.Fits size.toNat) →
        file = ipsMagic ++ (rs.flatMap IpsRecord.encode ++ rest) → Bad size.toNat rest →
          Left size.toNat rest (rs.foldl IpsRecord.write code) code') ∧
      ((¬ ipsMagic <+: file) → code' = code) ∧ ∀ x, size.toNat ≤ x → code' x = code x := by
  by_cases hmagic : ipsMagic <+: file
  swap
  · have hno : ∀ t, file ≠ ipsMagic ++ t := fun t ht => hmagic ⟨t, ht.symm⟩
    refine ⟨false, code, applyCodeIpsPatch_other hmagic, ⟨nofun, ?_⟩, ?_, ?_, fun _ => rfl, fun _ _ => rfl⟩
    · rintro ⟨rs, rest, -, heq⟩
      exact absurd heq (hno _)
    · exact fun rs rest _ heq => absurd heq (hno _)
    · exact fun rs rest _ heq => absurd heq (hno _)
  obtain ⟨file, rfl⟩ := hmagic
  obtain ⟨rs, rest, ret, code', hend⟩ := ipsLoop_ends size code (Nat.lt_succ_self file.length)
  -- other records that fit come to the same
  have hother : ∀ (rs' : List IpsRecord) (rest' : List UInt8), (∀ r ∈ rs', r.Fits size.toNat) →
      ipsMagic ++ file = ipsMagic ++ (rs'.flatMap IpsRecord.encode ++ rest') →
        ∃ fuel, rest'.length < fuel ∧ ipsLoop size fuel rest' (rs'.foldl IpsRecord.write code) = some (ret, code') := by
    intro rs' rest' hfits heq
    obtain rfl := List.append_cancel_left heq
    have hlen := length_le_encode rs'
    have hloop := hend.loop
    rw [List.length_append] at hloop
    refine ⟨(rs'.flatMap IpsRecord.encode).length + rest'.length + 1 - rs'.length, by omega, ?_⟩
    rw [← ipsLoop_records hfits, Nat.add_sub_cancel' (by omega)]
    exact hloop
  have heof : ∀ (rs' : List IpsRecord) (rest' : List UInt8), (∀ r ∈ rs', r.Fits size.toNat) →
      ipsMagic ++ file = ipsMagic ++ (rs'.flatMap IpsRecord.encode ++ (ipsEof ++ rest')) →
        ret = true ∧ code' = rs'.foldl IpsRecord.write code := by
    intro rs' rest' hfits heq
    obtain ⟨fuel, hfuel, hloop⟩ := hother rs' (ipsEof ++ rest') hfits heq
    obtain ⟨fuel, rfl⟩ := Nat.exists_eq_succ_of_ne_zero (Nat.ne_zero_of_lt hfuel)
    rw [ipsLoop_done (ipsTurn_eof rest')] at hloop
    cases hloop
    exact ⟨rfl, rfl⟩
  refine ⟨ret, code', hend.loop, ⟨fun hret => ?_, ?_⟩, fun rs' rest' hfits heq => (heof rs' rest' hfits heq).2,
    fun rs' rest' hfits heq hbad => ?_, fun h => absurd (List.prefix_append _ _) h, fun x hx => ?_⟩
  · obtain ⟨⟨rest', rfl⟩, -⟩ := hend.eof hret
    exact ⟨rs, rest', hend.fits, by rw [hend.file_eq]⟩
  · rintro ⟨rs', rest', hfits, heq⟩
    exact (heof rs' rest' hfits heq).1
  · obtain ⟨fuel, hfuel, hloop⟩ := hother rs' rest' hfits heq
    obtain ⟨rs1, rest1, ret1, code1, hend1⟩ := ipsLoop_ends size (rs'.foldl IpsRecord.write code) hfuel
    obtain ⟨rfl, rfl⟩ := Prod.mk.inj (Option.some.inj (hend1.loop.symm.trans hloop))
    -- no record and no end mark can be read there
    cases rs1 with
    | nil =>
      obtain rfl : rest' = rest1 := hend1.file_eq
      cases hr : ret1 with
      | false => exact (hend1.bad hr).2
      | true => exact absurd (hend1.eof hr).1 hbad.1
    | cons r rs1 =>
      refine absurd ?_ (hbad.2 r (hend1.fits r List.mem_cons_self))
      rw [hend1.file_eq, List.flatMap_cons, List.append_assoc]
      exact List.prefix_append _ _
  · cases hr : ret with
    | true => rw [(hend.eof hr).2, foldl_write_above hend.fits code hx]
    | false => rw [(hend.bad hr).2.above hx, foldl_write_above hend.fits code hx]

/-- No record is complete, and yet a byte is written. -/
theorem applyCodeIpsPatch_cut : ∃ code', applyCodeIpsPatch (some (ipsMagic ++ [0, 0, 0, 0, 2, 0xAA])) (fun _ => 0) 16 =
    some (false, code') ∧ Bad 16 [0, 0, 0, 0, 2, 0xAA] ∧ code' 0 = 0xAA := by
  have hturn : ipsTurn 16 [0, 0, 0, 0, 2, 0xAA] (fun _ => 0) = .done false (Memory.store (fun _ => 0) 0 [0xAA]) := rfl
  refine ⟨Memory.store (fun _ => 0) 0 [0xAA], ?_, bad_of_done hturn, rfl⟩
  rw [applyCodeIpsPatch_magic]
  exact ipsLoop_done hturn

end

end Omiiba.Loader
