/-
`vFile:pread` of tio.c, and the client that reads a file with it: chunk by chunk, each from where the
one before ended, until a reply reports no byte.
-/
import Omiiba.Rosalina.GdbNet
import Omiiba.Lib.Hex

namespace Omiiba.Rosalina

/-! ## The handler -/

/-- The size of `buf` in the handler. -/
def readBufSize : Nat := gdbBufLen - 4 - 2 - 8

/-- `IFile_Read` of a file that can be read: the bytes from a position on, at most `len`. -/
def ifileRead (file : List UInt8) (pos len : Nat) : List UInt8 := (file.drop pos).take len

/-- `GDB_ReplyErrno` of `EILSEQ`, where `GDB_ParseHexIntegerList` fails. -/
def replyEilseq : List UInt8 := ascii "E8a"

/-- `GDB_HandleTioRead`, of an open file: the packet that is sent. The arguments are read as words. -/
def tioRead (file : List UInt8) (count offset : Nat) : List UInt8 :=
  if count < 2 ^ 32 ∧ offset < 2 ^ 32 then
    let buf := ifileRead file offset (if count > readBufSize then readBufSize else count)
    let (encoded, actualCount) := escapeBinaryData buf readBufSize
    ascii "F" ++ Hex.fixed 8 actualCount ++ ascii ";" ++ encoded
  else replyEilseq

/-! ## The client -/

/-- What a client takes from a packet: the number of bytes that it reports, and its data. -/
def clientDecode (packet : List UInt8) : Option (Nat × List UInt8) :=
  match packet with
  | [] => none
  | c :: text =>
    if c = 0x46 then
      (Hex.value 0 (text.takeWhile (· ≠ 0x3B))).map fun count =>
        (count, unescapeBinaryData 0 (text.dropWhile (· ≠ 0x3B)).tail)
    else none

/-- The client: what it has read when a reply reports no byte, none after a reply that it cannot decode or
after more than `fuel` replies. -/
def clientRead (file : List UInt8) (chunk : Nat) : Nat → Nat → Option (List UInt8)
  | 0, _ => none
  | fuel + 1, offset =>
    match clientDecode (tioRead file chunk offset) with
    | none => none
    | some (count, data) =>
      if count = 0 then some [] else (clientRead file chunk fuel (offset + count)).map (data ++ ·)

/-! ## Replies -/

theorem takeWhile_digits (rest : List UInt8) {digits : List UInt8} (h : ∀ c ∈ digits, (Hex.digitValue c).isSome = true) :
    (digits ++ 0x3B :: rest).takeWhile (· ≠ 0x3B) = digits ∧ (digits ++ 0x3B :: rest).dropWhile (· ≠ 0x3B) = 0x3B :: rest := by
  have hne : ∀ c ∈ digits, c ≠ 0x3B := by
    rintro c hc rfl
    have hsome := h _ hc
    simp [Hex.digitValue] at hsome
  constructor
  · rw [List.takeWhile_append_of_pos (by simpa using hne)]
    simp
  · rw [List.dropWhile_append_of_pos (by simpa using hne)]
    simp

/-- A reply in words: the client gets the bytes of the chunk that fit escaped. -/
theorem clientDecode_tioRead {file : List UInt8} {count offset : Nat} (hcount : count < 2 ^ 32) (hoffset : offset < 2 ^ 32) :
    let buf := ifileRead file offset (min count readBufSize)
    let consumed := (escapeLoop buf buf.length).2
    clientDecode (tioRead file count offset) = some (consumed, buf.take consumed) := by
  intro buf consumed
  have hmin : (if count > readBufSize then readBufSize else count) = min count readBufSize := by
    split_ifs <;> omega
  have hlen : buf.length ≤ readBufSize := (List.length_take_le _ _).trans (by omega)
  have hescape : escapeBinaryData buf readBufSize = escapeLoop buf buf.length := by
    unfold escapeBinaryData
    rw [if_pos hlen]
  obtain ⟨hconsumed, -, -, hunescape⟩ := unescape_escapeLoop 0 buf buf.length
  have hlt : consumed < 16 ^ 8 := by
    unfold readBufSize gdbBufLen at hlen
    have : consumed ≤ buf.length := hconsumed
    omega
  obtain ⟨htake, hdrop⟩ := takeWhile_digits (escapeLoop buf buf.length).1
    fun c (hc : c ∈ Hex.fixed 8 consumed) => Hex.fixed_isDigit 8 hc
  have htext : tioRead file count offset =
      0x46 :: (Hex.fixed 8 consumed ++ 0x3B :: (escapeLoop buf buf.length).1) := by
    unfold tioRead
    rw [if_pos ⟨hcount, hoffset⟩, hmin]
    show (let (encoded, actualCount) := escapeBinaryData buf readBufSize
      ascii "F" ++ Hex.fixed 8 actualCount ++ ascii ";" ++ encoded) = _
    rw [hescape]
    simp [ascii, consumed]
  rw [htext]
  unfold clientDecode
  simp only [if_true, htake, hdrop, Hex.value_fixed 8 hlt, List.tail_cons, hunescape]
  simp [consumed]

/-- The bytes that the reply for a chunk from `offset` on reports. -/
def consumedAt (file : List UInt8) (chunk offset : Nat) : Nat :=
  let buf := ifileRead file offset (min chunk readBufSize)
  (escapeLoop buf buf.length).2

theorem clientDecode_words {file : List UInt8} {chunk offset : Nat} (hchunk : chunk < 2 ^ 32) (hoffset : offset < 2 ^ 32) :
    clientDecode (tioRead file chunk offset) =
      some (consumedAt file chunk offset, (file.drop offset).take (consumedAt file chunk offset)) := by
  have hconsumed := (unescape_escapeLoop 0 (ifileRead file offset (min chunk readBufSize))
    (ifileRead file offset (min chunk readBufSize)).length).1
  have hmin : consumedAt file chunk offset ≤ min chunk readBufSize := hconsumed.trans (List.length_take_le _ _)
  rw [clientDecode_tioRead hchunk hoffset]
  show some (_, ((file.drop offset).take (min chunk readBufSize)).take (consumedAt file chunk offset)) = _
  rw [List.take_take, Nat.min_eq_left hmin]
  rfl

theorem clientDecode_noWords {file : List UInt8} {chunk offset : Nat} (h : ¬(chunk < 2 ^ 32 ∧ offset < 2 ^ 32)) :
    clientDecode (tioRead file chunk offset) = none := by
  unfold tioRead
  rw [if_neg h]
  rfl

theorem consumedAt_le (file : List UInt8) (chunk offset : Nat) :
    consumedAt file chunk offset ≤ min (min chunk readBufSize) (file.length - offset) := by
  have hconsumed := (unescape_escapeLoop 0 (ifileRead file offset (min chunk readBufSize))
    (ifileRead file offset (min chunk readBufSize)).length).1
  have hlen : (ifileRead file offset (min chunk readBufSize)).length = min (min chunk readBufSize) (file.length - offset) := by
    simp [ifileRead]
  exact hconsumed.trans hlen.le

/-! ## Special bytes at the end of a chunk -/

/-- Every special byte that is consumed takes one byte more. -/
theorem escapeLoop_length (src : List UInt8) : ∀ room : Nat,
    (escapeLoop src room).1.length = (escapeLoop src room).2 + (src.take (escapeLoop src room).2).countP special := by
  induction src with
  | nil => intro room; cases room <;> simp [escapeLoop]
  | cons b src ih =>
    intro room
    cases room with
    | zero => simp [escapeLoop]
    | succ room =>
      by_cases hb : special b = true
      · cases room with
        | zero => simp [escapeLoop, hb]
        | succ room =>
          have hlen := ih room
          simp only [escapeLoop, hb, if_true, List.length_cons, List.take_succ_cons, List.countP_cons]
          omega
      · have hb' : special b = false := Bool.eq_false_iff.mpr hb
        have hlen := ih room
        simp only [escapeLoop, hb', Bool.false_eq_true, if_false, List.length_cons, List.take_succ_cons, List.countP_cons]
        omega

/-- A special byte at the end of the source is not consumed in as much room as the source. -/
theorem escapeLoop_last {src : List UInt8} {b : UInt8} (hlast : src.getLast? = some b) (hb : special b = true) :
    (escapeLoop src src.length).2 < src.length := by
  obtain ⟨hconsumed, hlength, -, -⟩ := unescape_escapeLoop 0 src src.length
  have hcount := escapeLoop_length src src.length
  by_contra hge
  have hall : (escapeLoop src src.length).2 = src.length := by omega
  rw [hall, List.take_length] at hcount
  have hpos : 0 < src.countP special := List.countP_pos_iff.mpr ⟨b, List.mem_of_getLast? hlast, hb⟩
  omega

/-- A byte is consumed, if there is one, but for a special byte on its own. -/
theorem escapeLoop_pos {b : UInt8} {src : List UInt8} (h : special b = true → src ≠ []) :
    0 < (escapeLoop (b :: src) (b :: src).length).2 := by
  by_cases hb : special b = true
  · obtain ⟨c, src, rfl⟩ := List.exists_cons_of_ne_nil (h hb)
    simp [escapeLoop, hb]
  · have hb' : special b = false := Bool.eq_false_iff.mpr hb
    simp [escapeLoop, hb']

/-- No special byte is on its own in a chunk: none in chunks of one byte, none at the end of the file. -/
def NoLoneSpecial (file : List UInt8) (chunk : Nat) : Prop :=
  (chunk = 1 → ∀ b ∈ file, special b = false) ∧ ∀ b, file.getLast? = some b → special b = false

theorem consumedAt_pos {file : List UInt8} {chunk offset : Nat} (hchunk : 1 ≤ chunk) (h : NoLoneSpecial file chunk)
    (hoffset : offset < file.length) : 0 < consumedAt file chunk offset := by
  have hdrop := List.drop_eq_getElem_cons hoffset
  obtain ⟨n, hn⟩ : ∃ n, min chunk readBufSize = n + 1 := ⟨min chunk readBufSize - 1, by unfold readBufSize gdbBufLen; omega⟩
  unfold consumedAt ifileRead
  rw [hdrop, hn, List.take_succ_cons]
  refine escapeLoop_pos fun hspecial hnil => ?_
  rcases List.take_eq_nil_iff.mp hnil with hzero | hend
  · have hone : chunk = 1 := by
      unfold readBufSize gdbBufLen at hn
      omega
    rw [h.1 hone _ (List.getElem_mem hoffset)] at hspecial
    cases hspecial
  · have hlen : file.length ≤ offset + 1 := List.drop_eq_nil_iff.mp hend
    have hlast : file.getLast? = some file[offset] := by
      rw [List.getLast?_eq_getElem?, List.getElem?_eq_getElem (by omega)]
      congr 1
      exact getElem_congr_idx (by omega)
    rw [h.2 _ hlast] at hspecial
    cases hspecial

/-- Without it, there is a place that no reply gets past. -/
theorem stuck_of_loneSpecial {file : List UInt8} {chunk : Nat} (h : ¬NoLoneSpecial file chunk) :
    ∃ i < file.length, ∀ offset ≤ i, offset + consumedAt file chunk offset ≤ i := by
  unfold NoLoneSpecial at h
  rw [not_and_or] at h
  rcases h with h | h
  · push Not at h
    obtain ⟨rfl, b, hmem, hb⟩ := h
    obtain ⟨i, hi, rfl⟩ := List.getElem_of_mem hmem
    refine ⟨i, hi, fun offset hoffset => ?_⟩
    have hle := consumedAt_le file 1 offset
    rcases Nat.lt_or_ge offset i with hlt | hge
    · omega
    · obtain rfl : offset = i := by omega
      have hb' : special file[offset] = true := by simpa using hb
      have hbuf : ifileRead file offset (min 1 readBufSize) = [file[offset]] := by
        unfold ifileRead
        rw [List.drop_eq_getElem_cons hi]
        rfl
      have hlt : consumedAt file 1 offset < 1 := by
        unfold consumedAt
        simp only [hbuf]
        exact escapeLoop_last (b := file[offset]) rfl hb'
      omega
  · push Not at h
    obtain ⟨b, hlast, hb⟩ := h
    have hne : file ≠ [] := by
      rintro rfl
      simp at hlast
    have hpos := List.length_pos_of_ne_nil hne
    refine ⟨file.length - 1, by omega, fun offset hoffset => ?_⟩
    have hle := consumedAt_le file chunk offset
    rcases Nat.lt_or_ge (min chunk readBufSize) (file.length - offset) with hlt | hge
    · omega
    · have hbuf : ifileRead file offset (min chunk readBufSize) = file.drop offset := by
        unfold ifileRead
        exact List.take_of_length_le (by rw [List.length_drop]; exact hge)
      have hlast' : (file.drop offset).getLast? = some b := by
        rw [List.getLast?_drop, if_neg (by omega), hlast]
      have hlt : consumedAt file chunk offset < (file.drop offset).length := by
        unfold consumedAt
        simp only [hbuf]
        exact escapeLoop_last hlast' (by simpa using hb)
      rw [List.length_drop] at hlt
      omega

/-! ## Reading a file -/

/-- What a client has read ends before a word that is no offset, and before a place that no reply gets past. -/
theorem clientRead_bounds {file : List UInt8} {chunk i : Nat} (hstuck : ∀ offset ≤ i, offset + consumedAt file chunk offset ≤ i)
    (fuel : Nat) : ∀ {offset : Nat} {read : List UInt8}, offset ≤ i → clientRead file chunk fuel offset = some read →
      offset + read.length ≤ i := by
  induction fuel with
  | zero =>
    intro offset read _ h
    simp [clientRead] at h
  | succ fuel ih =>
    intro offset read hoffset h
    unfold clientRead at h
    by_cases hwords : chunk < 2 ^ 32 ∧ offset < 2 ^ 32
    · rw [clientDecode_words hwords.1 hwords.2] at h
      simp only at h
      split_ifs at h with hzero
      · obtain rfl := Option.some.inj h
        simpa using hoffset
      · obtain ⟨rest, hrest, rfl⟩ := Option.map_eq_some_iff.mp h
        have hstep := hstuck offset hoffset
        have hle := ih hstep hrest
        have htake := List.length_take_le (consumedAt file chunk offset) (file.drop offset)
        rw [List.length_append]
        omega
    · rw [clientDecode_noWords hwords] at h
      simp at h

theorem clientRead_words {file : List UInt8} {chunk : Nat} (fuel : Nat) : ∀ {offset : Nat} {read : List UInt8},
    clientRead file chunk fuel offset = some read → chunk < 2 ^ 32 ∧ offset + read.length < 2 ^ 32 := by
  induction fuel with
  | zero =>
    intro offset read h
    simp [clientRead] at h
  | succ fuel ih =>
    intro offset read h
    unfold clientRead at h
    by_cases hwords : chunk < 2 ^ 32 ∧ offset < 2 ^ 32
    · rw [clientDecode_words hwords.1 hwords.2] at h
      simp only at h
      split_ifs at h with hzero
      · obtain rfl := Option.some.inj h
        simpa using hwords
      · obtain ⟨rest, hrest, rfl⟩ := Option.map_eq_some_iff.mp h
        obtain ⟨hchunk, hlt⟩ := ih hrest
        have htake := List.length_take_le (consumedAt file chunk offset) (file.drop offset)
        refine ⟨hchunk, ?_⟩
        rw [List.length_append]
        omega
    · rw [clientDecode_noWords hwords] at h
      simp at h

theorem clientRead_of_noLoneSpecial {file : List UInt8} {chunk : Nat} (hpos : 1 ≤ chunk) (hchunk : chunk < 2 ^ 32)
    (hfile : file.length < 2 ^ 32) (h : NoLoneSpecial file chunk) (n : Nat) : ∀ {offset : Nat},
    offset + n = file.length → ∃ fuel, clientRead file chunk fuel offset = some (file.drop offset) := by
  induction n using Nat.strong_induction_on with
  | _ n ih =>
    intro offset hn
    have hle := consumedAt_le file chunk offset
    rcases Nat.eq_zero_or_pos n with rfl | hlt
    · refine ⟨1, ?_⟩
      have hzero : consumedAt file chunk offset = 0 := by omega
      unfold clientRead
      rw [clientDecode_words hchunk (by omega), List.drop_eq_nil_of_le (by omega)]
      simp [hzero]
    · have hstep := consumedAt_pos hpos h (show offset < file.length by omega)
      obtain ⟨fuel, hfuel⟩ := ih (n - consumedAt file chunk offset) (by omega)
        (show offset + consumedAt file chunk offset + (n - consumedAt file chunk offset) = file.length by omega)
      refine ⟨fuel + 1, ?_⟩
      unfold clientRead
      rw [clientDecode_words hchunk (by omega)]
      simp only
      rw [if_neg (by omega), hfuel, Option.map_some, ← List.drop_drop, List.take_append_drop]

/-- Reading chunk by chunk gives the file, exactly if no special byte is on its own in a chunk and the
chunk and the file have a length that is a word. -/
theorem clientRead_file_iff {file : List UInt8} {chunk : Nat} (hpos : 1 ≤ chunk) :
    (∃ fuel, clientRead file chunk fuel 0 = some file) ↔
      chunk < 2 ^ 32 ∧ file.length < 2 ^ 32 ∧ NoLoneSpecial file chunk := by
  constructor
  · rintro ⟨fuel, h⟩
    obtain ⟨hchunk, hfile⟩ := clientRead_words fuel h
    refine ⟨hchunk, by omega, ?_⟩
    by_contra hlone
    obtain ⟨i, hi, hstuck⟩ := stuck_of_loneSpecial hlone
    have hle := clientRead_bounds hstuck fuel (Nat.zero_le i) h
    omega
  · rintro ⟨hchunk, hfile, h⟩
    exact clientRead_of_noLoneSpecial hpos hchunk hfile h file.length (by omega)

theorem clientRead_file_ab : (∃ fuel, clientRead [0x24, 0x61] 2 fuel 0 = some [0x24, 0x61]) ↔
    2 < 2 ^ 32 ∧ [0x24, (0x61 : UInt8)].length < 2 ^ 32 ∧ NoLoneSpecial [0x24, 0x61] 2 :=
  clientRead_file_iff (by norm_num)

/-- Of a file that ends with a dollar sign, that one is never read. -/
theorem clientRead_not_file : ¬∃ fuel, clientRead [0x61, 0x24] 100 fuel 0 = some [0x61, 0x24] := by
  rintro ⟨fuel, h⟩
  have hnot : ¬NoLoneSpecial [0x61, 0x24] 100 := by
    rintro ⟨-, hlast⟩
    have hspecial := hlast 0x24 rfl
    simp [special] at hspecial
  obtain ⟨i, hi, hstuck⟩ := stuck_of_loneSpecial hnot
  have hle := clientRead_bounds hstuck fuel (Nat.zero_le i) h
  omega

end Omiiba.Rosalina
