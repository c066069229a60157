/-
The lines of a cheat file, as cheats.c reads and classifies them: the buffered file, `Cheat_ReadLine`,
and what makes a line a code.
-/
import Mathlib.Tactic
import Mathlib.Data.List.DropRight
import Mathlib.Data.List.GetD

namespace Omiiba.Rosalina

/-! ## The buffered file -/

/-- `BufferedFile`; `rest` is what its `IFile` has not read yet. -/
structure BufferedFile where
  rest : List UInt8
  buffer : List UInt8
  curPos : Nat
  maxPos : Nat

namespace BufferedFile

/-- `IFile_Read` into the buffer. -/
def fill (file : BufferedFile) : BufferedFile :=
  { file with rest := file.rest.drop 512, buffer := file.rest.take 512, maxPos := (file.rest.take 512).length }

/-- `BufferedFile_Open`. -/
def openFile (content : List UInt8) : BufferedFile := fill ⟨content, [], 0, 0⟩

/-- The loop of `BufferedFile_Read`, with what is read so far; every turn but a refill reads a byte. -/
def readLoop (len : Nat) : Nat → BufferedFile → List UInt8 → List UInt8 × BufferedFile
  | 0, file, buffer => (buffer, file)
  | turns + 1, file, buffer =>
    if file.maxPos ≠ 0 ∧ buffer.length < len then
      let toRead := min (file.maxPos - file.curPos) (len - buffer.length)
      let buffer := buffer ++ (file.buffer.drop file.curPos).take toRead
      let file := { file with curPos := file.curPos + toRead }
      readLoop len turns (if file.curPos ≥ file.maxPos then { file.fill with curPos := 0 } else file) buffer
    else (buffer, file)

/-- `BufferedFile_Read`. -/
def read (file : BufferedFile) (len : Nat) : List UInt8 × BufferedFile :=
  if len = 0 then ([], file)
  else if file.curPos + len < file.maxPos then
    ((file.buffer.drop file.curPos).take len, { file with curPos := file.curPos + len })
  else readLoop len len file []

/-- What is still to be read. -/
def bytes (file : BufferedFile) : List UInt8 := file.buffer.drop file.curPos ++ file.rest

/-- The position is in the buffer, which is empty only at the end of the file. -/
structure Valid (file : BufferedFile) : Prop where
  size : file.maxPos = file.buffer.length
  position : file.curPos < file.maxPos ∨ file.curPos = 0 ∧ file.maxPos = 0 ∧ file.rest = []

theorem fill_valid (file : BufferedFile) : Valid { file.fill with curPos := 0 } := by
  refine ⟨rfl, ?_⟩
  rcases hrest : file.rest with _ | ⟨b, bs⟩
  · right
    simp [fill, hrest]
  · left
    simp [fill, hrest]

theorem fill_bytes (file : BufferedFile) : bytes { file.fill with curPos := 0 } = file.rest := by
  simp [bytes, fill]

theorem openFile_valid (content : List UInt8) : (openFile content).Valid := fill_valid ⟨content, [], 0, 0⟩

theorem openFile_bytes (content : List UInt8) : (openFile content).bytes = content := fill_bytes ⟨content, [], 0, 0⟩

theorem Valid.read_end {file : BufferedFile} (hf : file.Valid) (h : file.bytes = []) : file.read 1 = ([], file) := by
  have hmax : file.maxPos = 0 := by
    rcases hf.position with hlt | ⟨-, hmax, -⟩
    · have hlen : (file.buffer.drop file.curPos).length = 0 := by
        unfold bytes at h
        rw [(List.append_eq_nil_iff.mp h).1]
        rfl
      rw [List.length_drop, ← hf.size] at hlen
      omega
    · exact hmax
  simp [read, readLoop, hmax]

/-- One byte is read, the next one of the file. -/
theorem Valid.read_one {file : BufferedFile} (hf : file.Valid) {c : UInt8} {bs : List UInt8} (h : file.bytes = c :: bs) :
    ∃ file', file.read 1 = ([c], file') ∧ file'.Valid ∧ file'.bytes = bs := by
  have hlt : file.curPos < file.buffer.length := by
    rcases hf.position with hlt | ⟨hcur, hmax, hrest⟩
    · rwa [hf.size] at hlt
    · rw [hf.size] at hmax
      unfold bytes at h
      rw [hrest, List.eq_nil_of_length_eq_zero hmax] at h
      simp at h
  have hdrop : file.buffer.drop file.curPos = file.buffer[file.curPos] :: file.buffer.drop (file.curPos + 1) :=
    List.drop_eq_getElem_cons hlt
  unfold bytes at h
  rw [hdrop, List.cons_append, List.cons.injEq] at h
  obtain ⟨hc, hbs⟩ := h
  have htake : (file.buffer.drop file.curPos).take 1 = [c] := by
    rw [hdrop, hc]
    rfl
  unfold read
  rw [if_neg one_ne_zero]
  split
  · next hmore => exact ⟨{ file with curPos := file.curPos + 1 }, by rw [htake], ⟨hf.size, Or.inl hmore⟩, hbs⟩
  · next hlast =>
    -- the last byte of the buffer, which is filled again
    have hend : file.curPos + 1 = file.buffer.length := by
      rw [hf.size] at hlast
      omega
    have hrest : bs = file.rest := by
      rw [← hbs, hend, List.drop_length, List.nil_append]
    have hone : min (file.maxPos - file.curPos) (1 - ([] : List UInt8).length) = 1 := by
      rw [hf.size]
      simp
      omega
    refine ⟨{ ({ file with curPos := file.curPos + 1 } : BufferedFile).fill with curPos := 0 }, ?_, fill_valid _, ?_⟩
    · unfold readLoop
      rw [if_pos ⟨by rw [hf.size]; omega, by simp⟩]
      dsimp only
      rw [hone, htake, if_pos (by rw [hf.size]; omega)]
      rfl
    · rw [fill_bytes, hrest]

end BufferedFile

/-! ## Lines -/

/-- What `Cheat_ReadLine` leaves: its result, and the text in the line; none if the line is full and
has no terminator. -/
structure ReadLine where
  res : Int
  line : Option (List UInt8)
  file : BufferedFile

/-- The loop of `Cheat_ReadLine`: `left` characters fit in the line. -/
def readLineLoop : Nat → BufferedFile → List UInt8 → Bool → ReadLine
  | 0, file, _, _ => ⟨0, none, file⟩
  | left + 1, file, line, lastWasCarriageReturn =>
    match file.read 1 with
    | ([], file) => ⟨-1, some line, file⟩
    | (c :: _, file) =>
      if c = '\r'.toUInt8 then readLineLoop left file (line ++ [c]) true
      else if c = '\n'.toUInt8 then
        let line := if lastWasCarriageReturn then line.dropLast else line
        ⟨line.length, some line, file⟩
      else if c = 0 then ⟨-1, some line, file⟩
      else readLineLoop left file (line ++ [c]) false

/-- `Cheat_ReadLine`. -/
def readLine (file : BufferedFile) (lineSize : Nat) : ReadLine := readLineLoop lineSize file [] false

/-- The lines of a file, with their carriage returns; it ends at a NUL. -/
def fileLines : List UInt8 → List (List UInt8)
  | [] => [[]]
  | c :: bs =>
    if c = 0 then [[]]
    else if c = '\n'.toUInt8 then [] :: fileLines bs
    else
      match fileLines bs with
      | [] => [[c]]
      | line :: lines => (c :: line) :: lines

/-- The text of a line that a line feed ends. -/
def dropReturn (line : List UInt8) : List UInt8 :=
  if line.getLast? = some '\r'.toUInt8 then line.dropLast else line

theorem fileLines_ne_nil (bs : List UInt8) : fileLines bs ≠ [] := by
  rcases bs with _ | ⟨c, bs⟩
  · simp [fileLines]
  · unfold fileLines
    split_ifs
    · simp
    · simp
    · split <;> simp

theorem fileLines_cons {c : UInt8} {bs line : List UInt8} {lines : List (List UInt8)} (hnul : c ≠ 0)
    (hfeed : c ≠ '\n'.toUInt8) (h : fileLines (c :: bs) = line :: lines) :
    ∃ rest, line = c :: rest ∧ fileLines bs = rest :: lines := by
  unfold fileLines at h
  rw [if_neg hnul, if_neg hfeed] at h
  split at h
  · next hnil => exact absurd hnil (fileLines_ne_nil bs)
  · next rest more hcons =>
    rw [List.cons.injEq] at h
    obtain ⟨rfl, rfl⟩ := h
    exact ⟨rest, rfl, hcons⟩

/-- What is read of a line with the text `text`, which `lines` follow. -/
structure ReadsLine (r : ReadLine) (text : List UInt8) (fits : Prop) (lines : List (List UInt8)) : Prop where
  full : ¬ fits → r.line = none
  final : fits → lines = [] → r.res = -1 ∧ r.line = some text
  more : fits → lines ≠ [] →
    0 ≤ r.res ∧ r.line = some (dropReturn text) ∧ r.file.Valid ∧ fileLines r.file.bytes = lines

theorem readLineLoop_spec : ∀ {left : Nat} {file : BufferedFile} {before line : List UInt8} {last : Bool}
    {lines : List (List UInt8)}, file.Valid → fileLines file.bytes = line :: lines →
    (last = true ↔ before.getLast? = some '\r'.toUInt8) →
    ReadsLine (readLineLoop left file before last) (before ++ line) (line.length < left) lines
  | 0, file, before, line, last, lines, hf, h, hlast => by
    constructor
    · intro _
      rfl
    · intro hfits
      omega
    · intro hfits
      omega
  | left + 1, file, before, line, last, lines, hf, h, hlast => by
    unfold readLineLoop
    rcases hbytes : file.bytes with _ | ⟨c, bs⟩
    · -- the end of the file
      rw [hbytes] at h
      simp only [fileLines, List.cons.injEq] at h
      obtain ⟨rfl, rfl⟩ := h
      rw [hf.read_end hbytes]
      constructor <;> simp
    · obtain ⟨file', hread, hf', hbs⟩ := hf.read_one hbytes
      rw [hread]
      dsimp only
      rw [hbytes] at h
      by_cases hnul : c = 0
      · subst hnul
        simp only [fileLines, if_pos, List.cons.injEq] at h
        obtain ⟨rfl, rfl⟩ := h
        rw [if_neg (by decide), if_neg (by decide), if_pos rfl]
        constructor <;> simp
      · by_cases hfeed : c = '\n'.toUInt8
        · subst hfeed
          unfold fileLines at h
          rw [if_neg (by decide), if_pos rfl, List.cons.injEq] at h
          obtain ⟨rfl, rfl⟩ := h
          rw [if_neg (by decide), if_pos rfl]
          constructor
          · intro hfits
            simp at hfits
          · intro _ hnil
            exact absurd hnil (fileLines_ne_nil bs)
          · intro _ _
            refine ⟨Int.natCast_nonneg _, ?_, hf', by rw [hbs]⟩
            rw [List.append_nil]
            unfold dropReturn
            by_cases hl : last = true
            · rw [if_pos hl, if_pos (hlast.mp hl)]
            · rw [if_neg hl, if_neg fun he => hl (hlast.mpr he)]
        · obtain ⟨rest, rfl, hrest⟩ := fileLines_cons hnul hfeed h
          rw [← hbs] at hrest
          have hnext : ∀ last : Bool, (last = true ↔ c = '\r'.toUInt8) →
              ReadsLine (readLineLoop left file' (before ++ [c]) last) (before ++ c :: rest)
                ((c :: rest).length < left + 1) lines := by
            intro last' hl
            have hspec : ReadsLine (readLineLoop left file' (before ++ [c]) last') (before ++ [c] ++ rest)
                (rest.length < left) lines := by
              refine readLineLoop_spec hf' hrest ?_
              rw [List.getLast?_append]
              simpa using hl
            rw [List.append_assoc, List.singleton_append] at hspec
            simpa using hspec
          split_ifs with hreturn
          · exact hnext true (by simpa using hreturn)
          · exact hnext false (by simpa using hreturn)

/-- `Cheat_ReadLine` reads the next line of the file. -/
theorem readLine_spec {file : BufferedFile} {line : List UInt8} {lines : List (List UInt8)} (hf : file.Valid)
    (h : fileLines file.bytes = line :: lines) (lineSize : Nat) :
    ReadsLine (readLine file lineSize) line (line.length < lineSize) lines :=
  readLineLoop_spec hf h (by simp)

/-! ## Kinds of lines -/

def isBlank (c : UInt8) : Bool := c = ' '.toUInt8 ∨ c = '\t'.toUInt8

/-- The second loop of `stripWhitespace`. -/
def stripBack (ret : List UInt8) : Nat → Nat
  | 0 => 0
  | back + 1 => if isBlank (ret.getD (back + 1) 0) then stripBack ret back else back + 1

/-- `stripWhitespace`: the line that it leaves, and the one it returns. -/
def stripWhitespace (line : List UInt8) : List UInt8 × List UInt8 :=
  let ret := line.dropWhile isBlank
  let stripped := if ret = [] then [] else ret.take (stripBack ret (ret.length - 1) + 1)
  (line.takeWhile isBlank ++ stripped, stripped)

def isHexDigit (c : UInt8) : Bool :=
  ('0'.toUInt8 ≤ c && c ≤ '9'.toUInt8) || ('A'.toUInt8 ≤ c && c ≤ 'F'.toUInt8) || ('a'.toUInt8 ≤ c && c ≤ 'f'.toUInt8)

/-- `Cheat_IsCodeLine`. -/
def isCodeLine (line : List UInt8) : Bool :=
  min line.length 1023 = 17 && line.getD 8 0 = ' '.toUInt8 &&
    (List.range 8).all (fun i => isHexDigit (line.getD i 0)) &&
    (List.range 8).all fun i => isHexDigit (line.getD (9 + i) 0)

/-- The digit of `Cheat_GetCode`. -/
def hexDigit (c : UInt8) : UInt8 :=
  if 'a'.toUInt8 ≤ c ∧ c ≤ 'f'.toUInt8 then c - 'a'.toUInt8 + 10
  else if 'A'.toUInt8 ≤ c ∧ c ≤ 'F'.toUInt8 then c - 'A'.toUInt8 + 10
  else if '0'.toUInt8 ≤ c ∧ c ≤ '9'.toUInt8 then c - '0'.toUInt8
  else 0

def addDigit (tmp : UInt64) (c : UInt8) : UInt64 := (tmp <<< 4) ||| (hexDigit c &&& 0xF).toUInt64

/-- `Cheat_GetCode`. -/
def getCode (line : List UInt8) : UInt64 :=
  let tmp := (List.range 8).foldl (fun tmp i => addDigit tmp (line.getD i 0)) 0
  (List.range 8).foldl (fun tmp i => addDigit tmp (line.getD (9 + i) 0)) tmp

/-! ## What the lines say -/

/-- A line of a cheat file: a comment or a blank one, a code, or the name of a cheat. -/
inductive Line
  | nothing
  | code (word : UInt64)
  | name (text : List UInt8)

/-- A text without the blanks at its ends. -/
def trim (text : List UInt8) : List UInt8 := (text.dropWhile isBlank).rdropWhile isBlank

/-- `XXXXXXXX YYYYYYYY`. -/
def IsCode (text : List UInt8) : Prop :=
  text.length = 17 ∧ text[8]? = some ' '.toUInt8 ∧ ∀ c ∈ text.take 8 ++ text.drop 9, isHexDigit c = true

instance (text : List UInt8) : Decidable (IsCode text) := inferInstanceAs (Decidable (_ ∧ _))

def hexValue (digits : List UInt8) : Nat := digits.foldl (fun n c => 16 * n + (hexDigit c).toNat) 0

/-- Of a name, 38 characters are kept, without the blanks at its end. -/
def Line.of (text : List UInt8) : Line :=
  if trim text = [] ∨ (trim text).head? = some '#'.toUInt8 then .nothing
  else if IsCode (trim text) then .code (UInt64.ofNat (hexValue ((trim text).take 8 ++ (trim text).drop 9)))
  else .name ((text.rdropWhile isBlank).take 38)

theorem stripBack_spec : ∀ {back : Nat} {ret : List UInt8}, back < ret.length → isBlank (ret.getD 0 0) = false →
    (ret.take (back + 1)).rdropWhile isBlank = ret.take (stripBack ret back + 1)
  | 0, ret, hback, hfirst => by
    rcases ret with _ | ⟨c, ret⟩
    · simp at hback
    · have hc : isBlank c = false := hfirst
      simp [stripBack, List.rdropWhile, hc]
  | back + 1, ret, hback, hfirst => by
    rw [List.take_succ_eq_append_getElem hback]
    unfold stripBack
    rw [List.getD_eq_getElem _ _ hback]
    by_cases hblank : isBlank ret[back + 1] = true
    · rw [if_pos hblank, List.rdropWhile_concat_pos _ _ _ hblank]
      exact stripBack_spec (by omega) hfirst
    · rw [if_neg hblank, List.rdropWhile_concat_neg _ _ _ hblank, List.take_succ_eq_append_getElem hback]

theorem stripWhitespace_snd (line : List UInt8) : (stripWhitespace line).2 = trim line := by
  unfold stripWhitespace trim
  dsimp only
  split
  · next hnil =>
    rw [hnil]
    rfl
  · next hne =>
    have hpos := List.length_pos_iff.mpr hne
    have hfirst : isBlank ((line.dropWhile isBlank).getD 0 0) = false := by
      have hhead := List.dropWhile_get_zero_not isBlank line hpos
      rw [List.getD_eq_getElem _ _ hpos]
      simpa using hhead
    rw [← stripBack_spec (by omega) hfirst, Nat.sub_add_cancel hpos, List.take_length]

theorem rdropWhile_append {xs ys : List UInt8} (h : ys.rdropWhile isBlank ≠ []) :
    (xs ++ ys).rdropWhile isBlank = xs ++ ys.rdropWhile isBlank := by
  unfold List.rdropWhile at h ⊢
  rw [List.reverse_append, List.dropWhile_append, if_neg (by simpa using h)]
  simp

/-- What is left of a line that is not blank, is the line up to the blanks at its end. -/
theorem stripWhitespace_fst {line : List UInt8} (h : trim line ≠ []) :
    (stripWhitespace line).1 = line.rdropWhile isBlank := by
  have hfst : (stripWhitespace line).1 = line.takeWhile isBlank ++ trim line := by
    rw [← stripWhitespace_snd]
    rfl
  have hline : line = line.takeWhile isBlank ++ line.dropWhile isBlank := List.takeWhile_append_dropWhile.symm
  rw [hfst]
  conv_rhs => rw [hline, rdropWhile_append h]
  rfl

/-! ## Codes -/

theorem forall_range_getD {P : UInt8 → Prop} (xs : List UInt8) :
    (∀ i ∈ List.range xs.length, P (xs.getD i 0)) ↔ ∀ c ∈ xs, P c := by
  constructor
  · intro h c hc
    obtain ⟨i, hi, rfl⟩ := List.getElem_of_mem hc
    have hP := h i (List.mem_range.mpr hi)
    rwa [List.getD_eq_getElem _ _ hi] at hP
  · intro h i hi
    rw [List.getD_eq_getElem _ _ (List.mem_range.mp hi)]
    exact h _ (List.getElem_mem _)

theorem foldl_range_getD {α : Type} (f : α → UInt8 → α) (a : α) (xs : List UInt8) :
    (List.range xs.length).foldl (fun a i => f a (xs.getD i 0)) a = xs.foldl f a := by
  have hmap : (List.range xs.length).map (fun i => xs.getD i 0) = xs := by
    refine List.ext_getElem (by simp) fun i hi hxs => ?_
    rw [List.getElem_map, List.getElem_range, List.getD_eq_getElem _ _ hxs]
  conv_rhs => rw [← hmap, List.foldl_map]

/-- The characters of a code: eight, and eight behind the blank. -/
theorem getD_take {line : List UInt8} {i : Nat} (hi : i < 8) : line.getD i 0 = (line.take 8).getD i 0 := by
  simp [List.getD_eq_getElem?_getD, hi]

theorem getD_drop (line : List UInt8) (i : Nat) : line.getD (9 + i) 0 = (line.drop 9).getD i 0 := by
  simp [List.getD_eq_getElem?_getD]

theorem isCodeLine_iff (text : List UInt8) : isCodeLine text = true ↔ IsCode text := by
  unfold isCodeLine IsCode
  simp only [Bool.and_eq_true, decide_eq_true_eq, List.all_eq_true, and_assoc]
  have hlen : min text.length 1023 = 17 ↔ text.length = 17 := by omega
  rw [hlen]
  refine and_congr_right fun h17 => ?_
  have h8 : (text.take 8).length = 8 := by simp [h17]
  have h9 : (text.drop 9).length = 8 := by simp [h17]
  have hblank : text.getD 8 0 = ' '.toUInt8 ↔ text[8]? = some ' '.toUInt8 := by
    rw [List.getD_eq_getElem _ _ (by omega), List.getElem?_eq_getElem (by omega), Option.some.injEq]
  rw [hblank]
  refine and_congr_right fun _ => ?_
  have hfirst := forall_range_getD (P := fun c => isHexDigit c = true) (text.take 8)
  have hsecond := forall_range_getD (P := fun c => isHexDigit c = true) (text.drop 9)
  rw [h8] at hfirst
  rw [h9] at hsecond
  rw [List.forall_mem_append, ← hfirst, ← hsecond]
  refine and_congr (forall₂_congr fun i hi => ?_) (forall₂_congr fun i _ => ?_)
  · rw [getD_take (List.mem_range.mp hi)]
  · rw [getD_drop]

theorem hexDigit_lt {c : UInt8} (h : isHexDigit c = true) : (hexDigit c).toNat < 16 := by
  have hall : ∀ n : Fin 256, isHexDigit (UInt8.ofNat n) = true → (hexDigit (UInt8.ofNat n)).toNat < 16 := by
    decide +kernel
  have hc := hall ⟨c.toNat, c.toNat_lt⟩
  rw [UInt8.ofNat_toNat] at hc
  exact hc h

theorem addDigit_ofNat {c : UInt8} (h : isHexDigit c = true) (n : Nat) :
    addDigit (UInt64.ofNat n) c = UInt64.ofNat (16 * n + (hexDigit c).toNat) := by
  have hlt := hexDigit_lt h
  have hmask : hexDigit c &&& 0xF = hexDigit c := by
    apply UInt8.toNat_inj.mp
    rw [UInt8.toNat_and]
    exact (Nat.and_two_pow_sub_one_eq_mod _ 4).trans (Nat.mod_eq_of_lt hlt)
  apply UInt64.toNat_inj.mp
  unfold addDigit
  rw [hmask, UInt64.toNat_or, UInt64.toNat_shiftLeft, UInt8.toNat_toUInt64, UInt64.toNat_ofNat', UInt64.toNat_ofNat']
  show (n % 2 ^ 64) <<< 4 % 2 ^ 64 ||| _ = _
  have hshift : (n % 2 ^ 64) <<< 4 % 2 ^ 64 = (n % 2 ^ 60) <<< 4 := by
    rw [Nat.shiftLeft_eq, Nat.shiftLeft_eq]
    omega
  rw [hshift, ← Nat.shiftLeft_add_eq_or_of_lt (by simpa using hlt), Nat.shiftLeft_eq]
  omega

theorem foldl_addDigit {digits : List UInt8} (n : Nat) (h : ∀ c ∈ digits, isHexDigit c = true) :
    digits.foldl addDigit (UInt64.ofNat n) =
      UInt64.ofNat (digits.foldl (fun n c => 16 * n + (hexDigit c).toNat) n) := by
  induction digits generalizing n with
  | nil => rfl
  | cons c digits ih =>
    rw [List.foldl_cons, List.foldl_cons, addDigit_ofNat (h c List.mem_cons_self)]
    exact ih _ fun d hd => h d (List.mem_cons_of_mem c hd)

theorem getCode_eq {line : List UInt8} (h : IsCode line) :
    getCode line = UInt64.ofNat (hexValue (line.take 8 ++ line.drop 9)) := by
  obtain ⟨h17, -, hdigits⟩ := h
  have h8 : (line.take 8).length = 8 := by simp [h17]
  have h9 : (line.drop 9).length = 8 := by simp [h17]
  have hfirst := foldl_range_getD addDigit 0 (line.take 8)
  have hsecond := foldl_range_getD addDigit ((line.take 8).foldl addDigit 0) (line.drop 9)
  rw [h8] at hfirst
  rw [h9] at hsecond
  have hcode : getCode line = (line.take 8 ++ line.drop 9).foldl addDigit 0 := by
    rw [List.foldl_append, ← hsecond, ← hfirst]
    unfold getCode
    dsimp only
    have htake : (List.range 8).foldl (fun tmp i => addDigit tmp (line.getD i 0)) 0 =
        (List.range 8).foldl (fun tmp i => addDigit tmp ((line.take 8).getD i 0)) 0 :=
      List.foldl_ext _ _ _ fun tmp i hi => by rw [getD_take (List.mem_range.mp hi)]
    rw [htake]
    exact List.foldl_ext _ _ _ fun tmp i _ => by rw [getD_drop]
  rw [hcode]
  exact foldl_addDigit 0 hdigits

end Omiiba.Rosalina
