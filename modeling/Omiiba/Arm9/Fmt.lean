/-
`sprintf` of fmt.c, which the firmware and Rosalina have a copy of each: what it prints for the directives of the C standard,
and for which of them it prints something else. An `s32` is an integer: field widths and precisions that overflow one are
left out of what is said of them.
-/
import Omiiba.Arm9.FloatText

namespace Omiiba.Arm9

/-! ## The code -/

/-- The flags of `processNumber`. -/
structure FmtFlags where
  zeropad : Bool
  sign : Bool
  plus : Bool
  space : Bool
  left : Bool
  hexPrep : Bool
  uppercase : Bool
  deriving DecidableEq

def FmtFlags.none : FmtFlags := ⟨false, false, false, false, false, false, false⟩

/-- An argument: a word, two words, or a pointer to a string, which can be null. -/
inductive FmtArg
  | word (x : UInt32)
  | dword (x : UInt64)
  | str (s : Option CStr)
  deriving DecidableEq

/-- `va_arg(args, s32)`. -/
def s32 (x : UInt32) : Int := x.toBitVec.toInt

/-- `skipAtoi`: the number and the text behind it. -/
def skipAtoi : Int → CStr → Int × CStr
  | i, [] => (i, [])
  | i, c :: s =>
    match digitOf c with
    | none => (i, c :: s)
    | some d => skipAtoi (i * 10 + d) s

/-- `while(size-- > 0) *str++ = c`, and `size` behind it. -/
def countDown (size : Int) (c : Char) : CStr × Int := (List.replicate size.toNat c, min size 0 - 1)

def upperDigitChar (n : Nat) : Char := "0123456789ABCDEF".toList.getD n '0'

/-- `tmp`, of which the last digit is the first one. A number is not negated beyond an `s64`: the lowest one stays what it is,
and its digits are those of a `u64`. -/
def fmtDigits (num : UInt64) (isHex : Bool) (precision : Int) (uppercase : Bool) : CStr :=
  if num = 0 then if precision ≠ 0 then ['0'] else []
  else (Nat.digits (if isHex then 16 else 10) num.toNat).map (if uppercase then upperDigitChar else digitChar)

/-- The sign of a number, and the number without it. -/
def fmtSign (num : UInt64) (type : FmtFlags) : UInt64 × CStr :=
  if type.sign then
    if num.toBitVec.toInt < 0 then (-num, ['-'])
    else if type.plus then (num, ['+'])
    else if type.space then (num, [' '])
    else (num, [])
  else (num, [])

/-- `processNumber`. -/
def processNumber (num : UInt64) (isHex : Bool) (size precision : Int) (type : FmtFlags) : CStr :=
  let (num, sign) := fmtSign num type
  let size := size - sign.length
  let tmp := fmtDigits num isHex precision type.uppercase
  let hexPrep := if num = 0 then false else type.hexPrep
  let zeropad := if type.left ∨ precision ≠ -1 then false else type.zeropad
  let size := if hexPrep ∧ isHex then size - 2 else size
  let precision := if tmp.length > precision then (tmp.length : Int) else precision
  let size := size - precision
  let (before, size) := if !(zeropad || type.left) then countDown size ' ' else ([], size)
  let hex : CStr := if hexPrep ∧ isHex then ['0', 'x'] else []
  let (zeros, size) := if zeropad then countDown size '0' else ([], size)
  let digits := (countDown (precision - tmp.length) '0').1 ++ tmp.reverse
  let (behind, _) := countDown size ' '
  before ++ sign ++ hex ++ zeros ++ digits ++ behind

/-- The flags of a directive, and the text behind them. -/
def fmtFlagsOf : FmtFlags → CStr → FmtFlags × CStr
  | flags, [] => (flags, [])
  | flags, c :: s =>
    if c = '-' then fmtFlagsOf { flags with left := true } s
    else if c = '+' then fmtFlagsOf { flags with plus := true } s
    else if c = ' ' then fmtFlagsOf { flags with space := true } s
    else if c = '#' then fmtFlagsOf { flags with hexPrep := true } s
    else if c = '0' then fmtFlagsOf { flags with zeropad := true } s
    else (flags, c :: s)

/-- Where a format is being read: what is left of it and of the arguments. -/
structure FmtCursor where
  fmt : CStr
  args : List FmtArg

namespace FmtCursor

/-- `va_arg` of a word. -/
def word : FmtCursor → Option (UInt32 × FmtCursor)
  | ⟨fmt, .word x :: args⟩ => some (x, ⟨fmt, args⟩)
  | _ => none

/-- `va_arg` of two words. -/
def dword : FmtCursor → Option (UInt64 × FmtCursor)
  | ⟨fmt, .dword x :: args⟩ => some (x, ⟨fmt, args⟩)
  | _ => none

/-- `va_arg` of a pointer. -/
def pointer : FmtCursor → Option (Option CStr × FmtCursor)
  | ⟨fmt, .str s :: args⟩ => some (s, ⟨fmt, args⟩)
  | _ => none

/-- A number in the format, or the next argument; none for neither. -/
def number (k : FmtCursor) : Option (Option Int × FmtCursor) :=
  match k.fmt with
  | [] => some (none, k)
  | c :: s =>
    if (digitOf c).isSome then
      let (i, s) := skipAtoi 0 (c :: s)
      some (some i, ⟨s, k.args⟩)
    else if c = '*' then (word ⟨s, k.args⟩).map fun (x, k) => (some (s32 x), k)
    else some (none, k)

/-- The field width. -/
def fieldWidth (flags : FmtFlags) (k : FmtCursor) : Option (Int × FmtFlags × FmtCursor) :=
  match k.number with
  | none => none
  | some (none, k) => some (-1, flags, k)
  | some (some w, k) =>
    if w < 0 then some (-w, { flags with left := true }, k) else some (w, flags, k)

/-- The precision. -/
def precision (k : FmtCursor) : Option (Int × FmtCursor) :=
  match k.fmt with
  | '.' :: s => (number ⟨s, k.args⟩).map fun (p, k) => (max (p.getD (-1)) 0, k)
  | _ => some (-1, k)

/-- `integerType`. -/
def integerType (k : FmtCursor) : Nat × FmtCursor :=
  match k.fmt with
  | 'l' :: 'l' :: s => (1, ⟨s, k.args⟩)
  | 'l' :: s => (0, ⟨s, k.args⟩)
  | 'h' :: 'h' :: s => (3, ⟨s, k.args⟩)
  | 'h' :: s => (2, ⟨s, k.args⟩)
  | _ => (0, k)

/-- The number of an integer format. -/
def integer (flags : FmtFlags) (integerType : Nat) (k : FmtCursor) : Option (UInt64 × FmtCursor) :=
  if integerType = 1 then k.dword
  else k.word.map fun (x, k) =>
    if flags.sign then
      (if integerType = 2 then ⟨(x.toBitVec.setWidth 16).signExtend 64⟩
        else if integerType = 3 then ⟨(x.toBitVec.setWidth 8).signExtend 64⟩
        else ⟨x.toBitVec.signExtend 64⟩, k)
    else
      (if integerType = 2 then ⟨(x.toBitVec.setWidth 16).setWidth 64⟩
        else if integerType = 3 then ⟨(x.toBitVec.setWidth 8).setWidth 64⟩
        else ⟨x.toBitVec.setWidth 64⟩, k)

/-- A character or a string in its field. -/
def field (flags : FmtFlags) (fieldWidth : Int) (s : CStr) : CStr :=
  let (before, size) := if !flags.left then countDown (fieldWidth - s.length) ' ' else ([], fieldWidth - s.length)
  before ++ s ++ (countDown size ' ').1

/-- What is printed at a conversion, and where the format goes on. -/
def conversion (flags : FmtFlags) (fieldWidth precision : Int) (integerType : Nat) (k : FmtCursor) : Option (CStr × FmtCursor) :=
  match k.fmt with
  | [] => some (['%'], k)
  | c :: s =>
    let k : FmtCursor := ⟨s, k.args⟩
    let number (flags : FmtFlags) (isHex : Bool) : Option (CStr × FmtCursor) :=
      (k.integer flags integerType).map fun (num, k) => (processNumber num isHex fieldWidth precision flags, k)
    if c = 'c' then k.word.map fun (x, k) => (field flags fieldWidth [Char.ofNat (x.toNat % 2 ^ 8)], k)
    else if c = 's' then
      k.pointer.map fun (s, k) =>
        let s := s.getD "<NULL>".toList
        (field flags fieldWidth (if precision ≠ -1 then s.take precision.toNat else s), k)
    else if c = 'p' then
      k.word.map fun (x, k) =>
        (processNumber ⟨x.toBitVec.setWidth 64⟩ true (if fieldWidth = -1 then 8 else fieldWidth) precision
          (if fieldWidth = -1 then { flags with zeropad := true } else flags), k)
    else if c = 'X' then number { flags with uppercase := true } true
    else if c = 'x' then number flags true
    else if c = 'd' ∨ c = 'i' then number { flags with sign := true } false
    else if c = 'u' then number flags false
    else some (if c ≠ '%' then ['%', c] else [c], k)

/-- What is printed from behind a `%` on, and where the format goes on. -/
def directive (k : FmtCursor) : Option (CStr × FmtCursor) := do
  let (flags, fmt) := fmtFlagsOf .none k.fmt
  let (fieldWidth, flags, k) ← FmtCursor.fieldWidth flags ⟨fmt, k.args⟩
  let (precision, k) ← k.precision
  let (integerType, k) := k.integerType
  k.conversion flags fieldWidth precision integerType

end FmtCursor

/-- The loop of `vsprintf`, for as many turns; its end for a format that is over. -/
def vsprintfLoop : Nat → FmtCursor → Option CStr
  | 0, _ => none
  | _ + 1, ⟨[], _⟩ => some []
  | n + 1, ⟨c :: fmt, args⟩ =>
    if c ≠ '%' then (vsprintfLoop n ⟨fmt, args⟩).map (c :: ·)
    else
      match FmtCursor.directive ⟨fmt, args⟩ with
      | none => none
      | some (out, k) => (vsprintfLoop n k).map (out ++ ·)

/-- `vsprintf` and `sprintf`: the text in front of the terminator; none if an argument is missing or of another
type. -/
def vsprintf (fmt : CStr) (args : List FmtArg) : Option CStr := vsprintfLoop (fmt.length + 1) ⟨fmt, args⟩

/-! ## The directives of C -/

inductive FmtFlag
  | minus
  | plus
  | space
  | alternate
  | zero
  deriving DecidableEq

def FmtFlag.char : FmtFlag → Char
  | minus => '-'
  | plus => '+'
  | space => ' '
  | alternate => '#'
  | zero => '0'

/-- A field width or a precision: written down, or an argument. -/
inductive FmtNumber
  | digits (n : Nat)
  | star (x : UInt32)

inductive FmtLength
  | none
  | l
  | ll
  | h
  | hh
  deriving DecidableEq

def FmtLength.text : FmtLength → CStr
  | none => []
  | l => ['l']
  | ll => ['l', 'l']
  | h => ['h']
  | hh => ['h', 'h']

/-- `integerType` of a directive. -/
def FmtLength.integerType : FmtLength → Nat
  | ll => 1
  | h => 2
  | hh => 3
  | _ => 0

inductive FmtConversion
  | c
  | s
  | p
  | d
  | i
  | u
  | x
  | upperX
  deriving DecidableEq

def FmtConversion.char : FmtConversion → Char
  | c => 'c'
  | s => 's'
  | p => 'p'
  | d => 'd'
  | i => 'i'
  | u => 'u'
  | x => 'x'
  | upperX => 'X'

/-- A directive. A precision can be a lone period. -/
structure FmtDirective where
  flags : List FmtFlag
  width : Option FmtNumber
  precision : Option (Option FmtNumber)
  length : FmtLength
  conversion : FmtConversion

namespace FmtNumber

def text : FmtNumber → CStr
  | digits n => numberText 10 n
  | star _ => ['*']

def args : FmtNumber → List FmtArg
  | digits _ => []
  | star x => [.word x]

def value : FmtNumber → Int
  | digits n => n
  | star x => s32 x

end FmtNumber

/-- A text in a field. -/
def justified (left : Bool) (width : Option Nat) (s : CStr) : CStr :=
  let spaces := List.replicate (width.getD 0 - s.length) ' '
  if left then s ++ spaces else spaces ++ s

/-- A number in a field, with what stands in front of its digits. -/
def paddedNumber (left zero : Bool) (width precision : Option Nat) (lead digits : CStr) : CStr :=
  let digits := List.replicate (precision.getD 0 - digits.length) '0' ++ digits
  if zero ∧ ¬left ∧ precision = none then lead ++ List.replicate (width.getD 0 - (lead ++ digits).length) '0' ++ digits
  else justified left width (lead ++ digits)

/-- The digits of a number: none of zero with a precision of zero. -/
def digitText (base : Nat) (upper : Bool) (precision : Option Nat) (n : Nat) : CStr :=
  if n = 0 ∧ precision = some 0 then []
  else if upper then (numberText base n).map Char.toUpper else numberText base n

/-- The value of an argument that is printed with its sign. -/
def FmtLength.signedValue : FmtLength → FmtArg → Option Int
  | hh, .word x => some ((x.toNat : Int).bmod (2 ^ 8))
  | h, .word x => some ((x.toNat : Int).bmod (2 ^ 16))
  | none, .word x => some ((x.toNat : Int).bmod (2 ^ 32))
  | l, .word x => some ((x.toNat : Int).bmod (2 ^ 32))
  | ll, .dword x => some ((x.toNat : Int).bmod (2 ^ 64))
  | _, _ => .none

def FmtLength.unsignedValue : FmtLength → FmtArg → Option Nat
  | hh, .word x => some (x.toNat % 2 ^ 8)
  | h, .word x => some (x.toNat % 2 ^ 16)
  | none, .word x => some x.toNat
  | l, .word x => some x.toNat
  | ll, .dword x => some x.toNat
  | _, _ => .none

namespace FmtDirective

variable (dir : FmtDirective)

/-- The directive in a format. -/
def text : CStr :=
  ['%'] ++ dir.flags.map FmtFlag.char ++ (dir.width.map FmtNumber.text).getD [] ++
    (dir.precision.map fun p => '.' :: (p.map FmtNumber.text).getD []).getD [] ++ dir.length.text ++ [dir.conversion.char]

/-- Its arguments in front of the one that is printed. -/
def numberArgs : List FmtArg :=
  (dir.width.map FmtNumber.args).getD [] ++ (dir.precision.map fun p => (p.map FmtNumber.args).getD []).getD []

/-- A negative width is one with the flag `-`. -/
def leftJustified : Bool := .minus ∈ dir.flags ∨ ∃ w ∈ dir.width, w.value < 0

def fieldWidth : Option Nat := dir.width.map fun w => w.value.natAbs

/-- A negative precision is none. -/
def digits : Option Nat :=
  match dir.precision with
  | none => none
  | some none => some 0
  | some (some p) => if p.value < 0 then none else some p.value.toNat

/-- The sign of a number. -/
def signText (v : Int) : CStr :=
  if v < 0 then ['-'] else if .plus ∈ dir.flags then ['+'] else if .space ∈ dir.flags then [' '] else []

/-- What is in front of a hexadecimal number. -/
def hexText (upper : Bool) (n : Nat) : CStr :=
  if .alternate ∈ dir.flags ∧ n ≠ 0 then ['0', if upper then 'X' else 'x'] else []

def signedText (v : Int) : CStr :=
  paddedNumber dir.leftJustified (.zero ∈ dir.flags) dir.fieldWidth dir.digits (dir.signText v)
    (digitText 10 false dir.digits v.natAbs)

def unsignedText (n : Nat) : CStr :=
  paddedNumber dir.leftJustified (.zero ∈ dir.flags) dir.fieldWidth dir.digits [] (digitText 10 false dir.digits n)

def hexadecimalText (upper : Bool) (n : Nat) : CStr :=
  paddedNumber dir.leftJustified (.zero ∈ dir.flags) dir.fieldWidth dir.digits (dir.hexText upper n) (digitText 16 upper dir.digits n)

/-- A pointer: eight digits, if it has no width. -/
def pointerText (n : Nat) : CStr :=
  paddedNumber dir.leftJustified (.zero ∈ dir.flags ∨ dir.width.isNone) (some (dir.fieldWidth.getD 8)) dir.digits
    (dir.hexText false n) (digitText 16 false dir.digits n)

/-- What is to be printed for an argument; none for one of another type. -/
def output (arg : FmtArg) : Option CStr :=
  match dir.conversion, arg with
  | .c, .word x => some (justified dir.leftJustified dir.fieldWidth [Char.ofNat (x.toNat % 2 ^ 8)])
  | .s, .str s =>
    let s := s.getD "<NULL>".toList
    some (justified dir.leftJustified dir.fieldWidth (s.take (dir.digits.getD s.length)))
  | .p, .word x => some (dir.pointerText x.toNat)
  | .d, arg => (dir.length.signedValue arg).map dir.signedText
  | .i, arg => (dir.length.signedValue arg).map dir.signedText
  | .u, arg => (dir.length.unsignedValue arg).map dir.unsignedText
  | .x, arg => (dir.length.unsignedValue arg).map (dir.hexadecimalText false)
  | .upperX, arg => (dir.length.unsignedValue arg).map (dir.hexadecimalText true)
  | _, _ => none

/-- The directives that are printed as C has it: the alternate form of `X` begins with `0x`, and a negative precision counts as
zero. Widths and precisions are far from the bounds of an `s32`. -/
structure Plain : Prop where
  upper : dir.conversion = .upperX → .alternate ∉ dir.flags
  width : ∀ w ∈ dir.width, w ≠ .digits 0 ∧ w.value.natAbs < 2 ^ 30
  precision : ∀ p, dir.precision = some (some p) → 0 ≤ p.value ∧ p.value < 2 ^ 30

end FmtDirective

/-- What a format is made of. -/
inductive FmtPiece
  | char (c : Char)
  | percent
  | directive (dir : FmtDirective) (arg : FmtArg)

namespace FmtPiece

def text : FmtPiece → CStr
  | char c => [c]
  | percent => ['%', '%']
  | directive dir _ => dir.text

def args : FmtPiece → List FmtArg
  | directive dir arg => dir.numberArgs ++ [arg]
  | _ => []

def output : FmtPiece → Option CStr
  | char c => if c = '%' then none else some [c]
  | percent => some ['%']
  | directive dir arg => dir.output arg

def Plain : FmtPiece → Prop
  | directive dir _ => dir.Plain
  | _ => True

end FmtPiece

/-! ## Fields -/

theorem countDown_nonpos {size : Int} (h : size ≤ 0) (c : Char) : (countDown size c).1 = [] := by
  unfold countDown
  rw [Int.toNat_of_nonpos h]
  rfl

theorem countDown_again (size : Int) (c d : Char) : (countDown (countDown size c).2 d).1 = [] :=
  countDown_nonpos (by simp only [countDown]; omega) d

/-- The size of a field; without a width it is -1. -/
def fieldSize (width : Option Nat) : Int := (width.map Int.ofNat).getD (-1)

theorem toNat_fieldSize (width : Option Nat) (n : Nat) : (fieldSize width - n).toNat = width.getD 0 - n := by
  cases width with
  | none => simp only [fieldSize, Option.map_none, Option.getD_none]; omega
  | some w => simp only [fieldSize, Option.map_some, Option.getD_some, Int.ofNat_eq_natCast]; omega

theorem take_fieldSize (precision : Option Nat) (s : CStr) :
    (if fieldSize precision = -1 then s else s.take (fieldSize precision).toNat) = s.take (precision.getD s.length) := by
  cases precision <;> simp [fieldSize]

theorem field_eq (flags : FmtFlags) (width : Option Nat) (s : CStr) :
    FmtCursor.field flags (fieldSize width) s = justified flags.left width s := by
  have hspaces : (countDown (fieldSize width - s.length) ' ').1 = List.replicate (width.getD 0 - s.length) ' ' := by
    simp only [countDown, toNat_fieldSize]
  unfold FmtCursor.field justified
  cases flags.left with
  | true => simp [hspaces]
  | false => simp [hspaces, countDown_again]

theorem processNumber_padded (num : UInt64) (isHex : Bool) (width precision : Option Nat) (type : FmtFlags) :
    processNumber num isHex (fieldSize width) (fieldSize precision) type =
      paddedNumber type.left type.zeropad width precision
        ((fmtSign num type).2 ++ if (fmtSign num type).1 ≠ 0 ∧ type.hexPrep ∧ isHex then ['0', 'x'] else [])
        (fmtDigits (fmtSign num type).1 isHex (fieldSize precision) type.uppercase).reverse := by
  unfold processNumber
  obtain ⟨num', sign⟩ := fmtSign num type
  dsimp only
  generalize fmtDigits num' isHex (fieldSize precision) type.uppercase = tmp
  have hhex : ((if num' = 0 then false else type.hexPrep) = true ∧ isHex = true) ↔
      (num' ≠ 0 ∧ type.hexPrep = true ∧ isHex = true) := by
    split_ifs with h <;> simp [h]
  have hzero : (if type.left = true ∨ fieldSize precision ≠ -1 then false else type.zeropad) =
      (type.zeropad && !type.left && decide (precision = none)) := by
    cases precision <;> cases type.left <;> simp [fieldSize]
  have hlonger : (if (tmp.length : Int) > fieldSize precision then (tmp.length : Int) else fieldSize precision) =
      (precision.getD 0 - tmp.length + tmp.length : Nat) := by
    cases precision with
    | none => simp only [fieldSize, Option.map_none, Option.getD_none]; split_ifs <;> omega
    | some p => simp only [fieldSize, Option.map_some, Option.getD_some, Int.ofNat_eq_natCast]; split_ifs <;> omega
  have hsize : (if num' ≠ 0 ∧ type.hexPrep = true ∧ isHex = true then fieldSize width - sign.length - 2
      else fieldSize width - sign.length) =
      fieldSize width - (sign ++ if num' ≠ 0 ∧ type.hexPrep = true ∧ isHex = true then ['0', 'x'] else []).length := by
    split_ifs
    · rw [List.length_append, show List.length ['0', 'x'] = 2 from rfl]
      omega
    · rw [List.append_nil]
  have hzeros : (countDown ((precision.getD 0 - tmp.length + tmp.length : Nat) - (tmp.length : Int)) '0').1 =
      List.replicate (precision.getD 0 - tmp.length) '0' := by
    have hdiff : ((precision.getD 0 - tmp.length + tmp.length : Nat) - (tmp.length : Int)).toNat =
        precision.getD 0 - tmp.length := by omega
    simp only [countDown, hdiff]
  simp only [hhex, hzero, hsize, hlonger, hzeros]
  generalize (if num' ≠ 0 ∧ type.hexPrep = true ∧ isHex = true then ['0', 'x'] else []) = hex
  have hlength : fieldSize width - ((sign ++ hex).length : Int) - ((precision.getD 0 - tmp.length + tmp.length : Nat) : Int) =
      fieldSize width - ((sign ++ hex ++ (List.replicate (precision.getD 0 - tmp.length) '0' ++ tmp.reverse)).length : Nat) := by
    simp only [List.length_append, List.length_replicate, List.length_reverse]
    omega
  have hcount (c : Char) : (countDown (fieldSize width -
      ((sign ++ hex ++ (List.replicate (precision.getD 0 - tmp.length) '0' ++ tmp.reverse)).length : Nat)) c).1 =
        List.replicate (width.getD 0 -
          (sign ++ hex ++ (List.replicate (precision.getD 0 - tmp.length) '0' ++ tmp.reverse)).length) c := by
    simp only [countDown, toNat_fieldSize]
  unfold paddedNumber justified
  simp only [hlength, List.length_reverse]
  generalize (sign ++ hex ++ (List.replicate (precision.getD 0 - tmp.length) '0' ++ tmp.reverse)).length = n at hcount ⊢
  cases hleft : type.left with
  | true => simp [hcount]
  | false =>
    by_cases hfill : type.zeropad = true ∧ precision = none
    · simp [hfill, hcount, countDown_again]
    · have hno : (type.zeropad && decide (precision = none)) = false := by simpa using hfill
      simp [hno, hfill, hcount, countDown_again]

/-- The digits of a number, as the code has them. -/
theorem reverse_fmtDigits (num : UInt64) (isHex : Bool) (precision : Option Nat) (upper : Bool) (h : upper = true → isHex = true) :
    (fmtDigits num isHex (fieldSize precision) upper).reverse = digitText (if isHex then 16 else 10) upper precision num.toNat := by
  have hnum : num.toNat = 0 ↔ num = 0 := by
    rw [← UInt64.toNat_inj]
    rfl
  have hprecision : fieldSize precision = 0 ↔ precision = some 0 := by
    cases precision <;> simp [fieldSize]
  have hdigit : ∀ d < 16, upperDigitChar d = (digitChar d).toUpper := by decide
  have hupper0 : '0'.toUpper = '0' := by decide
  unfold fmtDigits digitText numberText
  simp only [hnum, hprecision, ne_eq]
  by_cases hzero : num = 0
  · simp only [hzero]
    cases upper <;> by_cases hp : precision = some 0 <;> simp [hp, hupper0]
  · simp only [hzero, if_false, false_and]
    cases hupper : upper with
    | false => simp
    | true =>
      rw [h hupper]
      simp only [if_true]
      rw [← List.map_reverse, ← List.map_reverse, List.map_map]
      refine List.map_congr_left fun d hd => hdigit d ?_
      exact Nat.digits_lt_base (by norm_num) (List.mem_reverse.mp hd)

/-! ## Reading a directive -/

theorem numberText_pos {n : Nat} (h : n ≠ 0) : ∃ d s, d < 10 ∧ 0 < d ∧ numberText 10 n = digitChar d :: s := by
  have hne : Nat.digits 10 n ≠ [] := Nat.digits_ne_nil_iff_ne_zero.mpr h
  refine ⟨(Nat.digits 10 n).getLast hne, ((Nat.digits 10 n).dropLast.map digitChar).reverse,
    Nat.digits_lt_base (by norm_num) (List.getLast_mem hne), Nat.pos_of_ne_zero (Nat.getLast_digit_ne_zero 10 h), ?_⟩
  unfold numberText
  rw [if_neg h]
  conv_lhs => rw [← List.dropLast_append_getLast hne]
  rw [List.map_append, List.reverse_append]
  rfl

/-- A text that does not begin with a flag. -/
def NoFlag (s : CStr) : Prop := ∀ flags, fmtFlagsOf flags s = (flags, s)

/-- A text that does not begin with a number. -/
def NoNumber (s : CStr) : Prop := ∀ c ∈ s.head?, digitOf c = none ∧ c ≠ '*'

def FmtFlags.set (flags : FmtFlags) : FmtFlag → FmtFlags
  | .minus => { flags with left := true }
  | .plus => { flags with plus := true }
  | .space => { flags with space := true }
  | .alternate => { flags with hexPrep := true }
  | .zero => { flags with zeropad := true }

/-- The flags of a directive. -/
def FmtDirective.flagsRead (dir : FmtDirective) : FmtFlags := dir.flags.foldl FmtFlags.set .none

theorem noFlag_cons {c : Char} (h : c ∉ ['-', '+', ' ', '#', '0']) (s : CStr) : NoFlag (c :: s) := by
  intro flags
  simp only [List.mem_cons, List.not_mem_nil, or_false, not_or] at h
  obtain ⟨hminus, hplus, hspace, halternate, hzero⟩ := h
  simp [fmtFlagsOf, hminus, hplus, hspace, halternate, hzero]

theorem noNumber_cons {c : Char} (h : digitOf c = none ∧ c ≠ '*') (s : CStr) : NoNumber (c :: s) := by
  intro c' hc'
  obtain rfl := Option.some.inj hc'
  exact h

theorem fmtFlagsOf_map {s : CStr} (h : NoFlag s) (fs : List FmtFlag) (flags : FmtFlags) :
    fmtFlagsOf flags (fs.map FmtFlag.char ++ s) = (fs.foldl FmtFlags.set flags, s) := by
  induction fs generalizing flags with
  | nil => exact h flags
  | cons f fs ih =>
    rw [List.map_cons, List.cons_append, List.foldl_cons, ← ih]
    cases f <;> simp [fmtFlagsOf, FmtFlag.char, FmtFlags.set]

theorem foldl_set (fs : List FmtFlag) (flags : FmtFlags) : fs.foldl FmtFlags.set flags =
    ⟨flags.zeropad || decide (.zero ∈ fs), flags.sign, flags.plus || decide (.plus ∈ fs), flags.space || decide (.space ∈ fs),
      flags.left || decide (.minus ∈ fs), flags.hexPrep || decide (.alternate ∈ fs), flags.uppercase⟩ := by
  induction fs generalizing flags with
  | nil => simp
  | cons f fs ih =>
    rw [List.foldl_cons, ih]
    cases f <;> simp [FmtFlags.set]

theorem flagsRead_eq (dir : FmtDirective) : dir.flagsRead =
    ⟨decide (.zero ∈ dir.flags), false, decide (.plus ∈ dir.flags), decide (.space ∈ dir.flags), decide (.minus ∈ dir.flags),
      decide (.alternate ∈ dir.flags), false⟩ := by
  unfold FmtDirective.flagsRead
  rw [foldl_set]
  simp [FmtFlags.none]

theorem skipAtoi_digits {s : CStr} (h : NoNumber s) (ds : List Nat) : ∀ {i : Nat}, (∀ d ∈ ds, d < 10) →
    skipAtoi i (ds.map digitChar ++ s) = (((i * 10 ^ ds.length + digitsValue ds : Nat) : Int), s) := by
  induction ds with
  | nil =>
    intro i _
    have hvalue : i * 10 ^ ([] : List Nat).length + digitsValue [] = i := by simp [digitsValue]
    rw [hvalue]
    cases s with
    | nil => rfl
    | cons c s =>
      rw [List.map_nil, List.nil_append, skipAtoi, (h c rfl).1]
  | cons d ds ih =>
    intro i hdigits
    have hsum : (i * 10 + d) * 10 ^ ds.length + digitsValue ds = i * 10 ^ (d :: ds).length + digitsValue (d :: ds) := by
      rw [digitsValue_cons, List.length_cons, pow_succ]
      ring
    have hrest := @ih (i * 10 + d) fun d' hd' => hdigits d' (List.mem_cons_of_mem _ hd')
    rw [hsum] at hrest
    rw [List.map_cons, List.cons_append, skipAtoi, digitOf_digitChar (hdigits d List.mem_cons_self)]
    exact_mod_cast hrest

theorem skipAtoi_numberText {s : CStr} (h : NoNumber s) (n : Nat) : skipAtoi 0 (numberText 10 n ++ s) = ((n : Int), s) := by
  have hread := skipAtoi_digits h (printedDigits n) (@fun _ => printedDigits_lt) (i := 0)
  rw [digitsValue_printedDigits] at hread
  rw [numberText_eq]
  simpa using hread

theorem FmtNumber.number_text (w : FmtNumber) {s : CStr} (h : NoNumber s) (args : List FmtArg) :
    FmtCursor.number ⟨w.text ++ s, w.args ++ args⟩ = some (some w.value, ⟨s, args⟩) := by
  cases w with
  | digits n =>
    obtain ⟨d, t, hd, htext⟩ := numberText_cons n
    have hskip := skipAtoi_numberText h n
    rw [htext, List.cons_append] at hskip
    rw [show text (digits n) = digitChar d :: t from htext, List.cons_append]
    simp [FmtCursor.number, digitOf_digitChar hd, hskip, FmtNumber.args, value]
  | star x =>
    have hstar : digitOf '*' = none := by decide
    simp [FmtCursor.number, text, hstar, value, FmtCursor.word, FmtNumber.args]

theorem number_absent {s : CStr} (h : NoNumber s) (args : List FmtArg) :
    FmtCursor.number ⟨s, args⟩ = some (none, ⟨s, args⟩) := by
  unfold FmtCursor.number
  cases s with
  | nil => rfl
  | cons c s =>
    obtain ⟨hdigit, hstar⟩ := h c rfl
    simp [hdigit, hstar]

/-! ## A directive -/

namespace FmtDirective

variable (dir : FmtDirective) (arg : FmtArg)

/-- The parts of a directive, each in front of what follows it. -/
def behindPrecision (rest : CStr) : CStr := dir.length.text ++ dir.conversion.char :: rest

def behindWidth (rest : CStr) : CStr :=
  (dir.precision.map fun p => '.' :: (p.map FmtNumber.text).getD []).getD [] ++ dir.behindPrecision rest

def behindFlags (rest : CStr) : CStr := (dir.width.map FmtNumber.text).getD [] ++ dir.behindWidth rest

theorem text_append (rest : CStr) : dir.text ++ rest = '%' :: (dir.flags.map FmtFlag.char ++ dir.behindFlags rest) := by
  simp [text, behindFlags, behindWidth, behindPrecision]

variable {dir} (rest : CStr) (args : List FmtArg)

theorem noNumber_behindPrecision : NoNumber (dir.behindPrecision rest) := by
  unfold behindPrecision
  cases dir.length <;> cases dir.conversion <;> exact noNumber_cons (by decide) _

theorem noNumber_behindWidth : NoNumber (dir.behindWidth rest) := by
  unfold behindWidth
  cases dir.precision with
  | none => exact noNumber_behindPrecision rest
  | some p => exact noNumber_cons (by decide) _

theorem noFlag_behindWidth : NoFlag (dir.behindWidth rest) := by
  unfold behindWidth behindPrecision
  cases dir.precision with
  | none => cases dir.length <;> cases dir.conversion <;> exact noFlag_cons (by decide) _
  | some p => exact noFlag_cons (by decide) _

theorem noFlag_behindFlags (hplain : dir.Plain) : NoFlag (dir.behindFlags rest) := by
  unfold behindFlags
  cases hwidth : dir.width with
  | none => exact noFlag_behindWidth rest
  | some w =>
    cases w with
    | star x => exact noFlag_cons (by decide) _
    | digits n =>
      have hn : n ≠ 0 := by
        rintro rfl
        exact (hplain.width _ hwidth).1 rfl
      obtain ⟨d, s, hd, hpos, htext⟩ := numberText_pos hn
      have hdigit : ∀ d < 10, 0 < d → digitChar d ∉ ['-', '+', ' ', '#', '0'] := by decide
      show NoFlag (numberText 10 n ++ dir.behindWidth rest)
      rw [htext]
      exact noFlag_cons (hdigit d hd hpos) _

/-- The flags, once the width is known. -/
def flagsUsed (dir : FmtDirective) : FmtFlags := { dir.flagsRead with left := dir.leftJustified }

theorem fieldWidth_text : FmtCursor.fieldWidth dir.flagsRead ⟨dir.behindFlags rest, (dir.width.map FmtNumber.args).getD [] ++ args⟩ =
    some (fieldSize dir.fieldWidth, dir.flagsUsed, ⟨dir.behindWidth rest, args⟩) := by
  have hread := flagsRead_eq dir
  unfold FmtCursor.fieldWidth behindFlags flagsUsed fieldWidth leftJustified
  cases hwidth : dir.width with
  | none => simp [number_absent (noNumber_behindWidth rest), fieldSize, hread]
  | some w =>
    simp only [Option.map_some, Option.getD_some, w.number_text (noNumber_behindWidth rest), Option.mem_def,
      Option.some.injEq, exists_eq_left']
    by_cases hneg : w.value < 0
    · have habs : ((w.value.natAbs : Nat) : Int) = -w.value := by omega
      simp [hneg, fieldSize, habs]
    · have habs : ((w.value.natAbs : Nat) : Int) = w.value := by omega
      simp [hneg, fieldSize, habs, hread]

theorem precision_text (hplain : dir.Plain) : FmtCursor.precision ⟨dir.behindWidth rest,
    (dir.precision.map fun p => (p.map FmtNumber.args).getD []).getD [] ++ args⟩ =
      some (fieldSize dir.digits, ⟨dir.behindPrecision rest, args⟩) := by
  have hnumber := @noNumber_behindPrecision dir rest
  unfold FmtCursor.precision behindWidth digits
  cases hprecision : dir.precision with
  | none =>
    unfold behindPrecision
    cases dir.length <;> cases dir.conversion <;> rfl
  | some p =>
    cases p with
    | none => simp [number_absent hnumber, fieldSize]
    | some p =>
      have hpos := (hplain.precision p hprecision).1
      simp [p.number_text hnumber, fieldSize, not_lt.mpr hpos]

/-- The length of a directive and its conversion. -/
theorem integerType_text : FmtCursor.integerType ⟨dir.behindPrecision rest, args⟩ =
    (dir.length.integerType, ⟨dir.conversion.char :: rest, args⟩) := by
  unfold behindPrecision
  cases dir.length <;> cases dir.conversion <;> rfl

/-- A number that is printed with its sign. -/
theorem integer_signed {flags : FmtFlags} (hsign : flags.sign = true) : FmtCursor.integer flags
    dir.length.integerType ⟨rest, arg :: args⟩ =
      (dir.length.signedValue arg).map fun v => (⟨BitVec.ofInt 64 v⟩, ⟨rest, args⟩) := by
  have hextend : ∀ {w : Nat} (b : BitVec w), b.signExtend 64 = BitVec.ofInt 64 b.toInt := fun b => rfl
  have hsame : ∀ x : UInt64, x = ⟨BitVec.ofInt 64 ((x.toNat : Int).bmod (2 ^ 64))⟩ := by
    intro x
    rw [← UInt64.toNat_toBitVec, ← BitVec.toInt_eq_toNat_bmod, BitVec.ofInt_toInt]
  have hlow : ∀ (x : UInt32) (n : Nat), ((x.toNat : Int) % n).bmod n = (x.toNat : Int).bmod n := fun _ _ => Int.emod_bmod _ _
  unfold FmtCursor.integer FmtLength.signedValue FmtLength.integerType
  cases dir.length with
  | ll =>
    cases arg with
    | dword x => simpa [FmtCursor.dword] using hsame x
    | _ => rfl
  | h =>
    cases arg with
    | word x => simpa [hsign, FmtCursor.word, hextend, BitVec.toInt_eq_toNat_bmod] using congrArg (BitVec.ofInt 64) (hlow x 65536)
    | _ => rfl
  | hh =>
    cases arg with
    | word x => simpa [hsign, FmtCursor.word, hextend, BitVec.toInt_eq_toNat_bmod] using congrArg (BitVec.ofInt 64) (hlow x 256)
    | _ => rfl
  | _ => cases arg <;> simp [hsign, FmtCursor.word, hextend, BitVec.toInt_eq_toNat_bmod]

theorem integer_unsigned {flags : FmtFlags} (hsign : flags.sign = false) : FmtCursor.integer flags
    dir.length.integerType ⟨rest, arg :: args⟩ =
      (dir.length.unsignedValue arg).map fun n => (UInt64.ofNat n, ⟨rest, args⟩) := by
  unfold FmtCursor.integer FmtLength.unsignedValue FmtLength.integerType
  cases dir.length <;> cases arg <;>
    simp [hsign, FmtCursor.word, FmtCursor.dword, ← UInt64.toNat_inj]

/-- The values of arguments are in the bounds of an `s64` or a `u64`. -/
theorem signedValue_bounds {length : FmtLength} {v : Int} (h : length.signedValue arg = some v) :
    -2 ^ 63 ≤ v ∧ v < 2 ^ 63 := by
  have hbounds : ∀ (x : Int) (n : Nat), 0 < n → n ≤ 2 ^ 64 → -2 ^ 63 ≤ x.bmod n ∧ x.bmod n < 2 ^ 63 := by
    intro x n hpos hle
    have hlow := Int.le_bmod (x := x) hpos
    have hhigh := Int.bmod_lt (x := x) hpos
    omega
  unfold FmtLength.signedValue at h
  split at h
  case h_6 => cases h
  all_goals
    obtain rfl := Option.some.inj h
    exact hbounds _ _ (by norm_num) (by norm_num)

theorem unsignedValue_lt {length : FmtLength} {n : Nat} (h : length.unsignedValue arg = some n) : n < 2 ^ 64 := by
  unfold FmtLength.unsignedValue at h
  split at h
  case h_6 => cases h
  all_goals
    rename_i x
    obtain rfl := Option.some.inj h
    have hlt := x.toNat_lt
    omega

theorem fmtSign_signed {v : Int} (hlow : -2 ^ 63 ≤ v) (hhigh : v < 2 ^ 63) :
    fmtSign ⟨BitVec.ofInt 64 v⟩ { dir.flagsUsed with sign := true } = (UInt64.ofNat v.natAbs, dir.signText v) := by
  have hint : (BitVec.ofInt 64 v).toInt = v := by
    rw [BitVec.toInt_ofInt]
    exact wrap64_eq hlow hhigh
  have hneg : v < 0 → -(⟨BitVec.ofInt 64 v⟩ : UInt64) = UInt64.ofNat v.natAbs := by
    intro h
    have habs : -v = (v.natAbs : Int) := by omega
    show (⟨-BitVec.ofInt 64 v⟩ : UInt64) = ⟨BitVec.ofNat 64 v.natAbs⟩
    rw [← BitVec.ofInt_neg, habs, BitVec.ofInt_natCast]
  have hpos : ¬v < 0 → (⟨BitVec.ofInt 64 v⟩ : UInt64) = UInt64.ofNat v.natAbs := by
    intro h
    have habs : v = (v.natAbs : Int) := by omega
    show (⟨BitVec.ofInt 64 v⟩ : UInt64) = ⟨BitVec.ofNat 64 v.natAbs⟩
    rw [← BitVec.ofInt_natCast, ← habs]
  unfold fmtSign signText flagsUsed
  rw [flagsRead_eq]
  simp only [hint, if_true]
  by_cases hv : v < 0
  · simp only [hv, if_true, hneg hv]
  · simp only [hv, if_false, hpos hv, decide_eq_true_eq]
    split_ifs <;> rfl

theorem signedText_eq {v : Int} (hlow : -2 ^ 63 ≤ v) (hhigh : v < 2 ^ 63) :
    processNumber ⟨BitVec.ofInt 64 v⟩ false (fieldSize dir.fieldWidth) (fieldSize dir.digits)
      { dir.flagsUsed with sign := true } = dir.signedText v := by
  have habs : (UInt64.ofNat v.natAbs).toNat = v.natAbs := by
    rw [UInt64.toNat_ofNat', Nat.mod_eq_of_lt (by omega)]
  rw [processNumber_padded, fmtSign_signed hlow hhigh, reverse_fmtDigits _ _ _ _ (by simp [flagsUsed, flagsRead_eq]), habs]
  unfold signedText
  simp [flagsUsed, flagsRead_eq]

theorem processNumber_unsigned {n : Nat} (hn : n < 2 ^ 64) (isHex : Bool) (width precision : Option Nat) {type : FmtFlags}
    (hsign : type.sign = false) (hupper : type.uppercase = true → isHex = true) :
    processNumber (UInt64.ofNat n) isHex (fieldSize width) (fieldSize precision) type =
      paddedNumber type.left type.zeropad width precision (if type.hexPrep ∧ n ≠ 0 ∧ isHex then ['0', 'x'] else [])
        (digitText (if isHex then 16 else 10) type.uppercase precision n) := by
  have hvalue : (UInt64.ofNat n).toNat = n := by
    rw [UInt64.toNat_ofNat', Nat.mod_eq_of_lt hn]
  have hzero : UInt64.ofNat n ≠ 0 ↔ n ≠ 0 := by
    rw [ne_eq, ← UInt64.toNat_inj, hvalue]
    rfl
  have hnone : fmtSign (UInt64.ofNat n) type = (UInt64.ofNat n, []) := by
    unfold fmtSign
    rw [hsign]
    rfl
  rw [processNumber_padded, hnone, reverse_fmtDigits _ _ _ _ hupper]
  simp only [hvalue, hzero, List.nil_append, and_left_comm]

theorem flagsUsed_sign : dir.flagsUsed.sign = false := by
  simp [flagsUsed, flagsRead_eq]

theorem flagsUsed_zeropad : dir.flagsUsed.zeropad = decide (.zero ∈ dir.flags) := by
  simp [flagsUsed, flagsRead_eq]

theorem flagsUsed_hexPrep : dir.flagsUsed.hexPrep = decide (.alternate ∈ dir.flags) := by
  simp [flagsUsed, flagsRead_eq]

theorem flagsUsed_uppercase : dir.flagsUsed.uppercase = false := by
  simp [flagsUsed, flagsRead_eq]

theorem flagsUsed_left : dir.flagsUsed.left = dir.leftJustified := rfl

theorem unsignedText_eq {n : Nat} (hn : n < 2 ^ 64) :
    processNumber (UInt64.ofNat n) false (fieldSize dir.fieldWidth) (fieldSize dir.digits) dir.flagsUsed = dir.unsignedText n := by
  rw [processNumber_unsigned hn _ _ _ flagsUsed_sign (by simp [flagsUsed_uppercase]), flagsUsed_zeropad, flagsUsed_uppercase,
    flagsUsed_left]
  unfold unsignedText
  simp

theorem hexadecimalText_eq {n : Nat} (hn : n < 2 ^ 64) {upper : Bool} (hupper : upper = true → .alternate ∉ dir.flags) :
    processNumber (UInt64.ofNat n) true (fieldSize dir.fieldWidth) (fieldSize dir.digits)
      { dir.flagsUsed with uppercase := upper } = dir.hexadecimalText upper n := by
  have hprint := @processNumber_unsigned n hn true dir.fieldWidth dir.digits { dir.flagsUsed with uppercase := upper }
    flagsUsed_sign (fun _ => rfl)
  refine hprint.trans ?_
  unfold hexadecimalText hexText
  cases upper with
  | true => simp [flagsUsed_zeropad, flagsUsed_hexPrep, flagsUsed_left, hupper rfl]
  | false => simp [flagsUsed_zeropad, flagsUsed_hexPrep, flagsUsed_left]

theorem pointerText_eq {n : Nat} (hn : n < 2 ^ 64) :
    processNumber (UInt64.ofNat n) true (if fieldSize dir.fieldWidth = -1 then 8 else fieldSize dir.fieldWidth) (fieldSize dir.digits)
      (if fieldSize dir.fieldWidth = -1 then { dir.flagsUsed with zeropad := true } else dir.flagsUsed) = dir.pointerText n := by
  unfold pointerText hexText
  cases hwidth : dir.width with
  | none =>
    have hnone : dir.fieldWidth = none := by simp [fieldWidth, hwidth]
    have hprint := @processNumber_unsigned n hn true (some 8) dir.digits { dir.flagsUsed with zeropad := true } flagsUsed_sign
      (by simp [flagsUsed_uppercase])
    rw [hnone, show fieldSize none = -1 from rfl, if_pos rfl, if_pos rfl]
    refine hprint.trans ?_
    simp [flagsUsed_hexPrep, flagsUsed_uppercase, flagsUsed_left]
  | some w =>
    have hsome : dir.fieldWidth = some w.value.natAbs := by simp [fieldWidth, hwidth]
    have hne : fieldSize (some w.value.natAbs) ≠ -1 := by
      simp only [fieldSize, Option.map_some, Option.getD_some, Int.ofNat_eq_natCast]
      omega
    rw [hsome, if_neg hne, if_neg hne, processNumber_unsigned hn _ _ _ flagsUsed_sign (by simp [flagsUsed_uppercase])]
    simp [flagsUsed_zeropad, flagsUsed_hexPrep, flagsUsed_uppercase, flagsUsed_left]

theorem number_signed : (FmtCursor.integer { dir.flagsUsed with sign := true } dir.length.integerType ⟨rest, arg :: args⟩).map
    (fun (num, k) => (processNumber num false (fieldSize dir.fieldWidth) (fieldSize dir.digits)
      { dir.flagsUsed with sign := true }, k)) =
      ((dir.length.signedValue arg).map dir.signedText).map fun out => (out, ⟨rest, args⟩) := by
  rw [integer_signed arg rest args rfl]
  cases hvalue : dir.length.signedValue arg with
  | none => rfl
  | some v =>
    obtain ⟨hlow, hhigh⟩ := signedValue_bounds arg hvalue
    simp [signedText_eq hlow hhigh]

theorem number_unsigned {flags : FmtFlags} (hsign : flags.sign = false) {isHex : Bool} {text : Nat → CStr}
    (htext : ∀ n < 2 ^ 64, processNumber (UInt64.ofNat n) isHex (fieldSize dir.fieldWidth) (fieldSize dir.digits) flags = text n) :
    (FmtCursor.integer flags dir.length.integerType ⟨rest, arg :: args⟩).map
      (fun (num, k) => (processNumber num isHex (fieldSize dir.fieldWidth) (fieldSize dir.digits) flags, k)) =
      ((dir.length.unsignedValue arg).map text).map fun out => (out, ⟨rest, args⟩) := by
  rw [integer_unsigned arg rest args hsign]
  cases hvalue : dir.length.unsignedValue arg with
  | none => rfl
  | some n => simp [htext n (unsignedValue_lt arg hvalue)]

/-- What is printed at the conversion of a directive. -/
theorem conversion_text (hplain : dir.Plain) : FmtCursor.conversion dir.flagsUsed (fieldSize dir.fieldWidth) (fieldSize dir.digits)
    dir.length.integerType ⟨dir.conversion.char :: rest, arg :: args⟩ =
      (dir.output arg).map fun out => (out, ⟨rest, args⟩) := by
  unfold output FmtCursor.conversion
  cases hconversion : dir.conversion with
  | c =>
    cases arg with
    | word x => simp [FmtConversion.char, FmtCursor.word, field_eq, flagsUsed_left]
    | _ => simp [FmtConversion.char, FmtCursor.word]
  | s =>
    cases arg with
    | str s => simp [FmtConversion.char, FmtCursor.pointer, field_eq, flagsUsed_left, take_fieldSize]
    | _ => simp [FmtConversion.char, FmtCursor.pointer]
  | p =>
    cases arg with
    | word x =>
      have hsame : (⟨x.toBitVec.setWidth 64⟩ : UInt64) = UInt64.ofNat x.toNat := by
        rw [← UInt64.toNat_inj]
        simp
      have hpointer := @pointerText_eq dir x.toNat (x.toNat_lt.trans (by norm_num))
      rw [← hsame] at hpointer
      simp only [FmtConversion.char, FmtCursor.word, Option.map_some]
      exact congrArg (fun out => some (out, (⟨rest, args⟩ : FmtCursor))) hpointer
    | _ => simp [FmtConversion.char, FmtCursor.word]
  | d | i => exact number_signed arg rest args
  | u => exact number_unsigned arg rest args flagsUsed_sign fun _ => unsignedText_eq
  | x =>
    refine number_unsigned arg rest args flagsUsed_sign fun n hn => ?_
    have huppercase : dir.flagsUsed = { dir.flagsUsed with uppercase := false } := by
      rw [← @flagsUsed_uppercase dir]
    rw [huppercase]
    exact hexadecimalText_eq hn nofun
  | upperX =>
    exact @number_unsigned dir arg rest args { dir.flagsUsed with uppercase := true } flagsUsed_sign true _ fun _ hn =>
      hexadecimalText_eq hn fun _ => hplain.upper hconversion

/-- What is printed for a directive, and where the format goes on. -/
theorem directive_text (hplain : dir.Plain) : FmtCursor.directive ⟨(dir.text ++ rest).tail, dir.numberArgs ++ arg :: args⟩ =
    (dir.output arg).map fun out => (out, ⟨rest, args⟩) := by
  have hargs : dir.numberArgs ++ arg :: args = (dir.width.map FmtNumber.args).getD [] ++
      ((dir.precision.map fun p => (p.map FmtNumber.args).getD []).getD [] ++ arg :: args) := by
    simp [numberArgs]
  have hflags : fmtFlagsOf .none (dir.flags.map FmtFlag.char ++ dir.behindFlags rest) = (dir.flagsRead, dir.behindFlags rest) :=
    fmtFlagsOf_map (noFlag_behindFlags rest hplain) dir.flags .none
  unfold FmtCursor.directive
  rw [text_append, List.tail_cons, hargs]
  simp only [hflags, fieldWidth_text, Option.bind_eq_bind, Option.bind_some, precision_text _ _ hplain, integerType_text]
  exact conversion_text arg rest args hplain

end FmtDirective

/-! ## A format -/

theorem directive_percent (rest : CStr) (args : List FmtArg) :
    FmtCursor.directive ⟨'%' :: rest, args⟩ = some (['%'], ⟨rest, args⟩) := by
  have hflags := noFlag_cons (c := '%') (by decide) rest .none
  have hnumber : FmtCursor.number ⟨'%' :: rest, args⟩ = some (none, ⟨'%' :: rest, args⟩) :=
    number_absent (by rintro c ⟨⟩; decide) args
  simp [FmtCursor.directive, hflags, FmtCursor.fieldWidth, hnumber, FmtCursor.precision, FmtCursor.integerType,
    FmtCursor.conversion]

/-- The loop, over a format that is made of pieces. -/
theorem vsprintfLoop_pieces {pieces : List FmtPiece} {outs : List CStr} (hplain : ∀ p ∈ pieces, p.Plain)
    (houts : List.Forall₂ (fun p out => p.output = some out) pieces outs) (args : List FmtArg) : ∀ {n : Nat},
    (pieces.flatMap FmtPiece.text).length < n →
      vsprintfLoop n ⟨pieces.flatMap FmtPiece.text, pieces.flatMap FmtPiece.args ++ args⟩ = some outs.flatten := by
  induction houts with
  | nil =>
    intro n hn
    obtain ⟨n, rfl⟩ := Nat.exists_eq_add_one_of_ne_zero (Nat.ne_of_gt hn)
    rfl
  | @cons p out pieces outs hout _ ih =>
    intro n hn
    have hrest := fun n => @ih (fun p hp => hplain p (List.mem_cons_of_mem _ hp)) n
    obtain ⟨n, rfl⟩ := Nat.exists_eq_add_one_of_ne_zero (Nat.ne_of_gt (Nat.zero_lt_of_lt hn))
    rw [List.flatMap_cons, List.length_append] at hn
    rw [List.flatMap_cons, List.flatMap_cons, List.flatten_cons]
    cases p with
    | char c =>
      simp only [FmtPiece.output] at hout
      split_ifs at hout with hc
      obtain rfl := Option.some.inj hout
      have hnext := hrest n (by simp only [FmtPiece.text, List.length_singleton] at hn; omega)
      simp [FmtPiece.text, FmtPiece.args, vsprintfLoop, hc, hnext]
    | percent =>
      obtain rfl := Option.some.inj hout
      have hnext := hrest n (by simp only [FmtPiece.text, List.length_cons] at hn; omega)
      simp [FmtPiece.text, FmtPiece.args, vsprintfLoop, directive_percent, hnext]
    | directive dir arg =>
      have htext := dir.text_append (pieces.flatMap FmtPiece.text)
      have hdirective := FmtDirective.directive_text arg (pieces.flatMap FmtPiece.text) (pieces.flatMap FmtPiece.args ++ args)
        (hplain _ List.mem_cons_self)
      have hpos : 0 < dir.text.length := by simp [FmtDirective.text]
      have hnext := hrest n (by simp only [FmtPiece.text] at hn; omega)
      rw [htext, List.tail_cons, show dir.output arg = some out from hout] at hdirective
      simp only [FmtPiece.text, FmtPiece.args, htext, List.append_assoc, List.singleton_append]
      simp [vsprintfLoop, hdirective, hnext]

/-- A number has no more digits than `tmp` has room for. -/
theorem length_fmtDigits (num : UInt64) (isHex : Bool) (precision : Int) (upper : Bool) :
    (fmtDigits num isHex precision upper).length ≤ 20 := by
  have hlt := num.toNat_lt
  have hdecimal : (Nat.digits 10 num.toNat).length ≤ 20 := (Nat.digits_length_le_iff (by norm_num) _).mpr (by omega)
  have hhexadecimal : (Nat.digits 16 num.toNat).length ≤ 20 := (Nat.digits_length_le_iff (by norm_num) _).mpr (by omega)
  unfold fmtDigits
  split_ifs <;> simp [*]

/-- What `sprintf` prints is what the C standard prescribes for each directive, whatever its flags, its field width and its
precision are, and all other characters as they are. The digits of every number fit in `tmp`. -/
theorem vsprintf_pieces {pieces : List FmtPiece} {outs : List CStr} (hplain : ∀ p ∈ pieces, p.Plain)
    (houts : List.Forall₂ (fun p out => p.output = some out) pieces outs) :
    vsprintf (pieces.flatMap FmtPiece.text) (pieces.flatMap FmtPiece.args) = some outs.flatten ∧
      ∀ num isHex precision upper, (fmtDigits num isHex precision upper).length ≤ 20 := by
  have hloop := vsprintfLoop_pieces hplain houts [] (Nat.lt_succ_self _)
  rw [List.append_nil] at hloop
  exact ⟨hloop, length_fmtDigits⟩

/-- `v%d%%-%08lx`. -/
def revisionPieces : List FmtPiece :=
  [.char 'v', .directive ⟨[], none, none, .none, .d⟩ (.word 10), .percent, .char '-',
    .directive ⟨[.zero], some (.digits 8), none, .l, .x⟩ (.word 0xBEEF)]

theorem vsprintf_revision : vsprintf (revisionPieces.flatMap FmtPiece.text) (revisionPieces.flatMap FmtPiece.args) =
    some "v10%-0000beef".toList := by
  have hplain : ∀ p ∈ revisionPieces, p.Plain := by
    simp only [revisionPieces, List.forall_mem_cons, FmtPiece.Plain, true_and, List.not_mem_nil, false_imp_iff, implies_true,
      and_true]
    exact ⟨⟨nofun, nofun, nofun⟩, ⟨nofun, by simp [FmtNumber.value], nofun⟩⟩
  have houts : List.Forall₂ (fun p out => p.output = some out) revisionPieces
      ["v".toList, "10".toList, "%".toList, "-".toList, "0000beef".toList] := by
    simp [revisionPieces, FmtPiece.output, FmtDirective.output, FmtLength.signedValue, FmtLength.unsignedValue,
      FmtDirective.signedText, FmtDirective.hexadecimalText, FmtDirective.signText, FmtDirective.hexText, FmtDirective.fieldWidth,
      FmtDirective.digits, FmtDirective.leftJustified, FmtNumber.value, paddedNumber, justified, digitText, numberText, digitChar]
  exact (vsprintf_pieces hplain houts).1

end Omiiba.Arm9
