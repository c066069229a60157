/-
The values of options in config.ini: how config.c parses and prints them. An `s64` is an integer that is
wrapped where the code can come to its bounds.
-/
import Omiiba.Arm9.Ini
import Mathlib.Data.Nat.Digits.Lemmas

namespace Omiiba.Arm9

/-! ## Parsing -/

/-- `strcasecmp` finds no difference. -/
def eqIgnoreCase (a b : CStr) : Bool := a.map Char.toLower = b.map Char.toLower

def parseBoolOption (val : CStr) : Option Bool :=
  match val with
  | ['0'] => some false
  | ['1'] => some true
  | _ => none

/-- What an `s64` keeps of a number. -/
def wrap64 (x : Int) : Int := x.bmod (2 ^ 64)

/-- The digit of a character, as an unsigned difference to `'0'`. -/
def digitOf (c : Char) : Option Nat := if '0' ≤ c ∧ c ≤ '9' then some (c.toNat - '0'.toNat) else none

/-- The loop of `parseDecIntOptionImpl`. -/
def parseDigits : Int → CStr → Option Int
  | res, [] => some res
  | res, c :: s =>
    match digitOf c with
    | none => none
    | some n => parseDigits (wrap64 (10 * res + n)) s

def inBounds (minval maxval res : Int) : Option Int := if res ≤ maxval ∧ minval ≤ res then some res else none

/-- `parseDecIntOptionImpl`, of all characters of `val`. -/
def parseDecInt (val : CStr) (minval maxval : Int) : Option Int :=
  let (sign, digits) : Int × CStr :=
    match val with
    | '+' :: c :: s => (1, c :: s)
    | '-' :: c :: s => (-1, c :: s)
    | _ => (1, val)
  match parseDigits 0 digits with
  | none => none
  | some res => inBounds minval maxval (wrap64 (sign * res))

/-- `FLOAT_CONV_MULT`. -/
def floatConvMult : Int := 100000000

/-- The fractional part of `parseDecFloatOption`: `mul` is what a digit counts. -/
def parseFraction : Int → Int → CStr → Option Int
  | res, _, [] => some res
  | res, mul, c :: s =>
    if mul > 0 then
      match digitOf c with
      | none => none
      | some n => parseFraction (wrap64 (res + n * mul)) (mul / 10) s
    else some res

def int64Min : Int := -2 ^ 63

def int64Max : Int := 2 ^ 63 - 1

/-- `parseDecFloatOption`, after its sign. -/
def parseUnsignedFloat (sign : Int) (val : CStr) (minval maxval : Int) : Option Int :=
  if val = [] then none
  else
    let whole := val.takeWhile (· ≠ '.')
    let behind := val.dropWhile (· ≠ '.')
    let intPart := if whole = [] then if behind.length = 1 then none else some 0 else parseDecInt whole int64Min int64Max
    match intPart with
    | none => none
    | some intPart =>
      let intPartAbs := if sign = -1 then wrap64 (-intPart) else intPart
      let res := intPartAbs * floatConvMult
      if res < int64Min ∨ int64Max < res then none
      else
        match parseFraction res (floatConvMult / 10) behind.tail with
        | none => none
        | some res => inBounds minval maxval (wrap64 (sign * res))

def parseDecFloatOption (val : CStr) (minval maxval : Int) : Option Int :=
  match val with
  | [] => none
  | '+' :: s => parseUnsignedFloat 1 s minval maxval
  | '-' :: s => parseUnsignedFloat (-1) s minval maxval
  | val => parseUnsignedFloat 1 val minval maxval

def hexDigitOf (c : Char) : Option Nat :=
  if '0' ≤ c ∧ c ≤ '9' then some (c.toNat - '0'.toNat)
  else if 'a' ≤ c ∧ c ≤ 'f' then some (c.toNat - 'a'.toNat + 10)
  else if 'A' ≤ c ∧ c ≤ 'F' then some (c.toNat - 'A'.toNat + 10)
  else none

/-- `parseHexIntOption`, of any `u64`. -/
def parseHexInt : Nat → CStr → Option Nat
  | res, [] => some res
  | res, c :: s =>
    match hexDigitOf c with
    | none => none
    | some n => parseHexInt ((16 * res + n) % 2 ^ 64) s

/-- `keyNames`. -/
def keyNames : List CStr :=
  ["A", "B", "Select", "Start", "Right", "Left", "Up", "Down", "R", "L", "X", "Y",
    "?", "?",
    "ZL", "ZR",
    "?", "?", "?", "?",
    "Touch",
    "?", "?", "?",
    "CStick Right", "CStick Left", "CStick Up", "CStick Down",
    "CPad Right", "CPad Left", "CPad Up", "CPad Down"].map String.toList

/-- The bits of the keys of a name. -/
def keyBits (name : CStr) : Nat :=
  (List.range 32).foldl (fun bits i => if eqIgnoreCase (keyNames.getD i []) name then bits ||| 1 <<< i else bits) 0

/-- The name of a button before a `+` or the end; none for one that is not found. -/
def parseKeyName (name : CStr) : Option Nat :=
  let name := name.take 16
  if name = ['?'] then none
  else if keyBits name = 0 then none
  else some (keyBits name)

/-- The loop of `parseKeyComboOption`: `name` is read of the button at hand. -/
def parseKeys : Nat → CStr → CStr → Option Nat
  | keyCombo, name, [] => (parseKeyName name).map (keyCombo ||| ·)
  | keyCombo, name, c :: s =>
    if c = '+' then
      match parseKeyName name with
      | none => none
      | some bits => if s = [] then none else parseKeys (keyCombo ||| bits) [] s
    else parseKeys keyCombo (name ++ [c]) s

def parseKeyComboOption (val : CStr) : Option Nat := parseKeys 0 [] val

/-! ## Printing -/

def digitChar (n : Nat) : Char := "0123456789abcdef".toList.getD n '0'

/-- The digits of `processNumber` in fmt.c. -/
def numberText (base n : Nat) : CStr := if n = 0 then ['0'] else ((Nat.digits base n).map digitChar).reverse

/-- `%d` and `%lld`. -/
def decText (x : Int) : CStr := if x < 0 then '-' :: numberText 10 x.natAbs else numberText 10 x.natAbs

/-- A number with zeroes before it. -/
def zeroPadded (width base n : Nat) : CStr :=
  List.replicate (width - (numberText base n).length) '0' ++ numberText base n

/-- `menuComboToString`. -/
def menuComboToString (combo : Nat) : CStr :=
  ((List.range 32).reverse.foldl
    (fun out i => if combo.testBit i then out ++ keyNames.getD i [] ++ ['+'] else out) []).dropLast

/-- The loop over the fractional part in `encodedFloatToString`. -/
def dropDigits : Nat → Nat → Nat
  | 0, fracPart => fracPart
  | fuel + 1, fracPart => if fracPart % 10 ≠ 0 then dropDigits fuel (fracPart / 10) else fracPart

/-- `encodedFloatToString`; its fractional part has eight digits. -/
def encodedFloatToString (val : Int) : CStr :=
  let sign : Int := if val ≥ 0 then 1 else -1
  let intPart := (sign * val) / floatConvMult
  let fracPart := dropDigits 8 ((sign * val) % floatConvMult).toNat
  decText (sign * intPart) ++
    if fracPart ≠ 0 then ('.' :: zeroPadded 8 10 fracPart).rdropWhile (· = '0') else []

end Omiiba.Arm9
