/-
The INI parser of ini.c, as the configuration is parsed with it: it stops at the first error, and its
handler is told the line number. A C string is the list of its characters.
-/
import Mathlib.Tactic
import Mathlib.Data.List.DropRight

namespace Omiiba.Arm9

abbrev CStr := List Char

/-! ## Characters -/

/-- `isspace`. -/
def isSpace (c : Char) : Bool := c = ' ' ∨ c = '\t' ∨ c = '\n' ∨ c = '\x0b' ∨ c = '\x0c' ∨ c = '\r'

def rstrip (s : CStr) : CStr := s.rdropWhile isSpace

def lskip (s : CStr) : CStr := s.dropWhile isSpace

/-- `find_chars_or_comment`: what is before the place that it finds, and what is from there on. -/
def findCharsOrComment (chars : CStr) : Bool → CStr → CStr × CStr
  | _, [] => ([], [])
  | wasSpace, c :: s =>
    if c ∈ chars ∨ (wasSpace = true ∧ c = ';') then ([], c :: s)
    else
      let (before, behind) := findCharsOrComment chars (isSpace c) s
      (c :: before, behind)

/-! ## Lines -/

/-- The lines that `ini_reader_string` gives, one after the other: `room` characters fit in the rest of
the line, of which `line` is read. -/
def readLines : Nat → CStr → CStr → List CStr
  | _, line, [] => if line = [] then [] else [line]
  | room, line, c :: s =>
    if c = '\n' ∨ room ≤ 1 then (line ++ [c]) :: readLines 199 [] s
    else readLines (room - 1) (line ++ [c]) s

/-- The locals of `ini_parse_stream`. -/
structure IniState where
  section_ : CStr
  prevName : CStr
  lineno : Nat

/-- What a line is. -/
inductive LineKind
  | nothing
  | header
  | call (name value : CStr)
  | error
  deriving DecidableEq

/-- A line of `ini_parse_stream`: what it is, and the locals after it. -/
def classify (s : IniState) (line : CStr) : LineKind × IniState :=
  let s := { s with lineno := s.lineno + 1 }
  let bom := if s.lineno = 1 ∧ ['\xef', '\xbb', '\xbf'] <+: line then line.drop 3 else line
  let start := lskip (rstrip bom)
  let indented := bom.length < line.length ∨ start.length < (rstrip bom).length
  match start with
  | [] => (.nothing, s)
  | c :: rest =>
    if c ∈ [';', '#'] then (.nothing, s)
    else if s.prevName ≠ [] ∧ indented then (.call s.prevName start, s)
    else if c = '[' then
      match findCharsOrComment [']'] false rest with
      | (name, ']' :: _) => (.header, { s with section_ := name.take 49, prevName := [] })
      | _ => (.error, s)
    else
      match findCharsOrComment ['=', ':'] false start with
      | (before, sep :: behind) =>
        if sep = '=' ∨ sep = ':' then
          let name := rstrip before
          let value := rstrip (lskip (findCharsOrComment [] false behind).1)
          (.call name value, { s with prevName := name.take 49 })
        else (.error, s)
      | _ => (.error, s)

/-! ## The stream -/

/-- A handler: whether it succeeds, and its data after it. -/
abbrev IniHandler (σ : Type) := σ → CStr → CStr → CStr → Nat → Bool × σ

/-- The loop of `ini_parse_stream`: the line of the first error or 0, and the data of the handler. -/
def parseLines {σ : Type} (handler : IniHandler σ) : List CStr → IniState → σ → Nat × σ
  | [], _, user => (0, user)
  | line :: lines, s, user =>
    match classify s line with
    | (.call name value, s) =>
      let (ok, user) := handler user s.section_ name value s.lineno
      if ok then parseLines handler lines s user else (s.lineno, user)
    | (.error, s) => (s.lineno, user)
    | (_, s) => parseLines handler lines s user

/-- `ini_parse_string`. -/
def iniParseString {σ : Type} (handler : IniHandler σ) (text : CStr) (user : σ) : Nat × σ :=
  parseLines handler (readLines 199 [] (text.takeWhile (· ≠ '\x00'))) ⟨[], [], 0⟩ user

/-! ## Calls -/

/-- A call of the handler. -/
structure Call where
  section_ : CStr
  name : CStr
  value : CStr
  lineno : Nat

/-- The calls for the lines, if all of them succeed. -/
def callsOf : List CStr → IniState → List Call
  | [], _ => []
  | line :: lines, s =>
    match classify s line with
    | (.call name value, s) => ⟨s.section_, name, value, s.lineno⟩ :: callsOf lines s
    | (.error, _) => []
    | (_, s) => callsOf lines s

/-- The calls for a text. -/
def iniCalls (text : CStr) : List Call := callsOf (readLines 199 [] (text.takeWhile (· ≠ '\x00'))) ⟨[], [], 0⟩

section

variable {σ : Type} (handler : IniHandler σ)

/-- The calls one after the other: whether all succeed, and the data after the last or the first that fails. -/
def runCalls : List Call → σ → Bool × σ
  | [], user => (true, user)
  | call :: calls, user =>
    let (ok, user) := handler user call.section_ call.name call.value call.lineno
    if ok then runCalls calls user else (false, user)

/-- What the handler has done in the end, is what its calls did. -/
theorem parseLines_snd (lines : List CStr) : ∀ (s : IniState) (user : σ),
    (parseLines handler lines s user).2 = (runCalls handler (callsOf lines s) user).2 := by
  induction lines with
  | nil => exact fun _ _ => rfl
  | cons line lines ih =>
    intro s user
    unfold parseLines callsOf
    rcases classify s line with ⟨kind, s'⟩
    cases kind with
    | nothing => exact ih s' user
    | header => exact ih s' user
    | error => rfl
    | call name value =>
      simp only [runCalls]
      split
      · exact ih _ _
      · rfl

theorem iniParseString_snd (text : CStr) (user : σ) :
    (iniParseString handler text user).2 = (runCalls handler (iniCalls text) user).2 :=
  parseLines_snd handler _ _ user

end

end Omiiba.Arm9
