/-
The loader of cheats.c: it reads a cheat file line by line and places the cheats one behind the other
in `cheatBuffer`.
-/
import Omiiba.Lib.Memory
import Omiiba.Rosalina.CheatFile

namespace Omiiba.Rosalina

/-! ## Descriptions in the buffer -/

/-- `sizeof(CheatDescription)`: its codes begin there. -/
def descriptionSize : Nat := 56

def cheatBufferSize : Nat := 32768

/-- The globals of cheats.c that the loader fills; addresses are offsets in `cheatBuffer`. -/
structure Cheats where
  cheatBuffer : Memory UInt8
  cheats : Memory Nat
  cheatCount : UInt8

/-- `codesCount` of the description at `cheat`. -/
def codesCount (buffer : Memory UInt8) (cheat : Nat) : Nat := buffer.load (cheat + 40) 4

def nameAt (buffer : Memory UInt8) (cheat : Nat) : List UInt8 :=
  ((List.range 39).map fun i => buffer (cheat + 1 + i)).takeWhile (· ≠ 0)

def codesAt (buffer : Memory UInt8) (cheat : Nat) : List UInt64 :=
  (List.range (codesCount buffer cheat)).map fun k => UInt64.ofNat (buffer.load (cheat + descriptionSize + 8 * k) 8)

/-- The end of the description at `cheat`, and of its codes. -/
def cheatEnd (buffer : Memory UInt8) (cheat : Nat) : Nat := cheat + descriptionSize + 8 * codesCount buffer cheat

/-- `Cheat_AllocCheat`; `activeStorage` is not set. -/
def allocCheat (s : Cheats) : Nat × Cheats :=
  let cheat := if s.cheatCount = 0 then 0 else cheatEnd s.cheatBuffer (s.cheats (s.cheatCount.toNat - 1))
  let buffer := s.cheatBuffer.store cheat [(s.cheatBuffer cheat &&& ~~~7) ||| 2]
  let buffer := buffer.store (cheat + 40) (Memory.leBytes 4 0)
  let buffer := buffer.store (cheat + 44) (Memory.leBytes 4 0)
  let buffer := buffer.store (cheat + 48) (Memory.leBytes 4 0)
  let buffer := buffer.store (cheat + 1) [0]
  (cheat, { cheatBuffer := buffer, cheats := s.cheats.store s.cheatCount.toNat [cheat], cheatCount := s.cheatCount + 1 })

/-- `Cheat_AddCode`. -/
def addCode (buffer : Memory UInt8) (cheat : Nat) (code : UInt64) : Memory UInt8 :=
  let count := codesCount buffer cheat
  (buffer.store (cheat + descriptionSize + 8 * count) (Memory.leBytes 8 code.toNat)).store (cheat + 40)
    (Memory.leBytes 4 (count + 1))

def setKeyCode (buffer : Memory UInt8) (cheat : Nat) : Memory UInt8 := buffer.store cheat [buffer cheat ||| 4]

/-- `strncpy` of 38 characters into the name, and its terminator. -/
def setName (buffer : Memory UInt8) (cheat : Nat) (line : List UInt8) : Memory UInt8 :=
  (buffer.store (cheat + 1) (line.take 38 ++ List.replicate (38 - line.length) 0)).store (cheat + 1 + 38) [0]

/-! ## The loader -/

/-- The locals of `Cheat_LoadCheatsIntoMemory`, with the globals. -/
structure Loading where
  globals : Cheats
  cheat : Option Nat
  cheatSize : Nat

/-- A code line: the state after it, and whether it ends the loop. -/
def loadCode (s : Loading) (strippedLine : List UInt8) : Loading × Bool :=
  if s.cheatSize + 8 ≥ cheatBufferSize then
    ({ s with globals := { s.globals with cheatCount := s.globals.cheatCount - 1 } }, true)
  else
    match s.cheat with
    | none => (s, false)
    | some cheat =>
      let tmp := getCode strippedLine
      let buffer := addCode s.globals.cheatBuffer cheat tmp
      let buffer := if (tmp >>> 32) &&& 0xFFFFFFFF = 0xDD000000 then setKeyCode buffer cheat else buffer
      ({ s with globals := { s.globals with cheatBuffer := buffer }, cheatSize := s.cheatSize + 8 }, false)

/-- Is a new cheat needed for a name? -/
def Loading.inUse (s : Loading) : Bool :=
  match s.cheat with
  | none => true
  | some cheat => decide (codesCount s.globals.cheatBuffer cheat > 0)

def Loading.rename (s : Loading) (cheat : Nat) (line : List UInt8) : Loading :=
  { s with globals := { s.globals with cheatBuffer := setName s.globals.cheatBuffer cheat line } }

/-- A line with a name. -/
def loadName (s : Loading) (line : List UInt8) : Loading × Bool :=
  if s.inUse then
    if s.cheatSize + descriptionSize ≥ cheatBufferSize then (s, true)
    else
      let (cheat, globals) := allocCheat s.globals
      (Loading.rename ⟨globals, some cheat, s.cheatSize + descriptionSize⟩ cheat line, false)
  else
    match s.cheat with
    | none => (s, false)
    | some cheat => (s.rename cheat line, false)

def loadLine (s : Loading) (line : List UInt8) : Loading × Bool :=
  let (line, strippedLine) := stripWhitespace line
  if min strippedLine.length 1023 = 0 then (s, false)
  else if strippedLine.head? = some '#'.toUInt8 then (s, false)
  else if isCodeLine strippedLine then loadCode s strippedLine
  else loadName s line

/-- The end of `Cheat_LoadCheatsIntoMemory`: a last cheat without codes is removed. -/
def removeEmpty (s : Cheats) : Cheats :=
  if s.cheatCount > 0 ∧ codesCount s.cheatBuffer (s.cheats (s.cheatCount.toNat - 1)) = 0 then
    { s with cheatCount := s.cheatCount - 1 }
  else s

/-- How the loader ends; it is an overrun if `stripWhitespace` looks for the end of a line that has no
terminator. -/
inductive Loaded
  | overrun
  | done (s : Cheats)

/-- The loop of `Cheat_LoadCheatsIntoMemory`; none without fuel. -/
def loadLoop : Nat → BufferedFile → Loading → Option Loaded
  | 0, _, _ => none
  | fuel + 1, file, s =>
    let r := readLine file 1024
    match r.line with
    | none => some .overrun
    | some line =>
      let (s, stop) := if r.res ≥ 0 ∨ r.res = -1 then loadLine s line else (s, false)
      if !stop ∧ r.res ≥ 0 ∧ s.cheatSize < cheatBufferSize then loadLoop fuel r.file s
      else some (.done (removeEmpty s.globals))

/-- `Cheat_LoadCheatsIntoMemory`, of a file that can be read. -/
def loadCheatsIntoMemory (fuel : Nat) (s : Cheats) (content : List UInt8) : Option Loaded :=
  loadLoop fuel (.openFile content) ⟨{ s with cheatCount := 0 }, none, 0⟩

/-! ## What a file says -/

structure Cheat where
  name : List UInt8
  codes : List UInt64

/-- The bytes a cheat takes. -/
def Cheat.size (c : Cheat) : Nat := descriptionSize + 8 * c.codes.length

/-- The cheats after one more line, the newest one first. -/
def addLine : List Cheat → Line → List Cheat
  | cs, .nothing => cs
  | [], .code _ => []
  | c :: cs, .code word => { c with codes := c.codes ++ [word] } :: cs
  | [], .name text => [⟨text, []⟩]
  | c :: cs, .name text => if c.codes = [] then { c with name := text } :: cs else ⟨text, []⟩ :: c :: cs

/-- The texts of lines: the last one of a file has no line feed. -/
def lineTexts : List (List UInt8) → List (List UInt8)
  | [] => []
  | [line] => [line]
  | line :: next :: lines => dropReturn line :: lineTexts (next :: lines)

/-- The cheats of a file, wherever they fit. -/
def parseCheats (content : List UInt8) : List Cheat :=
  (((lineTexts (fileLines content)).map Line.of).foldl addLine []).reverse

/-- The cheats before the first one that does not fit behind `used` bytes. -/
def fitting (used : Nat) : List Cheat → List Cheat
  | [] => []
  | c :: cs => if used + c.size < cheatBufferSize then c :: fitting (used + c.size) cs else []

/-- The cheats of a file, cut at the first that does not fit, without a last one that has no codes. -/
def referenceCheats (content : List UInt8) : List Cheat :=
  (fitting 0 (parseCheats content)).filter fun c => c.codes ≠ []

/-! ## What is loaded -/

/-- `cheats[0..cheatCount)`. -/
def Cheats.list (s : Cheats) : List Cheat :=
  (List.range s.cheatCount.toNat).map fun i => ⟨nameAt s.cheatBuffer (s.cheats i), codesAt s.cheatBuffer (s.cheats i)⟩

/-- The cheats are in the buffer, apart from each other, and those expected. -/
structure HoldsCheats (s : Cheats) (expected : List Cheat) : Prop where
  inside : ∀ i < s.cheatCount.toNat, cheatEnd s.cheatBuffer (s.cheats i) ≤ cheatBufferSize
  apart : ∀ i j, i < j → j < s.cheatCount.toNat →
    cheatEnd s.cheatBuffer (s.cheats i) ≤ s.cheats j ∨ cheatEnd s.cheatBuffer (s.cheats j) ≤ s.cheats i
  list : s.list = expected

end Omiiba.Rosalina
