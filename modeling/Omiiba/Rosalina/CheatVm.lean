/-
The interpreter of cheat codes of cheats.c. What it gets from outside of the code (the memory of the
game, the buttons, the floating-point unit, and what C leaves open) is a parameter; every code word
it fetches, every divisor and every shift count is recorded.
-/
import Omiiba.Lib.Memory

namespace Omiiba.Rosalina

/-! ## State -/

/-- `CheatState`. -/
structure CheatState where
  index : UInt32
  offset1 : UInt32
  offset2 : UInt32
  data1 : UInt32
  data2 : UInt32
  activeOffset : Bool
  activeData : Bool
  conditionalMode : UInt32
  data1Mode : Bool
  data2Mode : Bool
  floatMode : Bool
  typeELine : UInt8
  typeEIdx : UInt8
  loopLine : Int8
  loopCount : UInt32
  ifStack : UInt32
  storedStack : UInt32
  ifCount : UInt8
  storedIfCount : UInt8

/-- The fields of `CheatDescription` that its codes can change. -/
structure CheatStorage where
  activeStorage : Bool
  storage1 : UInt32
  storage2 : UInt32

/-- An operand that an instruction uses. -/
inductive Use
  | code (index : Nat)
  | divide (divisor : UInt32)
  | shift (count : UInt32)
  deriving DecidableEq

/-- The interpreter, and the world it runs in. -/
structure Vm (ω : Type) where
  state : CheatState
  cheat : CheatStorage
  cheatRngState : UInt64
  cheatPage : Memory UInt8
  world : ω
  uses : List Use

/-- What `svcQueryDebugProcessMemory` says of an address. -/
structure MemInfo where
  free : Bool
  base_addr : UInt32
  size : UInt32

/-- The system calls, the input registers and the floating-point unit; and what happens where C does
not say: behind the last code word, in a division by zero, in a shift by 32 or more. -/
structure Machine (ω : Type) where
  query : ω → UInt32 → Option MemInfo × ω
  read : ω → UInt32 → Nat → Option UInt32 × ω
  write : ω → UInt32 → Nat → UInt32 → Bool × ω
  pad : ω → UInt32 × ω
  touch : ω → (UInt16 × UInt16) × ω
  floatAdd : UInt32 → UInt32 → UInt32
  floatMul : UInt32 → UInt32 → UInt32
  floatDiv : UInt32 → UInt32 → UInt32
  floatToInt : UInt32 → UInt32
  intToFloat : UInt32 → UInt32
  codeBehind : Nat → UInt64
  divZero : UInt32 → UInt32
  modZero : UInt32 → UInt32
  shiftLeftOver : UInt32 → UInt32 → UInt32
  shiftRightOver : UInt32 → UInt32 → UInt32

/-- A part of `Cheat_ApplyCheat`; it ends early where the function returns 0. -/
abbrev VmM (ω : Type) := ExceptT Unit (StateM (Vm ω))

namespace CheatState

def offset (s : CheatState) : UInt32 := if s.activeOffset then s.offset2 else s.offset1

def data (s : CheatState) : UInt32 := if s.activeData then s.data2 else s.data1

def setOffset (s : CheatState) (value : UInt32) : CheatState :=
  if s.activeOffset then { s with offset2 := value } else { s with offset1 := value }

def setData (s : CheatState) (value : UInt32) : CheatState :=
  if s.activeData then { s with data2 := value } else { s with data1 := value }

/-- The start of `Cheat_ApplyCheat`. -/
def start (s : CheatState) : CheatState :=
  { s with
    index := 0, offset1 := 0, offset2 := 0, data1 := 0, data2 := 0, activeOffset := false, activeData := false,
    conditionalMode := 0, data1Mode := false, data2Mode := false, floatMode := false, loopCount := 0,
    loopLine := -1, ifStack := 0, storedStack := 0, ifCount := 0, storedIfCount := 0 }

end CheatState

def CheatStorage.storage (c : CheatStorage) : UInt32 := if c.activeStorage then c.storage2 else c.storage1

section

variable {ω : Type}

/-! ## Operations -/

/-- A change of the interpreter's own state. -/
def modifyState (f : CheatState → CheatState) : VmM ω Unit := modify fun vm => { vm with state := f vm.state }

def record (u : Use) : VmM ω Unit := modify fun vm => { vm with uses := u :: vm.uses }

/-- Where the code is skipped, nothing. -/
def unlessSkipped (skipExecution : Bool) (act : VmM ω Unit) : VmM ω Unit := if skipExecution then pure () else act

/-- The value of a question to the world. -/
def ask {α : Type} (f : ω → α × ω) : VmM ω α :=
  modifyGet fun vm => ((f vm.world).1, { vm with world := (f vm.world).2 })

variable (m : Machine ω)

/-- `codes[index]`. -/
def codeAt (codes : List UInt64) (index : Nat) : VmM ω UInt64 := do
  record (.code index)
  pure ((codes[index]?).getD (m.codeBehind index))

def divide (a b : UInt32) : VmM ω UInt32 := do
  record (.divide b)
  pure (if b = 0 then m.divZero a else a / b)

def remainder (a b : UInt32) : VmM ω UInt32 := do
  record (.divide b)
  pure (if b = 0 then m.modZero a else a % b)

def shiftLeft (a b : UInt32) : VmM ω UInt32 := do
  record (.shift b)
  pure (if b < 32 then a <<< b else m.shiftLeftOver a b)

def shiftRight (a b : UInt32) : VmM ω UInt32 := do
  record (.shift b)
  pure (if b < 32 then a >>> b else m.shiftRightOver a b)

def Vm.setRandom (vm : Vm ω) (cheatRngState : UInt64) : Vm ω := { vm with cheatRngState }

def nextRandom (cheatRngState : UInt64) : UInt64 := 0x5D588B656C078965 * cheatRngState + 0x0000000000269EC3

/-- `Cheat_GetRandomNumber`. -/
def getRandomNumber : VmM ω UInt32 :=
  modifyGet fun vm =>
    ((nextRandom vm.cheatRngState >>> 32).toUInt32, vm.setRandom (nextRandom vm.cheatRngState))

/-- `Cheat_IsValidAddress`. -/
def isValidAddress (address size : UInt32) : VmM ω Bool := do
  let info ← ask fun w => m.query w address
  pure <|
    match info with
    | none => false
    | some info =>
      !info.free && decide (info.base_addr > 0 ∧ info.base_addr ≤ address ∧ address ≤ info.base_addr + info.size - size)

/-- `size` bytes of `cheatPage`, little-endian. -/
def pageLoad (page : Memory UInt8) (at_ : Nat) : Nat → UInt32
  | 0 => 0
  | size + 1 => (page at_).toUInt32 ||| (pageLoad page (at_ + 1) size <<< 8)

def pageBytes (value : UInt32) : Nat → List UInt8
  | 0 => []
  | size + 1 => value.toUInt8 :: pageBytes (value >>> 8) size

/-- Does an access of `size` bytes go to `cheatPage`? -/
def inPage (addr size : UInt32) : Bool := 0x01E81000 ≤ addr && addr + (size - 1) < 0x01E82000

/-- The three `Cheat_Write`. -/
def writeMemory (size : Nat) (offset value : UInt32) : VmM ω Unit := do
  let vm ← get
  let addr := vm.state.offset + offset
  if inPage addr (UInt32.ofNat size) then
    modify fun vm => { vm with cheatPage := vm.cheatPage.store (addr - 0x01E81000).toNat (pageBytes value size) }
  else
    let valid ← isValidAddress m addr (UInt32.ofNat size)
    if valid then
      let done ← ask fun w => m.write w addr size value
      if done then pure () else throw ()
    else throw ()

def write8 (offset : UInt32) (value : UInt8) : VmM ω Unit := writeMemory m 1 offset value.toUInt32

def write16 (offset : UInt32) (value : UInt16) : VmM ω Unit := writeMemory m 2 offset value.toUInt32

def write32 (offset value : UInt32) : VmM ω Unit := writeMemory m 4 offset value

/-- The three `Cheat_Read`. -/
def readMemory (size : Nat) (offset : UInt32) : VmM ω UInt32 := do
  let vm ← get
  let addr := vm.state.offset + offset
  if inPage addr (UInt32.ofNat size) then pure (pageLoad vm.cheatPage (addr - 0x01E81000).toNat size)
  else
    let valid ← isValidAddress m addr (UInt32.ofNat size)
    if valid then
      let value ← ask fun w => m.read w addr size
      match value with
      | some value => pure value
      | none => throw ()
    else throw ()

def read8 (offset : UInt32) : VmM ω UInt8 := do
  let value ← readMemory m 1 offset
  pure value.toUInt8

def read16 (offset : UInt32) : VmM ω UInt16 := do
  let value ← readMemory m 2 offset
  pure value.toUInt16

def read32 (offset : UInt32) : VmM ω UInt32 := readMemory m 4 offset

/-! ## Conditionals -/

/-- A new conditional: what follows is skipped if it fails or is skipped itself. -/
def pushIf (skipExecution newSkip : Bool) : VmM ω Unit :=
  modifyState fun s =>
    { s with ifStack := (s.ifStack <<< 1) ||| (if newSkip || skipExecution then 1 else 0), ifCount := s.ifCount + 1 }

/-- The types 3 to A: `mask` is on what is compared, `arg` what an immediate compares with. -/
def conditional (skipExecution : Bool) (read : VmM ω UInt32) (mask arg : UInt32) (cmp : UInt32 → UInt32 → Bool) :
    VmM ω Unit := do
  let vm ← get
  let data := vm.state.data &&& mask
  let storage := vm.cheat.storage &&& mask
  match vm.state.conditionalMode.toNat with
  | 0 => do
    let value ← read
    pushIf skipExecution !(cmp (value &&& mask) arg)
  | 1 => do
    let value ← read
    pushIf skipExecution !(cmp (value &&& mask) data)
  | 2 => pushIf skipExecution !(cmp data arg)
  | 3 => pushIf skipExecution !(cmp storage arg)
  | 4 => pushIf skipExecution !(cmp data storage)
  | _ => throw ()

/-- The types 3 to 6. -/
def conditional32 (skipExecution : Bool) (arg0 arg1 : UInt32) (cmp : UInt32 → UInt32 → Bool) : VmM ω Unit :=
  conditional skipExecution (read32 m (arg0 &&& 0x0FFFFFFF)) 0xFFFFFFFF arg1 cmp

/-- The types 7 to A: the mask is a complement of an `int`, with all its upper bits set. -/
def conditional16 (skipExecution : Bool) (arg0 arg1 : UInt32) (cmp : UInt32 → UInt32 → Bool) : VmM ω Unit :=
  conditional skipExecution (do let value ← read16 m (arg0 &&& 0x0FFFFFFF); pure value.toUInt32)
    (~~~ (arg1 >>> 16)) (arg1 &&& 0xFFFF) cmp

/-! ## Loops -/

/-- The type C. -/
def typeC (subcode arg1 : UInt32) : VmM ω Unit :=
  let loop (count : CheatState → UInt32) : VmM ω Unit :=
    modifyState fun s =>
      { s with loopLine := s.index.toUInt8.toInt8, loopCount := count s, storedStack := s.ifStack, storedIfCount := s.ifCount }
  match subcode.toNat with
  | 0 => loop fun _ => arg1
  | 1 => loop CheatState.data1
  | 2 => loop CheatState.data2
  | _ => pure ()

/-- The `s8` of the loop line as an index. -/
def lineIndex (line : Int8) : UInt32 := line.toInt32.toUInt32

/-- The end of one turn of a loop, without what D2 does after the last one. -/
def CheatState.turn (s : CheatState) : CheatState :=
  let loopCount := s.loopCount - 1
  if loopCount = 0 then { s with loopCount, loopLine := -1 }
  else if s.loopLine ≠ -1 then { s with loopCount, index := lineIndex s.loopLine }
  else { s with loopCount }

def CheatState.popIf (s : CheatState) : CheatState := { s with ifStack := s.ifStack >>> 1, ifCount := s.ifCount - 1 }

/-- The search for the end of the loop that D0 with 1 breaks off. -/
def skipLoop (codes : List UInt64) : Nat → VmM ω Unit
  | 0 => pure ()
  | fuel + 1 => do
    let vm ← get
    let index := vm.state.index
    if index.toNat < codes.length then do
      let code ← codeAt m codes index.toNat
      modifyState fun s => { s with index := index + 1 }
      if code = 0xD100000000000000 ∨ code = 0xD200000000000000 then pure () else skipLoop codes fuel
    else pure ()

def typeD0 (codes : List UInt64) (skipExecution : Bool) (arg1 : UInt32) : VmM ω Unit :=
  if arg1 = 0 then
    modifyState fun s =>
      if s.loopLine ≠ -1 then
        if s.ifCount > 0 ∧ s.ifCount > s.storedIfCount then s.popIf
        else if s.loopCount > 0 then s.turn
        else s
      else if s.ifCount > 0 then s.popIf
      else s
  else if ¬ skipExecution ∧ arg1 = 1 then do
    modifyState fun s => { s with loopCount := 0, loopLine := -1, index := s.index + 1 }
    skipLoop m codes codes.length
  else pure ()

def typeD1 : VmM ω Unit :=
  modifyState fun s =>
    if s.loopCount > 0 then { s with ifStack := s.storedStack, ifCount := s.storedIfCount }.turn else s

def CheatState.clear (s : CheatState) : CheatState :=
  { (s.setData 0).setOffset 0 with ifStack := 0, ifCount := 0 }

def typeD2 (codes : List UInt64) (skipExecution : Bool) (arg1 : UInt32) : VmM ω Unit :=
  if arg1 = 0 then
    modifyState fun s =>
      if s.loopCount > 0 then if s.loopCount - 1 = 0 then s.turn.clear else s.turn
      else s.clear
  else if ¬ skipExecution ∧ arg1 = 1 then modifyState fun s => { s with index := UInt32.ofNat codes.length }
  else pure ()

/-! ## Registers -/

/-- The register that an argument of D4 to DB names: the active one, the first or the second. -/
def CheatState.dataAt (s : CheatState) (codeArg : UInt32) : UInt32 :=
  match codeArg.toNat with
  | 0 => s.data
  | 1 => s.data1
  | _ => s.data2

def CheatState.setDataAt (s : CheatState) (codeArg value : UInt32) : CheatState :=
  match codeArg.toNat with
  | 0 => s.setData value
  | 1 => { s with data1 := value }
  | _ => { s with data2 := value }

def typeD3 (codeArg arg1 : UInt32) : VmM ω Unit :=
  match codeArg.toNat with
  | 0 => modifyState fun s => { s with offset1 := arg1 }
  | 1 => modifyState fun s => { s with offset2 := arg1 }
  | _ => pure ()

def typeD4 (codeArg arg1 : UInt32) : VmM ω Unit :=
  match codeArg.toNat with
  | 0 => modifyState fun s => s.setData (s.data + arg1)
  | 1 => modifyState fun s => { s with data1 := s.data1 + (arg1 + s.data2) }
  | 2 => modifyState fun s => { s with data2 := s.data2 + (arg1 + s.data1) }
  | _ => pure ()

def typeD5 (codeArg arg1 : UInt32) : VmM ω Unit :=
  if codeArg ≤ 2 then modifyState fun s => s.setDataAt codeArg arg1 else pure ()

/-- The types D6, D7 and D8: `write` stores the data, and the offset moves on by `step`. -/
def storeAndIncrement (write : UInt32 → VmM ω Unit) (step codeArg : UInt32) : VmM ω Unit :=
  if codeArg ≤ 2 then do
    let vm ← get
    write (vm.state.dataAt codeArg)
    modifyState fun s => s.setOffset (s.offset + step)
  else pure ()

def typeD6 (codeArg arg1 : UInt32) : VmM ω Unit := storeAndIncrement (write32 m arg1) 4 codeArg

def typeD7 (codeArg arg1 : UInt32) : VmM ω Unit := storeAndIncrement (fun value => write16 m arg1 value.toUInt16) 2 codeArg

def typeD8 (codeArg arg1 : UInt32) : VmM ω Unit := storeAndIncrement (fun value => write8 m arg1 value.toUInt8) 1 codeArg

/-- The types D9, DA and DB. -/
def loadTo (read : VmM ω UInt32) (codeArg : UInt32) : VmM ω Unit :=
  if codeArg ≤ 2 then do
    let value ← read
    modifyState fun s => s.setDataAt codeArg value
  else pure ()

def typeD9 (codeArg arg1 : UInt32) : VmM ω Unit := loadTo (read32 m arg1) codeArg

def typeDA (codeArg arg1 : UInt32) : VmM ω Unit :=
  loadTo (do let value ← read16 m arg1; pure value.toUInt32) codeArg

def typeDB (codeArg arg1 : UInt32) : VmM ω Unit :=
  loadTo (do let value ← read8 m arg1; pure value.toUInt32) codeArg

def typeDC (arg1 : UInt32) : VmM ω Unit := modifyState fun s => s.setOffset (s.offset + arg1)

def typeDD (skipExecution : Bool) (arg1 : UInt32) : VmM ω Unit := do
  let pad ← if arg1 = 0 then pure 0 else ask m.pad
  pushIf skipExecution !(arg1 = 0 ∨ pad &&& arg1 = arg1)

def typeDE (skipExecution : Bool) (codeArg arg1 : UInt32) : VmM ω Unit := do
  let highBound := arg1 >>> 16
  let lowBound := arg1 &&& 0xFFFF
  let (px, py) ← ask m.touch
  match codeArg.toNat with
  | 0 => pushIf skipExecution !(lowBound ≤ px.toUInt32 ∧ highBound ≥ px.toUInt32)
  | 1 => pushIf skipExecution !(lowBound ≤ py.toUInt32 ∧ highBound ≥ py.toUInt32)
  | _ => throw ()

/-- DF with 0: between the offsets, and from them to the data. -/
def typeDF0 (arg1 : UInt32) : VmM ω Unit :=
  modifyState fun s =>
    if arg1 &&& 0x00010000 ≠ 0 then
      if arg1 &&& 1 ≠ 0 then { s with offset2 := s.offset1 } else { s with offset1 := s.offset2 }
    else if arg1 &&& 0x00020000 ≠ 0 then
      if arg1 &&& 1 ≠ 0 then { s with data2 := s.offset2 } else { s with data1 := s.offset1 }
    else { s with activeOffset := arg1 &&& 1 ≠ 0 }

/-- DF with 1: between the data, and from them to the offsets. -/
def typeDF1 (arg1 : UInt32) : VmM ω Unit :=
  modifyState fun s =>
    if arg1 &&& 0x00010000 ≠ 0 then
      if arg1 &&& 1 ≠ 0 then { s with data2 := s.data1 } else { s with data1 := s.data2 }
    else if arg1 &&& 0x00020000 ≠ 0 then
      if arg1 &&& 1 ≠ 0 then { s with offset2 := s.data2 } else { s with offset1 := s.data1 }
    else { s with activeData := arg1 &&& 1 ≠ 0 }

/-- DF with 2: between the data and the storage of the cheat. -/
def typeDF2 (arg1 : UInt32) : VmM ω Unit :=
  modify fun vm =>
    if arg1 &&& 0x00010000 ≠ 0 then
      if arg1 &&& 1 ≠ 0 then { vm with state := { vm.state with data2 := vm.cheat.storage2 } }
      else { vm with state := { vm.state with data1 := vm.cheat.storage1 } }
    else if arg1 &&& 0x00020000 ≠ 0 then
      if arg1 &&& 1 ≠ 0 then { vm with cheat := { vm.cheat with storage2 := vm.state.data2 } }
      else { vm with cheat := { vm.cheat with storage1 := vm.state.data1 } }
    else { vm with cheat := { vm.cheat with activeStorage := arg1 &&& 1 ≠ 0 } }

def CheatState.setDataMode (s : CheatState) (mode : Bool) : CheatState :=
  if s.activeData then { s with data2Mode := mode } else { s with data1Mode := mode }

/-- DF with E: the mode of the active data, and its conversion. -/
def typeDFE (arg1 : UInt32) : VmM ω Unit :=
  match arg1.toNat with
  | 0x0 => modifyState fun s => s.setDataMode false
  | 0x1 => modifyState fun s => s.setDataMode true
  | 0x10 => modifyState fun s => (s.setDataMode false).setData (m.floatToInt s.data)
  | 0x11 => modifyState fun s => (s.setDataMode true).setData (m.intToFloat s.data)
  | _ => throw ()

def typeDF (codeArg arg1 : UInt32) : VmM ω Unit :=
  match codeArg.toNat with
  | 0x0 => typeDF0 arg1
  | 0x1 => typeDF1 arg1
  | 0x2 => typeDF2 arg1
  | 0xE => typeDFE m arg1
  | 0xF => if arg1 < 5 then modifyState fun s => { s with conditionalMode := arg1 } else throw ()
  | _ => throw ()

/-! ## Blocks of bytes -/

def typeEMapping : List Nat := [4 <<< 3, 5 <<< 3, 6 <<< 3, 7 <<< 3, 0 <<< 3, 1 <<< 3, 2 <<< 3, 3 <<< 3]

/-- `Cheat_GetNextTypeE`. -/
def getNextTypeE (codes : List UInt64) : VmM ω UInt8 := do
  modifyState fun s =>
    if s.typeEIdx = 7 then { s with typeEIdx := 0, typeELine := s.typeELine + 1 } else { s with typeEIdx := s.typeEIdx + 1 }
  let vm ← get
  let code ← codeAt m codes vm.state.typeELine.toNat
  pure (code >>> UInt64.ofNat (typeEMapping.getD vm.state.typeEIdx.toNat 0)).toUInt8

/-- The bytes of an E type from the `i`th on. -/
def typeELoop (codes : List UInt64) (skipExecution : Bool) (beginOffset : UInt32) : Nat → UInt32 → VmM ω Unit
  | 0, _ => pure ()
  | left + 1, i => do
    let byte ← getNextTypeE m codes
    unlessSkipped skipExecution (write8 m (beginOffset + i) byte)
    typeELoop codes skipExecution beginOffset left (i + 1)

def typeE (codes : List UInt64) (skipExecution : Bool) (arg0 arg1 : UInt32) : VmM ω Unit := do
  modifyState fun s => { s with typeELine := s.index.toUInt8, typeEIdx := 7 }
  typeELoop m codes skipExecution (arg0 &&& 0x0FFFFFFF) arg1.toNat 0
  modifyState fun s => { s with index := s.typeELine.toUInt32 }

/-- FC: a byte from the second offset to the first one. -/
def typeFCLoop : Nat → VmM ω Unit
  | 0 => pure ()
  | left + 1 => do
    modifyState fun s => { s with activeOffset := true }
    let data ← read8 m 0
    modifyState fun s => { s with activeOffset := false }
    write8 m 0 data
    typeFCLoop left

def typeFC (arg1 : UInt32) : VmM ω Unit := do
  let vm ← get
  typeFCLoop m arg1.toNat
  modifyState fun s => { s with activeOffset := vm.state.activeOffset }

/-- Do the bytes at `i` differ from the pattern, which is in the code words from `base` on? -/
def differs (codes : List UInt64) (base : Nat) (i : UInt32) : Nat → Nat → VmM ω Bool
  | 0, _ => pure false
  | left + 1, j => do
    let curVal ← read8 m (i + UInt32.ofNat j)
    let code ← codeAt m codes (base + j / 8)
    if curVal ≠ (code >>> UInt64.ofNat (8 * (j % 8))).toUInt8 then pure true else differs codes base i left (j + 1)

/-- The search over the places from `i` on. -/
def searchLoop (codes : List UInt64) (base searchSize : Nat) : Nat → UInt32 → Bool → VmM ω Bool
  | 0, _, newSkip => pure newSkip
  | left + 1, i, _ => do
    let newSkip ← differs m codes base i searchSize 0
    if newSkip then searchLoop codes base searchSize left (i + 1) newSkip else pure newSkip

/-- FE: a search for a pattern, which follows in the code. -/
def typeFE (codes : List UInt64) (skipExecution : Bool) (arg0 arg1 : UInt32) : VmM ω Unit := do
  let vm ← get
  let index := vm.state.index
  let searchSize := arg0 &&& 0xFFFF
  if searchSize ≤ arg1 ∧ searchSize + index < UInt32.ofNat codes.length then
    if skipExecution then pushIf skipExecution true
    else do
      modifyState fun s => { s with index := index + searchSize / 8 + (if searchSize &&& 7 ≠ 0 then 1 else 0) }
      let newSkip ← searchLoop m codes (index.toNat + 1) searchSize.toNat (arg1 - searchSize).toNat 0 true
      pushIf skipExecution newSkip
  else throw ()

/-! ## Arithmetic -/

/-- F1, F2 and F3: a word of memory read, changed and written back. -/
def updateWord (arg0 : UInt32) (op : CheatState → UInt32 → VmM ω UInt32) : VmM ω Unit := do
  let vm ← get
  let value ← read32 m (arg0 &&& 0x00FFFFFF)
  let value ← op vm.state value
  write32 m (arg0 &&& 0x00FFFFFF) value

def typeF1 (arg0 arg1 : UInt32) : VmM ω Unit :=
  updateWord m arg0 fun s value => pure (if s.floatMode then m.floatAdd value arg1 else value + arg1)

def typeF2 (arg0 arg1 : UInt32) : VmM ω Unit :=
  updateWord m arg0 fun s value => pure (if s.floatMode then m.floatMul value arg1 else value * arg1)

def typeF3 (arg0 arg1 : UInt32) : VmM ω Unit :=
  updateWord m arg0 fun s value => if s.floatMode then pure (m.floatDiv value arg1) else divide m value arg1

/-- F4 to FB: the active data changed. -/
def updateData (op : CheatState → UInt32 → VmM ω UInt32) : VmM ω Unit := do
  let vm ← get
  let value ← op vm.state vm.state.data
  modifyState fun s => s.setData value

def typeF4 (arg1 : UInt32) : VmM ω Unit :=
  updateData fun s value => pure (if s.data1Mode then m.floatMul value arg1 else value * arg1)

def typeF5 (arg1 : UInt32) : VmM ω Unit :=
  updateData fun s value => if s.data1Mode then pure (m.floatDiv value arg1) else divide m value arg1

def typeFA (arg1 : UInt32) : VmM ω Unit := updateData fun _ value => shiftLeft m value arg1

def typeFB (arg1 : UInt32) : VmM ω Unit := updateData fun _ value => shiftRight m value arg1

/-- FF: a random number from the range. -/
def typeFF (arg0 arg1 : UInt32) : VmM ω Unit := do
  let range := arg1 - (arg0 &&& 0xFFFFFF)
  let random ← getRandomNumber
  let number ← remainder m random range
  modifyState fun s => s.setData ((arg0 &&& 0xFFFFFF) + number)

/-! ## Instructions -/

def typeB (arg0 : UInt32) : VmM ω Unit := do
  let value ← read32 m (arg0 &&& 0x0FFFFFFF)
  modifyState fun s => s.setOffset value

def typeD (codes : List UInt64) (skipExecution : Bool) (subcode codeArg arg1 : UInt32) : VmM ω Unit :=
  match subcode.toNat with
  | 0x0 => typeD0 m codes skipExecution arg1
  | 0x1 => typeD1
  | 0x2 => typeD2 codes skipExecution arg1
  | 0x3 => unlessSkipped skipExecution (typeD3 codeArg arg1)
  | 0x4 => unlessSkipped skipExecution (typeD4 codeArg arg1)
  | 0x5 => unlessSkipped skipExecution (typeD5 codeArg arg1)
  | 0x6 => unlessSkipped skipExecution (typeD6 m codeArg arg1)
  | 0x7 => unlessSkipped skipExecution (typeD7 m codeArg arg1)
  | 0x8 => unlessSkipped skipExecution (typeD8 m codeArg arg1)
  | 0x9 => unlessSkipped skipExecution (typeD9 m codeArg arg1)
  | 0xA => unlessSkipped skipExecution (typeDA m codeArg arg1)
  | 0xB => unlessSkipped skipExecution (typeDB m codeArg arg1)
  | 0xC => unlessSkipped skipExecution (typeDC arg1)
  | 0xD => typeDD m skipExecution arg1
  | 0xE => typeDE m skipExecution codeArg arg1
  | 0xF => typeDF m codeArg arg1
  | _ => throw ()

def typeF (codes : List UInt64) (skipExecution : Bool) (subcode arg0 arg1 : UInt32) : VmM ω Unit :=
  if arg0 = 0xF0F00000 then throw ()
  else
    match subcode.toNat with
    | 0x0 => unlessSkipped skipExecution (modifyState fun s => { s with floatMode := arg1 &&& 1 ≠ 0 })
    | 0x1 => unlessSkipped skipExecution (typeF1 m arg0 arg1)
    | 0x2 => unlessSkipped skipExecution (typeF2 m arg0 arg1)
    | 0x3 => unlessSkipped skipExecution (typeF3 m arg0 arg1)
    | 0x4 => unlessSkipped skipExecution (typeF4 m arg1)
    | 0x5 => unlessSkipped skipExecution (typeF5 m arg1)
    | 0x6 => unlessSkipped skipExecution (updateData fun _ value => pure (value &&& arg1))
    | 0x7 => unlessSkipped skipExecution (updateData fun _ value => pure (value ||| arg1))
    | 0x8 => unlessSkipped skipExecution (updateData fun _ value => pure (value ^^^ arg1))
    | 0x9 => unlessSkipped skipExecution (updateData fun _ value => pure (~~~ value))
    | 0xA => unlessSkipped skipExecution (typeFA m arg1)
    | 0xB => unlessSkipped skipExecution (typeFB m arg1)
    | 0xC => unlessSkipped skipExecution (typeFC m arg1)
    | 0xE => typeFE m codes skipExecution arg0 arg1
    | 0xF => unlessSkipped skipExecution (typeFF m arg0 arg1)
    | _ => throw ()

/-- The `switch` over the type of a code. -/
def execute (codes : List UInt64) (skipExecution : Bool) (arg0 arg1 : UInt32) : VmM ω Unit :=
  let subcode := (arg0 >>> 24) &&& 0x0F
  let codeArg := arg0 &&& 0x0F
  let cond32 (cmp : UInt32 → UInt32 → Bool) := conditional32 m skipExecution arg0 arg1 cmp
  let cond16 (cmp : UInt32 → UInt32 → Bool) := conditional16 m skipExecution arg0 arg1 cmp
  match ((arg0 >>> 28) &&& 0x0F).toNat with
  | 0x0 => unlessSkipped skipExecution (write32 m (arg0 &&& 0x0FFFFFFF) arg1)
  | 0x1 => unlessSkipped skipExecution (write16 m (arg0 &&& 0x0FFFFFFF) (arg1 &&& 0xFFFF).toUInt16)
  | 0x2 => unlessSkipped skipExecution (write8 m (arg0 &&& 0x0FFFFFFF) (arg1 &&& 0xFF).toUInt8)
  | 0x3 => cond32 fun a b => a < b
  | 0x4 => cond32 fun a b => a > b
  | 0x5 => cond32 fun a b => a = b
  | 0x6 => cond32 fun a b => a ≠ b
  | 0x7 => cond16 fun a b => a < b
  | 0x8 => cond16 fun a b => a > b
  | 0x9 => cond16 fun a b => a = b
  | 0xA => cond16 fun a b => a ≠ b
  | 0xB => unlessSkipped skipExecution (typeB m arg0)
  | 0xC => typeC subcode arg1
  | 0xD => typeD m codes skipExecution subcode codeArg arg1
  | 0xE => typeE m codes skipExecution arg0 arg1
  | 0xF => typeF m codes skipExecution subcode arg0 arg1
  | _ => throw ()

/-- One turn of the loop of `Cheat_ApplyCheat`. -/
def step (codes : List UInt64) : VmM ω Unit := do
  let vm ← get
  let code ← codeAt m codes vm.state.index.toNat
  let arg0 := (code >>> 32).toUInt32
  let arg1 := code.toUInt32
  if arg0 = 0 ∧ arg1 = 0 then throw ()
  else do
    execute m codes (vm.state.ifStack &&& 1 ≠ 0) arg0 arg1
    modifyState fun s => { s with index := s.index + 1 }

/-- The loop: what the function returns and the interpreter then, or none if it has not returned
within the fuel. -/
def applyLoop (codes : List UInt64) : Nat → Vm ω → Option (UInt32 × Vm ω)
  | 0, _ => none
  | fuel + 1, vm =>
    if vm.state.index.toNat < codes.length then
      match (step m codes).run.run vm with
      | (.ok _, vm) => applyLoop codes fuel vm
      | (.error _, vm) => some (0, vm)
    else some (1, vm)

/-- `Cheat_ApplyCheat`. -/
def applyCheat (codes : List UInt64) (fuel : Nat) (vm : Vm ω) : Option (UInt32 × Vm ω) :=
  applyLoop m codes fuel { vm with state := vm.state.start }

end

/-! ## A machine without memory -/

/-- A game of which no memory can be read or written, and no input. -/
def emptyMachine : Machine Unit where
  query := fun w _ => (none, w)
  read := fun w _ _ => (none, w)
  write := fun w _ _ _ => (false, w)
  pad := fun w => (0, w)
  touch := fun w => ((0, 0), w)
  floatAdd := fun a _ => a
  floatMul := fun a _ => a
  floatDiv := fun a _ => a
  floatToInt := id
  intToFloat := id
  codeBehind := fun _ => 0
  divZero := fun _ => 0
  modZero := fun a => a
  shiftLeftOver := fun _ _ => 0
  shiftRightOver := fun _ _ => 0

/-- The interpreter before its first cheat: all of it is zero. -/
def firstVm : Vm Unit where
  state := {
    index := 0, offset1 := 0, offset2 := 0, data1 := 0, data2 := 0, activeOffset := false, activeData := false,
    conditionalMode := 0, data1Mode := false, data2Mode := false, floatMode := false, typeELine := 0, typeEIdx := 0,
    loopLine := 0, loopCount := 0, ifStack := 0, storedStack := 0, ifCount := 0, storedIfCount := 0 }
  cheat := ⟨false, 0, 0⟩
  cheatRngState := 0
  cheatPage := fun _ => 0
  world := ()
  uses := []

end Omiiba.Rosalina
