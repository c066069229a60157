/-
The registers of a thread in the debugger, after regs.c: the four packets that read and write them, all at once and
one by one.
-/
import Omiiba.Rosalina.GdbFrame
import Omiiba.Rosalina.GdbPacket
import Mathlib.Data.List.TakeWhile

namespace Omiiba.Rosalina

/-! ## Thread contexts -/

/-- `sizeof(ThreadContext)`: r0 to r12, sp, lr, pc and cpsr, then d0 to d15, fpscr and fpexc. -/
def threadContextSize : Nat := 204

/-- `ThreadContextControlFlags`. -/
structure ContextFlags where
  cpuGprs : Bool
  cpuSprs : Bool
  fpuGprs : Bool
  fpuSprs : Bool
  deriving DecidableEq

def ContextFlags.all : ContextFlags := ⟨true, true, true, true⟩

def ContextFlags.none : ContextFlags := ⟨false, false, false, false⟩

/-- The flags name the group that a byte of a context belongs to. -/
def ContextFlags.covers (flags : ContextFlags) (x : Nat) : Bool :=
  if x < 52 then flags.cpuGprs
  else if x < 68 then flags.cpuSprs
  else if x < 196 then flags.fpuGprs
  else x < 204 && flags.fpuSprs

/-- What of `GDBContext` has to do with the registers, with the contexts of the threads that there are. -/
structure RegsCtx where
  selectedThreadId : UInt32
  currentThreadId : UInt32
  threads : UInt32 → Option (Memory UInt8)

/-- `svcGetDebugThreadContext`: the groups that are asked for; the rest of `regs` stays what it is. -/
def getDebugThreadContext (regs : Memory UInt8) (ctx : RegsCtx) (flags : ContextFlags) : Option (Memory UInt8) :=
  (ctx.threads ctx.selectedThreadId).map fun thread x => if flags.covers x then thread x else regs x

/-- `svcSetDebugThreadContext`. -/
def setDebugThreadContext (ctx : RegsCtx) (regs : Memory UInt8) (flags : ContextFlags) : Option RegsCtx :=
  (ctx.threads ctx.selectedThreadId).map fun thread =>
    let written : Memory UInt8 := fun x => if flags.covers x then regs x else thread x
    { ctx with threads := Function.update ctx.threads ctx.selectedThreadId (some written) }

/-! ## The packets -/

inductive RegsErrno
  | eperm
  | eilseq
  | einval
  deriving DecidableEq

inductive RegsReply
  | ok
  | errno (e : RegsErrno)
  | hex (text : List UInt8)
  deriving DecidableEq

/-- The data of a packet, up to the terminator. -/
abbrev PacketText := { text : List UInt8 // 0 ∉ text }

/-- The choice of the thread that each of the handlers begins with. -/
def RegsCtx.select (ctx : RegsCtx) : RegsCtx :=
  if ctx.selectedThreadId = 0 then { ctx with selectedThreadId := ctx.currentThreadId } else ctx

/-- `GDB_ConvertRegisterNumber`. -/
def convertRegisterNumber (gdbNum : Nat) : Nat × ContextFlags :=
  if gdbNum ≤ 15 then
    (gdbNum, if gdbNum ≥ 13 then { ContextFlags.none with cpuSprs := true } else { ContextFlags.none with cpuGprs := true })
  else if gdbNum = 25 then (16, { ContextFlags.none with cpuSprs := true })
  else if gdbNum ≥ 26 ∧ gdbNum ≤ 41 then (gdbNum - 26, { ContextFlags.none with fpuGprs := true })
  else if gdbNum = 42 ∨ gdbNum = 43 then (gdbNum - 42, { ContextFlags.none with fpuSprs := true })
  else (0, ContextFlags.none)

/-- The address in a context of register `n` of a group, with its size: `r[n]`, `&sp + (n - 13)`, `d[n]` or
`&fpscr + n`. -/
def registerAddress (n : Nat) (flags : ContextFlags) : Nat × Nat :=
  if flags.cpuGprs then (4 * n, 4)
  else if flags.cpuSprs then (52 + 4 * (n - 13), 4)
  else if flags.fpuGprs then (68 + 8 * n, 8)
  else (196 + 4 * n, 4)

section Handlers

variable (regs : Memory UInt8) (ctx : RegsCtx) (text : PacketText)

/-- `ReadRegisters`; `regs` is what the stack holds before. -/
def readRegisters : RegsReply × RegsCtx :=
  let ctx := ctx.select
  match getDebugThreadContext regs ctx .all with
  | none => (.errno .eperm, ctx)
  | some regs => (.hex (encodeHex (regs.read 0 threadContextSize)), ctx)

/-- `WriteRegisters`. -/
def writeRegisters : RegsReply × RegsCtx :=
  let ctx := ctx.select
  let bytes := decodeHex threadContextSize text.val
  if bytes.length ≠ threadContextSize then (.errno .eperm, ctx)
  else
    match setDebugThreadContext ctx (regs.store 0 bytes) .all with
    | none => (.errno .eperm, ctx)
    | some ctx => (.ok, ctx)

/-- `ReadRegister`. -/
def readRegister : RegsReply × RegsCtx :=
  let ctx := ctx.select
  match parseHexIntegerList 1 0 text.val with
  | none => (.errno .eilseq, ctx)
  | some (gdbRegNum, _) =>
    let (n, flags) := convertRegisterNumber (gdbRegNum.headD 0)
    if flags = .none then (.errno .einval, ctx)
    else
      match getDebugThreadContext regs ctx flags with
      | none => (.errno .eperm, ctx)
      | some regs =>
        let (address, size) := registerAddress n flags
        (.hex (encodeHex (regs.read address size)), ctx)

/-- `WriteRegister`. -/
def writeRegister : RegsReply × RegsCtx :=
  let ctx := ctx.select
  match parseHexIntegerList 1 0x3D text.val with
  | none => (.errno .eilseq, ctx)
  | some (gdbRegNum, valueStart) =>
    if text.val.getD valueStart 0 ≠ 0x3D then (.errno .eilseq, ctx)
    else
      let value := text.val.drop (valueStart + 1)
      let (n, flags) := convertRegisterNumber (gdbRegNum.headD 0)
      if flags = .none then (.errno .einval, ctx)
      else
        let (address, size) := registerAddress n flags
        let bytes := decodeHex size value
        if bytes.length ≠ size ∨ value.getD (2 * size) 0 ≠ 0 then (.errno .einval, ctx)
        else
          match getDebugThreadContext regs ctx flags with
          | none => (.errno .eperm, ctx)
          | some regs =>
            match setDebugThreadContext ctx (regs.store address bytes) flags with
            | none => (.errno .eperm, ctx)
            | some ctx => (.ok, ctx)

end Handlers

/-! ## The registers of the protocol -/

/-- The numbers of the registers with their sizes, in the order of the bulk packets. -/
def registers : List (Nat × Nat) :=
  (List.range 16).map (fun i => (i, 4)) ++ [(25, 4)] ++ (List.range 16).map (fun i => (26 + i, 8)) ++ [(42, 4), (43, 4)]

/-- Where a register is among those of a list, from an offset on. -/
def placeIn (number : Nat) : Nat → List (Nat × Nat) → Option (Nat × Nat)
  | _, [] => none
  | off, (i, size) :: rest => if i = number then some (off, size) else placeIn number (off + size) rest

/-- The place of a register in a context and its size. -/
def place (number : Nat) : Option (Nat × Nat) := placeIn number 0 registers

/-- The address of the register with a number, with its size. -/
def numberAddress (number : Nat) : Nat × Nat :=
  registerAddress (convertRegisterNumber number).1 (convertRegisterNumber number).2

/-- The group of the register with a number. -/
def numberFlags (number : Nat) : ContextFlags := (convertRegisterNumber number).2

theorem placeIn_none {number : Nat} : ∀ {l : List (Nat × Nat)} (off : Nat), (∀ p ∈ l, p.1 ≠ number) →
    placeIn number off l = none
  | [], _, _ => rfl
  | (i, size) :: rest, off, h => by
    rw [placeIn, if_neg (h (i, size) List.mem_cons_self)]
    exact placeIn_none _ fun p hp => h p (List.mem_cons_of_mem _ hp)

/-- The handlers know the registers there are; their bytes are at the address that is computed, and all of the group
that is named. -/
theorem place_eq (number : Nat) :
    (numberFlags number = .none → place number = none) ∧
      (numberFlags number ≠ .none → place number = some (numberAddress number) ∧
        ∀ j < (numberAddress number).2, (numberFlags number).covers ((numberAddress number).1 + j) = true) := by
  by_cases hsmall : number < 44
  · have hall : ∀ number : Fin 44,
        (numberFlags number = .none → place number = none) ∧
        (numberFlags number ≠ .none → place number = some (numberAddress number) ∧
          ∀ j < (numberAddress number).2, (numberFlags number).covers ((numberAddress number).1 + j) = true) := by
      decide
    exact hall ⟨number, hsmall⟩
  · have hflags : numberFlags number = .none := by
      unfold numberFlags convertRegisterNumber
      rw [if_neg (by omega), if_neg (by omega), if_neg (by omega), if_neg (by omega)]
    have hregisters : ∀ p ∈ registers, p.1 < 44 := by decide
    refine ⟨fun _ => placeIn_none 0 fun p hp => ?_, fun h => absurd hflags h⟩
    have hlt := hregisters p hp
    omega

theorem place_some_iff {number off size : Nat} :
    place number = some (off, size) ↔ numberFlags number ≠ .none ∧ numberAddress number = (off, size) := by
  obtain ⟨hnone, hsome⟩ := place_eq number
  by_cases hflags : numberFlags number = .none
  · rw [hnone hflags]
    simp [hflags]
  · rw [(hsome hflags).1]
    simp [hflags]

/-- The registers are inside a context, and apart from each other. -/
theorem place_apart {n m off size off' size' : Nat} (h : place n = some (off, size)) (h' : place m = some (off', size')) :
    off + size ≤ threadContextSize ∧ (n ≠ m → off + size ≤ off' ∨ off' + size' ≤ off) := by
  have hlt : ∀ {number : Nat} {p : Nat × Nat}, place number = some p → number < 44 := by
    intro number p hp
    by_contra hge
    have hregisters : ∀ p ∈ registers, p.1 < 44 := by decide
    have hnone : place number = none := placeIn_none 0 fun p hp => by
      have hlt := hregisters p hp
      omega
    rw [hnone] at hp
    cases hp
  have hall : ∀ n m : Fin 44, ∀ p ∈ place n, ∀ p' ∈ place m,
      p.1 + p.2 ≤ threadContextSize ∧ ((n : Nat) ≠ m → p.1 + p.2 ≤ p'.1 ∨ p'.1 + p'.2 ≤ p.1) := by
    decide +kernel
  exact hall ⟨n, hlt h⟩ ⟨m, hlt h'⟩ _ h _ h'

/-! ## The texts of the packets -/

/-- `size` bytes in hexadecimal, and no more. -/
def HexText (size : Nat) (text : List UInt8) : Prop :=
  text.length = 2 * size ∧ ∀ c ∈ text, (Hex.digitValue c).isSome = true

/-- Each of the first `size` pairs has a digit as its second character. -/
def FullPairs : Nat → List UInt8 → Prop
  | 0, _ => True
  | size + 1, _ :: b :: text => (Hex.digitValue b).isSome = true ∧ FullPairs size text
  | _ + 1, _ => False

/-- A number in hexadecimal. -/
def NumberText (n : Nat) (ds : List UInt8) : Prop := ds ≠ [] ∧ Hex.value 0 ds = some n ∧ n < 2 ^ 32

/-- That many bytes are decoded of a text with full pairs, whatever the first characters of the pairs are. -/
theorem decodeHex_length_iff (size : Nat) : ∀ {text : List UInt8}, 0 ∉ text →
    ((decodeHex size text).length = size ↔ FullPairs size text) := by
  induction size with
  | zero =>
    intro text _
    simp [decodeHex, FullPairs]
  | succ size ih =>
    intro text hnul
    rcases text with _ | ⟨a, _ | ⟨b, text⟩⟩
    · simp [decodeHex, FullPairs]
    · simp [decodeHex, FullPairs]
    · simp only [List.mem_cons, not_or] at hnul
      obtain ⟨ha, hb, hrest⟩ := hnul
      rw [decodeHex, if_neg (by rintro (h | h); exacts [ha h.symm, hb h.symm]), FullPairs, ← ih hrest]
      unfold decodeHexDigit
      dsimp only
      cases Hex.digitValue b with
      | none => simp
      | some d => simp

theorem completePairs_length {size : Nat} : ∀ {text : List UInt8}, HexText size text →
    (completePairs size text).length = size ∧ decodeHex size text = completePairs size text := by
  induction size with
  | zero =>
    intro text _
    exact ⟨rfl, by simp [decodeHex, completePairs]⟩
  | succ size ih =>
    rintro text ⟨hlen, hdigits⟩
    rcases text with _ | ⟨a, _ | ⟨b, text⟩⟩
    · simp at hlen
    · simp at hlen
      omega
    · obtain ⟨high, hhigh⟩ := Option.isSome_iff_exists.mp (hdigits a (by simp))
      obtain ⟨low, hlow⟩ := Option.isSome_iff_exists.mp (hdigits b (by simp))
      obtain ⟨hlength, hsame⟩ := @ih text ⟨by simp at hlen; omega, fun c hc => hdigits c (by simp [hc])⟩
      rw [completePairs_digits hhigh hlow, decodeHex_digits hhigh hlow, hsame]
      exact ⟨by rw [List.length_cons, hlength], rfl⟩

theorem HexText.fullPairs {size : Nat} : ∀ {text : List UInt8}, HexText size text → FullPairs size text := by
  induction size with
  | zero =>
    intro text _
    trivial
  | succ size ih =>
    rintro text ⟨hlen, hdigits⟩
    match text with
    | [] => simp at hlen
    | [_] =>
      simp at hlen
      omega
    | a :: b :: text =>
      exact ⟨hdigits b (by simp), ih ⟨by simp at hlen; omega, fun c hc => hdigits c (by simp [hc])⟩⟩

/-! ## Numbers as they are read -/

/-- The digits that are read. -/
theorem readDigits_some {limit : Nat} : ∀ {s : List UInt8} {acc n : Nat} {rest : List UInt8},
    readDigits limit 16 acc s = some (n, rest) →
      ∃ ds, s = ds ++ rest ∧ Hex.value acc ds = some n ∧ (ds ≠ [] → n < limit) ∧
        ∀ c ∈ rest.head?, Hex.digitValue c = none
  | [], acc, n, rest, h => by
    cases h
    exact ⟨[], rfl, rfl, by simp, by simp⟩
  | c :: s, acc, n, rest, h => by
    rw [readDigits] at h
    cases hc : alnumValue c with
    | none =>
      rw [hc] at h
      cases h
      refine ⟨[], rfl, rfl, by simp, ?_⟩
      rintro x ⟨⟩
      cases hx : Hex.digitValue c with
      | none => rfl
      | some d => exact absurd ((alnumValue_of_digitValue hx).1.symm.trans hc) (by simp)
    | some d =>
      rw [hc] at h
      dsimp only at h
      split_ifs at h with hbase hlimit
      · cases h
        refine ⟨[], rfl, rfl, by simp, ?_⟩
        rintro x ⟨⟩
        cases hx : Hex.digitValue c with
        | none => rfl
        | some d' =>
          obtain ⟨hd, hlt⟩ := alnumValue_of_digitValue hx
          obtain rfl : d' = d := Option.some.inj (hd.symm.trans hc)
          omega
      · obtain ⟨ds, rfl, hvalue, hbound, hrest⟩ := readDigits_some h
        have hdigit := digitValue_of_alnumValue hc (by omega)
        refine ⟨c :: ds, rfl, ?_, fun _ => ?_, hrest⟩
        · rw [Hex.value, hdigit]
          dsimp only
          rw [Nat.mul_comm 16 acc]
          exact hvalue
        · rcases eq_or_ne ds [] with rfl | hne
          · cases hvalue
            omega
          · exact hbound hne

/-- A number that is read, with the spaces that may be in front of it. -/
theorem xstrtoul_some {s : List UInt8} {n pos : Nat} (h : xstrtoul (2 ^ 32) 16 false s = some (n, pos)) (hpos : pos ≠ 0) :
    ∃ spaces ds rest, s = spaces ++ (ds ++ rest) ∧ (∀ c ∈ spaces, isSpace c = true) ∧ NumberText n ds ∧
      pos = spaces.length + ds.length := by
  unfold xstrtoul at h
  simp only [Option.bind_eq_bind, Option.bind_eq_some_iff] at h
  obtain ⟨⟨neg, t⟩, hsign, ⟨base, t'⟩, hbase, ⟨acc, rest⟩, hdigits, h⟩ := h
  -- neither a sign nor a prefix is there
  have hplain : neg = false ∧ t = s.dropWhile isSpace := by
    unfold readSign at hsign
    rw [if_neg Bool.false_ne_true] at hsign
    split_ifs at hsign
    cases hsign
    exact ⟨rfl, rfl⟩
  have hnumber : base = 16 ∧ t' = t := by
    unfold readBase at hbase
    split_ifs at hbase <;> simp_all
  obtain ⟨rfl, rfl⟩ := hplain
  obtain ⟨rfl, rfl⟩ := hnumber
  obtain ⟨ds, hsplit, hvalue, hbound, _⟩ := readDigits_some hdigits
  dsimp only at h hsplit
  rw [if_neg (by simp), Option.pure_def, Option.some.injEq, Prod.mk.injEq] at h
  obtain ⟨rfl, hend⟩ := h
  have hall := congrArg List.length (List.takeWhile_append_dropWhile (p := isSpace) (l := s))
  rw [hsplit, List.length_append, List.length_append] at hall
  rw [hsplit, List.length_append] at hend
  split_ifs at hend with hmore
  · have hne : ds ≠ [] := by
      rintro rfl
      simp at hmore
    refine ⟨s.takeWhile isSpace, ds, rest, ?_, fun c hc => List.mem_takeWhile_imp hc, ⟨hne, hvalue, hbound hne⟩, by omega⟩
    rw [← hsplit, List.takeWhile_append_dropWhile]
  · exact absurd hend.symm hpos

/-- A number behind spaces is read. -/
theorem xstrtoul_spaces {spaces ds rest : List UInt8} {n : Nat} (hspaces : ∀ c ∈ spaces, isSpace c = true)
    (hnumber : NumberText n ds) (hrest : Ends rest) :
    xstrtoul (2 ^ 32) 16 false (spaces ++ (ds ++ rest)) = some (n, spaces.length + ds.length) := by
  obtain ⟨hne, hvalue, hn⟩ := hnumber
  have hplain := xstrtoul_hex hne hvalue hn hrest
  have hpos : 0 < ds.length := List.length_pos_iff.mpr hne
  have hfirst : (ds ++ rest).dropWhile isSpace = ds ++ rest := by
    obtain ⟨c, ds', rfl⟩ := List.exists_cons_of_ne_nil hne
    obtain ⟨d, hd⟩ := Option.isSome_iff_exists.mp (Hex.isDigit_of_value hvalue c List.mem_cons_self)
    have hspace := (isSpace_of_alnum (c := c) (by rw [(alnumValue_of_digitValue hd).1]; rfl)).1
    simp [hspace]
  have hdrop : (spaces ++ (ds ++ rest)).dropWhile isSpace = ds ++ rest := by
    rw [List.dropWhile_append_of_pos hspaces, hfirst]
  unfold xstrtoul at hplain ⊢
  rw [hdrop]
  rw [hfirst] at hplain
  simp only [Option.bind_eq_bind, Option.bind_eq_some_iff] at hplain ⊢
  obtain ⟨signed, hsign, based, hbase, digits, hdigits, hend⟩ := hplain
  refine ⟨signed, hsign, based, hbase, digits, hdigits, ?_⟩
  rw [Option.pure_def, Option.some.injEq, Prod.mk.injEq] at hend ⊢
  refine ⟨hend.1, ?_⟩
  have hlength := hend.2
  rw [@List.length_append _ spaces]
  split_ifs at hlength ⊢ <;> omega

/-- A number is followed by the separator or by the end of the text. -/
def NumberEnds (sep : UInt8) (rest : List UInt8) : Prop := rest = [] ∨ rest.head? = some sep

/-- What is read as one number: one in hexadecimal, also with spaces in front of it. -/
theorem parseHexIntegerList_iff {sep : UInt8} (hsep : sep = 0 ∨ sep = 0x3D) {text : List UInt8} (hnul : 0 ∉ text)
    {ns : List Nat} {pos : Nat} :
    parseHexIntegerList 1 sep text = some (ns, pos) ↔
      ∃ spaces ds rest n, text = spaces ++ (ds ++ rest) ∧ (∀ c ∈ spaces, isSpace c = true) ∧ NumberText n ds ∧
        NumberEnds sep rest ∧ ns = [n] ∧ pos = spaces.length + ds.length := by
  have hnext : ∀ (spaces ds rest : List UInt8),
      (spaces ++ (ds ++ rest)).getD (spaces.length + ds.length) 0 = rest.headD 0 := by
    intro spaces ds rest
    rw [← List.append_assoc, ← List.length_append]
    cases rest <;> simp [List.getD_eq_getElem?_getD]
  constructor
  · intro h
    unfold parseHexIntegerList parseIntegerList at h
    simp only [Option.bind_eq_bind, Option.bind_eq_some_iff, if_true] at h
    obtain ⟨⟨n, endpos⟩, hread, h⟩ := h
    dsimp only at h
    split_ifs at h with hzero hend
    cases h
    obtain ⟨spaces, ds, rest, rfl, hspaces, hnumber, rfl⟩ := xstrtoul_some hread hzero
    refine ⟨spaces, ds, rest, n, rfl, hspaces, hnumber, ?_, rfl, rfl⟩
    rw [hnext] at hend
    cases rest with
    | nil => exact Or.inl rfl
    | cons c rest =>
      have hc : c ≠ 0 := by
        rintro rfl
        exact hnul (by simp)
      right
      by_contra hne
      exact hend ⟨fun h => hne (congrArg some h), hc⟩
  · rintro ⟨spaces, ds, rest, n, rfl, hspaces, hnumber, hend, rfl, rfl⟩
    have hrest : Ends rest := by
      rintro c hc
      rcases hend with rfl | hhead
      · cases hc
      · obtain rfl : c = sep := Option.some.inj (hc.symm.trans hhead)
        rcases hsep with rfl | rfl <;> decide
    have hpos : ds.length ≠ 0 := fun h => hnumber.1 (List.length_eq_zero_iff.mp h)
    unfold parseHexIntegerList parseIntegerList
    simp only [xstrtoul_spaces hspaces hnumber hrest, Option.bind_eq_bind, Option.bind_some, hnext, if_true]
    rw [if_neg (by omega), if_neg]
    rintro ⟨hne, hzero⟩
    rcases hend with rfl | hhead
    · exact hzero rfl
    · cases rest with
      | nil => cases hhead
      | cons c rest => exact hne (Option.some.inj hhead)

/-! ## What the packets mean -/

/-- The packets `g`, `G`, `p` and `P` with what is behind the letter. -/
inductive RegisterPacket
  | readAll (text : PacketText)
  | writeAll (text : PacketText)
  | read (text : PacketText)
  | write (text : PacketText)

def RegisterPacket.handle (regs : Memory UInt8) (ctx : RegsCtx) : RegisterPacket → RegsReply × RegsCtx
  | .readAll _ => readRegisters regs ctx
  | .writeAll text => writeRegisters regs ctx text
  | .read text => readRegister regs ctx text
  | .write text => writeRegister regs ctx text

/-- A well-formed packet: its reply, and what the context of the thread becomes. -/
inductive Means : RegisterPacket → (Memory UInt8 → RegsReply) → (Memory UInt8 → Memory UInt8) → Prop
  | readAll {text : PacketText} (hempty : text.val = []) :
      Means (.readAll text) (fun thread => .hex (encodeHex (thread.read 0 threadContextSize))) id
  | writeAll {text : PacketText} (htext : HexText threadContextSize text.val) :
      Means (.writeAll text) (fun _ => .ok) fun thread => thread.store 0 (completePairs threadContextSize text.val)
  | read {text : PacketText} {n off size : Nat} (hnumber : NumberText n text.val) (hplace : place n = some (off, size)) :
      Means (.read text) (fun thread => .hex (encodeHex (thread.read off size))) id
  | write {text : PacketText} {ds value : List UInt8} {n off size : Nat} (htext : text.val = ds ++ 0x3D :: value)
      (hnumber : NumberText n ds) (hplace : place n = some (off, size)) (hvalue : HexText size value) :
      Means (.write text) (fun _ => .ok) fun thread => thread.store off (completePairs size value)

/-- What the handlers take for a packet: there may be a text behind `g`, anything behind the pairs of `G`, any
character as the first one of a pair, and spaces in front of a number. -/
inductive Takes : RegisterPacket → (Memory UInt8 → RegsReply) → (Memory UInt8 → Memory UInt8) → Prop
  | readAll {text : PacketText} :
      Takes (.readAll text) (fun thread => .hex (encodeHex (thread.read 0 threadContextSize))) id
  | writeAll {text : PacketText} (htext : FullPairs threadContextSize text.val) :
      Takes (.writeAll text) (fun _ => .ok) fun thread => thread.store 0 (decodeHex threadContextSize text.val)
  | read {text : PacketText} {spaces ds : List UInt8} {n off size : Nat} (htext : text.val = spaces ++ ds)
      (hspaces : ∀ c ∈ spaces, isSpace c = true) (hnumber : NumberText n ds) (hplace : place n = some (off, size)) :
      Takes (.read text) (fun thread => .hex (encodeHex (thread.read off size))) id
  | write {text : PacketText} {spaces ds value : List UInt8} {n off size : Nat}
      (htext : text.val = spaces ++ (ds ++ 0x3D :: value)) (hspaces : ∀ c ∈ spaces, isSpace c = true)
      (hnumber : NumberText n ds) (hplace : place n = some (off, size)) (hpairs : FullPairs size value)
      (hlen : value.length = 2 * size) :
      Takes (.write text) (fun _ => .ok) fun thread => thread.store off (decodeHex size value)

/-- What is well formed is taken as it is meant. -/
theorem Means.takes {packet : RegisterPacket} {reply : Memory UInt8 → RegsReply} {effect : Memory UInt8 → Memory UInt8}
    (h : Means packet reply effect) : Takes packet reply effect := by
  cases h with
  | readAll _ => exact .readAll
  | writeAll htext =>
    rw [← (completePairs_length htext).2]
    exact .writeAll htext.fullPairs
  | read hnumber hplace => exact .read (List.nil_append _).symm (by simp) hnumber hplace
  | write htext hnumber hplace hvalue =>
    rw [← (completePairs_length hvalue).2]
    exact @Takes.write _ [] _ _ _ _ _ htext (by simp) hnumber hplace hvalue.fullPairs hvalue.1

/-- The thread that the packets are about. -/
def RegsCtx.thread (ctx : RegsCtx) : Option (Memory UInt8) := ctx.select.threads ctx.select.selectedThreadId

/-- The state with another context of that thread. -/
def RegsCtx.withThread (ctx : RegsCtx) (thread : Memory UInt8) : RegsCtx :=
  { ctx.select with threads := Function.update ctx.select.threads ctx.select.selectedThreadId (some thread) }

theorem withThread_self {ctx : RegsCtx} {thread : Memory UInt8} (h : ctx.thread = some thread) :
    ctx.withThread thread = ctx.select := by
  unfold RegsCtx.withThread
  rw [← h]
  unfold RegsCtx.thread
  rw [Function.update_eq_self]

/-- A packet is answered as it should: one that is well formed with what it means, any other one with an error, and
then nothing has changed. -/
structure Answered (packet : RegisterPacket) (regs : Memory UInt8) (ctx : RegsCtx) : Prop where
  meant : ∀ reply effect thread, Means packet reply effect → ctx.thread = some thread →
    packet.handle regs ctx = (reply thread, ctx.withThread (effect thread))
  refused : ((¬∃ reply effect, Means packet reply effect) ∨ ctx.thread = none) →
    ∃ e, packet.handle regs ctx = (.errno e, ctx.select)

section Packets

variable {regs : Memory UInt8} {ctx : RegsCtx} {text : PacketText}

theorem covers_all (x : Nat) : ContextFlags.all.covers x = decide (x < threadContextSize) := by
  unfold ContextFlags.covers ContextFlags.all threadContextSize
  split_ifs <;> simp <;> omega

/-- The groups that are transferred contain what is read. -/
theorem read_of_get {flags : ContextFlags} {off size : Nat} (hcovers : ∀ j < size, flags.covers (off + j) = true)
    (thread : Memory UInt8) :
    Memory.read (fun x => if flags.covers x then thread x else regs x) off size = thread.read off size := by
  rw [Memory.read_eq_iff]
  intro j hj
  rw [if_pos (hcovers j hj)]

/-- Of what is written back only the register differs from the thread. -/
theorem written_of_set {flags : ContextFlags} {off : Nat} {bytes : List UInt8} {regs thread : Memory UInt8}
    (hcovers : ∀ j < bytes.length, flags.covers (off + j) = true) (hsame : ∀ x, flags.covers x = true → regs x = thread x) :
    (fun x => if flags.covers x then regs.store off bytes x else thread x) = thread.store off bytes := by
  funext x
  by_cases hin : off ≤ x ∧ x < off + bytes.length
  · have hx := hcovers (x - off) (by omega)
    rw [Nat.add_sub_cancel' hin.1] at hx
    rw [if_pos hx, Memory.store_inside _ hin.1 (by omega), Memory.store_inside _ hin.1 (by omega)]
  · have hout : x < off ∨ off + bytes.length ≤ x := by omega
    rw [Memory.store_outside _ hout, Memory.store_outside _ hout]
    split_ifs with hx
    · exact hsame x hx
    · rfl

/-- The reply and the state of a packet that is taken. -/
def RegsCtx.outcome (ctx : RegsCtx) (reply : Memory UInt8 → RegsReply) (effect : Memory UInt8 → Memory UInt8) :
    RegsReply × RegsCtx :=
  match ctx.thread with
  | none => (.errno .eperm, ctx.select)
  | some thread => (reply thread, ctx.withThread (effect thread))

theorem readRegisters_eq :
    readRegisters regs ctx = ctx.outcome (fun thread => .hex (encodeHex (thread.read 0 threadContextSize))) id := by
  have hread := fun thread : Memory UInt8 => @read_of_get regs .all 0 threadContextSize (fun j hj => by
    rw [covers_all, Nat.zero_add]
    exact decide_eq_true hj) thread
  unfold readRegisters getDebugThreadContext RegsCtx.outcome
  dsimp only
  rw [show ctx.select.threads ctx.select.selectedThreadId = ctx.thread from rfl]
  cases hthread : ctx.thread with
  | none => rfl
  | some thread =>
    dsimp only [Option.map_some]
    rw [hread, id, withThread_self hthread]

theorem writeRegisters_eq (htext : FullPairs threadContextSize text.val) :
    writeRegisters regs ctx text =
      ctx.outcome (fun _ => .ok) fun thread => thread.store 0 (decodeHex threadContextSize text.val) := by
  have hlen := (decodeHex_length_iff threadContextSize text.property).mpr htext
  unfold writeRegisters setDebugThreadContext RegsCtx.outcome
  dsimp only
  rw [if_neg (not_not.mpr hlen), show ctx.select.threads ctx.select.selectedThreadId = ctx.thread from rfl]
  cases hthread : ctx.thread with
  | none => rfl
  | some thread =>
    dsimp only [Option.map_some]
    -- the bytes are the whole context
    have hwritten : (fun x => if ContextFlags.all.covers x then
        regs.store 0 (decodeHex threadContextSize text.val) x else thread x) =
        thread.store 0 (decodeHex threadContextSize text.val) := by
      funext x
      rw [covers_all]
      by_cases hx : x < threadContextSize
      · rw [if_pos (decide_eq_true hx), Memory.store_inside _ (Nat.zero_le x) (by omega),
          Memory.store_inside _ (Nat.zero_le x) (by omega)]
      · rw [if_neg (by simpa using hx), Memory.store_outside _ (Or.inr (by omega))]
    rw [hwritten]
    rfl

theorem readRegister_eq {spaces ds : List UInt8} {n off size : Nat} (htext : text.val = spaces ++ ds)
    (hspaces : ∀ c ∈ spaces, isSpace c = true) (hnumber : NumberText n ds) (hplace : place n = some (off, size)) :
    readRegister regs ctx text = ctx.outcome (fun thread => .hex (encodeHex (thread.read off size))) id := by
  obtain ⟨hflags, haddress⟩ := place_some_iff.mp hplace
  have hcovers := ((place_eq n).2 hflags).2
  rw [haddress] at hcovers
  unfold numberFlags at hflags hcovers
  unfold numberAddress at haddress
  have hparse : parseHexIntegerList 1 0 text.val = some ([n], spaces.length + ds.length) :=
    (parseHexIntegerList_iff (Or.inl rfl) text.property).mpr
      ⟨spaces, ds, [], n, by rw [htext, List.append_nil], hspaces, hnumber, Or.inl rfl, rfl, rfl⟩
  unfold readRegister RegsCtx.outcome
  rw [hparse]
  dsimp only
  rw [List.headD_cons, if_neg hflags]
  unfold getDebugThreadContext
  rw [show ctx.select.threads ctx.select.selectedThreadId = ctx.thread from rfl]
  cases hthread : ctx.thread with
  | none => rfl
  | some thread =>
    dsimp only [Option.map_some]
    rw [haddress]
    dsimp only
    rw [read_of_get hcovers, id, withThread_self hthread]

theorem writeRegister_eq {spaces ds value : List UInt8} {n off size : Nat}
    (htext : text.val = spaces ++ (ds ++ 0x3D :: value)) (hspaces : ∀ c ∈ spaces, isSpace c = true)
    (hnumber : NumberText n ds) (hplace : place n = some (off, size)) (hpairs : FullPairs size value)
    (hlen : value.length = 2 * size) :
    writeRegister regs ctx text = ctx.outcome (fun _ => .ok) fun thread => thread.store off (decodeHex size value) := by
  obtain ⟨hflags, haddress⟩ := place_some_iff.mp hplace
  have hcovers := ((place_eq n).2 hflags).2
  rw [haddress] at hcovers
  unfold numberFlags at hflags hcovers
  unfold numberAddress at haddress
  have hnul : 0 ∉ value := fun h => text.property (by rw [htext]; simp [h])
  have hbytes := (decodeHex_length_iff size hnul).mpr hpairs
  have hparse : parseHexIntegerList 1 0x3D text.val = some ([n], spaces.length + ds.length) :=
    (parseHexIntegerList_iff (Or.inr rfl) text.property).mpr
      ⟨spaces, ds, 0x3D :: value, n, htext, hspaces, hnumber, Or.inr rfl, rfl, rfl⟩
  have hall : text.val = (spaces ++ ds) ++ 0x3D :: value := by rw [htext, List.append_assoc]
  have hat : text.val.getD (spaces.length + ds.length) 0 = 0x3D := by
    rw [hall, ← List.length_append]
    simp [List.getD_eq_getElem?_getD]
  have hvalue : text.val.drop (spaces.length + ds.length + 1) = value := by
    rw [hall, ← List.length_append, ← List.drop_drop, List.drop_left]
    rfl
  have hend : value.getD (2 * size) 0 = 0 := by
    rw [List.getD_eq_getElem?_getD, List.getElem?_eq_none (by omega)]
    rfl
  unfold writeRegister RegsCtx.outcome
  rw [hparse]
  dsimp only
  rw [hat, if_neg (by simp), List.headD_cons, if_neg hflags, hvalue, haddress]
  dsimp only
  rw [if_neg (by rintro (h | h); exacts [h hbytes, h hend])]
  unfold getDebugThreadContext setDebugThreadContext
  rw [show ctx.select.threads ctx.select.selectedThreadId = ctx.thread from rfl]
  cases hthread : ctx.thread with
  | none => rfl
  | some thread =>
    dsimp only [Option.map_some]
    rw [@written_of_set _ _ _ _ thread (by rw [hbytes]; exact hcovers) fun x hx => if_pos hx]
    rfl

/-- A packet that is taken. -/
theorem handle_takes {packet : RegisterPacket} {reply : Memory UInt8 → RegsReply} {effect : Memory UInt8 → Memory UInt8}
    (h : Takes packet reply effect) : packet.handle regs ctx = ctx.outcome reply effect := by
  cases h with
  | readAll => exact readRegisters_eq
  | writeAll htext => exact writeRegisters_eq htext
  | read htext hspaces hnumber hplace => exact readRegister_eq htext hspaces hnumber hplace
  | write htext hspaces hnumber hplace hpairs hlen => exact writeRegister_eq htext hspaces hnumber hplace hpairs hlen

theorem FullPairs.length_le {size : Nat} : ∀ {text : List UInt8}, FullPairs size text → 2 * size ≤ text.length := by
  induction size with
  | zero => simp
  | succ size ih =>
    intro text h
    match text with
    | [] => exact h.elim
    | [_] => exact h.elim
    | _ :: _ :: text =>
      have hrest := ih h.2
      simp only [List.length_cons]
      omega

theorem readRegister_refuses (h : ¬∃ reply effect, Takes (.read text) reply effect) :
    ∃ e, readRegister regs ctx text = (.errno e, ctx.select) := by
  unfold readRegister
  dsimp only
  cases hparse : parseHexIntegerList 1 0 text.val with
  | none => exact ⟨.eilseq, rfl⟩
  | some parsed =>
    obtain ⟨spaces, ds, rest, n, htext, hspaces, hnumber, hends, hns, _⟩ :=
      (parseHexIntegerList_iff (Or.inl rfl) text.property).mp hparse
    obtain rfl : rest = [] := by
      rcases hends with hnil | hhead
      · exact hnil
      · -- the terminator is not in the text
        cases rest with
        | nil => rfl
        | cons c rest =>
          obtain rfl : c = 0 := Option.some.inj hhead
          exact absurd (by rw [htext]; simp : 0 ∈ text.val) text.property
    dsimp only
    rw [hns, List.headD_cons]
    split_ifs with hflags
    · exact ⟨.einval, rfl⟩
    · have hplace := ((place_eq n).2 hflags).1
      exact absurd ⟨_, _, .read (by rw [htext, List.append_nil]) hspaces hnumber hplace⟩ h

theorem writeRegister_refuses (h : ¬∃ reply effect, Takes (.write text) reply effect) :
    ∃ e, writeRegister regs ctx text = (.errno e, ctx.select) := by
  unfold writeRegister
  dsimp only
  cases hparse : parseHexIntegerList 1 0x3D text.val with
  | none => exact ⟨.eilseq, rfl⟩
  | some parsed =>
    obtain ⟨spaces, ds, rest, n, htext, hspaces, hnumber, _, hns, hpos⟩ :=
      (parseHexIntegerList_iff (Or.inr rfl) text.property).mp hparse
    have hall : text.val = (spaces ++ ds) ++ rest := by rw [htext, List.append_assoc]
    dsimp only
    rw [hns, hpos, List.headD_cons]
    split_ifs with hsep hflags hvalue
    · exact ⟨.eilseq, rfl⟩
    · exact ⟨.einval, rfl⟩
    · exact ⟨.einval, rfl⟩
    · -- then it is taken
      have hhead : rest.headD 0 = 0x3D := by
        rw [hall, ← List.length_append] at hsep
        cases rest with
        | nil => simp [List.getD_eq_getElem?_getD] at hsep
        | cons c rest => simpa [List.getD_eq_getElem?_getD] using hsep
      cases rest with
      | nil => cases hhead
      | cons c value =>
        obtain rfl : c = 0x3D := hhead
        have hdrop : text.val.drop (spaces.length + ds.length + 1) = value := by
          rw [hall, ← List.length_append, ← List.drop_drop, List.drop_left]
          rfl
        have hnul : 0 ∉ value := fun hv => text.property (by rw [htext]; simp [hv])
        have hplace := ((place_eq n).2 hflags).1
        rw [hdrop, not_or, not_not, not_not] at hvalue
        obtain ⟨hbytes, hend⟩ := hvalue
        have hpairs := (decodeHex_length_iff _ hnul).mp hbytes
        have hle := hpairs.length_le
        refine absurd ⟨_, _, .write htext hspaces hnumber hplace hpairs ?_⟩ h
        by_contra hne
        have hlt : 2 * (numberAddress n).2 < value.length := lt_of_le_of_ne hle (Ne.symm hne)
        have hchar : value.getD (2 * (numberAddress n).2) 0 ∈ value := by
          rw [List.getD_eq_getElem?_getD, List.getElem?_eq_getElem hlt]
          exact List.getElem_mem _
        exact hnul (hend ▸ hchar)

/-- A packet that is not taken is answered with an error. -/
theorem handle_refuses {packet : RegisterPacket} (h : ¬∃ reply effect, Takes packet reply effect) :
    ∃ e, packet.handle regs ctx = (.errno e, ctx.select) := by
  cases packet with
  | readAll text => exact absurd ⟨_, _, .readAll⟩ h
  | writeAll text =>
    refine ⟨.eperm, ?_⟩
    show writeRegisters regs ctx text = _
    unfold writeRegisters
    dsimp only
    rw [if_pos fun hlen => h ⟨_, _, .writeAll ((decodeHex_length_iff _ text.property).mp hlen)⟩]
  | read text => exact readRegister_refuses h
  | write text => exact writeRegister_refuses h

theorem Takes.reply_ne {packet : RegisterPacket} {reply : Memory UInt8 → RegsReply} {effect : Memory UInt8 → Memory UInt8}
    (h : Takes packet reply effect) (thread : Memory UInt8) (e : RegsErrno) : reply thread ≠ .errno e := by
  cases h <;> simp

/-- A packet is answered as it should exactly when it is not taken for one that it is not. -/
theorem answered_iff (packet : RegisterPacket) : Answered packet regs ctx ↔
    (ctx.thread ≠ none → (∃ reply effect, Takes packet reply effect) → ∃ reply effect, Means packet reply effect) := by
  constructor
  · rintro h hthread ⟨reply, effect, htakes⟩
    by_contra hmeans
    obtain ⟨e, hrefused⟩ := h.refused (Or.inl hmeans)
    obtain ⟨thread, hthread⟩ := Option.ne_none_iff_exists'.mp hthread
    rw [handle_takes htakes] at hrefused
    unfold RegsCtx.outcome at hrefused
    rw [hthread] at hrefused
    exact htakes.reply_ne thread e (congrArg Prod.fst hrefused)
  · intro h
    refine ⟨fun reply effect thread hmeans hthread => ?_, ?_⟩
    · rw [handle_takes hmeans.takes]
      unfold RegsCtx.outcome
      rw [hthread]
    · intro hwhy
      by_cases htakes : ∃ reply effect, Takes packet reply effect
      · have hnone : ctx.thread = none := by
          rcases hwhy with hmeans | hnone
          · by_contra hthread
            exact hmeans (h hthread htakes)
          · exact hnone
        obtain ⟨reply, effect, htakes⟩ := htakes
        refine ⟨.eperm, ?_⟩
        rw [handle_takes htakes]
        unfold RegsCtx.outcome
        rw [hnone]
      · exact handle_refuses htakes

end Packets

/-! ## What is written is read again -/

theorem digit_of_mem_encodeHex {bytes : List UInt8} {c : UInt8} (h : c ∈ encodeHex bytes) :
    (Hex.digitValue c).isSome = true := by
  obtain ⟨b, _, hc⟩ := List.mem_flatMap.mp h
  have hb := b.toNat_lt
  rcases List.mem_pair.mp hc with rfl | rfl
  · exact Hex.digit_isDigit (by omega)
  · exact Hex.digit_isDigit (by omega)

theorem hexText_encodeHex (bytes : List UInt8) : HexText bytes.length (encodeHex bytes) :=
  ⟨encodeHex_length bytes, fun _ hc => digit_of_mem_encodeHex hc⟩

theorem completePairs_encodeHex (bytes : List UInt8) : completePairs bytes.length (encodeHex bytes) = bytes := by
  rw [← (completePairs_length (hexText_encodeHex bytes)).2]
  have hdecode := decodeHex_encodeHex bytes []
  rwa [List.append_nil] at hdecode

/-- A part of what is encoded. -/
theorem encodeHex_part (bytes : List UInt8) (off size : Nat) :
    ((encodeHex bytes).drop (2 * off)).take (2 * size) = encodeHex ((bytes.drop off).take size) := by
  have hsplit : bytes = bytes.take off ++ ((bytes.drop off).take size ++ (bytes.drop off).drop size) := by
    rw [List.take_append_drop, List.take_append_drop]
  have happend : ∀ as bs : List UInt8, encodeHex (as ++ bs) = encodeHex as ++ encodeHex bs := fun as bs =>
    List.flatMap_append
  rcases Nat.le_total bytes.length off with hle | hle
  · rw [List.drop_of_length_le (l := bytes) hle, List.drop_of_length_le (by rw [encodeHex_length]; omega)]
    simp [encodeHex]
  · conv_lhs => rw [hsplit, happend, happend]
    rw [List.drop_left' (by rw [encodeHex_length, List.length_take]; omega)]
    rcases Nat.le_total (bytes.length - off) size with hall | hall
    · have hnone : (bytes.drop off).drop size = [] := List.drop_of_length_le (by rw [List.length_drop]; omega)
      rw [hnone, show encodeHex [] = [] from rfl, List.append_nil, List.take_of_length_le]
      rw [encodeHex_length, List.length_take]
      omega
    · rw [List.take_left' (by rw [encodeHex_length, List.length_take, List.length_drop]; omega)]

/-- A register is at its place in the bytes of a context. -/
theorem read_part (thread : Memory UInt8) {off size : Nat} (h : off + size ≤ threadContextSize) :
    ((thread.read 0 threadContextSize).drop off).take size = thread.read off size := by
  obtain ⟨behind, hbehind⟩ := Nat.exists_eq_add_of_le h
  rw [hbehind, Nat.add_assoc, Memory.read_add, Nat.zero_add, List.drop_left' (Memory.read_length _ _ _), Memory.read_add,
    List.take_left' (Memory.read_length _ _ _)]

section Threads

variable {regs : Memory UInt8} {ctx : RegsCtx}

theorem select_select (ctx : RegsCtx) : ctx.select.select = ctx.select := by
  unfold RegsCtx.select
  split_ifs <;> simp_all

theorem thread_withThread (ctx : RegsCtx) (thread : Memory UInt8) : (ctx.withThread thread).thread = some thread := by
  have hselect : (ctx.withThread thread).select.selectedThreadId = ctx.select.selectedThreadId ∧
      (ctx.withThread thread).select.threads = (ctx.withThread thread).threads := by
    have htwice := select_select ctx
    unfold RegsCtx.withThread RegsCtx.select at *
    split_ifs at * <;> simp_all
  unfold RegsCtx.thread
  rw [hselect.1, hselect.2]
  exact Function.update_self _ _ _

/-- A well-formed packet for a thread that there is. -/
theorem handle_means {packet : RegisterPacket} {reply : Memory UInt8 → RegsReply} {effect : Memory UInt8 → Memory UInt8}
    {thread : Memory UInt8} (h : Means packet reply effect) (hthread : ctx.thread = some thread) :
    packet.handle regs ctx = (reply thread, ctx.withThread (effect thread)) := by
  rw [handle_takes h.takes]
  unfold RegsCtx.outcome
  rw [hthread]

/-- All registers, sent back as they came. -/
theorem writeRegisters_back {thread : Memory UInt8} (hthread : ctx.thread = some thread) {text : PacketText}
    (htext : text.val = encodeHex (thread.read 0 threadContextSize)) :
    writeRegisters regs ctx text = (.ok, ctx.select) := by
  have hlen : (thread.read 0 threadContextSize).length = threadContextSize := Memory.read_length _ _ _
  have hhex : HexText threadContextSize text.val := by
    rw [htext]
    have h := hexText_encodeHex (thread.read 0 threadContextSize)
    rwa [hlen] at h
  have hbytes : completePairs threadContextSize text.val = thread.read 0 threadContextSize := by
    have h := completePairs_encodeHex (thread.read 0 threadContextSize)
    rwa [hlen, ← htext] at h
  have hsame : thread.store 0 (thread.read 0 threadContextSize) = thread := by
    funext x
    by_cases hx : x < threadContextSize
    · rw [Memory.store_inside _ (Nat.zero_le x) (by rw [hlen]; omega)]
      simp [Memory.read]
    · rw [Memory.store_outside _ (Or.inr (by rw [hlen]; omega))]
  have hhandle := @handle_means regs ctx _ _ _ _ (.writeAll hhex) hthread
  rw [hbytes, hsame, withThread_self hthread] at hhandle
  exact hhandle

/-- For every state of the registers and every packet. What `g` answers can be sent back in `G` and changes nothing;
`p` answers the part of it that is the register's; what `P` writes `p` answers, and it is all that has changed; and a
packet is answered as it should exactly when it is not taken for a well-formed one without being one. -/
theorem registers_iff (regs : Memory UInt8) (ctx : RegsCtx) :
    (∀ thread, ctx.thread = some thread →
      (readRegisters regs ctx).1 = .hex (encodeHex (thread.read 0 threadContextSize)) ∧
        ∀ (regs' : Memory UInt8) (text : PacketText), text.val = encodeHex (thread.read 0 threadContextSize) →
          writeRegisters regs' (readRegisters regs ctx).2 text = (.ok, ctx.select)) ∧
    (∀ thread, ctx.thread = some thread → ∀ (text : PacketText) (n off size : Nat), NumberText n text.val →
      place n = some (off, size) → (readRegister regs ctx text).1 =
        .hex (((encodeHex (thread.read 0 threadContextSize)).drop (2 * off)).take (2 * size))) ∧
    (∀ thread, ctx.thread = some thread → ∀ (text : PacketText) (ds value : List UInt8) (n off size : Nat),
      text.val = ds ++ 0x3D :: value → NumberText n ds → place n = some (off, size) → HexText size value →
        (writeRegister regs ctx text).1 = .ok ∧ ∀ (regs' : Memory UInt8) (number : PacketText),
          (NumberText n number.val → (readRegister regs' (writeRegister regs ctx text).2 number).1 =
            .hex (encodeHex (completePairs size value))) ∧
          ∀ m off' size', m ≠ n → NumberText m number.val → place m = some (off', size') →
            (readRegister regs' (writeRegister regs ctx text).2 number).1 = (readRegister regs' ctx number).1) ∧
    ∀ packet : RegisterPacket, Answered packet regs ctx ↔
      (ctx.thread ≠ none → (∃ reply effect, Takes packet reply effect) → ∃ reply effect, Means packet reply effect) := by
  refine ⟨?_, ?_, ?_, fun packet => answered_iff packet⟩
  · intro thread hthread
    have hread : readRegisters regs ctx = (.hex (encodeHex (thread.read 0 threadContextSize)), ctx.select) := by
      rw [readRegisters_eq]
      unfold RegsCtx.outcome
      rw [hthread, ← withThread_self hthread]
      rfl
    rw [hread]
    refine ⟨rfl, fun regs' text htext => ?_⟩
    have hselect : ctx.select.thread = some thread := by
      rw [← withThread_self hthread]
      exact thread_withThread ctx thread
    have hback := @writeRegisters_back regs' ctx.select thread hselect text htext
    rwa [select_select] at hback
  · intro thread hthread text n off size hnumber hplace
    have hhandle := @handle_means regs ctx _ _ _ _ (.read hnumber hplace) hthread
    rw [show readRegister regs ctx text = _ from hhandle, encodeHex_part, read_part thread (place_apart hplace hplace).1]
  · intro thread hthread text ds value n off size htext hnumber hplace hvalue
    have hwrite : writeRegister regs ctx text = _ := @handle_means regs ctx _ _ _ _ (.write htext hnumber hplace hvalue) hthread
    have hsize := (completePairs_length hvalue).1
    rw [hwrite]
    refine ⟨rfl, fun regs' number => ⟨fun hnumber' => ?_, fun m off' size' hne hnumber' hplace' => ?_⟩⟩
    · have hread : readRegister regs' _ number = _ :=
        @handle_means regs' _ _ _ _ _ (.read hnumber' hplace)
          (thread_withThread ctx (thread.store off (completePairs size value)))
      rw [hread]
      dsimp only
      have hstored := @Memory.read_store_take _ thread off (completePairs size value) size (by omega)
      rw [hstored, List.take_of_length_le (by omega)]
    · have hread : readRegister regs' _ number = _ :=
        @handle_means regs' _ _ _ _ _ (.read hnumber' hplace')
          (thread_withThread ctx (thread.store off (completePairs size value)))
      have hbefore : readRegister regs' ctx number = _ := @handle_means regs' ctx _ _ _ _ (.read hnumber' hplace') hthread
      rw [hread, hbefore]
      dsimp only
      have hapart := (place_apart hplace hplace').2 (Ne.symm hne)
      rw [Memory.read_store_outside _ (by omega)]

end Threads

/-- `P0=G1000000`. -/
def maskedPacket : PacketText := ⟨[0x30, 0x3D, 0x47, 0x31, 0x30, 0x30, 0x30, 0x30, 0x30, 0x30], by decide⟩

/-- One thread, with all registers zero. -/
def zeroThread : RegsCtx := ⟨1, 1, fun _ => some fun _ => 0⟩

/-- The packet has a character that is no digit in its value, and is taken for one that writes 1 to r0. -/
theorem masked_taken : ¬ Answered (.write maskedPacket) (fun _ => 0) zeroThread := by
  rw [answered_iff]
  intro h
  have hpairs : FullPairs 4 [0x47, 0x31, 0x30, 0x30, 0x30, 0x30, 0x30, 0x30] := by
    refine ⟨rfl, rfl, rfl, rfl, trivial⟩
  have hnumber : NumberText 0 [0x30] := ⟨by simp, rfl, by decide⟩
  have htakes := @Takes.write maskedPacket [] [0x30] [0x47, 0x31, 0x30, 0x30, 0x30, 0x30, 0x30, 0x30] 0 0 4 rfl (by simp)
    hnumber (by decide) hpairs rfl
  obtain ⟨reply, effect, hmeans⟩ := h (Option.some_ne_none _) ⟨_, _, htakes⟩
  cases hmeans with
  | write htext hnumber hplace hvalue =>
    -- the letter would have to be a digit of one of the numbers, or the sign between them
    have hmem : (0x47 : UInt8) ∈ maskedPacket.val := by decide
    rw [htext, List.mem_append, List.mem_cons] at hmem
    rcases hmem with hds | hsign | hv
    · have hdigit := Hex.isDigit_of_value hnumber.2.1 _ hds
      exact absurd hdigit (by decide)
    · exact absurd hsign (by decide)
    · have hdigit := hvalue.2 _ hv
      exact absurd hdigit (by decide)

end Omiiba.Rosalina
