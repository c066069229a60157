/-
The packets that resume the process, after debug.c and verbose.c: `c` and `C` with an address or without, and the actions of
`vCont`, of which the leftmost for the current thread counts.
-/
import Omiiba.Rosalina.GdbThreadId

namespace Omiiba.Rosalina

/-! ## The code -/

/-- The errors that are replied. -/
inductive ResumeErrno
  | eperm
  | eilseq

/-- What the packets use of a context, how often `svcContinueDebugEvent` has been called, and the `pc` of each thread. -/
structure ResumeCtx where
  form : ThreadIdForm
  currentThreadId : UInt32
  selectedThreadId : UInt32
  selectedThreadIdForContinuing : UInt32
  processContinuing : Bool
  continued : Nat
  pc : UInt32 → UInt32

/-- Whether `svcGetDebugThreadContext` and `svcSetDebugThreadContext` succeed. -/
structure ThreadContextCalls where
  get : Bool
  set : Bool

/-- The `pc` of the current thread. -/
def ResumeCtx.withPc (ctx : ResumeCtx) (addr : UInt32) : ResumeCtx :=
  { ctx with pc := Function.update ctx.pc ctx.currentThreadId addr }

/-- `GDB_ContinueExecution`. -/
def ResumeCtx.continueExecution (ctx : ResumeCtx) : ResumeCtx :=
  { ctx with
    selectedThreadId := 0
    selectedThreadIdForContinuing := 0
    processContinuing := true
    continued := ctx.continued + 1 }

/-- Whether there is an address behind the command; none where `c` and `C` reply an error before they look for one. -/
def addrStart (command : UInt8) (s : List UInt8) : Option Bool :=
  if command = 0x43 then
    if s.getD 0 0 = 0 ∨ s.getD 1 0 = 0 ∨ (s.getD 2 0 ≠ 0 ∧ s.getD 2 0 = 0x3B) then none else some (s.getD 2 0 = 0x3B)
  else some (s.getD 0 0 ≠ 0)

/-- Another thread than the current one was selected for continuing. -/
def ResumeCtx.OtherSelected (ctx : ResumeCtx) : Prop :=
  ctx.selectedThreadIdForContinuing ≠ 0 ∧ ctx.selectedThreadIdForContinuing ≠ ctx.currentThreadId

instance (ctx : ResumeCtx) : Decidable ctx.OtherSelected := inferInstanceAs (Decidable (_ ∧ _))

/-- The handler of `c` and `C`, where `s` is the memory from the command's data on: the error that is replied, and the context. -/
def handleContinue (calls : ThreadContextCalls) (command : UInt8) (s : List UInt8) (ctx : ResumeCtx) :
    Option ResumeErrno × ResumeCtx :=
  if ctx.OtherSelected then (none, ctx)
  else
    match addrStart command s with
    | none => (some .eilseq, ctx)
    | some hasAddr =>
      if hasAddr = true ∧ ctx.currentThreadId ≠ 0 then
        -- the address is read from commandData + 3, for both commands
        match parseHexIntegerList 1 0 (s.drop 3) with
        | some ([addr], _) =>
          (none, (if calls.get && calls.set then ctx.withPc (UInt32.ofNat addr) else ctx).continueExecution)
        | _ => (some .eilseq, ctx)
      else (none, ctx.continueExecution)

theorem length_drop_lt {s : List UInt8} (h : s.headD 0 ≠ 0) {k : Nat} (hk : 0 < k) : (s.drop k).length < s.length := by
  cases s with
  | nil => exact absurd rfl h
  | cons c s =>
    rw [List.length_drop, List.length_cons]
    omega

/-- Where the id of an action begins, if it has one: behind the signal that a `C` is followed by, and behind a colon. -/
def skipAction (s : List UInt8) : List UInt8 := s.drop (if s.headD 0 = 0x43 then 3 else 1)

theorem length_skipAction_lt {s : List UInt8} (h : s.headD 0 ≠ 0) : (skipAction s).length < s.length := by
  unfold skipAction
  split
  · exact length_drop_lt h (by omega)
  · exact length_drop_lt h (by omega)

/-- The loop over the actions of `vCont`, from `pos` on: whether one is found for the current thread, or the error that is
replied. -/
def vContLoop (form : ThreadIdForm) (currentThreadId : UInt32) (s : List UInt8) : Except ResumeErrno Bool :=
  if _hend : s.headD 0 = 0 then .ok false
  else if s.headD 0 ≠ 0x63 ∧ s.headD 0 ≠ 0x43 then .error .eperm
  else if (skipAction s).headD 0 ≠ 0x3A then .ok true -- default action found
  else
    let id := (skipAction s).drop 1
    match parseThreadId form id 0x3B with
    | none => .error .eilseq
    | some (pid, tid, nextpos) =>
      if pid ≠ allPids ∧ pid ≠ form.pid then .error .eperm
      else if tid = 0 ∨ tid = currentThreadId then .ok true
      -- where the list ends behind the id, pos stays on the id
      else vContLoop form currentThreadId (if id.getD nextpos 0 ≠ 0 then id.drop (nextpos + 1) else id)
termination_by s.length
decreasing_by
  have hskip := length_skipAction_lt _hend
  split <;> simp only [List.length_drop] <;> omega

/-- The handler of `vCont`. -/
def verboseContinue (s : Option (List UInt8)) (ctx : ResumeCtx) : Option ResumeErrno × ResumeCtx :=
  match s.elim (.ok false) (vContLoop ctx.form ctx.currentThreadId) with
  | .error e => (some e, ctx)
  | .ok found => (none, if ctx.currentThreadId = 0 ∨ found = true then ctx.continueExecution else ctx)

/-- The handlers of `gdbVerboseCommandHandlers`. -/
inductive VerboseHandler
  | attach
  | continueSupported
  | continue
  | file
  | unsupported
  | run
  | kill

def gdbVerboseCommandHandlers : List (List UInt8 × VerboseHandler) :=
  [(ascii "Attach", .attach), (ascii "Cont?", .continueSupported), (ascii "Cont", .continue), (ascii "File", .file),
    (ascii "MustReplyEmpty", .unsupported), (ascii "Run", .run), (ascii "Kill", .kill)]

/-- The name of a `v` command, and what is behind its `;` or `:`. -/
def verboseName (s : List UInt8) : List UInt8 × Option (List UInt8) :=
  let name := s.takeWhile fun c => c ≠ 0 ∧ c ≠ 0x3B ∧ c ≠ 0x3A
  let nameEnd := s.drop name.length
  (name, if nameEnd.headD 0 = 0 then none else some (nameEnd.drop 1))

/-- `VerboseCommand`, where it replies an error of its own or calls the handler of `vCont`. -/
def verboseCommand (s : List UInt8) (ctx : ResumeCtx) : Option (Option ResumeErrno × ResumeCtx) :=
  if s.headD 0 = 0 then some (some .eilseq, ctx)
  else
    match gdbVerboseCommandHandlers.find? fun (name, _) => name = (verboseName s).1 with
    | some (_, .continue) => some (verboseContinue (verboseName s).2 ctx)
    | _ => none

/-- The handler of a packet that begins with `c`, `C` or `v`, where `s` is the memory from there on. -/
def handleResume (calls : ThreadContextCalls) (s : List UInt8) (ctx : ResumeCtx) : Option (Option ResumeErrno × ResumeCtx) :=
  match s with
  | [] => none
  | command :: data =>
    if command = 0x63 ∨ command = 0x43 then some (handleContinue calls command data ctx)
    else if command = 0x76 then verboseCommand data ctx
    else none

/-! ## Packets -/

/-- A number that fits `u32`, in hexadecimal. -/
structure HexNumber where
  digits : List Hex.Digit
  ne_nil : digits ≠ []
  lt : Hex.number digits < 2 ^ 32

def HexNumber.text (n : HexNumber) : List UInt8 := n.digits.map Hex.Digit.char

def HexNumber.value (n : HexNumber) : UInt32 := UInt32.ofNat (Hex.number n.digits)

/-- `-1` or a number. -/
inductive IdPart
  | all
  | number (n : HexNumber)

def IdPart.text : IdPart → List UInt8
  | .all => ascii "-1"
  | .number n => n.text

/-- The thread ids of the protocol, with multiprocess extensions or without: a thread or, with them, a process; a process with
`p` in front; and a thread of a process. -/
inductive ThreadRef : Bool → Type
  | bare {multi : Bool} (id : IdPart) : ThreadRef multi
  | process (pid : IdPart) : ThreadRef true
  | thread (pid tid : IdPart) : ThreadRef true

def ThreadRef.text {multi : Bool} : ThreadRef multi → List UInt8
  | .bare id => id.text
  | .process pid => 0x70 :: pid.text
  | .thread pid tid => 0x70 :: (pid.text ++ 0x2E :: tid.text)

/-- An action of `vCont`: `c`, or `C` with a signal, for the threads of an id or for all. -/
structure ContAction (multi : Bool) where
  signal : Option (Hex.Digit × Hex.Digit)
  ref : Option (ThreadRef multi)

/-- A command with the signal that it has. -/
def commandText : Option (Hex.Digit × Hex.Digit) → List UInt8
  | none => ascii "c"
  | some (high, low) => [0x43, high.char, low.char]

def ContAction.text {multi : Bool} (a : ContAction multi) : List UInt8 :=
  commandText a.signal ++ a.ref.elim [] fun ref => 0x3A :: ref.text

/-- Actions with a semicolon in front of each. -/
def actionsText {multi : Bool} (actions : List (ContAction multi)) : List UInt8 := actions.flatMap fun a => 0x3B :: a.text

/-- The packets that resume: `c`, or `C` with a signal, and an address, or a list of actions. -/
inductive ResumePacket (multi : Bool)
  | command (signal : Option (Hex.Digit × Hex.Digit)) (addr : Option HexNumber)
  | vCont (actions : List (ContAction multi))

def ResumePacket.text {multi : Bool} : ResumePacket multi → List UInt8
  | .command none addr => ascii "c" ++ addr.elim [] HexNumber.text
  | .command (some signal) addr => commandText (some signal) ++ addr.elim [] fun addr => 0x3B :: addr.text
  | .vCont actions => ascii "vCont" ++ actionsText actions

/-- What is in the buffer behind the terminator that takes the place of the `#`: the checksum, and then nothing, or what the
client has sent next: `+`, `-`, `$` or an interrupt. -/
structure Trailer where
  high : Hex.Digit
  low : Hex.Digit
  next : List UInt8
  starts : next.headD 0 ∈ [0, 0x2B, 0x2D, 0x24, 0x03]

def Trailer.bytes (trailer : Trailer) : List UInt8 := trailer.high.char :: trailer.low.char :: trailer.next

/-! ## What is expected -/

/-- A process of the protocol is the one with the id: all, any, or the one. -/
def IdPart.NamesProcess (pid : UInt32) : IdPart → Prop
  | .all => True
  | .number n => n.value = 0 ∨ n.value - 1 = pid

def IdPart.NamesThread (tid : UInt32) : IdPart → Prop
  | .all => True
  | .number n => n.value = 0 ∨ n.value = tid

/-- The thread is one of those that the id stands for. -/
def ThreadRef.Names {multi : Bool} (pid tid : UInt32) : ThreadRef multi → Prop
  | .bare id => if multi then id.NamesProcess pid else id.NamesThread tid
  | .process p => p.NamesProcess pid
  | .thread p t => p.NamesProcess pid ∧ t.NamesThread tid

def ContAction.Matches {multi : Bool} (pid tid : UInt32) (a : ContAction multi) : Prop := ∀ ref ∈ a.ref, ref.Names pid tid

/-- The packet is to resume the target. -/
def ResumePacket.Resumes {multi : Bool} (ctx : ResumeCtx) : ResumePacket multi → Prop
  | .command _ _ => ¬ctx.OtherSelected
  | .vCont actions => ∃ a ∈ actions, a.Matches ctx.form.pid ctx.currentThreadId

/-- The address that is given. -/
def ResumePacket.addr {multi : Bool} : ResumePacket multi → Option HexNumber
  | .command _ addr => addr
  | .vCont _ => none

/-- The context after the target has been resumed, at an address that is given. -/
def ResumeCtx.resumed {multi : Bool} (ctx : ResumeCtx) (packet : ResumePacket multi) : ResumeCtx :=
  (packet.addr.elim ctx fun addr => ctx.withPc addr.value).continueExecution

/-- No error is replied, and the target is resumed if it is to be, or nothing has changed. -/
structure ResumesRight (calls : ThreadContextCalls) (ctx : ResumeCtx) (packet : ResumePacket ctx.form.multiprocessExtEnabled)
    (trailer : Trailer) : Prop where
  resumed : packet.Resumes ctx → handleResume calls (packet.text ++ 0 :: trailer.bytes) ctx = some (none, ctx.resumed packet)
  unchanged : ¬packet.Resumes ctx → handleResume calls (packet.text ++ 0 :: trailer.bytes) ctx = some (none, ctx)

/-! ## When it is so -/

/-- The number from the fourth place on, of a packet with an address behind `c`: of a short address that is behind the
terminator. -/
def fromFourth (trailer : Trailer) : List Hex.Digit → Option Nat
  | [] => none
  | [_] => if trailer.next.headD 0 = 0 then some trailer.low.val else none
  | [_, _] => if trailer.next.headD 0 = 0 then some (Hex.number [trailer.high, trailer.low]) else none
  | [_, _, _] => none
  | _ :: _ :: _ :: ds => some (Hex.number ds)

def Trailer.checksum (trailer : Trailer) : UInt32 := UInt32.ofNat (Hex.number [trailer.high, trailer.low])

/-- The process of an id, as it is compared. -/
def IdPart.process : IdPart → UInt32
  | .all => allPids
  | .number n => n.value - 1

def IdPart.thread : IdPart → UInt32
  | .all => 0
  | .number n => n.value

/-- Thread `t` of process `q` is the current one, or any, and may be named so. -/
def StopsAt (pid tid q t : UInt32) : Prop := (q = allPids ∨ q = pid) ∧ (t = 0 ∨ (q ≠ allPids ∧ t = tid))

/-- Thread `t` of process `q` is another one of the process. -/
def PassesAt (pid tid q t : UInt32) : Prop := q = pid ∧ q ≠ allPids ∧ t ≠ 0 ∧ t ≠ tid

section

variable (pid tid : UInt32)

/-- The id stands for the current thread and is read so. A process alone is read only at the end of the list, and with `p` in
front of it the checksum behind the terminator is taken for the thread. -/
def ThreadRef.Stops (trailer : Trailer) (last : Prop) {multi : Bool} : ThreadRef multi → Prop
  | .bare id => if multi then last ∧ (id.process = allPids ∨ id.process = pid) else StopsAt pid tid pid id.thread
  | .process .all => False
  | .process (.number n) => last ∧ trailer.next.headD 0 = 0 ∧ StopsAt pid tid (n.value - 1) trailer.checksum
  | .thread p t => StopsAt pid tid p.process t.thread

/-- The id is that of another thread of the process, with the process if there are multiprocess extensions. -/
def ThreadRef.Passes {multi : Bool} : ThreadRef multi → Prop
  | .bare id => multi = false ∧ PassesAt pid tid pid id.thread
  | .process _ => False
  | .thread p t => PassesAt pid tid p.process t.thread

/-- Up to the first action for the current thread all are for other threads of the process, and that action is read as one for the
current thread. -/
def ActionsStop (trailer : Trailer) {multi : Bool} : List (ContAction multi) → Prop
  | [] => False
  | a :: as => (∀ ref ∈ a.ref, ref.Stops pid tid trailer (as = [])) ∨ ((∃ ref ∈ a.ref, ref.Passes pid tid) ∧ ActionsStop trailer as)

end

/-- There is no address, or nothing to resume, or the address is behind `c` and the same from the fourth place on; in a list of
actions that is not empty there is one for the current thread, and all up to it are read as they are meant. -/
def ResumePacket.ReadWell (calls : ThreadContextCalls) (ctx : ResumeCtx) (trailer : Trailer) {multi : Bool} :
    ResumePacket multi → Prop
  | .command _ none => True
  | .command none (some addr) => ctx.OtherSelected ∨ ∃ n, fromFourth trailer addr.digits = some n ∧
      if calls.get && calls.set then UInt32.ofNat n = addr.value else ctx.pc ctx.currentThreadId = addr.value
  | .command (some _) (some _) => ctx.OtherSelected
  | .vCont actions => actions = [] ∨ ActionsStop ctx.form.pid ctx.currentThreadId trailer actions

/-! ## Ids -/

/-- What the id of an action is followed by. -/
def Followed (rest : List UInt8) : Prop := rest.headD 0 = 0x3B ∨ rest.headD 0 = 0

theorem Followed.ends {rest : List UInt8} (h : Followed rest) : Ends rest := by
  unfold Followed at h
  cases rest with
  | nil => simp [Ends]
  | cons c rest =>
    rintro x ⟨⟩
    rcases h with rfl | rfl <;> decide

theorem HexNumber.text_ne_nil (n : HexNumber) : n.text ≠ [] := by
  unfold HexNumber.text
  simp [n.ne_nil]

theorem HexNumber.value_text (n : HexNumber) : Hex.value 0 n.text = some (Hex.number n.digits) := Hex.value_chars _ _

theorem HexNumber.parse (n : HexNumber) {rest : List UInt8} (hrest : Ends rest) (lastSep : UInt8) :
    parseHexIntegerList 1 lastSep (n.text ++ rest) =
      if rest.headD 0 = lastSep ∨ rest.headD 0 = 0 then some ([Hex.number n.digits], n.text.length) else none :=
  parseHexIntegerList_one n.text_ne_nil n.value_text n.lt hrest lastSep

/-- A number begins with a digit. -/
theorem HexNumber.text_eq (n : HexNumber) : ∃ (d : Hex.Digit) (ds : List Hex.Digit), n.text = d.char :: List.map Hex.Digit.char ds := by
  obtain ⟨d, ds, hds⟩ := List.exists_cons_of_ne_nil n.ne_nil
  exact ⟨d, ds, by rw [HexNumber.text, hds, List.map_cons]⟩

theorem HexNumber.not_minus (n : HexNumber) (lit rest : List UInt8) : ¬0x2D :: lit <+: n.text ++ rest := by
  obtain ⟨d, ds, hds⟩ := n.text_eq
  rw [hds, List.cons_append, List.cons_prefix_cons]
  rintro ⟨hd, -⟩
  exact d.char_ne (by decide) hd.symm

theorem IdPart.parse (t : IdPart) (q : UInt32) (before : List UInt8) {rest : List UInt8} (hrest : Followed rest) :
    parseTid q (before ++ (t.text ++ rest)) 0x3B before.length =
      if q = allPids ∧ t.thread ≠ 0 then none else some (q, t.thread, before.length + t.text.length) := by
  unfold parseTid
  rw [List.drop_left]
  cases t with
  | all =>
    rw [IdPart.text, if_pos (List.prefix_append _ _)]
    simp [IdPart.thread, ascii]
  | number n =>
    have hhead := hrest
    unfold Followed at hhead
    rw [IdPart.text, if_neg (show ¬ascii "-1" <+: _ from n.not_minus _ _), n.parse hrest.ends, if_pos hhead]
    rfl

theorem parseThreadId_single (pid : UInt32) (id : IdPart) {rest : List UInt8} (hrest : Followed rest) :
    parseThreadId ⟨false, pid⟩ (id.text ++ rest) 0x3B =
      if pid = allPids ∧ id.thread ≠ 0 then none else some (pid, id.thread, id.text.length) := by
  have hparse := id.parse pid [] hrest
  simp only [List.nil_append, List.length_nil, Nat.zero_add] at hparse
  exact hparse

theorem parsePid_thread (pid : UInt32) (p : IdPart) (rest : List UInt8) :
    parsePid ⟨true, pid⟩ (0x70 :: (p.text ++ 0x2E :: rest)) = some (p.process, (0x70 :: (p.text ++ [0x2E])).length) := by
  unfold parsePid
  rw [if_pos rfl, List.drop_succ_cons, List.drop_zero]
  cases p with
  | all => rfl
  | number n =>
    have hends : Ends (0x2E :: rest) := ends_dot rest
    rw [IdPart.text, if_neg (show ¬ascii "-1." <+: _ from n.not_minus _ _), n.parse hends, if_pos (.inl rfl)]
    simp only [IdPart.process, HexNumber.value, List.length_cons, List.length_append, List.length_nil, Nat.add_comm 1]

theorem parseThreadId_thread (pid : UInt32) (p t : IdPart) {rest : List UInt8} (hrest : Followed rest) :
    parseThreadId ⟨true, pid⟩ ((ThreadRef.thread p t).text ++ rest) 0x3B =
      if p.process = allPids ∧ t.thread ≠ 0 then none else some (p.process, t.thread, (ThreadRef.thread p t).text.length) := by
  have htext : (ThreadRef.thread p t).text ++ rest = 0x70 :: (p.text ++ 0x2E :: (t.text ++ rest)) := by
    simp [ThreadRef.text]
  have hsplit : 0x70 :: (p.text ++ 0x2E :: (t.text ++ rest)) = (0x70 :: (p.text ++ [0x2E])) ++ (t.text ++ rest) := by
    simp
  have hlength : (0x70 :: (p.text ++ [0x2E])).length + t.text.length = (ThreadRef.thread p t).text.length := by
    simp only [ThreadRef.text, List.length_cons, List.length_append, List.length_nil]
    omega
  unfold parseThreadId
  rw [htext, if_neg (by simp [isBare]), parsePid_thread, Option.bind_some]
  dsimp only
  rw [hsplit, t.parse _ _ hrest, hlength]

/-- A process with `p` in front of it and no thread is refused inside the list. -/
theorem parsePid_process {p : IdPart} {rest : List UInt8} (pid : UInt32) (h : p = .all ∨ rest.headD 0 = 0x3B) (hrest : Followed rest) :
    parsePid ⟨true, pid⟩ (0x70 :: (p.text ++ rest)) = none := by
  have hdot : rest.headD 0 ≠ 0x2E := by
    rcases hrest with hrest | hrest <;> rw [hrest] <;> decide
  unfold parsePid
  rw [if_pos rfl, List.drop_succ_cons, List.drop_zero]
  cases p with
  | all =>
    have hfront : ¬ascii "-1." <+: ascii "-1" ++ rest := by
      intro hfront
      have htail : [0x2E] <+: rest := (List.prefix_append_right_inj (ascii "-1")).mp hfront
      cases rest with
      | nil => exact absurd htail (by simp)
      | cons c rest =>
        rw [List.cons_prefix_cons] at htail
        exact hdot htail.1.symm
    rw [IdPart.text, if_neg hfront]
    rfl
  | number n =>
    have hhead := h.resolve_left (by simp)
    rw [IdPart.text, if_neg (show ¬ascii "-1." <+: _ from n.not_minus _ _), n.parse hrest.ends, hhead,
      if_neg (by decide)]

/-- At the end of the list it is read, with the place behind the terminator. -/
theorem parsePid_last (pid : UInt32) (n : HexNumber) (behind : List UInt8) :
    parsePid ⟨true, pid⟩ (0x70 :: (n.text ++ 0 :: behind)) = some (n.value - 1, (0x70 :: (n.text ++ [0])).length) := by
  unfold parsePid
  rw [if_pos rfl, List.drop_succ_cons, List.drop_zero, if_neg (show ¬ascii "-1." <+: _ from n.not_minus _ _),
    n.parse (ends_nul behind), if_pos (.inr rfl)]
  simp only [HexNumber.value, List.length_cons, List.length_append, List.length_nil, Nat.add_comm 1]

theorem Trailer.ends (trailer : Trailer) : Ends trailer.next := by
  have hstarts := trailer.starts
  intro c hc
  cases hnext : trailer.next with
  | nil => simp [hnext] at hc
  | cons x next =>
    rw [hnext] at hc hstarts
    cases hc
    simp only [List.headD_cons, List.mem_cons, List.not_mem_nil, or_false] at hstarts
    rcases hstarts with rfl | rfl | rfl | rfl | rfl <;> decide

theorem Trailer.next_ne (trailer : Trailer) : trailer.next.headD 0 ≠ 0x3B := by
  intro hnext
  have hstarts := trailer.starts
  rw [hnext] at hstarts
  exact absurd hstarts (by decide)

/-- Two digits are a number that fits. -/
def Trailer.number (trailer : Trailer) : HexNumber where
  digits := [trailer.high, trailer.low]
  ne_nil := by simp
  lt := by
    have hhigh := (alnumValue_of_digitValue trailer.high.spec).2
    have hlow := (alnumValue_of_digitValue trailer.low.spec).2
    simp only [Hex.number, List.foldl_cons, List.foldl_nil]
    omega

/-- The checksum is read as a thread, if nothing is behind it. -/
theorem parseTid_trailer (trailer : Trailer) (q : UInt32) (before : List UInt8) :
    parseTid q (before ++ trailer.bytes) 0x3B before.length =
      if trailer.next.headD 0 ≠ 0 ∨ (q = allPids ∧ trailer.checksum ≠ 0) then none
      else some (q, trailer.checksum, before.length + 2) := by
  have hbytes : trailer.bytes = trailer.number.text ++ trailer.next := rfl
  unfold parseTid
  rw [List.drop_left, hbytes, if_neg (show ¬ascii "-1" <+: _ from HexNumber.not_minus _ _ _), HexNumber.parse _ trailer.ends]
  by_cases hnext : trailer.next.headD 0 = 0
  · rw [if_pos (.inr hnext)]
    simp only [hnext, ne_eq, not_true, false_or]
    rfl
  · rw [if_neg (not_or.mpr ⟨trailer.next_ne, hnext⟩), if_pos (.inl hnext)]

/-- An id without `p`, where ids name processes, is read at the end of the list. -/
theorem parseBare_last (id : IdPart) (behind : List UInt8) :
    parseBare (id.text ++ 0 :: behind) = some (id.process, 0, id.text.length) := by
  unfold parseBare
  cases id with
  | all => rfl
  | number n =>
    have hminus : (n.text ++ 0 :: behind).takeWhile (· ≠ 0) ≠ ascii "-1" := by
      intro h
      have hfront := List.takeWhile_prefix (fun c : UInt8 => c ≠ 0) (l := n.text ++ 0 :: behind)
      rw [h] at hfront
      exact n.not_minus _ _ hfront
    rw [IdPart.text, if_neg hminus, n.parse (ends_nul behind), if_pos (.inl rfl)]
    rfl

/-- And nowhere else. -/
theorem parseBare_inside (id : IdPart) {rest : List UInt8} (hrest : rest.headD 0 = 0x3B) : parseBare (id.text ++ rest) = none := by
  unfold parseBare
  cases id with
  | all =>
    cases rest with
    | nil => cases hrest
    | cons c rest =>
      obtain rfl : c = 0x3B := hrest
      rw [if_neg (by simp [IdPart.text, ascii])]
      rfl
  | number n =>
    have hminus : (n.text ++ rest).takeWhile (· ≠ 0) ≠ ascii "-1" := by
      intro h
      have hfront := List.takeWhile_prefix (fun c : UInt8 => c ≠ 0) (l := n.text ++ rest)
      rw [h] at hfront
      exact n.not_minus _ _ hfront
    rw [IdPart.text, if_neg hminus, n.parse (Followed.ends (.inl hrest)), hrest, if_neg (by decide)]

theorem IdPart.text_head_ne (id : IdPart) (rest : List UInt8) : (id.text ++ rest).headD 0 ≠ 0x70 := by
  cases id with
  | all => exact fun h => absurd (show (0x2D : UInt8) = 0x70 from h) (by decide)
  | number n =>
    obtain ⟨d, ds, hds⟩ := n.text_eq
    rw [IdPart.text, hds]
    exact d.char_ne (by decide)

theorem parseThreadId_bare (pid : UInt32) (id : IdPart) (rest : List UInt8) :
    parseThreadId ⟨true, pid⟩ (id.text ++ rest) 0x3B = parseBare (id.text ++ rest) := by
  unfold parseThreadId
  rw [if_pos (by simpa [isBare] using id.text_head_ne rest)]

theorem parseThreadId_process (pid : UInt32) (s : List UInt8) :
    parseThreadId ⟨true, pid⟩ (0x70 :: s) 0x3B =
      (parsePid ⟨true, pid⟩ (0x70 :: s)).bind fun (q, pos) => parseTid q (0x70 :: s) 0x3B pos := by
  unfold parseThreadId
  rw [if_neg (by simp [isBare])]

/-! ## The loop -/

theorem skipAction_command (signal : Option (Hex.Digit × Hex.Digit)) (rest : List UInt8) :
    skipAction (commandText signal ++ rest) = rest := by
  cases signal with
  | none => rfl
  | some signal => rfl

theorem command_head (signal : Option (Hex.Digit × Hex.Digit)) (rest : List UInt8) :
    (commandText signal ++ rest).headD 0 = 0x63 ∨ (commandText signal ++ rest).headD 0 = 0x43 := by
  cases signal with
  | none => exact .inl rfl
  | some signal => exact .inr rfl

section

variable {form : ThreadIdForm} {tid : UInt32}

/-- An action for all threads. -/
theorem vContLoop_default {s : List UInt8} (hhead : s.headD 0 = 0x63 ∨ s.headD 0 = 0x43) (hid : (skipAction s).headD 0 ≠ 0x3A) :
    vContLoop form tid s = .ok true := by
  rw [vContLoop, dif_neg, if_neg, if_pos hid]
  · tauto
  · rcases hhead with hhead | hhead <;> rw [hhead] <;> decide

/-- What begins with something else is no action. -/
theorem vContLoop_other {s : List UInt8} (hend : s.headD 0 ≠ 0) (hhead : s.headD 0 ≠ 0x63 ∧ s.headD 0 ≠ 0x43) :
    vContLoop form tid s = .error .eperm := by
  rw [vContLoop, dif_neg hend, if_pos hhead]

/-- An action with an id. -/
theorem vContLoop_ref (signal : Option (Hex.Digit × Hex.Digit)) (id : List UInt8) :
    vContLoop form tid (commandText signal ++ 0x3A :: id) =
      match parseThreadId form id 0x3B with
      | none => .error .eilseq
      | some (q, t, nextpos) =>
        if q ≠ allPids ∧ q ≠ form.pid then .error .eperm
        else if t = 0 ∨ t = tid then .ok true
        else vContLoop form tid (if id.getD nextpos 0 ≠ 0 then id.drop (nextpos + 1) else id) := by
  have hhead := command_head signal (0x3A :: id)
  have hskip := skipAction_command signal (0x3A :: id)
  rw [vContLoop, dif_neg, if_neg, if_neg, hskip]
  · rfl
  · rw [hskip]
    simp
  · tauto
  · rcases hhead with hhead | hhead <;> rw [hhead] <;> decide

/-- The id of a thread, in its place. -/
theorem vContLoop_thread (tid : UInt32) (signal : Option (Hex.Digit × Hex.Digit)) {id rest : List UInt8} {q t : UInt32}
    (hparse : parseThreadId form (id ++ rest) 0x3B = if q = allPids ∧ t ≠ 0 then none else some (q, t, id.length)) :
    (StopsAt form.pid tid q t → vContLoop form tid (commandText signal ++ 0x3A :: (id ++ rest)) = .ok true) ∧
      (PassesAt form.pid tid q t → vContLoop form tid (commandText signal ++ 0x3A :: (id ++ rest)) =
        vContLoop form tid (if rest.headD 0 ≠ 0 then rest.drop 1 else id ++ rest)) ∧
      (¬StopsAt form.pid tid q t → ¬PassesAt form.pid tid q t →
        ∃ e, vContLoop form tid (commandText signal ++ 0x3A :: (id ++ rest)) = .error e) := by
  have hnext : (id ++ rest).getD id.length 0 = rest.headD 0 := by
    cases rest <;> simp [List.getD_eq_getElem?_getD]
  have hdrop : (id ++ rest).drop (id.length + 1) = rest.drop 1 := by
    rw [List.drop_append]
    simp
  rw [vContLoop_ref, hparse]
  unfold StopsAt PassesAt
  by_cases hnone : q = allPids ∧ t ≠ 0
  · rw [if_pos hnone]
    refine ⟨fun h => ?_, fun h => absurd hnone.1 h.2.1, fun _ _ => ⟨_, rfl⟩⟩
    rcases h.2 with h0 | ⟨hne, -⟩
    · exact absurd h0 hnone.2
    · exact absurd hnone.1 hne
  · rw [if_neg hnone]
    dsimp only
    rw [hnext, hdrop]
    refine ⟨fun h => ?_, fun h => ?_, fun hstop hpass => ?_⟩
    · rw [if_neg (by tauto), if_pos (by tauto)]
    · rw [if_neg (by tauto), if_neg (by tauto)]
    · rw [if_pos (by tauto)]
      exact ⟨_, rfl⟩

/-- The number of a thread, read again as an action where the list ends behind it, is never passed over. -/
theorem vContLoop_reread (n : HexNumber) (trailer : Trailer) : vContLoop form tid (n.text ++ 0 :: trailer.bytes) ≠ .ok false := by
  obtain ⟨d, ds, hds⟩ := n.text_eq
  have hbytes : n.text ++ 0 :: trailer.bytes = n.text ++ [0, trailer.high.char, trailer.low.char] ++ trailer.next := by
    simp [Trailer.bytes]
  -- whatever is skipped, a digit or the terminator comes next
  have hnext : ∀ k ≤ 3, ((n.text ++ 0 :: trailer.bytes).drop k).headD 0 ≠ 0x3A := by
    intro k hk
    have hlt : k < (n.text ++ [0, trailer.high.char, trailer.low.char]).length := by
      simp only [hds, List.length_append, List.length_cons, List.length_nil]
      omega
    have hmem : ((n.text ++ 0 :: trailer.bytes).drop k).headD 0 ∈ n.text ++ [0, trailer.high.char, trailer.low.char] := by
      rw [hbytes, List.drop_append_of_le_length hlt.le, List.drop_eq_getElem_cons hlt]
      exact List.getElem_mem hlt
    intro hcolon
    rw [hcolon] at hmem
    rcases List.mem_append.mp hmem with hmem | hmem
    · obtain ⟨x, -, hx⟩ := List.mem_map.mp hmem
      exact x.char_ne (by decide) hx
    · simp only [List.mem_cons, List.not_mem_nil, or_false] at hmem
      rcases hmem with hmem | hmem | hmem
      · cases hmem
      · exact trailer.high.char_ne (by decide) hmem.symm
      · exact trailer.low.char_ne (by decide) hmem.symm
  have hhead : (n.text ++ 0 :: trailer.bytes).headD 0 ≠ 0 := by
    rw [hds]
    exact d.char_ne (by decide)
  by_cases hcommand : (n.text ++ 0 :: trailer.bytes).headD 0 = 0x63 ∨ (n.text ++ 0 :: trailer.bytes).headD 0 = 0x43
  · rw [vContLoop_default hcommand]
    · simp
    · unfold skipAction
      split
      · exact hnext 3 le_rfl
      · exact hnext 1 (by omega)
  · rw [vContLoop_other hhead (not_or.mp hcommand)]
    simp

end

/-! ## Actions -/

/-- The text behind an action: the next one's, or the terminator. -/
def afterAction {multi : Bool} (trailer : Trailer) (as : List (ContAction multi)) : List UInt8 := actionsText as ++ 0 :: trailer.bytes

theorem afterAction_nil {multi : Bool} (trailer : Trailer) : afterAction trailer ([] : List (ContAction multi)) = 0 :: trailer.bytes := rfl

theorem afterAction_cons {multi : Bool} (trailer : Trailer) (a : ContAction multi) (as : List (ContAction multi)) :
    afterAction trailer (a :: as) = 0x3B :: (a.text ++ afterAction trailer as) := by
  simp [afterAction, actionsText]

theorem followed_afterAction {multi : Bool} (trailer : Trailer) (as : List (ContAction multi)) : Followed (afterAction trailer as) := by
  cases as with
  | nil => exact .inr rfl
  | cons a as =>
    rw [afterAction_cons]
    exact .inl rfl

section

variable {pid tid : UInt32} {trailer : Trailer}

theorem IdPart.namesProcess_iff (p : IdPart) : p.NamesProcess pid ↔ p.process = allPids ∨ p.process = pid := by
  cases p with
  | all => simp [IdPart.NamesProcess, IdPart.process]
  | number n =>
    have hzero : n.value = 0 ↔ n.value - 1 = allPids := by
      unfold allPids
      constructor
      · intro h
        rw [h]
        rfl
      · intro h
        rw [← UInt32.sub_add_cancel n.value 1, h]
        rfl
    exact or_congr_left hzero

theorem IdPart.namesThread_iff (t : IdPart) : t.NamesThread tid ↔ t.thread = 0 ∨ t.thread = tid := by
  cases t with
  | all => simp [IdPart.NamesThread, IdPart.thread]
  | number n => exact Iff.rfl

theorem ThreadRef.Stops.names {last : Prop} {multi : Bool} {ref : ThreadRef multi} (h : ref.Stops pid tid trailer last) :
    ref.Names pid tid := by
  cases ref with
  | bare id =>
    unfold ThreadRef.Stops at h
    unfold ThreadRef.Names
    cases multi with
    | true => exact id.namesProcess_iff.mpr h.2
    | false =>
      have hthread := h.2.imp_right And.right
      exact id.namesThread_iff.mpr hthread
  | process p =>
    cases p with
    | all => exact h.elim
    | number n => exact (IdPart.number n).namesProcess_iff.mpr h.2.2.1
  | thread p t => exact ⟨p.namesProcess_iff.mpr h.1, t.namesThread_iff.mpr (h.2.imp_right And.right)⟩

theorem ThreadRef.Passes.not_names {multi : Bool} {ref : ThreadRef multi} (h : ref.Passes pid tid) : ¬ref.Names pid tid := by
  cases ref with
  | bare id =>
    obtain ⟨rfl, -, -, hne⟩ := h
    exact fun hnames => not_or.mpr hne (id.namesThread_iff.mp hnames)
  | process p => exact h.elim
  | thread p t => exact fun hnames => not_or.mpr h.2.2 (t.namesThread_iff.mp hnames.2)

/-- What the loop does at an action with an id. -/
theorem ref_outcome {multi : Bool} (signal : Option (Hex.Digit × Hex.Digit)) (ref : ThreadRef multi) (as : List (ContAction multi))
    {found : Except ResumeErrno Bool}
    (hfound : vContLoop ⟨multi, pid⟩ tid (commandText signal ++ 0x3A :: (ref.text ++ afterAction trailer as)) = found) :
    (ref.Stops pid tid trailer (as = []) → found = .ok true) ∧
      (ref.Passes pid tid → (as = [] → found ≠ .ok false) ∧
        ∀ b bs, as = b :: bs → found = vContLoop ⟨multi, pid⟩ tid (b.text ++ afterAction trailer bs)) ∧
      (¬ref.Stops pid tid trailer (as = []) → ¬ref.Passes pid tid → ∃ e, found = .error e) := by
  have hfollowed := followed_afterAction trailer as
  subst hfound
  cases ref with
  | bare id =>
    cases multi with
    | false =>
      obtain ⟨hstop, hpass, hfail⟩ := vContLoop_thread tid signal (parseThreadId_single pid id hfollowed)
      refine ⟨hstop, fun h => ?_, fun hs hp => hfail hs (fun h => hp ⟨rfl, h⟩)⟩
      rw [ThreadRef.text, hpass h.2]
      constructor
      · rintro rfl
        cases id with
        | all => exact absurd rfl h.2.2.2.1
        | number n => exact vContLoop_reread n trailer
      · rintro b bs rfl
        rw [afterAction_cons]
        rfl
    | true =>
      rw [ThreadRef.text, vContLoop_ref, parseThreadId_bare]
      cases as with
      | nil =>
        rw [afterAction_nil, parseBare_last]
        dsimp only
        refine ⟨fun h => ?_, fun h => (by cases h.1), fun hs _ => ?_⟩
        · rw [if_neg (not_and_or.mpr (h.2.imp not_not.mpr not_not.mpr)), if_pos (.inl rfl)]
        · rw [if_pos (not_or.mp fun h => hs ⟨rfl, h⟩)]
          exact ⟨_, rfl⟩
      | cons b bs =>
        rw [afterAction_cons, parseBare_inside id rfl]
        exact ⟨fun h => (by cases h.1), fun h => (by cases h.1), fun _ _ => ⟨_, rfl⟩⟩
  | process p =>
    rw [ThreadRef.text, List.cons_append, vContLoop_ref, parseThreadId_process]
    cases as with
    | nil =>
      cases p with
      | all =>
        rw [parsePid_process pid (.inl rfl) hfollowed]
        exact ⟨False.elim, False.elim, fun _ _ => ⟨_, rfl⟩⟩
      | number n =>
        have hsplit : 0x70 :: (n.text ++ 0 :: trailer.bytes) = (0x70 :: (n.text ++ [0])) ++ trailer.bytes := by
          simp
        rw [afterAction_nil, IdPart.text, parsePid_last, Option.bind_some]
        dsimp only
        rw [hsplit, parseTid_trailer]
        have hget : (0x70 :: (n.text ++ [0]) ++ trailer.bytes).getD ((0x70 :: (n.text ++ [0])).length + 2) 0 = trailer.next.headD 0 := by
          rw [List.getD_eq_getElem?_getD, List.getElem?_append_right (by omega), Nat.add_sub_cancel_left]
          cases hnext : trailer.next <;> simp [Trailer.bytes, hnext]
        refine ⟨fun ⟨_, hnext, hpid, htid⟩ => ?_, False.elim, fun hs _ => ?_⟩
        · rw [if_neg (by tauto)]
          dsimp only
          rw [if_neg (by tauto), if_pos (by tauto)]
        · by_cases hnone : trailer.next.headD 0 ≠ 0 ∨ n.value - 1 = allPids ∧ trailer.checksum ≠ 0
          · rw [if_pos hnone]
            exact ⟨_, rfl⟩
          · rw [if_neg hnone]
            dsimp only
            have hnext : trailer.next.headD 0 = 0 := not_not.mp (not_or.mp hnone).1
            have hstop : ¬StopsAt pid tid (n.value - 1) trailer.checksum := fun h => hs ⟨rfl, hnext, h⟩
            unfold StopsAt at hstop
            by_cases hpid : n.value - 1 ≠ allPids ∧ n.value - 1 ≠ pid
            · rw [if_pos hpid]
              exact ⟨_, rfl⟩
            · -- the id is read again, and a p is no action
              rw [if_neg hpid, if_neg (by tauto), hget, if_neg (not_not.mpr hnext), vContLoop_other (by simp) (by simp)]
              exact ⟨_, rfl⟩
    | cons b bs =>
      have hhead : (afterAction trailer (b :: bs)).headD 0 = 0x3B := by
        rw [afterAction_cons]
        rfl
      rw [parsePid_process pid (.inr hhead) hfollowed]
      refine ⟨fun h => ?_, False.elim, fun _ _ => ⟨_, rfl⟩⟩
      cases p with
      | all => exact h.elim
      | number n => cases h.1
  | thread p t =>
    obtain ⟨hstop, hpass, hfail⟩ := vContLoop_thread tid signal (parseThreadId_thread pid p t hfollowed)
    refine ⟨hstop, fun h => ?_, hfail⟩
    rw [hpass h]
    constructor
    · rintro rfl
      rw [afterAction_nil, if_neg (by simp), ThreadRef.text, List.cons_append, vContLoop_other (by simp) (by simp)]
      simp
    · rintro b bs rfl
      rw [afterAction_cons]
      rfl

theorem vContLoop_noRef {multi : Bool} {a : ContAction multi} (ha : a.ref = none) (as : List (ContAction multi)) :
    vContLoop ⟨multi, pid⟩ tid (a.text ++ afterAction trailer as) = .ok true := by
  have hfollowed := followed_afterAction trailer as
  have htext : a.text ++ afterAction trailer as = commandText a.signal ++ afterAction trailer as := by
    simp [ContAction.text, ha]
  rw [htext, vContLoop_default (command_head _ _)]
  rw [skipAction_command]
  rcases hfollowed with hhead | hhead <;> rw [hhead] <;> decide

/-- What the loop does at an action. -/
theorem action_outcome {multi : Bool} (a : ContAction multi) (as : List (ContAction multi)) {found : Except ResumeErrno Bool}
    (hfound : vContLoop ⟨multi, pid⟩ tid (a.text ++ afterAction trailer as) = found) :
    ((∀ ref ∈ a.ref, ref.Stops pid tid trailer (as = [])) → found = .ok true ∧ a.Matches pid tid) ∧
      ((∃ ref ∈ a.ref, ref.Passes pid tid) → ¬a.Matches pid tid ∧ (as = [] → found ≠ .ok false) ∧
        ∀ b bs, as = b :: bs → found = vContLoop ⟨multi, pid⟩ tid (b.text ++ afterAction trailer bs)) ∧
      ((¬∀ ref ∈ a.ref, ref.Stops pid tid trailer (as = [])) → (¬∃ ref ∈ a.ref, ref.Passes pid tid) → ∃ e, found = .error e) := by
  unfold ContAction.Matches
  cases ha : a.ref with
  | none =>
    rw [vContLoop_noRef ha] at hfound
    subst hfound
    simp
  | some ref =>
    have htext : a.text ++ afterAction trailer as = commandText a.signal ++ 0x3A :: (ref.text ++ afterAction trailer as) := by
      simp [ContAction.text, ha]
    rw [htext] at hfound
    obtain ⟨hstop, hpass, hfail⟩ := ref_outcome a.signal ref as hfound
    simp only [Option.mem_some_iff, forall_eq', exists_eq_left']
    exact ⟨fun h => ⟨hstop h, h.names⟩, fun h => ⟨h.not_names, hpass h⟩, hfail⟩

/-- A list that is read as it is meant has an action for the current thread, which is found; of any other one an error is replied,
or there is no such action and yet one is found. -/
theorem vContLoop_actions {multi : Bool} (as : List (ContAction multi)) : ∀ (a : ContAction multi) {found : Except ResumeErrno Bool},
    vContLoop ⟨multi, pid⟩ tid (a.text ++ afterAction trailer as) = found →
    (ActionsStop pid tid trailer (a :: as) → found = .ok true ∧ ∃ b ∈ a :: as, b.Matches pid tid) ∧
      (¬ActionsStop pid tid trailer (a :: as) → (∃ e, found = .error e) ∨
        (found ≠ .ok false ∧ ∀ b ∈ a :: as, ¬b.Matches pid tid)) := by
  induction as with
  | nil =>
    intro a found hfound
    obtain ⟨hstop, hpass, hfail⟩ := action_outcome a [] hfound
    refine ⟨fun h => ?_, fun h => ?_⟩
    · obtain ⟨hok, hmatches⟩ := hstop (h.resolve_right fun h => h.2)
      exact ⟨hok, a, List.mem_cons_self, hmatches⟩
    · have hnot := (not_or.mp h).1
      by_cases hp : ∃ ref ∈ a.ref, ref.Passes pid tid
      · obtain ⟨hmatches, hne, -⟩ := hpass hp
        exact .inr ⟨hne rfl, by simpa using hmatches⟩
      · exact .inl (hfail hnot hp)
  | cons b bs ih =>
    intro a found hfound
    obtain ⟨hstop, hpass, hfail⟩ := action_outcome a (b :: bs) hfound
    refine ⟨fun h => ?_, fun h => ?_⟩
    · rcases h with h | ⟨hp, h⟩
      · obtain ⟨hok, hmatches⟩ := hstop h
        exact ⟨hok, a, List.mem_cons_self, hmatches⟩
      · obtain ⟨-, -, hnext⟩ := hpass hp
        obtain ⟨hok, c, hc, hmatches⟩ := (ih b (hnext b bs rfl).symm).1 h
        exact ⟨hok, c, List.mem_cons_of_mem a hc, hmatches⟩
    · obtain ⟨hnot, hrest⟩ := not_or.mp h
      by_cases hp : ∃ ref ∈ a.ref, ref.Passes pid tid
      · obtain ⟨hmatches, -, hnext⟩ := hpass hp
        -- the action is for another thread, and the rest decides
        refine ((ih b (hnext b bs rfl).symm).2 fun h => hrest ⟨hp, h⟩).imp_right fun ⟨hne, hnone⟩ => ⟨hne, ?_⟩
        exact List.forall_mem_cons.mpr ⟨hmatches, hnone⟩
      · exact .inl (hfail hnot hp)

end

/-! ## Addresses -/

theorem number_drop_lt {d : Hex.Digit} {ds : List Hex.Digit} {limit : Nat} (h : Hex.number (d :: ds) < limit) :
    Hex.number ds < limit := by
  rw [Hex.number_cons] at h
  omega

/-- A number that fits, as it is read where the packet ends behind it. -/
theorem parse_digits {ds : List Hex.Digit} (hne : ds ≠ []) (hlt : Hex.number ds < 2 ^ 32) {rest : List UInt8} (hrest : Ends rest) :
    parseHexIntegerList 1 0 (ds.map Hex.Digit.char ++ rest) =
      if rest.headD 0 = 0 then some ([Hex.number ds], ds.length) else none := by
  have hparse := HexNumber.parse ⟨ds, hne, hlt⟩ hrest 0
  simp only [HexNumber.text, or_self, List.length_map] at hparse
  exact hparse

/-- What is read as the address behind `c`. -/
theorem parse_fromFourth (n : HexNumber) (trailer : Trailer) :
    (parseHexIntegerList 1 0 ((n.text ++ 0 :: trailer.bytes).drop 3)).map Prod.fst = (fromFourth trailer n.digits).map fun v => [v] := by
  obtain ⟨digits, hne, hlt⟩ := n
  have hboth : Hex.number [trailer.high, trailer.low] < 2 ^ 32 := trailer.number.lt
  unfold HexNumber.text
  dsimp only
  match digits with
  | [] => exact absurd rfl hne
  | [_] =>
    have hparse := parse_digits (by simp) (number_drop_lt hboth) trailer.ends
    have hvalue : Hex.number [trailer.low] = trailer.low.val := by simp [Hex.number]
    rw [hvalue] at hparse
    show (parseHexIntegerList 1 0 ([trailer.low].map Hex.Digit.char ++ trailer.next)).map Prod.fst = _
    rw [hparse, fromFourth]
    split <;> rfl
  | [_, _] =>
    show (parseHexIntegerList 1 0 ([trailer.high, trailer.low].map Hex.Digit.char ++ trailer.next)).map Prod.fst = _
    rw [parse_digits (by simp) hboth trailer.ends, fromFourth]
    split <;> rfl
  | [_, _, _] =>
    show (parseHexIntegerList 1 0 ([] ++ 0 :: trailer.bytes)).map Prod.fst = none
    rw [parseHexIntegerList_nul]
    rfl
  | _ :: _ :: _ :: d :: ds =>
    show (parseHexIntegerList 1 0 ((d :: ds).map Hex.Digit.char ++ 0 :: trailer.bytes)).map Prod.fst = _
    rw [parse_digits (by simp) (number_drop_lt (number_drop_lt (number_drop_lt hlt))) (ends_nul _), List.headD_cons, if_pos rfl,
      fromFourth]
    · rfl
    · simp

theorem withPc_inj {ctx : ResumeCtx} {m n : UInt32} : (ctx.withPc m).continueExecution = (ctx.withPc n).continueExecution ↔ m = n := by
  constructor
  · intro h
    have hpc := congrFun (congrArg ResumeCtx.pc h) ctx.currentThreadId
    simpa [ResumeCtx.withPc, ResumeCtx.continueExecution] using hpc
  · rintro rfl
    rfl

theorem eq_withPc {ctx : ResumeCtx} {n : UInt32} :
    ctx.continueExecution = (ctx.withPc n).continueExecution ↔ ctx.pc ctx.currentThreadId = n := by
  constructor
  · intro h
    have hpc := congrFun (congrArg ResumeCtx.pc h) ctx.currentThreadId
    simpa [ResumeCtx.withPc, ResumeCtx.continueExecution] using hpc
  · rintro rfl
    simp [ResumeCtx.withPc]

section

variable {calls : ThreadContextCalls} {ctx : ResumeCtx} {trailer : Trailer}

/-- `c` with an address. -/
theorem handleContinue_addr (hother : ¬ctx.OtherSelected) (hcurrent : ctx.currentThreadId ≠ 0) (addr : HexNumber) :
    handleContinue calls 0x63 (addr.text ++ 0 :: trailer.bytes) ctx = (none, (ctx.withPc addr.value).continueExecution) ↔
      ∃ n, fromFourth trailer addr.digits = some n ∧
        if calls.get && calls.set then UInt32.ofNat n = addr.value else ctx.pc ctx.currentThreadId = addr.value := by
  have hstart : addrStart 0x63 (addr.text ++ 0 :: trailer.bytes) = some true := by
    obtain ⟨d, ds, hds⟩ := addr.text_eq
    simp [addrStart, hds, d.char_ne (c := 0) (by decide)]
  have hparse := parse_fromFourth addr trailer
  unfold handleContinue
  rw [if_neg hother, hstart]
  dsimp only
  rw [if_pos ⟨rfl, hcurrent⟩]
  cases hread : fromFourth trailer addr.digits with
  | none =>
    rw [hread, Option.map_none, Option.map_eq_none_iff] at hparse
    simp [hparse]
  | some v =>
    rw [hread, Option.map_some, Option.map_eq_some_iff] at hparse
    obtain ⟨⟨ns, k⟩, hparse, rfl⟩ := hparse
    rw [hparse]
    dsimp only
    simp only [Option.some.injEq, exists_eq_left', Prod.mk.injEq, true_and]
    by_cases haccess : (calls.get && calls.set) = true
    · rw [if_pos haccess, if_pos haccess]
      exact withPc_inj
    · rw [if_neg haccess, if_neg haccess]
      exact eq_withPc

theorem handleContinue_other (hother : ctx.OtherSelected) (command : UInt8) (s : List UInt8) :
    handleContinue calls command s ctx = (none, ctx) := if_pos hother

/-- `c` without an address. -/
theorem handleContinue_plain (hother : ¬ctx.OtherSelected) (behind : List UInt8) :
    handleContinue calls 0x63 (0 :: behind) ctx = (none, ctx.continueExecution) := by
  unfold handleContinue
  rw [if_neg hother]
  rfl

/-- `C` with a signal, and without an address. -/
theorem handleContinue_signal (hother : ¬ctx.OtherSelected) (high low : Hex.Digit) (behind : List UInt8) :
    handleContinue calls 0x43 (high.char :: low.char :: 0 :: behind) ctx = (none, ctx.continueExecution) := by
  have hstart : addrStart 0x43 (high.char :: low.char :: 0 :: behind) = some false := by
    simp [addrStart, high.char_ne (c := 0) (by decide), low.char_ne (c := 0) (by decide)]
  unfold handleContinue
  rw [if_neg hother, hstart]
  rfl

/-- With an address it is refused. -/
theorem handleContinue_signal_addr (hother : ¬ctx.OtherSelected) (high low : UInt8) (behind : List UInt8) :
    handleContinue calls 0x43 (high :: low :: 0x3B :: behind) ctx = (some .eilseq, ctx) := by
  have hstart : addrStart 0x43 (high :: low :: 0x3B :: behind) = none := by
    simp [addrStart]
  unfold handleContinue
  rw [if_neg hother, hstart]

/-! ## Lists of actions -/

/-- The handler of `vCont` is found by its name. -/
theorem verboseCommand_cont {rest : List UInt8} (hrest : Followed rest) : verboseCommand (ascii "Cont" ++ rest) ctx =
    some (verboseContinue (if rest.headD 0 = 0 then none else some (rest.drop 1)) ctx) := by
  have hname : (ascii "Cont" ++ rest).takeWhile (fun c => c ≠ 0 ∧ c ≠ 0x3B ∧ c ≠ 0x3A) = ascii "Cont" := by
    unfold Followed at hrest
    cases rest with
    | nil => rfl
    | cons c rest => rcases hrest with rfl | rfl <;> rfl
  have hverbose : verboseName (ascii "Cont" ++ rest) = (ascii "Cont", if rest.headD 0 = 0 then none else some (rest.drop 1)) := by
    unfold verboseName
    rw [hname]
    dsimp only
    rw [List.drop_left]
  unfold verboseCommand
  rw [if_neg (by simp [ascii]), hverbose]
  rfl

theorem verboseContinue_nil (hcurrent : ctx.currentThreadId ≠ 0) : verboseContinue none ctx = (none, ctx) := by
  simp [verboseContinue, hcurrent]

theorem verboseContinue_eq (hcurrent : ctx.currentThreadId ≠ 0) (s : List UInt8) : verboseContinue (some s) ctx =
    match vContLoop ctx.form ctx.currentThreadId s with
    | .error e => (some e, ctx)
    | .ok found => (none, if found = true then ctx.continueExecution else ctx) := by
  simp [verboseContinue, hcurrent]

theorem continueExecution_ne : ctx.continueExecution ≠ ctx := by
  intro h
  have hcontinued := congrArg ResumeCtx.continued h
  simp [ResumeCtx.continueExecution] at hcontinued

theorem vCont_iff (hcurrent : ctx.currentThreadId ≠ 0) (actions : List (ContAction ctx.form.multiprocessExtEnabled)) :
    ResumesRight calls ctx (.vCont actions) trailer ↔ (ResumePacket.vCont actions).ReadWell calls ctx trailer := by
  have hhandle : handleResume calls ((ResumePacket.vCont actions).text ++ 0 :: trailer.bytes) ctx =
      some (verboseContinue (if (afterAction trailer actions).headD 0 = 0 then none
        else some ((afterAction trailer actions).drop 1)) ctx) := by
    rw [← verboseCommand_cont (followed_afterAction trailer actions)]
    simp [handleResume, ResumePacket.text, afterAction, ascii]
  unfold ResumePacket.ReadWell
  cases actions with
  | nil =>
    refine iff_of_true ⟨?_, fun _ => ?_⟩ (.inl rfl)
    · rintro ⟨a, ha, -⟩
      cases ha
    · rw [hhandle, afterAction_nil, List.headD_cons, if_pos rfl, verboseContinue_nil hcurrent]
  | cons a as =>
    rw [afterAction_cons, List.headD_cons, if_neg (by decide), List.drop_succ_cons, List.drop_zero,
      verboseContinue_eq hcurrent] at hhandle
    have hfound : vContLoop ctx.form ctx.currentThreadId (a.text ++ afterAction trailer as) = _ := rfl
    obtain ⟨hread, hmisread⟩ := vContLoop_actions as a hfound
    simp only [reduceCtorEq, false_or]
    constructor
    · intro hright
      by_contra hstop
      rcases hmisread hstop with ⟨e, he⟩ | ⟨hne, hnone⟩
      · -- an error is replied, which never is expected
        rw [he] at hhandle
        by_cases hresumes : (ResumePacket.vCont (a :: as)).Resumes ctx
        · exact absurd (hhandle.symm.trans (hright.resumed hresumes)) (by simp)
        · exact absurd (hhandle.symm.trans (hright.unchanged hresumes)) (by simp)
      · -- the target is resumed, although no action is for the current thread
        have hresumes : ¬(ResumePacket.vCont (a :: as)).Resumes ctx := by
          rintro ⟨b, hb, hmatches⟩
          exact hnone b hb hmatches
        have hunchanged := hhandle.symm.trans (hright.unchanged hresumes)
        cases hfound : vContLoop ⟨ctx.form.multiprocessExtEnabled, ctx.form.pid⟩ ctx.currentThreadId
            (a.text ++ afterAction trailer as) with
        | error e =>
          rw [hfound] at hunchanged
          simp at hunchanged
        | ok found =>
          cases found with
          | false => exact hne hfound
          | true =>
            rw [hfound] at hunchanged
            simp [continueExecution_ne] at hunchanged
    · intro hstop
      obtain ⟨hok, b, hb, hmatches⟩ := hread hstop
      rw [hok] at hhandle
      refine ⟨fun _ => hhandle, fun hnone => ?_⟩
      exact absurd ⟨b, hb, hmatches⟩ hnone

/-! ## All packets -/

/-- Where another thread is selected, `c` and `C` do nothing. -/
theorem command_other (hother : ctx.OtherSelected) (signal : Option (Hex.Digit × Hex.Digit)) (addr : Option HexNumber) :
    ResumesRight calls ctx (.command signal addr) trailer := by
  refine ⟨fun h => absurd hother h, fun _ => ?_⟩
  cases signal with
  | none => exact congrArg some (handleContinue_other hother 0x63 _)
  | some signal => exact congrArg some (handleContinue_other hother 0x43 _)

theorem command_iff (hcurrent : ctx.currentThreadId ≠ 0) (signal : Option (Hex.Digit × Hex.Digit)) (addr : Option HexNumber) :
    ResumesRight calls ctx (.command signal addr) trailer ↔
      (.command signal addr : ResumePacket ctx.form.multiprocessExtEnabled).ReadWell calls ctx trailer := by
  by_cases hother : ctx.OtherSelected
  · refine iff_of_true (command_other hother signal addr) ?_
    match signal, addr with
    | none, none => exact trivial
    | some _, none => exact trivial
    | none, some _ => exact .inl hother
    | some _, some _ => exact hother
  · match signal, addr with
    | none, none => exact iff_of_true ⟨fun _ => congrArg some (handleContinue_plain hother _), fun h => absurd hother h⟩ trivial
    | some (high, low), none =>
      exact iff_of_true ⟨fun _ => congrArg some (handleContinue_signal hother high low _), fun h => absurd hother h⟩ trivial
    | none, some addr =>
      refine Iff.trans ?_ (or_iff_right hother).symm
      rw [← handleContinue_addr hother hcurrent addr]
      constructor
      · exact fun hright => Option.some.inj (hright.resumed hother)
      · exact fun hhandle => ⟨fun _ => congrArg some hhandle, fun h => absurd hother h⟩
    | some (high, low), some addr =>
      refine iff_of_false (fun hright => ?_) hother
      have hhandle := (congrArg some (handleContinue_signal_addr hother high.char low.char _)).symm.trans (hright.resumed hother)
      exact absurd hhandle (by simp)

/-- With a current thread, a packet resumes the target as it should exactly if it is read as it is meant. -/
theorem resumesRight_iff (hcurrent : ctx.currentThreadId ≠ 0) (packet : ResumePacket ctx.form.multiprocessExtEnabled) :
    ResumesRight calls ctx packet trailer ↔ packet.ReadWell calls ctx trailer := by
  cases packet with
  | command signal addr => exact command_iff hcurrent signal addr
  | vCont actions => exact vCont_iff hcurrent actions

end

/-- A process that has stopped at thread 1. -/
def stoppedCtx : ResumeCtx := ⟨⟨false, 0⟩, 1, 0, 0, false, 0, fun _ => 0⟩

/-- `vCont;c` resumes. -/
theorem resumesRight_vCont_c :
    ResumesRight ⟨true, true⟩ stoppedCtx (.vCont [⟨none, none⟩]) ⟨⟨0x61, 10, rfl⟩, ⟨0x38, 8, rfl⟩, [], by decide⟩ :=
  (resumesRight_iff (by decide) _).mpr (.inr (.inl (by simp)))

/-- `C05;10` is answered with an error, and so is `vCont;c:2`. -/
theorem resume_refused :
    ¬ResumesRight ⟨true, true⟩ stoppedCtx
        (.command (some (⟨0x30, 0, rfl⟩, ⟨0x35, 5, rfl⟩)) (some ⟨[⟨0x31, 1, rfl⟩, ⟨0x30, 0, rfl⟩], by simp, by decide⟩))
        ⟨⟨0x34, 4, rfl⟩, ⟨0x34, 4, rfl⟩, [], by decide⟩ ∧
      ¬ResumesRight ⟨true, true⟩ stoppedCtx
        (.vCont [⟨none, some (.bare (.number ⟨[⟨0x32, 2, rfl⟩], by simp, by decide⟩))⟩])
        ⟨⟨0x31, 1, rfl⟩, ⟨0x34, 4, rfl⟩, [], by decide⟩ := by
  constructor
  · intro hright
    have hother : stoppedCtx.OtherSelected := (command_iff (by decide) _ _).mp hright
    exact absurd hother (by decide)
  · intro hright
    rcases (vCont_iff (by decide) _).mp hright with h | hstop | ⟨-, hrest⟩
    · cases h
    · -- thread 2 is not the current one
      obtain ⟨-, hthread | ⟨-, hthread⟩⟩ : StopsAt 0 1 0 2 := hstop _ rfl
      · exact absurd hthread (by decide)
      · exact absurd hthread (by decide)
    · exact hrest

end Omiiba.Rosalina
