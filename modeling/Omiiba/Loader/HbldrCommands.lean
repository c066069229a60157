/-
The commands of hb:ldr, after `hbldrHandleCommands` and the part of `hbldrLoadProcess` that picks the file: which
target and which arguments a homebrew is started with.
-/
import Omiiba.Lib.Writes
import Omiiba.Sm.Common
import Mathlib.Data.List.TakeWhile

namespace Omiiba.Loader

open Omiiba.Sm (ipcMakeHeader)

/-! ## The target and the arguments -/

def pathMax : Nat := 255

def argvBufSize : Nat := 0x400

/-- `utf8_to_utf16` of libctru: the form of a path, none for a malformed one, and what it writes of it with room
for a number of units. It converts no more than fits, though it counts all units. -/
structure Utf8ToUtf16 where
  form : List UInt8 → Option (List UInt16)
  written : List UInt8 → Nat → List UInt16
  bounded : ∀ path len, (written path len).length ≤ len
  whole : ∀ path len units, form path = some units → units.length ≤ len → written path len = units
  nonzero : ∀ path units, form path = some units → 0 ∉ path → 0 ∉ units

/-- `hbldrTarget`, `ldrArgvBuf`, `staticBufferForHbldr` and what is in memory behind it. -/
structure Hbldr where
  target : Memory UInt16
  argv : Memory UInt8
  buffer : List UInt8
  size : buffer.length = 0x400
  beyond : List UInt8

/-- `SetTarget` as it has to come, with its descriptor of a static buffer. -/
def TargetHeader (header desc : UInt32) : Prop := header = ipcMakeHeader 2 0 2 ∧ desc &&& 0x3FFF = 0x0002

/-- `SetArgv` as it has to come. -/
def ArgvHeader (header desc : UInt32) : Prop := header = ipcMakeHeader 3 0 2 ∧ desc &&& 0x3FFF = 0x402

instance (header desc : UInt32) : Decidable (TargetHeader header desc) := inferInstanceAs (Decidable (_ ∧ _))

instance (header desc : UInt32) : Decidable (ArgvHeader header desc) := inferInstanceAs (Decidable (_ ∧ _))

/-- A command with what the kernel copies to the static buffer, of the size that its descriptor announces. -/
structure Command where
  header : UInt32
  desc : UInt32
  sent : List UInt8
  fits : sent.length ≤ 0x400
  announced : TargetHeader header desc ∨ ArgvHeader header desc → (desc >>> 14).toNat = sent.length

/-- What a command writes to `hbldrTarget` and `ldrArgvBuf`, and its reply. -/
structure CommandTrace where
  target : List (Write UInt16)
  argv : List (Write UInt8)
  reply : List UInt32

/-- `error`. -/
def replyError (rc : UInt32) : List UInt32 := [ipcMakeHeader 0 1 0, rc]

/-- The string at an address. -/
def cString (bytes : List UInt8) : List UInt8 := bytes.takeWhile (· ≠ 0)

/-- What becomes of the conversion of a path: what is written, and the units if they are not too many. -/
def converted (conv : Utf8ToUtf16) (path : List UInt8) (inSize : Nat) : List UInt16 × Option Nat :=
  (conv.written path inSize, ((conv.form path).map List.length).filter (· ≤ pathMax))

/-- `SetTarget`. -/
def setTarget (conv : Utf8ToUtf16) (bytes : List UInt8) (inSize : Nat) : CommandTrace :=
  let inSize := if inSize > pathMax then inSize else pathMax
  match converted conv (cString bytes) inSize with
  | (written, none) => ⟨[⟨0, written⟩, ⟨0, [0]⟩], [], replyError 0xD9001830⟩
  | (written, some units) => ⟨[⟨0, written⟩, ⟨units, [0]⟩], [], [ipcMakeHeader 2 1 0, 0]⟩

/-- `SetArgv`. -/
def setArgv (bytes : List UInt8) (inSize : Nat) : CommandTrace :=
  let inSize := if inSize > argvBufSize then inSize else argvBufSize
  ⟨[], [⟨0, bytes.take inSize⟩], [ipcMakeHeader 3 1 0, 0]⟩

/-- `hbldrHandleCommands`, with what is at the address of the static buffer. -/
def hbldrHandleCommands (conv : Utf8ToUtf16) (cmd : Command) (bytes : List UInt8) : CommandTrace :=
  match (cmd.header >>> 16).toNat with
  | 2 =>
    if TargetHeader cmd.header cmd.desc then setTarget conv bytes (cmd.desc >>> 14).toNat
    else ⟨[], [], replyError 0xD9001830⟩
  | 3 =>
    if ArgvHeader cmd.header cmd.desc then setArgv bytes (cmd.desc >>> 14).toNat
    else ⟨[], [], replyError 0xD9001830⟩
  | _ => ⟨[], [], replyError 0xD900182F⟩

/-- What the kernel leaves at the address of the static buffer. -/
def Hbldr.delivered (s : Hbldr) (cmd : Command) : List UInt8 := cmd.sent ++ s.buffer.drop cmd.sent.length ++ s.beyond

/-- A command. -/
def Hbldr.handle (conv : Utf8ToUtf16) (s : Hbldr) (cmd : Command) : Hbldr where
  target := s.target.written (hbldrHandleCommands conv cmd (s.delivered cmd)).target
  argv := s.argv.written (hbldrHandleCommands conv cmd (s.delivered cmd)).argv
  buffer := cmd.sent ++ s.buffer.drop cmd.sent.length
  size := by
    rw [List.length_append, List.length_drop, s.size]
    have hfits := cmd.fits
    omega
  beyond := s.beyond

/-- `u"/boot.3dsx"`. -/
def bootTarget : List UInt16 := ['/', 'b', 'o', 'o', 't', '.', '3', 'd', 's', 'x'].map fun c => UInt16.ofNat c.toNat

/-- `"sdmc:/boot.3dsx"` behind the number of arguments, with the zeroes of `strncpy`. -/
def bootArgv : List UInt8 :=
  let text := ['s', 'd', 'm', 'c', ':', '/', 'b', 'o', 'o', 't', '.', '3', 'd', 's', 'x'].map fun c => UInt8.ofNat c.toNat
  [1, 0, 0, 0] ++ text ++ List.replicate (argvBufSize - 4 - text.length) 0

/-- The path in `hbldrTarget`. -/
def Hbldr.path (s : Hbldr) : List UInt16 := (s.target.read 0 (pathMax + 1)).takeWhile (· ≠ 0)

/-- `region` of `hbldrLoadProcess`, from the kernel capabilities of the exheader. -/
def regionOf (descriptors : List UInt32) : UInt32 :=
  (descriptors.take 28).foldl (fun (region desc : UInt32) => if desc >>> 23 = 0x1FE then desc &&& 0xF00 else region) 0

/-- `hbldrLoadProcess` up to the open of the file: its path and the arguments that go with it, none where the
exheader has no region. The target only serves once. -/
def Hbldr.load (s : Hbldr) (descriptors : List UInt32) : Option (List UInt16 × List UInt8) × Hbldr :=
  if regionOf descriptors = 0 then (none, s)
  else
    let s := if s.target 0 = 0 then
      { s with
        target := s.target.store 0 (bootTarget ++ List.replicate (pathMax - bootTarget.length) 0)
        argv := s.argv.store 0 bootArgv }
    else s
    (some (s.path, s.argv.read 0 argvBufSize), { s with target := s.target.store 0 [0] })

/-! ## What is promised of a command -/

/-- The bytes of the path that was sent: all of them, if there is no NUL. -/
def Command.path (cmd : Command) : List UInt8 := cString cmd.sent

/-- A command writes inside the two arrays, and what it writes is decided by the bytes sent: it is the same for
whatever earlier commands have left in the static buffer. -/
structure Sound (conv : Utf8ToUtf16) (s : Hbldr) (cmd : Command) : Prop where
  target : ∀ w ∈ (hbldrHandleCommands conv cmd (s.delivered cmd)).target, w.stop ≤ pathMax + 1
  argv : ∀ w ∈ (hbldrHandleCommands conv cmd (s.delivered cmd)).argv, w.stop ≤ argvBufSize
  fresh : ∀ s' : Hbldr, hbldrHandleCommands conv cmd (s'.delivered cmd) = hbldrHandleCommands conv cmd (s.delivered cmd)

/-- The units a path of `SetTarget` is converted to, at most. -/
def Command.room (cmd : Command) : Nat := max cmd.sent.length pathMax

/-- A command whose bytes are enough for it. -/
structure Harmless (conv : Utf8ToUtf16) (cmd : Command) : Prop where
  /-- What is behind the path sent has no part in its conversion: it has its NUL, or it does not come to that. -/
  ends : TargetHeader cmd.header cmd.desc → ∀ behind : List UInt8, 0x400 ≤ cmd.sent.length + behind.length →
    converted conv (cString (cmd.sent ++ behind)) cmd.room = converted conv cmd.path cmd.room
  /-- No more units are converted than the array has. -/
  short : TargetHeader cmd.header cmd.desc → (conv.written cmd.path cmd.room).length ≤ pathMax + 1
  /-- The arguments fill their buffer. -/
  full : ArgvHeader cmd.header cmd.desc → cmd.sent.length = argvBufSize

section Handle

variable (conv : Utf8ToUtf16) (cmd : Command)

theorem handleCommands_target (h : TargetHeader cmd.header cmd.desc) (bytes : List UInt8) :
    hbldrHandleCommands conv cmd bytes = setTarget conv bytes cmd.sent.length := by
  unfold hbldrHandleCommands
  rw [if_pos h, cmd.announced (Or.inl h), h.1]
  rfl

theorem handleCommands_argv (h : ArgvHeader cmd.header cmd.desc) (bytes : List UInt8) :
    hbldrHandleCommands conv cmd bytes = setArgv bytes cmd.sent.length := by
  unfold hbldrHandleCommands
  rw [if_pos h, cmd.announced (Or.inr h), h.1]
  rfl

/-- Any other command writes nothing. -/
theorem handleCommands_other (htarget : ¬ TargetHeader cmd.header cmd.desc) (hargv : ¬ ArgvHeader cmd.header cmd.desc) :
    ∃ reply, ∀ bytes, hbldrHandleCommands conv cmd bytes = ⟨[], [], reply⟩ := by
  unfold hbldrHandleCommands
  simp only [if_neg htarget, if_neg hargv]
  split <;> exact ⟨_, fun _ => rfl⟩

/-- What a conversion becomes. -/
def targetTrace : List UInt16 × Option Nat → CommandTrace
  | (written, none) => ⟨[⟨0, written⟩, ⟨0, [0]⟩], [], replyError 0xD9001830⟩
  | (written, some units) => ⟨[⟨0, written⟩, ⟨units, [0]⟩], [], [ipcMakeHeader 2 1 0, 0]⟩

theorem targetTrace_target (c : List UInt16 × Option Nat) : (targetTrace c).target = [⟨0, c.1⟩, ⟨c.2.getD 0, [0]⟩] := by
  rcases c with ⟨w, _ | n⟩ <;> rfl

theorem targetTrace_argv (c : List UInt16 × Option Nat) : (targetTrace c).argv = [] := by
  rcases c with ⟨w, _ | n⟩ <;> rfl

theorem targetTrace_inj {a b : List UInt16 × Option Nat} (h : targetTrace a = targetTrace b) : a = b := by
  have hwrites := congrArg CommandTrace.target h
  have hreply := congrArg CommandTrace.reply h
  have herror : replyError 0xD9001830 ≠ [ipcMakeHeader 2 1 0, 0] := by decide
  rw [targetTrace_target, targetTrace_target] at hwrites
  simp only [List.cons.injEq, Write.mk.injEq, true_and, and_true] at hwrites
  rcases a with ⟨w, _ | n⟩ <;> rcases b with ⟨w', _ | n'⟩
  · exact Prod.ext hwrites.1 rfl
  · exact absurd hreply herror
  · exact absurd hreply.symm herror
  · exact Prod.ext hwrites.1 (congrArg some hwrites.2)

theorem setTarget_eq (bytes : List UInt8) (inSize : Nat) :
    setTarget conv bytes inSize = targetTrace (converted conv (cString bytes) (max inSize pathMax)) := by
  have hmax : (if inSize > pathMax then inSize else pathMax) = max inSize pathMax := by
    split <;> omega
  unfold setTarget targetTrace
  rw [hmax]

theorem converted_units {path : List UInt8} {inSize units : Nat}
    (h : (converted conv path inSize).2 = some units) : units ≤ pathMax := by
  unfold converted at h
  simpa using (Option.filter_eq_some_iff.mp h).2

/-- What is behind the bytes sent. -/
def Hbldr.behind (s : Hbldr) (cmd : Command) : List UInt8 := s.buffer.drop cmd.sent.length ++ s.beyond

theorem delivered_eq (s : Hbldr) : s.delivered cmd = cmd.sent ++ s.behind cmd := List.append_assoc _ _ _

theorem length_behind (s : Hbldr) : 0x400 ≤ cmd.sent.length + (s.behind cmd).length := by
  unfold Hbldr.behind
  rw [List.length_append, List.length_drop, s.size]
  omega

/-- Anything can be behind the bytes sent: an earlier command has left it there. -/
theorem exists_behind (s : Hbldr) {behind : List UInt8} (h : 0x400 ≤ cmd.sent.length + behind.length) :
    ∃ s' : Hbldr, s'.behind cmd = behind := by
  have hfits := cmd.fits
  refine ⟨⟨s.target, s.argv, List.replicate cmd.sent.length 0 ++ behind.take (0x400 - cmd.sent.length), ?_,
    behind.drop (0x400 - cmd.sent.length)⟩, ?_⟩
  · rw [List.length_append, List.length_replicate, List.length_take]
    omega
  · unfold Hbldr.behind
    dsimp only
    rw [List.drop_left' List.length_replicate, List.take_append_drop]

theorem cString_append_zero (bytes rest : List UInt8) : cString (bytes ++ 0 :: rest) = cString bytes := by
  unfold cString
  induction bytes with
  | nil => rfl
  | cons b bytes ih =>
    rw [List.cons_append, List.takeWhile_cons, List.takeWhile_cons, ih]

/-- `SetTarget` is sound when its bytes end the path. -/
theorem sound_target_iff (s : Hbldr) (h : TargetHeader cmd.header cmd.desc) :
    Sound conv s cmd ↔
      (∀ behind : List UInt8, 0x400 ≤ cmd.sent.length + behind.length →
        converted conv (cString (cmd.sent ++ behind)) cmd.room = converted conv cmd.path cmd.room) ∧
      (conv.written cmd.path cmd.room).length ≤ pathMax + 1 := by
  have htrace : ∀ s : Hbldr, hbldrHandleCommands conv cmd (s.delivered cmd) =
      targetTrace (converted conv (cString (cmd.sent ++ s.behind cmd)) cmd.room) := by
    intro s
    rw [handleCommands_target conv cmd h, setTarget_eq, delivered_eq]
    rfl
  constructor
  · intro hsound
    have hsame : ∀ behind : List UInt8, 0x400 ≤ cmd.sent.length + behind.length →
        converted conv (cString (cmd.sent ++ behind)) cmd.room =
          converted conv (cString (cmd.sent ++ s.behind cmd)) cmd.room := by
      intro behind hbehind
      obtain ⟨s', hs'⟩ := exists_behind cmd s hbehind
      have hfresh := hsound.fresh s'
      rw [htrace, htrace, hs'] at hfresh
      exact targetTrace_inj hfresh
    -- a NUL right behind the bytes sent
    have hpath : converted conv cmd.path cmd.room = converted conv (cString (cmd.sent ++ s.behind cmd)) cmd.room := by
      rw [← hsame (0 :: List.replicate 0x400 0) (by simp only [List.length_cons, List.length_replicate]; omega),
        cString_append_zero]
      rfl
    refine ⟨fun behind hbehind => (hsame behind hbehind).trans hpath.symm, ?_⟩
    have htarget := hsound.target ⟨0, (converted conv (cString (cmd.sent ++ s.behind cmd)) cmd.room).1⟩ (by
      rw [htrace]
      rw [targetTrace_target]
      exact List.mem_cons_self)
    have hwritten : conv.written cmd.path cmd.room = (converted conv (cString (cmd.sent ++ s.behind cmd)) cmd.room).1 := by
      rw [← hpath]
      rfl
    rw [hwritten]
    simpa [Write.stop] using htarget
  · rintro ⟨hends, hshort⟩
    have hall : ∀ s : Hbldr, hbldrHandleCommands conv cmd (s.delivered cmd) =
        targetTrace (converted conv cmd.path cmd.room) := by
      intro s
      rw [htrace, hends _ (length_behind cmd s)]
    refine ⟨?_, ?_, fun s' => (hall s').trans (hall s).symm⟩
    · intro w hw
      rw [hall, targetTrace_target] at hw
      rcases List.mem_pair.mp hw with rfl | rfl
      · show 0 + (conv.written cmd.path cmd.room).length ≤ pathMax + 1
        omega
      · -- the NUL behind the units, or in front of them all
        cases hunits : (converted conv cmd.path cmd.room).2 with
        | none => simp [Write.stop]
        | some units =>
          have hle := converted_units conv hunits
          simpa [Write.stop] using hle
    · intro w hw
      rw [hall, targetTrace_argv] at hw
      cases hw

/-- What a harmless `SetTarget` does. -/
theorem handleCommands_harmless (s : Hbldr) (h : TargetHeader cmd.header cmd.desc) (hharmless : Harmless conv cmd) :
    hbldrHandleCommands conv cmd (s.delivered cmd) = targetTrace (converted conv cmd.path cmd.room) := by
  rw [handleCommands_target conv cmd h, setTarget_eq, delivered_eq,
    ← hharmless.ends h (s.behind cmd) (length_behind cmd s)]
  rfl

theorem zero_notMem_cString (bytes : List UInt8) : 0 ∉ cString bytes := by
  intro h
  simpa using List.mem_takeWhile_imp h

/-- `SetArgv` is sound when the arguments fill the buffer. -/
theorem sound_argv_iff (s : Hbldr) (h : ArgvHeader cmd.header cmd.desc) :
    Sound conv s cmd ↔ cmd.sent.length = argvBufSize := by
  have hfits : cmd.sent.length ≤ argvBufSize := cmd.fits
  have htrace : ∀ s : Hbldr, hbldrHandleCommands conv cmd (s.delivered cmd) =
      ⟨[], [⟨0, (cmd.sent ++ s.behind cmd).take argvBufSize⟩], [ipcMakeHeader 3 1 0, 0]⟩ := by
    intro s
    rw [handleCommands_argv conv cmd h, delivered_eq]
    unfold setArgv
    rw [if_neg (by omega)]
  constructor
  · intro hsound
    by_contra hless
    obtain ⟨s₀, hs₀⟩ := @exists_behind cmd s (List.replicate 0x400 0) (by rw [List.length_replicate]; omega)
    obtain ⟨s₁, hs₁⟩ := @exists_behind cmd s (List.replicate 0x400 1) (by rw [List.length_replicate]; omega)
    have hsame := (hsound.fresh s₀).trans (hsound.fresh s₁).symm
    rw [htrace, htrace, hs₀, hs₁] at hsame
    simp only [CommandTrace.mk.injEq, List.cons.injEq, Write.mk.injEq, true_and, and_true] at hsame
    -- the first byte that was not sent
    have hbyte := congrArg (·[cmd.sent.length]?) hsame
    rw [List.getElem?_take_of_lt (by omega), List.getElem?_take_of_lt (by omega), List.getElem?_append_right le_rfl,
      List.getElem?_append_right le_rfl, Nat.sub_self, List.getElem?_replicate_of_lt (by decide),
      List.getElem?_replicate_of_lt (by decide)] at hbyte
    exact absurd hbyte (by decide)
  · intro hfull
    have hall : ∀ s : Hbldr, hbldrHandleCommands conv cmd (s.delivered cmd) =
        ⟨[], [⟨0, cmd.sent⟩], [ipcMakeHeader 3 1 0, 0]⟩ := by
      intro s
      rw [htrace, List.take_left' hfull]
    refine ⟨?_, ?_, fun s' => (hall s').trans (hall s).symm⟩
    · intro w hw
      rw [hall] at hw
      cases hw
    · intro w hw
      rw [hall] at hw
      obtain rfl := List.mem_singleton.mp hw
      simpa [Write.stop] using hfits

theorem targetHeader_not_argv {header desc : UInt32} (h : TargetHeader header desc) : ¬ ArgvHeader header desc := by
  intro h'
  have hsame := h.1.symm.trans h'.1
  exact absurd hsame (by decide)

/-- A command is sound exactly when its bytes are enough for it. -/
theorem sound_iff_harmless (s : Hbldr) : Sound conv s cmd ↔ Harmless conv cmd := by
  by_cases htarget : TargetHeader cmd.header cmd.desc
  · rw [sound_target_iff conv cmd s htarget]
    constructor
    · rintro ⟨hends, hshort⟩
      exact ⟨fun _ => hends, fun _ => hshort, fun h => absurd h (targetHeader_not_argv htarget)⟩
    · intro h
      exact ⟨h.ends htarget, h.short htarget⟩
  by_cases hargv : ArgvHeader cmd.header cmd.desc
  · rw [sound_argv_iff conv cmd s hargv]
    constructor
    · intro hfull
      exact ⟨fun h => absurd h htarget, fun h => absurd h htarget, fun _ => hfull⟩
    · intro h
      exact h.full hargv
  · obtain ⟨reply, hother⟩ := handleCommands_other conv cmd htarget hargv
    constructor
    · intro _
      exact ⟨fun h => absurd h htarget, fun h => absurd h htarget, fun h => absurd h hargv⟩
    · intro _
      refine ⟨?_, ?_, fun s' => (hother _).trans (hother _).symm⟩
      · intro w hw
        rw [hother] at hw
        cases hw
      · intro w hw
        rw [hother] at hw
        cases hw

end Handle

/-! ## The file that is opened -/

/-- A command to hb:ldr, or the start of a homebrew with the kernel capabilities of its exheader. -/
inductive HbldrOp
  | command (cmd : Command)
  | load (descriptors : List UInt32)

/-- What each load of a run opens, and with which arguments. -/
def Hbldr.opened (conv : Utf8ToUtf16) : Hbldr → List HbldrOp → List (Option (List UInt16 × List UInt8))
  | _, [] => []
  | s, .command cmd :: ops => (s.handle conv cmd).opened conv ops
  | s, .load descriptors :: ops => (s.load descriptors).1 :: (s.load descriptors).2.opened conv ops

/-- What was asked for: the last target, if it was valid and has not been used, and the last arguments. -/
structure Intent where
  target : Option (List UInt16)
  argv : List UInt8

/-- The UTF-16 form of a path that can be a target. -/
def validTarget (conv : Utf8ToUtf16) (path : List UInt8) : Option (List UInt16) :=
  (conv.form path).filter fun units => units ≠ [] ∧ units.length ≤ pathMax

/-- A command as it is meant: nothing but its own bytes has a part in it. -/
def Intent.command (conv : Utf8ToUtf16) (i : Intent) (cmd : Command) : Intent :=
  if TargetHeader cmd.header cmd.desc then { i with target := validTarget conv cmd.path }
  else if ArgvHeader cmd.header cmd.desc then { i with argv := cmd.sent }
  else i

/-- A load as it is meant. -/
def Intent.load (i : Intent) (descriptors : List UInt32) : Option (List UInt16 × List UInt8) × Intent :=
  if regionOf descriptors = 0 then (none, i)
  else
    match i.target with
    | none => (some (bootTarget, bootArgv), ⟨none, bootArgv⟩)
    | some units => (some (units, i.argv), { i with target := none })

/-- What each load is meant to open. -/
def Intent.opened (conv : Utf8ToUtf16) : Intent → List HbldrOp → List (Option (List UInt16 × List UInt8))
  | _, [] => []
  | i, .command cmd :: ops => (i.command conv cmd).opened conv ops
  | i, .load descriptors :: ops => (i.load descriptors).1 :: (i.load descriptors).2.opened conv ops

/-- `hbldrTarget` holds a target: its units with a NUL behind them, a NUL for none. -/
def Holds (target : Memory UInt16) : Option (List UInt16) → Prop
  | none => target 0 = 0
  | some units => units ≠ [] ∧ units.length ≤ pathMax ∧ 0 ∉ units ∧ target.read 0 (units.length + 1) = units ++ [0]

/-- The two arrays are as it was meant. -/
structure Shows (s : Hbldr) (i : Intent) : Prop where
  target : Holds s.target i.target
  argv : s.argv.read 0 argvBufSize = i.argv

section Run

variable {conv : Utf8ToUtf16} {s : Hbldr} {i : Intent}

theorem read_store_self {α : Type} (m : Memory α) (a : Nat) (bs : List α) : (m.store a bs).read a bs.length = bs := by
  rw [m.read_store_take a le_rfl, List.take_length]

/-- A target that is held is the path that is opened. -/
theorem path_of_holds {units : List UInt16} (h : Holds s.target (some units)) : s.path = units := by
  obtain ⟨_, hlen, hnul, hread⟩ := h
  unfold Hbldr.path
  have hsplit : pathMax + 1 = (units.length + 1) + (pathMax - units.length) := by omega
  rw [hsplit, Memory.read_add, hread, List.append_assoc, List.takeWhile_append_of_pos]
  · simp
  · intro u hu
    simp only [decide_eq_true_eq, ne_eq]
    rintro rfl
    exact hnul hu

theorem target_zero_ne {units : List UInt16} (h : Holds s.target (some units)) : s.target 0 ≠ 0 := by
  obtain ⟨hne, _, hnul, hread⟩ := h
  obtain ⟨u, us, rfl⟩ := List.exists_cons_of_ne_nil hne
  have hhead := congrArg List.head? hread
  rw [List.length_cons] at hhead
  simp [Memory.read, List.range_succ_eq_map] at hhead
  rw [hhead]
  rintro rfl
  exact hnul List.mem_cons_self

theorem holds_none (target : Memory UInt16) (n : Nat) (h : n = 0) : Holds (target.store n [0]) none := by
  subst h
  show target.store 0 [0] 0 = 0
  rw [target.store_inside le_rfl (by decide)]
  rfl

/-- Units with a NUL put behind them. -/
theorem holds_some (target : Memory UInt16) {units : List UInt16} (hne : units ≠ []) (hlen : units.length ≤ pathMax)
    (hnul : 0 ∉ units) : Holds ((target.store 0 units).store units.length [0]) (some units) := by
  refine ⟨hne, hlen, hnul, ?_⟩
  rw [Memory.read_add, Nat.zero_add]
  congr 1
  · rw [Memory.read_store_outside _ (Or.inl (by omega)), read_store_self]
  · exact read_store_self (target.store 0 units) units.length [0]

/-- A load opens what it is meant to. -/
theorem load_shows (h : Shows s i) (descriptors : List UInt32) :
    (s.load descriptors).1 = (i.load descriptors).1 ∧ Shows (s.load descriptors).2 (i.load descriptors).2 := by
  obtain ⟨htarget, hargv⟩ := h
  unfold Hbldr.load Intent.load
  by_cases hregion : regionOf descriptors = 0
  · rw [if_pos hregion, if_pos hregion]
    exact ⟨rfl, htarget, hargv⟩
  rw [if_neg hregion, if_neg hregion]
  cases hi : i.target with
  | none =>
    rw [hi] at htarget
    rw [if_pos (show s.target 0 = 0 from htarget)]
    have hboot : Holds (s.target.store 0 (bootTarget ++ List.replicate (pathMax - bootTarget.length) 0)) (some bootTarget) := by
      refine ⟨by decide, by decide, by decide, ?_⟩
      rw [Memory.read_store_take _ _ (by rw [List.length_append, List.length_replicate]; decide),
        List.take_length_add_append]
      rfl
    have hargs : (s.argv.store 0 bootArgv).read 0 argvBufSize = bootArgv := by
      have hsize : bootArgv.length = argvBufSize := by
        unfold bootArgv
        dsimp only
        rw [List.length_append, List.length_append, List.length_replicate]
        decide
      rw [← hsize, read_store_self]
    refine ⟨?_, holds_none _ 0 rfl, hargs⟩
    dsimp only
    rw [hargs, path_of_holds hboot]
  | some units =>
    rw [hi] at htarget
    rw [if_neg (target_zero_ne htarget)]
    refine ⟨?_, holds_none _ 0 rfl, hargv⟩
    dsimp only
    rw [hargv, path_of_holds htarget]

/-- A harmless command does what it is meant to. -/
theorem handle_shows (h : Shows s i) {cmd : Command} (hharmless : Harmless conv cmd) :
    Shows (s.handle conv cmd) (i.command conv cmd) := by
  obtain ⟨htarget, hargv⟩ := h
  unfold Hbldr.handle Intent.command
  by_cases hset : TargetHeader cmd.header cmd.desc
  · rw [if_pos hset, handleCommands_harmless conv cmd s hset hharmless, targetTrace_target, targetTrace_argv]
    refine ⟨?_, hargv⟩
    show Holds ((s.target.store 0 _).store _ [0]) _
    unfold converted validTarget
    cases hform : conv.form cmd.path with
    | none => exact holds_none _ _ rfl
    | some units =>
      have hroom : pathMax ≤ cmd.room := Nat.le_max_right _ _
      by_cases hlong : units.length ≤ pathMax
      · by_cases hempty : units = []
        · subst hempty
          exact holds_none _ _ rfl
        · have hnul := conv.nonzero cmd.path units hform (zero_notMem_cString _)
          rw [conv.whole cmd.path cmd.room units hform (by omega)]
          simpa [Option.filter, hlong, hempty] using holds_some s.target hempty hlong hnul
      · simpa [Option.filter, hlong] using holds_none (s.target.store 0 (conv.written cmd.path cmd.room)) 0 rfl
  rw [if_neg hset]
  by_cases hset : ArgvHeader cmd.header cmd.desc
  · have hfull := hharmless.full hset
    have htrace : hbldrHandleCommands conv cmd (s.delivered cmd) = ⟨[], [⟨0, cmd.sent⟩], [ipcMakeHeader 3 1 0, 0]⟩ := by
      rw [handleCommands_argv conv cmd hset, delivered_eq]
      unfold setArgv
      rw [if_neg (by omega)]
      dsimp only
      rw [List.take_left' hfull]
    rw [if_pos hset, htrace]
    refine ⟨htarget, ?_⟩
    show (s.argv.store 0 cmd.sent).read 0 argvBufSize = cmd.sent
    rw [← hfull, read_store_self]
  · obtain ⟨reply, hother⟩ := handleCommands_other conv cmd ‹_› hset
    rw [if_neg hset, hother]
    exact ⟨htarget, hargv⟩

/-- Every load of a run opens what it is meant to. -/
theorem opened_eq : ∀ (ops : List HbldrOp) (s : Hbldr) (i : Intent), Shows s i →
    (∀ cmd, HbldrOp.command cmd ∈ ops → Harmless conv cmd) → s.opened conv ops = i.opened conv ops := by
  intro ops
  induction ops with
  | nil =>
    intro s i _ _
    rfl
  | cons op ops ih =>
    intro s i h hall
    have hrest : ∀ cmd, HbldrOp.command cmd ∈ ops → Harmless conv cmd := fun cmd hcmd =>
      hall cmd (List.mem_cons_of_mem _ hcmd)
    cases op with
    | command cmd => exact ih _ _ (handle_shows h (hall cmd List.mem_cons_self)) hrest
    | load descriptors =>
      obtain ⟨hfirst, hafter⟩ := load_shows h descriptors
      rw [Hbldr.opened, Intent.opened, hfirst, ih _ _ hafter hrest]

end Run

/-- For every command and whatever came before it: it stays inside the two arrays, and only its own bytes have a
part in what it writes, exactly where its bytes are enough for it. With such commands, in any order and with loads
between them, every load opens the file that was asked for with its arguments. -/
theorem hbldr_iff (conv : Utf8ToUtf16) :
    (∀ (s : Hbldr) (cmd : Command), Sound conv s cmd ↔ Harmless conv cmd) ∧
      ∀ (s : Hbldr) (ops : List HbldrOp), s.target 0 = 0 → (∀ cmd, HbldrOp.command cmd ∈ ops → Harmless conv cmd) →
        s.opened conv ops = (⟨none, s.argv.read 0 argvBufSize⟩ : Intent).opened conv ops := by
  refine ⟨fun s cmd => sound_iff_harmless conv cmd s, fun s ops hnone hall => ?_⟩
  have hshows : Shows s ⟨none, s.argv.read 0 argvBufSize⟩ := by
    constructor
    · exact hnone
    · dsimp only
  exact opened_eq ops s _ hshows hall

/-- The conversion of paths of ASCII characters, up to the first byte that is none. -/
def asciiConversion : Utf8ToUtf16 where
  form path := if path.all (· < 0x80) then some (path.map fun b => UInt16.ofNat b.toNat) else none
  written path len := ((path.takeWhile (· < 0x80)).map fun b => UInt16.ofNat b.toNat).take len
  bounded path len := by
    rw [List.length_take]
    omega
  whole path len units hform hlen := by
    split at hform
    · rename_i hall
      cases hform
      rw [List.takeWhile_eq_self_iff.mpr (by simpa using hall), List.take_of_length_le hlen]
    · cases hform
  nonzero path units hform hnul := by
    split at hform
    · cases hform
      rw [List.mem_map]
      rintro ⟨b, hb, hzero⟩
      have hb0 : b = 0 := by
        have hlt := b.toNat_lt
        have hnat := congrArg UInt16.toNat hzero
        have hsize : UInt16.size = 65536 := rfl
        rw [UInt16.toNat_ofNat_of_lt' (by omega)] at hnat
        exact UInt8.toNat_inj.mp hnat
      exact hnul (hb0 ▸ hb)
    · cases hform

/-- A path of 257 characters with its NUL. -/
def longTarget : Command where
  header := ipcMakeHeader 2 0 2
  desc := ((258 : UInt32) <<< 14) ||| 2
  sent := List.replicate 257 0x61 ++ [0]
  fits := by
    rw [List.length_append, List.length_replicate]
    decide
  announced := by
    rw [List.length_append, List.length_replicate]
    decide

/-- One byte of arguments. -/
def shortArgv : Command where
  header := ipcMakeHeader 3 0 2
  desc := ((1 : UInt32) <<< 14) ||| 0x402
  sent := [0]
  fits := by decide
  announced := by decide

theorem zeros_length : (List.replicate 0x400 (0 : UInt8)).length = 0x400 := List.length_replicate

/-- hb:ldr as it starts. -/
def startedHbldr : Hbldr := ⟨fun _ => 0, fun _ => 0, List.replicate 0x400 0, zeros_length, [0]⟩

/-- The long path is written over the end of `hbldrTarget`; arguments that do not fill the buffer are followed by
what is left in it. -/
theorem hbldr_unsound :
    ¬ Sound asciiConversion startedHbldr longTarget ∧ ¬ Sound asciiConversion startedHbldr shortArgv := by
  rw [sound_iff_harmless, sound_iff_harmless]
  constructor
  · intro h
    have hpath : longTarget.path = List.replicate 257 0x61 := by
      show cString (List.replicate 257 0x61 ++ [0]) = _
      rw [cString_append_zero]
      exact List.takeWhile_eq_self_iff.mpr fun b hb => by simp [List.eq_of_mem_replicate hb]
    have hroom : longTarget.room = 258 := by
      have hsent : longTarget.sent.length = 258 := by
        unfold longTarget
        rw [List.length_append, List.length_replicate]
        decide
      unfold Command.room
      rw [hsent]
      decide
    have hshort := h.short ⟨rfl, by decide⟩
    rw [hpath, hroom] at hshort
    have hall : (List.replicate 257 (0x61 : UInt8)).takeWhile (· < 0x80) = List.replicate 257 0x61 :=
      List.takeWhile_eq_self_iff.mpr fun b hb => by simp [List.eq_of_mem_replicate hb]
    unfold asciiConversion at hshort
    dsimp only at hshort
    rw [hall, List.length_take, List.length_map, List.length_replicate] at hshort
    exact absurd hshort (by decide)
  · intro h
    have hfull := h.full ⟨rfl, by decide⟩
    exact absurd hfull (by decide)

end Omiiba.Loader
