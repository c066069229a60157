/-
The PIN lock, after pin.c: a PIN is set and asked for in two loops over the buttons, which come to the same blocks.
-/
import Omiiba.Lib.Blocks

namespace Omiiba.Arm9

open Omiiba.Blocks

/-! ## The buttons -/

def buttonA : UInt32 := (1 : UInt32) <<< 0
def buttonB : UInt32 := (1 : UInt32) <<< 1
def buttonSelect : UInt32 := (1 : UInt32) <<< 2
def buttonStart : UInt32 := (1 : UInt32) <<< 3
def buttonRight : UInt32 := (1 : UInt32) <<< 4
def buttonLeft : UInt32 := (1 : UInt32) <<< 5
def buttonUp : UInt32 := (1 : UInt32) <<< 6
def buttonDown : UInt32 := (1 : UInt32) <<< 7
def buttonX : UInt32 := (1 : UInt32) <<< 10
def buttonY : UInt32 := (1 : UInt32) <<< 11

def dpadButtons : UInt32 := buttonLeft ||| buttonRight ||| buttonUp ||| buttonDown

def pinButtons : UInt32 :=
  buttonA ||| buttonB ||| buttonX ||| buttonY ||| dpadButtons ||| buttonStart ||| buttonSelect

/-- The halvings of `pressed` until it is one, at most `fuel`. -/
def halvings : Nat → UInt32 → Nat
  | 0, _ => 0
  | fuel + 1, pressed => if pressed > 1 then halvings fuel (pressed / 2) + 1 else 0

/-- `pinKeyToLetter`: of several buttons the one with the highest bit counts. -/
def pinKeyToLetter (pressed : UInt32) : UInt8 :=
  (['A', 'B', '-', '-', 'R', 'L', 'U', 'D', '-', '-', 'X', 'Y'].map fun c => UInt8.ofNat c.toNat).getD (halvings 32 pressed) 0

/-! ## Setting a PIN -/

/-- `PinData`. -/
structure PinData where
  magic : List UInt8
  formatVersionMajor : UInt16
  formatVersionMinor : UInt16
  lengthHash : List UInt8
  hash : List UInt8

/-- `"PINF"`. -/
def pinMagic : List UInt8 := [0x50, 0x49, 0x4E, 0x46]

def pinVersionMajor : UInt16 := 1
def pinVersionMinor : UInt16 := 3

/-- The digits of a PIN, from the option of the configuration. -/
def pinLength (pinMode : UInt32) : UInt8 := (4 + 2 * (pinMode - 1)).toUInt8

/-- `lengthBlock`. -/
def lengthBlock (pinMode : UInt32) : List UInt8 := (List.replicate 16 0).set 0 (pinLength pinMode)

/-- The variables of the two loops. -/
structure PinEntry where
  enteredPassword : List UInt8
  cnt : Nat
  reset : Bool

/-- The variables before the loop. -/
def PinEntry.start : PinEntry := ⟨List.replicate 16 0, 0, false⟩

/-- The beginning of a round. -/
def PinEntry.begin (s : PinEntry) : PinEntry := if s.reset then { s with cnt := 0, reset := false } else s

def PinEntry.put (s : PinEntry) (letter : UInt8) : PinEntry :=
  { s with enteredPassword := s.enteredPassword.set s.cnt letter, cnt := s.cnt + 1 }

/-- The loop of `newPin`, over what `waitInput` returns: the password, unless it was skipped or more has to be
pressed. -/
def newPinLoop (allowSkipping : Bool) (length : Nat) : PinEntry → List UInt32 → Option (List UInt8)
  | s, [] => if s.cnt < length then none else some s.enteredPassword
  | s, pressed :: rest =>
    if s.cnt < length then
      let s := s.begin
      -- `waitInput` is called again until one of the buttons of a PIN is pressed
      if pressed &&& pinButtons = 0 then newPinLoop allowSkipping length s rest
      else
        let pressed := pressed &&& pinButtons
        let pressed := if allowSkipping then pressed else pressed &&& ~~~buttonStart
        if pressed &&& buttonStart ≠ 0 then none
        else if pressed &&& buttonSelect ≠ 0 then newPinLoop allowSkipping length { s with reset := true } rest
        else if pressed = 0 then newPinLoop allowSkipping length s rest
        else newPinLoop allowSkipping length (s.put (pinKeyToLetter pressed)) rest
    else some s.enteredPassword

section Lock

variable (computePinHash : List UInt8 → List UInt8)

/-- `newPin`: the file it writes. -/
def newPin (allowSkipping : Bool) (pinMode : UInt32) (presses : List UInt32) : Option PinData :=
  (newPinLoop allowSkipping (pinLength pinMode).toNat PinEntry.start presses).map fun enteredPassword =>
    ⟨pinMagic, pinVersionMajor, pinVersionMinor, computePinHash (lengthBlock pinMode), computePinHash enteredPassword⟩

/-! ## Asking for it -/

/-- How `verifyPin` ends: it returns with the presses it has not waited for, or the console is powered off, or
it waits for more. -/
inductive Verdict
  | returned (unlocked : Bool) (rest : List UInt32)
  | poweredOff
  | waiting

/-- The loop of `verifyPin`. -/
def verifyPinLoop (length : Nat) (hash : List UInt8) : PinEntry → List UInt32 → Verdict
  | _, [] => .waiting
  | s, pressed :: rest =>
    let s := s.begin
    if pressed &&& pinButtons = 0 then verifyPinLoop length hash s rest
    else if pressed &&& buttonStart ≠ 0 then .poweredOff
    else
      let pressed := pressed &&& pinButtons
      if pressed &&& buttonSelect ≠ 0 then verifyPinLoop length hash { s with reset := true } rest
      else if pressed = 0 then verifyPinLoop length hash s rest
      else
        let s := s.put (pinKeyToLetter pressed)
        if s.cnt < length then verifyPinLoop length hash s rest
        else if hash = computePinHash s.enteredPassword then .returned true rest
        else verifyPinLoop length hash { s with reset := true } rest

/-- `verifyPin`; `file` is what is read from the PIN file, if it has the size. -/
def verifyPin (pinMode : UInt32) (file : Option PinData) (presses : List UInt32) : Verdict :=
  match file with
  | none => .returned false presses
  | some pin =>
    if pin.magic ≠ pinMagic ∨ pin.formatVersionMajor ≠ pinVersionMajor ∨ pin.formatVersionMinor ≠ pinVersionMinor then
      .returned false presses
    else if pin.lengthHash ≠ computePinHash (lengthBlock pinMode) then .returned false presses
    else verifyPinLoop computePinHash (pinLength pinMode).toNat pin.hash PinEntry.start presses

end Lock

/-! ## Both loops read blocks -/

/-- What a press means to both loops; only `verifyPin`, and `newPin` where it can be skipped, looks at START. -/
def pinKey (start : Bool) (pressed : UInt32) : Blocks.Key UInt8 :=
  if pressed &&& pinButtons = 0 then .ignored
  else
    let pressed := pressed &&& pinButtons
    let pressed := if start then pressed else pressed &&& ~~~buttonStart
    if pressed &&& buttonStart ≠ 0 then .stop
    else if pressed &&& buttonSelect ≠ 0 then .clear
    else if pressed = 0 then .ignored
    else .symbol (pinKeyToLetter pressed)

/-- The block of a whole PIN, padded with zeroes. -/
def padded (letters : List UInt8) : List UInt8 := letters ++ List.replicate (16 - letters.length) 0

/-- The variables after `letters` were typed of a block: whatever else the buffer holds is overwritten before the
block is whole. -/
structure Typed (length : Nat) (s : PinEntry) (letters : List UInt8) : Prop where
  size : s.enteredPassword.length = 16
  zeroes : s.enteredPassword.drop length = List.replicate (16 - length) 0
  typed : s.begin.enteredPassword.take s.begin.cnt = letters
  count : s.begin.cnt = letters.length

section Loops

variable {length : Nat} {s : PinEntry} {letters : List UInt8}

theorem typed_start (length : Nat) : Typed length PinEntry.start [] :=
  ⟨List.length_replicate, by simp only [PinEntry.start, List.drop_replicate], rfl, rfl⟩

@[simp] theorem PinEntry.reset_begin (s : PinEntry) : s.begin.reset = false := by
  unfold PinEntry.begin
  split
  · rfl
  · simp_all

theorem PinEntry.begin_of_not_reset {s : PinEntry} (h : s.reset = false) : s.begin = s := by
  unfold PinEntry.begin
  rw [h, if_neg (by decide)]

theorem PinEntry.begin_begin (s : PinEntry) : s.begin.begin = s.begin := PinEntry.begin_of_not_reset s.reset_begin

theorem PinEntry.begin_enteredPassword (s : PinEntry) : s.begin.enteredPassword = s.enteredPassword := by
  unfold PinEntry.begin
  split <;> rfl

theorem Typed.begin (h : Typed length s letters) : Typed length s.begin letters where
  size := by rw [s.begin_enteredPassword, h.size]
  zeroes := by rw [s.begin_enteredPassword, h.zeroes]
  typed := by rw [s.begin_begin, h.typed]
  count := by rw [s.begin_begin, h.count]

theorem Typed.reset (h : Typed length s letters) : Typed length { s with reset := true } [] :=
  ⟨h.size, h.zeroes, rfl, rfl⟩

/-- A letter is put behind the others. -/
theorem Typed.put (h : Typed length s letters) (hbegin : s.reset = false) (hlen : letters.length < length)
    (hfits : length ≤ 16) (letter : UInt8) : Typed length (s.put letter) (letters ++ [letter]) := by
  have hsame : s.begin = s := PinEntry.begin_of_not_reset hbegin
  have hput : (s.put letter).begin = s.put letter := PinEntry.begin_of_not_reset hbegin
  have hcount : s.cnt = letters.length := by rw [← h.count, hsame]
  have htyped : s.enteredPassword.take s.cnt = letters := by rw [← h.typed, hsame]
  have hin : s.cnt < s.enteredPassword.length := by
    rw [h.size]
    omega
  refine ⟨?_, ?_, ?_, ?_⟩
  · show (s.enteredPassword.set s.cnt letter).length = 16
    rw [List.length_set, h.size]
  · show (s.enteredPassword.set s.cnt letter).drop length = _
    rw [List.drop_set_of_lt (by omega), h.zeroes]
  · rw [hput]
    show (s.enteredPassword.set s.cnt letter).take (s.cnt + 1) = _
    rw [List.take_add_one, List.take_set_of_le (le_refl s.cnt), htyped, List.getElem?_set_self hin]
    rfl
  · rw [hput]
    show s.cnt + 1 = _
    rw [hcount, List.length_append, List.length_singleton]

/-- A whole block is the password. -/
theorem Typed.whole (h : Typed length s letters) (hbegin : s.reset = false) (hlen : letters.length = length) :
    s.enteredPassword = padded letters := by
  have hsame : s.begin = s := PinEntry.begin_of_not_reset hbegin
  have htyped : s.enteredPassword.take s.cnt = letters := by rw [← h.typed, hsame]
  have hcount : s.cnt = length := by rw [← hsame, h.count, hlen]
  calc s.enteredPassword
      = s.enteredPassword.take length ++ s.enteredPassword.drop length := (List.take_append_drop _ _).symm
    _ = padded letters := by rw [h.zeroes, ← hcount, htyped, hcount, ← hlen, padded]

/-- The loop of `newPin` ends with a password that is whole. -/
theorem newPinLoop_whole (allowSkipping : Bool) (h : ¬ s.cnt < length) (presses : List UInt32) :
    newPinLoop allowSkipping length s presses = some s.enteredPassword := by
  cases presses <;> rw [newPinLoop, if_neg h]

theorem PinEntry.begin_cnt_le (s : PinEntry) : s.begin.cnt ≤ s.cnt := by
  unfold PinEntry.begin
  split
  · exact Nat.zero_le _
  · exact le_rfl

/-- A round of the loop of `newPin`, by what the press means. -/
theorem newPinLoop_cons (allowSkipping : Bool) (h : s.cnt < length) (pressed : UInt32) (rest : List UInt32) :
    newPinLoop allowSkipping length s (pressed :: rest) =
      match pinKey allowSkipping pressed with
      | .ignored => newPinLoop allowSkipping length s.begin rest
      | .stop => none
      | .clear => newPinLoop allowSkipping length { s.begin with reset := true } rest
      | .symbol letter => newPinLoop allowSkipping length (s.begin.put letter) rest := by
  rw [newPinLoop, if_pos h]
  unfold pinKey
  dsimp only
  by_cases hnone : pressed &&& pinButtons = 0
  · rw [if_pos hnone, if_pos hnone]
  rw [if_neg hnone, if_neg hnone]
  generalize (if allowSkipping then pressed &&& pinButtons else pressed &&& pinButtons &&& ~~~buttonStart) = buttons
  by_cases hstart : buttons &&& buttonStart ≠ 0
  · rw [if_pos hstart, if_pos hstart]
  by_cases hselect : buttons &&& buttonSelect ≠ 0
  · rw [if_neg hstart, if_neg hstart, if_pos hselect, if_pos hselect]
  by_cases hzero : buttons = 0
  · rw [if_neg hstart, if_neg hstart, if_neg hselect, if_neg hselect, if_pos hzero, if_pos hzero]
  · rw [if_neg hstart, if_neg hstart, if_neg hselect, if_neg hselect, if_neg hzero, if_neg hzero]

/-- The loop of `newPin` reads a block and takes any. -/
theorem newPinLoop_eq (allowSkipping : Bool) (hfits : length ≤ 16) : ∀ (presses : List UInt32) (s : PinEntry)
    (letters : List UInt8), Typed length s letters → s.cnt < length →
    newPinLoop allowSkipping length s presses =
      match readBlocks (pinKey allowSkipping) length (fun _ => true) letters presses with
      | .accepted block _ => some (padded block)
      | _ => none := by
  intro presses
  induction presses with
  | nil =>
    intro s letters _ hcnt
    rw [newPinLoop, if_pos hcnt, readBlocks]
  | cons pressed rest ih =>
    intro s letters h hcnt
    have hbegin : s.begin.cnt < length := lt_of_le_of_lt s.begin_cnt_le hcnt
    have hlen : letters.length < length := by rw [← h.count]; exact hbegin
    rw [newPinLoop_cons allowSkipping hcnt, readBlocks]
    cases pinKey allowSkipping pressed with
    | ignored => exact ih _ _ h.begin hbegin
    | stop => rfl
    | clear => exact ih _ _ h.begin.reset hbegin
    | symbol letter =>
      have hput := h.begin.put s.reset_begin hlen hfits letter
      have hnext : (s.begin.put letter).cnt = (letters ++ [letter]).length := by
        rw [← hput.count, PinEntry.begin_of_not_reset (s := s.begin.put letter) s.reset_begin]
      dsimp only
      by_cases hmore : (letters ++ [letter]).length < length
      · rw [if_pos hmore]
        exact ih _ _ hput (by rw [hnext]; exact hmore)
      · rw [if_neg hmore, if_pos rfl, newPinLoop_whole allowSkipping (by rw [hnext]; exact hmore)]
        have hone : (letters ++ [letter]).length = letters.length + 1 := by
          rw [List.length_append, List.length_singleton]
        rw [hput.whole s.reset_begin (by omega)]

/-- A round of the loop of `verifyPin`: a press means the same there. -/
theorem verifyPinLoop_cons (computePinHash : List UInt8 → List UInt8) (hash : List UInt8) (pressed : UInt32)
    (rest : List UInt32) :
    verifyPinLoop computePinHash length hash s (pressed :: rest) =
      match pinKey true pressed with
      | .ignored => verifyPinLoop computePinHash length hash s.begin rest
      | .stop => .poweredOff
      | .clear => verifyPinLoop computePinHash length hash { s.begin with reset := true } rest
      | .symbol letter =>
        if (s.begin.put letter).cnt < length then verifyPinLoop computePinHash length hash (s.begin.put letter) rest
        else if hash = computePinHash (s.begin.put letter).enteredPassword then .returned true rest
        else verifyPinLoop computePinHash length hash { s.begin.put letter with reset := true } rest := by
  have hsame : pressed &&& pinButtons &&& buttonStart = pressed &&& buttonStart := by
    rw [UInt32.and_assoc, show pinButtons &&& buttonStart = buttonStart by decide]
  rw [verifyPinLoop]
  unfold pinKey
  dsimp only
  rw [if_pos rfl, hsame]
  by_cases hnone : pressed &&& pinButtons = 0
  · rw [if_pos hnone, if_pos hnone]
  -- the buttons are looked at again, and are not none
  simp only [if_neg hnone]
  by_cases hstart : pressed &&& buttonStart ≠ 0
  · rw [if_pos hstart, if_pos hstart]
  rw [if_neg hstart, if_neg hstart]
  by_cases hselect : pressed &&& pinButtons &&& buttonSelect ≠ 0
  · rw [if_pos hselect, if_pos hselect]
  · rw [if_neg hselect, if_neg hselect]

/-- What `verifyPin` makes of the end of the reader. -/
def verdict : Outcome UInt8 UInt32 → Verdict
  | .accepted _ rest => .returned true rest
  | .stopped => .poweredOff
  | .waiting => .waiting

/-- The loop of `verifyPin` reads blocks until one has the hash. -/
theorem verifyPinLoop_eq (computePinHash : List UInt8 → List UInt8) (hash : List UInt8) (hfits : length ≤ 16) :
    ∀ (presses : List UInt32) (s : PinEntry) (letters : List UInt8), Typed length s letters → letters.length < length →
    verifyPinLoop computePinHash length hash s presses =
      verdict (readBlocks (pinKey true) length (fun block => hash = computePinHash (padded block)) letters presses) := by
  intro presses
  induction presses with
  | nil =>
    intro s letters _ _
    rfl
  | cons pressed rest ih =>
    intro s letters h hlen
    rw [verifyPinLoop_cons, readBlocks]
    cases pinKey true pressed with
    | ignored => exact ih _ _ h.begin hlen
    | stop => rfl
    | clear => exact ih _ _ h.begin.reset (by rw [List.length_nil]; omega)
    | symbol letter =>
      have hput := h.begin.put s.reset_begin hlen hfits letter
      have hnext : (s.begin.put letter).cnt = (letters ++ [letter]).length := by
        rw [← hput.count, PinEntry.begin_of_not_reset (s := s.begin.put letter) s.reset_begin]
      have hone : (letters ++ [letter]).length = letters.length + 1 := by
        rw [List.length_append, List.length_singleton]
      dsimp only
      by_cases hmore : (letters ++ [letter]).length < length
      · rw [if_pos (by rw [hnext]; exact hmore), if_pos hmore]
        exact ih _ _ hput hmore
      · rw [if_neg (by rw [hnext]; exact hmore), if_neg hmore]
        have hwhole := hput.whole s.reset_begin (by omega)
        by_cases hhash : hash = computePinHash (s.begin.put letter).enteredPassword
        · rw [if_pos hhash, if_pos (by simpa [← hwhole] using hhash)]
          rfl
        · rw [if_neg hhash, if_neg (by simpa [← hwhole] using hhash)]
          exact ih _ _ hput.reset (by rw [List.length_nil]; omega)

end Loops

/-! ## The lock -/

/-- A hash that tells blocks of 16 bytes apart. -/
def InjectiveOnBlocks (computePinHash : List UInt8 → List UInt8) : Prop :=
  ∀ a b : List UInt8, a.length = 16 → b.length = 16 → computePinHash a = computePinHash b → a = b

theorem length_padded {letters : List UInt8} (h : letters.length ≤ 16) : (padded letters).length = 16 := by
  unfold padded
  rw [List.length_append, List.length_replicate]
  omega

theorem padded_inj {a b : List UInt8} (hlen : a.length = b.length) (h : padded a = padded b) : a = b :=
  (List.append_inj h hlen).1

/-- The option of the configuration has two bits; the lengths that three bits would give still fit the block. -/
theorem pinLength_bounds {pinMode : UInt32} (h : pinMode.toNat ≤ 7) :
    0 < (pinLength pinMode).toNat ∧ (pinLength pinMode).toNat ≤ 16 := by
  have hall : ∀ k : Fin 8, 0 < (pinLength (UInt32.ofNat k)).toNat ∧ (pinLength (UInt32.ofNat k)).toNat ≤ 16 := by decide
  have hmode : pinMode = UInt32.ofNat pinMode.toNat := UInt32.ofNat_toNat.symm
  rw [hmode]
  exact hall ⟨pinMode.toNat, by omega⟩

section Lock

variable {computePinHash : List UInt8 → List UInt8} {pinMode : UInt32}

/-- A stored PIN is the first whole block pressed. -/
theorem newPin_some (hmode : pinMode.toNat ≤ 7) {allowSkipping : Bool} {chosen : List UInt32} {pin : PinData}
    (h : newPin computePinHash allowSkipping pinMode chosen = some pin) :
    ∃ letters before part rest, chosen = before ++ (part ++ rest) ∧
      Attempts (pinKey allowSkipping) (pinLength pinMode).toNat (fun _ => true) before ∧
      Block (pinKey allowSkipping) (pinLength pinMode).toNat part letters ∧
      pin = ⟨pinMagic, pinVersionMajor, pinVersionMinor, computePinHash (lengthBlock pinMode),
        computePinHash (padded letters)⟩ := by
  obtain ⟨hpos, hfits⟩ := pinLength_bounds hmode
  unfold newPin at h
  rw [newPinLoop_eq allowSkipping hfits chosen _ [] (typed_start _) hpos] at h
  cases hread : readBlocks (pinKey allowSkipping) (pinLength pinMode).toNat (fun _ => true) [] chosen with
  | accepted letters rest =>
    rw [hread] at h
    obtain ⟨before, part, hall, hbefore, hblock, _⟩ := (readBlocks_accepted_iff hpos).mp hread
    exact ⟨letters, before, part, rest, hall, hbefore, hblock, (Option.some.inj h).symm⟩
  | stopped =>
    rw [hread] at h
    cases h
  | waiting =>
    rw [hread] at h
    cases h

/-- With the file of a PIN, `verifyPin` reads blocks until one is the PIN. -/
theorem verifyPin_eq (hinj : InjectiveOnBlocks computePinHash) (hmode : pinMode.toNat ≤ 7) {letters : List UInt8}
    (hlen : letters.length = (pinLength pinMode).toNat) (entered : List UInt32) :
    verifyPin computePinHash pinMode (some ⟨pinMagic, pinVersionMajor, pinVersionMinor,
        computePinHash (lengthBlock pinMode), computePinHash (padded letters)⟩) entered =
      verdict (readBlocks (pinKey true) (pinLength pinMode).toNat (fun block => block = letters) [] entered) := by
  obtain ⟨hpos, hfits⟩ := pinLength_bounds hmode
  unfold verifyPin
  dsimp only
  rw [if_neg (by simp), if_neg (by simp), verifyPinLoop_eq computePinHash _ hfits entered _ [] (typed_start _) hpos]
  congr 1
  refine readBlocks_congr (fun block hblock => ?_) entered [] hpos
  rw [decide_eq_decide]
  constructor
  · intro h
    refine (padded_inj (hlen.trans hblock.symm) ?_).symm
    exact hinj _ _ (length_padded (by omega)) (length_padded (by omega)) h
  · rintro rfl
    rfl

theorem verdict_returned_iff {outcome : Outcome UInt8 UInt32} {unlocked : Bool} {rest : List UInt32} :
    verdict outcome = .returned unlocked rest ↔ unlocked = true ∧ ∃ block, outcome = .accepted block rest := by
  cases outcome with
  | accepted block left =>
    constructor
    · rintro ⟨⟩
      exact ⟨rfl, block, rfl⟩
    · rintro ⟨rfl, _, ⟨⟩⟩
      rfl
  | stopped => simp [verdict]
  | waiting => simp [verdict]

/-- For every PIN that was set, in any mode: asked for it, `verifyPin` returns true at the end of the first whole
block that is the PIN, and in no other way; the blocks that were cleared or wrong before have no part in it. -/
theorem verifyPin_iff (hinj : InjectiveOnBlocks computePinHash) (hmode : pinMode.toNat ≤ 7) {allowSkipping : Bool}
    {chosen : List UInt32} {pin : PinData} (hpin : newPin computePinHash allowSkipping pinMode chosen = some pin) :
    ∃ letters : List UInt8,
      (∃ before part rest, chosen = before ++ (part ++ rest) ∧
        Attempts (pinKey allowSkipping) (pinLength pinMode).toNat (fun _ => true) before ∧
        Block (pinKey allowSkipping) (pinLength pinMode).toNat part letters) ∧
      (∀ entered unlocked rest, verifyPin computePinHash pinMode (some pin) entered = .returned unlocked rest ↔
        unlocked = true ∧ ∃ before part, entered = before ++ (part ++ rest) ∧
          Attempts (pinKey true) (pinLength pinMode).toNat (fun block => block = letters) before ∧
          Block (pinKey true) (pinLength pinMode).toNat part letters) ∧
      ∀ before after, Attempts (pinKey true) (pinLength pinMode).toNat (fun block => block = letters) before →
        verifyPin computePinHash pinMode (some pin) (before ++ after) =
          verifyPin computePinHash pinMode (some pin) after := by
  obtain ⟨letters, before, part, rest, hchosen, hbefore, hblock, rfl⟩ := newPin_some hmode hpin
  have hlen : letters.length = (pinLength pinMode).toNat := hblock.length_eq
  have hpos := (pinLength_bounds hmode).1
  refine ⟨letters, ⟨before, part, rest, hchosen, hbefore, hblock⟩, ?_, ?_⟩
  · intro entered unlocked left
    rw [verifyPin_eq hinj hmode hlen, verdict_returned_iff]
    apply and_congr_right
    intro _
    constructor
    · rintro ⟨block, hread⟩
      obtain ⟨before, part, hall, hbefore, hpart, haccept⟩ := (readBlocks_accepted_iff hpos).mp hread
      obtain rfl : block = letters := by simpa using haccept
      exact ⟨before, part, hall, hbefore, hpart⟩
    · rintro ⟨before, part, hall, hbefore, hpart⟩
      exact ⟨letters, (readBlocks_accepted_iff hpos).mpr ⟨before, part, hall, hbefore, hpart, by simp⟩⟩
  · intro before after h
    rw [verifyPin_eq hinj hmode hlen, verifyPin_eq hinj hmode hlen, readBlocks_attempts h]

end Lock

/-- A PIN of four times A, that is not typed at once. -/
theorem pin_after_attempts :
    InjectiveOnBlocks id ∧
      ∃ letters : List UInt8, ∀ entered unlocked rest,
        verifyPin id 1 (newPin id true 1 [1, 1, 4, 1, 1, 1, 1]) entered = .returned unlocked rest ↔
          unlocked = true ∧ ∃ before part, entered = before ++ (part ++ rest) ∧
            Attempts (pinKey true) (pinLength 1).toNat (fun block => block = letters) before ∧
            Block (pinKey true) (pinLength 1).toNat part letters := by
  have hinj : InjectiveOnBlocks id := fun a b _ _ h => h
  obtain ⟨pin, hpin⟩ : ∃ pin, newPin id true 1 [1, 1, 4, 1, 1, 1, 1] = some pin := ⟨_, rfl⟩
  obtain ⟨letters, _, hverify, _⟩ := verifyPin_iff hinj (by decide) hpin
  exact ⟨hinj, letters, by rw [hpin]; exact hverify⟩

end Omiiba.Arm9
