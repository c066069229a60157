/-
The numbers in the packets of the debugger, after memory.c and net.c. A string is the list of its bytes, without the terminator.
-/
import Omiiba.Rosalina.GdbNet

namespace Omiiba.Rosalina

/-! ## Numbers -/

/-- The spaces that `xstrtoul` and `GDB_SkipSpaces` skip. -/
def isSpace (c : UInt8) : Bool := (9 ≤ c ∧ c ≤ 13) ∨ c = 0x20

/-- The value of a digit of `xstrtoul`, in any base. -/
def alnumValue (c : UInt8) : Option Nat :=
  if 0x30 ≤ c ∧ c ≤ 0x39 then some (c.toNat - 0x30)
  else if 0x41 ≤ c ∧ c ≤ 0x5A then some (c.toNat - (0x41 - 10))
  else if 0x61 ≤ c ∧ c ≤ 0x7A then some (c.toNat - (0x61 - 10))
  else none

/-- The loop of `xstrtoul` over the digits, with what is behind them; none if the number is `limit` or more. -/
def readDigits (limit base : Nat) : Nat → List UInt8 → Option (Nat × List UInt8)
  | acc, [] => some (acc, [])
  | acc, c :: s =>
    match alnumValue c with
    | none => some (acc, c :: s)
    | some d =>
      if d ≥ base then some (acc, c :: s)
      else if acc * base + d ≥ limit then none
      else readDigits limit base (acc * base + d) s

/-- The sign in front of a number; none if there may not be one. -/
def readSign (allowPrefix : Bool) (s : List UInt8) : Option (Bool × List UInt8) :=
  if s.head? = some 0x2D ∨ s.head? = some 0x2B then
    if allowPrefix then some (s.head? = some 0x2D, s.tail) else none
  else some (false, s)

/-- The base of a number, and what is behind `0x`; none if there may not be a prefix. -/
def readBase (base : Nat) (allowPrefix : Bool) (s : List UInt8) : Option (Nat × List UInt8) :=
  if (base = 0 ∨ base = 16) ∧ s.head? = some 0x30 ∧ (s[1]? = some 0x78 ∨ s[1]? = some 0x58) then
    if allowPrefix then some (16, s.drop 2) else none
  else if base = 0 then
    if allowPrefix then some (if s.head? = some 0x30 then 8 else 10, s) else none
  else some (base, s)

/-- `xstrtoul` and `xstrtoull`, for numbers below `limit`: the number, and how far the string is read; none where `*ok`
becomes false. -/
def xstrtoul (limit base : Nat) (allowPrefix : Bool) (s : List UInt8) : Option (Nat × Nat) := do
  let (neg, t) ← readSign allowPrefix (s.dropWhile isSpace)
  let (base, t) ← readBase base allowPrefix t
  let (acc, rest) ← readDigits limit base 0 t
  return (if neg then (limit - acc) % limit else acc, if rest.length < t.length then s.length - rest.length else 0)

/-- `GDB_ParseIntegerList`: `nb` numbers, and how far the string is read. -/
def parseIntegerList (limit : Nat) (sep lastSep : UInt8) (base : Nat) (allowPrefix : Bool) :
    Nat → List UInt8 → Option (List Nat × Nat)
  | 0, _ => some ([], 0)
  | nb + 1, s => do
    let (n, endpos) ← xstrtoul limit base allowPrefix s
    if endpos = 0 then none
    else
      let c := s.getD endpos 0
      if nb = 0 then
        if c ≠ lastSep ∧ c ≠ 0 then none else some ([n], endpos)
      else if c ≠ sep then none
      else
        let (ns, pos) ← parseIntegerList limit sep lastSep base allowPrefix nb (s.drop (endpos + 1))
        some (n :: ns, endpos + 1 + pos)

/-- `GDB_ParseHexIntegerList`. -/
def parseHexIntegerList (nb : Nat) (lastSep : UInt8) (s : List UInt8) : Option (List Nat × Nat) :=
  parseIntegerList (2 ^ 32) 0x2C lastSep 16 false nb s

/-- A character that is not NUL is in front of the terminator. -/
theorem lt_of_getD_ne_zero {text : List UInt8} {p : Nat} (h : text.getD p 0 ≠ 0) : p < text.length := by
  by_contra hge
  apply h
  rw [List.getD_eq_getElem?_getD, List.getElem?_eq_none (by omega)]
  rfl

/-- What is behind a list that is not empty is behind its beginning. -/
theorem parseIntegerList_pos {limit base : Nat} {sep lastSep : UInt8} {allowPrefix : Bool} {nb : Nat} {s : List UInt8} {ns : List Nat}
    {pos : Nat} (h : parseIntegerList limit sep lastSep base allowPrefix (nb + 1) s = some (ns, pos)) : 0 < pos := by
  simp only [parseIntegerList, Option.bind_eq_bind, Option.bind_eq_some_iff] at h
  obtain ⟨⟨n, endpos⟩, -, h⟩ := h
  split at h
  · cases h
  · split at h
    · split at h
      · cases h
      · cases h
        omega
    · split at h
      · cases h
      · simp only [Option.bind_eq_some_iff] at h
        obtain ⟨⟨ns', pos'⟩, -, h⟩ := h
        cases h
        omega

/-! ## Hexadecimal numbers -/

/-- What ends a number, and is no `x` that would make a prefix of it. -/
def Ends (rest : List UInt8) : Prop := ∀ c ∈ rest.head?, Hex.digitValue c = none ∧ c ≠ 0x78 ∧ c ≠ 0x58

theorem alnumValue_of_digitValue {c : UInt8} {d : Nat} (h : Hex.digitValue c = some d) : alnumValue c = some d ∧ d < 16 := by
  unfold Hex.digitValue at h
  unfold alnumValue
  simp only [UInt8.le_iff_toNat_le, UInt8.reduceToNat] at *
  split_ifs at * <;> simp only [Option.some.injEq] at * <;> omega

theorem digitValue_of_alnumValue {c : UInt8} {d : Nat} (h : alnumValue c = some d) (hd : d < 16) : Hex.digitValue c = some d := by
  unfold alnumValue at h
  unfold Hex.digitValue
  simp only [UInt8.le_iff_toNat_le, UInt8.reduceToNat] at *
  split_ifs at * <;> simp only [Option.some.injEq] at * <;> omega

theorem isSpace_of_alnum {c : UInt8} (h : (alnumValue c).isSome = true) : isSpace c = false ∧ c ≠ 0x2D ∧ c ≠ 0x2B ∧ c ≠ 0 := by
  have hlow : 0x30 ≤ c.toNat := by
    unfold alnumValue at h
    simp only [UInt8.le_iff_toNat_le, UInt8.reduceToNat] at h
    split_ifs at h <;> first | omega | cases h
  refine ⟨?_, ?_, ?_, ?_⟩
  · unfold isSpace
    rw [decide_eq_false_iff_not]
    rintro (⟨-, hspace⟩ | rfl)
    · have := UInt8.le_iff_toNat_le.mp hspace
      simp only [UInt8.reduceToNat] at this
      omega
    · simp at hlow
  all_goals
    rintro rfl
    simp at hlow

/-- Digits are read up to what is none. -/
theorem readDigits_digits {ds rest : List UInt8} {limit n : Nat} : ∀ {acc : Nat}, Hex.value acc ds = some n → n < limit → Ends rest →
    readDigits limit 16 acc (ds ++ rest) = some (n, rest) := by
  induction ds with
  | nil =>
    intro acc h hn hrest
    obtain rfl : acc = n := by simpa [Hex.value] using h
    cases rest with
    | nil => rfl
    | cons c rest =>
      have hdigit := (hrest c rfl).1
      rw [List.nil_append, readDigits]
      cases hc : alnumValue c with
      | none => rfl
      | some d =>
        have hd : d ≥ 16 := by
          by_contra hlt
          rw [digitValue_of_alnumValue hc (by omega)] at hdigit
          cases hdigit
        simp [hd]
  | cons c ds ih =>
    intro acc h hn hrest
    rw [Hex.value] at h
    cases hc : Hex.digitValue c with
    | none => simp [hc] at h
    | some d =>
      rw [hc] at h
      obtain ⟨hd, hlt⟩ := alnumValue_of_digitValue hc
      have hacc : 16 * acc + d ≤ n := Hex.le_value h
      rw [List.cons_append, readDigits, hd]
      dsimp only
      rw [if_neg (by omega), if_neg (by omega), Nat.mul_comm acc 16]
      exact ih h hn hrest

/-- A number in hexadecimal is read as it is. -/
theorem xstrtoul_hex {ds rest : List UInt8} {limit n : Nat} (hne : ds ≠ []) (hvalue : Hex.value 0 ds = some n) (hn : n < limit)
    (hrest : Ends rest) : xstrtoul limit 16 false (ds ++ rest) = some (n, ds.length) := by
  obtain ⟨c, ds', rfl⟩ := List.exists_cons_of_ne_nil hne
  have hdigit : ∀ x ∈ c :: ds', (Hex.digitValue x).isSome = true := Hex.isDigit_of_value hvalue
  obtain ⟨d, hd⟩ := Option.isSome_iff_exists.mp (hdigit c List.mem_cons_self)
  obtain ⟨hspace, hminus, hplus, -⟩ := isSpace_of_alnum (c := c) (by rw [(alnumValue_of_digitValue hd).1]; rfl)
  have hsign : readSign false (c :: ds' ++ rest) = some (false, c :: ds' ++ rest) := by
    simp [readSign, hminus, hplus]
  have hbase : readBase 16 false (c :: ds' ++ rest) = some (16, c :: ds' ++ rest) := by
    unfold readBase
    rw [if_neg, if_neg (by decide)]
    -- behind a leading zero there is another digit or the end of the number
    rintro ⟨-, -, hx⟩
    have hnext : ∀ x ∈ (c :: ds' ++ rest)[1]?, x ≠ 0x78 ∧ x ≠ 0x58 := by
      intro x hmem
      cases ds' with
      | nil =>
        refine (hrest x ?_).2
        simpa [List.head?_eq_getElem?] using hmem
      | cons y ds' =>
        obtain rfl : y = x := by simpa using hmem
        have hy := hdigit y (by simp)
        constructor <;> (rintro rfl; cases hy)
    rcases hx with hx | hx
    · exact (hnext _ hx).1 rfl
    · exact (hnext _ hx).2 rfl
  have hdrop : (c :: ds' ++ rest).dropWhile isSpace = c :: ds' ++ rest := by
    simp [hspace]
  have hlength : (c :: ds' ++ rest).length - rest.length = (c :: ds').length := by
    rw [List.length_append, Nat.add_sub_cancel_right]
  have hless : rest.length < (c :: ds' ++ rest).length := by
    rw [List.length_append, List.length_cons]
    omega
  unfold xstrtoul
  rw [hdrop, hsign]
  simp only [Option.bind_eq_bind, Option.bind_some, hbase, readDigits_digits hvalue hn hrest, Bool.false_eq_true, if_false,
    if_pos hless, hlength]
  rfl

/-- One number, with what it is followed by. -/
theorem parseHexIntegerList_one {ds rest : List UInt8} {n : Nat} (hne : ds ≠ []) (hvalue : Hex.value 0 ds = some n)
    (hn : n < 2 ^ 32) (hrest : Ends rest) (lastSep : UInt8) : parseHexIntegerList 1 lastSep (ds ++ rest) =
      if rest.headD 0 = lastSep ∨ rest.headD 0 = 0 then some ([n], ds.length) else none := by
  have hpos : ds.length ≠ 0 := fun h => hne (List.length_eq_zero_iff.mp h)
  have hnext : (ds ++ rest).getD ds.length 0 = rest.headD 0 := by
    cases rest <;> simp [List.getD_eq_getElem?_getD]
  unfold parseHexIntegerList parseIntegerList
  simp only [xstrtoul_hex hne hvalue hn hrest, Option.bind_eq_bind, Option.bind_some, if_neg hpos, hnext, if_true]
  by_cases hend : rest.headD 0 = lastSep ∨ rest.headD 0 = 0
  · rw [if_pos hend, if_neg (by tauto)]
  · rw [if_neg hend, if_pos (by tauto)]

/-! ## Texts with a terminator -/

/-- What is behind the terminator of a text is not read. -/
theorem readDigits_nul (limit base : Nat) (behind : List UInt8) : ∀ (acc : Nat) (text : List UInt8),
    readDigits limit base acc (text ++ 0 :: behind) =
      (readDigits limit base acc text).map fun (n, rest) => (n, rest ++ 0 :: behind)
  | acc, [] => rfl
  | acc, c :: text => by
    rw [List.cons_append, readDigits, readDigits]
    cases alnumValue c with
    | none => rfl
    | some d =>
      dsimp only
      split
      · rfl
      split
      · rfl
      · exact readDigits_nul limit base behind _ text

theorem dropWhile_isSpace_nul (text behind : List UInt8) :
    (text ++ 0 :: behind).dropWhile isSpace = text.dropWhile isSpace ++ 0 :: behind := by
  have hnul : (0 :: behind).dropWhile isSpace = 0 :: behind := rfl
  rw [List.dropWhile_append, hnul]
  cases text.dropWhile isSpace <;> simp

theorem readSign_nul (text behind : List UInt8) :
    readSign false (text ++ 0 :: behind) = (readSign false text).map fun (neg, text) => (neg, text ++ 0 :: behind) := by
  unfold readSign
  cases text with
  | nil => simp
  | cons c text =>
    simp only [List.cons_append, List.head?_cons, Bool.false_eq_true, if_false]
    split <;> rfl

theorem readBase_nul (text behind : List UInt8) :
    readBase 16 false (text ++ 0 :: behind) = (readBase 16 false text).map fun (base, text) => (base, text ++ 0 :: behind) := by
  have hsecond : (text ++ 0 :: behind).head? = some 0x30 ∧
      ((text ++ 0 :: behind)[1]? = some 0x78 ∨ (text ++ 0 :: behind)[1]? = some 0x58) ↔
        text.head? = some 0x30 ∧ (text[1]? = some 0x78 ∨ text[1]? = some 0x58) := by
    match text with
    | [] => simp
    | [_] => simp
    | _ :: _ :: _ => simp
  unfold readBase
  simp only [or_true, true_and, Bool.false_eq_true, if_false, if_neg (show ¬16 = 0 by decide), hsecond]
  split <;> rfl

theorem xstrtoul_nul (limit : Nat) (text behind : List UInt8) :
    xstrtoul limit 16 false (text ++ 0 :: behind) = xstrtoul limit 16 false text := by
  unfold xstrtoul
  rw [dropWhile_isSpace_nul, readSign_nul]
  cases hsign : readSign false (text.dropWhile isSpace) with
  | none => rfl
  | some signed =>
    simp only [Option.map_some, Option.bind_eq_bind, Option.bind_some, readBase_nul]
    cases hbase : readBase 16 false signed.2 with
    | none => rfl
    | some based =>
      simp only [Option.map_some, Option.bind_some, readDigits_nul]
      cases readDigits limit based.1 0 based.2 with
      | none => rfl
      | some digits =>
        simp only [Option.map_some, Option.bind_some, List.length_append, Nat.add_lt_add_iff_right, Nat.add_sub_add_right]

/-- The place behind a number is not behind the terminator. -/
theorem xstrtoul_le {limit base n endpos : Nat} {allowPrefix : Bool} {s : List UInt8}
    (h : xstrtoul limit base allowPrefix s = some (n, endpos)) : endpos ≤ s.length := by
  unfold xstrtoul at h
  simp only [Option.bind_eq_bind, Option.bind_eq_some_iff] at h
  obtain ⟨signed, -, based, -, digits, -, h⟩ := h
  obtain ⟨-, rfl⟩ := Prod.mk.inj (Option.some.inj h)
  split <;> omega

theorem parseHexIntegerList_nul (lastSep : UInt8) (text behind : List UInt8) :
    parseHexIntegerList 1 lastSep (text ++ 0 :: behind) = parseHexIntegerList 1 lastSep text := by
  unfold parseHexIntegerList parseIntegerList
  rw [xstrtoul_nul]
  cases hnumber : xstrtoul (2 ^ 32) 16 false text with
  | none => rfl
  | some number =>
    obtain ⟨n, endpos⟩ := number
    have hle := xstrtoul_le hnumber
    have hnext : (text ++ 0 :: behind).getD endpos 0 = text.getD endpos 0 := by
      simp only [List.getD_eq_getElem?_getD]
      rcases Nat.lt_or_ge endpos text.length with hlt | hge
      · rw [List.getElem?_append_left hlt]
      · obtain rfl : endpos = text.length := by omega
        simp
    simp only [Option.bind_eq_bind, Option.bind_some, hnext, if_true]

/-- What is behind a number that is read. -/
theorem parseHexIntegerList_some {lastSep : UInt8} {s : List UInt8} {ns : List Nat} {pos : Nat}
    (h : parseHexIntegerList 1 lastSep s = some (ns, pos)) :
    (∃ n, ns = [n]) ∧ 0 < pos ∧ pos ≤ s.length ∧ (s.getD pos 0 = lastSep ∨ s.getD pos 0 = 0) := by
  refine ⟨?_, parseIntegerList_pos h, ?_⟩
  all_goals
    unfold parseHexIntegerList parseIntegerList at h
    simp only [Option.bind_eq_bind, Option.bind_eq_some_iff, if_true] at h
    obtain ⟨⟨n, endpos⟩, hnumber, h⟩ := h
    split at h
    · cases h
    split at h
    · cases h
  · cases h
    exact ⟨n, rfl⟩
  · rename_i hnext
    cases h
    exact ⟨xstrtoul_le hnumber, by tauto⟩

end Omiiba.Rosalina
