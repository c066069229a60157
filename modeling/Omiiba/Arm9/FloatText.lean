/-
What the parsers of config.c read of numbers that were printed, with and without a fractional part.
-/
import Omiiba.Arm9.Options

namespace Omiiba.Arm9

/-! ## Digits -/

theorem wrap64_eq {x : Int} (hlow : -2 ^ 63 ≤ x) (hhigh : x < 2 ^ 63) : wrap64 x = x :=
  (Int.bmod_eq_iff (by norm_num)).mpr ⟨by norm_num at *; omega, by norm_num at *; omega, by simp⟩

theorem digitOf_digitChar {d : Nat} (h : d < 10) : digitOf (digitChar d) = some d := by
  interval_cases d <;> rfl

theorem digitChar_ne {d : Nat} (h : d < 10) {c : Char} (hc : digitOf c = none) : digitChar d ≠ c := by
  rintro rfl
  rw [digitOf_digitChar h] at hc
  cases hc

/-- The digits of a printed number, the highest one first. -/
def printedDigits (n : Nat) : List Nat := if n = 0 then [0] else (Nat.digits 10 n).reverse

/-- The number that digits stand for, the highest one first. -/
def digitsValue (ds : List Nat) : Nat := Nat.ofDigits 10 ds.reverse

theorem numberText_eq (n : Nat) : numberText 10 n = (printedDigits n).map digitChar := by
  unfold numberText printedDigits
  split
  · rfl
  · rw [List.map_reverse]

theorem printedDigits_lt {n d : Nat} (h : d ∈ printedDigits n) : d < 10 := by
  unfold printedDigits at h
  split at h
  · simp_all
  · exact Nat.digits_lt_base (by norm_num) (List.mem_reverse.mp h)

theorem digitsValue_printedDigits (n : Nat) : digitsValue (printedDigits n) = n := by
  unfold digitsValue printedDigits
  split
  · simp_all
  · rw [List.reverse_reverse, Nat.ofDigits_digits]

theorem printedDigits_ne_nil (n : Nat) : printedDigits n ≠ [] := by
  unfold printedDigits
  split
  · simp
  · rename_i hn
    simpa [Nat.digits_eq_nil_iff_eq_zero] using hn

theorem digitsValue_cons (d : Nat) (ds : List Nat) : digitsValue (d :: ds) = d * 10 ^ ds.length + digitsValue ds := by
  unfold digitsValue
  rw [List.reverse_cons, Nat.ofDigits_append, Nat.ofDigits_singleton, List.length_reverse]
  ring

/-- Digits that are read behind others: nothing wraps around if the number is below 2^63. -/
theorem parseDigits_digits (ds : List Nat) : ∀ {res : Nat}, (∀ d ∈ ds, d < 10) →
    res * 10 ^ ds.length + digitsValue ds < 2 ^ 63 →
    parseDigits res (ds.map digitChar) = some ((res * 10 ^ ds.length + digitsValue ds : Nat) : Int) := by
  induction ds with
  | nil =>
    intro res _ _
    simp [parseDigits, digitsValue]
  | cons d ds ih =>
    intro res hdigits hlt
    have hd := hdigits d List.mem_cons_self
    have hsum : (10 * res + d) * 10 ^ ds.length + digitsValue ds = res * 10 ^ (d :: ds).length + digitsValue (d :: ds) := by
      rw [digitsValue_cons, List.length_cons, pow_succ]
      ring
    have hle : 10 * res + d ≤ (10 * res + d) * 10 ^ ds.length := Nat.le_mul_of_pos_right _ (by positivity)
    have hwrap : wrap64 (10 * (res : Int) + d) = ((10 * res + d : Nat) : Int) := by
      rw [wrap64_eq (by omega) (by omega)]
      push_cast
      rfl
    rw [List.map_cons, parseDigits, digitOf_digitChar hd]
    simp only [hwrap]
    rw [ih (fun d' h => hdigits d' (List.mem_cons_of_mem _ h)) (by omega), hsum]

theorem parseDigits_numberText {n : Nat} (h : n < 2 ^ 63) : parseDigits 0 (numberText 10 n) = some (n : Int) := by
  have hvalue := digitsValue_printedDigits n
  have hlt : 0 * 10 ^ (printedDigits n).length + digitsValue (printedDigits n) < 2 ^ 63 := by omega
  have hparse := parseDigits_digits (printedDigits n) (fun _ => printedDigits_lt) hlt
  rw [numberText_eq]
  simpa [hvalue] using hparse

/-! ## Whole numbers -/

theorem numberText_cons (n : Nat) : ∃ d s, d < 10 ∧ numberText 10 n = digitChar d :: s := by
  rw [numberText_eq]
  cases hdigits : printedDigits n with
  | nil => exact absurd hdigits (printedDigits_ne_nil n)
  | cons d ds => exact ⟨d, ds.map digitChar, printedDigits_lt (hdigits ▸ List.mem_cons_self), rfl⟩

theorem parseDecInt_numberText {n : Nat} (h : n < 2 ^ 63) (minval maxval : Int) :
    parseDecInt (numberText 10 n) minval maxval = inBounds minval maxval n := by
  have hparse := parseDigits_numberText h
  obtain ⟨d, s, hd, htext⟩ := numberText_cons n
  have hplus : digitChar d ≠ '+' := digitChar_ne hd rfl
  have hminus : digitChar d ≠ '-' := digitChar_ne hd rfl
  rw [htext] at hparse ⊢
  unfold parseDecInt
  split
  rename_i sign digits hsplit
  split at hsplit
  · rename_i heq
    exact absurd (List.cons.inj heq).1 hplus
  · rename_i heq
    exact absurd (List.cons.inj heq).1 hminus
  · obtain ⟨rfl, rfl⟩ := Prod.mk.inj hsplit
    rw [hparse]
    simp only [one_mul]
    rw [wrap64_eq (by omega) (by omega)]

/-! ## Fractions -/

/-- The digits of a fraction, of which `ds.length` are left: nothing wraps around if the sum does not. -/
theorem parseFraction_digits (ds : List Nat) : ∀ {res : Int}, (∀ d ∈ ds, d < 10) → -2 ^ 63 ≤ res →
    res + digitsValue ds < 2 ^ 63 →
    parseFraction res (10 ^ ds.length / 10) (ds.map digitChar) = some (res + digitsValue ds) := by
  induction ds with
  | nil =>
    intro res _ _ _
    simp [parseFraction, digitsValue]
  | cons d ds ih =>
    intro res hdigits hlow hhigh
    have hd := hdigits d List.mem_cons_self
    have hmul : (10 : Int) ^ (d :: ds).length / 10 = 10 ^ ds.length := by
      rw [List.length_cons, pow_succ]
      exact Int.mul_ediv_cancel _ (by norm_num)
    have hpos : (0 : Int) < 10 ^ ds.length := by positivity
    have hvalue : ((digitsValue (d :: ds) : Nat) : Int) = d * 10 ^ ds.length + digitsValue ds := by
      rw [digitsValue_cons]
      push_cast
      rfl
    have hdigit : (0 : Int) ≤ d * 10 ^ ds.length := by positivity
    have hwrap : wrap64 (res + d * 10 ^ ds.length) = res + d * 10 ^ ds.length := wrap64_eq (by omega) (by omega)
    rw [List.map_cons, parseFraction, hmul, if_pos hpos, digitOf_digitChar hd]
    simp only [hwrap]
    rw [ih (fun d' h => hdigits d' (List.mem_cons_of_mem _ h)) (by omega) (by omega), hvalue, add_assoc]

/-- Zeroes at the end of a fraction count nothing. -/
theorem parseFraction_zeroes (k : Nat) : ∀ {res mul : Int}, -2 ^ 63 ≤ res → res < 2 ^ 63 →
    parseFraction res mul (List.replicate k '0') = some res := by
  induction k with
  | zero => exact fun _ _ => rfl
  | succ k ih =>
    intro res mul hlow hhigh
    have hdigit : digitOf '0' = some 0 := rfl
    rw [List.replicate_succ, parseFraction, hdigit]
    split
    · simp only [Nat.cast_zero, zero_mul, add_zero]
      rw [wrap64_eq hlow hhigh, ih hlow hhigh]
    · rfl

theorem wrap64_bounds (x : Int) : -2 ^ 63 ≤ wrap64 x ∧ wrap64 x < 2 ^ 63 := by
  have hlow := Int.le_bmod (x := x) (m := 2 ^ 64) (by norm_num)
  have hhigh := Int.bmod_lt (x := x) (m := 2 ^ 64) (by norm_num)
  unfold wrap64
  norm_num at *
  omega

theorem parseFraction_append_zeroes (k : Nat) (s : CStr) : ∀ {res mul : Int}, -2 ^ 63 ≤ res → res < 2 ^ 63 →
    parseFraction res mul (s ++ List.replicate k '0') = parseFraction res mul s := by
  induction s with
  | nil =>
    intro res mul hlow hhigh
    exact parseFraction_zeroes k hlow hhigh
  | cons c s ih =>
    intro res mul _ _
    rw [List.cons_append, parseFraction, parseFraction]
    split
    · cases digitOf c with
      | none => rfl
      | some n => exact ih (wrap64_bounds _).1 (wrap64_bounds _).2
    · rfl

theorem printedDigits_length {n : Nat} (h : n < 10 ^ 8) : (printedDigits n).length ≤ 8 := by
  unfold printedDigits
  split
  · simp
  · rw [List.length_reverse]
    exact (Nat.digits_length_le_iff (by norm_num) n).mpr h

/-- A number of at most eight digits with zeroes before it. -/
theorem zeroPadded_digits {n : Nat} (h : n < 10 ^ 8) :
    ∃ ds : List Nat, ds.length = 8 ∧ (∀ d ∈ ds, d < 10) ∧ digitsValue ds = n ∧ zeroPadded 8 10 n = ds.map digitChar := by
  have hlen := printedDigits_length h
  refine ⟨List.replicate (8 - (printedDigits n).length) 0 ++ printedDigits n, ?_, ?_, ?_, ?_⟩
  · rw [List.length_append, List.length_replicate]
    omega
  · intro d hd
    rcases List.mem_append.mp hd with hd | hd
    · rw [(List.mem_replicate.mp hd).2]
      norm_num
    · exact printedDigits_lt hd
  · unfold digitsValue
    rw [List.reverse_append, List.reverse_replicate, Nat.ofDigits_append_replicate_zero]
    exact digitsValue_printedDigits n
  · unfold zeroPadded
    rw [List.map_append, List.map_replicate, numberText_eq, List.length_map]
    rfl

/-- A text is what is left of it without the zeroes at its end, and these. -/
theorem rdropWhile_zeroes (s : CStr) : ∃ k, s = s.rdropWhile (· = '0') ++ List.replicate k '0' := by
  induction s using List.reverseRecOn with
  | nil => exact ⟨0, rfl⟩
  | append_singleton s c ih =>
    by_cases hc : c = '0'
    · obtain ⟨k, hk⟩ := ih
      refine ⟨k + 1, ?_⟩
      rw [List.rdropWhile_concat_pos _ _ _ (by simpa using hc), List.replicate_succ', ← List.append_assoc, ← hk, hc]
    · refine ⟨0, ?_⟩
      rw [List.rdropWhile_concat_neg _ _ _ (by simpa using hc)]
      simp

theorem rdropWhile_point (s : CStr) : ('.' :: s).rdropWhile (· = '0') = '.' :: s.rdropWhile (· = '0') := by
  induction s using List.reverseRecOn with
  | nil => rfl
  | append_singleton s c ih =>
    rw [← List.cons_append]
    by_cases hc : c = '0'
    · rw [List.rdropWhile_concat_pos _ _ _ (by simpa using hc), List.rdropWhile_concat_pos _ _ _ (by simpa using hc), ih]
    · rw [List.rdropWhile_concat_neg _ _ _ (by simpa using hc), List.rdropWhile_concat_neg _ _ _ (by simpa using hc)]
      rfl

/-- What is printed of the fractional part. -/
def fractionText (fracPart : Nat) : CStr :=
  if fracPart ≠ 0 then ('.' :: zeroPadded 8 10 fracPart).rdropWhile (· = '0') else []

theorem fractionText_cases (f : Nat) : fractionText f = [] ∨ ∃ s, fractionText f = '.' :: s := by
  unfold fractionText
  split
  · rw [rdropWhile_point]
    exact .inr ⟨_, rfl⟩
  · exact .inl rfl

theorem parseFraction_fractionText {f : Nat} {res : Int} (hf : f < 10 ^ 8) (hlow : -2 ^ 63 ≤ res) (hhigh : res + f < 2 ^ 63) :
    parseFraction res (floatConvMult / 10) (fractionText f).tail = some (res + f) := by
  unfold fractionText
  split
  · obtain ⟨ds, hlen, hdigits, hvalue, htext⟩ := zeroPadded_digits hf
    obtain ⟨k, hk⟩ := rdropWhile_zeroes (zeroPadded 8 10 f)
    rw [rdropWhile_point, List.tail_cons, ← parseFraction_append_zeroes k _ hlow (by omega), ← hk, htext]
    have hparse := parseFraction_digits ds hdigits hlow (by rw [hvalue]; exact hhigh)
    rw [hlen, hvalue] at hparse
    exact hparse
  · rename_i hzero
    obtain rfl : f = 0 := by omega
    simp [parseFraction]

/-! ## Numbers with a fraction -/

theorem numberText_no_point {n : Nat} {c : Char} (h : c ∈ numberText 10 n) : c ≠ '.' := by
  rw [numberText_eq] at h
  obtain ⟨d, hd, rfl⟩ := List.mem_map.mp h
  exact digitChar_ne (printedDigits_lt hd) rfl

/-- The parser finds the two parts of the number. -/
theorem split_at_point (n f : Nat) :
    (numberText 10 n ++ fractionText f).takeWhile (· ≠ '.') = numberText 10 n ∧
      (numberText 10 n ++ fractionText f).dropWhile (· ≠ '.') = fractionText f := by
  have hnumber : ∀ c ∈ numberText 10 n, decide (c ≠ '.') = true := fun c hc => decide_eq_true (numberText_no_point hc)
  rw [List.takeWhile_append_of_pos hnumber, List.dropWhile_append_of_pos hnumber]
  rcases fractionText_cases f with hf | ⟨s, hf⟩
  · simp [hf]
  · simp [hf]

/-- What is read of a number after its sign. Its whole part is negated before the fraction is added and
the sum is negated again: of a negative number the fraction is subtracted from its absolute value. -/
theorem parseUnsignedFloat_text {sign : Int} {n f : Nat} (hsign : sign = 1 ∨ sign = -1) (hf : f < 10 ^ 8)
    (h : n * 10 ^ 8 + f < 2 ^ 63) (minval maxval : Int) :
    parseUnsignedFloat sign (numberText 10 n ++ fractionText f) minval maxval =
      inBounds minval maxval (n * 10 ^ 8 + sign * f) := by
  obtain ⟨htake, hdrop⟩ := split_at_point n f
  have hn : n < 2 ^ 63 := by omega
  obtain ⟨d, s, -, hnumber⟩ := numberText_cons n
  have hne : numberText 10 n ++ fractionText f ≠ [] := by simp [hnumber]
  have hwhole : numberText 10 n ≠ [] := by simp [hnumber]
  have hint : parseDecInt (numberText 10 n) int64Min int64Max = some (n : Int) := by
    rw [parseDecInt_numberText hn]
    exact if_pos ⟨by unfold int64Max; omega, by unfold int64Min; omega⟩
  have habs : (if sign = -1 then wrap64 (-(n : Int)) else n) = sign * n := by
    rcases hsign with rfl | rfl
    · simp
    · rw [if_pos rfl, wrap64_eq (by omega) (by omega), neg_one_mul]
  have hlow : -2 ^ 63 ≤ sign * n * floatConvMult := by
    rcases hsign with rfl | rfl <;> unfold floatConvMult <;> omega
  have hhigh : sign * n * floatConvMult + f < 2 ^ 63 := by
    rcases hsign with rfl | rfl <;> unfold floatConvMult <;> omega
  have hrange : ¬(sign * n * floatConvMult < int64Min ∨ int64Max < sign * n * floatConvMult) := by
    unfold int64Min int64Max
    omega
  have hres : sign * (sign * n * floatConvMult + f) = n * 10 ^ 8 + sign * f := by
    rcases hsign with rfl | rfl <;> unfold floatConvMult <;> ring
  unfold parseUnsignedFloat
  simp only [if_neg hne, htake, hdrop, if_neg hwhole, hint, habs]
  rw [if_neg hrange, parseFraction_fractionText hf hlow hhigh]
  simp only [hres]
  rw [wrap64_eq]
  · rcases hsign with rfl | rfl <;> omega
  · rcases hsign with rfl | rfl <;> omega

/-- What is read of a number without a sign. -/
theorem parseDecFloatOption_text {n f : Nat} (hf : f < 10 ^ 8) (h : n * 10 ^ 8 + f < 2 ^ 63) (minval maxval : Int) :
    parseDecFloatOption (numberText 10 n ++ fractionText f) minval maxval = inBounds minval maxval (n * 10 ^ 8 + f) := by
  have hparse := parseUnsignedFloat_text (Or.inl rfl) hf h minval maxval
  obtain ⟨d, s, hd, hnumber⟩ := numberText_cons n
  have hplus : digitChar d ≠ '+' := digitChar_ne hd rfl
  have hminus : digitChar d ≠ '-' := digitChar_ne hd rfl
  rw [hnumber, List.cons_append] at hparse ⊢
  unfold parseDecFloatOption
  split
  · rename_i heq
    cases heq
  · rename_i heq
    exact absurd (List.cons.inj heq).1 hplus
  · rename_i heq
    exact absurd (List.cons.inj heq).1 hminus
  · rw [hparse, one_mul]

/-! ## The round trip -/

theorem dropDigits_le (fuel : Nat) : ∀ f, dropDigits fuel f ≤ f := by
  induction fuel with
  | zero => exact fun f => le_rfl
  | succ fuel ih =>
    intro f
    unfold dropDigits
    split
    · exact (ih (f / 10)).trans (Nat.div_le_self f 10)
    · exact le_rfl

/-- The loop that is to remove zeroes removes the last digit exactly if it is not a zero. -/
theorem dropDigits_eq_iff {f : Nat} : dropDigits 8 f = f ↔ f % 10 = 0 := by
  unfold dropDigits
  split
  · rename_i hdigit
    have hle := dropDigits_le 7 (f / 10)
    constructor
    · intro heq
      omega
    · intro hzero
      exact absurd hzero hdigit
  · rename_i hdigit
    simpa using hdigit

/-- A number in a text of config.ini: its whole part and what is printed of its fraction. -/
theorem encodedFloatToString_eq (val : Int) : encodedFloatToString val =
    decText ((if 0 ≤ val then 1 else -1) * (val.natAbs / 10 ^ 8 : Nat)) ++
      fractionText (dropDigits 8 (val.natAbs % 10 ^ 8)) := by
  have habs : (if val ≥ 0 then (1 : Int) else -1) * val = val.natAbs := by
    split <;> omega
  have hint : (val.natAbs : Int) / floatConvMult = (val.natAbs / 10 ^ 8 : Nat) := by
    unfold floatConvMult
    omega
  have hfrac : ((val.natAbs : Int) % floatConvMult).toNat = val.natAbs % 10 ^ 8 := by
    unfold floatConvMult
    omega
  unfold encodedFloatToString fractionText
  simp only [habs, hint, hfrac]

theorem inBounds_eq_some {minval maxval res v : Int} (hmin : minval ≤ v) (hmax : v ≤ maxval) :
    inBounds minval maxval res = some v ↔ res = v := by
  unfold inBounds
  constructor
  · intro h
    split at h
    · exact Option.some.inj h
    · cases h
  · rintro rfl
    exact if_pos ⟨hmax, hmin⟩

theorem decText_natCast (n : Nat) : decText n = numberText 10 n := by
  unfold decText
  rw [if_neg (by omega), Int.natAbs_natCast]

/-- The sign of a negative number is printed with its whole part, if that is not 0. -/
theorem decText_neg (n : Nat) : decText (-1 * (n : Int)) = (if n = 0 then [] else ['-']) ++ numberText 10 n := by
  unfold decText
  rw [neg_one_mul, Int.natAbs_neg, Int.natAbs_natCast]
  by_cases hn : n = 0
  · simp [hn]
  · rw [if_pos (by omega), if_neg hn]
    rfl

/-- No negative number is read again: without a sign it is not negative, and with one it is read as
the difference of its whole part and its fraction. -/
theorem negative_not_read {v minval maxval : Int} (hlow : int64Min < v) (hneg : v < 0) :
    parseDecFloatOption (encodedFloatToString v) minval maxval ≠ some v := by
  unfold int64Min at hlow
  have hdrop := dropDigits_le 8 (v.natAbs % 10 ^ 8)
  rw [encodedFloatToString_eq, if_neg (by omega), decText_neg]
  generalize hn : v.natAbs / 10 ^ 8 = n
  generalize dropDigits 8 (v.natAbs % 10 ^ 8) = f at hdrop ⊢
  have hf : f < 10 ^ 8 := by omega
  have hsum : n * 10 ^ 8 + f < 2 ^ 63 := by omega
  intro h
  have hres : ∃ res : Int, 0 ≤ res ∧ inBounds minval maxval res = some v := by
    by_cases hzero : n = 0
    · rw [if_pos hzero, List.nil_append, parseDecFloatOption_text hf hsum] at h
      exact ⟨_, by omega, h⟩
    · rw [if_neg hzero] at h
      have hparse : parseUnsignedFloat (-1) (numberText 10 n ++ fractionText f) minval maxval = some v := h
      rw [parseUnsignedFloat_text (Or.inr rfl) hf hsum] at hparse
      exact ⟨_, by omega, hparse⟩
  obtain ⟨res, hnonneg, hbounds⟩ := hres
  unfold inBounds at hbounds
  split at hbounds
  · rw [Option.some.injEq] at hbounds
    omega
  · cases hbounds

/-- A number that is printed is read again exactly if it is not negative and its eighth digit is 0. -/
theorem float_read_again_iff {v minval maxval : Int} (hlow : int64Min < v) (hhigh : v ≤ int64Max) (hmin : minval ≤ v)
    (hmax : v ≤ maxval) : parseDecFloatOption (encodedFloatToString v) minval maxval = some v ↔ 0 ≤ v ∧ v % 10 = 0 := by
  by_cases hsign : 0 ≤ v
  · unfold int64Max at hhigh
    have hdrop := dropDigits_le 8 (v.natAbs % 10 ^ 8)
    have hdigit : v.natAbs % 10 ^ 8 % 10 = 0 ↔ v % 10 = 0 := by omega
    rw [encodedFloatToString_eq, if_pos hsign, one_mul, decText_natCast, parseDecFloatOption_text (by omega) (by omega),
      inBounds_eq_some hmin hmax]
    -- what is lost in the text is what the loop removes
    have hlost : ((v.natAbs / 10 ^ 8 : Nat) : Int) * 10 ^ 8 + dropDigits 8 (v.natAbs % 10 ^ 8) = v ↔
        dropDigits 8 (v.natAbs % 10 ^ 8) = v.natAbs % 10 ^ 8 := by omega
    rw [hlost, dropDigits_eq_iff, hdigit]
    simp [hsign]
  · have hneg : v < 0 := not_le.mp hsign
    simp [negative_not_read hlow hneg, hsign]

theorem half_read_again : parseDecFloatOption (encodedFloatToString 50000000) 0 (8 * floatConvMult) = some 50000000 :=
  (float_read_again_iff (by decide) (by decide) (by decide) (by decide)).mpr ⟨by decide, by decide⟩

/-- -0.5 is read as 0.5, -1 as 1, and 0.12345678 as 0. -/
theorem float_not_read_again :
    let read (v : Int) (minval maxval : Int) := parseDecFloatOption (encodedFloatToString v) minval maxval
    read (-50000000) (-1 * floatConvMult) (1 * floatConvMult) ≠ some (-50000000) ∧
      read (-50000000) (-1 * floatConvMult) (1 * floatConvMult) = some 50000000 ∧
      read (-100000000) (-1 * floatConvMult) (1 * floatConvMult) = some 100000000 ∧
      read 12345678 0 (8 * floatConvMult) = some 0 := by
  intro read
  have hhalf : read (-50000000) (-1 * floatConvMult) (1 * floatConvMult) = some 50000000 := by decide +kernel
  have hone : read (-100000000) (-1 * floatConvMult) (1 * floatConvMult) = some 100000000 := by decide +kernel
  have hdigits : read 12345678 0 (8 * floatConvMult) = some 0 := by decide +kernel
  refine ⟨?_, hhalf, hone, hdigits⟩
  rw [hhalf]
  decide

end Omiiba.Arm9
