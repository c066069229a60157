/-
Which texts config.c reads as numbers: the whole numbers and the fractions that a text denotes, and where the parsers
read something else.
-/
import Omiiba.Arm9.FloatText

namespace Omiiba.Arm9

/-! ## What a text denotes -/

/-- The number of digits of a base, the highest one first. -/
def valueOf (base : Nat) (ds : List Nat) : Nat := Nat.ofDigits base ds.reverse

theorem valueOf_cons (base d : Nat) (ds : List Nat) : valueOf base (d :: ds) = d * base ^ ds.length + valueOf base ds := by
  unfold valueOf
  rw [List.reverse_cons, Nat.ofDigits_append, Nat.ofDigits_singleton, List.length_reverse]
  ring

/-- The number that a text of digits denotes: it has at least one, and nothing else. -/
def denotedNat (base : Nat) (digit : Char → Option Nat) (s : CStr) : Option Nat :=
  if s = [] then none else (s.mapM digit).map (valueOf base)

/-- The number that digits behind an optional sign denote. -/
def denotedInt : CStr → Option Int
  | '+' :: s => (denotedNat 10 digitOf s).map fun n : Nat => (n : Int)
  | '-' :: s => (denotedNat 10 digitOf s).map fun n : Nat => -(n : Int)
  | s => (denotedNat 10 digitOf s).map fun n : Nat => (n : Int)

/-- A number within bounds. -/
def InRange (minval maxval x : Int) : Prop := minval ≤ x ∧ x ≤ maxval

instance (minval maxval x : Int) : Decidable (InRange minval maxval x) := inferInstanceAs (Decidable (_ ∧ _))

theorem inBounds_some_iff {minval maxval x y : Int} :
    inBounds minval maxval x = some y ↔ x = y ∧ InRange minval maxval x := by
  unfold inBounds InRange
  split_ifs with h
  · exact ⟨fun heq => ⟨Option.some.inj heq, h.2, h.1⟩, fun ⟨heq, _⟩ => congrArg some heq⟩
  · exact ⟨fun heq => absurd heq (by simp), fun ⟨_, hlow, hhigh⟩ => absurd ⟨hhigh, hlow⟩ h⟩

theorem inBounds_none_iff {minval maxval x : Int} : inBounds minval maxval x = none ↔ ¬InRange minval maxval x := by
  unfold inBounds InRange
  split_ifs with h
  · exact ⟨fun heq => absurd heq (by simp), fun hout => absurd ⟨h.2, h.1⟩ hout⟩
  · exact ⟨fun _ hin => h ⟨hin.2, hin.1⟩, fun _ => rfl⟩

/-- Two numbers are the same option if they are equal, or both out of the bounds. -/
theorem inBounds_eq_iff {minval maxval x y : Int} :
    inBounds minval maxval x = inBounds minval maxval y ↔
      x = y ∨ ¬InRange minval maxval x ∧ ¬InRange minval maxval y := by
  constructor
  · intro h
    by_cases hx : InRange minval maxval x
    · have hsome := inBounds_some_iff.mpr ⟨rfl, hx⟩
      rw [h] at hsome
      exact Or.inl (inBounds_some_iff.mp hsome).1.symm
    · have hnone := inBounds_none_iff.mpr hx
      rw [h] at hnone
      exact Or.inr ⟨hx, inBounds_none_iff.mp hnone⟩
  · rintro (rfl | ⟨hx, hy⟩)
    · rfl
    · rw [inBounds_none_iff.mpr hx, inBounds_none_iff.mpr hy]

/-! ## Whole numbers -/

theorem wrap64_mul (a x : Int) : wrap64 (a * wrap64 x) = wrap64 (a * x) := by
  unfold wrap64
  rw [Int.mul_bmod, Int.bmod_bmod, ← Int.mul_bmod]

theorem wrap64_step (x : Int) (n : Nat) : wrap64 (10 * wrap64 x + n) = wrap64 (10 * x + n) := by
  unfold wrap64
  rw [Int.bmod_add_cancel_right, Int.mul_bmod, Int.bmod_bmod, ← Int.mul_bmod]

/-- The loop over the digits reads the number, of which an `s64` keeps what it can. -/
theorem parseDigits_eq (s : CStr) : ∀ x : Int,
    parseDigits (wrap64 x) s = (s.mapM digitOf).map fun ds => wrap64 (x * 10 ^ ds.length + valueOf 10 ds) := by
  induction s with
  | nil => simp [parseDigits, valueOf]
  | cons c s ih =>
    intro x
    rw [parseDigits, List.mapM_cons]
    cases digitOf c with
    | none => rfl
    | some n =>
      simp only [wrap64_step]
      rw [ih]
      cases s.mapM digitOf with
      | none => rfl
      | some ds =>
        have hsum : (10 * x + n) * 10 ^ ds.length + valueOf 10 ds =
            x * 10 ^ (n :: ds).length + valueOf 10 (n :: ds) := by
          rw [valueOf_cons, List.length_cons, pow_succ]
          push_cast
          ring
        exact congrArg (fun y => some (wrap64 y)) hsum

theorem parseDigits_zero (c : Char) (s : CStr) :
    parseDigits 0 (c :: s) = (denotedNat 10 digitOf (c :: s)).map fun n : Nat => wrap64 n := by
  have h := parseDigits_eq (c :: s) 0
  rw [wrap64_eq (by norm_num) (by norm_num)] at h
  rw [h, denotedNat, if_neg (List.cons_ne_nil c s), Option.map_map]
  simp [Function.comp_def]

theorem denotedInt_unsigned {c : Char} {s : CStr} (hplus : c ≠ '+') (hminus : c ≠ '-') :
    denotedInt (c :: s) = (denotedNat 10 digitOf (c :: s)).map fun n : Nat => (n : Int) := by
  unfold denotedInt
  split
  · rename_i heq
    exact absurd (List.cons.inj heq).1 hplus
  · rename_i heq
    exact absurd (List.cons.inj heq).1 hminus
  · rfl

/-- The digits behind a sign: the number is wrapped around before it gets the sign, and once more after. -/
theorem signed_digits (sign : Int) (c : Char) (s : CStr) (minval maxval : Int) :
    (match parseDigits 0 (c :: s) with
      | none => none
      | some res => inBounds minval maxval (wrap64 (sign * res))) =
      (denotedNat 10 digitOf (c :: s)).bind fun n : Nat => inBounds minval maxval (wrap64 (sign * n)) := by
  rw [parseDigits_zero]
  cases denotedNat 10 digitOf (c :: s) with
  | none => rfl
  | some n =>
    show inBounds minval maxval (wrap64 (sign * wrap64 n)) = inBounds minval maxval (wrap64 (sign * n))
    rw [wrap64_mul]

theorem parseDecInt_unsigned {c : Char} {s : CStr} (hplus : c ≠ '+') (hminus : c ≠ '-') (minval maxval : Int) :
    parseDecInt (c :: s) minval maxval =
      match parseDigits 0 (c :: s) with
      | none => none
      | some res => inBounds minval maxval (wrap64 (1 * res)) := by
  unfold parseDecInt
  split
  rename_i sign digits hsplit
  split at hsplit
  · rename_i heq
    exact absurd (List.cons.inj heq).1 hplus
  · rename_i heq
    exact absurd (List.cons.inj heq).1 hminus
  · obtain ⟨rfl, rfl⟩ := Prod.mk.inj hsplit
    rfl

/-- A sign is read only before a digit, and so the number is what the text denotes, wrapped around; the empty text is 0. -/
theorem parseDecInt_eq (val : CStr) (minval maxval : Int) :
    parseDecInt val minval maxval =
      if val = [] then inBounds minval maxval 0
      else (denotedInt val).bind fun x => inBounds minval maxval (wrap64 x) := by
  rcases val with _ | ⟨c, s⟩
  · rw [if_pos rfl]
    rfl
  rw [if_neg (List.cons_ne_nil c s)]
  by_cases hplus : c = '+'
  · subst hplus
    cases s with
    | nil => rfl
    | cons c s =>
      refine (signed_digits 1 c s minval maxval).trans ?_
      rw [denotedInt, Option.bind_map]
      simp
  by_cases hminus : c = '-'
  · subst hminus
    cases s with
    | nil => rfl
    | cons c s =>
      refine (signed_digits (-1) c s minval maxval).trans ?_
      rw [denotedInt, Option.bind_map]
      simp
  · rw [parseDecInt_unsigned hplus hminus, signed_digits, denotedInt_unsigned hplus hminus, Option.bind_map]
    simp

/-! ## Hexadecimal numbers -/

/-- `parseHexIntOption`. -/
def parseHexIntOption (val : CStr) (minval maxval : UInt64) : Option Nat :=
  (parseHexInt 0 val).filter fun res => res ≤ maxval.toNat ∧ minval.toNat ≤ res

theorem parseHexInt_eq (s : CStr) : ∀ res : Nat,
    parseHexInt (res % 2 ^ 64) s =
      (s.mapM hexDigitOf).map fun ds => (res * 16 ^ ds.length + valueOf 16 ds) % 2 ^ 64 := by
  induction s with
  | nil => simp [parseHexInt, valueOf]
  | cons c s ih =>
    intro res
    rw [parseHexInt, List.mapM_cons]
    cases hexDigitOf c with
    | none => rfl
    | some n =>
      have hstep : (16 * (res % 2 ^ 64) + n) % 2 ^ 64 = (16 * res + n) % 2 ^ 64 := by omega
      simp only [hstep]
      rw [ih]
      cases s.mapM hexDigitOf with
      | none => rfl
      | some ds =>
        have hsum : (16 * res + n) * 16 ^ ds.length + valueOf 16 ds =
            res * 16 ^ (n :: ds).length + valueOf 16 (n :: ds) := by
          rw [valueOf_cons, List.length_cons, pow_succ]
          ring
        exact congrArg (fun y => some (y % 2 ^ 64)) hsum

/-- The number is what the text denotes, wrapped around; the empty text is 0. -/
theorem parseHexInt_zero (s : CStr) :
    parseHexInt 0 s = if s = [] then some 0 else (denotedNat 16 hexDigitOf s).map (· % 2 ^ 64) := by
  have h := parseHexInt_eq s 0
  rw [Nat.zero_mod] at h
  rw [h, denotedNat]
  by_cases hs : s = []
  · subst hs
    rfl
  · rw [if_neg hs, if_neg hs, Option.map_map]
    simp [Function.comp_def]

/-! ## Where the parsers of whole numbers are right -/

theorem wrap64_eq_iff {x : Int} : wrap64 x = x ↔ InRange int64Min int64Max x := by
  have hbounds := wrap64_bounds x
  unfold InRange int64Min int64Max
  constructor
  · intro h
    rw [h] at hbounds
    omega
  · exact fun ⟨hlow, hhigh⟩ => wrap64_eq hlow (by omega)

theorem int64_within {minval maxval : Int64} {x : Int} (h : InRange minval.toInt maxval.toInt x) :
    InRange int64Min int64Max x := by
  have hlow := minval.le_toInt
  have hhigh := maxval.toInt_lt
  unfold InRange int64Min int64Max at *
  omega

/-- The parsers read the number that a text denotes, if it lies within the bounds, and else nothing: but they read the
empty text as 0, and a number that does not fit as what it is modulo 2^64. -/
theorem integerOptions_iff (val : CStr) (minval maxval : Int64) (low high : UInt64) :
    (parseDecInt val minval.toInt maxval.toInt = (denotedInt val).bind (inBounds minval.toInt maxval.toInt) ↔
      (val = [] → ¬InRange minval.toInt maxval.toInt 0) ∧
        ∀ x, denotedInt val = some x → InRange int64Min int64Max x ∨ ¬InRange minval.toInt maxval.toInt (wrap64 x)) ∧
    (parseHexIntOption val low high =
        (denotedNat 16 hexDigitOf val).filter (fun n => n ≤ high.toNat ∧ low.toNat ≤ n) ↔
      (val = [] → low ≠ 0) ∧
        ∀ n, denotedNat 16 hexDigitOf val = some n →
          n < 2 ^ 64 ∨ ¬(low.toNat ≤ n % 2 ^ 64 ∧ n % 2 ^ 64 ≤ high.toNat)) := by
  constructor
  · rw [parseDecInt_eq]
    by_cases hval : val = []
    · subst hval
      have hnone : denotedInt [] = none := rfl
      rw [if_pos rfl, hnone, Option.bind_none, inBounds_none_iff]
      exact ⟨fun h => ⟨fun _ => h, by simp⟩, fun h => h.1 rfl⟩
    · rw [if_neg hval]
      cases denotedInt val with
      | none => simp [hval]
      | some x =>
        rw [Option.bind_some, Option.bind_some, inBounds_eq_iff, wrap64_eq_iff]
        constructor
        · rintro (hfits | ⟨hout, -⟩)
          · exact ⟨fun h => absurd h hval, fun y hy => Or.inl (Option.some.inj hy ▸ hfits)⟩
          · exact ⟨fun h => absurd h hval, fun y hy => Or.inr (Option.some.inj hy ▸ hout)⟩
        · rintro ⟨-, hall⟩
          by_cases hfits : InRange int64Min int64Max x
          · exact Or.inl hfits
          -- what does not fit an `s64` is not within bounds that do
          · exact Or.inr ⟨(hall x rfl).resolve_left hfits, fun hin => hfits (int64_within hin)⟩
  · unfold parseHexIntOption
    rw [parseHexInt_zero]
    by_cases hval : val = []
    · subst hval
      have hnone : denotedNat 16 hexDigitOf [] = none := rfl
      have hlow : 0 < low.toNat ↔ ¬low = 0 := by
        rw [Nat.pos_iff_ne_zero]
        exact not_congr ⟨fun h => UInt64.toNat_inj.mp h, fun h => congrArg UInt64.toNat h⟩
      rw [if_pos rfl, hnone]
      simp [hlow]
    · rw [if_neg hval]
      cases denotedNat 16 hexDigitOf val with
      | none => simp [hval]
      | some n =>
        have hhigh := high.toNat_lt
        simp only [Option.map_some, Option.filter_some, hval, false_imp_iff, true_and, Option.some.injEq, forall_eq',
          decide_eq_true_eq]
        by_cases hfits : n < 2 ^ 64
        · rw [Nat.mod_eq_of_lt hfits]
          exact ⟨fun _ => Or.inl hfits, fun _ => rfl⟩
        · have hout : ¬(n ≤ high.toNat ∧ low.toNat ≤ n) := by omega
          rw [if_neg hout]
          simp only [hfits, false_or, ite_eq_right_iff, reduceCtorEq, imp_false]
          exact not_congr And.comm

/-- 2^64 + 1 is read as 1. -/
theorem integer_wraps_around :
    parseDecInt "18446744073709551617".toList (0 : Int64).toInt (0xFFFF : Int64).toInt ≠
      (denotedInt "18446744073709551617".toList).bind (inBounds (0 : Int64).toInt (0xFFFF : Int64).toInt) := by
  decide +kernel

end Omiiba.Arm9
