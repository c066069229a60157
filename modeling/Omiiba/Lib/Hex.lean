/-
Hexadecimal numbers as texts of bytes: how they are written with and without leading zeroes, and what
such a text stands for.
-/
import Mathlib.Tactic

namespace Omiiba.Hex

/-- The lower-case digit of a number below 16. -/
def digit (n : Nat) : UInt8 := if n < 10 then UInt8.ofNat (48 + n) else UInt8.ofNat (87 + n)

def digitValue (c : UInt8) : Option Nat :=
  if 48 ≤ c ∧ c ≤ 57 then some (c.toNat - 48)
  else if 97 ≤ c ∧ c ≤ 102 then some (c.toNat - 87)
  else if 65 ≤ c ∧ c ≤ 70 then some (c.toNat - 55)
  else none

theorem digitValue_digit {n : Nat} (h : n < 16) : digitValue (digit n) = some n := by
  interval_cases n <;> rfl

/-- The number that digits stand for, after those that stand for `acc`. -/
def value : Nat → List UInt8 → Option Nat
  | acc, [] => some acc
  | acc, c :: s =>
    match digitValue c with
    | none => none
    | some n => value (16 * acc + n) s

theorem value_append (s t : List UInt8) : ∀ acc, value acc (s ++ t) = (value acc s).bind fun acc => value acc t := by
  induction s with
  | nil => exact fun _ => rfl
  | cons c s ih =>
    intro acc
    rw [List.cons_append, value, value]
    cases digitValue c with
    | none => rfl
    | some n => exact ih (16 * acc + n)

/-- Digits make a number larger. -/
theorem le_value {s : List UInt8} {n : Nat} : ∀ {acc : Nat}, value acc s = some n → acc ≤ n := by
  induction s with
  | nil =>
    intro acc h
    exact (Option.some.inj h).le
  | cons c s ih =>
    intro acc h
    rw [value] at h
    cases hc : digitValue c with
    | none => simp [hc] at h
    | some d =>
      rw [hc] at h
      have hle := ih h
      omega

/-- Only digits stand for a number. -/
theorem isDigit_of_value {s : List UInt8} {n : Nat} : ∀ {acc : Nat}, value acc s = some n → ∀ c ∈ s, (digitValue c).isSome = true := by
  induction s with
  | nil => exact fun _ c hc => absurd hc List.not_mem_nil
  | cons c s ih =>
    intro acc h
    rw [value] at h
    cases hc : digitValue c with
    | none => simp [hc] at h
    | some d =>
      rw [hc] at h
      rw [List.forall_mem_cons]
      exact ⟨by rw [hc]; rfl, ih h⟩

/-- A digit, as it is written and what it stands for. -/
structure Digit where
  char : UInt8
  val : Nat
  spec : digitValue char = some val

/-- What stands for nothing is no digit. -/
theorem Digit.char_ne (d : Digit) {c : UInt8} (hc : digitValue c = none) : d.char ≠ c := by
  rintro rfl
  have hspec := d.spec
  rw [hc] at hspec
  cases hspec

/-- The number that digits stand for. -/
def number (ds : List Digit) : Nat := ds.foldl (fun acc d => 16 * acc + d.val) 0

theorem foldl_digits (ds : List Digit) : ∀ acc, ds.foldl (fun acc d => 16 * acc + d.val) acc = acc * 16 ^ ds.length + number ds := by
  unfold number
  induction ds with
  | nil => intro acc; simp
  | cons d ds ih =>
    intro acc
    rw [List.foldl_cons, List.foldl_cons, ih, ih (16 * 0 + d.val), List.length_cons]
    ring

theorem number_cons (d : Digit) (ds : List Digit) : number (d :: ds) = d.val * 16 ^ ds.length + number ds := by
  unfold number
  rw [List.foldl_cons, foldl_digits]
  unfold number
  ring

theorem value_chars (ds : List Digit) : ∀ acc, value acc (ds.map Digit.char) = some (ds.foldl (fun acc d => 16 * acc + d.val) acc) := by
  induction ds with
  | nil => exact fun _ => rfl
  | cons d ds ih =>
    intro acc
    rw [List.map_cons, value, d.spec]
    exact ih (16 * acc + d.val)

/-- The last `width` digits of a number. -/
def fixed : Nat → Nat → List UInt8
  | 0, _ => []
  | width + 1, n => fixed width (n / 16) ++ [digit (n % 16)]

@[simp] theorem fixed_length (width : Nat) : ∀ n, (fixed width n).length = width := by
  induction width with
  | zero => exact fun _ => rfl
  | succ width ih =>
    intro n
    simp [fixed, ih]

/-- All its digits, of a number that has at most `width` of them. -/
theorem value_fixed (width : Nat) : ∀ {acc n : Nat}, n < 16 ^ width → value acc (fixed width n) = some (acc * 16 ^ width + n) := by
  induction width with
  | zero =>
    intro acc n h
    have hn : n = 0 := by simpa using h
    simp [fixed, value, hn]
  | succ width ih =>
    intro acc n h
    have hdiv : n / 16 < 16 ^ width := by
      rw [pow_succ] at h
      exact Nat.div_lt_of_lt_mul (by omega)
    have hdigit := digitValue_digit (Nat.mod_lt n (by norm_num : 0 < 16))
    rw [fixed, value_append, ih hdiv]
    simp only [Option.bind_some, value, hdigit, Option.some.injEq]
    have hn := Nat.div_add_mod n 16
    rw [pow_succ]
    linarith

theorem digit_isDigit {n : Nat} (h : n < 16) : (digitValue (digit n)).isSome = true := by
  rw [digitValue_digit h]
  rfl

theorem fixed_isDigit (width : Nat) : ∀ {n : Nat} {c : UInt8}, c ∈ fixed width n → (digitValue c).isSome = true := by
  induction width with
  | zero =>
    intro n c h
    simp [fixed] at h
  | succ width ih =>
    intro n c h
    rcases List.mem_append.mp h with h | h
    · exact ih h
    · rw [List.mem_singleton.mp h]
      exact digit_isDigit (Nat.mod_lt _ (by norm_num))

end Omiiba.Hex
