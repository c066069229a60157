/-
What comes back of what is sent, after net.c: hexadecimal data, and a packet with its frame around it.
-/
import Omiiba.Rosalina.GdbReceive

namespace Omiiba.Rosalina

/-! ## Hexadecimal data -/

/-- The bytes of the longest prefix, of at most `len` pairs, in which both digits of each pair are digits. -/
def completePairs : Nat → List UInt8 → List UInt8
  | len + 1, a :: b :: src =>
    match Hex.digitValue a, Hex.digitValue b with
    | some high, some low => UInt8.ofNat (16 * high + low) :: completePairs len src
    | _, _ => []
  | _, _ => []

/-- Of the pair behind that prefix the first character is no digit, and the second one is. -/
def EndsMasked (len : Nat) (src : List UInt8) : Prop :=
  (completePairs len src).length < len ∧ ∃ a b tail, src.drop (2 * (completePairs len src).length) = a :: b :: tail ∧
    a ≠ 0 ∧ Hex.digitValue a = none ∧ (Hex.digitValue b).isSome = true

theorem digitValue_ne_zero {c : UInt8} {v : Nat} (h : Hex.digitValue c = some v) : c ≠ 0 := by
  rintro rfl
  cases h

/-- A pair of digits is decoded, and what is behind it decides. -/
theorem decodeHex_digits {a b : UInt8} {high low : Nat} (ha : Hex.digitValue a = some high) (hb : Hex.digitValue b = some low)
    (len : Nat) (src : List UInt8) :
    decodeHex (len + 1) (a :: b :: src) = UInt8.ofNat (16 * high + low) :: decodeHex len src := by
  simp [decodeHex, decodeHexDigit, ha, hb, digitValue_ne_zero ha, digitValue_ne_zero hb]

theorem completePairs_digits {a b : UInt8} {high low : Nat} (ha : Hex.digitValue a = some high) (hb : Hex.digitValue b = some low)
    (len : Nat) (src : List UInt8) :
    completePairs (len + 1) (a :: b :: src) = UInt8.ofNat (16 * high + low) :: completePairs len src := by
  simp [completePairs, ha, hb]

theorem endsMasked_digits {a b : UInt8} {high low : Nat} (ha : Hex.digitValue a = some high) (hb : Hex.digitValue b = some low)
    (len : Nat) (src : List UInt8) : EndsMasked (len + 1) (a :: b :: src) ↔ EndsMasked len src := by
  unfold EndsMasked
  rw [completePairs_digits ha hb, List.length_cons, Nat.mul_succ, List.drop_succ_cons, List.drop_succ_cons, Nat.succ_lt_succ_iff]

/-- The first pair is not one of digits: then nothing should be decoded. -/
theorem decodeHex_masked {a b : UInt8} (h : Hex.digitValue a = none ∨ Hex.digitValue b = none) (len : Nat) (src : List UInt8) :
    completePairs (len + 1) (a :: b :: src) = [] ∧
      (decodeHex (len + 1) (a :: b :: src) = [] ↔ ¬EndsMasked (len + 1) (a :: b :: src)) := by
  have hnothing : completePairs (len + 1) (a :: b :: src) = [] := by
    unfold completePairs
    split
    · rename_i hhigh hlow
      rw [hhigh, hlow] at h
      rcases h with h | h <;> cases h
    · rfl
  refine ⟨hnothing, ?_⟩
  unfold EndsMasked
  rw [hnothing]
  rcases eq_or_ne a 0 with rfl | hfirst
  · simp [decodeHex]
  cases hb : Hex.digitValue b with
  | none => simp [decodeHex, decodeHexDigit, hb]
  | some low =>
    have ha : Hex.digitValue a = none := h.resolve_right (by simp [hb])
    simp [decodeHex, decodeHexDigit, ha, hb, hfirst, digitValue_ne_zero hb]

theorem decodeHex_eq_iff (len : Nat) : ∀ src : List UInt8,
    decodeHex len src = completePairs len src ↔ ¬EndsMasked len src := by
  induction len with
  | zero =>
    intro src
    simp [decodeHex, completePairs, EndsMasked]
  | succ len ih =>
    intro src
    -- a pair of digits is followed by the shorter text; at any other one both stop
    rcases src with _ | ⟨a, _ | ⟨b, src⟩⟩
    · simp [decodeHex, completePairs, EndsMasked]
    · simp [decodeHex, completePairs, EndsMasked]
    · cases ha : Hex.digitValue a with
      | none =>
        obtain ⟨hnothing, hiff⟩ := decodeHex_masked (b := b) (Or.inl ha) len src
        rw [hnothing, hiff]
      | some high =>
        cases hb : Hex.digitValue b with
        | none =>
          obtain ⟨hnothing, hiff⟩ := decodeHex_masked (a := a) (Or.inr hb) len src
          rw [hnothing, hiff]
        | some low =>
          rw [decodeHex_digits ha hb, completePairs_digits ha hb, endsMasked_digits ha hb, ← ih src, List.cons.injEq]
          simp

/-- What was encoded is decoded again, whatever is behind it. -/
theorem decodeHex_encodeHex (bytes behind : List UInt8) : decodeHex bytes.length (encodeHex bytes ++ behind) = bytes := by
  induction bytes with
  | nil => simp [decodeHex]
  | cons byte bytes ih =>
    have hbyte := byte.toNat_lt
    rw [encodeHex_cons, List.cons_append, List.cons_append, List.length_cons,
      decodeHex_digits (Hex.digitValue_digit (by omega)) (Hex.digitValue_digit (by omega)), ih]
    congr 1
    rw [show 16 * (byte.toNat / 16) + byte.toNat % 16 = byte.toNat by omega]
    exact UInt8.ofNat_toNat

/-- Encoded data are decoded again. Of any text the pairs of digits at its beginning are decoded, unless the first
character that is no digit has a digit behind it in its pair: then what `ok` says of it is overwritten. -/
theorem decodeHex_iff (bytes : List UInt8) (len : Nat) (src : List UInt8) :
    decodeHex bytes.length (encodeHex bytes) = bytes ∧
      (decodeHex len src = completePairs len src ↔ ¬EndsMasked len src) := by
  refine ⟨?_, decodeHex_eq_iff len src⟩
  have h := decodeHex_encodeHex bytes []
  rwa [List.append_nil] at h

/-- `G1` is decoded as 1. -/
theorem firstDigit_masked : decodeHex 1 (ascii "G1") = [1] ∧ completePairs 1 (ascii "G1") = [] := by
  decide +kernel

/-! ## Packets -/

end Omiiba.Rosalina
