/-
Service names as byte strings: what `checkServiceName` accepts, what `areServiceNamesEqual`
compares, and what `strncpy` keeps of a name.
-/
import Omiiba.Sm.Services

namespace Omiiba.Sm

/-- The first `nameSize` bytes of a name. -/
def nameKey (name : Nat → UInt8) (nameSize : Int) : List UInt8 := (List.range nameSize.toNat).map name

/-- A name followed by a terminator or filling its 8 bytes. -/
def Terminated (name : Nat → UInt8) (nameSize : Int) : Prop := nameSize = 8 ∨ name nameSize.toNat = 0

instance (name : Nat → UInt8) (nameSize : Int) : Decidable (Terminated name nameSize) :=
  inferInstanceAs (Decidable (_ ∨ _))

/-- A size from 1 to 8 and no terminator among that many bytes. -/
structure ValidName (name : Nat → UInt8) (nameSize : Int) : Prop where
  pos : 1 ≤ nameSize
  le : nameSize ≤ 8
  nonzero : ∀ i < nameSize.toNat, name i ≠ 0

/-! ## strnlen -/

theorem strnlen_le (name : Nat → UInt8) (n : Nat) : strnlen name n ≤ n := by
  have hpre : (List.range n).takeWhile (fun i => name i != 0) <+: List.range n := List.takeWhile_prefix _
  simpa [strnlen] using hpre.length_le

theorem strnlen_succ (name : Nat → UInt8) (n : Nat) : strnlen name (n + 1) =
    if strnlen name n = n ∧ name n ≠ 0 then n + 1 else strnlen name n := by
  unfold strnlen
  rw [List.range_succ, List.takeWhile_append]
  simp only [List.length_range]
  by_cases h : ((List.range n).takeWhile fun i => name i != 0).length = n
  · rw [if_pos h]
    by_cases h0 : name n = 0 <;> simp [h, h0]
  · rw [if_neg h, if_neg (fun h' => h h'.1)]

theorem strnlen_eq_iff {name : Nat → UInt8} : ∀ {n : Nat}, strnlen name n = n ↔ ∀ i < n, name i ≠ 0
  | 0 => by simp [strnlen]
  | n + 1 => by
    have hle := strnlen_le name n
    rw [strnlen_succ]
    constructor
    · intro h
      split at h
      · next hn =>
        intro i hi
        rcases Nat.lt_succ_iff_lt_or_eq.1 hi with hi | rfl
        · exact strnlen_eq_iff.1 hn.1 i hi
        · exact hn.2
      · omega
    · intro h
      rw [if_pos ⟨strnlen_eq_iff.2 fun i hi => h i (Nat.lt_succ_of_lt hi), h n n.lt_succ_self⟩]

/-- The length of a string that ends within the bytes looked at, or fills them. -/
theorem strnlen_eq {name : Nat → UInt8} {n m : Nat} (hn : n ≤ m) (hz : ∀ i < n, name i ≠ 0)
    (he : n = m ∨ name n = 0) : strnlen name m = n := by
  induction m with
  | zero => obtain rfl := Nat.le_zero.1 hn; rfl
  | succ m ih =>
    rcases he with rfl | he
    · exact strnlen_eq_iff.2 hz
    · rcases Nat.lt_or_ge m n with hm | hm
      · obtain rfl : n = m + 1 := by omega
        exact strnlen_eq_iff.2 hz
      · have hm' := ih hm (.inr he)
        rw [strnlen_succ, hm']
        rw [if_neg]
        rintro ⟨rfl, h0⟩
        exact h0 he

theorem strnlen_lt {name : Nat → UInt8} {m : Nat} : ∀ i < strnlen name m, name i ≠ 0 := by
  induction m with
  | zero => intro i hi; simp [strnlen] at hi
  | succ m ih =>
    rw [strnlen_succ]
    split
    · next h =>
      intro i hi
      rcases Nat.lt_succ_iff_lt_or_eq.1 hi with hi | rfl
      · exact strnlen_eq_iff.1 h.1 i hi
      · exact h.2
    · exact ih

theorem strnlen_end {name : Nat → UInt8} {m : Nat} (h : strnlen name m < m) : name (strnlen name m) = 0 := by
  by_contra h0
  have hall : ∀ i < strnlen name m + 1, name i ≠ 0 := by
    intro i hi
    rcases Nat.lt_succ_iff_lt_or_eq.1 hi with hi | rfl
    · exact strnlen_lt i hi
    · exact h0
  clear h0
  induction m with
  | zero => exact absurd h (by simp)
  | succ m ih =>
    have hs := strnlen_succ name m
    split at hs
    · omega
    · next hn =>
      rw [hs] at h hall
      rcases Nat.lt_or_ge (strnlen name m) m with hm | hm
      · exact ih hm hall
      · have := strnlen_le name m
        obtain he : strnlen name m = m := by omega
        exact hn ⟨he, hall m (by omega)⟩

/-! ## checkServiceName and areServiceNamesEqual -/

theorem checkServiceName_iff {name : Nat → UInt8} {nameSize : Int} :
    rFailed (checkServiceName name nameSize) = false ↔ ValidName name nameSize := by
  unfold checkServiceName
  have hle := strnlen_le name nameSize.toNat
  split_ifs with h1 h2
  · exact ⟨fun h => absurd h (by decide), fun h => by have := h.pos; have := h.le; omega⟩
  · refine ⟨fun h => absurd h (by decide), fun h => ?_⟩
    rw [strnlen_eq_iff.2 h.nonzero] at h2
    omega
  · refine ⟨fun _ => ⟨by omega, by omega, strnlen_eq_iff.1 (by omega)⟩, fun _ => by decide⟩

theorem ValidName.sizeT {name : Nat → UInt8} {nameSize : Int} (h : ValidName name nameSize) :
    sizeT nameSize = nameSize.toNat := by
  have := h.pos
  have := h.le
  unfold Sm.sizeT
  omega

/-- Comparing against bytes without a terminator compares all of them. -/
theorem strncmpFrom_iff {a b : Nat → UInt8} : ∀ {n i : Nat}, (∀ j, i ≤ j → j < i + n → a j ≠ 0 ∨ b j ≠ 0) →
    (strncmpFrom a b n i = true ↔ ∀ j, i ≤ j → j < i + n → a j = b j)
  | 0, i, _ => by simp [strncmpFrom]; omega
  | n + 1, i, h => by
    unfold strncmpFrom
    have ih := strncmpFrom_iff (a := a) (b := b) (n := n) (i := i + 1) fun j hj hj' => h j (by omega) (by omega)
    rw [Bool.and_eq_true, Bool.or_eq_true, beq_iff_eq, beq_iff_eq, ih]
    constructor
    · rintro ⟨hi, h0⟩ j hj hj'
      rcases Nat.eq_or_lt_of_le hj with rfl | hj
      · exact hi
      · have hne : ¬ a i = 0 := fun h0 => (h i le_rfl (by omega)).elim (· h0) (· (hi ▸ h0))
        exact h0.resolve_left hne j hj (by omega)
    · intro hall
      exact ⟨hall i le_rfl (by omega), .inr fun j hj hj' => hall j (by omega) (by omega)⟩

theorem strncmpEq_iff {a b : Nat → UInt8} {n : Nat} (h : ∀ j < n, a j ≠ 0 ∨ b j ≠ 0) :
    strncmpEq a b n = true ↔ ∀ j < n, a j = b j := by
  unfold strncmpEq
  rw [strncmpFrom_iff fun j _ hj => h j (by omega)]
  simp

theorem nameKey_inj {a b : Nat → UInt8} {m n : Int} :
    nameKey a m = nameKey b n ↔ m.toNat = n.toNat ∧ ∀ j < n.toNat, a j = b j := by
  unfold nameKey
  constructor
  · intro h
    have hlen : m.toNat = n.toNat := by simpa using congrArg List.length h
    refine ⟨hlen, fun j hj => ?_⟩
    have := congrArg (·[j]?) h
    simpa [hlen, hj] using this
  · rintro ⟨hlen, h⟩
    rw [hlen]
    exact List.map_congr_left fun j hj => h j (List.mem_range.1 hj)

/-- The key of a stored name: its bytes up to a terminator. -/
def storedKey (name : Nat → UInt8) : List UInt8 := nameKey name (strnlen name 8)

/-- A stored name equals a name looked up when their keys do. -/
theorem areServiceNamesEqual_iff {stored name : Nat → UInt8} {nameSize : Int} (h : ValidName name nameSize) :
    areServiceNamesEqual stored name nameSize = true ↔ storedKey stored = nameKey name nameSize := by
  have hpos := h.pos
  have hle := h.le
  unfold areServiceNamesEqual storedKey
  rw [Bool.and_eq_true, Bool.or_eq_true, beq_iff_eq, beq_iff_eq, h.sizeT,
    strncmpEq_iff fun j hj => .inr (h.nonzero j hj), nameKey_inj]
  constructor
  · rintro ⟨heq, hend⟩
    refine ⟨?_, heq⟩
    rw [strnlen_eq (n := nameSize.toNat) (by omega) (fun i hi => heq i hi ▸ h.nonzero i hi) (hend.imp (by omega) id)]
    rfl
  · rintro ⟨hlen, heq⟩
    refine ⟨heq, ?_⟩
    have hlen' : strnlen stored 8 = nameSize.toNat := hlen
    by_cases h8 : nameSize = 8
    · exact .inl h8
    · right
      rw [← hlen']
      exact strnlen_end (by omega)

/-! ## strncpy -/

theorem strncpy8_of_lt {name : Nat → UInt8} {n i : Nat} (hz : ∀ j < n, name j ≠ 0) (hi : i < n) (hn : n ≤ 8) :
    strncpy8 name i = name i :=
  if_pos ⟨by omega, fun j hj => hz j (by omega)⟩

/-- What `strncpy` stores has the key registered exactly when the name registered is terminated. -/
theorem storedKey_strncpy8 {name : Nat → UInt8} {nameSize : Int} (h : ValidName name nameSize) :
    storedKey (strncpy8 name) = nameKey name nameSize ↔ Terminated name nameSize := by
  have hpos := h.pos
  have hle := h.le
  have hn : nameSize.toNat ≤ 8 := by omega
  have heq : ∀ j < nameSize.toNat, strncpy8 name j = name j := fun j hj => strncpy8_of_lt h.nonzero hj hn
  unfold storedKey Terminated
  rw [nameKey_inj]
  constructor
  · rintro ⟨hlen, -⟩
    have hlen' : strnlen (strncpy8 name) 8 = nameSize.toNat := hlen
    by_cases h8 : nameSize = 8
    · exact .inl h8
    · right
      by_contra h0
      have hlt : nameSize.toNat < 8 := by omega
      have hend : strncpy8 name (strnlen (strncpy8 name) 8) = 0 := strnlen_end (by omega)
      rw [hlen'] at hend
      have hall : ∀ j ≤ nameSize.toNat, name j ≠ 0 := by
        intro j hj
        rcases Nat.lt_or_eq_of_le hj with hj | rfl
        · exact h.nonzero j hj
        · exact h0
      rw [strncpy8, if_pos ⟨hlt, hall⟩] at hend
      exact h0 hend
  · intro hterm
    refine ⟨?_, heq⟩
    rw [strnlen_eq (n := nameSize.toNat) hn (fun i hi => heq i hi ▸ h.nonzero i hi)]
    · rfl
    · refine hterm.imp (by omega) fun h0 => ?_
      unfold strncpy8
      split
      · exact h0
      · rfl

end Omiiba.Sm
