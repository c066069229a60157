/-
Memory as a function of the address, and blocks stored in it.
-/
import Mathlib.Tactic

namespace Omiiba

/-- Memory that holds an `α` at each address. -/
abbrev Memory (α : Type*) := Nat → α

namespace Memory

variable {α : Type*}

/-- `bs` written from address `a` on. -/
def store (m : Memory α) (a : Nat) (bs : List α) : Memory α := fun x => if a ≤ x then (bs[x - a]?).getD (m x) else m x

@[simp] theorem store_nil (m : Memory α) (a : Nat) : m.store a [] = m := by
  funext x
  simp [store]

theorem store_outside (m : Memory α) {a x : Nat} {bs : List α} (h : x < a ∨ a + bs.length ≤ x) : m.store a bs x = m x := by
  unfold store
  rcases h with h | h
  · rw [if_neg (Nat.not_le.2 h)]
  · rw [if_pos (by omega), List.getElem?_eq_none (by omega)]
    rfl

theorem store_inside (m : Memory α) {a x : Nat} {bs : List α} (h : a ≤ x) (hlt : x - a < bs.length) :
    m.store a bs x = bs[x - a] := by
  unfold store
  rw [if_pos h, List.getElem?_eq_getElem hlt]
  rfl

/-- What is above a bound stays, if the block is below it. -/
theorem store_above (m : Memory α) {a n x : Nat} {bs : List α} (hn : a + bs.length ≤ n) (h : n ≤ x) :
    m.store a bs x = m x := m.store_outside (.inr (hn.trans h))

/-- A block has the same effect on a byte of memories that have the same byte there. -/
theorem store_congr {m m' : Memory α} {x : Nat} (h : m x = m' x) (a : Nat) (bs : List α) : m.store a bs x = m'.store a bs x := by
  unfold store
  rw [h]

/-- A block in the memory from an address on. -/
theorem store_shift (m : Memory α) (a b : Nat) (bs : List α) (x : Nat) :
    m.store (a + b) bs (a + x) = store (fun x => m (a + x)) b bs x := by
  unfold store
  simp only [Nat.add_le_add_iff_left, Nat.add_sub_add_left]

/-! ## Numbers -/

/-- `n` bytes of a number, the lowest one first. -/
def leBytes : Nat → Nat → List UInt8
  | 0, _ => []
  | n + 1, v => UInt8.ofNat v :: leBytes n (v / 256)

@[simp] theorem leBytes_length : ∀ n v, (leBytes n v).length = n
  | 0, _ => rfl
  | n + 1, v => congrArg Nat.succ (leBytes_length n (v / 256))

/-- The number in `n` bytes, the lowest one first. -/
def load (m : Memory UInt8) (a : Nat) : Nat → Nat
  | 0 => 0
  | n + 1 => (m a).toNat + 256 * load m (a + 1) n

/-- The bytes of a list, and zeros behind them. -/
def ofBytes (bytes : List UInt8) : Memory UInt8 := fun i => (bytes[i]?).getD 0

/-- Numbers are the same where their bytes are. -/
theorem load_eq {m m' : Memory UInt8} : ∀ {n a b : Nat}, (∀ i < n, m (a + i) = m' (b + i)) → m.load a n = m'.load b n
  | 0, _, _, _ => rfl
  | n + 1, a, b, h => by
    have hrest : m.load (a + 1) n = m'.load (b + 1) n := load_eq fun i hi => by
      have hnext := h (i + 1) (by omega)
      rwa [show a + (i + 1) = a + 1 + i by omega, show b + (i + 1) = b + 1 + i by omega] at hnext
    have hfirst : m a = m' b := h 0 (by omega)
    unfold load
    rw [hfirst, hrest]

theorem load_congr {m m' : Memory UInt8} {n a : Nat} (h : ∀ x, a ≤ x → x < a + n → m x = m' x) : m.load a n = m'.load a n :=
  load_eq fun i hi => h (a + i) (by omega) (by omega)

theorem load_of_bytes {m : Memory UInt8} : ∀ {n a v : Nat}, (∀ i (h : i < (leBytes n v).length), m (a + i) = (leBytes n v)[i]) →
    m.load a n = v % 256 ^ n
  | 0, _, _, _ => (Nat.mod_one _).symm
  | n + 1, a, v, h => by
    have hfirst : m a = UInt8.ofNat v := h 0 (by simp)
    have hrest : m.load (a + 1) n = v / 256 % 256 ^ n := by
      refine load_of_bytes fun i hi => ?_
      have hbyte := h (i + 1) (by simpa using hi)
      rwa [show a + (i + 1) = a + 1 + i by omega] at hbyte
    unfold load
    rw [hfirst, hrest, UInt8.toNat_ofNat']
    show v % 256 + 256 * (v / 256 % 256 ^ n) = v % 256 ^ (n + 1)
    rw [pow_succ', Nat.mod_mul]

theorem load_store (m : Memory UInt8) (a n v : Nat) : (m.store a (leBytes n v)).load a n = v % 256 ^ n := by
  refine load_of_bytes fun i hi => ?_
  rw [store_inside m (Nat.le_add_right a i) (by simpa using hi)]
  simp

theorem load_store_outside (m : Memory UInt8) {a b n : Nat} {bs : List UInt8} (h : b + n ≤ a ∨ a + bs.length ≤ b) :
    (m.store a bs).load b n = m.load b n :=
  load_congr fun x hx hlt => m.store_outside (by omega)

theorem load_lt (m : Memory UInt8) : ∀ n a : Nat, m.load a n < 256 ^ n
  | 0, _ => by simp [load]
  | n + 1, a => by
    have hbyte := (m a).toNat_lt
    have hrest := load_lt m n (a + 1)
    unfold load
    rw [pow_succ]
    omega

/-- Of a number, only what fits into the bytes counts. -/
theorem leBytes_mod : ∀ n v : Nat, leBytes n (v % 256 ^ n) = leBytes n v
  | 0, _ => rfl
  | n + 1, v => by
    have hrest : v % 256 ^ (n + 1) / 256 = v / 256 % 256 ^ n := by
      rw [pow_succ', Nat.mod_mul_right_div_self]
    have hbyte : UInt8.ofNat (v % 256 ^ (n + 1)) = UInt8.ofNat v := by
      rw [← UInt8.toNat_inj, UInt8.toNat_ofNat', UInt8.toNat_ofNat', pow_succ', Nat.mod_mul_right_mod]
    unfold leBytes
    rw [hbyte, hrest, leBytes_mod n (v / 256)]

/-- The bytes that a number was loaded from. -/
theorem leBytes_load (m : Memory UInt8) : ∀ n a : Nat, leBytes n (m.load a n) = (List.range n).map fun i => m (a + i)
  | 0, _ => rfl
  | n + 1, a => by
    have hbyte : UInt8.ofNat ((m a).toNat + 256 * m.load (a + 1) n) = m a := by
      rw [← UInt8.toNat_inj, UInt8.toNat_ofNat']
      have hlt := (m a).toNat_lt
      omega
    have hrest : ((m a).toNat + 256 * m.load (a + 1) n) / 256 = m.load (a + 1) n := by
      have hlt := (m a).toNat_lt
      omega
    rw [List.range_succ_eq_map, List.map_cons, List.map_map]
    unfold load leBytes
    rw [hbyte, hrest, leBytes_load m n (a + 1)]
    refine congrArg (m a :: ·) (List.map_congr_left fun i _ => ?_)
    simp only [Function.comp_apply]
    rw [show a + 1 + i = a + i.succ by omega]

end Memory

/-! ## Copying one by one -/

section

variable {ι α : Type*} [DecidableEq ι]

/-- What is at `src` copied to `dst`, place by place in the order of the numbers. -/
def copyInOrder (dst src : Nat → ι) (n : Nat) (b : ι → α) : ι → α :=
  (List.range n).foldl (fun b i => Function.update b (dst i) (b (src i))) b

theorem copyInOrder_succ (dst src : Nat → ι) (n : Nat) (b : ι → α) : copyInOrder dst src (n + 1) b =
    Function.update (copyInOrder dst src n b) (dst n) (copyInOrder dst src n b (src n)) := by
  unfold copyInOrder
  rw [List.range_succ, List.foldl_append]
  rfl

theorem copyInOrder_succ' (dst src : Nat → ι) (n : Nat) (b : ι → α) : copyInOrder dst src (n + 1) b =
    copyInOrder (fun i => dst (i + 1)) (fun i => src (i + 1)) n (Function.update b (dst 0) (b (src 0))) := by
  unfold copyInOrder
  rw [List.range_succ_eq_map, List.foldl_cons, List.foldl_map]

theorem copyInOrder_outside {dst src : Nat → ι} {n : Nat} {b : ι → α} {x : ι} (h : ∀ i < n, dst i ≠ x) :
    copyInOrder dst src n b x = b x := by
  induction n with
  | zero => rfl
  | succ n ih =>
    rw [copyInOrder_succ, Function.update_of_ne (h n (Nat.lt_succ_self n)).symm]
    exact ih fun i hi => h i (by omega)

/-- Copying to different places changes nothing exactly if both sides agree already. -/
theorem copyInOrder_eq_self_iff {dst src : Nat → ι} {n : Nat} {b : ι → α}
    (hinj : ∀ i j, i < j → j < n → dst i ≠ dst j) : copyInOrder dst src n b = b ↔ ∀ i < n, b (dst i) = b (src i) := by
  induction n with
  | zero => simp [copyInOrder]
  | succ n ih =>
    have ih := ih fun i j hij hj => hinj i j hij (by omega)
    constructor
    · intro h
      -- the last place is written last, and nowhere before: the others are as they were
      have hprefix : copyInOrder dst src n b = b := by
        funext x
        by_cases hx : x = dst n
        · rw [hx]
          exact copyInOrder_outside fun i hi => hinj i n hi (Nat.lt_succ_self n)
        · have hsame := congrFun h x
          rwa [copyInOrder_succ, Function.update_of_ne hx] at hsame
      have hlast := congrFun h (dst n)
      rw [copyInOrder_succ, Function.update_self, hprefix] at hlast
      intro i hi
      rcases Nat.lt_succ_iff_lt_or_eq.mp hi with hi | rfl
      · exact ih.mp hprefix i hi
      · exact hlast.symm
    · intro h
      rw [copyInOrder_succ, ih.mpr fun i hi => h i (by omega), ← h n (Nat.lt_succ_self n), Function.update_eq_self]

end

end Omiiba
