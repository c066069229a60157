/-
Traces of writes to a buffer: what a trace leaves in the cells it covers and in those it does not.
-/
import Omiiba.Lib.Memory

namespace Omiiba

/-- Values put at an offset of a buffer. -/
structure Write (α : Type*) where
  off : Nat
  bytes : List α

namespace Write

variable {α : Type*}

/-- The same values further on. -/
def shift (n : Nat) (w : Write α) : Write α := ⟨n + w.off, w.bytes⟩

@[simp] theorem shift_off (n : Nat) (w : Write α) : (w.shift n).off = n + w.off := rfl

@[simp] theorem shift_bytes (n : Nat) (w : Write α) : (w.shift n).bytes = w.bytes := rfl

/-- The first offset behind the values. -/
def stop (w : Write α) : Nat := w.off + w.bytes.length

/-- The cell is one of those that are written. -/
def Covers (w : Write α) (x : Nat) : Prop := w.off ≤ x ∧ x < w.stop

theorem stop_shift (n : Nat) (w : Write α) : (w.shift n).stop = n + w.stop := Nat.add_assoc _ _ _

theorem covers_shift {n : Nat} {w : Write α} {x : Nat} : (w.shift n).Covers (n + x) ↔ w.Covers x := by
  unfold Covers
  rw [stop_shift, shift_off]
  omega

/-- The cells that are written, with their values. -/
def cells (w : Write α) : List (Nat × α) := w.bytes.mapIdx fun i b => (w.off + i, b)

@[simp] theorem cells_length (w : Write α) : w.cells.length = w.bytes.length := List.length_mapIdx

theorem cells_append (a : Nat) (bs cs : List α) :
    (⟨a, bs ++ cs⟩ : Write α).cells = (⟨a, bs⟩ : Write α).cells ++ (⟨a + bs.length, cs⟩ : Write α).cells := by
  simp [cells, List.mapIdx_append, Nat.add_assoc, Nat.add_comm bs.length]

theorem cells_inj {a : Nat} {bs cs : List α} : (⟨a, bs⟩ : Write α).cells = (⟨a, cs⟩ : Write α).cells ↔ bs = cs := by
  constructor
  · intro h
    have hbytes : ∀ w : Write α, w.cells.map Prod.snd = w.bytes := fun w =>
      List.ext_getElem (by simp) fun i h h' => by simp [cells]
    have := congrArg (List.map Prod.snd) h
    rwa [hbytes, hbytes] at this
  · rintro rfl
    rfl

theorem cells_range (a n : Nat) (f : Nat → α) :
    (⟨a, (List.range n).map f⟩ : Write α).cells = (List.range n).map fun i => (a + i, f i) := by
  apply List.ext_getElem
  · simp
  · intro i h h'
    simp [cells]

end Write

namespace Memory

variable {α : Type*}

/-- The buffer after the writes. -/
def written (m : Memory α) (ws : List (Write α)) : Memory α := ws.foldl (fun m w => m.store w.off w.bytes) m

@[simp] theorem written_nil (m : Memory α) : m.written [] = m := rfl

@[simp] theorem written_cons (m : Memory α) (w : Write α) (ws : List (Write α)) :
    m.written (w :: ws) = (m.store w.off w.bytes).written ws := rfl

theorem written_append (m : Memory α) (ws ws' : List (Write α)) : m.written (ws ++ ws') = (m.written ws).written ws' :=
  List.foldl_append

/-- Cells that no write covers stay. -/
theorem written_untouched {ws : List (Write α)} {x : Nat} : ∀ {m : Memory α}, (∀ w ∈ ws, ¬w.Covers x) → m.written ws x = m x := by
  induction ws with
  | nil => intro m _; rfl
  | cons w ws ih =>
    intro m h
    obtain ⟨hw, hws⟩ := List.forall_mem_cons.mp h
    rw [written_cons, ih hws]
    unfold Write.Covers Write.stop at hw
    exact m.store_outside (by omega)

/-- The `n` values from an address on. -/
def read (m : Memory α) (a n : Nat) : List α := (List.range n).map fun i => m (a + i)

@[simp] theorem read_length (m : Memory α) (a n : Nat) : (m.read a n).length = n := by
  simp [read]

theorem read_eq_iff {m m' : Memory α} {a b n : Nat} : m.read a n = m'.read b n ↔ ∀ i < n, m (a + i) = m' (b + i) := by
  unfold read
  rw [List.map_inj_left]
  exact forall_congr' fun i => by rw [List.mem_range]

theorem read_congr {m m' : Memory α} {a n : Nat} (h : ∀ x, a ≤ x → x < a + n → m x = m' x) : m.read a n = m'.read a n :=
  read_eq_iff.mpr fun i hi => h _ (Nat.le_add_right a i) (Nat.add_lt_add_left hi a)

theorem read_add (m : Memory α) (a n k : Nat) : m.read a (n + k) = m.read a n ++ m.read (a + n) k := by
  unfold read
  rw [List.range_add, List.map_append, List.map_map]
  simp [Function.comp_def, Nat.add_assoc]

theorem read_take (m : Memory α) (a : Nat) {n k : Nat} (h : k ≤ n) : (m.read a n).take k = m.read a k := by
  unfold read
  rw [← List.map_take, List.take_range, min_eq_left h]

theorem read_getD (m : Memory α) (a : Nat) {n i : Nat} (h : i < n) (d : α) : (m.read a n).getD i d = m (a + i) := by
  simp [read, h]

/-- A part of what has been stored. -/
theorem read_store (m : Memory α) (a : Nat) {bs : List α} {j n : Nat} (h : j + n ≤ bs.length) :
    (m.store a bs).read (a + j) n = (bs.drop j).take n := by
  apply List.ext_getElem
  · simp only [read_length, List.length_take, List.length_drop]
    omega
  · intro i hi hi'
    rw [read_length] at hi
    simp only [read, List.getElem_map, List.getElem_range, List.getElem_take, List.getElem_drop]
    rw [m.store_inside (by omega) (by omega)]
    congr 1
    omega

/-- What is in front of a block or behind it stays. -/
theorem read_store_outside (m : Memory α) {a b n : Nat} {bs : List α} (h : b + n ≤ a ∨ a + bs.length ≤ b) :
    (m.store a bs).read b n = m.read b n :=
  read_congr fun x hb hn => m.store_outside (by omega)

/-- The first values of a block. -/
theorem read_store_take (m : Memory α) (a : Nat) {bs : List α} {n : Nat} (h : n ≤ bs.length) :
    (m.store a bs).read a n = bs.take n := by
  have hread := m.read_store a (show 0 + n ≤ bs.length by omega)
  simpa using hread

/-! ## Values one behind the other -/

theorem store_append (m : Memory α) (a : Nat) (bs cs : List α) :
    m.store a (bs ++ cs) = (m.store a bs).store (a + bs.length) cs := by
  funext x
  rcases Nat.lt_or_ge x (a + bs.length) with hlt | hge
  · rw [store_outside _ (.inl hlt)]
    rcases Nat.lt_or_ge x a with hbefore | hin
    · rw [store_outside _ (.inl hbefore), store_outside _ (.inl hbefore)]
    · rw [store_inside _ hin (by rw [List.length_append]; omega), store_inside _ hin (by omega),
        List.getElem_append_left (by omega)]
  · rcases Nat.lt_or_ge x (a + bs.length + cs.length) with hin | hbehind
    · rw [store_inside _ (by omega) (by rw [List.length_append]; omega), store_inside _ hge (by omega),
        List.getElem_append_right (by omega)]
      congr 1
      omega
    · rw [store_outside _ (.inr (by rw [List.length_append]; omega)), store_outside _ (.inr hbehind), store_outside _ (.inr hge)]

/-- A field of a block is written over. -/
theorem store_field (m : Memory α) {a b : Nat} (xs ys zs : List α) {ys' : List α} (hplace : b = a + xs.length)
    (h : ys'.length = ys.length) : (m.store a (xs ++ ys ++ zs)).store b ys' = m.store a (xs ++ ys' ++ zs) := by
  subst hplace
  funext x
  have hlength : ∀ bs : List α, bs.length = ys.length → (xs ++ bs ++ zs).length = xs.length + ys.length + zs.length := by
    intro bs hbs
    rw [List.length_append, List.length_append, hbs]
  have hblock := hlength ys rfl
  have hnew := hlength ys' h
  by_cases hfield : a + xs.length ≤ x ∧ x < a + xs.length + ys'.length
  · obtain ⟨hlow, hhigh⟩ := hfield
    rw [store_inside _ hlow (by omega), store_inside m (by omega) (by omega),
      List.getElem_append_left (by rw [List.length_append]; omega), List.getElem_append_right (by omega)]
    congr 1
    omega
  · rw [store_outside _ (by omega)]
    by_cases hin : a ≤ x ∧ x < a + (xs ++ ys ++ zs).length
    · obtain ⟨hlow, hhigh⟩ := hin
      rw [store_inside m hlow (by omega), store_inside m hlow (by omega)]
      rcases Nat.lt_or_ge x (a + xs.length) with hbefore | hbehind
      · rw [List.getElem_append_left (by rw [List.length_append]; omega), List.getElem_append_left (by omega),
          List.getElem_append_left (by rw [List.length_append]; omega), List.getElem_append_left (by omega)]
      · rw [List.getElem_append_right (by rw [List.length_append]; omega),
          List.getElem_append_right (by rw [List.length_append]; omega)]
        congr 1
        rw [List.length_append, List.length_append, h]
    · rw [store_outside m (by omega), store_outside m (by omega)]

/-- A trace of single values in order is a block. -/
theorem written_mapIdx (bs : List α) : ∀ (m : Memory α) (a : Nat), m.written (bs.mapIdx fun i b => ⟨a + i, [b]⟩) = m.store a bs := by
  induction bs with
  | nil =>
    intro m a
    simp
  | cons b bs ih =>
    intro m a
    have hrest : (bs.mapIdx fun i c => (⟨a + (i + 1), [c]⟩ : Write α)) = bs.mapIdx fun i c => ⟨a + 1 + i, [c]⟩ := by
      simp only [Nat.add_assoc, Nat.add_comm 1]
    rw [List.mapIdx_cons, written_cons, hrest, ih]
    exact (store_append m a [b] bs).symm

/-! ## Blocks in order -/

/-- The trace has the effect of one block, in a buffer that does not go round. -/
def Stores (ws : List (Write α)) (a : Nat) (bs : List α) : Prop := ∀ m : Memory α, m.written ws = m.store a bs

theorem Stores.nil (a : Nat) : Stores ([] : List (Write α)) a [] := fun m => (m.store_nil a).symm

theorem Stores.single (a : Nat) (bs : List α) : Stores [⟨a, bs⟩] a bs := fun _ => rfl

theorem Stores.append {a : Nat} {ws ws' : List (Write α)} {bs bs' : List α} (h : Stores ws a bs)
    (h' : Stores ws' (a + bs.length) bs') : Stores (ws ++ ws') a (bs ++ bs') := by
  intro m
  rw [written_append, h m, h' _, store_append]

theorem length_flatMap_range {n len : Nat} {bs : Nat → List α} (hlen : ∀ k < n, (bs k).length = len) :
    ((List.range n).flatMap bs).length = len * n := by
  induction n with
  | zero => simp
  | succ n ih =>
    rw [List.range_succ, List.flatMap_append, List.length_append, ih fun k hk => hlen k (by omega), List.flatMap_singleton,
      hlen n (Nat.lt_succ_self n), Nat.mul_succ]

/-- The rounds of a loop put blocks of one length one behind the other. -/
theorem Stores.flatMap_range {a n len : Nat} {ws : Nat → List (Write α)} {bs : Nat → List α}
    (hlen : ∀ k < n, (bs k).length = len) (h : ∀ k < n, Stores (ws k) (a + len * k) (bs k)) :
    Stores ((List.range n).flatMap ws) a ((List.range n).flatMap bs) := by
  induction n with
  | zero => exact Stores.nil a
  | succ n ih =>
    have hbefore := fun k (hk : k < n) => hlen k (by omega)
    rw [List.range_succ, List.flatMap_append, List.flatMap_append, List.flatMap_singleton, List.flatMap_singleton]
    refine (ih hbefore fun k hk => h k (by omega)).append ?_
    rw [length_flatMap_range hbefore]
    exact h n (Nat.lt_succ_self n)

/-! ## Addresses that go round -/

/-- `bs` written from address `a` on, where the address behind `size - 1` is 0. -/
def storeRing (size : Nat) (m : Memory α) (a : Nat) (bs : List α) : Memory α :=
  fun x => if x < size then (bs[(x + size - a) % size]?).getD (m x) else m x

theorem storeRing_eq_store {size : Nat} (m : Memory α) {a : Nat} {bs : List α} (h : a + bs.length ≤ size) :
    m.storeRing size a bs = m.store a bs := by
  funext x
  unfold storeRing store
  rcases Nat.lt_or_ge x size with hx | hx
  · rw [if_pos hx]
    rcases Nat.lt_or_ge x a with hlow | hhigh
    · rw [if_neg (Nat.not_le.mpr hlow), Nat.mod_eq_of_lt (by omega), List.getElem?_eq_none (by omega)]
      rfl
    · rw [if_pos hhigh, show x + size - a = x - a + size by omega, Nat.add_mod_right, Nat.mod_eq_of_lt (by omega)]
  · rw [if_neg (Nat.not_lt.mpr hx), List.getElem?_eq_none (by omega)]
    split <;> rfl

theorem storeRing_append {size : Nat} (m : Memory α) {a : Nat} (ha : a < size) {bs cs : List α}
    (h : bs.length + cs.length ≤ size) :
    m.storeRing size a (bs ++ cs) = (m.storeRing size a bs).storeRing size ((a + bs.length) % size) cs := by
  funext x
  unfold storeRing
  rcases Nat.lt_or_ge x size with hx | hx
  · simp only [if_pos hx]
    have hround : ∀ n, n < 2 * size → n % size = if n < size then n else n - size := by
      intro n hn
      split
      · exact Nat.mod_eq_of_lt (by assumption)
      · rw [Nat.mod_eq_sub_mod (by omega), Nat.mod_eq_of_lt (by omega)]
    have hfar : (a + bs.length) % size < size := Nat.mod_lt _ (by omega)
    rw [hround (x + size - a) (by omega), hround (x + size - (a + bs.length) % size) (by omega)]
    rcases Nat.eq_or_lt_of_le (show a + bs.length ≤ a + size by omega) with hall | hmore
    · have hnone : cs = [] := List.length_eq_zero_iff.mp (by omega)
      subst hnone
      simp
    rw [hround (a + bs.length) (by omega)]
    rcases Nat.lt_or_ge (if x + size - a < size then x + size - a else x + size - a - size) bs.length with hin | hout
    · have hbehind : cs[if x + size - (if a + bs.length < size then a + bs.length else a + bs.length - size) < size then
            x + size - (if a + bs.length < size then a + bs.length else a + bs.length - size)
          else x + size - (if a + bs.length < size then a + bs.length else a + bs.length - size) - size]? = none := by
        apply List.getElem?_eq_none
        split_ifs at hin ⊢ <;> omega
      rw [List.getElem?_append_left hin, hbehind]
      rfl
    · rw [List.getElem?_append_right hout, List.getElem?_eq_none hout]
      congr 2
      split_ifs at hout ⊢ <;> omega
  · simp only [if_neg (Nat.not_lt.mpr hx)]

/-- What is written can be told from the memory afterwards. -/
theorem storeRing_inj [Nontrivial α] {size a : Nat} (ha : a < size) {bs cs : List α} (hbs : bs.length ≤ size)
    (hcs : cs.length ≤ size) (h : ∀ m : Memory α, m.storeRing size a bs = m.storeRing size a cs) : bs = cs := by
  obtain ⟨v, v', hne⟩ := exists_pair_ne α
  apply List.ext_getElem?
  intro i
  rcases Nat.lt_or_ge i size with hi | hi
  · have hback : ((a + i) % size + size - a) % size = i := by
      rcases Nat.lt_or_ge (a + i) size with hlow | hhigh
      · rw [Nat.mod_eq_of_lt hlow, show a + i + size - a = i + size by omega, Nat.add_mod_right, Nat.mod_eq_of_lt hi]
      · rw [Nat.mod_eq_sub_mod hhigh, Nat.mod_eq_of_lt (show a + i - size < size by omega),
          show a + i - size + size - a = i by omega, Nat.mod_eq_of_lt hi]
    have hcell : ∀ u : α, (bs[i]?).getD u = (cs[i]?).getD u := by
      intro u
      have hu := congrFun (h fun _ => u) ((a + i) % size)
      unfold storeRing at hu
      rwa [if_pos (Nat.mod_lt _ (by omega)), if_pos (Nat.mod_lt _ (by omega)), hback] at hu
    have h1 := hcell v
    have h2 := hcell v'
    rcases hb : bs[i]? with _ | b <;> rcases hc : cs[i]? with _ | c
    · rfl
    · rw [hb, hc] at h1 h2
      exact absurd (h1.trans h2.symm) hne
    · rw [hb, hc] at h1 h2
      exact absurd (h1.symm.trans h2) hne
    · rw [hb, hc] at h1
      exact congrArg some h1
  · rw [List.getElem?_eq_none (hbs.trans hi), List.getElem?_eq_none (hcs.trans hi)]

/-! ## Traces as one block -/

/-- The trace has the effect of one block, whatever was there before. -/
def Puts (size : Nat) (ws : List (Write α)) (a : Nat) (bs : List α) : Prop := ∀ m : Memory α, m.written ws = m.storeRing size a bs

theorem Puts.nil (size a : Nat) : Puts size ([] : List (Write α)) a [] := by
  intro m
  funext x
  simp [storeRing]

theorem Puts.single {size a : Nat} {bs : List α} (h : a + bs.length ≤ size) : Puts size [⟨a, bs⟩] a bs :=
  fun m => (m.storeRing_eq_store h).symm

theorem Puts.append {size a : Nat} {ws ws' : List (Write α)} {bs bs' : List α} (h : Puts size ws a bs)
    (h' : Puts size ws' ((a + bs.length) % size) bs') (ha : a < size) (hlen : bs.length + bs'.length ≤ size) :
    Puts size (ws ++ ws') a (bs ++ bs') := by
  intro m
  rw [written_append, h m, h' _, m.storeRing_append ha hlen]

/-- A trace is one block only. -/
theorem Puts.unique [Nontrivial α] {size a : Nat} {ws : List (Write α)} {bs cs : List α} (h : Puts size ws a bs) (ha : a < size)
    (hbs : bs.length ≤ size) (hcs : cs.length ≤ size) : Puts size ws a cs ↔ bs = cs := by
  constructor
  · intro h'
    exact storeRing_inj ha hbs hcs fun m => (h m).symm.trans (h' m)
  · rintro rfl
    exact h

end Memory

end Omiiba
