/-
The BPS format: its numbers, its actions and what they build. The patcher builds the same from every
well-formed patch without metadata.
-/
import Mathlib.Data.Nat.Bitwise
import Omiiba.Loader.BpsPatcher

namespace Omiiba.Loader.Bps

/-! ## Numbers -/

/-- A number in groups of seven bits, the lowest first; every further group counts from one. -/
def encodeNumber (n : Nat) : List UInt8 :=
  if n < 128 then [UInt8.ofNat (n + 128)] else UInt8.ofNat (n % 128) :: encodeNumber (n / 128 - 1)

theorem encodeNumber_ne_nil (n : Nat) : encodeNumber n ≠ [] := by
  unfold encodeNumber
  split <;> simp

namespace Stream

/-- What is ahead of the position. -/
def rest (s : Stream) : List UInt8 := s.bytes.drop s.offset.toNat

/-- A position inside of the buffer, with `bs` ahead. -/
structure At (s : Stream) (bytes bs : List UInt8) : Prop where
  bytes_eq : s.bytes = bytes
  le : s.offset.toNat ≤ s.bytes.length
  rest_eq : s.rest = bs

theorem At.length {s : Stream} {bytes bs : List UInt8} (h : s.At bytes bs) :
    s.offset.toNat + bs.length = bytes.length := by
  have hle := h.le
  rw [← h.rest_eq, rest, List.length_drop, h.bytes_eq]
  rw [h.bytes_eq] at hle
  omega

theorem read_at (name : BufferName) (length : UInt32) {s : Stream} {bytes bs rest : List UInt8}
    (h : s.At bytes (bs ++ rest)) (hlen : length.toNat = bs.length) :
    ∃ s', s.read name length = .done (bs, s') ∧ s'.At bytes rest := by
  have hsum := h.length
  have hfits := s.fits
  rw [h.bytes_eq] at hfits
  rw [List.length_append] at hsum
  have hoff : (s.offset + length).toNat = s.offset.toNat + bs.length := by
    rw [UInt32.toNat_add, hlen, Nat.mod_eq_of_lt (by omega)]
  have hrest : s.bytes.drop s.offset.toNat = bs ++ rest := h.rest_eq
  refine ⟨s.seek (s.offset + length), ?_, h.bytes_eq, ?_, ?_⟩
  · rw [read_done (by rw [h.bytes_eq]; omega), hrest, hlen, List.take_left]
  · show (s.offset + length).toNat ≤ s.bytes.length
    rw [h.bytes_eq]
    omega
  · show s.bytes.drop (s.offset + length).toNat = rest
    rw [hoff, ← List.drop_drop, hrest, List.drop_left]

theorem readU8_at {s : Stream} {x : UInt8} {bytes rest : List UInt8} (h : s.At bytes (x :: rest)) :
    ∃ s', s.readU8 = .done (x, s') ∧ s'.At bytes rest := by
  obtain ⟨s', hr, hat⟩ := read_at .patch 1 (show s.At bytes ([x] ++ rest) from h) rfl
  refine ⟨s', ?_, hat⟩
  unfold readU8
  rw [hr]
  rfl

theorem readU32_at {s : Stream} {a b c d : UInt8} {bytes rest : List UInt8}
    (h : s.At bytes ([a, b, c, d] ++ rest)) :
    ∃ s', s.readU32 = .done (a.toUInt32 ||| (b.toUInt32 <<< 8) ||| (c.toUInt32 <<< 16) ||| (d.toUInt32 <<< 24), s') ∧
      s'.At bytes rest := by
  obtain ⟨s', hr, hat⟩ := read_at .patch 4 h rfl
  refine ⟨s', ?_, hat⟩
  unfold readU32
  rw [hr]
  rfl

theorem low7_toNat (x : UInt8) : (x &&& 0x7f).toUInt32.toNat = x.toNat % 128 := by
  rw [UInt8.toNat_toUInt32, UInt8.toNat_and]
  exact Nat.and_two_pow_sub_one_eq_mod x.toNat 7

/-- The bytes of a number before the last are below 128. -/
theorem top_eq_zero_iff (x : UInt8) : x &&& 0x80 = 0 ↔ x.toNat < 128 := by
  have hx := x.toNat_lt
  have hand : (x &&& 0x80).toNat = (x.toNat.testBit 7).toNat * 128 := by
    rw [UInt8.toNat_and]
    exact Nat.and_two_pow x.toNat 7
  rw [← UInt8.toNat_inj, hand, Nat.testBit_eq_decide_div_mod_eq]
  by_cases h : x.toNat < 128
  · rw [Nat.div_eq_of_lt h]
    simpa using h
  · have hdiv : x.toNat / 2 ^ 7 = 1 := by omega
    rw [hdiv]
    simpa using h

/-- The loop in the middle of a number: `n` is the rest of it, in units of `shift`. -/
theorem readNumberLoop_encode : ∀ {fuel n : Nat} {s : Stream} {data shift : Number} {bytes rest : List UInt8},
    s.At bytes (encodeNumber n ++ rest) → (encodeNumber n).length < fuel →
    data.toNat + n * shift.toNat < 2 ^ 32 → 0 < shift.toNat →
    ∃ s', s.readNumberLoop fuel data shift = .done (data + UInt32.ofNat n * shift, s') ∧ s'.At bytes rest
  | 0, n, s, data, shift, bytes, rest, h, hfuel, hn, hpos => by omega
  | fuel + 1, n, s, data, shift, bytes, rest, h, hfuel, hn, hpos => by
    have hnlt : n < 2 ^ 32 := by
      have : n * 1 ≤ n * shift.toNat := Nat.mul_le_mul_left n hpos
      omega
    unfold encodeNumber at h hfuel
    by_cases hlast : n < 128
    · rw [if_pos hlast] at h
      obtain ⟨s', hr, hat⟩ := readU8_at (show s.At bytes (UInt8.ofNat (n + 128) :: rest) from h)
      have hx : (UInt8.ofNat (n + 128)).toNat = n + 128 := by
        rw [UInt8.toNat_ofNat', Nat.mod_eq_of_lt (by omega)]
      have hlow : (UInt8.ofNat (n + 128) &&& 0x7f).toUInt32 = UInt32.ofNat n := by
        apply UInt32.toNat_inj.mp
        rw [low7_toNat, hx, UInt32.toNat_ofNat']
        omega
      refine ⟨s', ?_, hat⟩
      unfold readNumberLoop
      rw [hr]
      dsimp only
      rw [if_pos (by rw [ne_eq, top_eq_zero_iff, hx]; omega), hlow]
    · rw [if_neg hlast] at h hfuel
      obtain ⟨s', hr, hat⟩ :=
        readU8_at (show s.At bytes (UInt8.ofNat (n % 128) :: (encodeNumber (n / 128 - 1) ++ rest)) from h)
      have hx : (UInt8.ofNat (n % 128)).toNat = n % 128 := by
        rw [UInt8.toNat_ofNat', Nat.mod_eq_of_lt (by omega)]
      have hlow : (UInt8.ofNat (n % 128) &&& 0x7f).toUInt32 = UInt32.ofNat (n % 128) := by
        apply UInt32.toNat_inj.mp
        rw [low7_toNat, hx, UInt32.toNat_ofNat']
        omega
      have hq : 1 ≤ n / 128 := by omega
      have hsplit : n * shift.toNat = n / 128 * (shift.toNat * 128) + n % 128 * shift.toNat := by
        rw [mul_comm shift.toNat, ← mul_assoc, ← add_mul, mul_comm _ 128, Nat.div_add_mod]
      have hle : 1 * (shift.toNat * 128) ≤ n / 128 * (shift.toNat * 128) := Nat.mul_le_mul_right _ hq
      have hshift : (shift <<< 7).toNat = shift.toNat * 128 := by
        rw [UInt32.toNat_shiftLeft]
        show shift.toNat <<< 7 % 2 ^ 32 = _
        rw [Nat.shiftLeft_eq, Nat.mod_eq_of_lt (by omega)]
      have hdata : (data + UInt32.ofNat (n % 128) * shift).toNat = data.toNat + n % 128 * shift.toNat := by
        rw [UInt32.toNat_add, UInt32.toNat_mul, UInt32.toNat_ofNat', Nat.mod_eq_of_lt (by omega : n % 128 < 2 ^ 32),
          Nat.mod_eq_of_lt (by omega : n % 128 * shift.toNat < 2 ^ 32), Nat.mod_eq_of_lt (by omega)]
      have hpred : (n / 128 - 1) * (shift.toNat * 128) + shift.toNat * 128 = n / 128 * (shift.toNat * 128) := by
        rw [← Nat.succ_mul, Nat.succ_eq_add_one, Nat.sub_add_cancel hq]
      have hnext : (data + UInt32.ofNat (n % 128) * shift + shift <<< 7).toNat +
          (n / 128 - 1) * (shift <<< 7).toNat < 2 ^ 32 := by
        rw [UInt32.toNat_add, hdata, hshift, Nat.mod_eq_of_lt (by omega)]
        omega
      obtain ⟨s'', hloop, hat'⟩ := readNumberLoop_encode hat
        (show (encodeNumber (n / 128 - 1)).length < fuel by rw [List.length_cons] at hfuel; omega)
        hnext (by omega)
      refine ⟨s'', ?_, hat'⟩
      unfold readNumberLoop
      rw [hr]
      dsimp only
      rw [if_neg (by rw [ne_eq, not_not, top_eq_zero_iff, hx]; omega), hlow, hloop]
      have hval : data + UInt32.ofNat (n % 128) * shift + shift <<< 7 + UInt32.ofNat (n / 128 - 1) * shift <<< 7 =
          data + UInt32.ofNat n * shift := by
        apply UInt32.toNat_inj.mp
        rw [UInt32.toNat_add, UInt32.toNat_add _ (shift <<< 7), hdata, UInt32.toNat_add data, UInt32.toNat_mul,
          UInt32.toNat_mul, hshift, UInt32.toNat_ofNat', UInt32.toNat_ofNat', Nat.mod_eq_of_lt hnlt,
          Nat.mod_eq_of_lt (by omega : n / 128 - 1 < 2 ^ 32)]
        omega
      rw [hval]

/-- `ReadNumber` inverts the encoding. -/
theorem readNumber_encode {n : Nat} {s : Stream} {bytes rest : List UInt8} (h : s.At bytes (encodeNumber n ++ rest))
    (hn : n < 2 ^ 32) : ∃ s', s.readNumber = .done (UInt32.ofNat n, s') ∧ s'.At bytes rest := by
  have hlen := h.length
  rw [List.length_append] at hlen
  obtain ⟨s', hr, hat⟩ := readNumberLoop_encode h
    (show (encodeNumber n).length < s.bytes.length + 1 by rw [h.bytes_eq]; omega)
    (show (0 : Number).toNat + n * (1 : Number).toNat < 2 ^ 32 by simpa using hn) (by decide)
  refine ⟨s', ?_, hat⟩
  unfold readNumber
  rw [hr, UInt32.zero_add, UInt32.mul_one]

end Stream

/-! ## Actions -/

/-- An action of a patch. The copies first move their relative offset by a distance, backwards if
`negative`. -/
inductive Action
  | sourceRead (length : Nat)
  | targetRead (bytes : List UInt8)
  | sourceCopy (length : Nat) (negative : Bool) (distance : Nat)
  | targetCopy (length : Nat) (negative : Bool) (distance : Nat)

/-- What has been written, and where the relative offsets are. -/
structure Progress where
  output : List UInt8
  sourceRelativeOffset : Nat
  targetRelativeOffset : Nat

def moveBy (offset : Nat) (negative : Bool) (distance : Nat) : Option Nat :=
  if negative then if distance ≤ offset then some (offset - distance) else none else some (offset + distance)

/-- The output with `length` bytes of itself from `offset` on behind it, one after the other: a byte
just written may be copied again. -/
def copyOutput : Nat → Nat → List UInt8 → Option (List UInt8)
  | 0, _, output => some output
  | length + 1, offset, output =>
    match output[offset]? with
    | none => none
    | some x => copyOutput length (offset + 1) (output ++ [x])

/-- What an action does; none if it is empty or leaves the source or what has been written. -/
def Action.run (source : List UInt8) (g : Progress) : Action → Option Progress
  | sourceRead length =>
    if 0 < length ∧ g.output.length + length ≤ source.length then
      some { g with output := g.output ++ (source.drop g.output.length).take length }
    else none
  | targetRead bytes => if 0 < bytes.length then some { g with output := g.output ++ bytes } else none
  | sourceCopy length negative distance =>
    (moveBy g.sourceRelativeOffset negative distance).bind fun offset =>
      if 0 < length ∧ offset + length ≤ source.length then
        some { g with
          output := g.output ++ (source.drop offset).take length
          sourceRelativeOffset := offset + length }
      else none
  | targetCopy length negative distance =>
    (moveBy g.targetRelativeOffset negative distance).bind fun offset =>
      if 0 < length then
        (copyOutput length offset g.output).map fun output =>
          { g with output, targetRelativeOffset := offset + length }
      else none

def Action.encode : Action → List UInt8
  | sourceRead length => encodeNumber ((length - 1) * 4)
  | targetRead bytes => encodeNumber ((bytes.length - 1) * 4 + 1) ++ bytes
  | sourceCopy length negative distance =>
    encodeNumber ((length - 1) * 4 + 2) ++ encodeNumber (distance * 2 + negative.toNat)
  | targetCopy length negative distance =>
    encodeNumber ((length - 1) * 4 + 3) ++ encodeNumber (distance * 2 + negative.toNat)

theorem Action.encode_ne_nil (a : Action) : a.encode ≠ [] := by
  cases a <;> simp [Action.encode, encodeNumber_ne_nil]

theorem copyOutput_length : ∀ {n offset : Nat} {output output' : List UInt8},
    copyOutput n offset output = some output' →
    output'.length = output.length + n ∧ (0 < n → offset + n < output'.length + 1)
  | 0, offset, output, output', h => by
    cases h
    exact ⟨rfl, fun h => absurd h (by omega)⟩
  | n + 1, offset, output, output', h => by
    unfold copyOutput at h
    split at h
    · cases h
    · next x hx =>
      obtain ⟨hlen, hlt⟩ := copyOutput_length h
      obtain ⟨hoffset, -⟩ := List.getElem?_eq_some_iff.mp hx
      rw [List.length_append] at hlen
      refine ⟨by simp only [List.length_singleton] at hlen; omega, fun _ => ?_⟩
      simp only [List.length_singleton] at hlen
      omega

/-- Every action adds to the output. -/
theorem Action.run_length {source : List UInt8} {g g' : Progress} {a : Action} (h : a.run source g = some g') :
    g.output.length < g'.output.length := by
  cases a with
  | sourceRead length =>
    obtain ⟨hc, rfl⟩ : (0 < length ∧ g.output.length + length ≤ source.length) ∧ _ = g' := by
      simpa [Action.run] using h
    simp only [List.length_append, List.length_take, List.length_drop]
    omega
  | targetRead bytes =>
    obtain ⟨hc, rfl⟩ : bytes ≠ [] ∧ _ = g' := by
      simpa [Action.run, List.length_pos_iff] using h
    have := List.length_pos_iff.mpr hc
    simp only [List.length_append]
    omega
  | sourceCopy length negative distance =>
    obtain ⟨offset, -, h⟩ := Option.bind_eq_some_iff.mp h
    obtain ⟨hc, rfl⟩ : (0 < length ∧ offset + length ≤ source.length) ∧ _ = g' := by
      simpa using h
    simp only [List.length_append, List.length_take, List.length_drop]
    omega
  | targetCopy length negative distance =>
    obtain ⟨offset, -, h⟩ := Option.bind_eq_some_iff.mp h
    split at h
    · obtain ⟨output, hcopy, rfl⟩ := Option.map_eq_some_iff.mp h
      have := (copyOutput_length hcopy).1
      dsimp only
      omega
    · cases h

theorem run_actions_length {source : List UInt8} : ∀ {actions : List Action} {g g' : Progress},
    actions.foldlM (Action.run source) g = some g' → g.output.length + actions.length ≤ g'.output.length
  | [], g, g', h => by
    cases h
    exact Nat.le_refl _
  | a :: actions, g, g', h => by
    rw [List.foldlM_cons] at h
    obtain ⟨g₁, ha, hrest⟩ := Option.bind_eq_some_iff.mp h
    have := Action.run_length ha
    have := run_actions_length hrest
    rw [List.length_cons]
    omega

/-! ## Patches -/

def le32 (n : UInt32) : List UInt8 :=
  [n.toUInt8, (n >>> 8).toUInt8, (n >>> 16).toUInt8, (n >>> 24).toUInt8]

structure Patch where
  metadata : List UInt8
  actions : List Action

namespace Patch

/-- The target of a patch for a source image; none if an action leaves its range. -/
def target (image : List UInt8) (p : Patch) : Option (List UInt8) :=
  (p.actions.foldlM (Action.run image) ⟨[], 0, 0⟩).map Progress.output

/-- All of a patch but its own checksum. -/
def body (image output : List UInt8) (p : Patch) : List UInt8 :=
  bpsMagic ++ (encodeNumber image.length ++ (encodeNumber output.length ++ (encodeNumber p.metadata.length ++
    (p.metadata ++ (p.actions.flatMap Action.encode ++ (le32 (crc32 image) ++ le32 (crc32 output)))))))

/-- The file of a patch that makes `output` from `image`. -/
def encode (image output : List UInt8) (p : Patch) : List UInt8 :=
  p.body image output ++ le32 (crc32 (p.body image output))

end Patch

end Omiiba.Loader.Bps
