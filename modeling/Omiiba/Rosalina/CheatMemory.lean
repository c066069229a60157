/-
The codes FC and FE on memory that can be accessed: a copy of bytes from the second offset to the first
one, and the search for a pattern from the active offset on.
-/
import Omiiba.Rosalina.CheatOperands

namespace Omiiba.Rosalina

/-! ## Memory -/

/-- Bytes of the game that can be read: `mem` gives the memory of the game as it is in the world. -/
structure Readable {ω : Type} (m : Machine ω) (mem : ω → UInt32 → UInt8) (region : UInt32 → Prop) : Prop where
  query : ∀ w a, mem (m.query w a).2 = mem w
  valid : ∀ w a, region a → ∃ info, (m.query w a).1 = some info ∧ info.free = false ∧
    (info.base_addr > 0 ∧ info.base_addr ≤ a ∧ a ≤ info.base_addr + info.size - 1)
  read : ∀ w a, region a → (m.read w a 1).1 = some (mem w a).toUInt32 ∧ mem (m.read w a 1).2 = mem w

/-- Bytes of the game that can be read and written. -/
structure Writable {ω : Type} (m : Machine ω) (mem : ω → UInt32 → UInt8) (region : UInt32 → Prop) : Prop
    extends Readable m mem region where
  write : ∀ w a value, region a → (m.write w a 1 value).1 = true ∧
    mem (m.write w a 1 value).2 = Function.update (mem w) a value.toUInt8

section

variable {ω : Type} {m : Machine ω} {mem : ω → UInt32 → UInt8} {region : UInt32 → Prop} {codes : List UInt64}
  {vm vm' vm₁ vm₂ : Vm ω}

/-- The byte at an address: of `cheatPage`, or of the game. -/
def Vm.byte (mem : ω → UInt32 → UInt8) (vm : Vm ω) (a : UInt32) : UInt8 :=
  if inPage a 1 then vm.cheatPage (a - 0x01E81000).toNat else mem vm.world a

/-- All but the record of uses is as before. -/
structure SameGame (mem : ω → UInt32 → UInt8) (vm vm' : Vm ω) : Prop where
  state : vm'.state = vm.state
  cheat : vm'.cheat = vm.cheat
  rng : vm'.cheatRngState = vm.cheatRngState
  bytes : vm'.byte mem = vm.byte mem

theorem SameGame.refl (vm : Vm ω) : SameGame mem vm vm := ⟨rfl, rfl, rfl, rfl⟩

theorem SameGame.trans (h : SameGame mem vm vm₁) (h' : SameGame mem vm₁ vm₂) : SameGame mem vm vm₂ :=
  ⟨h'.state.trans h.state, h'.cheat.trans h.cheat, h'.rng.trans h.rng, h'.bytes.trans h.bytes⟩

theorem byte_congr {vm vm' : Vm ω} (hpage : vm'.cheatPage = vm.cheatPage) (hmem : mem vm'.world = mem vm.world) :
    vm'.byte mem = vm.byte mem := by
  unfold Vm.byte
  rw [hpage, hmem]

theorem isValidAddress_runs (vm : Vm ω) (hm : Readable m mem region) {a : UInt32} (ha : region a) :
    ∃ vm', Runs (isValidAddress m a 1) vm true vm' ∧ SameGame mem vm vm' ∧ vm'.cheatPage = vm.cheatPage := by
  obtain ⟨info, hquery, hfree, hrange⟩ := hm.valid vm.world a ha
  refine ⟨{ vm with world := (m.query vm.world a).2 }, ?_, ⟨rfl, rfl, rfl, byte_congr rfl (hm.query _ _)⟩, rfl⟩
  have hask : Runs (ask fun w => m.query w a) vm (some info) { vm with world := (m.query vm.world a).2 } := by
    rw [← hquery]
    rfl
  refine hask.bind (runs_pure_iff.mpr ⟨?_, rfl⟩)
  simp [hfree, hrange]

theorem readMemory_runs (vm : Vm ω) (hm : Readable m mem region) {offset : UInt32} (ha : region (vm.state.offset + offset)) :
    ∃ vm', Runs (readMemory m 1 offset) vm (vm.byte mem (vm.state.offset + offset)).toUInt32 vm' ∧ SameGame mem vm vm' := by
  unfold readMemory Vm.byte
  rw [show UInt32.ofNat 1 = 1 from rfl]
  by_cases hpage : inPage (vm.state.offset + offset) 1 = true
  · refine ⟨vm, Runs.bind (runs_get_iff.mpr ⟨rfl, rfl⟩) ?_, SameGame.refl vm⟩
    rw [if_pos hpage, if_pos hpage]
    refine runs_pure_iff.mpr ⟨?_, rfl⟩
    simp [pageLoad]
  · obtain ⟨vm₁, hvalid, hsame, hcheatPage⟩ := isValidAddress_runs vm hm ha
    obtain ⟨hread, hmem⟩ := hm.read vm₁.world _ ha
    have hworld : mem vm₁.world (vm.state.offset + offset) = mem vm.world (vm.state.offset + offset) := by
      have hbyte := congrFun hsame.bytes (vm.state.offset + offset)
      unfold Vm.byte at hbyte
      rwa [if_neg hpage, if_neg hpage] at hbyte
    have hask : Runs (ask fun w => m.read w (vm.state.offset + offset) 1) vm₁
        (some (mem vm.world (vm.state.offset + offset)).toUInt32)
        { vm₁ with world := (m.read vm₁.world (vm.state.offset + offset) 1).2 } := by
      rw [← hworld, ← hread]
      rfl
    refine ⟨{ vm₁ with world := (m.read vm₁.world (vm.state.offset + offset) 1).2 },
      Runs.bind (runs_get_iff.mpr ⟨rfl, rfl⟩) ?_, hsame.trans ⟨rfl, rfl, rfl, byte_congr rfl hmem⟩⟩
    rw [if_neg hpage, if_neg hpage]
    refine hvalid.bind ?_
    rw [if_pos rfl]
    exact hask.bind (runs_pure_iff.mpr ⟨rfl, rfl⟩)

/-- A byte that is read. -/
theorem read8_runs (vm : Vm ω) (hm : Readable m mem region) {offset : UInt32} (ha : region (vm.state.offset + offset)) :
    ∃ vm', Runs (read8 m offset) vm (vm.byte mem (vm.state.offset + offset)) vm' ∧ SameGame mem vm vm' := by
  obtain ⟨vm', hread, hsame⟩ := readMemory_runs vm hm ha
  exact ⟨vm', hread.bind (runs_pure_iff.mpr ⟨UInt8.toUInt8_toUInt32 _, rfl⟩), hsame⟩

/-- A byte that is written: all else is as before. -/
structure Written (mem : ω → UInt32 → UInt8) (a : UInt32) (value : UInt8) (vm vm' : Vm ω) : Prop where
  state : vm'.state = vm.state
  cheat : vm'.cheat = vm.cheat
  rng : vm'.cheatRngState = vm.cheatRngState
  bytes : vm'.byte mem = Function.update (vm.byte mem) a value

/-- The byte of `cheatPage` at another address is another byte. -/
theorem store_page (page : Memory UInt8) (a : UInt32) (value : UInt8) (x : UInt32) :
    (page.store (a - 0x01E81000).toNat [value]) (x - 0x01E81000).toNat =
      if x = a then value else page (x - 0x01E81000).toNat := by
  by_cases hx : x = a
  · subst hx
    rw [Memory.store_inside _ le_rfl (by simp), if_pos rfl]
    simp
  · have hne : (x - 0x01E81000).toNat ≠ (a - 0x01E81000).toNat := by
      intro heq
      exact hx ((UInt32.sub_left_inj _).mp (UInt32.toNat_inj.mp heq))
    rw [Memory.store_outside _ (by simp only [List.length_singleton]; omega), if_neg hx]

theorem write8_runs (vm : Vm ω) (hm : Writable m mem region) {offset : UInt32} (ha : region (vm.state.offset + offset)) (value : UInt8) :
    ∃ vm', Runs (write8 m offset value) vm () vm' ∧ Written mem (vm.state.offset + offset) value vm vm' := by
  unfold write8 writeMemory
  rw [show UInt32.ofNat 1 = 1 from rfl]
  by_cases hpage : inPage (vm.state.offset + offset) 1 = true
  · refine ⟨{ vm with cheatPage := vm.cheatPage.store (vm.state.offset + offset - 0x01E81000).toNat [value] },
      Runs.bind (runs_get_iff.mpr ⟨rfl, rfl⟩) ?_, rfl, rfl, rfl, ?_⟩
    · rw [if_pos hpage]
      exact runs_modify_iff.mpr (by simp [pageBytes])
    · funext x
      unfold Vm.byte
      rw [Function.update_apply]
      dsimp only
      rw [store_page vm.cheatPage]
      by_cases hx : x = vm.state.offset + offset
      · rw [hx, if_pos hpage]
        simp
      · simp [hx]
  · obtain ⟨vm₁, hvalid, hsame, hcheatPage⟩ := isValidAddress_runs vm hm.toReadable ha
    obtain ⟨hwrite, hmem⟩ := hm.write vm₁.world _ value.toUInt32 ha
    have hask : Runs (ask fun w => m.write w (vm.state.offset + offset) 1 value.toUInt32) vm₁ true
        { vm₁ with world := (m.write vm₁.world (vm.state.offset + offset) 1 value.toUInt32).2 } := by
      rw [← hwrite]
      rfl
    refine ⟨{ vm₁ with world := (m.write vm₁.world (vm.state.offset + offset) 1 value.toUInt32).2 },
      Runs.bind (runs_get_iff.mpr ⟨rfl, rfl⟩) ?_, hsame.state, hsame.cheat, hsame.rng, ?_⟩
    · rw [if_neg hpage]
      refine hvalid.bind ?_
      rw [if_pos rfl]
      refine hask.bind ?_
      rw [if_pos rfl]
      exact runs_pure_iff.mpr ⟨rfl, rfl⟩
    · rw [← hsame.bytes]
      funext x
      unfold Vm.byte
      rw [hmem, UInt8.toUInt8_toUInt32, Function.update_apply, Function.update_apply]
      by_cases hx : x = vm.state.offset + offset
      · rw [hx, if_neg hpage]
        simp
      · simp [hx]

/-! ## The copy -/

/-- What a copy of the byte at the second offset to the first one leaves, any number of times. -/
structure ByteCopied (mem : ω → UInt32 → UInt8) (vm vm' : Vm ω) : Prop where
  state : vm'.state = { vm.state with activeOffset := false }
  cheat : vm'.cheat = vm.cheat
  rng : vm'.cheatRngState = vm.cheatRngState
  bytes : vm'.byte mem = Function.update (vm.byte mem) vm.state.offset1 (vm.byte mem vm.state.offset2)

/-- One turn of the loop of FC. -/
theorem copyByte_runs (hm : Writable m mem region) (h1 : region vm.state.offset1) (h2 : region vm.state.offset2) :
    ∃ vm₁, ByteCopied mem vm vm₁ ∧
      ∀ n vm₂, Runs (typeFCLoop m n) vm₁ () vm₂ → Runs (typeFCLoop m (n + 1)) vm () vm₂ := by
  let second : Vm ω := { vm with state := { vm.state with activeOffset := true } }
  have haddr2 : second.state.offset + 0 = vm.state.offset2 := UInt32.add_zero _
  obtain ⟨vm₃, hread, hsame⟩ := read8_runs second hm.toReadable (haddr2.symm ▸ h2)
  let first : Vm ω := { vm₃ with state := { vm₃.state with activeOffset := false } }
  have hfirst : first.state = { vm.state with activeOffset := false } := by
    show { vm₃.state with activeOffset := false } = _
    rw [hsame.state]
  have haddr1 : first.state.offset + 0 = vm.state.offset1 := by
    rw [hfirst]
    exact UInt32.add_zero _
  obtain ⟨vm₁, hwrite, hwritten⟩ := write8_runs first hm (haddr1.symm ▸ h1) (second.byte mem (second.state.offset + 0))
  refine ⟨vm₁, ⟨hwritten.state.trans hfirst, hwritten.cheat.trans hsame.cheat, hwritten.rng.trans hsame.rng, ?_⟩, ?_⟩
  · rw [hwritten.bytes, haddr1, haddr2]
    show Function.update (vm₃.byte mem) _ _ = _
    rw [hsame.bytes]
    rfl
  · intro n vm₂ hrest
    have hset2 : Runs (modifyState fun s => { s with activeOffset := true }) vm () second := runs_modify_iff.mpr rfl
    have hset1 : Runs (modifyState fun s => { s with activeOffset := false }) vm₃ () first := runs_modify_iff.mpr rfl
    exact hset2.bind (hread.bind (hset1.bind (hwrite.bind hrest)))

/-- The loop of FC does not advance: after any number of turns, one byte is copied. -/
theorem typeFCLoop_runs (hm : Writable m mem region) : ∀ (n : Nat) (vm : Vm ω), region vm.state.offset1 →
    region vm.state.offset2 → ∃ vm', Runs (typeFCLoop m (n + 1)) vm () vm' ∧ ByteCopied mem vm vm'
  | 0, vm, h1, h2 => by
    obtain ⟨vm₁, hcopied, hruns⟩ := copyByte_runs hm h1 h2
    exact ⟨vm₁, hruns 0 vm₁ (runs_pure_iff.mpr ⟨rfl, rfl⟩), hcopied⟩
  | n + 1, vm, h1, h2 => by
    obtain ⟨vm₁, hcopied, hruns⟩ := copyByte_runs hm h1 h2
    have hoffsets : vm₁.state.offset1 = vm.state.offset1 ∧ vm₁.state.offset2 = vm.state.offset2 := by
      rw [hcopied.state]
      exact ⟨rfl, rfl⟩
    obtain ⟨vm₂, hrest, hagain⟩ := typeFCLoop_runs hm n vm₁ (hoffsets.1 ▸ h1) (hoffsets.2 ▸ h2)
    refine ⟨vm₂, hruns (n + 1) vm₂ hrest, ?_, hagain.cheat.trans hcopied.cheat, hagain.rng.trans hcopied.rng, ?_⟩
    · rw [hagain.state, hcopied.state]
    · -- the byte that is copied again is still the same
      rw [hagain.bytes, hcopied.bytes, hoffsets.1, hoffsets.2, Function.update_idem]
      congr 1
      rw [Function.update_apply]
      split
      · rfl
      · rfl

/-- What FC is to do with `n` bytes, which begin at the offsets; the interpreter goes on to the next line. -/
structure Copied (mem : ω → UInt32 → UInt8) (n : Nat) (vm vm' : Vm ω) : Prop where
  state : vm'.state = { vm.state with index := vm.state.index + 1 }
  cheat : vm'.cheat = vm.cheat
  rng : vm'.cheatRngState = vm.cheatRngState
  bytes : vm'.byte mem = copyInOrder (fun i => vm.state.offset1 + UInt32.ofNat i)
    (fun i => vm.state.offset2 + UInt32.ofNat i) n (vm.byte mem)

theorem ByteCopied.restore (h : ByteCopied mem vm vm') :
    { vm'.state with activeOffset := vm.state.activeOffset } = vm.state := by
  rw [h.state]

/-- What FC does: nothing if it has no bytes to copy, and else the copy of one byte. -/
theorem typeFC_runs (vm : Vm ω) (hm : Writable m mem region) {arg1 : UInt32} (h1 : 0 < arg1.toNat → region vm.state.offset1)
    (h2 : 0 < arg1.toNat → region vm.state.offset2) : ∃ vm', Runs (typeFC m arg1) vm () vm' ∧
      vm'.state = vm.state ∧ vm'.cheat = vm.cheat ∧ vm'.cheatRngState = vm.cheatRngState ∧
      vm'.byte mem = if arg1.toNat = 0 then vm.byte mem
        else Function.update (vm.byte mem) vm.state.offset1 (vm.byte mem vm.state.offset2) := by
  have hloop : ∃ vm₁, Runs (typeFCLoop m arg1.toNat) vm () vm₁ ∧
      { vm₁.state with activeOffset := vm.state.activeOffset } = vm.state ∧ vm₁.cheat = vm.cheat ∧
      vm₁.cheatRngState = vm.cheatRngState ∧ vm₁.byte mem = if arg1.toNat = 0 then vm.byte mem
        else Function.update (vm.byte mem) vm.state.offset1 (vm.byte mem vm.state.offset2) := by
    cases hn : arg1.toNat with
    | zero => exact ⟨vm, runs_pure_iff.mpr ⟨rfl, rfl⟩, rfl, rfl, rfl, rfl⟩
    | succ n =>
      obtain ⟨vm₁, hrun, hcopied⟩ := typeFCLoop_runs hm n vm (h1 (by omega)) (h2 (by omega))
      exact ⟨vm₁, hrun, hcopied.restore, hcopied.cheat, hcopied.rng, hcopied.bytes⟩
  obtain ⟨vm₁, hrun, hstate, hcheat, hrng, hbytes⟩ := hloop
  exact ⟨{ vm₁ with state := { vm₁.state with activeOffset := vm.state.activeOffset } },
    Runs.bind (runs_get_iff.mpr ⟨rfl, rfl⟩) (hrun.bind (runs_modify_iff.mpr rfl)), hstate, hcheat, hrng, hbytes⟩

theorem typeF_copy {arg0 arg1 subcode : UInt32} (hne : arg0 ≠ 0xF0F00000) (h : subcode.toNat = 0xC) :
    typeF m codes false subcode arg0 arg1 = typeFC m arg1 := by
  unfold typeF
  rw [if_neg hne, h]
  rfl

theorem add_ofNat_ne {a : UInt32} {i j : Nat} (hij : i < j) (hj : j < 2 ^ 32) :
    a + UInt32.ofNat i ≠ a + UInt32.ofNat j := by
  intro heq
  have hsame := congrArg UInt32.toNat ((UInt32.add_right_inj a).mp heq)
  rw [UInt32.toNat_ofNat', UInt32.toNat_ofNat'] at hsame
  omega

/-- The copy of the first byte alone is the copy of all of them, if the others agree already. -/
theorem firstByte_iff (b : UInt32 → UInt8) (a1 a2 : UInt32) {n : Nat} (hn : n < 2 ^ 32) :
    (if n = 0 then b else Function.update b a1 (b a2)) =
        copyInOrder (fun i => a1 + UInt32.ofNat i) (fun i => a2 + UInt32.ofNat i) n b ↔
      ∀ i, 0 < i → i < n → Function.update b a1 (b a2) (a1 + UInt32.ofNat i) =
        Function.update b a1 (b a2) (a2 + UInt32.ofNat i) := by
  cases n with
  | zero => simp [copyInOrder]
  | succ n =>
    have hfirst : ∀ a : UInt32, a + UInt32.ofNat 0 = a := UInt32.add_zero
    rw [if_neg (Nat.succ_ne_zero n), copyInOrder_succ', hfirst a1, hfirst a2, eq_comm,
      copyInOrder_eq_self_iff fun i j hij hj => add_ofNat_ne (Nat.succ_lt_succ hij) (by omega)]
    constructor
    · intro h i hpos hi
      obtain ⟨i, rfl⟩ := Nat.exists_eq_succ_of_ne_zero (Nat.ne_of_gt hpos)
      exact h i (by omega)
    · intro h i hi
      exact h (i + 1) (by omega) (by omega)

/-- An executed FC: of its bytes, the first one is copied. -/
theorem copy_runs (codes : List UInt64) (vm : Vm ω) (hm : Writable m mem region) (hindex : vm.state.index.toNat < codes.length)
    (htype : typeOf (codeOf codes vm.state) = 0xF) (hsub : (subcodeOf (codeOf codes vm.state)).toNat = 0xC)
    (hskip : skips vm = false)
    (hregion : 0 < (codeOf codes vm.state).toUInt32.toNat → region vm.state.offset1 ∧ region vm.state.offset2) :
    ∃ vm', Runs (step m codes) vm () vm' ∧ vm'.state = { vm.state with index := vm.state.index + 1 } ∧
      vm'.cheat = vm.cheat ∧ vm'.cheatRngState = vm.cheatRngState ∧
      vm'.byte mem = if (codeOf codes vm.state).toUInt32.toNat = 0 then vm.byte mem
        else Function.update (vm.byte mem) vm.state.offset1 (vm.byte mem vm.state.offset2) := by
  have hexecute : execute m codes (skips vm) (codeOf codes vm.state >>> 32).toUInt32 (codeOf codes vm.state).toUInt32 =
      typeFC m (codeOf codes vm.state).toUInt32 := by
    rw [hskip, execute_typeF htype]
    exact typeF_copy (typeF_of_subcode (show (subcodeOf (codeOf codes vm.state)).toNat ≠ 0 by omega)) hsub
  obtain ⟨vm₁, hrun, hstate, hcheat, hrng, hbytes⟩ := typeFC_runs (fetched vm) hm
    (fun hpos => (hregion hpos).1) (fun hpos => (hregion hpos).2)
  rw [← hexecute] at hrun
  refine ⟨_, line_runs hindex (by omega) hrun, ?_, hcheat, hrng, hbytes⟩
  show { vm₁.state with index := vm₁.state.index + 1 } = _
  rw [hstate]
  rfl

/-- An executed FC copies its bytes exactly if, once the first one is copied, the others are at the
first offset already. -/
theorem copied_iff (hm : Writable m mem region) (hindex : vm.state.index.toNat < codes.length)
    (htype : typeOf (codeOf codes vm.state) = 0xF) (hsub : (subcodeOf (codeOf codes vm.state)).toNat = 0xC)
    (hskip : skips vm = false)
    (hregion : ∀ i < (codeOf codes vm.state).toUInt32.toNat,
      region (vm.state.offset1 + UInt32.ofNat i) ∧ region (vm.state.offset2 + UInt32.ofNat i)) :
    (∃ vm', Runs (step m codes) vm () vm' ∧ Copied mem (codeOf codes vm.state).toUInt32.toNat vm vm') ↔
      ∀ i, 0 < i → i < (codeOf codes vm.state).toUInt32.toNat →
        Function.update (vm.byte mem) vm.state.offset1 (vm.byte mem vm.state.offset2) (vm.state.offset1 + UInt32.ofNat i) =
          Function.update (vm.byte mem) vm.state.offset1 (vm.byte mem vm.state.offset2)
            (vm.state.offset2 + UInt32.ofNat i) := by
  have hfirst : ∀ a : UInt32, a + UInt32.ofNat 0 = a := UInt32.add_zero
  obtain ⟨vm₁, hrun, hstate, hcheat, hrng, hbytes⟩ := copy_runs codes vm hm hindex htype hsub hskip fun hpos =>
    ⟨hfirst vm.state.offset1 ▸ (hregion 0 hpos).1, hfirst vm.state.offset2 ▸ (hregion 0 hpos).2⟩
  rw [← firstByte_iff _ _ _ (UInt32.toNat_lt _)]
  constructor
  · rintro ⟨vm', hrun', hcopied⟩
    obtain ⟨-, rfl⟩ := hrun'.unique hrun
    rw [← hcopied.bytes]
    exact hbytes.symm
  · intro heq
    exact ⟨vm₁, hrun, hstate, hcheat, hrng, hbytes.trans heq⟩

/-! ## The search -/

/-- A byte of a pattern that is in the code words from `base` on. -/
def patternByte (codes : List UInt64) (base j : Nat) : UInt8 :=
  (((codes[base + j / 8]?).getD 0) >>> UInt64.ofNat (8 * (j % 8))).toUInt8

/-- The `size` bytes of the pattern behind the line at hand are in memory, `p` bytes behind the active offset. -/
def OccursAt (mem : ω → UInt32 → UInt8) (codes : List UInt64) (vm : Vm ω) (size p : Nat) : Prop :=
  ∀ j < size, vm.byte mem (vm.state.offset + UInt32.ofNat (p + j)) = patternByte codes (vm.state.index.toNat + 1) j

theorem codeAt_sameGame {i : Nat} (hi : i < codes.length) (vm : Vm ω) :
    ∃ vm', Runs (codeAt m codes i) vm ((codes[i]?).getD 0) vm' ∧ SameGame mem vm vm' := by
  refine ⟨{ vm with uses := .code i :: vm.uses }, ?_, ⟨rfl, rfl, rfl, rfl⟩⟩
  refine Runs.bind (a := ()) (runs_modify_iff.mpr rfl) (runs_pure_iff.mpr ⟨?_, rfl⟩)
  rw [List.getElem?_eq_getElem hi]
  rfl

/-- The bytes at a place are compared until one differs. -/
theorem differs_runs (hm : Readable m mem region) (base p : Nat) : ∀ (left j : Nat) (vm : Vm ω),
    (∀ k, j ≤ k → k < j + left → base + k / 8 < codes.length ∧ region (vm.state.offset + UInt32.ofNat (p + k))) →
    ∃ b vm', Runs (differs m codes base (UInt32.ofNat p) left j) vm b vm' ∧ SameGame mem vm vm' ∧
      (b = false ↔ ∀ k, j ≤ k → k < j + left →
        vm.byte mem (vm.state.offset + UInt32.ofNat (p + k)) = patternByte codes base k)
  | 0, j, vm, _ => by
    refine ⟨false, vm, runs_pure_iff.mpr ⟨rfl, rfl⟩, SameGame.refl vm, ?_⟩
    simp only [true_iff]
    intro k hle hlt
    omega
  | left + 1, j, vm, hfit => by
    obtain ⟨hcode, hregion⟩ := hfit j le_rfl (by omega)
    have haddr : UInt32.ofNat (p + j) = UInt32.ofNat p + UInt32.ofNat j := UInt32.ofNat_add p j
    obtain ⟨vm₁, hread, hsame₁⟩ := read8_runs vm hm (haddr ▸ hregion)
    obtain ⟨vm₂, hfetch, hsame₂⟩ := codeAt_sameGame hcode vm₁
    have hsame := hsame₁.trans hsame₂
    unfold differs
    by_cases hbyte : vm.byte mem (vm.state.offset + UInt32.ofNat (p + j)) = patternByte codes base j
    · obtain ⟨b, vm₃, hrest, hsame₃, hiff⟩ := differs_runs hm base p left (j + 1) vm₂ fun k hle hlt => by
        rw [hsame.state]
        exact hfit k (by omega) (by omega)
      refine ⟨b, vm₃, hread.bind (hfetch.bind ?_), hsame.trans hsame₃, ?_⟩
      · rw [if_neg]
        · exact hrest
        · rw [not_not, ← haddr]
          exact hbyte
      · rw [hiff, hsame.bytes, hsame.state]
        constructor
        · intro h k hle hlt
          rcases hle.eq_or_lt with rfl | hlt'
          · exact hbyte
          · exact h k hlt' (by omega)
        · intro h k hle hlt
          exact h k (by omega) (by omega)
    · refine ⟨true, vm₂, hread.bind (hfetch.bind ?_), hsame, ?_⟩
      · rw [if_pos]
        · exact runs_pure_iff.mpr ⟨rfl, rfl⟩
        · rw [← haddr]
          exact hbyte
      · simp only [Bool.true_eq_false, false_iff]
        intro h
        exact hbyte (h j le_rfl (by omega))

/-- The search goes over the places until the pattern is found at one. -/
theorem searchLoop_runs (hm : Readable m mem region) (codes : List UInt64) (base size : Nat) : ∀ (left p : Nat) (vm : Vm ω),
    (∀ j < size, base + j / 8 < codes.length) →
    (∀ q, p ≤ q → q < p + left → ∀ j < size, region (vm.state.offset + UInt32.ofNat (q + j))) →
    ∃ b vm', Runs (searchLoop m codes base size left (UInt32.ofNat p) true) vm b vm' ∧ SameGame mem vm vm' ∧
      (b = false ↔ ∃ q, p ≤ q ∧ q < p + left ∧
        ∀ j < size, vm.byte mem (vm.state.offset + UInt32.ofNat (q + j)) = patternByte codes base j)
  | 0, p, vm, _, _ => by
    refine ⟨true, vm, runs_pure_iff.mpr ⟨rfl, rfl⟩, SameGame.refl vm, ?_⟩
    simp only [Bool.true_eq_false, false_iff]
    rintro ⟨q, hle, hlt, -⟩
    omega
  | left + 1, p, vm, hcode, hregion => by
    obtain ⟨b, vm₁, hrun, hsame, hiff⟩ := differs_runs hm base p size 0 vm fun k _ hlt =>
      ⟨hcode k (by omega), hregion p le_rfl (by omega) k (by omega)⟩
    unfold searchLoop
    cases b with
    | false =>
      refine ⟨false, vm₁, hrun.bind (runs_pure_iff.mpr ⟨rfl, rfl⟩), hsame, ?_⟩
      simp only [true_iff]
      exact ⟨p, le_rfl, by omega, fun j hj => hiff.mp rfl j (Nat.zero_le j) (by omega)⟩
    | true =>
      obtain ⟨b, vm₂, hrest, hsame₂, hiff₂⟩ := searchLoop_runs hm codes base size left (p + 1) vm₁ hcode fun q hle hlt j hj => by
        rw [hsame.state]
        exact hregion q (by omega) (by omega) j hj
      have hnext : UInt32.ofNat (p + 1) = UInt32.ofNat p + 1 := UInt32.ofNat_add p 1
      rw [hnext] at hrest
      refine ⟨b, vm₂, hrun.bind hrest, hsame.trans hsame₂, ?_⟩
      rw [hiff₂, hsame.bytes, hsame.state]
      constructor
      · rintro ⟨q, hle, hlt, hocc⟩
        exact ⟨q, by omega, by omega, hocc⟩
      · rintro ⟨q, hle, hlt, hocc⟩
        rcases hle.eq_or_lt with rfl | hlt'
        · exact absurd (hiff.mpr fun j _ hj => hocc j (by omega)) (by decide)
        · exact ⟨q, hlt', by omega, hocc⟩

/-- The bytes of the pattern of an FE. -/
def searchSize (code : UInt64) : Nat := ((code >>> 32).toUInt32 &&& 0xFFFF).toNat

theorem searchSize_le (code : UInt64) : searchSize code ≤ 0xFFFF := by
  unfold searchSize
  rw [UInt32.toNat_and]
  exact Nat.and_le_right

/-- The check of FE: the pattern is not longer than the window, and its bytes are compared with the code
words behind the line. -/
theorem fits_iff (vm : Vm ω) (hlen : codes.length < 2 ^ 29) (hindex : vm.state.index.toNat < codes.length) (arg0 arg1 : UInt32) :
    (arg0 &&& 0xFFFF ≤ arg1 ∧ (arg0 &&& 0xFFFF) + vm.state.index < UInt32.ofNat codes.length) ↔
      (arg0 &&& 0xFFFF).toNat ≤ arg1.toNat ∧ (arg0 &&& 0xFFFF).toNat + vm.state.index.toNat < codes.length := by
  have hsize : (arg0 &&& 0xFFFF).toNat ≤ 0xFFFF := by
    rw [UInt32.toNat_and]
    exact Nat.and_le_right
  rw [UInt32.le_iff_toNat_le, UInt32.lt_iff_toNat_lt, UInt32.toNat_add, UInt32.toNat_ofNat',
    Nat.mod_eq_of_lt (show codes.length < 2 ^ 32 by omega), Nat.mod_eq_of_lt (by omega)]

theorem typeFE_runs (hm : Readable m mem region) (hlen : codes.length < 2 ^ 29) (vm : Vm ω)
    (hindex : vm.state.index.toNat < codes.length) {arg0 arg1 : UInt32} (hle : (arg0 &&& 0xFFFF).toNat ≤ arg1.toNat)
    (hfit : (arg0 &&& 0xFFFF).toNat + vm.state.index.toNat < codes.length)
    (hregion : ∀ i < arg1.toNat, region (vm.state.offset + UInt32.ofNat i)) :
    ∃ b vm', Runs (typeFE m codes false arg0 arg1) vm () vm' ∧
      vm'.state.index = vm.state.index + (arg0 &&& 0xFFFF) / 8 + (if (arg0 &&& 0xFFFF) &&& 7 ≠ 0 then 1 else 0) ∧
      vm'.state.ifStack = (vm.state.ifStack <<< 1) ||| (if b then 1 else 0) ∧ vm'.state.ifCount = vm.state.ifCount + 1 ∧
      (b = false ↔ ∃ p, p + (arg0 &&& 0xFFFF).toNat < arg1.toNat ∧ OccursAt mem codes vm (arg0 &&& 0xFFFF).toNat p) := by
  generalize hs : (arg0 &&& 0xFFFF) = size at hle hfit
  let onward : Vm ω := { vm with state := { vm.state with
    index := vm.state.index + size / 8 + (if size &&& 7 ≠ 0 then 1 else 0) } }
  have hplaces : (arg1 - size).toNat = arg1.toNat - size.toNat :=
    UInt32.toNat_sub_of_le _ _ (UInt32.le_iff_toNat_le.mpr hle)
  obtain ⟨b, vm₁, hsearch, hsame, hiff⟩ := searchLoop_runs hm codes (vm.state.index.toNat + 1) size.toNat
    (arg1 - size).toNat 0 onward (fun j hj => by omega) fun q _ hlt j hj => hregion (q + j) (by omega)
  have hcheck : size ≤ arg1 ∧ size + vm.state.index < UInt32.ofNat codes.length := by
    rw [← hs]
    exact (fits_iff vm hlen hindex arg0 arg1).mpr (hs.symm ▸ ⟨hle, hfit⟩)
  have honward : Runs (modifyState fun s =>
      { s with index := vm.state.index + size / 8 + (if size &&& 7 ≠ 0 then 1 else 0) }) vm () onward :=
    runs_modify_iff.mpr rfl
  let opened : Vm ω := { vm₁ with state := { vm₁.state with
    ifStack := (vm₁.state.ifStack <<< 1) ||| (if b || false then 1 else 0), ifCount := vm₁.state.ifCount + 1 } }
  refine ⟨b, opened, ?_, ?_, ?_, ?_, ?_⟩
  · unfold typeFE
    refine Runs.bind (runs_get_iff.mpr ⟨rfl, rfl⟩) ?_
    dsimp only
    rw [hs, if_pos hcheck]
    exact honward.bind (hsearch.bind (runs_modify_iff.mpr rfl))
  · show vm₁.state.index = _
    rw [hsame.state]
  · show (vm₁.state.ifStack <<< 1) ||| _ = _
    rw [hsame.state, Bool.or_false]
  · show vm₁.state.ifCount + 1 = _
    rw [hsame.state]
  · rw [hiff]
    constructor
    · rintro ⟨q, -, hlt, hocc⟩
      exact ⟨q, by omega, hocc⟩
    · rintro ⟨q, hlt, hocc⟩
      exact ⟨q, Nat.zero_le q, by omega, hocc⟩

theorem typeF_search {arg0 arg1 subcode : UInt32} (hne : arg0 ≠ 0xF0F00000) (h : subcode.toNat = 0xE) :
    typeF m codes false subcode arg0 arg1 = typeFE m codes false arg0 arg1 := by
  unfold typeF
  rw [if_neg hne, h]
  rfl

/-- The line opens a conditional that holds. -/
def OpensTrue (m : Machine ω) (codes : List UInt64) (vm : Vm ω) : Prop :=
  ∃ vm', Runs (step m codes) vm () vm' ∧ vm'.state.ifStack = vm.state.ifStack <<< 1 ∧
    vm'.state.ifCount = vm.state.ifCount + 1

theorem ifStack_push_one (stack : UInt32) : (stack <<< (1 : UInt32)) ||| (1 : UInt32) ≠ stack <<< (1 : UInt32) := by
  intro heq
  have hbit := congrArg (fun x : UInt32 => x.toNat.testBit 0) heq
  simp [UInt32.toNat_or, UInt32.toNat_shiftLeft] at hbit

/-- An executed FE opens a conditional that holds exactly if it accepts its pattern and the pattern is
at a place before the last one. -/
theorem opensTrue_iff (codes : List UInt64) (vm : Vm ω) (hm : Readable m mem region) (hlen : codes.length < 2 ^ 29)
    (hindex : vm.state.index.toNat < codes.length) (htype : typeOf (codeOf codes vm.state) = 0xF)
    (hsub : (subcodeOf (codeOf codes vm.state)).toNat = 0xE) (hskip : skips vm = false)
    (hsize : searchSize (codeOf codes vm.state) ≤ (codeOf codes vm.state).toUInt32.toNat)
    (hregion : ∀ i < (codeOf codes vm.state).toUInt32.toNat, region (vm.state.offset + UInt32.ofNat i)) :
    OpensTrue m codes vm ↔ searchSize (codeOf codes vm.state) + vm.state.index.toNat < codes.length ∧
      ∃ p, p + searchSize (codeOf codes vm.state) < (codeOf codes vm.state).toUInt32.toNat ∧
        OccursAt mem codes vm (searchSize (codeOf codes vm.state)) p := by
  have hexecute : execute m codes (skips vm) (codeOf codes vm.state >>> 32).toUInt32 (codeOf codes vm.state).toUInt32 =
      typeFE m codes false (codeOf codes vm.state >>> 32).toUInt32 (codeOf codes vm.state).toUInt32 := by
    rw [hskip, execute_typeF htype]
    exact typeF_search (typeF_of_subcode (show (subcodeOf (codeOf codes vm.state)).toNat ≠ 0 by omega)) hsub
  by_cases hfit : searchSize (codeOf codes vm.state) + vm.state.index.toNat < codes.length
  · obtain ⟨b, vm₁, hrun, -, hstack, hcount, hiff⟩ := typeFE_runs hm hlen (fetched vm) hindex hsize hfit hregion
    have hstep : Runs (step m codes) vm () _ := line_runs hindex (by omega) (hexecute ▸ hrun)
    have hopens : OpensTrue m codes vm ↔ b = false := by
      constructor
      · rintro ⟨vm', hrun', hstack', -⟩
        obtain ⟨-, rfl⟩ := hrun'.unique hstep
        cases b with
        | false => rfl
        | true => exact absurd (hstack.symm.trans hstack') (ifStack_push_one _)
      · rintro rfl
        exact ⟨_, hstep, hstack.trans (by simp; rfl), hcount⟩
    rw [hopens, hiff]
    exact (and_iff_right hfit).symm
  · simp only [hfit, false_and, iff_false]
    rintro ⟨vm', hrun, -, -⟩
    obtain ⟨vm₁, hrun₁, -⟩ := line_of_runs hindex hrun
    rw [hexecute] at hrun₁
    obtain ⟨_, _, hget, hrun₁⟩ := hrun₁.of_bind
    obtain ⟨rfl, rfl⟩ := runs_get_iff.mp hget
    dsimp only at hrun₁
    rw [if_neg] at hrun₁
    · exact absurd hrun₁ not_runs_throw
    · intro hcheck
      exact hfit ((fits_iff (fetched vm) hlen hindex _ _).mp hcheck).2

/-- An executed FE opens a conditional that holds exactly if the pattern is in the window: this is so
exactly if a pattern that is there is at a place before the last one, and its bytes are fewer than the
code words from the line on. -/
theorem pattern_found_iff (hm : Readable m mem region) (hlen : codes.length < 2 ^ 29)
    (hindex : vm.state.index.toNat < codes.length) (htype : typeOf (codeOf codes vm.state) = 0xF)
    (hsub : (subcodeOf (codeOf codes vm.state)).toNat = 0xE) (hskip : skips vm = false)
    (hsize : searchSize (codeOf codes vm.state) ≤ (codeOf codes vm.state).toUInt32.toNat)
    (hregion : ∀ i < (codeOf codes vm.state).toUInt32.toNat, region (vm.state.offset + UInt32.ofNat i)) :
    (OpensTrue m codes vm ↔ ∃ p, p + searchSize (codeOf codes vm.state) ≤ (codeOf codes vm.state).toUInt32.toNat ∧
        OccursAt mem codes vm (searchSize (codeOf codes vm.state)) p) ↔
      ((∃ p, p + searchSize (codeOf codes vm.state) ≤ (codeOf codes vm.state).toUInt32.toNat ∧
          OccursAt mem codes vm (searchSize (codeOf codes vm.state)) p) →
        searchSize (codeOf codes vm.state) + vm.state.index.toNat < codes.length ∧
          ∃ p, p + searchSize (codeOf codes vm.state) < (codeOf codes vm.state).toUInt32.toNat ∧
            OccursAt mem codes vm (searchSize (codeOf codes vm.state)) p) := by
  rw [opensTrue_iff codes vm hm hlen hindex htype hsub hskip hsize hregion]
  constructor
  · intro h
    exact h.mpr
  · intro h
    refine ⟨?_, h⟩
    rintro ⟨-, p, hlt, hocc⟩
    exact ⟨p, hlt.le, hocc⟩

end

/-- A game of which all memory but the first byte can be read and written. -/
def flatMachine : Machine (UInt32 → UInt8) where
  query := fun w _ => (some ⟨false, 1, 0xFFFFFFFF⟩, w)
  read := fun w a size => (some (pageLoad (fun i => w (a + UInt32.ofNat i)) 0 size), w)
  write := fun w a size value =>
    (true, fun x => if (x - a).toNat < size then (value >>> (8 * (x - a))).toUInt8 else w x)
  pad := fun w => (0, w)
  touch := fun w => ((0, 0), w)
  floatAdd := emptyMachine.floatAdd
  floatMul := emptyMachine.floatMul
  floatDiv := emptyMachine.floatDiv
  floatToInt := emptyMachine.floatToInt
  intToFloat := emptyMachine.intToFloat
  codeBehind := emptyMachine.codeBehind
  divZero := emptyMachine.divZero
  modZero := emptyMachine.modZero
  shiftLeftOver := emptyMachine.shiftLeftOver
  shiftRightOver := emptyMachine.shiftRightOver

theorem flatMachine_writable : Writable flatMachine (fun w => w) (· ≠ 0) := by
  refine ⟨⟨fun _ _ => rfl, ?_, ?_⟩, ?_⟩
  · intro w a ha
    refine ⟨⟨false, 1, 0xFFFFFFFF⟩, rfl, rfl, by decide, ?_, ?_⟩
    · rw [UInt32.le_iff_toNat_le]
      have hne : a.toNat ≠ 0 := fun hzero => ha (UInt32.toNat_inj.mp hzero)
      show 1 ≤ a.toNat
      omega
    · rw [UInt32.le_iff_toNat_le]
      show a.toNat ≤ 4294967295
      have := a.toNat_lt
      omega
  · intro w a _
    refine ⟨?_, rfl⟩
    simp [flatMachine, pageLoad]
  · intro w a value _
    refine ⟨rfl, ?_⟩
    funext x
    rw [Function.update_apply]
    by_cases hx : x = a
    · subst hx
      simp [flatMachine]
    · have hne : (x - a).toNat ≠ 0 := by
        intro hzero
        have hdiff : x - a = a - a := by
          rw [UInt32.sub_self]
          exact UInt32.toNat_inj.mp hzero
        exact hx ((UInt32.sub_left_inj a).mp hdiff)
      simp [flatMachine, hx, hne]

/-- The interpreter in a game whose bytes are the low bytes of their addresses, with offsets at 16 and 32. -/
def flatVm : Vm (UInt32 → UInt8) where
  state := { firstVm.state with offset1 := 16, offset2 := 32 }
  cheat := firstVm.cheat
  cheatRngState := 0
  cheatPage := firstVm.cheatPage
  world := UInt32.toUInt8
  uses := []

/-- One byte is copied. -/
theorem copied_one : ∃ vm', Runs (step flatMachine [0xFC00000000000001]) flatVm () vm' ∧
    Copied (fun w => w) (codeOf [0xFC00000000000001] flatVm.state).toUInt32.toNat flatVm vm' := by
  refine (copied_iff flatMachine_writable (by decide) (by decide) (by decide) (by decide) ?_).mpr ?_
  · intro i hi
    obtain rfl : i = 0 := Nat.lt_one_iff.mp hi
    decide
  · intro i hpos hi
    have hlt : i < 1 := hi
    omega

/-- Of two bytes, the second one is not. -/
theorem second_not_copied : ¬ ∃ vm', Runs (step flatMachine [0xFC00000000000002]) flatVm () vm' ∧
    Copied (fun w => w) (codeOf [0xFC00000000000002] flatVm.state).toUInt32.toNat flatVm vm' := by
  obtain ⟨vm₁, hrun, -, -, -, hbytes⟩ := copy_runs [0xFC00000000000002] flatVm flatMachine_writable
    (by decide) (by decide) (by decide) (by decide) (fun _ => by decide)
  rintro ⟨vm', hrun', hcopied⟩
  obtain ⟨-, rfl⟩ := hrun'.unique hrun
  have hsecond := congrFun (hbytes.symm.trans hcopied.bytes) 17
  exact absurd hsecond (by decide)

/-- The byte 17 in the four bytes from 16 on. -/
def middleCheat : List UInt64 := [0xFE00000100000004, 0x11, 0xD000000000000000]

/-- The byte 19, which is the last one of the four; and the same pattern in a window of its size. -/
def lastCheat : List UInt64 := [0xFE00000100000004, 0x13, 0xD000000000000000]

def wholeCheat : List UInt64 := [0xFE00000100000001, 0x10, 0xD000000000000000]

/-- Eight bytes that are in the window, with no line behind them. -/
def endCheat : List UInt64 := [0xFE00000800000010, 0x1918171615141312]

theorem middle_found : OpensTrue flatMachine middleCheat flatVm ↔
    ∃ p, p + searchSize (codeOf middleCheat flatVm.state) ≤ (codeOf middleCheat flatVm.state).toUInt32.toNat ∧
      OccursAt (fun w => w) middleCheat flatVm (searchSize (codeOf middleCheat flatVm.state)) p := by
  refine (pattern_found_iff flatMachine_writable.toReadable (by decide) (by decide) (by decide) (by decide) (by decide)
    (by decide) ?_).mpr fun _ => ⟨by decide, 1, by decide, ?_⟩
  · decide
  · unfold OccursAt
    decide

/-- A pattern at the last place, one of the size of the window, and one that the check refuses. -/
theorem last_not_found :
    (¬OpensTrue flatMachine lastCheat flatVm ∧
        ∃ p, p + searchSize (codeOf lastCheat flatVm.state) ≤ (codeOf lastCheat flatVm.state).toUInt32.toNat ∧
          OccursAt (fun w => w) lastCheat flatVm (searchSize (codeOf lastCheat flatVm.state)) p) ∧
      (¬OpensTrue flatMachine wholeCheat flatVm ∧
        ∃ p, p + searchSize (codeOf wholeCheat flatVm.state) ≤ (codeOf wholeCheat flatVm.state).toUInt32.toNat ∧
          OccursAt (fun w => w) wholeCheat flatVm (searchSize (codeOf wholeCheat flatVm.state)) p) ∧
      (¬OpensTrue flatMachine endCheat flatVm ∧
        ∃ p, p + searchSize (codeOf endCheat flatVm.state) ≤ (codeOf endCheat flatVm.state).toUInt32.toNat ∧
          OccursAt (fun w => w) endCheat flatVm (searchSize (codeOf endCheat flatVm.state)) p) := by
  have hopens (codes : List UInt64) := opensTrue_iff codes flatVm flatMachine_writable.toReadable
  refine ⟨⟨?_, 3, by decide, ?_⟩, ⟨?_, 0, by decide, ?_⟩, ⟨?_, 2, by decide, ?_⟩⟩
  · rw [hopens lastCheat (by decide) (by decide) (by decide) (by decide) (by decide) (by decide) (by decide)]
    rintro ⟨-, p, hlt, hocc⟩
    have hlt : p < 3 := Nat.lt_of_succ_lt_succ hlt
    have hbyte := hocc 0 (by decide)
    interval_cases p
    · exact absurd hbyte (by decide)
    · exact absurd hbyte (by decide)
    · exact absurd hbyte (by decide)
  · unfold OccursAt
    decide
  · rw [hopens wholeCheat (by decide) (by decide) (by decide) (by decide) (by decide) (by decide) (by decide)]
    rintro ⟨-, p, hlt, -⟩
    have hlt : p + 1 < 1 := hlt
    omega
  · unfold OccursAt
    decide
  · rw [hopens endCheat (by decide) (by decide) (by decide) (by decide) (by decide) (by decide) (by decide)]
    rintro ⟨hfit, -⟩
    exact absurd hfit (by decide)
  · unfold OccursAt
    decide

end Omiiba.Rosalina
