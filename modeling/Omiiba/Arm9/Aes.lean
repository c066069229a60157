/-
The AES engine as crypto.c uses it: counters and initial vectors in its four formats, batches of blocks through the two
FIFOs of the engine, and whole texts in batches of up to 0xFFFF blocks.
-/
import Omiiba.Lib.BlockModes
import Omiiba.Lib.System
import Omiiba.Lib.Writes

namespace Omiiba.Arm9

open Memory

/-! ## Blocks -/

/-- What the engine takes and gives. -/
abbrev Block := BitVec 128

/-- Four words, as they are in memory. -/
structure Quad where
  w0 : UInt32
  w1 : UInt32
  w2 : UInt32
  w3 : UInt32
  deriving DecidableEq

namespace Quad

variable (q : Quad)

def reverse : Quad := ⟨q.w3, q.w2, q.w1, q.w0⟩

def map (f : UInt32 → UInt32) : Quad := ⟨f q.w0, f q.w1, f q.w2, f q.w3⟩

/-- The number that has the first word in its lowest bits. -/
def value : Nat := q.w0.toNat + 2 ^ 32 * q.w1.toNat + 2 ^ 64 * q.w2.toNat + 2 ^ 96 * q.w3.toNat

def ofBlock (b : Block) : Quad :=
  ⟨.ofNat b.toNat, .ofNat (b.toNat / 2 ^ 32), .ofNat (b.toNat / 2 ^ 64), .ofNat (b.toNat / 2 ^ 96)⟩

end Quad

/-- `AES_INPUT_BE` and `AES_INPUT_NORMAL`: if the bytes of each word are swapped, and if the first word is the highest. -/
structure InputMode where
  be : Bool
  normal : Bool
  deriving DecidableEq

/-- `AES_INPUT_BE | AES_INPUT_NORMAL`. -/
def InputMode.beNormal : InputMode := ⟨true, true⟩

/-- What the engine makes of a word, if its format is big-endian. -/
def swapBytes (x : UInt32) : UInt32 :=
  ((x &&& (0xFF : UInt32)) <<< 24) ||| ((x &&& (0xFF00 : UInt32)) <<< 8) ||| ((x >>> 8) &&& (0xFF00 : UInt32)) ||| (x >>> 24)

/-- The block that four words are in a format. -/
def inputBlock (m : InputMode) (q : Quad) : Block :=
  let q := if m.be then q.map swapBytes else q
  BitVec.ofNat 128 (if m.normal then q.reverse else q).value

/-- The words of a block that the engine gives, with `AES_CNT_OUTPUT_ENDIAN` and `AES_CNT_OUTPUT_ORDER` set. -/
def outputQuad (b : Block) : Quad := (Quad.ofBlock b).reverse.map swapBytes

/-! ## Counters and initial vectors -/

def ror (x n : UInt32) : UInt32 := (x >>> n) ||| (x <<< (32 - n))

/-- `BSWAP32`. -/
def bswap32 (x : UInt32) : UInt32 :=
  let r1 := (x ^^^ ror x 16) &&& ~~~(0xFF0000 : UInt32)
  ror x 8 ^^^ (r1 >>> 8)

/-- `ADD_u128_u32`: each addition but the first is made if the one before it has carried. -/
def addU128U32 (q : Quad) (val : UInt32) : Quad :=
  let w0 := q.w0 + val
  if w0 < val then
    let w1 := q.w1 + 1
    if w1 = 0 then
      let w2 := q.w2 + 1
      if w2 = 0 then ⟨w0, w1, w2, q.w3 + 1⟩ else ⟨w0, w1, w2, q.w3⟩
    else ⟨w0, w1, q.w2, q.w3⟩
  else ⟨w0, q.w1, q.w2, q.w3⟩

/-- `aes_advctr`. -/
def aesAdvctr (ctr : Quad) (val : UInt32) (m : InputMode) : Quad :=
  let ctr := if m.be then ctr.map bswap32 else ctr
  let ctr := if m.normal then (addU128U32 ctr.reverse val).reverse else addU128U32 ctr val
  if m.be then ctr.map bswap32 else ctr

/-- `aes_change_ctrmode`. -/
def aesChangeCtrmode (ctr : Quad) (fromMode toMode : InputMode) : Quad :=
  let ctr := if fromMode.be ≠ toMode.be then ctr.map bswap32 else ctr
  if fromMode.normal ≠ toMode.normal then ctr.reverse else ctr

/-- `aes_setiv`: what is written to `REG_AESCTR`, the words of which are in the order from the lowest one. -/
def aesSetiv (iv : Quad) (m : InputMode) : Quad := if m.normal then iv.reverse else iv

/-- The register of the engine, after words have been written to `REG_AESCTR` in a format. -/
def counterRegister (m : InputMode) (q : Quad) : Block := BitVec.ofNat 128 (if m.be then q.map swapBytes else q).value

/-! ### Words -/

theorem getLsbD_swapBytes (x : UInt32) {i : Nat} (hi : i < 32) :
    (swapBytes x).toBitVec.getLsbD i = x.toBitVec.getLsbD (24 - i / 8 * 8 + i % 8) := by
  unfold swapBytes
  interval_cases i <;> simp

theorem bswap32_eq (x : UInt32) : bswap32 x = swapBytes x := by
  refine UInt32.toBitVec_inj.mp (BitVec.eq_of_getLsbD_eq fun i hi => ?_)
  rw [getLsbD_swapBytes x hi]
  unfold bswap32 ror
  interval_cases i <;> simp

@[simp] theorem swapBytes_swapBytes (x : UInt32) : swapBytes (swapBytes x) = x := by
  refine UInt32.toBitVec_inj.mp (BitVec.eq_of_getLsbD_eq fun i hi => ?_)
  have hlow : 24 - i / 8 * 8 + i % 8 < 32 := by omega
  rw [getLsbD_swapBytes _ hi, getLsbD_swapBytes _ hlow]
  congr 1
  omega

namespace Quad

@[ext] theorem ext {q r : Quad} (h0 : q.w0 = r.w0) (h1 : q.w1 = r.w1) (h2 : q.w2 = r.w2) (h3 : q.w3 = r.w3) : q = r := by
  cases q
  cases r
  simp_all

@[simp] theorem reverse_reverse (q : Quad) : q.reverse.reverse = q := rfl

@[simp] theorem map_swapBytes (q : Quad) : (q.map swapBytes).map swapBytes = q := by
  ext <;> simp [map]

theorem reverse_map (q : Quad) (f : UInt32 → UInt32) : (q.map f).reverse = q.reverse.map f := rfl

theorem map_bswap32 (q : Quad) : q.map bswap32 = q.map swapBytes := by
  unfold map
  simp only [bswap32_eq]

theorem value_lt (q : Quad) : q.value < 2 ^ 128 := by
  have h0 := q.w0.toNat_lt
  have h1 := q.w1.toNat_lt
  have h2 := q.w2.toNat_lt
  have h3 := q.w3.toNat_lt
  unfold value
  omega

theorem value_ofBlock (b : Block) : (ofBlock b).value = b.toNat := by
  have hlt := b.isLt
  unfold ofBlock value
  simp only [UInt32.toNat_ofNat']
  omega

theorem ofBlock_value (q : Quad) : ofBlock (BitVec.ofNat 128 q.value) = q := by
  have hvalue : (BitVec.ofNat 128 q.value).toNat = q.value := by
    rw [BitVec.toNat_ofNat, Nat.mod_eq_of_lt q.value_lt]
  have h0 := q.w0.toNat_lt
  have h1 := q.w1.toNat_lt
  have h2 := q.w2.toNat_lt
  have h3 := q.w3.toNat_lt
  unfold ofBlock
  rw [hvalue]
  ext <;> dsimp only <;> rw [UInt32.toNat_ofNat'] <;> unfold value <;> omega

end Quad

theorem inputBlock_outputQuad (b : Block) : inputBlock .beNormal (outputQuad b) = b := by
  have hvalue : inputBlock .beNormal (outputQuad b) = BitVec.ofNat 128 (Quad.ofBlock b).value := by
    show BitVec.ofNat 128 (((Quad.ofBlock b).reverse.map swapBytes).map swapBytes).reverse.value = _
    rw [Quad.map_swapBytes, Quad.reverse_reverse]
  rw [hvalue, Quad.value_ofBlock, BitVec.ofNat_toNat, BitVec.setWidth_eq]

theorem outputQuad_inputBlock (q : Quad) : outputQuad (inputBlock .beNormal q) = q := by
  show (Quad.ofBlock (BitVec.ofNat 128 (q.map swapBytes).reverse.value)).reverse.map swapBytes = q
  rw [Quad.ofBlock_value, Quad.reverse_reverse, Quad.map_swapBytes]

/-! ### Formats -/

/-- The register holds the block that the initial vector is. -/
theorem counterRegister_setiv (iv : Quad) (m : InputMode) : counterRegister m (aesSetiv iv m) = inputBlock m iv := by
  obtain ⟨be, normal⟩ := m
  cases be <;> cases normal <;> rfl

theorem value_addU128U32 (q : Quad) (val : UInt32) : (addU128U32 q val).value % 2 ^ 128 = (q.value + val.toNat) % 2 ^ 128 := by
  have h0 := q.w0.toNat_lt
  have h1 := q.w1.toNat_lt
  have h2 := q.w2.toNat_lt
  have h3 := q.w3.toNat_lt
  have hval := val.toNat_lt
  unfold addU128U32 Quad.value
  dsimp only
  simp only [UInt32.lt_iff_toNat_lt, ← UInt32.toNat_inj, UInt32.toNat_add, UInt32.toNat_one, UInt32.toNat_zero]
  split_ifs <;> simp only [UInt32.toNat_add, UInt32.toNat_one] <;> omega

/-- The counter is advanced in each format. -/
theorem inputBlock_advctr (ctr : Quad) (val : UInt32) (m : InputMode) :
    inputBlock m (aesAdvctr ctr val m) = inputBlock m ctr + BitVec.ofNat 128 val.toNat := by
  have hadd (q : Quad) : BitVec.ofNat 128 (addU128U32 q val).value = BitVec.ofNat 128 q.value + BitVec.ofNat 128 val.toNat := by
    rw [← BitVec.ofNat_add]
    refine BitVec.eq_of_toNat_eq ?_
    rw [BitVec.toNat_ofNat, BitVec.toNat_ofNat, value_addU128U32]
  obtain ⟨be, normal⟩ := m
  unfold inputBlock aesAdvctr
  cases be <;> cases normal <;> simp [Quad.map_bswap32, hadd]

/-- A block is the same in the format that it is changed to. -/
theorem inputBlock_changeCtrmode (ctr : Quad) (fromMode toMode : InputMode) :
    inputBlock toMode (aesChangeCtrmode ctr fromMode toMode) = inputBlock fromMode ctr := by
  obtain ⟨be, normal⟩ := fromMode
  obtain ⟨be', normal'⟩ := toMode
  unfold inputBlock aesChangeCtrmode
  cases be <;> cases normal <;> cases be' <;> cases normal' <;> simp [Quad.map_bswap32, Quad.reverse_map]

/-! ## Blocks in memory -/

def quadAt (mem : Memory UInt8) (a : Nat) : Quad :=
  ⟨.ofNat (mem.load a 4), .ofNat (mem.load (a + 4) 4), .ofNat (mem.load (a + 8) 4), .ofNat (mem.load (a + 12) 4)⟩

def Quad.bytes (q : Quad) : List UInt8 :=
  leBytes 4 q.w0.toNat ++ leBytes 4 q.w1.toNat ++ leBytes 4 q.w2.toNat ++ leBytes 4 q.w3.toNat

def blockAt (mem : Memory UInt8) (a : Nat) : Block := inputBlock .beNormal (quadAt mem a)

/-- The blocks from an address on. -/
def blocksAt (mem : Memory UInt8) (a n : Nat) : List Block := (List.range n).map fun i => blockAt mem (a + 16 * i)

def blockBytes (bs : List Block) : List UInt8 := bs.flatMap fun b => (outputQuad b).bytes

@[simp] theorem Quad.length_bytes (q : Quad) : q.bytes.length = 16 := by
  simp [bytes]

@[simp] theorem length_blocksAt (mem : Memory UInt8) (a n : Nat) : (blocksAt mem a n).length = n := by
  simp [blocksAt]

@[simp] theorem length_blockBytes (bs : List Block) : (blockBytes bs).length = 16 * bs.length := by
  induction bs with
  | nil => rfl
  | cons b bs ih =>
    show ((outputQuad b).bytes ++ blockBytes bs).length = _
    rw [List.length_append, Quad.length_bytes, ih, List.length_cons]
    omega

theorem blockBytes_append (bs cs : List Block) : blockBytes (bs ++ cs) = blockBytes bs ++ blockBytes cs := List.flatMap_append

theorem quadAt_congr {mem mem' : Memory UInt8} {a : Nat} (h : ∀ x, a ≤ x → x < a + 16 → mem x = mem' x) :
    quadAt mem a = quadAt mem' a := by
  have hword : ∀ b, a ≤ b → b + 4 ≤ a + 16 → mem.load b 4 = mem'.load b 4 := fun b hb hlt =>
    load_congr fun x hx hxb => h x (hb.trans hx) (by omega)
  unfold quadAt
  rw [hword a le_rfl (by omega), hword (a + 4) (by omega) (by omega), hword (a + 8) (by omega) (by omega),
    hword (a + 12) (by omega) (by omega)]

theorem quadAt_store (mem : Memory UInt8) (a : Nat) (q : Quad) : quadAt (mem.store a q.bytes) a = q := by
  have hword : ∀ (m : Memory UInt8) (b : Nat) (w : UInt32), UInt32.ofNat ((m.store b (leBytes 4 w.toNat)).load b 4) = w := by
    intro m b w
    have hlt := w.toNat_lt
    rw [load_store, Nat.mod_eq_of_lt (by omega), UInt32.ofNat_toNat]
  have hbehind : ∀ (m : Memory UInt8) {b c : Nat} (w : UInt32), b + 4 ≤ c →
      (m.store c (leBytes 4 w.toNat)).load b 4 = m.load b 4 := fun m b c w h => load_store_outside m (.inl h)
  have hstore : mem.store a q.bytes = (((mem.store a (leBytes 4 q.w0.toNat)).store (a + 4) (leBytes 4 q.w1.toNat)).store (a + 8)
      (leBytes 4 q.w2.toNat)).store (a + 12) (leBytes 4 q.w3.toNat) := by
    unfold Quad.bytes
    rw [store_append, store_append, store_append]
    simp only [List.length_append, leBytes_length]
  -- each word is in front of those that are stored after it
  rw [hstore]
  refine Quad.ext ?_ ?_ ?_ ?_ <;> dsimp only [quadAt]
  · rw [hbehind _ q.w3 (by omega), hbehind _ q.w2 (by omega), hbehind _ q.w1 (by omega), hword]
  · rw [hbehind _ q.w3 (by omega), hbehind _ q.w2 (by omega), hword]
  · rw [hbehind _ q.w3 (by omega), hword]
  · rw [hword]

/-- The blocks that have been stored. -/
theorem blockAt_store (mem : Memory UInt8) (a : Nat) (bs : List Block) {i : Nat} (h : i < bs.length) :
    blockAt (mem.store a (blockBytes bs)) (a + 16 * i) = bs[i] := by
  have hsplit : bs = bs.take i ++ [bs[i]] ++ bs.drop (i + 1) := by
    rw [List.append_assoc, List.singleton_append, List.getElem_cons_drop, List.take_append_drop]
  have hlength : (blockBytes (bs.take i)).length = 16 * i := by
    rw [length_blockBytes, List.length_take, min_eq_left h.le]
  have hone : blockBytes [bs[i]] = (outputQuad bs[i]).bytes := List.append_nil _
  unfold blockAt
  conv_lhs => rw [hsplit]
  rw [blockBytes_append, blockBytes_append, store_append, store_append, List.length_append, hlength, hone, Quad.length_bytes,
    quadAt_congr fun x _ hx => store_outside _ (.inl (by omega)), quadAt_store, inputBlock_outputQuad]

theorem blocksAt_store (mem : Memory UInt8) (a : Nat) (bs : List Block) :
    blocksAt (mem.store a (blockBytes bs)) a bs.length = bs := by
  refine List.ext_getElem (length_blocksAt _ _ _) fun i hi hi' => ?_
  simp only [blocksAt, List.getElem_map, List.getElem_range]
  exact blockAt_store mem a bs hi'

theorem blocksAt_add (mem : Memory UInt8) (a n k : Nat) :
    blocksAt mem a (n + k) = blocksAt mem a n ++ blocksAt mem (a + 16 * n) k := by
  unfold blocksAt
  rw [List.range_add, List.map_append, List.map_map]
  refine congrArg (_ ++ ·) (List.map_congr_left fun i _ => ?_)
  simp only [Function.comp_apply]
  rw [Nat.mul_add, Nat.add_assoc]

theorem blocksAt_congr {mem mem' : Memory UInt8} {a n : Nat} (h : ∀ x, a ≤ x → x < a + 16 * n → mem x = mem' x) :
    blocksAt mem a n = blocksAt mem' a n := by
  refine List.map_congr_left fun i hi => ?_
  rw [List.mem_range] at hi
  exact congrArg (inputBlock .beNormal) (quadAt_congr fun x hx hlt => h x (by omega) (by omega))

/-! ## Batches -/

/-- The modes that are used. -/
inductive AesMode
  | ctr
  | cbcDecrypt
  | cbcEncrypt
  | ecbDecrypt
  | ecbEncrypt
  deriving DecidableEq

/-- What the engine does in a mode, with the key of the key slot that is used. -/
def AesMode.engine (key : Equiv.Perm Block) : AesMode → BlockMode Block Block
  | ctr => .ctr (· ^^^ ·) key (· + 1)
  | cbcDecrypt => .cbcDecrypt (· ^^^ ·) key.symm
  | cbcEncrypt => .cbcEncrypt (· ^^^ ·) key
  | ecbDecrypt => .ecb key.symm
  | ecbEncrypt => .ecb key

/-- `aes_batch` at work: its variables, the engine with its FIFOs, and in which half of the body of the loop it is. -/
structure AesBatch where
  mem : Memory UInt8
  src32 : Nat
  dst32 : Nat
  wbc : Nat
  rbc : Nat
  engine : Pipe Block Block
  reading : Bool

/-- Who goes on: the engine takes a block, or the code runs half of the body of its loop. -/
inductive AesActor
  | engine
  | code

namespace AesBatch

/-- The engine has a block to take and room for what it gives, the FIFOs being of 16 words; the code is in its loop. -/
def Enabled (s : AesBatch) : AesActor → Prop
  | .engine => s.engine.input ≠ [] ∧ 4 * s.engine.output.length ≤ 0xC
  | .code => s.rbc ≠ 0

instance (s : AesBatch) : DecidablePred s.Enabled
  | .engine => inferInstanceAs (Decidable (_ ∧ _))
  | .code => inferInstanceAs (Decidable (s.rbc ≠ 0))

variable (im : InputMode) (m : BlockMode Block Block)

def step (s : AesBatch) : AesActor → AesBatch
  | .engine => { s with engine := s.engine.work m }
  | .code =>
    if s.reading then
      match s.engine.output with
      | [] => { s with reading := false }
      | b :: _ =>
        { s with
          mem := s.mem.store s.dst32 (outputQuad b).bytes
          dst32 := s.dst32 + 16
          rbc := s.rbc - 1
          engine := s.engine.take
          reading := false }
    else if s.wbc ≠ 0 ∧ 4 * s.engine.input.length ≤ 0xC then
      { s with
        src32 := s.src32 + 16
        wbc := s.wbc - 1
        engine := s.engine.feed (inputBlock im (quadAt s.mem s.src32))
        reading := true }
    else { s with reading := true }

/-- Engine and code in any order. -/
def system (start : AesBatch) : System AesBatch AesActor where
  init s := s = start
  step s i s' := s.Enabled i ∧ s' = s.step im m i

/-- `aes_batch` may return with that memory. -/
def Ends (start : AesBatch) (mem : Memory UInt8) : Prop := ∃ s, (system im m start).Reachable s ∧ s.rbc = 0 ∧ s.mem = mem

end AesBatch

/-- `aes_batch` as it is called, with empty FIFOs and a block in the register of the engine. -/
def aesBatch (mem : Memory UInt8) (dst src blockCount : Nat) (register : Block) : AesBatch :=
  ⟨mem, src, dst, blockCount, blockCount, ⟨[], register, []⟩, false⟩

/-! ### Every order gives the same -/

section Batch

variable {m : BlockMode Block Block} {mem : Memory UInt8} {dst src n : Nat} {register : Block}

/-- What the machine gives for the blocks of a range. -/
def results (m : BlockMode Block Block) (mem : Memory UInt8) (src n : Nat) (register : Block) : List Block :=
  m.outs register (blocksAt mem src n)

@[simp] theorem length_results : (results m mem src n register).length = n := by
  simp [results]

/-- What is written does not reach what is still to be read. -/
def Ahead (dst src n : Nat) : Prop := dst ≤ src ∨ src + 16 * n ≤ dst

namespace AesBatch

/-- The blocks up to `n - wbc` are in the engine or through it, those up to `n - rbc` are in the memory. -/
structure Good (m : BlockMode Block Block) (mem : Memory UInt8) (dst src n : Nat) (register : Block) (s : AesBatch) : Prop where
  rbc : s.rbc = s.wbc + s.engine.input.length + s.engine.output.length
  rbc_le : s.rbc ≤ n
  src32 : s.src32 = src + 16 * (n - s.wbc)
  dst32 : s.dst32 = dst + 16 * (n - s.rbc)
  final : s.engine.final m = m.after register ((blocksAt mem src n).take (n - s.wbc))
  pending : s.engine.pending m = ((results m mem src n register).take (n - s.wbc)).drop (n - s.rbc)
  mem : s.mem = mem.store dst (blockBytes ((results m mem src n register).take (n - s.rbc)))

theorem good_start : (aesBatch mem dst src n register).Good m mem dst src n register := by
  refine ⟨rfl, le_rfl, ?_, ?_, ?_, ?_, ?_⟩
  all_goals simp [aesBatch, Pipe.final, Pipe.pending, blockBytes]

variable {s : AesBatch}

/-- The block that is read next is as it was. -/
theorem Good.quadAt (h : s.Good m mem dst src n register) (hahead : Ahead dst src n) (hwbc : s.wbc ≠ 0) :
    quadAt s.mem s.src32 = Arm9.quadAt mem (src + 16 * (n - s.wbc)) := by
  have hle := h.rbc_le
  have hrbc := h.rbc
  rw [h.mem, h.src32]
  refine quadAt_congr fun x hx hlt => store_outside _ ?_
  rw [length_blockBytes, List.length_take, length_results, min_eq_left (Nat.sub_le _ _)]
  rcases hahead with hbelow | habove
  · exact .inr (by omega)
  · exact .inl (by omega)

theorem Good.engine (h : s.Good m mem dst src n register) : ((s.step .beNormal m .engine).Good m mem dst src n register) := by
  refine ⟨?_, h.rbc_le, h.src32, h.dst32, ?_, ?_, h.mem⟩
  · show s.rbc = s.wbc + (s.engine.work m).input.length + (s.engine.work m).output.length
    rw [Nat.add_assoc, Pipe.length_work, ← Nat.add_assoc]
    exact h.rbc
  · exact Pipe.final_work.trans h.final
  · exact Pipe.pending_work.trans h.pending

theorem Good.feed (h : s.Good m mem dst src n register) (hahead : Ahead dst src n) (hwbc : s.wbc ≠ 0) :
    Good m mem dst src n register { s with
      src32 := s.src32 + 16
      wbc := s.wbc - 1
      engine := s.engine.feed (inputBlock .beNormal (Arm9.quadAt s.mem s.src32))
      reading := true } := by
  have hle := h.rbc_le
  have hrbc := h.rbc
  have hlt : n - s.wbc < (blocksAt mem src n).length := by
    rw [length_blocksAt]
    omega
  have hnext : n - (s.wbc - 1) = n - s.wbc + 1 := by omega
  have hblock : inputBlock .beNormal (Arm9.quadAt s.mem s.src32) = (blocksAt mem src n)[n - s.wbc] := by
    rw [h.quadAt hahead hwbc]
    simp [blocksAt, blockAt]
  have hlt' : n - s.wbc < (results m mem src n register).length := by
    rw [length_results]
    omega
  have hout : m.out (s.engine.final m) (blocksAt mem src n)[n - s.wbc] = (results m mem src n register)[n - s.wbc] := by
    rw [h.final]
    exact (m.getElem_outs register _ hlt hlt').symm
  refine ⟨?_, hle, ?_, h.dst32, ?_, ?_, h.mem⟩
  · show s.rbc = s.wbc - 1 + (s.engine.input ++ [_]).length + s.engine.output.length
    rw [List.length_append, List.length_singleton]
    omega
  · show s.src32 + 16 = src + 16 * (n - (s.wbc - 1))
    rw [h.src32, hnext]
    omega
  · show (s.engine.feed _).final m = m.after register ((blocksAt mem src n).take (n - (s.wbc - 1)))
    rw [hblock, Pipe.final_feed, h.final, hnext, List.take_succ_eq_append_getElem hlt, m.after_append]
    rfl
  · show (s.engine.feed _).pending m = ((results m mem src n register).take (n - (s.wbc - 1))).drop (n - s.rbc)
    rw [hblock, Pipe.pending_feed, h.pending, hout, hnext, List.take_succ_eq_append_getElem hlt',
      List.drop_append_of_le_length (by rw [List.length_take, length_results]; omega)]

theorem Good.take (h : s.Good m mem dst src n register) {b : Block} {output : List Block} (hout : s.engine.output = b :: output) :
    Good m mem dst src n register { s with
      mem := s.mem.store s.dst32 (outputQuad b).bytes
      dst32 := s.dst32 + 16
      rbc := s.rbc - 1
      engine := s.engine.take
      reading := false } := by
  have hle := h.rbc_le
  have hrbc := h.rbc
  rw [hout, List.length_cons] at hrbc
  have hlt : n - s.rbc < (results m mem src n register).length := by
    rw [length_results]
    omega
  have hnext : n - (s.rbc - 1) = n - s.rbc + 1 := by omega
  have hpending : b :: s.engine.take.pending m = ((results m mem src n register).take (n - s.wbc)).drop (n - s.rbc) :=
    (Pipe.pending_take hout).symm.trans h.pending
  rw [List.drop_eq_getElem_cons (by rw [List.length_take]; omega), List.cons.injEq, List.getElem_take] at hpending
  obtain ⟨hb, hrest⟩ := hpending
  refine ⟨?_, ?_, h.src32, ?_, h.final, ?_, ?_⟩
  · show s.rbc - 1 = s.wbc + s.engine.input.length + s.engine.output.tail.length
    rw [hout, List.tail_cons]
    omega
  · show s.rbc - 1 ≤ n
    omega
  · show s.dst32 + 16 = dst + 16 * (n - (s.rbc - 1))
    rw [h.dst32, hnext]
    omega
  · show s.engine.take.pending m = ((results m mem src n register).take (n - s.wbc)).drop (n - (s.rbc - 1))
    rw [hrest, hnext]
  · show s.mem.store s.dst32 (outputQuad b).bytes = mem.store dst (blockBytes ((results m mem src n register).take (n - (s.rbc - 1))))
    have hone : blockBytes [(results m mem src n register)[n - s.rbc]] = (outputQuad b).bytes := by
      rw [← hb]
      exact List.append_nil _
    rw [h.mem, h.dst32, hnext, List.take_succ_eq_append_getElem hlt, blockBytes_append, hone, store_append, length_blockBytes,
      List.length_take, min_eq_left hlt.le]

theorem Good.code (h : s.Good m mem dst src n register) (hahead : Ahead dst src n) :
    (s.step .beNormal m .code).Good m mem dst src n register := by
  unfold step
  dsimp only
  split_ifs with hreading hroom
  · split
    · exact ⟨h.rbc, h.rbc_le, h.src32, h.dst32, h.final, h.pending, h.mem⟩
    · rename_i b output hout
      exact h.take hout
  · exact h.feed hahead hroom.1
  · exact ⟨h.rbc, h.rbc_le, h.src32, h.dst32, h.final, h.pending, h.mem⟩

theorem good_of_reachable (hahead : Ahead dst src n)
    (h : (system .beNormal m (aesBatch mem dst src n register)).Reachable s) : s.Good m mem dst src n register := by
  refine h.invariant ?_ ?_
  · rintro s rfl
    exact good_start
  · rintro s i s' - hs ⟨-, rfl⟩
    cases i with
    | engine => exact hs.engine
    | code => exact hs.code hahead

/-- The memory when `aes_batch` returns. -/
theorem Good.done (h : s.Good m mem dst src n register) (hrbc : s.rbc = 0) :
    s.mem = mem.store dst (blockBytes (results m mem src n register)) := by
  rw [h.mem, hrbc, Nat.sub_zero, List.take_of_length_le length_results.le]

/-- How far it is to the end: each block has three steps to go, and the code may be in the half of its loop that has nothing
to do. -/
def remaining (s : AesBatch) : Nat :=
  2 * (3 * s.wbc + 2 * s.engine.input.length + s.engine.output.length) +
    if s.reading = s.engine.output.isEmpty then 1 else 0

/-- As long as blocks are missing, somebody gets nearer to the end. -/
theorem Good.progress (h : s.Good m mem dst src n register) (hrbc : s.rbc ≠ 0) :
    ∃ i, s.Enabled i ∧ (s.step .beNormal m i).remaining < s.remaining := by
  have hsum := h.rbc
  by_cases hwork : s.Enabled .engine
  · -- a block goes through the engine
    have hinput := Pipe.length_input_work (m := m) hwork.1
    have hlen := Pipe.length_work (p := s.engine) (m := m)
    refine ⟨.engine, hwork, ?_⟩
    unfold remaining step
    dsimp only
    split_ifs <;> omega
  · refine ⟨.code, hrbc, ?_⟩
    have hstuck : s.engine.output = [] → s.engine.input = [] := fun hout => by
      by_contra hinput
      exact hwork ⟨hinput, by rw [hout]; decide⟩
    unfold remaining step
    dsimp only
    cases hout : s.engine.output with
    | nil =>
      -- the engine is empty, so there is a block to write
      rw [hstuck hout, hout] at hsum
      cases hreading : s.reading with
      | true =>
        simp [hout]
      | false =>
        have hroom : s.wbc ≠ 0 ∧ 4 * s.engine.input.length ≤ 0xC := by
          rw [hstuck hout]
          exact ⟨fun hwbc => hrbc (by simpa [hwbc] using hsum), by decide⟩
        have hwbc := hroom.1
        rw [if_neg Bool.false_ne_true, if_pos hroom]
        simp only [Pipe.feed, hout, hstuck hout, List.length_append, List.length_nil, List.length_cons]
        split_ifs <;> omega
    | cons b output =>
      cases hreading : s.reading with
      | true =>
        simp only [if_true, Pipe.take, hout, List.tail_cons, List.length_cons]
        split_ifs <;> omega
      | false =>
        by_cases hroom : s.wbc ≠ 0 ∧ 4 * s.engine.input.length ≤ 0xC
        · have hwbc := hroom.1
          rw [if_neg Bool.false_ne_true, if_pos hroom]
          simp only [Pipe.feed, hout, List.length_append, List.length_nil, List.length_cons]
          split_ifs <;> omega
        · rw [if_neg Bool.false_ne_true, if_neg hroom]
          simp [hout]

end AesBatch

open AesBatch in
/-- `aes_batch` returns, and in whatever order the engine and the code have gone on, the results are where they belong. -/
theorem aesBatch_ends_iff (hahead : Ahead dst src n) (mem' : Memory UInt8) :
    Ends .beNormal m (aesBatch mem dst src n register) mem' ↔
      mem' = mem.store dst (blockBytes (results m mem src n register)) := by
  constructor
  · rintro ⟨s, hreach, hrbc, rfl⟩
    exact (good_of_reachable hahead hreach).done hrbc
  · rintro rfl
    have hends : ∀ k s, (system .beNormal m (aesBatch mem dst src n register)).Reachable s → s.remaining ≤ k →
        ∃ s', (system .beNormal m (aesBatch mem dst src n register)).Reachable s' ∧ s'.rbc = 0 := by
      intro k
      induction k with
      | zero =>
        intro s hreach hk
        refine ⟨s, hreach, ?_⟩
        by_contra hrbc
        obtain ⟨i, -, hless⟩ := (good_of_reachable hahead hreach).progress hrbc
        omega
      | succ k ih =>
        intro s hreach hk
        by_cases hrbc : s.rbc = 0
        · exact ⟨s, hreach, hrbc⟩
        · obtain ⟨i, henabled, hless⟩ := (good_of_reachable hahead hreach).progress hrbc
          exact ih _ (hreach.step ⟨henabled, rfl⟩) (by omega)
    obtain ⟨s, hreach, hrbc⟩ := hends _ _ (.init rfl) le_rfl
    exact ⟨s, hreach, hrbc, (good_of_reachable hahead hreach).done hrbc⟩

end Batch

/-! ## Texts -/

namespace AesMode

/-- All modes but `AES_ECB_ENCRYPT_MODE` and `AES_ECB_DECRYPT_MODE`. -/
def usesIv : AesMode → Bool
  | ecbDecrypt | ecbEncrypt => false
  | _ => true

/-- The format in `REG_AESCNT` during a batch, which `aes_setiv` sets together with the initial vector. -/
def inputMode (mode : AesMode) (ivMode : InputMode) : InputMode := if mode.usesIv then ivMode else .beNormal

/-- The initial vector for the next batch, from the memory before a batch and after it. -/
def nextIv (mode : AesMode) (ivMode : InputMode) (mem mem' : Memory UInt8) (dst src blocks : Nat) (iv : Quad) : Quad :=
  match mode with
  | cbcDecrypt => aesChangeCtrmode (quadAt mem (src + 16 * (blocks - 1))) .beNormal ivMode
  | cbcEncrypt => aesChangeCtrmode (quadAt mem' (dst + 16 * (blocks - 1))) .beNormal ivMode
  | ctr => aesAdvctr iv (.ofNat blocks) ivMode
  | ecbDecrypt | ecbEncrypt => iv

end AesMode

/-- `aes`: from a memory and an initial vector, with what memory and initial vector it may return. The initial vector is not
in the memory that is processed. -/
inductive Aes (key : Equiv.Perm Block) (mode : AesMode) (ivMode : InputMode) :
    Memory UInt8 → Nat → Nat → Nat → Quad → Memory UInt8 → Quad → Prop
  | done {mem dst src iv} : Aes key mode ivMode mem dst src 0 iv mem iv
  | batch {mem dst src blockCount iv register mem1 mem' iv'} (hcount : blockCount ≠ 0)
      (hregister : mode.usesIv = true → register = counterRegister ivMode (aesSetiv iv ivMode))
      (hends : AesBatch.Ends (mode.inputMode ivMode) (mode.engine key)
        (aesBatch mem dst src (min blockCount 0xFFFF) register) mem1)
      (hrest : Aes key mode ivMode mem1 (dst + 16 * min blockCount 0xFFFF) (src + 16 * min blockCount 0xFFFF)
        (blockCount - min blockCount 0xFFFF) (mode.nextIv ivMode mem mem1 dst src (min blockCount 0xFFFF) iv) mem' iv') :
      Aes key mode ivMode mem dst src blockCount iv mem' iv'

section Aes

variable {key : Equiv.Perm Block} {mode : AesMode} {mem mem' : Memory UInt8} {dst src n k : Nat} {iv iv' : Quad}

theorem iterate_succ (n : Nat) (s : Block) : (· + 1)^[n] s = s + BitVec.ofNat 128 n := by
  induction n with
  | zero => simp
  | succ n ih =>
    rw [Function.iterate_succ_apply', ih, BitVec.ofNat_add, BitVec.add_assoc]
    rfl

theorem results_add (m : BlockMode Block Block) (mem : Memory UInt8) (src n k : Nat) (register : Block) :
    results m mem src (n + k) register = results m mem src n register ++
      results m mem (src + 16 * n) k (m.after register (blocksAt mem src n)) := by
  unfold results
  rw [blocksAt_add, m.outs_append]

/-- In the modes without an initial vector, the register does not matter. -/
theorem results_ecb (h : mode.usesIv = false) (register register' : Block) :
    results (mode.engine key) mem src n register = results (mode.engine key) mem src n register' := by
  unfold results
  cases mode <;> simp [AesMode.usesIv] at h <;> unfold AesMode.engine <;> rw [BlockMode.outs_ecb, BlockMode.outs_ecb]

theorem getLastD_blocksAt (mem : Memory UInt8) (a : Nat) (hn : n ≠ 0) (d : Block) :
    (blocksAt mem a n).getLastD d = blockAt mem (a + 16 * (n - 1)) := by
  obtain ⟨n, rfl⟩ := Nat.exists_eq_succ_of_ne_zero hn
  rw [Nat.succ_eq_add_one, blocksAt_add, List.getLastD_eq_getLast?]
  simp [blocksAt]

/-- After a batch, the initial vector is what is in the register of the engine. -/
theorem inputBlock_nextIv (hn : n ≠ 0) (hle : n ≤ 0xFFFF) :
    inputBlock .beNormal (mode.nextIv .beNormal mem
      (mem.store dst (blockBytes (results (mode.engine key) mem src n (inputBlock .beNormal iv)))) dst src n iv) =
      (mode.engine key).after (inputBlock .beNormal iv) (blocksAt mem src n) := by
  cases mode with
  | ctr =>
    have hcount : (UInt32.ofNat n).toNat = n := by
      rw [UInt32.toNat_ofNat', Nat.mod_eq_of_lt (by omega)]
    show inputBlock .beNormal (aesAdvctr iv (.ofNat n) .beNormal) = _
    rw [inputBlock_advctr, hcount]
    unfold AesMode.engine
    rw [BlockMode.after_ctr, length_blocksAt, iterate_succ]
  | cbcDecrypt =>
    show inputBlock .beNormal (aesChangeCtrmode (quadAt mem (src + 16 * (n - 1))) .beNormal .beNormal) = _
    rw [inputBlock_changeCtrmode]
    unfold AesMode.engine
    rw [BlockMode.after_cbcDecrypt, getLastD_blocksAt mem src hn]
    rfl
  | cbcEncrypt =>
    generalize hresults : results (AesMode.cbcEncrypt.engine key) mem src n (inputBlock .beNormal iv) = bs
    have hlen : bs.length = n := by
      rw [← hresults, length_results]
    show inputBlock .beNormal (aesChangeCtrmode (quadAt _ (dst + 16 * (n - 1))) .beNormal .beNormal) = _
    rw [inputBlock_changeCtrmode]
    have hstored : blocksAt (mem.store dst (blockBytes bs)) dst n = bs := by
      rw [← hlen]
      exact blocksAt_store mem dst bs
    show blockAt (mem.store dst (blockBytes bs)) (dst + 16 * (n - 1)) = _
    rw [← getLastD_blocksAt _ dst hn (inputBlock .beNormal iv), hstored, ← hresults]
    exact (BlockMode.after_cbcEncrypt _ _).symm
  | ecbDecrypt => exact (BlockMode.after_ecb _ _).symm
  | ecbEncrypt => exact (BlockMode.after_ecb _ _).symm

theorem Ahead.mono (h : Ahead dst src n) (hk : k ≤ n) : Ahead dst src k := by
  unfold Ahead at *
  omega

theorem Ahead.drop (h : Ahead dst src n) (hk : k ≤ n) : Ahead (dst + 16 * k) (src + 16 * k) (n - k) := by
  unfold Ahead at *
  omega

/-- What has been written in a batch is not read in the next one. -/
theorem blocksAt_behind (h : Ahead dst src n) (hk : k ≤ n) {bs : List Block} (hbs : bs.length = k) :
    blocksAt (mem.store dst (blockBytes bs)) (src + 16 * k) (n - k) = blocksAt mem (src + 16 * k) (n - k) := by
  refine blocksAt_congr fun x hx hlt => store_outside _ ?_
  rw [length_blockBytes, hbs]
  rcases h with hbelow | habove
  · exact .inr (by omega)
  · exact .inl (by omega)

/-- One batch, and what is left to do. -/
theorem aes_batch_iff (hahead : Ahead dst src n) (hn : n ≠ 0) :
    Aes key mode .beNormal mem dst src n iv mem' iv' ↔
      ∃ iv1, inputBlock .beNormal iv1 =
          (mode.engine key).after (inputBlock .beNormal iv) (blocksAt mem src (min n 0xFFFF)) ∧
        Aes key mode .beNormal (mem.store dst (blockBytes
            (results (mode.engine key) mem src (min n 0xFFFF) (inputBlock .beNormal iv))))
          (dst + 16 * min n 0xFFFF) (src + 16 * min n 0xFFFF) (n - min n 0xFFFF) iv1 mem' iv' := by
  have hmin : min n 0xFFFF ≠ 0 := by omega
  have hfirst := hahead.mono (min_le_left n 0xFFFF)
  have him : mode.inputMode .beNormal = .beNormal := ite_self _
  have hregister : ∀ register, (mode.usesIv = true → register = counterRegister .beNormal (aesSetiv iv .beNormal)) →
      results (mode.engine key) mem src (min n 0xFFFF) register =
        results (mode.engine key) mem src (min n 0xFFFF) (inputBlock .beNormal iv) := by
    intro register h
    cases hiv : mode.usesIv with
    | true => rw [h hiv, counterRegister_setiv]
    | false => exact results_ecb hiv _ _
  constructor
  · intro h
    cases h with
    | done => exact absurd rfl hn
    | batch _ hreg hends hrest =>
      rw [him, aesBatch_ends_iff hfirst, hregister _ hreg] at hends
      subst hends
      exact ⟨_, inputBlock_nextIv hmin (min_le_right _ _), hrest⟩
  · rintro ⟨iv1, hiv1, hrest⟩
    have hsame : iv1 = mode.nextIv .beNormal mem (mem.store dst (blockBytes
        (results (mode.engine key) mem src (min n 0xFFFF) (inputBlock .beNormal iv)))) dst src (min n 0xFFFF) iv := by
      have hnext : inputBlock .beNormal (mode.nextIv .beNormal mem (mem.store dst (blockBytes
          (results (mode.engine key) mem src (min n 0xFFFF) (inputBlock .beNormal iv)))) dst src (min n 0xFFFF) iv) = _ :=
        inputBlock_nextIv hmin (min_le_right n 0xFFFF)
      have hblock := hiv1.trans hnext.symm
      rw [← outputQuad_inputBlock iv1, hblock, outputQuad_inputBlock]
    have hreg : mode.usesIv = true → inputBlock .beNormal iv = counterRegister .beNormal (aesSetiv iv .beNormal) :=
      fun _ => (counterRegister_setiv _ _).symm
    refine .batch hn hreg ?_ (hsame ▸ hrest)
    rw [him]
    exact (aesBatch_ends_iff hfirst _).mpr rfl

theorem aes_outs_iff (hahead : Ahead dst src n) : Aes key mode .beNormal mem dst src n iv mem' iv' ↔
    mem' = mem.store dst (blockBytes ((mode.engine key).outs (inputBlock .beNormal iv) (blocksAt mem src n))) ∧
      inputBlock .beNormal iv' = (mode.engine key).after (inputBlock .beNormal iv) (blocksAt mem src n) := by
  induction n using Nat.strong_induction_on generalizing mem dst src iv with
  | _ n ih =>
    by_cases hn : n = 0
    · subst hn
      simp only [blocksAt, List.range_zero, List.map_nil, BlockMode.outs_nil, BlockMode.after_nil, blockBytes, List.flatMap_nil,
        store_nil]
      constructor
      · intro h
        cases h with
        | done => exact ⟨rfl, rfl⟩
        | batch hcount => exact absurd rfl hcount
      · rintro ⟨rfl, hiv⟩
        have hsame : iv' = iv := by
          rw [← outputQuad_inputBlock iv', hiv, outputQuad_inputBlock]
        rw [hsame]
        exact .done
    · have hk : min n 0xFFFF ≤ n := min_le_left _ _
      have hlen : (results (mode.engine key) mem src (min n 0xFFFF) (inputBlock .beNormal iv)).length = min n 0xFFFF :=
        length_results
      have hsplit := results_add (mode.engine key) mem src (min n 0xFFFF) (n - min n 0xFFFF) (inputBlock .beNormal iv)
      have hblocks := blocksAt_add mem src (min n 0xFFFF) (n - min n 0xFFFF)
      rw [Nat.add_sub_cancel' hk] at hsplit hblocks
      have hrest : ∀ iv1, inputBlock .beNormal iv1 =
          (mode.engine key).after (inputBlock .beNormal iv) (blocksAt mem src (min n 0xFFFF)) →
          (Aes key mode .beNormal (mem.store dst (blockBytes
              (results (mode.engine key) mem src (min n 0xFFFF) (inputBlock .beNormal iv))))
            (dst + 16 * min n 0xFFFF) (src + 16 * min n 0xFFFF) (n - min n 0xFFFF) iv1 mem' iv' ↔
          mem' = mem.store dst (blockBytes (results (mode.engine key) mem src n (inputBlock .beNormal iv))) ∧
            inputBlock .beNormal iv' = (mode.engine key).after (inputBlock .beNormal iv) (blocksAt mem src n)) := by
        intro iv1 hiv1
        rw [ih _ (by omega) (hahead.drop hk), blocksAt_behind hahead hk hlen, hiv1, hsplit, blockBytes_append, store_append,
          length_blockBytes, hlen, hblocks, (mode.engine key).after_append]
        rfl
      rw [aes_batch_iff hahead hn]
      constructor
      · rintro ⟨iv1, hiv1, h⟩
        exact (hrest iv1 hiv1).mp h
      · intro h
        have hiv1 := inputBlock_outputQuad ((mode.engine key).after (inputBlock .beNormal iv) (blocksAt mem src (min n 0xFFFF)))
        exact ⟨_, hiv1, (hrest _ hiv1).mpr h⟩

/-- A key that inverts all bits. -/
def invertAll : Equiv.Perm Block := Function.Involutive.toPerm (~~~·) fun _ => BitVec.not_not

/-- `aes` returns with what the mode gives for the whole text, however many batches it takes and in whatever order the engine
and the code go on, with the text at its own place or elsewhere, and the initial vector is ready for a text that follows. -/
theorem aes_iff (hahead : Ahead dst src n) : (∃ mem' iv', Aes key mode .beNormal mem dst src n iv mem' iv') ∧
    ∀ mem' iv', Aes key mode .beNormal mem dst src n iv mem' iv' ↔
      mem' = mem.store dst (blockBytes ((mode.engine key).outs (inputBlock .beNormal iv) (blocksAt mem src n))) ∧
        inputBlock .beNormal iv' = (mode.engine key).after (inputBlock .beNormal iv) (blocksAt mem src n) :=
  ⟨⟨_, _, (aes_outs_iff hahead).mpr ⟨rfl, inputBlock_outputQuad _⟩⟩, fun _ _ => aes_outs_iff hahead⟩

/-- A text of two batches, at its own place. -/
theorem aes_twoBatches :
    Aes invertAll .cbcDecrypt .beNormal (fun a => .ofNat a) 0x100 0x100 0x10000 ⟨1, 2, 3, 4⟩
      (store (fun a => .ofNat a) 0x100 (blockBytes ((AesMode.cbcDecrypt.engine invertAll).outs
        (inputBlock .beNormal ⟨1, 2, 3, 4⟩) (blocksAt (fun a => .ofNat a) 0x100 0x10000))))
      (outputQuad ((AesMode.cbcDecrypt.engine invertAll).after (inputBlock .beNormal ⟨1, 2, 3, 4⟩)
        (blocksAt (fun a => .ofNat a) 0x100 0x10000))) :=
  ((aes_iff (.inl le_rfl)).2 _ _).mpr ⟨rfl, inputBlock_outputQuad _⟩

end Aes

end Omiiba.Arm9
