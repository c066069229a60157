/-
CTRNAND, after crypto.c: sectors of the NAND or of an EmuNAND on the SD card, which are encrypted with a counter that
follows their place, and what their readers and writers see of them.
-/
import Omiiba.Arm9.Aes
import Omiiba.Lib.Simulation

namespace Omiiba.Arm9

open Memory

/-! ## The code -/

inductive FirmwareSource
  | sysnand
  | emunand
  deriving DecidableEq

/-- The bytes of the two devices, the key in `nandSlot`, and the variables that say where CTRNAND is. -/
structure CtrNand where
  nand : Memory UInt8
  sd : Memory UInt8
  key : Equiv.Perm Block
  nandCtr : Quad
  fatStart : UInt32
  ctrNandLocation : FirmwareSource
  emuOffset : UInt32

/-- `sdmmc_nand_readsectors` and `sdmmc_sdcard_readsectors`; one that fails leaves something in the buffer. -/
def sdmmcReadsectors (device : Memory UInt8) (fault : Option (Memory UInt8)) (sector count : UInt32) (out : Nat)
    (mem : Memory UInt8) : Memory UInt8 :=
  mem.store out (match fault with
    | none => device.read (0x200 * sector.toNat) (0x200 * count.toNat)
    | some junk => junk.read 0 (0x200 * count.toNat))

/-- `sdmmc_nand_writesectors`; one that fails leaves something in the sectors. -/
def sdmmcNandWritesectors (nand : Memory UInt8) (fault : Option (Memory UInt8)) (sector count : UInt32) (inbuf : Nat)
    (mem : Memory UInt8) : Memory UInt8 :=
  nand.store (0x200 * sector.toNat) (match fault with
    | none => mem.read inbuf (0x200 * count.toNat)
    | some junk => junk.read 0 (0x200 * count.toNat))

namespace CtrNand

variable (s : CtrNand)

/-- `tmpCtr`, at the first sector. -/
def startCtr (sector : UInt32) : Quad := aesAdvctr s.nandCtr (((sector + s.fatStart) * 0x200) / 16) .beNormal

/-- `ctrNandRead`: what it may leave in the memory. Its result is 0 if `fault` is not there. -/
def Read (sector sectorCount : UInt32) (outbuf : Nat) (fault : Option (Memory UInt8)) (mem mem' : Memory UInt8) : Prop :=
  let read := match s.ctrNandLocation with
    | .sysnand => sdmmcReadsectors s.nand fault (sector + s.fatStart) sectorCount outbuf mem
    | .emunand => sdmmcReadsectors s.sd fault (sector + s.emuOffset + s.fatStart) sectorCount outbuf mem
  ∃ tmpCtr', Aes s.key .ctr .beNormal read outbuf outbuf (sectorCount * 0x200 / 16).toNat (s.startCtr sector) mem' tmpCtr'

/-- The buffer of `ctrNandWrite`, of 0x4000 bytes. -/
def writeBuffer : Nat := 0xFFF00000

/-- `tempCount`. -/
def tempCount (sectorCount tempSector : UInt32) : UInt32 :=
  if 0x20 < sectorCount - tempSector then 0x20 else sectorCount - tempSector

/-- What is to be written from `tempSector` on is copied into the buffer and encrypted there. -/
def EncryptChunk (sectorCount : UInt32) (inbuf : Nat) (tempSector : UInt32) (mem : Memory UInt8) (tmpCtr : Quad)
    (mem' : Memory UInt8) (tmpCtr' : Quad) : Prop :=
  Aes s.key .ctr .beNormal (mem.store writeBuffer (mem.read (inbuf + (tempSector * 0x200).toNat)
    (tempCount sectorCount tempSector * 0x200).toNat)) writeBuffer writeBuffer
    (tempCount sectorCount tempSector * 0x200 / 16).toNat tmpCtr mem' tmpCtr'

/-- The loop of `ctrNandWrite`, from `tempSector`: the NAND that it starts with and one that it may leave, and if its result
is 0. -/
inductive WriteLoop (sector sectorCount : UInt32) (inbuf : Nat) (faults : UInt32 → Option (Memory UInt8)) :
    UInt32 → Memory UInt8 → Quad → Memory UInt8 → Memory UInt8 → Bool → Prop
  | done {tempSector mem tmpCtr nand} (hend : ¬tempSector < sectorCount) :
      WriteLoop sector sectorCount inbuf faults tempSector mem tmpCtr nand nand true
  | chunk {tempSector mem tmpCtr nand mem1 tmpCtr1 nand' ok} (hin : tempSector < sectorCount)
      (haes : s.EncryptChunk sectorCount inbuf tempSector mem tmpCtr mem1 tmpCtr1)
      (hwritten : faults tempSector = none)
      (hrest : WriteLoop sector sectorCount inbuf faults (tempSector + 0x20) mem1 tmpCtr1 (sdmmcNandWritesectors nand none
        (tempSector + sector + s.fatStart) (tempCount sectorCount tempSector) writeBuffer mem1) nand' ok) :
      WriteLoop sector sectorCount inbuf faults tempSector mem tmpCtr nand nand' ok
  | failed {tempSector mem tmpCtr nand mem1 tmpCtr1 junk} (hin : tempSector < sectorCount)
      (haes : s.EncryptChunk sectorCount inbuf tempSector mem tmpCtr mem1 tmpCtr1)
      (hfailed : faults tempSector = some junk) :
      WriteLoop sector sectorCount inbuf faults tempSector mem tmpCtr nand (sdmmcNandWritesectors nand (some junk)
        (tempSector + sector + s.fatStart) (tempCount sectorCount tempSector) writeBuffer mem1) false

/-- `ctrNandWrite`. -/
def Write (sector sectorCount : UInt32) (inbuf : Nat) (faults : UInt32 → Option (Memory UInt8)) (mem nand' : Memory UInt8)
    (ok : Bool) : Prop :=
  s.WriteLoop sector sectorCount inbuf faults 0 mem (s.startCtr sector) s.nand nand' ok

end CtrNand

/-! ## The plain NAND -/

/-- The plain blocks of an image that is encrypted from a counter on. -/
def plain (key : Equiv.Perm Block) (ctr : Block) (image : Memory UInt8) : Memory Block :=
  fun k => blockAt image (16 * k) ^^^ key (ctr + BitVec.ofNat 128 k)

/-- What CTRNAND is to its users. -/
structure PlainNand where
  sysnand : Memory Block
  emunand : Memory Block
  location : FirmwareSource

/-- What is read and written: the first block and the data, and if the call succeeds. -/
inductive NandEvent
  | read (start : Nat) (data : List Block) (ok : Bool)
  | write (start : Nat) (data : List Block) (ok : Bool)

namespace PlainNand

/-- Where it is read from. -/
def source (p : PlainNand) : Memory Block :=
  match p.location with
  | .sysnand => p.sysnand
  | .emunand => p.emunand

/-- What is read is what is there. What is written goes to the NAND, from either location; of what is not written completely,
something else may be there behind what is written. -/
inductive Step : PlainNand → NandEvent → PlainNand → Prop
  | read {p start data ok} (h : ok = true → data = p.source.read start data.length) : Step p (.read start data ok) p
  | write {p start data} : Step p (.write start data true) { p with sysnand := p.sysnand.store start data }
  | failed {p start data whole junk} (h : (data.take whole ++ junk).length ≤ data.length) :
      Step p (.write start data false) { p with sysnand := p.sysnand.store start (data.take whole ++ junk) }

/-- An array of blocks. -/
def system : System PlainNand NandEvent := ⟨fun _ => True, Step⟩

end PlainNand

namespace CtrNand

variable (s : CtrNand)

/-- The counter of the first block. -/
def ctr : Block := inputBlock .beNormal s.nandCtr

def abs : PlainNand where
  sysnand := plain s.key s.ctr s.nand
  emunand := plain s.key s.ctr fun a => s.sd (0x200 * s.emuOffset.toNat + a)
  location := s.ctrNandLocation

/-- The sectors of a call, which are below 4 GiB in their image. -/
structure InRange (sector sectorCount : UInt32) : Prop where
  image : sector.toNat + s.fatStart.toNat + sectorCount.toNat < 2 ^ 23
  card : sector.toNat + s.emuOffset.toNat + s.fatStart.toNat < 2 ^ 32

/-- The calls of `ctrNandRead` and of `ctrNandWrite`, the latter of data that is not in its buffer. -/
inductive Step : CtrNand → NandEvent → CtrNand → Prop
  | read {s : CtrNand} {sector sectorCount outbuf fault mem mem'} (hrange : s.InRange sector sectorCount)
      (hread : s.Read sector sectorCount outbuf fault mem mem') :
      Step s (.read (32 * (sector.toNat + s.fatStart.toNat)) (blocksAt mem' outbuf (32 * sectorCount.toNat)) fault.isNone) s
  | write {s : CtrNand} {sector sectorCount inbuf faults mem nand' ok} (hrange : s.InRange sector sectorCount)
      (hbelow : inbuf + 0x200 * sectorCount.toNat ≤ writeBuffer) (hwrite : s.Write sector sectorCount inbuf faults mem nand' ok) :
      Step s (.write (32 * (sector.toNat + s.fatStart.toNat)) (blocksAt mem inbuf (32 * sectorCount.toNat)) ok)
        { s with nand := nand' }

def system : System CtrNand NandEvent := ⟨fun _ => True, Step⟩

end CtrNand

/-! ## Encrypted blocks -/

section Plain

variable {key : Equiv.Perm Block} {ctr : Block} {image mem : Memory UInt8} {a n : Nat}

/-- What the counter mode gives from the counter of a block on. -/
def stream (key : Equiv.Perm Block) (ctr : Block) (a : Nat) (bs : List Block) : List Block :=
  (AesMode.ctr.engine key).outs (ctr + BitVec.ofNat 128 a) bs

@[simp] theorem length_stream (bs : List Block) : (stream key ctr a bs).length = bs.length := by
  simp [stream]

theorem getElem_stream (bs : List Block) {i : Nat} (h : i < bs.length) (hi : i < (stream key ctr a bs).length) :
    (stream key ctr a bs)[i] = bs[i] ^^^ key (ctr + BitVec.ofNat 128 (a + i)) := by
  unfold stream AesMode.engine
  simp only [BlockMode.outs_ctr, List.getElem_mapIdx]
  rw [iterate_succ, BitVec.add_assoc, ← BitVec.ofNat_add]

theorem plain_store_outside (image : Memory UInt8) {bytes : List UInt8} (h : bytes.length = 16 * n) {k : Nat}
    (hout : k < a ∨ a + n ≤ k) : plain key ctr (image.store (16 * a) bytes) k = plain key ctr image k :=
  congrArg (inputBlock .beNormal · ^^^ key (ctr + BitVec.ofNat 128 k))
    (quadAt_congr fun x hx hlt => store_outside _ (by rw [h]; omega))

/-- Blocks that are encrypted from their counter on and stored at their place. -/
theorem plain_store (image : Memory UInt8) (a : Nat) (bs : List Block) :
    plain key ctr (image.store (16 * a) (blockBytes (stream key ctr a bs))) = (plain key ctr image).store a bs := by
  funext k
  by_cases hin : a ≤ k ∧ k - a < bs.length
  · obtain ⟨hle, hlt⟩ := hin
    obtain ⟨i, rfl⟩ := Nat.exists_eq_add_of_le hle
    rw [Nat.add_sub_cancel_left] at hlt
    have hstored := blockAt_store image (16 * a) (stream key ctr a bs) (i := i) (by rwa [length_stream])
    rw [getElem_stream _ hlt] at hstored
    rw [store_inside _ hle (by omega)]
    show blockAt _ (16 * (a + i)) ^^^ _ = _
    rw [Nat.mul_add, hstored, BitVec.xor_assoc, BitVec.xor_self, BitVec.xor_zero]
    congr 1
    omega
  · rw [store_outside _ (by omega), plain_store_outside image (by rw [length_blockBytes, length_stream]) (by omega)]

/-- Whatever is written over blocks, it is something to the readers. -/
theorem plain_store_junk (key : Equiv.Perm Block) (ctr : Block) (image : Memory UInt8) (a : Nat) {bytes : List UInt8}
    (h : bytes.length = 16 * n) :
    ∃ junk : List Block, junk.length = n ∧ plain key ctr (image.store (16 * a) bytes) = (plain key ctr image).store a junk := by
  refine ⟨(plain key ctr (image.store (16 * a) bytes)).read a n, by simp, ?_⟩
  funext k
  by_cases hin : a ≤ k ∧ k - a < n
  · obtain ⟨hle, hlt⟩ := hin
    rw [store_inside _ hle (by simpa using hlt)]
    simp only [Memory.read, List.getElem_map, List.getElem_range]
    rw [Nat.add_sub_cancel' hle]
  · rw [store_outside _ (by simp only [read_length]; omega), plain_store_outside image h (by omega)]

/-- The blocks of what is copied. -/
theorem blocksAt_copied (mem device : Memory UInt8) (a b n : Nat) :
    blocksAt (mem.store a (device.read b (16 * n))) a n = blocksAt device b n := by
  refine List.map_congr_left fun i hi => ?_
  rw [List.mem_range] at hi
  refine congrArg (inputBlock .beNormal) ?_
  have hbyte : ∀ x < 16, mem.store a (device.read b (16 * n)) (a + 16 * i + x) = device (b + 16 * i + x) := by
    intro x hx
    rw [store_inside _ (by omega) (by simp only [read_length]; omega)]
    simp only [Memory.read, List.getElem_map, List.getElem_range]
    congr 1
    omega
  have hword : ∀ x, x + 4 ≤ 16 → (mem.store a (device.read b (16 * n))).load (a + 16 * i + x) 4 = device.load (b + 16 * i + x) 4 :=
    fun x hx => load_eq fun j hj => by
      have hj' := hbyte (x + j) (by omega)
      rwa [← Nat.add_assoc, ← Nat.add_assoc] at hj'
  unfold quadAt
  rw [hword 4 (by omega), hword 8 (by omega), hword 12 (by omega)]
  have hfirst := hword 0 (by omega)
  rw [Nat.add_zero, Nat.add_zero] at hfirst
  rw [hfirst]

/-- Bytes of blocks are read back as they were stored. -/
theorem read_blockBytes (mem : Memory UInt8) (a : Nat) (bs : List Block) :
    (mem.store a (blockBytes bs)).read a (16 * bs.length) = blockBytes bs := by
  have hread := @read_store_take _ mem a (blockBytes bs) (16 * bs.length) (by simp)
  rwa [List.take_of_length_le (by simp)] at hread

/-- Encrypting or decrypting in place, from the counter of a block on. -/
theorem aes_stream {buf : Nat} {iv iv' : Quad} {mem' : Memory UInt8} (h : Aes key .ctr .beNormal mem buf buf n iv mem' iv')
    (hiv : inputBlock .beNormal iv = ctr + BitVec.ofNat 128 a) :
    mem' = mem.store buf (blockBytes (stream key ctr a (blocksAt mem buf n))) ∧
      inputBlock .beNormal iv' = ctr + BitVec.ofNat 128 (a + n) := by
  obtain ⟨hmem, hiv'⟩ := (aes_outs_iff (.inl le_rfl)).mp h
  rw [hiv] at hmem hiv'
  refine ⟨hmem, hiv'.trans ?_⟩
  unfold AesMode.engine
  rw [BlockMode.after_ctr, length_blocksAt, iterate_succ, BitVec.add_assoc, ← BitVec.ofNat_add]

theorem aes_returns (key : Equiv.Perm Block) (mem : Memory UInt8) (buf n : Nat) (iv : Quad) :
    ∃ mem' iv', Aes key .ctr .beNormal mem buf buf n iv mem' iv' :=
  ⟨_, _, (aes_outs_iff (.inl le_rfl)).mpr ⟨rfl, inputBlock_outputQuad _⟩⟩

end Plain

namespace CtrNand

variable {s s' : CtrNand} {evs : List NandEvent} {sector sectorCount : UInt32}

/-! ## Reading -/

theorem InRange.base (h : s.InRange sector sectorCount) : (sector + s.fatStart).toNat = sector.toNat + s.fatStart.toNat := by
  have himage := h.image
  rw [UInt32.toNat_add]
  omega

theorem toNat_blocks {count : UInt32} (h : count.toNat < 2 ^ 23) : (count * 0x200 / 16).toNat = 32 * count.toNat := by
  rw [UInt32.toNat_div, UInt32.toNat_mul, show (0x200 : UInt32).toNat = 0x200 from rfl, show (16 : UInt32).toNat = 16 from rfl]
  omega

section Write

variable {inbuf : Nat} {faults : UInt32 → Option (Memory UInt8)} {mem mem1 nand nand' : Memory UInt8} {tmpCtr tmpCtr1 : Quad}
  {tempSector : UInt32} {ok : Bool}

theorem toNat_tempCount (hin : tempSector < sectorCount) :
    (tempCount sectorCount tempSector).toNat = min 32 (sectorCount.toNat - tempSector.toNat) := by
  have hsub : (sectorCount - tempSector).toNat = sectorCount.toNat - tempSector.toNat :=
    UInt32.toNat_sub_of_le _ _ (UInt32.le_of_lt hin)
  unfold tempCount
  split_ifs with h <;> rw [UInt32.lt_iff_toNat_lt, hsub, show (0x20 : UInt32).toNat = 32 from rfl] at h
  · exact (min_eq_left h.le).symm
  · rw [hsub]
    exact (min_eq_right (by omega)).symm

/-- What is in the buffer when a chunk is written, and what stays below it. -/
theorem chunk_buffer (hcount : sectorCount.toNat < 2 ^ 23) (hin : tempSector < sectorCount)
    (haes : s.EncryptChunk sectorCount inbuf tempSector mem tmpCtr mem1 tmpCtr1) {a : Nat}
    (hiv : inputBlock .beNormal tmpCtr = s.ctr + BitVec.ofNat 128 a) :
    mem1.read writeBuffer (0x200 * (tempCount sectorCount tempSector).toNat) = blockBytes (stream s.key s.ctr a
        (blocksAt mem (inbuf + 0x200 * tempSector.toNat) (32 * (tempCount sectorCount tempSector).toNat))) ∧
      (∀ x < writeBuffer, mem1 x = mem x) ∧
      inputBlock .beNormal tmpCtr1 = s.ctr + BitVec.ofNat 128 (a + 32 * (tempCount sectorCount tempSector).toNat) := by
  have hlt := UInt32.lt_iff_toNat_lt.mp hin
  have htemp := toNat_tempCount hin
  have hplace : (tempSector * 0x200).toNat = 0x200 * tempSector.toNat := by
    rw [UInt32.toNat_mul, show (0x200 : UInt32).toNat = 0x200 from rfl]
    omega
  have hbytes : (tempCount sectorCount tempSector * 0x200).toNat = 16 * (32 * (tempCount sectorCount tempSector).toNat) := by
    rw [UInt32.toNat_mul, show (0x200 : UInt32).toNat = 0x200 from rfl]
    omega
  unfold EncryptChunk at haes
  rw [toNat_blocks (by omega), hplace, hbytes] at haes
  obtain ⟨hmem1, hiv1⟩ := aes_stream haes hiv
  rw [blocksAt_copied] at hmem1
  have hlen : (blockBytes (stream s.key s.ctr a (blocksAt mem (inbuf + 0x200 * tempSector.toNat)
      (32 * (tempCount sectorCount tempSector).toNat)))).length = 16 * (32 * (tempCount sectorCount tempSector).toNat) := by
    simp
  refine ⟨?_, fun x hx => ?_, hiv1⟩
  · have hread := read_blockBytes (mem.store writeBuffer (mem.read (inbuf + 0x200 * tempSector.toNat)
      (16 * (32 * (tempCount sectorCount tempSector).toNat)))) writeBuffer (stream s.key s.ctr a
        (blocksAt mem (inbuf + 0x200 * tempSector.toNat) (32 * (tempCount sectorCount tempSector).toNat)))
    rw [← hmem1, length_stream, length_blocksAt] at hread
    rwa [show 0x200 * (tempCount sectorCount tempSector).toNat = 16 * (32 * (tempCount sectorCount tempSector).toNat) by omega]
  · rw [hmem1, store_outside _ (.inl hx), store_outside _ (.inl hx)]

/-- What the loop leaves on the NAND, from a sector on: the data, or the part of it in front of a chunk that fails. -/
theorem WriteLoop.written (hrange : s.InRange sector sectorCount) (hbelow : inbuf + 0x200 * sectorCount.toNat ≤ writeBuffer)
    (h : s.WriteLoop sector sectorCount inbuf faults tempSector mem tmpCtr nand nand' ok)
    (hiv : inputBlock .beNormal tmpCtr = s.ctr + BitVec.ofNat 128 (32 * (sector.toNat + s.fatStart.toNat + tempSector.toNat))) :
    ∃ bs, plain s.key s.ctr nand' =
        (plain s.key s.ctr nand).store (32 * (sector.toNat + s.fatStart.toNat + tempSector.toNat)) bs ∧
      (ok = true → bs = blocksAt mem (inbuf + 0x200 * tempSector.toNat) (32 * (sectorCount.toNat - tempSector.toNat))) ∧
      (ok = false → ∃ whole junk, bs = (blocksAt mem (inbuf + 0x200 * tempSector.toNat)
          (32 * (sectorCount.toNat - tempSector.toNat))).take whole ++ junk ∧
        bs.length ≤ 32 * (sectorCount.toNat - tempSector.toNat)) := by
  have himage := hrange.image
  have hplace : ∀ t : UInt32, t < sectorCount → 0x200 * (t + sector + s.fatStart).toNat =
      16 * (32 * (sector.toNat + s.fatStart.toNat + t.toNat)) := by
    intro t ht
    have hlt := UInt32.lt_iff_toNat_lt.mp ht
    rw [UInt32.toNat_add, UInt32.toNat_add]
    omega
  induction h with
  | @done t mem tmpCtr nand hend =>
    have hle : sectorCount.toNat ≤ t.toNat := Nat.le_of_not_lt fun hlt => hend (UInt32.lt_iff_toNat_lt.mpr hlt)
    refine ⟨[], (store_nil _ _).symm, fun _ => ?_, nofun⟩
    rw [Nat.sub_eq_zero_of_le hle]
    rfl
  | @chunk t mem tmpCtr nand mem1 tmpCtr1 nand' ok hin haes hwritten _ ih =>
    have hlt := UInt32.lt_iff_toNat_lt.mp hin
    have htemp := toNat_tempCount hin
    obtain ⟨hbuffer, hsame, hiv1⟩ := chunk_buffer (by omega) hin haes hiv
    -- what is written of this chunk
    have hnand : plain s.key s.ctr (sdmmcNandWritesectors nand none (t + sector + s.fatStart) (tempCount sectorCount t) writeBuffer
        mem1) = (plain s.key s.ctr nand).store (32 * (sector.toNat + s.fatStart.toNat + t.toNat))
          (blocksAt mem (inbuf + 0x200 * t.toNat) (32 * (tempCount sectorCount t).toNat)) := by
      unfold sdmmcNandWritesectors
      dsimp only
      rw [hplace t hin, hbuffer, plain_store]
    have hnext : (t + 0x20).toNat = t.toNat + 32 := by
      rw [UInt32.toNat_add, show (0x20 : UInt32).toNat = 32 from rfl]
      omega
    have hrest : blocksAt mem1 (inbuf + 0x200 * (t.toNat + 32)) (32 * (sectorCount.toNat - (t.toNat + 32))) =
        blocksAt mem (inbuf + 0x200 * (t.toNat + 32)) (32 * (sectorCount.toNat - (t.toNat + 32))) :=
      blocksAt_congr fun x hx hx' => hsame x (by omega)
    rcases Nat.lt_or_ge 32 (sectorCount.toNat - t.toNat) with hmore | hlast
    · -- a whole chunk, and others behind it
      rw [min_eq_left hmore.le] at htemp
      rw [htemp] at hiv1 hnand
      rw [hnext, hrest, hnand] at ih
      have hshift : 32 * (sector.toNat + s.fatStart.toNat + t.toNat) + 32 * 32 =
          32 * (sector.toNat + s.fatStart.toNat + (t.toNat + 32)) := by omega
      obtain ⟨bs, hplain, hok, hfail⟩ := ih (by rw [hiv1, hshift])
      have hsplit : blocksAt mem (inbuf + 0x200 * t.toNat) (32 * (sectorCount.toNat - t.toNat)) =
          blocksAt mem (inbuf + 0x200 * t.toNat) (32 * 32) ++
            blocksAt mem (inbuf + 0x200 * (t.toNat + 32)) (32 * (sectorCount.toNat - (t.toNat + 32))) := by
        rw [show 32 * (sectorCount.toNat - t.toNat) = 32 * 32 + 32 * (sectorCount.toNat - (t.toNat + 32)) by omega, blocksAt_add,
          show inbuf + 0x200 * t.toNat + 16 * (32 * 32) = inbuf + 0x200 * (t.toNat + 32) by omega]
      have hlen : (blocksAt mem (inbuf + 0x200 * t.toNat) (32 * 32)).length = 32 * 32 := length_blocksAt _ _ _
      refine ⟨blocksAt mem (inbuf + 0x200 * t.toNat) (32 * 32) ++ bs, ?_, fun h => ?_, fun h => ?_⟩
      · rw [hplain, store_append, hlen,
          show 32 * (sector.toNat + s.fatStart.toNat + (t.toNat + 32)) =
            32 * (sector.toNat + s.fatStart.toNat + t.toNat) + 32 * 32 by omega]
      · rw [hok h, hsplit]
      · obtain ⟨whole, junk, hbs, hle⟩ := hfail h
        refine ⟨32 * 32 + whole, junk, ?_, ?_⟩
        · rw [hsplit, List.take_append, hlen, List.take_of_length_le (by omega), Nat.add_sub_cancel_left, hbs, List.append_assoc]
        · rw [List.length_append, hlen]
          omega
    · -- the last chunk
      rw [min_eq_right hlast] at htemp
      rw [htemp] at hiv1 hnand
      have hnone : 32 * (sectorCount.toNat - (t.toNat + 32)) = 0 := by omega
      rw [hnext, hnone, hnand] at ih
      cases ‹s.WriteLoop _ _ _ _ (t + 0x20) _ _ _ _ _› with
      | done =>
        refine ⟨_, hnand, fun _ => rfl, nofun⟩
      | chunk hin' => exact absurd (UInt32.lt_iff_toNat_lt.mp hin') (by omega)
      | failed hin' => exact absurd (UInt32.lt_iff_toNat_lt.mp hin') (by omega)
  | @failed t mem tmpCtr nand mem1 tmpCtr1 junk hin haes hfailed =>
    have hlt := UInt32.lt_iff_toNat_lt.mp hin
    have htemp := toNat_tempCount hin
    have hjunk : (junk.read 0 (0x200 * (tempCount sectorCount t).toNat)).length = 16 * (32 * (tempCount sectorCount t).toNat) := by
      rw [read_length]
      omega
    obtain ⟨bs, hlen, hplain⟩ := plain_store_junk s.key s.ctr nand (32 * (sector.toNat + s.fatStart.toNat + t.toNat)) hjunk
    refine ⟨bs, ?_, nofun, fun _ => ⟨0, bs, rfl, by omega⟩⟩
    unfold sdmmcNandWritesectors
    dsimp only
    rw [hplace t hin, hplain]

/-- The loop ends, and it succeeds if no chunk fails. -/
theorem WriteLoop.returns (hcount : sectorCount.toNat < 2 ^ 23) (tempSector : UInt32) (mem : Memory UInt8) (tmpCtr : Quad)
    (nand : Memory UInt8) : ∃ nand' ok, s.WriteLoop sector sectorCount inbuf faults tempSector mem tmpCtr nand nand' ok ∧
      ((∀ t, faults t = none) → ok = true) := by
  induction hleft : sectorCount.toNat - tempSector.toNat using Nat.strong_induction_on generalizing tempSector mem tmpCtr nand with
  | _ left ih =>
    by_cases hin : tempSector < sectorCount
    · have hlt := UInt32.lt_iff_toNat_lt.mp hin
      obtain ⟨mem1, tmpCtr1, haes⟩ := aes_returns s.key (mem.store writeBuffer (mem.read
        (inbuf + (tempSector * 0x200).toNat) (tempCount sectorCount tempSector * 0x200).toNat)) writeBuffer
        (tempCount sectorCount tempSector * 0x200 / 16).toNat tmpCtr
      cases hfault : faults tempSector with
      | some junk => exact ⟨_, _, .failed hin haes hfault, fun h => by simp [h tempSector] at hfault⟩
      | none =>
        have hnext : (tempSector + 0x20).toNat = tempSector.toNat + 32 := by
          rw [UInt32.toNat_add, show (0x20 : UInt32).toNat = 32 from rfl]
          omega
        obtain ⟨nand', ok, hrest, hok⟩ := ih (sectorCount.toNat - (tempSector + 0x20).toNat) (by omega) (tempSector + 0x20) mem1
          tmpCtr1 (sdmmcNandWritesectors nand none (tempSector + sector + s.fatStart) (tempCount sectorCount tempSector)
            writeBuffer mem1) rfl
        exact ⟨nand', ok, .chunk hin haes hfault hrest, hok⟩
    · exact ⟨_, _, .done hin, fun _ => rfl⟩

end Write

/-! ## Runs -/

end CtrNand

end Omiiba.Arm9
