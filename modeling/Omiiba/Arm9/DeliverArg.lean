/-
The argument that is handed over to the next boot, after deliver_arg.c: how it is written to the memory that survives, plain or
spread out, and how the next boot reads and checks it.
-/
import Mathlib.Data.UInt
import Omiiba.Arm9.Crc
import Omiiba.Lib.CheckField
import Omiiba.Lib.Strided

namespace Omiiba.Arm9

open Memory

/-! ## The code -/

/-- `deliverArg` and `deliverArgLoaded`, and what is preserved across reboots: `CFG_BOOTENV`, and the memory from 0x20000000 on. -/
structure DeliverArgState where
  fcram : Memory UInt8
  bootenv : UInt32
  deliverArg : Memory UInt8
  deliverArgLoaded : Bool

/-- `copyFromLegacyModeFcram`: 2 bytes with a stride of 8. -/
def copyFromLegacyModeFcram (dst src : Memory UInt8) (size : Nat) : Memory UInt8 := copyStrided 2 2 8 (size / 2) src dst

/-- `copyToLegacyModeFcram`. -/
def copyToLegacyModeFcram (dst src : Memory UInt8) (size : Nat) : Memory UInt8 := copyStrided 2 8 2 (size / 2) src dst

/-- `memset` with zero. -/
def zeroFill (m : Memory UInt8) (a n : Nat) : Memory UInt8 := m.store a (List.replicate n 0)

/-- The block of the TWL launcher begins with `TLNC`. -/
def hasMagic (deliverArg : Memory UInt8) : Bool := deliverArg.read 0x300 4 = [0x54, 0x4C, 0x4E, 0x43]

/-- The checks of `loadDeliverArg` on the block of the TWL launcher. -/
def tlncValid (deliverArg : Memory UInt8) : Bool :=
  let crcLen := (deliverArg 0x305).toNat
  hasMagic deliverArg ∧ ¬8 + crcLen > 0x100 ∧ deliverArg.load 0x306 2 = (crc16 (deliverArg.read 0x308 crcLen) 0xFFFF).toNat

/-- What `loadDeliverArg` puts into `deliverArg`, the first time that it is called. -/
def readDeliverArg (s : DeliverArgState) : Memory UInt8 :=
  if s.bootenv &&& 1 = 0 then zeroFill s.deliverArg 0 0x1000
  else if s.bootenv >>> 1 = 0 then
    let deliverArg := s.deliverArg.store 0 (s.fcram.read 0 0x1000)
    let testPattern := deliverArg.load 0x438 4
    let crc := deliverArg.load 0x43C 4
    let deliverArg := deliverArg.store 0x43C (leBytes 4 0)
    let expectedCrc := crc32 (deliverArg.read 0x400 0x140) 0xFFFFFFFF
    let deliverArg := deliverArg.store 0x43C (leBytes 4 crc)
    if testPattern ≠ 0xFFFF ∨ crc ≠ expectedCrc.toNat then zeroFill deliverArg 0 0x1000 else deliverArg
  else
    let deliverArg := copyFromLegacyModeFcram s.deliverArg s.fcram 0x400
    let deliverArg := if tlncValid deliverArg then deliverArg else zeroFill deliverArg 0x300 0x100
    zeroFill deliverArg 0x400 0xC00

/-- `loadDeliverArg`. -/
def loadDeliverArg (s : DeliverArgState) : DeliverArgState :=
  if s.deliverArgLoaded then s else { s with deliverArg := readDeliverArg s, deliverArgLoaded := true }

/-- `commitDeliverArg`. -/
def commitDeliverArg (s : DeliverArgState) : DeliverArgState :=
  let s := loadDeliverArg s
  let s := if s.bootenv &&& 1 = 0 then { s with bootenv := 1 } else s
  if s.bootenv >>> 1 = 0 then
    let deliverArg := s.deliverArg.store 0x438 (leBytes 4 0xFFFF)
    let deliverArg := deliverArg.store 0x43C (leBytes 4 0)
    let crc := crc32 (deliverArg.read 0x400 0x140) 0xFFFFFFFF
    let deliverArg := deliverArg.store 0x43C (leBytes 4 crc.toNat)
    { s with deliverArg, fcram := s.fcram.store 0 (deliverArg.read 0 0x1000) }
  else { s with fcram := copyToLegacyModeFcram s.fcram s.deliverArg 0x400 }

/-- `hasValidTlncAutobootParams`. -/
def hasValidTlncAutobootParams (s : DeliverArgState) : Bool :=
  let deliverArg := (loadDeliverArg s).deliverArg
  hasMagic deliverArg ∧ deliverArg.load 0x318 2 &&& 1 ≠ 0

/-- `configureHomebrewAutobootTwl`, with `configData.autobootTwlTitleId`. -/
def configureHomebrewAutobootTwl (autobootTwlTitleId : UInt64) (s : DeliverArgState) : DeliverArgState :=
  let deliverArg := zeroFill s.deliverArg 0 0x300
  let deliverArg := zeroFill deliverArg 0x300 0x100
  let deliverArg := deliverArg.store 0x300 [0x54, 0x4C, 0x4E, 0x43]
  let deliverArg := deliverArg.store 0x304 [1]
  let deliverArg := deliverArg.store 0x305 [0x18]
  let deliverArg := deliverArg.store 0x308 (leBytes 8 0)
  let deliverArg := deliverArg.store 0x310 (leBytes 8 autobootTwlTitleId.toNat)
  -- bit4: "skip logo"; bits2:1: NAND boot; bit0: valid
  let deliverArg := deliverArg.store 0x318 (leBytes 2 (1 <<< 4 ||| 3 <<< 1 ||| 1 <<< 0))
  let deliverArg := deliverArg.store 0x306 (leBytes 2 (crc16 (deliverArg.read 0x308 0x18) 0xFFFF).toNat)
  { s with deliverArg, bootenv := 3 }

/-- Everything but what is preserved is as at the start. -/
def DeliverArgState.reboot (s : DeliverArgState) : DeliverArgState := { s with deliverArg := fun _ => 0, deliverArgLoaded := false }

/-! ## The checksum -/

/-- The CRC that `commitDeliverArg` and `loadDeliverArg` compute, of an argument whose field for it is zero. -/
def deliverArgCrc (deliverArg : Memory UInt8) : UInt32 := crc32 (deliverArg.read 0x400 0x140) 0xFFFFFFFF

/-- What the next boot checks. -/
def CtrValid (deliverArg : Memory UInt8) : Prop :=
  deliverArg.load 0x438 4 = 0xFFFF ∧ (wordField 0x43C).Valid deliverArgCrc deliverArg

instance (deliverArg : Memory UInt8) : Decidable (CtrValid deliverArg) := inferInstanceAs (Decidable (_ ∧ _ = _))

variable {s : DeliverArgState}

/-- In CTR mode, the argument is what is in the memory, if it is valid. -/
theorem readDeliverArg_ctr (hwarm : s.bootenv &&& 1 ≠ 0) (hctr : s.bootenv >>> 1 = 0) : readDeliverArg s =
    let deliverArg := s.deliverArg.store 0 (s.fcram.read 0 0x1000)
    if CtrValid deliverArg then deliverArg else zeroFill deliverArg 0 0x1000 := by
  unfold readDeliverArg
  rw [if_neg hwarm, if_pos hctr]
  dsimp only
  generalize s.deliverArg.store 0 (s.fcram.read 0 0x1000) = deliverArg
  have hrestored : (deliverArg.store 0x43C (leBytes 4 0)).store 0x43C (leBytes 4 (deliverArg.load 0x43C 4)) = deliverArg := by
    rw [store_store _ _ (by simp), store_load]
  have hcrc : deliverArg.load 0x43C 4 = (crc32 ((deliverArg.store 0x43C (leBytes 4 0)).read 0x400 0x140) 0xFFFFFFFF).toNat ↔
      (wordField 0x43C).Valid deliverArgCrc deliverArg := by
    unfold CheckField.Valid
    rw [← UInt32.toNat_inj]
    show _ ↔ (UInt32.ofNat (deliverArg.load 0x43C 4)).toNat = _
    rw [UInt32.toNat_ofNat', Nat.mod_eq_of_lt (show deliverArg.load 0x43C 4 < 2 ^ 32 from load_lt deliverArg 4 0x43C)]
    rfl
  rw [hrestored]
  by_cases hvalid : CtrValid deliverArg
  · rw [if_pos hvalid, if_neg]
    rintro (hpattern | hfield)
    · exact hpattern hvalid.1
    · exact hfield (hcrc.mpr hvalid.2)
  · rw [if_neg hvalid, if_pos]
    rw [← not_and_or]
    exact fun h => hvalid ⟨h.1, hcrc.mp h.2⟩

/-- In the legacy modes, it is what is spread out in the memory, without a block that is not valid. -/
theorem readDeliverArg_legacy (hwarm : s.bootenv &&& 1 ≠ 0) (hlegacy : s.bootenv >>> 1 ≠ 0) : readDeliverArg s =
    let deliverArg := copyFromLegacyModeFcram s.deliverArg s.fcram 0x400
    zeroFill (if tlncValid deliverArg then deliverArg else zeroFill deliverArg 0x300 0x100) 0x400 0xC00 := by
  unfold readDeliverArg
  rw [if_neg hwarm, if_neg hlegacy]

/-- What is valid depends on the argument only. -/
theorem ctrValid_congr {m m' : Memory UInt8} (h : ∀ x < 0x1000, m x = m' x) : CtrValid m ↔ CtrValid m' := by
  unfold CtrValid CheckField.Valid
  have hpattern : m.load 0x438 4 = m'.load 0x438 4 := load_congr fun x _ hx => h x (by omega)
  have hcrc : m.load 0x43C 4 = m'.load 0x43C 4 := load_congr fun x _ hx => h x (by omega)
  have hdata : (m.store 0x43C (leBytes 4 0)).read 0x400 0x140 = (m'.store 0x43C (leBytes 4 0)).read 0x400 0x140 :=
    read_congr fun x _ hx => store_congr (h x (by omega)) _ _
  show _ ∧ UInt32.ofNat (m.load 0x43C 4) = crc32 ((m.store 0x43C (leBytes 4 0)).read 0x400 0x140) _ ↔
    _ ∧ UInt32.ofNat (m'.load 0x43C 4) = crc32 ((m'.store 0x43C (leBytes 4 0)).read 0x400 0x140) _
  rw [hpattern, hcrc, hdata]

/-- The checks of the block do not look behind it. -/
theorem tlncValid_congr {m m' : Memory UInt8} (h : ∀ x, 0x300 ≤ x → x < 0x400 → m x = m' x) : tlncValid m = tlncValid m' := by
  have hmagic : m.read 0x300 4 = m'.read 0x300 4 := read_congr fun x hx hlt => h x hx (by omega)
  have hcrc : m.load 0x306 2 = m'.load 0x306 2 := load_congr fun x hx hlt => h x (by omega) (by omega)
  unfold tlncValid hasMagic
  dsimp only
  rw [hmagic, hcrc, h 0x305 (by decide) (by decide)]
  by_cases hfits : 8 + (m' 0x305).toNat > 0x100
  · simp [hfits]
  · have hdata : m.read 0x308 (m' 0x305).toNat = m'.read 0x308 (m' 0x305).toNat :=
      read_congr fun x hx hlt => h x (by omega) (by omega)
    rw [hdata]

/-! ## Writing -/

/-- The mode of the next boot: a cold boot becomes "CTR mode reboot". -/
def nextBootenv (bootenv : UInt32) : UInt32 := if bootenv &&& 1 = 0 then 1 else bootenv

theorem nextBootenv_warm (bootenv : UInt32) : nextBootenv bootenv &&& 1 ≠ 0 := by
  unfold nextBootenv
  split_ifs with hcold
  · decide
  · exact hcold

theorem loadDeliverArg_frame (s : DeliverArgState) : (loadDeliverArg s).fcram = s.fcram ∧
    (loadDeliverArg s).bootenv = s.bootenv ∧ (loadDeliverArg s).deliverArgLoaded = true := by
  unfold loadDeliverArg
  split_ifs with hloaded
  · exact ⟨rfl, rfl, hloaded⟩
  · exact ⟨rfl, rfl, rfl⟩

/-- An argument with its test pattern and its CRC. -/
def sealed (deliverArg : Memory UInt8) : Memory UInt8 :=
  (wordField 0x43C).fill deliverArgCrc (deliverArg.store 0x438 (leBytes 4 0xFFFF))

theorem ctrValid_sealed (deliverArg : Memory UInt8) : CtrValid (sealed deliverArg) := by
  refine ⟨?_, (wordField 0x43C).valid_fill deliverArgCrc _⟩
  unfold sealed CheckField.fill
  show (((deliverArg.store 0x438 (leBytes 4 0xFFFF)).store 0x43C (leBytes 4 0)).store 0x43C _).load 0x438 4 = 0xFFFF
  rw [load_store_outside _ (.inl (by decide)), load_store_outside _ (.inl (by decide)), load_store]
  rfl

/-- Only those two fields are changed. -/
theorem sealed_outside (deliverArg : Memory UInt8) {x : Nat} (h : x < 0x438 ∨ 0x440 ≤ x) : sealed deliverArg x = deliverArg x := by
  unfold sealed CheckField.fill
  show (((deliverArg.store 0x438 (leBytes 4 0xFFFF)).store 0x43C (leBytes 4 0)).store 0x43C _) x = _
  rw [store_outside _ (by rw [leBytes_length]; omega), store_outside _ (by rw [leBytes_length]; omega),
    store_outside _ (by rw [leBytes_length]; omega)]

theorem commitDeliverArg_ctr (hctr : nextBootenv s.bootenv >>> 1 = 0) : commitDeliverArg s =
    let deliverArg := sealed (loadDeliverArg s).deliverArg
    ⟨s.fcram.store 0 (deliverArg.read 0 0x1000), nextBootenv s.bootenv, deliverArg, true⟩ := by
  obtain ⟨hfcram, hbootenv, hloaded⟩ := loadDeliverArg_frame s
  unfold commitDeliverArg
  dsimp only
  by_cases hcold : s.bootenv &&& 1 = 0
  · have hnext : nextBootenv s.bootenv = 1 := if_pos hcold
    rw [hnext, hbootenv, if_pos hcold]
    dsimp only
    rw [if_pos (by decide), hfcram, hloaded]
    rfl
  · have hnext : nextBootenv s.bootenv = s.bootenv := if_neg hcold
    rw [hnext] at hctr ⊢
    rw [hbootenv, if_neg hcold, hbootenv, if_pos hctr, hfcram, hloaded]
    rfl

theorem commitDeliverArg_legacy (hlegacy : nextBootenv s.bootenv >>> 1 ≠ 0) : commitDeliverArg s =
    let deliverArg := (loadDeliverArg s).deliverArg
    ⟨copyToLegacyModeFcram s.fcram deliverArg 0x400, nextBootenv s.bootenv, deliverArg, true⟩ := by
  obtain ⟨hfcram, hbootenv, hloaded⟩ := loadDeliverArg_frame s
  have hcold : s.bootenv &&& 1 ≠ 0 := by
    intro hcold
    rw [nextBootenv, if_pos hcold] at hlegacy
    exact hlegacy rfl
  have hnext : nextBootenv s.bootenv = s.bootenv := if_neg hcold
  rw [hnext] at hlegacy ⊢
  unfold commitDeliverArg
  dsimp only
  rw [hbootenv, if_neg hcold, hbootenv, if_neg hlegacy, hfcram]
  exact congrArg _ hloaded

/-! ## Reading it again -/

theorem loadDeliverArg_reboot (s : DeliverArgState) : (loadDeliverArg s.reboot).deliverArg = readDeliverArg s.reboot := rfl

/-- In CTR mode the next boot gets the argument with its test pattern and its CRC. -/
theorem reload_ctr (hctr : nextBootenv s.bootenv >>> 1 = 0) {x : Nat} (hx : x < 0x1000) :
    (loadDeliverArg (commitDeliverArg s).reboot).deliverArg x = sealed (loadDeliverArg s).deliverArg x := by
  rw [commitDeliverArg_ctr hctr, loadDeliverArg_reboot]
  generalize sealed_eq : sealed (loadDeliverArg s).deliverArg = deliverArg
  have hvalid : CtrValid deliverArg := sealed_eq ▸ ctrValid_sealed _
  rw [readDeliverArg_ctr (nextBootenv_warm s.bootenv) hctr]
  have hsame : ∀ x < 0x1000, (Memory.store (fun _ => 0) 0 ((s.fcram.store 0 (deliverArg.read 0 0x1000)).read 0 0x1000)) x =
      deliverArg x := by
    intro x hx
    have hread := store_read (fun _ => 0) (s.fcram.store 0 (deliverArg.read 0 0x1000)) 0 0 hx
    rw [Nat.zero_add] at hread
    rw [hread]
    simpa using store_read s.fcram deliverArg 0 0 hx
  dsimp only [DeliverArgState.reboot]
  rw [if_pos ((ctrValid_congr hsame).mpr hvalid)]
  exact hsame x hx

/-- In the legacy modes it gets the beginning, without a block of the TWL launcher that is not valid, and zeroes. -/
theorem reload_legacy (hlegacy : nextBootenv s.bootenv >>> 1 ≠ 0) {x : Nat} (hx : x < 0x1000) :
    (loadDeliverArg (commitDeliverArg s).reboot).deliverArg x =
      if 0x400 ≤ x ∨ (0x300 ≤ x ∧ tlncValid (loadDeliverArg s).deliverArg = false) then 0 else (loadDeliverArg s).deliverArg x := by
  rw [commitDeliverArg_legacy hlegacy, loadDeliverArg_reboot]
  generalize (loadDeliverArg s).deliverArg = deliverArg
  rw [readDeliverArg_legacy (nextBootenv_warm s.bootenv) hlegacy]
  dsimp only [DeliverArgState.reboot]
  have hsame : ∀ x < 0x400, copyFromLegacyModeFcram (fun _ => 0) (copyToLegacyModeFcram s.fcram deliverArg 0x400) 0x400 x =
      deliverArg x := fun x hx => copyStrided_gather deliverArg _ (by decide) (by decide) s.fcram hx
  rw [tlncValid_congr fun x _ hx => hsame x hx]
  generalize copyFromLegacyModeFcram _ _ _ = gathered at hsame
  unfold zeroFill
  by_cases hbehind : 0x400 ≤ x
  · rw [store_inside _ hbehind (by rw [List.length_replicate]; omega), List.getElem_replicate, if_pos (Or.inl hbehind)]
  rw [store_outside _ (Or.inl (by omega))]
  cases tlncValid deliverArg with
  | true =>
    rw [if_pos rfl, hsame x (by omega), if_neg]
    rintro (h | ⟨-, h⟩)
    · exact hbehind h
    · cases h
  | false =>
    rw [if_neg Bool.false_ne_true]
    by_cases hblock : 0x300 ≤ x
    · rw [store_inside _ hblock (by rw [List.length_replicate]; omega), List.getElem_replicate, if_pos (Or.inr ⟨hblock, rfl⟩)]
    · rw [store_outside _ (Or.inl (by omega)), hsame x (by omega), if_neg]
      rintro (h | ⟨h, -⟩)
      · exact hbehind h
      · exact hblock h

/-! ## The block of the TWL launcher -/

/-- A block gets valid with its checksum, which is not among the bytes it is taken over. -/
theorem tlncValid_store {m : Memory UInt8} (hmagic : hasMagic m = true) {crcLen : Nat} (hlen : (m 0x305).toNat = crcLen)
    (hfits : 8 + crcLen ≤ 0x100) : tlncValid (m.store 0x306 (leBytes 2 (crc16 (m.read 0x308 crcLen) 0xFFFF).toNat)) = true := by
  have hhead : ∀ bs : List UInt8, (m.store 0x306 bs).read 0x300 4 = m.read 0x300 4 := fun bs =>
    read_congr fun x _ hx => store_outside m (.inl (by omega))
  have hdata : ∀ v, (m.store 0x306 (leBytes 2 v)).read 0x308 crcLen = m.read 0x308 crcLen := fun v =>
    read_congr fun x hx _ => store_outside m (.inr (by rw [leBytes_length]; exact hx))
  have hcrc : (crc16 (m.read 0x308 crcLen) 0xFFFF).toNat % 256 ^ 2 = (crc16 (m.read 0x308 crcLen) 0xFFFF).toNat :=
    Nat.mod_eq_of_lt (UInt16.toNat_lt _)
  unfold tlncValid hasMagic at *
  dsimp only
  rw [hhead, store_outside m (.inl (by decide)), hlen, hdata, load_store, hcrc]
  simpa [hfits] using hmagic

/-- The block that is built for a title is valid. -/
theorem tlncValid_configure (autobootTwlTitleId : UInt64) (s : DeliverArgState) :
    tlncValid (configureHomebrewAutobootTwl autobootTwlTitleId s).deliverArg = true := by
  unfold configureHomebrewAutobootTwl
  dsimp only
  generalize zeroFill (zeroFill s.deliverArg 0 0x300) 0x300 0x100 = cleared
  refine tlncValid_store ?_ ?_ (by decide)
  · simp [hasMagic, store, Memory.read, List.range_succ]
  · simp [store]

theorem load_configure (autobootTwlTitleId : UInt64) (s : DeliverArgState) :
    (configureHomebrewAutobootTwl autobootTwlTitleId s).deliverArg.load 0x318 2 = 0x17 := by
  unfold configureHomebrewAutobootTwl
  dsimp only
  rw [load_store_outside _ (.inr (by simp)), load_store]
  rfl

theorem bootenv_configure (autobootTwlTitleId : UInt64) (s : DeliverArgState) :
    (configureHomebrewAutobootTwl autobootTwlTitleId s).bootenv = 3 := rfl

theorem loaded_configure (autobootTwlTitleId : UInt64) (s : DeliverArgState) :
    (configureHomebrewAutobootTwl autobootTwlTitleId s).deliverArgLoaded = s.deliverArgLoaded := rfl

/-- The next boot gets the block, and starts the title. -/
theorem reload_configure (autobootTwlTitleId : UInt64) (s : DeliverArgState) :
    let built := configureHomebrewAutobootTwl autobootTwlTitleId (loadDeliverArg s)
    (loadDeliverArg (commitDeliverArg built).reboot).deliverArg.read 0x300 0x100 = built.deliverArg.read 0x300 0x100 ∧
      hasValidTlncAutobootParams (commitDeliverArg built).reboot = true := by
  have hbootenv := bootenv_configure autobootTwlTitleId (loadDeliverArg s)
  have hloaded := loaded_configure autobootTwlTitleId (loadDeliverArg s)
  have hvalid := tlncValid_configure autobootTwlTitleId (loadDeliverArg s)
  have hflags := load_configure autobootTwlTitleId (loadDeliverArg s)
  generalize configureHomebrewAutobootTwl autobootTwlTitleId (loadDeliverArg s) = built at *
  have hload : loadDeliverArg built = built := by
    unfold loadDeliverArg
    rw [if_pos (hloaded.trans (loadDeliverArg_frame s).2.2)]
  have hlegacy : nextBootenv built.bootenv >>> 1 ≠ 0 := by
    rw [hbootenv]
    decide
  have hsame : ∀ x < 0x400, (loadDeliverArg (commitDeliverArg built).reboot).deliverArg x = built.deliverArg x := by
    intro x hx
    rw [reload_legacy hlegacy (by omega), hload, hvalid, if_neg]
    rintro (h | ⟨-, h⟩)
    · omega
    · cases h
  refine ⟨read_congr fun x _ hx => hsame x hx, ?_⟩
  have hmagic : hasMagic built.deliverArg = true := by
    unfold tlncValid at hvalid
    exact (of_decide_eq_true hvalid).1
  unfold hasValidTlncAutobootParams hasMagic at *
  dsimp only
  rw [read_congr fun x _ hx => hsame x (by omega), load_congr fun x _ hx => hsame x (by omega), hflags]
  simpa using hmagic

/-! ## The round trip -/

/-- The argument that a boot commits is what the next one loads: in CTR mode all of it, with the test pattern and the CRC, and in
the legacy modes the first 0x400 bytes, of which the block of the TWL launcher is kept if it is valid. The block that is
built for a title is kept, and reported. -/
theorem deliverArg_roundTrip (autobootTwlTitleId : UInt64) (s : DeliverArgState) :
    let deliverArg := (loadDeliverArg s).deliverArg
    let committed := commitDeliverArg s
    let later := (loadDeliverArg committed.reboot).deliverArg
    let built := configureHomebrewAutobootTwl autobootTwlTitleId (loadDeliverArg s)
    (if committed.bootenv >>> 1 = 0 then
      later.read 0 0x1000 = committed.deliverArg.read 0 0x1000 ∧ CtrValid committed.deliverArg ∧
        ∀ x, x < 0x438 ∨ 0x440 ≤ x → committed.deliverArg x = deliverArg x
    else
      later.read 0 0x300 = deliverArg.read 0 0x300 ∧
        later.read 0x300 0x100 = (if tlncValid deliverArg then deliverArg.read 0x300 0x100 else List.replicate 0x100 0) ∧
        later.read 0x400 0xC00 = List.replicate 0xC00 0) ∧
      (loadDeliverArg (commitDeliverArg built).reboot).deliverArg.read 0x300 0x100 = built.deliverArg.read 0x300 0x100 ∧
      hasValidTlncAutobootParams (commitDeliverArg built).reboot = true := by
  intro deliverArg committed later built
  refine ⟨?_, reload_configure autobootTwlTitleId s⟩
  by_cases hctr : nextBootenv s.bootenv >>> 1 = 0
  · have hcommitted : committed = _ := commitDeliverArg_ctr hctr
    have hbytes : committed.deliverArg = sealed deliverArg := congrArg DeliverArgState.deliverArg hcommitted
    rw [if_pos (by rw [hcommitted]; exact hctr), hbytes]
    refine ⟨read_congr fun x _ hx => reload_ctr hctr (by omega), ctrValid_sealed deliverArg, ?_⟩
    exact fun x hx => sealed_outside deliverArg hx
  · have hcommitted : committed = _ := commitDeliverArg_legacy hctr
    have hlater : ∀ x < 0x1000, later x = _ := fun x hx => reload_legacy hctr hx
    rw [if_neg (by rw [hcommitted]; exact hctr)]
    refine ⟨read_congr fun x _ hx => ?_, ?_, read_eq_replicate fun x hbehind hx => ?_⟩
    · rw [hlater x (by omega), if_neg]
      rintro (h | ⟨h, -⟩) <;> omega
    · cases hvalid : tlncValid deliverArg with
      | true =>
        rw [if_pos rfl]
        refine read_congr fun x hblock hx => ?_
        rw [hlater x (by omega), if_neg]
        rintro (h | ⟨-, h⟩)
        · omega
        · exact Bool.false_ne_true (h.symm.trans hvalid)
      | false =>
        rw [if_neg Bool.false_ne_true]
        refine read_eq_replicate fun x hblock hx => ?_
        rw [hlater x (by omega), if_pos (.inr ⟨hblock, hvalid⟩)]
    · rw [hlater x (by omega), if_pos (.inl hbehind)]

end Omiiba.Arm9
