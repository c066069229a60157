/-
The BPS patcher of bps_patcher.cpp, in its 32-bit arithmetic. A memory access outside of its buffer
and the use of an empty optional are outcomes of their own.
-/
import Mathlib.Tactic

namespace Omiiba.Loader.Bps

/-! ## Streams -/

abbrev Number := UInt32

/-- `FooterSize`. -/
def footerSize : UInt32 := 12

/-- The buffers of the patcher. -/
inductive BufferName
  | source
  | target
  | patch
  deriving DecidableEq

/-- How a call ends: it returns, it returns false, it accesses memory outside of a buffer, it takes
the value of an empty optional, or it has not ended within the fuel. -/
inductive Outcome (α : Type)
  | done (a : α)
  | refused
  | outside (buffer : BufferName)
  | noValue
  | endless

namespace Outcome

variable {α β : Type}

def bind (x : Outcome α) (f : α → Outcome β) : Outcome β :=
  match x with
  | done a => f a
  | refused => refused
  | outside b => outside b
  | noValue => noValue
  | endless => endless

/-- `*optional`. -/
def value (x : Outcome α) : Outcome α :=
  match x with
  | refused => noValue
  | x => x

end Outcome

/-- A buffer and a position in it. The buffers begin at `BaseAddress` or above it, and the addresses
of a process end where those of the kernel begin. -/
structure Stream where
  bytes : List UInt8
  offset : UInt32
  fits : bytes.length ≤ 0x40000000 - 0x08000000

namespace Stream

def size (s : Stream) : UInt32 := UInt32.ofNat s.bytes.length

def seek (s : Stream) (offset : UInt32) : Stream := { s with offset }

/-- `Read`: the bytes copied to the buffer. -/
def read (name : BufferName) (s : Stream) (length : UInt32) : Outcome (List UInt8 × Stream) :=
  if s.offset + length > s.size then .refused
  else if s.bytes.length < s.offset.toNat + length.toNat then .outside name
  else .done ((s.bytes.drop s.offset.toNat).take length.toNat, s.seek (s.offset + length))

theorem size_toNat (s : Stream) : s.size.toNat = s.bytes.length := by
  have := s.fits
  unfold size
  rw [UInt32.toNat_ofNat', Nat.mod_eq_of_lt (by omega)]

theorem read_done {name : BufferName} {s : Stream} {length : UInt32}
    (h : s.offset.toNat + length.toNat ≤ s.bytes.length) :
    s.read name length =
      .done ((s.bytes.drop s.offset.toNat).take length.toNat, s.seek (s.offset + length)) := by
  have hsize := s.size_toNat
  have := s.fits
  have hsum : (s.offset + length).toNat = s.offset.toNat + length.toNat := by
    rw [UInt32.toNat_add, Nat.mod_eq_of_lt (by omega)]
  unfold read
  rw [if_neg (by rw [gt_iff_lt, UInt32.lt_iff_toNat_lt]; omega), if_neg (by omega)]

/-- The sum of offset and length is compared after it has wrapped around. -/
theorem read_outside {name : BufferName} {s : Stream} {length : UInt32}
    (h : 2 ^ 32 ≤ s.offset.toNat + length.toNat)
    (hle : s.offset.toNat + length.toNat ≤ 2 ^ 32 + s.bytes.length) : s.read name length = .outside name := by
  have hsize := s.size_toNat
  have := s.fits
  have := s.offset.toNat_lt
  have := length.toNat_lt
  have hsum : (s.offset + length).toNat = s.offset.toNat + length.toNat - 2 ^ 32 := by
    rw [UInt32.toNat_add]
    omega
  unfold read
  rw [if_neg (by rw [gt_iff_lt, UInt32.lt_iff_toNat_lt]; omega), if_pos (by omega)]

theorem read_refused {name : BufferName} {s : Stream} {length : UInt32}
    (h : s.bytes.length < s.offset.toNat + length.toNat)
    (hw : 2 ^ 32 ≤ s.offset.toNat + length.toNat → 2 ^ 32 + s.bytes.length < s.offset.toNat + length.toNat) :
    s.read name length = .refused := by
  have hsize := s.size_toNat
  have := s.fits
  have := s.offset.toNat_lt
  have := length.toNat_lt
  have hsum : s.bytes.length < (s.offset + length).toNat := by
    rw [UInt32.toNat_add]
    omega
  unfold read
  rw [if_pos (by rw [gt_iff_lt, UInt32.lt_iff_toNat_lt]; omega)]

/-- `bs` in place of as many bytes from `i` on. -/
def overwrite (bytes : List UInt8) (i : Nat) (bs : List UInt8) : List UInt8 :=
  bytes.take i ++ (bs ++ bytes.drop (i + bs.length))

theorem overwrite_length {bytes bs : List UInt8} {i : Nat} (h : i + bs.length ≤ bytes.length) :
    (overwrite bytes i bs).length = bytes.length := by
  unfold overwrite
  rw [List.length_append, List.length_append, List.length_take, List.length_drop]
  omega

/-- The bytes of a stream replaced by as many. -/
def withBytes (s : Stream) (bytes : List UInt8) (h : bytes.length = s.bytes.length) : Stream :=
  { s with bytes, fits := h ▸ s.fits }

/-- `CopyFrom`; the stream and the other one. -/
def copyFrom (s : Stream) (name : BufferName) (other : Stream) (length : UInt32) : Outcome (Stream × Stream) :=
  if s.offset + length > s.size then .refused
  else
    (other.read name length).bind fun (bs, other) =>
      if h : s.offset.toNat + bs.length ≤ s.bytes.length then
        .done ((s.withBytes (overwrite s.bytes s.offset.toNat bs) (overwrite_length h)).seek (s.offset + length), other)
      else .outside .target

/-- `Read<u8>`. -/
def readU8 (s : Stream) : Outcome (UInt8 × Stream) :=
  (s.read .patch 1).bind fun (bs, s) => .done (bs.getD 0 0, s)

/-- `Read<u32>`, little-endian. -/
def readU32 (s : Stream) : Outcome (UInt32 × Stream) :=
  (s.read .patch 4).bind fun (bs, s) =>
    .done ((bs.getD 0 0).toUInt32 ||| ((bs.getD 1 0).toUInt32 <<< 8) ||| ((bs.getD 2 0).toUInt32 <<< 16) |||
      ((bs.getD 3 0).toUInt32 <<< 24), s)

/-- The loop of `ReadNumber`, which ends where `Read<u8>` finds nothing. -/
def readNumberLoop : Nat → Stream → Number → Number → Outcome (Number × Stream)
  | 0, _, _, _ => .endless
  | fuel + 1, s, data, shift =>
    match s.readU8 with
    | .refused => .done (data, s)
    | .done (x, s) =>
      let data := data + (x &&& 0x7f).toUInt32 * shift
      if x &&& 0x80 ≠ 0 then .done (data, s)
      else
        let shift := shift <<< 7
        readNumberLoop fuel s (data + shift) shift
    | .outside b => .outside b
    | .noValue => .noValue
    | .endless => .endless

/-- `ReadNumber`; each turn reads a byte. -/
def readNumber (s : Stream) : Outcome (Number × Stream) := readNumberLoop (s.bytes.length + 1) s 0 1

end Stream

/-! ## The checksum -/

/-- One turn of the inner loop of `crc32`. -/
def crcBit (crc : UInt32) : UInt32 := (crc >>> 1) ^^^ (0xEDB88320 &&& (0 - (crc &&& 1)))

def crcByte (crc : UInt32) (x : UInt8) : UInt32 := Nat.iterate crcBit 8 (crc ^^^ x.toUInt32)

def crc32 (bytes : List UInt8) : UInt32 := ~~~ bytes.foldl crcByte 0xFFFFFFFF

/-! ## The patcher -/

structure PatchApplier where
  sourceRelativeOffset : UInt32
  targetRelativeOffset : UInt32
  source : Stream
  target : Stream
  patch : Stream

/-- `offset + (data & 1 ? -1 : +1) * int(data >> 1)`. -/
def moveRelative (offset : UInt32) (data : Number) : UInt32 :=
  if data &&& 1 ≠ 0 then offset - data >>> 1 else offset + data >>> 1

/-- "Byte by byte copy", and the relative offset after it. -/
def copyLoop : Nat → UInt32 → UInt32 → List UInt8 → Outcome (List UInt8 × UInt32)
  | 0, _, rel, bytes => .done (bytes, rel)
  | n + 1, dst, rel, bytes =>
    match bytes[rel.toNat]? with
    | none => .outside .target
    | some x => if dst.toNat < bytes.length then copyLoop n (dst + 1) (rel + 1) (bytes.set dst.toNat x) else .outside .target

theorem copyLoop_length : ∀ {n : Nat} {dst rel rel' : UInt32} {bytes bytes' : List UInt8},
    copyLoop n dst rel bytes = .done (bytes', rel') → bytes'.length = bytes.length
  | 0, dst, rel, rel', bytes, bytes', h => by cases h; rfl
  | n + 1, dst, rel, rel', bytes, bytes', h => by
    unfold copyLoop at h
    split at h
    · cases h
    · split at h
      · rw [copyLoop_length h, List.length_set]
      · cases h

namespace PatchApplier

def sourceRead (p : PatchApplier) (length : Number) : Outcome PatchApplier :=
  (p.target.copyFrom .source (p.source.seek p.target.offset) length).bind fun (target, source) =>
    .done { p with target, source }

def targetRead (p : PatchApplier) (length : Number) : Outcome PatchApplier :=
  (p.target.copyFrom .patch p.patch length).bind fun (target, patch) => .done { p with target, patch }

def sourceCopy (p : PatchApplier) (length : Number) : Outcome PatchApplier :=
  p.patch.readNumber.bind fun (data, patch) =>
    let rel := moveRelative p.sourceRelativeOffset data
    (p.target.copyFrom .source (p.source.seek rel) length).bind fun (target, source) =>
      .done { p with patch, target, source, sourceRelativeOffset := rel + length }

def targetCopy (p : PatchApplier) (length : Number) : Outcome PatchApplier :=
  p.patch.readNumber.bind fun (data, patch) =>
    let rel := moveRelative p.targetRelativeOffset data
    if p.target.offset + length > p.target.size then .refused
    else if rel + length > p.target.size then .refused
    else
      match h : copyLoop length.toNat p.target.offset rel p.target.bytes with
      | .done r =>
        .done { p with
          patch
          target := (p.target.withBytes r.1 (copyLoop_length h)).seek (p.target.offset + length)
          targetRelativeOffset := r.2 }
      | .outside b => .outside b
      | .refused => .refused
      | .noValue => .noValue
      | .endless => .endless

/-- The `switch` of `HandleCommand`; its command has two bits. -/
def switchCommand (p : PatchApplier) (command length : Number) : Outcome PatchApplier :=
  match command.toNat with
  | 0 => p.sourceRead length
  | 1 => p.targetRead length
  | 2 => p.sourceCopy length
  | 3 => p.targetCopy length
  | _ => .refused

def handleCommand (p : PatchApplier) : Outcome PatchApplier :=
  p.patch.readNumber.bind fun (data, patch) => switchCommand { p with patch } (data &&& 3) ((data >>> 2) + 1)

/-- "Process all patch commands", up to `commandEndOffset`. -/
def commandLoop (commandEndOffset : UInt32) : Nat → PatchApplier → Outcome PatchApplier
  | 0, _ => .endless
  | fuel + 1, p =>
    if p.patch.offset < commandEndOffset then
      match p.handleCommand with
      | .done p => commandLoop commandEndOffset fuel p
      | x => x
    else .done p

end PatchApplier

/-- "BPS1". -/
def bpsMagic : List UInt8 := [0x42, 0x50, 0x53, 0x31]

/-- What `Apply` reads before it accepts a patch: the sizes of the header, and the patch behind it. -/
structure Header where
  sourceSize : Number
  targetSize : Number
  metadataSize : Number
  patch : Stream

/-- The magic and the numbers of the header. -/
def readHeader (patch : Stream) : Outcome Header :=
  (patch.read .patch 4).value.bind fun (magic, patch) =>
    if magic ≠ bpsMagic then .refused
    else
      patch.readNumber.bind fun (sourceSize, patch) =>
        patch.readNumber.bind fun (targetSize, patch) =>
          patch.readNumber.bind fun (metadataSize, patch) => .done ⟨sourceSize, targetSize, metadataSize, patch⟩

/-- The checksums of source and target in the footer. -/
def readFooter (patch : Stream) : Outcome (UInt32 × UInt32) :=
  ((patch.seek (patch.size - footerSize)).readU32).value.bind fun (sourceCrc32, patch) =>
    patch.readU32.value.bind fun (targetCrc32, _) => .done (sourceCrc32, targetCrc32)

/-- The target cleared. -/
def Stream.cleared (s : Stream) : Stream := s.withBytes (List.replicate s.bytes.length 0) List.length_replicate

/-- `Apply`: what it returns, and the target; every command moves on in the target. -/
def apply (source target patch : Stream) : Outcome (Bool × Stream) :=
  (readHeader patch).bind fun header =>
    if header.sourceSize > source.size ∨ header.targetSize > target.size ∨ header.metadataSize ≠ 0 then .refused
    else
      (readFooter header.patch).bind fun (sourceCrc32, targetCrc32) =>
        if crc32 (source.bytes.take header.sourceSize.toNat) ≠ sourceCrc32 then .refused
        else
          (PatchApplier.commandLoop (patch.size - footerSize) (target.bytes.length + 1)
              ⟨0, 0, source, target.cleared, header.patch⟩).bind fun p =>
            .done (crc32 (p.target.bytes.take header.targetSize.toNat) == targetCrc32, p.target)

end Omiiba.Loader.Bps
