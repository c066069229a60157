/-
The reply to `vFile:stat`, after tio.c: the structure for a file or a directory, how it is to be sent, and what is escaped
instead.
-/
import Omiiba.Rosalina.GdbNet
import Omiiba.Rosalina.GdbThread
import Omiiba.Lib.Writes

namespace Omiiba.Rosalina

/-! ## The code -/

/-- `struct gdbhio_stat`. -/
structure GdbhioStat where
  dev : UInt32
  ino : UInt32
  mode : UInt32
  nlink : UInt32
  uid : UInt32
  gid : UInt32
  rdev : UInt32
  size : UInt64
  blksize : UInt64
  blocks : UInt64
  atime : UInt32
  mtime : UInt32
  ctime : UInt32

/-- `sizeof(struct gdbhio_stat)`; it is packed. -/
def gdbhioStatSize : Nat := 64

namespace GdbhioStat

def zero : GdbhioStat := ⟨0, 0, 0, 0, 0, 0, 0, 0, 0, 0, 0, 0, 0⟩

/-- The fields with their sizes. -/
def fields (st : GdbhioStat) : List (Nat × Nat) :=
  [(4, st.dev.toNat), (4, st.ino.toNat), (4, st.mode.toNat), (4, st.nlink.toNat), (4, st.uid.toNat), (4, st.gid.toNat),
    (4, st.rdev.toNat), (8, st.size.toNat), (8, st.blksize.toNat), (8, st.blocks.toNat), (4, st.atime.toNat),
    (4, st.mtime.toNat), (4, st.ctime.toNat)]

/-- The structure in memory. -/
def bytes (st : GdbhioStat) : List UInt8 := st.fields.flatMap fun (size, value) => Memory.leBytes size value

end GdbhioStat

/-- `__builtin_bswap32` and `__builtin_bswap64`. -/
def bswap32 (x : UInt32) : UInt32 :=
  (x <<< 24) ||| ((x &&& (0xFF00 : UInt32)) <<< 8) ||| ((x >>> 8) &&& (0xFF00 : UInt32)) ||| (x >>> 24)

def bswap64 (x : UInt64) : UInt64 :=
  ((bswap32 x.toUInt32).toUInt64 <<< 32) ||| (bswap32 (x >>> 32).toUInt32).toUInt64

/-- `GDB_TioMakeStructStat`. -/
def tioMakeStructStat (st : GdbhioStat) : GdbhioStat where
  dev := bswap32 st.dev
  ino := bswap32 st.ino
  mode := bswap32 st.dev -- not st.mode
  nlink := bswap32 st.nlink
  uid := bswap32 st.uid
  gid := bswap32 st.gid
  rdev := bswap32 st.rdev
  size := bswap64 st.size
  blksize := bswap64 st.blksize
  blocks := bswap64 st.blocks
  atime := bswap32 st.atime
  mtime := bswap32 st.mtime
  ctime := bswap32 st.ctime

/-- What there is at a path. -/
inductive StatEntry
  | file (size : UInt64)
  | directory

/-- `GDBHIO_S_IFREG` with permission to read and write for all, and `GDBHIO_S_IFDIR` with all permissions. -/
def StatEntry.mode : StatEntry → UInt32
  | .file _ => 0o100000 ||| 0o666
  | .directory => 0o40000 ||| 0o777

/-- `gdbSt` of `GDB_TioStat`; the size of a file is asked for and not put in. -/
def tioStatOf (entry : StatEntry) : GdbhioStat := { GdbhioStat.zero with nlink := 1, mode := entry.mode }

/-- The loop of `GDB_EscapeBinaryData` in one memory, from the places `dst` and `src` on: the memory after it, and the end of what
is written. -/
def escapeInMemory (m : Memory UInt8) (dst src stop : Nat) : Memory UInt8 × Nat :=
  if _hroom : dst < stop then
    if special (m src) = true then
      if dst + 1 ≥ stop then (m, dst)
      else
        let m := m.store dst [0x7D]
        escapeInMemory (m.store (dst + 1) [m src ^^^ 0x20]) (dst + 2) (src + 1) stop
    else escapeInMemory (m.store dst [m src]) (dst + 1) (src + 1) stop
  else (m, dst)
termination_by stop - dst

/-- `GDB_TioStat`, for what exists: the data of the packet. `buf` and no structure is the source of what is escaped. -/
def tioStatReply (entry : StatEntry) : List UInt8 :=
  let _gdbStFinal := tioMakeStructStat (tioStatOf entry)
  let buf := Memory.ofBytes (ascii "F0;")
  let (buf, stop) := escapeInMemory buf 3 0 (3 + min (2 * gdbhioStatSize) gdbhioStatSize)
  buf.read 0 (3 + (stop - 3))

/-! ## What is expected -/

/-- The structure in the order of bytes of the protocol. -/
def GdbhioStat.bigEndian (st : GdbhioStat) : List UInt8 := st.fields.flatMap fun (size, value) => (Memory.leBytes size value).reverse

/-- The structure is for what there is. -/
structure GdbhioStat.Describes (st : GdbhioStat) (entry : StatEntry) : Prop where
  mode : st.mode = entry.mode
  nlink : st.nlink = 1
  size : ∀ n, entry = .file n → st.size = n

/-- The structure comes back from an attachment. -/
def AttachmentRight (entry : StatEntry) (attachment : List UInt8) : Prop :=
  ∃ st : GdbhioStat, st.Describes entry ∧ ∀ behind, unescapeBinaryData behind attachment = st.bigEndian

/-- The reply has the number of bytes of the structure, and the structure behind it. -/
def StatRight (entry : StatEntry) (reply : List UInt8) : Prop :=
  ∃ attachment, reply = ascii "F" ++ hexText gdbhioStatSize ++ ascii ";" ++ attachment ∧ AttachmentRight entry attachment

/-! ## What is sent -/

/-- The three characters, again and again. -/
def repeated (x : Nat) : UInt8 := (ascii "F0;").getD (x % 3) 0

theorem repeated_next (x : Nat) : repeated (x + 3) = repeated x := by
  unfold repeated
  rw [Nat.add_mod_right]

theorem special_repeated (x : Nat) : special (repeated x) = false := by
  unfold repeated
  have hlt := Nat.mod_lt x (show 0 < 3 by omega)
  interval_cases x % 3 <;> rfl

/-- As the source is three bytes in front of what is written, it is what has been written before. -/
theorem escapeInMemory_repeated {m : Memory UInt8} {dst src stop : Nat} (hsrc : dst = src + 3) (hle : dst ≤ stop)
    (hm : ∀ x < dst, m x = repeated x) :
    (escapeInMemory m dst src stop).2 = stop ∧ ∀ x < stop, (escapeInMemory m dst src stop).1 x = repeated x := by
  induction m, dst, src using escapeInMemory.induct stop with
  | case1 m dst src hroom hspecial hend =>
    rw [hm src (by omega), special_repeated] at hspecial
    cases hspecial
  | case2 m dst src hroom hspecial hend m' ih =>
    rw [hm src (by omega), special_repeated] at hspecial
    cases hspecial
  | case3 m dst src hroom hspecial ih =>
    rw [escapeInMemory, dif_pos hroom, if_neg hspecial]
    refine ih (by omega) (by omega) fun x hx => ?_
    rcases Nat.lt_succ_iff_lt_or_eq.mp hx with hlt | rfl
    · rw [m.store_outside (.inl hlt)]
      exact hm x hlt
    · rw [m.store_inside le_rfl (by simp)]
      simp only [Nat.sub_self, List.getElem_cons_zero]
      rw [hm src (by omega), hsrc, repeated_next]
  | case4 m dst src hroom =>
    rw [escapeInMemory, dif_neg hroom]
    obtain rfl : dst = stop := by omega
    exact ⟨rfl, hm⟩

/-- The reply is the same for all files and directories. -/
theorem tioStatReply_eq (entry : StatEntry) : tioStatReply entry = (List.range (3 + gdbhioStatSize)).map repeated := by
  have hbegin : ∀ x < 3, Memory.ofBytes (ascii "F0;") x = repeated x := by
    intro x hx
    interval_cases x <;> rfl
  obtain ⟨hstop, hbytes⟩ := escapeInMemory_repeated rfl (show 3 ≤ 3 + gdbhioStatSize by omega) hbegin
  have hmin : min (2 * gdbhioStatSize) gdbhioStatSize = gdbhioStatSize := min_eq_right (by omega)
  unfold tioStatReply
  simp only [hmin, hstop, Nat.add_sub_cancel_left]
  unfold Memory.read
  refine List.map_congr_left fun x hx => ?_
  rw [Nat.zero_add]
  exact hbytes x (List.mem_range.mp hx)

/-! ## What it should have been -/

/-- Data without escapes are themselves. -/
theorem unescapeBinaryData_self {data : List UInt8} (h : ∀ b ∈ data, special b = false) (behind : UInt8) :
    unescapeBinaryData behind data = data := by
  induction data with
  | nil => rfl
  | cons b data ih =>
    obtain ⟨hb, hdata⟩ := List.forall_mem_cons.mp h
    rw [unescapeBinaryData_cons behind hb, ih hdata]

/-- Where the mode is in the structure. -/
theorem bigEndian_mode (st : GdbhioStat) : st.bigEndian[8]? = some (UInt8.ofNat (st.mode.toNat / 256 / 256 / 256)) := rfl

/-- No mode has a byte that is not zero in front. -/
theorem StatEntry.mode_high (entry : StatEntry) : entry.mode.toNat / 256 / 256 / 256 = 0 := by
  cases entry with
  | file size => exact (by decide : (0o100000 ||| 0o666 : UInt32).toNat / 256 / 256 / 256 = 0)
  | directory => exact (by decide : (0o40000 ||| 0o777 : UInt32).toNat / 256 / 256 / 256 = 0)

/-- The mode is not zero, as its lowest byte is not. -/
theorem StatEntry.mode_low (entry : StatEntry) : UInt8.ofNat entry.mode.toNat ≠ 0 := by
  cases entry with
  | file size => exact (by decide : UInt8.ofNat (0o100000 ||| 0o666 : UInt32).toNat ≠ 0)
  | directory => exact (by decide : UInt8.ofNat (0o40000 ||| 0o777 : UInt32).toNat ≠ 0)

/-- Whatever number is in front of it, the attachment is not the structure. -/
theorem attachment_wrong (entry : StatEntry) : ¬AttachmentRight entry ((tioStatReply entry).drop 3) := by
  rintro ⟨st, hst, hattachment⟩
  have hself : ∀ b ∈ (tioStatReply entry).drop 3, special b = false := by
    rw [tioStatReply_eq]
    intro b hb
    obtain ⟨x, -, rfl⟩ := List.mem_map.mp (List.mem_of_mem_drop hb)
    exact special_repeated x
  have hdata := hattachment 0
  rw [unescapeBinaryData_self hself, tioStatReply_eq] at hdata
  -- in the place of the mode there is a semicolon
  have hbyte : ((List.range (3 + gdbhioStatSize)).map repeated)[11]? = st.bigEndian[8]? := by
    rw [← hdata, List.getElem?_drop]
  rw [bigEndian_mode, hst.mode, entry.mode_high] at hbyte
  exact absurd hbyte (by decide)

/-- And the structure that is made and not sent has no mode. -/
theorem tioMakeStructStat_wrong (entry : StatEntry) {st : GdbhioStat} (hst : st.Describes entry) :
    (tioMakeStructStat (tioStatOf entry)).bytes ≠ st.bigEndian := by
  intro h
  have hbytes : ∀ made : GdbhioStat, made.bytes[11]? = some (UInt8.ofNat (made.mode.toNat / 256 / 256 / 256)) := fun _ => rfl
  have hmade : (tioMakeStructStat (tioStatOf entry)).bytes[11]? = some 0 := by
    rw [hbytes]
    exact congrArg some (by decide : UInt8.ofNat ((bswap32 0).toNat / 256 / 256 / 256) = 0)
  have hmode : st.bigEndian[11]? = some (UInt8.ofNat st.mode.toNat) := rfl
  rw [h, hmode, hst.mode] at hmade
  exact entry.mode_low (Option.some.inj hmade)

/-- The number in front of the attachment is 0. -/
theorem number_wrong (entry : StatEntry) (attachment : List UInt8) :
    tioStatReply entry ≠ ascii "F" ++ hexText gdbhioStatSize ++ ascii ";" ++ attachment := by
  intro hreply
  have hnumber : hexText gdbhioStatSize = ascii "40" := by decide
  rw [tioStatReply_eq, hnumber] at hreply
  have hdigit := congrArg (fun data : List UInt8 => data[1]?) hreply
  exact absurd hdigit (by simp [ascii, repeated, gdbhioStatSize])

/-- No file and no directory gets the reply that it should. -/
theorem stat_never_right (entry : StatEntry) : ¬StatRight entry (tioStatReply entry) := by
  rintro ⟨attachment, hreply, -⟩
  exact number_wrong entry attachment hreply

/-- An empty file does not either. -/
theorem stat_emptyFile : ¬StatRight (.file 0) (tioStatReply (.file 0)) := by
  rintro ⟨attachment, hreply, -⟩
  exact number_wrong (.file 0) attachment hreply

end Omiiba.Rosalina
