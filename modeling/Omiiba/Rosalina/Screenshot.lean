/-
Screenshots, after menus.c and draw.c: the header of the file, the conversion of the pixels of a screen, and the loop that
writes the lines in pieces of what the cache of the framebuffer holds. When the file is the screen.
-/
import Omiiba.Lib.Writes

namespace Omiiba.Rosalina

open Memory (leBytes Stores)

/-! ## The screens -/

/-- `GSPGPU_FramebufferFormat`. -/
inductive FramebufferFormat where
  | rgba8
  | bgr8
  | rgb565
  | rgb5A1
  | rgba4
  deriving DecidableEq

/-- `GPU_FB_TOP_FMT` or `GPU_FB_BOTTOM_FMT`: the format in the low bits, and the bits that tell the mode of the top screen. -/
structure FormatRegister where
  format : FramebufferFormat
  bit5 : Bool
  bit6 : Bool

/-- The registers of the screens, and the memory that the kernel sees. -/
structure Gpu where
  topFmt : FormatRegister
  bottomFmt : FormatRegister
  topStride : UInt32
  bottomStride : UInt32
  bottomSel : UInt32
  topLeftAddr1 : UInt32
  topLeftAddr2 : UInt32
  topRightAddr1 : UInt32
  topRightAddr2 : UInt32
  bottomAddr1 : UInt32
  bottomAddr2 : UInt32
  kernelVersionMinor : Nat
  byte : UInt32 → UInt8

/-- `KERNPA2VA`. -/
def kernPa2Va (gpu : Gpu) (pa : UInt32) : UInt32 := pa + if gpu.kernelVersionMinor < 44 then 0xD0000000 else 0xC0000000

/-- `Draw_GetCurrentFramebufferAddress`. -/
def getCurrentFramebufferAddress (gpu : Gpu) (top left : Bool) : UInt32 :=
  if gpu.bottomSel &&& 1 ≠ 0 then
    if left then if top then gpu.topLeftAddr2 else gpu.bottomAddr2
    else if top then gpu.topRightAddr2 else gpu.bottomAddr2
  else
    if left then if top then gpu.topLeftAddr1 else gpu.bottomAddr1
    else if top then gpu.topRightAddr1 else gpu.bottomAddr1

/-- `Draw_GetCurrentScreenInfo`: the width, and whether the screen shows two pictures. -/
def getCurrentScreenInfo (gpu : Gpu) (top : Bool) : Nat × Bool :=
  if top then
    let isNormal2d := gpu.topFmt.bit6
    let is3d := gpu.topFmt.bit5
    (if !is3d && !isNormal2d then 800 else 400, is3d)
  else (320, false)

/-! ## Conversion -/

def loadHalf (byte : UInt32 → UInt8) (src : UInt32) : UInt16 := (byte src).toUInt16 ||| (byte (src + 1)).toUInt16 <<< 8

def loadWord (byte : UInt32 → UInt8) (src : UInt32) : UInt32 :=
  (loadHalf byte src).toUInt32 ||| (loadHalf byte (src + 2)).toUInt32 <<< 16

/-- `Draw_ConvertPixelToBGR8`. -/
def convertPixelToBGR8 (byte : UInt32 → UInt8) (src : UInt32) : FramebufferFormat → List UInt8
  | .rgba8 =>
    let px := loadWord byte src
    [((px >>> 8) &&& 0xFF).toUInt8, ((px >>> 16) &&& 0xFF).toUInt8, ((px >>> 24) &&& 0xFF).toUInt8]
  | .bgr8 => [byte src, byte (src + 1), byte (src + 2)]
  | .rgb565 =>
    let px := loadHalf byte src
    let blue := (px &&& 0x1F).toUInt8
    let green := ((px >>> 5) &&& 0x3F).toUInt8
    let red := ((px >>> 11) &&& 0x1F).toUInt8
    [(blue <<< 3) ||| (blue >>> 2), (green <<< 2) ||| (green >>> 4), (red <<< 3) ||| (red >>> 2)]
  | .rgb5A1 =>
    let px := loadHalf byte src
    let blue := ((px >>> 1) &&& 0x1F).toUInt8
    let green := ((px >>> 6) &&& 0x1F).toUInt8
    let red := ((px >>> 11) &&& 0x1F).toUInt8
    [(blue <<< 3) ||| (blue >>> 2), (green <<< 3) ||| (green >>> 2), (red <<< 3) ||| (red >>> 2)]
  | .rgba4 =>
    let px := (loadWord byte src).toUInt16
    let blue := ((px >>> 4) &&& 0xF).toUInt8
    let green := ((px >>> 8) &&& 0xF).toUInt8
    let red := ((px >>> 12) &&& 0xF).toUInt8
    [(blue <<< 4) ||| blue, (green <<< 4) ||| green, (red <<< 4) ||| red]

def formatSizes : FramebufferFormat → UInt32
  | .rgba8 => 4
  | .bgr8 => 3
  | .rgb565 => 2
  | .rgb5A1 => 2
  | .rgba4 => 2

/-- The arguments of the kernel's part of the conversion; `buf` is an offset in the buffer. -/
structure FrameBufferConvertArgs where
  buf : Nat
  width : Nat
  startingLine : UInt8
  numLines : UInt8
  scaleFactorY : UInt8
  top : Bool
  left : Bool

/-- `Draw_ConvertFrameBufferLinesKernel`: what it writes to the buffer. -/
def convertFrameBufferLinesKernel (gpu : Gpu) (args : FrameBufferConvertArgs) : List (Write UInt8) :=
  let fmt := if args.top then gpu.topFmt.format else gpu.bottomFmt.format
  let width := args.width
  let stride := if args.top then gpu.topStride else gpu.bottomStride
  let addr := kernPa2Va gpu (getCurrentFramebufferAddress gpu args.top args.left)
  let scaleFactorY := args.scaleFactorY.toNat
  (List.range args.numLines.toNat).flatMap fun k =>
    let y := args.startingLine.toNat + k
    (List.range scaleFactorY).flatMap fun i =>
      (List.range width).map fun x =>
        -- `y` counts from the first line of the screen, whatever line is the first one in the buffer
        ⟨args.buf + (x + width * (scaleFactorY * y + i)) * 3,
          convertPixelToBGR8 gpu.byte (addr + UInt32.ofNat x * stride + UInt32.ofNat y * formatSizes fmt) fmt⟩

/-- `Draw_ConvertFrameBufferLines`. -/
def convertFrameBufferLines (gpu : Gpu) (buf width startingLine numLines scaleFactorY : Nat) (top left : Bool) :
    List (Write UInt8) :=
  convertFrameBufferLinesKernel gpu
    ⟨buf, width, UInt8.ofNat startingLine, UInt8.ofNat numLines, UInt8.ofNat scaleFactorY, top, left⟩

/-! ## The header -/

def bmpHeaderTemplate : List UInt8 :=
  [0x42, 0x4D, 0xCC, 0xCC, 0xCC, 0xCC, 0x00, 0x00, 0x00, 0x00, 0x40, 0x00, 0x00, 0x00,
    0x28, 0x00, 0x00, 0x00, 0xCC, 0xCC, 0xCC, 0xCC, 0xCC, 0xCC, 0xCC, 0xCC, 0x01, 0x00, 0x18, 0x00, 0x00,
    0x00, 0x00, 0x00, 0xCC, 0xCC, 0xCC, 0xCC, 0x12, 0x0B, 0x00, 0x00, 0x12, 0x0B, 0x00, 0x00, 0x00, 0x00,
    0x00, 0x00, 0x00, 0x00, 0x00, 0x00]

/-- `Draw_CreateBitmapHeader`, at the beginning of the buffer. -/
def createBitmapHeader (width heigth : Nat) : List (Write UInt8) :=
  [⟨0, bmpHeaderTemplate⟩, ⟨54, List.replicate (64 - 54) 0⟩, ⟨2, leBytes 4 (64 + 3 * width * heigth)⟩, ⟨0x12, leBytes 4 width⟩,
    ⟨0x16, leBytes 4 heigth⟩, ⟨0x22, leBytes 4 (3 * width * heigth)⟩]

/-! ## The screenshots -/

/-- `Draw_AllocateFramebufferCache`: the size of the cache, where there is the memory for it. -/
def allocateFramebufferCache (size : Nat) : Nat := (size + 0xFFF) >>> 12 <<< 12

/-- `Draw_AllocateFramebufferCacheForScreenshot`, where `free` is what `osGetMemRegionFree` returns. -/
def allocateFramebufferCacheForScreenshot (free : UInt32) (size : Nat) : Nat :=
  allocateFramebufferCache (if free.toNat < size then free.toNat else size)

def headerSize : Nat := 0x40

def lineSize (width : Nat) : Nat := 3 * width

def scaleFactorY (width : Nat) : Nat := if width > 400 then 2 else 1

def numLinesScaled (width : Nat) : Nat := 240 * scaleFactorY width

/-- What is written to the cache, and the file. -/
structure ScreenshotTrace where
  writes : List (Write UInt8)
  file : List UInt8

/-- The loop of `RosalinaMenu_WriteScreenshot`; `none` if it takes more than so many rounds. -/
def writeLoop (gpu : Gpu) (width : Nat) (top left : Bool) (cacheSize : Nat) :
    Nat → Memory UInt8 → Nat → Nat → Nat → Option ScreenshotTrace
  | 0, _, _, _, _ => none
  | fuel + 1, cache, buf, y, remaining =>
    if remaining = 0 then some ⟨[], []⟩
    else
      let available := (cacheSize + 2 ^ 32 - buf) % 2 ^ 32
      let size := if available < remaining then available else remaining
      let nlines := size / (lineSize width * scaleFactorY width)
      let writes := convertFrameBufferLines gpu buf width y nlines (scaleFactorY width) top left
      let cache := cache.written writes
      -- only the first piece has the header in front of it
      let total := (if y = 0 then headerSize else 0) + lineSize width * nlines * scaleFactorY width
      let rest := writeLoop gpu width top left cacheSize fuel cache 0 (y + nlines)
        (remaining - lineSize width * nlines * scaleFactorY width)
      rest.map fun trace => ⟨writes ++ trace.writes, cache.read 0 total ++ trace.file⟩

/-- `RosalinaMenu_WriteScreenshot`, where the cache can be allocated and the file takes what is written; `cache` is what was in
it. -/
def writeScreenshot (gpu : Gpu) (width : Nat) (top left : Bool) (free : UInt32) (cache : Memory UInt8) (fuel : Nat) :
    Option ScreenshotTrace :=
  let remaining := lineSize width * numLinesScaled width
  let cacheSize := allocateFramebufferCacheForScreenshot free remaining
  let header := createBitmapHeader width (numLinesScaled width)
  (writeLoop gpu width top left cacheSize fuel (cache.written header) headerSize 0 remaining).map fun trace =>
    ⟨header ++ trace.writes, trace.file⟩

/-- `menuWriteSelfScreenshot`, where the buffer is allocated. -/
def menuWriteSelfScreenshot (gpu : Gpu) (buffer : Memory UInt8) : ScreenshotTrace :=
  let width := 320
  let lineSize := 3 * width
  let scaleFactorY := 1
  let numLinesScaled := 240 * scaleFactorY
  -- of the 64 bytes of the header, the pixels take the last ten
  let writes := createBitmapHeader width numLinesScaled ++
    convertFrameBufferLines gpu 54 width 0 numLinesScaled scaleFactorY false false
  ⟨writes, (buffer.written writes).read 0 (54 + lineSize * numLinesScaled * scaleFactorY)⟩

/-! ## The file -/

/-- The header of a picture of 24 bits a pixel: that of the file, that of the picture, and zeros up to the pixels. -/
def bitmapHeader (width height : Nat) : List UInt8 :=
  [0x42, 0x4D] ++ leBytes 4 (64 + 3 * width * height) ++ leBytes 4 0 ++ leBytes 4 64 ++
    leBytes 4 40 ++ leBytes 4 width ++ leBytes 4 height ++ leBytes 2 1 ++ leBytes 2 24 ++ leBytes 4 0 ++
    leBytes 4 (3 * width * height) ++ leBytes 4 2834 ++ leBytes 4 2834 ++ leBytes 4 0 ++ leBytes 4 0 ++ List.replicate 10 0

/-- The pixel of a screen at a position, converted. -/
def screenPixel (gpu : Gpu) (top left : Bool) (x y : Nat) : List UInt8 :=
  let register := if top then gpu.topFmt else gpu.bottomFmt
  let stride := if top then gpu.topStride else gpu.bottomStride
  let framebuffer := kernPa2Va gpu (getCurrentFramebufferAddress gpu top left)
  convertPixelToBGR8 gpu.byte (framebuffer + UInt32.ofNat x * stride + UInt32.ofNat y * formatSizes register.format)
    register.format

def screenLine (gpu : Gpu) (width : Nat) (top left : Bool) (y : Nat) : List UInt8 :=
  (List.range width).flatMap fun x => screenPixel gpu top left x y

/-- The lines of a screen, each of them as often as the picture needs it. -/
def screenImage (gpu : Gpu) (width : Nat) (top left : Bool) : List UInt8 :=
  (List.range (numLinesScaled width)).flatMap fun line => screenLine gpu width top left (line / scaleFactorY width)

def screenshotFile (gpu : Gpu) (width : Nat) (top left : Bool) : List UInt8 :=
  bitmapHeader width (numLinesScaled width) ++ screenImage gpu width top left

/-- A width that `Draw_GetCurrentScreenInfo` finds. -/
def ScreenWidth (width : Nat) : Prop := ∃ gpu top, (getCurrentScreenInfo gpu top).1 = width

/-- The size of the cache of a screenshot. -/
def screenshotCache (width : Nat) (free : UInt32) : Nat :=
  allocateFramebufferCacheForScreenshot free (lineSize width * numLinesScaled width)

/-- The screenshot is written to the end and inside the cache, and the file is the screen. -/
def WritesScreenshot (gpu : Gpu) (width : Nat) (top left : Bool) (free : UInt32) (cache : Memory UInt8) : Prop :=
  ∃ fuel trace, writeScreenshot gpu width top left free cache fuel = some trace ∧
    (∀ w ∈ trace.writes, w.stop ≤ screenshotCache width free) ∧ trace.file = screenshotFile gpu width top left

/-- The pixels are in the file at the offset that its header has for them. -/
def PixelsAtOffset (file pixels : List UInt8) : Prop :=
  (file.drop ((Memory.ofBytes file).load 10 4)).take pixels.length = pixels

/-! ## Lines -/

theorem convertPixelToBGR8_length (byte : UInt32 → UInt8) (src : UInt32) (fmt : FramebufferFormat) :
    (convertPixelToBGR8 byte src fmt).length = 3 := by
  cases fmt <;> rfl

section

variable (gpu : Gpu) (width : Nat) (top left : Bool)

@[simp] theorem screenPixel_length (x y : Nat) : (screenPixel gpu top left x y).length = 3 := convertPixelToBGR8_length _ _ _

@[simp] theorem screenLine_length (y : Nat) : (screenLine gpu width top left y).length = 3 * width :=
  Memory.length_flatMap_range fun x _ => screenPixel_length gpu top left x y

@[simp] theorem screenImage_length : (screenImage gpu width top left).length = 3 * width * numLinesScaled width :=
  Memory.length_flatMap_range fun _ _ => screenLine_length gpu width top left _

/-- What the kernel writes: the pixels of the lines, each line in as many rows as the scale says. -/
theorem convertFrameBufferLines_eq {buf start n scale : Nat} (hstart : start < 256) (hn : n < 256) (hscale : scale < 256) :
    convertFrameBufferLines gpu buf width start n scale top left =
      (List.range n).flatMap fun k => (List.range scale).flatMap fun i => (List.range width).map fun x =>
        ⟨buf + (x + width * (scale * (start + k) + i)) * 3, screenPixel gpu top left x (start + k)⟩ := by
  have hbyte : ∀ {v : Nat}, v < 256 → (UInt8.ofNat v).toNat = v := fun h => Nat.mod_eq_of_lt h
  unfold convertFrameBufferLines convertFrameBufferLinesKernel
  simp only [hbyte hstart, hbyte hn, hbyte hscale]
  cases top <;> rfl

theorem mem_convertFrameBufferLines {buf start n scale : Nat} (hstart : start < 256) (hn : n < 256) (hscale : scale < 256)
    {w : Write UInt8} : w ∈ convertFrameBufferLines gpu buf width start n scale top left ↔
      ∃ k < n, ∃ i < scale, ∃ x < width,
        ⟨buf + (x + width * (scale * (start + k) + i)) * 3, screenPixel gpu top left x (start + k)⟩ = w := by
  rw [convertFrameBufferLines_eq gpu width top left hstart hn hscale]
  simp only [List.mem_flatMap, List.mem_range, List.mem_map]

/-- The lines are put one behind the other, at the place that the number of the first one gives. -/
theorem convertFrameBufferLines_stores {buf start n scale : Nat} (hstart : start < 256) (hn : n < 256) (hscale : scale < 256) :
    Stores (convertFrameBufferLines gpu buf width start n scale top left) (buf + 3 * width * scale * start)
      ((List.range n).flatMap fun k => (List.range scale).flatMap fun _ => screenLine gpu width top left (start + k)) := by
  rw [convertFrameBufferLines_eq gpu width top left hstart hn hscale]
  refine Memory.Stores.flatMap_range (fun k _ => Memory.length_flatMap_range fun i _ => screenLine_length gpu width top left _)
    fun k _ => ?_
  refine Memory.Stores.flatMap_range (fun i _ => screenLine_length gpu width top left _) fun i _ => ?_
  rw [List.map_eq_flatMap]
  refine Memory.Stores.flatMap_range (fun x _ => screenPixel_length gpu top left x _) fun x _ => ?_
  have hplace : buf + (x + width * (scale * (start + k) + i)) * 3 =
      buf + 3 * width * scale * start + 3 * width * scale * k + 3 * width * i + 3 * x := by
    ring
  rw [hplace]
  exact Memory.Stores.single _ _

theorem add_mul_lt {x w j n : Nat} (hx : x < w) (hj : j < n) : x + w * j < w * n :=
  calc x + w * j < w + w * j := Nat.add_lt_add_right hx _
    _ = w * (j + 1) := by ring
    _ ≤ w * n := Nat.mul_le_mul_left w hj

theorem convertFrameBufferLines_stop_le {buf start n scale : Nat} (hstart : start < 256) (hn : n < 256) (hscale : scale < 256) :
    ∀ w ∈ convertFrameBufferLines gpu buf width start n scale top left, w.stop ≤ buf + 3 * width * scale * (start + n) := by
  intro w hw
  obtain ⟨k, hk, i, hi, x, hx, rfl⟩ := (mem_convertFrameBufferLines gpu width top left hstart hn hscale).mp hw
  have hrow : scale * (start + k) + i < scale * (start + n) := by
    rw [Nat.add_comm]
    exact add_mul_lt hi (by omega)
  have hpixel := add_mul_lt hx hrow
  unfold Write.stop
  rw [screenPixel_length, show 3 * width * scale * (start + n) = width * (scale * (start + n)) * 3 by ring]
  show buf + (x + width * (scale * (start + k) + i)) * 3 + 3 ≤ _
  omega

/-- The last pixel. -/
theorem convertFrameBufferLines_last {buf start n scale : Nat} (hstart : start < 256) (hn : n < 256) (hscale : scale < 256)
    (hlines : 0 < n) (hrows : 0 < scale) (hwidth : 0 < width) :
    ∃ w ∈ convertFrameBufferLines gpu buf width start n scale top left, w.stop = buf + 3 * width * scale * (start + n) := by
  refine ⟨_, (mem_convertFrameBufferLines gpu width top left hstart hn hscale).mpr
    ⟨n - 1, by omega, scale - 1, by omega, width - 1, by omega, rfl⟩, ?_⟩
  obtain ⟨n, rfl⟩ := Nat.exists_eq_succ_of_ne_zero hlines.ne'
  obtain ⟨scale, rfl⟩ := Nat.exists_eq_succ_of_ne_zero hrows.ne'
  obtain ⟨width, rfl⟩ := Nat.exists_eq_succ_of_ne_zero hwidth.ne'
  unfold Write.stop
  rw [screenPixel_length]
  simp only [Nat.succ_eq_add_one, Nat.add_sub_cancel]
  ring

/-- Rows counted through are rows of lines. -/
theorem flatMap_div {α : Type*} (f : Nat → List α) (n : Nat) {scale : Nat} (hscale : 0 < scale) :
    (List.range (n * scale)).flatMap (fun j => f (j / scale)) =
      (List.range n).flatMap fun k => (List.range scale).flatMap fun _ => f k := by
  induction n with
  | zero => simp
  | succ n ih =>
    have hrows : (List.range scale).flatMap (fun i => f ((n * scale + i) / scale)) =
        (List.range scale).flatMap fun _ => f n := by
      refine List.flatMap_congr fun i hi => ?_
      rw [Nat.mul_comm, Nat.mul_add_div hscale, Nat.div_eq_of_lt (List.mem_range.mp hi), Nat.add_zero]
    rw [Nat.succ_mul, List.range_add, List.flatMap_append, ih, List.flatMap_map, hrows, List.range_succ, List.flatMap_append,
      List.flatMap_singleton]

end

/-! ## The header -/

@[simp] theorem bitmapHeader_length (width height : Nat) : (bitmapHeader width height).length = headerSize := by
  simp [bitmapHeader, headerSize]

theorem createBitmapHeader_stores (width height : Nat) :
    Stores (createBitmapHeader width height) 0 (bitmapHeader width height) := by
  intro m
  -- the fields of the template that are filled in, and what is between them
  let hole : List UInt8 := [0xCC, 0xCC, 0xCC, 0xCC]
  let magic : List UInt8 := [0x42, 0x4D]
  let offset : List UInt8 := leBytes 4 0 ++ leBytes 4 64 ++ leBytes 4 40
  let planes : List UInt8 := leBytes 2 1 ++ leBytes 2 24 ++ leBytes 4 0
  let rest : List UInt8 := leBytes 4 2834 ++ leBytes 4 2834 ++ leBytes 4 0 ++ leBytes 4 0 ++ List.replicate 10 0
  let size := leBytes 4 (64 + 3 * width * height)
  let bytes := leBytes 4 (3 * width * height)
  calc m.written (createBitmapHeader width height)
      = ((((m.store 0 (magic ++ hole ++ (offset ++ hole ++ hole ++ planes ++ hole ++ rest))).store 2 size).store 0x12
          (leBytes 4 width)).store 0x16 (leBytes 4 height)).store 0x22 bytes := by
        show (((((m.store 0 bmpHeaderTemplate).store 54 _).store 2 size).store 0x12 _).store 0x16 _).store 0x22 bytes = _
        rw [show (m.store 0 bmpHeaderTemplate).store 54 (List.replicate (64 - 54) 0) = _ from (m.store_append 0 _ _).symm]
        rfl
    _ = (((m.store 0 (magic ++ size ++ offset ++ hole ++ (hole ++ planes ++ hole ++ rest))).store 0x12
          (leBytes 4 width)).store 0x16 (leBytes 4 height)).store 0x22 bytes := by
        rw [m.store_field magic hole _ (show 2 = 0 + magic.length from rfl) (show size.length = hole.length from rfl)]
        simp only [List.append_assoc]
    _ = ((m.store 0 (magic ++ size ++ offset ++ leBytes 4 width ++ hole ++ (planes ++ hole ++ rest))).store 0x16
          (leBytes 4 height)).store 0x22 bytes := by
        rw [m.store_field (magic ++ size ++ offset) hole _ (show 0x12 = 0 + (magic ++ size ++ offset).length from rfl)
          (show (leBytes 4 width).length = hole.length from rfl)]
        simp only [List.append_assoc]
    _ = (m.store 0 (magic ++ size ++ offset ++ leBytes 4 width ++ leBytes 4 height ++ planes ++ hole ++ rest)).store 0x22
          bytes := by
        rw [m.store_field (magic ++ size ++ offset ++ leBytes 4 width) hole _
          (show 0x16 = 0 + (magic ++ size ++ offset ++ leBytes 4 width).length from rfl)
          (show (leBytes 4 height).length = hole.length from rfl)]
        simp only [List.append_assoc]
    _ = m.store 0 (bitmapHeader width height) := by
        rw [m.store_field (magic ++ size ++ offset ++ leBytes 4 width ++ leBytes 4 height ++ planes) hole rest
          (show 0x22 = 0 + (magic ++ size ++ offset ++ leBytes 4 width ++ leBytes 4 height ++ planes).length from rfl)
          (show bytes.length = hole.length from rfl)]
        simp only [bitmapHeader, List.append_assoc]
        rfl

/-! ## The loop -/

/-- How many lines a round takes. -/
def roundLines (width cacheSize buf remaining : Nat) : Nat :=
  min ((cacheSize + 2 ^ 32 - buf) % 2 ^ 32) remaining / (lineSize width * scaleFactorY width)

section

variable (gpu : Gpu) (width : Nat) (top left : Bool) (cacheSize : Nat)

theorem writeLoop_zero (fuel : Nat) (cache : Memory UInt8) (buf y : Nat) :
    writeLoop gpu width top left cacheSize (fuel + 1) cache buf y 0 = some ⟨[], []⟩ := by
  rw [writeLoop, if_pos rfl]

/-- A round of the loop. -/
theorem writeLoop_round (fuel : Nat) (cache : Memory UInt8) (buf y : Nat) {remaining : Nat} (hmore : remaining ≠ 0) :
    writeLoop gpu width top left cacheSize (fuel + 1) cache buf y remaining =
      let nlines := roundLines width cacheSize buf remaining
      let writes := convertFrameBufferLines gpu buf width y nlines (scaleFactorY width) top left
      let total := (if y = 0 then headerSize else 0) + lineSize width * nlines * scaleFactorY width
      (writeLoop gpu width top left cacheSize fuel (cache.written writes) 0 (y + nlines)
        (remaining - lineSize width * nlines * scaleFactorY width)).map fun trace =>
          ⟨writes ++ trace.writes, (cache.written writes).read 0 total ++ trace.file⟩ := by
  rw [writeLoop, if_neg hmore]
  have hmin : ∀ a b : Nat, (if a < b then a else b) = min a b := by
    intro a b
    split <;> omega
  simp only [hmin]
  rfl

/-- The rounds of a loop that ends. -/
theorem writeLoop_some {fuel : Nat} {cache : Memory UInt8} {buf y remaining : Nat} {trace : ScreenshotTrace}
    (hmore : remaining ≠ 0) (h : writeLoop gpu width top left cacheSize fuel cache buf y remaining = some trace) :
    ∃ fuel cache' rest,
      writeLoop gpu width top left cacheSize fuel cache' 0 (y + roundLines width cacheSize buf remaining)
        (remaining - lineSize width * roundLines width cacheSize buf remaining * scaleFactorY width) = some rest ∧
      trace.writes =
        convertFrameBufferLines gpu buf width y (roundLines width cacheSize buf remaining) (scaleFactorY width) top left ++
          rest.writes := by
  cases fuel with
  | zero => cases h
  | succ fuel =>
    rw [writeLoop_round gpu width top left cacheSize fuel cache buf y hmore] at h
    obtain ⟨rest, hrest, rfl⟩ := Option.map_eq_some_iff.mp h
    exact ⟨fuel, _, rest, hrest, rfl⟩

theorem scaleFactorY_cases : scaleFactorY width = 1 ∨ scaleFactorY width = 2 := by
  unfold scaleFactorY
  split
  · exact .inr rfl
  · exact .inl rfl

theorem scaleFactorY_lt : scaleFactorY width < 256 := by
  rcases scaleFactorY_cases width with h | h <;> omega

theorem scaleFactorY_pos : 0 < scaleFactorY width := by
  rcases scaleFactorY_cases width with h | h <;> omega

/-- All lines behind the header are the picture. -/
theorem screenImage_stores :
    Stores (convertFrameBufferLines gpu headerSize width 0 240 (scaleFactorY width) top left) headerSize
      (screenImage gpu width top left) := by
  have hstores := @convertFrameBufferLines_stores gpu width top left headerSize 0 240 _ (by omega) (by omega)
    (scaleFactorY_lt width)
  unfold screenImage numLinesScaled
  rw [flatMap_div (screenLine gpu width top left) 240 (scaleFactorY_pos width)]
  simpa using hstores

variable {width cacheSize}

theorem roundLines_whole (hwidth : 0 < width) (hcache : cacheSize < 2 ^ 32)
    (hfits : headerSize + lineSize width * numLinesScaled width ≤ cacheSize) :
    roundLines width cacheSize headerSize (lineSize width * numLinesScaled width) = 240 := by
  have havailable : (cacheSize + 2 ^ 32 - headerSize) % 2 ^ 32 = cacheSize - headerSize := by
    unfold headerSize at *
    omega
  have hline : 0 < lineSize width * scaleFactorY width := Nat.mul_pos (by unfold lineSize; omega) (scaleFactorY_pos width)
  unfold roundLines
  rw [havailable, min_eq_right (by omega)]
  unfold numLinesScaled
  rw [show lineSize width * (240 * scaleFactorY width) = 240 * (lineSize width * scaleFactorY width) by ring,
    Nat.mul_div_cancel _ hline]

/-- Where the cache holds all of it, the picture is written in a single round. -/
theorem writeLoop_whole (cache : Memory UInt8) (hwidth : 0 < width) (hcache : cacheSize < 2 ^ 32)
    (hfits : headerSize + lineSize width * numLinesScaled width ≤ cacheSize) :
    writeLoop gpu width top left cacheSize 2 cache headerSize 0 (lineSize width * numLinesScaled width) =
      let lines := convertFrameBufferLines gpu headerSize width 0 240 (scaleFactorY width) top left
      some ⟨lines, (cache.written lines).read 0 (headerSize + lineSize width * numLinesScaled width)⟩ := by
  have hall : lineSize width * 240 * scaleFactorY width = lineSize width * numLinesScaled width := Nat.mul_assoc _ _ _
  have hmore : lineSize width * numLinesScaled width ≠ 0 := by
    rw [← hall]
    have hscale := scaleFactorY_pos width
    unfold lineSize
    positivity
  rw [writeLoop_round gpu width top left cacheSize 1 cache headerSize 0 hmore, roundLines_whole hwidth hcache hfits]
  dsimp only
  rw [hall, Nat.sub_self, writeLoop_zero, if_pos rfl, Option.map_some, List.append_nil, List.append_nil]

/-- Otherwise the second round puts its lines where they are in the picture, and that is behind the cache. -/
theorem writeLoop_outside (hwidth : width = 320 ∨ width = 400 ∨ width = 800) (hpages : 0x1000 ∣ cacheSize)
    (hline : headerSize + lineSize width * scaleFactorY width ≤ cacheSize)
    (hless : cacheSize < headerSize + lineSize width * numLinesScaled width) {fuel : Nat} {cache : Memory UInt8}
    {trace : ScreenshotTrace}
    (h : writeLoop gpu width top left cacheSize fuel cache headerSize 0 (lineSize width * numLinesScaled width) = some trace) :
    ∃ w ∈ trace.writes, cacheSize < w.stop := by
  have hscale := scaleFactorY_pos width
  obtain ⟨pages, rfl⟩ := hpages
  generalize hfirst : roundLines width (0x1000 * pages) headerSize (lineSize width * numLinesScaled width) = n
  generalize hsecond : roundLines width (0x1000 * pages) 0
    (lineSize width * numLinesScaled width - lineSize width * n * scaleFactorY width) = k
  have hcounts : lineSize width * numLinesScaled width ≠ 0 ∧
      lineSize width * numLinesScaled width - lineSize width * n * scaleFactorY width ≠ 0 ∧
      n < 256 ∧ k < 256 ∧ 0 < k ∧ 0x1000 * pages < 3 * width * scaleFactorY width * (n + k) := by
    unfold roundLines headerSize lineSize numLinesScaled scaleFactorY at *
    have hcache : 0x1000 * pages < 2 ^ 32 := by
      rcases hwidth with rfl | rfl | rfl <;>
      · norm_num at hless
        omega
    have havailable : (0x1000 * pages + 2 ^ 32 - 0x40) % 2 ^ 32 = 0x1000 * pages - 0x40 := by
      omega
    rw [havailable] at hfirst
    rw [Nat.sub_zero, Nat.add_mod_right, Nat.mod_eq_of_lt hcache] at hsecond
    rcases hwidth with rfl | rfl | rfl <;>
    · norm_num at *
      omega
  obtain ⟨hmore, hleft, hn, hk, hpos, hbehind⟩ := hcounts
  obtain ⟨fuel, cache, rest, hrest, hwrites⟩ := writeLoop_some gpu width top left _ hmore h
  rw [hfirst, Nat.zero_add] at hrest
  obtain ⟨-, -, rest', -, hwrites'⟩ := writeLoop_some gpu width top left _ hleft hrest
  rw [hsecond] at hwrites'
  obtain ⟨w, hw, hstop⟩ := @convertFrameBufferLines_last gpu width top left 0 n k _ hn hk (scaleFactorY_lt width) hpos hscale
    (by omega)
  refine ⟨w, ?_, ?_⟩
  · rw [hwrites, hwrites']
    exact List.mem_append_right _ (List.mem_append_left _ hw)
  · omega

end

/-! ## The screenshot of a screen -/

theorem ScreenWidth.cases {width : Nat} (h : ScreenWidth width) : width = 320 ∨ width = 400 ∨ width = 800 := by
  obtain ⟨gpu, top, rfl⟩ := h
  cases top with
  | false => exact .inl rfl
  | true =>
    right
    show (if !gpu.topFmt.bit5 && !gpu.topFmt.bit6 then 800 else 400) = 400 ∨ (if _ then 800 else 400) = 800
    split
    · exact .inr rfl
    · exact .inl rfl

/-- The cache has whole pages, and not more of them than it takes to hold what is asked for. -/
theorem screenshotCache_spec (width : Nat) (free : UInt32) :
    0x1000 ∣ screenshotCache width free ∧ screenshotCache width free < lineSize width * numLinesScaled width + 0x1000 := by
  unfold screenshotCache allocateFramebufferCacheForScreenshot allocateFramebufferCache
  rw [Nat.shiftRight_eq_div_pow, Nat.shiftLeft_eq]
  refine ⟨Nat.dvd_mul_left _ _, ?_⟩
  split <;> omega

theorem createBitmapHeader_stop_le (width height : Nat) : ∀ w ∈ createBitmapHeader width height, w.stop ≤ headerSize := by
  intro w hw
  unfold createBitmapHeader at hw
  simp only [List.mem_cons, List.not_mem_nil, or_false] at hw
  rcases hw with rfl | rfl | rfl | rfl | rfl | rfl <;>
  · simp [Write.stop, headerSize, bmpHeaderTemplate]

section

variable (gpu : Gpu) {width : Nat} (top left : Bool) {free : UInt32} (cache : Memory UInt8)

theorem writesScreenshot_of_fits (hwidth : ScreenWidth width)
    (hfits : headerSize + lineSize width * numLinesScaled width ≤ screenshotCache width free) :
    WritesScreenshot gpu width top left free cache := by
  have hcases := hwidth.cases
  have hsmall : lineSize width * numLinesScaled width ≤ 1152000 := by
    rcases hcases with rfl | rfl | rfl <;> decide
  have hcache := (screenshotCache_spec width free).2
  have hloop := writeLoop_whole gpu top left (cache.written (createBitmapHeader width (numLinesScaled width)))
    (show 0 < width by omega) (show screenshotCache width free < 2 ^ 32 by omega) hfits
  have hlines : Stores (convertFrameBufferLines gpu headerSize width 0 240 (scaleFactorY width) top left)
      (0 + (bitmapHeader width (numLinesScaled width)).length) (screenImage gpu width top left) := by
    rw [bitmapHeader_length, Nat.zero_add]
    exact screenImage_stores gpu width top left
  have hfile : Stores _ 0 (screenshotFile gpu width top left) :=
    (createBitmapHeader_stores width (numLinesScaled width)).append hlines
  have hlength : (screenshotFile gpu width top left).length = headerSize + lineSize width * numLinesScaled width := by
    unfold screenshotFile lineSize
    rw [List.length_append, bitmapHeader_length, screenImage_length]
  have hrun : writeScreenshot gpu width top left free cache 2 = some _ := congrArg (Option.map _) hloop
  refine ⟨2, _, hrun, ?_, ?_⟩
  · intro w hw
    rcases List.mem_append.mp hw with hw | hw
    · have hstop := createBitmapHeader_stop_le width (numLinesScaled width) w hw
      omega
    · have hstop := convertFrameBufferLines_stop_le gpu width top left (show 0 < 256 by omega) (show 240 < 256 by omega)
        (scaleFactorY_lt width) w hw
      have hall : 3 * width * scaleFactorY width * (0 + 240) = lineSize width * numLinesScaled width := by
        unfold lineSize numLinesScaled
        ring
      omega
  · show ((cache.written _).written _).read 0 _ = _
    rw [← Memory.written_append, hfile cache, ← hlength, Memory.read_store_take _ _ le_rfl, List.take_length]

theorem not_writesScreenshot (hwidth : ScreenWidth width)
    (hline : headerSize + lineSize width * scaleFactorY width ≤ screenshotCache width free)
    (hless : screenshotCache width free < headerSize + lineSize width * numLinesScaled width) :
    ¬WritesScreenshot gpu width top left free cache := by
  rintro ⟨fuel, trace, hrun, hinside, -⟩
  obtain ⟨loop, hloop, rfl⟩ := Option.map_eq_some_iff.mp hrun
  obtain ⟨w, hw, hbehind⟩ := writeLoop_outside gpu top left hwidth.cases (screenshotCache_spec width free).1 hline hless hloop
  have hstop := hinside w (List.mem_append_right _ hw)
  omega

/-- A screenshot is right exactly if its cache holds all of it. -/
theorem writesScreenshot_iff (hwidth : ScreenWidth width)
    (hline : headerSize + lineSize width * scaleFactorY width ≤ screenshotCache width free) :
    WritesScreenshot gpu width top left free cache ↔
      headerSize + lineSize width * numLinesScaled width ≤ screenshotCache width free := by
  constructor
  · intro h
    by_contra hless
    exact not_writesScreenshot gpu top left cache hwidth hline (Nat.lt_of_not_le hless) h
  · exact writesScreenshot_of_fits gpu top left cache hwidth

end

/-! ## Where the pixels are -/

/-- The offset that a file has for its pixels, if it begins with the header. -/
theorem load_dataOffset {m : Memory UInt8} {width height : Nat}
    (h : ∀ i < 4, m (10 + i) = Memory.ofBytes (bitmapHeader width height) (10 + i)) : m.load 10 4 = headerSize := by
  rw [Memory.load_eq h]
  simp [Memory.load, Memory.ofBytes, bitmapHeader, leBytes, headerSize]

/-- The header of the screenshot of the menu, of which the pixels leave the first 54 bytes. -/
theorem selfScreenshot_header (gpu : Gpu) (buffer : Memory UInt8) {i : Nat} (hi : i < 54) :
    Memory.ofBytes (menuWriteSelfScreenshot gpu buffer).file i = Memory.ofBytes (bitmapHeader 320 240) i := by
  have hlines := @convertFrameBufferLines_stores gpu 320 false false 54 0 240 1 (by omega) (by omega) (by omega)
  have hheader := createBitmapHeader_stores 320 240
  have hin : i < (bitmapHeader 320 240).length := by
    rw [bitmapHeader_length, headerSize]
    omega
  unfold menuWriteSelfScreenshot Memory.ofBytes
  dsimp only
  rw [← List.getD_eq_getElem?_getD, Memory.read_getD _ _ (by omega), Nat.zero_add, Memory.written_append, hheader buffer,
    hlines _, Memory.store_outside _ (.inl (by omega)), Memory.store_inside _ (Nat.zero_le i) (by omega),
    List.getElem?_eq_getElem hin]
  rfl

/-- The screenshot of the menu has its pixels in front of the offset that its header has for them. -/
theorem not_pixelsAtOffset (gpu : Gpu) (buffer : Memory UInt8) :
    ¬PixelsAtOffset (menuWriteSelfScreenshot gpu buffer).file (screenImage gpu 320 false false) := by
  intro h
  have hoffset : (Memory.ofBytes (menuWriteSelfScreenshot gpu buffer).file).load 10 4 = headerSize :=
    load_dataOffset fun i hi => selfScreenshot_header gpu buffer (by omega)
  have hfile : (menuWriteSelfScreenshot gpu buffer).file.length = 54 + 3 * 320 * (240 * 1) * 1 := by
    unfold menuWriteSelfScreenshot
    rw [Memory.read_length]
  unfold PixelsAtOffset at h
  -- behind the offset there are fewer bytes than the pixels are
  have hlength := congrArg List.length h
  rw [hoffset, List.length_take, List.length_drop, hfile, screenImage_length, headerSize] at hlength
  have hpixels : 3 * 320 * numLinesScaled 320 = 230400 := by decide
  omega

/-- The claim about both screenshots: that of a screen is right, whatever it shows and the cache held before, exactly if the
cache holds the header and all lines, so that there is a single round; that of the menu never keeps to its header. -/
theorem screenshot_iff (gpu : Gpu) {width : Nat} (top left : Bool) {free : UInt32} (cache buffer : Memory UInt8)
    (hwidth : ScreenWidth width) (hline : headerSize + lineSize width * scaleFactorY width ≤ screenshotCache width free) :
    (WritesScreenshot gpu width top left free cache ↔
        headerSize + lineSize width * numLinesScaled width ≤ screenshotCache width free) ∧
      ¬PixelsAtOffset (menuWriteSelfScreenshot gpu buffer).file (screenImage gpu 320 false false) :=
  ⟨writesScreenshot_iff gpu top left cache hwidth hline, not_pixelsAtOffset gpu buffer⟩

/-- A top screen in its wide mode, with a framebuffer of which all bytes are 0. -/
def wideGpu : Gpu where
  topFmt := ⟨.rgb565, false, false⟩
  bottomFmt := ⟨.rgb565, false, false⟩
  topStride := 480
  bottomStride := 480
  bottomSel := 0
  topLeftAddr1 := 0x18000000
  topLeftAddr2 := 0x18000000
  topRightAddr1 := 0x18000000
  topRightAddr2 := 0x18000000
  bottomAddr1 := 0x18200000
  bottomAddr2 := 0x18200000
  kernelVersionMinor := 44
  byte := fun _ => 0

theorem screenshot_iff_wide : WritesScreenshot wideGpu 800 true true 0x200000 (fun _ => 0) :=
  (screenshot_iff wideGpu true true (fun _ => 0) (fun _ => 0) ⟨wideGpu, true, rfl⟩ (by decide)).1.mpr (by decide)

/-- With a megabyte of free memory, the picture of the wide screen takes two rounds. -/
theorem wideScreen_outside : ¬WritesScreenshot wideGpu 800 true true 0x100000 (fun _ => 0) :=
  not_writesScreenshot wideGpu true true _ ⟨wideGpu, true, rfl⟩ (by decide) (by decide)

end Omiiba.Rosalina
