import RkIpc.Memory.Block
import RkIpc.Osd.Entry
import RkIpc.Wire.Int32

/-!
# Bitmap files

`common/osd/bmp_reader.c` reads the headers of a bitmap file and what comes behind them, and turns
the rows of the image over into ARGB. Sizes are `int`s of the file, whose products wrap around. The
pixels are taken from behind the headers, wherever the file says that they begin.

What a variable on the stack holds before it is written, and which allocations succeed, is not
known. An access outside of what was allocated, or of what was read, has no result.

## Main definitions

* `BitmapHeader`, `bitmapHeader`: the fields of the headers
* `readBmp`, `loadBmpFormFile`: the function `load_bmp_form_file`, up to the pixels and as a whole
* `filePixel`, `Faithful`: a pixel of the file, and a file that is decoded to its pixels
* `NoPixels`, `Decodes`: files without pixels, and files whose pixels are where they are looked for

## Main results

* `loadBmpFormFile_failed_iff`: the files that are refused
* `faithful_iff`: the files that are decoded to their pixels
* `late_pixels_missed`: a file with a longer header
-/

namespace RkIpc.Osd

open Memory Wire

/-! ## Headers -/

/-- The fields of `BITMAPFILEHEADER` and `BITMAPINFOHEADER` that matter. -/
structure BitmapHeader where
  bfOffBits : ℕ
  biWidth : ℤ
  biHeight : ℤ
  biBitCount : ℕ
  biCompression : ℕ

/-- A `uint16_t`, the lower byte first. -/
def word16 (mem : ℕ → UInt8) : ℕ := (mem 0).toNat + 256 * (mem 1).toNat

/-- A `uint32_t`. -/
def word32 (mem : ℕ → UInt8) : ℕ := word16 mem + 65536 * word16 fun n => mem (2 + n)

/-- What is in a variable after `fread`: the bytes of the file, as far as there are any, and what
was on the stack. -/
def readHeader (file : List UInt8) (stack : ℕ → UInt8) (n : ℕ) : UInt8 := (file[n]?).getD (stack n)

/-- The headers, which have 54 bytes. -/
def bitmapHeader (mem : ℕ → UInt8) : BitmapHeader where
  bfOffBits := word32 fun n => mem (10 + n)
  biWidth := decode32 fun n => mem (18 + n)
  biHeight := decode32 fun n => mem (22 + n)
  biBitCount := word16 fun n => mem (28 + n)
  biCompression := word32 fun n => mem (30 + n)

/-- **`bmp_check`** succeeds. -/
def bmpCheck (mem : ℕ → UInt8) : Prop := word16 mem = 0x4d42 ∧ 24 ≤ (bitmapHeader mem).biBitCount

instance (mem : ℕ → UInt8) : Decidable (bmpCheck mem) := inferInstanceAs (Decidable (_ ∧ _))

/-! ## Pixels -/

/-- `RGBQUAD`. -/
structure RgbQuad where
  rgbReserved : UInt8
  rgbRed : UInt8
  rgbGreen : UInt8
  rgbBlue : UInt8
deriving DecidableEq

/-- `bmp_data[k]`. -/
def byteAt (data : List UInt8) (k : ℤ) : Option UInt8 := if k < 0 then none else data[k.toNat]?

/-- The pixel at `k` of `bmp24_to_argb8888`, where one colour is transparent. -/
def pixel24 (data : List UInt8) (k : ℤ) : Option RgbQuad := do
  let blue ← byteAt data k
  let green ← byteAt data (k + 1)
  let red ← byteAt data (k + 2)
  return ⟨if blue = 0x08 ∧ green = 0x00 ∧ red = 0x00 then 0x00 else 0xff, red, green, blue⟩

/-- The pixel at `k` of `bmp32_to_argb8888`. -/
def pixel32 (data : List UInt8) (k : ℤ) : Option RgbQuad := do
  let blue ← byteAt data k
  let green ← byteAt data (k + 1)
  let red ← byteAt data (k + 2)
  let reserved ← byteAt data (k + 3)
  return ⟨reserved, red, green, blue⟩

/-- `WIDTHBYTES`. -/
def widthBytes (bits : ℤ) : ℤ := storedInt (storedInt (bits + 31) / 32 * 4)

/-- `i` and `j` in the order of the two loops. -/
def positions (width height : ℤ) : List (ℕ × ℕ) :=
  (List.range height.toNat).flatMap fun i => (List.range width.toNat).map fun j => (i, j)

/-- `k` of a position. -/
def sourceIndex (bytes pitch height : ℤ) (p : ℕ × ℕ) : ℤ :=
  storedInt (storedInt ((height - p.1 - 1) * pitch) + p.2 * bytes)

/-- The loops that decode an image of pixels with so many bytes, into a buffer with `room`. -/
def toArgb8888 (bytes : ℤ) (pixel : List UInt8 → ℤ → Option RgbQuad) (h : BitmapHeader) (room : ℕ)
    (data : List UInt8) : Option (List RgbQuad) :=
  let pitch := widthBytes (storedInt (h.biWidth * h.biBitCount))
  fill (fun p => pixel data (sourceIndex bytes pitch h.biHeight p)) room
    (positions h.biWidth h.biHeight) []

/-- **`bmp24_to_argb8888`**. -/
def bmp24ToArgb8888 : BitmapHeader → ℕ → List UInt8 → Option (List RgbQuad) := toArgb8888 3 pixel24

/-- **`bmp32_to_argb8888`**. -/
def bmp32ToArgb8888 : BitmapHeader → ℕ → List UInt8 → Option (List RgbQuad) := toArgb8888 4 pixel32

/-! ## The loader -/

/-- What a load depends on beside the file: the stack, and the sizes for which the allocations of
`bmp_data` and of `data->buffer` succeed. -/
structure LoadEnv where
  stack : ℕ → UInt8
  mallocData : ℕ → Bool
  mallocBuffer : ℕ → Bool

/-- What is set in `osd_data`. -/
structure Bitmap where
  width : ℤ
  height : ℤ
  size : ℕ
  buffer : List RgbQuad
deriving DecidableEq

/-- What a load comes to: it returns `-1`, makes an access that it must not make, or gives the
image. -/
inductive LoadResult where
  | failed
  | fault
  | loaded (b : Bitmap)
deriving DecidableEq

/-- A number of bytes, as a `size_t`. -/
def sizeT (v : ℤ) : ℕ := (v % 2 ^ 32).toNat

/-- `dataSize`. -/
def dataSize (h : BitmapHeader) : ℤ :=
  storedInt (widthBytes (storedInt (h.biWidth * h.biBitCount)) * h.biHeight)

/-- `biWidth * biHeight * sizeof(RGBQUAD)`. -/
def bufferSize (h : BitmapHeader) : ℕ := sizeT (storedInt (h.biWidth * h.biHeight) * 4)

/-- **`load_bmp_form_file` up to the pixels**: the headers and `bmp_data`, unless it returns `-1`.
There is no file if it cannot be opened. -/
def readBmp (e : LoadEnv) : Option (List UInt8) → Option (BitmapHeader × List UInt8)
  | none => none
  | some file =>
    let mem := readHeader file e.stack
    let h := bitmapHeader mem
    if ¬ bmpCheck mem then none
    else if e.mallocData (sizeT (dataSize h)) = false then none
    else
      let data := (file.drop 54).take (sizeT (dataSize h))
      if data.length = 0 then none else some (h, data)

/-- **`load_bmp_form_file`**. -/
def loadBmpFormFile (e : LoadEnv) (file : Option (List UInt8)) : LoadResult :=
  match readBmp e file with
  | none => .failed
  | some (h, data) =>
    -- the buffer is set to zero before it is looked at
    if e.mallocBuffer (bufferSize h) = false then .fault
    else
      let room := bufferSize h / 4
      match if h.biBitCount = 24 then bmp24ToArgb8888 h room data
        else bmp32ToArgb8888 h room data with
      | none => .fault
      | some buffer => .loaded ⟨h.biWidth, h.biHeight, bufferSize h, buffer⟩

/-! ## What is wanted -/

/-- A row in the file, rounded up to four bytes. -/
def rowBytes (width bits : ℕ) : ℕ := (width * bits + 31) / 32 * 4

/-- **A pixel of the file**, whose pixels begin at `off`. -/
def filePixel (file : List UInt8) (off bytes pitch row col : ℕ) : List UInt8 :=
  (file.drop (off + row * pitch + col * bytes)).take bytes

/-- The bytes of a pixel that come from the file. -/
def RgbQuad.colours (bits : ℕ) (p : RgbQuad) : List UInt8 :=
  if bits = 24 then [p.rgbBlue, p.rgbGreen, p.rgbRed]
  else [p.rgbBlue, p.rgbGreen, p.rgbRed, p.rgbReserved]

/-- An uncompressed image with pixels, the last row first. -/
structure BitmapHeader.BottomUp (h : BitmapHeader) : Prop where
  uncompressed : h.biCompression = 0
  width : 0 < h.biWidth
  height : 0 < h.biHeight

/-- The products fit in `int`. -/
structure ProductsFit (width height bits : ℕ) : Prop where
  row : width * bits + 31 < 2 ^ 31
  rows : rowBytes width bits * height < 2 ^ 31
  pixels : width * height < 2 ^ 31

/-- **The image shows the file**: each of its pixels is the one of the file in the row from the
other end. -/
structure Shows (file : List UInt8) (h : BitmapHeader) (b : Bitmap) : Prop where
  fit : ProductsFit h.biWidth.toNat h.biHeight.toNat h.biBitCount
  width : b.width = h.biWidth
  height : b.height = h.biHeight
  length : b.buffer.length = h.biWidth.toNat * h.biHeight.toNat
  pixel : ∀ i j, i < h.biHeight.toNat → j < h.biWidth.toNat →
    ∃ p, b.buffer[i * h.biWidth.toNat + j]? = some p ∧
      p.colours h.biBitCount = filePixel file h.bfOffBits (h.biBitCount / 8)
        (rowBytes h.biWidth.toNat h.biBitCount) (h.biHeight.toNat - 1 - i) j

/-- **A file that is decoded faithfully**: it is refused, or shown if it has pixels. -/
def Faithful (e : LoadEnv) (file : List UInt8) : Prop :=
  loadBmpFormFile e (some file) = .failed ∨
    ((bitmapHeader (readHeader file e.stack)).BottomUp →
      ∃ b, loadBmpFormFile e (some file) = .loaded b ∧
        Shows file (bitmapHeader (readHeader file e.stack)) b)

/-- There is no memory for the pixels, or there are no pixels. -/
def NoPixels (e : LoadEnv) (file : List UInt8) : Prop :=
  e.mallocData (sizeT (dataSize (bitmapHeader (readHeader file e.stack)))) = false ∨
    sizeT (dataSize (bitmapHeader (readHeader file e.stack))) = 0 ∨ file.length ≤ 54

/-- **The pixels are where they are looked for**: the products fit in `int`, there is memory for the
image, the file goes on to the last pixel behind the headers, and the pixels there are those that
the file says. -/
structure Decodes (e : LoadEnv) (file : List UInt8) (h : BitmapHeader) : Prop where
  fit : ProductsFit h.biWidth.toNat h.biHeight.toNat h.biBitCount
  memory : e.mallocBuffer (h.biWidth.toNat * h.biHeight.toNat * 4) = true
  length : 54 + (h.biHeight.toNat - 1) * rowBytes h.biWidth.toNat h.biBitCount +
    h.biWidth.toNat * (h.biBitCount / 8) ≤ file.length
  agree : ∀ row col, row < h.biHeight.toNat → col < h.biWidth.toNat →
    filePixel file 54 (h.biBitCount / 8) (rowBytes h.biWidth.toNat h.biBitCount) row col =
      filePixel file h.bfOffBits (h.biBitCount / 8) (rowBytes h.biWidth.toNat h.biBitCount) row col

/-! ## Files that are refused -/

section Failed

variable {e : LoadEnv} {file : List UInt8}

theorem readBmp_eq_none_iff : readBmp e (some file) = none ↔
    ¬ bmpCheck (readHeader file e.stack) ∨ NoPixels e file := by
  have hdata : ∀ n : ℕ, ((file.drop 54).take n).length = 0 ↔ n = 0 ∨ file.length ≤ 54 := by
    intro n
    rw [List.length_take, List.length_drop]
    omega
  unfold readBmp NoPixels
  dsimp only
  split
  · next h => simp [h]
  · next h =>
    split
    · next hmalloc => simp [hmalloc]
    · next hmalloc =>
      split
      · next hlen => simp [(hdata _).mp hlen]
      · next hlen =>
        have hne := mt (hdata _).mpr hlen
        simp [h, hmalloc, hne]

theorem readBmp_of_check (hcheck : bmpCheck (readHeader file e.stack)) (h : ¬ NoPixels e file) :
    readBmp e (some file) = some (bitmapHeader (readHeader file e.stack),
      (file.drop 54).take (sizeT (dataSize (bitmapHeader (readHeader file e.stack))))) := by
  have hnone : readBmp e (some file) ≠ none := by
    rw [Ne, readBmp_eq_none_iff]
    exact not_or.mpr ⟨not_not.mpr hcheck, h⟩
  unfold readBmp at hnone ⊢
  dsimp only at hnone ⊢
  split_ifs at hnone ⊢ <;> simp_all

/-- **The files that are refused.** -/
theorem loadBmpFormFile_failed_iff : loadBmpFormFile e (some file) = .failed ↔
    ¬ bmpCheck (readHeader file e.stack) ∨ NoPixels e file := by
  rw [← readBmp_eq_none_iff]
  unfold loadBmpFormFile
  cases readBmp e (some file) with
  | none => simp
  | some r =>
    dsimp only
    refine iff_of_false ?_ (by simp)
    split
    · simp
    · split <;> simp

end Failed

/-! ## Positions -/

/-- The positions are counted row by row. -/
theorem positions_eq (w h : ℕ) :
    positions w h = (List.range (h * w)).map fun n => (n / w, n % w) := by
  unfold positions
  rw [Int.toNat_natCast, Int.toNat_natCast]
  induction h with
  | zero => simp
  | succ h ih =>
    rw [List.range_succ, List.flatMap_append, ih, Nat.succ_mul, List.range_add, List.map_append,
      List.flatMap_singleton, List.map_map]
    congr 1
    refine List.map_congr_left fun j hj => ?_
    have hlt : j < w := List.mem_range.mp hj
    simp only [Function.comp_apply, Prod.mk.injEq]
    constructor
    · rw [Nat.mul_comm, Nat.mul_add_div (by omega), Nat.div_eq_of_lt hlt, Nat.add_zero]
    · rw [Nat.mul_comm, Nat.mul_add_mod, Nat.mod_eq_of_lt hlt]

theorem length_positions (w h : ℕ) : (positions w h).length = h * w := by
  rw [positions_eq, List.length_map, List.length_range]

theorem positions_getElem? {w h i j : ℕ} (hi : i < h) (hj : j < w) :
    (positions w h)[i * w + j]? = some (i, j) := by
  have hlt : i * w + j < h * w := by
    have := Nat.mul_le_mul_right w (show i + 1 ≤ h by omega)
    rw [Nat.succ_mul] at this
    omega
  rw [positions_eq, List.getElem?_map, List.getElem?_range hlt, Option.map_some, Nat.mul_comm,
    Nat.mul_add_div (by omega), Nat.div_eq_of_lt hj, Nat.mul_add_mod, Nat.mod_eq_of_lt hj,
    Nat.add_zero]

theorem mem_positions {w h : ℕ} {p : ℕ × ℕ} (hp : p ∈ positions w h) : p.1 < h ∧ p.2 < w := by
  unfold positions at hp
  simp only [Int.toNat_natCast, List.mem_flatMap, List.mem_range, List.mem_map] at hp
  obtain ⟨i, hi, j, hj, rfl⟩ := hp
  exact ⟨hi, hj⟩

/-! ## Pixels in memory -/

/-- The loop body of the function for so many bits. -/
def pixelOf (bits : ℕ) : List UInt8 → ℤ → Option RgbQuad := if bits = 24 then pixel24 else pixel32

section Pixel

variable {data : List UInt8} {k bits : ℕ} {p : RgbQuad}

theorem byteAt_natCast (data : List UInt8) (k : ℕ) : byteAt data k = data[k]? := by
  rw [byteAt, if_neg (by omega), Int.toNat_natCast]

theorem take_drop_succ {a : UInt8} (h : data[k]? = some a) (n : ℕ) :
    (data.drop k).take (n + 1) = a :: (data.drop (k + 1)).take n := by
  obtain ⟨hk, rfl⟩ := List.getElem?_eq_some_iff.mp h
  rw [List.drop_eq_getElem_cons hk, List.take_succ_cons]

/-- **A pixel is read** if its bytes have been, and it is made of them. -/
theorem exists_pixelOf (hbits : bits = 24 ∨ bits = 32) (hk : k + bits / 8 ≤ data.length) :
    ∃ p, pixelOf bits data k = some p := by
  have hget : ∀ n, n < bits / 8 → byteAt data ((k : ℤ) + n) = some (data[k + n]?.getD 0) := by
    intro n hn
    have hlt : k + n < data.length := by omega
    rw [← Nat.cast_add, byteAt_natCast, List.getElem?_eq_getElem hlt, Option.getD_some]
  apply Option.isSome_iff_exists.mp
  rcases hbits with rfl | rfl
  · have h0 := hget 0 (by omega)
    have h1 := hget 1 (by omega)
    have h2 := hget 2 (by omega)
    simp only [Nat.cast_zero, Int.add_zero, Nat.cast_one, Nat.cast_ofNat] at h0 h1 h2
    simp only [pixelOf, if_true, pixel24, h0, h1, h2, Option.bind_eq_bind, Option.bind_some,
      Option.pure_def, Option.isSome_some]
  · have h0 := hget 0 (by omega)
    have h1 := hget 1 (by omega)
    have h2 := hget 2 (by omega)
    have h3 := hget 3 (by omega)
    simp only [Nat.cast_zero, Int.add_zero, Nat.cast_one, Nat.cast_ofNat] at h0 h1 h2 h3
    simp only [pixelOf, Nat.reduceEqDiff, if_false, pixel32, h0, h1, h2, h3, Option.bind_eq_bind,
      Option.bind_some, Option.pure_def, Option.isSome_some]

theorem colours_of_pixelOf (hbits : bits = 24 ∨ bits = 32) (h : pixelOf bits data k = some p) :
    k + bits / 8 ≤ data.length ∧ p.colours bits = (data.drop k).take (bits / 8) := by
  have hcast : ∀ n : ℕ, byteAt data ((k : ℤ) + n) = data[k + n]? := fun n => by
    rw [← Nat.cast_add, byteAt_natCast]
  have h1 : byteAt data ((k : ℤ) + 1) = data[k + 1]? := hcast 1
  have h2 : byteAt data ((k : ℤ) + 2) = data[k + 2]? := hcast 2
  have h3 : byteAt data ((k : ℤ) + 3) = data[k + 3]? := hcast 3
  rcases hbits with rfl | rfl
  · simp only [pixelOf, if_true, pixel24, byteAt_natCast, h1, h2, Option.bind_eq_bind,
      Option.bind_eq_some_iff, Option.pure_def, Option.some.injEq] at h
    obtain ⟨blue, hblue, green, hgreen, red, hred, rfl⟩ := h
    have hlt := (List.getElem?_eq_some_iff.mp hred).1
    refine ⟨by omega, ?_⟩
    rw [show 24 / 8 = 2 + 1 from rfl, take_drop_succ hblue, take_drop_succ hgreen,
      take_drop_succ hred, List.take_zero]
    rfl
  · simp only [pixelOf, Nat.reduceEqDiff, if_false, pixel32, byteAt_natCast, h1, h2, h3,
      Option.bind_eq_bind, Option.bind_eq_some_iff, Option.pure_def, Option.some.injEq] at h
    obtain ⟨blue, hblue, green, hgreen, red, hred, reserved, hreserved, rfl⟩ := h
    have hlt := (List.getElem?_eq_some_iff.mp hreserved).1
    refine ⟨by omega, ?_⟩
    rw [show 32 / 8 = 3 + 1 from rfl, take_drop_succ hblue, take_drop_succ hgreen,
      take_drop_succ hred, take_drop_succ hreserved, List.take_zero]
    rfl

end Pixel

/-! ## Sizes that fit -/

section Sizes

variable {w h bits : ℕ}

/-- A row has room for its pixels. -/
theorem le_rowBytes (hbits : bits = 24 ∨ bits = 32) (w : ℕ) : w * (bits / 8) ≤ rowBytes w bits := by
  unfold rowBytes
  rcases hbits with rfl | rfl <;> omega

/-- **A pixel is part of the rows.** -/
theorem pixel_le (pitch bytes : ℕ) {row col : ℕ} (hrow : row < h) (hcol : col < w) :
    row * pitch + col * bytes + bytes ≤ (h - 1) * pitch + w * bytes := by
  have hr := Nat.mul_le_mul_right pitch (show row ≤ h - 1 by omega)
  have hc := Nat.mul_le_mul_right bytes (show col + 1 ≤ w by omega)
  rw [Nat.succ_mul] at hc
  omega

theorem rows_le {pitch bytes : ℕ} (hh : 0 < h) (hpitch : w * bytes ≤ pitch) :
    (h - 1) * pitch + w * bytes ≤ pitch * h := by
  obtain ⟨n, rfl⟩ := Nat.exists_eq_add_of_lt hh
  rw [Nat.zero_add, Nat.add_sub_cancel, Nat.mul_comm pitch, Nat.succ_mul]
  omega

theorem storedInt_natCast {n : ℕ} (hn : n < 2 ^ 31) : storedInt n = n :=
  storedInt_of_inRange ⟨by omega, by omega⟩

theorem sizeT_natCast {n : ℕ} (hn : n < 2 ^ 32) : sizeT n = n := by
  unfold sizeT
  omega

theorem ProductsFit.widthBytes (hfit : ProductsFit w h bits) :
    widthBytes (storedInt ((w : ℤ) * bits)) = rowBytes w bits := by
  have hrow := hfit.row
  rw [RkIpc.Osd.widthBytes, rowBytes, ← Nat.cast_mul, storedInt_natCast (by omega)]
  generalize w * bits = x at hrow
  have hsum : storedInt ((x : ℤ) + 31) = (x : ℤ) + 31 :=
    storedInt_of_inRange ⟨by omega, by omega⟩
  rw [hsum, storedInt_of_inRange ⟨by omega, by omega⟩]
  omega

theorem ProductsFit.sizeT_dataSize (hfit : ProductsFit w h bits) {hd : BitmapHeader}
    (hw : hd.biWidth = w) (hh : hd.biHeight = h) (hbits : hd.biBitCount = bits) :
    sizeT (dataSize hd) = rowBytes w bits * h := by
  have hrows := hfit.rows
  rw [dataSize, hw, hh, hbits, hfit.widthBytes, ← Nat.cast_mul, storedInt_natCast hrows,
    sizeT_natCast (by omega)]

/-- There are fewer bytes in the buffer than a `size_t` counts. -/
theorem ProductsFit.bufferSize (hfit : ProductsFit w h bits) (hbits : bits = 24 ∨ bits = 32)
    {hd : BitmapHeader} (hw : hd.biWidth = w) (hh : hd.biHeight = h) :
    bufferSize hd = w * h * 4 := by
  have hrows := hfit.rows
  have hle : w * h * 3 ≤ rowBytes w bits * h := by
    have hbytes : w * 3 ≤ rowBytes w bits := by
      refine Nat.le_trans (Nat.mul_le_mul_left w ?_) (le_rowBytes hbits w)
      rcases hbits with rfl | rfl <;> omega
    calc w * h * 3 = w * 3 * h := Nat.mul_right_comm w h 3
      _ ≤ rowBytes w bits * h := Nat.mul_le_mul_right h hbytes
  rw [RkIpc.Osd.bufferSize, hw, hh, ← Nat.cast_mul, storedInt_natCast hfit.pixels]
  have hcast : ((w * h : ℕ) : ℤ) * 4 = ((w * h * 4 : ℕ) : ℤ) := by push_cast; ring
  rw [hcast, sizeT_natCast (by omega)]

/-- **Where a pixel is read from.** -/
theorem ProductsFit.sourceIndex (hfit : ProductsFit w h bits) (hbits : bits = 24 ∨ bits = 32)
    {i j : ℕ} (hi : i < h) (hj : j < w) :
    sourceIndex (bits / 8 : ℕ) (rowBytes w bits) h (i, j) =
      ((h - 1 - i) * rowBytes w bits + j * (bits / 8) : ℕ) := by
  have hpixel := pixel_le (rowBytes w bits) (bits / 8) (show h - 1 - i < h by omega) hj
  have hrows := rows_le (show 0 < h by omega) (le_rowBytes hbits w)
  have hfit := hfit.rows
  have hcast : ((h : ℤ) - i - 1) * (rowBytes w bits : ℕ) =
      ((h - 1 - i) * rowBytes w bits : ℕ) := by
    rw [Nat.cast_mul, Nat.cast_sub (by omega), Nat.cast_sub (by omega)]
    push_cast
    ring
  rw [RkIpc.Osd.sourceIndex]
  dsimp only
  rw [hcast, storedInt_natCast (by omega), ← Nat.cast_mul, ← Nat.cast_add,
    storedInt_natCast (by omega)]

end Sizes

/-! ## The image -/

section Image

variable {e : LoadEnv} {file : List UInt8} {hd : BitmapHeader} {w h bits : ℕ}

/-- What is read behind the headers is part of the file. -/
theorem take_drop_data {size k n : ℕ} (hk : k + n ≤ size) :
    ((((file.drop 54).take size).drop k).take n) = (file.drop (54 + k)).take n := by
  rw [List.drop_take, List.take_take, List.drop_drop, Nat.min_eq_left (by omega)]

/-- **The pixels are decoded** one after the other. -/
theorem toArgb_eq (hfit : ProductsFit w h bits) (hbits : bits = 24 ∨ bits = 32)
    (hw : hd.biWidth = w) (hh : hd.biHeight = h) (hcount : hd.biBitCount = bits) (room : ℕ)
    (data : List UInt8) :
    (if hd.biBitCount = 24 then bmp24ToArgb8888 hd room data else bmp32ToArgb8888 hd room data) =
      fill (fun p => pixelOf bits data (sourceIndex (bits / 8 : ℕ) (rowBytes w bits) h p)) room
        (positions w h) [] := by
  have hwidth := hfit.widthBytes
  rcases hbits with rfl | rfl
  · rw [if_pos hcount, bmp24ToArgb8888, toArgb8888, hw, hh, hcount, hwidth]
    rfl
  · rw [if_neg (by omega), bmp32ToArgb8888, toArgb8888, hw, hh, hcount, hwidth]
    rfl

/-- A pixel of the loop is one behind the headers. -/
theorem colours_of_loop (hfit : ProductsFit w h bits) (hbits : bits = 24 ∨ bits = 32) {size i j : ℕ}
    {p : RgbQuad} (hi : i < h) (hj : j < w)
    (hp : pixelOf bits ((file.drop 54).take size)
      (sourceIndex (bits / 8 : ℕ) (rowBytes w bits) h (i, j)) = some p) :
    54 + ((h - 1 - i) * rowBytes w bits + j * (bits / 8) + bits / 8) ≤ file.length ∧
      p.colours bits = filePixel file 54 (bits / 8) (rowBytes w bits) (h - 1 - i) j := by
  rw [hfit.sourceIndex hbits hi hj] at hp
  obtain ⟨hlen, hcolours⟩ := colours_of_pixelOf hbits hp
  rw [List.length_take, List.length_drop] at hlen
  refine ⟨by omega, ?_⟩
  rw [hcolours, take_drop_data (by omega), filePixel, Nat.add_assoc]

variable (hbits : bits = 24 ∨ bits = 32) (hw : hd.biWidth = w) (hh : hd.biHeight = h)
  (hcount : hd.biBitCount = bits) (hpos : 0 < w ∧ 0 < h)
  (hread : readBmp e (some file) = some (hd, (file.drop 54).take (sizeT (dataSize hd))))

include hbits hw hh hcount hpos hread

/-- **An image that shows the file** was where it was looked for. -/
theorem decodes_of_shows {b : Bitmap} (hload : loadBmpFormFile e (some file) = .loaded b)
    (hshows : Shows file hd b) : Decodes e file hd := by
  have hwNat : hd.biWidth.toNat = w := by rw [hw, Int.toNat_natCast]
  have hhNat : hd.biHeight.toNat = h := by rw [hh, Int.toNat_natCast]
  obtain ⟨hfit, -, -, -, hshown⟩ := hshows
  rw [hwNat, hhNat, hcount] at hfit hshown
  unfold loadBmpFormFile at hload
  rw [hread] at hload
  dsimp only at hload
  rw [hfit.bufferSize hbits hw hh, toArgb_eq hfit hbits hw hh hcount] at hload
  split at hload
  · cases hload
  · next hmemory =>
    split at hload
    · cases hload
    · next buffer hfill =>
      cases hload
      refine ⟨?_, ?_, ?_, ?_⟩
      · rwa [hwNat, hhNat, hcount]
      · rw [hwNat, hhNat]
        simpa using hmemory
      · -- the last pixel of the first row is the last one in the file
        obtain ⟨p, hp, -⟩ := getElem?_of_fill hfill
          (positions_getElem? hpos.2 (show w - 1 < w by omega))
        have hlen := (colours_of_loop hfit hbits hpos.2 (by omega) hp).1
        obtain ⟨v, rfl⟩ := Nat.exists_eq_add_of_lt hpos.1
        rw [hwNat, hhNat, hcount]
        simp only [Nat.zero_add, Nat.add_sub_cancel, Nat.sub_zero, Nat.succ_mul] at hlen ⊢
        omega
      · intro row col hrow hcol
        rw [hwNat] at hcol
        rw [hhNat] at hrow
        rw [hwNat, hcount]
        have hi : h - 1 - row < h := by omega
        have hrow' : h - 1 - (h - 1 - row) = row := by omega
        obtain ⟨p, hp, hget⟩ := getElem?_of_fill hfill (positions_getElem? hi hcol)
        obtain ⟨p', hget', hcolours⟩ := hshown (h - 1 - row) col hi hcol
        obtain rfl := Option.some.inj (hget.symm.trans hget')
        have hloop := (colours_of_loop hfit hbits hi hcol hp).2
        rw [hrow'] at hcolours hloop
        rw [← hcolours, hloop]

/-- **An image that is where it is looked for** shows the file. -/
theorem shows_of_decodes (hdecodes : Decodes e file hd) :
    ∃ b, loadBmpFormFile e (some file) = .loaded b ∧ Shows file hd b := by
  have hwNat : hd.biWidth.toNat = w := by rw [hw, Int.toNat_natCast]
  have hhNat : hd.biHeight.toNat = h := by rw [hh, Int.toNat_natCast]
  obtain ⟨hfit, hmemory, hlen, hagree⟩ := hdecodes
  rw [hwNat, hhNat, hcount] at hfit hlen
  rw [hwNat, hhNat] at hmemory
  rw [hwNat, hhNat, hcount] at hagree
  unfold loadBmpFormFile
  rw [hread]
  dsimp only
  rw [hfit.bufferSize hbits hw hh, toArgb_eq hfit hbits hw hh hcount, hmemory,
    Nat.mul_div_cancel _ (by omega)]
  have hsize := hfit.sizeT_dataSize hw hh hcount
  have hrows := rows_le hpos.2 (le_rowBytes hbits w)
  obtain ⟨buffer, hfill⟩ : ∃ buffer, fill (fun p => pixelOf bits
      ((file.drop 54).take (sizeT (dataSize hd)))
        (sourceIndex (bits / 8 : ℕ) (rowBytes w bits) h p)) (w * h) (positions w h) [] =
          some buffer := by
    apply exists_fill
    · rintro ⟨i, j⟩ hp
      obtain ⟨hi, hj⟩ := mem_positions hp
      have hle := pixel_le (rowBytes w bits) (bits / 8) (show h - 1 - i < h by omega) hj
      rw [hfit.sourceIndex hbits hi hj]
      apply exists_pixelOf hbits
      rw [List.length_take, List.length_drop, hsize]
      dsimp only at hle ⊢
      omega
    · rw [length_positions, List.length_nil, Nat.zero_add, Nat.mul_comm]
  rw [hfill]
  refine ⟨_, rfl, ?_, rfl, rfl, ?_, ?_⟩
  · rwa [hwNat, hhNat, hcount]
  · rw [(length_of_fill hfill).1, length_positions, hwNat, hhNat, Nat.mul_comm]
  · intro i j hi hj
    rw [hhNat] at hi
    rw [hwNat] at hj
    rw [hwNat, hhNat, hcount]
    obtain ⟨p, hp, hget⟩ := getElem?_of_fill hfill (positions_getElem? hi hj)
    refine ⟨p, hget, ?_⟩
    rw [(colours_of_loop hfit hbits hi hj hp).2]
    exact hagree _ _ (by omega) hj

end Image

/-! ## Every file -/

/-- **A file that is not refused is decoded faithfully** if and only if there is no memory for its
pixels or there are none, or it is no image of the kind, or the pixels are where they are looked
for. -/
theorem faithful_iff {e : LoadEnv} {file : List UInt8} {hd : BitmapHeader}
    (hhd : hd = bitmapHeader (readHeader file e.stack))
    (hcheck : bmpCheck (readHeader file e.stack))
    (hbits : hd.biBitCount = 24 ∨ hd.biBitCount = 32) :
    Faithful e file ↔ NoPixels e file ∨ ¬ hd.BottomUp ∨ Decodes e file hd := by
  subst hhd
  unfold Faithful
  rw [loadBmpFormFile_failed_iff, or_iff_right (not_not.mpr hcheck)]
  by_cases hno : NoPixels e file
  · simp [hno]
  rw [or_iff_right hno, or_iff_right hno]
  by_cases hup : (bitmapHeader (readHeader file e.stack)).BottomUp
  · rw [or_iff_right (not_not.mpr hup)]
    have hread := readBmp_of_check hcheck hno
    obtain ⟨w, hw⟩ := Int.eq_ofNat_of_zero_le hup.width.le
    obtain ⟨h, hh⟩ := Int.eq_ofNat_of_zero_le hup.height.le
    have hpos : 0 < w ∧ 0 < h := by
      have := hup.width
      have := hup.height
      omega
    constructor
    · intro hshown
      obtain ⟨b, hload, hshows⟩ := hshown hup
      exact decodes_of_shows hbits hw hh rfl hpos hread hload hshows
    · exact fun hdecodes _ => shows_of_decodes hbits hw hh rfl hpos hread hdecodes
  · exact iff_of_true (fun h => absurd h hup) (.inl hup)

/-- An uncompressed file with the headers, and what comes behind them. -/
def bitmapFile (bfOffBits biWidth biHeight : ℤ) (biBitCount : UInt8) (rest : List UInt8) :
    List UInt8 :=
  [0x42, 0x4d] ++ encode32 0 ++ encode32 0 ++ encode32 bfOffBits ++ encode32 40 ++
    encode32 biWidth ++ encode32 biHeight ++ [1, 0, biBitCount, 0] ++
    (List.replicate 6 (encode32 0)).flatten ++ rest

/-- There is memory. -/
def LoadEnv.plain : LoadEnv where
  stack _ := 0
  mallocData _ := true
  mallocBuffer _ := true

theorem faithful_bitmapFile_iff :
    Faithful .plain (bitmapFile 54 1 1 24 [1, 2, 3, 0]) ↔
      NoPixels .plain (bitmapFile 54 1 1 24 [1, 2, 3, 0]) ∨
        ¬ (bitmapHeader (readHeader (bitmapFile 54 1 1 24 [1, 2, 3, 0]) fun _ => 0)).BottomUp ∨
        Decodes .plain (bitmapFile 54 1 1 24 [1, 2, 3, 0])
          (bitmapHeader (readHeader (bitmapFile 54 1 1 24 [1, 2, 3, 0]) fun _ => 0)) :=
  faithful_iff rfl (by decide) (.inl (by decide +kernel))

/-- **Pixels that begin later are missed**: the image is made of what comes behind the headers. -/
theorem late_pixels_missed :
    bmpCheck (readHeader (bitmapFile 58 1 1 24 [9, 9, 9, 0, 1, 2, 3, 0]) fun _ => 0) ∧
    (bitmapHeader (readHeader (bitmapFile 58 1 1 24 [9, 9, 9, 0, 1, 2, 3, 0])
      fun _ => 0)).biBitCount = 24 ∧
    ¬ Faithful .plain (bitmapFile 58 1 1 24 [9, 9, 9, 0, 1, 2, 3, 0]) := by
  have hload : loadBmpFormFile .plain (some (bitmapFile 58 1 1 24 [9, 9, 9, 0, 1, 2, 3, 0])) =
      .loaded ⟨1, 1, 4, [⟨0xff, 9, 9, 9⟩]⟩ := by
    decide
  refine ⟨by decide, by decide +kernel, ?_⟩
  -- the pixel that the file means is the one of the last four bytes
  rintro (hfailed | hshown)
  · rw [hload] at hfailed
    cases hfailed
  · obtain ⟨b, hb, hshows⟩ := hshown
      ⟨by decide, by decide +kernel, by decide +kernel⟩
    rw [hload] at hb
    cases hb
    obtain ⟨p, hp, hcolours⟩ := hshows.pixel 0 0 (by decide) (by decide +kernel)
    obtain rfl : _ = p := Option.some.inj hp
    exact absurd hcolours (by decide)

end RkIpc.Osd
