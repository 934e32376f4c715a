import RkIpc.Memory.Writes
import RkIpc.Osd.Font

/-!
# How a letter is clipped

The two loops of `draw_argb8888_buffer` in `common/osd/font_factory.c`. Four indices count the rows
and columns of the canvas and of the bitmap, and pixels outside of the canvas are skipped. All
indices are `int`s, and a bitmap is as wide as an `unsigned int` says: sums and products wrap
around.

## Main definitions

* `Slot`: the bitmap of a letter and where it is placed
* `Drawn`: a pixel that is drawn, with the byte of the bitmap that it is drawn for
* `drawRow`, `drawPixels`: the inner loop, and both loops
* `Slot.Covers`: the pixels of a canvas in the box of a letter
* `Clipped`: a letter that is drawn where its box is, and nowhere else
* `Slot.Fits`: a letter whose indices do not wrap around

## Main results

* `mem_drawPixels_iff`: what is drawn
* `clipped_iff`: the letters that are drawn where their box is
* `Slot.fits_of_small`: letters and canvases of less than 2^31 pixels
* `drawn_drawPixels`: the letters of a text are drawn in this way
* `wide_letter_missing`: a letter that is too wide
-/

namespace RkIpc.Osd

open Memory Wire

/-! ## The loops -/

/-- **`slot_`** and the ascender of `face_`, with the memory from `bitmap.buffer` on. -/
structure Slot where
  ascender : ℤ
  bitmapLeft : Int32
  bitmapTop : Int32
  width : UInt32
  rows : UInt32
  buffer : ℤ → UInt8

namespace Slot

variable (s : Slot)

def left : ℤ := s.bitmapLeft.toInt

def top : ℤ := storedInt (s.ascender / 2 ^ 6 - s.bitmapTop.toInt)

def right : ℤ := storedInt (s.left + s.width.toNat)

def bottom : ℤ := storedInt (s.top + s.rows.toNat)

end Slot

/-- **A pixel that is drawn**: the index of the byte that is read, and the index and the value that
are written. -/
structure Drawn where
  source : ℤ
  target : ℤ
  value : UInt32

/-- The pixel for a byte. -/
def Slot.draw (s : Slot) (fontColor : UInt32) (source target : ℤ) : Drawn :=
  ⟨source, target, if s.buffer source ≠ 0 then fontColor else 0x00000000⟩

/-- The inner loop. -/
def drawRow (s : Slot) (fontColor : UInt32) (bufW bufH : Int32) (j q : ℤ) : List Drawn :=
  let offset := storedInt (j * bufW.toInt)
  let bmpOffset := storedInt (q * s.width.toNat)
  counting s.right (fun p => storedInt (p + 1)) (fun i p =>
    if i < 0 ∨ j < 0 ∨ i ≥ bufW.toInt ∨ j ≥ bufH.toInt then []
    else [s.draw fontColor (storedInt (bmpOffset + p)) (storedInt (offset + i))]) s.left 0

/-- **`draw_argb8888_buffer`**: the pixels that are drawn, one after the other. -/
def drawPixels (s : Slot) (fontColor : UInt32) (bufW bufH : Int32) : List Drawn :=
  counting s.bottom (fun q => storedInt (q + 1)) (drawRow s fontColor bufW bufH) s.top 0

/-- The canvas after the pixels have been written. -/
def drawn (canvas : Pixels) (ps : List Drawn) : Pixels :=
  stored canvas (ps.map fun p => (p.target, p.value))

/-! ## The box -/

/-- A pixel in the box of the letter. -/
structure Slot.InBox (s : Slot) (i j : ℤ) : Prop where
  column : s.left ≤ i ∧ i < s.left + s.width.toNat
  row : s.top ≤ j ∧ j < s.top + s.rows.toNat

/-- A pixel of the canvas. -/
structure InCanvas (bufW bufH : Int32) (i j : ℤ) : Prop where
  column : 0 ≤ i ∧ i < bufW.toInt
  row : 0 ≤ j ∧ j < bufH.toInt

/-- **A pixel of the canvas in the box.** -/
def Slot.Covers (s : Slot) (bufW bufH : Int32) (i j : ℤ) : Prop :=
  s.InBox i j ∧ InCanvas bufW bufH i j

/-- The byte of the bitmap for a pixel. -/
def Slot.byteIndex (s : Slot) (i j : ℤ) : ℤ := (j - s.top) * s.width.toNat + (i - s.left)

/-- Where a pixel of the canvas is. -/
def pixelIndex (bufW : Int32) (i j : ℤ) : ℤ := j * bufW.toInt + i

/-- **A letter is drawn where its box is**: exactly the pixels of the canvas in the box are drawn,
each for its byte, the others stay, and all indices are in the bitmap and in the canvas. -/
structure Clipped (s : Slot) (fontColor : UInt32) (bufW bufH : Int32) : Prop where
  exact : ∀ p, p ∈ drawPixels s fontColor bufW bufH ↔ ∃ i j, s.Covers bufW bufH i j ∧
    p = s.draw fontColor (s.byteIndex i j) (pixelIndex bufW i j)
  image : ∀ (canvas : Pixels) (i j : ℤ), InCanvas bufW bufH i j →
    (s.InBox i j → drawn canvas (drawPixels s fontColor bufW bufH) (pixelIndex bufW i j) =
      if s.buffer (s.byteIndex i j) ≠ 0 then fontColor else 0) ∧
    (¬ s.InBox i j → drawn canvas (drawPixels s fontColor bufW bufH) (pixelIndex bufW i j) =
      canvas (pixelIndex bufW i j))
  source : ∀ p ∈ drawPixels s fontColor bufW bufH,
    0 ≤ p.source ∧ p.source < s.width.toNat * s.rows.toNat
  target : ∀ p ∈ drawPixels s fontColor bufW bufH,
    0 ≤ p.target ∧ p.target < bufW.toInt * bufH.toInt

/-- **No index wraps around**, where a pixel of the canvas is in the box. -/
def Slot.Fits (s : Slot) (bufW bufH : Int32) : Prop :=
  ∀ i j, s.Covers bufW bufH i j → s.left + s.width.toNat < 2 ^ 31 ∧
    s.top + s.rows.toNat < 2 ^ 31 ∧ s.byteIndex i j < 2 ^ 31 ∧ pixelIndex bufW i j < 2 ^ 31

/-! ## What is drawn -/

section Loops

variable (s : Slot) (fontColor : UInt32) (bufW bufH : Int32)

theorem storedInt_storedInt_add (v w : ℤ) : storedInt (storedInt v + w) = storedInt (v + w) :=
  Int.bmod_add_bmod ..

/-- An index that counts from zero on, beside another one. -/
theorem storedInt_beside (first k : ℤ) :
    storedInt (storedInt (k - first) + 1) = storedInt (k + 1 - first) := by
  rw [storedInt_storedInt_add]
  congr 1
  omega

/-- **A loop with a second index** that counts from zero on. -/
theorem mem_counting_zero_iff {hi first : ℤ} {body : ℤ → ℤ → List Drawn} {p : Drawn} :
    p ∈ counting hi (fun q => storedInt (q + 1)) body first 0 ↔
      ∃ k, first ≤ k ∧ k < hi ∧ p ∈ body k (storedInt (k - first)) := by
  have hcount := @mem_counting_iff _ hi first (fun q => storedInt (q + 1))
    (fun k => storedInt (k - first)) body p (storedInt_beside first)
  rwa [show storedInt (first - first) = 0 by rw [sub_self]; rfl] at hcount

/-- **A row**, with the row of the bitmap beside it. -/
theorem mem_drawRow_iff {j : ℤ} {p : Drawn} :
    p ∈ drawRow s fontColor bufW bufH j (storedInt (j - s.top)) ↔
      ∃ i, (s.left ≤ i ∧ i < s.right) ∧ InCanvas bufW bufH i j ∧
        p = s.draw fontColor (storedInt (s.byteIndex i j)) (storedInt (pixelIndex bufW i j)) := by
  -- the indices are those that do not wrap around, as an `int` holds them
  have hsource : ∀ i, storedInt (storedInt (storedInt (j - s.top) * s.width.toNat) +
      storedInt (i - s.left)) = storedInt (s.byteIndex i j) := by
    intro i
    unfold storedInt Slot.byteIndex
    rw [Int.bmod_mul_bmod, Int.bmod_add_bmod, Int.add_bmod_bmod]
  have htarget : ∀ i, storedInt (storedInt (j * bufW.toInt) + i) =
      storedInt (pixelIndex bufW i j) := fun i => storedInt_storedInt_add ..
  rw [drawRow, mem_counting_zero_iff]
  constructor
  · rintro ⟨i, hlo, hhi, hp⟩
    rw [hsource, htarget] at hp
    split at hp
    · cases hp
    · next hclip => exact ⟨i, ⟨hlo, hhi⟩, ⟨by omega, by omega⟩, List.mem_singleton.mp hp⟩
  · rintro ⟨i, ⟨hlo, hhi⟩, ⟨hcolumn, hrow⟩, rfl⟩
    refine ⟨i, hlo, hhi, ?_⟩
    rw [hsource, htarget, if_neg (by omega)]
    exact List.mem_singleton_self _

/-- **What is drawn.** -/
theorem mem_drawPixels_iff {p : Drawn} : p ∈ drawPixels s fontColor bufW bufH ↔
    ∃ i j, (s.left ≤ i ∧ i < s.right) ∧ (s.top ≤ j ∧ j < s.bottom) ∧ InCanvas bufW bufH i j ∧
      p = s.draw fontColor (storedInt (s.byteIndex i j)) (storedInt (pixelIndex bufW i j)) := by
  rw [drawPixels, mem_counting_zero_iff]
  constructor
  · rintro ⟨j, hlo, hhi, hp⟩
    obtain ⟨i, hi, hcanvas, heq⟩ := (mem_drawRow_iff s fontColor bufW bufH).mp hp
    exact ⟨i, j, hi, ⟨hlo, hhi⟩, hcanvas, heq⟩
  · rintro ⟨i, j, hi, ⟨hlo, hhi⟩, hcanvas, hp⟩
    exact ⟨j, hlo, hhi, (mem_drawRow_iff s fontColor bufW bufH).mpr ⟨i, hi, hcanvas, hp⟩⟩

end Loops

/-! ## Letters that fit -/

/-- The end of a range: it wraps around, and nothing is in the range, or it does not. -/
theorem storedInt_end {first size : ℤ} (hfirst : InRange first) (hsize : 0 ≤ size)
    (hbelow : size < 2 ^ 32) : first + size < 2 ^ 31 ∧ storedInt (first + size) = first + size ∨
      2 ^ 31 ≤ first + size ∧ storedInt (first + size) ≤ first := by
  unfold InRange at hfirst
  unfold storedInt
  rw [Int.bmod_def]
  split <;> omega

section Fit

variable (s : Slot) (fontColor : UInt32) {bufW bufH : Int32}

theorem Slot.right_cases : s.left + s.width.toNat < 2 ^ 31 ∧ s.right = s.left + s.width.toNat ∨
    2 ^ 31 ≤ s.left + s.width.toNat ∧ s.right ≤ s.left :=
  storedInt_end ⟨s.bitmapLeft.le_toInt, s.bitmapLeft.toInt_lt⟩ (Int.natCast_nonneg _)
    (by exact_mod_cast s.width.toNat_lt)

theorem Slot.bottom_cases : s.top + s.rows.toNat < 2 ^ 31 ∧ s.bottom = s.top + s.rows.toNat ∨
    2 ^ 31 ≤ s.top + s.rows.toNat ∧ s.bottom ≤ s.top :=
  storedInt_end (inRange_storedInt _) (Int.natCast_nonneg _) (by exact_mod_cast s.rows.toNat_lt)

variable {s}

/-- The indices of a pixel in the box. -/
theorem Slot.Covers.index_range {i j : ℤ} (h : s.Covers bufW bufH i j) :
    (0 ≤ s.byteIndex i j ∧ s.byteIndex i j < s.width.toNat * s.rows.toNat) ∧
      0 ≤ pixelIndex bufW i j ∧ pixelIndex bufW i j < bufW.toInt * bufH.toInt := by
  obtain ⟨⟨hcolumn, hrow⟩, hcolumn', hrow'⟩ := h
  have hbyte : 0 ≤ (j - s.top) * s.width.toNat := Int.mul_nonneg (by omega) (Int.natCast_nonneg _)
  have hpixel : 0 ≤ j * bufW.toInt := Int.mul_nonneg (by omega) (by omega)
  have hbyteEnd : s.byteIndex i j < s.width.toNat * s.rows.toNat :=
    lt_of_row (by rw [Slot.byteIndex, Int.mul_comm]) (by omega) (by omega) (by omega)
  have hpixelEnd : pixelIndex bufW i j < bufW.toInt * bufH.toInt :=
    lt_of_row (by rw [pixelIndex, Int.mul_comm]) hcolumn'.2 hrow'.2 (by omega)
  unfold Slot.byteIndex pixelIndex at *
  exact ⟨⟨by omega, hbyteEnd⟩, by omega, hpixelEnd⟩

/-- A pixel of the canvas is known by its index. -/
theorem InCanvas.eq_of_index {i j i' j' : ℤ} (h : InCanvas bufW bufH i j)
    (h' : InCanvas bufW bufH i' j') (heq : pixelIndex bufW i j = pixelIndex bufW i' j') :
    i = i' ∧ j = j' := by
  have hindex : pixelIndex bufW i j = bufW.toInt * j + i := by rw [pixelIndex, Int.mul_comm]
  have hindex' : pixelIndex bufW i j = bufW.toInt * j' + i' := by
    rw [heq, pixelIndex, Int.mul_comm]
  exact ⟨(column_of hindex h.column.1 h.column.2).symm.trans
      (column_of hindex' h'.column.1 h'.column.2),
    (row_of hindex h.column.1 h.column.2).symm.trans (row_of hindex' h'.column.1 h'.column.2)⟩

/-- **A letter that fits** is drawn where its box is. -/
theorem Slot.Fits.mem_iff (h : s.Fits bufW bufH) {p : Drawn} :
    p ∈ drawPixels s fontColor bufW bufH ↔ ∃ i j, s.Covers bufW bufH i j ∧
      p = s.draw fontColor (s.byteIndex i j) (pixelIndex bufW i j) := by
  have hright := s.right_cases
  have hbottom := s.bottom_cases
  -- the indices that an `int` holds are the indices
  have hint : ∀ i j, s.Covers bufW bufH i j → storedInt (s.byteIndex i j) = s.byteIndex i j ∧
      storedInt (pixelIndex bufW i j) = pixelIndex bufW i j := by
    intro i j hcovers
    obtain ⟨⟨hbyte, -⟩, hpixel, -⟩ := hcovers.index_range
    obtain ⟨-, -, hbyte', hpixel'⟩ := h i j hcovers
    exact ⟨storedInt_of_inRange ⟨by omega, hbyte'⟩, storedInt_of_inRange ⟨by omega, hpixel'⟩⟩
  rw [mem_drawPixels_iff]
  constructor
  · rintro ⟨i, j, hi, hj, hcanvas, rfl⟩
    have hcovers : s.Covers bufW bufH i j :=
      ⟨⟨⟨hi.1, by omega⟩, ⟨hj.1, by omega⟩⟩, hcanvas⟩
    obtain ⟨hbyte, hpixel⟩ := hint i j hcovers
    rw [hbyte, hpixel]
    exact ⟨i, j, hcovers, rfl⟩
  · rintro ⟨i, j, hcovers, rfl⟩
    obtain ⟨hwidth, hrows, -, -⟩ := h i j hcovers
    obtain ⟨hbyte, hpixel⟩ := hint i j hcovers
    have hbox := hcovers.1
    obtain ⟨hcolumn, hrow⟩ := hbox
    refine ⟨i, j, ⟨hcolumn.1, by omega⟩, ⟨hrow.1, by omega⟩, hcovers.2, ?_⟩
    rw [hbyte, hpixel]

/-- Each place of the canvas is written with one value. -/
theorem Slot.Fits.one_value (h : s.Fits bufW bufH) :
    ∀ w ∈ (drawPixels s fontColor bufW bufH).map fun p => (p.target, p.value),
      ∀ w' ∈ (drawPixels s fontColor bufW bufH).map fun p => (p.target, p.value),
        w.1 = w'.1 → w.2 = w'.2 := by
  intro w hw w' hw' heq
  obtain ⟨p, hp, rfl⟩ := List.mem_map.mp hw
  obtain ⟨p', hp', rfl⟩ := List.mem_map.mp hw'
  obtain ⟨i, j, hcovers, rfl⟩ := (h.mem_iff fontColor).mp hp
  obtain ⟨i', j', hcovers', rfl⟩ := (h.mem_iff fontColor).mp hp'
  obtain ⟨rfl, rfl⟩ := hcovers.2.eq_of_index hcovers'.2 heq
  rfl

/-- A pixel in the box. -/
theorem Slot.Fits.drawn_of_inBox (h : s.Fits bufW bufH) (canvas : Pixels) {i j : ℤ}
    (hcovers : s.Covers bufW bufH i j) :
    drawn canvas (drawPixels s fontColor bufW bufH) (pixelIndex bufW i j) =
      if s.buffer (s.byteIndex i j) ≠ 0 then fontColor else 0 := by
  have hmem : (pixelIndex bufW i j, if s.buffer (s.byteIndex i j) ≠ 0 then fontColor else 0) ∈
      (drawPixels s fontColor bufW bufH).map fun p => (p.target, p.value) :=
    List.mem_map.mpr ⟨_, (h.mem_iff fontColor).mpr ⟨i, j, hcovers, rfl⟩, rfl⟩
  exact stored_of_mem hmem fun w hw heq => h.one_value fontColor w hw _ hmem heq

/-- A pixel outside of the box. -/
theorem Slot.Fits.drawn_of_not_inBox (h : s.Fits bufW bufH) (canvas : Pixels) {i j : ℤ}
    (hcanvas : InCanvas bufW bufH i j) (hbox : ¬ s.InBox i j) :
    drawn canvas (drawPixels s fontColor bufW bufH) (pixelIndex bufW i j) =
      canvas (pixelIndex bufW i j) := by
  refine stored_of_untouched fun w hw heq => ?_
  obtain ⟨p, hp, rfl⟩ := List.mem_map.mp hw
  obtain ⟨i', j', hcovers, rfl⟩ := (h.mem_iff fontColor).mp hp
  obtain ⟨rfl, rfl⟩ := hcovers.2.eq_of_index hcanvas heq
  exact hbox hcovers.1

end Fit

/-- **A letter is drawn where its box is** if and only if no index wraps around. -/
theorem clipped_iff (s : Slot) (fontColor : UInt32) (bufW bufH : Int32) :
    Clipped s fontColor bufW bufH ↔ s.Fits bufW bufH := by
  constructor
  · intro h i j hcovers
    have hright := s.right_cases
    have hbottom := s.bottom_cases
    -- the pixel is drawn, so that the loops come to it and an `int` holds its indices
    have hmem := (h.exact _).mpr ⟨i, j, hcovers, rfl⟩
    obtain ⟨i', j', hi, hj, -, heq⟩ := (mem_drawPixels_iff s fontColor bufW bufH).mp hmem
    obtain ⟨-, hbyte⟩ := inRange_storedInt (s.byteIndex i' j')
    obtain ⟨-, hpixel⟩ := inRange_storedInt (pixelIndex bufW i' j')
    rw [← show s.byteIndex i j = storedInt (s.byteIndex i' j') from congrArg Drawn.source heq]
      at hbyte
    rw [← show pixelIndex bufW i j = storedInt (pixelIndex bufW i' j') from
      congrArg Drawn.target heq] at hpixel
    exact ⟨by omega, by omega, hbyte, hpixel⟩
  · intro h
    refine ⟨fun p => h.mem_iff fontColor,
      fun canvas i j hcanvas => ⟨fun hbox => ?_, fun hbox => ?_⟩, fun p hp => ?_, fun p hp => ?_⟩
    · exact h.drawn_of_inBox fontColor canvas ⟨hbox, hcanvas⟩
    · exact h.drawn_of_not_inBox fontColor canvas hcanvas hbox
    · obtain ⟨i, j, hcovers, rfl⟩ := (h.mem_iff fontColor).mp hp
      exact hcovers.index_range.1
    · obtain ⟨i, j, hcovers, rfl⟩ := (h.mem_iff fontColor).mp hp
      exact hcovers.index_range.2

/-- **Letters and canvases that are not too large**: all letters that can be stored in less than
2^31 bytes, on a canvas of that many pixels, whose box ends before 2^31. -/
theorem Slot.fits_of_small {s : Slot} {bufW bufH : Int32}
    (hwidth : s.left + s.width.toNat < 2 ^ 31) (hrows : s.top + s.rows.toNat < 2 ^ 31)
    (hbitmap : (s.width.toNat : ℤ) * s.rows.toNat ≤ 2 ^ 31)
    (hcanvas : bufW.toInt * bufH.toInt ≤ 2 ^ 31) : s.Fits bufW bufH := by
  intro i j hcovers
  obtain ⟨⟨-, hbyte⟩, -, hpixel⟩ := hcovers.index_range
  exact ⟨hwidth, hrows, by omega, by omega⟩

/-- **A letter that is too wide**: its end wraps around, and no column is drawn. -/
theorem wide_letter_missing : let s : Slot := ⟨0, 1, 0, 0x7fffffff, 1, fun _ => 255⟩
    drawPixels s 0xff 2 1 = [] ∧ s.Covers 2 1 1 0 ∧ ¬ Clipped s 0xff 2 1 := by
  intro s
  have hcovers : s.Covers 2 1 1 0 := ⟨⟨by decide, by decide⟩, by decide, by decide⟩
  have hleft : s.left = 1 := by decide
  have hright : s.right = -2 ^ 31 := by decide
  have hnone : ∀ p, p ∉ drawPixels s 0xff 2 1 := by
    intro p hp
    obtain ⟨i, j, hi, -⟩ := (mem_drawPixels_iff s 0xff 2 1).mp hp
    omega
  refine ⟨List.eq_nil_iff_forall_not_mem.mpr hnone, hcovers, fun h => ?_⟩
  exact hnone _ ((h.exact _).mpr ⟨1, 0, hcovers, rfl⟩)

/-! ## The pixels of a text -/

/-- The letter of a font that is in the slot. -/
structure Slot.Holds (s : Slot) (f : Font) (g : Glyph) : Prop where
  left : s.left = g.left
  top : s.top = f.ascender / 64 - g.top
  width : s.width.toNat = g.width
  rows : s.rows.toNat = g.rows
  buffer : ∀ n : ℕ, s.buffer n = g.buffer n

/-- A pixel that is written, unless it is outside of the canvas. -/
def clippedWrite (s : Slot) (fontColor : UInt32) (bufW bufH : Int32) (q p : ℕ) :
    List (ℤ × UInt32) :=
  let j := s.top + q
  let i := s.left + p
  if i < 0 ∨ j < 0 ∨ i ≥ bufW.toInt ∨ j ≥ bufH.toInt then []
  else [(pixelIndex bufW i j, if s.buffer (s.byteIndex i j) ≠ 0 then fontColor else 0)]

section Text

variable {s : Slot} (fontColor : UInt32) {bufW bufH : Int32} {f : Font} {g : Glyph}

/-- The pixels of a letter, row by row. -/
theorem drawArgb8888Buffer_eq (h : s.Holds f g) (canvas : Pixels) :
    drawArgb8888Buffer f fontColor g bufW.toInt bufH.toInt canvas =
      stored canvas ((List.range s.rows.toNat).flatMap fun q =>
        (List.range s.width.toNat).flatMap fun p => clippedWrite s fontColor bufW bufH q p) := by
  have hbyte : ∀ q p : ℕ, s.byteIndex (s.left + p) (s.top + q) = ((q * g.width + p : ℕ) : ℤ) := by
    intro q p
    rw [Slot.byteIndex, add_sub_cancel_left, add_sub_cancel_left, h.width]
    push_cast
    rfl
  have hpixel : ∀ (canvas : Pixels) (q p : ℕ),
      stored canvas (clippedWrite s fontColor bufW bufH q p) =
        if g.left + p < 0 ∨ f.ascender / 64 - g.top + q < 0 ∨ g.left + p ≥ bufW.toInt ∨
          f.ascender / 64 - g.top + q ≥ bufH.toInt then canvas
        else Function.update canvas
          ((f.ascender / 64 - g.top + q) * bufW.toInt + (g.left + p))
          (if g.buffer (q * g.width + p) ≠ 0 then fontColor else 0) := by
    intro canvas q p
    rw [clippedWrite, hbyte, h.buffer, h.left, h.top]
    split
    · rfl
    · rfl
  rw [drawArgb8888Buffer, stored, List.foldl_flatMap, h.rows, h.width]
  congr 1
  funext canvas q
  rw [List.foldl_flatMap]
  congr 1
  funext canvas p
  exact (hpixel canvas q p).symm

/-- **A text is drawn in this way**, letter by letter, if the letters fit. -/
theorem drawn_drawPixels (h : s.Holds f g) (hfits : s.Fits bufW bufH) (canvas : Pixels) :
    drawn canvas (drawPixels s fontColor bufW bufH) =
      drawArgb8888Buffer f fontColor g bufW.toInt bufH.toInt canvas := by
  rw [drawArgb8888Buffer_eq fontColor h]
  refine stored_congr (fun w => ?_) (hfits.one_value fontColor)
  rw [List.mem_map]
  constructor
  · rintro ⟨p, hp, rfl⟩
    obtain ⟨i, j, ⟨⟨hcolumn, hrow⟩, hcanvas⟩, rfl⟩ := (hfits.mem_iff fontColor).mp hp
    obtain ⟨n, rfl⟩ : ∃ n : ℕ, i = s.left + n := ⟨(i - s.left).toNat, by omega⟩
    obtain ⟨m, rfl⟩ : ∃ m : ℕ, j = s.top + m := ⟨(j - s.top).toNat, by omega⟩
    refine List.mem_flatMap.mpr ⟨m, List.mem_range.mpr (by omega),
      List.mem_flatMap.mpr ⟨n, List.mem_range.mpr (by omega), ?_⟩⟩
    have hclip := hcanvas.column
    have hclip' := hcanvas.row
    rw [clippedWrite, if_neg (by omega)]
    exact List.mem_singleton_self _
  · intro hw
    obtain ⟨q, hq, hrow⟩ := List.mem_flatMap.mp hw
    obtain ⟨p, hp, hpixel⟩ := List.mem_flatMap.mp hrow
    rw [List.mem_range] at hq hp
    rw [clippedWrite] at hpixel
    split at hpixel
    · cases hpixel
    · next hclip =>
      obtain rfl := List.mem_singleton.mp hpixel
      have hcovers : s.Covers bufW bufH (s.left + p) (s.top + q) :=
        ⟨⟨⟨by omega, by omega⟩, ⟨by omega, by omega⟩⟩, ⟨by omega, by omega⟩, by omega, by omega⟩
      exact ⟨_, (hfits.mem_iff fontColor).mpr ⟨_, _, hcovers, rfl⟩, rfl⟩

end Text

end RkIpc.Osd
