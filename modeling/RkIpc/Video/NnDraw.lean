import RkIpc.Memory.Writes
import RkIpc.Video.Cover

/-!
# The boxes that the NPU display draws

`rkipc_get_nn_update_osd` scales the box of an object to the video, rounds it to multiples of 16 and
lowers its sides until it fits. `draw_rect_2bpp` draws its border on a canvas with four pixels in a
byte: two rows at the top, two columns, and two rows at the bottom. It counts the pixels before the
box in an `RK_U32`.

## Main definitions

* `drawRect2bpp`: what is written for a rectangle
* `nnRect`, `drawObject`: what is written for an object
* `OnBorder`, `NnContained`: a box is drawn where it belongs, and nowhere else
* `Drawn`: when a box is drawn

## Main results

* `mem_drawRect2bpp_iff`: the bytes of a border are written
* `nnContained_iff`: a box is contained unless the pixels before it do not fit
* `box_on_large_canvas`: a box that is drawn elsewhere
-/

namespace RkIpc.Video

open Geometry Memory Osd Transition Wire

/-! ## Rectangles on a canvas -/

/-- `COLOR_INDEX_E`. -/
inductive ColorIndex
  | lut0
  | lut1
deriving DecidableEq, Repr

namespace ColorIndex

/-- `value`, four pixels. -/
def value : ColorIndex → UInt8
  | lut0 => 0xff
  | lut1 => 0xaa

/-- `rgn_color_lut_0_left_value`, `rgn_color_lut_1_left_value`. -/
def leftValue : ColorIndex → List UInt8
  | lut0 => [0x03, 0xf, 0x3f, 0xff]
  | lut1 => [0x02, 0xa, 0x2a, 0xaa]

/-- `rgn_color_lut_0_right_value`, `rgn_color_lut_1_right_value`. -/
def rightValue : ColorIndex → List UInt8
  | lut0 => [0xc0, 0xf0, 0xfc, 0xff]
  | lut1 => [0x80, 0xa0, 0xa8, 0xaa]

end ColorIndex

/-- **`draw_rect_2bpp`**: what it writes at which offsets into `buffer`. The size of a `memset` is
unsigned. -/
def drawRect2bpp (width : ℤ) (r : Rect) (linePixel : ℤ) (color : ColorIndex) : List (ℤ × UInt8) :=
  if linePixel > 4 then []
  else
    let ptr := unsigned (width * r.y + r.x) / 4
    let line ptr := memset ptr color.value (unsigned ((r.width + 3) / 4)).toNat
    let sides ptr := [(ptr, color.leftValue.getD (linePixel - 1).toNat 0),
      (ptr + (r.width + 3) / 4, color.rightValue.getD (linePixel - 1).toNat 0)]
    let top := lines (width / 4) line linePixel.toNat ptr
    let middle := lines (width / 4) sides (r.height - linePixel * 2).toNat top.2
    let bottom := lines (width / 4) line linePixel.toNat middle.2
    top.1 ++ middle.1 ++ bottom.1

/-! ## Objects -/

/-- `objInfo.type`, as far as it is looked at. -/
inductive ObjectType
  | person
  | face
  | vehicle
  | nonVehicle
  | other
deriving DecidableEq, Repr

/-- `objInfo.rect`, in parts of 10000 of the video. -/
structure NnBox where
  left : UInt16
  top : UInt16
  right : UInt16
  bottom : UInt16
deriving DecidableEq, Repr

/-- `objInfo`. -/
structure NnObject where
  box : NnBox
  type : ObjectType
deriving DecidableEq, Repr

/-- `line_pixel`. -/
def linePixel : ℤ := 2

/-- `x` or `y`. -/
def nnStart (size : ℤ) (coordinate : UInt16) : ℤ :=
  ((storedInt (size * coordinate.toNat)).tdiv 10000).tdiv 16 * 16

/-- `w` or `h`, before it is made to fit. -/
def nnSize (size : ℤ) (first last : UInt16) : ℤ :=
  ((storedInt (size * (last.toNat - first.toNat))).tdiv 10000 + 3).tdiv 16 * 16

/-- `while (start + size + line_pixel >= limit) size -= 8;`. -/
def fitNn (start limit size : ℤ) : ℤ :=
  lowerLoop (fun size => storedInt (start + linePixel + size)) storedInt 8 (limit - 1)
    (storedInt (start + linePixel + size) - (limit - 1)).toNat size

/-- `x`, `y`, `w` and `h`. -/
def nnRect (width height : ℤ) (box : NnBox) : Rect where
  x := nnStart width box.left
  y := nnStart height box.top
  width := fitNn (nnStart width box.left) width (nnSize width box.left box.right)
  height := fitNn (nnStart height box.top) height (nnSize height box.top box.bottom)

/-- The colour for a type of objects. -/
def ObjectType.color : ObjectType → Option ColorIndex
  | person => some .lut0
  | face => some .lut1
  | vehicle => some .lut1
  | nonVehicle => some .lut1
  | other => none

/-- **The body of the loop over the objects**: what is written on a canvas with `stride` pixels in a
row. -/
def drawObject (width height stride : ℤ) (o : NnObject) : List (ℤ × UInt8) :=
  let r := nnRect width height o.box
  if r.x < 0 ∨ r.y < 0 ∨ r.width ≤ 0 ∨ r.height ≤ 0 then []
  else
    match o.type.color with
    | some color => drawRect2bpp stride r linePixel color
    | none => []

/-! ## What is wanted -/

/-- **The bytes of the border of a rectangle**, by row and column. -/
structure OnBorder (r : Rect) (row column : ℤ) : Prop where
  top : r.y ≤ row
  bottom : row ≤ r.y + r.height - 1
  left : r.x / 4 ≤ column
  right : column ≤ (r.x + r.width) / 4
  edge : if r.y + linePixel ≤ row ∧ row < r.y + r.height - linePixel then
      column = r.x / 4 ∨ column = (r.x + r.width) / 4
    else column < (r.x + r.width) / 4

/-- **A box is contained**: both loops end, what is written lies on the canvas and in the rows and
columns of the rectangle, and what is not on its border stays as it was. -/
structure NnContained (width height stride rows : ℤ) (o : NnObject) : Prop where
  widthEnds : Ends (fun w => width ≤ storedInt (nnStart width o.box.left + linePixel + w))
    (fun w => storedInt (w - 8)) (nnSize width o.box.left o.box.right)
    (nnRect width height o.box).width
  heightEnds : Ends (fun h => height ≤ storedInt (nnStart height o.box.top + linePixel + h))
    (fun h => storedInt (h - 8)) (nnSize height o.box.top o.box.bottom)
    (nnRect width height o.box).height
  canvas : ∀ w ∈ drawObject width height stride o, 0 ≤ w.1 ∧ w.1 < stride * rows / 4
  rows : ∀ w ∈ drawObject width height stride o,
    (nnRect width height o.box).y ≤ w.1 / (stride / 4) ∧
      w.1 / (stride / 4) ≤ (nnRect width height o.box).y + (nnRect width height o.box).height - 1
  columns : ∀ w ∈ drawObject width height stride o,
    (nnRect width height o.box).x / 4 ≤ w.1 % (stride / 4) ∧
      w.1 % (stride / 4) ≤
        ((nnRect width height o.box).x + (nnRect width height o.box).width) / 4
  frame : ∀ (m : ℤ → UInt8) (p : ℤ),
    ¬ OnBorder (nnRect width height o.box) (p / (stride / 4)) (p % (stride / 4)) →
      stored m (drawObject width height stride o) p = m p

/-- **A box is drawn**: its type has a colour, its sides are positive, and there is room for them
beside the border. -/
structure Drawn (width height : ℤ) (o : NnObject) : Prop where
  type : o.type ≠ .other
  wide : 0 < nnSize width o.box.left o.box.right
  right : nnStart width o.box.left + 10 < width
  high : 0 < nnSize height o.box.top o.box.bottom
  bottom : nnStart height o.box.top + 10 < height

/-! ## One axis -/

section Axis

variable {limit start size : ℤ}

theorem nnStart_bounds (first : UInt16) (hlimit : 1 ≤ limit ∧ limit ≤ 16384) :
    0 ≤ nnStart limit first ∧ nnStart limit first ≤ 2 ^ 17 ∧ nnStart limit first % 16 = 0 := by
  have hfirst : (first.toNat : ℤ) < 2 ^ 16 := by exact_mod_cast first.toNat_lt
  have hlo : 0 ≤ limit * first.toNat := Int.mul_nonneg (by omega) (by omega)
  have hhi : limit * first.toNat ≤ 16384 * 2 ^ 16 :=
    Int.mul_le_mul hlimit.2 hfirst.le (by omega) (by omega)
  rw [nnStart, storedInt_of_inRange ⟨by omega, by omega⟩, Int.tdiv_eq_ediv_of_nonneg hlo,
    Int.tdiv_eq_ediv_of_nonneg (by omega)]
  omega

theorem nnSize_bounds (first last : UInt16) (hlimit : 1 ≤ limit ∧ limit ≤ 16384) :
    -2 ^ 17 ≤ nnSize limit first last ∧ nnSize limit first last ≤ 2 ^ 17 ∧
      nnSize limit first last % 16 = 0 := by
  have hfirst : (first.toNat : ℤ) < 2 ^ 16 := by exact_mod_cast first.toNat_lt
  have hlast : (last.toNat : ℤ) < 2 ^ 16 := by exact_mod_cast last.toNat_lt
  have hlo : limit * -2 ^ 16 ≤ limit * (last.toNat - first.toNat : ℤ) :=
    Int.mul_le_mul_of_nonneg_left (by omega) (by omega)
  have hhi : limit * (last.toNat - first.toNat : ℤ) ≤ limit * 2 ^ 16 :=
    Int.mul_le_mul_of_nonneg_left (by omega) (by omega)
  rw [nnSize, storedInt_of_inRange ⟨by omega, by omega⟩]
  generalize limit * (last.toNat - first.toNat : ℤ) = p at hlo hhi
  rw [Int.tdiv_eq_ediv, Int.tdiv_eq_ediv, Int.sign_eq_one_of_pos (by omega),
    Int.sign_eq_one_of_pos (by omega)]
  split <;> split <;> omega

/-- **What the loop comes to.** It is positive if the size was and there is room. -/
theorem fitNn_bounds (hlimit : 1 ≤ limit ∧ limit ≤ 16384)
    (hstart : 0 ≤ start ∧ start ≤ 2 ^ 17 ∧ start % 16 = 0)
    (hsize : -2 ^ 17 ≤ size ∧ size ≤ 2 ^ 17 ∧ size % 16 = 0) :
    fitNn start limit size % 8 = 0 ∧ start + fitNn start limit size + 2 < limit ∧
      (0 < fitNn start limit size ↔ 0 < size ∧ start + 10 < limit) := by
  have hsum : storedInt (start + linePixel + size) = start + 2 + size :=
    storedInt_of_inRange (by unfold InRange linePixel; omega)
  have hfit : fitNn start limit size = lowered 8 (limit - 1) (start + 2 + size) - (start + 2) := by
    rw [fitNn, lowerLoop_sum_eq (by omega) (by omega) (by omega) ⟨by omega, by omega⟩, hsum]
    apply storedInt_of_inRange
    unfold InRange lowered linePixel
    split <;> omega
  rw [hfit]
  unfold lowered
  split <;> omega

/-- **The loop ends.** -/
theorem ends_fitNn (hlimit : 1 ≤ limit) (hsize : -2 ^ 17 ≤ size ∧ size ≤ 2 ^ 17) :
    Ends (fun size => limit ≤ storedInt (start + linePixel + size))
      (fun size => storedInt (size - 8)) size (fitNn start limit size) := by
  rw [fitNn, lowerLoop_sum_eq (by omega) (by omega) (by omega) ⟨by omega, by omega⟩]
  simpa only [Int.sub_one_lt_iff] using
    @ends_sum 8 (start + linePixel) (limit - 1) size (by omega) (by omega) (by omega)
      ⟨by omega, by omega⟩

end Axis

/-! ## Drawing -/

section Draw

variable {width : ℤ} {r : Rect} {color : ColorIndex}

/-- The lines, counted from the top. -/
theorem mem_drawRect2bpp (hw : 0 < r.width ∧ r.width % 8 = 0 ∧ r.width < 2 ^ 31)
    (hh : 4 ≤ r.height) {w : ℤ × UInt8} : w ∈ drawRect2bpp width r linePixel color ↔
      (∃ i : ℕ, (i < 2 ∨ r.height - 2 ≤ i ∧ i < r.height) ∧
        w ∈ memset (unsigned (width * r.y + r.x) / 4 + width / 4 * i) color.value
          (r.width / 4).toNat) ∨
      ∃ i : ℕ, (2 ≤ i ∧ i < r.height - 2) ∧
        w ∈ [(unsigned (width * r.y + r.x) / 4 + width / 4 * i, color.leftValue.getD 1 0),
          (unsigned (width * r.y + r.x) / 4 + width / 4 * i + r.width / 4,
            color.rightValue.getD 1 0)] := by
  have hbytes : (r.width + 3) / 4 = r.width / 4 := by omega
  have hsize : unsigned (r.width / 4) = r.width / 4 := by
    unfold unsigned
    omega
  have hsides : ((r.height - linePixel * 2).toNat : ℤ) = r.height - 4 := by
    unfold linePixel
    omega
  generalize hn : (r.height - linePixel * 2).toNat = n at hsides
  simp only [drawRect2bpp, hbytes, hsize, hn]
  rw [if_neg (by decide), List.mem_append, List.mem_append, lines_snd, lines_snd, mem_lines_iff,
    mem_lines_iff, mem_lines_iff]
  show ((∃ i < 2, _) ∨ ∃ i < n, _) ∨ (∃ i < 2, _) ↔ _
  generalize unsigned (width * r.y + r.x) / 4 = ptr
  generalize width / 4 = pitch
  have hmiddle : ∀ i : ℕ, ptr + pitch * (2 : ℕ) + pitch * i = ptr + pitch * (2 + i : ℕ) := by
    intro i
    push_cast
    ring
  have hbottom : ∀ i : ℕ,
      ptr + pitch * (2 : ℕ) + pitch * n + pitch * i = ptr + pitch * (2 + n + i : ℕ) := by
    intro i
    push_cast
    ring
  constructor
  · rintro ((⟨i, hi, h⟩ | ⟨i, hi, h⟩) | ⟨i, hi, h⟩)
    · exact .inl ⟨i, .inl hi, h⟩
    · exact .inr ⟨2 + i, ⟨by omega, by push_cast; omega⟩, hmiddle i ▸ h⟩
    · exact .inl ⟨2 + n + i, .inr ⟨by push_cast; omega, by push_cast; omega⟩, hbottom i ▸ h⟩
  · rintro (⟨i, hi | ⟨hlo, hhi⟩, h⟩ | ⟨i, ⟨hlo, hhi⟩, h⟩)
    · exact .inl (.inl ⟨i, hi, h⟩)
    · obtain ⟨j, rfl⟩ : ∃ j, i = 2 + n + j := ⟨i - (2 + n), by omega⟩
      exact .inr ⟨j, by push_cast at hhi; omega, (hbottom j).symm ▸ h⟩
    · obtain ⟨j, rfl⟩ : ∃ j, i = 2 + j := ⟨i - 2, by omega⟩
      exact .inl (.inr ⟨j, by push_cast at hhi; omega, (hmiddle j).symm ▸ h⟩)

/-- **The bytes of the border are written**, and no others, if the pixels before the rectangle can
be counted. -/
theorem mem_drawRect2bpp_iff (hx : r.x % 16 = 0)
    (hw : 0 < r.width ∧ r.width % 8 = 0 ∧ r.width < 2 ^ 31) (hh : 4 ≤ r.height)
    (hwidth : width % 16 = 0) (hptr : 0 ≤ width * r.y + r.x ∧ width * r.y + r.x < 2 ^ 32) {p : ℤ} :
    (∃ v, (p, v) ∈ drawRect2bpp width r linePixel color) ↔
      ∃ row column, p = width / 4 * row + column ∧ OnBorder r row column := by
  have hstart : unsigned (width * r.y + r.x) / 4 = width / 4 * r.y + r.x / 4 := by
    obtain ⟨k, rfl⟩ : ∃ k, width = 4 * k := ⟨width / 4, by omega⟩
    rw [unsigned, Int.emod_eq_of_lt hptr.1 hptr.2, Int.mul_ediv_cancel_left _ (by omega), mul_assoc]
    omega
  simp only [mem_drawRect2bpp hw hh, hstart, mem_memset_iff, List.mem_cons, List.not_mem_nil,
    or_false, Prod.mk.injEq]
  generalize width / 4 = pitch
  constructor
  · rintro ⟨v, ⟨i, hi, ⟨hlo, hhi⟩, -⟩ | ⟨i, hi, hp⟩⟩
    · have hrow : pitch * (r.y + i) = pitch * r.y + pitch * i := mul_add ..
      refine ⟨r.y + i, p - pitch * (r.y + i), by ring, by omega, by omega, by omega, by omega, ?_⟩
      rw [if_neg (by unfold linePixel; omega)]
      omega
    · refine ⟨r.y + i, p - pitch * (r.y + i), by ring, ?_⟩
      have hcolumn : p - pitch * (r.y + i) = r.x / 4 ∨
          p - pitch * (r.y + i) = (r.x + r.width) / 4 := by
        rw [mul_add]
        omega
      refine ⟨by omega, by omega, by omega, by omega, ?_⟩
      rwa [if_pos (by unfold linePixel; omega)]
  · rintro ⟨row, column, rfl, h⟩
    obtain ⟨i, rfl⟩ : ∃ i : ℕ, row = r.y + i := ⟨(row - r.y).toNat, by have := h.top; omega⟩
    have hbottom := h.bottom
    have hleft := h.left
    have hedge := h.edge
    rw [mul_add]
    split at hedge
    · next hmiddle =>
      unfold linePixel at hmiddle
      rcases hedge with rfl | rfl
      · exact ⟨_, .inr ⟨i, by omega, .inl ⟨by ring, rfl⟩⟩⟩
      · refine ⟨_, .inr ⟨i, by omega, .inr ⟨?_, rfl⟩⟩⟩
        omega
    · next hmiddle =>
      unfold linePixel at hmiddle
      exact ⟨_, .inl ⟨i, by omega, ⟨by omega, by omega⟩, rfl⟩⟩

/-- Where a byte of the border lies on a canvas that is wide enough. -/
theorem OnBorder.place {stride rows row column p : ℤ} (h : OnBorder r row column)
    (hp : p = stride / 4 * row + column) (hx : 0 ≤ r.x) (hy : 0 ≤ r.y)
    (hright : (r.x + r.width) / 4 < stride / 4) (hbottom : r.y + r.height ≤ rows) :
    (0 ≤ p ∧ p < stride / 4 * rows) ∧ p / (stride / 4) = row ∧ p % (stride / 4) = column := by
  have hlo : 0 ≤ column := by
    have := h.left
    omega
  have hhi := h.right.trans_lt hright
  have hrow : 0 ≤ row := hy.trans h.top
  refine ⟨⟨?_, lt_of_row hp hhi (by have := h.bottom; omega) (by omega)⟩, row_of hp hlo hhi,
    column_of hp hlo hhi⟩
  rw [hp]
  exact Int.add_nonneg (Int.mul_nonneg (by omega) hrow) hlo

/-- **What is written lies on the canvas**, and on the border. -/
theorem place_of_mem_drawRect2bpp {rows p : ℤ} {v : UInt8} (hx : 0 ≤ r.x ∧ r.x % 16 = 0)
    (hy : 0 ≤ r.y) (hw : 0 < r.width ∧ r.width % 8 = 0 ∧ r.width < 2 ^ 31) (hh : 4 ≤ r.height)
    (hwidth : width % 16 = 0) (hright : r.x + r.width + 2 < width)
    (hbottom : r.y + r.height ≤ rows) (hptr : width * r.y + r.x < 2 ^ 32)
    (hp : (p, v) ∈ drawRect2bpp width r linePixel color) :
    (0 ≤ p ∧ p < width * rows / 4) ∧ OnBorder r (p / (width / 4)) (p % (width / 4)) := by
  have hnonneg : 0 ≤ width * r.y + r.x := Int.add_nonneg (Int.mul_nonneg (by omega) hy) hx.1
  obtain ⟨row, column, hp, hborder⟩ :=
    (mem_drawRect2bpp_iff hx.2 hw hh hwidth ⟨hnonneg, hptr⟩).mp ⟨v, hp⟩
  obtain ⟨hcanvas, hrow, hcolumn⟩ := hborder.place hp hx.1 hy (by omega) hbottom
  have hbytes : width * rows / 4 = width / 4 * rows := by
    obtain ⟨k, rfl⟩ : ∃ k, width = 4 * k := ⟨width / 4, by omega⟩
    rw [Int.mul_ediv_cancel_left _ (by omega), mul_assoc, Int.mul_ediv_cancel_left _ (by omega)]
  rw [hbytes, hrow, hcolumn]
  exact ⟨hcanvas, hborder⟩

/-- **The first byte lies above the rectangle** if the pixels before it cannot be counted. -/
theorem exists_above (hx : r.x < 2 ^ 32) (hw : 0 < r.width ∧ r.width % 8 = 0 ∧ r.width < 2 ^ 31)
    (hh : 4 ≤ r.height) (hwidth : width % 16 = 0) (hpos : 0 < width)
    (hptr : 2 ^ 32 ≤ width * r.y + r.x) :
    ∃ w ∈ drawRect2bpp width r linePixel color, w.1 / (width / 4) < r.y := by
  have hfirst : (unsigned (width * r.y + r.x) / 4, color.value) ∈
      drawRect2bpp width r linePixel color :=
    (mem_drawRect2bpp hw hh).mpr (.inl ⟨0, .inl two_pos,
      mem_memset_iff.mpr ⟨⟨by push_cast; omega, by push_cast; omega⟩, rfl⟩⟩)
  refine ⟨_, hfirst, ?_⟩
  obtain ⟨k, rfl⟩ : ∃ k, width = 4 * k := ⟨width / 4, by omega⟩
  rw [Int.mul_ediv_cancel_left _ (by omega), Int.ediv_lt_iff_lt_mul (by omega), unsigned]
  rw [mul_assoc, Int.mul_comm k] at hptr ⊢
  generalize r.y * k = q at hptr ⊢
  omega

end Draw

/-! ## Boxes -/

section Box

variable {width height stride rows : ℤ} {o : NnObject}

theorem color_eq_none_iff {type : ObjectType} : type.color = none ↔ type = .other := by
  cases type <;> simp [ObjectType.color]

/-- The box of an object, beside what is left and above it. -/
theorem nnRect_bounds (hwidth : 1 ≤ width ∧ width ≤ 16384)
    (hheight : 1 ≤ height ∧ height ≤ 16384) :
    let r := nnRect width height o.box
    ((0 ≤ r.x ∧ r.x ≤ 2 ^ 17 ∧ r.x % 16 = 0) ∧ r.width % 8 = 0 ∧ r.x + r.width + 2 < width ∧
      (0 < r.width ↔ 0 < nnSize width o.box.left o.box.right ∧ r.x + 10 < width)) ∧
    (0 ≤ r.y ∧ r.y ≤ 2 ^ 17 ∧ r.y % 16 = 0) ∧ r.height % 8 = 0 ∧ r.y + r.height + 2 < height ∧
      (0 < r.height ↔ 0 < nnSize height o.box.top o.box.bottom ∧ r.y + 10 < height) :=
  ⟨⟨nnStart_bounds _ hwidth,
      fitNn_bounds hwidth (nnStart_bounds _ hwidth) (nnSize_bounds _ _ hwidth)⟩,
    nnStart_bounds _ hheight,
    fitNn_bounds hheight (nnStart_bounds _ hheight) (nnSize_bounds _ _ hheight)⟩

/-- What is written for an object. -/
theorem drawObject_cases (stride : ℤ) (hwidth : 1 ≤ width ∧ width ≤ 16384)
    (hheight : 1 ≤ height ∧ height ≤ 16384) :
    (¬ Drawn width height o ∧ drawObject width height stride o = []) ∨
      Drawn width height o ∧ 0 < (nnRect width height o.box).width ∧
        0 < (nnRect width height o.box).height ∧
        ∃ color, drawObject width height stride o =
          drawRect2bpp stride (nnRect width height o.box) linePixel color := by
  obtain ⟨⟨⟨hx, -⟩, -, -, hw⟩, ⟨hy, -⟩, -, -, hh⟩ := nnRect_bounds (o := o) hwidth hheight
  unfold drawObject
  by_cases hpos : 0 < (nnRect width height o.box).width ∧ 0 < (nnRect width height o.box).height
  · dsimp only
    rw [if_neg (by omega)]
    cases hcolor : o.type.color with
    | none => exact .inl ⟨fun h => h.type (color_eq_none_iff.mp hcolor), rfl⟩
    | some color =>
      refine .inr ⟨?_, hpos.1, hpos.2, color, rfl⟩
      have htype : o.type ≠ .other := fun h => by
        rw [color_eq_none_iff.mpr h] at hcolor
        cases hcolor
      exact ⟨htype, (hw.mp hpos.1).1, (hw.mp hpos.1).2, (hh.mp hpos.2).1, (hh.mp hpos.2).2⟩
  · refine .inl ⟨fun h => hpos ⟨hw.mpr ⟨h.wide, h.right⟩, hh.mpr ⟨h.high, h.bottom⟩⟩, ?_⟩
    exact if_pos (by omega)

/-- **A box is contained** if and only if it is not drawn, or the pixels before it can be
counted. -/
theorem nnContained_iff (hwidth : 1 ≤ width ∧ width ≤ 16384)
    (hheight : 1 ≤ height ∧ height ≤ 16384) (hstride : width ≤ stride ∧ stride % 16 = 0)
    (hrows : height ≤ rows) : NnContained width height stride rows o ↔
      (Drawn width height o →
        stride * nnStart height o.box.top + nnStart width o.box.left < 2 ^ 32) := by
  obtain ⟨hslo, hshi, -⟩ := nnSize_bounds o.box.left o.box.right hwidth
  obtain ⟨htlo, hthi, -⟩ := nnSize_bounds o.box.top o.box.bottom hheight
  have hwidthEnds := @ends_fitNn width (nnStart width o.box.left) _ hwidth.1 ⟨hslo, hshi⟩
  have hheightEnds := @ends_fitNn height (nnStart height o.box.top) _ hheight.1 ⟨htlo, hthi⟩
  obtain ⟨⟨⟨hx, hx', hx16⟩, hw8, hright, -⟩, ⟨hy, hy', hy16⟩, hh8, hbottom, -⟩ :=
    nnRect_bounds (o := o) hwidth hheight
  rcases drawObject_cases stride hwidth hheight with ⟨hdrawn, hnil⟩ | ⟨hdrawn, hw, hh, color, heq⟩
  · refine iff_of_true ?_ fun h => absurd h hdrawn
    have hnone : ∀ w : ℤ × UInt8, w ∉ drawObject width height stride o := fun w hw => by
      rw [hnil] at hw
      exact List.not_mem_nil hw
    exact ⟨hwidthEnds, hheightEnds, fun w hw => absurd hw (hnone w),
      fun w hw => absurd hw (hnone w), fun w hw => absurd hw (hnone w),
      fun m p _ => by rw [hnil]; rfl⟩
  · rw [forall_prop_of_true hdrawn]
    have hw31 : (nnRect width height o.box).width < 2 ^ 31 := by omega
    constructor
    · intro h
      by_contra hbig
      obtain ⟨w, hmem, habove⟩ := @exists_above stride _ color (by omega) ⟨hw, hw8, hw31⟩ (by omega)
        hstride.2 (by omega) (not_lt.mp hbig)
      exact absurd (h.rows w (heq ▸ hmem)).1 (not_le.mpr habove)
    · intro hsum
      have hbelow : (nnRect width height o.box).y + (nnRect width height o.box).height ≤ rows := by
        omega
      have hplace : ∀ w ∈ drawObject width height stride o,
          (0 ≤ w.1 ∧ w.1 < stride * rows / 4) ∧
            OnBorder (nnRect width height o.box) (w.1 / (stride / 4)) (w.1 % (stride / 4)) := by
        rw [heq]
        exact fun w hw' => place_of_mem_drawRect2bpp ⟨hx, hx16⟩ hy ⟨hw, hw8, hw31⟩ (by omega)
          hstride.2 (by omega) hbelow hsum hw'
      refine ⟨hwidthEnds, hheightEnds, fun w hw => (hplace w hw).1,
        fun w hw => ⟨(hplace w hw).2.top, (hplace w hw).2.bottom⟩,
        fun w hw => ⟨(hplace w hw).2.left, (hplace w hw).2.right⟩, ?_⟩
      intro m p hp
      apply stored_of_untouched
      rintro w hw rfl
      exact hp (hplace w hw).2

end Box

/-- A person in the middle of the picture. -/
def middle : NnObject := ⟨⟨2500, 2500, 7500, 7500⟩, .person⟩

/-- The box is drawn, where it belongs. -/
theorem nnContained_iff_middle : nnRect 1920 1080 middle.box = ⟨480, 256, 960, 528⟩ ∧
    (123000, 0xff) ∈ drawObject 1920 1080 1920 middle ∧ NnContained 1920 1080 1920 1080 middle := by
  have hrect : nnRect 1920 1080 middle.box = ⟨480, 256, 960, 528⟩ := by
    decide +kernel
  have hwritten : (123000, 0xff) ∈ drawObject 1920 1080 1920 middle := by
    decide +kernel
  refine ⟨hrect, hwritten,
    (nnContained_iff (by decide) (by decide) (by decide) (by decide)).mpr fun _ => ?_⟩
  decide

/-- A person in the lower left corner. -/
def lowerLeft : NnObject := ⟨⟨0, 9991, 20, 10000⟩, .person⟩

/-- **A box on a large canvas is drawn elsewhere**: the pixels before it are counted in an `RK_U32`,
which leads to the first row. -/
theorem box_on_large_canvas : (16384 : ℤ) ≤ 262416 ∧ (262416 : ℤ) % 16 = 0 ∧
    nnRect 16384 16384 lowerLeft.box = ⟨0, 16368, 32, 8⟩ ∧
    (64448, 0xff) ∈ drawObject 16384 16384 262416 lowerLeft ∧
    ¬ NnContained 16384 16384 262416 16384 lowerLeft := by
  have hrect : nnRect 16384 16384 lowerLeft.box = ⟨0, 16368, 32, 8⟩ := by
    decide +kernel
  have hwritten : (64448, 0xff) ∈ drawObject 16384 16384 262416 lowerLeft := by
    decide +kernel
  refine ⟨by decide, by decide, hrect, hwritten, fun h => ?_⟩
  have hrow := (h.rows _ hwritten).1
  rw [hrect] at hrow
  exact absurd hrow (by decide)

end RkIpc.Video
