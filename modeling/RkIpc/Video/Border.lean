import RkIpc.Video.NnDraw

/-!
# The boxes that RGA draws

`rkipc_get_vi_draw_send_venc` scales the box of an object to the frame, in unsigned arithmetic,
rounds it to multiples of 2 and lowers its sides until it fits. `rga_nv12_border` fills the four
sides of its border. Whether there is anything left of the box is not looked at.

## Main definitions

* `borderRect`: the box of an object
* `rgaNv12Border`: the rectangles that are filled
* `BorderContained`: they lie in the frame
* `RoundsLeave`: there is something left along an axis

## Main results

* `borderContained_iff`: the sides lie in the frame if there is something left of the box, and only
  then
* `box_at_edge_vanishes`: boxes of which nothing is left
-/

namespace RkIpc.Video

open Geometry Osd Transition Wire

/-- **`rga_nv12_border`**: what `imfill` is called with. -/
def rgaNv12Border (r : Rect) (linePixel : ℤ) : List Rect :=
  [⟨r.x, r.y, r.width, linePixel⟩,
    ⟨r.x, storedInt (r.y + r.height - linePixel), r.width, linePixel⟩,
    ⟨r.x, r.y, linePixel, r.height⟩,
    ⟨storedInt (r.x + r.width - linePixel), r.y, linePixel, r.height⟩]

/-- `rect_up`. -/
theorem up_mem (r : Rect) (linePixel : ℤ) :
    ⟨r.x, r.y, r.width, linePixel⟩ ∈ rgaNv12Border r linePixel :=
  List.mem_cons_self

/-- `rect_left`. -/
theorem left_mem (r : Rect) (linePixel : ℤ) :
    ⟨r.x, r.y, linePixel, r.height⟩ ∈ rgaNv12Border r linePixel :=
  .tail _ (.tail _ List.mem_cons_self)

/-- `x` or `y`, with the size of a frame, which is unsigned. -/
def borderStart (size : ℤ) (coordinate : UInt16) : ℤ :=
  (storedInt (unsigned (size * coordinate.toNat) / 10000)).tdiv 2 * 2

/-- `w` or `h`, before it is made to fit. -/
def borderSize (size : ℤ) (first last : UInt16) : ℤ :=
  (storedInt (unsigned (size * (last.toNat - first.toNat)) / 10000)).tdiv 2 * 2

/-- `while (start + size + line_pixel >= limit) size -= 8;`, compared as unsigned. -/
def fitBorder (start limit size : ℤ) : ℤ :=
  lowerLoop (fun size => unsigned (start + linePixel + size)) storedInt 8 (limit - 1)
    (unsigned (start + linePixel + size) - (limit - 1)).toNat size

/-- `x`, `y`, `w` and `h`. -/
def borderRect (width height : ℤ) (box : NnBox) : Rect where
  x := borderStart width box.left
  y := borderStart height box.top
  width := fitBorder (borderStart width box.left) width (borderSize width box.left box.right)
  height := fitBorder (borderStart height box.top) height (borderSize height box.top box.bottom)

/-- **The border is contained**: both loops end, and what is filled lies in the frame and is not
empty. -/
structure BorderContained (width height : ℤ) (box : NnBox) : Prop where
  widthEnds : Ends (fun w => width ≤ unsigned (borderStart width box.left + linePixel + w))
    (fun w => storedInt (w - 8)) (borderSize width box.left box.right)
    (borderRect width height box).width
  heightEnds : Ends (fun h => height ≤ unsigned (borderStart height box.top + linePixel + h))
    (fun h => storedInt (h - 8)) (borderSize height box.top box.bottom)
    (borderRect width height box).height
  fills : ∀ f ∈ rgaNv12Border (borderRect width height box) linePixel,
    f.Inside width height ∧ f.Solid

/-- The rounds of a loop that has to make room. -/
def roundsFor (limit start size : ℤ) : ℤ :=
  if start + size + linePixel < limit then 0 else (start + size + linePixel - limit) / 8 + 1

/-- **There is something left** of a side after its rounds. -/
def RoundsLeave (limit start size : ℤ) : Prop := 8 * roundsFor limit start size < size

/-! ## One axis -/

section Axis

variable {limit start size : ℤ} {first last : UInt16}

/-- An `int` that is compared as unsigned. -/
theorem unsigned_add_storedInt (v w : ℤ) : unsigned (v + storedInt w) = unsigned (v + w) := by
  unfold unsigned storedInt
  rw [Int.bmod_def]
  split <;> omega

theorem borderStart_bounds :
    0 ≤ borderStart limit first ∧ borderStart limit first < 2 ^ 19 ∧
      borderStart limit first % 2 = 0 := by
  unfold borderStart unsigned
  rw [storedInt_of_inRange ⟨by omega, by omega⟩, Int.tdiv_eq_ediv_of_nonneg (by omega)]
  omega

theorem borderSize_bounds :
    0 ≤ borderSize limit first last ∧ borderSize limit first last < 2 ^ 19 ∧
      borderSize limit first last % 2 = 0 := by
  unfold borderSize unsigned
  rw [storedInt_of_inRange ⟨by omega, by omega⟩, Int.tdiv_eq_ediv_of_nonneg (by omega)]
  omega

/-- The sum determines the size. -/
theorem tracks_fitBorder (x : ℤ) (hlimit : 8 ≤ limit) :
    Tracks (fun size => unsigned (x + size)) storedInt 8 (limit - 1) (fun t => 0 ≤ t ∧ t < 2 ^ 32)
      (fun t => storedInt (t - x)) where
  read t ht := by
    show unsigned (x + storedInt (t - x)) = t
    rw [unsigned_add_storedInt, add_sub_cancel]
    exact Int.emod_eq_of_lt ht.1 ht.2
  store t _ _ := by
    rw [storedInt_sub_storedInt, sub_right_comm]
  next t ht hlt := ⟨by omega, by omega⟩

/-- **What the loop comes to.** -/
theorem fitBorder_eq (hlimit : 8 ≤ limit) (hstart : 0 ≤ start ∧ start < 2 ^ 19)
    (hsize : 0 ≤ size ∧ size < 2 ^ 19) :
    fitBorder start limit size = size - 8 * roundsFor limit start size ∧
      Ends (fun size => limit ≤ unsigned (start + linePixel + size))
        (fun size => storedInt (size - 8)) size (fitBorder start limit size) := by
  have hsum : unsigned (start + linePixel + size) = start + linePixel + size :=
    Int.emod_eq_of_lt (by unfold linePixel; omega) (by unfold linePixel; omega)
  have hmem : 0 ≤ start + linePixel + size ∧ start + linePixel + size < 2 ^ 32 := by
    unfold linePixel
    omega
  have hfirst : storedInt (start + linePixel + size - (start + linePixel)) = size := by
    rw [add_sub_cancel_left]
    exact storedInt_of_inRange ⟨by omega, by omega⟩
  have htracks := tracks_fitBorder (start + linePixel) hlimit
  have hfit := htracks.lowerLoop_eq (by omega) hmem _ (Int.self_le_toNat _)
  have hends := htracks.ends (by omega) hmem
  have hlast : storedInt (lowered 8 (limit - 1) (start + linePixel + size) - (start + linePixel)) =
      size - 8 * roundsFor limit start size := by
    have hrounds : lowered 8 (limit - 1) (start + linePixel + size) - (start + linePixel) =
        size - 8 * roundsFor limit start size := by
      unfold lowered roundsFor linePixel
      split <;> split <;> omega
    rw [hrounds]
    apply storedInt_of_inRange
    unfold InRange roundsFor linePixel
    split <;> omega
  rw [hfirst, hlast] at hfit hends
  rw [fitBorder, hsum, hfit]
  exact ⟨rfl, by simpa only [Int.sub_one_lt_iff] using hends⟩

/-- A side after the loop. -/
theorem fitBorder_bounds (hlimit : 8 ≤ limit) (hstart : 0 ≤ start ∧ start < 2 ^ 19)
    (hsize : 0 ≤ size ∧ size < 2 ^ 19) (heven : size % 2 = 0) :
    (fitBorder start limit size % 2 = 0 ∧ fitBorder start limit size < 2 ^ 19) ∧
      start + fitBorder start limit size + 2 < limit ∧
      (0 < fitBorder start limit size ↔ RoundsLeave limit start size) := by
  rw [(fitBorder_eq hlimit hstart hsize).1, RoundsLeave]
  unfold roundsFor linePixel
  split <;> omega

end Axis

/-! ## Boxes -/

section Box

variable {width height : ℤ} {box : NnBox}

/-- **The sides of a rectangle lie in a frame** if and only if it is not empty. -/
theorem fills_iff {r : Rect} (hx : 0 ≤ r.x ∧ r.x < 2 ^ 19) (hy : 0 ≤ r.y ∧ r.y < 2 ^ 19)
    (hw : r.width % 2 = 0 ∧ r.width < 2 ^ 19) (hh : r.height % 2 = 0 ∧ r.height < 2 ^ 19)
    (hright : r.x + r.width + 2 < width) (hbottom : r.y + r.height + 2 < height) :
    (∀ f ∈ rgaNv12Border r linePixel, f.Inside width height ∧ f.Solid) ↔
      0 < r.width ∧ 0 < r.height := by
  constructor
  · intro h
    exact ⟨(h _ (up_mem r _)).2.width, (h _ (left_mem r _)).2.height⟩
  · rintro ⟨hwidth, hheight⟩
    have hx' : storedInt (r.x + r.width - linePixel) = r.x + r.width - 2 :=
      storedInt_of_inRange ⟨by unfold linePixel; omega, by unfold linePixel; omega⟩
    have hy' : storedInt (r.y + r.height - linePixel) = r.y + r.height - 2 :=
      storedInt_of_inRange ⟨by unfold linePixel; omega, by unfold linePixel; omega⟩
    rw [rgaNv12Border, hx', hy']
    simp only [List.forall_mem_cons, List.not_mem_nil, IsEmpty.forall_iff, implies_true, and_true,
      Rect.inside_iff, Rect.solid_iff, linePixel]
    omega

theorem BorderContained.width_pos (h : BorderContained width height box) :
    0 < (borderRect width height box).width :=
  (h.fills _ (up_mem _ _)).2.width

/-- **The border is contained** if and only if there is something left of both sides. -/
theorem borderContained_iff (hwidth : 16 ≤ width) (hheight : 16 ≤ height) :
    BorderContained width height box ↔
      RoundsLeave width (borderStart width box.left) (borderSize width box.left box.right) ∧
        RoundsLeave height (borderStart height box.top)
          (borderSize height box.top box.bottom) := by
  obtain ⟨hx0, hx, -⟩ := @borderStart_bounds width box.left
  obtain ⟨hy0, hy, -⟩ := @borderStart_bounds height box.top
  obtain ⟨hw0, hw, hw2⟩ := @borderSize_bounds width box.left box.right
  obtain ⟨hh0, hh, hh2⟩ := @borderSize_bounds height box.top box.bottom
  have hwidthEnds := (fitBorder_eq (show 8 ≤ width by omega) ⟨hx0, hx⟩ ⟨hw0, hw⟩).2
  have hheightEnds := (fitBorder_eq (show 8 ≤ height by omega) ⟨hy0, hy⟩ ⟨hh0, hh⟩).2
  obtain ⟨hwidth', hright, hwleft⟩ :=
    fitBorder_bounds (show 8 ≤ width by omega) ⟨hx0, hx⟩ ⟨hw0, hw⟩ hw2
  obtain ⟨hheight', hbottom, hhleft⟩ :=
    fitBorder_bounds (show 8 ≤ height by omega) ⟨hy0, hy⟩ ⟨hh0, hh⟩ hh2
  have hfills := @fills_iff width height (borderRect width height box) ⟨hx0, hx⟩ ⟨hy0, hy⟩ hwidth'
    hheight' hright hbottom
  rw [← hwleft, ← hhleft]
  constructor
  · intro h
    exact hfills.mp h.fills
  · intro h
    exact ⟨hwidthEnds, hheightEnds, hfills.mpr h⟩

end Box

theorem borderContained_middle_iff : BorderContained 1920 1080 ⟨2500, 2500, 7500, 7500⟩ ↔
    RoundsLeave 1920 (borderStart 1920 2500) (borderSize 1920 2500 7500) ∧
      RoundsLeave 1080 (borderStart 1080 2500) (borderSize 1080 2500 7500) :=
  borderContained_iff (by decide) (by decide)

/-- **A box at the edge vanishes**, and so does one that is thin: a rectangle without a width is
filled. -/
theorem box_at_edge_vanishes :
    (∀ box ∈ [(⟨9950, 2500, 10000, 7500⟩ : NnBox), ⟨5000, 2500, 5002, 7500⟩],
      (box.left ≤ box.right ∧ box.right ≤ 10000 ∧ box.top ≤ box.bottom ∧ box.bottom ≤ 10000) ∧
        (borderRect 1920 1080 box).width = 0) ∧
    ∀ box ∈ [(⟨9950, 2500, 10000, 7500⟩ : NnBox), ⟨5000, 2500, 5002, 7500⟩],
      ¬ BorderContained 1920 1080 box := by
  have hzero : ∀ box ∈ [(⟨9950, 2500, 10000, 7500⟩ : NnBox), ⟨5000, 2500, 5002, 7500⟩],
      (box.left ≤ box.right ∧ box.right ≤ 10000 ∧ box.top ≤ box.bottom ∧ box.bottom ≤ 10000) ∧
        (borderRect 1920 1080 box).width = 0 := by
    decide +kernel
  refine ⟨hzero, ?_⟩
  intro box hbox h
  exact h.width_pos.ne' (hzero box hbox).2

end RkIpc.Video
