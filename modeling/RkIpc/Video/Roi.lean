import RkIpc.Osd.Frame
import RkIpc.Video.Cover

/-!
# Regions of interest

A client places a region of interest on the picture that it sees, which the encoder has turned.
`rk_roi_set_all` scales it to that picture, rounds it to multiples of 16 and lowers its size until
it fits. `rk_roi_set` turns it back for the encoder, with the sizes of the picture before it is
turned.

## Main definitions

* `RoiData`, `rkRoiSetAll`: the regions that are handed over
* `RoiAttr`, `rotateRoi`, `rkRoiSet`: what the encoder is given
* `displayed`: where a region of the encoder is seen
* `RoisShown`: the regions are seen where they were placed
* `RoisPlaced`: when they are

## Main results

* `rotateRoi_rotateRoi`: a quarter turn there and back
* `roisShown_iff`: when the regions are seen where they were placed
* `turned_roi_escapes`: a region on a picture that is turned
-/

namespace RkIpc.Video

open Text Param Osd Geometry Transition Wire

/-! ## The regions of a client -/

/-- `snprintf(entry, 127, "roi.%d:…", id)`. -/
def roiEntry (id : ℤ) (name : String) : Str := lit "roi." ++ decimal id ++ lit ":" ++ lit name

/-- `snprintf(entry, 127, "video.%d:…", stream_id)`. -/
def streamKey (stream : ℤ) (name : String) : Str :=
  lit "video." ++ decimal stream ++ lit ":" ++ lit name

/-- `roi_data_s`. -/
structure RoiData where
  streamType : Str
  id : ℤ
  enabled : ℤ
  rect : Rect
  qualityLevel : ℤ
deriving DecidableEq, Repr

/-- `stream_id`. -/
def streamId (streamType : Str) : ℤ :=
  if streamType = lit "mainStream" then 0 else if streamType = lit "subStream" then 1 else 2

/-- The rotation of the encoder. -/
def rotation (q : Params) : ℤ := q.int (lit "video.source:rotation") 0

/-- `video_width` and `video_height` of a stream once it is turned. -/
def turnedSize (q : Params) (stream : ℤ) : ℤ × ℤ :=
  let width := q.int (streamKey stream "width") (-1)
  let height := q.int (streamKey stream "height") (-1)
  if rotation q = 90 ∨ rotation q = 270 then (height, width) else (width, height)

section SetAll

variable (scale : ℤ → ℤ → ℤ → ℤ) (q : Params)

/-- The place and the size of a region, scaled; `scale` is `(int)(value * rate)`. -/
def scaledRoi (stream id : ℤ) : Rect :=
  let normalizedWidth := q.int (lit "osd.common:normalized_screen_width") (-1)
  let normalizedHeight := q.int (lit "osd.common:normalized_screen_height") (-1)
  let x value := storedInt (upAlignTo16 (scale (turnedSize q stream).1 normalizedWidth value))
  let y value := storedInt (upAlignTo16 (scale (turnedSize q stream).2 normalizedHeight value))
  ⟨x (q.int (roiEntry id "position_x") (-1)), y (q.int (roiEntry id "position_y") (-1)),
    x (q.int (roiEntry id "width") (-1)), y (q.int (roiEntry id "height") (-1))⟩

/-- `while (x + size >= limit) size -= 16;`, for both sides. -/
def fitRoi (stream : ℤ) (r : Rect) : Rect :=
  { r with
    width := shrink r.x ((turnedSize q stream).1 - 1) r.width
    height := shrink r.y ((turnedSize q stream).2 - 1) r.height }

/-- The body of the loop of `rk_roi_set_all`. A null pointer is not compared. -/
def roiData (id : ℤ) : Option RoiData := do
  let streamType ← q.string (roiEntry id "stream_type") (some (lit "mainStream"))
  let stream := streamId streamType
  let smart ← q.string (streamKey stream "smart") (some (lit "close"))
  let r := fitRoi q stream (scaledRoi scale q stream id)
  if smart = lit "open" then none
  else if r.x < 0 ∨ r.y < 0 ∨ r.width < 0 ∨ r.height < 0 then none
  else some {
    streamType := streamType
    id := q.int (roiEntry id "id") (-1)
    enabled := q.int (roiEntry id "enabled") (-1)
    rect := r
    qualityLevel := q.int (roiEntry id "quality_level") (-1) }

/-- `MAX_ROI_NUM`. -/
def maxRoiNum : ℕ := 6

/-- The entries there are. -/
def roiSlots : List ℤ := (List.range maxRoiNum).map Int.ofNat

/-- **`rk_roi_set_all`**: what `rk_roi_set_` is called with. -/
def rkRoiSetAll : List RoiData := roiSlots.filterMap (roiData scale q)

end SetAll

/-! ## The regions of the encoder -/

/-- What `RK_MPI_VENC_SetRoiAttr` is called with. -/
structure RoiAttr where
  channel : ℤ
  index : ℤ
  enable : ℤ
  qp : ℤ
  rect : Rect
deriving DecidableEq, Repr

/-- `s32Qp`. -/
def roiQp (qualityLevel : ℤ) : ℤ :=
  if qualityLevel = 6 then -16
  else if qualityLevel = 5 then -14
  else if qualityLevel = 4 then -12
  else if qualityLevel = 3 then -10
  else if qualityLevel = 2 then -8
  else -6

/-- `venc_chn_num`, if the stream is enabled. -/
def roiChannel (q : Params) (streamType : Str) : Option ℤ :=
  if streamType = lit "mainStream" ∧ q.int (lit "video.source:enable_venc_0") 0 ≠ 0 then some 0
  else if streamType = lit "subStream" ∧ q.int (lit "video.source:enable_venc_1") 0 ≠ 0 then some 1
  else if streamType = lit "thirdStream" ∧ q.int (lit "video.source:enable_venc_2") 0 ≠ 0 then
    some 2
  else none

/-- The rectangle for a rotation of a picture. -/
def rotateRoi (rotation width height : ℤ) (r : Rect) : Rect :=
  if rotation = 90 then ⟨storedInt (height - r.y - r.height), r.x, r.height, r.width⟩
  else if rotation = 270 then ⟨r.y, storedInt (width - r.x - r.width), r.height, r.width⟩
  else if rotation = 180 then
    ⟨storedInt (width - r.x - r.width), storedInt (height - r.y - r.height), r.width, r.height⟩
  else r

/-- **`rk_roi_set`**: what the encoder is given, if there is a stream. -/
def rkRoiSet (q : Params) (d : RoiData) : Option RoiAttr :=
  (roiChannel q d.streamType).map fun channel =>
    let r : Rect := ⟨d.rect.x, d.rect.y, unsigned d.rect.width, unsigned d.rect.height⟩
    { channel := channel
      index := d.id
      enable := d.enabled
      qp := roiQp d.qualityLevel
      rect :=
        if r.height ≠ 0 ∧ r.width ≠ 0 ∧ d.enabled ≠ 0 then
          rotateRoi (rotation q) (q.int (streamKey channel "width") 0)
            (q.int (streamKey channel "height") 0) r
        else r }

/-! ## What is wanted -/

/-- **Where a rectangle of the encoder is seen** when it turns a picture of the given size. -/
def displayed (clockwise : Bool) (rotation width height : ℤ) (r : Rect) : Rect :=
  if rotation = 180 then r.turnOver width height
  else if rotation = 90 then if clockwise then r.turnRight height else r.turnLeft width
  else if rotation = 270 then if clockwise then r.turnLeft width else r.turnRight height
  else r

/-- **The regions are seen where they were placed**: what the encoder is given of a region that is
enabled and not empty lies in its picture, and is seen where the region was placed. A quarter turn
there and back leaves a region as it is. -/
structure RoisShown (clockwise : Bool) (scale : ℤ → ℤ → ℤ → ℤ) (q : Params) : Prop where
  shown : ∀ d ∈ rkRoiSetAll scale q, d.enabled ≠ 0 → d.rect.width ≠ 0 → d.rect.height ≠ 0 →
    ∀ a, rkRoiSet q d = some a →
      a.rect.Inside (q.int (streamKey a.channel "width") 0)
        (q.int (streamKey a.channel "height") 0) ∧
      displayed clockwise (rotation q) (q.int (streamKey a.channel "width") 0)
        (q.int (streamKey a.channel "height") 0) a.rect = d.rect
  inverse : ∀ (width height : ℤ) (r : Rect), InRange r.x → InRange r.y →
    rotateRoi 270 height width (rotateRoi 90 width height r) = r ∧
      rotateRoi 90 height width (rotateRoi 270 width height r) = r

/-- The size that fits. -/
def fittedSize (limit x size : ℤ) : ℤ :=
  if x + size < limit then size else (limit - 1) / 16 * 16 - x

/-- Along an axis, a region that is handed over and not empty. -/
def HandedOver (limit x size : ℤ) : Prop :=
  0 ≤ x ∧ (2 ^ 31 ≤ x + size ∨ 0 < fittedSize limit x size)

/-- An entry whose region is enabled, on a stream that takes it. -/
def RoiSelected (q : Params) (id stream : ℤ) : Prop :=
  ∃ streamType smart, q.string (roiEntry id "stream_type") (some (lit "mainStream")) =
      some streamType ∧
    roiChannel q streamType = some stream ∧
    q.string (streamKey stream "smart") (some (lit "close")) = some smart ∧
    smart ≠ lit "open" ∧ q.int (roiEntry id "enabled") (-1) ≠ 0

/-- **A region that is in the same place once the picture is turned**: it is in the middle if a
quarter turn is taken the wrong way, and on a square picture if it is taken with the wrong size. -/
def TurnsBack (clockwise : Bool) (rotation width height : ℤ) (r : Rect) : Prop :=
  (rotation = 90 → if clockwise then height = 2 * r.x + r.width ∧ height = 2 * r.y + r.height
    else width = height) ∧
  (rotation = 270 → if clockwise then width = 2 * r.x + r.width ∧ width = 2 * r.y + r.height
    else width = height)

/-- **The regions are placed so that they are turned back**, and no sum reaches `2 ^ 31`. -/
def RoisPlaced (clockwise : Bool) (scale : ℤ → ℤ → ℤ → ℤ) (q : Params) : Prop :=
  ∀ id ∈ roiSlots, ∀ stream, RoiSelected q id stream →
    let r := scaledRoi scale q stream id
    HandedOver (turnedSize q stream).1 r.x r.width →
    HandedOver (turnedSize q stream).2 r.y r.height →
    r.x + r.width < 2 ^ 31 ∧ r.y + r.height < 2 ^ 31 ∧
      TurnsBack clockwise (rotation q) (q.int (streamKey stream "width") 0)
        (q.int (streamKey stream "height") 0)
        ⟨r.x, r.y, fittedSize (turnedSize q stream).1 r.x r.width,
          fittedSize (turnedSize q stream).2 r.y r.height⟩

/-! ## Turning -/

theorem storedInt_cases {v : ℤ} (h : v < 2 ^ 31) (hlo : -2 ^ 32 ≤ v) :
    storedInt v = v ∧ -2 ^ 31 ≤ v ∨ storedInt v = v + 2 ^ 32 ∧ v < -2 ^ 31 := by
  unfold storedInt
  rw [Int.bmod_def]
  split <;> omega

/-- **A quarter turn there and back.** -/
theorem rotateRoi_rotateRoi (width height : ℤ) {r : Rect} (hx : InRange r.x) (hy : InRange r.y) :
    rotateRoi 270 height width (rotateRoi 90 width height r) = r ∧
      rotateRoi 90 height width (rotateRoi 270 width height r) = r := by
  have hback : ∀ size v w : ℤ, InRange v →
      storedInt (size - storedInt (size - v - w) - w) = v := by
    intro size v w hv
    have hsub : storedInt (size - storedInt (size - v - w) - w) = storedInt v := by
      unfold storedInt
      rw [sub_right_comm, Int.sub_bmod_bmod]
      congr 1
      ring
    rw [hsub, storedInt_of_inRange hv]
  constructor
  · ext <;> simp only [rotateRoi, if_true, Int.reduceEq, if_false]
    exact hback height r.y r.height hy
  · ext <;> simp only [rotateRoi, if_true, Int.reduceEq, if_false]
    exact hback width r.x r.width hx

/-- Where the encoder has a rectangle that is seen. -/
def pictured (clockwise : Bool) (rotation width height : ℤ) (r : Rect) : Rect :=
  if rotation = 180 then r.turnOver width height
  else if rotation = 90 then if clockwise then r.turnLeft height else r.turnRight width
  else if rotation = 270 then if clockwise then r.turnRight width else r.turnLeft height
  else r

/-- A rectangle is turned back by the inverse of the rotation. -/
theorem displayed_eq_iff {clockwise : Bool} {rotation width height : ℤ} {r r' : Rect} :
    displayed clockwise rotation width height r' = r ↔
      r' = pictured clockwise rotation width height r := by
  unfold displayed pictured
  split_ifs
  · exact ⟨fun h => h ▸ (Rect.turnOver_turnOver ..).symm, fun h => h ▸ Rect.turnOver_turnOver ..⟩
  · exact ⟨fun h => h ▸ (Rect.turnLeft_turnRight ..).symm, fun h => h ▸ Rect.turnRight_turnLeft ..⟩
  · exact ⟨fun h => h ▸ (Rect.turnRight_turnLeft ..).symm, fun h => h ▸ Rect.turnLeft_turnRight ..⟩
  · exact ⟨fun h => h ▸ (Rect.turnRight_turnLeft ..).symm, fun h => h ▸ Rect.turnLeft_turnRight ..⟩
  · exact ⟨fun h => h ▸ (Rect.turnLeft_turnRight ..).symm, fun h => h ▸ Rect.turnRight_turnLeft ..⟩
  · exact Iff.rfl

section Turn

variable {rot width height turnedWidth turnedHeight : ℤ} {r : Rect}

/-- **A region is seen where it was placed** if and only if no sum reaches `2 ^ 31` and it is
turned back. -/
theorem shown_rotateRoi_iff (clockwise : Bool)
    (hrot : rot = 0 ∨ rot = 90 ∨ rot = 180 ∨ rot = 270)
    (hsize : 0 < width ∧ 0 < height) (hwidth : InRange width) (hheight : InRange height)
    (hturned : (turnedWidth, turnedHeight) =
      if rot = 90 ∨ rot = 270 then (height, width) else (width, height))
    (hpos : 0 ≤ r.x ∧ 0 ≤ r.y ∧ 0 < r.width ∧ 0 < r.height)
    (hrange : InRange r.x ∧ InRange r.y ∧ InRange r.width ∧ InRange r.height)
    (hright : r.x + r.width < turnedWidth ∨ 2 ^ 31 ≤ r.x + r.width)
    (hbottom : r.y + r.height < turnedHeight ∨ 2 ^ 31 ≤ r.y + r.height) :
    (rotateRoi rot width height r).Inside width height ∧
        displayed clockwise rot width height (rotateRoi rot width height r) = r ↔
      r.x + r.width < 2 ^ 31 ∧ r.y + r.height < 2 ^ 31 ∧
        TurnsBack clockwise rot width height r := by
  obtain ⟨x, y, w, h⟩ := r
  dsimp only at hpos hrange hright hbottom ⊢
  unfold InRange at hwidth hheight hrange
  have hx := storedInt_cases (v := width - x - w) (by omega) (by omega)
  have hy := storedInt_cases (v := height - y - h) (by omega) (by omega)
  rw [displayed_eq_iff]
  rcases hrot with rfl | rfl | rfl | rfl <;> cases clockwise <;>
    simp only [Int.reduceEq, or_false, false_or, if_true, if_false, Prod.mk.injEq] at hturned <;>
    simp only [rotateRoi, pictured, TurnsBack, Rect.inside_iff, Rect.turnOver, Rect.turnRight,
      Rect.turnLeft, Rect.mk.injEq, Int.reduceEq, if_true, if_false, Bool.false_eq_true,
      forall_const, IsEmpty.forall_iff, true_and, and_true] <;>
    omega

end Turn

/-! ## Loops -/

section Axis

variable {limit x size : ℤ}

/-- **What the loop comes to**, which is handed over if it is not empty. -/
theorem shrink_fittedSize (hpos : 0 < limit) (hlimit : InRange limit) (hx : Aligned x)
    (hs : Aligned size) (hx0 : 0 ≤ x) :
    (x + size < 2 ^ 31 ∧ shrink x (limit - 1) size = fittedSize limit x size ∧
        x + shrink x (limit - 1) size < limit) ∨
      2 ^ 31 ≤ x + size ∧ shrink x (limit - 1) size = size := by
  have hlimit' : InRange (limit - 1) := ⟨by omega, by have := hlimit.2; omega⟩
  have hhi := hlimit.2
  unfold fittedSize
  rcases shrink_cases (show 0 ≤ limit - 1 by omega) hlimit' hx hs hx0 with ⟨h | h, heq⟩ | ⟨h, heq⟩
  · refine .inl ⟨by omega, ?_, by omega⟩
    rw [heq, if_pos (by omega)]
  · exact .inr ⟨h, heq⟩
  · refine .inl ⟨h.2, ?_, by omega⟩
    rw [heq, if_neg (by omega)]

theorem handedOver_iff (hpos : 0 < limit) (hlimit : InRange limit) (hx : Aligned x)
    (hs : Aligned size) : HandedOver limit x size ↔ 0 ≤ x ∧ 0 < shrink x (limit - 1) size := by
  refine and_congr_right fun hx0 => ?_
  have := hx.inRange.2
  rcases shrink_fittedSize hpos hlimit hx hs hx0 with ⟨h, heq, -⟩ | ⟨h, heq⟩
  · rw [heq]
    omega
  · rw [heq]
    omega

theorem inRange_shrink (hlimit : 0 < limit) (hs : InRange size) :
    InRange (shrink x (limit - 1) size) := by
  rw [shrink_eq (by omega) hs]
  exact inRange_storedInt _

end Axis

/-! ## One region -/

section Roi

variable {clockwise : Bool} {scale : ℤ → ℤ → ℤ → ℤ} {q : Params} {id stream : ℤ}

/-- A stream that is taken is the one whose sizes were used. -/
theorem streamId_of_roiChannel {streamType : Str} (h : roiChannel q streamType = some stream) :
    streamId streamType = stream := by
  unfold roiChannel at h
  split at h
  · next hmain =>
    rw [hmain.1]
    exact Option.some.inj h
  · split at h
    · next hsub =>
      rw [hsub.1]
      exact Option.some.inj h
    · split at h
      · next hthird =>
        rw [hthird.1]
        exact Option.some.inj h
      · cases h

/-- The places and sizes are aligned. -/
theorem aligned_scaledRoi : Aligned (scaledRoi scale q stream id).x ∧
    Aligned (scaledRoi scale q stream id).y ∧ Aligned (scaledRoi scale q stream id).width ∧
      Aligned (scaledRoi scale q stream id).height :=
  ⟨aligned_storedInt _, aligned_storedInt _, aligned_storedInt _, aligned_storedInt _⟩

/-- **What is handed over of an entry.** -/
theorem roiData_eq_some_iff {d : RoiData} : roiData scale q id = some d ↔
    ∃ streamType smart, q.string (roiEntry id "stream_type") (some (lit "mainStream")) =
        some streamType ∧
      q.string (streamKey (streamId streamType) "smart") (some (lit "close")) = some smart ∧
      smart ≠ lit "open" ∧
      d = ⟨streamType, q.int (roiEntry id "id") (-1), q.int (roiEntry id "enabled") (-1),
        fitRoi q (streamId streamType) (scaledRoi scale q (streamId streamType) id),
        q.int (roiEntry id "quality_level") (-1)⟩ ∧
      0 ≤ d.rect.x ∧ 0 ≤ d.rect.y ∧ 0 ≤ d.rect.width ∧ 0 ≤ d.rect.height := by
  simp only [roiData, Option.bind_eq_bind, Option.bind_eq_some_iff]
  constructor
  · rintro ⟨streamType, hstream, smart, hsmart, h⟩
    split at h
    · cases h
    · next hopen =>
      split at h
      · cases h
      · next hneg =>
        obtain rfl := Option.some.inj h
        refine ⟨streamType, smart, hstream, hsmart, hopen, rfl, ?_⟩
        simpa only [not_or, not_lt] using hneg
  · rintro ⟨streamType, smart, hstream, hsmart, hopen, rfl, hpos⟩
    refine ⟨streamType, hstream, smart, hsmart, ?_⟩
    rw [if_neg hopen, if_neg (by simpa only [not_or, not_lt] using hpos)]

/-- **What the encoder is given of a region that is enabled and not empty.** -/
theorem rkRoiSet_eq_some_iff {d : RoiData} {a : RoiAttr} (henabled : d.enabled ≠ 0)
    (hwidth : 0 < d.rect.width) (hheight : 0 < d.rect.height) (hrange : InRange d.rect.width)
    (hrange' : InRange d.rect.height) : rkRoiSet q d = some a ↔
      roiChannel q d.streamType = some a.channel ∧ a.index = d.id ∧ a.enable = d.enabled ∧
        a.qp = roiQp d.qualityLevel ∧
        a.rect = rotateRoi (rotation q) (q.int (streamKey a.channel "width") 0)
          (q.int (streamKey a.channel "height") 0) d.rect := by
  have hw : unsigned d.rect.width = d.rect.width := by
    unfold unsigned InRange at *
    omega
  have hh : unsigned d.rect.height = d.rect.height := by
    unfold unsigned InRange at *
    omega
  have hif : d.rect.height ≠ 0 ∧ d.rect.width ≠ 0 ∧ d.enabled ≠ 0 :=
    ⟨hheight.ne', hwidth.ne', henabled⟩
  obtain ⟨channel, index, enable, qp, rect⟩ := a
  simp only [rkRoiSet, hw, hh, if_pos hif, Option.map_eq_some_iff, RoiAttr.mk.injEq]
  constructor
  · rintro ⟨_, hchannel, rfl, rfl, rfl, rfl, rfl⟩
    exact ⟨hchannel, rfl, rfl, rfl, rfl⟩
  · rintro ⟨hchannel, rfl, rfl, rfl, rfl⟩
    exact ⟨channel, hchannel, rfl, rfl, rfl, rfl, rfl⟩

end Roi

/-! ## All regions -/

/-- The streams have sizes, and the encoder turns the picture by quarters. -/
structure RoiProper (q : Params) : Prop where
  width : ∀ stream ∈ [(0 : ℤ), 1, 2], 0 < q.int (streamKey stream "width") (-1)
  height : ∀ stream ∈ [(0 : ℤ), 1, 2], 0 < q.int (streamKey stream "height") (-1)
  rotation : rotation q ∈ [0, 90, 180, 270]

section All

variable {clockwise : Bool} {scale : ℤ → ℤ → ℤ → ℤ} {p : Store} {id stream : ℤ}

/-- The sizes of a stream do not depend on the defaults. -/
theorem turnedSize_eq (hp : RoiProper (params p)) (hstream : stream ∈ [(0 : ℤ), 1, 2]) :
    turnedSize (params p) stream =
      (if rotation (params p) = 90 ∨ rotation (params p) = 270 then
        ((params p).int (streamKey stream "height") 0, (params p).int (streamKey stream "width") 0)
      else ((params p).int (streamKey stream "width") 0,
        (params p).int (streamKey stream "height") 0)) ∧
    0 < (params p).int (streamKey stream "width") 0 ∧
      0 < (params p).int (streamKey stream "height") 0 := by
  have hw := hp.width stream hstream
  have hh := hp.height stream hstream
  have hwne : (params p).int (streamKey stream "width") (-1) ≠ -1 := by omega
  have hhne : (params p).int (streamKey stream "height") (-1) ≠ -1 := by omega
  rw [turnedSize, int_eq_of_ne hwne 0, int_eq_of_ne hhne 0]
  exact ⟨rfl, hw, hh⟩

/-- There are three streams. -/
theorem mem_of_roiChannel {q : Params} {streamType : Str}
    (h : roiChannel q streamType = some stream) : stream ∈ [(0 : ℤ), 1, 2] := by
  rw [← streamId_of_roiChannel h]
  unfold streamId
  split
  · simp
  · split <;> simp

/-- The sizes of a stream once it is turned. -/
theorem turnedSize_pos (hp : RoiProper (params p)) (hstream : stream ∈ [(0 : ℤ), 1, 2]) :
    (0 < (turnedSize (params p) stream).1 ∧ InRange (turnedSize (params p) stream).1) ∧
      0 < (turnedSize (params p) stream).2 ∧ InRange (turnedSize (params p) stream).2 := by
  obtain ⟨hsize, hwidth, hheight⟩ := turnedSize_eq hp hstream
  have hrange : ∀ name, InRange ((params p).int (streamKey stream name) 0) := fun name =>
    inRange_int p _ (by decide)
  rw [hsize]
  split
  · exact ⟨⟨hheight, hrange _⟩, hwidth, hrange _⟩
  · exact ⟨⟨hwidth, hrange _⟩, hheight, hrange _⟩

theorem inRange_fitRoi {s : ℤ → ℤ → ℤ → ℤ} {i : ℤ} (hp : RoiProper (params p))
    (hstream : stream ∈ [(0 : ℤ), 1, 2]) :
    InRange (fitRoi (params p) stream (scaledRoi s (params p) stream i)).width ∧
      InRange (fitRoi (params p) stream (scaledRoi s (params p) stream i)).height := by
  obtain ⟨⟨htw, -⟩, hth, -⟩ := turnedSize_pos hp hstream
  exact ⟨inRange_shrink htw (inRange_storedInt _), inRange_shrink hth (inRange_storedInt _)⟩

/-- **One region.** -/
theorem shown_fitRoi_iff (hp : RoiProper (params p)) (hstream : stream ∈ [(0 : ℤ), 1, 2]) :
    let r := scaledRoi scale (params p) stream id
    let width := (params p).int (streamKey stream "width") 0
    let height := (params p).int (streamKey stream "height") 0
    (0 ≤ r.x ∧ 0 < (fitRoi (params p) stream r).width) ∧
        (0 ≤ r.y ∧ 0 < (fitRoi (params p) stream r).height) →
      ((rotateRoi (rotation (params p)) width height (fitRoi (params p) stream r)).Inside width
          height ∧
        displayed clockwise (rotation (params p)) width height
          (rotateRoi (rotation (params p)) width height (fitRoi (params p) stream r)) =
            fitRoi (params p) stream r ↔
        r.x + r.width < 2 ^ 31 ∧ r.y + r.height < 2 ^ 31 ∧
          TurnsBack clockwise (rotation (params p)) width height
            ⟨r.x, r.y, fittedSize (turnedSize (params p) stream).1 r.x r.width,
              fittedSize (turnedSize (params p) stream).2 r.y r.height⟩) := by
  intro r width height
  rintro ⟨⟨hx, hw⟩, hy, hh⟩
  obtain ⟨hsize, hwidth, hheight⟩ := turnedSize_eq hp hstream
  obtain ⟨hax, hay, haw, hah⟩ : Aligned r.x ∧ Aligned r.y ∧ Aligned r.width ∧ Aligned r.height :=
    aligned_scaledRoi
  have hrange : InRange width ∧ InRange height := ⟨inRange_int p _ (by decide),
    inRange_int p _ (by decide)⟩
  obtain ⟨⟨htw, htwr⟩, hth, hthr⟩ := turnedSize_pos hp hstream
  have hX := shrink_fittedSize htw htwr hax haw hx
  have hY := shrink_fittedSize hth hthr hay hah hy
  have hrot : rotation (params p) = 0 ∨ rotation (params p) = 90 ∨ rotation (params p) = 180 ∨
      rotation (params p) = 270 := by
    simpa using hp.rotation
  have hright := hX.imp (fun h => h.2.2) fun h => h.1.trans_eq (congrArg (r.x + ·) h.2.symm)
  have hbottom := hY.imp (fun h => h.2.2) fun h => h.1.trans_eq (congrArg (r.y + ·) h.2.symm)
  have hfit : fitRoi (params p) stream r = ⟨r.x, r.y,
      shrink r.x ((turnedSize (params p) stream).1 - 1) r.width,
      shrink r.y ((turnedSize (params p) stream).2 - 1) r.height⟩ := rfl
  have hshown := shown_rotateRoi_iff (r := fitRoi (params p) stream r) clockwise hrot
    ⟨hwidth, hheight⟩ hrange.1 hrange.2 hsize ⟨hx, hy, hw, hh⟩ ⟨hax.inRange, hay.inRange,
      inRange_shrink htw haw.inRange, inRange_shrink hth hah.inRange⟩ hright hbottom
  rw [hfit] at hshown ⊢
  rw [hshown]
  have htwhi := htwr.2
  have hthhi := hthr.2
  -- a sum that wraps around is left as it is
  rcases hX with ⟨hxs, hxeq, hxlt⟩ | ⟨hxs, hxeq⟩
  · rcases hY with ⟨hys, hyeq, hylt⟩ | ⟨hys, hyeq⟩
    · rw [hxeq, hyeq] at *
      exact and_congr (iff_of_true (by dsimp only; omega) hxs)
        (and_congr_left' (iff_of_true (by dsimp only; omega) hys))
    · rw [hyeq]
      exact iff_of_false (fun h => by have := h.2.1; dsimp only at this; omega)
        fun h => by have := h.2.1; omega
  · rw [hxeq]
    exact iff_of_false (fun h => by have := h.1; dsimp only at this; omega)
      fun h => by have := h.1; omega

/-- **Which regions are handed over.** -/
theorem handedOver_fitRoi_iff (hp : RoiProper (params p)) (hstream : stream ∈ [(0 : ℤ), 1, 2]) :
    let r := scaledRoi scale (params p) stream id
    HandedOver (turnedSize (params p) stream).1 r.x r.width ∧
        HandedOver (turnedSize (params p) stream).2 r.y r.height ↔
      (0 ≤ r.x ∧ 0 < (fitRoi (params p) stream r).width) ∧
        (0 ≤ r.y ∧ 0 < (fitRoi (params p) stream r).height) := by
  intro r
  obtain ⟨hax, hay, haw, hah⟩ : Aligned r.x ∧ Aligned r.y ∧ Aligned r.width ∧ Aligned r.height :=
    aligned_scaledRoi
  obtain ⟨⟨htw, htwr⟩, hth, hthr⟩ := turnedSize_pos hp hstream
  exact and_congr (handedOver_iff htw htwr hax haw) (handedOver_iff hth hthr hay hah)

/-- **The regions are seen where they were placed** if and only if they are placed so that they are
turned back. -/
theorem roisShown_iff (hp : RoiProper (params p)) :
    RoisShown clockwise scale (params p) ↔ RoisPlaced clockwise scale (params p) := by
  constructor
  · rintro ⟨hshown, -⟩ id hid stream ⟨streamType, smart, htype, hchannel, hsmart, hopen, henabled⟩
    intro r hx hy
    have hstream := mem_of_roiChannel hchannel
    obtain rfl := streamId_of_roiChannel hchannel
    have hpos := (handedOver_fitRoi_iff hp hstream).mp ⟨hx, hy⟩
    obtain ⟨hwr, hhr⟩ := inRange_fitRoi (s := scale) (i := id) hp hstream
    let d : RoiData := ⟨streamType, (params p).int (roiEntry id "id") (-1),
      (params p).int (roiEntry id "enabled") (-1),
      fitRoi (params p) (streamId streamType) (scaledRoi scale (params p) (streamId streamType) id),
      (params p).int (roiEntry id "quality_level") (-1)⟩
    have hdata : roiData scale (params p) id = some d := roiData_eq_some_iff.mpr
      ⟨streamType, smart, htype, hsmart, hopen, rfl, hpos.1.1, hpos.2.1, hpos.1.2.le, hpos.2.2.le⟩
    have hset : rkRoiSet (params p) d = some ⟨streamId streamType, d.id, d.enabled,
        roiQp d.qualityLevel, rotateRoi (rotation (params p))
          ((params p).int (streamKey (streamId streamType) "width") 0)
          ((params p).int (streamKey (streamId streamType) "height") 0) d.rect⟩ :=
      (rkRoiSet_eq_some_iff henabled hpos.1.2 hpos.2.2 hwr hhr).mpr ⟨hchannel, rfl, rfl, rfl, rfl⟩
    have h := hshown d (List.mem_filterMap.mpr ⟨id, hid, hdata⟩) henabled hpos.1.2.ne' hpos.2.2.ne'
      _ hset
    exact (shown_fitRoi_iff hp hstream hpos).mp h
  · intro hplaced
    refine ⟨?_, fun width height r hx hy => rotateRoi_rotateRoi width height hx hy⟩
    intro d hd henabled hwidth hheight a ha
    obtain ⟨id, hid, hdata⟩ := List.mem_filterMap.mp hd
    obtain ⟨streamType, smart, htype, hsmart, hopen, rfl, hx, hy, hw, hh⟩ :=
      roiData_eq_some_iff.mp hdata
    have hw := lt_of_le_of_ne hw (Ne.symm hwidth)
    have hh := lt_of_le_of_ne hh (Ne.symm hheight)
    -- the stream that takes it is one of the three
    obtain ⟨stream, hchannel⟩ : ∃ stream, roiChannel (params p) streamType = some stream := by
      obtain ⟨channel, hchannel, -⟩ := Option.map_eq_some_iff.mp ha
      exact ⟨channel, hchannel⟩
    have hstream := mem_of_roiChannel hchannel
    obtain rfl := streamId_of_roiChannel hchannel
    obtain ⟨hwr, hhr⟩ := inRange_fitRoi (s := scale) (i := id) hp hstream
    obtain ⟨hchannel', -, -, -, hrect⟩ :=
      (rkRoiSet_eq_some_iff henabled hw hh hwr hhr).mp ha
    obtain ⟨hx', hy'⟩ := (handedOver_fitRoi_iff hp hstream).mpr ⟨⟨hx, hw⟩, hy, hh⟩
    have h := hplaced id hid _ ⟨streamType, smart, htype, hchannel, hsmart, hopen, henabled⟩ hx' hy'
    have hsame : a.channel = streamId streamType :=
      Option.some.inj (hchannel'.symm.trans hchannel)
    rw [hrect, hsame]
    exact (shown_fitRoi_iff hp hstream ⟨⟨hx, hw⟩, hy, hh⟩).mpr h

end All

/-- The rate of a display of a normalized size, without rounding. -/
def exactRate (size normalized value : ℤ) : ℤ := (value * size).tdiv normalized

/-- A region in the lower part of a picture that is turned. -/
def turnedRoi : Store where
  file := none
  iniD := .live <| [("video.source:rotation", "90"), ("video.source:enable_venc_0", "1"),
    ("video.0:width", "1920"), ("video.0:height", "1080"), ("video.1:width", "704"),
    ("video.1:height", "576"), ("video.2:width", "704"), ("video.2:height", "576"),
    ("osd.common:normalized_screen_width", "1080"),
    ("osd.common:normalized_screen_height", "1920"), ("roi.0:enabled", "1"),
    ("roi.0:position_x", "64"), ("roi.0:position_y", "1200"), ("roi.0:width", "128"),
    ("roi.0:height", "128")].foldl
      (fun d entry => dictionarySet d (lit entry.1) (some (lit entry.2))) dictionaryNew

theorem roiProper_turnedRoi : RoiProper (params turnedRoi) where
  width := by decide +kernel
  height := by decide +kernel
  rotation := by decide +kernel

theorem roisShown_turnedRoi_iff : RoisShown true exactRate (params turnedRoi) ↔
    RoisPlaced true exactRate (params turnedRoi) :=
  roisShown_iff roiProper_turnedRoi

/-- **A region on a picture that is turned escapes**, whichever way it is turned: the encoder is
given an origin left of the picture. -/
theorem turned_roi_escapes : RoiProper (params turnedRoi) ∧
    (∃ d ∈ rkRoiSetAll exactRate (params turnedRoi), d.enabled = 1 ∧
      d.rect = ⟨64, 1200, 128, 128⟩ ∧
      rkRoiSet (params turnedRoi) d = some ⟨0, -1, 1, -6, ⟨-248, 64, 128, 128⟩⟩) ∧
    ∀ clockwise, ¬ RoisShown clockwise exactRate (params turnedRoi) := by
  have hgiven : ∃ d ∈ rkRoiSetAll exactRate (params turnedRoi), d.enabled = 1 ∧
      d.rect = ⟨64, 1200, 128, 128⟩ ∧
      rkRoiSet (params turnedRoi) d = some ⟨0, -1, 1, -6, ⟨-248, 64, 128, 128⟩⟩ := by
    decide +kernel
  refine ⟨roiProper_turnedRoi, hgiven, ?_⟩
  rintro clockwise ⟨hshown, -⟩
  obtain ⟨d, hd, henabled, hrect, hset⟩ := hgiven
  have h := hshown d hd (by rw [henabled]; decide) (by rw [hrect]; decide) (by rw [hrect]; decide)
    _ hset
  exact absurd h.1.left (by decide)

end RkIpc.Video
