import RkIpc.Geometry.Rect
import RkIpc.Osd.Osd

/-!
# Rectangles in the frame

What is created is given a rectangle, which should be part of the video. The size of a mask and the
position of a text are lowered until they fit, and a rectangle with a negative number is dropped. An
empty one is not, nor is one whose sums wrap around, and an image or the time is shown wherever the
parameters say.

## Main definitions

* `Event.InFrame`, `FramesRegions`: rectangles in the frame
* `MaskFits`, `TextFits`, `PictureFits`: the entries that are shown in the frame, or dropped
* `RegionsFit`: all entries and the time

## Main results

* `shrink_cases`: the loops
* `initEntry_inFrame_iff`: one entry
* `framesRegions_iff`: the display
* `empty_mask_shown`: a mask at the border
-/

namespace RkIpc.Osd

open Text Param Imperative Geometry Transition Wire

/-! ## Loops -/

/-- A multiple of 16 that an `int` holds. -/
structure Aligned (v : ℤ) : Prop where
  inRange : InRange v
  dvd : v % 16 = 0

theorem aligned_storedInt (v : ℤ) : Aligned (storedInt (upAlignTo16 v)) := by
  refine ⟨inRange_storedInt _, ?_⟩
  unfold storedInt upAlignTo16
  rw [Int.bmod_def]
  split <;> omega

section Axis

variable {x limit size : ℤ}

/-- **What the loop comes to.** A sum that fits is left alone, and so is one that wraps around;
another one is lowered to the last multiple of 16 that fits. -/
theorem shrink_cases (hlimit0 : 0 ≤ limit) (hlimit : InRange limit) (hx : Aligned x)
    (hs : Aligned size) (hx0 : 0 ≤ x) :
    (x + size ≤ limit ∨ 2 ^ 31 ≤ x + size) ∧ shrink x limit size = size ∨
      (limit < x + size ∧ x + size < 2 ^ 31) ∧ shrink x limit size = limit / 16 * 16 - x := by
  obtain ⟨⟨hxlo, hxhi⟩, hx16⟩ := hx
  obtain ⟨⟨hslo, hshi⟩, hs16⟩ := hs
  obtain ⟨-, hlimithi⟩ := hlimit
  rw [shrink_eq hlimit0 ⟨hslo, hshi⟩]
  rcases lt_or_ge (x + size) (2 ^ 31) with hsum | hsum
  · rw [storedInt_of_inRange (v := x + size) ⟨by omega, hsum⟩]
    rcases le_or_gt (x + size) limit with hle | hlt
    · refine .inl ⟨.inl hle, ?_⟩
      rw [lowered_of_le hle, add_sub_cancel_left, storedInt_of_inRange ⟨hslo, hshi⟩]
    · refine .inr ⟨⟨hlt, hsum⟩, ?_⟩
      have hmod : (limit - (x + size)) % 16 = limit % 16 := by omega
      rw [lowered_of_lt hlt, hmod, storedInt_of_inRange ⟨by omega, by omega⟩]
      omega
  · refine .inl ⟨.inr hsum, ?_⟩
    have hwrap : storedInt (x + size) = x + size - 2 ^ 32 := by
      unfold storedInt
      rw [Int.bmod_def]
      split <;> omega
    rw [lowered_of_le (by omega), storedInt_add_sub ⟨hslo, hshi⟩]

/-- Along an axis, a place and a size that are neither negative, nor become so. -/
def KeptSize (limit x size : ℤ) : Prop := 0 ≤ x ∧ 0 ≤ size ∧ (x ≤ limit ∨ 2 ^ 31 ≤ x + size)

/-- Along an axis, a place with room behind it, and a size that is not empty. -/
def RoomFor (limit x size : ℤ) : Prop := 0 ≤ x ∧ 0 < size ∧ x + 16 ≤ limit ∧ x + size < 2 ^ 31

/-- Along an axis, a place and a size that are neither negative, nor become so if the place is
lowered. -/
def KeptPlace (limit x size : ℤ) : Prop := 0 ≤ x ∧ 0 ≤ size ∧ (size ≤ limit ∨ 2 ^ 31 ≤ x + size)

/-- Along an axis, a place that can be lowered for a size that is not empty. -/
def PlaceFor (limit x size : ℤ) : Prop := 0 ≤ x ∧ 0 < size ∧ size ≤ limit ∧ x + size < 2 ^ 31

theorem keptSize_iff (hpos : 0 < limit) (hlimit : InRange limit) (hx : Aligned x)
    (hs : Aligned size) : 0 ≤ x ∧ 0 ≤ shrink x limit size ↔ KeptSize limit x size := by
  refine and_congr_right fun hx0 => ?_
  have := hx.dvd
  have := hs.dvd
  rcases shrink_cases hpos.le hlimit hx hs hx0 with ⟨h, heq⟩ | ⟨h, heq⟩ <;> rw [heq] <;> omega

theorem roomFor_iff (hpos : 0 < limit) (hlimit : InRange limit) (hx : Aligned x)
    (hs : Aligned size) :
    0 ≤ x ∧ 0 < shrink x limit size ∧ x + shrink x limit size ≤ limit ↔ RoomFor limit x size := by
  refine and_congr_right fun hx0 => ?_
  have := hx.dvd
  have := hs.dvd
  have := hlimit.2
  rcases shrink_cases hpos.le hlimit hx hs hx0 with ⟨h, heq⟩ | ⟨h, heq⟩ <;> rw [heq] <;> omega

theorem keptPlace_iff (hpos : 0 < limit) (hlimit : InRange limit) (hx : Aligned x)
    (hs : Aligned size) : 0 ≤ shrink size limit x ∧ 0 ≤ size ↔ KeptPlace limit x size := by
  unfold KeptPlace
  rw [and_comm, and_left_comm]
  refine and_congr_right fun hs0 => ?_
  have := hx.dvd
  have := hs.dvd
  rcases shrink_cases hpos.le hlimit hs hx hs0 with ⟨h, heq⟩ | ⟨h, heq⟩ <;> rw [heq] <;> omega

theorem placeFor_iff (hpos : 0 < limit) (hlimit : InRange limit) (hx : Aligned x)
    (hs : Aligned size) :
    0 ≤ shrink size limit x ∧ 0 < size ∧ shrink size limit x + size ≤ limit ↔
      PlaceFor limit x size := by
  unfold PlaceFor
  rw [and_left_comm, and_left_comm (a := 0 ≤ x)]
  refine and_congr_right fun hs0 => ?_
  have := hx.dvd
  have := hs.dvd
  have := hlimit.2
  rcases shrink_cases hpos.le hlimit hs hx hs0.le with ⟨h, heq⟩ | ⟨h, heq⟩ <;> rw [heq] <;> omega

end Axis

/-! ## Entries -/

/-- The rectangle of a region. -/
def OsdData.rect (data : OsdData) : Rect := ⟨data.originX, data.originY, data.width, data.height⟩

/-- **A rectangle in the frame**, that is not empty. -/
def Screen.Frames (s : Screen) (r : Rect) : Prop :=
  r.Solid ∧ r.Inside s.videoWidth s.videoHeight

/-- The video has a size. -/
structure Screen.Proper (s : Screen) : Prop where
  width : 0 < s.videoWidth
  height : 0 < s.videoHeight
  widthInRange : InRange s.videoWidth
  heightInRange : InRange s.videoHeight

section Entries

variable (e : Env) (q : Params) (s : Screen) (id : ℤ)

/-- **A mask that is not dropped** has room, and a size that is not empty. -/
def MaskFits : Prop :=
  KeptSize s.videoWidth (scaledX e q s id "position_x") (scaledX e q s id "width") →
  KeptSize s.videoHeight (scaledY e q s id "position_y") (scaledY e q s id "height") →
  RoomFor s.videoWidth (scaledX e q s id "position_x") (scaledX e q s id "width") ∧
    RoomFor s.videoHeight (scaledY e q s id "position_y") (scaledY e q s id "height")

/-- **A text that is not dropped** has a place, and a size that is not empty. -/
def TextFits (width height : ℤ) : Prop :=
  KeptPlace s.videoWidth (scaledX e q s id "position_x") width →
  KeptPlace s.videoHeight (scaledY e q s id "position_y") height →
  PlaceFor s.videoWidth (scaledX e q s id "position_x") width ∧
    PlaceFor s.videoHeight (scaledY e q s id "position_y") height

/-- **A picture** is in the frame where the parameters say. -/
def PictureFits (width height : ℤ) : Prop :=
  s.Frames ⟨scaledX e q s id "position_x", scaledY e q s id "position_y", width, height⟩

/-- The width of a text in the font. -/
def textWidth (wch : List UInt32) : ℤ := storedInt (upAlignTo16 (e.wstrGetActualAdvanceX wch))

/-- The height of every text. -/
def textHeight : ℤ := storedInt (upAlignTo16 (q.int (lit "osd.common:font_size") (-1)))

/-- The size of an image file, or what is left in `osd_data` if it is not loaded. -/
def imageSize (data : OsdData) : ℤ × ℤ :=
  (e.loadBmpFormFile (q.string (osdEntry id "image_path") none)).getD (data.width, data.height)

/-- **An entry that is shown in the frame, or not at all.** -/
def EntryFits (data : OsdData) : Prop :=
  ∀ type, osdType q id = some type → q.int (osdEntry id "enabled") 0 ≠ 0 →
    if type = lit "image" then
      PictureFits e q s id (imageSize e q id data).1 (imageSize e q id data).2
    else if type = lit "privacyMask" then
      styleKind q id e.coverCreate e.mosaicCreate ≠ none → MaskFits e q s id
    else isText type → ∀ wch,
      e.iconvUtf8ToWchar (q.string (osdEntry id "display_text") none) = some wch →
        TextFits e q s id (textWidth e wch) (textHeight q)

/-- Every entry is, with what the entries before it leave in `osd_data`. -/
def EntriesFit : List ℤ → OsdData → Prop
  | [], _ => True
  | id :: ids, data => EntryFits e q s id data ∧ EntriesFit ids (initEntry e q s id data).1

end Entries

section EntryFrames

variable {e : Env} {q : Params} {s : Screen} {id : ℤ} {data : OsdData}

theorem negative_eq_false_iff : data.negative = false ↔
    (0 ≤ data.originX ∧ 0 ≤ data.width) ∧ 0 ≤ data.originY ∧ 0 ≤ data.height := by
  simp only [OsdData.negative, Bool.or_eq_false_iff, decide_eq_false_iff_not, not_lt]
  tauto

theorem frames_iff {r : Rect} : s.Frames r ↔
    (0 ≤ r.x ∧ 0 < r.width ∧ r.x + r.width ≤ s.videoWidth) ∧
      0 ≤ r.y ∧ 0 < r.height ∧ r.y + r.height ≤ s.videoHeight := by
  rw [Screen.Frames, Rect.solid_iff, Rect.inside_iff]
  tauto

/-- A rectangle that is dropped if a number in it is negative. -/
theorem kept_frames_iff (kind : Option Shown) (hkind : kind = none ∨ ∃ k, kind = some (.region k)) :
    (∀ k, (if data.negative then none else kind) = some (.region k) → s.Frames data.rect) ↔
      (kind ≠ none → data.negative = false → s.Frames data.rect) := by
  rcases hkind with rfl | ⟨k, rfl⟩
  · simp
  · cases data.negative <;> simp

/-- The position of an entry has been read. -/
structure Placed (e : Env) (q : Params) (s : Screen) (id : ℤ) (data : OsdData) : Prop where
  originX : data.originX = scaledX e q s id "position_x"
  originY : data.originY = scaledY e q s id "position_y"

/-- **A mask** that is shown is in the frame. -/
theorem maskRect_frames_iff (hs : s.Proper) (hdata : Placed e q s id data) :
    ((maskRect e q s id data).negative = false → s.Frames (maskRect e q s id data).rect) ↔
      MaskFits e q s id := by
  rw [negative_eq_false_iff, frames_iff, and_imp, MaskFits]
  simp only [maskRect, OsdData.rect, hdata.originX, hdata.originY]
  have hX : ∀ name, Aligned (scaledX e q s id name) := fun name => aligned_storedInt _
  have hY : ∀ name, Aligned (scaledY e q s id name) := fun name => aligned_storedInt _
  rw [keptSize_iff hs.width hs.widthInRange (hX "position_x") (hX "width"),
    keptSize_iff hs.height hs.heightInRange (hY "position_y") (hY "height"),
    roomFor_iff hs.width hs.widthInRange (hX "position_x") (hX "width"),
    roomFor_iff hs.height hs.heightInRange (hY "position_y") (hY "height")]

/-- **A text** that is shown is in the frame. -/
theorem textRect_frames_iff (hs : s.Proper) (hdata : Placed e q s id data) {width : ℤ}
    (hw : Aligned width) :
    ((textRect s width data).negative = false → s.Frames (textRect s width data).rect) ↔
      TextFits e q s id width (storedInt (upAlignTo16 data.fontSize)) := by
  rw [negative_eq_false_iff, frames_iff, and_imp, TextFits]
  simp only [textRect, OsdData.rect, hdata.originX, hdata.originY]
  have hX : Aligned (scaledX e q s id "position_x") := aligned_storedInt _
  have hY : Aligned (scaledY e q s id "position_y") := aligned_storedInt _
  have hh := aligned_storedInt data.fontSize
  rw [keptPlace_iff hs.width hs.widthInRange hX hw,
    keptPlace_iff hs.height hs.heightInRange hY hh,
    placeFor_iff hs.width hs.widthInRange hX hw,
    placeFor_iff hs.height hs.heightInRange hY hh]

theorem maskEntry_eq : maskEntry e q s id data =
    (maskRect e q s id data, if (maskRect e q s id data).negative then none else
      (styleKind q id e.coverCreate e.mosaicCreate).map .region) := by
  unfold maskEntry
  dsimp only
  split <;> rfl

/-- **One entry of `rk_osd_init`** is shown in the frame if and only if it fits. -/
theorem initEntry_frames_iff (hs : s.Proper) :
    (∀ k, (initEntry e q s id data).2 = some (.region k) →
      s.Frames (initEntry e q s id data).1.rect) ↔ EntryFits e q s id data := by
  unfold initEntry EntryFits
  cases osdType q id with
  | none => simp
  | some type =>
    simp only [Option.some.injEq, forall_eq']
    split
    · next h0 => simp [h0]
    · next h0 =>
      rw [imp_iff_right h0]
      split
      · -- an image is shown, whatever its rectangle
        simp only [Option.some.injEq, Shown.region.injEq, forall_eq']
        unfold fillImage imageSize PictureFits
        cases e.loadBmpFormFile (q.string (osdEntry id "image_path") none) <;> rfl
      · split
        · rw [maskEntry_eq, kept_frames_iff, maskRect_frames_iff hs ⟨rfl, rfl⟩]
          · simp
          · cases styleKind q id e.coverCreate e.mosaicCreate <;> simp
        · split
          · next htext =>
            rw [imp_iff_right htext]
            unfold textEntry
            cases e.iconvUtf8ToWchar (q.string (osdEntry id "display_text") none) with
            | none => simp
            | some wch =>
              simp only [Option.some.injEq, forall_eq']
              rw [kept_frames_iff _ (.inr ⟨.bmp, rfl⟩), imp_iff_right (Option.some_ne_none _)]
              exact textRect_frames_iff hs ⟨rfl, rfl⟩ (aligned_storedInt _)
          · next htext => split <;> simp [htext]

end EntryFrames

/-! ## Loops over the entries -/

/-- The region of an entry. -/
def shownRegion (id : ℤ) (data : OsdData) : Option Shown → List Event
  | some (.region k) => [.create k id data]
  | _ => []

/-- The regions of the entries. -/
def regions (entry : ℤ → OsdData → OsdData × Option Shown) : List ℤ → OsdData → List Event
  | [], _ => []
  | id :: ids, data =>
    shownRegion id (entry id data).1 (entry id data).2 ++ regions entry ids (entry id data).1

/-- What a callback is given is in the frame. -/
def Event.InFrame (s : Screen) : Event → Prop
  | .create _ _ data => s.Frames data.rect
  | _ => True

/-- The rectangle of a mask. -/
def Event.mask : Event → Option (ℤ × Kind × Rect)
  | .create .bmp _ _ => none
  | .create k id data => some (id, k, data.rect)
  | _ => none

theorem shownRegion_inFrame_iff {s : Screen} {id : ℤ} {data : OsdData} {shown : Option Shown} :
    (∀ ev ∈ shownRegion id data shown, ev.InFrame s) ↔
      ∀ k, shown = some (.region k) → s.Frames data.rect := by
  rcases shown with _ | k | _ <;> simp [shownRegion, Event.InFrame]

/-- **The entries of `rk_osd_init`** are shown in the frame if and only if they fit. -/
theorem regions_inFrame_iff {e : Env} {q : Params} {s : Screen} (hs : s.Proper) (ids : List ℤ)
    (data : OsdData) :
    (∀ ev ∈ regions (initEntry e q s) ids data, ev.InFrame s) ↔ EntriesFit e q s ids data := by
  induction ids generalizing data with
  | nil => simp [regions, EntriesFit]
  | cons id ids ih =>
    rw [regions, List.forall_mem_append, shownRegion_inFrame_iff, initEntry_frames_iff hs, ih,
      EntriesFit]

section Masks

variable {e : Env} {q : Params} {s : Screen} {id : ℤ} {data data' : OsdData}

/-- The rectangle of a mask depends on its position only. -/
theorem maskEntry_masks (hdata : Placed e q s id data) (hdata' : Placed e q s id data') :
    (shownRegion id (maskEntry e q s id data).1 (maskEntry e q s id data).2).filterMap Event.mask =
      (shownRegion id (maskEntry e q s id data').1 (maskEntry e q s id data').2).filterMap
        Event.mask := by
  have hrect : (maskRect e q s id data).rect = (maskRect e q s id data').rect := by
    simp only [maskRect, OsdData.rect, hdata.originX, hdata.originY, hdata'.originX, hdata'.originY]
  have hnegative : (maskRect e q s id data).negative = (maskRect e q s id data').negative := by
    simp only [maskRect, OsdData.negative, hdata.originX, hdata.originY, hdata'.originX,
      hdata'.originY]
  rw [maskEntry_eq, maskEntry_eq, hnegative]
  rcases (maskRect e q s id data').negative with _ | _
  · cases styleKind q id e.coverCreate e.mosaicCreate with
    | none => rfl
    | some k =>
      cases k with
      | cover => exact congrArg (fun r => [(id, Kind.cover, r)]) hrect
      | mosaic => exact congrArg (fun r => [(id, Kind.mosaic, r)]) hrect
      | bmp => rfl
  · rfl

/-- A bitmap is no mask. -/
theorem shownRegion_masks_of_bmp {shown : Option Shown}
    (h : ∀ k, shown = some (.region k) → k = .bmp) :
    (shownRegion id data shown).filterMap Event.mask = [] := by
  rcases shown with _ | k | _
  · rfl
  · rw [h k rfl]
    rfl
  · rfl

theorem textEntry_bmp {k : Kind} (h : (textEntry e q s id data).2 = some (.region k)) :
    k = .bmp := by
  unfold textEntry at h
  split at h
  · cases h
  · dsimp only at h
    split at h <;> cases h
    rfl

/-- **One mask** is the same in both functions. -/
theorem entry_masks (data data' : OsdData) : (shownRegion id (initEntry e q s id data).1
    (initEntry e q s id data).2).filterMap Event.mask =
      (shownRegion id (restartEntry e q s id data').1
        (restartEntry e q s id data').2).filterMap Event.mask := by
  unfold initEntry restartEntry
  cases osdType q id with
  | none => rfl
  | some type =>
    dsimp only
    split
    · rfl
    · by_cases hmask : type = lit "privacyMask"
      · have hne : type ≠ lit "image" := by
          rw [hmask]
          decide
        rw [if_neg hne, if_pos hmask, if_neg (not_not.mpr hmask)]
        exact maskEntry_masks ⟨rfl, rfl⟩ ⟨rfl, rfl⟩
      · rw [if_neg hmask, if_pos hmask]
        -- what is no mask is shown as a bitmap, if at all
        refine shownRegion_masks_of_bmp fun k hk => ?_
        split at hk
        · cases hk
          rfl
        · split at hk
          · exact textEntry_bmp hk
          · split at hk <;> cases hk

/-- **The masks** are the same in both functions. -/
theorem regions_masks (ids : List ℤ) (data data' : OsdData) :
    (regions (initEntry e q s) ids data).filterMap Event.mask =
      (regions (restartEntry e q s) ids data').filterMap Event.mask := by
  induction ids generalizing data data' with
  | nil => rfl
  | cons id ids ih =>
    rw [regions, regions, List.filterMap_append, List.filterMap_append, entry_masks data data', ih]

theorem restartEntry_ne_bmp (id : ℤ) (data : OsdData) :
    (restartEntry e q s id data).2 ≠ some (.region .bmp) := by
  have hstyle : styleKind q id e.coverCreate e.mosaicCreate ≠ some .bmp := by
    unfold styleKind
    dsimp only
    split
    · simp
    · split <;> simp
  unfold restartEntry
  cases osdType q id with
  | none => simp
  | some type =>
    dsimp only
    split
    · simp
    · split
      · simp
      · rw [maskEntry_eq]
        dsimp only
        split
        · simp
        · simpa [Option.map_eq_some_iff] using hstyle

/-- `rk_osd_privacy_mask_restart` creates masks only. -/
theorem exists_mask {ids : List ℤ} {ev : Event} (h : ev ∈ regions (restartEntry e q s) ids data) :
    ∃ m, ev.mask = some m := by
  induction ids generalizing data with
  | nil => cases h
  | cons id ids ih =>
    rcases List.mem_append.mp h with h | h
    · have hbmp : (restartEntry e q s id data).2 ≠ some (.region .bmp) :=
        restartEntry_ne_bmp id data
      rcases hshown : (restartEntry e q s id data).2 with _ | k | _
      · rw [hshown] at h
        cases h
      · rw [hshown] at h hbmp
        rw [List.mem_singleton.mp h]
        cases k with
        | cover => exact ⟨_, rfl⟩
        | mosaic => exact ⟨_, rfl⟩
        | bmp => exact absurd rfl hbmp
      · rw [hshown] at h
        cases h
    · exact ih h

theorem inFrame_iff_of_mask {ev : Event} {m : ℤ × Kind × Rect} (h : ev.mask = some m) :
    ev.InFrame s ↔ s.Frames m.2.2 := by
  rcases ev with ⟨k, id, data⟩ | ⟨k, id⟩ | ⟨id, data⟩
  · cases k <;> cases h <;> rfl
  · cases h
  · cases h

/-- Masks that are in the frame in `rk_osd_init` are so in `rk_osd_privacy_mask_restart`. -/
theorem restart_inFrame {ids : List ℤ}
    (h : ∀ ev ∈ regions (initEntry e q s) ids data, ev.InFrame s) :
    ∀ ev ∈ regions (restartEntry e q s) ids data', ev.InFrame s := by
  intro ev hev
  obtain ⟨m, hm⟩ := exists_mask hev
  have hmem : m ∈ (regions (initEntry e q s) ids data).filterMap Event.mask := by
    rw [regions_masks ids data data']
    exact List.mem_filterMap.mpr ⟨ev, hev, hm⟩
  obtain ⟨ev', hev', hm'⟩ := List.mem_filterMap.mp hmem
  rw [inFrame_iff_of_mask hm]
  exact (inFrame_iff_of_mask hm').mp (h ev' hev')

end Masks

section Calls

variable {e : Env} {p : Store} {r : Screen} {l : List Event} {b : Bool}

/-- The parameters, the rates, whether a time server is about to begin, and the callbacks so far. -/
structure Logged (p : Store) (r : Screen) (b : Bool) (l : List Event) (w : World) : Prop where
  store : w.store = p
  rates : w.rates = r
  starting : w.starting = b
  log : w.log = l

/-- **What the loop over the entries leaves**: the regions, or the first of them if it returns. -/
theorem createLoop_logged {entry : ℤ → OsdData → OsdData × Option Shown} {Time : ℤ → Prop}
    [DecidablePred Time] (signals : ℤ → Bool) (ids : List ℤ) (data : OsdData)
    (htime : ∀ id data, (entry id data).2 = some .time ↔ Time id) :
    Program.Triple (Logged p r b l) (createLoop entry signals ids data)
      (fun _ => Logged p r (b || ids.any Time) (l ++ regions entry ids data))
      (fun _ w => (∃ evs, evs <+: regions entry ids data ∧ Logged p r true (l ++ evs) w) ∧
        ∃ id ∈ ids, Time id ∧ signals id = false) fun _ => False := by
  induction ids generalizing data l b with
  | nil =>
    refine Program.Triple.pure fun w hw => ?_
    rwa [List.any_nil, Bool.or_false, regions, List.append_nil]
  | cons id ids ih =>
    have hassoc : ∀ evs, l ++ (shownRegion id (entry id data).1 (entry id data).2 ++ evs) =
        l ++ shownRegion id (entry id data).1 (entry id data).2 ++ evs := fun evs =>
      (List.append_assoc ..).symm
    refine Program.Triple.bind (V := fun _ => Logged p r (b || decide (Time id))
      (l ++ shownRegion id (entry id data).1 (entry id data).2)) ?_ fun _ => ?_
    · -- the entry itself
      rintro w ⟨hp, hr, hb, hl⟩
      cases hshown : (entry id data).2 with
      | none =>
        have hTime : ¬ Time id := by simp [← htime id data, hshown]
        exact ⟨hp, hr, by simp [hb, hTime], by simp [hl, shownRegion]⟩
      | some shown =>
        cases shown with
        | region k =>
          have hTime : ¬ Time id := by simp [← htime id data, hshown]
          exact ⟨hp, hr, by simpa [hTime] using hb, by simp [hl, shownRegion]⟩
        | time =>
          have hTime : Time id := (htime id data).mp hshown
          cases hsignal : signals id with
          | true =>
            simp only [createEntry, startTimeServer, hsignal]
            exact ⟨hp, hr, by simp [hTime], by simpa [shownRegion] using hl⟩
          | false =>
            simp only [createEntry, startTimeServer, hsignal]
            exact ⟨⟨[], List.nil_prefix, hp, hr, rfl, by simpa using hl⟩, id,
              List.mem_cons_self .., hTime, hsignal⟩
    · refine ((ih (entry id data).1).post ?_).returns ?_
      · intro _ w hw
        rw [List.any_cons, ← Bool.or_assoc, regions, hassoc]
        exact hw
      · rintro _ w ⟨⟨evs, hevs, hw⟩, j, hj, hjTime⟩
        refine ⟨⟨shownRegion id (entry id data).1 (entry id data).2 ++ evs, ?_, ?_⟩, j,
          List.mem_cons_of_mem _ hj, hjTime⟩
        · rw [regions]
          exact (List.prefix_append_right_inj _).mpr hevs
        · rwa [hassoc]

theorem destroyLoop_logged (kind : ℤ → Option Kind) (ids : List ℤ) :
    Program.Triple (fun w => ∃ l, Logged p r b l w ∧ ∀ ev ∈ l, ∃ k id, ev = .destroy k id)
      (destroyLoop kind ids)
      (fun _ w => ∃ l, Logged p r b l w ∧ ∀ ev ∈ l, ∃ k id, ev = .destroy k id)
      (fun _ _ => False) fun _ => False := by
  induction ids with
  | nil => exact Program.Triple.pure fun _ hw => hw
  | cons id ids ih =>
    refine Program.Triple.bind ?_ fun _ => ih
    cases kind id with
    | none => exact Program.Triple.pure fun _ hw => hw
    | some k =>
      rintro w ⟨l, ⟨hp, hr, hb, hl⟩, hall⟩
      refine ⟨l ++ [.destroy k id], ⟨hp, hr, hb, congrArg (· ++ _) hl⟩, ?_⟩
      intro ev hev
      rcases List.mem_append.mp hev with hev | hev
      · exact hall ev hev
      · exact ⟨k, id, List.mem_singleton.mp hev⟩

/-- **What `rk_osd_init` leaves.** -/
theorem rkOsdInit_logged (signals : ℤ → Bool) :
    let q := params p
    Program.Triple (fun w => w = World.initial p) (rkOsdInit e signals)
      (fun _ => Logged p (screen q) (slots.any (TimeEnabled q))
        (regions (initEntry e q (screen q)) slots e.junk))
      (fun _ w => (∃ evs, evs <+: regions (initEntry e q (screen q)) slots e.junk ∧
        Logged p (screen q) true evs w) ∧ ∃ id ∈ slots, TimeEnabled q id ∧ signals id = false)
      fun _ => False := by
  intro q
  have hloop := createLoop_logged (p := p) (r := screen q) (l := []) (b := false) signals slots
    e.junk (initEntry_time_iff e q (screen q))
  have hrun := hloop.bind (f := fun _ => do mutexUnlock; return (0 : ℤ))
    (W := fun _ => Logged p (screen q) (slots.any (TimeEnabled q))
      (regions (initEntry e q (screen q)) slots e.junk)) fun _ w hw =>
    ⟨hw.store, hw.rates, hw.starting, hw.log⟩
  rintro w rfl
  exact hrun { World.initial p with mutex := true, rates := screen q } ⟨rfl, rfl, rfl, rfl⟩

/-- **What `rk_osd_privacy_mask_restart` leaves.** -/
theorem rkOsdPrivacyMaskRestart_logged :
    let q := params p
    Program.Triple (fun w => w = World.initial p) (rkOsdPrivacyMaskRestart e)
      (fun _ w => ∃ l, (∀ ev ∈ l, ∃ k id, ev = .destroy k id) ∧
        w.log = l ++ regions (restartEntry e q (screen q)) slots e.junk)
      (fun _ _ => False) fun _ => False := by
  intro q
  have hcreate : ∀ l, Program.Triple (Logged p (screen q) false l)
      (createLoop (restartEntry e q (screen q)) (fun _ => true) slots e.junk)
      (fun _ w => w.log = l ++ regions (restartEntry e q (screen q)) slots e.junk)
      (fun _ _ => False) fun _ => False := by
    intro l
    have htime : ∀ id data, (restartEntry e q (screen q) id data).2 = some .time ↔
        (fun _ => False) id := fun id data =>
      iff_of_false (restartEntry_ne_time e q (screen q) id data) not_false
    refine ((createLoop_logged (fun _ => true) slots e.junk htime).post ?_).returns ?_
    · exact fun _ w hw => hw.log
    · rintro _ w ⟨-, _, -, h, -⟩
      exact h
  have hdestroy := destroyLoop_logged (p := p) (r := ⟨1, 1, 1, 1⟩) (b := false)
    (destroyMaskKind e q) slots
  have hrest : Program.Triple
      (fun w => ∃ l, Logged p ⟨1, 1, 1, 1⟩ false l w ∧ ∀ ev ∈ l, ∃ k id, ev = .destroy k id)
      (do
        let s ← setRates
        createLoop (restartEntry e q s) (fun _ => true) slots e.junk
        mutexUnlock
        return (0 : ℤ))
      (fun _ w => ∃ l, (∀ ev ∈ l, ∃ k id, ev = .destroy k id) ∧
        w.log = l ++ regions (restartEntry e q (screen q)) slots e.junk)
      (fun _ _ => False) fun _ => False := by
    rintro w ⟨l, ⟨hp, -, hb, hl⟩, hall⟩
    have hrun := (hcreate l).bind (f := fun _ => do mutexUnlock; return (0 : ℤ))
      (W := fun _ w => ∃ l, (∀ ev ∈ l, ∃ k id, ev = .destroy k id) ∧
        w.log = l ++ regions (restartEntry e q (screen q)) slots e.junk) fun _ w hw => ⟨l, hall, hw⟩
    subst hp
    exact hrun { w with rates := screen q } ⟨rfl, rfl, hb, hl⟩
  rintro w rfl
  exact hdestroy.bind (fun _ => hrest) { World.initial p with mutex := true }
    ⟨[], ⟨rfl, rfl, rfl, rfl⟩, by simp⟩

end Calls

/-! ## The display -/

/-- **Every rectangle is in the frame**: those of `rk_osd_init`, of the time server that it starts
and of `rk_osd_privacy_mask_restart`. The loops end, and the two functions agree on the masks. -/
structure FramesRegions (e : Env) (now : Str → List UInt32) (p : Store) : Prop where
  init : ∀ signals w, (Call.init signals).result e (World.initial p) = some w →
    ∀ ev ∈ w.log, ev.InFrame (screen (params p))
  time : ∀ signals w, (Call.init signals).result e (World.initial p) = some w →
    w.starting = true → ∀ ev ∈ (w.serveTime e now).log, ev.InFrame (screen (params p))
  restart : ∀ w, Call.privacyMaskRestart.result e (World.initial p) = some w →
    ∀ ev ∈ w.log, ev.InFrame (screen (params p))
  masks : ∀ w w', (Call.init fun _ => true).result e (World.initial p) = some w →
    Call.privacyMaskRestart.result e (World.initial p) = some w' →
    w.log.filterMap Event.mask = w'.log.filterMap Event.mask
  ends : ∀ limit ∈ [(screen (params p)).videoWidth, (screen (params p)).videoHeight],
    ∀ x size, InRange size →
      Ends (fun size => limit < storedInt (x + size)) (fun size => storedInt (size - 16)) size
        (shrink x limit size)

/-- **Every entry fits**, and so does the time if it is shown. -/
structure RegionsFit (e : Env) (now : Str → List UInt32) (p : Store) : Prop where
  entries : EntriesFit e (params p) (screen (params p)) slots e.junk
  time : (∃ id ∈ slots, TimeEnabled (params p) id) →
    let id := osdTimeId (params p)
    PictureFits e (params p) (screen (params p)) id
      (textWidth e (now (timeFormat (params p) id))) (textHeight (params p))

section Display

variable {e : Env} {now : Str → List UInt32} {p : Store} {w : World}

theorem screen_proper (hw : 0 < (screen (params p)).videoWidth)
    (hh : 0 < (screen (params p)).videoHeight) : (screen (params p)).Proper :=
  ⟨hw, hh, inRange_int p _ (by decide), inRange_int p _ (by decide)⟩

/-- A call that returns. -/
theorem Call.result_eq_some_iff {c : Call} {w' : World} : c.result e w = some w' ↔
    (∃ v, c.run e w = (.value v, w')) ∨ ∃ v, c.run e w = (.returned v, w') := by
  unfold Call.result
  rcases c.run e w with ⟨_ | _ | _, u⟩ <;> simp

/-- What `rk_osd_init` has called when it returns. -/
theorem init_result {signals : ℤ → Bool}
    (h : (Call.init signals).result e (World.initial p) = some w) :
    (∃ evs b, evs <+: regions (initEntry e (params p) (screen (params p))) slots e.junk ∧
      Logged p (screen (params p)) b evs w) ∧
      (w.starting = true → ∃ id ∈ slots, TimeEnabled (params p) id) := by
  have hrun := rkOsdInit_logged (e := e) (p := p) signals _ rfl
  rcases Call.result_eq_some_iff.mp h with ⟨v, hv⟩ | ⟨v, hv⟩
  · rw [Call.run] at hv
    rw [hv] at hrun
    refine ⟨⟨_, _, List.prefix_rfl, hrun⟩, fun hs => ?_⟩
    simpa using hrun.starting.symm.trans hs
  · rw [Call.run] at hv
    rw [hv] at hrun
    obtain ⟨⟨evs, hevs, hlogged⟩, id, hid, htime, -⟩ := hrun
    exact ⟨⟨evs, _, hevs, hlogged⟩, fun _ => ⟨id, hid, htime⟩⟩

/-- If every signal is created, `rk_osd_init` goes through all entries. -/
theorem exists_init_result : ∃ w, (Call.init fun _ => true).result e (World.initial p) = some w ∧
    Logged p (screen (params p)) (slots.any (TimeEnabled (params p)))
      (regions (initEntry e (params p) (screen (params p))) slots e.junk) w := by
  have hrun := rkOsdInit_logged (e := e) (p := p) (fun _ => true) _ rfl
  simp only [Call.result_eq_some_iff, Call.run]
  generalize rkOsdInit e (fun _ => true) (World.initial p) = o at hrun
  rcases o with ⟨v | _ | _, w'⟩
  · exact ⟨w', .inl ⟨v, rfl⟩, hrun⟩
  · obtain ⟨-, id, -, -, h⟩ := hrun
    cases h
  · exact hrun.elim

theorem restart_result
    (h : Call.privacyMaskRestart.result e (World.initial p) = some w) :
    ∃ l, (∀ ev ∈ l, ∃ k id, ev = .destroy k id) ∧
      w.log = l ++ regions (restartEntry e (params p) (screen (params p))) slots e.junk := by
  have hrun := rkOsdPrivacyMaskRestart_logged (e := e) (p := p) _ rfl
  rcases Call.result_eq_some_iff.mp h with ⟨v, hv⟩ | ⟨v, hv⟩
  · rw [Call.run] at hv
    rwa [hv] at hrun
  · rw [Call.run] at hv
    rw [hv] at hrun
    exact hrun.elim

/-- What `rk_osd_init` shows is in the frame if all regions are. -/
theorem init_inFrame (hregions : ∀ ev ∈ regions (initEntry e (params p) (screen (params p))) slots
    e.junk, ev.InFrame (screen (params p))) {signals : ℤ → Bool}
    (h : (Call.init signals).result e (World.initial p) = some w) :
    ∀ ev ∈ w.log, ev.InFrame (screen (params p)) := by
  intro ev hev
  obtain ⟨⟨evs, b, hevs, hlogged⟩, -⟩ := init_result h
  rw [hlogged.log] at hev
  exact hregions ev (hevs.subset hev)

/-- **A restart shows the masks that an init does.** -/
theorem masks_restart {w' : World}
    (h : (Call.init fun _ => true).result e (World.initial p) = some w)
    (h' : Call.privacyMaskRestart.result e (World.initial p) = some w') :
    w.log.filterMap Event.mask = w'.log.filterMap Event.mask := by
  obtain ⟨w₁, hresult, hw₁⟩ := exists_init_result (e := e) (p := p)
  obtain rfl := Option.some.inj (hresult.symm.trans h)
  obtain ⟨l, hl, hlog⟩ := restart_result h'
  have hnone : l.filterMap Event.mask = [] := by
    refine List.filterMap_eq_nil_iff.mpr fun ev hev => ?_
    obtain ⟨k, id, rfl⟩ := hl ev hev
    rfl
  rw [hw₁.log, hlog, List.filterMap_append, hnone, List.nil_append]
  exact regions_masks _ _ _

/-- **Every rectangle is in the frame** if and only if every entry fits. -/
theorem framesRegions_iff (hw : 0 < (screen (params p)).videoWidth)
    (hh : 0 < (screen (params p)).videoHeight) :
    FramesRegions e now p ↔ RegionsFit e now p := by
  have hs := screen_proper hw hh
  constructor
  · intro h
    obtain ⟨w, hresult, hw⟩ := exists_init_result (e := e) (p := p)
    constructor
    · rw [← regions_inFrame_iff hs, ← hw.log]
      exact h.init _ w hresult
    · rintro ⟨id, hid, htime⟩
      have hstarting : w.starting = true := by
        rw [hw.starting, List.any_eq_true]
        exact ⟨id, hid, decide_eq_true htime⟩
      have hlast := h.time _ w hresult hstarting
        (.create .bmp (osdTimeId (params w.store))
          (timeData e (params w.store) w.rates (osdTimeId (params w.store)) now)) (by
        simp [World.serveTime])
      rw [hw.store, hw.rates] at hlast
      exact hlast
  · rintro ⟨hentries, htime⟩
    have hregions := (regions_inFrame_iff hs _ _).mpr hentries
    refine ⟨fun signals w h => init_inFrame hregions h, ?_, ?_, fun w w' => masks_restart, ?_⟩
    · intro signals w hresult hstarting ev hev
      obtain ⟨⟨evs, b, -, hlogged⟩, hexists⟩ := init_result hresult
      rcases List.mem_append.mp hev with hev | hev
      · exact init_inFrame hregions hresult ev hev
      · rw [List.mem_singleton.mp hev, hlogged.store, hlogged.rates]
        exact htime (hexists hstarting)
    · intro w hresult ev hev
      obtain ⟨l, hl, hlog⟩ := restart_result hresult
      rw [hlog] at hev
      rcases List.mem_append.mp hev with hev | hev
      · obtain ⟨k, id, rfl⟩ := hl ev hev
        trivial
      · exact restart_inFrame hregions ev hev
    · intro limit hlimit x size hsize
      refine ends_shrink ?_ hsize
      rcases List.mem_cons.mp hlimit with rfl | hlimit
      · exact hw.le
      · rw [List.mem_singleton.mp hlimit]
        exact hh.le

end Display

/-- A text in the frame. -/
theorem framesRegions_character_iff :
    FramesRegions Env.plain (fun _ => []) (oneEntry "character") ↔
      RegionsFit Env.plain (fun _ => []) (oneEntry "character") :=
  framesRegions_iff (by decide +kernel) (by decide +kernel)

/-- A mask that begins where the frame ends. -/
def borderMask : Store where
  file := none
  iniD := .live <| [("video.0:width", "1920"), ("video.0:height", "1080"),
    ("osd.common:normalized_screen_width", "704"), ("osd.common:normalized_screen_height", "480"),
    ("osd.0:type", "privacyMask"), ("osd.0:enabled", "1"), ("osd.0:position_x", "704"),
    ("osd.0:position_y", "0"), ("osd.0:width", "64"), ("osd.0:height", "64")].foldl
      (fun d entry => dictionarySet d (lit entry.1) (some (lit entry.2))) dictionaryNew

/-- **An empty mask is shown.** Its width is lowered to nothing, which is not negative. -/
theorem empty_mask_shown : 0 < (screen (params borderMask)).videoWidth ∧
    0 < (screen (params borderMask)).videoHeight ∧
    ¬ FramesRegions Env.plain (fun _ => []) borderMask := by
  refine ⟨by decide +kernel, by decide +kernel, fun h => ?_⟩
  have hmasks : ((Call.init fun _ => true).result Env.plain (World.initial borderMask)).map
      (fun w => w.log.filterMap Event.mask) = some [(0, .cover, ⟨1920, 0, 0, 144⟩)] := by
    decide +kernel
  obtain ⟨w, hw, hlog⟩ := Option.map_eq_some_iff.mp hmasks
  have hmem : (0, Kind.cover, (⟨1920, 0, 0, 144⟩ : Rect)) ∈ w.log.filterMap Event.mask := by
    rw [hlog]
    exact List.mem_singleton_self _
  obtain ⟨ev, hev, hmask⟩ := List.mem_filterMap.mp hmem
  have hframes := (inFrame_iff_of_mask hmask).mp (h.init _ w hw ev hev)
  exact absurd hframes.1.width (by decide)

end RkIpc.Osd
