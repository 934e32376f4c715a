import RkIpc.Param.Keys
import RkIpc.Param.Store
import RkIpc.Transition.Lowering
import RkIpc.Wire.Arithmetic

/-!
# The entries of the on-screen display

`common/osd/osd.c` keeps eight entries `osd.N` in the parameters. From the type, the style and the
geometry of an entry follows whether it is shown, and as what region. Coordinates are kept in `int`,
where sums wrap around.

## Main definitions

* `Params`, `Setter`: the parameters that are read, and the setters of an entry
* `Env`: the platform, fonts, image files and the arithmetic of scaling
* `OsdData`, `maskRect`, `textRect`: what a callback is given
* `initEntry`: what an entry is shown as
* `styleKind`, `destroyKind`: the region that is destroyed for an entry

## Main results

* `shrink_eq`, `ends_shrink`: the loops that make a rectangle fit
-/

namespace RkIpc.Osd

open Text Param Transition Wire

/-- What `rk_param_get_string` and `rk_param_get_int` return. -/
structure Params where
  string : Str → Option Str → Option Str
  int : Str → ℤ → ℤ

/-- The parameters of a store. A read of which the source says nothing gives the default. -/
def params (p : Store) : Params where
  string entry default := (rkParamGetString p entry default).getD default
  int entry default := (rkParamGetInt p entry default).getD default

/-- A number in the parameters is an `int`. -/
theorem inRange_int (p : Store) (key : Str) {default : ℤ} (hdefault : InRange default) :
    InRange ((params p).int key default) := by
  show InRange ((rkParamGetInt p key default).getD default)
  unfold rkParamGetInt iniparserGetint
  cases p.iniD with
  | null => exact hdefault
  | live d =>
    dsimp only
    split
    · exact hdefault
    · exact hdefault
    · exact inRange_strtol _
  | freed => exact hdefault

/-- A number that is not the default does not depend on it. -/
theorem int_eq_of_ne {p : Store} {key : Str} {default : ℤ}
    (h : (params p).int key default ≠ default) (default' : ℤ) :
    (params p).int key default' = (params p).int key default := by
  revert h
  show (rkParamGetInt p key default).getD default ≠ default →
    (rkParamGetInt p key default').getD default' = (rkParamGetInt p key default).getD default
  unfold rkParamGetInt iniparserGetint
  cases p.iniD with
  | null => exact fun h => absurd rfl h
  | live d =>
    dsimp only
    split
    · exact fun h => absurd rfl h
    · exact fun h => absurd rfl h
    · exact fun _ => rfl
  | freed => exact fun h => absurd rfl h

/-- `snprintf(entry, 127, "osd.%d:…", id)`. -/
def osdEntry (id : ℤ) (name : String) : Str := lit "osd." ++ decimal id ++ lit ":" ++ lit name

/-! ## Setters -/

/-- A setter of a text of an entry. -/
def setOsdString (name : String) (p : Store) (id : Int32) (value : Str) : Option Store :=
  rkParamSetString p (osdEntry id.toInt name) (some value)

/-- A setter of a number of an entry. -/
def setOsdInt (name : String) (p : Store) (id value : Int32) : Option Store :=
  rkParamSetInt p (osdEntry id.toInt name) value.toInt

/-- `rk_osd_set_type`. -/
def rkOsdSetType : Store → Int32 → Str → Option Store := setOsdString "type"

/-- `rk_osd_set_style`. -/
def rkOsdSetStyle : Store → Int32 → Str → Option Store := setOsdString "style"

/-- `rk_osd_set_enabled`. -/
def rkOsdSetEnabled : Store → Int32 → Int32 → Option Store := setOsdInt "enabled"

/-- `rk_osd_set_position_x`. -/
def rkOsdSetPositionX : Store → Int32 → Int32 → Option Store := setOsdInt "position_x"

/-- `rk_osd_set_position_y`. -/
def rkOsdSetPositionY : Store → Int32 → Int32 → Option Store := setOsdInt "position_y"

/-- `rk_osd_set_width`. -/
def rkOsdSetWidth : Store → Int32 → Int32 → Option Store := setOsdInt "width"

/-- `rk_osd_set_height`. -/
def rkOsdSetHeight : Store → Int32 → Int32 → Option Store := setOsdInt "height"

/-- A change of an entry by a client. -/
inductive Setter where
  | type (id : Int32) (value : Str)
  | style (id : Int32) (value : Str)
  | enabled (id value : Int32)
  | positionX (id value : Int32)
  | positionY (id value : Int32)
  | width (id value : Int32)
  | height (id value : Int32)

/-- The store after the change. -/
def Setter.run (p : Store) : Setter → Option Store
  | .type id value => rkOsdSetType p id value
  | .style id value => rkOsdSetStyle p id value
  | .enabled id value => rkOsdSetEnabled p id value
  | .positionX id value => rkOsdSetPositionX p id value
  | .positionY id value => rkOsdSetPositionY p id value
  | .width id value => rkOsdSetWidth p id value
  | .height id value => rkOsdSetHeight p id value

/-! ## Geometry -/

/-- `UPALIGNTO16`. -/
def upAlignTo16 (value : ℤ) : ℤ := (value + 15) / 16 * 16

/-- What an `int` holds of an integer. -/
def storedInt (value : ℤ) : ℤ := value.bmod (2 ^ 32)

theorem storedInt_of_inRange {v : ℤ} (h : InRange v) : storedInt v = v := bmod_eq_self_iff.mpr h

theorem inRange_storedInt (v : ℤ) : InRange (storedInt v) := by
  unfold InRange storedInt
  rw [Int.bmod_def]
  split <;> omega

/-- The operands of a sum may be stored before. -/
theorem storedInt_sub_storedInt (v w : ℤ) : storedInt (storedInt v - w) = storedInt (v - w) :=
  Int.bmod_sub_bmod ..

theorem storedInt_add_storedInt (v w : ℤ) : storedInt (v + storedInt w) = storedInt (v + w) :=
  Int.add_bmod_bmod ..

section Sum

variable {step x limit size : ℤ}

/-- The sum `x + size` determines the size. -/
theorem tracks_sum (step x : ℤ) {limit : ℤ} (hstep : 0 < step) (hbelow : step ≤ 2 ^ 31)
    (hlimit : 0 ≤ limit) :
    Tracks (fun size => storedInt (x + size)) storedInt step limit InRange
      (fun t => storedInt (t - x)) where
  read t ht := by
    show storedInt (x + storedInt (t - x)) = t
    rw [storedInt_add_storedInt, add_sub_cancel, storedInt_of_inRange ht]
  store t _ _ := by
    rw [storedInt_sub_storedInt, sub_right_comm]
  next t ht hlt := ⟨by omega, by have := ht.2; omega⟩

theorem storedInt_add_sub (hsize : InRange size) : storedInt (storedInt (x + size) - x) = size := by
  rw [storedInt_sub_storedInt, add_sub_cancel_left, storedInt_of_inRange hsize]

/-- The size that a loop comes to. -/
theorem lowerLoop_sum_eq (hstep : 0 < step) (hbelow : step ≤ 2 ^ 31) (hlimit : 0 ≤ limit)
    (hsize : InRange size) :
    lowerLoop (fun size => storedInt (x + size)) storedInt step limit
        (storedInt (x + size) - limit).toNat size =
      storedInt (lowered step limit (storedInt (x + size)) - x) := by
  have h := (tracks_sum step x hstep hbelow hlimit).lowerLoop_eq hstep
    (inRange_storedInt (x + size)) _ (Int.self_le_toNat _)
  rwa [storedInt_add_sub hsize] at h

/-- A loop over a sum ends. -/
theorem ends_sum (hstep : 0 < step) (hbelow : step ≤ 2 ^ 31) (hlimit : 0 ≤ limit)
    (hsize : InRange size) :
    Ends (fun size => limit < storedInt (x + size)) (fun size => storedInt (size - step)) size
      (storedInt (lowered step limit (storedInt (x + size)) - x)) := by
  have h := (tracks_sum step x hstep hbelow hlimit).ends hstep (inRange_storedInt (x + size))
  rwa [storedInt_add_sub hsize] at h

end Sum

/-- `while (x + size > limit) size -= 16;`. -/
def shrink (x limit size : ℤ) : ℤ :=
  lowerLoop (fun size => storedInt (x + size)) storedInt 16 limit
    (storedInt (x + size) - limit).toNat size

section Shrink

variable {x limit size : ℤ}

/-- **The size that the loop comes to.** -/
theorem shrink_eq (hlimit : 0 ≤ limit) (hsize : InRange size) :
    shrink x limit size = storedInt (lowered 16 limit (storedInt (x + size)) - x) :=
  lowerLoop_sum_eq (by omega) (by omega) hlimit hsize

/-- **The loop ends.** -/
theorem ends_shrink (hlimit : 0 ≤ limit) (hsize : InRange size) :
    Ends (fun size => limit < storedInt (x + size)) (fun size => storedInt (size - 16)) size
      (shrink x limit size) := by
  rw [shrink_eq hlimit hsize]
  exact ends_sum (by omega) (by omega) hlimit hsize

end Shrink

/-! ## Regions -/

/-- The size of the video and of the screen that positions refer to. -/
structure Screen where
  videoWidth : ℤ
  videoHeight : ℤ
  normalizedWidth : ℤ
  normalizedHeight : ℤ

/-- What a callback is given, as far as its place and its text go. -/
structure OsdData where
  enable : ℤ
  originX : ℤ
  originY : ℤ
  width : ℤ
  height : ℤ
  fontSize : ℤ
  wch : List UInt32

/-- **What `osd.c` rests on**: `(int)(value * rate)` for the `double` quotient of the two sizes, the
conversion of a text (which may fail), the advance of a text in the font, the size of an image file
(if it is loaded), the callbacks that are registered beside those of bitmaps, and what a variable
holds before it is written. -/
structure Env where
  scale : ℤ → ℤ → ℤ → ℤ
  iconvUtf8ToWchar : Option Str → Option (List UInt32)
  wstrGetActualAdvanceX : List UInt32 → ℤ
  loadBmpFormFile : Option Str → Option (ℤ × ℤ)
  coverCreate : Bool
  coverDestroy : Bool
  mosaicCreate : Bool
  mosaicDestroy : Bool
  junk : OsdData

/-- The kinds of regions, each with callbacks of its own. -/
inductive Kind where
  | cover
  | mosaic
  | bmp
deriving DecidableEq, Repr

/-- What an entry is shown as: a region, or the date and the time of a thread. -/
inductive Shown where
  | region (k : Kind)
  | time
deriving DecidableEq, Repr

/-- The type of an entry. -/
def osdType (q : Params) (id : ℤ) : Option Str := q.string (osdEntry id "type") none

/-- The sizes, as every function reads them first. -/
def screen (q : Params) : Screen where
  videoWidth := q.int (lit "video.0:width") (-1)
  videoHeight := q.int (lit "video.0:height") (-1)
  normalizedWidth := q.int (lit "osd.common:normalized_screen_width") (-1)
  normalizedHeight := q.int (lit "osd.common:normalized_screen_height") (-1)

/-- `!strcmp(osd_type, "channelName") || !strcmp(osd_type, "character")`. -/
def isText (type : Str) : Prop := type = lit "channelName" ∨ type = lit "character"

instance (type : Str) : Decidable (isText type) := inferInstanceAs (Decidable (_ ∨ _))

section Rect

variable (e : Env) (q : Params) (s : Screen) (id : ℤ)

/-- A horizontal measure of an entry, scaled. -/
def scaledX (name : String) : ℤ :=
  storedInt (upAlignTo16 (e.scale s.videoWidth s.normalizedWidth (q.int (osdEntry id name) (-1))))

/-- A vertical measure of an entry, scaled. -/
def scaledY (name : String) : ℤ :=
  storedInt (upAlignTo16 (e.scale s.videoHeight s.normalizedHeight (q.int (osdEntry id name) (-1))))

/-- The position of an entry. -/
def position (data : OsdData) : OsdData :=
  { data with originX := scaledX e q s id "position_x", originY := scaledY e q s id "position_y" }

/-- The size of a mask, as far as it fits. -/
def maskRect (data : OsdData) : OsdData :=
  { data with
    width := shrink data.originX s.videoWidth (scaledX e q s id "width")
    height := shrink data.originY s.videoHeight (scaledY e q s id "height") }

/-- The rectangle of a text, moved until it fits. -/
def textRect (width : ℤ) (data : OsdData) : OsdData :=
  let height := storedInt (upAlignTo16 data.fontSize)
  { data with
    width := width
    height := height
    originX := shrink width s.videoWidth data.originX
    originY := shrink height s.videoHeight data.originY }

/-- `origin_x < 0 || origin_y < 0 || width < 0 || height < 0`. -/
def OsdData.negative (data : OsdData) : Bool :=
  data.originX < 0 || data.originY < 0 || data.width < 0 || data.height < 0

/-- The kind that the style names, if its callback is registered. -/
def styleKind (cover mosaic : Bool) : Option Kind :=
  let style := q.string (osdEntry id "style") (some (lit "cover"))
  if style = some (lit "cover") ∧ cover then some .cover
  else if style = some (lit "mosaic") ∧ mosaic then some .mosaic
  else none

/-! ## Entries -/

/-- `fill_image`, which leaves the size as it is if the file is not loaded. -/
def fillImage (data : OsdData) : OsdData :=
  match e.loadBmpFormFile (q.string (osdEntry id "image_path") none) with
  | none => data
  | some (width, height) => { data with width := width, height := height }

/-- A `privacyMask` entry. -/
def maskEntry (data : OsdData) : OsdData × Option Shown :=
  let data := maskRect e q s id data
  if data.negative then (data, none)
  else (data, (styleKind q id e.coverCreate e.mosaicCreate).map .region)

/-- A `channelName` or `character` entry. -/
def textEntry (data : OsdData) : OsdData × Option Shown :=
  match e.iconvUtf8ToWchar (q.string (osdEntry id "display_text") none) with
  | none => (data, none)
  | some wch =>
    let width := storedInt (upAlignTo16 (e.wstrGetActualAdvanceX wch))
    let data := textRect s width { data with wch := wch }
    (data, if data.negative then none else some (.region .bmp))

/-- **The body of the loop of `rk_osd_init`**: what the entry is shown as, and `osd_data` after
it. -/
def initEntry (data : OsdData) : OsdData × Option Shown :=
  match osdType q id with
  | none => (data, none)
  | some type =>
    let data := { data with enable := q.int (osdEntry id "enabled") 0 }
    if data.enable = 0 then (data, none)
    else
      let data := position e q s id data
      if type = lit "image" then (fillImage e q id data, some (.region .bmp))
      else if type = lit "privacyMask" then maskEntry e q s id data
      else
        let data := { data with fontSize := q.int (lit "osd.common:font_size") (-1) }
        if isText type then textEntry e q s id data
        else if type = lit "dateTime" then (data, some .time)
        else (data, none)

/-- The body of the second loop of `rk_osd_privacy_mask_restart`. -/
def restartEntry (data : OsdData) : OsdData × Option Shown :=
  match osdType q id with
  | none => (data, none)
  | some type =>
    let data := { data with enable := q.int (osdEntry id "enabled") 0 }
    if data.enable = 0 then (data, none)
    else
      let data := position e q s id data
      if type ≠ lit "privacyMask" then (data, none)
      else maskEntry e q s id data

/-- A text that is changed, whose width is counted in letters of the font size. -/
def changeData : OsdData :=
  let data := position e q s id { e.junk with
    enable := q.int (osdEntry id "enabled") 0
    fontSize := q.int (lit "osd.common:font_size") (-1) }
  let wch := (e.iconvUtf8ToWchar (q.string (osdEntry id "display_text") none)).getD data.wch
  textRect s (storedInt (upAlignTo16 (wch.length * data.fontSize))) { data with wch := wch }

/-- The callback that the first loop of `rk_osd_privacy_mask_restart` calls for an entry. -/
def destroyMaskKind : Option Kind :=
  match osdType q id with
  | none => none
  | some type =>
    if type ≠ lit "privacyMask" then none
    else styleKind q id e.coverDestroy e.mosaicDestroy

/-- The callback that `rk_osd_deinit` calls for an entry. -/
def destroyKind : Option Kind :=
  match osdType q id with
  | none => none
  | some type =>
    if type = lit "channelName" then some .bmp
    else if type = lit "dateTime" then some .bmp
    else if type = lit "character" then some .bmp
    else if type = lit "privacyMask" then styleKind q id e.coverDestroy e.mosaicDestroy
    else if type = lit "image" then some .bmp
    else none

/-! ## Date and time -/

/-- `MAX_OSD_NUM`. -/
def maxOsdNum : ℕ := 8

/-- The entries there are. -/
def slots : List ℤ := (List.range maxOsdNum).map Int.ofNat

/-- `osd_time_id`: the last entry of the type, shown or not. -/
def osdTimeId : ℤ :=
  slots.foldl (fun timeId i => if osdType q i = some (lit "dateTime") then i else timeId) 0

/-- `osd_data.text.format`. -/
def timeFormat : Str :=
  (match q.string (osdEntry id "time_style") none with
    | none => []
    | some style => (if style = lit "12hour" then lit "12hour" else lit "24hour") ++ lit " ") ++
  (if q.int (osdEntry id "display_week_enabled") 0 ≠ 0 then lit "WEEKCN" ++ lit " " else []) ++
  (q.string (osdEntry id "date_style") none).getD []

/-- What `osd_time_server` gives to the callback first; `now` is what `generate_date_time` makes of
a format. -/
def timeData (now : Str → List UInt32) : OsdData :=
  let fontSize := q.int (lit "osd.common:font_size") (-1)
  let wch := now (timeFormat q id)
  position e q s id {
    enable := q.int (osdEntry id "enabled") 0
    originX := 0
    originY := 0
    width := storedInt (upAlignTo16 (e.wstrGetActualAdvanceX wch))
    height := storedInt (upAlignTo16 fontSize)
    fontSize := fontSize
    wch := wch }

end Rect

/-! ## What an entry is shown as -/

/-- An entry for the date and the time is enabled. -/
def TimeEnabled (q : Params) (id : ℤ) : Prop :=
  osdType q id = some (lit "dateTime") ∧ q.int (osdEntry id "enabled") 0 ≠ 0

instance (q : Params) (id : ℤ) : Decidable (TimeEnabled q id) := inferInstanceAs (Decidable (_ ∧ _))

/-- A mask is a region, if it is shown. -/
theorem maskEntry_ne_time (e : Env) (q : Params) (s : Screen) (id : ℤ) (data : OsdData) :
    (maskEntry e q s id data).2 ≠ some .time := by
  unfold maskEntry
  dsimp only
  split
  · simp
  · simp [Option.map_eq_some_iff]

/-- A text is a region, if it is shown. -/
theorem textEntry_ne_time (e : Env) (q : Params) (s : Screen) (id : ℤ) (data : OsdData) :
    (textEntry e q s id data).2 ≠ some .time := by
  unfold textEntry
  split
  · simp
  · dsimp only
    split <;> simp

/-- **A time server is started** for an enabled entry for the date and the time. -/
theorem initEntry_time_iff (e : Env) (q : Params) (s : Screen) (id : ℤ) (data : OsdData) :
    (initEntry e q s id data).2 = some .time ↔ TimeEnabled q id := by
  unfold initEntry TimeEnabled
  cases osdType q id with
  | none => simp
  | some type =>
    dsimp only
    rw [Option.some.injEq]
    split
    · next h0 => exact iff_of_false (by simp) fun h => h.2 h0
    · next h0 =>
      split
      · next h => exact iff_of_false (by simp) fun h' => absurd (h.symm.trans h'.1) (by decide)
      · split
        · next h =>
          exact iff_of_false (maskEntry_ne_time e q s id _) fun h' =>
            absurd (h.symm.trans h'.1) (by decide)
        · split
          · next h =>
            refine iff_of_false (textEntry_ne_time e q s id _) fun h' => ?_
            rcases h with h | h <;> exact absurd (h.symm.trans h'.1) (by decide)
          · split
            · next h => exact iff_of_true rfl ⟨h, h0⟩
            · next h => exact iff_of_false (by simp) fun h' => h h'.1

theorem restartEntry_ne_time (e : Env) (q : Params) (s : Screen) (id : ℤ) (data : OsdData) :
    (restartEntry e q s id data).2 ≠ some .time := by
  unfold restartEntry
  cases osdType q id with
  | none => simp
  | some type =>
    dsimp only
    split
    · simp
    · split
      · simp
      · exact maskEntry_ne_time e q s id _

/-- What a mask is shown as does not depend on what `osd_data` was before, except for its
position. -/
theorem maskEntry_congr (e : Env) (q : Params) (s : Screen) (id : ℤ) {data data' : OsdData}
    (hx : data.originX = data'.originX) (hy : data.originY = data'.originY) :
    (maskEntry e q s id data).2 = (maskEntry e q s id data').2 := by
  have hnegative : (maskRect e q s id data).negative = (maskRect e q s id data').negative := by
    rw [OsdData.negative, OsdData.negative, maskRect, maskRect, hx, hy]
  simp only [maskEntry, hnegative]
  split <;> rfl

theorem textEntry_congr (e : Env) (q : Params) (s : Screen) (id : ℤ) {data data' : OsdData}
    (hx : data.originX = data'.originX) (hy : data.originY = data'.originY)
    (hfont : data.fontSize = data'.fontSize) :
    (textEntry e q s id data).2 = (textEntry e q s id data').2 := by
  simp only [textEntry, textRect, OsdData.negative, hx, hy, hfont]
  split <;> rfl

/-- **What an entry is shown as** does not depend on the entries before it. -/
theorem initEntry_congr (e : Env) (q : Params) (s : Screen) (id : ℤ) (data data' : OsdData) :
    (initEntry e q s id data).2 = (initEntry e q s id data').2 := by
  unfold initEntry
  cases osdType q id with
  | none => rfl
  | some type =>
    dsimp only
    split
    · rfl
    · split
      · rfl
      · split
        · exact maskEntry_congr e q s id rfl rfl
        · split
          · exact textEntry_congr e q s id rfl rfl rfl
          · split <;> rfl

theorem restartEntry_congr (e : Env) (q : Params) (s : Screen) (id : ℤ) (data data' : OsdData) :
    (restartEntry e q s id data).2 = (restartEntry e q s id data').2 := by
  unfold restartEntry
  cases osdType q id with
  | none => rfl
  | some type =>
    dsimp only
    split
    · rfl
    · split
      · rfl
      · exact maskEntry_congr e q s id rfl rfl

/-- An entry for the date and the time is not shown as a region. -/
theorem initEntry_dateTime {e : Env} {q : Params} {s : Screen} {id : ℤ} {data : OsdData} {k : Kind}
    (h : (initEntry e q s id data).2 = some (.region k)) :
    osdType q id ≠ some (lit "dateTime") := by
  intro htype
  by_cases h0 : q.int (osdEntry id "enabled") 0 = 0
  · rw [initEntry, htype] at h
    simp [h0] at h
  · rw [(initEntry_time_iff e q s id data).mpr ⟨htype, h0⟩] at h
    cases h

theorem restartEntry_dateTime {e : Env} {q : Params} {s : Screen} {id : ℤ} {data : OsdData}
    {k : Kind} (h : (restartEntry e q s id data).2 = some (.region k)) :
    osdType q id ≠ some (lit "dateTime") := by
  intro htype
  rw [restartEntry, htype] at h
  dsimp only at h
  rw [if_pos (show lit "dateTime" ≠ lit "privacyMask" by decide)] at h
  split at h <;> cases h

/-! ## The entry of the time server -/

theorem foldl_last {P : ℤ → Prop} [DecidablePred P] (ids : List ℤ) (timeId : ℤ) :
    let last := ids.foldl (fun timeId i => if P i then i else timeId) timeId
    (last = timeId ∨ last ∈ ids) ∧ ((P timeId ∨ ∃ i ∈ ids, P i) → P last) := by
  induction ids generalizing timeId with
  | nil => exact ⟨.inl rfl, fun h => h.elim id fun ⟨_, hi, _⟩ => by cases hi⟩
  | cons j ids ih =>
    obtain ⟨hmem, hP⟩ := ih (if P j then j else timeId)
    refine ⟨?_, fun h => hP ?_⟩
    · rcases hmem with hmem | hmem
      · by_cases hj : P j
        · rw [if_pos hj] at hmem
          exact .inr (List.mem_cons.mpr (.inl (by rw [List.foldl_cons, if_pos hj, hmem])))
        · rw [if_neg hj] at hmem
          exact .inl (by rw [List.foldl_cons, if_neg hj, hmem])
      · exact .inr (List.mem_cons_of_mem _ hmem)
    · by_cases hj : P j
      · exact .inl (by rwa [if_pos hj])
      · rw [if_neg hj]
        refine h.imp_right fun ⟨i, hi, hPi⟩ => ?_
        rcases List.mem_cons.mp hi with rfl | hi
        · exact absurd hPi hj
        · exact ⟨i, hi, hPi⟩

theorem osdTimeId_mem (q : Params) : osdTimeId q ∈ slots := by
  rcases (foldl_last (P := fun i => osdType q i = some (lit "dateTime")) slots 0).1 with h | h
  · rw [osdTimeId, h]
    decide
  · exact h

/-- If there is an entry for the date and the time, the time server takes one. -/
theorem osdType_osdTimeId {q : Params} {id : ℤ} (hid : id ∈ slots)
    (h : osdType q id = some (lit "dateTime")) : osdType q (osdTimeId q) = some (lit "dateTime") :=
  (foldl_last (P := fun i => osdType q i = some (lit "dateTime")) slots 0).2 (.inr ⟨id, hid, h⟩)

/-! ## Setters and types -/

/-- The setters of other fields. -/
def Setter.isType : Setter → Bool
  | .type _ _ => true
  | _ => false

/-- What is set under another key does not change a type. -/
theorem osdType_set {p p' : Store} {key : Str} {val : Option Str} {id : Int32}
    (hset : p.set key val = some p')
    (hne : strlwc key (asciiLineSz + 1) ≠ strlwc (osdEntry id.toInt "type") (asciiLineSz + 1)) :
    osdType (params p') id.toInt = osdType (params p) id.toInt := by
  unfold Store.set at hset
  cases hp : p.iniD with
  | null =>
    rw [hp] at hset
    rw [Option.some.inj hset]
  | live d =>
    rw [hp] at hset
    obtain rfl := Option.some.inj hset
    simp only [osdType, params, rkParamGetString, hp, iniparserGetstring, dictionaryGet,
      iniparserSet, lookup_dictionarySet, Function.update_of_ne hne.symm]
  | freed =>
    rw [hp] at hset
    cases hset

/-- The fields that are set, other than the type. -/
def otherFields : List String :=
  ["style", "enabled", "position_x", "position_y", "width", "height"]

/-- **The keys of other fields are other keys.** -/
theorem osdEntry_ne_type {name : String} (hname : name ∈ otherFields) (i j : Int32) :
    strlwc (osdEntry i.toInt name) (asciiLineSz + 1) ≠
      strlwc (osdEntry j.toInt "type") (asciiLineSz + 1) := by
  have hfields : ∀ name ∈ "type" :: otherFields, KeyBytes (lit ":" ++ lit name) ∧
      (lit "osd.").length + (lit ":" ++ lit name).length ≤ 1000 := by decide +kernel
  have htype : ∀ name ∈ otherFields, lit name ≠ lit "type" := by decide +kernel
  have hassoc : ∀ (k : Int32) (name : String), osdEntry k.toInt name =
      lit "osd." ++ decimal k.toInt ++ (lit ":" ++ lit name) := fun k name =>
    List.append_assoc ..
  have hkey : ∀ (k : Int32) (name : String), name ∈ "type" :: otherFields →
      strlwc (osdEntry k.toInt name) (asciiLineSz + 1) =
        lit "osd." ++ decimal k.toInt ++ (lit ":" ++ lit name) := fun k name h => by
    rw [hassoc]
    exact strlwc_numbered (by decide +kernel) (hfields name h).1 (hfields name h).2 k
  rw [hkey i name (List.mem_cons_of_mem _ hname), hkey j "type" (List.mem_cons_self ..)]
  intro h
  refine htype name hname (List.append_cancel_left ((numbered_inj (by decide) ?_ ?_).mp h).2)
  · exact fun c hc => (Option.some.inj hc).symm
  · exact fun c hc => (Option.some.inj hc).symm

theorem osdType_of_setter {p p' : Store} {setter : Setter} (hrun : setter.run p = some p')
    (htype : setter.isType = false) (id : Int32) :
    osdType (params p') id.toInt = osdType (params p) id.toInt := by
  -- a number is set as a text, if it fits
  have hint : ∀ {key : Str} {val : ℤ}, rkParamSetInt p key val = some p' →
      p.set key (some (decimal val)) = some p' := fun h => by
    rw [rkParamSetInt] at h
    split at h
    · exact h
    · cases h
  cases setter with
  | type _ _ => cases htype
  | style i value => exact osdType_set hrun (osdEntry_ne_type (by simp [otherFields]) i id)
  | enabled i value => exact osdType_set (hint hrun) (osdEntry_ne_type (by simp [otherFields]) i id)
  | positionX i value =>
    exact osdType_set (hint hrun) (osdEntry_ne_type (by simp [otherFields]) i id)
  | positionY i value =>
    exact osdType_set (hint hrun) (osdEntry_ne_type (by simp [otherFields]) i id)
  | width i value => exact osdType_set (hint hrun) (osdEntry_ne_type (by simp [otherFields]) i id)
  | height i value => exact osdType_set (hint hrun) (osdEntry_ne_type (by simp [otherFields]) i id)

/-- Setters of other fields leave the entry of the time server. -/
theorem osdTimeId_of_setter {p p' : Store} {setter : Setter} (hrun : setter.run p = some p')
    (htype : setter.isType = false) :
    (∀ id ∈ slots, osdType (params p') id = osdType (params p) id) ∧
      osdTimeId (params p') = osdTimeId (params p) := by
  have hsame : ∀ id ∈ slots, osdType (params p') id = osdType (params p) id := by
    intro id hid
    have hint : ∀ id ∈ slots, (Int32.ofInt id).toInt = id := by decide
    rw [← hint id hid]
    exact osdType_of_setter hrun htype _
  refine ⟨hsame, ?_⟩
  unfold osdTimeId
  exact List.foldl_ext _ _ _ fun timeId id hid => by rw [hsame id hid]

end RkIpc.Osd
