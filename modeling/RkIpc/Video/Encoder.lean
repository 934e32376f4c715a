import Mathlib.Logic.Function.Basic
import RkIpc.Param.Keys
import RkIpc.Param.Store

/-!
# The encoder and its parameters

The parameters of a stream are kept twice: in the section `video.N`, and in the attributes of an
encoder channel and of the capture channel before it. A setter changes some of both, and a change of
the rate-control mode writes all of them again. `RK_MPI_VENC_GetChnAttr`, `RK_MPI_VENC_SetChnAttr`
and their counterparts for the capture read and write one register for each channel. The block for
the rate control is a union, and its four views begin with the same members.

## Main definitions

* `VencChnAttr`, `FrameRate`, `Encoder`: the registers, and the store
* `rkVideoSetGop`, `rkVideoSetMaxRate`, `rkVideoSetRcMode`, `rkVideoSetFrameRate`: the setters
* `Settings`, `Stores`: the parameters of a stream
* `Agrees`: the registers are what the parameters say
* `EncoderCall.Positive`: numbers of at most seven digits

## Main results

* `stores_set`: what a parameter that was set changes
* `agrees_of_calls`: setters in any order keep the agreement, and return
-/

namespace RkIpc.Video

open Text Param

/-! ## Parameters -/

/-- The parameters of a stream that are numbers. -/
inductive Number
  | gop
  | maxRate
  | midRate
  | minRate
  | dstFrameRateDen
  | dstFrameRateNum
deriving DecidableEq, Repr

/-- The parameters of a stream. -/
inductive Item
  | outputDataType
  | rcMode
  | number (n : Number)
deriving DecidableEq, Repr

/-- The end of a key. -/
def Item.suffix : Item → Str
  | .outputDataType => lit ":output_data_type"
  | .rcMode => lit ":rc_mode"
  | .number .gop => lit ":gop"
  | .number .maxRate => lit ":max_rate"
  | .number .midRate => lit ":mid_rate"
  | .number .minRate => lit ":min_rate"
  | .number .dstFrameRateDen => lit ":dst_frame_rate_den"
  | .number .dstFrameRateNum => lit ":dst_frame_rate_num"

/-- `snprintf(entry, 127, "video.%d:…", stream_id)`. -/
def videoEntry (id : Int32) (k : Item) : Str := lit "video." ++ decimal id.toInt ++ k.suffix

/-- `"isp.0.adjustment:fps"`. -/
def fpsEntry : Str := lit "isp.0.adjustment:fps"

/-- `rk_param_get_string`, for a string that is compared next: there is no result for a null
pointer. -/
def getString (p : Store) (entry : Str) (default : Str) : Option Str :=
  (rkParamGetString p entry (some default)).join

/-- `tmp_output_data_type`. -/
def tmpOutputDataType (p : Store) (id : Int32) : Option Str :=
  getString p (videoEntry id .outputDataType) (lit "H.264")

/-- `tmp_rc_mode`. -/
def tmpRcMode (p : Store) (id : Int32) : Option Str :=
  getString p (videoEntry id .rcMode) (lit "CBR")

/-- A number of a stream. -/
def getNumber (p : Store) (id : Int32) (n : Number) : Option ℤ :=
  rkParamGetInt p (videoEntry id (.number n)) (-1)

/-- A number of a stream is set. -/
def setNumber (p : Store) (id : Int32) (n : Number) (value : ℤ) : Option Store :=
  rkParamSetInt p (videoEntry id (.number n)) value

/-- `sensor_fps`. -/
def sensorFps (p : Store) : Option ℤ := rkParamGetInt p fpsEntry 30

/-! ## Registers -/

/-- `RK_VIDEO_ID_AVC` and `RK_VIDEO_ID_HEVC`. -/
inductive Codec
  | avc
  | hevc
deriving DecidableEq, Repr

/-- The codec that `output_data_type` names. -/
def codecOf (outputDataType : Str) : Option Codec :=
  if outputDataType = lit "H.264" then some .avc
  else if outputDataType = lit "H.265" then some .hevc
  else none

/-- `VENC_RC_MODE_H264CBR`, `VENC_RC_MODE_H264VBR` and their counterparts for H.265. -/
structure RcMode where
  codec : Codec
  cbr : Bool
deriving DecidableEq, Repr

/-- **The attributes of an encoder channel**, with the members that the views of the rate control
share. Types and modes that are not used here are `none`. -/
structure VencChnAttr where
  enType : Option Codec
  enRcMode : Option RcMode
  u32Gop : UInt32
  u32SrcFrameRateNum : UInt32
  u32SrcFrameRateDen : UInt32
  fr32DstFrameRateNum : UInt32
  fr32DstFrameRateDen : UInt32
  u32BitRate : UInt32
  u32MaxBitRate : UInt32
  u32MinBitRate : UInt32
deriving DecidableEq, Repr

/-- `stFrameRate` of a capture channel. -/
structure FrameRate where
  s32SrcFrameRate : ℤ
  s32DstFrameRate : ℤ
deriving DecidableEq, Repr

/-- **The store and the registers** of the channels; the capture channels are those of
`pipe_id_`. -/
structure Encoder where
  store : Store
  venc : Int32 → VencChnAttr
  vi : Int32 → FrameRate

/-! ## Setters -/

/-- **`rk_video_set_gop`**. -/
def rkVideoSetGop (e : Encoder) (id : Int32) (value : ℤ) : Option (ℤ × Encoder) := do
  let dataType ← tmpOutputDataType e.store id
  -- which view is written
  let _ ← tmpRcMode e.store id
  match codecOf dataType with
  | none => some (-1, e)
  | some _ =>
    let store ← setNumber e.store id .gop value
    some (0, { e with
      store
      venc := Function.update e.venc id { e.venc id with u32Gop := .ofInt value } })

/-- The bit rates of a view: for a constant rate there is one. -/
def VencChnAttr.withRates (a : VencChnAttr) (cbr : Bool) (max mid min : ℤ) : VencChnAttr :=
  { a with
    u32MinBitRate := if cbr then a.u32MinBitRate else .ofInt min
    u32BitRate := .ofInt (if cbr then max else mid)
    u32MaxBitRate := if cbr then a.u32MaxBitRate else .ofInt max }

/-- `strcmp(rc_mode, "CBR")`. -/
def isCbr (rcMode : Str) : Bool := rcMode = lit "CBR"

/-- **`rk_video_set_max_rate`**. -/
def rkVideoSetMaxRate (e : Encoder) (id : Int32) (value : ℤ) : Option (ℤ × Encoder) := do
  let dataType ← tmpOutputDataType e.store id
  let rcMode ← tmpRcMode e.store id
  match codecOf dataType with
  | none => some (-1, e)
  | some _ =>
    let a := (e.venc id).withRates (isCbr rcMode) value (value.tdiv 3 * 2) (value.tdiv 3)
    let store ← setNumber e.store id .maxRate value
    let store ← setNumber store id .midRate (value.tdiv 3 * 2)
    let store ← setNumber store id .minRate (value.tdiv 3)
    some (0, { e with store, venc := Function.update e.venc id a })

/-- `sscanf(value, "%d", &num)`, or `sscanf(value, "%d/%d", &num, &den)` if there is a slash. There
is no result if a variable is not set. -/
def scanFrameRate (value : Str) : Option (ℤ × ℤ) :=
  if 47 ∉ value then (scanInt value).map fun r => (r.1, 1)
  else
    match scanInt value with
    | some (num, 47 :: s) => (scanInt s).map fun r => (num, r.1)
    | _ => none

/-- The text of a frame rate. -/
def frameRateText (num den : ℤ) : Str :=
  if den = 1 then decimal num else decimal num ++ 47 :: decimal den

/-- `rk_video_get_frame_rate`, into a buffer of `malloc(20)`. -/
def rkVideoGetFrameRate (e : Encoder) (id : Int32) : Option Str := do
  let den ← getNumber e.store id .dstFrameRateDen
  let num ← getNumber e.store id .dstFrameRateNum
  if (frameRateText num den).length + 1 ≤ 20 then some (frameRateText num den) else none

/-- **`rk_video_set_frame_rate`**: a rate that is not an integer is left to the encoder, and any
other to the capture. -/
def rkVideoSetFrameRate (e : Encoder) (id : Int32) (value : Str) : Option (ℤ × Encoder) := do
  let (num, den) ← scanFrameRate (cstr value)
  let fps ← sensorFps e.store
  let dataType ← tmpOutputDataType e.store id
  -- which view is written
  let _ ← tmpRcMode e.store id
  match codecOf dataType with
  | none => some (-1, e)
  | some codec =>
    let a := { e.venc id with
      enType := some codec
      u32SrcFrameRateDen := .ofInt (if den ≠ 1 then 1 else den)
      u32SrcFrameRateNum := .ofInt (if den ≠ 1 then fps else num)
      fr32DstFrameRateDen := .ofInt den
      fr32DstFrameRateNum := .ofInt num }
    let store ← setNumber e.store id .dstFrameRateDen den
    let store ← setNumber store id .dstFrameRateNum num
    some (0, {
      store
      venc := Function.update e.venc id a
      vi := Function.update e.vi id ⟨fps, if den ≠ 1 then fps else num⟩ })

/-- `rk_video_reset_frame_rate`. -/
def rkVideoResetFrameRate (e : Encoder) (id : Int32) : Option (ℤ × Encoder) := do
  let value ← rkVideoGetFrameRate e id
  let (_, e) ← rkVideoSetFrameRate e id value
  some (0, e)

/-- A rate that is read only if the mode is not `CBR`. -/
def variableRate (p : Store) (id : Int32) (cbr : Bool) (n : Number) : Option ℤ :=
  if cbr then some 0 else getNumber p id n

/-- **`rk_video_set_RC_mode`**. -/
def rkVideoSetRcMode (e : Encoder) (id : Int32) (value : Str) : Option (ℤ × Encoder) := do
  let dataType ← tmpOutputDataType e.store id
  match codecOf dataType with
  | none => some (-1, e)
  | some codec =>
    let cbr := isCbr (cstr value)
    let gop ← getNumber e.store id .gop
    let max ← getNumber e.store id .maxRate
    let mid ← variableRate e.store id cbr .midRate
    let min ← variableRate e.store id cbr .minRate
    let a := { (e.venc id).withRates cbr max mid min with
      enRcMode := some ⟨codec, cbr⟩
      u32Gop := .ofInt gop }
    let store ← rkParamSetString e.store (videoEntry id .rcMode) (some value)
    let (_, e) ← rkVideoResetFrameRate
      { e with store, venc := Function.update e.venc id a } id
    some (0, e)

/-- A call of a setter. -/
inductive EncoderCall
  | setGop (id : Int32) (value : ℤ)
  | setMaxRate (id : Int32) (value : ℤ)
  | setRcMode (id : Int32) (value : Str)
  | setFrameRate (id : Int32) (value : Str)

/-- The stream it is about. -/
def EncoderCall.id : EncoderCall → Int32
  | .setGop id _ | .setMaxRate id _ | .setRcMode id _ | .setFrameRate id _ => id

/-- The call, and what it leaves. -/
def Encoder.call (e : Encoder) : EncoderCall → Option Encoder
  | .setGop id value => (rkVideoSetGop e id value).map Prod.snd
  | .setMaxRate id value => (rkVideoSetMaxRate e id value).map Prod.snd
  | .setRcMode id value => (rkVideoSetRcMode e id value).map Prod.snd
  | .setFrameRate id value => (rkVideoSetFrameRate e id value).map Prod.snd

/-- A positive number of at most seven digits. -/
def SevenDigits (v : ℤ) : Prop := 1 ≤ v ∧ v ≤ 9999999

instance (v : ℤ) : Decidable (SevenDigits v) := inferInstanceAs (Decidable (_ ∧ _))

/-- **The numbers are positive, with at most seven digits.** -/
def EncoderCall.Positive : EncoderCall → Prop
  | .setGop _ value | .setMaxRate _ value => SevenDigits value
  | .setRcMode _ _ => True
  | .setFrameRate _ value =>
    ∃ r ∈ scanFrameRate (cstr value), SevenDigits r.1 ∧ SevenDigits r.2

instance : (c : EncoderCall) → Decidable c.Positive
  | .setGop _ value | .setMaxRate _ value => inferInstanceAs (Decidable (SevenDigits value))
  | .setRcMode _ _ => inferInstanceAs (Decidable True)
  | .setFrameRate _ value => inferInstanceAs
    (Decidable (∃ r ∈ scanFrameRate (cstr value), SevenDigits r.1 ∧ SevenDigits r.2))

/-! ## Agreement -/

/-- **The parameters of a stream**, and the frame rate of the sensor. -/
structure Settings where
  outputDataType : Str
  rcMode : Str
  number : Number → ℤ
  fps : ℤ

/-- The parameters as the store has them. -/
structure Stores (p : Store) (id : Int32) (v : Settings) : Prop where
  live : p.Live
  outputDataType : tmpOutputDataType p id = some v.outputDataType
  rcMode : tmpRcMode p id = some v.rcMode
  number : ∀ n, getNumber p id n = some (v.number n)
  fps : sensorFps p = some v.fps

/-- The rate at which frames leave the capture: an integer is the rate itself, and for any other the
capture leaves all frames to the encoder. -/
def Settings.captured (v : Settings) : ℤ :=
  if v.number .dstFrameRateDen = 1 then v.number .dstFrameRateNum else v.fps

/-- The rates of the settings are in order. -/
def Settings.Ordered (v : Settings) : Prop :=
  v.number .minRate ≤ v.number .midRate ∧ v.number .midRate ≤ v.number .maxRate

/-- **The attributes are what the parameters say.** -/
structure Follows (a : VencChnAttr) (r : FrameRate) (v : Settings) : Prop where
  mode : ∃ codec, codecOf v.outputDataType = some codec ∧
    a.enRcMode = some ⟨codec, isCbr v.rcMode⟩
  gop : a.u32Gop = .ofInt (v.number .gop)
  cbr : isCbr v.rcMode = true → a.u32BitRate = .ofInt (v.number .maxRate)
  vbr : isCbr v.rcMode = false → a.u32MinBitRate = .ofInt (v.number .minRate) ∧
    a.u32BitRate = .ofInt (v.number .midRate) ∧ a.u32MaxBitRate = .ofInt (v.number .maxRate)
  source : a.u32SrcFrameRateNum = .ofInt v.captured ∧ a.u32SrcFrameRateDen = 1
  destination : a.fr32DstFrameRateNum = .ofInt (v.number .dstFrameRateNum) ∧
    a.fr32DstFrameRateDen = .ofInt (v.number .dstFrameRateDen)
  capture : r = ⟨v.fps, v.captured⟩

/-- **The registers of a stream agree with its parameters**, and the rates are in order. -/
structure Encoder.Agrees (e : Encoder) (id : Int32) (v : Settings) : Prop where
  stores : Stores e.store id v
  ordered : v.Ordered
  follows : Follows (e.venc id) (e.vi id) v

/-- The rates of an encoder channel are in order. -/
def VencChnAttr.Ordered (a : VencChnAttr) : Prop :=
  a.u32MinBitRate ≤ a.u32BitRate ∧ a.u32BitRate ≤ a.u32MaxBitRate

/-- A number whose text has at most seven characters. -/
def Short (n : ℤ) : Prop := -999999 ≤ n ∧ n ≤ 9999999

instance (n : ℤ) : Decidable (Short n) := inferInstanceAs (Decidable (_ ∧ _))

/-- The frame rate has a short text. -/
def Settings.Fits (v : Settings) : Prop :=
  Short (v.number .dstFrameRateDen) ∧ Short (v.number .dstFrameRateNum)

/-! ## Keys -/

theorem keyBytes_suffix (k : Item) : KeyBytes k.suffix := by
  rcases k with _ | _ | n
  · decide
  · decide
  · cases n <;> decide

theorem length_suffix (k : Item) : (lit "video.").length + k.suffix.length ≤ 1000 := by
  rcases k with _ | _ | n
  · decide
  · decide
  · cases n <;> decide

theorem head_suffix (k : Item) : ∀ c ∈ k.suffix.head?, c = colon := by
  rcases k with _ | _ | n
  · decide +kernel
  · decide +kernel
  · cases n <;> decide +kernel

theorem suffix_injective : Function.Injective Item.suffix := by
  have hnumber : ∀ m n : Number, Item.suffix (.number m) = Item.suffix (.number n) → m = n := by
    intro m n
    cases m <;> cases n <;> decide
  have hother : ∀ n : Number, Item.suffix (.number n) ≠ Item.suffix .outputDataType ∧
      Item.suffix (.number n) ≠ Item.suffix .rcMode := by
    intro n
    cases n <;> decide
  rintro (_ | _ | m) (_ | _ | n) h
  · rfl
  · exact absurd h (by decide)
  · exact absurd h.symm (hother n).1
  · exact absurd h (by decide)
  · rfl
  · exact absurd h.symm (hother n).2
  · exact absurd h (hother m).1
  · exact absurd h (hother m).2
  · rw [hnumber m n h]

/-- A key of a stream is not changed by `strlwc`. -/
theorem strlwc_videoEntry (id : Int32) (k : Item) :
    strlwc (videoEntry id k) (asciiLineSz + 1) = videoEntry id k :=
  strlwc_numbered (by decide) (keyBytes_suffix k) (length_suffix k) id

theorem strlwc_fpsEntry : strlwc fpsEntry (asciiLineSz + 1) = fpsEntry := by
  have hbytes : KeyBytes fpsEntry := by decide
  exact strlwc_eq_self hbytes.zero_notMem hbytes.lower_eq (by decide)

/-- **The keys of streams are distinct.** -/
theorem videoEntry_inj {i j : Int32} {k l : Item} :
    videoEntry i k = videoEntry j l ↔ i = j ∧ k = l := by
  rw [videoEntry, videoEntry, numbered_inj (by decide) (head_suffix k) (head_suffix l),
    suffix_injective.eq_iff, Int32.toInt_inj]

theorem fpsEntry_ne (id : Int32) (k : Item) : fpsEntry ≠ videoEntry id k := by
  intro h
  have hhead := congrArg List.head? h
  rw [videoEntry, List.append_assoc, List.head?_append_of_ne_nil _ (by decide)] at hhead
  exact absurd hhead (by decide)

/-! ## Setting a parameter -/

/-- The settings, with one of them written. -/
def Settings.write (v : Settings) (k : Item) (s : Str) : Settings :=
  match k with
  | .outputDataType => { v with outputDataType := s }
  | .rcMode => { v with rcMode := s }
  | .number n => { v with number := Function.update v.number n (strtol s) }

/-- The settings, with a number of them written. -/
def Settings.writeNumber (v : Settings) (n : Number) (value : ℤ) : Settings :=
  { v with number := Function.update v.number n value }

section Set

variable {p p' : Store} {i j : Int32} {v : Settings}

theorem getString_set (hp : p.Live) {k l : Item} {s : Str}
    (hset : p.set (videoEntry j k) (some s) = some p') (default : Str) :
    getString p' (videoEntry i l) default =
      if i = j ∧ l = k then some (cstr s) else getString p (videoEntry i l) default := by
  rw [getString, getString, rkParamGetString_set hp hset, strlwc_videoEntry, strlwc_videoEntry]
  simp only [videoEntry_inj]
  split <;> rfl

theorem getNumber_set (hp : p.Live) {k : Item} {s : Str}
    (hset : p.set (videoEntry j k) (some s) = some p') (n : Number) :
    getNumber p' i n =
      if i = j ∧ .number n = k then some (strtol (cstr s)) else getNumber p i n := by
  rw [getNumber, getNumber, rkParamGetInt_set hp hset, strlwc_videoEntry, strlwc_videoEntry]
  simp only [videoEntry_inj]

/-- **A parameter that was set** is the one that changes. -/
theorem stores_set (h : Stores p i v) {k : Item} {s : Str}
    (hset : p.set (videoEntry j k) (some s) = some p') :
    Stores p' i (if i = j then v.write k (cstr s) else v) where
  live := h.live.of_set hset
  outputDataType := by
    rw [tmpOutputDataType, getString_set h.live hset, ← tmpOutputDataType, h.outputDataType]
    by_cases hij : i = j
    · cases k <;> simp [hij, Settings.write]
    · simp [hij]
  rcMode := by
    rw [tmpRcMode, getString_set h.live hset, ← tmpRcMode, h.rcMode]
    by_cases hij : i = j
    · cases k <;> simp [hij, Settings.write]
    · simp [hij]
  number n := by
    rw [getNumber_set h.live hset, h.number n]
    by_cases hij : i = j
    · cases k with
      | number m => by_cases hn : n = m <;> simp [hij, hn, Settings.write]
      | _ => simp [hij, Settings.write]
    · simp [hij]
  fps := by
    rw [sensorFps, rkParamGetInt_set h.live hset, strlwc_fpsEntry, strlwc_videoEntry,
      if_neg (fpsEntry_ne j k), ← sensorFps, h.fps]
    split
    · cases k <;> rfl
    · rfl

theorem stores_setNumber (h : Stores p i v) {n : Number} {value : ℤ}
    (hset : setNumber p j n value = some p') :
    Stores p' i (if i = j then v.writeNumber n value else v) := by
  obtain ⟨hval, hset⟩ := rkParamSetInt_eq_some_iff.mp hset
  have hread : strtol (decimal value) = value := strtol_decimal ⟨by omega, by omega⟩
  have hstores := stores_set h hset
  rwa [cstr_decimal, Settings.write, hread] at hstores

theorem exists_setNumber (h : Stores p i v) (j : Int32) (n : Number) {value : ℤ}
    (hval : Short value) : ∃ p', setNumber p j n value = some p' := by
  obtain ⟨p', hset⟩ := h.live.exists_set (videoEntry j (.number n)) (some (decimal value))
  exact ⟨p', rkParamSetInt_eq_some_iff.mpr ⟨hval, hset⟩⟩

/-- A number that is read is in the range of an `int`. -/
theorem Stores.inRange (h : Stores p i v) (n : Number) : Wire.InRange (v.number n) := by
  have hget := h.number n
  unfold getNumber rkParamGetInt at hget
  obtain ⟨d, hd⟩ := h.live
  rw [hd] at hget
  simp only [iniparserGetint] at hget
  split at hget
  · rw [← Option.some.inj hget]
    decide
  · cases hget
  · rw [← Option.some.inj hget]
    exact inRange_strtol _

end Set

/-! ## What a call keeps -/

/-- **What a call keeps**, for the settings of a stream before and after it. -/
structure Kept (e e' : Encoder) (id : Int32) (v v' : Settings) : Prop where
  stores : Stores e'.store id v'
  fps : v'.fps = v.fps
  fits : v.Fits → v'.Fits
  ordered : v.Ordered → v'.Ordered
  nonneg : 0 ≤ v.number .minRate → 0 ≤ v'.number .minRate
  follows : Follows (e.venc id) (e.vi id) v → Follows (e'.venc id) (e'.vi id) v'

namespace Kept

variable {e e₁ e₂ : Encoder} {i : Int32} {v v₁ v₂ : Settings}

/-- The registers of the stream and its settings are as they were. -/
theorem of_eq (hstores : Stores e₁.store i v) (hvenc : e₁.venc i = e.venc i)
    (hvi : e₁.vi i = e.vi i) : Kept e e₁ i v v where
  stores := hstores
  fps := rfl
  fits := id
  ordered := id
  nonneg := id
  follows h := by rwa [hvenc, hvi]

theorem refl (h : Stores e.store i v) : Kept e e i v v := of_eq h rfl rfl

theorem trans (h₁ : Kept e e₁ i v v₁) (h₂ : Kept e₁ e₂ i v₁ v₂) : Kept e e₂ i v v₂ where
  stores := h₂.stores
  fps := h₂.fps.trans h₁.fps
  fits h := h₂.fits (h₁.fits h)
  ordered h := h₂.ordered (h₁.ordered h)
  nonneg h := h₂.nonneg (h₁.nonneg h)
  follows h := h₂.follows (h₁.follows h)

end Kept

section Calls

variable {e e' : Encoder} {i j : Int32} {v : Settings} {ret : ℤ}

theorem Follows.withGop {a : VencChnAttr} {r : FrameRate} (h : Follows a r v) (value : ℤ) :
    Follows { a with u32Gop := .ofInt value } r (v.writeNumber .gop value) where
  mode := h.mode
  gop := rfl
  cbr := h.cbr
  vbr := h.vbr
  source := h.source
  destination := h.destination
  capture := h.capture

theorem rkVideoSetGop_kept (h : Stores e.store i v) {value : ℤ}
    (hr : rkVideoSetGop e j value = some (ret, e')) : ∃ v', Kept e e' i v v' := by
  obtain ⟨dataType, -, hr⟩ := Option.bind_eq_some_iff.mp hr
  obtain ⟨rcMode, -, hr⟩ := Option.bind_eq_some_iff.mp hr
  cases hcodec : codecOf dataType with
  | none =>
    rw [hcodec] at hr
    cases hr
    exact ⟨v, .refl h⟩
  | some codec =>
    rw [hcodec] at hr
    obtain ⟨p, hp, hr⟩ := Option.bind_eq_some_iff.mp hr
    cases hr
    have hstores := stores_setNumber h hp
    by_cases hij : i = j
    · subst hij
      rw [if_pos rfl] at hstores
      refine ⟨_, hstores, rfl, id, id, id, fun hf => ?_⟩
      dsimp only
      rw [Function.update_self]
      exact hf.withGop value
    · rw [if_neg hij] at hstores
      exact ⟨v, .of_eq hstores (Function.update_of_ne hij ..) rfl⟩

/-- `value`, two thirds of it and one third of it. -/
theorem thirds {value : ℤ} (h : SevenDigits value) :
    0 ≤ value.tdiv 3 ∧ value.tdiv 3 ≤ value.tdiv 3 * 2 ∧ value.tdiv 3 * 2 ≤ value := by
  obtain ⟨hlo, hhi⟩ := h
  rw [Int.tdiv_eq_ediv_of_nonneg (by omega)]
  omega

/-- The settings, with the rates written. -/
def Settings.writeRates (v : Settings) (max mid min : ℤ) : Settings :=
  ((v.writeNumber .maxRate max).writeNumber .midRate mid).writeNumber .minRate min

theorem Follows.withRates {a : VencChnAttr} {r : FrameRate} (h : Follows a r v) (max mid min : ℤ) :
    Follows (a.withRates (isCbr v.rcMode) max mid min) r (v.writeRates max mid min) where
  mode := h.mode
  gop := h.gop
  cbr hcbr := by
    rw [VencChnAttr.withRates, show isCbr v.rcMode = true from hcbr]
    rfl
  vbr hvbr := by
    rw [VencChnAttr.withRates, show isCbr v.rcMode = false from hvbr]
    exact ⟨rfl, rfl, rfl⟩
  source := h.source
  destination := h.destination
  capture := h.capture

theorem rkVideoSetMaxRate_kept (h : Stores e.store i v) {value : ℤ} (hval : SevenDigits value)
    (hr : rkVideoSetMaxRate e j value = some (ret, e')) : ∃ v', Kept e e' i v v' := by
  obtain ⟨dataType, -, hr⟩ := Option.bind_eq_some_iff.mp hr
  obtain ⟨rcMode, hrc, hr⟩ := Option.bind_eq_some_iff.mp hr
  cases hcodec : codecOf dataType with
  | none =>
    rw [hcodec] at hr
    cases hr
    exact ⟨v, .refl h⟩
  | some codec =>
    rw [hcodec] at hr
    obtain ⟨p, hp, hr⟩ := Option.bind_eq_some_iff.mp hr
    obtain ⟨p₁, hp₁, hr⟩ := Option.bind_eq_some_iff.mp hr
    obtain ⟨p₂, hp₂, hr⟩ := Option.bind_eq_some_iff.mp hr
    cases hr
    have hstores := stores_setNumber (stores_setNumber (stores_setNumber h hp) hp₁) hp₂
    by_cases hij : i = j
    · subst hij
      rw [if_pos rfl, if_pos rfl, if_pos rfl] at hstores
      obtain rfl := Option.some.inj (h.rcMode.symm.trans hrc)
      obtain ⟨hmin, hmid, hmax⟩ := thirds hval
      refine ⟨v.writeRates _ _ _, hstores, rfl, id, fun _ => ⟨hmid, hmax⟩, fun _ => hmin,
        fun hf => ?_⟩
      dsimp only
      rw [Function.update_self]
      exact hf.withRates _ _ _
    · rw [if_neg hij, if_neg hij, if_neg hij] at hstores
      exact ⟨v, .of_eq hstores (Function.update_of_ne hij ..) rfl⟩

theorem rkVideoSetFrameRate_kept (h : Stores e.store i v) {value : Str}
    (hval : i = j → ∀ r ∈ scanFrameRate (cstr value), v.Fits → Short r.2 ∧ Short r.1)
    (hr : rkVideoSetFrameRate e j value = some (ret, e')) : ∃ v', Kept e e' i v v' := by
  obtain ⟨⟨num, den⟩, hscan, hr⟩ := Option.bind_eq_some_iff.mp hr
  obtain ⟨fps, hfps, hr⟩ := Option.bind_eq_some_iff.mp hr
  obtain ⟨dataType, -, hr⟩ := Option.bind_eq_some_iff.mp hr
  obtain ⟨rcMode, -, hr⟩ := Option.bind_eq_some_iff.mp hr
  cases hcodec : codecOf dataType with
  | none =>
    rw [hcodec] at hr
    cases hr
    exact ⟨v, .refl h⟩
  | some codec =>
    rw [hcodec] at hr
    obtain ⟨p, hp, hr⟩ := Option.bind_eq_some_iff.mp hr
    obtain ⟨p₁, hp₁, hr⟩ := Option.bind_eq_some_iff.mp hr
    cases hr
    have hstores := stores_setNumber (stores_setNumber h hp) hp₁
    by_cases hij : i = j
    · subst hij
      rw [if_pos rfl, if_pos rfl] at hstores
      obtain rfl := Option.some.inj (h.fps.symm.trans hfps)
      refine ⟨_, hstores, rfl, hval rfl _ hscan, id, id, fun hf => ?_⟩
      dsimp only
      rw [Function.update_self, Function.update_self]
      have hcaptured : ((v.writeNumber .dstFrameRateDen den).writeNumber .dstFrameRateNum
          num).captured = if den ≠ 1 then v.fps else num := by
        rw [ite_not]
        rfl
      have hden : (if den ≠ 1 then 1 else den) = 1 := by
        split <;> omega
      refine ⟨hf.mode, hf.gop, hf.cbr, hf.vbr, ⟨by rw [hcaptured], ?_⟩, ⟨rfl, rfl⟩, ?_⟩
      · dsimp only
        rw [hden]
        rfl
      · rw [hcaptured]
        rfl
    · rw [if_neg hij, if_neg hij] at hstores
      exact ⟨v, .of_eq hstores (Function.update_of_ne hij ..) (Function.update_of_ne hij ..)⟩

theorem scanFrameRate_text {num den : ℤ} (hnum : Wire.InRange num) (hden : Wire.InRange den) :
    scanFrameRate (cstr (frameRateText num den)) = some (num, den) := by
  unfold frameRateText
  have hslash : ∀ n : ℤ, 47 ∉ decimal n := by
    intro n hmem
    rcases isDigit_or_minus_of_mem_decimal hmem with h | h
    · exact absurd h (by decide)
    · exact absurd h (by decide)
  by_cases h1 : den = 1
  · have hscan := scanInt_decimal hnum (s := []) nofun
    rw [List.append_nil] at hscan
    rw [if_pos h1, cstr_decimal, scanFrameRate, if_pos (hslash num), hscan, h1]
    rfl
  · have hscan := scanInt_decimal hnum (s := 47 :: decimal den) fun c hc => by
      obtain rfl : 47 = c := by simpa using hc
      decide
    have hscan' := scanInt_decimal hden (s := []) nofun
    rw [List.append_nil] at hscan'
    have h0 : 0 ∉ decimal num ++ 47 :: decimal den := by
      simp [(keyBytes_decimal num).zero_notMem, (keyBytes_decimal den).zero_notMem]
    rw [if_neg h1, cstr_eq_self h0, scanFrameRate, if_neg (by simp), hscan]
    change (scanInt (decimal den)).map _ = _
    rw [hscan']
    rfl

/-- The frame rate that is read is the one that is stored. -/
theorem rkVideoGetFrameRate_scan (h : Stores e.store j v) {value : Str}
    (hget : rkVideoGetFrameRate e j = some value) :
    scanFrameRate (cstr value) = some (v.number .dstFrameRateNum, v.number .dstFrameRateDen) := by
  obtain ⟨den, hden, hget⟩ := Option.bind_eq_some_iff.mp hget
  obtain ⟨num, hnum, hget⟩ := Option.bind_eq_some_iff.mp hget
  obtain rfl := Option.some.inj ((h.number _).symm.trans hden)
  obtain rfl := Option.some.inj ((h.number _).symm.trans hnum)
  split at hget
  · rw [← Option.some.inj hget]
    exact scanFrameRate_text (h.inRange _) (h.inRange _)
  · cases hget

theorem rkVideoResetFrameRate_kept (h : Stores e.store i v)
    (hr : rkVideoResetFrameRate e j = some (ret, e')) : ∃ v', Kept e e' i v v' := by
  obtain ⟨value, hget, hr⟩ := Option.bind_eq_some_iff.mp hr
  obtain ⟨⟨ret, e₁⟩, hset, hr⟩ := Option.bind_eq_some_iff.mp hr
  cases hr
  refine rkVideoSetFrameRate_kept h (fun hij r hscan hfits => ?_) hset
  subst hij
  rw [rkVideoGetFrameRate_scan h hget] at hscan
  obtain rfl := Option.some.inj hscan
  exact hfits

theorem Follows.withMode {a : VencChnAttr} {r : FrameRate} (h : Follows a r v) {s : Str}
    {codec : Codec} (hcodec : codecOf v.outputDataType = some codec) {mid min : ℤ}
    (hvbr : isCbr s = false → mid = v.number .midRate ∧ min = v.number .minRate) :
    Follows { a.withRates (isCbr s) (v.number .maxRate) mid min with
      enRcMode := some ⟨codec, isCbr s⟩
      u32Gop := .ofInt (v.number .gop) } r { v with rcMode := s } where
  mode := ⟨codec, hcodec, rfl⟩
  gop := rfl
  cbr hcbr := by
    rw [VencChnAttr.withRates, show isCbr s = true from hcbr]
    rfl
  vbr hvbr' := by
    obtain ⟨rfl, rfl⟩ := hvbr hvbr'
    rw [VencChnAttr.withRates, show isCbr s = false from hvbr']
    exact ⟨rfl, rfl, rfl⟩
  source := h.source
  destination := h.destination
  capture := h.capture

theorem rkVideoSetRcMode_kept (h : Stores e.store i v) {value : Str}
    (hr : rkVideoSetRcMode e j value = some (ret, e')) : ∃ v', Kept e e' i v v' := by
  obtain ⟨dataType, hdata, hr⟩ := Option.bind_eq_some_iff.mp hr
  cases hcodec : codecOf dataType with
  | none =>
    rw [hcodec] at hr
    cases hr
    exact ⟨v, .refl h⟩
  | some codec =>
    rw [hcodec] at hr
    obtain ⟨gop, hgop, hr⟩ := Option.bind_eq_some_iff.mp hr
    obtain ⟨max, hmax, hr⟩ := Option.bind_eq_some_iff.mp hr
    obtain ⟨mid, hmid, hr⟩ := Option.bind_eq_some_iff.mp hr
    obtain ⟨min, hmin, hr⟩ := Option.bind_eq_some_iff.mp hr
    obtain ⟨p, hp, hr⟩ := Option.bind_eq_some_iff.mp hr
    obtain ⟨⟨ret, e₁⟩, hreset, hr⟩ := Option.bind_eq_some_iff.mp hr
    cases hr
    -- the mode is stored, and then the frame rate is written once more
    have hstores := stores_set h hp
    obtain ⟨v', hkept⟩ := rkVideoResetFrameRate_kept hstores hreset
    refine ⟨v', .trans ?_ hkept⟩
    by_cases hij : i = j
    · subst hij
      rw [if_pos rfl] at hstores ⊢
      obtain rfl := Option.some.inj (h.outputDataType.symm.trans hdata)
      obtain rfl := Option.some.inj ((h.number _).symm.trans hgop)
      obtain rfl := Option.some.inj ((h.number _).symm.trans hmax)
      refine ⟨hstores, rfl, id, id, id, fun hf => ?_⟩
      dsimp only
      rw [Function.update_self]
      refine hf.withMode hcodec fun hvbr => ?_
      rw [hvbr] at hmid hmin
      exact ⟨Option.some.inj (hmid.symm.trans (h.number _)),
        Option.some.inj (hmin.symm.trans (h.number _))⟩
    · rw [if_neg hij] at hstores ⊢
      exact .of_eq hstores (Function.update_of_ne hij ..) rfl

theorem SevenDigits.short {n : ℤ} (h : SevenDigits n) : Short n :=
  ⟨le_trans (by decide) h.1, h.2⟩

/-- **A call keeps the agreement**, whatever stream it is about. -/
theorem call_kept (h : Stores e.store i v) {c : EncoderCall} (hpos : c.Positive)
    (hr : e.call c = some e') : ∃ v', Kept e e' i v v' := by
  cases c with
  | setGop j value =>
    obtain ⟨⟨_, e₁⟩, hset, rfl⟩ := Option.map_eq_some_iff.mp hr
    exact rkVideoSetGop_kept h hset
  | setMaxRate j value =>
    obtain ⟨⟨_, e₁⟩, hset, rfl⟩ := Option.map_eq_some_iff.mp hr
    exact rkVideoSetMaxRate_kept h hpos hset
  | setRcMode j value =>
    obtain ⟨⟨_, e₁⟩, hset, rfl⟩ := Option.map_eq_some_iff.mp hr
    exact rkVideoSetRcMode_kept h hset
  | setFrameRate j value =>
    obtain ⟨⟨_, e₁⟩, hset, rfl⟩ := Option.map_eq_some_iff.mp hr
    refine rkVideoSetFrameRate_kept h (fun _ r hscan _ => ?_) hset
    obtain ⟨r', hscan', hnum, hden⟩ := hpos
    obtain rfl := Option.some.inj (hscan.symm.trans hscan')
    exact ⟨hden.short, hnum.short⟩

/-- Calls in turn keep what one call keeps. -/
theorem calls_kept (h : Stores e.store i v) {calls : List EncoderCall}
    (hpos : ∀ c ∈ calls, c.Positive) (hr : calls.foldlM Encoder.call e = some e') :
    ∃ v', Kept e e' i v v' := by
  induction calls generalizing e v with
  | nil =>
    obtain rfl := Option.some.inj hr
    exact ⟨v, .refl h⟩
  | cons c calls ih =>
    rw [List.foldlM_cons] at hr
    obtain ⟨e₁, hc, hr⟩ := Option.bind_eq_some_iff.mp hr
    obtain ⟨v₁, hfirst⟩ := call_kept h (hpos c List.mem_cons_self) hc
    obtain ⟨v₂, hothers⟩ :=
      ih hfirst.stores (fun c hc => hpos c (List.mem_cons_of_mem _ hc)) hr
    exact ⟨v₂, hfirst.trans hothers⟩

/-! ## Calls return -/

theorem rkVideoSetGop_returns (h : Stores e.store j v) {value : ℤ} (hval : Short value) :
    ∃ r, rkVideoSetGop e j value = some r := by
  obtain ⟨p, hp⟩ := exists_setNumber h j .gop hval
  rw [rkVideoSetGop, h.outputDataType]
  simp only [Option.bind_eq_bind, Option.bind_some, h.rcMode]
  split
  · exact ⟨_, rfl⟩
  · rw [hp]
    exact ⟨_, rfl⟩

theorem rkVideoSetMaxRate_returns (h : Stores e.store j v) {value : ℤ} (hval : SevenDigits value) :
    ∃ r, rkVideoSetMaxRate e j value = some r := by
  obtain ⟨hmin, hmid, hmax⟩ := thirds hval
  obtain ⟨hlo, hhi⟩ := hval.short
  obtain ⟨p, hp⟩ := exists_setNumber h j .maxRate hval.short
  have h₁ := stores_setNumber h hp
  have hmidShort : Short (value.tdiv 3 * 2) := ⟨by omega, by omega⟩
  have hminShort : Short (value.tdiv 3) := ⟨by omega, by omega⟩
  obtain ⟨p₁, hp₁⟩ := exists_setNumber h₁ j .midRate hmidShort
  have h₂ := stores_setNumber h₁ hp₁
  obtain ⟨p₂, hp₂⟩ := exists_setNumber h₂ j .minRate hminShort
  rw [rkVideoSetMaxRate, h.outputDataType]
  simp only [Option.bind_eq_bind, Option.bind_some, h.rcMode]
  split
  · exact ⟨_, rfl⟩
  · rw [hp]
    simp only [Option.bind_some, hp₁, hp₂]
    exact ⟨_, rfl⟩

theorem rkVideoSetFrameRate_returns (h : Stores e.store j v) {value : Str} {num den : ℤ}
    (hscan : scanFrameRate (cstr value) = some (num, den)) (hnum : Short num) (hden : Short den) :
    ∃ r, rkVideoSetFrameRate e j value = some r := by
  obtain ⟨p, hp⟩ := exists_setNumber h j .dstFrameRateDen hden
  obtain ⟨p₁, hp₁⟩ := exists_setNumber (stores_setNumber h hp) j .dstFrameRateNum hnum
  rw [rkVideoSetFrameRate, hscan]
  simp only [Option.bind_eq_bind, Option.bind_some, h.fps, h.outputDataType, h.rcMode]
  split
  · exact ⟨_, rfl⟩
  · simp only [hp, Option.bind_some, hp₁]
    exact ⟨_, rfl⟩

/-- The buffer is large enough for a frame rate with a short text. -/
theorem rkVideoGetFrameRate_eq (h : Stores e.store j v) (hfits : v.Fits) :
    rkVideoGetFrameRate e j =
      some (frameRateText (v.number .dstFrameRateNum) (v.number .dstFrameRateDen)) := by
  have hden := length_decimal_le_seven_iff.mpr hfits.1
  have hnum := length_decimal_le_seven_iff.mpr hfits.2
  have hlen : (frameRateText (v.number .dstFrameRateNum) (v.number .dstFrameRateDen)).length + 1 ≤
      20 := by
    unfold frameRateText
    split
    · omega
    · rw [List.length_append, List.length_cons]
      omega
  rw [rkVideoGetFrameRate, h.number .dstFrameRateDen]
  simp only [Option.bind_eq_bind, Option.bind_some, h.number .dstFrameRateNum]
  exact if_pos hlen

theorem rkVideoResetFrameRate_returns (h : Stores e.store j v) (hfits : v.Fits) :
    ∃ r, rkVideoResetFrameRate e j = some r := by
  obtain ⟨r, hr⟩ := rkVideoSetFrameRate_returns h
    (scanFrameRate_text (h.inRange .dstFrameRateNum) (h.inRange .dstFrameRateDen)) hfits.2 hfits.1
  rw [rkVideoResetFrameRate, rkVideoGetFrameRate_eq h hfits]
  simp only [Option.bind_eq_bind, Option.bind_some, hr]
  exact ⟨_, rfl⟩

theorem rkVideoSetRcMode_returns (h : Stores e.store j v) (hfits : v.Fits) (value : Str) :
    ∃ r, rkVideoSetRcMode e j value = some r := by
  have hvariable : ∀ n, ∃ rate, variableRate e.store j (isCbr (cstr value)) n = some rate := by
    intro n
    unfold variableRate
    split
    · exact ⟨0, rfl⟩
    · exact ⟨_, h.number n⟩
  obtain ⟨mid, hmid⟩ := hvariable .midRate
  obtain ⟨min, hmin⟩ := hvariable .minRate
  obtain ⟨p, hp⟩ := h.live.exists_set (videoEntry j .rcMode) (some value)
  have hstores := stores_set h hp
  rw [if_pos rfl] at hstores
  rw [rkVideoSetRcMode, h.outputDataType]
  simp only [Option.bind_eq_bind, Option.bind_some]
  split
  · exact ⟨_, rfl⟩
  · simp only [h.number .gop, h.number .maxRate, hmid, hmin, rkParamSetString, hp,
      Option.bind_some]
    generalize Function.update e.venc j _ = venc
    obtain ⟨r, hr⟩ := rkVideoResetFrameRate_returns (e := ⟨p, venc, e.vi⟩) hstores hfits
    rw [hr]
    exact ⟨_, rfl⟩

/-- **A call returns** if the frame rate of the stream has a short text. -/
theorem call_returns {c : EncoderCall} (h : Stores e.store c.id v) (hfits : v.Fits)
    (hpos : c.Positive) : ∃ e', e.call c = some e' := by
  cases c with
  | setGop j value =>
    obtain ⟨r, hr⟩ := rkVideoSetGop_returns h (SevenDigits.short hpos)
    exact ⟨r.2, Option.map_eq_some_iff.mpr ⟨r, hr, rfl⟩⟩
  | setMaxRate j value =>
    obtain ⟨r, hr⟩ := rkVideoSetMaxRate_returns h hpos
    exact ⟨r.2, Option.map_eq_some_iff.mpr ⟨r, hr, rfl⟩⟩
  | setRcMode j value =>
    obtain ⟨r, hr⟩ := rkVideoSetRcMode_returns h hfits value
    exact ⟨r.2, Option.map_eq_some_iff.mpr ⟨r, hr, rfl⟩⟩
  | setFrameRate j value =>
    obtain ⟨⟨num, den⟩, hscan, hnum, hden⟩ := hpos
    obtain ⟨r, hr⟩ := rkVideoSetFrameRate_returns h hscan hnum.short hden.short
    exact ⟨r.2, Option.map_eq_some_iff.mpr ⟨r, hr, rfl⟩⟩

/-- Calls in turn return. -/
theorem calls_return {calls : List EncoderCall} (hpos : ∀ c ∈ calls, c.Positive)
    (hfits : ∀ c ∈ calls, ∃ w, Stores e.store c.id w ∧ w.Fits) :
    ∃ e', calls.foldlM Encoder.call e = some e' := by
  induction calls generalizing e with
  | nil => exact ⟨e, rfl⟩
  | cons c calls ih =>
    obtain ⟨hc, hcalls⟩ := List.forall_mem_cons.mp hpos
    obtain ⟨⟨v, hv, hvfits⟩, hothers⟩ := List.forall_mem_cons.mp hfits
    obtain ⟨e₁, hfirst⟩ := call_returns hv hvfits hc
    -- the settings of the other streams are kept, so the other calls return
    obtain ⟨e', he'⟩ := ih hcalls fun d hd => by
      obtain ⟨w, hw, hwfits⟩ := hothers d hd
      obtain ⟨w', hkept⟩ := call_kept hw hc hfirst
      exact ⟨w', hkept.stores, hkept.fits hwfits⟩
    exact ⟨e', by rw [List.foldlM_cons, hfirst]; exact he'⟩

end Calls

/-! ## Agreement after any calls -/

theorem ofInt_le_ofInt {a b : ℤ} (ha : 0 ≤ a) (hab : a ≤ b) (hb : Wire.InRange b) :
    UInt32.ofInt a ≤ UInt32.ofInt b := by
  have hmod : ∀ n : ℤ, 0 ≤ n → n < 2 ^ 31 → (UInt32.ofInt n).toNat = n.toNat := by
    intro n hlo hhi
    rw [UInt32.ofInt, Int.emod_eq_of_lt hlo (by omega)]
    exact UInt32.toNat_ofNat_of_lt' (by
      rw [UInt32.size]
      omega)
  obtain ⟨-, hb⟩ := hb
  rw [UInt32.le_iff_toNat_le, hmod a ha (by omega), hmod b (by omega) hb]
  omega

/-- For a variable rate, rates in order are in order in the registers. -/
theorem Encoder.Agrees.ordered_venc {e : Encoder} {id : Int32} {v : Settings} (h : e.Agrees id v)
    (hvbr : isCbr v.rcMode = false) (hmin : 0 ≤ v.number .minRate) : (e.venc id).Ordered := by
  obtain ⟨hminRate, hmidRate, hmaxRate⟩ := h.follows.vbr hvbr
  obtain ⟨hmid, hmax⟩ := h.ordered
  rw [VencChnAttr.Ordered, hminRate, hmidRate, hmaxRate]
  exact ⟨ofInt_le_ofInt hmin hmid (h.stores.inRange _),
    ofInt_le_ofInt (hmin.trans hmid) hmax (h.stores.inRange _)⟩

/-- **Setters in any order keep the agreement** of the registers with the parameters, and leave the
frame rate of the sensor; and they return. -/
theorem agrees_of_calls {e : Encoder} {id : Int32} {v : Settings} (h : e.Agrees id v)
    {calls : List EncoderCall} (hpos : ∀ c ∈ calls, c.Positive) :
    (∀ e', calls.foldlM Encoder.call e = some e' → ∃ v', e'.Agrees id v' ∧ v'.fps = v.fps ∧
      (isCbr v'.rcMode = false → 0 ≤ v.number .minRate → (e'.venc id).Ordered)) ∧
    ((∀ c ∈ calls, ∃ w, Stores e.store c.id w ∧ w.Fits) →
      ∃ e', calls.foldlM Encoder.call e = some e') := by
  refine ⟨fun e' hr => ?_, fun hfits => calls_return hpos hfits⟩
  obtain ⟨v', hkept⟩ := calls_kept h.stores hpos hr
  have hagrees : e'.Agrees id v' :=
    ⟨hkept.stores, hkept.ordered h.ordered, hkept.follows h.follows⟩
  exact ⟨v', hagrees, hkept.fps, fun hvbr hmin => hagrees.ordered_venc hvbr (hkept.nonneg hmin)⟩

/-- One stream with a constant rate. -/
def oneStream : Encoder where
  store := ⟨none, .live <| [("video.0:output_data_type", "H.265"), ("video.0:rc_mode", "CBR"),
    ("video.0:gop", "60"), ("video.0:max_rate", "2048"), ("video.0:mid_rate", "1024"),
    ("video.0:min_rate", "0"), ("video.0:dst_frame_rate_den", "1"),
    ("video.0:dst_frame_rate_num", "25"), ("isp.0.adjustment:fps", "25")].foldl
      (fun d entry => dictionarySet d (lit entry.1) (some (lit entry.2))) dictionaryNew⟩
  venc := fun _ => ⟨some .hevc, some ⟨.hevc, true⟩, 60, 25, 1, 25, 1, 2048, 0, 0⟩
  vi := fun _ => ⟨25, 25⟩

/-- The settings of that stream. -/
def oneStreamSettings : Settings where
  outputDataType := lit "H.265"
  rcMode := lit "CBR"
  number
    | .gop => 60
    | .maxRate => 2048
    | .midRate => 1024
    | .minRate => 0
    | .dstFrameRateDen => 1
    | .dstFrameRateNum => 25
  fps := 25

/-- The rate, the mode and the frame rate of one stream are changed in turn. -/
theorem agrees_of_calls_oneStream :
    let calls : List EncoderCall := [.setMaxRate 0 3000, .setRcMode 0 (lit "VBR"),
      .setFrameRate 0 (lit "25/2"), .setGop 0 50]
    ∃ e' v', calls.foldlM Encoder.call oneStream = some e' ∧ e'.Agrees 0 v' ∧ v'.fps = 25 ∧
      (isCbr v'.rcMode = false → (e'.venc 0).Ordered) := by
  have hstores : Stores oneStream.store 0 oneStreamSettings := by
    refine ⟨⟨_, rfl⟩, by decide +kernel, by decide +kernel, fun n => ?_, by decide +kernel⟩
    cases n <;> decide +kernel
  have hfollows : Follows (oneStream.venc 0) (oneStream.vi 0) oneStreamSettings := by
    refine ⟨⟨.hevc, rfl, rfl⟩, rfl, fun _ => rfl, ?_, ⟨rfl, rfl⟩,
      ⟨rfl, rfl⟩, rfl⟩
    exact fun h => absurd h (by decide)
  intro calls
  have hpos : ∀ c ∈ calls, c.Positive := by decide
  have hzero : ∀ c ∈ calls, c.id = 0 := by decide
  obtain ⟨hagrees, hreturns⟩ :=
    agrees_of_calls ⟨hstores, ⟨by decide, by decide⟩, hfollows⟩ hpos
  obtain ⟨e', he'⟩ := hreturns fun c hc =>
    ⟨oneStreamSettings, hzero c hc ▸ hstores, ⟨by decide, by decide⟩, ⟨by decide, by decide⟩⟩
  obtain ⟨v', hv', hfps, hordered⟩ := hagrees e' he'
  exact ⟨e', v', he', hv', hfps, fun hvbr => hordered hvbr (by decide)⟩

end RkIpc.Video
