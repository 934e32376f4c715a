import RkIpc.Video.Encoder

/-!
# Settings and restarts

Most setters of a stream change its channels while they run, and store the parameter; some store it
and restart the video, which creates the channels anew from the parameters. Nothing compares the
two ways to a setting.

## Main definitions

* `StreamChannel`, `Streams`: the attributes of the channels, and the store
* `pipeInit`, `rkVideoRestart`: what a restart makes of the parameters
* `rkVideoSetRcQuality`, `rkVideoSetResolution`, `rkVideoSetRotation`, ...: the setters
* `StreamCall`, `Streams.call`: a call of a setter
* `Streams.used`: the attributes that the modes of a stream make use of
* `Key`: the parameters that are read and set here

## Main results

* `entry_injective`: keys are distinct
-/

namespace RkIpc.Video

open Text Param

/-! ## Parameters -/

/-- The other parameters of a stream. -/
inductive Detail
  | h264Profile
  | gopMode
  | smart
  | rcQuality
  | streamType
  | width
  | height
  | smartpViridrlen
  | srcFrameRateDen
  | srcFrameRateNum
deriving DecidableEq, Repr

/-- The end of a key. -/
def Detail.suffix : Detail → Str
  | .h264Profile => lit ":h264_profile"
  | .gopMode => lit ":gop_mode"
  | .smart => lit ":smart"
  | .rcQuality => lit ":rc_quality"
  | .streamType => lit ":stream_type"
  | .width => lit ":width"
  | .height => lit ":height"
  | .smartpViridrlen => lit ":smartp_viridrlen"
  | .srcFrameRateDen => lit ":src_frame_rate_den"
  | .srcFrameRateNum => lit ":src_frame_rate_num"

/-- `snprintf(entry, 127, "video.%d:…", stream_id)`. -/
def detailEntry (id : Int32) (k : Detail) : Str := lit "video." ++ decimal id.toInt ++ k.suffix

/-- `"video.source:rotation"`. -/
def rotationEntry : Str := lit "video.source:rotation"

/-- `"video.source:enable_venc_0"` and `"video.source:enable_venc_1"`. -/
def enableEntry (second : Bool) : Str :=
  if second then lit "video.source:enable_venc_1" else lit "video.source:enable_venc_0"

/-- `snprintf(entry, 127, "isp.%d.enhancement:gray_scale_mode", rkipc_get_scenario_id(cam_id))`. -/
def grayScaleEntry (scenario : Int32) : Str :=
  lit "isp." ++ decimal scenario.toInt ++ lit ".enhancement:gray_scale_mode"

/-- `rk_param_get_string` with a null pointer as default, for a string that is compared next. -/
def getText (p : Store) (entry : Str) : Option Str := (rkParamGetString p entry none).join

/-! ## Registers -/

/-- `VENC_GOPMODE_NORMALP`, `VENC_GOPMODE_SMARTP` and `VENC_GOPMODE_TSVC4`. -/
inductive GopMode
  | normalP
  | smartP
  | tsvc4
deriving DecidableEq, Repr

/-- `ROTATION_0` and so on. -/
inductive Rotation
  | r0
  | r90
  | r180
  | r270
deriving DecidableEq, Repr

/-- **The other attributes of an encoder channel**, and the size of the capture channel before
it. -/
structure StreamChannel where
  u32Profile : UInt32
  enGopMode : Option GopMode
  s32VirIdrLen : ℤ
  u32MaxLtrCount : UInt32
  u32PicWidth : UInt32
  u32PicHeight : UInt32
  u32VirWidth : UInt32
  u32VirHeight : UInt32
  svc : Bool
  u32MinQp : UInt32
  rotation : Rotation
  videoFullRangeFlag : Bool
  u32Width : UInt32
  u32Height : UInt32
deriving DecidableEq, Repr

/-- **The channels of the streams**, and the store; `scenario` is what `rkipc_get_scenario_id`
returns. -/
structure Streams where
  encoder : Encoder
  channel : Int32 → StreamChannel
  scenario : Int32

/-- The profile that `h264_profile` names, or 0. -/
def profileOf (h264Profile : Str) : UInt32 :=
  if h264Profile = lit "high" then 100
  else if h264Profile = lit "main" then 77
  else if h264Profile = lit "baseline" then 66
  else 0

/-- The mode that `gop_mode` names. -/
def gopModeOf (gopMode : Str) : Option GopMode :=
  if gopMode = lit "normalP" then some .normalP
  else if gopMode = lit "smartP" then some .smartP
  else if gopMode = lit "TSVC4" then some .tsvc4
  else none

/-- The smallest quantiser that `rc_quality` names. -/
def minQpOf (rcQuality : Str) : UInt32 :=
  if rcQuality = lit "highest" then 10
  else if rcQuality = lit "higher" then 15
  else if rcQuality = lit "high" then 20
  else if rcQuality = lit "medium" then 25
  else if rcQuality = lit "low" then 30
  else if rcQuality = lit "lower" then 35
  else 40

/-- The rotation by so many degrees; by any other number it is `ROTATION_0`. -/
def rotationOf (value : ℤ) : Rotation :=
  if value = 90 then .r90 else if value = 180 then .r180 else if value = 270 then .r270 else .r0

/-- `video_full_range_flag`. -/
def fullRangeOf (grayScaleMode : Str) : Bool := grayScaleMode ≠ lit "[16-235]"

/-! ## A restart -/

/-- The defaults in which the two pipes differ. -/
structure PipeDefaults where
  width : ℤ
  height : ℤ

/-- `u32Profile`, which only H.264 sets; the text is compared. -/
def u32ProfileOf (codec : Codec) (h264Profile : Option Str) : Option UInt32 :=
  if codec = .avc then h264Profile.map profileOf else some 0

/-- `s32VirIdrLen`, which only `VENC_GOPMODE_SMARTP` sets. -/
def virIdrLenOf (p : Store) (id : Int32) (gopMode : Option GopMode) : Option ℤ :=
  if gopMode = some .smartP then rkParamGetInt p (detailEntry id .smartpViridrlen) 25 else some 0

/-- **The attributes that `rkipc_pipe_0_init` and `rkipc_pipe_1_init` set**, where the calls of the
library succeed. A channel is created with `ROTATION_0`. -/
def pipeInit (d : PipeDefaults) (id : Int32) (s : Streams) : Option (ℤ × Streams) := do
  let p := s.encoder.store
  let width ← rkParamGetInt p (detailEntry id .width) d.width
  let height ← rkParamGetInt p (detailEntry id .height) d.height
  let rotation ← rkParamGetInt p rotationEntry 0
  -- the capture channel
  let vi := Function.update s.encoder.vi id ⟨0, 0⟩
  let captured := { s with
    encoder := { s.encoder with vi }
    channel := Function.update s.channel id { s.channel id with
      u32Width := .ofInt width
      u32Height := .ofInt height } }
  let dataType ← rkParamGetString p (videoEntry id .outputDataType) none
  let rcMode ← rkParamGetString p (videoEntry id .rcMode) none
  let h264Profile ← rkParamGetString p (detailEntry id .h264Profile) none
  match dataType, rcMode with
  | some dataType, some rcMode =>
    match codecOf dataType with
    | none => some (-1, captured)
    | some codec =>
      let u32Profile ← u32ProfileOf codec h264Profile
      let gop ← getNumber p id .gop
      let max ← getNumber p id .maxRate
      let mid ← variableRate p id (isCbr rcMode) .midRate
      let min ← variableRate p id (isCbr rcMode) .minRate
      let gopMode ← getText p (detailEntry id .gopMode)
      let virIdrLen ← virIdrLenOf p id (gopModeOf gopMode)
      let created : VencChnAttr :=
        ⟨some codec, some ⟨codec, isCbr rcMode⟩, .ofInt gop, 0, 0, 0, 0, 0, 0, 0⟩
      let venc := Function.update s.encoder.venc id (created.withRates (isCbr rcMode) max mid min)
      let (_, encoder) ← rkVideoResetFrameRate ⟨p, venc, vi⟩ id
      let smart ← getString p (detailEntry id .smart) (lit "close")
      let rcQuality ← getText p (detailEntry id .rcQuality)
      let grayScaleMode ← getText p (grayScaleEntry s.scenario)
      some (0, { s with
        encoder
        channel := Function.update s.channel id
          { u32Profile
            enGopMode := gopModeOf gopMode
            s32VirIdrLen := virIdrLen
            u32MaxLtrCount := if gopModeOf gopMode = some .smartP then 1 else 0
            u32PicWidth := .ofInt width
            u32PicHeight := .ofInt height
            u32VirWidth := .ofInt width
            u32VirHeight := .ofInt height
            svc := smart = lit "open"
            u32MinQp := minQpOf rcQuality
            rotation := rotationOf rotation
            videoFullRangeFlag := fullRangeOf grayScaleMode
            u32Width := .ofInt width
            u32Height := .ofInt height } })
  | _, _ => some (-1, captured)

/-- The defaults of `rkipc_pipe_0_init`. -/
def pipe0Defaults : PipeDefaults := ⟨-1, -1⟩

/-- The defaults of `rkipc_pipe_1_init`. -/
def pipe1Defaults : PipeDefaults := ⟨1920, 1080⟩

/-- The pipe of a stream that is enabled. -/
def pipeInitIf (enable : ℤ) (d : PipeDefaults) (id : Int32) (s : Streams) : Option Streams :=
  if enable ≠ 0 then (pipeInit d id s).map Prod.snd else some s

/-- **`rk_video_restart`**, as far as the attributes of the streams go. -/
def rkVideoRestart (s : Streams) : Option Streams := do
  let enableVenc0 ← rkParamGetInt s.encoder.store (enableEntry false) 1
  let enableVenc1 ← rkParamGetInt s.encoder.store (enableEntry true) 1
  let s ← pipeInitIf enableVenc0 pipe0Defaults 0 s
  pipeInitIf enableVenc1 pipe1Defaults 1 s

/-! ## Setters -/

/-- The parameters are others, and the attributes of a channel. -/
def Streams.put (s : Streams) (store : Store) (id : Int32) (c : StreamChannel) : Streams :=
  { s with
    encoder := { s.encoder with store }
    channel := Function.update s.channel id c }

/-- **`rk_video_set_rc_quality`**. -/
def rkVideoSetRcQuality (s : Streams) (id : Int32) (value : Str) : Option (ℤ × Streams) := do
  let dataType ← tmpOutputDataType s.encoder.store id
  match codecOf dataType with
  | none => some (-1, s)
  | some _ =>
    let store ← rkParamSetString s.encoder.store (detailEntry id .rcQuality) (some value)
    some (0, s.put store id { s.channel id with u32MinQp := minQpOf (cstr value) })

/-- `sscanf(value, "%d*%d", &width, &height)`. There is no result if a variable is not set. -/
def scanResolution (value : Str) : Option (ℤ × ℤ) :=
  match scanInt value with
  | some (width, 42 :: s) => (scanInt s).map fun r => (width, r.1)
  | _ => none

/-- **`rk_video_set_resolution`**. -/
def rkVideoSetResolution (s : Streams) (id : Int32) (value : Str) : Option (ℤ × Streams) := do
  let (width, height) ← scanResolution (cstr value)
  let store ← rkParamSetInt s.encoder.store (detailEntry id .width) width
  let store ← rkParamSetInt store (detailEntry id .height) height
  some (0, s.put store id { s.channel id with
    u32PicWidth := .ofInt width
    u32PicHeight := .ofInt height
    u32VirWidth := .ofInt width
    u32VirHeight := .ofInt height
    u32Width := .ofInt width
    u32Height := .ofInt height })

/-- **`rk_video_set_rotation`**, for the channels of the two streams. -/
def rkVideoSetRotation (s : Streams) (value : ℤ) : Option (ℤ × Streams) := do
  let store ← rkParamSetInt s.encoder.store rotationEntry value
  some (0, { s with
    encoder := { s.encoder with store }
    channel := fun id =>
      if id = 0 ∨ id = 1 then { s.channel id with rotation := rotationOf value }
      else s.channel id })

/-- **`rk_video_set_smartp_viridrlen`**. -/
def rkVideoSetSmartpViridrlen (s : Streams) (id : Int32) (value : ℤ) : Option (ℤ × Streams) := do
  let store ← rkParamSetInt s.encoder.store (detailEntry id .smartpViridrlen) value
  some (0, s.put store id { s.channel id with s32VirIdrLen := value })

/-- A text is stored. -/
def storeText (s : Streams) (entry : Str) (value : Str) : Option Streams := do
  let store ← rkParamSetString s.encoder.store entry (some value)
  some { s with encoder := { s.encoder with store } }

/-- `rk_video_set_stream_type`. -/
def rkVideoSetStreamType (s : Streams) (id : Int32) (value : Str) : Option (ℤ × Streams) := do
  let s ← storeText s (detailEntry id .streamType) value
  some (0, s)

/-- `rk_isp_set_gray_scale_mode`, as far as the parameters go. -/
def setGrayScaleMode (s : Streams) (value : Str) : Option Streams :=
  storeText s (grayScaleEntry s.scenario) value

/-- A text is stored, and the video restarted. -/
def storeAndRestart (s : Streams) (entry : Str) (value : Str) : Option (ℤ × Streams) := do
  let s ← storeText s entry value
  let s ← rkVideoRestart s
  some (0, s)

/-- **`rk_video_set_output_data_type`**. -/
def rkVideoSetOutputDataType (s : Streams) (id : Int32) (value : Str) : Option (ℤ × Streams) :=
  storeAndRestart s (videoEntry id .outputDataType) value

/-- `rk_video_set_smart`. -/
def rkVideoSetSmart (s : Streams) (id : Int32) (value : Str) : Option (ℤ × Streams) :=
  storeAndRestart s (detailEntry id .smart) value

/-- `rk_video_set_gop_mode`. -/
def rkVideoSetGopMode (s : Streams) (id : Int32) (value : Str) : Option (ℤ × Streams) :=
  storeAndRestart s (detailEntry id .gopMode) value

/-- `rk_video_set_h264_profile`. -/
def rkVideoSetH264Profile (s : Streams) (id : Int32) (value : Str) : Option (ℤ × Streams) :=
  storeAndRestart s (detailEntry id .h264Profile) value

/-- **`rk_video_set_frame_rate_in`**. -/
def rkVideoSetFrameRateIn (s : Streams) (id : Int32) (value : Str) : Option (ℤ × Streams) := do
  let (num, den) ← scanFrameRate (cstr value)
  let store ← rkParamSetInt s.encoder.store (detailEntry id .srcFrameRateDen) den
  let store ← rkParamSetInt store (detailEntry id .srcFrameRateNum) num
  let s ← rkVideoRestart { s with encoder := { s.encoder with store } }
  some (0, s)

/-- A call of a setter. -/
inductive StreamCall
  | encoder (c : EncoderCall)
  | setRcQuality (id : Int32) (value : Str)
  | setResolution (id : Int32) (value : Str)
  | setRotation (value : ℤ)
  | setSmartpViridrlen (id : Int32) (value : ℤ)
  | setStreamType (id : Int32) (value : Str)
  | setGrayScaleMode (value : Str)
  | setOutputDataType (id : Int32) (value : Str)
  | setSmart (id : Int32) (value : Str)
  | setGopMode (id : Int32) (value : Str)
  | setH264Profile (id : Int32) (value : Str)
  | setFrameRateIn (id : Int32) (value : Str)

/-- The call, and what it leaves. -/
def Streams.call (s : Streams) : StreamCall → Option Streams
  | .encoder c => (s.encoder.call c).map fun encoder => { s with encoder }
  | .setRcQuality id value => (rkVideoSetRcQuality s id value).map Prod.snd
  | .setResolution id value => (rkVideoSetResolution s id value).map Prod.snd
  | .setRotation value => (rkVideoSetRotation s value).map Prod.snd
  | .setSmartpViridrlen id value => (rkVideoSetSmartpViridrlen s id value).map Prod.snd
  | .setStreamType id value => (rkVideoSetStreamType s id value).map Prod.snd
  | .setGrayScaleMode value => setGrayScaleMode s value
  | .setOutputDataType id value => (rkVideoSetOutputDataType s id value).map Prod.snd
  | .setSmart id value => (rkVideoSetSmart s id value).map Prod.snd
  | .setGopMode id value => (rkVideoSetGopMode s id value).map Prod.snd
  | .setH264Profile id value => (rkVideoSetH264Profile s id value).map Prod.snd
  | .setFrameRateIn id value => (rkVideoSetFrameRateIn s id value).map Prod.snd

/-! ## What matters -/

/-- The attributes that the rate control makes use of: a constant rate is one number. -/
def VencChnAttr.used (a : VencChnAttr) : VencChnAttr :=
  if a.enRcMode.any RcMode.cbr then { a with u32MaxBitRate := 0, u32MinBitRate := 0 } else a

/-- The attributes that the mode of the pictures makes use of: only `VENC_GOPMODE_SMARTP` has
virtual key frames. -/
def StreamChannel.used (c : StreamChannel) : StreamChannel :=
  { c with s32VirIdrLen := if c.enGopMode = some .smartP then c.s32VirIdrLen else 0 }

/-- **The attributes that a stream makes use of.** -/
def Streams.used (s : Streams) (id : Int32) : VencChnAttr × FrameRate × StreamChannel :=
  ((s.encoder.venc id).used, s.encoder.vi id, (s.channel id).used)

/-! ## Keys -/

theorem keyBytes_detail (k : Detail) : KeyBytes k.suffix := by cases k <;> decide

theorem strlwc_detailEntry (id : Int32) (k : Detail) :
    strlwc (detailEntry id k) (asciiLineSz + 1) = detailEntry id k := by
  refine strlwc_numbered (by decide) (keyBytes_detail k) ?_ id
  cases k <;> decide

theorem head_detail (k : Detail) : ∀ c ∈ k.suffix.head?, c = colon := by
  cases k <;> decide +kernel

theorem detail_injective : Function.Injective Detail.suffix := by
  intro k l
  cases k <;> cases l <;> decide

theorem detail_ne (k : Detail) (l : Item) : k.suffix ≠ l.suffix := by
  rcases l with _ | _ | n
  · cases k <;> decide
  · cases k <;> decide
  · cases n <;> cases k <;> decide

theorem detailEntry_inj {i j : Int32} {k l : Detail} :
    detailEntry i k = detailEntry j l ↔ i = j ∧ k = l := by
  rw [detailEntry, detailEntry, numbered_inj (by decide) (head_detail k) (head_detail l),
    detail_injective.eq_iff, Int32.toInt_inj]

theorem detailEntry_ne_videoEntry (i j : Int32) (k : Detail) (l : Item) :
    detailEntry i k ≠ videoEntry j l := by
  intro h
  rw [detailEntry, videoEntry, numbered_inj (by decide) (head_detail k) (head_suffix l)] at h
  exact detail_ne k l h.2

/-- A key of all streams is none of one stream. -/
theorem source_ne (a b : Str) (n : ℤ) :
    lit "video.source:" ++ a ≠ lit "video." ++ decimal n ++ b := by
  intro h
  have hsource : lit "video.source:" = lit "video." ++ 115 :: lit "ource:" := by decide
  rw [hsource, List.append_assoc, List.append_assoc] at h
  have hrest := List.append_cancel_left h
  cases hdec : decimal n with
  | nil =>
    rw [decimal] at hdec
    split at hdec
    · cases hdec
    · exact decimalNat_ne_nil _ hdec
  | cons c s =>
    rw [hdec, List.cons_append, List.cons_append] at hrest
    obtain ⟨rfl, -⟩ := List.cons.inj hrest
    have hmem : 115 ∈ decimal n := hdec ▸ List.mem_cons_self
    rcases isDigit_or_minus_of_mem_decimal hmem with h' | h'
    · exact absurd h' (by decide)
    · exact absurd h' (by decide)

theorem rotationEntry_eq : rotationEntry = lit "video.source:" ++ lit "rotation" := by
  decide

theorem enableEntry_eq (second : Bool) : ∃ a, enableEntry second = lit "video.source:" ++ a := by
  cases second with
  | false => exact ⟨lit "enable_venc_0", by decide⟩
  | true => exact ⟨lit "enable_venc_1", by decide⟩

theorem grayScaleEntry_ne (scenario : Int32) (a : Str) :
    grayScaleEntry scenario ≠ lit "video." ++ a := by
  intro h
  have hhead := congrArg List.head? h
  rw [grayScaleEntry, List.append_assoc, List.head?_append_of_ne_nil _ (by decide),
    List.head?_append_of_ne_nil _ (by decide)] at hhead
  exact absurd hhead (by decide)

theorem strlwc_rotationEntry : strlwc rotationEntry (asciiLineSz + 1) = rotationEntry := by
  have hbytes : KeyBytes rotationEntry := by decide
  exact strlwc_eq_self hbytes.zero_notMem hbytes.lower_eq (by decide)

theorem strlwc_enableEntry (second : Bool) :
    strlwc (enableEntry second) (asciiLineSz + 1) = enableEntry second := by
  have hbytes : KeyBytes (enableEntry second) := by cases second <;> decide
  exact strlwc_eq_self hbytes.zero_notMem hbytes.lower_eq (by cases second <;> decide)

theorem strlwc_grayScaleEntry (scenario : Int32) :
    strlwc (grayScaleEntry scenario) (asciiLineSz + 1) = grayScaleEntry scenario :=
  strlwc_numbered (by decide) (by decide) (by decide) scenario

/-- A key. -/
inductive Key
  | item (id : Int32) (k : Item)
  | detail (id : Int32) (k : Detail)
  | rotation
  | enable (second : Bool)
  | grayScale (scenario : Int32)
  | fps
deriving DecidableEq, Repr

/-- Its text. -/
def Key.entry : Key → Str
  | .item id k => videoEntry id k
  | .detail id k => detailEntry id k
  | .rotation => rotationEntry
  | .enable second => enableEntry second
  | .grayScale scenario => grayScaleEntry scenario
  | .fps => fpsEntry

theorem strlwc_entry (k : Key) : strlwc k.entry (asciiLineSz + 1) = k.entry := by
  cases k with
  | item id k => exact strlwc_videoEntry id k
  | detail id k => exact strlwc_detailEntry id k
  | rotation => exact strlwc_rotationEntry
  | enable second => exact strlwc_enableEntry second
  | grayScale scenario => exact strlwc_grayScaleEntry scenario
  | fps => exact strlwc_fpsEntry

/-- The keys that are not about the camera. -/
theorem entry_video (k : Key) :
    (∃ a, k.entry = lit "video." ++ a) ∨ (∃ scenario, k = .grayScale scenario) ∨ k = .fps := by
  have hsplit : lit "video.source:" = lit "video." ++ lit "source:" := by decide
  cases k with
  | item id k => exact .inl ⟨_, List.append_assoc ..⟩
  | detail id k => exact .inl ⟨_, List.append_assoc ..⟩
  | rotation =>
    refine .inl ⟨lit "source:" ++ lit "rotation", ?_⟩
    rw [Key.entry, rotationEntry_eq, hsplit, List.append_assoc]
  | enable second =>
    obtain ⟨a, ha⟩ := enableEntry_eq second
    refine .inl ⟨lit "source:" ++ a, ?_⟩
    rw [Key.entry, ha, hsplit, List.append_assoc]
  | grayScale scenario => exact .inr (.inl ⟨scenario, rfl⟩)
  | fps => exact .inr (.inr rfl)

theorem grayScaleEntry_inj {i j : Int32} (h : grayScaleEntry i = grayScaleEntry j) : i = j := by
  have hhead : ∀ c ∈ (lit ".enhancement:gray_scale_mode").head?, ¬ IsDigit c := by decide +kernel
  unfold grayScaleEntry at h
  rw [List.append_assoc, List.append_assoc] at h
  have hrest := List.append_cancel_left h
  -- the number is read up to the dot
  have hi := scanInt_decimal ⟨i.le_toInt, i.toInt_lt⟩ hhead
  have hj := scanInt_decimal ⟨j.le_toInt, j.toInt_lt⟩ hhead
  rw [hrest, hj] at hi
  exact Int32.toInt_inj.mp (Prod.mk.inj (Option.some.inj hi)).1.symm

/-- A key of all streams has no number. -/
theorem rotationEntry_ne (n : ℤ) (b : Str) : rotationEntry ≠ lit "video." ++ decimal n ++ b :=
  rotationEntry_eq ▸ source_ne _ b n

theorem enableEntry_ne (second : Bool) (n : ℤ) (b : Str) :
    enableEntry second ≠ lit "video." ++ decimal n ++ b := by
  obtain ⟨a, ha⟩ := enableEntry_eq second
  exact ha ▸ source_ne a b n

theorem enableEntry_ne_rotationEntry (second : Bool) : enableEntry second ≠ rotationEntry := by
  cases second <;> decide

theorem enableEntry_injective : Function.Injective enableEntry := by
  intro a b
  cases a <;> cases b <;> decide

theorem grayScaleEntry_ne_fps (scenario : Int32) : grayScaleEntry scenario ≠ fpsEntry := by
  intro h
  have hlast := congrArg List.getLast? h
  rw [grayScaleEntry, List.getLast?_append_of_ne_nil _ (by decide)] at hlast
  exact absurd hlast (by decide)

theorem entry_grayScale {scenario : Int32} {k : Key} (h : grayScaleEntry scenario = k.entry) :
    k = .grayScale scenario := by
  rcases entry_video k with ⟨a, hk⟩ | ⟨m, rfl⟩ | rfl
  · exact absurd (h.trans hk) (grayScaleEntry_ne scenario a)
  · rw [grayScaleEntry_inj h]
  · exact absurd h (grayScaleEntry_ne_fps scenario)

theorem entry_fps {k : Key} (h : fpsEntry = k.entry) : k = .fps := by
  rcases entry_video k with ⟨a, hk⟩ | ⟨m, rfl⟩ | rfl
  · have hhead := congrArg List.head? (h.trans hk)
    rw [List.head?_append_of_ne_nil _ (by decide)] at hhead
    exact absurd hhead (by decide)
  · exact absurd h.symm (grayScaleEntry_ne_fps m)
  · rfl

theorem entry_rotation {k : Key} (h : rotationEntry = k.entry) : k = .rotation := by
  cases k with
  | item id k => exact absurd h (rotationEntry_ne _ _)
  | detail id k => exact absurd h (rotationEntry_ne _ _)
  | rotation => rfl
  | enable second => exact absurd h.symm (enableEntry_ne_rotationEntry second)
  | grayScale n => exact (entry_grayScale (k := .rotation) h.symm).symm
  | fps => exact (entry_fps (k := .rotation) h.symm).symm

theorem entry_enable {second : Bool} {k : Key} (h : enableEntry second = k.entry) :
    k = .enable second := by
  cases k with
  | item id k => exact absurd h (enableEntry_ne second _ _)
  | detail id k => exact absurd h (enableEntry_ne second _ _)
  | rotation => exact absurd h (enableEntry_ne_rotationEntry second)
  | enable other => rw [enableEntry_injective h]
  | grayScale n => exact (entry_grayScale (k := .enable second) h.symm).symm
  | fps => exact (entry_fps (k := .enable second) h.symm).symm

/-- **Keys are distinct.** -/
theorem entry_injective : Function.Injective Key.entry := by
  intro k l h
  cases k with
  | item i k =>
    cases l with
    | item j l =>
      obtain ⟨rfl, rfl⟩ := videoEntry_inj.mp h
      rfl
    | detail j l => exact absurd h.symm (detailEntry_ne_videoEntry _ _ _ _)
    | rotation => exact entry_rotation h.symm
    | enable second => exact entry_enable h.symm
    | grayScale n => exact entry_grayScale h.symm
    | fps => exact entry_fps h.symm
  | detail i k =>
    cases l with
    | item j l => exact absurd h (detailEntry_ne_videoEntry _ _ _ _)
    | detail j l =>
      obtain ⟨rfl, rfl⟩ := detailEntry_inj.mp h
      rfl
    | rotation => exact entry_rotation h.symm
    | enable second => exact entry_enable h.symm
    | grayScale n => exact entry_grayScale h.symm
    | fps => exact entry_fps h.symm
  | rotation => exact (entry_rotation h).symm
  | enable second => exact (entry_enable h).symm
  | grayScale n => exact (entry_grayScale h).symm
  | fps => exact (entry_fps h).symm

end RkIpc.Video
