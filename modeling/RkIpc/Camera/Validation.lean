import RkIpc.Camera.Requests
import RkIpc.Server.Map

/-!
# Numbers of cameras from clients

A client may send any number for a camera. The check refuses numbers that are too large and cameras
that are not initialised; a negative number is used as an index. Two functions do not check at all,
and two have nothing to do for some values, and return before the check.

## Main definitions

* `IntGet`, `StrGet`, `IntSet`, `StrSet`, `Request`: the requests of the server for a camera
* `answer`: what a request comes to
* `Validated`: the arrays are indexed inside, and a camera that is not there is refused
* `Request.Checks`: the request checks the number first

## Main results

* `validated_iff`: when a request is validated
* `requests_complete`: every request of the server is there
-/

namespace RkIpc.Camera

open Imperative Text Param

/-! ## The requests -/

/-- The requests that read a number. -/
inductive IntGet
  | contrast
  | brightness
  | saturation
  | sharpness
  | hue
  | exposureGain
  | frameRate
  | lightBrightness
  | nightToDayFilterLevel
  | nightToDayFilterTime
  | hdrLevel
  | blcStrength
  | hlcLevel
  | darkBoostLevel
  | whiteBlanceRed
  | whiteBlanceGreen
  | whiteBlanceBlue
  | spatialDenoiseLevel
  | temporalDenoiseLevel
  | dehazeLevel
  | fecLevel
  | ldchLevel
  | zoomLevel
  | focusLevel
deriving DecidableEq, Repr

/-- The requests that read a string. -/
inductive StrGet
  | scenario
  | exposureMode
  | gainMode
  | exposureTime
  | nightToDay
  | fillLightMode
  | hdr
  | blcRegion
  | hlc
  | whiteBlanceStyle
  | noiseReduceMode
  | dehaze
  | grayScaleMode
  | distortionCorrection
  | powerLineFrequencyMode
  | imageFlip
  | afMode
deriving DecidableEq, Repr

/-- The requests that set a number. -/
inductive IntSet
  | contrast
  | brightness
  | saturation
  | sharpness
  | hue
  | exposureGain
  | frameRate
  | lightBrightness
  | nightToDayFilterLevel
  | nightToDayFilterTime
  | hdrLevel
  | blcStrength
  | hlcLevel
  | darkBoostLevel
  | whiteBlanceRed
  | whiteBlanceGreen
  | whiteBlanceBlue
  | spatialDenoiseLevel
  | temporalDenoiseLevel
  | dehazeLevel
  | fecLevel
  | ldchLevel
deriving DecidableEq, Repr

/-- The requests that set a string. -/
inductive StrSet
  | scenario
  | exposureMode
  | gainMode
  | exposureTime
  | nightToDay
  | fillLightMode
  | hdr
  | blcRegion
  | hlc
  | whiteBlanceStyle
  | noiseReduceMode
  | dehaze
  | grayScaleMode
  | distortionCorrection
  | powerLineFrequencyMode
  | imageFlip
  | afMode
deriving DecidableEq, Repr

/-- The function of a request. -/
def IntGet.run : IntGet → Int32 → Program Cameras (GetResult ℤ) (GetResult ℤ)
  | .contrast => rkIspGetContrast
  | .brightness => rkIspGetBrightness
  | .saturation => rkIspGetSaturation
  | .sharpness => rkIspGetSharpness
  | .hue => rkIspGetHue
  | .exposureGain => rkIspGetExposureGain
  | .frameRate => rkIspGetFrameRate
  | .lightBrightness => rkIspGetLightBrightness
  | .nightToDayFilterLevel => rkIspGetNightToDayFilterLevel
  | .nightToDayFilterTime => rkIspGetNightToDayFilterTime
  | .hdrLevel => rkIspGetHdrLevel
  | .blcStrength => rkIspGetBlcStrength
  | .hlcLevel => rkIspGetHlcLevel
  | .darkBoostLevel => rkIspGetDarkBoostLevel
  | .whiteBlanceRed => rkIspGetWhiteBlanceRed
  | .whiteBlanceGreen => rkIspGetWhiteBlanceGreen
  | .whiteBlanceBlue => rkIspGetWhiteBlanceBlue
  | .spatialDenoiseLevel => rkIspGetSpatialDenoiseLevel
  | .temporalDenoiseLevel => rkIspGetTemporalDenoiseLevel
  | .dehazeLevel => rkIspGetDehazeLevel
  | .fecLevel => rkIspGetFecLevel
  | .ldchLevel => rkIspGetLdchLevel
  | .zoomLevel => rkIspGetZoomLevel
  | .focusLevel => rkIspGetFocusLevel

/-- The function of a request. -/
def StrGet.run :
    StrGet → Int32 → Program Cameras (GetResult (Option Str)) (GetResult (Option Str))
  | .scenario => rkIspGetScenario
  | .exposureMode => rkIspGetExposureMode
  | .gainMode => rkIspGetGainMode
  | .exposureTime => rkIspGetExposureTime
  | .nightToDay => rkIspGetNightToDay
  | .fillLightMode => rkIspGetFillLightMode
  | .hdr => rkIspGetHdr
  | .blcRegion => rkIspGetBlcRegion
  | .hlc => rkIspGetHlc
  | .whiteBlanceStyle => rkIspGetWhiteBlanceStyle
  | .noiseReduceMode => rkIspGetNoiseReduceMode
  | .dehaze => rkIspGetDehaze
  | .grayScaleMode => rkIspGetGrayScaleMode
  | .distortionCorrection => rkIspGetDistortionCorrection
  | .powerLineFrequencyMode => rkIspGetPowerLineFrequencyMode
  | .imageFlip => rkIspGetImageFlip
  | .afMode => rkIspGetAfMode

/-- The function of a request. -/
def IntSet.run (env : Env) : IntSet → Int32 → Int32 → Setter
  | .contrast => rkIspSetContrast env
  | .brightness => rkIspSetBrightness env
  | .saturation => rkIspSetSaturation env
  | .sharpness => rkIspSetSharpness env
  | .hue => rkIspSetHue env
  | .exposureGain => rkIspSetExposureGain env
  | .frameRate => rkIspSetFrameRate env
  | .lightBrightness => rkIspSetLightBrightness env
  | .nightToDayFilterLevel => rkIspSetNightToDayFilterLevel env
  | .nightToDayFilterTime => rkIspSetNightToDayFilterTime env
  | .hdrLevel => rkIspSetHdrLevel env
  | .blcStrength => rkIspSetBlcStrength env
  | .hlcLevel => rkIspSetHlcLevel env
  | .darkBoostLevel => rkIspSetDarkBoostLevel env
  | .whiteBlanceRed => rkIspSetWhiteBlanceRed env
  | .whiteBlanceGreen => rkIspSetWhiteBlanceGreen env
  | .whiteBlanceBlue => rkIspSetWhiteBlanceBlue env
  | .spatialDenoiseLevel => rkIspSetSpatialDenoiseLevel env
  | .temporalDenoiseLevel => rkIspSetTemporalDenoiseLevel env
  | .dehazeLevel => rkIspSetDehazeLevel env
  | .fecLevel => rkIspSetFecLevel
  | .ldchLevel => rkIspSetLdchLevel env

/-- The function of a request. -/
def StrSet.run (env : Env) : StrSet → Int32 → Str → Setter
  | .scenario => rkIspSetScenario env
  | .exposureMode => rkIspSetExposureMode env
  | .gainMode => rkIspSetGainMode env
  | .exposureTime => rkIspSetExposureTime env
  | .nightToDay => rkIspSetNightToDay env
  | .fillLightMode => rkIspSetFillLightMode env
  | .hdr => rkIspSetHdr env
  | .blcRegion => rkIspSetBlcRegion env
  | .hlc => rkIspSetHlc env
  | .whiteBlanceStyle => rkIspSetWhiteBlanceStyle env
  | .noiseReduceMode => rkIspSetNoiseReduceMode env
  | .dehaze => rkIspSetDehaze env
  | .grayScaleMode => rkIspSetGrayScaleMode env
  | .distortionCorrection => rkIspSetDistortionCorrection env
  | .powerLineFrequencyMode => rkIspSetPowerLineFrequencyMode env
  | .imageFlip => rkIspSetImageFlip env
  | .afMode => rkIspSetAfMode env

/-- Its name. -/
def IntGet.name : IntGet → String
  | .contrast => "rk_isp_get_contrast"
  | .brightness => "rk_isp_get_brightness"
  | .saturation => "rk_isp_get_saturation"
  | .sharpness => "rk_isp_get_sharpness"
  | .hue => "rk_isp_get_hue"
  | .exposureGain => "rk_isp_get_exposure_gain"
  | .frameRate => "rk_isp_get_frame_rate"
  | .lightBrightness => "rk_isp_get_light_brightness"
  | .nightToDayFilterLevel => "rk_isp_get_night_to_day_filter_level"
  | .nightToDayFilterTime => "rk_isp_get_night_to_day_filter_time"
  | .hdrLevel => "rk_isp_get_hdr_level"
  | .blcStrength => "rk_isp_get_blc_strength"
  | .hlcLevel => "rk_isp_get_hlc_level"
  | .darkBoostLevel => "rk_isp_get_dark_boost_level"
  | .whiteBlanceRed => "rk_isp_get_white_blance_red"
  | .whiteBlanceGreen => "rk_isp_get_white_blance_green"
  | .whiteBlanceBlue => "rk_isp_get_white_blance_blue"
  | .spatialDenoiseLevel => "rk_isp_get_spatial_denoise_level"
  | .temporalDenoiseLevel => "rk_isp_get_temporal_denoise_level"
  | .dehazeLevel => "rk_isp_get_dehaze_level"
  | .fecLevel => "rk_isp_get_fec_level"
  | .ldchLevel => "rk_isp_get_ldch_level"
  | .zoomLevel => "rk_isp_get_zoom_level"
  | .focusLevel => "rk_isp_get_focus_level"

/-- Its name. -/
def StrGet.name : StrGet → String
  | .scenario => "rk_isp_get_scenario"
  | .exposureMode => "rk_isp_get_exposure_mode"
  | .gainMode => "rk_isp_get_gain_mode"
  | .exposureTime => "rk_isp_get_exposure_time"
  | .nightToDay => "rk_isp_get_night_to_day"
  | .fillLightMode => "rk_isp_get_fill_light_mode"
  | .hdr => "rk_isp_get_hdr"
  | .blcRegion => "rk_isp_get_blc_region"
  | .hlc => "rk_isp_get_hlc"
  | .whiteBlanceStyle => "rk_isp_get_white_blance_style"
  | .noiseReduceMode => "rk_isp_get_noise_reduce_mode"
  | .dehaze => "rk_isp_get_dehaze"
  | .grayScaleMode => "rk_isp_get_gray_scale_mode"
  | .distortionCorrection => "rk_isp_get_distortion_correction"
  | .powerLineFrequencyMode => "rk_isp_get_power_line_frequency_mode"
  | .imageFlip => "rk_isp_get_image_flip"
  | .afMode => "rk_isp_get_af_mode"

/-- Its name. -/
def IntSet.name : IntSet → String
  | .contrast => "rk_isp_set_contrast"
  | .brightness => "rk_isp_set_brightness"
  | .saturation => "rk_isp_set_saturation"
  | .sharpness => "rk_isp_set_sharpness"
  | .hue => "rk_isp_set_hue"
  | .exposureGain => "rk_isp_set_exposure_gain"
  | .frameRate => "rk_isp_set_frame_rate"
  | .lightBrightness => "rk_isp_set_light_brightness"
  | .nightToDayFilterLevel => "rk_isp_set_night_to_day_filter_level"
  | .nightToDayFilterTime => "rk_isp_set_night_to_day_filter_time"
  | .hdrLevel => "rk_isp_set_hdr_level"
  | .blcStrength => "rk_isp_set_blc_strength"
  | .hlcLevel => "rk_isp_set_hlc_level"
  | .darkBoostLevel => "rk_isp_set_dark_boost_level"
  | .whiteBlanceRed => "rk_isp_set_white_blance_red"
  | .whiteBlanceGreen => "rk_isp_set_white_blance_green"
  | .whiteBlanceBlue => "rk_isp_set_white_blance_blue"
  | .spatialDenoiseLevel => "rk_isp_set_spatial_denoise_level"
  | .temporalDenoiseLevel => "rk_isp_set_temporal_denoise_level"
  | .dehazeLevel => "rk_isp_set_dehaze_level"
  | .fecLevel => "rk_isp_set_fec_level"
  | .ldchLevel => "rk_isp_set_ldch_level"

/-- Its name. -/
def StrSet.name : StrSet → String
  | .scenario => "rk_isp_set_scenario"
  | .exposureMode => "rk_isp_set_exposure_mode"
  | .gainMode => "rk_isp_set_gain_mode"
  | .exposureTime => "rk_isp_set_exposure_time"
  | .nightToDay => "rk_isp_set_night_to_day"
  | .fillLightMode => "rk_isp_set_fill_light_mode"
  | .hdr => "rk_isp_set_hdr"
  | .blcRegion => "rk_isp_set_blc_region"
  | .hlc => "rk_isp_set_hlc"
  | .whiteBlanceStyle => "rk_isp_set_white_blance_style"
  | .noiseReduceMode => "rk_isp_set_noise_reduce_mode"
  | .dehaze => "rk_isp_set_dehaze"
  | .grayScaleMode => "rk_isp_set_gray_scale_mode"
  | .distortionCorrection => "rk_isp_set_distortion_correction"
  | .powerLineFrequencyMode => "rk_isp_set_power_line_frequency_mode"
  | .imageFlip => "rk_isp_set_image_flip"
  | .afMode => "rk_isp_set_af_mode"

/-- **A request**, with the value that a client sends. -/
inductive Request
  | getInt (g : IntGet)
  | getString (g : StrGet)
  | setInt (g : IntSet) (value : Int32)
  | setString (g : StrSet) (value : Str)

/-- What a getter returns. -/
def getterRet {α : Type} (x : Program Cameras (GetResult α) (GetResult α)) : Setter := do
  let r ← Program.call x
  pure r.1

/-- The function of a request. -/
def Request.run (env : Env) (camId : Int32) : Request → Setter
  | .getInt g => getterRet (g.run camId)
  | .getString g => getterRet (g.run camId)
  | .setInt g value => g.run env camId value
  | .setString g value => g.run env camId value

/-- **What a request comes to**, with the accesses that it makes. -/
def answer (env : Env) (s : Cameras) (camId : Int32) (r : Request) :
    Outcome Unit Int32 × Cameras :=
  Program.call (r.run env camId) { s with log := [] }

/-- **The number of a camera is validated**: it is an index of the arrays, and a camera that is not
there is refused without any effect. -/
structure Validated (env : Env) (s : Cameras) (camId : Int32) (r : Request) : Prop where
  indexes : ∀ a i, .index a i ∈ (answer env s camId r).2.log → 0 ≤ i ∧ i < maxAiqCtx
  refuses : ¬ s.Ready camId → ∃ err t, answer env s camId r = (.value err, t) ∧ err < 0 ∧
    (∀ call, .aiq call ∉ t.log) ∧ t.encoder.store = s.encoder.store

/-- **The number is checked first.** -/
def Request.Checks (s : Cameras) : Request → Prop
  | .getString .scenario => False
  | .setString .scenario _ => False
  | .setInt .lightBrightness value => s.lightLevel ≠ value
  | .setInt .ldchLevel _ => rkParamGetInt s.encoder.store (lit "isp:group_ldch") 0 = some 0
  | _ => True

/-- All of them. -/
def IntGet.all : List IntGet :=
  [.contrast, .brightness, .saturation, .sharpness, .hue, .exposureGain, .frameRate,
    .lightBrightness, .nightToDayFilterLevel, .nightToDayFilterTime, .hdrLevel, .blcStrength,
    .hlcLevel, .darkBoostLevel, .whiteBlanceRed, .whiteBlanceGreen, .whiteBlanceBlue,
    .spatialDenoiseLevel, .temporalDenoiseLevel, .dehazeLevel, .fecLevel, .ldchLevel, .zoomLevel,
    .focusLevel]

/-- All of them. -/
def StrGet.all : List StrGet :=
  [.scenario, .exposureMode, .gainMode, .exposureTime, .nightToDay, .fillLightMode, .hdr,
    .blcRegion, .hlc, .whiteBlanceStyle, .noiseReduceMode, .dehaze, .grayScaleMode,
    .distortionCorrection, .powerLineFrequencyMode, .imageFlip, .afMode]

/-- All of them. -/
def IntSet.all : List IntSet :=
  [.contrast, .brightness, .saturation, .sharpness, .hue, .exposureGain, .frameRate,
    .lightBrightness, .nightToDayFilterLevel, .nightToDayFilterTime, .hdrLevel, .blcStrength,
    .hlcLevel, .darkBoostLevel, .whiteBlanceRed, .whiteBlanceGreen, .whiteBlanceBlue,
    .spatialDenoiseLevel, .temporalDenoiseLevel, .dehazeLevel, .fecLevel, .ldchLevel]

/-- All of them. -/
def StrSet.all : List StrSet :=
  [.scenario, .exposureMode, .gainMode, .exposureTime, .nightToDay, .fillLightMode, .hdr,
    .blcRegion, .hlc, .whiteBlanceStyle, .noiseReduceMode, .dehaze, .grayScaleMode,
    .distortionCorrection, .powerLineFrequencyMode, .imageFlip, .afMode]

/-- An entry of the table of the server is about a camera: its name begins with `rk_isp_get_` or
`rk_isp_set_`. -/
def IsCameraEntry (e : Server.FunMap) : Prop :=
  (lit e.funName).take 11 = lit "rk_isp_get_" ∨ (lit e.funName).take 11 = lit "rk_isp_set_"

instance (e : Server.FunMap) : Decidable (IsCameraEntry e) := inferInstanceAs (Decidable (_ ∨ _))

/-- A function of the camera that the server calls. -/
inductive CameraFun
  | intGet (g : IntGet)
  | strGet (g : StrGet)
  | intSet (g : IntSet)
  | strSet (g : StrSet)

/-- Its entry of the table. -/
def CameraFun.entry : CameraFun → Server.FunMap
  | .intGet g => ⟨g.name, Server.intGetter g.name⟩
  | .strGet g => ⟨g.name, Server.strGetter g.name⟩
  | .intSet g => ⟨g.name, Server.intSetter g.name⟩
  | .strSet g => ⟨g.name, Server.strSetter g.name⟩

/-- All of them, as the table has them. -/
def CameraFun.all : List CameraFun :=
  [.strGet .scenario, .strSet .scenario, .intGet .contrast, .intSet .contrast, .intGet .brightness,
    .intSet .brightness, .intGet .saturation, .intSet .saturation, .intGet .sharpness,
    .intSet .sharpness, .intGet .hue, .intSet .hue, .strGet .exposureMode, .strSet .exposureMode,
    .strGet .gainMode, .strSet .gainMode, .strGet .exposureTime, .strSet .exposureTime,
    .intGet .exposureGain, .intSet .exposureGain, .intGet .frameRate, .intSet .frameRate,
    .strGet .nightToDay, .strSet .nightToDay, .strGet .fillLightMode, .strSet .fillLightMode,
    .intGet .lightBrightness, .intSet .lightBrightness, .intGet .nightToDayFilterLevel,
    .intSet .nightToDayFilterLevel, .intGet .nightToDayFilterTime, .intSet .nightToDayFilterTime,
    .strGet .hdr, .strSet .hdr, .strGet .blcRegion, .strSet .blcRegion, .strGet .hlc, .strSet .hlc,
    .intGet .hdrLevel, .intSet .hdrLevel, .intGet .blcStrength, .intSet .blcStrength,
    .intGet .hlcLevel, .intSet .hlcLevel, .intGet .darkBoostLevel, .intSet .darkBoostLevel,
    .strGet .whiteBlanceStyle, .strSet .whiteBlanceStyle, .intGet .whiteBlanceRed,
    .intSet .whiteBlanceRed, .intGet .whiteBlanceGreen, .intSet .whiteBlanceGreen,
    .intGet .whiteBlanceBlue, .intSet .whiteBlanceBlue, .strGet .noiseReduceMode,
    .strSet .noiseReduceMode, .strGet .dehaze, .strSet .dehaze, .strGet .grayScaleMode,
    .strSet .grayScaleMode, .strGet .distortionCorrection, .strSet .distortionCorrection,
    .intGet .spatialDenoiseLevel, .intSet .spatialDenoiseLevel, .intGet .temporalDenoiseLevel,
    .intSet .temporalDenoiseLevel, .intGet .dehazeLevel, .intSet .dehazeLevel, .intGet .fecLevel,
    .intSet .fecLevel, .intGet .ldchLevel, .intSet .ldchLevel, .strGet .powerLineFrequencyMode,
    .strSet .powerLineFrequencyMode, .strGet .imageFlip, .strSet .imageFlip, .strGet .afMode,
    .strSet .afMode, .intGet .zoomLevel, .intGet .focusLevel]

theorem filter_isCameraEntry :
    Server.map.filter (fun e => IsCameraEntry e) = CameraFun.all.map CameraFun.entry := by
  decide +kernel

/-- **Every request of the server for a camera is one of these.** -/
theorem requests_complete : ∀ e ∈ Server.map, IsCameraEntry e →
    (∃ g ∈ IntGet.all, e = ⟨g.name, Server.intGetter g.name⟩) ∨
      (∃ g ∈ StrGet.all, e = ⟨g.name, Server.strGetter g.name⟩) ∨
      (∃ g ∈ IntSet.all, e = ⟨g.name, Server.intSetter g.name⟩) ∨
      ∃ g ∈ StrSet.all, e = ⟨g.name, Server.strSetter g.name⟩ := by
  intro e he hcamera
  have hmem : e ∈ CameraFun.all.map CameraFun.entry :=
    filter_isCameraEntry ▸ List.mem_filter.mpr ⟨he, decide_eq_true hcamera⟩
  obtain ⟨c, -, rfl⟩ := List.mem_map.mp hmem
  cases c with
  | intGet g => exact .inl ⟨g, by cases g <;> decide, rfl⟩
  | strGet g => exact .inr (.inl ⟨g, by cases g <;> decide, rfl⟩)
  | intSet g => exact .inr (.inr (.inl ⟨g, by cases g <;> decide, rfl⟩))
  | strSet g => exact .inr (.inr (.inr ⟨g, by cases g <;> decide, rfl⟩))

/-! ## Requests that check the number -/

section

variable {env : Env} {camId value : Int32} {v : Str} {s : Cameras} {r : Request}

/-- A function that checks the number first, as a request. -/
structure Refuses (camId : Int32) (s : Cameras) (x : Setter) : Prop where
  refused : maxAiqCtx ≤ camId.toInt ∨ s.ctx camId.toInt = false →
    ∃ new, (Program.call x : Program Cameras Unit Int32) s =
        (.value (-1), { s with log := s.log ++ new }) ∧
      ∀ a ∈ new, camId.toInt < maxAiqCtx ∧ a = .index s.ctxArray camId.toInt
  index : camId.toInt < maxAiqCtx →
    .index s.ctxArray camId.toInt ∈ ((Program.call x : Program Cameras Unit Int32) s).2.log

/-- A call leaves what the function leaves. -/
theorem call_snd {ρ ρ' : Type} (x : Program Cameras ρ ρ) (s : Cameras) :
    ((Program.call x : Program Cameras ρ' ρ) s).2 = (x s).2 := by
  simp only [Program.call]
  generalize x s = o
  rcases o with ⟨_ | _ | _, t⟩ <;> rfl

theorem ChecksFirst.refuses {x : Setter} (h : ChecksFirst (-1) camId x) (s : Cameras) :
    Refuses camId s x where
  refused hbad := by
    obtain ⟨new, hx, hnew⟩ := h.refused s hbad
    exact ⟨new, by simp only [Program.call, hx], hnew⟩
  index hlt := by
    rw [call_snd]
    exact h.index s hlt

theorem ChecksFirst.refuses_getter {α : Type}
    {x : Program Cameras (GetResult α) (GetResult α)} (h : ChecksFirst (-1, none) camId x)
    (s : Cameras) : Refuses camId s (getterRet x) where
  refused hbad := by
    obtain ⟨new, hx, hnew⟩ := h.refused s hbad
    refine ⟨new, ?_, hnew⟩
    simp only [getterRet, Program.call, Bind.bind, hx]
    rfl
  index hlt := by
    have hmem := h.index s hlt
    rw [call_snd]
    simp only [getterRet, Program.call, Bind.bind]
    generalize x s = o at hmem ⊢
    rcases o with ⟨_ | _ | _, t⟩ <;> exact hmem

theorem accesses_getterRet {α : Type} {x : Program Cameras (GetResult α) (GetResult α)}
    (h : Accesses camId x) : Accesses camId (getterRet x) :=
  .bind (.call h) fun _ => .pure _

/-! ### The families -/

theorem checksFirst_intGet (g : IntGet) : ChecksFirst (-1, none) camId (g.run camId) := by
  cases g <;> exact checksFirst_intGetter

theorem checksFirst_strGet {g : StrGet} (hg : g ≠ .scenario) :
    ChecksFirst (-1, none) camId (g.run camId) := by
  cases g with
  | scenario => exact absurd rfl hg
  | _ => exact checksFirst_strGetter

theorem checksFirst_intSet {g : IntSet} (hlight : g ≠ .lightBrightness) (hldch : g ≠ .ldchLevel) :
    ChecksFirst (-1) camId (g.run env camId value) := by
  cases g with
  | lightBrightness => exact absurd rfl hlight
  | ldchLevel => exact absurd rfl hldch
  | contrast | brightness | saturation | hue => exact checksFirst_intSetter accesses_acpCalls
  | sharpness => exact checksFirst_rkIspSetSharpness
  | exposureGain => exact checksFirst_rkIspSetExposureGain
  | frameRate => exact checksFirst_rkIspSetFrameRate
  | nightToDayFilterLevel | nightToDayFilterTime =>
    exact checksFirst_intSetter (accesses_unset accesses_noCalls)
  | hdrLevel => exact checksFirst_intSetter (accesses_unset accesses_oneCall)
  | blcStrength | hlcLevel => exact checksFirst_normalIntSetter
  | darkBoostLevel => exact checksFirst_intSetter accesses_oneCall
  | whiteBlanceRed | whiteBlanceGreen | whiteBlanceBlue => exact checksFirst_whiteBlanceSetter
  | spatialDenoiseLevel => exact checksFirst_denoiseSetter accesses_getSetCalls
  | temporalDenoiseLevel => exact checksFirst_denoiseSetter accesses_oneCall
  | dehazeLevel => exact checksFirst_rkIspSetDehazeLevel
  | fecLevel => exact checksFirst_intSetter accesses_noCalls

theorem checksFirst_strSet {g : StrSet} (hg : g ≠ .scenario) :
    ChecksFirst (-1) camId (g.run env camId v) := by
  cases g with
  | scenario => exact absurd rfl hg
  | exposureMode => exact checksFirst_rkIspSetExposureMode
  | gainMode | exposureTime | dehaze | distortionCorrection | powerLineFrequencyMode =>
    exact checksFirst_strSetter accesses_getSetCalls
  | nightToDay => exact checksFirst_rkIspSetNightToDay
  | fillLightMode | noiseReduceMode =>
    exact checksFirst_strSetter (accesses_unset accesses_noCalls)
  | hdr => exact checksFirst_rkIspSetHdr
  | blcRegion | hlc => exact checksFirst_normalStrSetter
  | whiteBlanceStyle => exact checksFirst_strSetter accesses_oneCall
  | grayScaleMode => exact checksFirst_strSetter (accesses_unset accesses_getSetCalls)
  | imageFlip => exact checksFirst_rkIspSetImageFlip
  | afMode => exact checksFirst_rkIspSetAfMode

/-- **Every request** indexes the arrays with the number of the camera, or with 0. -/
theorem accesses_run (env : Env) (camId : Int32) (r : Request) :
    Accesses camId (r.run env camId) := by
  rcases r with g | g | ⟨g, value⟩ | ⟨g, v⟩
  · exact accesses_getterRet (checksFirst_intGet g).accesses
  · apply accesses_getterRet
    by_cases hg : g = .scenario
    · rw [hg]
      exact accesses_rkIspGetScenario
    · exact (checksFirst_strGet hg).accesses
  · by_cases hlight : g = .lightBrightness
    · rw [hlight]
      exact accesses_rkIspSetLightBrightness
    · by_cases hldch : g = .ldchLevel
      · rw [hldch]
        exact accesses_rkIspSetLdchLevel
      · exact (checksFirst_intSet hlight hldch).accesses
  · by_cases hg : g = .scenario
    · rw [hg]
      exact accesses_rkIspSetScenario
    · exact (checksFirst_strSet hg).accesses

/-- The number is looked up in the parameters. -/
theorem getInt_eq_some {ρ : Type} {entry : Str} {default n : ℤ}
    (h : rkParamGetInt s.encoder.store entry default = some n) :
    (getInt entry default : Program Cameras ρ ℤ) s = (.value n, s) := by
  change Program.ofOption (rkParamGetInt s.encoder.store entry default) s = _
  rw [h]
  rfl

/-- What a function comes to is all that counts. -/
theorem Refuses.congr {x y : Setter} (h : Refuses camId s y) (hxy : x s = y s) :
    Refuses camId s x where
  refused hbad := by
    simpa only [Program.call, hxy] using h.refused hbad
  index hlt := by
    simpa only [Program.call, hxy] using h.index hlt

/-- For another level the number is checked first. -/
theorem refuses_rkIspSetLightBrightness (h : s.lightLevel ≠ value) :
    Refuses camId s (rkIspSetLightBrightness env camId value) := by
  have hset : ChecksFirst (-1) camId (setLightLevel env camId value) := checksFirst_setLightLevel
  refine (hset.refuses s).congr ?_
  change (if s.lightLevel = value then pure 0 else setLightLevel env camId value : Setter) s = _
  rw [if_neg h]

/-- If the group does not correct the distortion, the number is checked first. -/
theorem refuses_rkIspSetLdchLevel
    (h : rkParamGetInt s.encoder.store (lit "isp:group_ldch") 0 = some 0) :
    Refuses camId s (rkIspSetLdchLevel env camId value) := by
  have hset : ChecksFirst (-1) camId
      (intSetter (getSetCalls env .aldchV21GetAttrib .aldchV21SetAttrib) ".enhancement:ldch_level"
        camId (if value < 0 then 0 else value)) := checksFirst_intSetter accesses_getSetCalls
  refine (hset.refuses s).congr ?_
  rw [rkIspSetLdchLevel, Program.bind_of_value (getInt_eq_some h)]
  rfl

/-- **A request that checks the number first** refuses what the check refuses. -/
theorem refuses_of_checks (env : Env) (camId : Int32) (h : r.Checks s) :
    Refuses camId s (r.run env camId) := by
  rcases r with g | g | ⟨g, value⟩ | ⟨g, v⟩
  · exact (checksFirst_intGet g).refuses_getter s
  · refine (checksFirst_strGet ?_).refuses_getter s
    rintro rfl
    exact h
  · by_cases hlight : g = .lightBrightness
    · subst hlight
      exact refuses_rkIspSetLightBrightness h
    · by_cases hldch : g = .ldchLevel
      · subst hldch
        exact refuses_rkIspSetLdchLevel h
      · exact (checksFirst_intSet hlight hldch).refuses s
  · refine (checksFirst_strSet ?_).refuses s
    rintro rfl
    exact h

/-! ## Requests that do not check the number -/

/-- A scenario is used, or its scene does not fit. -/
theorem useScenario_spec (scenarioId : ℤ) (entry default : String) (s : Cameras) :
    (useScenario scenarioId entry default s).1 = .blocked ∨
      (useScenario scenarioId entry default s).1 = .value () := by
  change (copySubScene entry default _).1 = _ ∨ (copySubScene entry default _).1 = _
  simp only [copySubScene, getString, Program.get, Program.ofOption, Bind.bind]
  cases rkParamGetString s.encoder.store (lit entry) (some (lit default)) with
  | none => exact .inl rfl
  | some scene =>
    dsimp only
    cases scene.filter fun scene => scene.length < 32 with
    | none => exact .inl rfl
    | some scene => exact .inr rfl

/-- What comes behind it makes an access, unless the scene does not fit. -/
theorem useScenario_bind {x : Setter} {a : Access} (hx : ∀ s, a ∈ (x s).2.log) (scenarioId : ℤ)
    (entry default : String) (s : Cameras) :
    ((useScenario scenarioId entry default >>= fun _ => x) s).1 = .blocked ∨
      a ∈ ((useScenario scenarioId entry default >>= fun _ => x) s).2.log := by
  have hspec := useScenario_spec scenarioId entry default s
  simp only [Bind.bind]
  generalize useScenario scenarioId entry default s = o at hspec ⊢
  rcases o with ⟨_ | _ | _, t⟩
  · exact .inr (hx t)
  · rcases hspec with h | h <;> cases h
  · exact .inl rfl

/-- A call stays in the log. -/
theorem aiq_bind_mem (env : Env) (call : AiqCall) {f : AiqResult → Setter}
    (hf : ∀ r, Accesses camId (f r)) (s : Cameras) :
    .aiq call ∈ ((aiq env camId call >>= f) s).2.log :=
  (hf _ _).mem (List.mem_append_right _ (List.mem_singleton_self _))

/-- **`rk_isp_set_scenario`** calls the AIQ library for every number, if it gets so far. -/
theorem rkIspSetScenario_calls (env : Env) (camId : Int32) (v : Str) (s : Cameras) :
    (rkIspSetScenario env camId v s).1 = .blocked ∨
      .aiq .sysctlSwitchScene ∈ (rkIspSetScenario env camId v s).2.log := by
  have hrest : Accesses camId (do
      let _ ← initFromIni env
      setString (lit "isp:scenario") v
      pure 0 : Setter) :=
    .bind accesses_initFromIni fun _ => .bind accesses_setEncoder fun _ => .pure _
  have hswitch := aiq_bind_mem env .sysctlSwitchScene fun _ => hrest
  unfold rkIspSetScenario
  split
  · exact useScenario_bind hswitch 0 _ _ s
  · split
    · exact useScenario_bind hswitch 1 _ _ s
    · exact .inr (hswitch s)

/-! ## When a request is validated -/

/-- For a camera that is there, the arrays are indexed inside. -/
theorem validated_of_ready (h : s.Ready camId) : Validated env s camId r where
  indexes a i hi := by
    rw [answer, call_snd] at hi
    have hlog := accesses_run env camId r { s with log := [] }
    rcases hlog.forall_mem _ hi with rfl | rfl
    · exact ⟨h.1, h.2.1⟩
    · exact ⟨by omega, by decide⟩
  refuses hno := absurd h hno

/-- A number that is not negative, of a camera that is not there. -/
theorem validated_of_checks (hpos : 0 ≤ camId.toInt) (h : r.Checks s) :
    Validated env s camId r := by
  by_cases hready : s.Ready camId
  · exact validated_of_ready hready
  have hrefuses := refuses_of_checks env camId (s := { s with log := [] }) h
  obtain ⟨new, hanswer, hnew⟩ := hrefuses.refused (by
    by_cases hlarge : maxAiqCtx ≤ camId.toInt
    · exact .inl hlarge
    · refine .inr (Bool.eq_false_iff.mpr fun hctx => hready ⟨hpos, by omega, hctx⟩))
  constructor
  · intro a i hi
    rw [answer, hanswer, List.nil_append] at hi
    obtain ⟨hlt, hindex⟩ := hnew _ hi
    obtain ⟨-, rfl⟩ := Access.index.inj hindex
    exact ⟨hpos, hlt⟩
  · intro _
    refine ⟨-1, _, hanswer, by decide, fun call hcall => ?_, rfl⟩
    exact absurd (hnew _ hcall).2 nofun

/-- A negative number is used as an index, if it is checked. -/
theorem nonneg_of_validated (h : r.Checks s) (hvalidated : Validated env s camId r) :
    0 ≤ camId.toInt := by
  by_contra hneg
  have hrefuses := refuses_of_checks env camId (s := { s with log := [] }) h
  have hmem := hrefuses.index (by unfold maxAiqCtx; omega)
  exact hneg (hvalidated.indexes _ _ hmem).1

/-- `rk_isp_get_scenario` does not fail. -/
theorem rkIspGetScenario_result (camId : Int32) (s : Cameras) :
    (getterRet (rkIspGetScenario camId) s).1 = .blocked ∨
      (getterRet (rkIspGetScenario camId) s).1 = .value 0 := by
  simp only [getterRet, rkIspGetScenario, Program.call, getString, Program.get, Program.ofOption,
    Bind.bind]
  cases rkParamGetString s.encoder.store (lit "isp:scenario") none with
  | none => exact .inl rfl
  | some v => exact .inr rfl

/-- There is nothing to do for the level of the last call. -/
theorem rkIspSetLightBrightness_result (h : s.lightLevel = value) :
    (rkIspSetLightBrightness env camId value s).1 = .value 0 := by
  change ((if s.lightLevel = value then pure 0 else setLightLevel env camId value : Setter) s).1 =
    _
  rw [if_pos h]
  rfl

/-- There is nothing to do if the group corrects the distortion. -/
theorem rkIspSetLdchLevel_result
    (h : rkParamGetInt s.encoder.store (lit "isp:group_ldch") 0 ≠ some 0) :
    (rkIspSetLdchLevel env camId value s).1 = .blocked ∨
      (rkIspSetLdchLevel env camId value s).1 = .value 0 := by
  simp only [rkIspSetLdchLevel, getInt, Program.get, Program.ofOption, Bind.bind]
  cases hget : rkParamGetInt s.encoder.store (lit "isp:group_ldch") 0 with
  | none => exact .inl rfl
  | some n =>
    have hn : n ≠ 0 := by
      rintro rfl
      exact h hget
    simp only [if_pos hn]
    exact .inr rfl

/-- What returns zero or blocks does not refuse. -/
theorem not_negative {x : Setter} {err : Int32} {t : Cameras}
    (hx : (x s).1 = .blocked ∨ (x s).1 = .value 0)
    (h : (Program.call x : Program Cameras Unit Int32) s = (.value err, t)) : ¬ err < 0 := by
  simp only [Program.call] at h
  generalize x s = o at hx h
  rcases o with ⟨o, u⟩
  rcases hx with hx | hx
  · obtain rfl : o = .blocked := hx
    cases h
  · obtain rfl : o = .value 0 := hx
    cases h
    decide

/-- A request that does not check the number does not refuse anything. -/
theorem ready_of_validated (h : ¬ r.Checks s) (hvalidated : Validated env s camId r) :
    s.Ready camId := by
  by_contra hready
  obtain ⟨err, t, hanswer, herr, hcalls, -⟩ := hvalidated.refuses hready
  rcases r with g | g | ⟨g, value⟩ | ⟨g, v⟩
  · exact h trivial
  · cases g with
    | scenario => exact not_negative (rkIspGetScenario_result camId _) hanswer herr
    | _ => exact h trivial
  · cases g with
    | lightBrightness =>
      exact not_negative (.inr (rkIspSetLightBrightness_result (s := { s with log := [] })
        (not_not.mp h))) hanswer herr
    | ldchLevel =>
      exact not_negative (rkIspSetLdchLevel_result (s := { s with log := [] }) h) hanswer herr
    | _ => exact h trivial
  · cases g with
    | scenario =>
      rcases rkIspSetScenario_calls env camId v { s with log := [] } with hblocked | hmem
      · exact not_negative (.inl hblocked) hanswer herr
      · -- the library was called
        have hlog := congrArg (fun o => o.2.log) hanswer
        simp only [answer, call_snd] at hlog
        exact hcalls .sysctlSwitchScene (hlog ▸ hmem)
    | _ => exact h trivial

/-- **A request is validated** if and only if the number is not negative, and the camera is there or
the request checks the number first. -/
theorem validated_iff (env : Env) (s : Cameras) (camId : Int32) (r : Request) :
    Validated env s camId r ↔ 0 ≤ camId.toInt ∧ (s.Ready camId ∨ r.Checks s) := by
  constructor
  · intro h
    by_cases hchecks : r.Checks s
    · exact ⟨nonneg_of_validated hchecks h, .inr hchecks⟩
    · have hready := ready_of_validated hchecks h
      exact ⟨hready.1, .inl hready⟩
  · rintro ⟨hpos, hready | hchecks⟩
    · exact validated_of_ready hready
    · exact validated_of_checks hpos hchecks

end

/-- Camera 0 is initialised, and the others are not; the memory before the arrays is not empty. -/
def oneCamera : Cameras where
  useGroup := false
  aiqCtx := fun i => i ≤ 0
  cameraGroupCtx := fun _ => false
  hdr := fun _ => false
  currentScenarioId := 0
  lightLevel := 50
  encoder := Isp.oneSensor.encoder
  log := []

/-- The library succeeds. -/
def quietEnv : Env := ⟨fun _ _ => ⟨0, true⟩, fun _ => 0, 0⟩

/-- **A negative number** is used as an index; the contrast of a camera that is not there is
handed to the library. -/
theorem not_validated_negative :
    ¬ Validated quietEnv oneCamera (-1) (.setInt .contrast 50) ∧
      .aiq .acpSetAttrib ∈ (answer quietEnv oneCamera (-1) (.setInt .contrast 50)).2.log := by
  have hlog : (answer quietEnv oneCamera (-1) (.setInt .contrast 50)).2.log =
      [.index .aiqCtx (-1), .index .aiqCtx (-1), .aiq .acpGetAttrib, .index .aiqCtx (-1),
        .aiq .acpSetAttrib] := by decide +kernel
  refine ⟨fun h => ?_, by rw [hlog]; simp⟩
  have hindex := h.indexes .aiqCtx (-1) (by rw [hlog]; simp)
  exact absurd hindex.1 (by decide)

end RkIpc.Camera
