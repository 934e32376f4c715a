import RkIpc.Camera.Context

/-!
# The requests of a camera

The functions `rk_isp_get_*` and `rk_isp_set_*` of `common/isp/rv1106/isp.c`, with the functions
that they call. What is handed to the AIQ library, the switch of the filter, the light and the
pauses of the capture are left out: none of them is an access to a context or to the parameters.

## Main definitions

* `intGetter`, `strGetter`, `intSetter`, `strSetter`: the families of functions
* `rkIspGetFrameRate`, ..., `rkIspSetAfMode`: the functions
* `rkIspSetFromIni`: the setters, called for all parameters in turn
* `rkIspSetHdr`, `rkIspSetScenario`: the two functions that set all parameters once more

## Main results

* `checksFirst_intGetter`, `checksFirst_intSetter`, ...: the functions that check the number first
* `accesses_rkIspSetScenario`: a function that does not check it; the arrays are indexed with the
  number, or with 0
-/

namespace RkIpc.Camera

open Imperative Text Param Video

/-- What a getter returns, and what it has written to `*value`. -/
abbrev GetResult (α : Type) := Int32 × Option α

/-- A setter. -/
abbrev Setter := Program Cameras Int32 Int32

/-! ## Getters -/

/-- A number of a camera is read. -/
def intGetter (name : String) (camId : Int32) : Program Cameras (GetResult ℤ) (GetResult ℤ) := do
  checkCameraId (-1, none) camId
  let entry ← scenarioEntry camId name
  let value ← getInt entry (-1)
  pure (0, some value)

/-- A string of a camera is read. -/
def strGetter (name : String) (default : Option Str) (camId : Int32) :
    Program Cameras (GetResult (Option Str)) (GetResult (Option Str)) := do
  checkCameraId (-1, none) camId
  let entry ← scenarioEntry camId name
  let value ← getString entry default
  pure (0, some value)

def rkIspGetFrameRate := intGetter ".adjustment:fps"
def rkIspGetContrast := intGetter ".adjustment:contrast"
def rkIspGetBrightness := intGetter ".adjustment:brightness"
def rkIspGetSaturation := intGetter ".adjustment:saturation"
def rkIspGetSharpness := intGetter ".adjustment:sharpness"
def rkIspGetHue := intGetter ".adjustment:hue"
def rkIspGetExposureMode := strGetter ".exposure:exposure_mode" none
def rkIspGetGainMode := strGetter ".exposure:gain_mode" none
def rkIspGetExposureTime := strGetter ".exposure:exposure_time" none
def rkIspGetExposureGain := intGetter ".exposure:exposure_gain"
def rkIspGetNightToDay := strGetter ".night_to_day:night_to_day" none
def rkIspGetFillLightMode := strGetter ".night_to_day:fill_light_mode" none
def rkIspGetLightBrightness := intGetter ".night_to_day:light_brightness"
def rkIspGetNightToDayFilterLevel := intGetter ".night_to_day:night_to_day_filter_level"
def rkIspGetNightToDayFilterTime := intGetter ".night_to_day:night_to_day_filter_time"
def rkIspGetHdr := strGetter ".blc:hdr" none
def rkIspGetBlcRegion := strGetter ".blc:blc_region" none
def rkIspGetHlc := strGetter ".blc:hlc" none
def rkIspGetHdrLevel := intGetter ".blc:hdr_level"
def rkIspGetBlcStrength := intGetter ".blc:blc_strength"
def rkIspGetHlcLevel := intGetter ".blc:hlc_level"
def rkIspGetDarkBoostLevel := intGetter ".blc:dark_boost_level"
def rkIspGetWhiteBlanceStyle := strGetter ".white_blance:white_blance_style" none
def rkIspGetWhiteBlanceRed := intGetter ".white_blance:white_blance_red"
def rkIspGetWhiteBlanceGreen := intGetter ".white_blance:white_blance_green"
def rkIspGetWhiteBlanceBlue := intGetter ".white_blance:white_blance_blue"
def rkIspGetNoiseReduceMode := strGetter ".enhancement:noise_reduce_mode" none
def rkIspGetDehaze := strGetter ".enhancement:dehaze" none
def rkIspGetGrayScaleMode := strGetter ".enhancement:gray_scale_mode" none
def rkIspGetDistortionCorrection := strGetter ".enhancement:distortion_correction" none
def rkIspGetSpatialDenoiseLevel := intGetter ".enhancement:spatial_denoise_level"
def rkIspGetTemporalDenoiseLevel := intGetter ".enhancement:temporal_denoise_level"
def rkIspGetDehazeLevel := intGetter ".enhancement:dehaze_level"
def rkIspGetFecLevel := intGetter ".enhancement:fec_level"
def rkIspGetLdchLevel := intGetter ".enhancement:ldch_level"
def rkIspGetPowerLineFrequencyMode :=
  strGetter ".video_adjustment:power_line_frequency_mode" none
def rkIspGetImageFlip := strGetter ".video_adjustment:image_flip" none
def rkIspGetAfMode := strGetter ".auto_focus:af_mode" (some (lit "auto"))
def rkIspGetZoomLevel := intGetter ".auto_focus:zoom_level"
def rkIspGetFocusLevel := intGetter ".auto_focus:focus_level"

/-- **`rk_isp_get_scenario`** does not look at the number of the camera. -/
def rkIspGetScenario (_camId : Int32) :
    Program Cameras (GetResult (Option Str)) (GetResult (Option Str)) := do
  let value ← getString (lit "isp:scenario") none
  pure (0, some value)

/-! ## Setters -/

section

variable {ρ : Type}

/-- A number of a camera is stored. -/
def setScenarioInt (camId : Int32) (name : String) (value : Int32) : Program Cameras ρ Unit := do
  let entry ← scenarioEntry camId name
  setInt entry value.toInt

/-- A string of a camera is stored. -/
def setScenarioString (camId : Int32) (name : String) (value : Str) :
    Program Cameras ρ Unit := do
  let entry ← scenarioEntry camId name
  setString entry value

end

/-- A number is handed to the AIQ library, and stored. -/
def intSetter (calls : Int32 → Setter) (name : String) (camId value : Int32) : Setter := do
  checkCameraId (-1) camId
  let ret ← calls camId
  setScenarioInt camId name value
  pure ret

/-- A string is handed to the AIQ library, and stored. -/
def strSetter (calls : Int32 → Setter) (name : String) (camId : Int32) (value : Str) : Setter := do
  checkCameraId (-1) camId
  let ret ← calls camId
  setScenarioString camId name value
  pure ret

section

variable (env : Env)

/-- One call, with its result. -/
def oneCall (call : AiqCall) (camId : Int32) : Setter := do
  let r ← aiq env camId call
  pure r.ret

/-- Attributes are read, changed and written, with the result of the writing. -/
def getSetCalls (get set : AiqCall) (camId : Int32) : Setter := do
  let _ ← aiq env camId get
  let r ← aiq env camId set
  pure r.ret

/-- The attributes of the picture, with both results. -/
def acpCalls (camId : Int32) : Setter := do
  let r₁ ← aiq env camId .acpGetAttrib
  let r₂ ← aiq env camId .acpSetAttrib
  pure (r₁.ret ||| r₂.ret)

/-- Calls whose result is not kept: the function returns a variable that was not set. -/
def unset (calls : Int32 → Setter) (camId : Int32) : Setter := do
  let _ ← calls camId
  pure env.unset

/-- No call. -/
def noCalls (_camId : Int32) : Setter := pure 0

def rkIspSetContrast := intSetter (acpCalls env) ".adjustment:contrast"
def rkIspSetBrightness := intSetter (acpCalls env) ".adjustment:brightness"
def rkIspSetSaturation := intSetter (acpCalls env) ".adjustment:saturation"
def rkIspSetHue := intSetter (acpCalls env) ".adjustment:hue"

/-- **`rk_isp_set_sharpness`**: nothing is stored if the call fails. -/
def rkIspSetSharpness (camId value : Int32) : Setter := do
  checkCameraId (-1) camId
  let r ← aiq env camId .asharpV33SetStrength
  if r.ret ≠ 0 then pure r.ret
  else
    setScenarioInt camId ".adjustment:sharpness" value
    pure r.ret

/-- `rk_isp_set_frame_rate_without_ini`. -/
def rkIspSetFrameRateWithoutIni (camId _value : Int32) : Setter := do
  checkCameraId (-1) camId
  let _ ← aiq env camId .aeGetExpSwAttr
  let _ ← aiq env camId .aeSetExpSwAttr
  pure 0

/-- **`rk_isp_set_frame_rate`**, with the streams that are enabled. -/
def rkIspSetFrameRate (camId value : Int32) : Setter := do
  checkCameraId (-1) camId
  let _ ← aiq env camId .aeGetExpSwAttr
  let _ ← aiq env camId .aeSetExpSwAttr
  setEncoder fun e => Isp.streams.foldlM Isp.resetStream e
  setScenarioInt camId ".adjustment:fps" value
  pure 0

/-- **`rk_isp_set_exposure_mode`** looks at the working mode unless the value is `auto`. -/
def rkIspSetExposureMode (camId : Int32) (value : Str) : Setter := do
  checkCameraId (-1) camId
  let _ ← aiq env camId .aeGetExpSwAttr
  let _ ← if value = lit "auto" then pure false else notNormalMode camId
  let _ ← aiq env camId .aeSetExpSwAttr
  setScenarioString camId ".exposure:exposure_mode" value
  pure 0

def rkIspSetGainMode :=
  strSetter (getSetCalls env .aeGetExpSwAttr .aeSetExpSwAttr) ".exposure:gain_mode"
def rkIspSetExposureTime :=
  strSetter (getSetCalls env .aeGetExpSwAttr .aeSetExpSwAttr) ".exposure:exposure_time"

/-- **`rk_isp_set_exposure_gain`** has nothing to do unless the gain is set by hand. -/
def rkIspSetExposureGain (camId value : Int32) : Setter := do
  checkCameraId (-1) camId
  let attr ← aiq env camId .aeGetExpSwAttr
  if !attr.flag then pure 0
  else
    let r ← aiq env camId .aeSetExpSwAttr
    setScenarioInt camId ".exposure:exposure_gain" value
    pure r.ret

/-- `rk_isp_enable_ircut`: the numbers of the pins are read. -/
def rkIspEnableIrcut : Program Cameras Int32 Unit := do
  let _ ← getInt (lit "isp:ircut_open_gpio") (-1)
  let _ ← getInt (lit "isp:ircut_close_gpio") (-1)
  pure ()

/-- **`rk_isp_set_night_to_day`**. -/
def rkIspSetNightToDay (camId : Int32) (value : Str) : Setter := do
  checkCameraId (-1) camId
  let _ ← aiq env camId .aieGetAttrib
  if value = lit "night" then
    let _ ← aiq env camId .aieSetAttrib
    rkIspEnableIrcut
  else
    rkIspEnableIrcut
    let _ ← aiq env camId .aieSetAttrib
  setScenarioString camId ".night_to_day:night_to_day" value
  pure env.unset

def rkIspSetFillLightMode := strSetter (unset env noCalls) ".night_to_day:fill_light_mode"

/-- The light is set to a level. -/
def setLightLevel (camId value : Int32) : Setter := do
  checkCameraId (-1) camId
  let s ← Program.get
  let ret := env.setLightStrength s.log
  setScenarioInt camId ".night_to_day:light_brightness" value
  Program.modify fun s => { s with lightLevel := value }
  pure ret

/-- **`rk_isp_set_light_brightness`** returns before the check if there is nothing to do. -/
def rkIspSetLightBrightness (camId value : Int32) : Setter := do
  let s ← Program.get
  if s.lightLevel = value then pure 0 else setLightLevel env camId value

def rkIspSetNightToDayFilterLevel :=
  intSetter (unset env noCalls) ".night_to_day:night_to_day_filter_level"
def rkIspSetNightToDayFilterTime :=
  intSetter (unset env noCalls) ".night_to_day:night_to_day_filter_time"

/-- A switch that is not there in the HDR mode. -/
def normalStrSetter (name : String) (camId : Int32) (value : Str) : Setter := do
  checkCameraId (-1) camId
  checkNormalMode 0 camId
  let ret ← getSetCalls env .aeGetLinExpAttr .aeSetLinExpAttr camId
  setScenarioString camId name value
  pure ret

def rkIspSetBlcRegion := normalStrSetter env ".blc:blc_region"
def rkIspSetHlc := normalStrSetter env ".blc:hlc"

def rkIspSetHdrLevel := intSetter (unset env (oneCall env .setDrcGain)) ".blc:hdr_level"

/-- A level that is not there in the HDR mode, or if its switch is off. -/
def normalIntSetter (name : String) (camId value : Int32) : Setter := do
  checkCameraId (-1) camId
  checkNormalMode 0 camId
  let attr ← aiq env camId .aeGetLinExpAttr
  if !attr.flag then pure 0
  else
    let r ← aiq env camId .aeSetLinExpAttr
    setScenarioInt camId name value
    pure r.ret

/-- A value that is not zero. -/
def orOne (value : Int32) : Int32 := if value = 0 then 1 else value

def rkIspSetBlcStrength := normalIntSetter env ".blc:blc_strength"
def rkIspSetHlcLevel (camId value : Int32) :=
  normalIntSetter env ".blc:hlc_level" camId (orOne value)

def rkIspSetDarkBoostLevel := intSetter (oneCall env .setDrcGain) ".blc:dark_boost_level"

def rkIspSetWhiteBlanceStyle :=
  strSetter (oneCall env .awbSetWpModeAttrib) ".white_blance:white_blance_style"

/-- A gain of the white balance, which is not set in the automatic mode. -/
def whiteBlanceSetter (name : String) (camId value : Int32) : Setter := do
  checkCameraId (-1) camId
  let mode ← aiq env camId .awbGetWpModeAttrib
  if mode.flag then pure 0
  else
    let _ ← aiq env camId .awbGetMwbAttrib
    let _ ← aiq env camId .awbSetMwbAttrib
    setScenarioInt camId name (orOne value)
    pure env.unset

def rkIspSetWhiteBlanceRed := whiteBlanceSetter env ".white_blance:white_blance_red"
def rkIspSetWhiteBlanceGreen := whiteBlanceSetter env ".white_blance:white_blance_green"
def rkIspSetWhiteBlanceBlue := whiteBlanceSetter env ".white_blance:white_blance_blue"

def rkIspSetNoiseReduceMode := strSetter (unset env noCalls) ".enhancement:noise_reduce_mode"
def rkIspSetDehaze :=
  strSetter (getSetCalls env .adehazeV12GetSwAttrib .adehazeV12SetSwAttrib) ".enhancement:dehaze"
def rkIspSetGrayScaleMode :=
  strSetter (unset env (getSetCalls env .acgcGetAttrib .acgcSetAttrib))
    ".enhancement:gray_scale_mode"
def rkIspSetDistortionCorrection :=
  strSetter (getSetCalls env .aldchV21GetAttrib .aldchV21SetAttrib)
    ".enhancement:distortion_correction"

/-- A level of the noise reduction, which is 50 while the mode is `close` or the other one. -/
def denoiseSetter (calls : Int32 → Setter) (other name : String) (camId value : Int32) :
    Setter := do
  checkCameraId (-1) camId
  let mode ← Program.call (rkIspGetNoiseReduceMode camId)
  -- the mode is printed and compared
  let mode ← Program.ofOption mode.2.join
  let ret ← calls camId
  setScenarioInt camId name (if mode = lit "close" ∨ mode = lit other then 50 else value)
  pure ret

def rkIspSetSpatialDenoiseLevel :=
  denoiseSetter (getSetCalls env .aynrV22SetStrength .abayer2dnrV23GetStrength) "3dnr"
    ".enhancement:spatial_denoise_level"
def rkIspSetTemporalDenoiseLevel :=
  denoiseSetter (oneCall env .abayertnrV23SetStrength) "2dnr" ".enhancement:temporal_denoise_level"

/-- **`rk_isp_set_dehaze_level`** looks for the mode under the number of the camera, and not of the
scenario. -/
def rkIspSetDehazeLevel (camId value : Int32) : Setter := do
  checkCameraId (-1) camId
  let mode ← getString (lit "isp." ++ decimal camId.toInt ++ lit ".enhancement:dehaze")
    (some (lit "close"))
  let mode ← Program.ofOption mode
  if mode = lit "close" then pure 0
  else
    let ret ← getSetCalls env .adehazeV12GetSwAttrib .adehazeV12SetSwAttrib camId
    setScenarioInt camId ".enhancement:dehaze_level" value
    pure ret

def rkIspSetFecLevel := intSetter noCalls ".enhancement:fec_level"

/-- **`rk_isp_set_ldch_level`** returns before the check if the group corrects the distortion. -/
def rkIspSetLdchLevel (camId value : Int32) : Setter := do
  let groupLdch ← getInt (lit "isp:group_ldch") 0
  if groupLdch ≠ 0 then pure 0
  else
    intSetter (getSetCalls env .aldchV21GetAttrib .aldchV21SetAttrib) ".enhancement:ldch_level"
      camId (if value < 0 then 0 else value)

def rkIspSetPowerLineFrequencyMode :=
  strSetter (getSetCalls env .aeGetExpSwAttr .aeSetExpSwAttr)
    ".video_adjustment:power_line_frequency_mode"

/-- **`rk_isp_set_image_flip`** has nothing to do for a group. -/
def rkIspSetImageFlip (camId : Int32) (value : Str) : Setter := do
  checkCameraId (-1) camId
  let s ← Program.get
  if s.useGroup then pure 0
  else
    let _ ← aiq env camId .setMirrorFlip
    setScenarioString camId ".video_adjustment:image_flip" value
    pure env.unset

/-- **`rk_isp_set_af_mode`** knows three modes. -/
def rkIspSetAfMode (camId : Int32) (value : Str) : Setter := do
  checkCameraId (-1) camId
  if value = lit "auto" ∨ value = lit "semi-auto" ∨ value = lit "manual" then
    let _ ← aiq env camId .setFocusMode
    setScenarioString camId ".auto_focus:af_mode" value
    pure 0
  else pure (-1)

/-! ## All parameters -/

/-- A step of `rk_isp_set_from_ini`: a parameter, and the function that it is handed to. -/
inductive IniStep
  | int (name : String) (default : ℤ) (set : Int32 → Int32 → Setter)
  | str (name default : String) (set : Int32 → Str → Setter)

/-- The step for a camera. A string goes through `char value[128]`. -/
def IniStep.run (camId : Int32) : IniStep → Program Cameras Int32 PUnit
  | .int name default set => do
    let entry ← scenarioEntry camId name
    let value ← getInt entry default
    let _ ← Program.call (set camId (.ofInt value))
    pure ()
  | .str name default set => do
    let entry ← scenarioEntry camId name
    let value ← getString entry (some (lit default))
    let value ← Program.ofOption (value.filter fun value => value.length < 128)
    let _ ← Program.call (set camId value)
    pure ()

/-- The steps. -/
def iniSteps : List IniStep :=
  [.int ".adjustment:fps" 30 (rkIspSetFrameRateWithoutIni env),
    .int ".adjustment:contrast" 50 (rkIspSetContrast env),
    .int ".adjustment:brightness" 50 (rkIspSetBrightness env),
    .int ".adjustment:saturation" 50 (rkIspSetSaturation env),
    .int ".adjustment:sharpness" 50 (rkIspSetSharpness env),
    .int ".adjustment:hue" 50 (rkIspSetHue env),
    .str ".exposure:exposure_mode" "auto" (rkIspSetExposureMode env),
    .str ".exposure:gain_mode" "auto" (rkIspSetGainMode env),
    .str ".exposure:exposure_time" "1/6" (rkIspSetExposureTime env),
    .int ".exposure:exposure_gain" 1 (rkIspSetExposureGain env),
    .str ".night_to_day:night_to_day" "day" (rkIspSetNightToDay env),
    .str ".night_to_day:fill_light_mode" "IR" (rkIspSetFillLightMode env),
    .int ".night_to_day:light_brightness" 1 (rkIspSetLightBrightness env),
    .str ".blc:blc_region" "close" (rkIspSetBlcRegion env),
    .str ".blc:hlc" "close" (rkIspSetHlc env),
    .int ".blc:hdr_level" 1 (rkIspSetHdrLevel env),
    .int ".blc:blc_strength" 1 (rkIspSetBlcStrength env),
    .int ".blc:hlc_level" 0 (rkIspSetHlcLevel env),
    .int ".blc:dark_boost_level" 0 (rkIspSetDarkBoostLevel env),
    .str ".white_blance:white_blance_style" "autoWhiteBalance" (rkIspSetWhiteBlanceStyle env),
    .int ".white_blance:white_blance_red" 50 (rkIspSetWhiteBlanceRed env),
    .int ".white_blance:white_blance_green" 50 (rkIspSetWhiteBlanceGreen env),
    .int ".white_blance:white_blance_blue" 50 (rkIspSetWhiteBlanceBlue env),
    .str ".enhancement:noise_reduce_mode" "close" (rkIspSetNoiseReduceMode env),
    .str ".enhancement:dehaze" "close" (rkIspSetDehaze env),
    .str ".enhancement:gray_scale_mode" "[0-255]" (rkIspSetGrayScaleMode env),
    .str ".enhancement:distortion_correction" "close" (rkIspSetDistortionCorrection env),
    .int ".enhancement:spatial_denoise_level" 50 (rkIspSetSpatialDenoiseLevel env),
    .int ".enhancement:temporal_denoise_level" 50 (rkIspSetTemporalDenoiseLevel env),
    .int ".enhancement:dehaze_level" 50 (rkIspSetDehazeLevel env),
    .int ".enhancement:ldch_level" 0 (rkIspSetLdchLevel env),
    .str ".video_adjustment:power_line_frequency_mode" "PAL(50HZ)"
      (rkIspSetPowerLineFrequencyMode env),
    .str ".video_adjustment:image_flip" "close" (rkIspSetImageFlip env)]

/-- **`rk_isp_set_from_ini`**. -/
def rkIspSetFromIni (camId : Int32) : Setter := do
  checkCameraId (-1) camId
  (iniSteps env).forM (IniStep.run camId)
  pure 0

/-! ## Starting and stopping -/

/-- `strcpy(sub_scene, …)`, into 32 bytes. -/
def copySubScene (entry default : String) : Program Cameras Int32 Unit := do
  let scene ← getString (lit entry) (some (lit default))
  let _ ← Program.ofOption (scene.filter fun scene => scene.length < 32)
  pure ()

/-- The scenario is used from now on. -/
def useScenario (scenarioId : ℤ) (entry default : String) : Program Cameras Int32 Unit := do
  Program.modify fun s => { s with currentScenarioId := scenarioId }
  copySubScene entry default

/-- `g_aiq_ctx[cam_id]` is set. -/
def setAiqCtx (camId : Int32) (there : Bool) : Program Cameras Int32 Unit := do
  record (.index .aiqCtx camId.toInt)
  Program.modify fun s => { s with aiqCtx := Function.update s.aiqCtx camId.toInt there }

/-- `g_camera_group_ctx[cam_group_id]` is set. -/
def setCameraGroupCtx (camId : Int32) (there : Bool) : Program Cameras Int32 Unit := do
  record (.index .cameraGroupCtx camId.toInt)
  Program.modify fun s =>
    { s with cameraGroupCtx := Function.update s.cameraGroupCtx camId.toInt there }

/-- A function of the AIQ library on `g_aiq_ctx[cam_id]` or `g_camera_group_ctx[cam_id]`. -/
def aiqAt (a : CtxArray) (camId : Int32) (call : AiqCall) : Program Cameras Int32 AiqResult := do
  record (.index a camId.toInt)
  aiqFree env call

/-- `sample_common_isp_init`. -/
def sampleCommonIspInit (camId : Int32) (hdr : Bool) : Setter := do
  if maxAiqCtx ≤ camId.toInt then pure (-1)
  else
    record (.index .wdrMode camId.toInt)
    Program.modify fun s => { s with hdr := Function.update s.hdr camId.toInt hdr }
    let _ ← aiqFree env .sysctlEnumStaticMetasByPhyId
    let _ ← aiqFree env .sysctlPreInitDevBufCnt
    let r ← aiqFree env .sysctlPreInitScene
    if r.ret < 0 then pure (-1)
    else
      let ctx ← aiqFree env .sysctlInit
      if !ctx.flag then pure (-1)
      else
        setAiqCtx camId true
        pure 0

/-- `sample_common_isp_run`. -/
def sampleCommonIspRun (camId : Int32) : Setter := do
  checkCameraId (-1) camId
  record (.index .wdrMode camId.toInt)
  let r ← aiqAt env .aiqCtx camId .sysctlPrepare
  if r.ret ≠ 0 then
    setAiqCtx camId false
    pure (-1)
  else
    let r ← aiqAt env .aiqCtx camId .sysctlStart
    pure (if r.ret ≠ 0 then -1 else 0)

/-- `rk_isp_init`. -/
def rkIspInit (camId : Int32) : Setter := do
  let scenario ← getString (lit "isp:scenario") (some (lit "normal"))
  let scenario ← Program.ofOption scenario
  if scenario = lit "normal" then useScenario 0 "isp:normal_scene" "day"
  else useScenario 1 "isp:custom1_scene" "night"
  let entry ← scenarioEntry camId ".blc:hdr"
  let mode ← getString entry (some (lit "close"))
  let mode ← Program.ofOption mode
  let ret ← Program.call (sampleCommonIspInit env camId (mode = lit "HDR2"))
  let run ← Program.call (sampleCommonIspRun env camId)
  pure (ret ||| run)

/-- `rk_isp_deinit`. -/
def rkIspDeinit (camId : Int32) : Setter := do
  checkCameraId (-1) camId
  let _ ← aiqAt env .aiqCtx camId .sysctlStop
  let _ ← aiqAt env .aiqCtx camId .sysctlDeinit
  setAiqCtx camId false
  pure 0

/-- The sensors of a group; their names go into an array for eight of them. -/
def groupSensors : Program Cameras Int32 PUnit := do
  let snsNum ← getInt (lit "avs:sensor_num") 6
  let snsNum ← Program.ofOption (if snsNum ≤ maxAiqCtx then some snsNum.toNat else none)
  (List.range snsNum).forM fun _ => do
    let _ ← aiqFree env .sysctlEnumStaticMetasByPhyId
    let _ ← aiqFree env .sysctlPreInitDevBufCnt
    let _ ← aiqFree env .sysctlPreInitScene
    pure ()

/-- `isp_camera_group_init`. -/
def ispCameraGroupInit (camId : Int32) : Setter := do
  groupSensors env
  let ctx ← aiqFree env .camgroupCreate
  setCameraGroupCtx camId ctx.flag
  record (.index .cameraGroupCtx camId.toInt)
  if !ctx.flag then pure (-1)
  else
    let r₁ ← aiqAt env .cameraGroupCtx camId .camgroupPrepare
    let r₂ ← aiqAt env .cameraGroupCtx camId .camgroupStart
    pure (r₁.ret ||| r₂.ret)

/-- `isp_camera_group_stop`, which is `rk_isp_group_deinit`. -/
def ispCameraGroupStop (camId : Int32) : Setter := do
  checkCameraId (-1) camId
  let _ ← aiqAt env .cameraGroupCtx camId .camgroupStop
  let _ ← aiqAt env .cameraGroupCtx camId .camgroupDestroy
  setCameraGroupCtx camId false
  pure 0

/-- `rk_isp_group_init`. -/
def rkIspGroupInit (camId : Int32) : Setter := do
  Program.modify fun s => { s with useGroup := true }
  let mode ← getString (lit "isp." ++ decimal camId.toInt ++ lit ".blc:hdr") (some (lit "close"))
  let _ ← Program.ofOption mode
  Program.call (ispCameraGroupInit env camId)

/-- `rk_isp_set_from_ini(0)`, unless the parameters say otherwise. -/
def initFromIni : Setter := do
  let initFromIni ← getInt (lit "isp:init_from_ini") 1
  if initFromIni ≠ 0 then Program.call (rkIspSetFromIni env 0) else pure 0

/-- **`rk_isp_set_hdr`** starts camera 0 once more if the mode changes. -/
def rkIspSetHdr (camId : Int32) (value : Str) : Setter := do
  checkCameraId (-1) camId
  let old ← Program.call (rkIspGetHdr camId)
  let entry ← scenarioEntry camId ".blc:hdr"
  let _ ← getInt (lit "video.source:enable_npu") 0
  let _ ← getInt (lit "video.source:enable_venc_0") 1
  let _ ← getInt (lit "video.source:enable_venc_1") 1
  let _ ← getInt (lit "video.source:enable_pp") 1
  let old ← Program.ofOption old.2.join
  if value = old then pure 0
  else
    let groupMode ← getInt (lit "isp:group_mode") 0
    if groupMode ≠ 0 then
      let _ ← Program.call (ispCameraGroupStop env 0)
      setString entry value
      let _ ← Program.call (rkIspGroupInit env 0)
      initFromIni env
    else
      let _ ← Program.call (rkIspDeinit env 0)
      setString entry value
      let _ ← Program.call (rkIspInit env 0)
      initFromIni env

/-- **`rk_isp_set_scenario`** does not check the number of the camera. -/
def rkIspSetScenario (camId : Int32) (value : Str) : Setter := do
  if value = lit "normal" then useScenario 0 "isp:normal_scene" "day"
  else if value = lit "custom1" then useScenario 1 "isp:custom1_scene" "night"
  else pure ()
  let _ ← aiq env camId .sysctlSwitchScene
  let _ ← initFromIni env
  setString (lit "isp:scenario") value
  pure 0

end

/-! ## What the functions access -/

section

variable {env : Env} {camId value : Int32} {s : Str} {name : String} {calls : Int32 → Setter}

theorem checksFirst_intGetter : ChecksFirst (-1, none) camId (intGetter name camId) :=
  .bind fun _ => .bind accesses_scenarioEntry fun _ =>
    .bind accesses_getInt fun _ => .pure _

theorem checksFirst_strGetter {default : Option Str} :
    ChecksFirst (-1, none) camId (strGetter name default camId) :=
  .bind fun _ => .bind accesses_scenarioEntry fun _ =>
    .bind accesses_getString fun _ => .pure _

theorem accesses_rkIspGetScenario : Accesses camId (rkIspGetScenario camId) :=
  .bind accesses_getString fun _ => .pure _

theorem accesses_setScenarioInt {ρ : Type} :
    Accesses camId (setScenarioInt camId name value : Program Cameras ρ Unit) :=
  .bind accesses_scenarioEntry fun _ => accesses_setEncoder

theorem accesses_setScenarioString {ρ : Type} :
    Accesses camId (setScenarioString camId name s : Program Cameras ρ Unit) :=
  .bind accesses_scenarioEntry fun _ => accesses_setEncoder

theorem checksFirst_intSetter (h : Accesses camId (calls camId)) :
    ChecksFirst (-1) camId (intSetter calls name camId value) :=
  .bind fun _ => .bind h fun _ =>
    .bind accesses_setScenarioInt fun _ => .pure _

theorem checksFirst_strSetter (h : Accesses camId (calls camId)) :
    ChecksFirst (-1) camId (strSetter calls name camId s) :=
  .bind fun _ => .bind h fun _ =>
    .bind accesses_setScenarioString fun _ => .pure _

theorem accesses_oneCall {call : AiqCall} : Accesses camId (oneCall env call camId) :=
  .bind accesses_aiq fun _ => .pure _

theorem accesses_getSetCalls {get set : AiqCall} :
    Accesses camId (getSetCalls env get set camId) :=
  .bind accesses_aiq fun _ => .bind accesses_aiq fun _ => .pure _

theorem accesses_acpCalls : Accesses camId (acpCalls env camId) :=
  .bind accesses_aiq fun _ => .bind accesses_aiq fun _ => .pure _

theorem accesses_unset (h : Accesses camId (calls camId)) :
    Accesses camId (unset env calls camId) :=
  .bind h fun _ => .pure _

theorem accesses_noCalls : Accesses camId (noCalls camId) := .pure _

theorem checksFirst_rkIspSetSharpness :
    ChecksFirst (-1) camId (rkIspSetSharpness env camId value) :=
  .bind fun _ => .bind accesses_aiq fun _ =>
    .ite (.pure _) (.bind accesses_setScenarioInt fun _ => .pure _)

theorem checksFirst_rkIspSetFrameRateWithoutIni :
    ChecksFirst (-1) camId (rkIspSetFrameRateWithoutIni env camId value) :=
  .bind fun _ => .bind accesses_aiq fun _ => .bind accesses_aiq fun _ =>
    .pure _

theorem checksFirst_rkIspSetFrameRate :
    ChecksFirst (-1) camId (rkIspSetFrameRate env camId value) :=
  .bind fun _ => .bind accesses_aiq fun _ => .bind accesses_aiq fun _ =>
    .bind accesses_setEncoder fun _ => .bind accesses_setScenarioInt fun _ => .pure _

theorem checksFirst_rkIspSetExposureMode :
    ChecksFirst (-1) camId (rkIspSetExposureMode env camId s) := by
  refine .bind fun _ => .bind accesses_aiq fun _ => ?_
  have hset : Accesses camId (do
      let _ ← aiq env camId .aeSetExpSwAttr
      setScenarioString camId ".exposure:exposure_mode" s
      pure 0 : Setter) :=
    .bind accesses_aiq fun _ => .bind accesses_setScenarioString fun _ => .pure _
  exact .ite (.bind (.pure _) fun _ => hset) (.bind accesses_notNormalMode fun _ => hset)

theorem checksFirst_rkIspSetExposureGain :
    ChecksFirst (-1) camId (rkIspSetExposureGain env camId value) :=
  .bind fun _ => .bind accesses_aiq fun _ =>
    .ite (.pure _) (.bind accesses_aiq fun _ => .bind accesses_setScenarioInt fun _ => .pure _)

theorem accesses_rkIspEnableIrcut : Accesses camId rkIspEnableIrcut :=
  .bind accesses_getInt fun _ => .bind accesses_getInt fun _ => .pure _

theorem checksFirst_rkIspSetNightToDay :
    ChecksFirst (-1) camId (rkIspSetNightToDay env camId s) := by
  refine .bind fun _ => .bind accesses_aiq fun _ => ?_
  have hstore : Accesses camId (do
      setScenarioString camId ".night_to_day:night_to_day" s
      pure env.unset : Setter) := .bind accesses_setScenarioString fun _ => .pure _
  exact .ite (.bind accesses_aiq fun _ => .bind accesses_rkIspEnableIrcut fun _ => hstore)
    (.bind accesses_rkIspEnableIrcut fun _ => .bind accesses_aiq fun _ => hstore)

theorem checksFirst_setLightLevel : ChecksFirst (-1) camId (setLightLevel env camId value) :=
  .bind fun _ => .bind .get fun _ => .bind accesses_setScenarioInt fun _ =>
    .bind (.modify fun _ => rfl) fun _ => .pure _

theorem accesses_rkIspSetLightBrightness :
    Accesses camId (rkIspSetLightBrightness env camId value) :=
  .bind .get fun _ => .ite (.pure _) checksFirst_setLightLevel.accesses

theorem checksFirst_normalStrSetter : ChecksFirst (-1) camId (normalStrSetter env name camId s) :=
  .bind fun _ => .bind accesses_checkNormalMode fun _ =>
    .bind accesses_getSetCalls fun _ => .bind accesses_setScenarioString fun _ => .pure _

theorem checksFirst_normalIntSetter :
    ChecksFirst (-1) camId (normalIntSetter env name camId value) :=
  .bind fun _ => .bind accesses_checkNormalMode fun _ =>
    .bind accesses_aiq fun _ => .ite (.pure _)
      (.bind accesses_aiq fun _ => .bind accesses_setScenarioInt fun _ => .pure _)

theorem checksFirst_whiteBlanceSetter :
    ChecksFirst (-1) camId (whiteBlanceSetter env name camId value) :=
  .bind fun _ => .bind accesses_aiq fun _ => .ite (.pure _)
    (.bind accesses_aiq fun _ => .bind accesses_aiq fun _ =>
      .bind accesses_setScenarioInt fun _ => .pure _)

theorem checksFirst_denoiseSetter {other : String} (h : Accesses camId (calls camId)) :
    ChecksFirst (-1) camId (denoiseSetter calls other name camId value) :=
  .bind fun _ => .bind (.call checksFirst_strGetter.accesses) fun _ =>
    .bind (.ofOption _) fun _ => .bind h fun _ => .bind accesses_setScenarioInt fun _ => .pure _

theorem checksFirst_rkIspSetDehazeLevel :
    ChecksFirst (-1) camId (rkIspSetDehazeLevel env camId value) :=
  .bind fun _ => .bind accesses_getString fun _ =>
    .bind (.ofOption _) fun _ => .ite (.pure _)
      (.bind accesses_getSetCalls fun _ => .bind accesses_setScenarioInt fun _ => .pure _)

theorem accesses_rkIspSetLdchLevel : Accesses camId (rkIspSetLdchLevel env camId value) :=
  .bind accesses_getInt fun _ => .ite (.pure _)
    (checksFirst_intSetter accesses_getSetCalls).accesses

theorem checksFirst_rkIspSetImageFlip : ChecksFirst (-1) camId (rkIspSetImageFlip env camId s) :=
  .bind fun _ => .bind .get fun _ => .ite (.pure _)
    (.bind accesses_aiq fun _ => .bind accesses_setScenarioString fun _ => .pure _)

theorem checksFirst_rkIspSetAfMode : ChecksFirst (-1) camId (rkIspSetAfMode env camId s) :=
  .bind fun _ => .ite
    (.bind accesses_aiq fun _ => .bind accesses_setScenarioString fun _ => .pure _) (.pure _)

theorem accesses_run_int {default : ℤ} {set : Int32 → Int32 → Setter}
    (h : ∀ value, Accesses camId (set camId value)) :
    Accesses camId ((IniStep.int name default set).run camId) :=
  .bind accesses_scenarioEntry fun _ => .bind accesses_getInt fun _ =>
    .bind (.call (h _)) fun _ => .pure _

theorem accesses_run_str {default : String} {set : Int32 → Str → Setter}
    (h : ∀ value, Accesses camId (set camId value)) :
    Accesses camId ((IniStep.str name default set).run camId) :=
  .bind accesses_scenarioEntry fun _ => .bind accesses_getString fun _ =>
    .bind (.ofOption _) fun _ => .bind (.call (h _)) fun _ => .pure _

theorem accesses_iniSteps : ∀ step ∈ iniSteps env, Accesses camId (step.run camId) := by
  simp only [iniSteps, List.forall_mem_cons]
  exact ⟨accesses_run_int fun _ => checksFirst_rkIspSetFrameRateWithoutIni.accesses,
    accesses_run_int fun _ => (checksFirst_intSetter accesses_acpCalls).accesses,
    accesses_run_int fun _ => (checksFirst_intSetter accesses_acpCalls).accesses,
    accesses_run_int fun _ => (checksFirst_intSetter accesses_acpCalls).accesses,
    accesses_run_int fun _ => checksFirst_rkIspSetSharpness.accesses,
    accesses_run_int fun _ => (checksFirst_intSetter accesses_acpCalls).accesses,
    accesses_run_str fun _ => checksFirst_rkIspSetExposureMode.accesses,
    accesses_run_str fun _ => (checksFirst_strSetter accesses_getSetCalls).accesses,
    accesses_run_str fun _ => (checksFirst_strSetter accesses_getSetCalls).accesses,
    accesses_run_int fun _ => checksFirst_rkIspSetExposureGain.accesses,
    accesses_run_str fun _ => checksFirst_rkIspSetNightToDay.accesses,
    accesses_run_str fun _ => (checksFirst_strSetter (accesses_unset accesses_noCalls)).accesses,
    accesses_run_int fun _ => accesses_rkIspSetLightBrightness,
    accesses_run_str fun _ => checksFirst_normalStrSetter.accesses,
    accesses_run_str fun _ => checksFirst_normalStrSetter.accesses,
    accesses_run_int fun _ => (checksFirst_intSetter (accesses_unset accesses_oneCall)).accesses,
    accesses_run_int fun _ => checksFirst_normalIntSetter.accesses,
    accesses_run_int fun _ => checksFirst_normalIntSetter.accesses,
    accesses_run_int fun _ => (checksFirst_intSetter accesses_oneCall).accesses,
    accesses_run_str fun _ => (checksFirst_strSetter accesses_oneCall).accesses,
    accesses_run_int fun _ => checksFirst_whiteBlanceSetter.accesses,
    accesses_run_int fun _ => checksFirst_whiteBlanceSetter.accesses,
    accesses_run_int fun _ => checksFirst_whiteBlanceSetter.accesses,
    accesses_run_str fun _ => (checksFirst_strSetter (accesses_unset accesses_noCalls)).accesses,
    accesses_run_str fun _ => (checksFirst_strSetter accesses_getSetCalls).accesses,
    accesses_run_str fun _ =>
      (checksFirst_strSetter (accesses_unset accesses_getSetCalls)).accesses,
    accesses_run_str fun _ => (checksFirst_strSetter accesses_getSetCalls).accesses,
    accesses_run_int fun _ => (checksFirst_denoiseSetter accesses_getSetCalls).accesses,
    accesses_run_int fun _ => (checksFirst_denoiseSetter accesses_oneCall).accesses,
    accesses_run_int fun _ => checksFirst_rkIspSetDehazeLevel.accesses,
    accesses_run_int fun _ => accesses_rkIspSetLdchLevel,
    accesses_run_str fun _ => (checksFirst_strSetter accesses_getSetCalls).accesses,
    accesses_run_str fun _ => checksFirst_rkIspSetImageFlip.accesses, nofun⟩

/-- **Setting all parameters** indexes the arrays with the number of the camera. -/
theorem checksFirst_rkIspSetFromIni : ChecksFirst (-1) camId (rkIspSetFromIni env camId) :=
  .bind fun _ => .bind (.forM accesses_iniSteps) fun _ => .pure _

theorem accesses_copySubScene {entry default : String} :
    Accesses camId (copySubScene entry default) :=
  .bind accesses_getString fun _ => .bind (.ofOption _) fun _ => .pure _

theorem accesses_useScenario {scenarioId : ℤ} {entry default : String} :
    Accesses camId (useScenario scenarioId entry default) :=
  .bind (.modify fun _ => rfl) fun _ => accesses_copySubScene

theorem accesses_setAiqCtx {there : Bool} : Accesses camId (setAiqCtx camId there) :=
  .bind (accesses_record (.inl rfl)) fun _ => .modify fun _ => rfl

theorem accesses_setCameraGroupCtx {there : Bool} :
    Accesses camId (setCameraGroupCtx camId there) :=
  .bind (accesses_record (.inl rfl)) fun _ => .modify fun _ => rfl

theorem accesses_aiqAt {a : CtxArray} {call : AiqCall} : Accesses camId (aiqAt env a camId call) :=
  .bind (accesses_record (.inl rfl)) fun _ => accesses_aiqFree

theorem accesses_sampleCommonIspInit {hdr : Bool} :
    Accesses camId (sampleCommonIspInit env camId hdr) :=
  .ite (.pure _) (.bind (accesses_record (.inl rfl)) fun _ => .bind (.modify fun _ => rfl) fun _ =>
    .bind accesses_aiqFree fun _ => .bind accesses_aiqFree fun _ => .bind accesses_aiqFree fun _ =>
      .ite (.pure _) (.bind accesses_aiqFree fun _ =>
        .ite (.pure _) (.bind accesses_setAiqCtx fun _ => .pure _)))

theorem checksFirst_sampleCommonIspRun : ChecksFirst (-1) camId (sampleCommonIspRun env camId) :=
  .bind fun _ => .bind (accesses_record (.inl rfl)) fun _ =>
    .bind accesses_aiqAt fun _ => .ite (.bind accesses_setAiqCtx fun _ => .pure _)
      (.bind accesses_aiqAt fun _ => .pure _)

theorem accesses_rkIspInit : Accesses camId (rkIspInit env camId) := by
  refine .bind accesses_getString fun _ => .bind (.ofOption _) fun _ => ?_
  have hstart : Accesses camId (do
      let entry ← scenarioEntry camId ".blc:hdr"
      let mode ← getString entry (some (lit "close"))
      let mode ← Program.ofOption mode
      let ret ← Program.call (sampleCommonIspInit env camId (mode = lit "HDR2"))
      let run ← Program.call (sampleCommonIspRun env camId)
      pure (ret ||| run) : Setter) :=
    .bind accesses_scenarioEntry fun _ => .bind accesses_getString fun _ =>
      .bind (.ofOption _) fun _ => .bind (.call accesses_sampleCommonIspInit) fun _ =>
        .bind (.call checksFirst_sampleCommonIspRun.accesses) fun _ => .pure _
  exact .ite (.bind accesses_useScenario fun _ => hstart)
    (.bind accesses_useScenario fun _ => hstart)

theorem checksFirst_rkIspDeinit : ChecksFirst (-1) camId (rkIspDeinit env camId) :=
  .bind fun _ => .bind accesses_aiqAt fun _ => .bind accesses_aiqAt fun _ =>
    .bind accesses_setAiqCtx fun _ => .pure _

theorem accesses_groupSensors : Accesses camId (groupSensors env) :=
  .bind accesses_getInt fun _ => .bind (.ofOption _) fun _ => .forM fun _ _ =>
    .bind accesses_aiqFree fun _ => .bind accesses_aiqFree fun _ =>
      .bind accesses_aiqFree fun _ => .pure _

theorem accesses_ispCameraGroupInit : Accesses camId (ispCameraGroupInit env camId) :=
  .bind accesses_groupSensors fun _ => .bind accesses_aiqFree fun _ =>
    .bind accesses_setCameraGroupCtx fun _ => .bind (accesses_record (.inl rfl)) fun _ =>
      .ite (.pure _) (.bind accesses_aiqAt fun _ => .bind accesses_aiqAt fun _ => .pure _)

theorem checksFirst_ispCameraGroupStop : ChecksFirst (-1) camId (ispCameraGroupStop env camId) :=
  .bind fun _ => .bind accesses_aiqAt fun _ => .bind accesses_aiqAt fun _ =>
    .bind accesses_setCameraGroupCtx fun _ => .pure _

theorem accesses_rkIspGroupInit : Accesses camId (rkIspGroupInit env camId) :=
  .bind (.modify fun _ => rfl) fun _ => .bind accesses_getString fun _ =>
    .bind (.ofOption _) fun _ => .call accesses_ispCameraGroupInit

/-- What is done for camera 0 is allowed for every camera. -/
theorem Accesses.zero {ρ α : Type} {x : Program Cameras ρ α} (h : Accesses 0 x) :
    Accesses camId x :=
  h.mono at_zero

theorem accesses_initFromIni : Accesses camId (initFromIni env) :=
  .bind accesses_getInt fun _ =>
    .ite (.call (Accesses.zero checksFirst_rkIspSetFromIni.accesses)) (.pure _)

/-- **Setting the mode** indexes the arrays with the number of the camera, or with 0. -/
theorem checksFirst_rkIspSetHdr : ChecksFirst (-1) camId (rkIspSetHdr env camId s) :=
  .bind fun _ => .bind (.call checksFirst_strGetter.accesses) fun _ =>
    .bind accesses_scenarioEntry fun _ => .bind accesses_getInt fun _ =>
    .bind accesses_getInt fun _ => .bind accesses_getInt fun _ => .bind accesses_getInt fun _ =>
    .bind (.ofOption _) fun _ => .ite (.pure _) (.bind accesses_getInt fun _ => .ite
      (.bind (.call (Accesses.zero checksFirst_ispCameraGroupStop.accesses)) fun _ =>
        .bind accesses_setEncoder fun _ =>
        .bind (.call (Accesses.zero accesses_rkIspGroupInit)) fun _ => accesses_initFromIni)
      (.bind (.call (Accesses.zero checksFirst_rkIspDeinit.accesses)) fun _ =>
        .bind accesses_setEncoder fun _ =>
        .bind (.call (Accesses.zero accesses_rkIspInit)) fun _ => accesses_initFromIni))

/-- **Setting the scenario** indexes the arrays with the number of the camera, or with 0. -/
theorem accesses_rkIspSetScenario : Accesses camId (rkIspSetScenario env camId s) := by
  have hswitch : Accesses camId (do
      let _ ← aiq env camId .sysctlSwitchScene
      let _ ← initFromIni env
      setString (lit "isp:scenario") s
      pure 0 : Setter) :=
    .bind accesses_aiq fun _ => .bind accesses_initFromIni fun _ =>
      .bind accesses_setEncoder fun _ => .pure _
  exact .ite (.bind accesses_useScenario fun _ => hswitch)
    (.ite (.bind accesses_useScenario fun _ => hswitch) hswitch)

end

end RkIpc.Camera
