import RkIpc.Camera.Validation
import RkIpc.Osd.Entry
import RkIpc.Server.Request
import RkIpc.System.Users

/-!
# Getters of a text

A getter of a text leaves in `const char *value` what `rk_param_get_string` has found, and its
handler sends the length, the text and the result. The default of these getters is a null pointer,
and the handler does not look at the pointer before `strlen`; where a getter returns early, the
pointer was never set. There is no result then.

## Main definitions

* `rkOsdGetType`, ..., `rkSystemGetHardwareId`: the getters of `osd.c` and `system.c`
* `TextGetter`: a getter with its handler and the entry it reads
* `textGetters`: all of them
* `TextGetter.serve`: what the handler does
* `TextGetter.Answers`, `TextGetter.HasText`: a request is answered, and its entry has a text

## Main results

* `textGetters_complete`: which handlers of the server send a text
* `answers_iff_hasText`: when a request is answered
-/

namespace RkIpc.Osd

open Text Param

/-- `snprintf(entry, 127, "osd.%d:…", id)`. -/
def osdTextEntry (name : String) (id : Int32) : Str := osdEntry id.toInt name

/-- A getter of a text of an entry. -/
def getOsdString (name : String) (p : Store) (id : Int32) : Option (Option Str) :=
  rkParamGetString p (osdTextEntry name id) none

def rkOsdGetDateStyle := getOsdString "date_style"
def rkOsdGetTimeStyle := getOsdString "time_style"
def rkOsdGetType := getOsdString "type"
def rkOsdGetDisplayText := getOsdString "display_text"
def rkOsdGetImagePath := getOsdString "image_path"
def rkOsdGetStyle := getOsdString "style"

/-- The name of a parameter of all entries. -/
def commonEntry (name : String) : Str := lit "osd.common:" ++ lit name

/-- A getter of a text for all entries. -/
def getCommonString (name : String) (p : Store) : Option (Option Str) :=
  rkParamGetString p (commonEntry name) none

def rkOsdGetAttribute := getCommonString "attribute"
def rkOsdGetFontColorMode := getCommonString "font_color_mode"
def rkOsdGetFontColor := getCommonString "font_color"
def rkOsdGetAlignment := getCommonString "alignment"
def rkOsdGetFontPath := getCommonString "font_path"

end RkIpc.Osd

namespace RkIpc.System

open Text Param

/-- The name of a parameter about the device. -/
def deviceInfoEntry (name : String) : Str := lit "system.device_info:" ++ lit name

/-- A getter of a text about the device. -/
def getDeviceInfo (name : String) (p : Store) : Option (Option Str) :=
  rkParamGetString p (deviceInfoEntry name) none

def rkSystemGetDeivceName := getDeviceInfo "deivce_name"
def rkSystemGetTelecontrolId := getDeviceInfo "telecontrol_id"
def rkSystemGetModel := getDeviceInfo "model"
def rkSystemGetSerialNumber := getDeviceInfo "serial_number"
def rkSystemGetFirmwareVersion := getDeviceInfo "firmware_version"
def rkSystemGetEncoderVersion := getDeviceInfo "encoder_version"
def rkSystemGetWebVersion := getDeviceInfo "web_version"
def rkSystemGetPluginVersion := getDeviceInfo "plugin_version"
def rkSystemGetChannelsNumber := getDeviceInfo "channels_number"
def rkSystemGetHardDisksNumber := getDeviceInfo "hard_disks_number"
def rkSystemGetAlarmInputsNumber := getDeviceInfo "alarm_inputs_number"
def rkSystemGetAlarmOutputsNumber := getDeviceInfo "alarm_outputs_number"
def rkSystemGetFirmwareVersionInfo := getDeviceInfo "firmware_version_info"
def rkSystemGetManufacturer := getDeviceInfo "manufacturer"
def rkSystemGetHardwareId := getDeviceInfo "hardware_id"

end RkIpc.System

namespace RkIpc.Server

open Imperative Wire Text Param Camera Osd RkIpc.System

/-! ## Getters and their handlers -/

/-- A getter: what it returns, and what it leaves in `value`. -/
abbrev Getter := Int32 → Program Cameras (GetResult (Option Str)) (GetResult (Option Str))

/-- A getter of `osd.c` or `system.c` uses the parameters only. -/
def ofStore (f : Store → Int32 → Option (Option Str)) : Getter := fun id => do
  let s ← Program.get
  let value ← Program.ofOption (f s.encoder.store id)
  pure (0, some value)

/-- The number of the camera is checked, in some of the getters. -/
def checkIf (checks : Bool) (id : Int32) : Program Cameras (GetResult (Option Str)) Unit :=
  if checks then checkCameraId (-1, none) id else pure ()

/-- What these getters have in common: one entry is read. -/
def readEntry (checks : Bool) (entry : ℤ → Int32 → Str) : Getter := fun id => do
  checkIf checks id
  let s ← Program.get
  let value ← getString (entry s.currentScenarioId id) none
  pure (0, some value)

/-- **A getter of a text**: its handler and its function, whether the number of a camera is checked,
and the entry that is read, which may depend on the scenario. -/
structure TextGetter where
  handler : Handler
  op : Getter
  checks : Bool
  entry : ℤ → Int32 → Str
  handler_eq : handler = strGetter handler.op ∨
    handler = globalStrGetter handler.op ∧ checks = false ∧
      ∀ scenarioId id, entry scenarioId id = entry scenarioId 0
  op_eq : op = readEntry checks entry

/-- The entry of a camera. -/
def cameraEntry (name : String) (scenarioId : ℤ) (camId : Int32) : Str :=
  lit "isp." ++ decimal (camId.toInt * Isp.maxScenarioNum + scenarioId) ++ lit name

/-- A getter of a camera. -/
def ofCamera (handler : Handler) (op : Getter) (name : String)
    (hhandler : handler = strGetter handler.op := by rfl)
    (hop : op = Camera.strGetter name none := by rfl) : TextGetter where
  handler := handler
  op := op
  checks := true
  entry := cameraEntry name
  handler_eq := .inl hhandler
  op_eq := hop

/-- A getter with an operand. -/
def ofId (handler : Handler) (f : Store → Int32 → Option (Option Str)) (entry : Int32 → Str)
    (hhandler : handler = strGetter handler.op := by rfl)
    (hf : f = fun p id => rkParamGetString p (entry id) none := by rfl) : TextGetter where
  handler := handler
  op := ofStore f
  checks := false
  entry := fun _ id => entry id
  handler_eq := .inl hhandler
  op_eq := by rw [hf]; rfl

/-- A getter without one. -/
def ofGlobal (handler : Handler) (f : Store → Option (Option Str)) (entry : Str)
    (hhandler : handler = globalStrGetter handler.op := by rfl)
    (hf : f = fun p => rkParamGetString p entry none := by rfl) : TextGetter where
  handler := handler
  op := ofStore fun p _ => f p
  checks := false
  entry := fun _ _ => entry
  handler_eq := .inr ⟨hhandler, rfl, fun _ _ => rfl⟩
  op_eq := by rw [hf]; rfl

/-- `rk_isp_get_scenario`. -/
def scenarioGetter : TextGetter where
  handler := serRkIspGetScenario
  op := rkIspGetScenario
  checks := false
  entry := fun _ _ => lit "isp:scenario"
  handler_eq := .inl rfl
  op_eq := rfl

/-- The getters of `isp.c`, except for `rk_isp_get_scenario`. -/
def ispTextGetters : List TextGetter :=
  [ofCamera serRkIspGetExposureMode rkIspGetExposureMode ".exposure:exposure_mode",
   ofCamera serRkIspGetGainMode rkIspGetGainMode ".exposure:gain_mode",
   ofCamera serRkIspGetExposureTime rkIspGetExposureTime ".exposure:exposure_time",
   ofCamera serRkIspGetNightToDay rkIspGetNightToDay ".night_to_day:night_to_day",
   ofCamera serRkIspGetFillLightMode rkIspGetFillLightMode ".night_to_day:fill_light_mode",
   ofCamera serRkIspGetHdr rkIspGetHdr ".blc:hdr",
   ofCamera serRkIspGetBlcRegion rkIspGetBlcRegion ".blc:blc_region",
   ofCamera serRkIspGetHlc rkIspGetHlc ".blc:hlc",
   ofCamera serRkIspGetWhiteBlanceStyle rkIspGetWhiteBlanceStyle ".white_blance:white_blance_style",
   ofCamera serRkIspGetNoiseReduceMode rkIspGetNoiseReduceMode ".enhancement:noise_reduce_mode",
   ofCamera serRkIspGetDehaze rkIspGetDehaze ".enhancement:dehaze",
   ofCamera serRkIspGetGrayScaleMode rkIspGetGrayScaleMode ".enhancement:gray_scale_mode",
   ofCamera serRkIspGetDistortionCorrection rkIspGetDistortionCorrection
     ".enhancement:distortion_correction",
   ofCamera serRkIspGetPowerLineFrequencyMode rkIspGetPowerLineFrequencyMode
     ".video_adjustment:power_line_frequency_mode",
   ofCamera serRkIspGetImageFlip rkIspGetImageFlip ".video_adjustment:image_flip"]

/-- The getters of `osd.c`. -/
def osdTextGetters : List TextGetter :=
  [ofId serRkOsdGetDateStyle rkOsdGetDateStyle (osdTextEntry "date_style"),
   ofId serRkOsdGetTimeStyle rkOsdGetTimeStyle (osdTextEntry "time_style"),
   ofId serRkOsdGetType rkOsdGetType (osdTextEntry "type"),
   ofId serRkOsdGetDisplayText rkOsdGetDisplayText (osdTextEntry "display_text"),
   ofId serRkOsdGetImagePath rkOsdGetImagePath (osdTextEntry "image_path"),
   ofId serRkOsdGetStyle rkOsdGetStyle (osdTextEntry "style"),
   ofGlobal serRkOsdGetAttribute rkOsdGetAttribute (commonEntry "attribute"),
   ofGlobal serRkOsdGetFontColorMode rkOsdGetFontColorMode (commonEntry "font_color_mode"),
   ofGlobal serRkOsdGetFontColor rkOsdGetFontColor (commonEntry "font_color"),
   ofGlobal serRkOsdGetAlignment rkOsdGetAlignment (commonEntry "alignment"),
   ofGlobal serRkOsdGetFontPath rkOsdGetFontPath (commonEntry "font_path")]

/-- The getters of `system.c`. -/
def systemTextGetters : List TextGetter :=
  [ofId serRkSystemGetUserName rkSystemGetUserName (fun id => userEntry id .name),
   ofId serRkSystemGetPassword rkSystemGetPassword (fun id => userEntry id .password),
   ofGlobal serRkSystemGetDeivceName rkSystemGetDeivceName (deviceInfoEntry "deivce_name"),
   ofGlobal serRkSystemGetTelecontrolId rkSystemGetTelecontrolId (deviceInfoEntry "telecontrol_id"),
   ofGlobal serRkSystemGetModel rkSystemGetModel (deviceInfoEntry "model"),
   ofGlobal serRkSystemGetSerialNumber rkSystemGetSerialNumber (deviceInfoEntry "serial_number"),
   ofGlobal serRkSystemGetFirmwareVersion rkSystemGetFirmwareVersion
     (deviceInfoEntry "firmware_version"),
   ofGlobal serRkSystemGetEncoderVersion rkSystemGetEncoderVersion
     (deviceInfoEntry "encoder_version"),
   ofGlobal serRkSystemGetWebVersion rkSystemGetWebVersion (deviceInfoEntry "web_version"),
   ofGlobal serRkSystemGetPluginVersion rkSystemGetPluginVersion (deviceInfoEntry "plugin_version"),
   ofGlobal serRkSystemGetChannelsNumber rkSystemGetChannelsNumber
     (deviceInfoEntry "channels_number"),
   ofGlobal serRkSystemGetHardDisksNumber rkSystemGetHardDisksNumber
     (deviceInfoEntry "hard_disks_number"),
   ofGlobal serRkSystemGetAlarmInputsNumber rkSystemGetAlarmInputsNumber
     (deviceInfoEntry "alarm_inputs_number"),
   ofGlobal serRkSystemGetAlarmOutputsNumber rkSystemGetAlarmOutputsNumber
     (deviceInfoEntry "alarm_outputs_number"),
   ofGlobal serRkSystemGetFirmwareVersionInfo rkSystemGetFirmwareVersionInfo
     (deviceInfoEntry "firmware_version_info"),
   ofGlobal serRkSystemGetManufacturer rkSystemGetManufacturer (deviceInfoEntry "manufacturer"),
   ofGlobal serRkSystemGetHardwareId rkSystemGetHardwareId (deviceInfoEntry "hardware_id")]

/-- **The getters of a text** whose default is a null pointer. -/
def textGetters : List TextGetter :=
  scenarioGetter :: ispTextGetters ++ osdTextGetters ++ systemTextGetters

/-! ## What the handler does -/

/-- The text at `value`, if it points to one. -/
def textAt (r : GetResult (Option Str)) : Option Str := r.2.join.map cstr

/-- `len = strlen(value)`, and the reply. -/
def sendText (err : Int32) (text : Str) : Program Conn ℤ ℤ := do
  let len := Int32.ofNat text.length
  writeOrClose (encode32 len.toInt)
  writeOrClose (text.take len.toInt.toNat)
  writeOrClose (encode32 err.toInt)
  pure 0

/-- The operand of a getter. -/
def idOf : List Arg → Int32
  | .int v :: _ => Int32.ofInt v.toInt
  | _ => 0

namespace TextGetter

/-- What the function returns and leaves in `value`, if it has a result. -/
def result (g : TextGetter) (s : Cameras) (id : Int32) : Option (GetResult (Option Str)) :=
  match (g.op id s).1 with
  | .value r => some r
  | .returned r => some r
  | .blocked => none

/-- **The handler of a getter.** -/
def serve (g : TextGetter) (env : Env) (s : Cameras) (c : Conn) : Option (Outcome ℤ ℤ × Conn) :=
  match readOperands env g.handler.operands c with
  | (.value args, c) => do
    let r ← g.result s (idOf args)
    let text ← textAt r
    pure (sendText r.1 text c)
  | (.returned r, c) => some (.returned r, c)
  | (.blocked, c) => some (.blocked, c)

/-- What a request for `id` has after the name of the function. -/
def operands (g : TextGetter) (id : Int32) : List Value :=
  if g.handler.operands = [] then [] else [.int id.toInt]

/-- **A request for `id` is answered**: the pointer is one to a text, and on a connection without
failures the reply is its length, the text and the result. -/
def Answers (g : TextGetter) (s : Cameras) (id : Int32) : Prop :=
  ∃ err value, g.result s id = some (err, some (some value)) ∧ InRange (cstr value).length ∧
    ∀ (env : Env) (xs out : List UInt8) (k : ℕ) (b : Prop) (c : Conn),
      At (encodeOperands (g.operands id) ++ xs) out k b c →
        ∃ c', g.serve env s c = some (.value 0, c') ∧
          At xs (out ++ (encode32 (cstr value).length ++ cstr value ++ encode32 err.toInt)) k b c'

/-- Whether the number of the camera is accepted. -/
def Passes (g : TextGetter) (s : Cameras) (id : Int32) : Prop :=
  g.checks = true → id.toInt < maxAiqCtx ∧ s.ctx id.toInt = true

/-- **The entry has a text** in the dictionary in use, and the number of the camera is accepted. -/
def HasText (g : TextGetter) (s : Cameras) (id : Int32) : Prop :=
  g.Passes s id ∧
    ∃ d value, s.encoder.store.iniD = .live d ∧
      d.lookup (strlwc (g.entry s.currentScenarioId id) (asciiLineSz + 1)) = some (some value) ∧
      InRange (cstr value).length

variable {g : TextGetter} {s : Cameras} {id : Int32}

/-- A number that is refused: the pointer was not set. -/
theorem result_of_refused (h : ¬ g.Passes s id) : g.result s id = some (-1, none) := by
  obtain ⟨hchecks, hrefused⟩ := Classical.not_imp.mp h
  have hctx : maxAiqCtx ≤ id.toInt ∨ s.ctx id.toInt = false := by
    by_cases hlarge : maxAiqCtx ≤ id.toInt
    · exact .inl hlarge
    · exact .inr (by simpa [Int.not_le.mp hlarge] using hrefused)
  have hif : ∃ t, checkIf g.checks id s = (.returned (-1, none), t) := by
    obtain ⟨new, hcheck, -⟩ := checkCameraId_refused (ρ := GetResult (Option Str)) hctx
    exact ⟨_, by rw [checkIf, if_pos hchecks, hcheck]⟩
  obtain ⟨t, hif⟩ := hif
  unfold result
  rw [g.op_eq]
  simp only [readEntry, Bind.bind, hif]

/-- Otherwise it is what the parameters have. -/
theorem result_of_passes (h : g.Passes s id) :
    g.result s id = (rkParamGetString s.encoder.store (g.entry s.currentScenarioId id) none).map
      fun value => (0, some value) := by
  have hif : ∃ log, checkIf g.checks id s = (.value (), { s with log }) := by
    cases hchecks : g.checks with
    | true => exact ⟨_, checkCameraId_passed (h hchecks)⟩
    | false => exact ⟨s.log, rfl⟩
  obtain ⟨log, hif⟩ := hif
  unfold result
  rw [g.op_eq]
  simp only [readEntry, Bind.bind, hif, Program.get, getString, Program.ofOption]
  cases rkParamGetString s.encoder.store (g.entry s.currentScenarioId id) none <;> rfl

/-- What the function comes to does not depend on a number that is not there. -/
theorem result_idOf {args : List Arg} (h : g.handler.operands = [.int] → idOf args = id) :
    g.result s (idOf args) = g.result s id := by
  rcases g.handler_eq with hhandler | ⟨hhandler, hchecks, hentry⟩
  · rw [h (by rw [hhandler]; rfl)]
  · have hpasses : ∀ id, g.Passes s id := fun id hc => absurd (hchecks ▸ hc) Bool.false_ne_true
    rw [result_of_passes (hpasses _), result_of_passes (hpasses _), hentry, hentry _ id]

section Connection

open Program

variable {env : Env} {xs out : List UInt8} {k : ℕ} {b : Prop}

/-- The operand is read. -/
theorem readOperands_id (env : Env) {R : ℤ → Conn → Prop} :
    Triple (At (encodeOperands (g.operands id) ++ xs) out k b)
      (readOperands env g.handler.operands)
      (fun args c => (g.handler.operands = [.int] → idOf args = id) ∧ At xs out k b c)
      R never := by
  rcases g.handler_eq with hhandler | ⟨hhandler, -⟩
  · have hoperands : g.handler.operands = [.int] := by rw [hhandler]; rfl
    rw [operands, hoperands, if_neg (List.cons_ne_nil _ _)]
    have hencode : encodeOperands [Value.int id.toInt] ++ xs = encode32 id.toInt ++ xs := by
      simp [encodeOperands, Value.encode]
    rw [hencode]
    have hword : Triple (At (encode32 id.toInt ++ xs) out k b) (readOperand env .int)
        (fun arg c => (∃ w, arg = .int w ∧ w.toInt = id.toInt) ∧ At xs out k b c) R never :=
      Triple.bind readWord_at fun w => Triple.pure fun c hc =>
        ⟨⟨w, rfl, hc.1 (inRange_toInt id)⟩, hc.2⟩
    refine Triple.bind hword fun arg => ?_
    rintro c ⟨⟨w, rfl, hw⟩, hc⟩
    refine ⟨fun _ => ?_, hc⟩
    rw [idOf, hw, Int32.ofInt_toInt]
  · have hoperands : g.handler.operands = [] := by rw [hhandler]; rfl
    rw [operands, hoperands, if_pos rfl]
    exact Triple.pure fun c hc => ⟨fun h => (List.cons_ne_nil _ _ h.symm).elim, hc⟩

/-- The bytes are those of the handler of the server, where the operation comes back with the
text. -/
theorem replyBytes_handler (g : TextGetter) (err : Int32) (text : Str) :
    replyBytes ⟨err.toInt, [], [text]⟩ g.handler.reply =
      encode32 text.length ++ text ++ encode32 err.toInt := by
  rcases g.handler_eq with hhandler | ⟨hhandler, -⟩ <;>
  · rw [hhandler]
    simp [strGetter, globalStrGetter, replyBytes, replyItem]

/-- The text is sent. -/
theorem sendText_at (err : Int32) {text : Str} (hlen : InRange text.length)
    {R : ℤ → Conn → Prop} : Triple (At xs out k b) (sendText err text)
      (fun r c => r = 0 ∧
        At xs (out ++ (encode32 text.length ++ text ++ encode32 err.toInt)) k b c) R never := by
  have hint : (Int32.ofNat text.length).toInt = text.length :=
    Int32.toInt_ofNat_of_lt (by exact_mod_cast hlen.2)
  unfold sendText
  simp only [hint, Int.toNat_natCast, List.take_length]
  refine Triple.bind writeOrClose_at fun _ => Triple.bind writeOrClose_at fun _ =>
    Triple.bind writeOrClose_at fun _ => Triple.pure fun c hc => ⟨rfl, ?_⟩
  rw [← List.append_assoc, ← List.append_assoc]
  exact hc

/-- **The handler answers** if the pointer is one to a text. -/
theorem serve_at {err : Int32} {value : Str} (h : g.result s id = some (err, some (some value)))
    (hlen : InRange (cstr value).length) {c : Conn}
    (hc : At (encodeOperands (g.operands id) ++ xs) out k b c) :
    ∃ c', g.serve env s c = some (.value 0, c') ∧
      At xs (out ++ (encode32 (cstr value).length ++ cstr value ++ encode32 err.toInt)) k b c' := by
  obtain ⟨args, d, hread, hid, hd⟩ := (readOperands_id env).exists_value hc
  obtain ⟨r, c', hsend, rfl, hc'⟩ := (sendText_at err hlen).exists_value hd
  refine ⟨c', ?_, hc'⟩
  unfold serve
  rw [hread]
  dsimp only
  rw [result_idOf hid, h, ← hsend]
  rfl

end Connection

theorem answers_of_hasText (h : g.HasText s id) : g.Answers s id := by
  obtain ⟨hpasses, d, value, hd, hlookup, hlen⟩ := h
  have hget := rkParamGetString_eq_text_iff.mpr ⟨d, hd, hlookup⟩
  have hresult : g.result s id = some (0, some (some value)) := by
    rw [result_of_passes hpasses, hget]
    rfl
  exact ⟨0, value, hresult, hlen, fun env xs out k b c hc => serve_at hresult hlen hc⟩

theorem hasText_of_answers (h : g.Answers s id) : g.HasText s id := by
  obtain ⟨err, value, hresult, hlen, -⟩ := h
  by_cases hpasses : g.Passes s id
  · rw [result_of_passes hpasses] at hresult
    obtain ⟨o, hget, ho⟩ := Option.map_eq_some_iff.mp hresult
    obtain rfl : o = some value := Option.some.inj (congrArg Prod.snd ho)
    obtain ⟨d, hd, hlookup⟩ := rkParamGetString_eq_text_iff.mp hget
    exact ⟨hpasses, d, value, hd, hlookup, hlen⟩
  · rw [result_of_refused hpasses] at hresult
    cases hresult

end TextGetter

/-- **A request is answered** if and only if its entry has a text. -/
theorem answers_iff_hasText :
    ∀ g ∈ textGetters, ∀ s id, g.Answers s id ↔ g.HasText s id :=
  fun _ _ _ _ => ⟨TextGetter.hasText_of_answers, TextGetter.answers_of_hasText⟩

/-- The getter of the name of a user. -/
def userNameGetter : TextGetter :=
  ofId serRkSystemGetUserName rkSystemGetUserName fun id => userEntry id .name

theorem userNameGetter_mem : userNameGetter ∈ textGetters :=
  List.mem_cons_of_mem _ (List.mem_append_right _ List.mem_cons_self)

/-- The dictionary of one user. -/
def oneUserStore : Store :=
  ⟨none, .live (iniparserSet dictionaryNew (userEntry 0 .name) (some (lit "admin")))⟩

/-- A camera, and one user. -/
def oneUser : Cameras :=
  { oneCamera with encoder := { oneCamera.encoder with store := oneUserStore } }

theorem answers_iff_hasText_admin : userNameGetter.Answers oneUser 0 := by
  refine (answers_iff_hasText _ userNameGetter_mem _ _).mpr ⟨nofun, _, lit "admin", rfl, ?_, ?_⟩
  · decide +kernel
  · decide +kernel

/-- **A user that is not there** has no name, and the length of a null pointer is taken. -/
theorem not_answers_absent : ¬ ∀ g ∈ textGetters, ∀ s id, g.Answers s id := by
  intro h
  obtain ⟨-, d, value, hd, hlookup, -⟩ :=
    TextGetter.hasText_of_answers (h _ userNameGetter_mem oneUser 5)
  have habsent : rkParamGetString oneUser.encoder.store (userEntry 5 .name) none = some none := by
    decide +kernel
  have hget := rkParamGetString_eq_text_iff.mpr ⟨d, hd, hlookup⟩
  exact nomatch habsent.symm.trans hget

/-- The handlers that send a text with a default, or one from a buffer of their own. -/
def otherTextHandlers : List Handler :=
  [serRkIspGetAfMode, serRkAudioGetEncodeType, serRkVideoGetRCMode, serRkVideoGetOutputDataType,
   serRkVideoGetRcQuality, serRkVideoGetSmart, serRkVideoGetGopMode, serRkVideoGetStreamType,
   serRkVideoGetH264Profile, serRkRoiGetStreamType, serRkRoiGetName, serRkVideoGetResolution,
   serRkVideoGetFrameRate, serRkVideoGetFrameRateIn, serRkVideoGetJpegResolution, serRkWifiGetList,
   serRkSystemCapabilityGetVideo, serRkSystemCapabilityGetImageAdjustment,
   serRkSystemCapabilityGetImageBlc, serRkSystemCapabilityGetImageEnhancement,
   serRkSystemCapabilityGetImageExposure, serRkSystemCapabilityGetImageNightToDay,
   serRkSystemCapabilityGetImageVideoAdjustment, serRkSystemCapabilityGetImageWhiteBlance]

set_option maxRecDepth 20000 in
/-- **Every handler that sends one text** is here. -/
theorem textGetters_complete : ∀ e ∈ map, e.handler.reply = [.str 0, .ret] →
    e.handler ∈ textGetters.map TextGetter.handler ∨ e.handler ∈ otherTextHandlers := by
  decide +kernel

end RkIpc.Server
