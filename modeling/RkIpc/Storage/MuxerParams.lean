import RkIpc.Param.Store
import RkIpc.Storage.Recorder
import RkIpc.Text.Field
import RkIpc.Transition.Run

/-!
# The parameters of the muxer

`rk_storage_muxer_init_by_id` copies the parameters of a stream into `rk_storage_muxer_group[id]`,
a static variable. The codec and the format are copied without terminator over what the fields
held before, so that a shorter name keeps the end of a longer one.

The fields of `VideoParam` and `AudioParam` are of any size. What the call does about the signal
and the record thread is in `Recorder`.

## Main definitions

* `VideoParam`, `AudioParam`, `MuxerGroup`: what is kept for a stream
* `rkStorageMuxerInitById`: the call
* `MuxerString`: the four strings, with the field and the parameter of each
* `MuxerAction.Configured`: after a call that succeeds the fields hold the parameters
* `MuxerAction.Covers`: the condition on a call

## Main results

* `rkStorageMuxerInitById_strings`: what a call does to the strings
* `along_configured_iff`: a sequence of calls and changes of the parameters
* `codec_mixed`: a change of the codec after which the name is made of both
-/

namespace RkIpc.Storage

open Text Param Transition

/-- `VideoParam`. -/
structure VideoParam where
  width : ℤ
  height : ℤ
  bitRate : ℤ
  frameRateDen : ℤ
  frameRateNum : ℤ
  codec : List UInt8
  level : ℤ
  profile : ℤ
  format : List UInt8

/-- `AudioParam`. -/
structure AudioParam where
  channels : ℤ
  sampleRate : ℤ
  frameSize : ℤ
  format : List UInt8
  codec : List UInt8

/-- The parameters in `rk_storage_muxer_struct`. -/
structure MuxerGroup where
  videoParam : VideoParam
  audioParam : AudioParam
  recordPath : Str
  fileFormat : Str
  fileDuration : ℤ

/-- `snprintf(entry, 127, "video.%d:…", id)` and `"storage.%d:…"`. -/
def streamEntry (section' : String) (id : StreamId) (name : String) : Str :=
  lit section' ++ decimal id.val ++ lit name

/-- `if (value) memcpy(field, value, strlen(value))`. -/
def copyString (field : List UInt8) (value : Option Str) : Option (List UInt8) :=
  match value with
  | none => some field
  | some s => Memory.write field 0 (cstr s)

/-- The profile by its name; another name leaves it as it was. -/
def h264Profile (name : Str) (profile : ℤ) : ℤ :=
  if name = lit "high" then 100
  else if name = lit "main" then 77
  else if name = lit "baseline" then 66
  else profile

/-- `g_video_param` is set. -/
def setVideoParam (p : Store) (id : StreamId) (v : VideoParam) : Option VideoParam := do
  let width ← rkParamGetInt p (streamEntry "video." id ":width") 1920
  let height ← rkParamGetInt p (streamEntry "video." id ":height") 1080
  let maxRate ← rkParamGetInt p (streamEntry "video." id ":max_rate") 512
  let frameRateDen ← rkParamGetInt p (streamEntry "video." id ":dst_frame_rate_den") 1
  let frameRateNum ← rkParamGetInt p (streamEntry "video." id ":dst_frame_rate_num") 30
  let outputDataType ← rkParamGetString p (streamEntry "video." id ":output_data_type") none
  let codec ← copyString v.codec outputDataType
  let profileName ← rkParamGetString p (streamEntry "video." id ":h264_profile") (lit "high")
  -- `strcmp` of a key without value reads at a null pointer
  let profileName ← profileName
  let format ← Memory.write v.format 0 (lit "NV12")
  some
    { width := width, height := height, bitRate := maxRate * 1024, frameRateDen := frameRateDen,
      frameRateNum := frameRateNum, codec := codec, level := 52,
      profile := h264Profile (cstr profileName) v.profile, format := format }

/-- `g_audio_param` is set, from `audio.0` for every stream. -/
def setAudioParam (p : Store) (a : AudioParam) : Option AudioParam := do
  let channels ← rkParamGetInt p (lit "audio.0:channels") 2
  let sampleRate ← rkParamGetInt p (lit "audio.0:sample_rate") 16000
  let frameSize ← rkParamGetInt p (lit "audio.0:frame_size") 1024
  let formatName ← rkParamGetString p (lit "audio.0:format") none
  let format ← copyString a.format formatName
  let encodeType ← rkParamGetString p (lit "audio.0:encode_type") none
  let codec ← copyString a.codec encodeType
  some
    { channels := channels, sampleRate := sampleRate, frameSize := frameSize, format := format,
      codec := codec }

/-- `record_path` is put together in 256 bytes. -/
def recordPath (p : Store) (id : StreamId) : Option Str := do
  let mountPath ← (← rkParamGetString p (lit "storage:mount_path") (lit "/userdata"))
  let folderName ← (← rkParamGetString p (streamEntry "storage." id ":folder_name") (lit "video0"))
  let path := cstr mountPath ++ lit "/" ++ cstr folderName
  if path.length < 256 then some path else none

/-- **`rk_storage_muxer_init_by_id`**; `dirOk` is whether the record path is there or can be made,
`signalOk` whether `rk_signal_create` succeeds. -/
def rkStorageMuxerInitById (dirOk signalOk : Bool) (p : Store) (id : StreamId) (g : MuxerGroup) :
    Option (ℤ × MuxerGroup) := do
  let video ← setVideoParam p id g.videoParam
  let audio ← setAudioParam p g.audioParam
  let path ← recordPath p id
  let g := { g with videoParam := video, audioParam := audio, recordPath := path }
  if !dirOk then some (-1, g)
  else do
    let fileFormat ← (← rkParamGetString p (streamEntry "storage." id ":file_format") (lit "mp4"))
    let fileDuration ← rkParamGetInt p (streamEntry "storage." id ":file_duration") 60
    let g := { g with fileFormat := cstr fileFormat, fileDuration := fileDuration }
    let enable ← rkParamGetInt p (streamEntry "storage." id ":enable") 0
    if enable = 0 then some (0, g)
    else if !signalOk then some (-1, g)
    -- the record thread is started
    else some (0, g)

/-! ## The strings -/

/-- A codec or a format. -/
inductive MuxerString
  | videoCodec
  | videoFormat
  | audioFormat
  | audioCodec
deriving DecidableEq, Repr

namespace MuxerString

/-- Its field. -/
def field (g : MuxerGroup) : MuxerString → List UInt8
  | videoCodec => g.videoParam.codec
  | videoFormat => g.videoParam.format
  | audioFormat => g.audioParam.format
  | audioCodec => g.audioParam.codec

/-- The value of its parameter; the format of the video has none, and is always the same. -/
def value (p : Store) (id : StreamId) : MuxerString → Option (Option Str)
  | videoCodec => rkParamGetString p (streamEntry "video." id ":output_data_type") none
  | videoFormat => some (lit "NV12")
  | audioFormat => rkParamGetString p (lit "audio.0:format") none
  | audioCodec => rkParamGetString p (lit "audio.0:encode_type") none

/-- The value as a string, which is empty if there is none. -/
def current (p : Store) (id : StreamId) (k : MuxerString) : Str :=
  cstr (((value p id k).getD none).getD [])

end MuxerString

section Strings

variable {p : Store} {id : StreamId} {g g' : MuxerGroup} {ret : ℤ} {dirOk signalOk : Bool}

/-- Copying nothing is copying the empty string. -/
theorem copyString_eq (field : List UInt8) (value : Option Str) :
    copyString field value = Memory.write field 0 (cstr (value.getD [])) := by
  cases value with
  | none => simp [copyString, Memory.write, cstr]
  | some s => rfl

/-- What is copied to the strings of the video. -/
theorem setVideoParam_strings {v v' : VideoParam} (h : setVideoParam p id v = some v') :
    Memory.write v.codec 0 (MuxerString.current p id .videoCodec) = some v'.codec ∧
      Memory.write v.format 0 (MuxerString.current p id .videoFormat) = some v'.format := by
  simp only [setVideoParam, Option.bind_eq_bind, Option.bind_eq_some_iff] at h
  obtain ⟨_, _, _, _, _, _, _, _, _, _, value, hvalue, codec, hcodec, _, _, _, _, format, hformat,
    h⟩ := h
  rw [← Option.some.inj h]
  rw [copyString_eq] at hcodec
  refine ⟨?_, hformat⟩
  rw [MuxerString.current, MuxerString.value, hvalue]
  exact hcodec

/-- What is copied to the strings of the audio. -/
theorem setAudioParam_strings {a a' : AudioParam} (h : setAudioParam p a = some a') :
    Memory.write a.format 0 (MuxerString.current p id .audioFormat) = some a'.format ∧
      Memory.write a.codec 0 (MuxerString.current p id .audioCodec) = some a'.codec := by
  simp only [setAudioParam, Option.bind_eq_bind, Option.bind_eq_some_iff] at h
  obtain ⟨_, _, _, _, _, _, name, hname, format, hformat, value, hvalue, codec, hcodec, h⟩ := h
  rw [← Option.some.inj h]
  rw [copyString_eq] at hformat hcodec
  rw [MuxerString.current, MuxerString.value, MuxerString.current, MuxerString.value, hname, hvalue]
  exact ⟨hformat, hcodec⟩

/-- **A call copies every string**, and succeeds if the record path is there and the signal, if one
is wanted, is created. -/
theorem rkStorageMuxerInitById_strings
    (h : rkStorageMuxerInitById dirOk signalOk p id g = some (ret, g')) :
    (∀ k, Memory.write (MuxerString.field g k) 0 (MuxerString.current p id k) =
        some (MuxerString.field g' k)) ∧
      (ret = 0 ↔ dirOk = true ∧
        (rkParamGetInt p (streamEntry "storage." id ":enable") 0 = some 0 ∨ signalOk = true)) := by
  simp only [rkStorageMuxerInitById, Option.bind_eq_bind, Option.bind_eq_some_iff] at h
  obtain ⟨video, hvideo, audio, haudio, path, -, h⟩ := h
  have hstrings : ∀ q : MuxerGroup, q.videoParam = video → q.audioParam = audio →
      ∀ k, Memory.write (MuxerString.field g k) 0 (MuxerString.current p id k) =
        some (MuxerString.field q k) := by
    rintro q rfl rfl k
    cases k with
    | videoCodec => exact (setVideoParam_strings hvideo).1
    | videoFormat => exact (setVideoParam_strings hvideo).2
    | audioFormat => exact (setAudioParam_strings haudio).1
    | audioCodec => exact (setAudioParam_strings haudio).2
  cases dirOk with
  | false =>
    obtain ⟨rfl, rfl⟩ := Prod.mk.inj (Option.some.inj h)
    exact ⟨hstrings _ rfl rfl, by simp⟩
  | true =>
    simp only [Bool.not_true, Bool.false_eq_true, if_false, Option.bind_eq_some_iff] at h
    obtain ⟨_, _, _, _, _, _, enable, henable, h⟩ := h
    rw [henable, Option.some_inj]
    by_cases hzero : enable = 0
    · rw [if_pos hzero] at h
      obtain ⟨rfl, rfl⟩ := Prod.mk.inj (Option.some.inj h)
      exact ⟨hstrings _ rfl rfl, by simp [hzero]⟩
    · rw [if_neg hzero] at h
      cases signalOk with
      | false =>
        obtain ⟨rfl, rfl⟩ := Prod.mk.inj (Option.some.inj h)
        exact ⟨hstrings _ rfl rfl, by simp [hzero]⟩
      | true =>
        obtain ⟨rfl, rfl⟩ := Prod.mk.inj (Option.some.inj h)
        exact ⟨hstrings _ rfl rfl, by simp⟩

end Strings

/-! ## Sequences of calls -/

/-- The parameters, and the group of every stream. -/
structure MuxerWorld where
  store : Store
  group : StreamId → MuxerGroup

/-- The parameters change, in any way, or a stream is initialised. -/
inductive MuxerAction
  | change (p : Store)
  | init (id : StreamId) (dirOk signalOk : Bool)

/-- The static variable before anything is copied, with fields of these sizes. -/
def MuxerGroup.zero (size : MuxerString → ℕ) : MuxerGroup where
  videoParam := ⟨0, 0, 0, 0, 0, List.replicate (size .videoCodec) 0, 0, 0,
    List.replicate (size .videoFormat) 0⟩
  audioParam := ⟨0, 0, 0, List.replicate (size .audioFormat) 0,
    List.replicate (size .audioCodec) 0⟩
  recordPath := []
  fileFormat := []
  fileDuration := 0

namespace MuxerAction

/-- The state after an action. -/
def exec (w : MuxerWorld) : MuxerAction → Option MuxerWorld
  | change p => some { w with store := p }
  | init id dirOk signalOk =>
    (rkStorageMuxerInitById dirOk signalOk w.store id (w.group id)).map fun r =>
      { w with group := Function.update w.group id r.2 }

/-- A step. -/
def Step (w : MuxerWorld) (a : MuxerAction) (w' : MuxerWorld) : Prop := a.exec w = some w'

/-- The call returns `0`. -/
def Succeeds (p : Store) (id : StreamId) (dirOk signalOk : Bool) : Prop :=
  dirOk = true ∧
    (rkParamGetInt p (streamEntry "storage." id ":enable") 0 = some 0 ∨ signalOk = true)

/-- **The strings are those of the parameters** after a call that succeeds. -/
def Configured (w : MuxerWorld) (a : MuxerAction) (w' : MuxerWorld) : Prop :=
  match a with
  | change _ => True
  | init id dirOk signalOk => Succeeds w.store id dirOk signalOk →
    ∀ k : MuxerString, Holds (k.field (w'.group id)) (k.current w.store id)

/-- **The condition on a call**: every string is shorter than its field, and not shorter than the
one that the field holds before. -/
def Covers (w : MuxerWorld) : MuxerAction → Prop
  | change _ => True
  | init id dirOk signalOk => Succeeds w.store id dirOk signalOk →
    ∀ k : MuxerString, (k.current w.store id).length < (k.field (w.group id)).length ∧
      (cstr (k.field (w.group id))).length ≤ (k.current w.store id).length

/-- Every field is a string with zeros behind it. -/
def AllPadded (w : MuxerWorld) : Prop := ∀ id (k : MuxerString), Padded (k.field (w.group id))

variable {w w' : MuxerWorld} {a : MuxerAction}

theorem allPadded_zero (size : MuxerString → ℕ) (p : Store) :
    AllPadded ⟨p, fun _ => MuxerGroup.zero size⟩ := by
  intro id k
  cases k with
  | videoCodec | videoFormat | audioFormat | audioCodec => exact padded_replicate _

/-- **An action** keeps the fields padded. -/
theorem allPadded_step (hw : AllPadded w) (hstep : Step w a w') : AllPadded w' := by
  cases a with
  | change p =>
    rw [← Option.some.inj hstep]
    exact hw
  | init id dirOk signalOk =>
    obtain ⟨⟨ret, g⟩, hcall, rfl⟩ := Option.map_eq_some_iff.mp hstep
    intro j k
    by_cases hj : j = id
    · subst hj
      dsimp only
      rw [Function.update_self]
      exact (hw j k).write (zero_notMem_cstr _) ((rkStorageMuxerInitById_strings hcall).1 k)
    · dsimp only
      rw [Function.update_of_ne hj]
      exact hw j k

/-- **One action** leaves the strings of the parameters if and only if it meets the condition. -/
theorem configured_iff (hw : AllPadded w) (hstep : Step w a w') :
    Configured w a w' ↔ Covers w a := by
  cases a with
  | change p => exact Iff.rfl
  | init id dirOk signalOk =>
    obtain ⟨⟨ret, g⟩, hcall, rfl⟩ := Option.map_eq_some_iff.mp hstep
    refine forall_congr' fun _ => forall_congr' fun k => ?_
    dsimp only
    rw [Function.update_self]
    exact holds_write_iff (hw id k) (zero_notMem_cstr _)
      ((rkStorageMuxerInitById_strings hcall).1 k)

/-- **The parameters of the muxer**: in a sequence of calls and changes, the strings are those of
the parameters after every call that succeeds if and only if every such call meets the
condition. -/
theorem along_configured_iff (size : MuxerString → ℕ) (p : Store) (as : List MuxerAction) :
    Along Step ⟨p, fun _ => MuxerGroup.zero size⟩ as Configured ↔
      Along Step ⟨p, fun _ => MuxerGroup.zero size⟩ as fun w a _ => Covers w a :=
  along_iff (fun _ _ _ hw hstep => configured_iff hw hstep)
    (fun _ _ _ hw hstep _ => allPadded_step hw hstep) (allPadded_zero size p)

end MuxerAction

/-- A dictionary with a codec for the audio. -/
def encodeType (codec : String) : Store :=
  ⟨none, .live (dictionarySet dictionaryNew (lit "audio.0:encode_type") (some (lit codec)))⟩

/-- **The codec is made of two**, if a shorter name follows a longer one. -/
theorem codec_mixed : ∃ w, Run MuxerAction.Step
      ⟨encodeType "G711A", fun _ => MuxerGroup.zero fun _ => 16⟩
      [.init 0 true true, .change (encodeType "MP2"), .init 0 true true] w ∧
    cstr (w.group 0).audioParam.codec = lit "MP21A" ∧
    MuxerString.current w.store 0 .audioCodec = lit "MP2" := by
  have hrun : ([MuxerAction.init 0 true true, .change (encodeType "MP2"),
      .init 0 true true].foldlM (fun w a => MuxerAction.exec w a)
      ⟨encodeType "G711A", fun _ => MuxerGroup.zero fun _ => 16⟩).map (fun w =>
        (cstr (w.group 0).audioParam.codec, MuxerString.current w.store 0 .audioCodec)) =
      some (lit "MP21A", lit "MP2") := by decide +kernel
  obtain ⟨w, hw, he⟩ := Option.map_eq_some_iff.mp hrun
  obtain ⟨hcodec, hcurrent⟩ := Prod.mk.inj he
  exact ⟨w, Run.of_foldlM hw, hcodec, hcurrent⟩

end RkIpc.Storage
