import RkIpc.Isp.Light
import RkIpc.Video.FrameRate

/-!
# The frame rate of the sensor

`rk_isp_set_frame_rate` gives a frame rate to the sensor, has the frame rates of the enabled streams
set once more, and stores the frame rate of the sensor last. The streams take the frame rate of the
sensor from the store, so they get the one that was stored before.

## Main definitions

* `Sensor`: the exposure attributes of the cameras, the registers of the streams, and the store
* `rkIspSetFrameRate`: the setter
* `RatesAgree`: the streams have the frame rate of the sensor
* `InStep`: what a stream that is enabled has to be like before the call

## Main results

* `resetStreams_eq_some_iff`, `resetStreams_written`: when the streams can be set once more, and
  what they have after it
* `ratesAgree_iff`: the frame rates agree if and only if every enabled stream is in step
-/

namespace RkIpc.Isp

open Text Param Video

/-- `stFrmRate` of the exposure attributes of a camera. -/
structure FrmRate where
  isFpsFix : Bool
  fpsValue : ℤ
deriving DecidableEq, Repr

/-- **The exposure attributes of the cameras**, which `rk_aiq_user_api2_ae_getExpSwAttr` reads and
`rk_aiq_user_api2_ae_setExpSwAttr` writes, `current_scenario_id`, and the streams with the store. -/
structure Sensor where
  frmRate : Int32 → FrmRate
  currentScenarioId : ℤ
  encoder : Encoder

/-- `"video.source:enable_venc_0"` and its counterparts. -/
def enableVencEntry (id : Int32) : Str := lit "video.source:enable_venc_" ++ decimal id.toInt

/-- `snprintf(entry, 127, "isp.%d.adjustment:fps", rkipc_get_scenario_id(cam_id))`. -/
def adjustmentFpsEntry (camId : Int32) (currentScenarioId : ℤ) : Str :=
  lit "isp." ++ decimal (camId.toInt * maxScenarioNum + currentScenarioId) ++ lit ".adjustment:fps"

/-- The frame rate of a stream is set once more if the stream is enabled. -/
def resetStream (e : Encoder) (id : Int32) : Option Encoder := do
  let enabled ← rkParamGetInt e.store (enableVencEntry id) 0
  if enabled ≠ 0 then (rkVideoResetFrameRate e id).map Prod.snd else some e

/-- The streams. -/
def streams : List Int32 := [0, 1, 2]

/-- **`rk_isp_set_frame_rate`**; `ready` is whether `RK_ISP_CHECK_CAMERA_ID` lets a camera pass. -/
def rkIspSetFrameRate (ready : Int32 → Bool) (camId : Int32) (value : ℤ) (s : Sensor) :
    Option (ℤ × Sensor) :=
  if !ready camId then some (-1, s)
  else do
    let stFrmRate := if value = 0 then { s.frmRate camId with isFpsFix := false } else ⟨true, value⟩
    let e ← streams.foldlM resetStream s.encoder
    let store ← rkParamSetInt e.store (adjustmentFpsEntry camId s.currentScenarioId) value
    some (0, { s with
      frmRate := Function.update s.frmRate camId stFrmRate
      encoder := { e with store } })

/-- **The parameters of the streams**: their settings, and which of them are enabled. -/
structure StoresAll (p : Store) (v : Int32 → Settings) (enabled : Int32 → ℤ) : Prop where
  stores : ∀ id ∈ streams, Stores p id (v id)
  enabled : ∀ id ∈ streams, rkParamGetInt p (enableVencEntry id) 0 = some (enabled id)

/-- **The streams that are enabled have the frame rate of the sensor**, which is stored. -/
structure RatesAgree (s : Sensor) (v : Int32 → Settings) (enabled : Int32 → ℤ) (value : ℤ) :
    Prop where
  sensor : s.frmRate 0 = ⟨true, value⟩
  stored : sensorFps s.encoder.store = some value
  capture : ∀ id ∈ streams, enabled id ≠ 0 → (s.encoder.vi id).s32SrcFrameRate = value
  fraction : ∀ id ∈ streams, enabled id ≠ 0 → (v id).number .dstFrameRateDen ≠ 1 →
    (s.encoder.venc id).u32SrcFrameRateNum = .ofInt value

/-- The frame rate of a stream can be set once more: its text fits the buffer, and its numbers can
be stored. -/
def Resettable (v : Settings) : Prop :=
  (frameRateText (v.number .dstFrameRateNum) (v.number .dstFrameRateDen)).length + 1 ≤ 20 ∧
    (codecOf v.outputDataType ≠ none → v.Fits)

/-- **A stream that is enabled is in step**: the frame rate of the sensor that was stored before is
the one that is set now; or the codec is refused, and the registers have it already. -/
def InStep (e : Encoder) (id : Int32) (v : Settings) (value : ℤ) : Prop :=
  Resettable v ∧
    if codecOf v.outputDataType = none then
      (e.vi id).s32SrcFrameRate = value ∧
        (v.number .dstFrameRateDen ≠ 1 → (e.venc id).u32SrcFrameRateNum = .ofInt value)
    else v.fps = value

/-! ## Keys -/

theorem strlwc_enableVencEntry (id : Int32) :
    strlwc (enableVencEntry id) (asciiLineSz + 1) = enableVencEntry id := by
  have hentry := strlwc_numbered (a := lit "video.source:enable_venc_") (b := [])
    (by decide) nofun (by decide) id
  rwa [List.append_nil] at hentry

/-- The section of a stream has a number in its name. -/
theorem enableVencEntry_ne (id j : Int32) (k : Item) : enableVencEntry id ≠ videoEntry j k := by
  intro h
  have hdrop := congrArg (List.drop 6) h
  have hsource : (enableVencEntry id).drop 6 = lit "source:enable_venc_" ++ decimal id.toInt := rfl
  have hnumber : (videoEntry j k).drop 6 = decimal j.toInt ++ k.suffix := by
    rw [videoEntry, List.append_assoc]
    rfl
  rw [hsource, hnumber] at hdrop
  obtain ⟨c, t, hc⟩ : ∃ c t, decimal j.toInt = c :: t := by
    unfold decimal
    split
    · exact ⟨_, _, rfl⟩
    · exact List.exists_cons_of_ne_nil (decimalNat_ne_nil _)
  have hmem : (115 : UInt8) ∈ decimal j.toInt := by
    rw [hc] at hdrop ⊢
    rw [show (115 : UInt8) = c from (List.cons.inj hdrop).1]
    exact List.mem_cons_self
  rcases isDigit_or_minus_of_mem_decimal hmem with h115 | h115
  · exact absurd h115 (by decide)
  · exact absurd h115.2 (by decide)

theorem rkParamGetInt_enableVenc {p p' : Store} {j : Int32} {n : Number} {value : ℤ} (hp : p.Live)
    (hset : setNumber p j n value = some p') (id : Int32) (default : ℤ) :
    rkParamGetInt p' (enableVencEntry id) default =
      rkParamGetInt p (enableVencEntry id) default := by
  obtain ⟨-, hset⟩ := rkParamSetInt_eq_some_iff.mp hset
  rw [rkParamGetInt_set hp hset, strlwc_enableVencEntry, strlwc_videoEntry,
    if_neg (enableVencEntry_ne id j _)]

/-! ## One stream -/

section

variable {e e' : Encoder} {id i : Int32} {v w : Settings} {ret : ℤ}

theorem Resettable.of_fits (h : v.Fits) : Resettable v := by
  refine ⟨?_, fun _ => h⟩
  have hden := length_decimal_le_seven_iff.mpr h.1
  have hnum := length_decimal_le_seven_iff.mpr h.2
  unfold frameRateText
  split
  · omega
  · rw [List.length_append, List.length_cons]
    omega

/-- The text of the frame rate is set, if it fits. -/
theorem rkVideoResetFrameRate_eq (h : Stores e.store id v)
    (hfits : (frameRateText (v.number .dstFrameRateNum) (v.number .dstFrameRateDen)).length + 1 ≤
      20) :
    rkVideoResetFrameRate e id = (writeFrameRate e id (v.number .dstFrameRateNum)
      (v.number .dstFrameRateDen)).map fun r => (0, r.2) := by
  have hget : rkVideoGetFrameRate e id =
      some (frameRateText (v.number .dstFrameRateNum) (v.number .dstFrameRateDen)) := by
    rw [rkVideoGetFrameRate, h.number .dstFrameRateDen]
    simp only [Option.bind_eq_bind, Option.bind_some, h.number .dstFrameRateNum]
    exact if_pos hfits
  rw [rkVideoResetFrameRate, hget]
  simp only [Option.bind_eq_bind, Option.bind_some]
  rw [rkVideoSetFrameRate_eq, scanFrameRate_settings h, Option.bind_some, Option.map_eq_bind]
  rfl

theorem rkVideoResetFrameRate_eq_none (h : Stores e.store id v)
    (hfits : ¬ (frameRateText (v.number .dstFrameRateNum) (v.number .dstFrameRateDen)).length + 1 ≤
      20) : rkVideoResetFrameRate e id = none := by
  have hget : rkVideoGetFrameRate e id = none := by
    rw [rkVideoGetFrameRate, h.number .dstFrameRateDen]
    simp only [Option.bind_eq_bind, Option.bind_some, h.number .dstFrameRateNum]
    exact if_neg hfits
  rw [rkVideoResetFrameRate, hget]
  rfl

/-- **When a frame rate can be set once more.** -/
theorem exists_rkVideoResetFrameRate_iff (h : Stores e.store id v) :
    (∃ r, rkVideoResetFrameRate e id = some r) ↔ Resettable v := by
  constructor
  · rintro ⟨r, hr⟩
    by_cases hfits : (frameRateText (v.number .dstFrameRateNum)
        (v.number .dstFrameRateDen)).length + 1 ≤ 20
    · rw [rkVideoResetFrameRate_eq h hfits] at hr
      obtain ⟨⟨ret, e'⟩, hwrite, -⟩ := Option.map_eq_some_iff.mp hr
      refine ⟨hfits, fun hne => ?_⟩
      obtain ⟨codec, hcodec⟩ := Option.ne_none_iff_exists'.mp hne
      obtain ⟨⟨hnum, hden⟩, -⟩ := writeFrameRate_written h hcodec hwrite
      exact ⟨hden, hnum⟩
    · rw [rkVideoResetFrameRate_eq_none h hfits] at hr
      cases hr
  · rintro ⟨hfits, hcodec⟩
    rw [rkVideoResetFrameRate_eq h hfits]
    cases hc : codecOf v.outputDataType with
    | none => exact ⟨_, by rw [writeFrameRate_refused h hc]; rfl⟩
    | some codec =>
      obtain ⟨hden, hnum⟩ := hcodec (by rw [hc]; nofun)
      obtain ⟨r, hr⟩ := writeFrameRate_returns (e := e) h hnum hden
      exact ⟨_, by rw [hr]; rfl⟩

/-- **What the registers of a stream have** after its frame rate was set once more. -/
structure StreamReset (e e' : Encoder) (id : Int32) (v : Settings) : Prop where
  refused : codecOf v.outputDataType = none → e'.vi id = e.vi id ∧ e'.venc id = e.venc id
  written : codecOf v.outputDataType ≠ none →
    e'.vi id = ⟨v.fps, v.captured⟩ ∧ (e'.venc id).u32SrcFrameRateNum = .ofInt v.captured

/-- The registers of a stream, after a step that does not touch them. -/
theorem StreamReset.of_eq {e e₁ e₂ : Encoder} {id : Int32} {v : Settings}
    (h : StreamReset e₁ e₂ id v) (heq : e₁.vi id = e.vi id ∧ e₁.venc id = e.venc id) :
    StreamReset e e₂ id v where
  refused hcodec := by
    rw [← heq.1, ← heq.2]
    exact h.refused hcodec
  written := h.written

theorem StreamReset.trans_eq {e e₁ e₂ : Encoder} {id : Int32} {v : Settings}
    (h : StreamReset e e₁ id v) (heq : e₂.vi id = e₁.vi id ∧ e₂.venc id = e₁.venc id) :
    StreamReset e e₂ id v where
  refused hcodec := by
    rw [heq.1, heq.2]
    exact h.refused hcodec
  written hcodec := by
    rw [heq.1, heq.2]
    exact h.written hcodec

/-- What a frame rate that is set once more leaves. -/
structure ResetLeaves (e e' : Encoder) (id : Int32) (v : Settings) : Prop where
  stores : ∀ i w, Stores e.store i w → Stores e'.store i w
  enabled : ∀ i default,
    rkParamGetInt e'.store (enableVencEntry i) default =
      rkParamGetInt e.store (enableVencEntry i) default
  others : ∀ i ≠ id, e'.vi i = e.vi i ∧ e'.venc i = e.venc i
  reset : StreamReset e e' id v

theorem writeFrameRate_leaves (h : Stores e.store id v)
    (hr : writeFrameRate e id (v.number .dstFrameRateNum) (v.number .dstFrameRateDen) =
      some (ret, e')) : ResetLeaves e e' id v := by
  have hstores : ∀ i w, Stores e.store i w → Stores e'.store i w :=
    fun i w hw => writeFrameRate_same h hr hw
  cases hcodec : codecOf v.outputDataType with
  | none =>
    rw [writeFrameRate_refused h hcodec] at hr
    cases hr
    exact ⟨hstores, fun _ _ => rfl, fun _ _ => ⟨rfl, rfl⟩,
      ⟨fun _ => ⟨rfl, rfl⟩, fun hne => absurd hcodec hne⟩⟩
  | some codec =>
    obtain ⟨-, -, hvenc, hvi⟩ := writeFrameRate_written h hcodec hr
    have hcaptured : (if v.number .dstFrameRateDen ≠ 1 then v.fps
        else v.number .dstFrameRateNum) = v.captured := ite_not ..
    refine ⟨hstores, ?_, fun i hi => ?_, fun hnone => absurd (hcodec.symm.trans hnone) nofun,
      fun _ => ?_⟩
    · -- the flags are not numbers of a stream
      rw [writeFrameRate, h.fps, h.outputDataType] at hr
      simp only [Option.bind_eq_bind, Option.bind_some, h.rcMode, hcodec] at hr
      obtain ⟨p, hp, hr⟩ := Option.bind_eq_some_iff.mp hr
      obtain ⟨p₁, hp₁, hr⟩ := Option.bind_eq_some_iff.mp hr
      cases hr
      intro i default
      rw [rkParamGetInt_enableVenc (stores_setNumber h hp).live hp₁,
        rkParamGetInt_enableVenc h.live hp]
    · rw [hvi, hvenc, Function.update_of_ne hi, Function.update_of_ne hi]
      exact ⟨rfl, rfl⟩
    · rw [hvi, hvenc, Function.update_self, Function.update_self, hcaptured]
      exact ⟨rfl, congrArg UInt32.ofInt hcaptured⟩

theorem rkVideoResetFrameRate_leaves (h : Stores e.store id v)
    (hr : rkVideoResetFrameRate e id = some (ret, e')) : ResetLeaves e e' id v := by
  obtain ⟨hfits, -⟩ := (exists_rkVideoResetFrameRate_iff h).mp ⟨_, hr⟩
  rw [rkVideoResetFrameRate_eq h hfits] at hr
  obtain ⟨⟨ret', e₁⟩, hwrite, heq⟩ := Option.map_eq_some_iff.mp hr
  cases heq
  exact writeFrameRate_leaves h hwrite

end

/-! ## All streams -/

section

variable {e e' : Encoder} {ids : List Int32} {v : Int32 → Settings} {enabled : Int32 → ℤ}

theorem resetStream_leaves {id : Int32} (h : Stores e.store id (v id))
    (henabled : rkParamGetInt e.store (enableVencEntry id) 0 = some (enabled id))
    (hr : resetStream e id = some e') :
    (enabled id ≠ 0 → ResetLeaves e e' id (v id)) ∧ (enabled id = 0 → e' = e) := by
  rw [resetStream, henabled] at hr
  simp only [Option.bind_eq_bind, Option.bind_some] at hr
  split at hr
  · next hon =>
    obtain ⟨⟨ret, e₁⟩, hreset, rfl⟩ := Option.map_eq_some_iff.mp hr
    exact ⟨fun _ => rkVideoResetFrameRate_leaves h hreset, fun hoff => absurd hoff hon⟩
  · next hoff => exact ⟨fun hon => absurd hon hoff, fun _ => (Option.some.inj hr).symm⟩

theorem exists_resetStream_iff {id : Int32} (h : Stores e.store id (v id))
    (henabled : rkParamGetInt e.store (enableVencEntry id) 0 = some (enabled id)) :
    (∃ e', resetStream e id = some e') ↔ (enabled id ≠ 0 → Resettable (v id)) := by
  rw [resetStream, henabled]
  simp only [Option.bind_eq_bind, Option.bind_some]
  split
  · next hon =>
    rw [← exists_rkVideoResetFrameRate_iff h]
    constructor
    · rintro ⟨e', he'⟩ -
      obtain ⟨r, hr, -⟩ := Option.map_eq_some_iff.mp he'
      exact ⟨r, hr⟩
    · intro hreset
      obtain ⟨r, hr⟩ := hreset hon
      exact ⟨r.2, by rw [hr]; rfl⟩
  · next hoff => exact ⟨fun _ hon => absurd hon hoff, fun _ => ⟨e, rfl⟩⟩

/-- A stream keeps the settings and the flags of all. -/
theorem resetStream_kept {id : Int32} (h : Stores e.store id (v id))
    (henabled : rkParamGetInt e.store (enableVencEntry id) 0 = some (enabled id))
    (hr : resetStream e id = some e') :
    (∀ i w, Stores e.store i w → Stores e'.store i w) ∧
      ∀ i default, rkParamGetInt e'.store (enableVencEntry i) default =
        rkParamGetInt e.store (enableVencEntry i) default := by
  obtain ⟨hon, hoff⟩ := resetStream_leaves h henabled hr
  by_cases hen : enabled id = 0
  · rw [hoff hen]
    exact ⟨fun _ _ hw => hw, fun _ _ => rfl⟩
  · exact ⟨(hon hen).stores, (hon hen).enabled⟩

/-- **The streams can be set once more** if and only if every one that is enabled can. -/
theorem resetStreams_eq_some_iff (hstores : ∀ id ∈ ids, Stores e.store id (v id))
    (henabled : ∀ id ∈ ids, rkParamGetInt e.store (enableVencEntry id) 0 = some (enabled id)) :
    (∃ e', ids.foldlM resetStream e = some e') ↔
      ∀ id ∈ ids, enabled id ≠ 0 → Resettable (v id) := by
  induction ids generalizing e with
  | nil => exact ⟨fun _ => nofun, fun _ => ⟨e, rfl⟩⟩
  | cons id ids ih =>
    obtain ⟨hid, hids⟩ := List.forall_mem_cons.mp hstores
    obtain ⟨hflag, hflags⟩ := List.forall_mem_cons.mp henabled
    have hfirst := exists_resetStream_iff hid hflag
    rw [List.forall_mem_cons, ← hfirst]
    have hrest : ∀ e₁, resetStream e id = some e₁ → ((∃ e', ids.foldlM resetStream e₁ = some e') ↔
        ∀ id ∈ ids, enabled id ≠ 0 → Resettable (v id)) := by
      intro e₁ he₁
      obtain ⟨hkept, hflagsKept⟩ := resetStream_kept hid hflag he₁
      exact ih (fun i hi => hkept i _ (hids i hi)) fun i hi => (hflagsKept i 0).trans (hflags i hi)
    constructor
    · rintro ⟨e', he'⟩
      rw [List.foldlM_cons] at he'
      obtain ⟨e₁, he₁, he'⟩ := Option.bind_eq_some_iff.mp he'
      exact ⟨⟨e₁, he₁⟩, (hrest e₁ he₁).mp ⟨e', he'⟩⟩
    · rintro ⟨⟨e₁, he₁⟩, hall⟩
      obtain ⟨e', he'⟩ := (hrest e₁ he₁).mpr hall
      exact ⟨e', by rw [List.foldlM_cons, he₁]; exact he'⟩

/-- **What the streams have** after they were set once more. -/
theorem resetStreams_written (hnodup : ids.Nodup) (hstores : ∀ id ∈ ids, Stores e.store id (v id))
    (henabled : ∀ id ∈ ids, rkParamGetInt e.store (enableVencEntry id) 0 = some (enabled id))
    (hr : ids.foldlM resetStream e = some e') :
    (∀ i w, Stores e.store i w → Stores e'.store i w) ∧
      (∀ i ∉ ids, e'.vi i = e.vi i ∧ e'.venc i = e.venc i) ∧
      ∀ id ∈ ids, enabled id ≠ 0 → StreamReset e e' id (v id) := by
  induction ids generalizing e with
  | nil =>
    obtain rfl := Option.some.inj hr
    exact ⟨fun _ _ hw => hw, fun _ _ => ⟨rfl, rfl⟩, nofun⟩
  | cons id ids ih =>
    obtain ⟨hid, hids⟩ := List.forall_mem_cons.mp hstores
    obtain ⟨hflag, hflags⟩ := List.forall_mem_cons.mp henabled
    obtain ⟨hnot, hnodup⟩ := List.nodup_cons.mp hnodup
    rw [List.foldlM_cons] at hr
    obtain ⟨e₁, he₁, hr⟩ := Option.bind_eq_some_iff.mp hr
    obtain ⟨hkept, hflagsKept⟩ := resetStream_kept hid hflag he₁
    obtain ⟨hon, hoff⟩ := resetStream_leaves hid hflag he₁
    obtain ⟨hstores', hothers, hreset⟩ := ih hnodup (fun i hi => hkept i _ (hids i hi))
      (fun i hi => (hflagsKept i 0).trans (hflags i hi)) hr
    -- the first stream leaves the registers of the others
    have hfirst : ∀ i ≠ id, e₁.vi i = e.vi i ∧ e₁.venc i = e.venc i := by
      intro i hi
      by_cases hen : enabled id = 0
      · rw [hoff hen]
        exact ⟨rfl, rfl⟩
      · exact (hon hen).others i hi
    refine ⟨fun i w hw => hstores' i w (hkept i w hw), fun i hi => ?_, fun i hi hen => ?_⟩
    · obtain ⟨hne, hi⟩ := not_or.mp (List.mem_cons.not.mp hi)
      obtain ⟨hvi, hvenc⟩ := hothers i hi
      obtain ⟨hvi₁, hvenc₁⟩ := hfirst i hne
      exact ⟨hvi.trans hvi₁, hvenc.trans hvenc₁⟩
    · rcases List.mem_cons.mp hi with rfl | hi
      · exact (hon hen).reset.trans_eq (hothers i hnot)
      · exact (hreset i hi hen).of_eq (hfirst i (ne_of_mem_of_not_mem hi hnot))

/-! ## The sensor -/

theorem adjustmentFpsEntry_zero : adjustmentFpsEntry 0 0 = fpsEntry := rfl

/-- The registers of a stream agree with the sensor, after it was set once more. -/
theorem StreamReset.agrees_iff {id : Int32} {w : Settings} {value : ℤ}
    (h : StreamReset e e' id w) (hreset : Resettable w) :
    ((e'.vi id).s32SrcFrameRate = value ∧ (w.number .dstFrameRateDen ≠ 1 →
        (e'.venc id).u32SrcFrameRateNum = .ofInt value)) ↔ InStep e id w value := by
  rw [InStep, and_iff_right hreset]
  split
  · next hcodec =>
    rw [(h.refused hcodec).1, (h.refused hcodec).2]
  · next hcodec =>
    rw [(h.written hcodec).1, (h.written hcodec).2]
    refine ⟨fun hagrees => hagrees.1, fun hfps => ⟨hfps, fun hden => ?_⟩⟩
    rw [Settings.captured, if_neg hden, hfps]

variable {ready : Int32 → Bool} {s : Sensor} {value : ℤ}

/-- The call, as far as it depends on the streams. -/
theorem rkIspSetFrameRate_eq_some_iff (hready : ready 0 = true)
    (hscenario : s.currentScenarioId = 0) (hpos : 0 < value) {s' : Sensor} :
    rkIspSetFrameRate ready 0 value s = some (0, s') ↔
      ∃ e' p', streams.foldlM resetStream s.encoder = some e' ∧
        rkParamSetInt e'.store fpsEntry value = some p' ∧
        s' = ⟨Function.update s.frmRate 0 ⟨true, value⟩, 0, { e' with store := p' }⟩ := by
  rw [rkIspSetFrameRate, hready, hscenario, adjustmentFpsEntry_zero, if_neg (by decide),
    if_neg (by omega)]
  simp only [Option.bind_eq_bind, Option.bind_eq_some_iff, Option.some.injEq, Prod.mk.injEq,
    true_and]
  constructor
  · rintro ⟨e', he', p', hp', rfl⟩
    exact ⟨e', p', he', hp', rfl⟩
  · rintro ⟨e', p', he', hp', rfl⟩
    exact ⟨e', he', p', hp', rfl⟩

/-- **The streams have the frame rate of the sensor** after a call if and only if every stream that
is enabled is in step with it before. -/
theorem ratesAgree_iff (hready : ready 0 = true) (hscenario : s.currentScenarioId = 0)
    (h : StoresAll s.encoder.store v enabled) (hpos : 0 < value) :
    (∃ s', rkIspSetFrameRate ready 0 value s = some (0, s') ∧ RatesAgree s' v enabled value) ↔
      value ≤ 9999999 ∧ ∀ id ∈ streams, enabled id ≠ 0 → InStep s.encoder id (v id) value := by
  have hreturns := resetStreams_eq_some_iff h.stores h.enabled
  constructor
  · rintro ⟨s', hs', hagree⟩
    obtain ⟨e', p', he', hp', rfl⟩ := (rkIspSetFrameRate_eq_some_iff hready hscenario hpos).mp hs'
    obtain ⟨-, -, hreset⟩ := resetStreams_written (by decide) h.stores h.enabled he'
    refine ⟨(rkParamSetInt_eq_some_iff.mp hp').1.2, fun id hid hen => ?_⟩
    exact ((hreset id hid hen).agrees_iff (hreturns.mp ⟨e', he'⟩ id hid hen)).mp
      ⟨hagree.capture id hid hen, hagree.fraction id hid hen⟩
  · rintro ⟨hvalue, hstep⟩
    obtain ⟨e', he'⟩ := hreturns.mpr fun id hid hen => (hstep id hid hen).1
    obtain ⟨hkept, -, hreset⟩ := resetStreams_written (by decide) h.stores h.enabled he'
    have hlive := (hkept 0 _ (h.stores 0 (by decide))).live
    obtain ⟨p', hset⟩ := hlive.exists_set fpsEntry (some (decimal value))
    have hp' := rkParamSetInt_eq_some_iff.mpr ⟨⟨by omega, hvalue⟩, hset⟩
    refine ⟨_, (rkIspSetFrameRate_eq_some_iff hready hscenario hpos).mpr ⟨e', p', he', hp', rfl⟩,
      Function.update_self 0 _ s.frmRate, ?_, fun id hid hen => ?_, fun id hid hen hden => ?_⟩
    · rw [sensorFps, rkParamGetInt_set hlive hset, if_pos rfl, cstr_decimal,
        strtol_decimal ⟨by omega, by omega⟩]
    · exact (((hreset id hid hen).agrees_iff (hstep id hid hen).1).mpr (hstep id hid hen)).1
    · exact (((hreset id hid hen).agrees_iff (hstep id hid hen).1).mpr (hstep id hid hen)).2 hden

end

/-- One stream is enabled. -/
def oneSensor : Sensor where
  frmRate := fun _ => ⟨true, 25⟩
  currentScenarioId := 0
  encoder := { oneStream with
    store := (oneStream.store.set (enableVencEntry 0) (some (lit "1"))).getD oneStream.store }

/-- The settings of the stream, and of two streams that nothing is stored about. -/
def oneSensorSettings (id : Int32) : Settings :=
  if id = 0 then oneStreamSettings else ⟨lit "H.264", lit "CBR", fun _ => -1, 25⟩

/-- Which of them is enabled. -/
def oneSensorEnabled (id : Int32) : ℤ := if id = 0 then 1 else 0

theorem storesAll_oneSensor :
    StoresAll oneSensor.encoder.store oneSensorSettings oneSensorEnabled := by
  have hcases : ∀ id ∈ streams, id = 0 ∨ id = 1 ∨ id = 2 := fun id hid => by
    simpa [streams] using hid
  constructor
  · intro id hid
    rcases hcases id hid with rfl | rfl | rfl <;>
      refine ⟨⟨_, rfl⟩, by decide +kernel, by decide +kernel, fun n => ?_, by decide +kernel⟩ <;>
      cases n <;> decide +kernel
  · intro id hid
    rcases hcases id hid with rfl | rfl | rfl <;> decide +kernel

/-- The frame rate of the sensor is set once more. -/
theorem ratesAgree_iff_oneSensor :
    (∃ s', rkIspSetFrameRate (fun _ => true) 0 25 oneSensor = some (0, s') ∧
        RatesAgree s' oneSensorSettings oneSensorEnabled 25) ↔
      (25 : ℤ) ≤ 9999999 ∧ ∀ id ∈ streams, oneSensorEnabled id ≠ 0 →
        InStep oneSensor.encoder id (oneSensorSettings id) 25 :=
  ratesAgree_iff rfl rfl storesAll_oneSensor (by decide)

/-- **A new frame rate**: the sensor has 30 frames for each second, and the stream is told 25. -/
theorem not_ratesAgree_new :
    ¬ ∃ s', rkIspSetFrameRate (fun _ => true) 0 30 oneSensor = some (0, s') ∧
      RatesAgree s' oneSensorSettings oneSensorEnabled 30 := by
  rintro ⟨s', hs', hagree⟩
  have hcapture := hagree.capture 0 (by decide) (by decide)
  have hread : (rkIspSetFrameRate (fun _ => true) 0 30 oneSensor).map (fun r =>
      (r.2.encoder.vi 0).s32SrcFrameRate) = some 25 := by decide +kernel
  rw [hs', Option.map_some, hcapture] at hread
  exact absurd hread (by decide)

end RkIpc.Isp
