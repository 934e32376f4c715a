import RkIpc.Video.Encoder

/-!
# The text of a frame rate

`rk_video_get_frame_rate` prints the frame rate of a stream, as `%d` if it is an integer and as
`%d/%d` otherwise, and `rk_video_set_frame_rate` scans such a text. It does not look at how many
numbers `sscanf` has read: a variable that was not read keeps what the stack had at its place, and
what follows the numbers is ignored.

## Main definitions

* `isFrameRate`: the texts that are an integer, or a fraction with a denominator other than zero
* `rkVideoSetFrameRateOn`: the setter, on a stack with something on it
* `RoundTrips`: a frame rate is set again as it was read
* `Rejects`: a text that is no frame rate changes nothing

## Main results

* `roundTrips`: every frame rate of at most seven characters round trips
* `roundTrips_and_rejects_iff`: when a text that is no frame rate changes nothing
-/

namespace RkIpc.Video

open Text Param

/-! ## Scanning -/

/-- **A frame rate**: `%d`, or `%d/%d` with a denominator other than zero. -/
def isFrameRate (s : Str) : Bool :=
  match scanInt s with
  | some (_, []) => true
  | some (_, 47 :: t) =>
    match scanInt t with
    | some (den, []) => den ≠ 0
    | _ => false
  | _ => false

/-- The two calls of `sscanf`, with what `num` and `den` have before: a variable that is not reached
keeps it. -/
def scanInto (value : Str) (num den : ℤ) : ℤ × ℤ :=
  if 47 ∉ value then (((scanInt value).map Prod.fst).getD num, 1)
  else
    match scanInt value with
    | some (n, 47 :: s) => (n, ((scanInt s).map Prod.fst).getD den)
    | some (n, _) => (n, den)
    | none => (num, den)

/-- Both variables are read. -/
theorem scanInto_of_eq_some {value : Str} {r : ℤ × ℤ} (h : scanFrameRate value = some r)
    (num den : ℤ) : scanInto value num den = r := by
  unfold scanFrameRate at h
  unfold scanInto
  split at h
  · next hslash =>
    rw [if_pos hslash]
    obtain ⟨t, ht, rfl⟩ := Option.map_eq_some_iff.mp h
    rw [ht]
    rfl
  · next hslash =>
    rw [if_neg hslash]
    split at h
    · next n s hn =>
      obtain ⟨t, ht, rfl⟩ := Option.map_eq_some_iff.mp h
      rw [hn]
      change (n, ((scanInt s).map Prod.fst).getD den) = _
      rw [ht]
      rfl
    · cases h

/-- One of the variables is what it was. -/
theorem scanInto_of_eq_none {value : Str} (h : scanFrameRate value = none) (num den : ℤ) :
    (scanInto value num den).1 = num ∨ (scanInto value num den).2 = den := by
  unfold scanFrameRate at h
  unfold scanInto
  split at h
  · next hslash =>
    rw [if_pos hslash, Option.map_eq_none_iff.mp h]
    exact .inl rfl
  · next hslash =>
    rw [if_neg hslash]
    split at h
    · next n s hn =>
      rw [hn]
      refine .inr ?_
      change ((scanInt s).map Prod.fst).getD den = den
      rw [Option.map_eq_none_iff.mp h]
      rfl
    · split
      · next hscan => exact absurd hscan (by simp_all)
      · exact .inr rfl
      · exact .inr rfl

/-! ## Setting -/

/-- The attributes with a frame rate. -/
def VencChnAttr.withFrameRate (a : VencChnAttr) (codec : Codec) (num den fps : ℤ) : VencChnAttr :=
  { a with
    enType := some codec
    u32SrcFrameRateDen := .ofInt (if den ≠ 1 then 1 else den)
    u32SrcFrameRateNum := .ofInt (if den ≠ 1 then fps else num)
    fr32DstFrameRateDen := .ofInt den
    fr32DstFrameRateNum := .ofInt num }

/-- What `rk_video_set_frame_rate` does with the two numbers. -/
def writeFrameRate (e : Encoder) (id : Int32) (num den : ℤ) : Option (ℤ × Encoder) := do
  let fps ← sensorFps e.store
  let dataType ← tmpOutputDataType e.store id
  let _ ← tmpRcMode e.store id
  match codecOf dataType with
  | none => some (-1, e)
  | some codec =>
    let store ← setNumber e.store id .dstFrameRateDen den
    let store ← setNumber store id .dstFrameRateNum num
    some (0, {
      store
      venc := Function.update e.venc id ((e.venc id).withFrameRate codec num den fps)
      vi := Function.update e.vi id ⟨fps, if den ≠ 1 then fps else num⟩ })

/-- **`rk_video_set_frame_rate`**, where the stack has two numbers at the places of `num` and
`den`. -/
def rkVideoSetFrameRateOn (e : Encoder) (id : Int32) (value : Str) (num den : Int32) :
    Option (ℤ × Encoder) :=
  let r := scanInto (cstr value) num.toInt den.toInt
  writeFrameRate e id r.1 r.2

theorem rkVideoSetFrameRate_eq (e : Encoder) (id : Int32) (value : Str) :
    rkVideoSetFrameRate e id value =
      (scanFrameRate (cstr value)).bind fun r => writeFrameRate e id r.1 r.2 := rfl

/-- The stack does not matter if both variables are read. -/
theorem rkVideoSetFrameRateOn_eq {e : Encoder} {id : Int32} {value : Str} {r : ℤ × ℤ}
    (h : scanFrameRate (cstr value) = some r) (num den : Int32) :
    rkVideoSetFrameRateOn e id value num den = rkVideoSetFrameRate e id value := by
  rw [rkVideoSetFrameRate_eq, h, rkVideoSetFrameRateOn, scanInto_of_eq_some h]
  rfl

/-! ## Properties -/

/-- The two numbers are stored as `rk_param_set_int` prints them. -/
def Printed (p : Store) (id : Int32) (v : Settings) : Prop :=
  ∀ n ∈ [Number.dstFrameRateDen, .dstFrameRateNum],
    rkParamGetString p (videoEntry id (.number n)) none = some (some (decimal (v.number n)))

/-- **A frame rate is set again as it was read**: the numbers stay, and those of the other streams;
and resetting it stays inside its buffer and leaves the store as it is. -/
structure RoundTrips (e : Encoder) (id : Int32) (v : Settings) : Prop where
  set : ∃ text, rkVideoGetFrameRate e id = some text ∧ ∀ num den, ∃ ret e',
    rkVideoSetFrameRateOn e id text num den = some (ret, e') ∧
      getNumber e'.store id .dstFrameRateNum = some (v.number .dstFrameRateNum) ∧
      getNumber e'.store id .dstFrameRateDen = some (v.number .dstFrameRateDen)
  reset : ∃ e', rkVideoResetFrameRate e id = some (0, e') ∧
    (∀ i w, Stores e.store i w → Stores e'.store i w) ∧
    (Printed e.store id v → e'.store = e.store)

/-- The frame rate of a stream and the registers are as they were. -/
structure SameRate (e e' : Encoder) (id : Int32) : Prop where
  num : getNumber e'.store id .dstFrameRateNum = getNumber e.store id .dstFrameRateNum
  den : getNumber e'.store id .dstFrameRateDen = getNumber e.store id .dstFrameRateDen
  venc : e'.venc = e.venc
  vi : e'.vi = e.vi

/-- **A text that is no frame rate changes nothing**, whatever is on the stack. -/
def Rejects (e : Encoder) (id : Int32) (s : Str) : Prop :=
  isFrameRate (cstr s) = false → ∀ num den, ∃ ret e',
    rkVideoSetFrameRateOn e id s num den = some (ret, e') ∧ SameRate e e' id

/-- The registers of a stream have its frame rate. -/
structure RateInForce (a : VencChnAttr) (r : FrameRate) (v : Settings) : Prop where
  enType : a.enType = codecOf v.outputDataType
  source : a.u32SrcFrameRateNum = .ofInt v.captured ∧ a.u32SrcFrameRateDen = 1
  destination : a.fr32DstFrameRateNum = .ofInt (v.number .dstFrameRateNum) ∧
    a.fr32DstFrameRateDen = .ofInt (v.number .dstFrameRateDen)
  capture : r = ⟨v.fps, v.captured⟩

section

variable {e e' : Encoder} {i j id : Int32} {v w : Settings} {ret num den : ℤ}

theorem VencChnAttr.withFrameRate_eq_iff {a : VencChnAttr} {r : FrameRate} {codec : Codec}
    (hcodec : codecOf v.outputDataType = some codec) :
    (a.withFrameRate codec (v.number .dstFrameRateNum) (v.number .dstFrameRateDen) v.fps = a ∧
        ⟨v.fps, if v.number .dstFrameRateDen ≠ 1 then v.fps else v.number .dstFrameRateNum⟩ = r) ↔
      RateInForce a r v := by
  have hden : (if v.number .dstFrameRateDen ≠ 1 then 1 else v.number .dstFrameRateDen) = 1 := by
    split <;> omega
  have hnum : (if v.number .dstFrameRateDen ≠ 1 then v.fps else v.number .dstFrameRateNum) =
      v.captured := ite_not ..
  have hone : UInt32.ofInt 1 = 1 := rfl
  rw [withFrameRate, hden, hnum, hone]
  constructor
  · rintro ⟨ha, hr⟩
    cases a
    simp only [VencChnAttr.mk.injEq] at ha
    exact ⟨by rw [hcodec, ← ha.1], ⟨ha.2.2.2.1.symm, ha.2.2.2.2.1.symm⟩,
      ⟨ha.2.2.2.2.2.1.symm, ha.2.2.2.2.2.2.1.symm⟩, hr.symm⟩
  · rintro ⟨htype, ⟨hsource, hsourceDen⟩, ⟨hdest, hdestDen⟩, hr⟩
    rw [← hcodec, ← htype, ← hsource, ← hsourceDen, ← hdest, ← hdestDen]
    exact ⟨rfl, hr.symm⟩

theorem writeFrameRate_refused (h : Stores e.store id v)
    (hcodec : codecOf v.outputDataType = none) : writeFrameRate e id num den = some (-1, e) := by
  rw [writeFrameRate, h.fps, h.outputDataType]
  simp only [Option.bind_eq_bind, Option.bind_some, h.rcMode, hcodec]

/-- **What a frame rate that is set leaves**, if the codec is one of the two. -/
theorem writeFrameRate_written (h : Stores e.store id v) {codec : Codec}
    (hcodec : codecOf v.outputDataType = some codec)
    (hr : writeFrameRate e id num den = some (ret, e')) :
    (Short num ∧ Short den) ∧ ret = 0 ∧
      e'.venc = Function.update e.venc id ((e.venc id).withFrameRate codec num den v.fps) ∧
      e'.vi = Function.update e.vi id ⟨v.fps, if den ≠ 1 then v.fps else num⟩ := by
  rw [writeFrameRate, h.fps, h.outputDataType] at hr
  simp only [Option.bind_eq_bind, Option.bind_some, h.rcMode, hcodec] at hr
  obtain ⟨p, hp, hr⟩ := Option.bind_eq_some_iff.mp hr
  obtain ⟨p₁, hp₁, hr⟩ := Option.bind_eq_some_iff.mp hr
  cases hr
  exact ⟨⟨(rkParamSetInt_eq_some_iff.mp hp₁).1, (rkParamSetInt_eq_some_iff.mp hp).1⟩, rfl, rfl, rfl⟩

/-- The settings with a frame rate. -/
def Settings.writeRate (v : Settings) (num den : ℤ) : Settings :=
  (v.writeNumber .dstFrameRateDen den).writeNumber .dstFrameRateNum num

/-- The settings with the frame rate that they have. -/
@[simp] theorem Settings.writeRate_self (v : Settings) :
    v.writeRate (v.number .dstFrameRateNum) (v.number .dstFrameRateDen) = v := by
  unfold writeRate writeNumber
  simp only [Function.update_eq_self]

/-- The settings of every stream, after a frame rate was set. -/
theorem writeFrameRate_stores (h : Stores e.store id v) {codec : Codec}
    (hcodec : codecOf v.outputDataType = some codec)
    (hr : writeFrameRate e id num den = some (ret, e')) (hw : Stores e.store i w) :
    Stores e'.store i (if i = id then w.writeRate num den else w) := by
  rw [writeFrameRate, h.fps, h.outputDataType] at hr
  simp only [Option.bind_eq_bind, Option.bind_some, h.rcMode, hcodec] at hr
  obtain ⟨p, hp, hr⟩ := Option.bind_eq_some_iff.mp hr
  obtain ⟨p₁, hp₁, hr⟩ := Option.bind_eq_some_iff.mp hr
  cases hr
  have hstores := stores_setNumber (stores_setNumber hw hp) hp₁
  by_cases hi : i = id
  · rw [if_pos hi, if_pos hi] at hstores
    rwa [if_pos hi]
  · rw [if_neg hi, if_neg hi] at hstores
    rwa [if_neg hi]

theorem writeFrameRate_returns (h : Stores e.store id v) (hnum : Short num) (hden : Short den) :
    ∃ r, writeFrameRate e id num den = some r := by
  obtain ⟨p, hp⟩ := exists_setNumber h id .dstFrameRateDen hden
  obtain ⟨p₁, hp₁⟩ := exists_setNumber (stores_setNumber h hp) id .dstFrameRateNum hnum
  rw [writeFrameRate, h.fps, h.outputDataType]
  simp only [Option.bind_eq_bind, Option.bind_some, h.rcMode]
  split
  · exact ⟨_, rfl⟩
  · simp only [hp, Option.bind_some, hp₁]
    exact ⟨_, rfl⟩

/-- The settings of a stream are determined by the store. -/
theorem Stores.number_eq (h : Stores e.store id v) (hw : Stores e.store id w) (n : Number) :
    w.number n = v.number n :=
  Option.some.inj ((hw.number n).symm.trans (h.number n))

/-- **Setting the frame rate that is stored** keeps the settings of every stream. -/
theorem writeFrameRate_same (h : Stores e.store id v)
    (hr : writeFrameRate e id (v.number .dstFrameRateNum) (v.number .dstFrameRateDen) =
      some (ret, e')) (hw : Stores e.store i w) : Stores e'.store i w := by
  cases hcodec : codecOf v.outputDataType with
  | none =>
    rw [writeFrameRate_refused h hcodec] at hr
    cases hr
    exact hw
  | some codec =>
    have hstores := writeFrameRate_stores h hcodec hr hw
    split at hstores
    · next hi =>
      subst hi
      rwa [← h.number_eq hw, ← h.number_eq hw, w.writeRate_self] at hstores
    · exact hstores

/-! ## Reading and setting again -/

theorem scanFrameRate_settings (h : Stores e.store id v) :
    scanFrameRate (cstr (frameRateText (v.number .dstFrameRateNum) (v.number .dstFrameRateDen))) =
      some (v.number .dstFrameRateNum, v.number .dstFrameRateDen) :=
  scanFrameRate_text (h.inRange _) (h.inRange _)

/-- The numbers that are printed already stay as they are. -/
theorem setNumber_eq_self {p : Store} (hprinted : Printed p id v) (hfits : v.Fits)
    {n : Number} (hn : n ∈ [Number.dstFrameRateDen, .dstFrameRateNum]) :
    setNumber p id n (v.number n) = some p := by
  have hshort : Short (v.number n) := by
    rcases List.mem_pair.mp hn with rfl | rfl
    · exact hfits.1
    · exact hfits.2
  exact rkParamSetInt_eq_some_iff.mpr
    ⟨hshort, Store.set_eq_self (hprinted n hn) (keyBytes_decimal _).zero_notMem⟩

theorem writeFrameRate_printed (h : Stores e.store id v) (hfits : v.Fits)
    (hprinted : Printed e.store id v)
    (hr : writeFrameRate e id (v.number .dstFrameRateNum) (v.number .dstFrameRateDen) =
      some (ret, e')) : e'.store = e.store := by
  have hden := setNumber_eq_self hprinted hfits (n := .dstFrameRateDen) (by simp)
  have hnum := setNumber_eq_self hprinted hfits (n := .dstFrameRateNum) (by simp)
  rw [writeFrameRate, h.fps, h.outputDataType] at hr
  simp only [Option.bind_eq_bind, Option.bind_some, h.rcMode, hden, hnum] at hr
  split at hr <;> cases hr <;> rfl

/-- **Every frame rate of short numbers round trips.** -/
theorem roundTrips (h : Stores e.store id v) (hfits : v.Fits) : RoundTrips e id v := by
  obtain ⟨⟨ret, e'⟩, hr⟩ := writeFrameRate_returns h hfits.2 hfits.1
  have hget := rkVideoGetFrameRate_eq h hfits
  have hset := rkVideoSetFrameRate_eq e id
    (frameRateText (v.number .dstFrameRateNum) (v.number .dstFrameRateDen))
  rw [scanFrameRate_settings h, Option.bind_some, hr] at hset
  have hstores := writeFrameRate_same h hr h
  constructor
  · refine ⟨_, hget, fun num den => ⟨ret, e', ?_, hstores.number _, hstores.number _⟩⟩
    rw [rkVideoSetFrameRateOn_eq (scanFrameRate_settings h), hset]
  · refine ⟨e', ?_, fun i w hw => writeFrameRate_same h hr hw,
      fun hprinted => writeFrameRate_printed h hfits hprinted hr⟩
    rw [rkVideoResetFrameRate, hget]
    simp only [Option.bind_eq_bind, Option.bind_some, hset]

/-! ## Texts that are no frame rate -/

/-- A number that is not the one given. -/
theorem exists_toInt_ne (n : ℤ) : ∃ m : Int32, m.toInt ≠ n := by
  by_cases h : n = 0
  · exact ⟨1, by rw [h]; decide⟩
  · exact ⟨0, fun h0 => h h0.symm⟩

theorem SameRate.numbers (hsame : SameRate e e' id) (h : Stores e.store id v)
    (h' : Stores e'.store id (w.writeRate num den)) :
    num = v.number .dstFrameRateNum ∧ den = v.number .dstFrameRateDen := by
  constructor
  · have hnum := hsame.num
    rw [h.number, h'.number] at hnum
    exact Option.some.inj hnum
  · have hden := hsame.den
    rw [h.number, h'.number] at hden
    exact Option.some.inj hden

/-- Writing a frame rate changes nothing only if it is the one that is stored and in the
registers. -/
theorem writeFrameRate_sameRate (h : Stores e.store id v) {codec : Codec}
    (hcodec : codecOf v.outputDataType = some codec)
    (hr : writeFrameRate e id num den = some (ret, e')) (hsame : SameRate e e' id) :
    (num = v.number .dstFrameRateNum ∧ den = v.number .dstFrameRateDen) ∧ v.Fits ∧
      RateInForce (e.venc id) (e.vi id) v := by
  obtain ⟨⟨hnum, hden⟩, -, hvenc, hvi⟩ := writeFrameRate_written h hcodec hr
  have hstores := writeFrameRate_stores h hcodec hr h
  rw [if_pos rfl] at hstores
  obtain ⟨rfl, rfl⟩ := hsame.numbers h hstores
  refine ⟨⟨rfl, rfl⟩, ⟨hden, hnum⟩, (VencChnAttr.withFrameRate_eq_iff hcodec).mp ⟨?_, ?_⟩⟩
  · have := congrFun (hvenc.symm.trans hsame.venc) id
    rwa [Function.update_self] at this
  · have := congrFun (hvi.symm.trans hsame.vi) id
    rwa [Function.update_self] at this

/-- The frame rate that is stored and in the registers can be written, and changes nothing. -/
theorem writeFrameRate_inForce (h : Stores e.store id v) (hfits : v.Fits)
    (hforce : RateInForce (e.venc id) (e.vi id) v) {codec : Codec}
    (hcodec : codecOf v.outputDataType = some codec) : ∃ ret e',
    writeFrameRate e id (v.number .dstFrameRateNum) (v.number .dstFrameRateDen) = some (ret, e') ∧
      SameRate e e' id := by
  obtain ⟨⟨ret, e'⟩, hr⟩ := writeFrameRate_returns h hfits.2 hfits.1
  obtain ⟨-, -, hvenc, hvi⟩ := writeFrameRate_written h hcodec hr
  obtain ⟨ha, hcapture⟩ := (VencChnAttr.withFrameRate_eq_iff hcodec).mpr hforce
  have hstores := writeFrameRate_same h hr h
  refine ⟨ret, e', hr, ?_, ?_, ?_, ?_⟩
  · rw [h.number, hstores.number]
  · rw [h.number, hstores.number]
  · rw [hvenc, ha, Function.update_eq_self]
  · rw [hvi, hcapture, Function.update_eq_self]

theorem rejects_iff (h : Stores e.store id v) (s : Str) :
    Rejects e id s ↔ isFrameRate (cstr s) = true ∨ codecOf v.outputDataType = none ∨
      scanFrameRate (cstr s) = some (v.number .dstFrameRateNum, v.number .dstFrameRateDen) ∧
        v.Fits ∧ RateInForce (e.venc id) (e.vi id) v := by
  constructor
  · intro hrejects
    rcases Bool.eq_false_or_eq_true (isFrameRate (cstr s)) with hrate | hrate
    · exact .inl hrate
    refine .inr ?_
    cases hcodec : codecOf v.outputDataType with
    | none => exact .inl rfl
    | some codec =>
      refine .inr ?_
      -- on the stack there are numbers that are not the stored ones
      obtain ⟨num, hnum⟩ := exists_toInt_ne (v.number .dstFrameRateNum)
      obtain ⟨den, hden⟩ := exists_toInt_ne (v.number .dstFrameRateDen)
      obtain ⟨ret, e', hr, hsame⟩ := hrejects hrate num den
      obtain ⟨⟨hn, hd⟩, hfits, hforce⟩ := writeFrameRate_sameRate h hcodec hr hsame
      refine ⟨?_, hfits, hforce⟩
      cases hscan : scanFrameRate (cstr s) with
      | none =>
        rcases scanInto_of_eq_none hscan num.toInt den.toInt with hkept | hkept
        · exact absurd (hkept.symm.trans hn) hnum
        · exact absurd (hkept.symm.trans hd) hden
      | some r =>
        rw [scanInto_of_eq_some hscan] at hn hd
        rw [← hn, ← hd]
  · rintro (hrate | hcodec | ⟨hscan, hfits, hforce⟩) hno num den
    · exact absurd (hrate.symm.trans hno) nofun
    · exact ⟨-1, e, writeFrameRate_refused h hcodec, rfl, rfl, rfl, rfl⟩
    · rw [rkVideoSetFrameRateOn, scanInto_of_eq_some hscan]
      cases hcodec : codecOf v.outputDataType with
      | none => exact ⟨-1, e, writeFrameRate_refused h hcodec, rfl, rfl, rfl, rfl⟩
      | some codec => exact writeFrameRate_inForce h hfits hforce hcodec

/-- **A frame rate round trips** if its numbers are short; and a text that is no frame rate changes
nothing if and only if the codec is refused, or the text begins with the frame rate that the stream
has already. -/
theorem roundTrips_and_rejects_iff (h : Stores e.store id v) (s : Str) :
    (v.Fits → RoundTrips e id v) ∧
      (Rejects e id s ↔ isFrameRate (cstr s) = true ∨ codecOf v.outputDataType = none ∨
        scanFrameRate (cstr s) = some (v.number .dstFrameRateNum, v.number .dstFrameRateDen) ∧
          v.Fits ∧ RateInForce (e.venc id) (e.vi id) v) :=
  ⟨roundTrips h, rejects_iff h s⟩

end

theorem stores_oneStream : Stores oneStream.store 0 oneStreamSettings := by
  refine ⟨⟨_, rfl⟩, by decide +kernel, by decide +kernel, fun n => ?_, by decide +kernel⟩
  cases n <;> decide +kernel

/-- A stream with 25 frames for each second, and a text that says this and goes on. -/
theorem roundTrips_and_rejects_iff_oneStream :
    (oneStreamSettings.Fits → RoundTrips oneStream 0 oneStreamSettings) ∧
      (Rejects oneStream 0 (lit "25 fps") ↔ isFrameRate (cstr (lit "25 fps")) = true ∨
        codecOf oneStreamSettings.outputDataType = none ∨
        scanFrameRate (cstr (lit "25 fps")) = some (25, 1) ∧ oneStreamSettings.Fits ∧
          RateInForce (oneStream.venc 0) (oneStream.vi 0) oneStreamSettings) :=
  roundTrips_and_rejects_iff stores_oneStream (lit "25 fps")

/-- **A text without a number** stores the one that is on the stack. -/
theorem not_rejects_letters :
    isFrameRate (cstr (lit "abc")) = false ∧ ¬ Rejects oneStream 0 (lit "abc") := by
  refine ⟨rfl, fun hrejects => ?_⟩
  obtain ⟨ret, e', hr, hsame⟩ := hrejects (rfl) 7 0
  have hread : (rkVideoSetFrameRateOn oneStream 0 (lit "abc") 7 0).bind (fun r =>
      getNumber r.2.store 0 .dstFrameRateNum) = some 7 := by decide +kernel
  have hbefore : getNumber oneStream.store 0 .dstFrameRateNum = some 25 := by decide +kernel
  rw [hr, Option.bind_some, hsame.num, hbefore] at hread
  exact absurd hread (by decide)

end RkIpc.Video
