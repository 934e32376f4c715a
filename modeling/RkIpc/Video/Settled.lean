import RkIpc.Video.Restart

/-!
# What a restart changes

A stream is settled when its attributes are the ones that a restart would make of the parameters.
Every setter keeps that, whether it restarts the video or not, but for one attribute: the
range of the colours follows its parameter only when the video is restarted.

## Main definitions

* `Values`, `HasTexts`: the texts of the parameters
* `Values.venc`, `Values.vi`, `Values.channel`: the attributes that follow from them
* `Settled`: a stream with these attributes

## Main results

* `rkVideoRestart_spec`: a stream is settled by a restart
* `Settled.call`: a setter keeps a stream settled
* `restart_unchanged_iff`: when a restart changes nothing
-/

namespace RkIpc.Video

open Text Param

/-! ## Values -/

/-- The texts of the parameters. One may not be there, or have no text. -/
abbrev Values := Key → Option (Option Str)

namespace Values

variable (v : Values) (k l : Key) (s : Str)

/-- A text. -/
def text (default : Str) : Str := ((v k).getD (some default)).getD []

/-- A number. -/
def int (default : ℤ) : ℤ := (v k).elim default fun s => strtol (s.getD [])

/-- A text is set. -/
def set : Values := Function.update v k (some (some s))

@[simp] theorem set_apply : v.set k s l = if l = k then some (some s) else v l :=
  Function.update_apply ..

@[simp] theorem text_set (default : Str) :
    (v.set k s).text l default = if l = k then s else v.text l default := by
  rw [text, set_apply, text]
  split <;> rfl

@[simp] theorem int_set (default : ℤ) :
    (v.set k s).int l default = if l = k then strtol s else v.int l default := by
  rw [int, set_apply, int]
  split <;> rfl

end Values

/-- **What is read from the store.** -/
structure HasTexts (p : Store) (v : Values) : Prop where
  live : p.Live
  string : ∀ k default, rkParamGetString p k.entry default = some ((v k).getD default)
  int : ∀ k default, rkParamGetInt p k.entry default = (v k).elim (some default) (Option.map strtol)

section HasTexts

variable {p p' : Store} {v : Values} {k l : Key} {s : Str}

theorem exists_hasTexts (hp : p.Live) : ∃ v, HasTexts p v := by
  obtain ⟨d, hd⟩ := hp
  refine ⟨fun k => d.lookup k.entry, ⟨d, hd⟩, fun k default => ?_, fun k default => ?_⟩
  · rw [rkParamGetString, hd]
    dsimp only [iniparserGetstring, dictionaryGet]
    rw [strlwc_entry]
  · rw [rkParamGetInt, hd]
    dsimp only [iniparserGetint]
    rw [strlwc_entry]
    rcases d.lookup k.entry with _ | _ | s <;> rfl

/-- **A text that is set is read back**, and the others are as before. -/
theorem HasTexts.set (h : HasTexts p v) (hset : p.set l.entry (some s) = some p') :
    HasTexts p' (v.set l (cstr s)) where
  live := h.live.of_set hset
  string k default := by
    rw [rkParamGetString_set h.live hset, strlwc_entry, strlwc_entry, h.string, Values.set_apply]
    simp only [entry_injective.eq_iff]
    split <;> rfl
  int k default := by
    rw [rkParamGetInt_set h.live hset, strlwc_entry, strlwc_entry, h.int, Values.set_apply]
    simp only [entry_injective.eq_iff]
    split <;> rfl

theorem HasTexts.setInt {n : ℤ} (h : HasTexts p v) (hset : rkParamSetInt p l.entry n = some p') :
    HasTexts p' (v.set l (decimal n)) ∧ strtol (decimal n) = n := by
  obtain ⟨hval, hset⟩ := rkParamSetInt_eq_some_iff.mp hset
  have htexts := h.set hset
  rw [cstr_decimal] at htexts
  exact ⟨htexts, strtol_decimal ⟨by omega, by omega⟩⟩

theorem HasTexts.text_of_getString (h : HasTexts p v) {default : Str}
    (hget : getString p k.entry default = some s) : v.text k default = s := by
  rw [getString, h.string] at hget
  rw [Values.text, show (v k).getD (some default) = some s from hget]
  rfl

theorem HasTexts.apply_of_getText (h : HasTexts p v) (hget : getText p k.entry = some s) :
    v k = some (some s) := by
  rw [getText, h.string] at hget
  cases hk : v k with
  | none =>
    rw [hk] at hget
    cases hget
  | some o =>
    rw [hk] at hget
    exact congrArg some hget

theorem Values.text_of_apply (h : v k = some (some s)) (default : Str) : v.text k default = s := by
  rw [text, h]
  rfl

theorem HasTexts.int_of_getInt (h : HasTexts p v) {default n : ℤ}
    (hget : rkParamGetInt p k.entry default = some n) : v.int k default = n := by
  rw [h.int] at hget
  unfold Values.int
  rcases hk : v k with _ | _ | s
  · rw [hk] at hget
    exact Option.some.inj hget
  · rw [hk] at hget
    cases hget
  · rw [hk] at hget
    exact Option.some.inj hget

end HasTexts

/-! ## The attributes that follow -/

namespace Values

variable (v : Values) (id : Int32)

/-- A number of a stream. -/
def number (n : Number) : ℤ := v.int (.item id (.number n)) (-1)

/-- The codec of a stream. -/
def codec : Option Codec := codecOf (v.text (.item id .outputDataType) (lit "H.264"))

/-- Whether its rate is constant. -/
def cbr : Bool := isCbr (v.text (.item id .rcMode) (lit "CBR"))

/-- The rate at which frames leave the capture. -/
def captured : ℤ :=
  if v.number id .dstFrameRateDen = 1 then v.number id .dstFrameRateNum else v.int .fps 30

/-- **The attributes of the encoder channel**, with no bit rates that the mode has no use for. -/
def venc : VencChnAttr where
  enType := v.codec id
  enRcMode := (v.codec id).map fun c => ⟨c, v.cbr id⟩
  u32Gop := .ofInt (v.number id .gop)
  u32SrcFrameRateNum := .ofInt (v.captured id)
  u32SrcFrameRateDen := 1
  fr32DstFrameRateNum := .ofInt (v.number id .dstFrameRateNum)
  fr32DstFrameRateDen := .ofInt (v.number id .dstFrameRateDen)
  u32BitRate := .ofInt (if v.cbr id then v.number id .maxRate else v.number id .midRate)
  u32MaxBitRate := if v.cbr id then 0 else .ofInt (v.number id .maxRate)
  u32MinBitRate := if v.cbr id then 0 else .ofInt (v.number id .minRate)

/-- **The frame rate of the capture channel.** -/
def vi : FrameRate := ⟨v.int .fps 30, v.captured id⟩

/-- The mode of the pictures. -/
def gopMode : Option GopMode := gopModeOf (v.text (.detail id .gopMode) [])

/-- **The other attributes**; the range of the colours is apart. -/
def channel (d : PipeDefaults) (fullRange : Bool) : StreamChannel where
  u32Profile :=
    if v.codec id = some .avc then profileOf (v.text (.detail id .h264Profile) []) else 0
  enGopMode := v.gopMode id
  s32VirIdrLen := if v.gopMode id = some .smartP then v.int (.detail id .smartpViridrlen) 25 else 0
  u32MaxLtrCount := if v.gopMode id = some .smartP then 1 else 0
  u32PicWidth := .ofInt (v.int (.detail id .width) d.width)
  u32PicHeight := .ofInt (v.int (.detail id .height) d.height)
  u32VirWidth := .ofInt (v.int (.detail id .width) d.width)
  u32VirHeight := .ofInt (v.int (.detail id .height) d.height)
  svc := v.text (.detail id .smart) (lit "close") = lit "open"
  u32MinQp := minQpOf (v.text (.detail id .rcQuality) [])
  rotation := rotationOf (v.int .rotation 0)
  videoFullRangeFlag := fullRange
  u32Width := .ofInt (v.int (.detail id .width) d.width)
  u32Height := .ofInt (v.int (.detail id .height) d.height)

end Values

section Congr

variable {v v' : Values} {i : Int32}

theorem text_congr {k : Key} (h : v' k = v k) (default : Str) :
    v'.text k default = v.text k default := by rw [Values.text, h, ← Values.text]

theorem int_congr {k : Key} (h : v' k = v k) (default : ℤ) :
    v'.int k default = v.int k default := by rw [Values.int, h, ← Values.int]

theorem number_congr (h : ∀ k, v' (.item i k) = v (.item i k)) (n : Number) :
    v'.number i n = v.number i n := int_congr (h _) _

theorem codec_congr (h : v' (.item i .outputDataType) = v (.item i .outputDataType)) :
    v'.codec i = v.codec i := congrArg codecOf (text_congr h _)

theorem captured_congr (hnumber : ∀ n, v'.number i n = v.number i n) (hfps : v' .fps = v .fps) :
    v'.captured i = v.captured i := by
  simp only [Values.captured, hnumber, int_congr hfps]

theorem venc_congr (hnumber : ∀ n, v'.number i n = v.number i n)
    (hdata : v' (.item i .outputDataType) = v (.item i .outputDataType))
    (hmode : v' (.item i .rcMode) = v (.item i .rcMode)) (hfps : v' .fps = v .fps) :
    v'.venc i = v.venc i := by
  have hcbr : v'.cbr i = v.cbr i := congrArg isCbr (text_congr hmode _)
  simp only [Values.venc, hcbr, codec_congr hdata, hnumber, captured_congr hnumber hfps]

theorem vi_congr (hnumber : ∀ n, v'.number i n = v.number i n) (hfps : v' .fps = v .fps) :
    v'.vi i = v.vi i := by
  rw [Values.vi, captured_congr hnumber hfps, int_congr hfps, ← Values.vi]

theorem channel_congr (hitem : v' (.item i .outputDataType) = v (.item i .outputDataType))
    (hdetail : ∀ k, k ≠ .streamType → v' (.detail i k) = v (.detail i k))
    (hrotation : v' .rotation = v .rotation) (d : PipeDefaults) (fullRange : Bool) :
    v'.channel i d fullRange = v.channel i d fullRange := by
  have htext : ∀ k, k ≠ .streamType → ∀ default,
      v'.text (.detail i k) default = v.text (.detail i k) default :=
    fun k hk => text_congr (hdetail k hk)
  have hint : ∀ k, k ≠ .streamType → ∀ default,
      v'.int (.detail i k) default = v.int (.detail i k) default :=
    fun k hk => int_congr (hdetail k hk)
  have hgop : v'.gopMode i = v.gopMode i := congrArg gopModeOf (htext _ (by simp) _)
  simp [Values.channel, codec_congr hitem, hgop, htext, hint, int_congr hrotation]

theorem codec_set {k : Key} {t : Str} (hk : k ≠ .item i .outputDataType) :
    (v.set k t).codec i = v.codec i := codec_congr (by simp [hk.symm])

theorem gopMode_set {k : Key} {t : Str} (hk : k ≠ .detail i .gopMode) :
    (v.set k t).gopMode i = v.gopMode i :=
  congrArg gopModeOf (text_congr (by simp [hk.symm]) _)

end Congr

/-! ## Parameters that are set -/

/-- Only such parameters are set, and each is given a text. -/
def OnlySets (S : Key → Prop) (v v' : Values) : Prop :=
  ∀ k, v' k = v k ∨ S k ∧ ∃ s, v' k = some (some s)

section OnlySets

variable {S : Key → Prop} {v v₁ v' : Values} {k : Key} {s : Str}

theorem OnlySets.refl (S : Key → Prop) (v : Values) : OnlySets S v v := fun _ => .inl rfl

theorem OnlySets.trans (h : OnlySets S v v₁) (h' : OnlySets S v₁ v') : OnlySets S v v' := by
  intro k
  rcases h' k with hk | hk
  · rw [hk]
    exact h k
  · exact .inr hk

theorem OnlySets.set (hk : S k) : OnlySets S v (v.set k s) := by
  intro l
  rw [Values.set_apply]
  split
  next hl => exact .inr ⟨hl ▸ hk, s, rfl⟩
  next => exact .inl rfl

theorem OnlySets.imp {S' : Key → Prop} (h : OnlySets S v v') (hS : ∀ k, S k → S' k) :
    OnlySets S' v v' := fun k => (h k).imp_right (And.imp_left (hS k))

theorem OnlySets.apply (h : OnlySets S v v') (hk : ¬ S k) : v' k = v k :=
  (h k).resolve_right fun hset => hk hset.1

end OnlySets

/-- The rates of a stream, and its rate-control mode. -/
def Key.IsRate : Key → Prop
  | .item _ .rcMode | .item _ (.number _) => True
  | _ => False

/-- **The numbers of the streams are the same**, and so is every other parameter. -/
structure Alike (v v' : Values) : Prop where
  number : ∀ i n, v'.number i n = v.number i n
  others : ∀ k, (∀ i n, k ≠ .item i (.number n)) → v' k = v k

namespace Alike

variable {v v₁ v' : Values}

theorem refl (v : Values) : Alike v v := ⟨fun _ _ => rfl, fun _ _ => rfl⟩

theorem trans (h : Alike v v₁) (h' : Alike v₁ v') : Alike v v' :=
  ⟨fun i n => (h'.number i n).trans (h.number i n),
    fun k hk => (h'.others k hk).trans (h.others k hk)⟩

theorem venc (h : Alike v v') (i : Int32) : v'.venc i = v.venc i :=
  venc_congr (h.number i) (h.others _ (by simp)) (h.others _ (by simp)) (h.others _ (by simp))

theorem vi (h : Alike v v') (i : Int32) : v'.vi i = v.vi i :=
  vi_congr (h.number i) (h.others _ (by simp))

theorem channel (h : Alike v v') (i : Int32) (d : PipeDefaults) (fullRange : Bool) :
    v'.channel i d fullRange = v.channel i d fullRange :=
  channel_congr (h.others _ (by simp)) (fun k _ => h.others _ (by simp)) (h.others _ (by simp)) d
    fullRange

end Alike

/-! ## Setters of the encoder -/

section Used

variable {a w : VencChnAttr}

/-- The attributes, with the codec and the frame rates of others. -/
def VencChnAttr.timed (a w : VencChnAttr) : VencChnAttr :=
  { a with
    enType := w.enType
    u32SrcFrameRateNum := w.u32SrcFrameRateNum
    u32SrcFrameRateDen := w.u32SrcFrameRateDen
    fr32DstFrameRateNum := w.fr32DstFrameRateNum
    fr32DstFrameRateDen := w.fr32DstFrameRateDen }

theorem used_timed : (a.timed w).used = a.used.timed w := by
  have hmode : (a.timed w).enRcMode = a.enRcMode := rfl
  unfold VencChnAttr.used
  rw [hmode]
  split <;> rfl

theorem used_gop (gop : UInt32) :
    { a with u32Gop := gop }.used = { a.used with u32Gop := gop } := by
  unfold VencChnAttr.used
  dsimp only
  split <;> rfl

theorem enRcMode_used : a.used.enRcMode = a.enRcMode := by
  unfold VencChnAttr.used
  split <;> rfl

/-- The bit rates that are written, as far as they are used. -/
theorem used_withRates {codec : Codec} {cbr : Bool} (h : a.enRcMode = some ⟨codec, cbr⟩)
    (max mid min : ℤ) : (a.withRates cbr max mid min).used = { a.used with
      u32BitRate := .ofInt (if cbr then max else mid)
      u32MaxBitRate := if cbr then 0 else .ofInt max
      u32MinBitRate := if cbr then 0 else .ofInt min } := by
  cases cbr <;> simp [VencChnAttr.used, VencChnAttr.withRates, h]

end Used

/-- **The attributes of a stream are what the parameters say.** -/
structure Matches (e : Encoder) (i : Int32) (v : Values) : Prop where
  texts : HasTexts e.store v
  venc : (e.venc i).used = v.venc i
  vi : e.vi i = v.vi i

section Matches

variable {e e' : Encoder} {i j : Int32} {v v' : Values} {ret : ℤ}

/-- The stream is left alone. -/
theorem Matches.frame (h : Matches e i v) (htexts : HasTexts e'.store v')
    (hvenc : e'.venc i = e.venc i) (hvi : e'.vi i = e.vi i) (hvenc' : v'.venc i = v.venc i)
    (hvi' : v'.vi i = v.vi i) : Matches e' i v' :=
  ⟨htexts, by rw [hvenc, h.venc, hvenc'], by rw [hvi, h.vi, hvi']⟩

theorem HasTexts.codec (h : HasTexts e.store v) {dataType : Str}
    (hdata : tmpOutputDataType e.store j = some dataType) : v.codec j = codecOf dataType :=
  congrArg codecOf (h.text_of_getString (k := .item j .outputDataType) hdata)

theorem HasTexts.cbr (h : HasTexts e.store v) {rcMode : Str}
    (hmode : tmpRcMode e.store j = some rcMode) : v.cbr j = isCbr rcMode :=
  congrArg isCbr (h.text_of_getString (k := .item j .rcMode) hmode)

theorem HasTexts.number (h : HasTexts e.store v) {n : Number} {m : ℤ}
    (hget : getNumber e.store j n = some m) : v.number j n = m :=
  h.int_of_getInt (k := .item j (.number n)) hget

/-- A number of a stream is set. -/
def Values.setNumber (v : Values) (j : Int32) (n : Number) (m : ℤ) : Values :=
  v.set (.item j (.number n)) (decimal m)

theorem HasTexts.setNumber {p p' : Store} (h : HasTexts p v) {n : Number} {m : ℤ}
    (hset : setNumber p j n m = some p') :
    HasTexts p' (v.setNumber j n m) ∧ strtol (decimal m) = m :=
  h.setInt (l := .item j (.number n)) hset

theorem number_setNumber {n : Number} {m : ℤ} (hm : strtol (decimal m) = m) (l : Number) :
    (v.setNumber j n m).number i l = if i = j ∧ l = n then m else v.number i l := by
  rw [Values.number, Values.setNumber, Values.int_set, hm, ← Values.number]
  simp only [Key.item.injEq, Item.number.injEq]

theorem setNumber_of_ne {n : Number} {m : ℤ} {k : Key} (hk : k ≠ .item j (.number n)) :
    v.setNumber j n m k = v k := by
  rw [Values.setNumber, Values.set_apply, if_neg hk]

@[simp] theorem codec_setNumber {n : Number} {m : ℤ} : (v.setNumber j n m).codec i = v.codec i :=
  codec_congr (setNumber_of_ne (by simp))

@[simp] theorem cbr_setNumber {n : Number} {m : ℤ} : (v.setNumber j n m).cbr i = v.cbr i :=
  congrArg isCbr (text_congr (setNumber_of_ne (by simp)) _)

@[simp] theorem fps_setNumber {n : Number} {m : ℤ} (default : ℤ) :
    (v.setNumber j n m).int .fps default = v.int .fps default :=
  int_congr (setNumber_of_ne (by simp)) _

theorem venc_setNumber_of_ne (hij : i ≠ j) {n : Number} {m : ℤ} :
    (v.setNumber j n m).venc i = v.venc i :=
  venc_congr (number_congr fun _ => setNumber_of_ne (by simp [hij])) (setNumber_of_ne (by simp))
    (setNumber_of_ne (by simp)) (setNumber_of_ne (by simp))

theorem vi_setNumber_of_ne (hij : i ≠ j) {n : Number} {m : ℤ} :
    (v.setNumber j n m).vi i = v.vi i :=
  vi_congr (number_congr fun _ => setNumber_of_ne (by simp [hij])) (setNumber_of_ne (by simp))

theorem onlySets_setNumber {n : Number} {m : ℤ} : OnlySets Key.IsRate v (v.setNumber j n m) :=
  .set trivial

theorem rkVideoSetGop_matches (h : Matches e i v) {value : ℤ}
    (hr : rkVideoSetGop e j value = some (ret, e')) :
    ∃ v', Matches e' i v' ∧ OnlySets Key.IsRate v v' := by
  obtain ⟨dataType, -, hr⟩ := Option.bind_eq_some_iff.mp hr
  obtain ⟨rcMode, -, hr⟩ := Option.bind_eq_some_iff.mp hr
  cases hcodec : codecOf dataType with
  | none =>
    rw [hcodec] at hr
    cases hr
    exact ⟨v, h, .refl _ v⟩
  | some codec =>
    rw [hcodec] at hr
    obtain ⟨p, hp, hr⟩ := Option.bind_eq_some_iff.mp hr
    cases hr
    obtain ⟨htexts, hval⟩ := h.texts.setNumber hp
    refine ⟨v.setNumber j .gop value, ?_, onlySets_setNumber⟩
    by_cases hij : i = j
    · subst hij
      refine ⟨htexts, ?_, ?_⟩
      · dsimp only
        rw [Function.update_self, used_gop, h.venc]
        simp [Values.venc, Values.captured, number_setNumber hval]
      · rw [h.vi]
        simp [Values.vi, Values.captured, number_setNumber hval]
    · exact h.frame htexts (Function.update_of_ne hij ..) rfl (venc_setNumber_of_ne hij)
        (vi_setNumber_of_ne hij)

theorem rkVideoSetMaxRate_matches (h : Matches e i v) {value : ℤ}
    (hr : rkVideoSetMaxRate e j value = some (ret, e')) :
    ∃ v', Matches e' i v' ∧ OnlySets Key.IsRate v v' := by
  obtain ⟨dataType, hdata, hr⟩ := Option.bind_eq_some_iff.mp hr
  obtain ⟨rcMode, hmode, hr⟩ := Option.bind_eq_some_iff.mp hr
  cases hcodec : codecOf dataType with
  | none =>
    rw [hcodec] at hr
    cases hr
    exact ⟨v, h, .refl _ v⟩
  | some codec =>
    rw [hcodec] at hr
    obtain ⟨p, hp, hr⟩ := Option.bind_eq_some_iff.mp hr
    obtain ⟨p₁, hp₁, hr⟩ := Option.bind_eq_some_iff.mp hr
    obtain ⟨p₂, hp₂, hr⟩ := Option.bind_eq_some_iff.mp hr
    cases hr
    obtain ⟨htexts, hmax⟩ := h.texts.setNumber hp
    obtain ⟨htexts, hmid⟩ := htexts.setNumber hp₁
    obtain ⟨htexts, hmin⟩ := htexts.setNumber hp₂
    have hsets : OnlySets Key.IsRate v (((v.setNumber j .maxRate value).setNumber j .midRate
        (value.tdiv 3 * 2)).setNumber j .minRate (value.tdiv 3)) :=
      (onlySets_setNumber.trans onlySets_setNumber).trans onlySets_setNumber
    refine ⟨_, ?_, hsets⟩
    by_cases hij : i = j
    · subst hij
      -- the mode in the register is the one by which the view is chosen
      have hmode' : (e.venc i).enRcMode = some ⟨codec, isCbr rcMode⟩ := by
        rw [← enRcMode_used, h.venc, Values.venc, h.texts.codec hdata, h.texts.cbr hmode, hcodec]
        rfl
      refine ⟨htexts, ?_, ?_⟩
      · dsimp only
        rw [Function.update_self, used_withRates hmode', h.venc, ← h.texts.cbr hmode]
        cases hcbr : v.cbr i <;>
          simp [Values.venc, Values.captured, number_setNumber hmax, number_setNumber hmid,
            number_setNumber hmin, hcbr]
      · rw [h.vi]
        simp [Values.vi, Values.captured, number_setNumber hmax, number_setNumber hmid,
          number_setNumber hmin]
    · refine h.frame htexts (Function.update_of_ne hij ..) rfl ?_ ?_
      · rw [venc_setNumber_of_ne hij, venc_setNumber_of_ne hij, venc_setNumber_of_ne hij]
      · rw [vi_setNumber_of_ne hij, vi_setNumber_of_ne hij, vi_setNumber_of_ne hij]

/-- The frame rate of a stream is set. -/
def Values.setFrameRate (v : Values) (j : Int32) (num den : ℤ) : Values :=
  (v.setNumber j .dstFrameRateDen den).setNumber j .dstFrameRateNum num

/-- **What `rk_video_set_frame_rate` writes**, if there is a codec. -/
theorem rkVideoSetFrameRate_spec (h : HasTexts e.store v) {value : Str}
    (hr : rkVideoSetFrameRate e j value = some (ret, e')) :
    (v.codec j = none ∧ e' = e) ∨ ∃ num den, scanFrameRate (cstr value) = some (num, den) ∧
      strtol (decimal num) = num ∧ strtol (decimal den) = den ∧
      HasTexts e'.store (v.setFrameRate j num den) ∧
      e'.venc = Function.update e.venc j ((e.venc j).timed ((v.setFrameRate j num den).venc j)) ∧
      e'.vi = Function.update e.vi j ((v.setFrameRate j num den).vi j) := by
  obtain ⟨⟨num, den⟩, hscan, hr⟩ := Option.bind_eq_some_iff.mp hr
  obtain ⟨fps, hfps, hr⟩ := Option.bind_eq_some_iff.mp hr
  obtain ⟨dataType, hdata, hr⟩ := Option.bind_eq_some_iff.mp hr
  obtain ⟨rcMode, -, hr⟩ := Option.bind_eq_some_iff.mp hr
  have hcodec' := h.codec hdata
  cases hcodec : codecOf dataType with
  | none =>
    rw [hcodec] at hr hcodec'
    cases hr
    exact .inl ⟨hcodec', rfl⟩
  | some codec =>
    rw [hcodec] at hr hcodec'
    obtain ⟨p, hp, hr⟩ := Option.bind_eq_some_iff.mp hr
    obtain ⟨p₁, hp₁, hr⟩ := Option.bind_eq_some_iff.mp hr
    cases hr
    obtain ⟨htexts, hden⟩ := h.setNumber hp
    obtain ⟨htexts, hnum⟩ := htexts.setNumber hp₁
    have hcaptured : (v.setFrameRate j num den).captured j = if den ≠ 1 then fps else num := by
      rw [ite_not, Values.captured]
      simp [Values.setFrameRate, number_setNumber hnum, number_setNumber hden,
        h.int_of_getInt (k := .fps) hfps]
    have hone : (if den ≠ 1 then 1 else den) = 1 := by
      split <;> omega
    refine .inr ⟨num, den, hscan, hnum, hden, htexts, ?_, ?_⟩
    · refine congrArg (Function.update e.venc j) ?_
      rw [VencChnAttr.timed, Values.venc, hcaptured, hone]
      simp [Values.setFrameRate, number_setNumber hnum, number_setNumber hden, hcodec']
    · refine congrArg (Function.update e.vi j) ?_
      rw [Values.vi, hcaptured]
      simp [Values.setFrameRate, h.int_of_getInt (k := .fps) hfps]

theorem onlySets_setFrameRate (num den : ℤ) :
    OnlySets Key.IsRate v (v.setFrameRate j num den) :=
  onlySets_setNumber.trans onlySets_setNumber

/-- A frame rate and a codec are written over the ones that follow from others. -/
theorem timed_setFrameRate {num den : ℤ} (hnum : strtol (decimal num) = num)
    (hden : strtol (decimal den) = den) :
    (v.venc j).timed ((v.setFrameRate j num den).venc j) = (v.setFrameRate j num den).venc j := by
  simp [VencChnAttr.timed, Values.venc, Values.setFrameRate, number_setNumber hnum,
    number_setNumber hden]

theorem rkVideoSetFrameRate_matches (h : Matches e i v) {value : Str}
    (hr : rkVideoSetFrameRate e j value = some (ret, e')) :
    ∃ v', Matches e' i v' ∧ OnlySets Key.IsRate v v' := by
  obtain ⟨-, rfl⟩ | ⟨num, den, -, hnum, hden, htexts, hvenc, hvi⟩ :=
    rkVideoSetFrameRate_spec h.texts hr
  · exact ⟨v, h, .refl _ v⟩
  · refine ⟨v.setFrameRate j num den, ?_, onlySets_setFrameRate num den⟩
    by_cases hij : i = j
    · subst hij
      refine ⟨htexts, ?_, by rw [hvi, Function.update_self]⟩
      rw [hvenc, Function.update_self, used_timed, h.venc, timed_setFrameRate hnum hden]
    · refine h.frame htexts ?_ ?_ ?_ ?_
      · rw [hvenc, Function.update_of_ne hij]
      · rw [hvi, Function.update_of_ne hij]
      · rw [Values.setFrameRate, venc_setNumber_of_ne hij, venc_setNumber_of_ne hij]
      · rw [Values.setFrameRate, vi_setNumber_of_ne hij, vi_setNumber_of_ne hij]

theorem inRange_number (v : Values) (j : Int32) (n : Number) : Wire.InRange (v.number j n) := by
  unfold Values.number Values.int
  cases v (.item j (.number n)) with
  | none => exact ⟨by decide, by decide⟩
  | some s => exact inRange_strtol _

/-- **What `rk_video_reset_frame_rate` writes**: the numbers stay what they are. -/
theorem rkVideoResetFrameRate_spec (h : HasTexts e.store v) (hcodec : v.codec j ≠ none)
    (hr : rkVideoResetFrameRate e j = some (ret, e')) :
    ∃ v', Alike v v' ∧ OnlySets Key.IsRate v v' ∧ HasTexts e'.store v' ∧
      e'.venc = Function.update e.venc j ((e.venc j).timed (v.venc j)) ∧
      e'.vi = Function.update e.vi j (v.vi j) := by
  obtain ⟨value, hget, hr⟩ := Option.bind_eq_some_iff.mp hr
  obtain ⟨⟨ret, e₁⟩, hset, hr⟩ := Option.bind_eq_some_iff.mp hr
  cases hr
  obtain ⟨den, hden, hget⟩ := Option.bind_eq_some_iff.mp hget
  obtain ⟨num, hnum, hget⟩ := Option.bind_eq_some_iff.mp hget
  obtain rfl := h.number hden
  obtain rfl := h.number hnum
  -- what is read again is what was written as a text
  have hvalue : scanFrameRate (cstr value) =
      some (v.number j .dstFrameRateNum, v.number j .dstFrameRateDen) := by
    split at hget
    · rw [← Option.some.inj hget]
      exact scanFrameRate_text (inRange_number v j _) (inRange_number v j _)
    · cases hget
  obtain ⟨hnone, -⟩ | ⟨num, den, hscan, hnum, hden, htexts, hvenc, hvi⟩ :=
    rkVideoSetFrameRate_spec h hset
  · exact absurd hnone hcodec
  · rw [hvalue] at hscan
    obtain ⟨rfl, rfl⟩ := Prod.mk.inj (Option.some.inj hscan)
    have halike : Alike v (v.setFrameRate j (v.number j .dstFrameRateNum)
        (v.number j .dstFrameRateDen)) := by
      refine ⟨fun i n => ?_, fun k hk => ?_⟩
      · rw [Values.setFrameRate, number_setNumber hnum, number_setNumber hden]
        split
        next hn => rw [hn.1, hn.2]
        next =>
          split
          next hn => rw [hn.1, hn.2]
          next => rfl
      · rw [Values.setFrameRate, setNumber_of_ne (hk _ _), setNumber_of_ne (hk _ _)]
    refine ⟨_, halike, onlySets_setFrameRate _ _, htexts, ?_, ?_⟩
    · rw [hvenc, halike.venc]
    · rw [hvi, halike.vi]

/-- **A rate control that is written anew**, once its frame rate is written too. -/
theorem used_written {a : VencChnAttr} {codec : Codec} (hcodec : v.codec j = some codec)
    {mid min : ℤ} (hvbr : v.cbr j = false →
      mid = v.number j .midRate ∧ min = v.number j .minRate) :
    ({ a.withRates (v.cbr j) (v.number j .maxRate) mid min with
      enRcMode := some ⟨codec, v.cbr j⟩
      u32Gop := .ofInt (v.number j .gop) }.timed (v.venc j)).used = v.venc j := by
  rw [used_timed]
  cases hcbr : v.cbr j with
  | true =>
    simp [VencChnAttr.used, VencChnAttr.withRates, VencChnAttr.timed, Values.venc, hcodec, hcbr]
  | false =>
    obtain ⟨rfl, rfl⟩ := hvbr hcbr
    simp [VencChnAttr.used, VencChnAttr.withRates, VencChnAttr.timed, Values.venc, hcodec, hcbr]

/-- A rate that is read only if the mode is not `CBR`. -/
theorem HasTexts.variable (h : HasTexts e.store v) {cbr : Bool} {n : Number} {m : ℤ}
    (hget : variableRate e.store j cbr n = some m) (hvbr : cbr = false) : m = v.number j n := by
  subst hvbr
  exact (h.number hget).symm

theorem rkVideoSetRcMode_matches (h : Matches e i v) {value : Str}
    (hr : rkVideoSetRcMode e j value = some (ret, e')) :
    ∃ v', Matches e' i v' ∧ OnlySets Key.IsRate v v' := by
  obtain ⟨dataType, hdata, hr⟩ := Option.bind_eq_some_iff.mp hr
  cases hcodec : codecOf dataType with
  | none =>
    rw [hcodec] at hr
    cases hr
    exact ⟨v, h, .refl _ v⟩
  | some codec =>
    rw [hcodec] at hr
    obtain ⟨gop, hgop, hr⟩ := Option.bind_eq_some_iff.mp hr
    obtain ⟨max, hmax, hr⟩ := Option.bind_eq_some_iff.mp hr
    obtain ⟨mid, hmid, hr⟩ := Option.bind_eq_some_iff.mp hr
    obtain ⟨min, hmin, hr⟩ := Option.bind_eq_some_iff.mp hr
    obtain ⟨p, hp, hr⟩ := Option.bind_eq_some_iff.mp hr
    obtain ⟨⟨ret, e₁⟩, hreset, hr⟩ := Option.bind_eq_some_iff.mp hr
    cases hr
    -- the mode is stored, and then the frame rate is written once more
    have htexts : HasTexts p (v.set (.item j .rcMode) (cstr value)) :=
      h.texts.set (l := .item j .rcMode) hp
    have hnumber : ∀ n, (v.set (.item j .rcMode) (cstr value)).number j n = v.number j n :=
      fun n => int_congr (by simp) _
    have hcodec' : (v.set (.item j .rcMode) (cstr value)).codec j = some codec :=
      (codec_congr (by simp)).trans ((h.texts.codec hdata).trans hcodec)
    have hcbr : (v.set (.item j .rcMode) (cstr value)).cbr j = isCbr (cstr value) :=
      congrArg isCbr (by simp)
    have hset : OnlySets Key.IsRate v (v.set (.item j .rcMode) (cstr value)) :=
      .set (by rw [Key.IsRate]; trivial)
    obtain ⟨v', halike, hsets, htexts', hvenc, hvi⟩ :=
      rkVideoResetFrameRate_spec htexts (by simp [hcodec']) hreset
    refine ⟨v', ?_, hset.trans hsets⟩
    by_cases hij : i = j
    · subst hij
      obtain rfl := h.texts.number hgop
      obtain rfl := h.texts.number hmax
      refine ⟨htexts', ?_, by rw [hvi, Function.update_self, halike.vi]⟩
      dsimp only at hvenc
      rw [hvenc, Function.update_self, Function.update_self, halike.venc, ← hnumber, ← hnumber,
        ← hcbr]
      refine used_written hcodec' fun hvbr => ?_
      rw [hcbr] at hvbr
      rw [hnumber, hnumber]
      exact ⟨h.texts.variable hmid hvbr, h.texts.variable hmin hvbr⟩
    · refine h.frame htexts' ?_ ?_ ?_ ?_
      · rw [hvenc, Function.update_of_ne hij]
        exact Function.update_of_ne hij ..
      · rw [hvi, Function.update_of_ne hij]
      · rw [halike.venc]
        exact venc_congr (number_congr fun _ => by simp [hij]) (by simp) (by simp [hij]) (by simp)
      · rw [halike.vi]
        exact vi_congr (number_congr fun _ => by simp [hij]) (by simp)

/-- **A setter of the encoder** sets some rates, and the attributes go with them. -/
theorem Matches.call (h : Matches e i v) {c : EncoderCall} (hr : e.call c = some e') :
    ∃ v', Matches e' i v' ∧ OnlySets Key.IsRate v v' := by
  cases c with
  | setGop j value =>
    obtain ⟨⟨_, e₁⟩, hset, rfl⟩ := Option.map_eq_some_iff.mp hr
    exact rkVideoSetGop_matches h hset
  | setMaxRate j value =>
    obtain ⟨⟨_, e₁⟩, hset, rfl⟩ := Option.map_eq_some_iff.mp hr
    exact rkVideoSetMaxRate_matches h hset
  | setRcMode j value =>
    obtain ⟨⟨_, e₁⟩, hset, rfl⟩ := Option.map_eq_some_iff.mp hr
    exact rkVideoSetRcMode_matches h hset
  | setFrameRate j value =>
    obtain ⟨⟨_, e₁⟩, hset, rfl⟩ := Option.map_eq_some_iff.mp hr
    exact rkVideoSetFrameRate_matches h hset

end Matches

/-! ## A restart -/

section Restart

variable {s s' : Streams} {i j : Int32} {v : Values} {ret : ℤ}

/-- A parameter that is there is read, whatever the default is. -/
theorem HasTexts.string_of_apply {p : Store} (h : HasTexts p v) {k : Key} {t : Str}
    (hk : v k = some (some t)) (default : Option Str) :
    rkParamGetString p k.entry default = some (some t) := by
  rw [h.string, hk]
  rfl

/-- The stream has a codec, and a rate-control mode. -/
structure Values.Named (v : Values) (j : Int32) : Prop where
  dataType : ∃ t, v (.item j .outputDataType) = some (some t) ∧ codecOf t ≠ none
  rcMode : ∃ t, v (.item j .rcMode) = some (some t)

theorem HasTexts.apply_of_getString {p : Store} (h : HasTexts p v) {k : Key} {t : Str}
    (hget : rkParamGetString p k.entry none = some (some t)) : v k = some (some t) :=
  h.apply_of_getText (congrArg Option.join hget)

theorem HasTexts.u32Profile (h : HasTexts s.encoder.store v) {codec : Codec}
    (hcodec : v.codec j = some codec) {h264Profile : Option Str} {u32Profile : UInt32}
    (hget : rkParamGetString s.encoder.store (detailEntry j .h264Profile) none = some h264Profile)
    (hu32 : u32ProfileOf codec h264Profile = some u32Profile) :
    u32Profile = if v.codec j = some .avc then profileOf (v.text (.detail j .h264Profile) [])
      else 0 := by
  rw [hcodec]
  unfold u32ProfileOf at hu32
  by_cases havc : codec = .avc
  · rw [if_pos havc] at hu32
    obtain ⟨t, rfl, rfl⟩ := Option.map_eq_some_iff.mp hu32
    rw [if_pos (congrArg some havc),
      Values.text_of_apply (h.apply_of_getString (k := .detail j .h264Profile) hget)]
  · rw [if_neg havc] at hu32
    rw [if_neg fun h => havc (Option.some.inj h), Option.some.inj hu32]

theorem HasTexts.virIdrLen (h : HasTexts s.encoder.store v) {gopMode : Option GopMode} {n : ℤ}
    (hget : virIdrLenOf s.encoder.store j gopMode = some n) :
    (if gopMode = some .smartP then n else 0) =
      if gopMode = some .smartP then v.int (.detail j .smartpViridrlen) 25 else 0 := by
  unfold virIdrLenOf at hget
  split
  next hsmart =>
    rw [if_pos hsmart] at hget
    exact (h.int_of_getInt (k := .detail j .smartpViridrlen) hget).symm
  next => rfl

/-- **What a pipe is made of the parameters**, and that the other one is left alone. -/
theorem pipeInit_spec {d : PipeDefaults} (h : HasTexts s.encoder.store v)
    (hr : pipeInit d j s = some (ret, s')) :
    ∃ v', Alike v v' ∧ HasTexts s'.encoder.store v' ∧ s'.scenario = s.scenario ∧
      (∀ i ≠ j, s'.used i = s.used i) ∧
      (v.Named j → ∃ t, v (.grayScale s.scenario) = some (some t) ∧
        s'.used j = (v.venc j, v.vi j, v.channel j d (fullRangeOf t))) := by
  obtain ⟨width, hwidth, hr⟩ := Option.bind_eq_some_iff.mp hr
  obtain ⟨height, hheight, hr⟩ := Option.bind_eq_some_iff.mp hr
  obtain ⟨rotation, hrotation, hr⟩ := Option.bind_eq_some_iff.mp hr
  obtain ⟨dataType, hdata, hr⟩ := Option.bind_eq_some_iff.mp hr
  obtain ⟨rcMode, hmode, hr⟩ := Option.bind_eq_some_iff.mp hr
  obtain ⟨h264Profile, hprofile, hr⟩ := Option.bind_eq_some_iff.mp hr
  -- what is there is read
  have hnamed : v.Named j → ∃ t, dataType = some t ∧ codecOf t ≠ none ∧ v.codec j = codecOf t ∧
      ∃ m, rcMode = some m ∧ v.cbr j = isCbr m := by
    rintro ⟨⟨t, ht, hcodec⟩, ⟨m, hm⟩⟩
    refine ⟨t, ?_, hcodec, congrArg codecOf (Values.text_of_apply ht _), m, ?_,
      congrArg isCbr (Values.text_of_apply hm _)⟩
    · exact (Option.some.inj (hdata.symm.trans (h.string_of_apply ht none)))
    · exact (Option.some.inj (hmode.symm.trans (h.string_of_apply hm none)))
  -- a pipe that is not made
  have hcaptured : ∀ i ≠ j, ({ s with
      encoder := { s.encoder with vi := Function.update s.encoder.vi j ⟨0, 0⟩ }
      channel := Function.update s.channel j { s.channel j with
        u32Width := .ofInt width
        u32Height := .ofInt height } } : Streams).used i = s.used i := by
    intro i hij
    simp [Streams.used, Function.update_of_ne hij]
  rcases dataType with _ | dataType
  · cases hr
    exact ⟨v, .refl v, h, rfl, hcaptured, fun hn => by simpa using hnamed hn⟩
  rcases rcMode with _ | rcMode
  · cases hr
    exact ⟨v, .refl v, h, rfl, hcaptured, fun hn => by simpa using hnamed hn⟩
  cases hcodec : codecOf dataType with
  | none =>
    simp only [hcodec] at hr
    cases hr
    exact ⟨v, .refl v, h, rfl, hcaptured, fun hn => by simpa [hcodec] using hnamed hn⟩
  | some codec =>
    simp only [hcodec] at hr
    obtain ⟨u32Profile, hu32, hr⟩ := Option.bind_eq_some_iff.mp hr
    obtain ⟨gop, hgop, hr⟩ := Option.bind_eq_some_iff.mp hr
    obtain ⟨max, hmax, hr⟩ := Option.bind_eq_some_iff.mp hr
    obtain ⟨mid, hmid, hr⟩ := Option.bind_eq_some_iff.mp hr
    obtain ⟨min, hmin, hr⟩ := Option.bind_eq_some_iff.mp hr
    obtain ⟨gopMode, hgopMode, hr⟩ := Option.bind_eq_some_iff.mp hr
    obtain ⟨virIdrLen, hvirIdrLen, hr⟩ := Option.bind_eq_some_iff.mp hr
    obtain ⟨⟨_, e⟩, hreset, hr⟩ := Option.bind_eq_some_iff.mp hr
    obtain ⟨smart, hsmart, hr⟩ := Option.bind_eq_some_iff.mp hr
    obtain ⟨rcQuality, hrcQuality, hr⟩ := Option.bind_eq_some_iff.mp hr
    obtain ⟨gray, hgray, hr⟩ := Option.bind_eq_some_iff.mp hr
    cases hr
    have hdata' : v (.item j .outputDataType) = some (some dataType) := h.apply_of_getString hdata
    have hcodec' : v.codec j = some codec :=
      (congrArg codecOf (Values.text_of_apply hdata' _)).trans hcodec
    have hcbr : v.cbr j = isCbr rcMode := congrArg isCbr
      (Values.text_of_apply (h.apply_of_getString (k := .item j .rcMode) hmode) _)
    obtain ⟨v', halike, -, htexts, hvenc, hvi⟩ :=
      rkVideoResetFrameRate_spec (by exact h) (by simp [hcodec']) hreset
    dsimp only at hvenc hvi
    refine ⟨v', halike, htexts, rfl, fun i hij => ?_, fun _ => ?_⟩
    · simp [Streams.used, hvenc, hvi, Function.update_of_ne hij]
    · refine ⟨gray, h.apply_of_getText (k := .grayScale s.scenario) hgray, Prod.ext ?_
        (Prod.ext ?_ ?_)⟩
      · obtain rfl := h.number hgop
        obtain rfl := h.number hmax
        simp only [Streams.used, hvenc, Function.update_self]
        rw [← hcbr]
        refine used_written hcodec' fun hvbr => ?_
        rw [hcbr] at hvbr
        exact ⟨h.variable hmid hvbr, h.variable hmin hvbr⟩
      · simp only [Streams.used, hvi, Function.update_self]
      · obtain rfl := h.int_of_getInt (k := .detail j .width) hwidth
        obtain rfl := h.int_of_getInt (k := .detail j .height) hheight
        obtain rfl := h.int_of_getInt (k := .rotation) hrotation
        obtain rfl :=
          Values.text_of_apply (h.apply_of_getText (k := .detail j .gopMode) hgopMode) []
        obtain rfl :=
          Values.text_of_apply (h.apply_of_getText (k := .detail j .rcQuality) hrcQuality) []
        obtain rfl := h.text_of_getString (k := .detail j .smart) hsmart
        simp only [Streams.used, Function.update_self, StreamChannel.used, Values.channel]
        rw [h.u32Profile hcodec' hprofile hu32, h.virIdrLen hvirIdrLen]
        rfl

/-- The channel of a stream. -/
def pipeId (second : Bool) : Int32 := if second then 1 else 0

/-- The defaults of its pipe. -/
def pipeDefaults (second : Bool) : PipeDefaults := if second then pipe1Defaults else pipe0Defaults

/-- The stream is enabled, and has a codec and a mode. -/
structure Values.Ready (v : Values) (second : Bool) : Prop extends v.Named (pipeId second) where
  enabled : v.int (.enable second) 1 ≠ 0

/-- The attributes that a stream makes use of, as the parameters say. -/
def Values.used (v : Values) (second : Bool) (fullRange : Bool) :
    VencChnAttr × FrameRate × StreamChannel :=
  (v.venc (pipeId second), v.vi (pipeId second),
    v.channel (pipeId second) (pipeDefaults second) fullRange)

/-- **A stream is settled**: its attributes are the ones that the parameters say. -/
structure Settled (s : Streams) (second : Bool) (v : Values) (fullRange : Bool) : Prop where
  texts : HasTexts s.encoder.store v
  ready : v.Ready second
  used : s.used (pipeId second) = v.used second fullRange

theorem Alike.ready {v' : Values} {second : Bool} (h : Alike v v') (hready : v.Ready second) :
    v'.Ready second where
  dataType := by
    rw [h.others _ (by simp)]
    exact hready.dataType
  rcMode := by
    rw [h.others _ (by simp)]
    exact hready.rcMode
  enabled := by
    rw [int_congr (h.others _ (by simp))]
    exact hready.enabled

theorem Alike.used {v' : Values} (h : Alike v v') (second fullRange : Bool) :
    v'.used second fullRange = v.used second fullRange := by
  rw [Values.used, h.venc, h.vi, h.channel, ← Values.used]

theorem pipeInitIf_spec {enable : ℤ} {d : PipeDefaults} (h : HasTexts s.encoder.store v)
    (hr : pipeInitIf enable d j s = some s') :
    ∃ v', Alike v v' ∧ HasTexts s'.encoder.store v' ∧ s'.scenario = s.scenario ∧
      (∀ i ≠ j, s'.used i = s.used i) ∧
      (enable ≠ 0 → v.Named j → ∃ t, v (.grayScale s.scenario) = some (some t) ∧
        s'.used j = (v.venc j, v.vi j, v.channel j d (fullRangeOf t))) := by
  unfold pipeInitIf at hr
  by_cases henable : enable ≠ 0
  · rw [if_pos henable] at hr
    obtain ⟨⟨ret, s₁⟩, hinit, rfl⟩ := Option.map_eq_some_iff.mp hr
    obtain ⟨v', halike, htexts, hscenario, hothers, hused⟩ := pipeInit_spec h hinit
    exact ⟨v', halike, htexts, hscenario, hothers, fun _ => hused⟩
  · rw [if_neg henable] at hr
    cases hr
    exact ⟨v, .refl v, h, rfl, fun _ _ => rfl, fun he => absurd he henable⟩

/-- **A stream is settled by a restart**, and the range of the colours is the one that its parameter
names. -/
theorem rkVideoRestart_spec {second : Bool} (h : HasTexts s.encoder.store v)
    (hready : v.Ready second) (hr : rkVideoRestart s = some s') :
    ∃ v' t, Alike v v' ∧ v (.grayScale s.scenario) = some (some t) ∧
      Settled s' second v' (fullRangeOf t) := by
  obtain ⟨enableVenc0, henable0, hr⟩ := Option.bind_eq_some_iff.mp hr
  obtain ⟨enableVenc1, henable1, hr⟩ := Option.bind_eq_some_iff.mp hr
  obtain ⟨s₁, hpipe0, hpipe1⟩ := Option.bind_eq_some_iff.mp hr
  obtain ⟨v₁, halike₁, htexts₁, hscenario, hothers, hused⟩ := pipeInitIf_spec h hpipe0
  obtain ⟨v₂, halike₂, htexts₂, -, hothers', hused'⟩ := pipeInitIf_spec htexts₁ hpipe1
  have halike := halike₁.trans halike₂
  cases second with
  | false =>
    have henable : enableVenc0 ≠ 0 := by
      rw [← h.int_of_getInt (k := .enable false) henable0]
      exact hready.enabled
    obtain ⟨t, ht, hused⟩ := hused henable hready.toNamed
    refine ⟨v₂, t, halike, ht, htexts₂, halike.ready hready, ?_⟩
    rw [halike.used]
    exact (hothers' _ (by decide)).trans hused
  | true =>
    have henable : enableVenc1 ≠ 0 := by
      rw [← h.int_of_getInt (k := .enable true) henable1]
      exact hready.enabled
    obtain ⟨t, ht, hused⟩ := hused' henable (halike₁.ready hready).toNamed
    refine ⟨v₂, t, halike, ?_, htexts₂, halike.ready hready, ?_⟩
    · rw [← halike₁.others _ (by simp), ← hscenario]
      exact ht
    · rw [halike₂.used]
      exact hused

end Restart

/-! ## Setters -/

/-- The parameters of the pictures of a stream, and others that the rates do not depend on. -/
def Key.IsDetail : Key → Prop
  | .detail _ _ | .rotation | .grayScale _ => True
  | _ => False

section Setters

variable {s s' : Streams} {second fullRange : Bool} {i j : Int32} {v v' : Values} {ret : ℤ}

theorem Values.Ready.of_sets {S : Key → Prop} (h : v.Ready second) (hsets : OnlySets S v v')
    (hdata : ∀ j, ¬ S (.item j .outputDataType)) (henable : ¬ S (.enable second)) :
    v'.Ready second where
  dataType := by
    rw [hsets.apply (hdata _)]
    exact h.dataType
  rcMode := by
    rcases hsets (.item (pipeId second) .rcMode) with hmode | ⟨-, t, hmode⟩
    · rw [hmode]
      exact h.rcMode
    · exact ⟨t, hmode⟩
  enabled := by
    rw [int_congr (hsets.apply henable)]
    exact h.enabled

/-- **A setter of the encoder** keeps a stream settled. -/
theorem Settled.encoder (h : Settled s second v fullRange) {c : EncoderCall} {e : Encoder}
    (hr : s.encoder.call c = some e) :
    ∃ v', Settled { s with encoder := e } second v' fullRange := by
  obtain ⟨hvenc, hrest⟩ := Prod.mk.inj h.used
  obtain ⟨hvi, hchannel⟩ := Prod.mk.inj hrest
  have hmatches : Matches s.encoder (pipeId second) v := ⟨h.texts, hvenc, hvi⟩
  obtain ⟨v', hmatches', hsets⟩ := hmatches.call hr
  have hdata : ∀ j, ¬ Key.IsRate (.item j .outputDataType) := fun _ => id
  refine ⟨v', hmatches'.texts, h.ready.of_sets hsets hdata id, ?_⟩
  refine Prod.ext hmatches'.venc (Prod.ext hmatches'.vi (hchannel.trans ?_))
  exact (channel_congr (hsets.apply (hdata _)) (fun _ _ => hsets.apply id) (hsets.apply id)
    _ _).symm

/-- **A setter of the pictures** keeps a stream settled, if it does for the attributes of the
channel. -/
theorem Settled.detail (h : Settled s second v fullRange) (htexts : HasTexts s'.encoder.store v')
    (hsets : OnlySets Key.IsDetail v v') (hvenc : s'.encoder.venc = s.encoder.venc)
    (hvi : s'.encoder.vi = s.encoder.vi)
    (hchannel : (s.channel (pipeId second)).used =
        v.channel (pipeId second) (pipeDefaults second) fullRange →
      (s'.channel (pipeId second)).used =
        v'.channel (pipeId second) (pipeDefaults second) fullRange) :
    Settled s' second v' fullRange where
  texts := htexts
  ready := h.ready.of_sets hsets (fun _ => id) id
  used := by
    obtain ⟨hvenc', hrest⟩ := Prod.mk.inj h.used
    obtain ⟨hvi', hchannel'⟩ := Prod.mk.inj hrest
    have hitem : ∀ k, v' (.item (pipeId second) k) = v (.item (pipeId second) k) :=
      fun _ => hsets.apply id
    have hfps : v' .fps = v .fps := hsets.apply id
    refine Prod.ext ?_ (Prod.ext ?_ (hchannel hchannel'))
    · rw [Values.used, venc_congr (number_congr hitem) (hitem _) (hitem _) hfps, ← hvenc']
      simp only [Streams.used, hvenc]
    · rw [Values.used, vi_congr (number_congr hitem) hfps, ← hvi']
      simp only [Streams.used, hvi]

/-- A setter of one stream. -/
theorem Settled.put (h : Settled s second v fullRange) {p : Store} {c : StreamChannel}
    (htexts : HasTexts p v') (hsets : OnlySets (fun k => ∃ l, k = .detail j l) v v')
    (hc : ∀ d, (s.channel j).used = v.channel j d fullRange → c.used = v'.channel j d fullRange) :
    Settled (s.put p j c) second v' fullRange := by
  have hdetail : ∀ k : Key, (∃ l, k = .detail j l) → k.IsDetail := by
    rintro _ ⟨l, rfl⟩
    trivial
  refine h.detail htexts (hsets.imp hdetail) rfl rfl fun hchannel => ?_
  dsimp only [Streams.put]
  by_cases hij : pipeId second = j
  · subst hij
    rw [Function.update_self]
    exact hc _ hchannel
  · rw [Function.update_of_ne hij, hchannel]
    exact (channel_congr (hsets.apply (by simp)) (fun _ _ => hsets.apply (by simp [hij]))
      (hsets.apply (by simp)) _ _).symm

theorem rkVideoSetRcQuality_settled (h : Settled s second v fullRange) {value : Str}
    (hr : rkVideoSetRcQuality s j value = some (ret, s')) :
    ∃ v', Settled s' second v' fullRange := by
  obtain ⟨dataType, -, hr⟩ := Option.bind_eq_some_iff.mp hr
  cases hcodec : codecOf dataType with
  | none =>
    rw [hcodec] at hr
    cases hr
    exact ⟨v, h⟩
  | some codec =>
    rw [hcodec] at hr
    obtain ⟨p, hp, hr⟩ := Option.bind_eq_some_iff.mp hr
    cases hr
    refine ⟨_, h.put (h.texts.set (l := .detail j .rcQuality) hp) (.set ⟨_, rfl⟩)
      fun d hchannel => ?_⟩
    change { (s.channel j).used with u32MinQp := minQpOf (cstr value) } = _
    rw [hchannel]
    simp [Values.channel, codec_set, gopMode_set]

theorem rkVideoSetResolution_settled (h : Settled s second v fullRange) {value : Str}
    (hr : rkVideoSetResolution s j value = some (ret, s')) :
    ∃ v', Settled s' second v' fullRange := by
  obtain ⟨⟨width, height⟩, -, hr⟩ := Option.bind_eq_some_iff.mp hr
  obtain ⟨p, hp, hr⟩ := Option.bind_eq_some_iff.mp hr
  obtain ⟨p₁, hp₁, hr⟩ := Option.bind_eq_some_iff.mp hr
  cases hr
  obtain ⟨htexts, hwidth⟩ := h.texts.setInt (l := .detail j .width) hp
  obtain ⟨htexts, hheight⟩ := htexts.setInt (l := .detail j .height) hp₁
  have hsets := OnlySets.trans (S := fun k => ∃ l, k = .detail j l)
    (.set (v := v) (k := .detail j .width) (s := decimal width) ⟨_, rfl⟩)
    (.set (k := .detail j .height) (s := decimal height) ⟨_, rfl⟩)
  refine ⟨_, h.put htexts hsets fun d hchannel => ?_⟩
  change { (s.channel j).used with
    u32PicWidth := .ofInt width
    u32PicHeight := .ofInt height
    u32VirWidth := .ofInt width
    u32VirHeight := .ofInt height
    u32Width := .ofInt width
    u32Height := .ofInt height } = _
  rw [hchannel]
  simp [Values.channel, codec_set, gopMode_set, hwidth, hheight]

theorem rkVideoSetSmartpViridrlen_settled (h : Settled s second v fullRange) {value : ℤ}
    (hr : rkVideoSetSmartpViridrlen s j value = some (ret, s')) :
    ∃ v', Settled s' second v' fullRange := by
  obtain ⟨p, hp, hr⟩ := Option.bind_eq_some_iff.mp hr
  cases hr
  obtain ⟨htexts, hvalue⟩ := h.texts.setInt (l := .detail j .smartpViridrlen) hp
  refine ⟨_, h.put htexts (.set ⟨_, rfl⟩) fun d hchannel => ?_⟩
  have hgop : (s.channel j).enGopMode = v.gopMode j := congrArg StreamChannel.enGopMode hchannel
  change { (s.channel j).used with s32VirIdrLen :=
    if (s.channel j).enGopMode = some GopMode.smartP then value else 0 } = _
  rw [hchannel, hgop]
  simp [Values.channel, codec_set, gopMode_set, hvalue]

theorem rkVideoSetRotation_settled (h : Settled s second v fullRange) {value : ℤ}
    (hr : rkVideoSetRotation s value = some (ret, s')) : ∃ v', Settled s' second v' fullRange := by
  obtain ⟨p, hp, hr⟩ := Option.bind_eq_some_iff.mp hr
  cases hr
  obtain ⟨htexts, hvalue⟩ := h.texts.setInt (l := .rotation) hp
  refine ⟨_, h.detail htexts (.set trivial) rfl rfl fun hchannel => ?_⟩
  have hid : pipeId second = 0 ∨ pipeId second = 1 := by
    cases second
    · exact .inl rfl
    · exact .inr rfl
  dsimp only
  rw [if_pos hid]
  change { (s.channel (pipeId second)).used with rotation := rotationOf value } = _
  rw [hchannel]
  simp [Values.channel, codec_set, gopMode_set, hvalue]

/-- A text that no attribute in use depends on. -/
theorem storeText_settled (h : Settled s second v fullRange) {k : Key} {value : Str}
    (hk : (∃ i, k = .detail i .streamType) ∨ ∃ scenario, k = .grayScale scenario)
    (hr : storeText s k.entry value = some s') : ∃ v', Settled s' second v' fullRange := by
  obtain ⟨p, hp, hr⟩ := Option.bind_eq_some_iff.mp hr
  cases hr
  have hdetail : k.IsDetail := by
    rcases hk with ⟨i, rfl⟩ | ⟨scenario, rfl⟩
    · trivial
    · trivial
  refine ⟨_, h.detail (h.texts.set hp) (.set hdetail) rfl rfl fun hchannel => hchannel.trans ?_⟩
  refine (channel_congr ?_ (fun l hl => ?_) ?_ _ _).symm
  · rcases hk with ⟨i, rfl⟩ | ⟨scenario, rfl⟩ <;> simp
  · rcases hk with ⟨i, rfl⟩ | ⟨scenario, rfl⟩ <;> simp [hl]
  · rcases hk with ⟨i, rfl⟩ | ⟨scenario, rfl⟩ <;> simp

/-- A restart settles the stream again. -/
theorem restart_settled (htexts : HasTexts s.encoder.store v) (hready : v.Ready second)
    (hr : rkVideoRestart s = some s') : ∃ v' fullRange, Settled s' second v' fullRange := by
  obtain ⟨v', t, -, -, hsettled⟩ := rkVideoRestart_spec htexts hready hr
  exact ⟨v', _, hsettled⟩

/-- A text is stored, and the stream settled by a restart. -/
theorem storeAndRestart_settled (h : Settled s second v fullRange) {k : Key} {value : Str}
    (hk : (∃ i l, k = .detail i l) ∨
      codecOf (cstr value) ≠ none ∧ ∃ i, k = .item i .outputDataType)
    (hr : storeAndRestart s k.entry value = some (ret, s')) :
    ∃ v' fullRange, Settled s' second v' fullRange := by
  obtain ⟨s₁, hstore, hr⟩ := Option.bind_eq_some_iff.mp hr
  obtain ⟨s₂, hrestart, hr⟩ := Option.bind_eq_some_iff.mp hr
  obtain ⟨p, hp, hstore⟩ := Option.bind_eq_some_iff.mp hstore
  cases hr
  cases hstore
  have htexts : HasTexts p (v.set k (cstr value)) := h.texts.set hp
  refine restart_settled htexts ?_ hrestart
  rcases hk with ⟨i, l, rfl⟩ | ⟨hcodec, i, rfl⟩
  · exact h.ready.of_sets (S := Key.IsDetail) (.set trivial) (fun _ => id) id
  · refine ⟨⟨?_, ?_⟩, ?_⟩
    · by_cases hi : pipeId second = i
      · exact ⟨_, by simp [hi], hcodec⟩
      · simpa [hi] using h.ready.dataType
    · simpa using h.ready.rcMode
    · simpa using h.ready.enabled

theorem rkVideoSetFrameRateIn_settled (h : Settled s second v fullRange) {value : Str}
    (hr : rkVideoSetFrameRateIn s j value = some (ret, s')) :
    ∃ v' fullRange, Settled s' second v' fullRange := by
  obtain ⟨⟨num, den⟩, -, hr⟩ := Option.bind_eq_some_iff.mp hr
  obtain ⟨p, hp, hr⟩ := Option.bind_eq_some_iff.mp hr
  obtain ⟨p₁, hp₁, hr⟩ := Option.bind_eq_some_iff.mp hr
  obtain ⟨s₁, hrestart, hr⟩ := Option.bind_eq_some_iff.mp hr
  cases hr
  obtain ⟨htexts, -⟩ := h.texts.setInt (l := .detail j .srcFrameRateDen) hp
  obtain ⟨htexts, -⟩ := htexts.setInt (l := .detail j .srcFrameRateNum) hp₁
  have hsets := OnlySets.trans (S := Key.IsDetail)
    (.set (v := v) (k := .detail j .srcFrameRateDen) (s := decimal den) trivial)
    (.set (k := .detail j .srcFrameRateNum) (s := decimal num) trivial)
  exact restart_settled htexts (h.ready.of_sets hsets (fun _ => id) id) hrestart

/-- The codec that is asked for is one of the two. -/
def StreamCall.Supported : StreamCall → Prop
  | .setOutputDataType _ value => codecOf (cstr value) ≠ none
  | _ => True

instance : (c : StreamCall) → Decidable c.Supported
  | .setOutputDataType _ value => inferInstanceAs (Decidable (codecOf (cstr value) ≠ none))
  | .encoder _ | .setRcQuality _ _ | .setResolution _ _ | .setRotation _ | .setSmartpViridrlen _ _
  | .setStreamType _ _ | .setGrayScaleMode _ | .setSmart _ _ | .setGopMode _ _
  | .setH264Profile _ _ | .setFrameRateIn _ _ => inferInstanceAs (Decidable True)

/-- **A setter keeps a stream settled.** -/
theorem Settled.call (h : Settled s second v fullRange) {c : StreamCall} (hc : c.Supported)
    (hr : s.call c = some s') : ∃ v' fullRange', Settled s' second v' fullRange' := by
  cases c with
  | encoder c =>
    obtain ⟨e, he, rfl⟩ := Option.map_eq_some_iff.mp hr
    obtain ⟨v', h'⟩ := h.encoder he
    exact ⟨v', _, h'⟩
  | setRcQuality id value =>
    obtain ⟨⟨_, s₁⟩, hset, rfl⟩ := Option.map_eq_some_iff.mp hr
    obtain ⟨v', h'⟩ := rkVideoSetRcQuality_settled h hset
    exact ⟨v', _, h'⟩
  | setResolution id value =>
    obtain ⟨⟨_, s₁⟩, hset, rfl⟩ := Option.map_eq_some_iff.mp hr
    obtain ⟨v', h'⟩ := rkVideoSetResolution_settled h hset
    exact ⟨v', _, h'⟩
  | setRotation value =>
    obtain ⟨⟨_, s₁⟩, hset, rfl⟩ := Option.map_eq_some_iff.mp hr
    obtain ⟨v', h'⟩ := rkVideoSetRotation_settled h hset
    exact ⟨v', _, h'⟩
  | setSmartpViridrlen id value =>
    obtain ⟨⟨_, s₁⟩, hset, rfl⟩ := Option.map_eq_some_iff.mp hr
    obtain ⟨v', h'⟩ := rkVideoSetSmartpViridrlen_settled h hset
    exact ⟨v', _, h'⟩
  | setStreamType id value =>
    obtain ⟨⟨_, s₁⟩, hset, rfl⟩ := Option.map_eq_some_iff.mp hr
    obtain ⟨s₂, hstore, hset⟩ := Option.bind_eq_some_iff.mp hset
    cases hset
    obtain ⟨v', h'⟩ := storeText_settled (k := .detail id .streamType) h (.inl ⟨_, rfl⟩) hstore
    exact ⟨v', _, h'⟩
  | setGrayScaleMode value =>
    obtain ⟨v', h'⟩ := storeText_settled (k := .grayScale s.scenario) h (.inr ⟨_, rfl⟩) hr
    exact ⟨v', _, h'⟩
  | setOutputDataType id value =>
    obtain ⟨⟨_, s₁⟩, hset, rfl⟩ := Option.map_eq_some_iff.mp hr
    exact storeAndRestart_settled (k := .item id .outputDataType) h (.inr ⟨hc, _, rfl⟩) hset
  | setSmart id value =>
    obtain ⟨⟨_, s₁⟩, hset, rfl⟩ := Option.map_eq_some_iff.mp hr
    exact storeAndRestart_settled (k := .detail id .smart) h (.inl ⟨_, _, rfl⟩) hset
  | setGopMode id value =>
    obtain ⟨⟨_, s₁⟩, hset, rfl⟩ := Option.map_eq_some_iff.mp hr
    exact storeAndRestart_settled (k := .detail id .gopMode) h (.inl ⟨_, _, rfl⟩) hset
  | setH264Profile id value =>
    obtain ⟨⟨_, s₁⟩, hset, rfl⟩ := Option.map_eq_some_iff.mp hr
    exact storeAndRestart_settled (k := .detail id .h264Profile) h (.inl ⟨_, _, rfl⟩) hset
  | setFrameRateIn id value =>
    obtain ⟨⟨_, s₁⟩, hset, rfl⟩ := Option.map_eq_some_iff.mp hr
    exact rkVideoSetFrameRateIn_settled h hset

/-- Setters in turn keep it settled. -/
theorem Settled.calls (h : Settled s second v fullRange) {calls : List StreamCall}
    (hcalls : ∀ c ∈ calls, c.Supported) (hr : calls.foldlM Streams.call s = some s') :
    ∃ v' fullRange', Settled s' second v' fullRange' := by
  induction calls generalizing s v fullRange with
  | nil =>
    cases hr
    exact ⟨v, fullRange, h⟩
  | cons c calls ih =>
    rw [List.foldlM_cons] at hr
    obtain ⟨s₁, hc, hr⟩ := Option.bind_eq_some_iff.mp hr
    obtain ⟨v₁, fullRange₁, h₁⟩ := h.call (hcalls c List.mem_cons_self) hc
    exact ih h₁ (fun d hd => hcalls d (List.mem_cons_of_mem _ hd)) hr

end Setters

/-! ## Another restart -/

/-- **The stream is enabled**, and the codec and the mode have names in the store. -/
structure Streams.Ready (s : Streams) (second : Bool) : Prop where
  live : s.encoder.store.Live
  dataType : ∃ t, getText s.encoder.store (videoEntry (pipeId second) .outputDataType) = some t ∧
    codecOf t ≠ none
  rcMode : ∃ t, getText s.encoder.store (videoEntry (pipeId second) .rcMode) = some t
  enabled : ∃ n ≠ 0, rkParamGetInt s.encoder.store (enableEntry second) 1 = some n

theorem Streams.Ready.values {s : Streams} {second : Bool} {v : Values} (h : s.Ready second)
    (htexts : HasTexts s.encoder.store v) : v.Ready second where
  dataType := by
    obtain ⟨t, ht, hcodec⟩ := h.dataType
    exact ⟨t, htexts.apply_of_getText (k := .item _ .outputDataType) ht, hcodec⟩
  rcMode := by
    obtain ⟨t, ht⟩ := h.rcMode
    exact ⟨t, htexts.apply_of_getText (k := .item _ .rcMode) ht⟩
  enabled := by
    obtain ⟨n, hn, hget⟩ := h.enabled
    rwa [htexts.int_of_getInt (k := .enable second) hget]

/-- The attributes of a stream, with another range of the colours. -/
def withRange (u : VencChnAttr × FrameRate × StreamChannel) (fullRange : Bool) :
    VencChnAttr × FrameRate × StreamChannel :=
  (u.1, u.2.1, { u.2.2 with videoFullRangeFlag := fullRange })

/-- **A restart after any setters changes the range of the colours and nothing else**, and it
changes nothing if and only if the range is the one that its parameter names. -/
theorem restart_unchanged_iff {s s₀ s₁ s₂ : Streams} {second : Bool} (hready : s.Ready second)
    (h₀ : rkVideoRestart s = some s₀) {calls : List StreamCall} (hcalls : ∀ c ∈ calls, c.Supported)
    (h₁ : calls.foldlM Streams.call s₀ = some s₁) (h₂ : rkVideoRestart s₁ = some s₂) :
    ∃ t, getText s₁.encoder.store (grayScaleEntry s₁.scenario) = some t ∧
      s₂.used (pipeId second) = withRange (s₁.used (pipeId second)) (fullRangeOf t) ∧
      (s₂.used (pipeId second) = s₁.used (pipeId second) ↔
        (s₁.channel (pipeId second)).videoFullRangeFlag = fullRangeOf t) := by
  obtain ⟨v, htexts⟩ := exists_hasTexts hready.live
  obtain ⟨v₀, fullRange₀, hsettled₀⟩ := restart_settled htexts (hready.values htexts) h₀
  obtain ⟨v₁, fullRange, hsettled⟩ := hsettled₀.calls hcalls h₁
  obtain ⟨v₂, t, halike, ht, hsettled₂⟩ := rkVideoRestart_spec hsettled.texts hsettled.ready h₂
  have hrange : (s₁.channel (pipeId second)).videoFullRangeFlag = fullRange :=
    congrArg (fun u => u.2.2.videoFullRangeFlag) hsettled.used
  have hused : s₂.used (pipeId second) = v₁.used second (fullRangeOf t) :=
    hsettled₂.used.trans (halike.used second _)
  refine ⟨t, ?_, ?_, ?_⟩
  · exact congrArg Option.join (hsettled.texts.string_of_apply ht none)
  · rw [hused, hsettled.used]
    rfl
  · rw [hused, hsettled.used, hrange]
    constructor
    · intro h
      exact (congrArg (fun u => u.2.2.videoFullRangeFlag) h).symm
    · rintro rfl
      rfl

/-- The parameters of a camera with one stream; nothing has been started. -/
def oneCamera : Streams where
  encoder := ⟨⟨none, .live <| [("video.source:enable_venc_0", "1"),
    ("video.source:enable_venc_1", "0"), ("video.source:rotation", "0"),
    ("video.0:output_data_type", "H.265"), ("video.0:rc_mode", "CBR"), ("video.0:gop", "60"),
    ("video.0:max_rate", "2048"), ("video.0:mid_rate", "1024"), ("video.0:min_rate", "512"),
    ("video.0:dst_frame_rate_den", "1"), ("video.0:dst_frame_rate_num", "25"),
    ("video.0:width", "2304"), ("video.0:height", "1296"), ("video.0:gop_mode", "normalP"),
    ("video.0:rc_quality", "high"), ("isp.0.adjustment:fps", "25"),
    ("isp.0.enhancement:gray_scale_mode", "[0-255]")].foldl
      (fun d entry => dictionarySet d (lit entry.1) (some (lit entry.2))) dictionaryNew⟩,
    fun _ => ⟨none, none, 0, 0, 0, 0, 0, 0, 0, 0⟩, fun _ => ⟨0, 0⟩⟩
  channel := fun _ => ⟨0, none, 0, 0, 0, 0, 0, 0, false, 0, .r0, false, 0, 0⟩
  scenario := 0

/-- The rate, the quality, the mode and the range of the colours are changed in turn, and the range
waits for a restart. -/
theorem restart_unchanged_iff_oneCamera :
    let calls : List StreamCall := [.encoder (.setMaxRate 0 3000), .setRcQuality 0 (lit "low"),
      .setGopMode 0 (lit "smartP"), .setSmartpViridrlen 0 40, .setGrayScaleMode (lit "[16-235]")]
    ∃ s₀ s₁ s₂, rkVideoRestart oneCamera = some s₀ ∧ calls.foldlM Streams.call s₀ = some s₁ ∧
      rkVideoRestart s₁ = some s₂ ∧ s₂.used 0 = withRange (s₁.used 0) false ∧
      s₂.used 0 ≠ s₁.used 0 := by
  intro calls
  have hready : oneCamera.Ready false :=
    ⟨⟨_, rfl⟩, ⟨lit "H.265", by decide +kernel, by decide +kernel⟩, ⟨lit "CBR", by decide +kernel⟩,
      ⟨1, by decide, by decide +kernel⟩⟩
  have hcalls : ∀ c ∈ calls, c.Supported := by decide +kernel
  have hrun : ((rkVideoRestart oneCamera).bind fun s₀ => (calls.foldlM Streams.call s₀).bind
      fun s₁ => (rkVideoRestart s₁).map fun _ => ((s₁.channel 0).videoFullRangeFlag,
        getText s₁.encoder.store (grayScaleEntry s₁.scenario))) =
      some (true, some (lit "[16-235]")) := by decide +kernel
  obtain ⟨s₀, h₀, hrun⟩ := Option.bind_eq_some_iff.mp hrun
  obtain ⟨s₁, h₁, hrun⟩ := Option.bind_eq_some_iff.mp hrun
  obtain ⟨s₂, h₂, hrun⟩ := Option.map_eq_some_iff.mp hrun
  obtain ⟨hflag, hgray⟩ := Prod.mk.inj hrun
  obtain ⟨t, ht, hused, hiff⟩ := restart_unchanged_iff hready h₀ hcalls h₁ h₂
  obtain rfl := Option.some.inj (hgray.symm.trans ht)
  refine ⟨s₀, s₁, s₂, h₀, h₁, h₂, hused, fun h => ?_⟩
  exact absurd (hflag.symm.trans (hiff.mp h)) (by decide +kernel)

end RkIpc.Video
