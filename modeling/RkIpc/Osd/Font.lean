import RkIpc.Osd.Frame

/-!
# Texts that are changed

`rk_osd_init` makes the bitmap of a text as wide as its letters are in the font, and
`rk_osd_bmp_change` as wide as so many letters of the font size. The letters are drawn one after the
other, by FreeType. A font is loaded, and its letters are drawn in the same way every time.

## Main definitions

* `Glyph`, `Font`: a letter as FreeType renders it, and the font with the colours
* `wstrGetActualAdvanceX`, `drawArgb8888Text`, `fillText`: the functions of `font_factory.c`
* `Picture`, `Font.picture`: what a callback is given
* `CreatedAs`: a picture that `rk_osd_init` gives to the callback for the same entry

## Main results

* `change_logged`: the text that `rk_osd_bmp_change` changes
* `createdAs_iff`: the texts that are changed to what they were created as
* `narrow_letters_differ`: narrow letters
-/

namespace RkIpc.Osd

open Text Param Imperative Geometry Transition Wire

/-! ## Letters -/

/-- `slot_` once a letter is loaded and rendered. -/
structure Glyph where
  error : Bool
  left : ℤ
  top : ℤ
  width : ℕ
  rows : ℕ
  buffer : ℕ → UInt8
  advanceX : ℤ
  advanceY : ℤ

/-- **A font**: its ascender, its letters at a place of the pen, and what `sscanf` reads from the
text of a colour. -/
structure Font where
  ascender : ℤ
  glyph : ℤ × ℤ → UInt32 → Glyph
  scanColor : Option Str → UInt32

/-- The pen behind a letter. -/
def Font.advance (f : Font) (pen : ℤ × ℤ) (wch : UInt32) : ℤ × ℤ :=
  (pen.1 + (f.glyph pen wch).advanceX, pen.2 + (f.glyph pen wch).advanceY)

/-- **`wstr_get_actual_advance_x`**. The pen moves in sixty-fourths of a pixel. -/
def wstrGetActualAdvanceX (f : Font) (wstr : List UInt32) : ℤ :=
  storedInt ((wstr.foldl f.advance (0, 0)).1.tdiv 64)

/-- The pixels of a buffer. -/
abbrev Pixels := ℤ → UInt32

/-- **`draw_argb8888_buffer`**: the pixels of a letter that are part of the buffer. -/
def drawArgb8888Buffer (f : Font) (color : UInt32) (g : Glyph) (bufW bufH : ℤ) (buffer : Pixels) :
    Pixels :=
  (List.range g.rows).foldl (fun buffer (q : ℕ) =>
    (List.range g.width).foldl (fun buffer (p : ℕ) =>
      let j := f.ascender / 64 - g.top + q
      let i := g.left + p
      if i < 0 ∨ j < 0 ∨ i ≥ bufW ∨ j ≥ bufH then buffer
      else Function.update buffer (j * bufW + i)
        (if g.buffer (q * g.width + p) ≠ 0 then color else 0)) buffer) buffer

/-- **`draw_argb8888_text`**: letter by letter, with the pen. -/
def drawArgb8888Text (f : Font) (color : UInt32) (bufW bufH : ℤ) (wstr : List UInt32)
    (buffer : Pixels) : Pixels :=
  (wstr.foldl (fun (r : (ℤ × ℤ) × Pixels) wch =>
    let g := f.glyph r.1 wch
    (f.advance r.1 wch, if g.error then r.2 else drawArgb8888Buffer f color g bufW bufH r.2))
    ((0, 0), buffer)).2

/-- `set_font_color`: from ARGB to BGRA. -/
def setFontColor (fontColor : UInt32) : UInt32 :=
  (0x000000FF : UInt32) ||| (fontColor >>> 8 &&& (0x0000FF00 : UInt32)) |||
    (fontColor <<< 8 &&& (0x00FF0000 : UInt32)) ||| (fontColor <<< 24 &&& (0xFF000000 : UInt32))

/-- **`fill_text`**, in a buffer of zeros. -/
def fillText (f : Font) (q : Params) (data : OsdData) : Pixels :=
  if q.string (lit "osd.common:font_path") none = none then fun _ => 0
  else drawArgb8888Text f (setFontColor (f.scanColor (q.string (lit "osd.common:font_color") none)))
    data.width data.height data.wch fun _ => 0

/-- The geometry, the size and the pixels of a bitmap. -/
structure Picture where
  rect : Rect
  size : ℤ
  pixels : Pixels

/-- **What a callback is given** of a text. -/
def Font.picture (f : Font) (q : Params) (data : OsdData) : Picture where
  rect := data.rect
  size := data.width * data.height * 4 % 2 ^ 32
  pixels := fillText f q data

/-- The display with a font. -/
def Env.withFont (e : Env) (f : Font) : Env := { e with
  wstrGetActualAdvanceX := RkIpc.Osd.wstrGetActualAdvanceX f }

/-! ## Texts -/

section Texts

variable {e : Env} {q : Params} {s : Screen} {id : ℤ} {data : OsdData}

theorem textRect_rect (hdata : Placed e q s id data) (width : ℤ) :
    (textRect s width data).rect =
      ⟨shrink width s.videoWidth (scaledX e q s id "position_x"),
        shrink (storedInt (upAlignTo16 data.fontSize)) s.videoHeight
          (scaledY e q s id "position_y"), width, storedInt (upAlignTo16 data.fontSize)⟩ := by
  simp only [textRect, OsdData.rect, hdata.originX, hdata.originY]

theorem negative_eq_of_rect {data data' : OsdData} (h : data.rect = data'.rect) :
    data.negative = data'.negative := by
  simp only [OsdData.rect, Rect.mk.injEq] at h
  obtain ⟨hx, hy, hw, hh⟩ := h
  rw [OsdData.negative, OsdData.negative, hx, hy, hw, hh]

/-- **The text of an entry** in `rk_osd_init`. -/
theorem initEntry_text {type : Str} (htype : osdType q id = some type) (htext : isText type)
    (henabled : q.int (osdEntry id "enabled") 0 ≠ 0) (data : OsdData) :
    ∃ placed, Placed e q s id placed ∧
      placed.fontSize = q.int (lit "osd.common:font_size") (-1) ∧
      initEntry e q s id data = textEntry e q s id placed := by
  have himage : type ≠ lit "image" := by
    rcases htext with rfl | rfl <;> decide
  have hmask : type ≠ lit "privacyMask" := by
    rcases htext with rfl | rfl <;> decide
  unfold initEntry
  rw [htype]
  simp only [if_neg henabled, if_neg himage, if_neg hmask, if_pos htext]
  exact ⟨_, ⟨rfl, rfl⟩, rfl, rfl⟩

theorem textEntry_of_some {wch : List UInt32}
    (h : e.iconvUtf8ToWchar (q.string (osdEntry id "display_text") none) = some wch) :
    textEntry e q s id data =
      (textRect s (textWidth e wch) { data with wch := wch },
        if (textRect s (textWidth e wch) { data with wch := wch }).negative then none
        else some (.region .bmp)) := by
  unfold textEntry
  rw [h]
  rfl

theorem textEntry_of_none (h : e.iconvUtf8ToWchar (q.string (osdEntry id "display_text") none) =
    none) : textEntry e q s id data = (data, none) := by
  unfold textEntry
  rw [h]

/-- The regions that are created are those of the entries. -/
theorem exists_entry_of_mem_regions {entry : ℤ → OsdData → OsdData × Option Shown} {ids : List ℤ}
    {data d : OsdData} {k : Kind} (h : .create k id d ∈ regions entry ids data) :
    ∃ data', entry id data' = (d, some (.region k)) := by
  induction ids generalizing data with
  | nil => cases h
  | cons j ids ih =>
    rcases List.mem_append.mp h with h | h
    · rcases hshown : (entry j data).2 with _ | k' | _ <;> rw [hshown] at h
      · cases h
      · have heq := List.mem_singleton.mp h
        cases heq
        exact ⟨data, Prod.ext rfl hshown⟩
      · cases h
    · exact ih h

theorem exists_mem_regions (entry : ℤ → OsdData → OsdData × Option Shown) {ids : List ℤ}
    (hid : id ∈ ids) (data : OsdData) : ∃ data', ∀ d k, entry id data' = (d, some (.region k)) →
      .create k id d ∈ regions entry ids data := by
  induction ids generalizing data with
  | nil => cases hid
  | cons j ids ih =>
    rcases List.mem_cons.mp hid with rfl | hid
    · refine ⟨data, fun d k h => List.mem_append_left _ ?_⟩
      rw [h]
      exact List.mem_singleton_self _
    · obtain ⟨data', h⟩ := ih hid (entry j data).1
      exact ⟨data', fun d k hd => List.mem_append_right _ (h d k hd)⟩

end Texts

/-! ## Changes -/

section Changes

variable {e : Env} {p : Store} {id : Int32} {w : World} {data : OsdData}

/-- An entry with a text that `rk_osd_bmp_change` does not drop. -/
structure Changed (e : Env) (p : Store) (id : ℤ) (data : OsdData) : Prop where
  type : ∃ type, osdType (params p) id = some type ∧ isText type
  enabled : (params p).int (osdEntry id "enabled") 0 ≠ 0
  eq : data = changeData e (params p) (screen (params p)) id
  kept : data.negative = false

/-- **What `rk_osd_bmp_change` gives to the callback.** -/
theorem rkOsdBmpChange_logged (e : Env) (p : Store) (id : Int32) {B : World → Prop} :
    Program.Triple (fun w => w = World.initial p) (rkOsdBmpChange e id)
      (fun _ w => ∀ d, .change id.toInt d ∈ w.log → Changed e p id.toInt d)
      (fun _ w => ∀ d, .change id.toInt d ∈ w.log → Changed e p id.toInt d) B := by
  have hnone : ∀ w : World, w.log = [] →
      ∀ d, .change id.toInt d ∈ w.log → Changed e p id.toInt d := by
    intro w hw d hd
    rw [hw] at hd
    cases hd
  have hlock : Program.Triple (fun w => w = World.initial p) (mutexLock : Program World ℤ Unit)
      (fun _ w => w.store = p ∧ w.log = []) (fun _ _ => False) fun _ => False := by
    rintro w rfl
    exact ⟨rfl, rfl⟩
  refine Program.Triple.bind ((hlock.returns fun _ _ h => h.elim).blocks fun _ h => h.elim)
    fun _ => Program.Triple.bind (V := fun q w => w.log = [] ∧ w.store = p ∧ q = params p) ?_
      fun q => ?_
  · rintro w ⟨rfl, hw⟩
    exact ⟨hw, rfl, rfl⟩
  refine Program.Triple.bind (V := fun s w => w.log = [] ∧ q = params p ∧ s = screen (params p)) ?_
    fun s => Program.Triple.assuming ?_
  · rintro w ⟨hw, rfl, rfl⟩
    exact ⟨hw, rfl, rfl⟩
  rintro ⟨rfl, rfl⟩
  cases htype : osdType (params p) id.toInt with
  | none => exact Program.Triple.exit hnone
  | some type =>
    refine Program.Triple.ite (fun _ => Program.Triple.exit hnone) fun h0 =>
      Program.Triple.ite (fun htext => ?_) fun _ => hnone
    refine Program.Triple.ite (fun _ => Program.Triple.exit hnone) fun hneg => ?_
    rintro w hw d hd
    change .change id.toInt d ∈ w.log ++ [_] at hd
    rw [hw, List.nil_append, List.mem_singleton] at hd
    cases hd
    exact ⟨⟨type, htype, htext⟩, h0, rfl, by simpa using hneg⟩

theorem change_logged (h : (Call.bmpChange id).result e (World.initial p) = some w)
    (hev : .change id.toInt data ∈ w.log) : Changed e p id.toInt data := by
  have hrun := rkOsdBmpChange_logged e p id (B := fun _ => False) _ rfl
  rcases Call.result_eq_some_iff.mp h with ⟨v, hv⟩ | ⟨v, hv⟩ <;> rw [Call.run] at hv <;>
    rw [hv] at hrun <;> exact hrun data hev

/-- **The same picture was created**: `rk_osd_init` gives it to the callback for the entry. -/
def CreatedAs (e : Env) (f : Font) (p : Store) (id : ℤ) (data : OsdData) : Prop :=
  ∃ w data', (Call.init fun _ => true).result e (World.initial p) = some w ∧
    .create .bmp id data' ∈ w.log ∧ f.picture (params p) data' = f.picture (params p) data

/-- The width that `rk_osd_bmp_change` gives to a text. -/
def changedWidth (q : Params) (wch : List UInt32) : ℤ :=
  storedInt (upAlignTo16 (wch.length * q.int (lit "osd.common:font_size") (-1)))

/-- A text that is changed, once it is converted. -/
theorem changeData_eq {q : Params} {s : Screen} {id : ℤ} {wch : List UInt32}
    (h : e.iconvUtf8ToWchar (q.string (osdEntry id "display_text") none) = some wch) :
    ∃ placed, Placed e q s id placed ∧
      placed.fontSize = q.int (lit "osd.common:font_size") (-1) ∧ placed.wch = wch ∧
      changeData e q s id = textRect s (changedWidth q wch) placed := by
  unfold changeData
  rw [h]
  exact ⟨_, ⟨rfl, rfl⟩, rfl, rfl, rfl⟩

/-- Two texts with the same letters and the same rectangle have the same picture. -/
theorem picture_eq {f : Font} {q : Params} {data data' : OsdData} (hrect : data.rect = data'.rect)
    (hwch : data.wch = data'.wch) : f.picture q data = f.picture q data' := by
  obtain ⟨-, -, hw, hh⟩ := Rect.mk.inj hrect
  simp only [Font.picture, fillText, hrect, hwch, hw, hh]

/-- **A text that is changed is what it was created as** if and only if it could be converted, and
its letters are as wide as so many letters of the font size, up to the next multiple of 16. -/
theorem createdAs_iff {f : Font} (hid : id.toInt ∈ slots)
    (h : (Call.bmpChange id).result (e.withFont f) (World.initial p) = some w)
    (hev : .change id.toInt data ∈ w.log) :
    CreatedAs (e.withFont f) f p id.toInt data ↔
      ∃ wch, e.iconvUtf8ToWchar ((params p).string (osdEntry id.toInt "display_text") none) =
          some wch ∧
        storedInt (upAlignTo16 (wstrGetActualAdvanceX f wch)) = changedWidth (params p) wch := by
  obtain ⟨⟨type, htype, htext⟩, henabled, rfl, hkept⟩ := change_logged h hev
  have hinit := initEntry_text (e := e.withFont f) (s := screen (params p)) htype htext henabled
  obtain ⟨w₀, hresult, hw₀⟩ := exists_init_result (e := e.withFont f) (p := p)
  constructor
  · rintro ⟨w', data', hw', hmem, hpicture⟩
    obtain rfl := Option.some.inj (hresult.symm.trans hw')
    rw [hw₀.log] at hmem
    obtain ⟨before, hbefore⟩ := exists_entry_of_mem_regions hmem
    obtain ⟨placed, -, -, htextEntry⟩ := hinit before
    rw [hbefore] at htextEntry
    cases hiconv : e.iconvUtf8ToWchar
        ((params p).string (osdEntry id.toInt "display_text") none) with
    | none =>
      -- an entry that cannot be converted is not shown
      rw [textEntry_of_none (e := e.withFont f) hiconv] at htextEntry
      cases congrArg Prod.snd htextEntry
    | some wch =>
      refine ⟨wch, rfl, ?_⟩
      rw [textEntry_of_some (e := e.withFont f) hiconv] at htextEntry
      obtain ⟨placed', -, -, -, hchange⟩ := changeData_eq (e := e.withFont f)
        (s := screen (params p)) hiconv
      obtain rfl := congrArg Prod.fst htextEntry
      rw [hchange] at hpicture
      exact congrArg (fun c : Picture => c.rect.width) hpicture
  · rintro ⟨wch, hiconv, hwidth⟩
    obtain ⟨placed', hplaced', hfont', hwch', hchange⟩ := changeData_eq (e := e.withFont f)
      (s := screen (params p)) hiconv
    obtain ⟨before, hbefore⟩ := exists_mem_regions
      (initEntry (e.withFont f) (params p) (screen (params p))) hid (e.withFont f).junk
    obtain ⟨placed, hplaced, hfont, htextEntry⟩ := hinit before
    rw [textEntry_of_some (e := e.withFont f) hiconv] at htextEntry
    have hplacedWch : Placed (e.withFont f) (params p) (screen (params p)) id.toInt
        { placed with wch := wch } := ⟨hplaced.originX, hplaced.originY⟩
    have hrect : (textRect (screen (params p)) (textWidth (e.withFont f) wch)
        { placed with wch := wch }).rect =
          (changeData (e.withFont f) (params p) (screen (params p)) id.toInt).rect := by
      rw [hchange, textRect_rect hplacedWch, textRect_rect hplaced', hfont', ← hwidth]
      simp only [hfont]
      rfl
    rw [if_neg (by rw [negative_eq_of_rect hrect, hkept]; simp)] at htextEntry
    refine ⟨w₀, _, hresult, ?_, picture_eq hrect ?_⟩
    · rw [hw₀.log]
      exact hbefore _ _ htextEntry
    · rw [hchange]
      exact hwch'.symm

end Changes

/-! ## A camera with a name -/

/-- A font whose letters are all `width` pixels wide. -/
def evenFont (width : ℤ) : Font where
  ascender := 1536
  glyph _ _ := ⟨false, 0, 16, 0, 0, fun _ => 0, 64 * width, 0⟩
  scanColor _ := 0x00fff799

/-- A name of three letters, in a font of 32 pixels. -/
def namedCamera : Store where
  file := none
  iniD := .live <| [("video.0:width", "1920"), ("video.0:height", "1080"),
    ("osd.common:normalized_screen_width", "704"), ("osd.common:normalized_screen_height", "480"),
    ("osd.common:font_size", "32"), ("osd.0:type", "channelName"), ("osd.0:enabled", "1"),
    ("osd.0:position_x", "16"), ("osd.0:position_y", "16"), ("osd.0:display_text", "iii")].foldl
      (fun d entry => dictionarySet d (lit entry.1) (some (lit entry.2))) dictionaryNew

/-- The rectangle of a text, and whether it has been changed. -/
def Event.text : Event → Option (Bool × ℤ × Rect)
  | .create .bmp id data => some (false, id, data.rect)
  | .change id data => some (true, id, data.rect)
  | _ => none

theorem exists_change {e : Env} {p : Store} {c : Call} {id : ℤ} {r : Rect}
    (h : (c.result e (World.initial p)).map (fun w => w.log.filterMap Event.text) =
      some [(true, id, r)]) :
    ∃ w data, c.result e (World.initial p) = some w ∧ .change id data ∈ w.log ∧ data.rect = r := by
  obtain ⟨w, hw, hlog⟩ := Option.map_eq_some_iff.mp h
  have hmem : (true, id, r) ∈ w.log.filterMap Event.text := by
    rw [hlog]
    exact List.mem_singleton_self _
  obtain ⟨ev, hev, htext⟩ := List.mem_filterMap.mp hmem
  rcases ev with ⟨_ | _ | _, _, _⟩ | ⟨_, _⟩ | ⟨_, data⟩ <;> cases htext
  exact ⟨w, data, hw, hev, rfl⟩

/-- Letters as wide as the font is high. -/
theorem createdAs_namedCamera_iff : ∃ w data,
    (Call.bmpChange 0).result (Env.plain.withFont (evenFont 32)) (World.initial namedCamera) =
      some w ∧
    (CreatedAs (Env.plain.withFont (evenFont 32)) (evenFont 32) namedCamera (0 : Int32).toInt data ↔
      ∃ wch, Env.plain.iconvUtf8ToWchar ((params namedCamera).string
          (osdEntry (0 : Int32).toInt "display_text") none) = some wch ∧
        storedInt (upAlignTo16 (wstrGetActualAdvanceX (evenFont 32) wch)) =
          changedWidth (params namedCamera) wch) := by
  have hlog : ((Call.bmpChange 0).result (Env.plain.withFont (evenFont 32))
      (World.initial namedCamera)).map (fun w => w.log.filterMap Event.text) =
        some [(true, (0 : Int32).toInt, ⟨48, 48, 96, 32⟩)] := by
    decide +kernel
  obtain ⟨w, data, hw, hev, -⟩ := exists_change hlog
  exact ⟨w, data, hw, createdAs_iff (by decide) hw hev⟩

/-- **Narrow letters**: the text is created with a width of 32 pixels and changed to one of 96. -/
theorem narrow_letters_differ : ∃ w data,
    (Call.bmpChange 0).result (Env.plain.withFont (evenFont 8)) (World.initial namedCamera) =
      some w ∧ .change (0 : Int32).toInt data ∈ w.log ∧
    ¬ CreatedAs (Env.plain.withFont (evenFont 8)) (evenFont 8) namedCamera (0 : Int32).toInt
      data := by
  have hlog : ((Call.bmpChange 0).result (Env.plain.withFont (evenFont 8))
      (World.initial namedCamera)).map (fun w => w.log.filterMap Event.text) =
        some [(true, (0 : Int32).toInt, ⟨48, 48, 96, 32⟩)] := by
    decide +kernel
  have hinit : ((Call.init fun _ => true).result (Env.plain.withFont (evenFont 8))
      (World.initial namedCamera)).map (fun w => w.log.filterMap Event.text) =
        some [(false, 0, ⟨48, 48, 32, 32⟩)] := by
    decide +kernel
  obtain ⟨w, data, hw, hev, hrect⟩ := exists_change hlog
  refine ⟨w, data, hw, hev, ?_⟩
  rintro ⟨w', data', hw', hmem, hpicture⟩
  rw [hw', Option.map_some, Option.some.injEq] at hinit
  have hcreated : (false, (0 : Int32).toInt, data'.rect) ∈ w'.log.filterMap Event.text :=
    List.mem_filterMap.mpr ⟨_, hmem, rfl⟩
  rw [hinit, List.mem_singleton] at hcreated
  have hrects : data'.rect = data.rect := congrArg Picture.rect hpicture
  rw [hrects, hrect] at hcreated
  exact absurd hcreated (by decide)

end RkIpc.Osd
