import RkIpc.Video.Cover

/-!
# Bitmaps on the streams

`rkipc_osd_bmp_create` attaches the bitmap of a region to the two streams and to the photos. For the
second stream the position is scaled, and rounded up to a multiple of 16, but the size is not. The
photos get the bitmap where the second stream has it, if there is one, and else where the first
stream has it.

## Main definitions

* `Overlay`, `rkipcOsdBmpCreate`: the streams, and the calls of `RK_MPI_RGN_AttachToChn`
* `Overlay.Holds`: a bitmap is part of every stream
* `RoomBehind`, `Overlay.Fits`: there is room for it

## Main results

* `holds_iff`: the bitmaps that are part of every stream
* `wide_text_sticks_out`: a text that is too wide for the second stream
-/

namespace RkIpc.Video

open Text Param Osd Geometry Wire

/-- What a bitmap is attached to. -/
inductive Channel where
  | venc0
  | venc1
  | jpeg
deriving DecidableEq, Repr

/-- What `rk_video_init` and `rkipc_osd_bmp_create` read, and the sizes the channels have. -/
structure Overlay where
  enableVenc0 : Bool
  enableVenc1 : Bool
  enableJpeg : Bool
  width0 : ℤ
  height0 : ℤ
  width1 : ℤ
  height1 : ℤ
  frame : Channel → ℤ × ℤ

/-- The parameters, as they are read. -/
def overlay (q : Params) : Overlay where
  enableVenc0 := q.int (lit "video.source:enable_venc_0") 1 ≠ 0
  enableVenc1 := q.int (lit "video.source:enable_venc_1") 1 ≠ 0
  enableJpeg := q.int (lit "video.source:enable_jpeg") 1 ≠ 0
  width0 := q.int (lit "video.0:width") 1
  height0 := q.int (lit "video.0:height") 1
  width1 := q.int (lit "video.1:width") 1
  height1 := q.int (lit "video.1:height") 1
  frame
    | .venc0 => (q.int (lit "video.0:width") (-1), q.int (lit "video.0:height") (-1))
    | .venc1 => (q.int (lit "video.1:width") 1920, q.int (lit "video.1:height") 1080)
    | .jpeg => (q.int (lit "video.jpeg:width") 1920, q.int (lit "video.jpeg:height") 1080)

/-- `UPALIGNTO16(origin * stream / video)`. -/
def scaledOrigin (origin stream video : ℤ) : Option ℤ :=
  (scaleUp origin stream video).bind alignSigned

/-- `stRgnChnAttr` once the second stream is done: the point changes if there is one. -/
def Overlay.moved (o : Overlay) (r : Rect) : Option Rect :=
  if o.enableVenc1 then do
    let x ← scaledOrigin r.x o.width1 o.width0
    let y ← scaledOrigin r.y o.height1 o.height0
    some ⟨x, y, r.width, r.height⟩
  else some r

/-- **`rkipc_osd_bmp_create`**: what `RK_MPI_RGN_AttachToChn` is given. `ok` says for which channels
it succeeds, and the function returns at the first for which it does not. -/
def rkipcOsdBmpCreate (o : Overlay) (ok : Channel → Bool) (r : Rect) :
    Option (List (Channel × Rect)) :=
  let first := if o.enableVenc0 then [(.venc0, r)] else []
  if o.enableVenc0 && !ok .venc0 then some first
  else (o.moved r).map fun m =>
    let second := if o.enableVenc1 then [(.venc1, m)] else []
    if o.enableVenc1 && !ok .venc1 then first ++ second
    else first ++ second ++ if o.enableJpeg then [(.jpeg, m)] else []

/-- **The bitmap is part of the second stream and of the photos.** -/
def Overlay.Holds (o : Overlay) (r : Rect) : Prop :=
  ∀ ok, ∃ calls, rkipcOsdBmpCreate o ok r = some calls ∧
    ∀ c ∈ calls, c.1 ≠ .venc0 → c.2.Inside (o.frame c.1).1 (o.frame c.1).2

/-! ## Room -/

/-- Along an axis: the position scaled is not over the last multiple of 16 that leaves room for the
size, and the product does not overflow. -/
def RoomBehind (x stream video limit size : ℤ) : Prop :=
  x * stream < 2 ^ 31 ∧ x * stream / video ≤ (limit - size) / 16 * 16

/-- **There is room** for a bitmap in a channel. -/
def Overlay.RoomIn (o : Overlay) (c : Channel) (r : Rect) : Prop :=
  RoomBehind r.x o.width1 o.width0 (o.frame c).1 r.width ∧
    RoomBehind r.y o.height1 o.height0 (o.frame c).2 r.height

/-- **There is room** in the second stream and in the photos. -/
structure Overlay.Fits (o : Overlay) (r : Rect) : Prop where
  venc1 : o.enableVenc1 = true → o.RoomIn .venc1 r
  jpeg : o.enableJpeg = true →
    if o.enableVenc1 then o.RoomIn .jpeg r else r.Inside (o.frame .jpeg).1 (o.frame .jpeg).2

/-- **Along an axis** there is room behind the origin if and only if the bitmap does not stick
out. -/
theorem roomBehind_iff {x stream video limit size : ℤ} (hx : 0 ≤ x) (hstream : 0 ≤ stream)
    (hvideo : 0 < video) (hlimit : InRange limit) (hsize : 0 ≤ size) :
    (∃ x', scaledOrigin x stream video = some x' ∧ 0 ≤ x' ∧ x' + size ≤ limit) ↔
      RoomBehind x stream video limit size := by
  have hquot : 0 ≤ x * stream / video := Int.ediv_nonneg (Int.mul_nonneg hx hstream) hvideo.le
  have hlt := hlimit.2
  simp only [scaledOrigin, Option.bind_eq_some_iff, scaleUp_eq_some_iff hx hstream hvideo,
    alignSigned, Option.map_eq_some_iff, signed_eq_some_iff]
  constructor
  · rintro ⟨_, ⟨_, ⟨hprod, rfl⟩, _, ⟨-, rfl⟩, rfl⟩, -, hright⟩
    exact ⟨hprod, by omega⟩
  · rintro ⟨hprod, hroom⟩
    exact ⟨_, ⟨_, ⟨hprod, rfl⟩, _, ⟨⟨by omega, by omega⟩, rfl⟩, rfl⟩, by omega, by omega⟩

/-- The sizes are numbers of pixels. -/
structure Overlay.Proper (o : Overlay) : Prop where
  width0 : 0 < o.width0
  height0 : 0 < o.height0
  width1 : 0 < o.width1
  height1 : 0 < o.height1
  frame : ∀ c, InRange (o.frame c).1 ∧ InRange (o.frame c).2

section Overlays

variable {o : Overlay} {r : Rect}

/-- A bitmap that has been moved for the second stream. -/
theorem moved_inside_iff (ho : o.Proper) (h1 : o.enableVenc1 = true) (hx : 0 ≤ r.x) (hy : 0 ≤ r.y)
    (hw : 0 ≤ r.width) (hh : 0 ≤ r.height) (c : Channel) :
    (∃ m, o.moved r = some m ∧ m.Inside (o.frame c).1 (o.frame c).2) ↔ o.RoomIn c r := by
  rw [Overlay.RoomIn, ← roomBehind_iff hx ho.width1.le ho.width0 (ho.frame c).1 hw,
    ← roomBehind_iff hy ho.height1.le ho.height0 (ho.frame c).2 hh]
  simp only [Overlay.moved, if_pos h1, Option.bind_eq_bind, Option.bind_eq_some_iff,
    Option.some.injEq]
  constructor
  · rintro ⟨_, ⟨x, hx, y, hy, rfl⟩, hin⟩
    exact ⟨⟨x, hx, hin.left, hin.right⟩, y, hy, hin.top, hin.bottom⟩
  · rintro ⟨⟨x, hx, hleft, hright⟩, y, hy, htop, hbottom⟩
    exact ⟨_, ⟨x, hx, y, hy, rfl⟩, hleft, htop, hright, hbottom⟩

/-- **The calls**, once the second stream is done. -/
theorem exists_calls {m : Rect} (hm : o.moved r = some m) (ok : Channel → Bool) :
    ∃ calls, rkipcOsdBmpCreate o ok r = some calls ∧ ∀ c ∈ calls, c.1 = .venc0 ∨
      (c = (.venc1, m) ∧ o.enableVenc1 = true) ∨ (c = (.jpeg, m) ∧ o.enableJpeg = true) := by
  have hone : ∀ (b : Bool) (c d : Channel × Rect), c ∈ (if b then [d] else []) →
      c = d ∧ b = true := by
    intro b c d hc
    cases b with
    | false => cases hc
    | true => exact ⟨List.mem_singleton.mp hc, rfl⟩
  unfold rkipcOsdBmpCreate
  rw [hm]
  simp only [Option.map_some]
  split
  · exact ⟨_, rfl, fun c hc => .inl (congrArg Prod.fst (hone _ _ _ hc).1)⟩
  · refine ⟨_, rfl, fun c hc => ?_⟩
    -- the first two channels, with or without the photos
    have hcases : c ∈ (if o.enableVenc0 then [(.venc0, r)] else []) ∨
        c ∈ (if o.enableVenc1 then [(.venc1, m)] else []) ∨
        c ∈ (if o.enableJpeg then [(.jpeg, m)] else []) := by
      split at hc
      · exact (List.mem_append.mp hc).imp_right .inl
      · rwa [List.mem_append, List.mem_append, or_assoc] at hc
    rcases hcases with hc | hc | hc
    · exact .inl (congrArg Prod.fst (hone _ _ _ hc).1)
    · exact .inr (.inl (hone _ _ _ hc))
    · exact .inr (.inr (hone _ _ _ hc))

/-- If all of them succeed, every channel is attached to. -/
theorem mem_calls {calls : List (Channel × Rect)}
    (h : rkipcOsdBmpCreate o (fun _ => true) r = some calls) :
    ∃ m, o.moved r = some m ∧ (o.enableVenc1 = true → (.venc1, m) ∈ calls) ∧
      (o.enableJpeg = true → (.jpeg, m) ∈ calls) := by
  simp only [rkipcOsdBmpCreate, Bool.not_true, Bool.and_false, Bool.false_eq_true, if_false,
    Option.map_eq_some_iff] at h
  obtain ⟨m, hm, rfl⟩ := h
  refine ⟨m, hm, fun h1 => ?_, fun hj => ?_⟩
  · simp [h1]
  · simp [hj]

/-- **A bitmap is part of every stream** if and only if there is room for it. -/
theorem holds_iff_fits (ho : o.Proper) (hr : r.Inside o.width0 o.height0) (hw : 0 ≤ r.width)
    (hh : 0 ≤ r.height) : o.Holds r ↔ o.Fits r := by
  have hmoved := fun h1 c => moved_inside_iff ho h1 hr.left hr.top hw hh c
  constructor
  · intro h
    obtain ⟨calls, hcalls, hinside⟩ := h fun _ => true
    obtain ⟨m, hm, hmem1, hmemJ⟩ := mem_calls hcalls
    constructor
    · intro h1
      exact (hmoved h1 .venc1).mp ⟨m, hm, hinside _ (hmem1 h1) (by simp)⟩
    · intro hj
      have hin := hinside _ (hmemJ hj) (by simp)
      split
      · next h1 => exact (hmoved h1 .jpeg).mp ⟨m, hm, hin⟩
      · next h1 =>
        rw [Overlay.moved, if_neg h1] at hm
        rwa [Option.some.inj hm]
  · intro h ok
    by_cases h1 : o.enableVenc1 = true
    · obtain ⟨m, hm, hin⟩ := (hmoved h1 .venc1).mpr (h.venc1 h1)
      obtain ⟨calls, hcalls, hall⟩ := exists_calls hm ok
      refine ⟨calls, hcalls, fun c hc hne => ?_⟩
      rcases hall c hc with h0 | ⟨rfl, -⟩ | ⟨rfl, hj⟩
      · exact absurd h0 hne
      · exact hin
      · have hroom := h.jpeg hj
        rw [if_pos h1] at hroom
        obtain ⟨m', hm', hin'⟩ := (hmoved h1 .jpeg).mpr hroom
        rwa [Option.some.inj (hm.symm.trans hm')]
    · obtain ⟨calls, hcalls, hall⟩ := exists_calls (m := r) (if_neg h1) ok
      refine ⟨calls, hcalls, fun c hc hne => ?_⟩
      rcases hall c hc with h0 | ⟨-, h1'⟩ | ⟨rfl, hj⟩
      · exact absurd h0 hne
      · exact absurd h1' h1
      · have hroom := h.jpeg hj
        rwa [if_neg h1] at hroom

end Overlays

theorem overlay_proper {p : Store} (hw0 : 0 < (overlay (params p)).width0)
    (hh0 : 0 < (overlay (params p)).height0) (hw1 : 0 < (overlay (params p)).width1)
    (hh1 : 0 < (overlay (params p)).height1) : (overlay (params p)).Proper where
  width0 := hw0
  height0 := hh0
  width1 := hw1
  height1 := hh1
  frame c := by
    cases c <;> exact ⟨inRange_int p _ (by decide), inRange_int p _ (by decide)⟩

/-- **The bitmap of a region in the first stream is part of every stream** if and only if there is
room for it. -/
theorem holds_iff {p : Store} {r : Rect} (hw0 : 0 < (overlay (params p)).width0)
    (hh0 : 0 < (overlay (params p)).height0) (hw1 : 0 < (overlay (params p)).width1)
    (hh1 : 0 < (overlay (params p)).height1)
    (hr : r.Inside (overlay (params p)).width0 (overlay (params p)).height0) (hw : 0 ≤ r.width)
    (hh : 0 ≤ r.height) : (overlay (params p)).Holds r ↔ (overlay (params p)).Fits r :=
  holds_iff_fits (overlay_proper hw0 hh0 hw1 hh1) hr hw hh

/-- A store with a large and a small stream, without photos. -/
def twoStreams : Store where
  file := none
  iniD := .live <| [("video.0:width", "1920"), ("video.0:height", "1080"),
    ("video.1:width", "704"), ("video.1:height", "576"),
    ("video.source:enable_jpeg", "0")].foldl
      (fun d entry => dictionarySet d (lit entry.1) (some (lit entry.2))) dictionaryNew

/-- A text in the middle. -/
theorem holds_twoStreams_iff : (overlay (params twoStreams)).Holds ⟨96, 96, 128, 32⟩ ↔
    (overlay (params twoStreams)).Fits ⟨96, 96, 128, 32⟩ := by
  refine holds_iff (by decide +kernel) (by decide +kernel) (by decide +kernel) (by decide +kernel)
    ⟨by decide, by decide, by decide +kernel, by decide +kernel⟩ (by decide) (by decide)

/-- **A wide text sticks out** of the second stream: its position is scaled, its size is not. -/
theorem wide_text_sticks_out : (0 < (overlay (params twoStreams)).width0 ∧
      0 < (overlay (params twoStreams)).height0 ∧ 0 < (overlay (params twoStreams)).width1 ∧
      0 < (overlay (params twoStreams)).height1) ∧
    Rect.Inside ⟨96, 96, 800, 32⟩ (overlay (params twoStreams)).width0
      (overlay (params twoStreams)).height0 ∧
    ¬ (overlay (params twoStreams)).Holds ⟨96, 96, 800, 32⟩ := by
  refine ⟨by decide +kernel, by decide +kernel, fun h => ?_⟩
  obtain ⟨calls, hcalls, hall⟩ := h fun _ => true
  have heq : rkipcOsdBmpCreate (overlay (params twoStreams)) (fun _ => true) ⟨96, 96, 800, 32⟩ =
      some [(.venc0, ⟨96, 96, 800, 32⟩), (.venc1, ⟨48, 64, 800, 32⟩)] := by
    decide +kernel
  obtain rfl := Option.some.inj (heq.symm.trans hcalls)
  have hin := hall (.venc1, ⟨48, 64, 800, 32⟩) (by simp) (by simp)
  have hright : (48 : ℤ) + 800 ≤ ((overlay (params twoStreams)).frame .venc1).1 := hin.right
  exact absurd hright (by decide +kernel)

end RkIpc.Video
