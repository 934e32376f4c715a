import Mathlib.Order.Bounds.Basic
import RkIpc.Video.Roi

/-!
# Clips of the picture

`rk_region_clip_set_all` of `common/region_clip/region_clip.c` scales the position of a clip, lowers
it to a multiple of 16 and passes it on with the size. `DOWNALIGNTO16` rounds up and takes 16 off,
which is one block too many if there was nothing to round. The size is not compared with the room
there is.

The quotient is exact, and nothing is said about an `int` that overflows.

## Main definitions

* `rkRegionClipSetAll`: what `rk_region_clip_set_` is called with
* `ClipInDomain`: a clip that begins in the picture
* `Clips`, `ClipFits`: what is expected, and when it is so

## Main results

* `clips_iff`: the clips for which it is so
* `block_lost`: a clip at the beginning of a block
-/

namespace RkIpc.Video

open Text Param Osd Geometry Wire

/-- `snprintf(entry, 127, "region_clip.%d:…", id)`. -/
def clipEntry (id : ℤ) (name : String) : Str :=
  lit "region_clip." ++ decimal id ++ lit ":" ++ lit name

/-- `region_clip_data_s`. -/
structure RegionClipData where
  enabled : ℤ
  rect : Rect
deriving DecidableEq, Repr

/-- `DOWNALIGNTO16`. -/
def downAlignTo16 (v : ℤ) : Option ℤ := (alignSigned v).bind fun v => signed (v - 16)

/-- `(int)(position * (double)video / (double)normalized)`. -/
def scaleClip (position video normalized : ℤ) : Option ℤ :=
  if normalized = 0 then none else signed ((position * video).tdiv normalized)

/-- The position of a clip along an axis. -/
def clipPosition (position video normalized : ℤ) : Option ℤ := do
  let scaled ← scaleClip position video normalized
  let aligned ← downAlignTo16 scaled
  some (if aligned < 0 then 0 else aligned)

section SetAll

variable (q : Params)

/-- `normalized_screen_width` and `normalized_screen_height`. -/
def normalizedSize : ℤ × ℤ :=
  (q.int (lit "osd.common:normalized_screen_width") (-1),
    q.int (lit "osd.common:normalized_screen_height") (-1))

/-- `video_width` and `video_height`. -/
def videoSize (id : ℤ) : ℤ × ℤ :=
  (q.int (streamKey id "width") (-1), q.int (streamKey id "height") (-1))

/-- A clip is in the parameters. -/
def clipEnabled (id : ℤ) : ℤ := q.int (clipEntry id "enabled") (-1)

/-- The position of a clip in the parameters. -/
def position (id : ℤ) : ℤ × ℤ :=
  (q.int (clipEntry id "position_x") (-1), q.int (clipEntry id "position_y") (-1))

/-- The size of a clip in the parameters. -/
def clipSize (id : ℤ) : ℤ × ℤ :=
  (q.int (clipEntry id "width") (-1), q.int (clipEntry id "height") (-1))

/-- The body of the loop. -/
def regionClipData (id : ℤ) : Option RegionClipData := do
  let x ← clipPosition (position q id).1 (videoSize q id).1 (normalizedSize q).1
  let y ← clipPosition (position q id).2 (videoSize q id).2 (normalizedSize q).2
  some ⟨clipEnabled q id, ⟨x, y, (clipSize q id).1, (clipSize q id).2⟩⟩

/-- `MAX_REGION_CLIP_NUM`. -/
def maxRegionClipNum : ℕ := 3

/-- The clips there are. -/
def clipSlots : List ℤ :=
  ((List.range maxRegionClipNum).map Int.ofNat).filter fun id => clipEnabled q id ≠ -1

/-- **`rk_region_clip_set_all`**: what `rk_region_clip_set_` is called with. -/
def rkRegionClipSetAll : Option (List (ℤ × RegionClipData)) :=
  (clipSlots q).mapM fun id => (regionClipData q id).map (id, ·)

end SetAll

/-! ## What is expected -/

/-- **The beginning of a block**: the largest multiple of 16 not above the scaled position. -/
def BlockAt (position video normalized origin : ℤ) : Prop :=
  IsGreatest {k : ℤ | 16 ∣ k ∧ k * normalized ≤ position * video} origin

/-- **A clip that begins in the picture**, whose sizes are positive. -/
structure ClipInDomain (position video normalized : ℤ) : Prop where
  video_pos : 0 < video
  normalized_pos : 0 < normalized
  nonneg : 0 ≤ position
  inside : position * video < video * normalized

/-- **What `rk_region_clip_set_` should be called with**: the clip begins at a block, and is in the
picture if its size is not larger than that of the video. -/
structure ClipRight (q : Params) (id : ℤ) (d : RegionClipData) : Prop where
  x : BlockAt (position q id).1 (videoSize q id).1 (normalizedSize q).1 d.rect.x
  y : BlockAt (position q id).2 (videoSize q id).2 (normalizedSize q).2 d.rect.y
  inside : 1 ≤ (clipSize q id).1 → (clipSize q id).1 ≤ (videoSize q id).1 →
    1 ≤ (clipSize q id).2 → (clipSize q id).2 ≤ (videoSize q id).2 →
      d.rect.Inside (videoSize q id).1 (videoSize q id).2

/-- **All clips are right.** -/
def Clips (q : Params) : Prop :=
  ∃ calls, rkRegionClipSetAll q = some calls ∧ ∀ c ∈ calls, ClipRight q c.1 c.2

/-- **No block is lost**: the scaled position, rounded down, is zero or not the beginning of a
block, and can be rounded up. -/
def KeepsBlock (scaled : ℤ) : Prop := (scaled = 0 ∨ scaled % 16 ≠ 0) ∧ scaled + 15 < 2 ^ 31

/-- **A clip that is right**: no block is lost, and there is room from the block on. -/
structure ClipFits (position size video normalized : ℤ × ℤ) : Prop where
  x : KeepsBlock (position.1 * video.1 / normalized.1)
  y : KeepsBlock (position.2 * video.2 / normalized.2)
  room : 1 ≤ size.1 → size.1 ≤ video.1 → 1 ≤ size.2 → size.2 ≤ video.2 →
    position.1 * video.1 / normalized.1 / 16 * 16 + size.1 ≤ video.1 ∧
      position.2 * video.2 / normalized.2 / 16 * 16 + size.2 ≤ video.2

section Axis

variable {position video normalized origin : ℤ}

/-- The block is that of the position rounded down. -/
theorem blockAt_iff (h : ClipInDomain position video normalized) :
    BlockAt position video normalized origin ↔
      origin = position * video / normalized / 16 * 16 := by
  have hle : ∀ k, k * normalized ≤ position * video ↔ k ≤ position * video / normalized :=
    fun k => (Int.le_ediv_iff_mul_le h.normalized_pos).symm
  have hblock : IsGreatest {k : ℤ | 16 ∣ k ∧ k * normalized ≤ position * video}
      (position * video / normalized / 16 * 16) := by
    refine ⟨⟨⟨_, Int.mul_comm _ _⟩, (hle _).mpr (by omega)⟩, fun k hk => ?_⟩
    obtain ⟨⟨j, rfl⟩, hk⟩ := hk
    have hk := (hle _).mp hk
    omega
  constructor
  · intro horigin
    exact horigin.unique hblock
  · rintro rfl
    exact hblock

/-- **The position along an axis**: one block less at the beginning of a block. -/
theorem clipPosition_eq_some_iff (h : ClipInDomain position video normalized) :
    clipPosition position video normalized = some origin ↔
      position * video / normalized + 15 < 2 ^ 31 ∧
        origin = max 0 ((position * video / normalized + 15) / 16 * 16 - 16) := by
  have hprod : 0 ≤ position * video := Int.mul_nonneg h.nonneg h.video_pos.le
  have hquot : (position * video).tdiv normalized = position * video / normalized :=
    Int.tdiv_eq_ediv_of_nonneg hprod
  have hnonneg : 0 ≤ position * video / normalized := Int.ediv_nonneg hprod h.normalized_pos.le
  simp only [clipPosition, scaleClip, if_neg h.normalized_pos.ne', hquot, downAlignTo16,
    alignSigned, Option.bind_eq_bind, Option.bind_eq_some_iff, Option.map_eq_some_iff,
    signed_eq_some_iff, InRange]
  constructor
  · rintro ⟨_, ⟨-, rfl⟩, _, ⟨_, ⟨_, ⟨⟨-, hlt⟩, rfl⟩, rfl⟩, -, rfl⟩, horigin⟩
    refine ⟨hlt, ?_⟩
    rw [← Option.some.inj horigin]
    split <;> omega
  · rintro ⟨hlt, rfl⟩
    refine ⟨_, ⟨⟨by omega, by omega⟩, rfl⟩, _, ⟨_, ⟨_, ⟨⟨by omega, hlt⟩, rfl⟩, rfl⟩,
      ⟨by omega, by omega⟩, rfl⟩, ?_⟩
    congr 1
    split <;> omega

/-- **No block is lost** if and only if the position is that of the block. -/
theorem keepsBlock_iff (h : ClipInDomain position video normalized) :
    (∃ origin, clipPosition position video normalized = some origin ∧
      BlockAt position video normalized origin) ↔
      KeepsBlock (position * video / normalized) := by
  have hnonneg : 0 ≤ position * video / normalized :=
    Int.ediv_nonneg (Int.mul_nonneg h.nonneg h.video_pos.le) h.normalized_pos.le
  simp only [clipPosition_eq_some_iff h, blockAt_iff h, KeepsBlock]
  constructor
  · rintro ⟨_, ⟨hlt, rfl⟩, hblock⟩
    exact ⟨by omega, hlt⟩
  · rintro ⟨hkeeps, hlt⟩
    exact ⟨_, ⟨hlt, rfl⟩, by omega⟩

end Axis

/-- A function is called for each element of a list, and all calls are as they should be. -/
theorem exists_mapM_iff {α β : Type} {f : α → Option β} {P : α → β → Prop} {l : List α} :
    (∃ calls, (l.mapM fun a => (f a).map (a, ·)) = some calls ∧ ∀ c ∈ calls, P c.1 c.2) ↔
      ∀ a ∈ l, ∃ b, f a = some b ∧ P a b := by
  induction l with
  | nil => simp
  | cons a l ih =>
    rw [List.forall_mem_cons, ← ih]
    simp only [List.mapM_cons, Option.bind_eq_bind, Option.bind_eq_some_iff,
      Option.map_eq_some_iff, Option.pure_def]
    constructor
    · rintro ⟨_, ⟨_, ⟨b, hb, rfl⟩, calls, hcalls, heq⟩, h⟩
      obtain rfl := Option.some.inj heq
      obtain ⟨hP, h⟩ := List.forall_mem_cons.mp h
      exact ⟨⟨b, hb, hP⟩, calls, hcalls, h⟩
    · rintro ⟨⟨b, hb, hP⟩, calls, hcalls, h⟩
      exact ⟨_, ⟨_, ⟨b, hb, rfl⟩, calls, hcalls, rfl⟩, List.forall_mem_cons.mpr ⟨hP, h⟩⟩

section

variable {q : Params} {id : ℤ}

/-- A clip that begins in the picture, along both axes. -/
structure ClipProper (q : Params) (id : ℤ) : Prop where
  x : ClipInDomain (position q id).1 (videoSize q id).1 (normalizedSize q).1
  y : ClipInDomain (position q id).2 (videoSize q id).2 (normalizedSize q).2

/-- One clip. -/
theorem clipRight_iff (h : ClipProper q id) :
    (∃ d, regionClipData q id = some d ∧ ClipRight q id d) ↔
      ClipFits (position q id) (clipSize q id) (videoSize q id) (normalizedSize q) := by
  have hx0 : 0 ≤ (position q id).1 * (videoSize q id).1 / (normalizedSize q).1 :=
    Int.ediv_nonneg (Int.mul_nonneg h.x.nonneg h.x.video_pos.le) h.x.normalized_pos.le
  have hy0 : 0 ≤ (position q id).2 * (videoSize q id).2 / (normalizedSize q).2 :=
    Int.ediv_nonneg (Int.mul_nonneg h.y.nonneg h.y.video_pos.le) h.y.normalized_pos.le
  simp only [regionClipData, Option.bind_eq_bind, Option.bind_eq_some_iff]
  constructor
  · rintro ⟨_, ⟨x, hx, y, hy, heq⟩, hright⟩
    obtain rfl := Option.some.inj heq
    refine ⟨(keepsBlock_iff h.x).mp ⟨x, hx, hright.x⟩, (keepsBlock_iff h.y).mp ⟨y, hy, hright.y⟩,
      fun hw hW hh hH => ?_⟩
    have hinside := hright.inside hw hW hh hH
    rw [← (blockAt_iff h.x).mp hright.x, ← (blockAt_iff h.y).mp hright.y]
    exact ⟨hinside.right, hinside.bottom⟩
  · intro hfits
    obtain ⟨x, hx, hblockx⟩ := (keepsBlock_iff h.x).mpr hfits.x
    obtain ⟨y, hy, hblocky⟩ := (keepsBlock_iff h.y).mpr hfits.y
    refine ⟨_, ⟨x, hx, y, hy, rfl⟩, hblockx, hblocky, fun hw hW hh hH => ?_⟩
    have hroom := hfits.room hw hW hh hH
    have hleft := (blockAt_iff h.x).mp hblockx
    have htop := (blockAt_iff h.y).mp hblocky
    rw [← hleft, ← htop] at hroom
    exact ⟨by dsimp only; omega, by dsimp only; omega, hroom.1, hroom.2⟩

/-- **The clips are right** if and only if no block is lost and there is room from the block on. -/
theorem clips_iff (hclips : ∀ id ∈ clipSlots q, ClipProper q id) :
    Clips q ↔ ∀ id ∈ clipSlots q,
      ClipFits (position q id) (clipSize q id) (videoSize q id) (normalizedSize q) := by
  unfold Clips rkRegionClipSetAll
  rw [exists_mapM_iff]
  exact forall₂_congr fun id hid => clipRight_iff (hclips id hid)

end

/-- A store with one clip. -/
def oneClip (position : String) : Store where
  file := none
  iniD := .live <| [("osd.common:normalized_screen_width", "1920"),
    ("osd.common:normalized_screen_height", "1080"), ("video.0:width", "1920"),
    ("video.0:height", "1080"), ("region_clip.0:enabled", "1"),
    ("region_clip.0:position_x", position), ("region_clip.0:position_y", "0"),
    ("region_clip.0:width", "640"), ("region_clip.0:height", "480")].foldl
      (fun d entry => dictionarySet d (lit entry.1) (some (lit entry.2))) dictionaryNew

/-- The first pixel of the second block, and one behind it. -/
theorem clipSlots_oneClip : ∀ s ∈ ["16", "20"], clipSlots (params (oneClip s)) = [0] ∧
    videoSize (params (oneClip s)) 0 = (1920, 1080) ∧
    normalizedSize (params (oneClip s)) = (1920, 1080) ∧
    clipSize (params (oneClip s)) 0 = (640, 480) ∧
    (position (params (oneClip s)) 0).2 = 0 := by
  decide +kernel

theorem position_oneClip : (position (params (oneClip "16")) 0).1 = 16 ∧
    (position (params (oneClip "20")) 0).1 = 20 := by
  decide +kernel

theorem clipProper_oneClip : ∀ s ∈ ["16", "20"], ∀ id ∈ clipSlots (params (oneClip s)),
    ClipProper (params (oneClip s)) id := by
  intro s hs id hid
  obtain ⟨hslots, hvideo, hnormalized, -, hy⟩ := clipSlots_oneClip s hs
  rw [hslots, List.mem_singleton] at hid
  subst hid
  have hx : 0 ≤ (position (params (oneClip s)) 0).1 ∧
      (position (params (oneClip s)) 0).1 < 1920 := by
    rcases List.mem_pair.mp hs with rfl | rfl
    · rw [position_oneClip.1]
      decide
    · rw [position_oneClip.2]
      decide
  constructor
  · rw [hvideo, hnormalized]
    exact ⟨by decide, by decide, hx.1, by dsimp only; omega⟩
  · rw [hvideo, hnormalized, hy]
    exact ⟨by decide, by decide, by decide, by decide⟩

/-- A clip that begins within a block. -/
theorem clips_iff_oneClip : Clips (params (oneClip "20")) := by
  have hmem : "20" ∈ ["16", "20"] := by simp
  obtain ⟨hslots, hvideo, hnormalized, hsize, hy⟩ := clipSlots_oneClip "20" hmem
  refine (clips_iff (clipProper_oneClip "20" hmem)).mpr fun id hid => ?_
  rw [hslots, List.mem_singleton] at hid
  subst hid
  rw [hvideo, hnormalized, hsize, show position (params (oneClip "20")) 0 = (20, 0) from
    Prod.ext position_oneClip.2 hy]
  exact ⟨by unfold KeepsBlock; decide, by unfold KeepsBlock; decide, by decide⟩

/-- **A block is lost**: a clip that begins at the second block is passed on with the first one. -/
theorem block_lost :
    (∀ id ∈ clipSlots (params (oneClip "16")), ClipProper (params (oneClip "16")) id) ∧
      rkRegionClipSetAll (params (oneClip "16")) = some [(0, ⟨1, ⟨0, 0, 640, 480⟩⟩)] ∧
      ¬ Clips (params (oneClip "16")) := by
  have hmem : "16" ∈ ["16", "20"] := by simp
  obtain ⟨hslots, hvideo, hnormalized, -, -⟩ := clipSlots_oneClip "16" hmem
  have hproper := clipProper_oneClip "16" hmem
  have hcalls : rkRegionClipSetAll (params (oneClip "16")) =
      some [(0, ⟨1, ⟨0, 0, 640, 480⟩⟩)] := by
    decide +kernel
  refine ⟨hproper, hcalls, ?_⟩
  rintro ⟨calls, h, hright⟩
  obtain rfl := Option.some.inj (hcalls.symm.trans h)
  have hx := (blockAt_iff (hproper 0 (by rw [hslots]; simp)).x).mp
    (hright _ (List.mem_singleton_self _)).x
  rw [hvideo, hnormalized, position_oneClip.1] at hx
  exact absurd hx (by decide)

end RkIpc.Video
