import RkIpc.Geometry.Rect
import RkIpc.Osd.Entry

/-!
# Covers on the sensor

A privacy mask is drawn on the picture of the sensor, before it is scaled and turned for the
encoder. `rkipc_osd_cover_create` scales the rectangle of a mask up to the largest size of the
video, turns it back, and rounds its origin and its size up to multiples of 16. If they do not fit
then, the size is lowered, which is unsigned, until their sum does.

A quotient of `double` is exact, and nothing is said about a signed product or sum that overflows.

## Main definitions

* `Cover`, `rkipcOsdCoverCreate`: the sizes, and the rectangle that is attached
* `Cover.scaled`: where the mask is on the sensor
* `Covers`, `Cover.Clear`: what is expected, and when it is so

## Main results

* `fitUnsigned_eq`: the loops
* `covers_iff`: the masks that are covered
* `clear_of_aligned`: masks of whole blocks are
* `low_mask_escapes`: a mask at the border, turned over
-/

namespace RkIpc.Video

open Text Param Osd Geometry Transition Wire

/-- What the store says about the video. -/
structure Cover where
  rotation : ℤ
  width : ℤ
  height : ℤ
  maxWidth : ℤ
  maxHeight : ℤ
deriving DecidableEq, Repr

/-- The parameters, as they are read. -/
def cover (q : Params) : Cover where
  rotation := q.int (lit "video.source:rotation") 0
  width := q.int (lit "video.0:width") (-1)
  height := q.int (lit "video.0:height") (-1)
  maxWidth := q.int (lit "video.0:max_width") (-1)
  maxHeight := q.int (lit "video.0:max_height") (-1)

/-- `value * max / size`. -/
def scaleUp (value max size : ℤ) : Option ℤ := do
  let product ← signed (value * max)
  if size = 0 then none else signed (product.tdiv size)

/-- An `unsigned int`. -/
def unsigned (v : ℤ) : ℤ := v % 2 ^ 32

/-- The rectangle before the rotation of the encoder. -/
def Cover.turnBack (c : Cover) (m : Rect) : Option Rect :=
  if c.rotation = 90 then do
    let right ← signed (m.width + m.x)
    some ⟨(m.y * c.maxWidth).tdiv c.maxHeight,
      (c.maxHeight * c.maxWidth - right * c.maxHeight).tdiv c.maxWidth,
      unsigned ((m.height * c.maxWidth).tdiv c.maxHeight),
      unsigned ((m.width * c.maxHeight).tdiv c.maxWidth)⟩
  else if c.rotation = 270 then do
    let bottom ← signed (m.height + m.y)
    some ⟨(c.maxWidth * c.maxHeight - bottom * c.maxWidth).tdiv c.maxHeight,
      (m.x * c.maxHeight).tdiv c.maxWidth,
      unsigned ((m.height * c.maxWidth).tdiv c.maxHeight),
      unsigned ((m.width * c.maxHeight).tdiv c.maxWidth)⟩
  else if c.rotation = 180 then do
    let x ← signed (c.maxWidth - m.width)
    let x ← signed (x - m.x)
    let y ← signed (c.maxHeight - m.height)
    let y ← signed (y - m.y)
    some ⟨x, y, unsigned m.width, unsigned m.height⟩
  else some ⟨m.x, m.y, unsigned m.width, unsigned m.height⟩

/-- `UPALIGNTO16`, of an `int`. -/
def alignSigned (v : ℤ) : Option ℤ := (signed (v + 15)).map fun v => v / 16 * 16

/-- `UPALIGNTO16`, of an `unsigned int`. -/
def alignUnsigned (v : ℤ) : ℤ := unsigned (v + 15) / 16 * 16

/-- `while (x + size > limit) size -= 16;`, where the size is unsigned, and so are the sum and the
limit. -/
def fitUnsigned (x limit size : ℤ) : ℤ :=
  lowerLoop (fun size => unsigned (x + size)) unsigned 16 (unsigned limit)
    (unsigned (x + size) - unsigned limit).toNat size

/-- **`rkipc_osd_cover_create`**: the rectangle that `RK_MPI_RGN_AttachToChn` is given. -/
def rkipcOsdCoverCreate (c : Cover) (m : Rect) : Option Rect := do
  let x ← scaleUp m.x c.maxWidth c.width
  let y ← scaleUp m.y c.maxHeight c.height
  let width ← scaleUp m.width c.maxWidth c.width
  let height ← scaleUp m.height c.maxHeight c.height
  let r ← c.turnBack ⟨x, y, width, height⟩
  let x ← alignSigned r.x
  let y ← alignSigned r.y
  some ⟨x, y, fitUnsigned x c.maxWidth (alignUnsigned r.width),
    fitUnsigned y c.maxHeight (alignUnsigned r.height)⟩

/-! ## What is expected -/

/-- **The mask on the sensor**, scaled to its size and turned over with its picture. -/
def Cover.scaled (c : Cover) (m : Rect) : Rect :=
  let r : Rect := ⟨m.x * c.maxWidth / c.width, m.y * c.maxHeight / c.height,
    m.width * c.maxWidth / c.width, m.height * c.maxHeight / c.height⟩
  if c.rotation = 180 then r.turnOver c.maxWidth c.maxHeight else r

/-- **The mask is covered**: the rectangle that is attached is on the sensor, and hides the mask but
for 15 pixels at each side. -/
def Covers (c : Cover) (m : Rect) : Prop :=
  ∃ r, rkipcOsdCoverCreate c m = some r ∧ r.Inside c.maxWidth c.maxHeight ∧
    r.CoversUpTo 15 (c.scaled m)

/-- **No product overflows, and no origin is moved over the border.** -/
structure Cover.Clear (c : Cover) (m : Rect) : Prop where
  x : m.x * c.maxWidth < 2 ^ 31
  y : m.y * c.maxHeight < 2 ^ 31
  width : m.width * c.maxWidth < 2 ^ 31
  height : m.height * c.maxHeight < 2 ^ 31
  left : (c.scaled m).x ≤ c.maxWidth / 16 * 16
  top : (c.scaled m).y ≤ c.maxHeight / 16 * 16

/-! ## Loops -/

section Axis

variable {x limit size s : ℤ}

/-- The sum `x + size` determines the size. -/
theorem tracks_fitUnsigned (x limit : ℤ) :
    Tracks (fun size => unsigned (x + size)) unsigned 16 (unsigned limit)
      (fun t => 0 ≤ t ∧ t < 2 ^ 32 ∧ t % 16 = 0) (fun t => unsigned (t - x)) where
  read t ht := by
    show unsigned (x + unsigned (t - x)) = t
    unfold unsigned
    omega
  store t _ _ := by
    unfold unsigned
    omega
  next t ht hlt := by
    unfold unsigned at hlt
    omega

/-- **The size that the loop comes to.** If the origin is over the border, it wraps around. -/
theorem fitUnsigned_eq (hlimit : 0 < limit) (hlimit' : limit < 2 ^ 31) (hx : 0 ≤ x)
    (hx' : x < 2 ^ 31) (hs : 0 ≤ size) (hs' : size ≤ 2 ^ 31) (hx16 : x % 16 = 0)
    (hs16 : size % 16 = 0) : fitUnsigned x limit size =
      if x + size ≤ limit then size else unsigned (limit / 16 * 16 - x) := by
  have hsum : unsigned (x + size) = x + size := by
    unfold unsigned
    omega
  have hlim : unsigned limit = limit := by
    unfold unsigned
    omega
  have hsize : unsigned (x + size - x) = size := by
    unfold unsigned
    omega
  have h := (tracks_fitUnsigned x limit).lowerLoop_eq (s := x + size) (by omega)
    ⟨by omega, by omega, by omega⟩ (unsigned (x + size) - unsigned limit).toNat (by omega)
  rw [hsize] at h
  rw [fitUnsigned, h, hlim]
  split
  · next hle => rw [lowered_of_le hle, hsize]
  · next hlt =>
    have hmod : (limit - (x + size)) % 16 = limit % 16 := by omega
    rw [lowered_of_lt (not_le.mp hlt), hmod, show limit - limit % 16 = limit / 16 * 16 by omega]

/-- **Along an axis** the mask is covered if and only if its origin is not moved over the border. -/
theorem axis_covered_iff (hlimit : limit < 2 ^ 31) (hx : 0 ≤ x) (hs : 0 ≤ s) (hfit : x + s ≤ limit)
    (hpos : 0 < limit) :
    (∃ x', alignSigned x = some x' ∧
      let size := fitUnsigned x' limit (alignUnsigned (unsigned s))
      (0 ≤ x' ∧ x' + size ≤ limit) ∧ x' ≤ x + 15 ∧ x + s ≤ x' + size + 15) ↔
      x ≤ limit / 16 * 16 := by
  have halign : alignUnsigned (unsigned s) = (s + 15) / 16 * 16 := by
    unfold alignUnsigned unsigned
    omega
  simp only [alignSigned, Option.map_eq_some_iff, signed_eq_some_iff, halign]
  constructor
  · rintro ⟨_, ⟨_, ⟨hrange, rfl⟩, rfl⟩, ⟨hx0, hright⟩, -⟩
    have hlt := hrange.2
    by_contra hx
    -- the origin is over the border, and the size wraps around
    rw [fitUnsigned_eq hpos hlimit (by omega) (by omega) (by omega) (by omega) (by omega)
      (by omega)] at hright
    unfold unsigned at hright
    split at hright <;> omega
  · intro hx
    refine ⟨_, ⟨_, ⟨⟨by omega, by omega⟩, rfl⟩, rfl⟩, ?_⟩
    rw [fitUnsigned_eq hpos hlimit (by omega) (by omega) (by omega) (by omega) (by omega)
      (by omega)]
    unfold unsigned
    split <;> omega

end Axis

/-! ## Masks -/

/-- **A measure that is scaled**: the product must be in range, the quotient is then. -/
theorem scaleUp_eq_some_iff {v max size u : ℤ} (hv : 0 ≤ v) (hmax : 0 ≤ max) (hsize : 0 < size) :
    scaleUp v max size = some u ↔ v * max < 2 ^ 31 ∧ v * max / size = u := by
  have hprod : 0 ≤ v * max := Int.mul_nonneg hv hmax
  have hquot : (v * max).tdiv size = v * max / size := Int.tdiv_eq_ediv_of_nonneg hprod
  have hle : v * max / size ≤ v * max := Int.ediv_le_self _ hprod
  have hnonneg : 0 ≤ v * max / size := Int.ediv_nonneg hprod hsize.le
  unfold scaleUp
  simp only [Option.bind_eq_bind, Option.bind_eq_some_iff, signed_eq_some_iff, if_neg hsize.ne',
    InRange]
  constructor
  · rintro ⟨_, ⟨⟨-, hlt⟩, rfl⟩, -, heq⟩
    exact ⟨hlt, hquot.symm.trans heq⟩
  · rintro ⟨hlt, rfl⟩
    exact ⟨_, ⟨⟨by omega, hlt⟩, rfl⟩, by omega, hquot⟩

/-- What is part of the smaller picture is so of the larger one when it is scaled. -/
theorem scaled_add_le {x size limit max : ℤ} (hlimit : 0 < limit) (hmax : 0 ≤ max)
    (h : x + size ≤ limit) : x * max / limit + size * max / limit ≤ max := by
  rw [← Int.mul_le_mul_right hlimit, Int.add_mul]
  have hx : x * max / limit * limit ≤ x * max := Int.ediv_mul_le _ hlimit.ne'
  have hs : size * max / limit * limit ≤ size * max := Int.ediv_mul_le _ hlimit.ne'
  have hsum : (x + size) * max ≤ limit * max := Int.mul_le_mul_of_nonneg_right h hmax
  linarith

/-- The sizes of the video are numbers of pixels. -/
structure Cover.Proper (c : Cover) : Prop where
  width : 0 < c.width
  height : 0 < c.height
  maxWidth : 0 < c.maxWidth
  maxHeight : 0 < c.maxHeight
  widthInRange : InRange c.maxWidth
  heightInRange : InRange c.maxHeight

section Masks

variable {c : Cover} {m : Rect}

/-- Without a quarter turn, the mask is turned with its picture. -/
theorem turnBack_eq (hrot : c.rotation = 0 ∨ c.rotation = 180) (hc : c.Proper) {r : Rect}
    (hx : 0 ≤ r.x) (hy : 0 ≤ r.y) (hw : 0 ≤ r.width) (hh : 0 ≤ r.height)
    (hright : r.x + r.width ≤ c.maxWidth) (hbottom : r.y + r.height ≤ c.maxHeight) :
    c.turnBack r =
      let t := if c.rotation = 180 then r.turnOver c.maxWidth c.maxHeight else r
      some ⟨t.x, t.y, unsigned r.width, unsigned r.height⟩ := by
  have hW := hc.widthInRange.2
  have hH := hc.heightInRange.2
  unfold Cover.turnBack
  rcases hrot with h | h
  · rw [h]
    rfl
  · rw [h, if_neg (by decide), if_neg (by decide), if_pos rfl, if_pos rfl]
    simp only [signed_of_inRange (v := c.maxWidth - r.width) ⟨by omega, by omega⟩,
      signed_of_inRange (v := c.maxHeight - r.height) ⟨by omega, by omega⟩,
      signed_of_inRange (v := c.maxWidth - r.width - r.x) ⟨by omega, by omega⟩,
      signed_of_inRange (v := c.maxHeight - r.height - r.y) ⟨by omega, by omega⟩,
      Option.bind_eq_bind, Option.bind_some, Rect.turnOver]
    rw [sub_right_comm, sub_right_comm c.maxHeight]

/-- A mask in the picture of the video. -/
structure Cover.Mask (c : Cover) (m : Rect) : Prop where
  inside : m.Inside c.width c.height
  width : 0 ≤ m.width
  height : 0 ≤ m.height

/-- The mask on the sensor is in its picture. -/
theorem scaled_inside (hrot : c.rotation = 0 ∨ c.rotation = 180) (hc : c.Proper)
    (hm : c.Mask m) :
    (c.scaled m).Inside c.maxWidth c.maxHeight ∧
      (c.scaled m).width = m.width * c.maxWidth / c.width ∧
      (c.scaled m).height = m.height * c.maxHeight / c.height := by
  have hinside : Rect.Inside ⟨m.x * c.maxWidth / c.width, m.y * c.maxHeight / c.height,
      m.width * c.maxWidth / c.width, m.height * c.maxHeight / c.height⟩ c.maxWidth c.maxHeight :=
    ⟨Int.ediv_nonneg (Int.mul_nonneg hm.inside.left hc.maxWidth.le) hc.width.le,
      Int.ediv_nonneg (Int.mul_nonneg hm.inside.top hc.maxHeight.le) hc.height.le,
      scaled_add_le hc.width hc.maxWidth.le hm.inside.right,
      scaled_add_le hc.height hc.maxHeight.le hm.inside.bottom⟩
  rcases hrot with h | h
  · rw [Cover.scaled, if_neg (by omega)]
    exact ⟨hinside, rfl, rfl⟩
  · rw [Cover.scaled, if_pos h]
    exact ⟨Rect.inside_turnOver.mpr hinside, rfl, rfl⟩

theorem covers_iff_clear (hrot : c.rotation = 0 ∨ c.rotation = 180) (hc : c.Proper)
    (hm : c.Mask m) : Covers c m ↔ c.Clear m := by
  obtain ⟨hinside, hwidth, hheight⟩ := scaled_inside hrot hc hm
  have hw : 0 ≤ m.width * c.maxWidth / c.width :=
    Int.ediv_nonneg (Int.mul_nonneg hm.width hc.maxWidth.le) hc.width.le
  have hh : 0 ≤ m.height * c.maxHeight / c.height :=
    Int.ediv_nonneg (Int.mul_nonneg hm.height hc.maxHeight.le) hc.height.le
  have hX := axis_covered_iff hc.widthInRange.2 hinside.left (hwidth ▸ hw) hinside.right hc.maxWidth
  have hY := axis_covered_iff hc.heightInRange.2 hinside.top (hheight ▸ hh) hinside.bottom
    hc.maxHeight
  have hturn := turnBack_eq (r := ⟨m.x * c.maxWidth / c.width, m.y * c.maxHeight / c.height,
    m.width * c.maxWidth / c.width, m.height * c.maxHeight / c.height⟩) hrot hc
    (Int.ediv_nonneg (Int.mul_nonneg hm.inside.left hc.maxWidth.le) hc.width.le)
    (Int.ediv_nonneg (Int.mul_nonneg hm.inside.top hc.maxHeight.le) hc.height.le) hw hh
    (scaled_add_le hc.width hc.maxWidth.le hm.inside.right)
    (scaled_add_le hc.height hc.maxHeight.le hm.inside.bottom)
  change c.turnBack _ = some ⟨(c.scaled m).x, (c.scaled m).y, _, _⟩ at hturn
  rw [hwidth] at hX
  rw [hheight] at hY
  have hscale := fun {v u : ℤ} (hv : 0 ≤ v) =>
    scaleUp_eq_some_iff (u := u) hv hc.maxWidth.le hc.width
  have hscale' := fun {v u : ℤ} (hv : 0 ≤ v) =>
    scaleUp_eq_some_iff (u := u) hv hc.maxHeight.le hc.height
  constructor
  · rintro ⟨r, hr, hin, hcov⟩
    simp only [rkipcOsdCoverCreate, Option.bind_eq_bind, Option.bind_eq_some_iff] at hr
    obtain ⟨_, hsx, _, hsy, _, hsw, _, hsh, t, ht, x', hx', y', hy', hr⟩ := hr
    obtain ⟨hpx, rfl⟩ := (hscale hm.inside.left).mp hsx
    obtain ⟨hpy, rfl⟩ := (hscale' hm.inside.top).mp hsy
    obtain ⟨hpw, rfl⟩ := (hscale hm.width).mp hsw
    obtain ⟨hph, rfl⟩ := (hscale' hm.height).mp hsh
    obtain rfl := Option.some.inj (hturn.symm.trans ht)
    obtain rfl := Option.some.inj hr
    obtain ⟨hleft, htop, hright, hbottom⟩ := hcov
    rw [hwidth] at hright
    rw [hheight] at hbottom
    exact ⟨hpx, hpy, hpw, hph, hX.mp ⟨x', hx', ⟨hin.left, hin.right⟩, hleft, hright⟩,
      hY.mp ⟨y', hy', ⟨hin.top, hin.bottom⟩, htop, hbottom⟩⟩
  · rintro ⟨hpx, hpy, hpw, hph, hleft, htop⟩
    obtain ⟨x', hx', hinX, hleft, hright⟩ := hX.mpr hleft
    obtain ⟨y', hy', hinY, htop, hbottom⟩ := hY.mpr htop
    refine ⟨⟨x', y', _, _⟩, ?_, ⟨hinX.1, hinY.1, hinX.2, hinY.2⟩, ⟨hleft, htop, ?_, ?_⟩⟩
    · simp only [rkipcOsdCoverCreate, (hscale hm.inside.left).mpr ⟨hpx, rfl⟩,
        (hscale' hm.inside.top).mpr ⟨hpy, rfl⟩, (hscale hm.width).mpr ⟨hpw, rfl⟩,
        (hscale' hm.height).mpr ⟨hph, rfl⟩, Option.bind_eq_bind, Option.bind_some, hturn, hx', hy']
      rfl
    · rwa [hwidth]
    · rwa [hheight]

end Masks

/-- The sizes in a store. -/
theorem cover_proper {p : Store} (hw : 0 < (cover (params p)).width)
    (hW : (cover (params p)).width ≤ (cover (params p)).maxWidth)
    (hh : 0 < (cover (params p)).height)
    (hH : (cover (params p)).height ≤ (cover (params p)).maxHeight) : (cover (params p)).Proper :=
  ⟨hw, hh, hw.trans_le hW, hh.trans_le hH, inRange_int p _ (by decide), inRange_int p _ (by decide)⟩

/-- **A mask is covered** if and only if no product overflows and no origin is moved over the
border. -/
theorem covers_iff {p : Store} {m : Rect} (hrot : (cover (params p)).rotation = 0 ∨
      (cover (params p)).rotation = 180)
    (hw : 0 < (cover (params p)).width)
    (hW : (cover (params p)).width ≤ (cover (params p)).maxWidth)
    (hh : 0 < (cover (params p)).height)
    (hH : (cover (params p)).height ≤ (cover (params p)).maxHeight)
    (hm : (cover (params p)).Mask m) : Covers (cover (params p)) m ↔ (cover (params p)).Clear m :=
  covers_iff_clear hrot (cover_proper hw hW hh hH) hm

/-- A store with the sizes of the video, whose picture is turned over. -/
def turnedOver : Store where
  file := none
  iniD := .live <| [("video.source:rotation", "180"), ("video.0:width", "1920"),
    ("video.0:height", "1080"), ("video.0:max_width", "1920"), ("video.0:max_height", "1080")].foldl
      (fun d entry => dictionarySet d (lit entry.1) (some (lit entry.2))) dictionaryNew

theorem cover_turnedOver : cover (params turnedOver) = ⟨180, 1920, 1080, 1920, 1080⟩ := by
  decide +kernel

/-- A mask in the middle. -/
theorem covers_turnedOver_iff : Covers (cover (params turnedOver)) ⟨64, 64, 128, 128⟩ ↔
    (cover (params turnedOver)).Clear ⟨64, 64, 128, 128⟩ := by
  apply covers_iff
  · exact .inr (by rw [cover_turnedOver])
  · rw [cover_turnedOver]
    decide
  · rw [cover_turnedOver]
  · rw [cover_turnedOver]
    decide
  · rw [cover_turnedOver]
  · rw [cover_turnedOver]
    exact ⟨by decide, by decide, by decide⟩

/-- **A mask of whole blocks is covered**, if no product overflows. -/
theorem clear_of_aligned {c : Cover} {m : Rect} (hrot : c.rotation = 0 ∨ c.rotation = 180)
    (hc : c.Proper) (hW : c.width ≤ c.maxWidth) (hH : c.height ≤ c.maxHeight) (hm : c.Mask m)
    (hsolid : m.Solid) (hw16 : m.width % 16 = 0) (hh16 : m.height % 16 = 0)
    (hx : m.x * c.maxWidth < 2 ^ 31) (hy : m.y * c.maxHeight < 2 ^ 31)
    (hw : m.width * c.maxWidth < 2 ^ 31) (hh : m.height * c.maxHeight < 2 ^ 31) : c.Clear m := by
  obtain ⟨hinside, hwidth, hheight⟩ := scaled_inside hrot hc hm
  -- a block is not smaller when it is scaled up
  have hgrow : m.width ≤ (c.scaled m).width := by
    rw [hwidth, Int.le_ediv_iff_mul_le hc.width]
    exact Int.mul_le_mul_of_nonneg_left hW hm.width
  have hgrow' : m.height ≤ (c.scaled m).height := by
    rw [hheight, Int.le_ediv_iff_mul_le hc.height]
    exact Int.mul_le_mul_of_nonneg_left hH hm.height
  have hpos := hsolid.width
  have hpos' := hsolid.height
  have hright := hinside.right
  have hbottom := hinside.bottom
  exact ⟨hx, hy, hw, hh, by omega, by omega⟩

/-- **A mask at the border escapes**: its origin is moved over the border when it is rounded up, and
its height wraps around. So does one without height. -/
theorem low_mask_escapes : cover (params turnedOver) = ⟨180, 1920, 1080, 1920, 1080⟩ ∧
    ∀ m ∈ [(⟨0, 0, 64, 4⟩ : Rect), ⟨0, 0, 64, 0⟩], (cover (params turnedOver)).Mask m ∧
      m.x % 16 = 0 ∧ m.y % 16 = 0 ∧
      rkipcOsdCoverCreate (cover (params turnedOver)) m = some ⟨1856, 1088, 64, 4294967280⟩ ∧
      ¬ Covers (cover (params turnedOver)) m := by
  refine ⟨cover_turnedOver, ?_⟩
  rw [cover_turnedOver]
  have hrect : ∀ m ∈ [(⟨0, 0, 64, 4⟩ : Rect), ⟨0, 0, 64, 0⟩],
      rkipcOsdCoverCreate ⟨180, 1920, 1080, 1920, 1080⟩ m =
        some ⟨1856, 1088, 64, 4294967280⟩ := by
    decide +kernel
  have haligned : ∀ m ∈ [(⟨0, 0, 64, 4⟩ : Rect), ⟨0, 0, 64, 0⟩],
      (m.Inside 1920 1080 ∧ 0 ≤ m.width ∧ 0 ≤ m.height) ∧ m.x % 16 = 0 ∧ m.y % 16 = 0 := by
    decide
  intro m hm
  obtain ⟨⟨hinside, hw, hh⟩, hx, hy⟩ := haligned m hm
  refine ⟨⟨hinside, hw, hh⟩, hx, hy, hrect m hm, ?_⟩
  · rintro ⟨r, hr, hinside, -⟩
    rw [hrect m hm] at hr
    obtain rfl := Option.some.inj hr
    exact absurd hinside.bottom (by decide)

end RkIpc.Video
