import Mathlib.Algebra.Order.Ring.Int
import Mathlib.Tactic.Ring

/-!
# Rectangles

Rectangles of pixels in a picture, whose origin is its upper left corner, and what becomes of them
when the picture is turned.

## Main definitions

* `Rect`, `Rect.Inside`, `Rect.Solid`: rectangles, in a picture, and with pixels
* `Rect.CoversUpTo`: a rectangle covers another one but for a margin
* `Rect.turnRight`, `Rect.turnLeft`, `Rect.turnOver`: a quarter turn clockwise, one back, and half
  a turn

## Main results

* `Rect.turnLeft_turnRight`, `Rect.turnRight_turnLeft`, `Rect.turnOver_turnOver`: they are inverse
* `Rect.inside_turnOver`: a rectangle stays in the picture
-/

namespace Geometry

/-- A rectangle. -/
@[ext] structure Rect where
  x : ℤ
  y : ℤ
  width : ℤ
  height : ℤ
deriving DecidableEq, Repr

namespace Rect

/-- **In a picture** of the given size. -/
structure Inside (r : Rect) (width height : ℤ) : Prop where
  left : 0 ≤ r.x
  top : 0 ≤ r.y
  right : r.x + r.width ≤ width
  bottom : r.y + r.height ≤ height

/-- There are pixels in it. -/
structure Solid (r : Rect) : Prop where
  width : 0 < r.width
  height : 0 < r.height

/-- **All of `r'` is covered** but for `margin` pixels at each side. -/
structure CoversUpTo (r : Rect) (margin : ℤ) (r' : Rect) : Prop where
  left : r.x ≤ r'.x + margin
  top : r.y ≤ r'.y + margin
  right : r'.x + r'.width ≤ r.x + r.width + margin
  bottom : r'.y + r'.height ≤ r.y + r.height + margin

variable {r : Rect} {width height : ℤ}

theorem inside_iff : r.Inside width height ↔
    0 ≤ r.x ∧ 0 ≤ r.y ∧ r.x + r.width ≤ width ∧ r.y + r.height ≤ height :=
  ⟨fun h => ⟨h.left, h.top, h.right, h.bottom⟩, fun h => ⟨h.1, h.2.1, h.2.2.1, h.2.2.2⟩⟩

theorem solid_iff : r.Solid ↔ 0 < r.width ∧ 0 < r.height :=
  ⟨fun h => ⟨h.width, h.height⟩, fun h => ⟨h.1, h.2⟩⟩

instance : Decidable (r.Inside width height) := decidable_of_iff' _ inside_iff

instance : Decidable r.Solid := decidable_of_iff' _ solid_iff

/-! ## Turning -/

/-- Where a rectangle comes to when a picture of the given height is turned clockwise. -/
def turnRight (height : ℤ) (r : Rect) : Rect := ⟨height - r.y - r.height, r.x, r.height, r.width⟩

/-- Where a rectangle comes to when a picture of the given width is turned counterclockwise. -/
def turnLeft (width : ℤ) (r : Rect) : Rect := ⟨r.y, width - r.x - r.width, r.height, r.width⟩

/-- Where a rectangle comes to when a picture of the given size is turned upside down. -/
def turnOver (width height : ℤ) (r : Rect) : Rect :=
  ⟨width - r.x - r.width, height - r.y - r.height, r.width, r.height⟩

/-- **A quarter turn there and back.** The height of a picture is its width once it is turned. -/
theorem turnLeft_turnRight (height : ℤ) (r : Rect) : turnLeft height (turnRight height r) = r := by
  ext <;> simp only [turnLeft, turnRight]
  ring

theorem turnRight_turnLeft (width : ℤ) (r : Rect) : turnRight width (turnLeft width r) = r := by
  ext <;> simp only [turnLeft, turnRight]
  ring

theorem turnOver_turnOver (width height : ℤ) (r : Rect) :
    turnOver width height (turnOver width height r) = r := by
  ext <;> simp only [turnOver] <;> ring

theorem inside_turnOver :
    (turnOver width height r).Inside width height ↔ r.Inside width height := by
  simp only [inside_iff, turnOver]
  omega

end Rect

end Geometry
