import CocoaWay.Presentation.Damage
import Mathlib.Algebra.Order.Floor.Ring
import Mathlib.Data.Rat.Floor

/-!
# The mapping from a surface to its buffer

* `transformSize`, `transformPointIn`, `toBuffer` : the transforms of the toolkit;
* `SurfaceMapping` : what a commit sets; `source`, `logicalSize`, `geometry`;
* `surfaceLogicalSize` : the size that bounds input.

Coordinates and sizes are exact, so that every one of them is finite.
-/

namespace CocoaWay.Surface
open Presentation (Transform i32Max)

/-! ## Transforms -/

def transformSize (t : Transform) (size : ℚ × ℚ) : ℚ × ℚ :=
  if t = .rotated90 ∨ t = .rotated270 ∨ t = .flipped90 ∨ t = .flipped270 then (size.2, size.1) else size

def transformPointIn (t : Transform) (point area : ℚ × ℚ) : ℚ × ℚ :=
  match t with
  | .normal => point
  | .rotated90 => (area.2 - point.2, point.1)
  | .rotated180 => (area.1 - point.1, area.2 - point.2)
  | .rotated270 => (point.2, area.1 - point.1)
  | .flipped => (area.1 - point.1, point.2)
  | .flipped90 => (point.2, point.1)
  | .flipped180 => (point.1, area.2 - point.2)
  | .flipped270 => (area.2 - point.2, area.1 - point.1)

def toBuffer (point : ℚ × ℚ) (scale : ℚ) (t : Transform) (area : ℚ × ℚ) : ℚ × ℚ :=
  let point := transformPointIn t point area
  (point.1 * scale, point.2 * scale)

/-! ## What a commit sets -/

structure Rectangle where
  loc : ℚ × ℚ
  size : ℚ × ℚ

/-- `Rectangle::from_size`. -/
def Rectangle.ofSize (size : ℚ × ℚ) : Rectangle := ⟨(0, 0), size⟩

/-- `ViewportCachedState`. -/
structure Viewport where
  src : Option Rectangle
  dst : Option (Int × Int)

structure SurfaceMapping where
  bufferScale : Int
  transform : Transform
  viewport : Viewport

/-- In the order of a triangle strip. -/
structure Corners (α : Type*) where
  bottomLeft : α
  bottomRight : α
  topLeft : α
  topRight : α

def Corners.map {α β : Type*} (f : α → β) (c : Corners α) : Corners β :=
  ⟨f c.bottomLeft, f c.bottomRight, f c.topLeft, f c.topRight⟩

/-- The least and the greatest coordinates that are sampled. -/
structure SampleBounds where
  lower : ℚ × ℚ
  upper : ℚ × ℚ

structure DrawGeometry where
  width : Int
  height : Int
  uv : Corners (ℚ × ℚ)
  sampleBounds : SampleBounds

namespace SurfaceMapping

variable (m : SurfaceMapping) (buffer : Int × Int)

/-- `buffer_scale.max(1)`. -/
def scale : ℚ := (max m.bufferScale 1 : Int)

/-- The crop in surface coordinates, and the size of the whole buffer in them. -/
def source : Option (Rectangle × (ℚ × ℚ)) :=
  if buffer.1 ≤ 0 ∨ buffer.2 ≤ 0 then none
  else
    let area := transformSize m.transform (buffer.1, buffer.2)
    let area := (area.1 / m.scale, area.2 / m.scale)
    let src := m.viewport.src.getD (.ofSize area)
    if src.loc.1 < 0 ∨ src.loc.2 < 0 ∨ src.size.1 ≤ 0 ∨ src.size.2 ≤ 0 ∨
        area.1 < src.loc.1 + src.size.1 ∨ area.2 < src.loc.2 + src.size.2 ∨
        (m.viewport.dst.isNone ∧ m.viewport.src.isSome ∧
          (Int.fract src.size.1 ≠ 0 ∨ Int.fract src.size.2 ≠ 0)) then none
    else some (src, area)

def logicalSize : Option (ℚ × ℚ) := do
  let (source, _) ← m.source buffer
  let size := match m.viewport.dst with
    | none => source.size
    | some size => (size.1, size.2)
  if 0 < size.1 ∧ 0 < size.2 then some size else none

/-- `f64::round`: halves are rounded away from zero. -/
def round (q : ℚ) : Int := if 0 ≤ q then ⌊q + 1 / 2⌋ else ⌈q - 1 / 2⌉

/-- The bounds of an axis, half a texel inside its least and greatest coordinates. -/
def insetAxis (low high : ℚ) (pixels : Int) : ℚ × ℚ :=
  let midpoint := (low + high) * (1 / 2)
  let inset : ℚ := (1 / 2) / pixels
  (min (low + inset) midpoint, max (high - inset) midpoint)

/-- The fold over the corners starts from infinite bounds, which the first corner replaces. -/
def sampleBounds (uv : Corners (ℚ × ℚ)) : SampleBounds :=
  let low := ((uv.bottomLeft ⊓ uv.bottomRight) ⊓ uv.topLeft) ⊓ uv.topRight
  let high := ((uv.bottomLeft ⊔ uv.bottomRight) ⊔ uv.topLeft) ⊔ uv.topRight
  let u := insetAxis low.1 high.1 buffer.1
  let v := insetAxis low.2 high.2 buffer.2
  ⟨(u.1, v.1), (u.2, v.2)⟩

def geometry (outputScale : ℚ) : Option DrawGeometry :=
  if outputScale ≤ 0 then none
  else do
    let (source, area) ← m.source buffer
    let size ← m.logicalSize buffer
    let width := round (size.1 * outputScale)
    let height := round (size.2 * outputScale)
    if width < 1 ∨ height < 1 ∨ i32Max < width ∨ i32Max < height then none
    else
      let uv := (⟨(0, 1), (1, 1), (0, 0), (1, 0)⟩ : Corners (ℚ × ℚ)).map fun corner =>
        let point := (source.loc.1 + corner.1 * source.size.1, source.loc.2 + corner.2 * source.size.2)
        let point := toBuffer point m.scale m.transform area
        (point.1 / buffer.1, point.2 / buffer.2)
      some ⟨width, height, uv, sampleBounds buffer uv⟩

end SurfaceMapping

/-- The size that bounds input: nothing is inside a surface without one. -/
def surfaceLogicalSize (buffer : Int × Int) (m : SurfaceMapping) : ℚ × ℚ := (m.logicalSize buffer).getD (0, 0)

end CocoaWay.Surface
