import CocoaWay.Lib.Traversal
import CocoaWay.Surface.Mapping
import Mathlib.Data.Finset.Card
import Mathlib.Data.Fintype.Defs

/-!
# The desktop

* `Desktop` : the tiles, the popups and the surfaces of a frame, as they are committed;
* `popupRootAndLocation` : the surface a popup is on at last, and where it is from there;
* `Frame` : the textures and what is drawn; `renderToplevelTree`, `renderToplevelPopups`, `renderTiles`;
* `desktopSurfaceUnder` : the surface under a point and its origin.

The surfaces are finitely many. Sums that the source does not check wrap around. Points, sizes and the output scale are
exact: the rounding of binary64 is left out.
-/

namespace CocoaWay.Surface
open Presentation (Rect i32Min i32Max saturate)
open Lib.Traversal

/-! ## Coordinates -/

def InRange (p : Int × Int) : Prop := (i32Min ≤ p.1 ∧ p.1 ≤ i32Max) ∧ i32Min ≤ p.2 ∧ p.2 ≤ i32Max

instance (p : Int × Int) : Decidable (InRange p) := inferInstanceAs (Decidable (_ ∧ _))

def checkedLocationSum (left right : Int × Int) : Option (Int × Int) :=
  if InRange (left + right) then some (left + right) else none

/-- A sum that is not checked. -/
def wrapping (p : Int × Int) : Int × Int := (Int.bmod p.1 (2 ^ 32), Int.bmod p.2 (2 ^ 32))

/-! ## Input regions -/

inductive RectangleKind | add | subtract
  deriving DecidableEq

/-- `Rectangle::contains`. -/
def rectContains (rect : Rect) (p : Int × Int) : Bool :=
  rect.x ≤ p.1 && p.1 < saturate (rect.x + rect.width) && rect.y ≤ p.2 && p.2 < saturate (rect.y + rect.height)

/-- `RegionAttributes::contains`: the last rectangle with the point decides. -/
def regionContains (rects : List (RectangleKind × Rect)) (p : Int × Int) : Bool :=
  rects.foldl (fun contains rect => if rectContains rect.2 p then decide (rect.1 = .add) else contains) false

/-! ## What is committed -/

structure SurfaceState (S : Type) where
  alive : Bool
  /-- Of a subsurface. -/
  parent : Option S
  offset : Int × Int
  mapping : SurfaceMapping
  inputRegion : Option (List (RectangleKind × Rect))

structure Popup (S : Type) where
  surface : S
  alive : Bool
  parent : Option S
  /-- Of the geometry committed last. -/
  location : Int × Int

structure Tile (S : Type) where
  surface : S
  alive : Bool
  /-- Where the window is in its surface. -/
  windowGeometry : Option (Int × Int)
  position : Int × Int

/-- A destroyed surface is taken out of the tree it is in, and its own tree is emptied; a tile goes with its toplevel.
-/
structure Desktop (S : Type) where
  tiles : List (Tile S)
  popups : List (Popup S)
  surfaces : S → SurfaceState S
  tree : S → Children S
  scale : ℚ
  tiles_alive : ∀ tile ∈ tiles, tile.alive = true
  tree_alive : ∀ root, ∀ surface ∈ (tree root).nodes root, (surfaces surface).alive = true

namespace Desktop

variable {S : Type} [DecidableEq S] (d : Desktop S)

/-! ## Popups -/

/-- The loop over the parents: the surfaces that were met, the parent and the location from it. -/
def climb [Fintype S] (visited : Finset S) (parent : S) (location : Int × Int) : Option (S × (Int × Int)) :=
  if _h : (d.surfaces parent).alive = false ∨ parent ∈ visited then none
  else
    match (d.surfaces parent).parent with
    | some subsurfaceParent => do
      let location ← checkedLocationSum location (d.surfaces parent).offset
      climb (insert parent visited) subsurfaceParent location
    | none =>
      match d.popups.find? (·.surface = parent) with
      | none => some (parent, location)
      | some parentPopup => do
        let location ← checkedLocationSum location parentPopup.location
        let above ← parentPopup.parent
        climb (insert parent visited) above location
termination_by (Finset.univ \ visited).card
decreasing_by
  all_goals
    have hparent : parent ∈ Finset.univ \ visited := Finset.mem_sdiff.2 ⟨Finset.mem_univ _, fun hmem => _h (.inr hmem)⟩
    rw [Finset.sdiff_insert]
    exact Finset.card_erase_lt_of_mem hparent

def popupRootAndLocation [Fintype S] (popup : Popup S) : Option (S × (Int × Int)) :=
  if popup.alive then do
    let parent ← popup.parent
    d.climb {popup.surface} parent popup.location
  else none

end Desktop

/-! ## Drawing -/

inductive PixelDrawResult | drawn | deferred | rejected
  deriving DecidableEq

/-- A buffer: its size, if its contents can be read, and what becomes of its upload in this frame. -/
structure Buffer where
  contents : Option (Int × Int)
  upload : PixelDrawResult

inductive BufferAssignment
  | newBuffer (buffer : Buffer)
  | removed

structure Draw (S : Type) where
  surface : S
  origin : Int × Int
  buffer : Int × Int
  x : Int
  y : Int
  geometry : DrawGeometry

/-- The sizes of the cached textures, the buffers that are not taken yet, what is drawn from the back to the front,
and the count that is returned. -/
structure Frame (S : Type) where
  textures : S → Option (Int × Int)
  buffers : S → Option BufferAssignment
  draws : List (Draw S)
  rendered : Nat

def Frame.start {S : Type} (textures : S → Option (Int × Int)) (buffers : S → Option BufferAssignment) : Frame S :=
  ⟨textures, buffers, [], 0⟩

namespace Desktop

variable {S : Type} [DecidableEq S] (d : Desktop S)

/-- Where a surface is, from the origin of its parent. -/
def surfaceOrigin (surface : S) (location : Int × Int) : Int × Int := wrapping (location + (d.surfaces surface).offset)

def drawAt (surface : S) (location buffer : Int × Int) (geometry : DrawGeometry) : Draw S :=
  let origin := d.surfaceOrigin surface location
  ⟨surface, origin, buffer, saturate (SurfaceMapping.round (origin.1 * d.scale)),
    saturate (SurfaceMapping.round (origin.2 * d.scale)), geometry⟩

/-- Whether the texture is cached and drawn. -/
def drawFromCache (surface : S) (location : Int × Int) (frame : Frame S) : Frame S × Bool :=
  match frame.textures surface with
  | none => (frame, false)
  | some size =>
    match (d.surfaces surface).mapping.geometry size d.scale with
    | none => (frame, false)
    | some geometry => ({ frame with draws := frame.draws ++ [d.drawAt surface location size geometry] }, true)

variable [Fintype S]

end Desktop

/-! ## Hit testing -/

namespace Desktop

variable {S : Type} [DecidableEq S] (d : Desktop S) (bufferSize : S → Option (Int × Int)) (point : ℚ × ℚ)

variable [Fintype S]

end Desktop

end CocoaWay.Surface
