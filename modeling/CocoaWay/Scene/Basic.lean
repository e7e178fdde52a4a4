import CocoaWay.Lib.Ancestry
import Mathlib.Data.Finset.Option

/-!
# The scene of the compositor

* `Surfaces` : what smithay keeps of the surfaces: parents, roles, role objects, callbacks not yet taken;
* `AppState` : the tables of the compositor; `surfaceAncestorChain`, `rootToplevelIdForSurface`;
* `removeSurfaceFromScene`, in three parts: `purge`, `dropFocus`, `repaint`;
* `commit`, `takeFrameCallbacksFor`, `cursorImage` and the handlers of roles.

A surface is named by the number of surfaces made before it, a role object likewise. The requests of a client that
smithay answers with an error leave everything as it is; a role is given to a live surface.
-/

namespace CocoaWay.Scene
open Lib.Ancestry

abbrev Surface := Nat
abbrev Callback := Nat

/-- `MAX_SURFACE_ANCESTORS`. -/
def maxSurfaceAncestors : Nat := 128

inductive Role
  | toplevel
  | popup
  | subsurface
  | cursorImage
  deriving DecidableEq

structure ToplevelSurface where
  wlSurface : Surface
  xdgToplevel : Nat
  deriving DecidableEq

structure PopupSurface where
  wlSurface : Surface
  xdgPopup : Nat
  deriving DecidableEq

structure PendingFrameCallback where
  rootSurface : Option Surface
  sourceSurface : Surface
  callback : Callback
  traceCommit : Option Nat
  deriving DecidableEq

inductive CompositorMessage
  | rootlessToplevelCreated (surface : Surface)
  | rootlessToplevelDestroyed (surface : Surface)
  | desktopToplevelCreated
  | surfaceDestroyed (surface : Surface)

/-! ## The layout -/

structure Tile where
  toplevel : ToplevelSurface
  position : Int × Int
  size : Int × Int
  isFocused : Bool := false
  deriving DecidableEq

def Tile.surfaceId (tile : Tile) : Surface := tile.toplevel.wlSurface

structure Layout where
  tiles : List Tile := []
  focusedIdx : Option Nat := none
  viewSize : Int × Int
  gap : Int := 0
  padding : Int := 0

namespace Layout

def calculateTileSize (layout : Layout) (count : Nat) : Int × Int :=
  if count = 0 then layout.viewSize
  else
    let availableW := layout.viewSize.1 - layout.padding * 2
    let availableH := layout.viewSize.2 - layout.padding * 2
    let tileW := (availableW - layout.gap * (count - 1)).tdiv count
    (max tileW 100, max availableH 100)

def calculateNewTilePosition (layout : Layout) : Int × Int := (layout.padding, layout.padding)

def relayout (layout : Layout) : Layout :=
  let tileSize := layout.calculateTileSize layout.tiles.length
  { layout with
    tiles := layout.tiles.mapIdx fun i tile =>
      { tile with
        position := (layout.padding + i * (tileSize.1 + layout.gap), layout.padding)
        size := tileSize
        isFocused := layout.focusedIdx = some i } }

def addTile (layout : Layout) (toplevel : ToplevelSurface) : Layout :=
  let tile : Tile :=
    { toplevel := toplevel
      position := layout.calculateNewTilePosition
      size := layout.calculateTileSize (layout.tiles.length + 1) }
  relayout { layout with
    tiles := layout.tiles ++ [tile]
    focusedIdx := some layout.tiles.length }

def removeTile (layout : Layout) (surface : Surface) : Layout :=
  match layout.tiles.findIdx? fun tile => tile.surfaceId = surface with
  | none => layout
  | some idx =>
    let tiles := layout.tiles.eraseIdx idx
    let focused := layout.focusedIdx.bind fun focused =>
      if tiles.length ≤ focused then (if tiles.isEmpty then none else some (tiles.length - 1)) else some focused
    relayout { layout with tiles := tiles, focusedIdx := focused }

def moveTile (layout : Layout) (surface : Surface) (x y : Int) : Layout :=
  match layout.tiles.findIdx? fun tile => tile.surfaceId = surface with
  | none => layout
  | some idx => { layout with tiles := layout.tiles.modify idx fun tile => { tile with position := (x, y) } }

end Layout

/-! ## Surfaces -/

/-- What smithay keeps of the surfaces. -/
structure Surfaces where
  made : Nat := 0
  alive : List Surface := []
  role : Surface → Option Role := fun _ => none
  /-- The parent of a subsurface. -/
  parent : Surface → Option Surface := fun _ => none
  /-- The parent in the popup attributes of the surface. -/
  popupParent : Surface → Option Surface := fun _ => none
  /-- The frame callbacks in the current state of the surface. -/
  frameCallbacks : Surface → List Callback := fun _ => []
  roleObjects : Nat := 0
  knownToplevels : List ToplevelSurface := []
  knownPopups : List PopupSurface := []

namespace Surfaces

/-- The surfaces `with_surface_tree_downward` visits from `root` on. -/
def tree (sm : Surfaces) (root : Surface) : List Surface :=
  sm.alive.filter fun x => root ∈ climb sm.parent sm.made x

/-- `set_role` gives the role. -/
def takesRole (sm : Surfaces) (surface : Surface) (role : Role) : Bool :=
  surface ∈ sm.alive && (sm.role surface = none || sm.role surface = some role)

def setRole (sm : Surfaces) (surface : Surface) (role : Role) : Surfaces :=
  { sm with role := Function.update sm.role surface (some role) }

def newSurface (sm : Surfaces) : Surfaces := { sm with made := sm.made + 1, alive := sm.made :: sm.alive }

/-- `set_parent`. -/
def setParent (sm : Surfaces) (child parent : Surface) : Option Surfaces :=
  if sm.takesRole child .subsurface ∧ parent ∈ sm.alive ∧ child ∉ climb sm.parent sm.made parent ∧
      sm.parent child = none then
    some { sm.setRole child .subsurface with parent := Function.update sm.parent child (some parent) }
  else none

def unsetParent (sm : Surfaces) (child : Surface) : Surfaces :=
  { sm with parent := Function.update sm.parent child none }

/-- `get_toplevel`: the surface has the role, and a new role object. -/
def newToplevel (sm : Surfaces) (surface : Surface) : Surfaces :=
  { sm.setRole surface .toplevel with
    roleObjects := sm.roleObjects + 1
    knownToplevels := ⟨surface, sm.roleObjects⟩ :: sm.knownToplevels }

/-- `get_popup`. -/
def newPopup (sm : Surfaces) (surface : Surface) (parent : Option Surface) : Surfaces :=
  { sm.setRole surface .popup with
    popupParent := Function.update sm.popupParent surface parent
    roleObjects := sm.roleObjects + 1
    knownPopups := ⟨surface, sm.roleObjects⟩ :: sm.knownPopups }

def forgetToplevel (sm : Surfaces) (toplevel : ToplevelSurface) : Surfaces :=
  { sm with knownToplevels := sm.knownToplevels.erase toplevel }

/-- The popup attributes of the surface are reset. -/
def forgetPopup (sm : Surfaces) (popup : PopupSurface) : Surfaces :=
  { sm with
    knownPopups := sm.knownPopups.erase popup
    popupParent := Function.update sm.popupParent popup.wlSurface none }

/-- `cleanup` of a destroyed surface. -/
def cleanup (sm : Surfaces) (surface : Surface) : Surfaces :=
  { sm with
    alive := sm.alive.filter (· ≠ surface)
    parent := fun x => if x = surface ∨ sm.parent x = some surface then none else sm.parent x }

end Surfaces

/-! ## Tables -/

structure AppState where
  /-- `presentation.is_rootless()`. -/
  rootless : Bool
  /-- `latency_trace.enabled()`. -/
  tracing : Bool
  toplevels : List ToplevelSurface := []
  popups : List PopupSurface := []
  layout : Layout
  pointerSurfaceBuffers : Surface → Option (Int × Int) := fun _ => none
  surfacePositions : Surface → Option (Int × Int) := fun _ => none
  pendingFrameCallbacks : List PendingFrameCallback := []
  cursorFrameCallbacks : List Callback := []
  /-- The surface that is dragged. -/
  dragState : Option Surface := none
  startDragRequest : Option Surface := none
  /-- The surface of `pointer_input.focus()`. -/
  inputFocus : Option Surface := none
  /-- `pointer.current_focus()`. -/
  pointerFocus : Option Surface := none
  keyboardFocus : Option Surface := none
  rootlessDirtySurfaces : Finset Surface := ∅
  traceFrames : Surface → Option Nat := fun _ => none
  nextTrace : Nat := 0
  /-- The surfaces `native_cursor` has pixels of. -/
  cursorSurfaces : Finset Surface := ∅
  needsRedraw : Bool := false
  /-- What is sent over `loop_signal`, oldest first. -/
  messages : List CompositorMessage := []

namespace AppState

def send (st : AppState) (message : CompositorMessage) : AppState := { st with messages := st.messages ++ [message] }

/-- `get_parent`, or else the parent of the popup. -/
def sceneParent (st : AppState) (sm : Surfaces) (surface : Surface) : Option Surface :=
  (sm.parent surface).or
    ((st.popups.find? fun popup => popup.wlSurface = surface).bind fun popup => sm.popupParent popup.wlSurface)

def surfaceAncestorChain (st : AppState) (sm : Surfaces) (surface : Surface) : Option (List Surface) :=
  chainFrom (st.sceneParent sm) maxSurfaceAncestors [] surface

def rootToplevelIdForSurface (st : AppState) (sm : Surfaces) (surface : Surface) : Option Surface := do
  let chain ← st.surfaceAncestorChain sm surface
  let root ← chain.getLast?
  let toplevel ← st.toplevels.find? fun toplevel => toplevel.wlSurface = root
  return toplevel.wlSurface

/-- The dirty set with a root, where there are native windows. -/
def dirtyWith (st : AppState) (root : Option Surface) : Finset Surface :=
  if st.rootless then st.rootlessDirtySurfaces ∪ root.toFinset else st.rootlessDirtySurfaces

/-! ## Removal -/

/-- The surface and the popups below it. -/
def sceneRoots (st : AppState) (sm : Surfaces) (surface : Surface) : List Surface :=
  surface :: (st.popups.filter fun popup =>
    popup.wlSurface ≠ surface ∧ (st.surfaceAncestorChain sm popup.wlSurface).any (surface ∈ ·)).map (·.wlSurface)

def retired (st : AppState) (sm : Surfaces) (surface : Surface) : List Surface :=
  (st.sceneRoots sm surface).flatMap sm.tree

/-- The tables without the retired surfaces. -/
def purge (st : AppState) (retired : List Surface) (surface : Surface) (wasToplevel : Bool) : AppState :=
  { st with
    inputFocus := st.inputFocus.filter (· ∉ retired)
    pointerSurfaceBuffers := fun x => if x ∈ retired then none else st.pointerSurfaceBuffers x
    surfacePositions := fun x => if x ∈ retired then none else st.surfacePositions x
    layout := st.layout.removeTile surface
    toplevels := st.toplevels.filter fun toplevel => toplevel.wlSurface ≠ surface
    popups := st.popups.filter fun popup => popup.wlSurface ∉ retired
    pendingFrameCallbacks := st.pendingFrameCallbacks.filter fun pending =>
      pending.sourceSurface ∉ retired ∧ ¬ (wasToplevel ∧ pending.rootSurface = some surface)
    rootlessDirtySurfaces :=
      if wasToplevel then st.rootlessDirtySurfaces.erase surface else st.rootlessDirtySurfaces
    traceFrames := if wasToplevel then Function.update st.traceFrames surface none else st.traceFrames
    dragState := st.dragState.filter (· ∉ retired)
    startDragRequest := st.startDragRequest.filter (· ∉ retired) }

/-- The focus of the keyboard, if it is retired, and that of the pointer, with what `clear_pointer_focus` ends. -/
def dropFocus (st : AppState) (retired : List Surface) : AppState :=
  let pointerLeft := st.pointerFocus.any (· ∈ retired)
  { st with
    pointerFocus := if pointerLeft then none else st.pointerFocus
    inputFocus := if pointerLeft then none else st.inputFocus
    dragState := if pointerLeft then none else st.dragState
    startDragRequest := if pointerLeft then none else st.startDragRequest
    keyboardFocus := st.keyboardFocus.filter (· ∉ retired) }

/-- The owner of what was removed is painted again. -/
def repaint (st : AppState) (surface : Surface) (wasToplevel : Bool) (affectedRoot : Option Surface) : AppState :=
  let dirty := if wasToplevel then st.rootlessDirtySurfaces else st.dirtyWith affectedRoot
  { st with
    rootlessDirtySurfaces := dirty
    needsRedraw := !st.rootless || decide dirty.Nonempty
    messages :=
      if st.rootless && wasToplevel then st.messages ++ [.rootlessToplevelDestroyed surface] else st.messages }

def removeSurfaceFromScene (st : AppState) (sm : Surfaces) (surface : Surface) (wasToplevel : Bool) : AppState :=
  let affectedRoot := st.rootToplevelIdForSurface sm surface
  let retired := st.retired sm surface
  ((st.purge retired surface wasToplevel).dropFocus retired).repaint surface wasToplevel affectedRoot

/-! ## Frame callbacks -/

/-- The root a callback is acknowledged with. -/
def resolvedRoot (st : AppState) (sm : Surfaces) (pending : PendingFrameCallback) : Option Surface :=
  pending.rootSurface.or
    (if pending.sourceSurface ∈ sm.alive then st.rootToplevelIdForSurface sm pending.sourceSurface else none)

/-- The callbacks that are selected, and the state without them. -/
def takeFrameCallbacksFor (st : AppState) (sm : Surfaces) :
    Option Surface → List PendingFrameCallback × AppState
  | none => (st.pendingFrameCallbacks, { st with pendingFrameCallbacks := [] })
  | some root =>
    (st.pendingFrameCallbacks.filter fun pending => st.resolvedRoot sm pending = some root,
      { st with pendingFrameCallbacks :=
          st.pendingFrameCallbacks.filter fun pending => st.resolvedRoot sm pending ≠ some root })

/-- The callbacks of the surfaces visited, in this order. -/
def newCallbacks (sm : Surfaces) (surface : Surface) (root : Option Surface) (trace : Option Nat)
    (visited : List Surface) : List PendingFrameCallback :=
  visited.flatMap fun x => (sm.frameCallbacks x).map fun callback =>
    { rootSurface := root
      sourceSurface := x
      callback := callback
      traceCommit := if x = surface then trace else none }

/-- `commit`. The surfaces of the tree are visited in some order; `buffers` is the buffer assignment in the current
state of each, with the size of a new buffer that is not empty. -/
def commit (st : AppState) (sm : Surfaces) (surface : Surface) (visited : List Surface)
    (buffers : Surface → Option (Option (Int × Int))) : AppState × Surfaces :=
  if sm.role surface = some .cursorImage then
    ({ st with
        cursorSurfaces := insert surface st.cursorSurfaces
        cursorFrameCallbacks := st.cursorFrameCallbacks ++ sm.frameCallbacks surface },
      { sm with frameCallbacks := Function.update sm.frameCallbacks surface [] })
  else
    let root := st.rootToplevelIdForSurface sm surface
    let trace := if st.tracing then some st.nextTrace else none
    ({ st with
        traceFrames := fun x => if st.tracing ∧ root = some x then trace else st.traceFrames x
        nextTrace := if st.tracing then st.nextTrace + 1 else st.nextTrace
        pointerSurfaceBuffers := fun x =>
          if x ∈ visited then (buffers x).getD (st.pointerSurfaceBuffers x) else st.pointerSurfaceBuffers x
        pendingFrameCallbacks := st.pendingFrameCallbacks ++ newCallbacks sm surface root trace visited
        rootlessDirtySurfaces := st.dirtyWith root
        needsRedraw := !st.rootless || root.isSome || st.needsRedraw },
      { sm with frameCallbacks := fun x => if x ∈ visited then [] else sm.frameCallbacks x })

/-- `cursor_image` with a surface. -/
def cursorImage (st : AppState) (surface : Surface) : AppState :=
  { st with
    cursorSurfaces := insert surface st.cursorSurfaces
    pendingFrameCallbacks := st.pendingFrameCallbacks.filter fun pending => pending.sourceSurface ≠ surface
    cursorFrameCallbacks := st.cursorFrameCallbacks ++
      (st.pendingFrameCallbacks.filter fun pending => pending.sourceSurface = surface).map (·.callback) }

def takeCursorFrameCallbacks (st : AppState) : List Callback × AppState :=
  (st.cursorFrameCallbacks, { st with cursorFrameCallbacks := [] })

/-! ## Roles -/

def isToplevel (st : AppState) (surface : Surface) : Bool :=
  st.toplevels.any fun toplevel => toplevel.wlSurface = surface

/-- `destroyed`, before the surface is cleaned up. -/
def destroyed (st : AppState) (sm : Surfaces) (surface : Surface) : AppState :=
  if surface ∈ st.cursorSurfaces then
    { st with
      cursorSurfaces := st.cursorSurfaces.erase surface
      pendingFrameCallbacks := st.pendingFrameCallbacks.filter fun pending => pending.sourceSurface ≠ surface }
  else
    let wasToplevel := st.isToplevel surface
    (st.removeSurfaceFromScene sm surface wasToplevel).send (.surfaceDestroyed surface)

def toplevelDestroyed (st : AppState) (sm : Surfaces) (toplevel : ToplevelSurface) : AppState :=
  if st.toplevels.any fun known => known.xdgToplevel = toplevel.xdgToplevel then
    st.removeSurfaceFromScene sm toplevel.wlSurface true
  else st

def popupDestroyed (st : AppState) (sm : Surfaces) (popup : PopupSurface) : AppState :=
  if st.popups.any fun known => known.xdgPopup = popup.xdgPopup then
    st.removeSurfaceFromScene sm popup.wlSurface false
  else st

/-- The toplevel of a role of the surface that is replaced is destroyed. -/
def withoutToplevel (st : AppState) (sm : Surfaces) (surface : Surface) : AppState :=
  match st.toplevels.find? fun known => known.wlSurface = surface with
  | some previous => st.toplevelDestroyed sm previous
  | none => st

def newToplevel (st : AppState) (sm : Surfaces) (toplevel : ToplevelSurface) : AppState :=
  if st.toplevels.any fun known => known.xdgToplevel = toplevel.xdgToplevel then st
  else
    let st := st.withoutToplevel sm toplevel.wlSurface
    { st with
      toplevels := st.toplevels ++ [toplevel]
      rootlessDirtySurfaces := st.dirtyWith toplevel.wlSurface
      layout := if st.rootless then st.layout else st.layout.addTile toplevel
      messages := st.messages ++
        [if st.rootless then .rootlessToplevelCreated toplevel.wlSurface else .desktopToplevelCreated]
      needsRedraw := true }

/-- The popup of a role of the surface that is replaced is destroyed. -/
def withoutPopup (st : AppState) (sm : Surfaces) (surface : Surface) : AppState :=
  match st.popups.find? fun known => known.wlSurface = surface with
  | some previous => st.popupDestroyed sm previous
  | none => st

/-- `new_popup`; `configured` is whether the configure could be sent. -/
def newPopup (st : AppState) (sm : Surfaces) (popup : PopupSurface) (configured : Bool) : AppState :=
  if st.popups.any fun known => known.xdgPopup = popup.xdgPopup then st
  else
    let st := st.withoutPopup sm popup.wlSurface
    if configured then
      let root := st.rootToplevelIdForSurface sm ((sm.popupParent popup.wlSurface).getD popup.wlSurface)
      { st with
        popups := st.popups ++ [popup]
        rootlessDirtySurfaces := st.dirtyWith root
        needsRedraw := true }
    else st

def repositionRequest (st : AppState) (sm : Surfaces) (popup : PopupSurface) : AppState :=
  { st with
    rootlessDirtySurfaces := st.dirtyWith (st.rootToplevelIdForSurface sm popup.wlSurface)
    needsRedraw := true }

end AppState

end CocoaWay.Scene
