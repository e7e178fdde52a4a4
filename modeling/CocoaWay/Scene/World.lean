import CocoaWay.Lib.System
import CocoaWay.Scene.Basic

/-!
# The compositor with its clients and native windows

* `World` : surfaces, tables and native windows, with what became of each frame callback;
* `Event`, `World.step` : a request of a client, a turn of the main loop, or a message it handles;
* `scene` : any order of events.

Requests come in any order, as they do when a client is gone. A commit is one when it is applied: smithay holds back the
state of a synchronized subsurface until then.
-/

namespace CocoaWay.Scene
open Lib Lib.Ancestry

/-- A frame callback is named by the number of callbacks committed before it. -/
structure World where
  surfaces : Surfaces := {}
  app : AppState
  /-- The surfaces of the native windows. -/
  windows : List Surface := []
  /-- The callbacks committed so far. -/
  commits : Nat := 0
  /-- The root a callback was committed with. -/
  recorded : Callback → Option Surface := fun _ => none
  /-- The callbacks that were told the time of a frame, oldest first. -/
  completed : List Callback := []
  /-- The callbacks that left the queues otherwise. -/
  dropped : List Callback := []

inductive Event
  | newSurface
  | setParent (child parent : Surface)
  | unsetParent (child : Surface)
  | newToplevel (surface : Surface)
  | newPopup (surface : Surface) (parent : Option Surface) (configured : Bool)
  | toplevelDestroyed (toplevel : ToplevelSurface)
  | popupDestroyed (popup : PopupSurface)
  | surfaceDestroyed (surface : Surface)
  | repositionRequest (popup : PopupSurface)
  | commit (surface : Surface) (callbacks : Nat) (visited : List Surface)
      (buffers : Surface → Option (Option (Int × Int)))
  | cursorImage (surface : Surface)
  /-- `send_frame_callbacks_for`. -/
  | acknowledge (root : Option Surface)
  /-- The clock of the cursor is due. -/
  | cursorClock
  | retireTraceFrames (submitted : List Nat)
  /-- The pointer or the keyboard goes elsewhere, a drag starts or ends. -/
  | input (inputFocus pointerFocus keyboardFocus dragState startDragRequest : Option Surface)
  | moveTile (surface : Surface) (x y : Int)
  /-- The main loop takes a message; `opened` is whether a window could be created. -/
  | deliver (opened : Bool)
  /-- A native window is to be painted. -/
  | dirtyWindow (surface : Surface)
  /-- A native window is painted, or about to be. -/
  | cleanWindow (surface : Surface)

namespace AppState

/-- The callbacks of both queues. -/
def waiting (st : AppState) : List Callback := st.pendingFrameCallbacks.map (·.callback) ++ st.cursorFrameCallbacks

end AppState

namespace World

variable {w w' : World} {surface : Surface}

/-- The world after an event that completes callbacks. -/
def next (w : World) (surfaces : Surfaces) (app : AppState) (done : List Callback) : World :=
  { w with
    surfaces := surfaces
    app := app
    completed := w.completed ++ done
    dropped := w.dropped ++ w.app.waiting.filter fun callback => callback ∉ app.waiting ∧ callback ∉ done }

/-- The root the callbacks of a commit are recorded with. -/
def commitRoot (w : World) (surface : Surface) : Option Surface :=
  if w.surfaces.role surface = some .cursorImage then none else w.app.rootToplevelIdForSurface w.surfaces surface

def commit (w : World) (surface : Surface) (callbacks : Nat) (visited : List Surface)
    (buffers : Surface → Option (Option (Int × Int))) : Option World :=
  if surface ∈ w.surfaces.alive ∧ visited.Perm (w.surfaces.tree surface) then
    let fresh := List.range' w.commits callbacks
    let sm := { w.surfaces with
      frameCallbacks := Function.update w.surfaces.frameCallbacks surface (w.surfaces.frameCallbacks surface ++ fresh) }
    let committed := w.app.commit sm surface visited buffers
    some { w.next committed.2 committed.1 [] with
      commits := w.commits + callbacks
      recorded := fun callback => if callback ∈ fresh then w.commitRoot surface else w.recorded callback }
  else none

def newToplevel (w : World) (surface : Surface) : Option World :=
  if w.surfaces.takesRole surface .toplevel then
    let sm := w.surfaces.newToplevel surface
    some (w.next sm (w.app.newToplevel sm ⟨surface, w.surfaces.roleObjects⟩) [])
  else none

/-- The popup attributes are followed up from the parent. -/
def newPopup (w : World) (surface : Surface) (parent : Option Surface) (configured : Bool) : Option World :=
  if w.surfaces.takesRole surface .popup ∧
      parent.all fun parent => surface ∉ climb w.surfaces.popupParent w.surfaces.made parent then
    let sm := w.surfaces.newPopup surface parent
    some (w.next sm (w.app.newPopup sm ⟨surface, w.surfaces.roleObjects⟩ configured) [])
  else none

def toplevelDestroyed (w : World) (toplevel : ToplevelSurface) : Option World :=
  if toplevel ∈ w.surfaces.knownToplevels then
    some (w.next (w.surfaces.forgetToplevel toplevel) (w.app.toplevelDestroyed w.surfaces toplevel) [])
  else none

def popupDestroyed (w : World) (popup : PopupSurface) : Option World :=
  if popup ∈ w.surfaces.knownPopups then
    some (w.next (w.surfaces.forgetPopup popup) (w.app.popupDestroyed w.surfaces popup) [])
  else none

def surfaceDestroyed (w : World) (surface : Surface) : Option World :=
  if surface ∈ w.surfaces.alive then
    some (w.next (w.surfaces.cleanup surface) (w.app.destroyed w.surfaces surface) [])
  else none

def cursorImage (w : World) (surface : Surface) : Option World :=
  if w.surfaces.takesRole surface .cursorImage then
    some (w.next (w.surfaces.setRole surface .cursorImage) (w.app.cursorImage surface) [])
  else none

def acknowledge (w : World) (root : Option Surface) : World :=
  let taken := w.app.takeFrameCallbacksFor w.surfaces root
  w.next w.surfaces taken.2 (taken.1.map (·.callback))

def cursorClock (w : World) : World :=
  let taken := w.app.takeCursorFrameCallbacks
  w.next w.surfaces taken.2 taken.1

/-- A message of the compositor at the main loop. -/
def deliver (w : World) (opened : Bool) : Option World :=
  match w.app.messages with
  | [] => none
  | message :: messages =>
    let app := { w.app with messages := messages }
    some (match message with
      | .rootlessToplevelCreated surface =>
        if w.app.rootless ∧ surface ∉ w.windows ∧ w.app.isToplevel surface ∧ opened then
          { w.next w.surfaces { app with needsRedraw := true } [] with windows := surface :: w.windows }
        else w.next w.surfaces app []
      | .rootlessToplevelDestroyed surface =>
        { w.next w.surfaces app [] with windows := w.windows.filter (· ≠ surface) }
      | .desktopToplevelCreated | .surfaceDestroyed _ => w.next w.surfaces app [])

def dirtyWindow (w : World) (surface : Surface) : Option World :=
  if surface ∈ w.windows then
    some (w.next w.surfaces
      { w.app with rootlessDirtySurfaces := insert surface w.app.rootlessDirtySurfaces, needsRedraw := true } [])
  else none

def cleanWindow (w : World) (surface : Surface) : World :=
  let dirty := w.app.rootlessDirtySurfaces.erase surface
  w.next w.surfaces { w.app with rootlessDirtySurfaces := dirty, needsRedraw := decide dirty.Nonempty } []

def step (w : World) : Event → Option World
  | .newSurface => some (w.next w.surfaces.newSurface w.app [])
  | .setParent child parent => (w.surfaces.setParent child parent).map fun sm => w.next sm w.app []
  | .unsetParent child => some (w.next (w.surfaces.unsetParent child) w.app [])
  | .newToplevel surface => w.newToplevel surface
  | .newPopup surface parent configured => w.newPopup surface parent configured
  | .toplevelDestroyed toplevel => w.toplevelDestroyed toplevel
  | .popupDestroyed popup => w.popupDestroyed popup
  | .surfaceDestroyed surface => w.surfaceDestroyed surface
  | .repositionRequest popup => some (w.next w.surfaces (w.app.repositionRequest w.surfaces popup) [])
  | .commit surface callbacks visited buffers => w.commit surface callbacks visited buffers
  | .cursorImage surface => w.cursorImage surface
  | .acknowledge root => some (w.acknowledge root)
  | .cursorClock => some w.cursorClock
  | .retireTraceFrames submitted => some (w.next w.surfaces
      { w.app with traceFrames := fun root => (w.app.traceFrames root).filter (· ∉ submitted) } [])
  | .input inputFocus pointerFocus keyboardFocus dragState startDragRequest => some (w.next w.surfaces
      { w.app with
        inputFocus := inputFocus
        pointerFocus := pointerFocus
        keyboardFocus := keyboardFocus
        dragState := dragState
        startDragRequest := startDragRequest } [])
  | .moveTile surface x y =>
    some (w.next w.surfaces { w.app with layout := w.app.layout.moveTile surface x y } [])
  | .deliver opened => w.deliver opened
  | .dirtyWindow surface => w.dirtyWindow surface
  | .cleanWindow surface => some (w.cleanWindow surface)

/-! ### What an event needs and gives -/

theorem newToplevel_some (h : w.newToplevel surface = some w') : w.surfaces.takesRole surface .toplevel ∧
    w' = w.next (w.surfaces.newToplevel surface)
      (w.app.newToplevel (w.surfaces.newToplevel surface) ⟨surface, w.surfaces.roleObjects⟩) [] := by
  obtain ⟨hrole, h⟩ := Option.ite_none_right_eq_some.1 h
  exact ⟨hrole, (Option.some.inj h).symm⟩

theorem newPopup_some {parent : Option Surface} {configured : Bool}
    (h : w.newPopup surface parent configured = some w') :
    w.surfaces.takesRole surface .popup ∧ w' = w.next (w.surfaces.newPopup surface parent)
      (w.app.newPopup (w.surfaces.newPopup surface parent) ⟨surface, w.surfaces.roleObjects⟩ configured) [] := by
  obtain ⟨⟨hrole, -⟩, h⟩ := Option.ite_none_right_eq_some.1 h
  exact ⟨hrole, (Option.some.inj h).symm⟩

theorem toplevelDestroyed_some {toplevel : ToplevelSurface} (h : w.toplevelDestroyed toplevel = some w') :
    toplevel ∈ w.surfaces.knownToplevels ∧
      w' = w.next (w.surfaces.forgetToplevel toplevel) (w.app.toplevelDestroyed w.surfaces toplevel) [] := by
  obtain ⟨hknown, h⟩ := Option.ite_none_right_eq_some.1 h
  exact ⟨hknown, (Option.some.inj h).symm⟩

theorem popupDestroyed_some {popup : PopupSurface} (h : w.popupDestroyed popup = some w') :
    popup ∈ w.surfaces.knownPopups ∧
      w' = w.next (w.surfaces.forgetPopup popup) (w.app.popupDestroyed w.surfaces popup) [] := by
  obtain ⟨hknown, h⟩ := Option.ite_none_right_eq_some.1 h
  exact ⟨hknown, (Option.some.inj h).symm⟩

theorem surfaceDestroyed_some (h : w.surfaceDestroyed surface = some w') : surface ∈ w.surfaces.alive ∧
    w' = w.next (w.surfaces.cleanup surface) (w.app.destroyed w.surfaces surface) [] := by
  obtain ⟨halive, h⟩ := Option.ite_none_right_eq_some.1 h
  exact ⟨halive, (Option.some.inj h).symm⟩

theorem cursorImage_some (h : w.cursorImage surface = some w') : w.surfaces.takesRole surface .cursorImage ∧
    w' = w.next (w.surfaces.setRole surface .cursorImage) (w.app.cursorImage surface) [] := by
  obtain ⟨hrole, h⟩ := Option.ite_none_right_eq_some.1 h
  exact ⟨hrole, (Option.some.inj h).symm⟩

theorem dirtyWindow_some (h : w.dirtyWindow surface = some w') : surface ∈ w.windows ∧ w' = w.next w.surfaces
    { w.app with rootlessDirtySurfaces := insert surface w.app.rootlessDirtySurfaces, needsRedraw := true } [] := by
  obtain ⟨hwindow, h⟩ := Option.ite_none_right_eq_some.1 h
  exact ⟨hwindow, (Option.some.inj h).symm⟩

end World

/-- Any order of events, from a compositor without clients on. -/
def scene (rootless tracing : Bool) (viewSize : Int × Int) : System World Event where
  init := { app := { rootless := rootless, tracing := tracing, layout := { viewSize := viewSize } } }
  step := World.step

end CocoaWay.Scene
