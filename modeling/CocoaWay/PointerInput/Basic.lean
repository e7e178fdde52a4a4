import CocoaWay.Lib.System
import Mathlib.Data.Finset.Sort
import Mathlib.Order.Nat

/-!
# Pointer ownership, and the handlers of pointer events

`PointerInput` decides which window and surface own the pointer, when the native pointer lock is taken and released, and
which buttons are held.

* `PointerFocus`, `ConstraintSnapshot`, `LockAction`, `LockStatus` : its data;
* `action` : the lock decision; `nativeAcquired`, `activated`, `acquisitionFailed`, `released` : what became of it;
* `recordMotion`, `clearFocus`, `forgetSurface`, `forgetWindow`, `needsFocusReset` : the focus;
* `button`, `takeButtons` : the held buttons;
* `State` : `PointerInput`, the surface that has the pointer, and the log of button events sent to the seat's pointer;
* `clearPointerFocus`, `releasePointerLock`, `reconcilePointerLock` and what calls them : the handlers of the event
  loop, over the desktop window and the rootless windows;
* `Event`, `system` : any sequence of host and client events. What the window system and the clients decide is part of
  the event.
-/

namespace CocoaWay.PointerInput
open Lib

/-! ## Pointer ownership -/

section Ownership

variable {W S O : Type*}

/-- A window, one of its surfaces, and where the surface starts. Origins are floating-point pairs: only `==` is used. -/
structure PointerFocus (W S O : Type*) where
  owner : W
  surface : S
  origin : O
  deriving BEq

inductive ConstraintKind
  | none
  | locked
  | confined
  deriving DecidableEq

structure ConstraintSnapshot where
  kind : ConstraintKind
  active : Bool
  live : Bool
  inRegion : Bool

inductive LockAction
  | none
  | acquire
  | release
  | confinementUnsupported
  deriving DecidableEq

inductive LockStatus
  | idle
  | locked
  | confinementUnsupported
  | acquisitionFailed
  | releaseFailed
  deriving DecidableEq

/-- `PointerInput`; the counter of unsupported requests saturates at the top of `u64`. -/
structure Input (W S O : Type*) where
  focus : Option (PointerFocus W S O)
  nativeGrab : Option (PointerFocus W S O)
  pending : Bool
  status : LockStatus
  unsupportedConfinementRequests : Nat
  heldButtons : Finset Nat

namespace Input

def new : Input W S O := ⟨none, none, false, .idle, 0, ∅⟩

def requestReconcile (i : Input W S O) : Input W S O := { i with pending := true }

def setStatus (i : Input W S O) (status : LockStatus) : Input W S O := { i with status }

def constraintCreated (i : Input W S O) (kind : ConstraintKind) : Input W S O :=
  let i := i.requestReconcile
  if kind = .confined then
    { i with unsupportedConfinementRequests := min (i.unsupportedConfinementRequests + 1) (2 ^ 64 - 1) }
  else i

def clearFocus (i : Input W S O) : Input W S O := { i with focus := none }.requestReconcile

/-- `record_motion`: the surface hit, with its origin, and the surface that has the focus afterwards. -/
def recordMotion [DecidableEq S] (i : Input W S O) (owner : W) (candidate : Option (S × O)) (actual : Option S) :
    Input W S O :=
  let i := i.requestReconcile
  match candidate with
  | some (surface, origin) =>
    if actual = some surface then { i with focus := some ⟨owner, surface, origin⟩ }
    else if i.focus.map PointerFocus.surface ≠ actual then { i with focus := none } else i
  | none => if i.focus.map PointerFocus.surface ≠ actual then { i with focus := none } else i

def needsFocusReset [DecidableEq W] (i : Input W S O) (nextOwner : W) : Bool :=
  (i.focus.any fun focus => focus.owner ≠ nextOwner) || i.nativeGrab.any fun grab => grab.owner ≠ nextOwner

def forgetSurface [DecidableEq S] (i : Input W S O) (surface : S) : Input W S O :=
  if i.focus.any fun focus => focus.surface = surface then i.clearFocus else i

def forgetWindow [DecidableEq W] (i : Input W S O) (owner : W) : Input W S O :=
  if i.focus.any fun focus => focus.owner = owner then i.clearFocus else i

/-- The focus may hold the lock: its window is focused, it has the pointer, and it is live inside the region. -/
def eligible [DecidableEq W] [DecidableEq S] (i : Input W S O) (focusedOwner : Option W) (actual : Option S)
    (constraint : ConstraintSnapshot) : Bool :=
  i.focus.any fun focus =>
    focusedOwner = some focus.owner && actual = some focus.surface && constraint.live && constraint.inRegion

def action [DecidableEq W] [DecidableEq S] [BEq O] (i : Input W S O) (focusedOwner : Option W)
    (actual : Option S) (constraint : ConstraintSnapshot) : LockAction :=
  match i.nativeGrab with
  | some grab =>
    if i.eligible focusedOwner actual constraint && i.focus.any (· == grab) && constraint.kind = .locked &&
        constraint.active && i.status ≠ .releaseFailed then .none
    else .release
  | none =>
    match constraint.kind with
    | .confined => .confinementUnsupported
    | .locked =>
      if i.eligible focusedOwner actual constraint && (i.pending || i.status ≠ .acquisitionFailed) then .acquire
      else .none
    | .none => .none

def nativeAcquired (i : Input W S O) (focus : PointerFocus W S O) : Input W S O :=
  { i with nativeGrab := some focus, pending := false, status := .idle }

def activated (i : Input W S O) : Input W S O := { i with status := .locked }

def acquisitionFailed (i : Input W S O) : Input W S O := { i with pending := false, status := .acquisitionFailed }

/-- A failed release keeps the owner, to be retried. -/
def released (i : Input W S O) (succeeded : Bool) : Input W S O :=
  if succeeded then { i with nativeGrab := none, pending := true, status := .idle }
  else { i with status := .releaseFailed }

def freezesAbsolute (i : Input W S O) : Bool := i.nativeGrab.isSome

def relativeFocus [DecidableEq W] [DecidableEq S] (i : Input W S O) (focusedOwner : Option W) (actual : Option S) :
    Option (PointerFocus W S O) :=
  i.focus.filter fun focus =>
    focusedOwner = some focus.owner && actual = some focus.surface && (i.nativeGrab.isNone || i.status = .locked)

def button (i : Input W S O) (button : Nat) (pressed : Bool) : Input W S O :=
  { i with heldButtons := if pressed then insert button i.heldButtons else i.heldButtons.erase button }

/-- The held buttons in ascending order; none is held afterwards. -/
def takeButtons (i : Input W S O) : List Nat × Input W S O :=
  (i.heldButtons.sort (· ≤ ·), { i with heldButtons := ∅ })

/-! ## What leaves the held buttons alone -/

variable (i : Input W S O)

@[simp] theorem heldButtons_constraintCreated (kind : ConstraintKind) :
    (i.constraintCreated kind).heldButtons = i.heldButtons := by
  unfold constraintCreated
  split <;> rfl

@[simp] theorem heldButtons_released (succeeded : Bool) : (i.released succeeded).heldButtons = i.heldButtons := by
  unfold released
  split <;> rfl

@[simp] theorem heldButtons_recordMotion [DecidableEq S] (owner : W) (candidate : Option (S × O)) (actual : Option S) :
    (i.recordMotion owner candidate actual).heldButtons = i.heldButtons := by
  unfold recordMotion
  cases candidate <;> dsimp only
  · split <;> rfl
  · split
    · rfl
    · split <;> rfl

@[simp] theorem heldButtons_forgetSurface [DecidableEq S] (surface : S) :
    (i.forgetSurface surface).heldButtons = i.heldButtons := by
  unfold forgetSurface
  split <;> rfl

@[simp] theorem heldButtons_forgetWindow [DecidableEq W] (owner : W) :
    (i.forgetWindow owner).heldButtons = i.heldButtons := by
  unfold forgetWindow
  split <;> rfl

end Input

end Ownership

/-! ## Handlers -/

variable {W S O : Type*} [DecidableEq W] [DecidableEq S] [BEq O]

/-- A host mouse button. -/
inductive MouseButton
  | left
  | right
  | middle
  | back
  | forward
  | other (code : UInt16)

/-- An entry of the log: a button event handed to the pointer, or the end of a flush. -/
inductive Entry
  | pressed (button : Nat)
  | released (button : Nat)
  | flushed
  deriving DecidableEq

structure State (W S O : Type*) where
  input : Input W S O
  /-- `current_focus` of the seat's pointer. -/
  currentFocus : Option S
  /-- Newest first. -/
  log : List Entry

/-! ## Buttons -/

/-- The code the desktop window sends for a button. -/
def desktopButtonCode : MouseButton → Nat
  | .left => 0x110
  | .right => 0x111
  | .middle => 0x112
  | _ => 0x110

/-- The code a rootless window sends for a button. -/
def rootlessButtonCode : MouseButton → Nat
  | .left => 0x110
  | .right => 0x111
  | .middle => 0x112
  | .back => 0x116
  | .forward => 0x115
  | .other code => code.toNat

def buttonCode (desktop window : W) : MouseButton → Nat :=
  if window = desktop then desktopButtonCode else rootlessButtonCode

/-- While the native lock is held only its owner's button events are handled. -/
def acceptsButton (s : State W S O) (window : W) : Bool := s.input.nativeGrab.all fun grab => grab.owner = window

def sendButton (s : State W S O) (button : Nat) (pressed : Bool) : State W S O :=
  { s with
    input := s.input.button button pressed
    log := (if pressed then .pressed button else .released button) :: s.log }

/-- The `MouseInput` handlers. -/
def mouseInput (desktop : W) (s : State W S O) (window : W) (button : MouseButton) (pressed : Bool) : State W S O :=
  if acceptsButton s window then sendButton s (buttonCode desktop window button) pressed else s

/-! ## Focus and flushes -/

/-- `clear_pointer_focus`: release the held buttons, then leave the surface. -/
def clearPointerFocus (s : State W S O) : State W S O :=
  let (buttons, input) := s.input.takeButtons
  { input := input.clearFocus
    currentFocus := none
    log := .flushed :: (buttons.map Entry.released).reverse ++ s.log }

/-- `release_pointer_lock`; `ok` is the answer of the window system. -/
def releasePointerLock (s : State W S O) (ok : Bool) : State W S O :=
  if s.input.nativeGrab.isSome then { s with input := s.input.released ok } else s

def ownsGrab (s : State W S O) (window : W) : Bool := s.input.nativeGrab.any fun grab => grab.owner = window

def ownsFocus (s : State W S O) (window : W) : Bool := s.input.focus.any fun focus => focus.owner = window

/-- `retire_input_window`: focus lost, close, destroy, minimize, hide, a toplevel gone. -/
def retireInputWindow (s : State W S O) (window : W) (ok : Bool) : State W S O :=
  let s := if ownsGrab s window then releasePointerLock s ok else s
  let s := if ownsFocus s window then clearPointerFocus s else s
  { s with input := s.input.forgetWindow window }

/-- `Focused(true)`: `prepare_pointer_focus`, then a reconcile request. -/
def preparePointerFocus (s : State W S O) (window : W) (ok : Bool) : State W S O :=
  let s :=
    if s.input.needsFocusReset window then
      clearPointerFocus (if s.input.nativeGrab.any fun grab => grab.owner ≠ window then releasePointerLock s ok else s)
    else s
  { s with input := s.input.requestReconcile }

/-- `invalidate_pointer_window`: resize, scale change, HiDPI toggle. -/
def invalidatePointerWindow (s : State W S O) (window : W) (ok : Bool) : State W S O :=
  if ownsGrab s window then clearPointerFocus (releasePointerLock s ok) else s

/-- `CursorLeft`. -/
def cursorLeft (s : State W S O) (window : W) (ok : Bool) : State W S O :=
  let s := if ownsGrab s window then releasePointerLock s ok else s
  if ownsFocus s window then clearPointerFocus s else s

/-- The pointer's part of `remove_surface_from_scene`: forget the retired surfaces, flush when one has the pointer. -/
def surfaceRemoved (s : State W S O) (retired : List S) : State W S O :=
  let s := { s with input := retired.foldl Input.forgetSurface s.input }
  if s.currentFocus.any fun surface => surface ∈ retired then clearPointerFocus s else s

/-- A motion event and `record_pointer_motion`; `grabFocus` is the focus of a click grab on `actual`, the surface that
has the pointer after the motion. -/
def pointerMotion (s : State W S O) (owner : W) (candidate grabFocus : Option (S × O)) (actual : Option S) :
    State W S O :=
  if s.input.freezesAbsolute then s
  else
    let s := { s with currentFocus := actual }
    match grabFocus with
    | none => { s with input := s.input.recordMotion owner candidate actual }
    | some grabFocus =>
      match s.input.focus.filter fun known => actual = some known.surface with
      | none => { s with input := s.input.clearFocus }
      | some known => { s with input := s.input.recordMotion known.owner (some grabFocus) actual }

/-! ## The native lock -/

/-- What the window system and the seat say in one pass of `reconcile_pointer_lock`. -/
structure LockWorld (W : Type*) where
  focusedOwner : Option W
  snapshot : ConstraintSnapshot
  releaseOk : Bool
  acquireOk : Bool
  activated : Bool

/-- `PointerLockEligibility::can_activate`. -/
def canActivate (focused inRegion live nativeAcquired : Bool) : Bool := focused && inRegion && live && nativeAcquired

/-- One pass of `reconcile_pointer_lock`; true when a second pass follows. -/
def reconcilePass (s : State W S O) (world : LockWorld W) : Bool × State W S O :=
  if world.snapshot.kind = .none && s.input.nativeGrab.isNone then
    (false, { s with input := s.input.setStatus .idle })
  else
    match s.input.action world.focusedOwner s.currentFocus world.snapshot with
    | .release => (world.releaseOk, releasePointerLock s world.releaseOk)
    | .confinementUnsupported => (false, { s with input := s.input.setStatus .confinementUnsupported })
    | .acquire =>
      match s.input.focus with
      | none => (false, s)
      | some focus =>
        if canActivate (world.focusedOwner = some focus.owner) world.snapshot.inRegion world.snapshot.live
            world.acquireOk then
          let s := { s with input := s.input.nativeAcquired focus }
          (false, if world.activated then { s with input := s.input.activated }
            else releasePointerLock s world.releaseOk)
        else (false, { s with input := s.input.acquisitionFailed })
    | .none =>
      (false, if s.input.nativeGrab.isNone && world.snapshot.kind = .none then
        { s with input := s.input.setStatus .idle } else s)

/-- `reconcile_pointer_lock`. -/
def reconcilePointerLock (s : State W S O) (first second : LockWorld W) : State W S O :=
  match reconcilePass s first with
  | (true, s) => (reconcilePass s second).2
  | (false, s) => s

/-! ## Sequences of events -/

inductive Event (W S O : Type*)
  | mouseInput (window : W) (button : MouseButton) (pressed : Bool)
  | motion (owner : W) (candidate grabFocus : Option (S × O)) (actual : Option S)
  | cursorLeft (window : W) (ok : Bool)
  | retireWindow (window : W) (ok : Bool)
  | focusGained (window : W) (ok : Bool)
  | invalidateWindow (window : W) (ok : Bool)
  | surfaceRemoved (retired : List S)
  | constraintCreated (kind : ConstraintKind)
  | reconcile (first second : LockWorld W)
  /-- The desktop's scale factor changed. -/
  | scaleChanged
  /-- The loop exits. -/
  | exiting (ok : Bool)

def step (desktop : W) (s : State W S O) : Event W S O → Option (State W S O)
  | .mouseInput window button pressed => some (mouseInput desktop s window button pressed)
  | .motion owner candidate grabFocus actual => some (pointerMotion s owner candidate grabFocus actual)
  | .cursorLeft window ok => some (cursorLeft s window ok)
  | .retireWindow window ok => some (retireInputWindow s window ok)
  | .focusGained window ok => some (preparePointerFocus s window ok)
  | .invalidateWindow window ok => some (invalidatePointerWindow s window ok)
  | .surfaceRemoved retired => some (surfaceRemoved s retired)
  | .constraintCreated kind => some { s with input := s.input.constraintCreated kind }
  | .reconcile first second => some (reconcilePointerLock s first second)
  | .scaleChanged => some { s with input := s.input.clearFocus }
  | .exiting ok => some (releasePointerLock s ok)

/-- Nothing focused, nothing held. -/
def system (S O : Type*) [DecidableEq S] [BEq O] (desktop : W) : System (State W S O) (Event W S O) where
  init := { input := .new, currentFocus := none, log := [] }
  step := step desktop

end CocoaWay.PointerInput
