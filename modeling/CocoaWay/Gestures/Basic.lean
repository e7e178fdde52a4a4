import CocoaWay.Lib.Binary64
import CocoaWay.Lib.Groups
import CocoaWay.Lib.System

/-!
# Pointer gestures

Native magnification, rotation and swipe events become the pinch and swipe gestures of the pointer.

* `PointerGestureTracker` : what is active;
* `Gesture` : a gesture object of a client, and what is sent on it;
* `AppState` : the tracker, the pointer with its focus and the gesture objects, and the calls made on the pointer;
* `handlePinchGesture`, `handleRotationGesture`, `handleSwipeGesture` : they call themselves where a beginning is
  missing, so they have a recursion limit, and no result where it is reached;
* `system` : events in any order, with focus changes, removals of surfaces and clients that create gesture objects.
-/

namespace CocoaWay.Gestures
open Lib Binary64

/-- `TouchPhase`. -/
inductive TouchPhase
  | started
  | moved
  | ended
  | cancelled
  deriving DecidableEq

structure PointerGestureTracker where
  magnifyActive : Bool
  rotationActive : Bool
  protocolActive : Bool
  swipeActive : Bool
  scale : Float
  rotation : Float

def PointerGestureTracker.default : PointerGestureTracker := ⟨false, false, false, false, 1.0, 0.0⟩

/-! ## The pointer -/

/-- `GesturePinchBeginEvent` and `GestureSwipeBeginEvent`. -/
structure BeginEvent where
  time : UInt32
  fingers : Nat
  deriving DecidableEq

structure GesturePinchUpdateEvent where
  time : UInt32
  delta : Float × Float
  scale : Float
  rotation : Float
  deriving DecidableEq

structure GestureSwipeUpdateEvent where
  time : UInt32
  delta : Float × Float

/-- `GesturePinchEndEvent` and `GestureSwipeEndEvent`. -/
structure EndEvent where
  time : UInt32
  cancelled : Bool
  deriving DecidableEq

/-- A call on the pointer. -/
inductive Call
  | pinch (mark : Mark BeginEvent GesturePinchUpdateEvent EndEvent)
  | swipe (mark : Mark BeginEvent GestureSwipeUpdateEvent EndEvent)

/-- A gesture object: `PointerGestureUserData`, and the events sent on it. -/
structure Gesture (κ σ υ : Type) where
  client : κ
  inProgressOn : Option σ
  clientScale : Float
  sent : List (Mark (BeginEvent × σ) υ EndEvent)

variable {κ σ υ : Type} [DecidableEq κ] [DecidableEq σ]

def Gesture.new (client : κ) (clientScale : Float) : Gesture κ σ υ := ⟨client, none, clientScale, []⟩

def Gesture.send (g : Gesture κ σ υ) (marks : List (Mark (BeginEvent × σ) υ EndEvent)) : Gesture κ σ υ :=
  { g with sent := g.sent ++ marks }

/-- An end for what is in progress, if anything is. -/
def Gesture.endMarks (g : Gesture κ σ υ) (e : EndEvent) : List (Mark (BeginEvent × σ) υ EndEvent) :=
  if g.inProgressOn.isSome then [.finish e] else []

def Gesture.leave (time : UInt32) (g : Gesture κ σ υ) : Gesture κ σ υ :=
  { g.send (g.endMarks ⟨time, true⟩) with inProgressOn := none }

def Gesture.begin (surface : σ) (e : BeginEvent) (g : Gesture κ σ υ) : Gesture κ σ υ :=
  { g.send (g.endMarks ⟨e.time, true⟩ ++ [.begin (e, surface)]) with inProgressOn := some surface }

/-- An update for the surface it began on; otherwise what is in progress is cancelled. -/
def Gesture.update (surface : σ) (time : UInt32) (toClient : Float → υ) (g : Gesture κ σ υ) : Gesture κ σ υ :=
  if g.inProgressOn = some surface then g.send [.update (toClient g.clientScale)] else g.leave time

def Gesture.finish (surface : σ) (e : EndEvent) (g : Gesture κ σ υ) : Gesture κ σ υ :=
  let cancelled := if g.inProgressOn = some surface then e.cancelled else true
  { g.send (g.endMarks ⟨e.time, cancelled⟩) with inProgressOn := none }

/-- One call on a gesture object. -/
def Gesture.receive (surface : σ) (time : υ → UInt32) (toClient : Float → υ → υ) (mark : Mark BeginEvent υ EndEvent)
    (g : Gesture κ σ υ) : Gesture κ σ υ :=
  match mark with
  | .begin e => g.begin surface e
  | .update u => g.update surface (time u) fun scale => toClient scale u
  | .finish e => g.finish surface e

/-- `to_client`. -/
def toClient (scale : Float) (delta : Float × Float) : Float × Float := (delta.1 * scale, delta.2 * scale)

def GesturePinchUpdateEvent.toClient (scale : Float) (e : GesturePinchUpdateEvent) : GesturePinchUpdateEvent :=
  { e with delta := Gestures.toClient scale e.delta }

def GestureSwipeUpdateEvent.toClient (scale : Float) (e : GestureSwipeUpdateEvent) : GestureSwipeUpdateEvent :=
  { e with delta := Gestures.toClient scale e.delta }

structure AppState (κ σ : Type) where
  pointerGesture : PointerGestureTracker
  /-- `seat.get_pointer()` gives a pointer. -/
  pointer : Bool
  focus : Option σ
  knownPinchGestures : List (Gesture κ σ GesturePinchUpdateEvent)
  knownSwipeGestures : List (Gesture κ σ GestureSwipeUpdateEvent)
  /-- The calls made on the pointer, oldest first. -/
  calls : List Call

def AppState.new : AppState κ σ := ⟨.default, true, none, [], [], []⟩

/-- The gesture objects of the client that owns the surface. -/
def forEachFocused (owner : σ → κ) (surface : σ) (f : Gesture κ σ υ → Gesture κ σ υ) (gestures : List (Gesture κ σ υ)) :
    List (Gesture κ σ υ) :=
  gestures.map fun g => if g.client = owner surface then f g else g

/-- A call on the pointer: without focus, no client hears of it. -/
def AppState.call (owner : σ → κ) (s : AppState κ σ) (call : Call) : AppState κ σ :=
  let s := { s with calls := s.calls ++ [call] }
  match s.focus, call with
  | none, _ => s
  | some surface, .pinch mark =>
    let f := Gesture.receive surface GesturePinchUpdateEvent.time GesturePinchUpdateEvent.toClient mark
    { s with knownPinchGestures := forEachFocused owner surface f s.knownPinchGestures }
  | some surface, .swipe mark =>
    let f := Gesture.receive surface GestureSwipeUpdateEvent.time GestureSwipeUpdateEvent.toClient mark
    { s with knownSwipeGestures := forEachFocused owner surface f s.knownSwipeGestures }

/-- `motion`, as far as the focus goes: the old focus hears of it when it is another one. -/
def AppState.motion (owner : σ → κ) (s : AppState κ σ) (focus : Option σ) (time : UInt32) : AppState κ σ :=
  match s.focus with
  | none => { s with focus }
  | some surface =>
    if focus = some surface then s
    else
      { s with
        focus
        knownPinchGestures := forEachFocused owner surface (Gesture.leave time) s.knownPinchGestures
        knownSwipeGestures := forEachFocused owner surface (Gesture.leave time) s.knownSwipeGestures }

/-! ## The handlers -/

variable (owner : σ → κ)

/-- The start of a magnification or a rotation, which begins a pinch unless the other has. -/
def AppState.beginPinch (s : AppState κ σ) (time : UInt32) : AppState κ σ :=
  if s.pointerGesture.protocolActive then s
  else
    { s with
      pointerGesture := { s.pointerGesture with
        protocolActive := true
        scale := 1.0
        rotation := 0.0 } }.call owner (.pinch (.begin ⟨time, 2⟩))

def AppState.updatePinch (s : AppState κ σ) (time : UInt32) : AppState κ σ :=
  s.call owner (.pinch (.update ⟨time, (0.0, 0.0), s.pointerGesture.scale, s.pointerGesture.rotation⟩))

def finishPointerGestureIfIdle (s : AppState κ σ) (time : UInt32) (cancelled : Bool) : AppState κ σ :=
  if s.pointerGesture.protocolActive && !s.pointerGesture.magnifyActive && !s.pointerGesture.rotationActive then
    let s := s.call owner (.pinch (.finish ⟨time, cancelled⟩))
    { s with pointerGesture := { s.pointerGesture with
        protocolActive := false
        scale := 1.0
        rotation := 0.0 } }
  else s

def cancelPointerGesture (s : AppState κ σ) (time : UInt32) : AppState κ σ :=
  finishPointerGestureIfIdle owner
    { s with pointerGesture := { s.pointerGesture with
        magnifyActive := false
        rotationActive := false } } time true

/-- The scale after one more magnification. -/
def zoom (scale delta : Float) : Float := clamp (scale * clamp (1.0 + delta) 0.01 100.0) 0.01 100.0

def handlePinchGesture : Nat → AppState κ σ → Float → TouchPhase → UInt32 → Option (AppState κ σ)
  | 0, _, _, _, _ => none
  | limit + 1, s, delta, phase, time =>
    if !s.pointer then some s
    else
      match phase with
      | .started =>
        some ({ s with pointerGesture := { s.pointerGesture with magnifyActive := true } }.beginPinch owner time)
      | .moved =>
        let started := if s.pointerGesture.magnifyActive then some s else handlePinchGesture limit s 0.0 .started time
        started.map fun s =>
          if delta.isFinite then
            { s with pointerGesture := { s.pointerGesture with
              scale := zoom s.pointerGesture.scale delta } }.updatePinch owner time
          else s
      | .ended =>
        some (finishPointerGestureIfIdle owner
          { s with pointerGesture := { s.pointerGesture with magnifyActive := false } } time false)
      | .cancelled => some (cancelPointerGesture owner s time)

/-- `f64::from`, of an `f32`. -/
def ofFloat32 (x : Float32) : Float :=
  .ofModel (.pack (match x.toModel.unpack with
    | .finite s m e _ => .round Float.Model.Format.binary64 s m e
    | u => u))

def handleRotationGesture : Nat → AppState κ σ → Float32 → TouchPhase → UInt32 → Option (AppState κ σ)
  | 0, _, _, _, _ => none
  | limit + 1, s, delta, phase, time =>
    if !s.pointer then some s
    else
      match phase with
      | .started =>
        some ({ s with pointerGesture := { s.pointerGesture with rotationActive := true } }.beginPinch owner time)
      | .moved =>
        let started :=
          if s.pointerGesture.rotationActive then some s else handleRotationGesture limit s 0.0 .started time
        started.map fun s =>
          if delta.isFinite then
            -- Per-event deltas are counterclockwise, and a clockwise rotation since the start is sent.
            { s with pointerGesture := { s.pointerGesture with
              rotation := s.pointerGesture.rotation - ofFloat32 delta } }.updatePinch owner time
          else s
      | .ended =>
        some (finishPointerGestureIfIdle owner
          { s with pointerGesture := { s.pointerGesture with rotationActive := false } } time false)
      | .cancelled => some (cancelPointerGesture owner s time)

def handleSwipeGesture : Nat → AppState κ σ → Float × Float → TouchPhase → UInt32 → Option (AppState κ σ)
  | 0, _, _, _, _ => none
  | limit + 1, s, delta, phase, time =>
    if !s.pointer then some s
    else
      match phase with
      | .started =>
        let s := if s.pointerGesture.swipeActive then s.call owner (.swipe (.finish ⟨time, true⟩)) else s
        some ({ s with pointerGesture := { s.pointerGesture with swipeActive := true } }.call owner
          (.swipe (.begin ⟨time, 3⟩)))
      | .moved =>
        let started :=
          if s.pointerGesture.swipeActive then some s else handleSwipeGesture limit s (0.0, 0.0) .started time
        started.map fun s =>
          if delta.1.isFinite && delta.2.isFinite && (delta.1 != 0.0 || delta.2 != 0.0) then
            s.call owner (.swipe (.update ⟨time, delta⟩))
          else s
      | _ =>
        if s.pointerGesture.swipeActive then
          let s := s.call owner (.swipe (.finish ⟨time, phase = .cancelled⟩))
          some { s with pointerGesture := { s.pointerGesture with swipeActive := false } }
        else some s

/-! ## Runs -/

inductive Event (κ σ : Type)
  | pinch (delta : Float) (phase : TouchPhase) (time : UInt32)
  | rotation (delta : Float32) (phase : TouchPhase) (time : UInt32)
  | swipe (delta : Float × Float) (phase : TouchPhase) (time : UInt32)
  /-- A removal from the scene retires these surfaces. -/
  | removeSurfaces (retired : List σ) (time : UInt32)
  | motion (focus : Option σ) (time : UInt32)
  | setPointer (pointer : Bool)
  | getPinchGesture (client : κ) (clientScale : Float)
  | getSwipeGesture (client : κ) (clientScale : Float)
  | destroyPinchGesture (index : Nat)
  | destroySwipeGesture (index : Nat)

/-- One event, with the recursion limit `limit`. -/
def handle (limit : Nat) (s : AppState κ σ) : Event κ σ → Option (AppState κ σ)
  | .pinch delta phase time => handlePinchGesture owner limit s delta phase time
  | .rotation delta phase time => handleRotationGesture owner limit s delta phase time
  | .swipe delta phase time => handleSwipeGesture owner limit s delta phase time
  -- The focus is cleared when the gesture is cancelled.
  | .removeSurfaces retired time =>
    if s.pointer && s.focus.any (· ∈ retired) then some ((cancelPointerGesture owner s time).motion owner none time)
    else some s
  | .motion focus time => some (s.motion owner focus time)
  | .setPointer pointer => some { s with pointer }
  | .getPinchGesture client clientScale =>
    some { s with knownPinchGestures := s.knownPinchGestures ++ [.new client clientScale] }
  | .getSwipeGesture client clientScale =>
    some { s with knownSwipeGestures := s.knownSwipeGestures ++ [.new client clientScale] }
  | .destroyPinchGesture index => some { s with knownPinchGestures := s.knownPinchGestures.eraseIdx index }
  | .destroySwipeGesture index => some { s with knownSwipeGestures := s.knownSwipeGestures.eraseIdx index }

/-- A state, and for each event so far the calls that it made. -/
structure World (κ σ : Type) where
  app : AppState κ σ
  history : List (Event κ σ × List Call)

def step (limit : Nat) (w : World κ σ) (event : Event κ σ) : Option (World κ σ) :=
  (handle owner limit { w.app with calls := [] } event).map fun app => ⟨app, w.history ++ [(event, app.calls)]⟩

def system (limit : Nat) : System (World κ σ) (Event κ σ) where
  init := ⟨.new, []⟩
  step := step owner limit

end CocoaWay.Gestures
