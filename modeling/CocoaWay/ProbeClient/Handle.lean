import CocoaWay.Lib.Fallible
import CocoaWay.ProbeClient.App

/-!
# The probe client: messages

* `Env`, `Action`, `World` : what is outside, what the compositor and the log see, the state with all that happened;
* `now`, `request`, `newObject`, `write`, `record` : what goes out;
* `input`, `handle` : what the client does on a message.
-/

namespace CocoaWay.ProbeClient
open Lib
open InputProbe (Row Value)

/-! ## Outside -/

structure Env where
  pid : UInt32
  /-- The clock, each time that something outside is asked. -/
  now : Nat → UInt64
  /-- What is asked fails. -/
  fails : Nat → Bool
  /-- The bytes of a write before it fails. -/
  written : Nat → Nat

/-- What happened, as far as buffers and records go. -/
inductive Action
  | delivered (received : Received)
  | create (object : Object) (width height : UInt32)
  | write (object : Object) (bytes : List UInt8)
  | attach (object : Object)
  | commit
  | record (row : Row)

structure World where
  app : App
  /-- The last action is the first. -/
  log : List Action := []
  calls : Nat := 0
  /-- The serial of the next object. -/
  objects : Nat := 1

abbrev Probe := EStateM Fault World

variable (env : Env)

def getApp : Probe App := do return (← get).app

def modifyApp (f : App → App) : Probe PUnit := modify fun w => { w with app := f w.app }

def push (action : Action) : Probe PUnit := modify fun w => { w with log := action :: w.log }

/-- The number of the next call. -/
def ask : Probe Nat := do
  let w ← get
  set { w with calls := w.calls + 1 }
  return w.calls

def liftExcept {α : Type} : Except Fault α → Probe α
  | .ok a => pure a
  | .error e => throw e

def orError {α : Type} (message : String) : Option α → Probe α
  | some a => pure a
  | none => throw (.error message)

def ensure (p : Prop) [Decidable p] (e : Fault) : Probe PUnit := if p then pure ⟨⟩ else throw e

/-- `monotonic_ns`. -/
def now : Probe UInt64 := do return env.now (← ask)

/-- A call that fails or not. -/
def request : Probe PUnit := do
  let call ← ask
  ensure (env.fails call = false) .io

def requestIf (p : Prop) [Decidable p] : Probe PUnit := if p then request env else pure ⟨⟩

/-- A request for an object. -/
def newObject : Probe Object := do
  request env
  let w ← get
  set { w with objects := w.objects + 1 }
  return w.objects

/-- `write_all_at` the start of the file of a buffer. -/
def write (object : Object) (bytes : List UInt8) : Probe PUnit := do
  let call ← ask
  if env.fails call then do
    push (.write object (bytes.take (env.written call)))
    throw .io
  else push (.write object bytes)

def number32 (n : UInt32) : Value := .int n.toNat

def number64 (n : UInt64) : Value := .int n.toNat

/-- `json_number`. -/
def jsonNumber (n : Option UInt32) : Value := (n.map number32).getD .none

def recordRow (pid : UInt32) (tag name : String) (ns : UInt64) (fields : Row) : Row :=
  [("probe", .str "cocoa-way.input-latency-probe"), ("schema", .int 1), ("tag", .str tag), ("pid", number32 pid),
    ("record", .str name), ("guest_monotonic_ns", number64 ns)] ++ fields

/-- A line of the log that is not off. -/
def writeLine (row : Row) : Probe PUnit := do
  request env
  push (.record row)

def record (name : String) (ns : UInt64) (fields : Row) : Probe PUnit := do
  let app ← getApp
  if app.options.output = .off then pure ⟨⟩
  else writeLine env (recordRow env.pid app.options.tag name ns fields)

/-! ## Events of devices -/

/-- The fields of an event, but for its position, its value and its text. -/
def inputFields (app : App) (senderId seat : UInt32) (sequence : UInt64) (e : Effect) : Row :=
  let keyOrButton := e.kind = 1 ∨ e.kind = 2
  [("event", .str e.name), ("event_sequence", number64 sequence), ("seat_global", number32 seat),
    ("source_object_id", number32 senderId), ("forwarded_event_time_ms_opaque", jsonNumber e.time),
    ("protocol_serial", jsonNumber e.protocolSerial),
      ("evdev_code", jsonNumber (if keyOrButton then some e.code else none)),
    ("evdev_key", jsonNumber (if e.kind = 1 then some e.code else none)),
    ("evdev_button", jsonNumber (if e.kind = 2 then some e.code else none)),
    ("raw_state", jsonNumber (if keyOrButton then some e.state else none)), ("axis", jsonNumber e.axisKind),
    ("key_order", number64 app.devices.keyOrder), ("button_order", number64 app.devices.buttonOrder),
    ("key_presses", number64 app.devices.keyPresses), ("key_releases", number64 app.devices.keyReleases),
    ("button_presses", number64 app.devices.buttonPresses), ("button_releases", number64 app.devices.buttonReleases),
    ("order_status", .str e.orderStatus.text), ("visual_update", .bool e.changed)]

/-- An event that changed the picture is counted. -/
def countVisual (app : App) (sequence : UInt64) (changed : Bool) : Except Fault App :=
  if changed then do
    let applied ← increment app.appliedCount
    return { app with
      firstApplied := if app.appliedCount = 0 then sequence else app.firstApplied
      appliedCount := applied
      dirty := true }
  else .ok app

def causeOf (r : Received) (seat : UInt32) (sequence handlerNs : UInt64) (e : Effect) : Cause where
  kind := e.kind
  sequence := sequence
  time := e.time
  code := e.code
  state := e.state
  serial := e.serial
  seat := seat
  receiptNs := r.ns
  handlerNs := handlerNs

/-- `event` applies the event that was parsed. -/
def input (r : Received) (seat : UInt32) (event : Devices → Except Fault (Devices × Effect)) : Probe PUnit := do
  let handlerStartNs ← now env
  let sequence ← liftExcept (increment (← getApp).eventSequence)
  modifyApp fun app => { app with eventSequence := sequence }
  let (devices, e) ← liftExcept (event (← getApp).devices)
  let devices ← liftExcept (countOrder devices e.orderStatus)
  modifyApp fun app => { app with devices := devices }
  let app ← liftExcept (countVisual (← getApp) sequence e.changed)
  let handlerNs ← now env
  let app := if e.changed then { app with cause := some (causeOf r seat sequence handlerNs e) } else app
  modifyApp fun _ => app
  let fields := inputFields app r.senderId seat sequence e
  record env "input_received" r.ns fields
  record env "input_handled" handlerNs
    (fields ++ [("handler_start_ns", number64 handlerStartNs), ("receipt_ns", number64 r.ns)])

/-! ## Other messages -/

/-- The window, when the globals are known. -/
def initWindow : Probe PUnit := do
  let app ← getApp
  discard (orError "compositor lacks wl_compositor" app.compositor)
  discard (orError "compositor lacks wl_shm" app.shm)
  discard (orError "compositor lacks stable xdg_wm_base" app.wm)
  let surface ← newObject env
  let xdg ← newObject env
  let toplevel ← newObject env
  -- title and application id, and the largest and the smallest size
  request env
  request env
  request env
  request env
  request env
  push .commit
  modifyApp fun app => { app with surface := some surface, xdg := some xdg, toplevel := some toplevel }

def setSeat (name : UInt32) (seat : Seat) : Probe PUnit :=
  modifyApp fun app => { app with devices := app.devices.setSeat name seat }

/-- A new object, with what is done with it. -/
def bind (f : Object → App → App) : Probe PUnit := do
  let object ← newObject env
  modifyApp (f object)

/-- The keyboard that a seat has or not. -/
def keyboardCapability (name : UInt32) (hasKeyboard : Bool) : Probe PUnit := do
  let seat ← orError "unknown seat" ((← getApp).devices.seats name)
  if !hasKeyboard then do
    setSeat name { seat with keys := ∅, keyboard := if 3 ≤ seat.version then none else seat.keyboard }
    requestIf env (3 ≤ seat.version ∧ seat.keyboard.isSome)
  else if seat.keyboard.isNone then
    bind env fun object app => { app with devices := app.devices.setSeat name { seat with keyboard := some object } }
  else pure ⟨⟩

def pointerCapability (name : UInt32) (hasPointer : Bool) : Probe PUnit := do
  let seat ← orError "unknown seat" ((← getApp).devices.seats name)
  if !hasPointer then do
    setSeat name { seat with buttons := ∅, pointer := if 3 ≤ seat.version then none else seat.pointer }
    requestIf env (3 ≤ seat.version ∧ seat.pointer.isSome)
  else if seat.pointer.isNone then
    bind env fun object app => { app with devices := app.devices.setSeat name { seat with pointer := some object } }
  else pure ⟨⟩

def capabilities (name : UInt32) (hasKeyboard hasPointer : Bool) : Probe PUnit := do
  keyboardCapability env name hasKeyboard
  pointerCapability env name hasPointer

def global (name : UInt32) (interface : String) (version : UInt32) : Probe PUnit := do
  let app ← getApp
  if interface = "wl_compositor" ∧ app.compositor.isNone then
    bind env fun object app => { app with compositor := some object }
  else if interface = "wl_shm" ∧ app.shm.isNone then bind env fun object app => { app with shm := some object }
  else if interface = "xdg_wm_base" ∧ app.wm.isNone then bind env fun object app => { app with wm := some object }
  else if interface = "wl_seat" ∧ 1 ≤ version then
    bind env fun object app =>
      { app with devices := app.devices.setSeat name { object := object, version := min version 7 } }
  else pure ⟨⟩

/-- `clamp(64, MAX_DIMENSION)`. -/
def clampDimension (n : Int) : UInt32 := UInt32.ofNat (max 64 (min n.toNat 2048))

def resize (app : App) (width height : Int) : App :=
  { app with
    width := if 0 < width then clampDimension width else app.width
    height := if 0 < height then clampDimension height else app.height }

/-- The compositor no longer holds a buffer. -/
def release (r : Received) (index : Nat) : Probe PUnit := do
  let app ← getApp
  match app.buffers[index]? with
  | none => throw .index
  | some buffer =>
    ensure (buffer.object = some r.sender) (.error "release from an unexpected buffer generation")
    let frame ← orError "release from a non-busy buffer" buffer.busyFrame
    modifyApp fun app => { app with buffers := app.buffers.set index { buffer with busyFrame := none } }
    record env "buffer_release" r.ns [("frame_sequence", number64 frame), ("buffer_slot", .int index)]

/-- What cannot be parsed. -/
def unparsed : Fault := .error "malformed message"

def handle (r : Received) : Probe PUnit :=
  match r.message with
  | .keyboard seat event =>
    input env r seat fun d => match event with | some e => keyboardEvent d seat e | none => .error unparsed
  | .pointer seat event =>
    input env r seat fun d => match event with | some e => pointerEvent d seat e | none => .error unparsed
  | .global name interface version => global env name interface version
  | .globalRemove name => record env "global_removed" r.ns [("global_name", number32 name)]
  | .sync => initWindow env
  | .capabilities seat keyboard pointer => capabilities env seat keyboard pointer
  | .ping _ => request env
  | .configure serial => do
    request env
    modifyApp fun app => { app with configured := true, dirty := true }
    let app ← getApp
    record env "configure" r.ns
      [("protocol_serial", number32 serial), ("width", number32 app.width), ("height", number32 app.height)]
  | .toplevelConfigure width height => do
    record env "toplevel_configure" r.ns [("requested_width", .int width), ("requested_height", .int height)]
    modifyApp fun app => resize app width height
  | .close => modifyApp fun app => { app with running := false }
  | .release index => release env r index
  | .frame frame time => do
    let app ← getApp
    ensure (app.callbackPending = some frame) (.error "unexpected frame callback sequence")
    modifyApp fun app => { app with callbackPending := none }
    record env "frame_callback" r.ns [("frame_sequence", number64 frame), ("callback_time_ms_opaque", number32 time)]
  | .ignored => pure ()
  | .malformed => throw unparsed

end CocoaWay.ProbeClient
