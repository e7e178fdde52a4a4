import CocoaWay.InputProbe.Rows
import CocoaWay.ProbeClient.Handle

/-!
# The probe client: frames

* `picture` : the pixels of a frame; `payload`, `pixels` : its marker, and the pixels of some bytes;
* `prepareBuffer`, `render` : a frame, if one is due and a buffer is free;
* `Step`, `run` : a run of the client, message by message, with frames between them.

`to_ne_bytes` is little-endian, as on the hosts of the client.
-/

namespace CocoaWay.ProbeClient
open Lib Layout
open InputProbe (Row)

/-! ## The picture -/

/-- `abs_diff`. -/
def absDiff (a b : Nat) : Nat := a - b + (b - a)

/-- The lines through the position of the pointer. -/
def crosshair (x y : Nat) : Option Position → Bool
  | none => false
  | some (px, py) =>
    let dx := (256 * (x : Int) - px).natAbs
    let dy := (256 * (y : Int) - py).natAbs
    decide (dx < 2 * 256 ∧ dy < 12 * 256) || decide (dy < 2 * 256 ∧ dx < 12 * 256)

def pixel (app : App) (stripe x y : Nat) : UInt32 :=
  let seed := app.devices.visualSeed
  let color : UInt32 := 0xff000000 ||| (seed &&& 0x00ffffff)
  let markerX := seed.toNat % (app.width.toNat - 32) + 16
  let markerY := (rotateLeft seed 13).toNat % (app.height.toNat - 32) + 16
  let keyMarker : Bool := absDiff x markerX < 12 ∧ absDiff y markerY < 12
  let animation : Bool := app.options.continuous ∧ absDiff x stripe < 3
  if 0 < y ∧ (keyMarker || crosshair x y app.devices.pointerPosition || animation) then 0xffffffff else color

/-- `scratch`, with every pixel written. -/
def picture (app : App) (stripe : Nat) : List UInt8 :=
  (List.range (app.width.toNat * app.height.toNat)).flatMap fun i =>
    toLe 4 (pixel app stripe (i % app.width.toNat) (i / app.width.toNat)).toNat

/-! ## The marker -/

def flag (b : Bool) : Nat := if b then 1 else 0

def App.currentCause (app : App) : Cause := app.cause.getD {}

def flags (app : App) : Nat :=
  flag app.cause.isSome ||| flag app.options.continuous <<< 1 ||| flag app.currentCause.time.isSome <<< 2 |||
    flag (1 < app.appliedCount) <<< 3

def fields32 (pid : UInt32) (app : App) : List (Nat × Nat) :=
  let cause := app.currentCause
  [(8, flags app), (12, cause.kind.toNat), (32, (cause.time.getD 0).toNat), (36, cause.code.toNat),
    (40, cause.state.toNat),
    (44, cause.serial.toNat), (96, app.width.toNat), (100, app.height.toNat), (104, 0), (108, pid.toNat),
    (112, cause.seat.toNat)]

def fields64 (app : App) (frame preCommitNs : UInt64) : List (Nat × Nat) :=
  let cause := app.currentCause
  [(16, frame.toNat), (24, cause.sequence.toNat), (48, cause.receiptNs.toNat), (56, cause.handlerNs.toNat),
    (64, preCommitNs.toNat), (72, app.appliedCount.toNat), (80, app.firstApplied.toNat), (88, cause.sequence.toNat)]

def payloadFields (pid : UInt32) (app : App) (frame preCommitNs : UInt64) : List Field :=
  [⟨4, 2, 1⟩, ⟨6, 2, 120⟩] ++ (fields32 pid app).map (fun (offset, value) => ⟨offset, 4, value⟩) ++
    (fields64 app frame preCommitNs).map fun (offset, value) => ⟨offset, 8, value⟩

def payload (pid : UInt32) (app : App) (frame preCommitNs : UInt64) : List UInt8 :=
  putAll (InputProbe.magic ++ List.replicate 116 0) (payloadFields pid app frame preCommitNs)

/-- An opaque pixel of three bytes. -/
def word (a b c : UInt8) : Nat := 0xff000000 ||| a.toNat <<< 16 ||| b.toNat <<< 8 ||| c.toNat

def pixels : List UInt8 → List UInt8
  | a :: b :: c :: rest => toLe 4 (word a b c) ++ pixels rest
  | _ => []

/-- `marker`. -/
def marker (pid : UInt32) (app : App) (frame preCommitNs : UInt64) :
    List UInt8 := pixels (payload pid app frame preCommitNs)

/-! ## Frames -/

variable (env : Env)

def setBuffer (index : Nat) (buffer : Buffer) : Probe PUnit :=
  modifyApp fun app => { app with buffers := app.buffers.set index buffer }

/-- A new buffer of the size of the window. -/
def replaceBuffer (index : Nat) (buffer : Buffer) : Probe PUnit := do
  let app ← getApp
  ensure buffer.busyFrame.isNone (.error "attempt to rewrite a busy buffer")
  requestIf env buffer.object.isSome
  setBuffer index {}
  -- the file
  request env
  discard (orError "missing wl_shm" app.shm)
  discard (newObject env)
  let object ← newObject env
  push (.create object app.width app.height)
  request env
  setBuffer index { object := some object, width := app.width, height := app.height }

def prepareBuffer (index : Nat) : Probe PUnit := do
  let app ← getApp
  match app.buffers[index]? with
  | none => throw .index
  | some buffer =>
    if buffer.object.isSome ∧ buffer.width = app.width ∧ buffer.height = app.height then pure ⟨⟩
    else replaceBuffer env index buffer

/-- The first buffer from the one whose turn it is that is not held. -/
def freeBuffer (app : App) : Option Nat :=
  ((List.range app.buffers.length).map fun offset =>
    (app.nextBufferSlot + offset) % app.buffers.length).find? fun index =>
    app.buffers[index]?.any fun buffer => buffer.busyFrame.isNone

def commitFields (app : App) (frame : UInt64) (index : Nat) (renderStartNs preCommitNs commitQueuedNs : UInt64) : Row :=
  let cause := app.currentCause
  [("frame_sequence", number64 frame), ("buffer_slot", .int index), ("render_start_ns", number64 renderStartNs),
    ("pre_commit_ns", number64 preCommitNs), ("commit_queued_ns", number64 commitQueuedNs),
    ("has_new_input_cause", .bool app.cause.isSome), ("cause_kind", number32 cause.kind),
    ("cause_event_sequence", number64 cause.sequence), ("cause_forwarded_event_time_ms_opaque", jsonNumber cause.time),
    ("cause_evdev_code", number32 cause.code), ("cause_raw_state", number32 cause.state),
    ("cause_protocol_serial", number32 cause.serial), ("cause_seat_global", number32 cause.seat),
    ("cause_receipt_ns", number64 cause.receiptNs), ("cause_handler_ns", number64 cause.handlerNs),
    ("applied_visual_events", number64 app.appliedCount), ("first_applied_event_sequence", number64 app.firstApplied),
    ("last_applied_event_sequence", number64 cause.sequence), ("width", number32 app.width),
      ("height", number32 app.height),
    ("continuous_animation", .bool app.options.continuous)]

/-- The stripe of an animation, with `frame * 3` checked. -/
def stripeOf (app : App) (frame : UInt64) : Except Fault Nat :=
  if frame.toNat * 3 < 2 ^ 64 then .ok (frame.toNat * 3 % app.width.toNat) else .error .overflow

def committed (index : Nat) (frame : UInt64) (app : App) : App :=
  { app with
    buffers := app.buffers.modify index fun buffer => { buffer with busyFrame := some frame }
    nextBufferSlot := (index + 1) % app.buffers.length
    callbackPending := some frame
    frameSequence := frame }

/-- Nothing is applied after the last commit. -/
def resetCause (app : App) : App := { app with cause := none, appliedCount := 0, firstApplied := 0, dirty := false }

/-- A frame in a buffer, up to its commit. -/
def renderInto (index : Nat) : Probe PUnit := do
  let app ← getApp
  let frame ← liftExcept (increment app.frameSequence)
  let renderStartNs ← now env
  let stripe ← liftExcept (stripeOf app frame)
  let object ← orError "buffer missing SHM file" (app.buffers[index]?.bind fun buffer => buffer.object)
  write env object (picture app stripe)
  discard (orError "missing surface" app.surface)
  discard (orError "missing xdg surface" app.xdg)
  -- the geometry of the window
  request env
  request env
  push (.attach object)
  -- the damage, and the callback of the frame
  request env
  discard (newObject env)
  let preCommitNs ← now env
  write env object (marker env.pid app frame preCommitNs)
  request env
  push .commit
  let commitQueuedNs ← now env
  modifyApp (committed index frame)
  record env "frame_commit" preCommitNs (commitFields app frame index renderStartNs preCommitNs commitQueuedNs)
  modifyApp resetCause

/-- All buffers before the first frame, and then the one of the frame. -/
def prepareBuffers (index : Nat) : Probe PUnit := do
  let app ← getApp
  (if app.frameSequence = 0 then List.range app.buffers.length else []).forM (prepareBuffer env)
  prepareBuffer env index

def render : Probe PUnit := do
  let app ← getApp
  if !app.running ∨ !app.configured ∨ app.callbackPending.isSome ∨ (!app.dirty ∧ !app.options.continuous) then pure ⟨⟩
  else
    match freeBuffer app with
    | none => pure ⟨⟩
    | some index => do
      prepareBuffers env index
      renderInto env index

/-! ## Runs -/

inductive Step
  | deliver (received : Received)
  | render

def step : Step → Probe PUnit
  | .deliver received => do
    push (.delivered received)
    handle env received
  | .render => render env

/-- The steps, as long as the client runs. -/
def steps : List Step → Probe PUnit
  | [] => pure ()
  | s :: rest => do
    let app ← getApp
    if app.running then do
      step env s
      steps rest
    else pure ⟨⟩

def startFields (options : Options) : Row :=
  [("clock", .str "CLOCK_MONOTONIC"), ("clock_id", .int 1), ("clock_units", .str "ns"),
    ("clock_epoch", .str "guest_system_monotonic"), ("receipt_point", .str "backend_event_delivery"),
    ("marker_version", .int 1), ("marker_payload_bytes", .int 120), ("marker_pixels", .int 40),
    ("buffers", .int options.buffers), ("continuous_animation", .bool options.continuous),
      ("input_injection", .bool false),
    ("repeat_synthesis", .bool false)]

def stopFields (app : App) : Row :=
  [("reason", .str (if app.running then "duration" else "window_close")),
    ("observed_input_events", number64 app.eventSequence),
    ("key_events", number64 app.devices.keyOrder), ("button_events", number64 app.devices.buttonOrder),
    ("key_presses", number64 app.devices.keyPresses), ("key_releases", number64 app.devices.keyReleases),
    ("button_presses", number64 app.devices.buttonPresses), ("button_releases", number64 app.devices.buttonReleases),
    ("duplicate_presses", number64 app.devices.duplicatePresses),
    ("unmatched_releases", number64 app.devices.unmatchedReleases), ("frames_committed", number64 app.frameSequence),
    ("uncommitted_visual_events", number64 app.appliedCount),
    ("busy_buffers", .int (app.buffers.countP fun buffer => buffer.busyFrame.isSome)),
    ("pending_callback_frame_sequence", (app.callbackPending.map number64).getD .none)]

/-- `run`, with the messages that are delivered and the frames between them. -/
def runProbe (options : Options) (l : List Step) : Probe PUnit := do
  let startNs ← now env
  record env "start" startNs (startFields options)
  -- the first synchronization
  request env
  steps env l
  let stopNs ← now env
  record env "stop" stopNs (stopFields (← getApp))

/-- Whether the client failed, with all that happened. -/
def run (options : Options) (l : List Step) : EStateM.Result Fault World PUnit :=
  runProbe env options l { app := { options } }

end CocoaWay.ProbeClient
