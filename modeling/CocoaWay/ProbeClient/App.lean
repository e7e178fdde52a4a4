import CocoaWay.InputProbe.Rows
import CocoaWay.Lib.Layout
import Mathlib.Data.Finset.Basic

/-!
# The probe client: its state, and the events of its devices

* `Message`, `Received` : what the compositor delivers;
* `Devices` : what the keyboards and pointers did; `transition`, `keyboardEvent`, `pointerEvent` : one event of them;
* `Cause`, `Buffer`, `App` : the state of the client.

Additions of counters are checked. Positions are in 1/256 of a pixel, and the value of an axis is the bits of its float.
-/

namespace CocoaWay.ProbeClient
open Lib

/-- An object of the connection, by its serial. -/
abbrev Object := Nat

inductive Fault
  | error (message : String)
  /-- A request or a system call that failed. -/
  | io
  /-- A panic. -/
  | overflow
  | index

/-- `+= 1`. -/
def increment (n : UInt64) : Except Fault UInt64 := if n.toNat + 1 < 2 ^ 64 then .ok (n + 1) else .error .overflow

def rotateLeft (x : UInt32) (n : UInt32) : UInt32 := (x <<< n) ||| (x >>> (32 - n))

/-! ## Messages -/

abbrev Position := Int × Int

inductive KeyboardEvent
  | key (serial time key state : UInt32)
  | enter (serial : UInt32) (keys : List UInt8)
  | leave (serial : UInt32)
  | keymap
  | modifiers (serial : UInt32)
  | repeatInfo
  | other

inductive PointerEvent
  | button (serial time button state : UInt32)
  | motion (time : UInt32) (position : Position)
  | enter (serial : UInt32) (position : Position)
  | leave (serial : UInt32)
  | axis (time axis : UInt32) (bits : UInt64)
  | axisStop (time axis : UInt32)
  | frame
  | axisSource
  | axisDiscrete
  | other

/-- A message, by the kind of the object it is sent to; `none` and `malformed` are those that cannot be parsed. -/
inductive Message
  | global (name : UInt32) (interface : String) (version : UInt32)
  | globalRemove (name : UInt32)
  | sync
  | capabilities (seat : UInt32) (keyboard pointer : Bool)
  | keyboard (seat : UInt32) (event : Option KeyboardEvent)
  | pointer (seat : UInt32) (event : Option PointerEvent)
  | ping (serial : UInt32)
  | configure (serial : UInt32)
  | toplevelConfigure (width height : Int)
  | close
  | release (index : Nat)
  | frame (frame : UInt64) (time : UInt32)
  | ignored
  | malformed

structure Received where
  ns : UInt64
  sender : Object
  /-- `protocol_id` of the sender. -/
  senderId : UInt32
  message : Message

/-! ## Devices -/

structure Seat where
  object : Object
  version : UInt32
  keyboard : Option Object := none
  pointer : Option Object := none
  keys : Finset UInt32 := ∅
  buttons : Finset UInt32 := ∅

structure Devices where
  seats : UInt32 → Option Seat := fun _ => none
  keyOrder : UInt64 := 0
  buttonOrder : UInt64 := 0
  keyPresses : UInt64 := 0
  keyReleases : UInt64 := 0
  buttonPresses : UInt64 := 0
  buttonReleases : UInt64 := 0
  duplicatePresses : UInt64 := 0
  unmatchedReleases : UInt64 := 0
  visualSeed : UInt32 := 0x204860
  pointerPosition : Option Position := none

def Devices.setSeat (d : Devices) (name : UInt32) (seat : Seat) : Devices :=
  { d with seats := Function.update d.seats name (some seat) }

inductive OrderStatus
  | notKeyOrButton
  | press
  | duplicatePress
  | release
  | unmatchedRelease
  | unknownState

def OrderStatus.text : OrderStatus → String
  | notKeyOrButton => "not_key_or_button"
  | press => "press"
  | duplicatePress => "duplicate_press"
  | release => "release"
  | unmatchedRelease => "unmatched_release"
  | unknownState => "unknown_state"

structure Transition where
  down : Finset UInt32
  presses : UInt64
  releases : UInt64
  status : OrderStatus

def transition (down : Finset UInt32) (code state : UInt32) (presses releases : UInt64) : Except Fault Transition :=
  if state = 1 then do
    let presses ← increment presses
    return ⟨insert code down, presses, releases, if code ∈ down then .duplicatePress else .press⟩
  else if state = 0 then do
    let releases ← increment releases
    return ⟨down.erase code, presses, releases, if code ∈ down then .release else .unmatchedRelease⟩
  else .ok ⟨down, presses, releases, .unknownState⟩

/-- What is known of an event when it was applied. -/
structure Effect where
  name : String
  kind : UInt32 := 0
  time : Option UInt32 := none
  code : UInt32 := 0
  state : UInt32 := 0
  serial : UInt32 := 0
  protocolSerial : Option UInt32 := none
  axisKind : Option UInt32 := none
  orderStatus : OrderStatus := .notKeyOrButton
  changed : Bool := false

/-- `chunks_exact(4)`, each a number. -/
def words : List UInt8 → List UInt32
  | a :: b :: c :: d :: rest => UInt32.ofNat (Layout.fromLe [a, b, c, d]) :: words rest
  | _ => []

def keyboardEvent (d : Devices) (name : UInt32) (event : KeyboardEvent) : Except Fault (Devices × Effect) :=
  match d.seats name with
  | none => .error (.error "keyboard for unknown seat")
  | some seat =>
    match event with
    | .key serial time key state => do
      let order ← increment d.keyOrder
      let t ← transition seat.keys key state d.keyPresses d.keyReleases
      return ({ d.setSeat name { seat with keys := t.down } with
          keyOrder := order
          keyPresses := t.presses
          keyReleases := t.releases
          visualSeed := key * 0x9e3779b9 ^^^ rotateLeft order.toUInt32 11 ^^^ state },
        { name := "key", kind := 1, time := some time, code := key, state := state, serial := serial
          protocolSerial := some serial, orderStatus := t.status, changed := true })
    | .enter serial keys =>
      .ok (d.setSeat name { seat with keys := (words keys).toFinset },
        { name := "keyboard_enter", protocolSerial := some serial })
    | .leave serial =>
      .ok (d.setSeat name { seat with keys := ∅ }, { name := "keyboard_leave", protocolSerial := some serial })
    | .keymap => .ok (d, { name := "keyboard_keymap" })
    | .modifiers serial => .ok (d, { name := "keyboard_modifiers", protocolSerial := some serial })
    | .repeatInfo => .ok (d, { name := "keyboard_repeat_info" })
    | .other => .ok (d, { name := "keyboard_other" })

/-- The buttons of a seat are forgotten. -/
def clearButtons (d : Devices) (name : UInt32) : Except Fault Devices :=
  match d.seats name with
  | none => .error (.error "pointer for unknown seat")
  | some seat => .ok (d.setSeat name { seat with buttons := ∅ })

def pointerEvent (d : Devices) (name : UInt32) : PointerEvent → Except Fault (Devices × Effect)
  | .button serial time button state => do
    let order ← increment d.buttonOrder
    match d.seats name with
    | none => .error (.error "pointer for unknown seat")
    | some seat => do
      let t ← transition seat.buttons button state d.buttonPresses d.buttonReleases
      return ({ d.setSeat name { seat with buttons := t.down } with
          buttonOrder := order
          buttonPresses := t.presses
          buttonReleases := t.releases
          visualSeed := button * 0x85ebca6b ^^^ rotateLeft order.toUInt32 7 ^^^ state },
        { name := "button", kind := 2, time := some time, code := button, state := state, serial := serial
          protocolSerial := some serial, orderStatus := t.status, changed := true })
  | .motion time position =>
    .ok ({ d with pointerPosition := some position },
      { name := "pointer_motion", kind := 3, time := some time, changed := true })
  | .enter serial position => do
    let d ← clearButtons { d with pointerPosition := some position } name
    return (d, { name := "pointer_enter", kind := 4, serial := serial, protocolSerial := some serial, changed := true })
  | .leave serial => do
    let d ← clearButtons { d with pointerPosition := none } name
    return (d, { name := "pointer_leave", kind := 5, serial := serial, protocolSerial := some serial, changed := true })
  | .axis time axis bits =>
    .ok ({ d with visualSeed := rotateLeft d.visualSeed 3 ^^^ bits.toUInt32 },
      { name := "pointer_axis", kind := 6, time := some time, code := axis, axisKind := some axis, changed := true })
  | .axisStop time axis => .ok (d, { name := "pointer_axis_stop", time := some time, axisKind := some axis })
  | .frame => .ok (d, { name := "pointer_frame" })
  | .axisSource => .ok (d, { name := "pointer_axis_source" })
  | .axisDiscrete => .ok (d, { name := "pointer_axis_discrete" })
  | .other => .ok (d, { name := "pointer_other" })

/-- The counts of what is out of order. -/
def countOrder (d : Devices) (status : OrderStatus) : Except Fault Devices :=
  match status with
  | .duplicatePress => do return { d with duplicatePresses := ← increment d.duplicatePresses }
  | .unmatchedRelease => do return { d with unmatchedReleases := ← increment d.unmatchedReleases }
  | _ => .ok d

/-! ## The client -/

inductive Output
  | off
  | stderr
  | stdout
  deriving DecidableEq

/-- What `options` accepts. -/
structure Options where
  output : Output
  continuous : Bool
  tag : String
  buffers : Nat
  width : UInt32
  height : UInt32
  buffers_mem : 2 ≤ buffers ∧ buffers ≤ 3
  width_mem : 64 ≤ width.toNat ∧ width.toNat ≤ 2048
  height_mem : 64 ≤ height.toNat ∧ height.toNat ≤ 2048

/-- The last event that changed the picture. -/
structure Cause where
  kind : UInt32 := 0
  sequence : UInt64 := 0
  time : Option UInt32 := none
  code : UInt32 := 0
  state : UInt32 := 0
  serial : UInt32 := 0
  seat : UInt32 := 0
  receiptNs : UInt64 := 0
  handlerNs : UInt64 := 0

/-- The file is that of the object. -/
structure Buffer where
  object : Option Object := none
  width : UInt32 := 0
  height : UInt32 := 0
  busyFrame : Option UInt64 := none

structure App where
  options : Options
  compositor : Option Object := none
  shm : Option Object := none
  wm : Option Object := none
  surface : Option Object := none
  xdg : Option Object := none
  toplevel : Option Object := none
  devices : Devices := {}
  buffers : List Buffer := List.replicate options.buffers {}
  nextBufferSlot : Nat := 0
  width : UInt32 := options.width
  height : UInt32 := options.height
  configured : Bool := false
  dirty : Bool := true
  callbackPending : Option UInt64 := none
  running : Bool := true
  eventSequence : UInt64 := 0
  frameSequence : UInt64 := 0
  cause : Option Cause := none
  appliedCount : UInt64 := 0
  firstApplied : UInt64 := 0

end CocoaWay.ProbeClient
