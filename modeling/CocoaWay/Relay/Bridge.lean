import Mathlib.Data.List.Sort
import CocoaWay.Lib.System
import CocoaWay.Lib.Table
import CocoaWay.Relay.Wire

/-!
# The host bridge of `apple_container_transport.rs`

* `Peer`, `Input`, `State` : a local stream, the frame decoder, the bridge;
* `State.readInput` : `Input::read`, with what the reader and `connect` answer;
* `State.retire`, `State.writeOutput`, `State.peerTurn` : the other parts of the loop;
* `State.iterate` : one turn of the loop of `bridge_with_limits`, with everything the system answers in it;
* `step`, `system` : the guest sends frames, or bytes that are no frame, and the bridge takes turns.

A failure stops the loop where it happens: `State.andThen` runs the rest of a turn only while there is no result. The
fields after `result` record what happened: the frames the guest has sent (`guest`, `tail`) and those whose header is
still to be decoded (`todo`), what was decoded (`items`), the frames queued for the guest (`sent`, under the number of
their stream) and written (`written`), and the streams that ended (`retired`, `rejected`).
-/

namespace CocoaWay.Relay
open Lib

/-- `Limits`; deadlines pass when the environment says so. -/
structure Limits where
  peers : Nat
  peerBytes : Nat
  transportBytes : Nat
  chunks : Nat

/-- The limits `bridge_with_limits` takes. -/
def Limits.valid (limits : Limits) : Bool :=
  decide (limits.peers ≠ 0 ∧ limits.peerBytes ≠ 0 ∧ headerSize < limits.transportBytes ∧ limits.chunks ≠ 0)

inductive BridgeError where
  | unexpectedEof
  | ioFailed
  /-- "invalid container relay frame header" -/
  | invalidHeader
  /-- "duplicate relay stream id" -/
  | duplicateStream
  /-- "relay channel exceeded its queue/frame deadline" -/
  | timedOut
  | connectionAborted
  | brokenPipe
  /-- "invalid relay limits" -/
  | invalidLimits
  /-- The assertion of `Queue::push`. -/
  | panicked
  deriving DecidableEq

/-- A local stream; `serial` counts the OPEN frames, `accepted`, `delivered` and `taken` are the bytes queued for the
local socket, written to it and read from it. -/
structure Peer where
  input : Queue
  connecting : Bool
  /-- `retry_at` is set. -/
  retrying : Bool
  hostEof : Bool
  guestClosed : Bool
  serial : Nat
  accepted : Bytes
  delivered : Bytes
  taken : Bytes

/-- `Input`: the header read so far, what is left of the payload, and a rejected OPEN that waits for its CLOSE. -/
structure Input where
  header : Bytes
  remaining : Option Nat
  rejectedOpen : Bool

def Input.new : Input := { header := [], remaining := none, rejectedOpen := false }

/-- What the decoder has made of the bytes of the guest, and the ends of streams in between. -/
inductive Item where
  | opened (id : UInt32)
  | rejected (id : UInt32)
  | dataHeader (id : UInt32) (length : Nat)
  | byte (id : UInt32) (b : UInt8)
  | closed (id : UInt32)
  | retired (id : UInt32)
  deriving DecidableEq

structure State where
  input : Input
  peers : Table UInt32 Peer
  output : Queue
  transportEof : Bool
  /-- A `usize` that wraps. -/
  rotation : Nat
  /-- What the guest has sent and the bridge has not read. -/
  wire : Bytes
  result : Option (Except BridgeError Unit)
  guest : List Frame
  tail : Option Bytes
  todo : List Frame
  items : List Item
  sent : List (Nat × Frame)
  written : Bytes
  opens : Nat
  retired : List (UInt32 × Peer)
  rejected : List (Nat × UInt32)

/-- The bridge at the start of its loop; invalid limits end it at once. -/
def State.new (limits : Limits) : State :=
  { input := .new, peers := ∅, output := .new limits.transportBytes limits.chunks, transportEof := false, rotation := 0,
    wire := [], result := if limits.valid then none else some (.error .invalidLimits), guest := [], tail := none,
    todo := [], items := [], sent := [], written := [], opens := 0, retired := [], rejected := [] }

/-! ## What the system answers -/

/-- A read of the transport. -/
inductive ReadOutcome where
  | upTo (n : Nat)
  | retry
  | eof
  | failed

/-- A read of a local socket. -/
inductive Received where
  | bytes (bytes : Bytes)
  | retry
  | eof
  | failed

inductive WriteOutcome where
  | wrote (n : Nat)
  | retry
  | failed

/-- `connect`: connected, in progress, to be retried, or an error. -/
inductive Connect where
  | connected
  | connecting
  | retryLater
  | failed
  deriving DecidableEq

/-- The answers to one call of `Input::read`. -/
structure Answers where
  header : ReadOutcome
  payload : ReadOutcome
  connect : Connect

/-- The answers for a local socket after `poll`. -/
structure PeerReady where
  writable : Bool
  readable : Bool
  error : Bool
  hangup : Bool
  /-- `take_error` of a connecting socket. -/
  connectError : Bool
  write : WriteOutcome
  read : Received

inductive Poll where
  | interrupted
  | failed
  | ready

/-- Everything the system answers in one turn of the loop. -/
structure Turn where
  /-- The answer to `connect` for a stream whose retry is due. -/
  retries : UInt32 → Option Connect
  resume : Answers
  expired : Bool
  poll : Poll
  transportReady : Bool
  transport : Answers
  writerBroken : Bool
  writerReady : Bool
  write : WriteOutcome
  peers : UInt32 → PeerReady

/-! ## Small steps -/

namespace State

def fail (s : State) (error : BridgeError) : State := { s with result := some (.error error) }

/-- Go on unless the loop has ended. -/
def andThen (s : State) (f : State → State) : State := if s.result.isSome then s else f s

/-- `output.push(encoded(..))`, for the stream with the number. -/
def pushFrame (s : State) (serial : Nat) (frame : Frame) : State :=
  match s.output.push frame.encode with
  | some output => { s with output := output, sent := s.sent ++ [(serial, frame)] }
  | none => s.fail .panicked

def setPeer (s : State) (id : UInt32) (peer : Peer) : State := { s with peers := s.peers.set id peer }

/-- `reset`. -/
def resetInput (s : State) : State := { s with input := .new }

/-! ## `Input::read` -/

/-- `readable`. -/
def readable (s : State) : Bool :=
  if s.input.header.length < headerSize then true
  else if headerKind s.input.header = kindData then
    (s.peers.get (headerId s.input.header)).all fun peer => peer.guestClosed || decide (0 < peer.input.room)
  else if headerKind s.input.header = kindOpen then
    !s.input.rejectedOpen || decide (headerSize ≤ s.output.room)
  else true

/-- A rejected OPEN is answered when the output has room for the CLOSE. -/
def answerRejected (s : State) (id : UInt32) : State :=
  if s.output.room < headerSize then s
  else (s.pushFrame (s.opens - 1) (.close id)).andThen resetInput

/-- The OPEN of a new stream. -/
def decodeOpen (limits : Limits) (s : State) (id : UInt32) (connect : Connect) : State :=
  if s.input.rejectedOpen then s.answerRejected id
  else if (s.peers.get id).isSome then s.fail .duplicateStream
  else if s.peers.keys.length < limits.peers ∧ connect ≠ .failed then
    resetInput { s with
      peers := s.peers.set id
        { input := .new limits.peerBytes limits.chunks, connecting := decide (connect = .connecting),
          retrying := decide (connect = .retryLater), hostEof := false, guestClosed := false, serial := s.opens,
          accepted := [], delivered := [], taken := [] }
      opens := s.opens + 1
      todo := s.todo.tail
      items := s.items ++ [.opened id] }
  else
    answerRejected { s with
      input := { s.input with rejectedOpen := true }
      opens := s.opens + 1
      rejected := s.rejected ++ [(s.opens, id)]
      todo := s.todo.tail
      items := s.items ++ [.rejected id] } id

def decodeClose (s : State) (id : UInt32) : State :=
  let s := { s with todo := s.todo.tail, items := s.items ++ [Item.closed id] }
  match s.peers.get id with
  | some peer => (s.setPeer id { peer with guestClosed := true }).resetInput
  | none => s.resetInput

/-- A part of a payload of `length` bytes has been read. -/
def payloadRead (s : State) (id : UInt32) (length : Nat) (bytes : Bytes) : State :=
  let s := { s with
    wire := s.wire.drop bytes.length
    items := s.items ++ bytes.map (Item.byte id)
    input := { s.input with remaining := some (length - bytes.length) } }
  if length = bytes.length then s.resetInput else s

/-- The next part of a payload of which `length` bytes are left. -/
def decodePayload (s : State) (id : UInt32) (length : Nat) (outcome : ReadOutcome) : State :=
  if length = 0 then s.resetInput
  else
    let peer := (s.peers.get id).filter fun peer => !peer.guestClosed
    let room := peer.elim chunkSize fun peer => peer.input.room
    if room = 0 then s
    else
      match outcome with
      | .eof => s.fail .unexpectedEof
      | .failed => s.fail .ioFailed
      | .retry => s
      | .upTo n =>
        let bytes := s.wire.take (min n (min (min length chunkSize) room))
        if bytes = [] then s
        else
          match peer with
          | none => s.payloadRead id length bytes
          | some peer =>
            match peer.input.push bytes with
            | none => s.fail .panicked
            | some input =>
              (s.setPeer id { peer with input := input, accepted := peer.accepted ++
                bytes }).payloadRead id length bytes

/-- The part of `Input::read` behind a complete header. -/
def decode (limits : Limits) (s : State) (answers : Answers) : State :=
  let kind := headerKind s.input.header
  let id := headerId s.input.header
  let length := s.input.remaining.getD (headerLength s.input.header)
  let fresh := s.input.remaining.isNone
  let s := { s with input := { s.input with remaining := some length } }
  if maxFrame < length ∨ kind ∉ [kindOpen, kindData, kindClose] ∨ (kind ≠ kindData ∧ length ≠ 0) then
    s.fail .invalidHeader
  else if kind = kindOpen then s.decodeOpen limits id answers.connect
  else if kind = kindClose then s.decodeClose id
  else if fresh then
    decodePayload { s with todo := s.todo.tail, items := s.items ++ [.dataHeader id length] } id length answers.payload
  else s.decodePayload id length answers.payload

/-- `Input::read`; `false` on a clean end of the transport. -/
def readInput (limits : Limits) (s : State) (answers : Answers) : State × Bool :=
  if s.input.header.length < headerSize then
    match answers.header with
    | .eof => if s.input.header = [] then (s, false) else (s.fail .unexpectedEof, true)
    | .failed => (s.fail .ioFailed, true)
    | .retry => (s, true)
    | .upTo n =>
      let bytes := s.wire.take (min n (headerSize - s.input.header.length))
      let s := { s with
        wire := s.wire.drop bytes.length
        input := { s.input with header := s.input.header ++ bytes } }
      if s.input.header.length < headerSize then (s, true) else (s.decode limits answers, true)
  else (s.decode limits answers, true)

/-! ## The loop -/

/-- The peers in the order of their ids. -/
def ids (s : State) : List UInt32 := s.peers.keys.insertionSort (· ≤ ·)

/-- A retry of `connect` that is due. -/
def retryConnect (turn : Turn) (s : State) (id : UInt32) : State :=
  match s.peers.get id with
  | none => s
  | some peer =>
    if peer.retrying then
      match turn.retries id with
      | none => s
      | some .failed => s.fail .ioFailed
      | some connect =>
        s.setPeer id { peer with
          connecting := decide (connect = .connecting)
          retrying := decide (connect = .retryLater) }
    else s

/-- A stream with nothing left to write whose guest or host side has ended. -/
def retirable (s : State) (id : UInt32) : Bool :=
  (s.peers.get id).any fun peer => peer.input.isEmpty && (peer.guestClosed || peer.hostEof)

/-- Retire the streams in order, up to the first CLOSE that finds no room. -/
def retire : List UInt32 → State → State
  | [], s => s
  | id :: ids, s =>
    match s.peers.get id with
    | none => retire ids s
    | some peer =>
      let gone := fun s : State =>
        { s with
          peers := s.peers.remove id
          retired := s.retired ++ [(id, peer)]
          items := s.items ++ [.retired id] }
      if peer.guestClosed then retire ids (gone s)
      else if s.output.room < headerSize then s
      else (s.pushFrame peer.serial (.close id)).andThen fun s => retire ids (gone s)

/-- Nothing is left to write in either direction. -/
def drained (s : State) : Bool :=
  s.output.isEmpty && s.ids.all fun id => (s.peers.get id).all fun peer => peer.input.isEmpty

/-- `output.write(writer)`. -/
def writeOutput (s : State) (outcome : WriteOutcome) : State :=
  match outcome with
  | .failed => s.fail .ioFailed
  | .retry => s
  | .wrote n =>
    match s.output.write n with
    | some (output, bytes) => { s with output := output, written := s.written ++ bytes }
    | none => s

/-- What is polled for a stream: its id, whether it may be written and whether it may be read. -/
def polled (s : State) (id : UInt32) : UInt32 × Bool × Bool :=
  match s.peers.get id with
  | none => (id, false, false)
  | some peer =>
    (id, !peer.retrying && (peer.connecting || !peer.input.isEmpty),
      !s.transportEof && !peer.connecting && !peer.retrying && !peer.hostEof && !peer.guestClosed &&
        decide (headerSize < s.output.room))

def writePeer (s : State) (id : UInt32) (outcome : WriteOutcome) : State :=
  match s.peers.get id with
  | none => s
  | some peer =>
    match outcome with
    | .failed => s.fail .ioFailed
    | .retry => s
    | .wrote n =>
      match peer.input.write n with
      | some (input, bytes) => s.setPeer id { peer with input := input, delivered := peer.delivered ++ bytes }
      | none => s

def readPeer (s : State) (id : UInt32) (received : Received) : State :=
  match s.peers.get id with
  | none => s
  | some peer =>
    if !s.transportEof && !peer.hostEof && !peer.guestClosed && decide (headerSize < s.output.room) then
      match received with
      | .eof => s.setPeer id { peer with hostEof := true }
      | .retry => s
      | .failed => s.fail .ioFailed
      | .bytes bytes =>
        let bytes := bytes.take (min chunkSize (s.output.room - headerSize))
        if bytes = [] then s
        else (s.pushFrame peer.serial (.data id bytes)).andThen fun s =>
          s.setPeer id { peer with taken := peer.taken ++ bytes }
    else s

/-- The turn of one stream after `poll`. -/
def peerTurn (turn : Turn) (s : State) (entry : UInt32 × Bool × Bool) : State :=
  let id := entry.1
  let ready := turn.peers id
  match s.peers.get id with
  | none => s
  | some peer =>
    let error := ready.error && (entry.2.1 || entry.2.2)
    let hangup := ready.hangup && (entry.2.1 || entry.2.2)
    if peer.connecting then
      if (ready.writable && entry.2.1) || error || hangup then
        if ready.connectError then s.fail .ioFailed else s.setPeer id { peer with connecting := false }
      else s
    else if error || (hangup && !peer.input.isEmpty) then s.fail .brokenPipe
    else
      (if ready.writable && entry.2.1 then s.writePeer id ready.write else s).andThen fun s =>
        if (ready.readable && entry.2.2) || hangup then s.readPeer id ready.read else s

/-- The turns of the polled streams, in order. -/
def peerTurns (turn : Turn) : List (UInt32 × Bool × Bool) → State → State
  | [], s => s
  | entry :: entries, s => (s.peerTurn turn entry).andThen (peerTurns turn entries)

/-- The retries that are due, in order. -/
def retryConnects (turn : Turn) : List UInt32 → State → State
  | [], s => s
  | id :: ids, s => (s.retryConnect turn id).andThen (retryConnects turn ids)

/-- The part of a turn behind `poll`. -/
def afterPoll (limits : Limits) (turn : Turn) (canRead : Bool) (entries : List (UInt32 × Bool × Bool)) (s : State) :
    State :=
  (if !s.transportEof && turn.transportReady then
    if !canRead then s.fail .connectionAborted
    else
      let r := s.readInput limits turn.transport
      if r.2 then r.1 else { r.1 with transportEof := true }
  else s).andThen fun s =>
  (if (!s.transportEof || !s.output.isEmpty) && turn.writerBroken then s.fail .brokenPipe else s).andThen fun s =>
  (if turn.writerReady then s.writeOutput turn.write else s).andThen (peerTurns turn entries)

/-- The part of a turn behind the retired streams: the loop ends, or polls. -/
def pollTurn (limits : Limits) (turn : Turn) (s : State) : State :=
  if s.transportEof && s.drained then { s with result := some (.ok ()) }
  else
    let canRead := s.readable
    let entries := (s.ids.rotateLeft (s.rotation % s.ids.length)).map s.polled
    let s := if s.ids.isEmpty then s else { s with rotation := (s.rotation + 1) % 2 ^ 64 }
    match turn.poll with
    | .interrupted => s
    | .failed => s.fail .ioFailed
    | .ready => afterPoll limits turn canRead entries s

/-- One turn of the loop of `bridge_with_limits`. -/
def iterate (limits : Limits) (turn : Turn) (s : State) : State :=
  (retryConnects turn s.ids s).andThen fun s =>
  (if !s.transportEof && decide (s.input.header.length = headerSize) && s.readable then
    (s.readInput limits turn.resume).1
  else s).andThen fun s =>
  (if turn.expired then s.fail .timedOut else s).andThen fun s =>
  (retire (s.ids.filter s.retirable) s).andThen (pollTurn limits turn)

end State

/-! ## The system -/

inductive Event where
  /-- The guest sends a frame. -/
  | guest (frame : Frame)
  /-- The guest sends bytes that do not start with a frame, and nothing after them. -/
  | garbage (bytes : Bytes)
  | turn (turn : Turn)

/-- The transitions; nothing happens after the loop has ended. -/
def step (limits : Limits) (s : State) : Event → Option State
  | .guest frame =>
    if s.result.isNone ∧ s.tail = none ∧ frame.payload.length ≤ maxFrame then
      some { s with wire := s.wire ++ frame.encode, guest := s.guest ++ [frame], todo := s.todo ++ [frame] }
    else none
  | .garbage bytes =>
    if s.result.isNone ∧ s.tail = none ∧ (bytes.length < headerSize ∨ validHeader bytes = false) then
      some { s with wire := s.wire ++ bytes, tail := some bytes }
    else none
  | .turn turn => if s.result.isNone then some (s.iterate limits turn) else none

def system (limits : Limits) : System State Event := ⟨.new limits, step limits⟩

end CocoaWay.Relay
