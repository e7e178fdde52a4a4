import CocoaWay.Lib.Split

/-!
# The stdio loop of the research server

* `Frames` : the input buffer; `remaining`, `push`, `next`;
* `Server` : what the loop uses of the server;
* `Loop`, `Round`, `step`, `run` : the loop, what the system reports in a round of it, and every order of reports.
-/

namespace CocoaWay.ResearchMcp
open Lib

/-! ## Frames -/

def maxFrame : Nat := 64 * 1024

def maxResponse : Nat := 128 * 1024

def lineFeed : UInt8 := 0x0A

structure Frames where
  bytes : List UInt8
  eof : Bool

def Frames.remaining (frames : Frames) : Nat := maxFrame + 1 - frames.bytes.length

def Frames.push (frames : Frames) (bytes : List UInt8) : Except String Frames :=
  if frames.remaining < bytes.length then .error "stdin_frame_limit_exceeded"
  else .ok { frames with bytes := frames.bytes ++ bytes }

/-- The length of the next frame, if there is one. -/
def Frames.nextLength (frames : Frames) : Except String (Option Nat) :=
  match frames.bytes.findIdx? (· == lineFeed) with
  | some index => .ok (some index)
  | none =>
    if maxFrame < frames.bytes.length then .error "stdin_frame_limit_exceeded"
    else if frames.eof && !frames.bytes.isEmpty then .ok (some frames.bytes.length)
    else .ok none

def Frames.next (frames : Frames) : Except String (Option (List UInt8) × Frames) :=
  match frames.nextLength with
  | .error error => .error error
  | .ok none => .ok (none, frames)
  | .ok (some length) =>
    if maxFrame < length then .error "stdin_frame_limit_exceeded"
    else
      let consumed := min (length + 1) frames.bytes.length
      .ok (some (frames.bytes.take length), { frames with bytes := frames.bytes.drop consumed })

/-! ## The server -/

/-- What the loop uses of `Server`, with the text of its responses: ids have 256 bytes at most, and the other parts of a
response are fixed texts and counters. -/
structure Server (σ : Type) where
  handle : σ → List UInt8 → σ × Option (List UInt8)
  handle_length : ∀ s frame response, (handle s frame).2 = some response → response.length < maxResponse
  /-- `children.has_active`. -/
  hasActive : σ → Bool
  /-- `closing` is set and the children are shut down. -/
  close : σ → σ

/-! ## A round -/

/-- How the loop ends: `done` at the end of the input; `stopped` by a signal, the deadline, or a reader that is gone. -/
inductive End
  | done
  | stopped
  | failed (error : String)

/-- What is reported of a descriptor. -/
structure Revents where
  ready : Bool
  hup : Bool
  err : Bool
  nval : Bool

def Revents.quiet : Revents := ⟨false, false, false, false⟩

inductive Poll
  | interrupted
  | failed
  | reports (stdin stdout : Revents)

/-- The result of a read: no bytes at the end of the input; `again` for one that would block or was interrupted. -/
inductive Read
  | bytes (bytes : List UInt8)
  | again
  | failed

inductive Write
  | written (count : Nat)
  | again
  | failed

/-- What the system does in a round: `tick` is what has become of the children; `late` says that the drain deadline has
passed, if there is one. -/
structure Round (σ : Type) where
  tick : σ → σ
  shutdown : Bool
  late : Bool
  poll : Poll
  read : Read
  write : Write

/-- The loop, with the bytes it has read, the frames it has handled, their responses and the bytes it has written. -/
structure Loop (σ : Type) where
  server : σ
  frames : Frames
  pending : List UInt8
  written : Nat
  received : List UInt8
  handled : List (List UInt8)
  responses : List (List UInt8)
  sent : List UInt8

variable {σ : Type}

def Loop.start (s : σ) : Loop σ := ⟨s, ⟨[], false⟩, [], 0, [], [], [], []⟩

/-- The next frame, once nothing is pending. -/
def take (server : Server σ) (l : Loop σ) : Loop σ × Option End :=
  if l.pending ≠ [] then (l, none)
  else
    match l.frames.next with
    | .error error => (l, some (.failed error))
    | .ok (none, _) => (l, if l.frames.eof && !server.hasActive l.server then some .done else none)
    | .ok (some frame, frames) =>
      let (s, response) := server.handle l.server frame
      let l := { l with server := s, frames, handled := l.handled ++ [frame] }
      match response with
      | none => (l, none)
      | some encoded =>
        let l := { l with responses := l.responses ++ [encoded] }
        if maxResponse ≤ encoded.length then (l, some (.failed "response_limit_exceeded"))
        else ({ l with pending := encoded ++ [lineFeed], written := 0 }, none)

/-- The input is ready, or hung up. -/
def readInput (server : Server σ) (l : Loop σ) (read : Read) : Loop σ × Option End :=
  let capacity := min l.frames.remaining 4096
  if capacity = 0 then (l, some (.failed "stdin_buffer_limit_exceeded"))
  else
    match read with
    | .failed => (l, some (.failed "stdin_read_failed"))
    | .again => (l, none)
    | .bytes [] => ({ l with frames := { l.frames with eof := true }, server := server.close l.server }, none)
    | .bytes (b :: bs) =>
      let bytes := (b :: bs).take capacity
      match l.frames.push bytes with
      | .error error => (l, some (.failed error))
      | .ok frames => ({ l with frames, received := l.received ++ bytes }, none)

/-- The output is ready, and something is pending. -/
def writeOutput (l : Loop σ) (write : Write) : Loop σ × Option End :=
  match write with
  | .failed | .written 0 => (l, some (.failed "stdout_write_failed"))
  | .again => (l, none)
  | .written (n + 1) =>
    let bytes := l.pending.drop l.written
    let count := min (n + 1) bytes.length
    let l := { l with written := l.written + count, sent := l.sent ++ bytes.take count }
    (if l.written = l.pending.length then { l with pending := [] } else l, none)

/-- What is reported of the input: nothing at its end, and readiness only if it is asked for. -/
def stdinEvents (l : Loop σ) (stdin : Revents) : Revents :=
  if l.frames.eof then .quiet else { stdin with ready := stdin.ready && decide (0 < l.frames.remaining) }

/-- What a poll leads to. -/
def serveEvents (server : Server σ) (l : Loop σ) (r : Round σ) (stdin stdout : Revents) : Loop σ × Option End :=
  let stdin := stdinEvents l stdin
  if stdin.nval || stdout.nval then (l, some (.failed "stdio_closed"))
  else if stdout.err || stdout.hup then (l, some .stopped)
  else
    match if stdin.ready || stdin.hup || stdin.err then readInput server l r.read else (l, none) with
    | (l, some e) => (l, some e)
    | (l, none) => if l.pending ≠ [] && stdout.ready then writeOutput l r.write else (l, none)

/-- A round of the loop of `serve`. -/
def step (server : Server σ) (l : Loop σ) (r : Round σ) : Loop σ × Option End :=
  let l := { l with server := r.tick l.server }
  if r.shutdown || (l.frames.eof && r.late) then (l, some .stopped)
  else
    match take server l with
    | (l, some e) => (l, some e)
    | (l, none) =>
      match r.poll with
      | .interrupted => (l, none)
      | .failed => (l, some (.failed "stdio_poll_failed"))
      | .reports stdin stdout => serveEvents server l r stdin stdout

def run (server : Server σ) (l : Loop σ) : List (Round σ) → Loop σ × Option End
  | [] => (l, none)
  | r :: rounds =>
    match step server l r with
    | (l, some e) => (l, some e)
    | (l, none) => run server l rounds

end CocoaWay.ResearchMcp
