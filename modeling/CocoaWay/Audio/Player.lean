import CocoaWay.Lib.Lending
import CocoaWay.Lib.System

/-!
# Playing the guest's sound

The worker that reads PCM bytes from a socket and queues them in buffers that it gets back when they were played.

* `Queue`, `Queue.stop`, `Queue.drop` : the audio queue behind an output;
* `Control` : where the worker is in `play_pcm_stream`, with the `fill_audio_buffer` and the output it calls;
* `call` : the worker takes a step, with the result of the call it makes; `step`, `system` : the guest, a stop request
  and the callback come in between.
-/

namespace CocoaWay.Audio
open Lib

def channels : Nat := 2

def bitsPerChannel : Nat := 16

def framesPerBuffer : Nat := 480

def bufferCount : Nat := 8

def bytesPerFrame : Nat := channels * (bitsPerChannel / 8)

def bufferBytes : Nat := framesPerBuffer * bytesPerFrame

/-- The address of a buffer. -/
abbrev Buffer := Nat

/-! ## The queue -/

structure Queue where
  /-- Every buffer that was enqueued, with its bytes, the oldest first. -/
  enqueued : List (Buffer × List UInt8) := []
  /-- The buffers to play. -/
  pending : List Buffer := []
  /-- The buffers that were pending when the queue was stopped, or disposed of. -/
  cancelled : List Buffer := []
  started : Bool := false
  everStarted : Bool := false
  disposed : Bool := false

def Queue.enqueue (q : Queue) (buffer : Buffer) (data : List UInt8) : Queue :=
  { q with enqueued := q.enqueued ++ [(buffer, data)], pending := q.pending ++ [buffer] }

def Queue.start (q : Queue) : Queue := { q with started := true, everStarted := true }

/-- Both calls ask for an immediate end. -/
def Queue.cancel (q : Queue) : Queue := { q with cancelled := q.cancelled ++ q.pending, pending := [] }

def Queue.stop (q : Queue) : Queue := if q.started then { q.cancel with started := false } else q

def Queue.drop (q : Queue) : Queue := { q.stop.cancel with disposed := true }

/-! ## The worker -/

inductive ErrorKind
  | interrupted
  | wouldBlock
  | timedOut
  | other (error : String)

/-- What `stream.read` returns; no bytes are the end of the stream. -/
inductive Read
  | bytes (n : Nat)
  | failed (kind : ErrorKind)

/-- What a buffer is filled for. -/
inductive Next
  | prime (rest : List Buffer)
  | play

inductive Control
  | creating
  | allocating (buffers : List Buffer)
  | priming (rest : List Buffer)
  /-- At the test of the loop in `fill_audio_buffer`. -/
  | filling (buffer : Buffer) (data : List UInt8) (next : Next)
  | reading (buffer : Buffer) (data : List UInt8) (next : Next)
  | filled (buffer : Buffer) (data : List UInt8) (next : Next)
  | enqueueing (buffer : Buffer) (data : List UInt8) (next : Next)
  | starting
  /-- At the test of the loop in `play_pcm_stream`. -/
  | playing
  | receiving
  | finished (result : Except String Unit)

structure Status where
  state : String
  detail : String
  bytesPlayed : Nat

structure State where
  stop : Bool := false
  /-- Every byte that the guest wrote. -/
  sent : List UInt8 := []
  unread : List UInt8 := []
  closed : Bool := false
  queue : Queue := {}
  /-- The channel from the callback. -/
  completed : List Buffer := []
  control : Control := .creating
  bytesPlayed : Nat := 0
  statuses : List Status := []
  log : List (Move Buffer) := []

/-- The worker returns, and its output is dropped. -/
def State.finish (s : State) (result : Except String Unit) : State :=
  { s with control := .finished result, queue := s.queue.drop }

def State.recordPlaying (s : State) : State :=
  { s with statuses := s.statuses ++ [⟨"playing", "CoreAudio 48 kHz stereo", s.bytesPlayed⟩] }

def fillAudioBuffer (buffer : Buffer) (first : Option UInt8) (next : Next) : Control :=
  .filling buffer first.toList next

/-- A step of the worker, with the result of what it calls in it. -/
inductive Call
  | newOutput (status : Int)
  | allocateBuffer (status : Int) (buffer : Buffer)
  | none
  | read (result : Read)
  | enqueueBuffer (status : Int)
  | start (status : Int)
  | recv (buffer : Option Buffer)
  /-- An enqueue, and a second or more since the last status. -/
  | enqueueBufferLate (status : Int)

def readStream (s : State) (buffer : Buffer) (data : List UInt8) (next : Next) : Read → Option State
  | .bytes n =>
    if n = 0 then
      if s.unread = [] ∧ s.closed = true then some { s with control := .filled buffer data next } else none
    else if n ≤ s.unread.length ∧ n ≤ bufferBytes - data.length then
      some { s with
        unread := s.unread.drop n
        control := .filling buffer (data ++ s.unread.take n) next
        log := .use buffer :: s.log }
    else none
  | .failed (.other error) => some (s.finish (.error s!"audio socket read failed: {error}"))
  | .failed _ => some { s with control := .filling buffer data next }

def enqueue (s : State) (buffer : Buffer) (data : List UInt8) (next : Next) (status : Int) (late : Bool) : State :=
  if status = 0 then
    let s := { s with
      queue := s.queue.enqueue buffer data
      bytesPlayed := s.bytesPlayed + data.length
      log := .lend buffer :: s.log }
    match next with
    | .prime rest => { s with control := .priming rest }
    | .play => { if late then s.recordPlaying else s with control := .playing }
  else s.finish (.error s!"AudioQueueEnqueueBuffer failed with OSStatus {status}")

def call (s : State) : Call → Option State
  | .newOutput status =>
    match s.control with
    | .creating =>
      if status = 0 then some { s with control := .allocating [] }
      else some { s with control := .finished (.error s!"AudioQueueNewOutput failed with OSStatus {status}") }
    | _ => none
  | .allocateBuffer status buffer =>
    match s.control with
    | .allocating buffers =>
      if buffers.length = bufferCount then none
      else if status ≠ 0 then some (s.finish (.error s!"AudioQueueAllocateBuffer failed with OSStatus {status}"))
      else if buffer ∈ buffers then none
      else some { s with control := .allocating (buffers ++ [buffer]) }
    | _ => none
  | .none =>
    match s.control with
    | .allocating buffers => if buffers.length = bufferCount then some { s with control := .priming buffers } else none
    | .priming (buffer :: rest) => some { s with control := fillAudioBuffer buffer none (.prime rest) }
    | .priming [] => some { s with control := .starting }
    | .filling buffer data next =>
      if data.length < bufferBytes ∧ s.stop = false then some { s with control := .reading buffer data next }
      else some { s with control := .filled buffer data next }
    | .filled buffer data next =>
      if data.length = 0 then
        match next with
        | .prime _ => some (s.finish (.ok ()))
        | .play => some ({ s with queue := s.queue.stop }.finish (.ok ()))
      else some { s with control := .enqueueing buffer data next }
    | .playing =>
      if s.stop = true then some ({ s with queue := s.queue.stop }.finish (.ok ()))
      else some { s with control := .receiving }
    | _ => none
  | .read result =>
    match s.control with
    | .reading buffer data next => readStream s buffer data next result
    | _ => none
  | .enqueueBuffer status =>
    match s.control with
    | .enqueueing buffer data next => some (enqueue s buffer data next status false)
    | _ => none
  | .enqueueBufferLate status =>
    match s.control with
    | .enqueueing buffer data next => some (enqueue s buffer data next status true)
    | _ => none
  | .start status =>
    match s.control with
    | .starting =>
      if status = 0 then some { { s with queue := s.queue.start }.recordPlaying with control := .playing }
      else some (s.finish (.error s!"AudioQueueStart failed with OSStatus {status}"))
    | _ => none
  | .recv result =>
    match s.control, result, s.completed with
    -- The timeout of a wait, with the channel empty or not.
    | .receiving, none, _ => some { s with control := .playing }
    | .receiving, some buffer, first :: rest =>
      if buffer = first then
        some { s with
          completed := rest
          control := fillAudioBuffer buffer none .play
          log := .accept buffer :: s.log }
      else none
    | _, _, _ => none

/-! ## The system -/

inductive Event
  | requestStop
  | send (bytes : List UInt8)
  | close
  /-- The queue is done with a buffer, and calls `audio_queue_callback`. -/
  | complete (buffer : Buffer)
  | call (c : Call)

def step (s : State) : Event → Option State
  | .requestStop => some { s with stop := true }
  | .send bytes => if s.closed then none else some { s with sent := s.sent ++ bytes, unread := s.unread ++ bytes }
  | .close => some { s with closed := true }
  | .complete buffer =>
    if s.queue.started = true ∧ buffer ∈ s.queue.pending then
      some { s with
        queue := { s.queue with pending := s.queue.pending.erase buffer }
        completed := s.completed ++ [buffer]
        log := .finish buffer :: s.log }
    else none
  | .call c => call s c

def system : System State Event where
  init := {}
  step := step

end CocoaWay.Audio
