import CocoaWay.Lib.Ledger
import CocoaWay.Lib.System
import Mathlib.Data.List.Basic
import Mathlib.Data.Nat.Bitwise

/-!
# Latency traces: calls, close and the writer

* `Stage`, `Tags`, `TraceEvent` : the milestones and their tags;
* `enqueue` : an attempt to record one event: the event to send, or `none` where it is rejected;
* `record` : the attempts a recording call makes once it is admitted, in order;
* `CAPTURE_CLOSED` and `isClosed`, `close`, `closedAndIdle` : the admission word, whose low bits count the active calls;
* `Phase`, `Call` : where a recording call is, and how its attempts were counted so far;
* `Writer` : where the writer thread is;
* `State`, `system` : the counters, the bounded queue, the calls of all threads and the writer, one atomic step at a
  time.
-/

namespace CocoaWay.Latency
open Lib

/-! ## What a recording call attempts -/

def MAX_TAG_BYTES : Nat := 256

inductive Stage
  | hostNativeInput
  | hostInputHandled
  | forwarded
  | surfaceCommit
  | composeStarted
  | cpuSubmitted
  | metalPresented
  | drawableAcquireStarted
  | drawableAcquireFinished
  | composeFinished
  | gpuStarted
  | gpuCompleted
  | gpuCompletionCallback
  | gpuCommandFailed
  | metalPresentedCallback
  | frameCallbackDone
  deriving DecidableEq

def Stage.requiresReportedTime : Stage → Bool
  | .metalPresented | .gpuStarted | .gpuCompleted => true
  | _ => false

inductive Tag
  | string (s : String)
  | u64 (n : Nat)
  deriving DecidableEq

structure Tags where
  correlationId : Option Tag := none
  sourceEventSerial : Option Tag := none
  sourceEventTime : Option Tag := none
  windowId : Option Tag := none
  probeMarker : Option (List UInt8) := none
  surfaceId : Option Tag := none
  commitFlags : Option Nat := none
  deriving DecidableEq

/-- An event of the trace; its clock is always the host's. -/
structure TraceEvent where
  stage : Stage
  timestampNs : Nat
  tags : Tags
  deriving DecidableEq

/-- Empty and oversized strings are no tags. -/
def Tag.invalid : Tag → Bool
  | .string s => s.utf8ByteSize = 0 || MAX_TAG_BYTES < s.utf8ByteSize
  | .u64 _ => false

/-- One attempt: the event handed to the queue, or `none` where it is rejected. -/
abbrev Attempt := Option TraceEvent

/-- `enqueue`, up to the queue. -/
def enqueue (stage : Stage) (timestampNs : Nat) (tags : Tags) : Attempt :=
  let values := [tags.correlationId, tags.sourceEventSerial, tags.sourceEventTime, tags.windowId, tags.surfaceId]
  if (stage.requiresReportedTime && timestampNs == 0) || values.any fun value => value.any Tag.invalid then none
  else some ⟨stage, timestampNs, tags⟩

/-- `record`; `now` is the host clock. -/
def record (stage : Stage) (now : Nat) (tags : Tags) : List Attempt :=
  if stage.requiresReportedTime then [none] else [enqueue stage now tags]

def QUEUE_CAPACITY : Nat := 1024

/-- The top bit of the admission word. -/
def CAPTURE_CLOSED : Nat := 2 ^ 63

/-! ## The admission word -/

def isClosed (admission : Nat) : Bool := admission.testBit 63

/-- `close`: `fetch_or`. -/
def close (admission : Nat) : Nat := admission ||| CAPTURE_CLOSED

def closedAndIdle (admission : Nat) : Bool := admission = CAPTURE_CLOSED

/-- A word that counts `active` calls. -/
def encode (closed : Bool) (active : Nat) : Nat := active + if closed then CAPTURE_CLOSED else 0

theorem isClosed_encode {active : Nat} (h : active < CAPTURE_CLOSED) (closed : Bool) :
    isClosed (encode closed active) = closed := by
  unfold isClosed encode CAPTURE_CLOSED at *
  cases closed with
  | false => exact Nat.testBit_lt_two_pow h
  | true =>
    rw [if_pos rfl, Nat.add_comm, Nat.testBit_two_pow_add_eq, Nat.testBit_lt_two_pow h]
    rfl

theorem close_encode {active : Nat} (h : active < CAPTURE_CLOSED) (closed : Bool) :
    close (encode closed active) = encode true active := by
  unfold close encode CAPTURE_CLOSED at *
  have hor : 2 ^ 63 ||| active = 2 ^ 63 + active := by
    have := Nat.two_pow_add_eq_or_of_lt h 1
    rw [Nat.mul_one] at this
    exact this.symm
  cases closed with
  | false =>
    rw [if_neg Bool.false_ne_true, if_pos rfl, Nat.add_zero, Nat.or_comm, hor, Nat.add_comm]
  | true =>
    rw [if_pos rfl, Nat.add_comm active, ← hor, Nat.or_comm, ← Nat.or_assoc, Nat.or_self]

theorem closedAndIdle_encode {active : Nat} (h : active < CAPTURE_CLOSED) (closed : Bool) :
    closedAndIdle (encode closed active) = true ↔ closed = true ∧ active = 0 := by
  unfold closedAndIdle encode
  cases closed with
  | false => simp; omega
  | true => simp

/-! ## Calls -/

/-- How an attempt was counted. -/
inductive Outcome
  | accepted
  | dropped
  | rejected
  | late
  deriving DecidableEq

inductive Phase
  /-- `enter`; what was loaded of the admission word. -/
  | entering (loaded : Option Nat)
  /-- The capture was found closed; the late call is still to be counted. -/
  | refusing
  /-- Admitted, with the attempts still to be made. -/
  | recording (todo : List Attempt)
  /-- The queue refused an event; the drop is still to be counted. -/
  | dropping (todo : List Attempt)
  | refused
  | finished
  deriving DecidableEq

structure Call where
  plan : List Attempt
  phase : Phase
  /-- How the attempts made so far were counted, oldest first. -/
  outcomes : List Outcome := []
  deriving DecidableEq

/-- Returned by the writer. -/
structure CaptureSummary where
  dropped : Nat
  rejected : Nat
  lateRecordCallsObserved : Nat
  lifetimeLossTotalsKnown : Bool
  deriving DecidableEq

inductive Writer
  /-- At the head of the loop. -/
  | top
  | waiting
  /-- All producers are gone; the capture is still to be closed. -/
  | disconnected
  /-- Closed and idle was observed. -/
  | draining
  | writing (event : TraceEvent)
  /-- The queue was drained; the counters are read one by one. -/
  | drained (producersGone : Bool)
  | readDropped (producersGone : Bool) (dropped : Nat)
  | readRejected (producersGone : Bool) (dropped rejected : Nat)
  | flushing (summary : CaptureSummary)
  | returned (summary : CaptureSummary)
  /-- Writing failed and the queue is gone; the capture is still to be closed. -/
  | failing
  | failed
  deriving DecidableEq

structure State where
  admission : Nat
  dropped : Nat
  rejected : Nat
  lateRecordCalls : Nat
  queue : List TraceEvent
  /-- The writer still holds its end of the queue. -/
  receiver : Bool
  /-- The traces that hold a sender. -/
  handles : Nat
  calls : List Call
  writer : Writer
  /-- The events queued and the events written so far, oldest first. -/
  accepted : List TraceEvent
  written : List TraceEvent

def Call.count (c : Call) (o : Outcome) (phase : Phase) : Call :=
  { c with phase := phase, outcomes := c.outcomes ++ [o] }

/-- Exchange a call for what its step leaves of it. -/
def State.put (s : State) (c c' : Call) : Option State :=
  (advance c [c'] s.calls).map fun calls => { s with calls := calls }

/-- The next atomic step of a call. -/
def stepCall (s : State) (c : Call) (spurious : Bool) : Option State :=
  match c.phase with
  | .entering none => s.put c { c with phase := .entering (some s.admission) }
  | .entering (some state) =>
    if isClosed state then s.put c { c with phase := .refusing }
    -- `assert!`: too many active calls
    else if CAPTURE_CLOSED - 1 ≤ state then none
    else if s.admission = state ∧ spurious = false then
      { s with admission := state + 1 }.put c { c with phase := .recording c.plan }
    else s.put c { c with phase := .entering (some s.admission) }
  | .refusing => { s with lateRecordCalls := s.lateRecordCalls + 1 }.put c (c.count .late .refused)
  | .recording (none :: todo) => { s with rejected := s.rejected + 1 }.put c (c.count .rejected (.recording todo))
  | .recording (some event :: todo) =>
    if s.receiver && s.queue.length < QUEUE_CAPACITY then
      { s with queue := s.queue ++ [event], accepted := s.accepted ++ [event] }.put c
        (c.count .accepted (.recording todo))
    else s.put c { c with phase := .dropping todo }
  | .recording [] => { s with admission := s.admission - 1 }.put c { c with phase := .finished }
  | .dropping todo => { s with dropped := s.dropped + 1 }.put c (c.count .dropped (.recording todo))
  | .refused | .finished => none

/-- The next atomic step of the writer; `ok` is whether a write succeeds. -/
def stepWriter (s : State) (ok : Bool) : Option State :=
  match s.writer with
  | .top => some { s with writer := if closedAndIdle s.admission then .draining else .waiting }
  | .waiting =>
    match s.queue with
    | event :: queue => some { s with queue := queue, writer := .writing event }
    | [] => some { s with writer := if s.handles = 0 then .disconnected else .top }
  | .disconnected => some { s with admission := close s.admission, writer := .top }
  | .draining =>
    match s.queue with
    | event :: queue => some { s with queue := queue, writer := .writing event }
    | [] => some { s with writer := .drained (s.handles = 0) }
  | .writing event =>
    if ok then some { s with written := s.written ++ [event], writer := .top }
    else some { s with receiver := false, queue := [], writer := .failing }
  | .drained gone => some { s with writer := .readDropped gone s.dropped }
  | .readDropped gone dropped => some { s with writer := .readRejected gone dropped s.rejected }
  | .readRejected gone dropped rejected =>
    some { s with writer := .flushing ⟨dropped, rejected, s.lateRecordCalls, gone⟩ }
  | .flushing summary =>
    if ok then some { s with receiver := false, queue := [], writer := .returned summary }
    else some { s with receiver := false, queue := [], writer := .failing }
  | .failing => some { s with admission := close s.admission, writer := .failed }
  | .returned _ | .failed => none

/-- The call holds a `Recording`. -/
def Call.active (c : Call) : Nat :=
  match c.phase with
  | .recording _ | .dropping _ => 1
  | _ => 0

def Call.unfinished (c : Call) : Bool :=
  match c.phase with
  | .refused | .finished => false
  | _ => true

inductive Event
  /-- A thread starts a recording call. -/
  | start (plan : List Attempt)
  | call (c : Call) (spurious : Bool)
  | writer (ok : Bool)
  /-- `TraceWriter::close`, also by `finish`. -/
  | close
  | cloneHandle
  | dropHandle

def step (s : State) : Event → Option State
  | .start plan =>
    -- each unfinished call is some thread's; there are fewer than 2^63 threads
    if 0 < s.handles && s.calls.countP Call.unfinished + 2 < CAPTURE_CLOSED then
      some { s with calls := { plan := plan, phase := .entering none } :: s.calls }
    else none
  | .call c spurious => stepCall s c spurious
  | .writer ok => stepWriter s ok
  | .close => some { s with admission := Latency.close s.admission }
  | .cloneHandle => if 0 < s.handles then some { s with handles := s.handles + 1 } else none
  | .dropHandle =>
    -- a call borrows a handle for as long as it runs
    if 1 < s.handles || (s.handles = 1 && s.calls.all fun c => !c.unfinished) then
      some { s with handles := s.handles - 1 }
    else none

def system : System State Event where
  init :=
    { admission := 0, dropped := 0, rejected := 0, lateRecordCalls := 0, queue := [], receiver := true, handles := 1,
      calls := [], writer := .top, accepted := [], written := [] }
  step := step

end CocoaWay.Latency
