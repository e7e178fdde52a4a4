import CocoaWay.Lib.Ledger
import CocoaWay.Lib.System

/-!
# The event-loop signal of `event_loop_signal.rs`

* `Op` : a call in progress on some thread: an admitted send, a capacity wait, a UI send, a wake;
* `State` : the counter, the notification flag, the channel and every call in progress;
* `Event` : what one thread does between two of its accesses to the shared state; the admission lock makes one event of
  what is done under it;
* `step`, `system` : the transitions of the managed `channel`.

There is no bound on the number of calls in progress, so none on the number of threads. `submitted`, `received`,
`returned` and `discarded` record where every message went, `admissions` the counter before each admission.
-/

namespace CocoaWay.EventSignal
open Lib

/-- `MAX_PENDING_WORKER_MESSAGES`. -/
def maxPendingWorkerMessages : Nat := 256

/-- The `timeout` of an admitted send: none, zero (`try_send`), or a positive duration. -/
inductive Deadline where
  | never
  | zero
  | after
  deriving DecidableEq

/-- A call in progress. -/
inductive Op (μ : Type*) where
  /-- `send_admitted` about to take the admission lock for the first time, or after a wait that no notification ended.
  -/
  | attempt (message : μ) (deadline : Deadline)
  /-- `send_admitted` waiting on `received`. -/
  | blocked (message : μ) (deadline : Deadline)
  /-- `send_admitted` notified, about to take the lock again. -/
  | notified (message : μ) (deadline : Deadline)
  /-- `send_reserved` before the channel send. -/
  | reserved (message : μ)
  /-- `send_reserved` whose channel send failed. -/
  | refused (message : μ)
  /-- `send_reserved` between the channel send and the swap of the flag. -/
  | sent
  /-- `send_reserved` about to call the waker. -/
  | waking
  /-- `wait_for_capacity` about to check its condition, not notified. -/
  | hintChecking
  /-- `wait_for_capacity` waiting on `received`. -/
  | hintBlocked
  /-- `wait_for_capacity` notified, about to check its condition again. -/
  | hintNotified
  deriving DecidableEq

/-- Where the event loop stands in its turn. -/
inductive Phase where
  | idle
  /-- Between the drain of the proxy events and `finish_turn`. -/
  | turn
  /-- In `finish_turn`, the flag stored and the counter not yet read. -/
  | stored
  deriving DecidableEq

structure State (μ : Type*) where
  notification : Bool
  messages : Nat
  disconnected : Bool
  /-- The raw receiver is gone. -/
  closed : Bool
  queue : List μ
  ops : List (Op μ)
  /-- Taken from the receiver, `message_received` not called yet. -/
  holding : List μ
  /-- Proxy events not drained yet. -/
  wakes : Nat
  phase : Phase
  /-- What the last `finish_turn` returned. -/
  asked : Bool
  panicked : Bool
  submitted : List μ
  received : List μ
  returned : List μ
  discarded : List μ
  admissions : List Nat

def State.new {μ : Type*} : State μ :=
  { notification := false, messages := 0, disconnected := false, closed := false, queue := [], ops := [], holding := [],
    wakes := 0, phase := .idle, asked := false, panicked := false, submitted := [], received := [], returned := [],
    discarded := [], admissions := [] }

inductive Event (μ : Type*) where
  /-- A UI `send` reserves its credit. -/
  | send (message : μ)
  /-- A worker calls `send_admitted`. -/
  | sendAdmitted (message : μ) (deadline : Deadline)
  /-- One pass of the admission loop under the lock; `expired` and `late` are its two looks at the clock. -/
  | tryAdmit (op : Op μ) (expired late : Bool)
  /-- The channel send of `send_reserved`. -/
  | push (message : μ)
  /-- A failed `send_reserved` gives its credit and its message back. -/
  | giveBack (message : μ) (waiter : Option (Op μ))
  /-- The swap of the flag. -/
  | swap
  | wake
  | waitForCapacity
  /-- One check of the condition of `wait_for_capacity` under the lock. -/
  | recheck (op : Op μ) (late : Bool)
  /-- A wait ends by its timeout or spuriously. -/
  | rouse (op : Op μ)
  | receive
  | messageReceived (message : μ) (waiter : Option (Op μ))
  /-- The loop drains its proxy events. -/
  | beginTurn
  /-- `finish_turn` stores the flag, then loads the counter. -/
  | finishStore
  | finishLoad
  /-- `Receiver::drop`, then the drop of the raw receiver. -/
  | disconnect
  | close

variable {μ : Type*}

/-! ## The condition variable -/

/-- A waiting call after a notification. -/
def Op.notify : Op μ → Option (Op μ)
  | .blocked message deadline => some (.notified message deadline)
  | .hintBlocked => some .hintNotified
  | _ => none

/-- A waiting call after its timeout or a spurious wake-up. -/
def Op.rouse : Op μ → Option (Op μ)
  | .blocked message deadline => some (.attempt message deadline)
  | .hintBlocked => some .hintChecking
  | _ => none

/-- The call waits on `received`. -/
def Op.waiting (op : Op μ) : Bool := op.notify.isSome

/-- `notify_one`: any one of the waiting calls is notified, none only when there is none. -/
def notifyOne [DecidableEq μ] (ops : List (Op μ)) : Option (Op μ) → Option (List (Op μ))
  | some op => op.notify.bind fun op' => advance op [op'] ops
  | none => if ops.any Op.waiting then none else some ops

/-- `notify_all`. -/
def notifyAll (ops : List (Op μ)) : List (Op μ) := ops.map fun op => op.notify.getD op

variable [DecidableEq μ]

/-! ## Functions of the source -/

/-- `message_received`; taking a message off a zero counter panics. -/
def messageReceived (s : State μ) (waiter : Option (Op μ)) : Option (State μ) :=
  if s.messages = 0 then some { s with panicked := true }
  else (notifyOne s.ops waiter).map fun ops => { s with messages := s.messages - 1, ops := ops }

/-- One pass of the loop of `send_admitted`, by a call `op` that holds `message`. -/
def sendAdmitted (s : State μ) (op : Op μ) (message : μ) (deadline : Deadline) (expired late : Bool) :
    Option (State μ) :=
  let replaceBy := fun ys => (advance op ys s.ops).map fun ops => { s with ops := ops }
  let giveUp := (advance op [] s.ops).map fun ops => { s with ops := ops, returned := message :: s.returned }
  if s.disconnected then giveUp
  else if deadline = .after ∧ expired then giveUp
  else if s.messages < maxPendingWorkerMessages then
    (replaceBy [.reserved message]).map fun s' =>
      { s' with messages := s.messages + 1, admissions := s.messages :: s.admissions }
  else
    match deadline with
    | .never => replaceBy [.blocked message deadline]
    | .zero | .after => if late then giveUp else replaceBy [.blocked message deadline]

/-- One check of the condition of `wait_for_capacity`. -/
def waitForCapacity (s : State μ) (op : Op μ) (late : Bool) : Option (State μ) :=
  let full := !s.disconnected && decide (maxPendingWorkerMessages ≤ s.messages)
  (advance op (if full && !late then [.hintBlocked] else []) s.ops).map fun ops => { s with ops := ops }

/-- The transitions. -/
def step (s : State μ) : Event μ → Option (State μ)
  | .send message =>
    some { s with messages := s.messages + 1, ops := .reserved message :: s.ops, submitted := message :: s.submitted }
  | .sendAdmitted message deadline =>
    some { s with ops := .attempt message deadline :: s.ops, submitted := message :: s.submitted }
  | .tryAdmit (.attempt message deadline) expired late =>
    sendAdmitted s (.attempt message deadline) message deadline expired late
  | .tryAdmit (.notified message deadline) expired late =>
    sendAdmitted s (.notified message deadline) message deadline expired late
  | .tryAdmit _ _ _ => none
  | .push message =>
    if s.closed then (advance (.reserved message) [.refused message] s.ops).map fun ops => { s with ops := ops }
    else (advance (.reserved message) [.sent] s.ops).map fun ops => { s with ops := ops, queue := s.queue ++ [message] }
  | .giveBack message waiter =>
    (advance (.refused message) [] s.ops).bind fun ops =>
      messageReceived { s with ops := ops, returned := message :: s.returned } waiter
  | .swap =>
    (advance .sent (if s.notification then [] else [.waking]) s.ops).map fun ops =>
      { s with ops := ops, notification := true }
  | .wake => (advance .waking [] s.ops).map fun ops => { s with ops := ops, wakes := s.wakes + 1 }
  | .waitForCapacity => some { s with ops := .hintChecking :: s.ops }
  | .recheck .hintChecking late => waitForCapacity s .hintChecking late
  | .recheck .hintNotified late => waitForCapacity s .hintNotified late
  | .recheck _ _ => none
  | .rouse op => op.rouse.bind fun op' => (advance op [op'] s.ops).map fun ops => { s with ops := ops }
  | .receive =>
    if s.disconnected then none
    else
      match s.queue with
      | [] => none
      | message :: queue => some { s with queue := queue, holding := message :: s.holding }
  | .messageReceived message waiter =>
    if message ∈ s.holding then
      messageReceived { s with holding := s.holding.erase message, received := message :: s.received } waiter
    else none
  | .beginTurn => if s.phase = .idle then some { s with phase := .turn, wakes := 0 } else none
  | .finishStore => if s.phase = .turn then some { s with phase := .stored, notification := false } else none
  | .finishLoad =>
    if s.phase = .stored then some { s with phase := .idle, asked := decide (s.messages ≠ 0) } else none
  | .disconnect =>
    if s.disconnected then none else some { s with disconnected := true, ops := notifyAll s.ops }
  | .close =>
    if s.disconnected && !s.closed then
      some { s with closed := true, queue := [], discarded := s.queue ++ s.discarded }
    else none

/-- The managed channel, with no call in progress. -/
def system (μ : Type*) [DecidableEq μ] : System (State μ) (Event μ) := ⟨.new, step⟩

end CocoaWay.EventSignal
