import CocoaWay.Lib.Custody
import Mathlib.Algebra.Ring.Nat

/-!
# The cleanup queue

* `Key`, `Entry`, `Running`, `Disposing`, `QueueState` : the records of the queue; a `Ticket` names one enqueued
  cleanup, whose resources are the job the source keeps behind an `Arc`;
* `Worker` : where a cleanup worker stands and what its channel holds; `Disposal` is the same for the reaper;
* `QueueState.retry`, `scan`, `pump`, `poll`, `enqueue` : the operations, with everything a call reads from outside
  (clock and thread creation) in a `Calls`;
* `QueueState.held` : the four places a cleanup can be in; `scan_fuel`, `pumpLoop_fuel` : the loops end by themselves.

A poll is one step: it looks at each channel once, and a worker's progress during the poll is the same run as progress
before the poll (if the look came later) or after it.
-/

namespace CocoaWay.Lifecycle

open CocoaWay.Lib

/-- `Result<(), String>`. -/
inductive Outcome
  | ok
  | err (error : String)
  deriving DecidableEq

/-- What a cleanup holds on to while it is in the queue. -/
inductive Key (P : Type)
  | session (id : P) (slot : String)
  | display (slot : String)
  | abandoned
  deriving DecidableEq

/-- One enqueued cleanup. -/
structure Ticket (P : Type) where
  id : Nat
  key : Key P
  deriving DecidableEq

/-- Nanoseconds of the monotonic clock. -/
abbrev Instant := Nat

structure Entry (P : Type) where
  ticket : Ticket P
  failures : Nat
  lastError : Option String
  readyAt : Instant

/-- A cleanup worker: inside the cleanup, with an outcome to send, with the outcome sent, or gone without sending. -/
inductive Worker
  | executing
  | returned (outcome : Outcome)
  | sent (outcome : Outcome)
  | disconnected

structure Running (P : Type) where
  entry : Entry P
  worker : Worker

/-- The reaper's side of a disposal: job in its hands, job dropped and `done` sent, or `done` lost. -/
inductive Disposal
  | retired
  | acknowledged
  | disconnected
  deriving DecidableEq

structure Disposing (P : Type) where
  ticket : Ticket P
  receiver : Disposal

/-- The queue, with what it has told the outside so far: `completions` are the calls of completion callbacks, `silent`
the cleanups whose success a handed-off queue consumed without a call, `acknowledged` the cleanups whose job has been
dropped, and `released` those that left the queue. -/
structure QueueState (P : Type) where
  pending : List (Entry P)
  running : List (Running P)
  disposing : List (Disposing P)
  completions : List (Ticket P × Outcome)
  silent : List (Ticket P)
  acknowledged : List (Ticket P)
  released : List (Ticket P)

/-- One round of the pump: the clock it reads, the error of `spawn` if any, and the clock read by the retry. -/
structure Attempt where
  now : Instant
  spawn : Option String
  later : Instant

/-- What one call reads from outside. -/
structure Calls where
  /-- The clock when the cleanup with this ticket number is retried. -/
  retry : Nat → Instant
  /-- The rounds of the pump. -/
  attempt : Nat → Attempt

variable {P : Type}

/-! ## Operations -/

/-- `receiver.try_recv()` of a running cleanup; `none` is `Empty`. -/
def Worker.tryRecv : Worker → Option Outcome
  | .executing => none
  | .returned _ => none
  | .sent outcome => some outcome
  | .disconnected => some (.err "cleanup worker disconnected")

/-- `u32::saturating_add(1)`. -/
def saturatingSucc (n : Nat) : Nat := if n < 4294967295 then n + 1 else n

/-- The delay after the given number of failures: 100 ms, doubled up to eight times. -/
def backoff (failures : Nat) : Nat := 100000000 * 2 ^ min (failures - 1) 8

def QueueState.retry (now : Instant) (entry : Entry P) (error : String) (notify : Bool) (q : QueueState P) :
    QueueState P :=
  { q with
    completions :=
      if notify ∧ entry.lastError ≠ some error then (entry.ticket, .err error) :: q.completions else q.completions
    pending := q.pending ++
      [{ entry with
          lastError := some error
          failures := saturatingSucc entry.failures
          readyAt := now + backoff (saturatingSucc entry.failures) }] }

/-- The success branch of `poll`: the completion, then the job to the reaper; or, without notification, the job
dropped. -/
def QueueState.succeed (entry : Entry P) (notify : Bool) (q : QueueState P) : QueueState P :=
  if notify then
    { q with
      completions := (entry.ticket, .ok) :: q.completions
      disposing := q.disposing ++ [⟨entry.ticket, .retired⟩] }
  else
    { q with
      silent := entry.ticket :: q.silent
      acknowledged := entry.ticket :: q.acknowledged
      released := entry.ticket :: q.released }

/-- The `match outcome` of `poll`, for an entry already taken out of `running`. -/
def QueueState.settle (c : Calls) (notify : Bool) (entry : Entry P) (outcome : Outcome) (q : QueueState P) :
    QueueState P :=
  match outcome with
  | .ok => q.succeed entry notify
  | .err error => q.retry (c.retry entry.ticket.id) entry error notify

/-- The `while index < self.running.len()` loop of `poll`; every round shortens `running` or advances the index. -/
def QueueState.scan (c : Calls) (notify : Bool) : Nat → Nat → QueueState P → QueueState P
  | 0, _, q => q
  | fuel + 1, index, q =>
    match q.running[index]? with
    | none => q
    | some r =>
      match r.worker.tryRecv with
      | none => scan c notify fuel (index + 1) q
      | some outcome =>
        scan c notify fuel index (QueueState.settle c notify r.entry outcome
          { q with running := swapRemove q.running index })

def Entry.ready (now : Instant) (entry : Entry P) : Bool := entry.readyAt ≤ now

/-- The `while self.running.len() < 2` loop; every round extends `running` or stops. -/
def QueueState.pumpLoop (c : Calls) : Nat → Nat → QueueState P → QueueState P
  | 0, _, q => q
  | fuel + 1, k, q =>
    if q.running.length < 2 then
      match q.pending.find? (Entry.ready (c.attempt k).now) with
      | none => q
      | some entry =>
        let q := { q with pending := q.pending.eraseP (Entry.ready (c.attempt k).now) }
        match (c.attempt k).spawn with
        | none => pumpLoop c fuel (k + 1) { q with running := q.running ++ [⟨entry, .executing⟩] }
        | some error => q.retry (c.attempt k).later entry ("could not start cleanup worker: " ++ error) false
    else q

def QueueState.pump (c : Calls) (q : QueueState P) : QueueState P :=
  pumpLoop c 2 0 q

def Disposing.isAcknowledged (d : Disposing P) : Bool := d.receiver = .acknowledged

/-- `disposing.retain`: only a received acknowledgement releases. -/
def QueueState.retain (q : QueueState P) : QueueState P :=
  { q with
    disposing := q.disposing.filter fun d => !d.isAcknowledged
    released := (q.disposing.filter Disposing.isAcknowledged).map Disposing.ticket ++ q.released }

def QueueState.poll (c : Calls) (notify : Bool) (q : QueueState P) : QueueState P :=
  (scan c notify q.retain.running.length 0 q.retain).pump c

def QueueState.enqueue (c : Calls) (ticket : Ticket P) (now : Instant) (q : QueueState P) : QueueState P :=
  pump c { q with pending := q.pending ++ [⟨ticket, 0, none, now⟩] }

def QueueState.isEmpty (q : QueueState P) : Bool :=
  q.pending.isEmpty && q.running.isEmpty && q.disposing.isEmpty

/-- `keys`: the keys of everything in the queue. -/
def QueueState.keys (q : QueueState P) : List (Key P) :=
  q.pending.map (·.ticket.key) ++ q.running.map (·.entry.ticket.key) ++ q.disposing.map (·.ticket.key)

def QueueState.sessionBusy [DecidableEq P] (q : QueueState P) (id : P) : Bool :=
  q.keys.any fun
    | .session candidate _ => candidate = id
    | _ => false

def QueueState.displayBusy (q : QueueState P) (slot : String) : Bool :=
  q.keys.any fun
    | .session _ display => display = slot
    | .display display => display = slot
    | .abandoned => false

/-! ## Places -/

def QueueState.pendingTickets (q : QueueState P) : List (Ticket P) := q.pending.map Entry.ticket

def QueueState.runningTickets (q : QueueState P) : List (Ticket P) := q.running.map (·.entry.ticket)

def QueueState.disposingTickets (q : QueueState P) : List (Ticket P) := q.disposing.map Disposing.ticket

/-- The cleanups whose success has been consumed. -/
def QueueState.succeeded (q : QueueState P) : List (Ticket P) := q.disposingTickets ++ q.released

/-- The cleanups whose completion callback was called with success. -/
def QueueState.completed (q : QueueState P) : List (Ticket P) :=
  (q.completions.filter fun x => x.2 = .ok).map Prod.fst

/-- The four places, one after the other. -/
def QueueState.held (q : QueueState P) : List (Ticket P) := q.pendingTickets ++ q.runningTickets ++ q.succeeded

/-! ## The loops end by themselves -/

theorem pumpLoop_of_full (c : Calls) (fuel k : Nat) {q : QueueState P} (h : 2 ≤ q.running.length) :
    q.pumpLoop c fuel k = q := by
  cases fuel with
  | zero => rfl
  | succ fuel => rw [QueueState.pumpLoop, if_neg (by omega)]

theorem pumpLoop_fuel (c : Calls) (fuel k : Nat) (q : QueueState P) (h : 2 ≤ fuel + q.running.length) :
    q.pumpLoop c (fuel + 1) k = q.pumpLoop c fuel k := by
  induction fuel generalizing k q with
  | zero => rw [pumpLoop_of_full c _ k (by omega), pumpLoop_of_full c _ k (by omega)]
  | succ fuel ih =>
    unfold QueueState.pumpLoop
    split
    · split
      · rfl
      · cases (c.attempt k).spawn with
        | none =>
          refine ih (k + 1) _ ?_
          simp only [List.length_append, List.length_singleton]
          omega
        | some error => rfl
    · rfl

@[simp] theorem settle_running (c : Calls) (notify : Bool) (entry : Entry P) (outcome : Outcome) (q : QueueState P) :
    (q.settle c notify entry outcome).running = q.running := by
  cases outcome with
  | ok =>
    show (q.succeed entry notify).running = q.running
    unfold QueueState.succeed
    split <;> rfl
  | err error => rfl

theorem scan_fuel (c : Calls) (notify : Bool) (fuel index : Nat) (q : QueueState P)
    (h : q.running.length ≤ fuel + index) : q.scan c notify (fuel + 1) index = q.scan c notify fuel index := by
  induction fuel generalizing index q with
  | zero =>
    have hn : q.running[index]? = none := by
      apply List.getElem?_eq_none
      omega
    simp only [QueueState.scan, hn]
  | succ fuel ih =>
    cases hr : q.running[index]? with
    | none => simp only [QueueState.scan, hr]
    | some r =>
      cases ho : r.worker.tryRecv with
      | none =>
        have := ih (index + 1) q (by omega)
        rw [QueueState.scan, hr]
        simp only [ho]
        rw [this, QueueState.scan, hr]
        simp only [ho]
      | some outcome =>
        have hlen := swapRemove_length hr
        have := ih index (QueueState.settle c notify r.entry outcome { q with running := swapRemove q.running index })
          (by
            rw [settle_running]
            show (swapRemove q.running index).length ≤ fuel + index
            omega)
        rw [QueueState.scan, hr]
        simp only [ho]
        rw [this, QueueState.scan, hr]
        simp only [ho]

end CocoaWay.Lifecycle
