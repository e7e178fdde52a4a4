import CocoaWay.Lib.System
import CocoaWay.Readiness.Contract

/-!
# The readiness thread of `wayland_source.rs`

* `Stage` : where the thread stands in its loop, with the snapshot it polls; `threadStep` : one step of it;
* `Call`, `mainStep` : `set_output_interest`, `rearm`, `stop` and `notify`, step by step, any number of them at a time;
* `State.recordFailure` : `SourceStatus::record_failure`;
* `step`, `system` : the thread and the calls, in any order.

A lock is one step. `trace` records what can be seen from outside.
-/

namespace CocoaWay.Readiness
open Lib

variable {κ : Type} [DecidableEq κ]

/-- `MAX_ACCEPTS_PER_PASS`. -/
def maxAcceptsPerPass : Nat := 32

structure Config where
  /-- `backend_handle` is set. -/
  backend : Bool
  /-- The bytes the control pipe takes. -/
  capacity : Nat
  capacity_pos : 0 < capacity

/-- What the thread polls: the display when armed, and the clients with write interest. -/
structure Pass (κ : Type) where
  armed : Bool
  writable : Finset κ
  deriving DecidableEq

/-- What `poll` returns. -/
structure Revents (κ : Type) where
  control : Bool
  listener : Bool
  display : Bool
  /-- `POLLNVAL` on any descriptor, `POLLERR` or `POLLHUP` on one of the first three. -/
  broken : Bool
  writers : Finset κ
  deriving DecidableEq

/-- `retry_interrupted`: the test of `stopping`, the operation, the pause after an interruption. -/
inductive Retry where
  | check
  | run
  | backoff
  deriving DecidableEq

inductive Stage (κ : Type) where
  | top
  | load
  | snapshot
  | poll (pass : Pass κ) (retry : Retry)
  | polled (pass : Pass κ) (revents : Revents κ)
  | drain (pass : Pass κ) (revents : Revents κ)
  | drained (pass : Pass κ) (revents : Revents κ)
  /-- `left` more clients may be accepted. -/
  | accept (pass : Pass κ) (revents : Revents κ) (left : Nat) (retry : Retry)
  | recheck (pass : Pass κ) (revents : Revents κ)
  | decide (cause : Cause κ)
  | take (cause : Cause κ)
  | wake (cause : Cause κ)
  /-- `fail`. -/
  | failing (message : String)
  /-- The wake of a failure that was recorded. -/
  | failureWake
  /-- `record_failure` after a wake that was rejected. -/
  | rejected
  | done
  deriving DecidableEq

/-- A call of `set_output_interest` on its way. -/
structure Call (κ : Type) where
  active : Finset κ
  blocked : Finset κ
  removed : Finset κ
  /-- The backend has been asked. -/
  spared : Bool

structure State (κ : Type) where
  stage : Stage κ
  armed : Bool
  stopping : Bool
  recorded : Bool
  message : Option String
  clients : Finset κ
  blocked : Finset κ
  calls : List (Call κ)
  /-- The bytes in the control pipe. -/
  pipe : Nat
  /-- The calls of `notify` that have not written. -/
  writing : Nat
  trace : List (Mark κ)

def State.new : State κ :=
  { stage := .top, armed := true, stopping := false, recorded := false, message := none, clients := ∅, blocked := ∅,
    calls := [], pipe := 0, writing := 0, trace := [] }

namespace State

/-- The clients with write interest and a socket to watch. -/
def interest (s : State κ) : Finset κ := s.blocked ∩ s.clients

def goto (s : State κ) (stage : Stage κ) : State κ := { s with stage := stage }

def mark (s : State κ) (m : Mark κ) : State κ := { s with trace := s.trace ++ [m] }

/-- The clients and the blocked ones are these. -/
def setOutput (s : State κ) (clients blocked : Finset κ) : State κ :=
  { s with clients := clients, blocked := blocked, trace := s.trace ++ [.interest (blocked ∩ clients)] }

/-- `record_failure`. -/
def recordFailure (s : State κ) (message : String) : State κ × Bool :=
  if s.stopping || s.recorded then (s, false)
  else ({ s with recorded := true, message := some message, trace := s.trace ++ [.failed] }, true)

end State

/-! ## The thread -/

/-- What the system answers to the thread. -/
inductive Answer (κ : Type) where
  | none
  | interrupted
  /-- An error of `poll` or `accept`. -/
  | error (error : String)
  | revents (revents : Revents κ)
  /-- `accept` has registered a client. -/
  | accepted (id : κ)
  /-- The listener is drained. -/
  | drained
  /-- What the wake callback returns. -/
  | woken (ok : Bool)

/-- The pass is over: the listener has been served. -/
def Revents.cause (revents : Revents κ) (writers : Finset κ) : Cause κ :=
  { display := revents.display, listener := revents.listener, writers := writers }

/-- The next step of the readiness thread. -/
def threadStep (s : State κ) (answer : Answer κ) : Option (State κ) :=
  match s.stage, answer with
  | .top, .none => some (s.goto (if s.stopping then .done else .load))
  | .load, .none => some (s.goto (if s.armed then .snapshot else .poll ⟨false, ∅⟩ .check))
  | .snapshot, .none => some (s.goto (.poll ⟨true, s.interest⟩ .check))
  | .poll pass .check, .none => some (s.goto (if s.stopping then .done else .poll pass .run))
  | .poll pass .run, .interrupted => some (s.goto (.poll pass .backoff))
  | .poll pass .backoff, .none => some (s.goto (.poll pass .check))
  | .poll _ .run, .error error => some (s.goto (.failing ("Wayland readiness wait failed: " ++ error)))
  | .poll pass .run, .revents revents =>
    -- a descriptor of -1 is never ready
    if (revents.display → pass.armed) ∧ revents.writers ⊆ pass.writable then some (s.goto (.polled pass revents))
    else none
  | .polled pass revents, .none =>
    some (s.goto (if s.stopping then .done
      else if revents.broken then .failing "Wayland readiness poll reported an invalid or closed source"
      else if revents.control then .drain pass revents else .drained pass revents))
  | .drain pass revents, .none =>
    some (if s.pipe = 0 then s.goto (.drained pass revents) else { s with pipe := s.pipe - min 64 s.pipe })
  | .drained pass revents, .none =>
    some (s.goto (if s.stopping then .done
      else if revents.listener then .accept pass revents maxAcceptsPerPass .check else .recheck pass revents))
  | .accept pass revents left .check, .none =>
    some (s.goto (if left = 0 then .recheck pass revents else if s.stopping then .done
      else .accept pass revents left .run))
  | .accept pass revents left .run, .interrupted => some (s.goto (.accept pass revents left .backoff))
  | .accept pass revents left .backoff, .none => some (s.goto (.accept pass revents left .check))
  | .accept pass revents left .run, .accepted id =>
    some ((s.setOutput (insert id s.clients) s.blocked).goto (.accept pass revents (left - 1) .check))
  | .accept pass revents _ .run, .drained => some (s.goto (.recheck pass revents))
  | .accept _ _ _ .run, .error error => some (s.goto (.failing ("Wayland accept failed: " ++ error)))
  | .recheck pass revents, .none =>
    if pass.writable = ∅ then some ((s.mark (.counted ∅)).goto (.decide (revents.cause ∅)))
    else
      let writers := revents.writers ∩ s.interest
      some ((s.mark (.counted writers)).goto (.decide (revents.cause writers)))
  | .decide cause, .none => some (s.goto (if cause.ready && !s.stopping then .take cause else .top))
  | .take cause, .none =>
    some (if s.armed then ({ s with armed := false }.mark (.took cause)).goto (.wake cause) else s.goto .top)
  | .wake cause, .woken ok => some ((s.mark (.woke cause)).goto (if ok then .top else .rejected))
  | .failing message, .none =>
    let r := s.recordFailure message
    some (r.1.goto (if r.2 then .failureWake else .done))
  | .failureWake, .woken _ => some (s.goto .done)
  | .rejected, .none =>
    some ((s.recordFailure "Wayland readiness wake callback rejected notification").1.goto .done)
  | _, _ => none

/-! ## The calls -/

inductive Event (κ : Type) where
  | thread (answer : Answer κ)
  /-- `rearm` sets the arm, and goes on to `notify` when it was not set. -/
  | rearm
  /-- `set_output_interest` is called and collects the clients that are not active. -/
  | collect (active blocked : Finset κ)
  /-- The backend spares the clients it knows. -/
  | spare (call : Nat) (live : Finset κ)
  /-- The interest changes under the lock. -/
  | apply (call : Nat)
  /-- `notify` writes. -/
  | write
  /-- `stop` sets the flag, and goes on to `notify`. -/
  | stop
  /-- `stop` has joined the thread and clears the interest. -/
  | join
  | takeFailure

def step (config : Config) (s : State κ) : Event κ → Option (State κ)
  | .thread answer => threadStep s answer
  | .rearm =>
    some { s with
      armed := true
      writing := if s.armed then s.writing else s.writing + 1
      trace := s.trace ++ [.rearm] }
  | .collect active blocked =>
    some { s with
      calls := s.calls ++ [⟨active, blocked ∩ active, s.clients \ active,
        decide (s.clients \ active = ∅) || !config.backend⟩] }
  | .spare i live =>
    match s.calls[i]? with
    | some call =>
      if call.spared then none
      else some { s with calls := s.calls.set i { call with removed := call.removed \ live, spared := true } }
    | none => none
  | .apply i =>
    match s.calls[i]? with
    | some call =>
      if call.spared then
        let clients := s.clients \ call.removed
        let changed := decide (clients.card ≠ s.clients.card ∨ s.blocked ≠ call.blocked)
        some { s.setOutput clients call.blocked with
          calls := s.calls.eraseIdx i
          writing := if changed then s.writing + 1 else s.writing }
      else none
    | none => none
  | .write =>
    if s.writing = 0 then none
    else some { s with
      writing := s.writing - 1
      pipe := if s.stage = .done then s.pipe else min config.capacity (s.pipe + 1) }
  | .stop => some { s with stopping := true, writing := s.writing + 1, trace := s.trace ++ [.stopped] }
  | .join => if s.stopping ∧ s.stage = .done then some (s.setOutput ∅ ∅) else none
  | .takeFailure => some { s with message := none }

def system (config : Config) : System (State κ) (Event κ) := ⟨.new, step config⟩

/-- The thread waits in `poll` on a snapshot without the display. -/
def State.blockedDisarmed (s : State κ) : Prop := ∃ pass, s.stage = .poll pass .run ∧ pass.armed = false

end CocoaWay.Readiness
