import CocoaWay.Lib.System

/-!
# Capturing a runtime command

A child's input is written and both its outputs are read, in any order of readiness, until a deadline.

* `Child`, `Pipe` : the child that was spawned, and the pipes of its outputs;
* `Act` : the signals and the waits that succeed, with who waits;
* `Control` : where `capture_child_inner` and the drop of its `OwnedChild` are, and the detached reaper;
* `call` : a step, with the result of the call it makes; `step`, `system` : the child and its descendants come in between.
-/

namespace CocoaWay.RuntimeCommands
open Lib

def maxOutputBytes : Nat := 8 * 1024 * 1024

inductive ErrorKind
  | interrupted
  | wouldBlock
  | invalidInput
  | invalidData
  | writeZero
  | other
  deriving DecidableEq

inductive CommandError
  | io (kind : ErrorKind) (message : String)
  | timedOut

def retry (kind : ErrorKind) : Bool := kind = .interrupted || kind = .wouldBlock

/-- The child as it was spawned, and the input for it. -/
structure Child where
  pid : Int
  /-- What `getpgid` returns. -/
  pgid : Int
  stdinPiped : Bool
  stdoutPiped : Bool
  stderrPiped : Bool
  input : List UInt8

/-- The child leads a process group. -/
def Child.Leads (c : Child) : Prop := c.pgid = c.pid

/-! ## The world -/

structure Pipe where
  /-- Every byte that was written to it. -/
  stream : List UInt8 := []
  unread : List UInt8 := []
  /-- No writer has it open. -/
  closed : Bool := false

def Pipe.write (p : Pipe) (bytes : List UInt8) : Pipe :=
  { p with stream := p.stream ++ bytes, unread := p.unread ++ bytes }

inductive Leader
  | running
  | exited (status : Int)
  | reaped (status : Int)

inductive Waiter
  | loop
  | drop
  | detached

inductive Act
  | killGroup (group : Int)
  | kill (pid : Int)
  | reap (waiter : Waiter)

/-! ## The worker -/

structure Output where
  status : Int
  stdout : List UInt8
  stderr : List UInt8
  deriving DecidableEq

inductive Stream
  | stdout
  | stderr
  deriving DecidableEq

/-- What `poll` finds of the three descriptors. -/
structure Revents where
  nval : Bool
  stdin : Bool
  stdout : Bool
  stderr : Bool

inductive Control
  | getpgid
  | deadline
  | pipes
  | nonblockingStdout
  | nonblockingStderr
  | nonblockingStdin
  /-- The start of a round. -/
  | loop
  | clock
  | polling
  | writing (events : Revents)
  | reading (events : Revents)
  | readingErrors (events : Revents)
  -- The drop of the `OwnedChild`, when it is not finished.
  | killing (error : CommandError)
  | killingChild (error : CommandError)
  | reaping (error : CommandError)
  | returned (result : Except CommandError Output)

/-- The detached final reaper. -/
inductive Reaper
  | none
  | waiting
  | done

structure State where
  stdin : Bool := false
  stdout : Bool := false
  stderr : Bool := false
  group : Option Int := none
  output : List UInt8 := []
  errors : List UInt8 := []
  written : Nat := 0
  control : Control := .getpgid
  reaper : Reaper := .none
  /-- The bytes that the pipe to the child took. -/
  accepted : List UInt8 := []
  out : Pipe := {}
  err : Pipe := {}
  leader : Leader := .running
  log : List Act := []

/-- An error leaves the function, and the child is dropped. -/
def State.fail (s : State) (error : CommandError) : State := { s with control := .killing error }

inductive Wait
  | status (status : Int)
  | running
  | failed (kind : ErrorKind)

inductive Read
  | bytes (n : Nat)
  | failed (kind : ErrorKind)

inductive Call
  | none
  /-- `Instant::now` with the deadline, or a time to compute. -/
  | clock (inTime : Bool)
  | fcntl (ok : Bool)
  | tryWait (result : Wait)
  | poll (result : Except ErrorKind Revents)
  | write (result : Read)
  | read (result : Read)
  | spawnReaper (ok : Bool)

/-- The pipe, its reader and what was read from it. -/
def State.pipe (s : State) : Stream → Pipe × Bool × List UInt8
  | .stdout => (s.out, s.stdout, s.output)
  | .stderr => (s.err, s.stderr, s.errors)

def State.setPipe (s : State) (pipe : Pipe) (reader : Bool) (output : List UInt8) : Stream → State
  | .stdout => { s with out := pipe, stdout := reader, output := output }
  | .stderr => { s with err := pipe, stderr := reader, errors := output }

/-- `none` when the pipe cannot answer so; the state after it, and the error. -/
def readPipe (s : State) (stream : Stream) (result : Read) : Option (State × Option CommandError) :=
  let (pipe, reader, output) := s.pipe stream
  if reader = false then some (s, none)
  else
    match result with
    | .bytes n =>
      if n = 0 then
        if pipe.unread = [] ∧ pipe.closed = true then some (s.setPipe pipe false output stream, none) else none
      else if n ≤ pipe.unread.length ∧ n ≤ 16 * 1024 then
        let rest : Pipe := { pipe with unread := pipe.unread.drop n }
        if maxOutputBytes - output.length < n then
          some (s.setPipe rest reader output stream, some (.io .invalidData "runtime output exceeds 8 MiB"))
        else some (s.setPipe rest reader (output ++ pipe.unread.take n) stream, none)
      else none
    | .failed kind => if retry kind then some (s, none) else some (s, some (.io kind ""))

/-- The end of a call that can fail, and where it goes on from. -/
def State.after (s : State) (next : Control) : Option CommandError → State
  | some error => s.fail error
  | none => { s with control := next }

def writeInput (c : Child) (s : State) (events : Revents) : Read → Option State
  | .bytes n =>
    let stop := min c.input.length (s.written + 16 * 1024)
    if n = 0 then some (s.fail (.io .writeZero ""))
    else if n ≤ stop - s.written then
      let written := s.written + n
      some { s with
        accepted := s.accepted ++ (c.input.drop s.written).take n
        written := written
        stdin := s.stdin && decide (written ≠ c.input.length)
        control := .reading events }
    else none
  | .failed kind => if retry kind then some { s with control := .reading events } else some (s.fail (.io kind ""))

/-- A wait that does not block. -/
def tryWait (s : State) (waiter : Waiter) : Wait → Option State
  | .status status =>
    match s.leader with
    | .exited exit =>
      if status = exit then some { s with leader := .reaped status, log := .reap waiter :: s.log } else none
    | _ => none
  | _ => some s

/-- The pipes that are taken from the child. -/
def takePipes (c : Child) (s : State) : State :=
  if c.stdoutPiped = false then s.fail (.io .other "runtime stdout must be piped")
  else if c.stderrPiped = false then s.fail (.io .other "runtime stderr must be piped")
  else
    let stdin := c.stdinPiped && !c.input.isEmpty
    if c.input ≠ [] ∧ stdin = false then s.fail (.io .other "runtime stdin must be piped")
    else { s with stdout := true, stderr := true, stdin := stdin, control := .nonblockingStdout }

def fcntlError : Option CommandError := some (.io .other "")

def call (c : Child) (s : State) : Call → Option State
  | .none =>
    match s.control with
    | .getpgid => some { s with group := if c.pgid = c.pid then some c.pid else none, control := .deadline }
    | .pipes => some (takePipes c s)
    | .nonblockingStdin => if s.stdin = false then some { s with control := .loop } else none
    | .loop => if s.stdout || s.stderr || s.stdin then some { s with control := .clock } else none
    -- No descriptor to poll; a sleep.
    | .polling => if s.stdout || s.stderr || s.stdin then none else some { s with control := .loop }
    | .writing events => if events.stdin && s.stdin then none else some { s with control := .reading events }
    | .reading events => if events.stdout then none else some { s with control := .readingErrors events }
    | .readingErrors events => if events.stderr then none else some { s with control := .loop }
    | .killing error =>
      some { s with
        control := .killingChild error
        log := match s.group with
          | some group => .killGroup group :: s.log
          | none => s.log }
    | .killingChild error => some { s with control := .reaping error, log := .kill c.pid :: s.log }
    | _ => none
  | .clock inTime =>
    match s.control with
    | .deadline => some (if inTime then { s with control := .pipes } else s.fail (.io .invalidInput ""))
    | .clock => some (if inTime then { s with control := .polling } else s.fail .timedOut)
    | _ => none
  | .fcntl ok =>
    match s.control with
    | .nonblockingStdout => some (s.after .nonblockingStderr (if ok then none else fcntlError))
    | .nonblockingStderr => some (s.after .nonblockingStdin (if ok then none else fcntlError))
    | .nonblockingStdin => if s.stdin then some (s.after .loop (if ok then none else fcntlError)) else none
    | _ => none
  | .tryWait result =>
    match s.control with
    | .loop =>
      if s.stdout || s.stderr || s.stdin then none
      else
        (tryWait s .loop result).map fun s =>
          match result with
          | .status status => { s with control := .returned (.ok ⟨status, s.output, s.errors⟩) }
          | .running => { s with control := .clock }
          | .failed kind => s.fail (.io kind "")
    | .reaping error =>
      (tryWait s .drop result).map fun s =>
        match result with
        | .running => s
        | _ => { s with control := .returned (.error error) }
    | .returned (.error _) =>
      match s.reaper with
      | .waiting =>
        (tryWait s .detached result).map fun s =>
          match result with
          | .status _ => { s with reaper := .done }
          | .running => s
          | .failed kind => if kind = .interrupted then s else { s with reaper := .done }
      | _ => none
    | _ => none
  | .poll result =>
    match s.control with
    | .polling =>
      if s.stdout || s.stderr || s.stdin then
        match result with
        | .error kind => some (if kind = .interrupted then { s with control := .loop } else s.fail (.io kind ""))
        | .ok events => some (if events.nval then s.fail (.io .invalidInput "") else { s with control := .writing events })
      else none
    | _ => none
  | .write result =>
    match s.control with
    | .writing events => if events.stdin && s.stdin then writeInput c s events result else none
    | _ => none
  | .read result =>
    match s.control with
    | .reading events =>
      if events.stdout then (readPipe s .stdout result).map fun (s, error) => s.after (.readingErrors events) error else none
    | .readingErrors events =>
      if events.stderr then (readPipe s .stderr result).map fun (s, error) => s.after .loop error else none
    | _ => none
  -- The leader was not reaped within 200 ms.
  | .spawnReaper ok =>
    match s.control with
    | .reaping error => some { s with control := .returned (.error error), reaper := if ok then .waiting else .none }
    | _ => none

/-! ## The system -/

inductive Event
  | write (stream : Stream) (bytes : List UInt8)
  | close (stream : Stream)
  | exit (status : Int)
  | call (c : Call)

def step (c : Child) (s : State) : Event → Option State
  | .write stream bytes =>
    let (pipe, reader, output) := s.pipe stream
    if pipe.closed then none else some (s.setPipe (pipe.write bytes) reader output stream)
  | .close stream =>
    let (pipe, reader, output) := s.pipe stream
    some (s.setPipe { pipe with closed := true } reader output stream)
  | .exit status =>
    match s.leader with
    | .running => some { s with leader := .exited status }
    | _ => none
  | .call a => call c s a

def system (c : Child) : System State Event where
  init := {}
  step := step c

end CocoaWay.RuntimeCommands
