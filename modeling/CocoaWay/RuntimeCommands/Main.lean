import CocoaWay.RuntimeCommands.Capture

/-!
# What a capture returns, and what is left of its child

* `Step`, `step_cases` : what any step does;
* `Logged`, `Data` : what every step keeps of the signals and waits, and of the bytes;
* `Complete`, `Cleaned`, `capture_complete` : what holds of every result.
-/

namespace CocoaWay.RuntimeCommands
open Lib

variable {c : Child} {s s' : State} {e : Event} {a : Call}

/-! ## Steps -/

/-- After the pipes are taken, while nothing failed. -/
def Control.Opened : Control → Prop
  | .nonblockingStdout => True
  | .nonblockingStderr => True
  | .nonblockingStdin => True
  | .loop => True
  | .clock => True
  | .polling => True
  | .writing _ => True
  | .reading _ => True
  | .readingErrors _ => True
  | _ => False

def State.reader (s : State) (stream : Stream) : Bool := (s.pipe stream).2.1

def State.buffer (s : State) (stream : Stream) : List UInt8 := (s.pipe stream).2.2

def State.world (s : State) (stream : Stream) : Pipe := (s.pipe stream).1

/-- What a step can do, by where the worker is. -/
inductive Step (c : Child) (s : State) : State → Prop
  | write (stream : Stream) (bytes : List UInt8) (open' : (s.world stream).closed = false) :
    Step c s (s.setPipe ((s.world stream).write bytes) (s.reader stream) (s.buffer stream) stream)
  | close (stream : Stream) :
    Step c s (s.setPipe { s.world stream with closed := true } (s.reader stream) (s.buffer stream) stream)
  | exit {status} (running : s.leader = .running) : Step c s { s with leader := .exited status }
  | group (at' : s.control = .getpgid) :
    Step c s { s with group := if c.pgid = c.pid then some c.pid else none, control := .deadline }
  | timed (at' : s.control = .deadline) : Step c s { s with control := .pipes }
  | fail {error} (at' : s.control = .deadline ∨ s.control = .pipes ∨ s.control.Opened) : Step c s (s.fail error)
  | take (at' : s.control = .pipes) (piped : c.input = [] ∨ c.stdinPiped = true) : Step c s { s with
      stdout := true
      stderr := true
      stdin := c.stdinPiped && !c.input.isEmpty
      control := .nonblockingStdout }
  | move {control} (at' : s.control.Opened) (next : control.Opened) : Step c s { s with control := control }
  | input {events n} (at' : s.control = .writing events) (room : n ≤ c.input.length - s.written) : Step c s { s with
      accepted := s.accepted ++ (c.input.drop s.written).take n
      written := s.written + n
      stdin := s.stdin && decide (s.written + n ≠ c.input.length)
      control := .reading events }
  | eof {control} (stream : Stream) (at' : s.control.Opened) (next : control.Opened)
    (none : (s.world stream).unread = [])
    (closed : (s.world stream).closed = true) :
    Step c s { s.setPipe (s.world stream) false (s.buffer stream) stream with control := control }
  | read {control n} (stream : Stream) (at' : s.control.Opened) (next : control.Opened)
    (room : n ≤ maxOutputBytes - (s.buffer stream).length) : Step c s { s.setPipe
      { s.world stream with unread := (s.world stream).unread.drop n } (s.reader stream)
      (s.buffer stream ++ (s.world stream).unread.take n) stream with control := control }
  | tooMuch {error n} (stream : Stream) (at' : s.control.Opened) : Step c s ((s.setPipe
      { s.world stream with unread := (s.world stream).unread.drop n } (s.reader stream)
        (s.buffer stream) stream).fail error)
  | done {status} (at' : s.control = .loop) (closed : s.stdout = false ∧ s.stderr = false ∧ s.stdin = false)
    (exited : s.leader = .exited status) : Step c s { s with
      leader := .reaped status
      log := .reap .loop :: s.log
      control := .returned (.ok ⟨status, s.output, s.errors⟩) }
  | kill {error} (at' : s.control = .killing error) : Step c s { s with
      control := .killingChild error
      log := match s.group with
        | some group => .killGroup group :: s.log
        | none => s.log }
  | killChild {error} (at' : s.control = .killingChild error) :
    Step c s { s with control := .reaping error, log := .kill c.pid :: s.log }
  | wait {error} (at' : s.control = .reaping error) : Step c s s
  | reap {error status} (at' : s.control = .reaping error) (exited : s.leader = .exited status) : Step c s { s with
      leader := .reaped status
      log := .reap .drop :: s.log
      control := .returned (.error error) }
  | leave {error} (at' : s.control = .reaping error) : Step c s { s with control := .returned (.error error) }
  | detach {error reaper} (at' : s.control = .reaping error) :
    Step c s { s with control := .returned (.error error), reaper := reaper }
  | waitDetached {error} (at' : s.control = .returned (.error error)) : Step c s s
  | reapDetached {error status} (at' : s.control = .returned (.error error)) (waiting : s.reaper = .waiting)
    (exited : s.leader = .exited status) : Step c s { s with
      leader := .reaped status
      log := .reap .detached :: s.log
      reaper := .done }
  | leaveDetached {error} (at' : s.control = .returned (.error error)) : Step c s { s with reaper := .done }

theorem tryWait_cases {waiter : Waiter} {result : Wait} (h : tryWait s waiter result = some s') :
    (∃ status, result = .status status ∧ s.leader = .exited status ∧
      s' = { s with leader := .reaped status, log := .reap waiter :: s.log }) ∨
    (∀ status, result ≠ .status status) ∧ s' = s := by
  unfold tryWait at h
  cases result with
  | status status =>
    dsimp only at h
    split at h
    next exit hleader =>
      split at h
      next heq =>
        cases h
        exact .inl ⟨status, rfl, by rw [hleader, heq], rfl⟩
      · cases h
    · cases h
  | running =>
    cases h
    exact .inr ⟨nofun, rfl⟩
  | failed kind =>
    cases h
    exact .inr ⟨nofun, rfl⟩

variable {control : Control} {stream : Stream} {output : List UInt8} {pipe : Pipe} {reader : Bool}

theorem readPipe_cases {result : Read} (hat : s.control.Opened)
    (hnext : control.Opened) {out : State × Option CommandError} (h : readPipe s stream result = some out) :
    Step c s (out.1.after control out.2) := by
  unfold readPipe at h
  dsimp only at h
  split at h
  · cases h
    exact .move hat hnext
  next hreader =>
    have hopen : s.reader stream = true := by simpa [State.reader] using hreader
    cases result with
    | bytes n =>
      dsimp only at h
      split at h
      · split at h
        next hend =>
          cases h
          exact .eof stream hat hnext hend.1 hend.2
        · cases h
      · split at h
        · split at h
          · cases h
            exact .tooMuch stream hat
          next hroom =>
            cases h
            exact .read stream hat hnext (Nat.le_of_not_lt hroom)
        · cases h
    | failed kind =>
      dsimp only at h
      split at h
      · cases h
        exact .move hat hnext
      · cases h
        exact .fail (.inr (.inr hat))

theorem writeInput_cases {events : Revents} {result : Read} (hat : s.control = .writing events)
    (h : writeInput c s events result = some s') : Step c s s' := by
  have hopened : s.control.Opened := by
    rw [hat]
    trivial
  unfold writeInput at h
  cases result with
  | bytes n =>
    dsimp only at h
    split at h
    · cases h
      exact .fail (.inr (.inr hopened))
    · split at h
      next hroom =>
        cases h
        exact .input hat (by omega)
      · cases h
  | failed kind =>
    dsimp only at h
    split at h
    · cases h
      exact .move hopened trivial
    · cases h
      exact .fail (.inr (.inr hopened))

theorem takePipes_cases (hat : s.control = .pipes) : Step c s (takePipes c s) := by
  unfold takePipes
  split
  · exact .fail (.inr (.inl hat))
  · split
    · exact .fail (.inr (.inl hat))
    · dsimp only
      split
      · exact .fail (.inr (.inl hat))
      next hinput =>
        refine .take hat ?_
        by_cases hempty : c.input = []
        · exact .inl hempty
        · right
          simpa [hempty] using hinput

theorem after_cases (hat : s.control.Opened) (hnext : control.Opened) (error : Option CommandError) :
    Step c s (s.after control error) := by
  cases error with
  | none => exact .move hat hnext
  | some error => exact .fail (.inr (.inr hat))

theorem call_cases (h : call c s a = some s') : Step c s s' := by
  unfold call at h
  cases a with
  | none =>
    dsimp only at h
    split at h
    next hat => cases h; exact .group hat
    next hat => cases h; exact takePipes_cases hat
    next hat =>
      split at h
      · cases h; exact .move (by rw [hat]; trivial) trivial
      · cases h
    next hat =>
      split at h
      · cases h; exact .move (by rw [hat]; trivial) trivial
      · cases h
    next hat =>
      split at h
      · cases h
      · cases h; exact .move (by rw [hat]; trivial) trivial
    next hat =>
      split at h
      · cases h
      · cases h; exact .move (by rw [hat]; trivial) trivial
    next hat =>
      split at h
      · cases h
      · cases h; exact .move (by rw [hat]; trivial) trivial
    next hat =>
      split at h
      · cases h
      · cases h; exact .move (by rw [hat]; trivial) trivial
    next hat => cases h; exact .kill hat
    next hat => cases h; exact .killChild hat
    · cases h
  | clock inTime =>
    dsimp only at h
    split at h
    next hat =>
      cases h
      split
      · exact .timed hat
      · exact .fail (.inl hat)
    next hat =>
      cases h
      split
      · exact .move (by rw [hat]; trivial) trivial
      · exact .fail (.inr (.inr (by rw [hat]; trivial)))
    · cases h
  | fcntl ok =>
    dsimp only at h
    split at h
    next hat => cases h; exact after_cases (by rw [hat]; trivial) (by trivial) _
    next hat => cases h; exact after_cases (by rw [hat]; trivial) (by trivial) _
    next hat =>
      split at h
      · cases h; exact after_cases (by rw [hat]; trivial) (by trivial) _
      · cases h
    · cases h
  | tryWait result =>
    dsimp only at h
    split at h
    next hat =>
      split at h
      · cases h
      next hclosed =>
        simp only [Bool.or_eq_true, not_or, Bool.not_eq_true] at hclosed
        obtain ⟨t, ht, rfl⟩ := Option.map_eq_some_iff.1 h
        obtain ⟨status, rfl, hexit, rfl⟩ | ⟨hnot, rfl⟩ := tryWait_cases ht
        · exact .done hat ⟨hclosed.1.1, hclosed.1.2, hclosed.2⟩ hexit
        · cases result with
          | status status => exact absurd rfl (hnot status)
          | running => exact .move (by rw [hat]; trivial) trivial
          | failed kind => exact .fail (.inr (.inr (by rw [hat]; trivial)))
    next hat =>
      obtain ⟨t, ht, rfl⟩ := Option.map_eq_some_iff.1 h
      obtain ⟨status, rfl, hexit, rfl⟩ | ⟨hnot, rfl⟩ := tryWait_cases ht
      · exact .reap hat hexit
      · cases result with
        | status status => exact absurd rfl (hnot status)
        | running => exact .wait hat
        | failed kind => exact .leave hat
    next hat =>
      split at h
      next hwaiting =>
        obtain ⟨t, ht, rfl⟩ := Option.map_eq_some_iff.1 h
        obtain ⟨status, rfl, hexit, rfl⟩ | ⟨hnot, rfl⟩ := tryWait_cases ht
        · exact .reapDetached hat hwaiting hexit
        · cases result with
          | status status => exact absurd rfl (hnot status)
          | running => exact .waitDetached hat
          | failed kind =>
            dsimp only
            split
            · exact .waitDetached hat
            · exact .leaveDetached hat
      · cases h
    · cases h
  | poll result =>
    dsimp only at h
    split at h
    next hat =>
      have hopened : s.control.Opened := by
        rw [hat]
        trivial
      split at h
      · split at h
        · cases h
          split
          · exact .move hopened trivial
          · exact .fail (.inr (.inr hopened))
        · cases h
          split
          · exact .fail (.inr (.inr hopened))
          · exact .move hopened trivial
      · cases h
    · cases h
  | write result =>
    dsimp only at h
    split at h
    next hat =>
      split at h
      · exact writeInput_cases hat h
      · cases h
    · cases h
  | read result =>
    dsimp only at h
    split at h
    next hat =>
      split at h
      · obtain ⟨out, hout, rfl⟩ := Option.map_eq_some_iff.1 h
        exact readPipe_cases (by rw [hat]; trivial) (by trivial) hout
      · cases h
    next hat =>
      split at h
      · obtain ⟨out, hout, rfl⟩ := Option.map_eq_some_iff.1 h
        exact readPipe_cases (by rw [hat]; trivial) (by trivial) hout
      · cases h
    · cases h
  | spawnReaper ok =>
    dsimp only at h
    split at h
    next hat => cases h; exact .detach hat
    · cases h

theorem step_cases (h : step c s e = some s') : Step c s s' := by
  cases e with
  | write stream bytes =>
    unfold step at h
    dsimp only at h
    split at h
    · cases h
    next hopen =>
      cases h
      exact .write stream bytes (by simpa [State.world] using hopen)
  | close stream =>
    cases h
    exact .close stream
  | exit status =>
    unfold step at h
    dsimp only at h
    split at h
    next hrunning => cases h; exact .exit hrunning
    · cases h
  | call a => exact call_cases h

/-! ## Signals and waits -/

def groupOf (c : Child) : Option Int := if c.pgid = c.pid then some c.pid else none

/-- The signal to the group, if the child leads one. -/
def groupKilled (c : Child) : List Act := ((groupOf c).map Act.killGroup).toList

/-- The log, by where the worker is. -/
def Logged (c : Child) (s : State) : Prop :=
  match s.control with
  | .getpgid => s.log = [] ∧ s.reaper = .none
  | .killingChild _ => s.group = groupOf c ∧ s.log = groupKilled c ∧ s.reaper = .none
  | .reaping _ => s.group = groupOf c ∧ s.log = .kill c.pid :: groupKilled c ∧ s.reaper = .none
  | .returned (.ok _) => s.log = [.reap .loop] ∧ s.reaper = .none
  | .returned (.error _) => s.log = .kill c.pid :: groupKilled c ∨
    (∃ w, w ≠ .loop ∧ s.log = .reap w :: .kill c.pid :: groupKilled c) ∧ s.reaper ≠ .waiting
  | _ => s.group = groupOf c ∧ s.log = [] ∧ s.reaper = .none

/-- Nothing failed yet, and the group is known. -/
def Control.Running : Control → Prop
  | .deadline => True
  | .pipes => True
  | control => control.Opened

theorem logged_iff (h : s.control.Running ∨ ∃ error, s.control = .killing error) :
    Logged c s ↔ s.group = groupOf c ∧ s.log = [] ∧ s.reaper = .none := by
  unfold Logged
  split
  next hat => simp [hat, Control.Running, Control.Opened] at h
  next hat => simp [hat, Control.Running, Control.Opened] at h
  next hat => simp [hat, Control.Running, Control.Opened] at h
  next hat => simp [hat, Control.Running, Control.Opened] at h
  next hat => simp [hat, Control.Running, Control.Opened] at h
  · exact Iff.rfl

theorem running_of_opened (h : control.Opened) : control.Running := by
  unfold Control.Running
  split
  · trivial
  · trivial
  · exact h

theorem running_of (h : control = .deadline ∨ control = .pipes ∨ control.Opened) : control.Running := by
  obtain rfl | rfl | hopened := h
  · trivial
  · trivial
  · exact running_of_opened hopened

@[simp] theorem control_setPipe (s : State) (pipe : Pipe) (reader : Bool) (output : List UInt8) (stream : Stream) :
    (s.setPipe pipe reader output stream).control = s.control := by
  cases stream <;> rfl

@[simp] theorem group_setPipe (s : State) (pipe : Pipe) (reader : Bool) (output : List UInt8) (stream : Stream) :
    (s.setPipe pipe reader output stream).group = s.group := by
  cases stream <;> rfl

@[simp] theorem log_setPipe (s : State) (pipe : Pipe) (reader : Bool) (output : List UInt8) (stream : Stream) :
    (s.setPipe pipe reader output stream).log = s.log := by
  cases stream <;> rfl

@[simp] theorem reaper_setPipe (s : State) (pipe : Pipe) (reader : Bool) (output : List UInt8) (stream : Stream) :
    (s.setPipe pipe reader output stream).reaper = s.reaper := by
  cases stream <;> rfl

theorem Logged.keep (h : Logged c s) (hcontrol : s'.control = s.control) (hgroup : s'.group = s.group)
    (hlog : s'.log = s.log)
    (hreaper : s'.reaper = s.reaper) : Logged c s' := by
  unfold Logged at *
  rw [hcontrol, hgroup, hlog, hreaper]
  exact h

/-- A step of the worker before anything fails. -/
theorem Logged.run (h : Logged c s) (hat : s.control.Running)
    (hnext : s'.control.Running ∨ ∃ error, s'.control = .killing error)
    (hgroup : s'.group = s.group) (hlog : s'.log = s.log) (hreaper : s'.reaper = s.reaper) : Logged c s' := by
  rw [logged_iff hnext, hgroup, hlog, hreaper]
  exact (logged_iff (.inl hat)).1 h

theorem step_logged (h : Step c s s') (hl : Logged c s) : Logged c s' := by
  cases h with
  | write => exact hl.keep (by simp) (by simp) (by simp) (by simp)
  | close => exact hl.keep (by simp) (by simp) (by simp) (by simp)
  | exit => exact hl.keep rfl rfl rfl rfl
  | group hat =>
    unfold Logged at hl
    rw [hat] at hl
    exact ⟨rfl, hl⟩
  | timed hat => exact hl.run (running_of (.inl hat)) (.inl trivial) rfl rfl rfl
  | fail hat => exact hl.run (running_of hat) (.inr ⟨_, rfl⟩) rfl rfl rfl
  | take hat => exact hl.run (running_of (.inr (.inl hat))) (.inl trivial) rfl rfl rfl
  | move hat hnext => exact hl.run (running_of_opened hat) (.inl (running_of_opened hnext)) rfl rfl rfl
  | input hat =>
    have hopened : s.control.Opened := by
      rw [hat]
      trivial
    exact hl.run (running_of_opened hopened) (.inl trivial) rfl rfl rfl
  | eof stream hat hnext =>
    exact hl.run (running_of_opened hat) (.inl (running_of_opened hnext)) (by simp) (by simp) (by simp)
  | read stream hat hnext =>
    exact hl.run (running_of_opened hat) (.inl (running_of_opened hnext)) (by simp) (by simp) (by simp)
  | tooMuch stream hat =>
    exact hl.run (running_of_opened hat) (.inr ⟨_, rfl⟩) (by simp [State.fail]) (by simp [State.fail])
      (by simp [State.fail])
  | done hat =>
    unfold Logged at hl
    rw [hat] at hl
    exact ⟨congrArg (Act.reap .loop :: ·) hl.2.1, hl.2.2⟩
  | kill hat =>
    unfold Logged at hl
    rw [hat] at hl
    obtain ⟨hgroup, hlog, hreaper⟩ := hl
    refine ⟨hgroup, ?_, hreaper⟩
    dsimp only
    rw [hlog, hgroup]
    unfold groupKilled
    cases groupOf c <;> rfl
  | killChild hat =>
    unfold Logged at hl
    rw [hat] at hl
    exact ⟨hl.1, congrArg (Act.kill c.pid :: ·) hl.2.1, hl.2.2⟩
  | wait => exact hl
  | reap hat =>
    unfold Logged at hl
    rw [hat] at hl
    exact .inr ⟨⟨.drop, nofun, congrArg (Act.reap .drop :: ·) hl.2.1⟩, by simp [hl.2.2]⟩
  | leave hat =>
    unfold Logged at hl
    rw [hat] at hl
    exact .inl hl.2.1
  | detach hat =>
    unfold Logged at hl
    rw [hat] at hl
    exact .inl hl.2.1
  | waitDetached => exact hl
  | reapDetached hat hwaiting =>
    unfold Logged at hl ⊢
    dsimp only
    rw [hat] at hl ⊢
    have hlog := hl.resolve_right fun hcontra => hcontra.2 hwaiting
    exact .inr ⟨⟨.detached, nofun, congrArg (Act.reap .detached :: ·) hlog⟩, nofun⟩
  | leaveDetached hat =>
    unfold Logged at hl ⊢
    dsimp only
    rw [hat] at hl ⊢
    exact hl.imp id fun hreaped => ⟨hreaped.1, nofun⟩

/-! ## The bytes -/

/-- What was read of a stream, and what is to be read. -/
structure Reads (s : State) (stream : Stream) : Prop where
  bytes : s.buffer stream ++ (s.world stream).unread = (s.world stream).stream
  bound : (s.buffer stream).length ≤ maxOutputBytes

/-- What holds until something fails. -/
structure Data (c : Child) (s : State) : Prop where
  reads : ∀ stream, Reads s stream
  accepted : s.accepted = c.input.take s.written
  written : s.written ≤ c.input.length

/-- A pipe that was put away is at its end. -/
structure Ends (c : Child) (s : State) : Prop where
  read : ∀ stream, s.reader stream = false → (s.world stream).unread = [] ∧ (s.world stream).closed = true
  stdin : s.stdin = false → c.input.length ≤ s.written

/-- A command that was captured. -/
structure Complete (c : Child) (s : State) (out : Output) : Prop where
  stdout : out.stdout = s.out.stream ∧ s.out.closed = true
  stderr : out.stderr = s.err.stream ∧ s.err.closed = true
  bounded : out.stdout.length ≤ maxOutputBytes ∧ out.stderr.length ≤ maxOutputBytes
  input : s.accepted = c.input
  status : s.leader = .reaped out.status

structure Kept (c : Child) (s : State) : Prop where
  data : s.control = .getpgid ∨ s.control.Running → Data c s
  ends : s.control.Opened → Ends c s
  complete : ∀ out, s.control = .returned (.ok out) → Complete c s out

theorem pipe_setPipe (s : State) (pipe : Pipe) (reader : Bool) (output : List UInt8) (stream stream' : Stream) :
    (s.setPipe pipe reader output stream).pipe stream' =
      if stream' = stream then (pipe, reader, output) else s.pipe stream' := by
  cases stream <;> cases stream' <;> rfl

/-- What a change of one pipe keeps of the reads from both. -/
theorem reads_setPipe (h : ∀ stream, Reads s stream)
    (hbytes : output ++ pipe.unread = pipe.stream) (hbound : output.length ≤ maxOutputBytes) (stream' : Stream) :
    Reads (s.setPipe pipe reader output stream) stream' := by
  obtain ⟨hbytes', hbound'⟩ := h stream'
  unfold State.buffer at hbytes' hbound'
  unfold State.world at hbytes'
  constructor
  · unfold State.buffer State.world
    rw [pipe_setPipe]
    split
    · exact hbytes
    · exact hbytes'
  · unfold State.buffer
    rw [pipe_setPipe]
    split
    · exact hbound
    · exact hbound'

theorem ends_setPipe (h : Ends c s)
    (hend : reader = false → pipe.unread = [] ∧ pipe.closed = true) : Ends c (s.setPipe pipe reader output stream) where
  read stream' hreader := by
    have hread := h.read stream'
    unfold State.reader State.world at *
    rw [pipe_setPipe] at hreader ⊢
    split at hreader
    next heq =>
      rw [if_pos heq]
      exact hend hreader
    next hne =>
      rw [if_neg hne]
      exact hread hreader
  stdin hstdin := by
    cases stream
    · exact h.stdin hstdin
    · exact h.stdin hstdin

theorem data_setPipe (h : Data c s)
    (hbytes : output ++ pipe.unread = pipe.stream) (hbound : output.length ≤ maxOutputBytes) :
    Data c (s.setPipe pipe reader output stream) where
  reads := reads_setPipe h.reads hbytes hbound
  accepted := by cases stream <;> exact h.accepted
  written := by cases stream <;> exact h.written

/-- What does not touch the pipes keeps what was read. -/
theorem Reads.frame (h : Reads s stream) (hpipe : s'.pipe stream = s.pipe stream) : Reads s' stream := by
  obtain ⟨hbytes, hbound⟩ := h
  unfold State.buffer at hbytes hbound
  unfold State.world at hbytes
  rw [← hpipe] at hbytes hbound
  exact ⟨hbytes, hbound⟩

theorem Data.frame (h : Data c s) (hpipe : ∀ stream, s'.pipe stream = s.pipe stream)
    (haccepted : s'.accepted = s.accepted)
    (hwritten : s'.written = s.written) : Data c s' where
  reads stream := (h.reads stream).frame (hpipe stream)
  accepted := by rw [haccepted, hwritten, h.accepted]
  written := by rw [hwritten]; exact h.written

theorem Ends.frame (h : Ends c s) (hpipe : ∀ stream, s'.pipe stream = s.pipe stream) (hstdin : s'.stdin = s.stdin)
    (hwritten : s'.written = s.written) : Ends c s' where
  read stream hreader := by
    have hread := h.read stream
    unfold State.reader State.world at *
    rw [← hpipe] at hread
    exact hread hreader
  stdin hnone := by
    rw [hwritten]
    exact h.stdin (hstdin ▸ hnone)

theorem Data.at (h : Data c s) : Data c { s with control := control } :=
  h.frame (fun stream => by cases stream <;> rfl) rfl rfl

theorem Ends.at (h : Ends c s) : Ends c { s with control := control } :=
  h.frame (fun stream => by cases stream <;> rfl) rfl rfl

theorem Kept.failed (h : ¬s.control.Running) (hget : s.control ≠ .getpgid)
    (hok : ∀ out, s.control ≠ .returned (.ok out)) :
    Kept c s :=
  ⟨fun hat => absurd hat (by simp [h, hget]), fun hopened => absurd (running_of_opened hopened) h,
    fun out hat => absurd hat (hok out)⟩

theorem not_returned (h : control.Opened) (out : Output) : control ≠ .returned (.ok out) := by
  rintro rfl
  exact h

theorem setPipe_self (s : State) (stream : Stream) :
    s.setPipe (s.world stream) (s.reader stream) (s.buffer stream) stream = s := by
  cases stream <;> rfl

/-- A change of one pipe by the child; nothing changes a closed pipe. -/
theorem Kept.world (hk : Kept c s) (hbytes : s.buffer stream ++ (s.world stream).unread = (s.world stream).stream →
      s.buffer stream ++ pipe.unread = pipe.stream)
    (hclosed : (s.world stream).closed = true → pipe = s.world stream) :
    Kept c (s.setPipe pipe (s.reader stream) (s.buffer stream) stream) := by
  by_cases hworld : (s.world stream).closed = true
  · rw [hclosed hworld, setPipe_self]
    exact hk
  · refine ⟨?_, ?_, fun out => ?_⟩
    all_goals rw [control_setPipe]
    all_goals intro hat
    · have hdata := hk.data hat
      exact data_setPipe hdata (hbytes (hdata.reads stream).bytes) (hdata.reads stream).bound
    · exact ends_setPipe (hk.ends hat) fun hreader => absurd ((hk.ends hat).read stream hreader).2 hworld
    · have hcomplete := hk.complete out hat
      cases stream
      · exact absurd hcomplete.stdout.2 hworld
      · exact absurd hcomplete.stderr.2 hworld

theorem step_kept (h : Step c s s') (hk : Kept c s) : Kept c s' := by
  cases h with
  | write stream bytes hopen =>
    refine hk.world (fun hbytes => ?_) fun hclosed => absurd hclosed (by simp [hopen])
    unfold Pipe.write
    rw [← hbytes, List.append_assoc]
  | close stream =>
    refine hk.world id fun hclosed => ?_
    rw [← hclosed]
  | exit hrunning =>
    refine ⟨fun hat => (hk.data hat).frame (fun stream => by cases stream <;> rfl) rfl rfl,
      fun hat => (hk.ends hat).frame (fun stream => by cases stream <;> rfl) rfl rfl, fun out hat => ?_⟩
    have hleader := (hk.complete out hat).status
    rw [hrunning] at hleader
    cases hleader
  | group hat =>
    exact ⟨fun _ => (hk.data (.inl hat)).frame (fun stream => by cases stream <;> rfl) rfl rfl, nofun, nofun⟩
  | timed hat => exact ⟨fun _ => (hk.data (.inr (running_of (.inl hat)))).at, nofun, nofun⟩
  | fail => exact .failed id nofun nofun
  | take hat hpiped =>
    obtain ⟨hreads, haccepted, hwritten⟩ := hk.data (.inr (running_of (.inr (.inl hat))))
    refine ⟨fun _ => ⟨fun stream => ?_, haccepted, hwritten⟩, fun _ => ⟨fun stream hreader => ?_, fun hstdin => ?_⟩, nofun⟩
    · cases stream
      · exact ⟨(hreads .stdout).bytes, (hreads .stdout).bound⟩
      · exact ⟨(hreads .stderr).bytes, (hreads .stderr).bound⟩
    · cases stream <;> cases hreader
    · have hempty : c.input = [] := by
        rcases hpiped with hempty | hpiped
        · exact hempty
        · simpa [hpiped] using hstdin
      rw [hempty]
      exact Nat.zero_le _
  | move hat hnext =>
    exact ⟨fun _ => (hk.data (.inr (running_of_opened hat))).at, fun _ => (hk.ends hat).at,
      fun out hcontra => absurd hcontra (not_returned hnext out)⟩
  | @input events n hat hroom =>
    have hopened : s.control.Opened := by
      rw [hat]
      trivial
    obtain ⟨hreads, haccepted, hwritten⟩ := hk.data (.inr (running_of_opened hopened))
    have hends := hk.ends hopened
    refine ⟨fun _ => ⟨fun stream => (hreads stream).frame (by cases stream <;> rfl), ?_, ?_⟩,
      fun _ => ⟨fun stream hreader => ?_, fun hstdin => ?_⟩, nofun⟩
    · dsimp only
      rw [haccepted, ← List.take_add]
    · dsimp only
      omega
    · cases stream
      · exact hends.read .stdout hreader
      · exact hends.read .stderr hreader
    · dsimp only at hstdin ⊢
      rw [Bool.and_eq_false_iff, decide_eq_false_iff_not, not_not] at hstdin
      rcases hstdin with hstdin | hall
      · have hle := hends.stdin hstdin
        omega
      · omega
  | eof stream hat hnext hnone hclosed =>
    have hdata := hk.data (.inr (running_of_opened hat))
    exact ⟨fun _ => (data_setPipe hdata (hdata.reads stream).bytes (hdata.reads stream).bound).at,
      fun _ => (ends_setPipe (hk.ends hat) fun _ => ⟨hnone, hclosed⟩).at,
      fun out hcontra => absurd hcontra (not_returned hnext out)⟩
  | @read control n stream hat hnext hroom =>
    have hdata := hk.data (.inr (running_of_opened hat))
    obtain ⟨hbytes, hbound⟩ := hdata.reads stream
    refine ⟨fun _ => (data_setPipe hdata ?_ ?_).at, fun _ => (ends_setPipe (hk.ends hat) fun hreader => ?_).at,
      fun out hcontra => absurd hcontra (not_returned hnext out)⟩
    · rw [List.append_assoc, List.take_append_drop, hbytes]
    · rw [List.length_append, List.length_take]
      omega
    · obtain ⟨hnone, hclosed⟩ := (hk.ends hat).read stream hreader
      exact ⟨by rw [hnone, List.drop_nil], hclosed⟩
  | tooMuch => exact .failed id nofun nofun
  | @done status hat hclosed hexited =>
    have hopened : s.control.Opened := by
      rw [hat]
      trivial
    obtain ⟨hreads, haccepted, hwritten⟩ := hk.data (.inr (running_of_opened hopened))
    have hends := hk.ends hopened
    obtain ⟨hout, houtClosed⟩ := hends.read .stdout hclosed.1
    obtain ⟨herr, herrClosed⟩ := hends.read .stderr hclosed.2.1
    refine ⟨fun hcontra => ?_, nofun, fun out heq => ?_⟩
    · rcases hcontra with hcontra | hcontra
      · cases hcontra
      · exact hcontra.elim
    · cases heq
      have houtBytes := (hreads .stdout).bytes
      have herrBytes := (hreads .stderr).bytes
      rw [hout, List.append_nil] at houtBytes
      rw [herr, List.append_nil] at herrBytes
      refine ⟨⟨houtBytes, houtClosed⟩, ⟨herrBytes, herrClosed⟩, ⟨(hreads .stdout).bound, (hreads .stderr).bound⟩, ?_, rfl⟩
      dsimp only
      rw [haccepted, List.take_of_length_le (hends.stdin hclosed.2.2)]
  | kill => exact .failed id nofun nofun
  | killChild => exact .failed id nofun nofun
  | wait => exact hk
  | reap => exact .failed id nofun nofun
  | leave => exact .failed id nofun nofun
  | detach => exact .failed id nofun nofun
  | waitDetached => exact hk
  | reapDetached hat => exact .failed (by simp [hat, Control.Running, Control.Opened]) (by simp [hat]) (by simp [hat])
  | leaveDetached hat => exact .failed (by simp [hat, Control.Running, Control.Opened]) (by simp [hat]) (by simp [hat])

/-! ## The result -/

/-- What is left of a child whose capture failed. -/
structure Cleaned (c : Child) (s : State) : Prop where
  group : c.Leads → .killGroup c.pid ∈ s.log
  child : .kill c.pid ∈ s.log
  waiter : .reap .loop ∉ s.log

/-- A wait that succeeds is the last act: no signal and no other wait comes after it. -/
def LastReap (log : List Act) : Prop := ∀ w, .reap w ∉ log.tail

theorem groupKilled_eq (c : Child) : groupKilled c = if c.pgid = c.pid then [.killGroup c.pid] else [] := by
  unfold groupKilled groupOf
  split <;> rfl

theorem reap_not_mem_groupKilled (w : Waiter) : .reap w ∉ groupKilled c := by
  rw [groupKilled_eq]
  split <;> simp

theorem logged_lastReap (h : Logged c s) : LastReap s.log := by
  have hgroup : LastReap (groupKilled c) := fun w hmem => reap_not_mem_groupKilled w (List.mem_of_mem_tail hmem)
  have hkilled : LastReap (.kill c.pid :: groupKilled c) := fun w => reap_not_mem_groupKilled w
  unfold Logged at h
  split at h
  · rw [h.1]
    exact nofun
  · rw [h.2.1]
    exact hgroup
  · rw [h.2.1]
    exact hkilled
  · rw [h.1]
    exact nofun
  · rcases h with hlog | ⟨⟨w, -, hlog⟩, -⟩
    · rw [hlog]
      exact hkilled
    · rw [hlog]
      intro w hmem
      rcases List.mem_cons.1 hmem with hcontra | hmem
      · cases hcontra
      · exact reap_not_mem_groupKilled w hmem
  · rw [h.2.1]
    exact nofun

theorem logged_cleaned {error : CommandError} (h : Logged c s) (hat : s.control = .returned (.error error)) :
    Cleaned c s := by
  have hmem : (c.Leads → .killGroup c.pid ∈ groupKilled c) := fun hleads => by
    rw [groupKilled_eq, if_pos (show c.pgid = c.pid from hleads)]
    exact List.mem_singleton_self _
  unfold Logged at h
  rw [hat] at h
  obtain hlog | ⟨⟨w, hw, hlog⟩, -⟩ := h
  · refine ⟨fun hleads => ?_, ?_, ?_⟩
    all_goals rw [hlog]
    · exact List.mem_cons_of_mem _ (hmem hleads)
    · exact List.mem_cons_self
    · simpa using reap_not_mem_groupKilled .loop
  · refine ⟨fun hleads => ?_, ?_, ?_⟩
    all_goals rw [hlog]
    · exact List.mem_cons_of_mem _ (List.mem_cons_of_mem _ (hmem hleads))
    · exact List.mem_cons_of_mem _ List.mem_cons_self
    · simpa [hw.symm] using reap_not_mem_groupKilled .loop

/-- In every run, signals come before the one wait that reaps the leader, a captured command is complete, and what
failed is cleaned up. -/
theorem capture_complete (c : Child) {s : State} (h : (system c).Reachable s) :
    LastReap s.log ∧
      (∀ out, s.control = .returned (.ok out) → Complete c s out ∧ s.log = [.reap .loop]) ∧
      ∀ error, s.control = .returned (.error error) → Cleaned c s := by
  have hinv : Logged c s ∧ Kept c s := by
    refine h.invariant (I := fun s => Logged c s ∧ Kept c s) ?_ fun s e s' hi hstep =>
      ⟨step_logged (step_cases hstep) hi.1, step_kept (step_cases hstep) hi.2⟩
    refine ⟨⟨rfl, rfl⟩, ⟨fun _ => ⟨fun stream => ?_, by simp [system], Nat.zero_le _⟩, nofun, nofun⟩⟩
    cases stream
    · exact ⟨rfl, Nat.zero_le _⟩
    · exact ⟨rfl, Nat.zero_le _⟩
  refine ⟨logged_lastReap hinv.1, fun out hat => ⟨hinv.2.complete out hat, ?_⟩,
    fun error hat => logged_cleaned hinv.1 hat⟩
  have hlogged := hinv.1
  unfold Logged at hlogged
  rw [hat] at hlogged
  exact hlogged.1

/-- A child that is given two bytes. -/
def someChild : Child where
  pid := 7
  pgid := 7
  stdinPiped := true
  stdoutPiped := true
  stderrPiped := true
  input := [1, 2]

def captureRun : List Event :=
  let ready : Revents := { nval := false, stdin := true, stdout := true, stderr := true }
  [.write .stdout [8, 9], .close .stdout, .close .stderr, .exit 0,
    .call .none, .call (.clock true), .call .none, .call (.fcntl true), .call (.fcntl true), .call (.fcntl true),
    .call .none, .call (.clock true), .call (.poll (.ok ready)),
    .call (.write (.bytes 2)), .call (.read (.bytes 2)), .call (.read (.bytes 0)),
    .call .none, .call (.clock true), .call (.poll (.ok { ready with stderr := false })),
    .call .none, .call (.read (.bytes 0)), .call .none,
    .call (.tryWait (.status 0))]

/-- The output that a worker has returned. -/
def Control.captured : Control → Option Output
  | .returned (.ok out) => some out
  | _ => none

theorem captured_eq_some {out : Output} (h : control.captured = some out) : control = .returned (.ok out) := by
  unfold Control.captured at h
  split at h
  · rw [Option.some.inj h]
  · cases h

theorem capture_complete_returned : ∃ s, (system someChild).Reachable s ∧ Complete someChild s ⟨0, [8, 9], []⟩ ∧
    s.log = [.reap .loop] := by
  have hrun : ((system someChild).run (system someChild).init captureRun).any (fun s =>
      s.control.captured = some ⟨0, [8, 9], []⟩) = true := by decide
  obtain ⟨s, hs, hp⟩ := System.exists_reachable hrun
  obtain ⟨-, hok, -⟩ := capture_complete someChild hs
  obtain ⟨hcomplete, hlog⟩ := hok _ (captured_eq_some (of_decide_eq_true hp))
  exact ⟨s, hs, hcomplete, hlog⟩

end CocoaWay.RuntimeCommands
