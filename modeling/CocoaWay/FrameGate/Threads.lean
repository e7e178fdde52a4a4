import CocoaWay.Lib.Requests
import CocoaWay.Lib.System
import Mathlib.Data.Fin.Basic
import Mathlib.Data.Fintype.Basic
import Mathlib.Logic.Function.Basic

/-!
# The packed word of the frame gate, and the threads on it

`FrameGate` keeps a count of frames and two flags in one 64-bit atomic word.

Any number of threads run `ready`, `begin`, `defer_redraw`, `defer_until_idle` and `complete` on one gate. One event is
one atomic step of one thread: a call, the first load of a compare-exchange loop, one attempt of the loop (which may
fail spuriously), or a `fetch_or`.

* `admitNext`, `releaseNext`, `deferRedraw`, `deferUntilIdle` : what one iteration of a loop, or a `fetch_or`, computes
  from the word;
* `Gate` : what the word stands for; `Gate.encode` packs it, and the operations on words are those on gates;
* `State` : the word, what every thread is doing, and the log of what the steps did (newest first);
* `step`, `system` : the atomic steps;
* `Entry.demands`, `Entry.wakes`, `Entry.drains`, `Entry.admits` : the readings of the log the properties are about.
-/

namespace CocoaWay.FrameGate
open Lib

/-! ## The word -/

/-- The atomic word: `usize` on the 64-bit targets of the program. -/
abbrev Word := BitVec 64

def maxFrames : Nat := 3

/-- `REDRAW_WAITING`: the top bit. -/
def redrawWaiting : Word := 1#64 <<< 63

/-- `DRAINING`: the bit below it. -/
def draining : Word := redrawWaiting >>> 1

/-- `FRAME_COUNT`: the mask of the low bits. -/
def frameCount : Word := ~~~(redrawWaiting ||| draining)

/-! ## The word operations of the source -/

/-- `admit` on a loaded word: the result, and the word it tries to store. -/
def admitNext (reserve : Bool) (state : Word) : Bool × Word :=
  let count := state &&& frameCount
  let ready := count < BitVec.ofNat 64 maxFrames && (state &&& draining == 0 || count == 0)
  (ready,
    if ready then (state &&& ~~~draining) + (if reserve then 1 else 0)
    else state ||| redrawWaiting)

/-- `release` on a loaded word: the result, and the word it tries to store. -/
def releaseNext (state : Word) : Bool × Word :=
  let draining' := state &&& draining != 0 && state &&& frameCount > 1
  (!draining' && state &&& redrawWaiting != 0,
    if draining' then state - 1
    else (state - 1) &&& ~~~redrawWaiting)

def deferRedraw (state : Word) : Word := state ||| redrawWaiting

def deferUntilIdle (state : Word) : Word := state ||| (draining ||| redrawWaiting)

/-! ## What the word stands for -/

/-- A frame gate: frames in flight, a registered redraw demand, and the drain request. -/
structure Gate where
  count : Fin (maxFrames + 1)
  waiting : Bool
  drain : Bool

namespace Gate

/-- The word of a gate. -/
def encode (g : Gate) : Word :=
  (if g.waiting then redrawWaiting else 0) + (if g.drain then draining else 0) + BitVec.ofNat 64 g.count

/-- Admission: below the limit, and with a drain requested only into an idle gate. -/
def ready (g : Gate) : Bool := g.count.val < maxFrames && (!g.drain || g.count.val == 0)

def admission (reserve : Bool) (g : Gate) : Gate :=
  if g.ready then { g with count := if reserve then g.count + 1 else g.count, drain := false }
  else { g with waiting := true }

/-- A release wakes a registered demand, with a drain requested only when it is the last one. -/
def wakes (g : Gate) : Bool := !(g.drain && 1 < g.count.val) && g.waiting

def release (g : Gate) : Gate :=
  { g with count := g.count - 1, waiting := g.waiting && (g.drain && 1 < g.count.val) }

def defer (untilIdle : Bool) (g : Gate) : Gate :=
  { g with waiting := true, drain := g.drain || untilIdle }

end Gate

/-- A property of gates that can be decided on each of them. -/
theorem Gate.forall_iff {P : Gate → Prop} : (∀ g, P g) ↔ ∀ c w d, P ⟨c, w, d⟩ :=
  ⟨fun h c w d => h ⟨c, w, d⟩, fun h g => h g.count g.waiting g.drain⟩

/-- The count field of a packed word is the gate's count: the flags never reach into it. -/
theorem encode_and_frameCount (g : Gate) : (g.encode &&& frameCount).toNat = g.count := by
  revert g; rw [Gate.forall_iff]; decide

theorem encode_and_redrawWaiting (g : Gate) : (g.encode &&& redrawWaiting != 0) = g.waiting := by
  revert g; rw [Gate.forall_iff]; decide

theorem encode_and_draining (g : Gate) : (g.encode &&& draining != 0) = g.drain := by
  revert g; rw [Gate.forall_iff]; decide

theorem admitNext_encode (reserve : Bool) (g : Gate) :
    admitNext reserve g.encode = (g.ready, (g.admission reserve).encode) := by
  revert g; rw [Gate.forall_iff]; revert reserve; decide

/-- A release of a gate that holds a frame borrows from neither flag. -/
theorem releaseNext_encode (g : Gate) (h : 0 < g.count.val) :
    releaseNext g.encode = (g.wakes, g.release.encode) := by
  revert g; rw [Gate.forall_iff]; decide

theorem deferRedraw_encode (g : Gate) : deferRedraw g.encode = (g.defer false).encode := by
  revert g; rw [Gate.forall_iff]; decide

theorem deferUntilIdle_encode (g : Gate) : deferUntilIdle g.encode = (g.defer true).encode := by
  revert g; rw [Gate.forall_iff]; decide

/-! ## What the operations do to a gate -/

theorem Gate.admit_count (g : Gate) (reserve : Bool) (h : g.ready = true) :
    (g.admission reserve).count.val = g.count.val + (if reserve then 1 else 0) := by
  revert g; rw [Gate.forall_iff]; revert reserve; decide

theorem Gate.count_pos_of_refused (g : Gate) (h : g.ready = false) : 0 < g.count.val := by
  revert g; rw [Gate.forall_iff]; decide

theorem Gate.release_count (g : Gate) (h : 0 < g.count.val) : g.release.count.val = g.count.val - 1 := by
  revert g; rw [Gate.forall_iff]; decide

theorem Gate.release_answers (g : Gate) (hk : g.wakes = true) : g.release.waiting = false := by
  revert g; rw [Gate.forall_iff]; decide

theorem Gate.release_keeps (g : Gate) (h : 0 < g.count.val) (hk : g.wakes = false) :
    g.release.waiting = g.waiting := by
  revert g; rw [Gate.forall_iff]; decide

/-- With a drain requested only the last release wakes. -/
theorem Gate.wakes_last (g : Gate) (hk : g.wakes = true) (hd : g.drain = true) (h : 0 < g.count.val) :
    g.release.count.val = 0 := by
  revert g; rw [Gate.forall_iff]; decide

/-- A demand that a release leaves unanswered keeps at least one frame in flight. -/
theorem Gate.release_waiting (g : Gate) (h : 0 < g.count.val) (hw : g.waiting = true) (hk : g.wakes = false) :
    g.release.waiting = true ∧ 0 < g.release.count.val := by
  revert g; rw [Gate.forall_iff]; decide

/-! ## Threads -/

/-- Where a thread is inside an operation of the gate. -/
inductive Pc
  | idle
  | admitLoad (reserve : Bool)
  | admitCas (reserve : Bool) (state : Word)
  | releaseLoad (frame : Nat)
  | releaseCas (frame : Nat) (state : Word)
  deriving DecidableEq

/-- What one step did. Frames are numbered in the order of their admission. -/
inductive Entry
  /-- An admission succeeded; `some f` when it reserved the frame `f`. -/
  | admitted (frame : Option Nat)
  /-- An admission was refused with `inFlight` frames in flight. -/
  | refused (inFlight : Nat)
  | deferred (untilIdle : Bool) (inFlight : Nat)
  /-- The frame was released; `drain` is the drain flag the release found, `left` the frames still in flight. -/
  | released (frame : Nat) (drain : Bool) (left : Nat) (woke : Bool)
  deriving DecidableEq

namespace Entry

/-- Registers a redraw demand. -/
def demands : Entry → Bool
  | refused _ | deferred _ _ => true
  | _ => false

/-- A release that returned `true`. -/
def wakes : Entry → Bool
  | released _ _ _ woke => woke
  | _ => false

/-- Requests a drain. -/
def drains : Entry → Bool
  | deferred untilIdle _ => untilIdle
  | _ => false

def admits : Entry → Bool
  | admitted _ => true
  | _ => false

/-- The frames in flight when the entry registered its demand. -/
def demandedWith : Entry → Nat
  | refused n | deferred _ n => n
  | _ => 0

end Entry

/-- The gate and its threads. -/
structure State (ι : Type*) where
  word : Word
  threads : ι → Pc
  /-- The number of frames admitted so far. -/
  frames : Nat
  /-- The frames whose `completion_started` is set. -/
  started : List Nat
  /-- The frames admitted and not yet released. -/
  inFlight : List Nat
  log : List Entry

/-- One atomic step of a thread. -/
inductive Event (ι : Type*)
  | ready (t : ι)
  | begin (t : ι)
  | deferRedraw (t : ι)
  | deferUntilIdle (t : ι)
  /-- `complete`, or the drop, of a frame: the swap of `completion_started`. -/
  | complete (t : ι) (frame : Nat)
  | load (t : ι)
  | compareExchange (t : ι) (spurious : Bool)

variable {ι : Type*} [DecidableEq ι]

namespace State

def setPc (s : State ι) (t : ι) (pc : Pc) : State ι := { s with threads := Function.update s.threads t pc }

@[simp] theorem setPc_word (s : State ι) (t : ι) (pc : Pc) : (s.setPc t pc).word = s.word := rfl
@[simp] theorem setPc_frames (s : State ι) (t : ι) (pc : Pc) : (s.setPc t pc).frames = s.frames := rfl
@[simp] theorem setPc_started (s : State ι) (t : ι) (pc : Pc) : (s.setPc t pc).started = s.started := rfl
@[simp] theorem setPc_inFlight (s : State ι) (t : ι) (pc : Pc) : (s.setPc t pc).inFlight = s.inFlight := rfl
@[simp] theorem setPc_log (s : State ι) (t : ι) (pc : Pc) : (s.setPc t pc).log = s.log := rfl

/-- The thread's compare-exchange stored the word `admit` computed. -/
def finishAdmit (s : State ι) (t : ι) (reserve : Bool) : State ι :=
  let (ready, next) := admitNext reserve s.word
  let s := { s.setPc t .idle with word := next }
  match ready, reserve with
  | true, true =>
    { s with
      frames := s.frames + 1
      inFlight := s.frames :: s.inFlight
      log := .admitted (some s.frames) :: s.log }
  | true, false => { s with log := .admitted none :: s.log }
  | false, _ => { s with log := .refused s.inFlight.length :: s.log }

/-- The thread's compare-exchange stored the word `release` computed. -/
def finishRelease (s : State ι) (t : ι) (frame : Nat) : State ι :=
  let (woke, next) := releaseNext s.word
  let left := s.inFlight.erase frame
  { s.setPc t .idle with
    word := next
    inFlight := left
    log := .released frame (s.word &&& draining != 0) left.length woke :: s.log }

end State

/-- The atomic steps. A thread that is inside an operation calls no other one. -/
def step (s : State ι) : Event ι → Option (State ι)
  | .ready t => if s.threads t = .idle then some (s.setPc t (.admitLoad false)) else none
  | .begin t => if s.threads t = .idle then some (s.setPc t (.admitLoad true)) else none
  | .deferRedraw t =>
    if s.threads t = .idle then
      some { s with word := deferRedraw s.word, log := .deferred false s.inFlight.length :: s.log }
    else none
  | .deferUntilIdle t =>
    if s.threads t = .idle then
      some { s with word := deferUntilIdle s.word, log := .deferred true s.inFlight.length :: s.log }
    else none
  | .complete t frame =>
    if s.threads t = .idle ∧ frame < s.frames then
      -- Only the swap that finds the flag clear goes on to release the gate.
      if frame ∈ s.started then some s
      else some { s.setPc t (.releaseLoad frame) with started := frame :: s.started }
    else none
  | .load t =>
    match s.threads t with
    | .admitLoad reserve => some (s.setPc t (.admitCas reserve s.word))
    | .releaseLoad frame => some (s.setPc t (.releaseCas frame s.word))
    | _ => none
  | .compareExchange t spurious =>
    match s.threads t with
    | .admitCas reserve state =>
      if s.word = state ∧ !spurious then some (s.finishAdmit t reserve)
      else some (s.setPc t (.admitCas reserve s.word))
    | .releaseCas frame state =>
      if s.word = state ∧ !spurious then some (s.finishRelease t frame)
      else some (s.setPc t (.releaseCas frame s.word))
    | _ => none

/-- A fresh gate, with every thread outside it. -/
def system (ι : Type*) [DecidableEq ι] : System (State ι) (Event ι) where
  init := { word := 0, threads := fun _ => .idle, frames := 0, started := [], inFlight := [], log := [] }
  step := step

end CocoaWay.FrameGate
