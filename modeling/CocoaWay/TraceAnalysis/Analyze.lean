import CocoaWay.TraceAnalysis.Records
import Mathlib.Data.Finset.Card
import Mathlib.Data.Finset.Dedup
import Mathlib.Logic.Function.Basic

/-!
# The analysis of a latency trace

* `State`, `State.record`, `gather` : the pass over the lines, within the capacities;
* `Pair`, `span`, `outcome` : what a group of events gives for a pair of stages;
* `Pairing`, `analyze` : the pass over the groups, and the result of both.
-/

namespace CocoaWay.TraceAnalysis
open Lib Python

/-! ## The pass over the lines -/

structure Limits where
  maxGroups : Nat := 50000
  maxSessions : Nat := 128

abbrev Key := String × Tag

/-- What is kept of an event. -/
structure Seen where
  clock : String
  timestamp : Int
  window : Option Tag

/-- The number of events of a stage, and the first of them. -/
abbrev Group := Stage → Option (Nat × Seen)

structure Stats where
  dropped : Int := 0
  rejected : Int := 0
  final : Bool := false
  captureCountsFinal : Bool := false
  captureDrained : Bool := false
  lifetimeLossTotalsKnown : Bool := false
  lateRecordCallsObserved : Option Int := none
  lateRecordCallTotalsKnown : Bool := false

/-- `groups` are the keys in the order of their insertion, with what `group` has for them. -/
structure State where
  groups : List Key := []
  group : Key → Group := fun _ _ => none
  sessions : Finset String := ∅
  headers : Finset String := ∅
  captureMetadata : String → Option Metadata := fun _ => none
  stats : String → Option Stats := fun _ => none
  stages : Stage → Nat := fun _ => 0
  unmatched : Stage → Nat := fun _ => 0
  unanalyzed : Stage → Nat := fun _ => 0
  invalid : Nat := 0
  ignoredCalibrations : Nat := 0
  oversized : Nat := 0
  untrackedRecords : Nat := 0

def bump (counter : Stage → Nat) (stage : Stage) : Stage → Nat := Function.update counter stage (counter stage + 1)

def Event.seen (e : Event) : Seen := ⟨e.clock, e.timestamp, e.window⟩

def Group.push (g : Group) (e : Event) : Group :=
  Function.update g e.stage
    (match g e.stage with
    | none => some (1, e.seen)
    | some (count, first) => some (count + 1, first))

def Stats.join (previous : Stats) (row : StatsRow) : Stats :=
  let final := previous.final || row.final
  { dropped := max previous.dropped row.dropped
    rejected := max previous.rejected row.rejected
    final := final
    captureCountsFinal := final || previous.captureCountsFinal || row.captureCountsFinal.getD false
    captureDrained := final || previous.captureDrained || row.captureDrained.getD false
    lifetimeLossTotalsKnown := final
    lateRecordCallsObserved :=
      match previous.lateRecordCallsObserved, row.lateRecordCallsObserved with
      | some a, some b => some (max a b)
      | some a, none => some a
      | none, late => late
    lateRecordCallTotalsKnown := previous.lateRecordCallTotalsKnown || (row.final && row.lateRecordCallsObserved.isSome) }

/-- `setdefault` and `update`. -/
def Metadata.update (previous : Option Metadata) (row : Metadata) : Option Metadata :=
  if row = {} then previous
  else
    let previous := previous.getD {}
    some {
      captureEndpoint := row.captureEndpoint.or previous.captureEndpoint
      lateCallbacks := row.lateCallbacks.or previous.lateCallbacks }

def State.event (limits : Limits) (s : State) (session : String) (e : Event) : State :=
  match e.correlation with
  | none => { s with unmatched := bump s.unmatched e.stage }
  | some tag =>
    let key := (session, tag)
    if key ∉ s.groups ∧ limits.maxGroups ≤ s.groups.length then { s with unanalyzed := bump s.unanalyzed e.stage }
    else { s with
      groups := if key ∈ s.groups then s.groups else s.groups ++ [key]
      group := Function.update s.group key ((s.group key).push e) }

/-- The stage of an event. -/
def Kind.stage? : Kind → Option Stage
  | .event e => some e.stage
  | _ => none

/-- A record of a session that is kept. -/
def State.keep (limits : Limits) (s : State) (session : String) : Kind → State
  | .session metadata => { s with
      headers := insert session s.headers
      captureMetadata := Function.update s.captureMetadata session (Metadata.update (s.captureMetadata session) metadata) }
  | .stats row => { s with stats := Function.update s.stats session (some (((s.stats session).getD {}).join row)) }
  | .calibration => { s with ignoredCalibrations := s.ignoredCalibrations + 1 }
  | .event e => s.event limits session e

def State.counted (s : State) (r : Record) : State :=
  match r.kind.stage? with
  | some stage => { s with stages := bump s.stages stage }
  | none => s

def State.untracked (s : State) (r : Record) : State :=
  { s with
    untrackedRecords := s.untrackedRecords + 1
    unanalyzed := match r.kind.stage? with
      | some stage => bump s.unanalyzed stage
      | none => s.unanalyzed }

def State.record (limits : Limits) (s : State) (r : Record) : State :=
  let s := s.counted r
  if r.session ∉ s.sessions ∧ limits.maxSessions ≤ s.sessions.card then s.untracked r
  else State.keep limits { s with sessions := insert r.session s.sessions } r.session r.kind

def State.line (limits : Limits) (s : State) : Class → State
  | .oversized => { s with oversized := s.oversized + 1 }
  | .blank => s
  | .invalid => { s with invalid := s.invalid + 1 }
  | .record r => s.record limits r

def gather (limits : Limits) (classes : List Class) : State := classes.foldl (State.line limits) {}

/-! ## The pass over the groups -/

abbrev Pair := Stage × Stage

def metalPairs : List Pair :=
  [(.hostNativeInput, .hostInputHandled), (.drawableAcquireStarted, .drawableAcquireFinished),
    (.drawableAcquireFinished, .composeFinished), (.cpuSubmitted, .gpuStarted), (.gpuStarted, .gpuCompleted),
    (.cpuSubmitted, .gpuCompletionCallback), (.cpuSubmitted, .metalPresentedCallback),
      (.surfaceCommit, .frameCallbackDone)]

def pairs : List Pair :=
  stages.zip stages.tail ++ [(.surfaceCommit, .metalPresented), (.composeStarted, .metalPresented),
    (.hostNativeInput, .metalPresented)] ++ metalPairs

/-- The stages between, with both ends. -/
def span (pair : Pair) : List Stage :=
  if pair ∈ metalPairs then [pair.1, pair.2]
  else (stages.drop (stages.idxOf pair.1)).take (stages.idxOf pair.2 + 1 - stages.idxOf pair.1)

inductive Reason
  | missing
  | ambiguous
  | crossClock
  | windowConflict
  | reversedTime
  deriving DecidableEq

structure Value where
  clock : String
  value : Int
  deriving DecidableEq

/-- The first events of a span. -/
def chain (g : Group) (pair : Pair) : List Seen := (span pair).filterMap fun stage => (g stage).map (·.2)

def reversed (times : List Int) : Bool := (times.zip times.tail).any fun (a, b) => decide (b < a)

def outcome (g : Group) (pair : Pair) : Except Reason Value :=
  if (span pair).any fun stage => (g stage).isNone then .error .missing
  else if (span pair).any fun stage => (g stage).any fun seen => decide (seen.1 ≠ 1) then .error .ambiguous
  else
    let chain := chain g pair
    let times := chain.map Seen.timestamp
    if (chain.map Seen.clock).toFinset.card ≠ 1 then .error .crossClock
    else if 1 < (chain.filterMap Seen.window).toFinset.card then .error .windowConflict
    else if reversed times then .error .reversedTime
    else .ok ⟨(chain.head?.map Seen.clock).getD "", times.getLast?.getD 0 - times.head?.getD 0⟩

structure Pairing where
  missing : Stage → Nat := fun _ => 0
  ambiguous : Stage → Nat := fun _ => 0
  metrics : String → Pair → List Int := fun _ _ => []
  excluded : Pair → Reason → Nat := fun _ _ => 0
  matchedCommits : Nat := 0
  multipleCommitGroups : Nat := 0

def count (g : Group) (stage : Stage) : Nat := ((g stage).map (·.1)).getD 0

/-- The value of a pair that goes to the metric of a clock. -/
def produced (g : Group) (clock : String) (pair : Pair) : Option Int :=
  match outcome g pair with
  | .ok v => if pair ∈ pairs ∧ v.clock = clock then some v.value else none
  | .error _ => none

def Pairing.group (p : Pairing) (g : Group) : Pairing where
  multipleCommitGroups := p.multipleCommitGroups + if 1 < count g .surfaceCommit then 1 else 0
  missing stage := p.missing stage + if (g stage).isNone then 1 else 0
  ambiguous stage := p.ambiguous stage + if 1 < count g stage then 1 else 0
  excluded pair reason := p.excluded pair reason + if pair ∈ pairs ∧ outcome g pair = .error reason then 1 else 0
  metrics clock pair := p.metrics clock pair ++ (produced g clock pair).toList
  matchedCommits := p.matchedCommits + if (outcome g (.surfaceCommit, .composeStarted)).isOk then 1 else 0

structure Result where
  sessions : Finset String
  headers : Finset String
  stats : String → Option Stats
  captureMetadata : String → Option Metadata
  groups : Nat
  stages : Stage → Nat
  unmatched : Stage → Nat
  missing : Stage → Nat
  ambiguous : Stage → Nat
  metrics : String → Pair → List Int
  excluded : Pair → Reason → Nat
  invalid : Nat
  ignoredCalibrations : Nat
  limits : Limits
  oversized : Nat
  unanalyzed : Stage → Nat
  untrackedRecords : Nat
  multipleCommitGroups : Nat
  unmatchedCommits : Int

def State.result (limits : Limits) (s : State) : Result :=
  let p := (s.groups.map s.group).foldl Pairing.group {}
  { sessions := s.sessions
    headers := s.headers
    stats := s.stats
    captureMetadata := s.captureMetadata
    groups := s.groups.length
    stages := s.stages
    unmatched := s.unmatched
    missing := p.missing
    ambiguous := p.ambiguous
    metrics := p.metrics
    excluded := p.excluded
    invalid := s.invalid
    ignoredCalibrations := s.ignoredCalibrations
    limits := limits
    oversized := s.oversized
    unanalyzed := s.unanalyzed
    untrackedRecords := s.untrackedRecords
    multipleCommitGroups := p.multipleCommitGroups
    unmatchedCommits := s.stages .surfaceCommit - p.matchedCommits }

def analyze (loads : List UInt8 → Option Py) (lines : List Line) (limits : Limits) : Except PyError Result :=
  if limits.maxGroups < 1 ∨ limits.maxSessions < 1 then .error (.valueError "analyzer capacities must be positive")
  else .ok ((gather limits (lines.map (classify loads))).result limits)

end CocoaWay.TraceAnalysis
