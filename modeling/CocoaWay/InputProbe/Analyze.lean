import CocoaWay.InputProbe.Joins
import Mathlib.Data.List.Sort

/-!
# The analysis of a probe run

* `validKey`, `validCommit`, `checkEvent`, `checkStart` : the checks of the records;
* `selectGuest`, `selectHost`, `select` : one run of the guest, one session of the host, and the records that are
  joined;
* `metric` : the quantiles of some samples; `Counts`, `Result`, `analyze` : what is reported.

The result is without the metadata, and without whether the last loss record of the host is final.
-/

namespace CocoaWay.InputProbe
open Lib Python Calibration
open TraceAnalysis (Stage stages metalStages)

/-! ## Checks -/

def guard (p : Bool) (message : String) : Except PyError Unit := if p then .ok () else .error (.valueError message)

/-- `uint` and not zero. -/
def isPositive (bits : Nat) (v : Value) : Bool := (v.uint bits).any fun n => decide (n ≠ 0)

def validKey (row : Row) : Bool :=
  isPositive 64 (row.get "event_sequence") &&
    ["pid", "seat_global", "protocol_serial", "forwarded_event_time_ms_opaque", "evdev_key", "raw_state"].all
      (fun key => (row.get key).isUint 32) &&
    (row.get "evdev_code" = .none || (row.get "evdev_code").eq (row.get "evdev_key"))

def validCommit (row : Row) : Bool :=
  ["pid", "cause_kind", "cause_evdev_code", "cause_raw_state", "cause_protocol_serial", "cause_seat_global", "width",
      "height"].all (fun key => (row.get key).isUint 32) &&
    ["frame_sequence", "pre_commit_ns", "commit_queued_ns", "cause_event_sequence", "cause_receipt_ns",
      "cause_handler_ns",
      "applied_visual_events", "first_applied_event_sequence", "last_applied_event_sequence"].all
      (fun key => (row.get key).isUint 64) &&
    ["frame_sequence", "width", "height"].all (fun key => isPositive 64 (row.get key)) &&
    ["has_new_input_cause", "continuous_animation"].all
      (fun key => (row.get key).isBool true || (row.get key).isBool false) &&
    (row.get "cause_forwarded_event_time_ms_opaque" = .none ||
      (row.get "cause_forwarded_event_time_ms_opaque").isUint 32)

def checkEvent (row : Row) : Except PyError Unit := do
  guard (row.get "clock" = .str "host_ca" && (stages ++ metalStages).any (fun stage => isStage stage row) &&
    (row.get "timestamp_ns").isUint 64) "wrong Host stage/timestamp/clock"
  guard (!([Stage.metalPresented, .gpuStarted, .gpuCompleted].any (fun stage => isStage stage row) &&
    timestamp row = 0)) "zero is not a reported API timestamp"

/-! ## Selection -/

def probe : String := "cocoa-way.input-latency-probe"

/-- A value of the calibration, and one of a record. -/
def Value.eqPy (eq : Py → Py → Bool) (v : Value) (p : Py) : Bool :=
  match v with
  | .none => eq .none p
  | .bool b => eq (.bool b) p
  | .int n => eq (.int n) p
  | .str text => eq (.str text) p
  -- no value of JSON equals bytes
  | .bytes _ => false

def isNone : Py → Bool
  | .none => true
  | _ => false

def isStart (tag : Option String) (row : Row) : Bool :=
  row.get "probe" = .str probe && row.get "record" = .str "start" && tag.all fun tag => row.get "tag" = .str tag

/-- The start of the run of the guest. -/
def checkStart (eq : Py → Py → Bool) (clockGuest : Dict) (start : Row) : Except PyError Unit := do
  guard (start.get "clock" = .str "CLOCK_MONOTONIC" && (start.get "clock_id").eq (.int 1) &&
    start.get "clock_units" = .str "ns" && start.get "clock_epoch" = .str "guest_system_monotonic" &&
    start.get "receipt_point" = .str "backend_event_delivery" && isPositive 32 (start.get "pid") &&
    (match start.get "tag" with | .str _ => true | _ => false)) "wrong Guest probe/receipt clock"
  ["boot_id", "time_namespace"].forM fun field =>
    guard (start.get field = .none || isNone (clockGuest.get field) || (start.get field).eqPy eq (clockGuest.get field))
      ("Guest clock identity mismatch: " ++ field)

/-- The records of the guest's run. -/
def selectGuest (eq : Py → Py → Bool) (clockGuest : Dict) (guest : List Row) (tag : Option String) :
    Except PyError (Value × List Row) :=
  match guest.filter (isStart tag) with
  | [start] => do
    checkStart eq clockGuest start
    return (start.get "pid", guest.filter fun row =>
      (row.get "tag").eq (start.get "tag") && (row.get "pid").eq (start.get "pid") && row.get "probe" = .str probe)
  | _ => .error (.valueError "need exactly one Guest start; select --tag for one run")

/-- The records of a session of the host. -/
def selectHost (host : List Row) (session : Option String) : Except PyError (List Row) :=
  match session with
  | some session =>
    if host.any fun row => row.get "session_id" = .str session then
      .ok (host.filter fun row => row.get "session_id" = .str session)
    else .error (.valueError "requested Host session absent")
  | none =>
    match host with
    | [] => .error (.valueError "need exactly one Host session; select --session")
    | first :: _ =>
      if host.all fun row => (row.get "session_id").eq (first.get "session_id") then .ok host
      else .error (.valueError "need exactly one Host session; select --session")

/-- The records that are joined. -/
def recordsOf (cal : Cal) (pid : Value) (host guest : List Row) : Records where
  pid := pid
  events := host.filter fun row => row.get "kind" = .str "event"
  receipts := guest.filter fun row => row.get "record" = .str "input_received"
  handlers := guest.filter fun row => row.get "record" = .str "input_handled" && row.get "event" = .str "key"
  commits := guest.filter fun row => row.get "record" = .str "frame_commit"
  cal := cal

def checkRecords (r : Records) : Except PyError Unit := do
  r.events.forM checkEvent
  (r.inputs ++ r.handlers ++ r.commits).forM fun row =>
    guard ((row.get "guest_monotonic_ns").isUint 64) "invalid Guest monotonic timestamp"
  (r.inputs ++ r.handlers).forM fun row => guard (validKey row) "invalid Guest keyboard identity/source tuple"
  r.commits.forM fun row => guard (validCommit row) "invalid Guest commit identity/cause fields"
  r.receipts.forM fun row => guard (isPositive 64 (row.get "event_sequence")) "invalid Guest receipt event sequence"

/-- What takes part in the analysis. -/
structure Selected where
  records : Records
  host : List Row
  guest : List Row

def select (eq : Py → Py → Bool) (host guest : List Row) (clock : Dict) (verified : Bool)
    (tag session : Option String) :
    Except PyError Selected := do
  let cal ← calibration eq clock verified
  let clockGuest := match clock.get "guest" with | .dict guest => guest | _ => []
  let (pid, guest) ← selectGuest eq clockGuest guest tag
  let host ← selectHost host session
  checkRecords (recordsOf cal pid host guest)
  return { records := recordsOf cal pid host guest, host, guest }

/-! ## Metrics -/

structure Quantiles (α : Type) where
  p50 : α
  p95 : α
  p99 : α

/-- `sorted(a)[math.ceil(len(a) * p) - 1]`, with `p` in percent: the product of floats rounds to no other whole
number. -/
def quantile (a : List Int) (percent : Nat) : Int :=
  ((a.insertionSort (· ≤ ·))[(a.length * percent + 99) / 100 - 1]?).getD 0

def quantiles {α : Type} (f : Nat → α) : Quantiles α := ⟨f 50, f 95, f 99⟩

/-- `n` and `quantiles_ns`. -/
structure Metric (α : Type) where
  n : Nat
  quantiles : Option (Quantiles α)

def metric (values : List Int) : Metric Int where
  n := values.length
  quantiles := if values = [] then none else some (quantiles (quantile values))

/-- Of both ends apart. -/
def boundsMetric (values : List Interval) : Metric Interval where
  n := values.length
  quantiles :=
    if values = [] then none
    else some (quantiles fun p => (quantile (values.map Prod.fst) p, quantile (values.map Prod.snd) p))

/-! ## The result -/

def Note.duration? (name : Duration) : Note → Option Int
  | .duration name' ns => if name' = name then some ns else none
  | _ => none

def Note.latency? : Note → Option Interval
  | .latency bounds => some bounds
  | _ => none

def Note.frame? (stage : Stage) : Note → Option Interval
  | .frame stage' bounds => if stage' = stage then some bounds else none
  | _ => none

structure Counts where
  hostStages : Stage → Nat
  guestInputReceipts : Nat
  guestKeyReceipts : Nat
  guestKeyHandlers : Nat
  taggedHostForwards : Nat
  hostForwardsWithoutSerialTime : Int
  hostNativeWithoutKeyboardTupleJoin : Int
  uniqueJoinedKeys : Nat
  receiptBoundsSamples : Nat
  unmatchedTaggedHostForwards : Int
  unmatchedGuestKeyReceipts : Int
  guestCoalescedKeyFrames : Nat
  hostMarkerRecords : Nat
  singleCauseKeys : Nat
  uniqueMarkerMatchedGuestFrames : Nat
  guestFramesWithoutUniqueVerifiedHostMarker : Int
  guestFramesWithoutStageBounds : Stage → Int
  keysWithoutVerifiedSingleCauseCommit : Int
  keysWithoutActualPresentationMetric : Int
  hostFramesWithoutMetalPresented : Nat

structure Loss where
  observedHostDropped : Option Int
  observedHostRejected : Option Int
  guestStopRecords : Nat
  guestStopKeyCountConsistent : Bool
  guestStopFrameCountConsistent : Bool
  guestStopTotalInputCountConsistent : Bool
  guestUncommittedVisualEventsAtStop : Value
  guestProbeErrorRecordsInFile : Nat

structure Result where
  counts : Counts
  loss : Loss
  excluded : String → Nat
  durations : Duration → Metric Int
  hostObservationToGuestReceipt : Metric Interval
  frames : Stage → Metric Interval

namespace Records

variable (r : Records)

def durations (name : Duration) : List Int := r.notes.filterMap (Note.duration? name)

def latencyBounds : List Interval := r.notes.filterMap Note.latency?

def frameBounds (stage : Stage) : List Interval := r.notes.filterMap (Note.frame? stage)

def excluded (message : String) : Nat := r.notes.count (.failure message)

def counts : Counts where
  hostStages stage := r.events.countP (isStage stage)
  guestInputReceipts := r.receipts.length
  guestKeyReceipts := r.inputs.length
  guestKeyHandlers := r.handlers.length
  taggedHostForwards := (r.forwards.filter fun row => (hostPair row).isSome).length
  hostForwardsWithoutSerialTime := r.forwards.length - (r.forwards.filter fun row => (hostPair row).isSome).length
  hostNativeWithoutKeyboardTupleJoin := r.events.countP (isStage .hostNativeInput) - r.joined.length
  uniqueJoinedKeys := r.joined.length
  receiptBoundsSamples := r.latencyBounds.length
  unmatchedTaggedHostForwards := (r.forwards.filter fun row => (hostPair row).isSome).length - r.joined.length
  unmatchedGuestKeyReceipts := r.inputs.length - r.joined.length
  guestCoalescedKeyFrames := r.notes.count .coalesced
  hostMarkerRecords := r.surfaces.length
  singleCauseKeys := r.notes.count .singleCauseKey
  uniqueMarkerMatchedGuestFrames := r.notes.count .matchedFrame
  guestFramesWithoutUniqueVerifiedHostMarker := r.commits.length - r.notes.count .matchedFrame
  guestFramesWithoutStageBounds stage := r.commits.length - (r.frameBounds stage).length
  keysWithoutVerifiedSingleCauseCommit := r.inputs.length - r.notes.count .singleCauseKey
  keysWithoutActualPresentationMetric :=
    r.inputs.length - (r.durations .hostObservationToActualMetalPresentedSingleCause).length
  hostFramesWithoutMetalPresented :=
    (bucketKeys correlation (r.events.filter fun row => frameStages.any fun stage => isStage stage row)).countP
      fun id => !(r.frames id).any (isStage .metalPresented)

end Records

/-- `max(values, default=None)`. -/
def largest (values : List Int) : Option Int := values.max?

def statsValid (row : Row) : Bool :=
  (row.get "dropped").isUint 64 && (row.get "rejected").isUint 64 &&
    ((row.get "final").isBool true || (row.get "final").isBool false)

def Selected.stats (s : Selected) : List Row := s.host.filter fun row => row.get "kind" = .str "stats"

def Selected.stops (s : Selected) : List Row := s.guest.filter fun row => row.get "record" = .str "stop"

/-- The only stop record has a count. -/
def Selected.stopCounts (s : Selected) (key : String) (n : Nat) : Bool :=
  (sole s.stops).any fun stop => (stop.get key).eq (.int n)

def Selected.loss (s : Selected) (guest : List Row) : Loss where
  observedHostDropped := largest (s.stats.map (·.int "dropped"))
  observedHostRejected := largest (s.stats.map (·.int "rejected"))
  guestStopRecords := s.stops.length
  guestStopKeyCountConsistent := s.stopCounts "key_events" s.records.inputs.length
  guestStopFrameCountConsistent := s.stopCounts "frames_committed" s.records.commits.length
  guestStopTotalInputCountConsistent := s.stopCounts "observed_input_events" s.records.receipts.length
  guestUncommittedVisualEventsAtStop := ((sole s.stops).map (·.get "uncommitted_visual_events")).getD .none
  guestProbeErrorRecordsInFile :=
    guest.countP fun row => row.get "probe" = .str probe && row.get "record" = .str "error"

def analyze (eq : Py → Py → Bool) (host guest : List Row) (clock : Dict) (verified : Bool)
    (tag session : Option String) :
    Except PyError Result := do
  let s ← select eq host guest clock verified tag session
  s.stats.forM fun row => guard (statsValid row) "invalid Host loss stats"
  return {
    counts := s.records.counts
    loss := s.loss guest
    excluded := s.records.excluded
    durations := fun name => metric (s.records.durations name)
    hostObservationToGuestReceipt := boundsMetric s.records.latencyBounds
    frames := fun stage => boundsMetric (s.records.frameBounds stage) }

end CocoaWay.InputProbe
