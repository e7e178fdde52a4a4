import CocoaWay.InputProbe.Calibration
import CocoaWay.InputProbe.Rows
import CocoaWay.TraceAnalysis.Analyze

/-!
# The joins of a probe run

* `Records` : the records of one run of the guest and one session of the host, with the indexes over them;
* `Note` : what an analysis notes, a sample or an exclusion at a time;
* `marked`, `frameNotes`, `handlerOf`, `joinOf`, `causeOf`, `presentationOf` : the passes, each one entry of an index
  at a time;
* `notes`, `presentations` : all that is noted, and the end-to-end samples with their key events.
-/

namespace CocoaWay.InputProbe
open Lib Python Calibration
open TraceAnalysis (Stage Tag stages metalStages reversed)

structure Records where
  pid : Value
  /-- The events of the host. -/
  events : List Row
  receipts : List Row
  /-- The handlers of keys. -/
  handlers : List Row
  commits : List Row
  cal : Cal

inductive Duration
  | hostObservationToForwarded
  | guestReceiptToHandled
  | guestHandlerExecution
  | guestHandledToPreCommitSingleCause
  | guestHandledToCommitQueuedSingleCause
  | hostObservationToActualMetalPresentedSingleCause
  deriving DecidableEq

inductive Note
  | failure (message : String)
  | duration (name : Duration) (ns : Int)
  | latency (bounds : Interval)
  | frame (stage : Stage) (bounds : Interval)
  | matchedFrame
  | coalesced
  | singleCauseKey
  deriving DecidableEq

/-- `failures[message] += n`. -/
def failures (n : Nat) (message : String) : List Note := List.replicate n (.failure message)

def PyError.message : PyError → String
  | .valueError message => message
  | _ => ""

/-! ## Fields -/

def isStage (stage : Stage) (row : Row) : Bool := row.get "stage" = .str stage.name

def timestamp (row : Row) : Int := row.int "timestamp_ns"

def monotonic (row : Row) : Int := row.int "guest_monotonic_ns"

def correlation (row : Row) : Option Tag := idKey (row.get "correlation_id")

def eventSequence (row : Row) : Option Int := (row.get "event_sequence").uint 64

def frameSequence (row : Row) : Option Int := (row.get "frame_sequence").uint 64

def causeSequence (commit : Row) : Option Int := (commit.get "cause_event_sequence").uint 64

/-- More than one window is named. -/
def windowsConflict (rows : List Row) : Bool :=
  let named := rows.filter fun r => r.get "window_id" ≠ .none
  decide (1 < (named.map fun r => idKey (r.get "window_id")).toFinset.card)

def sameKey (a b : Row) : Bool :=
  ["pid", "event_sequence", "seat_global", "protocol_serial", "forwarded_event_time_ms_opaque", "evdev_key",
    "raw_state"].all fun key => (a.get key).eq (b.get key)

def singleCause (commit : Row) : Bool :=
  let sequence := commit.get "cause_event_sequence"
  (commit.get "has_new_input_cause").isBool true && (commit.get "cause_kind").eq (.int 1) &&
    (causeSequence commit).any (fun n => decide (0 < n)) && (commit.get "applied_visual_events").eq (.int 1) &&
    (commit.get "first_applied_event_sequence").eq sequence && sequence.eq (commit.get "last_applied_event_sequence")

def causePairs : List (String × String) :=
  [("cause_event_sequence", "event_sequence"), ("cause_seat_global", "seat_global"),
    ("cause_protocol_serial", "protocol_serial"),
    ("cause_forwarded_event_time_ms_opaque", "forwarded_event_time_ms_opaque"), ("cause_evdev_code", "evdev_key"),
    ("cause_raw_state", "raw_state"), ("cause_receipt_ns", "guest_monotonic_ns")]

def causeMatches (commit receipt handled : Row) : Bool :=
  causePairs.all (fun (key, key') => (commit.get key).eq (receipt.get key')) &&
    (commit.get "cause_handler_ns").eq (handled.get "guest_monotonic_ns")

/-- The handler is that of the receipt, and was not done before it began. -/
def handlerMatches (receipt handler : Row) : Bool :=
  sameKey receipt handler && (handler.get "receipt_ns").eq (receipt.get "guest_monotonic_ns") &&
    (handler.get "handler_start_ns").isUint 64 && decide (monotonic receipt ≤ handler.int "handler_start_ns") &&
    decide (handler.int "handler_start_ns" ≤ monotonic handler)

/-- The commit was queued after it was sampled, and that after the handler was done. -/
def commitInOrder (handler commit : Row) : Bool :=
  (commit.get "guest_monotonic_ns").eq (commit.get "pre_commit_ns") && (commit.get "commit_queued_ns").isUint 64 &&
    decide (monotonic handler ≤ commit.int "pre_commit_ns") &&
    decide (commit.int "pre_commit_ns" ≤ commit.int "commit_queued_ns")

namespace Records

variable (r : Records)

/-! ## Indexes -/

def inputs : List Row := r.receipts.filter fun row => row.get "event" = .str "key"

def byPair : Int × Int → List Row := buckets r.inputs guestPair

def bySequence : Int → List Row := buckets r.receipts eventSequence

def handled : Int → List Row := buckets r.handlers eventSequence

def guestFrames : Int → List Row := buckets r.commits frameSequence

def native : Tag → List Row := buckets (r.events.filter (isStage .hostNativeInput)) correlation

def forwards : List Row := r.events.filter (isStage .forwarded)

def forwardedIds : Tag → List Row := buckets r.forwards correlation

def forwardedPairs : Int × Int → List Row := buckets r.forwards hostPair

def frameStages : List Stage := [.surfaceCommit, .composeStarted, .cpuSubmitted, .metalPresented]

def frames : Tag → List Row := buckets (r.events.filter fun row => frameStages.any fun stage =>
    isStage stage row) correlation

/-- `one(chain, stage)`, with the chain of an identity. -/
def chain (identity : Option Tag) (stage : Stage) : Option Row :=
  identity.bind fun id => sole ((r.frames id).filter (isStage stage))

/-! ## Markers -/

/-- What a marker is taken for. -/
inductive Marked
  | invalid
  | otherPid
  | mismatch (frame : Int)
  | coalesced (frame : Int)
  | good (frame : Int)
  deriving DecidableEq

def surfaces : List Row := r.events.filter fun row => isStage .surfaceCommit row && row.get "probe_marker" ≠ .none

def marked (surface : Row) : Marked :=
  match marker (surface.get "probe_marker") with
  | none => .invalid
  | some m =>
    if !(Value.int m.pid).eq r.pid then .otherPid
    else
      match one r.guestFrames (some m.frame) with
      | none => .mismatch m.frame
      | some commit =>
        if !markerMatches m commit then .mismatch m.frame
        else if m.kind = 1 ∧ (8 ≤ m.flags ∨ m.applied ≠ 1 ∨ m.first ≠ m.last) then .coalesced m.frame
        else .good m.frame

def Marked.notes : Marked → List Note
  | .invalid => failures 1 "invalid_marker"
  | .otherPid => failures 1 "marker_other_pid"
  | .mismatch _ => failures 1 "marker_commit_missing_duplicate_or_mismatch"
  | .coalesced _ => failures 1 "coalesced_key_marker"
  | .good _ => []

def frameMarkers (frame : Int) : List Row :=
  r.surfaces.filter fun s => r.marked s = .good frame ∨ r.marked s = .coalesced frame

def hostMarkers (frame : Int) : List Row := r.surfaces.filter fun s => r.marked s = .good frame

def frameTainted (frame : Int) : Bool := r.surfaces.any fun s => r.marked s = .mismatch frame

def tainted (frame : Int) : Bool := r.surfaces.any fun s => r.marked s = .mismatch frame ∨ r.marked s = .coalesced frame

/-! ## Frames -/

/-- The stages that are bounded, from the one whose turn it is. -/
def stageNotes (commit surface : Row) : List Row → List Stage → List Note
  | _, [] => []
  | before, stage :: rest =>
    let identity := correlation surface
    let destination :=
      if stage = .surfaceCommit then some surface
      else if r.chain identity .surfaceCommit = some surface then r.chain identity stage else none
    match destination with
    | none => failures 1 ("frame_stage_missing_duplicate_or_coalesced: " ++ stage.name)
    | some destination =>
      let chain := before ++ [destination]
      if windowsConflict chain ∨ reversed (chain.map timestamp) then
        failures 1 ("frame_stage_window_mismatch_or_reversed: " ++ stage.name)
      else
        (match guestToHostBounds (.int (commit.int "pre_commit_ns")) (.int (timestamp destination)) r.cal with
          | .ok bounds => [.frame stage bounds]
          | .error e => failures 1 ("frame_calibration_excluded: " ++ stage.name ++ ": " ++ PyError.message e)) ++
        stageNotes commit surface chain rest

def frameNotes (frame : Int) : List Note :=
  match sole (r.guestFrames frame), sole (r.frameMarkers frame) with
  | some commit, some surface =>
    if r.frameTainted frame then failures 1 "frame_marker_missing_duplicate_or_tainted"
    else if !(commit.get "guest_monotonic_ns").eq (commit.get "pre_commit_ns") ∨
        commit.int "commit_queued_ns" < commit.int "pre_commit_ns" then
      failures 1 "frame_pre_commit_timestamps_invalid"
    else .matchedFrame :: r.stageNotes commit surface [] [.surfaceCommit, .composeStarted, .cpuSubmitted]
  | _, _ => failures (r.guestFrames frame).length "frame_marker_missing_duplicate_or_tainted"

/-! ## Handlers -/

/-- The only receipt of a source tuple, with its handler. -/
def handlerOf (pair : Int × Int) : Except (List Note) (Row × Row) :=
  match sole (r.byPair pair) with
  | none => .error (failures (r.byPair pair).length "duplicate_guest_key_tuple")
  | some receipt =>
    match one r.bySequence (eventSequence receipt) with
    | none => .error (failures 1 "duplicate_guest_event_sequence")
    | some _ =>
      match one r.handled (eventSequence receipt) with
      | none => .error (failures 1 "handler_missing_duplicate_or_mismatch")
      | some handler =>
        if handlerMatches receipt handler then .ok (receipt, handler)
        else .error (failures 1 "handler_missing_duplicate_or_mismatch")

def handlerNotes (pair : Int × Int) : List Note :=
  match r.handlerOf pair with
  | .error notes => notes
  | .ok (receipt, handler) =>
    [.duration .guestReceiptToHandled (monotonic handler - monotonic receipt),
      .duration .guestHandlerExecution (monotonic handler - handler.int "handler_start_ns")]

def goodHandlers : List (Int × Row) :=
  (bucketKeys guestPair r.inputs).filterMap fun pair =>
    (r.handlerOf pair).toOption.bind fun (receipt, handler) => (eventSequence receipt).map fun sequence =>
      (sequence, handler)

/-! ## Inputs -/

structure Join where
  observation : Row
  forward : Row
  receipt : Row

/-- The only forward of a source tuple, with what the host observed and the guest received. -/
def joinOf (pair : Int × Int) : Except (List Note) Join :=
  match sole (r.forwardedPairs pair), sole (r.byPair pair) with
  | some forward, some receipt =>
    match one r.bySequence (eventSequence receipt) with
    | none => .error (failures 1 "join_duplicate_guest_event_sequence")
    | some _ =>
      match one r.native (correlation forward), one r.forwardedIds (correlation forward) with
      | some observation, some _ =>
        if timestamp forward < timestamp observation then
          .error (failures 1 "native_forward_id_missing_duplicate_or_reversed")
        else .ok ⟨observation, forward, receipt⟩
      | _, _ => .error (failures 1 "native_forward_id_missing_duplicate_or_reversed")
  | _, _ => .error (failures (r.forwardedPairs pair).length "forward_receipt_tuple_missing_or_duplicate")

def joinNotes (pair : Int × Int) : List Note :=
  match r.joinOf pair with
  | .error notes => notes
  | .ok join =>
    [.duration .hostObservationToForwarded (timestamp join.forward - timestamp join.observation),
      match receiptBounds (.int (timestamp join.observation)) (.int (monotonic join.receipt)) r.cal with
      | .ok bounds => .latency bounds
      | .error e => .failure ("calibration_excluded: " ++ PyError.message e)]

def joined : List (Int × Join) :=
  (bucketKeys hostPair r.forwards).filterMap fun pair =>
    (r.joinOf pair).toOption.bind fun join => (eventSequence join.receipt).map fun sequence => (sequence, join)

/-! ## Causes -/

/-- The commit of a frame, with the key event that is its single cause. -/
def causeOf (frame : Int) : Except (List Note) (Int × Row) :=
  match sole (r.guestFrames frame) with
  | none => .error (failures (r.guestFrames frame).length "duplicate_guest_frame")
  | some commit =>
    if !(commit.get "cause_kind").eq (.int 1) ∨ !(commit.get "has_new_input_cause").isBool true then .error []
    else if !singleCause commit then .error [.coalesced]
    else if r.tainted frame then .error (failures 1 "single_cause_frame_tainted_by_marker")
    else
      match causeSequence commit, one r.bySequence (causeSequence commit),
        (causeSequence commit).bind (assigned r.goodHandlers) with
      | some sequence, some receipt, some handler =>
        if !causeMatches commit receipt handler then .error (failures 1 "commit_cause_receipt_handler_mismatch")
        else if !commitInOrder handler commit then .error (failures 1 "guest_commit_timestamps_reversed_or_invalid")
        else .ok (sequence, commit)
      | _, _, _ => .error (failures 1 "commit_cause_receipt_handler_mismatch")

def causeNotes (frame : Int) : List Note :=
  match r.causeOf frame with
  | .error notes => notes
  | .ok _ => []

def causeCommits : List (Int × Row) :=
  (bucketKeys frameSequence r.commits).filterMap fun frame => (r.causeOf frame).toOption

/-! ## Presentations -/

/-- From the observation of the cause to the presentation of the frame. -/
def presentationOf (sequence : Int) (commit : Row) : Except (List Note) Int :=
  match one r.hostMarkers (frameSequence commit), assigned r.joined sequence with
  | some surface, some join =>
    match frameStages.mapM (r.chain (correlation surface)) with
    | none => .error (failures 1 "presentation_frame_stages_missing_or_duplicate")
    | some ordered =>
      if ordered.head? ≠ some surface then .error (failures 1 "presentation_frame_stages_missing_or_duplicate")
      else
        let rows := join.observation :: join.forward :: ordered
        if windowsConflict rows ∨ reversed (rows.map timestamp) then
          .error (failures 1 "presentation_window_mismatch_or_reversed")
        else .ok ((ordered.getLast?.map timestamp).getD 0 - timestamp join.observation)
  | _, _ => .error (failures 1 "presentation_missing_duplicate_marker_or_input_join")

/-- The commits of which a key event is the single cause. -/
def commitsOf (sequence : Int) : List Row := (bucket (fun e => some e.1) r.causeCommits sequence).map (·.2)

/-- The end-to-end sample of a key event. -/
def presentation (sequence : Int) : Except (List Note) Int :=
  match sole (r.commitsOf sequence) with
  | none => .error (failures (r.commitsOf sequence).length "duplicate_single_cause_commit")
  | some commit => r.presentationOf sequence commit

/-- What is noted of a key event that is the single cause of one commit. -/
def keyNotes (sequence : Int) : List Note :=
  match sole (r.commitsOf sequence), assigned r.goodHandlers sequence with
  | some commit, some handler =>
    [.singleCauseKey, .duration .guestHandledToPreCommitSingleCause (commit.int "pre_commit_ns" - monotonic handler),
      .duration .guestHandledToCommitQueuedSingleCause (commit.int "commit_queued_ns" - monotonic handler)]
  | _, _ => []

def presentationNotes (sequence : Int) : List Note :=
  match r.presentation sequence with
  | .error notes => notes
  | .ok ns => [.duration .hostObservationToActualMetalPresentedSingleCause ns]

def causes : List Int := bucketKeys (fun e => some e.1) r.causeCommits

def notes : List Note :=
  r.surfaces.flatMap (fun surface => (r.marked surface).notes) ++
    (bucketKeys frameSequence r.commits).flatMap r.frameNotes ++
      (bucketKeys guestPair r.inputs).flatMap r.handlerNotes ++
    (bucketKeys hostPair r.forwards).flatMap r.joinNotes ++ (bucketKeys frameSequence r.commits).flatMap r.causeNotes ++
    r.causes.flatMap fun sequence => r.keyNotes sequence ++ r.presentationNotes sequence

/-- The end-to-end samples, with their key events. -/
def presentations : List (Int × Int) :=
  r.causes.filterMap fun sequence => (r.presentation sequence).toOption.map fun ns => (sequence, ns)

end Records

end CocoaWay.InputProbe
