import CocoaWay.Lib.Lines
import CocoaWay.Lib.Python
import CocoaWay.Lib.Split

/-!
# The records of a latency trace

* `boundedLines` : the lines of a stream; `none` for one that is too long; `boundedLines_eq` : no line is lost;
* `Stage`, `Tag` : the stages of an event, and what correlates events;
* `Record`, `record` : a row that passes, with what the analysis uses of it;
* `Class`, `classify` : what a line is.
-/

namespace CocoaWay.TraceAnalysis
open Lib Python

/-! ## Lines -/

def maxLineBytes : Nat := 16384

def newline : UInt8 := 10

/-- What is behind an oversized line, of which `chunk` was read last. -/
def discardLine (chunk rest : List UInt8) : List UInt8 :=
  if chunk.getLast? = some newline then rest
  else if h : rest = [] then []
  else discardLine (readUntil newline (maxLineBytes + 1) rest).1 (readUntil newline (maxLineBytes + 1) rest).2
termination_by rest.length
decreasing_by exact readUntil_rest_lt newline maxLineBytes h

theorem discardLine_rest (chunk rest : List UInt8) : (discardLine chunk rest).length ≤ rest.length := by
  induction chunk, rest using discardLine.induct with
  | case1 chunk rest hends =>
    rw [discardLine, if_pos hends]
  | case2 chunk hends =>
    rw [discardLine, if_neg hends, dif_pos rfl]
  | case3 chunk rest hends hrest ih =>
    rw [discardLine, if_neg hends, dif_neg hrest]
    exact ih.trans (readUntil_rest_lt newline maxLineBytes hrest).le

abbrev Line := Option (List UInt8)

def boundedLines (stream : List UInt8) : List Line :=
  if h : stream = [] then []
  else
    let chunk := (readUntil newline (maxLineBytes + 1) stream).1
    let rest := (readUntil newline (maxLineBytes + 1) stream).2
    if maxLineBytes < chunk.length then none :: boundedLines (discardLine chunk rest) else some chunk :: boundedLines rest
termination_by stream.length
decreasing_by
  · exact (discardLine_rest _ _).trans_lt (readUntil_rest_lt newline maxLineBytes h)
  · exact readUntil_rest_lt newline maxLineBytes h

/-! ## Values -/

inductive Stage
  | hostNativeInput
  | forwarded
  | surfaceCommit
  | composeStarted
  | cpuSubmitted
  | metalPresented
  | hostInputHandled
  | drawableAcquireStarted
  | drawableAcquireFinished
  | composeFinished
  | gpuStarted
  | gpuCompleted
  | gpuCompletionCallback
  | gpuCommandFailed
  | metalPresentedCallback
  | frameCallbackDone
  deriving DecidableEq

def Stage.name : Stage → String
  | .hostNativeInput => "HostNativeInput"
  | .forwarded => "Forwarded"
  | .surfaceCommit => "SurfaceCommit"
  | .composeStarted => "ComposeStarted"
  | .cpuSubmitted => "CPUSubmitted"
  | .metalPresented => "MetalPresented"
  | .hostInputHandled => "HostInputHandled"
  | .drawableAcquireStarted => "DrawableAcquireStarted"
  | .drawableAcquireFinished => "DrawableAcquireFinished"
  | .composeFinished => "ComposeFinished"
  | .gpuStarted => "GPUStarted"
  | .gpuCompleted => "GPUCompleted"
  | .gpuCompletionCallback => "GPUCompletionCallback"
  | .gpuCommandFailed => "GPUCommandFailed"
  | .metalPresentedCallback => "MetalPresentedCallback"
  | .frameCallbackDone => "FrameCallbackDone"

def stages : List Stage :=
  [.hostNativeInput, .forwarded, .surfaceCommit, .composeStarted, .cpuSubmitted, .metalPresented]

def metalStages : List Stage :=
  [.hostInputHandled, .drawableAcquireStarted, .drawableAcquireFinished, .composeFinished, .gpuStarted, .gpuCompleted,
    .gpuCompletionCallback, .gpuCommandFailed, .metalPresentedCallback, .frameCallbackDone]

/-- The value of a tag with its type. -/
inductive Tag
  | int (n : Int)
  | str (text : String)
  deriving DecidableEq

def text : Py → Option String
  | .str text => if 0 < text.utf8ByteSize ∧ text.utf8ByteSize ≤ 256 then some text else none
  | _ => none

/-- A string with a lone surrogate raises, which makes its row invalid too. -/
def tag : Py → Option Tag
  | .int n => (unsigned 64 n).map .int
  | value => (text value).map .str

/-! ## Rows -/

structure Event where
  stage : Stage
  clock : String
  timestamp : Int
  correlation : Option Tag
  window : Option Tag
  deriving DecidableEq

structure StatsRow where
  dropped : Int
  rejected : Int
  final : Bool
  captureCountsFinal : Option Bool
  captureDrained : Option Bool
  lateRecordCallsObserved : Option Int
  deriving DecidableEq

structure Metadata where
  captureEndpoint : Option String := none
  lateCallbacks : Option String := none
  deriving DecidableEq

inductive Kind
  | session (metadata : Metadata)
  | stats (row : StatsRow)
  | calibration
  | event (event : Event)
  deriving DecidableEq

structure Record where
  session : String
  kind : Kind
  deriving DecidableEq

/-- A field that may be absent; `none` when it does not pass. -/
def optional {α : Type} (row : Dict) (field : String) (f : Py → Option α) : Option (Option α) :=
  match row.lookup field with
  | none => some none
  | some value => (f value).map some

/-- A field that may be absent or null. -/
def nullable {α : Type} (row : Dict) (field : String) (f : Py → Option α) : Option (Option α) :=
  match row.get field with
  | .none => some none
  | value => (f value).map some

def bool : Py → Option Bool
  | .bool b => some b
  | _ => none

def statsRow (row : Dict) : Option StatsRow := do
  let dropped ← row.u64 "dropped"
  let rejected ← row.u64 "rejected"
  let final ← bool (row.get "final")
  let countsFinal ← optional row "capture_counts_final" bool
  let drained ← optional row "capture_drained" bool
  let lifetime ← optional row "lifetime_loss_totals_known" bool
  let late ← optional row "late_record_calls_observed" Py.u64
  if lifetime.getD final = final ∧ ¬(final = true ∧ (countsFinal = some false ∨ drained = some false)) ∧
      ¬(countsFinal.isSome = true ∧ drained.isSome = true ∧ countsFinal ≠ drained) then
    some ⟨dropped, rejected, final, countsFinal, drained, late⟩
  else none

/-- The stages whose time is reported by an API, which reports 0 for none. -/
def Stage.isReported (stage : Stage) : Bool := stage = .metalPresented || stage = .gpuStarted || stage = .gpuCompleted

def event (row : Dict) : Option Event := do
  let stage ← (stages ++ metalStages).find? fun stage => (row.get "stage").isStr stage.name
  let timestamp ← row.u64 "timestamp_ns"
  let clock ← text (row.get "clock")
  let correlation ← nullable row "correlation_id" tag
  let window ← nullable row "window_id" tag
  let _ ← nullable row "source_event_serial" tag
  let _ ← nullable row "source_event_time" tag
  let _ ← nullable row "surface_id" tag
  let flags ← nullable row "commit_flags" Py.u64
  if (stage.isReported = true ∧ timestamp = 0) ∨ flags.any (fun flags => decide (7 < flags)) = true then none
  else some ⟨stage, clock, timestamp, correlation, window⟩

def header (row : Dict) : Option Metadata := do
  return ⟨← optional row "capture_endpoint" text, ← optional row "late_callbacks" text⟩

def record : Py → Option Record
  | .dict row => do
    if !(Dict.get row "schema").isInt 1 then none
    else
      let session ← text (Dict.get row "session_id")
      let kind := Dict.get row "kind"
      if kind.isStr "stats" then return ⟨session, .stats (← statsRow row)⟩
      else if kind.isStr "event" then return ⟨session, .event (← event row)⟩
      else if kind.isStr "session" then return ⟨session, .session (← header row)⟩
      else if kind.isStr "calibration" then return ⟨session, .calibration⟩
      else none
  | _ => none

/-! ## What a line is -/

inductive Class
  | oversized
  | blank
  | invalid
  | record (r : Record)
  deriving DecidableEq

def isSpace (b : UInt8) : Bool := [9, 10, 11, 12, 13, 32].contains b

/-- `loads` gives nothing when `json.loads` raises. -/
def classify (loads : List UInt8 → Option Py) : Line → Class
  | none => .oversized
  | some line =>
    if maxLineBytes < line.length then .oversized
    else if line.all isSpace then .blank
    else
      match (loads line).bind record with
      | some r => .record r
      | none => .invalid

/-! ## No line is lost -/

variable {body rest chunk : List UInt8}

def isNewline (b : UInt8) : Bool := b = newline

theorem isNewline_of_not_mem (h : newline ∉ body) : ∀ b ∈ body, isNewline b = false :=
  fun _ hb => decide_eq_false fun heq => h (heq ▸ hb)

theorem not_ends_of_not_mem (h : newline ∉ chunk) : chunk.getLast? ≠ some newline :=
  fun hlast => h (List.mem_of_getLast? hlast)

theorem discardLine_line (hchunk : newline ∉ chunk) (hbody : newline ∉ body) (rest : List UInt8) :
    discardLine chunk (body ++ newline :: rest) = rest := by
  induction hlength : body.length using Nat.strong_induction_on generalizing chunk body with
  | _ n ih =>
    subst hlength
    have hne : body ++ newline :: rest ≠ [] := by simp
    rw [discardLine, if_neg (not_ends_of_not_mem hchunk), dif_neg hne, readUntil_line hbody]
    split
    · rw [discardLine, if_pos (by simp)]
    next hlong =>
      refine ih _ ?_ (fun hmem => hbody (List.mem_of_mem_take hmem)) (fun hmem => hbody (List.mem_of_mem_drop hmem)) rfl
      rw [List.length_drop]
      omega

theorem discardLine_open (hchunk : newline ∉ chunk) (hbody : newline ∉ body) : discardLine chunk body = [] := by
  induction hlength : body.length using Nat.strong_induction_on generalizing chunk body with
  | _ n ih =>
    subst hlength
    rw [discardLine, if_neg (not_ends_of_not_mem hchunk)]
    split
    · rfl
    next hne =>
      rw [readUntil_open hbody]
      have hpos : 0 < body.length := List.length_pos_of_ne_nil hne
      refine ih _ ?_ (fun hmem => hbody (List.mem_of_mem_take hmem)) (fun hmem => hbody (List.mem_of_mem_drop hmem)) rfl
      rw [List.length_drop]
      omega

/-- A line, or nothing in place of a line that is too long. -/
def bound (line : List UInt8) : Line := if maxLineBytes < line.length then none else some line

theorem boundedLines_line (hbody : newline ∉ body) (rest : List UInt8) :
    boundedLines (body ++ newline :: rest) = bound (body ++ [newline]) :: boundedLines rest := by
  have hne : body ++ newline :: rest ≠ [] := by simp
  rw [boundedLines, dif_neg hne]
  dsimp only
  rw [readUntil_line hbody]
  unfold bound
  rw [List.length_append, List.length_singleton]
  split
  · dsimp only
    rw [List.length_append, List.length_singleton]
    split
    · rw [discardLine, if_pos (by simp)]
    · rfl
  next hlong =>
    dsimp only
    rw [List.length_take, if_pos (by omega), if_pos (by omega),
      discardLine_line (fun hmem => hbody (List.mem_of_mem_take hmem)) fun hmem => hbody (List.mem_of_mem_drop hmem)]

theorem boundedLines_open (hne : body ≠ []) (hbody : newline ∉ body) : boundedLines body = [bound body] := by
  have hempty : boundedLines [] = [] := by rw [boundedLines, dif_pos rfl]
  rw [boundedLines, dif_neg hne]
  dsimp only
  rw [readUntil_open hbody]
  dsimp only
  unfold bound
  rw [List.length_take]
  by_cases hlong : maxLineBytes < body.length
  · rw [if_pos (by omega), if_pos hlong,
      discardLine_open (fun hmem => hbody (List.mem_of_mem_take hmem)) fun hmem =>
        hbody (List.mem_of_mem_drop hmem), hempty]
  · rw [if_neg (by omega), if_neg hlong, List.take_of_length_le (by omega), List.drop_of_length_le (by omega), hempty]

/-- Every line of the stream is given, or is too long. -/
theorem boundedLines_eq (stream : List UInt8) : boundedLines stream = (splitAfter isNewline stream).map bound := by
  induction hlength : stream.length using Nat.strong_induction_on generalizing stream with
  | _ n ih =>
    subst hlength
    cases hsplit : splitOnce newline stream with
    | none =>
      have hbody := splitOnce_eq_none.1 hsplit
      by_cases hne : stream = []
      · subst hne
        rw [boundedLines, dif_pos rfl]
        rfl
      · rw [boundedLines_open hne hbody]
        have hpiece : splitAfter isNewline (stream ++ []) = glue stream (splitAfter isNewline []) :=
          splitAfter_append_of_none hne (isNewline_of_not_mem hbody) []
        rw [List.append_nil] at hpiece
        rw [hpiece]
        rfl
    | some parts =>
      obtain ⟨body, rest⟩ := parts
      obtain ⟨rfl, hbody⟩ := splitOnce_eq_some.1 hsplit
      rw [boundedLines_line hbody, splitAfter_line (isNewline_of_not_mem hbody) (decide_eq_true rfl), List.map_cons,
        ih rest.length (by rw [List.length_append, List.length_cons]; omega) rest rfl]

end CocoaWay.TraceAnalysis
