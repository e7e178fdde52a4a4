import CocoaWay.Control.Server
import CocoaWay.Lib.JsonText
import CocoaWay.Lib.Split
import Mathlib.Data.List.Forall2

/-!
# The MCP server on its standard input

* `readMcpFrame`, `mainLoop` : a frame of the input, and the loop of `main`;
* `McpFrame`, `turns` : the frames of a stream, and the turn that each is given;
* `Reading`, `Valid`, `Meets` : what a frame holds, and what is promised of its answer;
* `Served`, `served_iff` : when the promises are kept.
-/

namespace CocoaWay.Control
open Lib Launch JsonText

/-! ## The loop -/

def maxMcpFrameBytes : Nat := 64 * 1024

inductive ReadError
  | exceedsLimit
  | invalidUtf8

/-- The text of a frame as it was read, or nothing at the end of the input. -/
def frameText (frame : List UInt8) : Except ReadError (Option String) :=
  if frame.isEmpty then .ok none
  else
    let frame := if frame.getLast? = some lineFeed then frame.dropLast else frame
    if maxMcpFrameBytes < frame.length then .error .exceedsLimit
    else
      match fromUtf8 frame with
      | some text => .ok (some text)
      | none => .error .invalidUtf8

/-- A frame, and what is behind it. -/
def readMcpFrame (input : List UInt8) : Except ReadError (Option String) × List UInt8 :=
  let (frame, rest) := readUntil lineFeed (maxMcpFrameBytes + 2) input
  (frameText frame, rest)

/-- What the server goes by: the reader of its JSON library, the length of an encoded value, its options, and the
answer of the control API to each request. -/
structure Host where
  fromStr : String → Except String Json
  encodedLength : Json → Nat
  allowControl : Bool
  peer : Nat → ControlRequest → Except String ControlResponse

/-- What is written for a frame, and the requests that were sent for it. -/
structure LoopTurn where
  reply : Option Reply
  asked : List ControlRequest

structure LoopState where
  initialized : Bool := false
  asked : Nat := 0

def Host.respond (h : Host) (initialized : Bool) (line : String) : Exchange (Option Reply × Bool) :=
  if (trim line).isEmpty then .done (none, initialized)
  else
    match h.fromStr line with
    | .ok message => handleMessage h.encodedLength h.allowControl initialized message
    | .error error => .done (some (.error .null (-32700) s!"Parse error: {error}"), initialized)

def Host.run (h : Host) (s : LoopState) (line : String) : (Option Reply × Bool) × List (ControlRequest × Unit) :=
  (h.respond s.initialized line).run (fun n request => (h.peer n request, ())) s.asked

def Host.turn (h : Host) (s : LoopState) (line : String) : LoopTurn := ⟨(h.run s line).1.1, (h.run s line).2.map Prod.fst⟩

def Host.next (h : Host) (s : LoopState) (line : String) : LoopState :=
  ⟨(h.run s line).1.2, s.asked + (h.run s line).2.length⟩

theorem turn_reply (h : Host) (s : LoopState) (line : String) : (h.turn s line).reply = (h.run s line).1.1 := by
  rw [Host.turn]

theorem next_initialized (h : Host) (s : LoopState) (line : String) :
    (h.next s line).initialized = (h.run s line).1.2 := by
  rw [Host.next]

theorem readMcpFrame_rest_lt {input : List UInt8} {line : String} (h : (readMcpFrame input).1 = .ok (some line)) :
    (readMcpFrame input).2.length < input.length := by
  refine readUntil_rest_lt lineFeed (maxMcpFrameBytes + 1) ?_
  rintro rfl
  cases h

/-- The turns of the loop of `main`, which ends with the input and at a frame that cannot be read. -/
def mainLoop (h : Host) (s : LoopState) (input : List UInt8) : List LoopTurn :=
  match _ : (readMcpFrame input).1 with
  | .ok (some line) => h.turn s line :: mainLoop h (h.next s line) (readMcpFrame input).2
  | .ok none => []
  | .error _ => []
termination_by input.length
decreasing_by exact readMcpFrame_rest_lt ‹_›

/-! ## Frames -/

/-- A frame within the limit. -/
structure McpFrame where
  bytes : List UInt8
  line : lineFeed ∉ bytes
  within : bytes.length ≤ maxMcpFrameBytes

def McpFrame.text (f : McpFrame) : Option String := fromUtf8 f.bytes

def stream (frames : List McpFrame) : List UInt8 := frames.flatMap fun f => f.bytes ++ [lineFeed]

/-- The turns of frames, up to the first that is no text. -/
def turns (h : Host) : LoopState → List McpFrame → List LoopTurn
  | _, [] => []
  | s, f :: frames =>
    match f.text with
    | some line => h.turn s line :: turns h (h.next s line) frames
    | none => []

variable {h : Host} {s : LoopState} {f : McpFrame} {frames before after : List McpFrame} {line : String} {m : Json}

theorem readMcpFrame_frame (f : McpFrame) (rest : List UInt8) : readMcpFrame (f.bytes ++ lineFeed :: rest) =
    ((f.text.elim (.error .invalidUtf8) fun line => .ok (some line)), rest) := by
  have hlt : f.bytes.length < maxMcpFrameBytes + 2 := Nat.lt_add_right 1 (Nat.lt_succ_of_le f.within)
  unfold readMcpFrame
  rw [readUntil_line f.line, if_pos hlt]
  dsimp only
  unfold frameText McpFrame.text
  have hends : (f.bytes ++ [lineFeed]).getLast? = some lineFeed := List.getLast?_concat
  rw [if_neg (by simp), if_pos hends, List.dropLast_concat]
  dsimp only
  rw [if_neg (Nat.not_lt.2 f.within)]
  cases fromUtf8 f.bytes <;> rfl

theorem mainLoop_nil : mainLoop h s [] = [] := by
  rw [mainLoop]
  split
  next hread => cases hread
  · rfl
  · rfl

theorem mainLoop_stream (frames : List McpFrame) : mainLoop h s (stream frames) = turns h s frames := by
  induction frames generalizing s with
  | nil => exact mainLoop_nil
  | cons f frames ih =>
    have hstream : stream (f :: frames) = f.bytes ++ lineFeed :: stream frames := by simp [stream]
    have hread := readMcpFrame_frame f (stream frames)
    rw [hstream, mainLoop, turns]
    split
    next line hline =>
      rw [hread] at hline ⊢
      cases htext : f.text with
      | none =>
        rw [htext] at hline
        cases hline
      | some line' =>
        rw [htext] at hline
        cases hline
        exact congrArg _ ih
    next hnone =>
      rw [hread] at hnone
      cases htext : f.text <;> simp [htext] at hnone
    next e herror =>
      rw [hread] at herror
      cases htext : f.text with
      | none => rfl
      | some line =>
        rw [htext] at herror
        cases herror

/-! ## Messages -/

def hasVersion (m : Json) : Prop := (m.get "jsonrpc").bind Json.asStr = some "2.0"

def textMethod (m : Json) : Option String := (m.get "method").bind Json.asStr

/-- An object with a method and an identifier. -/
structure IsRequest (m id : Json) : Prop where
  object : m.asObject ≠ none
  method : m.get "method" ≠ none
  notNull : id.isNull = false
  id : m.get "id" = some id

structure IsNotification (m : Json) : Prop where
  version : hasVersion m
  id : m.get "id" = none

/-- What a peer answers to a request. -/
structure IsResponse (m : Json) : Prop where
  version : hasVersion m
  method : m.get "method" = none
  id : m.get "id" ≠ none
  content : m.get "result" ≠ none ∨ m.get "error" ≠ none

inductive Valid (m : Json) : Prop
  | request (id : Json) (hversion : hasVersion m) (hmethod : textMethod m ≠ none) (hid : IsRequest m id)
  | notification (h : IsNotification m)
  | response (h : IsResponse m)

/-- Of the protocol's version and with an identifier, but without a method that is a text, and no response. -/
structure Silenced (m : Json) : Prop where
  version : hasVersion m
  method : textMethod m = none
  id : m.get "id" ≠ none
  response : ¬IsResponse m

/-- What a frame holds. -/
inductive Reading
  | blank
  | broken
  | message (m : Json)

def Host.reading (h : Host) (f : McpFrame) : Reading :=
  match f.text with
  | none => .broken
  | some line =>
    if (trim line).isEmpty then .blank
    else
      match h.fromStr line with
      | .ok m => .message m
      | .error _ => .broken

def Reply.id : Reply → Json
  | .success id _ => id
  | .error id _ _ => id

def IsError (reply : Option Reply) : Prop := ∃ id code text, reply = some (.error id code text)

/-- A request is answered with its identifier, a notification is not answered, and what is no message is answered with
an error. A blank frame holds nothing. -/
def Meets : Reading → Option Reply → Prop
  | .blank, reply => reply = none
  | .broken, reply => IsError reply
  | .message m, reply =>
    (∀ id, IsRequest m id → ∃ r, reply = some r ∧ r.id = id) ∧ (IsNotification m → reply = none) ∧
      (¬Valid m → IsError reply)

/-- The tools, or the result of one. -/
def Reply.ofTools : Reply → Bool
  | .success _ (.tools _) | .success _ (.called _) => true
  | _ => false

/-- A tool is listed or called. -/
def LoopTurn.UsesTools (t : LoopTurn) : Prop := t.asked ≠ [] ∨ ∃ r, t.reply = some r ∧ r.ofTools = true

structure Initializes (m : Json) : Prop extends IsNotification m where
  method : textMethod m = some "notifications/initialized"

/-! ## One message -/

section Message

variable {E : Type} {encodedLength : Json → Nat} {allowControl initialized : Bool}
  {peer : Nat → ControlRequest → Except String ControlResponse × E} {n : Nat}

theorem object_of_get {key : String} {v : Json} (h : m.get key = some v) : ∃ entries, m.asObject = some entries := by
  cases m with
  | object entries => exact ⟨entries, rfl⟩
  | _ => cases h

theorem object_of_version (h : hasVersion m) : ∃ entries, m.asObject = some entries := by
  obtain ⟨v, hv, -⟩ := Option.bind_eq_some_iff.1 h
  exact object_of_get hv

/-- Which of its ends the handler of a message comes to. -/
inductive Handled (initialized : Bool) (m : Json) : Option Reply × Bool → Prop
  | invalid (code : Int) (text : String) (h : ¬hasVersion m) :
    Handled initialized m (some (.error ((m.get "id").getD .null) code text), initialized)
  | ignored (hversion : hasVersion m) (h : textMethod m = none) : Handled initialized m (none, initialized)
  | notified (method : String) (h : IsNotification m) (hmethod : textMethod m = some method) :
    Handled initialized m (none, initialized || method == "notifications/initialized")
  | unnamed (id : Json) (code : Int) (text : String) (hmethod : textMethod m ≠ none) (hid : m.get "id" = some id)
    (hnull : id.isNull = true) : Handled initialized m (some (.error id code text), initialized)
  | answered (id : Json) (r : Reply) (hversion : hasVersion m) (hmethod : textMethod m ≠ none)
    (hid : m.get "id" = some id)
    (hnull : id.isNull = false) (hr : r.id = id)
    (htools : r.ofTools = true → initialized = true) : Handled initialized m (some r, initialized)

theorem handled (encodedLength : Json → Nat) (allowControl initialized : Bool) (m : Json) :
    Handled initialized m ((handleMessage encodedLength allowControl initialized m).run peer n).1 := by
  unfold handleMessage
  dsimp only
  cases hobject : m.asObject with
  | none =>
    have hnone : m.get "id" = none := by
      cases hid : m.get "id" with
      | none => rfl
      | some id =>
        obtain ⟨entries, hentries⟩ := object_of_get hid
        rw [hobject] at hentries
        cases hentries
    have hversion : ¬hasVersion m := fun hversion => by
      obtain ⟨entries, hentries⟩ := object_of_version hversion
      rw [hobject] at hentries
      cases hentries
    have hinvalid : Handled initialized m (some (.error ((m.get "id").getD .null) (-32600) "Invalid Request"),
      initialized) :=
      .invalid (-32600) "Invalid Request" hversion
    rw [hnone] at hinvalid
    exact hinvalid
  | some entries =>
    dsimp only
    by_cases hversion : (m.get "jsonrpc").bind Json.asStr = some "2.0"
    · rw [if_neg (not_not_intro hversion)]
      cases hmethod : (m.get "method").bind Json.asStr with
      | none => exact .ignored hversion hmethod
      | some method =>
        cases hid : m.get "id" with
        | none => exact .notified method ⟨hversion, hid⟩ hmethod
        | some id =>
          dsimp only
          have hsome : textMethod m ≠ none := by
            rw [textMethod, hmethod]
            exact nofun
          by_cases hnull : id.isNull = true
          · rw [if_pos hnull]
            exact .unnamed id _ _ hsome hid hnull
          · rw [if_neg hnull]
            have hanswered (r : Reply) (hr : r.id = id) (htools : r.ofTools = true → initialized = true) :
                Handled initialized m (some r, initialized) :=
              .answered id r hversion hsome hid (Bool.not_eq_true _ ▸ hnull) hr htools
            split
            · exact hanswered _ rfl nofun
            · split
              · exact hanswered _ rfl nofun
              · split
                next hlist => exact hanswered _ rfl fun _ => (Bool.and_eq_true_iff.1 hlist).2
                next =>
                  split
                  next hcall =>
                    have hinitialized := (Bool.and_eq_true_iff.1 hcall).2
                    rw [Dialogue.result_map]
                    split
                    · exact hanswered _ rfl fun _ => hinitialized
                    · exact hanswered _ rfl fun _ => hinitialized
                  next => split <;> exact hanswered _ rfl nofun
    · rw [if_pos hversion]
      exact .invalid _ _ hversion

/-- Only a valid message behind the notification sends requests. -/
theorem valid_of_log (hlog : ((handleMessage encodedLength allowControl initialized m).run peer n).2 ≠ []) :
    initialized = true ∧ Valid m := by
  cases hcall : callParams initialized m with
  | none =>
    have hidle : ∃ r, handleMessage encodedLength allowControl initialized m = .done r := handleMessage_idle hcall
    obtain ⟨r, hr⟩ := hidle
    rw [hr] at hlog
    exact absurd rfl hlog
  | some params =>
    unfold callParams at hcall
    split at hcall
    next hall =>
      obtain ⟨hversion, hmethod, hid, hinitialized⟩ := hall
      obtain ⟨id, hid, hnull⟩ := (Option.any_eq_true _ _).1 hid
      obtain ⟨entries, hobject⟩ := object_of_version hversion
      have hsome : textMethod m ≠ none := by
        rw [textMethod, hmethod]
        exact nofun
      refine ⟨hinitialized, .request id hversion hsome ⟨by rw [hobject]; exact nofun,
        fun hnone => ?_, by simpa using hnull, hid⟩⟩
      rw [textMethod, hnone] at hsome
      exact hsome rfl
    next => cases hcall

theorem method_of_text (h : textMethod m ≠ none) : m.get "method" ≠ none := by
  intro hnone
  rw [textMethod, hnone] at h
  exact h rfl

variable {r : Option Reply × Bool}

theorem meets_of_handled (h : Handled initialized m r) (hheard : ¬Silenced m) : Meets (.message m) r.1 := by
  cases h with
  | invalid code text hversion =>
    refine ⟨fun id hid => ⟨_, rfl, ?_⟩, fun hnotification => absurd hnotification.version hversion,
      fun _ => ⟨_, _, _, rfl⟩⟩
    rw [hid.id]
    rfl
  | ignored hversion hmethod =>
    refine ⟨fun id hid => ?_, fun _ => rfl, fun hinvalid => ?_⟩
    · exact absurd ⟨hversion, hmethod, by rw [hid.id]; exact nofun, fun hresponse => hid.method hresponse.method⟩ hheard
    · have hresponse : ¬IsResponse m := fun hresponse => hinvalid (.response hresponse)
      have hid : m.get "id" ≠ none := fun hid => hinvalid (.notification ⟨hversion, hid⟩)
      exact absurd ⟨hversion, hmethod, hid, hresponse⟩ hheard
  | notified method hnotification hmethod =>
    refine ⟨fun id hid => ?_, fun _ => rfl, fun hinvalid => absurd (.notification hnotification) hinvalid⟩
    have hnone := hnotification.id
    rw [hid.id] at hnone
    cases hnone
  | unnamed id code text hmethod hid hnull =>
    refine ⟨fun id' hid' => ?_, fun hnotification => ?_, fun _ => ⟨_, _, _, rfl⟩⟩
    · have heq := hid'.id
      rw [hid] at heq
      obtain rfl := Option.some.inj heq
      rw [hid'.notNull] at hnull
      cases hnull
    · have hnone := hnotification.id
      rw [hid] at hnone
      cases hnone
  | answered id reply hversion hmethod hid hnull hreply htools =>
    obtain ⟨entries, hobject⟩ := object_of_version hversion
    have hrequest : IsRequest m id := ⟨by rw [hobject]; exact nofun, method_of_text hmethod, hnull, hid⟩
    refine ⟨fun id' hid' => ?_, fun hnotification => ?_,
      fun hinvalid => absurd (.request id hversion hmethod hrequest) hinvalid⟩
    · have heq := hid'.id
      rw [hid] at heq
      exact ⟨reply, rfl, hreply.trans (Option.some.inj heq)⟩
    · have hnone := hnotification.id
      rw [hid] at hnone
      cases hnone

theorem not_valid_of_silenced (h : Silenced m) : ¬Valid m := by
  rintro (⟨id, -, hmethod, -⟩ | hnotification | hresponse)
  · exact hmethod h.method
  · exact h.id hnotification.id
  · exact h.response hresponse

theorem reply_of_silenced (h : Handled initialized m r) (hsilenced : Silenced m) : r.1 = none := by
  cases h with
  | invalid code text hversion => exact absurd hsilenced.version hversion
  | ignored => rfl
  | notified => rfl
  | unnamed id code text hmethod => exact absurd hsilenced.method hmethod
  | answered id reply hversion hmethod => exact absurd hsilenced.method hmethod

theorem initialized_of_handled (h : Handled initialized m r) (hr : r.2 = true) :
    initialized = true ∨ Initializes m := by
  cases h with
  | notified method hnotification hmethod =>
    obtain hr | hr := (Bool.or_eq_true_iff).1 hr
    · exact .inl hr
    · exact .inr ⟨hnotification, by rw [hmethod, eq_of_beq hr]⟩
  | _ => exact .inl hr

theorem unchanged_of_handled (h : Handled initialized m r) (hinvalid : ¬Valid m) : r.2 = initialized := by
  cases h with
  | notified method hnotification => exact absurd (.notification hnotification) hinvalid
  | _ => rfl

theorem ofTools_of_handled (h : Handled initialized m r) {reply : Reply} (hreply : r.1 = some reply)
    (htools : reply.ofTools = true) : initialized = true := by
  cases h with
  | answered id reply' hversion hmethod hid hnull hr htools' =>
    obtain rfl := Option.some.inj hreply
    exact htools' htools
  | ignored => cases hreply
  | notified => cases hreply
  | invalid => obtain rfl := Option.some.inj hreply; cases htools
  | unnamed => obtain rfl := Option.some.inj hreply; cases htools

end Message

/-! ## One turn -/

/-- What the turn of a frame is, by what the frame holds. -/
theorem run_cases (htext : f.text = some line) :
    (h.reading f = .blank ∧ h.run s line = ((none, s.initialized), [])) ∨
    (h.reading f = .broken ∧ ∃ code text, h.run s line = ((some (.error .null code text), s.initialized), [])) ∨
    ∃ m, h.reading f = .message m ∧ Handled s.initialized m (h.run s line).1 ∧
      ((h.run s line).2 ≠ [] → s.initialized = true ∧ Valid m) := by
  unfold Host.reading Host.run Host.respond
  rw [htext]
  dsimp only
  by_cases hblank : (trim line).isEmpty = true
  · left
    rw [if_pos hblank, if_pos hblank]
    exact ⟨rfl, rfl⟩
  · right
    rw [if_neg hblank, if_neg hblank]
    cases h.fromStr line with
    | error e => exact .inl ⟨rfl, _, _, rfl⟩
    | ok m => exact .inr ⟨m, rfl, handled _ _ _ _, valid_of_log⟩

theorem meets_turn (htext : f.text = some line) :
    Meets (h.reading f) (h.turn s line).reply ↔ ∀ m, h.reading f = .message m → ¬Silenced m := by
  rw [turn_reply]
  obtain ⟨hreading, hrun⟩ | ⟨hreading, code, text, hrun⟩ | ⟨m, hreading, hhandled, -⟩ :=
    run_cases (h := h) (s := s) htext
  · rw [hreading, hrun]
    exact iff_of_true rfl fun _ heq => nomatch heq
  · rw [hreading, hrun]
    exact iff_of_true ⟨.null, code, text, rfl⟩ fun _ heq => nomatch heq
  · rw [hreading]
    constructor
    · intro hmeets m' heq hsilenced
      obtain rfl := Reading.message.inj heq
      obtain ⟨id, code, text, herror⟩ := hmeets.2.2 (not_valid_of_silenced hsilenced)
      rw [reply_of_silenced hhandled hsilenced] at herror
      cases herror
    · exact fun hheard => meets_of_handled hhandled (hheard m rfl)

/-- What is no valid message leaves the server as it was. -/
theorem next_of_invalid (htext : f.text = some line) (hinvalid : ∀ m, h.reading f = .message m → ¬Valid m) :
    h.next s line = s := by
  have hrun : (h.run s line).1.2 = s.initialized ∧ (h.run s line).2 = [] := by
    obtain ⟨hreading, hrun⟩ | ⟨hreading, code, text, hrun⟩ | ⟨m, hreading, hhandled, hlog⟩ :=
      run_cases (h := h) (s := s) htext
    · rw [hrun]
      exact ⟨rfl, rfl⟩
    · rw [hrun]
      exact ⟨rfl, rfl⟩
    · have hnot := hinvalid m hreading
      refine ⟨unchanged_of_handled hhandled hnot, ?_⟩
      by_contra hasked
      exact hnot (hlog hasked).2
  unfold Host.next
  rw [hrun.1, hrun.2]
  rfl

theorem initialized_next (htext : f.text = some line) (hinitialized : (h.next s line).initialized = true) :
    s.initialized = true ∨ ∃ m, h.reading f = .message m ∧ Initializes m := by
  rw [next_initialized] at hinitialized
  obtain ⟨hreading, hrun⟩ | ⟨hreading, code, text, hrun⟩ | ⟨m, hreading, hhandled, -⟩ :=
    run_cases (h := h) (s := s) htext
  · rw [hrun] at hinitialized
    exact .inl hinitialized
  · rw [hrun] at hinitialized
    exact .inl hinitialized
  · exact (initialized_of_handled hhandled hinitialized).imp id fun hinit => ⟨m, hreading, hinit⟩

theorem initialized_of_tools (htext : f.text = some line) (htools : (h.turn s line).UsesTools) :
    s.initialized = true := by
  unfold LoopTurn.UsesTools Host.turn at htools
  dsimp only at htools
  obtain ⟨hreading, hrun⟩ | ⟨hreading, code, text, hrun⟩ | ⟨m, hreading, hhandled, hlog⟩ :=
    run_cases (h := h) (s := s) htext
  · rw [hrun] at htools
    obtain hasked | ⟨reply, hreply, -⟩ := htools
    · exact absurd rfl hasked
    · cases hreply
  · rw [hrun] at htools
    obtain hasked | ⟨reply, hreply, hof⟩ := htools
    · exact absurd rfl hasked
    · obtain rfl := Option.some.inj hreply
      cases hof
  · obtain hasked | ⟨reply, hreply, hof⟩ := htools
    · exact (hlog fun hnil => hasked (congrArg (List.map Prod.fst) hnil)).1
    · exact ofTools_of_handled hhandled hreply hof

/-! ## Any frames -/

def stateAfter (h : Host) : LoopState → List McpFrame → LoopState
  | s, [] => s
  | s, f :: frames => stateAfter h (f.text.elim s (h.next s)) frames

theorem turns_append (hbefore : ∀ f ∈ before, f.text ≠ none) :
    turns h s (before ++ after) = turns h s before ++ turns h (stateAfter h s before) after := by
  induction before generalizing s with
  | nil => rfl
  | cons f before ih =>
    have htail := ih (s := f.text.elim s (h.next s)) fun g hg => hbefore g (List.mem_cons_of_mem _ hg)
    rw [List.cons_append, turns, turns, stateAfter]
    cases htext : f.text with
    | none => exact absurd htext (hbefore f List.mem_cons_self)
    | some line =>
      rw [htext] at htail
      exact congrArg _ htail

theorem length_turns (hframes : ∀ f ∈ frames, f.text ≠ none) : (turns h s frames).length = frames.length := by
  induction frames generalizing s with
  | nil => rfl
  | cons f frames ih =>
    rw [turns]
    cases htext : f.text with
    | none => exact absurd htext (hframes f List.mem_cons_self)
    | some line => exact congrArg (· + 1) (ih fun g hg => hframes g (List.mem_cons_of_mem _ hg))

/-- A tool is used behind the notification only. -/
theorem initialized_before {t : LoopTurn} (ht : (turns h s (before ++ f :: after))[before.length]? = some t)
    (htools : t.UsesTools) :
    s.initialized = true ∨ ∃ g ∈ before, ∃ m, h.reading g = .message m ∧ Initializes m := by
  induction before generalizing s with
  | nil =>
    rw [List.nil_append, turns] at ht
    cases htext : f.text with
    | none =>
      rw [htext] at ht
      cases ht
    | some line =>
      rw [htext] at ht
      obtain rfl := Option.some.inj ht
      exact .inl (initialized_of_tools htext htools)
  | cons g before ih =>
    rw [List.cons_append, turns] at ht
    cases htext : g.text with
    | none =>
      rw [htext] at ht
      cases ht
    | some line =>
      rw [htext] at ht
      obtain hinitialized | ⟨g', hg', hm⟩ := ih ht
      · exact (initialized_next htext hinitialized).imp id fun hm => ⟨g, List.mem_cons_self, hm⟩
      · exact .inr ⟨g', List.mem_cons_of_mem _ hg', hm⟩

/-- A frame that is text, and no message that gets no answer. -/
def Heard (h : Host) (f : McpFrame) : Prop := f.text ≠ none ∧ ∀ m, h.reading f = .message m → ¬Silenced m

def Answered (h : Host) (frames : List McpFrame) (ts : List LoopTurn) : Prop :=
  List.Forall₂ (fun f t => Meets (h.reading f) t.reply) frames ts

theorem answered_turns : Answered h frames (turns h s frames) ↔ ∀ f ∈ frames, Heard h f := by
  unfold Answered
  induction frames generalizing s with
  | nil => exact ⟨fun _ => nofun, fun _ => .nil⟩
  | cons f frames ih =>
    rw [turns, List.forall_mem_cons]
    cases htext : f.text with
    | none => exact ⟨nofun, fun hheard => absurd htext hheard.1.1⟩
    | some line =>
      rw [List.forall₂_cons, meets_turn htext, ih, Heard, htext]
      exact and_congr_left fun _ => ⟨fun hheard => ⟨nofun, hheard⟩, fun hheard => hheard.2⟩

/-- Every frame gets the answer it should, in order; no tool is used before the notification; and a frame that is no
valid message changes nothing of the other turns. -/
structure Served (h : Host) (frames : List McpFrame) : Prop where
  answered : Answered h frames (mainLoop h {} (stream frames))
  initialized : ∀ before f after t, frames = before ++ f :: after →
    (mainLoop h {} (stream frames))[before.length]? = some t → t.UsesTools →
      ∃ g ∈ before, ∃ m, h.reading g = .message m ∧ Initializes m
  apart : ∀ before f after, frames = before ++ f :: after → (∀ m, h.reading f = .message m → ¬Valid m) →
    ∃ front t back, front.length = before.length ∧ mainLoop h {} (stream frames) = front ++ t :: back ∧
      mainLoop h {} (stream (before ++ after)) = front ++ back

theorem apart_turns (hheard : ∀ g ∈ before ++ f :: after, g.text ≠ none)
    (hinvalid : ∀ m, h.reading f = .message m → ¬Valid m) :
    ∃ front t back, front.length = before.length ∧ turns h s (before ++ f :: after) = front ++ t :: back ∧
      turns h s (before ++ after) = front ++ back := by
  have hbefore : ∀ g ∈ before, g.text ≠ none := fun g hg => hheard g (List.mem_append_left _ hg)
  obtain ⟨line, htext⟩ := Option.ne_none_iff_exists'.1 (hheard f (by simp))
  refine ⟨turns h s before, h.turn (stateAfter h s before) line, turns h (stateAfter h s before) after,
    length_turns hbefore,
    ?_, turns_append hbefore⟩
  rw [turns_append hbefore, turns, htext]
  dsimp only
  rw [next_of_invalid htext hinvalid]

/-- The promises are kept of the frames of which every one is text, and none is a message of the protocol's version
with an identifier that is neither a response nor has a method that is text. -/
theorem served_iff (h : Host) (frames : List McpFrame) : Served h frames ↔ ∀ f ∈ frames, Heard h f := by
  constructor
  · intro hserved
    have hanswered := hserved.answered
    rw [mainLoop_stream] at hanswered
    exact answered_turns.1 hanswered
  · intro hheard
    refine ⟨?_, fun before f after t heq ht htools => ?_, fun before f after heq hinvalid => ?_⟩
    · rw [mainLoop_stream]
      exact answered_turns.2 hheard
    · subst heq
      rw [mainLoop_stream] at ht
      exact (initialized_before ht htools).resolve_left nofun
    · subst heq
      rw [mainLoop_stream, mainLoop_stream]
      exact apart_turns (fun g hg => (hheard g hg).1) hinvalid

/-! ## A request without an answer -/

def numericText : String := "\x7b\"jsonrpc\":\"2.0\",\"id\":1,\"method\":5\x7d"

/-- A request whose method is a number. -/
def numericMethod : Json :=
  .object [("jsonrpc", .string "2.0"), ("id", .number (.unsigned 1)), ("method", .number (.unsigned 5))]

def numericFrame : McpFrame := ⟨utf8 numericText, by decide, by decide⟩

def numericHost : Host where
  fromStr line := if line = numericText then .ok numericMethod else .error "expected value at line 1 column 1"
  encodedLength _ := 2
  allowControl := false
  peer _ _ := .error "no such file"

theorem numericFrame_text : numericFrame.text = some numericText := by decide +kernel

theorem numericFrame_reading : numericHost.reading numericFrame = .message numericMethod := by
  have hblank : (trim numericText).isEmpty = false := by decide
  unfold Host.reading
  rw [numericFrame_text]
  dsimp only
  rw [hblank]
  rfl

/-- The request is not answered. -/
theorem numericMethod_unanswered : IsRequest numericMethod (.number (.unsigned 1)) ∧
    (mainLoop numericHost {} (stream [numericFrame])).filterMap LoopTurn.reply = [] ∧
      ¬Served numericHost [numericFrame] := by
  have hsilenced : Silenced numericMethod := ⟨rfl, rfl, nofun, fun hresponse => nomatch hresponse.method⟩
  refine ⟨⟨nofun, nofun, rfl, rfl⟩, ?_, fun hserved => ?_⟩
  · have hreply : (numericHost.turn {} numericText).reply = none := by
      obtain ⟨hreading, -⟩ | ⟨hreading, -⟩ | ⟨m, hreading, hhandled, -⟩ :=
        run_cases (h := numericHost) (s := {}) numericFrame_text
      · rw [numericFrame_reading] at hreading
        cases hreading
      · rw [numericFrame_reading] at hreading
        cases hreading
      · rw [numericFrame_reading] at hreading
        obtain rfl := Reading.message.inj hreading
        exact reply_of_silenced hhandled hsilenced
    rw [mainLoop_stream, turns, numericFrame_text]
    dsimp only
    rw [turns, List.filterMap_cons_none hreply]
    rfl
  · have hanswered := hserved.answered
    rw [mainLoop_stream] at hanswered
    exact (answered_turns.1 hanswered numericFrame List.mem_cons_self).2 _ numericFrame_reading hsilenced

end CocoaWay.Control
