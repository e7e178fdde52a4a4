import CocoaWay.Control.Api
import CocoaWay.Lib.JsonText
import CocoaWay.Lib.Split
import Mathlib.Algebra.Order.BigOperators.Group.List
import Mathlib.Algebra.Order.Group.Nat

/-!
# Frames of the control socket

A request and its response are each one line, read with a limit and a deadline.

* `Turn`, `readFrameBefore` : what polling and reading the socket give, and the loop over it;
* `received`, `ended`, `frameOf` : the bytes without their chunks, and the frame they make up;
* `Codec`, `sendRequest`, `handleConnectionWith` : the two ends of a connection;
* `readFrameBefore_eq` : the loop over any chunks; `frames_agree` : each end takes what the other sends.
-/

namespace CocoaWay.Control
open Lib Launch JsonText

/-! ## Reading a frame -/

/-- `MAX_REQUEST_BYTES`. -/
def maxRequestBytes : Nat := 64 * 1024

/-- `MAX_RESPONSE_BYTES`. -/
def maxResponseBytes : Nat := 4 * 1024 * 1024

/-- One turn of the loop: no bytes where the stream has ended; a read that would block or was interrupted; or a poll
or a read that failed, at the deadline too. -/
inductive Turn (ε : Type)
  | bytes (bytes : List UInt8)
  | again
  | failed (e : ε)

/-- How reading fails. -/
inductive FrameError (ε : Type)
  | io (e : ε)
  | unexpectedEof
  | invalidData

/-- The loop of `read_frame_before`; there is no result while the peer says nothing more. -/
def readFrameBefore {ε : Type} (limit : Nat) (frame : List UInt8) :
    List (Turn ε) → Option (Except (FrameError ε) (List UInt8))
  | [] => none
  | .failed e :: _ => some (.error (.io e))
  | .again :: turns => readFrameBefore limit frame turns
  | .bytes [] :: _ => some (if frame.isEmpty then .error .unexpectedEof else .ok frame)
  | .bytes (b :: bs) :: turns =>
    let newline := (b :: bs).findIdx? (· == lineFeed)
    let stop := newline.getD (b :: bs).length
    if limit - frame.length < stop then some (.error .invalidData)
    else
      let frame := frame ++ (b :: bs).take stop
      if newline.isSome then some (.ok frame) else readFrameBefore limit frame turns

/-- The bytes of the stream, up to its end or a failure. -/
def received {ε : Type} : List (Turn ε) → List UInt8
  | [] | .failed _ :: _ | .bytes [] :: _ => []
  | .again :: turns => received turns
  | .bytes (b :: bs) :: turns => (b :: bs) ++ received turns

/-- What comes behind the bytes: the end of the stream, a failure, or nothing so far. -/
def ended {ε : Type} : List (Turn ε) → Option (Except ε Unit)
  | [] => none
  | .failed e :: _ => some (.error e)
  | .bytes [] :: _ => some (.ok ())
  | .again :: turns | .bytes (_ :: _) :: turns => ended turns

/-- The bytes before the first line break. -/
def firstLine (stream : List UInt8) : List UInt8 := stream.takeWhile (· != lineFeed)

/-- The frame of a stream that ends so. -/
def frameOf {ε : Type} (limit : Nat) (stream : List UInt8) (ending : Option (Except ε Unit)) :
    Option (Except (FrameError ε) (List UInt8)) :=
  if limit < (firstLine stream).length then some (.error .invalidData)
  else if lineFeed ∈ stream then some (.ok (firstLine stream))
  else
    match ending with
    | none => none
    | some (.error e) => some (.error (.io e))
    | some (.ok ()) => some (if stream.isEmpty then .error .unexpectedEof else .ok stream)

section Reading

variable {ε : Type} {limit : Nat} {frame stream chunk : List UInt8} {ending : Option (Except ε Unit)}

theorem firstLine_append (h : lineFeed ∉ frame) (stream : List UInt8) :
    firstLine (frame ++ stream) = frame ++ firstLine stream := by
  refine List.takeWhile_append_of_pos fun b hb => ?_
  rw [bne_iff_ne]
  rintro rfl
  exact h hb

theorem firstLine_of_not_mem (h : lineFeed ∉ stream) : firstLine stream = stream := by
  have happend := firstLine_append h []
  rwa [List.append_nil, firstLine, firstLine, List.takeWhile_nil, List.append_nil] at happend

theorem firstLine_of_mem (h : lineFeed ∈ chunk) (stream : List UInt8) :
    firstLine (chunk ++ stream) = firstLine chunk := by
  obtain ⟨front, back, rfl, hfront⟩ := List.eq_append_cons_of_mem h
  rw [List.append_assoc, firstLine_append hfront, firstLine_append hfront, List.cons_append]
  rfl

/-- The break of a chunk, if it has one, is behind its first line. -/
theorem findIdx?_lineFeed (chunk : List UInt8) : chunk.findIdx? (· == lineFeed) =
    if lineFeed ∈ chunk then some (firstLine chunk).length else none := by
  by_cases hmem : lineFeed ∈ chunk
  · rw [if_pos hmem]
    obtain ⟨front, back, rfl, hfront⟩ := List.eq_append_cons_of_mem hmem
    have hline : firstLine (front ++ lineFeed :: back) = front := by
      rw [firstLine_append hfront]
      exact List.append_nil front
    rw [findIdx?_append_cons hfront, hline]
  · rw [if_neg hmem, findIdx?_eq_none.2 hmem]

theorem take_firstLine (chunk : List UInt8) : chunk.take (firstLine chunk).length = firstLine chunk :=
  (List.prefix_iff_eq_take.1 (List.takeWhile_prefix _)).symm

/-- A frame without a break goes on with what comes behind it. -/
theorem frameOf_open (h : lineFeed ∉ frame) (hle : frame.length ≤ limit) : frameOf limit frame ending =
    match ending with
    | none => none
    | some (.error e) => some (.error (.io e))
    | some (.ok ()) => some (if frame.isEmpty then .error .unexpectedEof else .ok frame) := by
  unfold frameOf
  rw [firstLine_of_not_mem h, if_neg (Nat.not_lt.2 hle), if_neg h]

/-- The loop, with a frame that is not complete. -/
theorem readFrameBefore_frame (turns : List (Turn ε)) : ∀ frame : List UInt8, lineFeed ∉ frame → frame.length ≤ limit →
    readFrameBefore limit frame turns = frameOf limit (frame ++ received turns) (ended turns) := by
  induction turns with
  | nil =>
    intro frame hframe hle
    rw [received, ended, List.append_nil, frameOf_open hframe hle]
    rfl
  | cons turn turns ih =>
    intro frame hframe hle
    match turn with
    | .failed e =>
      rw [received, ended, List.append_nil, frameOf_open hframe hle]
      rfl
    | .again => exact ih frame hframe hle
    | .bytes [] =>
      rw [received, ended, List.append_nil, frameOf_open hframe hle]
      rfl
    | .bytes (b :: bs) =>
      have hidx := findIdx?_lineFeed (b :: bs)
      rw [readFrameBefore, received, ended]
      generalize b :: bs = chunk at *
      dsimp only
      by_cases hmem : lineFeed ∈ chunk
      · -- the frame ends in this chunk
        have hline : firstLine (frame ++ (chunk ++ received turns)) = frame ++ firstLine chunk := by
          rw [firstLine_append hframe, firstLine_of_mem hmem]
        rw [if_pos hmem] at hidx
        unfold frameOf
        rw [hidx, Option.getD_some, take_firstLine, hline, List.length_append]
        by_cases hexcess : limit - frame.length < (firstLine chunk).length
        · rw [if_pos hexcess, if_pos (by omega)]
        · have hin : lineFeed ∈ frame ++ (chunk ++ received turns) :=
            List.mem_append_right _ (List.mem_append_left _ hmem)
          have hle' : ¬ limit < frame.length + (firstLine chunk).length := by omega
          rw [if_neg hexcess, if_neg hle', if_pos hin]
          rfl
      · rw [if_neg hmem] at hidx
        rw [hidx, Option.getD_none, List.take_length]
        by_cases hexcess : limit - frame.length < chunk.length
        · unfold frameOf
          rw [if_pos hexcess, if_pos]
          rw [firstLine_append hframe, firstLine_append hmem, List.length_append, List.length_append]
          omega
        · have hopen : lineFeed ∉ frame ++ chunk := by
            rw [List.mem_append, not_or]
            exact ⟨hframe, hmem⟩
          rw [if_neg hexcess, ← List.append_assoc]
          exact ih (frame ++ chunk) hopen (by rw [List.length_append]; omega)

/-- However the stream is split over reads, the frame is the one it makes up. -/
theorem readFrameBefore_eq (limit : Nat) (turns : List (Turn ε)) :
    readFrameBefore limit [] turns = frameOf limit (received turns) (ended turns) :=
  readFrameBefore_frame turns [] List.not_mem_nil (Nat.zero_le limit)

/-- What is behind the break of a line does not matter. -/
theorem frameOf_line {line : List UInt8} (hline : lineFeed ∉ line) (hle : line.length ≤ limit) (rest : List UInt8) :
    frameOf limit (line ++ lineFeed :: rest) ending = some (.ok line) := by
  have hfirst : firstLine (line ++ lineFeed :: rest) = line := by
    rw [firstLine_append hline]
    exact List.append_nil line
  unfold frameOf
  rw [hfirst, if_neg (Nat.not_lt.2 hle), if_pos (List.mem_append_right _ List.mem_cons_self)]

theorem frameOf_invalidData : frameOf limit stream ending = some (.error .invalidData) ↔
    limit < (firstLine stream).length := by
  unfold frameOf
  split
  · next h => exact ⟨fun _ => h, fun _ => rfl⟩
  · next h =>
    refine ⟨fun he => ?_, fun hlt => absurd hlt h⟩
    split at he
    · cases he
    · split at he
      · cases he
      · cases he
      · split at he <;> cases he

theorem length_le_of_frameOf {line : List UInt8} (h : frameOf limit stream ending = some (.ok line)) :
    line.length ≤ limit := by
  unfold frameOf at h
  split at h
  · cases h
  · next hle =>
    have hle := Nat.le_of_not_lt hle
    split at h
    · cases h
      exact hle
    · next hopen =>
      rw [firstLine_of_not_mem hopen] at hle
      split at h
      · cases h
      · cases h
      · split at h
        · cases h
        · cases h
          exact hle

end Reading

/-! ## The two ends -/

/-- What the code uses of its JSON library besides the compact text of values: the text of a decimal, and a request from
its bytes. A string has no more bytes than the text it is read from. -/
structure Codec where
  decimal : String → List UInt8
  decimal_line : ∀ text, lineFeed ∉ decimal text
  fromSlice : List UInt8 → Except String ControlRequest
  fromSlice_command : ∀ line request, fromSlice line = .ok request → utf8Length request.command ≤ line.length

def ControlRequest.toJson (request : ControlRequest) : Json :=
  .object [("command", .string request.command), ("session", (request.session.map Json.string).getD .null),
    ("limit", .number (.unsigned request.limit))]

def ControlResponse.toJson (response : ControlResponse) : Json :=
  .object ([("protocol", .number (.unsigned 1)), ("ok", .bool response.ok), ("command", .string response.command),
    ("data", response.data)] ++ (response.error.map fun error => ("error", Json.string error)).toList)

/-- What the client writes for a request, if it is willing to send it. -/
def sendRequest (codec : Codec) (request : ControlRequest) : Option (List UInt8) :=
  let encoded := toVec codec.decimal request.toJson
  if maxRequestBytes < encoded.length then none else some (encoded ++ [lineFeed])

/-- The text of a response, or of one that fits in its place. -/
def encodeResponse (codec : Codec) (response : ControlResponse) : List UInt8 :=
  let encoded := toVec codec.decimal response.toJson
  if maxResponseBytes < encoded.length then
    toVec codec.decimal (ControlResponse.failure response.command
      "control response exceeds the 4 MiB frame limit").toJson
  else encoded

/-- What the server answers to a frame; `late` when the collection deadline has passed. -/
def handleConnectionWith (codec : Codec) (collect : ControlRequest → ControlResponse) (late : Bool)
    (frame : Except String (List UInt8)) : List UInt8 :=
  let request : Except String ControlRequest := match frame with
    | .error error => .error s!"failed to read control request: {error}"
    | .ok line =>
      match codec.fromSlice line with
      | .error error => .error s!"invalid control request: {error}"
      | .ok request => .ok request
  let response : ControlResponse := match request with
    | .ok request =>
      if late then .failure "invalid" "control request deadline exceeded" else collect request
    | .error error => .failure "invalid" error
  encodeResponse codec response ++ [lineFeed]

section Ends

variable {codec : Codec} {w : World} {request : ControlRequest} {response : ControlResponse} {ε : Type} {s : String}

theorem utf8Length_le_of_sublist {l l' : List Char} (h : l.Sublist l') :
    (l.map Char.utf8Size).sum ≤ (l'.map Char.utf8Size).sum :=
  (h.map Char.utf8Size).sum_le_sum fun _ _ => Nat.zero_le _

theorem utf8Length_trim_le (s : String) : utf8Length (trim s) ≤ utf8Length s := by
  unfold trim utf8Length
  rw [String.toList_ofList]
  apply utf8Length_le_of_sublist
  have hback := (List.dropWhile_sublist isWhitespace (l := (s.toList.dropWhile isWhitespace).reverse)).reverse
  rw [List.reverse_reverse] at hback
  exact hback.trans (List.dropWhile_sublist isWhitespace)

theorem utf8Size_ascii : ∀ n < 128, (Char.ofNat n).utf8Size = 1 := by decide

theorem utf8Size_toAsciiLowercase (c : Char) : (toAsciiLowercase c).utf8Size = c.utf8Size := by
  unfold toAsciiLowercase
  split
  · next h =>
    have hupper : c.utf8Size = 1 := by
      rw [← Char.ofNat_toNat c]
      exact utf8Size_ascii c.toNat (by omega)
    rw [hupper]
    exact utf8Size_ascii (c.toNat + 32) (by omega)
  · rfl

theorem utf8Length_asciiLowercase (s : String) : utf8Length (asciiLowercase s) = utf8Length s := by
  unfold asciiLowercase utf8Length
  rw [String.toList_ofList, List.map_map]
  exact congrArg List.sum (List.map_congr_left fun c _ => utf8Size_toAsciiLowercase c)

variable {command : String}

theorem submit_command {message : Message} {data : List (String × Json)} :
    (submit w command message data).1.command = command := by
  unfold submit
  split <;> rfl

theorem queueSessionCommand_command {selector : Option String} :
    (queueSessionCommand w command selector).1.command = command := by
  unfold queueSessionCommand
  split
  · split
    · rfl
    · exact submit_command
  · split
    · rfl
    · exact submit_command

theorem queueDisplayCommand_command {selector : Option String} :
    (queueDisplayCommand w command selector).1.command = command := by
  unfold queueDisplayCommand
  dsimp only
  split
  · rfl
  · split
    · exact submit_command
    · split
      · rfl
      · exact submit_command

theorem queuePanelCommand_command {page : Option String} : (queuePanelCommand w page).1.command = "open-panel" := by
  unfold queuePanelCommand
  dsimp only
  split
  · rfl
  · exact submit_command

/-- A response names the command of its request, in lower case. -/
theorem dispatch_command (w : World) (request : ControlRequest) :
    (dispatch w request).1.command = asciiLowercase (trim request.command) := by
  unfold dispatch
  dsimp only
  split
  · rfl
  · split
    · split <;> rfl
    · split
      · exact queueSessionCommand_command
      · split
        · exact queueDisplayCommand_command
        · split
          · next h => rw [queuePanelCommand_command, h]
          · rfl

/-- The answer in place of one that is too long grows with the command alone. -/
theorem length_failure_le (codec : Codec) (command : String) :
    (toVec codec.decimal (ControlResponse.failure command "control response exceeds the 4 MiB frame limit").toJson).length ≤
      6 * utf8Length command + 200 := by
  have hcommand := length_quoted_le command
  have herror : (quoted "control response exceeds the 4 MiB frame limit").length = 48 := by decide +kernel
  have hone : (numberText codec.decimal (.unsigned 1)).length = 1 := rfl
  unfold ControlResponse.failure ControlResponse.toJson
  have hkeys : (["protocol", "ok", "command", "data", "error"].map fun key => (quoted key).length) =
    [10, 4, 9, 6, 7] := by
    decide +kernel
  simp only [List.map_cons, List.map_nil, List.cons.injEq, and_true] at hkeys
  obtain ⟨hprotocol, hok, hname, hdata, hlast⟩ := hkeys
  have hwords : (utf8 "null").length = 4 ∧ (utf8 (toString false)).length = 5 := by decide +kernel
  simp only [Option.map_some, Option.toList_some, List.cons_append, List.nil_append, toVec, members, List.length_cons,
    List.length_append, List.length_nil, hone, hwords, hprotocol, hok, hname, hdata, hlast, herror]
  omega

/-- The text of a response is one line within the limit, if it names no long command. -/
theorem encodeResponse_line (codec : Codec) (h : utf8Length response.command ≤ maxRequestBytes) :
    lineFeed ∉ encodeResponse codec response ∧ (encodeResponse codec response).length ≤ maxResponseBytes := by
  unfold encodeResponse
  dsimp only
  split
  · have hlength := length_failure_le codec response.command
    refine ⟨lineFeed_not_mem_toVec codec.decimal_line _, hlength.trans ?_⟩
    unfold maxRequestBytes at h
    unfold maxResponseBytes
    omega
  · next hfits => exact ⟨lineFeed_not_mem_toVec codec.decimal_line _, Nat.le_of_not_lt hfits⟩

/-- What the server writes is one line within the limit. -/
theorem handleConnectionWith_line (codec : Codec) {collect : ControlRequest → ControlResponse} (late : Bool)
    {received : Except String (List UInt8)}
    (h : ∀ line request, received = .ok line → codec.fromSlice line = .ok request →
      utf8Length (collect request).command ≤ maxRequestBytes) :
    ∃ line, handleConnectionWith codec collect late received = line ++ [lineFeed] ∧ lineFeed ∉ line ∧
      line.length ≤ maxResponseBytes := by
  have hinvalid (error : String) :
      utf8Length (ControlResponse.failure "invalid" error).command ≤ maxRequestBytes := by
    change utf8Length "invalid" ≤ maxRequestBytes
    decide
  cases received with
  | error error => exact ⟨_, rfl, encodeResponse_line codec (hinvalid _)⟩
  | ok line =>
    unfold handleConnectionWith
    dsimp only
    cases hrequest : codec.fromSlice line with
    | error error => exact ⟨_, rfl, encodeResponse_line codec (hinvalid _)⟩
    | ok request =>
      cases late with
      | true => exact ⟨_, rfl, encodeResponse_line codec (hinvalid _)⟩
      | false => exact ⟨_, rfl, encodeResponse_line codec (h line request rfl hrequest)⟩

/-- The answer to a request that fits names a command that fits. -/
theorem utf8Length_dispatch_le {line : List UInt8} (h : codec.fromSlice line = .ok request) :
    utf8Length (dispatch w request).1.command ≤ line.length := by
  rw [dispatch_command, utf8Length_asciiLowercase]
  exact (utf8Length_trim_le request.command).trans (codec.fromSlice_command line request h)

end Ends

/-! ## Frames that agree -/

/-- Reading gives the bytes before the first break, or all of a stream that ends, whatever its chunks, and fails for
excess when these are more than the limit; what the client sends is a frame to the server, and what the server sends,
a frame to the client. -/
theorem frames_agree {ε : Type} (codec : Codec) (text : FrameError ε → String) :
    (∀ (limit : Nat) (turns : List (Turn ε)),
      readFrameBefore limit [] turns = frameOf limit (received turns) (ended turns) ∧
      (readFrameBefore limit [] turns = some (.error .invalidData) ↔ limit < (firstLine (received turns)).length)) ∧
    (∀ request sent, sendRequest codec request = some sent → ∃ line, sent = line ++ [lineFeed] ∧
      ∀ (turns : List (Turn ε)) (rest : List UInt8), received turns = sent ++ rest →
        readFrameBefore maxRequestBytes [] turns = some (.ok line)) ∧
    ∀ (w : World) (late : Bool) (turns : List (Turn ε)) (result : Except (FrameError ε) (List UInt8)),
      readFrameBefore maxRequestBytes [] turns = some result →
      ∃ line, handleConnectionWith codec (fun request => (dispatch w request).1) late (result.mapError text) =
          line ++ [lineFeed] ∧
        ∀ (back : List (Turn ε)) (rest : List UInt8), received back = line ++ [lineFeed] ++ rest →
          readFrameBefore maxResponseBytes [] back = some (.ok line) := by
  have hframe {limit : Nat} {line : List UInt8} (hline : lineFeed ∉ line) (hle : line.length ≤ limit)
      (turns : List (Turn ε)) (rest : List UInt8) (h : received turns = line ++ [lineFeed] ++ rest) :
      readFrameBefore limit [] turns = some (.ok line) := by
    rw [readFrameBefore_eq, h, List.append_assoc]
    exact frameOf_line hline hle rest
  refine ⟨fun limit turns => ⟨readFrameBefore_eq limit turns, ?_⟩, ?_, ?_⟩
  · rw [readFrameBefore_eq]
    exact frameOf_invalidData
  · intro request sent hsent
    unfold sendRequest at hsent
    dsimp only at hsent
    split at hsent
    · cases hsent
    · next hfits =>
      cases hsent
      exact ⟨_, rfl, hframe (lineFeed_not_mem_toVec codec.decimal_line _) (Nat.le_of_not_lt hfits)⟩
  · intro w late turns result hresult
    rw [readFrameBefore_eq] at hresult
    have hcommand : ∀ line request, result.mapError text = .ok line → codec.fromSlice line = .ok request →
        utf8Length (dispatch w request).1.command ≤ maxRequestBytes := by
      intro line request hread hrequest
      cases result with
      | error e => cases hread
      | ok line' =>
        cases hread
        exact (utf8Length_dispatch_le hrequest).trans (length_le_of_frameOf hresult)
    obtain ⟨line, hsent, hline, hle⟩ := handleConnectionWith_line codec late hcommand
    exact ⟨line, hsent, hframe hline hle⟩

/-- A request for the status, and what reads it alone. -/
def statusRequest : ControlRequest := ⟨"status", none, 10⟩

def statusText : List UInt8 := utf8 "\x7b\"command\":\"status\",\"session\":null,\"limit\":10\x7d"

def statusCodec : Codec where
  decimal := fun _ => []
  decimal_line := fun _ => List.not_mem_nil
  fromSlice line := if line = statusText then .ok statusRequest else .error "expected value at line 1 column 1"
  fromSlice_command := by
    intro line request h
    split at h
    · next hline =>
      cases h
      rw [hline]
      decide
    · cases h

def quietWorld : World := ⟨.ok [], .queued, fun _ _ => .null, fun _ _ => .null⟩

/-- A request in two chunks and its answer, both followed by more. -/
theorem frames_agree_status :
    let turns : List (Turn Unit) :=
      [.bytes (statusText.take 20), .again, .bytes (statusText.drop 20 ++ [lineFeed, 0x7B])]
    let answer := handleConnectionWith statusCodec (fun request =>
      (dispatch quietWorld request).1) false (.ok statusText)
    readFrameBefore maxRequestBytes [] turns = some (.ok statusText) ∧
      ∃ line, answer = line ++ [lineFeed] ∧
        readFrameBefore maxResponseBytes [] ([.bytes answer, .bytes [0x7B]] : List (Turn Unit)) = some (.ok line) := by
  intro turns answer
  have hagree := frames_agree statusCodec fun _ : FrameError Unit => ""
  have hread : readFrameBefore maxRequestBytes [] turns = some (.ok statusText) := by
    obtain ⟨line, hline, hframe⟩ := hagree.2.1 statusRequest (statusText ++ [lineFeed]) (by decide +kernel)
    obtain rfl := List.append_cancel_right hline
    exact hframe turns [0x7B] (by decide +kernel)
  obtain ⟨line, hline, hframe⟩ := hagree.2.2 quietWorld false turns (.ok statusText) hread
  refine ⟨hread, line, hline, hframe _ [0x7B] ?_⟩
  rw [← hline]
  decide +kernel

end CocoaWay.Control
