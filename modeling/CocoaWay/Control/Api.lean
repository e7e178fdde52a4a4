import CocoaWay.Control.Selectors
import CocoaWay.Lib.Json

/-!
# The control API

* `Message` : what the control API puts on the compositor's event loop;
* `World` : what a request finds there: the configuration, the queue, the snapshots;
* `dispatch` : the handler of one request;
* `resolveSession_of_id` : a selector that is an identifier selects the profile with that identifier;
* `resolveSession_zero` : the zeros select by name, then by position;
* `dispatch_profile`, `dispatch_display`, `dispatch_read` : what one request queues.
-/

namespace CocoaWay.Control

open Lib Launch

/-! ## Data -/

instance : ToString ProfileId := ⟨ProfileId.toString⟩

abbrev SavedSession := Session ProfileId

/-- A text of `session_to_toml`. -/
abbrev Signature := ProfileId × String × String × Option String × Option String × String

inductive PanelPage
  | applications | displays | diagnostics
  deriving DecidableEq

/-- The `CompositorMessage`s of the control API. -/
inductive Message
  | startIfCurrent (profileId : ProfileId) (signature : Signature)
  | stop (profileId : ProfileId)
  | check (profileId : ProfileId)
  | createManagedDisplay (slot : Option String)
  | closeManagedDisplay (slot : String)
  | openPanel (page : PanelPage)
  deriving DecidableEq

structure ControlRequest where
  command : String
  session : Option String
  limit : Nat

structure ControlResponse where
  ok : Bool
  command : String
  data : Json
  error : Option String

def ControlResponse.success (command : String) (data : Json) : ControlResponse := ⟨true, command, data, none⟩

def ControlResponse.failure (command error : String) : ControlResponse := ⟨false, command, .null, some error⟩

/-- The outcome of `queue_message`. -/
inductive Admission
  | queued | expired | timedOut | disconnected

def Admission.error : Admission → Option String
  | queued => none
  | expired => some "control request deadline exceeded"
  | timedOut => some "event loop queue admission timed out; command was not accepted"
  | disconnected => some "event loop is unavailable; command was not accepted"

/-- What a request finds: the profiles in the configuration file or why it cannot be read, how the event loop's queue
takes a message, and what the snapshots show. -/
structure World where
  config : Except String (List SavedSession)
  admission : Admission
  snapshot : String → ControlRequest → Json
  sessionLogs : ProfileId → Nat → Json

/-! ## Profiles -/

def resolveSessionIn (selector : Option String) (sessions : List SavedSession) : Except String (Nat × SavedSession) :=
  match (selector.map trim).filter (· ≠ "") with
  | none => .error "a profile ID, session index or exact name is required"
  | some selector =>
    match fromStr selector with
    | .ok id =>
      match sessions.zipIdx.find? fun p => p.1.id = id with
      | some (session, index) => .ok (index, session)
      | none => .error s!"profile '{id}' was not found"
    | .error _ =>
      if (sessions.filter fun session => eqIgnoreAsciiCase session.name selector).length > 1 then
        .error "session name is ambiguous; use its persistent profile ID"
      else
        match sessions.zipIdx.find? fun p => eqIgnoreAsciiCase p.1.name selector with
        | some (session, index) => .ok (index, session)
        | none =>
          match (parseUsize selector).bind fun index => (sessions[index]?).map fun session => (index, session) with
          | some resolved => .ok resolved
          | none => .error s!"session '{selector}' was not found"

def resolveSession (w : World) (selector : Option String) : Except String (Nat × SavedSession) :=
  match w.config with
  | .error error => .error s!"Cannot read application configuration: {error}"
  | .ok sessions =>
    match resolveSessionIn selector sessions with
    | .error error => .error error
    | .ok resolved =>
      if resolved.2.id.isSaved then .ok resolved
      else .error ("This legacy profile needs a persistent ID. " ++
        "Save it in Cocoa-Way before launching or checking it.")

def stopProfileId (w : World) (selector : Option String) : Except String ProfileId :=
  match selector.bind fun selector => (fromStr (trim selector)).toOption with
  | some id => .ok id
  | none => (resolveSession w selector).map fun resolved => resolved.2.id

/-- `session_command_message`, which is called with `launch`, `start`, `stop` and `check` only. -/
def sessionCommandMessage (command : String) (session : SavedSession) : Message :=
  if command = "check" then .check session.id
  else if command = "stop" then .stop session.id
  else .startIfCurrent session.id session.toToml

/-- Queue a message and report it as accepted, or report why it was not. -/
def submit (w : World) (command : String) (message : Message) (data : List (String × Json)) :
    ControlResponse × Option Message :=
  match w.admission.error with
  | none => (.success command (.object (("accepted", .bool true) :: data)), some message)
  | some error => (.failure command error, none)

def queueSessionCommand (w : World) (command : String) (selector : Option String) : ControlResponse × Option Message :=
  if command = "stop" then
    match stopProfileId w selector with
    | .error error => (.failure command error, none)
    | .ok id => submit w command (.stop id) [("id", .string id.toString)]
  else
    match resolveSession w selector with
    | .error error => (.failure command error, none)
    | .ok (index, session) =>
      submit w command (sessionCommandMessage command session)
        [("id", .string session.id.toString), ("index", .number (.unsigned index)), ("name", .string session.name)]

/-! ## Displays and panels -/

def queuePanelCommand (w : World) (page : Option String) : ControlResponse × Option Message :=
  let page := page.getD "applications"
  let target := match page with
    | "applications" => some PanelPage.applications
    | "displays" => some PanelPage.displays
    | "diagnostics" => some PanelPage.diagnostics
    | _ => none
  match target with
  | none => (.failure "open-panel" "page must be applications, displays, or diagnostics", none)
  | some target => submit w "open-panel" (.openPanel target) [("page", .string page)]

def slotJson (slot : Option String) : Json := (slot.map Json.string).getD .null

def queueDisplayCommand (w : World) (command : String) (selector : Option String) : ControlResponse × Option Message :=
  let requested : Except String (Option String) := match (selector.map trim).filter (· ≠ "") with
    | none => .ok none
    | some value => (normalizeManagedDisplaySlot value).map some
  match requested with
  | .error error => (.failure command error, none)
  | .ok requested =>
    if command = "display-create" then
      submit w command (.createManagedDisplay requested)
        [("slot", slotJson requested), ("automatic", .bool requested.isNone)]
    else
      match requested with
      | none => (.failure command "a managed display name is required", none)
      | some slot =>
        submit w command (.closeManagedDisplay slot) [("slot", slotJson (some slot)), ("automatic", .bool false)]

/-! ## Requests -/

/-- The commands answered from a snapshot. -/
def snapshotCommands : List String := [
  "status", "applications", "sessions", "running", "displays", "debug-snapshot", "performance", "clipboard", "images",
  "volumes", "runtimes", "tasks", "environment", "features", "diagnostics"]

def dispatch (w : World) (request : ControlRequest) : ControlResponse × Option Message :=
  let command := asciiLowercase (trim request.command)
  if command ∈ snapshotCommands then (.success command (w.snapshot command request), none)
  else if command = "logs" then
    match resolveSession w request.session with
    | .error error => (.failure command error, none)
    | .ok (index, session) =>
      (.success command (.object
        [("id", .string session.id.toString), ("index", .number (.unsigned index)), ("name", .string session.name),
          ("lines", w.sessionLogs session.id (max 1 (min request.limit 1000)))]), none)
  else if command ∈ ["launch", "start", "stop", "check"] then queueSessionCommand w command request.session
  else if command ∈ ["display-create", "display-close"] then queueDisplayCommand w command request.session
  else if command = "open-panel" then queuePanelCommand w request.session
  else (.failure command
    ("unsupported command; use status, applications, running, displays, debug-snapshot, performance, clipboard, images, " ++
      "volumes, runtimes, tasks, environment, features, diagnostics, logs, check, launch, stop, display-create, " ++
      "display-close, or open-panel"), none)

/-! ## The connection -/

/-- How the exchange of one request went. -/
inductive Link
  /-- Nothing was delivered: no connection, a busy server, a request that could not be written or read. -/
  | unreachable (error : String)
  /-- The request was read behind its deadline. -/
  | late
  | answered
  /-- The response was too long and its failure notice was sent in its place. -/
  | oversized
  /-- The request was handled and its response did not come back. -/
  | unanswered (error : String)

/-- A queued message with the configuration its request found. -/
structure Queued where
  message : Message
  config : Except String (List SavedSession)

/-- `send_request` at the client and `handle_connection` at the server. -/
def serve (link : Link) (w : World) (request : ControlRequest) : Except String ControlResponse × Option Queued :=
  let (response, message) := dispatch w request
  let queued := message.map fun message => ⟨message, w.config⟩
  match link with
  | .unreachable error => (.error error, none)
  | .late => (.ok (.failure "invalid" "control request deadline exceeded"), none)
  | .answered => (.ok response, queued)
  | .oversized => (.ok (.failure response.command "control response exceeds the 4 MiB frame limit"), queued)
  | .unanswered error => (.error error, queued)

variable {request : ControlRequest} {w : World} {command : String} {m : Message} {s : String}

theorem serve_queued {link : Link} {q : Queued}
    (h : (serve link w request).2 = some q) : (dispatch w request).2 = some q.message ∧ q.config = w.config := by
  unfold serve at h
  generalize dispatch w request = reply at h ⊢
  have hmap : reply.2.map (fun message => (⟨message, w.config⟩ : Queued)) = some q := by
    cases link with
    | unreachable error => exact absurd h nofun
    | late => exact absurd h nofun
    | _ => exact h
  obtain ⟨message, hmessage, rfl⟩ := Option.map_eq_some_iff.1 hmap
  exact ⟨hmessage, rfl⟩

/-! ## What a selector selects -/

theorem trim_of_hex (hhex : s.toList.all isLowerHex = true) : trim s = s := by
  refine trim_of_no_space fun c hc => ?_
  have hc := List.all_eq_true.1 hhex c hc
  unfold isLowerHex isAsciiDigit at hc
  unfold isWhitespace
  simp at hc ⊢
  omega

theorem mem_of_find_zipIdx {l : List SavedSession} {p : SavedSession × Nat → Bool} {s : SavedSession} {i : Nat}
    (h : l.zipIdx.find? p = some (s, i)) : p (s, i) = true ∧ s ∈ l := by
  refine ⟨List.find?_some h, ?_⟩
  have hmem := List.mem_of_find?_eq_some h
  exact List.fst_mem_of_mem_zipIdx hmem

/-- A selector that is an identifier selects the profile with that identifier. -/
theorem resolveSessionIn_of_id {id : ProfileId} {sessions : List SavedSession} {i : Nat}
    {session : SavedSession} (htrim : trim s = s) (hid : fromStr s = .ok id)
    (h : resolveSessionIn (some s) sessions = .ok (i, session)) : session ∈ sessions ∧ session.id = id := by
  have hne : s ≠ "" := by
    rintro rfl
    exact absurd hid nofun
  have hselector : ((some s).map trim).filter (· ≠ "") = some s := by
    rw [Option.map_some, htrim, Option.filter_some_pos (by simpa using hne)]
  unfold resolveSessionIn at h
  rw [hselector] at h
  dsimp only at h
  rw [hid] at h
  dsimp only at h
  split at h
  · next found index hfind =>
    obtain ⟨-, rfl⟩ := Prod.mk.inj (Except.ok.inj h)
    obtain ⟨hp, hmem⟩ := mem_of_find_zipIdx hfind
    exact ⟨hmem, by simpa using hp⟩
  · exact absurd h nofun

theorem resolveSession_ok {selector : Option String} {resolved : Nat × SavedSession}
    (h : resolveSession w selector = .ok resolved) :
    ∃ sessions, w.config = .ok sessions ∧ resolveSessionIn selector sessions = .ok resolved ∧
      resolved.2.id.isSaved = true := by
  unfold resolveSession at h
  split at h
  · exact absurd h nofun
  · next sessions hconfig =>
    split at h
    · exact absurd h nofun
    · next found hfound =>
      split at h
      · next hsaved =>
        obtain rfl := Except.ok.inj h
        exact ⟨sessions, hconfig, hfound, hsaved⟩
      · exact absurd h nofun

/-- What acting on the profile of an identifier is: the message carries the identifier, and a check or a launch goes
to a profile of the configuration. -/
def Queued.ActsOn (q : Queued) (id : ProfileId) : Prop :=
  q.message = .stop id ∨
    ∃ sessions, q.config = .ok sessions ∧ ∃ session ∈ sessions, session.id = id ∧
      (q.message = .check id ∨ q.message = .startIfCurrent id session.toToml)

theorem submit_message {m m' : Message} {data : List (String × Json)}
    (h : (submit w command m data).2 = some m') : m = m' := by
  unfold submit at h
  split at h
  · exact Option.some.inj h
  · exact absurd h nofun

theorem sessionCommandMessage_cases (hstop : command ≠ "stop") (session : SavedSession) :
    sessionCommandMessage command session = .check session.id ∨
      sessionCommandMessage command session = .startIfCurrent session.id session.toToml := by
  unfold sessionCommandMessage
  by_cases hcheck : command = "check"
  · exact .inl (if_pos hcheck)
  · exact .inr (by rw [if_neg hcheck, if_neg hstop])

/-- A profile command whose selector is an identifier acts on the profile with that identifier. -/
theorem queueSessionCommand_of_id {command s : String} {id : ProfileId} (htrim : trim s = s) (hid : fromStr s = .ok id)
    (h : (queueSessionCommand w command (some s)).2 = some m) : Queued.ActsOn ⟨m, w.config⟩ id := by
  unfold queueSessionCommand at h
  split at h
  · next hstop =>
    have hstopId : stopProfileId w (some s) = .ok id := by
      unfold stopProfileId
      rw [Option.bind_some, htrim, hid]
      rfl
    rw [hstopId] at h
    exact .inl (submit_message h).symm
  · next hstop =>
    split at h
    · exact absurd h nofun
    · next index session hresolved =>
      obtain ⟨sessions, hconfig, hfound, _⟩ := resolveSession_ok hresolved
      obtain ⟨hmem, rfl⟩ := resolveSessionIn_of_id htrim hid hfound
      obtain rfl := submit_message h
      exact .inr ⟨sessions, hconfig, session, hmem, rfl, sessionCommandMessage_cases hstop session⟩

def profileCommands : List String := ["check", "launch", "stop"]

/-- The commands that change nothing. -/
def readCommands : List String := "logs" :: snapshotCommands

def changeCommands : List String := ["open-panel", "check", "launch", "stop", "display-create", "display-close"]

theorem asciiLowercase_trim (h : command ∈ readCommands ++ changeCommands) :
    asciiLowercase (trim command) = command := by
  have hall : ((readCommands ++ changeCommands).all fun command =>
      command.toList.all fun c => !isWhitespace c && toAsciiLowercase c == c) = true := by decide +kernel
  have hplain : ∀ c ∈ command.toList, isWhitespace c = false ∧ toAsciiLowercase c = c := fun c hc => by
    simpa using List.all_eq_true.1 (List.all_eq_true.1 hall command h) c hc
  unfold asciiLowercase
  rw [trim_of_no_space fun c hc => (hplain c hc).1, List.map_congr_left fun c hc => (hplain c hc).2, List.map_id',
    String.ofList_toList]

def Message.actsOnProfile : Message → Bool
  | startIfCurrent _ _ | stop _ | check _ => true
  | _ => false

theorem queueSessionCommand_actsOnProfile {selector : Option String}
    (h : (queueSessionCommand w command selector).2 = some m) : m.actsOnProfile = true := by
  unfold queueSessionCommand at h
  split at h
  · split at h
    · exact absurd h nofun
    · obtain rfl := submit_message h
      rfl
  · next hstop =>
    split at h
    · exact absurd h nofun
    · next index session _ =>
      obtain rfl := submit_message h
      rcases sessionCommandMessage_cases hstop session with hm | hm <;> rw [hm] <;> rfl

theorem dispatch_profile (w : World) (hcommand : request.command ∈ profileCommands) :
    dispatch w request = queueSessionCommand w request.command request.session := by
  have hchange : profileCommands ⊆ readCommands ++ changeCommands := by decide
  have hsnapshot : ∀ command ∈ profileCommands, command ∉ snapshotCommands ∧ command ≠ "logs" := by decide
  have hlaunch : profileCommands ⊆ ["launch", "start", "stop", "check"] := by decide
  unfold dispatch
  dsimp only
  rw [asciiLowercase_trim (hchange hcommand), if_neg (hsnapshot _ hcommand).1, if_neg (hsnapshot _ hcommand).2,
    if_pos (hlaunch hcommand)]

def displayCommands : List String := ["display-create", "display-close"]

theorem dispatch_display (w : World) (hcommand : request.command ∈ displayCommands) :
    dispatch w request = queueDisplayCommand w request.command request.session := by
  have hchange : displayCommands ⊆ readCommands ++ changeCommands := by decide
  have hother : ∀ command ∈ displayCommands, command ∉ snapshotCommands ∧ command ≠ "logs" ∧
    command ∉ ["launch", "start", "stop", "check"] := by decide
  obtain ⟨hsnapshot, hlogs, hlaunch⟩ := hother _ hcommand
  unfold dispatch
  dsimp only
  rw [asciiLowercase_trim (hchange hcommand), if_neg hsnapshot, if_neg hlogs, if_neg hlaunch,
    if_pos (show request.command ∈ ["display-create", "display-close"] from hcommand)]

theorem dispatch_panel (w : World) (hcommand : request.command = "open-panel") :
    dispatch w request = queuePanelCommand w request.session := by
  unfold dispatch
  dsimp only
  rw [hcommand, asciiLowercase_trim (by decide), if_neg (by decide), if_neg (by decide), if_neg (by decide),
    if_neg (by decide), if_pos rfl]

theorem dispatch_read (w : World) (hcommand : request.command ∈ readCommands) : (dispatch w request).2 = none := by
  unfold dispatch
  dsimp only
  rw [asciiLowercase_trim (List.mem_append_left _ hcommand)]
  rcases List.mem_cons.1 hcommand with hlogs | hsnapshot
  · rw [hlogs, if_neg (by decide), if_pos rfl]
    split <;> rfl
  · rw [if_pos hsnapshot]

/-! ## Display and panel commands -/

theorem requested_slot (hslot : isSlot s = true) (hlen : s.toList.length ≤ 64) (hne : s ≠ "") :
    ((some s).map trim).filter (· ≠ "") = some s ∧ normalizeManagedDisplaySlot s = .ok s := by
  have htrim : trim s = s := trim_of_no_space fun c hc => (slotCharacter_kept (isSlot_characters hslot c hc)).2
  refine ⟨?_, normalize_of_slot hslot hlen hne⟩
  rw [Option.map_some, htrim, Option.filter_some_pos (by simpa using hne)]

/-- Creating a display without a name leaves the choice of the slot to the compositor. -/
theorem queueDisplayCommand_automatic
    (h : (queueDisplayCommand w "display-create" none).2 = some m) : m = .createManagedDisplay none :=
  (submit_message h).symm

/-- A display command whose selector is a canonical slot acts on that slot. -/
theorem queueDisplayCommand_slot {command s : String} (hslot : isSlot s = true)
    (hlen : s.toList.length ≤ 64) (hne : s ≠ "") (h : (queueDisplayCommand w command (some s)).2 = some m) :
    m = if command = "display-create" then .createManagedDisplay (some s) else .closeManagedDisplay s := by
  obtain ⟨hrequested, hnormal⟩ := requested_slot hslot hlen hne
  unfold queueDisplayCommand at h
  rw [hrequested] at h
  dsimp only at h
  rw [hnormal] at h
  dsimp only [Except.map] at h
  split at h
  · next hcreate =>
    rw [if_pos hcreate]
    exact (submit_message h).symm
  · next hclose =>
    rw [if_neg hclose]
    exact (submit_message h).symm

theorem queuePanelCommand_page {page : Option String}
    (h : (queuePanelCommand w page).2 = some m) : ∃ target, m = .openPanel target := by
  unfold queuePanelCommand at h
  dsimp only at h
  split at h
  · exact absurd h nofun
  · next target _ => exact ⟨target, (submit_message h).symm⟩

/-! ## The zeros -/

/-- The profile the zeros select: the only one of that name, or without one of that name the first. -/
def zeroPick (sessions : List SavedSession) : Option SavedSession :=
  match sessions.filter fun session => eqIgnoreAsciiCase session.name zeroText with
  | [] => sessions.head?
  | [session] => some session
  | _ => none

theorem filter_of_find_zipIdx {sessions : List SavedSession} {p : SavedSession → Bool}
    (h : sessions.zipIdx.find? (fun x => p x.1) = none) : sessions.filter p = [] := by
  refine List.filter_eq_nil_iff.2 fun s hs => ?_
  obtain ⟨i, hi⟩ := List.mem_iff_getElem?.1 hs
  exact List.find?_eq_none.1 h (s, i) (List.mk_mem_zipIdx_iff_getElem?.2 hi)

/-- The zeros are no identifier: they select by name, then as the position zero. -/
theorem resolveSessionIn_zero (sessions : List SavedSession) (session : SavedSession) :
    (∃ i, resolveSessionIn (some zeroText) sessions = .ok (i, session)) ↔ zeroPick sessions = some session := by
  have hselector : ((some zeroText).map trim).filter (· ≠ "") = some zeroText := by decide
  have hparse : parseUsize zeroText = some 0 := by decide
  have hreserved : (fromStr zeroText).toBool = false := by decide
  obtain ⟨e, hid⟩ : ∃ e, fromStr zeroText = .error e := by
    cases h : fromStr zeroText with
    | error e => exact ⟨e, rfl⟩
    | ok id =>
      rw [h] at hreserved
      cases hreserved
  unfold resolveSessionIn zeroPick
  rw [hselector]
  dsimp only
  rw [hid]
  dsimp only
  cases hfind : sessions.zipIdx.find? fun p => eqIgnoreAsciiCase p.1.name zeroText with
  | none =>
    have hnil : (sessions.filter fun s => eqIgnoreAsciiCase s.name zeroText) = [] := filter_of_find_zipIdx hfind
    rw [hnil, if_neg (by decide), hparse]
    dsimp only [Option.bind_some]
    cases sessions with
    | nil => simp
    | cons first rest => simp
  | some found =>
    obtain ⟨s, i⟩ := found
    obtain ⟨hname, hmem⟩ := mem_of_find_zipIdx hfind
    have hfilter : s ∈ sessions.filter fun s => eqIgnoreAsciiCase s.name zeroText := List.mem_filter.2 ⟨hmem, hname⟩
    match hf : sessions.filter fun s => eqIgnoreAsciiCase s.name zeroText with
    | [] =>
      rw [hf] at hfilter
      exact absurd hfilter List.not_mem_nil
    | [t] =>
      rw [hf] at hfilter
      obtain rfl := List.mem_singleton.1 hfilter
      rw [hf]
      simp
    | _ :: _ :: _ =>
      rw [hf]
      simp

theorem resolveSession_zero : (∃ resolved, resolveSession w (some zeroText) = .ok resolved) ↔
    ∃ sessions session, w.config = .ok sessions ∧ zeroPick sessions = some session ∧ session.id.isSaved = true := by
  constructor
  · rintro ⟨⟨i, session⟩, h⟩
    obtain ⟨sessions, hconfig, hfound, hsaved⟩ := resolveSession_ok h
    exact ⟨sessions, session, hconfig, (resolveSessionIn_zero sessions session).1 ⟨i, hfound⟩, hsaved⟩
  · rintro ⟨sessions, session, hconfig, hpick, hsaved⟩
    obtain ⟨i, hfound⟩ := (resolveSessionIn_zero sessions session).2 hpick
    refine ⟨(i, session), ?_⟩
    unfold resolveSession
    rw [hconfig]
    dsimp only
    rw [hfound]
    exact if_pos hsaved

theorem submit_isSome {data : List (String × Json)} :
    (submit w command m data).2.isSome = true ↔ w.admission = .queued := by
  unfold submit
  cases hadmission : w.admission <;> simp [Admission.error]

/-- A profile command with the zeros queues a message exactly when they select a saved profile. -/
theorem queueSessionCommand_zero : (queueSessionCommand w command (some zeroText)).2.isSome = true ↔
      w.admission = .queued ∧
        ∃ sessions session, w.config = .ok sessions ∧ zeroPick sessions = some session ∧ session.id.isSaved = true := by
  have htrim : trim zeroText = zeroText := by decide
  have hid : (fromStr zeroText).toOption = none := rfl
  rw [← resolveSession_zero]
  unfold queueSessionCommand stopProfileId
  rw [Option.bind_some, htrim, hid]
  dsimp only
  cases hresolved : resolveSession w (some zeroText) with
  | error e =>
    constructor
    · intro h
      split at h <;> exact absurd h nofun
    · rintro ⟨-, resolved, h⟩
      exact absurd h nofun
  | ok resolved =>
    have hsome : ∃ found, (Except.ok resolved : Except String (Nat × SavedSession)) = .ok found := ⟨resolved, rfl⟩
    rw [and_iff_left hsome]
    split
    · exact submit_isSome
    · exact submit_isSome

def Link.delivers : Link → Bool
  | .unreachable _ | .late => false
  | _ => true

theorem serve_isSome {link : Link} :
    (serve link w request).2.isSome = true ↔ link.delivers = true ∧ (dispatch w request).2.isSome = true := by
  unfold serve
  generalize dispatch w request = reply
  cases link <;> simp [Link.delivers]

end CocoaWay.Control
