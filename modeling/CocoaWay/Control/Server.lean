import CocoaWay.Control.Api
import CocoaWay.Control.Tools
import CocoaWay.Lib.Dialogue

/-!
# The MCP server

* `parseArguments` : the command line, which decides whether control is allowed;
* `callTool` : a tool call, as a program that asks the control API;
* `handleMessage` : the handler of one JSON-RPC message;
* `Permitted` : the requests a call may make, by its tool and its arguments;
* `handleMessage_log`, `runTool_asks` : the requests of a message are those of the call it is, and they are permitted.
-/

namespace CocoaWay.Control

open Lib Launch

/-! ## The command line -/

structure Options where
  /-- `none` stands for the default socket path. -/
  socket : Option String
  allowControl : Bool

def usage : String := "usage: cocoa-way-mcp [--socket PATH] [--allow-control] (read-only by default)"

/-- The loop of `parse_arguments`. -/
def parseLoop : List String → Option String → Bool → Except String Options
  | [], socket, allowControl => .ok ⟨socket, allowControl⟩
  | argument :: rest, socket, allowControl =>
    if argument = "--socket" && socket.isNone then
      match rest with
      | [] => .error usage
      | path :: rest =>
        if path.isEmpty || path.startsWith "--" then .error usage else parseLoop rest (some path) allowControl
    else if argument = "--allow-control" && !allowControl then parseLoop rest socket true
    else .error usage

def parseArguments (arguments : List String) : Except String Options := parseLoop arguments none false

theorem parseLoop_allow {options : Options} :
    ∀ {arguments : List String} {socket : Option String} {allowControl : Bool},
    parseLoop arguments socket allowControl = .ok options → options.allowControl = true →
      allowControl = true ∨ "--allow-control" ∈ arguments
  | [], _, _, h, hallow => by
    obtain rfl := Except.ok.inj h
    exact .inl hallow
  | argument :: [], socket, allowControl, h, hallow => by
    unfold parseLoop at h
    dsimp only at h
    split at h
    · exact absurd h nofun
    · split at h
      · next hflag =>
        simp only [Bool.and_eq_true, decide_eq_true_eq] at hflag
        exact .inr (by simp [hflag.1])
      · exact absurd h nofun
  | argument :: path :: rest, socket, allowControl, h, hallow => by
    unfold parseLoop at h
    dsimp only at h
    split at h
    · split at h
      · exact absurd h nofun
      · exact (parseLoop_allow h hallow).imp id fun hmem => by simp [hmem]
    · split at h
      · next hflag =>
        simp only [Bool.and_eq_true, decide_eq_true_eq] at hflag
        exact .inr (by simp [hflag.1])
      · exact absurd h nofun

/-! ## Tool calls -/

/-- The structured part of a tool's result; the texts that explain it are left out. -/
inductive ToolResult
  | control (response : ControlResponse)
  | unreachable (error : String)
  | onboarding (goal : String) (environment features applications : Json)
  | imageSources (localImages : Json)
  | applicationTemplate (name image command presentation display : String) (audio : Bool)
  | sshTemplate (name host : String) (user : Option String) (port : Nat) (identity : Option String)
      (command display compression : String)
  | localTemplate (name socket command display compression : String)
  | issueDraft (summary : String) (diagnostics : Json)

/-- A program of the server: it asks the control API, and an answer is a response or a failure of the exchange. -/
abbrev Exchange (R : Type) := Dialogue ControlRequest (Except String ControlResponse) R

def optionalText (arguments : Json) (key : String) : Option String :=
  (((arguments.get key).bind Json.asStr).map trim).filter (· ≠ "")

def requiredText (arguments : Json) (key : String) : Except String String :=
  match optionalText arguments key with
  | some value => .ok value
  | none => .error s!"{key} is required"

def toolLimit (arguments : Json) : Nat := ((arguments.get "limit").bind Json.asU64).getD 100

def controlData (command : String) : Exchange (Except String Json) :=
  .ask ⟨command, none, 100⟩ fun
    | .error error => .done (.error s!"failed to query Cocoa-Way {command}: {error}")
    | .ok response =>
      if response.ok then .done (.ok response.data)
      else .done (.error (response.error.getD s!"Cocoa-Way {command} query failed"))

def sendControlTool (request : ControlRequest) : Exchange (Except String ToolResult) :=
  .ask request fun
    | .error error => .done (.ok (.unreachable error))
    | .ok response => .done (.ok (.control response))

def onboarding (arguments : Json) : Exchange (Except String ToolResult) :=
  let goal := ((arguments.get "goal").bind Json.asStr).getD "overview"
  (controlData "environment").andThen fun environment =>
    (controlData "features").andThen fun features =>
      (controlData "applications").andThen fun applications =>
        .done (.ok (.onboarding goal environment features applications))

def imageSources : Exchange (Except String ToolResult) :=
  (controlData "images").andThen fun localImages => .done (.ok (.imageSources localImages))

def applicationTemplate (arguments : Json) : Except String ToolResult := do
  let image ← requiredText arguments "image"
  let command ← requiredText arguments "command"
  let name := (optionalText arguments "name").getD "Linux Application"
  let presentation := (optionalText arguments "presentation").getD "rootless"
  if presentation ∉ ["desktop", "rootless"] then .error "presentation must be desktop or rootless"
  let display := (optionalText arguments "display").getD "auto"
  let audio := ((arguments.get "audio").bind Json.asBool).getD true
  .ok (.applicationTemplate name image command presentation display audio)

def connectionTemplate (arguments : Json) : Except String ToolResult := do
  let connectionType := (optionalText arguments "type").getD "ssh"
  if connectionType ∉ ["ssh", "local"] then .error "connection type must be ssh or local"
  let name := (optionalText arguments "name").getD "Linux Machine"
  let command := (optionalText arguments "command").getD "foot"
  let display := (optionalText arguments "display").getD "default"
  let compression := (optionalText arguments "compression").getD "zstd"
  if connectionType = "ssh" then
    let host ← requiredText arguments "host"
    let port := ((arguments.get "port").bind Json.asU64).getD 22
    if ¬ (1 ≤ port ∧ port ≤ 65535) then .error "port must be between 1 and 65535"
    .ok (.sshTemplate name host (optionalText arguments "user") port (optionalText arguments "identity") command display
      compression)
  else
    let socket ← requiredText arguments "socket"
    .ok (.localTemplate name socket command display compression)

def issueDraft (arguments : Json) : Exchange (Except String ToolResult) :=
  match optionalText arguments "summary" with
  | none => .done (.error "cocoa_way_issue_draft requires a non-empty summary")
  | some summary =>
    let request : ControlRequest :=
      ⟨"diagnostics", (arguments.get "session").bind Json.asStr, toolLimit arguments⟩
    .ask request fun
      | .error error => .done (.error s!"failed to collect Cocoa-Way diagnostics: {error}")
      | .ok response =>
        if !response.ok then sendControlTool request else .done (.ok (.issueDraft summary response.data))

/-- The tools that ask for one snapshot and take no argument into the request. -/
def plainCommands : List (String × String × Nat) := [
  ("cocoa_way_debug_snapshot", "debug-snapshot", 100),
  ("cocoa_way_performance", "performance", 100),
  ("cocoa_way_clipboard", "clipboard", 100),
  ("cocoa_way_status", "status", 10),
  ("cocoa_way_applications", "applications", 100),
  ("cocoa_way_sessions", "applications", 100),
  ("cocoa_way_running", "running", 100),
  ("cocoa_way_displays", "displays", 100),
  ("cocoa_way_images", "images", 100),
  ("cocoa_way_volumes", "volumes", 100),
  ("cocoa_way_runtimes", "runtimes", 100),
  ("cocoa_way_environment", "environment", 100),
  ("cocoa_way_features", "features", 100)]

/-- The request of a tool that is one request. -/
def requestFor (name : String) (arguments : Json) : Except String ControlRequest :=
  match plainCommands.find? fun entry => entry.1 == name with
  | some (_, command, limit) => .ok ⟨command, none, limit⟩
  | none =>
    if name = "cocoa_way_open_panel" then
      .ok ⟨"open-panel", some (((arguments.get "page").bind Json.asStr).getD "applications"), 100⟩
    else if name ∈ profileToolNames then
      match (arguments.index "profile_id").asStr with
      | none => .error "profile_id is required"
      | some profileId =>
        .ok ⟨if name = "cocoa_way_check" then "check" else if name = "cocoa_way_launch" then "launch" else "stop",
          some profileId, 100⟩
    else if name = "cocoa_way_display_create" then
      .ok ⟨"display-create", (arguments.get "name").bind Json.asStr, 100⟩
    else if name = "cocoa_way_display_close" then
      .ok ⟨"display-close", (arguments.get "name").bind Json.asStr, 100⟩
    else if name = "cocoa_way_tasks" then .ok ⟨"tasks", none, toolLimit arguments⟩
    else if name = "cocoa_way_diagnostics" then
      .ok ⟨"diagnostics", (arguments.get "session").bind Json.asStr, toolLimit arguments⟩
    else if name = "cocoa_way_logs" then
      match (arguments.get "session").bind Json.asStr with
      | none => .error "cocoa_way_logs requires a string session argument"
      | some session => .ok ⟨"logs", some session, toolLimit arguments⟩
    else .error s!"Unknown tool: {name}"

/-- The first half of `call_tool`: the name and the arguments of a call that passes every check. -/
def admittedCall (encodedLength : Json → Nat) (allowControl : Bool) (params : Json) : Except String (String × Json) :=
  match params.asObject with
  | none => .error "tools/call params must be an object"
  | some entries =>
    if entries.any fun entry => !decide (entry.1 ∈ ["name", "arguments", "_meta"]) then
      .error "unknown tools/call parameter"
    else if (params.get "_meta").any fun value => value.asObject.isNone then
      .error "tools/call _meta must be an object"
    else
      match (params.get "name").bind Json.asStr with
      | none => .error "tools/call requires a tool name"
      | some name =>
        let arguments := (params.get "arguments").getD (.object [])
        match findTool allowControl name with
        | none => .error s!"Unknown or disabled tool: {name}; controls require --allow-control"
        | some tool =>
          if encodedLength arguments > 16 * 1024 then .error "tool arguments exceed the 16 KiB limit"
          else
            match validateArguments arguments tool.inputSchema "arguments" with
            | .error error => .error error
            | .ok () => .ok (name, arguments)

/-- The second half of `call_tool`. -/
def runTool (name : String) (arguments : Json) : Exchange (Except String ToolResult) :=
  if name = "cocoa_way_issue_draft" then issueDraft arguments
  else if name = "cocoa_way_onboarding" then onboarding arguments
  else if name = "cocoa_way_image_sources" then imageSources
  else if name = "cocoa_way_application_template" then .done (applicationTemplate arguments)
  else if name = "cocoa_way_connection_template" then .done (connectionTemplate arguments)
  else
    match requestFor name arguments with
    | .error error => .done (.error error)
    | .ok request => sendControlTool request

def callTool (encodedLength : Json → Nat) (allowControl : Bool) (params : Json) : Exchange (Except String ToolResult) :=
  match admittedCall encodedLength allowControl params with
  | .error error => .done (.error error)
  | .ok (name, arguments) => runTool name arguments

/-! ## Messages -/

inductive RpcResult
  | initialized (protocol : String) (allowControl : Bool)
  | pong
  | tools (catalog : List Tool)
  | called (result : ToolResult)

inductive Reply
  | success (id : Json) (result : RpcResult)
  | error (id : Json) (code : Int) (message : String)

def latestProtocol : String := "2025-11-25"

def supportedProtocols : List String := ["2025-11-25", "2025-06-18", "2025-03-26", "2024-11-05"]

/-- `initialize_result`; the fixed texts of the result are left out. -/
def initializeResult (params : Json) (allowControl : Bool) : RpcResult :=
  let requested := ((params.get "protocolVersion").bind Json.asStr).getD latestProtocol
  .initialized (if requested ∈ supportedProtocols then requested else latestProtocol) allowControl

def messageParams (message : Json) : Json := (message.get "params").getD (.object [])

/-- The reply to a message and the `initialized` flag behind it. -/
def handleMessage (encodedLength : Json → Nat) (allowControl initialized : Bool) (message : Json) :
    Exchange (Option Reply × Bool) :=
  let params := messageParams message
  match message.asObject with
  | none => .done (some (.error .null (-32600) "Invalid Request"), initialized)
  | some _ =>
    if (message.get "jsonrpc").bind Json.asStr ≠ some "2.0" then
      .done (some (.error ((message.get "id").getD .null) (-32600) "Invalid Request"), initialized)
    else
      match (message.get "method").bind Json.asStr, message.get "id" with
      | none, _ => .done (none, initialized)
      | some method, none => .done (none, initialized || method == "notifications/initialized")
      | some method, some id =>
        if id.isNull then .done (some (.error id (-32600) "Request id must not be null"), initialized)
        else if method = "initialize" then .done (some (.success id (initializeResult params allowControl)),
          initialized)
        else if method = "ping" then .done (some (.success id .pong), initialized)
        else if method = "tools/list" && initialized then
          .done (some (.success id (.tools (tools allowControl))), initialized)
        else if method = "tools/call" && initialized then
          (callTool encodedLength allowControl params).map fun
            | .ok result => (some (.success id (.called result)), initialized)
            | .error error => (some (.error id (-32602) error), initialized)
        else if method = "tools/list" || method = "tools/call" then
          .done (some (.error id (-32002) "Server is not initialized"), initialized)
        else .done (some (.error id (-32601) "Method not found"), initialized)

/-- The parameters of a message that is handled as a tool call. -/
def callParams (initialized : Bool) (message : Json) : Option Json :=
  if (message.get "jsonrpc").bind Json.asStr = some "2.0" ∧ (message.get "method").bind Json.asStr = some "tools/call" ∧
      (message.get "id").any (fun id => !id.isNull) ∧ initialized then some (messageParams message)
  else none

/-! ## What a message asks -/

/-- The arguments of a tool call. -/
def callArguments (params : Json) : Json := (params.get "arguments").getD (.object [])

/-- The requests a call of a tool with given arguments may make. -/
inductive Permitted (allowControl : Bool) (name : String) (arguments : Json) (request : ControlRequest) : Prop
  | read (h : request.command ∈ readCommands)
  | panel (hallow : allowControl = true) (h : request.command = "open-panel")
  | profile (s : String) (hallow : allowControl = true) (hname : name ∈ profileToolNames)
      (h : request.command ∈ profileCommands) (hsession : request.session = some s)
      (hget : arguments.get "profile_id" = some (.string s)) (hlen : s.toList.length = 32)
      (hhex : s.toList.all isLowerHex = true)
  | automatic (hallow : allowControl = true) (h : request.command = "display-create")
    (hsession : request.session = none)
      (hget : arguments.get "name" = none)
  | slot (s : String) (hallow : allowControl = true) (h : request.command ∈ displayCommands)
      (hsession : request.session = some s) (hget : arguments.get "name" = some (.string s)) (hne : s ≠ "")
      (hlen : s.toList.length ≤ 64) (hslot : isSlot s = true)

section Asks

variable {allowControl : Bool} {name : String} {arguments : Json}

theorem controlData_asks {command : String} (h : command ∈ readCommands) :
    (controlData command).Asks (Permitted allowControl name arguments) := by
  refine ⟨.read h, fun answer => ?_⟩
  cases answer with
  | error e => trivial
  | ok response =>
    dsimp only
    split <;> trivial

theorem sendControlTool_asks {request : ControlRequest} (h : Permitted allowControl name arguments request) :
    (sendControlTool request).Asks (Permitted allowControl name arguments) := by
  refine ⟨h, fun answer => ?_⟩
  cases answer <;> trivial

theorem onboarding_asks : (onboarding arguments).Asks (Permitted allowControl name arguments) := by
  refine (controlData_asks (by decide)).andThen fun _ => ?_
  refine (controlData_asks (by decide)).andThen fun _ => ?_
  exact (controlData_asks (by decide)).andThen fun _ => trivial

theorem imageSources_asks : imageSources.Asks (Permitted allowControl name arguments) :=
  (controlData_asks (by decide)).andThen fun _ => trivial

theorem issueDraft_asks : (issueDraft arguments).Asks (Permitted allowControl name arguments) := by
  have hdiagnostics : "diagnostics" ∈ readCommands := by decide
  unfold issueDraft
  split
  · trivial
  · refine ⟨.read hdiagnostics, fun answer => ?_⟩
    cases answer with
    | error e => trivial
    | ok response =>
      dsimp only
      split
      · exact sendControlTool_asks (.read hdiagnostics)
      · trivial

/-- The request of a tool with validated arguments is a permitted one. -/
theorem requestFor_permitted {tool : Tool} {request : ControlRequest}
    (htool : findTool allowControl name = some tool)
    (hvalid : validateArguments arguments tool.inputSchema "arguments" = .ok ())
    (h : requestFor name arguments = .ok request) : Permitted allowControl name arguments request := by
  have hplain : ∀ entry ∈ plainCommands, entry.2.1 ∈ readCommands := by decide +kernel
  unfold requestFor at h
  split at h
  · next hfind =>
    obtain rfl := Except.ok.inj h
    exact .read (hplain _ (List.mem_of_find?_eq_some hfind))
  · split at h
    · next hname =>
      subst hname
      obtain rfl := Except.ok.inj h
      exact .panel (findTool_control (by decide +kernel) htool) rfl
    · split at h
      · next hname =>
        obtain ⟨hallow, hschema⟩ := findTool_profile hname htool
        rw [hschema] at hvalid
        obtain ⟨s, hget, hlen, hhex⟩ := profileId_argument hvalid
        rw [Json.index_eq_of_get hget] at h
        obtain rfl := Except.ok.inj h
        refine .profile s hallow hname ?_ rfl hget hlen hhex
        dsimp only
        split
        · decide +kernel
        · split <;> decide +kernel
      · split at h
        · next hname =>
          subst hname
          obtain rfl := Except.ok.inj h
          have hallow := findTool_control (by decide +kernel) htool
          subst hallow
          rw [findTool_create htool] at hvalid
          cases hget : arguments.get "name" with
          | none => exact .automatic rfl rfl rfl hget
          | some v =>
            obtain ⟨s, rfl, hne, hlen, hslot⟩ := slot_argument hvalid hget
            exact .slot s rfl (List.mem_cons_self ..) rfl hget hne hlen hslot
        · split at h
          · next hname =>
            subst hname
            have hallow := findTool_control (by decide +kernel) htool
            subst hallow
            rw [findTool_close htool] at hvalid
            obtain ⟨v, hget⟩ := slot_argument_required hvalid
            obtain ⟨s, rfl, hne, hlen, hslot⟩ := slot_argument hvalid hget
            rw [hget] at h
            obtain rfl := Except.ok.inj h
            exact .slot s rfl (List.mem_cons_of_mem _ (List.mem_cons_self ..)) rfl hget hne hlen hslot
          · split at h
            · obtain rfl := Except.ok.inj h
              exact .read (show "tasks" ∈ readCommands by decide +kernel)
            · split at h
              · obtain rfl := Except.ok.inj h
                exact .read (show "diagnostics" ∈ readCommands by decide +kernel)
              · split at h
                · split at h
                  · exact absurd h nofun
                  · obtain rfl := Except.ok.inj h
                    exact .read (show "logs" ∈ readCommands by decide +kernel)
                · exact absurd h nofun

theorem runTool_asks {tool : Tool} (htool : findTool allowControl name = some tool)
    (hvalid : validateArguments arguments tool.inputSchema "arguments" = .ok ()) :
    (runTool name arguments).Asks (Permitted allowControl name arguments) := by
  unfold runTool
  split
  · exact issueDraft_asks
  · split
    · exact onboarding_asks
    · split
      · exact imageSources_asks
      · split
        · trivial
        · split
          · trivial
          · split
            · trivial
            · next hrequest => exact sendControlTool_asks (requestFor_permitted htool hvalid hrequest)

variable {encodedLength : Json → Nat} {params : Json}

theorem admittedCall_ok (h : admittedCall encodedLength allowControl params = .ok (name, arguments)) :
    arguments = callArguments params ∧ ∃ tool, findTool allowControl name = some tool ∧
      validateArguments arguments tool.inputSchema "arguments" = .ok () := by
  unfold admittedCall at h
  split at h
  · exact absurd h nofun
  · split at h
    · exact absurd h nofun
    · split at h
      · exact absurd h nofun
      · split at h
        · exact absurd h nofun
        · dsimp only at h
          split at h
          · exact absurd h nofun
          · next tool htool =>
            split at h
            · exact absurd h nofun
            · split at h
              · exact absurd h nofun
              · next hvalid =>
                obtain ⟨rfl, rfl⟩ := Prod.mk.inj (Except.ok.inj h)
                exact ⟨rfl, tool, htool, hvalid⟩

variable {initialized : Bool} {message : Json}

theorem handleMessage_idle (h : callParams initialized message = none) :
    ∃ r, handleMessage encodedLength allowControl initialized message = .done r := by
  unfold handleMessage
  dsimp only
  split
  · exact ⟨_, rfl⟩
  · split
    · exact ⟨_, rfl⟩
    · next hrpc =>
      split
      · exact ⟨_, rfl⟩
      · exact ⟨_, rfl⟩
      · next method id hmethod hid =>
        by_cases hnull : id.isNull = true
        · exact ⟨_, if_pos hnull⟩
        · by_cases hcall : method = "tools/call" ∧ initialized = true
          · exfalso
            unfold callParams at h
            rw [if_pos ⟨not_not.1 hrpc, by rw [hmethod, hcall.1], by rw [hid]; simpa using hnull, hcall.2⟩] at h
            exact absurd h nofun
          · rw [if_neg hnull]
            split
            · exact ⟨_, rfl⟩
            · split
              · exact ⟨_, rfl⟩
              · split
                · exact ⟨_, rfl⟩
                · rw [if_neg (by simpa using hcall)]
                  split
                  · exact ⟨_, rfl⟩
                  · exact ⟨_, rfl⟩

theorem callParams_eq (h : callParams initialized message = some params) : params = messageParams message := by
  unfold callParams at h
  split at h
  · exact (Option.some.inj h).symm
  · exact absurd h nofun

theorem handleMessage_call (h : callParams initialized message = some params) :
    ∃ f, handleMessage encodedLength allowControl initialized message =
      (callTool encodedLength allowControl params).map f := by
  unfold callParams at h
  split at h
  · next hcall =>
    obtain ⟨hrpc, hmethod, hid, hinitialized⟩ := hcall
    obtain rfl := Option.some.inj h
    obtain ⟨id, hget, hnull⟩ := (Option.any_eq_true _ _).1 hid
    have hobject : ∃ entries, message.asObject = some entries := by
      cases message with
      | object entries => exact ⟨entries, rfl⟩
      | _ => exact absurd hget nofun
    obtain ⟨entries, hobject⟩ := hobject
    unfold handleMessage
    dsimp only
    rw [hobject]
    dsimp only
    rw [if_neg (not_not.2 hrpc), hmethod, hget]
    dsimp only
    rw [if_neg (by simpa using hnull), if_neg (by decide), if_neg (by decide), if_neg (by simp),
      if_pos (by simp [hinitialized])]
    exact ⟨_, rfl⟩
  · exact absurd h nofun

/-- The tool call that a message is, when it passes every check. -/
def admitted (encodedLength : Json → Nat) (allowControl initialized : Bool) (message : Json) : Option (String × Json) :=
  (callParams initialized message).bind fun params => (admittedCall encodedLength allowControl params).toOption

theorem admitted_ok (h : admitted encodedLength allowControl initialized message = some (name, arguments)) :
    arguments = callArguments (messageParams message) ∧ ∃ tool, findTool allowControl name = some tool ∧
      validateArguments arguments tool.inputSchema "arguments" = .ok () := by
  obtain ⟨params, hparams, hadmitted⟩ := Option.bind_eq_some_iff.1 h
  obtain rfl := callParams_eq hparams
  cases hcall : admittedCall encodedLength allowControl (messageParams message) with
  | error e =>
    rw [hcall] at hadmitted
    exact absurd hadmitted nofun
  | ok call =>
    rw [hcall] at hadmitted
    rw [Option.some.inj hadmitted] at hcall
    exact admittedCall_ok hcall

/-- The requests of a message are those of the tool call it is. -/
theorem handleMessage_log {E : Type} (peer : Nat → ControlRequest → Except String ControlResponse × E)
    (encodedLength : Json → Nat) (allowControl initialized : Bool) (message : Json) :
    ((handleMessage encodedLength allowControl initialized message).run peer 0).2 =
      match admitted encodedLength allowControl initialized message with
      | none => []
      | some (name, arguments) => ((runTool name arguments).run peer 0).2 := by
  unfold admitted
  cases hcall : callParams initialized message with
  | none =>
    have hidle : ∃ r, handleMessage encodedLength allowControl initialized message = .done r := handleMessage_idle hcall
    obtain ⟨r, hr⟩ := hidle
    rw [hr]
    rfl
  | some params =>
    have hsome : ∃ f, handleMessage encodedLength allowControl initialized message =
        (callTool encodedLength allowControl params).map f := handleMessage_call hcall
    obtain ⟨f, hf⟩ := hsome
    rw [hf, Dialogue.run_map, Option.bind_some]
    unfold callTool
    cases admittedCall encodedLength allowControl params with
    | error e => rfl
    | ok call => rfl

theorem sendControlTool_log {E : Type} (peer : Nat → ControlRequest → Except String ControlResponse × E) (n : Nat)
    (request : ControlRequest) : ((sendControlTool request).run peer n).2 = [(request, (peer n request).2)] := by
  unfold sendControlTool Dialogue.run
  obtain ⟨answer, effect⟩ := peer n request
  cases answer <;> rfl

/-- A profile tool is one request with its identifier as the selector. -/
theorem runTool_profile {s : String} (hname : name ∈ profileToolNames)
    (hget : arguments.get "profile_id" = some (.string s)) :
    ∃ request, runTool name arguments = sendControlTool request ∧ request.command ∈ profileCommands ∧
      request.session = some s := by
  have hother : ∀ name ∈ profileToolNames, name ≠ "cocoa_way_issue_draft" ∧ name ≠ "cocoa_way_onboarding" ∧
      name ≠ "cocoa_way_image_sources" ∧ name ≠ "cocoa_way_application_template" ∧
      name ≠ "cocoa_way_connection_template" ∧ name ≠ "cocoa_way_open_panel" ∧
      (plainCommands.find? fun entry => entry.1 == name) = none := by decide +kernel
  obtain ⟨h1, h2, h3, h4, h5, h6, h7⟩ := hother name hname
  unfold runTool
  rw [if_neg h1, if_neg h2, if_neg h3, if_neg h4, if_neg h5]
  unfold requestFor
  rw [h7]
  dsimp only
  rw [if_neg h6, if_pos hname, Json.index_eq_of_get hget]
  refine ⟨_, rfl, ?_, rfl⟩
  dsimp only
  split
  · decide +kernel
  · split <;> decide +kernel

end Asks

end CocoaWay.Control
