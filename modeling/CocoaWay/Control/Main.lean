import CocoaWay.Control.Server
import CocoaWay.Lib.System

/-!
# The control boundary

The MCP server is the process with the user's consent: it runs with or without `--allow-control`, and it hands the
identifiers and slots of its callers on to the control API, which reads them again.

* `server` : the server taking one JSON message after another, with the requests it sent and the actions they queued;
* `Act.Faithful` : the action is the one the arguments of its call name;
* `Misread` : a profile call with the identifier of 32 zeros, where the control API finds a profile by another rule;
* `permitted_faithful`, `misread_of_zero` : one request; `control_boundary` : every run.
-/

namespace CocoaWay.Control

open Lib Launch

/-! ## The system -/

/-- A queued action with the arguments of the call it comes from. -/
structure Act where
  arguments : Json
  queued : Queued

structure ServerState where
  initialized : Bool
  sent : List ControlRequest
  acts : List Act

/-- A message with what its requests meet: the exchange and the control API's world of each. -/
structure Event where
  message : Json
  peer : Nat → Link × World

def Event.answer (e : Event) (n : Nat) (request : ControlRequest) : Except String ControlResponse × Option Queued :=
  serve (e.peer n).1 (e.peer n).2 request

def step (encodedLength : Json → Nat) (allowControl : Bool) (s : ServerState) (e : Event) : Option ServerState :=
  let ((_, initialized), log) := (handleMessage encodedLength allowControl s.initialized e.message).run e.answer 0
  some ⟨initialized, s.sent ++ log.map Prod.fst,
    s.acts ++ (log.filterMap Prod.snd).map fun queued => ⟨callArguments (messageParams e.message), queued⟩⟩

/-- The server; `encodedLength` is the length of an encoded value. -/
def server (encodedLength : Json → Nat) (options : Options) : System ServerState Event :=
  ⟨⟨false, [], []⟩, step encodedLength options.allowControl⟩

/-- The requests of a message with the messages they queue. -/
def messageLog (encodedLength : Json → Nat) (allowControl : Bool) (s : ServerState) (e : Event) :
    List (ControlRequest × Option Queued) :=
  ((handleMessage encodedLength allowControl s.initialized e.message).run e.answer 0).2

variable {encodedLength : Json → Nat} {allowControl : Bool} {e : Event} {arguments : Json} {s : ServerState}
  {request : ControlRequest} {name : String} {options : Options}

theorem step_fields {s s' : ServerState} (h : step encodedLength allowControl s e = some s') :
    s'.sent = s.sent ++ (messageLog encodedLength allowControl s e).map Prod.fst ∧
      s'.acts = s.acts ++ ((messageLog encodedLength allowControl s e).filterMap Prod.snd).map fun queued =>
        ⟨callArguments (messageParams e.message), queued⟩ := by
  obtain rfl := Option.some.inj h
  exact ⟨rfl, rfl⟩

/-! ## Faithful actions -/

/-- The action is the one the arguments name: a profile action has the identifier in `profile_id`, a display action
the slot in `name`. -/
def Act.Faithful (a : Act) : Prop :=
  match a.queued.message with
  | .createManagedDisplay slot => a.arguments.get "name" = slot.map Json.string
  | .closeManagedDisplay slot => a.arguments.get "name" = some (.string slot)
  | .openPanel _ => True
  | _ => ∃ id : ProfileId, id.isSaved = true ∧ a.arguments.get "profile_id" = some (.string id.toString) ∧
      a.queued.ActsOn id

theorem Queued.ActsOn.faithful {q : Queued} {id : ProfileId} (h : q.ActsOn id)
    (hsaved : id.isSaved = true) (hget : arguments.get "profile_id" = some (.string id.toString)) :
    Act.Faithful ⟨arguments, q⟩ := by
  have hid : ∃ id : ProfileId, id.isSaved = true ∧ arguments.get "profile_id" = some (.string id.toString) ∧
    q.ActsOn id := ⟨id, hsaved, hget, h⟩
  rcases h with hm | ⟨_, _, _, _, _, hm | hm⟩ <;> simpa only [Act.Faithful, hm] using hid

/-- No faithful profile action comes from the zeros: they are the identifier of no saved profile. -/
theorem not_faithful_of_zero {a : Act} (hget : a.arguments.get "profile_id" = some (.string zeroText))
    (hm : a.queued.message.actsOnProfile = true) : ¬ a.Faithful := by
  intro h
  have hid : ∃ id : ProfileId, id.isSaved = true ∧ a.arguments.get "profile_id" = some (.string id.toString) ∧
      a.queued.ActsOn id := by
    unfold Act.Faithful at h
    split at h
    · next hq => exact absurd (hq ▸ hm) nofun
    · next hq => exact absurd (hq ▸ hm) nofun
    · next hq => exact absurd (hq ▸ hm) nofun
    · exact h
  obtain ⟨id, hsaved, hid, -⟩ := hid
  rw [hget] at hid
  have hzero : id.toString = zeroText := (Json.string.inj (Option.some.inj hid)).symm
  rw [eq_unsaved_of_toString hzero] at hsaved
  exact absurd hsaved (by decide)

/-- What a permitted request queues is faithful, unless it is a profile request with the zeros. -/
theorem permitted_faithful {link : Link} {w : World} {q : Queued} (h : Permitted allowControl name arguments request)
    (hq : (serve link w request).2 = some q)
    (hzero : arguments.get "profile_id" = some (.string zeroText) → request.command ∉ profileCommands) :
    Act.Faithful ⟨arguments, q⟩ := by
  obtain ⟨hdispatch, hconfig⟩ := serve_queued hq
  cases h with
  | read h =>
    rw [dispatch_read w h] at hdispatch
    exact absurd hdispatch nofun
  | panel _ h =>
    rw [dispatch_panel w h] at hdispatch
    obtain ⟨target, hm⟩ := queuePanelCommand_page hdispatch
    simp only [Act.Faithful, hm]
  | profile s _ _ h hsession hget hlen hhex =>
    have hne : s ≠ zeroText := by
      rintro rfl
      exact hzero hget h
    obtain ⟨id, hid⟩ := fromStr_of_hex hlen hhex hne
    obtain ⟨htext, hsaved⟩ := toString_of_fromStr hid
    rw [dispatch_profile w h, hsession] at hdispatch
    have hacts := queueSessionCommand_of_id (trim_of_hex hhex) hid hdispatch
    rw [← hconfig] at hacts
    refine Queued.ActsOn.faithful hacts hsaved ?_
    rw [hget, htext]
  | automatic _ h hsession hget =>
    rw [dispatch_display w (by rw [h]; decide), h, hsession] at hdispatch
    have hm := queueDisplayCommand_automatic hdispatch
    simpa only [Act.Faithful, hm, Option.map_none] using hget
  | slot s _ h hsession hget hne hlen hslot =>
    rw [dispatch_display w h, hsession] at hdispatch
    have hm := queueDisplayCommand_slot hslot hlen hne hdispatch
    split at hm
    · simpa only [Act.Faithful, hm, Option.map_some] using hget
    · simpa only [Act.Faithful, hm] using hget

/-! ## The zeros -/

/-- A profile call with the identifier of 32 zeros that reaches the control API while the zeros, read as a name or as a
position, select a saved profile there, and the event loop takes the message. -/
def Misread (encodedLength : Json → Nat) (options : Options) (s : ServerState) (e : Event) : Prop :=
  ∃ name arguments, admitted encodedLength options.allowControl s.initialized e.message = some (name, arguments) ∧
    name ∈ profileToolNames ∧ arguments.get "profile_id" = some (.string zeroText) ∧
    (e.peer 0).1.delivers = true ∧ (e.peer 0).2.admission = .queued ∧
    ∃ sessions session, (e.peer 0).2.config = .ok sessions ∧ zeroPick sessions = some session ∧
      session.id.isSaved = true

/-- The log of a profile call is its one request. -/
theorem messageLog_profile {text : String}
    (hcall : admitted encodedLength allowControl s.initialized e.message = some (name, arguments))
    (hname : name ∈ profileToolNames) (hget : arguments.get "profile_id" = some (.string text)) :
    ∃ request : ControlRequest, request.command ∈ profileCommands ∧ request.session = some text ∧
      messageLog encodedLength allowControl s e = [(request, (e.answer 0 request).2)] := by
  obtain ⟨request, hrun, hcommand, hsession⟩ := runTool_profile hname hget
  refine ⟨request, hcommand, hsession, ?_⟩
  unfold messageLog
  rw [handleMessage_log, hcall]
  dsimp only
  rw [hrun, sendControlTool_log]

/-- Every entry of the log is a permitted request with the effect of its exchange. -/
theorem messageLog_permitted {x : ControlRequest × Option Queued} (hx : x ∈ messageLog encodedLength allowControl s e) :
    ∃ name arguments, admitted encodedLength allowControl s.initialized e.message = some (name, arguments) ∧
      Permitted allowControl name arguments x.1 ∧ ∃ k, x.2 = (e.answer k x.1).2 := by
  unfold messageLog at hx
  rw [handleMessage_log] at hx
  cases hcall : admitted encodedLength allowControl s.initialized e.message with
  | none =>
    rw [hcall] at hx
    exact absurd hx List.not_mem_nil
  | some call =>
    obtain ⟨name, arguments⟩ := call
    rw [hcall] at hx
    obtain ⟨-, tool, htool, hvalid⟩ := admitted_ok hcall
    obtain ⟨hpermitted, k, -, heffect⟩ := (runTool_asks htool hvalid).log e.answer 0 x hx
    exact ⟨name, arguments, rfl, hpermitted, k, heffect⟩

/-- A profile request with the zeros that queues a message is misread. -/
theorem misread_of_zero (hcall : admitted encodedLength options.allowControl s.initialized e.message =
      some (name, arguments))
    (hname : name ∈ profileToolNames) (hget : arguments.get "profile_id" = some (.string zeroText)) :
    Misread encodedLength options s e ↔
      ∃ request queued, messageLog encodedLength options.allowControl s e = [(request, some queued)] := by
  obtain ⟨request, hcommand, hsession, hlog⟩ := messageLog_profile hcall hname hget
  have hqueued : (e.answer 0 request).2.isSome = true ↔ (e.peer 0).1.delivers = true ∧
    (e.peer 0).2.admission = .queued ∧
      ∃ sessions session, (e.peer 0).2.config = .ok sessions ∧ zeroPick sessions = some session ∧
        session.id.isSaved = true := by
    unfold Event.answer
    rw [serve_isSome, dispatch_profile _ hcommand, hsession, queueSessionCommand_zero]
  constructor
  · rintro ⟨_, _, _, _, _, hreach⟩
    obtain ⟨queued, hsome⟩ := Option.isSome_iff_exists.1 (hqueued.2 hreach)
    exact ⟨request, queued, by rw [hlog, hsome]⟩
  · rintro ⟨request', queued, hlog'⟩
    rw [hlog] at hlog'
    have hsome : (e.answer 0 request).2 = some queued := by
      obtain ⟨rfl, h⟩ := Prod.mk.inj (List.cons.inj hlog').1
      exact h
    exact ⟨name, arguments, hcall, hname, hget, hqueued.1 (by rw [hsome]; rfl)⟩

/-! ## Runs -/

theorem Permitted.profileTool
    (h : Permitted allowControl name arguments request) (hcommand : request.command ∈ profileCommands) :
    name ∈ profileToolNames := by
  have hdisjoint : ∀ command ∈ profileCommands, command ∉ readCommands ∧ command ≠ "open-panel" ∧
    command ≠ "display-create" ∧ command ∉ displayCommands := by decide
  obtain ⟨hread, hpanel, hcreate, hdisplay⟩ := hdisjoint _ hcommand
  cases h with
  | read h => exact absurd h hread
  | panel _ h => exact absurd h hpanel
  | profile _ _ hname => exact hname
  | automatic _ h => exact absurd h hcreate
  | slot _ _ h => exact absurd h hdisplay

/-- Without control, a message sends only requests that change nothing. -/
theorem messageLog_readOnly {x : ControlRequest × Option Queued} (hx : x ∈ messageLog encodedLength false s e) :
      x.1.command ∉ changeCommands := by
  have hdisjoint : ∀ command ∈ readCommands, command ∉ changeCommands := by decide
  obtain ⟨_, _, -, hpermitted, -⟩ := messageLog_permitted hx
  cases hpermitted with
  | read h => exact hdisjoint _ h
  | panel hallow => exact absurd hallow nofun
  | profile _ hallow => exact absurd hallow nofun
  | automatic hallow => exact absurd hallow nofun
  | slot _ hallow => exact absurd hallow nofun

/-- What a message queues is faithful, unless the message is misread. -/
theorem messageLog_faithful (hmisread : ¬ Misread encodedLength options s e) {queued : Queued}
    (hx : (request, some queued) ∈ messageLog encodedLength options.allowControl s e) :
    Act.Faithful ⟨callArguments (messageParams e.message), queued⟩ := by
  obtain ⟨name, arguments, hcall, hpermitted, k, heffect⟩ := messageLog_permitted hx
  obtain ⟨harguments, -⟩ := admitted_ok hcall
  rw [← harguments]
  refine permitted_faithful hpermitted heffect.symm fun hget hcommand => hmisread ?_
  have hname := hpermitted.profileTool hcommand
  obtain ⟨only, -, -, hlog⟩ := messageLog_profile hcall hname hget
  rw [hlog] at hx
  refine (misread_of_zero hcall hname hget).2 ⟨request, queued, ?_⟩
  rw [hlog, ← List.mem_singleton.1 hx]

/-- A misread message queues an action that is not faithful. -/
theorem misread_unfaithful {s s' : ServerState}
    (hstep : step encodedLength options.allowControl s e = some s') (h : Misread encodedLength options s e) :
    ∃ a ∈ s'.acts, ¬ a.Faithful := by
  obtain ⟨name, arguments, hcall, hname, hget, -⟩ := id h
  obtain ⟨harguments, -⟩ := admitted_ok hcall
  obtain ⟨request, queued, hlog⟩ := (misread_of_zero hcall hname hget).1 h
  obtain ⟨only, hcommand, hsession, honly⟩ := messageLog_profile hcall hname hget
  obtain ⟨-, hacts⟩ := step_fields hstep
  refine ⟨⟨arguments, queued⟩, ?_, not_faithful_of_zero hget ?_⟩
  · rw [hacts, hlog, harguments]
    simp
  · rw [honly] at hlog
    have hserve : (serve (e.peer 0).1 (e.peer 0).2 only).2 = some queued :=
      (Prod.mk.inj (List.cons.inj hlog).1).2
    obtain ⟨hdispatch, -⟩ := serve_queued hserve
    rw [dispatch_profile _ hcommand] at hdispatch
    exact queueSessionCommand_actsOnProfile hdispatch

/-! ## A configuration with one profile -/

def editor : SavedSession := ⟨.ofByte 1, "Editor", "container", none, none, ""⟩

def editorWorld : World := ⟨.ok [editor], .queued, fun _ _ => .null, fun _ _ => .null⟩

def initializedEvent : Event where
  message := .object [("jsonrpc", .string "2.0"), ("method", .string "notifications/initialized")]
  peer := fun _ => (.answered, editorWorld)

/-- A launch call with an identifier. -/
def launchEvent (profileId : String) : Event where
  message := .object [("jsonrpc", .string "2.0"), ("id", .number (.unsigned 1)), ("method", .string "tools/call"),
    ("params", .object [("name", .string "cocoa_way_launch"),
      ("arguments", .object [("profile_id", .string profileId)])])]
  peer := fun _ => (.answered, editorWorld)

/-- The length of the arguments of `launchEvent`. -/
def launchLength : Json → Nat := fun _ => 49

def controlled : Options := ⟨none, true⟩

/-- The launch of the zeros starts the first profile of the configuration. -/
theorem zeros_launch_first_profile : ∃ s, (server launchLength controlled).Reachable s ∧
    ∃ a ∈ s.acts, a.arguments.get "profile_id" = some (.string zeroText) ∧
      a.queued.message = .startIfCurrent editor.id editor.toToml ∧ editor.id.toString ≠ zeroText ∧ ¬ a.Faithful := by
  have hrun : ((server launchLength controlled).run (server launchLength controlled).init
      [initializedEvent, launchEvent zeroText]).any (fun s => s.acts.any fun a =>
        ((a.arguments.get "profile_id").bind Json.asStr == some zeroText) &&
          (a.queued.message == .startIfCurrent editor.id editor.toToml)) = true := by decide +kernel
  obtain ⟨s, hs, hacts⟩ := System.exists_reachable hrun
  obtain ⟨a, ha, hcheck⟩ := List.any_eq_true.1 hacts
  simp only [Bool.and_eq_true, beq_iff_eq] at hcheck
  obtain ⟨v, hv, htext⟩ := Option.bind_eq_some_iff.1 hcheck.1
  rw [Json.eq_string_of_asStr htext] at hv
  refine ⟨s, hs, a, ha, hv, hcheck.2, by decide +kernel, not_faithful_of_zero hv ?_⟩
  rw [hcheck.2]
  rfl

/-- Every run: without the flag no request changes anything; and every action is the one its arguments name as long as
no message is misread. A misread message is exactly what ends this. -/
theorem control_boundary (encodedLength : Json → Nat) {arguments : List String} {options : Options}
    (hstart : parseArguments arguments = .ok options) :
    ("--allow-control" ∉ arguments → ∀ s, (server encodedLength options).Reachable s →
        ∀ request ∈ s.sent, request.command ∉ changeCommands) ∧
      (∀ s, (server encodedLength options).ReachableWhere (fun s e => ¬ Misread encodedLength options s e) s →
        ∀ a ∈ s.acts, a.Faithful) ∧
      ∀ s e s', (server encodedLength options).step s e = some s' → Misread encodedLength options s e →
        ∃ a ∈ s'.acts, ¬ a.Faithful := by
  refine ⟨fun hflag s hs => ?_, fun s hs => ?_, fun s e s' hstep h => misread_unfaithful hstep h⟩
  · have hallow : options.allowControl = false := by
      refine Bool.eq_false_iff.2 fun hallow => ?_
      rcases parseLoop_allow hstart hallow with hfalse | hmem
      · exact absurd hfalse nofun
      · exact hflag hmem
    refine System.Reachable.invariant (I := fun s => ∀ request ∈ s.sent, request.command ∉ changeCommands) nofun ?_ hs
    intro s e s' ih hstep request hrequest
    have hstep : step encodedLength options.allowControl s e = some s' := hstep
    rw [hallow] at hstep
    rw [(step_fields hstep).1] at hrequest
    rcases List.mem_append.1 hrequest with hrequest | hrequest
    · exact ih request hrequest
    · obtain ⟨x, hx, rfl⟩ := List.mem_map.1 hrequest
      exact messageLog_readOnly hx
  · refine System.ReachableWhere.invariant (I := fun s => ∀ a ∈ s.acts, a.Faithful) nofun ?_ hs
    intro s e s' ih hmisread hstep a ha
    rw [(step_fields hstep).2] at ha
    rcases List.mem_append.1 ha with ha | ha
    · exact ih a ha
    · obtain ⟨queued, hqueued, rfl⟩ := List.mem_map.1 ha
      obtain ⟨⟨request, effect⟩, hx, rfl⟩ := List.mem_filterMap.1 hqueued
      exact messageLog_faithful hmisread hx

theorem control_boundary_launch : ∃ s,
    (server launchLength controlled).ReachableWhere (fun s e => ¬ Misread launchLength controlled s e) s ∧
      s.acts ≠ [] ∧ ∀ a ∈ s.acts, a.Faithful := by
  have hstart : parseArguments ["--allow-control"] = .ok controlled := rfl
  have hidle : ∀ s, ¬ Misread launchLength controlled s initializedEvent := by
    rintro s ⟨_, _, hcall, -⟩
    exact absurd hcall nofun
  have hlaunch : ∀ s, ¬ Misread launchLength controlled s (launchEvent editor.id.toString) := by
    rintro s ⟨_, _, hcall, -, hget, -⟩
    rw [(admitted_ok hcall).1] at hget
    exact absurd (Json.string.inj (Option.some.inj hget)) (by decide +kernel)
  have hrun : ∃ s s', (server launchLength controlled).step (server launchLength controlled).init initializedEvent =
    some s ∧
      (server launchLength controlled).step s (launchEvent editor.id.toString) = some s' ∧ s'.acts ≠ [] :=
    ⟨_, _, rfl, rfl, by decide +kernel⟩
  obtain ⟨s, s', h1, h2, hacts⟩ := hrun
  have hs : (server launchLength controlled).ReachableWhere (fun s e => ¬ Misread launchLength controlled s e) s' :=
    .step (.step .init (hidle _) h1) (hlaunch _) h2
  exact ⟨s', hs, hacts, (control_boundary launchLength hstart).2.1 s' hs⟩

end CocoaWay.Control
