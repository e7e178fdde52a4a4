import CocoaWay.Control.Selectors
import CocoaWay.Lib.Fallible
import CocoaWay.Lib.Json

/-!
# The tool table and the argument validator

* `tools` : the tools of the server in its two modes, with their input schemas;
* `validateArguments` : the validator of a value against a schema;
* `validated_entry` : a validated object holds only entries that its schema names, each validated in turn;
* `profileId_argument`, `slot_argument` : what the validated arguments of the control tools are.
-/

namespace CocoaWay.Control

open Lib Launch

/-! ## Schemas -/

/-- A schema of one type; titles, descriptions and defaults are not read by the validator. -/
def typed (type : String) (bounds : List (String × Json)) : Json := .object (("type", .string type) :: bounds)

def limitOf (key : String) (n : Nat) : String × Json := (key, .number (.unsigned n))

def enumOf (choices : List String) : String × Json := ("enum", .array (choices.map .string))

def objectSchema (properties : List (String × Json)) (bounds : List (String × Json)) : Json :=
  typed "object" (("properties", .object properties) :: bounds ++ [("additionalProperties", .bool false)])

def requires (keys : List String) : String × Json := ("required", .array (keys.map .string))

def emptySchema : Json := typed "object" [("additionalProperties", .bool false)]

def text : Json := typed "string" []

def someText : Json := typed "string" [limitOf "minLength" 1]

def limitSchema : Json := typed "integer" [limitOf "minimum" 1, limitOf "maximum" 1000]

def diagnosticsSchema : Json := objectSchema [("session", text), ("limit", limitSchema)] []

/-- A tool, by the fields `call_tool` reads. -/
structure Tool where
  name : String
  inputSchema : Json

def profilePattern : String := "^[0-9a-f]\x7b32\x7d$"

def displayPattern : String := "^[a-z0-9]+(-[a-z0-9]+)*$"

def profileSchema : Json :=
  objectSchema
    [("profile_id", typed "string"
      [limitOf "minLength" 32, limitOf "maxLength" 32, ("pattern", .string profilePattern)])]
    [requires ["profile_id"]]

def slotSchema (bounds : List (String × Json)) : Json :=
  objectSchema
    [("name", typed "string" [limitOf "minLength" 1, limitOf "maxLength" 64, ("pattern", .string displayPattern)])]
    bounds

def readOnlyTools : List Tool := [
  ⟨"cocoa_way_debug_snapshot", emptySchema⟩,
  ⟨"cocoa_way_performance", emptySchema⟩,
  ⟨"cocoa_way_clipboard", emptySchema⟩,
  ⟨"cocoa_way_onboarding", objectSchema
    [("goal", typed "string" [enumOf ["overview", "apple-container", "remote-ssh", "local-socket"]])] []⟩,
  ⟨"cocoa_way_image_sources", emptySchema⟩,
  ⟨"cocoa_way_application_template", objectSchema
    [("name", someText), ("image", someText), ("command", someText),
      ("presentation", typed "string" [enumOf ["desktop", "rootless"]]), ("display", text),
        ("audio", typed "boolean" [])]
    [requires ["image", "command"]]⟩,
  ⟨"cocoa_way_connection_template", objectSchema
    [("name", someText), ("type", typed "string" [enumOf ["ssh", "local"]]), ("host", text), ("user", text),
      ("port", typed "integer" [limitOf "minimum" 1, limitOf "maximum" 65535]), ("identity", text), ("socket", text),
      ("command", someText), ("display", text), ("compression", typed "string" [enumOf ["none", "lz4", "zstd"]])]
    []⟩,
  ⟨"cocoa_way_status", emptySchema⟩,
  ⟨"cocoa_way_applications", emptySchema⟩,
  ⟨"cocoa_way_sessions", emptySchema⟩,
  ⟨"cocoa_way_running", emptySchema⟩,
  ⟨"cocoa_way_displays", emptySchema⟩,
  ⟨"cocoa_way_images", emptySchema⟩,
  ⟨"cocoa_way_volumes", emptySchema⟩,
  ⟨"cocoa_way_runtimes", emptySchema⟩,
  ⟨"cocoa_way_tasks", diagnosticsSchema⟩,
  ⟨"cocoa_way_environment", emptySchema⟩,
  ⟨"cocoa_way_features", emptySchema⟩,
  ⟨"cocoa_way_diagnostics", diagnosticsSchema⟩,
  ⟨"cocoa_way_issue_draft", objectSchema
    [("summary", someText), ("session", text), ("steps", typed "array" [("items", text)]), ("expected", text),
      ("actual", text), ("limit", limitSchema)]
    [requires ["summary"]]⟩,
  ⟨"cocoa_way_logs", objectSchema [("session", text), ("limit", limitSchema)] [requires ["session"]]⟩]

def controlTools : List Tool := [
  ⟨"cocoa_way_open_panel", objectSchema
    [("page", typed "string" [enumOf ["applications", "displays", "diagnostics"]])] []⟩,
  ⟨"cocoa_way_check", profileSchema⟩,
  ⟨"cocoa_way_launch", profileSchema⟩,
  ⟨"cocoa_way_stop", profileSchema⟩,
  ⟨"cocoa_way_display_create", slotSchema []⟩,
  ⟨"cocoa_way_display_close", slotSchema [requires ["name"]]⟩]

def schemaType (schema : Json) : Option String := (schema.index "type").asStr

mutual

/-- `bound_schema`: every string gets a longest length and every array a largest count. -/
def boundSchema : Json → Json
  | .object entries =>
    let schema : Json := .object entries
    let inner := boundEntries (schemaType schema == some "array") entries
    if schemaType schema == some "string" && (schema.get "maxLength").isNone then
      Json.set "maxLength" (.number (.unsigned 4096)) (.object inner)
    else if schemaType schema == some "array" then Json.set "maxItems" (.number (.unsigned 32)) (.object inner)
    else .object inner
  | schema => schema

/-- The entries of a schema with the schemas inside them bounded. -/
def boundEntries (isArray : Bool) : List (String × Json) → List (String × Json)
  | [] => []
  | (key, schema) :: rest =>
    (key, if key == "properties" then boundProperties schema
      else if isArray && key == "items" then boundSchema schema else schema) :: boundEntries isArray rest

def boundProperties : Json → Json
  | .object properties => .object (boundValues properties)
  | schema => schema

def boundValues : List (String × Json) → List (String × Json)
  | [] => []
  | (key, schema) :: rest => (key, boundSchema schema) :: boundValues rest

end

def tools (allowControl : Bool) : List Tool :=
  let catalog := if allowControl then readOnlyTools ++ controlTools else readOnlyTools
  catalog.map fun tool => { tool with inputSchema := boundSchema tool.inputSchema }

/-! ## The validator -/

def invalid (field : String) : Except String Unit :=
  .error s!"invalid {field}: arguments must match the tool input schema"

def limitIn (schema : Json) (key : String) (default : Nat) : Nat := (schema.index key).asU64.getD default

/-- The choices of a schema with an enumeration. -/
def checkChoices (value schema : Json) (field : String) : Except String Unit :=
  match (schema.index "enum").asArray with
  | some choices => if choices.any value.same then .ok () else invalid field
  | none => .ok ()

def checkRequired (entries : List (String × Json)) (schema : Json) (field : String) : Except String Unit :=
  let keys := ((schema.index "required").asArray.getD []).filterMap Json.asStr
  match keys.find? fun key => (Json.entry key entries).isNone with
  | some key => .error s!"{field}.{key} is required"
  | none => .ok ()

def checkString (value : String) (schema : Json) (field : String) : Except String Unit :=
  let length := value.toList.length
  let pattern := (schema.index "pattern").asStr
  if value.toList.contains (Char.ofNat 0) || length < limitIn schema "minLength" 0
      || length > limitIn schema "maxLength" 4096 then invalid field
  else if pattern == some profilePattern && !value.toList.all isLowerHex then invalid field
  else if pattern == some displayPattern && !isSlot value then invalid field
  else .ok ()

def checkInteger (value : JsonNumber) (schema : Json) (field : String) : Except String Unit :=
  match (Json.number value).asU64 with
  | some number =>
    if number < limitIn schema "minimum" 0 || number > limitIn schema "maximum" (2 ^ 64 - 1) then invalid field
    else .ok ()
  | none => invalid field

mutual

/-- `validate_arguments`; the value is looked at before the type its schema asks for. -/
def validateArguments : Json → Json → String → Except String Unit
  | .object entries, schema, field =>
    if schemaType schema == some "object" then do
      checkRequired entries schema field
      validateEntries entries (schema.index "properties") field
      checkChoices (.object entries) schema field
    else invalid field
  | .string value, schema, field =>
    if schemaType schema == some "string" then do
      checkString value schema field
      checkChoices (.string value) schema field
    else invalid field
  | .number value, schema, field =>
    if schemaType schema == some "integer" then do
      checkInteger value schema field
      checkChoices (.number value) schema field
    else invalid field
  | .bool value, schema, field =>
    if schemaType schema == some "boolean" then checkChoices (.bool value) schema field else invalid field
  | .array values, schema, field =>
    if schemaType schema == some "array" then do
      if values.length > limitIn schema "maxItems" 32 then invalid field
      validateItems values (schema.index "items") field
      checkChoices (.array values) schema field
    else invalid field
  | .null, _, field => invalid field

def validateEntries : List (String × Json) → Json → String → Except String Unit
  | [], _, _ => .ok ()
  | (key, value) :: rest, properties, field =>
    match properties.get key with
    | none => .error s!"unknown argument: {field}.{key}"
    | some property => do
      validateArguments value property key
      validateEntries rest properties field

def validateItems : List Json → Json → String → Except String Unit
  | [], _, _ => .ok ()
  | value :: rest, items, field => do
    validateArguments value items field
    validateItems rest items field

end

/-! ## What validated arguments are -/

variable {field : String} {value schema : Json} {tool : Tool} {arguments : Json}

/-- Every entry of a validated list of entries stands in the properties and meets its own schema. -/
theorem validateEntries_mem {properties : Json} :
    ∀ {entries : List (String × Json)}, validateEntries entries properties field = .ok () →
      ∀ e ∈ entries, ∃ property, properties.get e.1 = some property ∧ validateArguments e.2 property e.1 = .ok ()
  | [], _, e, he => absurd he List.not_mem_nil
  | (key, value) :: rest, h, e, he => by
    unfold validateEntries at h
    split at h
    · exact absurd h nofun
    · next property hp =>
      obtain ⟨_, hvalue, hrest⟩ := ok_of_bind h
      rcases List.mem_cons.1 he with rfl | he
      · exact ⟨property, hp, hvalue⟩
      · exact validateEntries_mem hrest e he

/-- The type that the schema of a value names. -/
def jsonType : Json → Option String
  | .object _ => some "object"
  | .string _ => some "string"
  | .number _ => some "integer"
  | .bool _ => some "boolean"
  | .array _ => some "array"
  | .null => none

theorem validated_type (h : validateArguments value schema field = .ok ()) : jsonType value = schemaType schema := by
  cases value with
  | null =>
    unfold validateArguments at h
    exact absurd h nofun
  | object _ | string _ | number _ | bool _ | array _ =>
    unfold validateArguments at h
    split at h
    · next htype => exact (eq_of_beq htype).symm
    · exact absurd h nofun

theorem validated_object (h : validateArguments value schema field = .ok ())
    (htype : schemaType schema = some "object") :
    ∃ entries, value = .object entries ∧ checkRequired entries schema field = .ok () ∧
      validateEntries entries (schema.index "properties") field = .ok () := by
  have hvalue : jsonType value = some "object" := (validated_type h).trans htype
  cases value with
  | object entries =>
    unfold validateArguments at h
    rw [if_pos (by rw [htype]; rfl)] at h
    obtain ⟨_, hrequired, h⟩ := ok_of_bind h
    obtain ⟨_, hentries, _⟩ := ok_of_bind h
    exact ⟨entries, rfl, hrequired, hentries⟩
  | _ => simp [jsonType] at hvalue

theorem validated_string (h : validateArguments value schema field = .ok ())
    (htype : schemaType schema = some "string") :
    ∃ s, value = .string s ∧ checkString s schema field = .ok () := by
  have hvalue : jsonType value = some "string" := (validated_type h).trans htype
  cases value with
  | string s =>
    unfold validateArguments at h
    rw [if_pos (by rw [htype]; rfl)] at h
    obtain ⟨_, hstring, _⟩ := ok_of_bind h
    exact ⟨s, rfl, hstring⟩
  | _ => simp [jsonType] at hvalue

/-- A validated object holds only entries that its schema names, each validated in turn. -/
theorem validated_entry {value schema v : Json} {field key : String} (h : validateArguments value schema field = .ok ())
    (htype : schemaType schema = some "object") (hget : value.get key = some v) :
    ∃ property, (schema.index "properties").get key = some property ∧ validateArguments v property key = .ok () := by
  obtain ⟨entries, rfl, _, hentries⟩ := validated_object h htype
  exact validateEntries_mem hentries (key, v) (Json.mem_of_entry hget)

/-- A validated object has every key that its schema requires. -/
theorem validated_required {field key : String} (h : validateArguments value schema field = .ok ())
    (htype : schemaType schema = some "object")
    (hkey : key ∈ ((schema.index "required").asArray.getD []).filterMap Json.asStr) : ∃ v, value.get key = some v := by
  obtain ⟨entries, rfl, hrequired, _⟩ := validated_object h htype
  unfold checkRequired at hrequired
  dsimp only at hrequired
  split at hrequired
  · exact absurd hrequired nofun
  · next hnone =>
    have hfound := List.find?_eq_none.1 hnone key hkey
    exact Option.ne_none_iff_exists'.1 (by simpa using hfound)

/-- The length and the form of a validated string. -/
theorem checkString_ok {s : String} {schema : Json} (h : checkString s schema field = .ok ()) :
    (limitIn schema "minLength" 0 ≤ s.toList.length ∧ s.toList.length ≤ limitIn schema "maxLength" 4096) ∧
      ((schema.index "pattern").asStr = some profilePattern → s.toList.all isLowerHex = true) ∧
      ((schema.index "pattern").asStr = some displayPattern → isSlot s = true) := by
  unfold checkString at h
  dsimp only at h
  split at h
  · exact absurd h nofun
  · next hlen =>
    split at h
    · exact absurd h nofun
    · next hprofile =>
      split at h
      · exact absurd h nofun
      · next hslot =>
        simp only [Bool.or_eq_true, decide_eq_true_eq, not_or, Nat.not_lt] at hlen
        refine ⟨⟨hlen.1.2, hlen.2⟩, fun hp => ?_, fun hp => ?_⟩
        · simpa [hp] using hprofile
        · simpa [hp] using hslot

/-- The `profile_id` of validated arguments of a profile tool is a text of 32 lower-case hexadecimal digits. -/
theorem profileId_argument (h : validateArguments arguments (boundSchema profileSchema) field = .ok ()) :
    ∃ s, arguments.get "profile_id" = some (.string s) ∧ s.toList.length = 32 ∧ s.toList.all isLowerHex = true := by
  have hrequired : ∃ v, arguments.get "profile_id" = some v :=
    validated_required h rfl (show "profile_id" ∈ ["profile_id"] from List.mem_singleton_self _)
  obtain ⟨v, hv⟩ := hrequired
  obtain ⟨property, hproperty, hvalid⟩ := validated_entry h rfl hv
  obtain rfl := Option.some.inj hproperty
  obtain ⟨s, rfl, hs⟩ := validated_string hvalid rfl
  obtain ⟨⟨hmin, hmax⟩, hhex, _⟩ := checkString_ok hs
  exact ⟨s, hv, Nat.le_antisymm hmax hmin, hhex rfl⟩

/-- The `name` of validated arguments of a display tool, when there is one, is a canonical slot. -/
theorem slot_argument {bounds : List (String × Json)}
    (h : validateArguments arguments (boundSchema (slotSchema bounds)) field = .ok ()) {v : Json}
    (hv : arguments.get "name" = some v) :
    ∃ s, v = .string s ∧ s ≠ "" ∧ s.toList.length ≤ 64 ∧ isSlot s = true := by
  obtain ⟨property, hproperty, hvalid⟩ := validated_entry h rfl hv
  obtain rfl := Option.some.inj hproperty
  obtain ⟨s, rfl, hs⟩ := validated_string hvalid rfl
  obtain ⟨⟨hmin, hmax⟩, _, hslot⟩ := checkString_ok hs
  refine ⟨s, rfl, ?_, hmax, hslot rfl⟩
  rintro rfl
  exact absurd hmin (by decide)

theorem slot_argument_required
    (h : validateArguments arguments (boundSchema (slotSchema [requires ["name"]])) field = .ok ()) :
    ∃ v, arguments.get "name" = some v :=
  validated_required h rfl (show "name" ∈ ["name"] from List.mem_singleton_self _)

/-! ## The tool of a name -/

def profileToolNames : List String := ["cocoa_way_check", "cocoa_way_launch", "cocoa_way_stop"]

def findTool (allowControl : Bool) (name : String) :
    Option Tool := (tools allowControl).find? fun tool => tool.name == name

theorem findTool_control {allowControl : Bool} {name : String}
    (hname : name ∈ controlTools.map Tool.name) (h : findTool allowControl name = some tool) : allowControl = true := by
  cases allowControl with
  | true => rfl
  | false =>
    exfalso
    have hnone : ((controlTools.map Tool.name).all fun name => (findTool false name).isNone) = true := by decide +kernel
    have := List.all_eq_true.1 hnone name hname
    rw [h] at this
    exact absurd this nofun

theorem findTool_create (h : findTool true "cocoa_way_display_create" = some tool) :
    tool.inputSchema = boundSchema (slotSchema []) := by
  obtain rfl := Option.some.inj h
  rfl

theorem findTool_close (h : findTool true "cocoa_way_display_close" = some tool) :
    tool.inputSchema = boundSchema (slotSchema [requires ["name"]]) := by
  obtain rfl := Option.some.inj h
  rfl

theorem findTool_profile {allowControl : Bool} {name : String} (hname : name ∈ profileToolNames)
    (h : findTool allowControl name = some tool) :
    allowControl = true ∧ tool.inputSchema = boundSchema profileSchema := by
  have hcontrol : profileToolNames ⊆ controlTools.map Tool.name := by decide +kernel
  obtain rfl := findTool_control (hcontrol hname) h
  refine ⟨rfl, ?_⟩
  rcases List.mem_cons.1 hname with rfl | hname
  · obtain rfl := Option.some.inj h
    rfl
  · rcases List.mem_cons.1 hname with rfl | hname
    · obtain rfl := Option.some.inj h
      rfl
    · obtain rfl := List.mem_singleton.1 hname
      obtain rfl := Option.some.inj h
      rfl

end CocoaWay.Control
