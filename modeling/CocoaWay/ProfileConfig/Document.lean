import CocoaWay.Control.Selectors
import CocoaWay.Lib.Table

/-!
# Documents of saved profiles

* `Value`, `Entries`, `Document` : a TOML document, as far as the program looks at it; `Document.rows` are its profiles;
* `ContainerSession`, `decodeSession`, `decode` : a saved profile, and reading the profiles of a document;
* `sessionToToml` : the entries a profile is written as;
* `tables`, `validateIds`, `migrate` : the profiles as an array of tables, and the identifiers that are missing.

The editing library keeps what is not touched, with its formatting; documents are taken up to that. An identifier
drawn is the outcome of one read of the random source, `none` where the read fails.
-/

namespace CocoaWay.ProfileConfig
open Lib Control

inductive ConfigError
  /-- An error of the operating system. -/
  | io
  /-- An error of the TOML library. -/
  | toml
  | invalidData (message : String)
  | wouldBlock (message : String)
  | notFound (message : String)
  | invalidInput (message : String)
  | alreadyExists (message : String)
  | other (message : String)

/-! ## Documents -/

/-- A TOML value; `other` is any the program does not look into. -/
inductive Value (V : Type)
  | string (text : String)
  | integer (n : Int)
  | boolean (b : Bool)
  | strings (texts : List String)
  | other (v : V)
  deriving DecidableEq

abbrev Entries (V : Type) := Table String (Value V)

-- the library's instance does not evaluate
instance {V : Type} [DecidableEq V] : DecidableEq (Entries V) :=
  fun t t' => decidable_of_iff (t.entries = t'.entries) AList.ext_iff.symm

/-- An element of an array: an inline table, or something else. -/
inductive Element (V : Type)
  | table (t : Entries V)
  | value (v : Value V)
  deriving DecidableEq

inductive SessionItem (V : Type)
  | absent
  | tables (rows : List (Entries V))
  | array (elements : List (Element V))
  | other (v : Value V)
  deriving DecidableEq

structure Document (V : Type) where
  session : SessionItem V
  /-- Every other entry of the document. -/
  others : Entries V
  deriving DecidableEq

variable {V : Type}

def Element.row? : Element V → Option (Entries V)
  | .table t => some t
  | .value _ => none

/-- The tables of the profiles, in order. -/
def Document.rows (d : Document V) : List (Entries V) :=
  match d.session with
  | .tables rows => rows
  | .array elements => elements.filterMap Element.row?
  | .absent | .other _ => []

/-- The document its text is read as: no table is written for an empty array of tables. -/
def Document.normal (d : Document V) : Document V :=
  match d.session with
  | .tables [] => { d with session := .absent }
  | _ => d

/-! ## Profiles -/

structure ContainerSession where
  id : ProfileId := .unsaved
  name : String
  image : String
  runtime : String := "container"
  display : Option String := none
  presentation : Option String := none
  profile : Option String := none
  app : Option String := none
  command : Option String := none
  socket : Option String := none
  containerSocket : Option String := none
  waypipePath : Option String := none
  waypipeCompress : Option String := none
  waypipeThreads : Option Nat := none
  audio : Bool := true
  runtimeArgs : List String := []
  mounts : List String := []
  env : List String := []

def Value.asStr : Value V → Option String
  | .string text => some text
  | _ => none

def Value.asBool : Value V → Option Bool
  | .boolean b => some b
  | _ => none

def Value.asStrings : Value V → Option (List String)
  | .strings texts => some texts
  | _ => none

/-- A number that fits `usize`; a TOML integer has 64 bits with its sign. -/
def Value.asUsize : Value V → Option Nat
  | .integer (.ofNat n) => if n < 2 ^ 63 then some n else none
  | _ => none

/-- A field that may be missing. -/
def optional {α : Type} (t : Entries V) (key : String) (read : Value V → Option α) : Option (Option α) :=
  match t.get key with
  | none => some none
  | some v => (read v).map some

def required {α : Type} (t : Entries V) (key : String) (read : Value V → Option α) : Option α :=
  (t.get key).bind read

/-- `Deserialize for ProfileId`. -/
def Value.asProfileId (v : Value V) : Option ProfileId := v.asStr.bind fun text => (fromStr text).toOption

/-- The derived `Deserialize`, but for the identifier. -/
def decodeFields (t : Entries V) : Option ContainerSession := do
  let name ← required t "name" Value.asStr
  let image ← required t "image" Value.asStr
  let runtime ← optional t "runtime" Value.asStr
  let display ← optional t "display" Value.asStr
  let presentation ← optional t "presentation" Value.asStr
  let profile ← optional t "profile" Value.asStr
  let app ← optional t "app" Value.asStr
  let command ← optional t "command" Value.asStr
  let socket ← optional t "socket" Value.asStr
  let containerSocket ← optional t "container_socket" Value.asStr
  let waypipePath ← optional t "waypipe_path" Value.asStr
  let waypipeCompress ← optional t "waypipe_compress" Value.asStr
  let waypipeThreads ← optional t "waypipe_threads" Value.asUsize
  let audio ← optional t "audio" Value.asBool
  let runtimeArgs ← optional t "runtime_args" Value.asStrings
  let mounts ← optional t "mounts" Value.asStrings
  let env ← optional t "env" Value.asStrings
  some {
    name, image
    runtime := runtime.getD "container"
    display, presentation, profile, app, command, socket, containerSocket, waypipePath, waypipeCompress, waypipeThreads
    audio := audio.getD true
    runtimeArgs := runtimeArgs.getD []
    mounts := mounts.getD []
    env := env.getD [] }

/-- The derived `Deserialize`; a profile without an identifier is an unsaved one. -/
def decodeSession (t : Entries V) : Option ContainerSession := do
  let id ← optional t "id" Value.asProfileId
  let session ← decodeFields t
  some { session with id := id.getD .unsaved }

def Element.decode : Element V → Option ContainerSession
  | .table t => decodeSession t
  | .value _ => none

/-- `toml::from_str::<Config>`. -/
def decode (d : Document V) : Except ConfigError (List ContainerSession) :=
  match d.session with
  | .absent => .ok []
  | .tables rows => ((rows.mapM decodeSession).map Except.ok).getD (.error .toml)
  | .array elements => ((elements.mapM Element.decode).map Except.ok).getD (.error .toml)
  | .other _ => .error .toml

/-! ## Writing a profile -/

/-- Whether a TOML string can have the character; line feeds, returns and tabs are escaped. -/
def writable (c : Char) : Bool := c = '\n' || c = '\r' || c = '\t' || (0x20 ≤ c.toNat && c.toNat ≠ 0x7F)

/-- `toml_escape` between quotes, as it is read again. -/
def tomlString (text : String) : Option (Value V) := if text.toList.all writable then some (.string text) else none

/-- `toml_string_list` between brackets, as it is read again. -/
def tomlStringList (texts : List String) : Option (Value V) :=
  if texts.all fun text => text.toList.all writable then some (.strings texts) else none

/-- A line for a text that is given and not empty. -/
def textLine (key : String) (text : Option String) : List (String × Option (Value V)) :=
  match text with
  | none => []
  | some text => if text = "" then [] else [(key, tomlString text)]

def listLine (key : String) (texts : List String) : List (String × Option (Value V)) :=
  if texts = [] then [] else [(key, tomlStringList texts)]

/-- The lines of `session_to_toml` below the identifier; `none` is a value that is no TOML. -/
def sessionLines (s : ContainerSession) : List (String × Option (Value V)) :=
  [("name", tomlString s.name), ("runtime", tomlString s.runtime), ("image", tomlString s.image)] ++
    textLine "display" s.display ++ textLine "presentation" s.presentation ++ textLine "profile" s.profile ++
    textLine "command" s.command ++ textLine "app" s.app ++ textLine "socket" s.socket ++
    textLine "container_socket" s.containerSocket ++ textLine "waypipe_path" s.waypipePath ++
    textLine "waypipe_compress" s.waypipeCompress ++
    (s.waypipeThreads.toList.map fun n => ("waypipe_threads", if n < 2 ^ 63 then some (.integer n) else none)) ++
    [("audio", some (.boolean s.audio))] ++ listLine "runtime_args" s.runtimeArgs ++ listLine "mounts" s.mounts ++
    listLine "env" s.env

/-- The table of `session_to_toml(s).parse()`. -/
def sessionToToml (s : ContainerSession) : Except ConfigError (Entries V) :=
  let id : Entries V := if s.id.isSaved then Table.set ∅ "id" (.string s.id.toString) else ∅
  (sessionLines s).foldlM (fun t (key, v) => match v with
    | some v => .ok (t.set key v)
    | none => .error .toml) id

/-! ## Identifiers -/

/-- `tables`. -/
def tables (d : Document V) : Except ConfigError (List (Entries V)) :=
  match d.session with
  | .absent => .ok []
  | .tables rows => .ok rows
  | .array elements =>
    -- an empty array is not taken for one of tables
    if elements = [] then .error (.invalidData "session must be an array of tables")
    else ((elements.mapM Element.row?).map Except.ok).getD (.error (.invalidData "session must be an array of tables"))
  | .other _ => .error (.invalidData "session must be an array of tables")

/-- `ProfileId::new`, until it is none of `seen`. -/
def freshId (seen : List ProfileId) : List (Option ProfileId) → Except ConfigError (ProfileId × List (Option ProfileId))
  | [] | none :: _ => .error .io
  | some id :: draws => if id.isSaved && id ∉ seen then .ok (id, draws) else freshId seen draws

/-- `validate_ids`, with the identifiers seen so far. -/
def validateIds : List ContainerSession → List ProfileId → Except ConfigError (List ProfileId)
  | [], seen => .ok seen
  | s :: sessions, seen =>
    if s.id.isSaved then
      if s.id ∈ seen then
        .error (.invalidData ("duplicate profile ID " ++ s.id.toString ++
          "; assign a fresh ID to the copied profile"))
      else validateIds sessions (s.id :: seen)
    else validateIds sessions seen

/-- The tables without an identifier get one. -/
def insertIds : List ProfileId → List (Entries V) → List (Option ProfileId) →
    Except ConfigError (List (Entries V) × List (Option ProfileId))
  | _, [], draws => .ok ([], draws)
  | seen, t :: rows, draws =>
    if (t.get "id").isSome then do
      let (rows, draws) ← insertIds seen rows draws
      .ok (t :: rows, draws)
    else do
      let (id, draws) ← freshId seen draws
      let (rows, draws) ← insertIds (id :: seen) rows draws
      .ok (t.set "id" (.string id.toString) :: rows, draws)

def migrate (d : Document V) (draws : List (Option ProfileId)) :
    Except ConfigError (Document V × List (Option ProfileId)) := do
  let sessions ← decode d
  let seen ← validateIds sessions []
  if sessions.all fun s => s.id.isSaved then .ok (d, draws)
  else
    let rows ← tables d
    let (rows, draws) ← insertIds seen rows draws
    .ok ({ d with session := .tables rows }, draws)

end CocoaWay.ProfileConfig
