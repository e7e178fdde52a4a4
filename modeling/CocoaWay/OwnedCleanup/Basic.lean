import CocoaWay.CommandCache.Guards
import CocoaWay.Lib.Dialogue
import CocoaWay.Lib.Ipv6
import CocoaWay.Lib.Json
import CocoaWay.Lib.Utf8
import Mathlib.Data.List.Infix

/-!
# Cleanup of an owned container

* `OwnedContainerIdentity` : what an attempt may clean up; its name, token and endpoint are valid by construction;
* `Labels`, `AppleInspect`, `DockerInspect` : the records an inspection reports, as their `Deserialize` reads them;
* `deletionTarget`, `confirmedMissing` : what an inspection says, that succeeded or failed;
* `cleanupOwnedInstance` : the inspection and the deletion, as a dialogue with the runtime.
-/

namespace CocoaWay.OwnedCleanup
open Lib
open CommandCache (Text trim lines)
open Launch (isAsciiAlphanumeric)

/-! ## Identities -/

def OWNER_LABEL : String := "org.cocoa-way.owner"

def MAX_INSPECT_BYTES : Nat := 1024 * 1024

inductive Runtime
  | apple
  | docker
  | orbStack

/-- `char::is_control`. -/
def isControl (c : Char) : Bool := c.toNat < 0x20 || (0x7F ≤ c.toNat && c.toNat ≤ 0x9F)

/-- What `DockerEndpoint::local` accepts: an absolute Unix socket. -/
def isLocalEndpoint (host : String) : Bool :=
  "unix:///".toList.isPrefixOf host.toList && !host.toList.any isControl

structure DockerEndpoint where
  host : String
  isLocal : isLocalEndpoint host = true

def validName (name : String) : Bool :=
  !name.toList.isEmpty && name.toList.head? ≠ some '-' &&
    name.toList.all fun c => isAsciiAlphanumeric c || c = '.' || c = '_' || c = '-'

def validToken (token : String) : Bool :=
  token.toList.length = 64 && token.toList.all fun c => c.isDigit || ('a' ≤ c && c ≤ 'f')

structure OwnedContainerIdentity where
  runtime : Runtime
  name : String
  runtimeBinary : String
  ownerToken : String
  childPath : String
  dockerEndpoint : Option DockerEndpoint
  nameValid : validName name = true
  tokenValid : validToken ownerToken = true

/-! ## The records of an inspection -/

/-- `serde_json::from_slice` : the value of a text with the entries of its objects in order, and the error it reports
where the text is not one, or not of the records asked for. -/
structure Serde where
  fromSlice : List UInt8 → Option Json
  error : List UInt8 → String

/-- Unique string labels. -/
structure Labels where
  entries : List (String × String)
  unique : (entries.map Prod.fst).Nodup

def Labels.get (l : Labels) (key : String) : Option String := (l.entries.find? fun e => e.1 == key).map Prod.snd

/-- `visit_map` : the entries, each key once and each value a string. -/
def stringEntries : List (String × Json) → Option (List (String × String))
  | [] => some []
  | (key, .string value) :: entries => (stringEntries entries).map ((key, value) :: ·)
  | _ :: _ => none

def Labels.deserialize : Json → Option Labels
  | .object entries =>
    match stringEntries entries with
    | some strings => if h : (strings.map Prod.fst).Nodup then some ⟨strings, h⟩ else none
    | none => none
  | _ => none

structure AppleConfiguration where
  id : String
  labels : Labels

def AppleConfiguration.deserialize (v : Json) : Option AppleConfiguration :=
  match Json.structFields ["id", "labels"] v with
  | some [some (.string id), some labels] => (Labels.deserialize labels).map fun labels => ⟨id, labels⟩
  | _ => none

structure AppleInspect where
  id : Option String
  configuration : AppleConfiguration

/-- The identifier may be absent, but not `null`. -/
def AppleInspect.deserialize (v : Json) : Option AppleInspect :=
  match Json.structFields ["id", "configuration"] v with
  | some [none, some configuration] =>
    (AppleConfiguration.deserialize configuration).map fun configuration => ⟨none, configuration⟩
  | some [some (.string id), some configuration] =>
    (AppleConfiguration.deserialize configuration).map fun configuration => ⟨some id, configuration⟩
  | _ => none

structure DockerInspect where
  id : String
  name : String
  labels : Labels

def DockerConfiguration.deserialize (v : Json) : Option Labels :=
  match Json.structFields ["Labels"] v with
  | some [some labels] => Labels.deserialize labels
  | _ => none

def DockerInspect.deserialize (v : Json) : Option DockerInspect :=
  match Json.structFields ["Id", "Name", "Config"] v with
  | some [some (.string id), some (.string name), some config] =>
    (DockerConfiguration.deserialize config).map fun labels => ⟨id, name, labels⟩
  | _ => none

/-- `from_slice` to a vector of records. -/
def records {R : Type} (serde : Serde) (deserialize : Json → Option R) (bytes : List UInt8) : Option (List R) :=
  match serde.fromSlice bytes with
  | some (.array values) => values.mapM deserialize
  | _ => none

/-! ## What an inspection says -/

def checkOwner (identity : OwnedContainerIdentity) (target : String) (labels : Labels) : Except String String :=
  if labels.get OWNER_LABEL ≠ some identity.ownerToken then
    .error "owned cleanup refused: container owner label is missing or belongs to another attempt"
  else .ok target

/-- `deletion_target`. -/
def deletionTarget (serde : Serde) (identity : OwnedContainerIdentity) (bytes : List UInt8) : Except String String :=
  if MAX_INSPECT_BYTES < bytes.length then .error "owned cleanup refused: inspect JSON exceeds 1 MiB"
  else match identity.runtime with
    | .apple =>
      match records serde AppleInspect.deserialize bytes with
      | none => .error ("owned cleanup refused: unknown Apple inspect schema: " ++ serde.error bytes)
      | some [record] =>
        if record.configuration.id ≠ identity.name || record.id.any (· ≠ identity.name) then
          .error "owned cleanup refused: Apple container ID does not match the attempt"
        else checkOwner identity record.configuration.id record.configuration.labels
      | some _ => .error "owned cleanup refused: expected one Apple container"
    | .docker =>
      match records serde DockerInspect.deserialize bytes with
      | none => .error ("owned cleanup refused: unknown Docker inspect schema: " ++ serde.error bytes)
      | some [record] =>
        if record.name ≠ "/" ++ identity.name || record.id.toList.length ≠ 64 ||
            !record.id.toList.all isHexDigit then
          .error "owned cleanup refused: invalid Docker container identity"
        else checkOwner identity record.id record.labels
      | some _ => .error "owned cleanup refused: expected one Docker container"
    | .orbStack => .error "owned cleanup does not delete OrbStack machines"

/-- `to_lowercase`, as a search for an ASCII text sees it: of the other letters only two have an ASCII letter in their
lower case. -/
def toLowercase (text : Text) : Text :=
  text.flatMap fun c =>
    if c = Char.ofNat 0x130 then ['i', Char.ofNat 0x307]
    else if c = Char.ofNat 0x212A then ['k']
    else [c.toLower]

def contains (text : Text) (part : String) : Bool := decide (part.toList <:+: text)

/-- `runtime_output_is_not_found`. -/
def runtimeOutputIsNotFound (output : List UInt8) (name : String) : Bool :=
  let text := toLowercase (fromUtf8Lossy output)
  contains text "no such container" || contains text "no such object" ||
    (contains text (String.ofList (toLowercase name.toList)) &&
      (contains text "not found" || contains text "notfound" || contains text "does not exist"))

/-- `strip_prefix(..).unwrap_or(..)`. -/
def stripStart (start : String) (line : Text) : Text :=
  if start.toList.isPrefixOf line then line.drop start.toList.length else line

/-- `trim_matches('"')`. -/
def trimQuotes (line : Text) : Text := ((line.dropWhile (· = '"')).reverse.dropWhile (· = '"')).reverse

/-- Whether a line says that the instance does not exist. -/
def saysMissing (identity : OwnedContainerIdentity) (line : Text) : Bool :=
  let line := stripStart "Error: " line
  match identity.runtime with
  | .apple => trimQuotes (stripStart "notFound: " line) = ("container not found: " ++ identity.name).toList
  | .docker =>
    let line := stripStart "Error response from daemon: " line
    line = ("No such container: " ++ identity.name).toList || line = ("No such object: " ++ identity.name).toList
  | .orbStack => false

/-- The lines of a diagnostic that are not blank. -/
def diagnosticLines (output : List UInt8) : List Text :=
  ((lines (fromUtf8Lossy output)).map trim).filter fun line => !line.isEmpty

def confirmedMissing (identity : OwnedContainerIdentity) (stderr : List UInt8) : Bool :=
  runtimeOutputIsNotFound stderr identity.name && !(diagnosticLines stderr).isEmpty &&
    (diagnosticLines stderr).all (saysMissing identity)

/-! ## The dialogue with the runtime -/

/-- A command with the environment variables it sets or removes. -/
structure RuntimeCommand where
  program : String
  env : List (String × Option String)
  args : List String

structure Output where
  success : Bool
  /-- The exit status as it is displayed. -/
  status : String
  stdout : List UInt8
  stderr : List UInt8

/-- What `capture` returns for a command. -/
abbrev Answer := Except String Output

def runtimeOutputMessage (output : List UInt8) : Option String :=
  (diagnosticLines output).head?.map fun line => String.ofList (line.take 512)

def runtimeFailureDetail (output : Output) : String :=
  output.status ++ ": " ++
    (((runtimeOutputMessage output.stderr).or (runtimeOutputMessage output.stdout)).getD "no diagnostic output")

/-- `pin_environment`. -/
def pinEnvironment : List (String × Option String) :=
  ["DOCKER_CONTEXT", "DOCKER_HOST", "DOCKER_TLS", "DOCKER_TLS_VERIFY", "DOCKER_CERT_PATH"].map fun name => (name, none)

def appleCommand (identity : OwnedContainerIdentity) (args : List String) : RuntimeCommand where
  program := identity.runtimeBinary
  env := [("PATH", some identity.childPath)]
  args := args

def dockerCommand (identity : OwnedContainerIdentity) (endpoint : DockerEndpoint) (args : List String) :
    RuntimeCommand where
  program := identity.runtimeBinary
  env := ("PATH", some identity.childPath) :: pinEnvironment
  args := "--host" :: endpoint.host :: args

/-- The inspection and the deletion of a target; `none` where the runtime needs no deletion. The deletion asks for the
endpoint again, which is the same. -/
def commands (identity : OwnedContainerIdentity) :
    Except String (Option (RuntimeCommand × (String → RuntimeCommand))) :=
  match identity.runtime with
  | .orbStack => .ok none
  | .apple =>
    .ok (some (appleCommand identity ["inspect", identity.name],
      fun target => appleCommand identity ["delete", "--force", target]))
  | .docker =>
    match identity.dockerEndpoint with
    | none => .error "owned cleanup refused: no captured Docker endpoint; current context will not be used"
    | some endpoint =>
      .ok (some (dockerCommand identity endpoint ["container", "inspect", identity.name],
        fun target => dockerCommand identity endpoint ["rm", "--force", "--", target]))

/-- The deletion, from its answer on. -/
def afterDelete : Answer → Except String Unit
  | .error error => .error ("owned container deletion failed: " ++ error)
  | .ok output =>
    if output.success then .ok () else .error ("owned container deletion failed: " ++ runtimeFailureDetail output)

/-- `cleanup_owned_instance`. -/
def cleanupOwnedInstance (serde : Serde) (identity : OwnedContainerIdentity) :
    Dialogue RuntimeCommand Answer (Except String Unit) :=
  match commands identity with
  | .error error => .done (.error error)
  | .ok none => .done (.ok ())
  | .ok (some (inspect, delete)) =>
    .ask inspect fun
      | .error error => .done (.error ("owned cleanup refused: inspect failed: " ++ error))
      | .ok output =>
        if !output.success then
          if confirmedMissing identity output.stderr then .done (.ok ())
          else .done (.error ("owned cleanup refused: inspect failed: " ++ runtimeFailureDetail output))
        else match deletionTarget serde identity output.stdout with
          | .error error => .done (.error error)
          | .ok target => .ask (delete target) fun answer => .done (afterDelete answer)

end CocoaWay.OwnedCleanup
