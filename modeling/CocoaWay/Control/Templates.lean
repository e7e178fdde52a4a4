import CocoaWay.Control.Server
import CocoaWay.Lib.Getopt
import CocoaWay.Lib.JsonText
import CocoaWay.Lib.ShellCommand
import CocoaWay.Lib.TomlTables

/-!
# The guided templates

* `ToolResult.profile`, `ToolResult.connection`, `ToolResult.runWaypipe` : the texts of a template;
* `profileFields`, `connectionFields` : the entries that the TOML texts are meant to have, by the arguments;
* `sshPieces`, `localPieces` : the words that the command is meant to have.
-/

namespace CocoaWay.Control
open Lib Launch JsonText
open Shell (Piece tailText)

/-! ## The texts -/

def tomlString (value : String) : String := "\"" ++ String.ofList (value.toList.flatMap escapeText) ++ "\""

def shellQuote (value : String) : String :=
  "'" ++ String.ofList (value.toList.flatMap fun c => if c = '\'' then "'\\''".toList else [c]) ++ "'"

def ToolResult.profile : ToolResult → Option String
  | .applicationTemplate name image command presentation display audio =>
    let profile := if presentation = "desktop" then "desktop" else "single-app"
    some ("[[session]]\nname = " ++ tomlString name ++ "\nruntime = \"container\"\nimage = " ++ tomlString image ++
      "\ndisplay = " ++ tomlString display ++ "\npresentation = " ++ tomlString presentation ++ "\nprofile = " ++
      tomlString profile ++ "\ncommand = " ++ tomlString command ++ "\naudio = " ++
        (if audio then "true" else "false") ++ "\n")
  | _ => none

/-- The lines in front of those of the kind of connection, and behind them. -/
def connectionLines (name connectionType command display compression : String) (lines : List String) : List String :=
  ["[[connection]]", "name = " ++ tomlString name, "type = " ++ tomlString connectionType] ++ lines ++
    ["app = " ++ tomlString command, "display = " ++ tomlString display, "compression = " ++ tomlString compression]

def joinLines (lines : List String) : String := "\n".intercalate lines ++ "\n"

def ToolResult.connection : ToolResult → Option String
  | .sshTemplate name host user port identity command display compression =>
    some (joinLines (connectionLines name "ssh" command display compression
      (["host = " ++ tomlString host] ++ (user.map fun user => "user = " ++ tomlString user).toList ++
        ["port = " ++ toString port] ++ (identity.map fun identity => "identity = " ++ tomlString identity).toList)))
  | .localTemplate name socket command display compression =>
    some (joinLines (connectionLines name "local" command display compression ["socket = " ++ tomlString socket]))
  | _ => none

def sshTarget (host : String) : Option String → String
  | some user => user ++ "@" ++ host
  | none => host

def ToolResult.runWaypipe : ToolResult → Option String
  | .sshTemplate _ host user port identity command display compression =>
    some ("COCOA_WAY_COMPRESS=" ++ shellQuote compression ++ " ./run_waypipe.sh --display " ++ shellQuote display ++
      " ssh -p " ++ toString port ++ (identity.map fun identity => " -i " ++ shellQuote identity).getD "" ++ " " ++
      shellQuote (sshTarget host user) ++ " " ++ shellQuote command)
  | .localTemplate _ socket _ display _ =>
    some ("./run_waypipe.sh --display " ++ shellQuote display ++ " --socket " ++ shellQuote socket ++ " client")
  | _ => none

/-! ## What is meant -/

/-- The trimmed text of an argument, or the default. -/
def textOr (arguments : Json) (key default : String) : String :=
  match arguments.get key with
  | some (.string s) => if trim s = "" then default else trim s
  | _ => default

/-- The trimmed text of an argument that is given. -/
def givenText (arguments : Json) (key : String) : Option String :=
  match arguments.get key with
  | some (.string s) => if trim s = "" then none else some (trim s)
  | _ => none

theorem optionalText_eq (arguments : Json) (key : String) : optionalText arguments key = givenText arguments key := by
  unfold optionalText givenText
  cases arguments.get key with
  | none => rfl
  | some v =>
    cases v with
    | string s =>
      show (some (trim s)).filter (· ≠ "") = if trim s = "" then none else some (trim s)
      by_cases h : trim s = "" <;> simp [h]
    | _ => rfl

theorem textOr_eq (arguments : Json) (key default : String) :
    textOr arguments key default = (givenText arguments key).getD default := by
  unfold textOr givenText
  cases arguments.get key with
  | none => rfl
  | some v =>
    cases v with
    | string s =>
      dsimp only
      split <;> rfl
    | _ => rfl

def textEntry (key value : String) : Toml.Entry := (key.toList, .scalar (.string value.toList))

def audioOf (arguments : Json) : Bool := ((arguments.get "audio").bind Json.asBool).getD true

def portOf (arguments : Json) : Nat := ((arguments.get "port").bind Json.asU64).getD 22

def profileFields (arguments : Json) : List Toml.Entry :=
  let presentation := textOr arguments "presentation" "rootless"
  [textEntry "name" (textOr arguments "name" "Linux Application"), textEntry "runtime" "container",
    textEntry "image" (textOr arguments "image" ""), textEntry "display" (textOr arguments "display" "auto"),
    textEntry "presentation" presentation,
    textEntry "profile" (if presentation = "desktop" then "desktop" else "single-app"),
    textEntry "command" (textOr arguments "command" ""), ("audio".toList, .scalar (.boolean (audioOf arguments)))]

def isSsh (arguments : Json) : Bool := textOr arguments "type" "ssh" = "ssh"

def connectionFields (arguments : Json) : List Toml.Entry :=
  [textEntry "name" (textOr arguments "name" "Linux Machine"), textEntry "type" (textOr arguments "type" "ssh")] ++
    (if isSsh arguments then
      [textEntry "host" (textOr arguments "host" "")] ++ ((givenText arguments "user").map (textEntry "user")).toList ++
        [("port".toList, .scalar (.integer (portOf arguments)))] ++
        ((givenText arguments "identity").map (textEntry "identity")).toList
    else [textEntry "socket" (textOr arguments "socket" "")]) ++
    [textEntry "app" (textOr arguments "command" "foot"), textEntry "display" (textOr arguments "display" "default"),
      textEntry "compression" (textOr arguments "compression" "zstd")]

/-- The user, if there is one, and the host. -/
def targetOf (arguments : Json) : String := sshTarget (textOr arguments "host" "") (givenText arguments "user")

/-- What is meant for `ssh`. -/
def sshArguments (arguments : Json) : List (List Char) :=
  ["-p".toList, (toString (portOf arguments)).toList] ++
    ((givenText arguments "identity").map fun identity => ["-i".toList, identity.toList]).getD [] ++
    [(targetOf arguments).toList, (textOr arguments "command" "foot").toList]

def sshOptions (arguments : Json) : List (Char × Option (List Char)) :=
  ('p', some (toString (portOf arguments)).toList) ::
    ((givenText arguments "identity").map fun identity => ('i', some identity.toList)).toList

/-- The assignments and the words of the command. -/
def meantAssignments (arguments : Json) : List (List Char × List Char) :=
  if isSsh arguments then [("COCOA_WAY_COMPRESS".toList, (textOr arguments "compression" "zstd").toList)] else []

def meantWords (arguments : Json) : List (List Char) :=
  ["./run_waypipe.sh".toList, "--display".toList, (textOr arguments "display" "default").toList] ++
    if isSsh arguments then "ssh".toList :: sshArguments arguments
    else ["--socket".toList, (textOr arguments "socket" "").toList, "client".toList]

end CocoaWay.Control
