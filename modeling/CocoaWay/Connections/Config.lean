import CocoaWay.Lib.JsonText
import CocoaWay.ProfileConfig.Document

/-!
# Saved connections

* `Row`, `Document` : what a TOML file holds, as far as the program looks at it;
* `Connection`, `Config` : the connections and their file, with `serialize` and `deserialize` as they are derived;
* `Library` : the TOML library; `fromStr`, `toStringPretty` : reading and writing a file's text;
* `Disk`, `loadConnections` : the file, and the list of the menu.

A row is an element of the array of connections, however it is written; keys the program does not know are ignored by
it and left out.
-/

namespace CocoaWay.Connections
open Lib JsonText
open ProfileConfig (Value)

variable {V : Type}

/-! ## Documents -/

/-- The keys of a connection. -/
inductive Key
  | name
  | type
  | host
  | user
  | port
  | identity
  | socket
  | app
  | display
  | compression
  | password
  | waypipePath
  deriving DecidableEq

abbrev Row (V : Type) := Key → Option (Value V)

/-- What stands under `connection`. -/
inductive Item (V : Type)
  | absent
  | rows (rows : List (Row V))
  | other (v : Value V)

structure Document (V : Type) where
  waypipePath : Option (Value V)
  connection : Item V

/-- A number of 16 bits. -/
def asU16 : Value V → Option UInt16
  | .integer (.ofNat n) => if n < 2 ^ 16 then some (UInt16.ofNat n) else none
  | _ => none

/-- A field that may be missing. -/
def optional {α : Type} (v : Option (Value V)) (read : Value V → Option α) : Option (Option α) :=
  match v with
  | none => some none
  | some v => (read v).map some

@[simp] theorem optional_string (text : Option String) :
    optional (text.map (Value.string (V := V))) Value.asStr = some text := by
  cases text <;> rfl

theorem asU16_integer (port : UInt16) : asU16 (.integer port.toNat : Value V) = some port := by
  have hlt := port.toNat_lt
  change (if port.toNat < 2 ^ 16 then _ else _) = _
  rw [if_pos hlt, UInt16.ofNat_toNat]

@[simp] theorem optional_port (port : Option UInt16) :
    optional (port.map fun p => (.integer p.toNat : Value V)) asU16 = some port := by
  cases port with
  | none => rfl
  | some port => exact congrArg (Option.map some) (asU16_integer port)

/-! ## Connections -/

def defaultType : String := "ssh"

structure Connection where
  name : String
  connType : String := defaultType
  host : Option String := none
  user : Option String := none
  port : Option UInt16 := none
  identity : Option String := none
  socket : Option String := none
  app : Option String := none
  display : Option String := none
  compression : Option String := none
  password : Option String := none
  waypipePath : Option String := none
  deriving DecidableEq

/-- `Deserialize for Connection`. -/
def Connection.deserialize (row : Row V) : Option Connection := do
  let name ← (row .name).bind Value.asStr
  let connType ← optional (row .type) Value.asStr
  let host ← optional (row .host) Value.asStr
  let user ← optional (row .user) Value.asStr
  let port ← optional (row .port) asU16
  let identity ← optional (row .identity) Value.asStr
  let socket ← optional (row .socket) Value.asStr
  let app ← optional (row .app) Value.asStr
  let display ← optional (row .display) Value.asStr
  let compression ← optional (row .compression) Value.asStr
  let password ← optional (row .password) Value.asStr
  let waypipePath ← optional (row .waypipePath) Value.asStr
  some {
    name
    connType := connType.getD defaultType
    host, user, port, identity, socket, app, display, compression, password, waypipePath }

/-- `Serialize for Connection`. -/
def Connection.serialize (c : Connection) : Row V
  | .name => some (.string c.name)
  | .type => some (.string c.connType)
  | .host => c.host.map .string
  | .user => c.user.map .string
  | .port => c.port.map fun port => .integer port.toNat
  | .identity => c.identity.map .string
  | .socket => c.socket.map .string
  | .app => c.app.map .string
  | .display => c.display.map .string
  | .compression => c.compression.map .string
  -- never written
  | .password => none
  | .waypipePath => c.waypipePath.map .string

/-- The connection as it is read again. -/
def Connection.forget (c : Connection) : Connection := { c with password := none }

theorem Connection.deserialize_serialize (c : Connection) : deserialize (c.serialize : Row V) = some c.forget := by
  have htype : optional (some (.string c.connType : Value V)) Value.asStr = some (some c.connType) := rfl
  have hpassword : optional (none : Option (Value V)) Value.asStr = some none := rfl
  simp only [deserialize, serialize, Option.bind_some, Value.asStr, htype, hpassword, optional_string, optional_port,
    Option.bind_eq_bind, Option.getD_some]
  rfl

theorem Connection.mapM_deserialize_serialize (connections : List Connection) :
    (connections.map fun c => (c.serialize : Row V)).mapM deserialize = some (connections.map forget) := by
  induction connections with
  | nil => rfl
  | cons c connections ih =>
    rw [List.map_cons, List.mapM_cons, deserialize_serialize, ih]
    rfl

structure Config where
  waypipePath : Option String := none
  connection : List Connection := []
  deriving DecidableEq

/-- `Deserialize for Config`. -/
def Config.deserialize (d : Document V) : Option Config := do
  let waypipePath ← optional d.waypipePath Value.asStr
  let connection ← match d.connection with
    | .absent => some []
    | .rows rows => rows.mapM Connection.deserialize
    | .other _ => none
  some { waypipePath, connection }

/-- `Serialize for Config`. -/
def Config.serialize (config : Config) : Document V where
  waypipePath := config.waypipePath.map .string
  connection := .rows (config.connection.map Connection.serialize)

def Config.forget (config : Config) : Config := { config with connection := config.connection.map Connection.forget }

theorem Config.deserialize_serialize (config : Config) :
    deserialize (config.serialize : Document V) = some config.forget := by
  simp only [deserialize, serialize, optional_string, Connection.mapM_deserialize_serialize, Option.bind_eq_bind,
    Option.bind_some]
  rfl

/-! ## The library -/

/-- The TOML library. -/
structure Library (V : Type) where
  parse : String → Except String (Document V)
  print : Document V → Except String String
  /-- What it says of a document that is no configuration. -/
  message : Document V → String

def header : String := "# Cocoa-Way saved connections. Passwords are never stored.\n"

/-- What is printed for a configuration is read back, below a comment. -/
def Library.RoundTrips (toml : Library V) : Prop :=
  ∀ (config : Config) (text : String), toml.print config.serialize = .ok text →
    toml.parse (header ++ text) = .ok config.serialize

variable {toml : Library V}

/-- `toml::from_str::<Config>`. -/
def fromStr (toml : Library V) (content : String) : Except String Config :=
  match toml.parse content with
  | .error e => .error e
  | .ok d =>
    match Config.deserialize d with
    | some config => .ok config
    | none => .error (toml.message d)

/-- `toml::to_string_pretty`. -/
def toStringPretty (toml : Library V) (config : Config) : Except String String := toml.print config.serialize

theorem fromStr_printed {config : Config} {text : String} (hround : toml.RoundTrips)
    (h : toStringPretty toml config = .ok text) : fromStr toml (header ++ text) = .ok config.forget := by
  unfold fromStr
  rw [hround config text h]
  dsimp only
  rw [Config.deserialize_serialize]

/-! ## The file -/

/-- The file of the connections and the temporary one beside it. -/
structure Disk where
  file : Option (List UInt8)
  temporary : Option (List UInt8) := none

inductive ReadError
  | notFound
  | other (error : String)

/-- `fs::read_to_string`, where `failure` is an error of the system. -/
def readToString (failure : Option String) (file : Option (List UInt8)) : Except ReadError String :=
  match failure with
  | some error => .error (.other error)
  | none =>
    match file with
    | none => .error .notFound
    | some bytes =>
      match fromUtf8 bytes with
      | some content => .ok content
      | none => .error (.other "stream did not contain valid UTF-8")

/-- The file that is created where there is none. -/
def exampleText : String :=
  "# cocoa-way connections\n" ++
  "# Each [[connection]] block defines a remote machine to connect to via waypipe.\n" ++
  "# Optional: set this if waypipe is installed somewhere cocoa-way cannot discover.\n" ++
  "# waypipe_path = \"/opt/homebrew/bin/waypipe\"\n" ++
  "\n" ++
  "# --- Local VM example (Unix socket) ---\n" ++
  "# [[connection]]\n" ++
  "# name = \"Linux VM\"\n" ++
  "# type = \"local\"\n" ++
  "# socket = \"/tmp/waypipe-vm.sock\"\n" ++
  "# app = \"weston-terminal\"\n" ++
  "# display = \"default\"\n" ++
  "\n" ++
  "# --- Remote SSH example ---\n" ++
  "# [[connection]]\n" ++
  "# name = \"Home Server\"\n" ++
  "# type = \"ssh\"\n" ++
  "# host = \"192.168.1.100\"\n" ++
  "# user = \"jiaxi\"\n" ++
  "# app = \"weston-terminal\"\n" ++
  "# port = 22\n" ++
  "# identity = \"~/.ssh/id_rsa\"\n" ++
  "# display = \"display-1\"\n" ++
  "# compression = \"zstd\"\n"

/-- What the system answers to loading. -/
structure LoadAnswers where
  /-- An error of reading, but for a file that is missing. -/
  read : Option String := none
  /-- How many bytes of the example are written, if its file is created. -/
  created : Option Nat := some (utf8 exampleText).length

/-- The connections of a configuration, with the path of Waypipe they have in common. -/
def Config.connections (config : Config) : List Connection :=
  config.connection.map fun c => { c with waypipePath := c.waypipePath.or config.waypipePath }

/-- `load_connections`. -/
def loadConnections (toml : Library V) (a : LoadAnswers) (disk : Disk) : Disk × List Connection :=
  match readToString a.read disk.file with
  | .error .notFound => ({ disk with file := a.created.map fun n => (utf8 exampleText).take n }, [])
  | .error (.other _) => (disk, [])
  | .ok content =>
    match fromStr toml content with
    | .ok config => (disk, config.connections)
    | .error _ => (disk, [])

end CocoaWay.Connections
