import CocoaWay.Activity.Main
import CocoaWay.ProfileConfig.Document

/-!
# Transactions on the configuration file

* `Contents`, `Answers` : what the file holds, and what the system answers at each step of an operation;
* `prepare`, `atomicWrite`, `transaction` : the new document, its publication, and both under the lock;
* `load`, `append`, `replace`, `remove` : the operations; `resolveSession` : a profile, loaded by its identifier;
* `State`, `system` : any sequence of operations and edits by hand.
-/

namespace CocoaWay.ProfileConfig
open Lib Control

variable {V : Type}

/-! ## The file -/

/-- The text of the file: not TOML, or the document it is read as. -/
inductive Contents (V : Type)
  | invalid (text : String)
  | document (d : Document V)
  deriving DecidableEq

abbrev ConfigFile (V : Type) := Option (Contents V)

/-- What the system answers to one operation, step by step. -/
structure Answers (V : Type) where
  /-- `read` without the lock. -/
  peek : Except ConfigError Unit := .ok ()
  lock : Except ConfigError Unit := .ok ()
  read : Except ConfigError Unit := .ok ()
  draws : List (Option ProfileId) := []
  /-- Whether the new text is over 1 MiB. -/
  tooLarge : Bool := false
  /-- The temporary file: its name, creation, permissions, contents and sync. -/
  temporary : Except ConfigError Unit := .ok ()
  /-- An edit of the file by another program during the operation. -/
  edit : Option (ConfigFile V) := none
  reread : Except ConfigError Unit := .ok ()
  rename : Except ConfigError Unit := .ok ()
  /-- The directory is opened and synced after the rename. -/
  syncDirectory : Except ConfigError Unit := .ok ()
  identities : Activity.Identities := ∅
  operations : Activity.Operations := ∅

/-- The document of the header comment that a missing file is read as. -/
def emptyDocument : Document V := { session := .absent, others := ∅ }

def parse : ConfigFile V → Except ConfigError (Document V)
  | none => .ok emptyDocument
  | some (.invalid _) => .error .toml
  | some (.document d) => .ok d

/-- The file as another program left it meanwhile. -/
def Answers.edited (a : Answers V) (file : ConfigFile V) : ConfigFile V := a.edit.getD file

/-! ## A transaction -/

abbrev Operation (V T : Type) :=
  Document V → List (Option ProfileId) → Except ConfigError (T × Document V × List (Option ProfileId))

/-- The result of an operation and the document it leads to. -/
def prepare {T : Type} (a : Answers V) (file : ConfigFile V) (operation : Operation V T) :
    Except ConfigError (T × Document V) := do
  let document ← parse file
  let (document, draws) ← migrate document a.draws
  let (result, document, draws) ← operation document draws
  let (document, _) ← migrate document draws
  if a.tooLarge then .error (.invalidData "configuration exceeds the 1 MiB size limit")
  else .ok (result, document.normal)

/-- `atomic_write` : the file after it, and whether it succeeded. The file is compared and renamed over in one step. -/
def atomicWrite [DecidableEq V] (a : Answers V) (original : ConfigFile V) (updated : Document V) :
    ConfigFile V × Except ConfigError Unit :=
  match a.temporary with
  | .error e => (original, .error e)
  | .ok _ =>
    match a.reread with
    | .error e => (a.edited original, .error e)
    | .ok _ =>
      if a.edited original ≠ original then
        (a.edited original, .error (.wouldBlock
          "configuration changed during transaction; retry without overwriting the newer file"))
      else match a.rename with
        | .error e => (original, .error e)
        | .ok _ => (some (.document updated), a.syncDirectory)

def transaction [DecidableEq V] {T : Type} (a : Answers V) (file : ConfigFile V) (operation : Operation V T) :
    ConfigFile V × Except ConfigError T :=
  match a.lock, a.read with
  | .error e, _ => (file, .error e)
  | .ok _, .error e => (file, .error e)
  | .ok _, .ok _ =>
    match prepare a file operation with
    | .error e => (file, .error e)
    | .ok (result, updated) =>
      if file = some (.document updated) then (file, .ok result)
      else match atomicWrite a file updated with
        | (file, .ok _) => (file, .ok result)
        | (file, .error e) => (file, .error e)

/-! ## The operations -/

/-- `decode`, as the operation of `load`. -/
def decodeOperation : Operation V (List ContainerSession) := fun d draws => do
  let sessions ← decode d
  .ok (sessions, d, draws)

def load [DecidableEq V] (a : Answers V) (file : ConfigFile V) :
    ConfigFile V × Except ConfigError (List ContainerSession) :=
  match a.peek with
  | .error e => (file, .error e)
  | .ok _ =>
    match file with
    | none => transaction a file decodeOperation
    | some _ =>
      match (do
        let sessions ← (parse file).bind decode
        let _ ← validateIds sessions []
        Except.ok sessions : Except ConfigError (List ContainerSession)) with
      | .error e => (file, .error e)
      | .ok sessions =>
        if sessions.all fun s => s.id.isSaved then (file, .ok sessions) else transaction a file decodeOperation

/-- What `resolve_session` returns. -/
def resolveSession [DecidableEq V] (a : Answers V) (file : ConfigFile V) (id : ProfileId) :
    Except ConfigError ContainerSession := do
  let sessions ← (load a file).2
  match sessions.find? fun s => s.id = id with
  | some s => .ok s
  | none => .error (.notFound ("profile " ++ id.toString ++ " no longer exists"))

/-- The row of an identifier. -/
def position (d : Document V) (id : ProfileId) : Except ConfigError (List (Entries V) × Nat) := do
  let rows ← tables d
  match rows.findIdx? fun t => (t.get "id").bind Value.asStr = some id.toString with
  | some i => .ok (rows, i)
  | none => .error (.notFound ("profile " ++ id.toString ++ " no longer exists"))

/-- `runtime_binary_name`. -/
def runtimeBinaryName (runtime : String) : String :=
  let runtime := Launch.trim runtime
  if runtime = "docker" then "docker"
  else if runtime = "orb" ∨ runtime = "orbstack" then "orb"
  else "container"

def containerName (s : ContainerSession) : String := "cocoa-way-" ++ Launch.slugify s.name

def validateProfileName (identities : Activity.Identities) (session : ContainerSession)
    (sessions : List ContainerSession) (replacedId : Option ProfileId) : Except ConfigError Unit :=
  let name := containerName session
  match sessions.find? fun existing => some existing.id ≠ replacedId &&
      runtimeBinaryName existing.runtime = runtimeBinaryName session.runtime && containerName existing = name with
  | some existing =>
    .error (.invalidInput ("Profile name conflicts with '" ++ existing.name ++ "': both resolve to container '" ++
      name ++ "'. Choose a distinct name."))
  | none =>
    if Activity.identityReservedByOther identities session.runtime name replacedId then
      .error (.alreadyExists ("Container identity '" ++ name ++
        "' is reserved by another pending or running profile. Wait for its cleanup or choose a distinct name."))
    else .ok ()

/-- The keys an edit writes. -/
def editedKeys : List String :=
  ["name", "runtime", "image", "display", "presentation", "profile", "command", "app", "socket", "container_socket",
    "waypipe_path", "waypipe_compress", "waypipe_threads", "audio", "runtime_args", "mounts", "env"]

def copyKey (source : Entries V) (t : Entries V) (key : String) : Entries V :=
  match source.get key with
  | some v => t.set key v
  | none => t.remove key

/-- The given keys of a table become those of another; other keys stay. -/
def copyKeys (keys : List String) (source : Entries V) (t : Entries V) : Entries V := keys.foldl (copyKey source) t

def appendOperation (a : Answers V) (session : ContainerSession) : Operation V ProfileId := fun d draws => do
  let sessions ← decode d
  validateProfileName a.identities session sessions none
  let (id, draws) ← freshId (sessions.map ContainerSession.id) draws
  let known ← sessionToToml { session with id := id }
  let rows ← tables d
  let source := rows.find? fun t => (t.get "id").bind Value.asStr = some session.id.toString
  let table := copyKeys ("id" :: editedKeys) known (source.getD known)
  .ok (id, { d with session := .tables (rows ++ [table]) }, draws)

def append [DecidableEq V] (a : Answers V) (file : ConfigFile V) (session : ContainerSession) :
    ConfigFile V × Except ConfigError ProfileId :=
  transaction a file (appendOperation a session)

def replaceOperation (a : Answers V) (id : ProfileId) (session : ContainerSession) :
    Operation V Unit := fun d draws => do
  let (rows, i) ← position d id
  if session.id.isSaved && session.id ≠ id then
    .error (.invalidData "a profile's persistent ID cannot be changed by an edit")
  else
    let sessions ← decode d
    validateProfileName a.identities session sessions (some id)
    let replacement ← sessionToToml { session with id := id }
    .ok ((), { d with session := .tables (rows.modify i (copyKeys editedKeys replacement)) }, draws)

def replace [DecidableEq V] (a : Answers V) (file : ConfigFile V) (id : ProfileId) (session : ContainerSession) :
    ConfigFile V × Except ConfigError Unit :=
  transaction a file (replaceOperation a id session)

def removeOperation (id : ProfileId) : Operation V Unit := fun d draws => do
  let (rows, i) ← position d id
  .ok ((), { d with session := .tables (rows.eraseIdx i) }, draws)

/-- Within `while_inactive`. -/
def remove [DecidableEq V] (a : Answers V) (file : ConfigFile V) (id : ProfileId) :
    ConfigFile V × Except ConfigError Unit :=
  if Activity.inactive a.operations id then transaction a file (removeOperation id)
  else (file, .error (.other ("Stop this application and wait for its pending checks, launches and cleanup before " ++
    "deleting its profile.")))

/-! ## Any sequence of operations -/

inductive Op
  | load
  | append (session : ContainerSession)
  | replace (id : ProfileId) (session : ContainerSession)
  | remove (id : ProfileId)

inductive Outcome
  | sessions (sessions : List ContainerSession)
  | created (id : ProfileId)
  | done

def perform [DecidableEq V] (a : Answers V) (file : ConfigFile V) : Op → ConfigFile V × Except ConfigError Outcome
  | .load => ((load a file).1, (load a file).2.map .sessions)
  | .append session => ((append a file session).1, (append a file session).2.map .created)
  | .replace id session => ((replace a file id session).1, (replace a file id session).2.map fun _ => .done)
  | .remove id => ((remove a file id).1, (remove a file id).2.map fun _ => .done)

structure State (V : Type) where
  file : ConfigFile V := none
  /-- Whether the file is as an operation left it. -/
  ours : Bool := true

inductive Event (V : Type)
  | operation (op : Op) (answers : Answers V)
  | edit (file : ConfigFile V)

def step [DecidableEq V] (s : State V) : Event V → Option (State V)
  | .operation op a =>
    let file := (perform a s.file op).1
    some { file := file, ours := if file = s.file then s.ours else decide (file ≠ a.edited s.file) }
  | .edit file => some { file := file, ours := false }

def system [DecidableEq V] : System (State V) (Event V) where
  init := {}
  step := step

end CocoaWay.ProfileConfig
