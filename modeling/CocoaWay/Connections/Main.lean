import CocoaWay.Connections.Config
import CocoaWay.Launch.State

/-!
# Saving a connection

* `Location`, `SaveAnswers` : where the file is, and what the system answers to saving;
* `stored`, `place`, `saveConnectionAt` : the entry, its place among the others, and the file that is replaced;
* `saveConnectionAt_ok`, `file_of_error` : what a save has done when it succeeds, and when it fails;
* `saved` : the list that is loaded afterwards.
-/

namespace CocoaWay.Connections
open Lib JsonText
open Launch (trim)

variable {V : Type}

/-! ## The program -/

/-- A path by its directory and its last part. -/
structure Location where
  parent : String
  file : String

def Location.display (path : Location) : String := path.parent ++ "/" ++ path.file

/-- `config_path`. -/
def configPath (home : String) : Location where
  parent := (if home = "" ∨ home.endsWith "/" then home else home ++ "/") ++ ".config/cocoa-way"
  file := "connections.toml"

/-- What the system answers to saving: the error of a step that fails. -/
structure SaveAnswers where
  /-- An error of reading, but for a file that is missing. -/
  read : Option String := none
  createDir : Option String := none
  openTemporary : Option String := none
  /-- A write that fails, with how many bytes were written before. -/
  writeHeader : Option (String × Nat) := none
  writeBody : Option (String × Nat) := none
  sync : Option String := none
  rename : Option String := none
  setPermissions : Option String := none
  /-- Whether a temporary file that is left over can be removed. -/
  removes : Bool := true

def readConfig (toml : Library V) (path : Location) (failure : Option String) (file : Option (List UInt8)) :
    Except String Config :=
  match readToString failure file with
  | .ok content =>
    match fromStr toml content with
    | .ok config => .ok config
    | .error error => .error ("failed to parse " ++ path.display ++ ": " ++ error)
  | .error .notFound => .ok {}
  | .error (.other error) => .error ("failed to read " ++ path.display ++ ": " ++ error)

/-- The entry that is written. -/
def stored (connection : Connection) (config : Config) : Connection :=
  { connection with
    name := trim connection.name
    password := none
    waypipePath := if connection.waypipePath = config.waypipePath then none else connection.waypipePath }

/-- An entry in the place of the first one of its name, or at the end. -/
def place (config : Config) (stored : Connection) : Config × Nat :=
  match config.connection.findIdx? fun existing => existing.name = stored.name with
  | some index => ({ config with connection := config.connection.set index stored }, index)
  | none => ({ config with connection := config.connection ++ [stored] }, config.connection.length)

/-- `write_result`, and the disk after it. -/
def writeResult (a : SaveAnswers) (serialized : List UInt8) (disk : Disk) : Disk × Option String :=
  match a.openTemporary with
  | some error => (disk, some error)
  | none =>
    match a.writeHeader with
    | some (error, n) => ({ disk with temporary := some ((utf8 header).take n) }, some error)
    | none =>
      match a.writeBody with
      | some (error, n) => ({ disk with temporary := some (utf8 header ++ serialized.take n) }, some error)
      | none =>
        match a.sync.or a.rename with
        | some error => ({ disk with temporary := some (utf8 header ++ serialized) }, some error)
        | none => ({ file := some (utf8 header ++ serialized), temporary := none }, a.setPermissions)

/-- The text of the new configuration in the place of the file. -/
def publish (path : Location) (a : SaveAnswers) (serialized : List UInt8) (disk : Disk) : Disk × Except String Unit :=
  match a.createDir with
  | some error => (disk, .error ("failed to create " ++ path.parent ++ ": " ++ error))
  | none =>
    match writeResult a serialized disk with
    | (disk, none) => (disk, .ok ())
    | (disk, some error) =>
      ({ disk with temporary := if a.removes then none else disk.temporary },
        .error ("failed to save " ++ path.display ++ ": " ++ error))

/-- `save_connection_at`. -/
def saveConnectionAt (toml : Library V) (path : Location) (a : SaveAnswers) (connection : Connection) (disk : Disk) :
    Disk × Except String Nat :=
  if trim connection.name = "" then (disk, .error "a saved connection requires a name")
  else if connection.connType = "ssh" ∧ connection.host.all fun host => trim host = "" then
    (disk, .error "an SSH connection requires a host")
  else
    match readConfig toml path a.read disk.file with
    | .error error => (disk, .error error)
    | .ok config =>
      let (config, index) := place config (stored connection config)
      match toStringPretty toml config with
      | .error error => (disk, .error ("failed to serialize connection config: " ++ error))
      | .ok serialized =>
        match publish path a (utf8 serialized) disk with
        | (disk, .ok _) => (disk, .ok index)
        | (disk, .error error) => (disk, .error error)

/-! ## What a save does -/

variable {toml : Library V} {path : Location} {a : SaveAnswers} {b : LoadAnswers} {connection : Connection}
  {config : Config} {disk disk' : Disk} {index : Nat} {serialized : List UInt8} {error : String}

theorem writeResult_none (h : writeResult a serialized disk = (disk', none)) :
    disk' = { file := some (utf8 header ++ serialized) } := by
  unfold writeResult at h
  repeat' split at h
  all_goals first | cases h | skip
  exact (congrArg Prod.fst h).symm

/-- Until the rename has succeeded only the temporary file is written. -/
theorem file_writeResult (h : writeResult a serialized disk = (disk', some error))
    (hpermissions : a.setPermissions = none) :
    disk'.file = disk.file := by
  unfold writeResult at h
  rw [hpermissions] at h
  repeat' split at h
  all_goals cases h
  all_goals rfl

theorem publish_ok (h : publish path a serialized disk = (disk', .ok ())) :
    disk' = { file := some (utf8 header ++ serialized) } := by
  unfold publish at h
  split at h
  · cases h
  · split at h
    next hwrite =>
      cases h
      exact writeResult_none hwrite
    · cases h

theorem file_publish (h : publish path a serialized disk = (disk', .error error))
    (hpermissions : a.setPermissions = none) :
    disk'.file = disk.file := by
  unfold publish at h
  split at h
  · cases h
    rfl
  · split at h
    · cases h
    next hwrite =>
      have hfile := file_writeResult hwrite hpermissions
      cases h
      exact hfile

/-- A save that succeeds has read a configuration and written it with the entry in its place. -/
theorem saveConnectionAt_ok (h : saveConnectionAt toml path a connection disk = (disk', .ok index)) :
    ∃ config text, readConfig toml path a.read disk.file = .ok config ∧
      index = (place config (stored connection config)).2 ∧
      toStringPretty toml (place config (stored connection config)).1 = .ok text ∧
      disk' = { file := some (utf8 header ++ utf8 text) } := by
  unfold saveConnectionAt at h
  split at h
  · cases h
  split at h
  · cases h
  split at h
  · cases h
  next config hread =>
  dsimp only at h
  split at h
  · cases h
  next text htext =>
  split at h
  next hpublish =>
    cases h
    exact ⟨config, text, hread, rfl, htext, publish_ok hpublish⟩
  · cases h

/-- A save that fails has left the file as it was, unless only its permissions could not be set. -/
theorem file_of_error (h : saveConnectionAt toml path a connection disk = (disk', .error error))
    (hpermissions : a.setPermissions = none) : disk'.file = disk.file := by
  unfold saveConnectionAt at h
  split at h
  · cases h
    rfl
  split at h
  · cases h
    rfl
  split at h
  · cases h
    rfl
  dsimp only at h
  split at h
  · cases h
    rfl
  split at h
  · cases h
  next hpublish =>
    cases h
    exact file_publish hpublish hpermissions

/-- Only the entry's other fields go into the file. -/
theorem saveConnectionAt_password (password : Option String) :
    saveConnectionAt toml path a { connection with password } disk = saveConnectionAt toml path a connection disk :=
  rfl

/-! ## What is loaded -/

theorem read_of_readConfig {failure : Option String} (h : readConfig toml path failure disk.file = .ok config) :
    failure = none := by
  cases failure with
  | none => rfl
  | some error => cases h

theorem loaded_of_readConfig (h : readConfig toml path none disk.file = .ok config) (hb : b.read = none) :
    (loadConnections toml b disk).2 = config.connections := by
  unfold readConfig at h
  unfold loadConnections
  rw [hb]
  cases hread : readToString none disk.file with
  | ok content =>
    cases hconfig : fromStr toml content with
    | ok c =>
      simp only [hread, hconfig] at h ⊢
      cases h
      rfl
    | error error =>
      simp only [hread, hconfig] at h
      cases h
  | error error =>
    cases error with
    | notFound =>
      simp only [hread] at h ⊢
      cases h
      rfl
    | other error =>
      simp only [hread] at h
      cases h

theorem loaded_of_printed {text : String} (hround : toml.RoundTrips) (htext : toStringPretty toml config = .ok text)
    (hb : b.read = none) :
    (loadConnections toml b { file := some (utf8 header ++ utf8 text) }).2 = config.forget.connections := by
  unfold loadConnections readToString
  rw [hb, ← utf8_append]
  dsimp only
  rw [fromUtf8_utf8]
  dsimp only
  rw [fromStr_printed hround htext]

/-- The entry as it is loaded. -/
def savedEntry (connection : Connection) (config : Config) : Connection :=
  { connection with
    name := trim connection.name
    password := none
    waypipePath := connection.waypipePath.or config.waypipePath }

theorem forget_connections : config.forget.connections = config.connections.map Connection.forget := by
  unfold Config.connections Config.forget
  rw [List.map_map, List.map_map]
  rfl

theorem place_eq (entry : Connection) :
    place config entry =
      ({ config with connection :=
          config.connection.take (config.connection.findIdx fun existing => existing.name = entry.name) ++
            entry :: config.connection.drop ((config.connection.findIdx fun existing => existing.name =
              entry.name) + 1) },
        config.connection.findIdx fun existing => existing.name = entry.name) := by
  unfold place
  split
  next index hindex =>
    obtain ⟨hlt, hfound⟩ := List.findIdx?_eq_some_iff_findIdx_eq.1 hindex
    rw [hfound, List.set_eq_take_append_cons_drop, if_pos hlt]
  next hnone =>
    have hlength := List.findIdx_eq_length_of_false (List.findIdx?_eq_none_iff.1 hnone)
    rw [hlength, List.take_length, List.drop_eq_nil_of_le (Nat.le_succ _)]

theorem stored_connection :
    { stored connection config with waypipePath := (stored connection config).waypipePath.or config.waypipePath } =
      savedEntry connection config := by
  have hwaypipe : (stored connection config).waypipePath.or config.waypipePath =
      connection.waypipePath.or config.waypipePath := by
    change (if _ then _ else _ : Option String).or _ = _
    split
    next h => rw [h, Option.none_or, Option.or_self]
    · rfl
  rw [hwaypipe]
  rfl

/-- The list that is loaded from the new configuration. -/
theorem connections_place (connection : Connection) (config : Config) :
    let previous := config.connections.map Connection.forget
    let index := previous.findIdx fun existing => existing.name = trim connection.name
    (place config (stored connection config)).2 = index ∧
      (place config (stored connection config)).1.forget.connections =
        previous.take index ++ savedEntry connection config :: previous.drop (index + 1) := by
  have hindex : (config.connections.map Connection.forget).findIdx (fun existing => existing.name =
    trim connection.name) =
      config.connection.findIdx fun existing => existing.name = (stored connection config).name := by
    unfold Config.connections
    rw [List.findIdx_map, List.findIdx_map]
    rfl
  intro previous index
  rw [place_eq, forget_connections]
  refine ⟨hindex.symm, ?_⟩
  rw [show index = _ from hindex]
  unfold Config.connections
  simp only [List.map_append, List.map_cons, List.map_take, List.map_drop, stored_connection]
  rfl

/-! ## Saving and loading -/

/-- No connection of the document has a password. -/
def Document.NoPassword (d : Document V) : Prop :=
  ∀ rows, d.connection = .rows rows → ∀ row ∈ rows, row .password = none

theorem noPassword_serialize (config : Config) : (config.serialize : Document V).NoPassword := by
  intro rows hrows row hrow
  cases hrows
  obtain ⟨c, -, rfl⟩ := List.mem_map.1 hrow
  rfl

/-- The first entry of the name is replaced in place, or the new one appended; the others keep all but their
passwords, and the new password is nowhere. A save that fails before the permissions are set leaves the file as it
was. -/
theorem saved (hround : toml.RoundTrips) (path : Location) (a : SaveAnswers) (connection : Connection) (disk : Disk) :
    (∀ index disk', saveConnectionAt toml path a connection disk = (disk', .ok index) →
      ∃ config, readConfig toml path none disk.file = .ok config ∧
        (∃ d text, toml.print d = .ok text ∧ d.NoPassword ∧ disk'.file = some (utf8 header ++ utf8 text)) ∧
        ∀ b b' : LoadAnswers, b.read = none → b'.read = none →
          let previous := (loadConnections toml b disk).2.map Connection.forget
          index = previous.findIdx (fun existing => existing.name = trim connection.name) ∧
            (loadConnections toml b' disk').2 =
              previous.take index ++ savedEntry connection config :: previous.drop (index + 1)) ∧
    (∀ password, saveConnectionAt toml path a { connection with password } disk =
      saveConnectionAt toml path a connection disk) ∧
    (∀ error disk', a.setPermissions = none → saveConnectionAt toml path a connection disk = (disk', .error error) →
      disk'.file = disk.file) := by
  refine ⟨?_, fun password => saveConnectionAt_password password, fun error disk' hpermissions h =>
    file_of_error h hpermissions⟩
  intro index disk' h
  obtain ⟨config, text, hread, hindex, htext, rfl⟩ := saveConnectionAt_ok h
  have hanswer := read_of_readConfig hread
  rw [hanswer] at hread
  refine ⟨config, hread, ⟨_, text, htext, noPassword_serialize _, rfl⟩, fun b b' hb hb' => ?_⟩
  have hprevious := loaded_of_readConfig hread hb
  have hplace := connections_place connection config
  rw [hprevious, loaded_of_printed hround htext hb', hindex, hplace.1]
  exact ⟨rfl, hplace.2⟩

/-! ## A file with a password -/

def labText : String := "[[connection]]\nname = \"Lab\"\ntype = \"local\"\npassword = \"secret\"\n"

def lab : Connection := { name := "Lab", connType := "local", password := some "secret" }

def labDocument : Document Unit where
  waypipePath := none
  connection := .rows [fun key => if key = .password then some (.string "secret") else lab.serialize key]

def desk : Connection := { name := " Desk ", connType := "local", socket := some "/tmp/desk.sock" }

def deskText : String :=
  "[[connection]]\nname = \"Lab\"\ntype = \"local\"\n\n" ++
  "[[connection]]\nname = \"Desk\"\ntype = \"local\"\nsocket = \"/tmp/desk.sock\"\n"

def deskConfig : Config := { connection := [lab.forget, { desk with name := "Desk" }] }

/-- A library that knows these two documents. -/
def deskLibrary : Library Unit where
  parse content :=
    if content = labText then .ok labDocument
    else if content = header ++ deskText then .ok deskConfig.serialize
    else .error "expected an equals"
  print d := if Config.deserialize d = some deskConfig then .ok deskText else .error "unsupported type"
  message _ := "invalid type"

theorem serialize_forget (config : Config) : (config.forget.serialize : Document V) = config.serialize := by
  have hconnection : ∀ c : Connection, (c.forget.serialize : Row V) = c.serialize := by
    intro c
    funext key
    cases key <;> rfl
  unfold Config.serialize Config.forget
  simp only [List.map_map, Function.comp_def, hconnection]

theorem deskLibrary_roundTrips : deskLibrary.RoundTrips := by
  intro config text h
  change (if _ then _ else _ : Except String String) = _ at h
  split at h
  next hconfig =>
    cases h
    rw [Config.deserialize_serialize, Option.some.injEq] at hconfig
    have hparse : deskLibrary.parse (header ++ deskText) = .ok deskConfig.serialize := by
      have hne : header ++ deskText ≠ labText := by decide
      unfold deskLibrary
      dsimp only
      rw [if_neg hne, if_pos rfl]
    rw [hparse, ← hconfig, serialize_forget]
  · cases h

def labDisk : Disk := { file := some (utf8 labText) }

def deskDisk : Disk := { file := some (utf8 header ++ utf8 deskText) }

theorem readToString_utf8 (text : String) : readToString none (some (utf8 text)) = .ok text := by
  unfold readToString
  dsimp only
  rw [fromUtf8_utf8]

theorem readConfig_of_text {text : String} (h : fromStr toml text = .ok config) :
    readConfig toml path none (some (utf8 text)) = .ok config := by
  unfold readConfig
  rw [readToString_utf8]
  dsimp only
  rw [h]

theorem saveConnectionAt_default {placed : Config} {text : String} (hname : trim connection.name ≠ "")
    (hhost : ¬(connection.connType = "ssh" ∧ connection.host.all fun host => trim host = ""))
    (hread : readConfig toml path none disk.file = .ok config)
    (hplace : place config (stored connection config) = (placed, index))
    (hprinted : toStringPretty toml placed = .ok text) :
    saveConnectionAt toml path {} connection disk =
      ({ file := some (utf8 header ++ utf8 text), temporary := none }, .ok index) := by
  unfold saveConnectionAt
  rw [if_neg hname, if_neg hhost, hread]
  dsimp only
  rw [hplace]
  dsimp only
  rw [hprinted]
  rfl

theorem fromStr_lab : fromStr deskLibrary labText = .ok { connection := [lab] } := by
  have hparse : deskLibrary.parse labText = .ok labDocument := by
    unfold deskLibrary
    dsimp only
    rw [if_pos rfl]
  have hconfig : Config.deserialize labDocument = some { connection := [lab] } := rfl
  unfold fromStr
  rw [hparse]
  dsimp only
  rw [hconfig]

theorem readConfig_lab : readConfig deskLibrary (configPath "/Users/me") none labDisk.file =
    .ok { connection := [lab] } := readConfig_of_text fromStr_lab

theorem printed_desk : toStringPretty deskLibrary deskConfig = .ok deskText := by
  have hconfig : Config.deserialize (deskConfig.serialize : Document Unit) = some deskConfig :=
    Config.deserialize_serialize deskConfig
  unfold toStringPretty deskLibrary
  dsimp only
  rw [if_pos hconfig]

theorem saveConnectionAt_desk :
    saveConnectionAt deskLibrary (configPath "/Users/me") {} desk labDisk = (deskDisk, .ok 1) := by
  let both : Config := { connection := [lab, { desk with name := "Desk" }] }
  have hplace : place { connection := [lab] } (stored desk { connection := [lab] }) = (both, 1) := by decide
  have hforget : (both.serialize : Document Unit) = deskConfig.serialize := serialize_forget both
  have hprinted : toStringPretty deskLibrary both = .ok deskText := by
    unfold toStringPretty
    rw [hforget]
    exact printed_desk
  exact saveConnectionAt_default (by decide) (by decide) readConfig_lab hplace hprinted

theorem saved_desk :
    (loadConnections deskLibrary {} deskDisk).2 = [lab.forget, { desk with name := "Desk" }] := by
  obtain ⟨config, hread, -, hloaded⟩ :=
    (saved deskLibrary_roundTrips (configPath "/Users/me") {} desk labDisk).1 1 deskDisk saveConnectionAt_desk
  rw [readConfig_lab] at hread
  cases hread
  have hprevious := loaded_of_readConfig (b := {}) readConfig_lab rfl
  have h := (hloaded {} {} rfl rfl).2
  rw [hprevious] at h
  rw [h]
  decide

/-- Saving one connection has lost the password of another. -/
theorem password_lost :
    deskLibrary.RoundTrips ∧
      saveConnectionAt deskLibrary (configPath "/Users/me") {} desk labDisk = (deskDisk, .ok 1) ∧
      (loadConnections deskLibrary {} labDisk).2[0]?.map Connection.password = some (some "secret") ∧
      (loadConnections deskLibrary {} deskDisk).2[0]?.map Connection.password = some none := by
  refine ⟨deskLibrary_roundTrips, saveConnectionAt_desk, ?_, ?_⟩
  · rw [loaded_of_readConfig readConfig_lab rfl]
    rfl
  · rw [deskDisk, loaded_of_printed deskLibrary_roundTrips printed_desk rfl]
    rfl

end CocoaWay.Connections
