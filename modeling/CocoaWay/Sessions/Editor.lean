import CocoaWay.Sessions.Plan

/-!
# The dialog of a profile

* `AddSessionDefaults`, `defaultsFromSession` : what the dialog is opened with;
* `Dialog`, `showSessionDialog`, `dialogSession` : its controls, and the profile that is made of them;
* `saveSessionDialog` : that profile is added to the configuration, or takes the place of the edited one;
* `editUnchanged` : a profile whose dialog is opened and saved;
* `launched`, `LaunchesAlike`, `KeepsLaunch` : a launch, by its plan and its display, and that it stays as it was.
-/

namespace CocoaWay.Sessions

open Control (ProfileId)
open Launch (trim DisplayAssignment)
open ProfileConfig (ContainerSession ConfigError ConfigFile Answers append replace resolveSession)

variable {V : Type}

/-! ## Texts -/

/-- `field_string`. -/
def fieldString (value : String) : String := trim value

def semicolonList (value : String) : List String :=
  ((value.toList.splitOn ';').map fun item => trim (String.ofList item)).filter (· ≠ "")

def normalizeProfile (profile : String) : Option String :=
  let value := asciiLowercase (trim profile)
  if value = "" then none
  else if value ∈ ["desktop", "niri", "niri-desktop"] then some "niri"
  else if value ∈ ["app", "single", "single-app"] then some "single-app"
  else if value ∈ ["debug", "shell", "sh"] then some "shell"
  else some value

def defaultSessionName (image : String) : String :=
  if "niri".toList <:+: (asciiLowercase image).toList then "Niri Desktop"
  else
    let tail := ((image.toList.splitOn '/').getLast?.getD []).takeWhile (· ≠ ':')
    String.ofList ((if tail.isEmpty then "Application".toList else tail).map fun c => if c = '-' then ' ' else c)

def defaultGuiRuntimeArgs (runtime : String) (profile : Option String) : List String :=
  if trim runtime ∈ ["container", "apple", "apple-container"] then
    if profile = some "niri" ∨ profile = some "desktop" then ["--memory", "4G", "--shm-size", "1G", "--cpus", "4"]
    else ["--memory", "2G", "--shm-size", "512M", "--cpus", "4"]
  else []

/-! ## The dialog -/

structure AddSessionDefaults where
  name : String
  runtime : String
  display : String
  presentation : String
  profile : String
  image : String
  command : String
  mounts : String
  env : String
  audio : Bool

def defaultsFromSession (s : ContainerSession) : AddSessionDefaults where
  name := s.name
  runtime := s.runtime
  display := s.display.getD "auto"
  presentation := s.presentation.getD "desktop"
  profile := s.profile.getD "niri"
  image := s.image
  command := (s.command.or s.app).getD ""
  mounts := "; ".intercalate s.mounts
  env := "; ".intercalate s.env
  audio := s.audio

/-- The texts of the fields, and the selected items of the popups. -/
structure Dialog where
  name : String
  runtime : String
  display : String
  presentation : Nat
  profile : String
  image : String
  command : String
  mounts : String
  env : String
  audio : Nat

def showSessionDialog (defaults : AddSessionDefaults) : Dialog where
  name := defaults.name
  runtime := if defaults.runtime = "" then "container" else defaults.runtime
  display := if defaults.display = "" then "auto" else defaults.display
  presentation := if asciiLowercase defaults.presentation = "rootless" then 1 else 0
  profile := if defaults.profile = "" then "niri" else defaults.profile
  image := defaults.image
  command := defaults.command
  mounts := defaults.mounts
  env := defaults.env
  audio := if defaults.audio then 1 else 0

/-- The profile of the dialog: a new one, or the edited one with the fields that the dialog does not show. -/
def dialogSession (d : Dialog) (editTarget : Option ContainerSession) : Except String ContainerSession :=
  let name := fieldString d.name
  let runtime := fieldString d.runtime
  let display := fieldString d.display
  let image := fieldString d.image
  let command := fieldString d.command
  if image = "" then .error "Enter an image reference before creating the session."
  else
    let runtime := if runtime = "" then "container" else runtime
    if d.audio = 1 ∧ runtime ∈ ["docker", "orb", "orbstack"] then
      .error "Audio forwarding currently requires Apple Container."
    else
      let profile := normalizeProfile (fieldString d.profile)
      let session : ContainerSession :=
        { name := if name = "" then defaultSessionName image else name
          image, runtime, profile
          display := some (if display = "" then "auto" else display)
          presentation := some (if d.presentation = 1 then "rootless" else "desktop")
          command := if command = "" then none else some command
          audio := d.audio = 1
          runtimeArgs := defaultGuiRuntimeArgs runtime profile
          mounts := semicolonList (fieldString d.mounts)
          env := semicolonList (fieldString d.env) }
      match editTarget with
      | none => .ok session
      | some original =>
        .ok { session with
          id := original.id
          app := original.app
          socket := original.socket
          containerSocket := original.containerSocket
          waypipePath := original.waypipePath
          waypipeCompress := original.waypipeCompress
          waypipeThreads := original.waypipeThreads
          runtimeArgs := original.runtimeArgs }

inductive SaveError
  /-- The dialog shows an alert with this text. -/
  | refused (alert : String)
  | failed (error : ConfigError)

/-- The end of `show_session_dialog`, when Save is chosen: the configuration, and the profile that is selected then. -/
def saveSessionDialog [DecidableEq V] (a : Answers V) (file : ConfigFile V) (d : Dialog)
    (editTarget : Option ContainerSession) : ConfigFile V × Except SaveError ProfileId :=
  match dialogSession d editTarget with
  | .error alert => (file, .error (.refused alert))
  | .ok session =>
    if editTarget.isSome then
      let (file, result) := replace a file session.id session
      (file, (result.mapError .failed).map fun _ => session.id)
    else
      let (file, result) := append a file session
      (file, result.mapError .failed)

def editUnchanged [DecidableEq V] (a : Answers V) (file : ConfigFile V) (s : ContainerSession) :
    ConfigFile V × Except SaveError ProfileId :=
  saveSessionDialog a file (showSessionDialog (defaultsFromSession s)) (some s)

/-! ## Launches -/

/-- The profile, as the choice of its display looks at it. -/
def launched (s : ContainerSession) : Launch.Session ProfileId where
  id := s.id
  name := s.name
  runtime := s.runtime
  display := s.display
  presentation := s.presentation
  rest := ""

structure LaunchesAlike (s t : ContainerSession) : Prop where
  plan : ∀ root, launchPlan root s = launchPlan root t
  display : ∀ inUse, Launch.chooseDisplayAssignment (launched s) inUse =
    Launch.chooseDisplayAssignment (launched t) inUse

/-- A profile that is opened and saved is stored, and what is loaded of it then is launched as before. -/
def KeepsLaunch [DecidableEq V] (a : Answers V) (file : ConfigFile V) (s : ContainerSession) : Prop :=
  (editUnchanged a file s).2 = .ok s.id ∧
    ∃ t, resolveSession {} (editUnchanged a file s).1 s.id = .ok t ∧ LaunchesAlike t s

end CocoaWay.Sessions
