import CocoaWay.ProfileConfig.Transactions

/-!
# What a profile is launched with

* `sessionCommand`, `waypipeTuningArgs`, `defaultContainerSocket`, `containerName` and so on : what launching takes
  from the fields of a profile;
* `validateSession` : the checks before a launch, with their messages;
* `launchPlan` : all of it together;
* `directRunArgs`, `relayRunArgs` : the options of the container, as the runtimes other than Apple Container get them,
  and as the relay helper gives them.
-/

namespace CocoaWay.Sessions

open Launch (trim isWhitespace isAsciiAlphanumeric toAsciiLowercase slugify)
open ProfileConfig (ContainerSession runtimeBinaryName containerName)

/-! ## Texts -/

/-- `char::is_control`. -/
def isControl (c : Char) : Bool := c.toNat < 32 || (127 ≤ c.toNat && c.toNat < 160)

/-- `str::to_ascii_lowercase`. -/
def asciiLowercase (s : String) : String := String.ofList (s.toList.map toAsciiLowercase)

/-- `split_whitespace().next()`. -/
def firstWord (s : String) : Option String :=
  let word := (s.toList.dropWhile isWhitespace).takeWhile fun c => !isWhitespace c
  if word.isEmpty then none else some (String.ofList word)

/-- `trim_matches(['"', '\''])`. -/
def trimQuotes (s : String) : String :=
  let quote := fun c : Char => c.toNat = 34 || c.toNat = 39
  String.ofList ((s.toList.dropWhile quote).reverse.dropWhile quote).reverse

/-- `Path::file_name`. -/
def fileName (path : String) : Option String :=
  let components := (path.toList.splitOn '/').filter fun part => !(part.isEmpty || part = ['.'])
  (components.getLast?.filter fun part => part ≠ ['.', '.']).map String.ofList

/-- `Path::is_absolute`. -/
def isAbsolute (path : String) : Bool := path.toList.head? = some '/'

def hasNul (s : String) : Bool := s.toList.any fun c => c.toNat = 0

/-! ## Runtimes -/

inductive ContainerRuntime
  | apple
  | docker
  | orbStack
  deriving DecidableEq

def normalizeContainerRuntime (runtime : String) : ContainerRuntime :=
  if trim runtime = "docker" then .docker
  else if trim runtime = "orb" ∨ trim runtime = "orbstack" then .orbStack
  else .apple

/-! ## Commands -/

def sessionCommand (s : ContainerSession) : String :=
  match s.command with
  | some command => command
  | none =>
    if s.profile = some "niri" then "niri"
    else if s.profile = some "shell" then "sh"
    else s.app.getD "weston-terminal"

def sessionCommandBinary (s : ContainerSession) : Option String :=
  (firstWord (sessionCommand s)).bind fun word =>
    let first := trimQuotes word
    if first = "" ∨ '=' ∈ first.toList then none
    else if first ∈ ["exec", "env", "sh", "bash"] then none
    else some first

def nestedCompositors : List String := ["niri", "hyprland", "sway", "wayfire", "weston"]

def usesNestedWaylandCompositor (s : ContainerSession) : Bool :=
  asciiLowercase (s.profile.getD "") ∈ nestedCompositors ||
    (((sessionCommandBinary s).bind fileName).map asciiLowercase).any (· ∈ nestedCompositors)

def waypipeTuningArgs (s : ContainerSession) (runtime : ContainerRuntime) : List String :=
  let compress := ((s.waypipeCompress.map trim).filter (· ≠ "")).or (if runtime = .apple then some "none" else none)
  (compress.toList.flatMap fun c => ["--compress", c]) ++
    s.waypipeThreads.toList.flatMap fun n => ["--threads", toString n]

/-- The path of `waypipe_path`, unless it is blank; then Waypipe is looked for. -/
def configuredWaypipe (s : ContainerSession) : Option String := (s.waypipePath.filter (trim · ≠ "")).map trim

/-! ## Sockets -/

def unixSocketPathBytes : Nat := 103

def waypipeClientSuffixReserve : Nat := 28

/-- `stable_name_hash`: 64 bits of FNV-1a. -/
def stableNameHash (value : String) : Nat :=
  (value.toList.flatMap String.utf8EncodeChar).foldl
    (fun hash byte => (hash ^^^ byte.toNat) * 0x100000001b3 % 2 ^ 64) 0xcbf29ce484222325

/-- `{:08x}`. -/
def hex8 (n : Nat) : List Char := (List.range 8).map fun k => Control.hexDigit (n / 16 ^ (7 - k) % 16)

/-- The file name of a default socket: 24 characters of the slug and 32 bits of the hash. -/
def socketName (name : String) : String :=
  String.ofList ((slugify name).toList.take 24 ++ '-' :: hex8 (stableNameHash name % 2 ^ 32) ++ ".sock".toList)

/-- `default_container_socket`, in `short_host_socket_root`. -/
def defaultContainerSocket (root name : String) : String := root ++ "/" ++ socketName name

def defaultContainerSocketPath (hostSocket : String) : ContainerRuntime → String
  | .apple => "/tmp/cocoa-way/waypipe.sock"
  | .docker | .orbStack => hostSocket

def hostSocket (root : String) (s : ContainerSession) : String := s.socket.getD (defaultContainerSocket root s.name)

def containerSocket (root : String) (s : ContainerSession) : String :=
  s.containerSocket.getD (defaultContainerSocketPath (hostSocket root s) (normalizeContainerRuntime s.runtime))

/-! ## Validation -/

inductive LaunchError
  | invalidSession (session hint : String)
  | unsupportedDisplay (display hint : String)
  deriving DecidableEq

def isRootless (s : ContainerSession) : Bool := s.presentation.any fun value => asciiLowercase (trim value) = "rootless"

def validateDisplaySlot (s : ContainerSession) : Except LaunchError Unit :=
  let display := ((s.display.map trim).filter (· ≠ "")).getD "auto"
  if display.toList.any isControl then
    .error (.unsupportedDisplay display "Display names cannot contain control characters.")
  else .ok ()

def validatePresentationCommand (s : ContainerSession) : Except LaunchError Unit :=
  if !isRootless s then .ok ()
  else
    match sessionCommandBinary s with
    | none => .ok ()
    | some command =>
      let binary := asciiLowercase ((fileName command).getD command)
      if binary = "xterm" then
        .error (.unsupportedDisplay "rootless" "xterm is an X11 application, but Cocoa-Way rootless currently accepts native Wayland applications. Use foot for validation, or use desktop mode until Xwayland integration is available.")
      else if binary = "niri" ∨ binary = "hyprland" then
        .error (.unsupportedDisplay "rootless" (command ++
          " is a desktop compositor. Select desktop presentation for compositor sessions; rootless presentation is for individual native Wayland applications."))
      else .ok ()

def refusedHostSocket (socket : String) : Bool :=
  !isAbsolute socket || hasNul socket || unixSocketPathBytes < socket.utf8ByteSize + waypipeClientSuffixReserve

def refusedContainerSocket (socket : String) : Bool :=
  !isAbsolute socket || hasNul socket || unixSocketPathBytes < socket.utf8ByteSize

def validateSession (s : ContainerSession) : Except LaunchError Unit :=
  let invalid (hint : String) : Except LaunchError Unit := .error (.invalidSession s.name hint)
  if trim s.runtime ∉ ["container", "apple", "apple-container", "docker", "orb", "orbstack"] then
    invalid ("Unknown runtime '" ++ s.runtime ++
      "'. Set runtime to container, docker, or orbstack in container-sessions.toml. SSH connections belong in connections.toml.")
  else if trim s.name = "" ∨ s.name.toList.any isControl then
    invalid "Set a nonempty name without control characters in container-sessions.toml."
  else if trim s.image = "" ∨ (s.image.toList.any fun c => isWhitespace c || isControl c) ∨
    s.image.toList.head? = some '-' then
    invalid "Set image to a nonempty local image reference without whitespace or a leading '-' in container-sessions.toml."
  else if trim (sessionCommand s) = "" ∨ hasNul (sessionCommand s) then
    invalid "Set command/app to a nonempty GUI command without NUL bytes in container-sessions.toml."
  else if s.waypipeThreads = some 0 then
    invalid "Set waypipe_threads to a positive integer, or remove it to use Waypipe's default."
  else if s.socket.any refusedHostSocket then
    invalid "Set socket to a short absolute host socket path, or remove it to use the default."
  else if s.containerSocket.any refusedContainerSocket then
    invalid "Set container_socket to a short absolute guest socket path, or remove it to use the default."
  else do
    validateDisplaySlot s
    validatePresentationCommand s

/-! ## Plans -/

/-- What a launch of a profile does with its fields. -/
structure LaunchPlan where
  validation : Except LaunchError Unit
  runtime : ContainerRuntime
  runtimeBinary : String
  containerName : String
  image : String
  command : String
  rootless : Bool
  bridgeNestedClipboard : Bool
  waypipe : Option String
  waypipeArgs : List String
  hostSocket : String
  containerSocket : String
  audio : Bool
  env : List String
  mounts : List String
  runtimeArgs : List String

/-- `check_session` and `launch_checked_session`; default sockets are in `root`. -/
def launchPlan (root : String) (s : ContainerSession) : LaunchPlan where
  validation := validateSession s
  runtime := normalizeContainerRuntime s.runtime
  runtimeBinary := runtimeBinaryName s.runtime
  containerName := containerName s
  image := s.image
  command := sessionCommand s
  rootless := isRootless s
  bridgeNestedClipboard := usesNestedWaylandCompositor s
  waypipe := configuredWaypipe s
  waypipeArgs := waypipeTuningArgs s (normalizeContainerRuntime s.runtime)
  hostSocket := hostSocket root s
  containerSocket := containerSocket root s
  audio := s.audio
  env := s.env
  mounts := s.mounts
  runtimeArgs := s.runtimeArgs

/-! ## Options of the container -/

def runtimeDirKey : String := "XDG_RUNTIME_DIR="

def defaultGuestRuntimeDir : String := "/tmp/cocoa-way-runtime"

/-- `has_env_key(env, "XDG_RUNTIME_DIR")`, and the test of the relay helper. -/
def setsRuntimeDir (entry : String) : Bool := runtimeDirKey.toList.isPrefixOf entry.toList

def envOptions (env : List String) : List String := env.flatMap fun entry => ["--env", entry]

def mountOptions (mounts : List String) : List String := mounts.flatMap fun mount => ["--mount", mount]

/-- The options `launch_checked_session` makes of the lists of a profile. -/
def directRunArgs (env mounts runtimeArgs : List String) : List String :=
  (if env.any setsRuntimeDir then [] else envOptions [runtimeDirKey ++ defaultGuestRuntimeDir]) ++
    envOptions env ++ mountOptions mounts ++ runtimeArgs

/-- The options `run_stdio_relay` and `run_publish_socket_relay` make of the lists of the relay. -/
def relayRunArgs (env mounts runtimeArgs : List String) : List String :=
  envOptions [runtimeDirKey ++ defaultGuestRuntimeDir] ++ envOptions (env.filter fun entry => !setsRuntimeDir entry) ++
    mountOptions mounts ++ runtimeArgs

end CocoaWay.Sessions
