import CocoaWay.CommandCache.Basic
import CocoaWay.Launch.State
import CocoaWay.Lib.Json
import Mathlib.Data.List.Destutter

/-!
# The guards of `container_mode.rs` that read the command cache

* `volumeUsage`, `confirmVolumeRemoval` : whether a volume is mounted, and whether its deletion is offered;
* `imageReferencesForId`, `confirmImageRemoval` : the tags of an image, and whether its deletion is offered;
* `Host` : what the guards read besides the cache: the search path, the JSON reader, the texts made of an error output,
  the rows of an Apple image listing.

A guard that does not refuse returns what the confirmation shows.
-/

namespace CocoaWay.CommandCache
open Lib
open Launch (isWhitespace)

abbrev Text := List Char

/-- The `Output` of a command, its streams decoded. -/
structure Output where
  success : Bool
  stdout : Text
  stderr : Text

structure ImageRow where
  label : Text
  reference : Option Text

/-- What the guards read besides the cache. -/
structure Host where
  /-- `build_child_path`. -/
  childPath : Text
  findCommandPath : Text → Option Text
  /-- `serde_json::from_str`. -/
  fromStr : Text → Except Text (List Json)
  firstStderrLine : Output → Text → Text
  appleImageRowsFromOutput : Output → List ImageRow
  /-- `image_task_active`. -/
  imageTaskActive : Option (Text × Option Text)

/-! ## Texts -/

/-- `str::trim`. -/
def trim (s : Text) : Text := ((s.dropWhile isWhitespace).reverse.dropWhile isWhitespace).reverse

/-- `str::lines`; the callers trim every line, so a carriage return before the line feed may stay. -/
def lines (s : Text) : List Text := s.splitOn (Char.ofNat 10)

/-- The first word of `split_whitespace`. -/
def firstWord (s : Text) : Option Text :=
  let word := (s.dropWhile isWhitespace).takeWhile (!isWhitespace ·)
  if word = [] then none else some word

/-- `trim().to_ascii_lowercase()`. -/
def normalized (s : Text) : Text := (trim s).map Char.toLower

/-- `sort` and `dedup`. -/
def sortDedup (l : List Text) : List Text := (l.mergeSort fun a b => !decide (b < a)).destutter (· ≠ ·)

/-- `ui_command_cache_key`. -/
def uiCommandCacheKey (command childPath : Text) (args : List Text) : Text :=
  command ++ Char.ofNat 0 :: childPath ++ args.flatMap fun argument => Char.ofNat 0 :: argument

def runtimeLabel (runtime : Text) : Text :=
  if normalized runtime = "docker".toList then "Docker".toList
  else if normalized runtime = "orb".toList ∨ normalized runtime = "orbstack".toList then "OrbStack".toList
  else "Apple Container".toList

/-- `ui_command_error`. -/
def uiCommandError (start error : Text) : Text :=
  if error = uiCommandLoading then uiCommandLoading else start ++ ": ".toList ++ error

/-- `unpinned_resource_delete_error`: Docker resources are not deleted. -/
def unpinnedResourceDeleteError (runtime : Text) : Option Text :=
  if normalized runtime ∈ ["docker".toList, "orb".toList, "orbstack".toList] then
    some ("Docker image and volume deletion is disabled because no endpoint-bound resource identity was captured. " ++
      "Verify the endpoint and resource in Docker's own tools; Cocoa-Way will not delete through the mutable " ++
      "current context.").toList
  else none

def runtimeKeyMatches (runtimeKey sessionRuntime : Text) : Bool :=
  let docker := decide (normalized sessionRuntime ∈ ["docker".toList, "orb".toList, "orbstack".toList])
  if normalized runtimeKey ∈ ["container".toList, "apple".toList, "apple container".toList] then !docker
  else if normalized runtimeKey = "docker".toList then docker
  else decide (normalized runtimeKey = normalized sessionRuntime)

/-! ## Volumes -/

structure VolumeUsage where
  referencedProfiles : List Text
  mountedContainers : List Text
  loading : Bool
  error : Option Text

/-- `parse_apple_volume_mounts`. -/
def parseAppleVolumeMounts (host : Host) (json volumeName : Text) : Except Text (List Text) :=
  match host.fromStr json with
  | .error error => .error ("Apple Container returned invalid container JSON: ".toList ++ error)
  | .ok containers => .ok (containers.filterMap fun container =>
      (container.get "configuration").bind fun configuration =>
        let mounted := ((configuration.get "mounts").bind Json.asArray).any fun mounts =>
          mounts.any fun mount => (mount.get "source").bind Json.asStr == some (String.ofList volumeName)
        if mounted then
          some ((((container.get "id").or (configuration.get "id")).bind Json.asStr).getD "Unknown container").toList
        else none)

/-- What `volume_usage` reads off the output of its command. -/
def parsedMounts (host : Host) (runtimeKey volumeName : Text) (output : Output) : Except Text (List Text) :=
  if runtimeKey = "docker".toList then .ok (((lines output.stdout).map trim).filter (!·.isEmpty))
  else parseAppleVolumeMounts host output.stdout volumeName

/-- The command of `volume_usage`. -/
def volumeUsageCommand (runtimeKey volumeName : Text) : Text × List Text :=
  if runtimeKey = "docker".toList then
    ("docker".toList, ["ps".toList, "-a".toList, "--filter".toList, "volume=".toList ++ volumeName, "--format".toList,
      "\x7b\x7b.Names\x7d\x7d".toList])
  else ("container".toList, ["list".toList, "--all".toList, "--format".toList, "json".toList])

/-- `volume_usage` once its command is found: what it makes of the answer. -/
def volumeUsageOf (host : Host) (runtimeKey volumeName : Text) (referencedProfiles : List Text)
    (answer : Except Text Output) : VolumeUsage :=
  let failed := fun error =>
    { referencedProfiles := referencedProfiles, mountedContainers := [], loading := false, error := some error }
  match answer with
  | .ok output =>
    if output.success then
      match parsedMounts host runtimeKey volumeName output with
      | .ok mounted =>
        { referencedProfiles := referencedProfiles, mountedContainers := sortDedup mounted, loading := false,
          error := none }
      | .error error => failed error
    else failed (host.firstStderrLine output "Volume usage check failed".toList)
  | .error error =>
    if error = uiCommandLoading then
      { referencedProfiles := referencedProfiles, mountedContainers := [], loading := true, error := none }
    else failed (uiCommandError "Volume usage check failed".toList error)

/-- `volume_usage`; the saved profiles that mention the volume are given. -/
def volumeUsage (host : Host) (s : State Text Output) (runtimeKey volumeName : Text) (referencedProfiles : List Text) :
    VolumeUsage :=
  match host.findCommandPath (volumeUsageCommand runtimeKey volumeName).1 with
  | none =>
    { referencedProfiles := referencedProfiles, mountedContainers := [], loading := false,
      error := some (runtimeLabel runtimeKey ++ " is not installed".toList) }
  | some path =>
    volumeUsageOf host runtimeKey volumeName referencedProfiles
      (s.runUiCommand (uiCommandCacheKey path host.childPath (volumeUsageCommand runtimeKey volumeName).2))

/-- A list as the alerts show it. -/
def bullets (names : List Text) : Text :=
  ("\n".toList).intercalate (names.map fun name => "• ".toList ++ name)

/-- `confirm_volume_removal` up to its confirmation: the alert that refuses, or the usage the confirmation shows. -/
def confirmVolumeRemoval (host : Host) (s : State Text Output) (runtime name : Text) (referencedProfiles : List Text) :
    Except Text VolumeUsage :=
  match unpinnedResourceDeleteError runtime with
  | some error => .error error
  | none =>
    let usage := volumeUsage host s runtime name referencedProfiles
    if usage.loading then
      .error "Volume usage is still loading. Wait a moment, press Reload, and try again.".toList
    else
      match usage.error with
      | some error =>
        .error ("Cocoa-Way could not verify whether this volume is mounted, so deletion was blocked.\n\n".toList ++ error)
      | none =>
        if usage.mountedContainers ≠ [] then
          .error ("This volume is mounted by:\n\n".toList ++ bullets usage.mountedContainers ++
            "\n\nStop those containers before deleting the volume.".toList)
        else .ok usage

/-! ## Images -/

def ImageRow.message (message : Text) : ImageRow := { label := message, reference := none }

/-- `parse_docker_image_line`. -/
def parseDockerImageLine (line : Text) : Option ImageRow :=
  let columns := (line.splitOn (Char.ofNat 9)).map trim
  let taggedReference := columns.headD []
  let id := (columns.drop 1).headD []
  let size := (columns.drop 2).headD []
  if taggedReference = [] then none
  else
    let reference := if "<none>:".toList.isPrefixOf taggedReference then id else taggedReference
    if reference = [] then none
    else
      let metadata := ("    ".toList).intercalate ([id, size].filter (!·.isEmpty))
      some { label := if metadata = [] then reference else reference ++ "    ".toList ++ metadata,
             reference := some reference }

/-- `apple_container_image_rows` once its command is found. -/
def appleContainerImageRowsOf (host : Host) : Except Text Output → List ImageRow
  | .ok output => host.appleImageRowsFromOutput output
  | .error error => [.message (uiCommandError "Image list failed".toList error)]

/-- `apple_container_image_rows`. -/
def appleContainerImageRows (host : Host) (s : State Text Output) : List ImageRow :=
  match host.findCommandPath "container".toList with
  | none => [.message "container not installed".toList]
  | some path =>
    appleContainerImageRowsOf host (s.runUiCommand (uiCommandCacheKey path host.childPath
      ["image".toList, "list".toList, "--format".toList, "json".toList]))

/-- `docker_image_rows` once its command is found. -/
def dockerImageRowsOf (host : Host) : Except Text Output → List ImageRow
  | .ok output =>
    if output.success then
      let rows := (lines output.stdout).filterMap parseDockerImageLine
      if rows = [] then [.message "No Docker-compatible images found".toList] else rows
    else [.message (host.firstStderrLine output "Docker image list failed".toList)]
  | .error error => [.message (uiCommandError "Docker image list failed".toList error)]

/-- `docker_image_rows`. -/
def dockerImageRows (host : Host) (s : State Text Output) : List ImageRow :=
  match host.findCommandPath "docker".toList with
  | none => [.message "docker not installed".toList]
  | some path =>
    dockerImageRowsOf host (s.runUiCommand (uiCommandCacheKey path host.childPath
      ["image".toList, "ls".toList, "--format".toList,
        "\x7b\x7b.Repository\x7d\x7d:\x7b\x7b.Tag\x7d\x7d\t\x7b\x7b.ID\x7d\x7d\t\x7b\x7b.Size\x7d\x7d".toList]))

/-- `image_inventories`: the rows for each runtime key. -/
def imageInventories (host : Host) (s : State Text Output) : List (Text × List ImageRow) :=
  match host.imageTaskActive with
  | some (task, detail) =>
    [("container".toList, .message task :: (detail.filter (!·.isEmpty)).toList.map .message)]
  | none => [("container".toList, appleContainerImageRows host s), ("docker".toList, dockerImageRows host s)]

/-- `image_id_from_label`. -/
def imageIdFromLabel (label reference : Text) : Option Text :=
  if reference.isPrefixOf label then firstWord (label.drop reference.length) else none

/-- `image_references_for_id`. -/
def imageReferencesForId (host : Host) (s : State Text Output) (runtimeKey imageId : Text) : List Text :=
  sortDedup <| (((imageInventories host s).filter (·.1 = runtimeKey)).flatMap (·.2)).filterMap fun row =>
    row.reference.filter fun reference => imageIdFromLabel row.label reference = some imageId

/-- A saved profile, as the image guard reads it, and whether an instance of it runs. -/
structure Session where
  name : Text
  image : Text
  runtime : Text
  active : Bool

/-- The references `confirm_image_removal` checks the saved profiles against. -/
def knownReferences (host : Host) (s : State Text Output) (runtime reference : Text) (imageId : Option Text)
    (removeTag : Bool) : List Text :=
  if removeTag then [reference]
  else
    match imageId.map (imageReferencesForId host s runtime) with
    | some (r :: rs) => r :: rs
    | _ => [reference]

/-- `confirm_image_removal` up to its confirmation: the alert that refuses, or the tags the confirmation shows. -/
def confirmImageRemoval (host : Host) (s : State Text Output) (runtime reference : Text) (imageId : Option Text)
    (removeTag : Bool) (sessions : List Session) : Except Text (List Text) :=
  match unpinnedResourceDeleteError runtime with
  | some error => .error error
  | none =>
    let known := knownReferences host s runtime reference imageId removeTag
    let referenced := sessions.filter fun session =>
      known.contains session.image && runtimeKeyMatches runtime session.runtime
    let running := (referenced.filter Session.active).map Session.name
    if running ≠ [] then
      .error ("This image cannot be removed while it is used by running applications:\n\n".toList ++ bullets running ++
        "\n\nStop those instances and try again.".toList)
    else .ok (if removeTag then [] else known)

end CocoaWay.CommandCache
