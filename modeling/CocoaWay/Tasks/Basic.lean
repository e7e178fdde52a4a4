import CocoaWay.Control.Selectors
import CocoaWay.Lib.Journal

/-!
# Operation tasks

* `OperationTask`, `State` : a task with its steps; the history, oldest first;
* `startOperationTask`, `updateOperationTaskStep`, `finishOperationTask` : the writers of the history;
* `ensureLaunchTask`, `ensureStopTask`, `recordLaunchProgress`, `recordLaunchCancelling`, `recordLaunchCancelled` :
  the tasks of a profile;
* `Event`, `apply`, `run` : every order of calls.
-/

namespace CocoaWay.Tasks
open Lib Control

/-! ## Tasks -/

inductive TaskStatus
  | queued | running | completed | failed | cancelled
  deriving DecidableEq

def TaskStatus.isActive : TaskStatus → Bool
  | queued | running => true
  | completed | failed | cancelled => false

inductive TaskStepStatus
  | pending | running | completed | failed
  deriving DecidableEq

structure TaskStep where
  name : String
  status : TaskStepStatus
  detail : Option String

structure OperationTask where
  id : Nat
  key : String
  operation : String
  subject : String
  status : TaskStatus
  steps : List TaskStep
  detail : Option String
  createdAtUnixMs : Nat
  updatedAtUnixMs : Nat

/-- `OPERATION_TASKS`, with the next id of `TASK_SEQUENCE`. -/
structure State where
  sequence : Nat
  tasks : List OperationTask

inductive LaunchStep
  | validateProfile | checkRuntime | checkImage | createContainer | allocateDisplay | startWaypipe | startCommand
  | markRunning

def LaunchStep.all : List LaunchStep := [
  validateProfile, checkRuntime, checkImage, createContainer, allocateDisplay, startWaypipe, startCommand, markRunning]

def LaunchStep.label : LaunchStep → String
  | validateProfile => "Validate profile"
  | checkRuntime => "Check runtime"
  | checkImage => "Check image"
  | createContainer => "Create container"
  | allocateDisplay => "Allocate display"
  | startWaypipe => "Start Waypipe"
  | startCommand => "Start application"
  | markRunning => "Mark instance running"

/-! ## Writing the history -/

/-- `retain` in `start_operation_task`: an active task of the key gives way. -/
def retained (key : String) (tasks : List OperationTask) : List OperationTask :=
  tasks.filter fun existing => existing.key != key || !existing.status.isActive

/-- The bound of the history. -/
def trim (tasks : List OperationTask) : List OperationTask := tasks.drop (tasks.length - 100)

def startOperationTask (now : Nat) (s : State) (key operation subject : String) (steps : List String) : State :=
  let task : OperationTask := {
    id := s.sequence, key, operation, subject, status := .queued
    steps := steps.map fun name => ⟨name, .pending, none⟩
    detail := none, createdAtUnixMs := now, updatedAtUnixMs := now }
  ⟨s.sequence + 1, trim (retained key s.tasks ++ [task])⟩

/-- The last task of a key. -/
def latestOperationTask (s : State) (key : String) : Option OperationTask := latest (·.key == key) s.tasks

/-- A step that was passed over. -/
def passStep (previous : TaskStep) : TaskStep :=
  match previous.status with
  | .pending | .running => { previous with status := .completed }
  | .completed | .failed => previous

/-- The steps when one of them gets a status. -/
def markStep (step : String) (status : TaskStepStatus) (detail : Option String) (steps : List TaskStep) :
    List TaskStep :=
  match steps.findIdx? (·.name == step) with
  | none => steps
  | some target =>
    let before := steps.take target
    (if status = .running then before.map passStep else before) ++
      ((steps.drop target).take 1).map (fun s => { s with status, detail }) ++ steps.drop (target + 1)

def updateOperationTaskStep (now : Nat) (s : State) (key step : String) (status : TaskStepStatus)
    (detail : Option String) : State :=
  { s with tasks := modifyLatest (·.key == key) (fun task =>
      { task with
        status := if status = .failed then .failed else .running
        steps := markStep step status detail task.steps
        detail, updatedAtUnixMs := now }) s.tasks }

/-- The steps of a task that is finished so. -/
def finishSteps (status : TaskStatus) (steps : List TaskStep) : List TaskStep :=
  match status with
  | .completed => steps.map fun step => if step.status = .failed then step else { step with status := .completed }
  | .failed =>
    match steps.findIdx? (fun step => decide (step.status = .running)) with
    | none => steps
    | some i => steps.modify i fun step => { step with status := .failed }
  | _ => steps

def finishOperationTask (now : Nat) (s : State) (key : String) (status : TaskStatus) (detail : String) : State :=
  { s with tasks := modifyLatest (·.key == key) (fun task =>
      { task with
        status, detail := some detail, updatedAtUnixMs := now
        steps := finishSteps status task.steps }) s.tasks }

/-! ## The tasks of a profile -/

def launchTaskKey (id : ProfileId) : String := "launch-profile-" ++ id.toString

def stopTaskKey (id : ProfileId) : String := "stop-profile-" ++ id.toString

def startLaunchTask (now : Nat) (s : State) (id : ProfileId) (name : String) : State :=
  startOperationTask now s (launchTaskKey id) "Launch application" name (LaunchStep.all.map LaunchStep.label)

/-- Whether the last task of a key is active. -/
def latestActive (s : State) (key : String) : Bool := (latestOperationTask s key).any (·.status.isActive)

def ensureLaunchTask (now : Nat) (s : State) (id : ProfileId) (name : String) : State :=
  if latestActive s (launchTaskKey id) then s else startLaunchTask now s id name

def ensureStopTask (now : Nat) (s : State) (id : ProfileId) (name : String) : State :=
  if latestActive s (stopTaskKey id) then s
  else
    startOperationTask now s (stopTaskKey id) "Stop application" name [
      "Ask application to exit", "Stop application process", "Stop Waypipe worker", "Release display", "Stop container",
      "Mark instance exited"]

def recordLaunchProgress (now : Nat) (s : State) (id : ProfileId) (step : LaunchStep) (detail : String) : State :=
  updateOperationTaskStep now s (launchTaskKey id) step.label .running (some detail)

def recordStopProgress (now : Nat) (s : State) (id : ProfileId) (step detail : String) : State :=
  updateOperationTaskStep now s (stopTaskKey id) step .running (some detail)

def recordLaunchCancelling (now : Nat) (s : State) (id : ProfileId) (detail : String) : State :=
  { s with tasks := modifyLatest (·.key == launchTaskKey id) (fun task =>
      { task with status := .running, detail := some detail, updatedAtUnixMs := now }) s.tasks }

def recordLaunchCancelled (now : Nat) (s : State) (id : ProfileId) (detail : String) : State :=
  let s := finishOperationTask now s (launchTaskKey id) .cancelled detail
  if latestActive s (stopTaskKey id) then finishOperationTask now s (stopTaskKey id) .completed detail else s

/-! ## Runs -/

inductive Call
  | start (key operation subject : String) (steps : List String)
  | ensureLaunch (id : ProfileId) (name : String)
  | ensureStop (id : ProfileId) (name : String)
  | update (key step : String) (status : TaskStepStatus) (detail : Option String)
  | launchProgress (id : ProfileId) (step : LaunchStep) (detail : String)
  | stopProgress (id : ProfileId) (step detail : String)
  | launchCancelling (id : ProfileId) (detail : String)
  | launchCancelled (id : ProfileId) (detail : String)
  | finish (key : String) (status : TaskStatus) (detail : String)

/-- A call and the time of it. -/
structure Event where
  now : Nat
  call : Call

def apply (s : State) (e : Event) : State :=
  match e.call with
  | .start key operation subject steps => startOperationTask e.now s key operation subject steps
  | .ensureLaunch id name => ensureLaunchTask e.now s id name
  | .ensureStop id name => ensureStopTask e.now s id name
  | .update key step status detail => updateOperationTaskStep e.now s key step status detail
  | .launchProgress id step detail => recordLaunchProgress e.now s id step detail
  | .stopProgress id step detail => recordStopProgress e.now s id step detail
  | .launchCancelling id detail => recordLaunchCancelling e.now s id detail
  | .launchCancelled id detail => recordLaunchCancelled e.now s id detail
  | .finish key status detail => finishOperationTask e.now s key status detail

def run (events : List Event) : State := events.foldl apply ⟨1, []⟩

end CocoaWay.Tasks
