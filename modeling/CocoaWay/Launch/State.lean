import CocoaWay.Lib.Custody
import CocoaWay.Lib.Table
import CocoaWay.Lifecycle.Queue
import Mathlib.Data.Finset.Erase
import Mathlib.Data.Finset.Insert
import Mathlib.Data.List.Basic

/-!
# Application profiles and the tables of the event loop

* `Session` : a configured profile, by the fields the launch code looks at;
* `displaySlotSlug`, `chooseDisplayAssignment` : the display a session asks for;
* `runtimeKey`, `slugify`, `containerName` : the runtime identity a session reserves;
* `Operation`, `ActiveSession`, `ManagedDisplay`, `Cleanup` : what the tables hold;
* `Job`, `Message` : the background workers of the loop, and the messages it handles;
* `State` : the tables, the message queue, the workers at work and the process-wide identity reservations, with the
  shared steps of the handlers.

A cleanup is in the list `cleanup` from its enqueue until the cleanup queue releases it, which is how long that queue
reports its keys busy.
-/

namespace CocoaWay.Launch
open CocoaWay.Lib
open CocoaWay.Lifecycle (Key)

section Profiles

/-! ## Text -/

/-- `char::is_whitespace`. -/
def isWhitespace (c : Char) : Bool :=
  (9 ≤ c.toNat && c.toNat ≤ 13) || (0x2000 ≤ c.toNat && c.toNat ≤ 0x200A) ||
    c.toNat ∈ [0x20, 0x85, 0xA0, 0x1680, 0x2028, 0x2029, 0x202F, 0x205F, 0x3000]

/-- `str::trim`. -/
def trim (s : String) : String :=
  String.ofList ((s.toList.dropWhile isWhitespace).reverse.dropWhile isWhitespace).reverse

/-- `char::is_ascii_alphanumeric`. -/
def isAsciiAlphanumeric (c : Char) : Bool :=
  (48 ≤ c.toNat && c.toNat ≤ 57) || (65 ≤ c.toNat && c.toNat ≤ 90) || (97 ≤ c.toNat && c.toNat ≤ 122)

/-- `char::to_ascii_lowercase`. -/
def toAsciiLowercase (c : Char) : Char := if 65 ≤ c.toNat ∧ c.toNat ≤ 90 then Char.ofNat (c.toNat + 32) else c

/-- `split('-')`. -/
@[grind] def splitDash : List Char → List (List Char)
  | [] => [[]]
  | c :: cs =>
    match splitDash cs with
    | [] => [[c]]
    | part :: parts => if c = '-' then [] :: part :: parts else (c :: part) :: parts

def displaySlotSlug (value : String) : String :=
  let mapped := value.toList.map fun c => if isAsciiAlphanumeric c then toAsciiLowercase c else '-'
  let parts := (splitDash mapped).filter fun part => !part.isEmpty
  let slug := (parts.intersperse ['-']).flatten
  if slug.isEmpty then "display" else String.ofList slug

/-- The loop of `slugify`, with the slug so far reversed. -/
@[grind] def slugifyLoop : List Char → List Char → List Char
  | slug, [] => slug
  | slug, c :: cs =>
    if isAsciiAlphanumeric c then slugifyLoop (toAsciiLowercase c :: slug) cs
    else if slug.head? ≠ some '-' then slugifyLoop ('-' :: slug) cs
    else slugifyLoop slug cs

def slugify (name : String) : String :=
  let slug := ((slugifyLoop [] name.toList).reverse.dropWhile (· = '-')).reverse.dropWhile (· = '-')
  if slug.isEmpty then "container" else String.ofList slug.reverse

/-! ## Sessions -/

/-- A `ContainerSession`; `rest` stands for the fields that launching only hands on. -/
structure Session (P : Type) where
  id : P
  name : String
  runtime : String
  display : Option String
  presentation : Option String
  rest : String
  deriving DecidableEq

variable {P : Type}

/-- What `session_to_toml` writes: optional fields are left out when they are empty. -/
def Session.toToml (s : Session P) : P × String × String × Option String × Option String × String :=
  (s.id, s.name, s.runtime, s.display.filter (· ≠ ""), s.presentation.filter (· ≠ ""), s.rest)

/-- `presentation_mode().is_rootless()`. -/
def Session.isRootless (s : Session P) : Bool :=
  match s.presentation with
  | some value => (trim value).toList.map toAsciiLowercase = "rootless".toList
  | none => false

inductive DisplayAssignment
  | default
  | dedicated (slot : String)
  deriving DecidableEq

def DisplayAssignment.slot : DisplayAssignment → String
  | .default => "default"
  | .dedicated slot => slot

def chooseDisplayAssignment (s : Session P) (defaultInUse : Bool) : DisplayAssignment :=
  let requested := (s.display.map trim).getD "auto"
  if s.isRootless then
    let requested :=
      if requested = "" ∨ requested = "auto" ∨ requested = "default" ∨
        requested = "dedicated" then s.name else requested
    .dedicated ("rootless-" ++ displaySlotSlug requested)
  else if (requested = "" ∨ requested = "auto") ∧ !defaultInUse then .default
  else if requested = "" ∨ requested = "auto" ∨ requested = "dedicated" then
    .dedicated ("session-" ++ displaySlotSlug s.name)
  else if requested = "default" then .default
  else .dedicated (displaySlotSlug requested)

/-! ## Runtime identities -/

/-- `runtime_key`. -/
def runtimeKey (runtime : String) : String :=
  let runtime := trim runtime
  if runtime = "apple" ∨ runtime = "apple-container" then "container"
  else if runtime = "orbstack" then "orb"
  else runtime

/-- `container_name`. -/
def containerName (s : Session P) : String := "cocoa-way-" ++ slugify s.name

/-- The key of the identity a session reserves. -/
def Session.identity (s : Session P) : String × String := (runtimeKey s.runtime, containerName s)

example : slugify "  Cocoa Way / GUI  " = "cocoa-way-gui" := by decide +kernel

end Profiles

/-! ## Records -/

/-- The process of a display and the slot it was started for. -/
structure DisplayWorker where
  id : Nat
  slot : String
  deriving DecidableEq

/-- A `LaunchReport`, which owns the processes of a launched application. -/
structure LaunchReport where
  id : Nat
  deriving DecidableEq

/-- `RuntimeReservation`. -/
structure Reservation (P : Type) where
  key : String × String
  owner : P × Nat
  deriving DecidableEq

/-- `PendingProfileOperation`. -/
structure Operation (P : Type) where
  generation : Nat
  session : Session P
  launchRequested : Bool
  cancelled : Bool
  reservation : Option (Reservation P)

/-- `ActiveContainerSession`; `exited` says that one of its processes is gone. -/
structure ActiveSession (P : Type) where
  profile : P
  session : Session P
  report : LaunchReport
  displaySlot : String
  displayWorker : Option DisplayWorker
  reservation : Option (Reservation P)
  stopping : Bool
  exited : Bool
  deriving DecidableEq

structure ManagedDisplay where
  worker : DisplayWorker
  exited : Bool

def ManagedDisplay.slot (d : ManagedDisplay) : String := d.worker.slot

/-- Resources handed to the cleanup queue; `late` marks the display of a managed start that had been given up before it
reported. -/
structure Cleanup (P : Type) where
  key : Key P
  report : Option LaunchReport
  worker : Option DisplayWorker
  reservation : Option (Reservation P)
  late : Bool

/-- A background worker of the loop. -/
inductive Job (P : Type)
  | check (i : P) (generation : Nat)
  | display (i : P) (generation : Nat) (slot : String)
  | launch (i : P) (generation : Nat) (slot : String)
  | managed (generation : Nat) (slot : String)
  deriving DecidableEq

/-- The messages of `CompositorMessage` that concern launching. A started display says its slot by its worker. -/
inductive Message (P : Type)
  | check (i : P)
  | start (i : P)
  | resume (i : P) (generation : Nat)
  | stop (i : P)
  | forceStop (i : P)
  | createManaged (slot : Option String)
  | closeManaged (slot : String)
  | checked (i : P) (generation : Nat) (ok : Bool)
  | displayStarted (i : P) (generation : Nat) (worker : DisplayWorker)
  | displayFailed (i : P) (generation : Nat) (slot : String)
  | launchFinished (i : P) (generation : Nat) (slot : String) (report : Option LaunchReport)
  | managedStarted (generation : Nat) (worker : DisplayWorker)
  | managedFailed (generation : Nat) (slot : String)
  deriving DecidableEq

inductive Resource
  | display (w : DisplayWorker)
  | report (r : LaunchReport)
  deriving DecidableEq

structure State (P : Type) where
  config : List (Session P)
  queue : List (Message P)
  workers : List (Job P)
  checks : Finset P
  operations : Table P (Operation P)
  validated : Finset P
  pendingDisplay : Table P String
  pendingLaunch : Table P String
  launchWorkers : Table P DisplayWorker
  active : List (ActiveSession P)
  managed : List ManagedDisplay
  pendingManaged : Table String Nat
  cleanup : List (Cleanup P)
  /-- `IDENTITIES`: who holds a runtime identity. -/
  identities : Table (String × String) (P × Nat)
  operationSequence : Nat
  displaySequence : Nat
  /-- The displays and reports that workers have created, and those released by the cleanup queue. -/
  created : List Resource
  released : List Resource

variable {P : Type} [DecidableEq P]

namespace State

/-! ## Queries -/

def resolve (s : State P) (i : P) : Option (Session P) := s.config.find? fun c => c.id = i

def currentOperation (s : State P) (i : P) (generation : Nat) : Option (Operation P) :=
  (s.operations.get i).filter fun op => op.session.id = i ∧ op.generation = generation

def isActive (s : State P) (i : P) : Bool := s.active.any fun a => a.profile = i

def slotActive (s : State P) (slot : String) : Bool := s.active.any fun a => a.displaySlot = slot

def profileDisplayPending (s : State P) (slot : String) : Bool :=
  slot ∈ s.pendingDisplay.values || slot ∈ s.pendingLaunch.values

def slotManaged (s : State P) (slot : String) : Bool := s.managed.any fun d => d.slot = slot

/-- `lifecycle_cleanup.session_busy`. -/
def sessionBusy (s : State P) (i : P) : Bool :=
  s.cleanup.any fun c =>
    match c.key with
    | .session id _ => id = i
    | _ => false

/-- `lifecycle_cleanup.display_busy`. -/
def displayBusy (s : State P) (slot : String) : Bool :=
  s.cleanup.any fun c =>
    match c.key with
    | .session _ display => display = slot
    | .display display => display = slot
    | .abandoned => false

/-! ## Reservations -/

/-- `Drop for RuntimeReservation`. -/
def dropReservation (s : State P) : Option (Reservation P) → State P
  | none => s
  | some r => if s.identities.get r.key = some r.owner then { s with identities := s.identities.remove r.key } else s

/-- `reserve_runtime`: the operation with its reservation, unless somebody else holds the identity. -/
def reserveRuntime (s : State P) (op : Operation P) : Option (Operation P × State P) :=
  if op.reservation.isSome then some (op, s)
  else
    let key := op.session.identity
    let owner := (op.session.id, op.generation)
    if (s.identities.get key).isSome then none
    else some ({ op with reservation := some ⟨key, owner⟩ }, { s with identities := s.identities.set key owner })

/-- `PROFILE_OPERATION_SEQUENCE.fetch_add(1)`; the number taken is the one before. -/
def nextOperation (s : State P) : State P := { s with operationSequence := s.operationSequence + 1 }

/-- `pending_profile_operations.insert`. -/
def setOperation (s : State P) (i : P) (op : Operation P) : State P :=
  { s with operations := s.operations.set i op }

/-- `validated_launch_checks.remove`. -/
def unvalidate (s : State P) (i : P) : State P := { s with validated := s.validated.erase i }

/-- `validated_launch_checks.insert`. -/
def validate (s : State P) (i : P) : State P := { s with validated := insert i s.validated }

/-- `container_event_signal.send`. -/
def send (s : State P) (m : Message P) : State P := { s with queue := s.queue ++ [m] }

/-- `pending_profile_operations.remove`, the operation being dropped. -/
def removeOperation (s : State P) (i : P) : State P :=
  match s.operations.get i with
  | none => s
  | some op => dropReservation { s with operations := s.operations.remove i } op.reservation

/-! ## Cleanup -/

/-- `queue_display_cleanup`. -/
def queueDisplayCleanup (s : State P) (w : DisplayWorker) (late : Bool) : State P :=
  { s with cleanup := s.cleanup ++ [⟨.display w.slot, none, some w, none, late⟩] }

/-- `queue_launch_cleanup`; of the operation only its reservation is left. -/
def queueLaunchCleanup (s : State P) (i : P) (slot : String) (report : Option LaunchReport)
    (worker : Option DisplayWorker) (reservation : Option (Reservation P)) : State P :=
  { s with cleanup := s.cleanup ++ [⟨.session i slot, report, worker, reservation, false⟩] }

/-- `queue_session_cleanup`. -/
def sessionCleanup (a : ActiveSession P) : Cleanup P :=
  ⟨.session a.profile a.displaySlot, some a.report, a.displayWorker, a.reservation, false⟩

/-- `reap_exited_container_sessions`. -/
def reapSessions (s : State P) : State P :=
  { s with
    active := s.active.filter fun a => !a.exited
    cleanup := s.cleanup ++ (s.active.filter fun a => a.exited).map sessionCleanup }

/-- `stop_active_container_session`: the first session of the profile goes to cleanup. -/
def stopActive (s : State P) (i : P) : State P :=
  match s.active.find? fun a => a.profile = i with
  | none => s
  | some a =>
    { s with
      active := s.active.eraseP fun a => a.profile = i
      cleanup := s.cleanup ++ [sessionCleanup a] }

/-- The exit of a managed display: its sessions are stopped, then its worker is cleaned up. -/
def reapManagedDisplay (s : State P) (d : ManagedDisplay) : State P :=
  let affected := (s.active.filter fun a => a.displaySlot = d.slot).map ActiveSession.profile
  queueDisplayCleanup (affected.foldl stopActive s) d.worker false

/-- `reap_exited_managed_displays`. -/
def reapManaged (s : State P) : State P :=
  (s.managed.filter fun d => d.exited).foldl reapManagedDisplay
    { s with managed := s.managed.filter fun d => !d.exited }

/-! ## Pending launches -/

/-- The launch of a profile is given up with its display worker in hand: validated check and operation go, the worker
and the operation's reservation go to cleanup. -/
def abandonDisplay (s : State P) (i : P) (op : Operation P) (w : DisplayWorker) : State P :=
  queueLaunchCleanup { s.unvalidate i with operations := s.operations.remove i } i w.slot none (some w) op.reservation

/-- `spawn_container_session_on_display`, after the launch was entered as pending. -/
def launchOn (s : State P) (i : P) (op : Operation P) (slot : String) : State P :=
  { s with
    pendingLaunch := s.pendingLaunch.set i slot
    workers := s.workers ++ [.launch i op.generation slot] }

end State

end CocoaWay.Launch
