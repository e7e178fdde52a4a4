import CocoaWay.Lib.System
import CocoaWay.Launch.State

/-!
# The message handlers

* one definition for each message of the event loop, under the name of the message;
* `handle` dispatches a message; `Event`, `step`, `system` : user messages, finished workers, edits of the
  configuration, exits of processes and released cleanups, in any order.
-/

namespace CocoaWay.Launch

open CocoaWay.Lib

variable {P : Type} [DecidableEq P]

namespace State

/-! ## Checks -/

/-- `spawn_container_session_check` for the operation, with its mark. -/
def spawnCheck (s : State P) (i : P) (op : Operation P) : State P :=
  { s.setOperation i op with
    checks := insert i s.checks
    workers := s.workers ++ [.check i op.generation] }

def checkContainerSession (s : State P) (i : P) : State P :=
  if (s.operations.get i).isNone ∧ i ∉ s.checks then
    match s.resolve i with
    | some session =>
      s.nextOperation.spawnCheck i ⟨s.operationSequence, session, false, false, none⟩
    -- The mark in `checks` is taken back.
    | none => s
  else s

/-- The check of an edited profile, with the identity reserved first if a launch waits for it. -/
def restartCheck (s : State P) (i : P) (op : Operation P) : State P :=
  if op.launchRequested then
    match s.reserveRuntime op with
    | none => s.removeOperation i
    | some (op, s) => s.spawnCheck i op
  else s.spawnCheck i op

/-- The profile was edited during its check: the check starts again under a new generation. -/
def recheck (s : State P) (i : P) (op : Operation P) (configured : Session P) : State P :=
  let op' := { op with session := configured, reservation := none, generation := s.operationSequence }
  ((s.nextOperation.dropReservation op.reservation).setOperation i op').restartCheck i op'

def containerSessionChecked (s : State P) (i : P) (generation : Nat) (ok : Bool) : State P :=
  match s.currentOperation i generation with
  | none => s
  | some op =>
    let s := { s with checks := s.checks.erase i }
    if op.cancelled then s.removeOperation i
    else
      match s.resolve i with
      | none => s.removeOperation i
      | some configured =>
        if configured.toToml ≠ op.session.toToml then s.recheck i op configured
        else if ok && op.launchRequested then
          (s.validate i).send (.resume i generation)
        else s.removeOperation i

/-! ## Starting -/

/-- The slots in use, by profile. -/
def usedSlots (s : State P) : List (P × String) :=
  s.active.map (fun a => (a.profile, a.displaySlot)) ++
    s.pendingDisplay.entries.map (fun e => (e.1, e.2)) ++ s.pendingLaunch.entries.map (fun e => (e.1, e.2))

/-- `active_display_conflict_index`. -/
def activeDisplayConflictIndex (requestedIndex : P) (sessions : List (Session P)) (activeSlots : List (P × String))
    (defaultBusy : Bool) : Option P :=
  match sessions.find? fun c => c.id = requestedIndex with
  | none => none
  | some requested =>
    let defaultInUse := defaultBusy || activeSlots.any fun x => x.1 ≠ requestedIndex && x.2 = "default"
    let requestedSlot := (chooseDisplayAssignment requested defaultInUse).slot
    (activeSlots.find? fun x => x.1 ≠ requestedIndex && x.2 = requestedSlot).map Prod.fst

/-- `launch_profiles`: the configuration with the session the operation was checked with. -/
def launchProfiles (s : State P) (i : P) (session : Session P) : List (Session P) :=
  match s.config.findIdx? fun c => c.id = i with
  | none => s.config
  | some index => s.config.set index session

def defaultInUse (s : State P) : Bool :=
  s.slotActive "default" || s.profileDisplayPending "default" || s.displayBusy "default"

/-- A validated launch gets its display. -/
def assignDisplay (s : State P) (i : P) (op : Operation P) : State P :=
  if (activeDisplayConflictIndex i (s.launchProfiles i op.session) s.usedSlots (s.displayBusy "default")).isSome then
    s.removeOperation i
  else
    let assignment := chooseDisplayAssignment op.session s.defaultInUse
    if s.displayBusy assignment.slot then s.removeOperation i
    else
      match assignment with
      | .default => s.launchOn i op "default"
      | .dedicated slot =>
        if (s.pendingManaged.get slot).isSome then s.removeOperation i
        else if s.slotManaged slot then s.launchOn i op slot
        else
          { s.validate i with
            pendingDisplay := s.pendingDisplay.set i slot
            workers := s.workers ++ [.display i op.generation slot] }

/-- The part of the start handler for a profile without a running session and without a check under way. -/
def startPending (s : State P) (i : P) (configured : Session P) : State P :=
  if (s.pendingDisplay.get i).isSome || (s.pendingLaunch.get i).isSome then s
  else
    let (op, s) :=
      match s.operations.get i with
      | some op => (op, s)
      | none => (⟨s.operationSequence, configured, true, false, none⟩, s.nextOperation)
    match s.reserveRuntime op with
    | none => (s.unvalidate i).removeOperation i
    | some (op, s) =>
      let s := s.setOperation i op
      if i ∉ s.validated then s.spawnCheck i op
      else (s.unvalidate i).assignDisplay i op

/-- The end of `startPending`, for the operation that it has. -/
def startOperation (s : State P) (i : P) (op : Operation P) : State P :=
  match s.reserveRuntime op with
  | none => (s.unvalidate i).removeOperation i
  | some (op, s) =>
    if i ∉ (s.setOperation i op).validated then (s.setOperation i op).spawnCheck i op
    else ((s.setOperation i op).unvalidate i).assignDisplay i op

def startContainerSession (s : State P) (i : P) : State P :=
  match s.resolve i with
  | none => s
  | some configured =>
    if s.sessionBusy i then s
    else
      let s := s.reapSessions
      if s.isActive i then
        if i ∈ s.checks then s else (s.unvalidate i).removeOperation i
      else
        match s.operations.get i with
        | some op =>
          if op.cancelled then s
          else if i ∈ s.checks then
            match s.reserveRuntime op with
            | none => s
            | some (op, s) => s.setOperation i { op with launchRequested := true }
          else s.startPending i configured
        | none => s.startPending i configured

/-- A resumed launch is a start, if its operation is still wanted. -/
def resumeContainerSession (s : State P) (i : P) (generation : Nat) : State P :=
  match s.currentOperation i generation with
  | none => s
  | some op => if op.cancelled then s else s.startContainerSession i

/-! ## Dedicated displays and launches -/

def dedicatedDisplayStarted (s : State P) (i : P) (generation : Nat) (w : DisplayWorker) : State P :=
  match (s.currentOperation i generation).filter fun _ => s.pendingDisplay.get i = some w.slot with
  | none => s.queueDisplayCleanup w false
  | some op =>
    let s := { s with pendingDisplay := s.pendingDisplay.remove i }
    if op.cancelled then s.abandonDisplay i op w
    else if s.displayBusy w.slot || s.profileDisplayPending w.slot || (s.pendingManaged.get w.slot).isSome ||
        s.slotManaged w.slot then s.abandonDisplay i op w
    else
      let s := s.reapSessions
      if s.isActive i || s.slotActive w.slot || i ∉ s.validated then s.abandonDisplay i op w
      else
        launchOn { s.unvalidate i with launchWorkers := s.launchWorkers.set i w } i op w.slot

def dedicatedDisplayFailed (s : State P) (i : P) (generation : Nat) (slot : String) : State P :=
  match (s.currentOperation i generation).filter fun _ => s.pendingDisplay.get i = some slot with
  | none => s
  | some _ =>
    removeOperation { s.unvalidate i with pendingDisplay := s.pendingDisplay.remove i } i

/-- `complete_container_session_launch`. -/
def completeContainerSessionLaunch (s : State P) (i : P) (op : Operation P) (slot : String)
    (worker : Option DisplayWorker) : Option LaunchReport → State P
  | some report =>
    { s with active := s.active ++ [⟨i, op.session, report, slot, worker, op.reservation, false, false⟩] }
  | none =>
    match worker with
    | some w => s.queueLaunchCleanup i slot none (some w) op.reservation
    | none => s.dropReservation op.reservation

def containerSessionLaunchFinished (s : State P) (i : P) (generation : Nat) (slot : String)
    (report : Option LaunchReport) : State P :=
  match (s.currentOperation i generation).filter fun _ => s.pendingLaunch.get i = some slot with
  | none => s.queueLaunchCleanup i slot report none none
  | some op =>
    let worker := s.launchWorkers.get i
    let s := { s with
      pendingLaunch := s.pendingLaunch.remove i
      launchWorkers := s.launchWorkers.remove i
      operations := s.operations.remove i }
    if op.cancelled then s.queueLaunchCleanup i slot report worker op.reservation
    else s.completeContainerSessionLaunch i op slot worker report

/-! ## Managed displays -/

def slotFree (s : State P) (slot : String) : Bool :=
  !((s.pendingManaged.get slot).isSome || s.profileDisplayPending slot || s.displayBusy slot || s.slotManaged slot ||
    s.slotActive slot)

/-- `next_managed_display_slot`: of the first numbers, one more than there are slots in use, the first that is free. -/
def nextManagedDisplaySlot (s : State P) : String :=
  let used := s.managed.length + s.pendingManaged.entries.length + s.usedSlots.length + s.cleanup.length
  let candidates := (List.range (used + 1)).map fun n => "display-" ++ toString (n + 1)
  (candidates.find? s.slotFree).getD "display-1"

def createManagedDisplay (s : State P) (requestedSlot : Option String) : State P :=
  let s := s.reapManaged
  let slot := requestedSlot.getD s.nextManagedDisplaySlot
  if s.slotFree slot then
    { s with
      displaySequence := s.displaySequence + 1
      pendingManaged := s.pendingManaged.set slot s.displaySequence
      workers := s.workers ++ [.managed s.displaySequence slot] }
  else s

def managedDisplayStarted (s : State P) (generation : Nat) (w : DisplayWorker) : State P :=
  if s.pendingManaged.get w.slot ≠ some generation then s.queueDisplayCleanup w true
  else
    let s := { s with pendingManaged := s.pendingManaged.remove w.slot }
    if s.displayBusy w.slot || s.profileDisplayPending w.slot || s.slotManaged w.slot || s.slotActive w.slot then
      s.queueDisplayCleanup w false
    else { s with managed := s.managed ++ [⟨w, false⟩] }

def managedDisplayFailed (s : State P) (generation : Nat) (slot : String) : State P :=
  if s.pendingManaged.get slot = some generation then { s with pendingManaged := s.pendingManaged.remove slot } else s

def closeManagedDisplay (s : State P) (slot : String) : State P :=
  if s.displayBusy slot || s.profileDisplayPending slot || s.slotActive slot then s
  else if (s.pendingManaged.get slot).isSome then { s with pendingManaged := s.pendingManaged.remove slot }
  else
    match s.managed.find? fun d => d.slot = slot with
    | none => s
    | some d => queueDisplayCleanup { s with managed := s.managed.eraseP fun d => d.slot = slot } d.worker false

/-! ## Stopping -/

/-- The cancellation of a pending operation; without a worker that would report, nothing of it stays. -/
def cancelOperation (s : State P) (i : P) (op : Operation P) : State P :=
  if i ∈ s.checks || (s.pendingDisplay.get i).isSome || (s.pendingLaunch.get i).isSome then
    s.setOperation i { op with cancelled := true }
  else (s.unvalidate i).removeOperation i

def cancelPending (s : State P) (i : P) : State P :=
  match s.operations.get i with
  | some op => s.cancelOperation i op
  | none => s

def markStopping (i : P) (a : ActiveSession P) : ActiveSession P :=
  if a.profile = i then { a with stopping := true } else a

/-- `request_graceful_container_stop`. -/
def requestGracefulStop (s : State P) (i : P) : State P := { s with active := s.active.map (markStopping i) }

def stopContainerSession (s : State P) (i : P) : State P :=
  let s := s.cancelPending i
  if s.isActive i then s.requestGracefulStop i else s

def forceStopContainerSession (s : State P) (i : P) : State P :=
  if (s.operations.get i).isSome then s.send (.stop i) else s.stopActive i

/-! ## Dispatch -/

def handle (s : State P) : Message P → State P
  | .check i => s.checkContainerSession i
  | .start i => s.startContainerSession i
  | .resume i generation => s.resumeContainerSession i generation
  | .stop i => s.stopContainerSession i
  | .forceStop i => s.forceStopContainerSession i
  | .createManaged slot => s.createManagedDisplay slot
  | .closeManaged slot => s.closeManagedDisplay slot
  | .checked i generation ok => s.containerSessionChecked i generation ok
  | .displayStarted i generation w => s.dedicatedDisplayStarted i generation w
  | .displayFailed i generation slot => s.dedicatedDisplayFailed i generation slot
  | .launchFinished i generation slot report => s.containerSessionLaunchFinished i generation slot report
  | .managedStarted generation w => s.managedDisplayStarted generation w
  | .managedFailed generation slot => s.managedDisplayFailed generation slot

end State

/-! ## Runs -/

/-- Messages that come from menus and the control socket. -/
def Message.fromUser : Message P → Bool
  | .check _ | .start _ | .resume _ _ | .stop _ | .forceStop _ | .createManaged _ | .closeManaged _ => true
  | _ => false

/-- What a worker reports, with the resource it created. -/
def Job.report (id : Nat) (ok : Bool) : Job P → Message P × Option Resource
  | .check i g => (.checked i g ok, none)
  | .display i g slot =>
    if ok then (.displayStarted i g ⟨id, slot⟩, some (.display ⟨id, slot⟩)) else (.displayFailed i g slot, none)
  | .launch i g slot =>
    if ok then (.launchFinished i g slot (some ⟨id⟩), some (.report ⟨id⟩)) else (.launchFinished i g slot none, none)
  | .managed g slot =>
    if ok then (.managedStarted g ⟨id, slot⟩, some (.display ⟨id, slot⟩)) else (.managedFailed g slot, none)

inductive Event (P : Type)
  /-- A message from outside is queued. -/
  | user (m : Message P)
  /-- A worker finishes and its report is queued. -/
  | finish (j : Job P) (ok : Bool)
  /-- The loop handles the next message. -/
  | handle
  /-- The configuration file changes. -/
  | edit (config : List (Session P))
  | sessionExits (i : P)
  | managedExits (slot : String)
  /-- The loop looks for exited processes. -/
  | maintain
  /-- The cleanup queue releases the entry at a position. -/
  | release (index : Nat)

/-- The resources of a cleanup. -/
def Cleanup.resources (c : Cleanup P) : List Resource :=
  (c.report.map Resource.report).toList ++ (c.worker.map Resource.display).toList

namespace State

/-- A worker ends; the resource it created has a number of its own. -/
def finish (s : State P) (j : Job P) (ok : Bool) : State P :=
  let report := j.report s.created.length ok
  { s with
    workers := s.workers.erase j
    queue := s.queue ++ [report.1]
    created := report.2.toList ++ s.created }

def markExited (i : P) (a : ActiveSession P) : ActiveSession P :=
  if a.profile = i then { a with exited := true } else a

def managedExits (s : State P) (slot : String) : State P :=
  { s with managed := s.managed.map fun d => if d.slot = slot then { d with exited := true } else d }

/-- The cleanup queue releases the resources of an entry, with its reservation. -/
def releaseCleanup (s : State P) (index : Nat) (c : Cleanup P) : State P :=
  dropReservation { s with
    cleanup := s.cleanup.eraseIdx index
    released := c.resources ++ s.released } c.reservation

end State

def step (s : State P) : Event P → Option (State P)
  | .user m => if m.fromUser then some (s.send m) else none
  | .finish j ok => if j ∈ s.workers then some (s.finish j ok) else none
  | .handle =>
    match s.queue with
    | [] => none
    | m :: queue => some (State.handle { s with queue := queue } m)
  | .edit config => some { s with config := config }
  | .sessionExits i => some { s with active := s.active.map (State.markExited i) }
  | .managedExits slot => some (s.managedExits slot)
  | .maintain => some s.reapManaged.reapSessions
  | .release index => s.cleanup[index]?.map (s.releaseCleanup index)

section StepCases

variable {s s' : State P}

theorem step_user {m : Message P} (h : step s (.user m) = some s') : m.fromUser = true ∧ s' = s.send m := by
  obtain ⟨hm, he⟩ := Option.ite_none_right_eq_some.1 h
  exact ⟨hm, (Option.some.inj he).symm⟩

theorem step_finish {j : Job P} {ok : Bool} (h : step s (.finish j ok) = some s') :
    j ∈ s.workers ∧ s' = s.finish j ok := by
  obtain ⟨hj, he⟩ := Option.ite_none_right_eq_some.1 h
  exact ⟨hj, (Option.some.inj he).symm⟩

theorem step_handle (h : step s .handle = some s') :
    ∃ m queue, s.queue = m :: queue ∧ s' = State.handle { s with queue := queue } m := by
  cases hq : s.queue with
  | nil => simp [step, hq] at h
  | cons m queue => exact ⟨m, queue, rfl, by simpa [step, hq] using h.symm⟩

theorem step_release {index : Nat} (h : step s (.release index) = some s') :
    ∃ c, s.cleanup[index]? = some c ∧ s' = s.releaseCleanup index c := by
  obtain ⟨c, hc, he⟩ := Option.map_eq_some_iff.1 h
  exact ⟨c, hc, he.symm⟩

end StepCases

def State.init : State P where
  config := []
  queue := []
  workers := []
  checks := ∅
  operations := ∅
  validated := ∅
  pendingDisplay := ∅
  pendingLaunch := ∅
  launchWorkers := ∅
  active := []
  managed := []
  pendingManaged := ∅
  cleanup := []
  identities := ∅
  operationSequence := 0
  displaySequence := 0
  created := []
  released := []

def system (P : Type) [DecidableEq P] : System (State P) (Event P) := ⟨State.init, step⟩

end CocoaWay.Launch
