import CocoaWay.Lib.Trace
import CocoaWay.Lib.System
import Mathlib.Logic.Function.Basic
import Mathlib.Order.Monotone.Basic

/-!
# The children of the research server

A child for each profile, adopted when it is spawned, and given up by the one call that waits for it.

* `Profile`, `stopAction` : the profiles, and what a stop does next;
* `Env` : the results of the system calls, by their number, and the clock;
* `Children` : the slots and the summaries, with what was asked of the children;
* `finish`, `progressStop`, `requestStop`, `tick`, `launch` : the operations;
* `system` : any sequence of calls.
-/

namespace CocoaWay.ResearchMcp
open Lib

/-! ## Profiles -/

inductive Profile
  | seamlessHost
  | seamlessClient
  | gpuSelftest
  deriving DecidableEq

def Profile.all : List Profile := [.seamlessHost, .seamlessClient, .gpuSelftest]

def maxChildren : Nat := 3

def guiStopGraceMs : Nat := 2000

/-- The profile has a graphical grace. -/
def Profile.isGui (p : Profile) : Bool := p ≠ .gpuSelftest

def Profile.ttlLimits (p : Profile) : Nat × Nat := if p.isGui then (600, 3600) else (60, 180)

inductive StopAction
  | cleanupGroup
  | requestAppKit
  | wait

def stopAction (profile : Profile) (exited graceExpired : Bool) (appkitResult : Option Bool) : StopAction :=
  if exited || !profile.isGui || graceExpired then .cleanupGroup
  else if appkitResult.isNone then .requestAppKit
  else .wait

/-! ## The state -/

def outputCap : Nat := 64 * 1024

structure OutputCount where
  bytes : Nat := 0
  capped : Bool := false

def OutputCount.observe (output : OutputCount) (count : Nat) : OutputCount where
  capped := output.capped || decide (outputCap - output.bytes < count)
  bytes := min (output.bytes + count) outputCap

structure Summary where
  state : String := "never_started"
  stdout : OutputCount := {}
  stderr : OutputCount := {}
  exitCode : Option Int := none
  appkitTerminateAccepted : Option Bool := none
  leaderReaped : Bool := false
  forceKillUsed : Bool := false
  groupCleanup : String := "not_requested"
  groupCleanupErrno : Option Nat := none
  groupMembership : String := "not_checked"

structure Stopping where
  reason : String
  deadline : Nat

/-- `id` counts the adopted children; a process id can be used again. -/
structure Owned where
  id : Nat
  pid : Int
  deadline : Nat
  stopping : Option Stopping

/-- What is done with a child. -/
inductive Act
  | adopt (profile : Profile) (id : Nat)
  /-- The child leaves its slot. -/
  | free (id : Nat)
  /-- A query that leaves the child waitable; it fails when the ownership is lost. -/
  | query (id : Nat) (owned : Bool)
  | terminate (id : Nat)
  | killGroup (id : Nat)
  | kill (id : Nat)
  | wait (id : Nat) (ok : Bool)
  deriving DecidableEq

structure Children where
  summaries : Profile → Summary := fun _ => {}
  active : Profile → Option Owned := fun _ => none
  /-- The calls to the system so far. -/
  calls : Nat := 0
  born : Nat := 0
  log : List Act := []

/-- The results of the system calls, those that were interrupted left out. -/
structure Env where
  now : Nat → Nat
  mono : Monotone now
  waitid : Nat → Except Nat Bool
  killGroup : Nat → Option Nat
  listPids : Nat → List Int × Int
  wait : Nat → Option (Option Int)
  terminate : Nat → Option Bool
  /-- The lengths of what is read of both pipes. -/
  reads : Nat → List Nat × List Nat

def eperm : Nat := 1

def esrch : Nat := 3

def echild : Nat := 10

def Children.note (c : Children) (act : Act) : Children := { c with calls := c.calls + 1, log := act :: c.log }

def Children.setActive (c : Children) (p : Profile) (owned : Option Owned) : Children :=
  { c with active := Function.update c.active p owned }

def Children.summarize (c : Children) (p : Profile) (f : Summary → Summary) : Children :=
  { c with summaries := Function.update c.summaries p (f (c.summaries p)) }

/-! ## Calls to the system -/

def Env.answer (env : Env) (n : Nat) : Except Unit Bool :=
  match env.waitid n with
  | .ok exited => .ok exited
  | .error errno => if errno = echild then .error () else .ok false

def waitable (env : Env) (c : Children) (owned : Owned) : Except Unit Bool × Children :=
  (env.answer c.calls, c.note (.query owned.id (env.answer c.calls).isOk))

def now (env : Env) (c : Children) : Nat × Children := (env.now c.calls, { c with calls := c.calls + 1 })

def drain (env : Env) (c : Children) (p : Profile) : Children :=
  let (stdout, stderr) := env.reads c.calls
  { c.summarize p fun s => { s with
      stdout := (stdout.take 4).foldl .observe s.stdout
      stderr := (stderr.take 4).foldl .observe s.stderr } with calls := c.calls + 1 }

structure GroupCleanup where
  state : String
  errno : Option Nat
  membership : String

def onlyExitedLeader (pid : Int) (members : List Int) (bytes : Int) : Bool :=
  decide (bytes = 4) && decide (1 < members.length) && decide (members.head? = some pid)

def cleanupGroup (env : Env) (c : Children) (owned : Owned) (exited : Bool) : GroupCleanup × Children :=
  let errno := env.killGroup c.calls
  let c := c.note (.killGroup owned.id)
  if errno = none then (⟨"signalled", errno, "not_checked"⟩, c)
  else if errno = some esrch then (⟨"already_absent", errno, "not_checked"⟩, c)
  else if errno = some eperm ∧ exited = true then
    match waitable env c owned with
    | (.ok true, c) =>
      let (members, bytes) := env.listPids c.calls
      let c := { c with calls := c.calls + 1 }
      if onlyExitedLeader owned.pid members bytes then (⟨"no_live_members", errno, "exited_owned_leader_only"⟩, c)
      else (⟨"failed", errno, "additional_or_unverified_members"⟩, c)
    | (_, c) => (⟨"failed", errno, "not_checked"⟩, c)
  else (⟨"failed", errno, "not_checked"⟩, c)

def terminate (env : Env) (c : Children) (owned : Owned) : Option Bool × Children :=
  match waitable env c owned with
  | (.ok false, c) => (env.terminate c.calls, c.note (.terminate owned.id))
  | (_, c) => (none, c)

/-! ## Operations -/

/-- The one wait for a child. -/
def waitLeader (env : Env) (c : Children) (p : Profile) (owned : Owned) : Children :=
  let status := env.wait c.calls
  let c := c.note (.wait owned.id status.isSome)
  drain env (c.summarize p fun s => { s with leaderReaped := status.isSome, exitCode := status.join }) p

def Summary.cleaned (s : Summary) (cleanup : GroupCleanup) (exited : Bool) : Summary := { s with
  groupCleanup := cleanup.state
  groupCleanupErrno := cleanup.errno
  groupMembership := cleanup.membership
  forceKillUsed := !exited }

def Summary.close (s : Summary) (reason : String) : Summary := { s with
  state :=
    if !s.leaderReaped then "reap_failed"
    else if s.groupCleanup = "failed" then "cleanup_failed"
    else reason }

def Summary.lost (s : Summary) : Summary := { s with state := "ownership_lost" }

/-- The child has left its slot, and is still owned. -/
def reap (env : Env) (c : Children) (p : Profile) (owned : Owned) (exited : Bool) (reason : String) : Children :=
  let (cleanup, c) := cleanupGroup env c owned exited
  let c := c.summarize p (·.cleaned cleanup exited)
  let c := waitLeader env (if exited then c else c.note (.kill owned.id)) p owned
  c.summarize p (·.close reason)

def finish (env : Env) (c : Children) (p : Profile) (reason : String) : Children :=
  match c.active p with
  | none => c
  | some owned =>
    let c := (c.setActive p none).note (.free owned.id)
    match waitable env c owned with
    | (.ok exited, c) => reap env c p owned exited reason
    | (.error _, c) => c.summarize p Summary.lost

def progressStop (env : Env) (c : Children) (p : Profile) : Children :=
  match c.active p with
  | none => c
  | some owned =>
    match owned.stopping with
    | none => c
    | some stop =>
      match waitable env c owned with
      | (.error _, c) => finish env c p "ownership_lost"
      | (.ok exited, c) =>
        let (time, c) := now env c
        match stopAction p exited (decide (stop.deadline ≤ time)) (c.summaries p).appkitTerminateAccepted with
        | .cleanupGroup => finish env c p stop.reason
        | .requestAppKit =>
          let (accepted, c) := terminate env c owned
          c.summarize p fun s => { s with appkitTerminateAccepted := accepted }
        | .wait => c

def requestStop (env : Env) (c : Children) (p : Profile) (reason : String) : Children :=
  match c.active p with
  | none => c
  | some owned =>
    match owned.stopping with
    | some _ => progressStop env c p
    | none =>
      let (time, c) := now env c
      let c := c.setActive p (some { owned with stopping := some ⟨reason, time + guiStopGraceMs * 1000000⟩ })
      progressStop env (c.summarize p fun s => { s with state := "stopping" }) p

/-- The part of a tick for a profile. -/
def tickProfile (env : Env) (c : Children) (p : Profile) : Children :=
  match c.active p with
  | none => c
  | some owned =>
    let c := drain env c p
    match waitable env c owned with
    | (.ok true, c) => finish env c p (owned.stopping.elim "exited" Stopping.reason)
    | (.ok false, c) =>
      if owned.stopping.isSome then progressStop env c p
      else
        let (time, c) := now env c
        if owned.deadline ≤ time then requestStop env c p "ttl_expired" else c
    | (.error _, c) => finish env c p "ownership_lost"

def tick (env : Env) (c : Children) : Children := Profile.all.foldl (tickProfile env) c

def stop (env : Env) (c : Children) (p : Profile) : Children := requestStop env c p "stopped"

def shutdown (env : Env) (c : Children) : Children :=
  Profile.all.foldl (fun c p => requestStop env c p "server_shutdown") c

/-- The results of the steps of a launch, and the ticks while the helper is verified. -/
structure Attempt where
  host : Except String Unit
  kit : Except String Unit
  ticks : Nat
  helper : Except String Unit
  shutdownRequested : Bool
  recheck : Except String Unit
  spawn : Option Int
  pipes : Bool

def adopt (env : Env) (c : Children) (p : Profile) (ttl : Nat) (pid : Int) : Children :=
  let (time, c) := now env c
  { (c.setActive p (some ⟨c.born, pid, time + ttl * 1000000000, none⟩)).note (.adopt p c.born) with
    summaries := Function.update c.summaries p { state := "running" }
    born := c.born + 1 }

/-- The helper is verified and spawned, with a free slot for it. -/
def spawnHelper (env : Env) (c : Children) (p : Profile) (ttl : Nat) (a : Attempt) : Except String Unit × Children :=
  match a.host, a.kit with
  | .error e, _ => (.error e, c)
  | _, .error e => (.error e, c)
  | _, _ =>
    let c := (tick env)^[a.ticks] c
    match a.helper with
    | .error e => (.error e, c)
    | .ok _ =>
      if a.shutdownRequested then (.error "server_shutting_down", c)
      else
        match a.recheck, a.spawn with
        | .error e, _ => (.error e, c)
        | _, none => (.error "helper_spawn_failed", c)
        | _, some pid =>
          let c := adopt env c p ttl pid
          if a.pipes then (.ok (), c) else (.error "pipe_setup_failed", requestStop env c p "pipe_setup_failed")

def launch (env : Env) (c : Children) (p : Profile) (ttl : Nat) (a : Attempt) : Except String Unit × Children :=
  if ¬(1 ≤ ttl ∧ ttl ≤ p.ttlLimits.2) then (.error "invalid_profile_ttl", c)
  else
    let c := tick env c
    if (c.active p).isSome then (.error "profile_already_running", c)
    else if maxChildren ≤ (Profile.all.filter fun q => (c.active q).isSome).length then (.error "child_limit_reached", c)
    else spawnHelper env c p ttl a

/-! ## The system -/

inductive Call
  | launch (profile : Profile) (ttl : Nat) (attempt : Attempt)
  | tick
  | stop (profile : Profile)
  | shutdown

def apply (env : Env) (c : Children) : Call → Children
  | .launch p ttl a => (launch env c p ttl a).2
  | .tick => tick env c
  | .stop p => stop env c p
  | .shutdown => shutdown env c

def system (env : Env) : System Children Call where
  init := {}
  step c call := some (apply env c call)

end CocoaWay.ResearchMcp
