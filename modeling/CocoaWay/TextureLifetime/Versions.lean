import Mathlib.Logic.Function.Basic
import CocoaWay.Lib.System

/-!
# Texture versions

`TextureVersions` keeps up to three copies of one image, so that an update never writes pixels a frame in flight reads.

* `Version` : a resource and the frames that read it; `slot` identifies the version for as long as it exists;
* `Version.writable`, `updateTarget`, `writableMatching`, `prepareMatching`, `updateMatching`, `markRead`,
  `retainIdleSpare`, `pruneIdle`, `currentBusy` : the operations, for any resource type and any callbacks;
* `State`, `Event`, `system` : sequences of operations and frame completions, with the reads that were marked.

`done f` says that the frame `f` has completed or was dropped: the weak reference to it no longer counts.
-/

namespace CocoaWay.TextureLifetime
open Lib

variable {T ε : Type*}

/-- `MAX_VERSIONS`. -/
def maxVersions : Nat := 3

structure Version (T : Type*) where
  slot : Nat
  resource : T
  readers : List Nat
  deriving DecidableEq

/-- Forget the readers that are done; writable when none is left. -/
def Version.writable (done : Nat → Bool) (v : Version T) : Bool × Version T :=
  let readers := v.readers.filter fun f => !done f
  (readers.isEmpty, { v with readers })

inductive UpdateError
  | busy
  | rejected
  deriving DecidableEq

inductive PrepareError (ε : Type*)
  | busy
  | allocation (e : ε)

structure TextureVersions (T : Type*) where
  versions : List (Version T)
  current : Nat
  /-- The next slot to give out. -/
  nextSlot : Nat

namespace TextureVersions

def new : TextureVersions T := ⟨[], 0, 0⟩

/-- The version the index points to. -/
def currentVersion (c : TextureVersions T) : Option (Version T) := c.versions[c.current]?

/-- `current`. -/
def currentResource (c : TextureVersions T) : Option T := c.currentVersion.map Version.resource

end TextureVersions

/-! ## Scans that prune the versions they visit -/

/-- `get_mut(index).is_some_and(p)`. -/
def isSomeAnd (p : Version T → Bool × Version T) (index : Nat) (vs : List (Version T)) : Bool × List (Version T) :=
  match vs[index]? with
  | some v => ((p v).1, vs.set index (p v).2)
  | none => (false, vs)

/-- `iter_mut().position(p)`: stops at the first match. -/
def position (p : Version T → Bool × Version T) : List (Version T) → Option Nat × List (Version T)
  | [] => (none, [])
  | v :: vs =>
    if (p v).1 then (some 0, (p v).2 :: vs)
    else ((position p vs).1.map (· + 1), (p v).2 :: (position p vs).2)

/-- `writable() && compatible`. -/
def writableAnd (done : Nat → Bool) (compatible : T → Bool) (v : Version T) : Bool × Version T :=
  ((v.writable done).1 && compatible v.resource, (v.writable done).2)

/-! ## The operations -/

/-- `update_target`: compatible storage first, the current one before the others, then any idle one, then a new one. -/
def updateTarget (done : Nat → Bool) (compatible : T → Bool) (c : TextureVersions T) :
    Except UpdateError Nat × TextureVersions T :=
  let (hit, vs) := isSomeAnd (writableAnd done compatible) c.current c.versions
  if hit then (.ok c.current, { c with versions := vs })
  else
    match position (writableAnd done compatible) vs with
    | (some index, vs) => (.ok index, { c with versions := vs })
    | (none, vs) =>
      let (hit, vs) := isSomeAnd (Version.writable done) c.current vs
      if hit then (.ok c.current, { c with versions := vs })
      else
        match position (Version.writable done) vs with
        | (some index, vs) => (.ok index, { c with versions := vs })
        | (none, vs) =>
          if vs.length < maxVersions then (.ok vs.length, { c with versions := vs })
          else (.error .busy, { c with versions := vs })

/-- `writable_matching`. -/
def writableMatching (done : Nat → Bool) (compatible : T → Bool) (c : TextureVersions T) :
    Except UpdateError (Option T) × TextureVersions T :=
  match updateTarget done compatible c with
  | (.ok target, c) => (.ok (c.versions[target]?.map Version.resource), c)
  | (.error e, c) => (.error e, c)

/-- `prepare_matching`: allocate only when no compatible idle version exists. -/
def prepareMatching (done : Nat → Bool) (compatible : T → Bool) (allocate : Option T → Except ε T)
    (c : TextureVersions T) : Except (PrepareError ε) (Option T) × TextureVersions T :=
  match writableMatching done compatible c with
  | (.error _, c) => (.error .busy, c)
  | (.ok idle, c) =>
    if idle.any compatible then (.ok none, c)
    else
      match allocate idle with
      | .ok t => (.ok (some t), c)
      | .error e => (.error (.allocation e), c)

/-- `update_matching`: `upload` gets the idle resource it may write, and whether that is the current one. -/
def updateMatching (done : Nat → Bool) (compatible : T → Bool) (upload : Option T → Bool → Option T)
    (c : TextureVersions T) : Except UpdateError Unit × TextureVersions T :=
  match updateTarget done compatible c with
  | (.error e, c) => (.error e, c)
  | (.ok target, c) =>
    let existing := c.versions[target]?
    match upload (existing.map Version.resource) (existing.isSome && target == c.current) with
    | none => (.error .rejected, c)
    | some resource =>
      match existing with
      | some v => (.ok (), { c with versions := c.versions.set target { v with resource }, current := target })
      | none => (.ok (), { versions := c.versions ++ [⟨c.nextSlot, resource, []⟩], current := target,
                           nextSlot := c.nextSlot + 1 })

/-- `mark_read`; indexing panics when there is no current version. -/
def markRead (done : Nat → Bool) (frame : Nat) (c : TextureVersions T) : Option (TextureVersions T) :=
  match c.versions[c.current]? with
  | none => none
  | some v =>
    let v := (v.writable done).2
    let v := if frame ∈ v.readers then v else { v with readers := v.readers ++ [frame] }
    some { c with versions := c.versions.set c.current v }

/-- The loop of `retain_idle_spare` from position `index` on: what it keeps, and the shifted current index. -/
@[grind] def retainLoop (done : Nat → Bool) (compatible : T → Bool) (selfCurrent : Nat) :
    Nat → Nat → Bool → List (Version T) → List (Version T) × Nat
  | _, current, _, [] => ([], current)
  | index, current, spare, v :: vs =>
    if index == selfCurrent then
      let (kept, current) := retainLoop done compatible selfCurrent (index + 1) current spare vs
      (v :: kept, current)
    else
      let (writable, v) := v.writable done
      if !writable then
        let (kept, current) := retainLoop done compatible selfCurrent (index + 1) current spare vs
        (v :: kept, current)
      else if !spare && compatible v.resource then
        let (kept, current) := retainLoop done compatible selfCurrent (index + 1) current true vs
        (v :: kept, current)
      else
        retainLoop done compatible selfCurrent (index + 1)
          (if index < selfCurrent then current - 1 else current) spare vs

/-- `retain_idle_spare`: the current version, those still read, and one compatible idle alternate. -/
def retainIdleSpare (done : Nat → Bool) (compatible : T → Bool) (c : TextureVersions T) : Nat × TextureVersions T :=
  let (kept, current) := retainLoop done compatible c.current 0 c.current false c.versions
  (c.versions.length - kept.length, { c with versions := kept, current })

/-- `prune_idle`. -/
def pruneIdle (done : Nat → Bool) (c : TextureVersions T) : Nat × TextureVersions T :=
  retainIdleSpare done (fun _ => false) c

/-- `current_busy`. -/
def currentBusy (done : Nat → Bool) (c : TextureVersions T) : Bool × TextureVersions T :=
  match c.versions[c.current]? with
  | none => (false, c)
  | some v => (!(v.writable done).1, { c with versions := c.versions.set c.current (v.writable done).2 })

/-! ## Sequences of operations -/

/-- One call of `mark_read`: the frame reads the resource of the slot. -/
structure Read (T : Type*) where
  frame : Nat
  slot : Nat
  resource : T

structure State (T : Type*) where
  cache : TextureVersions T
  done : Nat → Bool
  /-- Every read that was marked. -/
  reads : List (Read T)
  /-- Every upload so far returned the storage it was given or storage nobody had. -/
  fresh : Bool

inductive Event (T ε : Type*)
  | update (upload : Option T → Bool → Option T)
  | updateMatching (compatible : T → Bool) (upload : Option T → Bool → Option T)
  | writableMatching (compatible : T → Bool)
  | prepareMatching (compatible : T → Bool) (allocate : Option T → Except ε T)
  | markRead (frame : Nat)
  | complete (frame : Nat)
  | pruneIdle
  | retainIdleSpare (compatible : T → Bool)
  | currentBusy

variable [DecidableEq T]

/-- The storage an update left as current is the storage it was given, or one that nobody had before. -/
def freshUpdate (s : State T) (compatible : T → Bool) (upload : Option T → Bool → Option T) : Bool :=
  match updateTarget s.done compatible s.cache with
  | (.error _, _) => true
  | (.ok target, c) =>
    let existing := c.versions[target]?
    match upload (existing.map Version.resource) (existing.isSome && target == c.current) with
    | none => true
    | some resource =>
      existing.map Version.resource == some resource ||
        (s.cache.versions.all (fun v => v.resource ≠ resource) && s.reads.all fun r => r.resource ≠ resource)

def stepUpdate (s : State T) (compatible : T → Bool) (upload : Option T → Bool → Option T) : State T :=
  { s with
    cache := (updateMatching s.done compatible upload s.cache).2
    fresh := s.fresh && freshUpdate s compatible upload }

def step (s : State T) : Event T ε → Option (State T)
  | .update upload => some (stepUpdate s (fun _ => true) upload)
  | .updateMatching compatible upload => some (stepUpdate s compatible upload)
  | .writableMatching compatible => some { s with cache := (writableMatching s.done compatible s.cache).2 }
  | .prepareMatching compatible allocate =>
    some { s with cache := (prepareMatching s.done compatible allocate s.cache).2 }
  | .markRead frame =>
    match s.cache.currentVersion, markRead s.done frame s.cache with
    | some v, some c => some { s with cache := c, reads := ⟨frame, v.slot, v.resource⟩ :: s.reads }
    | _, _ => none
  | .complete frame => some { s with done := Function.update s.done frame true }
  | .pruneIdle => some { s with cache := (pruneIdle s.done s.cache).2 }
  | .retainIdleSpare compatible => some { s with cache := (retainIdleSpare s.done compatible s.cache).2 }
  | .currentBusy => some { s with cache := (currentBusy s.done s.cache).2 }

/-- An empty cache, before any frame. -/
def system (T ε : Type*) [DecidableEq T] : System (State T) (Event T ε) where
  init := { cache := .new, done := fun _ => false, reads := [], fresh := true }
  step := step

end CocoaWay.TextureLifetime
