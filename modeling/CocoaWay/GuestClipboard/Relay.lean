import CocoaWay.Lib.System
import Mathlib.Logic.Function.Basic

/-!
# The clipboard relay of a guest

* `readSelection` : what the relay makes of a selection; `Clipboard` : selections as the relay reads and offers them;
* `StateFile` : the state shared by the transfers; `recorded` : the digest it has of an end;
* `Transfer`, `Endpoint`, `World` : a transfer at one of its steps, an end with its watcher, and the relay;
* `Move`, `relay` : selections of users and steps of the transfers in any order, reads and copies that fail among them.

A watcher starts one transfer at a time, one for each change of its selection. It starts with the selection it finds.
-/

namespace CocoaWay.GuestClipboard
open Lib

/-! ## Reading a selection -/

structure Payload where
  mime : String
  data : List UInt8
  deriving DecidableEq

/-- A selection: the types it is offered as, each with its bytes. -/
structure Offer where
  types : List (String × List UInt8)
  /-- What the watcher writes to a transfer, and the type of it (`CLIPBOARD_TYPE`). -/
  watched : List UInt8
  watchedType : Option String

def Offer.data (offer : Offer) (mime : String) : Option (List UInt8) :=
  (offer.types.find? fun entry => entry.1 = mime).map (·.2)

/-- The types that are relayed, the best one first. -/
def candidates : List String :=
  ["image/png", "text/plain;charset=utf-8", "text/plain;charset=UTF-8", "text/plain", "UTF8_STRING", "TEXT", "STRING"]

def maxSelection : Nat := 67108864

/-- Neither empty nor larger than what is relayed. -/
def fits (data : List UInt8) : Bool := !data.isEmpty && data.length ≤ maxSelection

/-- `read_selection`, when no command fails. -/
def readSelection (offer : Offer) : Option Payload :=
  if fits offer.watched then
    (candidates.find? fun mime => offer.types.any fun entry => entry.1 = mime).bind fun mime =>
      let data := if offer.watchedType = some mime then some offer.watched else offer.data mime
      (data.filter fits).map fun data => ⟨mime, data⟩
  else none

/-- The selection `wl-copy --type` offers. -/
def Payload.offer (payload : Payload) : Offer where
  types := [(payload.mime, payload.data)]
  watched := payload.data
  watchedType := some payload.mime

/-- The digest of the state file, over the first two fields `cksum` writes. -/
def Payload.digest (cksum : List UInt8 → Nat × Nat) (payload : Payload) : String :=
  let sum := cksum payload.data
  payload.mime ++ ":" ++ toString sum.1 ++ ":" ++ toString sum.2

theorem readSelection_spec {offer : Offer} {payload : Payload} (h : readSelection offer = some payload) :
    payload.mime ∈ candidates ∧ fits payload.data = true := by
  unfold readSelection at h
  split at h
  · obtain ⟨mime, hmime, h⟩ := Option.bind_eq_some_iff.1 h
    obtain ⟨data, hdata, rfl⟩ := Option.map_eq_some_iff.1 h
    exact ⟨List.mem_of_find?_eq_some hmime, (Option.filter_eq_some_iff.1 hdata).2⟩
  · cases h

theorem readSelection_offer {payload : Payload} (hmime : payload.mime ∈ candidates) (hfits : fits payload.data = true) :
    readSelection payload.offer = some payload := by
  have hfind : (candidates.find? fun mime => payload.offer.types.any fun entry => entry.1 = mime) =
      some payload.mime := by
    have hpredicate : (fun mime => payload.offer.types.any fun entry => entry.1 = mime) =
        fun mime => decide (payload.mime = mime) := by
      funext mime
      simp [Payload.offer]
    rw [hpredicate]
    cases hfound : candidates.find? fun mime => decide (payload.mime = mime) with
    | none =>
      rw [List.find?_eq_none] at hfound
      exact absurd (decide_eq_true rfl) (hfound _ hmime)
    | some mime =>
      have hmime : payload.mime = mime := by simpa using List.find?_some hfound
      rw [hmime]
  unfold readSelection
  rw [if_pos (show fits payload.offer.watched = true from hfits), hfind, Option.bind_some]
  have hdata : (if payload.offer.watchedType = some payload.mime then some payload.offer.watched
      else payload.offer.data payload.mime) = some payload.data := if_pos rfl
  simp only [hdata, Option.filter_some, hfits, if_true, Option.map_some]

/-! ## The relay -/

/-- Selections, the payloads read from them, and their digests. What is copied can be read again as it was, and payloads
with one digest are one. -/
structure Clipboard (S P D : Type) where
  read : S → Option P
  offer : P → S
  digest : P → D
  read_offer : ∀ payload, read (offer payload) = some payload
  digest_injective : Function.Injective digest

/-- The clipboard of the script, for some payloads no two of which have one digest. -/
def shellClipboard (cksum : List UInt8 → Nat × Nat) (involved : Payload → Prop)
    (hdigest : ∀ p q, involved p → involved q → p.digest cksum = q.digest cksum → p = q) :
    Clipboard { offer : Offer // ∀ p, readSelection offer = some p → involved p }
      { p : Payload // involved p ∧ p.mime ∈ candidates ∧ fits p.data = true } String where
  read offer := match h : readSelection offer.1 with
    | none => none
    | some p => some ⟨p, offer.2 p h, readSelection_spec h⟩
  offer p := ⟨p.1.offer, fun q hq => by
    rw [readSelection_offer p.2.2.1 p.2.2.2] at hq
    exact Option.some.inj hq ▸ p.2.1⟩
  digest p := p.1.digest cksum
  read_offer := by
    rintro ⟨p, hinvolved, hmime, hfits⟩
    have hread := readSelection_offer hmime hfits
    split
    · next hnone =>
      rw [hread] at hnone
      cases hnone
    · next q hsome =>
      rw [hread] at hsome
      obtain rfl := Option.some.inj hsome
      rfl
  digest_injective := fun p q h => Subtype.ext (hdigest p.1 q.1 p.2.1 q.2.1 h)

inductive End
  | outer
  | inner
  deriving DecidableEq

def End.other : End → End
  | .outer => .inner
  | .inner => .outer

/-- The four lines of the state file. An empty digest is none. -/
structure StateFile (D : Type) where
  source : End
  sourceDigest : Option D
  destination : End
  destinationDigest : Option D

/-- The digest a transfer finds of its destination; the file is empty at first. -/
def destinationDigest {D : Type} (file : Option (StateFile D)) (source destination : End) : Option D :=
  match file with
  | none => none
  | some previous =>
    if previous.source = source ∧ previous.destination = destination then previous.destinationDigest
    else if previous.source = destination ∧ previous.destination = source then previous.sourceDigest
    else none

/-- The step a transfer has done last. -/
inductive Stage
  | read
  | locked
  | known
  | copied
  | written
  deriving DecidableEq

structure Transfer (P D : Type) where
  stage : Stage := .read
  payload : Option P
  /-- How often its source had changed when it was read. -/
  version : Nat
  /-- What the selection was copied from, as of `Endpoint.origin`. -/
  origin : Option Nat
  destinationDigest : Option D := none

structure Endpoint (S P D : Type) where
  changes : Nat := 0
  /-- The selections, by the number of changes before. -/
  held : Nat → S
  /-- The changes that no transfer was started for. -/
  announced : Nat := 1
  transfer : Option (Transfer P D) := none
  /-- The other end's number of changes when the selection was read there, if the relay copied it. -/
  origin : Option Nat := none
  /-- The number of changes up to the last copy of the relay. -/
  copied : Nat := 0
  /-- The number of changes up to the selection that was last copied to the other end. -/
  put : Option Nat := none

structure Copy (P : Type) where
  source : End
  version : Nat
  payload : P

structure World (S P D : Type) where
  ends : End → Endpoint S P D
  lock : Option End := none
  file : Option (StateFile D) := none
  /-- The copies so far, the newest first. -/
  copies : List (Copy P) := []

inductive Move (S : Type)
  /-- A user selects something. -/
  | change (e : End) (selection : S)
  /-- The watcher starts a transfer, which reads the payload. -/
  | read (e : End) (ok : Bool)
  | lock (e : End)
  | readState (e : End)
  /-- The copy, or nothing where none is needed. -/
  | copy (e : End) (ok : Bool)
  | writeState (e : End)
  | unlock (e : End)

section Relay

variable {S P D : Type} [DecidableEq D] (C : Clipboard S P D)

def Endpoint.selection (p : Endpoint S P D) : S := p.held p.changes

def Endpoint.change (p : Endpoint S P D) (selection : S) (origin : Option Nat) : Endpoint S P D :=
  { p with
    changes := p.changes + 1
    held := Function.update p.held (p.changes + 1) selection
    announced := p.announced + 1
    origin := origin }

/-- The payload to copy, if the destination is not known to have it. -/
def Transfer.toCopy (t : Transfer P D) : Option P :=
  t.payload.filter fun payload => t.destinationDigest ≠ some (C.digest payload)

/-- A transfer takes up the selection. -/
def Endpoint.start (p : Endpoint S P D) (ok : Bool) : Endpoint S P D :=
  { p with
    announced := p.announced - 1
    transfer := some
      { payload := if ok then C.read p.selection else none
        version := p.changes
        origin := p.origin } }

namespace World

def set (w : World S P D) (e : End) (p : Endpoint S P D) : World S P D := { w with ends := Function.update w.ends e p }

/-- The transfer of an end goes on as another. -/
def carry (w : World S P D) (e : End) (t : Transfer P D) : World S P D := w.set e { w.ends e with transfer := some t }

/-- The transfer of an end, if it has done the step last. -/
def at? (w : World S P D) (e : End) (stage : Stage) : Option (Transfer P D) :=
  (w.ends e).transfer.filter fun t => t.stage = stage

/-- The digest the state file has of an end. -/
def recorded (w : World S P D) (e : End) : Option D := destinationDigest w.file e.other e

def change (w : World S P D) (e : End) (selection : S) : World S P D := w.set e ((w.ends e).change selection none)

def read (w : World S P D) (e : End) (ok : Bool) : Option (World S P D) :=
  if (w.ends e).transfer.isNone ∧ 0 < (w.ends e).announced then some (w.set e ((w.ends e).start C ok)) else none

def takeLock (w : World S P D) (e : End) : Option (World S P D) :=
  if w.lock = none then
    (w.at? e .read).map fun t => { w.carry e { t with stage := .locked } with lock := some e }
  else none

def readState (w : World S P D) (e : End) : Option (World S P D) :=
  (w.at? e .locked).map fun t =>
    w.carry e { t with stage := .known, destinationDigest := destinationDigest w.file e e.other }

/-- A copy that is made. -/
def copied (w : World S P D) (e : End) (t : Transfer P D) (payload : P) : World S P D :=
  let source := { w.ends e with
    transfer := some { t with stage := .copied, destinationDigest := some (C.digest payload) }
    put := some t.version }
  let destination := (w.ends e.other).change (C.offer payload) (some t.version)
  { (w.set e source).set e.other { destination with copied := destination.changes } with
    copies := ⟨e, t.version, payload⟩ :: w.copies }

def copy (w : World S P D) (e : End) (ok : Bool) : Option (World S P D) :=
  (w.at? e .known).map fun t =>
    match t.toCopy C, ok with
    | some payload, true => w.copied C e t payload
    | _, _ => w.carry e { t with stage := .copied }

def writeState (w : World S P D) (e : End) : Option (World S P D) :=
  (w.at? e .copied).map fun t =>
    { w.carry e { t with stage := .written } with
      file := some
        { source := e
          sourceDigest := t.payload.map C.digest
          destination := e.other
          destinationDigest := t.destinationDigest } }

def unlock (w : World S P D) (e : End) : Option (World S P D) :=
  (w.at? e .written).map fun _ => { w.set e { w.ends e with transfer := none } with lock := none }

def step (w : World S P D) : Move S → Option (World S P D)
  | .change e selection => some (w.change e selection)
  | .read e ok => w.read C e ok
  | .lock e => w.takeLock e
  | .readState e => w.readState e
  | .copy e ok => w.copy C e ok
  | .writeState e => w.writeState C e
  | .unlock e => w.unlock e

end World

/-- The relay, from the start of the watchers on. -/
def relay (outer inner : S) : System (World S P D) (Move S) where
  init :=
    { ends := fun
        | .outer => { held := fun _ => outer }
        | .inner => { held := fun _ => inner } }
  step := World.step C

end Relay

end CocoaWay.GuestClipboard
