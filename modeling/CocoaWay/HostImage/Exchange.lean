import CocoaWay.HostImage.Main

/-!
# Copies of the host and of guests

* `Pasteboard` : what the host pasteboard holds; `Reading` : the payload of a guest's copy that is being read;
* `World` : the handlers with the pasteboard and the payloads under way; copies are counted, and the payload
  `install_guest_clipboard` was last called with for the newest copy is kept;
* `Move`, `exchange` : any order of copies, selections, requests, arrivals, refreshes and steps of the conversion.

A handler is one step. The reader of a payload may end without one.
-/

namespace CocoaWay.HostImage
open Lib

deriving instance DecidableEq for CopiedImage
deriving instance DecidableEq for ClipboardPayload

/-! ## Payloads and the pasteboard -/

structure Pasteboard where
  text : Option String := none
  image : CopiedImage := .none
  deriving DecidableEq

def CopiedImage.isTiff : CopiedImage → Bool
  | .tiff _ => true
  | _ => false

def ClipboardPayload.kind : ClipboardPayload → MimeKind
  | .text _ => .text
  | .image _ => .image

/-- A pasteboard with exactly the payload. -/
def Pasteboard.of : ClipboardPayload → Pasteboard
  | .text text => ⟨some text, .none⟩
  | .image image => ⟨none, .png image⟩

/-- Whether `install_guest_clipboard` takes the payload for the recorded contents, and writes nothing. -/
def HostClipboardContents.isPayload (c : HostClipboardContents) : ClipboardPayload → Bool
  | .text text => c.matchesTextOnly text
  | .image image => c.imagePng = some image && c.text.isNone

/-! ## The world -/

/-- A guest's payload that is being read, with the generation and the change count at the request. -/
structure Reading where
  generation : Nat
  changeCount : Int
  mime : MimeKind
  /-- How many copies were made before the request. -/
  copies : Nat
  deriving DecidableEq

structure World where
  state : State := {}
  pasteboard : Pasteboard := {}
  /-- `pending_guest_clipboard_mime`. -/
  pending : Option MimeKind := none
  readings : List Reading := []
  /-- The copies of the host and the selections of guests so far. -/
  copies : Nat := 0
  /-- The payload of the newest copy, once `install_guest_clipboard` was called with it and no write failed. -/
  delivered : Option ClipboardPayload := none

namespace World

/-- `source_is_current` of what the payload is delivered with. -/
def installs (w : World) (r : Reading) : Bool :=
  (HostImageToken.mk r.generation r.changeCount).sourceIsCurrent w.state.generation w.state.liveCount

/-- Whether the pasteboard is written when the payload arrives. -/
def writes (w : World) (r : Reading) (payload : ClipboardPayload) : Bool :=
  w.installs r && !w.state.contents.isPayload payload

/-- Another application copies; the change count grows with every copy. -/
def copy (w : World) (pasteboard : Pasteboard) (liveCount : Int) : Option World :=
  if w.state.liveCount < liveCount then
    some { w with
      state := { w.state with liveCount := liveCount }
      pasteboard := pasteboard
      copies := w.copies + 1
      delivered := none }
  else none

/-- `new_selection`, with the type the payload is to be read as, if there is one. -/
def select (w : World) (mime : Option MimeKind) : World :=
  { w with state := w.state.newSelection, pending := mime, copies := w.copies + 1, delivered := none }

/-- `request_pending_guest_clipboard`; `ok` is whether a reader could be started. -/
def request (w : World) (ok : Bool) : World :=
  match w.pending with
  | none => w
  | some mime =>
    { w with
      pending := none
      readings := if ok then ⟨w.state.generation, w.state.liveCount, mime, w.copies⟩ :: w.readings else w.readings }

/-- `refresh_host_clipboard`. -/
def refresh (w : World) (spawnOk : Bool) : World :=
  { w with
    state := w.state.refreshHostClipboard w.pasteboard.text w.pasteboard.image w.state.liveCount spawnOk
    pending := if w.state.liveCount = w.state.cachedCount then w.pending else none }

/-- A payload was read, and `install_guest_clipboard` is called with it. Where the pasteboard is written it is cleared
first; `ok` is whether the payload could then be set. -/
def arrive (w : World) (r : Reading) (payload : ClipboardPayload) (newCount : Int) (ok : Bool) : Option World :=
  if r ∈ w.readings ∧ payload.kind = r.mime ∧ (w.writes r payload = true → w.state.liveCount < newCount) then
    some { w with
      state := w.state.installGuestClipboard r.generation r.changeCount payload newCount ok
      pasteboard := if w.writes r payload then (if ok then .of payload else {}) else w.pasteboard
      readings := w.readings.erase r
      delivered :=
        if r.copies = w.copies then (if w.writes r payload && !ok then none else some payload) else w.delivered }
  else none

end World

/-! ## Any order of moves -/

inductive Move
  | copy (pasteboard : Pasteboard) (liveCount : Int)
  | select (mime : Option MimeKind)
  | request (ok : Bool)
  | refresh (spawnOk : Bool)
  | arrive (r : Reading) (payload : ClipboardPayload) (newCount : Int) (ok : Bool)
  /-- The reader ends without a payload. -/
  | lose (r : Reading)
  /-- A poll for a converted image, a step of the worker thread, or a client that asks for the contents. -/
  | inner (e : Event)

def Event.isInner : Event → Bool
  | .poll _ | .receive | .finish _ | .exit | .send _ _ _ => true
  | .load _ _ | .newSelection | .installGuest _ _ _ _ _ | .hostCopy _ => false

def World.step (w : World) : Move → Option World
  | .copy pasteboard liveCount => w.copy pasteboard liveCount
  | .select mime => some (w.select mime)
  | .request ok => some (w.request ok)
  | .refresh spawnOk => some (w.refresh spawnOk)
  | .arrive r payload newCount ok => w.arrive r payload newCount ok
  | .lose r => some { w with readings := w.readings.erase r }
  | .inner e => if e.isInner then (HostImage.step w.state e).map fun s => { w with state := s } else none

def exchange : System World Move where
  init := {}
  step := World.step

end CocoaWay.HostImage
