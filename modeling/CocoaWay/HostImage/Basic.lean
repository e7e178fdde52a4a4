import CocoaWay.Clipboard.Budget

/-!
# Images of the host clipboard

* `HostImageToken`, `HostClipboardContents` : which snapshot of the host clipboard is meant, and what is recorded of it;
  `mergeImage` adds a converted image;
* `HostImageWorker` : one conversion in flight, the latest pending job, and the worker thread behind two channels;
  `startPending`, `poll`;
* `PendingHostImageRequests` : the descriptors that wait for the image of one token; `reset`, `retain`, `take`;
* `loadSnapshot`, `pollResults`, `newSelection`, `installGuestClipboard`, `sendSelection` : the handlers that use them;
* `State`, `system` : any order of handlers, host copies and steps of the worker thread.
-/

namespace CocoaWay.HostImage
open Lib
open Clipboard (MAX_TRANSFERS)

abbrev Bytes := List UInt8

/-! ## Tokens and contents -/

structure HostImageToken where
  generation : Nat
  changeCount : Int
  deriving DecidableEq

namespace HostImageToken

def sourceIsCurrent (t : HostImageToken) (generation : Nat) (liveCount : Int) : Bool :=
  t.generation = generation && t.changeCount = liveCount

def isCurrent (t : HostImageToken) (generation : Nat) (cachedCount liveCount : Int) : Bool :=
  t.sourceIsCurrent generation liveCount && t.changeCount = cachedCount

end HostImageToken

abbrev HostImageResult := Except String (Option Bytes)

structure HostImageCompletion where
  token : HostImageToken
  result : HostImageResult

def HostImageCompletion.hasImage (c : HostImageCompletion) : Bool :=
  match c.result with
  | .ok image => image.isSome
  | .error _ => false

structure HostClipboardContents where
  text : Option String := none
  imagePng : Option Bytes := none
  textOnly : Bool := false

namespace HostClipboardContents

/-- Unresolved native images remain present. -/
def fromSnapshot (text : Option String) (imagePng : Option Bytes) (imageUnresolved : Bool) : HostClipboardContents where
  text := text
  imagePng := imagePng
  textOnly := imagePng.isNone && !imageUnresolved

def matchesTextOnly (c : HostClipboardContents) (text : String) : Bool :=
  c.textOnly && c.imagePng.isNone && c.text = some text

/-- `merge_image`: the contents after it, and whether they changed or the conversion failed. -/
def mergeImage (c : HostClipboardContents) (completion : HostImageCompletion) (generation : Nat)
    (cachedCount liveCount : Int) : HostClipboardContents × Except String Bool :=
  if completion.token.isCurrent generation cachedCount liveCount then
    match completion.result with
    | .ok image => ({ c with imagePng := image }, .ok (c.imagePng ≠ image))
    | .error error => (c, .error error)
  else (c, .ok false)

end HostClipboardContents

/-! ## The worker -/

structure HostImageJob where
  token : HostImageToken
  tiff : Bytes
  deriving DecidableEq

/-- The persistent worker thread. -/
inductive Thread
  | waiting
  | converting (job : HostImageJob)
  | exited
  deriving DecidableEq

/-- `HostImageChannels`, both of capacity one, with the thread between them. -/
structure HostImageChannels where
  jobs : List HostImageJob := []
  thread : Thread := .waiting
  results : List HostImageCompletion := []

structure HostImageWorker where
  pending : Option HostImageJob := none
  inFlight : Option HostImageToken := none
  worker : Option HostImageChannels := none

namespace HostImageChannels

/-- `try_send`. -/
def trySend (ch : HostImageChannels) (job : HostImageJob) : Option HostImageChannels :=
  if ch.thread = .exited ∨ 1 ≤ ch.jobs.length then none else some { ch with jobs := ch.jobs ++ [job] }

/-- The thread receives a job. -/
def receive (ch : HostImageChannels) : Option HostImageChannels :=
  match ch.thread, ch.jobs with
  | .waiting, job :: jobs => some { ch with jobs := jobs, thread := .converting job }
  | _, _ => none

/-- The thread sends a completion; a panic of the conversion is an error of it. -/
def finish (ch : HostImageChannels) (result : HostImageResult) : Option HostImageChannels :=
  match ch.thread with
  | .converting job =>
    if ch.results.length < 1 then
      some { ch with thread := .waiting, results := ch.results ++ [⟨job.token, result⟩] }
    else none
  | _ => none

/-- The thread ends and drops its end of the jobs. -/
def exit (ch : HostImageChannels) : HostImageChannels := { ch with jobs := [], thread := .exited }

end HostImageChannels

namespace HostImageWorker

def replacePending (w : HostImageWorker) (image : Option (HostImageToken × Bytes)) : HostImageWorker :=
  { w with pending := image.map fun (token, tiff) => ⟨token, tiff⟩ }

def hasWork (w : HostImageWorker) : Bool := w.pending.isSome || w.inFlight.isSome

def pendingToken (w : HostImageWorker) : Option HostImageToken := w.pending.map HostImageJob.token

/-- `start_pending`; `spawnOk` is whether a thread can be spawned. The job is taken first: a failed start drops it. -/
def startPending (w : HostImageWorker) (spawnOk : Bool) : HostImageWorker × Except String Unit :=
  if w.inFlight.isSome then (w, .ok ())
  else match w.pending with
    | none => (w, .ok ())
    | some job =>
      let w := { w with pending := none }
      if w.worker.isNone && !spawnOk then (w, .error "thread spawn failed")
      else match (w.worker.getD {}).trySend job with
        | some ch => ({ w with worker := some ch, inFlight := some job.token }, .ok ())
        | none => ({ w with worker := none }, .error "macOS clipboard image worker unavailable")

/-- `poll`. -/
def poll (w : HostImageWorker) : Option HostImageCompletion × HostImageWorker :=
  match w.inFlight, w.worker with
  | some token, some ch =>
    match ch.results with
    | completion :: results =>
      (some completion, { w with inFlight := none, worker := some { ch with results := results } })
    | [] =>
      if ch.thread = .exited then
        (some ⟨token, .error "macOS clipboard image worker exited without a result"⟩,
          { w with inFlight := none, worker := none })
      else (none, w)
  | _, _ => (none, w)

end HostImageWorker

/-! ## Waiting descriptors -/

/-- A descriptor, with the token its client asked for. -/
structure Waiting where
  fd : Nat
  asked : HostImageToken

structure PendingHostImageRequests where
  token : Option HostImageToken := none
  fds : List Waiting := []

namespace PendingHostImageRequests

/-- `reset`: the descriptors it drops, and the requests after it. -/
def reset (r : PendingHostImageRequests) (token : Option HostImageToken) : List Waiting × PendingHostImageRequests :=
  (r.fds, { token := token, fds := [] })

def retain (r : PendingHostImageRequests) (token : HostImageToken) (fd : Waiting) :
    Except String PendingHostImageRequests :=
  if r.token ≠ some token then .error "clipboard image snapshot is no longer pending"
  else if MAX_TRANSFERS ≤ r.fds.length then .error "pending clipboard image FD limit reached"
  else .ok { r with fds := r.fds ++ [fd] }

def take (r : PendingHostImageRequests) (token : HostImageToken) : List Waiting × PendingHostImageRequests :=
  if r.token ≠ some token then ([], r) else (r.fds, { token := none, fds := [] })

end PendingHostImageRequests

/-! ## The handlers -/

inductive ClipboardPayload
  | text (text : String)
  | image (image : Bytes)

/-- What became of a descriptor. -/
inductive Outcome
  /-- A waiting descriptor got an image converted for a token. -/
  | sent (fd : Waiting) (token : HostImageToken) (image : Bytes)
  /-- The recorded contents were sent at once. -/
  | served (fd : Waiting) (payload : ClipboardPayload)
  | closed (fd : Waiting)

def Outcome.fd : Outcome → Waiting
  | .sent fd _ _ | .served fd _ | .closed fd => fd

structure State where
  worker : HostImageWorker := {}
  requests : PendingHostImageRequests := {}
  contents : HostClipboardContents := {}
  /-- `guest_clipboard_generation`. -/
  generation : Nat := 0
  /-- `pasteboard_change_count`. -/
  cachedCount : Int := -1
  /-- The change count of the host pasteboard itself. -/
  liveCount : Int := 0
  /-- What became of the descriptors that are not waiting, newest first. -/
  outcomes : List Outcome := []
  /-- The descriptors handed over by clients so far, newest first. -/
  handed : List Waiting := []
  /-- The jobs offered by snapshots, the jobs started and the conversions finished so far, newest first. -/
  offered : List HostImageJob := []
  started : List HostImageJob := []
  finished : List HostImageCompletion := []

namespace State

def isCurrent (s : State) (token : HostImageToken) : Bool := token.isCurrent s.generation s.cachedCount s.liveCount

def closeAll (s : State) (fds : List Waiting) : State := { s with outcomes := fds.map Outcome.closed ++ s.outcomes }

def resetRequests (s : State) (token : Option HostImageToken) : State :=
  { s with requests := (s.requests.reset token).2 }.closeAll (s.requests.reset token).1

/-- The first part of `poll_host_clipboard_results`: requests for a superseded snapshot are dropped. -/
def expire (s : State) : State :=
  if s.requests.token.any fun token => !s.isCurrent token then s.resetRequests none else s

/-- What a descriptor that waits for a completion gets, where `contents` are the merged contents. -/
def answer (s : State) (completion : HostImageCompletion) (contents : HostClipboardContents) (fd : Waiting) : Outcome :=
  if s.isCurrent completion.token && completion.hasImage then
    match contents.imagePng with
    | some image => .sent fd completion.token image
    | none => .closed fd
  else .closed fd

/-- A completion goes into the contents and to the descriptors that wait for its token. -/
def settle (s : State) (completion : HostImageCompletion) : State :=
  let (fds, requests) := s.requests.take completion.token
  let contents := (s.contents.mergeImage completion s.generation s.cachedCount s.liveCount).1
  { s with
    requests := requests
    contents := contents
    outcomes := fds.map (s.answer completion contents) ++ s.outcomes }

def receiveResult (s : State) : State :=
  match s.worker.poll with
  | (some completion, worker) => { s with worker := worker }.settle completion
  | (none, worker) => { s with worker := worker }

/-- The last part: the pending job is dropped when superseded, else started. -/
def startNext (s : State) (spawnOk : Bool) : State :=
  match s.worker.pending with
  | none => s
  | some job =>
    if !s.isCurrent job.token then { s with worker := s.worker.replacePending none }
    else match s.worker.startPending spawnOk with
      | (worker, .ok ()) =>
        { s with
          worker := worker
          started := if s.worker.inFlight.isNone then job :: s.started else s.started }
      | (worker, .error _) =>
        let (fds, requests) := s.requests.take job.token
        { s with worker := worker, requests := requests }.closeAll fds

/-- `poll_host_clipboard_results`. -/
def pollResults (s : State) (spawnOk : Bool) : State :=
  if s.worker.hasWork then s.expire.receiveResult.startNext spawnOk else s

end State

/-- What a snapshot of the pasteboard holds of an image. -/
inductive CopiedImage
  | none
  | png (image : Bytes)
  | tiff (tiff : Bytes)
  | failed (error : String)

namespace State

/-- A changed snapshot of the host pasteboard is taken over; `none` where it did not change. -/
def loadSnapshot (s : State) (text : Option String) (image : CopiedImage) : Option State :=
  if s.liveCount = s.cachedCount then none
  else
    let generation := (s.generation + 1) % 2 ^ 64
    let token : HostImageToken := ⟨generation, s.liveCount⟩
    let png := match image with
      | .png image => some image
      | _ => none
    let tiff := match image with
      | .tiff tiff => some (token, tiff)
      | _ => none
    let unresolved := match image with
      | .tiff _ | .failed _ => true
      | _ => false
    let s' := { s with
      generation := generation
      cachedCount := s.liveCount
      contents := .fromSnapshot text png unresolved
      worker := s.worker.replacePending tiff
      offered := (tiff.map fun (token, tiff) => HostImageJob.mk token tiff).toList ++ s.offered }
    some (s'.resetRequests (tiff.map Prod.fst))

/-- `refresh_host_clipboard`; the host may copy again before the results are polled. -/
def refreshHostClipboard (s : State) (text : Option String) (image : CopiedImage) (liveCount : Int) (spawnOk : Bool) :
    State :=
  match s.loadSnapshot text image with
  | some s => State.pollResults { s with liveCount := liveCount } spawnOk
  | none => s.pollResults spawnOk

/-- `new_selection` of the clipboard by a guest. -/
def newSelection (s : State) : State :=
  { s with
    generation := (s.generation + 1) % 2 ^ 64
    worker := s.worker.replacePending none }.resetRequests none

/-- `install_guest_clipboard`; `newCount` is the change count after writing to the pasteboard, and `ok` whether an image
could be written. -/
def installGuestClipboard (s : State) (generation : Nat) (changeCount : Int) (payload : ClipboardPayload)
    (newCount : Int) (ok : Bool) : State :=
  if !(HostImageToken.mk generation changeCount).sourceIsCurrent s.generation s.liveCount then s
  else
    let s := { s with worker := s.worker.replacePending none }.resetRequests none
    match payload with
    | .text text =>
      if s.contents.matchesTextOnly text then s
      else { s with liveCount := newCount, cachedCount := newCount, contents := .fromSnapshot (some text) none false }
    | .image image =>
      if s.contents.imagePng = some image && s.contents.text.isNone then s
      else if !ok then { s with liveCount := newCount }
      else { s with liveCount := newCount, cachedCount := newCount, contents := .fromSnapshot none (some image) false }

end State

inductive MimeKind
  | image
  | text
  | other
  deriving DecidableEq

namespace State

/-- The payload the recorded contents have for a kind. -/
def payload (s : State) : MimeKind → Option ClipboardPayload
  | .image => s.contents.imagePng.map .image
  | .text => s.contents.text.map .text
  | .other => none

/-- `send_selection` to a client that was offered the contents under `userData`. -/
def sendSelection (s : State) (kind : MimeKind) (fd : Nat) (userData : HostImageToken) : State :=
  let w : Waiting := ⟨fd, userData⟩
  let s := { s with handed := w :: s.handed }
  if !s.isCurrent userData then s.closeAll [w]
  else if kind = .image ∧ s.contents.imagePng = none ∧ s.requests.token = some userData then
    match s.requests.retain userData w with
    | .ok requests => { s with requests := requests }
    | .error _ => s.closeAll [w]
  else match s.payload kind with
    | some payload => { s with outcomes := .served w payload :: s.outcomes }
    | none => s.closeAll [w]

end State

/-! ## Any order of events -/

inductive Event
  | load (text : Option String) (image : CopiedImage)
  | poll (spawnOk : Bool)
  | newSelection
  | installGuest (generation : Nat) (changeCount : Int) (payload : ClipboardPayload) (newCount : Int) (ok : Bool)
  | send (kind : MimeKind) (fd : Nat) (userData : HostImageToken)
  /-- Another application copies. -/
  | hostCopy (liveCount : Int)
  | receive
  | finish (result : HostImageResult)
  | exit

/-- A step of the worker thread. -/
def threadStep (s : State) (f : HostImageChannels → Option HostImageChannels) : Option State :=
  s.worker.worker.bind fun ch => (f ch).map fun ch => { s with worker := { s.worker with worker := some ch } }

def step (s : State) : Event → Option State
  | .load text image => s.loadSnapshot text image
  | .poll spawnOk => some (s.pollResults spawnOk)
  | .newSelection => some s.newSelection
  | .installGuest generation changeCount payload newCount ok =>
    some (s.installGuestClipboard generation changeCount payload newCount ok)
  | .send kind fd userData =>
    -- descriptors are new
    if s.handed.any fun w => w.fd = fd then none else some (s.sendSelection kind fd userData)
  | .hostCopy liveCount => some { s with liveCount := liveCount }
  | .receive => threadStep s HostImageChannels.receive
  | .finish result =>
    (threadStep s fun ch => ch.finish result).map fun s' =>
      match s.worker.worker.map HostImageChannels.thread with
      | some (.converting job) => { s' with finished := ⟨job.token, result⟩ :: s.finished }
      | _ => s'
  | .exit => threadStep s fun ch => some ch.exit

def system : System State Event where
  init := {}
  step := step

end CocoaWay.HostImage
