import CocoaWay.Lib.Table
import CocoaWay.Pixels.Upload
import CocoaWay.RenderBudget.Main
import CocoaWay.TextureLifetime.Main

/-!
# The texture cache of a renderer

A renderer keeps texture versions for each surface, and each texture a reservation in the process-wide budget. An
upload is prepared first, which may reserve, and published later; frames complete on other threads at any time.

* `Frame` : a frame in flight and the reservations it holds, also those its completion has yet to let go of;
* `World` : the budget, the caches of one renderer, its frames, and the upload that is prepared;
* `World.sweep` : a reservation is returned with the last reference to it;
* `allocateTexture`, `prepareMatchingWith`, `preflight`, `draw`, `drawFromCache`, `trim`, `evict` : what the main
  thread does;
* `startCompletion`, `publishCompletion`, `finishCompletion` : the three moments of `complete`;
* `system` : all of these in any order that one main thread can take them, and anything the other renderers do.
-/

namespace CocoaWay.Renderer
open Lib TextureLifetime Pixels
open RenderBudget (Reservation TextureBudget BudgetError tryReserveReplacing creditOf)
open Presentation (Rect)

variable {κ σ : Type} [DecidableEq κ] [DecidableEq σ]

/-- A texture that is paid for. -/
abbrev Resource (κ : Type) := TextureResource (Reservation κ)

abbrev Cache (κ : Type) := TextureVersions (Resource κ)

/-- `FrameLifetime`; `taken` is what the completion handler has taken out and has yet to drop. -/
structure Frame (κ : Type) where
  reservations : List (Reservation κ)
  started : Bool
  completed : Bool
  taken : List (Reservation κ)

def Frame.new : Frame κ := ⟨[], false, false, []⟩

/-- A `PixelPreflight`, with the idle reservation that admission credited. -/
structure Token (κ σ : Type) where
  surface : σ
  frame : Nat
  prepared : PixelPreflight (Reservation κ)
  credit : Option (Reservation κ)

structure World (κ σ : Type) where
  budget : RenderBudget.State κ
  caches : Table σ (Cache κ)
  frames : Table Nat (Frame κ)
  nextFrame : Nat
  token : Option (Token κ σ)

def World.new : World κ σ := ⟨.new, ∅, ∅, 0, none⟩

/-- A frame that is gone or completed no longer counts as a reader. -/
def World.done (w : World κ σ) (frame : Nat) : Bool := (w.frames.get frame).all (·.completed)

/-! ## References -/

def reservationsOf (cache : Cache κ) : List (Reservation κ) := cache.versions.map (·.resource.reservation)

def Token.reservations (token : Token κ σ) : List (Reservation κ) :=
  token.prepared.resource.toList.map (·.reservation)

/-- The reservations of textures that are cached or prepared. -/
def World.owned (w : World κ σ) : List (Reservation κ) :=
  w.caches.values.flatMap reservationsOf ++ w.token.toList.flatMap Token.reservations

/-- Those that frames in flight read. -/
def World.reading (w : World κ σ) : List (Reservation κ) := w.frames.values.flatMap Frame.reservations

/-- Those that a running completion has yet to drop. -/
def World.late (w : World κ σ) : List (Reservation κ) := w.frames.values.flatMap Frame.taken

def World.references (w : World κ σ) : List (Reservation κ) := w.owned ++ w.reading ++ w.late

/-- What has lost its last reference is dropped. -/
def World.sweep (client : κ) (w : World κ σ) : World κ σ :=
  { w with
    budget := (w.budget.live.filter fun r => r.client = client ∧ r ∉ w.references).foldl RenderBudget.drop w.budget }

/-- The versions of a surface, none at first. -/
def World.cacheOf (w : World κ σ) (surface : σ) : Cache κ := (w.caches.get surface).getD .new

def World.setCache (w : World κ σ) (surface : σ) (cache : Cache κ) : World κ σ :=
  { w with caches := w.caches.set surface cache }

/-- The prepared upload goes, with the storage it has not given to a cache. -/
def World.dropToken (client : κ) (w : World κ σ) : World κ σ := { w with token := none }.sweep client

/-! ## Preparing an upload -/

/-- Metal's answer for a texture descriptor. -/
structure Layout where
  size : Nat
  align : Nat

/-- `texture_reservation_bytes`. -/
def textureReservationBytes (layout : Layout) (width height : Int) : Option Nat :=
  (toUsize width).bind fun width => (toUsize height).bind fun height =>
  (checkedMul width height).bind fun pixels => (checkedMul pixels 4).bind fun packed =>
    if packed = 0 then none
    else
      let align := max layout.align (64 * 1024)
      (checkedAdd (max layout.size packed) (align - 1)).map fun bytes => bytes / align * align

/-- What the device makes of a request: a texture and the size that it really has. -/
structure Device where
  layout : Layout
  texture : Option (Nat × Nat)

/-- `allocate_texture`; an error that is not the budget's leaves the reservation to be dropped. -/
def allocateTexture (b : TextureBudget) (client : κ) (texW texH : Int) (device : Device) (idle : Option (Resource κ))
    (budget : RenderBudget.State κ) : Except (Option BudgetError) (Resource κ) × RenderBudget.State κ :=
  match textureReservationBytes device.layout texW texH with
  | none => (.error none, budget)
  | some bytes =>
    match tryReserveReplacing b budget bytes client (idle.map (·.reservation)) with
    | (.error e, budget) => (.error (some e), budget)
    | (.ok reservation, budget) =>
      match device.texture with
      | none => (.error none, budget)
      | some (texture, allocated) =>
        if reservation.bytes < allocated then (.error none, budget)
        else (.ok ⟨texture, texW, texH, reservation⟩, budget)

/-- `prepare_matching`, with a callback that changes a state, and the resource the callback was given. -/
def prepareMatchingWith {T ε S : Type} (done : Nat → Bool) (compatible : T → Bool)
    (allocate : Option T → S → Except ε T × S) (c : TextureVersions T) (s : S) :
    Except (PrepareError ε) (Option T) × TextureVersions T × S × Option T :=
  match writableMatching done compatible c with
  | (.error _, c) => (.error .busy, c, s, none)
  | (.ok idle, c) =>
    if idle.any compatible then (.ok none, c, s, none)
    else
      match allocate idle s with
      | (.ok t, s) => (.ok (some t), c, s, idle)
      | (.error e, s) => (.error (.allocation e), c, s, idle)

/-- Trim the versions of one surface; what is left may go to the next sweep. -/
def World.trim (w : World κ σ) (surface : σ) (compatible : Resource κ → Bool) : World κ σ :=
  match w.caches.get surface with
  | some cache => w.setCache surface (retainIdleSpare w.done compatible cache).2
  | none => w

/-- `prune_idle_texture_versions(true)`, in this renderer. -/
def World.pruneAll (w : World κ σ) : World κ σ := w.caches.keys.foldl (fun w surface => w.trim surface fun _ => false) w

/-- What an attempt ends with: its result, and what admission credited. -/
structure Attempt (κ σ : Type) where
  result : Except (PrepareError (Option BudgetError)) (Option (Resource κ))
  world : World κ σ
  credit : Option (Reservation κ)

/-- One round of the loop of `preflight_pixels`. -/
def attempt (b : TextureBudget) (client : κ) (w : World κ σ) (surface : σ) (damage : Option Rect) (texW texH : Int)
    (device : Device) : Attempt κ σ :=
  let compatible := TextureResource.compatible texW texH
  match w.caches.get surface with
  | some cache =>
    if cache.currentResource.any compatible && damage.isNone then ⟨.ok none, w, none⟩
    else
      -- Reading whether the current version is busy prunes its readers.
      let cache := (currentBusy w.done (retainIdleSpare w.done compatible cache).2).2
      let w := (w.setCache surface cache).sweep client
      let (result, cache, budget, idle) :=
        prepareMatchingWith w.done compatible (allocateTexture b client texW texH device) cache w.budget
      ⟨result, { w.setCache surface cache with budget }, creditOf b w.budget client (idle.map (·.reservation))⟩
  | none =>
    match allocateTexture b client texW texH device none w.budget with
    | (.ok resource, budget) => ⟨.ok (some resource), { w with budget }, none⟩
    | (.error e, budget) => ⟨.error (.allocation e), { w with budget }, none⟩

/-- The loop: under pressure every idle alternate goes, and there is a second round. -/
def attempts (b : TextureBudget) (client : κ) (w : World κ σ) (surface : σ) (damage : Option Rect) (texW texH : Int)
    (first second : Device) : Attempt κ σ :=
  let attempt₁ := attempt b client w surface damage texW texH first
  match attempt₁.result with
  | .error (.allocation (some .pressure)) =>
    let attempt₂ := attempt b client (attempt₁.world.pruneAll.sweep client) surface damage texW texH second
    match attempt₂.result with
    | .error (.allocation (some .pressure)) => { attempt₂ with world := attempt₂.world.pruneAll }
    | _ => attempt₂
  | _ => attempt₁

/-- `preflight_pixels`; no upload is prepared when it fails. -/
def preflight (b : TextureBudget) (client : κ) (w : World κ σ) (surface : σ) (frame : Nat) (damage : List Rect)
    (texW texH : Int) (first second : Device) : World κ σ :=
  if texW ≤ 0 ∨ texH ≤ 0 then w
  else
    let last := attempts b client w surface (Presentation.coalesceDamage damage texW texH) texW texH first second
    match last.result with
    | .ok resource =>
      let prepared := preflightPixels damage texW texH (resource.map fun t => (t.texture, t.reservation))
      { last.world with token := prepared.map fun prepared => ⟨surface, frame, prepared, last.credit⟩ }.sweep client
    | .error _ => last.world.sweep client

/-! ## Publishing and drawing -/

/-- `retain_reservation`. -/
def World.retainReservation (w : World κ σ) (frame : Nat) (r : Reservation κ) : World κ σ :=
  match w.frames.get frame with
  | some f =>
    if f.started || r ∈ f.reservations then w
    else
      { w with
        frames := w.frames.set frame { f with reservations := f.reservations ++ [r] }
        budget := RenderBudget.beginRead w.budget r.id }
  | none => w

/-- The frame reads the current version; it panics when there is none. -/
def World.readCurrent (w : World κ σ) (surface : σ) (frame : Nat) (cache : Cache κ) : Option (World κ σ) :=
  match markRead w.done frame cache, cache.currentResource with
  | some cache, some resource => some ((w.setCache surface cache).retainReservation frame resource.reservation)
  | _, _ => none

/-- `update_matching` and what follows it, up to the trimming. -/
def publish (client : κ) (w : World κ σ) (surface : σ) (prepared : PixelPreflight (Reservation κ)) (texW texH : Int)
    (bytesPerRow : Nat) (cache : Cache κ) : Except UpdateError Unit × World κ σ × Cache κ :=
  let compatible := TextureResource.compatible texW texH
  match updateMatching w.done compatible
      (fun idle isCurrent => (uploadPixels prepared texW texH bytesPerRow idle isCurrent).map Prod.snd) cache with
  | (.error e, cache) =>
    let caches := if cache.currentResource.isNone then w.caches.remove surface else w.caches.set surface cache
    (.error e, { w with caches }.dropToken client, cache)
  | (.ok (), cache) =>
    let cache := (retainIdleSpare w.done compatible cache).2
    (.ok (), (w.setCache surface cache).dropToken client, cache)

/-- `draw_prepared_pixels`: the upload that is prepared is published and read by the frame, or is dropped. -/
def draw (client : κ) (w : World κ σ) (frame : Nat) (texW texH : Int) (bytesPerRow len : Nat) : Option (World κ σ) := do
  let token ← w.token
  let f ← w.frames.get frame
  let prepared := token.prepared
  if token.frame ≠ frame || f.started then
    some (w.dropToken client)
  else if (prepared.width, prepared.height) ≠ (texW, texH) ∨ !validPixelRange texW texH bytesPerRow len then
    some (w.dropToken client)
  else
    let cache := w.cacheOf token.surface
    let sameSize := cache.currentResource.any (TextureResource.compatible texW texH)
    if !sameSize || prepared.damage.isSome then
      match publish client w token.surface prepared texW texH bytesPerRow cache with
      | (.error _, w, _) => some w
      | (.ok (), w, cache) => w.readCurrent token.surface frame cache
    else (w.dropToken client).readCurrent token.surface frame cache

/-- `draw_from_cache`. -/
def drawFromCache (w : World κ σ) (surface : σ) (frame : Nat) : Option (World κ σ) := do
  let cache ← w.caches.get surface
  let _ ← w.frames.get frame
  if cache.currentResource.isNone then some w else w.readCurrent surface frame cache

def evict (client : κ) (w : World κ σ) (surface : σ) : World κ σ :=
  { w with caches := w.caches.remove surface }.sweep client

/-! ## Completions -/

/-- `complete`, up to the release of its lock: reads are ended and the reservations taken out. -/
def startCompletion (w : World κ σ) (frame : Nat) : Option (World κ σ) := do
  let f ← w.frames.get frame
  if f.started then none
  else
    some { w with
      frames := w.frames.set frame ⟨[], true, false, f.reservations⟩
      budget := (f.reservations.map (·.id)).foldl RenderBudget.endRead w.budget }

/-- Its versions may be written from now on. -/
def publishCompletion (w : World κ σ) (frame : Nat) : Option (World κ σ) := do
  let f ← w.frames.get frame
  if f.started && !f.completed then some { w with frames := w.frames.set frame { f with completed := true } } else none

/-- The reservations are dropped, and the frame leaves the gate. -/
def finishCompletion (client : κ) (w : World κ σ) (frame : Nat) : Option (World κ σ) := do
  let f ← w.frames.get frame
  if f.completed then some ({ w with frames := w.frames.remove frame }.sweep client) else none

/-! ## Runs -/

/-- `MAX_FRAMES`. -/
def maxFrames : Nat := 3

inductive Event (κ σ : Type)
  | begin
  | preflight (surface : σ) (frame : Nat) (damage : List Rect) (texW texH : Int) (first second : Device)
  /-- The snapshot failed. -/
  | abandon
  | draw (frame : Nat) (texW texH : Int) (bytesPerRow len : Nat)
  | drawFromCache (surface : σ) (frame : Nat)
  | trim (surface : σ) (compatible : Resource κ → Bool)
  | evict (surface : σ)
  | startCompletion (frame : Nat)
  | publishCompletion (frame : Nat)
  | finishCompletion (frame : Nat)
  /-- Another renderer uses the budget. -/
  | other (event : RenderBudget.Event κ)

/-- The event does not touch the reservations of this client. -/
def foreign (client : κ) : RenderBudget.Event κ → Bool
  | .reserve _ wake _ => wake ≠ client
  | .drop r | .beginRead r | .endRead r | .setRetired r _ => r.client ≠ client
  | .defer _ | .wakeWaiters | .notify => true

def step (b : TextureBudget) (client : κ) (w : World κ σ) : Event κ σ → Option (World κ σ)
  | .begin =>
    if w.token.isNone && w.frames.values.length < maxFrames then
      some { w with frames := w.frames.set w.nextFrame .new, nextFrame := w.nextFrame + 1 }
    else none
  -- An upload that is prepared is published or dropped before the main thread does anything else.
  | .preflight surface frame damage texW texH first second =>
    if w.token.isNone && (w.frames.get frame).isSome then
      some (preflight b client w surface frame damage texW texH first second)
    else none
  | .abandon => if w.token.isSome then some (w.dropToken client) else none
  | .draw frame texW texH bytesPerRow len => draw client w frame texW texH bytesPerRow len
  | .drawFromCache surface frame => if w.token.isNone then drawFromCache w surface frame else none
  | .trim surface compatible => if w.token.isNone then some ((w.trim surface compatible).sweep client) else none
  | .evict surface => if w.token.isNone then some (evict client w surface) else none
  | .startCompletion frame => startCompletion w frame
  | .publishCompletion frame => publishCompletion w frame
  | .finishCompletion frame => finishCompletion client w frame
  | .other event =>
    if foreign client event then (RenderBudget.step b w.budget event).map fun budget => { w with budget } else none

/-- The renderer of `client`, nothing cached. -/
def system (b : TextureBudget) (client : κ) : System (World κ σ) (Event κ σ) where
  init := .new
  step := step b client

end CocoaWay.Renderer
