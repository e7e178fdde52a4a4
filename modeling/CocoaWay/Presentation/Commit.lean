import CocoaWay.Presentation.Damage
import CocoaWay.RenderBudget.Basic
import CocoaWay.TextureLifetime.Main

/-!
# One surface and its cached textures

* `Buffer`, `Texture` : pixels by coordinates; `replaceRegion` writes a part of a buffer into a texture;
* `Pass` : what one render pass reads from outside: reader states, allocations, shared memory, the open frame;
* `preflightPixels`, `getOrCreateTexture`, `drawPreparedPixels`, `renderBuffer` : the path of a committed buffer;
* `preflightPixels_shown`, `getOrCreateTexture_uploaded` : what they leave as the current texture.
-/

namespace CocoaWay.Presentation

open CocoaWay.TextureLifetime
open CocoaWay.RenderBudget (BudgetError)

variable {α : Type}

/-- A committed `wl_shm` buffer, by its metadata and its pixels in texture format. -/
structure Buffer (α : Type) where
  width : Int
  height : Int
  pixels : Nat → Nat → α
  width_le : width ≤ i32Max
  height_le : height ≤ i32Max

structure Texture (α : Type) where
  width : Int
  height : Int
  pixels : Nat → Nat → α

/-- `replaceRegion`. -/
def Texture.replaceRegion (t : Texture α) (r : Rect) (b : Buffer α) : Texture α :=
  { t with pixels := fun x y => if r.Contains x y then b.pixels x y else t.pixels x y }

/-- The cache of one surface: `None` without an entry. -/
abbrev Cache (α : Type) := Option (TextureVersions (Texture α))

/-- The texture that a draw of the surface shows. -/
def Cache.shown (cache : Cache α) : Option (Texture α) := cache.bind TextureVersions.currentResource

/-- `PixelDrawResult`. -/
inductive DrawResult
  | drawn
  | deferred
  | rejected

/-- Which frames are done, as the version operations of one admission attempt find it, and its allocation: the contents
of a new texture or the reason why there is none. -/
structure Attempt (α : Type) where
  trimDone : Nat → Bool
  busyDone : Nat → Bool
  prepareDone : Nat → Bool
  sweepDone : Nat → Bool
  allocation : Except (Option BudgetError) (Nat → Nat → α)
  hasReaders : Bool

/-- What one render pass reads from outside. -/
structure Pass (α : Type) where
  /-- The metadata of the buffer can be read. -/
  contents : Bool
  /-- Surface and viewport have a geometry. -/
  geometry : Bool
  /-- A frame is open at the preflight. -/
  frame : Bool
  first : Attempt α
  second : Attempt α
  /-- Outcome of the last sweep, and readers elsewhere that may free budget. -/
  swept : Bool
  reclaimableReaders : Bool
  /-- The stride and length of the pixel snapshot, if one can be taken. -/
  snapshot : Option (Nat × Nat)
  /-- The draw has a positive size and the renderer of the preflight. -/
  placed : Bool
  frameOpen : Bool
  /-- The cached texture has a geometry, for the draws from the cache. -/
  cachedGeometry : Bool
  /-- The open frame is the one of the preflight and has not completed. -/
  accepted : Bool
  updateDone : Nat → Bool
  spareDone : Nat → Bool
  readDone : Nat → Bool
  frameId : Nat

/-! ## Admission -/

def compatible (width height : Int) (t : Texture α) : Bool := t.width = width && t.height = height

/-- `texture_preflight_result`. -/
def texturePreflightResult (p : Pass α) (denial : Option BudgetError) (retryInPlace : Bool) : DrawResult :=
  if denial = some .pressure ∧ (p.swept ∨ retryInPlace ∨ p.reclaimableReaders) then .deferred else .rejected

/-- `prune_idle_texture_versions(true)` on this cache. -/
def sweep (done : Nat → Bool) (cache : Cache α) : Cache α := cache.map fun entry => (pruneIdle done entry).2

/-- The body of the loop of `preflight_pixels`: the allocation, whether it may be retried in place, and the cache. -/
def preflightAttempt (a : Attempt α) (width height : Int) (damage : Option Rect) (cache : Cache α) :
    Except (PrepareError (Option BudgetError)) (Option (Texture α)) × Bool × Cache α :=
  let allocate : Except (Option BudgetError) (Texture α) := a.allocation.map fun pixels => ⟨width, height, pixels⟩
  match cache with
  | some entry =>
    if entry.currentResource.any (compatible width height) ∧ damage = none then (.ok none, false, some entry)
    else
      let trimmed := (retainIdleSpare a.trimDone (compatible width height) entry).2
      let (busy, entry) := currentBusy a.busyDone trimmed
      let (result, entry) := prepareMatching a.prepareDone (compatible width height) (fun _ => allocate) entry
      (result, busy || a.hasReaders, some entry)
  | none =>
    match allocate with
    | .ok texture => (.ok (some texture), false, none)
    | .error denial => (.error (.allocation denial), false, none)

/-- The second attempt of `preflight_pixels`, whose denial is final. -/
def preflightLast (p : Pass α) (width height : Int) (damage : Option Rect) (cache : Cache α) :
    Except DrawResult (Option (Texture α)) × Cache α :=
  match preflightAttempt p.second width height damage cache with
  | (.ok resource, _, cache) => (.ok resource, cache)
  | (.error .busy, _, cache) => (.error .deferred, cache)
  | (.error (.allocation denial), retryInPlace, cache) =>
    (.error (texturePreflightResult p denial retryInPlace),
      if denial = some .pressure then sweep p.second.sweepDone cache else cache)

/-- `preflight_pixels`, for damage already coalesced: the new storage if any is needed. -/
def preflightPixels (p : Pass α) (width height : Int) (damage : Option Rect) (cache : Cache α) :
    Except DrawResult (Option (Texture α)) × Cache α :=
  if width ≤ 0 ∨ height ≤ 0 then (.error .rejected, cache)
  else if !p.frame then (.error .deferred, cache)
  else
    match preflightAttempt p.first width height damage cache with
    | (.ok resource, _, cache) => (.ok resource, cache)
    | (.error .busy, _, cache) => (.error .deferred, cache)
    | (.error (.allocation denial), retryInPlace, cache) =>
      -- One retry, after a sweep of all caches.
      if denial = some .pressure then preflightLast p width height damage (sweep p.first.sweepDone cache)
      else (.error (texturePreflightResult p denial retryInPlace), cache)

/-! ## Upload -/

/-- `valid_pixel_range`. -/
def validPixelRange (width height : Int) (bytesPerRow len : Nat) : Bool :=
  0 < width && 0 < height && width * 4 ≤ bytesPerRow && (height - 1) * bytesPerRow + width * 4 ≤ len

/-- The byte offset of an upload, if `usize` holds it. -/
def byteOffset (upload : Rect) (bytesPerRow : Nat) : Option Nat :=
  let offset := upload.y.toNat * bytesPerRow + upload.x.toNat * 4
  if offset < 18446744073709551616 then some offset else none

/-- The callback of `update_matching`: the region to write, and the storage it goes to. -/
def upload (b : Buffer α) (damage : Option Rect) (resource : Option (Texture α)) (bytesPerRow : Nat)
    (idle : Option (Texture α)) (isCurrent : Bool) : Option (Texture α) :=
  let sameSize := idle.any (compatible b.width b.height)
  match textureUploadDamage isCurrent sameSize damage b.width b.height with
  | none => none
  | some region =>
    match byteOffset region bytesPerRow, if sameSize then idle else resource with
    | some _, some texture => some { texture.replaceRegion region b with width := b.width, height := b.height }
    | _, _ => none

/-- `get_or_create_texture`: an error leaves no new entry behind; `mark_read` finds a current version, or it would
panic. -/
def getOrCreateTexture (p : Pass α) (b : Buffer α) (damage : Option Rect) (resource : Option (Texture α))
    (bytesPerRow len : Nat) (cache : Cache α) : Except DrawResult Unit × Cache α :=
  if !validPixelRange b.width b.height bytesPerRow len then (.error .rejected, cache)
  else
    let entry := cache.getD .new
    let sameSize := entry.currentResource.any (compatible b.width b.height)
    if !sameSize || damage.isSome then
      match updateMatching p.updateDone (compatible b.width b.height) (upload b damage resource bytesPerRow) entry with
      | (.error error, entry) =>
        (.error (if error = .busy then .deferred else .rejected),
          if entry.currentResource.isNone then none else some entry)
      | (.ok _, entry) =>
        (.ok (), markRead p.readDone p.frameId
          (retainIdleSpare p.spareDone (compatible b.width b.height) entry).2)
    else (.ok (), markRead p.readDone p.frameId entry)

def drawPreparedPixels (p : Pass α) (b : Buffer α) (damage : Option Rect) (resource : Option (Texture α))
    (bytesPerRow len : Nat) (cache : Cache α) : DrawResult × Cache α :=
  if !p.placed then (.rejected, cache)
  else if !p.frameOpen then (.deferred, cache)
  else if !p.accepted then (.deferred, cache)
  else
    match getOrCreateTexture p b damage resource bytesPerRow len cache with
    | (.ok _, cache) => (.drawn, cache)
    | (.error result, cache) => (result, cache)

/-- `draw_from_cache`: reads the current texture, if there is one to draw. -/
def drawFromCache (p : Pass α) (cache : Cache α) : Cache α :=
  if p.cachedGeometry && p.frameOpen then cache.map fun entry =>
    (markRead p.readDone p.frameId entry).getD entry else cache

/-- The `NewBuffer` branch of `render_surface_tree` up to `finish_buffer_upload`. -/
def renderBuffer (p : Pass α) (m : Mapping) (damage : List Damage) (b : Buffer α) (cache : Cache α) :
    DrawResult × Cache α :=
  if !p.contents then (.rejected, cache)
  else
    let region := coalesceDamage (bufferDamageRects damage b.width b.height m) b.width b.height
    if !p.geometry then (.rejected, cache)
    else
      match preflightPixels p b.width b.height region cache with
      | (.error result, cache) => (result, cache)
      | (.ok resource, cache) =>
        match p.snapshot with
        | none => (.rejected, cache)
        | some (bytesPerRow, len) => drawPreparedPixels p b region resource bytesPerRow len cache

/-! ## What keeps the shown texture -/

/-- The current version of an entry keeps its resource, and its readers but for those in `p`. -/
def Kept (p : Nat → Bool) (e e' : TextureVersions (Texture α)) : Prop :=
  ∀ v, e.currentVersion = some v →
    ∃ v', e'.currentVersion = some v' ∧ v'.resource = v.resource ∧ ∀ f ∈ v.readers, p f = true ∨ f ∈ v'.readers

/-- The same for a cache, which gets no entry and loses none. -/
abbrev CacheKept (p : Nat → Bool) : Cache α → Cache α → Prop := Option.Rel (Kept p)

section Kept

variable {p q : Nat → Bool} {e e' e'' : TextureVersions (Texture α)} {c c' c'' : Cache α}

theorem Kept.refl (e : TextureVersions (Texture α)) : Kept p e e :=
  fun v hv => ⟨v, hv, rfl, fun _ hf => Or.inr hf⟩

theorem Kept.trans (h : Kept p e e') (h' : Kept p e' e'') : Kept p e e'' := by
  intro v hv
  obtain ⟨v', hv', hr, hf⟩ := h v hv
  obtain ⟨v'', hv'', hr', hf'⟩ := h' v' hv'
  refine ⟨v'', hv'', hr'.trans hr, fun f hfv => ?_⟩
  rcases hf f hfv with hp | hfv'
  · exact Or.inl hp
  · exact hf' f hfv'

theorem Kept.mono (h : Kept p e e') (hpq : ∀ f, p f = true → q f = true) : Kept q e e' := by
  intro v hv
  obtain ⟨v', hv', hr, hf⟩ := h v hv
  exact ⟨v', hv', hr, fun f hfv => (hf f hfv).imp_left (hpq f)⟩

theorem CacheKept.refl : (c : Cache α) → CacheKept p c c
  | none => .none
  | some e => .some (Kept.refl e)

theorem CacheKept.trans (h : CacheKept p c c') (h' : CacheKept p c' c'') : CacheKept p c c'' := by
  cases h with
  | none => exact h'
  | some h =>
    cases h' with
    | some h' => exact .some (h.trans h')

theorem CacheKept.mono (h : CacheKept p c c') (hpq : ∀ f, p f = true → q f = true) : CacheKept q c c' := by
  cases h with
  | none => exact .none
  | some h => exact .some (h.mono hpq)

theorem Kept.of_pruned {vs : List (Version (Texture α))} (h : AllPruned p e.versions vs) :
    Kept p e { e with versions := vs } := by
  intro v hv
  have hg := h.getElem? e.current
  rw [show e.versions[e.current]? = some v from hv] at hg
  cases hv' : vs[e.current]? with
  | none => simp [hv'] at hg
  | some v' =>
    rw [hv'] at hg
    have hpr : v.Pruned p v' := by simpa using hg
    refine ⟨v', hv', hpr.resource, fun f hf => ?_⟩
    by_cases hd : p f = true
    · exact Or.inl hd
    · exact Or.inr ((hpr.readers f (by simpa using hd)).2 hf)

theorem Kept.of_retain (compatible : Texture α → Bool) : Kept p e (retainIdleSpare q compatible e).2 :=
  fun v hv => ⟨v, retainIdleSpare_current q compatible hv, rfl, fun _ hf => Or.inr hf⟩

theorem CacheKept.of_sweep (done : Nat → Bool) (c : Cache α) : CacheKept p c (sweep done c) := by
  cases c with
  | none => exact .none
  | some e => exact .some (Kept.of_retain _)

theorem CacheKept.of_markRead {frame : Nat} (hc : (markRead p frame e).isSome) :
    CacheKept p (some e) (markRead p frame e) := by
  obtain ⟨e', he⟩ := Option.isSome_iff_exists.1 hc
  rw [he]
  refine .some fun v hv => ?_
  obtain ⟨u, u', hu, rfl, -, hr, hin, hrd⟩ := markRead_spec he
  obtain rfl : v = u := Option.some.inj (hv.symm.trans hu)
  refine ⟨u', ?_, hr, fun f hf => ?_⟩
  · show (e.versions.set e.current u')[e.current]? = some u'
    rw [List.getElem?_set_self (List.getElem?_eq_some_iff.1 hu).1]
  · by_cases hd : p f = true
    · exact Or.inl hd
    · by_cases hff : f = frame
      · exact Or.inr (hff ▸ hin)
      · exact Or.inr ((hrd f (by simpa using hd) hff).2 hf)

theorem markRead_isSome {v : Version (Texture α)} (hv : e.currentVersion = some v) (frame : Nat) :
    (markRead p frame e).isSome := by
  have hv' : e.versions[e.current]? = some v := hv
  simp [markRead, hv']

end Kept

/-- The frames found done by some version operation of an attempt. -/
def Attempt.doneBy (a : Attempt α) (f : Nat) : Bool := a.trimDone f || a.busyDone f || a.prepareDone f || a.sweepDone f

/-- The frames found done by some version operation of a pass, up to the update. -/
def Pass.doneBy (p : Pass α) (f : Nat) : Bool := p.first.doneBy f || p.second.doneBy f || p.updateDone f

section Preflight

variable {p : Pass α} {a : Attempt α} {width height : Int} {damage : Option Rect} {cache : Cache α}

theorem preflightAttempt_kept (a : Attempt α) (width height : Int) (damage : Option Rect) (cache : Cache α) :
    CacheKept a.doneBy cache (preflightAttempt a width height damage cache).2.2 := by
  cases cache with
  | none =>
    unfold preflightAttempt
    dsimp only
    split <;> exact .none
  | some entry =>
    unfold preflightAttempt
    dsimp only
    split
    · exact CacheKept.refl _
    · have ht : Kept a.doneBy entry (retainIdleSpare a.trimDone (compatible width height) entry).2 := Kept.of_retain _
      obtain ⟨vs, hb, heb⟩ := currentBusy_pruned a.busyDone (retainIdleSpare a.trimDone (compatible width height) entry).2
      obtain ⟨vs', hp, hep⟩ := prepareMatching_pruned a.prepareDone (compatible width height)
        (fun _ => a.allocation.map fun pixels => (⟨width, height, pixels⟩ : Texture α))
        (currentBusy a.busyDone (retainIdleSpare a.trimDone (compatible width height) entry).2).2
      refine .some (ht.trans ((Kept.mono (Kept.of_pruned hb) ?_).trans ?_))
      · intro f hf
        simp [Attempt.doneBy, hf]
      · rw [← heb]
        have := (Kept.of_pruned hp).mono (q := a.doneBy) fun f hf => by simp [Attempt.doneBy, hf]
        rwa [← hep] at this

theorem preflightLast_kept (p : Pass α) (width height : Int) (damage : Option Rect) (cache : Cache α) :
    CacheKept p.second.doneBy cache (preflightLast p width height damage cache).2 := by
  have h := preflightAttempt_kept p.second width height damage cache
  unfold preflightLast
  split
  · rename_i he
    rwa [he] at h
  · rename_i he
    rwa [he] at h
  · rename_i he
    rw [he] at h
    split
    · exact h.trans (.of_sweep _ _)
    · exact h

/-- Admission leaves the shown texture alone. -/
theorem preflightPixels_kept (p : Pass α) (width height : Int) (damage : Option Rect) (cache : Cache α) :
    CacheKept p.doneBy cache (preflightPixels p width height damage cache).2 := by
  have h := (preflightAttempt_kept p.first width height damage cache).mono (q := p.doneBy)
    fun f hf => by simp [Pass.doneBy, hf]
  unfold preflightPixels
  split
  · exact CacheKept.refl _
  · split
    · exact CacheKept.refl _
    · split
      · rename_i he
        rwa [he] at h
      · rename_i he
        rwa [he] at h
      · rename_i he
        rw [he] at h
        split
        · refine h.trans ((CacheKept.of_sweep p.first.sweepDone _).trans ?_)
          exact (preflightLast_kept p width height damage _).mono fun f hf => by simp [Pass.doneBy, hf]
        · exact h

end Preflight

/-! ## What a draw shows -/

/-- A texture has the size and the pixels of a buffer. -/
structure Texture.Shows (t : Texture α) (b : Buffer α) : Prop where
  width : t.width = b.width
  height : t.height = b.height
  pixels : ∀ x y : Nat, (x : Int) < b.width → (y : Int) < b.height → t.pixels x y = b.pixels x y

/-- The texture `t` shown after a draw of `b`, by what was in the cache before. -/
inductive Uploaded (doneBy : Nat → Bool) (b : Buffer α) (damage : Option Rect) (cache : Cache α) (t : Texture α) : Prop
  | full (h : t.Shows b)
  /-- The damage was written into the current texture, which no unfinished frame reads. -/
  | inPlace {e : TextureVersions (Texture α)} {v : Version (Texture α)} {r : Rect} (hc : cache = some e)
      (hv : e.currentVersion = some v) (hcomp : compatible b.width b.height v.resource = true) (hd : damage = some r)
      (hidle : ∀ f ∈ v.readers, doneBy f = true)
      (ht : t = { v.resource.replaceRegion r b with width := b.width, height := b.height })
  /-- Without damage the current texture stays as it is. -/
  | untouched {e : TextureVersions (Texture α)} {v : Version (Texture α)} (hc : cache = some e)
      (hv : e.currentVersion = some v) (hcomp : compatible b.width b.height v.resource = true) (hd : damage = none)
      (ht : t = v.resource)

variable {damage : Option Rect} {cache : Cache α} {b : Buffer α} {t : Texture α} {q : Nat → Bool} {p : Pass α}

theorem compatible_iff {width height : Int} :
    compatible width height t = true ↔ t.width = width ∧ t.height = height := by
  simp [compatible]

theorem shows_replaceRegion (t : Texture α) :
    Texture.Shows { t.replaceRegion ⟨0, 0, b.width, b.height⟩ b with width := b.width, height := b.height } b := by
  refine ⟨rfl, rfl, fun x y hx hy => ?_⟩
  have hr : Rect.Contains ⟨0, 0, b.width, b.height⟩ x y := by
    refine ⟨?_, ?_, ?_, ?_⟩ <;> dsimp only <;> omega
  exact if_pos hr

theorem upload_spec {resource idle : Option (Texture α)} {bytesPerRow : Nat}
    {isCurrent : Bool} (h : upload b damage resource bytesPerRow idle isCurrent = some t) :
    t.Shows b ∨ ∃ u r, idle = some u ∧ isCurrent = true ∧ compatible b.width b.height u = true ∧ damage = some r ∧
      t = { u.replaceRegion r b with width := b.width, height := b.height } := by
  unfold upload at h
  dsimp only at h
  split at h
  · cases h
  · rename_i region hregion
    split at h
    · rename_i texture hoff htex
      cases h
      by_cases hp : (isCurrent && idle.any (compatible b.width b.height)) = true
      · right
        rw [textureUploadDamage, if_pos hp] at hregion
        rw [Bool.and_eq_true] at hp
        rw [if_pos hp.2] at htex
        subst htex
        exact ⟨texture, region, rfl, hp.1, by simpa using hp.2, hregion, rfl⟩
      · left
        rw [textureUploadDamage, if_neg hp, Option.some.injEq] at hregion
        subst hregion
        exact shows_replaceRegion texture
    · cases h

/-- Every entry has a current version. -/
def Cache.Valid (cache : Cache α) : Prop := ∀ e ∈ cache, ∃ v, e.currentVersion = some v

theorem CacheKept.valid {c c' : Cache α} (h : CacheKept q c c') (hv : c.Valid) : c'.Valid := by
  cases h with
  | none => exact hv
  | some h =>
    intro e he
    cases he
    obtain ⟨v, hv⟩ := hv _ rfl
    obtain ⟨v', hv', -⟩ := h v hv
    exact ⟨v', hv'⟩

theorem CacheKept.shown {c c' : Cache α} (h : CacheKept q c c') (hv : c.Valid) : c'.shown = c.shown := by
  cases h with
  | none => rfl
  | some h =>
    obtain ⟨v, hv⟩ := hv _ rfl
    obtain ⟨v', hv', hr, -⟩ := h v hv
    simp [Cache.shown, TextureVersions.currentResource, hv, hv', hr]

/-- An update with the upload callback: failed without an effect on the shown texture, or with a new one. -/
theorem updateMatching_upload (doneBy : Nat → Bool) (b : Buffer α) (damage : Option Rect)
    (resource : Option (Texture α))
    (bytesPerRow : Nat) (e : TextureVersions (Texture α)) :
    (∃ error vs, updateMatching doneBy (compatible b.width b.height) (upload b damage resource bytesPerRow) e =
      (.error error, { e with versions := vs }) ∧ AllPruned doneBy e.versions vs) ∨
    ∃ e' v', updateMatching doneBy (compatible b.width b.height) (upload b damage resource bytesPerRow) e =
      (.ok (), e') ∧
      e'.currentVersion = some v' ∧
      (v'.resource.Shows b ∨ ∃ v r, e.currentVersion = some v ∧ compatible b.width b.height v.resource = true ∧
        damage = some r ∧ (∀ f ∈ v.readers, doneBy f = true) ∧
        v'.resource = { v.resource.replaceRegion r b with width := b.width, height := b.height }) := by
  obtain ⟨vs, hp, hup⟩ := updateMatching_spec doneBy (compatible b.width b.height)
    (upload b damage resource bytesPerRow) e
  generalize hres : updateMatching doneBy (compatible b.width b.height) (upload b damage resource bytesPerRow) e =
    res at hup
  cases hup with
  | failed error => exact Or.inl ⟨error, vs, rfl, hp⟩
  | @rewritten target w t ht hw hidle hu =>
    refine Or.inr ⟨_, { w with resource := t }, rfl, ?_, ?_⟩
    · show (vs.set target _)[target]? = _
      rw [List.getElem?_set_self (List.getElem?_eq_some_iff.1 hw).1]
    · rcases upload_spec hu with hs | ⟨u, r, he, hcur, hcomp, hd, rfl⟩
      · exact Or.inl hs
      · obtain rfl : w.resource = u := Option.some.inj he
        obtain rfl : target = e.current := by simpa using hcur
        obtain ⟨v, hv, hpr⟩ := (hp.getElem? e.current).2 w hw
        refine Or.inr ⟨v, r, hv, hpr.resource ▸ hcomp, hd, hpr.idle_iff.1 hidle, ?_⟩
        rw [← hpr.resource]
  | @added t ht hlt hu =>
    refine Or.inr ⟨_, ⟨e.nextSlot, t, []⟩, rfl, ?_, ?_⟩
    · show (vs ++ [_])[vs.length]? = _
      rw [List.getElem?_append_right (Nat.le_refl _), Nat.sub_self]
      rfl
    · rcases upload_spec hu with hs | ⟨u, r, he, -⟩
      · exact Or.inl hs
      · cases he

/-- Trimming the spares and marking the read keep the texture just shown. -/
theorem markRead_shown {e : TextureVersions (Texture α)} {v : Version (Texture α)} (hv : e.currentVersion = some v)
    (q : Nat → Bool) (frame : Nat) :
    Cache.Valid (markRead q frame e) ∧ Cache.shown (markRead q frame e) = some v.resource := by
  have hk := CacheKept.of_markRead (markRead_isSome (p := q) hv frame)
  have hvalid : Cache.Valid (some e) := by
    rintro _ ⟨⟩
    exact ⟨v, hv⟩
  refine ⟨hk.valid hvalid, ?_⟩
  rw [hk.shown hvalid]
  simp [Cache.shown, TextureVersions.currentResource, hv]

/-- A draw either leaves the shown texture, or shows one that `Uploaded` describes. -/
structure Draws (doneBy : Nat → Bool) (b : Buffer α) (damage : Option Rect) (cache cache' : Cache α) (drawn : Prop) :
    Prop where
  valid : cache'.Valid
  kept : ¬drawn → cache'.shown = cache.shown
  uploaded : drawn → ∃ t, cache'.shown = some t ∧ Uploaded doneBy b damage cache t

theorem Draws.of_kept {doneBy q : Nat → Bool} {cache cache' : Cache α}
    {drawn : Prop} (hv : cache.Valid) (hk : CacheKept q cache cache') (hd : ¬drawn) :
    Draws doneBy b damage cache cache' drawn :=
  ⟨hk.valid hv, fun _ => hk.shown hv, fun h => absurd h hd⟩

theorem getOrCreateTexture_draws (p : Pass α) (b : Buffer α) (damage : Option Rect) (resource : Option (Texture α))
    (bytesPerRow len : Nat) (hv : cache.Valid) :
    Draws p.updateDone b damage cache (getOrCreateTexture p b damage resource bytesPerRow len cache).2
      ((getOrCreateTexture p b damage resource bytesPerRow len cache).1 = .ok ()) := by
  unfold getOrCreateTexture
  split
  · exact .of_kept (q := p.updateDone) hv (.refl _) (by simp)
  · dsimp only
    split
    · rcases updateMatching_upload p.updateDone b damage resource bytesPerRow (cache.getD .new) with
        ⟨error, vs, he, hp⟩ | ⟨e', v', he, hv', hup⟩
      · rw [he]
        dsimp only
        refine .of_kept (q := p.updateDone) hv ?_ (by simp)
        cases cache with
        | none =>
          obtain rfl : vs = [] := by
            have := hp.length
            simpa [TextureVersions.new] using this
          exact .none
        | some e =>
          rw [Option.getD_some] at hp
          obtain ⟨v, hcur⟩ := hv e rfl
          have hk := Kept.of_pruned hp
          simp only [Option.getD_some]
          obtain ⟨v', hcur', -⟩ := hk v hcur
          rw [if_neg (by simp [TextureVersions.currentResource, hcur'])]
          exact .some hk
      · rw [he]
        dsimp only
        obtain ⟨hval, hsh⟩ := markRead_shown (retainIdleSpare_current p.spareDone (compatible b.width b.height) hv')
          p.readDone p.frameId
        refine ⟨hval, by simp, fun _ => ⟨v'.resource, hsh, ?_⟩⟩
        rcases hup with hs | ⟨v, r, hcur, hcomp, hd, hidle, ht⟩
        · exact .full hs
        · cases cache with
          | none => simp [TextureVersions.currentVersion, TextureVersions.new] at hcur
          | some e => exact .inPlace rfl hcur hcomp hd hidle ht
    · rename_i hcond
      dsimp only
      cases cache with
      | none => simp [TextureVersions.currentResource, TextureVersions.currentVersion, TextureVersions.new] at hcond
      | some e =>
        obtain ⟨v, hcur⟩ := hv e rfl
        obtain ⟨hval, hsh⟩ := markRead_shown hcur p.readDone p.frameId
        simp only [Option.getD_some, TextureVersions.currentResource, hcur, Option.map_some, Option.any_some,
          Bool.or_eq_true, Bool.not_eq_true', not_or, Bool.not_eq_false, Option.not_isSome_iff_eq_none] at hcond
        exact ⟨hval, by simp, fun _ => ⟨v.resource, hsh, .untouched rfl hcur hcond.1 hcond.2 rfl⟩⟩

/-- Everything outside the texture cache lets the draw of the buffer through. -/
def Pass.passes (p : Pass α) (b : Buffer α) : Bool :=
  p.contents && p.geometry && p.frame && p.placed && p.frameOpen && p.accepted &&
    p.snapshot.any fun s => validPixelRange b.width b.height s.1 s.2

/-- What an upload shows, told from the cache before the admission. -/
theorem Uploaded.of_kept {cache cache' : Cache α} (h : Uploaded q b damage cache' t) (hk : CacheKept q cache cache') (hv : cache.Valid) :
    Uploaded q b damage cache t := by
  cases h with
  | full h => exact .full h
  | inPlace hc hcur hcomp hd hidle ht =>
    subst hc
    cases hk with
    | some hk =>
      obtain ⟨v, hv⟩ := hv _ rfl
      obtain ⟨v', hv', hr, hf⟩ := hk v hv
      obtain rfl := Option.some.inj (hcur.symm.trans hv')
      refine .inPlace rfl hv (hr ▸ hcomp) hd (fun f hfv => ?_) (hr ▸ ht)
      exact (hf f hfv).elim id (hidle f)
  | untouched hc hcur hcomp hd ht =>
    subst hc
    cases hk with
    | some hk =>
      obtain ⟨v, hv⟩ := hv _ rfl
      obtain ⟨v', hv', hr, -⟩ := hk v hv
      obtain rfl := Option.some.inj (hcur.symm.trans hv')
      exact .untouched rfl hv (hr ▸ hcomp) hd (ht.trans hr)

theorem Uploaded.mono {q q' : Nat → Bool}
    (h : Uploaded q b damage cache t) (hq : ∀ f, q f = true → q' f = true) : Uploaded q' b damage cache t := by
  cases h with
  | full h => exact .full h
  | inPlace hc hcur hcomp hd hidle ht => exact .inPlace hc hcur hcomp hd (fun f hf => hq f (hidle f hf)) ht
  | untouched hc hcur hcomp hd ht => exact .untouched hc hcur hcomp hd ht

/-- The region that a pass may limit its upload to. -/
def uploadRegion (m : Mapping) (damage : List Damage) (b : Buffer α) : Option Rect :=
  coalesceDamage (bufferDamageRects damage b.width b.height m) b.width b.height

theorem texturePreflightResult_ne_drawn (p : Pass α) (denial : Option BudgetError) (retryInPlace : Bool) :
    texturePreflightResult p denial retryInPlace ≠ .drawn := by
  unfold texturePreflightResult
  split <;> simp

theorem preflightPixels_ne_drawn (p : Pass α) (width height : Int) (damage : Option Rect) (cache : Cache α) :
    (preflightPixels p width height damage cache).1 ≠ .error .drawn := by
  have hres := texturePreflightResult_ne_drawn p
  unfold preflightPixels preflightLast
  split
  · simp
  · split
    · simp
    · split
      · simp
      · simp
      · split
        · split
          · simp
          · simp
          · simpa using hres _ _
        · simpa using hres _ _

theorem getOrCreateTexture_ne_drawn (p : Pass α) (b : Buffer α) (damage : Option Rect) (resource : Option (Texture α))
    (bytesPerRow len : Nat) (cache : Cache α) :
    (getOrCreateTexture p b damage resource bytesPerRow len cache).1 ≠ .error .drawn := by
  unfold getOrCreateTexture
  split
  · simp
  · dsimp only
    split
    · split
      · dsimp only
        split <;> simp
      · simp
    · simp

theorem drawPreparedPixels_draws (p : Pass α) (b : Buffer α) (damage : Option Rect) (resource : Option (Texture α))
    (bytesPerRow len : Nat) (hv : cache.Valid) :
    Draws p.updateDone b damage cache (drawPreparedPixels p b damage resource bytesPerRow len cache).2
      ((drawPreparedPixels p b damage resource bytesPerRow len cache).1 = .drawn) := by
  have hg := getOrCreateTexture_draws p b damage resource bytesPerRow len hv
  have hne := getOrCreateTexture_ne_drawn p b damage resource bytesPerRow len cache
  unfold drawPreparedPixels
  split
  · exact .of_kept (q := p.updateDone) hv (.refl _) (by simp)
  · split
    · exact .of_kept (q := p.updateDone) hv (.refl _) (by simp)
    · split
      · exact .of_kept (q := p.updateDone) hv (.refl _) (by simp)
      · split
        · rename_i he
          rw [he] at hg
          exact ⟨hg.valid, by simp, fun _ => hg.uploaded rfl⟩
        · rename_i result cache' he
          rw [he] at hg hne
          have hnd : result ≠ .drawn := by
            rintro rfl
            exact hne rfl
          exact ⟨hg.valid, fun _ => hg.kept (by simp), fun hd => absurd hd hnd⟩

/-- What a render pass shows of a committed buffer. -/
theorem renderBuffer_draws (p : Pass α) (m : Mapping) (damage : List Damage) (b : Buffer α) (hv : cache.Valid) :
    Draws p.doneBy b (uploadRegion m damage b) cache (renderBuffer p m damage b cache).2
      ((renderBuffer p m damage b cache).1 = .drawn) := by
  have hk := preflightPixels_kept p b.width b.height (uploadRegion m damage b) cache
  have hne := preflightPixels_ne_drawn p b.width b.height (uploadRegion m damage b) cache
  unfold renderBuffer
  split
  · exact .of_kept (q := p.doneBy) hv (.refl _) (by simp)
  · dsimp only
    split
    · exact .of_kept (q := p.doneBy) hv (.refl _) (by simp)
    · rw [uploadRegion] at hk hne
      split
      · rename_i result cache' he
        rw [he] at hk hne
        have hnd : result ≠ .drawn := by
          rintro rfl
          exact hne rfl
        exact .of_kept hv hk hnd
      · rename_i resource cache' he
        rw [he] at hk
        split
        · exact .of_kept hv hk (by simp)
        · rename_i bytesPerRow len _
          have hd := drawPreparedPixels_draws p b (uploadRegion m damage b) resource bytesPerRow len (hk.valid hv)
          refine ⟨hd.valid, fun hn => (hd.kept hn).trans (hk.shown hv), fun hdr => ?_⟩
          obtain ⟨t, ht, hup⟩ := hd.uploaded hdr
          exact ⟨t, ht, (hup.mono fun f hf => by simp [Pass.doneBy, hf]).of_kept hk hv⟩

theorem frame_of_preflight {width height : Int}
    {resource : Option (Texture α)} (h : (preflightPixels p width height damage cache).1 = .ok resource) :
    p.frame = true := by
  by_contra hf
  rw [Bool.not_eq_true] at hf
  unfold preflightPixels at h
  rw [hf] at h
  split at h <;> simp at h

theorem placed_of_drawn {resource : Option (Texture α)} {bytesPerRow len : Nat}
    (h : (drawPreparedPixels p b damage resource bytesPerRow len cache).1 = .drawn) :
    p.placed = true ∧ p.frameOpen = true ∧ p.accepted = true ∧
      validPixelRange b.width b.height bytesPerRow len = true := by
  unfold drawPreparedPixels at h
  split at h
  · simp at h
  · split at h
    · simp at h
    · split at h
      · simp at h
      · rename_i hp hf ha
        refine ⟨by simpa using hp, by simpa using hf, by simpa using ha, ?_⟩
        by_contra hr
        rw [Bool.not_eq_true] at hr
        rw [getOrCreateTexture, hr] at h
        simp at h

/-- A drawn buffer met no obstacle outside the texture cache. -/
theorem passes_of_drawn {m : Mapping} {damage : List Damage}
    (h : (renderBuffer p m damage b cache).1 = .drawn) : p.passes b = true := by
  unfold renderBuffer at h
  split at h
  · simp at h
  · rename_i hc
    dsimp only at h
    split at h
    · simp at h
    · rename_i hg
      have hne := preflightPixels_ne_drawn p b.width b.height
        (coalesceDamage (bufferDamageRects damage b.width b.height m) b.width b.height) cache
      split at h
      · rename_i result cache' he
        rw [he] at hne
        exact absurd (congrArg Except.error h) hne
      · rename_i resource cache' he
        have hf := frame_of_preflight (congrArg Prod.fst he)
        split at h
        · simp at h
        · rename_i bytesPerRow len hs
          obtain ⟨hp, ho, ha, hr⟩ := placed_of_drawn h
          simp only [Bool.not_eq_true, Bool.not_eq_false'] at hc hg
          simp [Pass.passes, hc, hg, hf, hp, ho, ha, hr, hs]

end CocoaWay.Presentation
