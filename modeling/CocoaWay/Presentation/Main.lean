import CocoaWay.Presentation.Commit

/-!
# Every sequence of commits and render passes

* `Surface`, `Event`, `system` : the committed state of one surface, its cached textures and what was reported;
* `Commit.covers` : a commit's damage covers every pixel in which its buffer differs from the previous commit's;
* `incremental`, `clean` : the draws that keep old pixels, and when the old pixels are the right ones;
* `Inv` : outside the pending damage, the pending buffer agrees with the texture; `Inv.commit`, `Inv.render`;
* `drawn_shows` : in runs whose incremental draws are clean, a commit reported drawn is what the texture shows;
  `drawn_shows_not` : a rejected commit in between breaks this.
-/

namespace CocoaWay.Presentation

open CocoaWay.Lib CocoaWay.TextureLifetime

variable {α : Type} [DecidableEq α]

/-! ## Runs -/

/-- A commit with a new buffer. -/
structure Commit (α : Type) where
  buffer : Buffer α
  damage : List Damage
  mapping : Mapping

/-- One surface. `pending` is the assignment not yet drawn; every damage is kept with the mapping it was committed with,
which the code does not keep. `last` is the buffer of the last commit, `drawn` the one in the current texture,
`rejected` says that a commit was rejected since, and `reported` is the buffer just reported drawn. -/
structure Surface (α : Type) where
  pending : Option (Buffer α)
  damage : List (Damage × Mapping)
  mapping : Mapping
  cache : Cache α
  last : Option (Buffer α)
  drawn : Option (Buffer α)
  rejected : Bool
  reported : Option (Buffer α)

inductive Event (α : Type)
  | commit (c : Commit α)
  /-- A render pass over the surface. -/
  | render (p : Pass α)
  /-- A sweep of all caches; with `reclaim` it keeps no idle spare. -/
  | sweep (done : Nat → Bool) (reclaim : Bool)
  /-- The textures of the surface are evicted. -/
  | evict

def Surface.init : Surface α :=
  ⟨none, [], ⟨1, .normal, false⟩, none, none, none, false, none⟩

/-- `merge_into`: buffer and mapping are replaced, damage accumulates. -/
def Surface.commit (s : Surface α) (c : Commit α) : Surface α :=
  { s with
    pending := some c.buffer
    damage := s.damage ++ c.damage.map fun d => (d, c.mapping)
    mapping := c.mapping
    last := some c.buffer
    reported := none }

/-- `render_surface_tree` and `finish_buffer_upload` on the surface. -/
def Surface.render (s : Surface α) (p : Pass α) : Surface α :=
  match s.pending with
  | none => { s with cache := drawFromCache p s.cache, damage := [], reported := none }
  | some b =>
    match renderBuffer p s.mapping (s.damage.map Prod.fst) b s.cache with
    | (.deferred, cache) => { s with cache := drawFromCache p cache, reported := none }
    | (.drawn, cache) =>
      { s with pending := none, damage := [], cache := cache, drawn := some b, rejected := false, reported := some b }
    | (.rejected, cache) =>
      { s with pending := none, damage := [], cache := drawFromCache p cache, rejected := true, reported := none }

/-- The sweep of one entry: `prune_idle`, or `retain_idle_spare` for the size of the current texture. -/
def sweepEntry (done : Nat → Bool) (reclaim : Bool) (entry : TextureVersions (Texture α)) :
    TextureVersions (Texture α) :=
  if reclaim then (pruneIdle done entry).2
  else
    (retainIdleSpare done (fun t => entry.currentResource.any fun u => compatible u.width u.height t) entry).2

def step (s : Surface α) : Event α → Option (Surface α)
  | .commit c => some (s.commit c)
  | .render p => some (s.render p)
  | .sweep done reclaim => some { s with cache := s.cache.map (sweepEntry done reclaim), reported := none }
  | .evict => some { s with cache := none, drawn := none, rejected := false, reported := none }

def system (α : Type) : System (Surface α) (Event α) := ⟨Surface.init, step⟩

/-! ## Conditions on the steps -/

/-- A buffer pixel of `b` is not the same in `b'`. -/
def Buffer.differs (b b' : Buffer α) (x y : Nat) : Prop :=
  b'.width ≤ x ∨ b'.height ≤ y ∨ b.pixels x y ≠ b'.pixels x y

instance (b b' : Buffer α) (x y : Nat) : Decidable (b.differs b' x y) :=
  inferInstanceAs (Decidable (_ ∨ _ ∨ _))

/-- The damage covers every pixel in which the buffer differs from the previous commit's. -/
def Commit.covers (c : Commit α) (previous : Option (Buffer α)) : Prop :=
  ∀ b ∈ previous, ∀ x < c.buffer.width.toNat, ∀ y < c.buffer.height.toNat,
    c.buffer.differs b x y → ∃ d ∈ c.damage, d.Covers c.mapping x y

instance (c : Commit α) (previous : Option (Buffer α)) : Decidable (c.covers previous) := by
  unfold Commit.covers
  infer_instance

/-- Every commit covers its difference to the one before. -/
def covered (s : Surface α) : Event α → Bool
  | .commit c => c.covers s.last
  | _ => true

/-- The pass, if nothing outside stops it, leaves pixels of the current texture in place: the texture has the size of
the buffer, and there is no damage, or the damage is not the whole buffer and every frame that reads the texture is
done. -/
def incremental (s : Surface α) (p : Pass α) : Bool :=
  match s.pending, s.cache.bind TextureVersions.currentVersion with
  | some b, some v =>
    p.passes b && compatible b.width b.height v.resource &&
      match uploadRegion s.mapping (s.damage.map Prod.fst) b with
      | none => true
      | some r => r ≠ ⟨0, 0, b.width, b.height⟩ && v.readers.all p.doneBy
  | _, _ => false

/-- No commit was rejected since the texture was drawn, and the damage merged since means under the mapping of the drawn
commit what it meant when it was committed. -/
def clean (s : Surface α) : Bool :=
  !s.rejected && s.damage.all fun d => s.pending.all fun b => d.1.Faithful b.width b.height d.2 s.mapping

/-- Every incremental draw is clean. -/
def sound (s : Surface α) : Event α → Bool
  | .render p => !incremental s p || clean s
  | e => covered s e

/-! ## The invariant -/

structure Inv (s : Surface α) : Prop where
  valid : s.cache.Valid
  shown : ∀ t, s.cache.shown = some t → ∃ b, s.drawn = some b ∧ t.Shows b
  pending : ∀ b, s.pending = some b → s.last = some b
  settled : s.pending = none → s.damage = []
  fresh : s.last = none → s.drawn = none
  /-- Where the last buffer is not what the texture shows, there is damage waiting. -/
  agrees : s.rejected = false → ∀ b₀ b, s.drawn = some b₀ → s.last = some b →
    ∀ x y : Nat, (x : Int) < b.width → (y : Int) < b.height → b.differs b₀ x y → ∃ d ∈ s.damage, d.1.Covers d.2 x y
  reported : ∀ b, s.reported = some b → ∃ t, s.cache.shown = some t ∧ t.Shows b

variable {s s' : Surface α}

omit [DecidableEq α] in
theorem inv_init : Inv (Surface.init : Surface α) where
  valid := by simp [Surface.init, Cache.Valid]
  shown := by simp [Surface.init, Cache.shown]
  pending := by simp [Surface.init]
  settled := fun _ => rfl
  fresh := fun _ => rfl
  agrees := by simp [Surface.init]
  reported := by simp [Surface.init]

omit [DecidableEq α] in
theorem Inv.of_kept (h : Inv s) {q : Nat → Bool} {cache : Cache α} (hk : CacheKept q s.cache cache) :
    Inv { s with cache := cache, reported := none } :=
  { h with
    valid := hk.valid h.valid
    shown := by
      rw [hk.shown h.valid]
      exact h.shown
    reported := by simp }

omit [DecidableEq α] in
theorem drawFromCache_kept (p : Pass α) {cache : Cache α} (hv : cache.Valid) :
    CacheKept p.readDone cache (drawFromCache p cache) := by
  unfold drawFromCache
  split
  · cases cache with
    | none => exact .none
    | some e =>
      obtain ⟨v, hcur⟩ := hv e rfl
      have hm := markRead_isSome (p := p.readDone) hcur p.frameId
      have hk := CacheKept.of_markRead hm
      obtain ⟨e', he⟩ := Option.isSome_iff_exists.1 hm
      rw [he] at hk
      show CacheKept p.readDone (some e) (some ((markRead p.readDone p.frameId e).getD e))
      rw [he]
      exact hk
  · exact .refl _

omit [DecidableEq α] in
theorem sweepEntry_kept (done : Nat → Bool) (reclaim : Bool) (cache : Cache α) :
    CacheKept done cache (cache.map (sweepEntry done reclaim)) := by
  cases cache with
  | none => exact .none
  | some e =>
    refine .some ?_
    unfold sweepEntry
    split
    · exact Kept.of_retain _
    · exact Kept.of_retain _

/-- What is not covered by the new damage was already the same, or covered, before. -/
theorem Inv.commit (h : Inv s) {c : Commit α} (hc : c.covers s.last) : Inv (s.commit c) where
  valid := h.valid
  shown := h.shown
  pending := fun _ hb => hb
  settled := by simp [Surface.commit]
  fresh := by simp [Surface.commit]
  agrees := by
    intro hr b₀ b hd hb x y hx hy hne
    change s.drawn = some b₀ at hd
    obtain rfl : c.buffer = b := Option.some.inj hb
    have hnew : ∀ b, s.last = some b → c.buffer.differs b x y →
        ∃ d ∈ (s.commit c).damage, d.1.Covers d.2 x y := by
      intro b hl hdiff
      obtain ⟨d, hd, hcov⟩ := hc b hl x (by omega) y (by omega) hdiff
      exact ⟨(d, c.mapping), List.mem_append_right _ (List.mem_map_of_mem hd), hcov⟩
    cases hl : s.last with
    | none => simp [h.fresh hl] at hd
    | some b =>
      by_cases hdiff : c.buffer.differs b x y
      · exact hnew b hl hdiff
      · -- The pixel is that of the previous commit, so it is the previous damage that covers it.
        unfold Buffer.differs at hdiff hne
        push Not at hdiff
        obtain ⟨hbx, hby, hpix⟩ := hdiff
        obtain ⟨d, hd, hcov⟩ := h.agrees hr b₀ b hd hl x y hbx hby (by
          unfold Buffer.differs
          rwa [← hpix])
        exact ⟨d, List.mem_append_left _ hd, hcov⟩
  reported := by simp [Surface.commit]

/-- Outside the region of a clean upload the texture already has the pixels of the buffer. -/
theorem Inv.agrees_outside (h : Inv s) (hc : clean s = true) {b : Buffer α} (hb : s.pending = some b) {t : Texture α}
    (ht : s.cache.shown = some t) {x y : Nat} (hx : (x : Int) < b.width) (hy : (y : Int) < b.height)
    (hout : ∀ r, uploadRegion s.mapping (s.damage.map Prod.fst) b = some r → ¬r.Contains x y) :
    t.pixels x y = b.pixels x y := by
  obtain ⟨b₀, hd, hs⟩ := h.shown t ht
  rw [clean, Bool.and_eq_true, Bool.not_eq_true', List.all_eq_true] at hc
  obtain ⟨hr, hf⟩ := hc
  by_cases hdiff : b.differs b₀ x y
  · obtain ⟨d, hdm, hcov⟩ := h.agrees hr b₀ b hd (h.pending b hb) x y hx hy hdiff
    have hfd : d.1.Faithful b.width b.height d.2 s.mapping := by simpa [hb] using hf d hdm
    obtain ⟨r, hr, hcon⟩ :=
      bufferDamage_covers (List.mem_map_of_mem (f := Prod.fst) hdm) hfd b.width_le b.height_le hx hy hcov
    exact absurd hcon (hout r hr)
  · unfold Buffer.differs at hdiff
    push Not at hdiff
    obtain ⟨hbx, hby, hpix⟩ := hdiff
    rw [hpix]
    exact hs.pixels x y hbx hby

/-- A draw reported as such shows the pending buffer. -/
theorem Inv.shows (h : Inv s) {p : Pass α} (hc : incremental s p = true → clean s = true) {b : Buffer α}
    (hb : s.pending = some b) (hd : (renderBuffer p s.mapping (s.damage.map Prod.fst) b s.cache).1 = .drawn)
      {t : Texture α}
    (hup : Uploaded p.doneBy b (uploadRegion s.mapping (s.damage.map Prod.fst) b) s.cache t) : t.Shows b := by
  have hp := passes_of_drawn hd
  cases hup with
  | full hs => exact hs
  | @inPlace e v r he hv hcomp hreg hidle ht =>
    have hshown : s.cache.shown = some v.resource := by
      simp [Cache.shown, he, TextureVersions.currentResource, hv]
    subst ht
    by_cases hfull : r = ⟨0, 0, b.width, b.height⟩
    · subst hfull
      exact shows_replaceRegion _
    · have hinc : incremental s p = true := by
        simpa [incremental, hb, he, hv, hp, hcomp, hreg, hfull] using hidle
      refine ⟨rfl, rfl, fun x y hx hy => ?_⟩
      show (if r.Contains x y then b.pixels x y else v.resource.pixels x y) = b.pixels x y
      by_cases hcon : r.Contains x y
      · rw [if_pos hcon]
      · rw [if_neg hcon]
        apply h.agrees_outside (hc hinc) hb hshown hx hy
        intro r' hr'
        obtain rfl := Option.some.inj (hreg.symm.trans hr')
        exact hcon
  | @untouched e v he hv hcomp hreg ht =>
    have hshown : s.cache.shown = some v.resource := by
      simp [Cache.shown, he, TextureVersions.currentResource, hv]
    have hinc : incremental s p = true := by
      simp [incremental, hb, he, hv, hp, hcomp, hreg]
    subst ht
    obtain ⟨hw, hh⟩ := compatible_iff.1 hcomp
    refine ⟨hw, hh, fun x y hx hy => ?_⟩
    apply h.agrees_outside (hc hinc) hb hshown hx hy
    intro r hr
    rw [hreg] at hr
    cases hr

theorem Inv.render (h : Inv s) {p : Pass α} (hc : incremental s p = true → clean s = true) : Inv (s.render p) := by
  cases hb : s.pending with
  | none =>
    have hk := h.of_kept (drawFromCache_kept p h.valid)
    have hd : s.damage = [] := h.settled hb
    simp only [Surface.render, hb, ← hd]
    exact { hk with pending := by simp, settled := fun _ => hd }
  | some b =>
    have hdr := renderBuffer_draws p s.mapping (s.damage.map Prod.fst) b h.valid
    have hsh := fun t => h.shows hc hb (t := t)
    simp only [Surface.render, hb]
    cases hres : renderBuffer p s.mapping (s.damage.map Prod.fst) b s.cache with
    | mk result cache =>
    rw [hres] at hdr hsh
    have hk := drawFromCache_kept p hdr.valid
    cases result with
    | deferred =>
      have hkept := hdr.kept (by simp)
      exact
        { h with
          valid := hk.valid hdr.valid
          shown := by
            rw [hk.shown hdr.valid, hkept]
            exact h.shown
          pending := by
            rw [← hb]
            exact h.pending
          settled := by simp
          reported := by simp }
    | drawn =>
      obtain ⟨t, ht, hup⟩ := hdr.uploaded rfl
      have hs := hsh t rfl hup
      have hlast := h.pending b hb
      exact
        { valid := hdr.valid
          shown := fun t' ht' => ⟨b, rfl, (Option.some.inj (ht.symm.trans ht')) ▸ hs⟩
          pending := by simp
          settled := fun _ => rfl
          fresh := fun hn => by simp [hlast] at hn
          agrees := by
            intro _ b₀ b' hd hl x y hx hy hne
            obtain rfl : b = b₀ := Option.some.inj hd
            obtain rfl : b = b' := Option.some.inj (hlast.symm.trans hl)
            rcases hne with hne | hne | hne
            · omega
            · omega
            · exact absurd rfl hne
          reported := by
            rintro b' ⟨⟩
            exact ⟨t, ht, hs⟩ }
    | rejected =>
      have hkept := hdr.kept (by simp)
      exact
        { valid := hk.valid hdr.valid
          shown := by
            rw [hk.shown hdr.valid, hkept]
            exact h.shown
          pending := by simp
          settled := fun _ => rfl
          fresh := h.fresh
          agrees := by simp
          reported := by simp }

theorem Inv.step {e : Event α} (h : Inv s) (hc : sound s e = true) (hs : step s e = some s') : Inv s' := by
  cases e with
  | commit c =>
    cases hs
    exact h.commit (of_decide_eq_true hc)
  | render p =>
    cases hs
    apply h.render
    intro hi
    simpa [sound, hi] using hc
  | sweep done reclaim =>
    cases hs
    exact h.of_kept (sweepEntry_kept done reclaim s.cache)
  | evict =>
    cases hs
    exact
      { h with
        valid := by simp [Cache.Valid]
        shown := by simp [Cache.shown]
        fresh := fun _ => rfl
        agrees := by simp
        reported := by simp }

/-- In runs whose commits cover their difference and whose incremental draws are clean, a commit reported drawn is,
pixel for pixel, what the texture shows. -/
theorem drawn_shows {s : Surface α} (h : (system α).ReachableWhere (fun s e => sound s e = true) s) {b : Buffer α}
    (hr : s.reported = some b) : ∃ t, s.cache.shown = some t ∧ t.Shows b :=
  (h.invariant (I := Inv) inv_init fun _ _ _ hi hc hs => hi.step hc hs).reported b hr

/-- A 2×1 buffer. -/
def strip (left right : Nat) : Buffer Nat :=
  ⟨2, 1, fun x _ => if x = 0 then left else right, by decide, by decide⟩

/-- An attempt that finds every earlier frame done and budget left. -/
def openAttempt : Attempt Nat :=
  ⟨fun _ => true, fun _ => true, fun _ => true, fun _ => true, .ok fun _ _ => 0, false⟩

/-- A pass that nothing outside stops. -/
def openPass : Pass Nat where
  contents := true
  geometry := true
  frame := true
  first := openAttempt
  second := openAttempt
  swept := false
  reclaimableReaders := false
  snapshot := some (8, 8)
  placed := true
  frameOpen := true
  cachedGeometry := true
  accepted := true
  updateDone := fun _ => true
  spareDone := fun _ => true
  readDone := fun _ => false
  frameId := 1

def plainMapping : Mapping := ⟨1, .normal, false⟩

/-- The right pixel changes; its commit is deferred once, then written into the texture in place. -/
def deferredRun : List (Event Nat) :=
  [.commit ⟨strip 1 2, [], plainMapping⟩, .render openPass,
   .commit ⟨strip 1 7, [.surface ⟨1, 0, 1, 1⟩], plainMapping⟩, .render { openPass with frameOpen := false },
   .sweep (fun _ => true) true, .render openPass]

theorem drawn_shows_deferred :
    ∃ (s : Surface Nat) (b : Buffer Nat), s.reported = some b ∧ b.pixels 1 0 = 7 ∧
      ∃ t, s.cache.shown = some t ∧ t.Shows b := by
  have hrun : ((system Nat).runWhere sound (system Nat).init deferredRun).any
      (fun s => s.reported.any fun b => b.pixels 1 0 = 7) = true := by decide
  obtain ⟨s, hs, hp⟩ := System.exists_reachableWhere hrun
  rw [Option.any_eq_true] at hp
  obtain ⟨b, hb, h7⟩ := hp
  exact ⟨s, b, hb, of_decide_eq_true h7, drawn_shows hs hb⟩

/-- The commit of the new right pixel is rejected; the next commit has the same buffer and so no damage. -/
def rejectedRun : List (Event Nat) :=
  [.commit ⟨strip 1 2, [], plainMapping⟩, .render openPass,
   .commit ⟨strip 1 7, [.buffer ⟨1, 0, 1, 1⟩], plainMapping⟩, .render { openPass with snapshot := none },
   .commit ⟨strip 1 7, [], plainMapping⟩, .render openPass]

/-- A commit is reported drawn while the texture still has the old pixel. -/
theorem drawn_shows_not :
    ∃ (s : Surface Nat) (b : Buffer Nat), (system Nat).ReachableWhere (fun s e => covered s e = true) s ∧
      s.reported = some b ∧ ¬∃ t, s.cache.shown = some t ∧ t.Shows b := by
  have hrun : ((system Nat).runWhere covered (system Nat).init rejectedRun).any
      (fun s => s.reported.any fun b => b.width == 2 && b.height == 1 &&
        s.cache.shown.any fun t => t.pixels 1 0 != b.pixels 1 0) = true := by decide
  obtain ⟨s, hs, hp⟩ := System.exists_reachableWhere hrun
  rw [Option.any_eq_true] at hp
  obtain ⟨b, hb, hp⟩ := hp
  simp only [Bool.and_eq_true, beq_iff_eq, Option.any_eq_true, bne_iff_ne] at hp
  obtain ⟨⟨hw, hh⟩, t, ht, hne⟩ := hp
  refine ⟨s, b, hs, hb, ?_⟩
  rintro ⟨t', ht', hshows⟩
  obtain rfl := Option.some.inj (ht.symm.trans ht')
  exact hne (hshows.pixels 1 0 (by omega) (by omega))

end CocoaWay.Presentation
