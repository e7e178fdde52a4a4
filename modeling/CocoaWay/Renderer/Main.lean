import Mathlib.Data.List.Perm.Basic
import CocoaWay.Renderer.Credit

/-!
# Publishing an upload

* `prepared_agrees` : when a preparation found a compatible idle version, the update that follows gives its callback one,
  whatever frames complete in between;
* `Published` : the versions after an update, which has new storage or that of the version it wrote;
* `published_gone` : what was credited is neither written again nor kept by the trimming;
* `publish_spec`, `draw_inv`, `Inv.step` : the invariant over all runs;
* `version_credit` : the agreement, and the share of the renderer in every state where no upload is prepared.
-/

namespace CocoaWay.Renderer
open Lib TextureLifetime Pixels
open RenderBudget (Reservation TextureBudget BudgetError shared)

variable {κ σ : Type} [DecidableEq κ] {b : TextureBudget} {client : κ} {w w' : World κ σ}

/-! ## Preparation and publication -/

section Agreement

variable {T ε : Type} {done done' : Nat → Bool} {compatible : T → Bool} {c c' : TextureVersions T}

/-- An update finds compatible storage while there is an idle version that has it. -/
theorem selected_compatible {vs : List (Version T)} {result : Except UpdateError Nat}
    (h : Selected done compatible vs result) {v : Version T} (hv : v ∈ vs) (hi : v.Idle done)
    (hc : compatible v.resource = true) :
    ∃ i u, result = .ok i ∧ vs[i]? = some u ∧ u.Idle done ∧ compatible u.resource = true := by
  cases h with
  | compatible hu hui huc => exact ⟨_, _, rfl, hu, hui, huc⟩
  | idle _ _ hnone => exact absurd hc (by rw [hnone v hv hi]; decide)
  | room _ hnone => exact absurd hi (hnone v hv)
  | busy _ hnone => exact absurd hi (hnone v hv)

/-- What a preparation that allocates nothing found. -/
theorem prepareMatching_reuses {allocate : Option T → Except ε T}
    (h : prepareMatching done compatible allocate c = (.ok none, c')) :
    ∃ v ∈ c'.versions, v.Idle done ∧ compatible v.resource = true := by
  obtain ⟨vs, hc, -, hsel⟩ := updateTarget_spec done compatible c
  unfold prepareMatching writableMatching at h
  generalize updateTarget done compatible c = target at hc hsel h
  obtain ⟨result, c₁⟩ := target
  dsimp only at hc hsel h
  subst hc
  cases result with
  | error e => simp at h
  | ok i =>
    dsimp only at h
    cases hv : vs[i]? with
    | none =>
      rw [hv] at h
      simp only [Option.map_none, Option.any_none, Bool.false_eq_true, if_false] at h
      split at h <;> simp at h
    | some v =>
      rw [hv, Option.map_some, Option.any_some] at h
      by_cases hcompatible : compatible v.resource = true
      · rw [if_pos hcompatible] at h
        obtain ⟨-, rfl⟩ := Prod.mk.inj h
        exact ⟨v, List.mem_of_getElem? hv, selected_idle hsel hv, hcompatible⟩
      · rw [if_neg hcompatible] at h
        split at h <;> simp at h

/-- **Preparation and publication agree.** Frames may complete in between: the callback is given a version's compatible
resource, and what it returns becomes current. -/
theorem prepared_agrees {allocate : Option T → Except ε T} (h : prepareMatching done compatible allocate c = (.ok none, c'))
    (hdone : ∀ f, done f = true → done' f = true) :
    ∃ t isCurrent, compatible t = true ∧ t ∈ c'.versions.map Version.resource ∧ ∀ upload,
      (upload (some t) isCurrent = none → (updateMatching done' compatible upload c').1 = .error .rejected) ∧
        ∀ t', upload (some t) isCurrent = some t' → (updateMatching done' compatible upload c').1 = .ok () ∧
          (updateMatching done' compatible upload c').2.currentResource = some t' := by
  obtain ⟨v, hv, hi, hcompatible⟩ := prepareMatching_reuses h
  obtain ⟨vs, hc, hp, hsel⟩ := updateTarget_spec done' compatible c'
  obtain ⟨v', hv', hpv⟩ := hp.mem hv
  have hi' : v'.Idle done' := hpv.idle_iff.2 fun f hf => hdone f (hi f hf)
  obtain ⟨i, u, hresult, hu, -, huc⟩ := selected_compatible hsel hv' hi' (hpv.resource ▸ hcompatible)
  have hlt := (List.getElem?_eq_some_iff.1 hu).1
  refine ⟨u.resource, i == c'.current, huc, ?_, fun upload => ?_⟩
  · rw [← hp.resources]
    exact List.mem_map_of_mem (List.mem_of_getElem? hu)
  · unfold updateMatching
    generalize updateTarget done' compatible c' = target at hc hresult
    obtain ⟨result, c₁⟩ := target
    dsimp only at hc hresult
    subst hc hresult
    simp only [hu, Option.map_some, Option.isSome_some, Bool.true_and]
    constructor
    · intro hnone
      rw [hnone]
    · intro t' ht'
      rw [ht']
      refine ⟨rfl, ?_⟩
      simp [TextureVersions.currentResource, TextureVersions.currentVersion, hlt]

end Agreement

/-! ## What an update leaves -/

section Published

variable {prepared : PixelPreflight (Reservation κ)} {texW texH : Int} {bytesPerRow : Nat} {done : Nat → Bool}
  {cache cache' : Cache κ} {vs : List (Version (Resource κ))}

/-- The reservation of the storage that is allocated for an upload. -/
def newReservations (prepared : PixelPreflight (Reservation κ)) : List (Reservation κ) :=
  prepared.resource.toList.map (·.reservation)

/-- The callback of the update. -/
def uploadResource (prepared : PixelPreflight (Reservation κ)) (texW texH : Int) (bytesPerRow : Nat)
    (idle : Option (Resource κ)) (isCurrent : Bool) : Option (Resource κ) :=
  (uploadPixels prepared texW texH bytesPerRow idle isCurrent).map Prod.snd

omit [DecidableEq κ] in
/-- The storage of an upload is the compatible one that is idle, or new. -/
theorem uploadResource_cases {idle : Option (Resource κ)} {isCurrent : Bool} {t : Resource κ}
    (h : uploadResource prepared texW texH bytesPerRow idle isCurrent = some t) :
    (∃ t₀, idle = some t₀ ∧ t₀.compatible texW texH = true ∧ t.reservation = t₀.reservation) ∨
      t.reservation ∈ newReservations prepared := by
  obtain ⟨⟨u, t'⟩, hup, rfl⟩ := Option.map_eq_some_iff.1 h
  obtain ⟨upload, -, hup⟩ := Option.bind_eq_some_iff.1 hup
  obtain ⟨offset, -, hup⟩ := Option.bind_eq_some_iff.1 hup
  obtain ⟨storage, hstorage, hup⟩ := Option.map_eq_some_iff.1 hup
  obtain ⟨-, rfl⟩ := Prod.mk.inj hup
  by_cases hsame : idle.any (TextureResource.compatible texW texH) = true
  · rw [if_pos hsame] at hstorage
    rw [hstorage, Option.any_some] at hsame
    exact Or.inl ⟨storage, hstorage, hsame, rfl⟩
  · rw [if_neg hsame] at hstorage
    refine Or.inr (List.mem_map.2 ⟨storage, ?_, rfl⟩)
    rw [hstorage]
    exact List.mem_singleton_self _

omit [DecidableEq κ] in
/-- Writing one version leaves its reservation or has a new one. -/
theorem rewritten_subperm {target : Nat} {v : Version (Resource κ)} {t : Resource κ} (hv : vs[target]? = some v)
    {new : List (Reservation κ)} (ht : t.reservation = v.resource.reservation ∨ t.reservation ∈ new) :
    ((vs.set target { v with resource := t }).map (·.resource.reservation)).Subperm
      (vs.map (·.resource.reservation) ++ new) := by
  rw [List.map_set]
  rcases ht with ht | ht
  · rw [ht, set_eq_self (by rw [List.getElem?_map, hv]; rfl)]
    exact (List.sublist_append_left _ _).subperm
  · have hlt : target < (vs.map (·.resource.reservation)).length := by
      simpa using (List.getElem?_eq_some_iff.1 hv).1
    refine (List.set_perm_cons_eraseIdx hlt _).subperm_right.2 ?_
    have hsub : ([t.reservation] ++ (vs.map (·.resource.reservation)).eraseIdx target).Subperm
        (new ++ vs.map (·.resource.reservation)) :=
      (List.subperm_append_right _).2 (List.singleton_subperm_iff.2 ht) |>.trans
        ((List.subperm_append_left _).2 (List.eraseIdx_sublist ..).subperm)
    exact hsub.trans (List.perm_append_comm.subperm)

/-- What an update leaves: the cache is in order, it has at most the new reservation besides, and a version that was idle
and not compatible is not kept by the trimming that follows. -/
structure Published (done : Nat → Bool) (compatible : Resource κ → Bool) (new : List (Reservation κ)) (cache cache' : Cache κ) :
    Prop where
  ok : CacheOk cache'
  subperm : (reservationsOf cache').Subperm (reservationsOf cache ++ new)
  gone : ∀ v ∈ cache.versions, v.Idle done → compatible v.resource = false →
    v.resource.reservation ∉ reservationsOf (retainIdleSpare done compatible cache').2

omit [DecidableEq κ] in
/-- An idle alternate that is not compatible is trimmed. -/
theorem trimmed {compatible : Resource κ → Bool} {slot : Nat} (hslot : ∀ v, cache'.currentVersion = some v → v.slot = slot)
    {r : Reservation κ} (hall : ∀ v ∈ cache'.versions, v.resource.reservation = r →
      v.slot ≠ slot ∧ v.Idle done ∧ compatible v.resource = false) :
    r ∉ reservationsOf (retainIdleSpare done compatible cache').2 := by
  intro hr
  obtain ⟨v', hv', hres⟩ := List.mem_map.1 hr
  obtain ⟨v, hv, hp⟩ := retainLoop_mem _ _ _ _ _ _ _ v' hv'
  obtain ⟨hne, hi, hc⟩ := hall v hv (by rw [← hp.resource]; exact hres)
  have hs : ∀ v, 0 ≤ cache'.current → cache'.versions[cache'.current - 0]? = some v → v.slot = slot := fun v _ hv =>
    hslot v hv
  obtain ⟨-, hkept⟩ := retainLoop_alternate done compatible cache'.current 0 cache'.current false cache'.versions hs hv'
    (hp.slot ▸ hne) (hp.idle_iff.2 hi)
  rw [hp.resource, hc] at hkept
  cases hkept

omit [DecidableEq κ] in
theorem publish_versions (hok : CacheOk cache) (hn : (reservationsOf cache ++ newReservations prepared).Nodup)
    (h : updateMatching done (TextureResource.compatible texW texH) (uploadResource prepared texW texH bytesPerRow) cache =
      (.ok (), cache')) :
    Published done (TextureResource.compatible texW texH) (newReservations prepared) cache cache' := by
  obtain ⟨vs, hp, hup⟩ := updateMatching_spec done (TextureResource.compatible texW texH)
    (uploadResource prepared texW texH bytesPerRow) cache
  have hvs := hok.pruned hp
  have hreservations := reservations_of_pruned hp
  have hinj : (vs.map (·.resource.reservation)).Nodup := hreservations ▸ (List.nodup_append.1 hn).1
  have hnew : ∀ v ∈ vs, v.resource.reservation ∉ newReservations prepared := by
    intro v hv hin
    have hmem : v.resource.reservation ∈ reservationsOf cache := by
      show _ ∈ cache.versions.map _
      rw [← hreservations]
      exact List.mem_map_of_mem hv
    exact (List.nodup_append.1 hn).2.2 _ hmem _ hin rfl
  have hsame : ∀ x ∈ vs, ∀ y ∈ vs, x.resource.reservation = y.resource.reservation → x = y := fun x hx y hy he =>
    List.inj_on_of_nodup_map hinj hx hy he
  rw [h] at hup
  cases hup with
  | @rewritten target v t ht hv hidle hup =>
    have hvm := List.mem_of_getElem? hv
    have hlt := (List.getElem?_eq_some_iff.1 hv).1
    have hcases : t.reservation = v.resource.reservation ∧ v.resource.compatible texW texH = true ∨
        t.reservation ∈ newReservations prepared := by
      rcases uploadResource_cases hup with ⟨t₀, ht₀, hc, he⟩ | hin
      · obtain rfl := Option.some.inj ht₀
        exact Or.inl ⟨he, hc⟩
      · exact Or.inr hin
    refine ⟨hvs.rewrite hv t, ?_, fun a ha hai hac => ?_⟩
    · show ((vs.set target { v with resource := t }).map _).Subperm (cache.versions.map _ ++ _)
      rw [← hreservations]
      exact rewritten_subperm hv (hcases.imp_left And.left)
    · obtain ⟨a', ha', hpa⟩ := hp.mem ha
      have hcur : ∀ x, ({ cache with versions := vs.set target { v with resource := t }, current := target } :
          Cache κ).currentVersion = some x → x.slot = v.slot := by
        intro x hx
        simp only [TextureVersions.currentVersion, List.getElem?_set_self hlt, Option.some.injEq] at hx
        exact hx ▸ rfl
      refine trimmed hcur fun x hx he => ?_
      rw [← hpa.resource] at he hac
      obtain ⟨j, hj⟩ := List.mem_iff_getElem?.1 hx
      by_cases hjt : j = target
      · -- The version that was written is compatible, or has the new reservation.
        subst hjt
        rw [List.getElem?_set_self hlt] at hj
        obtain rfl := Option.some.inj hj
        rcases hcases with ⟨hold, hc⟩ | hin
        · obtain rfl := hsame v hvm a' ha' (hold.symm.trans he)
          exact absurd (hc.symm.trans hac) (by decide)
        · exact absurd (he ▸ hin) (hnew a' ha')
      · rw [List.getElem?_set_ne fun hne => hjt hne.symm] at hj
        obtain rfl := hsame x (List.mem_of_getElem? hj) a' ha' he
        refine ⟨fun hs => hjt ?_, hpa.idle_iff.2 hai, hac⟩
        obtain rfl := eq_of_slot hvs.nodup ha' hvm hs
        exact (List.getElem?_inj (List.getElem?_eq_some_iff.1 hj).1 hinj.of_map).1 (hj.trans hv.symm)
  | @added t ht hlt hup =>
    have hin : t.reservation ∈ newReservations prepared := by
      rcases uploadResource_cases hup with ⟨t₀, ht₀, -⟩ | hin
      · cases ht₀
      · exact hin
    refine ⟨hvs.push t, ?_, fun a ha hai hac => ?_⟩
    · show ((vs ++ [(⟨cache.nextSlot, t, []⟩ : Version (Resource κ))]).map _).Subperm (cache.versions.map _ ++ _)
      rw [List.map_append, hreservations]
      exact (List.subperm_append_left _).2 (List.singleton_subperm_iff.2 hin)
    · obtain ⟨a', ha', hpa⟩ := hp.mem ha
      have hcur : ∀ x, (⟨vs ++ [⟨cache.nextSlot, t, []⟩], vs.length, cache.nextSlot + 1⟩ :
          Cache κ).currentVersion = some x → x.slot = cache.nextSlot := by
        intro x hx
        simp only [TextureVersions.currentVersion, List.getElem?_concat_length, Option.some.injEq] at hx
        exact hx ▸ rfl
      refine trimmed hcur fun x hx he => ?_
      rw [← hpa.resource] at he hac
      rcases List.mem_append.1 hx with hx | hx
      · obtain rfl := hsame x hx a' ha' he
        exact ⟨(hvs.slot_lt x hx).ne, hpa.idle_iff.2 hai, hac⟩
      · obtain rfl := List.mem_singleton.1 hx
        exact absurd (he ▸ hin) (hnew a' ha')

end Published

/-! ## The end of a prepared upload -/

omit [DecidableEq κ] in
theorem total_reservations (f : Reservation κ → Nat) (token : Token κ σ) :
    total f token.reservations = (token.prepared.resource.map (·.reservation)).elim 0 f := by
  unfold Token.reservations
  cases token.prepared.resource <;> simp

variable {token : Token κ σ} {frame : Nat} {surface : σ}

omit [DecidableEq κ] in
theorem token_owned (ht : w.token = some token) :
    w.owned = w.caches.values.flatMap reservationsOf ++ token.reservations := by
  unfold World.owned
  rw [ht]
  simp

variable [DecidableEq σ]

/-- The upload ends; its storage is not used, or what it was credited with is no longer used. -/
theorem Ready.settle (h : Ready b client w) (ht : w.token = some token) {caches : Table σ (Cache κ)}
    (hcaches : ∀ cache ∈ caches.values, CacheOk cache)
    (hsub : (caches.values.flatMap reservationsOf).Subperm w.owned)
    (hunused : (∀ r ∈ token.reservations, r ∉ caches.values.flatMap reservationsOf) ∨
      ∀ r ∈ token.credit, r ∈ w.owned ∧ r ∉ caches.values.flatMap reservationsOf) :
    Settled b client { w with caches, token := none } := by
  obtain ⟨htoken, -⟩ := h.token token ht
  generalize hw' : ({ w with caches, token := none } : World κ σ) = w'
  have hbudget : w'.budget = w.budget := by rw [← hw']
  have hframes : w'.frames = w.frames := by rw [← hw']
  have hnext : w'.nextFrame = w.nextFrame := by rw [← hw']
  have howned : w'.owned = caches.values.flatMap reservationsOf := by simp [World.owned, ← hw']
  have hreading : w'.reading = w.reading := by rw [World.reading, hframes, World.reading]
  have hmem : ∀ r ∈ w'.owned ++ w'.reading, r ∈ w.owned ++ w.reading := by
    intro r hr
    rw [howned, hreading] at hr
    rw [List.mem_append] at hr ⊢
    exact hr.imp_left fun hr => hsub.subset hr
  have hlive : w'.budget.live = w.budget.live := by rw [hbudget]
  -- A reservation that is not used any more is charged no more.
  have hless : ∀ (f : Reservation κ → Nat) (r : Reservation κ), r ∈ w.owned → r ∉ caches.values.flatMap reservationsOf →
      r ∉ w.reading → total f (w'.charged client) + f r ≤ total f (w.charged client) := by
    intro f r hr hout hread
    obtain ⟨hrlive, hc⟩ := h.accounts.live r (List.mem_append_left _ (List.mem_append_left _ hr))
    refine charged_add_le f hlive hmem hrlive hc (List.mem_append_left _ hr) fun hin => ?_
    rw [howned, hreading, List.mem_append] at hin
    exact hin.elim hout hread
  have hle : ∀ f, total f (w'.charged client) ≤ total f (w.charged client) := fun f => charged_le f hlive hmem
  refine ⟨h.accounts.shrink hbudget hframes hnext (howned ▸ hsub) (by rw [← hw']; exact hcaches), by rw [← hw'], ?_⟩
  rcases hunused with hunused | hunused
  · refine htoken.before.settle fun f => ?_
    rw [total_reservations]
    cases hr : token.prepared.resource with
    | none => exact hle f
    | some t =>
      have hin : t.reservation ∈ token.reservations := by
        rw [Token.reservations, hr]
        exact List.mem_singleton_self _
      refine hless f t.reservation ?_ (hunused _ hin) (htoken.unread _ hin)
      rw [token_owned ht]
      exact List.mem_append_right _ hin
  · refine htoken.credited.settle fun f => ?_
    cases hr : token.credit with
    | none => exact hle f
    | some r => exact hless f r (hunused r hr).1 (hunused r hr).2 (htoken.credit r hr)

theorem Ready.token_unused (h : Ready b client w) (ht : w.token = some token) :
    ∀ r ∈ token.reservations, r ∉ w.caches.values.flatMap reservationsOf := by
  intro r hr hin
  have hn := h.accounts.owned
  rw [token_owned ht] at hn
  exact (List.nodup_append.1 hn).2.2 r hin r hr rfl

theorem Ready.dropToken (h : Ready b client w) (ht : w.token = some token) :
    Settled b client (w.dropToken client) ∧ Swept client (w.dropToken client) := by
  have hsettled : Settled b client { w with token := none } := by
    refine h.settle ht h.accounts.caches ?_ (Or.inl (h.token_unused ht))
    rw [token_owned ht]
    exact (List.sublist_append_left _ _).subperm
  exact ⟨hsettled.sweep, swept_sweep hsettled.accounts⟩

omit [DecidableEq κ] in
theorem cached_set (w : World κ σ) (surface : σ) (cache : Cache κ) :
    (w.caches.set surface cache).values.flatMap reservationsOf = reservationsOf cache ++ w.elsewhere surface := by
  rw [Table.values_set, List.flatMap_cons]
  rfl

omit [DecidableEq κ] in
theorem elsewhere_sublist (w : World κ σ) (surface : σ) : (w.elsewhere surface).Subperm w.owned := by
  rw [(owned_perm w surface).subperm_left, List.append_assoc]
  exact ((List.sublist_append_left _ _).trans (List.sublist_append_right _ _)).subperm

/-- The upload is refused, and the versions are as they were. -/
theorem Ready.reject (h : Ready b client w) (ht : w.token = some token)
    {vs : List (Version (Resource κ))} (hp : AllPruned w.done (w.cacheOf surface).versions vs) (keep : Bool) :
    Settled b client { w with
      caches := if keep then w.caches.remove surface
        else w.caches.set surface { w.cacheOf surface with versions := vs }
      token := none } := by
  have hreservations : reservationsOf { w.cacheOf surface with versions := vs } = reservationsOf (w.cacheOf surface) :=
    reservations_of_pruned hp
  have hperm := owned_perm w surface
  have hunused := h.token_unused ht
  have hrefs : w.tokenRefs = token.reservations := by simp [World.tokenRefs, ht]
  rw [token_owned ht, hrefs] at hperm
  have hcached := (List.perm_append_right_iff _).1 hperm
  refine h.settle ht ?_ ?_ (Or.inl fun r hr hin => ?_)
  · split
    · intro cache hc
      obtain ⟨s, hs⟩ := Table.mem_values_iff.1 hc
      rw [Table.get_remove] at hs
      split at hs
      · cases hs
      · exact h.accounts.caches cache (Table.mem_values_iff.2 ⟨s, hs⟩)
    · exact caches_setCache h.accounts.caches ((cacheOf_ok h.accounts).pruned hp)
  · split
    · exact elsewhere_sublist w surface
    · rw [cached_set, hreservations, token_owned ht]
      exact hcached.symm.subperm.trans (List.sublist_append_left _ _).subperm
  · refine hunused r hr (hcached.mem_iff.2 ?_)
    split at hin
    · exact List.mem_append_right _ hin
    · rwa [cached_set, hreservations] at hin

/-- The upload is published, and the versions trimmed. -/
theorem Ready.publish (h : Ready b client w) (ht : w.token = some token) {bytesPerRow : Nat} {cache' : Cache κ}
    (hup : updateMatching w.done (TextureResource.compatible token.prepared.width token.prepared.height)
      (uploadResource token.prepared token.prepared.width token.prepared.height bytesPerRow) (w.cacheOf token.surface) =
      (.ok (), cache')) :
    Settled b client { w with
      caches := w.caches.set token.surface (retainIdleSpare w.done
        (TextureResource.compatible token.prepared.width token.prepared.height) cache').2
      token := none } := by
  have hperm : w.owned.Perm (reservationsOf (w.cacheOf token.surface) ++ w.elsewhere token.surface ++
      newReservations token.prepared) := by
    have hrefs : w.tokenRefs = newReservations token.prepared := by
      simp [World.tokenRefs, ht, Token.reservations, newReservations]
    exact hrefs ▸ owned_perm w token.surface
  have hn := hperm.nodup_iff.1 h.accounts.owned
  have hn' : (reservationsOf (w.cacheOf token.surface) ++ newReservations token.prepared).Nodup := by
    rw [List.append_assoc] at hn
    exact hn.sublist ((List.sublist_append_right _ _).append_left _)
  have hpublished := publish_versions (cacheOf_ok h.accounts) hn' hup
  have hretained := retain_reservations w.done
    (TextureResource.compatible token.prepared.width token.prepared.height) cache'
  refine h.settle ht (caches_setCache h.accounts.caches (hpublished.ok.retain _ _)) ?_ (Or.inr fun r hr => ?_)
  · rw [cached_set, hperm.subperm_left]
    have hsub := (List.subperm_append_right (w.elsewhere token.surface)).2 (hretained.subperm.trans hpublished.subperm)
    refine hsub.trans (List.Perm.subperm ?_)
    rw [List.append_assoc, List.append_assoc]
    exact List.perm_append_comm.append_left _
  · obtain ⟨-, hrep⟩ := h.token token ht
    obtain ⟨cache, v, hc, hv, rfl, hi, hincompatible⟩ := hrep r hr
    refine ⟨mem_owned_of_cached hc hv, fun hin => ?_⟩
    rw [cached_set, List.mem_append] at hin
    rcases hin with hin | hin
    · exact hpublished.gone v (by rwa [cacheOf_eq hc]) hi hincompatible hin
    · have hmem : v.resource.reservation ∈ reservationsOf (w.cacheOf token.surface) := by
        rw [cacheOf_eq hc]
        exact List.mem_map_of_mem hv
      exact (List.nodup_append.1 (List.nodup_append.1 hn).1).2.2 _ hmem _ hin rfl

/-! ## Every step keeps the share -/

theorem Settled.readCurrent (h : Settled b client w) (hs : Swept client w) {cache : Cache κ}
    (hc : w.caches.get surface = some cache) (hr : w.readCurrent surface frame cache = some w') : Inv b client w' := by
  unfold World.readCurrent at hr
  split at hr
  · next cache' resource hm hcur =>
    obtain rfl := Option.some.inj hr
    obtain ⟨v, v', hv, rfl, hslot, hres, -, -⟩ := markRead_spec hm
    have hok := h.accounts.caches cache (Table.mem_values_iff.2 ⟨surface, hc⟩)
    have hset : cache.versions[cache.current]? = some v := hv
    have hreservations : reservationsOf { cache with versions := cache.versions.set cache.current v' } =
        reservationsOf cache := by
      show (cache.versions.set cache.current v').map _ = cache.versions.map _
      rw [List.map_set, hres]
      exact set_eq_self (by rw [List.getElem?_map, hset]; rfl)
    have hw₁ : Settled b client (w.setCache surface { cache with versions := cache.versions.set cache.current v' }) :=
      h.setCache (hok.of_slots (map_slot_set hset hslot)) (by rw [hreservations, cacheOf_eq hc])
    have howned : (w.setCache surface { cache with versions := cache.versions.set cache.current v' }).owned.Perm w.owned := by
      rw [owned_setCache, hreservations]
      simpa only [cacheOf_eq hc] using (owned_perm w surface).symm
    have hin : resource.reservation ∈ w.owned := by
      have hcur : cache.versions[cache.current]?.map Version.resource = some resource := hcur
      rw [hset, Option.map_some, Option.some.injEq] at hcur
      exact hcur ▸ mem_owned_of_cached hc (List.mem_of_getElem? hset)
    obtain ⟨haccounts, hlive, -, htoken, hrefs, hstrong⟩ :=
      hw₁.accounts.retainReservation (i := frame) (howned.mem_iff.2 hin)
    refine ⟨Settled.ready ⟨haccounts, htoken.trans h.token, hw₁.within.mono fun f => charged_le f hlive fun r hr =>
      (hstrong r).1 hr⟩, fun r hr hcl => hrefs r ?_⟩
    rw [hlive] at hr
    have hold := hs r hr hcl
    unfold World.references at hold ⊢
    simp only [List.mem_append] at hold ⊢
    exact hold.imp_left (Or.imp_left fun ho => howned.mem_iff.2 ho)
  · cases hr

theorem draw_inv (h : Inv b client w) {texW texH : Int} {bytesPerRow len : Nat}
    (hs : draw client w frame texW texH bytesPerRow len = some w') : Inv b client w' := by
  simp only [draw, Option.bind_eq_bind, Option.bind_eq_some_iff] at hs
  obtain ⟨token, ht, f, hf, hs⟩ := hs
  obtain ⟨hdropped, hswept⟩ := h.toReady.dropToken ht
  split at hs
  · exact Option.some.inj hs ▸ ⟨hdropped.ready, hswept⟩
  · split at hs
    · exact Option.some.inj hs ▸ ⟨hdropped.ready, hswept⟩
    · next hchecked =>
      simp only [not_or, not_not, Prod.mk.injEq] at hchecked
      obtain ⟨⟨rfl, rfl⟩, -⟩ := hchecked
      split at hs
      · have hupload : (fun idle isCurrent => (uploadPixels token.prepared token.prepared.width token.prepared.height
            bytesPerRow idle isCurrent).map Prod.snd) =
            uploadResource token.prepared token.prepared.width token.prepared.height bytesPerRow := rfl
        obtain ⟨vs, hp, hspec⟩ := updateMatching_spec w.done
          (TextureResource.compatible token.prepared.width token.prepared.height)
          (uploadResource token.prepared token.prepared.width token.prepared.height bytesPerRow) (w.cacheOf token.surface)
        unfold Renderer.publish at hs
        dsimp only at hs
        rw [hupload] at hs
        generalize hup : updateMatching w.done _ _ (w.cacheOf token.surface) = result at hs hspec
        obtain ⟨e | ⟨⟩, cache'⟩ := result
        · cases hspec
          obtain rfl := Option.some.inj hs
          exact (h.toReady.reject ht hp _).ready.sweep
        · have hpublished := (h.toReady.publish ht hup).sweep
          exact hpublished.readCurrent (swept_sweep (h.toReady.publish ht hup).accounts) (Table.get_set_self _ _ _) hs
      · next hskip =>
        have hsame : (w.cacheOf token.surface).currentResource.any
            (TextureResource.compatible token.prepared.width token.prepared.height) = true := by
          simp only [Bool.or_eq_true, Bool.not_eq_true', not_or, Bool.not_eq_false] at hskip
          exact hskip.1
        have hget : w.caches.get token.surface = some (w.cacheOf token.surface) := by
          unfold World.cacheOf at hsame ⊢
          cases hc : w.caches.get token.surface with
          | none =>
            rw [hc] at hsame
            cases hsame
          | some cache => rfl
        exact hdropped.readCurrent hswept hget hs

/-- Frames complete, and what they read is no longer charged for them. -/
theorem Ready.of_frames (h : Ready b client w) (ha : Accounts b client w') (hlive : w'.budget.live = w.budget.live)
    (hcaches : w'.caches = w.caches) (htoken : w'.token = w.token) (hdone : ∀ f, w.done f = true → w'.done f = true)
    (hreading : ∀ r ∈ w'.reading, r ∈ w.reading) : Ready b client w' := by
  have howned : w'.owned = w.owned := by rw [World.owned, hcaches, htoken, World.owned]
  have hle : ∀ f, total f (w'.charged client) ≤ total f (w.charged client) := by
    intro f
    refine charged_le f hlive fun r hr => ?_
    rw [howned, List.mem_append] at hr
    rw [List.mem_append]
    exact hr.imp_right (hreading r)
  refine ⟨ha, fun ht => (h.settled (htoken ▸ ht)).mono hle, fun token ht => ?_⟩
  obtain ⟨hok, hrep⟩ := h.token token (htoken ▸ ht)
  refine ⟨⟨hok.before.mono hle, hok.credited.mono hle, fun r hr hin => hok.unread r hr (hreading r hin),
    fun r hr hin => hok.credit r hr (hreading r hin)⟩, fun r hr => ?_⟩
  obtain ⟨cache, v, hc, hv, he, hi, hcompatible⟩ := hrep r hr
  exact ⟨cache, v, hcaches ▸ hc, hv, he, fun f hf => hdone f (hi f hf), hcompatible⟩

theorem Inv.other (h : Inv b client w) {budget : RenderBudget.State κ} (hinv : RenderBudget.Inv b budget)
    (hf : Foreign client w.budget budget) : Inv b client { w with budget } := by
  obtain ⟨haccounts, hcharged⟩ := h.accounts.other hinv hf
  have hwithin : ∀ {extra}, Within b client w extra → Within b client { w with budget } extra := fun hw =>
    hw.mono fun _ => by rw [hcharged]
  refine ⟨⟨haccounts, fun ht => hwithin (h.settled ht), fun token ht => ?_⟩, fun r hr hc => ?_⟩
  · obtain ⟨hok, hrep⟩ := h.token token ht
    exact ⟨⟨hwithin hok.before, hwithin hok.credited, hok.unread, hok.credit⟩, hrep⟩
  · exact h.swept r ((hf.mem_iff hc).1 hr) hc

theorem Inv.begin (h : Inv b client w) (ht : w.token = none) (hlt : w.frames.values.length < maxFrames) :
    Inv b client { w with frames := w.frames.set w.nextFrame .new, nextFrame := w.nextFrame + 1 } := by
  obtain ⟨haccounts, hrefs⟩ := h.accounts.begin hlt
  have hvalues : (w.frames.set w.nextFrame Frame.new).values.flatMap Frame.reservations = w.reading := by
    have hfresh : w.frames.get w.nextFrame = none := by
      cases hg : w.frames.get w.nextFrame with
      | none => rfl
      | some f => exact absurd (h.accounts.frames_lt _ f hg) (Nat.lt_irrefl _)
    rw [Table.values_set_of_none hfresh]
    rfl
  refine ⟨Settled.ready ⟨haccounts, ht, (h.settled ht).mono fun f => charged_le f rfl fun r hr => ?_⟩, fun r hr hc =>
    (hrefs r).2 (h.swept r hr hc)⟩
  exact hvalues ▸ hr

theorem Inv.step (h : Inv b client w) {event : Event κ σ} (hs : step b client w event = some w') : Inv b client w' := by
  cases event with
  | begin =>
    simp only [Renderer.step, Option.ite_none_right_eq_some, Option.some.injEq, Bool.and_eq_true, Option.isNone_iff_eq_none,
      decide_eq_true_eq] at hs
    exact hs.2 ▸ h.begin hs.1.1 hs.1.2
  | preflight surface frame damage texW texH first second =>
    simp only [Renderer.step, Option.ite_none_right_eq_some, Option.some.injEq, Bool.and_eq_true,
      Option.isNone_iff_eq_none] at hs
    exact hs.2 ▸ preflight_inv h hs.1.1 surface frame damage texW texH first second
  | abandon =>
    simp only [Renderer.step, Option.ite_none_right_eq_some, Option.some.injEq, Option.isSome_iff_exists] at hs
    obtain ⟨⟨token, ht⟩, rfl⟩ := hs
    obtain ⟨hdropped, hswept⟩ := h.toReady.dropToken ht
    exact ⟨hdropped.ready, hswept⟩
  | draw frame texW texH bytesPerRow len => exact draw_inv h hs
  | drawFromCache surface frame =>
    simp only [Renderer.step, drawFromCache, Option.ite_none_right_eq_some, Option.isNone_iff_eq_none,
      Option.bind_eq_bind, Option.bind_eq_some_iff] at hs
    obtain ⟨ht, cache, hc, f, hf, hs⟩ := hs
    split at hs
    · exact Option.some.inj hs ▸ h
    · exact (h.to_settled ht).readCurrent h.swept hc hs
  | trim surface compatible =>
    simp only [Renderer.step, Option.ite_none_right_eq_some, Option.some.injEq, Option.isNone_iff_eq_none] at hs
    exact hs.2 ▸ ((h.to_settled hs.1).trim surface compatible).ready.sweep
  | evict surface =>
    simp only [Renderer.step, Option.ite_none_right_eq_some, Option.some.injEq, Option.isNone_iff_eq_none] at hs
    exact hs.2 ▸ (h.to_settled hs.1).evict surface
  | startCompletion frame =>
    obtain ⟨haccounts, hlive, hcaches, htoken, hdone, hreading, hrefs⟩ := h.accounts.startCompletion hs
    refine ⟨h.toReady.of_frames haccounts hlive hcaches htoken (fun f hf => hdone ▸ hf) hreading, fun r hr hc => ?_⟩
    exact hrefs r (h.swept r (hlive ▸ hr) hc)
  | publishCompletion frame =>
    obtain ⟨haccounts, hbudget, hcaches, htoken, hdone, hreading, hrefs⟩ := h.accounts.publishCompletion hs
    refine ⟨h.toReady.of_frames haccounts (by rw [hbudget]) hcaches htoken hdone hreading, fun r hr hc => ?_⟩
    exact hrefs r (h.swept r (hbudget ▸ hr) hc)
  | finishCompletion frame =>
    simp only [Renderer.step, finishCompletion, Option.bind_eq_bind, Option.bind_eq_some_iff] at hs
    obtain ⟨f, hf, hs⟩ := hs
    split at hs
    · next hcompleted =>
      obtain ⟨haccounts, hdone, hreading⟩ := h.accounts.removeFrame hf hcompleted
      obtain rfl := Option.some.inj hs
      exact (h.toReady.of_frames haccounts rfl rfl rfl (fun f hf => hdone ▸ hf) fun r hr => (hreading r).1 hr).sweep
    · cases hs
  | other event =>
    simp only [Renderer.step, Option.ite_none_right_eq_some, Option.map_eq_some_iff] at hs
    obtain ⟨hforeign, budget, hstep, rfl⟩ := hs
    exact h.other (h.accounts.budget.step hstep) (foreign_step hforeign hstep)

theorem Inv.init : Inv b client (.new : World κ σ) := by
  have haccounts : Accounts b client (.new : World κ σ) := by
    refine ⟨RenderBudget.Inv.new, List.nodup_nil, nofun, nofun, List.nodup_nil, nofun, Nat.zero_le _, nofun, fun i f hf => ?_,
      nofun⟩
    rw [World.new, Table.get_empty] at hf
    cases hf
  exact ⟨Settled.ready ⟨haccounts, rfl, ⟨Nat.zero_le _, Nat.zero_le _⟩⟩, nofun⟩

theorem inv_reachable (h : (system b client : System (World κ σ) (Event κ σ)).Reachable w) : Inv b client w :=
  System.Reachable.invariant (I := Inv b client) Inv.init (fun _ _ _ hi hs => Inv.step hi hs) h

/-! ## The share of the renderer -/

omit [DecidableEq σ] in
theorem retainReservation_token (w : World κ σ) (frame : Nat) (r : Reservation κ) :
    (w.retainReservation frame r).token = w.token := by
  unfold World.retainReservation
  split
  · split <;> rfl
  · rfl

theorem readCurrent_token {cache : Cache κ}
    (hr : w.readCurrent surface frame cache = some w') : w'.token = w.token := by
  unfold World.readCurrent at hr
  split at hr
  · exact Option.some.inj hr ▸ retainReservation_token ..
  · cases hr

theorem publish_token (w : World κ σ) (surface : σ) (prepared : PixelPreflight (Reservation κ)) (texW texH : Int)
    (bytesPerRow : Nat) (cache : Cache κ) :
    (Renderer.publish client w surface prepared texW texH bytesPerRow cache).2.1.token = none := by
  unfold Renderer.publish
  dsimp only
  split <;> rfl

theorem draw_token {texW texH : Int} {bytesPerRow len : Nat}
    (hs : draw client w frame texW texH bytesPerRow len = some w') : w'.token = none := by
  simp only [draw, Option.bind_eq_bind, Option.bind_eq_some_iff] at hs
  obtain ⟨token, ht, f, hf, hs⟩ := hs
  split at hs
  · exact Option.some.inj hs ▸ rfl
  · split at hs
    · exact Option.some.inj hs ▸ rfl
    · split at hs
      · have hpublish : (Renderer.publish client w token.surface token.prepared texW texH bytesPerRow
          (w.cacheOf token.surface)).2.1.token = none := publish_token ..
        split at hs
        · next hresult =>
          rw [hresult] at hpublish
          exact Option.some.inj hs ▸ hpublish
        · next hresult =>
          rw [hresult] at hpublish
          exact (readCurrent_token hs).trans hpublish
      · exact readCurrent_token hs

omit [DecidableEq σ] in
/-- What a client is charged is for reservations that it uses and for those that it does not. -/
theorem total_client (client : κ) (f : Reservation κ → Nat) (w : World κ σ) :
    total (RenderBudget.ofClient client f) w.budget.live = total f (w.charged client) + total f (w.lingering client) := by
  have hclient : total (RenderBudget.ofClient client f) w.budget.live =
      total f (w.budget.live.filter fun r => r.client = client) := by
    rw [total_filter]
    congr 1
    funext r
    simp only [RenderBudget.ofClient, decide_eq_true_eq]
  rw [hclient, total_filter_split f _ (fun r => decide (r ∈ w.owned ++ w.reading))]
  simp only [World.charged, World.lingering, Bool.decide_and, decide_not]

/-- What a renderer is charged is within its share: its maximum of ordinary bytes and one oversized texture, but for the
reservations that a running completion has yet to drop. -/
structure WithinShare (b : TextureBudget) (client : κ) (w : World κ σ) : Prop where
  normal : (w.budget.clients client).bytes - (w.budget.clients client).oversizedBytes ≤
    b.maxClientBytes + total normalBytes (w.lingering client)
  oversized : (w.budget.clients client).oversizedAllocations ≤ 1 + total oversizedCount (w.lingering client)
  late : ∀ r ∈ w.lingering client, r ∈ w.late

theorem Inv.share (h : Inv b client w) (ht : w.token = none) : WithinShare b client w := by
  have hwithin := h.settled ht
  have hclient := h.accounts.budget.clients client
  refine ⟨?_, ?_, fun r hr => ?_⟩
  · rw [hclient.bytes, hclient.oversizedBytes, RenderBudget.total_ofClient_split, Nat.add_sub_cancel, total_client]
    exact Nat.add_le_add_right hwithin.normal _
  · rw [hclient.oversizedAllocations, total_client]
    exact Nat.add_le_add_right hwithin.oversized _
  · simp only [World.lingering, List.mem_filter, decide_eq_true_eq] at hr
    obtain ⟨hlive, hc, hunused⟩ := hr
    exact (List.mem_append.1 (h.swept r hlive hc)).resolve_left hunused

/-- **Preparation and publication agree, nothing is cached that is not reserved, and after every update and trimming the
renderer is within its share.** -/
theorem version_credit (h : (system b client : System (World κ σ) (Event κ σ)).Reachable w) :
    (∀ (T ε : Type) (done done' : Nat → Bool) (compatible : T → Bool) (allocate : Option T → Except ε T)
      (c c' : TextureVersions T), prepareMatching done compatible allocate c = (.ok none, c') →
      (∀ f, done f = true → done' f = true) →
        ∃ t isCurrent, compatible t = true ∧ t ∈ c'.versions.map Version.resource ∧ ∀ upload,
          (upload (some t) isCurrent = none → (updateMatching done' compatible upload c').1 = .error .rejected) ∧
            ∀ t', upload (some t) isCurrent = some t' → (updateMatching done' compatible upload c').1 = .ok () ∧
              (updateMatching done' compatible upload c').2.currentResource = some t') ∧
    (∀ cache ∈ w.caches.values, ∀ v ∈ cache.versions,
      v.resource.reservation ∈ w.budget.live ∧ v.resource.reservation.client = client) ∧
    (w.token = none → WithinShare b client w) ∧
    ∀ frame texW texH bytesPerRow len w', draw client w frame texW texH bytesPerRow len = some w' →
      WithinShare b client w' := by
  have hinv := inv_reachable h
  refine ⟨fun T ε done done' compatible allocate c c' => prepared_agrees, fun cache hcache v hv => ?_, hinv.share,
    fun frame texW texH bytesPerRow len w' hs => (draw_inv hinv hs).share (draw_token hs)⟩
  obtain ⟨surface, hc⟩ := Table.mem_values_iff.1 hcache
  exact hinv.accounts.live _ (List.mem_append_left _ (List.mem_append_left _ (mem_owned_of_cached hc hv)))

/-- A surface is drawn at two sizes, each of a whole share, and the first frame completes. -/
theorem version_credit_completed : ∃ w : World Nat Nat, (system shared 0).Reachable w ∧ w.token = none ∧
    WithinShare shared 0 w ∧ w.late = [] ∧ (w.budget.clients 0).bytes = 64 * 1024 * 1024 := by
  have hrun : ((system shared 0 : System (World Nat Nat) (Event Nat Nat)).run (system shared 0).init
      [.begin, .preflight 5 0 [] 4096 4096 ⟨⟨0, 0⟩, some (7, 0)⟩ ⟨⟨0, 0⟩, none⟩, .draw 0 4096 4096 16384 67108864,
        .startCompletion 0, .publishCompletion 0, .begin,
        .preflight 5 1 [] 4095 4096 ⟨⟨0, 0⟩, some (8, 0)⟩ ⟨⟨0, 0⟩, none⟩, .draw 1 4095 4096 16384 67108864,
        .finishCompletion 0]).any
      (fun w => w.token.isNone ∧ w.late = [] ∧ (w.budget.clients 0).bytes = 64 * 1024 * 1024) = true := by
    decide
  obtain ⟨w, h, hp⟩ := System.exists_reachable hrun
  obtain ⟨ht, hlate, hbytes⟩ := of_decide_eq_true hp
  have ht := Option.isNone_iff_eq_none.1 ht
  exact ⟨w, h, ht, (version_credit h).2.2.1 ht, hlate, hbytes⟩

/-- Before that completion has dropped what it took out, the second update succeeds, and the versions are trimmed: the
replaced reservation is still charged. -/
theorem replaced_still_charged : ∃ (w : World Nat Nat) (token : Token Nat Nat), (system shared 0).Reachable w ∧
    w.token = some token ∧
    let published := Renderer.publish 0 w token.surface token.prepared 4095 4096 16384 (w.cacheOf token.surface)
    published.1.isOk = true ∧ (published.2.1.budget.clients 0).oversizedBytes = 0 ∧
      shared.maxClientBytes < (published.2.1.budget.clients 0).bytes := by
  have hrun : ((system shared 0 : System (World Nat Nat) (Event Nat Nat)).run (system shared 0).init
      [.begin, .preflight 5 0 [] 4096 4096 ⟨⟨0, 0⟩, some (7, 0)⟩ ⟨⟨0, 0⟩, none⟩, .draw 0 4096 4096 16384 67108864,
        .startCompletion 0, .publishCompletion 0, .begin,
        .preflight 5 1 [] 4095 4096 ⟨⟨0, 0⟩, some (8, 0)⟩ ⟨⟨0, 0⟩, none⟩]).any
      (fun w => w.token.any fun token =>
        let published := Renderer.publish 0 w token.surface token.prepared 4095 4096 16384 (w.cacheOf token.surface)
        published.1.isOk = true ∧ (published.2.1.budget.clients 0).oversizedBytes = 0 ∧
          shared.maxClientBytes < (published.2.1.budget.clients 0).bytes) = true := by
    decide
  obtain ⟨w, h, hp⟩ := System.exists_reachable hrun
  obtain ⟨token, ht, hp⟩ := (Option.any_eq_true _ _).1 hp
  exact ⟨w, token, h, ht, of_decide_eq_true hp⟩

end CocoaWay.Renderer
