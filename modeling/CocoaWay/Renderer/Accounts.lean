import CocoaWay.Renderer.Cache
import Mathlib.Algebra.Ring.Nat
import Mathlib.Data.Nat.Cast.Basic

/-!
# The accounts of a renderer

* `CacheOk` : the slots of a cache are distinct and its current index is valid; the operations on a cache keep it;
* `World.charged` : the live reservations that the renderer still uses, `World.lingering` : those that only a running
  completion holds;
* `Accounts` : every reference is to a live reservation of the renderer, each owned by one version or by the prepared
  upload, and read as often as frames say;
* `Accounts.shrink`, `Accounts.sweep` : references may go, and reservations with them.
-/

namespace CocoaWay.Renderer
open Lib TextureLifetime Pixels
open RenderBudget (Reservation TextureBudget)

variable {κ σ : Type} {cache cache' : Cache κ}

/-! ## Caches -/

structure CacheOk (cache : Cache κ) : Prop where
  nodup : (cache.versions.map Version.slot).Nodup
  slot_lt : ∀ v ∈ cache.versions, v.slot < cache.nextSlot
  current_lt : cache.versions ≠ [] → cache.current < cache.versions.length

theorem CacheOk.new : CacheOk (.new : Cache κ) := ⟨List.nodup_nil, nofun, fun h => absurd rfl h⟩

theorem CacheOk.of_slots {versions : List (Version (Resource κ))} (h : CacheOk cache)
    (hs : versions.map Version.slot = cache.versions.map Version.slot) : CacheOk { cache with versions } := by
  have hlen : versions.length = cache.versions.length := by
    simpa only [List.length_map] using congrArg List.length hs
  refine ⟨hs ▸ h.nodup, fun v hv => ?_, fun hne => ?_⟩
  · have hmem : v.slot ∈ cache.versions.map Version.slot := hs ▸ List.mem_map_of_mem hv
    obtain ⟨u, hu, he⟩ := List.mem_map.1 hmem
    exact he ▸ h.slot_lt u hu
  · rw [hlen]
    exact h.current_lt fun he => hne (List.length_eq_zero_iff.1 (hlen.trans (by rw [he]; rfl)))

theorem CacheOk.pruned {done : Nat → Bool} {versions : List (Version (Resource κ))} (h : CacheOk cache)
    (hp : AllPruned done cache.versions versions) : CacheOk { cache with versions } := h.of_slots hp.slots

theorem reservations_of_pruned {done : Nat → Bool} {vs vs' : List (Version (Resource κ))} (hp : AllPruned done vs vs') :
    vs'.map (·.resource.reservation) = vs.map (·.resource.reservation) := by
  have h := congrArg (List.map (·.reservation)) hp.resources
  rwa [List.map_map, List.map_map] at h

theorem CacheOk.retain (h : CacheOk cache) (done : Nat → Bool) (compatible : Resource κ → Bool) :
    CacheOk (retainIdleSpare done compatible cache).2 := by
  by_cases hne : cache.versions = []
  · rwa [retainLoop_nil compatible cache hne]
  · have hcur := List.getElem?_eq_getElem (h.current_lt hne)
    have hkept := retainIdleSpare_current done compatible hcur
    refine ⟨(retainLoop_map _ _ _ (f := Version.slot) (fun _ => rfl) ..).nodup h.nodup, fun v hv => ?_, fun _ => ?_⟩
    · obtain ⟨u, hu, hp⟩ := retainLoop_mem _ _ _ _ _ _ _ v hv
      exact hp.slot ▸ h.slot_lt u hu
    · exact (List.getElem?_eq_some_iff.1 hkept).1

theorem retain_reservations (done : Nat → Bool) (compatible : Resource κ → Bool) (cache : Cache κ) :
    (reservationsOf (retainIdleSpare done compatible cache).2).Sublist (reservationsOf cache) :=
  retainLoop_map _ _ _ (f := fun v : Version (Resource κ) => v.resource.reservation) (fun _ => rfl) ..

theorem CacheOk.rewrite (h : CacheOk cache) {i : Nat} {v : Version (Resource κ)} (hv : cache.versions[i]? = some v)
    (resource : Resource κ) : CacheOk { cache with versions := cache.versions.set i { v with resource }, current := i } := by
  have hslots := map_slot_set hv (show ({ v with resource } : Version (Resource κ)).slot = v.slot from rfl)
  have hok := h.of_slots hslots
  exact ⟨hok.nodup, hok.slot_lt, fun _ => by simpa using (List.getElem?_eq_some_iff.1 hv).1⟩

theorem CacheOk.push (h : CacheOk cache) (resource : Resource κ) :
    CacheOk ⟨cache.versions ++ [⟨cache.nextSlot, resource, []⟩], cache.versions.length, cache.nextSlot + 1⟩ := by
  refine ⟨?_, fun v hv => ?_, fun _ => by simp⟩
  · rw [List.map_append, List.nodup_append]
    refine ⟨h.nodup, List.nodup_singleton _, fun a ha b hb hab => ?_⟩
    obtain ⟨v, hv, rfl⟩ := List.mem_map.1 ha
    have hlt := h.slot_lt v hv
    rw [hab, List.mem_singleton.1 hb] at hlt
    exact Nat.lt_irrefl _ hlt
  · rcases List.mem_append.1 hv with hv | hv
    · exact Nat.lt_succ_of_lt (h.slot_lt v hv)
    · rw [List.mem_singleton.1 hv]
      exact Nat.lt_succ_self _

/-! ## Who owns what -/

variable {w w' : World κ σ}

section Owned

variable [DecidableEq σ] {surface : σ}

def World.tokenRefs (w : World κ σ) : List (Reservation κ) := w.token.toList.flatMap Token.reservations

/-- The reservations of the other surfaces. -/
def World.elsewhere (w : World κ σ) (surface : σ) : List (Reservation κ) :=
  (w.caches.remove surface).values.flatMap reservationsOf

theorem owned_perm (w : World κ σ) (surface : σ) :
    w.owned.Perm (reservationsOf (w.cacheOf surface) ++ w.elsewhere surface ++ w.tokenRefs) := by
  refine List.Perm.append_right _ ?_
  unfold World.cacheOf World.elsewhere
  cases hc : w.caches.get surface with
  | none =>
    rw [Table.remove_of_get_none hc]
    exact List.Perm.refl _
  | some cache => exact (Table.values_perm_remove hc).flatMap_right _

theorem owned_setCache (w : World κ σ) (surface : σ) (cache : Cache κ) :
    (w.setCache surface cache).owned = reservationsOf cache ++ w.elsewhere surface ++ w.tokenRefs := by
  unfold World.owned World.setCache
  rw [Table.values_set, List.flatMap_cons]
  rfl

theorem mem_owned_of_cached {v : Version (Resource κ)} (hc : w.caches.get surface = some cache) (hv : v ∈ cache.versions) :
    v.resource.reservation ∈ w.owned :=
  List.mem_append_left _ (List.mem_flatMap.2 ⟨cache, Table.mem_values_iff.2 ⟨surface, hc⟩, List.mem_map.2 ⟨v, hv, rfl⟩⟩)

end Owned

/-! ## The accounts -/

variable [DecidableEq κ] {b : TextureBudget} {client : κ}

/-- A frame's reads end when its completion starts, and before its versions may be written. -/
structure FrameOk (f : Frame κ) : Prop where
  nodup : f.reservations.Nodup
  started : f.started = true → f.reservations = []
  completed : f.completed = true → f.started = true
  taken : f.started = false → f.taken = []

omit [DecidableEq κ] in
theorem FrameOk.new : FrameOk (.new : Frame κ) := ⟨List.nodup_nil, fun _ => rfl, nofun, fun _ => rfl⟩

def World.readersOf (w : World κ σ) (r : Reservation κ) : Nat :=
  total (fun f => if r ∈ f.reservations then 1 else 0) w.frames.values

structure Accounts (b : TextureBudget) (client : κ) (w : World κ σ) : Prop where
  budget : RenderBudget.Inv b w.budget
  ids : (w.budget.live.map Reservation.id).Nodup
  ids_lt : ∀ r ∈ w.budget.live, r.id < w.budget.nextId
  live : ∀ r ∈ w.references, r ∈ w.budget.live ∧ r.client = client
  owned : w.owned.Nodup
  caches : ∀ cache ∈ w.caches.values, CacheOk cache
  frames_le : w.frames.values.length ≤ maxFrames
  frames : ∀ f ∈ w.frames.values, FrameOk f
  frames_lt : ∀ i f, w.frames.get i = some f → i < w.nextFrame
  readers : ∀ r ∈ w.budget.live, r.client = client → (w.budget.cells r.id).readers = w.readersOf r

/-- The live reservations of the renderer that it still uses. -/
def World.charged (client : κ) (w : World κ σ) : List (Reservation κ) :=
  w.budget.live.filter fun r => r.client = client ∧ r ∈ w.owned ++ w.reading

/-- Those that it no longer uses. -/
def World.lingering (client : κ) (w : World κ σ) : List (Reservation κ) :=
  w.budget.live.filter fun r => r.client = client ∧ r ∉ w.owned ++ w.reading

/-- Every live reservation of the renderer is referenced. -/
def Swept (client : κ) (w : World κ σ) : Prop := ∀ r ∈ w.budget.live, r.client = client → r ∈ w.references

theorem Accounts.shrink (h : Accounts b client w) (hbudget : w'.budget = w.budget) (hframes : w'.frames = w.frames)
    (hnext : w'.nextFrame = w.nextFrame) (howned : w'.owned.Subperm w.owned)
    (hcaches : ∀ cache ∈ w'.caches.values, CacheOk cache) : Accounts b client w' := by
  have hreading : w'.reading = w.reading := by unfold World.reading; rw [hframes]
  have hlate : w'.late = w.late := by unfold World.late; rw [hframes]
  have hreaders : w'.readersOf = w.readersOf := by unfold World.readersOf; rw [hframes]
  refine ⟨hbudget ▸ h.budget, hbudget ▸ h.ids, hbudget ▸ h.ids_lt, fun r hr => ?_, ?_, hcaches, hframes ▸ h.frames_le,
    hframes ▸ h.frames, ?_, ?_⟩
  · rw [hbudget]
    apply h.live
    unfold World.references at hr ⊢
    rw [hreading, hlate] at hr
    simp only [List.mem_append] at hr ⊢
    exact hr.imp_left (Or.imp_left fun hr => howned.subset hr)
  · obtain ⟨l, hperm, hsub⟩ := howned
    exact hperm.nodup_iff.1 (h.owned.sublist hsub)
  · rw [hframes, hnext]
    exact h.frames_lt
  · rw [hbudget, hreaders]
    exact h.readers

theorem charged_le (f : Reservation κ → Nat) (hlive : w'.budget.live = w.budget.live)
    (hsub : ∀ r ∈ w'.owned ++ w'.reading, r ∈ w.owned ++ w.reading) :
    total f (w'.charged client) ≤ total f (w.charged client) := by
  unfold World.charged
  rw [hlive]
  apply total_filter_mono
  intro r _ hr
  simp only [decide_eq_true_eq] at hr ⊢
  exact ⟨hr.1, hsub r hr.2⟩

/-- A reservation that is no longer used is charged no more. -/
theorem charged_add_le (f : Reservation κ → Nat) (hlive : w'.budget.live = w.budget.live)
    (hsub : ∀ r ∈ w'.owned ++ w'.reading, r ∈ w.owned ++ w.reading) {r : Reservation κ} (hr : r ∈ w.budget.live)
    (hc : r.client = client) (hin : r ∈ w.owned ++ w.reading) (hout : r ∉ w'.owned ++ w'.reading) :
    total f (w'.charged client) + f r ≤ total f (w.charged client) := by
  unfold World.charged
  rw [hlive]
  apply total_filter_add_le f _ hr
  · simpa using ⟨hc, by simpa using hin⟩
  · exact decide_eq_false fun h => hout h.2
  · intro r _ hr
    simp only [decide_eq_true_eq] at hr ⊢
    exact ⟨hr.1, hsub r hr.2⟩

/-! ## Sweeps -/

theorem foldl_drop {s : RenderBudget.State κ} (h : RenderBudget.Inv b s) (hids : (s.live.map Reservation.id).Nodup)
    {dead : List (Reservation κ)} (hdead : ∀ r ∈ dead, r ∈ s.live) (hn : dead.Nodup) :
    RenderBudget.Inv b (dead.foldl RenderBudget.drop s) ∧
      (dead.foldl RenderBudget.drop s).live = s.live.filter (fun r => r ∉ dead) ∧
      (dead.foldl RenderBudget.drop s).cells = s.cells ∧ (dead.foldl RenderBudget.drop s).nextId = s.nextId := by
  induction dead generalizing s with
  | nil => exact ⟨h, by simp, rfl, rfl⟩
  | cons r dead ih =>
    obtain ⟨hr, hn⟩ := List.nodup_cons.1 hn
    have hlive : (RenderBudget.drop s r).live = s.live.filter (fun x => x ≠ r) := by
      refine (hids.of_map.erase_eq_filter r).trans (List.filter_congr fun x _ => ?_)
      by_cases hx : x = r <;> simp [hx]
    have hids' : ((RenderBudget.drop s r).live.map Reservation.id).Nodup := by
      rw [hlive]
      exact hids.sublist (List.filter_sublist.map _)
    obtain ⟨hinv, hl, hcells, hnext⟩ := ih (h.drop (hdead r List.mem_cons_self)) hids'
      (fun x hx => by
        rw [hlive, List.mem_filter]
        exact ⟨hdead x (List.mem_cons_of_mem r hx), decide_eq_true fun he : x = r => hr (he ▸ hx)⟩) hn
    refine ⟨hinv, ?_, hcells, hnext⟩
    rw [List.foldl_cons, hl, hlive, List.filter_filter]
    apply List.filter_congr
    intro x _
    simp only [List.mem_cons, not_or, Bool.decide_and, Bool.and_comm]

theorem sweep_spec (h : Accounts b client w) : RenderBudget.Inv b (w.sweep client).budget ∧
    (w.sweep client).budget.live = w.budget.live.filter (fun r => ¬(r.client = client ∧ r ∉ w.references)) ∧
    (w.sweep client).budget.cells = w.budget.cells ∧ (w.sweep client).budget.nextId = w.budget.nextId := by
  have hdead : ∀ r ∈ w.budget.live.filter fun r => r.client = client ∧ r ∉ w.references, r ∈ w.budget.live :=
    fun r hr => (List.mem_filter.1 hr).1
  obtain ⟨hinv, hlive, hcells, hnext⟩ := foldl_drop h.budget h.ids hdead (h.ids.of_map.filter _)
  refine ⟨hinv, hlive.trans ?_, hcells, hnext⟩
  apply List.filter_congr
  intro r hr
  simp [hr]

theorem Accounts.sweep (h : Accounts b client w) : Accounts b client (w.sweep client) := by
  obtain ⟨hinv, hlive, hcells, hnext⟩ := sweep_spec h
  have hkept : ∀ r, r ∈ (w.sweep client).budget.live ↔ r ∈ w.budget.live ∧ ¬(r.client = client ∧ r ∉ w.references) := by
    intro r
    rw [hlive, List.mem_filter, decide_eq_true_eq]
  refine ⟨hinv, ?_, fun r hr => ?_, fun r hr => ?_, h.owned, h.caches, h.frames_le, h.frames, h.frames_lt,
    fun r hr hc => ?_⟩
  · rw [hlive]
    exact h.ids.sublist (List.filter_sublist.map _)
  · rw [hnext]
    exact h.ids_lt r ((hkept r).1 hr).1
  · obtain ⟨hl, hc⟩ := h.live r hr
    exact ⟨(hkept r).2 ⟨hl, fun hn => hn.2 hr⟩, hc⟩
  · rw [hcells]
    exact h.readers r ((hkept r).1 hr).1 hc

theorem swept_sweep (h : Accounts b client w) : Swept client (w.sweep client) := by
  intro r hr hc
  rw [(sweep_spec h).2.1, List.mem_filter, decide_eq_true_eq] at hr
  by_contra hn
  exact hr.2 ⟨hc, hn⟩

theorem charged_sweep (h : Accounts b client w) : (w.sweep client).charged client = w.charged client := by
  unfold World.charged
  rw [(sweep_spec h).2.1, List.filter_filter]
  apply List.filter_congr
  intro r _
  have hsub : r ∈ w.owned ++ w.reading → r ∈ w.references := fun hr => List.mem_append_left _ hr
  show (decide (r.client = client ∧ r ∈ w.owned ++ w.reading) && _) = _
  by_cases hr : r ∈ w.owned ++ w.reading
  · simp [hr, hsub hr]
  · simp [hr]

end CocoaWay.Renderer
