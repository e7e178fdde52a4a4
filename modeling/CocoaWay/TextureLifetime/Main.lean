import Mathlib.Data.List.Nodup
import CocoaWay.TextureLifetime.Operations

/-!
# Texture versions over whole runs

* `Tracked` : the readers the versions list are the marked reads that are not done;
* `Inv` : tracked versions, a valid current index, the limit, and distinct storage while uploads return fresh storage;
* `Inv.step` : kept by every operation and by every completion of a frame;
* `textureVersions_guarantees` : what the operations promise in every state that any sequence of them reaches, whatever
  the callbacks return.
-/

namespace CocoaWay.TextureLifetime
open Lib

variable {T ε : Type*} {done : Nat → Bool} {v v' w : Version T} {vs vs' : List (Version T)} {c : TextureVersions T}
  {reads : List (Read T)} {nextSlot : Nat}

/-! ## Tracked versions -/

/-- Every read of the slot is done. -/
def SlotIdle (done : Nat → Bool) (reads : List (Read T)) (slot : Nat) : Prop :=
  ∀ r ∈ reads, r.slot = slot → done r.frame = true

/-- The versions list the reads that are not done. -/
structure Tracked (done : Nat → Bool) (reads : List (Read T)) (nextSlot : Nat) (vs : List (Version T)) : Prop where
  nodup : (vs.map Version.slot).Nodup
  slot_lt : ∀ v ∈ vs, v.slot < nextSlot
  listed : ∀ v ∈ vs, ∀ f ∈ v.readers, done f = false → ∃ r ∈ reads, r.frame = f ∧ r.slot = v.slot
  read : ∀ r ∈ reads, done r.frame = false →
    ∃ v ∈ vs, v.slot = r.slot ∧ v.resource = r.resource ∧ r.frame ∈ v.readers

theorem eq_of_slot (hn : (vs.map Version.slot).Nodup) (hv : v ∈ vs) (hw : w ∈ vs) (h : v.slot = w.slot) : v = w :=
  List.inj_on_of_nodup_map hn hv hw h

/-- The readers of a version are done exactly when every read of its slot is. -/
theorem Tracked.idle_iff (h : Tracked done reads nextSlot vs) (hv : v ∈ vs) :
    v.Idle done ↔ SlotIdle done reads v.slot := by
  constructor
  · intro hi r hr hrs
    cases hd : done r.frame with
    | true => rfl
    | false =>
      obtain ⟨u, hu, hus, -, huf⟩ := h.read r hr hd
      cases eq_of_slot h.nodup hu hv (hus.trans hrs)
      exact hd.symm.trans (hi _ huf)
  · intro hi f hf
    cases hd : done f with
    | true => rfl
    | false =>
      obtain ⟨r, hr, hrf, hrs⟩ := h.listed v hv f hf hd
      exact hd.symm.trans (hrf ▸ hi r hr hrs)

theorem Tracked.pruned (h : Tracked done reads nextSlot vs) (hp : AllPruned done vs vs') :
    Tracked done reads nextSlot vs' := by
  refine ⟨hp.slots ▸ h.nodup, fun v' hv' => ?_, fun v' hv' f hf hd => ?_, fun r hr hd => ?_⟩
  · obtain ⟨v, hv, hpv⟩ := hp.mem_back hv'
    exact hpv.slot ▸ h.slot_lt v hv
  · obtain ⟨v, hv, hpv⟩ := hp.mem_back hv'
    obtain ⟨r, hr, hrf, hrs⟩ := h.listed v hv f ((hpv.readers f hd).1 hf) hd
    exact ⟨r, hr, hrf, hrs.trans hpv.slot.symm⟩
  · obtain ⟨v, hv, hs, ht, hf⟩ := h.read r hr hd
    obtain ⟨v', hv', hpv⟩ := hp.mem hv
    exact ⟨v', hv', hpv.slot.trans hs, hpv.resource.trans ht, (hpv.readers _ hd).2 hf⟩

variable {i : Nat}

theorem mem_set_of_ne {u : Version T} (hi : vs[i]? = some v) (hw : w ∈ vs) (hne : w ≠ v) :
    w ∈ vs.set i u := by
  obtain ⟨j, hj⟩ := List.mem_iff_getElem?.1 hw
  have hij : i ≠ j := fun hij => hne (Option.some.inj (hj.symm.trans (hij ▸ hi)))
  exact List.mem_of_getElem? ((List.getElem?_set_ne hij).trans hj)

theorem set_eq_self {α : Type*} {l : List α} {a : α} (h : l[i]? = some a) : l.set i a = l := by
  obtain ⟨hi, rfl⟩ := List.getElem?_eq_some_iff.1 h
  exact List.set_getElem_self hi

theorem map_slot_set (hi : vs[i]? = some v) (hs : v'.slot = v.slot) :
    (vs.set i v').map Version.slot = vs.map Version.slot := by
  rw [List.map_set, hs]
  exact set_eq_self (by rw [List.getElem?_map, hi]; rfl)

/-- An idle version may get another resource. -/
theorem Tracked.rewrite (h : Tracked done reads nextSlot vs) (hi : vs[i]? = some v) (hidle : v.Idle done)
    (resource : T) : Tracked done reads nextSlot (vs.set i { v with resource }) := by
  have hv := List.mem_of_getElem? hi
  have hslots := map_slot_set hi (show ({ v with resource } : Version T).slot = v.slot from rfl)
  refine ⟨hslots ▸ h.nodup, fun w hw => ?_, fun w hw f hf hd => ?_, fun r hr hd => ?_⟩
  · rcases List.mem_or_eq_of_mem_set hw with hw | rfl
    · exact h.slot_lt w hw
    · exact h.slot_lt v hv
  · rcases List.mem_or_eq_of_mem_set hw with hw | rfl
    · exact h.listed w hw f hf hd
    · exact h.listed v hv f hf hd
  · obtain ⟨u, hu, hs, ht, hf⟩ := h.read r hr hd
    have hne : u ≠ v := fun huv => Bool.false_ne_true (hd.symm.trans (hidle _ (huv ▸ hf)))
    exact ⟨u, mem_set_of_ne hi hu hne, hs, ht, hf⟩

theorem Tracked.push (h : Tracked done reads nextSlot vs) (resource : T) :
    Tracked done reads (nextSlot + 1) (vs ++ [⟨nextSlot, resource, []⟩]) := by
  refine ⟨?_, fun w hw => ?_, fun w hw f hf hd => ?_, fun r hr hd => ?_⟩
  · rw [List.map_append, List.nodup_append]
    refine ⟨h.nodup, List.nodup_singleton _, fun a ha b hb hab => ?_⟩
    obtain ⟨v, hv, rfl⟩ := List.mem_map.1 ha
    have hlt := h.slot_lt v hv
    rw [hab, List.mem_singleton.1 hb] at hlt
    exact Nat.lt_irrefl _ hlt
  · rcases List.mem_append.1 hw with hw | hw
    · exact Nat.lt_succ_of_lt (h.slot_lt w hw)
    · rw [List.mem_singleton.1 hw]
      exact Nat.lt_succ_self nextSlot
  · rcases List.mem_append.1 hw with hw | hw
    · exact h.listed w hw f hf hd
    · rw [List.mem_singleton.1 hw] at hf
      cases hf
  · obtain ⟨u, hu, hread⟩ := h.read r hr hd
    exact ⟨u, List.mem_append_left _ hu, hread⟩

theorem Tracked.retain (h : Tracked done reads nextSlot vs) (compatible : T → Bool) (selfCurrent index current : Nat)
    (spare : Bool) : Tracked done reads nextSlot (retainLoop done compatible selfCurrent index current spare vs).1 := by
  refine ⟨(retainLoop_map _ _ _ (f := Version.slot) (fun _ => rfl) ..).nodup h.nodup, fun v' hv' => ?_,
    fun v' hv' f hf hd => ?_, fun r hr hd => ?_⟩
  · obtain ⟨v, hv, hp⟩ := retainLoop_mem _ _ _ _ _ _ _ v' hv'
    exact hp.slot ▸ h.slot_lt v hv
  · obtain ⟨v, hv, hp⟩ := retainLoop_mem _ _ _ _ _ _ _ v' hv'
    obtain ⟨r, hr, hrf, hrs⟩ := h.listed v hv f ((hp.readers f hd).1 hf) hd
    exact ⟨r, hr, hrf, hrs.trans hp.slot.symm⟩
  · obtain ⟨v, hv, hs, ht, hf⟩ := h.read r hr hd
    have hbusy : ¬ v.Idle done := fun hi => Bool.false_ne_true (hd.symm.trans (hi _ hf))
    obtain ⟨v', hv', hp⟩ := retainLoop_busy done compatible selfCurrent index current spare vs hv hbusy
    exact ⟨v', hv', hp.slot.trans hs, hp.resource.trans ht, (hp.readers _ hd).2 hf⟩

theorem Tracked.markRead (h : Tracked done reads nextSlot vs) {i frame : Nat} (hi : vs[i]? = some v)
    (hs : v'.slot = v.slot) (ht : v'.resource = v.resource) (hin : frame ∈ v'.readers)
    (hr : ∀ f, done f = false → f ≠ frame → (f ∈ v'.readers ↔ f ∈ v.readers)) :
    Tracked done (⟨frame, v.slot, v.resource⟩ :: reads) nextSlot (vs.set i v') := by
  have hv := List.mem_of_getElem? hi
  have hv' : v' ∈ vs.set i v' := List.mem_set (List.getElem?_eq_some_iff.1 hi).1 v'
  refine ⟨map_slot_set hi hs ▸ h.nodup, fun w hw => ?_, fun w hw f hf hd => ?_, fun r hrm hd => ?_⟩
  · rcases List.mem_or_eq_of_mem_set hw with hw | rfl
    · exact h.slot_lt w hw
    · exact hs ▸ h.slot_lt v hv
  · rcases List.mem_or_eq_of_mem_set hw with hw | rfl
    · obtain ⟨r, hr, hrf⟩ := h.listed w hw f hf hd
      exact ⟨r, List.mem_cons_of_mem _ hr, hrf⟩
    · by_cases hff : f = frame
      · exact ⟨_, List.mem_cons_self, hff.symm, hs.symm⟩
      · obtain ⟨r, hr', hrf, hrs⟩ := h.listed v hv f ((hr f hd hff).1 hf) hd
        exact ⟨r, List.mem_cons_of_mem _ hr', hrf, hrs.trans hs.symm⟩
  · rcases List.mem_cons.1 hrm with rfl | hrm
    · exact ⟨v', hv', hs, ht, hin⟩
    · obtain ⟨u, hu, hus, hut, huf⟩ := h.read r hrm hd
      by_cases huv : u = v
      · subst huv
        by_cases hff : r.frame = frame
        · exact ⟨v', hv', hs.trans hus, ht.trans hut, hff ▸ hin⟩
        · exact ⟨v', hv', hs.trans hus, ht.trans hut, (hr _ hd hff).2 huf⟩
      · exact ⟨u, mem_set_of_ne hi hu huv, hus, hut, huf⟩

theorem Tracked.complete (h : Tracked done reads nextSlot vs) (frame : Nat) :
    Tracked (Function.update done frame true) reads nextSlot vs := by
  have hmono : ∀ f, Function.update done frame true f = false → done f = false := by
    intro f hf
    by_cases hff : f = frame
    · subst hff
      simp at hf
    · rwa [Function.update_of_ne hff] at hf
  exact ⟨h.nodup, h.slot_lt, fun v hv f hf hd => h.listed v hv f hf (hmono f hd),
    fun r hr hd => h.read r hr (hmono _ hd)⟩

/-! ## The invariant of the cache -/

variable [DecidableEq T] {s s' : State T}

structure Inv (s : State T) : Prop where
  tracked : Tracked s.done s.reads s.cache.nextSlot s.cache.versions
  current_lt : s.cache.versions ≠ [] → s.cache.current < s.cache.versions.length
  length_le : s.cache.versions.length ≤ maxVersions
  distinct : s.fresh = true → (s.cache.versions.map Version.resource).Nodup

omit [DecidableEq T] in
theorem Inv.init : Inv ({ cache := .new, done := fun _ => false, reads := [], fresh := true } : State T) :=
  ⟨⟨List.nodup_nil, fun _ h => absurd h List.not_mem_nil, fun _ h => absurd h List.not_mem_nil,
    fun _ h => absurd h List.not_mem_nil⟩, fun h => absurd rfl h, Nat.zero_le _, fun _ => List.nodup_nil⟩

omit [DecidableEq T] in
theorem Inv.pruned (h : Inv s) (hp : AllPruned s.done s.cache.versions vs) :
    Inv { s with cache := { s.cache with versions := vs } } :=
  ⟨h.tracked.pruned hp, fun hne => hp.length ▸ h.current_lt fun he => hne (by
      rw [he] at hp
      cases hp
      rfl), hp.length ▸ h.length_le, fun hf => hp.resources ▸ h.distinct hf⟩

omit [DecidableEq T] in
theorem nodup_set_resource {resource : T} (hn : (vs.map Version.resource).Nodup) (hi : vs[i]? = some v)
    (hf : resource = v.resource ∨ ∀ u ∈ vs, u.resource ≠ resource) :
    ((vs.set i { v with resource }).map Version.resource).Nodup := by
  rw [List.map_set]
  rcases hf with rfl | hf
  · rw [set_eq_self (by rw [List.getElem?_map, hi]; rfl)]
    exact hn
  · refine hn.set fun hm => ?_
    obtain ⟨u, hu, hur⟩ := List.mem_map.1 hm
    exact hf u hu hur

/-- What `freshUpdate` checks, in a successful update. -/
theorem freshUpdate_spec {compatible : T → Bool} {upload : Option T → Bool → Option T} {target : Nat}
    (hp : AllPruned s.done s.cache.versions vs)
    (ht : updateTarget s.done compatible s.cache = (.ok target, { s.cache with versions := vs })) {resource : T}
    (hup : upload (vs[target]?.map Version.resource) (vs[target]?.isSome && target == s.cache.current) = some resource)
    (hf : freshUpdate s compatible upload = true) :
    vs[target]?.map Version.resource = some resource ∨ ∀ u ∈ vs, u.resource ≠ resource := by
  simp only [freshUpdate, ht, hup, Bool.or_eq_true, beq_iff_eq, Bool.and_eq_true, List.all_eq_true,
    decide_eq_true_eq] at hf
  rcases hf with hf | ⟨hf, -⟩
  · exact Or.inl hf
  · refine Or.inr fun u hu => ?_
    obtain ⟨u0, hu0, hpu⟩ := hp.mem_back hu
    exact hpu.resource ▸ hf u0 hu0

theorem Inv.update (h : Inv s) (compatible : T → Bool) (upload : Option T → Bool → Option T) :
    Inv (stepUpdate s compatible upload) := by
  obtain ⟨vs, hp, hup⟩ := updateMatching_spec s.done compatible upload s.cache
  have hpruned := h.pruned hp
  have hfresh : ∀ {b : Bool}, (s.fresh && b) = true → s.fresh = true ∧ b = true := fun hb => by
    simpa using hb
  unfold stepUpdate
  generalize hr : updateMatching s.done compatible upload s.cache = result at hup
  cases hup with
  | failed e => exact ⟨hpruned.tracked, hpruned.current_lt, hpruned.length_le, fun hf => hpruned.distinct (hfresh hf).1⟩
  | @rewritten target v resource ht hv hidle hup =>
    refine ⟨hpruned.tracked.rewrite hv hidle resource, fun _ => ?_, ?_, fun hf => ?_⟩
    · simpa using (List.getElem?_eq_some_iff.1 hv).1
    · simpa using hpruned.length_le
    · refine nodup_set_resource (hpruned.distinct (hfresh hf).1) hv ?_
      have hspec := freshUpdate_spec hp ht (by simpa [hv] using hup) (hfresh hf).2
      rw [hv, Option.map_some, Option.some.injEq] at hspec
      exact hspec.imp_left Eq.symm
  | @added resource ht hlt hup =>
    refine ⟨hpruned.tracked.push resource, fun _ => by simp, by simpa using Nat.succ_le_of_lt hlt, fun hf => ?_⟩
    have hspec := freshUpdate_spec hp ht (by simpa using hup) (hfresh hf).2
    rw [List.map_append, List.nodup_append]
    refine ⟨hpruned.distinct (hfresh hf).1, List.nodup_singleton _, fun a ha b hb hab => ?_⟩
    obtain ⟨u, hu, rfl⟩ := List.mem_map.1 ha
    rcases hspec with hspec | hspec
    · simp at hspec
    · exact hspec u hu (hab.trans (List.mem_singleton.1 hb))

omit [DecidableEq T] in
/-- The version the index points to, found again after trimming. -/
theorem retainIdleSpare_current (done : Nat → Bool) (compatible : T → Bool) {c : TextureVersions T}
    (hv : c.currentVersion = some v) :
    (retainIdleSpare done compatible c).2.currentVersion = some v := by
  obtain ⟨d, -, hi, hr⟩ := retainLoop_current done compatible c.current 0 c.current false c.versions
    (Nat.zero_le _) hv
  rw [Nat.sub_zero] at hr
  simpa only [TextureVersions.currentVersion, retainIdleSpare, hi] using hr

omit [DecidableEq T] in
theorem retainLoop_nil (compatible : T → Bool) (c : TextureVersions T) (h : c.versions = []) :
    (retainIdleSpare done compatible c).2 = c := by
  cases c
  simp only at h
  subst h
  rfl

omit [DecidableEq T] in
theorem Inv.currentVersion (h : Inv s) (hne : s.cache.versions ≠ []) : ∃ v, s.cache.currentVersion = some v :=
  ⟨_, List.getElem?_eq_getElem (h.current_lt hne)⟩

omit [DecidableEq T] in
theorem Inv.retain (h : Inv s) (compatible : T → Bool) :
    Inv { s with cache := (retainIdleSpare s.done compatible s.cache).2 } := by
  by_cases hne : s.cache.versions = []
  · rw [retainLoop_nil compatible s.cache hne]
    exact h
  · obtain ⟨v, hv⟩ := h.currentVersion hne
    have hcur := retainIdleSpare_current s.done compatible hv
    have hmap := retainLoop_map s.done compatible s.cache.current (f := Version.resource) (fun _ => rfl) 0
      s.cache.current false s.cache.versions
    refine ⟨h.tracked.retain compatible _ _ _ _, fun _ => (List.getElem?_eq_some_iff.1 hcur).1, ?_, fun hf => ?_⟩
    · have hlen := hmap.length_le
      rw [List.length_map, List.length_map] at hlen
      exact Nat.le_trans hlen h.length_le
    · exact hmap.nodup (h.distinct hf)

theorem Inv.step (h : Inv s) {a : Event T ε} (hs : step s a = some s') : Inv s' := by
  cases a with
  | update upload =>
    cases hs
    exact h.update _ upload
  | updateMatching compatible upload =>
    cases hs
    exact h.update compatible upload
  | writableMatching compatible =>
    cases hs
    obtain ⟨vs, hp, he⟩ := writableMatching_pruned s.done compatible s.cache
    rw [he]
    exact h.pruned hp
  | prepareMatching compatible allocate =>
    cases hs
    obtain ⟨vs, hp, he⟩ := prepareMatching_pruned s.done compatible allocate s.cache
    rw [he]
    exact h.pruned hp
  | markRead frame =>
    simp only [TextureLifetime.step] at hs
    cases hm : markRead s.done frame s.cache with
    | none =>
      rw [hm] at hs
      cases hv : s.cache.currentVersion <;> simp [hv] at hs
    | some c =>
      obtain ⟨v, v', hv, rfl, hslot, hres, hin, hr⟩ := markRead_spec hm
      have hcur : s.cache.currentVersion = some v := hv
      simp only [hm, hcur, Option.some.injEq] at hs
      subst hs
      refine ⟨h.tracked.markRead hv hslot hres hin hr, fun _ => ?_, by simpa using h.length_le, fun hf => ?_⟩
      · simpa using (List.getElem?_eq_some_iff.1 hv).1
      · have hset : (s.cache.versions.set s.cache.current v').map Version.resource =
            s.cache.versions.map Version.resource := by
          rw [List.map_set, hres]
          exact set_eq_self (by rw [List.getElem?_map, hv]; rfl)
        exact hset ▸ h.distinct hf
  | complete frame =>
    cases hs
    exact ⟨h.tracked.complete frame, h.current_lt, h.length_le, h.distinct⟩
  | pruneIdle =>
    cases hs
    exact h.retain _
  | retainIdleSpare compatible =>
    cases hs
    exact h.retain compatible
  | currentBusy =>
    cases hs
    obtain ⟨vs, hp, he⟩ := currentBusy_pruned s.done s.cache
    rw [he]
    exact h.pruned hp

theorem inv_reachable (h : (system T ε).Reachable s) : Inv s :=
  System.Reachable.invariant (I := Inv) Inv.init (fun _ _ _ hi hs => Inv.step hi hs) h

/-! ## What is kept -/

omit [DecidableEq T] in
/-- A version that is pruned in place is kept. -/
theorem kept_of_pruned (hp : AllPruned done vs vs') (hv : v ∈ vs) :
    ∃ v' ∈ vs', v'.slot = v.slot ∧ v'.resource = v.resource :=
  let ⟨v', hv', hpv⟩ := hp.mem hv
  ⟨v', hv', hpv.slot, hpv.resource⟩

/-- No operation removes the current version or one that is read, and one that is read keeps its resource. -/
theorem Inv.kept (h : Inv s) {a : Event T ε} (hs : TextureLifetime.step s a = some s') (hv : v ∈ s.cache.versions)
    (hk : s.cache.currentVersion = some v ∨ ¬ SlotIdle s.done s.reads v.slot) :
    ∃ v' ∈ s'.cache.versions, v'.slot = v.slot ∧ (¬ SlotIdle s.done s.reads v.slot → v'.resource = v.resource) := by
  have himp : (∃ v' ∈ s'.cache.versions, v'.slot = v.slot ∧ v'.resource = v.resource) →
      ∃ v' ∈ s'.cache.versions, v'.slot = v.slot ∧ (¬ SlotIdle s.done s.reads v.slot → v'.resource = v.resource) :=
    fun ⟨v', hv', hslot, hres⟩ => ⟨v', hv', hslot, fun _ => hres⟩
  have hupdate : ∀ compatible upload, ∃ v' ∈ (stepUpdate s compatible upload).cache.versions, v'.slot = v.slot ∧
      (¬ SlotIdle s.done s.reads v.slot → v'.resource = v.resource) := by
    intro compatible upload
    obtain ⟨vs, hp, hup⟩ := updateMatching_spec s.done compatible upload s.cache
    obtain ⟨u, hu, hpu⟩ := hp.mem hv
    unfold stepUpdate
    generalize updateMatching s.done compatible upload s.cache = result at hup
    cases hup with
    | failed e => exact ⟨u, hu, hpu.slot, fun _ => hpu.resource⟩
    | @rewritten target w resource ht hw hidle hup =>
      by_cases huw : u = w
      · -- The rewritten version is idle, so nothing reads it.
        subst huw
        refine ⟨{ u with resource }, List.mem_set (List.getElem?_eq_some_iff.1 hw).1 _, hpu.slot, fun hbusy => ?_⟩
        have := ((h.tracked.pruned hp).idle_iff hu).1 hidle
        rw [hpu.slot] at this
        exact absurd this hbusy
      · exact ⟨u, mem_set_of_ne hw hu huw, hpu.slot, fun _ => hpu.resource⟩
    | added ht hlt hup => exact ⟨u, List.mem_append_left _ hu, hpu.slot, fun _ => hpu.resource⟩
  have hretain : ∀ compatible, ∃ v' ∈ (retainIdleSpare s.done compatible s.cache).2.versions, v'.slot = v.slot ∧
      v'.resource = v.resource := by
    intro compatible
    rcases hk with hcur | hbusy
    · exact ⟨v, List.mem_of_getElem? (retainIdleSpare_current s.done compatible hcur), rfl, rfl⟩
    · obtain ⟨v', hv', hp⟩ := retainLoop_busy s.done compatible s.cache.current 0 s.cache.current false
        s.cache.versions hv (fun hi => hbusy ((h.tracked.idle_iff hv).1 hi))
      exact ⟨v', hv', hp.slot, hp.resource⟩
  cases a with
  | update upload =>
    cases hs
    exact hupdate _ upload
  | updateMatching compatible upload =>
    cases hs
    exact hupdate compatible upload
  | writableMatching compatible =>
    cases hs
    obtain ⟨vs, hp, he⟩ := writableMatching_pruned s.done compatible s.cache
    rw [he] at himp ⊢
    exact himp (kept_of_pruned hp hv)
  | prepareMatching compatible allocate =>
    cases hs
    obtain ⟨vs, hp, he⟩ := prepareMatching_pruned s.done compatible allocate s.cache
    rw [he] at himp ⊢
    exact himp (kept_of_pruned hp hv)
  | markRead frame =>
    simp only [TextureLifetime.step] at hs
    cases hm : markRead s.done frame s.cache with
    | none =>
      rw [hm] at hs
      cases hc : s.cache.currentVersion <;> simp [hc] at hs
    | some c =>
      obtain ⟨u, u', hu, rfl, hslot, hres, -⟩ := markRead_spec hm
      have hcur : s.cache.currentVersion = some u := hu
      simp only [hm, hcur, Option.some.injEq] at hs
      subst hs
      by_cases hvu : v = u
      · subst hvu
        exact himp ⟨u', List.mem_set (List.getElem?_eq_some_iff.1 hu).1 _, hslot, hres⟩
      · exact himp ⟨v, mem_set_of_ne hu hv hvu, rfl, rfl⟩
  | complete frame =>
    cases hs
    exact himp ⟨v, hv, rfl, rfl⟩
  | pruneIdle =>
    cases hs
    exact himp (hretain _)
  | retainIdleSpare compatible =>
    cases hs
    exact himp (hretain compatible)
  | currentBusy =>
    cases hs
    obtain ⟨vs, hp, he⟩ := currentBusy_pruned s.done s.cache
    rw [he] at himp ⊢
    exact himp (kept_of_pruned hp hv)

/-! ## The guarantees of the cache -/

/-- What the cache promises in a state, for the callbacks of whatever operation comes next. -/
structure Guarantees (ε : Type*) (s : State T) : Prop where
  current_valid : s.cache.versions ≠ [] → s.cache.current < s.cache.versions.length
  length_le : s.cache.versions.length ≤ maxVersions
  /-- The resource an update or a preparation hands to its callback is that of a slot no uncompleted frame reads. -/
  upload_idle : ∀ compatible target c' v, updateTarget s.done compatible s.cache = (.ok target, c') →
    c'.versions[target]? = some v → ∀ r ∈ s.reads, r.slot = v.slot → s.done r.frame = true
  /-- While callbacks return the storage they were given or fresh storage, it is storage no uncompleted frame reads. -/
  upload_storage : s.fresh = true →
    ∀ compatible target c' v, updateTarget s.done compatible s.cache = (.ok target, c') →
    c'.versions[target]? = some v → ∀ r ∈ s.reads, r.resource = v.resource → s.done r.frame = true
  /-- The current version and every version still read survive every operation; a read one keeps its resource. -/
  kept : ∀ (a : Event T ε) s', step s a = some s' → ∀ v ∈ s.cache.versions,
    s.cache.currentVersion = some v ∨ ¬ SlotIdle s.done s.reads v.slot →
    ∃ v' ∈ s'.cache.versions, v'.slot = v.slot ∧ (¬ SlotIdle s.done s.reads v.slot → v'.resource = v.resource)
  /-- Trimming keeps the current version current. -/
  trim_current : ∀ compatible, (retainIdleSpare s.done compatible s.cache).2.currentVersion = s.cache.currentVersion
  /-- It leaves at most one idle alternate, a compatible one. -/
  trim_alternates : ∀ compatible cur, s.cache.currentVersion = some cur →
    ∀ v ∈ (retainIdleSpare s.done compatible s.cache).2.versions, v.slot ≠ cur.slot →
      SlotIdle s.done s.reads v.slot → compatible v.resource = true ∧
        ∀ w ∈ (retainIdleSpare s.done compatible s.cache).2.versions, w.slot ≠ cur.slot →
          SlotIdle s.done s.reads w.slot → v = w
  /-- A failed update changes neither the resources nor which one is current. -/
  failed : ∀ compatible upload e c', updateMatching s.done compatible upload s.cache = (.error e, c') →
    c'.current = s.cache.current ∧ c'.versions.map Version.resource = s.cache.versions.map Version.resource ∧
      c'.currentResource = s.cache.currentResource

omit [DecidableEq T] in
/-- The version an update is to write is idle. -/
theorem selected_idle {compatible : T → Bool} {target : Nat} (h : Selected done compatible vs (.ok target))
    (hv : vs[target]? = some v) : v.Idle done := by
  cases h with
  | compatible hu hi _ => exact Option.some.inj (hu.symm.trans hv) ▸ hi
  | idle hu hi _ => exact Option.some.inj (hu.symm.trans hv) ▸ hi
  | room _ _ => simp at hv

/-- **Texture versions after any sequence of operations and completions, whatever the callbacks return.** -/
theorem textureVersions_guarantees (h : (system T ε).Reachable s) : Guarantees ε s := by
  have hi := inv_reachable h
  -- The version handed to a callback, in the cache the scan leaves.
  have hgiven : ∀ compatible target c' v, updateTarget s.done compatible s.cache = (.ok target, c') →
      c'.versions[target]? = some v → ∃ vs, AllPruned s.done s.cache.versions vs ∧ v ∈ vs ∧ v.Idle s.done := by
    intro compatible target c' v ht hv
    obtain ⟨vs, hc, hp, hsel⟩ := updateTarget_spec s.done compatible s.cache
    rw [ht] at hc hsel
    cases hc
    exact ⟨vs, hp, List.mem_of_getElem? hv, selected_idle hsel hv⟩
  refine ⟨hi.current_lt, hi.length_le, fun compatible target c' v ht hv => ?_,
    fun hf compatible target c' v ht hv => ?_,
    fun a s' hs v hv hk => hi.kept hs hv hk, fun compatible => ?_, fun compatible cur hcur v hv hne hidle => ?_,
    fun compatible upload e c' hup => ?_⟩
  · obtain ⟨vs, hp, hmem, hidle⟩ := hgiven compatible target c' v ht hv
    exact ((hi.tracked.pruned hp).idle_iff hmem).1 hidle
  · intro r hr hres
    obtain ⟨vs, hp, hmem, hidle⟩ := hgiven compatible target c' v ht hv
    cases hd : s.done r.frame with
    | true => rfl
    | false =>
      obtain ⟨u, hu, hus, hut, huf⟩ := (hi.tracked.pruned hp).read r hr hd
      have huv : u = v := List.inj_on_of_nodup_map (hp.resources ▸ hi.distinct hf) hu hmem (hut.trans hres)
      exact hd.symm.trans (hidle _ (huv ▸ huf))
  · by_cases hne : s.cache.versions = []
    · rw [retainLoop_nil compatible s.cache hne]
    · obtain ⟨v, hv⟩ := hi.currentVersion hne
      rw [hv, retainIdleSpare_current s.done compatible hv]
  · have hs : ∀ v, 0 ≤ s.cache.current → s.cache.versions[s.cache.current - 0]? = some v → v.slot = cur.slot :=
      fun v _ hv => congrArg Version.slot (Option.some.inj (hv.symm.trans hcur))
    have htr := hi.tracked.retain compatible s.cache.current 0 s.cache.current false
    have hvi := (htr.idle_iff hv).2 hidle
    refine ⟨(retainLoop_alternate _ _ _ _ _ _ _ hs hv hne hvi).2, fun w hw hwne hwidle => ?_⟩
    exact retainLoop_unique _ _ _ _ _ _ _ hs hv hne hvi hw hwne ((htr.idle_iff hw).2 hwidle)
  · obtain ⟨vs, hp, hspec⟩ := updateMatching_spec s.done compatible upload s.cache
    rw [hup] at hspec
    cases hspec
    refine ⟨rfl, hp.resources, ?_⟩
    simp only [TextureVersions.currentResource, TextureVersions.currentVersion]
    rw [← List.getElem?_map, ← List.getElem?_map, hp.resources]

/-- A frame reads the first version while two updates write alternates; then trimming keeps the read one. -/
theorem textureVersions_guarantees_trimmed : ∃ s : State Nat, (system Nat Unit).Reachable s ∧ Guarantees Unit s ∧
    s.cache.versions = [⟨0, 10, [7]⟩, ⟨1, 12, []⟩] ∧ s.cache.current = 1 := by
  have hrun : ((system Nat Unit).run (system Nat Unit).init
      [.update (fun _ _ => some 10), .markRead 7, .update (fun _ _ => some 11), .markRead 8,
        .updateMatching (fun _ => true) (fun _ _ => none), .complete 8, .update (fun _ _ => some 12),
        .pruneIdle]).any
      (fun s => s.cache.versions = [⟨0, 10, [7]⟩, ⟨1, 12, []⟩] ∧ s.cache.current = 1) = true := by decide
  obtain ⟨s, h, hp⟩ := System.exists_reachable hrun
  exact ⟨s, h, textureVersions_guarantees h, of_decide_eq_true hp⟩

end CocoaWay.TextureLifetime
