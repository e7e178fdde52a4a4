import Mathlib.Data.List.Forall2
import CocoaWay.TextureLifetime.Versions

/-!
# What the operations on texture versions do

* `Version.Pruned` : the same version with some readers that are done forgotten; scans only prune (`AllPruned`);
* `updateTarget_spec` : the selected version is idle, or there is room for a new one;
* `updateMatching_cases`, `markRead_spec`, `retainLoop_*` : what each operation leaves.
-/

namespace CocoaWay.TextureLifetime
open Lib

variable {T ε : Type*} {done : Nat → Bool} {v v' w : Version T} {vs vs' : List (Version T)} {c : TextureVersions T}

/-! ## Pruned versions -/

/-- `v'` is `v` with some readers that are done forgotten. -/
structure Version.Pruned (done : Nat → Bool) (v v' : Version T) : Prop where
  slot : v'.slot = v.slot
  resource : v'.resource = v.resource
  readers : ∀ f, done f = false → (f ∈ v'.readers ↔ f ∈ v.readers)

/-- Every reader of the version is done. -/
def Version.Idle (done : Nat → Bool) (v : Version T) : Prop := ∀ f ∈ v.readers, done f = true

theorem Version.Pruned.refl (v : Version T) : v.Pruned done v := ⟨rfl, rfl, fun _ _ => Iff.rfl⟩

theorem Version.Pruned.trans {u : Version T} (h : u.Pruned done v) (h' : v.Pruned done w) : u.Pruned done w :=
  ⟨h'.slot.trans h.slot, h'.resource.trans h.resource, fun f hf => (h'.readers f hf).trans (h.readers f hf)⟩

theorem Version.Pruned.idle_iff (h : v.Pruned done v') : v'.Idle done ↔ v.Idle done := by
  unfold Version.Idle
  constructor <;> intro hi f hf <;> cases hd : done f
  · exact hd ▸ hi f ((h.readers f hd).2 hf)
  · rfl
  · exact hd ▸ hi f ((h.readers f hd).1 hf)
  · rfl

theorem writable_pruned (v : Version T) : v.Pruned done (v.writable done).2 :=
  ⟨rfl, rfl, fun f hf => by simp [Version.writable, hf]⟩

theorem writable_iff (v : Version T) : (v.writable done).1 = true ↔ v.Idle done := by
  simp [Version.writable, Version.Idle]

theorem writableAnd_pruned (compatible : T → Bool) (v : Version T) : v.Pruned done (writableAnd done compatible v).2 :=
  writable_pruned v

theorem writableAnd_iff (compatible : T → Bool) (v : Version T) :
    (writableAnd done compatible v).1 = true ↔ v.Idle done ∧ compatible v.resource = true := by
  simp only [writableAnd, Bool.and_eq_true, writable_iff]

/-- Each version of the list is pruned in place. -/
abbrev AllPruned (done : Nat → Bool) (vs vs' : List (Version T)) : Prop := List.Forall₂ (Version.Pruned done) vs vs'

theorem AllPruned.refl (vs : List (Version T)) : AllPruned done vs vs := List.forall₂_same.2 fun v _ => .refl v

theorem AllPruned.trans {us : List (Version T)} (h : AllPruned done us vs) (h' : AllPruned done vs vs') :
    AllPruned done us vs' := by
  induction h generalizing vs' with
  | nil => exact h'
  | cons hv _ ih =>
    cases h' with
    | cons hv' hvs' => exact .cons (hv.trans hv') (ih hvs')

theorem AllPruned.slots (h : AllPruned done vs vs') : vs'.map Version.slot = vs.map Version.slot := by
  induction h with
  | nil => rfl
  | cons hv _ ih => rw [List.map_cons, List.map_cons, hv.slot, ih]

theorem AllPruned.resources (h : AllPruned done vs vs') : vs'.map Version.resource = vs.map Version.resource := by
  induction h with
  | nil => rfl
  | cons hv _ ih => rw [List.map_cons, List.map_cons, hv.resource, ih]

theorem AllPruned.length (h : AllPruned done vs vs') : vs'.length = vs.length := h.length_eq.symm

theorem AllPruned.getElem? (h : AllPruned done vs vs') (i : Nat) :
    (∀ u, vs[i]? = some u → ∃ u', vs'[i]? = some u' ∧ u.Pruned done u') ∧
      ∀ u', vs'[i]? = some u' → ∃ u, vs[i]? = some u ∧ u.Pruned done u' := by
  induction h generalizing i with
  | nil => simp
  | cons hv _ ih =>
    cases i with
    | zero => simpa using hv
    | succ i => simpa using ih i

theorem AllPruned.mem (h : AllPruned done vs vs') (hv : v ∈ vs) : ∃ v' ∈ vs', v.Pruned done v' := by
  obtain ⟨i, hi⟩ := List.mem_iff_getElem?.1 hv
  obtain ⟨v', hv', hp⟩ := (h.getElem? i).1 v hi
  exact ⟨v', List.mem_of_getElem? hv', hp⟩

theorem AllPruned.mem_back (h : AllPruned done vs vs') (hv : v' ∈ vs') : ∃ v ∈ vs, v.Pruned done v' := by
  obtain ⟨i, hi⟩ := List.mem_iff_getElem?.1 hv
  obtain ⟨v, hv, hp⟩ := (h.getElem? i).2 v' hi
  exact ⟨v, List.mem_of_getElem? hv, hp⟩

variable {p : Version T → Bool × Version T} {i : Nat}

theorem allPruned_set (hv : vs[i]? = some v) (hp : v.Pruned done v') : AllPruned done vs (vs.set i v') := by
  induction vs generalizing i with
  | nil => simp at hv
  | cons u us ih =>
    cases i with
    | zero =>
      simp only [List.getElem?_cons_zero, Option.some.injEq] at hv
      subst hv
      exact .cons hp (AllPruned.refl us)
    | succ i => exact .cons (.refl u) (ih (by simpa using hv))

/-! ## Scans -/

theorem isSomeAnd_pruned (hp : ∀ v : Version T, v.Pruned done (p v).2) (i : Nat)
    (vs : List (Version T)) : AllPruned done vs (isSomeAnd p i vs).2 := by
  unfold isSomeAnd
  split
  · rename_i v hv
    exact allPruned_set hv (hp v)
  · exact AllPruned.refl vs

theorem isSomeAnd_hit (h : (isSomeAnd p i vs).1 = true) :
    ∃ v, vs[i]? = some v ∧ (p v).1 = true ∧ (isSomeAnd p i vs).2[i]? = some (p v).2 := by
  unfold isSomeAnd at h ⊢
  split at h
  · rename_i v hv
    refine ⟨v, hv, h, ?_⟩
    exact List.getElem?_set_self (List.getElem?_eq_some_iff.1 hv).1
  · cases h

theorem position_pruned (hp : ∀ v : Version T, v.Pruned done (p v).2)
    (vs : List (Version T)) : AllPruned done vs (position p vs).2 := by
  induction vs with
  | nil => exact .nil
  | cons v vs ih =>
    unfold position
    split
    · exact .cons (hp v) (AllPruned.refl vs)
    · exact .cons (hp v) ih

theorem position_hit (h : (position p vs).1 = some i) :
    ∃ v, vs[i]? = some v ∧ (p v).1 = true ∧ (position p vs).2[i]? = some (p v).2 := by
  induction vs generalizing i with
  | nil => cases h
  | cons u us ih =>
    unfold position at h ⊢
    by_cases hu : (p u).1 = true
    · rw [if_pos hu, Option.some.injEq] at h
      subst h
      exact ⟨u, rfl, hu, by simp [hu]⟩
    · rw [if_neg hu, Option.map_eq_some_iff] at h
      obtain ⟨j, hj, rfl⟩ := h
      obtain ⟨v, hv, hpv, hr⟩ := ih hj
      exact ⟨v, by simpa using hv, hpv, by simpa [hu] using hr⟩

theorem position_miss (h : (position p vs).1 = none) : ∀ v ∈ vs, (p v).1 = false := by
  induction vs with
  | nil => simp
  | cons u us ih =>
    unfold position at h
    by_cases hu : (p u).1 = true
    · simp [hu] at h
    · rw [if_neg hu, Option.map_eq_none_iff] at h
      intro v hv
      rcases List.mem_cons.1 hv with rfl | hv
      · simpa using hu
      · exact ih h v hv

/-! ## Selecting a version to write -/

/-- What `update_target` selects among the versions `vs` it leaves. -/
inductive Selected (done : Nat → Bool) (compatible : T → Bool) (vs : List (Version T)) : Except UpdateError Nat → Prop
  /-- Compatible idle storage. -/
  | compatible {i : Nat} {v : Version T} (hv : vs[i]? = some v) (hidle : v.Idle done)
      (hc : compatible v.resource = true) : Selected done compatible vs (.ok i)
  /-- Idle storage, when no idle version is compatible. -/
  | idle {i : Nat} {v : Version T} (hv : vs[i]? = some v) (hidle : v.Idle done)
      (hnone : ∀ u ∈ vs, u.Idle done → compatible u.resource = false) : Selected done compatible vs (.ok i)
  /-- A new version, when none is idle. -/
  | room (hlt : vs.length < maxVersions) (hnone : ∀ u ∈ vs, ¬ u.Idle done) : Selected done compatible vs (.ok vs.length)
  | busy (hge : maxVersions ≤ vs.length) (hnone : ∀ u ∈ vs, ¬ u.Idle done) : Selected done compatible vs (.error .busy)

theorem updateTarget_spec (done : Nat → Bool) (compatible : T → Bool) (c : TextureVersions T) :
    ∃ vs, (updateTarget done compatible c).2 = { c with versions := vs } ∧ AllPruned done c.versions vs ∧
      Selected done compatible vs (updateTarget done compatible c).1 := by
  have hw : ∀ v : Version T, v.Pruned done (v.writable done).2 := writable_pruned
  have hwa : ∀ v : Version T, v.Pruned done (writableAnd done compatible v).2 := writableAnd_pruned compatible
  unfold updateTarget
  cases e1 : isSomeAnd (writableAnd done compatible) c.current c.versions with
  | mk hit1 vs1 =>
  have h1 : AllPruned done c.versions vs1 := by simpa only [e1] using isSomeAnd_pruned hwa c.current c.versions
  cases hit1 with
  | true =>
    obtain ⟨v, -, hp, hr⟩ := isSomeAnd_hit (congrArg Prod.fst e1)
    rw [e1] at hr
    obtain ⟨hi, hc⟩ := (writableAnd_iff compatible v).1 hp
    exact ⟨vs1, rfl, h1, .compatible hr ((hwa v).idle_iff.2 hi) ((hwa v).resource ▸ hc)⟩
  | false =>
  cases e2 : position (writableAnd done compatible) vs1 with
  | mk hit2 vs2 =>
  have h2 : AllPruned done vs1 vs2 := by simpa only [e2] using position_pruned hwa vs1
  cases hit2 with
  | some i =>
    obtain ⟨v, -, hp, hr⟩ := position_hit (congrArg Prod.fst e2)
    rw [e2] at hr
    obtain ⟨hi, hc⟩ := (writableAnd_iff compatible v).1 hp
    have hsel : Selected done compatible vs2 (.ok i) :=
      .compatible hr ((hwa v).idle_iff.2 hi) ((hwa v).resource ▸ hc)
    exact ⟨vs2, by simp [e2], h1.trans h2, by simpa [e2] using hsel⟩
  | none =>
  -- From here on no idle version is compatible, whatever else is pruned.
  have hno : ∀ vs', AllPruned done vs1 vs' → ∀ u ∈ vs', u.Idle done → compatible u.resource = false := by
    intro vs' hp u hu hi
    obtain ⟨u1, hu1, hpu⟩ := hp.mem_back hu
    have hmiss := position_miss (congrArg Prod.fst e2) u1 hu1
    rw [hpu.resource]
    cases hc : compatible u1.resource with
    | false => rfl
    | true =>
      exact absurd (hmiss.symm.trans ((writableAnd_iff compatible u1).2 ⟨hpu.idle_iff.1 hi, hc⟩)) Bool.false_ne_true
  cases e3 : isSomeAnd (Version.writable done) c.current vs2 with
  | mk hit3 vs3 =>
  have h3 : AllPruned done vs2 vs3 := by simpa only [e3] using isSomeAnd_pruned hw c.current vs2
  cases hit3 with
  | true =>
    obtain ⟨v, -, hp, hr⟩ := isSomeAnd_hit (congrArg Prod.fst e3)
    rw [e3] at hr
    have hsel : Selected done compatible vs3 (.ok c.current) :=
      .idle hr ((hw v).idle_iff.2 ((writable_iff v).1 hp)) (hno vs3 (h2.trans h3))
    exact ⟨vs3, by simp [e2, e3], h1.trans (h2.trans h3), by simpa [e2, e3] using hsel⟩
  | false =>
  cases e4 : position (Version.writable done) vs3 with
  | mk hit4 vs4 =>
  have h4 : AllPruned done vs3 vs4 := by simpa only [e4] using position_pruned hw vs3
  have hall : AllPruned done c.versions vs4 := h1.trans (h2.trans (h3.trans h4))
  cases hit4 with
  | some i =>
    obtain ⟨v, -, hp, hr⟩ := position_hit (congrArg Prod.fst e4)
    rw [e4] at hr
    have hsel : Selected done compatible vs4 (.ok i) :=
      .idle hr ((hw v).idle_iff.2 ((writable_iff v).1 hp)) (hno vs4 (h2.trans (h3.trans h4)))
    exact ⟨vs4, by simp [e2, e3, e4], hall, by simpa [e2, e3, e4] using hsel⟩
  | none =>
  have hnone : ∀ u ∈ vs4, ¬ u.Idle done := by
    intro u hu hi
    obtain ⟨u3, hu3, hpu⟩ := h4.mem_back hu
    exact Bool.false_ne_true
      ((position_miss (congrArg Prod.fst e4) u3 hu3).symm.trans ((writable_iff u3).2 (hpu.idle_iff.1 hi)))
  by_cases hl : vs4.length < maxVersions
  · have hsel : Selected done compatible vs4 (.ok vs4.length) := .room hl hnone
    exact ⟨vs4, by simp [e2, e3, e4, hl], hall, by simpa [e2, e3, e4, hl] using hsel⟩
  · have hsel : Selected done compatible vs4 (.error .busy) := .busy (Nat.le_of_not_lt hl) hnone
    exact ⟨vs4, by simp [e2, e3, e4, hl], hall, by simpa [e2, e3, e4, hl] using hsel⟩

/-! ## Updates -/

/-- What an update leaves, `vs` being the versions after the scan. -/
inductive Updated (done : Nat → Bool) (compatible : T → Bool) (upload : Option T → Bool → Option T)
    (c : TextureVersions T) (vs : List (Version T)) : Except UpdateError Unit × TextureVersions T → Prop
  | failed (e : UpdateError) : Updated done compatible upload c vs (.error e, { c with versions := vs })
  /-- An idle version gets the resource the callback returned for it. -/
  | rewritten {target : Nat} {v : Version T} {resource : T}
      (ht : updateTarget done compatible c = (.ok target, { c with versions := vs })) (hv : vs[target]? = some v)
      (hidle : v.Idle done) (hup : upload (some v.resource) (target == c.current) = some resource) :
      Updated done compatible upload c vs
        (.ok (), { c with versions := vs.set target { v with resource }, current := target })
  /-- A version is added. -/
  | added {resource : T} (ht : updateTarget done compatible c = (.ok vs.length, { c with versions := vs }))
      (hlt : vs.length < maxVersions) (hup : upload none false = some resource) :
      Updated done compatible upload c vs
        (.ok (), { versions := vs ++ [⟨c.nextSlot, resource, []⟩], current := vs.length, nextSlot := c.nextSlot + 1 })

theorem updateMatching_spec (done : Nat → Bool) (compatible : T → Bool) (upload : Option T → Bool → Option T)
    (c : TextureVersions T) :
    ∃ vs, AllPruned done c.versions vs ∧
      Updated done compatible upload c vs (updateMatching done compatible upload c) := by
  obtain ⟨vs, hc, hp, hsel⟩ := updateTarget_spec done compatible c
  refine ⟨vs, hp, ?_⟩
  unfold updateMatching
  cases ht : updateTarget done compatible c with
  | mk result c' =>
  rw [ht] at hc hsel
  dsimp only at hc hsel
  subst hc
  -- The idle version at an index is handed to the callback.
  have hwrite : ∀ i v, vs[i]? = some v → v.Idle done → result = .ok i →
      Updated done compatible upload c vs (updateMatching done compatible upload c) := by
    rintro i v hv hidle rfl
    unfold updateMatching
    cases hup : upload (some v.resource) (i == c.current) with
    | none => simpa [ht, hv, hup] using Updated.failed .rejected
    | some resource => simpa [ht, hv, hup] using Updated.rewritten ht hv hidle hup
  cases hsel with
  | compatible hv hidle _ => simpa [updateMatching, ht] using hwrite _ _ hv hidle rfl
  | idle hv hidle _ => simpa [updateMatching, ht] using hwrite _ _ hv hidle rfl
  | room hlt _ =>
    cases hup : upload none false with
    | none => simpa [hup] using Updated.failed .rejected
    | some resource => simpa [hup] using Updated.added ht hlt hup
  | busy _ _ => exact .failed .busy

theorem writableMatching_pruned (done : Nat → Bool) (compatible : T → Bool) (c : TextureVersions T) :
    ∃ vs, AllPruned done c.versions vs ∧ (writableMatching done compatible c).2 = { c with versions := vs } := by
  obtain ⟨vs, hc, hp, -⟩ := updateTarget_spec done compatible c
  refine ⟨vs, hp, ?_⟩
  unfold writableMatching
  cases ht : updateTarget done compatible c with
  | mk result c' =>
  rw [ht] at hc
  cases result <;> exact hc

theorem prepareMatching_pruned (done : Nat → Bool) (compatible : T → Bool) (allocate : Option T → Except ε T)
    (c : TextureVersions T) :
    ∃ vs, AllPruned done c.versions vs ∧
      (prepareMatching done compatible allocate c).2 = { c with versions := vs } := by
  obtain ⟨vs, hp, hc⟩ := writableMatching_pruned done compatible c
  refine ⟨vs, hp, ?_⟩
  unfold prepareMatching
  cases ht : writableMatching done compatible c with
  | mk result c' =>
  rw [ht] at hc
  cases result with
  | error e => exact hc
  | ok idle =>
    dsimp only
    by_cases hi : idle.any compatible = true
    · rw [if_pos hi]
      exact hc
    · rw [if_neg hi]
      cases allocate idle <;> exact hc

theorem currentBusy_pruned (done : Nat → Bool) (c : TextureVersions T) :
    ∃ vs, AllPruned done c.versions vs ∧ (currentBusy done c).2 = { c with versions := vs } := by
  unfold currentBusy
  cases hv : c.versions[c.current]? with
  | none => exact ⟨c.versions, .refl _, rfl⟩
  | some v => exact ⟨_, allPruned_set hv (writable_pruned v), rfl⟩

/-! ## Marking a read -/

/-- `v'` is `v`, pruned, with `frame` among its readers. -/
theorem markRead_spec {frame : Nat} {c' : TextureVersions T} (h : markRead done frame c = some c') :
    ∃ v v', c.versions[c.current]? = some v ∧ c' = { c with versions := c.versions.set c.current v' } ∧
      v'.slot = v.slot ∧ v'.resource = v.resource ∧ frame ∈ v'.readers ∧
      ∀ f, done f = false → f ≠ frame → (f ∈ v'.readers ↔ f ∈ v.readers) := by
  unfold markRead at h
  cases hv : c.versions[c.current]? with
  | none => simp [hv] at h
  | some v =>
    simp only [hv, Option.some.injEq] at h
    refine ⟨v, _, rfl, h.symm, ?_, ?_, ?_, ?_⟩
    · split <;> rfl
    · split <;> rfl
    · split
      · assumption
      · exact List.mem_append_right _ (List.mem_singleton_self frame)
    · intro f hf hne
      rw [← (writable_pruned v).readers f hf]
      split
      · rfl
      · simp [hne]

/-! ## Trimming -/

section Retain

variable (done : Nat → Bool) (compatible : T → Bool) (selfCurrent : Nat)

/-- What is kept is kept in order; `f` reads what pruning leaves alone. -/
theorem retainLoop_map {β : Type*} {f : Version T → β} (hf : ∀ v, f (v.writable done).2 = f v) (index current : Nat)
    (spare : Bool) (vs : List (Version T)) :
    ((retainLoop done compatible selfCurrent index current spare vs).1.map f).Sublist (vs.map f) := by
  induction vs generalizing index current spare with
  | nil => exact .slnil
  | cons v vs ih =>
    unfold retainLoop
    split
    · exact (ih _ _ _).cons_cons _
    · simp only
      rw [List.map_cons, ← hf v]
      split
      · exact (ih _ _ _).cons_cons _
      · split
        · exact (ih _ _ _).cons_cons _
        · exact (ih _ _ _).cons _

/-- What is kept is kept as it was, but for readers that are done. -/
theorem retainLoop_mem (index current : Nat) (spare : Bool) (vs : List (Version T)) :
    ∀ v' ∈ (retainLoop done compatible selfCurrent index current spare vs).1, ∃ v ∈ vs, v.Pruned done v' := by
  induction vs generalizing index current spare with
  | nil => simp [retainLoop]
  | cons v vs ih =>
    have htail : ∀ {u current spare}, u ∈ (retainLoop done compatible selfCurrent (index + 1) current spare vs).1 →
        ∃ w ∈ v :: vs, w.Pruned done u := fun hu => by
      obtain ⟨w, hw, hp⟩ := ih _ _ _ _ hu
      exact ⟨w, List.mem_cons_of_mem v hw, hp⟩
    have hhead : ∃ w ∈ v :: vs, w.Pruned done (v.writable done).2 := ⟨v, List.mem_cons_self, writable_pruned v⟩
    unfold retainLoop
    split
    · intro u hu
      rcases List.mem_cons.1 hu with rfl | hu
      · exact ⟨u, List.mem_cons_self, .refl u⟩
      · exact htail hu
    · simp only
      split
      · intro u hu
        rcases List.mem_cons.1 hu with rfl | hu
        · exact hhead
        · exact htail hu
      · split
        · intro u hu
          rcases List.mem_cons.1 hu with rfl | hu
          · exact hhead
          · exact htail hu
        · exact fun u hu => htail hu

theorem retainLoop_busy (index current : Nat) (spare : Bool) (vs : List (Version T)) {v : Version T} (hv : v ∈ vs)
    (hb : ¬ v.Idle done) :
    ∃ v' ∈ (retainLoop done compatible selfCurrent index current spare vs).1, v.Pruned done v' := by
  induction vs generalizing index current spare with
  | nil => cases hv
  | cons u vs ih =>
    unfold retainLoop
    rcases List.mem_cons.1 hv with rfl | hv
    · split
      · exact ⟨v, List.mem_cons_self, .refl v⟩
      · have hw : (v.writable done).1 = false := Bool.eq_false_iff.2 fun hw => hb ((writable_iff v).1 hw)
        simp only [hw]
        exact ⟨_, List.mem_cons_self, writable_pruned v⟩
    · split
      · obtain ⟨v', hv', hp⟩ := ih (index + 1) current spare hv
        exact ⟨v', List.mem_cons_of_mem _ hv', hp⟩
      · simp only
        split
        · obtain ⟨v', hv', hp⟩ := ih (index + 1) current spare hv
          exact ⟨v', List.mem_cons_of_mem _ hv', hp⟩
        · split
          · obtain ⟨v', hv', hp⟩ := ih (index + 1) current true hv
            exact ⟨v', List.mem_cons_of_mem _ hv', hp⟩
          · exact ih _ _ _ hv

/-- After the current position the index no longer moves. -/
theorem retainLoop_after (index current : Nat) (spare : Bool) (vs : List (Version T)) (h : selfCurrent < index) :
    (retainLoop done compatible selfCurrent index current spare vs).2 = current := by
  induction vs generalizing index spare with
  | nil => rfl
  | cons v vs ih =>
    have hne : (index == selfCurrent) = false := by simp; omega
    unfold retainLoop
    rw [hne]
    simp only [Bool.false_eq_true, if_false]
    split
    · exact ih _ _ (by omega)
    · split
      · exact ih _ _ (by omega)
      · rw [if_neg (by omega)]
        exact ih _ _ (by omega)

/-- Before it, the index moves back by one for each removal, and so does the version it points to: `d` removals. -/
theorem retainLoop_current (index current : Nat) (spare : Bool) (vs : List (Version T)) {v : Version T}
    (hle : index ≤ selfCurrent) (hv : vs[selfCurrent - index]? = some v) :
    ∃ d, d ≤ selfCurrent - index ∧ (retainLoop done compatible selfCurrent index current spare vs).2 = current - d ∧
      (retainLoop done compatible selfCurrent index current spare vs).1[selfCurrent - index - d]? = some v := by
  induction vs generalizing index current spare with
  | nil => simp at hv
  | cons u vs ih =>
    unfold retainLoop
    by_cases he : index = selfCurrent
    · subst he
      simp only [Nat.sub_self, List.getElem?_cons_zero, Option.some.injEq] at hv
      subst hv
      refine ⟨0, Nat.zero_le _, ?_, ?_⟩ <;> simp [retainLoop_after]
    · have hlt : index < selfCurrent := by omega
      have hpos : selfCurrent - index = selfCurrent - (index + 1) + 1 := by omega
      have hne : (index == selfCurrent) = false := by simpa using he
      rw [hpos, List.getElem?_cons_succ] at hv
      -- A kept version shifts the position in the result by one, a removed one shifts the index.
      have hkeep : ∀ current spare (w : Version T), ∃ d, d ≤ selfCurrent - index ∧
          (retainLoop done compatible selfCurrent (index + 1) current spare vs).2 = current - d ∧
          (w :: (retainLoop done compatible selfCurrent (index + 1) current spare vs).1)[selfCurrent - index - d]? =
            some v := by
        intro current spare w
        obtain ⟨d, hd, hi, hr⟩ := ih (index + 1) current spare (by omega) hv
        refine ⟨d, by omega, hi, ?_⟩
        rw [show selfCurrent - index - d = selfCurrent - (index + 1) - d + 1 by omega, List.getElem?_cons_succ]
        exact hr
      rw [hne]
      simp only [Bool.false_eq_true, if_false]
      split
      · exact hkeep current spare _
      · split
        · exact hkeep current true _
        · obtain ⟨d, hd, hi, hr⟩ := ih (index + 1) (current - 1) spare (by omega) hv
          refine ⟨d + 1, by omega, by rw [hi]; omega, ?_⟩
          rw [show selfCurrent - index - (d + 1) = selfCurrent - (index + 1) - d by omega]
          exact hr

/-- An idle alternate that is kept is compatible, and none is kept once there is a spare. -/
theorem retainLoop_alternate (index current : Nat) (spare : Bool) (vs : List (Version T)) {slot : Nat}
    (hs : ∀ v, index ≤ selfCurrent → vs[selfCurrent - index]? = some v → v.slot = slot) {v : Version T}
    (hv : v ∈ (retainLoop done compatible selfCurrent index current spare vs).1) (hne : v.slot ≠ slot)
    (hi : v.Idle done) : spare = false ∧ compatible v.resource = true := by
  induction vs generalizing index current spare with
  | nil => cases hv
  | cons u vs ih =>
    have hs' : ∀ v, index + 1 ≤ selfCurrent → vs[selfCurrent - (index + 1)]? = some v → v.slot = slot := by
      intro w hw hwv
      refine hs w (by omega) ?_
      rw [show selfCurrent - index = selfCurrent - (index + 1) + 1 by omega, List.getElem?_cons_succ]
      exact hwv
    unfold retainLoop at hv
    split at hv
    · rename_i he
      rcases List.mem_cons.1 hv with rfl | hv
      · exact absurd (hs v (by simp_all) (by simp_all)) hne
      · exact ih _ _ _ hs' hv
    · simp only at hv
      split at hv
      · rename_i hw
        rcases List.mem_cons.1 hv with rfl | hv
        · rw [Bool.not_eq_true', Bool.eq_false_iff] at hw
          exact absurd ((writable_iff u).2 ((writable_pruned u).idle_iff.1 hi)) hw
        · exact ih _ _ _ hs' hv
      · split at hv
        · rename_i hc
          simp only [Bool.and_eq_true, Bool.not_eq_true'] at hc
          rcases List.mem_cons.1 hv with rfl | hv
          · exact ⟨hc.1, hc.2⟩
          · exact absurd (ih _ _ _ hs' hv).1 (by simp)
        · exact ih _ _ _ hs' hv

theorem retainLoop_unique (index current : Nat) (spare : Bool) (vs : List (Version T)) {slot : Nat}
    (hs : ∀ v, index ≤ selfCurrent → vs[selfCurrent - index]? = some v → v.slot = slot) {v w : Version T}
    (hv : v ∈ (retainLoop done compatible selfCurrent index current spare vs).1) (hvs : v.slot ≠ slot)
      (hvi : v.Idle done)
    (hw : w ∈ (retainLoop done compatible selfCurrent index current spare vs).1) (hws : w.slot ≠ slot)
    (hwi : w.Idle done) : v = w := by
  induction vs generalizing index current spare with
  | nil => cases hv
  | cons u vs ih =>
    have hs' : ∀ v, index + 1 ≤ selfCurrent → vs[selfCurrent - (index + 1)]? = some v → v.slot = slot := by
      intro x hx hxv
      refine hs x (by omega) ?_
      rw [show selfCurrent - index = selfCurrent - (index + 1) + 1 by omega, List.getElem?_cons_succ]
      exact hxv
    unfold retainLoop at hv hw
    split at hv
    · rename_i he
      rw [if_pos he] at hw
      have hu : u.slot = slot := hs u (by simp_all) (by simp_all)
      rcases List.mem_cons.1 hv with rfl | hv
      · exact absurd hu hvs
      · rcases List.mem_cons.1 hw with rfl | hw
        · exact absurd hu hws
        · exact ih _ _ _ hs' hv hw
    · rename_i he
      rw [if_neg he] at hw
      simp only at hv hw
      split at hv
      · rename_i hb
        rw [if_pos hb] at hw
        rw [Bool.not_eq_true', Bool.eq_false_iff] at hb
        have hnot : ∀ x : Version T, x = (u.writable done).2 → x.Idle done → False := fun x hx hi =>
          hb ((writable_iff u).2 ((writable_pruned u).idle_iff.1 (hx ▸ hi)))
        rcases List.mem_cons.1 hv with hv | hv
        · exact absurd hvi (hnot v hv)
        · rcases List.mem_cons.1 hw with hw | hw
          · exact absurd hwi (hnot w hw)
          · exact ih _ _ _ hs' hv hw
      · rename_i hb
        rw [if_neg hb] at hw
        split at hv
        · rename_i hc
          rw [if_pos hc] at hw
          -- The head is the spare; after it no idle alternate is kept.
          have hnone : ∀ x, x ∈ (retainLoop done compatible selfCurrent (index + 1) current true vs).1 →
              x.slot ≠ slot → ¬ x.Idle done := fun x hx hxs hxi =>
            absurd (retainLoop_alternate done compatible selfCurrent _ _ _ vs hs' hx hxs hxi).1 (by simp)
          rcases List.mem_cons.1 hv with hv | hv
          · rcases List.mem_cons.1 hw with hw | hw
            · exact hv.trans hw.symm
            · exact absurd hwi (hnone w hw hws)
          · exact absurd hvi (hnone v hv hvs)
        · rename_i hc
          rw [if_neg hc] at hw
          exact ih _ _ _ hs' hv hw

end Retain

end CocoaWay.TextureLifetime
