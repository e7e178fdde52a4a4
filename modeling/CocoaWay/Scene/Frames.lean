import CocoaWay.Lib.Custody
import CocoaWay.Scene.Removal

/-!
# Frame callbacks

* `World.Removes`, `World.Gone` : what an event removes, and the callbacks that go with it;
* `step_cases` : what an event does with the callbacks;
* `World.Frames` : each callback has one place, and the callbacks of one root stay in the order of their commits;
* `frame_callbacks` : this and what a callback is completed by and dropped for, in every run.
-/

namespace CocoaWay.Scene
open Lib Lib.Ancestry

section Retains

variable {α : Type} {gone gone' : α → Prop} {before after : List α}

theorem Retains.refl (before : List α) : Retains gone before before :=
  ⟨fun _ => true, (List.filter_eq_self.2 fun _ _ => rfl).symm, fun _ _ => rfl⟩

theorem Retains.mono (h : Retains gone before after) (hgone : ∀ a, gone a → gone' a) : Retains gone' before after := by
  obtain ⟨keep, hafter, hkeep⟩ := h
  exact ⟨keep, hafter, fun a ha => hkeep a fun hg => ha (hgone a hg)⟩

theorem Retains.sublist (h : Retains gone before after) : after.Sublist before := by
  obtain ⟨keep, rfl, -⟩ := h
  exact List.filter_sublist

theorem Retains.gone_of_not_mem (h : Retains gone before after) {a : α} (ha : a ∈ before) (hnot : a ∉ after) :
    gone a := by
  obtain ⟨keep, rfl, hkeep⟩ := h
  by_contra hg
  exact hnot (List.mem_filter.2 ⟨ha, hkeep a hg⟩)

end Retains

namespace World

variable {w w' : World} {e : Event} {sm : Surfaces} {app : AppState}

/-! ## What an event does -/

/-- The event removes the role of the surface, or the surface itself. -/
def Removes (w : World) : Event → Surface → Prop
  | .toplevelDestroyed toplevel, surface => toplevel ∈ w.app.toplevels ∧ toplevel.wlSurface = surface
  | .popupDestroyed popup, surface => popup ∈ w.app.popups ∧ popup.wlSurface = surface
  | .surfaceDestroyed destroyed, surface => destroyed = surface
  | .newToplevel replaced, surface => replaced = surface ∧ w.app.isToplevel surface = true
  | .newPopup replaced _ _, surface => replaced = surface ∧ ∃ popup ∈ w.app.popups, popup.wlSurface = surface
  | _, _ => False

/-- The surface of the callback, one above it, or its root is removed. -/
def Gone (w : World) (e : Event) (pending : PendingFrameCallback) : Prop :=
  ∃ surface, w.Removes e surface ∧
    (w.app.Below w.surfaces surface pending.sourceSurface ∨ pending.rootSurface = some surface)

/-- An event that completes some callbacks, and commits none. -/
structure Settles (w : World) (done : List Callback) (w' : World) : Prop where
  callbacks : w'.surfaces.frameCallbacks = w.surfaces.frameCallbacks
  role : ∀ x r, w.surfaces.role x = some r → w'.surfaces.role x = some r
  commits : w'.commits = w.commits
  recorded : w'.recorded = w.recorded
  completed : w'.completed = w.completed ++ done
  dropped : w'.dropped =
    w.dropped ++ w.app.waiting.filter fun callback => callback ∉ w'.app.waiting ∧ callback ∉ done

/-- An event that completes no callback and moves none. -/
structure Keeps (w : World) (e : Event) (w' : World) : Prop where
  settles : w.Settles [] w'
  cursor : w'.app.cursorFrameCallbacks = w.app.cursorFrameCallbacks
  pending : Retains (w.Gone e) w.app.pendingFrameCallbacks w'.app.pendingFrameCallbacks

theorem retains_toplevelDestroyed (h : w.Sound) (t : ToplevelSurface) (hknown : t ∈ w.surfaces.knownToplevels) :
    Retains (w.Gone (.toplevelDestroyed t)) w.app.pendingFrameCallbacks
      (w.app.toplevelDestroyed w.surfaces t).pendingFrameCallbacks := by
  unfold AppState.toplevelDestroyed
  split
  · next hlisted =>
    refine (AppState.retains_callbacks h.surfaces).mono fun p hp => ⟨t.wlSurface, ⟨?_, rfl⟩, hp⟩
    exact h.app.toplevel_of_known h.surfaces hknown hlisted
  · exact Retains.refl _

theorem retains_popupDestroyed (h : w.Sound) (p : PopupSurface) (hknown : p ∈ w.surfaces.knownPopups) :
    Retains (w.Gone (.popupDestroyed p)) w.app.pendingFrameCallbacks
      (w.app.popupDestroyed w.surfaces p).pendingFrameCallbacks := by
  unfold AppState.popupDestroyed
  split
  · next hlisted =>
    refine (AppState.retains_callbacks h.surfaces).mono fun q hq => ⟨p.wlSurface, ⟨?_, rfl⟩, hq⟩
    exact h.app.popup_of_known h.surfaces hknown hlisted
  · exact Retains.refl _

theorem retains_destroyed (h : w.Sound) (surface : Surface) :
    Retains (w.Gone (.surfaceDestroyed surface)) w.app.pendingFrameCallbacks
      (w.app.destroyed w.surfaces surface).pendingFrameCallbacks := by
  unfold AppState.destroyed
  split
  · refine ⟨_, rfl, ?_⟩
    intro p hgone
    have hne : p.sourceSurface ≠ surface := by
      rintro rfl
      exact hgone ⟨_, rfl, .inl (Leads.refl _)⟩
    simpa using hne
  · exact (AppState.retains_callbacks h.surfaces).mono fun p hp => ⟨surface, rfl, hp⟩

variable {surface : Surface} {callbacks : Nat}

theorem retains_newToplevel (h : w.Sound) (hrole : w.surfaces.takesRole surface .toplevel = true) :
    Retains (w.Gone (.newToplevel surface)) w.app.pendingFrameCallbacks
      (w.app.newToplevel (w.surfaces.newToplevel surface) ⟨surface, w.surfaces.roleObjects⟩).pendingFrameCallbacks := by
  unfold AppState.newToplevel
  split
  · exact Retains.refl _
  · change Retains _ _ (w.app.withoutToplevel (w.surfaces.newToplevel surface) surface).pendingFrameCallbacks
    unfold AppState.withoutToplevel
    split
    · next previous hfind =>
      have hsurface : previous.wlSurface = surface := by simpa using List.find?_some hfind
      unfold AppState.toplevelDestroyed
      split
      · refine (AppState.retains_callbacks (h.surfaces.newToplevel hrole)).mono ?_
        rintro p hp
        rw [hsurface] at hp
        exact ⟨surface, ⟨rfl, AppState.isToplevel_iff.2 ⟨previous, List.mem_of_find?_eq_some hfind, hsurface⟩⟩, hp⟩
      · exact Retains.refl _
    · exact Retains.refl _

/-- What is below a surface does not depend on its popup attributes. -/
theorem below_newPopup {surface x : Surface} {parent : Option Surface}
    (h : w.app.Below (w.surfaces.newPopup surface parent) surface x) : w.app.Below w.surfaces surface x := by
  refine Leads.of_agree h ?_
  intro a ha
  unfold AppState.sceneParent
  congr 1
  cases hfind : w.app.popups.find? fun popup => popup.wlSurface = a with
  | none => rfl
  | some popup =>
    have hpopup : popup.wlSurface = a := by simpa using List.find?_some hfind
    simp [Surfaces.newPopup, hpopup, Function.update_of_ne ha]

theorem retains_newPopup (h : w.Sound) {parent : Option Surface} (configured : Bool)
    (hrole : w.surfaces.takesRole surface .popup = true) :
    Retains (w.Gone (.newPopup surface parent configured)) w.app.pendingFrameCallbacks
      (w.app.newPopup (w.surfaces.newPopup surface parent) ⟨surface, w.surfaces.roleObjects⟩
        configured).pendingFrameCallbacks := by
  have hwithout : Retains (w.Gone (.newPopup surface parent configured)) w.app.pendingFrameCallbacks
      (w.app.withoutPopup (w.surfaces.newPopup surface parent) surface).pendingFrameCallbacks := by
    unfold AppState.withoutPopup
    split
    · next previous hfind =>
      have hsurface : previous.wlSurface = surface := by simpa using List.find?_some hfind
      unfold AppState.popupDestroyed
      split
      · refine (AppState.retains_callbacks (h.surfaces.newPopup hrole parent)).mono ?_
        rintro p hp
        rw [hsurface] at hp
        exact ⟨surface, ⟨rfl, previous, List.mem_of_find?_eq_some hfind, hsurface⟩, hp.imp_left below_newPopup⟩
      · exact Retains.refl _
    · exact Retains.refl _
  unfold AppState.newPopup
  split
  · exact Retains.refl _
  · dsimp only
    split
    · exact hwithout
    · exact hwithout

/-- Of the tables, a new role changes no queue of the cursor. -/
theorem cursorFrameCallbacks_newToplevel (st : AppState) (sm : Surfaces) (t : ToplevelSurface) :
    (st.newToplevel sm t).cursorFrameCallbacks = st.cursorFrameCallbacks := by
  unfold AppState.newToplevel
  split
  · rfl
  · change (st.withoutToplevel sm t.wlSurface).cursorFrameCallbacks = _
    unfold AppState.withoutToplevel AppState.toplevelDestroyed
    split
    · split <;> rfl
    · rfl

theorem cursorFrameCallbacks_newPopup (st : AppState) (sm : Surfaces) (p : PopupSurface) (configured : Bool) :
    (st.newPopup sm p configured).cursorFrameCallbacks = st.cursorFrameCallbacks := by
  have hwithout : (st.withoutPopup sm p.wlSurface).cursorFrameCallbacks = st.cursorFrameCallbacks := by
    unfold AppState.withoutPopup AppState.popupDestroyed
    split
    · split <;> rfl
    · rfl
  unfold AppState.newPopup
  split
  · rfl
  · dsimp only
    split
    · exact hwithout
    · exact hwithout

theorem step_cases (h : w.Sound) (hstep : w.step e = some w') :
    w.Keeps e w' ∨
    (∃ surface callbacks visited buffers, e = .commit surface callbacks visited buffers) ∨
    (∃ surface, e = .cursorImage surface ∧ w.surfaces.takesRole surface .cursorImage = true ∧
      w' = w.next (w.surfaces.setRole surface .cursorImage) (w.app.cursorImage surface) []) ∨
    (∃ root, e = .acknowledge root ∧ w' = w.acknowledge root) ∨
    e = .cursorClock ∧ w' = w.cursorClock := by
  have hsame : ∀ x r, w.surfaces.role x = some r → w.surfaces.role x = some r := fun _ _ hr => hr
  cases e with
  | newSurface =>
    obtain rfl := Option.some.inj hstep
    exact .inl ⟨⟨rfl, hsame, rfl, rfl, rfl, rfl⟩, rfl, Retains.refl _⟩
  | setParent child parent =>
    obtain ⟨sm, hset, rfl⟩ := Option.map_eq_some_iff.1 hstep
    obtain ⟨hrole, -, -, rfl⟩ := Surfaces.setParent_eq_some hset
    exact .inl ⟨⟨rfl, fun _ _ hr => Surfaces.setRole_role hrole hr, rfl, rfl, rfl, rfl⟩, rfl, Retains.refl _⟩
  | unsetParent child =>
    obtain rfl := Option.some.inj hstep
    exact .inl ⟨⟨rfl, hsame, rfl, rfl, rfl, rfl⟩, rfl, Retains.refl _⟩
  | newToplevel surface =>
    obtain ⟨hrole, rfl⟩ := newToplevel_some hstep
    have hcursor := cursorFrameCallbacks_newToplevel w.app (w.surfaces.newToplevel surface)
      ⟨surface, w.surfaces.roleObjects⟩
    exact .inl ⟨⟨rfl, fun _ _ hr => Surfaces.setRole_role hrole hr, rfl, rfl, rfl, rfl⟩, hcursor,
      retains_newToplevel h hrole⟩
  | newPopup surface parent configured =>
    obtain ⟨hrole, rfl⟩ := newPopup_some hstep
    have hcursor := cursorFrameCallbacks_newPopup w.app (w.surfaces.newPopup surface parent)
      ⟨surface, w.surfaces.roleObjects⟩ configured
    exact .inl ⟨⟨rfl, fun _ _ hr => Surfaces.setRole_role hrole hr, rfl, rfl, rfl, rfl⟩, hcursor,
      retains_newPopup h configured hrole⟩
  | toplevelDestroyed t =>
    obtain ⟨hknown, rfl⟩ := toplevelDestroyed_some hstep
    refine .inl ⟨⟨rfl, hsame, rfl, rfl, rfl, rfl⟩, ?_, retains_toplevelDestroyed h t hknown⟩
    change (w.app.toplevelDestroyed w.surfaces t).cursorFrameCallbacks = _
    unfold AppState.toplevelDestroyed
    split <;> rfl
  | popupDestroyed p =>
    obtain ⟨hknown, rfl⟩ := popupDestroyed_some hstep
    refine .inl ⟨⟨rfl, hsame, rfl, rfl, rfl, rfl⟩, ?_, retains_popupDestroyed h p hknown⟩
    change (w.app.popupDestroyed w.surfaces p).cursorFrameCallbacks = _
    unfold AppState.popupDestroyed
    split <;> rfl
  | surfaceDestroyed surface =>
    obtain ⟨-, rfl⟩ := surfaceDestroyed_some hstep
    refine .inl ⟨⟨rfl, hsame, rfl, rfl, rfl, rfl⟩, ?_, retains_destroyed h surface⟩
    change (w.app.destroyed w.surfaces surface).cursorFrameCallbacks = _
    unfold AppState.destroyed
    split <;> rfl
  | commit surface callbacks visited buffers => exact .inr (.inl ⟨surface, callbacks, visited, buffers, rfl⟩)
  | cursorImage surface => exact .inr (.inr (.inl ⟨surface, rfl, cursorImage_some hstep⟩))
  | acknowledge root => exact .inr (.inr (.inr (.inl ⟨root, rfl, (Option.some.inj hstep).symm⟩)))
  | cursorClock => exact .inr (.inr (.inr (.inr ⟨rfl, (Option.some.inj hstep).symm⟩)))
  | deliver opened =>
    change w.deliver opened = some w' at hstep
    unfold World.deliver at hstep
    split at hstep
    · cases hstep
    · obtain rfl := Option.some.inj hstep
      left
      split
      · split
        · exact ⟨⟨rfl, hsame, rfl, rfl, rfl, rfl⟩, rfl, Retains.refl _⟩
        · exact ⟨⟨rfl, hsame, rfl, rfl, rfl, rfl⟩, rfl, Retains.refl _⟩
      · exact ⟨⟨rfl, hsame, rfl, rfl, rfl, rfl⟩, rfl, Retains.refl _⟩
      · exact ⟨⟨rfl, hsame, rfl, rfl, rfl, rfl⟩, rfl, Retains.refl _⟩
      · exact ⟨⟨rfl, hsame, rfl, rfl, rfl, rfl⟩, rfl, Retains.refl _⟩
  | dirtyWindow surface =>
    obtain ⟨-, rfl⟩ := dirtyWindow_some hstep
    exact .inl ⟨⟨rfl, hsame, rfl, rfl, rfl, rfl⟩, rfl, Retains.refl _⟩
  | repositionRequest p =>
    obtain rfl := Option.some.inj hstep
    exact .inl ⟨⟨rfl, hsame, rfl, rfl, rfl, rfl⟩, rfl, Retains.refl _⟩
  | retireTraceFrames submitted =>
    obtain rfl := Option.some.inj hstep
    exact .inl ⟨⟨rfl, hsame, rfl, rfl, rfl, rfl⟩, rfl, Retains.refl _⟩
  | input inputFocus pointerFocus keyboardFocus dragState startDragRequest =>
    obtain rfl := Option.some.inj hstep
    exact .inl ⟨⟨rfl, hsame, rfl, rfl, rfl, rfl⟩, rfl, Retains.refl _⟩
  | moveTile surface x y =>
    obtain rfl := Option.some.inj hstep
    exact .inl ⟨⟨rfl, hsame, rfl, rfl, rfl, rfl⟩, rfl, Retains.refl _⟩
  | cleanWindow surface =>
    obtain rfl := Option.some.inj hstep
    exact .inl ⟨⟨rfl, hsame, rfl, rfl, rfl, rfl⟩, rfl, Retains.refl _⟩

/-! ## Commits -/

/-- The callbacks of a commit, when no other surface has any. -/
theorem newCallbacks_eq {root : Option Surface} {trace : Option Nat} {visited : List Surface}
    (hnodup : visited.Nodup) (hmem : surface ∈ visited) (hother : ∀ x, x ≠ surface → sm.frameCallbacks x = []) :
    AppState.newCallbacks sm surface root trace visited =
      (sm.frameCallbacks surface).map fun callback => ⟨root, surface, callback, trace⟩ := by
  obtain ⟨before, after, rfl⟩ := List.append_of_mem hmem
  have hnone : ∀ xs : List Surface, surface ∉ xs → AppState.newCallbacks sm surface root trace xs = [] := by
    intro xs hxs
    unfold AppState.newCallbacks
    rw [List.flatMap_eq_nil_iff]
    intro x hx
    have hne : x ≠ surface := by
      rintro rfl
      exact hxs hx
    rw [hother x hne, List.map_nil]
  rw [List.nodup_append, List.nodup_cons] at hnodup
  have hbefore : surface ∉ before := fun hb => hnodup.2.2 surface hb surface List.mem_cons_self rfl
  have happend : AppState.newCallbacks sm surface root trace (before ++ surface :: after) =
      AppState.newCallbacks sm surface root trace before ++
        (((sm.frameCallbacks surface).map fun callback => ⟨root, surface, callback, trace⟩) ++
          AppState.newCallbacks sm surface root trace after) := by
    simp [AppState.newCallbacks]
  rw [happend, hnone before hbefore, hnone after hnodup.2.1.1]
  simp

theorem role_of_root (h : w.Sound) {surface root : Surface}
    (hroot : w.app.rootToplevelIdForSurface w.surfaces surface = some root) :
    ∃ role, w.surfaces.role surface = some role := by
  unfold AppState.rootToplevelIdForSurface at hroot
  simp only [Option.bind_eq_bind, Option.bind_eq_some_iff, Option.pure_def, Option.some.injEq] at hroot
  obtain ⟨chain, hchain, top, hlast, toplevel, hfind, rfl⟩ := hroot
  obtain ⟨top', hlast', hleads, -⟩ := last_chainFrom hchain
  obtain rfl : top = top' := Option.some.inj (hlast.symm.trans hlast')
  have htop : toplevel.wlSurface = top := by simpa using List.find?_some hfind
  rcases leads_iff.1 hleads with rfl | ⟨y, hy, -⟩
  · exact ⟨_, htop ▸ (h.app.toplevels toplevel (List.mem_of_find?_eq_some hfind)).2.2⟩
  · rcases AppState.sceneParent_cases hy with hparent | ⟨popup, hmem, rfl⟩
    · exact ⟨_, (h.surfaces.linked _ _ hparent).2.2⟩
    · exact ⟨_, (h.app.popups popup hmem).2.2⟩

/-! ## The invariant -/

/-- What holds of the callbacks. A callback is named by its place in the order of the commits. -/
structure Frames (w : World) : Prop where
  current : ∀ x, w.surfaces.frameCallbacks x = []
  custody : Custody (w.app.waiting ++ (w.completed ++ w.dropped)) (List.range w.commits)
  sorted : (w.app.pendingFrameCallbacks.map (·.callback)).Pairwise (· < ·)
  recorded : ∀ p ∈ w.app.pendingFrameCallbacks, w.recorded p.callback = p.rootSurface
  sourced : ∀ p ∈ w.app.pendingFrameCallbacks, ∀ root, p.rootSurface = some root →
    ∃ role, w.surfaces.role p.sourceSurface = some role ∧ role ≠ .cursorImage
  cursor : ∀ callback ∈ w.app.cursorFrameCallbacks, w.recorded callback = none
  ordered : ∀ root, ((w.completed ++ w.app.pendingFrameCallbacks.map (·.callback)).filter fun callback =>
    w.recorded callback = some root).Pairwise (· < ·)

theorem Frames.settle (h : w.Frames) {done : List Callback} (hs : w.Settles done w')
    (hpending : w'.app.pendingFrameCallbacks.Sublist w.app.pendingFrameCallbacks)
    (hwaiting : (w'.app.waiting ++ done).Subperm w.app.waiting)
    (hcursor : ∀ callback ∈ w'.app.cursorFrameCallbacks, w.recorded callback = none)
    (hordered : ∀ root,
      ((done ++ w'.app.pendingFrameCallbacks.map (·.callback)).filter fun c => w.recorded c = some root).Sublist
        ((w.app.pendingFrameCallbacks.map (·.callback)).filter fun c => w.recorded c = some root)) :
    w'.Frames where
  current := hs.callbacks ▸ h.current
  custody := by
    obtain ⟨l, hperm, hsub⟩ := id hwaiting
    have hnodup := hperm.nodup_iff.1 ((List.nodup_append.1 h.custody.held_nodup).1.sublist hsub)
    have hcustody := h.custody.settle hnodup fun a ha => hwaiting.subset ha
    rw [hs.commits, hs.completed, hs.dropped]
    refine hcustody.move ?_
    rw [List.perm_iff_count]
    intro a
    simp only [List.count_append]
    omega
  sorted := h.sorted.sublist (hpending.map _)
  recorded := hs.recorded ▸ fun p hp => h.recorded p (hpending.subset hp)
  sourced := by
    intro p hp root hroot
    obtain ⟨role, hrole, hne⟩ := h.sourced p (hpending.subset hp) root hroot
    exact ⟨role, hs.role _ _ hrole, hne⟩
  cursor := hs.recorded ▸ hcursor
  ordered := by
    intro root
    rw [hs.recorded, hs.completed, List.append_assoc, List.filter_append]
    have hold := h.ordered root
    rw [List.filter_append] at hold
    exact hold.sublist ((List.Sublist.refl _).append (hordered root))

theorem Frames.keeps (h : w.Frames) (hk : w.Keeps e w') : w'.Frames := by
  have hpending := hk.pending.sublist
  refine h.settle hk.settles hpending ?_ (hk.cursor ▸ h.cursor) fun root => (hpending.map _).filter _
  rw [List.append_nil]
  unfold AppState.waiting
  rw [hk.cursor]
  exact ((hpending.map _).append (List.Sublist.refl _)).subperm

theorem waiting_cursorImage (st : AppState) (surface : Surface) : (st.cursorImage surface).waiting.Perm st.waiting := by
  have hsplit := List.filter_append_perm (fun p : PendingFrameCallback => decide (p.sourceSurface ≠ surface))
    st.pendingFrameCallbacks
  unfold AppState.waiting
  change ((st.pendingFrameCallbacks.filter fun p => p.sourceSurface ≠ surface).map (·.callback) ++
    (st.cursorFrameCallbacks ++ (st.pendingFrameCallbacks.filter fun p => p.sourceSurface = surface).map
      (·.callback))).Perm _
  refine (List.Perm.append_left _ List.perm_append_comm).trans ?_
  rw [← List.append_assoc, ← List.map_append]
  refine List.Perm.append_right _ (List.Perm.map _ ?_)
  simpa using hsplit

/-- Callbacks that are acknowledged do not wait on, the others do. -/
theorem waiting_takeFrameCallbacksFor (st : AppState) (sm : Surfaces) (root : Option Surface) :
    ((st.takeFrameCallbacksFor sm root).2.waiting ++ (st.takeFrameCallbacksFor sm root).1.map (·.callback)).Perm
      st.waiting := by
  cases root with
  | none => exact List.perm_append_comm
  | some root =>
    have hsplit := (List.filter_append_perm (fun p => decide (st.resolvedRoot sm p = some root))
      st.pendingFrameCallbacks).map (·.callback)
    rw [List.map_append] at hsplit
    refine List.perm_append_comm.trans ?_
    unfold AppState.waiting
    rw [← List.append_assoc]
    refine List.Perm.append_right _ ?_
    simpa [AppState.takeFrameCallbacksFor] using hsplit

theorem Frames.cursorImage (h : w.Frames) (hrole : w.surfaces.takesRole surface .cursorImage = true) :
    (w.next (w.surfaces.setRole surface .cursorImage) (w.app.cursorImage surface) []).Frames := by
  have hs : w.Settles [] (w.next (w.surfaces.setRole surface .cursorImage) (w.app.cursorImage surface) []) :=
    ⟨rfl, fun _ _ hr => Surfaces.setRole_role hrole hr, rfl, rfl, rfl, rfl⟩
  refine h.settle hs List.filter_sublist ?_ ?_ fun root => (List.filter_sublist.map _).filter _
  · rw [List.append_nil]
    exact (waiting_cursorImage w.app surface).subperm
  · intro callback hcallback
    rcases List.mem_append.1 hcallback with hcallback | hcallback
    · exact h.cursor callback hcallback
    · obtain ⟨p, hp, rfl⟩ := List.mem_map.1 hcallback
      obtain ⟨hp, hsource⟩ := List.mem_filter.1 hp
      have hsource : p.sourceSurface = surface := by simpa using hsource
      rw [h.recorded p hp]
      by_contra hroot
      obtain ⟨root, hroot⟩ := Option.ne_none_iff_exists'.1 hroot
      obtain ⟨role, hr, hne⟩ := h.sourced p hp root hroot
      rw [hsource] at hr
      rcases (Surfaces.takesRole_iff.1 hrole).2 with hnone | hcursor
      · rw [hnone] at hr
        cases hr
      · rw [hcursor] at hr
        exact hne (Option.some.inj hr).symm

theorem Frames.cursorClock (h : w.Frames) : w.cursorClock.Frames := by
  have hs : w.Settles w.app.cursorFrameCallbacks w.cursorClock := ⟨rfl, fun _ _ hr => hr, rfl, rfl, rfl, rfl⟩
  refine h.settle hs (List.Sublist.refl _) ?_ nofun ?_
  · change (w.app.pendingFrameCallbacks.map PendingFrameCallback.callback ++ [] ++ w.app.cursorFrameCallbacks).Subperm _
    rw [List.append_nil]
    exact List.Subperm.refl _
  · intro root
    have hnone : (w.app.cursorFrameCallbacks.filter fun c => w.recorded c = some root) = [] := by
      rw [List.filter_eq_nil_iff]
      intro callback hcallback
      simp [h.cursor callback hcallback]
    rw [List.filter_append, hnone, List.nil_append]
    exact List.Sublist.refl _

theorem Frames.acknowledge (h : w.Frames) (root : Option Surface) : (w.acknowledge root).Frames := by
  have hs : w.Settles ((w.app.takeFrameCallbacksFor w.surfaces root).1.map (·.callback)) (w.acknowledge root) :=
    ⟨rfl, fun _ _ hr => hr, rfl, rfl, rfl, rfl⟩
  have hwaiting := (waiting_takeFrameCallbacksFor w.app w.surfaces root).subperm
  cases root with
  | none =>
    refine h.settle hs (List.nil_sublist _) hwaiting h.cursor ?_
    intro root
    change ((w.app.pendingFrameCallbacks.map PendingFrameCallback.callback ++ []).filter _).Sublist _
    rw [List.append_nil]
  | some root =>
    let selects : PendingFrameCallback → Bool := fun p => w.app.resolvedRoot w.surfaces p = some root
    have hremaining : (w.acknowledge (some root)).app.pendingFrameCallbacks =
        w.app.pendingFrameCallbacks.filter fun p => !selects p := by
      change w.app.pendingFrameCallbacks.filter _ = _
      simp [selects]
    have hrecorded : ∀ p ∈ w.app.pendingFrameCallbacks, ∀ r, w.recorded p.callback = some r →
        w.app.resolvedRoot w.surfaces p = some r := by
      intro p hp r hr
      rw [h.recorded p hp] at hr
      simp [AppState.resolvedRoot, hr]
    refine h.settle hs List.filter_sublist hwaiting h.cursor ?_
    intro r
    rw [hremaining]
    change (((w.app.pendingFrameCallbacks.filter selects).map _ ++ _).filter _).Sublist _
    rw [List.filter_append]
    by_cases hr : r = root
    · have hnone : (((w.app.pendingFrameCallbacks.filter fun p => !selects p).map (·.callback)).filter fun c =>
          w.recorded c = some r) = [] := by
        rw [List.filter_eq_nil_iff]
        intro c hc hrec
        obtain ⟨p, hp, rfl⟩ := List.mem_map.1 hc
        obtain ⟨hp, hnot⟩ := List.mem_filter.1 hp
        have hresolved := hrecorded p hp r (of_decide_eq_true hrec)
        simp [selects, hresolved, hr] at hnot
      rw [hnone, List.append_nil]
      exact (List.filter_sublist.map _).filter _
    · have hnone : (((w.app.pendingFrameCallbacks.filter selects).map (·.callback)).filter fun c =>
          w.recorded c = some r) = [] := by
        rw [List.filter_eq_nil_iff]
        intro c hc hrec
        obtain ⟨p, hp, rfl⟩ := List.mem_map.1 hc
        obtain ⟨hp, hselected⟩ := List.mem_filter.1 hp
        have hresolved := hrecorded p hp r (of_decide_eq_true hrec)
        have hselected : w.app.resolvedRoot w.surfaces p = some root := of_decide_eq_true hselected
        exact hr (Option.some.inj (hresolved.symm.trans hselected))
      rw [hnone, List.nil_append]
      exact (List.filter_sublist.map _).filter _

/-- The callbacks of a commit, the numbers from the next one on. -/
def fresh (w : World) (callbacks : Nat) : List Callback := List.range' w.commits callbacks

/-- What a commit does with the callbacks: they come to one of the queues. -/
structure Commits (w : World) (surface : Surface) (callbacks : Nat) (w' : World) : Prop where
  current : ∀ x, w'.surfaces.frameCallbacks x = []
  role : w'.surfaces.role = w.surfaces.role
  commits : w'.commits = w.commits + callbacks
  completed : w'.completed = w.completed
  dropped : w'.dropped = w.dropped
  recorded : w'.recorded = fun callback =>
    if callback ∈ w.fresh callbacks then w.commitRoot surface else w.recorded callback
  queues : (w.surfaces.role surface = some .cursorImage ∧
      w'.app.pendingFrameCallbacks = w.app.pendingFrameCallbacks ∧
      w'.app.cursorFrameCallbacks = w.app.cursorFrameCallbacks ++ w.fresh callbacks) ∨
    w.surfaces.role surface ≠ some .cursorImage ∧
      w'.app.cursorFrameCallbacks = w.app.cursorFrameCallbacks ∧ ∃ trace, w'.app.pendingFrameCallbacks =
        w.app.pendingFrameCallbacks ++ (w.fresh callbacks).map fun c => ⟨w.commitRoot surface, surface, c, trace⟩

/-- Nothing is dropped while all that waited waits on. -/
theorem none_dropped {waiting done : List Callback} (hwaiting : ∀ c ∈ w.app.waiting, c ∈ waiting) :
    w.dropped ++ w.app.waiting.filter (fun c => c ∉ waiting ∧ c ∉ done) = w.dropped := by
  have hnone : (w.app.waiting.filter fun c => c ∉ waiting ∧ c ∉ done) = [] := by
    rw [List.filter_eq_nil_iff]
    intro c hc
    simp [hwaiting c hc]
  rw [hnone, List.append_nil]

theorem commits_of_commit (h : w.Sound) (hcurrent : ∀ x, w.surfaces.frameCallbacks x = []) {visited : List Surface} {buffers : Surface → Option (Option (Int × Int))}
    (hstep : w.commit surface callbacks visited buffers = some w') : w.Commits surface callbacks w' := by
  unfold World.commit at hstep
  split at hstep
  · next hguard =>
    obtain ⟨halive, hperm⟩ := hguard
    obtain rfl := Option.some.inj hstep
    have hcommitted : w.surfaces.frameCallbacks surface ++ List.range' w.commits callbacks = w.fresh callbacks := by
      rw [hcurrent surface, List.nil_append]
      rfl
    dsimp only
    rw [hcommitted]
    have hother : ∀ x, x ≠ surface →
        Function.update w.surfaces.frameCallbacks surface (w.fresh callbacks) x = [] := by
      intro x hx
      rw [Function.update_of_ne hx, hcurrent x]
    generalize hsm : ({ w.surfaces with
      frameCallbacks := Function.update w.surfaces.frameCallbacks surface (w.fresh callbacks) } : Surfaces) = sm
    have hfresh : sm.frameCallbacks surface = w.fresh callbacks := by
      rw [← hsm]
      exact Function.update_self ..
    have hother : ∀ x, x ≠ surface → sm.frameCallbacks x = [] := by
      rw [← hsm]
      exact hother
    have hrole : sm.role = w.surfaces.role := by rw [← hsm]
    unfold AppState.commit
    split
    · next hcursor =>
      refine ⟨?_, hrole, rfl, List.append_nil _, none_dropped ?_, rfl, .inl ⟨hrole ▸ hcursor, rfl, ?_⟩⟩
      · intro x
        change Function.update sm.frameCallbacks surface [] x = []
        by_cases hx : x = surface
        · rw [hx, Function.update_self]
        · rw [Function.update_of_ne hx, hother x hx]
      · intro c hc
        rcases List.mem_append.1 hc with hc | hc
        · exact List.mem_append_left _ hc
        · exact List.mem_append_right _ (List.mem_append_left _ hc)
      · exact congrArg _ hfresh
    · next hcursor =>
      have hnot : w.surfaces.role surface ≠ some .cursorImage := hrole ▸ hcursor
      have hnodup : visited.Nodup := hperm.nodup_iff.2 h.surfaces.tree_nodup
      have hmem : surface ∈ visited := hperm.mem_iff.2 (h.surfaces.mem_tree.2 ⟨halive, Leads.refl _⟩)
      have hroot : w.app.rootToplevelIdForSurface sm surface = w.commitRoot surface := by
        unfold commitRoot
        rw [if_neg hnot, ← hsm]
        rfl
      refine ⟨?_, hrole, rfl, List.append_nil _, none_dropped ?_, rfl, .inr ⟨hnot, rfl, ?_⟩⟩
      · intro x
        change (if x ∈ visited then [] else sm.frameCallbacks x) = []
        split
        · rfl
        · next hx =>
          refine hother x ?_
          rintro rfl
          exact hx hmem
      · intro c hc
        rcases List.mem_append.1 hc with hc | hc
        · refine List.mem_append_left _ ?_
          rw [List.map_append]
          exact List.mem_append_left _ hc
        · exact List.mem_append_right _ hc
      · refine ⟨if w.app.tracing then some w.app.nextTrace else none, ?_⟩
        change w.app.pendingFrameCallbacks ++ AppState.newCallbacks sm surface _ _ visited = _
        rw [newCallbacks_eq hnodup hmem hother, hfresh, hroot]
  · cases hstep

theorem Frames.lt_commits (h : w.Frames) {c : Callback} (hc : c ∈ w.app.waiting ∨ c ∈ w.completed) : c < w.commits := by
  rw [← List.mem_range, ← h.custody.mem_iff]
  rcases hc with hc | hc
  · exact List.mem_append_left _ hc
  · exact List.mem_append_right _ (List.mem_append_left _ hc)

theorem mem_fresh {c : Callback} (h : c ∈ w.fresh callbacks) : w.commits ≤ c :=
  (List.mem_range'_1.1 h).1

theorem Frames.commit (h : w.Frames) (hw : w.Sound) (hc : w.Commits surface callbacks w') : w'.Frames := by
  have hold : ∀ {c}, c < w.commits → w'.recorded c = w.recorded c := by
    intro c hlt
    rw [hc.recorded]
    exact if_neg fun hfresh => absurd (mem_fresh hfresh) (by omega)
  have hpending : ∀ p ∈ w.app.pendingFrameCallbacks, p.callback < w.commits := fun p hp =>
    h.lt_commits (.inl (List.mem_append_left _ (List.mem_map_of_mem hp)))
  have hcursor : ∀ c ∈ w.app.cursorFrameCallbacks, c < w.commits := fun c hmem =>
    h.lt_commits (.inl (List.mem_append_right _ hmem))
  have hcustody : ∀ waiting, waiting.Perm (w.app.waiting ++ w.fresh callbacks) →
      Custody (waiting ++ (w.completed ++ w.dropped)) (List.range (w.commits + callbacks)) := by
    intro waiting hwaiting
    refine ⟨?_, List.nodup_range⟩
    have hrange : List.range (w.commits + callbacks) = List.range w.commits ++ w.fresh callbacks := by
      unfold fresh
      rw [List.range_eq_range', List.range_eq_range', ← List.range'_append_1, Nat.zero_add]
    rw [hrange]
    refine ((hwaiting.append_right _).trans ?_).trans (h.custody.perm.append_right _)
    rw [List.perm_iff_count]
    intro a
    simp only [List.count_append]
    omega
  have hfilter : ∀ root, ((w.completed ++ w.app.pendingFrameCallbacks.map (·.callback)).filter fun c =>
      w'.recorded c = some root).Pairwise (· < ·) := by
    intro root
    refine (List.filter_congr ?_) ▸ h.ordered root
    intro c hmem
    rw [hold]
    rcases List.mem_append.1 hmem with hmem | hmem
    · exact h.lt_commits (.inr hmem)
    · exact h.lt_commits (.inl (List.mem_append_left _ hmem))
  rcases hc.queues with ⟨hrole, hp, hq⟩ | ⟨hrole, hq, trace, hp⟩
  · refine ⟨hc.current, ?_, hp ▸ h.sorted, ?_, ?_, ?_, ?_⟩
    · rw [hc.commits, hc.completed, hc.dropped]
      refine hcustody _ ?_
      unfold AppState.waiting
      rw [hp, hq, List.append_assoc]
    · rw [hp]
      intro p hmem
      rw [hold (hpending p hmem)]
      exact h.recorded p hmem
    · rw [hp, hc.role]
      exact h.sourced
    · rw [hq]
      intro c hmem
      rcases List.mem_append.1 hmem with hmem | hmem
      · rw [hold (hcursor c hmem)]
        exact h.cursor c hmem
      · rw [hc.recorded]
        simp [hmem, commitRoot, hrole]
    · intro root
      rw [hc.completed, hp]
      exact hfilter root
  · have hmap : (w'.app.pendingFrameCallbacks.map (·.callback)) =
        w.app.pendingFrameCallbacks.map (·.callback) ++ w.fresh callbacks := by
      rw [hp, List.map_append, List.map_map]
      exact congrArg _ (List.map_id _)
    have hincreasing : (w.fresh callbacks).Pairwise (· < ·) := List.pairwise_lt_range'
    refine ⟨hc.current, ?_, ?_, ?_, ?_, ?_, ?_⟩
    · rw [hc.commits, hc.completed, hc.dropped]
      refine hcustody _ ?_
      unfold AppState.waiting
      rw [hmap, hq, List.append_assoc, List.append_assoc]
      exact List.Perm.append_left _ List.perm_append_comm
    · rw [hmap]
      refine List.pairwise_append.2 ⟨h.sorted, hincreasing, ?_⟩
      intro a ha b hb
      obtain ⟨p, hmem, rfl⟩ := List.mem_map.1 ha
      exact lt_of_lt_of_le (hpending p hmem) (mem_fresh hb)
    · rw [hp]
      intro p hmem
      rcases List.mem_append.1 hmem with hmem | hmem
      · rw [hold (hpending p hmem)]
        exact h.recorded p hmem
      · obtain ⟨c, hfresh, rfl⟩ := List.mem_map.1 hmem
        rw [hc.recorded]
        exact if_pos hfresh
    · rw [hp, hc.role]
      intro p hmem root hroot
      rcases List.mem_append.1 hmem with hmem | hmem
      · exact h.sourced p hmem root hroot
      · obtain ⟨c, -, rfl⟩ := List.mem_map.1 hmem
        change w.commitRoot surface = some root at hroot
        rw [commitRoot, if_neg hrole] at hroot
        obtain ⟨role, hsurface⟩ := role_of_root hw hroot
        refine ⟨role, hsurface, ?_⟩
        rintro rfl
        exact hrole hsurface
    · rw [hq]
      intro c hmem
      rw [hold (hcursor c hmem)]
      exact h.cursor c hmem
    · intro root
      rw [hc.completed, hmap, ← List.append_assoc, List.filter_append]
      refine List.pairwise_append.2 ⟨hfilter root, hincreasing.filter _, ?_⟩
      intro a ha b hb
      have hlt : a < w.commits := by
        rcases List.mem_append.1 (List.mem_filter.1 ha).1 with ha | ha
        · exact h.lt_commits (.inr ha)
        · exact h.lt_commits (.inl (List.mem_append_left _ ha))
      exact lt_of_lt_of_le hlt (mem_fresh (List.mem_filter.1 hb).1)

/-! ## Runs -/

theorem Frames.step (h : w.Frames) (hw : w.Sound) (hstep : w.step e = some w') : w'.Frames := by
  rcases step_cases hw hstep with hk | ⟨surface, callbacks, visited, buffers, rfl⟩ | ⟨surface, rfl, hrole, rfl⟩ |
    ⟨root, rfl, rfl⟩ | ⟨rfl, rfl⟩
  · exact h.keeps hk
  · exact h.commit hw (commits_of_commit hw h.current hstep)
  · exact h.cursorImage hrole
  · exact h.acknowledge root
  · exact h.cursorClock

theorem frames {rootless tracing : Bool} {viewSize : Int × Int} (h : (scene rootless tracing viewSize).Reachable w) :
    w.Frames := by
  have hboth : w.Sound ∧ w.Frames := by
    refine System.Reachable.invariant (I := fun w => w.Sound ∧ w.Frames) ?_ ?_ h
    · refine ⟨sound .init, fun _ => rfl, ?_, List.Pairwise.nil, nofun, nofun, nofun, fun _ => List.Pairwise.nil⟩
      exact ⟨List.Perm.refl _, List.nodup_range⟩
    · exact fun _ _ _ hw hstep => ⟨hw.1.step hstep, hw.2.step hw.1 hstep⟩
  exact hboth.2

/-- Where the callbacks are. -/
structure Accounted (w : World) : Prop where
  /-- Each is in one of the queues, completed or dropped, and there once. -/
  custody : Custody (w.app.pendingFrameCallbacks.map (·.callback) ++ w.app.cursorFrameCallbacks ++ w.completed ++
    w.dropped) (List.range w.commits)
  recorded : ∀ p ∈ w.app.pendingFrameCallbacks, w.recorded p.callback = p.rootSurface
  /-- Callbacks committed with one root are completed in the order of their commits. -/
  ordered : ∀ root, (w.completed.filter fun callback => w.recorded callback = some root).Pairwise (· < ·)

/-- What an event may do with the callbacks. -/
structure Accounts (w : World) (e : Event) (w' : World) : Prop where
  /-- They are completed by an acknowledgement of their root, or of all, and of the queue of the cursor by its clock. -/
  completed : ∃ done, w'.completed = w.completed ++ done ∧ ∀ callback ∈ done,
    (∃ p ∈ w.app.pendingFrameCallbacks, p.callback = callback ∧ ∃ acknowledged, e = .acknowledge acknowledged ∧
      ∀ root, acknowledged = some root → w.app.resolvedRoot w.surfaces p = some root) ∨
    e = .cursorClock ∧ callback ∈ w.app.cursorFrameCallbacks
  /-- All of a root are completed together, in the order of their commits. -/
  acknowledged : ∀ root, e = .acknowledge (some root) →
    w'.completed = w.completed ++ (w.app.pendingFrameCallbacks.filter fun p =>
      w.app.resolvedRoot w.surfaces p = some root).map (·.callback) ∧
    ((w.app.pendingFrameCallbacks.filter fun p => w.app.resolvedRoot w.surfaces p = some root).map
      (·.callback)).Pairwise (· < ·)
  /-- They are dropped with their surface, one above it, or their root. -/
  dropped : ∃ gone, w'.dropped = w.dropped ++ gone ∧
    ∀ callback ∈ gone, ∃ p ∈ w.app.pendingFrameCallbacks, p.callback = callback ∧ w.Gone e p

theorem Frames.accounted (h : w.Frames) : w.Accounted where
  custody := by
    have hcustody := h.custody
    unfold AppState.waiting at hcustody
    rwa [← List.append_assoc] at hcustody
  recorded := h.recorded
  ordered := by
    intro root
    have hordered := h.ordered root
    rw [List.filter_append] at hordered
    exact (List.pairwise_append.1 hordered).1

/-- What is dropped by an event that completes and moves nothing. -/
theorem Keeps.gone (hk : w.Keeps e w') : ∃ gone, w'.dropped = w.dropped ++ gone ∧
    ∀ callback ∈ gone, ∃ p ∈ w.app.pendingFrameCallbacks, p.callback = callback ∧ w.Gone e p := by
  refine ⟨_, hk.settles.dropped, ?_⟩
  intro c hc
  obtain ⟨hc, hnot⟩ := List.mem_filter.1 hc
  have hnot : c ∉ w'.app.waiting := (of_decide_eq_true hnot).1
  rcases List.mem_append.1 hc with hc | hc
  · obtain ⟨p, hp, rfl⟩ := List.mem_map.1 hc
    refine ⟨p, hp, rfl, hk.pending.gone_of_not_mem hp ?_⟩
    exact fun hmem => hnot (List.mem_append_left _ (List.mem_map_of_mem hmem))
  · exact absurd (List.mem_append_right _ (hk.cursor ▸ hc)) hnot

/-- Nothing is dropped where all that waited waits on or is completed. -/
theorem Settles.dropped_eq {done : List Callback} (hs : w.Settles done w')
    (hkept : (w'.app.waiting ++ done).Perm w.app.waiting) : w'.dropped = w.dropped := by
  rw [hs.dropped]
  have hnone : (w.app.waiting.filter fun c => c ∉ w'.app.waiting ∧ c ∉ done) = [] := by
    rw [List.filter_eq_nil_iff]
    intro c hc
    have hmem := hkept.mem_iff.2 hc
    rw [List.mem_append] at hmem
    rcases hmem with hmem | hmem
    · simp [hmem]
    · simp [hmem]
  rw [hnone, List.append_nil]

theorem Frames.accounts (h : w.Frames) (hw : w.Sound) (hstep : w.step e = some w') : w.Accounts e w' := by
  have hacknowledged : ∀ root, e = .acknowledge (some root) →
      w'.completed = w.completed ++ (w.app.pendingFrameCallbacks.filter fun p =>
        w.app.resolvedRoot w.surfaces p = some root).map (·.callback) ∧
      ((w.app.pendingFrameCallbacks.filter fun p => w.app.resolvedRoot w.surfaces p = some root).map
        (·.callback)).Pairwise (· < ·) := by
    rintro root rfl
    obtain rfl := Option.some.inj hstep
    exact ⟨rfl, h.sorted.sublist (List.filter_sublist.map _)⟩
  refine ⟨?_, hacknowledged, ?_⟩
  · rcases step_cases hw hstep with hk | ⟨surface, callbacks, visited, buffers, rfl⟩ | ⟨surface, rfl, -, rfl⟩ |
      ⟨root, rfl, rfl⟩ | ⟨rfl, rfl⟩
    · exact ⟨[], hk.settles.completed, nofun⟩
    · refine ⟨[], ?_, nofun⟩
      rw [(commits_of_commit hw h.current hstep).completed, List.append_nil]
    · exact ⟨[], rfl, nofun⟩
    · refine ⟨_, rfl, ?_⟩
      intro c hc
      obtain ⟨p, hp, rfl⟩ := List.mem_map.1 hc
      cases root with
      | none => exact .inl ⟨p, hp, rfl, none, rfl, nofun⟩
      | some root =>
        obtain ⟨hp, hselected⟩ := List.mem_filter.1 hp
        refine .inl ⟨p, hp, rfl, some root, rfl, ?_⟩
        rintro r hr
        rw [← hr]
        exact of_decide_eq_true hselected
    · exact ⟨_, rfl, fun c hc => .inr ⟨rfl, hc⟩⟩
  · rcases step_cases hw hstep with hk | ⟨surface, callbacks, visited, buffers, rfl⟩ | ⟨surface, rfl, hrole, rfl⟩ |
      ⟨root, rfl, rfl⟩ | ⟨rfl, rfl⟩
    · exact hk.gone
    · refine ⟨[], ?_, nofun⟩
      rw [(commits_of_commit hw h.current hstep).dropped, List.append_nil]
    · refine ⟨[], ?_, nofun⟩
      rw [List.append_nil]
      have hs : w.Settles [] (w.next (w.surfaces.setRole surface .cursorImage) (w.app.cursorImage surface) []) :=
        ⟨rfl, fun _ _ hr => Surfaces.setRole_role hrole hr, rfl, rfl, rfl, rfl⟩
      refine hs.dropped_eq ?_
      rw [List.append_nil]
      exact waiting_cursorImage w.app surface
    · refine ⟨[], ?_, nofun⟩
      rw [List.append_nil]
      exact Settles.dropped_eq ⟨rfl, fun _ _ hr => hr, rfl, rfl, rfl, rfl⟩ (waiting_takeFrameCallbacksFor _ _ root)
    · refine ⟨[], ?_, nofun⟩
      rw [List.append_nil]
      have hs : w.Settles w.app.cursorFrameCallbacks w.cursorClock := ⟨rfl, fun _ _ hr => hr, rfl, rfl, rfl, rfl⟩
      refine hs.dropped_eq ?_
      change (w.app.pendingFrameCallbacks.map PendingFrameCallback.callback ++ [] ++ w.app.cursorFrameCallbacks).Perm _
      rw [List.append_nil]
      exact List.Perm.refl _

/-- In every run each callback has one place, those of one root are completed in the order of their commits, and none is
completed or dropped but for what it is due to. -/
theorem frame_callbacks {rootless tracing : Bool} {viewSize : Int × Int}
    (h : (scene rootless tracing viewSize).Reachable w) :
    w.Accounted ∧ ∀ e w', w.step e = some w' → w.Accounts e w' :=
  ⟨(frames h).accounted, fun _ _ hstep => (frames h).accounts (sound h) hstep⟩

/-- Two roots, and a popup of the second one. -/
theorem frame_callbacks_two_roots : ∃ w, (scene false false (800, 600)).Reachable w ∧ w.completed = [1, 2] ∧
    w.app.pendingFrameCallbacks.map (·.callback) = [0, 3] ∧
    w.Accounted ∧ ∀ e w', w.step e = some w' → w.Accounts e w' := by
  have hrun : ((scene false false (800, 600)).run (scene false false (800, 600)).init
      [.newSurface, .newToplevel 0, .newSurface, .newToplevel 1, .newSurface, .newPopup 2 (some 1) true,
        .commit 0 1 [0] fun _ => none, .commit 1 1 [1] fun _ => none, .commit 2 1 [2] fun _ => none,
        .commit 0 1 [0] fun _ => none, .acknowledge (some 1)]).any (fun w =>
      decide (w.completed = [1, 2] ∧ w.app.pendingFrameCallbacks.map (·.callback) = [0, 3])) = true := by
    decide
  obtain ⟨w, hw, hcheck⟩ := System.exists_reachable hrun
  obtain ⟨hcompleted, hpending⟩ := of_decide_eq_true hcheck
  exact ⟨w, hw, hcompleted, hpending, frame_callbacks hw⟩

/-- A callback of the subsurface of a popup is dropped with the role of the popup; one committed before its surface was
linked to a root is completed after one of the root that was committed later; and the clock of the cursor completes
callbacks. -/
theorem callbacks_astray :
    (∃ w w', (scene true false (800, 600)).Reachable w ∧ w.step (.popupDestroyed ⟨1, 1⟩) = some w' ∧
      ⟨some 0, 2, 0, none⟩ ∈ w.app.pendingFrameCallbacks ∧ w'.dropped = [0] ∧
      2 ∈ w'.surfaces.alive ∧ w'.app.isToplevel 0 = true) ∧
    (∃ w w', (scene true false (800, 600)).Reachable w ∧ w.completed = [1] ∧ w.recorded 1 = some 0 ∧
      w.step (.acknowledge (some 0)) = some w' ∧ w'.completed = [1, 0]) ∧
    ∃ w w', (scene true false (800, 600)).Reachable w ∧ w.completed = [] ∧ w.step .cursorClock = some w' ∧
      w'.completed = [0] := by
  have hdropped : ((scene true false (800, 600)).run (scene true false (800, 600)).init
      [.newSurface, .newSurface, .newSurface, .newToplevel 0, .newPopup 1 (some 0) true, .setParent 2 1,
        .commit 2 1 [2] fun _ => none]).any (fun w => (w.step (.popupDestroyed ⟨1, 1⟩)).any fun w' =>
      decide (⟨some 0, 2, 0, none⟩ ∈ w.app.pendingFrameCallbacks ∧ w'.dropped = [0] ∧ 2 ∈ w'.surfaces.alive ∧
        w'.app.isToplevel 0 = true)) = true := by
    decide
  have hlate : ((scene true false (800, 600)).run (scene true false (800, 600)).init
      [.newSurface, .newSurface, .newToplevel 0, .commit 1 1 [1] fun _ => none, .commit 0 1 [0] fun _ => none,
        .acknowledge (some 0), .setParent 1 0]).any (fun w => (w.step (.acknowledge (some 0))).any fun w' =>
      decide (w.completed = [1] ∧ w.recorded 1 = some 0 ∧ w'.completed = [1, 0])) = true := by
    decide
  have hclock : ((scene true false (800, 600)).run (scene true false (800, 600)).init
      [.newSurface, .commit 0 1 [0] fun _ => none, .cursorImage 0]).any (fun w => (w.step .cursorClock).any fun w' =>
      decide (w.completed = [] ∧ w'.completed = [0])) = true := by
    decide
  refine ⟨?_, ?_, ?_⟩
  · obtain ⟨w, hw, hcheck⟩ := System.exists_reachable hdropped
    obtain ⟨w', hstep, hcheck⟩ := (Option.any_eq_true ..).1 hcheck
    exact ⟨w, w', hw, hstep, of_decide_eq_true hcheck⟩
  · obtain ⟨w, hw, hcheck⟩ := System.exists_reachable hlate
    obtain ⟨w', hstep, hcheck⟩ := (Option.any_eq_true ..).1 hcheck
    obtain ⟨hcompleted, hrecorded, hafter⟩ := of_decide_eq_true hcheck
    exact ⟨w, w', hw, hcompleted, hrecorded, hstep, hafter⟩
  · obtain ⟨w, hw, hcheck⟩ := System.exists_reachable hclock
    obtain ⟨w', hstep, hcheck⟩ := (Option.any_eq_true ..).1 hcheck
    obtain ⟨hcompleted, hafter⟩ := of_decide_eq_true hcheck
    exact ⟨w, w', hw, hcompleted, hstep, hafter⟩

end World

end CocoaWay.Scene
