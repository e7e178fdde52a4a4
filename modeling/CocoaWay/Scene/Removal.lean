import CocoaWay.Scene.Sound

/-!
# What a removal leaves

* `AppState.Below` : the chain of the ancestors of a surface passes through another one; `mem_retired_iff` : these are
  the surfaces that are retired with it;
* `AppState.Free` : no table refers to a surface; `Retains` : what a list keeps;
* `Removed`, `removed` : what the destruction of a role or a surface leaves of the tables.
-/

namespace CocoaWay.Scene
open Lib Lib.Ancestry

/-- `after` is `before` without some of what is gone. -/
def Retains {α : Type} (gone : α → Prop) (before after : List α) : Prop :=
  ∃ keep : α → Bool, after = before.filter keep ∧ ∀ a, ¬ gone a → keep a = true

namespace AppState

variable {st : AppState} {sm : Surfaces} {surface x y : Surface} {wasToplevel : Bool}

/-- The surface of the same tree, or of a popup further down, or `surface` itself. -/
def Below (st : AppState) (sm : Surfaces) (surface x : Surface) : Prop := Leads (st.sceneParent sm) x surface

/-- Every popup has its ancestors within `MAX_SURFACE_ANCESTORS`. -/
def WithinLimit (st : AppState) (sm : Surfaces) : Prop :=
  ∀ popup ∈ st.popups, (st.surfaceAncestorChain sm popup.wlSurface).isSome = true

/-! ## The retired surfaces -/

theorem sceneParent_of_parent (h : sm.parent x = some y) : st.sceneParent sm x = some y := by
  unfold sceneParent
  rw [h, Option.some_or]

/-- What is linked upwards is a subsurface or a popup. -/
theorem sceneParent_cases (h : st.sceneParent sm x = some y) :
    sm.parent x = some y ∨ ∃ popup ∈ st.popups, popup.wlSurface = x := by
  unfold sceneParent at h
  rcases Option.or_eq_some_iff.1 h with h | ⟨-, h⟩
  · exact .inl h
  · obtain ⟨popup, hfind, -⟩ := Option.bind_eq_some_iff.1 h
    exact .inr ⟨popup, List.mem_of_find?_eq_some hfind, by simpa using List.find?_some hfind⟩

theorem mem_sceneRoots : x ∈ st.sceneRoots sm surface ↔ x = surface ∨
    ∃ popup ∈ st.popups, popup.wlSurface = x ∧ x ≠ surface ∧ (st.surfaceAncestorChain sm x).any (surface ∈ ·) := by
  unfold sceneRoots
  simp only [List.mem_cons, List.mem_map, List.mem_filter, decide_eq_true_eq]
  constructor
  · rintro (hx | ⟨popup, ⟨hmem, hne, hchain⟩, rfl⟩)
    · exact .inl hx
    · exact .inr ⟨popup, hmem, rfl, hne, hchain⟩
  · rintro (hx | ⟨popup, hmem, rfl, hne, hchain⟩)
    · exact .inl hx
    · exact .inr ⟨popup, ⟨hmem, hne, hchain⟩, rfl⟩

theorem below_of_chain (h : (st.surfaceAncestorChain sm x).any (surface ∈ ·) = true) : st.Below sm surface x := by
  obtain ⟨chain, hchain, hmem⟩ := (Option.any_eq_true ..).1 h
  rcases (mem_chainFrom hchain).1 (by simpa using hmem) with hnil | hleads
  · cases hnil
  · exact hleads

theorem chain_of_below (hsome : (st.surfaceAncestorChain sm x).isSome = true) (h : st.Below sm surface x) :
    (st.surfaceAncestorChain sm x).any (surface ∈ ·) = true := by
  obtain ⟨chain, hchain⟩ := Option.isSome_iff_exists.1 hsome
  refine (Option.any_eq_true ..).2 ⟨chain, hchain, ?_⟩
  exact decide_eq_true ((mem_chainFrom hchain).2 (.inr h))

theorem below_of_mem_retired (hs : sm.Sound) (hx : x ∈ st.retired sm surface) : st.Below sm surface x := by
  unfold retired at hx
  obtain ⟨root, hroot, hx⟩ := List.mem_flatMap.1 hx
  have hup : Leads (st.sceneParent sm) x root := (hs.mem_tree.1 hx).2.mono fun _ _ => sceneParent_of_parent
  rcases mem_sceneRoots.1 hroot with rfl | ⟨-, -, -, -, hchain⟩
  · exact hup
  · exact hup.trans (below_of_chain hchain)

/-- Within the limit, what is retired with a surface is what is below it. -/
theorem Sound.mem_retired_iff (hs : sm.Sound) (h : st.Sound sm) (hlimit : st.WithinLimit sm)
    (hsurface : surface ∈ sm.alive) :
    x ∈ st.retired sm surface ↔ st.Below sm surface x := by
  constructor
  · exact below_of_mem_retired hs
  · intro hbelow
    unfold retired
    rw [List.mem_flatMap]
    -- up to the surface, or to the next popup
    induction hbelow using Relation.ReflTransGen.head_induction_on with
    | refl => exact ⟨surface, mem_sceneRoots.2 (.inl rfl), hs.mem_tree.2 ⟨hsurface, Leads.refl _⟩⟩
    | @head x y hstep hleads ih =>
      rcases sceneParent_cases hstep with hparent | ⟨popup, hmem, rfl⟩
      · obtain ⟨root, hroot, hy⟩ := ih
        exact ⟨root, hroot, hs.mem_tree.2 ⟨(hs.linked _ _ hparent).1, (hs.mem_tree.1 hy).2.of_parent hparent⟩⟩
      · have hbelow : st.Below sm surface popup.wlSurface := Leads.of_parent hstep hleads
        have htree : popup.wlSurface ∈ sm.tree popup.wlSurface :=
          hs.mem_tree.2 ⟨(h.popups popup hmem).2.1, Leads.refl _⟩
        refine ⟨popup.wlSurface, mem_sceneRoots.2 ?_, htree⟩
        by_cases hself : popup.wlSurface = surface
        · exact .inl hself
        · exact .inr ⟨popup, hmem, rfl, hself, chain_of_below (hlimit popup hmem) hbelow⟩

theorem Sound.below_role (hs : sm.Sound) (h : st.Sound sm) (hbelow : st.Below sm surface x) :
    x = surface ∨ sm.role x ≠ some .toplevel := by
  rcases leads_iff.1 hbelow with hx | ⟨y, hy, -⟩
  · exact .inl hx.symm
  · right
    rcases sceneParent_cases hy with hparent | ⟨popup, hmem, rfl⟩
    · rw [(hs.linked _ _ hparent).2.2]
      decide
    · rw [(h.popups popup hmem).2.2]
      decide

/-! ## What is left -/

/-- No table refers to the surface, the dirty set apart. -/
structure Free (st : AppState) (x : Surface) : Prop where
  toplevels : ∀ toplevel ∈ st.toplevels, toplevel.wlSurface ≠ x
  popups : ∀ popup ∈ st.popups, popup.wlSurface ≠ x
  tiles : ∀ toplevel ∈ st.layout.toplevels, toplevel.wlSurface ≠ x
  positions : st.surfacePositions x = none
  buffers : st.pointerSurfaceBuffers x = none
  callbacks : ∀ pending ∈ st.pendingFrameCallbacks, pending.sourceSurface ≠ x ∧ pending.rootSurface ≠ some x
  drag : st.dragState ≠ some x
  dragRequest : st.startDragRequest ≠ some x
  inputFocus : st.inputFocus ≠ some x
  pointerFocus : st.pointerFocus ≠ some x
  keyboardFocus : st.keyboardFocus ≠ some x
  traces : st.traceFrames x = none

/-- What `before` is after the removal of a surface. -/
structure Removed (before : AppState) (sm : Surfaces) (after : AppState) (surface : Surface) : Prop where
  free : ∀ x, before.Below sm surface x → after.Free x
  /-- Of what is below, at most a surface that was no toplevel any more is still dirty. -/
  clean : ∀ x ∈ after.rootlessDirtySurfaces, before.Below sm surface x → x = surface ∧ before.isToplevel surface = false
  toplevels : Retains (fun t => before.Below sm surface t.wlSurface) before.toplevels after.toplevels
  popups : Retains (fun p => before.Below sm surface p.wlSurface) before.popups after.popups
  tiles : Retains (fun t => before.Below sm surface t.wlSurface) before.layout.toplevels after.layout.toplevels
  layout : before.isToplevel surface = false → after.layout = before.layout
  /-- The other tiles are laid out again, if there was one of the surface. -/
  relaid : after.layout = before.layout ∨ after.layout.LaidOut
  positions : ∀ x, ¬ before.Below sm surface x → after.surfacePositions x = before.surfacePositions x
  buffers : ∀ x, ¬ before.Below sm surface x → after.pointerSurfaceBuffers x = before.pointerSurfaceBuffers x
  callbacks : Retains (fun p => before.Below sm surface p.sourceSurface ∨ p.rootSurface = some surface)
    before.pendingFrameCallbacks after.pendingFrameCallbacks
  cursorCallbacks : after.cursorFrameCallbacks = before.cursorFrameCallbacks
  keyboardFocus : ∀ x, ¬ before.Below sm surface x → (after.keyboardFocus = some x ↔ before.keyboardFocus = some x)
  pointerFocus : ∀ x, ¬ before.Below sm surface x → (after.pointerFocus = some x ↔ before.pointerFocus = some x)
  /-- The pointer leaves what is removed, and every drag ends with it. -/
  left : ∀ x, before.pointerFocus = some x → before.Below sm surface x → after.pointerFocus = none ∧
    after.inputFocus = none ∧ after.dragState = none ∧ after.startDragRequest = none
  /-- With the pointer elsewhere a drag goes on. -/
  pointer : (∀ x, before.pointerFocus = some x → ¬ before.Below sm surface x) → ∀ x, ¬ before.Below sm surface x →
    (after.inputFocus = some x ↔ before.inputFocus = some x) ∧ (after.dragState = some x ↔ before.dragState = some x) ∧
      (after.startDragRequest = some x ↔ before.startDragRequest = some x)
  /-- The toplevel that owned the surface is painted again. -/
  dirty : ∀ x, ¬ before.Below sm surface x → (x ∈ after.rootlessDirtySurfaces ↔ x ∈ before.rootlessDirtySurfaces ∨
    before.rootless = true ∧ before.isToplevel surface = false ∧ before.rootToplevelIdForSurface sm surface = some x)
  traces : ∀ x, ¬ before.Below sm surface x → after.traceFrames x = before.traceFrames x

theorem mem_toplevels_layout {tile : Tile} {layout : Layout} (h : tile ∈ layout.tiles) :
    tile.toplevel ∈ layout.toplevels := List.mem_map.2 ⟨tile, h, rfl⟩

theorem Sound.removeTile_eq (h : st.Sound sm) (hnot : st.isToplevel surface = false) :
    st.layout.removeTile surface = st.layout := by
  have hnone : (st.layout.tiles.findIdx? fun tile => tile.surfaceId = surface) = none := by
    rw [List.findIdx?_eq_none_iff]
    intro tile hmem
    rw [decide_eq_false_iff_not]
    intro hsurface
    rw [isToplevel_iff.2 ⟨tile.toplevel, h.tiled _ (mem_toplevels_layout hmem), hsurface⟩] at hnot
    cases hnot
  unfold Layout.removeTile
  rw [hnone]

theorem retains_callbacks (hs : sm.Sound) :
    Retains (fun p => st.Below sm surface p.sourceSurface ∨ p.rootSurface = some surface) st.pendingFrameCallbacks
      (st.removeSurfaceFromScene sm surface wasToplevel).pendingFrameCallbacks := by
  refine ⟨_, rfl, ?_⟩
  intro pending hgone
  push Not at hgone
  have hnot : pending.sourceSurface ∉ st.retired sm surface := fun hmem => hgone.1 (below_of_mem_retired hs hmem)
  simp [hnot, hgone.2]

theorem ite_left_eq_some {α : Type} {p : Bool} {o : Option α} {x : α} :
    (if p = true then none else o) = some x ↔ p = false ∧ o = some x := by
  cases p <;> simp

theorem mem_dirty_remove_iff : x ∈ (st.removeSurfaceFromScene sm surface wasToplevel).rootlessDirtySurfaces ↔
    x ∈ st.rootlessDirtySurfaces ∧ (x = surface → wasToplevel = false) ∨
      st.rootless = true ∧ wasToplevel = false ∧ st.rootToplevelIdForSurface sm surface = some x := by
  cases wasToplevel with
  | true =>
    change x ∈ st.rootlessDirtySurfaces.erase surface ↔ _
    simp [and_comm]
  | false =>
    change x ∈ (st.purge (st.retired sm surface) surface false).dirtyWith (st.rootToplevelIdForSurface sm surface) ↔ _
    unfold dirtyWith
    change x ∈ (if st.rootless = true then st.rootlessDirtySurfaces ∪ _ else st.rootlessDirtySurfaces) ↔ _
    split
    · next hrootless => simp [hrootless]
    · next hrootless => simp [hrootless]

/-- A focus that is kept unless it is retired. -/
theorem filter_retired_iff {retired : List Surface} {focus : Option Surface} (hx : x ∉ retired) :
    focus.filter (· ∉ retired) = some x ↔ focus = some x := by
  rw [Option.filter_eq_some_iff]
  simp [hx]

theorem not_filter_retired {retired : List Surface} {focus : Option Surface} (hx : x ∈ retired) :
    focus.filter (· ∉ retired) ≠ some x := by
  intro h
  have hnot := (Option.filter_eq_some_iff.1 h).2
  simp [hx] at hnot

/-- No toplevel is left that is below the surface. -/
theorem Sound.not_isToplevel_of_below (hs : sm.Sound) (h : st.Sound sm) (hx : st.Below sm surface x) :
    (st.removeSurfaceFromScene sm surface wasToplevel).isToplevel x = false := by
  rw [Bool.eq_false_iff]
  intro ht
  obtain ⟨ht, hne⟩ := isToplevel_remove.1 ht
  rcases h.below_role hs hx with hself | hrole
  · exact hne hself
  · exact hrole (h.role_of_isToplevel ht).2

section Removal

variable (hs : sm.Sound) (h : st.Sound sm) (hret : ∀ x, x ∈ st.retired sm surface ↔ st.Below sm surface x)
include hs h hret

theorem Sound.free_remove (hwas : wasToplevel = st.isToplevel surface) (hx : st.Below sm surface x) :
    (st.removeSurfaceFromScene sm surface wasToplevel).Free x := by
  have hafter := h.remove hwas
  have hnot : (st.removeSurfaceFromScene sm surface wasToplevel).isToplevel x = false :=
    h.not_isToplevel_of_below hs hx
  have hretired := (hret x).2 hx
  have htoplevels : ∀ t ∈ (st.removeSurfaceFromScene sm surface wasToplevel).toplevels, t.wlSurface ≠ x := by
    intro t hmem hsurface
    rw [isToplevel_iff.2 ⟨t, hmem, hsurface⟩] at hnot
    cases hnot
  refine
    { toplevels := htoplevels
      popups := ?_
      tiles := fun t hmem => htoplevels t (hafter.tiled t hmem)
      positions := if_pos hretired
      buffers := if_pos hretired
      callbacks := ?_
      drag := ?_
      dragRequest := ?_
      inputFocus := ?_
      pointerFocus := ?_
      keyboardFocus := not_filter_retired hretired
      traces := ?_ }
  · rintro p hmem rfl
    have hkept := (List.mem_filter.1 hmem).2
    simp [hretired] at hkept
  · intro pending hmem
    constructor
    · rintro rfl
      have hkept := (List.mem_filter.1 hmem).2
      simp [hretired] at hkept
    · intro hroot
      rw [hafter.roots pending hmem x hroot] at hnot
      cases hnot
  · intro hdrag
    exact not_filter_retired hretired (ite_left_eq_some.1 hdrag).2
  · intro hdrag
    exact not_filter_retired hretired (ite_left_eq_some.1 hdrag).2
  · intro hfocus
    exact not_filter_retired hretired (ite_left_eq_some.1 hfocus).2
  · intro hfocus
    obtain ⟨hleft, hfocus⟩ := ite_left_eq_some.1 hfocus
    change st.pointerFocus = some x at hfocus
    change st.pointerFocus.any (· ∈ st.retired sm surface) = false at hleft
    rw [hfocus] at hleft
    simp [hretired] at hleft
  · by_contra hframe
    rw [hafter.traces x hframe] at hnot
    cases hnot

theorem Sound.removed_remove (hwas : wasToplevel = st.isToplevel surface) :
    st.Removed sm (st.removeSurfaceFromScene sm surface wasToplevel) surface := by
  have hself : st.Below sm surface surface := Leads.refl _
  have hne : ∀ {x}, ¬ st.Below sm surface x → x ≠ surface := by
    rintro x hx rfl
    exact hx hself
  have hnot : ∀ {x}, ¬ st.Below sm surface x → x ∉ st.retired sm surface := fun hx hmem => hx ((hret _).1 hmem)
  refine
    { free := fun x hx => h.free_remove hs hret hwas hx
      clean := ?_
      toplevels := ⟨_, rfl, fun t ht => by simpa using hne ht⟩
      popups := ⟨_, rfl, fun p hp => by simpa using hnot hp⟩
      tiles := ⟨_, Layout.toplevels_removeTile_of_nodup h.tiles surface, fun t ht => by simpa using hne ht⟩
      layout := h.removeTile_eq
      relaid := st.layout.removeTile_cases surface
      positions := fun x hx => if_neg (hnot hx)
      buffers := fun x hx => if_neg (hnot hx)
      callbacks := retains_callbacks hs
      cursorCallbacks := rfl
      keyboardFocus := fun x hx => filter_retired_iff (hnot hx)
      pointerFocus := ?_
      left := ?_
      pointer := ?_
      dirty := ?_
      traces := ?_ }
  · intro x hx hbelow
    rcases h.below_role hs hbelow with rfl | hrole
    · refine ⟨rfl, hwas ▸ ?_⟩
      rcases mem_dirty_remove_iff.1 hx with ⟨-, hx⟩ | ⟨-, hx, -⟩
      · exact hx rfl
      · exact hx
    · exact absurd ((h.remove hwas).dirty x hx) hrole
  · intro x hx
    change (if st.pointerFocus.any (· ∈ st.retired sm surface) = true then none else st.pointerFocus) = some x ↔ _
    rw [ite_left_eq_some]
    constructor
    · exact And.right
    · intro hfocus
      refine ⟨?_, hfocus⟩
      rw [hfocus]
      simpa using hnot hx
  · intro x hfocus hx
    have hleft : st.pointerFocus.any (· ∈ st.retired sm surface) = true := by
      rw [hfocus]
      exact decide_eq_true ((hret x).2 hx)
    exact ⟨if_pos hleft, if_pos hleft, if_pos hleft, if_pos hleft⟩
  · intro helsewhere x hx
    have hleft : st.pointerFocus.any (· ∈ st.retired sm surface) = false := by
      cases hfocus : st.pointerFocus with
      | none => rfl
      | some y => simpa using hnot (helsewhere y hfocus)
    refine ⟨?_, ?_, ?_⟩
    · exact ite_left_eq_some.trans ((and_iff_right hleft).trans (filter_retired_iff (hnot hx)))
    · exact ite_left_eq_some.trans ((and_iff_right hleft).trans (filter_retired_iff (hnot hx)))
    · exact ite_left_eq_some.trans ((and_iff_right hleft).trans (filter_retired_iff (hnot hx)))
  · intro x hx
    rw [mem_dirty_remove_iff, hwas]
    simp [hne hx]
  · intro x hx
    change (if wasToplevel then Function.update st.traceFrames surface none else st.traceFrames) x = st.traceFrames x
    split
    · exact Function.update_of_ne (hne hx) _ _
    · rfl

end Removal

end AppState

/-! ## Destroyed roles and surfaces -/

namespace World

/-- Whatever role or surface is destroyed, no table refers to it or to what was below it, and the rest is kept; a late
notice of a role changes nothing. -/
theorem removed : (∀ rootless tracing viewSize w, (scene rootless tracing viewSize).Reachable w → w.Sound) ∧
    ∀ w : World, w.Sound → w.app.WithinLimit w.surfaces →
      (∀ t ∈ w.app.toplevels, w.app.Removed w.surfaces (w.app.toplevelDestroyed w.surfaces t) t.wlSurface) ∧
      (∀ p ∈ w.app.popups, w.app.Removed w.surfaces (w.app.popupDestroyed w.surfaces p) p.wlSurface) ∧
      (∀ surface ∈ w.surfaces.alive, surface ∉ w.app.cursorSurfaces → ∃ after,
        w.app.Removed w.surfaces after surface ∧
          w.app.destroyed w.surfaces surface = after.send (.surfaceDestroyed surface)) ∧
      (∀ t ∈ w.surfaces.knownToplevels, t ∉ w.app.toplevels → w.app.toplevelDestroyed w.surfaces t = w.app) ∧
      ∀ p ∈ w.surfaces.knownPopups, p ∉ w.app.popups → w.app.popupDestroyed w.surfaces p = w.app := by
  refine ⟨fun _ _ _ _ h => sound h, ?_⟩
  intro w h hlimit
  have hret : ∀ {surface}, surface ∈ w.surfaces.alive → ∀ x, x ∈ w.app.retired w.surfaces surface ↔
      w.app.Below w.surfaces surface x := fun hsurface x => h.app.mem_retired_iff h.surfaces hlimit hsurface
  refine ⟨?_, ?_, ?_, ?_, ?_⟩
  · intro t hmem
    have hknown : (w.app.toplevels.any fun known => known.xdgToplevel = t.xdgToplevel) = true :=
      List.any_eq_true.2 ⟨t, hmem, by simp⟩
    unfold AppState.toplevelDestroyed
    rw [if_pos hknown]
    exact h.app.removed_remove h.surfaces (hret (h.app.toplevels t hmem).2.1)
      (AppState.isToplevel_iff.2 ⟨t, hmem, rfl⟩).symm
  · intro p hmem
    have hknown : (w.app.popups.any fun known => known.xdgPopup = p.xdgPopup) = true :=
      List.any_eq_true.2 ⟨p, hmem, by simp⟩
    unfold AppState.popupDestroyed
    rw [if_pos hknown]
    obtain ⟨-, halive, hrole⟩ := h.app.popups p hmem
    exact h.app.removed_remove h.surfaces (hret halive) (h.app.not_isToplevel_of_role hrole (by decide)).symm
  · intro surface halive hcursor
    refine ⟨_, h.app.removed_remove h.surfaces (hret halive) rfl, ?_⟩
    unfold AppState.destroyed
    rw [if_neg hcursor]
  · intro t hknown hnot
    unfold AppState.toplevelDestroyed
    rw [if_neg fun hlisted => hnot (h.app.toplevel_of_known h.surfaces hknown hlisted)]
  · intro p hknown hnot
    unfold AppState.popupDestroyed
    rw [if_neg fun hlisted => hnot (h.app.popup_of_known h.surfaces hknown hlisted)]

/-- A popup with a subsurface. -/
theorem removed_popup : ∃ w, (scene true true (800, 600)).Reachable w ∧
    w.app.Removed w.surfaces (w.app.popupDestroyed w.surfaces ⟨1, 1⟩) 1 := by
  have hrun : ((scene true true (800, 600)).run (scene true true (800, 600)).init
      [.newSurface, .newSurface, .newSurface, .newToplevel 0, .newPopup 1 (some 0) true, .setParent 2 1,
        .commit 2 1 [2] fun _ => some (some (3, 4)), .commit 0 1 [0] fun _ => none]).any (fun w =>
      decide (⟨1, 1⟩ ∈ w.app.popups) &&
        w.app.popups.all fun p => (w.app.surfaceAncestorChain w.surfaces p.wlSurface).isSome) = true := by
    decide
  obtain ⟨w, hw, hcheck⟩ := System.exists_reachable hrun
  obtain ⟨hpopup, hlimit⟩ := Bool.and_eq_true_iff.1 hcheck
  refine ⟨w, hw, (removed.2 w (removed.1 _ _ _ w hw) ?_).2.1 ⟨1, 1⟩ (of_decide_eq_true hpopup)⟩
  exact fun p hmem => List.all_eq_true.1 hlimit p hmem

/-- With one of two toplevels, the tile of the other one changes. -/
theorem tile_moved : ∃ w, (scene false false (800, 600)).Reachable w ∧
    ⟨0, 0⟩ ∈ w.app.toplevels ∧ w.app.surfaceAncestorChain w.surfaces 1 = some [1] ∧
      (w.app.layout.tiles.filter fun tile => tile.surfaceId = 1) = [⟨⟨1, 1⟩, (400, 0), (400, 600), true⟩] ∧
      ((w.app.toplevelDestroyed w.surfaces ⟨0, 0⟩).layout.tiles.filter fun tile => tile.surfaceId = 1) =
        [⟨⟨1, 1⟩, (0, 0), (800, 600), true⟩] := by
  have hrun : ((scene false false (800, 600)).run (scene false false (800, 600)).init
      [.newSurface, .newSurface, .newToplevel 0, .newToplevel 1]).any (fun w =>
      decide (⟨0, 0⟩ ∈ w.app.toplevels ∧ w.app.surfaceAncestorChain w.surfaces 1 = some [1] ∧
        (w.app.layout.tiles.filter fun tile => tile.surfaceId = 1) = [⟨⟨1, 1⟩, (400, 0), (400, 600), true⟩] ∧
        ((w.app.toplevelDestroyed w.surfaces ⟨0, 0⟩).layout.tiles.filter fun tile => tile.surfaceId = 1) =
          [⟨⟨1, 1⟩, (0, 0), (800, 600), true⟩])) = true := by
    decide
  obtain ⟨w, hw, hcheck⟩ := System.exists_reachable hrun
  exact ⟨w, hw, of_decide_eq_true hcheck⟩

end World

end CocoaWay.Scene
