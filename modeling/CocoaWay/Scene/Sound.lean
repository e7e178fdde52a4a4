import CocoaWay.Scene.World

/-!
# What holds of every scene

* `Surfaces.Sound` : the parents are an acyclic forest of live subsurfaces, and no two role objects are one;
* `AppState.Sound` : what the tables list of roles is alive and has the role, and only toplevels own tiles, callbacks
  and frames; `AppState.Sound.remove`;
* `World.Sound`, `World.sound` : it holds of the world after any events.
-/

namespace CocoaWay.Scene
open Lib Lib.Ancestry

/-! ## The layout -/

namespace Layout

/-- The toplevels of the tiles. -/
def toplevels (layout : Layout) : List ToplevelSurface := layout.tiles.map (·.toplevel)

@[simp] theorem toplevels_relayout (layout : Layout) : layout.relayout.toplevels = layout.toplevels := by
  unfold toplevels relayout
  apply List.ext_getElem
  · simp
  · intro i hi hi'
    simp

@[simp] theorem toplevels_addTile (layout : Layout) (toplevel : ToplevelSurface) :
    (layout.addTile toplevel).toplevels = layout.toplevels ++ [toplevel] := by
  unfold addTile
  rw [toplevels_relayout]
  simp [toplevels]

@[simp] theorem toplevels_moveTile (layout : Layout) (surface : Surface) (x y : Int) :
    (layout.moveTile surface x y).toplevels = layout.toplevels := by
  unfold moveTile
  split
  · rfl
  · next idx _ =>
    unfold toplevels
    apply List.ext_getElem
    · simp
    · intro i hi hi'
      simp only [List.getElem_map, List.getElem_modify]
      split <;> rfl

theorem toplevels_removeTile (layout : Layout) (surface : Surface) :
    (layout.removeTile surface).toplevels = layout.toplevels.eraseP fun toplevel => toplevel.wlSurface = surface := by
  have herase : layout.toplevels.eraseP (fun toplevel => toplevel.wlSurface = surface) =
      (layout.tiles.eraseP fun tile => tile.surfaceId = surface).map (·.toplevel) := List.eraseP_map
  rw [herase, List.eraseP_eq_eraseIdx]
  unfold removeTile
  split
  · next h => rw [h]; rfl
  · next idx h => rw [h, toplevels_relayout]; rfl

/-- The tiles stand side by side, in one size, and the focused one is marked. -/
def LaidOut (layout : Layout) : Prop :=
  ∀ (i : Nat) tile, layout.tiles[i]? = some tile →
    let size := layout.calculateTileSize layout.tiles.length
    tile.size = size ∧ tile.position = (layout.padding + i * (size.1 + layout.gap), layout.padding) ∧
      tile.isFocused = decide (layout.focusedIdx = some i)

theorem laidOut_relayout (layout : Layout) : layout.relayout.LaidOut := by
  intro i tile h
  have hlength : layout.relayout.tiles.length = layout.tiles.length := List.length_mapIdx
  unfold relayout at h
  simp only [List.getElem?_mapIdx, Option.map_eq_some_iff] at h
  obtain ⟨_, -, rfl⟩ := h
  rw [hlength]
  exact ⟨rfl, rfl, rfl⟩

theorem removeTile_cases (layout : Layout) (surface : Surface) :
    layout.removeTile surface = layout ∨ (layout.removeTile surface).LaidOut := by
  unfold removeTile
  split
  · exact .inl rfl
  · exact .inr (laidOut_relayout _)

/-- Where every toplevel has one tile, the tile of the surface is taken out. -/
theorem toplevels_removeTile_of_nodup {layout : Layout} (h : (layout.toplevels.map (·.wlSurface)).Nodup)
    (surface : Surface) :
    (layout.removeTile surface).toplevels = layout.toplevels.filter fun toplevel => toplevel.wlSurface ≠ surface := by
  rw [toplevels_removeTile]
  generalize layout.toplevels = toplevels at h
  induction toplevels with
  | nil => rfl
  | cons toplevel toplevels ih =>
    rw [List.map_cons, List.nodup_cons] at h
    by_cases ht : toplevel.wlSurface = surface
    · have hrest : toplevels.filter (fun toplevel => toplevel.wlSurface ≠ surface) = toplevels := by
        rw [List.filter_eq_self]
        intro other hother
        have hne : other.wlSurface ≠ surface := fun he => h.1 (List.mem_map.2 ⟨other, hother, he.trans ht.symm⟩)
        simpa using hne
      rw [List.eraseP_cons_of_pos (by simpa using ht), List.filter_cons_of_neg (by simpa using ht), hrest]
    · rw [List.eraseP_cons_of_neg (by simpa using ht), List.filter_cons_of_pos (by simpa using ht), ih h.2]

end Layout

/-! ## Surfaces -/

/-- What holds of what smithay keeps. -/
structure Surfaces.Sound (sm : Surfaces) : Prop where
  nodup : sm.alive.Nodup
  made : ∀ x ∈ sm.alive, x < sm.made
  linked : ∀ x y, sm.parent x = some y → x ∈ sm.alive ∧ y ∈ sm.alive ∧ sm.role x = some .subsurface
  acyclic : Acyclic sm.parent
  toplevelIds : (sm.knownToplevels.map (·.xdgToplevel)).Nodup
  toplevelId : ∀ toplevel ∈ sm.knownToplevels, toplevel.xdgToplevel < sm.roleObjects
  popupIds : (sm.knownPopups.map (·.xdgPopup)).Nodup
  popupId : ∀ popup ∈ sm.knownPopups, popup.xdgPopup < sm.roleObjects

namespace Surfaces

variable {sm sm' : Surfaces} {surface x y : Surface} {role : Role}

theorem Sound.mem_climb (h : sm.Sound) : y ∈ climb sm.parent sm.made x ↔ Leads sm.parent x y := by
  have hnodes : ∀ x y, sm.parent x = some y → x ∈ List.range sm.made := by
    intro x y hxy
    exact List.mem_range.2 (h.made x (h.linked x y hxy).1)
  simpa using mem_climb_iff h.acyclic hnodes (x := x) (y := y)

theorem Sound.mem_tree (h : sm.Sound) : x ∈ sm.tree surface ↔ x ∈ sm.alive ∧ Leads sm.parent x surface := by
  unfold tree
  rw [List.mem_filter, decide_eq_true_iff, h.mem_climb]

theorem Sound.tree_nodup (h : sm.Sound) : (sm.tree surface).Nodup := h.nodup.filter _

theorem takesRole_iff :
    sm.takesRole surface role = true ↔ surface ∈ sm.alive ∧ (sm.role surface = none ∨ sm.role surface = some role) := by
  simp [takesRole]

theorem setRole_role (h : sm.takesRole surface role = true) {r : Role} (hx : sm.role x = some r) :
    (sm.setRole surface role).role x = some r := by
  change Function.update sm.role surface (some role) x = some r
  by_cases hxs : x = surface
  · subst hxs
    rcases (takesRole_iff.1 h).2 with hnone | hsome
    · rw [hnone] at hx
      cases hx
    · rw [hsome] at hx
      rw [Function.update_self, hx]
  · rw [Function.update_of_ne hxs, hx]

theorem Sound.setRole (h : sm.Sound) (hrole : sm.takesRole surface role = true) : (sm.setRole surface role).Sound where
  nodup := h.nodup
  made := h.made
  linked := fun x y hxy => ⟨(h.linked x y hxy).1, (h.linked x y hxy).2.1, setRole_role hrole (h.linked x y hxy).2.2⟩
  acyclic := h.acyclic
  toplevelIds := h.toplevelIds
  toplevelId := h.toplevelId
  popupIds := h.popupIds
  popupId := h.popupId

theorem Sound.newSurface (h : sm.Sound) : sm.newSurface.Sound where
  nodup := List.nodup_cons.2 ⟨fun hmem => Nat.lt_irrefl _ (h.made _ hmem), h.nodup⟩
  made := by
    intro x hx
    rcases List.mem_cons.1 hx with rfl | hx
    · exact Nat.lt_succ_self _
    · exact Nat.lt_succ_of_lt (h.made x hx)
  linked := by
    intro x y hxy
    obtain ⟨hx, hy, hrole⟩ := h.linked x y hxy
    exact ⟨List.mem_cons_of_mem _ hx, List.mem_cons_of_mem _ hy, hrole⟩
  acyclic := h.acyclic
  toplevelIds := h.toplevelIds
  toplevelId := h.toplevelId
  popupIds := h.popupIds
  popupId := h.popupId

theorem setParent_eq_some (h : sm.setParent x y = some sm') :
    sm.takesRole x .subsurface = true ∧ y ∈ sm.alive ∧ x ∉ climb sm.parent sm.made y ∧
      sm' = { sm.setRole x .subsurface with parent := Function.update sm.parent x (some y) } := by
  unfold setParent at h
  split at h
  · next hguard => exact ⟨hguard.1, hguard.2.1, hguard.2.2.1, (Option.some.inj h).symm⟩
  · cases h

theorem Sound.setParent (h : sm.Sound) (hset : sm.setParent x y = some sm') : sm'.Sound := by
  obtain ⟨hrole, hy, hbelow, rfl⟩ := setParent_eq_some hset
  refine { h.setRole hrole with linked := ?_, acyclic := h.acyclic.link fun hleads => hbelow (h.mem_climb.2 hleads) }
  intro a b hab
  by_cases ha : a = x
  · subst ha
    have hb : b = y := by simpa using hab.symm
    exact ⟨(takesRole_iff.1 hrole).1, hb ▸ hy, by simp [Surfaces.setRole]⟩
  · have hab' : sm.parent a = some b := by simpa [Function.update_of_ne ha] using hab
    exact ⟨(h.linked a b hab').1, (h.linked a b hab').2.1, setRole_role hrole (h.linked a b hab').2.2⟩

theorem Sound.unsetParent (h : sm.Sound) (child : Surface) : (sm.unsetParent child).Sound := by
  have hparent : ∀ a b, Function.update sm.parent child none a = some b → sm.parent a = some b := by
    intro a b hab
    by_cases ha : a = child
    · subst ha
      simp at hab
    · rwa [Function.update_of_ne ha] at hab
  exact { h with
    linked := fun a b hab => h.linked a b (hparent a b hab)
    acyclic := h.acyclic.mono hparent }

theorem Sound.cleanup (h : sm.Sound) (surface : Surface) : (sm.cleanup surface).Sound := by
  have hparent : ∀ a b, (sm.cleanup surface).parent a = some b → a ≠ surface ∧ b ≠ surface ∧ sm.parent a = some b := by
    intro a b hab
    simp only [Surfaces.cleanup] at hab
    split at hab
    · cases hab
    · next hne =>
      push Not at hne
      refine ⟨hne.1, ?_, hab⟩
      rintro rfl
      exact hne.2 hab
  refine { h with
    nodup := h.nodup.filter _
    made := fun x hx => h.made x (List.mem_filter.1 hx).1
    linked := ?_
    acyclic := h.acyclic.mono fun a b hab => (hparent a b hab).2.2 }
  intro a b hab
  obtain ⟨ha, hb, hab⟩ := hparent a b hab
  obtain ⟨ha', hb', hrole⟩ := h.linked a b hab
  exact ⟨List.mem_filter.2 ⟨ha', by simpa using ha⟩, List.mem_filter.2 ⟨hb', by simpa using hb⟩, hrole⟩

theorem Sound.newToplevel (h : sm.Sound) (hrole : sm.takesRole surface .toplevel = true) :
    (sm.newToplevel surface).Sound := by
  refine { h.setRole hrole with toplevelIds := ?_, toplevelId := ?_, popupId := ?_ }
  · refine List.nodup_cons.2 ⟨?_, h.toplevelIds⟩
    intro hmem
    obtain ⟨toplevel, hknown, hid⟩ := List.mem_map.1 hmem
    exact Nat.ne_of_lt (h.toplevelId toplevel hknown) hid
  · intro toplevel hknown
    rcases List.mem_cons.1 hknown with rfl | hknown
    · exact Nat.lt_succ_self _
    · exact Nat.lt_succ_of_lt (h.toplevelId toplevel hknown)
  · intro popup hknown
    exact Nat.lt_succ_of_lt (h.popupId popup hknown)

theorem Sound.newPopup (h : sm.Sound) (hrole : sm.takesRole surface .popup = true) (parent : Option Surface) :
    (sm.newPopup surface parent).Sound := by
  refine { h.setRole hrole with toplevelId := ?_, popupIds := ?_, popupId := ?_ }
  · intro toplevel hknown
    exact Nat.lt_succ_of_lt (h.toplevelId toplevel hknown)
  · refine List.nodup_cons.2 ⟨?_, h.popupIds⟩
    intro hmem
    obtain ⟨popup, hknown, hid⟩ := List.mem_map.1 hmem
    exact Nat.ne_of_lt (h.popupId popup hknown) hid
  · intro popup hknown
    rcases List.mem_cons.1 hknown with rfl | hknown
    · exact Nat.lt_succ_self _
    · exact Nat.lt_succ_of_lt (h.popupId popup hknown)

theorem Sound.forgetToplevel (h : sm.Sound) (toplevel : ToplevelSurface) : (sm.forgetToplevel toplevel).Sound :=
  { h with
    toplevelIds := h.toplevelIds.sublist (List.erase_sublist.map _)
    toplevelId := fun t ht => h.toplevelId t (List.mem_of_mem_erase ht) }

theorem Sound.forgetPopup (h : sm.Sound) (popup : PopupSurface) : (sm.forgetPopup popup).Sound :=
  { h with
    popupIds := h.popupIds.sublist (List.erase_sublist.map _)
    popupId := fun p hp => h.popupId p (List.mem_of_mem_erase hp) }

/-- Known toplevels of one role object are one. -/
theorem Sound.toplevel_ext (h : sm.Sound) {t t' : ToplevelSurface} (ht : t ∈ sm.knownToplevels)
    (ht' : t' ∈ sm.knownToplevels) (hid : t.xdgToplevel = t'.xdgToplevel) : t = t' :=
  List.inj_on_of_nodup_map h.toplevelIds ht ht' hid

theorem Sound.popup_ext (h : sm.Sound) {p p' : PopupSurface} (hp : p ∈ sm.knownPopups) (hp' : p' ∈ sm.knownPopups)
    (hid : p.xdgPopup = p'.xdgPopup) : p = p' :=
  List.inj_on_of_nodup_map h.popupIds hp hp' hid

end Surfaces

/-! ## Tables -/

/-- What holds of the tables. -/
structure AppState.Sound (st : AppState) (sm : Surfaces) : Prop where
  toplevels : ∀ toplevel ∈ st.toplevels,
    toplevel ∈ sm.knownToplevels ∧ toplevel.wlSurface ∈ sm.alive ∧ sm.role toplevel.wlSurface = some .toplevel
  popups : ∀ popup ∈ st.popups,
    popup ∈ sm.knownPopups ∧ popup.wlSurface ∈ sm.alive ∧ sm.role popup.wlSurface = some .popup
  tiles : (st.layout.toplevels.map (·.wlSurface)).Nodup
  tiled : ∀ toplevel ∈ st.layout.toplevels, toplevel ∈ st.toplevels
  roots : ∀ pending ∈ st.pendingFrameCallbacks, ∀ root, pending.rootSurface = some root → st.isToplevel root
  traces : ∀ root, st.traceFrames root ≠ none → st.isToplevel root
  dirty : ∀ root ∈ st.rootlessDirtySurfaces, sm.role root = some .toplevel
  cursors : ∀ surface ∈ st.cursorSurfaces, sm.role surface = some .cursorImage

namespace AppState

variable {st : AppState} {sm sm' : Surfaces} {surface root : Surface} {wasToplevel : Bool}

theorem isToplevel_iff : st.isToplevel surface = true ↔ ∃ toplevel ∈ st.toplevels, toplevel.wlSurface = surface := by
  simp [isToplevel]

theorem Sound.role_of_isToplevel (h : st.Sound sm) (ht : st.isToplevel surface = true) :
    surface ∈ sm.alive ∧ sm.role surface = some .toplevel := by
  obtain ⟨toplevel, hmem, rfl⟩ := isToplevel_iff.1 ht
  exact (h.toplevels toplevel hmem).2

theorem isToplevel_root (h : st.rootToplevelIdForSurface sm surface = some root) : st.isToplevel root = true := by
  unfold rootToplevelIdForSurface at h
  simp only [Option.bind_eq_bind, Option.bind_eq_some_iff, Option.pure_def, Option.some.injEq] at h
  obtain ⟨_, _, _, _, toplevel, hfind, rfl⟩ := h
  exact isToplevel_iff.2 ⟨toplevel, List.mem_of_find?_eq_some hfind, rfl⟩

/-- More surfaces, more roles and other parents. -/
theorem Sound.mono (h : st.Sound sm) (halive : ∀ x ∈ sm.alive, x ∈ sm'.alive)
    (hrole : ∀ x r, sm.role x = some r → sm'.role x = some r)
    (htoplevels : ∀ t ∈ st.toplevels, t ∈ sm'.knownToplevels) (hpopups : ∀ p ∈ st.popups, p ∈ sm'.knownPopups) :
    st.Sound sm' where
  toplevels := fun t ht => ⟨htoplevels t ht, halive _ (h.toplevels t ht).2.1, hrole _ _ (h.toplevels t ht).2.2⟩
  popups := fun p hp => ⟨hpopups p hp, halive _ (h.popups p hp).2.1, hrole _ _ (h.popups p hp).2.2⟩
  tiles := h.tiles
  tiled := h.tiled
  roots := h.roots
  traces := h.traces
  dirty := fun root hroot => hrole _ _ (h.dirty root hroot)
  cursors := fun surface hs => hrole _ _ (h.cursors surface hs)

variable {p : PopupSurface} {t : ToplevelSurface} {x : Surface}

theorem mem_dirtyWith {root : Option Surface} (h : x ∈ st.dirtyWith root) :
    x ∈ st.rootlessDirtySurfaces ∨ root = some x := by
  unfold dirtyWith at h
  split at h
  · rcases Finset.mem_union.1 h with h | h
    · exact .inl h
    · exact .inr (Option.mem_toFinset.1 h)
  · exact .inl h

theorem Sound.dirtyWith_role (h : st.Sound sm) {root : Option Surface}
    (hroot : ∀ x, root = some x → sm.role x = some .toplevel) :
    ∀ x ∈ st.dirtyWith root, sm.role x = some .toplevel := by
  intro x hx
  rcases mem_dirtyWith hx with hx | hx
  · exact h.dirty x hx
  · exact hroot x hx

theorem Sound.role_root (h : st.Sound sm) (x : Surface) (hx : st.rootToplevelIdForSurface sm surface = some x) :
    sm.role x = some .toplevel := (h.role_of_isToplevel (isToplevel_root hx)).2

/-! ### Removal -/

theorem isToplevel_remove :
    (st.removeSurfaceFromScene sm surface wasToplevel).isToplevel x = true ↔ st.isToplevel x = true ∧ x ≠ surface := by
  rw [isToplevel_iff, isToplevel_iff]
  constructor
  · rintro ⟨toplevel, hmem, rfl⟩
    obtain ⟨hmem, hne⟩ := List.mem_filter.1 hmem
    exact ⟨⟨toplevel, hmem, rfl⟩, by simpa using hne⟩
  · rintro ⟨⟨toplevel, hmem, rfl⟩, hne⟩
    exact ⟨toplevel, List.mem_filter.2 ⟨hmem, by simpa using hne⟩, rfl⟩

theorem mem_dirty_remove (h : x ∈ (st.removeSurfaceFromScene sm surface wasToplevel).rootlessDirtySurfaces) :
    x ∈ st.rootlessDirtySurfaces ∧ (x = surface → wasToplevel = false) ∨
      wasToplevel = false ∧ st.rootToplevelIdForSurface sm surface = some x := by
  cases wasToplevel with
  | true =>
    have hx : x ∈ st.rootlessDirtySurfaces.erase surface := h
    exact .inl ⟨Finset.mem_of_mem_erase hx, fun he => absurd he (Finset.ne_of_mem_erase hx)⟩
  | false =>
    have hx : x ∈ (st.purge (st.retired sm surface) surface false).dirtyWith
        (st.rootToplevelIdForSurface sm surface) := h
    rcases mem_dirtyWith hx with hx | hx
    · exact .inl ⟨hx, fun _ => rfl⟩
    · exact .inr ⟨rfl, hx⟩

/-- A removal that knows whether the surface is a toplevel. -/
theorem Sound.remove (h : st.Sound sm) (hwas : wasToplevel = st.isToplevel surface) :
    (st.removeSurfaceFromScene sm surface wasToplevel).Sound sm where
  toplevels := fun t ht => h.toplevels t (List.mem_filter.1 ht).1
  popups := fun p hp => h.popups p (List.mem_filter.1 hp).1
  tiles := by
    change ((st.layout.removeTile surface).toplevels.map (·.wlSurface)).Nodup
    rw [Layout.toplevels_removeTile_of_nodup h.tiles]
    exact h.tiles.sublist (List.filter_sublist.map _)
  tiled := by
    intro t ht
    change t ∈ (st.layout.removeTile surface).toplevels at ht
    rw [Layout.toplevels_removeTile_of_nodup h.tiles] at ht
    exact List.mem_filter.2 ⟨h.tiled t (List.mem_filter.1 ht).1, (List.mem_filter.1 ht).2⟩
  roots := by
    intro pending hpending root hroot
    obtain ⟨hmem, hkept⟩ := List.mem_filter.1 hpending
    have hkept : pending.sourceSurface ∉ st.retired sm surface ∧
        ¬ (wasToplevel = true ∧ pending.rootSurface = some surface) := of_decide_eq_true hkept
    have hroot' := h.roots pending hmem root hroot
    rw [isToplevel_remove]
    refine ⟨hroot', ?_⟩
    rintro rfl
    exact hkept.2 ⟨hwas.trans hroot', hroot⟩
  traces := by
    intro root hroot
    change (if wasToplevel then Function.update st.traceFrames surface none else st.traceFrames) root ≠ none at hroot
    rw [isToplevel_remove]
    cases hw : wasToplevel with
    | true =>
      rw [hw, if_pos rfl] at hroot
      have hne : root ≠ surface := by
        rintro rfl
        simp at hroot
      rw [Function.update_of_ne hne] at hroot
      exact ⟨h.traces root hroot, hne⟩
    | false =>
      rw [hw, if_neg Bool.false_ne_true] at hroot
      refine ⟨h.traces root hroot, ?_⟩
      rintro rfl
      rw [hwas, h.traces root hroot] at hw
      cases hw
  dirty := by
    intro x hx
    rcases mem_dirty_remove hx with ⟨hx, -⟩ | ⟨-, hx⟩
    · exact h.dirty x hx
    · exact h.role_root x hx
  cursors := h.cursors

theorem mem_retired_self (hs : sm.Sound) (hsurface : surface ∈ sm.alive) : surface ∈ st.retired sm surface := by
  unfold retired sceneRoots
  rw [List.flatMap_cons, List.mem_append]
  exact .inl (hs.mem_tree.2 ⟨hsurface, Leads.refl _⟩)

theorem Sound.send (h : st.Sound sm) (message : CompositorMessage) : (st.send message).Sound sm :=
  ⟨h.toplevels, h.popups, h.tiles, h.tiled, h.roots, h.traces, h.dirty, h.cursors⟩

/-! ### Roles -/

/-- A known role object of the toplevels is the one destroyed. -/
theorem Sound.toplevel_of_known (hs : sm.Sound) (h : st.Sound sm) (ht : t ∈ sm.knownToplevels)
    (hknown : (st.toplevels.any fun known => known.xdgToplevel = t.xdgToplevel) = true) : t ∈ st.toplevels := by
  obtain ⟨known, hmem, hid⟩ := List.any_eq_true.1 hknown
  rw [← hs.toplevel_ext (h.toplevels known hmem).1 ht (by simpa using hid)]
  exact hmem

theorem Sound.popup_of_known (hs : sm.Sound) (h : st.Sound sm) (hp : p ∈ sm.knownPopups)
    (hknown : (st.popups.any fun known => known.xdgPopup = p.xdgPopup) = true) : p ∈ st.popups := by
  obtain ⟨known, hmem, hid⟩ := List.any_eq_true.1 hknown
  rw [← hs.popup_ext (h.popups known hmem).1 hp (by simpa using hid)]
  exact hmem

theorem Sound.not_isToplevel_of_role (h : st.Sound sm) {role : Role} (hrole : sm.role surface = some role)
    (hne : role ≠ .toplevel) : st.isToplevel surface = false := by
  rw [Bool.eq_false_iff]
  intro ht
  rw [(h.role_of_isToplevel ht).2] at hrole
  exact hne (Option.some.inj hrole).symm

theorem Sound.toplevelDestroyed (hs : sm.Sound) (h : st.Sound sm) (ht : t ∈ sm.knownToplevels) :
    (st.toplevelDestroyed sm t).Sound sm := by
  unfold AppState.toplevelDestroyed
  split
  · next hknown =>
    exact h.remove (isToplevel_iff.2 ⟨t, h.toplevel_of_known hs ht hknown, rfl⟩).symm
  · exact h

theorem Sound.popupDestroyed (hs : sm.Sound) (h : st.Sound sm) (hp : p ∈ sm.knownPopups) :
    (st.popupDestroyed sm p).Sound sm := by
  unfold AppState.popupDestroyed
  split
  · next hknown =>
    have hrole := (h.popups p (h.popup_of_known hs hp hknown)).2.2
    exact h.remove (h.not_isToplevel_of_role hrole (by decide)).symm
  · exact h

theorem not_mem_toplevelDestroyed (t : ToplevelSurface) : t ∉ (st.toplevelDestroyed sm t).toplevels := by
  unfold AppState.toplevelDestroyed
  split
  · intro hmem
    have hne := (List.mem_filter.1 hmem).2
    simp at hne
  · next hknown =>
    intro hmem
    exact hknown (List.any_eq_true.2 ⟨t, hmem, by simp⟩)

theorem Sound.not_mem_popupDestroyed (hs : sm.Sound) (h : st.Sound sm) (hp : p ∈ sm.knownPopups) :
    p ∉ (st.popupDestroyed sm p).popups := by
  unfold AppState.popupDestroyed
  split
  · next hknown =>
    intro hmem
    have hne := (List.mem_filter.1 hmem).2
    have halive := (h.popups p (h.popup_of_known hs hp hknown)).2.1
    simp [mem_retired_self hs halive] at hne
  · next hknown =>
    intro hmem
    exact hknown (List.any_eq_true.2 ⟨p, hmem, by simp⟩)

theorem Sound.forgetToplevel (h : st.Sound sm) (ht : t ∉ st.toplevels) : st.Sound (sm.forgetToplevel t) := by
  refine h.mono (fun _ hx => hx) (fun _ _ hr => hr) ?_ fun p hp => (h.popups p hp).1
  intro other hother
  refine (List.mem_erase_of_ne ?_).2 (h.toplevels other hother).1
  rintro rfl
  exact ht hother

theorem Sound.forgetPopup (h : st.Sound sm) (hp : p ∉ st.popups) : st.Sound (sm.forgetPopup p) := by
  refine h.mono (fun _ hx => hx) (fun _ _ hr => hr) (fun t ht => (h.toplevels t ht).1) ?_
  intro other hother
  refine (List.mem_erase_of_ne ?_).2 (h.popups other hother).1
  rintro rfl
  exact hp hother

/-- A surface no role of which is listed may be cleaned up. -/
theorem Sound.cleanup (h : st.Sound sm) (ht : st.isToplevel surface = false)
    (hp : ∀ p ∈ st.popups, p.wlSurface ≠ surface) : st.Sound (sm.cleanup surface) := by
  refine { h with toplevels := ?_, popups := ?_ }
  · intro t hmem
    obtain ⟨hknown, halive, hrole⟩ := h.toplevels t hmem
    refine ⟨hknown, List.mem_filter.2 ⟨halive, ?_⟩, hrole⟩
    have hne : t.wlSurface ≠ surface := by
      intro he
      rw [isToplevel_iff.2 ⟨t, hmem, he⟩] at ht
      cases ht
    simpa using hne
  · intro p hmem
    obtain ⟨hknown, halive, hrole⟩ := h.popups p hmem
    exact ⟨hknown, List.mem_filter.2 ⟨halive, by simpa using hp p hmem⟩, hrole⟩

theorem Sound.destroyed (hs : sm.Sound) (h : st.Sound sm) (hsurface : surface ∈ sm.alive) :
    (st.destroyed sm surface).Sound (sm.cleanup surface) := by
  unfold AppState.destroyed
  split
  · next hcursor =>
    have hrole := h.cursors surface hcursor
    have hsound : AppState.Sound { st with
        cursorSurfaces := st.cursorSurfaces.erase surface
        pendingFrameCallbacks := st.pendingFrameCallbacks.filter fun pending => pending.sourceSurface ≠ surface } sm :=
      { h with
        roots := fun pending hmem => h.roots pending (List.mem_filter.1 hmem).1
        cursors := fun s hmem => h.cursors s (Finset.mem_of_mem_erase hmem) }
    refine hsound.cleanup (h.not_isToplevel_of_role hrole (by decide)) ?_
    rintro p hp rfl
    rw [(h.popups p hp).2.2] at hrole
    cases hrole
  · refine ((h.remove rfl).cleanup ?_ ?_).send _
    · rw [Bool.eq_false_iff]
      exact fun ht => (isToplevel_remove.1 ht).2 rfl
    · rintro p hp rfl
      have hne := (List.mem_filter.1 hp).2
      simp [mem_retired_self hs hsurface] at hne

theorem Sound.withoutToplevel (hs : sm.Sound) (h : st.Sound sm) (surface : Surface) :
    (st.withoutToplevel sm surface).Sound sm ∧ (st.withoutToplevel sm surface).isToplevel surface = false := by
  unfold AppState.withoutToplevel
  split
  · next previous hfind =>
    have hmem := List.mem_of_find?_eq_some hfind
    have hsurface : previous.wlSurface = surface := by simpa using List.find?_some hfind
    refine ⟨h.toplevelDestroyed hs (h.toplevels previous hmem).1, ?_⟩
    have hknown : (st.toplevels.any fun known => known.xdgToplevel = previous.xdgToplevel) = true :=
      List.any_eq_true.2 ⟨previous, hmem, by simp⟩
    unfold AppState.toplevelDestroyed
    rw [if_pos hknown, Bool.eq_false_iff]
    exact fun ht => (isToplevel_remove.1 ht).2 hsurface.symm
  · next hfind =>
    refine ⟨h, ?_⟩
    rw [List.find?_eq_none] at hfind
    rw [Bool.eq_false_iff]
    intro ht
    obtain ⟨t, hmem, hsurface⟩ := isToplevel_iff.1 ht
    exact hfind t hmem (by simpa using hsurface)

theorem Sound.withoutPopup (hs : sm.Sound) (h : st.Sound sm) (surface : Surface) :
    (st.withoutPopup sm surface).Sound sm := by
  unfold AppState.withoutPopup
  split
  · next previous hfind => exact h.popupDestroyed hs (h.popups previous (List.mem_of_find?_eq_some hfind)).1
  · exact h

theorem Sound.newToplevel (hs : sm.Sound) (h : st.Sound sm) (hknown : t ∈ sm.knownToplevels)
    (halive : t.wlSurface ∈ sm.alive) (hrole : sm.role t.wlSurface = some .toplevel) :
    (st.newToplevel sm t).Sound sm := by
  unfold AppState.newToplevel
  split
  · exact h
  · obtain ⟨h, hnot⟩ := h.withoutToplevel hs t.wlSurface
    generalize st.withoutToplevel sm t.wlSurface = st at h hnot
    have htoplevel : ∀ x, st.isToplevel x = true → (st.toplevels ++ [t]).any (fun s => s.wlSurface = x) = true := by
      intro x hx
      rw [List.any_append, Bool.or_eq_true]
      exact .inl hx
    have hlayout : (if st.rootless then st.layout else st.layout.addTile t).toplevels = st.layout.toplevels ∨
        (if st.rootless then st.layout else st.layout.addTile t).toplevels = st.layout.toplevels ++ [t] := by
      split
      · exact .inl rfl
      · exact .inr (Layout.toplevels_addTile _ _)
    refine { h with toplevels := ?_, tiles := ?_, tiled := ?_, roots := ?_, traces := ?_, dirty := ?_ }
    · intro other hmem
      rcases List.mem_append.1 hmem with hmem | hmem
      · exact h.toplevels other hmem
      · obtain rfl := List.mem_singleton.1 hmem
        exact ⟨hknown, halive, hrole⟩
    · change ((if st.rootless then st.layout else st.layout.addTile t).toplevels.map (·.wlSurface)).Nodup
      rcases hlayout with hlayout | hlayout
      · rw [hlayout]
        exact h.tiles
      · rw [hlayout, List.map_append, List.nodup_append]
        refine ⟨h.tiles, List.nodup_singleton _, ?_⟩
        rintro a ha b hb rfl
        obtain ⟨other, hother, rfl⟩ := List.mem_map.1 ha
        rw [isToplevel_iff.2 ⟨other, h.tiled other hother, by simpa using hb⟩] at hnot
        cases hnot
    · intro other hmem
      change other ∈ (if st.rootless then st.layout else st.layout.addTile t).toplevels at hmem
      rcases hlayout with hlayout | hlayout
      · rw [hlayout] at hmem
        exact List.mem_append_left _ (h.tiled other hmem)
      · rw [hlayout] at hmem
        rcases List.mem_append.1 hmem with hmem | hmem
        · exact List.mem_append_left _ (h.tiled other hmem)
        · exact List.mem_append_right _ hmem
    · exact fun pending hmem root hroot => htoplevel root (h.roots pending hmem root hroot)
    · exact fun root hroot => htoplevel root (h.traces root hroot)
    · refine h.dirtyWith_role ?_
      intro x hx
      rw [← Option.some.inj hx]
      exact hrole

theorem Sound.newPopup (hs : sm.Sound) (h : st.Sound sm) (hknown : p ∈ sm.knownPopups)
    (halive : p.wlSurface ∈ sm.alive) (hrole : sm.role p.wlSurface = some .popup) (configured : Bool) :
    (st.newPopup sm p configured).Sound sm := by
  unfold AppState.newPopup
  split
  · exact h
  · have h := h.withoutPopup hs p.wlSurface
    generalize st.withoutPopup sm p.wlSurface = st at h
    dsimp only
    split
    · refine { h with popups := ?_, dirty := h.dirtyWith_role h.role_root }
      intro other hmem
      rcases List.mem_append.1 hmem with hmem | hmem
      · exact h.popups other hmem
      · obtain rfl := List.mem_singleton.1 hmem
        exact ⟨hknown, halive, hrole⟩
    · exact h

theorem Sound.repositionRequest (h : st.Sound sm) (p : PopupSurface) : (st.repositionRequest sm p).Sound sm :=
  { h with dirty := h.dirtyWith_role h.role_root }

/-! ### Commits and acknowledgements -/

theorem mem_newCallbacks {trace : Option Nat} {root : Option Surface} {visited : List Surface}
    {pending : PendingFrameCallback} (h : pending ∈ newCallbacks sm surface root trace visited) :
    pending.rootSurface = root ∧ pending.sourceSurface ∈ visited ∧
      pending.callback ∈ sm.frameCallbacks pending.sourceSurface := by
  unfold newCallbacks at h
  obtain ⟨x, hx, h⟩ := List.mem_flatMap.1 h
  obtain ⟨callback, hcallback, rfl⟩ := List.mem_map.1 h
  exact ⟨rfl, hx, hcallback⟩

theorem Sound.commit (h : st.Sound sm) (surface : Surface) (visited : List Surface)
    (buffers : Surface → Option (Option (Int × Int))) : (st.commit sm surface visited buffers).1.Sound sm := by
  unfold AppState.commit
  split
  · next hrole =>
    refine { h with cursors := ?_ }
    intro x hx
    rcases Finset.mem_insert.1 hx with rfl | hx
    · exact hrole
    · exact h.cursors x hx
  · refine { h with roots := ?_, traces := ?_, dirty := h.dirtyWith_role h.role_root }
    · intro pending hmem root hroot
      rcases List.mem_append.1 hmem with hmem | hmem
      · exact h.roots pending hmem root hroot
      · rw [(mem_newCallbacks hmem).1] at hroot
        exact isToplevel_root hroot
    · intro x hx
      dsimp only at hx
      split at hx
      · next hroot => exact isToplevel_root hroot.2
      · exact h.traces x hx

theorem commit_surfaces (st : AppState) (sm : Surfaces) (surface : Surface) (visited : List Surface)
    (buffers : Surface → Option (Option (Int × Int))) :
    ∃ callbacks, (st.commit sm surface visited buffers).2 = { sm with frameCallbacks := callbacks } := by
  unfold AppState.commit
  split
  · exact ⟨_, rfl⟩
  · exact ⟨_, rfl⟩

theorem Sound.takeFrameCallbacksFor (h : st.Sound sm) (root : Option Surface) :
    (st.takeFrameCallbacksFor sm root).2.Sound sm := by
  cases root with
  | none => exact { h with roots := nofun }
  | some root => exact { h with roots := fun pending hmem => h.roots pending (List.mem_filter.1 hmem).1 }

theorem Sound.cursorImage (h : st.Sound sm) (hrole : sm.role surface = some .cursorImage) :
    (st.cursorImage surface).Sound sm := by
  refine { h with roots := fun pending hmem => h.roots pending (List.mem_filter.1 hmem).1, cursors := ?_ }
  intro x hx
  rcases Finset.mem_insert.1 hx with rfl | hx
  · exact hrole
  · exact h.cursors x hx

theorem Sound.setRole (h : st.Sound sm) {role : Role} (hrole : sm.takesRole surface role = true) :
    st.Sound (sm.setRole surface role) :=
  h.mono (fun _ hx => hx) (fun _ _ hr => Surfaces.setRole_role hrole hr) (fun t ht => (h.toplevels t ht).1)
    fun p hp => (h.popups p hp).1

end AppState

/-! ## The world -/

structure World.Sound (w : World) : Prop where
  surfaces : w.surfaces.Sound
  app : w.app.Sound w.surfaces
  windows : ∀ surface ∈ w.windows, w.surfaces.role surface = some .toplevel

namespace World

variable {w w' : World} {sm : Surfaces} {app : AppState} {done : List Callback}

theorem Sound.next (h : w.Sound) (hs : sm.Sound) (ha : app.Sound sm)
    (hrole : ∀ x r, w.surfaces.role x = some r → sm.role x = some r) : (w.next sm app done).Sound where
  surfaces := hs
  app := ha
  windows := fun surface hsurface => hrole _ _ (h.windows surface hsurface)

theorem Sound.next_app (h : w.Sound) (ha : app.Sound w.surfaces) : (w.next w.surfaces app done).Sound :=
  h.next h.surfaces ha fun _ _ hr => hr

/-- The callbacks of surfaces are no matter. -/
theorem Sound.with_callbacks (h : w.Sound) (callbacks : Surface → List Callback) :
    ({ w with surfaces := { w.surfaces with frameCallbacks := callbacks } } : World).Sound where
  surfaces := { h.surfaces with }
  app := { h.app with }
  windows := h.windows

theorem Sound.commit (h : w.Sound) {surface : Surface} {callbacks : Nat} {visited : List Surface}
    {buffers : Surface → Option (Option (Int × Int))} (hstep : w.commit surface callbacks visited buffers = some w') :
    w'.Sound := by
  unfold World.commit at hstep
  split at hstep
  · obtain rfl := Option.some.inj hstep
    generalize Function.update w.surfaces.frameCallbacks surface _ = current
    have h := h.with_callbacks current
    have happ := h.app.commit surface visited buffers
    obtain ⟨left, hleft⟩ := w.app.commit_surfaces { w.surfaces with frameCallbacks := current } surface visited buffers
    rw [hleft]
    have hsound : World.Sound { w with
        surfaces := { w.surfaces with frameCallbacks := current }
        app := (w.app.commit { w.surfaces with frameCallbacks := current } surface visited buffers).1 } :=
      ⟨h.surfaces, happ, h.windows⟩
    have hsound := hsound.with_callbacks left
    exact ⟨hsound.surfaces, hsound.app, hsound.windows⟩
  · cases hstep

theorem Sound.deliver (h : w.Sound) {opened : Bool} (hstep : w.deliver opened = some w') : w'.Sound := by
  unfold World.deliver at hstep
  split at hstep
  · cases hstep
  · next message messages _ =>
    obtain rfl := Option.some.inj hstep
    have happ : ∀ redraw, AppState.Sound { w.app with messages := messages, needsRedraw := redraw } w.surfaces :=
      fun _ => { h.app with }
    split
    · split
      · next surface hguard =>
        refine { (h.next_app (happ true) : (w.next _ _ []).Sound) with windows := ?_ }
        intro x hx
        rcases List.mem_cons.1 hx with rfl | hx
        · exact (h.app.role_of_isToplevel hguard.2.2.1).2
        · exact h.windows x hx
      · exact h.next_app (happ w.app.needsRedraw)
    · exact { (h.next_app (happ w.app.needsRedraw) : (w.next _ _ []).Sound) with
        windows := fun x hx => h.windows x (List.mem_filter.1 hx).1 }
    · exact h.next_app (happ w.app.needsRedraw)
    · exact h.next_app (happ w.app.needsRedraw)

theorem Sound.step (h : w.Sound) {e : Event} (hstep : w.step e = some w') : w'.Sound := by
  cases e with
  | newSurface =>
    obtain rfl := Option.some.inj hstep
    exact h.next h.surfaces.newSurface
      (h.app.mono (fun _ hx => List.mem_cons_of_mem _ hx) (fun _ _ hr => hr) (fun t ht => (h.app.toplevels t ht).1)
        fun p hp => (h.app.popups p hp).1) fun _ _ hr => hr
  | setParent child parent =>
    obtain ⟨sm, hset, rfl⟩ := Option.map_eq_some_iff.1 hstep
    have hsm := h.surfaces.setParent hset
    obtain ⟨hrole, -, -, rfl⟩ := Surfaces.setParent_eq_some hset
    exact h.next hsm { h.app.setRole hrole with } fun _ _ hr => Surfaces.setRole_role hrole hr
  | unsetParent child =>
    obtain rfl := Option.some.inj hstep
    exact h.next (h.surfaces.unsetParent child) { h.app with } fun _ _ hr => hr
  | newToplevel surface =>
    obtain ⟨hrole, rfl⟩ := newToplevel_some hstep
    have hsm := h.surfaces.newToplevel hrole
    have happ : w.app.Sound (w.surfaces.newToplevel surface) :=
      h.app.mono (fun _ hx => hx) (fun _ _ hr => Surfaces.setRole_role hrole hr)
        (fun t ht => List.mem_cons_of_mem _ (h.app.toplevels t ht).1) fun p hp => (h.app.popups p hp).1
    refine h.next hsm (happ.newToplevel hsm List.mem_cons_self (Surfaces.takesRole_iff.1 hrole).1 ?_)
      fun _ _ hr => Surfaces.setRole_role hrole hr
    exact Function.update_self ..
  | newPopup surface parent configured =>
    obtain ⟨hrole, rfl⟩ := newPopup_some hstep
    have hsm := h.surfaces.newPopup hrole parent
    have happ : w.app.Sound (w.surfaces.newPopup surface parent) :=
      h.app.mono (fun _ hx => hx) (fun _ _ hr => Surfaces.setRole_role hrole hr)
        (fun t ht => (h.app.toplevels t ht).1) fun p hp => List.mem_cons_of_mem _ (h.app.popups p hp).1
    refine h.next hsm (happ.newPopup hsm List.mem_cons_self (Surfaces.takesRole_iff.1 hrole).1 ?_ configured)
      fun _ _ hr => Surfaces.setRole_role hrole hr
    exact Function.update_self ..
  | toplevelDestroyed t =>
    obtain ⟨hknown, rfl⟩ := toplevelDestroyed_some hstep
    exact h.next (h.surfaces.forgetToplevel t)
      ((h.app.toplevelDestroyed h.surfaces hknown).forgetToplevel (AppState.not_mem_toplevelDestroyed t))
      fun _ _ hr => hr
  | popupDestroyed p =>
    obtain ⟨hknown, rfl⟩ := popupDestroyed_some hstep
    exact h.next (h.surfaces.forgetPopup p)
      ((h.app.popupDestroyed h.surfaces hknown).forgetPopup (h.app.not_mem_popupDestroyed h.surfaces hknown))
      fun _ _ hr => hr
  | surfaceDestroyed surface =>
    obtain ⟨halive, rfl⟩ := surfaceDestroyed_some hstep
    exact h.next (h.surfaces.cleanup surface) (h.app.destroyed h.surfaces halive) fun _ _ hr => hr
  | repositionRequest p =>
    obtain rfl := Option.some.inj hstep
    exact h.next_app (h.app.repositionRequest p)
  | commit surface callbacks visited buffers => exact h.commit hstep
  | cursorImage surface =>
    obtain ⟨hrole, rfl⟩ := cursorImage_some hstep
    refine h.next (h.surfaces.setRole hrole) ((h.app.setRole hrole).cursorImage ?_)
      fun _ _ hr => Surfaces.setRole_role hrole hr
    exact Function.update_self ..
  | acknowledge root =>
    obtain rfl := Option.some.inj hstep
    exact h.next_app (h.app.takeFrameCallbacksFor root)
  | cursorClock =>
    obtain rfl := Option.some.inj hstep
    exact h.next_app { h.app with }
  | retireTraceFrames submitted =>
    obtain rfl := Option.some.inj hstep
    refine h.next_app { h.app with traces := ?_ }
    intro root hroot
    refine h.app.traces root ?_
    intro hnone
    simp [hnone] at hroot
  | input inputFocus pointerFocus keyboardFocus dragState startDragRequest =>
    obtain rfl := Option.some.inj hstep
    exact h.next_app { h.app with }
  | moveTile surface x y =>
    obtain rfl := Option.some.inj hstep
    refine h.next_app { h.app with tiles := ?_, tiled := ?_ }
    · rw [Layout.toplevels_moveTile]
      exact h.app.tiles
    · rw [Layout.toplevels_moveTile]
      exact h.app.tiled
  | deliver opened => exact h.deliver hstep
  | dirtyWindow surface =>
    obtain ⟨hwindow, rfl⟩ := dirtyWindow_some hstep
    refine h.next_app { h.app with dirty := ?_ }
    intro x hx
    rcases Finset.mem_insert.1 hx with rfl | hx
    · exact h.windows x hwindow
    · exact h.app.dirty x hx
  | cleanWindow surface =>
    obtain rfl := Option.some.inj hstep
    exact h.next_app { h.app with dirty := fun x hx => h.app.dirty x (Finset.mem_of_mem_erase hx) }

theorem sound {rootless tracing : Bool} {viewSize : Int × Int} (h : (scene rootless tracing viewSize).Reachable w) :
    w.Sound := by
  refine System.Reachable.invariant ?_ (fun _ _ _ hw hstep => hw.step hstep) h
  refine ⟨?_, ?_, nofun⟩
  · refine ⟨List.nodup_nil, nofun, nofun, ?_, List.nodup_nil, nofun, List.nodup_nil, nofun⟩
    intro x hx
    obtain ⟨y, hxy, -⟩ := Relation.TransGen.head'_iff.1 hx
    cases hxy
  · exact ⟨nofun, nofun, List.nodup_nil, nofun, nofun, fun root hroot => absurd rfl hroot, nofun, nofun⟩

end World

end CocoaWay.Scene
