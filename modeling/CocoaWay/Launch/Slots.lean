import CocoaWay.Launch.Ownership

/-!
# Holders of display slots

* `State.holders` : the slots of the displays in the tables and in cleanup; `State.attached` : the slots of the sessions
  that run or are being launched;
* `Settles` : a handler keeps the slots apart, and every managed display in its table;
* `settles_*` : one lemma for each handler; `slots_step`, `slots_reachable` : no slot has two holders or two sessions.
-/

namespace CocoaWay.Launch

open CocoaWay.Lib

variable {P : Type} [DecidableEq P]

/-! ## Slots -/

def Cleanup.slot? (c : Cleanup P) : Option String :=
  match c.key with
  | .session _ slot => some slot
  | .display slot => some slot
  | .abandoned => none

/-- The slot of a display in cleanup, unless its start had been given up before it reported. -/
def Cleanup.heldSlots (c : Cleanup P) : List String := if c.worker.isSome && !c.late then c.slot?.toList else []

/-- The slot of a session with a display of its own. -/
def ActiveSession.heldSlots (a : ActiveSession P) :
    List String := if a.displayWorker.isSome then [a.displaySlot] else []

/-- The slots held by running sessions and launches with their own display, by pending dedicated displays, by managed
displays and those being started, and by displays in cleanup. -/
def State.holders (s : State P) : List String :=
  s.active.flatMap ActiveSession.heldSlots ++ s.launchWorkers.values.map DisplayWorker.slot ++
    s.pendingDisplay.values ++
    s.managed.map ManagedDisplay.slot ++ s.pendingManaged.keys ++ s.cleanup.flatMap Cleanup.heldSlots

/-- The slots of the sessions that run or are being launched. -/
def State.attached (s : State P) : List String := s.active.map ActiveSession.displaySlot ++ s.pendingLaunch.values

/-- No slot has two holders, or two sessions. -/
structure Slots (s : State P) : Prop where
  held : s.holders.Nodup
  attached : s.attached.Nodup

/-- The handler keeps the slots apart and lets go of no managed display. -/
structure Settles (s t : State P) : Prop where
  slots : Slots s → Slots t
  managed : ∀ d ∈ s.managed, d ∈ t.managed

omit [DecidableEq P] in
theorem Settles.refl (s : State P) : Settles s s := ⟨id, fun _ hd => hd⟩

omit [DecidableEq P] in
theorem Settles.trans {s t u : State P} (h : Settles s t) (h' : Settles t u) : Settles s u :=
  ⟨fun hs => h'.slots (h.slots hs), fun d hd => h'.managed d (h.managed d hd)⟩

omit [DecidableEq P] in
theorem Slots.of_count {s t : State P} (h : Slots s) (hh : ∀ slot, t.holders.count slot ≤ s.holders.count slot)
    (ha : ∀ slot, t.attached.count slot ≤ s.attached.count slot) : Slots t := by
  refine ⟨List.nodup_iff_count_le_one.2 ?_, List.nodup_iff_count_le_one.2 ?_⟩
  · intro slot
    exact (hh slot).trans (List.nodup_iff_count_le_one.1 h.held slot)
  · intro slot
    exact (ha slot).trans (List.nodup_iff_count_le_one.1 h.attached slot)

omit [DecidableEq P] in
/-- The tables that say who holds a slot are the same. -/
theorem Settles.of_tables {s t : State P} (hh : t.holders = s.holders) (ha : t.attached = s.attached)
    (hm : t.managed = s.managed) : Settles s t :=
  ⟨fun h => ⟨hh ▸ h.held, ha ▸ h.attached⟩, fun _ hd => hm ▸ hd⟩

/-! ## Shared steps -/

variable (s : State P) (i : P)

theorem settles_dropReservation (r : Option (Reservation P)) : Settles s (s.dropReservation r) := by
  unfold State.dropReservation
  split
  · exact .refl s
  · split
    · exact .of_tables rfl rfl rfl
    · exact .refl s

theorem settles_removeOperation : Settles s (s.removeOperation i) := by
  unfold State.removeOperation
  split
  · exact .refl s
  · rename_i op _
    refine Settles.trans ?_ (settles_dropReservation _ op.reservation)
    exact .of_tables rfl rfl rfl

omit [DecidableEq P] in
theorem settles_reserveRuntime {s s' : State P} {op op' : Operation P} (h : s.reserveRuntime op = some (op', s')) :
    Settles s s' := by
  obtain ⟨-, -, -, -, he⟩ := reserveRuntime_spec h
  rw [he]
  exact .of_tables rfl rfl rfl

theorem settles_restartCheck (op : Operation P) : Settles s (s.restartCheck i op) := by
  unfold State.restartCheck
  split
  · split
    · exact settles_removeOperation s i
    · rename_i hr
      exact (settles_reserveRuntime hr).trans (.of_tables rfl rfl rfl)
  · exact .of_tables rfl rfl rfl

theorem settles_recheck (op : Operation P) (configured : Session P) : Settles s (s.recheck i op configured) := by
  have hnext : Settles s s.nextOperation := .of_tables rfl rfl rfl
  have hdrop := hnext.trans (settles_dropReservation s.nextOperation op.reservation)
  unfold State.recheck
  refine Settles.trans ?_ (settles_restartCheck _ i _)
  exact hdrop.trans (.of_tables rfl rfl rfl)

omit [DecidableEq P] in
/-- Sessions may change in what has nothing to do with their slots. -/
theorem settles_map_active (f : ActiveSession P → ActiveSession P)
    (hf : ∀ a, (f a).displaySlot = a.displaySlot ∧ (f a).displayWorker = a.displayWorker) :
    Settles s { s with active := s.active.map f } := by
  have hheld : (s.active.map f).flatMap ActiveSession.heldSlots = s.active.flatMap ActiveSession.heldSlots := by
    rw [List.flatMap_map]
    congr 1
    funext a
    unfold ActiveSession.heldSlots
    rw [(hf a).1, (hf a).2]
  have hslots : (s.active.map f).map ActiveSession.displaySlot = s.active.map ActiveSession.displaySlot := by
    rw [List.map_map]
    exact List.map_congr_left fun a _ => (hf a).1
  refine .of_tables ?_ ?_ rfl
  · simp only [State.holders, hheld]
  · simp only [State.attached, hslots]

/-! ## Sessions and managed displays that go to cleanup -/

section Retires

variable {s} {t : State P} {closed : List ManagedDisplay}

omit [DecidableEq P] in
theorem Retires.count_holders (h : Retires closed s t) (slot : String) :
    t.holders.count slot = s.holders.count slot + (closed.map ManagedDisplay.slot).count slot := by
  obtain ⟨gone, ha, hc⟩ := h.moved
  have hgone : (gone.map State.sessionCleanup).flatMap Cleanup.heldSlots = gone.flatMap ActiveSession.heldSlots := by
    rw [List.flatMap_map]
    congr 1
    funext a
    simp [Cleanup.heldSlots, ActiveSession.heldSlots, State.sessionCleanup, Cleanup.slot?]
  have hclosed : (closed.map (ManagedDisplay.cleanup (P := P))).flatMap Cleanup.heldSlots =
      closed.map ManagedDisplay.slot := by
    rw [List.flatMap_map, List.map_eq_flatMap]
    rfl
  have hx := (ha.flatMap_right ActiveSession.heldSlots).count_eq slot
  have hx' := (hc.flatMap_right Cleanup.heldSlots).count_eq slot
  simp only [List.flatMap_append, hgone, hclosed, List.count_append] at hx hx'
  simp only [State.holders, h.managed, h.launchWorkers, h.pendingDisplay, h.pendingManaged, List.count_append]
  omega

omit [DecidableEq P] in
theorem Retires.count_attached (h : Retires closed s t) (slot : String) :
    t.attached.count slot ≤ s.attached.count slot := by
  obtain ⟨gone, ha, -⟩ := h.moved
  have hx := (ha.map ActiveSession.displaySlot).count_eq slot
  simp only [List.map_append, List.count_append] at hx
  simp only [State.attached, h.pendingLaunch, List.count_append]
  omega

omit [DecidableEq P] in
theorem Retires.settles (h : Retires [] s t) : Settles s t := by
  refine ⟨fun hs => hs.of_count (fun slot => ?_) h.count_attached, fun d hd => h.managed ▸ hd⟩
  rw [h.count_holders]
  exact Nat.le_refl _

end Retires

/-! ## Free slots -/

/-- A launch with its own display is pending on the slot of that display. -/
def State.Placed (s : State P) : Prop := ∀ j w, s.launchWorkers.get j = some w → s.pendingLaunch.get j = some w.slot

/-- Only the outstanding workers may differ from those of a consistent view. -/
theorem placed_of_consistent {s : State P} {jobs : P → List (Job P)}
    (h : ∀ j, Consistent j { s.view j with jobs := jobs j }) : s.Placed := by
  intro j w hw
  have hj := h j
  have hvw : (s.view j).worker = some w := hw
  show (s.view j).launch = some w.slot
  revert hj hvw
  generalize s.view j = v
  generalize jobs j = outstanding
  rcases v with ⟨op, checking, validated, display, launch, worker, active, reported⟩
  intro hj hvw
  cases hj with
  | launching hid hslot =>
    dsimp only at hvw ⊢
    rw [hslot w hvw]
  | idle | checking | waiting | display => cases hvw

section Free

variable {s} {slot : String}

omit [DecidableEq P] in
theorem slotActive_eq_false : s.slotActive slot = false ↔ ∀ a ∈ s.active, a.displaySlot ≠ slot := by
  simp [State.slotActive]

omit [DecidableEq P] in
theorem profileDisplayPending_eq_false : s.profileDisplayPending slot = false ↔
    slot ∉ s.pendingDisplay.values ∧ slot ∉ s.pendingLaunch.values := by
  simp [State.profileDisplayPending]

omit [DecidableEq P] in
theorem not_mem_cleanup (h : s.displayBusy slot = false) : slot ∉ s.cleanup.flatMap Cleanup.heldSlots := by
  intro hm
  obtain ⟨c, hc, hs⟩ := List.mem_flatMap.1 hm
  have hbusy := List.any_eq_false.1 h c hc
  unfold Cleanup.heldSlots at hs
  split at hs
  · unfold Cleanup.slot? at hs
    cases hk : c.key <;> simp [hk] at hs hbusy <;> exact hbusy hs.symm
  · exact List.not_mem_nil hs

omit [DecidableEq P] in
theorem not_mem_attached (ha : s.slotActive slot = false) (hp : s.profileDisplayPending slot = false) :
    slot ∉ s.attached := by
  intro hm
  rcases List.mem_append.1 hm with hm | hm
  · obtain ⟨a, hmem, hs⟩ := List.mem_map.1 hm
    exact slotActive_eq_false.1 ha a hmem hs
  · exact (profileDisplayPending_eq_false.1 hp).2 hm

theorem not_mem_holders (hp : s.Placed) (h : s.slotFree slot = true) : slot ∉ s.holders := by
  simp only [State.slotFree, Bool.not_eq_true', Bool.or_eq_false_iff] at h
  obtain ⟨⟨⟨⟨hmanaged, hpending⟩, hbusy⟩, hopen⟩, hactive⟩ := h
  obtain ⟨hdisplay, hlaunch⟩ := profileDisplayPending_eq_false.1 hpending
  simp only [State.holders, List.mem_append, not_or]
  refine ⟨⟨⟨⟨⟨?_, ?_⟩, hdisplay⟩, ?_⟩, ?_⟩, not_mem_cleanup hbusy⟩
  · intro hm
    obtain ⟨a, ha, hs⟩ := List.mem_flatMap.1 hm
    unfold ActiveSession.heldSlots at hs
    split at hs
    · exact slotActive_eq_false.1 hactive a ha (List.mem_singleton.1 hs).symm
    · exact List.not_mem_nil hs
  · intro hm
    obtain ⟨w, hw, hs⟩ := List.mem_map.1 hm
    obtain ⟨j, hj⟩ := Table.mem_values_iff.1 hw
    exact hlaunch (Table.mem_values_iff.2 ⟨j, hs ▸ hp j w hj⟩)
  · simpa [State.slotManaged] using hopen
  · intro hm
    have hsome := AList.lookup_isSome.2 (AList.mem_keys.2 hm)
    rw [show (s.pendingManaged.lookup slot).isSome = false from hmanaged] at hsome
    cases hsome

end Free

/-! ## The slot a launch is given -/

section Assignment

variable {s} {i} {op : Operation P}

/-- The session of the operation stands for the profile. -/
theorem find_launchProfiles {configured : Session P} (hres : s.resolve i = some configured) (hid : op.session.id = i) :
    (s.launchProfiles i op.session).find? (fun c => c.id = i) = some op.session := by
  obtain ⟨hc, front, back, hsplit, hfront⟩ := List.find?_eq_some_iff_append.1 hres
  have hnone : front.findIdx? (fun c => decide (c.id = i)) = none := by
    apply List.findIdx?_eq_none_iff.2
    intro c hm
    simpa using hfront c hm
  have hindex : s.config.findIdx? (fun c => decide (c.id = i)) = some front.length := by
    rw [hsplit, List.findIdx?_append, hnone, List.findIdx?_cons, hc]
    simp
  have hfind : front.find? (fun c => decide (c.id = i)) = none := by
    apply List.find?_eq_none.2
    intro c hm
    simpa using hfront c hm
  unfold State.launchProfiles
  rw [hindex]
  dsimp only
  rw [hsplit, List.set_append_right _ _ (Nat.le_refl _), Nat.sub_self, List.set_cons_zero, List.find?_append, hfind,
    Option.none_or, List.find?_cons_of_pos (by simpa using hid)]

omit [DecidableEq P] in
theorem any_usedSlots (slot : String) :
    (s.usedSlots.any fun x => x.2 = slot) = (s.slotActive slot || s.profileDisplayPending slot) := by
  have hentries : ∀ t : Table P String, (t.entries.any fun e => e.2 = slot) = decide (slot ∈ t.values) := by
    intro t
    rw [Bool.eq_iff_iff, List.any_eq_true, decide_eq_true_iff, Table.values, List.mem_map]
    simp
  simp only [State.usedSlots, List.any_append, List.any_map, Function.comp_def, hentries, State.slotActive,
    State.profileDisplayPending, Bool.or_assoc]

/-- A profile without a session and without a launch uses no slot. -/
theorem usedSlots_other (ha : s.isActive i = false) (hd : s.pendingDisplay.get i = none)
    (hl : s.pendingLaunch.get i = none) : ∀ x ∈ s.usedSlots, x.1 ≠ i := by
  have hentries : ∀ t : Table P String, t.get i = none → ∀ e ∈ t.entries, e.1 ≠ i := by
    rintro t hnone ⟨j, slot⟩ he rfl
    exact absurd ((AList.mem_lookup_iff.2 he).symm.trans hnone) (Option.some_ne_none _)
  intro x hx
  rcases List.mem_append.1 hx with hx | hx
  · rcases List.mem_append.1 hx with hx | hx
    · obtain ⟨a, hmem, rfl⟩ := List.mem_map.1 hx
      simpa using List.any_eq_false.1 ha a hmem
    · obtain ⟨e, he, rfl⟩ := List.mem_map.1 hx
      exact hentries _ hd e he
  · obtain ⟨e, he, rfl⟩ := List.mem_map.1 hx
    exact hentries _ hl e he

/-- Without a conflict nobody uses the slot that the launch is given. -/
theorem unused_of_no_conflict {configured : Session P} (hres : s.resolve i = some configured) (hid : op.session.id = i)
    (hown : ∀ x ∈ s.usedSlots, x.1 ≠ i)
    (h : (State.activeDisplayConflictIndex i (s.launchProfiles i op.session) s.usedSlots (s.displayBusy "default")).isSome =
      false) :
    s.slotActive (chooseDisplayAssignment op.session s.defaultInUse).slot = false ∧
      s.profileDisplayPending (chooseDisplayAssignment op.session s.defaultInUse).slot = false := by
  have hothers : ∀ slot, (s.usedSlots.any fun x => x.1 ≠ i && x.2 = slot) = s.usedSlots.any fun x => x.2 = slot := by
    intro slot
    rw [Bool.eq_iff_iff, List.any_eq_true, List.any_eq_true]
    constructor
    · rintro ⟨x, hx, hp⟩
      exact ⟨x, hx, (Bool.and_eq_true_iff.1 hp).2⟩
    · rintro ⟨x, hx, hp⟩
      exact ⟨x, hx, Bool.and_eq_true_iff.2 ⟨decide_eq_true (hown x hx), hp⟩⟩
  have hdefault : (s.displayBusy "default" || s.usedSlots.any fun x => x.1 ≠ i && x.2 = "default") =
    s.defaultInUse := by
    rw [hothers, any_usedSlots, State.defaultInUse, Bool.or_comm]
  unfold State.activeDisplayConflictIndex at h
  rw [find_launchProfiles hres hid] at h
  dsimp only at h
  rw [hdefault, Option.isSome_map, List.isSome_find?, hothers, any_usedSlots] at h
  exact Bool.or_eq_false_iff.1 h

end Assignment

/-! ## Handlers that take a slot -/

section Take

variable {s} {i} {op : Operation P} {slot : String}

omit [DecidableEq P] in
theorem Slots.hold {s t : State P} (h : Slots s) (hf : slot ∉ s.holders) (hh : t.holders.Perm (slot :: s.holders))
    (ha : t.attached = s.attached) : Slots t :=
  ⟨hh.nodup_iff.2 (List.nodup_cons.2 ⟨hf, h.held⟩), ha ▸ h.attached⟩

theorem settles_launchOn (hl : s.pendingLaunch.get i = none) (hf : slot ∉ s.attached) :
    Settles s (s.launchOn i op slot) := by
  refine ⟨fun h => ⟨h.held, ?_⟩, fun _ hd => hd⟩
  have hperm : (s.launchOn i op slot).attached.Perm (slot :: s.attached) := by
    show (s.active.map ActiveSession.displaySlot ++ (s.pendingLaunch.set i slot).values).Perm _
    rw [Table.values_set_of_none hl]
    exact List.perm_middle
  exact hperm.nodup_iff.2 (List.nodup_cons.2 ⟨hf, h.attached⟩)

/-- The profile can be given a slot: it is configured, and neither runs nor launches. -/
structure Launchable (s : State P) (i : P) : Prop where
  placed : s.Placed
  configured : ∃ configured, s.resolve i = some configured
  inactive : s.isActive i = false
  display : s.pendingDisplay.get i = none
  launch : s.pendingLaunch.get i = none

theorem Launchable.of_tables {s t : State P} (h : Launchable s i) (hc : t.config = s.config) (ha : t.active = s.active)
    (hw : t.launchWorkers = s.launchWorkers) (hd : t.pendingDisplay = s.pendingDisplay)
    (hl : t.pendingLaunch = s.pendingLaunch) : Launchable t i where
  placed j w := by
    rw [hw, hl]
    exact h.placed j w
  configured := by
    unfold State.resolve
    rw [hc]
    exact h.configured
  inactive := by
    unfold State.isActive
    rw [ha]
    exact h.inactive
  display := hd ▸ h.display
  launch := hl ▸ h.launch

theorem settles_assignDisplay (h : Launchable s i) (hid : op.session.id = i) : Settles s (s.assignDisplay i op) := by
  obtain ⟨configured, hres⟩ := h.configured
  unfold State.assignDisplay
  split
  · exact settles_removeOperation s i
  · rename_i hconflict
    obtain ⟨hactive, hpending⟩ :=
      unused_of_no_conflict hres hid (usedSlots_other h.inactive h.display h.launch) (Bool.eq_false_iff.2 hconflict)
    dsimp only
    generalize chooseDisplayAssignment op.session s.defaultInUse = assignment at hactive hpending
    split
    · exact settles_removeOperation s i
    · rename_i hbusy
      cases assignment with
      | default => exact settles_launchOn h.launch (not_mem_attached hactive hpending)
      | dedicated slot =>
        dsimp only [DisplayAssignment.slot] at hactive hpending hbusy ⊢
        split
        · exact settles_removeOperation s i
        · rename_i hmanaged
          split
          · exact settles_launchOn h.launch (not_mem_attached hactive hpending)
          · rename_i hopen
            have hfree : s.slotFree slot = true := by
              simp [State.slotFree, hmanaged, hpending, hbusy, hopen, hactive]
            refine ⟨fun hs => hs.hold (not_mem_holders h.placed hfree) ?_ rfl, fun _ hd => hd⟩
            apply List.perm_iff_count.2
            intro x
            simp only [State.holders, State.validate, Table.values_set_of_none h.display, List.count_append,
              List.count_cons]
            omega

theorem settles_startPending {configured : Session P} (hp : s.Placed) (hres : s.resolve i = some configured)
    (ha : s.isActive i = false) (hid : ∀ op, s.operations.get i = some op → op.session.id = i) :
    Settles s (s.startPending i configured) := by
  unfold State.startPending
  split
  · exact .refl s
  · rename_i hnone
    rw [Bool.or_eq_true, not_or, Option.not_isSome_iff_eq_none, Option.not_isSome_iff_eq_none] at hnone
    have h : Launchable s i := ⟨hp, ⟨configured, hres⟩, ha, hnone.1, hnone.2⟩
    have hreserve : ∀ (t : State P) (op : Operation P), Settles s t → Launchable t i → op.session.id = i →
        Settles s (t.startOperation i op) := by
      intro t op hst ht hop
      unfold State.startOperation
      split
      · refine hst.trans (Settles.trans ?_ (settles_removeOperation _ i))
        exact .of_tables rfl rfl rfl
      · rename_i op' s' hr
        have hs := hst.trans (settles_reserveRuntime hr)
        obtain ⟨hsession, -, -, -, he⟩ := reserveRuntime_spec hr
        split
        · exact hs.trans (.of_tables rfl rfl rfl)
        · refine hs.trans (Settles.trans ?_ (settles_assignDisplay ?_ (hsession ▸ hop)))
          · exact .of_tables rfl rfl rfl
          · have hs' : Launchable s' i := by
              rw [he]
              exact ht.of_tables rfl rfl rfl rfl rfl
            exact hs'.of_tables rfl rfl rfl rfl rfl
    cases hop : s.operations.get i with
    | some op => exact hreserve s op (.refl s) h (hid op hop)
    | none =>
      exact hreserve s.nextOperation _ (.of_tables rfl rfl rfl) (h.of_tables rfl rfl rfl rfl rfl) (resolve_id hres)

theorem settles_startContainerSession (hp : s.Placed) (hid : ∀ op, s.operations.get i = some op → op.session.id = i) :
    Settles s (s.startContainerSession i) := by
  unfold State.startContainerSession
  split
  · exact .refl s
  · rename_i configured hres
    split
    · exact .refl s
    · refine (retires_reapSessions s).settles.trans ?_
      have hp' : s.reapSessions.Placed := hp
      have hres' : s.reapSessions.resolve i = some configured := hres
      have hid' : ∀ op, s.reapSessions.operations.get i = some op → op.session.id = i := hid
      generalize s.reapSessions = s at hp' hres' hid'
      dsimp only
      split
      · split
        · exact .refl s
        · refine Settles.trans ?_ (settles_removeOperation _ i)
          exact .of_tables rfl rfl rfl
      · rename_i hactive
        have hstart := settles_startPending hp' hres' (Bool.eq_false_iff.2 hactive) hid'
        split
        · split
          · exact .refl s
          · split
            · split
              · exact .refl s
              · rename_i hr
                exact (settles_reserveRuntime hr).trans (.of_tables rfl rfl rfl)
            · exact hstart
        · exact hstart

end Take

/-! ## Reports of workers -/

section Reports

variable {s} {i} {op : Operation P} {generation : Nat}

/-- A dedicated display that is given up goes to cleanup. -/
theorem count_holders_abandonDisplay (w : DisplayWorker) (slot : String) :
    (s.abandonDisplay i op w).holders.count slot = s.holders.count slot + [w.slot].count slot := by
  have hlast : (s.abandonDisplay i op w).holders = s.holders ++ [w.slot] := by
    simp [State.abandonDisplay, State.queueLaunchCleanup, State.unvalidate, State.holders, Cleanup.heldSlots,
      Cleanup.slot?]
  rw [hlast, List.count_append]

theorem settles_dedicatedDisplayStarted {w : DisplayWorker} (hcur : s.currentOperation i generation = some op)
    (hd : s.pendingDisplay.get i = some w.slot) (hw : s.launchWorkers.get i = none)
    (hl : s.pendingLaunch.get i = none) : Settles s (s.dedicatedDisplayStarted i generation w) := by
  unfold State.dedicatedDisplayStarted
  rw [hcur]
  simp only [Option.filter, hd, decide_true, if_true]
  have htaken : ∀ slot, s.holders.count slot =
      (State.holders { s with pendingDisplay := s.pendingDisplay.remove i }).count slot + [w.slot].count slot := by
    intro slot
    have hx := (Table.values_perm_remove hd).count_eq slot
    simp only [List.count_cons, List.count_nil] at hx ⊢
    simp only [State.holders, List.count_append, hx]
    omega
  have hattached : State.attached { s with pendingDisplay := s.pendingDisplay.remove i } = s.attached := rfl
  have hmanaged : State.managed { s with pendingDisplay := s.pendingDisplay.remove i } = s.managed := rfl
  have hlw : State.launchWorkers { s with pendingDisplay := s.pendingDisplay.remove i } = s.launchWorkers := rfl
  have hpl : State.pendingLaunch { s with pendingDisplay := s.pendingDisplay.remove i } = s.pendingLaunch := rfl
  generalize ({ s with pendingDisplay := s.pendingDisplay.remove i } : State P) = t at htaken hattached hmanaged hlw hpl
  have habandon : ∀ u : State P, Retires [] t u → Settles s (u.abandonDisplay i op w) := by
    intro u hu
    refine ⟨fun h => h.of_count ?_ ?_, ?_⟩
    · intro slot
      rw [count_holders_abandonDisplay, hu.count_holders, htaken]
      exact Nat.le_refl _
    · intro slot
      rw [← hattached]
      exact hu.count_attached slot
    · intro d hm
      show d ∈ u.managed
      rw [hu.managed, hmanaged]
      exact hm
  split
  · exact habandon t (.refl t)
  · split
    · exact habandon t (.refl t)
    · rename_i hbusy
      have hu := retires_reapSessions t
      split
      · exact habandon _ hu
      · rename_i hinactive
        generalize t.reapSessions = u at hu hinactive
        simp only [Bool.or_eq_true, not_or, Bool.not_eq_true] at hbusy hinactive
        have hpending : u.profileDisplayPending w.slot = false := by
          unfold State.profileDisplayPending
          rw [hu.pendingDisplay, hu.pendingLaunch]
          exact hbusy.1.1.2
        refine Settles.trans ?_ (settles_launchOn ?_ ?_)
        · refine ⟨fun h => h.of_count ?_ ?_, ?_⟩
          · intro slot
            have hx := hu.count_holders slot
            have hy := htaken slot
            have hnone : u.launchWorkers.get i = none := by rw [hu.launchWorkers, hlw, hw]
            simp only [State.holders, State.unvalidate, Table.values_set_of_none hnone, List.map_cons,
              List.count_append,
              List.count_cons, List.map_nil, List.count_nil] at hx hy ⊢
            omega
          · intro slot
            rw [← hattached]
            exact hu.count_attached slot
          · intro d hm
            show d ∈ u.managed
            rw [hu.managed, hmanaged]
            exact hm
        · show u.pendingLaunch.get i = none
          rw [hu.pendingLaunch, hpl, hl]
        · exact not_mem_attached hinactive.1.2 hpending

theorem settles_dedicatedDisplayFailed (slot : String) : Settles s (s.dedicatedDisplayFailed i generation slot) := by
  unfold State.dedicatedDisplayFailed
  split
  · exact .refl s
  · rename_i hfound
    have hd : s.pendingDisplay.get i = some slot := of_decide_eq_true (Option.filter_eq_some_iff.1 hfound).2
    refine Settles.trans ?_ (settles_removeOperation _ i)
    refine ⟨fun h => h.of_count ?_ fun _ => Nat.le_refl _, fun _ hm => hm⟩
    intro x
    have hx := (Table.values_perm_remove hd).count_eq x
    simp only [State.holders, State.unvalidate, List.count_append, List.count_cons] at hx ⊢
    omega

/-- The launch keeps its slot, as a session or in cleanup. -/
theorem settles_containerSessionLaunchFinished {slot : String} (report : Option LaunchReport)
    (hcur : s.currentOperation i generation = some op) (hl : s.pendingLaunch.get i = some slot)
    (hw : ∀ w, s.launchWorkers.get i = some w → w.slot = slot) :
    Settles s (s.containerSessionLaunchFinished i generation slot report) := by
  unfold State.containerSessionLaunchFinished
  rw [hcur]
  simp only [Option.filter, hl, decide_true, if_true]
  have hheld : ∀ x, s.holders.count x =
      (State.holders { s with
        pendingLaunch := s.pendingLaunch.remove i
        launchWorkers := s.launchWorkers.remove i
        operations := s.operations.remove i }).count x +
        (if (s.launchWorkers.get i).isSome then [slot] else []).count x := by
    intro x
    cases hget : s.launchWorkers.get i with
    | none =>
      rw [Table.remove_of_get_none hget]
      rfl
    | some w =>
      have hx := ((Table.values_perm_remove hget).map DisplayWorker.slot).count_eq x
      rw [List.map_cons, hw w hget] at hx
      simp only [List.count_cons, List.count_nil, Option.isSome_some, if_true] at hx ⊢
      simp only [State.holders, List.count_append, hx]
      omega
  have hattached : ∀ x, s.attached.count x =
      (State.attached { s with
        pendingLaunch := s.pendingLaunch.remove i
        launchWorkers := s.launchWorkers.remove i
        operations := s.operations.remove i }).count x + [slot].count x := by
    intro x
    have hx := (Table.values_perm_remove hl).count_eq x
    simp only [List.count_cons, List.count_nil] at hx ⊢
    simp only [State.attached, List.count_append, hx]
    omega
  have hmanaged : State.managed { s with
        pendingLaunch := s.pendingLaunch.remove i
        launchWorkers := s.launchWorkers.remove i
        operations := s.operations.remove i } = s.managed := rfl
  generalize ({ s with
        pendingLaunch := s.pendingLaunch.remove i
        launchWorkers := s.launchWorkers.remove i
        operations := s.operations.remove i } : State P) = t at hheld hattached hmanaged
  generalize s.launchWorkers.get i = worker at hheld
  have hcleanup : Settles s (t.queueLaunchCleanup i slot report worker op.reservation) := by
    refine ⟨fun h => h.of_count ?_ ?_, fun d hd => hmanaged ▸ hd⟩
    · intro x
      rw [hheld]
      apply Nat.le_of_eq
      simp only [State.queueLaunchCleanup, State.holders, Cleanup.heldSlots, Cleanup.slot?, List.flatMap_append,
        List.flatMap_singleton, List.count_append, Bool.not_false, Bool.and_true, Option.toList_some]
      omega
    · intro x
      rw [hattached]
      exact Nat.le_add_right _ _
  split
  · exact hcleanup
  · cases report with
    | some report =>
      refine ⟨fun h => h.of_count ?_ ?_, fun d hd => hmanaged ▸ hd⟩
      · intro x
        rw [hheld]
        apply Nat.le_of_eq
        simp only [State.completeContainerSessionLaunch, State.holders, ActiveSession.heldSlots, List.flatMap_append,
          List.flatMap_singleton, List.count_append]
        omega
      · intro x
        rw [hattached]
        apply Nat.le_of_eq
        simp only [State.completeContainerSessionLaunch, State.attached, List.map_append, List.map_cons, List.map_nil,
          List.count_append]
        omega
    | none =>
      cases worker with
      | some w => exact hcleanup
      | none =>
        refine Settles.trans ?_ (settles_dropReservation t op.reservation)
        refine ⟨fun h => h.of_count ?_ ?_, fun d hd => hmanaged ▸ hd⟩
        · intro x
          rw [hheld]
          exact Nat.le_add_right _ _
        · intro x
          rw [hattached]
          exact Nat.le_add_right _ _

end Reports

/-! ## Managed displays -/

section Managed

variable {s} {slot : String} {generation : Nat}

omit [DecidableEq P] in
theorem count_holders_pendingManaged (h : slot ∈ s.pendingManaged.keys) (x : String) : s.holders.count x =
    (State.holders { s with pendingManaged := s.pendingManaged.remove slot }).count x + [slot].count x := by
  have hx := (List.perm_cons_erase h).count_eq x
  simp only [List.count_cons, List.count_nil] at hx ⊢
  simp only [State.holders, Table.remove, AList.keys_erase, List.count_append, hx]
  omega

omit [DecidableEq P] in
theorem mem_keys_pendingManaged {g : Nat} (h : s.pendingManaged.get slot = some g) : slot ∈ s.pendingManaged.keys :=
  AList.mem_keys.1 (AList.lookup_isSome.1 (Option.isSome_of_eq_some h))

omit [DecidableEq P] in
theorem count_holders_queueDisplayCleanup (w : DisplayWorker) (late : Bool) (x : String) :
    (s.queueDisplayCleanup w late).holders.count x = s.holders.count x + (if late then [] else [w.slot]).count x := by
  have hlast : (s.queueDisplayCleanup w late).holders = s.holders ++ (if late then [] else [w.slot]) := by
    cases late <;> simp [State.queueDisplayCleanup, State.holders, Cleanup.heldSlots, Cleanup.slot?]
  rw [hlast, List.count_append]

omit [DecidableEq P] in
theorem settles_managedDisplayStarted (w : DisplayWorker) : Settles s (s.managedDisplayStarted generation w) := by
  unfold State.managedDisplayStarted
  split
  · refine ⟨fun h => h.of_count (fun x => ?_) fun _ => Nat.le_refl _, fun _ hd => hd⟩
    rw [count_holders_queueDisplayCleanup]
    exact Nat.le_refl _
  · rename_i hget
    have hheld := count_holders_pendingManaged (mem_keys_pendingManaged (not_not.1 hget))
    dsimp only
    split
    · refine ⟨fun h => h.of_count (fun x => ?_) fun _ => Nat.le_refl _, fun _ hd => hd⟩
      rw [count_holders_queueDisplayCleanup, hheld]
      exact Nat.le_refl _
    · refine ⟨fun h => h.of_count (fun x => ?_) fun _ => Nat.le_refl _, fun _ hd => List.mem_append_left _ hd⟩
      rw [hheld]
      apply Nat.le_of_eq
      simp only [State.holders, ManagedDisplay.slot, List.map_append, List.map_cons, List.map_nil, List.count_append]
      omega

omit [DecidableEq P] in
theorem settles_managedDisplayFailed : Settles s (s.managedDisplayFailed generation slot) := by
  unfold State.managedDisplayFailed
  split
  · rename_i hget
    refine ⟨fun h => h.of_count (fun x => ?_) fun _ => Nat.le_refl _, fun _ hd => hd⟩
    rw [count_holders_pendingManaged (mem_keys_pendingManaged hget)]
    exact Nat.le_add_right _ _
  · exact .refl s

omit [DecidableEq P] in
theorem slots_closeManagedDisplay (h : Slots s) : Slots (s.closeManagedDisplay slot) := by
  unfold State.closeManagedDisplay
  split
  · exact h
  · split
    · rename_i hsome
      obtain ⟨g, hget⟩ := Option.isSome_iff_exists.1 hsome
      refine h.of_count (fun x => ?_) fun _ => Nat.le_refl _
      rw [count_holders_pendingManaged (mem_keys_pendingManaged hget)]
      exact Nat.le_add_right _ _
    · split
      · exact h
      · rename_i d hd
        refine h.of_count (fun x => Nat.le_of_eq ?_) fun _ => Nat.le_refl _
        have hx := ((find?_cons_eraseP_perm hd).map ManagedDisplay.slot).count_eq x
        rw [count_holders_queueDisplayCleanup]
        simp only [State.holders, ManagedDisplay.slot, List.map_cons, List.count_append, List.count_cons,
          List.count_nil,
          Bool.false_eq_true, if_false] at hx ⊢
        omega

theorem slots_reapManaged (h : Slots s) : Slots s.reapManaged := by
  have hr := retires_reapManaged s
  refine h.of_count (fun x => ?_) hr.count_attached
  rw [hr.count_holders]
  have hx := ((List.filter_append_perm (fun d : ManagedDisplay =>
    d.exited) s.managed).map ManagedDisplay.slot).count_eq x
  simp only [List.map_append, List.count_append] at hx
  simp only [State.holders, List.count_append]
  omega

theorem slots_createManagedDisplay (hp : s.Placed) (h : Slots s) (requested : Option String) :
    Slots (s.createManagedDisplay requested) := by
  have hr := retires_reapManaged s
  have hreap := slots_reapManaged h
  have hplaced : s.reapManaged.Placed := by
    intro j w
    rw [hr.launchWorkers, hr.pendingLaunch]
    exact hp j w
  unfold State.createManagedDisplay
  generalize s.reapManaged = t at hreap hplaced
  dsimp only
  generalize requested.getD t.nextManagedDisplaySlot = slot
  split
  · rename_i hfree
    have hmem := not_mem_holders hplaced hfree
    refine hreap.hold hmem ?_ rfl
    have hkeys : (t.pendingManaged.set slot t.displaySequence).keys = slot :: t.pendingManaged.keys := by
      unfold Table.set
      rw [AList.keys_insert, List.erase_of_not_mem]
      intro hk
      apply hmem
      simp only [State.holders, List.mem_append]
      exact .inl (.inr hk)
    apply List.perm_iff_count.2
    intro x
    simp only [State.holders, hkeys, List.count_append, List.count_cons]
    omega
  · exact hreap

end Managed

/-! ## One handler -/

section Handle

variable {i : P} {v : View P} {generation : Nat} {slot : String}

omit [DecidableEq P] in
theorem Consistent.display_reported (h : Consistent i { v with jobs := .display i generation slot :: v.jobs }) :
    ∃ op, v.op = some op ∧ op.session.id = i ∧ op.generation = generation ∧ v.display = some slot ∧ v.worker = none ∧
      v.launch = none := by
  rcases v with ⟨op, checking, validated, display, launch, worker, active, jobs⟩
  cases h with
  | display hid => exact ⟨_, rfl, hid, rfl, rfl, rfl, rfl⟩

omit [DecidableEq P] in
theorem Consistent.launch_reported (h : Consistent i { v with jobs := .launch i generation slot :: v.jobs }) :
    ∃ op, v.op = some op ∧ op.session.id = i ∧ op.generation = generation ∧ v.launch = some slot ∧
      ∀ w, v.worker = some w → w.slot = slot := by
  rcases v with ⟨op, checking, validated, display, launch, worker, active, jobs⟩
  cases h with
  | launching hid hw => exact ⟨_, rfl, hid, rfl, rfl, hw⟩

/-- The messages that may let go of a managed display. -/
def Message.managesDisplays : Message P → Bool
  | .createManaged _ | .closeManaged _ => true
  | _ => false

theorem settles_handle {s : State P} {m : Message P}
    (h : ∀ i, Consistent i { s.view i with jobs := m.jobOf i ++ (s.view i).jobs })
    (hm : m.managesDisplays = false) : Settles s (s.handle m) := by
  have hplaced : s.Placed := placed_of_consistent h
  have hid : ∀ i op, s.operations.get i = some op → op.session.id = i := fun i op hop => (h i).op_id hop
  have hreport : ∀ i (job : Job P), job.profile? = some i → m.job? = some job →
      Consistent i { s.view i with jobs := job :: (s.view i).jobs } := by
    intro i job hp hjob
    have hi := h i
    rw [show m.jobOf i = [job] by simp [Message.jobOf, hjob, hp]] at hi
    exact hi
  cases m with
  | check i =>
    show Settles s (s.checkContainerSession i)
    unfold State.checkContainerSession
    split
    · split
      · exact .of_tables rfl rfl rfl
      · exact .refl s
    · exact .refl s
  | start i => exact settles_startContainerSession hplaced (hid i)
  | resume i g =>
    show Settles s (s.resumeContainerSession i g)
    unfold State.resumeContainerSession
    split
    · exact .refl s
    · split
      · exact .refl s
      · exact settles_startContainerSession hplaced (hid i)
  | stop i =>
    have hcancel : Settles s (s.cancelPending i) := by
      unfold State.cancelPending State.cancelOperation
      split
      · split
        · exact .of_tables rfl rfl rfl
        · refine Settles.trans ?_ (settles_removeOperation _ i)
          exact .of_tables rfl rfl rfl
      · exact .refl s
    show Settles s (s.stopContainerSession i)
    unfold State.stopContainerSession
    dsimp only
    split
    · refine hcancel.trans ?_
      exact settles_map_active _ _ (fun a => by unfold State.markStopping; split <;> exact ⟨rfl, rfl⟩)
    · exact hcancel
  | forceStop i =>
    show Settles s (s.forceStopContainerSession i)
    unfold State.forceStopContainerSession
    split
    · exact .of_tables rfl rfl rfl
    · exact (retires_stopActive s i).settles
  | createManaged slot => cases hm
  | closeManaged slot => cases hm
  | checked i g ok =>
    show Settles s (s.containerSessionChecked i g ok)
    unfold State.containerSessionChecked
    split
    · exact .refl s
    · refine Settles.trans (t := { s with checks := s.checks.erase i }) (.of_tables rfl rfl rfl) ?_
      dsimp only
      split
      · exact settles_removeOperation _ i
      · split
        · exact settles_removeOperation _ i
        · split
          · exact settles_recheck _ i _ _
          · split
            · exact .of_tables rfl rfl rfl
            · exact settles_removeOperation _ i
  | displayStarted i g w =>
    obtain ⟨op, hop, hown, hgen, hd, hw, hl⟩ := (hreport i _ rfl rfl).display_reported
    exact settles_dedicatedDisplayStarted (hgen ▸ currentOperation_of_view hop hown) hd hw hl
  | displayFailed i g slot => exact settles_dedicatedDisplayFailed slot
  | launchFinished i g slot report =>
    obtain ⟨op, hop, hown, hgen, hl, hw⟩ := (hreport i _ rfl rfl).launch_reported
    exact settles_containerSessionLaunchFinished report (hgen ▸ currentOperation_of_view hop hown) hl hw
  | managedStarted g w => exact settles_managedDisplayStarted w
  | managedFailed g slot => exact settles_managedDisplayFailed

end Handle

/-! ## Runs -/

section Runs

variable {s s' : State P}

theorem slots_handle {m : Message P} {queue : List (Message P)} (hq : s.queue = m :: queue)
    (hc : ∀ i, Consistent i (s.view i)) (h : Slots s) : Slots (State.handle { s with queue := queue } m) := by
  have hrest : Slots { s with queue := queue } := ⟨h.held, h.attached⟩
  have hcons : ∀ i, Consistent i { State.view { s with queue := queue } i with
      jobs := m.jobOf i ++ (State.view { s with queue := queue } i).jobs } :=
    fun i => view_of_queue hq i ▸ hc i
  have hplaced : State.Placed { s with queue := queue } := placed_of_consistent hcons
  cases m with
  | createManaged slot => exact slots_createManagedDisplay hplaced hrest slot
  | closeManaged slot => exact slots_closeManagedDisplay hrest
  | _ => exact (settles_handle hcons rfl).slots hrest

theorem slots_step {e : Event P} (hc : ∀ i, Consistent i (s.view i)) (h : Slots s) (hs : step s e = some s') :
    Slots s' := by
  cases e with
  | user m =>
    obtain ⟨-, rfl⟩ := step_user hs
    exact ⟨h.held, h.attached⟩
  | finish job ok =>
    obtain ⟨-, rfl⟩ := step_finish hs
    exact ⟨h.held, h.attached⟩
  | handle =>
    obtain ⟨m, queue, hq, rfl⟩ := step_handle hs
    exact slots_handle hq hc h
  | edit config =>
    cases hs
    exact ⟨h.held, h.attached⟩
  | sessionExits i =>
    cases hs
    exact (settles_map_active s _ fun a => by unfold State.markExited; split <;> exact ⟨rfl, rfl⟩).slots h
  | managedExits slot =>
    cases hs
    have hkeep : (s.managedExits slot).managed.map ManagedDisplay.slot = s.managed.map ManagedDisplay.slot := by
      unfold State.managedExits
      rw [List.map_map]
      apply List.map_congr_left
      intro d _
      show ManagedDisplay.slot (if d.slot = slot then { d with exited := true } else d) = _
      split <;> rfl
    refine ⟨?_, h.attached⟩
    have hheld := h.held
    unfold State.holders at hheld ⊢
    rw [hkeep]
    exact hheld
  | maintain =>
    cases hs
    exact (retires_reapSessions _).settles.slots (slots_reapManaged h)
  | release index =>
    obtain ⟨c, hi, rfl⟩ := step_release hs
    refine (settles_dropReservation _ c.reservation).slots (h.of_count ?_ fun _ => Nat.le_refl _)
    intro slot
    obtain ⟨hlt, -⟩ := List.getElem?_eq_some_iff.1 hi
    have hx := ((List.getElem_cons_eraseIdx_perm hlt).flatMap_right Cleanup.heldSlots).count_eq slot
    simp only [List.flatMap_cons, List.count_append] at hx
    simp only [State.holders, List.count_append]
    omega

theorem slots_reachable (h : (system P).Reachable s) : Slots s := by
  have hboth : (∀ i, Consistent i (s.view i)) ∧ Slots s := by
    refine System.Reachable.invariant (I := fun s => (∀ i, Consistent i (s.view i)) ∧ Slots s) ?_ ?_ h
    · exact ⟨fun _ => .idle (Nat.zero_le 1), List.nodup_nil, List.nodup_nil⟩
    · intro s e s' hi hs
      exact ⟨consistent_step hi.1 hs, slots_step hi.1 hi.2 hs⟩
  exact hboth.2

end Runs

end CocoaWay.Launch
