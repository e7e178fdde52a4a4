import CocoaWay.Launch.Slots

/-!
# Managed displays and their sessions

* `Single` : a profile has at most one running session; `absent_stopActive`, `absent_foldl_stopActive` : stopped
  profiles have none;
* `reapManaged_stops` : an exited display takes its sessions along; `managed_step` : what becomes of a managed display
  in a step;
* `displaySlots_guarantees` : exclusive slots, and displays that stay as long as they are used.
-/

namespace CocoaWay.Launch

open CocoaWay.Lib

variable {P : Type} [DecidableEq P]

/-! ## Sessions of an exited display -/

/-- A profile has at most one running session. -/
def State.Single (s : State P) : Prop := ∀ i, (s.active.filter fun a => a.profile = i).length ≤ 1

section Stopped

variable {s t : State P} {i : P} {d : ManagedDisplay}

theorem single_of_consistent (h : ∀ i, Consistent i (s.view i)) : s.Single := by
  intro i
  have hi := h i
  show (s.view i).active.length ≤ 1
  revert hi
  generalize s.view i = v
  intro hi
  cases hi with
  | idle ha => exact ha
  | checking hid ha => exact ha
  | waiting hid ha hc => exact ha
  | display | launching => exact Nat.zero_le 1

theorem State.Single.sublist (h : s.Single) (ht : t.active.Sublist s.active) : t.Single :=
  fun i => ((ht.filter _).length_le).trans (h i)

theorem stopActive_sublist : (s.stopActive i).active.Sublist s.active := by
  unfold State.stopActive
  split
  · exact List.Sublist.refl _
  · exact List.eraseP_sublist

theorem foldl_stopActive_sublist (l : List P) : (l.foldl State.stopActive s).active.Sublist s.active := by
  induction l generalizing s with
  | nil => exact List.Sublist.refl _
  | cons i l ih => exact ih.trans stopActive_sublist

theorem absent_stopActive (h : s.Single) : ∀ a ∈ (s.stopActive i).active, a.profile ≠ i := by
  intro a ha hp
  unfold State.stopActive at ha
  split at ha
  · rename_i hnone
    exact absurd hp (by simpa using List.find?_eq_none.1 hnone a ha)
  · rename_i b hb
    have hperm := (find?_cons_eraseP_perm hb).filter fun a => decide (a.profile = i)
    have hbp : decide (b.profile = i) = true := by simpa using List.find?_some hb
    rw [List.filter_cons_of_pos (p := fun a : ActiveSession P => decide (a.profile = i)) hbp] at hperm
    have hlen := hperm.length_eq
    have hpos : 0 < ((s.active.eraseP fun a => a.profile = i).filter fun a => a.profile = i).length :=
      List.length_pos_of_mem (List.mem_filter.2 ⟨ha, decide_eq_true hp⟩)
    have := h i
    rw [List.length_cons] at hlen
    omega

theorem absent_foldl_stopActive {l : List P} (h : s.Single) (hi : i ∈ l) :
    ∀ a ∈ (l.foldl State.stopActive s).active, a.profile ≠ i := by
  induction l generalizing s with
  | nil => exact absurd hi List.not_mem_nil
  | cons j l ih =>
    intro a ha
    rcases List.mem_cons.1 hi with rfl | hi
    · exact absent_stopActive h a ((foldl_stopActive_sublist l).subset ha)
    · exact ih (h.sublist stopActive_sublist) hi a ha

theorem reapManagedDisplay_sublist : (s.reapManagedDisplay d).active.Sublist s.active := foldl_stopActive_sublist _

theorem foldl_reapManagedDisplay_sublist (l : List ManagedDisplay) :
    (l.foldl State.reapManagedDisplay s).active.Sublist s.active := by
  induction l generalizing s with
  | nil => exact List.Sublist.refl _
  | cons d l ih => exact ih.trans reapManagedDisplay_sublist

theorem reapManagedDisplay_stops (h : s.Single) : ∀ a ∈ (s.reapManagedDisplay d).active, a.displaySlot ≠ d.slot := by
  intro a ha hslot
  have hmem : a ∈ s.active := reapManagedDisplay_sublist.subset ha
  refine absent_foldl_stopActive h ?_ a ha rfl
  exact List.mem_map.2 ⟨a, List.mem_filter.2 ⟨hmem, decide_eq_true hslot⟩, rfl⟩

theorem foldl_reapManagedDisplay_stops {l : List ManagedDisplay} (h : s.Single) (hd : d ∈ l) :
    ∀ a ∈ (l.foldl State.reapManagedDisplay s).active, a.displaySlot ≠ d.slot := by
  induction l generalizing s with
  | nil => exact absurd hd List.not_mem_nil
  | cons d' l ih =>
    intro a ha
    rcases List.mem_cons.1 hd with rfl | hd
    · exact reapManagedDisplay_stops h a ((foldl_reapManagedDisplay_sublist l).subset ha)
    · exact ih (h.sublist reapManagedDisplay_sublist) hd a ha

theorem reapManaged_managed : s.reapManaged.managed = s.managed.filter fun d => !d.exited :=
    (retires_reapManaged s).managed

theorem reapManaged_stops (h : s.Single) (hd : d ∈ s.managed) (he : d.exited = true) :
    ∀ a ∈ s.reapManaged.active, a.displaySlot ≠ d.slot :=
  foldl_reapManagedDisplay_stops (s := { s with managed := s.managed.filter fun d => !d.exited }) h
    (List.mem_filter.2 ⟨hd, he⟩)

end Stopped

/-! ## Managed displays that go -/

/-- The display goes when nobody uses it, or when it has exited, and takes its sessions along. -/
structure LetsGo (s t : State P) (d : ManagedDisplay) : Prop where
  unused : d.exited = false → d.slot ∉ s.attached
  stopped : ∀ a ∈ t.active, a.displaySlot ≠ d.slot

section Managed

variable {s s' : State P} {d : ManagedDisplay}

theorem reapManaged_letsGo (h : s.Single) (hd : d ∈ s.managed)
    (hgone : ∀ d' ∈ s.reapManaged.managed, d'.worker ≠ d.worker) :
    LetsGo s s.reapManaged d := by
  have he : d.exited = true := by
    by_contra hne
    refine hgone d ?_ rfl
    rw [reapManaged_managed]
    exact List.mem_filter.2 ⟨hd, by simpa using hne⟩
  refine ⟨fun hf => ?_, reapManaged_stops h hd he⟩
  rw [he] at hf
  cases hf

theorem createManagedDisplay_letsGo {slot : Option String} (h : s.Single) (hd : d ∈ s.managed)
    (hgone : ∀ d' ∈ (s.createManagedDisplay slot).managed, d'.worker ≠ d.worker) :
    LetsGo s (s.createManagedDisplay slot) d := by
  have hsame : (s.createManagedDisplay slot).managed = s.reapManaged.managed ∧
      (s.createManagedDisplay slot).active = s.reapManaged.active := by
    unfold State.createManagedDisplay
    dsimp only
    split <;> exact ⟨rfl, rfl⟩
  rw [hsame.1] at hgone
  obtain ⟨hunused, hstopped⟩ := reapManaged_letsGo h hd hgone
  exact ⟨hunused, hsame.2 ▸ hstopped⟩

omit [DecidableEq P] in
/-- Only a display that no session uses is closed. -/
theorem closeManagedDisplay_letsGo {slot : String} (hd : d ∈ s.managed)
    (hgone : ∀ d' ∈ (s.closeManagedDisplay slot).managed, d'.worker ≠ d.worker) :
    LetsGo s (s.closeManagedDisplay slot) d := by
  unfold State.closeManagedDisplay at hgone ⊢
  split at hgone
  · exact absurd rfl (hgone d hd)
  · rename_i hguard
    rw [if_neg hguard]
    simp only [Bool.or_eq_true, not_or, Bool.not_eq_true] at hguard
    obtain ⟨⟨-, hpending⟩, hactive⟩ := hguard
    split at hgone
    · exact absurd rfl (hgone d hd)
    · rename_i hstarting
      rw [if_neg hstarting]
      split at hgone
      · exact absurd rfl (hgone d hd)
      · rename_i closed hclosed
        have hslot : d.slot = slot := by
          by_contra hne
          refine hgone d ?_ rfl
          exact (List.mem_eraseP_of_neg (by simpa using hne)).2 hd
        subst hslot
        exact ⟨fun _ => not_mem_attached hactive hpending, slotActive_eq_false.1 hactive⟩

/-- What becomes of a managed display in a step. -/
theorem managed_step {e : Event P} (hc : ∀ i, Consistent i (s.view i)) (hs : step s e = some s') (hd : d ∈ s.managed)
    (hgone : ∀ d' ∈ s'.managed, d'.worker ≠ d.worker) : LetsGo s s' d := by
  cases e with
  | user m =>
    obtain ⟨-, rfl⟩ := step_user hs
    exact absurd rfl (hgone d hd)
  | finish job ok =>
    obtain ⟨-, rfl⟩ := step_finish hs
    exact absurd rfl (hgone d hd)
  | handle =>
    obtain ⟨m, queue, hq, rfl⟩ := step_handle hs
    have hsingle : State.Single { s with queue := queue } := (single_of_consistent hc : s.Single)
    have hcons : ∀ i, Consistent i { State.view { s with queue := queue } i with
        jobs := m.jobOf i ++ (State.view { s with queue := queue } i).jobs } :=
      fun i => view_of_queue hq i ▸ hc i
    cases m with
    | createManaged slot =>
      obtain ⟨hunused, hstopped⟩ := createManagedDisplay_letsGo (s := { s with queue := queue }) hsingle hd hgone
      exact ⟨hunused, hstopped⟩
    | closeManaged slot =>
      obtain ⟨hunused, hstopped⟩ := closeManagedDisplay_letsGo (s := { s with queue := queue }) hd hgone
      exact ⟨hunused, hstopped⟩
    | _ => exact absurd rfl (hgone d ((settles_handle hcons rfl).managed d hd))
  | edit config =>
    cases hs
    exact absurd rfl (hgone d hd)
  | sessionExits i =>
    cases hs
    exact absurd rfl (hgone d hd)
  | managedExits slot =>
    cases hs
    refine absurd ?_ (hgone _ (List.mem_map_of_mem hd))
    split <;> rfl
  | maintain =>
    cases hs
    obtain ⟨hunused, hstopped⟩ := reapManaged_letsGo (single_of_consistent hc) hd hgone
    exact ⟨hunused, fun a ha => hstopped a (List.mem_of_mem_filter ha)⟩
  | release index =>
    obtain ⟨c, -, rfl⟩ := step_release hs
    refine absurd rfl (hgone d ?_)
    exact (settles_dropReservation _ c.reservation).managed d hd

end Managed

/-! ## Runs -/

/-- Whatever happens, no slot has two holders or two sessions, and no managed display goes while it is used, unless it
has exited: then its sessions go with it. -/
theorem displaySlots_guarantees {s : State P} (h : (system P).Reachable s) : Slots s ∧
    ∀ e s', step s e = some s' → ∀ d ∈ s.managed, (∀ d' ∈ s'.managed, d'.worker ≠ d.worker) → LetsGo s s' d := by
  refine ⟨slots_reachable h, ?_⟩
  intro e s' hs d hd hgone
  exact managed_step (consistent_reachable h) hs hd hgone

/-- Profile 0, on the display `work`. -/
def workProfile : Session Nat := ⟨0, "a", "container", some "work", none, ""⟩

/-- A managed display `work` is started. -/
def toManaged : List (Event Nat) := [.edit [workProfile], .user (.createManaged (some "work")), .handle]

/-- A launch of profile 0 gets its display. -/
def toAssigned : List (Event Nat) := [.user (.start 0), .handle, .finish (.check 0 0) true, .handle, .handle]

/-- A launch on the managed display, which is still there after somebody asked for it to be closed. -/
theorem displaySlots_guarantees_kept : ∃ s : State Nat, s.attached = ["work"] ∧ s.holders = ["work"] ∧ Slots s := by
  have hrun : ((system Nat).run (system Nat).init
      (toManaged ++ [.finish (.managed 0 "work") true, .handle] ++ toAssigned ++
        [.user (.closeManaged "work"), .handle])).any
      (fun s => decide (s.attached = ["work"] ∧ s.holders = ["work"])) = true := by decide
  obtain ⟨s, hs, hp⟩ := System.exists_reachable hrun
  obtain ⟨hattached, hheld⟩ := of_decide_eq_true hp
  exact ⟨s, hattached, hheld, (displaySlots_guarantees hs).1⟩

/-- The start of the managed display is given up, a dedicated display takes the slot, and the managed one reports. -/
theorem displaySlots_shared : ∃ s : State Nat, (system Nat).Reachable s ∧ s.pendingDisplay.get 0 = some "work" ∧
    ∃ c ∈ s.cleanup, c.worker.map DisplayWorker.slot = some "work" := by
  have hrun : ((system Nat).run (system Nat).init
      (toManaged ++ [.user (.closeManaged "work"), .handle] ++ toAssigned ++
        [.finish (.managed 0 "work") true, .handle])).any
      (fun s => decide (s.pendingDisplay.get 0 = some "work") &&
        s.cleanup.any fun c => c.worker.map DisplayWorker.slot = some "work") = true := by decide
  obtain ⟨s, hs, hp⟩ := System.exists_reachable hrun
  rw [Bool.and_eq_true, decide_eq_true_iff, List.any_eq_true] at hp
  obtain ⟨hpending, c, hc, hslot⟩ := hp
  exact ⟨s, hs, hpending, c, hc, of_decide_eq_true hslot⟩

end CocoaWay.Launch
