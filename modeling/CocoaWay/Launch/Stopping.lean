import CocoaWay.Launch.Displays

/-!
# Force stopping an application

* `ForceStopped` : the session is gone, one cleanup with what it owned is added, and nothing else has changed;
* `forceStopped_iff` : a force stop does so, unless an operation of the profile is pending;
* `forceStop_redirected` : a check of a running application turns a force stop into a request to exit.
-/

namespace CocoaWay.Launch

open CocoaWay.Lib

variable {P : Type} [DecidableEq P]

/-- From `s` to `t`, the session `a` goes to the cleanup queue with what it owns, and everything else stays. -/
structure ForceStopped (s t : State P) (a : ActiveSession P) : Prop where
  removed : ∃ before after, s.active = before ++ a :: after ∧ t.active = before ++ after
  stopped : ∀ b ∈ t.active, b.profile ≠ a.profile
  cleanup : t.cleanup = s.cleanup ++ [State.sessionCleanup a]
  others : { t with active := s.active, cleanup := s.cleanup } = s

section ForceStop

variable {s s' : State P} {a : ActiveSession P}

theorem find?_active (h : s.Single) (ha : a ∈ s.active) : s.active.find? (fun b => b.profile = a.profile) = some a := by
  have hfound : (s.active.find? fun b => b.profile = a.profile).isSome := List.find?_isSome.2 ⟨a, ha, by simp⟩
  obtain ⟨b, hb⟩ := Option.isSome_iff_exists.1 hfound
  rw [hb]
  by_contra hne
  have hab : a ∈ s.active.eraseP fun b => b.profile = a.profile := by
    refine (List.mem_cons.1 ((find?_cons_eraseP_perm hb).mem_iff.2 ha)).resolve_left ?_
    intro he
    exact hne (by rw [he])
  have hstop : a ∈ (s.stopActive a.profile).active := by
    unfold State.stopActive
    rw [hb]
    exact hab
  exact absent_stopActive h a hstop rfl

theorem stopActive_of_mem (h : s.Single) (ha : a ∈ s.active) : s.stopActive a.profile =
    { s with
      active := s.active.eraseP fun b => b.profile = a.profile
      cleanup := s.cleanup ++ [State.sessionCleanup a] } := by
  unfold State.stopActive
  rw [find?_active h ha]

theorem forceStopped_stopActive (h : s.Single) (ha : a ∈ s.active) : ForceStopped s (s.stopActive a.profile) a where
  removed := by
    rw [stopActive_of_mem h ha]
    obtain ⟨-, before, after, hsplit, hbefore⟩ := List.find?_eq_some_iff_append.1 (find?_active h ha)
    refine ⟨before, after, hsplit, ?_⟩
    show s.active.eraseP _ = _
    rw [hsplit, List.eraseP_append_right _ (fun b hb => by simpa using hbefore b hb),
      List.eraseP_cons_of_pos (by simp)]
  stopped := absent_stopActive h
  cleanup := by rw [stopActive_of_mem h ha]
  others := by rw [stopActive_of_mem h ha]

omit [DecidableEq P] in
theorem not_forceStopped_send {m : Message P} (ha : a ∈ s.active) : ¬ ForceStopped s (s.send m) a := by
  intro h
  exact h.stopped a ha rfl

/-- A force stop ends the session of the profile, and touches nothing else, exactly when no operation of the profile is
pending. -/
theorem forceStopped_iff {queue : List (Message P)} (h : (system P).Reachable s) (ha : a ∈ s.active)
    (hq : s.queue = .forceStop a.profile :: queue) (hs : step s .handle = some s') :
    ForceStopped { s with queue := queue } s' a ↔ s.operations.get a.profile = none := by
  obtain ⟨m, queue', hq', rfl⟩ := step_handle hs
  obtain ⟨rfl, rfl⟩ := List.cons.inj (hq.symm.trans hq')
  have hsingle : s.Single := single_of_consistent (consistent_reachable h)
  show ForceStopped _ (State.forceStopContainerSession _ _) a ↔ _
  unfold State.forceStopContainerSession
  constructor
  · intro hstop
    by_contra hpending
    rw [if_pos (by simpa [Option.isSome_iff_ne_none] using hpending)] at hstop
    exact not_forceStopped_send (s := { s with queue := queue }) ha hstop
  · intro hnone
    rw [if_neg (by simp [hnone])]
    exact forceStopped_stopActive (s := { s with queue := queue }) (fun i => hsingle i) ha

end ForceStop

/-- Profile 0, on the default display. -/
def plainProfile : Session Nat := ⟨0, "a", "container", none, none, ""⟩

/-- Profile 0 is launched. -/
def toRunning : List (Event Nat) :=
  [.edit [plainProfile], .user (.start 0), .handle, .finish (.check 0 0) true, .handle, .handle,
    .finish (.launch 0 0 "default") true, .handle]

/-- The running session of profile 0. -/
def runningSession : ActiveSession Nat :=
  ⟨0, plainProfile, ⟨0⟩, "default", none, some ⟨("container", "cocoa-way-a"), (0, 0)⟩, false, false⟩

/-- A running application without anything pending is force stopped. -/
theorem forceStopped_iff_idle : ∃ s s' : State Nat, runningSession ∈ s.active ∧ step s .handle = some s' ∧
    ForceStopped { s with queue := [] } s' runningSession := by
  have hrun : ((system Nat).run (system Nat).init (toRunning ++ [.user (.forceStop 0)])).any
      (fun s => decide (runningSession ∈ s.active ∧ s.queue = [.forceStop 0] ∧ s.operations.get 0 = none)) = true := by
    decide
  obtain ⟨s, hs, hp⟩ := System.exists_reachable hrun
  obtain ⟨hmem, hq, hnone⟩ := of_decide_eq_true hp
  obtain ⟨s', hs'⟩ : ∃ s', step s .handle = some s' := by
    simp only [step, hq]
    exact ⟨_, rfl⟩
  exact ⟨s, s', hmem, hs', (forceStopped_iff hs hmem hq hs').2 hnone⟩

/-- While a check of the running application is under way, a force stop only asks it to exit. -/
theorem forceStop_redirected : ∃ s s' : State Nat, (system Nat).Reachable s ∧ runningSession ∈ s.active ∧
    s.queue = [.forceStop 0] ∧ step s .handle = some s' ∧ s'.queue = [.stop 0] ∧ runningSession ∈ s'.active ∧
    s'.cleanup = [] ∧ ¬ ForceStopped { s with queue := [] } s' runningSession := by
  have hrun : ((system Nat).run (system Nat).init (toRunning ++ [.user (.check 0), .handle, .user (.forceStop 0)])).any
      (fun s => decide (runningSession ∈ s.active ∧ s.queue = [.forceStop 0]) &&
        (step s .handle).any fun s' => decide (s'.queue = [.stop 0] ∧
          runningSession ∈ s'.active) && s'.cleanup.isEmpty) =
      true := by
    decide
  obtain ⟨s, hs, hp⟩ := System.exists_reachable hrun
  rw [Bool.and_eq_true, decide_eq_true_iff, Option.any_eq_true] at hp
  obtain ⟨⟨hmem, hq⟩, s', hs', hp'⟩ := hp
  rw [Bool.and_eq_true, decide_eq_true_iff, List.isEmpty_iff] at hp'
  obtain ⟨⟨hq', hmem'⟩, hclean⟩ := hp'
  refine ⟨s, s', hs, hmem, hq, hs', hq', hmem', hclean, ?_⟩
  intro hstop
  exact hstop.stopped _ hmem' rfl

end CocoaWay.Launch
