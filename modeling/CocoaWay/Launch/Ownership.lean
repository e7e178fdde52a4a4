import CocoaWay.Launch.Resumes

/-!
# Owners of displays and reports

* `State.owned` : the displays and reports in the tables and in cleanup; `State.inTransit` : those in the queue;
* `Retires` : sessions and managed displays go to cleanup; `owned_*` : the shared steps move resources or hand them on;
  `owned_handle` : a handler takes over what its message brings, and nothing else;
* `Ownership`, `ownership_step`, `ownership_reachable` : every resource created has exactly one owner.
-/

namespace CocoaWay.Launch

open CocoaWay.Lib

variable {P : Type} [DecidableEq P]

/-! ## Places -/

def ActiveSession.resources (a : ActiveSession P) : List Resource :=
  .report a.report :: (a.displayWorker.map Resource.display).toList

def ManagedDisplay.resource (d : ManagedDisplay) : Resource := .display d.worker

/-- The resource a message brings. -/
def Message.resources : Message P → List Resource
  | .displayStarted _ _ w => [.display w]
  | .launchFinished _ _ _ report => (report.map Resource.report).toList
  | .managedStarted _ w => [.display w]
  | _ => []

/-- The pending-launch workers, the running sessions, the managed displays and the cleanups. -/
def State.owned (s : State P) : List Resource :=
  s.launchWorkers.values.map Resource.display ++ s.active.flatMap ActiveSession.resources ++
    s.managed.map ManagedDisplay.resource ++ s.cleanup.flatMap Cleanup.resources

def State.inTransit (s : State P) : List Resource := s.queue.flatMap Message.resources

def Resource.id : Resource → Nat
  | .display w => w.id
  | .report r => r.id

/-! ## Sessions and managed displays that go to cleanup -/

variable (s : State P) (i : P)

def ManagedDisplay.cleanup (d : ManagedDisplay) : Cleanup P := ⟨.display d.slot, none, some d.worker, none, false⟩

/-- Some sessions and the given displays go to cleanup; the other tables with displays and slots stay. -/
structure Retires (closed : List ManagedDisplay) (s t : State P) : Prop where
  moved : ∃ gone : List (ActiveSession P), (gone ++ t.active).Perm s.active ∧
    t.cleanup.Perm (s.cleanup ++ (gone.map State.sessionCleanup ++ closed.map ManagedDisplay.cleanup))
  managed : t.managed = s.managed
  launchWorkers : t.launchWorkers = s.launchWorkers
  pendingDisplay : t.pendingDisplay = s.pendingDisplay
  pendingLaunch : t.pendingLaunch = s.pendingLaunch
  pendingManaged : t.pendingManaged = s.pendingManaged

omit [DecidableEq P] in
theorem Retires.refl : Retires [] s s :=
  ⟨⟨[], List.Perm.refl _, List.Perm.of_eq (List.append_nil _).symm⟩, rfl, rfl, rfl, rfl, rfl⟩

omit [DecidableEq P] in
theorem Retires.trans {closed closed' : List ManagedDisplay} {s t u : State P} (h : Retires closed s t)
    (h' : Retires closed' t u) : Retires (closed ++ closed') s u := by
  obtain ⟨gone, ha, hc⟩ := h.moved
  obtain ⟨gone', ha', hc'⟩ := h'.moved
  refine ⟨⟨gone ++ gone', ?_, ?_⟩, h'.managed.trans h.managed, h'.launchWorkers.trans h.launchWorkers,
    h'.pendingDisplay.trans h.pendingDisplay, h'.pendingLaunch.trans h.pendingLaunch,
    h'.pendingManaged.trans h.pendingManaged⟩
  · rw [List.append_assoc]
    exact (ha'.append_left gone).trans ha
  · refine hc'.trans ((hc.append_right _).trans ?_)
    rw [List.map_append, List.map_append, List.append_assoc, List.append_assoc, List.append_assoc]
    refine List.Perm.append_left _ (List.Perm.append_left _ ?_)
    rw [← List.append_assoc, ← List.append_assoc]
    exact List.perm_append_comm.append_right _

omit [DecidableEq P] in
theorem retires_reapSessions : Retires [] s s.reapSessions := by
  refine ⟨⟨s.active.filter fun a => a.exited, ?_, ?_⟩, rfl, rfl, rfl, rfl, rfl⟩
  · exact List.filter_append_perm _ _
  · rw [List.map_nil, List.append_nil]
    exact List.Perm.refl _

theorem retires_stopActive : Retires [] s (s.stopActive i) := by
  unfold State.stopActive
  split
  · exact .refl s
  · rename_i a ha
    exact ⟨⟨[a], find?_cons_eraseP_perm ha, List.Perm.refl _⟩, rfl, rfl, rfl, rfl, rfl⟩

theorem retires_foldl_stopActive (l : List P) : Retires [] s (l.foldl State.stopActive s) := by
  induction l generalizing s with
  | nil => exact .refl s
  | cons i l ih => exact (retires_stopActive s i).trans (ih _)

theorem retires_reapManagedDisplay (d : ManagedDisplay) : Retires [d] s (s.reapManagedDisplay d) := by
  have hstop := retires_foldl_stopActive s ((s.active.filter fun a => a.displaySlot = d.slot).map ActiveSession.profile)
  have hqueue : ∀ t : State P, Retires [d] t (t.queueDisplayCleanup d.worker false) :=
    fun t => ⟨⟨[], List.Perm.refl _, List.Perm.refl _⟩, rfl, rfl, rfl, rfl, rfl⟩
  exact hstop.trans (hqueue _)

theorem retires_foldl_reapManagedDisplay (l : List ManagedDisplay) :
    Retires l s (l.foldl State.reapManagedDisplay s) := by
  induction l generalizing s with
  | nil => exact .refl s
  | cons d l ih => exact (retires_reapManagedDisplay s d).trans (ih _)

theorem retires_reapManaged : Retires (s.managed.filter fun d => d.exited)
    { s with managed := s.managed.filter fun d => !d.exited } s.reapManaged :=
  retires_foldl_reapManagedDisplay _ _

/-! ## The shared steps -/

theorem owned_dropReservation (r : Option (Reservation P)) : (s.dropReservation r).owned = s.owned := by
  unfold State.dropReservation
  split
  · rfl
  · split <;> rfl

theorem owned_removeOperation : (s.removeOperation i).owned = s.owned := by
  unfold State.removeOperation
  split
  · rfl
  · rw [owned_dropReservation]
    rfl

omit [DecidableEq P] in
theorem owned_queueDisplayCleanup (w : DisplayWorker) (late : Bool) :
    (s.queueDisplayCleanup w late).owned = s.owned ++ [.display w] := by
  simp [State.queueDisplayCleanup, State.owned, Cleanup.resources]

omit [DecidableEq P] in
theorem owned_queueLaunchCleanup (slot : String) (report : Option LaunchReport) (worker : Option DisplayWorker)
    (r : Option (Reservation P)) : (s.queueLaunchCleanup i slot report worker r).owned =
      s.owned ++ ((report.map Resource.report).toList ++ (worker.map Resource.display).toList) := by
  simp [State.queueLaunchCleanup, State.owned, Cleanup.resources]

section Retires

variable {s} {t : State P} {closed : List ManagedDisplay}

omit [DecidableEq P] in
/-- Sessions and displays that go to cleanup take their resources along. -/
theorem Retires.owned (h : Retires closed s t) : t.owned.Perm (s.owned ++ closed.map ManagedDisplay.resource) := by
  obtain ⟨gone, ha, hc⟩ := h.moved
  have hgone : (gone.map State.sessionCleanup).flatMap Cleanup.resources = gone.flatMap ActiveSession.resources := by
    rw [List.flatMap_map]
    rfl
  have hclosed : (closed.map (ManagedDisplay.cleanup (P := P))).flatMap Cleanup.resources =
      closed.map ManagedDisplay.resource := by
    rw [List.flatMap_map, List.map_eq_flatMap]
    rfl
  apply List.perm_iff_count.2
  intro x
  have hx := (ha.flatMap_right ActiveSession.resources).count_eq x
  have hx' := (hc.flatMap_right Cleanup.resources).count_eq x
  simp only [List.flatMap_append, hgone, hclosed, List.count_append] at hx hx'
  simp only [State.owned, h.launchWorkers, h.managed, List.count_append]
  omega

end Retires

omit [DecidableEq P] in
theorem owned_reapSessions : s.reapSessions.owned.Perm s.owned := by
  simpa using (retires_reapSessions s).owned

theorem owned_stopActive : (s.stopActive i).owned.Perm s.owned := by
  simpa using (retires_stopActive s i).owned

theorem owned_reapManaged : s.reapManaged.owned.Perm s.owned := by
  refine (retires_reapManaged s).owned.trans ?_
  have hsplit := (List.filter_append_perm (fun d : ManagedDisplay => d.exited) s.managed).map ManagedDisplay.resource
  rw [List.map_append] at hsplit
  apply List.perm_iff_count.2
  intro x
  have hx := hsplit.count_eq x
  simp only [State.owned, List.count_append] at hx ⊢
  omega

theorem owned_abandonDisplay (op : Operation P) (w : DisplayWorker) :
    (s.abandonDisplay i op w).owned = s.owned ++ [.display w] := by
  rw [State.abandonDisplay, owned_queueLaunchCleanup]
  rfl

omit [DecidableEq P] in
theorem owned_reserveRuntime {s s' : State P} {op op' : Operation P} (h : s.reserveRuntime op = some (op', s')) :
    s'.owned = s.owned := by
  obtain ⟨-, -, -, -, he⟩ := reserveRuntime_spec h
  rw [he]
  rfl

theorem owned_restartCheck (op : Operation P) : (s.restartCheck i op).owned = s.owned := by
  unfold State.restartCheck
  split
  · split
    · rw [owned_removeOperation]
    · rename_i op' s' hr
      have hs : s'.owned = s.owned := owned_reserveRuntime hr
      exact hs
  · rfl

theorem owned_assignDisplay (op : Operation P) : (s.assignDisplay i op).owned = s.owned := by
  unfold State.assignDisplay
  split
  · rw [owned_removeOperation]
  · dsimp only
    split
    · rw [owned_removeOperation]
    · split
      · rfl
      · split
        · rw [owned_removeOperation]
        · split <;> rfl

theorem owned_startPending (configured : Session P) : (s.startPending i configured).owned = s.owned := by
  have hreserve : ∀ (t : State P) (op : Operation P), t.owned = s.owned → (t.startOperation i op).owned = s.owned := by
    intro t op ht
    unfold State.startOperation
    split
    · rw [owned_removeOperation]
      exact ht
    · rename_i op' s' hr
      have hset : (s'.setOperation i op').owned = s.owned := (owned_reserveRuntime hr).trans ht
      split
      · exact hset
      · rw [owned_assignDisplay]
        exact hset
  unfold State.startPending
  split
  · rfl
  · cases s.operations.get i with
    | some op => exact hreserve s op rfl
    | none => exact hreserve s.nextOperation _ rfl

theorem owned_startContainerSession : (s.startContainerSession i).owned.Perm s.owned := by
  unfold State.startContainerSession
  split
  · exact List.Perm.refl _
  · split
    · exact List.Perm.refl _
    · refine List.Perm.trans ?_ (owned_reapSessions s)
      generalize s.reapSessions = s
      apply List.Perm.of_eq
      dsimp only
      split
      · split
        · rfl
        · exact owned_removeOperation _ i
      · split
        · split
          · rfl
          · split
            · split
              · rfl
              · rename_i op' s' hr
                have hs : s'.owned = s.owned := owned_reserveRuntime hr
                exact hs
            · exact owned_startPending _ i _
        · exact owned_startPending _ i _

theorem owned_requestGracefulStop : (s.requestGracefulStop i).owned = s.owned := by
  have hkeep : (s.active.map (State.markStopping i)).flatMap ActiveSession.resources =
      s.active.flatMap ActiveSession.resources := by
    rw [List.flatMap_map]
    congr 1
    funext a
    unfold State.markStopping
    split <;> rfl
  simp only [State.requestGracefulStop, State.owned, hkeep]

/-! ## Messages that bring resources -/

variable {s : State P} {i : P}

theorem owned_launchWorkers_set {w : DisplayWorker} (h : s.launchWorkers.get i = none) :
    (State.owned { s with launchWorkers := s.launchWorkers.set i w }).Perm (s.owned ++ [.display w]) := by
  simp only [State.owned, Table.values_set_of_none h, List.map_cons, List.cons_append]
  exact (List.perm_append_singleton _ _).symm

theorem owned_dedicatedDisplayStarted {generation : Nat} {w : DisplayWorker} (h : s.launchWorkers.get i = none) :
    (s.dedicatedDisplayStarted i generation w).owned.Perm (s.owned ++ [.display w]) := by
  unfold State.dedicatedDisplayStarted
  split
  · rw [owned_queueDisplayCleanup]
  · dsimp only
    split
    · rw [owned_abandonDisplay]
      exact List.Perm.refl _
    · split
      · rw [owned_abandonDisplay]
        exact List.Perm.refl _
      · refine List.Perm.trans ?_ ((owned_reapSessions { s with pendingDisplay := s.pendingDisplay.remove i }).append_right _)
        split
        · rw [owned_abandonDisplay]
        · exact owned_launchWorkers_set (s := State.reapSessions { s with pendingDisplay := s.pendingDisplay.remove i }) h

/-- A finished launch takes its display worker out of the pending-launch workers. -/
theorem owned_launchWorkers_remove :
    ((State.owned { s with
      pendingLaunch := s.pendingLaunch.remove i
      launchWorkers := s.launchWorkers.remove i
      operations := s.operations.remove i }) ++ ((s.launchWorkers.get i).map Resource.display).toList).Perm s.owned := by
  cases hw : s.launchWorkers.get i with
  | none =>
    rw [Table.remove_of_get_none hw, Option.map_none, Option.toList_none, List.append_nil]
    exact List.Perm.refl _
  | some w =>
    refine (List.perm_append_singleton _ _).trans ?_
    have hp := (Table.values_perm_remove hw).map Resource.display
    simp only [State.owned, List.append_assoc, List.map_cons] at hp ⊢
    exact (hp.append_right _).symm

theorem owned_completeContainerSessionLaunch (op : Operation P) (slot : String) (worker : Option DisplayWorker)
    (report : Option LaunchReport) : (s.completeContainerSessionLaunch i op slot worker report).owned.Perm
      (s.owned ++ ((report.map Resource.report).toList ++ (worker.map Resource.display).toList)) := by
  cases report with
  | some report =>
    apply List.perm_iff_count.2
    intro x
    simp only [State.completeContainerSessionLaunch, State.owned, List.flatMap_append, List.flatMap_singleton,
      ActiveSession.resources, List.count_append, Option.map_some, Option.toList_some, List.count_cons, List.count_nil]
    omega
  | none =>
    cases worker with
    | some w =>
      apply List.Perm.of_eq
      exact owned_queueLaunchCleanup s i slot none (some w) op.reservation
    | none =>
      show (s.dropReservation op.reservation).owned.Perm _
      rw [owned_dropReservation]
      exact List.Perm.of_eq (List.append_nil _).symm

theorem owned_containerSessionLaunchFinished (generation : Nat) (slot : String) (report : Option LaunchReport) :
    (s.containerSessionLaunchFinished i generation slot report).owned.Perm
      (s.owned ++ (report.map Resource.report).toList) := by
  unfold State.containerSessionLaunchFinished
  split
  · rw [owned_queueLaunchCleanup, Option.map_none, Option.toList_none, List.append_nil]
  · rename_i op _
    have htaken := owned_launchWorkers_remove (s := s) (i := i)
    dsimp only
    generalize ({ s with
      pendingLaunch := s.pendingLaunch.remove i
      launchWorkers := s.launchWorkers.remove i
      operations := s.operations.remove i } : State P) = t at htaken ⊢
    generalize s.launchWorkers.get i = worker at htaken ⊢
    have hboth : (t.owned ++ ((report.map Resource.report).toList ++ (worker.map Resource.display).toList)).Perm
        (s.owned ++ (report.map Resource.report).toList) := by
      apply List.perm_iff_count.2
      intro x
      have hx := htaken.count_eq x
      simp only [List.count_append] at hx ⊢
      omega
    split
    · rw [owned_queueLaunchCleanup]
      exact hboth
    · exact (owned_completeContainerSessionLaunch op slot worker report).trans hboth

omit [DecidableEq P] in
theorem owned_managedDisplayStarted (generation : Nat) (w : DisplayWorker) :
    (s.managedDisplayStarted generation w).owned.Perm (s.owned ++ [.display w]) := by
  unfold State.managedDisplayStarted
  split
  · rw [owned_queueDisplayCleanup]
  · dsimp only
    split
    · rw [owned_queueDisplayCleanup]
      exact List.Perm.refl _
    · apply List.perm_iff_count.2
      intro x
      simp only [State.owned, List.map_append, List.map_cons, List.map_nil, ManagedDisplay.resource, List.count_append]
      omega

omit [DecidableEq P] in
theorem owned_closeManagedDisplay (slot : String) : (s.closeManagedDisplay slot).owned.Perm s.owned := by
  unfold State.closeManagedDisplay
  split
  · exact List.Perm.refl _
  · split
    · exact List.Perm.refl _
    · split
      · exact List.Perm.refl _
      · rename_i d hd
        rw [owned_queueDisplayCleanup]
        have hp := (find?_cons_eraseP_perm hd).map ManagedDisplay.resource
        apply List.perm_iff_count.2
        intro x
        have hx := hp.count_eq x
        simp only [State.owned, ManagedDisplay.resource, List.map_cons, List.count_append, List.count_cons,
          List.count_nil] at hx ⊢
        omega

/-- A handler takes over the resource of its message, and moves the others. -/
theorem owned_handle {m : Message P} (h : ∀ i, Consistent i { s.view i with jobs := m.jobOf i ++ (s.view i).jobs }) :
    (s.handle m).owned.Perm (s.owned ++ m.resources) := by
  have hnone : ∀ {t : State P}, t.owned.Perm s.owned → t.owned.Perm (s.owned ++ []) := by
    intro t ht
    rw [List.append_nil]
    exact ht
  cases m with
  | check i =>
    apply hnone
    show (s.checkContainerSession i).owned.Perm s.owned
    unfold State.checkContainerSession
    split
    · split <;> exact List.Perm.refl _
    · exact List.Perm.refl _
  | start i => exact hnone (owned_startContainerSession s i)
  | resume i g =>
    apply hnone
    show (s.resumeContainerSession i g).owned.Perm s.owned
    unfold State.resumeContainerSession
    split
    · exact List.Perm.refl _
    · split
      · exact List.Perm.refl _
      · exact owned_startContainerSession s i
  | stop i =>
    apply hnone
    apply List.Perm.of_eq
    show (s.stopContainerSession i).owned = s.owned
    have hc : (s.cancelPending i).owned = s.owned := by
      unfold State.cancelPending State.cancelOperation
      split
      · split
        · rfl
        · exact owned_removeOperation _ i
      · rfl
    unfold State.stopContainerSession
    dsimp only
    split
    · rw [owned_requestGracefulStop, hc]
    · exact hc
  | forceStop i =>
    apply hnone
    show (s.forceStopContainerSession i).owned.Perm s.owned
    unfold State.forceStopContainerSession
    split
    · exact List.Perm.refl _
    · exact owned_stopActive s i
  | createManaged slot =>
    apply hnone
    show (s.createManagedDisplay slot).owned.Perm s.owned
    unfold State.createManagedDisplay
    dsimp only
    split
    · exact owned_reapManaged s
    · exact owned_reapManaged s
  | closeManaged slot => exact hnone (owned_closeManagedDisplay slot)
  | checked i g ok =>
    apply hnone
    apply List.Perm.of_eq
    show (s.containerSessionChecked i g ok).owned = s.owned
    unfold State.containerSessionChecked
    split
    · rfl
    · dsimp only
      split
      · exact owned_removeOperation _ i
      · split
        · exact owned_removeOperation _ i
        · split
          · rw [State.recheck, owned_restartCheck]
            exact owned_dropReservation _ _
          · split
            · rfl
            · exact owned_removeOperation _ i
  | displayStarted i g w =>
    apply owned_dedicatedDisplayStarted
    have hi := h i
    have hjob : Message.jobOf (.displayStarted i g w) i = [.display i g w.slot] := by
      simp [Message.jobOf, Message.job?, Job.profile?]
    rw [hjob] at hi
    show (s.view i).worker = none
    revert hi
    generalize s.view i = v
    rcases v with ⟨op, checking, validated, display, launch, worker, active, jobs⟩
    intro hi
    cases hi
    rfl
  | displayFailed i g slot =>
    apply hnone
    show (s.dedicatedDisplayFailed i g slot).owned.Perm s.owned
    unfold State.dedicatedDisplayFailed
    split
    · exact List.Perm.refl _
    · rw [owned_removeOperation]
      exact List.Perm.refl _
  | launchFinished i g slot report => exact owned_containerSessionLaunchFinished g slot report
  | managedStarted g w => exact owned_managedDisplayStarted g w
  | managedFailed g slot =>
    apply hnone
    show (s.managedDisplayFailed g slot).owned.Perm s.owned
    unfold State.managedDisplayFailed
    split <;> exact List.Perm.refl _

/-! ## Runs -/

/-- Every resource created is in the queue, at one of its owners or released, once. -/
structure Ownership (s : State P) : Prop where
  custody : Custody (s.inTransit ++ s.owned ++ s.released) s.created
  fresh : ∀ r ∈ s.created, r.id < s.created.length

omit [DecidableEq P] in
theorem resources_of_job?_none {m : Message P} (h : m.job? = none) : m.resources = [] := by
  cases m <;> first | rfl | cases h

omit [DecidableEq P] in
theorem Extends.inTransit {s t : State P} (h : Extends s t) : t.inTransit = s.inTransit := by
  obtain ⟨sent, hq, hn⟩ := h.queue
  have hsent : sent.flatMap Message.resources = [] := by
    apply List.flatMap_eq_nil_iff.2
    exact fun n hm => resources_of_job?_none (hn n hm)
  rw [State.inTransit, State.inTransit, hq, List.flatMap_append, hsent, List.append_nil]

omit [DecidableEq P] in
theorem report_resources (j : Job P) (id : Nat) (ok : Bool) :
    (j.report id ok).1.resources = (j.report id ok).2.toList := by
  cases j <;> cases ok <;> rfl

omit [DecidableEq P] in
theorem report_id {j : Job P} {id : Nat} {ok : Bool} {r : Resource} (h : (j.report id ok).2 = some r) : r.id = id := by
  cases j <;> cases ok <;> cases h <;> rfl

theorem ownership_finish {j : Job P} {ok : Bool} (h : Ownership s) : Ownership (s.finish j ok) := by
  have hin : (s.finish j ok).inTransit = s.inTransit ++ (j.report s.created.length ok).2.toList := by
    rw [← report_resources]
    show (s.queue ++ [_]).flatMap Message.resources = _
    rw [List.flatMap_append, List.flatMap_singleton]
    rfl
  have hcreated : (s.finish j ok).created = (j.report s.created.length ok).2.toList ++ s.created := rfl
  cases hr : (j.report s.created.length ok).2 with
  | none =>
    rw [hr, Option.toList_none, List.append_nil] at hin
    rw [hr, Option.toList_none, List.nil_append] at hcreated
    refine ⟨?_, ?_⟩
    · rw [hin, hcreated]
      exact h.custody
    · rw [hcreated]
      exact h.fresh
  | some r =>
    rw [hr, Option.toList_some] at hin hcreated
    have hid := report_id hr
    refine ⟨?_, ?_⟩
    · rw [hin, hcreated]
      refine h.custody.issue ?_ ?_
      · intro hm
        have := h.fresh r hm
        omega
      · show (s.inTransit ++ [r] ++ s.owned ++ s.released).Perm _
        simp only [List.append_assoc, List.singleton_append]
        exact List.perm_middle
    · rw [hcreated]
      intro q hq
      rw [List.singleton_append, List.length_cons]
      rcases List.mem_cons.1 hq with rfl | hq
      · omega
      · exact Nat.lt_succ_of_lt (h.fresh q hq)

omit [DecidableEq P] in
theorem Ownership.move {t : State P} (h : Ownership s) (he : Extends s t) (ho : t.owned.Perm s.owned) :
    Ownership t := by
  refine ⟨?_, ?_⟩
  · rw [he.inTransit, he.created, he.released]
    exact h.custody.move ((ho.append_left _).append_right _)
  · rw [he.created]
    exact h.fresh

theorem ownership_handle {m : Message P} {queue : List (Message P)} (hq : s.queue = m :: queue)
    (hc : ∀ i, Consistent i (s.view i)) (h : Ownership s) : Ownership (State.handle { s with queue := queue } m) := by
  have he := extends_handle { s with queue := queue } m
  have hcons : ∀ i, Consistent i { State.view { s with queue := queue } i with
      jobs := m.jobOf i ++ (State.view { s with queue := queue } i).jobs } :=
    fun i => view_of_queue hq i ▸ hc i
  have ho := owned_handle hcons
  have hin : s.inTransit = m.resources ++ State.inTransit { s with queue := queue } := by
    simp [State.inTransit, hq]
  refine ⟨?_, ?_⟩
  · rw [he.inTransit, he.created, he.released]
    apply h.custody.move
    apply List.perm_iff_count.2
    intro x
    have hx := ho.count_eq x
    have hx' := congrArg (List.count x) hin
    simp only [List.count_append] at hx hx' ⊢
    have howned : State.owned { s with queue := queue } = s.owned := rfl
    rw [howned] at hx
    omega
  · rw [he.created]
    exact h.fresh

theorem ownership_release {index : Nat} {c : Cleanup P} (hc : s.cleanup[index]? = some c) (h : Ownership s) :
    Ownership (s.releaseCleanup index c) := by
  have he := extends_dropReservation
    { s with cleanup := s.cleanup.eraseIdx index, released := c.resources ++ s.released } c.reservation
  have hperm : (c :: s.cleanup.eraseIdx index).Perm s.cleanup := by
    obtain ⟨hlt, rfl⟩ := List.getElem?_eq_some_iff.1 hc
    exact List.getElem_cons_eraseIdx_perm hlt
  unfold State.releaseCleanup
  refine ⟨?_, ?_⟩
  · rw [he.inTransit, he.created, he.released, owned_dropReservation]
    apply h.custody.move
    have hp := hperm.flatMap_right Cleanup.resources
    apply List.perm_iff_count.2
    intro x
    have hx := hp.count_eq x
    simp only [State.owned, State.inTransit, List.flatMap_cons, List.count_append] at hx ⊢
    omega
  · rw [he.created]
    exact h.fresh

theorem ownership_step {s s' : State P} {e : Event P} (hc : ∀ i, Consistent i (s.view i)) (h : Ownership s)
    (hs : step s e = some s') : Ownership s' := by
  cases e with
  | user m =>
    obtain ⟨hm, rfl⟩ := step_user hs
    exact h.move (extends_send s (Message.job?_of_fromUser hm)) (List.Perm.refl _)
  | finish job ok =>
    obtain ⟨-, rfl⟩ := step_finish hs
    exact ownership_finish h
  | handle =>
    obtain ⟨m, queue, hq, rfl⟩ := step_handle hs
    exact ownership_handle hq hc h
  | edit config =>
    cases hs
    exact ⟨h.custody, h.fresh⟩
  | sessionExits i =>
    cases hs
    have hkeep : (s.active.map (State.markExited i)).flatMap ActiveSession.resources =
        s.active.flatMap ActiveSession.resources := by
      rw [List.flatMap_map]
      congr 1
      funext a
      unfold State.markExited
      split <;> rfl
    refine h.move (.of_eq rfl rfl rfl) (List.Perm.of_eq ?_)
    simp only [State.owned, hkeep]
  | managedExits slot =>
    cases hs
    have hkeep : (s.managedExits slot).managed.map ManagedDisplay.resource =
        s.managed.map ManagedDisplay.resource := by
      unfold State.managedExits
      rw [List.map_map]
      congr 1
      funext d
      show ManagedDisplay.resource (if d.slot = slot then { d with exited := true } else d) = _
      split <;> rfl
    refine h.move (.of_eq rfl rfl rfl) (List.Perm.of_eq ?_)
    simp only [State.owned, hkeep]
    rfl
  | maintain =>
    cases hs
    exact h.move ((extends_reapManaged s).trans (.of_eq rfl rfl rfl))
      ((owned_reapSessions _).trans (owned_reapManaged s))
  | release index =>
    obtain ⟨c, hi, rfl⟩ := step_release hs
    exact ownership_release hi h

theorem ownership_reachable (h : (system P).Reachable s) : Ownership s := by
  have hboth : (∀ i, Consistent i (s.view i)) ∧ Ownership s := by
    refine System.Reachable.invariant (I := fun s => (∀ i, Consistent i (s.view i)) ∧ Ownership s) ?_ ?_ h
    · exact ⟨fun _ => .idle (Nat.zero_le 1), ⟨.nil, fun _ hr => absurd hr List.not_mem_nil⟩⟩
    · intro s e s' hi hs
      exact ⟨consistent_step hi.1 hs, ownership_step hi.1 hi.2 hs⟩
  exact hboth.2

end CocoaWay.Launch
