import CocoaWay.Launch.Ownership

/-!
# Runtime-instance reservations

* `State.reservations` : the reservations that operations, running sessions and cleanups hold;
* `Granted` : each of them is registered for its owner, no other one is, and none is held twice; `granted_handle`,
  `granted_step`;
* `View.Reserved` : a requested launch and the session it becomes hold the reservation of their own identity;
  `reserved_handle`, `reserved_step`;
* `reservations_reachable` : both in every run.
-/

namespace CocoaWay.Launch

open CocoaWay.Lib

variable {P : Type} [DecidableEq P]

/-! ## Registered reservations -/

def State.reservations (s : State P) : List (Reservation P) :=
  s.operations.values.filterMap Operation.reservation ++ s.active.filterMap ActiveSession.reservation ++
    s.cleanup.filterMap Cleanup.reservation

/-- How often a reservation is registered. -/
def State.granted (s : State P) (r : Reservation P) : Nat :=
  if s.identities.get r.key = some r.owner then 1 else 0

/-- The reservations held are the registered ones. -/
def Granted (s : State P) : Prop := ∀ r, s.reservations.count r = s.granted r

/-- The same while a handler has a reservation in hand. -/
def GrantedWith (s : State P) (hand : Option (Reservation P)) : Prop :=
  ∀ r, s.reservations.count r + hand.toList.count r = s.granted r

theorem granted_eq_one {s : State P} {r : Reservation P} : s.granted r = 1 ↔ s.identities.get r.key = some r.owner := by
  unfold State.granted
  split <;> simp_all

section Steps

variable {s : State P} {i : P}

/-- A dropped reservation is no longer registered, all others are as before. -/
theorem granted_dropReservation {ρ : Option (Reservation P)} (h : ∀ r ∈ ρ, s.granted r = 1) (r : Reservation P) :
    (s.dropReservation ρ).granted r + ρ.toList.count r = s.granted r := by
  cases ρ with
  | none => rfl
  | some q =>
    have hq : s.identities.get q.key = some q.owner := granted_eq_one.1 (h q rfl)
    simp only [State.dropReservation, hq, if_true, State.granted, Option.toList_some, List.count_cons, List.count_nil,
      Table.get_remove]
    by_cases hk : r.key = q.key
    · rw [if_pos hk, if_neg (by simp), hk, hq]
      by_cases ho : q.owner = r.owner
      · have hqr : q = r := by
          cases q
          cases r
          simp_all
        simp [hqr]
      · have hne : ¬ q = r := fun he => ho (congrArg Reservation.owner he)
        simp [ho, hne]
    · have hne : ¬ q = r := fun he => hk (congrArg Reservation.key he).symm
      simp [hk, hne]

theorem reservations_dropReservation (s : State P) (ρ : Option (Reservation P)) :
    (s.dropReservation ρ).reservations = s.reservations := by
  unfold State.dropReservation
  split
  · rfl
  · split <;> rfl

theorem count_filterMap_values_remove {t : Table P (Operation P)} (r : Reservation P) :
    ((t.remove i).values.filterMap Operation.reservation).count r +
      ((t.get i).bind Operation.reservation).toList.count r = (t.values.filterMap Operation.reservation).count r := by
  cases ht : t.get i with
  | none => rw [Table.remove_of_get_none ht, Option.bind_none, Option.toList_none, List.count_nil, Nat.add_zero]
  | some op =>
    have hp := ((Table.values_perm_remove ht).filterMap Operation.reservation).count_eq r
    rw [hp, Option.bind_some, List.filterMap_cons]
    cases op.reservation with
    | none => rfl
    | some q =>
      dsimp only
      rw [List.count_cons, Option.toList_some, List.count_cons, List.count_nil, Nat.zero_add]

theorem count_reservations_remove (r : Reservation P) :
    (State.reservations { s with operations := s.operations.remove i }).count r +
      ((s.operations.get i).bind Operation.reservation).toList.count r = s.reservations.count r := by
  have h := count_filterMap_values_remove (i := i) (t := s.operations) r
  simp only [State.reservations, List.count_append]
  omega

theorem count_reservations_setOperation (op : Operation P) (r : Reservation P) :
    (s.setOperation i op).reservations.count r + ((s.operations.get i).bind Operation.reservation).toList.count r =
      s.reservations.count r + op.reservation.toList.count r := by
  have h := count_filterMap_values_remove (i := i) (t := s.operations) r
  simp only [State.setOperation, State.reservations, List.count_append, Table.values_set, List.filterMap_cons]
  cases op.reservation with
  | none =>
    dsimp only
    rw [Option.toList_none, List.count_nil]
    omega
  | some q =>
    dsimp only
    rw [Option.toList_some, List.count_cons, List.count_cons, List.count_nil]
    omega

theorem granted_le_one (s : State P) (r : Reservation P) : s.granted r ≤ 1 := by
  unfold State.granted
  split <;> omega

variable {op : Operation P} {hand : Option (Reservation P)} {w : DisplayWorker} {generation : Nat} {s' : State P}

/-- An operation is taken out of the table, its reservation is in hand. -/
theorem grantedWith_remove (h : Granted s) (hop : s.operations.get i = some op) :
    GrantedWith { s with operations := s.operations.remove i } op.reservation := by
  intro r
  have hc := count_reservations_remove (s := s) (i := i) r
  rw [hop, Option.bind_some] at hc
  exact hc.trans (h r)

theorem GrantedWith.registered (h : GrantedWith s hand) : ∀ r ∈ hand, s.granted r = 1 := by
  intro r hr
  have hc := h r
  rw [hr, Option.toList_some, List.count_cons_self] at hc
  have := granted_le_one s r
  omega

theorem GrantedWith.drop (h : GrantedWith s hand) : Granted (s.dropReservation hand) := by
  intro r
  have hdrop := granted_dropReservation h.registered r
  have hr := h r
  rw [reservations_dropReservation]
  omega

theorem granted_removeOperation (h : Granted s) : Granted (s.removeOperation i) := by
  unfold State.removeOperation
  split
  · exact h
  · rename_i op hop
    exact (grantedWith_remove h hop).drop

theorem granted_reserveRuntime {op op' : Operation P} (h : s.reserveRuntime op = some (op', s')) (r : Reservation P) :
    s'.granted r + op.reservation.toList.count r = s.granted r + op'.reservation.toList.count r := by
  unfold State.reserveRuntime at h
  split at h
  · cases h
    rfl
  · rename_i hnone
    dsimp only at h
    split at h
    · cases h
    · rename_i hfree
      cases h
      have hop : op.reservation = none := by simpa using hnone
      have hkey : s.identities.get op.session.identity = none := by simpa using hfree
      simp only [hop, State.granted, Option.toList_none, Option.toList_some, List.count_nil, List.count_cons,
        Table.get_set]
      by_cases hk : r.key = op.session.identity
      · rw [if_pos hk, hk, hkey]
        obtain ⟨key, owner⟩ := r
        simp only at hk
        subst hk
        simp
      · have hne : ¬ (⟨op.session.identity, (op.session.id, op.generation)⟩ : Reservation P) = r :=
          fun he => hk (congrArg Reservation.key he).symm
        simp [hk, hne]

theorem granted_setOperation (h : ∀ r, s.reservations.count r + op.reservation.toList.count r =
    s.granted r + ((s.operations.get i).bind Operation.reservation).toList.count r) :
      Granted (s.setOperation i op) := by
  intro r
  have hc := count_reservations_setOperation (s := s) (i := i) op r
  have hr := h r
  have hsame : (s.setOperation i op).granted r = s.granted r := rfl
  omega

/-- An operation is entered with the reservation it has just been given. -/
theorem granted_reserve_set {op op' op'' : Operation P} (h : Granted s)
    (hop : (s.operations.get i).bind Operation.reservation = op.reservation)
    (hr : s.reserveRuntime op = some (op', s')) (hsame : op''.reservation = op'.reservation) :
    Granted (s'.setOperation i op'') := by
  apply granted_setOperation
  intro r
  have hg := granted_reserveRuntime hr r
  obtain ⟨-, -, -, -, he⟩ := reserveRuntime_spec hr
  have hres : s'.reservations = s.reservations := by
    rw [he]
    rfl
  have hops : s'.operations = s.operations := by rw [he]
  rw [hres, hops, hop, hsame, h r]
  omega

theorem count_reservations_sessions {active gone : List (ActiveSession P)} (h : (gone ++ active).Perm s.active)
    (r : Reservation P) :
    (State.reservations
      { s with active := active, cleanup := s.cleanup ++ gone.map State.sessionCleanup }).count r =
      s.reservations.count r := by
  have hgone : (gone.map State.sessionCleanup).filterMap Cleanup.reservation =
      gone.filterMap ActiveSession.reservation := by
    rw [List.filterMap_map]
    rfl
  have hx := (h.filterMap ActiveSession.reservation).count_eq r
  simp only [State.reservations, List.filterMap_append, hgone, List.count_append] at hx ⊢
  omega

theorem granted_reapSessions (h : Granted s) : Granted s.reapSessions := by
  intro r
  rw [← show s.granted r = s.reapSessions.granted r from rfl, ← h r]
  exact count_reservations_sessions (List.filter_append_perm _ _) r

theorem granted_stopActive (h : Granted s) : Granted (s.stopActive i) := by
  unfold State.stopActive
  split
  · exact h
  · rename_i a ha
    have hsplit : ([a] ++ s.active.eraseP fun a => a.profile = i).Perm s.active := find?_cons_eraseP_perm ha
    intro r
    exact (count_reservations_sessions hsplit r).trans (h r)

theorem granted_queueDisplayCleanup {late : Bool} (h : Granted s) : Granted (s.queueDisplayCleanup w late) := by
  have hsame : (s.queueDisplayCleanup w late).reservations = s.reservations := by
    simp [State.queueDisplayCleanup, State.reservations]
  intro r
  rw [hsame]
  exact h r

theorem granted_reapManaged (h : Granted s) : Granted s.reapManaged := by
  have hstop : ∀ (l : List P) (t : State P), Granted t → Granted (l.foldl State.stopActive t) := by
    intro l
    induction l with
    | nil => exact fun t ht => ht
    | cons i l ih => exact fun t ht => ih _ (granted_stopActive ht)
  have hloop : ∀ (l : List ManagedDisplay) (t : State P), Granted t → Granted (l.foldl State.reapManagedDisplay t) := by
    intro l
    induction l with
    | nil => exact fun t ht => ht
    | cons d l ih => exact fun t ht => ih _ (granted_queueDisplayCleanup (hstop _ t ht))
  exact hloop _ _ h

/-- The reservation in hand goes to cleanup. -/
theorem GrantedWith.queueLaunchCleanup (h : GrantedWith s hand) (slot : String)
    (report : Option LaunchReport) (worker : Option DisplayWorker) :
    Granted (s.queueLaunchCleanup i slot report worker hand) := by
  intro r
  have hsame : (s.queueLaunchCleanup i slot report worker hand).reservations = s.reservations ++ hand.toList := by
    cases hand <;> simp [State.queueLaunchCleanup, State.reservations]
  rw [hsame, List.count_append]
  exact h r

theorem granted_abandonDisplay (h : Granted s)
    (hop : s.operations.get i = some op) : Granted (s.abandonDisplay i op w) := by
  have hand : GrantedWith { s.unvalidate i with operations := s.operations.remove i } op.reservation :=
    grantedWith_remove h hop
  exact hand.queueLaunchCleanup w.slot none (some w)

theorem granted_restartCheck (h : Granted s) (hop : s.operations.get i = some op) : Granted (s.restartCheck i op) := by
  unfold State.restartCheck
  split
  · split
    · exact granted_removeOperation h
    · rename_i op' s' hr
      have hset : Granted (s'.setOperation i op') := granted_reserve_set h (by rw [hop, Option.bind_some]) hr rfl
      exact hset
  · apply granted_setOperation (s := s) (i := i)
    intro r
    rw [hop, Option.bind_some, h r]

theorem granted_recheck {configured : Session P} (h : Granted s)
    (hop : s.operations.get i = some op) : Granted (s.recheck i op configured) := by
  apply granted_restartCheck
  · apply granted_setOperation
    intro r
    have hdrop := granted_dropReservation (s := s.nextOperation) (grantedWith_remove h hop).registered r
    have hops : (s.nextOperation.dropReservation op.reservation).operations.get i = some op := by
      have hview : (s.nextOperation.view i).op = some op := hop
      rw [← view_dropReservation _ _ op.reservation] at hview
      exact hview
    have hr := h r
    have hsame : s.nextOperation.granted r = s.granted r := rfl
    have hres : s.nextOperation.reservations = s.reservations := rfl
    rw [reservations_dropReservation, hres, hops, Option.bind_some, Option.toList_none, List.count_nil]
    omega
  · exact Table.get_set_self _ _ _

theorem granted_assignDisplay (h : Granted s) : Granted (s.assignDisplay i op) := by
  unfold State.assignDisplay
  split
  · exact granted_removeOperation h
  · dsimp only
    split
    · exact granted_removeOperation h
    · split
      · exact h
      · split
        · exact granted_removeOperation h
        · split
          · exact h
          · exact h

theorem granted_startPending {configured : Session P} (h : Granted s) : Granted (s.startPending i configured) := by
  have hreserve : ∀ (t : State P) (op : Operation P), Granted t →
      (t.operations.get i).bind Operation.reservation = op.reservation →
      Granted (t.startOperation i op) := by
    intro t op ht hop
    unfold State.startOperation
    split
    · exact granted_removeOperation (s := t.unvalidate i) ht
    · rename_i op' s' hr
      have hset : Granted (s'.setOperation i op') := granted_reserve_set ht hop hr rfl
      split
      · apply granted_setOperation (s := s'.setOperation i op')
        intro r
        have hget : (s'.setOperation i op').operations.get i = some op' := Table.get_set_self _ _ _
        rw [hget, Option.bind_some, hset r]
      · exact granted_assignDisplay (s := (s'.setOperation i op').unvalidate i) hset
  unfold State.startPending
  split
  · exact h
  · cases hop : s.operations.get i with
    | some op => exact hreserve s op h (by rw [hop, Option.bind_some])
    | none =>
      apply hreserve s.nextOperation _ h
      have hnext : s.nextOperation.operations.get i = none := hop
      rw [hnext, Option.bind_none]

theorem granted_startContainerSession (h : Granted s) : Granted (s.startContainerSession i) := by
  unfold State.startContainerSession
  split
  · exact h
  · split
    · exact h
    · have hr := granted_reapSessions h
      generalize s.reapSessions = s at hr
      dsimp only
      split
      · split
        · exact hr
        · exact granted_removeOperation (s := s.unvalidate i) hr
      · split
        · rename_i op hop
          split
          · exact hr
          · split
            · split
              · exact hr
              · rename_i op' s' hres
                exact granted_reserve_set hr (by rw [hop, Option.bind_some]) hres rfl
            · exact granted_startPending hr
        · exact granted_startPending hr

theorem granted_containerSessionChecked {ok : Bool} (h : Granted s) :
    Granted (s.containerSessionChecked i generation ok) := by
  unfold State.containerSessionChecked
  split
  · exact h
  · rename_i op hcur
    obtain ⟨hop, -, -⟩ := currentOperation_some hcur
    have hs : Granted { s with checks := s.checks.erase i } := h
    dsimp only
    split
    · exact granted_removeOperation hs
    · split
      · exact granted_removeOperation hs
      · split
        · exact granted_recheck hs hop
        · split
          · exact h
          · exact granted_removeOperation hs

theorem granted_dedicatedDisplayStarted (h : Granted s) : Granted (s.dedicatedDisplayStarted i generation w) := by
  unfold State.dedicatedDisplayStarted
  split
  · exact granted_queueDisplayCleanup h
  · rename_i op hcur
    obtain ⟨hcur, -⟩ := Option.filter_eq_some_iff.1 hcur
    obtain ⟨hop, -, -⟩ := currentOperation_some hcur
    have hs : Granted { s with pendingDisplay := s.pendingDisplay.remove i } := h
    dsimp only
    split
    · exact granted_abandonDisplay hs hop
    · split
      · exact granted_abandonDisplay hs hop
      · have hreap := granted_reapSessions hs
        split
        · exact granted_abandonDisplay hreap hop
        · exact hreap

theorem GrantedWith.completeContainerSessionLaunch {slot : String} {worker : Option DisplayWorker}
    {report : Option LaunchReport} (h : GrantedWith s op.reservation) :
    Granted (s.completeContainerSessionLaunch i op slot worker report) := by
  cases report with
  | some report =>
    intro r
    have hr := h r
    have hactive : ((s.active ++ [(⟨i, op.session, report, slot, worker, op.reservation, false, false⟩ :
        ActiveSession P)]).filterMap ActiveSession.reservation).count r =
        (s.active.filterMap ActiveSession.reservation).count r + op.reservation.toList.count r := by
      rw [List.filterMap_append, List.count_append]
      cases op.reservation <;> rfl
    simp only [State.completeContainerSessionLaunch, State.reservations, List.count_append, hactive] at hr ⊢
    show _ = s.granted r
    omega
  | none =>
    cases worker with
    | some w => exact h.queueLaunchCleanup slot none (some w)
    | none => exact h.drop

theorem granted_containerSessionLaunchFinished {slot : String} {report : Option LaunchReport}
    (h : Granted s) : Granted (s.containerSessionLaunchFinished i generation slot report) := by
  unfold State.containerSessionLaunchFinished
  split
  · have hnone : GrantedWith s none := h
    exact hnone.queueLaunchCleanup slot report none
  · rename_i op hcur
    obtain ⟨hcur, -⟩ := Option.filter_eq_some_iff.1 hcur
    obtain ⟨hop, -, -⟩ := currentOperation_some hcur
    have hand : GrantedWith { s with
        pendingLaunch := s.pendingLaunch.remove i
        launchWorkers := s.launchWorkers.remove i
        operations := s.operations.remove i } op.reservation := grantedWith_remove h hop
    dsimp only
    split
    · exact hand.queueLaunchCleanup slot report _
    · exact hand.completeContainerSessionLaunch

theorem granted_cancelPending (h : Granted s) : Granted (s.cancelPending i) := by
  unfold State.cancelPending State.cancelOperation
  split
  · rename_i op hop
    split
    · apply granted_setOperation
      intro r
      rw [hop, Option.bind_some, h r]
    · exact granted_removeOperation (s := s.unvalidate i) h
  · exact h

theorem granted_map_active {f : ActiveSession P → ActiveSession P} (hf : ∀ a, (f a).reservation = a.reservation)
    (h : Granted s) : Granted { s with active := s.active.map f } := by
  intro r
  have hkeep : (s.active.map f).filterMap ActiveSession.reservation = s.active.filterMap ActiveSession.reservation := by
    rw [List.filterMap_map]
    congr 1
    funext a
    exact hf a
  simp only [State.reservations, hkeep]
  exact h r

theorem markStopping_reservation (a : ActiveSession P) : (State.markStopping i a).reservation = a.reservation := by
  unfold State.markStopping
  split <;> rfl

theorem markExited_reservation (a : ActiveSession P) : (State.markExited i a).reservation = a.reservation := by
  unfold State.markExited
  split <;> rfl

theorem granted_handle {m : Message P} (h : Granted s) : Granted (s.handle m) := by
  cases m with
  | check i =>
    show Granted (s.checkContainerSession i)
    unfold State.checkContainerSession
    split
    · rename_i hnone
      split
      · apply granted_setOperation (s := s.nextOperation) (i := i)
        intro r
        have hnext : s.nextOperation.operations.get i = none := Option.isNone_iff_eq_none.1 hnone.1
        rw [hnext]
        exact h r
      · exact h
    · exact h
  | start i => exact granted_startContainerSession h
  | resume i g =>
    show Granted (s.resumeContainerSession i g)
    unfold State.resumeContainerSession
    split
    · exact h
    · split
      · exact h
      · exact granted_startContainerSession h
  | stop i =>
    show Granted (s.stopContainerSession i)
    have hc := granted_cancelPending (i := i) h
    unfold State.stopContainerSession
    dsimp only
    split
    · exact granted_map_active markStopping_reservation hc
    · exact hc
  | forceStop i =>
    show Granted (s.forceStopContainerSession i)
    unfold State.forceStopContainerSession
    split
    · exact h
    · exact granted_stopActive h
  | createManaged slot =>
    show Granted (s.createManagedDisplay slot)
    have hr := granted_reapManaged h
    unfold State.createManagedDisplay
    dsimp only
    split
    · exact hr
    · exact hr
  | closeManaged slot =>
    show Granted (s.closeManagedDisplay slot)
    unfold State.closeManagedDisplay
    split
    · exact h
    · split
      · exact h
      · split
        · exact h
        · exact granted_queueDisplayCleanup (s := { s with managed := s.managed.eraseP fun d => d.slot = slot }) h
  | checked i g ok => exact granted_containerSessionChecked h
  | displayStarted i g w => exact granted_dedicatedDisplayStarted h
  | displayFailed i g slot =>
    show Granted (s.dedicatedDisplayFailed i g slot)
    unfold State.dedicatedDisplayFailed
    split
    · exact h
    · exact granted_removeOperation (s := { s.unvalidate i with pendingDisplay := s.pendingDisplay.remove i }) h
  | launchFinished i g slot report => exact granted_containerSessionLaunchFinished h
  | managedStarted g w =>
    show Granted (s.managedDisplayStarted g w)
    unfold State.managedDisplayStarted
    split
    · exact granted_queueDisplayCleanup h
    · dsimp only
      split
      · exact granted_queueDisplayCleanup (s := { s with pendingManaged := s.pendingManaged.remove w.slot }) h
      · exact h
  | managedFailed g slot =>
    show Granted (s.managedDisplayFailed g slot)
    unfold State.managedDisplayFailed
    split
    · exact h
    · exact h

theorem granted_step {e : Event P} (h : Granted s) (hs : step s e = some s') : Granted s' := by
  cases e with
  | user m =>
    obtain ⟨-, rfl⟩ := step_user hs
    exact h
  | finish job ok =>
    obtain ⟨-, rfl⟩ := step_finish hs
    exact h
  | handle =>
    obtain ⟨m, queue, -, rfl⟩ := step_handle hs
    exact granted_handle (s := { s with queue := queue }) h
  | edit config =>
    cases hs
    exact h
  | sessionExits i =>
    cases hs
    exact granted_map_active markExited_reservation h
  | managedExits slot =>
    cases hs
    exact h
  | maintain =>
    cases hs
    exact granted_reapSessions (granted_reapManaged h)
  | release index =>
    obtain ⟨c, hc, rfl⟩ := step_release hs
    have hperm : (c :: s.cleanup.eraseIdx index).Perm s.cleanup := by
      obtain ⟨hlt, rfl⟩ := List.getElem?_eq_some_iff.1 hc
      exact List.getElem_cons_eraseIdx_perm hlt
    have hand : GrantedWith { s with
        cleanup := s.cleanup.eraseIdx index
        released := c.resources ++ s.released } c.reservation := by
      intro r
      have hp := (hperm.filterMap Cleanup.reservation).count_eq r
      have hr := h r
      have hcons : ((c :: s.cleanup.eraseIdx index).filterMap Cleanup.reservation).count r =
          ((s.cleanup.eraseIdx index).filterMap Cleanup.reservation).count r + c.reservation.toList.count r := by
        rw [List.filterMap_cons]
        cases c.reservation with
        | none => rfl
        | some q => rw [Option.toList_some, List.count_cons, List.count_cons, List.count_nil, Nat.zero_add]
      simp only [State.reservations, List.count_append] at hr ⊢
      show _ = s.granted r
      omega
    exact hand.drop

end Steps

/-! ## The reservation of a launch -/

/-- The reservation of the runtime identity an operation launches under. -/
def Operation.own (op : Operation P) : Reservation P := ⟨op.session.identity, (op.session.id, op.generation)⟩

/-- An operation holds its own reservation, once its launch is requested. -/
def Operation.Reserved (op : Operation P) : Prop :=
  op.reservation = some op.own ∨ op.reservation = none ∧ op.launchRequested = false

/-- A running session holds the reservation of its identity, from the operation that launched it. -/
def ActiveSession.Reserved (a : ActiveSession P) : Prop :=
  ∃ g, a.reservation = some ⟨a.session.identity, (a.profile, g)⟩

structure View.Reserved (v : View P) : Prop where
  op : ∀ op ∈ v.op, op.Reserved
  requested : ∀ op ∈ v.op, v.validated = true ∨ v.launch.isSome = true → op.launchRequested = true
  active : ∀ a ∈ v.active, a.Reserved

section Reserved

variable {s : State P} {i : P}

variable {op : Operation P} {generation : Nat}

omit [DecidableEq P] in
theorem Operation.Reserved.of_requested (h : op.Reserved) (hr : op.launchRequested = true) :
    op.reservation = some op.own := by
  rcases h with h | ⟨-, h⟩
  · exact h
  · rw [hr] at h
    cases h

omit [DecidableEq P] in
theorem View.Reserved.shrinks {v v' : View P} (h : v.Reserved) (hs : Shrinks v v') : v'.Reserved := by
  obtain ⟨active, ha, rfl⟩ := hs
  exact ⟨h.op, h.requested, fun a hm => h.active a (ha.subset hm)⟩

omit [DecidableEq P] in
theorem View.Reserved.of_idle {v : View P} (h : v.op = none) (ha : ∀ a ∈ v.active, a.Reserved) : v.Reserved := by
  refine ⟨?_, ?_, ha⟩
  · intro op hop
    cases h.symm.trans hop
  · intro op hop
    cases h.symm.trans hop

omit [DecidableEq P] in
theorem reserveRuntime_own {s s' : State P} {op op' : Operation P} (h : s.reserveRuntime op = some (op', s'))
    (hop : op.reservation = some op.own ∨ op.reservation = none) : op'.reservation = some op'.own := by
  unfold State.reserveRuntime at h
  split at h
  · rename_i hsome
    cases h
    rcases hop with hop | hop
    · exact hop
    · rw [hop] at hsome
      cases hsome
  · dsimp only at h
    split at h
    · cases h
    · cases h
      rfl

omit [DecidableEq P] in
theorem Operation.Reserved.cases (h : op.Reserved) :
    op.reservation = some op.own ∨ op.reservation = none := h.imp_right And.left

theorem reserved_removeOperation (h : (s.view i).Reserved) : ((s.removeOperation i).view i).Reserved := by
  rw [view_removeOperation_self]
  exact .of_idle rfl h.active

/-- A check is spawned for an operation: its profile has nothing validated and no launch under way. -/
theorem reserved_spawnCheck (hc : Consistent i ((s.spawnCheck i op).view i)) (hop : op.Reserved)
    (ha : ∀ a ∈ (s.view i).active, a.Reserved) : ((s.spawnCheck i op).view i).Reserved := by
  rw [view_spawnCheck_self] at hc ⊢
  refine ⟨?_, ?_, ha⟩
  · rintro _ ⟨⟩
    exact hop
  · rintro _ ⟨⟩ hp
    generalize s.view i = v at hc hp
    obtain ⟨op₀, checking, validated, display, launch, worker, active, jobs⟩ := v
    dsimp only at hc hp
    generalize jobs ++ [Job.check i op.generation] = jobs at hc
    cases hc
    rcases hp with hp | hp <;> cases hp

theorem reserved_checkContainerSession (h : Consistent i (s.view i)) (hr : (s.view i).Reserved) :
    ((s.checkContainerSession i).view i).Reserved := by
  have hc := consistent_checkContainerSession h
  unfold State.checkContainerSession at hc ⊢
  split
  · rename_i hnone
    rw [if_pos hnone] at hc
    split
    · rename_i session hres
      rw [hres] at hc
      exact reserved_spawnCheck hc (.inr ⟨rfl, rfl⟩) hr.active
    · exact hr
  · exact hr

theorem reserved_restartCheck (h : Consistent i ((s.restartCheck i op).view i))
    (hop : op.reservation = none) (ha : ∀ a ∈ (s.view i).active, a.Reserved) :
    ((s.restartCheck i op).view i).Reserved := by
  unfold State.restartCheck at h ⊢
  split
  · rename_i hl
    rw [if_pos hl] at h
    split
    · rw [view_removeOperation_self]
      exact .of_idle rfl ha
    · rename_i op' s' hr
      rw [hr] at h
      apply reserved_spawnCheck h (.inl (reserveRuntime_own hr (.inr hop)))
      rw [view_reserveRuntime i hr]
      exact ha
  · rename_i hl
    rw [if_neg hl] at h
    exact reserved_spawnCheck h (.inr ⟨hop, by simpa using hl⟩) ha

theorem reserved_containerSessionChecked {ok : Bool} (hr : (s.view i).Reserved)
    (h : Consistent i ((s.containerSessionChecked i generation ok).view i)) :
    ((s.containerSessionChecked i generation ok).view i).Reserved := by
  unfold State.containerSessionChecked at h ⊢
  cases hcur : s.currentOperation i generation with
  | none => exact hr
  | some op =>
    rw [hcur] at h
    obtain ⟨hop, -, -⟩ := currentOperation_some hcur
    have hs : (State.view { s with checks := s.checks.erase i } i).Reserved := ⟨hr.op, hr.requested, hr.active⟩
    dsimp only at h ⊢
    split
    · exact reserved_removeOperation hs
    · rename_i hcan
      rw [if_neg hcan] at h
      split
      · exact reserved_removeOperation hs
      · rename_i configured hres
        rw [hres] at h
        dsimp only at h
        split
        · rename_i hedit
          rw [if_pos hedit] at h
          apply reserved_restartCheck h rfl
          rw [view_setOperation_self, view_dropReservation, view_nextOperation]
          exact hs.active
        · rename_i hedit
          rw [if_neg hedit] at h
          split
          · rename_i hok
            rw [view_send _ _ rfl, view_validate_self]
            refine ⟨hr.op, ?_, hr.active⟩
            rintro op' hop' -
            obtain rfl : op = op' := Option.some.inj (hop.symm.trans hop')
            exact (Bool.and_eq_true_iff.1 hok).2
          · exact reserved_removeOperation hs

theorem reserved_assignDisplay (hop : (s.view i).op = some op) (hl : op.launchRequested = true)
    (hr : (s.view i).Reserved) : ((s.assignDisplay i op).view i).Reserved := by
  have hreq : ∀ op' ∈ (s.view i).op, op'.launchRequested = true := by
    intro op' hop'
    obtain rfl : op = op' := Option.some.inj (hop.symm.trans hop')
    exact hl
  have hlaunch : ∀ slot, ((s.launchOn i op slot).view i).Reserved := by
    intro slot
    rw [view_launchOn_self]
    exact ⟨hr.op, fun op' hop' _ => hreq op' hop', hr.active⟩
  unfold State.assignDisplay
  split
  · exact reserved_removeOperation hr
  · dsimp only
    split
    · exact reserved_removeOperation hr
    · split
      · exact hlaunch _
      · split
        · exact reserved_removeOperation hr
        · split
          · exact hlaunch _
          · exact ⟨hr.op, fun op' hop' _ => hreq op' hop', hr.active⟩

theorem reserved_startPending {configured : Session P} (hr : (s.view i).Reserved)
    (h : Consistent i ((s.startPending i configured).view i)) :
    ((s.startPending i configured).view i).Reserved := by
  have hreserve : ∀ (t : State P) (op : Operation P), (∀ a ∈ (t.view i).active, a.Reserved) →
      (op.reservation = some op.own ∨ op.reservation = none) →
      ((t.view i).validated = true → op.launchRequested = true) →
      (t.view i).launch = none →
      Consistent i ((t.startOperation i op).view i) →
      ((t.startOperation i op).view i).Reserved := by
    intro t op ha hop hl hlaunch ht
    unfold State.startOperation at ht ⊢
    split
    · rw [view_removeOperation_self, view_unvalidate_self]
      exact .of_idle rfl ha
    · rename_i op' s' hres
      obtain ⟨-, -, hl', -, -⟩ := reserveRuntime_spec hres
      have hown := reserveRuntime_own hres hop
      have hview := view_reserveRuntime i hres
      rw [hres] at ht
      dsimp only at ht ⊢
      split
      · rename_i hnot
        rw [if_pos hnot] at ht
        apply reserved_spawnCheck ht (.inl hown)
        rw [view_setOperation_self, hview]
        exact ha
      · rename_i hin
        have hval : (t.view i).validated = true := by
          rw [← hview]
          exact isIn_iff.2 (show i ∈ s'.validated from Decidable.not_not.1 hin)
        apply reserved_assignDisplay
        · rw [view_unvalidate_self, view_setOperation_self]
        · rw [hl', hl hval]
        · rw [view_unvalidate_self, view_setOperation_self, hview]
          refine ⟨?_, ?_, ha⟩
          · rintro _ ⟨⟩
            exact .inl hown
          · rintro _ ⟨⟩ -
            rw [hl', hl hval]
  unfold State.startPending at h ⊢
  split
  · exact hr
  · rename_i hp
    rw [if_neg hp] at h
    have hlaunch : s.pendingLaunch.get i = none := by
      simp only [Bool.or_eq_true, not_or, Bool.not_eq_true, Option.isSome_eq_false_iff, Option.isNone_iff_eq_none] at hp
      exact hp.2
    cases hop : s.operations.get i with
    | some op =>
      rw [hop] at h
      exact hreserve s op hr.active (hr.op op hop).cases (fun hv => hr.requested op hop (.inl hv)) hlaunch h
    | none =>
      rw [hop] at h
      exact hreserve s.nextOperation _ hr.active (.inr rfl) (fun _ => rfl) hlaunch h

theorem reserved_startContainerSession (hr : (s.view i).Reserved) (h : Consistent i (s.view i)) :
    ((s.startContainerSession i).view i).Reserved := by
  have hc := consistent_startContainerSession h
  unfold State.startContainerSession at hc ⊢
  split
  · exact hr
  · rename_i configured hres
    rw [hres] at hc
    dsimp only at hc
    split
    · exact hr
    · rename_i hbusy
      rw [if_neg hbusy] at hc
      have hv : (s.reapSessions.view i).Reserved := hr.shrinks (view_reapSessions_shrinks s i)
      have hr' : Consistent i (s.reapSessions.view i) := h.shrinks (view_reapSessions_shrinks s i)
      generalize s.reapSessions = s at hc hv hr'
      dsimp only at hc ⊢
      split
      · split
        · exact hv
        · apply reserved_removeOperation
          rw [view_unvalidate_self]
          refine ⟨hv.op, ?_, hv.active⟩
          intro op hop hp
          exact hv.requested op hop (.inr (hp.resolve_left Bool.false_ne_true))
      · rename_i hact
        rw [if_neg hact] at hc
        split
        · rename_i op hop
          rw [hop] at hc
          dsimp only at hc
          split
          · exact hv
          · rename_i hcan
            rw [if_neg hcan] at hc
            split
            · rename_i hin
              rw [if_pos hin] at hc
              split
              · exact hv
              · rename_i op' s' hres'
                rw [view_setOperation_self, view_reserveRuntime i hres']
                refine ⟨?_, ?_, hv.active⟩
                · rintro _ ⟨⟩
                  have hown : op'.reservation = some op'.own := reserveRuntime_own hres' (hv.op op hop).cases
                  exact .inl hown
                · rintro _ ⟨⟩ -
                  rfl
            · rename_i hin
              rw [if_neg hin] at hc
              exact reserved_startPending hv hc
        · rename_i hop
          rw [hop] at hc
          exact reserved_startPending hv hc

theorem reserved_dedicatedDisplayStarted {w : DisplayWorker} (hr : (s.view i).Reserved) :
    ((s.dedicatedDisplayStarted i generation w).view i).Reserved := by
  have habandon : ∀ (t : State P) (op : Operation P), (∀ a ∈ (t.view i).active, a.Reserved) →
      ((t.abandonDisplay i op w).view i).Reserved := by
    intro t op ha
    rw [view_abandonDisplay_self]
    exact .of_idle rfl ha
  unfold State.dedicatedDisplayStarted
  split
  · exact hr
  · rename_i op hcur
    obtain ⟨hcur, -⟩ := Option.filter_eq_some_iff.1 hcur
    obtain ⟨hop, -, -⟩ := currentOperation_some hcur
    have hactive : ∀ a ∈ (State.reapSessions { s with pendingDisplay := s.pendingDisplay.remove i }).view i |>.active,
        a.Reserved :=
      fun a ha => (hr.shrinks (view_reapSessions_shrinks s i)).active a ha
    dsimp only
    split
    · exact habandon _ op hr.active
    · split
      · exact habandon _ op hr.active
      · split
        · exact habandon _ op hactive
        · rename_i hval
          rw [view_launchOn_self]
          refine ⟨fun op' hop' => hr.op op' hop', ?_, hactive⟩
          rintro op' hop' -
          apply hr.requested op' hop'
          left
          apply isIn_iff.2
          simp only [Bool.or_eq_true, decide_eq_true_eq, not_or, Decidable.not_not] at hval
          exact hval.2

theorem reserved_containerSessionLaunchFinished {slot : String} {report : Option LaunchReport}
    (hr : (s.view i).Reserved) : ((s.containerSessionLaunchFinished i generation slot report).view i).Reserved := by
  unfold State.containerSessionLaunchFinished
  split
  · exact hr
  · rename_i op hcur
    obtain ⟨hcur, hslot⟩ := Option.filter_eq_some_iff.1 hcur
    obtain ⟨hop, hid, hg⟩ := currentOperation_some hcur
    have hnone : (s.operations.remove i).get i = none := Table.get_remove_self _ _
    have hempty : View.Reserved (State.view { s with
        pendingLaunch := s.pendingLaunch.remove i
        launchWorkers := s.launchWorkers.remove i
        operations := s.operations.remove i } i) := .of_idle hnone hr.active
    dsimp only
    split
    · exact hempty
    · unfold State.completeContainerSessionLaunch
      split
      · refine ⟨hempty.op, hempty.requested, ?_⟩
        intro a ha
        have ha' := (List.mem_filter.1 ha).1
        have hp := (List.mem_filter.1 ha).2
        rcases List.mem_append.1 ha' with hm | hm
        · exact hr.active a (List.mem_filter.2 ⟨hm, hp⟩)
        · have hl : s.pendingLaunch.get i = some slot := by simpa using hslot
          have hreq : op.launchRequested = true := by
            apply hr.requested op hop
            right
            show (s.pendingLaunch.get i).isSome = true
            rw [hl]
            rfl
          obtain rfl := List.mem_singleton.1 hm
          refine ⟨op.generation, ?_⟩
          show op.reservation = some ⟨op.session.identity, (i, op.generation)⟩
          rw [(hr.op op hop).of_requested hreq, Operation.own, hid]
      · split
        · exact hempty
        · rw [view_dropReservation]
          exact hempty

theorem reserved_stopContainerSession (hr : (s.view i).Reserved) : ((s.stopContainerSession i).view i).Reserved := by
  have hc : ((s.cancelPending i).view i).Reserved := by
    unfold State.cancelPending State.cancelOperation
    split
    · rename_i op hop
      split
      · rw [view_setOperation_self]
        refine ⟨?_, ?_, hr.active⟩
        · rintro _ ⟨⟩
          exact hr.op op hop
        · rintro _ ⟨⟩ hp
          exact hr.requested op hop hp
      · rw [view_removeOperation_self]
        exact .of_idle rfl hr.active
    · exact hr
  unfold State.stopContainerSession
  dsimp only
  split
  · rw [view_requestGracefulStop]
    refine ⟨hc.op, hc.requested, ?_⟩
    intro a ha
    obtain ⟨b, hb, rfl⟩ := List.mem_map.1 ha
    obtain ⟨g, hg⟩ := hc.active b hb
    refine ⟨g, ?_⟩
    unfold State.markStopping
    split <;> exact hg
  · exact hc

theorem reserved_self {m : Message P} (hm : m.profile? = some i)
    (h : Consistent i { s.view i with jobs := m.jobOf i ++ (s.view i).jobs }) (hr : (s.view i).Reserved) :
    ((s.handle m).view i).Reserved := by
  have hafter := self_handle hm h
  cases m <;> cases hm
  case check => exact reserved_checkContainerSession h hr
  case start => exact reserved_startContainerSession hr h
  case resume g =>
    show ((s.resumeContainerSession i g).view i).Reserved
    unfold State.resumeContainerSession
    split
    · exact hr
    · split
      · exact hr
      · exact reserved_startContainerSession hr h
  case stop => exact reserved_stopContainerSession hr
  case forceStop =>
    show ((s.forceStopContainerSession i).view i).Reserved
    unfold State.forceStopContainerSession
    split
    · rw [view_send _ _ rfl]
      exact hr
    · exact hr.shrinks (view_stopActive_shrinks s i i)
  case checked g ok => exact reserved_containerSessionChecked hr hafter
  case displayStarted g w => exact reserved_dedicatedDisplayStarted hr
  case displayFailed g slot =>
    show ((s.dedicatedDisplayFailed i g slot).view i).Reserved
    unfold State.dedicatedDisplayFailed
    split
    · exact hr
    · rw [view_removeOperation_self]
      exact .of_idle rfl hr.active
  case launchFinished g slot report => exact reserved_containerSessionLaunchFinished hr

theorem reserved_step {s s' : State P} {e : Event P} (hc : ∀ i, Consistent i (s.view i))
    (hr : ∀ i, (s.view i).Reserved) (hs : step s e = some s') (i : P) : (s'.view i).Reserved := by
  have hi := hr i
  cases e with
  | user m =>
    obtain ⟨hm, rfl⟩ := step_user hs
    rw [view_send _ _ (Message.job?_of_fromUser hm)]
    exact hi
  | finish job ok =>
    obtain ⟨-, rfl⟩ := step_finish hs
    exact ⟨hi.op, hi.requested, hi.active⟩
  | handle =>
    obtain ⟨m, queue, hq, rfl⟩ := step_handle hs
    have hci := hc i
    rw [view_of_queue hq] at hci
    have hri : (State.view { s with queue := queue } i).Reserved := ⟨hi.op, hi.requested, hi.active⟩
    by_cases hm : m.profile? = some i
    · exact reserved_self hm hci hri
    · exact hri.shrinks (other_handle hm)
  | edit config =>
    cases hs
    exact hi
  | sessionExits k =>
    cases hs
    refine ⟨hi.op, hi.requested, ?_⟩
    intro a ha
    have ha' : a ∈ (s.active.map (State.markExited k)).filter fun a => a.profile = i := ha
    rw [filter_map_profile fun a => markExited_profile a] at ha'
    obtain ⟨b, hb, rfl⟩ := List.mem_map.1 ha'
    obtain ⟨g, hg⟩ := hi.active b hb
    refine ⟨g, ?_⟩
    unfold State.markExited
    split <;> exact hg
  | managedExits slot =>
    cases hs
    exact hi
  | maintain =>
    cases hs
    exact (hi.shrinks (view_reapManaged_shrinks s i)).shrinks (view_reapSessions_shrinks _ i)
  | release index =>
    obtain ⟨c, -, rfl⟩ := step_release hs
    unfold State.releaseCleanup
    rw [view_dropReservation]
    exact hi

end Reserved

/-- Reservations held are registered, and launches and running sessions hold their own. -/
theorem reservations_reachable {s : State P} (h : (system P).Reachable s) :
    Granted s ∧ ∀ i, (s.view i).Reserved := by
  have hall : (∀ i, Consistent i (s.view i)) ∧ Granted s ∧ ∀ i, (s.view i).Reserved := by
    refine System.Reachable.invariant
      (I := fun s => (∀ i, Consistent i (s.view i)) ∧ Granted s ∧ ∀ i, (s.view i).Reserved) ?_ ?_ h
    · refine ⟨fun _ => .idle (Nat.zero_le 1), fun _ => rfl, fun _ => ⟨?_, ?_, ?_⟩⟩
      · exact fun _ hm => nomatch hm
      · exact fun _ hm => nomatch hm
      · exact fun _ hm => nomatch hm
    · intro s e s' hi hs
      exact ⟨consistent_step hi.1 hs, granted_step hi.2.1 hs, reserved_step hi.1 hi.2.2 hs⟩
  exact hall.2

end CocoaWay.Launch
