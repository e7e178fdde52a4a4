import CocoaWay.Launch.Handlers

/-!
# Phases of a profile

* `View`, `State.view` : what the tables, the workers and the queue say about one profile;
* `Consistent` : the five phases of a profile, from idle to launching;
* `view_*` : what the shared steps do to a view; `Shrinks` : all that a handler does to the views of other profiles;
* `consistent_*` : one lemma for each handler; `consistent_step`, `consistent_reachable`.
-/

namespace CocoaWay.Launch

open CocoaWay.Lib

variable {P : Type} [DecidableEq P]

/-! ## Outstanding workers -/

/-- The worker whose report a message is. -/
def Message.job? : Message P → Option (Job P)
  | .checked i g _ => some (.check i g)
  | .displayStarted i g w => some (.display i g w.slot)
  | .displayFailed i g slot => some (.display i g slot)
  | .launchFinished i g slot _ => some (.launch i g slot)
  | .managedStarted g w => some (.managed g w.slot)
  | .managedFailed g slot => some (.managed g slot)
  | _ => none

/-- The profile a worker works for. -/
def Job.profile? : Job P → Option P
  | .check i _ => some i
  | .display i _ _ => some i
  | .launch i _ _ => some i
  | .managed _ _ => none

/-- The workers of a profile whose report has not been handled: reports in the queue, then workers at work. -/
def State.jobs (s : State P) (i : P) : List (Job P) :=
  (s.queue.filterMap Message.job?).filter (fun j => j.profile? = some i) ++
    s.workers.filter fun j => j.profile? = some i

/-! ## Views -/

/-- Membership as a value. -/
def isIn (t : Finset P) (i : P) : Bool := i ∈ t

theorem isIn_iff {t : Finset P} {i : P} : isIn t i = true ↔ i ∈ t := decide_eq_true_iff

@[simp] theorem isIn_insert_self (t : Finset P) (i : P) : isIn (insert i t) i = true := by simp [isIn]

@[simp] theorem isIn_erase_self (t : Finset P) (i : P) : isIn (t.erase i) i = false := by simp [isIn]

theorem isIn_insert_of_ne (t : Finset P) {i j : P} (h : j ≠ i) : isIn (insert i t) j = isIn t j := by simp [isIn, h]

theorem isIn_erase_of_ne (t : Finset P) {i j : P} (h : j ≠ i) : isIn (t.erase i) j = isIn t j := by simp [isIn, h]

structure View (P : Type) where
  op : Option (Operation P)
  checking : Bool
  validated : Bool
  display : Option String
  launch : Option String
  worker : Option DisplayWorker
  active : List (ActiveSession P)
  jobs : List (Job P)

def State.view (s : State P) (i : P) : View P where
  op := s.operations.get i
  checking := isIn s.checks i
  validated := isIn s.validated i
  display := s.pendingDisplay.get i
  launch := s.pendingLaunch.get i
  worker := s.launchWorkers.get i
  active := s.active.filter fun a => a.profile = i
  jobs := s.jobs i

/-- The phases of a profile. -/
inductive Consistent (i : P) : View P → Prop
  /-- Nothing is pending. -/
  | idle {active : List (ActiveSession P)} (ha : active.length ≤ 1) :
    Consistent i ⟨none, false, false, none, none, none, active, []⟩
  /-- A check is under way, perhaps of a running application. -/
  | checking {op : Operation P} {active : List (ActiveSession P)} (hid : op.session.id = i) (ha : active.length ≤ 1) :
    Consistent i ⟨some op, true, false, none, none, none, active, [.check i op.generation]⟩
  /-- The check succeeded, the launch has yet to resume. -/
  | waiting {op : Operation P} {active : List (ActiveSession P)} (hid : op.session.id = i) (ha : active.length ≤ 1)
    (hc : op.cancelled = false) : Consistent i ⟨some op, false, true, none, none, none, active, []⟩
  /-- A dedicated display is starting. -/
  | display {op : Operation P} {slot : String} (hid : op.session.id = i) :
    Consistent i ⟨some op, false, true, some slot, none, none, [], [.display i op.generation slot]⟩
  /-- The application is launching, perhaps on a display of its own. -/
  | launching {op : Operation P} {slot : String} {worker : Option DisplayWorker} (hid : op.session.id = i)
    (hw : ∀ w ∈ worker, w.slot = slot) :
    Consistent i ⟨some op, false, false, none, some slot, worker, [], [.launch i op.generation slot]⟩

/-- Some running sessions may be gone, all else is the same. -/
def Shrinks (v v' : View P) : Prop := ∃ active, active.Sublist v.active ∧ v' = { v with active := active }

omit [DecidableEq P] in
theorem Shrinks.refl (v : View P) : Shrinks v v := ⟨v.active, List.Sublist.refl _, rfl⟩

omit [DecidableEq P] in
theorem Shrinks.of_eq {v v' : View P} (h : v' = v) : Shrinks v v' := h ▸ .refl v

omit [DecidableEq P] in
theorem Shrinks.trans {v v' v'' : View P} (h : Shrinks v v') (h' : Shrinks v' v'') : Shrinks v v'' := by
  obtain ⟨a, ha, rfl⟩ := h
  obtain ⟨a', ha', rfl⟩ := h'
  exact ⟨a', ha'.trans ha, rfl⟩

omit [DecidableEq P] in
theorem Consistent.shrinks {i : P} {v v' : View P} (h : Consistent i v) (hs : Shrinks v v') : Consistent i v' := by
  obtain ⟨a, ha, rfl⟩ := hs
  cases h with
  | idle hl => exact .idle (ha.length_le.trans hl)
  | checking hid hl => exact .checking hid (ha.length_le.trans hl)
  | waiting hid hl hc => exact .waiting hid (ha.length_le.trans hl) hc
  | display hid =>
    obtain rfl := List.sublist_nil.1 ha
    exact .display hid
  | launching hid hw =>
    obtain rfl := List.sublist_nil.1 ha
    exact .launching hid hw

variable {m : Message P} {op : Operation P} {generation : Nat} {active : List (ActiveSession P)}
  {configured : Session P} {v : View P}

omit [DecidableEq P] in
/-- The order of the outstanding workers does not matter: there is at most one. -/
theorem Consistent.perm {i : P} {jobs : List (Job P)} (h : Consistent i v) (hj : jobs.Perm v.jobs) :
    Consistent i { v with jobs := jobs } := by
  cases h with
  | idle hl =>
    obtain rfl := List.Perm.eq_nil hj
    exact .idle hl
  | checking hid hl =>
    obtain rfl := List.perm_singleton.1 hj
    exact .checking hid hl
  | waiting hid hl hc =>
    obtain rfl := List.Perm.eq_nil hj
    exact .waiting hid hl hc
  | display hid =>
    obtain rfl := List.perm_singleton.1 hj
    exact .display hid
  | launching hid hw =>
    obtain rfl := List.perm_singleton.1 hj
    exact .launching hid hw

omit [DecidableEq P] in
theorem Consistent.op_id {i : P} (h : Consistent i v) (hop : v.op = some op) : op.session.id = i := by
  cases h <;> cases hop <;> assumption

/-! ## The shared steps -/

variable (s : State P) (i j : P)

@[simp] theorem view_dropReservation (r : Option (Reservation P)) : (s.dropReservation r).view j = s.view j := by
  unfold State.dropReservation
  split
  · rfl
  · split <;> rfl

@[simp] theorem view_queueDisplayCleanup (w : DisplayWorker) (late : Bool) :
    (s.queueDisplayCleanup w late).view j = s.view j := rfl

@[simp] theorem view_queueLaunchCleanup (slot : String) (report : Option LaunchReport) (worker : Option DisplayWorker)
    (r : Option (Reservation P)) : (s.queueLaunchCleanup i slot report worker r).view j = s.view j := rfl

@[simp] theorem view_nextOperation : s.nextOperation.view j = s.view j := rfl

theorem view_setOperation_self (op : Operation P) : (s.setOperation i op).view i = { s.view i with op := some op } := by
  simp [State.setOperation, State.view, State.jobs]

theorem view_setOperation_of_ne (op : Operation P) (h : j ≠ i) : (s.setOperation i op).view j = s.view j := by
  simp [State.setOperation, State.view, State.jobs, Table.get_set_of_ne _ _ h]

theorem view_unvalidate_self : (s.unvalidate i).view i = { s.view i with validated := false } := by
  simp [State.unvalidate, State.view, State.jobs]

theorem view_unvalidate_of_ne (h : j ≠ i) : (s.unvalidate i).view j = s.view j := by
  simp [State.unvalidate, State.view, State.jobs, isIn_erase_of_ne _ h]

theorem view_removeOperation_self : (s.removeOperation i).view i = { s.view i with op := none } := by
  unfold State.removeOperation
  cases h : s.operations.get i with
  | none => simp [State.view, h]
  | some op =>
    rw [view_dropReservation]
    simp [State.view, State.jobs]

theorem view_removeOperation_of_ne (h : j ≠ i) : (s.removeOperation i).view j = s.view j := by
  unfold State.removeOperation
  split
  · rfl
  · rw [view_dropReservation]
    simp [State.view, State.jobs, Table.get_remove_of_ne _ h]

@[simp] theorem view_reapSessions :
    s.reapSessions.view j = { s.view j with active := (s.view j).active.filter fun a => !a.exited } := by
  simp only [State.reapSessions, State.view, State.jobs, List.filter_filter]
  congr 1
  apply List.filter_congr
  intro a _
  rw [Bool.and_comm]

theorem view_reapSessions_shrinks : Shrinks (s.view j) (s.reapSessions.view j) :=
  ⟨_, List.filter_sublist, view_reapSessions s j⟩

theorem view_stopActive_shrinks : Shrinks (s.view j) ((s.stopActive i).view j) := by
  unfold State.stopActive
  split
  · exact .refl _
  · exact ⟨_, (List.eraseP_sublist).filter _, rfl⟩

theorem view_foldl_stopActive (l : List P) : Shrinks (s.view j) ((l.foldl State.stopActive s).view j) := by
  induction l generalizing s with
  | nil => exact .refl _
  | cons i l ih => exact (view_stopActive_shrinks s i j).trans (ih _)

theorem view_reapManaged_shrinks : Shrinks (s.view j) (s.reapManaged.view j) := by
  unfold State.reapManaged
  have hloop : ∀ (l : List ManagedDisplay) (t : State P), Shrinks (t.view j) ((l.foldl State.reapManagedDisplay t).view j) := by
    intro l
    induction l with
    | nil => exact fun t => .refl _
    | cons d l ih =>
      intro t
      refine Shrinks.trans ?_ (ih _)
      rw [State.reapManagedDisplay, view_queueDisplayCleanup]
      exact view_foldl_stopActive t j _
  exact hloop _ { s with managed := s.managed.filter fun d => !d.exited }

omit [DecidableEq P] in
theorem reserveRuntime_spec {s s' : State P} {op op' : Operation P} (h : s.reserveRuntime op = some (op', s')) :
    op'.session = op.session ∧ op'.generation = op.generation ∧ op'.launchRequested = op.launchRequested ∧
      op'.cancelled = op.cancelled ∧ s' = { s with identities := s'.identities } := by
  unfold State.reserveRuntime at h
  split at h
  · cases h
    exact ⟨rfl, rfl, rfl, rfl, rfl⟩
  · dsimp only at h
    split at h
    · cases h
    · cases h
      exact ⟨rfl, rfl, rfl, rfl, rfl⟩

theorem view_reserveRuntime {s s' : State P} {op op' : Operation P} (h : s.reserveRuntime op = some (op', s')) :
    s'.view j = s.view j := by
  obtain ⟨-, -, -, -, he⟩ := reserveRuntime_spec h
  rw [he]
  rfl

theorem view_spawnCheck_self (op : Operation P) : (s.spawnCheck i op).view i =
    { s.view i with op := some op, checking := true, jobs := (s.view i).jobs ++ [.check i op.generation] } := by
  simp [State.spawnCheck, State.setOperation, State.view, State.jobs, Job.profile?]

theorem view_spawnCheck_of_ne (op : Operation P) (h : j ≠ i) : (s.spawnCheck i op).view j = s.view j := by
  simp [State.spawnCheck, State.setOperation, State.view, State.jobs, Job.profile?, Table.get_set_of_ne _ _ h,
    isIn_insert_of_ne _ h, h.symm]

theorem view_validate_self : (s.validate i).view i = { s.view i with validated := true } := by
  simp [State.validate, State.view, State.jobs]

theorem view_validate_of_ne (h : j ≠ i) : (s.validate i).view j = s.view j := by
  simp [State.validate, State.view, State.jobs, isIn_insert_of_ne _ h]

theorem view_send (h : m.job? = none) : (s.send m).view j = s.view j := by
  simp [State.send, State.view, State.jobs, h]

theorem view_abandonDisplay_self (op : Operation P) (w : DisplayWorker) : (s.abandonDisplay i op w).view i =
    { s.view i with op := none, validated := false } := by
  simp [State.abandonDisplay, State.unvalidate, State.queueLaunchCleanup, State.view, State.jobs]

theorem view_abandonDisplay_of_ne (op : Operation P) (w : DisplayWorker) (h : j ≠ i) :
    (s.abandonDisplay i op w).view j = s.view j := by
  simp [State.abandonDisplay, State.unvalidate, State.queueLaunchCleanup, State.view, State.jobs, Table.get_remove_of_ne _ h,
    isIn_erase_of_ne _ h]

theorem view_launchOn_self (op : Operation P) (slot : String) : (s.launchOn i op slot).view i =
    { s.view i with launch := some slot, jobs := (s.view i).jobs ++ [.launch i op.generation slot] } := by
  simp [State.launchOn, State.view, State.jobs, Job.profile?]

theorem view_launchOn_of_ne (op : Operation P) (slot : String) (h : j ≠ i) :
    (s.launchOn i op slot).view j = s.view j := by
  simp [State.launchOn, State.view, State.jobs, Job.profile?, Table.get_set_of_ne _ _ h, h.symm]

/-! ## One lemma for each handler -/

variable {s : State P} {i : P}

theorem currentOperation_some (h : s.currentOperation i generation = some op) :
    s.operations.get i = some op ∧ op.session.id = i ∧ op.generation = generation := by
  simpa [State.currentOperation, Option.filter_eq_some_iff] using h

theorem currentOperation_of_view (h : (s.view i).op = some op) (hid : op.session.id = i) :
    s.currentOperation i op.generation = some op := by
  have : s.operations.get i = some op := h
  simp [State.currentOperation, this, hid]

theorem resolve_id (h : s.resolve i = some configured) : configured.id = i := by
  simpa using List.find?_some h

theorem consistent_checkContainerSession (h : Consistent i (s.view i)) :
    Consistent i ((s.checkContainerSession i).view i) := by
  unfold State.checkContainerSession
  split
  · rename_i hnone
    split
    · rename_i session hres
      rw [view_spawnCheck_self, view_nextOperation]
      rcases hv : s.view i with ⟨op, checking, validated, display, launch, worker, active, jobs⟩
      have hop : op = none := (congrArg View.op hv).symm.trans (Option.isNone_iff_eq_none.1 hnone.1)
      rw [hv] at h
      dsimp only
      cases h with
      | idle ha => exact .checking (resolve_id hres) ha
      | checking => cases hop
      | waiting => cases hop
      | display => cases hop
      | launching => cases hop
    · exact h
  · exact h

theorem consistent_restartCheck
    (hv : s.view i = ⟨some op, false, false, none, none, none, active, []⟩) (ha : active.length ≤ 1)
    (hid : op.session.id = i) : Consistent i ((s.restartCheck i op).view i) := by
  unfold State.restartCheck
  split
  · split
    · rw [view_removeOperation_self, hv]
      exact .idle ha
    · rename_i op' s' hr
      obtain ⟨hs, -⟩ := reserveRuntime_spec hr
      rw [view_spawnCheck_self, view_reserveRuntime i hr, hv]
      exact .checking (hs ▸ hid) ha
  · rw [view_spawnCheck_self, hv]
    exact .checking hid ha

/-- The new check of an edited profile, or no operation if its identity is taken. -/
theorem consistent_recheck {op op₀ : Operation P}
    (hv : s.view i = ⟨some op₀, false, false, none, none, none, active, []⟩) (ha : active.length ≤ 1)
    (hid : configured.id = i) : Consistent i ((s.recheck i op configured).view i) := by
  refine consistent_restartCheck ?_ ha hid
  rw [view_setOperation_self, view_dropReservation, view_nextOperation, hv]

theorem consistent_containerSessionChecked (ok : Bool)
    (h : Consistent i { s.view i with jobs := .check i generation :: (s.view i).jobs }) :
    Consistent i ((s.containerSessionChecked i generation ok).view i) := by
  rcases hv : s.view i with ⟨op, checking, validated, display, launch, worker, active, jobs⟩
  rw [hv] at h
  cases h with
  | @checking op active hid ha =>
    have hcur := currentOperation_of_view (congrArg View.op hv) hid
    have herase : State.view { s with checks := s.checks.erase i } i =
        ⟨some op, false, false, none, none, none, active, []⟩ := by
      show { s.view i with checking := isIn (s.checks.erase i) i } = _
      rw [hv, isIn_erase_self]
    unfold State.containerSessionChecked
    rw [hcur]
    dsimp only
    split
    · rw [view_removeOperation_self, herase]
      exact .idle ha
    · rename_i hc
      split
      · rw [view_removeOperation_self, herase]
        exact .idle ha
      · rename_i configured hres
        split
        · exact consistent_recheck herase ha (resolve_id hres)
        · split
          · rename_i hok
            rw [view_send _ _ rfl, view_validate_self, herase]
            exact .waiting hid ha (by simpa using hc)
          · rw [view_removeOperation_self, herase]
            exact .idle ha

theorem isActive_ne_nil (h : s.isActive i = true) : (s.view i).active ≠ [] := by
  obtain ⟨a, ha, hp⟩ := List.any_eq_true.1 h
  intro hnil
  have hm : a ∈ (s.view i).active := List.mem_filter.2 ⟨ha, hp⟩
  rw [hnil] at hm
  cases hm

theorem isActive_eq_false (h : s.isActive i = false) : (s.view i).active = [] := by
  simpa [State.isActive, State.view, List.filter_eq_nil_iff] using h

/-- A validated launch, taken out of the validated checks. -/
theorem consistent_assignDisplay
    (hv : s.view i = ⟨some op, false, false, none, none, none, [], []⟩) (hid : op.session.id = i) :
    Consistent i ((s.assignDisplay i op).view i) := by
  have hremove : Consistent i ((s.removeOperation i).view i) := by
    rw [view_removeOperation_self, hv]
    exact .idle (Nat.zero_le 1)
  have hlaunch : ∀ slot, Consistent i ((s.launchOn i op slot).view i) := by
    intro slot
    rw [view_launchOn_self, hv]
    exact .launching hid (by simp)
  unfold State.assignDisplay
  split
  · exact hremove
  · dsimp only
    split
    · exact hremove
    · split
      · exact hlaunch _
      · rename_i slot _
        split
        · exact hremove
        · split
          · exact hlaunch _
          · have hdisplay : State.view
                { s.validate i with
                  pendingDisplay := s.pendingDisplay.set i slot
                  workers := s.workers ++ [.display i op.generation slot] } i =
                { s.view i with
                  validated := true, display := some slot, jobs := (s.view i).jobs ++ [.display i op.generation slot] } := by
              simp [State.validate, State.view, State.jobs, Job.profile?]
            rw [hdisplay, hv]
            exact .display hid

theorem consistent_startPending (h : Consistent i (s.view i)) (ha : (s.view i).active = [])
    (hc : (s.view i).checking = false) (hid : configured.id = i) :
    Consistent i ((s.startPending i configured).view i) := by
  unfold State.startPending
  split
  · exact h
  · rename_i hp
    rcases hv : s.view i with ⟨op, checking, validated, display, launch, worker, active, jobs⟩
    have hop : s.operations.get i = op := congrArg View.op hv
    have hval : isIn s.validated i = validated := congrArg View.validated hv
    simp only [hv] at h ha hc
    subst ha hc
    cases h with
    | idle =>
      rw [hop]
      dsimp only
      split
      · rw [view_removeOperation_self, view_unvalidate_self, view_nextOperation, hv]
        exact .idle (Nat.zero_le 1)
      · rename_i op' s' hr
        obtain ⟨hs, hg, -, -, he⟩ := reserveRuntime_spec hr
        have hvs : (s'.setOperation i op').view i = ⟨some op', false, false, none, none, none, [], []⟩ := by
          rw [view_setOperation_self, view_reserveRuntime i hr, view_nextOperation, hv]
        have hnot : i ∉ (s'.setOperation i op').validated := by
          intro hm
          have := (congrArg View.validated hvs).symm.trans (isIn_iff.2 hm)
          cases this
        rw [if_pos hnot, view_spawnCheck_self, hvs]
        exact .checking (by rw [hs]; exact hid) (Nat.zero_le 1)
    | @waiting op _ hid' _ hcan =>
      rw [hop]
      dsimp only
      split
      · rw [view_removeOperation_self, view_unvalidate_self, hv]
        exact .idle (Nat.zero_le 1)
      · rename_i op' s' hr
        obtain ⟨hs, hg, -, -, he⟩ := reserveRuntime_spec hr
        have hvs : (s'.setOperation i op').view i = ⟨some op', false, true, none, none, none, [], []⟩ := by
          rw [view_setOperation_self, view_reserveRuntime i hr, hv]
        have hin : i ∈ (s'.setOperation i op').validated := isIn_iff.1 (congrArg View.validated hvs)
        rw [if_neg (by simpa using hin)]
        apply consistent_assignDisplay
        · rw [view_unvalidate_self, hvs]
        · rw [hs]
          exact hid'
    | display =>
      have : s.pendingDisplay.get i = some _ := congrArg View.display hv
      simp [this] at hp
    | launching =>
      have : s.pendingLaunch.get i = some _ := congrArg View.launch hv
      simp [this] at hp

theorem consistent_startContainerSession (h : Consistent i (s.view i)) :
    Consistent i ((s.startContainerSession i).view i) := by
  unfold State.startContainerSession
  split
  · exact h
  · rename_i configured hres
    split
    · exact h
    · have hr : Consistent i (s.reapSessions.view i) := h.shrinks (view_reapSessions_shrinks s i)
      generalize s.reapSessions = s at hr
      dsimp only
      split
      · rename_i hact
        split
        · exact hr
        · rename_i hnot
          rw [view_removeOperation_self, view_unvalidate_self]
          dsimp only
          have hlen := isActive_ne_nil hact
          have hck : (s.view i).checking = false := by simpa [State.view, isIn] using hnot
          revert hr hlen hck
          generalize s.view i = v
          intro hr hlen hck
          cases hr with
          | idle ha => exact .idle ha
          | checking => cases hck
          | waiting _ ha => exact .idle ha
          | display => exact absurd rfl hlen
          | launching => exact absurd rfl hlen
      · rename_i hact
        have ha := isActive_eq_false (by simpa using hact)
        split
        · rename_i op hop
          split
          · exact hr
          · split
            · rename_i hin
              split
              · exact hr
              · rename_i op' s' hres'
                obtain ⟨hs, hg, -⟩ := reserveRuntime_spec hres'
                rw [view_setOperation_self, view_reserveRuntime i hres']
                have hck : (s.view i).checking = true := isIn_iff.2 hin
                have hvop : (s.view i).op = some op := hop
                dsimp only
                revert hr hck hvop
                generalize s.view i = v
                intro hr hck hvop
                cases hr with
                | idle => cases hck
                | checking hid hl =>
                  cases hvop
                  rw [← hg]
                  have hid' : ({ op' with launchRequested := true } : Operation P).session.id = i := by
                    rw [← hid, ← hs]
                  exact .checking hid' hl
                | waiting => cases hck
                | display => cases hck
                | launching => cases hck
            · rename_i hnot
              exact consistent_startPending hr ha (by simpa [State.view, isIn] using hnot) (resolve_id hres)
        · rename_i hop
          have hck : (s.view i).checking = false := by
            have hvop : (s.view i).op = none := hop
            revert hr hvop
            generalize s.view i = v
            intro hr hvop
            cases hr with
            | idle => rfl
            | checking => cases hvop
            | waiting => rfl
            | display => rfl
            | launching => rfl
          exact consistent_startPending hr ha hck (resolve_id hres)

theorem consistent_resumeContainerSession (generation : Nat) (h : Consistent i (s.view i)) :
    Consistent i ((s.resumeContainerSession i generation).view i) := by
  unfold State.resumeContainerSession
  split
  · exact h
  · split
    · exact h
    · exact consistent_startContainerSession h

theorem consistent_dedicatedDisplayStarted {w : DisplayWorker}
    (h : Consistent i { s.view i with jobs := .display i generation w.slot :: (s.view i).jobs }) :
    Consistent i ((s.dedicatedDisplayStarted i generation w).view i) := by
  rcases hv : s.view i with ⟨op, checking, validated, display, launch, worker, active, jobs⟩
  rw [hv] at h
  cases h with
  | @display op slot hid =>
    have hcur := currentOperation_of_view (congrArg View.op hv) hid
    have hslot : s.pendingDisplay.get i = some w.slot := congrArg View.display hv
    have htaken : State.view { s with pendingDisplay := s.pendingDisplay.remove i } i =
        ⟨some op, false, true, none, none, none, [], []⟩ := by
      show { s.view i with display := (s.pendingDisplay.remove i).get i } = _
      rw [hv, Table.get_remove_self]
    unfold State.dedicatedDisplayStarted
    rw [hcur]
    simp only [Option.filter, hslot, decide_true, if_true]
    generalize ({ s with pendingDisplay := s.pendingDisplay.remove i } : State P) = t at htaken
    have habandon : ∀ t : State P, t.view i = ⟨some op, false, true, none, none, none, [], []⟩ →
        Consistent i ((t.abandonDisplay i op w).view i) := by
      intro t ht
      rw [view_abandonDisplay_self, ht]
      exact .idle (Nat.zero_le 1)
    split
    · exact habandon t htaken
    · split
      · exact habandon t htaken
      · have hreap : t.reapSessions.view i = ⟨some op, false, true, none, none, none, [], []⟩ := by
          rw [view_reapSessions, htaken]
          rfl
        split
        · exact habandon _ hreap
        · rw [view_launchOn_self]
          have hlw : State.view { t.reapSessions.unvalidate i with
              launchWorkers := t.reapSessions.launchWorkers.set i w } i =
                ⟨some op, false, false, none, none, some w, [], []⟩ := by
            show { (t.reapSessions.unvalidate i).view i with worker := (t.reapSessions.launchWorkers.set i w).get i } = _
            rw [view_unvalidate_self, hreap, Table.get_set_self]
          rw [hlw]
          exact .launching hid (by simp)

theorem consistent_dedicatedDisplayFailed {slot : String}
    (h : Consistent i { s.view i with jobs := .display i generation slot :: (s.view i).jobs }) :
    Consistent i ((s.dedicatedDisplayFailed i generation slot).view i) := by
  rcases hv : s.view i with ⟨op, checking, validated, display, launch, worker, active, jobs⟩
  rw [hv] at h
  cases h with
  | @display op slot hid =>
    have hcur := currentOperation_of_view (congrArg View.op hv) hid
    have hslot : s.pendingDisplay.get i = some slot := congrArg View.display hv
    unfold State.dedicatedDisplayFailed
    rw [hcur]
    simp only [Option.filter, hslot, decide_true, if_true]
    rw [view_removeOperation_self]
    have ht : State.view { s.unvalidate i with pendingDisplay := s.pendingDisplay.remove i } i =
        ⟨some op, false, false, none, none, none, [], []⟩ := by
      show { (s.unvalidate i).view i with display := (s.pendingDisplay.remove i).get i } = _
      rw [view_unvalidate_self, hv, Table.get_remove_self]
    rw [ht]
    exact .idle (Nat.zero_le 1)

theorem consistent_containerSessionLaunchFinished {slot : String} (report : Option LaunchReport)
    (h : Consistent i { s.view i with jobs := .launch i generation slot :: (s.view i).jobs }) :
    Consistent i ((s.containerSessionLaunchFinished i generation slot report).view i) := by
  rcases hv : s.view i with ⟨op, checking, validated, display, launch, worker, active, jobs⟩
  rw [hv] at h
  cases h with
  | @launching op slot worker hid hw =>
    have hcur := currentOperation_of_view (congrArg View.op hv) hid
    have hslot : s.pendingLaunch.get i = some slot := congrArg View.launch hv
    unfold State.containerSessionLaunchFinished
    rw [hcur]
    simp only [Option.filter, hslot, decide_true, if_true]
    have ht : State.view
        { s with
          pendingLaunch := s.pendingLaunch.remove i
          launchWorkers := s.launchWorkers.remove i
          operations := s.operations.remove i } i = ⟨none, false, false, none, none, none, [], []⟩ := by
      show { s.view i with
        launch := (s.pendingLaunch.remove i).get i
        worker := (s.launchWorkers.remove i).get i
        op := (s.operations.remove i).get i } = _
      rw [hv, Table.get_remove_self, Table.get_remove_self, Table.get_remove_self]
    generalize ({ s with
      pendingLaunch := s.pendingLaunch.remove i
      launchWorkers := s.launchWorkers.remove i
      operations := s.operations.remove i } : State P) = t at ht
    generalize s.launchWorkers.get i = worker
    split
    · rw [view_queueLaunchCleanup, ht]
      exact .idle (Nat.zero_le 1)
    · cases report with
      | some report =>
        show Consistent i { t.view i with
          active := (t.active ++ [(⟨i, op.session, report, slot, worker, op.reservation, false, false⟩ : ActiveSession P)]).filter
            fun a => a.profile = i }
        rw [List.filter_append, show t.active.filter _ = [] from congrArg View.active ht, ht]
        apply Consistent.idle
        exact (List.length_filter_le _ _).trans (Nat.le_refl 1)
      | none =>
        unfold State.completeContainerSessionLaunch
        dsimp only
        split
        · rw [view_queueLaunchCleanup, ht]
          exact .idle (Nat.zero_le 1)
        · rw [view_dropReservation, ht]
          exact .idle (Nat.zero_le 1)

@[simp] theorem markStopping_profile (a : ActiveSession P) : (State.markStopping i a).profile = a.profile := by
  unfold State.markStopping
  split <;> rfl

theorem filter_map_profile {f : ActiveSession P → ActiveSession P} (hf : ∀ a, (f a).profile = a.profile)
    (l : List (ActiveSession P)) (j : P) :
    (l.map f).filter (fun a => a.profile = j) = (l.filter fun a => a.profile = j).map f := by
  rw [List.filter_map]
  congr 1
  apply List.filter_congr
  intro a _
  show decide ((f a).profile = j) = decide (a.profile = j)
  rw [hf]

theorem view_requestGracefulStop (j : P) :
    (s.requestGracefulStop i).view j = { s.view j with active := (s.view j).active.map (State.markStopping i) } := by
  have h := filter_map_profile (f := State.markStopping i) (fun a => markStopping_profile a) s.active j
  simp only [State.requestGracefulStop, State.view, h]
  rfl

omit [DecidableEq P] in
theorem Consistent.setActive (h : Consistent i v)
    (hl : active.length ≤ v.active.length) : Consistent i { v with active := active } := by
  cases h with
  | idle ha => exact .idle (hl.trans ha)
  | checking hid ha => exact .checking hid (hl.trans ha)
  | waiting hid ha hc => exact .waiting hid (hl.trans ha) hc
  | display hid =>
    obtain rfl := List.length_eq_zero_iff.1 (Nat.le_zero.1 hl)
    exact .display hid
  | launching hid hw =>
    obtain rfl := List.length_eq_zero_iff.1 (Nat.le_zero.1 hl)
    exact .launching hid hw

theorem consistent_cancelOperation (hop : s.operations.get i = some op)
    (h : Consistent i (s.view i)) : Consistent i ((s.cancelOperation i op).view i) := by
  rcases hv : s.view i with ⟨op', checking, validated, display, launch, worker, active, jobs⟩
  obtain rfl : op' = some op := (congrArg View.op hv).symm.trans hop
  have hck : decide (i ∈ s.checks) = checking := congrArg View.checking hv
  have hd : s.pendingDisplay.get i = display := congrArg View.display hv
  have hl : s.pendingLaunch.get i = launch := congrArg View.launch hv
  rw [hv] at h
  unfold State.cancelOperation
  rw [hck, hd, hl]
  cases h with
  | checking hid ha =>
    rw [Bool.true_or, Bool.true_or, if_pos rfl, view_setOperation_self, hv]
    exact .checking (show ({ op with cancelled := true } : Operation P).session.id = i from hid) ha
  | waiting hid ha hc =>
    rw [Option.isSome_none, Bool.or_false, Bool.or_false, if_neg Bool.false_ne_true, view_removeOperation_self,
      view_unvalidate_self, hv]
    exact .idle ha
  | display hid =>
    rw [Option.isSome_some, Bool.or_true, Bool.true_or, if_pos rfl, view_setOperation_self, hv]
    exact .display (show ({ op with cancelled := true } : Operation P).session.id = i from hid)
  | launching hid hw =>
    rw [Option.isSome_some, Bool.or_true, if_pos rfl, view_setOperation_self, hv]
    exact .launching (show ({ op with cancelled := true } : Operation P).session.id = i from hid) hw

theorem consistent_stopContainerSession (h : Consistent i (s.view i)) :
    Consistent i ((s.stopContainerSession i).view i) := by
  have hc : Consistent i ((s.cancelPending i).view i) := by
    unfold State.cancelPending
    split
    · rename_i op hop
      exact consistent_cancelOperation hop h
    · exact h
  unfold State.stopContainerSession
  dsimp only
  split
  · rw [view_requestGracefulStop]
    exact hc.setActive (by rw [List.length_map])
  · exact hc

theorem consistent_forceStopContainerSession (h : Consistent i (s.view i)) :
    Consistent i ((s.forceStopContainerSession i).view i) := by
  unfold State.forceStopContainerSession
  split
  · rw [view_send _ _ rfl]
    exact h
  · exact h.shrinks (view_stopActive_shrinks s i i)

/-! ## Other profiles -/

section Other

variable {j : P}

theorem other_checkContainerSession (h : j ≠ i) : (s.checkContainerSession i).view j = s.view j := by
  unfold State.checkContainerSession
  split
  · split
    · rw [view_spawnCheck_of_ne _ _ _ _ h, view_nextOperation]
    · rfl
  · rfl

theorem other_restartCheck (op : Operation P) (h : j ≠ i) : (s.restartCheck i op).view j = s.view j := by
  unfold State.restartCheck
  split
  · split
    · exact view_removeOperation_of_ne s i j h
    · rename_i op' s' hr
      rw [view_spawnCheck_of_ne _ _ _ _ h, view_reserveRuntime j hr]
  · exact view_spawnCheck_of_ne s i j op h

theorem other_containerSessionChecked (generation : Nat) (ok : Bool) (h : j ≠ i) :
    (s.containerSessionChecked i generation ok).view j = s.view j := by
  have herase : State.view { s with checks := s.checks.erase i } j = s.view j := by
    simp [State.view, State.jobs, isIn_erase_of_ne _ h]
  unfold State.containerSessionChecked
  split
  · rfl
  · dsimp only
    split
    · rw [view_removeOperation_of_ne _ _ _ h, herase]
    · split
      · rw [view_removeOperation_of_ne _ _ _ h, herase]
      · split
        · unfold State.recheck
          rw [other_restartCheck _ h, view_setOperation_of_ne _ _ _ _ h, view_dropReservation, view_nextOperation, herase]
        · split
          · rw [view_send _ _ rfl, view_validate_of_ne _ _ _ h, herase]
          · rw [view_removeOperation_of_ne _ _ _ h, herase]

theorem other_assignDisplay (op : Operation P) (h : j ≠ i) : (s.assignDisplay i op).view j = s.view j := by
  unfold State.assignDisplay
  split
  · exact view_removeOperation_of_ne s i j h
  · dsimp only
    split
    · exact view_removeOperation_of_ne s i j h
    · split
      · exact view_launchOn_of_ne s i j op _ h
      · split
        · exact view_removeOperation_of_ne s i j h
        · split
          · exact view_launchOn_of_ne s i j op _ h
          · simp [State.validate, State.view, State.jobs, Job.profile?, isIn_insert_of_ne _ h, Table.get_set_of_ne _ _ h,
              h.symm]

theorem other_startPending (configured : Session P) (h : j ≠ i) : (s.startPending i configured).view j = s.view j := by
  have hreserve : ∀ (t : State P) (op : Operation P), t.view j = s.view j →
      (t.startOperation i op).view j = s.view j := by
    intro t op ht
    unfold State.startOperation
    split
    · rw [view_removeOperation_of_ne _ _ _ h, view_unvalidate_of_ne _ _ _ h, ht]
    · rename_i op' s' hr
      have hset : (s'.setOperation i op').view j = s.view j := by
        rw [view_setOperation_of_ne _ _ _ _ h, view_reserveRuntime j hr, ht]
      split
      · rw [view_spawnCheck_of_ne _ _ _ _ h, hset]
      · rw [other_assignDisplay _ h, view_unvalidate_of_ne _ _ _ h, hset]
  unfold State.startPending
  split
  · rfl
  · cases s.operations.get i with
    | some op => exact hreserve s op rfl
    | none => exact hreserve s.nextOperation _ rfl

theorem other_startContainerSession (h : j ≠ i) : Shrinks (s.view j) ((s.startContainerSession i).view j) := by
  unfold State.startContainerSession
  split
  · exact .refl _
  · split
    · exact .refl _
    · refine (view_reapSessions_shrinks s j).trans ?_
      generalize s.reapSessions = s
      dsimp only
      split
      · split
        · exact .refl _
        · apply Shrinks.of_eq
          rw [view_removeOperation_of_ne _ _ _ h, view_unvalidate_of_ne _ _ _ h]
      · split
        · split
          · exact .refl _
          · split
            · split
              · exact .refl _
              · rename_i op' s' hr
                apply Shrinks.of_eq
                rw [view_setOperation_of_ne _ _ _ _ h, view_reserveRuntime j hr]
            · exact .of_eq (other_startPending _ h)
        · exact .of_eq (other_startPending _ h)

theorem other_resumeContainerSession (generation : Nat) (h : j ≠ i) :
    Shrinks (s.view j) ((s.resumeContainerSession i generation).view j) := by
  unfold State.resumeContainerSession
  split
  · exact .refl _
  · split
    · exact .refl _
    · exact other_startContainerSession h

theorem other_dedicatedDisplayStarted (generation : Nat) (w : DisplayWorker) (h : j ≠ i) :
    Shrinks (s.view j) ((s.dedicatedDisplayStarted i generation w).view j) := by
  have htaken : State.view { s with pendingDisplay := s.pendingDisplay.remove i } j = s.view j := by
    simp [State.view, State.jobs, Table.get_remove_of_ne _ h]
  unfold State.dedicatedDisplayStarted
  split
  · exact .refl _
  · dsimp only
    split
    · exact .of_eq ((view_abandonDisplay_of_ne _ _ _ _ _ h).trans htaken)
    · split
      · exact .of_eq ((view_abandonDisplay_of_ne _ _ _ _ _ h).trans htaken)
      · refine Shrinks.trans (.of_eq htaken) ?_
        generalize ({ s with pendingDisplay := s.pendingDisplay.remove i } : State P) = s
        refine (view_reapSessions_shrinks s j).trans ?_
        generalize s.reapSessions = s
        split
        · exact .of_eq (view_abandonDisplay_of_ne _ _ _ _ _ h)
        · apply Shrinks.of_eq
          rw [view_launchOn_of_ne _ _ _ _ _ h]
          simp [State.unvalidate, State.view, State.jobs, isIn_erase_of_ne _ h, Table.get_set_of_ne _ _ h]

theorem other_dedicatedDisplayFailed (generation : Nat) (slot : String) (h : j ≠ i) :
    (s.dedicatedDisplayFailed i generation slot).view j = s.view j := by
  unfold State.dedicatedDisplayFailed
  split
  · rfl
  · rw [view_removeOperation_of_ne _ _ _ h]
    simp [State.unvalidate, State.view, State.jobs, isIn_erase_of_ne _ h, Table.get_remove_of_ne _ h]

theorem other_containerSessionLaunchFinished (generation : Nat) (slot : String) (report : Option LaunchReport)
    (h : j ≠ i) : (s.containerSessionLaunchFinished i generation slot report).view j = s.view j := by
  unfold State.containerSessionLaunchFinished
  split
  · rfl
  · rename_i op _
    have ht : State.view
        { s with
          pendingLaunch := s.pendingLaunch.remove i
          launchWorkers := s.launchWorkers.remove i
          operations := s.operations.remove i } j = s.view j := by
      simp [State.view, State.jobs, Table.get_remove_of_ne _ h]
    dsimp only
    generalize ({ s with
      pendingLaunch := s.pendingLaunch.remove i
      launchWorkers := s.launchWorkers.remove i
      operations := s.operations.remove i } : State P) = t at ht
    generalize s.launchWorkers.get i = worker
    rw [← ht]
    split
    · rfl
    · cases report with
      | some report => simp [State.completeContainerSessionLaunch, State.view, State.jobs, h.symm]
      | none =>
        unfold State.completeContainerSessionLaunch
        dsimp only
        split
        · rfl
        · rw [view_dropReservation]

theorem other_stopContainerSession (h : j ≠ i) : (s.stopContainerSession i).view j = s.view j := by
  have hc : (s.cancelPending i).view j = s.view j := by
    unfold State.cancelPending State.cancelOperation
    split
    · split
      · exact view_setOperation_of_ne _ _ _ _ h
      · rw [view_removeOperation_of_ne _ _ _ h, view_unvalidate_of_ne _ _ _ h]
    · rfl
  unfold State.stopContainerSession
  dsimp only
  split
  · rw [view_requestGracefulStop, ← hc]
    have hid : ((s.cancelPending i).view j).active.map (State.markStopping i) = ((s.cancelPending i).view j).active := by
      refine (List.map_congr_left fun a ha => ?_).trans (List.map_id _)
      have hp : a.profile = j := by simpa using (List.mem_filter.1 ha).2
      exact if_neg fun he => h (hp.symm.trans he)
    rw [hid]
  · exact hc

theorem other_forceStopContainerSession : Shrinks (s.view j) ((s.forceStopContainerSession i).view j) := by
  unfold State.forceStopContainerSession
  split
  · exact .of_eq (view_send _ _ rfl)
  · exact view_stopActive_shrinks s i j

end Other

/-! ## Managed displays -/

section Managed

variable (s : State P) (j : P)

theorem view_createManagedDisplay (slot : Option String) :
    Shrinks (s.view j) ((s.createManagedDisplay slot).view j) := by
  unfold State.createManagedDisplay
  refine (view_reapManaged_shrinks s j).trans ?_
  generalize s.reapManaged = s
  dsimp only
  split
  · apply Shrinks.of_eq
    simp [State.view, State.jobs, Job.profile?]
  · exact .refl _

theorem view_managedDisplayStarted (generation : Nat) (w : DisplayWorker) :
    (s.managedDisplayStarted generation w).view j = s.view j := by
  unfold State.managedDisplayStarted
  split
  · rfl
  · dsimp only
    split <;> rfl

theorem view_managedDisplayFailed (generation : Nat) (slot : String) :
    (s.managedDisplayFailed generation slot).view j = s.view j := by
  unfold State.managedDisplayFailed
  split <;> rfl

theorem view_closeManagedDisplay (slot : String) : (s.closeManagedDisplay slot).view j = s.view j := by
  unfold State.closeManagedDisplay
  split
  · rfl
  · split
    · rfl
    · split <;> rfl

end Managed

/-! ## Messages and events -/

/-- The profile a message is about. -/
def Message.profile? : Message P → Option P
  | .check i | .start i | .resume i _ | .stop i | .forceStop i | .checked i _ _ | .displayStarted i _ _
  | .displayFailed i _ _ | .launchFinished i _ _ _ => some i
  | .createManaged _ | .closeManaged _ | .managedStarted _ _ | .managedFailed _ _ => none

/-- The report of a worker of the profile, taken out of the queue. -/
def Message.jobOf (m : Message P) (i : P) : List (Job P) := m.job?.toList.filter fun j => j.profile? = some i

omit [DecidableEq P] in
theorem Message.profile?_job? {job : Job P} (h : m.job? = some job) : job.profile? = m.profile? := by
  cases m <;> cases h <;> rfl

theorem Message.jobOf_of_ne {i : P} (h : m.profile? ≠ some i) : m.jobOf i = [] := by
  unfold Message.jobOf
  cases hj : m.job? with
  | none => rfl
  | some job =>
    have hp : job.profile? ≠ some i := Message.profile?_job? hj ▸ h
    simp [hp]

theorem view_of_queue {queue : List (Message P)} (hq : s.queue = m :: queue) (i : P) :
    s.view i = { State.view { s with queue := queue } i with
      jobs := m.jobOf i ++ (State.view { s with queue := queue } i).jobs } := by
  have hj : s.jobs i = m.jobOf i ++ State.jobs { s with queue := queue } i := by
    have hhead : (m :: queue).filterMap Message.job? = m.job?.toList ++ queue.filterMap Message.job? := by
      rw [List.filterMap_cons]
      cases m.job? <;> rfl
    unfold State.jobs
    rw [hq, hhead, List.filter_append, List.append_assoc]
    rfl
  show { s.view i with jobs := s.jobs i } = _
  rw [hj]
  rfl

theorem other_handle {j : P} (h : m.profile? ≠ some j) : Shrinks (s.view j) ((s.handle m).view j) := by
  have hne : ∀ i, some i ≠ some j → j ≠ i := fun i hi hji => hi (congrArg some hji.symm)
  cases m with
  | check i => exact .of_eq (other_checkContainerSession (hne i h))
  | start i => exact other_startContainerSession (hne i h)
  | resume i g => exact other_resumeContainerSession g (hne i h)
  | stop i => exact .of_eq (other_stopContainerSession (hne i h))
  | forceStop i => exact other_forceStopContainerSession
  | createManaged slot => exact view_createManagedDisplay s j slot
  | closeManaged slot => exact .of_eq (view_closeManagedDisplay s j slot)
  | checked i g ok => exact .of_eq (other_containerSessionChecked g ok (hne i h))
  | displayStarted i g w => exact other_dedicatedDisplayStarted g w (hne i h)
  | displayFailed i g slot => exact .of_eq (other_dedicatedDisplayFailed g slot (hne i h))
  | launchFinished i g slot report => exact .of_eq (other_containerSessionLaunchFinished g slot report (hne i h))
  | managedStarted g w => exact .of_eq (view_managedDisplayStarted s j g w)
  | managedFailed g slot => exact .of_eq (view_managedDisplayFailed s j g slot)

/-- A handled message takes its profile from phase to phase. -/
theorem self_handle (hm : m.profile? = some i)
    (h : Consistent i { s.view i with jobs := m.jobOf i ++ (s.view i).jobs }) :
    Consistent i ((s.handle m).view i) := by
  have hjob : ∀ job : Job P, job.profile? = some i → m.job? = some job → m.jobOf i = [job] := by
    intro job hp hjob
    simp [Message.jobOf, hjob, hp]
  cases m <;> cases hm
  case check => exact consistent_checkContainerSession h
  case start => exact consistent_startContainerSession h
  case resume g => exact consistent_resumeContainerSession g h
  case stop => exact consistent_stopContainerSession h
  case forceStop => exact consistent_forceStopContainerSession h
  case checked g ok =>
    rw [hjob _ rfl rfl] at h
    exact consistent_containerSessionChecked ok h
  case displayStarted g w =>
    rw [hjob _ rfl rfl] at h
    exact consistent_dedicatedDisplayStarted h
  case displayFailed g slot =>
    rw [hjob _ rfl rfl] at h
    exact consistent_dedicatedDisplayFailed h
  case launchFinished g slot report =>
    rw [hjob _ rfl rfl] at h
    exact consistent_containerSessionLaunchFinished report h

theorem consistent_handle {queue : List (Message P)} (hq : s.queue = m :: queue)
    (h : ∀ i, Consistent i (s.view i)) (i : P) : Consistent i ((State.handle { s with queue := queue } m).view i) := by
  have hi := h i
  rw [view_of_queue hq] at hi
  by_cases hm : m.profile? = some i
  · exact self_handle hm hi
  · rw [Message.jobOf_of_ne hm, List.nil_append] at hi
    exact hi.shrinks (other_handle hm)

theorem jobs_finish {job : Job P} (hw : job ∈ s.workers) (hm : m.job? = some job) (i : P) :
    (State.jobs { s with workers := s.workers.erase job, queue := s.queue ++ [m] } i).Perm (s.jobs i) := by
  unfold State.jobs
  rw [List.filterMap_append, List.filter_append, List.append_assoc]
  apply List.Perm.append_left
  have hone : List.filterMap Message.job? [m] = [job] := by simp [hm]
  rw [hone, ← List.filter_append]
  exact ((List.perm_cons_erase hw).filter _).symm

omit [DecidableEq P] in
theorem Job.report_job? (job : Job P) (id : Nat) (ok : Bool) : (job.report id ok).1.job? = some job := by
  cases job <;> cases ok <;> rfl

omit [DecidableEq P] in
theorem Message.job?_of_fromUser (h : m.fromUser = true) : m.job? = none := by
  cases m <;> first | rfl | cases h

@[simp] theorem markExited_profile (a : ActiveSession P) : (State.markExited i a).profile = a.profile := by
  unfold State.markExited
  split <;> rfl

theorem consistent_step {s s' : State P} {e : Event P} (h : ∀ i, Consistent i (s.view i)) (hs : step s e = some s')
    (i : P) : Consistent i (s'.view i) := by
  cases e with
  | user m =>
    obtain ⟨hm, rfl⟩ := step_user hs
    rw [view_send _ _ (Message.job?_of_fromUser hm)]
    exact h i
  | finish job ok =>
    obtain ⟨hw, rfl⟩ := step_finish hs
    exact (h i).perm (jobs_finish hw (job.report_job? _ ok) i)
  | handle =>
    obtain ⟨m, queue, hq, rfl⟩ := step_handle hs
    exact consistent_handle hq h i
  | edit config =>
    cases hs
    exact h i
  | sessionExits k =>
    cases hs
    show Consistent i { s.view i with active := (s.active.map (State.markExited k)).filter fun a => a.profile = i }
    rw [filter_map_profile fun a => markExited_profile a]
    exact (h i).setActive (by rw [List.length_map]; rfl)
  | managedExits slot =>
    cases hs
    exact h i
  | maintain =>
    cases hs
    exact ((h i).shrinks (view_reapManaged_shrinks s i)).shrinks (view_reapSessions_shrinks _ i)
  | release index =>
    obtain ⟨c, -, rfl⟩ := step_release hs
    unfold State.releaseCleanup
    rw [view_dropReservation]
    exact h i

/-- Whatever happens, every profile is in one of its phases. -/
theorem consistent_reachable (h : (system P).Reachable s) (i : P) : Consistent i (s.view i) := by
  refine System.Reachable.invariant (I := fun s => ∀ i, Consistent i (s.view i)) ?_ (fun _ _ _ hi hs => consistent_step hi hs) h i
  exact fun _ => .idle (Nat.zero_le 1)

end CocoaWay.Launch
