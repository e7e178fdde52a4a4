import CocoaWay.Launch.Phases

/-!
# Queued resumes

* `View.waiting` : the generation of a validated launch that waits for its resume message;
* `State.holdsWhen` : a resume message that is handled finds its profile configured and free of cleanups;
* `Resumes` : every waiting launch has its resume message in the queue;
* `resumes_step`, `resumes_reachable` : so it is in runs whose steps all meet the condition.
-/

namespace CocoaWay.Launch

open CocoaWay.Lib

variable {P : Type} [DecidableEq P]

/-- The generation of a validated launch that is neither starting a display nor launching. -/
def View.waiting (v : View P) : Option Nat :=
  if v.validated && v.display.isNone then v.op.map Operation.generation else none

omit [DecidableEq P] in
theorem Shrinks.waiting {v v' : View P} (h : Shrinks v v') : v'.waiting = v.waiting := by
  obtain ⟨active, -, rfl⟩ := h
  rfl

variable {generation g : Nat} {v : View P} {op : Operation P}

omit [DecidableEq P] in
theorem Consistent.waiting_of_checking {i : P} (h : Consistent i v) (hc : v.checking = true) : v.waiting = none := by
  cases h with
  | checking => rfl
  | idle | waiting | display | launching => cases hc

omit [DecidableEq P] in
theorem Consistent.waiting_of_cancelled {i : P} (h : Consistent i v)
    (hop : v.op = some op) (hc : op.cancelled = true) : v.waiting = none := by
  cases h with
  | waiting _ _ hn =>
    cases hop
    rw [hn] at hc
    cases hc
  | idle | checking | display | launching => rfl

omit [DecidableEq P] in
theorem Consistent.waiting_of_pending {i : P} (h : Consistent i v)
    (hp : v.display.isSome = true ∨ v.launch.isSome = true) : v.waiting = none := by
  cases h with
  | waiting => rcases hp with hp | hp <;> cases hp
  | idle | checking | display | launching => rfl

omit [DecidableEq P] in
theorem View.waiting_of_op (h : v.op = none) : v.waiting = none := by
  unfold View.waiting
  rw [h]
  split <;> rfl

omit [DecidableEq P] in
theorem View.waiting_of_validated (h : v.validated = false) : v.waiting = none := by
  unfold View.waiting
  rw [h]
  rfl

variable {s : State P} {i : P}

theorem op_removeOperation : ((s.removeOperation i).view i).op = none := by
  rw [view_removeOperation_self]

/-! ## The messages of a profile -/

theorem waiting_checkContainerSession {g : Nat} (h : Consistent i (s.view i))
    (hw : ((s.checkContainerSession i).view i).waiting = some g) : (s.view i).waiting = some g := by
  have hc := consistent_checkContainerSession h
  unfold State.checkContainerSession at hc hw
  split at hw
  · rename_i hnone
    rw [if_pos hnone] at hc
    split at hw
    · rename_i session hres
      rw [hres] at hc
      rw [hc.waiting_of_checking (by rw [view_spawnCheck_self])] at hw
      cases hw
    · exact hw
  · exact hw

theorem waiting_restartCheck (h : Consistent i ((s.restartCheck i op).view i)) :
    ((s.restartCheck i op).view i).waiting = none := by
  unfold State.restartCheck at h ⊢
  split
  · rename_i hl
    rw [if_pos hl] at h
    split
    · exact View.waiting_of_op op_removeOperation
    · rename_i op' s' hr
      rw [hr] at h
      exact h.waiting_of_checking (by rw [view_spawnCheck_self])
  · rename_i hl
    rw [if_neg hl] at h
    exact h.waiting_of_checking (by rw [view_spawnCheck_self])

theorem waiting_containerSessionChecked {ok : Bool}
    (h : Consistent i ((s.containerSessionChecked i generation ok).view i))
    (hw : ((s.containerSessionChecked i generation ok).view i).waiting = some g) :
    (s.view i).waiting = some g ∨ .resume i g ∈ (s.containerSessionChecked i generation ok).queue := by
  have hremove : ∀ t : State P, ((t.removeOperation i).view i).waiting ≠ some g := by
    intro t ht
    rw [View.waiting_of_op op_removeOperation] at ht
    cases ht
  unfold State.containerSessionChecked at h hw ⊢
  cases hcur : s.currentOperation i generation with
  | none =>
    rw [hcur] at hw
    exact .inl hw
  | some op =>
    rw [hcur] at h hw
    dsimp only at h hw ⊢
    split at hw
    · exact absurd hw (hremove _)
    · rename_i hcan
      rw [if_neg hcan] at h ⊢
      split at hw
      · exact absurd hw (hremove _)
      · rename_i configured hres
        rw [hres] at h
        dsimp only at h
        split at hw
        · rename_i hedit
          rw [if_pos hedit] at h
          rw [State.recheck, waiting_restartCheck h] at hw
          cases hw
        · rename_i hedit
          rw [if_neg hedit] at h ⊢
          split at hw
          · rename_i hok
            right
            rw [if_pos hok]
            have hg : g = generation := by
              rw [view_send _ _ rfl, view_validate_self] at hw
              have hop : State.view { s with checks := s.checks.erase i } i =
                { s.view i with checking := isIn (s.checks.erase i) i } := rfl
              obtain ⟨hget, -, rfl⟩ := currentOperation_some hcur
              rw [hop] at hw
              have hvop : (s.view i).op = some op := hget
              unfold View.waiting at hw
              dsimp only at hw
              rw [hvop] at hw
              split at hw
              · exact (Option.some.inj hw).symm
              · cases hw
            rw [hg]
            exact List.mem_append_right _ (List.mem_singleton_self _)
          · exact absurd hw (hremove _)

theorem waiting_assignDisplay (hv : (s.view i).validated = false) : ((s.assignDisplay i op).view i).waiting = none := by
  have hremove : ((s.removeOperation i).view i).waiting = none := View.waiting_of_op op_removeOperation
  have hlaunch : ∀ slot, ((s.launchOn i op slot).view i).waiting = none := by
    intro slot
    apply View.waiting_of_validated
    rw [view_launchOn_self]
    exact hv
  unfold State.assignDisplay
  split
  · exact hremove
  · dsimp only
    split
    · exact hremove
    · split
      · exact hlaunch _
      · split
        · exact hremove
        · split
          · exact hlaunch _
          · simp [View.waiting, State.view]

theorem waiting_startPending {configured : Session P} (h : Consistent i (s.view i))
    (hc : Consistent i ((s.startPending i configured).view i)) :
    ((s.startPending i configured).view i).waiting = none := by
  have hreserve : ∀ (t : State P) (op : Operation P),
      Consistent i ((t.startOperation i op).view i) → ((t.startOperation i op).view i).waiting = none := by
    intro t op ht
    unfold State.startOperation at ht ⊢
    split
    · exact View.waiting_of_op op_removeOperation
    · rename_i op' s' hr
      rw [hr] at ht
      dsimp only at ht ⊢
      split
      · rename_i hnot
        rw [if_pos hnot] at ht
        exact ht.waiting_of_checking (by rw [view_spawnCheck_self])
      · apply waiting_assignDisplay
        rw [view_unvalidate_self]
  unfold State.startPending at hc ⊢
  split
  · rename_i hp
    have hsome : (s.pendingDisplay.get i).isSome = true ∨ (s.pendingLaunch.get i).isSome = true := by simpa using hp
    exact h.waiting_of_pending hsome
  · rename_i hp
    rw [if_neg hp] at hc
    cases hop : s.operations.get i with
    | some op =>
      rw [hop] at hc
      exact hreserve s op hc
    | none =>
      rw [hop] at hc
      exact hreserve s.nextOperation _ hc

/-- A start of a configured profile without cleanups leaves no waiting launch behind. -/
theorem waiting_startContainerSession (h : Consistent i (s.view i)) (hres : (s.resolve i).isSome)
    (hbusy : s.sessionBusy i = false) : ((s.startContainerSession i).view i).waiting = none := by
  have hc := consistent_startContainerSession h
  have hr : Consistent i (s.reapSessions.view i) := h.shrinks (view_reapSessions_shrinks s i)
  obtain ⟨configured, hres⟩ := Option.isSome_iff_exists.1 hres
  unfold State.startContainerSession at hc ⊢
  rw [hres] at hc ⊢
  dsimp only at hc ⊢
  rw [hbusy, if_neg Bool.false_ne_true] at hc ⊢
  generalize s.reapSessions = s at hc hr
  split
  · rename_i hact
    split
    · rename_i hin
      exact hr.waiting_of_checking (isIn_iff.2 hin)
    · exact View.waiting_of_op op_removeOperation
  · rename_i hact
    rw [if_neg hact] at hc
    split
    · rename_i op hop
      rw [hop] at hc
      dsimp only at hc
      split
      · rename_i hcan
        exact hr.waiting_of_cancelled (show (s.view i).op = some op from hop) hcan
      · rename_i hcan
        rw [if_neg hcan] at hc
        split
        · rename_i hin
          have hck : (s.view i).checking = true := isIn_iff.2 hin
          rw [if_pos hin] at hc
          split
          · exact hr.waiting_of_checking hck
          · rename_i op' s' hres'
            rw [hres'] at hc
            apply hc.waiting_of_checking
            rw [view_setOperation_self, view_reserveRuntime i hres']
            exact hck
        · rename_i hin
          rw [if_neg hin] at hc
          exact waiting_startPending hr hc
    · rename_i hop
      rw [hop] at hc
      exact waiting_startPending hr hc

theorem startContainerSession_refused (h : (s.resolve i).isSome = false ∨ s.sessionBusy i = true) :
    s.startContainerSession i = s := by
  unfold State.startContainerSession
  split
  · rfl
  · rename_i configured hres
    rw [hres] at h
    rw [if_pos (by simpa using h)]

theorem waiting_stopContainerSession (h : Consistent i (s.view i)) :
    ((s.stopContainerSession i).view i).waiting = none := by
  have hc : ((s.cancelPending i).view i).waiting = none := by
    unfold State.cancelPending
    split
    · rename_i op hop
      have hcons := consistent_cancelOperation hop h
      unfold State.cancelOperation at hcons ⊢
      split
      · rename_i hp
        rw [if_pos hp] at hcons
        have hop' : ((s.setOperation i { op with cancelled := true }).view i).op =
          some { op with cancelled := true } := by
          rw [view_setOperation_self]
        exact hcons.waiting_of_cancelled hop' rfl
      · exact View.waiting_of_op op_removeOperation
    · rename_i hop
      exact View.waiting_of_op hop
  unfold State.stopContainerSession
  dsimp only
  split
  · rw [view_requestGracefulStop]
    exact hc
  · exact hc

theorem waiting_forceStopContainerSession :
    ((s.forceStopContainerSession i).view i).waiting = (s.view i).waiting := by
  unfold State.forceStopContainerSession
  split
  · rw [view_send _ _ rfl]
  · exact (view_stopActive_shrinks s i i).waiting

theorem waiting_dedicatedDisplayStarted {w : DisplayWorker}
    (hw : ((s.dedicatedDisplayStarted i generation w).view i).waiting = some g) : (s.view i).waiting = some g := by
  have habandon : ∀ (t : State P) (op : Operation P), ((t.abandonDisplay i op w).view i).waiting ≠ some g := by
    intro t op ht
    rw [View.waiting_of_op (by rw [view_abandonDisplay_self])] at ht
    cases ht
  unfold State.dedicatedDisplayStarted at hw
  split at hw
  · exact hw
  · dsimp only at hw
    split at hw
    · exact absurd hw (habandon _ _)
    · split at hw
      · exact absurd hw (habandon _ _)
      · split at hw
        · exact absurd hw (habandon _ _)
        · rw [View.waiting_of_validated] at hw
          · cases hw
          · rw [view_launchOn_self]
            exact isIn_erase_self _ _

theorem waiting_dedicatedDisplayFailed {slot : String}
    (hw : ((s.dedicatedDisplayFailed i generation slot).view i).waiting = some g) : (s.view i).waiting = some g := by
  unfold State.dedicatedDisplayFailed at hw
  split at hw
  · exact hw
  · rw [View.waiting_of_op op_removeOperation] at hw
    cases hw

theorem waiting_containerSessionLaunchFinished {slot : String} {report : Option LaunchReport}
    (hw : ((s.containerSessionLaunchFinished i generation slot report).view i).waiting = some g) :
    (s.view i).waiting = some g := by
  unfold State.containerSessionLaunchFinished at hw
  split at hw
  · exact hw
  · rename_i op _
    rw [View.waiting_of_op] at hw
    · cases hw
    · dsimp only
      split
      · exact Table.get_remove_self _ _
      · unfold State.completeContainerSessionLaunch
        split
        · exact Table.get_remove_self _ _
        · split
          · exact Table.get_remove_self _ _
          · rw [view_dropReservation]
            exact Table.get_remove_self _ _

/-! ## The queue only grows -/

/-- A state that differs in its tables, and in messages sent that are no reports of workers. -/
structure Extends (s t : State P) : Prop where
  queue : ∃ sent, t.queue = s.queue ++ sent ∧ ∀ n ∈ sent, n.job? = none
  created : t.created = s.created
  released : t.released = s.released

omit [DecidableEq P] in
theorem Extends.of_eq {s t : State P} (hq : t.queue = s.queue) (hc : t.created = s.created)
    (hr : t.released = s.released) : Extends s t :=
  ⟨⟨[], hq.trans (List.append_nil _).symm, fun _ hn => absurd hn List.not_mem_nil⟩, hc, hr⟩

omit [DecidableEq P] in
theorem Extends.refl (s : State P) : Extends s s := .of_eq rfl rfl rfl

omit [DecidableEq P] in
theorem Extends.trans {s t u : State P} (h : Extends s t) (h' : Extends t u) : Extends s u := by
  obtain ⟨⟨sent, hq, hn⟩, hc, hr⟩ := h
  obtain ⟨⟨sent', hq', hn'⟩, hc', hr'⟩ := h'
  refine ⟨⟨sent ++ sent', ?_, ?_⟩, hc'.trans hc, hr'.trans hr⟩
  · rw [hq', hq, List.append_assoc]
  · intro n hm
    rcases List.mem_append.1 hm with hm | hm
    · exact hn n hm
    · exact hn' n hm

omit [DecidableEq P] in
theorem Extends.of_tables {s t u : State P} (h : Extends t u) (hq : t.queue = s.queue) (hc : t.created = s.created)
    (hr : t.released = s.released) : Extends s u :=
  (Extends.of_eq hq hc hr).trans h

section Queue

variable (s : State P) (i : P)

omit [DecidableEq P] in
theorem extends_send {m : Message P} (h : m.job? = none) : Extends s (s.send m) :=
  ⟨⟨[m], rfl, fun _ hn => List.mem_singleton.1 hn ▸ h⟩, rfl, rfl⟩

omit [DecidableEq P] in
theorem extends_dropReservation [DecidableEq P] (r : Option (Reservation P)) : Extends s (s.dropReservation r) := by
  unfold State.dropReservation
  split
  · exact .refl s
  · split
    · exact .of_eq rfl rfl rfl
    · exact .refl s

theorem extends_removeOperation : Extends s (s.removeOperation i) := by
  unfold State.removeOperation
  split
  · exact .refl s
  · exact (extends_dropReservation _ _).of_tables rfl rfl rfl

omit [DecidableEq P] in
theorem extends_reserveRuntime {s s' : State P} {op op' : Operation P} (h : s.reserveRuntime op = some (op', s')) :
    Extends s s' := by
  obtain ⟨-, -, -, -, he⟩ := reserveRuntime_spec h
  rw [he]
  exact .of_eq rfl rfl rfl

theorem extends_stopActive : Extends s (s.stopActive i) := by
  unfold State.stopActive
  split
  · exact .refl s
  · exact .of_eq rfl rfl rfl

theorem extends_reapManaged : Extends s s.reapManaged := by
  have hstop : ∀ (l : List P) (t : State P), Extends t (l.foldl State.stopActive t) := by
    intro l
    induction l with
    | nil => exact fun t => .refl t
    | cons i l ih => exact fun t => (extends_stopActive t i).trans (ih _)
  have hloop : ∀ (l : List ManagedDisplay) (t : State P), Extends t (l.foldl State.reapManagedDisplay t) := by
    intro l
    induction l with
    | nil => exact fun t => .refl t
    | cons d l ih => exact fun t => (hstop _ t).trans ((ih _).of_tables rfl rfl rfl)
  exact (hloop _ _).of_tables rfl rfl rfl

theorem extends_restartCheck (op : Operation P) : Extends s (s.restartCheck i op) := by
  unfold State.restartCheck
  split
  · split
    · exact extends_removeOperation s i
    · rename_i op' s' hr
      exact (extends_reserveRuntime hr).trans (.of_eq rfl rfl rfl)
  · exact .of_eq rfl rfl rfl

theorem extends_recheck (op : Operation P) (configured : Session P) : Extends s (s.recheck i op configured) := by
  have hdrop := extends_dropReservation s.nextOperation op.reservation
  unfold State.recheck
  refine Extends.trans ?_ (extends_restartCheck _ i _)
  exact (hdrop.of_tables (s := s) rfl rfl rfl).trans (.of_eq rfl rfl rfl)

theorem extends_assignDisplay (op : Operation P) : Extends s (s.assignDisplay i op) := by
  unfold State.assignDisplay
  split
  · exact extends_removeOperation s i
  · dsimp only
    split
    · exact extends_removeOperation s i
    · split
      · exact .of_eq rfl rfl rfl
      · split
        · exact extends_removeOperation s i
        · split
          · exact .of_eq rfl rfl rfl
          · exact .of_eq rfl rfl rfl

theorem extends_startPending (configured : Session P) : Extends s (s.startPending i configured) := by
  have hreserve : ∀ (t : State P) (op : Operation P), Extends s t →
      Extends s (t.startOperation i op) := by
    intro t op ht
    unfold State.startOperation
    split
    · exact ht.trans ((extends_removeOperation _ i).of_tables rfl rfl rfl)
    · rename_i op' s' hr
      have hs := ht.trans (extends_reserveRuntime hr)
      split
      · exact hs.trans (.of_eq rfl rfl rfl)
      · exact hs.trans ((extends_assignDisplay _ i _).of_tables rfl rfl rfl)
  unfold State.startPending
  split
  · exact .refl s
  · cases s.operations.get i with
    | some op => exact hreserve s op (.refl s)
    | none => exact hreserve s.nextOperation _ (.of_eq rfl rfl rfl)

theorem extends_startContainerSession : Extends s (s.startContainerSession i) := by
  unfold State.startContainerSession
  split
  · exact .refl s
  · split
    · exact .refl s
    · refine Extends.trans (t := s.reapSessions) (.of_eq rfl rfl rfl) ?_
      generalize s.reapSessions = s
      dsimp only
      split
      · split
        · exact .refl s
        · exact (extends_removeOperation _ i).of_tables rfl rfl rfl
      · split
        · split
          · exact .refl s
          · split
            · split
              · exact .refl s
              · rename_i op' s' hr
                exact (extends_reserveRuntime hr).trans (.of_eq rfl rfl rfl)
            · exact extends_startPending s i _
        · exact extends_startPending s i _

/-- Handlers only append to the queue, and no reports of workers. -/
theorem extends_handle (m : Message P) : Extends s (s.handle m) := by
  cases m with
  | check i =>
    show Extends s (s.checkContainerSession i)
    unfold State.checkContainerSession
    split
    · split
      · exact .of_eq rfl rfl rfl
      · exact .refl s
    · exact .refl s
  | start i => exact extends_startContainerSession s i
  | resume i g =>
    show Extends s (s.resumeContainerSession i g)
    unfold State.resumeContainerSession
    split
    · exact .refl s
    · split
      · exact .refl s
      · exact extends_startContainerSession s i
  | stop i =>
    show Extends s (s.stopContainerSession i)
    have hc : Extends s (s.cancelPending i) := by
      unfold State.cancelPending State.cancelOperation
      split
      · split
        · exact .of_eq rfl rfl rfl
        · exact (extends_removeOperation _ i).of_tables rfl rfl rfl
      · exact .refl s
    unfold State.stopContainerSession
    dsimp only
    split
    · exact hc.trans (.of_eq rfl rfl rfl)
    · exact hc
  | forceStop i =>
    show Extends s (s.forceStopContainerSession i)
    unfold State.forceStopContainerSession
    split
    · exact extends_send s rfl
    · exact extends_stopActive s i
  | createManaged slot =>
    show Extends s (s.createManagedDisplay slot)
    unfold State.createManagedDisplay
    refine (extends_reapManaged s).trans ?_
    dsimp only
    split
    · exact .of_eq rfl rfl rfl
    · exact .refl _
  | closeManaged slot =>
    show Extends s (s.closeManagedDisplay slot)
    unfold State.closeManagedDisplay
    split
    · exact .refl s
    · split
      · exact .of_eq rfl rfl rfl
      · split
        · exact .refl s
        · exact .of_eq rfl rfl rfl
  | checked i g ok =>
    show Extends s (s.containerSessionChecked i g ok)
    unfold State.containerSessionChecked
    split
    · exact .refl s
    · refine Extends.trans (t := { s with checks := s.checks.erase i }) (.of_eq rfl rfl rfl) ?_
      dsimp only
      split
      · exact extends_removeOperation _ i
      · split
        · exact extends_removeOperation _ i
        · split
          · exact extends_recheck _ i _ _
          · split
            · exact (extends_send _ rfl).of_tables rfl rfl rfl
            · exact extends_removeOperation _ i
  | displayStarted i g w =>
    show Extends s (s.dedicatedDisplayStarted i g w)
    unfold State.dedicatedDisplayStarted
    split
    · exact .of_eq rfl rfl rfl
    · dsimp only
      split
      · exact .of_eq rfl rfl rfl
      · split
        · exact .of_eq rfl rfl rfl
        · split
          · exact .of_eq rfl rfl rfl
          · exact .of_eq rfl rfl rfl
  | displayFailed i g slot =>
    show Extends s (s.dedicatedDisplayFailed i g slot)
    unfold State.dedicatedDisplayFailed
    split
    · exact .refl s
    · exact (extends_removeOperation _ i).of_tables rfl rfl rfl
  | launchFinished i g slot report =>
    show Extends s (s.containerSessionLaunchFinished i g slot report)
    unfold State.containerSessionLaunchFinished
    split
    · exact .of_eq rfl rfl rfl
    · dsimp only
      split
      · exact .of_eq rfl rfl rfl
      · unfold State.completeContainerSessionLaunch
        split
        · exact .of_eq rfl rfl rfl
        · split
          · exact .of_eq rfl rfl rfl
          · exact (extends_dropReservation _ _).of_tables rfl rfl rfl
  | managedStarted g w =>
    show Extends s (s.managedDisplayStarted g w)
    unfold State.managedDisplayStarted
    split
    · exact .of_eq rfl rfl rfl
    · dsimp only
      split
      · exact .of_eq rfl rfl rfl
      · exact .of_eq rfl rfl rfl
  | managedFailed g slot =>
    show Extends s (s.managedDisplayFailed g slot)
    unfold State.managedDisplayFailed
    split
    · exact .of_eq rfl rfl rfl
    · exact .refl s

omit [DecidableEq P] in
theorem Extends.subset {s t : State P} (h : Extends s t) : s.queue ⊆ t.queue := by
  obtain ⟨sent, hq, -⟩ := h.queue
  rw [hq]
  exact List.subset_append_left _ _

end Queue

/-! ## Runs under the condition -/

/-- A handled resume of a waiting launch finds its profile configured and free of cleanups. -/
def State.holdsWhen (s : State P) : Event P → Bool
  | .handle =>
    match s.queue with
    | .resume i g :: _ =>
      (s.currentOperation i g).isNone || i ∉ s.validated || (s.pendingDisplay.get i).isSome ||
        (s.resolve i).isSome && !s.sessionBusy i
    | _ => true
  | _ => true

/-- Every waiting launch has its resume message in the queue. -/
def Resumes (s : State P) : Prop := ∀ i g, (s.view i).waiting = some g → .resume i g ∈ s.queue

/-- A handled message leaves the waiting launches of its profile as they are, or with a resume queued. -/
theorem waiting_handle {m : Message P} {g : Nat} (hm : m.profile? = some i)
    (h : Consistent i { s.view i with jobs := m.jobOf i ++ (s.view i).jobs }) (hr : ∀ n, m ≠ .resume i n)
    (hw : ((s.handle m).view i).waiting = some g) :
    (s.view i).waiting = some g ∨ .resume i g ∈ (s.handle m).queue := by
  have hafter := self_handle hm h
  cases m <;> cases hm
  case check => exact .inl (waiting_checkContainerSession h hw)
  case start =>
    left
    cases hres : (s.resolve i).isSome with
    | false =>
      rw [← startContainerSession_refused (.inl hres)]
      exact hw
    | true =>
      cases hbusy : s.sessionBusy i with
      | true =>
        rw [← startContainerSession_refused (.inr hbusy)]
        exact hw
      | false => exact absurd ((waiting_startContainerSession h hres hbusy).symm.trans hw) (Option.some_ne_none g).symm
  case resume n => exact absurd rfl (hr n)
  case stop => exact absurd ((waiting_stopContainerSession h).symm.trans hw) (Option.some_ne_none g).symm
  case forceStop => exact .inl (waiting_forceStopContainerSession.symm.trans hw)
  case checked n ok => exact waiting_containerSessionChecked hafter hw
  case displayStarted n w => exact .inl (waiting_dedicatedDisplayStarted hw)
  case displayFailed n slot => exact .inl (waiting_dedicatedDisplayFailed hw)
  case launchFinished n slot report => exact .inl (waiting_containerSessionLaunchFinished hw)

/-- A resume handled under the condition leaves nothing waiting for it. -/
theorem waiting_resume {g n : Nat} {queue : List (Message P)} (h : Consistent i (s.view i))
    (hq : s.queue = .resume i n :: queue) (hc : s.holdsWhen .handle = true)
    (hw : ((State.resumeContainerSession { s with queue := queue } i n).view i).waiting = some g) :
    (s.view i).waiting = some g ∧ g ≠ n := by
  have hview : State.view { s with queue := queue } i = s.view i := by
    rw [view_of_queue hq]
    rfl
  unfold State.resumeContainerSession at hw
  cases hcur : State.currentOperation { s with queue := queue } i n with
  | none =>
    rw [hcur] at hw
    rw [hview] at hw
    refine ⟨hw, ?_⟩
    rintro rfl
    unfold View.waiting at hw
    split at hw
    · obtain ⟨op, hop, rfl⟩ := Option.map_eq_some_iff.1 hw
      have hid : op.session.id = i := by
        revert hop h
        generalize s.view i = v
        intro h hop
        cases h <;> cases hop <;> assumption
      rw [currentOperation_of_view (hview ▸ hop) hid] at hcur
      cases hcur
    · cases hw
  | some op =>
    rw [hcur] at hw
    obtain ⟨hop, -, -⟩ := currentOperation_some hcur
    dsimp only at hw
    split at hw
    · rename_i hcan
      rw [hview, h.waiting_of_cancelled (show (s.view i).op = some op from hop) hcan] at hw
      cases hw
    · cases hgo : (State.resolve { s with queue := queue } i).isSome &&
          !State.sessionBusy { s with queue := queue } i with
      | true =>
        obtain ⟨hres, hbusy⟩ := Bool.and_eq_true_iff.1 hgo
        have hnone := waiting_startContainerSession (s := { s with queue := queue })
          (hview ▸ h) hres (by simpa using hbusy)
        cases hnone.symm.trans hw
      | false =>
        -- A refused start changes nothing, which the condition excludes for a waiting launch.
        rw [startContainerSession_refused (by simpa [imp_iff_not_or] using hgo), hview] at hw
        exfalso
        have hc' : ((s.currentOperation i n).isNone || i ∉ s.validated || (s.pendingDisplay.get i).isSome ||
            ((s.resolve i).isSome && !s.sessionBusy i)) = true := by
          simpa only [State.holdsWhen, hq] using hc
        have hcur' : s.currentOperation i n = some op := hcur
        have hgo' : ((s.resolve i).isSome && !s.sessionBusy i) = false := hgo
        rw [hgo', hcur', Option.isNone_some, Bool.false_or, Bool.or_false] at hc'
        unfold View.waiting at hw
        split at hw
        · rename_i hv
          obtain ⟨hval, hdisp⟩ := Bool.and_eq_true_iff.1 hv
          have hin : i ∈ s.validated := isIn_iff.1 hval
          have hnd : s.pendingDisplay.get i = none := by simpa [State.view] using hdisp
          simp [hin, hnd] at hc'
        · cases hw

/-- The next message is handled under the condition. -/
theorem resumes_handle {m : Message P} {queue : List (Message P)} (hq : s.queue = m :: queue)
    (h : ∀ i, Consistent i (s.view i)) (hc : s.holdsWhen .handle = true) (hr : Resumes s) :
    Resumes (State.handle { s with queue := queue } m) := by
  intro i g hw
  have hgrow := (extends_handle { s with queue := queue } m).subset
  have hi := h i
  rw [view_of_queue hq] at hi
  have hview : (State.view { s with queue := queue } i).waiting = (s.view i).waiting := by
    rw [view_of_queue hq]
    rfl
  by_cases hm : m.profile? = some i
  · by_cases hres : ∃ n, m = .resume i n
    · obtain ⟨n, rfl⟩ := hres
      obtain ⟨hs, hne⟩ := waiting_resume (h i) hq hc hw
      have hin := hr i g hs
      rw [hq] at hin
      rcases List.mem_cons.1 hin with he | hin
      · exact absurd (by injection he) hne
      · exact hgrow hin
    · rcases waiting_handle hm hi (fun n hn => hres ⟨n, hn⟩) hw with hs | hin
      · have hin := hr i g (hview ▸ hs)
        rw [hq] at hin
        rcases List.mem_cons.1 hin with he | hin
        · exact absurd ⟨g, he.symm⟩ hres
        · exact hgrow hin
      · exact hin
  · rw [(other_handle hm).waiting, hview] at hw
    have hin := hr i g hw
    rw [hq] at hin
    rcases List.mem_cons.1 hin with he | hin
    · exact absurd (by rw [← he]; rfl) hm
    · exact hgrow hin

theorem resumes_step {s s' : State P} {e : Event P} (h : ∀ i, Consistent i (s.view i)) (hc : s.holdsWhen e = true)
    (hr : Resumes s) (hs : step s e = some s') : Resumes s' := by
  have hof : ∀ t : State P, s.queue ⊆ t.queue → (∀ i, (t.view i).waiting = (s.view i).waiting) → Resumes t :=
    fun t hq hv i g hw => hq (hr i g (hv i ▸ hw))
  cases e with
  | user m =>
    obtain ⟨hm, rfl⟩ := step_user hs
    apply hof
    · exact List.subset_append_left _ _
    · intro i
      rw [view_send _ _ (Message.job?_of_fromUser hm)]
  | finish job ok =>
    obtain ⟨-, rfl⟩ := step_finish hs
    exact hof _ (List.subset_append_left _ _) fun _ => rfl
  | handle =>
    obtain ⟨m, queue, hq, rfl⟩ := step_handle hs
    exact resumes_handle hq h hc hr
  | edit config =>
    cases hs
    exact hr
  | sessionExits k =>
    cases hs
    exact hr
  | managedExits slot =>
    cases hs
    exact hr
  | maintain =>
    cases hs
    apply hof
    · exact (extends_reapManaged s).subset
    · intro i
      rw [(view_reapSessions_shrinks _ i).waiting, (view_reapManaged_shrinks s i).waiting]
  | release index =>
    obtain ⟨c, -, rfl⟩ := step_release hs
    have hd := extends_dropReservation
      { s with cleanup := s.cleanup.eraseIdx index, released := c.resources ++ s.released } c.reservation
    unfold State.releaseCleanup
    apply hof
    · exact hd.subset
    · intro i
      rw [view_dropReservation]
      rfl

theorem resumes_reachable {s : State P} (h : (system P).ReachableWhere (fun s e => s.holdsWhen e = true) s) :
    Resumes s := by
  have hboth : (∀ i, Consistent i (s.view i)) ∧ Resumes s := by
    refine System.ReachableWhere.invariant (I := fun s => (∀ i, Consistent i (s.view i)) ∧ Resumes s) ?_ ?_ h
    · refine ⟨fun _ => .idle (Nat.zero_le 1), ?_⟩
      intro i g hw
      cases hw
    · intro s e s' hi hc hs
      exact ⟨consistent_step hi.1 hs, resumes_step hi.1 hc hi.2 hs⟩
  exact hboth.2

end CocoaWay.Launch
