import CocoaWay.Launch.Reservations

/-!
# Launch orchestration

* `Guarantees` : what the tables of the event loop keep to;
* `launch_guarantees` : in every run in which each resume of a waiting launch finds its profile configured and free of
  cleanups, whatever the order of messages, worker reports, edits and exits;
* `launch_guarantees_resumed`, `launch_stranded` : such a run, and two runs that end with a stranded launch.
-/

namespace CocoaWay.Launch

open CocoaWay.Lib

variable {P : Type} [DecidableEq P]

/-- The generation a profile's worker reports for. -/
def Job.generation : Job P → Nat
  | .check _ g => g
  | .display _ g _ => g
  | .launch _ g _ => g
  | .managed g _ => g

/-- The tables agree with each other, with the workers and with the queue. -/
structure Guarantees (s : State P) : Prop where
  /-- A running profile has neither a pending display nor a pending launch. -/
  exclusive : ∀ i, s.isActive i = true → s.pendingDisplay.get i = none ∧ s.pendingLaunch.get i = none
  /-- A pending operation has exactly one outstanding worker, or is validated with its resume message queued. -/
  advances : ∀ i op, s.operations.get i = some op →
    (∃ job, s.jobs i = [job] ∧ job.generation = op.generation) ∨
      s.jobs i = [] ∧ i ∈ s.validated ∧ .resume i op.generation ∈ s.queue
  /-- A profile without a pending operation is not blocked by anything pending. -/
  free : ∀ i, s.operations.get i = none → i ∉ s.checks ∧ i ∉ s.validated ∧ s.pendingDisplay.get i = none ∧
    s.pendingLaunch.get i = none ∧ s.launchWorkers.get i = none ∧ s.jobs i = []
  /-- Every display and report has one owner: a message, a pending launch, a running session, a managed display or a
  cleanup, until the cleanup is released. -/
  owned : ∀ r ∈ s.created, (s.inTransit ++ s.owned ++ s.released).count r = 1
  created : ∀ r ∈ s.owned, r ∈ s.created
  /-- A requested launch holds the reservation of its profile's runtime identity. -/
  reserved : ∀ i op, s.operations.get i = some op → op.launchRequested = true →
    op.reservation = some op.own ∧ op.own.owner = (i, op.generation) ∧
      s.identities.get op.session.identity = some (i, op.generation)
  /-- So does the session it becomes. -/
  running : ∀ a ∈ s.active, ∃ g, a.reservation = some ⟨a.session.identity, (a.profile, g)⟩ ∧
    s.identities.get a.session.identity = some (a.profile, g)

section Parts

variable {s : State P}

theorem exclusive_of_consistent {i : P} (h : Consistent i (s.view i)) (ha : s.isActive i = true) :
    s.pendingDisplay.get i = none ∧ s.pendingLaunch.get i = none := by
  have hne := isActive_ne_nil ha
  show (s.view i).display = none ∧ (s.view i).launch = none
  revert h hne
  generalize s.view i = v
  intro h hne
  cases h with
  | idle | checking | waiting => exact ⟨rfl, rfl⟩
  | display => exact absurd rfl hne
  | launching => exact absurd rfl hne

omit [DecidableEq P] in
/-- A pending operation that does not wait for a resume has one worker. -/
theorem advances_of_consistent {i : P} {v : View P} {op : Operation P} (h : Consistent i v) (hop : v.op = some op) :
    (∃ job, v.jobs = [job] ∧ job.generation = op.generation) ∨
      v.jobs = [] ∧ v.validated = true ∧ v.waiting = some op.generation := by
  cases h with
  | idle => cases hop
  | checking =>
    cases hop
    exact .inl ⟨_, rfl, rfl⟩
  | waiting =>
    cases hop
    exact .inr ⟨rfl, rfl, rfl⟩
  | display =>
    cases hop
    exact .inl ⟨_, rfl, rfl⟩
  | launching =>
    cases hop
    exact .inl ⟨_, rfl, rfl⟩

theorem free_of_consistent {i : P} (h : Consistent i (s.view i)) (hop : s.operations.get i = none) :
    i ∉ s.checks ∧ i ∉ s.validated ∧ s.pendingDisplay.get i = none ∧ s.pendingLaunch.get i = none ∧
      s.launchWorkers.get i = none ∧ s.jobs i = [] := by
  have hvop : (s.view i).op = none := hop
  rw [← isIn_iff, ← isIn_iff, Bool.not_eq_true, Bool.not_eq_true]
  show (s.view i).checking = false ∧ (s.view i).validated = false ∧ (s.view i).display = none ∧
    (s.view i).launch = none ∧ (s.view i).worker = none ∧ (s.view i).jobs = []
  revert h hvop
  generalize s.view i = v
  intro h hvop
  cases h with
  | idle => exact ⟨rfl, rfl, rfl, rfl, rfl, rfl⟩
  | checking | waiting | display | launching => cases hvop

theorem guarantees_of_parts (hc : ∀ i, Consistent i (s.view i)) (hr : Resumes s) (ho : Ownership s) (hg : Granted s)
    (hv : ∀ i, (s.view i).Reserved) : Guarantees s where
  exclusive i ha := exclusive_of_consistent (hc i) ha
  advances i op hop := by
    rcases advances_of_consistent (hc i) (show (s.view i).op = some op from hop) with h | ⟨hj, hval, hw⟩
    · exact .inl h
    · exact .inr ⟨hj, isIn_iff.1 hval, hr i _ hw⟩
  free i hop := free_of_consistent (hc i) hop
  owned r hm := ho.custody.count_eq_one hm
  created r hm := ho.custody.mem_iff.1 (List.mem_append_left _ (List.mem_append_right _ hm))
  reserved i op hop hl := by
    have hown := ((hv i).op op hop).of_requested hl
    have hid : op.own.owner = (i, op.generation) := congrArg (·, op.generation) ((hc i).op_id hop)
    refine ⟨hown, hid, ?_⟩
    rw [← hid]
    exact (granted_eq_one (r := op.own)).1 ((grantedWith_remove hg hop).registered _ hown)
  running a ha := by
    obtain ⟨g, hres⟩ := (hv a.profile).active a (List.mem_filter.2 ⟨ha, decide_eq_true rfl⟩)
    refine ⟨g, hres, ?_⟩
    apply (granted_eq_one (r := ⟨a.session.identity, (a.profile, g)⟩)).1
    have hcount : 0 < s.reservations.count ⟨a.session.identity, (a.profile, g)⟩ := by
      apply List.count_pos_iff.2
      apply List.mem_append_left
      apply List.mem_append_right
      exact List.mem_filterMap.2 ⟨a, ha, hres⟩
    rw [hg] at hcount
    have := granted_le_one s ⟨a.session.identity, (a.profile, g)⟩
    omega

/-- A handled resume leaves no operation without a worker. -/
theorem resume_advances {i : P} {g : Nat} {queue : List (Message P)} (hc : ∀ i, Consistent i (s.view i))
    (hq : s.queue = .resume i g :: queue) (hcur : (s.currentOperation i g).isSome)
    (hw : s.holdsWhen .handle = true) {s' : State P} (hs : step s .handle = some s') :
    s'.operations.get i = none ∨ ∃ job, s'.jobs i = [job] := by
  obtain ⟨m, queue', hq', rfl⟩ := step_handle hs
  obtain ⟨rfl, rfl⟩ := List.cons.inj (hq.symm.trans hq')
  obtain ⟨op, hcur⟩ := Option.isSome_iff_exists.1 hcur
  obtain ⟨hop, -, hgen⟩ := currentOperation_some hcur
  have hafter := consistent_handle hq hc i
  cases hop' : (State.handle { s with queue := queue } (.resume i g)).operations.get i with
  | none => exact .inl rfl
  | some op' =>
    right
    rcases advances_of_consistent hafter (show _ = some op' from hop') with ⟨job, hjob, -⟩ | ⟨-, -, hwait⟩
    · exact ⟨job, hjob⟩
    · obtain ⟨hbefore, hne⟩ := waiting_resume (hc i) hq hw hwait
      unfold View.waiting at hbefore
      rw [show (s.view i).op = some op from hop, Option.map_some] at hbefore
      split at hbefore
      · exact absurd (hgen.symm.trans (Option.some.inj hbefore)).symm hne
      · cases hbefore

end Parts

/-! ## Runs -/

/-- In every run under the condition, whatever the order of messages, reports, edits, exits and cleanups, the tables
keep to their guarantees, and a resume that is handled advances its operation or ends it. -/
theorem launch_guarantees {s : State P} (h : (system P).ReachableWhere (fun s e => s.holdsWhen e = true) s) :
    Guarantees s ∧ ∀ i g queue s', s.queue = .resume i g :: queue → (s.currentOperation i g).isSome →
      s.holdsWhen .handle = true → step s .handle = some s' →
        s'.operations.get i = none ∨ ∃ job, s'.jobs i = [job] := by
  have hc := consistent_reachable h.reachable
  obtain ⟨hg, hv⟩ := reservations_reachable h.reachable
  refine ⟨guarantees_of_parts hc (resumes_reachable h) (ownership_reachable h.reachable) hg hv, ?_⟩
  intro i g queue s' hq hcur hw hs
  exact resume_advances hc hq hcur hw hs

/-- Profile 0, launching under the name `name`. -/
def profile (name : String) : Session Nat := ⟨0, name, "container", none, none, ""⟩

/-- A launch up to its resume message. -/
def toResume (name : String) (generation : Nat) : List (Event Nat) :=
  [.edit [profile name], .user (.start 0), .handle, .finish (.check 0 generation) true, .handle]

theorem launch_guarantees_resumed : ∃ s : State Nat, s.isActive 0 = true ∧ Guarantees s := by
  have hrun : ((system Nat).runWhere State.holdsWhen (system Nat).init
      (toResume "a" 0 ++ [.handle, .finish (.launch 0 0 "default") true, .handle])).any
      (fun s => s.isActive 0) = true := by decide
  obtain ⟨s, hs, hp⟩ := System.exists_reachableWhere hrun
  exact ⟨s, hp, (launch_guarantees hs).1⟩

/-- The profile is gone from the configuration when its launch resumes. -/
def unconfiguredRun : List (Event Nat) := toResume "a" 0 ++ [.edit [], .handle]

/-- The profile is renamed while it runs, and checked; the application exits, and a launch is requested during the
check. At its resume the resources of the old instance are still in cleanup. -/
def busyRun : List (Event Nat) :=
  toResume "a" 0 ++ [.handle, .finish (.launch 0 0 "default") true, .handle, .edit [profile "b"], .user (.check 0),
    .handle,
    .sessionExits 0, .user (.start 0), .handle, .finish (.check 0 1) true, .handle, .handle]

/-- A pending operation without a worker and without a resume message. -/
def State.stranded (s : State Nat) : Bool := (s.operations.get 0).isSome && (s.jobs 0).isEmpty && s.queue.isEmpty

theorem not_guarantees_of_stranded {s : State Nat} (h : s.stranded = true) : ¬Guarantees s := by
  intro hg
  simp only [State.stranded, Bool.and_eq_true, List.isEmpty_iff] at h
  obtain ⟨⟨hop, hj⟩, hq⟩ := h
  obtain ⟨op, hop⟩ := Option.isSome_iff_exists.1 hop
  rcases hg.advances 0 op hop with ⟨job, hjob, -⟩ | ⟨-, -, hin⟩
  · cases hj.symm.trans hjob
  · rw [hq] at hin
    cases hin

theorem launch_stranded :
    (∃ s : State Nat, (system Nat).Reachable s ∧ s.config = [] ∧ ¬Guarantees s) ∧
      ∃ s : State Nat, (system Nat).Reachable s ∧ s.config = [profile "b"] ∧ ¬Guarantees s := by
  have hrun : ((system Nat).run (system Nat).init unconfiguredRun).any
      (fun s => s.stranded && decide (s.config = [])) = true := by decide
  have hrun' : ((system Nat).run (system Nat).init busyRun).any
      (fun s => s.stranded && decide (s.config = [profile "b"])) = true := by decide
  obtain ⟨s, hs, hp⟩ := System.exists_reachable hrun
  obtain ⟨s', hs', hp'⟩ := System.exists_reachable hrun'
  rw [Bool.and_eq_true, decide_eq_true_iff] at hp hp'
  exact ⟨⟨s, hs, hp.2, not_guarantees_of_stranded hp.1⟩, ⟨s', hs', hp'.2, not_guarantees_of_stranded hp'.1⟩⟩

end CocoaWay.Launch
