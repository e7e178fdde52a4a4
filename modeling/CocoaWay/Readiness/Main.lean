import CocoaWay.Readiness.Basic

/-!
# The readiness source keeps its promises

* `Follows` : the source is where an observer of its trace stands; `Follows.step`;
* `Heard` : an arm set behind a disarmed snapshot is in the control pipe, or on its way; `Heard.step`;
* `readiness_contract` : both, for every run.
-/

namespace CocoaWay.Readiness
open Lib

variable {κ : Type} [DecidableEq κ] {config : Config} {s s' : State κ} {o : Observer κ}

/-! ## The trace -/

/-- The wake that is being delivered. -/
def Stage.owed : Stage κ → Option (Cause κ)
  | .wake cause => some cause
  | _ => none

/-- The cause that is being considered. -/
def Stage.cause : Stage κ → Option (Cause κ)
  | .decide cause | .take cause => some cause
  | _ => none

structure Follows (s : State κ) (o : Observer κ) : Prop where
  accepts : Accepts observe Observer.start s.trace o
  armed : o.armed = s.armed
  owed : o.owed = s.stage.owed
  interest : o.interest = s.interest
  failed : o.failed = s.recorded
  stopped : o.stopped = s.stopping
  cause : ∀ c, s.stage.cause = some c → o.counted = some c.writers
  ready : ∀ c, s.stage = .take c → c.ready = true

theorem follows_new : Follows (.new : State κ) Observer.start :=
  ⟨rfl, rfl, rfl, rfl, rfl, rfl, nofun, nofun⟩

/-- The thread goes on to a stage that owes nothing and considers no cause. -/
theorem Follows.goto (h : Follows s o) (hs : s.stage.owed = none) {stage : Stage κ} (howed : stage.owed = none)
    (hcause : stage.cause = none) : Follows (s.goto stage) o := by
  refine ⟨h.accepts, h.armed, ?_, h.interest, h.failed, h.stopped, fun c hc => ?_, fun c hc => ?_⟩
  · rw [h.owed, hs]
    exact howed.symm
  · have hc' : stage.cause = some c := hc
    rw [hcause] at hc'
    cases hc'
  · have hc' : stage = .take c := hc
    rw [hc'] at hcause
    cases hcause

theorem Follows.recordFailure (h : Follows s o) (message : String) :
    ∃ o', Follows (s.recordFailure message).1 o' ∧ (s.recordFailure message).1.stage = s.stage := by
  unfold State.recordFailure
  split
  · exact ⟨o, h, rfl⟩
  next hc =>
    rw [Bool.not_eq_true, Bool.or_eq_false_iff] at hc
    have hobserve : observe o .failed = some { o with failed := true } := by
      unfold observe
      dsimp only
      rw [h.failed, h.stopped, if_pos ⟨hc.2, hc.1⟩]
    exact ⟨_, ⟨h.accepts.snoc hobserve, h.armed, h.owed, h.interest, rfl, h.stopped, h.cause, h.ready⟩, rfl⟩

theorem Follows.setOutput (h : Follows s o) (clients blocked : Finset κ) :
    Follows (s.setOutput clients blocked) { o with interest := blocked ∩ clients } :=
  ⟨h.accepts.snoc rfl, h.armed, h.owed, rfl, h.failed, h.stopped, h.cause, h.ready⟩

/-- The stages that owe nothing and consider no cause. -/
def Stage.quiet (stage : Stage κ) : Prop := stage.owed = none ∧ stage.cause = none

/-- The thread goes on to a cause that was counted. -/
theorem Follows.decide (h : Follows s o) (hs : s.stage.owed = none) {c : Cause κ}
    (hc : o.counted = some c.writers) : Follows (s.goto (.decide c)) o := by
  refine ⟨h.accepts, h.armed, ?_, h.interest, h.failed, h.stopped, fun c' hc' => ?_, nofun⟩
  · rw [h.owed, hs]
    rfl
  · obtain rfl : c = c' := Option.some.inj hc'
    exact hc

theorem Follows.counted (h : Follows s o) {ids : Finset κ} (hids : ids ⊆ s.interest) (hs : s.stage.cause = none) :
    Follows (s.mark (.counted ids)) { o with counted := some ids } := by
  have hobserve : observe o (.counted ids) = some { o with counted := some ids } := by
    unfold observe
    dsimp only
    rw [if_pos (by rw [h.interest]; exact hids)]
  refine ⟨h.accepts.snoc hobserve, h.armed, h.owed, h.interest, h.failed, h.stopped, fun c hc => ?_, h.ready⟩
  have hc' : s.stage.cause = some c := hc
  rw [hs] at hc'
  cases hc'

theorem Follows.take (h : Follows s o) {c : Cause κ} (hs : s.stage = .take c) (harmed : s.armed = true) :
    ∃ o', Follows (({ s with armed := false }.mark (.took c)).goto (.wake c)) o' := by
  have howed : o.owed = none := by
    rw [h.owed, hs]
    rfl
  have hcause : o.counted = some c.writers := h.cause c (by rw [hs]; rfl)
  have hobserve : observe o (.took c) = some { o with armed := false, owed := some c, counted := none } := by
    unfold observe
    dsimp only
    rw [if_pos ⟨by rw [h.armed, harmed], howed, h.ready c hs, hcause⟩]
  exact ⟨_, ⟨h.accepts.snoc hobserve, rfl, rfl, h.interest, h.failed, h.stopped, nofun, nofun⟩⟩

theorem Follows.woke (h : Follows s o) {c : Cause κ} (hs : s.stage = .wake c) {stage : Stage κ} (hq : stage.quiet) :
    ∃ o', Follows ((s.mark (.woke c)).goto stage) o' := by
  have hobserve : observe o (.woke c) = some { o with owed := none } := by
    unfold observe
    dsimp only
    rw [if_pos (by rw [h.owed, hs]; rfl)]
  refine ⟨_, ⟨h.accepts.snoc hobserve, h.armed, hq.1.symm, h.interest, h.failed, h.stopped, fun c' hc => ?_,
    fun c' hc => ?_⟩⟩
  · have hc' : stage.cause = some c' := hc
    rw [hq.2] at hc'
    cases hc'
  · have hc' : stage = .take c' := hc
    have hnone := hq.2
    rw [hc'] at hnone
    cases hnone

theorem Follows.thread {answer : Answer κ} (h : Follows s o) (hst : threadStep s answer = some s') :
    ∃ o', Follows s' o' := by
  have hquiet : ∀ stage : Stage κ, s.stage.owed = none → stage.quiet → ∃ o', Follows (s.goto stage) o' :=
    fun stage hs hq => ⟨o, h.goto hs hq.1 hq.2⟩
  unfold threadStep at hst
  split at hst
  next hs =>
    cases hst
    refine hquiet _ (by rw [hs]; rfl) ?_
    split <;> exact ⟨rfl, rfl⟩
  next hs =>
    cases hst
    refine hquiet _ (by rw [hs]; rfl) ?_
    split <;> exact ⟨rfl, rfl⟩
  next hs =>
    cases hst
    exact hquiet _ (by rw [hs]; rfl) ⟨rfl, rfl⟩
  next pass hs =>
    cases hst
    refine hquiet _ (by rw [hs]; rfl) ?_
    split <;> exact ⟨rfl, rfl⟩
  next pass hs =>
    cases hst
    exact hquiet _ (by rw [hs]; rfl) ⟨rfl, rfl⟩
  next pass hs =>
    cases hst
    exact hquiet _ (by rw [hs]; rfl) ⟨rfl, rfl⟩
  next pass error hs =>
    cases hst
    exact hquiet _ (by rw [hs]; rfl) ⟨rfl, rfl⟩
  next pass revents hs =>
    split at hst
    · cases hst
      exact hquiet _ (by rw [hs]; rfl) ⟨rfl, rfl⟩
    · cases hst
  next pass revents hs =>
    cases hst
    refine hquiet _ (by rw [hs]; rfl) ?_
    split
    · exact ⟨rfl, rfl⟩
    · split
      · exact ⟨rfl, rfl⟩
      · split <;> exact ⟨rfl, rfl⟩
  next pass revents hs =>
    cases hst
    split
    · exact hquiet _ (by rw [hs]; rfl) ⟨rfl, rfl⟩
    · exact ⟨o, ⟨h.accepts, h.armed, h.owed, h.interest, h.failed, h.stopped, h.cause, h.ready⟩⟩
  next pass revents hs =>
    cases hst
    refine hquiet _ (by rw [hs]; rfl) ?_
    split
    · exact ⟨rfl, rfl⟩
    · split <;> exact ⟨rfl, rfl⟩
  next pass revents left hs =>
    cases hst
    refine hquiet _ (by rw [hs]; rfl) ?_
    split
    · exact ⟨rfl, rfl⟩
    · split <;> exact ⟨rfl, rfl⟩
  next pass revents left hs =>
    cases hst
    exact hquiet _ (by rw [hs]; rfl) ⟨rfl, rfl⟩
  next pass revents left hs =>
    cases hst
    exact hquiet _ (by rw [hs]; rfl) ⟨rfl, rfl⟩
  next pass revents left id hs =>
    cases hst
    refine ⟨_, (h.setOutput (insert id s.clients) s.blocked).goto ?_ rfl rfl⟩
    show s.stage.owed = none
    rw [hs]
    rfl
  next pass revents left hs =>
    cases hst
    exact hquiet _ (by rw [hs]; rfl) ⟨rfl, rfl⟩
  next pass revents left error hs =>
    cases hst
    exact hquiet _ (by rw [hs]; rfl) ⟨rfl, rfl⟩
  next pass revents hs =>
    have hdecide : ∀ ids, ids ⊆ s.interest →
        ∃ o', Follows ((s.mark (.counted ids)).goto (.decide (revents.cause ids))) o' := by
      intro ids hids
      refine ⟨_, (h.counted hids ?_).decide ?_ rfl⟩
      · rw [hs]
        rfl
      · show s.stage.owed = none
        rw [hs]
        rfl
    split at hst
    · cases hst
      exact hdecide ∅ (Finset.empty_subset _)
    · cases hst
      exact hdecide _ Finset.inter_subset_right
  next c hs =>
    cases hst
    split
    next hready =>
      rw [Bool.and_eq_true] at hready
      refine ⟨o, h.accepts, h.armed, ?_, h.interest, h.failed, h.stopped, fun c' hc => ?_, fun c' hc => ?_⟩
      · rw [h.owed, hs]
        rfl
      · obtain rfl : c = c' := Option.some.inj hc
        exact h.cause c (by rw [hs]; rfl)
      · obtain rfl : c = c' := by
          have : (Stage.take c : Stage κ) = .take c' := hc
          simpa using this
        exact hready.1
    · exact hquiet _ (by rw [hs]; rfl) ⟨rfl, rfl⟩
  next c hs =>
    cases hst
    split
    next harmed => exact h.take hs harmed
    · exact hquiet _ (by rw [hs]; rfl) ⟨rfl, rfl⟩
  next c ok hs =>
    cases hst
    refine h.woke hs ?_
    split <;> exact ⟨rfl, rfl⟩
  next message hs =>
    cases hst
    obtain ⟨o', ho, hstage⟩ := h.recordFailure message
    refine ⟨o', ho.goto (by rw [hstage, hs]; rfl) ?_ ?_⟩
    · split <;> rfl
    · split <;> rfl
  next ok hs =>
    cases hst
    exact hquiet _ (by rw [hs]; rfl) ⟨rfl, rfl⟩
  next hs =>
    cases hst
    obtain ⟨o', ho, hstage⟩ := h.recordFailure "Wayland readiness wake callback rejected notification"
    exact ⟨o', ho.goto (by rw [hstage, hs]; rfl) rfl rfl⟩
  · cases hst

theorem Follows.step {e : Event κ} (h : Follows s o) (hst : Readiness.step config s e = some s') :
    ∃ o', Follows s' o' := by
  unfold Readiness.step at hst
  cases e with
  | thread answer => exact h.thread hst
  | rearm =>
    cases hst
    exact ⟨_, ⟨h.accepts.snoc rfl, rfl, h.owed, h.interest, h.failed, h.stopped, h.cause, h.ready⟩⟩
  | collect active blocked =>
    cases hst
    exact ⟨o, ⟨h.accepts, h.armed, h.owed, h.interest, h.failed, h.stopped, h.cause, h.ready⟩⟩
  | spare i live =>
    dsimp only at hst
    split at hst
    · split at hst
      · cases hst
      · cases hst
        exact ⟨o, ⟨h.accepts, h.armed, h.owed, h.interest, h.failed, h.stopped, h.cause, h.ready⟩⟩
    · cases hst
  | apply i =>
    dsimp only at hst
    split at hst
    next call _ =>
      split at hst
      · cases hst
        have hout := h.setOutput (s.clients \ call.removed) call.blocked
        exact ⟨_, ⟨hout.accepts, hout.armed, hout.owed, hout.interest, hout.failed, hout.stopped, hout.cause,
          hout.ready⟩⟩
      · cases hst
    · cases hst
  | write =>
    dsimp only at hst
    split at hst
    · cases hst
    · cases hst
      exact ⟨o, ⟨h.accepts, h.armed, h.owed, h.interest, h.failed, h.stopped, h.cause, h.ready⟩⟩
  | stop =>
    cases hst
    exact ⟨_, ⟨h.accepts.snoc rfl, h.armed, h.owed, h.interest, h.failed, rfl, h.cause, h.ready⟩⟩
  | join =>
    dsimp only at hst
    split at hst
    · cases hst
      exact ⟨_, h.setOutput ∅ ∅⟩
    · cases hst
  | takeFailure =>
    cases hst
    exact ⟨o, ⟨h.accepts, h.armed, h.owed, h.interest, h.failed, h.stopped, h.cause, h.ready⟩⟩

/-! ## The control pipe -/

/-- An arm that was set behind a disarmed snapshot is in the control pipe, or on its way. -/
def Heard (s : State κ) : Prop :=
  ∀ pass retry, s.stage = .poll pass retry → pass.armed = false → s.armed = true → 0 < s.pipe ∨ 0 < s.writing

/-- A step of the thread into `poll` changes nothing else; its snapshot is armed, or the thread found the arm not set,
or the snapshot is the one it had. -/
theorem thread_into_poll {answer : Answer κ} {pass : Pass κ} {retry : Retry} (hst : threadStep s answer = some s')
    (hs' : s'.stage = .poll pass retry) : s' = s.goto (.poll pass retry) ∧
      (pass.armed = true ∨ s.armed = false ∨ ∃ r, s.stage = .poll pass r) := by
  have hgoto : ∀ stage : Stage κ, s' = s.goto stage → stage = .poll pass retry := fun stage h => by
    rw [h] at hs'
    exact hs'
  unfold threadStep at hst
  split at hst
  next hs =>
    have := hgoto _ (Option.some.inj hst).symm
    split at this <;> cases this
  next hs =>
    have hstage := hgoto _ (Option.some.inj hst).symm
    refine ⟨by rw [← hstage]; exact (Option.some.inj hst).symm, ?_⟩
    split at hstage
    · cases hstage
    next harmed => exact Or.inr (Or.inl (by simpa using harmed))
  next hs =>
    have hstage := hgoto _ (Option.some.inj hst).symm
    refine ⟨by rw [← hstage]; exact (Option.some.inj hst).symm, Or.inl ?_⟩
    cases hstage
    rfl
  next p hs =>
    have hstage := hgoto _ (Option.some.inj hst).symm
    refine ⟨by rw [← hstage]; exact (Option.some.inj hst).symm, Or.inr (Or.inr ?_)⟩
    split at hstage
    · cases hstage
    · cases hstage
      exact ⟨_, hs⟩
  next p hs =>
    have hstage := hgoto _ (Option.some.inj hst).symm
    refine ⟨by rw [← hstage]; exact (Option.some.inj hst).symm, Or.inr (Or.inr ?_)⟩
    cases hstage
    exact ⟨_, hs⟩
  next p hs =>
    have hstage := hgoto _ (Option.some.inj hst).symm
    refine ⟨by rw [← hstage]; exact (Option.some.inj hst).symm, Or.inr (Or.inr ?_)⟩
    cases hstage
    exact ⟨_, hs⟩
  next pass error hs => cases hgoto _ (Option.some.inj hst).symm
  next pass revents hs =>
    split at hst
    · cases hgoto _ (Option.some.inj hst).symm
    · cases hst
  next pass revents hs =>
    have := hgoto _ (Option.some.inj hst).symm
    split at this
    · cases this
    · split at this
      · cases this
      · split at this <;> cases this
  next pass revents hs =>
    cases hst
    split at hs'
    · cases hs'
    · rw [show State.stage { s with pipe := s.pipe - min 64 s.pipe } = s.stage from rfl, hs] at hs'
      cases hs'
  next pass revents hs =>
    have := hgoto _ (Option.some.inj hst).symm
    split at this
    · cases this
    · split at this <;> cases this
  next pass revents left hs =>
    have := hgoto _ (Option.some.inj hst).symm
    split at this
    · cases this
    · split at this <;> cases this
  next pass revents left hs => cases hgoto _ (Option.some.inj hst).symm
  next pass revents left hs => cases hgoto _ (Option.some.inj hst).symm
  next pass revents left id hs =>
    cases hst
    cases hs'
  next pass revents left hs => cases hgoto _ (Option.some.inj hst).symm
  next pass revents left error hs => cases hgoto _ (Option.some.inj hst).symm
  next pass revents hs =>
    split at hst
    · cases hst
      cases hs'
    · cases hst
      cases hs'
  next c hs =>
    have := hgoto _ (Option.some.inj hst).symm
    split at this <;> cases this
  next c hs =>
    cases hst
    split at hs' <;> cases hs'
  next c ok hs =>
    cases hst
    have hstage : (if ok then Stage.top else Stage.rejected : Stage κ) = .poll pass retry := hs'
    split at hstage <;> cases hstage
  next message hs =>
    cases hst
    have hstage : (if (s.recordFailure message).2 then Stage.failureWake else Stage.done : Stage κ) =
      .poll pass retry := hs'
    split at hstage <;> cases hstage
  next ok hs => cases hgoto _ (Option.some.inj hst).symm
  next hs =>
    cases hst
    cases hs'
  · cases hst

theorem Heard.step {e : Event κ} (h : Heard s) (hst : Readiness.step config s e = some s') : Heard s' := by
  intro pass retry hs' hpass harmed
  unfold Readiness.step at hst
  cases e with
  | thread answer =>
    obtain ⟨rfl, hcases⟩ := thread_into_poll hst hs'
    rcases hcases with hp | hno | ⟨r, hr⟩
    · rw [hp] at hpass
      cases hpass
    · have harmed' : s.armed = true := harmed
      rw [hno] at harmed'
      cases harmed'
    · exact h pass r hr hpass harmed
  | rearm =>
    cases hst
    by_cases ha : s.armed = true
    · show 0 < s.pipe ∨ 0 < if s.armed then s.writing else s.writing + 1
      rw [if_pos ha]
      exact h pass retry hs' hpass ha
    · show 0 < s.pipe ∨ 0 < if s.armed then s.writing else s.writing + 1
      rw [if_neg ha]
      omega
  | collect active blocked =>
    cases hst
    exact h pass retry hs' hpass harmed
  | spare i live =>
    dsimp only at hst
    split at hst
    · split at hst
      · cases hst
      · cases hst
        exact h pass retry hs' hpass harmed
    · cases hst
  | apply i =>
    dsimp only at hst
    split at hst
    next call _ =>
      split at hst
      · cases hst
        refine (h pass retry hs' hpass harmed).imp_right fun hwriting => ?_
        dsimp only
        split
        · exact Nat.succ_pos _
        · exact hwriting
      · cases hst
    · cases hst
  | write =>
    dsimp only at hst
    split at hst
    · cases hst
    · cases hst
      have hne : s.stage ≠ .done := by
        rw [show s.stage = .poll pass retry from hs']
        exact nofun
      have hcap := config.capacity_pos
      refine Or.inl ?_
      show 0 < if s.stage = .done then s.pipe else min config.capacity (s.pipe + 1)
      rw [if_neg hne]
      omega
  | stop =>
    cases hst
    exact Or.inr (Nat.succ_pos _)
  | join =>
    dsimp only at hst
    split at hst
    next hc =>
      cases hst
      rw [show s.stage = .poll pass retry from hs'] at hc
      cases hc.2
    · cases hst
  | takeFailure =>
    cases hst
    exact h pass retry hs' hpass harmed

/-! ## Runs -/

/-- In every run, the trace is allowed: an arm is taken at most once between two calls of `rearm`, and for the clients
that its own pass has counted; every wake is delivered for the arm taken last; a client that has lost its write interest
is not counted; a failure is recorded once and not behind a stop. And the thread never waits in `poll` without the
display while the arm is set, the control pipe is empty and no write to it is on its way. -/
theorem readiness_contract (config : Config) {s : State κ} (h : (system config).Reachable s) :
    Allowed s.trace ∧ ¬ (s.blockedDisarmed ∧ s.armed = true ∧ s.pipe = 0 ∧ s.writing = 0) := by
  have hboth : (∃ o, Follows s o) ∧ Heard s := by
    refine System.Reachable.invariant (I := fun s => (∃ o, Follows s o) ∧ Heard s) ?_ ?_ h
    · exact ⟨⟨_, follows_new⟩, nofun⟩
    · rintro s e s' ⟨⟨o, ho⟩, hh⟩ hst
      exact ⟨ho.step hst, hh.step hst⟩
  obtain ⟨⟨o, ho⟩, hheard⟩ := hboth
  refine ⟨allowed_of_accepts ho.accepts, ?_⟩
  rintro ⟨⟨pass, hs, hpass⟩, harmed, hpipe, hwriting⟩
  have := hheard pass .run hs hpass harmed
  omega

/-! ### Late wakes -/

def someConfig : Config := { backend := true, capacity := 8, capacity_pos := by decide }

def someRevents : Revents Nat :=
    { control := false, listener := false, display := false, broken := false, writers := ∅ }

/-- The thread goes from its loop condition into `poll`. -/
def intoPoll : List (Event Nat) := [.thread .none, .thread .none, .thread .none, .thread .none]

/-- The display is readable; `rearm` runs between the taking of the arm and the wake. -/
def earlyRearmRun : List (Event Nat) :=
  intoPoll ++ [.thread (.revents { someRevents with display := true }), .thread .none, .thread .none, .thread .none,
    .thread .none, .thread .none, .rearm, .write, .thread (.woken true)] ++
  intoPoll ++ [.thread (.revents { someRevents with display := true }), .thread .none, .thread .none, .thread .none,
    .thread .none, .thread .none, .thread (.woken true)]

/-- A client is accepted and blocked, becomes writable, and is removed before the thread takes the arm. -/
def removedRun : List (Event Nat) :=
  intoPoll ++ [.thread (.revents { someRevents with listener := true }), .thread .none, .thread .none, .thread .none,
    .thread (.accepted 1), .thread .none, .thread .drained, .thread .none, .thread .none, .thread .none,
    .thread (.woken true), .rearm, .write, .collect {1} {1}, .apply 0, .write] ++
  intoPoll ++ [.thread (.revents { someRevents with writers := {1} }), .thread .none, .thread .none, .thread .none,
    .thread .none, .collect ∅ ∅, .spare 0 ∅, .apply 0, .write]

/-- Two wakes are delivered behind one call of `rearm`; and a client wakes the application behind the call of
`set_output_interest` that removed it. -/
theorem readiness_late_wake :
    (∃ s, (system someConfig).Reachable s ∧ s.trace = [.counted ∅, .took ⟨true, false, ∅⟩, .rearm,
      .woke ⟨true, false, ∅⟩, .counted ∅, .took ⟨true, false, ∅⟩, .woke ⟨true, false, (∅ : Finset Nat)⟩]) ∧
    ∃ s : State Nat, (system someConfig).Reachable s ∧ s.clients = ∅ ∧ s.calls = [] ∧ s.writing = 0 ∧
      ∃ s', (system someConfig).Reachable s' ∧
        s'.trace = s.trace ++ [.took ⟨false, false, {1}⟩, .woke ⟨false, false, {1}⟩] := by
  have hearly : ((system someConfig).run (system someConfig).init earlyRearmRun).any (fun s =>
      decide (s.trace = [.counted ∅, .took ⟨true, false, ∅⟩, .rearm, .woke ⟨true, false, ∅⟩, .counted ∅,
        .took ⟨true, false, ∅⟩, .woke ⟨true, false, ∅⟩])) = true := by
    decide
  have hremoved : ((system someConfig).run (system someConfig).init removedRun).any (fun s =>
      decide (s.clients = ∅ ∧ s.calls = [] ∧ s.writing = 0) &&
        ((system someConfig).run s [.thread .none, .thread (.woken true)]).any fun s' =>
          decide (s'.trace = s.trace ++ [.took ⟨false, false, {1}⟩, .woke ⟨false, false, {1}⟩])) = true := by
    decide
  obtain ⟨s, hs, hp⟩ := System.exists_reachable hearly
  obtain ⟨u, hu, hq⟩ := System.exists_reachable hremoved
  rw [Bool.and_eq_true] at hq
  obtain ⟨hstate, hrun⟩ := hq
  obtain ⟨hclients, hcalls, hwriting⟩ := of_decide_eq_true hstate
  cases hr : (system someConfig).run u [.thread .none, .thread (.woken true)] with
  | none =>
    rw [hr] at hrun
    cases hrun
  | some u' =>
    rw [hr] at hrun
    have hreach : (system someConfig).Reachable u' := by
      refine System.ReachableWhere.reachable (C := fun _ _ => true = true) ?_
      exact System.ReachableWhere.runWhere (hu.mono fun _ _ _ => rfl) hr
    exact ⟨⟨s, hs, of_decide_eq_true hp⟩, u, hu, hclients, hcalls, hwriting, u', hreach, of_decide_eq_true hrun⟩

theorem readiness_contract_run : ∃ s : State Nat, (system someConfig).Reachable s ∧ s.trace.length = 8 ∧
    Allowed s.trace ∧ ¬ (s.blockedDisarmed ∧ s.armed = true ∧ s.pipe = 0 ∧ s.writing = 0) := by
  have hrun : ((system someConfig).run (system someConfig).init removedRun).any (fun s =>
      decide (s.trace.length = 8)) = true := by
    decide
  obtain ⟨s, hs, hp⟩ := System.exists_reachable hrun
  have hall := readiness_contract someConfig hs
  exact ⟨s, hs, of_decide_eq_true hp, hall.1, hall.2⟩

end CocoaWay.Readiness
