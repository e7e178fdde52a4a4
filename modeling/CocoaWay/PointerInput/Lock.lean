import CocoaWay.PointerInput.Basic

/-!
# The native lock over any sequence of calls

* `Call`, `Lock.step` : the calls of `PointerInput`, each where its callers may make it: absolute motions only while no
  grab is recorded, an acquisition or its failure only when `action` asks for one, an activation only right behind an
  acquisition, a release only of a recorded grab, a reset of the status only where no lock is found;
* `Lock` : `PointerInput` and what happened since: whether an acquisition was refused and nothing asked since, and
  whether a release of the recorded grab failed;
* `LockInv` : the invariant; `lock_guarantees` : what it means for the native grab and for relative motion;
* `system_refines` : the event handlers only make such calls.
-/

namespace CocoaWay.PointerInput
open Lib

variable {W S O : Type*}

/-- `PointerInput` with what its callers know of the native grab. -/
structure Lock (W S O : Type*) where
  input : Input W S O
  /-- The grab was acquired and its protocol activation is still to come. -/
  fresh : Bool
  /-- The last acquisition failed, and no new request came since. -/
  refused : Bool
  /-- A release of the recorded grab failed. -/
  retry : Bool

inductive Call (W S O : Type*)
  | constraintCreated (kind : ConstraintKind)
  | requestReconcile
  | recordMotion (owner : W) (candidate : Option (S × O)) (actual : Option S)
  | clearFocus
  | forgetSurface (surface : S)
  | forgetWindow (owner : W)
  | acquired (focusedOwner : Option W) (actual : Option S) (constraint : ConstraintSnapshot)
  | activated
  | acquisitionFailed (focusedOwner : Option W) (actual : Option S) (constraint : ConstraintSnapshot)
  | released (succeeded : Bool)
  /-- A reconcile that finds no lock on the focused surface resets the status. -/
  | unlocked (constraint : ConstraintSnapshot)
  | button (button : Nat) (pressed : Bool)
  | takeButtons

/-- The status a reconcile sets where it finds no lock. -/
def unlockedStatus : ConstraintKind → LockStatus
  | .confined => .confinementUnsupported
  | _ => .idle

variable [DecidableEq W] [DecidableEq S] [BEq O]

namespace Lock

def step (l : Lock W S O) : Call W S O → Option (Lock W S O)
  | .constraintCreated kind => some { l with input := l.input.constraintCreated kind, refused := false }
  | .requestReconcile => some { l with input := l.input.requestReconcile, refused := false }
  | .recordMotion owner candidate actual =>
    if l.input.freezesAbsolute then none
    else some { l with input := l.input.recordMotion owner candidate actual, refused := false }
  | .clearFocus => some { l with input := l.input.clearFocus, refused := false }
  | .forgetSurface surface =>
    some { l with
      input := l.input.forgetSurface surface
      refused := l.refused && !l.input.focus.any fun focus => focus.surface = surface }
  | .forgetWindow owner =>
    some { l with
      input := l.input.forgetWindow owner
      refused := l.refused && !l.input.focus.any fun focus => focus.owner = owner }
  | .acquired focusedOwner actual constraint =>
    if l.input.action focusedOwner actual constraint = .acquire then
      l.input.focus.map fun focus =>
        { input := l.input.nativeAcquired focus, fresh := true, refused := false, retry := false }
    else none
  | .activated => if l.fresh then some { l with input := l.input.activated, fresh := false } else none
  | .acquisitionFailed focusedOwner actual constraint =>
    if l.input.action focusedOwner actual constraint = .acquire then
      some { l with input := l.input.acquisitionFailed, refused := true }
    else none
  | .released succeeded =>
    if l.input.nativeGrab.isSome then
      some { l with input := l.input.released succeeded, fresh := false, retry := !succeeded }
    else none
  | .unlocked constraint =>
    if l.input.nativeGrab.isNone && constraint.kind ≠ .locked then
      some { l with input := l.input.setStatus (unlockedStatus constraint.kind), refused := false }
    else none
  | .button button pressed => some { l with input := l.input.button button pressed }
  | .takeButtons => some { l with input := l.input.takeButtons.2 }

end Lock

/-- Any sequence of calls on a new `PointerInput`. -/
def lockSystem (W S O : Type*) [DecidableEq W] [DecidableEq S] [BEq O] : System (Lock W S O) (Call W S O) where
  init := { input := .new, fresh := false, refused := false, retry := false }
  step := Lock.step

/-! ## What the decision and the calls say of the grab -/

namespace Input

variable {i : Input W S O} {grab : PointerFocus W S O}

/-- The grabbed surface is the eligible, focused, active locked surface. -/
def holdsLock (i : Input W S O) (grab : PointerFocus W S O) (focusedOwner : Option W) (actual : Option S)
    (constraint : ConstraintSnapshot) : Bool :=
  i.eligible focusedOwner actual constraint && i.focus.any (· == grab) && constraint.kind = .locked &&
    constraint.active

theorem action_of_grab (h : i.nativeGrab = some grab) (focusedOwner : Option W) (actual : Option S)
    (constraint : ConstraintSnapshot) : i.action focusedOwner actual constraint =
      if i.holdsLock grab focusedOwner actual constraint && i.status ≠ .releaseFailed then .none else .release := by
  unfold action holdsLock
  rw [h]

/-- An acquisition is asked for only without a grab, of an eligible locked surface, and not after an unanswered
failure. -/
theorem acquire_iff {focusedOwner : Option W} {actual : Option S} {constraint : ConstraintSnapshot} :
    i.action focusedOwner actual constraint = .acquire ↔
      i.nativeGrab = none ∧ constraint.kind = .locked ∧ i.eligible focusedOwner actual constraint = true ∧
        (i.pending = true ∨ i.status ≠ .acquisitionFailed) := by
  unfold action
  cases i.nativeGrab with
  | some grab =>
    constructor
    · intro h
      dsimp only at h
      split at h <;> cases h
    · rintro ⟨h, -⟩
      cases h
  | none =>
    cases hk : constraint.kind with
    | locked => cases i.pending <;> simp
    | confined => simp
    | none => simp

end Input

/-! ## The invariant -/

structure LockInv (l : Lock W S O) : Prop where
  /-- While a grab is recorded the focus is the grab's or gone. -/
  grabbed : ∀ grab, l.input.nativeGrab = some grab → l.input.focus = none ∨ l.input.focus = some grab
  fresh : l.fresh = true → l.retry = false ∧ l.input.nativeGrab.isSome = true
  retry : l.input.nativeGrab.isSome = true → (l.input.status = .releaseFailed ↔ l.retry = true)
  refused : l.refused = true →
    l.input.nativeGrab = none ∧ l.input.pending = false ∧ l.input.status = .acquisitionFailed

variable {input : Input W S O} {l : Lock W S O} {s : State W S O} {constraint : ConstraintSnapshot}
  {focusedOwner : Option W} {actual : Option S}

omit [DecidableEq W] [DecidableEq S] [BEq O] in
/-- A call that only asks for a reconcile and may clear the focus. -/
theorem LockInv.asked (h : LockInv l) (hg : input.nativeGrab = l.input.nativeGrab) (hs : input.status = l.input.status)
    (hf : input.focus = none ∨ input.focus = l.input.focus) : LockInv { l with input := input, refused := false } where
  grabbed := by
    intro grab hgrab
    rcases hf with hf | hf
    · exact Or.inl hf
    · have := h.grabbed grab (hg ▸ hgrab)
      rwa [← hf] at this
  fresh := fun hfresh => by
    rw [hg]
    exact h.fresh hfresh
  retry := fun hsome => by
    rw [hs]
    exact h.retry (hg ▸ hsome)
  refused := nofun

omit [DecidableEq W] [DecidableEq S] [BEq O] in
theorem fields_constraintCreated (i : Input W S O) (kind : ConstraintKind) :
    (i.constraintCreated kind).nativeGrab = i.nativeGrab ∧ (i.constraintCreated kind).status = i.status ∧
      (i.constraintCreated kind).focus = i.focus := by
  unfold Input.constraintCreated
  dsimp only
  split <;> exact ⟨rfl, rfl, rfl⟩

omit [DecidableEq W] [BEq O] in
theorem fields_recordMotion (i : Input W S O) (owner : W) (candidate : Option (S × O)) (actual : Option S) :
    (i.recordMotion owner candidate actual).nativeGrab = i.nativeGrab ∧
      (i.recordMotion owner candidate actual).status = i.status := by
  unfold Input.recordMotion
  cases candidate with
  | none =>
    dsimp only
    split <;> exact ⟨rfl, rfl⟩
  | some candidate =>
    dsimp only
    split
    · exact ⟨rfl, rfl⟩
    · split <;> exact ⟨rfl, rfl⟩

omit [DecidableEq W] [DecidableEq S] [BEq O] in
/-- Forgetting either clears the focus, which asks for a reconcile, or changes nothing. -/
theorem LockInv.forget (h : LockInv l) (p : PointerFocus W S O → Bool) : LockInv { l with
      input := if l.input.focus.any p then l.input.clearFocus else l.input
      refused := l.refused && !l.input.focus.any p } := by
  by_cases hp : l.input.focus.any p = true
  · have hc : LockInv { l with input := l.input.clearFocus, refused := false } := h.asked rfl rfl (Or.inl rfl)
    simpa [hp] using hc
  · rw [Bool.not_eq_true] at hp
    simpa [hp] using h

theorem LockInv.step {l l' : Lock W S O} {c : Call W S O} (h : LockInv l) (hst : l.step c = some l') : LockInv l' := by
  cases c with
  | constraintCreated kind =>
    obtain rfl := Option.some.inj hst
    obtain ⟨hg, hs, hf⟩ := fields_constraintCreated l.input kind
    exact h.asked hg hs (Or.inr hf)
  | requestReconcile =>
    obtain rfl := Option.some.inj hst
    exact h.asked rfl rfl (Or.inr rfl)
  | recordMotion owner candidate actual =>
    simp only [Lock.step] at hst
    split at hst
    · cases hst
    · next hfree =>
      obtain rfl := Option.some.inj hst
      obtain ⟨hg, hs⟩ := fields_recordMotion l.input owner candidate actual
      have hnone : l.input.nativeGrab = none := by simpa [Input.freezesAbsolute] using hfree
      refine ⟨fun grab hgrab => ?_, fun hfresh => ?_, fun hsome => ?_, nofun⟩
      · rw [hg, hnone] at hgrab
        cases hgrab
      · rw [hg]
        exact h.fresh hfresh
      · rw [hg, hnone] at hsome
        cases hsome
  | clearFocus =>
    obtain rfl := Option.some.inj hst
    exact h.asked rfl rfl (Or.inl rfl)
  | forgetSurface surface =>
    obtain rfl := Option.some.inj hst
    exact h.forget fun focus => focus.surface = surface
  | forgetWindow owner =>
    obtain rfl := Option.some.inj hst
    exact h.forget fun focus => focus.owner = owner
  | acquired focusedOwner actual constraint =>
    simp only [Lock.step] at hst
    split at hst
    · obtain ⟨focus, hf, rfl⟩ := Option.map_eq_some_iff.1 hst
      refine ⟨fun grab hgrab => Or.inr ?_, fun _ => ⟨rfl, rfl⟩, fun _ => by simp [Input.nativeAcquired], nofun⟩
      exact hf.trans hgrab
    · cases hst
  | activated =>
    simp only [Lock.step] at hst
    split at hst
    · next hfresh =>
      obtain rfl := Option.some.inj hst
      obtain ⟨hretry, hsome⟩ := h.fresh hfresh
      refine ⟨h.grabbed, nofun, fun _ => ?_, fun hr => ?_⟩
      · simp [Input.activated, hretry]
      · rw [(h.refused hr).1] at hsome
        cases hsome
    · cases hst
  | acquisitionFailed focusedOwner actual constraint =>
    simp only [Lock.step] at hst
    split at hst
    · next ha =>
      obtain rfl := Option.some.inj hst
      have hnone := (Input.acquire_iff.1 ha).1
      refine ⟨h.grabbed, h.fresh, fun hsome => ?_, fun _ => ⟨hnone, rfl, rfl⟩⟩
      rw [show l.input.acquisitionFailed.nativeGrab = none from hnone] at hsome
      cases hsome
    · cases hst
  | released succeeded =>
    simp only [Lock.step] at hst
    split at hst
    · next hsome =>
      obtain rfl := Option.some.inj hst
      have href : l.refused = false := by
        by_contra hr
        rw [(h.refused (by simpa using hr)).1] at hsome
        cases hsome
      cases succeeded with
      | true => exact ⟨nofun, nofun, nofun, fun hr => absurd (href.symm.trans hr) nofun⟩
      | false => exact ⟨h.grabbed, nofun, fun _ => ⟨fun _ => rfl, fun _ => rfl⟩,
          fun hr => absurd (href.symm.trans hr) nofun⟩
    · cases hst
  | unlocked constraint =>
    simp only [Lock.step] at hst
    split at hst
    · next hfree =>
      obtain rfl := Option.some.inj hst
      rw [Bool.and_eq_true, Option.isNone_iff_eq_none] at hfree
      refine ⟨h.grabbed, h.fresh, fun hsome => ?_, nofun⟩
      change l.input.nativeGrab.isSome = true at hsome
      rw [hfree.1] at hsome
      cases hsome
    · cases hst
  | button button pressed =>
    obtain rfl := Option.some.inj hst
    exact ⟨h.grabbed, h.fresh, h.retry, h.refused⟩
  | takeButtons =>
    obtain rfl := Option.some.inj hst
    exact ⟨h.grabbed, h.fresh, h.retry, h.refused⟩

theorem lockInv_of_reachable (h : (lockSystem W S O).Reachable l) : LockInv l := by
  refine System.Reachable.invariant ?_ (fun l c l' hi hst => ?_) h
  · exact ⟨nofun, nofun, nofun, nofun⟩
  · have hst' : l.step c = some l' := hst
    exact hi.step hst'

/-! ## The guarantees -/

structure LockGuarantees (l : Lock W S O) : Prop where
  /-- A grab stays recorded until its release is acknowledged. -/
  stays : ∀ grab c l', l.input.nativeGrab = some grab → l.step c = some l' →
    l'.input.nativeGrab = some grab ∨ c = .released true
  /-- While one is recorded no other is asked for. -/
  noSecond : l.input.nativeGrab.isSome = true → ∀ focusedOwner actual constraint,
    l.input.action focusedOwner actual constraint ≠ .acquire
  /-- A release is asked for exactly when the grabbed surface is no longer the eligible, focused, active locked
  surface, or an earlier release of it failed; nothing else is asked for. -/
  release : ∀ grab, l.input.nativeGrab = some grab → ∀ focusedOwner actual constraint,
    l.input.action focusedOwner actual constraint =
      if l.input.holdsLock grab focusedOwner actual constraint && !l.retry then .none else .release
  /-- Only a locked constraint is acquired, never a confinement. -/
  confined : ∀ focusedOwner actual constraint, l.input.action focusedOwner actual constraint = .acquire →
    constraint.kind = .locked
  /-- A failed acquisition is not retried before a new request, or before the focused surface was seen without a lock.
  -/
  refused : l.refused = true → ∀ focusedOwner actual constraint,
    l.input.action focusedOwner actual constraint ≠ .acquire
  /-- While a grab is recorded, relative motion goes only to the surface it was acquired for, and to no surface once a
  release of it failed. -/
  relative : ∀ grab focusedOwner actual focus, l.input.nativeGrab = some grab →
    l.input.relativeFocus focusedOwner actual = some focus →
      focus = grab ∧ actual = some grab.surface ∧ focusedOwner = some grab.owner ∧ l.retry = false

theorem Lock.step_nativeGrab {l l' : Lock W S O} {c : Call W S O} {grab : PointerFocus W S O}
    (h : l.input.nativeGrab = some grab) (hst : l.step c = some l') :
    l'.input.nativeGrab = some grab ∨ c = .released true := by
  cases c with
  | constraintCreated kind =>
    obtain rfl := Option.some.inj hst
    exact Or.inl ((fields_constraintCreated l.input kind).1.trans h)
  | recordMotion owner candidate actual =>
    simp [Lock.step, Input.freezesAbsolute, h] at hst
  | forgetSurface surface =>
    obtain rfl := Option.some.inj hst
    refine Or.inl ?_
    dsimp only [Input.forgetSurface]
    split <;> exact h
  | forgetWindow owner =>
    obtain rfl := Option.some.inj hst
    refine Or.inl ?_
    dsimp only [Input.forgetWindow]
    split <;> exact h
  | acquired focusedOwner actual constraint =>
    simp only [Lock.step] at hst
    split at hst
    · next ha =>
      rw [(Input.acquire_iff.1 ha).1] at h
      cases h
    · cases hst
  | activated =>
    simp only [Lock.step] at hst
    split at hst
    · obtain rfl := Option.some.inj hst
      exact Or.inl h
    · cases hst
  | acquisitionFailed focusedOwner actual constraint =>
    simp only [Lock.step] at hst
    split at hst
    · obtain rfl := Option.some.inj hst
      exact Or.inl h
    · cases hst
  | released succeeded =>
    simp only [Lock.step] at hst
    split at hst
    · obtain rfl := Option.some.inj hst
      cases succeeded with
      | true => exact Or.inr rfl
      | false => exact Or.inl h
    · cases hst
  | unlocked constraint => simp [Lock.step, h] at hst
  | requestReconcile | clearFocus | button _ _ | takeButtons =>
    obtain rfl := Option.some.inj hst
    exact Or.inl h

/-- For every sequence of constraint requests, focus and eligibility changes, acquisition results and releases. -/
theorem lock_guarantees {l : Lock W S O} (h : (lockSystem W S O).Reachable l) : LockGuarantees l where
  stays := fun grab c l' hg hst => Lock.step_nativeGrab hg hst
  noSecond := by
    intro hsome focusedOwner actual constraint ha
    rw [(Input.acquire_iff.1 ha).1] at hsome
    cases hsome
  release := by
    intro grab hg focusedOwner actual constraint
    have hr := (lockInv_of_reachable h).retry (by rw [hg]; rfl)
    rw [Input.action_of_grab hg]
    have hb : decide (l.input.status ≠ .releaseFailed) = !l.retry := by
      rw [Bool.eq_iff_iff, decide_eq_true_iff, Ne, hr]
      simp
    rw [hb]
  confined := fun focusedOwner actual constraint ha => (Input.acquire_iff.1 ha).2.1
  refused := by
    intro hr focusedOwner actual constraint ha
    obtain ⟨-, hp, hs⟩ := (lockInv_of_reachable h).refused hr
    rcases (Input.acquire_iff.1 ha).2.2.2 with hp' | hs'
    · exact absurd (hp.symm.trans hp') nofun
    · exact hs' hs
  relative := by
    intro grab focusedOwner actual focus hg hf
    have hi := lockInv_of_reachable h
    obtain ⟨hfocus, hp⟩ := Option.filter_eq_some_iff.1 hf
    simp only [hg, Option.isNone_some, Bool.false_or, Bool.and_eq_true, decide_eq_true_eq] at hp
    obtain ⟨⟨ho, ha⟩, hs⟩ := hp
    have hgrab : focus = grab := by
      rcases hi.grabbed grab hg with hn | hn
      · rw [hn] at hfocus
        cases hfocus
      · exact Option.some.inj (hfocus.symm.trans hn)
    subst hgrab
    refine ⟨rfl, ha, ho, ?_⟩
    by_contra hr
    have hrel := (hi.retry (by rw [hg]; rfl)).2 (by simpa using hr)
    rw [hs] at hrel
    cases hrel

/-- With window 1, surface 10 and origin 0: a lock constraint of the focused surface, active or not. -/
def lockSnapshot (active : Bool) : ConstraintSnapshot where
  kind := .locked
  active := active
  live := true
  inRegion := true

/-- Motion over surface 10 of window 1, then an activated lock of it. -/
def lockRun : List (Call Nat Nat Nat) :=
  [.recordMotion 1 (some (10, 0)) (some 10), .acquired (some 1) (some 10) (lockSnapshot false), .activated]

theorem lock_guarantees_held : ∃ l, (lockSystem Nat Nat Nat).Reachable l ∧ l.input.nativeGrab.isSome = true ∧
    LockGuarantees l := by
  have hrun : ((lockSystem Nat Nat Nat).run (lockSystem Nat Nat Nat).init lockRun).any
      (fun l => l.input.nativeGrab.isSome) = true := by decide
  obtain ⟨l, hl, hg⟩ := System.exists_reachable hrun
  exact ⟨l, hl, hg, lock_guarantees hl⟩

/-- Three ways the machine does more: relative motion is delivered while no grab is recorded; a failed release is
asked for again although the grabbed surface is the eligible, focused, active locked surface; and a failed acquisition
is retried without a new request once the focused surface was seen without a lock. -/
theorem lock_exceptions :
    (((lockSystem Nat Nat Nat).run (lockSystem Nat Nat Nat).init [.recordMotion 1 (some (10, 0)) (some 10)]).any
      fun l => l.input.nativeGrab.isNone && (l.input.relativeFocus (some 1) (some 10)).isSome) = true ∧
    (((lockSystem Nat Nat Nat).run (lockSystem Nat Nat Nat).init (lockRun ++ [.released false])).any
      fun l => l.input.nativeGrab.any (fun grab =>
          l.input.holdsLock grab (some 1) (some 10) (lockSnapshot true)) &&
        l.input.action (some 1) (some 10) (lockSnapshot true) = .release) = true ∧
    (((lockSystem Nat Nat Nat).run (lockSystem Nat Nat Nat).init
        [.recordMotion 1 (some (10, 0)) (some 10), .acquisitionFailed (some 1) (some 10) (lockSnapshot false),
          .unlocked ⟨.none, false, false, false⟩]).any
      fun l => !l.input.pending && l.input.action (some 1) (some 10) (lockSnapshot false) = .acquire) = true := by
  decide

/-! ## The event handlers -/

/-- Some sequence of calls leads to this `PointerInput`, with no activation left to come. -/
def Called (input : Input W S O) : Prop :=
  ∃ l, (lockSystem W S O).Reachable l ∧ l.input = input ∧ l.fresh = false

theorem Called.call {input input' : Input W S O} (h : Called input) (c : Call W S O)
    (hc : ∀ l : Lock W S O, l.input = input → l.fresh = false →
      ∃ l', l.step c = some l' ∧ l'.input = input' ∧ l'.fresh = false) : Called input' := by
  obtain ⟨l, hl, hi, hf⟩ := h
  obtain ⟨l', hst, hi', hf'⟩ := hc l hi hf
  exact ⟨l', hl.step trivial hst, hi', hf'⟩

theorem Called.clearFocus (h : Called input) : Called input.clearFocus :=
  h.call .clearFocus fun l hi hf => ⟨_, rfl, by rw [← hi], hf⟩

theorem Called.takeButtons (h : Called input) : Called input.takeButtons.2 :=
  h.call .takeButtons fun l hi hf => ⟨_, rfl, by rw [← hi], hf⟩

theorem Called.forgetSurface (h : Called input) (surface : S) : Called (input.forgetSurface surface) :=
  h.call (.forgetSurface surface) fun l hi hf => ⟨_, rfl, by rw [← hi], hf⟩

theorem Called.forgetWindow (h : Called input) (owner : W) : Called (input.forgetWindow owner) :=
  h.call (.forgetWindow owner) fun l hi hf => ⟨_, rfl, by rw [← hi], hf⟩

theorem Called.requestReconcile (h : Called input) : Called input.requestReconcile :=
  h.call .requestReconcile fun l hi hf => ⟨_, rfl, by rw [← hi], hf⟩

theorem Called.recordMotion (h : Called input) (hfree : input.freezesAbsolute = false) (owner : W)
    (candidate : Option (S × O)) (actual : Option S) : Called (input.recordMotion owner candidate actual) := by
  refine h.call (.recordMotion owner candidate actual) fun l hi hf => ⟨_, if_neg ?_, by rw [← hi], hf⟩
  rw [hi, hfree]
  exact nofun

theorem Called.released (h : Called input) (hsome : input.nativeGrab.isSome = true)
    (succeeded : Bool) : Called (input.released succeeded) := by
  refine h.call (.released succeeded) fun l hi hf => ⟨_, if_pos ?_, by rw [← hi], rfl⟩
  rw [hi]
  exact hsome

/-- A reset of the status where no lock is found. -/
theorem Called.unlocked (h : Called input) (constraint : ConstraintSnapshot)
    (hnone : input.nativeGrab = none) (hk : constraint.kind ≠ .locked) :
    Called (input.setStatus (unlockedStatus constraint.kind)) := by
  refine h.call (.unlocked constraint) fun l hi hf => ⟨_, if_pos ?_, by rw [← hi], hf⟩
  rw [hi, hnone]
  simpa using hk

theorem Called.acquisitionFailed (h : Called input) (ha : input.action focusedOwner actual constraint = .acquire) :
    Called input.acquisitionFailed := by
  refine h.call (.acquisitionFailed focusedOwner actual constraint) fun l hi hf => ⟨_, if_pos ?_, by rw [← hi], hf⟩
  rw [hi]
  exact ha

/-- An acquisition that is activated, or released again. -/
theorem Called.acquired (h : Called input) (ha : input.action focusedOwner actual constraint = .acquire)
    {focus : PointerFocus W S O} (hfocus : input.focus = some focus) :
    Called (input.nativeAcquired focus).activated ∧ ∀ ok, Called ((input.nativeAcquired focus).released ok) := by
  obtain ⟨l, hl, rfl, hf⟩ := h
  have hst : (lockSystem W S O).step l (.acquired focusedOwner actual constraint) =
      some { input := l.input.nativeAcquired focus, fresh := true, refused := false, retry := false } := by
    show (if l.input.action focusedOwner actual constraint = .acquire then _ else none) = _
    rw [if_pos ha, hfocus]
    rfl
  have hl' := hl.step trivial hst
  exact ⟨⟨_, hl'.step (a := .activated) trivial rfl, rfl, rfl⟩,
    fun ok => ⟨_, hl'.step (a := .released ok) trivial rfl, rfl, rfl⟩⟩

theorem Called.clearPointerFocus (h : Called s.input) : Called (PointerInput.clearPointerFocus s).input :=
  h.takeButtons.clearFocus

theorem Called.releasePointerLock (h : Called s.input) (ok : Bool) :
    Called (PointerInput.releasePointerLock s ok).input := by
  unfold PointerInput.releasePointerLock
  split
  · next hsome => exact h.released hsome ok
  · exact h

theorem Called.setIdle (h : Called input) (hnone : input.nativeGrab = none) : Called (input.setStatus .idle) :=
  h.unlocked ⟨.none, false, false, false⟩ hnone nofun

/-- The confined branch of the decision is taken without a grab only. -/
theorem Input.confinementUnsupported_iff {i : Input W S O} : i.action focusedOwner actual constraint = .confinementUnsupported ↔
      i.nativeGrab = none ∧ constraint.kind = .confined := by
  unfold Input.action
  cases i.nativeGrab with
  | some grab =>
    dsimp only
    split <;> simp
  | none =>
    cases hk : constraint.kind with
    | locked =>
      dsimp only
      split <;> simp
    | confined => simp
    | none => simp

theorem Called.reconcilePass (h : Called s.input) (world : LockWorld W) :
    Called (PointerInput.reconcilePass s world).2.input := by
  unfold PointerInput.reconcilePass
  split
  · next hn =>
    rw [Bool.and_eq_true, Option.isNone_iff_eq_none] at hn
    exact h.setIdle hn.2
  · cases ha : s.input.action world.focusedOwner s.currentFocus world.snapshot with
    | release => exact h.releasePointerLock world.releaseOk
    | confinementUnsupported =>
      obtain ⟨hnone, hk⟩ := Input.confinementUnsupported_iff.1 ha
      have hu := h.unlocked world.snapshot hnone (by rw [hk]; exact nofun)
      rwa [hk] at hu
    | acquire =>
      dsimp only
      cases hfocus : s.input.focus with
      | none => exact h
      | some focus =>
        dsimp only
        split
        · obtain ⟨hact, hrel⟩ := h.acquired ha hfocus
          split
          · exact hact
          · exact hrel world.releaseOk
        · exact h.acquisitionFailed ha
    | none =>
      dsimp only
      split
      · next hn =>
        rw [Bool.and_eq_true, Option.isNone_iff_eq_none] at hn
        exact h.setIdle hn.1
      · exact h

theorem Called.pointerMotion (h : Called s.input) (owner : W) (candidate grabFocus : Option (S × O))
    (actual : Option S) : Called (PointerInput.pointerMotion s owner candidate grabFocus actual).input := by
  unfold PointerInput.pointerMotion
  split
  · exact h
  · next hfree =>
    have hfree' : s.input.freezesAbsolute = false := by simpa using hfree
    cases grabFocus with
    | none => exact h.recordMotion hfree' owner candidate actual
    | some grabFocus =>
      dsimp only
      split
      · exact h.clearFocus
      · next known _ => exact h.recordMotion hfree' known.owner (some grabFocus) actual

theorem Called.foldl_forgetSurface (h : Called input) (retired : List S) :
    Called (retired.foldl Input.forgetSurface input) := by
  induction retired generalizing input with
  | nil => exact h
  | cons surface retired ih => exact ih (h.forgetSurface surface)

theorem Called.ite {s t : State W S O} {b : Prop} [Decidable b] (hs : Called s.input) (ht : Called t.input) :
    Called (if b then s else t).input := by
  split
  · exact hs
  · exact ht

theorem Called.handler {desktop : W} {s s' : State W S O} {a : Event W S O} (h : Called s.input)
    (hst : PointerInput.step desktop s a = some s') : Called s'.input := by
  cases a with
  | mouseInput window button pressed =>
    obtain rfl := Option.some.inj hst
    refine Called.ite (h.call (.button (buttonCode desktop window button) pressed) fun l hi hf => ⟨_, rfl, ?_, hf⟩) h
    show l.input.button _ pressed = s.input.button _ pressed
    rw [hi]
  | motion owner candidate grabFocus actual =>
    obtain rfl := Option.some.inj hst
    exact h.pointerMotion owner candidate grabFocus actual
  | cursorLeft window ok =>
    obtain rfl := Option.some.inj hst
    have hr : Called (if ownsGrab s window then PointerInput.releasePointerLock s ok else s).input :=
      Called.ite (h.releasePointerLock ok) h
    exact Called.ite hr.clearPointerFocus hr
  | retireWindow window ok =>
    obtain rfl := Option.some.inj hst
    have hr : Called (if ownsGrab s window then PointerInput.releasePointerLock s ok else s).input :=
      Called.ite (h.releasePointerLock ok) h
    exact (Called.ite hr.clearPointerFocus hr).forgetWindow window
  | focusGained window ok =>
    obtain rfl := Option.some.inj hst
    exact (Called.ite (Called.ite (h.releasePointerLock ok) h).clearPointerFocus h).requestReconcile
  | invalidateWindow window ok =>
    obtain rfl := Option.some.inj hst
    exact Called.ite (h.releasePointerLock ok).clearPointerFocus h
  | surfaceRemoved retired =>
    obtain rfl := Option.some.inj hst
    have hf : Called ({ s with input := retired.foldl Input.forgetSurface s.input } : State W S O).input :=
      h.foldl_forgetSurface retired
    exact Called.ite hf.clearPointerFocus hf
  | constraintCreated kind =>
    obtain rfl := Option.some.inj hst
    exact h.call (.constraintCreated kind) fun l hi hf => ⟨_, rfl, by rw [← hi], hf⟩
  | reconcile first second =>
    obtain rfl := Option.some.inj hst
    have hp := h.reconcilePass first
    unfold reconcilePointerLock
    cases hpass : PointerInput.reconcilePass s first with
    | mk again t =>
      rw [hpass] at hp
      cases again with
      | true => exact Called.reconcilePass hp second
      | false => exact hp
  | scaleChanged =>
    obtain rfl := Option.some.inj hst
    exact h.clearFocus
  | exiting ok =>
    obtain rfl := Option.some.inj hst
    exact h.releasePointerLock ok

/-- The event handlers only make calls their contracts allow: what holds for every sequence of calls holds for every
sequence of events. -/
theorem system_refines {desktop : W} (h : (system S O desktop).Reachable s) : Called s.input := by
  refine System.Reachable.invariant (I := fun s => Called s.input) ?_ (fun s a s' hi hst => ?_) h
  · exact ⟨_, .init, rfl, rfl⟩
  · exact Called.handler hi hst

end CocoaWay.PointerInput
