import Mathlib.Tactic.Choose
import Mathlib.Tactic.TypeStar

/-!
# Labelled transition systems

* `System σ α` : an initial state and a partial step function; `step s a = none` when the event `a` cannot occur in `s`;
* `System.ReachableWhere C s` : `s` is the end of a run whose every step meets `C`; `System.Reachable` is the case of
  no condition;
* `System.runWhere`, `System.run` : executable runs; `exists_reachableWhere`, `exists_reachable` tie them to
  reachability;
* `ReachableWhere.invariant` : the induction rule every invariant goes through;
* `exists_endless` : an endless run of what can always be done again.
-/

namespace CocoaWay.Lib

/-- A deterministic labelled transition system: all nondeterminism is in the labels. -/
structure System (σ : Type*) (α : Type*) where
  init : σ
  step : σ → α → Option σ

namespace System

variable {σ α : Type*} {S : System σ α} {C C' : σ → α → Prop}

/-- The states reached by runs whose every step `(state before, event)` meets `C`. -/
inductive ReachableWhere (S : System σ α) (C : σ → α → Prop) : σ → Prop
  | init : S.ReachableWhere C S.init
  | step {s s' : σ} {a : α} : S.ReachableWhere C s → C s a → S.step s a = some s' → S.ReachableWhere C s'

/-- The states reached by any run. -/
abbrev Reachable (S : System σ α) : σ → Prop := S.ReachableWhere fun _ _ => True

/-- Execute a list of events, oldest first, checking a condition before each step. -/
def runWhere (S : System σ α) (c : σ → α → Bool) : σ → List α → Option σ
  | s, [] => some s
  | s, a :: as =>
    if c s a then
      match S.step s a with
      | some s' => S.runWhere c s' as
      | none => none
    else none

/-- Execute a list of events, oldest first. -/
def run (S : System σ α) : σ → List α → Option σ := S.runWhere fun _ _ => true

/-- The induction rule: what holds at the start and is kept by every step that meets `C` holds in every state reached.
-/
theorem ReachableWhere.invariant {I : σ → Prop} (h0 : I S.init)
    (hs : ∀ s a s', I s → C s a → S.step s a = some s' → I s') {s : σ} (h : S.ReachableWhere C s) : I s := by
  induction h with
  | init => exact h0
  | step _ hc hst ih => exact hs _ _ _ ih hc hst

/-- The induction rule for runs without a condition. -/
theorem Reachable.invariant {I : σ → Prop} (h0 : I S.init)
    (hs : ∀ s a s', I s → S.step s a = some s' → I s') {s : σ} (h : S.Reachable s) : I s :=
  ReachableWhere.invariant h0 (fun s a s' hi _ hst => hs s a s' hi hst) h

theorem ReachableWhere.mono (hC : ∀ s a, C s a → C' s a) {s : σ} (h : S.ReachableWhere C s) :
    S.ReachableWhere C' s := by
  induction h with
  | init => exact .init
  | step _ hc hst ih => exact .step ih (hC _ _ hc) hst

theorem ReachableWhere.reachable {s : σ} (h : S.ReachableWhere C s) : S.Reachable s :=
  h.mono fun _ _ _ => trivial

theorem runWhere_cons {c : σ → α → Bool} {s s' : σ} {a : α} {as : List α} :
    S.runWhere c s (a :: as) = some s' ↔ c s a = true ∧ ∃ t, S.step s a = some t ∧ S.runWhere c t as = some s' := by
  rw [System.runWhere]
  cases hst : S.step s a <;> simp

theorem runWhere_mono {c c' : σ → α → Bool} (hc : ∀ s a, c s a = true → c' s a = true) {s s' : σ} {as : List α}
    (h : S.runWhere c s as = some s') : S.runWhere c' s as = some s' := by
  induction as generalizing s with
  | nil => exact h
  | cons a as ih =>
    obtain ⟨ha, t, hst, hr⟩ := runWhere_cons.1 h
    exact runWhere_cons.2 ⟨hc s a ha, t, hst, ih hr⟩

theorem runWhere_append {c : σ → α → Bool} {s t s' : σ} {as bs : List α} (h : S.runWhere c s as = some t)
    (h' : S.runWhere c t bs = some s') : S.runWhere c s (as ++ bs) = some s' := by
  induction as generalizing s with
  | nil =>
    obtain rfl := Option.some.inj h
    exact h'
  | cons a as ih =>
    obtain ⟨hc, u, hst, hr⟩ := runWhere_cons.1 h
    exact runWhere_cons.2 ⟨hc, u, hst, ih hr⟩

/-- A run continued from a reachable state stays in the reachable states. -/
theorem ReachableWhere.runWhere {c : σ → α → Bool} {s s' : σ} {as : List α}
    (h : S.ReachableWhere (fun s a => c s a = true) s) (hr : S.runWhere c s as = some s') :
    S.ReachableWhere (fun s a => c s a = true) s' := by
  induction as generalizing s with
  | nil =>
    cases hr
    exact h
  | cons a as ih =>
    obtain ⟨hc, t, hst, hr⟩ := runWhere_cons.1 hr
    exact ih (h.step hc hst) hr

/-- An executable run shows that some state reached under the condition passes a check. -/
theorem exists_reachableWhere {c : σ → α → Bool} {as : List α} {p : σ → Bool}
    (h : (S.runWhere c S.init as).any p = true) : ∃ s, S.ReachableWhere (fun s a => c s a = true) s ∧ p s = true := by
  cases hr : S.runWhere c S.init as with
  | none => simp [hr] at h
  | some s => exact ⟨s, ReachableWhere.init.runWhere hr, by simpa [hr] using h⟩

/-- An executable run shows that some reachable state passes a check. -/
theorem exists_reachable {as : List α} {p : σ → Bool} (h : (S.run S.init as).any p = true) :
    ∃ s, S.Reachable s ∧ p s = true := by
  obtain ⟨s, hs, hp⟩ := exists_reachableWhere h
  exact ⟨s, hs.reachable, hp⟩

/-- What can always be done once more is done again and again. -/
theorem exists_endless {I : σ → Prop} {R : σ → σ → Prop} (h : ∀ s, I s → ∃ s', I s' ∧ R s s') {s : σ} (hs : I s) :
    ∃ run : Nat → σ, run 0 = s ∧ ∀ n, R (run n) (run (n + 1)) := by
  choose next hI hR using h
  let run : Nat → { s // I s } := fun n => Nat.rec ⟨s, hs⟩ (fun _ s => ⟨next s.1 s.2, hI s.1 s.2⟩) n
  exact ⟨fun n => (run n).1, rfl, fun n => hR (run n).1 (run n).2⟩

end System

end CocoaWay.Lib
