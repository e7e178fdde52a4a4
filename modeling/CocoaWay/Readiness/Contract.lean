import Mathlib.Data.Finset.Card
import CocoaWay.Lib.Trace

/-!
# What the readiness source promises

* `Mark` : what can be seen of the source from outside, in order;
* `Observer`, `observe` : the traces that are allowed: an arm is taken once, and for the clients counted since the arm
  before, a wake is delivered for an arm that was taken, only clients with write interest count as writable, a failure
  is recorded once and not behind a stop;
* `Allowed` : what that means for every split of a trace; `allowed_of_accepts`.
-/

namespace CocoaWay.Readiness
open Lib

variable {κ : Type} [DecidableEq κ]

/-- Why a pass of the readiness thread is ready. -/
structure Cause (κ : Type) where
  display : Bool
  listener : Bool
  writers : Finset κ
  deriving DecidableEq

def Cause.ready (c : Cause κ) : Bool := c.display || c.listener || decide (c.writers ≠ ∅)

inductive Mark (κ : Type) where
  /-- `rearm` sets the arm. -/
  | rearm
  /-- The thread takes the arm. -/
  | took (cause : Cause κ)
  /-- The wake callback returns. -/
  | woke (cause : Cause κ)
  /-- The clients of a poll snapshot that are found writable, once in every pass that comes this far. -/
  | counted (ids : Finset κ)
  /-- The clients with write interest are these from now on. -/
  | interest (ids : Finset κ)
  | failed
  | stopped
  deriving DecidableEq

structure Observer (κ : Type) where
  armed : Bool
  /-- The wake that was decided and is not delivered. -/
  owed : Option (Cause κ)
  interest : Finset κ
  /-- The clients that were counted last, unless an arm has been taken since. -/
  counted : Option (Finset κ)
  failed : Bool
  stopped : Bool

def Observer.start : Observer κ :=
  { armed := true, owed := none, interest := ∅, counted := none, failed := false, stopped := false }

/-- The marks that are allowed next. -/
def observe (o : Observer κ) : Mark κ → Option (Observer κ)
  | .rearm => some { o with armed := true }
  | .took c =>
    if o.armed ∧ o.owed = none ∧ c.ready ∧ o.counted = some c.writers then
      some { o with armed := false, owed := some c, counted := none }
    else none
  | .woke c => if o.owed = some c then some { o with owed := none } else none
  | .counted ids => if ids ⊆ o.interest then some { o with counted := some ids } else none
  | .interest ids => some { o with interest := ids }
  | .failed => if o.failed = false ∧ o.stopped = false then some { o with failed := true } else none
  | .stopped => some { o with stopped := true }

variable {o o' : Observer κ} {trace pre mid post : List (Mark κ)} {c c' : Cause κ} {a b ids : Finset κ} {id : κ}

theorem observe_took (h : observe o (.took c) = some o') :
    (o.armed = true ∧ o.owed = none ∧ c.ready = true ∧ o.counted = some c.writers) ∧
      o' = { o with armed := false, owed := some c, counted := none } := by
  unfold observe at h
  dsimp only at h
  split at h
  next hc => exact ⟨hc, (Option.some.inj h).symm⟩
  · cases h

theorem observe_woke (h : observe o (.woke c) = some o') : o.owed = some c ∧ o' = { o with owed := none } := by
  unfold observe at h
  dsimp only at h
  split at h
  next hc => exact ⟨hc, (Option.some.inj h).symm⟩
  · cases h

theorem observe_counted (h : observe o (.counted ids) = some o') :
    ids ⊆ o.interest ∧ o' = { o with counted := some ids } := by
  unfold observe at h
  dsimp only at h
  split at h
  next hc => exact ⟨hc, (Option.some.inj h).symm⟩
  · cases h

theorem observe_failed (h : observe o .failed = some o') :
    (o.failed = false ∧ o.stopped = false) ∧ o' = { o with failed := true } := by
  unfold observe at h
  dsimp only at h
  split at h
  next hc => exact ⟨hc, (Option.some.inj h).symm⟩
  · cases h

theorem observe_cases {m : Mark κ} (h : observe o m = some o') :
    (o'.armed = o.armed ∨ m = .rearm ∨ ∃ c, m = .took c) ∧
    (o'.owed = o.owed ∨ (∃ c, m = .took c ∧ o'.owed = some c) ∨ o'.owed = none) ∧
    (o'.counted = o.counted ∨ (∃ ids, m = .counted ids ∧ o'.counted = some ids) ∨ o'.counted = none) ∧
    (o'.interest = o.interest ∨ m = .interest o'.interest) ∧
    (o.failed = true ∨ m = .failed → o'.failed = true) ∧ (o.stopped = true ∨ m = .stopped → o'.stopped = true) := by
  match m with
  | .took c =>
    rw [(observe_took h).2]
    exact ⟨Or.inr (Or.inr ⟨c, rfl⟩), Or.inr (Or.inl ⟨c, rfl, rfl⟩), Or.inr (Or.inr rfl), Or.inl rfl, by simp, by simp⟩
  | .woke c =>
    rw [(observe_woke h).2]
    exact ⟨Or.inl rfl, Or.inr (Or.inr rfl), Or.inl rfl, Or.inl rfl, by simp, by simp⟩
  | .counted ids =>
    rw [(observe_counted h).2]
    exact ⟨Or.inl rfl, Or.inl rfl, Or.inr (Or.inl ⟨ids, rfl, rfl⟩), Or.inl rfl, by simp, by simp⟩
  | .failed =>
    rw [(observe_failed h).2]
    exact ⟨Or.inl rfl, Or.inl rfl, Or.inl rfl, Or.inl rfl, by simp, by simp⟩
  | .interest ids =>
    cases h
    exact ⟨Or.inl rfl, Or.inl rfl, Or.inl rfl, Or.inr rfl, by simp, by simp⟩
  | .stopped =>
    cases h
    exact ⟨Or.inl rfl, Or.inl rfl, Or.inl rfl, Or.inl rfl, by simp, by simp⟩
  | .rearm =>
    cases h
    exact ⟨Or.inr (Or.inl rfl), Or.inl rfl, Or.inl rfl, Or.inl rfl, by simp, by simp⟩

/-! ## Traces -/

/-- What an allowed trace says about each of its marks. -/
structure Allowed (trace : List (Mark κ)) : Prop where
  /-- An arm that is taken was set since the one before. -/
  rearm_between : ∀ pre c mid c' post, trace = pre ++ .took c :: (mid ++ .took c' :: post) → .rearm ∈ mid
  /-- A wake is delivered for the arm taken last, and for no other. -/
  took_before_woke : ∀ pre c post, trace = pre ++ .woke c :: post →
    ∃ p q, pre = p ++ .took c :: q ∧ ∀ m ∈ q, ∀ c', m ≠ .woke c' ∧ m ≠ .took c'
  /-- An arm is taken for the display, the listener, or the clients of its own pass: those that were counted last, and
  since the arm before. -/
  cause : ∀ pre c post, trace = pre ++ .took c :: post → c.ready = true ∧
    ∃ p q, pre = p ++ .counted c.writers :: q ∧ ∀ m ∈ q, (∀ ids, m ≠ .counted ids) ∧ ∀ c', m ≠ .took c'
  /-- A client without write interest is not counted. -/
  interested : ∀ pre a mid b post id, trace = pre ++ .interest a :: (mid ++ .counted b :: post) →
    id ∉ a → (∀ ids, .interest ids ∈ mid → id ∉ ids) → id ∉ b
  /-- A client that has no write interest since before the clients were counted is not what an arm is taken for. -/
  removed : ∀ pre a mid c post id, trace = pre ++ .interest a :: (mid ++ .took c :: post) → id ∉ a →
    (∀ ids, .interest ids ∈ mid → id ∉ ids) → (∃ ids, .counted ids ∈ mid) → id ∉ c.writers
  failed_once : ∀ pre post, trace = pre ++ .failed :: post → .failed ∉ post ∧ .stopped ∉ pre

section Accepted

variable {start : Observer κ}

theorem rearm_between (h : Accepts observe start (pre ++ .took c :: (mid ++ .took c' :: post)) o') :
    .rearm ∈ mid := by
  obtain ⟨x, -, hx⟩ := h.split
  obtain ⟨y, hy, hrest⟩ := hx.cons
  obtain ⟨z, hmid, hz⟩ := hrest.split
  obtain ⟨w, hw, -⟩ := hz.cons
  by_contra hno
  have hdisarmed : y.armed = false := by
    rw [(observe_took hy).2]
  have hkeep : z.armed = false := by
    refine hmid.keeps (P := fun o => o.armed = false) (Q := fun m => m ≠ .rearm) (fun o m o' ho hm hstep => ?_) ?_
      hdisarmed
    · obtain hsame | rfl | ⟨c, rfl⟩ := (observe_cases hstep).1
      · rw [hsame]
        exact ho
      · exact absurd rfl hm
      · rw [(observe_took hstep).2]
    · rintro m hm rfl
      exact hno hm
  rw [(observe_took hw).1.1] at hkeep
  cases hkeep

theorem took_before_woke (hstart : start.owed = none) (h : Accepts observe start (pre ++ .woke c :: post) o') :
    ∃ p q, pre = p ++ .took c :: q ∧ ∀ m ∈ q, ∀ c', m ≠ .woke c' ∧ m ≠ .took c' := by
  obtain ⟨x, hpre, hx⟩ := h.split
  obtain ⟨y, hy, -⟩ := hx.cons
  have hsame : ∀ o m o', observe o m = some o' → (∀ c', m ≠ .woke c' ∧ m ≠ .took c') → o'.owed = some c →
      o.owed = some c := by
    intro o m o' hm hkind howed
    obtain hsame | ⟨c', rfl, -⟩ | hnone := (observe_cases hm).2.1
    · rw [← hsame]
      exact howed
    · exact absurd rfl (hkind c').2
    · rw [hnone] at howed
      cases howed
  obtain ⟨p, m, q, d, e, rfl, hkind, hde, he, hq⟩ := hpre.last hsame (by rw [hstart]; exact nofun) (observe_woke hy).1
  refine ⟨p, q, ?_, hq⟩
  have hm : m = .took c := by
    by_cases htook : ∃ c', m = .took c'
    · obtain ⟨c', rfl⟩ := htook
      rw [(observe_took hde).2, Option.some.injEq] at he
      rw [he]
    · by_cases hwoke : ∃ c', m = .woke c'
      · obtain ⟨c', rfl⟩ := hwoke
        rw [(observe_woke hde).2] at he
        cases he
      · exact absurd (fun c' => ⟨fun h => hwoke ⟨c', h⟩, fun h => htook ⟨c', h⟩⟩) hkind
  rw [hm]

theorem took_cause (hstart : start.counted = none) (h : Accepts observe start (pre ++ .took c :: post) o') :
    c.ready = true ∧
    ∃ p q, pre = p ++ .counted c.writers :: q ∧ ∀ m ∈ q, (∀ ids, m ≠ .counted ids) ∧ ∀ c', m ≠ .took c' := by
  obtain ⟨x, hpre, hx⟩ := h.split
  obtain ⟨y, hy, -⟩ := hx.cons
  obtain ⟨-, -, hready, hcounted⟩ := (observe_took hy).1
  have hsame : ∀ o m o', observe o m = some o' → ((∀ ids, m ≠ .counted ids) ∧ ∀ c', m ≠ .took c') →
      o'.counted = some c.writers → o.counted = some c.writers := by
    intro o m o' hm hkind hc
    obtain hsame | ⟨ids, rfl, -⟩ | hnone := (observe_cases hm).2.2.1
    · rw [← hsame]
      exact hc
    · exact absurd rfl (hkind.1 ids)
    · rw [hnone] at hc
      cases hc
  obtain ⟨p, m, q, d, e, rfl, hkind, hde, he, hq⟩ := hpre.last hsame (by rw [hstart]; exact nofun) hcounted
  refine ⟨hready, p, q, ?_, hq⟩
  have hm : m = .counted c.writers := by
    by_cases hcount : ∃ ids, m = .counted ids
    · obtain ⟨ids, rfl⟩ := hcount
      rw [(observe_counted hde).2, Option.some.injEq] at he
      rw [he]
    · by_cases htook : ∃ c', m = .took c'
      · obtain ⟨c', rfl⟩ := htook
        rw [(observe_took hde).2] at he
        cases he
      · exact absurd ⟨fun ids h => hcount ⟨ids, h⟩, fun c' h => htook ⟨c', h⟩⟩ hkind
  rw [hm]

theorem counted_interested (h : Accepts observe start (pre ++ .interest a :: (mid ++ .counted b :: post)) o')
    (hid : id ∉ a) (hno : ∀ ids, .interest ids ∈ mid → id ∉ ids) : id ∉ b := by
  obtain ⟨x, -, hx⟩ := h.split
  obtain ⟨y, hy, hrest⟩ := hx.cons
  obtain ⟨z, hmid, hz⟩ := hrest.split
  obtain ⟨w, hw, -⟩ := hz.cons
  have hfirst : id ∉ y.interest := by
    cases hy
    exact hid
  have hkeep : id ∉ z.interest := by
    refine hmid.keeps (P := fun o => id ∉ o.interest) (Q := fun m => ∀ ids, m = .interest ids → id ∉ ids)
      (fun o m o' ho hm hstep => ?_) ?_ hfirst
    · obtain hsame | hm' := (observe_cases hstep).2.2.2.1
      · rw [hsame]
        exact ho
      · exact hm _ hm'
    · rintro m hm ids rfl
      exact hno ids hm
  exact fun hmem => hkeep ((observe_counted hw).1 hmem)

theorem took_removed (hstart : start.counted = none)
    (h : Accepts observe start (pre ++ .interest a :: (mid ++ .took c :: post)) o') (hid : id ∉ a)
    (hno : ∀ ids, .interest ids ∈ mid → id ∉ ids) (hcounted : .counted ids ∈ mid) : id ∉ c.writers := by
  have hassoc : pre ++ .interest a :: (mid ++ .took c :: post) = (pre ++ .interest a :: mid) ++ .took c :: post := by
    rw [List.append_assoc, List.cons_append]
  rw [hassoc] at h
  obtain ⟨-, p, q, hpq, hq⟩ := took_cause hstart h
  -- the clients were counted last behind the change of interest
  have hmid : ∃ p', mid = p' ++ .counted c.writers :: q := by
    obtain ⟨p', -, heq⟩ | ⟨q', -, heq⟩ := List.append_eq_append_iff.1 hpq
    · obtain ⟨-, hm⟩ | ⟨p'', -, hm⟩ := List.cons_eq_append_iff.1 heq
      · cases hm
      · exact ⟨p'', hm⟩
    · obtain ⟨-, hm⟩ | ⟨q'', -, hm⟩ := List.cons_eq_append_iff.1 heq
      · cases hm
      · exact absurd rfl ((hq (.counted ids) (by rw [hm]; simp [hcounted])).1 ids)
  obtain ⟨p', rfl⟩ := hmid
  rw [List.append_assoc, List.cons_append, List.append_assoc, List.cons_append] at h
  exact counted_interested h hid fun ids hids => hno ids (List.mem_append_left _ hids)

theorem failed_once (h : Accepts observe start (pre ++ .failed :: post) o') : .failed ∉ post ∧ .stopped ∉ pre := by
  obtain ⟨x, hpre, hx⟩ := h.split
  obtain ⟨y, hy, hpost⟩ := hx.cons
  obtain ⟨⟨-, hstopped⟩, hy'⟩ := observe_failed hy
  refine ⟨fun hmem => ?_, fun hmem => ?_⟩
  · obtain ⟨p, q, rfl⟩ := List.append_of_mem hmem
    obtain ⟨z, hp, hz⟩ := hpost.split
    obtain ⟨w, hw, -⟩ := hz.cons
    have hfailed : z.failed = true :=
      hp.keeps (P := fun o => o.failed = true) (Q := fun _ => True)
        (fun o m o' ho _ hstep => (observe_cases hstep).2.2.2.2.1 (Or.inl ho)) (fun _ _ => trivial) (by rw [hy'])
    rw [(observe_failed hw).1.1] at hfailed
    cases hfailed
  · obtain ⟨p, q, rfl⟩ := List.append_of_mem hmem
    obtain ⟨z, -, hz⟩ := hpre.split
    obtain ⟨w, hw, hq⟩ := hz.cons
    have hstop : x.stopped = true :=
      hq.keeps (P := fun o => o.stopped = true) (Q := fun _ => True)
        (fun o m o' ho _ hstep => (observe_cases hstep).2.2.2.2.2 (Or.inl ho)) (fun _ _ => trivial)
        ((observe_cases hw).2.2.2.2.2 (Or.inr rfl))
    rw [hstopped] at hstop
    cases hstop

end Accepted

theorem allowed_of_accepts (h : Accepts observe Observer.start trace o') : Allowed trace := by
  refine ⟨?_, ?_, ?_, ?_, ?_, ?_⟩
  · rintro pre c mid c' post rfl
    exact rearm_between h
  · rintro pre c post rfl
    exact took_before_woke rfl h
  · rintro pre c post rfl
    exact took_cause rfl h
  · rintro pre a mid b post id rfl hid hno
    exact counted_interested h hid hno
  · rintro pre a mid c post id rfl hid hno ⟨ids, hids⟩
    exact took_removed rfl h hid hno hids
  · rintro pre post rfl
    exact failed_once h

end CocoaWay.Readiness
