import Mathlib.Tactic.TypeStar

/-!
# Requests and answers in a log

A log lists its entries newest first. `req` marks the entries that ask for something and `ans` those that answer every
request before them.

* `Outstanding req ans log` : some request is newer than the last answer;
* `Warranted req ans log` : every answer in the log found a request outstanding;
* `answered_or_outstanding` : no request is lost;
* `Warranted.request_before` : no answer comes without a request since the answer before it.
-/

namespace CocoaWay.Lib

variable {ε : Type*} (req ans : ε → Bool)

/-- Some request in the log is newer than the last answer. -/
def Outstanding : List ε → Bool
  | [] => false
  | e :: log => req e || (!ans e && Outstanding log)

/-- Every answer in the log found a request outstanding. -/
def Warranted : List ε → Prop
  | [] => True
  | e :: log => (ans e = true → Outstanding req ans log = true) ∧ Warranted log

variable {req ans}

theorem outstanding_cons (e : ε) (log : List ε) :
    Outstanding req ans (e :: log) = (req e || (!ans e && Outstanding req ans log)) := rfl

variable {post pre : List ε} {e : ε} {log : List ε}

theorem outstanding_of_req (h : req e = true) (log : List ε) : Outstanding req ans (e :: log) = true := by
  simp [outstanding_cons, h]

theorem outstanding_of_ans (hr : req e = false) (ha : ans e = true) (log : List ε) :
    Outstanding req ans (e :: log) = false := by
  simp [outstanding_cons, hr, ha]

/-- An entry that neither asks nor answers leaves what is outstanding. -/
theorem outstanding_of_silent (hr : req e = false) (ha : ans e = false) (log : List ε) :
    Outstanding req ans (e :: log) = Outstanding req ans log := by
  simp [outstanding_cons, hr, ha]

theorem warranted_cons (h : Warranted req ans log)
    (ha : ans e = true → Outstanding req ans log = true) : Warranted req ans (e :: log) := ⟨ha, h⟩

theorem outstanding_mono {req' : ε → Bool} (hr : ∀ e, req' e = true → req e = true)
    (h : Outstanding req' ans log = true) : Outstanding req ans log = true := by
  induction log with
  | nil => cases h
  | cons e log ih =>
    rw [outstanding_cons, Bool.or_eq_true, Bool.and_eq_true] at h ⊢
    rcases h with h | ⟨ha, h⟩
    · exact Or.inl (hr e h)
    · exact Or.inr ⟨ha, ih h⟩

/-- **No request is lost**: it was answered by a later entry, or something is outstanding now. -/
theorem answered_or_outstanding (h : req e = true) :
    (∃ a ∈ post, ans a = true) ∨ Outstanding req ans (post ++ e :: pre) = true := by
  induction post with
  | nil => exact Or.inr (outstanding_of_req h pre)
  | cons a post ih =>
    rcases ih with ⟨b, hb, hab⟩ | ih
    · exact Or.inl ⟨b, List.mem_cons_of_mem a hb, hab⟩
    · cases haa : ans a with
      | true => exact Or.inl ⟨a, List.mem_cons_self, haa⟩
      | false => exact Or.inr (by simp [outstanding_cons, haa, ih])

/-- What is outstanding is a request with no answer since. -/
theorem exists_of_outstanding (h : Outstanding req ans log = true) :
    ∃ mid e pre, log = mid ++ e :: pre ∧ req e = true ∧ ∀ a ∈ mid, ans a = false := by
  induction log with
  | nil => cases h
  | cons x log ih =>
    cases hx : req x with
    | true => exact ⟨[], x, log, rfl, hx, by simp⟩
    | false =>
      simp only [outstanding_cons, hx, Bool.false_or, Bool.and_eq_true, Bool.not_eq_true'] at h
      obtain ⟨mid, e, pre, rfl, he, hmid⟩ := ih h.2
      refine ⟨x :: mid, e, pre, rfl, he, fun a ha => ?_⟩
      rcases List.mem_cons.1 ha with rfl | ha
      · exact h.1
      · exact hmid a ha

theorem Warranted.tail (h : Warranted req ans (post ++ pre)) : Warranted req ans pre := by
  induction post with
  | nil => exact h
  | cons _ _ ih => exact ih h.2

/-- **No answer without a request**: before each answer there is a request newer than the answer before it. -/
theorem Warranted.request_before {a : ε} (h : Warranted req ans (post ++ a :: pre))
    (ha : ans a = true) : ∃ mid e older, pre = mid ++ e :: older ∧ req e = true ∧ ∀ b ∈ mid, ans b = false :=
  exists_of_outstanding (h.tail.1 ha)

end CocoaWay.Lib
