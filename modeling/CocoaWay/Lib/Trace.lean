import Mathlib.Data.List.Count
import Mathlib.Data.List.Induction
import Mathlib.Tactic.TypeStar

/-!
# Traces accepted by an observer, and the phases a log leads to

An observer is a partial function: `observe o m = none` when the mark `m` is not allowed in `o`.

* `Accepts observe o trace o'` : the trace leads from `o` to `o'`;
* `Accepts.keeps` : what every allowed mark of a kind keeps, a trace of that kind keeps;
* `Accepts.last` : what holds at the end, did not hold at the start and is brought about by no mark of a kind holds
  behind the last mark of another kind;
* `track next start log` : the phase that a log leads to, from the last entry to the first; `none` if an entry is not
  allowed; `countP_eq`, `countP_le_one` : counts that the phase knows.
-/

namespace CocoaWay.Lib

/-! ## Traces -/

section Traces

variable {σ μ : Type*} {observe : σ → μ → Option σ} {o o' : σ} {trace pre post : List μ} {m : μ}

def Accepts (observe : σ → μ → Option σ) (o : σ) (trace : List μ) (o' : σ) : Prop := trace.foldlM observe o = some o'

namespace Accepts

theorem nil (o : σ) : Accepts observe o [] o := rfl

theorem split (h : Accepts observe o (pre ++ post) o') :
    ∃ n, Accepts observe o pre n ∧ Accepts observe n post o' := by
  unfold Accepts at h ⊢
  rw [List.foldlM_append] at h
  exact Option.bind_eq_some_iff.1 h

theorem cons (h : Accepts observe o (m :: post) o') : ∃ n, observe o m = some n ∧ Accepts observe n post o' := by
  unfold Accepts at h ⊢
  rw [List.foldlM_cons] at h
  exact Option.bind_eq_some_iff.1 h

theorem append {n : σ} (h : Accepts observe o pre n) (h' : Accepts observe n post o') :
    Accepts observe o (pre ++ post) o' := by
  unfold Accepts at h h' ⊢
  rw [List.foldlM_append, h]
  exact h'

theorem one (h : observe o m = some o') : Accepts observe o [m] o' := by
  unfold Accepts
  rw [List.foldlM_cons, h]
  rfl

theorem snoc {n : σ} (h : Accepts observe o trace n) (hm : observe n m = some o') :
    Accepts observe o (trace ++ [m]) o' :=
  h.append (one hm)

/-- What every allowed mark of a kind keeps, a trace of that kind keeps. -/
theorem keeps {P : σ → Prop} {Q : μ → Prop} (hP : ∀ o m o', P o → Q m → observe o m = some o' → P o') :
    ∀ {trace : List μ} {o : σ}, Accepts observe o trace o' → (∀ m ∈ trace, Q m) → P o → P o'
  | [], o, h, _, h0 => by
    obtain rfl : o = o' := Option.some.inj h
    exact h0
  | m :: trace, o, h, hQ, h0 => by
    obtain ⟨n, hn, hrest⟩ := h.cons
    exact keeps hP hrest (fun m' hm' => hQ m' (by simp [hm'])) (hP o m n h0 (hQ m (by simp)) hn)

/-- `P` holds at the end, did not hold at the start, and no mark of the kind `K` brings it about: it holds behind the
last mark of another kind. -/
theorem last {P : σ → Prop} {K : μ → Prop} (hK : ∀ o m o', observe o m = some o' → K m → P o' → P o)
    (h : Accepts observe o trace o') (h0 : ¬ P o) (h1 : P o') :
    ∃ p m q a b, trace = p ++ m :: q ∧ ¬ K m ∧ observe a m = some b ∧ P b ∧ ∀ m' ∈ q, K m' := by
  induction trace using List.reverseRecOn generalizing o' with
  | nil =>
    obtain rfl : o = o' := Option.some.inj h
    exact absurd h1 h0
  | append_singleton trace m ih =>
    obtain ⟨n, hn, hm⟩ := h.split
    obtain ⟨e, he, hnil⟩ := hm.cons
    obtain rfl : e = o' := Option.some.inj hnil
    by_cases hkind : K m
    · obtain ⟨p, m', q, a, b, rfl, hm', hb, hPb, hq⟩ := ih hn (hK n m e he hkind h1)
      refine ⟨p, m', q ++ [m], a, b, by simp, hm', hb, hPb, fun x hx => ?_⟩
      rcases List.mem_append.1 hx with hx | hx
      · exact hq x hx
      · obtain rfl := List.mem_singleton.1 hx
        exact hkind
    · exact ⟨trace, m, [], n, e, rfl, hkind, he, h1, nofun⟩

end Accepts

end Traces

/-! ## Phases -/

variable {α φ : Type*} {next : φ → α → Option φ} {start p p' : φ} {a : α} {log log' : List α}

def track (next : φ → α → Option φ) (start : φ) : List α → Option φ
  | [] => some start
  | a :: log => (track next start log).bind fun p => next p a

theorem track_cons : track next start (a :: log) = some p' ↔ ∃ p, track next start log = some p ∧ next p a = some p' :=
  Option.bind_eq_some_iff

theorem track_append : track next start (log' ++ log) = (track next start log).bind fun p => track next p log' := by
  induction log' with
  | nil =>
    cases htrack : track next start log <;> rw [List.nil_append, htrack] <;> rfl
  | cons a log' ih =>
    rw [List.cons_append, track, ih, Option.bind_assoc]
    rfl

/-- An entry of a log that is allowed was allowed when it was written. -/
theorem track_of_append (h : track next start (log' ++ a :: log) = some p) :
    ∃ q q', track next start log = some q ∧ next q a = some q' := by
  rw [track_append, Option.bind_eq_some_iff] at h
  obtain ⟨q', hq', -⟩ := h
  obtain ⟨q, hq, hnext⟩ := track_cons.1 hq'
  exact ⟨q, q', hq, hnext⟩

theorem countP_eq {counted : α → Bool} {f : φ → Nat} (hstart : f start = 0)
    (hnext : ∀ p a p', next p a = some p' → f p' = f p + if counted a then 1 else 0)
      (h : track next start log = some p) :
    log.countP counted = f p := by
  induction log generalizing p with
  | nil =>
    obtain rfl := Option.some.inj h
    exact hstart.symm
  | cons a log ih =>
    obtain ⟨q, hq, ha⟩ := track_cons.1 h
    rw [List.countP_cons, ih hq, hnext q a p ha]

theorem countP_le_one {once : α → Bool} {P : φ → Prop} (henter : ∀ p a p', next p a = some p' → once a = true → P p')
    (hstay : ∀ p a p', P p → next p a = some p' → once a = false ∧ P p') (h : track next start log = some p) :
    log.countP once ≤ 1 ∧ (log.countP once = 1 → P p) := by
  induction log generalizing p with
  | nil => exact ⟨Nat.zero_le _, nofun⟩
  | cons a log ih =>
    obtain ⟨q, hq, hnext⟩ := track_cons.1 h
    obtain ⟨hle, hafter⟩ := ih hq
    by_cases ha : once a = true
    · have hnone : log.countP once = 0 := by
        by_contra hne
        have hfalse := (hstay q a p (hafter (by omega)) hnext).1
        rw [ha] at hfalse
        cases hfalse
      rw [List.countP_cons_of_pos ha, hnone]
      exact ⟨Nat.le_refl 1, fun _ => henter q a p hnext ha⟩
    · rw [List.countP_cons_of_neg ha]
      exact ⟨hle, fun hone => (hstay q a p (hafter hone) hnext).2⟩

end CocoaWay.Lib
