import CocoaWay.TraceAnalysis.Gather
import Mathlib.Data.List.Forall2

/-!
# The metrics of a latency trace

* `foldl_metrics` and its like : the pass over the groups, one counter after another;
* `Verified`, `produced_iff` : a value comes of exactly one event of every stage of its span, in order;
* `outcome_alike` : what a group gives depends on how many events it has, and on those that are alone.
-/

namespace CocoaWay.TraceAnalysis
open Lib

variable {g g' : Group} {pair : Pair} {clock : String} {value : Int} {f : Stage → List Seen} {l : List Stage}
  {events : List Seen}

/-! ## The pass over the groups -/

theorem foldl_metrics (gs : List Group) (p : Pairing) (clock : String) (pair : Pair) :
    (gs.foldl Pairing.group p).metrics clock pair = p.metrics clock pair ++ gs.filterMap fun g =>
      produced g clock pair := by
  induction gs generalizing p with
  | nil => exact (List.append_nil _).symm
  | cons g gs ih =>
    rw [List.foldl_cons, ih, List.filterMap_cons]
    show p.metrics clock pair ++ (produced g clock pair).toList ++ _ = _
    cases produced g clock pair <;> simp

/-- A counter of the groups that meet a condition. -/
theorem foldl_counter {c : Pairing → Nat} {q : Group → Prop} [DecidablePred q]
    (hc : ∀ p g, c (p.group g) = c p + if q g then 1 else 0) (gs : List Group) (p : Pairing) :
    c (gs.foldl Pairing.group p) = c p + gs.countP fun g => decide (q g) := by
  induction gs generalizing p with
  | nil => rfl
  | cons g gs ih =>
    rw [List.foldl_cons, ih, hc, List.countP_cons]
    simp only [decide_eq_true_eq]
    omega

/-! ## Values -/

theorem reversed_eq_false (times : List Int) : reversed times = false ↔ times.Pairwise (· ≤ ·) := by
  rw [← List.isChain_iff_pairwise]
  induction times with
  | nil => simp [reversed]
  | cons a times ih =>
    cases times with
    | nil => simp [reversed]
    | cons b times =>
      rw [List.isChain_cons_cons, ← ih]
      simp [reversed]

/-- The events of a span, one for each stage. -/
def Each (f : Stage → List Seen) (l : List Stage) (events : List Seen) : Prop :=
  List.Forall₂ (fun stage e => f stage = [e]) l events

/-- Exactly one event of every stage of a span, of one clock, without conflicting windows, and in order; the value is
the last time minus the first. -/
def Verified (f : Stage → List Seen) (pair : Pair) (clock : String) (value : Int) : Prop :=
  ∃ events, Each f (span pair) events ∧ (∀ e ∈ events, e.clock = clock) ∧
    (∀ e ∈ events, ∀ e' ∈ events, ∀ w w', e.window = some w → e'.window = some w' → w = w') ∧
    (events.map Seen.timestamp).Pairwise (· ≤ ·) ∧
    ∃ first last, events.head? = some first ∧ events.getLast? = some last ∧ value = last.timestamp - first.timestamp

theorem each_iff (hg : ∀ stage, g stage = tally (f stage)) : Each f l events ↔
    (l.any fun stage => (g stage).isNone) = false ∧
      (l.any fun stage => (g stage).any fun seen => decide (seen.1 ≠ 1)) = false ∧
      (l.filterMap fun stage => (g stage).map (·.2)) = events := by
  unfold Each
  induction l generalizing events with
  | nil => simp [eq_comm]
  | cons stage l ih =>
    rw [List.forall₂_cons_left_iff, List.any_cons, List.any_cons, List.filterMap_cons, hg]
    cases htally : tally (f stage) with
    | none =>
      rw [tally_eq_none] at htally
      simp [htally]
    | some seen =>
      obtain ⟨n, first⟩ := seen
      by_cases hn : n = 1
      · subst hn
        rw [tally_eq_one.1 htally]
        simp only [Option.isNone_some, Bool.false_or, Option.any_some, ne_eq, not_true_eq_false, decide_false,
          Option.map_some]
        constructor
        · rintro ⟨e, events', he, hevents', rfl⟩
          obtain ⟨hnone, hmany, hchain⟩ := ih.1 hevents'
          exact ⟨hnone, hmany, by rw [hchain, (List.cons.inj he).1]⟩
        · rintro ⟨hnone, hmany, rfl⟩
          exact ⟨first, _, rfl, ih.2 ⟨hnone, hmany, rfl⟩, rfl⟩
      · have hne : ∀ e, f stage ≠ [e] := by
          intro e he
          rw [tally_eq_one.2 he] at htally
          exact hn (Prod.mk.inj (Option.some.inj htally)).1.symm
        simp [hn, hne]

theorem card_eq_one_of_all (clock : String) {l : List String} (hne : l ≠ []) (hall : ∀ c ∈ l, c = clock) :
    l.toFinset.card = 1 := by
  refine Finset.card_eq_one.2 ⟨clock,
    Finset.eq_singleton_iff_unique_mem.2 ⟨?_, fun c hc => hall c (List.mem_toFinset.1 hc)⟩⟩
  obtain ⟨c, hc⟩ := List.exists_mem_of_ne_nil l hne
  rw [List.mem_toFinset, ← hall c hc]
  exact hc

theorem windows_le_one : ¬1 < (events.filterMap Seen.window).toFinset.card ↔
    ∀ e ∈ events, ∀ e' ∈ events, ∀ w w', e.window = some w → e'.window = some w' → w = w' := by
  rw [not_lt, Finset.card_le_one]
  simp only [List.mem_toFinset, List.mem_filterMap]
  constructor
  · intro hall e he e' he' w w' hw hw'
    exact hall w ⟨e, he, hw⟩ w' ⟨e', he', hw'⟩
  · rintro hall w ⟨e, he, hw⟩ w' ⟨e', he', hw'⟩
    exact hall e he e' he' w w' hw hw'

theorem outcome_ok_iff (hg : ∀ stage, g stage = tally (f stage)) :
    outcome g pair = .ok ⟨clock, value⟩ ↔ Verified f pair clock value := by
  unfold outcome Verified
  constructor
  · intro hok
    split at hok
    · cases hok
    next hnone =>
      split at hok
      · cases hok
      next hmany =>
        dsimp only at hok
        split at hok
        · cases hok
        next hclocks =>
          split at hok
          · cases hok
          next hwindows =>
            split at hok
            · cases hok
            next hreversed =>
              obtain ⟨hclock, hvalue⟩ := Value.mk.inj (Except.ok.inj hok)
              rw [not_not] at hclocks
              have hne : chain g pair ≠ [] := by
                intro hnil
                rw [hnil] at hclocks
                cases hclocks
              obtain ⟨first, hfirst⟩ := Option.isSome_iff_exists.1 (List.isSome_head?.2 hne)
              obtain ⟨last, hlast⟩ := Option.isSome_iff_exists.1 (by simpa using hne : (chain g pair).getLast?.isSome)
              refine ⟨chain g pair, (each_iff hg).2 ⟨by simpa using hnone, by simpa using hmany, rfl⟩, fun e he => ?_,
                windows_le_one.1 hwindows, (reversed_eq_false _).1 (by simpa using hreversed), first, last, hfirst,
                  hlast, ?_⟩
              · obtain ⟨c, hc⟩ := Finset.card_eq_one.1 hclocks
                have hall : ∀ e ∈ chain g pair, e.clock = c := fun e he => by
                  have hmem : e.clock ∈ ((chain g pair).map Seen.clock).toFinset :=
                    List.mem_toFinset.2 (List.mem_map_of_mem he)
                  rw [hc] at hmem
                  exact Finset.mem_singleton.1 hmem
                rw [hfirst] at hclock
                rw [hall e he, ← hclock]
                exact (hall first (List.mem_of_head? hfirst)).symm
              · rw [← hvalue, List.getLast?_map, List.head?_map, hfirst, hlast]
                rfl
  · rintro ⟨events, hevents, hclocks, hwindows, hsorted, first, last, hfirst, hlast, rfl⟩
    obtain ⟨hnone, hmany, hchain⟩ := (each_iff hg).1 hevents
    have hne : events ≠ [] := by
      rintro rfl
      cases hfirst
    have hcard : (events.map Seen.clock).toFinset.card = 1 := by
      refine card_eq_one_of_all clock (by simpa using hne) fun c hc => ?_
      obtain ⟨e, he, rfl⟩ := List.mem_map.1 hc
      exact hclocks e he
    have hchain : chain g pair = events := hchain
    rw [if_neg (by rw [hnone]; exact Bool.false_ne_true), if_neg (by rw [hmany]; exact Bool.false_ne_true)]
    dsimp only
    rw [hchain, if_neg (not_not_intro hcard), if_neg (windows_le_one.2 hwindows),
      if_neg (by simp [(reversed_eq_false _).2 hsorted]), List.getLast?_map, List.head?_map, hfirst, hlast]
    rw [Option.map_some, Option.getD_some, hclocks first (List.mem_of_head? hfirst)]
    rfl

theorem produced_iff (hg : ∀ stage, g stage = tally (f stage)) :
    produced g clock pair = some value ↔ pair ∈ pairs ∧ Verified f pair clock value := by
  rw [← outcome_ok_iff hg]
  unfold produced
  cases houtcome : outcome g pair with
  | error reason => simp
  | ok v =>
    obtain ⟨c, v⟩ := v
    by_cases hpair : pair ∈ pairs
    · by_cases hc : c = clock
      · simp [hpair, hc]
      · simp [hc]
    · simp [hpair]

/-! ## Groups that are alike -/

/-- A stage that has one event has the same one. -/
def AlikeGroups (g g' : Group) : Prop := ∀ stage, Alike (g stage) (g' stage)

theorem count_alike (h : AlikeGroups g g') (stage : Stage) : count g stage = count g' stage := (h stage).count

theorem many_alike {t t' : Option (Nat × Seen)} (h : Alike t t') :
    (t.any fun seen => decide (seen.1 ≠ 1)) = t'.any fun seen => decide (seen.1 ≠ 1) := by
  cases t <;> cases t' <;> first | rfl | exact h.elim | skip
  rename_i seen seen'
  obtain ⟨n, a⟩ := seen
  obtain ⟨n', a'⟩ := seen'
  rw [Option.any_some, Option.any_some, h.1]

theorem eq_of_alike {t t' : Option (Nat × Seen)} (h : Alike t t')
    (hmany : (t.any fun seen => decide (seen.1 ≠ 1)) = false) :
    t = t' := by
  cases t <;> cases t' <;> first | rfl | exact h.elim | skip
  rename_i seen seen'
  obtain ⟨n, a⟩ := seen
  obtain ⟨n', a'⟩ := seen'
  obtain ⟨rfl, heq⟩ := h
  have hn : n = 1 := by simpa using hmany
  rw [heq hn]

theorem outcome_alike (h : AlikeGroups g g') (pair : Pair) : outcome g pair = outcome g' pair := by
  have hnone : ((span pair).any fun stage => (g stage).isNone) = (span pair).any fun stage => (g' stage).isNone := by
    refine congrArg _ (funext fun stage => (h stage).isNone)
  have hmany : ((span pair).any fun stage => (g stage).any fun seen => decide (seen.1 ≠ 1)) =
      (span pair).any fun stage => (g' stage).any fun seen => decide (seen.1 ≠ 1) :=
    congrArg _ (funext fun stage => many_alike (h stage))
  unfold outcome
  rw [hnone, hmany]
  split
  · rfl
  · split
    · rfl
    next hone =>
      have hchain : chain g pair = chain g' pair := by
        refine List.filterMap_congr fun stage hstage => ?_
        rw [← hmany, List.any_eq_true] at hone
        rw [eq_of_alike (h stage) (Bool.eq_false_iff.2 fun hany => hone ⟨stage, hstage, hany⟩)]
      rw [hchain]

theorem produced_alike (h : AlikeGroups g g') : produced g clock pair = produced g' clock pair := by
  unfold produced
  rw [outcome_alike h]

end CocoaWay.TraceAnalysis
