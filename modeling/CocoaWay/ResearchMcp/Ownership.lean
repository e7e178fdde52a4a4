import CocoaWay.ResearchMcp.Children

/-!
# Every child is given up once

* `Phase`, `phaseOf` : the life of a child, read off what is done with it;
* `Kept` : what every call keeps; `Effect` : what a call on one profile does;
* `finish_effect`, `progressStop_spec`, `requestStop_spec`, `tickProfile_spec` : one specification for each operation;
* `Stays` : who is there after a call;
* `Owns`, `children_owned` : what holds after any calls.
-/

namespace CocoaWay.ResearchMcp
open Lib

variable {env : Env} {c c' : Children} {p q : Profile} {o : Owned} {i : Nat} {a : Act} {acts log : List Act}
  {reason : String}

/-! ## The life of a child -/

inductive Phase
  | unborn
  | owned
  | released
  | confirmed
  | signalled
  | done

def Act.id : Act → Nat
  | .adopt _ id => id
  | .free id => id
  | .query id _ => id
  | .terminate id => id
  | .killGroup id => id
  | .kill id => id
  | .wait id _ => id

/-- The group is signalled only after a query that found the leader, and nothing is done after the wait. -/
def Phase.next : Phase → Act → Option Phase
  | .unborn, .adopt _ _ => some .owned
  | .owned, .query _ _ => some .owned
  | .owned, .terminate _ => some .owned
  | .owned, .free _ => some .released
  | .released, .query _ true => some .confirmed
  | .released, .query _ false => some .done
  | .confirmed, .killGroup _ => some .signalled
  | .signalled, .query _ _ => some .signalled
  | .signalled, .kill _ => some .signalled
  | .signalled, .wait _ _ => some .done
  | _, _ => none

def nextPhase (i : Nat) (phase : Phase) (a : Act) : Option Phase := if a.id = i then phase.next a else some phase

def phaseOf (i : Nat) (log : List Act) : Option Phase := track (nextPhase i) .unborn log

variable {phase : Phase} {c₁ c₂ c₃ : Children}

theorem nextPhase_of_ne (h : a.id ≠ i) : nextPhase i phase a = some phase := if_neg h

theorem nextPhase_self (h : a.id = i) : nextPhase i phase a = phase.next a := if_pos h

theorem phaseOf_append_of_ne (h : ∀ a ∈ acts, a.id ≠ i) : phaseOf i (acts ++ log) = phaseOf i log := by
  induction acts with
  | nil => rfl
  | cons a acts ih =>
    have ih := ih fun b hb => h b (List.mem_cons_of_mem a hb)
    have ha := h a List.mem_cons_self
    unfold phaseOf at ih ⊢
    rw [List.cons_append, track, ih]
    cases htrack : track (nextPhase i) .unborn log with
    | none => rfl
    | some phase => exact nextPhase_of_ne ha

theorem phaseOf_append {phase phase' : Phase} (h : phaseOf i log = some phase)
    (hacts : track (nextPhase i) phase acts = some phase') : phaseOf i (acts ++ log) = some phase' := by
  unfold phaseOf at h ⊢
  rw [track_append, h]
  exact hacts

/-- The children of a profile that were adopted and have not left their slots. -/
def ownedBy (p : Profile) : List Act → List Nat
  | [] => []
  | .adopt q id :: log => if q = p then id :: ownedBy p log else ownedBy p log
  | .free id :: log => (ownedBy p log).erase id
  | _ :: log => ownedBy p log

/-- The child of a profile that was adopted last. -/
def latest (p : Profile) : List Act → Option Nat
  | [] => none
  | .adopt q id :: log => if q = p then some id else latest p log
  | _ :: log => latest p log

/-- Neither the start nor the end of the time in a slot. -/
def Act.Inner : Act → Prop
  | .adopt _ _ => False
  | .free _ => False
  | _ => True

theorem ownedBy_append (h : ∀ a ∈ acts, a.Inner) : ownedBy p (acts ++ log) = ownedBy p log := by
  induction acts with
  | nil => rfl
  | cons a acts ih =>
    have ih := ih fun b hb => h b (List.mem_cons_of_mem a hb)
    have ha := h a List.mem_cons_self
    cases a <;> first | exact ha.elim | exact ih

theorem latest_append (h : ∀ a ∈ acts, a.Inner) : latest p (acts ++ log) = latest p log := by
  induction acts with
  | nil => rfl
  | cons a acts ih =>
    have ih := ih fun b hb => h b (List.mem_cons_of_mem a hb)
    have ha := h a List.mem_cons_self
    cases a <;> first | exact ha.elim | exact ih

/-! ## What every call keeps -/

structure Kept (c : Children) : Prop where
  active : ∀ p o, c.active p = some o → phaseOf o.id c.log = some .owned ∧ o.id < c.born ∧ latest p c.log = some o.id
  others : ∀ id, (∀ p o, c.active p = some o → o.id ≠ id) →
    phaseOf id c.log = some (if id < c.born then .done else .unborn)
  distinct : ∀ p q o o', c.active p = some o → c.active q = some o' → o.id = o'.id → p = q
  slots : ∀ p, ownedBy p c.log = ((c.active p).map Owned.id).toList
  reaped : ∀ p, (c.summaries p).leaderReaped = true → ∃ id, latest p c.log = some id ∧ .wait id true ∈ c.log

/-- A call on one profile. -/
structure Effect (p : Profile) (c c' : Children) : Prop where
  frame : ∀ q, q ≠ p → c'.active q = c.active q
  calls : c.calls ≤ c'.calls
  born : c'.born = c.born
  kept : Kept c → Kept c'

theorem Effect.refl (p : Profile) (c : Children) : Effect p c c := ⟨fun _ _ => rfl, Nat.le_refl _, rfl, id⟩

theorem Effect.trans (h : Effect p c₁ c₂) (h' : Effect p c₂ c₃) : Effect p c₁ c₃ :=
  ⟨fun q hq => (h'.frame q hq).trans (h.frame q hq), h.calls.trans h'.calls, h'.born.trans h.born, h'.kept ∘ h.kept⟩

/-- Calls and summaries change, and no summary says that a leader was reaped that did not before. -/
theorem effect_summaries (hactive : c'.active = c.active) (hborn : c'.born = c.born) (hlog : c'.log = c.log)
    (hcalls : c.calls ≤ c'.calls)
    (hreaped : ∀ q, (c'.summaries q).leaderReaped = true → (c.summaries q).leaderReaped = true) : Effect p c c' where
  frame q _ := by rw [hactive]
  calls := hcalls
  born := hborn
  kept h := by
    refine ⟨?_, ?_, ?_, ?_, fun q hq => ?_⟩
    · rw [hlog, hactive, hborn]
      exact h.active
    · rw [hlog, hactive, hborn]
      exact h.others
    · rw [hactive]
      exact h.distinct
    · rw [hlog, hactive]
      exact h.slots
    · rw [hlog]
      exact h.reaped q (hreaped q hq)

theorem now_effect : Effect p c (now env c).2 := effect_summaries rfl rfl rfl (Nat.le_succ _) fun _ => id

/-- A change of the summary of one profile that keeps whether its leader was reaped. -/
theorem leaderReaped_summarize {f : Summary → Summary} (hf : ∀ s, (f s).leaderReaped = s.leaderReaped) (q : Profile) :
    ((c.summarize p f).summaries q).leaderReaped = (c.summaries q).leaderReaped := by
  unfold Children.summarize
  dsimp only
  by_cases hqp : q = p
  · rw [hqp, Function.update_self]
    exact hf _
  · rw [Function.update_of_ne hqp]

theorem summarize_effect {f : Summary → Summary} (hf : ∀ s, (f s).leaderReaped = s.leaderReaped) :
    Effect p c (c.summarize p f) :=
  effect_summaries rfl rfl rfl (Nat.le_refl _) fun q hq => (leaderReaped_summarize hf q).symm.trans hq

theorem leaderReaped_drain (q : Profile) :
    ((drain env c p).summaries q).leaderReaped = (c.summaries q).leaderReaped := by
  unfold drain
  dsimp only
  refine leaderReaped_summarize ?_ q
  intro s
  rfl

theorem drain_effect : Effect p c (drain env c p) :=
  effect_summaries rfl rfl rfl (Nat.le_succ _) fun q hq => (leaderReaped_drain q).symm.trans hq

/-- Something is asked of a child in its slot. -/
theorem note_effect (hp : c.active p = some o) (hid : a.id = o.id) (hinner : a.Inner)
    (hphase : Phase.next .owned a = some .owned) : Effect p c (c.note a) where
  frame _ _ := rfl
  calls := Nat.le_succ _
  born := rfl
  kept h := by
    have hinner : ∀ b ∈ [a], b.Inner := by simpa using hinner
    refine ⟨fun q o' hq => ?_, fun i hi => ?_, h.distinct, fun q => ?_, fun q hq => ?_⟩
    · obtain ⟨hphase', hborn, hlatest⟩ := h.active q o' hq
      refine ⟨?_, hborn, ?_⟩
      · show phaseOf o'.id ([a] ++ c.log) = _
        by_cases heq : a.id = o'.id
        · exact phaseOf_append hphase' ((nextPhase_self heq).trans hphase)
        · rw [phaseOf_append_of_ne (by simpa using heq)]
          exact hphase'
      · show latest q ([a] ++ c.log) = _
        rw [latest_append hinner]
        exact hlatest
    · show phaseOf i ([a] ++ c.log) = _
      have hne := hi p o hp
      rw [phaseOf_append_of_ne (by simpa [hid] using hne)]
      exact h.others i hi
    · show ownedBy q ([a] ++ c.log) = _
      rw [ownedBy_append hinner]
      exact h.slots q
    · obtain ⟨i, hlatest, hwait⟩ := h.reaped q hq
      refine ⟨i, ?_, List.mem_cons_of_mem a hwait⟩
      show latest q ([a] ++ c.log) = _
      rw [latest_append hinner]
      exact hlatest

theorem waitable_effect (hp : c.active p = some o) : Effect p c (waitable env c o).2 :=
  note_effect hp rfl trivial rfl

/-! ## The end of a child -/

/-- What is done with a child that left its slot. -/
structure Closing (i : Nat) (phase : Phase) (acts : List Act) : Prop where
  done : track (nextPhase i) phase acts = some .done
  inner : ∀ a ∈ acts, a.id = i ∧ a.Inner

structure Reaps (p : Profile) (i : Nat) (phase : Phase) (c c' : Children) : Prop where
  active : c'.active = c.active
  born : c'.born = c.born
  calls : c.calls ≤ c'.calls
  log : ∃ acts, c'.log = acts ++ c.log ∧ Closing i phase acts ∧
    ((c'.summaries p).leaderReaped = true → .wait i true ∈ acts ∨ (c.summaries p).leaderReaped = true)
  others : ∀ q, q ≠ p → (c'.summaries q).leaderReaped = (c.summaries q).leaderReaped

theorem cleanupGroup_eq (env : Env) (c : Children) (o : Owned) (exited : Bool) : ∃ cleanup calls acts,
    cleanupGroup env c o exited = (cleanup, { c with calls := calls, log := acts ++ .killGroup o.id :: c.log }) ∧
      c.calls ≤ calls ∧ (acts = [] ∨ ∃ owned, acts = [.query o.id owned]) := by
  unfold cleanupGroup
  dsimp only
  have hone : c.calls ≤ c.calls + 1 := Nat.le_succ _
  have htwo : c.calls ≤ c.calls + 1 + 1 := hone.trans (Nat.le_succ _)
  split
  · exact ⟨_, _, [], rfl, hone, .inl rfl⟩
  · split
    · exact ⟨_, _, [], rfl, hone, .inl rfl⟩
    · split
      · unfold waitable
        cases env.answer (c.note (.killGroup o.id)).calls with
        | error => exact ⟨_, _, [.query o.id _], rfl, htwo, .inr ⟨_, rfl⟩⟩
        | ok exited =>
          cases exited with
          | false => exact ⟨_, _, [.query o.id _], rfl, htwo, .inr ⟨_, rfl⟩⟩
          | true =>
            dsimp only
            split
            · exact ⟨_, _, [.query o.id _], rfl, htwo.trans (Nat.le_succ _), .inr ⟨_, rfl⟩⟩
            · exact ⟨_, _, [.query o.id _], rfl, htwo.trans (Nat.le_succ _), .inr ⟨_, rfl⟩⟩
      · exact ⟨_, _, [], rfl, hone, .inl rfl⟩

theorem waitLeader_eq (env : Env) (c : Children) (p : Profile) (o : Owned) : ∃ ok : Bool,
    (waitLeader env c p o).active = c.active ∧ (waitLeader env c p o).born = c.born ∧
      c.calls ≤ (waitLeader env c p o).calls ∧ (waitLeader env c p o).log = .wait o.id ok :: c.log ∧
      ((waitLeader env c p o).summaries p).leaderReaped = ok ∧
      ∀ q, q ≠ p → ((waitLeader env c p o).summaries q).leaderReaped = (c.summaries q).leaderReaped := by
  refine ⟨(env.wait c.calls).isSome, rfl, rfl, ?_, rfl, ?_, fun q hq => ?_⟩
  · show c.calls ≤ c.calls + 1 + 1
    omega
  · unfold waitLeader
    rw [leaderReaped_drain]
    unfold Children.summarize
    dsimp only
    rw [Function.update_self]
  · unfold waitLeader
    rw [leaderReaped_drain]
    unfold Children.summarize
    dsimp only
    rw [Function.update_of_ne hq]
    rfl

/-- What is done with a child that is still owned. -/
theorem closing_reap (exited ok : Bool) (hacts : acts = [] ∨ ∃ owned, acts = [.query i owned]) :
    Closing i .confirmed (.wait i ok :: (if exited then [] else [.kill i]) ++ (acts ++ [.killGroup i])) := by
  obtain rfl | ⟨owned, rfl⟩ := hacts <;> cases exited
  all_goals
    refine ⟨?_, by simp [Act.id, Act.Inner]⟩
    simp [track, nextPhase, Phase.next, Act.id]

theorem reap_eq (env : Env) (c : Children) (p : Profile) (o : Owned) (exited : Bool) (reason : String) : ∃ c₁ acts,
    reap env c p o exited reason =
      (waitLeader env (if exited then c₁ else c₁.note (.kill o.id)) p o).summarize p (·.close reason) ∧
    c₁.active = c.active ∧ c₁.born = c.born ∧ c.calls ≤ c₁.calls ∧ c₁.log = acts ++ .killGroup o.id :: c.log ∧
      (acts = [] ∨ ∃ owned, acts = [.query o.id owned]) ∧
      ∀ q, (c₁.summaries q).leaderReaped = (c.summaries q).leaderReaped := by
  obtain ⟨cleanup, calls, acts, hcleanup, hcalls, hacts⟩ := cleanupGroup_eq env c o exited
  unfold reap
  rw [hcleanup]
  exact ⟨_, acts, rfl, rfl, rfl, hcalls, rfl, hacts, leaderReaped_summarize fun _ => rfl⟩

theorem kill_eq (c : Children) (o : Owned) (exited : Bool) :
    (if exited then c else c.note (.kill o.id)) = { c with
      calls := if exited then c.calls else c.calls + 1
      log := (if exited then [] else [.kill o.id]) ++ c.log } := by
  cases exited <;> rfl

theorem reap_reaps (env : Env) (c : Children) (p : Profile) (o : Owned) (exited : Bool) (reason : String) :
    Reaps p o.id .confirmed c (reap env c p o exited reason) := by
  obtain ⟨c₁, acts, hreap, hactive₁, hborn₁, hcalls₁, hlog₁, hacts, hreaped₁⟩ := reap_eq env c p o exited reason
  rw [hreap, kill_eq]
  generalize hkilled : ({ c₁ with
    calls := if exited then c₁.calls else c₁.calls + 1
    log := (if exited then [] else [.kill o.id]) ++ c₁.log } : Children) = c₂
  have hcalls₂ : c₁.calls ≤ c₂.calls := by
    rw [← hkilled]
    dsimp only
    split
    · exact Nat.le_refl _
    · exact Nat.le_succ _
  have hlog₂ : c₂.log = (if exited then [] else [.kill o.id]) ++ c₁.log := by rw [← hkilled]
  have hactive₂ : c₂.active = c₁.active := by rw [← hkilled]
  have hborn₂ : c₂.born = c₁.born := by rw [← hkilled]
  have hsummaries₂ : c₂.summaries = c₁.summaries := by rw [← hkilled]
  obtain ⟨ok, hactive, hborn, hcalls, hlog, hreaped, hothers⟩ := waitLeader_eq env c₂ p o
  have hclose : ∀ q, (((waitLeader env c₂ p o).summarize p (·.close reason)).summaries q).leaderReaped =
      ((waitLeader env c₂ p o).summaries q).leaderReaped := leaderReaped_summarize fun _ => rfl
  refine ⟨hactive.trans (hactive₂.trans hactive₁), hborn.trans (hborn₂.trans hborn₁),
    hcalls₁.trans (hcalls₂.trans hcalls), ⟨_, ?_, closing_reap exited ok hacts, fun hok => ?_⟩,
    fun q hq => ?_⟩
  · refine hlog.trans ?_
    rw [hlog₂, hlog₁]
    simp
  · rw [hclose p, hreaped] at hok
    rw [hok]
    exact .inl List.mem_cons_self
  · rw [hclose q, hothers q hq, hsummaries₂, hreaped₁ q]

theorem kept_free {c₁ : Children} (h : Kept c) (hp : c.active p = some o)
    (hactive : c₁.active = Function.update c.active p none) (hborn : c₁.born = c.born)
    (hlog : ∃ acts, c₁.log = acts ++ .free o.id :: c.log ∧ Closing o.id .released acts ∧
      ((c₁.summaries p).leaderReaped = true → .wait o.id true ∈ acts ∨ (c.summaries p).leaderReaped = true))
    (hothers : ∀ q, q ≠ p → (c₁.summaries q).leaderReaped = (c.summaries q).leaderReaped) : Kept c₁ := by
  obtain ⟨acts, hlog, ⟨hdone, hinner⟩, hreaped⟩ := hlog
  obtain ⟨howned, hlt, hlatest⟩ := h.active p o hp
  have hinner' : ∀ a ∈ acts, a.Inner := fun a ha => (hinner a ha).2
  have hids : ∀ i, i ≠ o.id → ∀ a ∈ acts ++ [.free o.id], a.id ≠ i := by
    intro i hi a ha
    rcases List.mem_append.1 ha with ha | ha
    · rw [(hinner a ha).1]
      exact hi.symm
    · rw [List.mem_singleton.1 ha]
      exact hi.symm
  have hsplit : c₁.log = (acts ++ [.free o.id]) ++ c.log := by
    rw [hlog, List.append_assoc]
    rfl
  have hnot : ∀ q o', c₁.active q = some o' → q ≠ p ∧ c.active q = some o' := by
    intro q o' hq
    rw [hactive] at hq
    by_cases hqp : q = p
    · rw [hqp, Function.update_self] at hq
      cases hq
    · rw [Function.update_of_ne hqp] at hq
      exact ⟨hqp, hq⟩
  have hne : ∀ q o', c₁.active q = some o' → o'.id ≠ o.id := fun q o' hq heq =>
    (hnot q o' hq).1 (h.distinct q p o' o (hnot q o' hq).2 hp heq)
  refine ⟨fun q o' hq => ?_, fun i hi => ?_, fun q r o' o'' hq hr => ?_, fun q => ?_, fun q hq => ?_⟩
  · obtain ⟨hphase, hlt', hlatest'⟩ := h.active q o' (hnot q o' hq).2
    refine ⟨?_, by rw [hborn]; exact hlt', ?_⟩
    · rw [hsplit, phaseOf_append_of_ne (hids _ (hne q o' hq))]
      exact hphase
    · rw [hlog, latest_append hinner']
      exact hlatest'
  · by_cases heq : i = o.id
    · subst heq
      rw [hborn, if_pos hlt, hlog]
      have hfree : phaseOf o.id (.free o.id :: c.log) = some .released :=
        @phaseOf_append _ [.free o.id] _ _ _ howned (nextPhase_self rfl)
      exact phaseOf_append hfree hdone
    · rw [hsplit, phaseOf_append_of_ne (hids i heq), hborn]
      refine h.others i fun q o' hq => ?_
      by_cases hqp : q = p
      · rw [hqp, hp] at hq
        obtain rfl := Option.some.inj hq
        exact Ne.symm heq
      · exact hi q o' (by rw [hactive, Function.update_of_ne hqp]; exact hq)
  · exact h.distinct q r o' o'' (hnot q o' hq).2 (hnot r o'' hr).2
  · rw [hlog, ownedBy_append hinner', ownedBy, h.slots q, hactive]
    by_cases hqp : q = p
    · rw [hqp, hp, Function.update_self]
      simp
    · rw [Function.update_of_ne hqp]
      cases hq : c.active q with
      | none => rfl
      | some o' =>
        have hdistinct : o'.id ≠ o.id := fun heq => hqp (h.distinct q p o' o hq hp heq)
        simp [hdistinct]
  · rw [hlog, latest_append hinner']
    by_cases hqp : q = p
    · subst hqp
      rcases hreaped hq with hwait | hbefore
      · exact ⟨o.id, hlatest, List.mem_append_left _ hwait⟩
      · obtain ⟨i, hi, hwait⟩ := h.reaped q hbefore
        exact ⟨i, hi, List.mem_append_right _ (List.mem_cons_of_mem _ hwait)⟩
    · rw [hothers q hqp] at hq
      obtain ⟨i, hi, hwait⟩ := h.reaped q hq
      exact ⟨i, hi, List.mem_append_right _ (List.mem_cons_of_mem _ hwait)⟩

theorem finish_active (env : Env) (c : Children) (p : Profile) (reason : String) :
    (finish env c p reason).active = Function.update c.active p none := by
  unfold finish
  cases hp : c.active p with
  | none =>
    dsimp only
    rw [← hp, Function.update_eq_self]
  | some o =>
    unfold waitable
    dsimp only
    split
    next heq =>
      obtain ⟨-, hc⟩ := Prod.mk.inj heq
      rw [(reap_reaps _ _ _ _ _ _).active, ← hc]
      rfl
    next heq =>
      obtain ⟨-, hc⟩ := Prod.mk.inj heq
      rw [← hc]
      rfl

theorem finish_effect : Effect p c (finish env c p reason) where
  frame q hq := by rw [finish_active, Function.update_of_ne hq]
  calls := by
    unfold finish
    cases hp : c.active p with
    | none => exact Nat.le_refl _
    | some o =>
      unfold waitable
      dsimp only
      split
      next heq =>
        obtain ⟨-, hc⟩ := Prod.mk.inj heq
        refine le_trans ?_ (reap_reaps _ _ _ _ _ _).calls
        rw [← hc]
        exact (Nat.le_succ _).trans (Nat.le_succ _)
      next heq =>
        obtain ⟨-, hc⟩ := Prod.mk.inj heq
        rw [← hc]
        exact (Nat.le_succ _).trans (Nat.le_succ _)
  born := by
    unfold finish
    cases hp : c.active p with
    | none => rfl
    | some o =>
      unfold waitable
      dsimp only
      split
      next heq =>
        obtain ⟨-, hc⟩ := Prod.mk.inj heq
        rw [(reap_reaps _ _ _ _ _ _).born, ← hc]
        rfl
      next heq =>
        obtain ⟨-, hc⟩ := Prod.mk.inj heq
        rw [← hc]
        rfl
  kept h := by
    have hactive := finish_active env c p reason
    unfold finish at hactive ⊢
    cases hp : c.active p with
    | none => exact h
    | some o =>
      rw [hp] at hactive
      unfold waitable at hactive ⊢
      dsimp only at hactive ⊢
      cases hanswer : env.answer ((c.setActive p none).note (.free o.id)).calls with
      | error e =>
        rw [hanswer] at hactive
        have hlost : ∀ (c : Children) q, ((c.summarize p Summary.lost).summaries q).leaderReaped =
            (c.summaries q).leaderReaped := fun c => leaderReaped_summarize fun _ => rfl
        refine kept_free h hp hactive rfl ⟨[.query o.id false], rfl, ⟨?_, by simp [Act.id, Act.Inner]⟩,
          fun hreaped => .inr ?_⟩
          fun q _ => hlost _ q
        · simp [track, nextPhase, Phase.next, Act.id]
        · dsimp only at hreaped
          rw [hlost] at hreaped
          exact hreaped
      | ok exited =>
        rw [hanswer] at hactive
        dsimp only at hactive ⊢
        obtain ⟨_, hborn, _, ⟨acts, hlog, ⟨hdone, hinner⟩, hreaped⟩, hothers⟩ :=
          reap_reaps env (((c.setActive p none).note (.free o.id)).note (.query o.id (Except.isOk (Except.ok (ε :=
            Unit) exited))))
            p o exited reason
        refine kept_free h hp hactive hborn ⟨acts ++ [.query o.id true], ?_, ⟨?_, ?_⟩, fun hr => ?_⟩ hothers
        · rw [hlog, List.append_assoc]
          rfl
        · rw [track_append]
          have hquery : track (nextPhase o.id) .released [.query o.id true] = some .confirmed := by
            simp [track, nextPhase, Phase.next, Act.id]
          rw [hquery]
          exact hdone
        · intro a ha
          rcases List.mem_append.1 ha with ha | ha
          · exact hinner a ha
          · rw [List.mem_singleton.1 ha]
            exact ⟨rfl, trivial⟩
        · exact (hreaped hr).imp (fun hwait => List.mem_append_left _ hwait) id

/-! ## Stops -/

theorem terminate_spec (env : Env) (hp : c.active p = some o) :
    Effect p c (terminate env c o).2 ∧ (terminate env c o).2.active = c.active := by
  unfold terminate
  split
  next c' heq =>
    obtain ⟨-, rfl⟩ := Prod.mk.inj heq
    have hwait : Effect p c (waitable env c o).2 := waitable_effect hp
    exact ⟨hwait.trans (note_effect hp rfl trivial rfl), rfl⟩
  next heq =>
    obtain ⟨-, rfl⟩ := Prod.mk.inj heq
    exact ⟨waitable_effect hp, rfl⟩

/-- The same child, whose lifetime and whose stop stay as they are. -/
structure Owned.Continues (o o' : Owned) : Prop where
  id : o'.id = o.id
  deadline : o'.deadline = o.deadline
  stopping : ∀ stop, o.stopping = some stop → o'.stopping = some stop

theorem Owned.Continues.refl (o : Owned) : o.Continues o := ⟨rfl, rfl, fun _ h => h⟩

theorem Owned.Continues.trans {o₁ o₂ o₃ : Owned} (h : o₁.Continues o₂) (h' : o₂.Continues o₃) : o₁.Continues o₃ :=
  ⟨h'.id.trans h.id, h'.deadline.trans h.deadline, fun stop hstop => h'.stopping stop (h.stopping stop hstop)⟩

/-- A stop that is asked for ends at once: the profile has no grace, or the grace is over. -/
def Due (env : Env) (c : Children) (p : Profile) : Prop :=
  ∃ o stop, c.active p = some o ∧ o.stopping = some stop ∧ (p.isGui = false ∨ stop.deadline ≤ env.now c.calls)

theorem stopAction_of_due {exited grace : Bool} {accepted : Option Bool} (h : p.isGui = false ∨ grace = true) :
    stopAction p exited grace accepted = .cleanupGroup := by
  unfold stopAction
  refine if_pos ?_
  obtain hgui | hgrace := h
  · simp [hgui]
  · simp [hgrace]

theorem progressStop_spec (env : Env) (c : Children) (p : Profile) : Effect p c (progressStop env c p) ∧
    ((progressStop env c p).active p = none ∨ (progressStop env c p).active = c.active ∧ ¬Due env c p) := by
  have hfinish : ∀ (c' : Children) reason, Effect p c c' → Effect p c (finish env c' p reason) ∧
      ((finish env c' p reason).active p = none ∨ (finish env c' p reason).active = c.active ∧ ¬Due env c p) := by
    intro c' reason h
    refine ⟨h.trans finish_effect, .inl ?_⟩
    rw [finish_active, Function.update_self]
  unfold progressStop
  cases hp : c.active p with
  | none =>
    refine ⟨.refl p c, .inl ?_⟩
    exact hp
  | some o =>
    dsimp only
    cases hstop : o.stopping with
    | none =>
      refine ⟨.refl p c, .inr ⟨rfl, ?_⟩⟩
      rintro ⟨o', stop, hp', hstop', -⟩
      rw [hp] at hp'
      obtain rfl := Option.some.inj hp'
      rw [hstop] at hstop'
      cases hstop'
    | some stop =>
      dsimp only
      have hwait : Effect p c (waitable env c o).2 := waitable_effect hp
      split
      next heq =>
        obtain ⟨-, rfl⟩ := Prod.mk.inj heq
        exact hfinish _ _ hwait
      next exited c₁ heq =>
        obtain ⟨-, hc₁⟩ := Prod.mk.inj heq
        have hcalls : c₁.calls = c.calls + 1 := by rw [← hc₁]; rfl
        have hactive : c₁.active = c.active := by rw [← hc₁]; rfl
        have hwait₁ : Effect p c c₁ := hc₁ ▸ hwait
        have hnow : Effect p c (now env c₁).2 := hwait₁.trans now_effect
        clear heq hc₁ hwait₁ hwait
        unfold now at hnow ⊢
        dsimp only at hnow ⊢
        by_cases hdue : p.isGui = false ∨ stop.deadline ≤ env.now c₁.calls
        · rw [stopAction_of_due (hdue.imp id (decide_eq_true ·))]
          exact hfinish _ _ hnow
        · have hnot : ¬Due env c p := by
            rintro ⟨o', stop', hp', hstop', hnow'⟩
            rw [hp] at hp'
            obtain rfl := Option.some.inj hp'
            rw [hstop] at hstop'
            obtain rfl := Option.some.inj hstop'
            rw [hcalls] at hdue
            exact hdue (hnow'.imp id fun hle => hle.trans (env.mono (Nat.le_succ _)))
          split
          · exact hfinish _ _ hnow
          · have hp₁ : ({ c₁ with calls := c₁.calls + 1 } : Children).active p = some o := hactive ▸ hp
            obtain ⟨hterminate, hactive'⟩ := terminate_spec env hp₁
            refine ⟨(hnow.trans hterminate).trans (summarize_effect ?_), .inr ⟨hactive'.trans hactive, hnot⟩⟩
            intro s
            rfl
          · exact ⟨hnow, .inr ⟨hactive, hnot⟩⟩

theorem mark_effect {o' : Owned} (hp : c.active p = some o) (hid : o'.id = o.id) :
    Effect p c (c.setActive p (some o')) where
  frame q hq := Function.update_of_ne hq _ _
  calls := Nat.le_refl _
  born := rfl
  kept h := by
    have hback : ∀ q o₁, (c.setActive p (some o')).active q = some o₁ → ∃ o₂, c.active q = some o₂ ∧ o₂.id = o₁.id := by
      intro q o₁ hq
      unfold Children.setActive at hq
      dsimp only at hq
      by_cases hqp : q = p
      · rw [hqp, Function.update_self] at hq
        obtain rfl := Option.some.inj hq
        exact ⟨o, hqp ▸ hp, hid.symm⟩
      · rw [Function.update_of_ne hqp] at hq
        exact ⟨o₁, hq, rfl⟩
    have hslot : ∀ q, ((c.setActive p (some o')).active q).map Owned.id = (c.active q).map Owned.id := by
      intro q
      unfold Children.setActive
      dsimp only
      by_cases hqp : q = p
      · rw [hqp, Function.update_self, hp, Option.map_some, Option.map_some, hid]
      · rw [Function.update_of_ne hqp]
    refine ⟨fun q o₁ hq => ?_, fun i hi => h.others i fun q o₁ hq => ?_, fun q r o₁ o₂ hq hr heq => ?_, fun q => ?_,
      h.reaped⟩
    · obtain ⟨o₂, hq₂, heq⟩ := hback q o₁ hq
      rw [← heq]
      exact h.active q o₂ hq₂
    · have hmap := hslot q
      rw [hq] at hmap
      obtain ⟨o₂, hq₂, heq⟩ := Option.map_eq_some_iff.1 hmap
      rw [← heq]
      exact hi q o₂ hq₂
    · obtain ⟨o₃, hq₃, heq₃⟩ := hback q o₁ hq
      obtain ⟨o₄, hr₄, heq₄⟩ := hback r o₂ hr
      exact h.distinct q r o₃ o₄ hq₃ hr₄ (by rw [heq₃, heq₄, heq])
    · rw [hslot q]
      exact h.slots q

theorem requestStop_spec (env : Env) (c : Children) (p : Profile) (reason : String) :
    Effect p c (requestStop env c p reason) ∧
    ((requestStop env c p reason).active p = none ∨
      p.isGui = true ∧ ∃ o o', c.active p = some o ∧ (requestStop env c p reason).active p = some o' ∧ o.Continues o' ∧
        o'.stopping.isSome = true ∧ ¬Due env c p) := by
  unfold requestStop
  cases hp : c.active p with
  | none => exact ⟨.refl p c, .inl hp⟩
  | some o =>
    dsimp only
    cases hstop : o.stopping with
    | some stop =>
      obtain ⟨heffect, hactive⟩ := progressStop_spec env c p
      refine ⟨heffect, hactive.imp id fun ⟨hsame, hdue⟩ => ?_⟩
      refine ⟨?_, o, o, rfl, by rw [hsame, hp], .refl o, by rw [hstop]; rfl, hdue⟩
      by_contra hgui
      exact hdue ⟨o, stop, hp, hstop, .inl (by simpa using hgui)⟩
    | none =>
      unfold now
      dsimp only
      generalize hmarked : ({ o with stopping := some ⟨reason, env.now c.calls + guiStopGraceMs * 1000000⟩ } :
        Owned) = o'
      have hsame' : o.Continues o' := by
        rw [← hmarked]
        refine ⟨rfl, rfl, fun stop hstop' => ?_⟩
        rw [hstop] at hstop'
        cases hstop'
      have hstopping : o'.stopping = some ⟨reason, env.now c.calls + guiStopGraceMs * 1000000⟩ := by rw [← hmarked]
      have hnow : Effect p c { c with calls := c.calls + 1 } := effect_summaries rfl rfl rfl (Nat.le_succ _) fun _ => id
      have hmark : Effect p { c with calls := c.calls + 1 }
        (({ c with calls := c.calls + 1 } : Children).setActive p (some o')) :=
        mark_effect hp hsame'.id
      have hstate : Effect p c ((({ c with calls := c.calls + 1 } :
        Children).setActive p (some o')).summarize p fun s =>
          { s with state := "stopping" }) := (hnow.trans hmark).trans (summarize_effect (by intro s; rfl))
      generalize hc₂ : ((({ c with calls := c.calls + 1 } : Children).setActive p (some o')).summarize p fun s =>
        { s with state := "stopping" }) = c₂ at hstate ⊢
      have hp₂ : c₂.active p = some o' := by
        rw [← hc₂]
        exact Function.update_self _ _ _
      obtain ⟨heffect, hactive⟩ := progressStop_spec env c₂ p
      refine ⟨hstate.trans heffect, hactive.imp id fun ⟨hsame, hdue⟩ => ?_⟩
      refine ⟨?_, o, o', rfl, by rw [hsame, hp₂], hsame', by rw [hstopping]; rfl, ?_⟩
      · by_contra hgui
        exact hdue ⟨o', _, hp₂, hstopping, .inl (by simpa using hgui)⟩
      · rintro ⟨o₃, stop, hp₃, hstop₃, -⟩
        rw [hp] at hp₃
        obtain rfl := Option.some.inj hp₃
        rw [hstop] at hstop₃
        cases hstop₃

/-! ## Ticks -/

/-- What a tick leaves of the child of a profile. -/
structure Ticked (env : Env) (c c' : Children) (p : Profile) : Prop where
  same : ∀ o', c'.active p = some o' → ∃ o, c.active p = some o ∧ o.Continues o' ∧
    (o'.stopping = o.stopping ∨ p.isGui = true ∧ o'.stopping.isSome = true)
  due : Due env c p → c'.active p = none
  expired : ∀ o o', c.active p = some o → o.deadline ≤ env.now c.calls → c'.active p = some o' →
    o'.stopping.isSome = true

theorem ticked_none {c' : Children} (h : c'.active p = none) : Ticked env c c' p where
  same o' hp := by
    rw [h] at hp
    cases hp
  due _ := h
  expired o o' _ _ hp := by
    rw [h] at hp
    cases hp

theorem due_mono {c₁ : Children} (h : Due env c p) (hactive : c₁.active p = c.active p) (hcalls : c.calls ≤ c₁.calls) :
    Due env c₁ p := by
  obtain ⟨o, stop, hp, hstop, hdue⟩ := h
  exact ⟨o, stop, by rw [hactive, hp], hstop, hdue.imp id fun hle => hle.trans (env.mono hcalls)⟩

theorem tickProfile_spec (env : Env) (c : Children) (p : Profile) :
    Effect p c (tickProfile env c p) ∧ Ticked env c (tickProfile env c p) p := by
  unfold tickProfile
  cases hp : c.active p with
  | none => exact ⟨.refl p c, ticked_none hp⟩
  | some o =>
    have hdrain : Effect p c (drain env c p) := drain_effect
    have hp₁ : (drain env c p).active p = some o := hp
    have hwait : Effect p c (waitable env (drain env c p) o).2 := hdrain.trans (waitable_effect hp₁)
    have hfinish : ∀ (c' : Children) reason, Effect p c c' → Effect p c (finish env c' p reason) ∧
        Ticked env c (finish env c' p reason) p := by
      intro c' reason h
      refine ⟨h.trans finish_effect, ticked_none ?_⟩
      rw [finish_active, Function.update_self]
    dsimp only
    split
    next heq =>
      obtain ⟨-, rfl⟩ := Prod.mk.inj heq
      exact hfinish _ _ hwait
    next c₁ heq =>
      obtain ⟨-, hc₁⟩ := Prod.mk.inj heq
      have hactive : c₁.active = c.active := by rw [← hc₁]; rfl
      have hwait₁ : Effect p c c₁ := hc₁ ▸ hwait
      clear heq hc₁
      split
      next hstopping =>
        obtain ⟨heffect, hnone | ⟨hsame, hdue⟩⟩ := progressStop_spec env c₁ p
        · exact ⟨hwait₁.trans heffect, ticked_none hnone⟩
        · have hp' : (progressStop env c₁ p).active p = some o := by rw [hsame, hactive, hp]
          refine ⟨hwait₁.trans heffect, fun o' ho' => ?_, fun hdue' => ?_, fun o₁ o' ho₁ _ ho' => ?_⟩
          · rw [hp'] at ho'
            obtain rfl := Option.some.inj ho'
            exact ⟨o, hp, .refl o, .inl rfl⟩
          · exact absurd (due_mono hdue' (by rw [hactive]) hwait₁.calls) hdue
          · rw [hp'] at ho'
            obtain rfl := Option.some.inj ho'
            exact hstopping
      next hstopping =>
        have hnot : ¬Due env c p := by
          rintro ⟨o', stop, hp', hstop', -⟩
          rw [hp] at hp'
          obtain rfl := Option.some.inj hp'
          rw [hstop'] at hstopping
          exact hstopping rfl
        unfold now
        dsimp only
        have hnow : Effect p c { c₁ with calls := c₁.calls + 1 } :=
          hwait₁.trans (effect_summaries rfl rfl rfl (Nat.le_succ _) fun _ => id)
        have hp₂ : ({ c₁ with calls := c₁.calls + 1 } : Children).active p = some o := by
          show c₁.active p = _
          rw [hactive, hp]
        split
        next hexpired =>
          obtain ⟨heffect, hnone | ⟨hgui, o₂, o', ho₂, ho', hid, hstop, -⟩⟩ :=
            requestStop_spec env { c₁ with calls := c₁.calls + 1 } p "ttl_expired"
          · exact ⟨hnow.trans heffect, ticked_none hnone⟩
          · rw [hp₂] at ho₂
            obtain rfl := Option.some.inj ho₂
            refine ⟨hnow.trans heffect, fun o₃ ho₃ => ?_, fun hdue => absurd hdue hnot, fun _ o₃ _ _ ho₃ => ?_⟩
            · rw [ho'] at ho₃
              obtain rfl := Option.some.inj ho₃
              exact ⟨o, hp, hid, .inr ⟨hgui, hstop⟩⟩
            · rw [ho'] at ho₃
              obtain rfl := Option.some.inj ho₃
              exact hstop
        next hexpired =>
          refine ⟨hnow, fun o' ho' => ?_, fun hdue => absurd hdue hnot, fun o₁ o' ho₁ hle _ => ?_⟩
          · rw [hp₂] at ho'
            obtain rfl := Option.some.inj ho'
            exact ⟨o, hp, .refl o, .inl rfl⟩
          · rw [hp] at ho₁
            obtain rfl := Option.some.inj ho₁
            exact absurd (hle.trans (env.mono hwait₁.calls)) hexpired
    next heq =>
      obtain ⟨-, rfl⟩ := Prod.mk.inj heq
      exact hfinish _ _ hwait

theorem Ticked.of_frame (h : Ticked env c₁ c₂ p) (hbefore : c₁.active p = c.active p)
    (hcalls : c.calls ≤ c₁.calls) (hafter : c₃.active p = c₂.active p) : Ticked env c c₃ p where
  same o' hp := by
    rw [← hbefore]
    exact h.same o' (hafter ▸ hp)
  due hdue := hafter.trans (h.due (due_mono hdue hbefore hcalls))
  expired o o' hp hle hp' := h.expired o o' (hbefore ▸ hp) (hle.trans (env.mono hcalls)) (hafter ▸ hp')

/-- No child without a grace is left stopping. -/
def Prompt (c : Children) : Prop := ∀ p o, c.active p = some o → p.isGui = false → o.stopping = none

structure Good (c : Children) : Prop where
  kept : Kept c
  prompt : Prompt c

/-- The child of one profile is as it was, or has a grace, or is gone. -/
theorem Good.of_effect (h : Good c) (heffect : Effect p c c')
    (hprompt : p.isGui = false → ∀ o', c'.active p = some o' → o'.stopping = none) : Good c' := by
  refine ⟨heffect.kept h.kept, fun q o' hq hgui => ?_⟩
  by_cases hqp : q = p
  · exact hprompt (hqp ▸ hgui) o' (hqp ▸ hq)
  · exact h.prompt q o' (heffect.frame q hqp ▸ hq) hgui

theorem tickProfile_good (h : Good c) (p : Profile) : Good (tickProfile env c p) := by
  obtain ⟨heffect, hticked⟩ := tickProfile_spec env c p
  refine h.of_effect heffect fun hgui o' hp' => ?_
  obtain ⟨o, hp, -, hsame | ⟨hcontra, -⟩⟩ := hticked.same o' hp'
  · rw [hsame]
    exact h.prompt p o hp hgui
  · rw [hgui] at hcontra
    cases hcontra

theorem requestStop_good (h : Good c) (p : Profile) (reason : String) : Good (requestStop env c p reason) := by
  obtain ⟨heffect, hnone | ⟨hgui, -⟩⟩ := requestStop_spec env c p reason
  · refine h.of_effect heffect fun _ o' hp' => ?_
    rw [hnone] at hp'
    cases hp'
  · refine h.of_effect heffect fun hcontra => ?_
    rw [hgui] at hcontra
    cases hcontra

theorem requestStop_prompt (hgui : p.isGui = false) (c : Children) (reason : String) :
    (requestStop env c p reason).active p = none := by
  obtain ⟨-, hnone | ⟨hcontra, -⟩⟩ := requestStop_spec env c p reason
  · exact hnone
  · rw [hgui] at hcontra
    cases hcontra

theorem tick_good (h : Good c) : Good (tick env c) :=
  tickProfile_good (tickProfile_good (tickProfile_good h _) _) _

theorem tick_ticked (env : Env) (c : Children) (p : Profile) : Ticked env c (tick env c) p := by
  obtain ⟨hhost, hhost'⟩ := tickProfile_spec env c .seamlessHost
  obtain ⟨hclient, hclient'⟩ := tickProfile_spec env (tickProfile env c .seamlessHost) .seamlessClient
  obtain ⟨hgpu, hgpu'⟩ := tickProfile_spec env (tickProfile env (tickProfile env c .seamlessHost) .seamlessClient) .gpuSelftest
  cases p with
  | seamlessHost =>
    exact hhost'.of_frame rfl (Nat.le_refl _) ((hgpu.frame _ (by decide)).trans (hclient.frame _ (by decide)))
  | seamlessClient => exact hclient'.of_frame (hhost.frame _ (by decide)) hhost.calls (hgpu.frame _ (by decide))
  | gpuSelftest =>
    exact hgpu'.of_frame ((hclient.frame _ (by decide)).trans (hhost.frame _ (by decide)))
      (hhost.calls.trans hclient.calls) rfl

theorem ticks_good (h : Good c) (n : Nat) : Good ((tick env)^[n] c) := by
  induction n generalizing c with
  | zero => exact h
  | succ n ih => exact ih (tick_good h)

theorem ticks_none (hp : c.active p = none) (n : Nat) : ((tick env)^[n] c).active p = none := by
  induction n generalizing c with
  | zero => exact hp
  | succ n ih =>
    refine ih (Option.eq_none_iff_forall_ne_some.2 fun o' hp' => ?_)
    obtain ⟨o, hp'', -⟩ := (tick_ticked env c p).same o' hp'
    rw [hp] at hp''
    cases hp''

theorem shutdown_good (h : Good c) : Good (shutdown env c) :=
  requestStop_good (requestStop_good (requestStop_good h _ _) _ _) _ _

/-! ## Launches -/

theorem adopt_good (h : Good c) (hp : c.active p = none) (ttl : Nat) (pid : Int) : Good (adopt env c p ttl pid) := by
  have hback : ∀ q o, (adopt env c p ttl pid).active q = some o → q = p ∧ o.id = c.born ∧ o.stopping = none ∨
      q ≠ p ∧ c.active q = some o := by
    intro q o hq
    by_cases hqp : q = p
    · left
      have hself : (adopt env c p ttl pid).active p = some ⟨c.born, pid, env.now c.calls + ttl * 1000000000, none⟩ :=
        Function.update_self _ _ _
      rw [hqp, hself] at hq
      obtain rfl := Option.some.inj hq
      exact ⟨hqp, rfl, rfl⟩
    · right
      have hother : (adopt env c p ttl pid).active q = c.active q := Function.update_of_ne hqp _ _
      exact ⟨hqp, hother ▸ hq⟩
  have hself : (adopt env c p ttl pid).active p = some ⟨c.born, pid, env.now c.calls + ttl * 1000000000, none⟩ :=
    Function.update_self _ _ _
  have hother : ∀ q, q ≠ p → (adopt env c p ttl pid).active q = c.active q := fun q hqp => Function.update_of_ne hqp _ _
  have hlog : (adopt env c p ttl pid).log = [.adopt p c.born] ++ c.log := rfl
  have hborn : (adopt env c p ttl pid).born = c.born + 1 := rfl
  have hfresh : ∀ q o, c.active q = some o → o.id ≠ c.born := fun q o hq => (h.kept.active q o hq).2.1.ne
  have hunborn : phaseOf c.born c.log = some .unborn := by
    rw [h.kept.others c.born hfresh, if_neg (Nat.lt_irrefl _)]
  have hlatest : ∀ q, q ≠ p → latest q ([.adopt p c.born] ++ c.log) = latest q c.log := fun q hqp =>
    if_neg (Ne.symm hqp)
  refine ⟨⟨fun q o hq => ?_, fun i hi => ?_, fun q r o o' hq hr heq => ?_, fun q => ?_, fun q hq => ?_⟩,
    fun q o hq hgui => ?_⟩
  · rw [hlog, hborn]
    obtain ⟨rfl, hid, -⟩ | ⟨hqp, hq⟩ := hback q o hq
    · rw [hid]
      exact ⟨phaseOf_append hunborn (nextPhase_self rfl), Nat.lt_succ_self _, if_pos rfl⟩
    · obtain ⟨hphase, hlt, hlast⟩ := h.kept.active q o hq
      refine ⟨?_, hlt.trans (Nat.lt_succ_self _), ?_⟩
      · rw [phaseOf_append_of_ne (by simpa [Act.id] using hlt.ne')]
        exact hphase
      · rw [hlatest q hqp]
        exact hlast
  · have hne : i ≠ c.born := fun heq => hi p _ hself heq.symm
    rw [hlog, hborn, phaseOf_append_of_ne (by simpa [Act.id] using hne.symm), h.kept.others i fun q o hq => ?_]
    · refine congrArg some (if_congr ?_ rfl rfl)
      omega
    · have hqp : q ≠ p := by
        rintro rfl
        rw [hp] at hq
        cases hq
      exact hi q o (by rw [hother q hqp, hq])
  · obtain ⟨rfl, hid, -⟩ | ⟨hqp, hq⟩ := hback q o hq
    · obtain ⟨rfl, -⟩ | ⟨-, hr⟩ := hback r o' hr
      · rfl
      · exact absurd (heq.symm.trans hid) (hfresh r o' hr)
    · obtain ⟨-, hid, -⟩ | ⟨-, hr⟩ := hback r o' hr
      · exact absurd (heq.trans hid) (hfresh q o hq)
      · exact h.kept.distinct q r o o' hq hr heq
  · rw [hlog]
    have hslots := h.kept.slots q
    by_cases hqp : q = p
    · subst hqp
      rw [hp] at hslots
      rw [hself, List.singleton_append, ownedBy, if_pos rfl, hslots]
      rfl
    · rw [hother q hqp, List.singleton_append, ownedBy, if_neg (Ne.symm hqp)]
      exact hslots
  · rw [hlog]
    by_cases hqp : q = p
    · subst hqp
      have hnew : (adopt env c q ttl pid).summaries q = { state := "running" } := Function.update_self _ _ _
      rw [hnew] at hq
      cases hq
    · have hold : (adopt env c p ttl pid).summaries q = c.summaries q := Function.update_of_ne hqp _ _
      rw [hold] at hq
      obtain ⟨i, hi, hwait⟩ := h.kept.reaped q hq
      exact ⟨i, by rw [hlatest q hqp]; exact hi, List.mem_append_right _ hwait⟩
  · obtain ⟨-, -, hstop⟩ | ⟨-, hq⟩ := hback q o hq
    · exact hstop
    · exact h.prompt q o hq hgui

theorem spawnHelper_good (h : Good c) (hp : c.active p = none) (ttl : Nat) (a : Attempt) :
    Good (spawnHelper env c p ttl a).2 := by
  have hticks : Good ((tick env)^[a.ticks] c) := ticks_good h a.ticks
  unfold spawnHelper
  split
  · exact h
  · exact h
  · dsimp only
    split
    · exact hticks
    · split
      · exact hticks
      · split
        · exact hticks
        · exact hticks
        · have hadopt : ∀ pid, Good (adopt env ((tick env)^[a.ticks] c) p ttl pid) :=
            adopt_good hticks (ticks_none hp a.ticks) ttl
          split
          · exact hadopt _
          · exact requestStop_good (hadopt _) p _

theorem launch_good (h : Good c) (p : Profile) (ttl : Nat) (a : Attempt) : Good (launch env c p ttl a).2 := by
  unfold launch
  split
  · exact h
  · dsimp only
    split
    · exact tick_good h
    next hfree =>
      split
      · exact tick_good h
      · exact spawnHelper_good (tick_good h) (by simpa using hfree) ttl a

/-! ## Any calls -/

theorem good_init (env : Env) : Good (system env).init where
  kept := ⟨by rintro _ _ ⟨⟩, fun _ _ => rfl, by rintro _ _ _ _ ⟨⟩, fun _ => rfl, by rintro _ ⟨⟩⟩
  prompt := by rintro _ _ ⟨⟩

theorem reachable_good (h : (system env).Reachable c) : Good c := by
  refine h.invariant (good_init env) fun c call c' hgood hstep => ?_
  obtain rfl := Option.some.inj hstep
  cases call with
  | launch p ttl a => exact launch_good hgood p ttl a
  | tick => exact tick_good hgood
  | stop p => exact requestStop_good hgood p _
  | shutdown => exact shutdown_good hgood

def Act.frees (i : Nat) : Act → Bool
  | .free j => j = i
  | _ => false

def Act.waits (i : Nat) : Act → Bool
  | .wait j _ => j = i
  | _ => false

theorem phaseOf_isSome (h : Kept c) (i : Nat) : ∃ phase, phaseOf i c.log = some phase := by
  by_cases hactive : ∃ p o, c.active p = some o ∧ o.id = i
  · obtain ⟨p, o, hp, rfl⟩ := hactive
    exact ⟨_, (h.active p o hp).1⟩
  · exact ⟨_, h.others i fun p o hp heq => hactive ⟨p, o, hp, heq⟩⟩

theorem nextPhase_eq {phase phase' : Phase} (h : nextPhase i phase a = some phase') :
    a.id ≠ i ∧ phase' = phase ∨ a.id = i ∧ phase.next a = some phase' := by
  unfold nextPhase at h
  split at h
  next heq => exact .inr ⟨heq, h⟩
  next hne => exact .inl ⟨hne, (Option.some.inj h).symm⟩

theorem nextPhase_wait {phase phase' : Phase} (h : nextPhase i phase a = some phase') (hwait : a.waits i = true) :
    phase' = .done := by
  cases a with
  | wait j ok =>
    obtain rfl : j = i := of_decide_eq_true hwait
    have hnext : phase.next (.wait j ok) = some phase' := (nextPhase_self rfl).symm.trans h
    cases phase <;> cases hnext
    rfl
  | _ => cases hwait

theorem nextPhase_done (h : nextPhase i .done a = some phase) : a.waits i = false ∧ phase = .done := by
  obtain ⟨hne, rfl⟩ | ⟨-, hnext⟩ := nextPhase_eq h
  · refine ⟨?_, rfl⟩
    cases a with
    | wait j ok => exact decide_eq_false hne
    | _ => rfl
  · cases a <;> cases hnext

theorem countP_waits_le_one (h : phaseOf i log = some phase) :
    log.countP (Act.waits i) ≤ 1 ∧ (log.countP (Act.waits i) = 1 → phase = .done) := by
  refine countP_le_one (P := (· = .done)) (fun _ _ _ => nextPhase_wait) ?_ h
  rintro phase a phase' rfl hnext
  exact nextPhase_done hnext

/-- The child was given up. -/
def Phase.left : Phase → Nat
  | .unborn | .owned => 0
  | _ => 1

theorem left_nextPhase {phase phase' : Phase} (h : nextPhase i phase a = some phase') :
    phase'.left = phase.left + if a.frees i then 1 else 0 := by
  obtain ⟨hne, rfl⟩ | ⟨heq, hnext⟩ := nextPhase_eq h
  · have hfrees : a.frees i = false := by
      cases a with
      | free j => exact decide_eq_false hne
      | _ => rfl
    rw [hfrees]
    rfl
  · cases a with
    | free j =>
      have hfrees : (Act.free j).frees i = true := decide_eq_true heq
      rw [hfrees]
      cases phase <;> cases hnext
      rfl
    | query j owned =>
      cases phase with
      | owned | signalled =>
        cases hnext
        rfl
      | released =>
        cases owned <;> cases hnext
        all_goals rfl
      | _ => cases hnext
    | _ =>
      cases phase <;> cases hnext
      all_goals rfl

theorem countP_frees (h : phaseOf i log = some phase) : log.countP (Act.frees i) = phase.left :=
  countP_eq rfl (fun _ _ _ => left_nextPhase) h

/-- Nothing is done with a child after it was waited for. -/
theorem waits_not_mem {later earlier : List Act} (h : phaseOf a.id (later ++ a :: earlier) = some phase)
    (ok : Bool) : .wait a.id ok ∉ earlier := by
  intro hmem
  obtain ⟨before, after, hbefore, hnext⟩ := track_of_append h
  obtain ⟨hle, hdone⟩ := countP_waits_le_one hbefore
  have hpos : 0 < earlier.countP (Act.waits a.id) := List.countP_pos_iff.2 ⟨_, hmem, decide_eq_true rfl⟩
  rw [nextPhase_self rfl, hdone (by omega)] at hnext
  cases a <;> cases hnext

/-- The last thing that was done with a child that is confirmed. -/
theorem find_of_confirmed (h : phaseOf i log = some .confirmed) : log.find? (·.id = i) = some (.query i true) := by
  induction log with
  | nil => cases h
  | cons a log ih =>
    obtain ⟨phase, hphase, hstep⟩ := track_cons.1 h
    obtain ⟨hne, rfl⟩ | ⟨heq, hnext⟩ := nextPhase_eq hstep
    · rw [List.find?_cons_of_neg (by simpa using hne)]
      exact ih hphase
    · rw [List.find?_cons_of_pos (by simpa using heq)]
      clear hstep
      subst heq
      cases a with
      | query j owned =>
        cases phase with
        | released =>
          cases owned <;> cases hnext
          rfl
        | _ => cases hnext
      | _ => cases phase <;> cases hnext

/-- A group is signalled after a query that found its leader. -/
theorem confirmed_of_killGroup {later earlier : List Act}
    (h : phaseOf i (later ++ .killGroup i :: earlier) = some phase) : phaseOf i earlier = some .confirmed := by
  obtain ⟨before, after, hbefore, hnext⟩ := track_of_append h
  have hnext : before.next (.killGroup i) = some after := (nextPhase_self rfl).symm.trans hnext
  cases before <;> cases hnext
  exact hbefore

theorem next_ne_unborn : phase.next a ≠ some .unborn := by
  unfold Phase.next
  split <;> nofun

theorem ne_unborn_of_adopt (h : phaseOf i log = some phase) (hadopt : .adopt p i ∈ log) : phase ≠ .unborn := by
  induction log generalizing phase with
  | nil => cases hadopt
  | cons a log ih =>
    obtain ⟨before, hbefore, hnext⟩ := track_cons.1 h
    rintro rfl
    obtain ⟨hne, rfl⟩ | ⟨-, hnext⟩ := nextPhase_eq hnext
    · rcases List.mem_cons.1 hadopt with rfl | hadopt
      · exact hne rfl
      · exact ih hbefore hadopt rfl
    · exact next_ne_unborn hnext

/-! ## Who stays -/

/-- Every child was there before, with its lifetime and its stop, or is a new one. -/
structure Stays (c c' : Children) : Prop where
  born : c.born ≤ c'.born
  active : ∀ p o', c'.active p = some o' → (∃ o, c.active p = some o ∧ o.Continues o') ∨ c.born ≤ o'.id

theorem Stays.refl (c : Children) : Stays c c := ⟨Nat.le_refl _, fun _ o' hp => .inl ⟨o', hp, .refl o'⟩⟩

theorem Stays.trans (h : Stays c₁ c₂) (h' : Stays c₂ c₃) : Stays c₁ c₃ := by
  refine ⟨h.born.trans h'.born, fun p o₃ hp => ?_⟩
  obtain ⟨o₂, hp₂, hsame⟩ | hnew := h'.active p o₃ hp
  · obtain ⟨o₁, hp₁, hsame'⟩ | hnew := h.active p o₂ hp₂
    · exact .inl ⟨o₁, hp₁, hsame'.trans hsame⟩
    · exact .inr (hsame.id ▸ hnew)
  · exact .inr (h.born.trans hnew)

theorem Effect.stays (h : Effect p c c')
    (hp : ∀ o', c'.active p = some o' → ∃ o, c.active p = some o ∧ o.Continues o') :
    Stays c c' := by
  refine ⟨h.born.ge, fun q o' hq => .inl ?_⟩
  by_cases hqp : q = p
  · subst hqp
    exact hp o' hq
  · exact ⟨o', h.frame q hqp ▸ hq, .refl o'⟩

theorem requestStop_stays (c : Children) (p : Profile) (reason : String) : Stays c (requestStop env c p reason) := by
  obtain ⟨heffect, hnone | ⟨-, o, o', hp, hp', hsame, -⟩⟩ := requestStop_spec env c p reason
  · refine heffect.stays fun o' hp' => ?_
    rw [hnone] at hp'
    cases hp'
  · refine heffect.stays fun o₁ ho₁ => ?_
    rw [hp'] at ho₁
    obtain rfl := Option.some.inj ho₁
    exact ⟨o, hp, hsame⟩

theorem tickProfile_stays (c : Children) (p : Profile) : Stays c (tickProfile env c p) := by
  obtain ⟨heffect, hticked⟩ := tickProfile_spec env c p
  refine heffect.stays fun o' hp' => ?_
  obtain ⟨o, hp, hsame, -⟩ := hticked.same o' hp'
  exact ⟨o, hp, hsame⟩

theorem tick_stays (c : Children) : Stays c (tick env c) :=
  ((tickProfile_stays c _).trans (tickProfile_stays _ _)).trans (tickProfile_stays _ _)

theorem ticks_stays (c : Children) (n : Nat) : Stays c ((tick env)^[n] c) := by
  induction n generalizing c with
  | zero => exact .refl c
  | succ n ih => exact (tick_stays c).trans (ih (tick env c))

theorem adopt_stays (c : Children) (p : Profile) (ttl : Nat) (pid : Int) : Stays c (adopt env c p ttl pid) := by
  refine ⟨Nat.le_succ _, fun q o' hq => ?_⟩
  by_cases hqp : q = p
  · have hself : (adopt env c p ttl pid).active p = some ⟨c.born, pid, env.now c.calls + ttl * 1000000000, none⟩ :=
      Function.update_self _ _ _
    rw [hqp, hself] at hq
    obtain rfl := Option.some.inj hq
    exact .inr (Nat.le_refl _)
  · have hother : (adopt env c p ttl pid).active q = c.active q := Function.update_of_ne hqp _ _
    exact .inl ⟨o', hother ▸ hq, .refl o'⟩

theorem spawnHelper_stays (c : Children) (p : Profile) (ttl : Nat) (a : Attempt) :
    Stays c (spawnHelper env c p ttl a).2 := by
  have hticks : Stays c ((tick env)^[a.ticks] c) := ticks_stays c a.ticks
  unfold spawnHelper
  split
  · exact .refl c
  · exact .refl c
  · dsimp only
    split
    · exact hticks
    · split
      · exact hticks
      · split
        · exact hticks
        · exact hticks
        · have hadopt : ∀ pid, Stays c (adopt env ((tick env)^[a.ticks] c) p ttl pid) :=
            fun pid => hticks.trans (adopt_stays _ p ttl pid)
          split
          · exact hadopt _
          · exact (hadopt _).trans (requestStop_stays _ p _)

theorem launch_stays (c : Children) (p : Profile) (ttl : Nat) (a : Attempt) : Stays c (launch env c p ttl a).2 := by
  unfold launch
  split
  · exact .refl c
  · dsimp only
    split
    · exact tick_stays c
    · split
      · exact tick_stays c
      · exact (tick_stays c).trans (spawnHelper_stays _ p ttl a)

theorem apply_stays (env : Env) (c : Children) (call : Call) : Stays c (apply env c call) := by
  cases call with
  | launch p ttl a => exact launch_stays c p ttl a
  | tick => exact tick_stays c
  | stop p => exact requestStop_stays c p _
  | shutdown => exact ((requestStop_stays c _ _).trans (requestStop_stays _ _ _)).trans (requestStop_stays _ _ _)

theorem shutdown_prompt (hgui : p.isGui = false) (c : Children) : (shutdown env c).active p = none := by
  have hp : p = .gpuSelftest := by simpa [Profile.isGui] using hgui
  subst hp
  exact requestStop_prompt rfl _ _

/-! ## After any calls -/

/-- What holds of the children, and of the next call. -/
structure Owns (env : Env) (c : Children) : Prop where
  /-- The children that were adopted and not given up are those of the slots. -/
  slots : ∀ p, ownedBy p c.log = ((c.active p).map Owned.id).toList
  /-- A group is signalled when a query has found its leader, after which nothing was done with it. -/
  signalled : ∀ i later earlier, c.log = later ++ .killGroup i :: earlier →
    (∀ ok, .wait i ok ∉ earlier) ∧ earlier.find? (·.id = i) = some (.query i true)
  /-- Nothing is done with a child after the wait. -/
  unreaped : ∀ later a earlier, c.log = later ++ a :: earlier → ∀ ok, .wait a.id ok ∉ earlier
  waits : ∀ i, c.log.countP (Act.waits i) ≤ 1
  held : ∀ p o, c.active p = some o → c.log.countP (Act.frees o.id) = 0
  freed : ∀ p i, .adopt p i ∈ c.log → (∀ q o, c.active q = some o → o.id ≠ i) → c.log.countP (Act.frees i) = 1
  reaped : ∀ p, (c.summaries p).leaderReaped = true → ∃ i, latest p c.log = some i ∧ .wait i true ∈ c.log
  /-- A child without a grace is never left stopping, and a stop ends it at once. -/
  prompt : ∀ p, p.isGui = false → (∀ o, c.active p = some o → o.stopping = none) ∧
    (stop env c p).active p = none ∧ (shutdown env c).active p = none
  /-- The lifetime and the stop of a child stay as they are. -/
  stays : ∀ call p o o', c.active p = some o → (apply env c call).active p = some o' → o'.id = o.id → o.Continues o'
  due : ∀ p o s, c.active p = some o → o.stopping = some s → s.deadline ≤ env.now c.calls → (tick env c).active p = none
  expired : ∀ p o, c.active p = some o → o.deadline ≤ env.now c.calls → (tick env c).active p = none ∨
    p.isGui = true ∧ ∃ o', (tick env c).active p = some o' ∧ o.Continues o' ∧ o'.stopping.isSome = true

/-- After any calls, with any results of the system calls, every child is owned, signalled, waited for and given up as
it should be. -/
theorem children_owned (env : Env) {c : Children} (h : (system env).Reachable c) : Owns env c := by
  have hgood := reachable_good h
  refine {
    slots := hgood.kept.slots
    signalled := fun i later earlier hlog => ?_
    unreaped := fun later a earlier hlog => ?_
    waits := fun i => ?_
    held := fun p o hp => countP_frees (hgood.kept.active p o hp).1
    freed := fun p i hadopt hnot => ?_
    reaped := hgood.kept.reaped
    prompt := fun p hgui => ⟨fun o hp => hgood.prompt p o hp hgui, requestStop_prompt hgui c _, shutdown_prompt hgui c⟩
    stays := fun call p o o' hp hp' hid => ?_
    due := fun p o s hp hs hle => (tick_ticked env c p).due ⟨o, s, hp, hs, .inr hle⟩
    expired := fun p o hp hle => ?_ }
  · obtain ⟨phase, hphase⟩ := phaseOf_isSome hgood.kept i
    rw [hlog] at hphase
    exact ⟨waits_not_mem (a := .killGroup i) hphase, find_of_confirmed (confirmed_of_killGroup hphase)⟩
  · obtain ⟨phase, hphase⟩ := phaseOf_isSome hgood.kept a.id
    rw [hlog] at hphase
    exact waits_not_mem hphase
  · obtain ⟨phase, hphase⟩ := phaseOf_isSome hgood.kept i
    exact (countP_waits_le_one hphase).1
  · have hphase := hgood.kept.others i hnot
    rw [countP_frees hphase]
    split
    · rfl
    next hborn =>
      rw [if_neg hborn] at hphase
      exact absurd rfl (ne_unborn_of_adopt hphase hadopt)
  · obtain ⟨o₁, hp₁, hsame⟩ | hnew := (apply_stays env c call).active p o' hp'
    · rw [hp] at hp₁
      obtain rfl := Option.some.inj hp₁
      exact hsame
    · have hlt := (hgood.kept.active p o hp).2.1
      omega
  · cases hp' : (tick env c).active p with
    | none => exact .inl rfl
    | some o' =>
      right
      have hstopping := (tick_ticked env c p).expired o o' hp hle hp'
      obtain ⟨o₁, hp₁, hsame, -⟩ := (tick_ticked env c p).same o' hp'
      rw [hp] at hp₁
      obtain rfl := Option.some.inj hp₁
      refine ⟨?_, o', rfl, hsame, hstopping⟩
      by_contra hgui
      rw [(tick_good hgood).prompt p o' hp' (by simpa using hgui)] at hstopping
      cases hstopping

/-- Every system call works, and no child exits by itself. -/
def quietEnv : Env where
  now n := n
  mono _ _ h := h
  waitid _ := .ok false
  killGroup _ := none
  listPids _ := ([], 0)
  wait _ := some (some 0)
  terminate _ := some true
  reads _ := ([], [])

/-- A child that is launched and stopped. -/
theorem children_owned_stopped : ∃ c, (system quietEnv).Reachable c ∧
    c.log = [.wait 0 true, .kill 0, .killGroup 0, .query 0 true, .free 0, .query 0 true, .adopt .gpuSelftest 0] ∧
    (c.summaries .gpuSelftest).leaderReaped = true ∧ Owns quietEnv c := by
  have hlaunch : (system quietEnv).Reachable _ :=
    .step .init trivial (a := .launch .gpuSelftest 60 ⟨.ok (), .ok (), 2, .ok (), false, .ok (), some 7, true⟩) rfl
  have hstop : (system quietEnv).Reachable _ := .step hlaunch trivial (a := .stop .gpuSelftest) rfl
  exact ⟨_, hstop, by decide, by decide, children_owned quietEnv hstop⟩

end CocoaWay.ResearchMcp
