import CocoaWay.Lib.Ledger
import CocoaWay.TraceAnalysis.Analyze
import Mathlib.Data.Finset.Insert

/-!
# What the pass over the lines keeps

* `Record.key?`, `seenIn` : the group of a record, and what it adds to a group;
* `Admitted` : what holds of the sessions after some records; `Kept` : what is made of the records of kept sessions;
* `Accounted` : every event is counted once;
* `Gathered`, `gathered` : all of this after any lines.
-/

namespace CocoaWay.TraceAnalysis
open Lib

variable {limits : Limits} {s s' : State} {rs ts : List Record} {r : Record} {k : Key} {stage : Stage}
  {session : String}
  {kind : Kind} {e : Event} {cs : List Class}

/-! ## Records -/

def Record.key? (r : Record) : Option Key :=
  match r.kind with
  | .event e => e.correlation.map fun tag => (r.session, tag)
  | _ => none

def Record.seen? (r : Record) : Option Seen :=
  match r.kind with
  | .event e => some e.seen
  | _ => none

/-- What a record adds to a stage of a group. -/
def seenIn (k : Key) (stage : Stage) (r : Record) : Option Seen :=
  if r.key? = some k ∧ r.kind.stage? = some stage then r.seen? else none

def seenAll (rs : List Record) (k : Key) (stage : Stage) : List Seen := rs.filterMap (seenIn k stage)

def keys (rs : List Record) : List Key := rs.filterMap Record.key?

theorem filterMap_snoc {α β : Type} (f : α → Option β) (l : List α) (a : α) :
    (l ++ [a]).filterMap f = l.filterMap f ++ (f a).toList := by
  rw [List.filterMap_append]
  cases h : f a <;> simp [h]

theorem session_of_key (h : r.key? = some k) : r.session = k.1 := by
  unfold Record.key? at h
  split at h
  · obtain ⟨tag, -, rfl⟩ := Option.map_eq_some_iff.1 h
    rfl
  · cases h

theorem seenIn_of_ne (h : r.key? ≠ some k) : seenIn k stage r = none := if_neg fun hand => h hand.1

theorem mem_keys : k ∈ keys rs ↔ ∃ r ∈ rs, r.key? = some k := List.mem_filterMap

theorem seenAll_eq_nil (h : k ∉ keys rs) (stage : Stage) : seenAll rs k stage = [] := by
  refine List.filterMap_eq_nil_iff.2 fun r hr => seenIn_of_ne fun hkey => h ?_
  exact mem_keys.2 ⟨r, hr, hkey⟩

theorem seenAll_snoc (rs : List Record) (r : Record) (k : Key) (stage : Stage) :
    seenAll (rs ++ [r]) k stage = seenAll rs k stage ++ (seenIn k stage r).toList := filterMap_snoc _ _ _

theorem keys_snoc (rs : List Record) (r : Record) : keys (rs ++ [r]) = keys rs ++ r.key?.toList := filterMap_snoc _ _ _

/-! ## Sessions -/

/-- The sessions that are kept after some records. -/
structure Admitted (limits : Limits) (rs : List Record) (s : State) : Prop where
  le : s.sessions.card ≤ limits.maxSessions
  sub : ∀ x ∈ s.sessions, ∃ r ∈ rs, r.session = x
  full : ∀ r ∈ rs, r.session ∉ s.sessions → limits.maxSessions ≤ s.sessions.card
  untracked : s.untrackedRecords = rs.countP fun r => decide (r.session ∉ s.sessions)

/-- The records of the sessions that are kept. -/
def tracked (rs : List Record) (s : State) : List Record := rs.filter fun r => decide (r.session ∈ s.sessions)

@[simp] theorem sessions_counted (s : State) (r : Record) : (s.counted r).sessions = s.sessions := by
  unfold State.counted
  split <;> rfl

@[simp] theorem sessions_keep (s : State) (session : String) (kind : Kind) :
    (s.keep limits session kind).sessions = s.sessions := by
  cases kind with
  | event e =>
    unfold State.keep State.event
    dsimp only
    split
    · rfl
    · split <;> rfl
  | _ => rfl

@[simp] theorem untrackedRecords_keep (s : State) (session : String) (kind : Kind) :
    (s.keep limits session kind).untrackedRecords = s.untrackedRecords := by
  cases kind with
  | event e =>
    unfold State.keep State.event
    dsimp only
    split
    · rfl
    · split <;> rfl
  | _ => rfl

/-- A record is left out, because the sessions are full, or kept. -/
theorem record_cases (limits : Limits) (s : State) (r : Record) :
    (r.session ∉ s.sessions ∧ limits.maxSessions ≤ s.sessions.card ∧ s.record limits r = (s.counted r).untracked r) ∨
    ((r.session ∈ s.sessions ∨ s.sessions.card < limits.maxSessions) ∧
      s.record limits r =
        State.keep limits { s.counted r with sessions := insert r.session s.sessions } r.session r.kind) := by
  unfold State.record
  dsimp only
  rw [sessions_counted]
  by_cases hfull : r.session ∉ s.sessions ∧ limits.maxSessions ≤ s.sessions.card
  · left
    exact ⟨hfull.1, hfull.2, if_pos hfull⟩
  · right
    refine ⟨?_, if_neg hfull⟩
    by_contra hor
    rw [not_or, not_lt] at hor
    exact hfull hor

theorem admitted_untracked (s' : State) (h : Admitted limits rs s) (hout : r.session ∉ s.sessions)
    (hfull : limits.maxSessions ≤ s.sessions.card) (hsessions : s'.sessions = s.sessions)
    (huntracked : s'.untrackedRecords = s.untrackedRecords + 1) :
    Admitted limits (rs ++ [r]) s' ∧ tracked (rs ++ [r]) s' = tracked rs s := by
  refine ⟨⟨by rw [hsessions]; exact h.le, fun x hx => ?_, fun r' hr' _ => by rw [hsessions]; exact hfull, ?_⟩, ?_⟩
  · rw [hsessions] at hx
    obtain ⟨r', hr', heq⟩ := h.sub x hx
    exact ⟨r', List.mem_append_left _ hr', heq⟩
  · rw [huntracked, h.untracked, hsessions, List.countP_append]
    simp [hout]
  · unfold tracked
    rw [hsessions, List.filter_append]
    simp [hout]

theorem admitted_tracked (s' : State) (h : Admitted limits rs s)
    (hin : r.session ∈ s.sessions ∨ s.sessions.card < limits.maxSessions)
    (hsessions : s'.sessions = insert r.session s.sessions) (huntracked : s'.untrackedRecords = s.untrackedRecords) :
    Admitted limits (rs ++ [r]) s' ∧ tracked (rs ++ [r]) s' = tracked rs s ++ [r] := by
  have hold : ∀ r' ∈ rs, r'.session ∈ insert r.session s.sessions ↔ r'.session ∈ s.sessions := by
    intro r' hr'
    rw [Finset.mem_insert]
    refine ⟨fun hor => hor.elim (fun heq => ?_) id, .inr⟩
    by_contra hout
    obtain hmem | hlt := hin
    · exact hout (heq ▸ hmem)
    · exact absurd (h.full r' hr' hout) (not_le.2 hlt)
  refine ⟨⟨?_, fun x hx => ?_, fun r' hr' hout => ?_, ?_⟩, ?_⟩
  · rw [hsessions]
    obtain hmem | hlt := hin
    · rw [Finset.insert_eq_of_mem hmem]
      exact h.le
    · exact (Finset.card_insert_le _ _).trans hlt
  · rw [hsessions, Finset.mem_insert] at hx
    obtain rfl | hx := hx
    · exact ⟨r, List.mem_append_right _ (List.mem_singleton_self r), rfl⟩
    · obtain ⟨r', hr', heq⟩ := h.sub x hx
      exact ⟨r', List.mem_append_left _ hr', heq⟩
  · rw [hsessions] at hout ⊢
    rcases List.mem_append.1 hr' with hr' | hr'
    · rw [hold r' hr'] at hout
      exact (h.full r' hr' hout).trans (Finset.card_le_card (Finset.subset_insert _ _))
    · obtain rfl := List.mem_singleton.1 hr'
      exact absurd (Finset.mem_insert_self _ _) hout
  · rw [huntracked, h.untracked, hsessions, List.countP_append]
    have hcount : rs.countP (fun r' => decide (r'.session ∉ insert r.session s.sessions)) =
        rs.countP fun r' => decide (r'.session ∉ s.sessions) :=
      List.countP_congr fun r' hr' => by rw [decide_eq_true_eq, decide_eq_true_eq, hold r' hr']
    rw [hcount]
    simp
  · unfold tracked
    rw [hsessions, List.filter_append]
    have hfilter : rs.filter (fun r' => decide (r'.session ∈ insert r.session s.sessions)) =
        rs.filter fun r' => decide (r'.session ∈ s.sessions) :=
      List.filter_congr fun r' hr' => by rw [decide_eq_decide, hold r' hr']
    rw [hfilter]
    simp

/-! ## Groups -/

/-- What is made of the records of kept sessions. -/
structure Kept (limits : Limits) (ts : List Record) (s : State) : Prop where
  nodup : s.groups.Nodup
  le : s.groups.length ≤ limits.maxGroups
  sub : ∀ k ∈ s.groups, k ∈ keys ts
  full : ∀ k ∈ keys ts, k ∉ s.groups → limits.maxGroups ≤ s.groups.length ∧ ∃ stage, 0 < s.unanalyzed stage
  group : ∀ k ∈ s.groups, ∀ stage, s.group k stage = tally (seenAll ts k stage)
  fresh : ∀ k, k ∉ s.groups → s.group k = fun _ => none

theorem push_eq (g : Group) (e : Event) (stage : Stage) :
    g.push e stage = if stage = e.stage then tallied e.seen (g stage) else g stage := by
  unfold Group.push
  by_cases heq : stage = e.stage
  · rw [heq, Function.update_self, if_pos rfl]
    cases g e.stage <;> rfl
  · rw [Function.update_of_ne heq, if_neg heq]

theorem kept_of_ungrouped (h : Kept limits ts s) (hkey : r.key? = none) (hgroups : s'.groups = s.groups)
    (hgroup : s'.group = s.group) (hunanalyzed : s'.unanalyzed = s.unanalyzed) : Kept limits (ts ++ [r]) s' := by
  have hkeys : keys (ts ++ [r]) = keys ts := by
    rw [keys_snoc, hkey]
    exact List.append_nil _
  refine ⟨by rw [hgroups]; exact h.nodup, by rw [hgroups]; exact h.le, by rw [hgroups, hkeys]; exact h.sub,
    by rw [hgroups, hkeys, hunanalyzed]; exact h.full, fun k hk stage => ?_, by rw [hgroups, hgroup]; exact h.fresh⟩
  rw [hgroups] at hk
  have hnone : seenIn k stage r = none := seenIn_of_ne (by rw [hkey]; exact nofun)
  rw [hgroup, h.group k hk, seenAll_snoc, hnone]
  exact congrArg tally (List.append_nil _).symm

/-- An event whose group is left out, because there are as many as can be. -/
theorem kept_of_unanalyzed (h : Kept limits ts s) (hkey : r.key? = some k) (hout : k ∉ s.groups)
    (hfull : limits.maxGroups ≤ s.groups.length) (hgroups : s'.groups = s.groups) (hgroup : s'.group = s.group)
    (hunanalyzed : s'.unanalyzed = bump s.unanalyzed stage) : Kept limits (ts ++ [r]) s' := by
  have hpositive : ∃ stage, 0 < s'.unanalyzed stage := by
    refine ⟨stage, ?_⟩
    rw [hunanalyzed, bump, Function.update_self]
    exact Nat.succ_pos _
  refine ⟨by rw [hgroups]; exact h.nodup, by rw [hgroups]; exact h.le, fun k' hk' => ?_,
    fun _ _ _ => ⟨by rw [hgroups]; exact hfull, hpositive⟩, fun k' hk' stage' =>
      ?_, by rw [hgroups, hgroup]; exact h.fresh⟩
  · rw [hgroups] at hk'
    rw [keys_snoc]
    exact List.mem_append_left _ (h.sub k' hk')
  · rw [hgroups] at hk'
    have hne : r.key? ≠ some k' := by
      rw [hkey]
      rintro heq
      exact hout (Option.some.inj heq ▸ hk')
    rw [hgroup, h.group k' hk', seenAll_snoc, seenIn_of_ne hne]
    exact congrArg tally (List.append_nil _).symm

theorem seenIn_self (hkind : r.kind = .event e) (hkey : r.key? = some k) (stage : Stage) :
    seenIn k stage r = if stage = e.stage then some e.seen else none := by
  unfold seenIn Record.seen? Kind.stage?
  rw [hkind, hkey]
  by_cases heq : stage = e.stage
  · rw [if_pos ⟨rfl, congrArg some heq.symm⟩, if_pos heq]
  · rw [if_neg fun hand => heq (Option.some.inj hand.2).symm, if_neg heq]

theorem kept_of_pushed (h : Kept limits ts s) (hkind : r.kind = .event e) (hkey : r.key? = some k)
    (hin : k ∈ s.groups ∨ s.groups.length < limits.maxGroups)
    (hgroups : s'.groups = if k ∈ s.groups then s.groups else s.groups ++ [k])
    (hgroup : s'.group = Function.update s.group k ((s.group k).push e))
    (hunanalyzed : s'.unanalyzed = s.unanalyzed) : Kept limits (ts ++ [r]) s' := by
  have hmem : ∀ k', k' ∈ s'.groups ↔ k' ∈ s.groups ∨ k' = k := by
    intro k'
    rw [hgroups]
    split
    next hk => exact ⟨.inl, fun hor => hor.elim id fun heq => heq ▸ hk⟩
    next => rw [List.mem_append, List.mem_singleton]
  have hcurrent : ∀ stage, s.group k stage = tally (seenAll ts k stage) := by
    intro stage
    by_cases hk : k ∈ s.groups
    · exact h.group k hk stage
    · have hunseen : k ∉ keys ts := by
        intro hseen
        obtain hk' | hlt := hin
        · exact hk hk'
        · exact absurd (h.full k hseen hk).1 (not_le.2 hlt)
      rw [h.fresh k hk, seenAll_eq_nil hunseen]
      rfl
  refine ⟨?_, ?_, fun k' hk' => ?_, fun k' hk' hout => ?_, fun k' hk' stage => ?_, fun k' hout => ?_⟩
  · rw [hgroups]
    split
    · exact h.nodup
    next hk => exact List.nodup_append.2 ⟨h.nodup, List.nodup_singleton k, fun a ha b hb heq => hk (by simp_all)⟩
  · rw [hgroups]
    split
    · exact h.le
    next hk =>
      rw [List.length_append]
      exact hin.resolve_left hk
  · rw [keys_snoc, hkey]
    obtain hk' | rfl := (hmem k').1 hk'
    · exact List.mem_append_left _ (h.sub k' hk')
    · exact List.mem_append_right _ (List.mem_singleton_self k')
  · rw [hmem, not_or] at hout
    rw [keys_snoc, hkey] at hk'
    rcases List.mem_append.1 hk' with hk' | hk'
    · obtain ⟨hfull, hpositive⟩ := h.full k' hk' hout.1
      rw [hunanalyzed, hgroups]
      refine ⟨?_, hpositive⟩
      split
      · exact hfull
      · rw [List.length_append]
        omega
    · exact absurd (List.mem_singleton.1 hk') hout.2
  · rw [hgroup, seenAll_snoc]
    obtain rfl | hne := eq_or_ne k' k
    · rw [Function.update_self, push_eq, hcurrent, seenIn_self hkind hkey]
      split
      · exact (tally_append _ _).symm
      · exact congrArg tally (List.append_nil _).symm
    · have hnone : seenIn k' stage r = none :=
        seenIn_of_ne (by rw [hkey]; exact fun heq => hne (Option.some.inj heq).symm)
      rw [Function.update_of_ne hne, hnone, h.group k' (((hmem k').1 hk').resolve_right hne)]
      exact congrArg tally (List.append_nil _).symm
  · rw [hmem, not_or] at hout
    rw [hgroup, Function.update_of_ne hout.2]
    exact h.fresh k' hout.1

/-! ## Every event is counted once -/

/-- The events of a stage in the groups. -/
def held (s : State) (stage : Stage) : Nat := total (fun k => count (s.group k) stage) s.groups

structure Accounted (rs : List Record) (s : State) : Prop where
  stages : ∀ stage, s.stages stage = rs.countP fun r => decide (r.kind.stage? = some stage)
  events : ∀ stage, s.stages stage = s.unmatched stage + s.unanalyzed stage + held s stage

theorem bump_eq (counter : Stage → Nat) (stage stage' : Stage) :
    bump counter stage stage' = counter stage' + if stage' = stage then 1 else 0 := by
  unfold bump
  by_cases heq : stage' = stage
  · rw [heq, Function.update_self, if_pos rfl]
  · rw [Function.update_of_ne heq, if_neg heq, Nat.add_zero]

/-- One more of its stage, or none. -/
def one (stage? : Option Stage) (stage : Stage) : Nat := if stage? = some stage then 1 else 0

theorem bump_one (counter : Stage → Nat) (stage stage' : Stage) :
    bump counter stage stage' = counter stage' + one (some stage) stage' := by
  rw [bump_eq]
  unfold one
  simp only [Option.some.injEq, eq_comm]

theorem counted_eq (s : State) (r : Record) :
    s.counted r = { s with stages := fun stage => s.stages stage + one r.kind.stage? stage } := by
  unfold State.counted
  cases r.kind.stage? with
  | none => rfl
  | some stage' => exact congrArg (fun stages => { s with stages := stages }) (funext (bump_one s.stages stage'))

theorem untracked_eq (s : State) (r : Record) : s.untracked r = { s with
    untrackedRecords := s.untrackedRecords + 1
    unanalyzed := fun stage => s.unanalyzed stage + one r.kind.stage? stage } := by
  unfold State.untracked
  cases r.kind.stage? with
  | none => rfl
  | some stage' =>
    exact congrArg (fun unanalyzed => { s with untrackedRecords := s.untrackedRecords + 1, unanalyzed := unanalyzed })
      (funext (bump_one s.unanalyzed stage'))

/-- A record whose event goes to one of the three. -/
theorem accounted_snoc (h : Accounted rs s)
    (hstages : ∀ stage, s'.stages stage = s.stages stage + one r.kind.stage? stage)
    (hevents : ∀ stage, s'.unmatched stage + s'.unanalyzed stage + held s' stage =
      s.unmatched stage + s.unanalyzed stage + held s stage + one r.kind.stage? stage) : Accounted (rs ++ [r]) s' := by
  refine ⟨fun stage => ?_, fun stage => ?_⟩
  · rw [hstages, h.stages, List.countP_append, List.countP_singleton]
    unfold one
    simp only [decide_eq_true_eq]
  · rw [hstages, hevents, h.events]

theorem held_eq (h : Kept limits ts s) (stage : Stage) :
    held s stage = total (fun k => (seenAll ts k stage).length) s.groups := by
  unfold held total
  refine congrArg List.sum (List.map_congr_left fun k hk => ?_)
  unfold count
  rw [h.group k hk, count_tally]

theorem held_pushed (h : Kept limits ts s) (h' : Kept limits (ts ++ [r]) s') (hkind : r.kind = .event e)
    (hkey : r.key? = some k)
    (hin : k ∈ s.groups ∨ s.groups.length < limits.maxGroups)
    (hgroups : s'.groups = if k ∈ s.groups then s.groups else s.groups ++ [k]) (stage : Stage) :
    held s' stage = held s stage + one r.kind.stage? stage := by
  have hlength : ∀ k', (seenAll (ts ++ [r]) k' stage).length =
      (seenAll ts k' stage).length + one r.kind.stage? stage * if k' = k then 1 else 0 := by
    intro k'
    rw [seenAll_snoc, List.length_append]
    by_cases heq : k' = k
    · rw [heq, seenIn_self hkind hkey, if_pos rfl, hkind]
      unfold one Kind.stage?
      by_cases hstage : stage = e.stage
      · simp [hstage]
      · simp [hstage, Ne.symm hstage]
    · rw [seenIn_of_ne (by rw [hkey]; exact fun hsome => heq (Option.some.inj hsome).symm), if_neg heq]
      rfl
  have hk : k ∈ s'.groups := by
    rw [hgroups]
    split
    next hk => exact hk
    next => exact List.mem_append_right _ (List.mem_singleton_self k)
  have hone : total (fun k' => one r.kind.stage? stage * if k' = k then 1 else 0) s'.groups =
    one r.kind.stage? stage := by
    unfold one
    split
    · simpa using total_indicator h'.nodup hk
    · simp [total]
  have hbefore : total (fun k' => (seenAll ts k' stage).length) s'.groups =
      total (fun k' => (seenAll ts k' stage).length) s.groups := by
    rw [hgroups]
    split
    · rfl
    next hout =>
      have hunseen : k ∉ keys ts := fun hseen => absurd (h.full k hseen hout).1 (not_le.2 (hin.resolve_left hout))
      unfold total
      rw [List.map_append, List.sum_append]
      simp [seenAll_eq_nil hunseen]
  rw [held_eq h', held_eq h, ← hbefore]
  have hadd := total_add (fun k' => (seenAll ts k' stage).length)
    (fun k' => one r.kind.stage? stage * if k' = k then 1 else 0) s'.groups
  rw [hone] at hadd
  rw [← hadd]
  exact congrArg (fun f => total f s'.groups) (funext hlength)

/-! ## Sums over the records -/

def Record.headerOf (session : String) (r : Record) : Option Metadata :=
  match r.kind with
  | .session metadata => if r.session = session then some metadata else none
  | _ => none

def Record.statsOf (session : String) (r : Record) : Option StatsRow :=
  match r.kind with
  | .stats row => if r.session = session then some row else none
  | _ => none

def Record.isCalibration (r : Record) : Bool := r.kind = .calibration

/-- An event of a stage without a correlation. -/
def Record.isUnmatched (stage : Stage) (r : Record) : Bool :=
  match r.kind with
  | .event e => e.stage = stage && e.correlation.isNone
  | _ => false

def headersOf (rs : List Record) (session : String) : List Metadata := rs.filterMap (Record.headerOf session)

def statsOf (rs : List Record) (session : String) : List StatsRow := rs.filterMap (Record.statsOf session)

/-- What is made of the statistics of a session. -/
def joined (rows : List StatsRow) : Option Stats := if rows = [] then none else some (rows.foldl Stats.join {})

structure Summed (ts : List Record) (s : State) : Prop where
  headers : ∀ x, x ∈ s.headers ↔ headersOf ts x ≠ []
  metadata : ∀ x, s.captureMetadata x = (headersOf ts x).foldl Metadata.update none
  stats : ∀ x, s.stats x = joined (statsOf ts x)
  calibrations : s.ignoredCalibrations = ts.countP Record.isCalibration
  unmatched : ∀ stage, s.unmatched stage = ts.countP (Record.isUnmatched stage)

theorem joined_append (rows : List StatsRow) (row : StatsRow) :
    joined (rows ++ [row]) = some (((joined rows).getD {}).join row) := by
  unfold joined
  rw [if_neg (by simp), List.foldl_append]
  split
  next hnil => rw [hnil]; rfl
  next => rfl

theorem headersOf_snoc (rs : List Record) (r : Record) (x : String) :
    headersOf (rs ++ [r]) x = headersOf rs x ++ (r.headerOf x).toList := filterMap_snoc _ _ _

theorem statsOf_snoc (rs : List Record) (r : Record) (x : String) :
    statsOf (rs ++ [r]) x = statsOf rs x ++ (r.statsOf x).toList := filterMap_snoc _ _ _

theorem countP_snoc {α : Type} (p : α → Bool) (l : List α) (a : α) :
    (l ++ [a]).countP p = l.countP p + if p a then 1 else 0 := by
  rw [List.countP_append, List.countP_singleton]

theorem summed_snoc (h : Summed ts s) (hheaders : ∀ x, x ∈ s'.headers ↔ x ∈ s.headers ∨ r.headerOf x ≠ none)
    (hmetadata : ∀ x, s'.captureMetadata x = (r.headerOf x).toList.foldl Metadata.update (s.captureMetadata x))
    (hstats : ∀ x, s'.stats x = (r.statsOf x).elim (s.stats x) fun row => some (((s.stats x).getD {}).join row))
    (hcalibrations : s'.ignoredCalibrations = s.ignoredCalibrations + if r.isCalibration then 1 else 0)
    (hunmatched : ∀ stage, s'.unmatched stage = s.unmatched stage + if r.isUnmatched stage then 1 else 0) :
    Summed (ts ++ [r]) s' := by
  refine ⟨fun x => ?_, fun x => ?_, fun x => ?_, ?_, fun stage => ?_⟩
  · rw [hheaders, h.headers, headersOf_snoc]
    cases r.headerOf x <;> simp
  · rw [hmetadata, h.metadata, headersOf_snoc, List.foldl_append]
  · rw [hstats, h.stats, statsOf_snoc]
    cases r.statsOf x with
    | none => simp
    | some row => exact (joined_append _ _).symm
  · rw [hcalibrations, h.calibrations, countP_snoc]
  · rw [hunmatched, h.unmatched, countP_snoc]

/-- What a record of a kept session changes. -/
theorem unmatched_event (s : State) (session : String) (e : Event) (stage : Stage) :
    (s.event limits session e).unmatched stage =
      s.unmatched stage + if e.stage = stage && e.correlation.isNone then 1 else 0 := by
  unfold State.event
  split
  next hnone =>
    rw [hnone]
    dsimp only
    rw [bump_eq]
    simp [eq_comm]
  next tag hsome =>
    rw [hsome]
    dsimp only
    split <;> simp

theorem frame_event (limits : Limits) (s : State) (session : String) (e : Event) :
    (s.event limits session e).headers = s.headers ∧ (s.event limits session e).captureMetadata = s.captureMetadata ∧
      (s.event limits session e).stats = s.stats ∧
        (s.event limits session e).ignoredCalibrations = s.ignoredCalibrations := by
  unfold State.event
  split
  · exact ⟨rfl, rfl, rfl, rfl⟩
  · dsimp only
    split <;> exact ⟨rfl, rfl, rfl, rfl⟩

theorem summed_keep (h : Summed ts s) (limits : Limits) (r : Record) :
    Summed (ts ++ [r]) (s.keep limits r.session r.kind) := by
  obtain ⟨session, kind⟩ := r
  cases kind with
  | session metadata =>
    refine summed_snoc h (fun x => ?_) (fun x => ?_) (fun _ => rfl) rfl fun _ => rfl
    · show x ∈ insert session s.headers ↔ x ∈ s.headers ∨ (if session = x then some metadata else none) ≠ none
      rw [Finset.mem_insert, or_comm]
      simp [eq_comm]
    · show Function.update s.captureMetadata session _ x =
        (if session = x then some metadata else none).toList.foldl _ _
      split
      next heq =>
        subst heq
        exact Function.update_self _ _ _
      next hne => exact Function.update_of_ne (Ne.symm hne) _ _
  | stats row =>
    refine summed_snoc h (fun x => (or_iff_left (not_not_intro rfl)).symm) (fun _ => rfl) (fun x => ?_) rfl fun _ => rfl
    show Function.update s.stats session _ x = (if session = x then some row else none).elim _ _
    split
    next heq =>
      subst heq
      exact Function.update_self _ _ _
    next hne => exact Function.update_of_ne (Ne.symm hne) _ _
  | calibration =>
    exact summed_snoc h (fun x => (or_iff_left (not_not_intro rfl)).symm) (fun _ => rfl) (fun _ => rfl) rfl fun _ => rfl
  | event e =>
    obtain ⟨hheaders, hmetadata, hstats, hcalibrations⟩ := frame_event limits s session e
    refine summed_snoc h (fun x => ?_) (fun x => ?_) (fun x => ?_) hcalibrations fun stage =>
      unmatched_event s session e stage
    · show x ∈ (s.event limits session e).headers ↔ _
      rw [hheaders]
      exact (or_iff_left (not_not_intro rfl)).symm
    · show (s.event limits session e).captureMetadata x = _
      rw [hmetadata]
      rfl
    · show (s.event limits session e).stats x = _
      rw [hstats]
      rfl

/-! ## A record of a kept session -/

theorem kept_of_more (h : Kept limits ts s) (hgroups : s'.groups = s.groups) (hgroup : s'.group = s.group)
    (hunanalyzed : ∀ stage, s.unanalyzed stage ≤ s'.unanalyzed stage) : Kept limits ts s' := by
  refine ⟨by rw [hgroups]; exact h.nodup, by rw [hgroups]; exact h.le, by rw [hgroups]; exact h.sub,
    fun k hk hout => ?_,
    by rw [hgroups, hgroup]; exact h.group, by rw [hgroups, hgroup]; exact h.fresh⟩
  rw [hgroups] at hout ⊢
  obtain ⟨hfull, stage, hpositive⟩ := h.full k hk hout
  exact ⟨hfull, stage, hpositive.trans_le (hunanalyzed stage)⟩

/-- The event of a record goes to one of the three. -/
def Moved (r : Record) (s s' : State) : Prop := ∀ stage, s'.unmatched stage + s'.unanalyzed stage + held s' stage =
  s.unmatched stage + s.unanalyzed stage + held s stage + one r.kind.stage? stage

theorem kept_keep (h : Kept limits ts s) (r : Record) :
    Kept limits (ts ++ [r]) (s.keep limits r.session r.kind) ∧ Moved r s (s.keep limits r.session r.kind) := by
  obtain ⟨session, kind⟩ := r
  cases kind with
  | event e =>
    unfold State.keep State.event
    dsimp only
    cases hcorrelation : e.correlation with
    | none =>
      dsimp only
      have hkey : Record.key? ⟨session, .event e⟩ = none := by
        unfold Record.key?
        dsimp only
        rw [hcorrelation]
        rfl
      refine ⟨kept_of_ungrouped h hkey rfl rfl rfl, fun stage => ?_⟩
      show bump s.unmatched e.stage stage + s.unanalyzed stage + held s stage = _
      rw [bump_one]
      unfold Kind.stage?
      dsimp only
      omega
    | some tag =>
      dsimp only
      have hkey : Record.key? ⟨session, .event e⟩ = some (session, tag) := by
        unfold Record.key?
        dsimp only
        rw [hcorrelation]
        rfl
      split
      next hfull =>
        refine ⟨kept_of_unanalyzed h hkey hfull.1 hfull.2 rfl rfl rfl, fun stage => ?_⟩
        show s.unmatched stage + bump s.unanalyzed e.stage stage + held s stage = _
        rw [bump_one]
        unfold Kind.stage?
        dsimp only
        omega
      next hroom =>
        have hin : (session, tag) ∈ s.groups ∨ s.groups.length < limits.maxGroups := by
          rw [not_and_or, not_not, not_le] at hroom
          exact hroom
        have hkept : Kept limits _ { s with
            groups := if (session, tag) ∈ s.groups then s.groups else s.groups ++ [(session, tag)]
            group := Function.update s.group (session, tag) ((s.group (session, tag)).push e) } :=
          kept_of_pushed h rfl hkey hin rfl rfl rfl
        refine ⟨hkept, fun stage => ?_⟩
        rw [held_pushed h hkept rfl hkey hin rfl]
        dsimp only
        omega
  | _ => exact ⟨kept_of_ungrouped h rfl rfl rfl rfl, fun _ => rfl⟩

/-! ## Any lines -/

def Class.record? : Class → Option Record
  | .record r => some r
  | _ => none

def records (cs : List Class) : List Record := cs.filterMap Class.record?

structure Gathered (limits : Limits) (cs : List Class) (s : State) : Prop where
  admitted : Admitted limits (records cs) s
  kept : Kept limits (tracked (records cs) s) s
  summed : Summed (tracked (records cs) s) s
  accounted : Accounted (records cs) s
  oversized : s.oversized = cs.countP fun c => decide (c = .oversized)
  invalid : s.invalid = cs.countP fun c => decide (c = .invalid)

@[simp] theorem lines_keep (limits : Limits) (s : State) (session : String) (kind : Kind) :
    (s.keep limits session kind).oversized = s.oversized ∧ (s.keep limits session kind).invalid = s.invalid ∧
      (s.keep limits session kind).stages = s.stages := by
  cases kind with
  | event e =>
    unfold State.keep State.event
    dsimp only
    split
    · exact ⟨rfl, rfl, rfl⟩
    · split <;> exact ⟨rfl, rfl, rfl⟩
  | _ => exact ⟨rfl, rfl, rfl⟩

theorem gathered_record (h : Gathered limits cs s) (r : Record) :
    Gathered limits (cs ++ [.record r]) (s.record limits r) := by
  have hrecords : records (cs ++ [.record r]) = records cs ++ [r] := filterMap_snoc _ _ _
  obtain ⟨hout, hfull, heq⟩ | ⟨hin, heq⟩ := record_cases limits s r
  · rw [heq, counted_eq, untracked_eq]
    obtain ⟨hadmitted, htracked⟩ := admitted_untracked { s with
      stages := fun stage => s.stages stage + one r.kind.stage? stage
      untrackedRecords := s.untrackedRecords + 1
      unanalyzed := fun stage => s.unanalyzed stage + one r.kind.stage? stage } h.admitted hout hfull rfl rfl
    refine ⟨hrecords ▸ hadmitted, ?_, ?_, hrecords ▸ accounted_snoc h.accounted (fun _ => rfl) fun stage => ?_, ?_, ?_⟩
    · rw [hrecords, htracked]
      exact kept_of_more h.kept rfl rfl fun _ => Nat.le_add_right _ _
    · rw [hrecords, htracked]
      exact ⟨h.summed.headers, h.summed.metadata, h.summed.stats, h.summed.calibrations, h.summed.unmatched⟩
    · show s.unmatched stage + (s.unanalyzed stage + one r.kind.stage? stage) + held s stage = _
      omega
    · rw [countP_snoc]
      exact h.oversized
    · rw [countP_snoc]
      exact h.invalid
  · rw [heq, counted_eq]
    generalize hs₁ : ({ s with
      sessions := insert r.session s.sessions
      stages := fun stage => s.stages stage + one r.kind.stage? stage } : State) = s₁
    have hkept₁ : Kept limits (tracked (records cs) s) s₁ := by
      rw [← hs₁]
      exact kept_of_more h.kept rfl rfl fun _ => Nat.le_refl _
    have hsummed₁ : Summed (tracked (records cs) s) s₁ := by
      rw [← hs₁]
      exact ⟨h.summed.headers, h.summed.metadata, h.summed.stats, h.summed.calibrations, h.summed.unmatched⟩
    obtain ⟨hkept, hmoved⟩ := kept_keep hkept₁ r
    obtain ⟨hoversized, hinvalid, hstages⟩ := lines_keep limits s₁ r.session r.kind
    obtain ⟨hadmitted, htracked⟩ := admitted_tracked (s₁.keep limits r.session r.kind) h.admitted hin
      (by rw [sessions_keep, ← hs₁]) (by rw [untrackedRecords_keep, ← hs₁])
    refine ⟨hrecords ▸ hadmitted, ?_, ?_, hrecords ▸ accounted_snoc h.accounted (fun stage => ?_) fun stage => ?_, ?_, ?_⟩
    · rw [hrecords, htracked]
      exact hkept
    · rw [hrecords, htracked]
      exact summed_keep hsummed₁ limits r
    · rw [hstages, ← hs₁]
    · rw [hmoved stage, ← hs₁]
      rfl
    · rw [countP_snoc, hoversized, ← hs₁]
      exact h.oversized
    · rw [countP_snoc, hinvalid, ← hs₁]
      exact h.invalid

theorem gathered_skipped (h : Gathered limits cs s) {c : Class} (hc : c.record? = none) :
    Gathered limits (cs ++ [c]) (s.line limits c) := by
  have hrecords : records (cs ++ [c]) = records cs := by
    unfold records
    rw [filterMap_snoc, hc]
    exact List.append_nil _
  obtain ⟨hadmitted, hkept, hsummed, haccounted, hoversized, hinvalid⟩ := h
  cases c with
  | record r => cases hc
  | oversized =>
    exact ⟨hrecords ▸ ⟨hadmitted.1, hadmitted.2, hadmitted.3, hadmitted.4⟩,
      hrecords ▸ ⟨hkept.1, hkept.2, hkept.3, hkept.4, hkept.5, hkept.6⟩,
      hrecords ▸ ⟨hsummed.1, hsummed.2, hsummed.3, hsummed.4, hsummed.5⟩, hrecords ▸ ⟨haccounted.1, haccounted.2⟩,
      by rw [countP_snoc]; exact congrArg (· + 1) hoversized, by rw [countP_snoc]; exact hinvalid⟩
  | blank =>
    exact ⟨hrecords ▸ hadmitted, hrecords ▸ hkept, hrecords ▸ hsummed, hrecords ▸ haccounted,
      by rw [countP_snoc]; exact hoversized, by rw [countP_snoc]; exact hinvalid⟩
  | invalid =>
    exact ⟨hrecords ▸ ⟨hadmitted.1, hadmitted.2, hadmitted.3, hadmitted.4⟩,
      hrecords ▸ ⟨hkept.1, hkept.2, hkept.3, hkept.4, hkept.5, hkept.6⟩,
      hrecords ▸ ⟨hsummed.1, hsummed.2, hsummed.3, hsummed.4, hsummed.5⟩, hrecords ▸ ⟨haccounted.1, haccounted.2⟩,
      by rw [countP_snoc]; exact hoversized, by rw [countP_snoc]; exact congrArg (· + 1) hinvalid⟩

theorem gathered (limits : Limits) (cs : List Class) : Gathered limits cs (gather limits cs) := by
  induction cs using List.reverseRecOn with
  | nil =>
    have hrecords : records [] = [] := List.filterMap_nil
    have htracked : tracked [] {} = [] := List.filter_nil
    have hempty {α : Type} [DecidableEq α] {x : α} {p : Prop} (hx : x ∈ (∅ : Finset α)) : p :=
      absurd hx (Finset.notMem_empty x)
    change Gathered limits [] {}
    refine ⟨?_, ?_, ?_, ?_, List.countP_nil.symm, List.countP_nil.symm⟩ <;> rw [hrecords]
    · exact ⟨Nat.zero_le _, fun _ => hempty, fun _ => List.not_mem_nil.elim, rfl⟩
    · rw [htracked]
      exact ⟨List.nodup_nil, Nat.zero_le _, fun _ => List.not_mem_nil.elim, fun _ => List.not_mem_nil.elim,
        fun _ => List.not_mem_nil.elim, fun _ _ => rfl⟩
    · rw [htracked]
      exact ⟨fun x => ⟨hempty, fun hx => absurd rfl hx⟩, fun _ => rfl, fun _ => rfl, rfl, fun _ => rfl⟩
    · exact ⟨fun _ => rfl, fun _ => rfl⟩
  | append_singleton cs c ih =>
    have hsnoc : gather limits (cs ++ [c]) = (gather limits cs).line limits c := List.foldl_append
    rw [hsnoc]
    cases hc : c.record? with
    | none => exact gathered_skipped ih hc
    | some r =>
      cases c with
      | record r' => exact gathered_record ih r'
      | _ => cases hc

end CocoaWay.TraceAnalysis
