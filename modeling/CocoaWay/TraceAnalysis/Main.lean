import CocoaWay.TraceAnalysis.Metrics

/-!
# The analysis of a latency trace

* `Counts`, `MetricsOf` : every event is counted once, and every value of a metric comes of its group;
* `Open` : no capacity is reached; `Agree` : no two headers of a session disagree;
* `SameResult` : the same result, but for the order of the values of a metric;
* `analysis` : the analysis of any lines, and of the same lines in any order.
-/

namespace CocoaWay.TraceAnalysis
open Lib Python

variable {limits : Limits} {s s' : State} {rs rs' : List Record} {cs cs' : List Class} {k : Key}

/-! ## Counts -/

/-- The events of a group are all those of the lines. -/
theorem seenAll_tracked (hk : k.1 ∈ s.sessions) (stage : Stage) :
    seenAll (tracked rs s) k stage = seenAll rs k stage := by
  unfold seenAll tracked
  induction rs with
  | nil => rfl
  | cons r rs ih =>
    rw [List.filter_cons, List.filterMap_cons]
    split
    · rw [List.filterMap_cons, ih]
    next hout =>
      have hne : r.key? ≠ some k := fun hkey => hout (decide_eq_true (session_of_key hkey ▸ hk))
      rw [ih, seenIn_of_ne hne]

theorem session_mem_of_group (h : Gathered limits cs s) (hk : k ∈ s.groups) : k.1 ∈ s.sessions := by
  obtain ⟨r, hr, hkey⟩ := mem_keys.1 (h.kept.sub k hk)
  rw [← session_of_key hkey]
  exact of_decide_eq_true (List.mem_filter.1 hr).2

theorem group_eq (h : Gathered limits cs s) (hk : k ∈ s.groups) (stage : Stage) :
    s.group k stage = tally (seenAll (records cs) k stage) := by
  rw [h.kept.group k hk, seenAll_tracked (session_mem_of_group h hk)]

/-- Every line is counted once, and every event of a stage is without a correlation, left out or in its group. -/
structure Counts (limits : Limits) (cs : List Class) (s : State) : Prop where
  oversized : s.oversized = cs.countP fun c => decide (c = .oversized)
  invalid : s.invalid = cs.countP fun c => decide (c = .invalid)
  untracked : s.untrackedRecords = (records cs).countP fun r => decide (r.session ∉ s.sessions)
  stages : ∀ stage, s.stages stage = (records cs).countP fun r => decide (r.kind.stage? = some stage)
  events : ∀ stage, s.stages stage = s.unmatched stage + s.unanalyzed stage + held s stage
  nodup : s.groups.Nodup
  groups : ∀ k ∈ s.groups, ∀ stage, s.group k stage = tally (seenAll (records cs) k stage)

theorem Gathered.counts (h : Gathered limits cs s) : Counts limits cs s where
  oversized := h.oversized
  invalid := h.invalid
  untracked := h.admitted.untracked
  stages := h.accounted.stages
  events := h.accounted.events
  nodup := h.kept.nodup
  groups _ hk := group_eq h hk

/-- The values of a metric are those of the groups that have one, in their order. -/
def MetricsOf (cs : List Class) (s : State) (metrics : String → Pair → List Int) : Prop :=
  ∀ clock pair, ∃ value : Key → Option Int,
    (∀ k ∈ s.groups, ∀ v, value k = some v ↔ pair ∈ pairs ∧ Verified (seenAll (records cs) k) pair clock v) ∧
      metrics clock pair = s.groups.filterMap value

theorem metrics_result (s : State) (clock : String) (pair : Pair) :
    (s.result limits).metrics clock pair = s.groups.filterMap fun k => produced (s.group k) clock pair := by
  show ((s.groups.map s.group).foldl Pairing.group {}).metrics clock pair = _
  rw [foldl_metrics, List.filterMap_map]
  rfl

theorem Gathered.metricsOf (h : Gathered limits cs s) : MetricsOf cs s (s.result limits).metrics :=
  fun clock pair => ⟨fun k => produced (s.group k) clock pair, fun _ hk _ => produced_iff (group_eq h hk),
    metrics_result s clock pair⟩

/-! ## Any order -/

/-- No capacity is reached. -/
def Open (s : State) : Prop := s.untrackedRecords = 0 ∧ ∀ stage, s.unanalyzed stage = 0

/-- Two headers of a session do not say different things. -/
def Metadata.Agrees (m m' : Metadata) : Prop :=
  (∀ x y, m.captureEndpoint = some x → m'.captureEndpoint = some y → x = y) ∧
    ∀ x y, m.lateCallbacks = some x → m'.lateCallbacks = some y → x = y

def Agree (rs : List Record) : Prop := ∀ session, ∀ m ∈ headersOf rs session, ∀ m' ∈ headersOf rs session, m.Agrees m'

/-- The same, but for the order of the values of a metric. -/
structure SameResult (r r' : Result) : Prop where
  metrics : ∀ clock pair, (r.metrics clock pair).Perm (r'.metrics clock pair)
  rest : r' = { r with metrics := r'.metrics }

theorem or_comm_of_agrees {a b c : Option String} (h : ∀ x y, a = some x → b = some y → x = y) :
    b.or (a.or c) = a.or (b.or c) := by
  cases a with
  | none => rfl
  | some x =>
    cases b with
    | none => rfl
    | some y => exact congrArg some (h x y rfl rfl).symm

theorem update_comm {m m' : Metadata} (h : m.Agrees m') (z : Option Metadata) :
    Metadata.update (Metadata.update z m) m' = Metadata.update (Metadata.update z m') m := by
  unfold Metadata.update
  by_cases hm : m = {}
  · simp [hm]
  · by_cases hm' : m' = {}
    · simp [hm']
    · simp only [if_neg hm, if_neg hm', Option.getD_some]
      rw [or_comm_of_agrees h.1, or_comm_of_agrees h.2]

theorem join_comm (z : Stats) (a b : StatsRow) : (z.join a).join b = (z.join b).join a := by
  unfold Stats.join
  dsimp only
  rw [Stats.mk.injEq]
  refine ⟨max_right_comm _ _ _, max_right_comm _ _ _, Bool.or_right_comm _ _ _, ?_, ?_, Bool.or_right_comm _ _ _, ?_,
    Bool.or_right_comm _ _ _⟩
  · cases z.final <;> cases a.final <;> cases b.final <;> simp [Bool.or_right_comm]
  · cases z.final <;> cases a.final <;> cases b.final <;> simp [Bool.or_right_comm]
  · cases z.lateRecordCallsObserved <;> cases a.lateRecordCallsObserved <;> cases b.lateRecordCallsObserved
    all_goals first | rfl | exact congrArg some (max_comm _ _) | exact congrArg some (max_right_comm _ _ _)

theorem joined_perm {rows rows' : List StatsRow} (h : rows.Perm rows') : joined rows = joined rows' := by
  unfold joined
  rw [h.foldl_eq' fun a _ b _ z => join_comm z a b]
  by_cases hnil : rows = []
  · rw [if_pos hnil, if_pos (by rw [hnil] at h; exact h.symm.eq_nil)]
  · rw [if_neg hnil, if_neg fun hnil' => hnil (by rw [hnil'] at h; exact h.eq_nil)]

/-- Two passes over the same records, the first without reaching a capacity. -/
structure Reordered (limits : Limits) (cs cs' : List Class) (s s' : State) : Prop where
  before : Gathered limits cs s
  after : Gathered limits cs' s'
  perm : cs.Perm cs'
  free : Open s

namespace Reordered

variable (h : Reordered limits cs cs' s s')
include h

theorem records_perm : (records cs).Perm (records cs') := h.perm.filterMap _

theorem session_mem {r : Record} (hr : r ∈ records cs) : r.session ∈ s.sessions := by
  have hzero := h.before.admitted.untracked
  rw [h.free.1, eq_comm, List.countP_eq_zero] at hzero
  by_contra hout
  exact hzero r hr (decide_eq_true hout)

theorem session_mem' {r : Record} (hr : r ∈ records cs') : r.session ∈ s'.sessions := by
  by_contra hout
  have hfull := h.after.admitted.full r hr hout
  have hsub : insert r.session s'.sessions ⊆ s.sessions := by
    intro x hx
    rw [Finset.mem_insert] at hx
    obtain rfl | hx := hx
    · exact h.session_mem (h.records_perm.mem_iff.2 hr)
    · obtain ⟨r', hr', rfl⟩ := h.after.admitted.sub x hx
      exact h.session_mem (h.records_perm.mem_iff.2 hr')
  have hcard := Finset.card_le_card hsub
  rw [Finset.card_insert_of_notMem hout] at hcard
  have hle := h.before.admitted.le
  omega

theorem sessions_eq : s.sessions = s'.sessions := by
  ext x
  constructor
  · intro hx
    obtain ⟨r, hr, rfl⟩ := h.before.admitted.sub x hx
    exact h.session_mem' (h.records_perm.mem_iff.1 hr)
  · intro hx
    obtain ⟨r, hr, rfl⟩ := h.after.admitted.sub x hx
    exact h.session_mem (h.records_perm.mem_iff.2 hr)

theorem tracked_eq : tracked (records cs) s = records cs :=
  List.filter_eq_self.2 fun _ hr => decide_eq_true (h.session_mem hr)

theorem tracked_eq' : tracked (records cs') s' = records cs' :=
  List.filter_eq_self.2 fun _ hr => decide_eq_true (h.session_mem' hr)

theorem untracked' : s'.untrackedRecords = 0 := by
  rw [h.after.admitted.untracked, List.countP_eq_zero]
  exact fun r hr hout => of_decide_eq_true hout (h.session_mem' hr)

theorem group_mem (hk : k ∈ keys (records cs)) : k ∈ s.groups := by
  by_contra hout
  rw [← h.tracked_eq] at hk
  obtain ⟨-, stage, hpositive⟩ := h.before.kept.full k hk hout
  rw [h.free.2 stage] at hpositive
  exact absurd hpositive (Nat.lt_irrefl 0)

theorem keys_perm : (keys (records cs)).Perm (keys (records cs')) := h.records_perm.filterMap _

theorem group_mem' (hk : k ∈ keys (records cs')) : k ∈ s'.groups := by
  by_contra hout
  have hfull := (h.after.kept.full k (by rw [h.tracked_eq']; exact hk) hout).1
  have hsub : k :: s'.groups ⊆ s.groups := by
    intro k' hk'
    rcases List.mem_cons.1 hk' with rfl | hk'
    · exact h.group_mem (h.keys_perm.mem_iff.2 hk)
    · have hk' := h.after.kept.sub k' hk'
      rw [h.tracked_eq'] at hk'
      exact h.group_mem (h.keys_perm.mem_iff.2 hk')
  have hlength := ((List.nodup_cons.2 ⟨hout, h.after.kept.nodup⟩).subperm hsub).length_le
  rw [List.length_cons] at hlength
  have hle := h.before.kept.le
  omega

theorem groups_perm : s.groups.Perm s'.groups := by
  refine (List.perm_ext_iff_of_nodup h.before.kept.nodup h.after.kept.nodup).2 fun k => ?_
  constructor
  · intro hk
    have hk := h.before.kept.sub k hk
    rw [h.tracked_eq] at hk
    exact h.group_mem' (h.keys_perm.mem_iff.1 hk)
  · intro hk
    have hk := h.after.kept.sub k hk
    rw [h.tracked_eq'] at hk
    exact h.group_mem (h.keys_perm.mem_iff.2 hk)

theorem alike (hk : k ∈ s.groups) : AlikeGroups (s.group k) (s'.group k) := by
  intro stage
  rw [group_eq h.before hk, group_eq h.after (h.groups_perm.mem_iff.1 hk)]
  exact tally_perm (h.records_perm.filterMap _)

theorem held_eq (stage : Stage) : held s stage = held s' stage := by
  have hmap : s.groups.map (fun k => count (s.group k) stage) = s.groups.map fun k => count (s'.group k) stage :=
    List.map_congr_left fun k hk => count_alike (h.alike hk) stage
  unfold held total
  rw [hmap]
  exact (h.groups_perm.map _).sum_eq

theorem stages_eq : s.stages = s'.stages :=
  funext fun stage => by rw [h.before.accounted.stages, h.after.accounted.stages, h.records_perm.countP_eq]

theorem unmatched_eq : s.unmatched = s'.unmatched :=
  funext fun stage => by
    rw [h.before.summed.unmatched, h.after.summed.unmatched, h.tracked_eq, h.tracked_eq', h.records_perm.countP_eq]

theorem unanalyzed_eq : s.unanalyzed = s'.unanalyzed :=
  funext fun stage => by
    have hevents := h.before.accounted.events stage
    have hevents' := h.after.accounted.events stage
    rw [h.stages_eq, h.unmatched_eq, h.held_eq] at hevents
    omega

theorem headers_eq : s.headers = s'.headers := by
  ext x
  rw [h.before.summed.headers, h.after.summed.headers, h.tracked_eq, h.tracked_eq']
  have hperm : (headersOf (records cs) x).Perm (headersOf (records cs') x) := h.records_perm.filterMap _
  rw [ne_eq, ne_eq, ← List.length_eq_zero_iff, ← List.length_eq_zero_iff, hperm.length_eq]

theorem metadata_eq (hagree : Agree (records cs)) : s.captureMetadata = s'.captureMetadata :=
  funext fun x => by
    rw [h.before.summed.metadata, h.after.summed.metadata, h.tracked_eq, h.tracked_eq']
    exact (h.records_perm.filterMap _).foldl_eq' (fun m hm m' hm' z => update_comm (hagree x m hm m' hm') z) _

theorem stats_eq : s.stats = s'.stats :=
  funext fun x => by
    rw [h.before.summed.stats, h.after.summed.stats, h.tracked_eq, h.tracked_eq']
    exact joined_perm (h.records_perm.filterMap _)

theorem calibrations_eq : s.ignoredCalibrations = s'.ignoredCalibrations := by
  rw [h.before.summed.calibrations, h.after.summed.calibrations, h.tracked_eq, h.tracked_eq', h.records_perm.countP_eq]

/-- What is counted of groups that are alike. -/
theorem countP_eq {q : Group → Bool} (hq : ∀ g g', AlikeGroups g g' → q g = q g') :
    (s.groups.map s.group).countP q = (s'.groups.map s'.group).countP q := by
  rw [List.countP_map, List.countP_map, ← h.groups_perm.countP_eq]
  exact List.countP_congr fun k hk => by rw [Function.comp, Function.comp, hq _ _ (h.alike hk)]

theorem counter_eq {c : Pairing → Nat} {q : Group → Prop} [DecidablePred q]
    (hc : ∀ p g, c (p.group g) = c p + if q g then 1 else 0) (hq : ∀ g g', AlikeGroups g g' → (q g ↔ q g')) :
    c ((s.groups.map s.group).foldl Pairing.group {}) = c ((s'.groups.map s'.group).foldl Pairing.group {}) := by
  rw [foldl_counter hc, foldl_counter hc, h.countP_eq fun g g' halike => decide_eq_decide.2 (hq g g' halike)]

theorem metrics_perm (clock : String) (pair : Pair) :
    ((s.result limits).metrics clock pair).Perm ((s'.result limits).metrics clock pair) := by
  rw [metrics_result, metrics_result]
  have hcongr : (s.groups.filterMap fun k => produced (s.group k) clock pair) =
      s.groups.filterMap fun k => produced (s'.group k) clock pair :=
    List.filterMap_congr fun k hk => produced_alike (h.alike hk)
  rw [hcongr]
  exact h.groups_perm.filterMap _

theorem missing_eq : (s.result limits).missing = (s'.result limits).missing :=
  funext fun stage => h.counter_eq (c := fun p => p.missing stage) (fun _ _ => rfl) fun g g' halike => by
    rw [(halike stage).isNone]

theorem ambiguous_eq : (s.result limits).ambiguous = (s'.result limits).ambiguous :=
  funext fun stage => h.counter_eq (c := fun p => p.ambiguous stage) (fun _ _ => rfl) fun g g' halike => by
    rw [count_alike halike]

theorem excluded_eq : (s.result limits).excluded = (s'.result limits).excluded :=
  funext fun pair => funext fun reason =>
    h.counter_eq (c := fun p => p.excluded pair reason) (fun _ _ => rfl) fun g g' halike => by rw [outcome_alike halike]

theorem multipleCommitGroups_eq : (s.result limits).multipleCommitGroups = (s'.result limits).multipleCommitGroups :=
  h.counter_eq (c := Pairing.multipleCommitGroups) (fun _ _ => rfl) fun g g' halike => by rw [count_alike halike]

theorem matchedCommits_eq : ((s.groups.map s.group).foldl Pairing.group {}).matchedCommits =
    ((s'.groups.map s'.group).foldl Pairing.group {}).matchedCommits :=
  h.counter_eq (c := Pairing.matchedCommits) (fun _ _ => rfl) fun g g' halike => by rw [outcome_alike halike]

theorem invalid_eq : s.invalid = s'.invalid := by rw [h.before.invalid, h.after.invalid, h.perm.countP_eq]

theorem oversized_eq : s.oversized = s'.oversized := by rw [h.before.oversized, h.after.oversized, h.perm.countP_eq]

theorem sameResult (hagree : Agree (records cs)) : SameResult (s.result limits) (s'.result limits) := by
  refine ⟨h.metrics_perm, ?_⟩
  rw [Result.mk.injEq]
  have hcommits : (s'.result limits).unmatchedCommits = (s.result limits).unmatchedCommits := by
    show (s'.stages .surfaceCommit : Int) - _ = s.stages .surfaceCommit - _
    rw [h.stages_eq, h.matchedCommits_eq]
  exact ⟨h.sessions_eq.symm, h.headers_eq.symm, h.stats_eq.symm, (h.metadata_eq hagree).symm,
    h.groups_perm.length_eq.symm,
    h.stages_eq.symm, h.unmatched_eq.symm, h.missing_eq.symm, h.ambiguous_eq.symm, rfl, h.excluded_eq.symm,
    h.invalid_eq.symm, h.calibrations_eq.symm, rfl, h.oversized_eq.symm, h.unanalyzed_eq.symm,
    h.untracked'.trans h.free.1.symm, h.multipleCommitGroups_eq.symm, hcommits⟩

end Reordered

/-! ## The analysis -/

theorem analyze_eq {loads : List UInt8 → Option Py} {lines : List Line} {r : Result}
    (h : analyze loads lines limits = .ok r) :
    (¬(limits.maxGroups < 1 ∨ limits.maxSessions < 1)) ∧
      r = (gather limits (lines.map (classify loads))).result limits := by
  unfold analyze at h
  split at h
  · cases h
  next hlimits => exact ⟨hlimits, (Except.ok.inj h).symm⟩

/-- A stream is cut into its lines, and a line that is too long is left out whole. Of any lines, every event is
counted once, and a value of a metric comes of exactly one event of every stage of its span. The result is the same
for the lines in any order, but for the order of the values of a metric, as long as no capacity is reached and no two
headers of a session disagree. -/
theorem analysis (loads : List UInt8 → Option Py) (limits : Limits) :
    (∀ stream, boundedLines stream = (splitAfter isNewline stream).map bound) ∧
    (∀ lines r, analyze loads lines limits = .ok r →
      let cs := lines.map (classify loads)
      let s := gather limits cs
      r = s.result limits ∧ Counts limits cs s ∧ MetricsOf cs s r.metrics) ∧
    ∀ lines lines' r, lines.Perm lines' → analyze loads lines limits = .ok r → r.untrackedRecords = 0 →
      (∀ stage, r.unanalyzed stage = 0) → Agree (records (lines.map (classify loads))) →
        ∃ r', analyze loads lines' limits = .ok r' ∧ SameResult r r' := by
  refine ⟨boundedLines_eq, fun lines r hr => ?_, fun lines lines' r hperm hr huntracked hunanalyzed hagree => ?_⟩
  · obtain ⟨-, rfl⟩ := analyze_eq hr
    have hgathered := gathered limits (lines.map (classify loads))
    exact ⟨rfl, hgathered.counts, hgathered.metricsOf⟩
  · obtain ⟨hlimits, rfl⟩ := analyze_eq hr
    have hreordered : Reordered limits (lines.map (classify loads)) (lines'.map (classify loads)) _ _ :=
      ⟨gathered _ _, gathered _ _, hperm.map _, huntracked, hunanalyzed⟩
    exact ⟨_, if_neg hlimits, hreordered.sameResult hagree⟩

/-! ## The order of the values -/

/-- A line of a trace, and what `json.loads` makes of it. -/
def traced (frame stage : String) (time : Nat) : List UInt8 × Py :=
  (("\x7b\"schema\":1,\"session_id\":\"s\",\"kind\":\"event\",\"stage\":\"" ++ stage ++
      "\",\"clock\":\"mono\",\"timestamp_ns\":" ++ toString time ++ ",\"correlation_id\":\"" ++ frame ++
      "\"\x7d\n").toList.map fun c => c.toNat.toUInt8,
    .dict [("schema", .int 1), ("session_id", .str "s"), ("kind", .str "event"), ("stage", .str stage),
      ("clock", .str "mono"), ("timestamp_ns", .int time), ("correlation_id", .str frame)])

/-- Two frames, of one commit and one composition each. -/
def twoFrames : List (List UInt8 × Py) :=
  [traced "a" "SurfaceCommit" 100, traced "a" "ComposeStarted" 110, traced "b" "SurfaceCommit" 200,
    traced "b" "ComposeStarted" 220]

def twoFrameLines : List Line := twoFrames.map fun row => some row.1

def loadsFrames (line : List UInt8) : Option Py := List.lookup line twoFrames

def committed (frame : String) (stage : Stage) (time : Int) : Class :=
  .record ⟨"s", .event ⟨stage, "mono", time, some (.str frame), none⟩⟩

def frameClasses : List Class :=
  [committed "a" .surfaceCommit 100, committed "a" .composeStarted 110, committed "b" .surfaceCommit 200,
    committed "b" .composeStarted 220]

/-- The row, its line not put together of texts first. -/
theorem traced_eq (frame stage : String) (time : Nat) : traced frame stage time =
    (("\x7b\"schema\":1,\"session_id\":\"s\",\"kind\":\"event\",\"stage\":\"".toList ++ stage.toList ++
      "\",\"clock\":\"mono\",\"timestamp_ns\":".toList ++ (toString time).toList ++
      ",\"correlation_id\":\"".toList ++ frame.toList ++ "\"\x7d\n".toList).map (fun c => c.toNat.toUInt8),
    .dict [("schema", .int 1), ("session_id", .str "s"), ("kind", .str "event"), ("stage", .str stage),
      ("clock", .str "mono"), ("timestamp_ns", .int time), ("correlation_id", .str frame)]) := by
  simp only [traced, String.toList_append]

theorem classify_frames : twoFrameLines.map (classify loadsFrames) = frameClasses := by
  unfold twoFrameLines loadsFrames twoFrames
  simp only [traced_eq]
  decide +kernel

def framesResult : Result := (gather {} frameClasses).result {}

theorem analyze_frames : analyze loadsFrames twoFrameLines {} = .ok framesResult := by
  rw [analyze, if_neg (by decide), classify_frames]
  rfl

theorem framesResult_open : framesResult.untrackedRecords = 0 ∧ ∀ stage, framesResult.unanalyzed stage = 0 := by
  refine ⟨by decide, fun stage => ?_⟩
  cases stage <;> decide

theorem agree_of_events (h : ∀ r ∈ rs, r.kind.stage? ≠ none) : Agree rs := by
  intro session m hm
  obtain ⟨r, hr, hheader⟩ := List.mem_filterMap.1 hm
  have hevent := h r hr
  obtain ⟨x, kind⟩ := r
  cases kind with
  | event e => cases hheader
  | _ => exact absurd rfl hevent

theorem twoFrames_agree : Agree (records (twoFrameLines.map (classify loadsFrames))) := by
  rw [classify_frames]
  exact agree_of_events (by decide)

/-- The result of the lines and of the lines in the opposite order. -/
theorem analysis_reversed : ∃ r', analyze loadsFrames twoFrameLines.reverse {} = .ok r' ∧ SameResult framesResult r' :=
  (analysis loadsFrames {}).2.2 twoFrameLines twoFrameLines.reverse framesResult (List.reverse_perm _).symm
    analyze_frames framesResult_open.1 framesResult_open.2 twoFrames_agree

/-- The values of a metric stand in the order of their groups: 10 and 20 of the lines, and 20 and 10 of the lines in the
opposite order. -/
theorem values_in_order : ¬∀ (loads : List UInt8 → Option Py) (limits : Limits) (lines lines' : List Line) (r : Result),
    lines.Perm lines' → analyze loads lines limits = .ok r → r.untrackedRecords = 0 →
      (∀ stage, r.unanalyzed stage = 0) → Agree (records (lines.map (classify loads))) →
        analyze loads lines' limits = .ok r := by
  intro hsame
  have heq := (analyze_eq (hsame loadsFrames {} twoFrameLines twoFrameLines.reverse framesResult (List.reverse_perm _).symm
    analyze_frames framesResult_open.1 framesResult_open.2 twoFrames_agree)).2
  rw [List.map_reverse, classify_frames] at heq
  have hvalues : framesResult.metrics "mono" (.surfaceCommit, .composeStarted) =
      ((gather {} frameClasses.reverse).result {}).metrics "mono" (.surfaceCommit, .composeStarted) := by rw [← heq]
  exact absurd hvalues (by decide)

end CocoaWay.TraceAnalysis
