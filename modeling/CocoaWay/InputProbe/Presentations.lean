import CocoaWay.InputProbe.Analyze
import CocoaWay.TraceAnalysis.Metrics

/-!
# What an end-to-end sample is made of

* `Received`, `Handled`, `Joins` : a key event with its receipt, its handler, and what the host observed;
* `Counted` : a commit that is counted for a key event; `mem_causeCommits`, `commitsOf_eq_singleton`;
* `Chain`, `Joined` : the records of a presentation, each the only one of its kind but for the commit;
* `mem_presentations` : a sample is that of a chain whose commit is the only one counted.
-/

namespace CocoaWay.InputProbe
open Lib
open TraceAnalysis (Stage Tag reversed reversed_eq_false)

variable {r : Records} {sequence frame ns : Int} {receipt handler commit surface : Row} {pair : Int × Int}
  {join : Records.Join} {rows : List Row} {stage : Stage} {identity : Option Tag}

theorem of_sole_bucket {α κ : Type} [DecidableEq κ] {rows : List α} {key : α → Option κ} {k : κ} {row : α}
    (h : buckets rows key k = [row]) : row ∈ rows ∧ key row = some k := by
  have hmem : row ∈ bucket key rows k := by
    change row ∈ buckets rows key k
    rw [h]
    exact List.mem_singleton_self row
  exact mem_bucket.1 hmem

/-- The only record of a key that a record has is that record. -/
theorem eq_of_sole_bucket {α κ : Type} [DecidableEq κ] {rows : List α} {key : α → Option κ} {k : κ} {row row' : α}
    (h : buckets rows key k = [row']) (hrow : row ∈ rows) (hk : key row = some k) : row = row' := by
  have hmem : row ∈ buckets rows key k := mem_bucket.2 ⟨hrow, hk⟩
  rw [h] at hmem
  exact List.mem_singleton.1 hmem

/-! ## Receipts and handlers -/

/-- The only receipt with a number, which is the only one of its source tuple. -/
structure Received (r : Records) (sequence : Int) (pair : Int × Int) (receipt : Row) : Prop where
  bySequence : r.bySequence sequence = [receipt]
  byPair : r.byPair pair = [receipt]

theorem received_iff (hpair : r.byPair pair = [receipt]) :
    (∃ row, one r.bySequence (eventSequence receipt) = some row) ↔
      ∃ sequence, eventSequence receipt = some sequence ∧ Received r sequence pair receipt := by
  obtain ⟨hinput, -⟩ := of_sole_bucket hpair
  have hreceipt : receipt ∈ r.receipts := (List.mem_filter.1 hinput).1
  constructor
  · rintro ⟨row, hone⟩
    obtain ⟨sequence, hsequence, hrow⟩ := one_eq_some.1 hone
    have heq := eq_of_sole_bucket hrow hreceipt hsequence
    rw [← heq] at hrow
    exact ⟨sequence, hsequence, hrow, hpair⟩
  · rintro ⟨sequence, hsequence, hreceived⟩
    exact ⟨receipt, one_eq_some.2 ⟨sequence, hsequence, hreceived.bySequence⟩⟩

theorem Received.eventSequence (h : Received r sequence pair receipt) : eventSequence receipt = some sequence :=
  (of_sole_bucket h.bySequence).2

theorem Received.guestPair (h : Received r sequence pair receipt) : guestPair receipt = some pair :=
  (of_sole_bucket h.byPair).2

/-- A number has one receipt, and one source tuple. -/
theorem Received.unique {pair' : Int × Int} {receipt' : Row} (h : Received r sequence pair receipt)
    (h' : Received r sequence pair' receipt') : pair' = pair ∧ receipt' = receipt := by
  have hreceipt : receipt' = receipt := by
    have hsequence := h'.bySequence
    rw [h.bySequence] at hsequence
    exact (List.cons.inj hsequence).1.symm
  subst hreceipt
  have hpair := h'.guestPair
  rw [h.guestPair] at hpair
  exact ⟨(Option.some.inj hpair).symm, rfl⟩

/-- A key event that was received and handled. -/
structure Handled (r : Records) (sequence : Int) (pair : Int × Int) (receipt handler : Row) : Prop
    extends Received r sequence pair receipt where
  handled : r.handled sequence = [handler]
  handlerMatches : handlerMatches receipt handler = true

theorem handlerOf_eq_ok : r.handlerOf pair = .ok (receipt, handler) ↔
    ∃ sequence, Handled r sequence pair receipt handler := by
  unfold Records.handlerOf
  constructor
  · intro h
    split at h
    · cases h
    next row hpair =>
      rw [sole_eq_some] at hpair
      split at h
      · cases h
      next row' hone =>
        obtain ⟨sequence, hsequence, hreceived⟩ := (received_iff hpair).1 ⟨row', hone⟩
        split at h
        · cases h
        next row'' hhandled =>
          split at h
          next hmatches =>
            cases h
            rw [hsequence] at hhandled
            obtain ⟨_, heq, hhandled⟩ := one_eq_some.1 hhandled
            cases heq
            exact ⟨sequence, hreceived, hhandled, hmatches⟩
          · cases h
  · rintro ⟨sequence, h⟩
    have hone : one r.bySequence (eventSequence receipt) = some receipt :=
      one_eq_some.2 ⟨sequence, h.eventSequence, h.bySequence⟩
    have hhandled : one r.handled (eventSequence receipt) = some handler :=
      one_eq_some.2 ⟨sequence, h.eventSequence, h.handled⟩
    rw [sole_eq_some.2 h.byPair]
    dsimp only
    rw [hone, hhandled]
    dsimp only
    rw [if_pos h.handlerMatches]

theorem toOption_eq_some {ε α : Type} {x : Except ε α} {a : α} : x.toOption = some a ↔ x = .ok a := by
  cases x <;> simp [Except.toOption]

theorem mem_goodHandlers : (sequence, handler) ∈ r.goodHandlers ↔
    ∃ pair receipt, Handled r sequence pair receipt handler := by
  unfold Records.goodHandlers
  rw [List.mem_filterMap]
  constructor
  · rintro ⟨pair, -, h⟩
    obtain ⟨⟨receipt, handler'⟩, hok, h⟩ := Option.bind_eq_some_iff.1 h
    obtain ⟨sequence', hsequence, heq⟩ := Option.map_eq_some_iff.1 h
    cases heq
    obtain ⟨sequence', hhandled⟩ := handlerOf_eq_ok.1 (toOption_eq_some.1 hok)
    rw [hhandled.eventSequence] at hsequence
    cases hsequence
    exact ⟨pair, receipt, hhandled⟩
  · rintro ⟨pair, receipt, h⟩
    refine ⟨pair, mem_bucketKeys_of_bucket h.byPair, Option.bind_eq_some_iff.2 ⟨(receipt, handler), ?_, ?_⟩⟩
    · exact toOption_eq_some.2 (handlerOf_eq_ok.2 ⟨sequence, h⟩)
    · dsimp only
      rw [h.eventSequence]
      rfl

theorem functional_goodHandlers (r : Records) : Functional r.goodHandlers := by
  intro sequence handler handler' h h'
  obtain ⟨_, _, h⟩ := mem_goodHandlers.1 h
  obtain ⟨_, _, h'⟩ := mem_goodHandlers.1 h'
  have hhandled := h.handled
  rw [h'.handled] at hhandled
  exact (List.cons.inj hhandled).1.symm

theorem assigned_goodHandlers : assigned r.goodHandlers sequence = some handler ↔
    ∃ pair receipt, Handled r sequence pair receipt handler := by
  rw [assigned_eq_some_iff (functional_goodHandlers r), mem_goodHandlers]

/-! ## Inputs -/

/-- A key event that the host observed and forwarded. -/
structure Joins (r : Records) (sequence : Int) (pair : Int × Int) (join : Records.Join) : Prop
    extends Received r sequence pair join.receipt where
  forwarded : r.forwardedPairs pair = [join.forward]
  observed : ∃ id, correlation join.forward = some id ∧ r.native id = [join.observation] ∧
    r.forwardedIds id = [join.forward]
  ordered : timestamp join.observation ≤ timestamp join.forward

theorem joinOf_eq_ok : r.joinOf pair = .ok join ↔ ∃ sequence, Joins r sequence pair join := by
  unfold Records.joinOf
  constructor
  · intro h
    split at h
    next forward receipt hforward hpair =>
      rw [sole_eq_some] at hforward hpair
      split at h
      · cases h
      next row hone =>
        obtain ⟨sequence, -, hreceived⟩ := (received_iff hpair).1 ⟨row, hone⟩
        split at h
        next observation row' hnative hids =>
          split at h
          · cases h
          next hle =>
            cases h
            obtain ⟨id, hid, hnative⟩ := one_eq_some.1 hnative
            obtain ⟨id', hid', hids⟩ := one_eq_some.1 hids
            rw [hid] at hid'
            cases hid'
            have heq := eq_of_sole_bucket hids (of_sole_bucket hforward).1 hid
            rw [← heq] at hids
            exact ⟨sequence, hreceived, hforward, ⟨id, hid, hnative, hids⟩, not_lt.1 hle⟩
        · cases h
    · cases h
  · rintro ⟨sequence, h⟩
    obtain ⟨id, hid, hnative, hids⟩ := h.observed
    have hone : one r.bySequence (eventSequence join.receipt) = some join.receipt :=
      one_eq_some.2 ⟨sequence, h.eventSequence, h.bySequence⟩
    rw [sole_eq_some.2 h.forwarded, sole_eq_some.2 h.byPair]
    dsimp only
    rw [hone, one_eq_some.2 ⟨id, hid, hnative⟩, one_eq_some.2 ⟨id, hid, hids⟩]
    dsimp only
    rw [if_neg (not_lt.2 h.ordered)]

theorem mem_joined : (sequence, join) ∈ r.joined ↔ ∃ pair, Joins r sequence pair join := by
  unfold Records.joined
  rw [List.mem_filterMap]
  constructor
  · rintro ⟨pair, -, h⟩
    obtain ⟨join', hok, h⟩ := Option.bind_eq_some_iff.1 h
    obtain ⟨sequence', hsequence, heq⟩ := Option.map_eq_some_iff.1 h
    cases heq
    obtain ⟨sequence', hjoins⟩ := joinOf_eq_ok.1 (toOption_eq_some.1 hok)
    rw [hjoins.eventSequence] at hsequence
    cases hsequence
    exact ⟨pair, hjoins⟩
  · rintro ⟨pair, h⟩
    refine ⟨pair, mem_bucketKeys_of_bucket h.forwarded, Option.bind_eq_some_iff.2 ⟨join, ?_, ?_⟩⟩
    · exact toOption_eq_some.2 (joinOf_eq_ok.2 ⟨sequence, h⟩)
    · rw [h.eventSequence]
      rfl

theorem functional_joined (r : Records) : Functional r.joined := by
  intro sequence join join' h h'
  obtain ⟨pair, h⟩ := mem_joined.1 h
  obtain ⟨pair', h'⟩ := mem_joined.1 h'
  obtain ⟨rfl, hreceipt⟩ := h.toReceived.unique h'.toReceived
  obtain ⟨id, hid, hnative, -⟩ := h.observed
  obtain ⟨id', hid', hnative', -⟩ := h'.observed
  have hforwarded := h.forwarded
  rw [h'.forwarded] at hforwarded
  have hforward := (List.cons.inj hforwarded).1
  rw [hforward, hid] at hid'
  cases hid'
  rw [hnative] at hnative'
  have hobservation := (List.cons.inj hnative').1
  cases join
  cases join'
  simp only at hobservation hforward hreceipt
  subst hobservation hforward hreceipt
  rfl

theorem assigned_joined : assigned r.joined sequence = some join ↔ ∃ pair, Joins r sequence pair join := by
  rw [assigned_eq_some_iff (functional_joined r), mem_joined]

/-! ## Causes -/

/-- A commit that names a key event as its cause. -/
def names (sequence : Int) (commit : Row) : Bool :=
  (commit.get "cause_kind").eq (.int 1) && (commit.get "has_new_input_cause").isBool true &&
    causeSequence commit = some sequence

/-- A commit that is counted for a key event: it is the only one of its frame, the event is its single cause, no
marker of the frame says otherwise, and it agrees with the receipt and the handler. -/
structure Counted (r : Records) (sequence : Int) (commit : Row) : Prop where
  names : names sequence commit = true
  single : singleCause commit = true
  frame : ∃ frame, frameSequence commit = some frame ∧ r.guestFrames frame = [commit] ∧ r.tainted frame = false
  handled : ∃ pair receipt handler, Handled r sequence pair receipt handler ∧
    causeMatches commit receipt handler = true ∧ commitInOrder handler commit = true

theorem causeOf_eq_ok : r.causeOf frame = .ok (sequence, commit) ↔
    r.guestFrames frame = [commit] ∧ r.tainted frame = false ∧ Counted r sequence commit := by
  unfold Records.causeOf
  constructor
  · intro h
    split at h
    · cases h
    next commit' hframe =>
      rw [sole_eq_some] at hframe
      split at h
      · cases h
      next hkind =>
        split at h
        · cases h
        next hsingle =>
          split at h
          · cases h
          next htainted =>
            split at h
            next sequence' receipt handler hsequence hreceipt hhandler =>
              split at h
              · cases h
              next hmatches =>
                split at h
                · cases h
                next horder =>
                  cases h
                  simp only [Bool.not_eq_true', Bool.not_eq_false, not_or] at hkind hsingle hmatches horder
                  rw [hsequence] at hreceipt hhandler
                  obtain ⟨pair, row, hhandled⟩ := assigned_goodHandlers.1 hhandler
                  obtain ⟨_, heq, hreceipt⟩ := one_eq_some.1 hreceipt
                  cases heq
                  rw [hhandled.bySequence] at hreceipt
                  cases hreceipt
                  have hframeSequence := (of_sole_bucket hframe).2
                  rw [Bool.not_eq_true] at htainted
                  exact ⟨hframe, htainted, by simp [names, hkind, hsequence], hsingle,
                    ⟨frame, hframeSequence, hframe, htainted⟩, pair, receipt, handler, hhandled, hmatches, horder⟩
            · cases h
  · rintro ⟨hframe, htainted, h⟩
    obtain ⟨pair, receipt, handler, hhandled, hmatches, horder⟩ := h.handled
    have hnames := h.names
    simp only [names, Bool.and_eq_true, decide_eq_true_eq] at hnames
    obtain ⟨⟨hkind, hnew⟩, hsequence⟩ := hnames
    rw [sole_eq_some.2 hframe]
    dsimp only
    rw [if_neg (by simp [hkind, hnew]), if_neg (by simp [h.single]), if_neg (by simp [htainted])]
    rw [hsequence, one_eq_some.2 ⟨sequence, rfl, hhandled.bySequence⟩, Option.bind_some,
      assigned_goodHandlers.2 ⟨pair, receipt, hhandled⟩]
    dsimp only
    rw [if_neg (by simp [hmatches]), if_neg (by simp [horder])]

theorem mem_causeCommits : (sequence, commit) ∈ r.causeCommits ↔ Counted r sequence commit := by
  unfold Records.causeCommits
  rw [List.mem_filterMap]
  constructor
  · rintro ⟨frame, -, h⟩
    exact (causeOf_eq_ok.1 (toOption_eq_some.1 h)).2.2
  · intro h
    obtain ⟨frame, hsequence, hframe, htainted⟩ := h.frame
    exact ⟨frame, mem_bucketKeys_of_bucket hframe, toOption_eq_some.2 (causeOf_eq_ok.2 ⟨hframe, htainted, h⟩)⟩

theorem nodup_causeCommits (r : Records) : r.causeCommits.Nodup := by
  refine (nodup_bucketKeys _ _).filterMap fun frame frame' e he he' => ?_
  obtain ⟨sequence, commit⟩ := e
  have hframe := (causeOf_eq_ok.1 (toOption_eq_some.1 (Option.mem_def.1 he))).1
  have hframe' := (causeOf_eq_ok.1 (toOption_eq_some.1 (Option.mem_def.1 he'))).1
  have heq := (of_sole_bucket hframe).2
  rw [(of_sole_bucket hframe').2] at heq
  exact (Option.some.inj heq).symm

theorem mem_commitsOf : commit ∈ r.commitsOf sequence ↔ Counted r sequence commit := by
  unfold Records.commitsOf
  simp only [List.mem_map, mem_bucket, Option.some.injEq]
  constructor
  · rintro ⟨⟨_, _⟩, ⟨hmem, rfl⟩, rfl⟩
    exact mem_causeCommits.1 hmem
  · intro h
    exact ⟨(sequence, commit), ⟨mem_causeCommits.2 h, rfl⟩, rfl⟩

theorem nodup_commitsOf (r : Records) (sequence : Int) : (r.commitsOf sequence).Nodup := by
  refine ((nodup_causeCommits r).filter _).map_on fun e he e' he' heq => ?_
  have h := (mem_bucket.1 he).2
  have h' := (mem_bucket.1 he').2
  exact Prod.ext ((Option.some.inj h).trans (Option.some.inj h').symm) heq

theorem commitsOf_eq_singleton : r.commitsOf sequence = [commit] ↔
    Counted r sequence commit ∧ ∀ commit', Counted r sequence commit' → commit' = commit := by
  constructor
  · intro h
    have hmem (commit' : Row) : commit' ∈ r.commitsOf sequence ↔ Counted r sequence commit' := mem_commitsOf
    rw [h] at hmem
    exact ⟨(hmem commit).1 (List.mem_singleton_self commit),
      fun commit' h' => List.mem_singleton.1 ((hmem commit').2 h')⟩
  · rintro ⟨h, hall⟩
    refine List.perm_singleton.1 ((List.perm_ext_iff_of_nodup (nodup_commitsOf r sequence)
      (List.nodup_singleton commit)).2
      fun commit' => ?_)
    rw [mem_commitsOf, List.mem_singleton]
    exact ⟨hall commit', fun heq => heq ▸ h⟩

/-! ## Markers and stages -/

/-- The marker of the surface is of the run, and of the frame. -/
def Records.marks (r : Records) (frame : Int) (surface : Row) : Bool :=
  (marker (surface.get "probe_marker")).any fun m => (Value.int m.pid).eq r.pid && m.frame = frame

theorem marks_iff : r.marks frame surface = true ↔
    r.marked surface = .mismatch frame ∨ r.marked surface = .coalesced frame ∨ r.marked surface = .good frame := by
  unfold Records.marks Records.marked
  cases marker (surface.get "probe_marker") with
  | none => simp
  | some m =>
    dsimp only [Option.any_some]
    cases hpid : (Value.int m.pid).eq r.pid with
    | false => simp
    | true =>
      simp only [Bool.not_true, Bool.false_eq_true, if_false, Bool.true_and]
      repeat' split
      all_goals simp

theorem markerMatches_of_good (h : r.marked surface = .good frame) (hframe : r.guestFrames frame = [commit]) :
    ∃ m, marker (surface.get "probe_marker") = some m ∧ markerMatches m commit = true := by
  unfold Records.marked at h
  split at h
  · cases h
  next m hm =>
    split at h
    · cases h
    · split at h
      · cases h
      next commit' hcommit =>
        split at h
        · cases h
        next hmatches =>
          split at h
          · cases h
          · cases h
            obtain ⟨_, heq, hcommit⟩ := one_eq_some.1 hcommit
            cases heq
            rw [hframe] at hcommit
            cases hcommit
            exact ⟨m, hm, by simpa using hmatches⟩

theorem number_of_eq {v : Value} {n : Int} (h : v.eq (.int n) = true) : v.number? = some n := by
  unfold Value.eq at h
  split at h
  next x y hx hy =>
    cases hy
    rw [hx, of_decide_eq_true h]
  next hy => cases hy
  · cases h

theorem number_congr {v w : Value} (h : v.eq w = true) : v.number? = w.number? := by
  unfold Value.eq at h
  split at h
  next x y hx hy => rw [hx, hy, of_decide_eq_true h]
  next hx hy => rw [hx, hy]
  · cases h

theorem int_of_number {row : Row} {key : String} {n : Int} (h : (row.get key).number? = some n) :
    row.int key ≤ max n 0 := by
  unfold Row.int
  cases hv : row.get key with
  | int m =>
    rw [hv] at h
    obtain rfl : m = n := Option.some.inj h
    change (if 0 ≤ m ∧ m < 2 ^ 64 then some m else none).getD 0 ≤ max m 0
    split
    · exact le_max_left m 0
    · exact le_max_right m 0
  | _ => exact le_max_right n 0

/-- The marker of a single cause is not one of several. -/
theorem not_coalesced {m : Marker} (hmatches : markerMatches m commit = true) (hsingle : singleCause commit = true) :
    ¬(m.kind = 1 ∧ (8 ≤ m.flags ∨ m.applied ≠ 1 ∨ m.first ≠ m.last)) := by
  simp only [markerMatches, Bool.and_eq_true, decide_eq_true_eq, List.all_eq_true] at hmatches
  simp only [singleCause, Bool.and_eq_true] at hsingle
  obtain ⟨⟨hflags, hfields⟩, -⟩ := hmatches
  obtain ⟨⟨⟨-, happlied⟩, hfirst⟩, hlast⟩ := hsingle
  have happlied' := number_congr (hfields (Marker.applied, "applied_visual_events") (by simp [markerFields]))
  have hfirst' := number_congr (hfields (Marker.first, "first_applied_event_sequence") (by simp [markerFields]))
  have hlast' := number_congr (hfields (Marker.last, "last_applied_event_sequence") (by simp [markerFields]))
  have hone := number_of_eq happlied
  have hrange : m.first = m.last := by
    have heq := hfirst'.trans ((number_congr hfirst).trans ((number_congr hlast).trans hlast'.symm))
    exact Option.some.inj heq
  have happlied : m.applied = 1 := Option.some.inj (happlied'.trans hone)
  have hsmall := int_of_number hone
  rintro ⟨-, hbig | hmany | hrange'⟩
  · rw [hflags] at hbig
    unfold commitFlags at hbig
    have hnot : ¬1 < commit.int "applied_visual_events" := by omega
    rw [if_neg hnot] at hbig
    repeat' split at hbig
    all_goals omega
  · exact hmany happlied
  · exact hrange' hrange

/-- The only marker of a single cause's frame is good when it matches. -/
theorem marked_eq_good {m : Marker} (hmarks : r.marks frame surface = true)
    (hm : marker (surface.get "probe_marker") = some m) (hmatches : markerMatches m commit = true)
    (hframe : r.guestFrames frame = [commit]) (hsingle : singleCause commit = true) :
      r.marked surface = .good frame := by
  unfold Records.marks at hmarks
  rw [hm] at hmarks
  simp only [Option.any_some, Bool.and_eq_true, decide_eq_true_eq] at hmarks
  obtain ⟨hpid, rfl⟩ := hmarks
  unfold Records.marked
  rw [hm]
  dsimp only
  rw [if_neg (by simp [hpid]), one_eq_some.2 ⟨_, rfl, hframe⟩]
  dsimp only
  rw [if_neg (by simp [hmatches]), if_neg (not_coalesced hmatches hsingle)]

/-- All markers of a frame that is not tainted are good. -/
theorem hostMarkers_eq (htainted : r.tainted frame = false) :
    r.hostMarkers frame = r.surfaces.filter (r.marks frame) := by
  refine List.filter_congr fun surface hsurface => ?_
  have hgood : ¬(r.marked surface = .mismatch frame ∨ r.marked surface = .coalesced frame) := by
    intro h
    have htrue : r.tainted frame = true := List.any_eq_true.2 ⟨surface, hsurface, decide_eq_true h⟩
    rw [htainted] at htrue
    cases htrue
  rw [Bool.eq_iff_iff, decide_eq_true_eq, marks_iff]
  tauto

/-- The events of a stage with an identity. -/
def Records.stageEvents (r : Records) (stage : Stage) (id : Tag) : List Row :=
  r.events.filter fun row => isStage stage row && correlation row = some id

theorem chain_eq_some (hstage : stage ∈ Records.frameStages) {row : Row} : r.chain identity stage = some row ↔
    ∃ id, identity = some id ∧ r.stageEvents stage id = [row] := by
  have hevents : ∀ id, (r.frames id).filter (isStage stage) = r.stageEvents stage id := by
    intro id
    unfold Records.frames Records.stageEvents buckets bucket
    rw [List.filter_filter, List.filter_filter]
    refine List.filter_congr fun row _ => ?_
    cases hrow : isStage stage row with
    | false => rfl
    | true =>
      have hany : (Records.frameStages.any fun stage => isStage stage row) = true :=
        List.any_eq_true.2 ⟨stage, hstage, hrow⟩
      rw [hany]
      simp
  unfold Records.chain
  cases identity with
  | none => simp
  | some id => simp [hevents, sole_eq_some]

theorem mapM_chain {ordered : List Row} : Records.frameStages.mapM (r.chain identity) = some ordered ↔
    ∃ surface compose submit present, r.chain identity .surfaceCommit = some surface ∧
      r.chain identity .composeStarted = some compose ∧ r.chain identity .cpuSubmitted = some submit ∧
      r.chain identity .metalPresented = some present ∧ ordered = [surface, compose, submit, present] := by
  unfold Records.frameStages
  simp only [List.mapM_cons, List.mapM_nil, Option.bind_eq_bind, Option.bind_eq_some_iff, Option.pure_def,
    Option.some.injEq]
  constructor
  · rintro ⟨surface, hsurface, _, ⟨compose, hcompose, _, ⟨submit, hsubmit, _, ⟨present, hpresent, _, rfl, rfl⟩, rfl⟩,
      rfl⟩, rfl⟩
    exact ⟨surface, compose, submit, present, hsurface, hcompose, hsubmit, hpresent, rfl⟩
  · rintro ⟨surface, compose, submit, present, hsurface, hcompose, hsubmit, hpresent, rfl⟩
    exact ⟨surface, hsurface, _, ⟨compose, hcompose, _, ⟨submit, hsubmit, _, ⟨present, hpresent, _, rfl, rfl⟩, rfl⟩,
      rfl⟩, rfl⟩

theorem windowsConflict_eq_false : windowsConflict rows = false ↔
    ∀ a ∈ rows, ∀ b ∈ rows, a.get "window_id" ≠ .none → b.get "window_id" ≠ .none →
      idKey (a.get "window_id") = idKey (b.get "window_id") := by
  unfold windowsConflict
  rw [decide_eq_false_iff_not, not_lt, Finset.card_le_one]
  simp only [List.mem_toFinset, List.mem_map, List.mem_filter, decide_eq_true_eq]
  constructor
  · intro h a ha b hb hna hnb
    exact h _ ⟨a, ⟨ha, hna⟩, rfl⟩ _ ⟨b, ⟨hb, hnb⟩, rfl⟩
  · rintro h _ ⟨a, ⟨ha, hna⟩, rfl⟩ _ ⟨b, ⟨hb, hnb⟩, rfl⟩
    exact h a ha b hb hna hnb

/-! ## Presentations -/

/-- The records of a presentation. -/
structure Chain where
  observation : Row
  forward : Row
  receipt : Row
  handler : Row
  commit : Row
  surface : Row
  compose : Row
  submit : Row
  present : Row

/-- Those of the host, in their order. -/
def Chain.hostRows (c : Chain) : List Row := [c.observation, c.forward, c.surface, c.compose, c.submit, c.present]

/-- The records are those of a key event, each is the only one of its kind that names it or its frame, and they agree;
of the commits it is the only one of its frame. -/
structure Joined (r : Records) (sequence ns : Int) (c : Chain) : Prop where
  key : ∃ pair, Handled r sequence pair c.receipt c.handler ∧
    Joins r sequence pair ⟨c.observation, c.forward, c.receipt⟩
  names : names sequence c.commit = true
  single : singleCause c.commit = true
  matched : causeMatches c.commit c.receipt c.handler = true
  inOrder : commitInOrder c.handler c.commit = true
  frame : ∃ frame, frameSequence c.commit = some frame ∧ r.guestFrames frame = [c.commit] ∧
    r.surfaces.filter (r.marks frame) = [c.surface] ∧
    ∃ m, marker (c.surface.get "probe_marker") = some m ∧ markerMatches m c.commit = true
  stages : ∃ id, correlation c.surface = some id ∧ r.stageEvents .surfaceCommit id = [c.surface] ∧
    r.stageEvents .composeStarted id = [c.compose] ∧ r.stageEvents .cpuSubmitted id = [c.submit] ∧
    r.stageEvents .metalPresented id = [c.present]
  windows : ∀ a ∈ c.hostRows, ∀ b ∈ c.hostRows, a.get "window_id" ≠ .none → b.get "window_id" ≠ .none →
    idKey (a.get "window_id") = idKey (b.get "window_id")
  times : (c.hostRows.map timestamp).Pairwise (· ≤ ·)
  value : ns = timestamp c.present - timestamp c.observation

theorem Joined.counted {c : Chain} (h : Joined r sequence ns c) : Counted r sequence c.commit := by
  obtain ⟨pair, hhandled, -⟩ := h.key
  obtain ⟨frame, hsequence, hframe, hmarkers, m, hm, hmatches⟩ := h.frame
  refine ⟨h.names, h.single, ⟨frame, hsequence, hframe, ?_⟩, pair, c.receipt, c.handler, hhandled, h.matched, h.inOrder⟩
  rw [Bool.eq_false_iff]
  intro htainted
  obtain ⟨surface, hsurface, hmarked⟩ := List.any_eq_true.1 htainted
  rw [decide_eq_true_eq] at hmarked
  have hmarks : r.marks frame surface = true := marks_iff.2 (by tauto)
  have hmem : surface ∈ r.surfaces.filter (r.marks frame) := List.mem_filter.2 ⟨hsurface, hmarks⟩
  rw [hmarkers, List.mem_singleton] at hmem
  subst hmem
  rw [marked_eq_good hmarks hm hmatches hframe h.single] at hmarked
  rcases hmarked with hmarked | hmarked <;> cases hmarked

theorem presentationOf_eq_ok (hcounted : Counted r sequence commit) :
    r.presentationOf sequence commit = .ok ns ↔ ∃ c, Joined r sequence ns c ∧ c.commit = commit := by
  obtain ⟨frame, hsequence, hframe, htainted⟩ := hcounted.frame
  obtain ⟨pair, receipt, handler, hhandled, hmatched, horder⟩ := hcounted.handled
  unfold Records.presentationOf
  rw [hsequence]
  constructor
  · intro h
    split at h
    next surface join hsurface hjoin =>
      obtain ⟨_, heq, hmarkers⟩ := one_eq_some.1 hsurface
      cases heq
      obtain ⟨pair', hjoins⟩ := assigned_joined.1 hjoin
      obtain ⟨rfl, hreceipt⟩ := hhandled.toReceived.unique hjoins.toReceived
      split at h
      · cases h
      next ordered hordered =>
        obtain ⟨surface', compose, submit, present, hs, hc, hu, hp, rfl⟩ := mapM_chain.1 hordered
        split at h
        · cases h
        next hhead =>
          rw [not_not] at hhead
          obtain rfl : surface' = surface := Option.some.inj hhead
          dsimp only at h
          split at h
          · cases h
          next hno =>
            rw [not_or, Bool.not_eq_true, Bool.not_eq_true] at hno
            obtain ⟨hwindows, hreversed⟩ := hno
            cases h
            have hgood : r.marked surface' = .good frame := by
              have hmem : surface' ∈ r.hostMarkers frame := by
                rw [hmarkers]
                exact List.mem_singleton_self surface'
              exact of_decide_eq_true (List.mem_filter.1 hmem).2
            rw [hostMarkers_eq htainted] at hmarkers
            obtain ⟨id, hid, hsurfaceEvents⟩ := (chain_eq_some (by decide)).1 hs
            rw [hid] at hc hu hp
            obtain ⟨_, heq, hcomposeEvents⟩ := (chain_eq_some (by decide)).1 hc
            cases heq
            obtain ⟨_, heq, hsubmitEvents⟩ := (chain_eq_some (by decide)).1 hu
            cases heq
            obtain ⟨_, heq, hpresentEvents⟩ := (chain_eq_some (by decide)).1 hp
            cases heq
            refine ⟨⟨join.observation, join.forward, receipt, handler, commit, surface', compose, submit, present⟩,
              ⟨⟨pair', hhandled, ?_⟩, hcounted.names, hcounted.single, hmatched, horder,
                ⟨frame, hsequence, hframe, hmarkers, markerMatches_of_good hgood hframe⟩,
                ⟨id, hid, hsurfaceEvents, hcomposeEvents, hsubmitEvents, hpresentEvents⟩,
                windowsConflict_eq_false.1 hwindows, (reversed_eq_false _).1 hreversed, rfl⟩, rfl⟩
            rw [← hreceipt]
            exact hjoins
    · cases h
  · rintro ⟨c, hc, rfl⟩
    obtain ⟨pair', -, hjoins⟩ := hc.key
    obtain ⟨frame', hsequence', -, hmarkers, -⟩ := hc.frame
    rw [hsequence] at hsequence'
    cases hsequence'
    obtain ⟨id, hid, hs, hcompose, hu, hp⟩ := hc.stages
    rw [← hostMarkers_eq htainted] at hmarkers
    have hordered : Records.frameStages.mapM (r.chain (correlation c.surface)) =
        some [c.surface, c.compose, c.submit, c.present] := by
      rw [hid]
      exact mapM_chain.2 ⟨c.surface, c.compose, c.submit, c.present, (chain_eq_some (by decide)).2 ⟨id, rfl, hs⟩,
        (chain_eq_some (by decide)).2 ⟨id, rfl, hcompose⟩, (chain_eq_some (by decide)).2 ⟨id, rfl, hu⟩,
        (chain_eq_some (by decide)).2 ⟨id, rfl, hp⟩, rfl⟩
    rw [one_eq_some.2 ⟨frame, rfl, hmarkers⟩, assigned_joined.2 ⟨pair', hjoins⟩]
    dsimp only
    rw [hordered]
    dsimp only
    have hwindows := windowsConflict_eq_false.2 hc.windows
    have hreversed := (reversed_eq_false _).2 hc.times
    have hno : ¬(windowsConflict c.hostRows = true ∨ reversed (c.hostRows.map timestamp) = true) := by
      rw [hwindows, hreversed]
      decide
    rw [if_neg (by simp)]
    exact (if_neg hno).trans (congrArg Except.ok hc.value.symm)

/-- A sample is that of records whose commit is the only one that is counted for the key event. -/
theorem mem_presentations : (sequence, ns) ∈ r.presentations ↔
    ∃ c, Joined r sequence ns c ∧ ∀ commit, Counted r sequence commit → commit = c.commit := by
  have hpresentation : r.presentation sequence = .ok ns ↔
      ∃ c, Joined r sequence ns c ∧ ∀ commit, Counted r sequence commit → commit = c.commit := by
    unfold Records.presentation
    constructor
    · intro h
      split at h
      · cases h
      next commit hcommit =>
        obtain ⟨hcounted, hall⟩ := commitsOf_eq_singleton.1 (sole_eq_some.1 hcommit)
        obtain ⟨c, hc, rfl⟩ := (presentationOf_eq_ok hcounted).1 h
        exact ⟨c, hc, hall⟩
    · rintro ⟨c, hc, hall⟩
      rw [sole_eq_some.2 (commitsOf_eq_singleton.2 ⟨hc.counted, hall⟩)]
      exact (presentationOf_eq_ok hc.counted).2 ⟨c, hc, rfl⟩
  rw [← hpresentation]
  unfold Records.presentations
  rw [List.mem_filterMap]
  constructor
  · rintro ⟨sequence', -, h⟩
    obtain ⟨ns', hok, heq⟩ := Option.map_eq_some_iff.1 h
    cases heq
    exact toOption_eq_some.1 hok
  · intro h
    obtain ⟨c, hc, -⟩ := hpresentation.1 h
    refine ⟨sequence, ?_, by rw [h]; rfl⟩
    exact mem_bucketKeys_of_mem (mem_causeCommits.2 hc.counted) rfl

end CocoaWay.InputProbe
