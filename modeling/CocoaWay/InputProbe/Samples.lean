import CocoaWay.InputProbe.Main
import CocoaWay.InputProbe.Reordering

/-!
# The samples of a probe run

* `select_perm`, `analyze_perm` : the records are accepted in any order, with the same numbers;
* `Sound`, `Steady` : a sample is made of the only records that name its key event; the order of the records does not
  matter;
* `NoneSetAside` : no commit that is set aside names the key event of a presentation;
* `samples_sound_iff` : the samples are sound exactly then;
* `duplicate_hidden` : a frame that is recorded twice, whose commits name the key event of a sample.
-/

namespace CocoaWay.InputProbe
open Lib Python Calibration

variable {eq : Py → Py → Bool} {clock clockGuest : Dict} {verified : Bool} {tag session : Option String}
  {host host' guest guest' : List Row}

/-! ## Any order -/

theorem eq_symm {a b : Value} (h : a.eq b = true) : b.eq a = true := by
  unfold Value.eq at h ⊢
  cases ha : a.number? <;> cases hb : b.number? <;> simp_all

theorem eq_trans {a b c : Value} (h : a.eq b = true) (h' : b.eq c = true) : a.eq c = true := by
  unfold Value.eq at h h' ⊢
  cases ha : a.number? <;> cases hb : b.number? <;> cases hc : c.number? <;> simp_all

theorem selectGuest_perm (h : guest.Perm guest') {pid : Value} {rows : List Row}
    (hok : selectGuest eq clockGuest guest tag = .ok (pid, rows)) :
    ∃ rows', selectGuest eq clockGuest guest' tag = .ok (pid, rows') ∧ rows.Perm rows' := by
  unfold selectGuest at hok ⊢
  split at hok
  next start hstart =>
    have hstart' : guest'.filter (isStart tag) = [start] := by
      have hperm := h.filter (isStart tag)
      rw [hstart] at hperm
      exact hperm.symm.eq_singleton
    obtain ⟨_, hcheck, hok⟩ := ok_of_bind hok
    obtain ⟨rfl, rfl⟩ := Prod.mk.inj (Except.ok.inj hok)
    rw [hstart']
    exact ⟨_, (bind_of_ok hcheck _).trans rfl, h.filter _⟩
  · cases hok

theorem selectHost_perm (h : host.Perm host') {rows : List Row} (hok : selectHost host session = .ok rows) :
    ∃ rows', selectHost host' session = .ok rows' ∧ rows.Perm rows' := by
  unfold selectHost at hok ⊢
  cases session with
  | some session =>
    dsimp only at hok ⊢
    rw [← any_perm h]
    split at hok
    next hany =>
      cases hok
      exact ⟨_, if_pos hany, h.filter _⟩
    · cases hok
  | none =>
    dsimp only at hok ⊢
    split at hok
    · cases hok
    next first rest =>
      split at hok
      next hall =>
        cases hok
        cases host' with
        | nil => exact absurd h.eq_nil (List.cons_ne_nil first rest)
        | cons first' rest' =>
          rw [List.all_eq_true] at hall
          have hfirst := hall first' (h.mem_iff.2 List.mem_cons_self)
          have hall' : ((first' :: rest').all fun row => (row.get "session_id").eq (first'.get "session_id")) = true :=
            List.all_eq_true.2 fun row hrow => eq_trans (hall row (h.mem_iff.2 hrow)) (eq_symm hfirst)
          exact ⟨_, if_pos hall', h⟩
      · cases hok

theorem forM_perm {l l' : List Row} (h : l.Perm l') {f : Row → Except PyError Unit} (hok : l.forM f = .ok ()) :
    l'.forM f = .ok () :=
  forM_ok.2 fun row hrow => forM_ok.1 hok row (h.mem_iff.2 hrow)

theorem recordsOf_perm (cal : Cal) (pid : Value) (hh : host.Perm host') (hg : guest.Perm guest') :
    Reordered (recordsOf cal pid host guest) (recordsOf cal pid host' guest') where
  pid := rfl
  cal := rfl
  events := hh.filter _
  receipts := hg.filter _
  handlers := hg.filter _
  commits := hg.filter _

theorem checkRecords_perm {r r' : Records} (h : Reordered r r') (hok : checkRecords r = .ok ()) :
    checkRecords r' = .ok () := by
  unfold checkRecords at hok ⊢
  obtain ⟨_, hevents, hok⟩ := ok_of_bind hok
  obtain ⟨_, htimes, hok⟩ := ok_of_bind hok
  obtain ⟨_, hkeys, hok⟩ := ok_of_bind hok
  obtain ⟨_, hcommits, hreceipts⟩ := ok_of_bind hok
  rw [bind_of_ok (forM_perm h.events hevents),
    bind_of_ok (forM_perm ((h.inputs.append h.handlers).append h.commits) htimes),
    bind_of_ok (forM_perm (h.inputs.append h.handlers) hkeys), bind_of_ok (forM_perm h.commits hcommits)]
  exact forM_perm h.receipts hreceipts

theorem select_perm (hh : host.Perm host') (hg : guest.Perm guest') {s : Selected}
    (hok : select eq host guest clock verified tag session = .ok s) :
    ∃ s', select eq host' guest' clock verified tag session = .ok s' ∧ Reordered s.records s'.records ∧
      s.host.Perm s'.host := by
  unfold select at hok ⊢
  obtain ⟨cal, hcal, hok⟩ := ok_of_bind hok
  obtain ⟨⟨pid, rows⟩, hrows, hok⟩ := ok_of_bind hok
  obtain ⟨hosts, hhosts, hok⟩ := ok_of_bind hok
  obtain ⟨_, hcheck, hok⟩ := ok_of_bind hok
  obtain rfl := Except.ok.inj hok
  obtain ⟨rows', hrows', hr⟩ := selectGuest_perm hg hrows
  obtain ⟨hosts', hhosts', hs⟩ := selectHost_perm hh hhosts
  have hrecords := recordsOf_perm cal pid hs hr
  refine ⟨⟨recordsOf cal pid hosts' rows', hosts', rows'⟩, ?_, hrecords, hs⟩
  rw [bind_of_ok hcal, bind_of_ok hrows']
  dsimp only
  rw [bind_of_ok hhosts', bind_of_ok (checkRecords_perm hrecords hcheck)]
  rfl

/-- The result but for the losses. -/
structure SameNumbers (result result' : Result) : Prop where
  counts : result.counts = result'.counts
  excluded : result.excluded = result'.excluded
  durations : result.durations = result'.durations
  receipt : result.hostObservationToGuestReceipt = result'.hostObservationToGuestReceipt
  frames : result.frames = result'.frames

theorem analyze_perm (hh : host.Perm host') (hg : guest.Perm guest') {result : Result}
    (hok : analyze eq host guest clock verified tag session = .ok result) :
    ∃ result', analyze eq host' guest' clock verified tag session = .ok result' ∧ SameNumbers result result' := by
  unfold analyze at hok ⊢
  obtain ⟨s, hs, hok⟩ := ok_of_bind hok
  obtain ⟨_, hstats, hok⟩ := ok_of_bind hok
  obtain rfl := Except.ok.inj hok
  obtain ⟨s', hs', h, hhost⟩ := select_perm hh hg hs
  refine ⟨_, (bind_of_ok hs' _).trans ((bind_of_ok (forM_perm (hhost.filter _) hstats) _).trans rfl), h.counts,
    h.excluded,
    funext fun name => metric_perm (h.durations name), boundsMetric_perm h.latencyBounds,
    funext fun stage => boundsMetric_perm (h.frameBounds stage)⟩

/-! ## Samples -/

def presentedNote : Note → Option Int := Note.duration? .hostObservationToActualMetalPresentedSingleCause

variable {r : Records} {note : Note} {n : Nat} {message : String}

theorem presentedNote_failures (h : note ∈ failures n message) : presentedNote note = none := by
  rw [List.eq_of_mem_replicate h]
  rfl

theorem presentedNote_marked {m : Records.Marked} (h : note ∈ m.notes) : presentedNote note = none := by
  cases m with
  | good => cases h
  | _ => exact presentedNote_failures h

theorem presentedNote_stageNotes {commit surface : Row} {before : List Row} {stages : List TraceAnalysis.Stage}
    (h : note ∈ r.stageNotes commit surface before stages) : presentedNote note = none := by
  induction stages generalizing before with
  | nil => cases h
  | cons stage stages ih =>
    unfold Records.stageNotes at h
    dsimp only at h
    generalize (if stage = .surfaceCommit then some surface else _) = destination at h
    cases destination with
    | none => exact presentedNote_failures h
    | some destination =>
      dsimp only at h
      split at h
      · exact presentedNote_failures h
      · rcases List.mem_append.1 h with h | h
        · split at h
          · rw [List.mem_singleton.1 h]
            rfl
          · exact presentedNote_failures h
        · exact ih h

theorem presentedNote_frameNotes {frame : Int} (h : note ∈ r.frameNotes frame) : presentedNote note = none := by
  unfold Records.frameNotes at h
  split at h
  · split at h
    · exact presentedNote_failures h
    · split at h
      · exact presentedNote_failures h
      · rcases List.mem_cons.1 h with rfl | h
        · rfl
        · exact presentedNote_stageNotes h
  · exact presentedNote_failures h

theorem presentedNote_handlerNotes {pair : Int × Int} (h : note ∈ r.handlerNotes pair) : presentedNote note = none := by
  unfold Records.handlerNotes at h
  split at h
  next notes herror =>
    unfold Records.handlerOf at herror
    repeat' split at herror
    all_goals cases herror
    all_goals exact presentedNote_failures h
  · rcases List.mem_cons.1 h with rfl | h
    · rfl
    · rw [List.mem_singleton.1 h]
      rfl

theorem presentedNote_joinNotes {pair : Int × Int} (h : note ∈ r.joinNotes pair) : presentedNote note = none := by
  unfold Records.joinNotes at h
  split at h
  next notes herror =>
    unfold Records.joinOf at herror
    repeat' split at herror
    all_goals cases herror
    all_goals exact presentedNote_failures h
  · rcases List.mem_cons.1 h with rfl | h
    · rfl
    · rw [List.mem_singleton.1 h]
      split <;> rfl

theorem presentedNote_causeNotes {frame : Int} (h : note ∈ r.causeNotes frame) : presentedNote note = none := by
  unfold Records.causeNotes at h
  split at h
  next notes herror =>
    unfold Records.causeOf at herror
    repeat' split at herror
    all_goals cases herror
    · exact presentedNote_failures h
    · cases h
    · rw [List.mem_singleton.1 h]
      rfl
    all_goals exact presentedNote_failures h
  · cases h

theorem presentedNote_keyNotes {sequence : Int} (h : note ∈ r.keyNotes sequence) : presentedNote note = none := by
  unfold Records.keyNotes at h
  split at h
  · simp only [List.mem_cons, List.not_mem_nil, or_false] at h
    rcases h with rfl | rfl | rfl <;> rfl
  · cases h

theorem filterMap_presentationNotes (r : Records) (sequence : Int) :
    (r.presentationNotes sequence).filterMap presentedNote = (r.presentation sequence).toOption.toList := by
  unfold Records.presentationNotes
  cases hpresentation : r.presentation sequence with
  | ok ns => rfl
  | error notes =>
    refine List.filterMap_eq_nil_iff.2 fun note h => ?_
    change note ∈ notes at h
    unfold Records.presentation at hpresentation
    split at hpresentation
    · cases hpresentation
      exact presentedNote_failures h
    · unfold Records.presentationOf at hpresentation
      dsimp only at hpresentation
      repeat' split at hpresentation
      all_goals cases hpresentation
      all_goals exact presentedNote_failures h

theorem filterMap_flatMap_nil {α : Type} {l : List α} {f : α → List Note}
    (h : ∀ a, ∀ note ∈ f a, presentedNote note = none) : (l.flatMap f).filterMap presentedNote = [] := by
  refine List.filterMap_eq_nil_iff.2 fun note hnote => ?_
  obtain ⟨a, -, hnote⟩ := List.mem_flatMap.1 hnote
  exact h a note hnote

theorem durations_presentations (r : Records) :
    r.durations .hostObservationToActualMetalPresentedSingleCause = r.presentations.map Prod.snd := by
  change r.notes.filterMap presentedNote = _
  unfold Records.notes
  simp only [List.filterMap_append]
  rw [filterMap_flatMap_nil fun _ _ => presentedNote_marked, filterMap_flatMap_nil fun _ _ => presentedNote_frameNotes,
    filterMap_flatMap_nil fun _ _ => presentedNote_handlerNotes, filterMap_flatMap_nil fun _ _ =>
      presentedNote_joinNotes,
    filterMap_flatMap_nil fun _ _ => presentedNote_causeNotes]
  unfold Records.presentations
  simp only [List.nil_append]
  induction r.causes with
  | nil => rfl
  | cons sequence causes ih =>
    have hkey : (r.keyNotes sequence).filterMap presentedNote = [] :=
      List.filterMap_eq_nil_iff.2 fun _ => presentedNote_keyNotes
    rw [List.flatMap_cons, List.filterMap_append, List.filterMap_append, hkey, filterMap_presentationNotes, ih,
      List.filterMap_cons]
    cases (r.presentation sequence).toOption <;> rfl

/-- The commits that name the key event as their cause. -/
def named (r : Records) (sequence : Int) : List Row := r.commits.filter (names sequence)

/-- Every sample is that of the only records that name its key event. -/
def Sound (r : Records) : Prop :=
  r.durations .hostObservationToActualMetalPresentedSingleCause = r.presentations.map Prod.snd ∧
    ∀ sequence ns, (sequence, ns) ∈ r.presentations → ∃ c, Joined r sequence ns c ∧ named r sequence = [c.commit]

/-- A commit that is set aside names no key event of which all other records of a presentation are there, with one
commit that is counted. -/
def NoneSetAside (r : Records) : Prop :=
  ∀ sequence ns c, Joined r sequence ns c → (∀ commit, Counted r sequence commit → commit = c.commit) →
    ∀ commit ∈ r.commits, names sequence commit = true → Counted r sequence commit

/-- The commits that name the event are those of one frame, if they are all the same one. -/
theorem named_eq_singleton {sequence : Int} {commit : Row} (hcounted : Counted r sequence commit)
    (hall : ∀ commit' ∈ r.commits, names sequence commit' = true → commit' = commit) : named r sequence = [commit] := by
  obtain ⟨frame, hsequence, hframe, -⟩ := hcounted.frame
  have hfilter : named r sequence = r.guestFrames frame := by
    refine List.filter_congr fun commit' hcommit' => ?_
    rw [Bool.eq_iff_iff, decide_eq_true_eq]
    constructor
    · intro hnames
      rw [hall commit' hcommit' hnames, hsequence]
    · intro hframe'
      rw [eq_of_sole_bucket hframe hcommit' hframe']
      exact hcounted.names
  rw [hfilter, hframe]

theorem sound_iff : Sound r ↔ NoneSetAside r := by
  constructor
  · rintro ⟨-, hsound⟩ sequence ns c hc hall commit hcommit hnames
    obtain ⟨c', hc', hnamed⟩ := hsound sequence ns (mem_presentations.2 ⟨c, hc, hall⟩)
    have hmem : commit ∈ named r sequence := List.mem_filter.2 ⟨hcommit, hnames⟩
    rw [hnamed, List.mem_singleton] at hmem
    rw [hmem]
    exact hc'.counted
  · intro hnone
    refine ⟨durations_presentations r, fun sequence ns h => ?_⟩
    obtain ⟨c, hc, hall⟩ := mem_presentations.1 h
    exact ⟨c, hc, named_eq_singleton hc.counted fun commit hcommit hnames =>
      hall commit (hnone sequence ns c hc hall commit hcommit hnames)⟩

/-- The numbers do not depend on the order of the records. -/
def Steady (eq : Py → Py → Bool) (clock : Dict) (verified : Bool) (tag session : Option String)
    (host guest : List Row) :
    Prop :=
  ∀ result, analyze eq host guest clock verified tag session = .ok result →
    ∀ host' guest', host.Perm host' → guest.Perm guest' →
      ∃ result', analyze eq host' guest' clock verified tag session = .ok result' ∧ SameNumbers result result'

/-- The order of the records never matters; and every sample of the end-to-end metric is that of the only records that
name its key event, with their fields and times in agreement, exactly if no commit that is set aside names such an
event. -/
theorem samples_sound_iff (eq : Py → Py → Bool) (clock : Dict) (verified : Bool) (tag session : Option String)
    (host guest : List Row) :
    (Steady eq clock verified tag session host guest ∧
        ∀ result s, analyze eq host guest clock verified tag session = .ok result →
          select eq host guest clock verified tag session = .ok s → Sound s.records) ↔
      ∀ result s, analyze eq host guest clock verified tag session = .ok result →
        select eq host guest clock verified tag session = .ok s → NoneSetAside s.records := by
  have hsteady : Steady eq clock verified tag session host guest := fun _ hok _ _ hh hg => analyze_perm hh hg hok
  constructor
  · rintro ⟨-, hsound⟩ result s hok hs
    exact sound_iff.1 (hsound result s hok hs)
  · intro hnone
    exact ⟨hsteady, fun result s hok hs => sound_iff.2 (hnone result s hok hs)⟩

/-! ## A frame that is recorded twice -/

def desktopEvent (stage : TraceAnalysis.Stage) (ns id : Int) (fields : Row) : Row :=
  [("kind", .str "event"), ("session_id", .str "s"), ("stage", .str stage.name), ("clock", .str "host_ca"),
    ("timestamp_ns", .int ns), ("correlation_id", .int id)] ++ fields

def guestRecord (record : String) (ns : Int) (fields : Row) : Row :=
  [("probe", .str probe), ("record", .str record), ("tag", .str "test"), ("pid", .int 3),
    ("guest_monotonic_ns", .int ns)] ++ fields

def pressedKey : Row :=
  [("event", .str "key"), ("event_sequence", .int 1), ("seat_global", .int 5), ("protocol_serial", .int 7),
    ("forwarded_event_time_ms_opaque", .int 20), ("evdev_key", .int 30), ("raw_state", .int 1)]

/-- A commit that names the key as its only cause. -/
def frameOf (frame ns : Int) : Row :=
  guestRecord "frame_commit" ns
    [("frame_sequence", .int frame), ("pre_commit_ns", .int ns), ("commit_queued_ns", .int (ns + 10)),
      ("has_new_input_cause", .bool true), ("cause_kind", .int 1), ("cause_event_sequence", .int 1),
      ("cause_forwarded_event_time_ms_opaque", .int 20), ("cause_evdev_code", .int 30), ("cause_raw_state", .int 1),
      ("cause_protocol_serial", .int 7), ("cause_seat_global", .int 5), ("cause_receipt_ns", .int 2110),
      ("cause_handler_ns", .int 2120), ("applied_visual_events", .int 1), ("first_applied_event_sequence", .int 1),
      ("last_applied_event_sequence", .int 1), ("width", .int 64), ("height", .int 64),
      ("continuous_animation", .bool false)]

def pressedMarker : List UInt8 :=
  Layout.putAll (magic ++ List.replicate 116 0)
    ([⟨4, 2, 1⟩, ⟨6, 2, 120⟩, ⟨8, 4, 5⟩, ⟨12, 4, 1⟩, ⟨32, 4, 20⟩, ⟨36, 4, 30⟩, ⟨40, 4, 1⟩, ⟨44, 4, 7⟩, ⟨96, 4, 64⟩,
      ⟨100, 4, 64⟩, ⟨108, 4, 3⟩, ⟨112, 4, 5⟩, ⟨16, 8, 1⟩, ⟨24, 8, 1⟩, ⟨48, 8, 2110⟩, ⟨56, 8, 2120⟩, ⟨64, 8, 2200⟩,
      ⟨72, 8, 1⟩, ⟨80, 8, 1⟩, ⟨88, 8, 1⟩])

def pressedHost : List Row :=
  [desktopEvent .hostNativeInput 1000 1 [],
    desktopEvent .forwarded 1010 1 [("source_event_serial", .int 7), ("source_event_time", .int 20)],
    desktopEvent .surfaceCommit 1250 2 [("probe_marker", .bytes pressedMarker)], desktopEvent .composeStarted 1260 2 [],
    desktopEvent .cpuSubmitted 1270 2 [], desktopEvent .metalPresented 1300 2 []]

/-- Frame 2 is in it twice. -/
def pressedGuest : List Row :=
  [guestRecord "start" 2000
      [("clock", .str "CLOCK_MONOTONIC"), ("clock_id", .int 1), ("clock_units", .str "ns"),
        ("clock_epoch", .str "guest_system_monotonic"), ("receipt_point", .str "backend_event_delivery")],
    guestRecord "input_received" 2110 pressedKey,
    guestRecord "input_handled" 2120 (pressedKey ++ [("receipt_ns", .int 2110), ("handler_start_ns", .int 2115)]),
    frameOf 1 2200, frameOf 2 2300, frameOf 2 2300]

/-- The records do not depend on the calibration, and neither do the samples. -/
def blank : Cal where
  reference := 0
  offset := (0, 0)
  validity := (0, 0)
  rate := ⟨0, le_rfl, one_pos⟩
  hostError := 0
  guestError := 0
  rawIndex := ⟨0, 1, ⟨[], [], []⟩, ⟨[], [], []⟩⟩
  rawReference := (0, 0)
  rawValid := []
  rawInvalidSamples := 0
  rawIdentityRecords := 0
  measurement := (0, 0)

theorem presentations_cal (cal cal' : Cal) (pid : Value) (host guest : List Row) :
    (recordsOf cal pid host guest).presentations = (recordsOf cal' pid host guest).presentations := rfl

theorem checkRecords_cal (cal cal' : Cal) (pid : Value) (host guest : List Row) :
    checkRecords (recordsOf cal pid host guest) = checkRecords (recordsOf cal' pid host guest) := rfl

theorem ok_of_toOption {ε α : Type} {x : Except ε α} {a : α} (h : x.toOption = some a) : x = .ok a := by
  cases x with
  | error e => cases h
  | ok b => exact congrArg _ (Option.some.inj h)

theorem analyze_of_select {eq : Py → Py → Bool} {host guest : List Row} {clock : Dict} {verified : Bool}
    {tag session : Option String} {s : Selected} (hs : select eq host guest clock verified tag session = .ok s)
    (hstats : s.stats.isEmpty = true) : ∃ result, analyze eq host guest clock verified tag session = .ok result := by
  unfold analyze
  rw [hs, bind_of_ok rfl, List.isEmpty_iff.1 hstats]
  exact ⟨_, rfl⟩

theorem select_pressed {cal : Cal} (hcal : calibration (fun _ _ => false) drifting true = .ok cal) :
    select (fun _ _ => false) pressedHost pressedGuest drifting true none none =
      .ok ⟨recordsOf cal (.int 3) pressedHost pressedGuest, pressedHost, pressedGuest⟩ := by
  have hguest : (selectGuest (fun _ _ => false) guestClock pressedGuest none).toOption =
      some (.int 3, pressedGuest) := by decide +kernel
  have hhost : (selectHost pressedHost none).toOption = some pressedHost := by decide +kernel
  have hcheck : (checkRecords (recordsOf blank (.int 3) pressedHost pressedGuest)).toOption = some () := by
    decide +kernel
  unfold select
  rw [bind_of_ok hcal]
  exact (bind_of_ok (ok_of_toOption hguest) _).trans ((bind_of_ok (ok_of_toOption hhost) _).trans
    ((bind_of_ok ((checkRecords_cal cal blank _ _ _).trans (ok_of_toOption hcheck)) _).trans rfl))

/-- The key event has a sample, and three commits name it. -/
theorem duplicate_hidden : ∃ result s,
    analyze (fun _ _ => false) pressedHost pressedGuest drifting true none none = .ok result ∧
      select (fun _ _ => false) pressedHost pressedGuest drifting true none none = .ok s ∧
      (1, 300) ∈ s.records.presentations ∧ (named s.records 1).length = 3 ∧ ¬Sound s.records := by
  obtain ⟨cal, hcal, -⟩ := calibration_drifting
  have hs := select_pressed hcal
  have hmem : (1, 300) ∈ (recordsOf cal (.int 3) pressedHost pressedGuest).presentations := by
    rw [presentations_cal cal blank]
    decide +kernel
  have hlength : (named (recordsOf cal (.int 3) pressedHost pressedGuest) 1).length = 3 := by
    change (named (recordsOf blank (.int 3) pressedHost pressedGuest) 1).length = 3
    decide +kernel
  obtain ⟨result, hresult⟩ := analyze_of_select hs rfl
  refine ⟨result, _, hresult, hs, hmem, hlength, fun hsound => ?_⟩
  obtain ⟨c, -, hnamed⟩ := hsound.2 1 300 hmem
  rw [hnamed] at hlength
  simp at hlength

end CocoaWay.InputProbe
