import CocoaWay.Calibration.Constraints
import CocoaWay.InputProbe.Calibration
import CocoaWay.Lib.Fallible

/-!
# The bounds of a probe run are true

* `constraint_contains`, `bounds_contain` : the index keeps the true offset at every true time of an event;
* `latency_contains` : a residual that has what both clocks counted gives bounds that have the time that passed;
* `calibration_index` : the index is that of the samples that count;
* `probe_bounds` : the index is exact, and its bounds are true.
-/

namespace CocoaWay.InputProbe
open Lib Drift Python Calibration

variable {rate : Rate} {θ : ℝ → ℝ} {h error : Int} {t : ℝ} {samples : List Readings} {index : RawOffsetIndex}
  {eq : Py → Py → Bool} {clock : Dict} {verified : Bool} {cal : Cal}

theorem real_constraint (rate : ℚ) (h error : Int) (upper : Bool) (s : Readings) :
    (constraint rate h error upper s : ℝ) =
      base s upper + sign upper * ((rate : ℝ) * (|(h : ℝ) - time s upper| + timeError s upper + error)) := by
  unfold constraint
  push_cast
  rfl

theorem Rate.real_nonneg (rate : Rate) : 0 ≤ (rate.value : ℝ) := Rat.cast_nonneg.2 rate.nonneg

theorem Rate.real_lt_one (rate : Rate) : (rate.value : ℝ) < 1 := by exact_mod_cast rate.lt_one

theorem constraint_contains (hθ : Drifts (rate.value : ℝ) θ) (e : Observed θ) (ht : Within (error : ℝ) h t) :
    (constraint rate.value h error false e.readings : ℝ) ≤ θ t ∧
      θ t ≤ (constraint rate.value h error true e.readings : ℝ) := by
  rw [real_constraint, real_constraint]
  constructor
  · have hconstraint := e.times.le_offset hθ rate.real_lt_one.le
    have hdrift := hθ.ge e.times.returned t
    have hdistance : |t - e.times.returned| ≤ |(h : ℝ) - e.readings.hostRecv| + e.readings.hostRecvError + error := by
      have hsample := e.hostRecv.distance h
      have hevent := ht.distance e.times.returned
      rw [abs_sub_comm e.times.returned, abs_sub_comm (e.readings.hostRecv : ℝ)] at hsample
      linarith
    have hmul := mul_le_mul_of_nonneg_left hdistance rate.real_nonneg
    have hsend := e.guestSend.ge
    have hrecv := e.hostRecv.le
    simp only [base, sign, time, timeError, Bool.false_eq_true, if_false]
    push_cast
    linarith
  · have hconstraint := e.times.offset_le hθ rate.real_lt_one.le
    have hdrift := hθ.le e.times.sent t
    have hdistance : |t - e.times.sent| ≤ |(h : ℝ) - e.readings.hostSend| + e.readings.hostSendError + error := by
      have hsample := e.hostSend.distance h
      have hevent := ht.distance e.times.sent
      rw [abs_sub_comm e.times.sent, abs_sub_comm (e.readings.hostSend : ℝ)] at hsample
      linarith
    have hmul := mul_le_mul_of_nonneg_left hdistance rate.real_nonneg
    have hrecv := e.guestRecv.le
    have hsend := e.hostSend.ge
    simp only [base, sign, time, timeError, if_true]
    push_cast
    linarith

/-- Every sample is the readings of a truthful exchange. -/
def Truthful (θ : ℝ → ℝ) (samples : List Readings) : Prop := ∀ s ∈ samples, ∃ e : Observed θ, e.readings = s

theorem bounds_contain (hne : samples ≠ []) (hindex : RawOffsetIndex.new samples rate.value = .ok index)
    (hθ : Drifts (rate.value : ℝ) θ) (htrue : Truthful θ samples) (ht : Within (error : ℝ) h t) {interval : Interval}
    (hbounds : index.bounds h error = .ok interval) : Contains interval (θ t) := by
  obtain ⟨index', hindex', hspec⟩ := bounds_eq rate.value hne
  rw [hindex] at hindex'
  obtain rfl := Except.ok.inj hindex'
  obtain ⟨low, high, hinter, -, -, heq⟩ := hspec h error
  rw [hbounds] at heq
  split at heq
  · cases heq
  · obtain rfl := Except.ok.inj heq
    obtain ⟨s, hs, hlow⟩ := hinter.low.1
    obtain ⟨s', hs', hhigh⟩ := hinter.high.1
    obtain ⟨e, rfl⟩ := htrue s hs
    obtain ⟨e', rfl⟩ := htrue s' hs'
    have hle := (constraint_contains hθ e ht).1
    have hge := (constraint_contains hθ e' ht).2
    rw [hlow] at hle
    rw [hhigh] at hge
    have hfloor : (⌊low⌋ : ℝ) ≤ (low : ℝ) := by exact_mod_cast Int.floor_le low
    have hceil : (high : ℝ) ≤ (⌈high⌉ : ℝ) := by exact_mod_cast Int.le_ceil high
    exact ⟨hfloor.trans hle, hge.trans hceil⟩

/-! ## Latencies -/

/-- The time that passed, from what both clocks counted; 0 if it is negative. -/
theorem latency_contains (hθ : Drifts (rate.value : ℝ) θ) (s t : ℝ) {residual : Interval}
    (hresidual : Contains residual (t + θ t - (s + θ s))) (hnonneg : 0 ≤ residual.2) :
    Contains (latency residual rate) (max 0 (t - s)) := by
  obtain ⟨hlow, hhigh⟩ := hresidual
  have hplus : 0 < 1 + (rate.value : ℝ) := by linarith [rate.real_nonneg]
  have hminus : 0 < 1 - (rate.value : ℝ) := by linarith [rate.real_lt_one]
  have hfloor : (⌊(residual.1 : ℚ) / (1 + rate.value)⌋ : ℝ) ≤ (residual.1 : ℝ) / (1 + rate.value) := by
    exact_mod_cast Int.floor_le ((residual.1 : ℚ) / (1 + rate.value))
  have hceil : (residual.2 : ℝ) / (1 - rate.value) ≤ (ceilFraction (residual.2 / (1 - rate.value)) : ℝ) := by
    rw [ceilFraction_eq]
    exact_mod_cast Int.le_ceil ((residual.2 : ℚ) / (1 - rate.value))
  have hnonneg : (0 : ℝ) ≤ residual.2 := Int.cast_nonneg hnonneg
  simp only [Contains, latency]
  push_cast
  obtain hst | hts := le_total s t
  · obtain ⟨hge, hle⟩ := hθ.elapsed hst
    have hpassed : 0 ≤ t - s := sub_nonneg.2 hst
    rw [max_eq_right hpassed]
    refine ⟨max_le hpassed (hfloor.trans ((div_le_iff₀ hplus).2 ?_)),
      ((le_div_iff₀ hminus).2 ?_).trans hceil⟩ <;> linarith
  · obtain ⟨hge, -⟩ := hθ.elapsed hts
    have hback : t + θ t - (s + θ s) ≤ 0 := by
      have hmul := mul_nonneg hminus.le (sub_nonneg.2 hts)
      linarith
    rw [max_eq_left (sub_nonpos.2 hts)]
    refine ⟨max_le le_rfl (hfloor.trans (div_nonpos_of_nonpos_of_nonneg (by linarith) hplus.le)), ?_⟩
    exact (div_nonneg hnonneg hminus.le).trans hceil

/-! ## Calibrations -/

theorem measured_ne_nil {summary : Dict} {validity measurement : Interval} {valid : List Readings} {invalid : Nat}
    (hok : measured eq summary validity valid invalid = .ok measurement) : valid ≠ [] := by
  rintro rfl
  cases hok

theorem calibration_index (hok : calibration eq clock verified = .ok cal) :
    cal.rawValid ≠ [] ∧ RawOffsetIndex.new cal.rawValid cal.rate.value = .ok cal.rawIndex := by
  unfold calibration at hok
  split at hok
  · cases hok
  · split at hok
    · split at hok
      · cases hok
      · split at hok
        · cases hok
        · obtain ⟨rate, -, hok⟩ := ok_of_bind hok
          obtain ⟨⟨hostError, guestError⟩, -, hok⟩ := ok_of_bind hok
          obtain ⟨raw, -, hok⟩ := ok_of_bind hok
          obtain ⟨checked, -, hok⟩ := ok_of_bind hok
          obtain ⟨measurement, hmeasured, hok⟩ := ok_of_bind hok
          obtain ⟨index, hindex, hok⟩ := ok_of_bind hok
          obtain ⟨-, -, hok⟩ := ok_of_bind hok
          obtain ⟨rawReference, -, hok⟩ := ok_of_bind hok
          obtain rfl := Except.ok.inj hok
          exact ⟨measured_ne_nil hmeasured, hindex⟩
    · cases hok

theorem receiptBounds_eq {h g : Int} {bounds : Interval} (hok : receiptBounds (.int h) (.int g) cal = .ok bounds) :
    ∃ interval, cal.rawIndex.bounds h cal.hostError = .ok interval ∧
      0 ≤ g - h - interval.1 + cal.hostError + cal.guestError ∧
      bounds = latency (g - h - interval.2 - cal.hostError - cal.guestError,
        g - h - interval.1 + cal.hostError + cal.guestError) cal.rate := by
  unfold receiptBounds at hok
  split at hok
  · cases hok
  · dsimp only [Python.Py.operand, bind, Except.bind] at hok
    split at hok
    · cases hok
    · split at hok
      · cases hok
      next interval heq =>
        split at hok
        · cases hok
        next hnonneg =>
          split at hok
          · cases hok
          · exact ⟨interval, heq, not_lt.1 hnonneg, (Except.ok.inj hok).symm⟩

theorem guestToHostBounds_eq {g h : Int} {bounds : Interval}
    (hok : guestToHostBounds (.int g) (.int h) cal = .ok bounds) :
    ∃ interval, cal.rawIndex.bounds h cal.hostError = .ok interval ∧
      0 ≤ h - g + interval.2 + cal.hostError + cal.guestError ∧
      bounds = latency (h - g + interval.1 - cal.hostError - cal.guestError,
        h - g + interval.2 + cal.hostError + cal.guestError) cal.rate := by
  unfold guestToHostBounds at hok
  split at hok
  · cases hok
  · dsimp only [Python.Py.operand, bind, Except.bind] at hok
    split at hok
    · cases hok
    · split at hok
      · cases hok
      next interval heq =>
        split at hok
        · cases hok
        next hnonneg =>
          split at hok
          · cases hok
          · exact ⟨interval, heq, not_lt.1 hnonneg, (Except.ok.inj hok).symm⟩

/-- The bounds have the true latencies: from the host to the guest, and back. -/
structure Encloses (θ : ℝ → ℝ) (cal : Cal) : Prop where
  receipt : ∀ h g bounds sent received, receiptBounds (.int h) (.int g) cal = .ok bounds →
    Within (cal.hostError : ℝ) h sent → Within (cal.guestError : ℝ) g (received + θ received) →
    Contains bounds (max 0 (received - sent))
  reverse : ∀ g h bounds committed arrived, guestToHostBounds (.int g) (.int h) cal = .ok bounds →
    Within (cal.guestError : ℝ) g (committed + θ committed) → Within (cal.hostError : ℝ) h arrived →
    Contains bounds (max 0 (arrived - committed))

theorem encloses (hok : calibration eq clock verified = .ok cal) (hθ : Drifts (cal.rate.value : ℝ) θ)
    (htrue : Truthful θ cal.rawValid) : Encloses θ cal := by
  obtain ⟨hne, hindex⟩ := calibration_index hok
  constructor
  · intro h g bounds sent received hbounds hsent hreceived
    obtain ⟨interval, hinterval, hnonneg, rfl⟩ := receiptBounds_eq hbounds
    obtain ⟨hlow, hhigh⟩ := bounds_contain hne hindex hθ htrue hsent hinterval
    refine latency_contains hθ sent received ⟨?_, ?_⟩ hnonneg
    all_goals
      push_cast
      linarith [hsent.le, hsent.ge, hreceived.le, hreceived.ge]
  · intro g h bounds committed arrived hbounds hcommitted harrived
    obtain ⟨interval, hinterval, hnonneg, rfl⟩ := guestToHostBounds_eq hbounds
    obtain ⟨hlow, hhigh⟩ := bounds_contain hne hindex hθ htrue harrived hinterval
    refine latency_contains hθ committed arrived ⟨?_, ?_⟩ hnonneg
    all_goals
      push_cast
      linarith [harrived.le, harrived.ge, hcommitted.le, hcommitted.ge]

/-- The bounds at a time are the exact intersection of what all samples say, rounded outward, and fail when that leaves
nothing; and the latencies that they give are true. -/
theorem probe_bounds :
    (∀ (samples : List Readings) (rate : Rate), samples ≠ [] → ∃ index,
      RawOffsetIndex.new samples rate.value = .ok index ∧
      ∀ h error, ∃ low high, Intersection samples rate.value h error low high ∧
        scan samples rate.value h error false = some ⌊low⌋ ∧ scan samples rate.value h error true = some ⌈high⌉ ∧
        index.bounds h error = if ⌈high⌉ < ⌊low⌋ then .error inconsistent else .ok (⌊low⌋, ⌈high⌉)) ∧
    ∀ eq clock verified cal, calibration eq clock verified = .ok cal →
      (cal.rawValid ≠ [] ∧ RawOffsetIndex.new cal.rawValid cal.rate.value = .ok cal.rawIndex) ∧
      ∀ θ, Drifts (cal.rate.value : ℝ) θ → Truthful θ cal.rawValid → Encloses θ cal :=
  ⟨fun _ rate hne => bounds_eq rate.value hne,
    fun _ _ _ _ hok => ⟨calibration_index hok, fun _ hθ htrue => encloses hok hθ htrue⟩⟩

/-! ## Clocks -/

/-- An exchange that takes no time. -/
def instant (seq : Nat) (host guest : Int) : Py :=
  .dict [("seq", .int seq), ("host_send_ns", .int host), ("host_recv_ns", .int host), ("guest_recv_ns", .int guest),
    ("guest_send_ns", .int guest), ("host_send_error_ns", .int 0), ("host_recv_error_ns", .int 0),
    ("guest_error_ns", .int 0), ("rtt_ns", .int 0), ("guest_processing_ns", .int 0),
    ("raw_offset_interval_ns", .list [.int (guest - host), .int (guest - host)]), ("anchor_host_ns", .int host)]

def guestClock : Dict :=
  [("clock", .str "guest_monotonic"), ("clock_error_ns", .int 0), ("server_id", .str "guest")]

def clockOf (offset : Int) (samples : List Py) : Dict :=
  [("schema", .int 1), ("kind", .str "clock_offset_calibration"), ("usable", .bool true), ("errors", .list []),
    ("offset_sign", .str "guest_monotonic_ns minus host_ca_ns"),
    ("host", .dict [("clock", .str "host_ca"), ("timestamp_error_budget_ns", .int 0)]),
    ("guest", .dict guestClock),
    ("summary", .dict [("consistent", .bool true), ("valid_samples", .int 100), ("reference_host_ns", .int 0),
      ("offset_interval_ns", .list [.int offset, .int offset]),
      ("conditional_valid_host_interval_ns", .list [.int 0, .int 30000]),
      ("assumed_max_abs_offset_drift_ppm", .int 100)]),
    ("samples", .list samples)]

/-- The guest's clock is five nanoseconds ahead, and gains one in 20 microseconds. -/
def drifting : Dict := clockOf 5 ((List.range 99).map (instant · 0 5) ++ [instant 99 20000 20006])

def settled : Readings := ⟨0, 5, 5, 0, 0, 0, 0⟩

def drifted : Readings := ⟨20000, 20006, 20006, 20000, 0, 0, 0⟩

/-- The guest's clock is one nanosecond ahead in the last sample, one nanosecond after the others. -/
def jumping : Dict := clockOf 0 ((List.range 99).map (instant · 0 0) ++ [instant 99 1 2])

def zeroReadings : Readings := ⟨0, 0, 0, 0, 0, 0, 0⟩

def jumped : Readings := ⟨1, 2, 2, 1, 0, 0, 0⟩

/-- A run of a calibration and a computation with it. -/
def passes (clock : Dict) (p : Cal → Bool) : Bool :=
  match calibration (fun _ _ => false) clock true with
  | .ok cal => p cal
  | .error _ => false

theorem exists_of_passes {clock : Dict} {p : Cal → Bool} (hp : passes clock p = true) :
    ∃ cal, calibration (fun _ _ => false) clock true = .ok cal ∧ p cal = true := by
  unfold passes at hp
  split at hp
  next cal hcal => exact ⟨cal, hcal, hp⟩
  next => cases hp

/-- The result of a computation. -/
def gives (result : Except PyError Interval) (interval : Interval) : Bool :=
  match result with
  | .ok i => decide (i = interval)
  | .error _ => false

theorem eq_of_gives {result : Except PyError Interval} {interval : Interval} (hr : gives result interval = true) :
    result = .ok interval := by
  unfold gives at hr
  split at hr
  next => exact congrArg Except.ok (of_decide_eq_true hr)
  next => cases hr

theorem calibration_drifting : ∃ cal, calibration (fun _ _ => false) drifting true = .ok cal ∧
    (cal.hostError = 0 ∧ cal.guestError = 0 ∧ cal.rate.value = 1 / 10000) ∧
    (∀ s ∈ cal.rawValid, s = settled ∨ s = drifted) ∧
    receiptBounds (.int 0) (.int 20006) cal = .ok (19999, 20004) := by
  have hrun : passes drifting (fun cal => decide (cal.hostError = 0 ∧ cal.guestError = 0 ∧ cal.rate.value = 1 / 10000) &&
      cal.rawValid.all (fun s => decide (s = settled ∨ s = drifted)) &&
      gives (receiptBounds (.int 0) (.int 20006) cal) (19999, 20004)) = true := by
    decide +kernel
  obtain ⟨cal, hcal, hp⟩ := exists_of_passes hrun
  rw [Bool.and_eq_true, Bool.and_eq_true, decide_eq_true_eq, List.all_eq_true] at hp
  exact ⟨cal, hcal, hp.1.1, fun s hs => of_decide_eq_true (hp.1.2 s hs), eq_of_gives hp.2⟩

/-- An input at 0, received after 20 microseconds. -/
theorem probe_bounds_drifting : ∃ cal, calibration (fun _ _ => false) drifting true = .ok cal ∧
    receiptBounds (.int 0) (.int 20006) cal = .ok (19999, 20004) ∧ Contains (19999, 20004) (max 0 (20000 - 0)) := by
  obtain ⟨cal, hcal, ⟨hhost, hguest, hrate⟩, hsamples, hbounds⟩ := calibration_drifting
  have htrue : Truthful (fun t => 5 + t / 20000) cal.rawValid := by
    intro s hs
    rcases hsamples s hs with rfl | rfl
    · refine ⟨⟨⟨0, 0, 0, 0, le_rfl, le_rfl, le_rfl⟩, 0, settled, ?_, ?_, ?_, ?_⟩, rfl⟩
      all_goals norm_num [Within, settled]
    · refine ⟨⟨⟨20000, 20000, 20000, 20000, le_rfl, le_rfl, le_rfl⟩, 0, drifted, ?_, ?_, ?_, ?_⟩, rfl⟩
      all_goals norm_num [Within, drifted]
  have hdrifts : Drifts (cal.rate.value : ℝ) fun t => 5 + t / 20000 := fun s t => by
    have hgain : 5 + t / 20000 - (5 + s / 20000) = 1 / 20000 * (t - s) := by ring
    have hnonneg := abs_nonneg (t - s)
    dsimp only
    rw [hgain, abs_mul, abs_of_pos (by norm_num), hrate]
    push_cast
    linarith
  have hencloses := (probe_bounds.2 _ _ _ cal hcal).2 _ hdrifts htrue
  refine ⟨cal, hcal, hbounds, hencloses.receipt 0 20006 _ 0 20000 hbounds ?_ ?_⟩
  · rw [hhost]
    norm_num [Within]
  · rw [hguest]
    norm_num [Within]

/-- No offset is in the exact intersection, and the rounded bounds do not fail. -/
theorem rounded_not_empty : ∃ cal low high, calibration (fun _ _ => false) jumping true = .ok cal ∧
    Intersection cal.rawValid cal.rate.value 0 0 low high ∧ high < low ∧ cal.rawIndex.bounds 0 0 = .ok (0, 0) := by
  have hrun : passes jumping (fun cal =>
      decide (zeroReadings ∈ cal.rawValid ∧ jumped ∈ cal.rawValid ∧ cal.rate.value = 1 / 10000) &&
        gives (cal.rawIndex.bounds 0 0) (0, 0)) = true := by decide +kernel
  obtain ⟨cal, hcal, hp⟩ := exists_of_passes hrun
  rw [Bool.and_eq_true, decide_eq_true_eq] at hp
  obtain ⟨⟨hzero, hjumped, hrate⟩, hbounds⟩ := hp
  obtain ⟨hne, hindex⟩ := calibration_index hcal
  obtain ⟨_, -, hspec⟩ := bounds_eq cal.rate.value hne
  obtain ⟨low, high, hinter, -⟩ := hspec 0 0
  refine ⟨cal, low, high, hcal, hinter, ?_, eq_of_gives hbounds⟩
  have hlow : constraint cal.rate.value 0 0 false jumped ≤ low := hinter.low.2 ⟨jumped, hjumped, rfl⟩
  have hhigh : high ≤ constraint cal.rate.value 0 0 true zeroReadings := hinter.high.2 ⟨zeroReadings, hzero, rfl⟩
  refine hhigh.trans_lt (lt_of_lt_of_le ?_ hlow)
  rw [hrate]
  decide +kernel

end CocoaWay.InputProbe
