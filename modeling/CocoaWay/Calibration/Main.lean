import CocoaWay.Calibration.Constraints
import CocoaWay.Lib.Fallible

/-!
# The calibration is sound

* `Valid`, `makeSample_ok` : a sample that counts, and that every exchange makes a sample;
* `Intersected`, `summarize_ok` : samples of exchanges have a summary, and what it says;
* `oneWayBounds_eq` : a sample that counts has bounds;
* `Sound`, `calibration_sound` : what the summary of truthful exchanges says.
-/

namespace CocoaWay.Calibration
open Lib Drift Python

variable {ppm : ℚ} {s : Sample} {samples : List Sample} {r : Readings}

/-! ## Samples -/

def Sample.ints (s : Sample) : Readings := s.readings.toOption.getD ⟨0, 0, 0, 0, 0, 0, 0⟩

theorem ints_of_readings (h : s.readings = .ok r) : s.ints = r := by
  unfold Sample.ints
  rw [h]
  rfl

def Readings.all (r : Readings) : List Int :=
  [r.hostSend, r.guestRecv, r.guestSend, r.hostRecv, r.hostSendError, r.hostRecvError, r.guestError]

def Readings.InRange (r : Readings) : Prop := ∀ n ∈ r.all, 0 ≤ n ∧ n < 2 ^ 64

/-- A sample that counts. -/
structure Valid (s : Sample) : Prop where
  readings : s.readings = .ok s.ints
  inRange : s.ints.InRange
  host : s.ints.hostSend ≤ s.ints.hostRecv
  guest : s.ints.guestRecv ≤ s.ints.guestSend
  rtt : s.rtt = some (s.ints.hostRecv - s.ints.hostSend)
  anchor : s.anchorHost = some ((s.ints.hostSend + s.ints.hostRecv) / 2)

theorem Valid.ordered (h : Valid s) : s.ints.Ordered where
  host := h.host
  guest := h.guest
  hostSendError := (h.inRange _ (by simp [Readings.all])).1
  hostRecvError := (h.inRange _ (by simp [Readings.all])).1
  guestError := (h.inRange _ (by simp [Readings.all])).1

/-- The exchange with these readings. -/
def Readings.exchanged (r : Readings) (seq : Nat) : Exchanged where
  seq := seq
  hostSend := .int r.hostSend
  guestRecv := .int r.guestRecv
  guestSend := .int r.guestSend
  hostRecv := .int r.hostRecv
  hostSendError := .int r.hostSendError
  hostRecvError := .int r.hostRecvError
  guestError := .int r.guestError

theorem exchanged_readings (r : Readings) (seq : Nat) : (r.exchanged seq).sample.readings = .ok r := rfl

theorem values_exchanged (r : Readings) (seq : Nat) : (r.exchanged seq).values = r.all.map .int := rfl

theorem values_all_iff {e : Exchanged} :
    e.values.all Py.isU64 = true ↔ ∃ r : Readings, r.InRange ∧ e = r.exchanged e.seq := by
  constructor
  · intro hall
    have hint : ∀ v ∈ e.values, ∃ n : Int, v = .int n ∧ 0 ≤ n ∧ n < 2 ^ 64 := fun v hv =>
      Py.isU64_iff.1 (List.all_eq_true.1 hall v hv)
    obtain ⟨seq, v0, v1, v2, v3, w0, w3, wg⟩ := e
    obtain ⟨h0, rfl, hh0⟩ := hint v0 (by simp [Exchanged.values])
    obtain ⟨g1, rfl, hg1⟩ := hint v1 (by simp [Exchanged.values])
    obtain ⟨g2, rfl, hg2⟩ := hint v2 (by simp [Exchanged.values])
    obtain ⟨h3, rfl, hh3⟩ := hint v3 (by simp [Exchanged.values])
    obtain ⟨e0, rfl, he0⟩ := hint w0 (by simp [Exchanged.values])
    obtain ⟨e3, rfl, he3⟩ := hint w3 (by simp [Exchanged.values])
    obtain ⟨eg, rfl, heg⟩ := hint wg (by simp [Exchanged.values])
    refine ⟨⟨h0, g1, g2, h3, e0, e3, eg⟩, ?_, rfl⟩
    simpa [Readings.InRange, Readings.all] using ⟨hh0, hg1, hg2, hh3, he0, he3, heg⟩
  · rintro ⟨r, hr, heq⟩
    rw [heq, values_exchanged, List.all_map, List.all_eq_true]
    intro n hn
    exact Py.isU64_iff.2 ⟨n, rfl, hr n hn⟩

theorem rtt_exchanged (hr : r.InRange) (hle : r.hostSend ≤ r.hostRecv) (seq : Nat) :
    (r.exchanged seq).rtt = some (r.hostRecv - r.hostSend) := by
  have hsend : (Py.int r.hostSend).isU64 = true := Py.isU64_iff.2 ⟨_, rfl, hr _ (by simp [Readings.all])⟩
  have hrecv : (Py.int r.hostRecv).isU64 = true := Py.isU64_iff.2 ⟨_, rfl, hr _ (by simp [Readings.all])⟩
  unfold Exchanged.rtt Readings.exchanged
  dsimp only
  rw [hsend, hrecv, decide_eq_true hle]
  rfl

theorem rtt_eq_some {n : Int} {seq : Nat} (h : (r.exchanged seq).rtt = some n) : n = r.hostRecv - r.hostSend := by
  unfold Exchanged.rtt Readings.exchanged at h
  dsimp only at h
  split at h
  · exact (Option.some.inj h).symm
  · cases h

/-- Every exchange makes a sample, with the readings it was given. -/
theorem exists_makeSample (e : Exchanged) (ppm : ℚ) : ∃ s, makeSample e ppm = .ok s ∧
    s.readings = e.sample.readings ∧ s.rtt = e.rtt ∧ (s.isValid = true → Valid s) := by
  by_cases hall : e.values.all Py.isU64 = true
  · obtain ⟨r, hr, heq⟩ := values_all_iff.1 hall
    generalize e.seq = seq at heq
    subst heq
    have hmake : makeSample (r.exchanged seq) ppm =
        if r.hostRecv < r.hostSend ∨ r.guestSend < r.guestRecv then
          .ok { (r.exchanged seq).sample with invalid := some "reversed same-clock timestamps" }
        else if r.guestRecv - r.hostSend < r.guestSend - r.hostRecv then
          .ok { (r.exchanged seq).sample with
            guestProcessing := some (r.guestSend - r.guestRecv)
            rawOffsetInterval := some (r.guestSend - r.hostRecv, r.guestRecv - r.hostSend)
            invalid := some "invalid raw offset interval (guest processing exceeds host RTT)" }
        else
          .ok { (r.exchanged seq).sample with
            guestProcessing := some (r.guestSend - r.guestRecv)
            rawOffsetInterval := some (r.guestSend - r.hostRecv, r.guestRecv - r.hostSend)
            anchorHost := some ((r.hostSend + r.hostRecv) / 2)
            offsetIntervalAtAnchor := some (r.offsetInterval ((r.hostSend + r.hostRecv) / 2) ppm) } := by
      unfold makeSample
      dsimp only
      rw [if_neg (by simpa using hall)]
      rfl
    rw [hmake]
    by_cases hreversed : r.hostRecv < r.hostSend ∨ r.guestSend < r.guestRecv
    · rw [if_pos hreversed]
      exact ⟨_, rfl, rfl, rfl, nofun⟩
    · rw [if_neg hreversed]
      by_cases hraw : r.guestRecv - r.hostSend < r.guestSend - r.hostRecv
      · rw [if_pos hraw]
        exact ⟨_, rfl, rfl, rfl, nofun⟩
      · rw [if_neg hraw]
        have hle : r.hostSend ≤ r.hostRecv := by omega
        have hguest : r.guestRecv ≤ r.guestSend := by omega
        exact ⟨_, rfl, rfl, rfl, fun _ => ⟨rfl, hr, hle, hguest,
          rtt_exchanged hr hle seq, rfl⟩⟩
  · refine ⟨{ e.sample with invalid := some "non-u64 timestamp/error" }, ?_, rfl, rfl, nofun⟩
    unfold makeSample
    dsimp only
    rw [if_pos (by simpa using hall)]

def Exchanged.made (e : Exchanged) (ppm : ℚ) : Sample := (makeSample e ppm).toOption.getD e.sample

theorem makeSample_ok (e : Exchanged) (ppm : ℚ) : makeSample e ppm = .ok (e.made ppm) ∧
    (e.made ppm).readings = e.sample.readings ∧ (e.made ppm).rtt = e.rtt ∧
      ((e.made ppm).isValid = true → Valid (e.made ppm)) := by
  obtain ⟨s, hs, hmade⟩ := exists_makeSample e ppm
  have heq : e.made ppm = s := by
    unfold Exchanged.made
    rw [hs]
    rfl
  rw [heq]
  exact ⟨hs, hmade⟩

/-! ## Ranges -/

theorem driftNs_le (hlt : ppm < 1000000) (d : Int) : driftNs d ppm ≤ |d| := by
  rw [driftNs_eq]
  refine Int.ceil_le.2 ?_
  push_cast
  have hrate : ppm / 1000000 ≤ 1 := ((div_lt_one (by norm_num)).2 hlt).le
  exact mul_le_of_le_one_right (abs_nonneg _) hrate

variable {interval : Interval} {reference : Int} {values : List Int}

theorem offsetInterval_range (h : 0 ≤ ppm) (hlt : ppm < 1000000) (hr : r.InRange)
    (href : 0 ≤ reference ∧ reference < 2 ^ 64) :
    |(r.offsetInterval reference ppm).1| < 2 ^ 67 ∧ |(r.offsetInterval reference ppm).2| < 2 ^ 67 := by
  have hsend := driftNs_le hlt (|reference - r.hostSend| + r.hostSendError)
  have hrecv := driftNs_le hlt (|reference - r.hostRecv| + r.hostRecvError)
  have hsend' := driftNs_nonneg h (|reference - r.hostSend| + r.hostSendError)
  have hrecv' := driftNs_nonneg h (|reference - r.hostRecv| + r.hostRecvError)
  simp only [Readings.InRange, Readings.all, List.mem_cons, List.not_mem_nil, or_false, forall_eq_or_imp,
    forall_eq] at hr
  obtain ⟨h0, h1, h2, h3, h4, h5, h6⟩ := hr
  simp only [Readings.offsetInterval]
  generalize driftNs (|reference - r.hostSend| + r.hostSendError) ppm = driftSend at *
  generalize driftNs (|reference - r.hostRecv| + r.hostRecvError) ppm = driftRecv at *
  constructor <;> rw [abs_lt] <;> grind

theorem trueDivide_ok {a b : Int} (ha : |a| < 2 ^ 100) (hb : 0 < b) : trueDivide a b = .ok ((a : ℚ) / b) := by
  have hone : (1 : ℚ) ≤ b := by exact_mod_cast hb
  have hle : |(a : ℚ) / b| ≤ |(a : ℚ)| := by
    rw [abs_div, abs_of_pos (by linarith : (0 : ℚ) < b)]
    exact div_le_self (abs_nonneg _) hone
  have ha : |(a : ℚ)| < 2 ^ 100 := by exact_mod_cast ha
  have hbig : (2 : ℚ) ^ 100 ≤ 2 ^ 1024 - 2 ^ 970 := by
    have hsub : ∀ big : ℚ, 2 ^ 100 ≤ big → 2 ^ 100 ≤ 2 ^ 54 * big - big := fun big hle => by
      norm_num at hle ⊢
      linarith
    have hpow : (2 : ℚ) ^ 1024 = 2 ^ 54 * 2 ^ 970 := by rw [← pow_add]
    rw [hpow]
    exact hsub _ (pow_le_pow_right₀ (by norm_num) (by norm_num))
  unfold trueDivide
  rw [if_neg hb.ne', if_neg (not_le.2 (hle.trans_lt (ha.trans_le hbig)))]

def anchorOf (r : Readings) : Int := (r.hostSend + r.hostRecv) / 2

theorem anchorOf_range (h : Valid s) : 0 ≤ anchorOf s.ints ∧ anchorOf s.ints < 2 ^ 64 := by
  have hsend := h.inRange s.ints.hostSend (by simp [Readings.all])
  have hrecv := h.inRange s.ints.hostRecv (by simp [Readings.all])
  unfold anchorOf
  omega

theorem observedDrift_ok (h : 0 ≤ ppm) (hlt : ppm < 1000000) {first last : Sample} (hfirst : Valid first)
    (hlast : Valid last)
    (hfirstInterval : first.offsetIntervalAtAnchor = some (first.ints.offsetInterval (anchorOf first.ints) ppm))
    (hlastInterval : last.offsetIntervalAtAnchor = some (last.ints.offsetInterval (anchorOf last.ints) ppm)) :
    ∃ x, observedDrift first last = .ok x := by
  have ha := offsetInterval_range h hlt hfirst.inRange (anchorOf_range hfirst)
  have hb := offsetInterval_range h hlt hlast.inRange (anchorOf_range hlast)
  unfold observedDrift
  rw [hfirst.anchor, hlast.anchor, hfirstInterval, hlastInterval]
  generalize first.ints.offsetInterval (anchorOf first.ints) ppm = a at *
  generalize last.ints.offsetInterval (anchorOf last.ints) ppm = b at *
  generalize (first.ints.hostSend + first.ints.hostRecv) / 2 = firstAnchor
  generalize (last.ints.hostSend + last.ints.hostRecv) / 2 = lastAnchor
  by_cases helapsed : 0 < lastAnchor - firstAnchor
  · have hlow : |(b.1 - a.2) * 1000000| < 2 ^ 100 := by grind [abs_lt]
    have hhigh : |(b.2 - a.1) * 1000000| < 2 ^ 100 := by grind [abs_lt]
    refine ⟨some (((b.1 - a.2) * 1000000 : Int) / (lastAnchor - firstAnchor : Int),
      ((b.2 - a.1) * 1000000 : Int) / (lastAnchor - firstAnchor : Int)), ?_⟩
    show (if 0 < lastAnchor - firstAnchor then do
      let low ← trueDivide ((b.1 - a.2) * 1000000) (lastAnchor - firstAnchor)
      let high ← trueDivide ((b.2 - a.1) * 1000000) (lastAnchor - firstAnchor)
      return some (low, high) else return none) = _
    rw [if_pos helapsed, trueDivide_ok hlow helapsed, trueDivide_ok hhigh helapsed]
    rfl
  · refine ⟨none, ?_⟩
    simp only [field]
    show (if 0 < lastAnchor - firstAnchor then _ else _) = _
    rw [if_neg helapsed]
    rfl

/-! ## The summary -/

theorem least_ok (h : values ≠ []) : ∃ m ∈ values, least values = .ok m ∧ ∀ n ∈ values, m ≤ n := by
  unfold least
  cases hmin : values.min? with
  | none => exact absurd (List.min?_eq_none_iff.1 hmin) h
  | some m =>
    obtain ⟨hmem, hle⟩ := List.min?_eq_some_iff.1 hmin
    exact ⟨m, hmem, rfl, hle⟩

theorem greatest_ok (h : values ≠ []) : ∃ m ∈ values, greatest values = .ok m ∧ ∀ n ∈ values, n ≤ m := by
  unfold greatest
  cases hmax : values.max? with
  | none => exact absurd (List.max?_eq_none_iff.1 hmax) h
  | some m =>
    obtain ⟨hmem, hle⟩ := List.max?_eq_some_iff.1 hmax
    exact ⟨m, hmem, rfl, hle⟩

theorem quantile_ok {p : ℚ} (h : values ≠ []) (hp : p ≤ 1) :
    ∃ x, quantile values p = .ok x ∧ ranked values p = some x := by
  obtain ⟨x, _, hx⟩ := exists_ranked h hp
  refine ⟨x, ?_, hx⟩
  unfold quantile
  rw [hx]

theorem quantiles_ok (h : values ≠ []) : ∃ q, quantiles values = .ok (some q) ∧
    ranked values (1 / 2) = some q.p50 ∧ ranked values (19 / 20) = some q.p95 ∧
      ranked values (99 / 100) = some q.p99 := by
  obtain ⟨x, hx, hx'⟩ := quantile_ok (p := 1 / 2) h (by norm_num)
  obtain ⟨y, hy, hy'⟩ := quantile_ok (p := 19 / 20) h (by norm_num)
  obtain ⟨z, hz, hz'⟩ := quantile_ok (p := 99 / 100) h (by norm_num)
  refine ⟨⟨x, y, z⟩, ?_, hx', hy', hz'⟩
  unfold quantiles
  rw [if_neg (by simpa using h), hx, hy, hz]
  rfl

/-- The quantiles, and the interval of each. -/
def QuantileBounds.pairs (q : QuantileBounds) : List (ℚ × Interval) :=
  [(1 / 2, q.p50), (19 / 20, q.p95), (99 / 100, q.p99)]

def RanksOf (bounds : List Interval) (q : QuantileBounds) : Prop := ∀ p ∈ q.pairs,
  ranked (bounds.map Prod.fst) p.1 = some p.2.1 ∧ ranked (bounds.map Prod.snd) p.1 = some p.2.2

theorem quantileBounds_ok {bounds : List Interval} (h : bounds ≠ []) :
    ∃ q, quantileBounds bounds = .ok (some q) ∧ RanksOf bounds q := by
  have hfst : bounds.map Prod.fst ≠ [] := List.map_eq_nil_iff.not.2 h
  have hsnd : bounds.map Prod.snd ≠ [] := List.map_eq_nil_iff.not.2 h
  obtain ⟨lows, hlows, hl50, hl95, hl99⟩ := quantiles_ok hfst
  obtain ⟨highs, hhighs, hh50, hh95, hh99⟩ := quantiles_ok hsnd
  refine ⟨⟨(lows.p50, highs.p50), (lows.p95, highs.p95), (lows.p99, highs.p99)⟩, ?_, ?_⟩
  · unfold quantileBounds
    rw [hlows, hhighs]
    rfl
  · intro p hp
    simp only [QuantileBounds.pairs, List.mem_cons, List.not_mem_nil, or_false] at hp
    obtain rfl | rfl | rfl := hp
    · exact ⟨hl50, hh50⟩
    · exact ⟨hl95, hh95⟩
    · exact ⟨hl99, hh99⟩

theorem overValid_ok {f : Sample → Except PyError Sample} {g : Sample → Sample}
    (h : ∀ s ∈ samples, s.isValid = true → f s = .ok (g s)) :
    overValid f samples = .ok (samples.map fun s => if s.isValid then g s else s) := by
  refine mapM_ok fun s hs => ?_
  by_cases hvalid : s.isValid = true
  · rw [if_pos hvalid, if_pos hvalid, h s hs hvalid]
  · rw [if_neg hvalid, if_neg hvalid]

/-- A sample after the first loops. -/
def Sample.anchored (ppm : ℚ) (s : Sample) : Sample :=
  let s : Sample := { s with oneWayBounds := none }
  if s.isValid then { s with offsetIntervalAtAnchor := some (s.ints.offsetInterval (anchorOf s.ints) ppm) } else s

/-- A sample after all loops. -/
def Sample.finished (ppm : ℚ) (interval : Interval) (reference : Int) (s : Sample) : Sample :=
  let s := s.anchored ppm
  if s.isValid then { s with oneWayBounds := some (s.ints.bounds interval reference ppm) } else s

@[simp] theorem isValid_anchored (s : Sample) : (s.anchored ppm).isValid = s.isValid := by
  unfold Sample.anchored
  dsimp only
  split <;> rfl

@[simp] theorem readings_anchored (s : Sample) : (s.anchored ppm).readings = s.readings := by
  unfold Sample.anchored
  dsimp only
  split <;> rfl

@[simp] theorem ints_anchored (s : Sample) : (s.anchored ppm).ints = s.ints := by
  unfold Sample.ints
  rw [readings_anchored]

@[simp] theorem rtt_anchored (s : Sample) : (s.anchored ppm).rtt = s.rtt := by
  unfold Sample.anchored
  dsimp only
  split <;> rfl

@[simp] theorem anchorHost_anchored (s : Sample) : (s.anchored ppm).anchorHost = s.anchorHost := by
  unfold Sample.anchored
  dsimp only
  split <;> rfl

theorem Valid.anchored (h : Valid s) : Valid (s.anchored ppm) where
  readings := by simpa using h.readings
  inRange := by simpa using h.inRange
  host := by simpa using h.host
  guest := by simpa using h.guest
  rtt := by simpa using h.rtt
  anchor := by simpa using h.anchor

theorem offsetInterval_of_valid (h : Valid s) (reference : Int) (ppm : ℚ) :
    offsetInterval s reference ppm = .ok (s.ints.offsetInterval reference ppm) := by
  unfold offsetInterval
  rw [h.readings]
  rfl

theorem atAnchor_ok (h : Valid s) : atAnchor ppm s =
    .ok { s with offsetIntervalAtAnchor := some (s.ints.offsetInterval (anchorOf s.ints) ppm) } := by
  unfold atAnchor
  rw [h.anchor]
  show (offsetInterval s (anchorOf s.ints) ppm >>= fun _ => _) = _
  rw [offsetInterval_of_valid h]
  rfl

theorem overValid_anchored (hmade : ∀ s ∈ samples, s.isValid = true → Valid s) :
    overValid (atAnchor ppm) (samples.map fun s => { s with oneWayBounds := none }) =
      .ok (samples.map (·.anchored ppm)) := by
  rw [overValid_ok (g := fun s =>
    { s with offsetIntervalAtAnchor := some (s.ints.offsetInterval (anchorOf s.ints) ppm) }),
    List.map_map]
  · rfl
  · intro s hs hvalid
    obtain ⟨s, hmem, rfl⟩ := List.mem_map.1 hs
    have hs := hmade s hmem hvalid
    exact atAnchor_ok ⟨hs.readings, hs.inRange, hs.host, hs.guest, hs.rtt, hs.anchor⟩

/-- The bounds of a sample with a round-trip time. -/
theorem oneWayBounds_eq (hreadings : s.readings = .ok r) (hrtt : s.rtt = some (r.hostRecv - r.hostSend))
    (h : (r.bounds interval reference ppm).hostToGuest.1 ≤ (r.bounds interval reference ppm).hostToGuest.2 ∧
      (r.bounds interval reference ppm).guestToHost.1 ≤ (r.bounds interval reference ppm).guestToHost.2) :
    oneWayBounds s interval reference ppm = .ok (r.bounds interval reference ppm) := by
  have hchecked : oneWayBounds s interval reference ppm =
      if (r.bounds interval reference ppm).hostToGuest.2 < (r.bounds interval reference ppm).hostToGuest.1 ∨
          (r.bounds interval reference ppm).guestToHost.2 < (r.bounds interval reference ppm).guestToHost.1 then
        .error (.valueError "calibrated one-way interval is empty")
      else .ok (r.bounds interval reference ppm) := by
    unfold oneWayBounds
    rw [hreadings, hrtt]
    rfl
  rw [hchecked, if_neg (by omega)]

/-- What the summary says, when samples count. -/
structure Intersected (ppm : ℚ) (samples : List Sample) (summary : Summary) (finished : List Sample) (reference : Int)
    (interval : Interval) : Prop where
  referenceHost : summary.referenceHost = some reference
  offset : summary.offsetInterval = some interval
  lower : ∃ s ∈ samples, s.isValid = true ∧ interval.1 = (s.ints.offsetInterval reference ppm).1
  upper : ∃ s ∈ samples, s.isValid = true ∧ interval.2 = (s.ints.offsetInterval reference ppm).2
  consistent : summary.consistent = decide (interval.1 ≤ interval.2)
  finished : interval.1 ≤ interval.2 → finished = samples.map (·.finished ppm interval reference)
  quantiles : interval.1 ≤ interval.2 → ∃ forward backward, summary.hostToGuest = some forward ∧
    summary.guestToHost = some backward ∧
      RanksOf ((samples.filter Sample.isValid).map fun s =>
        (s.ints.bounds interval reference ppm).hostToGuest) forward ∧
      RanksOf ((samples.filter Sample.isValid).map fun s => (s.ints.bounds interval reference ppm).guestToHost) backward

theorem filter_anchored (samples : List Sample) :
    (samples.map (·.anchored ppm)).filter Sample.isValid = (samples.filter Sample.isValid).map (·.anchored ppm) := by
  rw [List.filter_map]
  congr 1
  exact List.filter_congr fun s _ => isValid_anchored s

theorem offsetIntervalAtAnchor_anchored (h : s.isValid = true) :
    (s.anchored ppm).offsetIntervalAtAnchor = some (s.ints.offsetInterval (anchorOf s.ints) ppm) := by
  unfold Sample.anchored
  dsimp only
  split
  · rfl
  · exact absurd h ‹_›

theorem overValid_finished (h : 0 ≤ ppm)
    (hmade : ∀ s ∈ samples, s.isValid = true → Valid s) (hinterval : interval.1 ≤ interval.2)
    (hwithin : ∀ s ∈ samples, s.isValid = true → (s.ints.offsetInterval reference ppm).1 ≤ interval.1 ∧
      interval.2 ≤ (s.ints.offsetInterval reference ppm).2) :
    overValid (withBounds ppm interval reference) (samples.map (·.anchored ppm)) =
      .ok (samples.map (·.finished ppm interval reference)) := by
  rw [overValid_ok (g := fun s => { s with oneWayBounds := some (s.ints.bounds interval reference ppm) }), List.map_map]
  · refine congrArg Except.ok (List.map_congr_left fun s _ => ?_)
    simp only [Function.comp, Sample.finished, ints_anchored]
  · intro s hs hvalid
    obtain ⟨s, hmem, rfl⟩ := List.mem_map.1 hs
    rw [isValid_anchored] at hvalid
    have hs := hmade s hmem hvalid
    obtain ⟨hlow, hhigh⟩ := hwithin s hmem hvalid
    unfold withBounds
    rw [oneWayBounds_eq (r := s.ints) (by simpa using hs.readings) (by simpa using hs.rtt)
      (bounds_nonempty h hs.ordered hinterval hlow hhigh), ints_anchored]
    rfl

theorem finished_bounds (h : s.isValid = true) :
    (s.finished ppm interval reference).oneWayBounds = some (s.ints.bounds interval reference ppm) := by
  unfold Sample.finished
  dsimp only
  rw [if_pos (by simpa using h), ints_anchored]

theorem isValid_finished (s : Sample) : (s.finished ppm interval reference).isValid = s.isValid := by
  unfold Sample.finished
  dsimp only
  split
  · exact isValid_anchored s
  · exact isValid_anchored s

theorem bounds_finished (samples : List Sample) :
    (((samples.map (·.finished ppm interval reference)).filter Sample.isValid).filterMap (·.oneWayBounds)) =
      (samples.filter Sample.isValid).map fun s => s.ints.bounds interval reference ppm := by
  induction samples with
  | nil => rfl
  | cons s samples ih =>
    rw [List.map_cons, List.filter_cons, List.filter_cons, isValid_finished]
    by_cases hvalid : s.isValid = true
    · rw [if_pos hvalid, if_pos hvalid, List.filterMap_cons_some (finished_bounds hvalid), ih]
      rfl
    · rw [if_neg hvalid, if_neg hvalid, ih]

theorem mapM_readings (hmade : ∀ s ∈ samples, s.isValid = true → Valid s) :
    ((samples.map (·.anchored ppm)).filter Sample.isValid).mapM Sample.readings =
      .ok ((samples.filter Sample.isValid).map Sample.ints) := by
  rw [filter_anchored, mapM_ok (g := Sample.ints), List.map_map]
  · exact congrArg Except.ok (List.map_congr_left fun s _ => ints_anchored s)
  · intro s hs
    obtain ⟨s, hmem, rfl⟩ := List.mem_map.1 hs
    obtain ⟨hmem, hvalid⟩ := List.mem_filter.1 hmem
    exact (hmade s hmem hvalid).anchored.readings

theorem summarizeValid_ok (h : 0 ≤ ppm) (hmade : ∀ s ∈ samples, s.isValid = true → Valid s)
    (hne : samples.filter Sample.isValid ≠ []) (validFor : Int) (summary : Summary) {first last : Sample} {x}
    (hobserved : observedDrift first last = .ok x) : ∃ summary' finished reference interval,
      summarizeValid (samples.map (·.anchored ppm)) ppm validFor summary first last = .ok (summary', finished) ∧
        Intersected ppm samples summary' finished reference interval := by
  have hne' : ∀ f : Readings → Int, ((samples.filter Sample.isValid).map Sample.ints).map f ≠ [] := by simpa using hne
  obtain ⟨start, _, hstart, _⟩ := least_ok (hne' (·.hostSend))
  obtain ⟨stop, _, hstop, _⟩ := greatest_ok (hne' (·.hostRecv))
  obtain ⟨lower, hlowerMem, hlower, hlowers⟩ :=
    greatest_ok (hne' fun r => (r.offsetInterval ((start + stop) / 2) ppm).1)
  obtain ⟨upper, hupperMem, hupper, huppers⟩ := least_ok (hne' fun r => (r.offsetInterval ((start + stop) / 2) ppm).2)
  generalize hreference : (start + stop) / 2 = reference at *
  have hlow : ∃ s ∈ samples, s.isValid = true ∧ lower = (s.ints.offsetInterval reference ppm).1 := by
    obtain ⟨r, hr, rfl⟩ := List.mem_map.1 hlowerMem
    obtain ⟨s, hs, rfl⟩ := List.mem_map.1 hr
    exact ⟨s, (List.mem_filter.1 hs).1, (List.mem_filter.1 hs).2, rfl⟩
  have hupp : ∃ s ∈ samples, s.isValid = true ∧ upper = (s.ints.offsetInterval reference ppm).2 := by
    obtain ⟨r, hr, rfl⟩ := List.mem_map.1 hupperMem
    obtain ⟨s, hs, rfl⟩ := List.mem_map.1 hr
    exact ⟨s, (List.mem_filter.1 hs).1, (List.mem_filter.1 hs).2, rfl⟩
  have hwithin : ∀ s ∈ samples, s.isValid = true → (s.ints.offsetInterval reference ppm).1 ≤ lower ∧
      upper ≤ (s.ints.offsetInterval reference ppm).2 := fun s hs hvalid =>
    have hmem := List.mem_map_of_mem (f := Sample.ints) (List.mem_filter.2 ⟨hs, hvalid⟩)
    ⟨hlowers _ (List.mem_map_of_mem hmem), huppers _ (List.mem_map_of_mem hmem)⟩
  have hmapLow : (((samples.filter Sample.isValid).map Sample.ints).map fun r =>
    r.offsetInterval reference ppm).map Prod.fst =
      ((samples.filter Sample.isValid).map Sample.ints).map fun r => (r.offsetInterval reference ppm).1 := List.map_map
  have hmapHigh : (((samples.filter Sample.isValid).map Sample.ints).map fun r =>
    r.offsetInterval reference ppm).map Prod.snd =
      ((samples.filter Sample.isValid).map Sample.ints).map fun r => (r.offsetInterval reference ppm).2 := List.map_map
  unfold summarizeValid
  simp only [mapM_readings hmade, hstart, hstop, hreference, hmapLow, hmapHigh, hlower, hupper, hobserved, bind,
    Except.bind]
  by_cases hle : lower ≤ upper
  · rw [if_pos hle, overValid_finished h hmade hle hwithin]
    dsimp only
    rw [bounds_finished, List.map_map, List.map_map]
    have hbounds : ∀ f : Sample → Interval, (samples.filter Sample.isValid).map f ≠ [] := by simpa using hne
    obtain ⟨forward, hforward, hforwardRanks⟩ := quantileBounds_ok
      (hbounds (Bounds.hostToGuest ∘ fun s => s.ints.bounds (lower, upper) reference ppm))
    obtain ⟨backward, hbackward, hbackwardRanks⟩ := quantileBounds_ok
      (hbounds (Bounds.guestToHost ∘ fun s => s.ints.bounds (lower, upper) reference ppm))
    rw [hforward, hbackward]
    exact ⟨_, _, reference, (lower, upper), rfl, rfl, rfl, hlow, hupp, rfl, fun _ => rfl, fun _ =>
      ⟨forward, backward, rfl, rfl, hforwardRanks, hbackwardRanks⟩⟩
  · rw [if_neg hle]
    exact ⟨_, _, reference, (lower, upper), rfl, rfl, rfl, hlow, hupp, rfl, fun hle' => absurd hle' hle,
      fun hle' => absurd hle' hle⟩

theorem quantiles_some (values : List Int) : ∃ q, quantiles values = .ok q := by
  by_cases h : values = []
  · refine ⟨none, ?_⟩
    rw [h]
    rfl
  · obtain ⟨q, hq, _⟩ := quantiles_ok h
    exact ⟨some q, hq⟩

/-- Samples of `make_sample` have a summary, whether they are truthful or not. -/
theorem summarize_ok (h : 0 ≤ ppm) (hlt : ppm < 1000000) (hmade : ∀ s ∈ samples, s.isValid = true → Valid s)
    (validFor : Int) : ∃ summary finished, summarize samples ppm validFor = .ok (summary, finished) ∧
      (samples.filter Sample.isValid ≠ [] → ∃ reference interval,
        Intersected ppm samples summary finished reference interval) := by
  obtain ⟨rtt, hrtt⟩ := quantiles_some ((samples.map (·.anchored ppm)).filterMap (·.rtt))
  unfold summarize
  simp only [overValid_anchored hmade, hrtt, bind, Except.bind]
  rw [filter_anchored]
  by_cases hne : samples.filter Sample.isValid = []
  · rw [hne]
    exact ⟨_, _, rfl, fun hcontra => absurd rfl hcontra⟩
  · have hcounted : ∀ s ∈ samples.filter Sample.isValid, Valid (s.anchored ppm) ∧
        (s.anchored ppm).offsetIntervalAtAnchor =
          some ((s.anchored ppm).ints.offsetInterval (anchorOf (s.anchored ppm).ints) ppm) := fun s hs => by
      obtain ⟨hmem, hvalid⟩ := List.mem_filter.1 hs
      rw [offsetIntervalAtAnchor_anchored hvalid, ints_anchored]
      exact ⟨(hmade s hmem hvalid).anchored, rfl⟩
    rw [List.head?_map, List.getLast?_map, List.head?_eq_some_head hne, List.getLast?_eq_some_getLast hne]
    obtain ⟨hfirst, hfirstInterval⟩ := hcounted _ (List.head_mem hne)
    obtain ⟨hlast, hlastInterval⟩ := hcounted _ (List.getLast_mem hne)
    obtain ⟨x, hobserved⟩ := observedDrift_ok h hlt hfirst hlast hfirstInterval hlastInterval
    dsimp only [Option.map]
    obtain ⟨summary, finished, reference, interval, hok, hintersected⟩ :=
      summarizeValid_ok h hmade hne validFor _ hobserved
    exact ⟨summary, finished, hok, fun _ => ⟨reference, interval, hintersected⟩⟩

/-! ## The main theorem -/

variable {θ : ℝ → ℝ}

/-- The samples of the exchanges, and their summary, as the client makes them. -/
def calibrate (exchanges : List Exchanged) (ppm : ℚ) (validFor : Int) : Except PyError (Summary × List Sample) := do
  summarize (← exchanges.mapM fun e => makeSample e ppm) ppm validFor

def Observed.exchanged (e : Observed θ) : Exchanged := e.readings.exchanged e.seq

noncomputable def Observed.forwardDelay (e : Observed θ) : ℝ := e.times.received - e.times.sent

noncomputable def Observed.reverseDelay (e : Observed θ) : ℝ := e.times.returned - e.times.answered

/-- The pairs of quantiles of the bounds have those of the true values. -/
def Brackets (q : QuantileBounds) (values : List ℝ) : Prop :=
  ∀ p ∈ q.pairs, ∃ x, ranked values p.1 = some x ∧ Contains p.2 x

/-- What the summary of truthful exchanges says, when samples count. -/
structure Sound (ppm : ℚ) (exchanges : List (Observed θ)) (summary : Summary) (finished : List Sample) : Prop where
  consistent : summary.consistent = true
  offset : ∃ reference interval, summary.referenceHost = some reference ∧ summary.offsetInterval = some interval ∧
    Contains interval (θ reference)
  bounds : List.Forall₂ (fun (e : Observed θ) s => s.isValid = true → ∃ b, s.oneWayBounds = some b ∧
    Contains b.hostToGuest e.forwardDelay ∧ Contains b.guestToHost e.reverseDelay) exchanges finished
  hostToGuest : ∃ q, summary.hostToGuest = some q ∧
    Brackets q ((exchanges.filter fun e => (e.exchanged.made ppm).isValid).map Observed.forwardDelay)
  guestToHost : ∃ q, summary.guestToHost = some q ∧
    Brackets q ((exchanges.filter fun e => (e.exchanged.made ppm).isValid).map Observed.reverseDelay)

theorem calibrate_eq (exchanges : List Exchanged) (ppm : ℚ) (validFor : Int) :
    calibrate exchanges ppm validFor = summarize (exchanges.map (·.made ppm)) ppm validFor := by
  unfold calibrate
  rw [mapM_ok fun e _ => (makeSample_ok e ppm).1]
  rfl

theorem made_valid (exchanges : List Exchanged) : ∀ s ∈ exchanges.map (·.made ppm), s.isValid = true → Valid s := by
  intro s hs
  obtain ⟨e, _, rfl⟩ := List.mem_map.1 hs
  exact (makeSample_ok e ppm).2.2.2

theorem ints_made (e : Observed θ) (ppm : ℚ) : (e.exchanged.made ppm).ints = e.readings :=
  ints_of_readings ((makeSample_ok e.exchanged ppm).2.1.trans (exchanged_readings e.readings e.seq))

/-- Quantiles of bounds bracket those of what the bounds contain. -/
theorem brackets_of_ranks {bounds : List Interval} {values : List ℝ} {q : QuantileBounds} (hq : RanksOf bounds q)
    (hne : values ≠ []) (h : List.Forall₂ (fun b x => Contains b x) bounds values) : Brackets q values := by
  intro p hp
  obtain ⟨hlow, hhigh⟩ := hq p hp
  have hp : p.1 ≤ 1 := by
    simp only [QuantileBounds.pairs, List.mem_cons, List.not_mem_nil, or_false] at hp
    obtain rfl | rfl | rfl := hp <;> norm_num
  obtain ⟨x, _, hx⟩ := exists_ranked hne hp
  have hlows : List.Forall₂ (fun (n : Int) (x : ℝ) => (n : ℝ) ≤ x) (bounds.map Prod.fst) values :=
    List.forall₂_map_left_iff.2 (h.imp fun _ _ hb => hb.1)
  have hhighs : List.Forall₂ (fun (x : ℝ) (n : Int) => x ≤ (n : ℝ)) values (bounds.map Prod.snd) :=
    List.forall₂_map_right_iff.2 (h.imp fun _ _ hb => hb.2).flip
  refine ⟨x, hx, ?_, ?_⟩
  · exact ranked_rel (fun n' n x x' hn hle hx => (Int.cast_le.2 hn).trans (hle.trans hx)) hlows hlow hx
  · exact ranked_rel (fun x' x n n' hx hle hn => hx.trans (hle.trans (Int.cast_le.2 hn))) hhighs hx hhigh

theorem sound_of_intersected (h : 0 ≤ ppm) (hlt : ppm < 1000000) (hθ : Drifts (rateOf ppm) θ)
    {exchanges : List (Observed θ)} {summary : Summary} {finished : List Sample}
    (hne : exchanges.filter (fun e => (e.exchanged.made ppm).isValid) ≠ [])
    (hi : Intersected ppm (exchanges.map fun e => e.exchanged.made ppm) summary finished reference interval) :
    Sound ppm exchanges summary finished := by
  have htrue : Contains interval (θ reference) := by
    obtain ⟨_, hlower, _, hlow⟩ := hi.lower
    obtain ⟨e, _, rfl⟩ := List.mem_map.1 hlower
    obtain ⟨_, hupper, _, hhigh⟩ := hi.upper
    obtain ⟨e', _, rfl⟩ := List.mem_map.1 hupper
    rw [ints_made] at hlow hhigh
    unfold Contains
    rw [hlow, hhigh]
    exact ⟨(offsetInterval_contains h hlt hθ e reference).1, (offsetInterval_contains h hlt hθ e' reference).2⟩
  have hle : interval.1 ≤ interval.2 := by exact_mod_cast htrue.1.trans htrue.2
  obtain ⟨forward, backward, hforward, hbackward, hforwardRanks, hbackwardRanks⟩ := hi.quantiles hle
  have hcounted : ∀ f : Bounds → Interval, ((exchanges.map fun e => e.exchanged.made ppm).filter Sample.isValid).map
      (fun s => f (s.ints.bounds interval reference ppm)) =
        (exchanges.filter fun e => (e.exchanged.made ppm).isValid).map fun e =>
          f (e.readings.bounds interval reference ppm) := fun f => by
    rw [List.filter_map, List.map_map]
    exact List.map_congr_left fun e _ => by rw [Function.comp, ints_made]
  rw [hcounted] at hforwardRanks hbackwardRanks
  refine ⟨?_, ⟨reference, interval, hi.referenceHost, hi.offset, htrue⟩, ?_, ⟨forward, hforward, ?_⟩, backward,
    hbackward, ?_⟩
  · rw [hi.consistent, decide_eq_true hle]
  · rw [hi.finished hle, List.map_map, List.forall₂_map_right_iff, List.forall₂_same]
    intro e _ hvalid
    rw [Function.comp, isValid_finished] at hvalid
    refine ⟨_, finished_bounds hvalid, ?_⟩
    rw [ints_made]
    exact bounds_contains h hθ e htrue
  · refine brackets_of_ranks hforwardRanks (by simpa using hne) ?_
    rw [List.forall₂_map_left_iff, List.forall₂_map_right_iff, List.forall₂_same]
    exact fun e _ => (bounds_contains h hθ e htrue).1
  · refine brackets_of_ranks hbackwardRanks (by simpa using hne) ?_
    rw [List.forall₂_map_left_iff, List.forall₂_map_right_iff, List.forall₂_same]
    exact fun e _ => (bounds_contains h hθ e htrue).2

/-- Bounds that contain true delays are not empty. -/
theorem oneWayBounds_contains (h : 0 ≤ ppm) (hθ : Drifts (rateOf ppm) θ) (e : Observed θ) (hinterval : Contains interval (θ reference)) (hrtt : (e.exchanged.made ppm).rtt ≠ none) :
    ∃ b, oneWayBounds (e.exchanged.made ppm) interval reference ppm = .ok b ∧
      Contains b.hostToGuest e.forwardDelay ∧ Contains b.guestToHost e.reverseDelay := by
  obtain ⟨hforward, hbackward⟩ := bounds_contains h hθ e hinterval
  obtain ⟨_, hreadings, hmade, _⟩ := makeSample_ok e.exchanged ppm
  have hsome : (e.exchanged.made ppm).rtt = some (e.readings.hostRecv - e.readings.hostSend) := by
    obtain ⟨n, hn⟩ := Option.ne_none_iff_exists'.1 hrtt
    rw [hn]
    rw [hmade] at hn
    exact congrArg some (rtt_eq_some hn)
  refine ⟨_, oneWayBounds_eq hreadings hsome ⟨?_, ?_⟩, hforward, hbackward⟩
  · exact_mod_cast hforward.1.trans hforward.2
  · exact_mod_cast hbackward.1.trans hbackward.2

/-- What the readings of truthful exchanges say is true, and no readings at all make the summary fail. -/
theorem calibration_sound (hppm : 0 ≤ ppm) (hlt : ppm < 1000000) :
    (∀ θ, Drifts (rateOf ppm) θ →
      (∀ (e : Observed θ) (reference : Int), ∃ interval,
        offsetInterval (e.exchanged.made ppm) reference ppm = .ok interval ∧ Contains interval (θ reference)) ∧
      (∀ (e : Observed θ) (reference : Int) interval, Contains interval (θ reference) →
        (e.exchanged.made ppm).rtt ≠ none →
        ∃ b, oneWayBounds (e.exchanged.made ppm) interval reference ppm = .ok b ∧
          Contains b.hostToGuest e.forwardDelay ∧ Contains b.guestToHost e.reverseDelay) ∧
      (∀ (exchanges : List (Observed θ)) validFor, ∃ summary finished,
        calibrate (exchanges.map Observed.exchanged) ppm validFor = .ok (summary, finished) ∧
          (exchanges.filter (fun e => (e.exchanged.made ppm).isValid) ≠ [] → Sound ppm exchanges summary finished))) ∧
    (∀ (e : Exchanged) ppm', makeSample e ppm' = .ok (e.made ppm')) ∧
    ∀ samples, (∀ s ∈ samples, ∃ e ppm', makeSample e ppm' = .ok s) → ∀ validFor, ∃ summary finished,
      summarize samples ppm validFor = .ok (summary, finished) := by
  refine ⟨fun θ hθ => ⟨fun e reference => ?_, fun e reference interval hinterval hrtt => ?_,
    fun exchanges validFor => ?_⟩,
    fun e ppm' => (makeSample_ok e ppm').1, fun samples hmade validFor => ?_⟩
  · refine ⟨_, ?_, offsetInterval_contains hppm hlt hθ e reference⟩
    unfold offsetInterval
    rw [(makeSample_ok e.exchanged ppm).2.1, Observed.exchanged, exchanged_readings]
    rfl
  · exact oneWayBounds_contains hppm hθ e hinterval hrtt
  · obtain ⟨summary, finished, hok, hintersected⟩ :=
      summarize_ok hppm hlt (made_valid (exchanges.map Observed.exchanged)) validFor
    refine ⟨summary, finished, (calibrate_eq _ _ _).trans hok, fun hne => ?_⟩
    rw [List.map_map] at hintersected
    have hcounted : ((exchanges.map ((fun e => e.made ppm) ∘ Observed.exchanged)).filter Sample.isValid) ≠ [] := by
      rw [List.filter_map]
      simpa using hne
    obtain ⟨reference, interval, hi⟩ := hintersected hcounted
    exact sound_of_intersected hppm hlt hθ hne hi
  · have hvalid : ∀ s ∈ samples, s.isValid = true → Valid s := fun s hs => by
      obtain ⟨e, ppm', he⟩ := hmade s hs
      obtain ⟨hok, _, _, hvalid⟩ := makeSample_ok e ppm'
      rw [Except.ok.inj (he.symm.trans hok)]
      exact hvalid
    obtain ⟨summary, finished, hok, _⟩ := summarize_ok hppm hlt hvalid validFor
    exact ⟨summary, finished, hok⟩

/-- An offset that grows by one in 2000. -/
noncomputable def growing (t : ℝ) : ℝ := 1000 + t / 2000

/-- A question that takes 100 and an answer that takes 300. -/
noncomputable def early : Observed growing where
  times := ⟨1000, 1100, 1120, 1420, by norm_num, by norm_num, by norm_num⟩
  seq := 0
  readings := ⟨1000, 2101, 2121, 1420, 0, 0, 1⟩
  hostSend := by norm_num [Within]
  guestRecv := by norm_num [Within, growing]
  guestSend := by norm_num [Within, growing]
  hostRecv := by norm_num [Within]

noncomputable def late : Observed growing where
  times := ⟨11000, 11300, 11320, 11420, by norm_num, by norm_num, by norm_num⟩
  seq := 1
  readings := ⟨11000, 12306, 12326, 11420, 0, 0, 1⟩
  hostSend := by norm_num [Within]
  guestRecv := by norm_num [Within, growing]
  guestSend := by norm_num [Within, growing]
  hostRecv := by norm_num [Within]

theorem calibration_sound_growing : ∃ summary finished,
    calibrate ([early, late].map Observed.exchanged) 1000 0 = .ok (summary, finished) ∧
      Sound 1000 [early, late] summary finished := by
  have hdrifts : Drifts (rateOf 1000) growing := fun s t => by
    have hgrowth : growing t - growing s = 1 / 2000 * (t - s) := by unfold growing; ring
    rw [hgrowth, abs_mul, abs_of_pos (by norm_num)]
    exact mul_le_mul_of_nonneg_right (by norm_num [rateOf]) (abs_nonneg _)
  have hvalid : (early.exchanged.made 1000).isValid = true := rfl
  obtain ⟨summary, finished, hok, hsound⟩ :=
    ((calibration_sound (by norm_num) (by norm_num)).1 growing hdrifts).2.2 [early, late] 0
  have hmem : early ∈ [early, late].filter fun e => (e.exchanged.made 1000).isValid :=
    List.mem_filter.2 ⟨List.mem_cons_self, hvalid⟩
  exact ⟨summary, finished, hok, hsound (List.ne_nil_of_mem hmem)⟩

end CocoaWay.Calibration
