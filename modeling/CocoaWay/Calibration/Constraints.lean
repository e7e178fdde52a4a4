import CocoaWay.Calibration.Samples
import CocoaWay.Lib.Drift
import Mathlib.Data.Real.Basic

/-!
# The constraints of a truthful exchange

* `driftNs_eq`, `driftNs_mono` : the drift budget is rounded up;
* `Contains`, `Observed θ ppm` : an interval around a true value; an exchange whose readings are within their budgets;
* `offsetInterval_contains` : its interval has the true offset at every reference time;
* `bounds_contains`, `bounds_nonempty` : the one-way bounds from an interval that has the true offset, and from one
  that is not empty.
-/

namespace CocoaWay.Calibration
open Lib Drift Python

variable {ppm : ℚ} {θ : ℝ → ℝ} {d d' reference : Int} {interval : Interval} {r : Readings}

/-! ## The drift budget -/

theorem driftNs_eq (d : Int) (ppm : ℚ) : driftNs d ppm = ⌈(|d| : ℚ) * (ppm / 1000000)⌉ := by
  unfold driftNs
  generalize ppm / 1000000 = rate
  have hden : (0 : Int) < rate.den := Int.natCast_pos.2 rate.den_pos
  have hrate : (|d| : ℚ) * rate = ((|d| * rate.num : Int) : ℚ) / (rate.den : ℚ) := by
    conv_lhs => rw [← rate.num_div_den]
    push_cast
    ring
  rw [hrate, Rat.ceil_intCast_div_natCast]
  dsimp only
  generalize |d| * rate.num = n
  have hlow := Int.ediv_mul_le (n + rate.den - 1) hden.ne'
  have hhigh := Int.lt_ediv_add_one_mul_self (n + rate.den - 1) hden
  have hlow' := Int.ediv_mul_le (-n) hden.ne'
  have hhigh' := Int.lt_ediv_add_one_mul_self (-n) hden
  generalize (n + rate.den - 1) / (rate.den : Int) = q at *
  generalize -n / (rate.den : Int) = q' at *
  generalize (rate.den : Int) = den at *
  refine le_antisymm ?_ ?_
  · by_contra hlt
    have hstep : (-q' + 1) * den ≤ q * den := Int.mul_le_mul_of_nonneg_right (by omega) hden.le
    linarith
  · by_contra hlt
    have hstep : (q + 1) * den ≤ -q' * den := Int.mul_le_mul_of_nonneg_right (by omega) hden.le
    linarith

theorem driftNs_nonneg (h : 0 ≤ ppm) (d : Int) : 0 ≤ driftNs d ppm := by
  rw [driftNs_eq]
  exact Int.ceil_nonneg (by positivity)

theorem driftNs_mono (h : 0 ≤ ppm) (hd : |d| ≤ |d'|) : driftNs d ppm ≤ driftNs d' ppm := by
  rw [driftNs_eq, driftNs_eq]
  have hd : (|d| : ℚ) ≤ (|d'| : ℚ) := by exact_mod_cast hd
  exact Int.ceil_le_ceil (mul_le_mul_of_nonneg_right hd (by positivity))

/-- The relative drift of the budget. -/
noncomputable def rateOf (ppm : ℚ) : ℝ := ((ppm / 1000000 : ℚ) : ℝ)

theorem rateOf_nonneg (h : 0 ≤ ppm) : 0 ≤ rateOf ppm := by
  unfold rateOf
  exact_mod_cast div_nonneg h (by norm_num)

theorem rateOf_lt_one (h : ppm < 1000000) : rateOf ppm < 1 := by
  unfold rateOf
  exact_mod_cast (div_lt_one (by norm_num)).2 h

theorem rateOf_mul_le (h : 0 ≤ ppm) {x : ℝ} (hx : x ≤ |(d : ℝ)|) : rateOf ppm * x ≤ driftNs d ppm := by
  have hceil : (|d| : ℚ) * (ppm / 1000000) ≤ driftNs d ppm := by
    rw [driftNs_eq]
    exact Int.le_ceil _
  have hceil : |(d : ℝ)| * rateOf ppm ≤ driftNs d ppm := by
    unfold rateOf
    exact_mod_cast hceil
  have hmul := mul_le_mul_of_nonneg_left hx (rateOf_nonneg h)
  linarith

/-! ## Truthful exchanges -/

def Contains (interval : Interval) (x : ℝ) : Prop := (interval.1 : ℝ) ≤ x ∧ x ≤ interval.2

/-- An exchange, with the offset `θ`, and readings within their budgets. -/
structure Observed (θ : ℝ → ℝ) where
  times : Exchange ℝ
  seq : Nat
  readings : Readings
  hostSend : Within (readings.hostSendError : ℝ) readings.hostSend times.sent
  guestRecv : Within (readings.guestError : ℝ) readings.guestRecv (times.received + θ times.received)
  guestSend : Within (readings.guestError : ℝ) readings.guestSend (times.answered + θ times.answered)
  hostRecv : Within (readings.hostRecvError : ℝ) readings.hostRecv times.returned

/-- The drift between a reading and a reference time, wherever the reading's time is within its budget. -/
theorem transport (hppm : 0 ≤ ppm) {error reading : Int} {t : ℝ} (h : Within (error : ℝ) reading t) (reference : Int) :
    rateOf ppm * |t - reference| ≤ driftNs (|reference - reading| + error) ppm := by
  refine rateOf_mul_le hppm (le_trans (h.distance reference) ?_)
  have hcast : ((|reference - reading| + error : Int) : ℝ) = |(reading : ℝ) - reference| + error := by
    push_cast
    rw [abs_sub_comm]
  rw [← hcast]
  exact le_abs_self _

theorem offsetInterval_contains (hppm : 0 ≤ ppm) (hlt : ppm < 1000000) (hθ : Drifts (rateOf ppm) θ) (e : Observed θ)
    (reference : Int) : Contains (e.readings.offsetInterval reference ppm) (θ reference) := by
  have hrate := (rateOf_lt_one hlt).le
  constructor
  · have hconstraint := e.times.le_offset hθ hrate
    have hdrift := hθ.ge e.times.returned reference
    have htransport := transport hppm e.hostRecv reference
    rw [abs_sub_comm] at hdrift
    have hsend := e.guestSend.ge
    have hrecv := e.hostRecv.le
    simp only [Readings.offsetInterval]
    push_cast
    linarith
  · have hconstraint := e.times.offset_le hθ hrate
    have hdrift := hθ.le e.times.sent reference
    have htransport := transport hppm e.hostSend reference
    rw [abs_sub_comm] at hdrift
    have hrecv := e.guestRecv.le
    have hsend := e.hostSend.ge
    simp only [Readings.offsetInterval]
    push_cast
    linarith

/-! ## One-way bounds -/

/-- The bounds before they are checked. -/
def Readings.bounds (r : Readings) (interval : Interval) (reference : Int) (ppm : ℚ) : Bounds :=
  let drift := driftNs (max (|r.hostSend - reference| + r.hostSendError)
    (|r.hostRecv - reference| + r.hostRecvError)) ppm
  let fError := r.hostSendError + r.guestError
  let rError := r.hostRecvError + r.guestError
  let rttUpper := r.hostRecv - r.hostSend + r.hostSendError + r.hostRecvError
  { hostToGuest := (max 0 (r.guestRecv - r.hostSend - (interval.2 + drift) - fError),
      min rttUpper (r.guestRecv - r.hostSend - (interval.1 - drift) + fError))
    guestToHost := (max 0 (r.hostRecv - r.guestSend + (interval.1 - drift) - rError),
      min rttUpper (r.hostRecv - r.guestSend + (interval.2 + drift) + rError)) }

theorem drift_le (hppm : 0 ≤ ppm) (e : Observed θ) (reference : Int) {t : ℝ} (hsent : e.times.sent ≤ t)
    (hreturned : t ≤ e.times.returned) : rateOf ppm * |t - reference| ≤
      driftNs (max (|e.readings.hostSend - reference| + e.readings.hostSendError)
        (|e.readings.hostRecv - reference| + e.readings.hostRecvError)) ppm := by
  refine rateOf_mul_le hppm ((distance_le_max hsent hreturned).trans ?_)
  refine le_trans ?_ (le_abs_self _)
  push_cast
  exact max_le_max (e.hostSend.distance reference) (e.hostRecv.distance reference)

theorem bounds_contains (hppm : 0 ≤ ppm) (hθ : Drifts (rateOf ppm) θ) (e : Observed θ) {reference : Int}
    (h : Contains interval (θ reference)) :
    Contains (e.readings.bounds interval reference ppm).hostToGuest (e.times.received - e.times.sent) ∧
      Contains (e.readings.bounds interval reference ppm).guestToHost (e.times.returned - e.times.answered) := by
  obtain ⟨hlow, hhigh⟩ := h
  have hsend := e.hostSend
  have hrecv := e.hostRecv
  have hrtt : e.times.returned - e.times.sent ≤
      e.readings.hostRecv - e.readings.hostSend + e.readings.hostSendError + e.readings.hostRecvError := by
    linarith [hsend.ge, hrecv.le]
  constructor
  · have hdrift := drift_le hppm e reference e.times.forward e.times.received_le_returned
    have hreceived := e.guestRecv
    simp only [Contains, Readings.bounds]
    push_cast
    refine ⟨max_le (sub_nonneg.2 e.times.forward) ?_, le_min ?_ ?_⟩
    · linarith [hθ.le reference e.times.received, hreceived.le, hreceived.ge, hsend.le, hsend.ge]
    · linarith [e.times.received_le_returned]
    · linarith [hθ.ge reference e.times.received, hreceived.le, hreceived.ge, hsend.le, hsend.ge]
  · have hdrift := drift_le hppm e reference e.times.sent_le_answered e.times.reverse
    have hanswered := e.guestSend
    simp only [Contains, Readings.bounds]
    push_cast
    refine ⟨max_le (sub_nonneg.2 e.times.reverse) ?_, le_min ?_ ?_⟩
    · linarith [hθ.ge reference e.times.answered, hanswered.le, hanswered.ge, hrecv.le, hrecv.ge]
    · linarith [e.times.sent_le_answered]
    · linarith [hθ.le reference e.times.answered, hanswered.le, hanswered.ge, hrecv.le, hrecv.ge]

/-- What the checks of a sample leave. -/
structure Readings.Ordered (r : Readings) : Prop where
  host : r.hostSend ≤ r.hostRecv
  guest : r.guestRecv ≤ r.guestSend
  hostSendError : 0 ≤ r.hostSendError
  hostRecvError : 0 ≤ r.hostRecvError
  guestError : 0 ≤ r.guestError

/-- An interval within the constraints of a sample leaves bounds for it, whether the sample is truthful or not. -/
theorem bounds_nonempty (hppm : 0 ≤ ppm) (hr : r.Ordered) (hinterval : interval.1 ≤ interval.2)
    (hlow : (r.offsetInterval reference ppm).1 ≤ interval.1) (hhigh : interval.2 ≤ (r.offsetInterval reference ppm).2) :
    (r.bounds interval reference ppm).hostToGuest.1 ≤ (r.bounds interval reference ppm).hostToGuest.2 ∧
      (r.bounds interval reference ppm).guestToHost.1 ≤ (r.bounds interval reference ppm).guestToHost.2 := by
  have hsend : driftNs (|reference - r.hostSend| + r.hostSendError) ppm ≤
      driftNs (max (|r.hostSend - reference| + r.hostSendError) (|r.hostRecv - reference| + r.hostRecvError)) ppm := by
    refine driftNs_mono hppm (abs_le_abs_of_nonneg (add_nonneg (abs_nonneg _) hr.hostSendError) ?_)
    rw [abs_sub_comm]
    exact le_max_left _ _
  have hrecv : driftNs (|reference - r.hostRecv| + r.hostRecvError) ppm ≤
      driftNs (max (|r.hostSend - reference| + r.hostSendError) (|r.hostRecv - reference| + r.hostRecvError)) ppm := by
    refine driftNs_mono hppm (abs_le_abs_of_nonneg (add_nonneg (abs_nonneg _) hr.hostRecvError) ?_)
    rw [abs_sub_comm]
    exact le_max_right _ _
  have hdrift := driftNs_nonneg hppm
    (max (|r.hostSend - reference| + r.hostSendError) (|r.hostRecv - reference| + r.hostRecvError))
  obtain ⟨hhost, hguest, he0, he3, heg⟩ := hr
  simp only [Readings.offsetInterval] at hlow hhigh
  simp only [Readings.bounds]
  generalize driftNs (max _ _) ppm = drift at *
  generalize driftNs (|reference - r.hostSend| + r.hostSendError) ppm = driftSend at *
  generalize driftNs (|reference - r.hostRecv| + r.hostRecvError) ppm = driftRecv at *
  exact ⟨max_le (le_min (by omega) (by omega)) (le_min (by omega) (by omega)),
    max_le (le_min (by omega) (by omega)) (le_min (by omega) (by omega))⟩

end CocoaWay.Calibration
