import Mathlib.Algebra.Order.Field.Basic
import Mathlib.Tactic.Linarith
import Mathlib.Tactic.Ring

/-!
# Clocks that drift

A second clock shows `t + θ t` at the first one's `t`.

* `Drifts rate θ` : the offset changes by at most `rate` times the time that passes; `Drifts.elapsed` : what both
  clocks count;
* `Within error reading t` : a reading of a clock;
* `Exchange K` : a question and its answer, at times of the first clock; `Exchange.offset_le`, `Exchange.le_offset` :
  what its four times tell about the offset.
-/

namespace CocoaWay.Lib.Drift

section Exchange

/-- A question and its answer. Delays are not negative, and the answer is not ready before its question. -/
structure Exchange (K : Type*) [Preorder K] where
  sent : K
  received : K
  answered : K
  returned : K
  forward : sent ≤ received
  processed : received ≤ answered
  reverse : answered ≤ returned

variable {K : Type*} [Preorder K] (e : Exchange K)

theorem Exchange.sent_le_answered : e.sent ≤ e.answered := e.forward.trans e.processed

theorem Exchange.received_le_returned : e.received ≤ e.returned := e.processed.trans e.reverse

end Exchange

variable {K : Type*} [Field K] [LinearOrder K] [IsStrictOrderedRing K] {rate error reading s t : K} {θ : K → K}

def Drifts (rate : K) (θ : K → K) : Prop := ∀ s t, |θ t - θ s| ≤ rate * |t - s|

namespace Drifts

theorem le (h : Drifts rate θ) (s t : K) : θ t ≤ θ s + rate * |t - s| := by
  have hchange := (abs_le.1 (h s t)).2
  linarith

theorem ge (h : Drifts rate θ) (s t : K) : θ s - rate * |t - s| ≤ θ t := by
  have hchange := (abs_le.1 (h s t)).1
  linarith

/-- What the second clock counts while the first one counts `t - s`. -/
theorem elapsed (h : Drifts rate θ) (hst : s ≤ t) :
    (1 - rate) * (t - s) ≤ t + θ t - (s + θ s) ∧ t + θ t - (s + θ s) ≤ (1 + rate) * (t - s) := by
  have hdistance : |t - s| = t - s := abs_of_nonneg (sub_nonneg.2 hst)
  have hle := h.le s t
  have hge := h.ge s t
  rw [hdistance] at hle hge
  constructor <;> linarith

theorem mono (h : Drifts rate θ) (hrate : rate ≤ 1) (hst : s ≤ t) : s + θ s ≤ t + θ t := by
  have helapsed := (h.elapsed hst).1
  have hnonneg := mul_nonneg (sub_nonneg.2 hrate) (sub_nonneg.2 hst)
  linarith

end Drifts

def Within (error reading t : K) : Prop := |reading - t| ≤ error

namespace Within

theorem le (h : Within error reading t) : t ≤ reading + error := by
  have hle := (abs_le.1 h).1
  linarith

theorem ge (h : Within error reading t) : reading - error ≤ t := by
  have hle := (abs_le.1 h).2
  linarith

theorem distance (h : Within error reading t) (s : K) : |t - s| ≤ |reading - s| + error := by
  have htriangle := abs_sub_le t reading s
  have hsymm : |t - reading| ≤ error := by rw [abs_sub_comm]; exact h
  linarith

end Within

namespace Exchange

variable (e : Exchange K)

theorem offset_le (h : Drifts rate θ) (hrate : rate ≤ 1) : θ e.sent ≤ e.received + θ e.received - e.sent := by
  have hmono := h.mono hrate e.forward
  linarith

theorem le_offset (h : Drifts rate θ) (hrate : rate ≤ 1) : e.answered + θ e.answered - e.returned ≤ θ e.returned := by
  have hmono := h.mono hrate e.reverse
  linarith

end Exchange

/-- A time between two others is no farther from a third than one of them. -/
theorem distance_le_max {a b c : K} (h : a ≤ t) (h' : t ≤ b) : |t - c| ≤ max |a - c| |b - c| :=
  abs_le_max_abs_abs (sub_le_sub_right h c) (sub_le_sub_right h' c)

end CocoaWay.Lib.Drift
