import Mathlib.Tactic.Ring

/-!
# Periodic grids

Points `anchor + k * period` on the line of integers.

* `slot` : the number of whole periods since the anchor; `next` : the first grid point after a time;
* `lt_next`, `next_le`, `next_eq` : where the next point lies;
* `slot_mono`, `slot_lt_of_next_le` : slots never go back, and a time at or after the next point is in a later slot.
-/

namespace CocoaWay.Lib.Grid

variable {anchor period t u : Int}

def slot (anchor period t : Int) : Int := (t - anchor) / period

def next (anchor period t : Int) : Int := t + (period - (t - anchor) % period)

@[simp] theorem slot_anchor (anchor period : Int) : slot anchor period anchor = 0 := by
  simp [slot]

theorem next_eq (anchor period t : Int) : next anchor period t = anchor + (slot anchor period t + 1) * period := by
  unfold next slot
  have h := Int.mul_ediv_add_emod (t - anchor) period
  have hm : ((t - anchor) / period + 1) * period = period * ((t - anchor) / period) + period := by ring
  omega

theorem lt_next (hp : 0 < period) : t < next anchor period t := by
  unfold next
  have h := Int.emod_lt_of_pos (t - anchor) hp
  omega

theorem next_le (hp : 0 < period) : next anchor period t ≤ t + period := by
  unfold next
  have h := Int.emod_nonneg (t - anchor) hp.ne'
  omega

theorem slot_mono (hp : 0 < period) (h : t ≤ u) : slot anchor period t ≤ slot anchor period u :=
  Int.ediv_le_ediv hp (by omega)

theorem slot_nonneg (hp : 0 < period) (h : anchor ≤ t) : 0 ≤ slot anchor period t := by
  have h0 : slot anchor period anchor ≤ slot anchor period t := slot_mono hp h
  rwa [slot_anchor] at h0

theorem slot_lt_of_next_le (hp : 0 < period) (h : next anchor period t ≤ u) :
    slot anchor period t < slot anchor period u := by
  rw [next_eq] at h
  have hle : slot anchor period t + 1 ≤ slot anchor period u := by
    rw [slot, slot, Int.le_ediv_iff_mul_le hp]
    unfold slot at h
    omega
  omega

end CocoaWay.Lib.Grid
