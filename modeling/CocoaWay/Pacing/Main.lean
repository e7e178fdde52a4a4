import CocoaWay.Lib.Grid
import Mathlib.Data.List.Induction
import Mathlib.Order.Lattice

/-!
# Demand-driven frame pacing

* `Instant` : a monotonic time stamp, in nanoseconds within the range the platform represents; `Instant.add` fails where
  the addition overflows;
* `FrameClock` with `setRefreshMillihertz`, `nextDue`, `recordFrameStarted`, `recordSubmission`; every 64-bit
  operation of `nextDue` is checked, and `none` stands for an overflow;
* `WellPhased` : the rate is plausible, and the anchor is set with the last start and not after it; `nextDue_eq`
  computes the next due time from it;
* `Session`, `run` : any sequence of calls, with the slot of each recorded start counted across rate changes;
* `frameClock_guarantees`, and `overdue_off_grid`: overdue work is due now, not at a slot.
-/

namespace CocoaWay.Pacing
open CocoaWay.Lib

/-! ## Time stamps -/

def minNanos : Int := -2 ^ 63 * 10 ^ 9

def maxNanos : Int := 2 ^ 63 * 10 ^ 9 - 1

/-- An `Instant`: signed 64-bit seconds and nanoseconds, here as nanoseconds. -/
structure Instant where
  nanos : Int
  inRange : minNanos ≤ nanos ∧ nanos ≤ maxNanos
  deriving DecidableEq

namespace Instant

theorem nanos_injective : Function.Injective Instant.nanos := by
  rintro ⟨a, ha⟩ ⟨b, hb⟩ (rfl : a = b)
  rfl

instance : LinearOrder Instant := LinearOrder.lift' nanos nanos_injective

variable {t u : Instant}

theorem le_iff : t ≤ u ↔ t.nanos ≤ u.nanos := Iff.rfl

theorem lt_iff : t < u ↔ t.nanos < u.nanos := Iff.rfl

/-- `duration_since`, saturating at zero. -/
def durationSince (t earlier : Instant) : Nat := (t.nanos - earlier.nanos).toNat

/-- `Instant + Duration`; `none` where it overflows. -/
def add (t : Instant) (nanos : Nat) : Option Instant :=
  if h : t.nanos + nanos ≤ maxNanos then some ⟨t.nanos + nanos, by have := t.inRange; omega, h⟩ else none

theorem add_eq_some {n : Nat} : t.add n = some u ↔ u.nanos = t.nanos + n := by
  unfold add
  constructor
  · intro h
    split at h
    · rw [← Option.some.inj h]
    · cases h
  · intro h
    rw [dif_pos (h ▸ u.inRange.2)]
    exact congrArg some (nanos_injective h.symm)

theorem add_eq_none {t : Instant} {n : Nat} : t.add n = none ↔ maxNanos < t.nanos + n := by
  unfold add
  split
  · next h => simpa using h
  · next h => simpa using h

end Instant

/-! ## The clock -/

def DEFAULT_REFRESH_MILLIHERTZ : Nat := 60_000

structure FrameClock where
  refreshMillihertz : Nat
  phaseAnchor : Option Instant
  lastFrameStarted : Option Instant

/-- Missing or implausible monitor rates use 60 Hz. -/
def plausibleRefresh (refreshMillihertz : Option Nat) : Nat :=
  (refreshMillihertz.filter fun rate => 1_000 ≤ rate ∧ rate ≤ 1_000_000).getD DEFAULT_REFRESH_MILLIHERTZ

/-- `u64::div_ceil`; `none` is its panic. -/
def divCeil (a b : Nat) : Option Nat :=
  if b = 0 then none else some (if a % b > 0 then a / b + 1 else a / b)

/-- Remainder of 128-bit numbers; `none` is its panic. -/
def checkedRem (a b : Nat) : Option Nat := if b = 0 then none else some (a % b)

/-- `u64` subtraction; `none` where it overflows. -/
def checkedSub (a b : Nat) : Option Nat := if b ≤ a then some (a - b) else none

/-- `as u64`. -/
def asU64 (n : Nat) : Nat := n % 2 ^ 64

namespace FrameClock

/-- `set_refresh_millihertz`: a new rate anchors the phase at the latest frame start. -/
def setRefreshMillihertz (c : FrameClock) (refreshMillihertz : Option Nat) : FrameClock :=
  let refresh := plausibleRefresh refreshMillihertz
  if refresh ≠ c.refreshMillihertz then
    { c with phaseAnchor := c.lastFrameStarted, refreshMillihertz := refresh }
  else c

def new (refreshMillihertz : Option Nat) : FrameClock :=
  ({ refreshMillihertz := DEFAULT_REFRESH_MILLIHERTZ, phaseAnchor := none,
     lastFrameStarted := none } : FrameClock).setRefreshMillihertz refreshMillihertz

/-- `period_ns`, rounded up to avoid exceeding the rate. -/
def periodNs (c : FrameClock) : Option Nat := divCeil 1_000_000_000_000 c.refreshMillihertz

/-- `next_due`; the outer `none` is an overflow. -/
def nextDue (c : FrameClock) (now : Instant) (hasWork : Bool) : Option (Option Instant) :=
  if !hasWork then some none
  else do
    let due ← match c.phaseAnchor, c.lastFrameStarted with
      | some anchor, some last => do
        let periodNs ← c.periodNs
        let offset ← checkedRem (last.durationSince anchor) periodNs
        let remaining ← checkedSub periodNs (asU64 offset)
        last.add remaining
      | _, _ => some now
    return some (max due now)

/-- `record_frame_started`: the first start anchors the phase; older time stamps cannot rewind progress. -/
def recordFrameStarted (c : FrameClock) (startedAt : Instant) : FrameClock :=
  { c with
    phaseAnchor := some (c.phaseAnchor.getD startedAt)
    lastFrameStarted := some (c.lastFrameStarted.elim startedAt fun last => max last startedAt) }

/-- `record_submission`: without a prior start, this seeds the phase. -/
def recordSubmission (c : FrameClock) (submittedAt : Instant) : FrameClock :=
  if c.lastFrameStarted.isNone then c.recordFrameStarted submittedAt else c

end FrameClock

/-! ## The phase -/

theorem plausibleRefresh_range (rate : Option Nat) :
    1_000 ≤ plausibleRefresh rate ∧ plausibleRefresh rate ≤ 1_000_000 := by
  unfold plausibleRefresh
  cases h : rate.filter fun rate => 1_000 ≤ rate ∧ rate ≤ 1_000_000 with
  | none => simp [DEFAULT_REFRESH_MILLIHERTZ]
  | some r => simpa using (Option.filter_eq_some_iff.1 h).2

/-- The rate is plausible; the anchor is set exactly when a start was recorded, and is not after it. -/
structure WellPhased (c : FrameClock) : Prop where
  rate : 1_000 ≤ c.refreshMillihertz ∧ c.refreshMillihertz ≤ 1_000_000
  phase : c.phaseAnchor = none ∧ c.lastFrameStarted = none ∨
    ∃ anchor last, c.phaseAnchor = some anchor ∧ c.lastFrameStarted = some last ∧ anchor ≤ last

/-- The period as a number, for a clock with a rate. -/
def FrameClock.period (c : FrameClock) : Nat := c.periodNs.getD 0

variable {c : FrameClock} {s : Session} {anchor last : Instant}

/-- A plausible rate has a period between one millisecond and one second. -/
theorem WellPhased.periodNs (h : WellPhased c) :
    c.periodNs = some c.period ∧ 1_000_000 ≤ c.period ∧ c.period ≤ 1_000_000_000 := by
  obtain ⟨hlo, hhi⟩ := h.rate
  have hr : 0 < c.refreshMillihertz := by omega
  have hp : c.periodNs = some (if 1_000_000_000_000 % c.refreshMillihertz > 0
      then 1_000_000_000_000 / c.refreshMillihertz + 1 else 1_000_000_000_000 / c.refreshMillihertz) := by
    unfold FrameClock.periodNs divCeil
    rw [if_neg hr.ne']
  unfold FrameClock.period
  rw [hp, Option.getD_some]
  have hq : 1_000_000_000_000 / c.refreshMillihertz * c.refreshMillihertz ≤ 1_000_000_000_000 :=
    Nat.div_mul_le_self _ _
  have hdm := Nat.div_add_mod 1_000_000_000_000 c.refreshMillihertz
  have hge : 1_000_000 ≤ 1_000_000_000_000 / c.refreshMillihertz := by
    rw [Nat.le_div_iff_mul_le hr]
    omega
  have hle : 1_000_000_000_000 / c.refreshMillihertz ≤ 1_000_000_000 := by
    have := Nat.div_le_div_left hlo (by omega : 0 < 1_000) (a := 1_000_000_000_000)
    simpa using this
  refine ⟨rfl, ?_⟩
  split
  · next hm =>
    -- rounded up only when the quotient is below the largest period
    have hlt : 1_000_000_000_000 / c.refreshMillihertz < 1_000_000_000 := by
      rw [Nat.div_lt_iff_lt_mul hr]
      by_contra hge'
      have hrr : c.refreshMillihertz = 1_000 := by omega
      rw [hrr] at hm
      omega
    omega
  · omega

theorem WellPhased.period_pos (h : WellPhased c) : (0 : Int) < c.period := by
  have := h.periodNs.2.1
  omega

/-- The first grid point after the last start. -/
def FrameClock.nextSlot (c : FrameClock) (anchor last : Instant) : Int :=
  Grid.next anchor.nanos c.period last.nanos

theorem FrameClock.nextDue_unphased (h : c.lastFrameStarted = none) (now : Instant) :
    c.nextDue now true = some (some now) := by
  unfold FrameClock.nextDue
  rw [h]
  cases c.phaseAnchor <;> simp

/-- What is left of the period at the last start. -/
def FrameClock.remaining (c : FrameClock) (anchor last : Instant) : Nat :=
  c.period - last.durationSince anchor % c.period

theorem WellPhased.remaining_eq (h : WellPhased c) (hle : anchor ≤ last) :
    last.nanos + c.remaining anchor last = c.nextSlot anchor last := by
  have hd : ((last.durationSince anchor : Nat) : Int) = last.nanos - anchor.nanos := by
    unfold Instant.durationSince
    have := Instant.le_iff.1 hle
    omega
  have hm : last.durationSince anchor % c.period < c.period := Nat.mod_lt _ (by have := h.period_pos; omega)
  unfold FrameClock.nextSlot FrameClock.remaining Grid.next
  rw [← hd]
  omega

/-- No operation before the last addition can overflow. -/
theorem WellPhased.nextDue_eq (h : WellPhased c)
    (ha : c.phaseAnchor = some anchor) (hl : c.lastFrameStarted = some last) (now : Instant) :
    c.nextDue now true = (last.add (c.remaining anchor last)).map fun due => some (max due now) := by
  obtain ⟨hp, hlo, hhi⟩ := h.periodNs
  have hm : last.durationSince anchor % c.period < c.period := Nat.mod_lt _ (by omega)
  have hu : asU64 (last.durationSince anchor % c.period) = last.durationSince anchor % c.period :=
    Nat.mod_eq_of_lt (by omega)
  have hr : checkedRem (last.durationSince anchor) c.period = some (last.durationSince anchor % c.period) :=
    if_neg (by omega)
  have hs : checkedSub c.period (last.durationSince anchor % c.period) = some (c.remaining anchor last) :=
    if_pos (by omega)
  unfold FrameClock.nextDue
  rw [ha, hl]
  simp only [hp, hr, hu, hs, Bool.not_true, Bool.false_eq_true, if_false, Option.bind_eq_bind, Option.bind_some]
  cases last.add (c.remaining anchor last) <;> rfl

/-- Work is due at the first grid point after the last start, or now when that has passed. -/
theorem WellPhased.nextDue_eq_some (h : WellPhased c)
    (ha : c.phaseAnchor = some anchor) (hl : c.lastFrameStarted = some last) (hle : anchor ≤ last) {now due : Instant} :
    c.nextDue now true = some (some due) ↔ ∃ point :
      Instant, point.nanos = c.nextSlot anchor last ∧ due = max point now := by
  rw [h.nextDue_eq ha hl, Option.map_eq_some_iff, ← h.remaining_eq hle]
  simp only [Instant.add_eq_some, Option.some.injEq, eq_comm (a := due)]

/-- The due time overflows only where that grid point is beyond the last time stamp. -/
theorem WellPhased.nextDue_eq_none (h : WellPhased c)
    (ha : c.phaseAnchor = some anchor) (hl : c.lastFrameStarted = some last) (hle : anchor ≤ last) {now : Instant} :
    c.nextDue now true = none ↔ maxNanos < c.nextSlot anchor last := by
  rw [h.nextDue_eq ha hl, Option.map_eq_none_iff, Instant.add_eq_none, h.remaining_eq hle]

/-! ## What each call does to the phase -/

theorem wellPhased_new (rate : Option Nat) : WellPhased (FrameClock.new rate) := by
  unfold FrameClock.new FrameClock.setRefreshMillihertz
  dsimp only
  split
  · exact ⟨plausibleRefresh_range rate, Or.inl ⟨rfl, rfl⟩⟩
  · exact ⟨by decide, Or.inl ⟨rfl, rfl⟩⟩

theorem FrameClock.setRefreshMillihertz_last (c : FrameClock) (rate : Option Nat) :
    (c.setRefreshMillihertz rate).lastFrameStarted = c.lastFrameStarted := by
  unfold FrameClock.setRefreshMillihertz
  dsimp only
  split <;> rfl

theorem WellPhased.setRefreshMillihertz (h : WellPhased c) (rate : Option Nat) :
    WellPhased (c.setRefreshMillihertz rate) := by
  unfold FrameClock.setRefreshMillihertz
  dsimp only
  split
  · refine ⟨plausibleRefresh_range rate, ?_⟩
    rcases h.phase with ⟨-, hl⟩ | ⟨anchor, last, -, hl, -⟩
    · exact Or.inl ⟨hl, hl⟩
    · exact Or.inr ⟨last, last, hl, hl, le_rfl⟩
  · exact h

theorem WellPhased.recordFrameStarted (h : WellPhased c) (t : Instant) : WellPhased (c.recordFrameStarted t) := by
  refine ⟨h.rate, Or.inr ?_⟩
  rcases h.phase with ⟨ha, hl⟩ | ⟨anchor, last, ha, hl, hle⟩
  · exact ⟨t, t, by simp [FrameClock.recordFrameStarted, ha], by simp [FrameClock.recordFrameStarted, hl], le_rfl⟩
  · exact ⟨anchor, max last t, by simp [FrameClock.recordFrameStarted, ha],
      by simp [FrameClock.recordFrameStarted, hl], hle.trans (le_max_left last t)⟩

theorem WellPhased.recordSubmission (h : WellPhased c) (t : Instant) : WellPhased (c.recordSubmission t) := by
  unfold FrameClock.recordSubmission
  split
  · exact h.recordFrameStarted t
  · exact h

/-- A record older than the last one, or a submission behind a start, leaves the clock as it was. -/
theorem WellPhased.recordFrameStarted_of_le (h : WellPhased c) {last t : Instant}
    (hl : c.lastFrameStarted = some last) (ht : t ≤ last) : c.recordFrameStarted t = c := by
  rcases h.phase with ⟨-, hn⟩ | ⟨anchor, last', ha, hl', -⟩
  · rw [hl] at hn
    cases hn
  · obtain ⟨rate, phase, started⟩ := c
    obtain rfl : phase = some anchor := ha
    obtain rfl : started = some last := hl
    simp [FrameClock.recordFrameStarted, max_eq_left ht]

theorem FrameClock.recordSubmission_of_some {last : Instant} (hl : c.lastFrameStarted = some last)
    (t : Instant) : c.recordSubmission t = c := by
  unfold FrameClock.recordSubmission
  rw [hl]
  rfl

/-! ## Runs -/

/-- A recorded start: the number of its slot, and whether it was made at or after the due time. -/
structure Start where
  slot : Int
  onTime : Bool

/-- A clock, the slots that passed before its anchor, and the starts recorded so far. -/
structure Session where
  clock : FrameClock
  passed : Int := 0
  starts : List Start := []

inductive Operation
  | setRefresh (refreshMillihertz : Option Nat)
  | frameStarted (startedAt : Instant)
  | submission (submittedAt : Instant)

namespace Session

/-- The slot of a time: those before the anchor and those since. -/
def slotOf (s : Session) (t : Instant) : Int :=
  s.passed + s.clock.phaseAnchor.elim 0 fun anchor => Grid.slot anchor.nanos s.clock.period t.nanos

/-- Work asked for at `t` itself would be due by then. -/
def onTime (s : Session) (t : Instant) : Bool :=
  (s.clock.nextDue t true).any fun due => due.any fun due => due ≤ t

def apply (s : Session) : Operation → Session
  | .setRefresh rate =>
    let clock := s.clock.setRefreshMillihertz rate
    -- a new rate anchors at the last start, so the slots up to it are behind the anchor now
    { s with
      clock := clock
      passed := if clock.refreshMillihertz ≠ s.clock.refreshMillihertz
        then s.clock.lastFrameStarted.elim s.passed s.slotOf else s.passed }
  | .frameStarted t =>
    let started := { s with clock := s.clock.recordFrameStarted t }
    { started with starts := s.starts ++ [⟨started.slotOf t, s.onTime t⟩] }
  | .submission t => { s with clock := s.clock.recordSubmission t }

end Session

/-- Any sequence of calls on a clock made for any rate. -/
def run (rate : Option Nat) (ops : List Operation) : Session := ops.foldl Session.apply { clock := FrameClock.new rate }

theorem run_snoc (rate : Option Nat) (ops : List Operation) (op : Operation) :
    run rate (ops ++ [op]) = (run rate ops).apply op := by
  unfold run
  rw [List.foldl_append]
  rfl

/-- Every recorded start lies in the slot of the last start or before it, and every start made at or after the due
time is in a later slot than all starts before it. -/
structure Paced (s : Session) : Prop where
  phased : WellPhased s.clock
  behind : ∀ start ∈ s.starts, ∃ last, s.clock.lastFrameStarted = some last ∧ start.slot ≤ s.slotOf last
  increasing : s.starts.Pairwise fun earlier later => later.onTime = true → earlier.slot < later.slot

theorem Session.onTime_iff {t : Instant} :
    s.onTime t = true ↔ ∃ due, s.clock.nextDue t true = some (some due) ∧ due ≤ t := by
  unfold Session.onTime
  cases s.clock.nextDue t true with
  | none => simp
  | some due => cases due <;> simp

/-- At or after the due time, asked at any time: a start then is on time. -/
theorem WellPhased.onTime (h : WellPhased s.clock) {now due t : Instant}
    (hd : s.clock.nextDue now true = some (some due)) (ht : due ≤ t) : s.onTime t = true := by
  rw [Session.onTime_iff]
  rcases h.phase with ⟨-, hl⟩ | ⟨anchor, last, ha, hl, hle⟩
  · exact ⟨t, FrameClock.nextDue_unphased hl t, le_rfl⟩
  · obtain ⟨point, hp, rfl⟩ := (h.nextDue_eq_some ha hl hle).1 hd
    have hpt : point ≤ t := (le_max_left point now).trans ht
    exact ⟨t, (h.nextDue_eq_some ha hl hle).2 ⟨point, hp, (max_eq_right hpt).symm⟩, le_rfl⟩

/-! ## What each call does to the slots -/

theorem Session.slotOf_mono (h : WellPhased s.clock) {t u : Instant} (htu : t ≤ u) : s.slotOf t ≤ s.slotOf u := by
  unfold Session.slotOf
  cases s.clock.phaseAnchor with
  | none => exact le_rfl
  | some anchor =>
    exact Int.add_le_add_left (Grid.slot_mono h.period_pos (Instant.le_iff.1 htu)) s.passed

/-- A start at or after the due time is in a later slot than the last start. -/
theorem Session.slotOf_lt (h : WellPhased s.clock) {last t : Instant}
    (hl : s.clock.lastFrameStarted = some last) (ht : s.onTime t = true) : s.slotOf last < s.slotOf t ∧ last < t := by
  rcases h.phase with ⟨-, hn⟩ | ⟨anchor, last', ha, hl', hle⟩
  · rw [hl] at hn
    cases hn
  · obtain rfl : last = last' := Option.some.inj (hl.symm.trans hl')
    obtain ⟨due, hd, hdt⟩ := Session.onTime_iff.1 ht
    obtain ⟨point, hp, rfl⟩ := (h.nextDue_eq_some ha hl hle).1 hd
    have hpt : point.nanos ≤ t.nanos := Instant.le_iff.1 ((le_max_left point t).trans hdt)
    rw [hp] at hpt
    refine ⟨?_, Instant.lt_iff.2 ((Grid.lt_next h.period_pos).trans_le hpt)⟩
    unfold Session.slotOf
    rw [ha]
    exact Int.add_lt_add_left (Grid.slot_lt_of_next_le h.period_pos hpt) s.passed

/-- A new rate renumbers nothing: the last start keeps its slot. -/
theorem Session.slotOf_setRefresh (rate : Option Nat) {last : Instant}
    (hl : s.clock.lastFrameStarted = some last) : (s.apply (.setRefresh rate)).slotOf last = s.slotOf last := by
  by_cases hr : plausibleRefresh rate = s.clock.refreshMillihertz
  · have hc : s.clock.setRefreshMillihertz rate = s.clock := if_neg (not_not.2 hr)
    unfold Session.slotOf
    simp only [Session.apply, hc, ne_eq, not_true_eq_false, if_false]
  · have hc : s.clock.setRefreshMillihertz rate =
        { s.clock with phaseAnchor := s.clock.lastFrameStarted, refreshMillihertz := plausibleRefresh rate } :=
      if_pos hr
    have hne : (s.clock.setRefreshMillihertz rate).refreshMillihertz ≠ s.clock.refreshMillihertz := by
      rw [hc]
      exact hr
    have ha : (s.apply (.setRefresh rate)).clock.phaseAnchor = some last := by
      show (s.clock.setRefreshMillihertz rate).phaseAnchor = some last
      rw [hc]
      exact hl
    show (if _ then _ else _) + _ = _
    rw [if_pos hne, ha, hl]
    simp

/-- A recorded start moves the last start on, never back, and keeps its grid. -/
theorem Session.slotOf_recordFrameStarted {last : Instant} (h : WellPhased s.clock)
    (hl : s.clock.lastFrameStarted = some last) (t u : Instant) :
    ({ s with clock := s.clock.recordFrameStarted t } : Session).slotOf u = s.slotOf u := by
  rcases h.phase with ⟨-, hn⟩ | ⟨anchor, last', ha, hl', hle⟩
  · rw [hl] at hn
    cases hn
  · unfold Session.slotOf FrameClock.recordFrameStarted
    rw [ha]
    rfl

theorem FrameClock.recordFrameStarted_last (c : FrameClock) (t : Instant) :
    ∃ last, (c.recordFrameStarted t).lastFrameStarted = some last ∧ t ≤ last := by
  unfold FrameClock.recordFrameStarted
  cases c.lastFrameStarted with
  | none => exact ⟨t, rfl, le_rfl⟩
  | some last => exact ⟨max last t, rfl, le_max_right last t⟩

/-! ## Every run -/

theorem Paced.setRefresh (h : Paced s) (rate : Option Nat) : Paced (s.apply (.setRefresh rate)) where
  phased := h.phased.setRefreshMillihertz rate
  behind := by
    intro start hs
    obtain ⟨last, hl, hle⟩ := h.behind start hs
    refine ⟨last, (s.clock.setRefreshMillihertz_last rate).trans hl, ?_⟩
    rw [Session.slotOf_setRefresh rate hl]
    exact hle
  increasing := h.increasing

/-- The starts before a recorded one are behind the last start that follows it. -/
theorem Paced.behind_recorded (h : Paced s) (t : Instant) {start : Start} (hs : start ∈ s.starts) :
    ∃ last, (s.clock.recordFrameStarted t).lastFrameStarted = some last ∧
      start.slot ≤ ({ s with clock := s.clock.recordFrameStarted t } : Session).slotOf last := by
  obtain ⟨last, hl, hle⟩ := h.behind start hs
  refine ⟨max last t, by simp [FrameClock.recordFrameStarted, hl], ?_⟩
  rw [Session.slotOf_recordFrameStarted h.phased hl]
  exact hle.trans (Session.slotOf_mono h.phased (le_max_left last t))

theorem Paced.frameStarted (h : Paced s) (t : Instant) : Paced (s.apply (.frameStarted t)) where
  phased := h.phased.recordFrameStarted t
  behind := by
    intro start hs
    rcases List.mem_append.1 hs with hs | hs
    · exact h.behind_recorded t hs
    · obtain rfl := List.mem_singleton.1 hs
      obtain ⟨last, hl, ht⟩ := s.clock.recordFrameStarted_last t
      exact ⟨last, hl, Session.slotOf_mono (h.phased.recordFrameStarted t) ht⟩
  increasing := by
    refine List.pairwise_append.2 ⟨h.increasing, List.pairwise_singleton _ _, fun earlier he later hl hon => ?_⟩
    obtain rfl := List.mem_singleton.1 hl
    obtain ⟨last, hlast, hle⟩ := h.behind earlier he
    show earlier.slot < Session.slotOf _ t
    rw [Session.slotOf_recordFrameStarted h.phased hlast]
    exact hle.trans_lt (Session.slotOf_lt h.phased hlast hon).1

theorem Paced.submission (h : Paced s) (t : Instant) : Paced (s.apply (.submission t)) := by
  cases hl : s.clock.lastFrameStarted with
  | none =>
    -- nothing was recorded before the first start
    have hnil : s.starts = [] := by
      refine List.eq_nil_iff_forall_not_mem.2 fun start hs => ?_
      obtain ⟨last, hl', -⟩ := h.behind start hs
      rw [hl] at hl'
      cases hl'
    refine ⟨h.phased.recordSubmission t, fun start hs => ?_, h.increasing⟩
    rw [show (s.apply (.submission t)).starts = [] from hnil] at hs
    cases hs
  | some last =>
    rw [Session.apply, FrameClock.recordSubmission_of_some hl]
    exact h

theorem run_paced (rate : Option Nat) (ops : List Operation) : Paced (run rate ops) := by
  induction ops using List.reverseRecOn with
  | nil => exact ⟨wellPhased_new rate, nofun, List.Pairwise.nil⟩
  | append_singleton ops op ih =>
    rw [run_snoc]
    cases op with
    | setRefresh rate' => exact ih.setRefresh rate'
    | frameStarted t => exact ih.frameStarted t
    | submission t => exact ih.submission t

/-! ## The guarantees -/

structure Guarantees (s : Session) : Prop where
  /-- The due time is never before the time it was asked at. -/
  notBeforeNow : ∀ now due, s.clock.nextDue now true = some (some due) → now ≤ due
  /-- It is strictly after the last frame start. -/
  afterLast : ∀ last now due, s.clock.lastFrameStarted = some last → s.clock.nextDue now true = some (some due) →
    last < due
  /-- Where an anchor applies, it is the first grid point after the last start, or now when that point has passed. -/
  onGrid : ∀ anchor now due, s.clock.phaseAnchor = some anchor → s.clock.nextDue now true = some (some due) →
    ∃ last k, s.clock.lastFrameStarted = some last ∧ s.clock.periodNs = some s.clock.period ∧
      ∃ point : Instant, point.nanos = anchor.nanos + (k : Nat) * (s.clock.period : Nat) ∧
        last.nanos < point.nanos ∧ point.nanos ≤ last.nanos + s.clock.period ∧ due = max point now
  /-- It is now when no anchor applies. -/
  unanchored : ∀ now, s.clock.phaseAnchor = none → s.clock.nextDue now true = some (some now)
  /-- Without work nothing is due. -/
  idle : ∀ now, s.clock.nextDue now false = some none
  /-- A start made at or after a due time is on time, and in a later slot than all starts before it. -/
  onTime : ∀ now due t, s.clock.nextDue now true = some (some due) → due ≤ t → s.onTime t = true
  increasing : s.starts.Pairwise fun earlier later => later.onTime = true → earlier.slot < later.slot
  /-- Records not newer than the last start, and submissions behind a start, change nothing. -/
  noRewind : ∀ last t, s.clock.lastFrameStarted = some last →
    (t ≤ last → s.clock.recordFrameStarted t = s.clock) ∧ s.clock.recordSubmission t = s.clock
  /-- The due time overflows only where the first grid point after the last start is beyond the last time stamp. -/
  overflow : ∀ now hasWork, s.clock.nextDue now hasWork = none →
    ∃ anchor last, s.clock.phaseAnchor = some anchor ∧ s.clock.lastFrameStarted = some last ∧
      maxNanos < s.clock.nextSlot anchor last

/-- For every sequence of rate changes, frame starts and submissions, with any time stamps. -/
theorem frameClock_guarantees (rate : Option Nat) (ops : List Operation) : Guarantees (run rate ops) := by
  have h := run_paced rate ops
  generalize run rate ops = s at h
  have hp := h.phased
  refine ⟨?_, ?_, ?_, ?_, fun _ => rfl, fun now due t => hp.onTime, h.increasing,
    fun last t hl => ⟨hp.recordFrameStarted_of_le hl, FrameClock.recordSubmission_of_some hl t⟩, ?_⟩
  all_goals rcases hp.phase with ⟨ha, hl⟩ | ⟨anchor, last, ha, hl, hle⟩
  · intro now due hd
    rw [FrameClock.nextDue_unphased hl] at hd
    obtain rfl : now = due := Option.some.inj (Option.some.inj hd)
    exact le_rfl
  · intro now due hd
    obtain ⟨point, -, rfl⟩ := (hp.nextDue_eq_some ha hl hle).1 hd
    exact le_max_right point now
  · intro last now due hl'
    rw [hl] at hl'
    cases hl'
  · intro last' now due hl' hd
    obtain rfl : last = last' := Option.some.inj (hl.symm.trans hl')
    obtain ⟨point, hpt, rfl⟩ := (hp.nextDue_eq_some ha hl hle).1 hd
    refine lt_of_lt_of_le (Instant.lt_iff.2 ?_) (le_max_left point now)
    rw [hpt]
    exact Grid.lt_next hp.period_pos
  · intro anchor now due ha'
    rw [ha] at ha'
    cases ha'
  · intro anchor' now due ha' hd
    obtain rfl : anchor = anchor' := Option.some.inj (ha.symm.trans ha')
    obtain ⟨point, hpt, rfl⟩ := (hp.nextDue_eq_some ha hl hle).1 hd
    have hk := Grid.slot_nonneg hp.period_pos (Instant.le_iff.1 hle)
    refine ⟨last, (Grid.slot anchor.nanos s.clock.period last.nanos + 1).toNat, hl, hp.periodNs.1, point, ?_, ?_, ?_, rfl⟩
    · rw [hpt, Int.toNat_of_nonneg (by omega)]
      exact Grid.next_eq _ _ _
    · rw [hpt]
      exact Grid.lt_next hp.period_pos
    · rw [hpt]
      exact Grid.next_le hp.period_pos
  · intro now _
    exact FrameClock.nextDue_unphased hl now
  · intro now ha'
    rw [ha] at ha'
    cases ha'
  · intro now hasWork hd
    cases hasWork with
    | false => cases hd
    | true =>
      rw [FrameClock.nextDue_unphased hl] at hd
      cases hd
  · intro now hasWork hd
    cases hasWork with
    | false => cases hd
    | true => exact ⟨anchor, last, ha, hl, (hp.nextDue_eq_none ha hl hle).1 hd⟩

/-- Overdue work is due now and not at a grid point, and at the last time stamp the next grid point overflows. -/
theorem overdue_off_grid :
    (let start : Instant := ⟨0, by decide⟩
     let late : Instant := ⟨105_000_000, by decide⟩
     let clock := (run none [.frameStarted start]).clock
     clock.nextDue late true = some (some late) ∧ clock.phaseAnchor = some start ∧
       ∀ k : Nat, late.nanos ≠ start.nanos + k * clock.period) ∧
    (run none [.frameStarted ⟨maxNanos, by decide⟩]).clock.nextDue ⟨0, by decide⟩ true = none := by
  refine ⟨⟨by decide, by decide, fun k => ?_⟩, by decide⟩
  have hp : (run none [.frameStarted ⟨0, by decide⟩]).clock.period = 16_666_667 := by decide
  rw [hp]
  show (105_000_000 : Int) ≠ 0 + k * (16_666_667 : Nat)
  omega

end CocoaWay.Pacing
