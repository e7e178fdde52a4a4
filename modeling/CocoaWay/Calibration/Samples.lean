import CocoaWay.Lib.Python
import CocoaWay.Lib.Ranks

/-!
# Clock calibration

The host's exchanges with the guest, and the interval they leave for the guest's offset.

* `driftNs`, `offsetInterval` : the constraints of an exchange at a reference time, with the drift on the way there;
* `Sample`, `makeSample` : an exchange with what is derived from it, or why it does not count;
* `oneWayBounds`, `quantiles` : bounds for both directions, and nearest-rank quantiles;
* `Summary`, `summarize` : the intersection of the constraints, and the bounds it gives for every sample.
-/

namespace CocoaWay.Calibration
open Lib Python

abbrev Interval := Int × Int

/-- `ppm` is the fraction of what `str` writes for the argument. -/
def driftNs (distance : Int) (ppm : ℚ) : Int :=
  let rate := ppm / 1000000
  (|distance| * rate.num + rate.den - 1) / rate.den

/-! ## Samples -/

/-- The readings and the error budgets of an exchange, as integers. -/
structure Readings where
  hostSend : Int
  guestRecv : Int
  guestSend : Int
  hostRecv : Int
  hostSendError : Int
  hostRecvError : Int
  guestError : Int
  deriving DecidableEq

structure Bounds where
  hostToGuest : Interval
  guestToHost : Interval

structure Sample where
  seq : Nat
  hostSend : Py
  guestRecv : Py
  guestSend : Py
  hostRecv : Py
  hostSendError : Py
  hostRecvError : Py
  guestError : Py
  rtt : Option Int := none
  invalid : Option String := none
  guestProcessing : Option Int := none
  rawOffsetInterval : Option Interval := none
  anchorHost : Option Int := none
  offsetIntervalAtAnchor : Option Interval := none
  oneWayBounds : Option Bounds := none

/-- The operands of the arithmetic on a sample. -/
def Sample.readings (s : Sample) : Except PyError Readings := do
  return {
    hostSend := ← s.hostSend.operand
    guestRecv := ← s.guestRecv.operand
    guestSend := ← s.guestSend.operand
    hostRecv := ← s.hostRecv.operand
    hostSendError := ← s.hostSendError.operand
    hostRecvError := ← s.hostRecvError.operand
    guestError := ← s.guestError.operand }

/-- `sample[key]`. -/
def field {α : Type} (key : String) : Option α → Except PyError α
  | some a => .ok a
  | none => .error (.keyError key)

def Readings.offsetInterval (r : Readings) (referenceHost : Int) (ppm : ℚ) : Interval :=
  let lower := r.guestSend - r.hostRecv - r.hostRecvError - r.guestError
  let upper := r.guestRecv - r.hostSend + r.hostSendError + r.guestError
  (lower - driftNs (|referenceHost - r.hostRecv| + r.hostRecvError) ppm,
    upper + driftNs (|referenceHost - r.hostSend| + r.hostSendError) ppm)

def offsetInterval (s : Sample) (referenceHost : Int) (ppm : ℚ) : Except PyError Interval :=
  s.readings.map fun r => r.offsetInterval referenceHost ppm

/-- The arguments of `make_sample`. -/
structure Exchanged where
  seq : Nat
  hostSend : Py
  guestRecv : Py
  guestSend : Py
  hostRecv : Py
  hostSendError : Py
  hostRecvError : Py
  guestError : Py

def Exchanged.values (e : Exchanged) : List Py :=
  [e.hostSend, e.guestRecv, e.guestSend, e.hostRecv, e.hostSendError, e.hostRecvError, e.guestError]

def Exchanged.rtt (e : Exchanged) : Option Int :=
  match e.hostSend, e.hostRecv with
  | .int h0, .int h3 => if (Py.int h0).isU64 && (Py.int h3).isU64 && decide (h0 ≤ h3) then some (h3 - h0) else none
  | _, _ => none

def Exchanged.sample (e : Exchanged) : Sample where
  seq := e.seq
  hostSend := e.hostSend
  guestRecv := e.guestRecv
  guestSend := e.guestSend
  hostRecv := e.hostRecv
  hostSendError := e.hostSendError
  hostRecvError := e.hostRecvError
  guestError := e.guestError
  rtt := e.rtt

def makeSample (e : Exchanged) (ppm : ℚ) : Except PyError Sample :=
  let sample := e.sample
  if !e.values.all Py.isU64 then
    .ok { sample with invalid := some "non-u64 timestamp/error" }
  else do
    let r ← sample.readings
    if r.hostRecv < r.hostSend ∨ r.guestSend < r.guestRecv then
      .ok { sample with invalid := some "reversed same-clock timestamps" }
    else
      let sample := { sample with
        guestProcessing := some (r.guestSend - r.guestRecv)
        rawOffsetInterval := some (r.guestSend - r.hostRecv, r.guestRecv - r.hostSend) }
      if r.guestRecv - r.hostSend < r.guestSend - r.hostRecv then
        .ok { sample with invalid := some "invalid raw offset interval (guest processing exceeds host RTT)" }
      else do
        let anchor := (r.hostSend + r.hostRecv) / 2
        let interval ← offsetInterval sample anchor ppm
        .ok { sample with anchorHost := some anchor, offsetIntervalAtAnchor := some interval }

/-! ## Bounds -/

def oneWayBounds (s : Sample) (offsetAtReference : Interval) (referenceHost : Int) (ppm : ℚ) :
    Except PyError Bounds := do
  let r ← s.readings
  let distance := max (|r.hostSend - referenceHost| + r.hostSendError) (|r.hostRecv - referenceHost| + r.hostRecvError)
  let drift := driftNs distance ppm
  let lower := offsetAtReference.1 - drift
  let upper := offsetAtReference.2 + drift
  let forward := r.guestRecv - r.hostSend
  let reverse := r.hostRecv - r.guestSend
  let fError := r.hostSendError + r.guestError
  let rError := r.hostRecvError + r.guestError
  let rttUpper := (← field "rtt_ns" s.rtt) + r.hostSendError + r.hostRecvError
  let bounds : Bounds := {
    hostToGuest := (max 0 (forward - upper - fError), min rttUpper (forward - lower + fError))
    guestToHost := (max 0 (reverse + lower - rError), min rttUpper (reverse + upper + rError)) }
  if bounds.hostToGuest.2 < bounds.hostToGuest.1 ∨ bounds.guestToHost.2 < bounds.guestToHost.1 then
    .error (.valueError "calibrated one-way interval is empty")
  else .ok bounds

structure Quantiles where
  p50 : Int
  p95 : Int
  p99 : Int

/-- `ordered[ceil(len(ordered) * p) - 1]`; the float products of lengths in memory round up to the same rank. -/
def quantile (values : List Int) (p : ℚ) : Except PyError Int :=
  match ranked values p with
  | some value => .ok value
  | none => .error .indexError

def quantiles (values : List Int) : Except PyError (Option Quantiles) := do
  if values.isEmpty then return none
  return some ⟨← quantile values (1 / 2), ← quantile values (19 / 20), ← quantile values (99 / 100)⟩

/-! ## The summary -/

structure QuantileBounds where
  p50 : Interval
  p95 : Interval
  p99 : Interval

structure Summary where
  validSamples : Nat
  invalidSamples : Nat
  rttSamples : Nat
  rtt : Option Quantiles
  consistent : Bool := false
  referenceHost : Option Int := none
  measurementHostInterval : Option Interval := none
  offsetInterval : Option Interval := none
  observedAverageDrift : Option (ℚ × ℚ) := none
  offsetMidpoint : Option Int := none
  offsetMidpointError : Option Int := none
  conditionalValidHostInterval : Option Interval := none
  extrapolationError : Option Int := none
  hostToGuest : Option QuantileBounds := none
  guestToHost : Option QuantileBounds := none

/-- The quotient that `a / b` rounds to a float. -/
def trueDivide (a b : Int) : Except PyError ℚ :=
  if b = 0 then .error .zeroDivisionError
  else if 2 ^ 1024 - 2 ^ 970 ≤ |(a : ℚ) / b| then .error .overflowError
  else .ok (a / b)

def least (values : List Int) : Except PyError Int :=
  match values.min? with
  | some value => .ok value
  | none => .error (.valueError "min() iterable argument is empty")

def greatest (values : List Int) : Except PyError Int :=
  match values.max? with
  | some value => .ok value
  | none => .error (.valueError "max() iterable argument is empty")

def Sample.isValid (s : Sample) : Bool := s.invalid.isNone

/-- The loops over `valid`, whose samples stand in the list. -/
def overValid (f : Sample → Except PyError Sample) (samples : List Sample) : Except PyError (List Sample) :=
  samples.mapM fun s => if s.isValid then f s else .ok s

def atAnchor (ppm : ℚ) (s : Sample) : Except PyError Sample := do
  let anchor ← field "anchor_host_ns" s.anchorHost
  let interval ← offsetInterval s anchor ppm
  .ok { s with offsetIntervalAtAnchor := some interval }

def withBounds (ppm : ℚ) (interval : Interval) (reference : Int) (s : Sample) : Except PyError Sample := do
  let bounds ← CocoaWay.Calibration.oneWayBounds s interval reference ppm
  .ok { s with oneWayBounds := some bounds }

def observedDrift (first last : Sample) : Except PyError (Option (ℚ × ℚ)) := do
  let elapsed := (← field "anchor_host_ns" last.anchorHost) - (← field "anchor_host_ns" first.anchorHost)
  if 0 < elapsed then
    let a ← field "offset_interval_ns_at_anchor" first.offsetIntervalAtAnchor
    let b ← field "offset_interval_ns_at_anchor" last.offsetIntervalAtAnchor
    return some (← trueDivide ((b.1 - a.2) * 1000000) elapsed, ← trueDivide ((b.2 - a.1) * 1000000) elapsed)
  else return none

/-- The quantiles of the lower bounds, and those of the upper ones. -/
def quantileBounds (bounds : List Interval) : Except PyError (Option QuantileBounds) := do
  let lows ← quantiles (bounds.map Prod.fst)
  let highs ← quantiles (bounds.map Prod.snd)
  match lows, highs with
  | some lows, some highs => return some ⟨(lows.p50, highs.p50), (lows.p95, highs.p95), (lows.p99, highs.p99)⟩
  | _, _ => .error .typeError

/-- The summary of the valid samples, and the bounds of each. -/
def summarizeValid (samples : List Sample) (ppm : ℚ) (validFor : Int) (summary : Summary) (first last : Sample) :
    Except PyError (Summary × List Sample) := do
  let readings ← (samples.filter Sample.isValid).mapM Sample.readings
  let start ← least (readings.map (·.hostSend))
  let stop ← greatest (readings.map (·.hostRecv))
  let reference := (start + stop) / 2
  let intervals := readings.map fun r => r.offsetInterval reference ppm
  let lower ← greatest (intervals.map Prod.fst)
  let upper ← least (intervals.map Prod.snd)
  let observed ← observedDrift first last
  let summary := { summary with
    referenceHost := some reference, measurementHostInterval := some (start, stop), offsetInterval :=
      some (lower, upper)
    consistent := decide (lower ≤ upper), observedAverageDrift := observed }
  if lower ≤ upper then
    let midpoint := (lower + upper) / 2
    let samples ← overValid (withBounds ppm (lower, upper) reference) samples
    let bounds := (samples.filter Sample.isValid).filterMap (·.oneWayBounds)
    let hostToGuest ← quantileBounds (bounds.map (·.hostToGuest))
    let guestToHost ← quantileBounds (bounds.map (·.guestToHost))
    return ({ summary with
      offsetMidpoint := some midpoint, offsetMidpointError := some (max (midpoint - lower) (upper - midpoint))
      conditionalValidHostInterval := some (start, stop + validFor)
      extrapolationError := some (driftNs (stop + validFor - reference) ppm)
      hostToGuest := hostToGuest, guestToHost := guestToHost }, samples)
  else return (summary, samples)

def summarize (samples : List Sample) (ppm : ℚ) (validFor : Int) : Except PyError (Summary × List Sample) := do
  let samples ← overValid (atAnchor ppm) (samples.map fun s => { s with oneWayBounds := none })
  let valid := samples.filter Sample.isValid
  let rtts := samples.filterMap (·.rtt)
  let summary : Summary := {
    validSamples := valid.length, invalidSamples := samples.length - valid.length, rttSamples := rtts.length
    rtt := ← quantiles rtts }
  match valid.head?, valid.getLast? with
  | some first, some last => summarizeValid samples ppm validFor summary first last
  | _, _ => return (summary, samples)

end CocoaWay.Calibration
