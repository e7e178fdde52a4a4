import CocoaWay.InputProbe.Index
import Mathlib.Tactic.NormNum

/-!
# The calibration of a probe run

* `Rate` : a relative drift below one; `driftRate` : the drift budget of a summary;
* `checkSample`, `checkSamples` : the raw samples, checked one after another, and those that count;
* `Cal`, `calibration` : what is used of a calibration, when it passes;
* `receiptBounds`, `guestToHostBounds` : the bounds on a latency from the host to the guest, and back.
-/

namespace CocoaWay.InputProbe
open Lib Python Calibration

/-! ## Drift -/

structure Rate where
  value : ℚ
  nonneg : 0 ≤ value
  lt_one : value < 1

/-- `Fraction(str(ppm)) / 1_000_000`. -/
def relative (ppm : ℚ) : Except PyError Rate :=
  if h : 0 ≤ ppm ∧ ppm < 1000000 then
    .ok ⟨ppm / 1000000, div_nonneg h.1 (by norm_num), (div_lt_one (by norm_num)).2 h.2⟩
  else .error (.valueError "invalid relative drift budget")

def driftRate : Py → Except PyError Rate
  | .int ppm => if 2 ^ 1024 - 2 ^ 970 ≤ |ppm| then .error .overflowError else relative ppm
  | .float (some ppm) => relative ppm
  | _ => .error (.valueError "invalid relative drift budget")

/-! ## Samples -/

def Py.interval : Py → Option Interval
  | .list [.int a, .int b] => some (a, b)
  | _ => none

def readings (sample : Dict) : Option Readings := do
  return {
    hostSend := ← sample.u64 "host_send_ns"
    hostRecv := ← sample.u64 "host_recv_ns"
    guestRecv := ← sample.u64 "guest_recv_ns"
    guestSend := ← sample.u64 "guest_send_ns"
    hostSendError := ← sample.u64 "host_send_error_ns"
    hostRecvError := ← sample.u64 "host_recv_error_ns"
    guestError := ← sample.u64 "guest_error_ns" }

structure Checked where
  valid : List Readings := []
  /-- The times of the last answer. -/
  previous : Option (Int × Int) := none
  identities : Nat := 0
  hostError : Int

/-- The first identity of the guest that a sample has differently. -/
def mismatch (eq : Py → Py → Bool) (guest sample : Dict) : Option String :=
  ["server_id", "boot_id", "time_namespace"].find? fun f =>
    sample.has f && (!guest.has f || !eq (sample.get f) (guest.get f))

def processingExceedsRtt : String := "invalid raw offset interval (guest processing exceeds host RTT)"

/-- What is derived from the readings, as the sample has it. -/
def derived (sample : Dict) (r : Readings) : Bool :=
  (sample.get "rtt_ns").isInt (r.hostRecv - r.hostSend) &&
    (sample.get "guest_processing_ns").isInt (r.guestSend - r.guestRecv) &&
    Py.interval (sample.get "raw_offset_interval_ns") = some (r.guestSend - r.hostRecv, r.guestRecv - r.hostSend)

/-- The flag of a sample that does not count, and the anchor of one that does. -/
def flag (checked : Checked) (sample : Dict) (r : Readings) : Except PyError Checked :=
  if r.guestRecv - r.hostSend < r.guestSend - r.hostRecv then
    if (sample.get "invalid").isStr processingExceedsRtt then .ok checked
    else .error (.valueError "invalid raw interval not explicitly excluded")
  else if sample.has "invalid" || sample.u64 "anchor_host_ns" ≠ some ((r.hostSend + r.hostRecv) / 2) then
    .error (.valueError "raw sample invalid flag/anchor mismatch")
  else .ok { checked with valid := checked.valid ++ [r] }

/-- `eq` is the equality of two values. -/
def checkSample (eq : Py → Py → Bool) (guest : Dict) (guestError : Int) (checked : Checked) (seq : Nat) (sample : Dict)
    (r : Readings) : Except PyError Checked :=
  if sample.u64 "seq" ≠ some (seq : Int) || !sample.optional "schema" (·.isInt 1) then
    .error (.valueError "invalid raw sample schema/sequence/timestamp/error")
  else if r.hostRecv < r.hostSend ∨ r.guestSend < r.guestRecv ∨
      checked.previous.any (fun (h3, g2) => decide (r.hostSend < h3 ∨ r.guestRecv < g2)) = true then
    .error (.valueError "raw samples reversed/overlapping: clock discontinuity or wrong sample order")
  else if r.guestError ≠ guestError then .error (.valueError "raw sample Guest error budget/identity mismatch")
  else if !sample.optional "guest" (eq · (.dict guest)) then .error (.valueError "raw sample Guest identity changed")
  else
    match mismatch eq guest sample with
    | some f => .error (.valueError ("raw sample Guest identity mismatch: " ++ f))
    | none =>
      if !derived sample r then .error (.valueError "raw sample derived RTT/processing/offset mismatch")
      else flag { checked with
        previous := some (r.hostRecv, r.guestSend)
        identities := if sample.has "guest" then checked.identities + 1 else checked.identities
        hostError := max (max checked.hostError r.hostSendError) r.hostRecvError } sample r

def checkSamples (eq : Py → Py → Bool) (guest : Dict) (guestError : Int) :
    List Py → Nat → Checked → Except PyError Checked
  | [], _, checked => .ok checked
  | .dict sample :: samples, seq, checked =>
    match readings sample with
    | some r => do
      checkSamples eq guest guestError samples (seq + 1) (← checkSample eq guest guestError checked seq sample r)
    | none => .error (.valueError "invalid raw sample schema/sequence/timestamp/error")
  | _ :: _, _, _ => .error (.valueError "invalid raw sample schema/sequence/timestamp/error")

/-! ## The calibration -/

structure Cal where
  reference : Int
  offset : Interval
  validity : Interval
  rate : Rate
  hostError : Int
  guestError : Int
  rawIndex : RawOffsetIndex
  rawReference : Interval
  /-- The samples that `raw_valid_samples` counts. -/
  rawValid : List Readings
  rawInvalidSamples : Nat
  rawIdentityRecords : Nat
  measurement : Interval

def usable (clock summary host guest : Dict) : Bool :=
  (clock.get "schema").isInt 1 && (clock.get "kind").isStr "clock_offset_calibration" &&
    (clock.get "usable").isBool true && (match clock.get "errors" with | .list [] => true | _ => false) &&
    (host.get "clock").isStr "host_ca" && (guest.get "clock").isStr "guest_monotonic" &&
    (clock.get "offset_sign").isStr "guest_monotonic_ns minus host_ca_ns" && (summary.get "consistent").isBool true &&
    (summary.u64 "valid_samples").any fun n => decide (100 ≤ n)

structure Window where
  offset : Interval
  validity : Interval
  reference : Int

def window (summary : Dict) : Option Window := do
  let offset ← Py.interval (summary.get "offset_interval_ns")
  let validity ← Py.interval (summary.get "conditional_valid_host_interval_ns")
  let reference ← summary.u64 "reference_host_ns"
  if offset.1 ≤ offset.2 ∧ (Py.int validity.1).isU64 ∧ (Py.int validity.2).isU64 ∧ validity.1 ≤ reference ∧
      reference ≤ validity.2 then
    some ⟨offset, validity, reference⟩
  else none

/-- The error budgets of both clocks, with a server that has an identity. -/
def budgets (host guest : Dict) : Except PyError (Int × Int) :=
  let missing := PyError.valueError "missing timestamp error budgets or stable Guest server identity"
  match host.u64 "timestamp_error_budget_ns", guest.u64 "clock_error_ns" with
  | some hostError, some guestError =>
    match guest.get "server_id" with
    | .str text =>
      if 0 < text.utf8ByteSize ∧ text.utf8ByteSize ≤ 256 then .ok (hostError, guestError) else .error missing
    | .lone _ => .error .unicodeError
    | _ => .error missing
  | _, _ => .error missing

def rawSamples (clock : Dict) : Except PyError (List Py) :=
  match clock.get "samples" with
  | .list samples =>
    if 100 ≤ samples.length ∧ samples.length ≤ 10000 then .ok samples
    else .error (.valueError "need 100..10000 bounded raw calibration samples")
  | _ => .error (.valueError "need 100..10000 bounded raw calibration samples")

/-- The times between which the samples were taken. -/
def measured (eq : Py → Py → Bool) (summary : Dict) (validity : Interval) (valid : List Readings) (invalid : Nat) :
    Except PyError Interval :=
  if valid.length < 100 ∨ summary.u64 "valid_samples" ≠ some (valid.length : Int) ∨
      (summary.has "invalid_samples" = true ∧ summary.u64 "invalid_samples" ≠ some (invalid : Int)) then
    .error (.valueError "raw sample counts disagree with calibration summary")
  else
    match valid.head?, valid.getLast? with
    | some first, some last =>
      let measurement := (first.hostSend, last.hostRecv)
      if !summary.optional "measurement_host_interval_ns" (eq · (.list [.int measurement.1, .int measurement.2])) ||
          decide (measurement.1 < validity.1) || decide (validity.2 < measurement.2) then
        .error (.valueError "raw sample measurement/validity window mismatch")
      else .ok measurement
    | _, _ => .error .indexError

/-- The constraints can become inconsistent only at the times of samples. -/
def consistent (index : RawOffsetIndex) : List Readings → Except PyError Unit
  | [] => .ok ()
  | s :: samples => do
    discard (index.bounds s.hostSend 0)
    discard (index.bounds s.hostRecv 0)
    consistent index samples

def calibration (eq : Py → Py → Bool) (clock : Dict) (verified : Bool) : Except PyError Cal :=
  if !verified then
    .error (.valueError "--guest-clock-verified required: explicit same-container/boot/normal-clock proof")
  else
    match clock.get "summary", clock.get "host", clock.get "guest" with
    | .dict summary, .dict host, .dict guest =>
      if !usable clock summary host guest then .error (.valueError "unusable/wrong-clock calibration")
      else
        match window summary with
        | none => .error (.valueError "invalid calibration interval/reference/validity")
        | some w => do
          let rate ← driftRate (Dict.get summary "assumed_max_abs_offset_drift_ppm")
          let (hostError, guestError) ← budgets host guest
          let samples ← rawSamples clock
          let checked ← checkSamples eq guest guestError samples 0 { hostError := hostError }
          let invalid := samples.length - checked.valid.length
          let measurement ← measured eq summary w.validity checked.valid invalid
          let index ← RawOffsetIndex.new checked.valid rate.value
          consistent index checked.valid
          let rawReference ← index.bounds w.reference 0
          return {
            reference := w.reference
            offset := w.offset
            validity := w.validity
            rate := rate
            hostError := checked.hostError
            guestError := guestError
            rawIndex := index
            rawReference := rawReference
            rawValid := checked.valid
            rawInvalidSamples := invalid
            rawIdentityRecords := checked.identities
            measurement := measurement }
    | _, _, _ => .error (.valueError "invalid calibration schema/clock metadata")

/-! ## Latencies -/

/-- A latency whose change of the offset is not known. -/
def latency (residual : Interval) (rate : Rate) : Interval :=
  (max 0 ⌊(residual.1 : ℚ) / (1 + rate.value)⌋, ceilFraction (residual.2 / (1 - rate.value)))

def receiptBounds (h g : Py) (cal : Cal) : Except PyError Interval :=
  if !(h.isU64 && g.isU64) then .error (.valueError "invalid input/receipt timestamp")
  else do
    let h ← h.operand
    let g ← g.operand
    let (start, stop) := cal.validity
    let eh := cal.hostError
    let eg := cal.guestError
    if h - eh < start ∨ stop < h + eh then .error (.valueError "input outside calibration validity")
    else
      let (lower, upper) ← cal.rawIndex.bounds h eh
      let residual := (g - h - upper - eh - eg, g - h - lower + eh + eg)
      if residual.2 < 0 then .error (.valueError "receipt precedes input under all permitted offsets")
      else
        let (low, high) := latency residual cal.rate
        if stop < h + eh + high then .error (.valueError "receipt uncertainty extends beyond calibration validity")
        else .ok (low, high)

/-- The other way; the offset is the one at the host's time. -/
def guestToHostBounds (g h : Py) (cal : Cal) : Except PyError Interval :=
  if !(g.isU64 && h.isU64) then .error (.valueError "invalid pre-commit/Host destination timestamp")
  else do
    let g ← g.operand
    let h ← h.operand
    let (start, stop) := cal.validity
    let eh := cal.hostError
    let eg := cal.guestError
    if h - eh < start ∨ stop < h + eh then .error (.valueError "Host destination outside calibration validity")
    else
      let (lower, upper) ← cal.rawIndex.bounds h eh
      let residual := (h - g + lower - eh - eg, h - g + upper + eh + eg)
      if residual.2 < 0 then .error (.valueError "Host destination precedes pre-commit under all permitted offsets")
      else
        let (low, high) := latency residual cal.rate
        if h - eh - high < start then .error (.valueError "pre-commit uncertainty extends before calibration validity")
        else .ok (low, high)

end CocoaWay.InputProbe
