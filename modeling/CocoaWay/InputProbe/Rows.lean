import CocoaWay.Lib.Buckets
import CocoaWay.Lib.Layout
import CocoaWay.TraceAnalysis.Records

/-!
# Records of a probe run, and the markers of its frames

* `Value`, `Row` : a record as it was read, with scalar fields and the bytes of a marker;
* `Value.eq` : the equality of values, for which `True` is 1;
* `u32Tag`, `idKey`, `sourcePair` : what joins records;
* `buckets`, `one` : the records by a key, and the only one of a key;
* `unpackFrom` : a little-endian number of a payload;
* `Marker`, `marker` : a payload that passes;
* `markerMatches` : whether it is the marker of a commit.
-/

namespace CocoaWay.InputProbe
open Lib TraceAnalysis Lib.Layout

/-! ## Records -/

section Records

inductive Value
  | none
  | bool (b : Bool)
  | int (n : Int)
  | str (text : String)
  | bytes (payload : List UInt8)
  deriving DecidableEq

abbrev Row := List (String × Value)

/-- `row.get(key)`. -/
def Row.get (row : Row) (key : String) : Value := (row.lookup key).getD .none

namespace Value

def number? : Value → Option Int
  | bool b => some (if b then 1 else 0)
  | int n => some n
  | _ => Option.none

/-- `a == b`. -/
def eq (a b : Value) : Bool :=
  match a.number?, b.number? with
  | some x, some y => x = y
  | Option.none, Option.none => a = b
  | _, _ => false

/-- `uint(value, bits)`, with the number. -/
def uint (bits : Nat) : Value → Option Int
  | int n => Python.unsigned bits n
  | _ => Option.none

def isUint (bits : Nat) (v : Value) : Bool := (v.uint bits).isSome

/-- `v is b`. -/
def isBool (b : Bool) (v : Value) : Bool := v = bool b

end Value

variable {α κ : Type}

/-- `0|[1-9][0-9]{0,9}`. -/
def isDecimal : List Char → Bool
  | ['0'] => true
  | c :: rest => decide ('1' ≤ c ∧ c ≤ '9') && decide (rest.length ≤ 9) && rest.all fun c => decide ('0' ≤ c ∧ c ≤ '9')
  | [] => false

def decimal (text : List Char) : Int := text.foldl (fun n c => 10 * n + (c.toNat - 48 : Nat)) 0

def u32Tag : Value → Option Int
  | .str text => if isDecimal text.toList then Value.uint 32 (.int (decimal text.toList)) else none
  | v => v.uint 32

def idKey : Value → Option Tag
  | .str id => (text (.str id)).map .str
  | v => (v.uint 64).map .int

/-- `source_pair`, by the fields of the two numbers. -/
def sourcePair (names : String × String) (row : Row) : Option (Int × Int) := do
  let first ← u32Tag (row.get names.1)
  let second ← u32Tag (row.get names.2)
  some (first, second)

def hostPair : Row → Option (Int × Int) := sourcePair ("source_event_serial", "source_event_time")

def guestPair : Row → Option (Int × Int) := sourcePair ("protocol_serial", "forwarded_event_time_ms_opaque")

/-- A number that was checked. -/
def Row.int (row : Row) (key : String) : Int := ((row.get key).uint 64).getD 0

def buckets [DecidableEq κ] (rows : List α) (key : α → Option κ) : κ → List α := bucket key rows

def one (index : κ → List α) (key : Option κ) : Option α := key.bind fun k => sole (index k)

theorem one_eq_some {index : κ → List α} {key : Option κ} {r : α} :
    one index key = some r ↔ ∃ k, key = some k ∧ index k = [r] := by
  cases key <;> simp [one, sole_eq_some]

end Records

/-! ## Markers -/

/-- `struct.unpack_from`, for a number of `size` bytes. -/
def unpackFrom (size : Nat) (payload : List UInt8) (offset : Nat) : Int := fromLe (Layout.slice payload offset size)

structure Marker where
  flags : Int
  kind : Int
  time : Int
  code : Int
  state : Int
  serial : Int
  width : Int
  height : Int
  format : Int
  pid : Int
  seat : Int
  reserved : Int
  frame : Int
  sequence : Int
  receipt : Int
  handled : Int
  preCommit : Int
  applied : Int
  first : Int
  last : Int

def fields (payload : List UInt8) : Marker :=
  let u32 := unpackFrom 4 payload
  let u64 := unpackFrom 8 payload
  { flags := u32 8, kind := u32 12, time := u32 32, code := u32 36, state := u32 40, serial := u32 44, width := u32 96
    height := u32 100, format := u32 104, pid := u32 108, seat := u32 112, reserved := u32 116, frame := u64 16
    sequence := u64 24, receipt := u64 48, handled := u64 56, preCommit := u64 64, applied := u64 72, first := u64 80
    last := u64 88 }

/-- `CWIP`. -/
def magic : List UInt8 := [0x43, 0x57, 0x49, 0x50]

/-- `none` where it raises. -/
def marker : Value → Option Marker
  | .bytes payload =>
    if payload.length ≠ 120 ∨ payload.take 4 ≠ magic then none
    else if (unpackFrom 2 payload 4, unpackFrom 2 payload 6) ≠ (1, 120) then none
    else
      let m := fields payload
      -- no flag above the fourth
      if 16 ≤ m.flags ∨ m.format ≠ 0 ∨ m.reserved ≠ 0 ∨ m.frame = 0 then none else some m
  | _ => none

/-- `MARKER_FIELDS`. -/
def markerFields : List ((Marker → Int) × String) :=
  [(Marker.frame, "frame_sequence"), (Marker.kind, "cause_kind"), (Marker.sequence, "cause_event_sequence"),
    (Marker.code, "cause_evdev_code"), (Marker.state, "cause_raw_state"), (Marker.serial, "cause_protocol_serial"),
    (Marker.seat, "cause_seat_global"), (Marker.receipt, "cause_receipt_ns"), (Marker.handled, "cause_handler_ns"),
    (Marker.preCommit, "pre_commit_ns"), (Marker.applied, "applied_visual_events"),
    (Marker.first, "first_applied_event_sequence"), (Marker.last, "last_applied_event_sequence"),
      (Marker.width, "width"),
    (Marker.height, "height"), (Marker.pid, "pid")]

def commitFlags (commit : Row) : Int :=
  (if (commit.get "has_new_input_cause").isBool true then 1 else 0) +
    (if (commit.get "continuous_animation").isBool true then 2 else 0) +
    (if commit.get "cause_forwarded_event_time_ms_opaque" ≠ .none then 4 else 0) +
    if 1 < commit.int "applied_visual_events" then 8 else 0

/-- `value or 0`, for a time. -/
def timeOrZero (v : Value) : Value := if v = .none then .int 0 else v

def markerMatches (m : Marker) (commit : Row) : Bool :=
  m.flags = commitFlags commit && markerFields.all (fun (field, key) => (Value.int (field m)).eq (commit.get key)) &&
    (Value.int m.time).eq (timeOrZero (commit.get "cause_forwarded_event_time_ms_opaque"))

end CocoaWay.InputProbe
