import CocoaWay.Calibration.Samples
import CocoaWay.Lib.Envelope
import Mathlib.Data.List.Sort
import Mathlib.Data.Prod.Lex
import Mathlib.Order.Bounds.Basic

/-!
# The index of the raw offsets

Every sample of a calibration bounds the guest's offset at a time of the host, with the drift on the way there.

* `point`, `envelope` : the constraints of the samples in order of their times, with the best of them from both ends;
* `RawOffsetIndex.endpoint`, `RawOffsetIndex.bounds` : the best constraint at a time, and the interval that both leave;
* `constraint` : what a sample says at a time, exactly; `endpoint_eq` : the index finds the best of them, rounded
  outward;
* `scan`, `bounds_eq` : the bounds are those of a scan over the samples.
-/

namespace CocoaWay.InputProbe
open Lib Python Calibration

/-! ## The index -/

structure Envelope where
  times : List Int
  left : List Int
  right : List Int

structure RawOffsetIndex where
  n : Int
  d : Int
  lower : Envelope
  upper : Envelope

def extreme (upper : Bool) (a b : Int) : Int := if upper then min a b else max a b

def sign (upper : Bool) : Int := if upper then 1 else -1

def time (s : Readings) (upper : Bool) : Int := if upper then s.hostSend else s.hostRecv

def timeError (s : Readings) (upper : Bool) : Int := if upper then s.hostSendError else s.hostRecvError

def base (s : Readings) (upper : Bool) : Int :=
  if upper then s.guestRecv - time s upper + timeError s upper + s.guestError
  else s.guestSend - time s upper - timeError s upper - s.guestError

/-- Tuples are compared from the front. -/
abbrev Point := Int ×ₗ Int ×ₗ Int

def Point.time (p : Point) : Int := (ofLex p).1

def Point.left (p : Point) : Int := (ofLex (ofLex p).2).1

def Point.right (p : Point) : Int := (ofLex (ofLex p).2).2

def point (n d : Int) (upper : Bool) (s : Readings) : Point :=
  let t := time s upper
  let error := timeError s upper
  toLex (t, toLex (base s upper * d - sign upper * n * t + sign upper * n * error,
    base s upper * d + sign upper * n * t + sign upper * n * error))

def envelope (n d : Int) (samples : List Readings) (upper : Bool) : Except PyError Envelope :=
  match (samples.map (point n d upper)).insertionSort (· ≤ ·) with
  | [] => .error (.valueError "not enough values to unpack (expected 3, got 0)")
  | points => .ok {
      times := points.map Point.time
      left := running (extreme upper) (points.map Point.left)
      right := runningBack (extreme upper) (points.map Point.right) }

def RawOffsetIndex.new (samples : List Readings) (rate : ℚ) : Except PyError RawOffsetIndex := do
  return {
    n := rate.num
    d := rate.den
    lower := ← envelope rate.num rate.den samples false
    upper := ← envelope rate.num rate.den samples true }

/-- `values[i]`. -/
def item (values : List Int) (i : Nat) : Except PyError Int :=
  match values[i]? with
  | some value => .ok value
  | none => .error .indexError

def bisectRight (times : List Int) (h : Int) : Nat := (times.takeWhile (· ≤ h)).length

/-- The best constraint of the times up to `h`. -/
def Envelope.before (e : Envelope) (pos : Nat) (step h : Int) : Except PyError (List Int) :=
  if pos = 0 then .ok [] else (item e.left (pos - 1)).map fun value => [value + step * h]

def Envelope.after (e : Envelope) (pos : Nat) (step h : Int) : Except PyError (List Int) :=
  if pos < e.times.length then (item e.right pos).map fun value => [value - step * h] else .ok []

def Envelope.candidates (e : Envelope) (step h : Int) : Except PyError (List Int) := do
  let pos := bisectRight e.times h
  return (← e.before pos step h) ++ (← e.after pos step h)

/-- Rounded outward. -/
def roundOut (upper : Bool) (value d : Int) : Int := if upper then -(-value / d) else value / d

def RawOffsetIndex.endpoint (index : RawOffsetIndex) (h error : Int) (upper : Bool) : Except PyError Int := do
  let step := sign upper * index.n
  let candidates ← (if upper then index.upper else index.lower).candidates step h
  match best (extreme upper) candidates with
  | none => .error (.valueError "iterable argument is empty")
  | some value => .ok (roundOut upper (value + step * error) index.d)

def RawOffsetIndex.bounds (index : RawOffsetIndex) (h error : Int) : Except PyError Interval := do
  let low ← index.endpoint h error false
  let high ← index.endpoint h error true
  if high < low then .error (.valueError "raw calibration constraints inconsistent at event time") else .ok (low, high)

/-! ## The best constraint -/

variable {samples : List Readings} {rate : ℚ} {n d h error : Int} {upper : Bool} {s : Readings}

/-- A constraint that leaves less. -/
def Tighter (upper : Bool) (a b : Int) : Prop := if upper then a ≤ b else b ≤ a

theorem picks_extreme (upper : Bool) : Picks (Tighter upper) (extreme upper) := by
  cases upper with
  | false => exact picks_max
  | true => exact picks_min

theorem tighter_add (c : Int) (a b : Int) (hab : Tighter upper a b) : Tighter upper (a + c) (b + c) := by
  cases upper with
  | false => exact Int.add_le_add_right hab c
  | true => exact Int.add_le_add_right hab c

theorem tighter_antisymm (a b : Int) (hab : Tighter upper a b) (hba : Tighter upper b a) : a = b := by
  cases upper with
  | false => exact Int.le_antisymm hba hab
  | true => exact Int.le_antisymm hab hba

/-- What the point of a sample says at `h`. -/
def Point.at (step h : Int) (p : Point) : Int := if p.time ≤ h then p.left + step * h else p.right - step * h

theorem at_point (n d h : Int) (upper : Bool) (s : Readings) : (point n d upper s).at (sign upper * n) h =
    base s upper * d + sign upper * n * (|h - time s upper| + timeError s upper) := by
  unfold Point.at
  by_cases hle : time s upper ≤ h
  · rw [if_pos (show (point n d upper s).time ≤ h from hle), abs_of_nonneg (by omega)]
    show base s upper * d - sign upper * n * time s upper + sign upper * n * timeError s upper + sign upper * n * h = _
    ring
  · rw [if_neg (show ¬(point n d upper s).time ≤ h from hle), abs_of_nonpos (by omega)]
    show base s upper * d + sign upper * n * time s upper + sign upper * n * timeError s upper - sign upper * n * h = _
    ring

theorem takeWhile_time (points : List Point) (h : Int) :
    ((points.map Point.time).takeWhile (· ≤ h)).length = (points.takeWhile fun p => p.time ≤ h).length := by
  rw [List.takeWhile_map, List.length_map]
  rfl

/-- In order, the points up to `h` come first. -/
theorem time_of_mem_dropWhile {points : List Point} (hs : points.Pairwise (· ≤ ·)) {p : Point}
    (hp : p ∈ points.dropWhile fun p => p.time ≤ h) : ¬p.time ≤ h := by
  induction points with
  | nil => cases hp
  | cons a points ih =>
    obtain ⟨hfirst, hs⟩ := List.pairwise_cons.1 hs
    by_cases ha : a.time ≤ h
    · rw [List.dropWhile_cons_of_pos (by simpa using ha)] at hp
      exact ih hs hp
    · rw [List.dropWhile_cons_of_neg (by simpa using ha)] at hp
      rcases List.mem_cons.1 hp with rfl | hp
      · exact ha
      · have hle : a.time ≤ p.time := Prod.Lex.monotone_fst_ofLex (hfirst p hp)
        omega

/-- The candidates are the best of the points up to `h`, and the best of those after it. -/
theorem candidates_eq {points : List Point} (hs : points.Pairwise (· ≤ ·)) (hne : points ≠ []) (op : Int → Int → Int)
    {R : Int → Int → Prop} (hop : Picks R op) (hadd : ∀ c a b, R a b → R (a + c) (b + c)) (step h : Int) :
    ∃ candidates e, Envelope.candidates
        { times := points.map Point.time, left := running op (points.map Point.left),
          right := runningBack op (points.map Point.right) } step h = .ok candidates ∧
      best op candidates = some e ∧ Best R e (points.map (·.at step h)) := by
  have hpos : bisectRight (points.map Point.time) h = (points.takeWhile fun p => p.time ≤ h).length :=
    takeWhile_time points h
  have htake := List.takeWhile_append_dropWhile (p := fun p : Point => p.time ≤ h) (l := points)
  generalize hk : (points.takeWhile fun p => p.time ≤ h).length = k at hpos
  have hfront : points.take k = points.takeWhile fun p => p.time ≤ h := by
    conv_lhs => rw [← htake, ← hk, List.take_left]
  have hback : points.drop k = points.dropWhile fun p => p.time ≤ h := by
    conv_lhs => rw [← htake, ← hk, List.drop_left]
  have hbefore : k ≠ 0 → ∃ e, item (running op (points.map Point.left)) (k - 1) = .ok e ∧
      Best R (e + step * h) ((points.take k).map (·.at step h)) := by
    intro hne
    have hlt : k - 1 < (points.map Point.left).length := by
      rw [List.length_map]
      have hle := (List.takeWhile_sublist (l := points) fun p => p.time ≤ h).length_le
      omega
    obtain ⟨e, he, hbest⟩ := getElem?_running hop hlt
    refine ⟨e, by rw [item, he], ?_⟩
    rw [show k - 1 + 1 = k by omega] at hbest
    have hmapped := hbest.map (f := fun a => a + step * h) (S := R) (hadd (step * h))
    rw [← List.map_take, List.map_map] at hmapped
    convert hmapped using 1
    refine List.map_congr_left fun p hp => ?_
    rw [hfront] at hp
    exact if_pos (of_decide_eq_true (List.all_eq_true.1 List.all_takeWhile p hp))
  have hafter : k < points.length → ∃ e, item (runningBack op (points.map Point.right)) k = .ok e ∧
      Best R (e - step * h) ((points.drop k).map (·.at step h)) := by
    intro hlt
    obtain ⟨e, he, hbest⟩ := getElem?_runningBack (l := points.map Point.right) hop (by rwa [List.length_map])
    refine ⟨e, by rw [item, he], ?_⟩
    have hmapped := hbest.map (f := fun a => a + -(step * h)) (S := R) (hadd (-(step * h)))
    rw [← List.map_drop, List.map_map] at hmapped
    rw [Int.sub_eq_add_neg]
    convert hmapped using 1
    refine List.map_congr_left fun p hp => ?_
    rw [hback] at hp
    exact if_neg (time_of_mem_dropWhile hs hp)
  have hall : points.map (·.at step h) = (points.take k).map (·.at step h) ++ (points.drop k).map (·.at step h) := by
    rw [← List.map_append, List.take_append_drop]
  unfold Envelope.candidates Envelope.before Envelope.after
  dsimp only
  rw [hpos, List.length_map]
  by_cases hzero : k = 0
  · subst hzero
    have hlt : 0 < points.length := List.length_pos_of_ne_nil hne
    obtain ⟨e, he, hbest⟩ := hafter hlt
    refine ⟨[e - step * h], e - step * h, ?_, rfl, hbest⟩
    rw [if_pos rfl, if_pos hlt, he]
    rfl
  · obtain ⟨e, he, hbest⟩ := hbefore hzero
    by_cases hlt : k < points.length
    · obtain ⟨e', he', hbest'⟩ := hafter hlt
      refine ⟨[e + step * h, e' - step * h], op (e + step * h) (e' - step * h), ?_, rfl, ?_⟩
      · rw [if_neg hzero, if_pos hlt, he, he']
        rfl
      · rw [hall]
        exact hbest.append hop hbest'
    · refine ⟨[e + step * h], e + step * h, ?_, rfl, ?_⟩
      · rw [if_neg hzero, if_neg hlt, he]
        rfl
      · rw [List.take_of_length_le (by omega)] at hbest
        exact hbest

/-- What a sample says at `h`, times the denominator of the rate. -/
def scaled (n d h error : Int) (upper : Bool) (s : Readings) : Int :=
  base s upper * d + sign upper * n * (|h - time s upper| + timeError s upper + error)

theorem envelope_spec (n d : Int) (hne : samples ≠ []) (upper : Bool) : ∃ e, envelope n d samples upper = .ok e ∧
    ∀ h, ∃ candidates value, e.candidates (sign upper * n) h = .ok candidates ∧
      best (extreme upper) candidates = some value ∧
      Best (Tighter upper) value (samples.map fun s =>
        base s upper * d + sign upper * n * (|h - time s upper| + timeError s upper)) := by
  have hperm := (samples.map (point n d upper)).perm_insertionSort (· ≤ ·)
  have hsorted := (samples.map (point n d upper)).pairwise_insertionSort (· ≤ ·)
  generalize hordered : (samples.map (point n d upper)).insertionSort (· ≤ ·) = points at hperm hsorted
  have hpoints : points ≠ [] := by
    rintro rfl
    have hlength := hperm.length_eq
    rw [List.length_map] at hlength
    exact hne (List.length_eq_zero_iff.1 hlength.symm)
  have henvelope : envelope n d samples upper = .ok {
      times := points.map Point.time
      left := running (extreme upper) (points.map Point.left)
      right := runningBack (extreme upper) (points.map Point.right) } := by
    unfold envelope
    rw [hordered]
    cases points with
    | nil => exact absurd rfl hpoints
    | cons p points => rfl
  refine ⟨_, henvelope, fun h => ?_⟩
  obtain ⟨candidates, value, hcandidates, hvalue, hbest⟩ :=
    candidates_eq hsorted hpoints _ (picks_extreme upper) tighter_add (sign upper * n) h
  refine ⟨candidates, value, hcandidates, hvalue, ?_⟩
  have hmapped := hperm.map (·.at (sign upper * n) h)
  rw [List.map_map] at hmapped
  have heq : samples.map ((·.at (sign upper * n) h) ∘ point n d upper) =
      samples.map fun s => base s upper * d + sign upper * n * (|h - time s upper| + timeError s upper) :=
    List.map_congr_left fun s _ => at_point n d h upper s
  rw [← heq]
  exact hbest.perm hmapped

theorem endpoint_eq (rate : ℚ) (hne : samples ≠ []) : ∃ index, RawOffsetIndex.new samples rate = .ok index ∧
    ∀ h error upper, ∃ value, index.endpoint h error upper = .ok (roundOut upper value rate.den) ∧
      Best (Tighter upper) value (samples.map (scaled rate.num rate.den h error upper)) := by
  obtain ⟨lower, hlower, hlowest⟩ := envelope_spec rate.num rate.den hne false
  obtain ⟨upper, hupper, huppest⟩ := envelope_spec rate.num rate.den hne true
  refine ⟨{ n := rate.num, d := rate.den, lower := lower, upper := upper }, ?_, fun h error side => ?_⟩
  · unfold RawOffsetIndex.new
    rw [hlower, hupper]
    rfl
  · have hside : ∃ candidates value, (if side then upper else lower).candidates (sign side * rate.num) h =
      .ok candidates ∧
        best (extreme side) candidates = some value ∧ Best (Tighter side) value
          (samples.map fun s => base s side * rate.den + sign side * rate.num * (|h - time s side| + timeError s side)) := by
      cases side with
      | false => exact hlowest h
      | true => exact huppest h
    obtain ⟨candidates, value, hcandidates, hvalue, hbest⟩ := hside
    refine ⟨value + sign side * rate.num * error, ?_, ?_⟩
    · unfold RawOffsetIndex.endpoint
      dsimp only
      rw [hcandidates]
      dsimp only [bind, Except.bind]
      rw [hvalue]
    · have hmapped := hbest.map (f := fun a => a + sign side * rate.num * error) (S := Tighter side) (tighter_add _)
      rw [List.map_map] at hmapped
      convert hmapped using 1
      refine List.map_congr_left fun s _ => ?_
      unfold scaled
      simp only [Function.comp_apply]
      ring

/-! ## Exact constraints -/

/-- What a sample says about the offset at a time that is known to `error`. -/
def constraint (rate : ℚ) (h error : Int) (upper : Bool) (s : Readings) : ℚ :=
  base s upper + sign upper * (rate * (|h - time s upper| + timeError s upper + error : Int))

theorem scaled_div (rate : ℚ) (h error : Int) (upper : Bool) (s : Readings) :
    (scaled rate.num rate.den h error upper s : ℚ) / rate.den = constraint rate h error upper s := by
  have hden : (rate.den : ℚ) ≠ 0 := Nat.cast_ne_zero.2 rate.den_ne_zero
  unfold scaled constraint
  push_cast
  conv_rhs => rw [← rate.num_div_den]
  field_simp

theorem roundOut_false (value : Int) (d : Nat) : roundOut false value d = ⌊(value : ℚ) / d⌋ :=
  (Rat.floor_intCast_div_natCast value d).symm

theorem roundOut_true (value : Int) (d : Nat) : roundOut true value d = ⌈(value : ℚ) / d⌉ :=
  (Rat.ceil_intCast_div_natCast value d).symm

theorem tighter_roundOut (d : Nat) (a b : Int) (hab : Tighter upper a b) :
    Tighter upper (roundOut upper a d) (roundOut upper b d) := by
  have hden : (0 : ℚ) ≤ d := Nat.cast_nonneg d
  cases upper with
  | false =>
    have hab : (b : ℚ) ≤ a := Int.cast_le.2 hab
    rw [roundOut_false, roundOut_false]
    exact Int.floor_le_floor (div_le_div_of_nonneg_right hab hden)
  | true =>
    have hab : (a : ℚ) ≤ b := Int.cast_le.2 hab
    rw [roundOut_true, roundOut_true]
    exact Int.ceil_le_ceil (div_le_div_of_nonneg_right hab hden)

/-- The intersection of what all samples say. -/
structure Intersection (samples : List Readings) (rate : ℚ) (h error : Int) (low high : ℚ) : Prop where
  low : IsGreatest (constraint rate h error false '' {s | s ∈ samples}) low
  high : IsLeast (constraint rate h error true '' {s | s ∈ samples}) high

theorem isGreatest_of_best {value : Int}
    (hbest : Best (Tighter false) value (samples.map (scaled rate.num rate.den h error false))) :
    IsGreatest (constraint rate h error false '' {s | s ∈ samples}) ((value : ℚ) / rate.den) := by
  obtain ⟨hmem, hall⟩ := hbest
  obtain ⟨s, hs, rfl⟩ := List.mem_map.1 hmem
  refine ⟨⟨s, hs, (scaled_div rate h error false s).symm⟩, ?_⟩
  rintro _ ⟨s', hs', rfl⟩
  have hle : (scaled rate.num rate.den h error false s' : ℚ) ≤ scaled rate.num rate.den h error false s :=
    Int.cast_le.2 (hall _ (List.mem_map_of_mem hs'))
  rw [← scaled_div]
  exact div_le_div_of_nonneg_right hle (Nat.cast_nonneg _)

theorem isLeast_of_best {value : Int}
    (hbest : Best (Tighter true) value (samples.map (scaled rate.num rate.den h error true))) :
    IsLeast (constraint rate h error true '' {s | s ∈ samples}) ((value : ℚ) / rate.den) := by
  obtain ⟨hmem, hall⟩ := hbest
  obtain ⟨s, hs, rfl⟩ := List.mem_map.1 hmem
  refine ⟨⟨s, hs, (scaled_div rate h error true s).symm⟩, ?_⟩
  rintro _ ⟨s', hs', rfl⟩
  have hle : (scaled rate.num rate.den h error true s : ℚ) ≤ scaled rate.num rate.den h error true s' :=
    Int.cast_le.2 (hall _ (List.mem_map_of_mem hs'))
  rw [← scaled_div]
  exact div_le_div_of_nonneg_right hle (Nat.cast_nonneg _)

/-! ## A scan over the samples -/

def ceilFraction (value : ℚ) : Int := -(-value.num / value.den)

theorem ceilFraction_eq (value : ℚ) : ceilFraction value = ⌈value⌉ := by
  conv_rhs => rw [← value.num_div_den]
  exact (Rat.ceil_intCast_div_natCast value.num value.den).symm

/-- What a sample says, rounded by itself. -/
def scanned (rate : ℚ) (h error : Int) (upper : Bool) (s : Readings) : Int :=
  base s upper + sign upper * ceilFraction (rate * (|h - time s upper| + timeError s upper + error : Int))

def scan (samples : List Readings) (rate : ℚ) (h error : Int) (upper : Bool) : Option Int :=
  best (extreme upper) (samples.map (scanned rate h error upper))

theorem roundOut_scaled (rate : ℚ) (h error : Int) (upper : Bool) (s : Readings) :
    roundOut upper (scaled rate.num rate.den h error upper s) rate.den = scanned rate h error upper s := by
  unfold scanned
  rw [ceilFraction_eq]
  cases upper with
  | false =>
    rw [roundOut_false, scaled_div]
    unfold constraint sign
    simp only [Bool.false_eq_true, if_false, Int.cast_neg, Int.cast_one, neg_one_mul]
    rw [Int.floor_intCast_add, Int.floor_neg]
  | true =>
    rw [roundOut_true, scaled_div]
    unfold constraint sign
    simp only [if_true, Int.cast_one, one_mul]
    rw [Int.ceil_intCast_add]

theorem scan_eq {value : Int} (hbest :
    Best (Tighter upper) value (samples.map (scaled rate.num rate.den h error upper))) :
    scan samples rate h error upper = some (roundOut upper value rate.den) := by
  have hmapped := hbest.map (f := fun a => roundOut upper a rate.den) (S := Tighter upper) (tighter_roundOut rate.den)
  have heq : (samples.map (scaled rate.num rate.den h error upper)).map (fun a => roundOut upper a rate.den) =
      samples.map (scanned rate h error upper) := by
    rw [List.map_map]
    exact List.map_congr_left fun s _ => roundOut_scaled rate h error upper s
  rw [heq] at hmapped
  obtain ⟨e, he⟩ := exists_best (extreme upper) (List.ne_nil_of_mem hmapped.1)
  unfold scan
  rw [he, (best_eq_some (picks_extreme upper) he).unique tighter_antisymm hmapped]

def inconsistent : PyError := .valueError "raw calibration constraints inconsistent at event time"

/-- The bounds at a time are the intersection of all constraints, rounded outward, as a scan over the samples finds
it. -/
theorem bounds_eq (rate : ℚ) (hne : samples ≠ []) : ∃ index, RawOffsetIndex.new samples rate = .ok index ∧
    ∀ h error, ∃ low high, Intersection samples rate h error low high ∧
      scan samples rate h error false = some ⌊low⌋ ∧ scan samples rate h error true = some ⌈high⌉ ∧
      index.bounds h error = if ⌈high⌉ < ⌊low⌋ then .error inconsistent else .ok (⌊low⌋, ⌈high⌉) := by
  obtain ⟨index, hindex, hendpoint⟩ := endpoint_eq rate hne
  refine ⟨index, hindex, fun h error => ?_⟩
  obtain ⟨low, hlow, hlowest⟩ := hendpoint h error false
  obtain ⟨high, hhigh, hhighest⟩ := hendpoint h error true
  refine ⟨(low : ℚ) / rate.den, (high : ℚ) / rate.den, ⟨isGreatest_of_best hlowest, isLeast_of_best hhighest⟩, ?_, ?_, ?_⟩
  · rw [scan_eq hlowest, roundOut_false]
  · rw [scan_eq hhighest, roundOut_true]
  · unfold RawOffsetIndex.bounds
    rw [hlow, hhigh, roundOut_false, roundOut_true]
    rfl

end CocoaWay.InputProbe
