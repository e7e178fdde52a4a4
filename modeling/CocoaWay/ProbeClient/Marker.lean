import CocoaWay.ProbeClient.Render

/-!
# The marker of the probe client

* `decode` : how the host reads a marker; `unpack_pixels`, `decode_marker` : it reads the payload;
* `layout` : where the fields of a payload are; `read_payload` : each is read back;
* `markerOf`, `marker_payload` : how the analysis reads a payload;
* `markerMatches_commit` : it is that of the record of the commit.
-/

namespace CocoaWay.ProbeClient
open Lib Layout
open InputProbe (Row Value Marker markerMatches unpackFrom)

variable {pid : UInt32} {app : App} {frame preCommitNs : UInt64} {l rest : List UInt8} {a b c : UInt8}

/-! ## Pixels -/

def unpack : List UInt8 → Option (List UInt8)
  | b :: g :: r :: a :: rest => if a ≠ 255 then none else (unpack rest).map fun bytes => r :: g :: b :: bytes
  | _ => some []

/-- `probe_marker::decode`. -/
def decode (width : Int) (bgra : List UInt8) : Option (List UInt8) :=
  if width < 40 ∨ bgra.length < 160 then none
  else
    (unpack (bgra.take 160)).bind fun bytes =>
      if bytes.take 4 ≠ InputProbe.magic ∨ fromLe (Layout.slice bytes 4 2) ≠ 1 ∨ fromLe (Layout.slice bytes 6 2) ≠ 120 then none
      else some bytes

theorem word_eq (a b c : UInt8) : word a b c = fromLe [c, b, a, 255] := by
  have ha := a.toNat_lt
  have hb := b.toNat_lt
  have hc := c.toNat_lt
  have h₁ : 0xff000000 ||| a.toNat <<< 16 = 0xff000000 + a.toNat <<< 16 :=
    (Nat.shiftLeft_add_eq_or_of_lt (a := 0xff) (i := 24) (b := a.toNat <<< 16) (by rw [Nat.shiftLeft_eq]; omega)).symm
  have h₂ : 0xff000000 + a.toNat <<< 16 = (0xff00 + a.toNat) <<< 16 := by
    simp only [Nat.shiftLeft_eq]
    omega
  have h₃ : (0xff00 + a.toNat) <<< 16 ||| b.toNat <<< 8 = (0xff00 + a.toNat) <<< 16 + b.toNat <<< 8 :=
    (Nat.shiftLeft_add_eq_or_of_lt (by rw [Nat.shiftLeft_eq]; omega) _).symm
  have h₄ : (0xff00 + a.toNat) <<< 16 + b.toNat <<< 8 = ((0xff00 + a.toNat) <<< 8 + b.toNat) <<< 8 := by
    simp only [Nat.shiftLeft_eq]
    omega
  have h₅ := Nat.shiftLeft_add_eq_or_of_lt (b := c.toNat) (i := 8) hc ((0xff00 + a.toNat) <<< 8 + b.toNat)
  unfold word
  rw [h₁, h₂, h₃, h₄, ← h₅]
  simp only [Nat.shiftLeft_eq, fromLe]
  change _ = c.toNat + 256 * (b.toNat + 256 * (a.toNat + 256 * (255 + 256 * 0)))
  omega

theorem pixel_bytes (a b c : UInt8) : toLe 4 (word a b c) = [c, b, a, 255] := by
  rw [word_eq]
  exact toLe_fromLe [c, b, a, 255]

theorem unpack_pixels (h : l.length % 3 = 0) : unpack (pixels l) = some l := by
  induction l using pixels.induct with
  | case1 a b c rest ih =>
    rw [List.length_cons, List.length_cons, List.length_cons] at h
    rw [pixels, pixel_bytes]
    change (if (255 : UInt8) ≠ 255 then none else (unpack (pixels rest)).map fun bytes => a :: b :: c :: bytes) = _
    rw [if_neg (not_not_intro rfl), ih (by omega)]
    rfl
  | case2 l hl =>
    match l, hl with
    | [], _ => rfl
    | [_], _ => cases h
    | [_, _], _ => cases h
    | a :: b :: c :: rest, hl => exact absurd rfl (hl a b c rest)

theorem length_pixels (h : l.length % 3 = 0) : (pixels l).length = l.length / 3 * 4 := by
  induction l using pixels.induct with
  | case1 a b c rest ih =>
    rw [List.length_cons, List.length_cons, List.length_cons] at h ⊢
    rw [pixels, List.length_append, length_toLe, ih (by omega)]
    omega
  | case2 l hl =>
    match l, hl with
    | [], _ => rfl
    | [_], _ => cases h
    | [_, _], _ => cases h
    | a :: b :: c :: rest, hl => exact absurd rfl (hl a b c rest)

/-! ## The payload -/

/-- The offsets and the sizes of the fields. -/
def layout : List (Nat × Nat) :=
  [(4, 2), (6, 2), (8, 4), (12, 4), (32, 4), (36, 4), (40, 4), (44, 4), (96, 4), (100, 4), (104, 4), (108, 4), (112, 4),
    (16, 8), (24, 8), (48, 8), (56, 8), (64, 8), (72, 8), (80, 8), (88, 8)]

theorem map_payloadFields (pid : UInt32) (app : App) (frame preCommitNs : UInt64) :
    (payloadFields pid app frame preCommitNs).map (fun f => (f.offset, f.size)) = layout := rfl

theorem mem_layout {f : Field} (hf : f ∈ payloadFields pid app frame preCommitNs) : (f.offset, f.size) ∈ layout := by
  rw [← map_payloadFields pid app frame preCommitNs]
  exact List.mem_map_of_mem hf

theorem stop_le {f : Field} (hf : f ∈ payloadFields pid app frame preCommitNs) :
    f.stop ≤ (InputProbe.magic ++ List.replicate 116 0).length :=
  (by decide : ∀ p ∈ layout, p.1 + p.2 ≤ 120) _ (mem_layout hf)

theorem pairwise_apart (pid : UInt32) (app : App) (frame preCommitNs : UInt64) :
    (payloadFields pid app frame preCommitNs).Pairwise fun f g => Apart g f.offset f.size := by
  have h : layout.Pairwise fun p q => p.1 + p.2 ≤ q.1 ∨ q.1 + q.2 ≤ p.1 := by decide
  rw [← map_payloadFields pid app frame preCommitNs, List.pairwise_map] at h
  exact h

theorem length_payload : (payload pid app frame preCommitNs).length = 120 := length_putAll fun _ => stop_le

theorem read_payload {offset size value : Nat} (hmem : ⟨offset, size, value⟩ ∈ payloadFields pid app frame preCommitNs)
    (hlt : value < 256 ^ size) : fromLe (Layout.slice (payload pid app frame preCommitNs) offset size) = value := by
  have hslice := Layout.slice_putAll (fun _ => stop_le) (pairwise_apart pid app frame preCommitNs) hmem
  unfold payload
  rw [hslice]
  exact fromLe_toLe hlt

theorem read_payload_apart {offset size : Nat} (h : ∀ p ∈ layout, offset + size ≤ p.1 ∨ p.1 + p.2 ≤ offset) :
    Layout.slice (payload pid app frame preCommitNs) offset size =
      Layout.slice (InputProbe.magic ++ List.replicate 116 0) offset size :=
  Layout.slice_putAll_apart (fun _ => stop_le) fun _ hf => h _ (mem_layout hf)

theorem magic_payload : (payload pid app frame preCommitNs).take 4 = InputProbe.magic := by
  have h : Layout.slice (payload pid app frame preCommitNs) 0 4 = Layout.slice (InputProbe.magic ++ List.replicate 116 0) 0 4 :=
    read_payload_apart (by decide)
  exact h

theorem version_payload : fromLe (Layout.slice (payload pid app frame preCommitNs) 4 2) = 1 :=
  read_payload (by simp [payloadFields]) (by decide)

theorem length_field : fromLe (Layout.slice (payload pid app frame preCommitNs) 6 2) = 120 :=
  read_payload (by simp [payloadFields]) (by decide)

/-- The host reads the payload of a frame whose first pixels are its marker. -/
theorem decode_marker {width : Int} (hwidth : 40 ≤ width) :
    decode width (marker pid app frame preCommitNs ++ rest) = some (payload pid app frame preCommitNs) := by
  have hmod : (payload pid app frame preCommitNs).length % 3 = 0 := by rw [length_payload]
  have hlength : (marker pid app frame preCommitNs).length = 160 := by
    unfold marker
    rw [length_pixels hmod, length_payload]
  have htake : (marker pid app frame preCommitNs ++ rest).take 160 = marker pid app frame preCommitNs :=
    List.take_left' hlength
  unfold decode
  rw [if_neg (by rw [List.length_append, hlength]; omega), htake]
  unfold marker
  rw [unpack_pixels hmod, Option.bind_some, if_neg]
  rw [magic_payload, version_payload, length_field]
  decide

/-! ## The analysis -/

theorem flags_lt (app : App) : flags app < 16 := by
  have h : ∀ a b c d : Bool, flag a ||| flag b <<< 1 ||| flag c <<< 2 ||| flag d <<< 3 < 16 := by decide
  exact h _ _ _ _

theorem read32 {p : Nat × Nat} (hp : p ∈ fields32 pid app) (hlt : p.2 < 256 ^ 4) :
    fromLe (Layout.slice (payload pid app frame preCommitNs) p.1 4) = p.2 := by
  refine read_payload (List.mem_append_left _ (List.mem_append_right _ ?_)) hlt
  exact List.mem_map_of_mem (f := fun p : Nat × Nat => (⟨p.1, 4, p.2⟩ : Field)) hp

theorem read64 {p : Nat × Nat} (hp : p ∈ fields64 app frame preCommitNs) (hlt : p.2 < 256 ^ 8) :
    fromLe (Layout.slice (payload pid app frame preCommitNs) p.1 8) = p.2 := by
  refine read_payload (List.mem_append_right _ ?_) hlt
  exact List.mem_map_of_mem (f := fun p : Nat × Nat => (⟨p.1, 8, p.2⟩ : Field)) hp

theorem fields32_lt : ∀ p ∈ fields32 pid app, p.2 < 256 ^ 4 := by
  have hflags := flags_lt app
  simp only [fields32, List.forall_mem_cons]
  refine ⟨by omega, UInt32.toNat_lt _, UInt32.toNat_lt _, UInt32.toNat_lt _, UInt32.toNat_lt _, UInt32.toNat_lt _,
    UInt32.toNat_lt _, UInt32.toNat_lt _, by decide, UInt32.toNat_lt _, UInt32.toNat_lt _, nofun⟩

theorem fields64_lt : ∀ p ∈ fields64 app frame preCommitNs, p.2 < 256 ^ 8 := by
  simp only [fields64, List.forall_mem_cons]
  exact ⟨UInt64.toNat_lt _, UInt64.toNat_lt _, UInt64.toNat_lt _, UInt64.toNat_lt _, UInt64.toNat_lt _,
    UInt64.toNat_lt _,
    UInt64.toNat_lt _, UInt64.toNat_lt _, nofun⟩

/-- The marker of a frame, as the analysis has it. -/
def markerOf (pid : UInt32) (app : App) (frame preCommitNs : UInt64) : Marker :=
  let cause := app.currentCause
  { flags := flags app, kind := cause.kind.toNat, time := (cause.time.getD 0).toNat, code := cause.code.toNat
    state := cause.state.toNat, serial := cause.serial.toNat, width := app.width.toNat, height := app.height.toNat
    format := 0, pid := pid.toNat, seat := cause.seat.toNat, reserved := 0, frame := frame.toNat
    sequence := cause.sequence.toNat, receipt := cause.receiptNs.toNat, handled := cause.handlerNs.toNat
    preCommit := preCommitNs.toNat, applied := app.appliedCount.toNat, first := app.firstApplied.toNat
    last := cause.sequence.toNat }

theorem fields_payload : InputProbe.fields (payload pid app frame preCommitNs) =
    markerOf pid app frame preCommitNs := by
  have h32 : ∀ p ∈ fields32 pid app, fromLe (Layout.slice (payload pid app frame preCommitNs) p.1 4) = p.2 :=
    fun p hp => read32 hp (fields32_lt p hp)
  have h64 : ∀ p ∈ fields64 app frame preCommitNs, fromLe (Layout.slice (payload pid app frame preCommitNs) p.1 8) = p.2 :=
    fun p hp => read64 hp (fields64_lt p hp)
  have hreserved : fromLe (Layout.slice (payload pid app frame preCommitNs) 116 4) = 0 := by
    rw [read_payload_apart (by decide)]
    decide
  simp only [fields32, List.forall_mem_cons] at h32
  simp only [fields64, List.forall_mem_cons] at h64
  simp only [InputProbe.fields, unpackFrom, h32, h64, hreserved, markerOf]
  rfl

/-- The analysis takes the payload of a frame that has a number. -/
theorem marker_payload (hframe : frame.toNat ≠ 0) :
    InputProbe.marker (.bytes (payload pid app frame preCommitNs)) = some (markerOf pid app frame preCommitNs) := by
  have hlt := flags_lt app
  have hversion : unpackFrom 2 (payload pid app frame preCommitNs) 4 = 1 := by
    unfold unpackFrom
    rw [version_payload]
    rfl
  have hlength : unpackFrom 2 (payload pid app frame preCommitNs) 6 = 120 := by
    unfold unpackFrom
    rw [length_field]
    rfl
  unfold InputProbe.marker
  dsimp only
  rw [if_neg (by rw [length_payload, magic_payload]; decide), hversion, hlength, if_neg (not_not_intro rfl),
    fields_payload]
  refine if_neg ?_
  simp only [markerOf]
  omega

/-- The record of a commit. -/
def commitRow (pid : UInt32) (app : App) (frame : UInt64) (index : Nat)
    (renderStartNs preCommitNs commitQueuedNs : UInt64) :
    Row :=
  recordRow pid app.options.tag "frame_commit" preCommitNs
    (commitFields app frame index renderStartNs preCommitNs commitQueuedNs)

variable {index : Nat} {renderStartNs commitQueuedNs : UInt64}

theorem isBool_bool (b : Bool) : (Value.bool b).isBool true = b := by cases b <;> rfl

theorem uint_number64 (n : UInt64) : (number64 n).uint 64 = some (n.toNat : Int) := by
  have hlt := n.toNat_lt
  unfold number64 Value.uint
  exact if_pos (by omega)

theorem jsonNumber_ne_none (n : Option UInt32) : jsonNumber n ≠ .none ↔ n.isSome = true := by
  cases n with
  | none => exact ⟨fun h => absurd rfl h, nofun⟩
  | some n => exact ⟨fun _ => rfl, fun _ h => nomatch h⟩

theorem commitFlags_commit :
    InputProbe.commitFlags (commitRow pid app frame index renderStartNs preCommitNs commitQueuedNs) = flags app := by
  have hflags : ∀ a b c d : Bool, ((flag a ||| flag b <<< 1 ||| flag c <<< 2 ||| flag d <<< 3 : Nat) : Int) =
      (if a then 1 else 0) + (if b then 2 else 0) + (if c then 4 else 0) + if d then 8 else 0 := by decide
  have hcause : (commitRow pid app frame index renderStartNs preCommitNs commitQueuedNs).get "has_new_input_cause" =
      .bool app.cause.isSome := rfl
  have hanimation : (commitRow pid app frame index renderStartNs preCommitNs commitQueuedNs).get "continuous_animation" =
      .bool app.options.continuous := rfl
  have htime : (commitRow pid app frame index renderStartNs preCommitNs commitQueuedNs).get
      "cause_forwarded_event_time_ms_opaque" = jsonNumber app.currentCause.time := rfl
  have happlied : (commitRow pid app frame index renderStartNs preCommitNs commitQueuedNs).int "applied_visual_events" =
      app.appliedCount.toNat := by
    change ((number64 app.appliedCount).uint 64).getD 0 = _
    rw [uint_number64]
    rfl
  have hmany : (1 : Int) < app.appliedCount.toNat ↔ decide (1 < app.appliedCount) = true := by
    rw [decide_eq_true_eq, UInt64.lt_iff_toNat_lt]
    exact Int.ofNat_lt
  unfold InputProbe.commitFlags flags
  rw [hflags, hcause, hanimation, htime, happlied, isBool_bool, isBool_bool]
  simp only [jsonNumber_ne_none, hmany]

theorem eq_int (n : Int) : (Value.int n).eq (.int n) = true := decide_eq_true rfl

theorem timeOrZero_jsonNumber (n : Option UInt32) : InputProbe.timeOrZero (jsonNumber n) = number32 (n.getD 0) := by
  cases n <;> rfl

/-- The marker of a frame is that of the record of its commit. -/
theorem markerMatches_commit :
    markerMatches (markerOf pid app frame preCommitNs)
      (commitRow pid app frame index renderStartNs preCommitNs commitQueuedNs) = true := by
  have htime : InputProbe.timeOrZero ((commitRow pid app frame index renderStartNs preCommitNs commitQueuedNs).get
      "cause_forwarded_event_time_ms_opaque") = number32 (app.currentCause.time.getD 0) := timeOrZero_jsonNumber _
  unfold markerMatches
  rw [commitFlags_commit, htime, Bool.and_eq_true, Bool.and_eq_true]
  refine ⟨⟨decide_eq_true rfl, ?_⟩, eq_int _⟩
  rw [List.all_eq_true]
  simp only [InputProbe.markerFields, List.forall_mem_cons]
  exact ⟨eq_int _, eq_int _, eq_int _, eq_int _, eq_int _, eq_int _, eq_int _, eq_int _, eq_int _, eq_int _, eq_int _,
    eq_int _, eq_int _, eq_int _, eq_int _, eq_int _, nofun⟩

end CocoaWay.ProbeClient
