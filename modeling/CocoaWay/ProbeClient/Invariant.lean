import CocoaWay.ProbeClient.Log

/-!
# The invariant of a probe client

* `FreeWrites` : no buffer is written that the compositor has; `freeWrites_split`;
* `History` : the markers of the frames so far, with their numbers, ranges and records;
* `BuffersKept`, `Kept` : what the state keeps of the log between two steps;
* `Inv`, `Sane` : between two steps, and wherever the client fails.
-/

namespace CocoaWay.ProbeClient
open InputProbe (Row Marker markerMatches)

variable {output : Output} {object : Object} {bytes : List UInt8} {log : List Action} {ms : List Marker} {m : Marker}
  {row : Row}
  {r : Received} {buffers : List Buffer} {buffer : Buffer} {objects index : Nat}

/-! ## The history -/

def FreeWrites : List Action → Prop
  | .write object _ :: log => held object log = false ∧ FreeWrites log
  | _ :: log => FreeWrites log
  | [] => True

theorem freeWrites_tail {action : Action} (h : FreeWrites (action :: log)) : FreeWrites log := by
  cases action with
  | write => exact h.2
  | _ => exact h

theorem freeWrites_split {after before : List Action} (h : FreeWrites (after ++ .write object bytes :: before)) :
    held object before = false := by
  induction after with
  | nil => exact h.1
  | cons action after ih => exact ih (freeWrites_tail h)

/-- The numbers of some frames, from the last one. -/
def numbers : Nat → List Int
  | 0 => []
  | n + 1 => (n + 1 : Nat) :: numbers n

def IsRecord (m : Marker) (row : Row) : Prop := markerMatches m row = true ∧ row.get "frame_sequence" = .int m.frame

/-- The records of frames with these markers. -/
def Recorded (output : Output) (ms : List Marker) (rows : List Row) : Prop :=
  if output = .off then rows = [] else List.Forall₂ IsRecord ms rows

/-- The markers of all frames, from the last one; its record may be missing. -/
structure History (output : Output) (log : List Action) (ms : List Marker) : Prop where
  decoded : (commits log).map shown = ms.map some
  frames : ms.map Marker.frame = numbers ms.length
  ranges : List.Forall₂ Describes ms (chunks log)
  recorded : Recorded output ms (commitRows log) ∨ Recorded output ms.tail (commitRows log)
  free : FreeWrites log

namespace History

theorem delivered (h : History output log ms) : History output (.delivered r :: log) ms :=
  ⟨h.decoded, h.frames, h.ranges, h.recorded, h.free⟩

theorem create {w h' : UInt32} (h : History output log ms) : History output (.create object w h' :: log) ms :=
  ⟨h.decoded, h.frames, h.ranges, h.recorded, h.free⟩

theorem attach (h : History output log ms) : History output (.attach object :: log) ms :=
  ⟨h.decoded, h.frames, h.ranges, h.recorded, h.free⟩

theorem write (h : History output log ms) (hfree : held object log = false) :
    History output (.write object bytes :: log) ms :=
  ⟨h.decoded, h.frames, h.ranges, h.recorded, hfree, h.free⟩

theorem record (h : History output log ms) (hrow : isCommitRow row = false) :
    History output (.record row :: log) ms := by
  have hrows : commitRows (.record row :: log) = commitRows log := if_neg (Bool.eq_false_iff.1 hrow)
  exact ⟨h.decoded, h.frames, h.ranges, hrows.symm ▸ h.recorded, h.free⟩

theorem commit (h : History output log ms) (hpending : pending log = none) : History output (.commit :: log) ms := by
  have hcommits : commits (.commit :: log) = commits log := by
    rw [commits, hpending]
  have hchunks : chunks (.commit :: log) = chunks log := by
    rw [chunks, hpending]
    rfl
  exact ⟨hcommits.symm ▸ h.decoded, h.frames, hchunks.symm ▸ h.ranges, h.recorded, h.free⟩

theorem frame (h : History output log ms) (hrecorded : Recorded output ms (commitRows log))
    (hpending : pending log = some object) (hshown : shown (width object log, content object log) = some m)
    (hframe : m.frame = (ms.length + 1 : Nat)) (hrange : Describes m (fresh log)) :
    History output (.commit :: log) (m :: ms) where
  decoded := by
    rw [commits, hpending]
    change shown _ :: (commits log).map shown = some m :: ms.map some
    rw [hshown, h.decoded]
  frames := by
    rw [List.map_cons, List.length_cons, numbers, hframe, h.frames]
  ranges := by
    rw [chunks, hpending]
    exact .cons hrange h.ranges
  recorded := .inr hrecorded
  free := h.free

end History

/-! ## The state -/

/-- What is known of the buffers: an object is of one slot, with its file and its size, and a slot that is not busy is
free. -/
structure BuffersKept (buffers : List Buffer) (objects : Nat) (log : List Action) : Prop where
  known : ∀ (i : Nat) (buffer : Buffer) (object : Object), buffers[i]? = some buffer → buffer.object = some object →
    object < objects ∧ (content object log).length = buffer.width.toNat * buffer.height.toNat * 4 ∧
      width object log = buffer.width.toNat ∧ (buffer.busyFrame = none → held object log = false)
  unique : ∀ (i j : Nat) (buffer buffer' : Buffer) (object : Object), buffers[i]? = some buffer →
    buffers[j]? = some buffer' →
    buffer.object = some object → buffer'.object = some object → i = j
  heldKnown : ∀ object, held object log = true → object < objects

namespace BuffersKept

theorem start (n : Nat) (objects : Nat) : BuffersKept (List.replicate n {}) objects [] where
  known i buffer object hi ho := by
    rw [List.getElem?_replicate] at hi
    split at hi
    · obtain rfl := Option.some.inj hi
      cases ho
    · cases hi
  unique i j buffer _ object hi _ ho _ := by
    rw [List.getElem?_replicate] at hi
    split at hi
    · obtain rfl := Option.some.inj hi
      cases ho
    · cases hi
  heldKnown := nofun

/-- What does not change the contents, and gives nothing to the compositor. -/
theorem congr {log' : List Action} {objects' : Nat} (h : BuffersKept buffers objects log)
    (hobjects : objects ≤ objects')
    (hcontent : ∀ object, content object log' = content object log)
      (hwidth : ∀ object, width object log' = width object log)
    (hheld : ∀ object, held object log' = true → held object log = true) : BuffersKept buffers objects' log' where
  known i buffer object hi ho := by
    obtain ⟨hlt, hlength, hw, hfree⟩ := h.known i buffer object hi ho
    refine ⟨hlt.trans_le hobjects, (hcontent object).symm ▸ hlength, (hwidth object).symm ▸ hw, fun hbusy => ?_⟩
    have hnot := hfree hbusy
    cases hcase : held object log' with
    | false => rfl
    | true =>
      rw [hheld object hcase] at hnot
      cases hnot
  unique := h.unique
  heldKnown object hobject := (h.heldKnown object (hheld object hobject)).trans_le hobjects

theorem delivered (h : BuffersKept buffers objects log) : BuffersKept buffers objects (.delivered r :: log) :=
  h.congr (Nat.le_refl _) (fun _ => rfl) (fun _ => rfl) fun _ hheld => (Bool.and_eq_true _ _ ▸ hheld : _ ∧ _).2

theorem set {b : Buffer} (h : BuffersKept buffers objects log)
    (hknown : ∀ object, b.object = some object →
      object < objects ∧ (content object log).length = b.width.toNat * b.height.toNat * 4 ∧
        width object log = b.width.toNat ∧
        (b.busyFrame = none → held object log = false))
    (hunique : ∀ (j : Nat) (buffer : Buffer) (object : Object), j ≠ index → buffers[j]? = some buffer →
      b.object = some object → buffer.object ≠ some object) :
    BuffersKept (buffers.set index b) objects log where
  known i buffer object hi ho := by
    rw [List.getElem?_set] at hi
    split at hi
    · split at hi
      · obtain rfl := Option.some.inj hi
        exact hknown object ho
      · cases hi
    · exact h.known i buffer object hi ho
  unique i j buffer buffer' object hi hj ho ho' := by
    rw [List.getElem?_set] at hi hj
    by_cases hindex : index = i
    · rw [if_pos hindex] at hi
      split at hi
      · obtain rfl := Option.some.inj hi
        by_cases hindex' : index = j
        · exact hindex.symm.trans hindex'
        · rw [if_neg hindex'] at hj
          exact absurd ho' (hunique j buffer' object (Ne.symm hindex') hj ho)
      · cases hi
    · rw [if_neg hindex] at hi
      by_cases hindex' : index = j
      · rw [if_pos hindex'] at hj
        split at hj
        · obtain rfl := Option.some.inj hj
          exact absurd ho (hunique i buffer object (Ne.symm hindex) hi ho')
        · cases hj
      · rw [if_neg hindex'] at hj
        exact h.unique i j buffer buffer' object hi hj ho ho'
  heldKnown := h.heldKnown

theorem create (h : BuffersKept buffers objects log) (w h' : UInt32) :
    BuffersKept buffers (objects + 1) (.create objects w h' :: log) where
  known i buffer object hi ho := by
    obtain ⟨hlt, hlength, hw, hfree⟩ := h.known i buffer object hi ho
    have hne : objects ≠ object := (Nat.ne_of_lt hlt).symm
    refine ⟨hlt.trans (Nat.lt_succ_self _), ?_, ?_, hfree⟩
    · rw [content, if_neg hne]
      exact hlength
    · rw [width, if_neg hne]
      exact hw
  unique := h.unique
  heldKnown object hobject := (h.heldKnown object hobject).trans (Nat.lt_succ_self _)

/-- A buffer is written, and keeps its size. -/
theorem write (h : BuffersKept buffers objects log) (hle : bytes.length ≤ (content object log).length) :
    BuffersKept buffers objects (.write object bytes :: log) where
  known i buffer object' hi ho := by
    obtain ⟨hlt, hlength, hw, hfree⟩ := h.known i buffer object' hi ho
    refine ⟨hlt, ?_, hw, hfree⟩
    rw [content]
    split
    next heq =>
      subst heq
      rw [List.length_append, List.length_drop, ← hlength]
      omega
    · exact hlength
  unique := h.unique
  heldKnown := h.heldKnown

theorem commit {frame : UInt64} (h : BuffersKept buffers objects log) (hindex : buffers[index]? = some buffer)
    (hobject : buffer.object = some object) (hpending : pending log = some object) :
    BuffersKept (buffers.modify index fun buffer =>
      { buffer with busyFrame := some frame }) objects (.commit :: log) where
  known i b object' hi ho := by
    rw [List.getElem?_modify] at hi
    obtain ⟨b', hb', rfl⟩ := Option.map_eq_some_iff.1 hi
    split at ho
    next heq =>
      obtain ⟨hlt, hlength, hw, -⟩ := h.known i b' object' hb' ho
      rw [if_pos heq]
      exact ⟨hlt, hlength, hw, nofun⟩
    next hne =>
      rw [if_neg hne]
      obtain ⟨hlt, hlength, hw, hfree⟩ := h.known i b' object' hb' ho
      refine ⟨hlt, hlength, hw, fun hbusy => ?_⟩
      have hother : object ≠ object' := by
        rintro rfl
        exact hne (h.unique index i buffer b' object hindex hb' hobject ho)
      rw [held, hpending, hfree hbusy, Bool.or_false]
      exact decide_eq_false fun heq => hother (Option.some.inj heq)
  unique i j b b' object' hi hj ho ho' := by
    rw [List.getElem?_modify] at hi hj
    obtain ⟨c, hc, rfl⟩ := Option.map_eq_some_iff.1 hi
    obtain ⟨c', hc', rfl⟩ := Option.map_eq_some_iff.1 hj
    refine h.unique i j c c' object' hc hc' ?_ ?_
    · split at ho
      · exact ho
      · exact ho
    · split at ho'
      · exact ho'
      · exact ho'
  heldKnown object' hobject' := by
    rw [held, hpending, Bool.or_eq_true, decide_eq_true_eq] at hobject'
    rcases hobject' with heq | hheld
    · obtain rfl := Option.some.inj heq
      exact (h.known index buffer object hindex hobject).1
    · exact h.heldKnown object' hheld

end BuffersKept

/-- What the invariant is about. -/
structure View where
  output : Output
  width : UInt32
  height : UInt32
  buffers : List Buffer
  eventSequence : UInt64
  frameSequence : UInt64
  cause : Option Cause
  appliedCount : UInt64
  firstApplied : UInt64
  objects : Nat
  log : List Action

def World.view (w : World) : View where
  output := w.app.options.output
  width := w.app.width
  height := w.app.height
  buffers := w.app.buffers
  eventSequence := w.app.eventSequence
  frameSequence := w.app.frameSequence
  cause := w.app.cause
  appliedCount := w.app.appliedCount
  firstApplied := w.app.firstApplied
  objects := w.objects
  log := w.log

def Window (n : UInt32) : Prop := 64 ≤ n.toNat ∧ n.toNat ≤ 2048

/-- The count, the first and the last of the events that no frame shows yet. -/
structure Applied (cause : Option Cause) (appliedCount firstApplied : UInt64) (events : List Nat) : Prop where
  count : appliedCount.toNat = events.length
  first : firstApplied.toNat = events.getLast?.getD 0
  last : (cause.getD {}).sequence.toNat = events.head?.getD 0

structure Kept (output : Output) (v : View) (ms : List Marker) : Prop where
  same : v.output = output
  history : History output v.log ms
  recorded : Recorded output ms (commitRows v.log)
  pending : pending v.log = none
  width : Window v.width
  height : Window v.height
  frameSequence : v.frameSequence.toNat = ms.length
  eventSequence : v.eventSequence.toNat = inputs v.log
  applied : Applied v.cause v.appliedCount v.firstApplied (fresh v.log)
  buffers : BuffersKept v.buffers v.objects v.log

/-- Between two steps. -/
def Inv (output : Output) (w : World) : Prop := ∃ ms, Kept output w.view ms

/-- Wherever the client fails. -/
def Sane (output : Output) (w : World) : Prop := ∃ ms, History output w.log ms

variable {w : World} {v : View}

theorem Inv.sane (h : Inv output w) : Sane output w := by
  obtain ⟨ms, hms⟩ := h
  exact ⟨ms, hms.history⟩

theorem recorded_nil (output : Output) : Recorded output [] [] := by
  unfold Recorded
  split
  · rfl
  · exact .nil

theorem inv_start (options : Options) : Inv options.output { app := { options } } :=
  ⟨[], {
    same := rfl
    history := ⟨rfl, rfl, .nil, .inl (recorded_nil _), trivial⟩
    recorded := recorded_nil _
    pending := rfl
    width := options.width_mem
    height := options.height_mem
    frameSequence := rfl
    eventSequence := rfl
    applied := ⟨rfl, rfl, rfl⟩
    buffers := BuffersKept.start _ _ }⟩

theorem increment_ok {n n' : UInt64} (h : increment n = .ok n') : n'.toNat = n.toNat + 1 := by
  unfold increment at h
  split at h
  next hlt =>
    obtain rfl := Except.ok.inj h
    rw [UInt64.toNat_add]
    exact Nat.mod_eq_of_lt hlt
  · cases h

theorem Applied.cons {cause cause' : Option Cause} {count first count' sequence : UInt64} {events : List Nat} {n : Nat}
    (h : Applied cause count first events) (hcount : increment count = .ok count') (hsequence : sequence.toNat = n)
    (hcause : (cause'.getD {}).sequence = sequence) :
    Applied cause' count' (if count = 0 then sequence else first) (n :: events) where
  count := by rw [increment_ok hcount, h.count, List.length_cons]
  first := by
    cases events with
    | nil =>
      have hzero : count = 0 := UInt64.toNat_inj.1 h.count
      rw [if_pos hzero, hsequence]
      rfl
    | cons a events =>
      have hne : count ≠ 0 := by
        rintro rfl
        exact absurd h.count (Nat.succ_ne_zero _).symm
      rw [if_neg hne, h.first, List.getLast?_cons_cons]
  last := by rw [hcause, hsequence, List.head?_cons, Option.getD_some]

namespace Kept

theorem grow {objects : Nat} (h : Kept output v ms) (hle : v.objects ≤ objects) :
    Kept output { v with objects := objects } ms :=
  { h with buffers := h.buffers.congr hle (fun _ => rfl) (fun _ => rfl) fun _ hheld => hheld }

theorem deliver (h : Kept output v ms) (hr : r.message.isInput = false) :
    Kept output { v with log := .delivered r :: v.log } ms := by
  have hvisual : r.message.isVisual = false := by
    cases hcase : r.message.isVisual with
    | false => rfl
    | true =>
      rw [isInput_of_isVisual hcase] at hr
      cases hr
  have hinputs : inputs (.delivered r :: v.log) = inputs v.log := by
    rw [inputs, hr]
    rfl
  have hfresh : fresh (.delivered r :: v.log) = fresh v.log := by
    rw [fresh, hvisual]
    rfl
  exact { h with
    history := h.history.delivered
    eventSequence := h.eventSequence.trans hinputs.symm
    applied := hfresh.symm ▸ h.applied
    buffers := h.buffers.delivered }

/-- An event of a device that the picture does not show. -/
theorem input {sequence : UInt64} (h : Kept output v ms) (hr : r.message.isInput = true)
    (hvisual : r.message.isVisual = false)
    (hsequence : increment v.eventSequence = .ok sequence) :
    Kept output { v with eventSequence := sequence, log := .delivered r :: v.log } ms := by
  have hinputs : inputs (.delivered r :: v.log) = inputs v.log + 1 := by
    rw [inputs, hr]
    rfl
  have hfresh : fresh (.delivered r :: v.log) = fresh v.log := by
    rw [fresh, hvisual]
    rfl
  exact { h with
    history := h.history.delivered
    eventSequence := (increment_ok hsequence).trans (h.eventSequence ▸ hinputs.symm)
    applied := hfresh.symm ▸ h.applied
    buffers := h.buffers.delivered }

theorem visual {sequence count : UInt64} {cause : Cause} (h : Kept output v ms) (hvisual : r.message.isVisual = true)
    (hsequence : increment v.eventSequence = .ok sequence) (hcount : increment v.appliedCount = .ok count)
    (hcause : cause.sequence = sequence) :
    Kept output { v with
      eventSequence := sequence
      firstApplied := if v.appliedCount = 0 then sequence else v.firstApplied
      appliedCount := count
      cause := some cause
      log := .delivered r :: v.log } ms := by
  have hinputs : inputs (.delivered r :: v.log) = inputs v.log + 1 := by
    rw [inputs, isInput_of_isVisual hvisual]
    rfl
  have hfresh : fresh (.delivered r :: v.log) = (inputs v.log + 1) :: fresh v.log := by
    rw [fresh, hvisual]
    rfl
  have hnumber : sequence.toNat = inputs v.log + 1 := by rw [increment_ok hsequence, h.eventSequence]
  exact { h with
    history := h.history.delivered
    eventSequence := hnumber.trans hinputs.symm
    applied := hfresh.symm ▸ h.applied.cons hcount hnumber hcause
    buffers := h.buffers.delivered }

theorem record (h : Kept output v ms) (hrow : isCommitRow row = false) :
    Kept output { v with log := .record row :: v.log } ms := by
  have hrows : commitRows (.record row :: v.log) = commitRows v.log := if_neg (Bool.eq_false_iff.1 hrow)
  exact { h with
    history := h.history.record hrow
    recorded := hrows.symm ▸ h.recorded
    buffers := h.buffers.congr (Nat.le_refl _) (fun _ => rfl) (fun _ => rfl) fun _ hheld => hheld }

theorem commit (h : Kept output v ms) : Kept output { v with log := .commit :: v.log } ms := by
  have hfresh : fresh (.commit :: v.log) = fresh v.log := by
    rw [fresh, h.pending]
    rfl
  exact { h with
    history := h.history.commit h.pending
    pending := rfl
    applied := hfresh.symm ▸ h.applied
    buffers := h.buffers.congr (Nat.le_refl _) (fun _ => rfl) (fun _ => rfl) fun object hheld => by
      rw [held, h.pending] at hheld
      exact hheld }

/-- The client hears of the release of a buffer. -/
theorem release (h : Kept output v ms) (hr : r.message.isInput = false) (hreleases : r.releases object = true)
    (hindex : v.buffers[index]? = some buffer) (hobject : buffer.object = some object) :
    Kept output { v with
      buffers := v.buffers.set index { buffer with busyFrame := none }, log := .delivered r :: v.log } ms := by
  have hkept := h.deliver hr
  have hfree : held object (.delivered r :: v.log) = false := by
    rw [held, hreleases]
    rfl
  refine { hkept with buffers := hkept.buffers.set ?_ ?_ }
  · intro object' hobject'
    obtain ⟨hlt, hlength, hw, -⟩ := hkept.buffers.known index buffer object' hindex hobject'
    obtain rfl : object' = object := Option.some.inj (hobject'.symm.trans hobject)
    exact ⟨hlt, hlength, hw, fun _ => hfree⟩
  · intro j buffer' object' hj hbuffer' ho ho'
    exact hj (h.buffers.unique j index buffer' buffer object' hbuffer' hindex ho' ho)

theorem clear (h : Kept output v ms) (index : Nat) : Kept output { v with buffers := v.buffers.set index {} } ms :=
  { h with buffers := h.buffers.set (fun _ => nofun) fun _ _ _ _ _ => nofun }

/-- A slot with a new buffer, over a new file. -/
theorem replace {w h' : UInt32} (h : Kept output v ms) :
    Kept output { v with
      buffers := v.buffers.set index { object := some v.objects, width := w, height := h' }
      objects := v.objects + 1
      log := .create v.objects w h' :: v.log } ms := by
  have hcreate := h.buffers.create w h'
  refine { h with history := h.history.create, buffers := hcreate.set ?_ ?_ }
  · intro object hobject
    obtain rfl := Option.some.inj hobject
    refine ⟨Nat.lt_succ_self _, ?_, ?_, fun _ => ?_⟩
    · rw [content, if_pos rfl, List.length_replicate]
    · rw [ProbeClient.width, if_pos rfl]
    · cases hheld : held v.objects (.create v.objects w h' :: v.log) with
      | false => rfl
      | true => exact absurd (h.buffers.heldKnown v.objects hheld) (Nat.lt_irrefl _)
  · intro j b object hj hb ho ho'
    obtain rfl := Option.some.inj ho
    exact Nat.lt_irrefl _ (h.buffers.known j b _ hb ho').1

end Kept

end CocoaWay.ProbeClient
