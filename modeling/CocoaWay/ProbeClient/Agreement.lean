import CocoaWay.ProbeClient.Steps

/-!
# The markers of the probe client agree with its records

* `Frame` : a frame that is about to be committed; `frame_history`, `frame_kept` : its marker, and the state after it;
* `renderInto_ends`, `render_ends`, `steps_ends` : frames, and runs;
* `Agreement` : what is read off the buffers is what the records say;
* `marker_agreement` : it holds in every run.
-/

namespace CocoaWay.ProbeClient
open Lib
open InputProbe (Row Value Marker markerMatches)

variable {output : Output} {env : Env} {w : World} {index : Nat} {ms : List Marker} {object : Object} {frame preCommitNs : UInt64}
  {pid : UInt32} {buffer : Buffer} {bytes : List UInt8}

/-! ## A frame -/

theorem length_picture (app : App) (stripe : Nat) : (picture app stripe).length = app.width.toNat * app.height.toNat * 4 := by
  unfold picture
  rw [List.length_flatMap]
  simp only [Layout.length_toLe, List.map_const', List.sum_replicate_nat, List.length_range]

theorem length_marker (pid : UInt32) (app : App) (frame preCommitNs : UInt64) :
    (marker pid app frame preCommitNs).length = 160 := by
  unfold marker
  rw [length_pixels (by rw [length_payload]), length_payload]

theorem ends_write {Q : PUnit → World → Prop} (hE : ∀ n calls, Sane output { w with
      calls := calls, log := .write object (bytes.take n) :: w.log })
    (hQ : ∀ calls, Q ⟨⟩ { w with calls := calls, log := .write object bytes :: w.log }) :
    Ends (write env object bytes) Q (Sane output) w := by
  refine ends_bind.2 (ends_ask.2 ?_)
  split
  · exact hE _ _
  · exact hQ _

/-- A slot whose buffer may be drawn. -/
structure Drawable (w : World) (index : Nat) (object : Object) : Prop where
  slot : ∃ buffer, w.app.buffers[index]? = some buffer ∧ buffer.object = some object
  free : held object w.log = false
  size : (content object w.log).length = w.app.width.toNat * w.app.height.toNat * 4
  width : ProbeClient.width object w.log = w.app.width.toNat

theorem Ready.drawable (h : Ready w index) (hkept : Kept output w.view ms) :
    ∃ object, (w.app.buffers[index]?.bind fun buffer => buffer.object) = some object ∧ Drawable w index object := by
  obtain ⟨buffer, object, hindex, hobject, hwidth, hheight, hbusy⟩ := h
  obtain ⟨-, hlength, hw, hfree⟩ := hkept.buffers.known index buffer object hindex hobject
  refine ⟨object, by rw [hindex]; exact hobject, ⟨buffer, hindex, hobject⟩, hfree hbusy, ?_, ?_⟩
  · rw [← hwidth, ← hheight]
    exact hlength
  · rw [← hwidth]
    exact hw

/-- The log of a frame up to its marker. -/
def drawn (object : Object) (picture marker : List UInt8) (log : List Action) : List Action :=
  .write object marker :: .attach object :: .write object picture :: log

theorem frame_history (h : Kept output w.view ms) (hdraw : Drawable w index object) (hframe : frame.toNat = ms.length + 1)
    (pid : UInt32) (preCommitNs : UInt64) (picture : List UInt8) :
    History output (.commit :: drawn object picture (marker pid w.app frame preCommitNs) w.log)
      (markerOf pid w.app frame preCommitNs :: ms) := by
  have hwrite : History output (.write object picture :: w.log) ms := h.history.write hdraw.free
  have hmarker : History output (drawn object picture (marker pid w.app frame preCommitNs) w.log) ms :=
    hwrite.attach.write hdraw.free
  have hwidth : (40 : Int) ≤ w.app.width.toNat := by
    have := h.width.1
    change 64 ≤ w.app.width.toNat at this
    omega
  have hshown : shown (ProbeClient.width object (drawn object picture (marker pid w.app frame preCommitNs) w.log),
      content object (drawn object picture (marker pid w.app frame preCommitNs) w.log)) =
        some (markerOf pid w.app frame preCommitNs) := by
    change (decode (ProbeClient.width object w.log) (if object = object then _ else _)).bind _ = _
    rw [if_pos rfl, hdraw.width, decode_marker hwidth, Option.bind_some]
    exact marker_payload (by omega)
  exact hmarker.frame h.recorded rfl hshown (congrArg Nat.cast hframe)
    ⟨congrArg Nat.cast h.applied.count, congrArg Nat.cast h.applied.first, congrArg Nat.cast h.applied.last⟩

/-- After a frame its buffer is the compositor's. -/
theorem frame_buffers (h : Kept output w.view ms) (hdraw : Drawable w index object) {objects : Nat} (hobjects : w.objects ≤ objects)
    {picture : List UInt8} (hpicture : picture.length = w.app.width.toNat * w.app.height.toNat * 4) (pid : UInt32)
    (frame preCommitNs : UInt64) :
    BuffersKept (committed index frame w.app).buffers objects
      (.commit :: drawn object picture (marker pid w.app frame preCommitNs) w.log) := by
  obtain ⟨buffer, hindex, hobject⟩ := hdraw.slot
  have hwrite : BuffersKept w.app.buffers w.objects (.write object picture :: w.log) :=
    h.buffers.write (hpicture.trans hdraw.size.symm).le
  have hattach : BuffersKept w.app.buffers objects (.attach object :: .write object picture :: w.log) :=
    hwrite.congr hobjects (fun _ => rfl) (fun _ => rfl) fun _ hheld => hheld
  have hle : (marker pid w.app frame preCommitNs).length ≤
      (content object (.attach object :: .write object picture :: w.log)).length := by
    have hwidth : 64 ≤ w.app.width.toNat := h.width.1
    have hheight : 64 ≤ w.app.height.toNat := h.height.1
    have hmul := Nat.mul_le_mul hwidth hheight
    change _ ≤ (if object = object then picture ++ _ else _).length
    rw [if_pos rfl, length_marker, List.length_append, hpicture]
    omega
  exact (hattach.write hle).commit hindex hobject rfl

/-- The client and the log after a frame without a record. -/
def finished (w : World) (index : Nat) (frame : UInt64) (objects calls : Nat) (log : List Action) : World where
  app := resetCause (committed index frame w.app)
  log := log
  calls := calls
  objects := objects

theorem frame_kept (h : Kept output w.view ms) (hframe : frame.toNat = ms.length + 1) {m : Marker} {objects calls : Nat}
    {log : List Action} (hhistory : History output log (m :: ms)) (hrecorded : Recorded output (m :: ms) (commitRows log))
    (hpending : pending log = none) (hinputs : inputs log = inputs w.log) (hfresh : fresh log = [])
    (hbuffers : BuffersKept (committed index frame w.app).buffers objects log) :
    Kept output (finished w index frame objects calls log).view (m :: ms) where
  same := h.same
  history := hhistory
  recorded := hrecorded
  pending := hpending
  width := h.width
  height := h.height
  frameSequence := hframe
  eventSequence := h.eventSequence.trans hinputs.symm
  applied := by
    change Applied none 0 0 (fresh log)
    rw [hfresh]
    exact ⟨rfl, rfl, rfl⟩
  buffers := hbuffers

theorem isRecord_commitRow {app : App} {renderStartNs commitQueuedNs : UInt64} :
    IsRecord (markerOf pid app frame preCommitNs) (commitRow pid app frame index renderStartNs preCommitNs commitQueuedNs) :=
  ⟨markerMatches_commit, rfl⟩

/-- The rest of a frame, after its commit: the record, and the reset. -/
theorem record_frame_ends (h : Kept output w.view ms) (hdraw : Drawable w index object) (hframe : frame.toNat = ms.length + 1)
    {picture : List UInt8} (hpicture : picture.length = w.app.width.toNat * w.app.height.toNat * 4) {objects calls : Nat}
    (hobjects : w.objects ≤ objects) {renderStartNs commitQueuedNs : UInt64} :
    Ends (do
        record env "frame_commit" preCommitNs (commitFields w.app frame index renderStartNs preCommitNs commitQueuedNs)
        modifyApp resetCause)
      (fun _ => Inv output) (Sane output)
      { app := committed index frame w.app
        log := .commit :: drawn object picture (marker env.pid w.app frame preCommitNs) w.log
        calls := calls
        objects := objects } := by
  have hhistory := frame_history h hdraw hframe env.pid preCommitNs picture
  have hbuffers := frame_buffers h hdraw hobjects hpicture env.pid frame preCommitNs
  have hsame : w.app.options.output = output := h.same
  have hrecorded := h.recorded
  refine ends_bind.2 (ends_bind.2 (ends_getApp.2 ?_))
  change Ends (if w.app.options.output = .off then _ else _) _ _ _
  unfold Recorded at hrecorded
  split
  next hoff =>
    rw [if_pos (hsame.symm.trans hoff)] at hrecorded
    refine ⟨_, frame_kept h hframe hhistory ?_ rfl rfl rfl hbuffers⟩
    unfold Recorded
    rw [if_pos (hsame.symm.trans hoff)]
    exact hrecorded
  next hon =>
    rw [if_neg (hsame ▸ hon)] at hrecorded
    refine ends_bind.2 (ends_request ⟨_, hhistory⟩ fun _ => ?_)
    refine ⟨_, frame_kept h hframe ⟨hhistory.decoded, hhistory.frames, hhistory.ranges, .inl ?_, hhistory.free⟩ ?_ rfl rfl rfl
      (hbuffers.congr (Nat.le_refl _) (fun _ => rfl) (fun _ => rfl) fun _ hheld => hheld)⟩
    all_goals
      unfold Recorded
      rw [if_neg (hsame ▸ hon)]
      exact .cons isRecord_commitRow hrecorded

theorem renderInto_ends (h : Inv output w) (hready : Ready w index) :
    Ends (renderInto env index) (fun _ => Inv output) (Sane output) w := by
  have hsane := h.sane
  obtain ⟨ms, hms⟩ := h
  obtain ⟨object, hobject, hdraw⟩ := hready.drawable hms
  refine ends_bind.2 (ends_getApp.2 ?_)
  refine ends_bind.2 (ends_liftExcept hsane fun frame hframe => ?_)
  have hnumber : frame.toNat = ms.length + 1 := (increment_ok hframe).trans (congrArg (· + 1) hms.frameSequence)
  refine ends_bind.2 (ends_now.2 ?_)
  refine ends_bind.2 (ends_liftExcept hsane fun stripe _ => ?_)
  refine ends_bind.2 (ends_orError hsane fun object' hobject' => ?_)
  obtain rfl : object = object' := Option.some.inj (hobject.symm.trans hobject')
  have hwrite : ∀ bytes, History output (.write object bytes :: w.log) ms := fun _ => hms.history.write hdraw.free
  refine ends_bind.2 (ends_write (fun _ _ => ⟨ms, hwrite _⟩) fun _ => ?_)
  have hpicture : Sane output { w with log := .write object (picture w.app stripe) :: w.log } := ⟨ms, hwrite _⟩
  refine ends_bind.2 (ends_bind.2 (ends_orError hpicture fun _ _ => ?_))
  refine ends_bind.2 (ends_bind.2 (ends_orError hpicture fun _ _ => ?_))
  refine ends_bind.2 (ends_request hpicture fun _ => ?_)
  refine ends_bind.2 (ends_request hpicture fun _ => ?_)
  refine ends_bind.2 (ends_push.2 ?_)
  have hattach : Sane output { w with log := .attach object :: .write object (picture w.app stripe) :: w.log } :=
    ⟨ms, (hwrite _).attach⟩
  refine ends_bind.2 (ends_request hattach fun _ => ?_)
  refine ends_bind.2 (ends_bind.2 (ends_newObject hattach fun _ => ?_))
  refine ends_bind.2 (ends_now.2 ?_)
  have hdrawn : ∀ bytes, History output (drawn object (picture w.app stripe) bytes w.log) ms :=
    fun _ => (hwrite _).attach.write hdraw.free
  refine ends_bind.2 (ends_write (fun _ _ => ⟨ms, hdrawn _⟩) fun _ => ?_)
  refine ends_bind.2 (ends_request ⟨ms, hdrawn _⟩ fun _ => ?_)
  refine ends_bind.2 (ends_push.2 ?_)
  refine ends_bind.2 (ends_now.2 ?_)
  refine ends_bind.2 (ends_modifyApp.2 ?_)
  exact record_frame_ends hms hdraw hnumber (length_picture w.app stripe) (Nat.le_succ _)

theorem free_of_freeBuffer (h : freeBuffer w.app = some index) : Free w index := by
  have hsome := List.find?_some h
  rw [Option.any_eq_true] at hsome
  obtain ⟨buffer, hindex, hbusy⟩ := hsome
  unfold Free
  rw [List.getElem?_map, hindex, Option.map_some, Option.isNone_iff_eq_none.1 hbusy]

theorem render_ends (h : Inv output w) : Ends (render env) (fun _ => Inv output) (Sane output) w := by
  refine ends_bind.2 (ends_getApp.2 ?_)
  split
  · exact h
  · split
    · exact h
    next index hindex =>
      refine (prepareBuffers_ends h (free_of_freeBuffer hindex)).bind fun _ w' hw' => ?_
      exact renderInto_ends hw'.1 hw'.2

/-! ## Runs -/

theorem step_ends (s : Step) (h : Inv output w) : Ends (step env s) (fun _ => Inv output) (Sane output) w := by
  cases s with
  | deliver received => exact ends_bind.2 (ends_push.2 (handle_ends h))
  | render => exact render_ends h

theorem steps_ends (l : List Step) : Keeps output (steps env l) := by
  induction l with
  | nil => exact .pure _
  | cons s rest ih =>
    refine .bind .getApp fun app => ?_
    split
    · exact .bind (fun w hw => step_ends s hw) fun _ => ih
    · exact .pure _

theorem runProbe_ends (env : Env) (options : Options) (l : List Step) : Keeps output (runProbe env options l) :=
  .bind .now fun _ => .bind (.record (by decide)) fun _ => .bind .request fun _ => .bind (steps_ends l) fun _ =>
    .bind .now fun _ => .bind .getApp fun _ => .record (by decide)

/-! ## The agreement -/

/-- What the frames of a log say, from the last one, and what its records say. -/
structure Agreement (output : Output) (log : List Action) (ms : List Marker) : Prop where
  /-- The first pixels of every frame decode to a payload, and the analysis takes it. -/
  decoded : (commits log).map shown = ms.map some
  /-- The frames have the numbers from 1 on. -/
  consecutive : ms.map Marker.frame = numbers ms.length
  /-- A record is matched by the marker of its frame, and by no other. -/
  matched : ∀ m ∈ ms, ∀ row ∈ commitRows log, markerMatches m row = true ↔ row.get "frame_sequence" = .int m.frame
  /-- All frames have records, or all but the last one; none has if the log is off. -/
  recorded : if output = .off then commitRows log = [] else
    ∃ n ≤ 1, (commitRows log).map (fun row => row.get "frame_sequence") = (ms.drop n).map fun m => .int m.frame
  /-- No buffer is written while the compositor has it. -/
  free : ∀ after object bytes before, log = after ++ .write object bytes :: before → held object before = false
  /-- The ranges of events are in order, and apart. -/
  range : ∀ m ∈ ms, 0 < m.applied → m.first ≤ m.last
  ordered : (ms.filter fun m => 0 < m.applied).Pairwise fun later earlier => earlier.last < later.first
  /-- Every visual event before the last frame is in a range. -/
  covered : ∀ n ∈ (chunks log).flatten, ∃ m ∈ ms, m.first ≤ n ∧ n ≤ m.last

variable {log : List Action} {m m' : Marker} {row : Row}

theorem numbers_sorted (n : Nat) : (numbers n).Pairwise (· > ·) ∧ ∀ k ∈ numbers n, k ≤ n := by
  induction n with
  | zero => exact ⟨.nil, nofun⟩
  | succ n ih =>
    obtain ⟨hsorted, hle⟩ := ih
    refine ⟨List.pairwise_cons.2 ⟨fun k hk => ?_, hsorted⟩, fun k hk => ?_⟩
    · have := hle k hk
      push_cast
      omega
    · rcases List.mem_cons.1 hk with rfl | hk
      · exact Int.le_refl _
      · have := hle k hk
        push_cast
        omega

theorem History.frame_injective (h : History output log ms) (hm : m ∈ ms) (hm' : m' ∈ ms) (heq : m.frame = m'.frame) :
    m = m' := by
  have hnodup : (ms.map Marker.frame).Nodup := by
    rw [h.frames]
    exact (numbers_sorted ms.length).1.imp fun hlt => (ne_of_lt hlt).symm
  exact List.inj_on_of_nodup_map hnodup hm hm' heq

theorem Recorded.sole {rows : List Row} (h : Recorded output ms rows) (hrow : row ∈ rows) : ∃ m ∈ ms, IsRecord m row := by
  unfold Recorded at h
  split at h
  · rw [h] at hrow
    cases hrow
  · exact exists_of_forall₂ (List.Forall₂.flip (R := flip IsRecord) h) row hrow

theorem History.record_of_mem (h : History output log ms) (hrow : row ∈ commitRows log) : ∃ m ∈ ms, IsRecord m row := by
  rcases h.recorded with hrecorded | hrecorded
  · exact hrecorded.sole hrow
  · obtain ⟨m, hm, hrecord⟩ := hrecorded.sole hrow
    exact ⟨m, List.mem_of_mem_tail hm, hrecord⟩

theorem frame_of_matches (h : markerMatches m row = true) : (Value.int m.frame).eq (row.get "frame_sequence") = true := by
  unfold markerMatches at h
  rw [Bool.and_eq_true, Bool.and_eq_true, List.all_eq_true] at h
  exact h.1.2 (Marker.frame, "frame_sequence") List.mem_cons_self

theorem map_records {rows : List Row} (h : List.Forall₂ IsRecord ms rows) :
    rows.map (fun row => row.get "frame_sequence") = ms.map fun m => .int m.frame := by
  induction h with
  | nil => rfl
  | cons hrecord _ ih => rw [List.map_cons, List.map_cons, hrecord.2, ih]

theorem agreement_of_history (h : History output log ms) : Agreement output log ms where
  decoded := h.decoded
  consecutive := h.frames
  matched m hm row hrow := by
    obtain ⟨m', hm', hmatches, hframe⟩ := h.record_of_mem hrow
    rw [hframe]
    constructor
    · intro hmatch
      have heq := frame_of_matches hmatch
      rw [hframe] at heq
      have : m.frame = m'.frame := of_decide_eq_true heq
      rw [this]
    · intro heq
      rwa [h.frame_injective hm hm' (Value.int.inj heq).symm]
  recorded := by
    have hrecorded := h.recorded
    unfold Recorded at hrecorded
    split
    next hoff =>
      rw [if_pos hoff, if_pos hoff, or_self] at hrecorded
      exact hrecorded
    next hon =>
      rw [if_neg hon, if_neg hon] at hrecorded
      rcases hrecorded with hall | htail
      · exact ⟨0, Nat.zero_le _, map_records hall⟩
      · exact ⟨1, Nat.le_refl _, by rw [List.drop_one]; exact map_records htail⟩
  free after object bytes before heq := freeWrites_split (heq ▸ h.free)
  range m hm hpos := by
    obtain ⟨events, hevents, hdescribes⟩ := exists_of_forall₂ h.ranges m hm
    obtain ⟨first, hfirst, -, -, -, -⟩ := hdescribes.ends_mem hpos
    have hsorted := (List.pairwise_append.1 (events_sorted log).1).2.1
    have hcontains := hdescribes.contains ((List.pairwise_flatten.1 hsorted).1 events hevents) hfirst
    exact hcontains.1.trans hcontains.2
  ordered := describes_sorted h.ranges (List.pairwise_append.1 (events_sorted log).1).2.1
  covered _ hn := describes_cover h.ranges (List.pairwise_append.1 (events_sorted log).1).2.1 hn

/-- In every run of the client, whatever is delivered and whatever fails, the frames and the records agree; and every frame
has its record if the run does not fail and its log is not off. -/
theorem marker_agreement (env : Env) (options : Options) (l : List Step) :
    match run env options l with
    | .ok _ w => ∃ ms, Agreement options.output w.log ms ∧
        (options.output ≠ .off → (commitRows w.log).length = (commits w.log).length)
    | .error _ w => ∃ ms, Agreement options.output w.log ms := by
  have hrun := runProbe_ends env options l { app := { options } } (inv_start options)
  unfold Ends at hrun
  change match runProbe env options l { app := { options } } with | .ok _ w => _ | .error _ w => _
  split at hrun
  next w heq =>
    rw [heq]
    obtain ⟨ms, hms⟩ := hrun
    refine ⟨ms, agreement_of_history hms.history, fun hon => ?_⟩
    have hrecorded := hms.recorded
    unfold Recorded at hrecorded
    rw [if_neg hon] at hrecorded
    have hcommits := congrArg List.length hms.history.decoded
    rw [List.length_map, List.length_map] at hcommits
    exact hrecorded.length_eq.symm.trans hcommits.symm
  next w heq =>
    rw [heq]
    obtain ⟨ms, hms⟩ := hrun
    exact ⟨ms, agreement_of_history hms⟩

/-! ## A run with a frame -/

def smallOptions : Options :=
  { output := .stderr, continuous := false, tag := "test", buffers := 2, width := 64, height := 64
    buffers_mem := by decide, width_mem := by decide, height_mem := by decide }

/-- Nothing fails. -/
def quiet : Env := { pid := 3, now := fun n => UInt64.ofNat (2000 + 10 * n), fails := fun _ => false, written := fun _ => 0 }

/-- A window, a key, and a frame. -/
def keyPressed : List Step :=
  ([Message.global 1 "wl_compositor" 4, .global 2 "wl_shm" 1, .global 3 "xdg_wm_base" 1, .global 5 "wl_seat" 7, .sync,
    .capabilities 5 true false, .configure 1, .keyboard 5 (some (.key 7 20 30 1))].map fun message =>
      .deliver { ns := 2110, sender := 1, senderId := 1, message }) ++ [.render]

example : (match run quiet smallOptions keyPressed with
    | .ok _ w => (commits w.log).length == 1 && (commitRows w.log).length == 1 && chunks w.log == [[1]]
    | .error _ _ => false) = true := by decide +kernel

end CocoaWay.ProbeClient
