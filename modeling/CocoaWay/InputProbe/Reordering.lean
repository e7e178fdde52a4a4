import CocoaWay.InputProbe.Presentations

/-!
# Records in another order

* `Reordered` : the records of a run with their lists in another order;
* `byPair_perm` and its like : every index has the same records, every pass the same outcome for an entry;
* `notes_perm`, `presentations_perm` : the same is noted, in another order.
-/

namespace CocoaWay.InputProbe
open Lib
open TraceAnalysis (Stage Tag)

structure Reordered (r r' : Records) : Prop where
  pid : r.pid = r'.pid
  cal : r.cal = r'.cal
  events : r.events.Perm r'.events
  receipts : r.receipts.Perm r'.receipts
  handlers : r.handlers.Perm r'.handlers
  commits : r.commits.Perm r'.commits

theorem one_perm {α κ : Type} {index index' : κ → List α} (h : ∀ k, (index k).Perm (index' k)) (key : Option κ) :
    one index key = one index' key := by
  cases key with
  | none => rfl
  | some k => exact sole_perm (h k)

theorem any_perm {α : Type} {l l' : List α} (h : l.Perm l') (p : α → Bool) : l.any p = l'.any p := by
  rw [Bool.eq_iff_iff, List.any_eq_true, List.any_eq_true]
  simp only [h.mem_iff]

namespace Reordered

variable {r r' : Records} (h : Reordered r r')
include h

/-! ## Indexes -/

theorem inputs : r.inputs.Perm r'.inputs := h.receipts.filter _

theorem forwards : r.forwards.Perm r'.forwards := h.events.filter _

theorem surfaces : r.surfaces.Perm r'.surfaces := h.events.filter _

theorem byPair (pair : Int × Int) : (r.byPair pair).Perm (r'.byPair pair) := bucket_perm h.inputs pair

theorem bySequence (sequence : Int) : (r.bySequence sequence).Perm (r'.bySequence sequence) :=
  bucket_perm h.receipts sequence

theorem handled (sequence : Int) : (r.handled sequence).Perm (r'.handled sequence) := bucket_perm h.handlers sequence

theorem guestFrames (frame : Int) : (r.guestFrames frame).Perm (r'.guestFrames frame) := bucket_perm h.commits frame

theorem native (id : Tag) : (r.native id).Perm (r'.native id) := bucket_perm (h.events.filter _) id

theorem forwardedIds (id : Tag) : (r.forwardedIds id).Perm (r'.forwardedIds id) := bucket_perm h.forwards id

theorem forwardedPairs (pair : Int × Int) : (r.forwardedPairs pair).Perm (r'.forwardedPairs pair) :=
  bucket_perm h.forwards pair

theorem frames (id : Tag) : (r.frames id).Perm (r'.frames id) := bucket_perm (h.events.filter _) id

theorem chain : r.chain = r'.chain := by
  funext identity stage
  cases identity with
  | none => rfl
  | some id => exact sole_perm ((h.frames id).filter _)

/-! ## Markers -/

theorem marked : r.marked = r'.marked := by
  funext surface
  unfold Records.marked
  simp only [one_perm h.guestFrames, h.pid]

theorem frameMarkers (frame : Int) : (r.frameMarkers frame).Perm (r'.frameMarkers frame) := by
  unfold Records.frameMarkers
  rw [h.marked]
  exact h.surfaces.filter _

theorem hostMarkers (frame : Int) : (r.hostMarkers frame).Perm (r'.hostMarkers frame) := by
  unfold Records.hostMarkers
  rw [h.marked]
  exact h.surfaces.filter _

theorem frameTainted (frame : Int) : r.frameTainted frame = r'.frameTainted frame := by
  unfold Records.frameTainted
  rw [h.marked]
  exact any_perm h.surfaces _

theorem tainted (frame : Int) : r.tainted frame = r'.tainted frame := by
  unfold Records.tainted
  rw [h.marked]
  exact any_perm h.surfaces _

/-! ## Passes -/

theorem stageNotes (commit surface : Row) (before : List Row) (stages : List Stage) :
    r.stageNotes commit surface before stages = r'.stageNotes commit surface before stages := by
  induction stages generalizing before with
  | nil => rfl
  | cons stage stages ih =>
    unfold Records.stageNotes
    simp only [h.chain, h.cal, ih]

theorem frameNotes : r.frameNotes = r'.frameNotes := by
  funext frame
  unfold Records.frameNotes
  simp only [sole_perm (h.guestFrames frame), sole_perm (h.frameMarkers frame), h.frameTainted, h.stageNotes,
    (h.guestFrames frame).length_eq]

theorem handlerOf : r.handlerOf = r'.handlerOf := by
  funext pair
  unfold Records.handlerOf
  simp only [sole_perm (h.byPair pair), (h.byPair pair).length_eq, one_perm h.bySequence, one_perm h.handled]

theorem goodHandlers : r.goodHandlers.Perm r'.goodHandlers := by
  unfold Records.goodHandlers
  rw [h.handlerOf]
  exact (bucketKeys_perm _ h.inputs).filterMap _

theorem assigned_goodHandlers : assigned r.goodHandlers = assigned r'.goodHandlers :=
  funext fun sequence => assigned_perm (functional_goodHandlers r) h.goodHandlers sequence

theorem joinOf : r.joinOf = r'.joinOf := by
  funext pair
  unfold Records.joinOf
  simp only [sole_perm (h.forwardedPairs pair), sole_perm (h.byPair pair), (h.forwardedPairs pair).length_eq,
    one_perm h.bySequence, one_perm h.native, one_perm h.forwardedIds]

theorem joined : r.joined.Perm r'.joined := by
  unfold Records.joined
  rw [h.joinOf]
  exact (bucketKeys_perm _ h.forwards).filterMap _

theorem assigned_joined : assigned r.joined = assigned r'.joined :=
  funext fun sequence => assigned_perm (functional_joined r) h.joined sequence

theorem causeOf : r.causeOf = r'.causeOf := by
  funext frame
  unfold Records.causeOf
  simp only [sole_perm (h.guestFrames frame), (h.guestFrames frame).length_eq, h.tainted, one_perm h.bySequence,
    h.assigned_goodHandlers]

theorem causeCommits : r.causeCommits.Perm r'.causeCommits := by
  unfold Records.causeCommits
  rw [h.causeOf]
  exact (bucketKeys_perm _ h.commits).filterMap _

theorem causes : r.causes.Perm r'.causes := bucketKeys_perm _ h.causeCommits

theorem commitsOf (sequence : Int) : (r.commitsOf sequence).Perm (r'.commitsOf sequence) :=
  (bucket_perm h.causeCommits sequence).map _

theorem presentationOf : r.presentationOf = r'.presentationOf := by
  funext sequence commit
  unfold Records.presentationOf
  simp only [one_perm h.hostMarkers, h.assigned_joined, h.chain]

theorem presentation : r.presentation = r'.presentation := by
  funext sequence
  unfold Records.presentation
  simp only [sole_perm (h.commitsOf sequence), (h.commitsOf sequence).length_eq, h.presentationOf]

/-! ## Notes -/

theorem handlerNotes : r.handlerNotes = r'.handlerNotes := by
  funext pair
  unfold Records.handlerNotes
  rw [h.handlerOf]

theorem joinNotes : r.joinNotes = r'.joinNotes := by
  funext pair
  unfold Records.joinNotes
  rw [h.joinOf, h.cal]

theorem causeNotes : r.causeNotes = r'.causeNotes := by
  funext frame
  unfold Records.causeNotes
  rw [h.causeOf]

theorem keyNotes (sequence : Int) : r.keyNotes sequence = r'.keyNotes sequence := by
  unfold Records.keyNotes
  rw [sole_perm (h.commitsOf sequence), h.assigned_goodHandlers]

theorem presentationNotes (sequence : Int) : r.presentationNotes sequence = r'.presentationNotes sequence := by
  unfold Records.presentationNotes
  rw [h.presentation]

theorem notes : r.notes.Perm r'.notes := by
  unfold Records.notes
  simp only [h.marked, h.frameNotes, h.handlerNotes, h.joinNotes, h.causeNotes, h.keyNotes, h.presentationNotes]
  have hframes := bucketKeys_perm frameSequence h.commits
  exact (((((h.surfaces.flatMap_right _).append (hframes.flatMap_right _)).append
    ((bucketKeys_perm _ h.inputs).flatMap_right _)).append ((bucketKeys_perm _ h.forwards).flatMap_right _)).append
    (hframes.flatMap_right _)).append (h.causes.flatMap_right _)

/-! ## Counts -/

theorem excluded : r.excluded = r'.excluded := funext fun message => h.notes.count_eq (.failure message)

theorem durations (name : Duration) : (r.durations name).Perm (r'.durations name) := h.notes.filterMap _

theorem latencyBounds : r.latencyBounds.Perm r'.latencyBounds := h.notes.filterMap _

theorem frameBounds (stage : Stage) : (r.frameBounds stage).Perm (r'.frameBounds stage) := h.notes.filterMap _

theorem withoutPresent : r.counts.hostFramesWithoutMetalPresented = r'.counts.hostFramesWithoutMetalPresented := by
  have hany : (fun id => !(r.frames id).any (isStage .metalPresented)) =
      fun id => !(r'.frames id).any (isStage .metalPresented) := by
    funext id
    rw [any_perm (h.frames id)]
  have hkeys := bucketKeys_perm correlation
    (h.events.filter fun row => Records.frameStages.any fun stage => isStage stage row)
  change List.countP _ _ = List.countP _ _
  rw [hany]
  exact hkeys.countP_eq _

theorem counts : r.counts = r'.counts := by
  have hpresent := h.withoutPresent
  unfold Records.counts at hpresent ⊢
  simp only [h.events.countP_eq, h.receipts.length_eq, h.inputs.length_eq, h.handlers.length_eq, h.commits.length_eq,
    h.surfaces.length_eq, h.forwards.length_eq, (h.forwards.filter fun row => (hostPair row).isSome).length_eq,
    h.joined.length_eq, h.latencyBounds.length_eq, (h.durations _).length_eq, (h.frameBounds _).length_eq,
    h.notes.count_eq] at hpresent ⊢
  rw [hpresent]

end Reordered

/-! ## Quantiles -/

theorem quantile_perm {a a' : List Int} (h : a.Perm a') (percent : Nat) : quantile a percent = quantile a' percent := by
  have hsorted : a.insertionSort (· ≤ ·) = a'.insertionSort (· ≤ ·) :=
    ((List.perm_insertionSort _ a).trans (h.trans (List.perm_insertionSort _ a').symm)).eq_of_pairwise'
      (List.pairwise_insertionSort _ a) (List.pairwise_insertionSort _ a')
  unfold quantile
  rw [hsorted, h.length_eq]

theorem nil_perm {α : Type} {l l' : List α} (h : l.Perm l') : (l = []) = (l' = []) :=
  propext ⟨fun hnil => (hnil ▸ h).symm.eq_nil, fun hnil => (hnil ▸ h).eq_nil⟩

theorem metric_perm {values values' : List Int} (h : values.Perm values') : metric values = metric values' := by
  unfold metric
  simp only [h.length_eq, nil_perm h, funext (quantile_perm h)]

theorem boundsMetric_perm {values values' : List Calibration.Interval} (h : values.Perm values') :
    boundsMetric values = boundsMetric values' := by
  unfold boundsMetric
  simp only [h.length_eq, nil_perm h, quantile_perm (h.map Prod.fst), quantile_perm (h.map Prod.snd)]

end CocoaWay.InputProbe
