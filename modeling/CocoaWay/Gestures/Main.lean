import CocoaWay.Gestures.Basic

/-!
# Gestures are sent in groups

* `pinchSent`, `swipeSent` : the events sent so far, each with the native event it was sent for;
* `accumulated` : the scale since the last beginning;
* `Stage` : what a part of a handler does, and `Stage.trans`; `handle_stage` : what an event does;
* `handle_limit` : a handler calls itself at most once;
* `gesture_protocol` : the groups over all runs, on the pointer and on every gesture object of a client.
-/

namespace CocoaWay.Gestures
open Lib Binary64

variable {κ σ υ : Type} [DecidableEq κ] [DecidableEq σ] {owner : σ → κ} {s s' s'' : AppState κ σ} {event : Event κ σ}

/-! ## What is sent -/

def Call.pinch? : Call → Option (Mark BeginEvent GesturePinchUpdateEvent EndEvent)
  | .pinch mark => some mark
  | .swipe _ => none

def Call.swipe? : Call → Option (Mark BeginEvent GestureSwipeUpdateEvent EndEvent)
  | .pinch _ => none
  | .swipe mark => some mark

/-- The pinch events sent so far, each with the native event it was sent for. -/
def pinchSent (history : List (Event κ σ × List Call)) :
    List (Event κ σ × Mark BeginEvent GesturePinchUpdateEvent EndEvent) :=
  history.flatMap fun (event, calls) => (calls.filterMap Call.pinch?).map (event, ·)

def swipeSent (history : List (Event κ σ × List Call)) :
    List (Event κ σ × Mark BeginEvent GestureSwipeUpdateEvent EndEvent) :=
  history.flatMap fun (event, calls) => (calls.filterMap Call.swipe?).map (event, ·)

/-- A group begins at scale one, and every update for a magnification changes it. -/
def accumulate (scale : Float) : Event κ σ × Mark BeginEvent GesturePinchUpdateEvent EndEvent → Float
  | (_, .begin _) => 1.0
  | (.pinch delta _ _, .update _) => zoom scale delta
  | _ => scale

/-- The scale since the last beginning. -/
def accumulated (sent : List (Event κ σ × Mark BeginEvent GesturePinchUpdateEvent EndEvent)) : Float :=
  sent.foldl accumulate 1.0

/-! ## Scales -/

/-- The bounds of a scale. -/
def InBounds (scale : Float) : Prop := 0.01 ≤ scale ∧ scale ≤ 100.0

theorem inBounds_one : InBounds 1.0 := by
  unfold InBounds
  decide

theorem InBounds.isFinite {scale : Float} (h : InBounds scale) : scale.isFinite = true :=
  isFinite_of_bounds (by decide) (by decide) h.1 h.2

theorem inBounds_clamp {x : Float} (h : x.isNaN = false) : InBounds (clamp x 0.01 100.0) :=
  clamp_bounds h (by decide)

theorem InBounds.zoom {scale delta : Float} (h : InBounds scale) (hdelta : delta.isFinite = true) :
    InBounds (zoom scale delta) := by
  have hfactor := inBounds_clamp (not_isNaN_add (a := 1.0) (by decide) hdelta)
  exact inBounds_clamp (not_isNaN_mul h.isFinite hfactor.isFinite)

/-! ## Gesture objects -/

/-- What is sent on a gesture object is in groups, and one is open while it is in progress. -/
def GestureOk (g : Gesture κ σ υ) : Prop := ∃ o, Grouped g.sent o ∧ o.isSome = g.inProgressOn.isSome

omit [DecidableEq κ] [DecidableEq σ] in
theorem GestureOk.new (client : κ) (clientScale : Float) : GestureOk (.new client clientScale : Gesture κ σ υ) :=
  ⟨none, Grouped.nil, rfl⟩

omit [DecidableEq κ] [DecidableEq σ] in
theorem endMarks_follows (g : Gesture κ σ υ) (e : EndEvent) : Follows g.inProgressOn.isSome (g.endMarks e) false := by
  unfold Gesture.endMarks
  cases g.inProgressOn with
  | none => exact Follows.nil false
  | some surface => exact Follows.finish e

variable {t : PointerGestureTracker} {time : UInt32} {phase : TouchPhase} {g : Gesture κ σ υ}

omit [DecidableEq κ] [DecidableEq σ] in
/-- What is sent next is in order, and the state says what is open after it. -/
theorem GestureOk.send (h : GestureOk g) {marks : List (Mark (BeginEvent × σ) υ EndEvent)}
    (inProgressOn : Option σ) (hf : Follows g.inProgressOn.isSome marks inProgressOn.isSome) :
    GestureOk { g.send marks with inProgressOn } := by
  obtain ⟨o, ho, hopen⟩ := h
  exact ho.follows (hopen ▸ hf)

omit [DecidableEq κ] [DecidableEq σ] in
theorem GestureOk.leave (h : GestureOk g) (time : UInt32) : GestureOk (g.leave time) :=
  h.send none (endMarks_follows g _)

omit [DecidableEq κ] in
theorem GestureOk.receive (h : GestureOk g) (surface : σ) (time : υ → UInt32)
    (toClient : Float → υ → υ) (mark : Mark BeginEvent υ EndEvent) :
      GestureOk (g.receive surface time toClient mark) := by
  cases mark with
  | begin e => exact h.send (some surface) ((endMarks_follows g _).trans (Follows.begin _))
  | finish e => exact h.send none (endMarks_follows g _)
  | update u =>
    show GestureOk (g.update ..)
    unfold Gesture.update
    split
    · next hsurface =>
      refine h.send g.inProgressOn ?_
      rw [hsurface]
      exact Follows.update _
    · exact h.leave _

/-- All gesture objects are in order. -/
def Delivered (s : AppState κ σ) : Prop :=
  (∀ g ∈ s.knownPinchGestures, GestureOk g) ∧ ∀ g ∈ s.knownSwipeGestures, GestureOk g

omit [DecidableEq σ] in
theorem forEachFocused_ok {f : Gesture κ σ υ → Gesture κ σ υ} {gestures : List (Gesture κ σ υ)} (surface : σ)
    (h : ∀ g ∈ gestures, GestureOk g) (hf : ∀ g, GestureOk g → GestureOk (f g)) :
    ∀ g ∈ forEachFocused owner surface f gestures, GestureOk g := by
  intro g hg
  obtain ⟨g₀, hg₀, rfl⟩ := List.mem_map.1 hg
  split
  · exact hf g₀ (h g₀ hg₀)
  · exact h g₀ hg₀

theorem Delivered.call (h : Delivered s) (call : Call) : Delivered (s.call owner call) := by
  unfold AppState.call
  dsimp only
  split
  · exact h
  · exact ⟨forEachFocused_ok _ h.1 fun g hg => hg.receive .., h.2⟩
  · exact ⟨h.1, forEachFocused_ok _ h.2 fun g hg => hg.receive ..⟩

theorem Delivered.motion (h : Delivered s) (focus : Option σ) (time : UInt32) :
    Delivered (s.motion owner focus time) := by
  unfold AppState.motion
  split
  · exact h
  · split
    · exact h
    · exact ⟨forEachFocused_ok _ h.1 fun g hg => hg.leave _, forEachFocused_ok _ h.2 fun g hg => hg.leave _⟩

/-! ## Parts of a handler -/

section Stages

variable {t t' t'' : PointerGestureTracker} {marks marks' : List (Mark BeginEvent GesturePinchUpdateEvent EndEvent)}

/-- What a part of a handler for `event` does to the pinch: `marks` are sent in order, the scale is the accumulated
one, and updates carry it. -/
structure PinchStage (event : Event κ σ) (t t' : PointerGestureTracker)
    (marks : List (Mark BeginEvent GesturePinchUpdateEvent EndEvent)) : Prop where
  follows : Follows t.protocolActive marks t'.protocolActive
  bounds : InBounds t.scale → InBounds t'.scale
  scale : ∀ acc, (t.protocolActive = true → t.scale = acc) → t'.protocolActive = true →
    t'.scale = (marks.map (event, ·)).foldl accumulate acc
  updates : InBounds t.scale → ∀ acc, (t.protocolActive = true → t.scale = acc) → ∀ l u r, marks = l ++ .update u :: r →
    InBounds u.scale ∧ u.scale = ((l ++ [.update u]).map (event, ·)).foldl accumulate acc

omit [DecidableEq κ] [DecidableEq σ] in
theorem PinchStage.quiet (hactive : t'.protocolActive = t.protocolActive) (hscale : t'.scale = t.scale) :
    PinchStage event t t' [] := by
  refine ⟨hactive ▸ Follows.nil _, fun h => hscale ▸ h, fun acc hacc hactive' => ?_, fun _ acc _ l u r he => ?_⟩
  · exact hscale.trans (hacc (hactive ▸ hactive'))
  · simp at he

omit [DecidableEq κ] [DecidableEq σ] in
theorem PinchStage.begin (b : BeginEvent) (hinactive : t.protocolActive = false) (hactive : t'.protocolActive = true)
    (hscale : t'.scale = 1.0) : PinchStage event t t' [.begin b] := by
  refine ⟨?_, fun _ => hscale ▸ inBounds_one, fun _ _ _ => hscale, fun _ _ _ l u r he => ?_⟩
  · rw [hinactive, hactive]
    exact Follows.begin b
  · cases l <;> simp at he

omit [DecidableEq κ] [DecidableEq σ] in
theorem PinchStage.update {u : GesturePinchUpdateEvent} (hactive : t.protocolActive = true)
    (hactive' : t'.protocolActive = true) (hscale : t'.scale = accumulate t.scale (event, .update u))
    (hu : u.scale = t'.scale) (hbounds : InBounds t.scale → InBounds t'.scale) : PinchStage event t t' [.update u] := by
  refine ⟨?_, hbounds, fun acc hacc _ => ?_, fun hb acc hacc l u' r he => ?_⟩
  · rw [hactive, hactive']
    exact Follows.update u
  · rw [hscale, hacc hactive]
    rfl
  · cases l with
    | nil =>
      obtain ⟨rfl, -⟩ := (by simpa using he : u = u' ∧ _)
      refine ⟨hu ▸ hbounds hb, ?_⟩
      rw [hu, hscale, hacc hactive]
      rfl
    | cons x l => simp at he

omit [DecidableEq κ] [DecidableEq σ] in
theorem PinchStage.finish (e : EndEvent) (hactive : t.protocolActive = true) (hinactive : t'.protocolActive = false)
    (hscale : t'.scale = 1.0) : PinchStage event t t' [.finish e] := by
  refine ⟨?_, fun _ => hscale ▸ inBounds_one, fun _ _ h => ?_, fun _ _ _ l u r he => ?_⟩
  · rw [hactive, hinactive]
    exact Follows.finish e
  · rw [hinactive] at h
    cases h
  · cases l <;> simp at he

omit [DecidableEq κ] [DecidableEq σ] in
theorem PinchStage.trans (h : PinchStage event t t' marks) (h' : PinchStage event t' t'' marks') :
    PinchStage event t t'' (marks ++ marks') := by
  refine ⟨h.follows.trans h'.follows, fun hb => h'.bounds (h.bounds hb), fun acc hacc hactive => ?_,
    fun hb acc hacc l u r he => ?_⟩
  · rw [List.map_append, List.foldl_append]
    exact h'.scale _ (h.scale acc hacc) hactive
  · rcases List.append_eq_append_iff.1 he with ⟨m, rfl, hm⟩ | ⟨m, rfl, hm⟩
    · -- The update is among the later marks.
      obtain ⟨hbounds, hscale⟩ := h'.updates (h.bounds hb) _ (h.scale acc hacc) m u r hm
      refine ⟨hbounds, ?_⟩
      simp only [hscale, List.map_append, List.foldl_append]
    · cases m with
      | nil =>
        obtain ⟨hbounds, hscale⟩ := h'.updates (h.bounds hb) _ (h.scale acc hacc) [] u r hm.symm
        refine ⟨hbounds, ?_⟩
        rw [hscale, List.append_nil, List.nil_append, List.map_append, List.foldl_append]
      | cons x m =>
        obtain ⟨rfl, -⟩ := List.cons.inj hm
        exact h.updates hb acc hacc l u m rfl

/-- What a part of a handler does. -/
structure Stage (event : Event κ σ) (s s' : AppState κ σ) : Prop where
  calls : ∃ calls, s'.calls = s.calls ++ calls ∧
    PinchStage event s.pointerGesture s'.pointerGesture (calls.filterMap Call.pinch?) ∧
    Follows s.pointerGesture.swipeActive (calls.filterMap Call.swipe?) s'.pointerGesture.swipeActive
  delivered : Delivered s → Delivered s'

omit [DecidableEq κ] [DecidableEq σ] in
theorem Stage.trans (h : Stage event s s') (h' : Stage event s' s'') : Stage event s s'' := by
  obtain ⟨calls, hcalls, hpinch, hswipe⟩ := h.calls
  obtain ⟨calls', hcalls', hpinch', hswipe'⟩ := h'.calls
  refine ⟨⟨calls ++ calls', by rw [hcalls', hcalls, List.append_assoc], ?_, ?_⟩,
    fun hd => h'.delivered (h.delivered hd)⟩
  · rw [List.filterMap_append]
    exact hpinch.trans hpinch'
  · rw [List.filterMap_append]
    exact hswipe.trans hswipe'

omit [DecidableEq κ] [DecidableEq σ] in
theorem Stage.quiet (hcalls : s'.calls = s.calls)
    (hactive : s'.pointerGesture.protocolActive = s.pointerGesture.protocolActive)
    (hscale : s'.pointerGesture.scale = s.pointerGesture.scale)
    (hswipe : s'.pointerGesture.swipeActive = s.pointerGesture.swipeActive) (hdelivered : Delivered s → Delivered s') :
    Stage event s s' :=
  ⟨⟨[], by rw [hcalls, List.append_nil], PinchStage.quiet hactive hscale, hswipe ▸ Follows.nil _⟩, hdelivered⟩

omit [DecidableEq κ] [DecidableEq σ] in
theorem Stage.refl (s : AppState κ σ) : Stage event s s := Stage.quiet rfl rfl rfl rfl id

@[simp] theorem call_calls (s : AppState κ σ) (call : Call) : (s.call owner call).calls = s.calls ++ [call] := by
  unfold AppState.call
  dsimp only
  split <;> rfl

@[simp] theorem call_pointerGesture (s : AppState κ σ) (call : Call) :
    (s.call owner call).pointerGesture = s.pointerGesture := by
  unfold AppState.call
  dsimp only
  split <;> rfl

omit [DecidableEq κ] [DecidableEq σ] in
theorem Stage.pinch {mark : Mark BeginEvent GesturePinchUpdateEvent EndEvent}
    (hcalls : s'.calls = s.calls ++ [.pinch mark])
    (hpinch : PinchStage event s.pointerGesture s'.pointerGesture [mark])
    (hswipe : s'.pointerGesture.swipeActive = s.pointerGesture.swipeActive) (hdelivered : Delivered s → Delivered s') :
    Stage event s s' :=
  ⟨⟨[.pinch mark], hcalls, hpinch, hswipe ▸ Follows.nil _⟩, hdelivered⟩

theorem beginPinch_stage (s : AppState κ σ) (time : UInt32) : Stage event s (s.beginPinch owner time) := by
  unfold AppState.beginPinch
  split
  · exact Stage.refl s
  · next hinactive =>
    rw [Bool.not_eq_true] at hinactive
    generalize ht : ({ s.pointerGesture with protocolActive := true, scale := 1.0, rotation := 0.0 } :
      PointerGestureTracker) = t
    refine Stage.pinch (call_calls ..) ?_ ?_ (Delivered.call (s := { s with pointerGesture := t }) · _)
    · rw [call_pointerGesture, ← ht]
      exact PinchStage.begin _ hinactive rfl rfl
    · rw [call_pointerGesture, ← ht]

/-- An update carries the scale that the event leads to. -/
theorem updatePinch_stage {t : PointerGestureTracker} (time : UInt32) (hactive : s.pointerGesture.protocolActive = true)
    (ht : t.protocolActive = s.pointerGesture.protocolActive) (hswipe : t.swipeActive = s.pointerGesture.swipeActive)
    (hscale : ∀ u, t.scale = accumulate s.pointerGesture.scale (event, .update u))
    (hbounds : InBounds s.pointerGesture.scale → InBounds t.scale) :
    Stage event s ({ s with pointerGesture := t }.updatePinch owner time) := by
  unfold AppState.updatePinch
  refine Stage.pinch (call_calls ..) ?_ ?_ (Delivered.call (s := { s with pointerGesture := t }) · _)
  · rw [call_pointerGesture]
    exact PinchStage.update hactive (ht.trans hactive) (hscale _) rfl hbounds
  · rw [call_pointerGesture]
    exact hswipe

theorem finish_stage (s : AppState κ σ) (time : UInt32) (cancelled : Bool) :
    Stage event s (finishPointerGestureIfIdle owner s time cancelled) := by
  unfold finishPointerGestureIfIdle
  split
  · next hidle =>
    simp only [Bool.and_eq_true] at hidle
    refine Stage.pinch (call_calls ..) ?_ ?_ (Delivered.call · _)
    · exact PinchStage.finish _ hidle.1.1 rfl rfl
    · dsimp only
      rw [call_pointerGesture]
  · exact Stage.refl s

end Stages

/-! ## The handlers -/

/-- A pinch is open exactly while a magnification or a rotation is active, and its scale is within its bounds. -/
structure TrackerOk (t : PointerGestureTracker) : Prop where
  active : t.protocolActive = (t.magnifyActive || t.rotationActive)
  bounds : InBounds t.scale

theorem TrackerOk.default : TrackerOk .default := ⟨rfl, inBounds_one⟩

theorem beginPinch_pointerGesture (owner : σ → κ) (s : AppState κ σ) (time : UInt32) :
    (s.beginPinch owner time).pointerGesture.protocolActive = true ∧
      (s.beginPinch owner time).pointerGesture.magnifyActive = s.pointerGesture.magnifyActive ∧
      (s.beginPinch owner time).pointerGesture.rotationActive = s.pointerGesture.rotationActive := by
  unfold AppState.beginPinch
  split
  · next hactive => exact ⟨hactive, rfl, rfl⟩
  · rw [call_pointerGesture]
    exact ⟨rfl, rfl, rfl⟩

theorem finish_ok (hb : InBounds s.pointerGesture.scale) (time : UInt32) (cancelled : Bool)
    (hactive : (s.pointerGesture.magnifyActive || s.pointerGesture.rotationActive) = true →
      s.pointerGesture.protocolActive = true) :
    TrackerOk (finishPointerGestureIfIdle owner s time cancelled).pointerGesture := by
  unfold finishPointerGestureIfIdle
  split
  · next hidle =>
    simp only [Bool.and_eq_true, Bool.not_eq_true'] at hidle
    dsimp only
    rw [call_pointerGesture]
    exact ⟨by simp [hidle.1.2, hidle.2], inBounds_one⟩
  · next hidle =>
    refine ⟨?_, hb⟩
    revert hidle hactive
    cases s.pointerGesture.protocolActive <;> cases s.pointerGesture.magnifyActive <;>
      cases s.pointerGesture.rotationActive <;> simp

omit [DecidableEq κ] [DecidableEq σ] in
theorem Stage.flags (hactive : t.protocolActive = s.pointerGesture.protocolActive)
    (hscale : t.scale = s.pointerGesture.scale) (hswipe : t.swipeActive = s.pointerGesture.swipeActive) :
    Stage event s { s with pointerGesture := t } := Stage.quiet rfl hactive hscale hswipe id

theorem cancel_stage (s : AppState κ σ) (time : UInt32) : Stage event s (cancelPointerGesture owner s time) := by
  unfold cancelPointerGesture
  refine Stage.trans ?_ (finish_stage _ time true)
  exact Stage.flags rfl rfl rfl

theorem cancel_ok (hb : InBounds s.pointerGesture.scale) (time : UInt32) :
    TrackerOk (cancelPointerGesture owner s time).pointerGesture := by
  unfold cancelPointerGesture
  refine finish_ok ?_ time true ?_
  · exact hb
  · exact fun h => absurd h Bool.false_ne_true

/-- What an event leaves behind. -/
structure Handled (event : Event κ σ) (s s' : AppState κ σ) : Prop where
  stage : Stage event s s'
  ok : TrackerOk s.pointerGesture → TrackerOk s'.pointerGesture

omit [DecidableEq κ] [DecidableEq σ] in
theorem Handled.refl (s : AppState κ σ) : Handled event s s := ⟨Stage.refl s, id⟩

omit [DecidableEq κ] [DecidableEq σ] in
theorem Stage.bounds (h : Stage event s s') (hb : InBounds s.pointerGesture.scale) :
    InBounds s'.pointerGesture.scale := by
  obtain ⟨calls, -, hpinch, -⟩ := h.calls
  exact hpinch.bounds hb

/-- The start of a magnification, or of a rotation. -/
theorem start_handled (time : UInt32)
    (hactive : t.protocolActive = s.pointerGesture.protocolActive) (hscale : t.scale = s.pointerGesture.scale)
    (hswipe : t.swipeActive = s.pointerGesture.swipeActive) (hstart : (t.magnifyActive || t.rotationActive) = true) :
    Handled event s ({ s with pointerGesture := t }.beginPinch owner time) := by
  have hstage : Stage event s ({ s with pointerGesture := t }.beginPinch owner time) :=
    Stage.trans (Stage.flags hactive hscale hswipe) (beginPinch_stage _ time)
  refine ⟨hstage, fun hok => ⟨?_, hstage.bounds hok.bounds⟩⟩
  obtain ⟨hprotocol, hmagnify, hrotation⟩ := beginPinch_pointerGesture owner { s with pointerGesture := t } time
  rw [hprotocol, hmagnify, hrotation]
  exact hstart.symm

theorem finish_handled (time : UInt32) (cancelled : Bool)
    (hactive : t.protocolActive = s.pointerGesture.protocolActive) (hscale : t.scale = s.pointerGesture.scale)
    (hswipe : t.swipeActive = s.pointerGesture.swipeActive)
    (hfewer : (t.magnifyActive || t.rotationActive) = true →
      (s.pointerGesture.magnifyActive || s.pointerGesture.rotationActive) = true) :
    Handled event s (finishPointerGestureIfIdle owner { s with pointerGesture := t } time cancelled) := by
  refine ⟨Stage.trans (Stage.flags hactive hscale hswipe) (finish_stage _ time cancelled), fun hok => ?_⟩
  refine finish_ok ?_ time cancelled fun hany => ?_
  · exact hscale ▸ hok.bounds
  · exact (hactive.trans hok.active).trans (hfewer hany)

/-- An update is sent while a magnification or a rotation is active. -/
theorem update_handled {s₁ : AppState κ σ} (h : Handled event s s₁)
    (hactive : TrackerOk s.pointerGesture → s₁.pointerGesture.protocolActive = true) (time : UInt32)
    (ht : t.protocolActive = s₁.pointerGesture.protocolActive) (hm : t.magnifyActive = s₁.pointerGesture.magnifyActive)
    (hr : t.rotationActive = s₁.pointerGesture.rotationActive) (hswipe : t.swipeActive = s₁.pointerGesture.swipeActive)
    (hscale : ∀ u, t.scale = accumulate s₁.pointerGesture.scale (event, .update u))
    (hbounds : InBounds s₁.pointerGesture.scale → InBounds t.scale) (hok : TrackerOk s.pointerGesture) :
    Handled event s ({ s₁ with pointerGesture := t }.updatePinch owner time) := by
  have hupdate : Stage event s₁ ({ s₁ with pointerGesture := t }.updatePinch owner time) :=
    updatePinch_stage time (hactive hok) ht hswipe hscale hbounds
  refine ⟨h.stage.trans hupdate, fun hok => ?_⟩
  have hok₁ := h.ok hok
  unfold AppState.updatePinch
  rw [call_pointerGesture]
  refine ⟨?_, hbounds hok₁.bounds⟩
  rw [ht, hm, hr]
  exact hok₁.active

theorem pinch_handled {limit : Nat} {delta : Float} (hok : TrackerOk s.pointerGesture)
    (h : handlePinchGesture owner limit s delta phase time = some s') : Handled (.pinch delta phase time) s s' := by
  cases limit with
  | zero => cases h
  | succ limit =>
    unfold handlePinchGesture at h
    split at h
    · exact Option.some.inj h ▸ Handled.refl s
    · next hpointer =>
      cases phase with
      | started => exact Option.some.inj h ▸ start_handled time rfl rfl rfl rfl
      | ended => exact Option.some.inj h ▸ finish_handled time false rfl rfl rfl (by simp +contextual)
      | cancelled => exact Option.some.inj h ▸ ⟨cancel_stage s time, fun hok => cancel_ok hok.bounds time⟩
      | moved =>
        obtain ⟨s₁, hs₁, rfl⟩ := Option.map_eq_some_iff.1 h
        have hstart : Handled (.pinch delta .moved time) s s₁ ∧ s₁.pointerGesture.protocolActive = true := by
          split at hs₁
          · next hmagnify =>
            obtain rfl := Option.some.inj hs₁
            exact ⟨Handled.refl _, by rw [hok.active, hmagnify]; rfl⟩
          · cases limit with
            | zero => cases hs₁
            | succ limit =>
              unfold handlePinchGesture at hs₁
              rw [if_neg hpointer] at hs₁
              obtain rfl := Option.some.inj hs₁
              exact ⟨start_handled time rfl rfl rfl rfl, (beginPinch_pointerGesture ..).1⟩
        split
        · next hfinite =>
          exact update_handled hstart.1 (fun _ => hstart.2) time rfl rfl rfl rfl (fun _ => rfl) (·.zoom hfinite) hok
        · exact hstart.1

theorem rotation_handled {limit : Nat} {delta : Float32}
    (hok : TrackerOk s.pointerGesture) (h : handleRotationGesture owner limit s delta phase time = some s') :
    Handled (.rotation delta phase time) s s' := by
  cases limit with
  | zero => cases h
  | succ limit =>
    unfold handleRotationGesture at h
    split at h
    · exact Option.some.inj h ▸ Handled.refl s
    · next hpointer =>
      cases phase with
      | started => exact Option.some.inj h ▸ start_handled time rfl rfl rfl (Bool.or_true _)
      | ended => exact Option.some.inj h ▸ finish_handled time false rfl rfl rfl (by simp +contextual)
      | cancelled => exact Option.some.inj h ▸ ⟨cancel_stage s time, fun hok => cancel_ok hok.bounds time⟩
      | moved =>
        obtain ⟨s₁, hs₁, rfl⟩ := Option.map_eq_some_iff.1 h
        have hstart : Handled (.rotation delta .moved time) s s₁ ∧ s₁.pointerGesture.protocolActive = true := by
          split at hs₁
          · next hrotation =>
            obtain rfl := Option.some.inj hs₁
            exact ⟨Handled.refl _, by rw [hok.active, hrotation, Bool.or_true]⟩
          · cases limit with
            | zero => cases hs₁
            | succ limit =>
              unfold handleRotationGesture at hs₁
              rw [if_neg hpointer] at hs₁
              obtain rfl := Option.some.inj hs₁
              exact ⟨start_handled time rfl rfl rfl (Bool.or_true _), (beginPinch_pointerGesture ..).1⟩
        split
        · exact update_handled hstart.1 (fun _ => hstart.2) time rfl rfl rfl rfl (fun _ => rfl) id hok
        · exact hstart.1

omit [DecidableEq κ] [DecidableEq σ] in
theorem swipe_stage {mark : Mark BeginEvent GestureSwipeUpdateEvent EndEvent}
    (hcalls : s'.calls = s.calls ++ [.swipe mark]) (ht : s'.pointerGesture = t)
    (hactive : t.protocolActive = s.pointerGesture.protocolActive) (hscale : t.scale = s.pointerGesture.scale)
    (hfollows : Follows s.pointerGesture.swipeActive [mark] t.swipeActive) (hdelivered : Delivered s → Delivered s') :
    Stage event s s' := by
  subst ht
  exact ⟨⟨[.swipe mark], hcalls, PinchStage.quiet hactive hscale, hfollows⟩, hdelivered⟩

omit [DecidableEq κ] [DecidableEq σ] in
theorem Handled.swipe (h : Stage event s s') (active : Bool)
    (ht : s'.pointerGesture = { s.pointerGesture with swipeActive := active }) : Handled event s s' := by
  refine ⟨h, fun hok => ?_⟩
  rw [ht]
  exact ⟨hok.active, hok.bounds⟩

theorem swipe_started {limit : Nat} {delta : Float × Float} (hpointer : ¬(!s.pointer) = true)
    (h : handleSwipeGesture owner (limit + 1) s delta .started time = some s') :
    Handled event s s' ∧ s'.pointerGesture.swipeActive = true := by
  unfold handleSwipeGesture at h
  rw [if_neg hpointer] at h
  dsimp only at h
  obtain rfl := Option.some.inj h
  generalize hs₁ : (if s.pointerGesture.swipeActive = true then s.call owner (.swipe (.finish ⟨time, true⟩)) else s) = s₁
  have hfirst : ∃ a, Stage event s { s₁ with pointerGesture := { s₁.pointerGesture with swipeActive := a } } ∧
      s₁.pointerGesture = s.pointerGesture ∧ a = false := by
    refine ⟨false, ?_, ?_, rfl⟩
    · split at hs₁
      · next hactive =>
        subst hs₁
        refine swipe_stage (call_calls ..) rfl ?_ ?_ ?_ (Delivered.call · _)
        · rw [call_pointerGesture]
        · rw [call_pointerGesture]
        · exact hactive ▸ Follows.finish _
      · next hinactive =>
        subst hs₁
        exact Stage.flags rfl rfl (by simpa using hinactive)
    · split at hs₁
      · exact hs₁ ▸ call_pointerGesture ..
      · rw [hs₁]
  obtain ⟨a, hfirst, ht, rfl⟩ := hfirst
  generalize hactive : ({ s₁.pointerGesture with swipeActive := true } : PointerGestureTracker) = t
  have hbegin : Stage event { s₁ with pointerGesture := { s₁.pointerGesture with swipeActive := false } }
      ({ s₁ with pointerGesture := t }.call owner (.swipe (.begin ⟨time, 3⟩))) := by
    subst hactive
    exact swipe_stage (call_calls ..) (call_pointerGesture ..) rfl rfl (Follows.begin _)
      (Delivered.call (s := { s₁ with pointerGesture := { s₁.pointerGesture with swipeActive := true } }) · _)
  subst hactive
  refine ⟨Handled.swipe (hfirst.trans hbegin) true ?_, ?_⟩
  · rw [call_pointerGesture, ht]
  · rw [call_pointerGesture]

theorem swipe_handled {limit : Nat} {delta : Float × Float}
    (h : handleSwipeGesture owner limit s delta phase time = some s') : Handled event s s' := by
  cases limit with
  | zero => cases h
  | succ limit =>
    by_cases hpointer : (!s.pointer) = true
    · unfold handleSwipeGesture at h
      rw [if_pos hpointer] at h
      exact Option.some.inj h ▸ Handled.refl s
    · have hend : ∀ e : EndEvent, s.pointerGesture.swipeActive = true → Handled event s
          { s.call owner (.swipe (.finish e)) with
            pointerGesture := { (s.call owner (.swipe (.finish e))).pointerGesture with swipeActive := false } } := by
        intro e hactive
        refine Handled.swipe (swipe_stage (call_calls ..) rfl ?_ ?_ ?_ (Delivered.call · _)) false ?_
        · rw [call_pointerGesture]
        · rw [call_pointerGesture]
        · exact hactive ▸ Follows.finish e
        · rw [call_pointerGesture]
      cases phase with
      | started => exact (swipe_started hpointer h).1
      | moved =>
        unfold handleSwipeGesture at h
        rw [if_neg hpointer] at h
        obtain ⟨s₁, hs₁, rfl⟩ := Option.map_eq_some_iff.1 h
        have hstart : Handled event s s₁ ∧ s₁.pointerGesture.swipeActive = true := by
          split at hs₁
          · next hactive =>
            obtain rfl := Option.some.inj hs₁
            exact ⟨Handled.refl _, hactive⟩
          · cases limit with
            | zero => cases hs₁
            | succ limit => exact swipe_started hpointer hs₁
        split
        · have hfollows : Follows s₁.pointerGesture.swipeActive
              [(.update ⟨time, delta⟩ : Mark BeginEvent GestureSwipeUpdateEvent EndEvent)]
              s₁.pointerGesture.swipeActive := hstart.2 ▸ Follows.update _
          refine ⟨hstart.1.stage.trans (swipe_stage (call_calls ..) (call_pointerGesture ..) rfl rfl hfollows
            (Delivered.call · _)), fun hok => ?_⟩
          rw [call_pointerGesture]
          exact hstart.1.ok hok
        · exact hstart.1
      | ended =>
        unfold handleSwipeGesture at h
        rw [if_neg hpointer] at h
        dsimp only at h
        split at h
        · next hactive => exact Option.some.inj h ▸ hend _ hactive
        · exact Option.some.inj h ▸ Handled.refl s
      | cancelled =>
        unfold handleSwipeGesture at h
        rw [if_neg hpointer] at h
        dsimp only at h
        split at h
        · next hactive => exact Option.some.inj h ▸ hend _ hactive
        · exact Option.some.inj h ▸ Handled.refl s

/-! ## Every event -/

@[simp] theorem motion_calls (s : AppState κ σ) (focus : Option σ) (time : UInt32) :
    (s.motion owner focus time).calls = s.calls := by
  unfold AppState.motion
  split
  · rfl
  · split <;> rfl

@[simp] theorem motion_pointerGesture (s : AppState κ σ) (focus : Option σ) (time : UInt32) :
    (s.motion owner focus time).pointerGesture = s.pointerGesture := by
  unfold AppState.motion
  split
  · rfl
  · split <;> rfl

theorem motion_stage (s : AppState κ σ) (focus : Option σ) (time : UInt32) :
    Stage event s (s.motion owner focus time) :=
  Stage.quiet (by simp) (by simp) (by simp) (by simp) (Delivered.motion · focus time)

theorem handle_handled {limit : Nat} (hok : TrackerOk s.pointerGesture) (h : handle owner limit s event = some s') :
    Handled event s s' := by
  cases event with
  | pinch delta phase time => exact pinch_handled hok h
  | rotation delta phase time => exact rotation_handled hok h
  | swipe delta phase time => exact swipe_handled h
  | removeSurfaces retired time =>
    simp only [handle] at h
    split at h
    · obtain rfl := Option.some.inj h
      refine ⟨(cancel_stage s time).trans (motion_stage _ none time), fun hok => ?_⟩
      rw [motion_pointerGesture]
      exact cancel_ok hok.bounds time
    · exact Option.some.inj h ▸ Handled.refl s
  | motion focus time =>
    obtain rfl := Option.some.inj h
    refine ⟨motion_stage s focus time, fun hok => ?_⟩
    rwa [motion_pointerGesture]
  | setPointer pointer => exact Option.some.inj h ▸ ⟨Stage.quiet rfl rfl rfl rfl id, id⟩
  | getPinchGesture client clientScale =>
    refine Option.some.inj h ▸ ⟨Stage.quiet rfl rfl rfl rfl fun hd => ⟨fun g hg => ?_, hd.2⟩, id⟩
    rcases List.mem_append.1 hg with hg | hg
    · exact hd.1 g hg
    · exact List.mem_singleton.1 hg ▸ GestureOk.new ..
  | getSwipeGesture client clientScale =>
    refine Option.some.inj h ▸ ⟨Stage.quiet rfl rfl rfl rfl fun hd => ⟨hd.1, fun g hg => ?_⟩, id⟩
    rcases List.mem_append.1 hg with hg | hg
    · exact hd.2 g hg
    · exact List.mem_singleton.1 hg ▸ GestureOk.new ..
  | destroyPinchGesture index =>
    exact Option.some.inj h ▸ ⟨Stage.quiet rfl rfl rfl rfl fun hd => ⟨fun g hg => hd.1 g (List.mem_of_mem_eraseIdx hg),
      hd.2⟩, id⟩
  | destroySwipeGesture index =>
    exact Option.some.inj h ▸ ⟨Stage.quiet rfl rfl rfl rfl fun hd => ⟨hd.1,
      fun g hg => hd.2 g (List.mem_of_mem_eraseIdx hg)⟩, id⟩

/-- A handler calls itself at most once, and has a result. -/
theorem handle_limit (owner : σ → κ) {limit : Nat} (hlimit : 2 ≤ limit) (s : AppState κ σ) (event : Event κ σ) :
    handle owner limit s event = handle owner 2 s event ∧ (handle owner limit s event).isSome = true := by
  obtain ⟨n, rfl⟩ := Nat.exists_eq_add_of_le' hlimit
  have hsome : ∀ (c : Prop) [Decidable c] (x y : AppState κ σ), (if c then some x else some y).isSome = true := by
    intro c _ x y
    split <;> rfl
  cases event with
  | pinch delta phase time =>
    by_cases hpointer : s.pointer = true
    · cases phase <;> simp [handle, handlePinchGesture, hpointer, hsome]
    · simp [handle, handlePinchGesture, hpointer]
  | rotation delta phase time =>
    by_cases hpointer : s.pointer = true
    · cases phase <;> simp [handle, handleRotationGesture, hpointer, hsome]
    · simp [handle, handleRotationGesture, hpointer]
  | swipe delta phase time =>
    by_cases hpointer : s.pointer = true
    · cases phase <;> simp [handle, handleSwipeGesture, hpointer, hsome]
    · simp [handle, handleSwipeGesture, hpointer]
  | removeSurfaces retired time => simp [handle, hsome]
  | _ => exact ⟨rfl, rfl⟩

/-! ## Runs -/

variable {w w' : World κ σ} {limit : Nat}

structure Inv (w : World κ σ) : Prop where
  tracker : TrackerOk w.app.pointerGesture
  pinch : ∃ o, Grouped ((pinchSent w.history).map Prod.snd) o ∧ o.isSome = w.app.pointerGesture.protocolActive
  scale : w.app.pointerGesture.protocolActive = true → w.app.pointerGesture.scale = accumulated (pinchSent w.history)
  updates : ∀ before event u after, pinchSent w.history = before ++ (event, .update u) :: after →
    InBounds u.scale ∧ u.scale = accumulated (before ++ [(event, .update u)])
  swipe : ∃ o, Grouped ((swipeSent w.history).map Prod.snd) o ∧ o.isSome = w.app.pointerGesture.swipeActive
  delivered : Delivered w.app

omit [DecidableEq κ] [DecidableEq σ] in
theorem Inv.init : Inv (⟨.new, []⟩ : World κ σ) := by
  refine ⟨TrackerOk.default, ⟨none, Grouped.nil, rfl⟩, nofun, fun before event u after he => ?_,
    ⟨none, Grouped.nil, rfl⟩,
    nofun, nofun⟩
  cases before <;> cases he

omit [DecidableEq κ] [DecidableEq σ] in
theorem pinchSent_append (history : List (Event κ σ × List Call)) (event : Event κ σ) (calls : List Call) :
    pinchSent (history ++ [(event, calls)]) = pinchSent history ++ (calls.filterMap Call.pinch?).map (event, ·) := by
  simp [pinchSent]

omit [DecidableEq κ] [DecidableEq σ] in
theorem swipeSent_append (history : List (Event κ σ × List Call)) (event : Event κ σ) (calls : List Call) :
    swipeSent (history ++ [(event, calls)]) = swipeSent history ++ (calls.filterMap Call.swipe?).map (event, ·) := by
  simp [swipeSent]

omit [DecidableEq κ] [DecidableEq σ] in
theorem map_snd_map {α : Type} (event : Event κ σ) (l : List α) : (l.map (event, ·)).map Prod.snd = l := by
  rw [List.map_map]
  exact List.map_id l

theorem Inv.step (h : Inv w) (hs : step owner limit w event = some w') : Inv w' := by
  obtain ⟨app, happ, rfl⟩ := Option.map_eq_some_iff.1 hs
  have hhandled := handle_handled (s := { w.app with calls := [] }) h.tracker happ
  obtain ⟨calls, hcalls, hpinch, hswipe⟩ := hhandled.stage.calls
  obtain ⟨o, ho, hopen⟩ := h.pinch
  obtain ⟨os, hos, hsopen⟩ := h.swipe
  rw [List.nil_append] at hcalls
  subst hcalls
  refine ⟨hhandled.ok h.tracker, ?_, fun hactive => ?_, fun before e u after he => ?_, ?_,
    hhandled.stage.delivered h.delivered⟩
  · dsimp only
    rw [pinchSent_append, List.map_append, map_snd_map]
    exact ho.follows (hopen ▸ hpinch.follows)
  · dsimp only
    rw [pinchSent_append, accumulated, List.foldl_append]
    exact hpinch.scale _ h.scale hactive
  · dsimp only at he
    rw [pinchSent_append] at he
    rcases List.append_eq_append_iff.1 he with ⟨m, rfl, hm⟩ | ⟨m, hbefore, hm⟩
    · -- It is sent for this event.
      obtain ⟨l, r, hmarks, rfl, hr⟩ := List.map_eq_append_iff.1 hm
      obtain ⟨mark, r, rfl, hmark, rfl⟩ := List.map_eq_cons_iff.1 hr
      obtain ⟨rfl, rfl⟩ := Prod.mk.inj hmark
      obtain ⟨hbounds, hscale⟩ := hpinch.updates h.tracker.bounds _ h.scale l u r hmarks
      refine ⟨hbounds, hscale.trans ?_⟩
      simp only [accumulated, List.map_append, List.foldl_append, List.map_cons, List.map_nil]
    · cases m with
      | nil =>
        rw [List.nil_append] at hm
        rw [List.append_nil] at hbefore
        subst hbefore
        obtain ⟨mark, r, hmarks, hmark, rfl⟩ := List.map_eq_cons_iff.1 hm.symm
        obtain ⟨rfl, rfl⟩ := Prod.mk.inj hmark
        obtain ⟨hbounds, hscale⟩ := hpinch.updates h.tracker.bounds _ h.scale [] u r hmarks
        refine ⟨hbounds, hscale.trans ?_⟩
        simp only [accumulated, List.nil_append, List.foldl_append, List.map_cons, List.map_nil]
      | cons x m =>
        obtain ⟨rfl, -⟩ := List.cons.inj hm
        exact h.updates before e u m hbefore
  · dsimp only
    rw [swipeSent_append, List.map_append, map_snd_map]
    exact hos.follows (hsopen ▸ hswipe)

/-- **The gestures after any sequence of events.** -/
theorem gesture_protocol (hlimit : 2 ≤ limit) (h : (system owner limit : System (World κ σ) (Event κ σ)).Reachable w) :
    (∃ o, Grouped ((pinchSent w.history).map Prod.snd) o) ∧
    (∀ o, Grouped ((pinchSent w.history).map Prod.snd) o →
      (o.isSome = true ↔ w.app.pointerGesture.magnifyActive = true ∨ w.app.pointerGesture.rotationActive = true)) ∧
    (∀ before event u after, pinchSent w.history = before ++ (event, .update u) :: after →
      u.scale = accumulated (before ++ [(event, .update u)]) ∧ 0.01 ≤ u.scale ∧ u.scale ≤ 100.0) ∧
    (∃ o, Grouped ((swipeSent w.history).map Prod.snd) o) ∧
    (∀ event, (step owner limit w event).isSome = true ∧ step owner limit w event = step owner 2 w event) ∧
    (∀ g ∈ w.app.knownPinchGestures, ∃ o, Grouped g.sent o) ∧
      ∀ g ∈ w.app.knownSwipeGestures, ∃ o, Grouped g.sent o := by
  have hinv := System.Reachable.invariant (I := Inv) Inv.init (fun _ _ _ hi hs => Inv.step hi hs) h
  obtain ⟨o, ho, hopen⟩ := hinv.pinch
  obtain ⟨os, hos, -⟩ := hinv.swipe
  refine ⟨⟨o, ho⟩, fun o' ho' => ?_, fun before event u after he => (hinv.updates before event u after he).symm,
    ⟨os, hos⟩,
    fun event => ?_, fun g hg => (hinv.delivered.1 g hg).imp fun _ => And.left,
    fun g hg => (hinv.delivered.2 g hg).imp fun _ => And.left⟩
  · rw [ho'.unique ho, hopen, hinv.tracker.active, Bool.or_eq_true]
  · obtain ⟨hsame, hsome⟩ := handle_limit owner hlimit { w.app with calls := [] } event
    unfold Gestures.step
    rw [Option.isSome_map, hsame]
    exact ⟨hsame ▸ hsome, rfl⟩

/-- A rotation joins a magnification that had no start, and the surface is removed while both go on. -/
theorem gesture_protocol_removed : ∃ w : World Nat Nat, (system id 2).Reachable w ∧
    (∀ o, Grouped ((pinchSent w.history).map Prod.snd) o →
      (o.isSome = true ↔ w.app.pointerGesture.magnifyActive = true ∨ w.app.pointerGesture.rotationActive = true)) ∧
    (pinchSent w.history).map Prod.snd = [.begin ⟨1, 2⟩, .update ⟨1, (0.0, 0.0), 1.5, 0.0⟩,
      .update ⟨2, (0.0, 0.0), 1.5, -0.25⟩, .finish ⟨3, true⟩] := by
  have hrun : ((system id 2 : System (World Nat Nat) (Event Nat Nat)).run (system id 2).init
      [.motion (some 7) 0, .getPinchGesture 7 1.0, .pinch 0.5 .moved 1, .rotation 0.25 .moved 2,
        .removeSurfaces [7] 3]).any
      (fun w => (pinchSent w.history).map Prod.snd = [.begin ⟨1, 2⟩, .update ⟨1, (0.0, 0.0), 1.5, 0.0⟩,
        .update ⟨2, (0.0, 0.0), 1.5, -0.25⟩, .finish ⟨3, true⟩]) = true := by decide +kernel
  obtain ⟨w, h, hp⟩ := System.exists_reachable hrun
  exact ⟨w, h, (gesture_protocol (by decide) h).2.1, of_decide_eq_true hp⟩

end CocoaWay.Gestures
