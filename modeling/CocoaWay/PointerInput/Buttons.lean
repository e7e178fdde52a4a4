import CocoaWay.Lib.Requests
import CocoaWay.PointerInput.Basic

/-!
# Button events to the seat

* `heldIn log b` : the last event of the code `b` is a press;
* `WellPaired log` : presses and releases of each code alternate and no button stays held over a flush;
* `step_buttons` : what any event does to the held buttons and the log: nothing, one button event, or a flush;
* `matchesHeld` : the host's button event fits the held buttons;
* `buttons_wellPaired` : the log is well paired as long as every handled button event matches, and exactly that long.
-/

namespace CocoaWay.PointerInput
open Lib

variable {W S O : Type*} {log : List Entry} {b : Nat}

/-! ## Well-paired logs -/

def Entry.presses (b : Nat) (e : Entry) : Bool := e == .pressed b

def Entry.releases (b : Nat) (e : Entry) : Bool := e == .released b

/-- The last event of the code is a press. -/
def heldIn (log : List Entry) (b : Nat) : Bool := Outstanding (Entry.presses b) (Entry.releases b) log

/-- What an entry may find before it. -/
def Entry.Fits (log : List Entry) : Entry → Prop
  | .pressed b => heldIn log b = false
  | .released b => heldIn log b = true
  | .flushed => ∀ b, heldIn log b = false

/-- Presses and releases of each code alternate, starting with a press, and at every flush nothing is held. -/
def WellPaired (log : List Entry) : Prop := ∀ post e pre, log = post ++ e :: pre → e.Fits pre

theorem wellPaired_nil : WellPaired [] := fun post e pre h => by simp at h

theorem wellPaired_cons {e : Entry} : WellPaired (e :: log) ↔ e.Fits log ∧ WellPaired log := by
  constructor
  · intro h
    exact ⟨h [] e log rfl, fun post x pre hl => h (e :: post) x pre (by rw [hl]; rfl)⟩
  · rintro ⟨he, h⟩ post x pre hl
    cases post with
    | nil =>
      simp only [List.nil_append, List.cons.injEq] at hl
      obtain ⟨rfl, rfl⟩ := hl
      exact he
    | cons y post =>
      simp only [List.cons_append, List.cons.injEq] at hl
      exact h post x pre hl.2

theorem released_or_held (post pre : List Entry) (b : Nat) :
    .released b ∈ post ∨ heldIn (post ++ .pressed b :: pre) b = true := by
  have h : (∃ e ∈ post, e.releases b = true) ∨ heldIn (post ++ .pressed b :: pre) b = true :=
    answered_or_outstanding (beq_self_eq_true _)
  refine h.imp_left ?_
  rintro ⟨e, he, heb⟩
  exact eq_of_beq heb ▸ he

/-- In a well-paired log a press is followed by its release before the next flush. -/
theorem WellPaired.released_before_flush {post mid pre : List Entry}
    (h : WellPaired (post ++ .flushed :: (mid ++ .pressed b :: pre))) : .released b ∈ mid :=
  (released_or_held mid pre b).resolve_right (Bool.eq_false_iff.1 (h post .flushed _ rfl b))

@[simp] theorem heldIn_nil (b : Nat) : heldIn [] b = false := rfl

theorem heldIn_pressed (log : List Entry) (c b : Nat) : heldIn (.pressed c :: log) b = (c == b || heldIn log b) := by
  have hreq : (Entry.pressed c == .pressed b) = (c == b) := by by_cases h : c = b <;> simp [h]
  change ((Entry.pressed c == .pressed b) || (!(Entry.pressed c == .released b) && heldIn log b)) = _
  rw [hreq]
  rfl

theorem heldIn_released (log : List Entry) (c b : Nat) : heldIn (.released c :: log) b = (c != b && heldIn log b) := by
  have hans : (Entry.released c == .released b) = (c == b) := by by_cases h : c = b <;> simp [h]
  show ((Entry.released c == .pressed b) || (!(Entry.released c == .released b) && heldIn log b)) = _
  rw [hans]
  rfl

theorem heldIn_flushed (log : List Entry) (b : Nat) : heldIn (.flushed :: log) b = heldIn log b :=
  outstanding_of_silent rfl rfl log

/-- The releases of a flush: each listed button was held, once. -/
theorem wellPaired_releases {bs : List Nat} (hn : bs.Nodup) (hb : ∀ b ∈ bs, heldIn log b = true) (h : WellPaired log) :
    WellPaired ((bs.map Entry.released).reverse ++ log) := by
  induction bs generalizing log with
  | nil => exact h
  | cons c bs ih =>
    rw [List.nodup_cons] at hn
    rw [List.map_cons, List.reverse_cons, List.append_assoc]
    refine ih hn.2 (fun b hbs => ?_) (wellPaired_cons.2 ⟨hb c List.mem_cons_self, h⟩)
    have hne : c ≠ b := fun hcb => hn.1 (hcb ▸ hbs)
    change heldIn (.released c :: log) b = true
    rw [heldIn_released, hb b (List.mem_cons_of_mem c hbs)]
    simpa using hne

theorem heldIn_releases (bs : List Nat) (log : List Entry) (b : Nat) :
    heldIn ((bs.map Entry.released).reverse ++ log) b = (decide (b ∉ bs) && heldIn log b) := by
  induction bs generalizing log with
  | nil => simp
  | cons c bs ih =>
    rw [List.map_cons, List.reverse_cons, List.append_assoc, ih]
    change (decide (b ∉ bs) && heldIn (.released c :: log) b) = _
    rw [heldIn_released]
    by_cases hc : c = b
    · subst hc
      simp
    · simp [Ne.symm hc, bne_iff_ne.2 hc]

/-! ## The held buttons and the log -/

variable [DecidableEq W] [DecidableEq S] [BEq O] {desktop : W} {s s' : State W S O} {a : Event W S O}

/-- The held buttons are those the log leaves held. -/
def Tracks (s : State W S O) : Prop := ∀ b, b ∈ s.input.heldButtons ↔ heldIn s.log b = true

/-- The held buttons and the log are the same in both states. -/
def SameButtons (s s' : State W S O) : Prop := s'.input.heldButtons = s.input.heldButtons ∧ s'.log = s.log

omit [DecidableEq W] [DecidableEq S] [BEq O] in
theorem SameButtons.refl (s : State W S O) : SameButtons s s := ⟨rfl, rfl⟩

omit [DecidableEq W] [DecidableEq S] [BEq O] in
theorem SameButtons.trans {s'' : State W S O} (h : SameButtons s s') (h' : SameButtons s' s'') : SameButtons s s'' :=
  ⟨h'.1.trans h.1, h'.2.trans h.2⟩

omit [DecidableEq W] [DecidableEq S] [BEq O] in
theorem sameButtons_input {input : Input W S O} (h : input.heldButtons = s.input.heldButtons) :
    SameButtons s { s with input } := ⟨h, rfl⟩

omit [DecidableEq W] [DecidableEq S] [BEq O] in
theorem sameButtons_releasePointerLock (s : State W S O) (ok : Bool) : SameButtons s (releasePointerLock s ok) := by
  unfold releasePointerLock
  split
  · exact sameButtons_input (Input.heldButtons_released s.input ok)
  · exact .refl s

/-- A flush: every held button is released, in ascending order. -/
def Flushed (s s' : State W S O) : Prop :=
  s'.input.heldButtons = ∅ ∧
    s'.log = .flushed :: ((s.input.heldButtons.sort (· ≤ ·)).map Entry.released).reverse ++ s.log

omit [DecidableEq W] [DecidableEq S] [BEq O] in
theorem flushed_clearPointerFocus (s : State W S O) : Flushed s (clearPointerFocus s) := ⟨rfl, rfl⟩

variable {t : State W S O}

omit [DecidableEq W] [DecidableEq S] [BEq O] in
theorem Flushed.of_same (h : SameButtons s t) (hf : Flushed t s') : Flushed s s' :=
  ⟨hf.1, by rw [hf.2, h.1, h.2]⟩

omit [DecidableEq W] [DecidableEq S] [BEq O] in
theorem Flushed.same (hf : Flushed s t) (h : SameButtons t s') : Flushed s s' :=
  ⟨h.1.trans hf.1, h.2.trans hf.2⟩

/-- What an event does to the buttons, `button` being the handled host event with its client code. -/
inductive Effect (s s' : State W S O) : Option (Nat × Bool) → Prop
  | same (h : SameButtons s s') : Effect s s' none
  | button (code : Nat) (pressed : Bool)
      (held : s'.input.heldButtons = if pressed then insert code s.input.heldButtons else s.input.heldButtons.erase code)
      (log : s'.log = (if pressed then .pressed code else .released code) :: s.log) : Effect s s' (some (code, pressed))
  | flushed (h : Flushed s s') : Effect s s' none

/-- The button event an event hands to the pointer. -/
def handled (desktop : W) (s : State W S O) : Event W S O → Option (Nat × Bool)
  | .mouseInput window button pressed =>
    if acceptsButton s window then some (buttonCode desktop window button, pressed) else none
  | _ => none

omit [DecidableEq W] [DecidableEq S] [BEq O] in
theorem effect_clear_of (p : Bool) (h : SameButtons s t) :
    Effect s (if p then clearPointerFocus t else t) none := by
  cases p
  · exact .same h
  · exact .flushed (Flushed.of_same h (flushed_clearPointerFocus t))

omit [DecidableEq W] [DecidableEq S] [BEq O] in
theorem Effect.then_same (he : Effect s t none) (h : SameButtons t s') : Effect s s' none := by
  cases he with
  | same h0 => exact .same (h0.trans h)
  | flushed h0 => exact .flushed (h0.same h)

omit [DecidableEq W] [DecidableEq S] [BEq O] in
theorem sameButtons_releaseIf (s : State W S O) (p ok : Bool) :
    SameButtons s (if p then releasePointerLock s ok else s) := by
  cases p
  · exact .refl s
  · exact sameButtons_releasePointerLock s ok

theorem sameButtons_reconcilePass (s : State W S O) (world : LockWorld W) :
    SameButtons s (reconcilePass s world).2 := by
  unfold reconcilePass
  split
  · exact .refl s
  · cases s.input.action world.focusedOwner s.currentFocus world.snapshot with
    | release => exact sameButtons_releasePointerLock s _
    | confinementUnsupported => exact .refl s
    | acquire =>
      cases s.input.focus with
      | none => exact .refl s
      | some focus =>
        dsimp only
        split
        · have hacq : SameButtons s { s with input := s.input.nativeAcquired focus } := sameButtons_input rfl
          dsimp only
          split
          · exact hacq.trans (sameButtons_input rfl)
          · exact hacq.trans (sameButtons_releasePointerLock _ _)
        · exact sameButtons_input rfl
    | none =>
      dsimp only
      split
      · exact sameButtons_input rfl
      · exact .refl s

theorem sameButtons_reconcilePointerLock (s : State W S O) (first second : LockWorld W) :
    SameButtons s (reconcilePointerLock s first second) := by
  have h1 := sameButtons_reconcilePass s first
  unfold reconcilePointerLock
  cases hp : reconcilePass s first with
  | mk again t =>
    rw [hp] at h1
    cases again
    · exact h1
    · exact h1.trans (sameButtons_reconcilePass t second)

omit [DecidableEq W] [BEq O] in
theorem sameButtons_pointerMotion (s : State W S O) (owner : W) (candidate grabFocus : Option (S × O))
    (actual : Option S) : SameButtons s (pointerMotion s owner candidate grabFocus actual) := by
  unfold pointerMotion
  split
  · exact .refl s
  · cases grabFocus with
    | none => exact ⟨Input.heldButtons_recordMotion s.input owner candidate actual, rfl⟩
    | some g =>
      dsimp only
      cases s.input.focus.filter fun known => actual = some known.surface with
      | none => exact ⟨rfl, rfl⟩
      | some known => exact ⟨Input.heldButtons_recordMotion s.input known.owner (some g) actual, rfl⟩

omit [DecidableEq W] [BEq O] in
theorem heldButtons_forgetSurfaces (i : Input W S O) (retired : List S) :
    (retired.foldl Input.forgetSurface i).heldButtons = i.heldButtons := by
  induction retired generalizing i with
  | nil => rfl
  | cons surface retired ih => rw [List.foldl_cons, ih, Input.heldButtons_forgetSurface]

/-- Everything a step does to the held buttons and the log. -/
theorem step_buttons (h : step desktop s a = some s') : Effect s s' (handled desktop s a) := by
  cases a with
  | mouseInput window button pressed =>
    cases h
    simp only [handled, mouseInput]
    by_cases hacc : acceptsButton s window = true
    · rw [if_pos hacc, if_pos hacc]
      exact .button _ _ rfl rfl
    · rw [if_neg hacc, if_neg hacc]
      exact .same (.refl s)
  | motion owner candidate grabFocus actual =>
    cases h
    exact .same (sameButtons_pointerMotion s owner candidate grabFocus actual)
  | cursorLeft window ok =>
    cases h
    exact effect_clear_of _ (sameButtons_releaseIf s _ ok)
  | retireWindow window ok =>
    cases h
    have hleft : Effect s (cursorLeft s window ok) none := effect_clear_of _ (sameButtons_releaseIf s _ ok)
    have hforget : SameButtons (cursorLeft s window ok) (retireInputWindow s window ok) :=
      sameButtons_input (Input.heldButtons_forgetWindow _ window)
    exact hleft.then_same hforget
  | focusGained window ok =>
    cases h
    refine Effect.then_same ?_ (sameButtons_input rfl)
    cases hr : s.input.needsFocusReset window with
    | true => exact .flushed (Flushed.of_same (sameButtons_releaseIf s _ ok) (flushed_clearPointerFocus _))
    | false => exact .same (.refl s)
  | invalidateWindow window ok =>
    cases h
    show Effect s (invalidatePointerWindow s window ok) none
    unfold invalidatePointerWindow
    split
    · exact .flushed (Flushed.of_same (sameButtons_releasePointerLock s ok) (flushed_clearPointerFocus _))
    · exact .same (.refl s)
  | surfaceRemoved retired =>
    cases h
    exact effect_clear_of _ (sameButtons_input (heldButtons_forgetSurfaces s.input retired))
  | constraintCreated kind =>
    cases h
    exact .same (sameButtons_input (Input.heldButtons_constraintCreated s.input kind))
  | reconcile first second =>
    cases h
    exact .same (sameButtons_reconcilePointerLock s first second)
  | scaleChanged =>
    cases h
    exact .same (sameButtons_input rfl)
  | exiting ok =>
    cases h
    exact .same (sameButtons_releasePointerLock s ok)

/-! ## Runs -/

/-- A handled host press has a code that is not held, a handled host release one that is. -/
def matchesHeld (desktop : W) (s : State W S O) (a : Event W S O) : Bool :=
  (handled desktop s a).all fun (code, pressed) => decide (code ∈ s.input.heldButtons) == !pressed

omit [DecidableEq W] [DecidableEq S] [BEq O] in
/-- The held buttons follow the log through every step, matched or not. -/
theorem Tracks.effect {e : Option (Nat × Bool)} (h : Tracks s) (he : Effect s s' e) : Tracks s' := by
  intro b
  cases he with
  | same hs => rw [hs.1, hs.2, h b]
  | button code pressed held log =>
    rw [held, log]
    cases pressed
    · simp only [Bool.false_eq_true, if_false, heldIn_released, Finset.mem_erase, h b, Bool.and_eq_true, bne_iff_ne]
      exact and_congr_left fun _ => ne_comm
    · simp only [if_true, heldIn_pressed, Finset.mem_insert, h b, Bool.or_eq_true, beq_iff_eq]
      exact or_congr_left eq_comm
  | flushed hf =>
    rw [hf.1, hf.2, List.cons_append, heldIn_flushed, heldIn_releases]
    simp [h b]

omit [DecidableEq W] [DecidableEq S] [BEq O] in
/-- One step keeps the log well paired exactly when it matches. -/
theorem wellPaired_effect {e : Option (Nat × Bool)} (ht : Tracks s) (h : WellPaired s.log) (he : Effect s s' e) :
    WellPaired s'.log ↔ (e.all fun (code, pressed) => decide (code ∈ s.input.heldButtons) == !pressed) = true := by
  cases he with
  | same hs =>
    rw [hs.2]
    exact iff_of_true h rfl
  | button code pressed held log =>
    rw [log, wellPaired_cons, and_iff_left h]
    cases pressed
    · simpa [Entry.Fits] using (ht code).symm
    · simpa [Entry.Fits] using (not_congr (ht code)).symm
  | flushed hf =>
    refine iff_of_true ?_ rfl
    rw [hf.2, List.cons_append, wellPaired_cons]
    refine ⟨fun b => ?_, wellPaired_releases (Finset.sort_nodup ..) (fun b hb => ?_) h⟩
    · rw [heldIn_releases]
      simp [ht b]
    · exact (ht b).1 ((Finset.mem_sort _).1 hb)

theorem tracks_reachable (h : (system S O desktop).Reachable s) : Tracks s :=
  System.Reachable.invariant (I := Tracks) (fun b => by simp [system, Input.new])
    (fun _ _ _ hi hs => hi.effect (step_buttons hs)) h

/-- **The button events are well paired in every run whose handled host events match the held buttons**, and the first
one that does not match unpairs them. -/
theorem buttons_wellPaired (h : (system S O desktop).ReachableWhere (fun s a => matchesHeld desktop s a = true) s) :
    WellPaired s.log ∧ ∀ a s', step desktop s a = some s' → (WellPaired s'.log ↔ matchesHeld desktop s a = true) := by
  have ht := tracks_reachable h.reachable
  have hw : WellPaired s.log := by
    induction h with
    | init => exact wellPaired_nil
    | step hr hm hs ih =>
      have htr := tracks_reachable hr.reachable
      exact (wellPaired_effect htr (ih htr) (step_buttons hs)).2 hm
  exact ⟨hw, fun a s' hs => wellPaired_effect ht hw (step_buttons hs)⟩

/-- Two buttons held on the desktop and a rootless window; one is released, the other flushed with the focus. -/
theorem buttons_wellPaired_flush : ∃ s : State Nat Nat Nat, WellPaired s.log ∧
    s.log = [.flushed, .released 0x116, .released 0x110, .pressed 0x116, .pressed 0x110] := by
  have hrun : ((system Nat Nat 0).runWhere (matchesHeld 0) (system Nat Nat 0).init
      [.motion 1 (some (5, 0)) none (some 5), .mouseInput 0 .left true, .mouseInput 1 .back true,
        .mouseInput 0 .left false, .retireWindow 1 true]).any
      (fun s => s.log = [.flushed, .released 0x116, .released 0x110, .pressed 0x116, .pressed 0x110]) = true := by
    decide +kernel
  obtain ⟨s, h, hp⟩ := System.exists_reachableWhere hrun
  exact ⟨s, (buttons_wellPaired h).1, of_decide_eq_true hp⟩

/-- Two presses in a row: the desktop window sends the same code for the left and the back button. And a release of a
button that a flush released already, when the host's own release arrives after the focus was lost. -/
theorem buttons_unpaired :
    (∃ s : State Nat Nat Nat, (system Nat Nat 0).Reachable s ∧ ¬ WellPaired s.log ∧
      s.log = [.pressed 0x110, .pressed 0x110]) ∧
    ∃ s : State Nat Nat Nat, (system Nat Nat 0).Reachable s ∧ ¬ WellPaired s.log ∧
      s.log = [.released 0x110, .flushed, .released 0x110, .pressed 0x110] := by
  constructor
  · have hrun : ((system Nat Nat 0).run (system Nat Nat 0).init
        [.motion 0 (some (5, 0)) none (some 5), .mouseInput 0 .left true, .mouseInput 0 .back true]).any
        (fun s => s.log = [.pressed 0x110, .pressed 0x110]) = true := by decide
    obtain ⟨s, h, hp⟩ := System.exists_reachable hrun
    have hlog := of_decide_eq_true hp
    refine ⟨s, h, fun hw => ?_, hlog⟩
    have hfit := hw [] (.pressed 0x110) [.pressed 0x110] hlog
    exact absurd hfit (by simp [Entry.Fits, heldIn_pressed])
  · have hrun : ((system Nat Nat 0).run (system Nat Nat 0).init
        [.motion 0 (some (5, 0)) none (some 5), .mouseInput 0 .left true, .retireWindow 0 true,
          .motion 0 (some (5, 0)) none (some 5), .mouseInput 0 .left false]).any
        (fun s => s.log = [.released 0x110, .flushed, .released 0x110, .pressed 0x110]) = true := by decide +kernel
    obtain ⟨s, h, hp⟩ := System.exists_reachable hrun
    have hlog := of_decide_eq_true hp
    refine ⟨s, h, fun hw => ?_, hlog⟩
    have hfit := hw [] (.released 0x110) [.flushed, .released 0x110, .pressed 0x110] hlog
    exact absurd hfit (by simp [Entry.Fits, heldIn_flushed, heldIn_released])

end CocoaWay.PointerInput
