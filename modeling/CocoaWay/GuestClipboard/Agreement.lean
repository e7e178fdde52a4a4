import CocoaWay.GuestClipboard.Moves

/-!
# Ends that agree

* `pending` : an end that has a selection to transfer; `Current` : what is known of any other end is true;
* `calm` : the moves of the relay in which nothing fails;
* `Unfailed` : the transfers under way will leave the same digest for both ends; `Agreed` : the last one did;
* `atRest_agree` : when nothing is left to do after them, both ends have one selection.
-/

namespace CocoaWay.GuestClipboard
open Lib System

section Relay

variable {S P D : Type} {C : Clipboard S P D}

/-- Not all of the changes of an end are in the file. -/
def Endpoint.pending (p : Endpoint S P D) : Bool :=
  decide (0 < p.announced) || p.transfer.any fun t => decide (t.stage ≠ .written)

theorem Endpoint.pending_eq_false {p : Endpoint S P D} :
    p.pending = false ↔ p.announced = 0 ∧ ∀ t, p.transfer = some t → t.stage = .written := by
  cases ht : p.transfer <;> simp [Endpoint.pending, ht]

/-- A digest, if there is one, is that of the selection. -/
def Endpoint.Has (C : Clipboard S P D) (p : Endpoint S P D) (d : Option D) : Prop :=
  ∀ x, d = some x → ∃ payload, C.read p.selection = some payload ∧ x = C.digest payload

/-- The read or the copy of a transfer that has not written yet failed. -/
def Transfer.failed [DecidableEq D] (C : Clipboard S P D) (t : Transfer P D) : Bool :=
  decide (t.stage ≠ .written) &&
    (t.payload.isNone || decide (t.stage = .copied ∧ t.destinationDigest ≠ t.payload.map C.digest))

namespace World

/-- All that is known of an end is true, unless a change is pending there. -/
def Current (C : Clipboard S P D) (w : World S P D) (e : End) : Prop :=
  (w.ends e).pending = false → (w.ends e).Has C (w.recorded e) ∧
    ∀ t, (w.ends e.other).transfer = some t → t.stage = .known ∨ t.stage = .copied →
      (w.ends e).Has C t.destinationDigest

variable {w w' : World S P D} {e : End} {m : Move S}

section Current

variable [DecidableEq D]

theorem current_move (hs : w.Sound C) (h : w.Moved C m w') (hc : ∀ e, w.Current C e) : ∀ e, w'.Current C e := by
  cases h with
  | change e selection =>
    refine End.both e ?_ ?_
    · intro hquiet
      simp [World.change, Endpoint.pending] at hquiet
    · simp only [Current, World.change, End.other_other, set_self, set_other, recorded_set]
      exact fun hquiet => by simpa using hc e.other hquiet
  | read e ok htransfer =>
    refine End.both e ?_ ?_
    · intro hquiet
      simp [Endpoint.start, Endpoint.pending] at hquiet
    · simp only [Current, End.other_other, set_self, set_other, recorded_set]
      exact fun hquiet => ⟨(hc e.other hquiet).1, by simp [Endpoint.start]⟩
  | lock e t htransfer hstage hlock =>
    refine End.both e ?_ ?_
    · intro hquiet
      simp [Endpoint.pending] at hquiet
    · intro hquiet
      simp only [carry_other] at hquiet
      simp only [End.other_other, carry_self, carry_other]
      exact ⟨(hc e.other hquiet).1, by simp⟩
  | readState e t htransfer hstage =>
    refine End.both e ?_ ?_
    · intro hquiet
      simp [Endpoint.pending] at hquiet
    · intro hquiet
      rw [carry_other] at hquiet
      simp only [End.other_other, carry_self, carry_other, recorded_carry]
      refine ⟨(hc e.other hquiet).1, fun u hu _ => ?_⟩
      obtain rfl := Option.some.inj hu
      exact (hc e.other hquiet).1
  | copied e t payload htransfer hstage hcopy =>
    refine End.both e ?_ ?_
    · intro hquiet
      simp [Endpoint.pending] at hquiet
    · intro hquiet
      simp [Endpoint.pending] at hquiet
  | skipped e ok t htransfer hstage hskip =>
    refine End.both e ?_ ?_
    · intro hquiet
      simp [Endpoint.pending] at hquiet
    · intro hquiet
      rw [carry_other] at hquiet
      simp only [End.other_other, carry_self, carry_other, recorded_carry]
      refine ⟨(hc e.other hquiet).1, fun u hu _ => ?_⟩
      obtain rfl := Option.some.inj hu
      exact (hc e.other hquiet).2 t (by rwa [End.other_other]) (Or.inl hstage)
  | writeState e t htransfer hstage =>
    refine End.both e ?_ ?_
    · intro hquiet
      simp only [carry_self] at hquiet
      have hk := (hs.kept e).transfer t htransfer
      have hversion := hk.current (Endpoint.pending_eq_false.1 hquiet).1
      simp only [carry_self, carry_other, recorded_source]
      refine ⟨fun x hx => ?_, fun u hu hknown => ?_⟩
      · obtain ⟨payload, hpayload, rfl⟩ := Option.map_eq_some_iff.1 hx
        refine ⟨payload, ?_, rfl⟩
        exact hversion ▸ hk.read hpayload
      · have hfirst := hs.exclusive.other htransfer (by simp [hstage]) hu
        simp [hfirst] at hknown
    · intro hquiet
      simp only [carry_other] at hquiet
      simp only [End.other_other, carry_self, carry_other, recorded_destination]
      exact ⟨(hc e.other hquiet).2 t (by rwa [End.other_other]) (Or.inr hstage), by simp⟩
  | unlock e t htransfer hstage =>
    refine End.both e ?_ ?_
    · intro hquiet
      simp only [set_self] at hquiet
      simp only [set_self, set_other]
      refine hc e (Endpoint.pending_eq_false.2 ⟨(Endpoint.pending_eq_false.1 hquiet).1, fun u hu => ?_⟩)
      obtain rfl := Option.some.inj (htransfer.symm.trans hu)
      exact hstage
    · intro hquiet
      simp only [set_other] at hquiet
      simp only [End.other_other, set_self, set_other]
      exact ⟨(hc e.other hquiet).1, by simp⟩

theorem current_reachable {outer inner : S} (h : (relay C outer inner).Reachable w) : ∀ e, w.Current C e := by
  have hinit : ∀ e, (relay C outer inner).init.Current C e := by
    intro e hquiet
    obtain ⟨selection, hinit⟩ := init_ends (C := C) outer inner e
    rw [hinit] at hquiet
    cases hquiet
  have hboth : w.Sound C ∧ ∀ e, w.Current C e :=
    Reachable.invariant (I := fun w => w.Sound C ∧ ∀ e, w.Current C e) ⟨sound_init outer inner, hinit⟩
      (fun _ _ _ hi hst => ⟨hi.1.move (step_cases hst), current_move hi.1 (step_cases hst) hi.2⟩) h
  exact hboth.2

end Current

/-! ## Without users and failures -/

section Agreed

variable [DecidableEq D]

/-- No user selects anything, what is read can be relayed, and no step fails. -/
def calm (C : Clipboard S P D) (w : World S P D) : Move S → Bool
  | .change _ _ => false
  | .read e ok => ok && (C.read (w.ends e).selection).isSome
  | .copy _ ok => ok
  | _ => true

def Unfailed (C : Clipboard S P D) (w : World S P D) : Prop :=
  ∀ e t, (w.ends e).transfer = some t → t.failed C = false

/-- A transfer is to come, or the last one has left one digest for both ends. -/
def Agreed (w : World S P D) : Prop := (∃ e, (w.ends e).pending = true) ∨ ∃ d, ∀ e, w.recorded e = some d

theorem unfailed_move (h : w.Moved C m w') (hm : w.calm C m = true) (hu : w.Unfailed C) : w'.Unfailed C := by
  cases h with
  | change e selection => cases hm
  | read e ok htransfer =>
    refine End.both e ?_ ?_
    · rw [set_self]
      intro t ht
      obtain rfl := Option.some.inj ht
      obtain ⟨hok, hread⟩ := Bool.and_eq_true_iff.1 hm
      simpa [Transfer.failed, hok, Option.isSome_iff_ne_none] using hread
    · simpa using hu e.other
  | lock e t htransfer hstage hlock =>
    refine End.both e ?_ ?_
    · simpa [Transfer.failed, hstage] using hu e t htransfer
    · simpa using hu e.other
  | readState e t htransfer hstage =>
    refine End.both e ?_ ?_
    · simpa [Transfer.failed, hstage] using hu e t htransfer
    · simpa using hu e.other
  | copied e t payload htransfer hstage hcopy =>
    refine End.both e ?_ ?_
    · simp [Transfer.failed, Transfer.toCopy_payload hcopy]
    · simpa using hu e.other
  | skipped e ok t htransfer hstage hskip =>
    refine End.both e ?_ ?_
    · have hcopy : t.toCopy C = none := hskip.resolve_right (by simpa [calm] using hm)
      obtain ⟨payload, hpayload⟩ : ∃ payload, t.payload = some payload := by
        simpa [Transfer.failed, hstage, ← Option.isSome_iff_exists] using hu e t htransfer
      simpa [Transfer.failed, Transfer.toCopy, hpayload] using hcopy
    · simpa using hu e.other
  | writeState e t htransfer hstage =>
    refine End.both e ?_ ?_
    · simp [Transfer.failed]
    · simpa using hu e.other
  | unlock e t htransfer hstage =>
    refine End.both e ?_ ?_
    · simp
    · simpa using hu e.other

theorem agreed_move (h : w.Moved C m w') (hm : w.calm C m = true) (hu : w.Unfailed C) (ha : w.Agreed) :
    w'.Agreed := by
  cases h with
  | change e selection => cases hm
  | read e ok htransfer => exact Or.inl ⟨e, by simp [Endpoint.start, Endpoint.pending]⟩
  | lock e t htransfer hstage hlock => exact Or.inl ⟨e, by simp [Endpoint.pending]⟩
  | readState e t htransfer hstage => exact Or.inl ⟨e, by simp [Endpoint.pending]⟩
  | copied e t payload htransfer hstage hcopy => exact Or.inl ⟨e, by simp [Endpoint.pending]⟩
  | skipped e ok t htransfer hstage hskip => exact Or.inl ⟨e, by simp [Endpoint.pending]⟩
  | writeState e t htransfer hstage =>
    have hfailed := hu e t htransfer
    simp only [Transfer.failed, hstage] at hfailed
    obtain ⟨hpayload, hdigest⟩ : t.payload.isNone = false ∧ t.destinationDigest = t.payload.map C.digest := by
      simpa using hfailed
    obtain ⟨payload, hpayload⟩ := Option.isSome_iff_exists.1 (by simpa using hpayload)
    refine Or.inr ⟨C.digest payload, End.both e ?_ ?_⟩
    · rw [recorded_source, hpayload, Option.map_some]
    · rw [recorded_destination, hdigest, hpayload, Option.map_some]
  | unlock e t htransfer hstage =>
    rcases ha with ⟨e', hpending⟩ | hsame
    · left
      refine ⟨e', ?_⟩
      rcases e.eq_or_other e' with rfl | rfl
      · simpa [Endpoint.pending, htransfer, hstage] using hpending
      · simpa using hpending
    · exact Or.inr hsame

end Agreed

/-- Nothing is left to do. -/
def AtRest (w : World S P D) : Prop := ∀ e, (w.ends e).transfer = none ∧ (w.ends e).announced = 0

theorem AtRest.agree (hw : w.AtRest) (hc : ∀ e, w.Current C e) (ha : w.Agreed) :
    ∃ payload, ∀ e, C.read (w.ends e).selection = some payload := by
  have hquiet : ∀ e, (w.ends e).pending = false := fun e =>
    Endpoint.pending_eq_false.2 ⟨(hw e).2, fun t ht => by rw [(hw e).1] at ht; cases ht⟩
  rcases ha with ⟨e, hpending⟩ | ⟨d, hd⟩
  · rw [hquiet e] at hpending
    cases hpending
  · have hread : ∀ e, ∃ payload, C.read (w.ends e).selection = some payload ∧ d = C.digest payload := fun e =>
      (hc e (hquiet e)).1 d (hd e)
    obtain ⟨payload, hpayload, rfl⟩ := hread .outer
    refine ⟨payload, fun e => ?_⟩
    obtain ⟨payload', hpayload', hdigest⟩ := hread e
    rw [hpayload', C.digest_injective hdigest]


end World

end Relay

end CocoaWay.GuestClipboard
