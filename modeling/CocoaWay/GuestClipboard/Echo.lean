import CocoaWay.GuestClipboard.Moves

/-!
# Selections that come back

* `Remembers`, `Remembered` : the end a selection was put from is known to have it, as long as it has;
* `heeded` : the moves after which that is so;
* `echo_skipped` : a selection is not copied back to an end that still has it.
-/

namespace CocoaWay.GuestClipboard
open Lib System

section Relay

variable {S P D : Type} {C : Clipboard S P D}

namespace World

/-- An end has a payload that its transfer has read, and what is known of the end is that it has it. -/
structure Remembers (C : Clipboard S P D) (payload : P) (p other : Endpoint S P D) (recorded : Option D) : Prop where
  selection : C.read p.selection = some payload
  transfer : ∀ t, p.transfer = some t → t.payload = some payload
  known : ∀ t, other.transfer = some t → t.stage = .known ∨ t.stage = .copied →
    t.destinationDigest = some (C.digest payload)
  recorded : recorded = some (C.digest payload) ∨ ∃ t, p.transfer = some t ∧ t.stage = .copied

namespace Remembers

variable {payload : P} {p other : Endpoint S P D} {d : Option D}

/-- Unless its transfer is to write, what is remembered of an end is in the file. -/
theorem file (h : Remembers C payload p other d) (ht : ∀ t, p.transfer = some t → t.stage ≠ .copied) :
    d = some (C.digest payload) :=
  h.recorded.resolve_right fun ⟨t, htransfer, hstage⟩ => ht t htransfer hstage

theorem carry {t t' : Transfer P D} (h : Remembers C payload p other d) (ht : p.transfer = some t)
    (hstage : t.stage ≠ .copied) (hpayload : t'.payload = t.payload) :
    Remembers C payload { p with transfer := some t' } other d where
  selection := h.selection
  transfer u hu := by
    obtain rfl := Option.some.inj hu
    rw [hpayload]
    exact h.transfer t ht
  known := h.known
  recorded := Or.inl (h.file (by simpa [ht] using hstage))

end Remembers

section Known

variable [DecidableEq D] {w w' : World S P D} {e : End} {m : Move S}

/-- While an end has what was put from it, that is remembered. -/
def Remembered (C : Clipboard S P D) (w : World S P D) (e : End) : Prop :=
  (w.ends e).put = some (w.ends e).changes →
    ∃ payload, Remembers C payload (w.ends e) (w.ends e.other) (w.recorded e)

omit [DecidableEq D] in
/-- Another step of a transfer that has still to copy, on the payload it has read. -/
theorem Remembered.carry {t t' : Transfer P D} (h : w.Remembered C e) (ht : (w.ends e).transfer = some t)
    (hstage : t.stage ≠ .copied) (hpayload : t'.payload = t.payload) : (w.carry e t').Remembered C e := by
  intro hput
  rw [carry_self] at hput
  obtain ⟨payload, h⟩ := h hput
  refine ⟨payload, ?_⟩
  rw [carry_self, carry_other]
  exact h.carry ht hstage hpayload

/-- No read of a selection fails that was put on the other end before, and no transfer makes a copy that read its
payload before the last copy onto its source. -/
def heeded (C : Clipboard S P D) (w : World S P D) : Move S → Bool
  | .read e ok => ok || decide ((w.ends e).put ≠ some (w.ends e).changes)
  | .copy e ok => !ok || (w.at? e .known).all fun t => (t.toCopy C).isNone || decide ((w.ends e).copied ≤ t.version)
  | _ => true

theorem remembered_move (hs : w.Sound C) (h : w.Moved C m w') (hm : w.heeded C m = true)
    (hr : ∀ e, w.Remembered C e) : ∀ e, w'.Remembered C e := by
  cases h with
  | change e selection =>
    refine End.both e ?_ ?_
    · intro hput
      have hle := (hs.kept e).put_le _ (by simpa [World.change] using hput)
      omega
    · intro hput
      rw [World.change, set_other] at hput
      obtain ⟨payload, h⟩ := hr e.other hput
      refine ⟨payload, ?_⟩
      rw [End.other_other] at h
      simp only [World.change, End.other_other, set_self, set_other]
      exact { h with known := h.known }
  | read e ok htransfer =>
    refine End.both e ?_ ?_
    · intro hput
      rw [set_self] at hput
      obtain ⟨payload, h⟩ := hr e hput
      have hput' : (w.ends e).put = some (w.ends e).changes := hput
      have hok : ok = true := by simpa [heeded, hput'] using hm
      refine ⟨payload, ?_⟩
      rw [set_self, set_other]
      refine ⟨h.selection, fun t ht => ?_, h.known, Or.inl (h.file (by simp [htransfer]))⟩
      obtain rfl := Option.some.inj ht
      rw [hok]
      exact h.selection
    · intro hput
      rw [set_other] at hput
      obtain ⟨payload, h⟩ := hr e.other hput
      refine ⟨payload, ?_⟩
      rw [End.other_other, set_self, set_other]
      refine { h with known := fun t ht hstage => ?_ }
      obtain rfl := Option.some.inj ht
      simp at hstage
  | lock e t htransfer hstage hlock =>
    refine End.both e ?_ ?_
    · exact (hr e).carry htransfer (by simp [hstage]) rfl
    · intro hput
      simp only [carry_other] at hput
      obtain ⟨payload, h⟩ := hr e.other hput
      refine ⟨payload, ?_⟩
      simp only [End.other_other, carry_self, carry_other]
      exact { h with known := by simp }
  | readState e t htransfer hstage =>
    refine End.both e ?_ ?_
    · exact (hr e).carry htransfer (by simp [hstage]) rfl
    · intro hput
      rw [carry_other] at hput
      obtain ⟨payload, h⟩ := hr e.other hput
      refine ⟨payload, ?_⟩
      rw [End.other_other, carry_self, carry_other]
      refine { h with known := fun u hu _ => ?_ }
      obtain rfl := Option.some.inj hu
      refine h.file fun u hu => ?_
      rw [hs.exclusive.other htransfer (by simp [hstage]) hu]
      decide
  | copied e t payload htransfer hstage hcopy =>
    refine End.both e ?_ ?_
    · intro hput
      rw [copied_self] at hput
      have hversion : t.version = (w.ends e).changes := Option.some.inj hput
      have hread := hs.read_copied htransfer hcopy
      rw [hversion] at hread
      refine ⟨payload, ?_⟩
      rw [copied_self, copied_other]
      refine ⟨hread, fun u hu => ?_, fun u hu hknown => ?_, Or.inr ⟨_, rfl, rfl⟩⟩
      · obtain rfl := Option.some.inj hu
        exact Transfer.toCopy_payload (t := t) hcopy
      · have hfirst := hs.exclusive.other htransfer (by simp [hstage]) hu
        simp [hfirst] at hknown
    · intro hput
      rw [copied_other] at hput
      have hle := (hs.kept e.other).put_le _ hput
      change (w.ends e.other).changes + 1 ≤ (w.ends e.other).changes at hle
      omega
  | skipped e ok t htransfer hstage hskip =>
    refine End.both e ?_ ?_
    · exact (hr e).carry htransfer (by simp [hstage]) rfl
    · intro hput
      rw [carry_other] at hput
      obtain ⟨payload, h⟩ := hr e.other hput
      refine ⟨payload, ?_⟩
      rw [End.other_other, carry_self, carry_other]
      refine { h with known := fun u hu _ => ?_ }
      obtain rfl := Option.some.inj hu
      exact h.known t (by rwa [End.other_other]) (Or.inl hstage)
  | writeState e t htransfer hstage =>
    refine End.both e ?_ ?_
    · intro hput
      simp only [carry_self] at hput
      obtain ⟨payload, h⟩ := hr e hput
      refine ⟨payload, ?_⟩
      simp only [carry_self, carry_other, recorded_source]
      refine ⟨h.selection, fun u hu => ?_, h.known, Or.inl ?_⟩
      · obtain rfl := Option.some.inj hu
        exact h.transfer t htransfer
      · rw [h.transfer t htransfer, Option.map_some]
    · intro hput
      simp only [carry_other] at hput
      obtain ⟨payload, h⟩ := hr e.other hput
      have hdigest := h.known t (by rwa [End.other_other]) (Or.inr hstage)
      refine ⟨payload, ?_⟩
      simp only [End.other_other, carry_self, carry_other, recorded_destination]
      exact ⟨h.selection, h.transfer, by simp, Or.inl hdigest⟩
  | unlock e t htransfer hstage =>
    refine End.both e ?_ ?_
    · intro hput
      simp only [set_self] at hput
      obtain ⟨payload, h⟩ := hr e hput
      refine ⟨payload, ?_⟩
      simp only [set_self, set_other]
      exact ⟨h.selection, by simp, h.known, Or.inl (h.file (by simp [htransfer, hstage]))⟩
    · intro hput
      simp only [set_other] at hput
      obtain ⟨payload, h⟩ := hr e.other hput
      refine ⟨payload, ?_⟩
      simp only [End.other_other, set_self, set_other]
      exact { h with known := by simp }

theorem remembered_reachable {outer inner : S}
    (h : (relay C outer inner).ReachableWhere (fun w m => w.heeded C m = true) w) : ∀ e, w.Remembered C e := by
  have hinit : ∀ e, (relay C outer inner).init.Remembered C e := by
    intro e hput
    obtain ⟨selection, hinit⟩ := init_ends (C := C) outer inner e
    rw [hinit] at hput
    cases hput
  have hboth : w.Sound C ∧ ∀ e, w.Remembered C e :=
    ReachableWhere.invariant (I := fun w => w.Sound C ∧ ∀ e, w.Remembered C e) ⟨sound_init outer inner, hinit⟩
      (fun _ _ _ hi hm hst => ⟨hi.1.move (step_cases hst), remembered_move hi.1 (step_cases hst) hm hi.2⟩) h
  exact hboth.2

/-- A selection that was copied from the other end is not copied back, as long as that end has it. -/
theorem echo_skipped {t : Transfer P D} (hs : w.Sound C) (hr : ∀ e, w.Remembered C e) (ht : w.at? e .known = some t)
    (horigin : t.origin = some (w.ends e.other).changes) : t.toCopy C = none := by
  obtain ⟨htransfer, hstage⟩ := at?_eq.1 ht
  obtain ⟨hread, v, hput, hle⟩ := (hs.traced e).transfer t _ htransfer horigin
  have hlast : v = (w.ends e.other).changes := Nat.le_antisymm ((hs.kept e.other).put_le v hput) hle
  obtain ⟨payload, h⟩ := hr e.other (hlast ▸ hput)
  have hdigest := h.known t (by rwa [End.other_other]) (Or.inl hstage)
  unfold Transfer.toCopy
  rcases ((hs.kept e).transfer t htransfer).payload with hnone | hpayload
  · rw [hnone, Option.filter_none]
  · have hsame : t.payload = some payload := by
      rw [hpayload, ← hread]
      exact h.selection
    simp [hsame, hdigest]

end Known

end World

end Relay

end CocoaWay.GuestClipboard
