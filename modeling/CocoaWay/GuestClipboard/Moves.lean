import CocoaWay.GuestClipboard.Relay

/-!
# Where transfers and selections come from

* `Moved`, `step_cases` : the moves with what each does; `Touched` : what one does to the ends and the copies;
* `Exclusive` : the lock is held by the transfer that has done more than read;
* `Kept` : a transfer read a selection its source had; `Traced` : what a selection that was copied came from;
* `Sound`, `sound_reachable` : this, and that every copy is of a selection its source had.
-/

namespace CocoaWay.GuestClipboard
open Lib System

@[simp] theorem End.other_other (e : End) : e.other.other = e := by cases e <;> rfl

@[simp] theorem End.other_ne (e : End) : e.other ≠ e := by cases e <;> decide

@[simp] theorem End.ne_other (e : End) : e ≠ e.other := e.other_ne.symm

theorem End.eq_or_other (a e : End) : e = a ∨ e = a.other := by cases a <;> cases e <;> decide

/-- What is shown of an end and of the other one is shown of both. -/
theorem End.both {motive : End → Prop} (a : End) (self : motive a) (other : motive a.other) (e : End) : motive e := by
  rcases a.eq_or_other e with rfl | rfl
  · exact self
  · exact other

section Relay

variable {S P D : Type} {C : Clipboard S P D}

namespace Endpoint

variable (p : Endpoint S P D) (selection : S) (from? : Option Nat)

@[simp] theorem change_changes : (p.change selection from?).changes = p.changes + 1 := rfl

@[simp] theorem change_announced : (p.change selection from?).announced = p.announced + 1 := rfl

@[simp] theorem change_transfer : (p.change selection from?).transfer = p.transfer := rfl

@[simp] theorem change_origin : (p.change selection from?).origin = from? := rfl

@[simp] theorem change_copied : (p.change selection from?).copied = p.copied := rfl

@[simp] theorem change_put : (p.change selection from?).put = p.put := rfl

@[simp] theorem change_selection : (p.change selection from?).selection = selection := by
  simp [Endpoint.change, Endpoint.selection]

/-- What was held before is held in the past. -/
theorem change_held {v : Nat} (hv : v ≤ p.changes) : (p.change selection from?).held v = p.held v :=
  Function.update_of_ne (by omega) _ _

end Endpoint

namespace World

section Fields

variable {w : World S P D} {e : End} {t : Transfer P D}

@[simp] theorem set_self (w : World S P D) (e : End) (p : Endpoint S P D) : (w.set e p).ends e = p := by simp [set]

@[simp] theorem set_other (w : World S P D) (e : End) (p : Endpoint S P D) :
    (w.set e p).ends e.other = w.ends e.other := by
  simp [set]

@[simp] theorem set_lock (w : World S P D) (e : End) (p : Endpoint S P D) : (w.set e p).lock = w.lock := rfl

@[simp] theorem set_file (w : World S P D) (e : End) (p : Endpoint S P D) : (w.set e p).file = w.file := rfl

@[simp] theorem set_copies (w : World S P D) (e : End) (p : Endpoint S P D) : (w.set e p).copies = w.copies := rfl

@[simp] theorem carry_self (w : World S P D) (e : End) (t : Transfer P D) :
    (w.carry e t).ends e = { w.ends e with transfer := some t } := by
  simp [carry]

@[simp] theorem carry_other (w : World S P D) (e : End) (t : Transfer P D) :
    (w.carry e t).ends e.other = w.ends e.other := by
  simp [carry]

@[simp] theorem carry_lock (w : World S P D) (e : End) (t : Transfer P D) : (w.carry e t).lock = w.lock := rfl

@[simp] theorem carry_file (w : World S P D) (e : End) (t : Transfer P D) : (w.carry e t).file = w.file := rfl

@[simp] theorem carry_copies (w : World S P D) (e : End) (t : Transfer P D) : (w.carry e t).copies = w.copies := rfl

@[simp] theorem copied_self (w : World S P D) (e : End) (t : Transfer P D) (payload : P) :
    (w.copied C e t payload).ends e =
      { w.ends e with
        transfer := some { t with stage := .copied, destinationDigest := some (C.digest payload) }
        put := some t.version } := by
  unfold copied set
  exact (Function.update_of_ne e.ne_other _ _).trans (Function.update_self ..)

@[simp] theorem copied_other (w : World S P D) (e : End) (t : Transfer P D) (payload : P) :
    (w.copied C e t payload).ends e.other =
      { (w.ends e.other).change (C.offer payload) (some t.version) with copied := (w.ends e.other).changes + 1 } := by
  unfold copied set
  exact Function.update_self ..

@[simp] theorem copied_lock (w : World S P D) (e : End) (t : Transfer P D) (payload : P) :
    (w.copied C e t payload).lock = w.lock := rfl

@[simp] theorem copied_copies (w : World S P D) (e : End) (t : Transfer P D) (payload : P) :
    (w.copied C e t payload).copies = ⟨e, t.version, payload⟩ :: w.copies := rfl

theorem at?_eq {stage : Stage} : w.at? e stage = some t ↔ (w.ends e).transfer = some t ∧ t.stage = stage := by
  simp [at?, Option.filter_eq_some_iff]

@[simp] theorem recorded_set (w : World S P D) (e e' : End) (p : Endpoint S P D) :
    (w.set e p).recorded e' = w.recorded e' := rfl

@[simp] theorem recorded_carry (w : World S P D) (e e' : End) (t : Transfer P D) :
    (w.carry e t).recorded e' = w.recorded e' := rfl

@[simp] theorem recorded_copied (w : World S P D) (e e' : End) (t : Transfer P D) (payload : P) :
    (w.copied C e t payload).recorded e' = w.recorded e' := rfl

/-- After a transfer has written, the file has what it read, and what it knows of its destination. -/
@[simp] theorem recorded_source (ends : End → Endpoint S P D) (lock : Option End) (copies : List (Copy P)) (e : End)
    (d d' : Option D) : (World.mk ends lock (some ⟨e, d, e.other, d'⟩) copies).recorded e = d := by
  simp [recorded, destinationDigest]

@[simp] theorem recorded_destination (ends : End → Endpoint S P D) (lock : Option End) (copies : List (Copy P))
    (e : End) (d d' : Option D) : (World.mk ends lock (some ⟨e, d, e.other, d'⟩) copies).recorded e.other = d' := by
  simp [recorded, destinationDigest]

/-- The lock is held by the transfer that has done more than read. -/
def Exclusive (w : World S P D) : Prop := ∀ e, w.lock = some e ↔ ∃ t, (w.ends e).transfer = some t ∧ t.stage ≠ .read

theorem Exclusive.other {t' : Transfer P D} (hx : w.Exclusive) (ht : (w.ends e).transfer = some t)
    (hstage : t.stage ≠ .read) (ht' : (w.ends e.other).transfer = some t') : t'.stage = .read := by
  by_contra hne
  have hlock := (hx e).2 ⟨t, ht, hstage⟩
  have hlock' := (hx e.other).2 ⟨t', ht', hne⟩
  rw [hlock] at hlock'
  exact e.ne_other (Option.some.inj hlock')

end Fields

section Moves

variable [DecidableEq D] {w w' : World S P D} {e : End} {m : Move S}

/-- The moves that can occur, with the transfer each is a step of. -/
inductive Moved (C : Clipboard S P D) (w : World S P D) : Move S → World S P D → Prop
  | change (e : End) (selection : S) : Moved C w (.change e selection) (w.change e selection)
  | read (e : End) (ok : Bool) (htransfer : (w.ends e).transfer = none) (hannounced : 0 < (w.ends e).announced) :
    Moved C w (.read e ok) (w.set e ((w.ends e).start C ok))
  | lock (e : End) (t : Transfer P D) (htransfer : (w.ends e).transfer = some t) (hstage : t.stage = .read)
    (hlock : w.lock = none) : Moved C w (.lock e) { w.carry e { t with stage := .locked } with lock := some e }
  | readState (e : End) (t : Transfer P D) (htransfer : (w.ends e).transfer = some t) (hstage : t.stage = .locked) :
    Moved C w (.readState e) (w.carry e { t with stage := .known, destinationDigest := w.recorded e.other })
  | copied (e : End) (t : Transfer P D) (payload : P) (htransfer : (w.ends e).transfer = some t)
    (hstage : t.stage = .known) (hcopy : t.toCopy C = some payload) :
    Moved C w (.copy e true) (w.copied C e t payload)
  | skipped (e : End) (ok : Bool) (t : Transfer P D) (htransfer : (w.ends e).transfer = some t)
    (hstage : t.stage = .known) (hskip : t.toCopy C = none ∨ ok = false) :
    Moved C w (.copy e ok) (w.carry e { t with stage := .copied })
  | writeState (e : End) (t : Transfer P D) (htransfer : (w.ends e).transfer = some t) (hstage : t.stage = .copied) :
    Moved C w (.writeState e)
      { w.carry e { t with stage := .written } with
        file := some
          { source := e
            sourceDigest := t.payload.map C.digest
            destination := e.other
            destinationDigest := t.destinationDigest } }
  | unlock (e : End) (t : Transfer P D) (htransfer : (w.ends e).transfer = some t) (hstage : t.stage = .written) :
    Moved C w (.unlock e) { w.set e { w.ends e with transfer := none } with lock := none }

theorem step_cases (h : w.step C m = some w') : w.Moved C m w' := by
  cases m with
  | change e selection =>
    obtain rfl := Option.some.inj h
    exact .change e selection
  | read e ok =>
    change (if _ then _ else _) = _ at h
    split at h
    · next hread =>
      obtain rfl := Option.some.inj h
      exact .read e ok (Option.isNone_iff_eq_none.1 hread.1) hread.2
    · cases h
  | lock e =>
    change (if _ then _ else _) = _ at h
    split at h
    · next hlock =>
      obtain ⟨t, ht, rfl⟩ := Option.map_eq_some_iff.1 h
      exact .lock e t (at?_eq.1 ht).1 (at?_eq.1 ht).2 hlock
    · cases h
  | readState e =>
    obtain ⟨t, ht, rfl⟩ := Option.map_eq_some_iff.1 h
    have hmoved := Moved.readState (C := C) e t (at?_eq.1 ht).1 (at?_eq.1 ht).2
    rwa [recorded, End.other_other] at hmoved
  | copy e ok =>
    obtain ⟨t, ht, rfl⟩ := Option.map_eq_some_iff.1 h
    obtain ⟨htransfer, hstage⟩ := at?_eq.1 ht
    cases hcopy : t.toCopy C with
    | none => exact .skipped e ok t htransfer hstage (Or.inl hcopy)
    | some payload =>
      cases ok with
      | true => exact .copied e t payload htransfer hstage hcopy
      | false => exact .skipped e false t htransfer hstage (Or.inr rfl)
  | writeState e =>
    obtain ⟨t, ht, rfl⟩ := Option.map_eq_some_iff.1 h
    exact .writeState e t (at?_eq.1 ht).1 (at?_eq.1 ht).2
  | unlock e =>
    obtain ⟨t, ht, rfl⟩ := Option.map_eq_some_iff.1 h
    exact .unlock e t (at?_eq.1 ht).1 (at?_eq.1 ht).2

theorem Exclusive.move (hx : w.Exclusive) (h : w.Moved C m w') : w'.Exclusive := by
  cases h with
  | change e selection =>
    refine End.both e ?_ ?_
    · simpa [World.change] using hx e
    · simpa [World.change] using hx e.other
  | read e ok htransfer =>
    refine End.both e ?_ ?_
    · simpa [Endpoint.start, htransfer] using hx e
    · simpa using hx e.other
  | lock e t htransfer hstage hlock =>
    refine End.both e (by simp) ?_
    have hother := hx e.other
    rw [hlock] at hother
    simpa using hother
  | readState e t htransfer hstage =>
    refine End.both e ?_ ?_
    · simpa [htransfer, hstage] using hx e
    · simpa using hx e.other
  | copied e t payload htransfer hstage hcopy =>
    refine End.both e ?_ ?_
    · simpa [htransfer, hstage] using hx e
    · simpa using hx e.other
  | skipped e ok t htransfer hstage hskip =>
    refine End.both e ?_ ?_
    · simpa [htransfer, hstage] using hx e
    · simpa using hx e.other
  | writeState e t htransfer hstage =>
    refine End.both e ?_ ?_
    · simpa [htransfer, hstage] using hx e
    · simpa using hx e.other
  | unlock e t htransfer hstage =>
    refine End.both e (by simp) ?_
    simpa using fun t' ht' => hx.other htransfer (by simp [hstage]) ht'

end Moves

end World

/-! ## Where transfers and selections come from -/

/-- A transfer read a selection its source had, and the last one if nothing is announced. -/
structure Transfer.KeptBy (C : Clipboard S P D) (t : Transfer P D) (p : Endpoint S P D) : Prop where
  version_le : t.version ≤ p.changes
  payload : t.payload = none ∨ t.payload = C.read (p.held t.version)
  current : p.announced = 0 → t.version = p.changes
  put_le : ∀ v, p.put = some v → v ≤ t.version

structure Endpoint.Kept (C : Clipboard S P D) (p : Endpoint S P D) : Prop where
  transfer : ∀ t, p.transfer = some t → t.KeptBy C p
  put_le : ∀ v, p.put = some v → v ≤ p.changes

/-- A selection with this payload was put from here, and perhaps others later. -/
def Endpoint.Gave (C : Clipboard S P D) (p : Endpoint S P D) (v : Nat) (payload : Option P) : Prop :=
  C.read (p.held v) = payload ∧ ∃ v', p.put = some v' ∧ v ≤ v'

structure Endpoint.Traced (C : Clipboard S P D) (p other : Endpoint S P D) : Prop where
  selection : ∀ v, p.origin = some v → other.Gave C v (C.read p.selection)
  transfer : ∀ t v, p.transfer = some t → t.origin = some v → other.Gave C v (C.read (p.held t.version))

theorem Transfer.KeptBy.read {t : Transfer P D} {p : Endpoint S P D} {payload : P} (hk : t.KeptBy C p)
    (hpayload : t.payload = some payload) : C.read (p.held t.version) = some payload := by
  rcases hk.payload with hnone | hread
  · rw [hnone] at hpayload
    cases hpayload
  · rw [← hread, hpayload]

namespace Endpoint

variable {p other : Endpoint S P D} {t t' : Transfer P D}

theorem Kept.change (hp : p.Kept C) (selection : S) (from? : Option Nat) : (p.change selection from?).Kept C where
  transfer t ht := by
    have hk := hp.transfer t ht
    refine ⟨Nat.le_succ_of_le hk.version_le, ?_, fun h => absurd h (Nat.succ_ne_zero _), hk.put_le⟩
    rw [p.change_held selection from? hk.version_le]
    exact hk.payload
  put_le v hv := Nat.le_succ_of_le (hp.put_le v hv)

theorem Kept.start (hp : p.Kept C) (ok : Bool) : (p.start C ok).Kept C where
  transfer t ht := by
    obtain rfl := Option.some.inj ht
    refine ⟨Nat.le_refl _, ?_, fun _ => rfl, hp.put_le⟩
    cases ok
    · exact Or.inl rfl
    · exact Or.inr rfl
  put_le := hp.put_le

/-- The steps of a transfer after the first one leave what it read as it is. -/
theorem Kept.carry (hp : p.Kept C) (ht : p.transfer = some t) (hpayload : t'.payload = t.payload)
    (hversion : t'.version = t.version) : ({ p with transfer := some t' } : Endpoint S P D).Kept C where
  transfer u hu := by
    obtain rfl := Option.some.inj hu
    have hk := hp.transfer t ht
    exact ⟨hversion ▸ hk.version_le, by rw [hpayload, hversion]; exact hk.payload, hversion ▸ hk.current,
      hversion ▸ hk.put_le⟩
  put_le := hp.put_le

theorem Kept.put (hp : p.Kept C) (ht : p.transfer = some t) :
    ({ p with put := some t.version } : Endpoint S P D).Kept C where
  transfer u hu := by
    have hk := hp.transfer u hu
    obtain rfl := Option.some.inj (ht.symm.trans hu)
    exact ⟨hk.version_le, hk.payload, hk.current, fun v hv => Nat.le_of_eq (Option.some.inj hv).symm⟩
  put_le v hv := Option.some.inj hv ▸ (hp.transfer t ht).version_le

theorem Kept.copied (hp : p.Kept C) (n : Nat) : ({ p with copied := n } : Endpoint S P D).Kept C where
  transfer t ht :=
    have hk := hp.transfer t ht
    ⟨hk.version_le, hk.payload, hk.current, hk.put_le⟩
  put_le := hp.put_le

theorem Kept.finish (hp : p.Kept C) : ({ p with transfer := none } : Endpoint S P D).Kept C where
  transfer t ht := by cases ht
  put_le := hp.put_le

theorem Gave.change (hp : p.Kept C) {v : Nat} {payload : Option P} (hg : p.Gave C v payload) (selection : S)
    (from? : Option Nat) : (p.change selection from?).Gave C v payload := by
  obtain ⟨hread, v', hput, hle⟩ := hg
  refine ⟨?_, v', hput, hle⟩
  rw [p.change_held selection from? (Nat.le_trans hle (hp.put_le v' hput))]
  exact hread

theorem Gave.put (hp : p.Kept C) (ht : p.transfer = some t) {v : Nat} {payload : Option P} (hg : p.Gave C v payload)
    (transfer : Option (Transfer P D)) :
    ({ p with transfer := transfer, put := some t.version } : Endpoint S P D).Gave C v payload := by
  obtain ⟨hread, v', hput, hle⟩ := hg
  exact ⟨hread, t.version, rfl, Nat.le_trans hle ((hp.transfer t ht).put_le v' hput)⟩

theorem Traced.mono {other' : Endpoint S P D} (htr : p.Traced C other)
    (hg : ∀ v payload, other.Gave C v payload → other'.Gave C v payload) : p.Traced C other' :=
  ⟨fun v hv => hg _ _ (htr.selection v hv), fun t v ht hv => hg _ _ (htr.transfer t v ht hv)⟩

theorem Traced.change (hp : p.Kept C) (htr : p.Traced C other) (selection : S) (from? : Option Nat)
    (hfrom : ∀ v, from? = some v → other.Gave C v (C.read selection)) : (p.change selection from?).Traced C other where
  selection v hv := by
    rw [change_selection]
    exact hfrom v hv
  transfer t v ht hv := by
    rw [p.change_held selection from? (hp.transfer t ht).version_le]
    exact htr.transfer t v ht hv

theorem Traced.start (htr : p.Traced C other) (ok : Bool) : (p.start C ok).Traced C other where
  selection := htr.selection
  transfer t v ht hv := by
    obtain rfl := Option.some.inj ht
    exact htr.selection v hv

theorem Traced.carry (htr : p.Traced C other) (ht : p.transfer = some t) (hversion : t'.version = t.version)
    (horigin : t'.origin = t.origin) : ({ p with transfer := some t' } : Endpoint S P D).Traced C other where
  selection := htr.selection
  transfer u v hu hv := by
    obtain rfl := Option.some.inj hu
    rw [hversion]
    exact htr.transfer t v ht (horigin ▸ hv)

theorem Traced.finish (htr : p.Traced C other) : ({ p with transfer := none } : Endpoint S P D).Traced C other where
  selection := htr.selection
  transfer t v ht := by cases ht

end Endpoint

namespace World

section Origins

variable [DecidableEq D] {w w' : World S P D} {e : End} {m : Move S}

structure Sound (C : Clipboard S P D) (w : World S P D) : Prop where
  exclusive : w.Exclusive
  kept : ∀ e, (w.ends e).Kept C
  traced : ∀ e, (w.ends e).Traced C (w.ends e.other)
  copies : ∀ c ∈ w.copies, c.version ≤ (w.ends c.source).changes ∧
    C.read ((w.ends c.source).held c.version) = some c.payload

theorem Transfer.toCopy_payload {t : Transfer P D} {payload : P} (h : t.toCopy C = some payload) :
    t.payload = some payload := (Option.filter_eq_some_iff.1 h).1

theorem Sound.read_copied {t : Transfer P D} {payload : P} (hs : w.Sound C) (ht : (w.ends e).transfer = some t)
    (hcopy : t.toCopy C = some payload) : C.read ((w.ends e).held t.version) = some payload :=
  ((hs.kept e).transfer t ht).read (Transfer.toCopy_payload hcopy)

/-- What a move does to the ends and to the copies, whatever it does to the lock and the file. -/
inductive Touched (C : Clipboard S P D) (w w' : World S P D) : Prop
  | change (e : End) (selection : S) (hends : w'.ends = (w.change e selection).ends) (hcopies : w'.copies = w.copies)
  | start (e : End) (ok : Bool) (hends : w'.ends = (w.set e ((w.ends e).start C ok)).ends)
    (hcopies : w'.copies = w.copies)
  | carry (e : End) (t t' : Transfer P D) (htransfer : (w.ends e).transfer = some t)
    (hends : w'.ends = (w.carry e t').ends) (hcopies : w'.copies = w.copies) (hpayload : t'.payload = t.payload)
    (hversion : t'.version = t.version) (horigin : t'.origin = t.origin)
  | copied (e : End) (t : Transfer P D) (payload : P) (htransfer : (w.ends e).transfer = some t)
    (hcopy : t.toCopy C = some payload) (h : w' = w.copied C e t payload)
  | finish (e : End) (hends : w'.ends = (w.set e { w.ends e with transfer := none }).ends)
    (hcopies : w'.copies = w.copies)

theorem Moved.touched (h : w.Moved C m w') : Touched C w w' := by
  cases h with
  | change e selection => exact .change e selection rfl rfl
  | read e ok htransfer => exact .start e ok rfl rfl
  | lock e t htransfer => exact .carry e t _ htransfer rfl rfl rfl rfl rfl
  | readState e t htransfer => exact .carry e t _ htransfer rfl rfl rfl rfl rfl
  | copied e t payload htransfer hstage hcopy => exact .copied e t payload htransfer hcopy rfl
  | skipped e ok t htransfer => exact .carry e t _ htransfer rfl rfl rfl rfl rfl
  | writeState e t htransfer => exact .carry e t _ htransfer rfl rfl rfl rfl rfl
  | unlock e t htransfer => exact .finish e rfl rfl

theorem Sound.kept_move (hs : w.Sound C) (h : Touched C w w') : ∀ e, (w'.ends e).Kept C := by
  have hk := hs.kept
  cases h with
  | change e selection hends =>
    rw [hends]
    refine End.both e ?_ ?_
    · simpa [World.change] using (hk e).change selection none
    · simpa [World.change] using hk e.other
  | start e ok hends =>
    rw [hends]
    refine End.both e ?_ ?_
    · simpa using (hk e).start ok
    · simpa using hk e.other
  | carry e t t' htransfer hends hcopies hpayload hversion horigin =>
    rw [hends]
    refine End.both e ?_ ?_
    · simpa using (hk e).carry htransfer hpayload hversion
    · simpa using hk e.other
  | copied e t payload htransfer hcopy h =>
    rw [h]
    refine End.both e ?_ ?_
    · rw [copied_self]
      exact ((hk e).put htransfer).carry htransfer rfl rfl
    · simpa using ((hk e.other).change (C.offer payload) (some t.version)).copied _
  | finish e hends =>
    rw [hends]
    refine End.both e ?_ ?_
    · simpa using (hk e).finish
    · simpa using hk e.other

theorem Sound.traced_move (hs : w.Sound C) (h : Touched C w w') :
    ∀ e, (w'.ends e).Traced C (w'.ends e.other) := by
  have hk := hs.kept
  have ht := hs.traced
  cases h with
  | change e selection hends =>
    rw [hends]
    refine End.both e ?_ ?_
    · simpa [World.change] using (ht e).change (hk e) selection none (by simp)
    · simpa [World.change] using (ht e.other).mono fun v payload hg => by
        rw [End.other_other] at hg
        exact hg.change (hk e) selection none
  | start e ok hends =>
    rw [hends]
    refine End.both e ?_ ?_
    · simpa using (ht e).start ok
    · have hother := ht e.other
      rw [End.other_other] at hother
      simpa using (⟨hother.selection, hother.transfer⟩ : (w.ends e.other).Traced C ((w.ends e).start C ok))
  | carry e t t' htransfer hends hcopies hpayload hversion horigin =>
    rw [hends]
    refine End.both e ?_ ?_
    · simpa using (ht e).carry htransfer hversion horigin
    · have hother := ht e.other
      rw [End.other_other] at hother
      rw [End.other_other, carry_self, carry_other]
      exact ⟨hother.selection, hother.transfer⟩
  | copied e t payload htransfer hcopy h =>
    rw [h]
    have hread := hs.read_copied htransfer hcopy
    have hself : Endpoint.Traced C { w.ends e with
        transfer := some { t with stage := .copied, destinationDigest := some (C.digest payload) } } (w.ends e.other) :=
      (ht e).carry htransfer rfl rfl
    have hother := ht e.other
    rw [End.other_other] at hother
    refine End.both e ?_ ?_
    · rw [copied_self, copied_other]
      have hchanged := hself.mono fun v payload' hg => hg.change (hk e.other) (C.offer payload) (some t.version)
      exact ⟨hchanged.selection, hchanged.transfer⟩
    · rw [End.other_other, copied_self, copied_other]
      have hput := hother.mono fun v payload' hg => hg.put (hk e) htransfer
        (some { t with stage := .copied, destinationDigest := some (C.digest payload) })
      have hchanged := hput.change (hk e.other) (C.offer payload) (some t.version) fun v hv => by
        obtain rfl := Option.some.inj hv
        rw [C.read_offer]
        exact ⟨hread, t.version, rfl, Nat.le_refl _⟩
      exact ⟨hchanged.selection, hchanged.transfer⟩
  | finish e hends =>
    rw [hends]
    refine End.both e ?_ ?_
    · simpa using (ht e).finish
    · have hother := ht e.other
      rw [End.other_other] at hother
      rw [End.other_other, set_self, set_other]
      exact ⟨hother.selection, hother.transfer⟩

theorem Touched.held (h : Touched C w w') :
    ∀ e v, v ≤ (w.ends e).changes → v ≤ (w'.ends e).changes ∧ (w'.ends e).held v = (w.ends e).held v := by
  cases h with
  | change e selection hends =>
    rw [hends]
    refine End.both e ?_ ?_
    · intro v hv
      rw [World.change, set_self]
      exact ⟨Nat.le_succ_of_le hv, Endpoint.change_held _ _ _ hv⟩
    · intro v hv
      simpa [World.change] using hv
  | start e ok hends =>
    rw [hends]
    refine End.both e ?_ ?_
    · intro v hv
      rw [set_self]
      exact ⟨hv, rfl⟩
    · intro v hv
      simpa using hv
  | carry e t t' htransfer hends =>
    rw [hends]
    refine End.both e ?_ ?_
    · intro v hv
      simpa using hv
    · intro v hv
      simpa using hv
  | copied e t payload htransfer hcopy h =>
    rw [h]
    refine End.both e ?_ ?_
    · intro v hv
      simpa using hv
    · intro v hv
      rw [copied_other]
      exact ⟨Nat.le_succ_of_le hv, Endpoint.change_held _ (C.offer payload) (some t.version) hv⟩
  | finish e hends =>
    rw [hends]
    refine End.both e ?_ ?_
    · intro v hv
      simpa using hv
    · intro v hv
      simpa using hv

theorem Touched.copies (h : Touched C w w') :
    w'.copies = w.copies ∨ ∃ e t payload, (w.ends e).transfer = some t ∧ t.toCopy C = some payload ∧
      w'.copies = ⟨e, t.version, payload⟩ :: w.copies := by
  cases h with
  | copied e t payload htransfer hcopy h => exact Or.inr ⟨e, t, payload, htransfer, hcopy, by rw [h, copied_copies]⟩
  | change _ _ _ hcopies => exact Or.inl hcopies
  | start _ _ _ hcopies => exact Or.inl hcopies
  | carry _ _ _ _ _ hcopies => exact Or.inl hcopies
  | finish _ _ hcopies => exact Or.inl hcopies

theorem Sound.move (hs : w.Sound C) (h : w.Moved C m w') : w'.Sound C where
  exclusive := hs.exclusive.move h
  kept := hs.kept_move h.touched
  traced := hs.traced_move h.touched
  copies := by
    have hheld := h.touched.held
    have hold : ∀ c ∈ w.copies, c.version ≤ (w'.ends c.source).changes ∧
        C.read ((w'.ends c.source).held c.version) = some c.payload := by
      intro c hc
      obtain ⟨hle, hread⟩ := hs.copies c hc
      obtain ⟨hle', hsame⟩ := hheld c.source c.version hle
      exact ⟨hle', by rw [hsame, hread]⟩
    rcases h.touched.copies with hsame | ⟨e, t, payload, htransfer, hcopy, hcons⟩
    · rw [hsame]
      exact hold
    · rw [hcons]
      intro c hc
      rcases List.mem_cons.1 hc with rfl | hc
      · obtain ⟨hle, hsame⟩ := hheld e t.version ((hs.kept e).transfer t htransfer).version_le
        exact ⟨hle, by rw [hsame, hs.read_copied htransfer hcopy]⟩
      · exact hold c hc

theorem init_ends (outer inner : S) (e : End) :
    ∃ selection, (relay C outer inner).init.ends e = { held := fun _ => selection } := by
  cases e
  · exact ⟨outer, rfl⟩
  · exact ⟨inner, rfl⟩

theorem sound_init (outer inner : S) : (relay C outer inner).init.Sound C where
  exclusive e := by
    obtain ⟨selection, hinit⟩ := init_ends (C := C) outer inner e
    rw [hinit]
    exact ⟨nofun, fun ⟨_, ht, _⟩ => nomatch ht⟩
  kept e := by
    obtain ⟨selection, hinit⟩ := init_ends (C := C) outer inner e
    rw [hinit]
    exact ⟨nofun, nofun⟩
  traced e := by
    obtain ⟨selection, hinit⟩ := init_ends (C := C) outer inner e
    rw [hinit]
    exact ⟨nofun, nofun⟩
  copies := nofun

theorem sound_reachable {outer inner : S} (h : (relay C outer inner).Reachable w) : w.Sound C :=
  h.invariant (sound_init outer inner) fun _ _ _ hs hst => hs.move (step_cases hst)

end Origins

end World

end Relay

end CocoaWay.GuestClipboard
