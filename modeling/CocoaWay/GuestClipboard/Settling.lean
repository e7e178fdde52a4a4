import CocoaWay.GuestClipboard.Agreement
import CocoaWay.GuestClipboard.Echo
import Mathlib.Data.Bool.Basic

/-!
# The relay comes to rest

* `work` : the steps that are left, as long as no copy is made;
* `stray` : a transfer that may put on the other end what its end has no more;
* `Synced` : both ends have one payload, and the relay knows it; `Budget` : the copies that may still be made;
* `selections_relayed` : what holds in every run in which transfers do not cross and the relay does not forget an end;
* `swap` : two transfers that cross exchange the selections, and leave two that may cross again.
-/

namespace CocoaWay.GuestClipboard
open Lib System

section Relay

variable {S P D : Type} {C : Clipboard S P D}

def Stage.left : Stage → Nat
  | .read => 5
  | .locked => 4
  | .known => 3
  | .copied => 2
  | .written => 1

def Endpoint.work (p : Endpoint S P D) : Nat := 6 * p.announced + p.transfer.elim 0 fun t => t.stage.left

/-- The transfer has not come to its copy, and read nothing, or what its end has replaced otherwise than by a copy. -/
def Endpoint.stray (p : Endpoint S P D) : Bool :=
  p.transfer.any fun t => decide (2 < t.stage.left) &&
    (t.payload.isNone || decide (p.copied ≤ t.version ∧ t.version ≠ p.changes))

theorem Endpoint.stray_iff {p : Endpoint S P D} {t : Transfer P D} (ht : p.transfer = some t)
    (hleft : 2 < t.stage.left) :
    p.stray = true ↔ t.payload = none ∨ p.copied ≤ t.version ∧ t.version ≠ p.changes := by
  simp [Endpoint.stray, ht, hleft]

theorem Transfer.toCopy_eq_none [DecidableEq D] {t : Transfer P D} {payload : P} (hpayload : t.payload = some payload) :
    t.toCopy C = none ↔ t.destinationDigest = some (C.digest payload) := by
  simp [Transfer.toCopy, hpayload]

namespace World

variable {w w' : World S P D} {e : End} {m : Move S}

def work (w : World S P D) : Nat := (w.ends .outer).work + (w.ends .inner).work

theorem work_eq (w : World S P D) (e : End) : w.work = (w.ends e).work + (w.ends e.other).work := by
  cases e
  · rfl
  · exact Nat.add_comm _ _

def strays (w : World S P D) : Nat := (w.ends .outer).stray.toNat + (w.ends .inner).stray.toNat

theorem strays_eq (w : World S P D) (e : End) :
    w.strays = (w.ends e).stray.toNat + (w.ends e.other).stray.toNat := by
  cases e
  · rfl
  · exact Nat.add_comm _ _

theorem strays_le (e : End) (hself : (w'.ends e).stray = true → (w.ends e).stray = true)
    (hother : (w'.ends e.other).stray = true → (w.ends e.other).stray = true) : w'.strays ≤ w.strays := by
  rw [strays_eq w' e, strays_eq w e]
  exact Nat.add_le_add (Bool.toNat_le_toNat hself) (Bool.toNat_le_toNat hother)

/-- Both ends have a payload, and nothing else is known of them. -/
structure Synced (C : Clipboard S P D) (payload : P) (w : World S P D) : Prop where
  selection : ∀ e, C.read (w.ends e).selection = some payload
  known : ∀ e t, (w.ends e).transfer = some t → t.stage = .known ∨ t.stage = .copied →
    t.destinationDigest = some (C.digest payload)
  copied : ∀ e t, (w.ends e).transfer = some t → t.stage = .copied → t.payload = some payload
  recorded : (∀ e, w.recorded e = some (C.digest payload)) ∨ ∃ e t, (w.ends e).transfer = some t ∧ t.stage = .copied

/-- Unless a transfer is to write, the file has the payload for both ends. -/
theorem Synced.file {payload : P} {t : Transfer P D} (hy : w.Synced C payload) (hx : w.Exclusive)
    (ht : (w.ends e).transfer = some t) (hread : t.stage ≠ .read) (hcopied : t.stage ≠ .copied) :
    ∀ e, w.recorded e = some (C.digest payload) := by
  refine hy.recorded.resolve_right ?_
  rintro ⟨e', t', ht', hstage⟩
  rcases e.eq_or_other e' with rfl | rfl
  · obtain rfl := Option.some.inj (ht.symm.trans ht')
    exact hcopied hstage
  · rw [hx.other ht hread ht'] at hstage
    cases hstage

/-- A copy may be made until both ends are in sync, and for each stray transfer two more. -/
def Budget (C : Clipboard S P D) (n : Nat) (w : World S P D) : Prop :=
  (∃ payload, w.Synced C payload) ∧ 2 * w.strays ≤ n ∨ 2 * w.strays + 1 ≤ n

/-- A copy replaces what the other end's transfer has read, and its own transfer is done. -/
theorem strays_copied (hs : w.Sound C) (e : End) (t : Transfer P D) (payload : P) :
    (w.copied C e t payload).strays + (w.ends e).stray.toNat ≤ w.strays := by
  have hself : ((w.copied C e t payload).ends e).stray = false := by simp [Endpoint.stray, Stage.left]
  have hother : ((w.copied C e t payload).ends e.other).stray = true → (w.ends e.other).stray = true := by
    rw [copied_other]
    cases hother : (w.ends e.other).transfer with
    | none => simp [Endpoint.stray, hother]
    | some u =>
      have hle := ((hs.kept e.other).transfer u hother).version_le
      have hcrossed : ¬(w.ends e.other).changes + 1 ≤ u.version := by omega
      simp only [Endpoint.stray, Endpoint.change_transfer, Endpoint.change_changes, hother, Option.any_some, hcrossed,
        false_and, decide_false, Bool.or_false, Bool.and_eq_true, Bool.or_eq_true]
      exact fun h => ⟨h.1, Or.inl h.2⟩
  have hle := Bool.toNat_le_toNat hother
  rw [strays_eq _ e, strays_eq w e, hself, Bool.toNat_false]
  omega

section Moves

variable [DecidableEq D]

theorem work_move (h : w.Moved C m w') (hm : w.calm C m = true) :
    w'.work + 1 + 6 * w.copies.length = w.work + 6 * w'.copies.length := by
  cases h with
  | change e selection => cases hm
  | read e ok htransfer hannounced =>
    simp [work_eq _ e, Endpoint.work, Endpoint.start, Stage.left, htransfer]
    omega
  | lock e t htransfer hstage hlock =>
    simp [work_eq _ e, Endpoint.work, Stage.left, htransfer, hstage]
    omega
  | readState e t htransfer hstage =>
    simp [work_eq _ e, Endpoint.work, Stage.left, htransfer, hstage]
    omega
  | copied e t payload htransfer hstage hcopy =>
    simp [work_eq _ e, Endpoint.work, Stage.left, htransfer, hstage]
    omega
  | skipped e ok t htransfer hstage hskip =>
    simp [work_eq _ e, Endpoint.work, Stage.left, htransfer, hstage]
    omega
  | writeState e t htransfer hstage =>
    simp [work_eq _ e, Endpoint.work, Stage.left, htransfer, hstage]
    omega
  | unlock e t htransfer hstage =>
    simp [work_eq _ e, Endpoint.work, Stage.left, htransfer, hstage]
    omega

theorem strays_move (hs : w.Sound C) (h : w.Moved C m w') (hm : w.calm C m = true) : w'.strays ≤ w.strays := by
  cases h with
  | change e selection => cases hm
  | read e ok htransfer hannounced =>
    obtain ⟨hok, hread⟩ := Bool.and_eq_true_iff.1 hm
    refine strays_le e ?_ (by simp)
    simp [Endpoint.start, Endpoint.stray, hok, Option.isSome_iff_ne_none.1 hread]
  | lock e t htransfer hstage hlock =>
    refine strays_le e ?_ (by simp)
    simp [Endpoint.stray, htransfer, hstage, Stage.left]
  | readState e t htransfer hstage =>
    refine strays_le e ?_ (by simp)
    simp [Endpoint.stray, htransfer, hstage, Stage.left]
  | copied e t payload htransfer hstage hcopy =>
    exact Nat.le_trans (Nat.le_add_right _ _) (strays_copied hs e t payload)
  | skipped e ok t htransfer hstage hskip =>
    exact strays_le e (by simp [Endpoint.stray, Stage.left]) (by simp)
  | writeState e t htransfer hstage =>
    exact strays_le e (by simp [Endpoint.stray, Stage.left]) (by simp)
  | unlock e t htransfer hstage =>
    exact strays_le e (by simp [Endpoint.stray]) (by simp)

/-- No selection gets out of sync, as long as nothing is copied and no stray transfer comes to its copy. -/
theorem Synced.move {payload : P} (hy : w.Synced C payload) (hs : w.Sound C) (h : w.Moved C m w')
    (hm : w.calm C m = true) (hcopies : w'.copies = w.copies) (hstrays : w.strays ≤ w'.strays) :
    w'.Synced C payload := by
  have hselection := hy.selection
  cases h with
  | change e selection => cases hm
  | read e ok htransfer hannounced =>
    refine ⟨?_, ?_, ?_, ?_⟩
    · refine End.both e ?_ ?_
      · simpa [Endpoint.start, Endpoint.selection] using hselection e
      · simpa using hselection e.other
    · exact End.both e (by simp [Endpoint.start]) (by simpa using hy.known e.other)
    · exact End.both e (by simp [Endpoint.start]) (by simpa using hy.copied e.other)
    · refine hy.recorded.imp_right ?_
      rintro ⟨e', t', ht', hstage⟩
      rcases e.eq_or_other e' with rfl | rfl
      · rw [htransfer] at ht'
        cases ht'
      · exact ⟨e.other, t', by simpa using ht', hstage⟩
  | lock e t htransfer hstage hlock =>
    refine ⟨?_, ?_, ?_, Or.inl (hy.recorded.resolve_right ?_)⟩
    · refine End.both e ?_ ?_
      · simpa [Endpoint.selection] using hselection e
      · simpa using hselection e.other
    · exact End.both e (by simp) (by simpa using hy.known e.other)
    · exact End.both e (by simp) (by simpa using hy.copied e.other)
    · rintro ⟨e', t', ht', hcopied⟩
      have hheld := (hs.exclusive e').2 ⟨t', ht', by simp [hcopied]⟩
      rw [hlock] at hheld
      cases hheld
  | readState e t htransfer hstage =>
    have hfile := hy.file hs.exclusive htransfer (by simp [hstage]) (by simp [hstage])
    refine ⟨?_, ?_, ?_, Or.inl hfile⟩
    · refine End.both e ?_ ?_
      · simpa [Endpoint.selection] using hselection e
      · simpa using hselection e.other
    · exact End.both e (by simp [hfile]) (by simpa using hy.known e.other)
    · exact End.both e (by simp) (by simpa using hy.copied e.other)
  | copied e t payload htransfer hstage hcopy => simp at hcopies
  | skipped e ok t htransfer hstage hskip =>
    have hcopy : t.toCopy C = none := hskip.resolve_right (by simpa [calm] using hm)
    have hknown := hy.known e t htransfer (Or.inl hstage)
    refine ⟨?_, ?_, ?_, Or.inl (hy.file hs.exclusive htransfer (by simp [hstage]) (by simp [hstage]))⟩
    · refine End.both e ?_ ?_
      · simpa [Endpoint.selection] using hselection e
      · simpa using hselection e.other
    · exact End.both e (by simpa using hknown) (by simpa using hy.known e.other)
    · refine End.both e ?_ (by simpa using hy.copied e.other)
      rw [strays_eq w e, strays_eq _ e, carry_self, carry_other] at hstrays
      have hdone : Endpoint.stray { w.ends e with transfer := some { t with stage := .copied } } = false := by
        simp [Endpoint.stray, Stage.left]
      have hstray : (w.ends e).stray = false := by
        rw [hdone, Bool.toNat_false] at hstrays
        exact Bool.toNat_eq_zero.1 (by omega)
      cases hpayload : t.payload with
      | none =>
        rw [(Endpoint.stray_iff htransfer (by simp [hstage, Stage.left])).2 (Or.inl hpayload)] at hstray
        cases hstray
      | some payload' =>
        have hdigest := (Transfer.toCopy_eq_none hpayload).1 hcopy
        rw [hknown] at hdigest
        simp [C.digest_injective (Option.some.inj hdigest)]
  | writeState e t htransfer hstage =>
    have hpayload := hy.copied e t htransfer hstage
    have hknown := hy.known e t htransfer (Or.inr hstage)
    refine ⟨?_, ?_, ?_, Or.inl ?_⟩
    · refine End.both e ?_ ?_
      · simpa [Endpoint.selection] using hselection e
      · simpa using hselection e.other
    · exact End.both e (by simp) (by simpa using hy.known e.other)
    · exact End.both e (by simp) (by simpa using hy.copied e.other)
    · exact End.both e (by simp [hpayload]) (by simp [hknown])
  | unlock e t htransfer hstage =>
    refine ⟨?_, ?_, ?_, Or.inl (hy.file hs.exclusive htransfer (by simp [hstage]) (by simp [hstage]))⟩
    · refine End.both e ?_ ?_
      · simpa [Endpoint.selection] using hselection e
      · simpa using hselection e.other
    · exact End.both e (by simp) (by simpa using hy.known e.other)
    · exact End.both e (by simp) (by simpa using hy.copied e.other)

/-- After a copy of what the source still has, both ends have it. -/
theorem synced_copied {t : Transfer P D} {payload : P} (hs : w.Sound C) (ht : (w.ends e).transfer = some t)
    (hstage : t.stage = .known) (hcopy : t.toCopy C = some payload) (hversion : t.version = (w.ends e).changes) :
    (w.copied C e t payload).Synced C payload := by
  have hread := hs.read_copied ht hcopy
  have hother : ∀ u, (w.ends e.other).transfer = some u → u.stage = .read := fun u hu =>
    hs.exclusive.other ht (by simp [hstage]) hu
  refine ⟨End.both e ?_ ?_, End.both e ?_ ?_, End.both e ?_ ?_, Or.inr ⟨e, _, by rw [copied_self], rfl⟩⟩
  · rw [hversion] at hread
    rw [copied_self]
    exact hread
  · rw [copied_other]
    simpa [Endpoint.selection, Endpoint.change] using C.read_offer payload
  · simp
  · intro u hu hknown
    rw [hother u (by simpa using hu)] at hknown
    simp at hknown
  · simp [Transfer.toCopy_payload hcopy]
  · intro u hu hcopied
    rw [hother u (by simpa using hu)] at hcopied
    cases hcopied

/-- Where both ends are in sync, a transfer that read what its source still has copies nothing. -/
theorem Synced.toCopy_none {t : Transfer P D} {payload : P} (hy : w.Synced C payload) (hs : w.Sound C)
    (ht : (w.ends e).transfer = some t) (hstage : t.stage = .known) (hversion : t.version = (w.ends e).changes) :
    t.toCopy C = none := by
  cases hcopy : t.toCopy C with
  | none => rfl
  | some payload' =>
    have hread := hs.read_copied ht hcopy
    rw [hversion] at hread
    obtain rfl : payload = payload' := Option.some.inj ((hy.selection e).symm.trans hread)
    rw [← hcopy]
    exact (Transfer.toCopy_eq_none (Transfer.toCopy_payload hcopy)).2 (hy.known e t ht (Or.inl hstage))

theorem budget_move {n : Nat} (hs : w.Sound C) (h : w.Moved C m w') (hm : w.calm C m = true)
    (hh : w.heeded C m = true) (hb : w.Budget C n) :
    ∃ n', w'.Budget C n' ∧ w'.copies.length + n' ≤ w.copies.length + n := by
  have hstrays := strays_move hs h hm
  by_cases hcopies : w'.copies = w.copies
  · refine ⟨n, ?_, Nat.le_of_eq (by rw [hcopies])⟩
    by_cases hkept : w.strays ≤ w'.strays
    · rcases hb with ⟨⟨payload, hy⟩, hn⟩ | hn
      · exact Or.inl ⟨⟨payload, hy.move hs h hm hcopies hkept⟩, by omega⟩
      · exact Or.inr (by omega)
    · refine Or.inr ?_
      rcases hb with ⟨-, hn⟩ | hn <;> omega
  · cases h with
    | copied e t payload htransfer hstage hcopy =>
      have hsum := strays_copied hs e t payload
      by_cases hversion : t.version = (w.ends e).changes
      · have hn : 2 * w.strays + 1 ≤ n := by
          refine hb.resolve_left ?_
          rintro ⟨⟨payload', hy⟩, -⟩
          rw [hy.toCopy_none hs htransfer hstage hversion] at hcopy
          cases hcopy
        have hy := synced_copied hs htransfer hstage hcopy hversion
        refine ⟨n - 1, Or.inl ⟨⟨payload, hy⟩, by omega⟩, ?_⟩
        rw [copied_copies, List.length_cons]
        omega
      · have hlast : (w.ends e).copied ≤ t.version := by
          simpa [heeded, at?_eq.2 ⟨htransfer, hstage⟩, hcopy] using hh
        have hstray : (w.ends e).stray = true :=
          (Endpoint.stray_iff htransfer (by simp [hstage, Stage.left])).2 (Or.inr ⟨hlast, hversion⟩)
        rw [hstray, Bool.toNat_true] at hsum
        have hn : 2 * w.strays ≤ n := by
          rcases hb with ⟨-, hn⟩ | hn <;> omega
        refine ⟨n - 1, Or.inr (by omega), ?_⟩
        rw [copied_copies, List.length_cons]
        omega
    | _ => exact absurd rfl hcopies

omit [DecidableEq D] in
theorem budget_start (w : World S P D) : w.Budget C 5 := by
  have houter := Bool.toNat_le (w.ends .outer).stray
  have hinner := Bool.toNat_le (w.ends .inner).stray
  refine Or.inr ?_
  unfold strays
  omega

variable {outer inner : S} {moves : List (Move S)}

theorem run_bounds {n : Nat} (hs : w.Sound C) (hb : w.Budget C n)
    (hr : (relay C outer inner).runWhere (fun w m => w.heeded C m && w.calm C m) w moves = some w') :
    w'.copies.length ≤ w.copies.length + n ∧
      moves.length + w'.work + 6 * w.copies.length = w.work + 6 * w'.copies.length := by
  induction moves generalizing w n with
  | nil =>
    obtain rfl := Option.some.inj hr
    simp
  | cons m moves ih =>
    obtain ⟨hc, u, hst, hr⟩ := runWhere_cons.1 hr
    obtain ⟨hh, hm⟩ := Bool.and_eq_true_iff.1 hc
    have hmoved := step_cases hst
    obtain ⟨n', hb', hle⟩ := budget_move hs hmoved hm hh hb
    obtain ⟨hcopies, hwork⟩ := ih (hs.move hmoved) hb' hr
    have hstep := work_move hmoved hm
    rw [List.length_cons]
    omega

theorem run_agreed (hu : w.Unfailed C) (ha : w.Agreed)
    (hr : (relay C outer inner).runWhere (fun w m => w.heeded C m && w.calm C m) w moves = some w') : w'.Agreed := by
  induction moves generalizing w with
  | nil =>
    obtain rfl := Option.some.inj hr
    exact ha
  | cons m moves ih =>
    obtain ⟨hc, u, hst, hr⟩ := runWhere_cons.1 hr
    have hm := (Bool.and_eq_true_iff.1 hc).2
    exact ih (unfailed_move (step_cases hst) hm hu) (agreed_move (step_cases hst) hm hu ha) hr

end Moves

end World

/-- The moves of the relay in which nothing fails. -/
def Move.relays : Move S → Bool
  | .change _ _ => false
  | .read _ ok => ok
  | .copy _ ok => ok
  | _ => true

namespace World

variable [DecidableEq D] {w w' : World S P D}

/-- Unless nothing is left to do, there is a step that can be done. -/
theorem exists_move (hx : w.Exclusive) (hw : ¬w.AtRest) : ∃ m, m.relays = true ∧ (w.step C m).isSome = true := by
  cases hlock : w.lock with
  | some e =>
    obtain ⟨t, ht, hstage⟩ := (hx e).1 hlock
    have hat : w.at? e t.stage = some t := at?_eq.2 ⟨ht, rfl⟩
    cases hs : t.stage with
    | read => exact absurd hs hstage
    | locked => exact ⟨.readState e, rfl, by simp [step, readState, ← hs, hat]⟩
    | known => exact ⟨.copy e true, rfl, by simp [step, copy, ← hs, hat]⟩
    | copied => exact ⟨.writeState e, rfl, by simp [step, writeState, ← hs, hat]⟩
    | written => exact ⟨.unlock e, rfl, by simp [step, unlock, ← hs, hat]⟩
  | none =>
    obtain ⟨e, he⟩ : ∃ e, (w.ends e).transfer = none → (w.ends e).announced ≠ 0 := by
      simpa [AtRest] using hw
    cases ht : (w.ends e).transfer with
    | none => exact ⟨.read e true, rfl, by simp [step, read, ht, Nat.pos_of_ne_zero (he ht)]⟩
    | some t =>
      have hstage : t.stage = .read := by
        by_contra hne
        have hheld := (hx e).2 ⟨t, ht, hne⟩
        rw [hlock] at hheld
        cases hheld
      exact ⟨.lock e, rfl, by simp [step, takeLock, hlock, at?_eq.2 ⟨ht, hstage⟩]⟩

/-- Whatever users select, in whatever order the transfers go, and whatever fails: what is copied was selected, nothing
is copied back, and the relay comes to rest with one selection at both ends. -/
theorem selections_relayed {outer inner : S}
    (h : (relay C outer inner).ReachableWhere (fun w m => w.heeded C m = true) w) :
    (∀ c ∈ w.copies, C.read ((w.ends c.source).held c.version) = some c.payload) ∧
    (∀ e t, w.at? e .known = some t → t.origin = some (w.ends e.other).changes → t.toCopy C = none) ∧
    ∀ moves w', (relay C outer inner).runWhere (fun w m => w.heeded C m && w.calm C m) w moves = some w' →
      w'.copies.length ≤ w.copies.length + 5 ∧ moves.length ≤ w.work + 30 ∧
      (w'.AtRest ∨ ∃ m, m.relays = true ∧ (w'.step C m).isSome = true) ∧
      ((∃ e, (w.ends e).pending = true) → w.Unfailed C → w'.AtRest →
        ∃ payload, ∀ e, C.read (w'.ends e).selection = some payload) := by
  have hs := sound_reachable h.reachable
  refine ⟨fun c hc => (hs.copies c hc).2, fun e t => echo_skipped hs (remembered_reachable h), fun moves w' hr => ?_⟩
  have hheeded := runWhere_mono (fun w m hc => (Bool.and_eq_true_iff.1 hc).1) hr
  have hreachable := (h.runWhere hheeded).reachable
  obtain ⟨hcopies, hwork⟩ := run_bounds hs (budget_start w) hr
  refine ⟨hcopies, by omega, ?_, fun hpending hu hrest => ?_⟩
  · by_cases hrest : w'.AtRest
    · exact Or.inl hrest
    · exact Or.inr (exists_move (sound_reachable hreachable).exclusive hrest)
  · exact hrest.agree (current_reachable hreachable) (run_agreed hu (Or.inl hpending) hr)

/-! ## Transfers that cross -/

/-- A transfer that makes a copy, from its first step to its last. -/
theorem transfer_run (outer inner : S) {e : End} {t : Transfer P D} {payload : P} (ht : (w.ends e).transfer = some t)
    (hstage : t.stage = .read) (hlock : w.lock = none) (hpayload : t.payload = some payload)
    (hrecorded : w.recorded e.other ≠ some (C.digest payload)) :
    ∃ moves w', (relay C outer inner).runWhere (World.calm C) w moves = some w' ∧ w'.lock = none ∧
      w'.ends e = { w.ends e with transfer := none, put := some t.version } ∧
      w'.ends e.other =
        { (w.ends e.other).change (C.offer payload) (some t.version) with copied := (w.ends e.other).changes + 1 } ∧
      (∀ e, w'.recorded e = some (C.digest payload)) ∧ w'.copies.length = w.copies.length + 1 := by
  let t₁ : Transfer P D := { t with stage := .locked }
  let w₁ : World S P D := { w.carry e t₁ with lock := some e }
  let t₂ : Transfer P D := { t₁ with stage := .known, destinationDigest := destinationDigest w₁.file e e.other }
  let w₂ := w₁.carry e t₂
  let w₃ := w₂.copied C e t₂ payload
  let t₃ : Transfer P D := { t₂ with stage := .copied, destinationDigest := some (C.digest payload) }
  let w₄ : World S P D :=
    { w₃.carry e { t₃ with stage := .written } with
      file := some ⟨e, t₃.payload.map C.digest, e.other, t₃.destinationDigest⟩ }
  let w₅ : World S P D := { w₄.set e { w₄.ends e with transfer := none } with lock := none }
  have hcopy : t₂.toCopy C = some payload := by
    rw [recorded, End.other_other] at hrecorded
    exact Option.filter_eq_some_iff.2 ⟨hpayload, decide_eq_true hrecorded⟩
  have h₁ : w.step C (.lock e) = some w₁ := by simp [step, takeLock, hlock, at?_eq.2 ⟨ht, hstage⟩, w₁, t₁]
  have h₂ : w₁.step C (.readState e) = some w₂ := by
    have hat : w₁.at? e .locked = some t₁ := at?_eq.2 ⟨by simp [w₁], rfl⟩
    simp [step, readState, hat, w₂, t₂]
  have h₃ : w₂.step C (.copy e true) = some w₃ := by
    have hat : w₂.at? e .known = some t₂ := at?_eq.2 ⟨by simp [w₂], rfl⟩
    simp [step, copy, hat, hcopy, w₃]
  have h₄ : w₃.step C (.writeState e) = some w₄ := by
    have hat : w₃.at? e .copied = some t₃ := at?_eq.2 ⟨by simp [w₃, t₃], rfl⟩
    simp [step, writeState, hat, w₄]
  have h₅ : w₄.step C (.unlock e) = some w₅ := by
    have hat : w₄.at? e .written = some { t₃ with stage := .written } := at?_eq.2 ⟨by simp [w₄], rfl⟩
    simp [step, unlock, hat, w₅]
  refine ⟨[.lock e, .readState e, .copy e true, .writeState e, .unlock e], w₅, ?_, rfl, ?_, ?_, ?_, rfl⟩
  · refine runWhere_cons.2 ⟨rfl, w₁, h₁, runWhere_cons.2 ⟨rfl, w₂, h₂, runWhere_cons.2 ⟨rfl, w₃, h₃, ?_⟩⟩⟩
    exact runWhere_cons.2 ⟨rfl, w₄, h₄, runWhere_cons.2 ⟨rfl, w₅, h₅, rfl⟩⟩
  · simp [w₅, w₄, w₃, w₂, w₁, t₂, t₁]
  · simp [w₅, w₄, w₃, w₂, w₁, t₂, t₁]
  · exact End.both e (by simp [w₅, w₄, t₃, t₂, t₁, hpayload, recorded, destinationDigest])
      (by simp [w₅, w₄, t₃, recorded, destinationDigest])

/-- Two watchers that each have one change to transfer, to ends that are not known to have it. -/
structure Poised (C : Clipboard S P D) (e : End) (p q : P) (w : World S P D) : Prop where
  selection : C.read (w.ends e).selection = some p
  selection_other : C.read (w.ends e.other).selection = some q
  idle : ∀ e, (w.ends e).transfer = none ∧ (w.ends e).announced = 1
  lock : w.lock = none
  recorded : w.recorded e.other ≠ some (C.digest p)

/-- Two transfers that cross exchange the selections, and leave two watchers that may do it again. -/
theorem Poised.swap (outer inner : S) {e : End} {p q : P} (hpq : p ≠ q) (h : w.Poised C e p q) :
    ∃ moves w', (relay C outer inner).runWhere (World.calm C) w moves = some w' ∧ w'.Poised C e.other p q ∧
      w'.copies.length = w.copies.length + 2 := by
  have hdigest : C.digest p ≠ C.digest q := fun hsame => hpq (C.digest_injective hsame)
  let w₁ := w.set e ((w.ends e).start C true)
  let w₂ := w₁.set e.other ((w.ends e.other).start C true)
  have hends : w₂.ends e = (w.ends e).start C true ∧ w₂.ends e.other = (w.ends e.other).start C true := by
    refine ⟨?_, by simp [w₂]⟩
    have hother := set_other w₁ e.other ((w.ends e.other).start C true)
    rwa [End.other_other, set_self] at hother
  have h₁ : w.step C (.read e true) = some w₁ := by simp [step, read, (h.idle e).1, (h.idle e).2, w₁]
  have h₂ : w₁.step C (.read e.other true) = some w₂ := by
    simp [step, read, (h.idle e.other).1, (h.idle e.other).2, w₂, w₁]
  have hreads : (relay C outer inner).runWhere (World.calm C) w [.read e true, .read e.other true] = some w₂ := by
    refine runWhere_cons.2 ⟨by simp [calm, h.selection], w₁, h₁, runWhere_cons.2 ⟨?_, w₂, h₂, rfl⟩⟩
    simp [calm, w₁, h.selection_other]
  -- The transfer of one end goes first, and the other one then puts back what it had read before.
  obtain ⟨moves₃, w₃, hrun₃, hlock₃, hself₃, hother₃, hrecorded₃, hcopies₃⟩ :=
    transfer_run (C := C) (w := w₂) outer inner (by rw [hends.1]; rfl) rfl h.lock h.selection h.recorded
  obtain ⟨moves₄, w₄, hrun₄, hlock₄, hself₄, hother₄, hrecorded₄, hcopies₄⟩ :=
    transfer_run (C := C) (w := w₃) outer inner (by rw [hother₃, hends.2]; rfl) rfl hlock₃ h.selection_other
      (by simpa [hrecorded₃] using hdigest)
  rw [End.other_other] at hother₄
  refine ⟨_, w₄, runWhere_append hreads (runWhere_append hrun₃ hrun₄), ⟨?_, ?_, ?_, hlock₄, ?_⟩, ?_⟩
  · rw [hself₄, hother₃]
    simpa [Endpoint.selection, Endpoint.change] using C.read_offer p
  · rw [End.other_other, hother₄]
    simpa [Endpoint.selection, Endpoint.change] using C.read_offer q
  · refine End.both e ?_ ?_
    · simp [hother₄, hself₃, hends.1, Endpoint.start, (h.idle e).2]
    · simp [hself₄, hother₃, hends.2, Endpoint.start, (h.idle e.other).2]
  · rw [hrecorded₄]
    exact fun hsame => hdigest (Option.some.inj hsame).symm
  · rw [hcopies₄, hcopies₃]
    rfl

theorem swaps_forever {outer inner : S} {p q : P} (hp : C.read outer = some p) (hq : C.read inner = some q)
    (hpq : p ≠ q) : ∃ run : Nat → World S P D, run 0 = (relay C outer inner).init ∧
      ∀ n, ∃ moves, (relay C outer inner).runWhere (World.calm C) (run n) moves = some (run (n + 1)) ∧
        (run (n + 1)).copies.length = (run n).copies.length + 2 := by
  have hinit : (relay C outer inner).init.Poised C .outer p q :=
    ⟨hp, hq, fun e => by cases e <;> exact ⟨rfl, rfl⟩, rfl, nofun⟩
  have hagain : ∀ w : World S P D, (∃ e, w.Poised C e p q) → ∃ w' : World S P D, (∃ e, w'.Poised C e p q) ∧
      ∃ moves, (relay C outer inner).runWhere (World.calm C) w moves = some w' ∧
        w'.copies.length = w.copies.length + 2 := by
    rintro w ⟨e, h⟩
    obtain ⟨moves, w', hrun, hpoised, hcopies⟩ := h.swap outer inner hpq
    exact ⟨w', ⟨e.other, hpoised⟩, moves, hrun, hcopies⟩
  exact exists_endless hagain ⟨End.outer, hinit⟩

end World

end Relay

/-! ## Two texts -/

def textOffer (data : List UInt8) : Offer where
  types := [("text/plain", data)]
  watched := data
  watchedType := none

/-- The payloads of the texts A and B. -/
def isText (payload : Payload) :
    Bool := decide (payload.mime = "text/plain" ∧ (payload.data = [65] ∨ payload.data = [66]))

/-- What `cksum` writes for the two texts. -/
def textCksum (data : List UInt8) : Nat × Nat := (if data = [65] then 1751207896 else 445255691, data.length)

theorem textCksum_injective : ∀ p q, isText p = true → isText q = true → p.digest textCksum = q.digest textCksum →
    p = q := by
  rintro ⟨mime, data⟩ ⟨mime', data'⟩ hp hq h
  simp only [isText, decide_eq_true_eq] at hp hq
  obtain ⟨rfl, hp⟩ := hp
  obtain ⟨rfl, hq⟩ := hq
  rcases hp with rfl | rfl <;> rcases hq with rfl | rfl
  · rfl
  · exact absurd h (by decide)
  · exact absurd h (by decide)
  · rfl

def textClipboard := shellClipboard textCksum (fun payload => isText payload = true) textCksum_injective

theorem readSelection_text {data : List UInt8} (hdata : data = [65] ∨ data = [66]) :
    readSelection (textOffer data) = some ⟨"text/plain", data⟩ := by
  rcases hdata with rfl | rfl <;> decide

abbrev TextOffer := { offer : Offer // ∀ p, readSelection offer = some p → isText p = true }

/-- A user's selection of one of the texts. -/
def text (data : List UInt8) (hdata : data = [65] ∨ data = [66]) : TextOffer :=
  ⟨textOffer data, fun p hp => by
    rw [readSelection_text hdata] at hp
    obtain rfl := Option.some.inj hp
    simpa [isText] using hdata⟩

abbrev textA := text [65] (Or.inl rfl)

abbrev textB := text [66] (Or.inr rfl)

/-- The steps of a transfer after the first one. -/
def transferred {S : Type} (e : End) : List (Move S) := [.lock e, .readState e, .copy e true, .writeState e, .unlock e]

/-- The text at one end is brought to the other, and nothing is left to do. -/
theorem selections_relayed_text : ∃ moves w', (relay textClipboard textA textB).runWhere
      (fun w m => w.heeded textClipboard m && w.calm textClipboard m) (relay textClipboard textA textB).init moves =
        some w' ∧ w'.copies.length = 1 ∧ w'.AtRest ∧
      ∃ payload, ∀ e, textClipboard.read (w'.ends e).selection = some payload := by
  let moves : List (Move TextOffer) :=
    .read .outer true :: transferred .outer ++ .read .inner true :: transferred .inner ++
    .read .inner true :: transferred .inner
  have hrun : ((relay textClipboard textA textB).runWhere
      (fun w m => w.heeded textClipboard m && w.calm textClipboard m) (relay textClipboard textA textB).init moves).any
        (fun w => decide (w.copies.length = 1) && [End.outer, .inner].all fun e =>
          (w.ends e).transfer.isNone && decide ((w.ends e).announced = 0)) = true := by
    decide
  obtain ⟨w', hw', hrest⟩ := (Option.any_eq_true ..).1 hrun
  simp at hrest
  have hrest' : w'.AtRest := fun e => by cases e <;> simp [hrest]
  refine ⟨moves, w', hw', hrest.1, hrest', ?_⟩
  have hunfailed : (relay textClipboard textA textB).init.Unfailed textClipboard := by
    intro e t ht
    obtain ⟨selection, hinit⟩ := World.init_ends (C := textClipboard) textA textB e
    rw [hinit] at ht
    cases ht
  exact ((World.selections_relayed .init).2.2 moves w' hw').2.2.2 ⟨.outer, rfl⟩ hunfailed hrest'

/-- Where both ends have a text at the start and their transfers cross, they exchange the texts without end; and a text
is copied back after a transfer from the end that still has it failed. -/
theorem texts_exchanged :
    (∃ run : Nat → World _ _ String, run 0 = (relay textClipboard textA textB).init ∧
      ∀ n, ∃ moves, (relay textClipboard textA textB).runWhere (World.calm textClipboard) (run n) moves =
          some (run (n + 1)) ∧
        (run (n + 1)).copies.length = (run n).copies.length + 2) ∧
    ∃ w e t, (relay textClipboard textA textB).Reachable w ∧ w.at? e .known = some t ∧
      t.origin = some (w.ends e.other).changes ∧ t.toCopy textClipboard ≠ none := by
  constructor
  · have hA : textClipboard.read textA = some ⟨⟨"text/plain", [65]⟩, by decide⟩ := by decide
    have hB : textClipboard.read textB = some ⟨⟨"text/plain", [66]⟩, by decide⟩ := by decide
    exact World.swaps_forever hA hB (by decide)
  · have hrun : ((relay textClipboard textA textB).run (relay textClipboard textA textB).init
        (.change .outer textA :: .read .outer true :: transferred .outer ++ .read .outer false :: transferred .outer ++
          [.read .inner true, .lock .inner, .readState .inner])).any (fun w =>
            (w.at? .inner .known).any fun t =>
              decide (t.origin = some (w.ends .outer).changes) && (t.toCopy textClipboard).isSome) = true := by
      decide
    obtain ⟨w, hw, hcheck⟩ := exists_reachable hrun
    obtain ⟨t, ht, hcopy⟩ := (Option.any_eq_true ..).1 hcheck
    obtain ⟨horigin, hcopy⟩ := Bool.and_eq_true_iff.1 hcopy
    exact ⟨w, .inner, t, hw, ht, of_decide_eq_true horigin, Option.isSome_iff_ne_none.1 hcopy⟩

end CocoaWay.GuestClipboard
