import CocoaWay.CommandCache.Guards
import CocoaWay.Panel.DisplayConflict

/-!
# The guard of an image removal, by the rows of the panel

* `Profile`, `activeSession`, `guardedSessions` : the saved profiles with the running sessions that their rows stand
  for;
* `confirmImageRemoval` : the guard on them, up to its confirmation;
* `Safe`, `Seen` : what the confirmation promises, and when it keeps it, `confirmImageRemoval_iff`.
-/

namespace CocoaWay.Panel
open Lib
open CommandCache (Host Output Text knownReferences runtimeKeyMatches unpinnedResourceDeleteError)

variable {P : Type} [DecidableEq P]

/-! ## The guard -/

/-- A saved profile, as the guard reads it. -/
structure Profile (P : Type) where
  id : P
  name : Text
  image : Text
  runtime : Text

/-- `active_session` of a row; `active` are the profiles of the running sessions. -/
def activeSession (view active : List P) (index : Nat) : Option P :=
  active.find? fun profile => some profile = profileIdAt view index

/-- The saved profiles, and whether the session of the row runs. -/
def guardedSessions (view active : List P) (sessions : List (Profile P)) : List CommandCache.Session :=
  sessions.zipIdx.map fun (s, index) => ⟨s.name, s.image, s.runtime, (activeSession view active index).isSome⟩

/-- `confirm_image_removal` up to its confirmation. -/
def confirmImageRemoval (host : Host) (s : CommandCache.State Text Output) (view active : List P)
    (runtime reference : Text)
    (imageId : Option Text) (removeTag : Bool) (sessions : List (Profile P)) : Except Text (List Text) :=
  CommandCache.confirmImageRemoval host s runtime reference imageId removeTag (guardedSessions view active sessions)

/-! ## What it promises -/

/-- No running session is one of a saved profile that uses one of the references on the runtime. -/
def Safe (active : List P) (sessions : List (Profile P)) (runtime : Text) (references : List Text) : Prop :=
  ∀ p ∈ sessions, p.id ∈ active → runtimeKeyMatches runtime p.runtime = true → p.image ∉ references

/-- The references that are removed; `others` are the other references of the image. -/
def removed (reference : Text) (removeTag : Bool) (others : List Text) : List Text :=
  if removeTag then [reference] else reference :: others

/-- A row of the list of profiles stands for a running session, and the saved profile at its position uses one of the
references on the runtime. -/
def Seen (view active : List P) (sessions : List (Profile P)) (runtime : Text) (references : List Text) : Prop :=
  ∃ (index : Nat) (p : Profile P) (id : P), sessions[index]? = some p ∧ runtimeKeyMatches runtime p.runtime = true ∧
    p.image ∈ references ∧ view[index]? = some id ∧ id ∈ active

section

variable {host : Host} {s : CommandCache.State Text Output} {view active : List P} {runtime reference : Text}
  {imageId : Option Text} {removeTag : Bool} {sessions : List (Profile P)} {references others : List Text} {index : Nat}

theorem activeSession_isSome : (activeSession view active index).isSome = true ↔
    ∃ id ∈ active, view[index]? = some id := by
  unfold activeSession profileIdAt
  rw [List.find?_isSome]
  exact ⟨fun ⟨id, hid, h⟩ => ⟨id, hid, (of_decide_eq_true h).symm⟩,
    fun ⟨id, hid, h⟩ => ⟨id, hid, decide_eq_true h.symm⟩⟩

/-- What the guard counts as running is what it sees. -/
theorem running_iff : (∃ c ∈ guardedSessions view active sessions,
    (references.contains c.image && runtimeKeyMatches runtime c.runtime) = true ∧ c.active = true) ↔
    Seen view active sessions runtime references := by
  constructor
  · rintro ⟨c, hc, hused, hactive⟩
    obtain ⟨⟨p, index⟩, hp, rfl⟩ := List.mem_map.1 hc
    rw [Bool.and_eq_true, List.contains_iff_mem] at hused
    obtain ⟨id, hid, hview⟩ := activeSession_isSome.1 hactive
    exact ⟨index, p, id, List.mk_mem_zipIdx_iff_getElem?.1 hp, hused.2, hused.1, hview, hid⟩
  · rintro ⟨index, p, id, hp, hruntime, hused, hview, hid⟩
    refine ⟨_, List.mem_map.2 ⟨(p, index), List.mk_mem_zipIdx_iff_getElem?.2 hp, rfl⟩, ?_, ?_⟩
    · rw [Bool.and_eq_true, List.contains_iff_mem]
      exact ⟨hused, hruntime⟩
    · exact activeSession_isSome.2 ⟨id, hid, hview⟩

/-- The guard refuses Docker, and what it sees to run. -/
theorem confirmImageRemoval_ok :
    (∃ tags, confirmImageRemoval host s view active runtime reference imageId removeTag sessions =
    .ok tags) ↔ unpinnedResourceDeleteError runtime = none ∧
      ¬ Seen view active sessions runtime (knownReferences host s runtime reference imageId removeTag) := by
  unfold confirmImageRemoval CommandCache.confirmImageRemoval
  cases unpinnedResourceDeleteError runtime with
  | some error => simp
  | none =>
    dsimp only
    rw [← running_iff]
    split
    · next hrunning =>
      rw [ne_eq, List.map_eq_nil_iff, List.filter_eq_nil_iff, not_forall] at hrunning
      obtain ⟨c, hc⟩ := hrunning
      rw [Classical.not_imp, Decidable.not_not, List.mem_filter] at hc
      exact ⟨nofun, fun h => absurd ⟨c, hc.1.1, hc.1.2, hc.2⟩ h.2⟩
    · next hnone =>
      rw [ne_eq, Decidable.not_not, List.map_eq_nil_iff, List.filter_eq_nil_iff] at hnone
      refine ⟨fun _ => ⟨rfl, ?_⟩, fun _ => ⟨_, rfl⟩⟩
      rintro ⟨c, hc, hused, hactive⟩
      exact hnone c (List.mem_filter.2 ⟨hc, hused⟩) hactive

omit [DecidableEq P] in
/-- With a view and a listing that are up to date every use is seen. -/
theorem seen_of_current (hview : view = sessions.map Profile.id) (hlisted : ∀ r ∈ references, r ∈ others)
    {p : Profile P}
    (hp : p ∈ sessions) (hactive : p.id ∈ active) (hruntime : runtimeKeyMatches runtime p.runtime = true)
    (hused : p.image ∈ references) : Seen view active sessions runtime others := by
  obtain ⟨index, hindex⟩ := List.mem_iff_getElem?.1 hp
  exact ⟨index, p, p.id, hindex, hruntime, hlisted _ hused, by rw [hview, List.getElem?_map, hindex]; rfl, hactive⟩

/-- When the rows are those of the configuration and all references that are removed are listed, the confirmation is not
reached beside a running session that uses one. Beyond that it is not exactly when the runtime is Docker's, or there is
no such session, or the rows and the listed references show one in use. -/
theorem confirmImageRemoval_iff (host : Host) (s : CommandCache.State Text Output) (view active : List P)
    (runtime reference : Text) (imageId : Option Text) (removeTag : Bool) (sessions : List (Profile P))
      (others : List Text) :
    (view = sessions.map Profile.id →
      (∀ r ∈ removed reference removeTag others, r ∈ knownReferences host s runtime reference imageId removeTag) →
      ∀ tags, confirmImageRemoval host s view active runtime reference imageId removeTag sessions = .ok tags →
        Safe active sessions runtime (removed reference removeTag others)) ∧
    (((∃ tags, confirmImageRemoval host s view active runtime reference imageId removeTag sessions = .ok tags) →
      Safe active sessions runtime (removed reference removeTag others)) ↔
    unpinnedResourceDeleteError runtime ≠ none ∨ Safe active sessions runtime (removed reference removeTag others) ∨
      Seen view active sessions runtime (knownReferences host s runtime reference imageId removeTag)) := by
  rw [confirmImageRemoval_ok]
  refine ⟨fun hview hlisted tags htags p hp hactive hruntime hused => ?_, fun h => ?_, fun h hreached => ?_⟩
  · exact (confirmImageRemoval_ok.1 ⟨tags, htags⟩).2 (seen_of_current hview hlisted hp hactive hruntime hused)
  · by_contra hno
    rw [not_or, not_or, Decidable.not_not] at hno
    exact hno.2.1 (h ⟨hno.1, hno.2.2⟩)
  · rcases h with hdocker | hsafe | hseen
    · exact absurd hreached.1 hdocker
    · exact hsafe
    · exact absurd hseen hreached.2

end

/-! ## An old view -/

/-- A host on which nothing is installed. -/
def bareHost : Host := ⟨[], fun _ => none, fun _ => .error [], fun _ _ => [], fun _ => [], none⟩

/-- A profile that was saved second, and whose predecessor has been deleted. -/
def secondProfile : Profile Nat := ⟨2, "Editor".toList, "app:1".toList, "container".toList⟩

/-- The rows still start with the deleted profile, and the running session of the second one is not seen. -/
theorem oldView_unsafe : ¬ ∀ (host : Host) (s : CommandCache.State Text Output) (view active : List Nat)
    (runtime reference : Text)
    (imageId : Option Text) (removeTag : Bool) (sessions : List (Profile Nat)) (others : List Text),
    (∃ tags, confirmImageRemoval host s view active runtime reference imageId removeTag sessions = .ok tags) →
    Safe active sessions runtime (removed reference removeTag others) := by
  intro h
  exact h bareHost .new [1, 2] [2] "container".toList "app:1".toList none true [secondProfile] []
    ⟨[], rfl⟩ secondProfile
    List.mem_cons_self (by decide) (by decide) (by decide)

end CocoaWay.Panel
