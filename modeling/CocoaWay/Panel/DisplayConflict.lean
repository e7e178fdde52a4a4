import CocoaWay.Launch.Handlers

/-!
# Display conflicts, as the panel predicts them

* `profileIdAt`, `sessionForView` : a row of the panel and the profile shown there;
* `sessionDisplayTarget`, `activeDisplayConflict` : the slot by the panel's rules, and who is on it;
* `Agrees`, `agrees_rootless`, `conflict_iff` : when the prediction is what the compositor finds.
-/

namespace CocoaWay.Panel
open Launch
open Launch.State (activeDisplayConflictIndex)

variable {P : Type} [DecidableEq P]

/-! ## The panel -/

/-- `profile_id_at` of a row, by the cached list of profiles. -/
def profileIdAt (view : List P) (index : Nat) : Option P := view[index]?

def sessionForView (view : List P) (sessions : List (Session P)) (index : Nat) : Option (Session P) :=
  (profileIdAt view index).bind fun id => sessions.find? fun s => s.id = id

def sessionDisplayTarget (s : Session P) : String := ((s.display.map trim).filter (· ≠ "")).getD "auto"

/-- The slot of a profile, by the panel's rules. -/
def requestedSlot (s : Session P) (defaultInUse : Bool) : String :=
  let target := sessionDisplayTarget s
  if target = "auto" ∧ !defaultInUse then "default"
  else if target = "auto" ∨ target = "dedicated" then "session-" ++ displaySlotSlug s.name
  else if target = "default" then "default"
  else displaySlotSlug target

/-- `active` are the profiles of the running sessions, with their display slots. -/
def activeDisplayConflict (view : List P) (sessions : List (Session P)) (active : List (P × String)) (index : Nat) :
    Option String :=
  match sessionForView view sessions index with
  | none => none
  | some requested =>
    let defaultInUse := active.any fun a => some a.1 ≠ profileIdAt view index && a.2 = "default"
    let slot := requestedSlot requested defaultInUse
    (active.find? fun a => some a.1 ≠ profileIdAt view index && a.2 = slot).bind fun a =>
      (sessions.find? fun s => s.id = a.1).map Session.name

/-! ## Agreement -/

/-- Another profile's session is on the slot. -/
def taken (id : P) (active : List (P × String)) (slot : String) : Bool := active.any fun a => a.1 ≠ id && a.2 = slot

/-- The first session of another profile on the slot has its profile saved. -/
def named (id : P) (sessions : List (Session P)) (active : List (P × String)) (slot : String) : Bool :=
  (active.find? fun a => a.1 ≠ id && a.2 = slot).any fun a => sessions.any fun s => s.id = a.1

/-- The slot of a rootless profile. -/
def rootlessSlot (s : Session P) : String :=
  let target := sessionDisplayTarget s
  "rootless-" ++ displaySlotSlug (if target ∈ ["auto", "default", "dedicated"] then s.name else target)

/-- When the prediction is right. A rootless profile must find its slot taken exactly when the slot that it would have
on the desktop is; a profile of the desktop, its slot taken by a saved profile, and an automatic slot beside a display
that is being cleaned up, free. -/
def Agrees (s : Session P) (sessions : List (Session P)) (active : List (P × String)) (defaultBusy : Bool) : Prop :=
  let onDefault := taken s.id active "default"
  if s.isRootless then
    (taken s.id active (rootlessSlot s) = true ↔ named s.id sessions active (requestedSlot s onDefault) = true)
  else if defaultBusy && sessionDisplayTarget s = "auto" && !onDefault then
    taken s.id active ("session-" ++ displaySlotSlug s.name) = false
  else taken s.id active (requestedSlot s onDefault) = true →
    named s.id sessions active (requestedSlot s onDefault) = true

section

variable {s : Session P} {sessions : List (Session P)} {active : List (P × String)} {view : List P} {index : Nat}
  {id : P}
  {slot : String} {inUse defaultBusy : Bool}

omit [DecidableEq P] in
theorem sessionDisplayTarget_eq (s : Session P) : sessionDisplayTarget s =
    if (s.display.map trim).getD "auto" = "" then "auto" else (s.display.map trim).getD "auto" := by
  unfold sessionDisplayTarget
  cases s.display with
  | none => rfl
  | some display =>
    rw [Option.map_some, Option.getD_some]
    by_cases hempty : trim display = ""
    · simp [Option.filter, hempty]
    · simp [Option.filter, hempty]

omit [DecidableEq P] in
/-- On the desktop both have the same rules. -/
theorem chooseDisplayAssignment_desktop (h : s.isRootless = false) :
    (chooseDisplayAssignment s inUse).slot = requestedSlot s inUse := by
  unfold chooseDisplayAssignment requestedSlot
  dsimp only
  rw [sessionDisplayTarget_eq, h]
  generalize (s.display.map trim).getD "auto" = requested
  by_cases hempty : requested = ""
  · cases inUse <;> simp [hempty, DisplayAssignment.slot]
  · by_cases hauto : requested = "auto"
    · cases inUse <;> simp [hauto, DisplayAssignment.slot]
    · by_cases hdedicated : requested = "dedicated"
      · simp [hdedicated, DisplayAssignment.slot]
      · by_cases hdefault : requested = "default"
        · simp [hdefault, DisplayAssignment.slot]
        · simp [hempty, hauto, hdedicated, hdefault, DisplayAssignment.slot]

omit [DecidableEq P] in
theorem chooseDisplayAssignment_rootless (h : s.isRootless = true) :
    (chooseDisplayAssignment s inUse).slot = rootlessSlot s := by
  unfold chooseDisplayAssignment rootlessSlot
  dsimp only
  rw [sessionDisplayTarget_eq, if_pos h]
  generalize (s.display.map trim).getD "auto" = requested
  by_cases hempty : requested = ""
  · simp [hempty, DisplayAssignment.slot]
  · simp [hempty, DisplayAssignment.slot]

theorem find?_isSome_eq_taken (id : P) (active : List (P × String)) (slot : String) :
    (active.find? fun a => a.1 ≠ id && a.2 = slot).isSome = taken id active slot := by
  unfold taken
  rw [Bool.eq_iff_iff, List.find?_isSome, List.any_eq_true]

theorem taken_of_named (h : named id sessions active slot = true) : taken id active slot = true := by
  unfold named at h
  rw [← find?_isSome_eq_taken]
  cases hfind : active.find? fun a => a.1 ≠ id && a.2 = slot with
  | none =>
    rw [hfind] at h
    cases h
  | some a => rfl

theorem named_eq_taken (hsaved : ∀ a ∈ active, ∃ c ∈ sessions, c.id = a.1) :
    named id sessions active slot = taken id active slot := by
  unfold named
  rw [← find?_isSome_eq_taken]
  cases hfind : active.find? fun a => a.1 ≠ id && a.2 = slot with
  | none => rfl
  | some a =>
    obtain ⟨c, hc, hid⟩ := hsaved a (List.mem_of_find?_eq_some hfind)
    exact List.any_eq_true.2 ⟨c, hc, decide_eq_true hid⟩

/-- With every running profile saved, a rootless one is predicted right when others are both on its slot and on the one it
would have on the desktop, or on neither. -/
theorem agrees_rootless (hr : s.isRootless = true) (hsaved : ∀ a ∈ active, ∃ c ∈ sessions, c.id = a.1) :
    Agrees s sessions active defaultBusy ↔
      taken s.id active (rootlessSlot s) = taken s.id active (requestedSlot s (taken s.id active "default")) := by
  unfold Agrees
  rw [if_pos hr, named_eq_taken hsaved]
  exact Bool.eq_iff_iff.symm

theorem isSome_name (sessions : List (Session P)) (found : Option (P × String)) :
    (found.bind fun a => (sessions.find? fun s => s.id = a.1).map Session.name).isSome =
      found.any fun a => sessions.any fun s => s.id = a.1 := by
  cases found with
  | none => rfl
  | some a =>
    rw [Option.bind_some, Option.isSome_map, Option.any_some, Bool.eq_iff_iff, List.find?_isSome, List.any_eq_true]

theorem activeDisplayConflict_isSome (hview : view[index]? = some s.id)
    (hs : sessions.find? (fun c => c.id = s.id) = some s) :
    (activeDisplayConflict view sessions active index).isSome =
      named s.id sessions active (requestedSlot s (taken s.id active "default")) := by
  have hsession : sessionForView view sessions index = some s := by
    unfold sessionForView profileIdAt
    rw [hview]
    exact hs
  unfold activeDisplayConflict named taken profileIdAt
  rw [hsession, hview]
  simp only [ne_eq, Option.some.injEq]
  exact isSome_name sessions _

theorem activeDisplayConflictIndex_isSome (hs : sessions.find? (fun c => c.id = s.id) = some s) :
    (activeDisplayConflictIndex s.id sessions active defaultBusy).isSome =
      taken s.id active (chooseDisplayAssignment s (defaultBusy || taken s.id active "default")).slot := by
  unfold activeDisplayConflictIndex
  rw [hs]
  dsimp only
  rw [Option.isSome_map, find?_isSome_eq_taken]
  rfl

omit [DecidableEq P] in
/-- Beside a display that is being cleaned up only an automatic slot is another one. -/
theorem requestedSlot_of_not_auto (h : sessionDisplayTarget s ≠ "auto") (inUse inUse' : Bool) :
    requestedSlot s inUse = requestedSlot s inUse' := by
  simp [requestedSlot, h]

/-- The panel names an application exactly when the compositor finds one, if and only if the two agree. -/
theorem conflict_iff (hview : view[index]? = some s.id) (hs : sessions.find? (fun c => c.id = s.id) = some s) :
    ((activeDisplayConflict view sessions active index).isSome = true ↔
      (activeDisplayConflictIndex s.id sessions active defaultBusy).isSome = true) ↔
    Agrees s sessions active defaultBusy := by
  rw [activeDisplayConflict_isSome hview hs, activeDisplayConflictIndex_isSome hs]
  unfold Agrees
  dsimp only
  generalize honDefault : taken s.id active "default" = onDefault
  cases hrootless : s.isRootless with
  | true =>
    rw [if_pos rfl, chooseDisplayAssignment_rootless hrootless]
    exact iff_comm
  | false =>
    rw [if_neg Bool.false_ne_true, chooseDisplayAssignment_desktop hrootless]
    have hsame (h : requestedSlot s (defaultBusy || onDefault) = requestedSlot s onDefault) :
        (named s.id sessions active (requestedSlot s onDefault) = true ↔
          taken s.id active (requestedSlot s (defaultBusy || onDefault)) = true) ↔
        (taken s.id active (requestedSlot s onDefault) = true →
          named s.id sessions active (requestedSlot s onDefault) = true) := by
      rw [h]
      exact ⟨fun h => h.2, fun h => ⟨taken_of_named, h⟩⟩
    by_cases hauto : sessionDisplayTarget s = "auto"
    · cases defaultBusy with
      | false => exact hsame rfl
      | true =>
        cases onDefault with
        | true =>
          rw [Bool.not_true, Bool.and_false, if_neg Bool.false_ne_true]
          exact hsame rfl
        | false =>
          -- the panel takes the default display to be free
          have hpanel : requestedSlot s false = "default" := by simp [requestedSlot, hauto]
          have hmain : requestedSlot s true = "session-" ++ displaySlotSlug s.name := by simp [requestedSlot, hauto]
          have hnamed : named s.id sessions active "default" = false := by
            by_contra hno
            rw [taken_of_named (Bool.not_eq_false _ ▸ hno)] at honDefault
            cases honDefault
          simp [hpanel, hmain, hnamed, hauto]
    · have hslot := requestedSlot_of_not_auto hauto (defaultBusy || onDefault) onDefault
      rw [if_neg (by simp [hauto])]
      exact hsame hslot

end

/-! ## Two profiles -/

/-- A profile for the display "work". -/
def workProfile (id : Nat) (presentation : Option String) :
    Session Nat := ⟨id, "Editor", "container", some "work", presentation, ""⟩

theorem conflict_iff_desktop :
    (activeDisplayConflict [0, 1] [workProfile 0 none, workProfile 1 none] [(1, "work")] 0).isSome = true ↔
      (activeDisplayConflictIndex 0 [workProfile 0 none, workProfile 1 none] [(1, "work")] false).isSome = true :=
  (conflict_iff (s := workProfile 0 none) rfl rfl).2 (by unfold Agrees; decide)

/-- A rootless profile is said to conflict with one of the desktop, which is on another slot. -/
theorem rootless_disagrees : ¬ ∀ (view : List Nat) (sessions : List (Session Nat)) (active : List (Nat × String))
    (index : Nat)
    (s : Session Nat), view[index]? = some s.id → sessions.find? (fun c => c.id = s.id) = some s →
    (∀ a ∈ active, ∃ c ∈ sessions, c.id = a.1 ∧ ∃ inUse, a.2 = (chooseDisplayAssignment c inUse).slot) →
    ((activeDisplayConflict view sessions active index).isSome = true ↔
      (activeDisplayConflictIndex s.id sessions active false).isSome = true) := by
  intro h
  have hagree := h [0, 1] [workProfile 0 (some "rootless"), workProfile 1 none] [(1, "work")] 0
    (workProfile 0 (some "rootless")) rfl rfl ?_
  · exact absurd hagree (by decide)
  · intro a ha
    obtain rfl := List.mem_singleton.1 ha
    exact ⟨workProfile 1 none, by decide, rfl, false, by decide⟩

end CocoaWay.Panel
