import CocoaWay.Control.Selectors
import CocoaWay.Launch.Displays

/-!
# Placing a session on a display

* `Session.requestedDisplay`, `Session.rootlessSlot` : the display a session asks for, and the one of a rootless
  session;
* `choose_default_iff`, `choose_dedicated_slot` : when the default display is given, and which slots the other
  displays have;
* `AssignmentSound` : the default display goes to who asked for it, no dedicated slot is a policy keyword, and a
  rootless session is put on no display that was started in desktop mode;
* `assignmentSound_iff` : when this is so; managed displays are the ones started in desktop mode.
-/

namespace CocoaWay.Launch

open CocoaWay.Lib
open CocoaWay.Control (policyKeywords normalizeManagedDisplaySlot)

variable {P : Type}

/-! ## The display asked for -/

namespace Session

/-- The display a session asks for. -/
def requestedDisplay (c : Session P) : String := (c.display.map trim).getD "auto"

/-- The session leaves the choice to the policy. -/
def asksAutomatic (c : Session P) : Prop := c.requestedDisplay = "" ∨ c.requestedDisplay = "auto"

/-- The session asks for a policy, in the very words. -/
def asksPolicy (c : Session P) : Prop := c.requestedDisplay = "" ∨ c.requestedDisplay ∈ policyKeywords

instance (c : Session P) : Decidable c.asksAutomatic := inferInstanceAs (Decidable (_ ∨ _))

instance (c : Session P) : Decidable c.asksPolicy := inferInstanceAs (Decidable (_ ∨ _))

/-- The name a rootless session takes its slot from. -/
def rootlessName (c : Session P) : String := if c.asksPolicy then c.name else c.requestedDisplay

/-- The slot of a rootless session. -/
def rootlessSlot (c : Session P) : String := "rootless-" ++ displaySlotSlug c.rootlessName

theorem asksPolicy_iff {c : Session P} : c.asksPolicy ↔ c.requestedDisplay = "" ∨ c.requestedDisplay = "auto" ∨
    c.requestedDisplay = "default" ∨ c.requestedDisplay = "dedicated" := by
  simp [asksPolicy, policyKeywords]

theorem requestedDisplay_cases (c : Session P) : c.asksAutomatic ∨ c.requestedDisplay = "dedicated" ∨
    c.requestedDisplay = "default" ∨ ¬ c.asksPolicy := by
  rw [asksPolicy_iff, asksAutomatic]
  tauto

end Session

section Choice

variable {c : Session P} {inUse : Bool} {slot : String}

theorem choose_rootless (h : c.isRootless = true) : chooseDisplayAssignment c inUse = .dedicated c.rootlessSlot := by
  have hname : c.rootlessName = if c.requestedDisplay = "" ∨ c.requestedDisplay = "auto" ∨
      c.requestedDisplay = "default" ∨ c.requestedDisplay = "dedicated" then c.name else c.requestedDisplay := by
    unfold Session.rootlessName
    exact if_congr Session.asksPolicy_iff rfl rfl
  unfold Session.rootlessSlot
  rw [hname]
  unfold chooseDisplayAssignment Session.requestedDisplay
  dsimp only
  rw [if_pos h]

theorem choose_desktop (h : c.isRootless = false) : chooseDisplayAssignment c inUse =
    if c.asksAutomatic ∧ !inUse then .default
    else if c.requestedDisplay = "" ∨ c.requestedDisplay = "auto" ∨ c.requestedDisplay = "dedicated" then
      .dedicated ("session-" ++ displaySlotSlug c.name)
    else if c.requestedDisplay = "default" then .default
    else .dedicated (displaySlotSlug c.requestedDisplay) := by
  unfold chooseDisplayAssignment Session.asksAutomatic Session.requestedDisplay
  dsimp only
  rw [if_neg (by rw [h]; exact Bool.false_ne_true)]
  rfl

/-- An automatic display is the default one while it is free. -/
theorem choose_automatic (h : c.isRootless = false) (ha : c.asksAutomatic) : chooseDisplayAssignment c inUse =
    if inUse then .dedicated ("session-" ++ displaySlotSlug c.name) else .default := by
  have hself : c.requestedDisplay = "" ∨ c.requestedDisplay = "auto" ∨ c.requestedDisplay = "dedicated" :=
    ha.imp_right Or.inl
  rw [choose_desktop h, if_pos hself]
  cases inUse with
  | true => rw [if_neg (by simp), if_pos rfl]
  | false => rw [if_pos ⟨ha, rfl⟩, if_neg (by simp)]

theorem choose_dedicated (h : c.isRootless = false) (hd : c.requestedDisplay = "dedicated") :
    chooseDisplayAssignment c inUse = .dedicated ("session-" ++ displaySlotSlug c.name) := by
  rw [choose_desktop h, if_neg (by simp [Session.asksAutomatic, hd]), if_pos (.inr (.inr hd))]

theorem choose_asked (h : c.isRootless = false) (hd : c.requestedDisplay = "default") :
    chooseDisplayAssignment c inUse = .default := by
  rw [choose_desktop h, if_neg (by simp [Session.asksAutomatic, hd]), if_neg (by simp [hd]), if_pos hd]

theorem choose_named (h : c.isRootless = false) (hn : ¬ c.asksPolicy) :
    chooseDisplayAssignment c inUse = .dedicated (displaySlotSlug c.requestedDisplay) := by
  rw [Session.asksPolicy_iff] at hn
  push Not at hn
  obtain ⟨hempty, hauto, hdefault, hdedicated⟩ := hn
  rw [choose_desktop h, if_neg (by simp [Session.asksAutomatic, hempty, hauto]),
    if_neg (by simp [hempty, hauto, hdedicated]),
    if_neg hdefault]

/-- The default display is for desktop sessions that ask for it, and for an automatic display while it is free. -/
theorem of_choose_default (hc : chooseDisplayAssignment c inUse = .default) :
    c.isRootless = false ∧ (c.requestedDisplay = "default" ∨ c.asksAutomatic ∧ inUse = false) := by
  cases h : c.isRootless with
  | true =>
    rw [choose_rootless h] at hc
    cases hc
  | false =>
    refine ⟨rfl, ?_⟩
    rcases c.requestedDisplay_cases with ha | hd | hd | hn
    · rw [choose_automatic h ha] at hc
      cases hu : inUse with
      | true =>
        rw [hu, if_pos rfl] at hc
        cases hc
      | false => exact .inr ⟨ha, rfl⟩
    · rw [choose_dedicated h hd] at hc
      cases hc
    · exact .inl hd
    · rw [choose_named h hn] at hc
      cases hc

theorem append_ne_keyword (front s : String) (h : front.toList ∈ ["rootless-".toList, "session-".toList]) :
    front ++ s ∉ policyKeywords := by
  have hlist : ∀ k ∈ policyKeywords, (front ++ s).toList ≠ k.toList := by
    intro k hk
    rw [String.toList_append]
    simp only [List.mem_cons, List.not_mem_nil, or_false] at h
    simp only [policyKeywords, List.mem_cons, List.not_mem_nil, or_false] at hk
    rcases h with h | h <;> rcases hk with rfl | rfl | rfl <;> rw [h] <;> simp
  intro hmem
  exact hlist _ hmem rfl

/-- A dedicated slot is a policy keyword only as the slug of a name. -/
theorem dedicated_keyword_iff : (∃ slot ∈ policyKeywords, chooseDisplayAssignment c inUse = .dedicated slot) ↔
    c.isRootless = false ∧ ¬ c.asksPolicy ∧ displaySlotSlug c.requestedDisplay ∈ policyKeywords := by
  constructor
  · rintro ⟨slot, hslot, hc⟩
    cases h : c.isRootless with
    | true =>
      rw [choose_rootless h] at hc
      obtain rfl := DisplayAssignment.dedicated.inj hc
      exact absurd hslot (append_ne_keyword _ _ (by simp))
    | false =>
      rcases c.requestedDisplay_cases with ha | hd | hd | hn
      · rw [choose_automatic h ha] at hc
        split at hc
        · obtain rfl := DisplayAssignment.dedicated.inj hc
          exact absurd hslot (append_ne_keyword _ _ (by simp))
        · cases hc
      · rw [choose_dedicated h hd] at hc
        obtain rfl := DisplayAssignment.dedicated.inj hc
        exact absurd hslot (append_ne_keyword _ _ (by simp))
      · rw [choose_asked h hd] at hc
        cases hc
      · rw [choose_named h hn] at hc
        obtain rfl := DisplayAssignment.dedicated.inj hc
        exact ⟨rfl, hn, hslot⟩
  · rintro ⟨h, hn, hslot⟩
    exact ⟨_, hslot, choose_named h hn⟩

end Choice

/-! ## Managed displays -/

variable [DecidableEq P]

namespace State

/-- The start is refused: another profile is on the display, it is being released, or it is still starting. -/
def refuses (s : State P) (i : P) (op : Operation P) (slot : String) : Prop :=
  (activeDisplayConflictIndex i (s.launchProfiles i op.session) s.usedSlots (s.displayBusy "default")).isSome = true ∨
    s.displayBusy slot = true ∨ (s.pendingManaged.get slot).isSome = true

/-- The display of the slot was started in desktop mode, as `spawn_managed_display_worker_async` starts all of them. -/
def startedAsDesktop (s : State P) (slot : String) : Bool := s.slotManaged slot

end State

/-- How a validated launch is placed: the default display goes to a desktop session that asks for it, or for an
automatic display while it is free; no dedicated slot is a policy keyword; and a rootless session is put on no display
that was started in desktop mode. -/
structure AssignmentSound (s : State P) (i : P) (op : Operation P) : Prop where
  default : chooseDisplayAssignment op.session s.defaultInUse = .default → op.session.isRootless = false ∧
    (op.session.requestedDisplay = "default" ∨ op.session.asksAutomatic ∧ s.defaultInUse = false)
  dedicated : ∀ slot ∈ policyKeywords, chooseDisplayAssignment op.session s.defaultInUse ≠ .dedicated slot
  rootless : op.session.isRootless = true →
    ∀ slot, (s.assignDisplay i op).pendingLaunch.get i = some slot → s.startedAsDesktop slot = false

/-- The names are apart: what a desktop session asks for is a policy keyword as it stands or has another slug, and no
managed display that could be given away has the slot of a rootless session. -/
structure NamesApart (s : State P) (i : P) (op : Operation P) : Prop where
  desktop : op.session.isRootless = false → ¬ op.session.asksPolicy →
    displaySlotSlug op.session.requestedDisplay ∉ policyKeywords
  rootless : op.session.isRootless = true →
    s.startedAsDesktop op.session.rootlessSlot = false ∨ s.refuses i op op.session.rootlessSlot

section Placement

variable {s : State P} {i : P} {op : Operation P} {slot : String}

theorem removeOperation_launch (s : State P) (i j : P) :
    (s.removeOperation i).pendingLaunch.get j = s.pendingLaunch.get j := by
  unfold State.removeOperation State.dropReservation
  split
  · rfl
  · split
    · rfl
    · split <;> rfl

theorem assignDisplay_dedicated (hc : chooseDisplayAssignment op.session s.defaultInUse = .dedicated slot) :
    s.assignDisplay i op =
      if (State.activeDisplayConflictIndex i (s.launchProfiles i op.session) s.usedSlots
          (s.displayBusy "default")).isSome then s.removeOperation i
      else if s.displayBusy slot then s.removeOperation i
      else if (s.pendingManaged.get slot).isSome then s.removeOperation i
      else if s.slotManaged slot then s.launchOn i op slot
      else
        { s.validate i with
          pendingDisplay := s.pendingDisplay.set i slot
          workers := s.workers ++ [.display i op.generation slot] } := by
  unfold State.assignDisplay
  rw [hc]
  rfl

/-- A session is put at once only on a managed display. -/
theorem assignDisplay_launch_iff (hl : s.pendingLaunch.get i = none)
    (hc : chooseDisplayAssignment op.session s.defaultInUse = .dedicated slot) {slot' : String} :
    (s.assignDisplay i op).pendingLaunch.get i = some slot' ↔
      ¬ s.refuses i op slot ∧ s.slotManaged slot = true ∧ slot' = slot := by
  have hremoved : (s.removeOperation i).pendingLaunch.get i ≠ some slot' := by
    rw [removeOperation_launch, hl]
    exact (Option.some_ne_none slot').symm
  unfold State.refuses
  rw [assignDisplay_dedicated hc]
  by_cases hconflict : (State.activeDisplayConflictIndex i (s.launchProfiles i op.session) s.usedSlots
      (s.displayBusy "default")).isSome = true
  · rw [if_pos hconflict]
    exact iff_of_false hremoved fun h => h.1 (.inl hconflict)
  rw [if_neg hconflict]
  by_cases hbusy : s.displayBusy slot = true
  · rw [if_pos hbusy]
    exact iff_of_false hremoved fun h => h.1 (.inr (.inl hbusy))
  rw [if_neg hbusy]
  by_cases hpending : (s.pendingManaged.get slot).isSome = true
  · rw [if_pos hpending]
    exact iff_of_false hremoved fun h => h.1 (.inr (.inr hpending))
  rw [if_neg hpending]
  have haccepted := not_or.2 ⟨hconflict, not_or.2 ⟨hbusy, hpending⟩⟩
  by_cases hmanaged : s.slotManaged slot = true
  · have hget : (s.launchOn i op slot).pendingLaunch.get i = some slot := Table.get_set_self _ _ _
    rw [if_pos hmanaged, hget, Option.some_inj]
    exact ⟨fun he => ⟨haccepted, hmanaged, he.symm⟩, fun h => h.2.2.symm⟩
  · rw [if_neg hmanaged]
    refine iff_of_false ?_ fun h => hmanaged h.2.1
    show s.pendingLaunch.get i ≠ some slot'
    rw [hl]
    exact (Option.some_ne_none slot').symm

/-- A launch is placed soundly exactly when the names are apart. -/
theorem assignmentSound_iff (hl : s.pendingLaunch.get i = none) : AssignmentSound s i op ↔ NamesApart s i op := by
  constructor
  · rintro ⟨-, hdedicated, hrootless⟩
    constructor
    · intro hr hn hslug
      exact hdedicated _ hslug (choose_named hr hn)
    · intro hr
      cases hm : s.startedAsDesktop op.session.rootlessSlot with
      | false => exact .inl rfl
      | true =>
        refine .inr ?_
        by_contra hrefused
        have hplaced := (assignDisplay_launch_iff hl (choose_rootless hr)).2 ⟨hrefused, hm, rfl⟩
        rw [hrootless hr _ hplaced] at hm
        cases hm
  · rintro ⟨hdesktop, hrootless⟩
    refine ⟨of_choose_default, ?_, ?_⟩
    · intro slot hslot hc
      obtain ⟨hr, hn, hslug⟩ := dedicated_keyword_iff.1 ⟨slot, hslot, hc⟩
      exact hdesktop hr hn hslug
    · intro hr slot hplaced
      obtain ⟨hrefused, hmanaged, rfl⟩ := (assignDisplay_launch_iff hl (choose_rootless hr)).1 hplaced
      exact (hrootless hr).resolve_right hrefused

end Placement

/-- A rootless session that asks for the display `A`. -/
def rootlessProfile : Session Nat := ⟨0, "Browser", "container", some "A", some "rootless", ""⟩

/-- A desktop session that asks for `Default`, with a capital letter. -/
def capitalProfile : Session Nat := ⟨0, "Browser", "container", some "Default", none, ""⟩

/-- An operation for the session. -/
def operationOf (c : Session Nat) : Operation Nat := ⟨0, c, true, false, none⟩

/-- Beside a managed display of another name the rootless session gets a display of its own. -/
theorem assignmentSound_iff_managed : ∃ s : State Nat, (system Nat).Reachable s ∧ s.startedAsDesktop "work" = true ∧
    AssignmentSound s 0 (operationOf rootlessProfile) := by
  have hrun : ((system Nat).run (system Nat).init
      [.user (.createManaged (some "work")), .handle, .finish (.managed 0 "work") true, .handle]).any (fun s =>
      decide (s.startedAsDesktop "work" = true ∧ s.startedAsDesktop "rootless-a" = false ∧
        s.pendingLaunch.get 0 = none)) = true := by decide
  obtain ⟨s, hs, hp⟩ := System.exists_reachable hrun
  obtain ⟨hwork, hfree, hnone⟩ := of_decide_eq_true hp
  exact ⟨s, hs, hwork, (assignmentSound_iff hnone).2 ⟨fun h => absurd h (by decide), fun _ => .inl hfree⟩⟩

/-- A managed display named `Rootless A` gets the slot of the rootless session that asks for `A`, which is then
launched on it; and a session that asks for `Default` gets a dedicated slot of the name of the default display. -/
theorem names_collide : normalizeManagedDisplaySlot "Rootless A" = .ok "rootless-a" ∧
    chooseDisplayAssignment capitalProfile true = .dedicated "default" ∧
    ∃ s : State Nat, (system Nat).Reachable s ∧ s.startedAsDesktop "rootless-a" = true ∧
      s.pendingLaunch.get 0 = some "rootless-a" ∧ s.launchWorkers.get 0 = none ∧
      (s.operations.get 0).map (fun op => op.session.isRootless) = some true := by
  refine ⟨by decide, by decide, ?_⟩
  have hrun : ((system Nat).run (system Nat).init
      ([.edit [rootlessProfile], .user (.createManaged (some "rootless-a")), .handle,
        .finish (.managed 0 "rootless-a") true,
        .handle] ++ toAssigned)).any (fun s => decide (s.startedAsDesktop "rootless-a" = true ∧
      s.pendingLaunch.get 0 = some "rootless-a" ∧ s.launchWorkers.get 0 = none ∧
      (s.operations.get 0).map (fun op => op.session.isRootless) = some true)) = true := by decide
  obtain ⟨s, hs, hp⟩ := System.exists_reachable hrun
  exact ⟨s, hs, of_decide_eq_true hp⟩

end CocoaWay.Launch
