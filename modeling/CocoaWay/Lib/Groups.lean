import Mathlib.Data.List.Basic
import Mathlib.Tactic.TypeStar

/-!
# Groups: a beginning, updates and an end

* `Mark` : one event of a sequence of groups; `Group` : a complete one;
* `Grouped l o` : the events `l` are complete groups, and then the open one `o`, if any;
* `Grouped.begin`, `Grouped.update`, `Grouped.finish` : what may come next;
* `extend`, `openGroup` : the open group after more events, and `Grouped.unique` : it is the only one;
* `Follows a l a'` : the events `l` may come where a group is open or not as `a` says, and leave one open as `a'` says.
-/

namespace CocoaWay.Lib

variable {β υ ε : Type*}

/-- An event of a sequence of groups. -/
inductive Mark (β υ ε : Type*)
  | begin (b : β)
  | update (u : υ)
  | finish (e : ε)
  deriving DecidableEq

/-- A complete group. -/
structure Group (β υ ε : Type*) where
  first : β
  updates : List υ
  last : ε

/-- An open group: how it began, and its updates so far. -/
abbrev OpenGroup (β υ : Type*) := Option (β × List υ)

def Group.marks (g : Group β υ ε) : List (Mark β υ ε) := .begin g.first :: (g.updates.map .update ++ [.finish g.last])

@[grind] def openMarks (ε : Type*) : OpenGroup β υ → List (Mark β υ ε)
  | some (b, us) => .begin b :: us.map .update
  | none => []

/-- The events are complete groups, and then the open one. -/
def Grouped (l : List (Mark β υ ε)) (o : OpenGroup β υ) : Prop :=
  ∃ groups : List (Group β υ ε), l = groups.flatMap Group.marks ++ openMarks ε o

variable {l : List (Mark β υ ε)} {o o' : OpenGroup β υ} {b : β} {us : List υ}

theorem Grouped.nil : Grouped ([] : List (Mark β υ ε)) none := ⟨[], rfl⟩

theorem Grouped.begin (h : Grouped l none) (b : β) : Grouped (l ++ [.begin b]) (some (b, [])) := by
  obtain ⟨groups, rfl⟩ := h
  exact ⟨groups, by simp [openMarks]⟩

theorem Grouped.update (h : Grouped l (some (b, us))) (u : υ) : Grouped (l ++ [.update u]) (some (b, us ++ [u])) := by
  obtain ⟨groups, rfl⟩ := h
  exact ⟨groups, by simp [openMarks]⟩

theorem Grouped.finish (h : Grouped l (some (b, us))) (e : ε) : Grouped (l ++ [.finish e]) none := by
  obtain ⟨groups, rfl⟩ := h
  exact ⟨groups ++ [⟨b, us, e⟩], by simp [openMarks, Group.marks]⟩

/-! ## Only one group is open -/

/-- The open group after one more event; there is none where the event is out of order. -/
def extend (o : OpenGroup β υ) : Mark β υ ε → Option (OpenGroup β υ)
  | .begin b => if o.isNone then some (some (b, [])) else none
  | .update u => o.map fun (b, us) => some (b, us ++ [u])
  | .finish _ => o.map fun _ => none

/-- The open group after all events. -/
def openGroup (l : List (Mark β υ ε)) : Option (OpenGroup β υ) := l.foldlM extend none

theorem foldlM_updates (us' : List υ) (b : β) (us : List υ) :
    (us'.map (Mark.update (ε := ε))).foldlM extend (some (b, us)) = some (some (b, us ++ us')) := by
  induction us' generalizing us with
  | nil => simp
  | cons u us' ih =>
    rw [List.map_cons, List.foldlM_cons]
    exact (ih (us ++ [u])).trans (by rw [List.append_assoc, List.singleton_append])

theorem openGroup_append (l l' : List (Mark β υ ε)) :
    openGroup (l ++ l') = (openGroup l).bind fun o => l'.foldlM extend o := by
  simp [openGroup]

theorem openGroup_groups (groups : List (Group β υ ε)) : openGroup (groups.flatMap Group.marks) = some none := by
  induction groups with
  | nil => rfl
  | cons g groups ih =>
    have hg : g.marks.foldlM extend (none : OpenGroup β υ) = some none := by
      have hupdates := foldlM_updates (ε := ε) g.updates g.first []
      simp [Group.marks, extend, hupdates]
    unfold openGroup at ih ⊢
    rw [List.flatMap_cons, List.foldlM_append, hg]
    exact ih

theorem Grouped.openGroup_eq (h : Grouped l o) : openGroup l = some o := by
  obtain ⟨groups, rfl⟩ := h
  rw [openGroup_append, openGroup_groups]
  cases o with
  | none => rfl
  | some g =>
    obtain ⟨b, us⟩ := g
    have hupdates := foldlM_updates (ε := ε) us b []
    simpa [openMarks, extend] using hupdates

theorem Grouped.unique (h : Grouped l o) (h' : Grouped l o') : o = o' :=
  Option.some.inj (h.openGroup_eq.symm.trans h'.openGroup_eq)

/-! ## What may follow -/

theorem Grouped.extend {m : Mark β υ ε} (h : Grouped l o) (ha : Lib.extend o m = some o') : Grouped (l ++ [m]) o' := by
  cases m with
  | begin b =>
    cases o with
    | none => exact Option.some.inj ha ▸ h.begin b
    | some g => cases ha
  | update u =>
    cases o with
    | none => cases ha
    | some g => exact Option.some.inj ha ▸ Grouped.update h u
  | finish e =>
    cases o with
    | none => cases ha
    | some g => exact Option.some.inj ha ▸ Grouped.finish h e

theorem Grouped.foldlM {marks : List (Mark β υ ε)} (h : Grouped l o) (ha : marks.foldlM Lib.extend o = some o') :
    Grouped (l ++ marks) o' := by
  induction marks generalizing l o with
  | nil =>
    rw [List.append_nil]
    exact Option.some.inj ha ▸ h
  | cons m marks ih =>
    rw [List.foldlM_cons] at ha
    obtain ⟨o₁, h₁, ha⟩ := Option.bind_eq_some_iff.1 ha
    rw [← List.singleton_append, ← List.append_assoc]
    exact ih (h.extend h₁) ha

/-- The events are in order where a group is open or not, as `a` says, and leave one open or not, as `a'` says. -/
def Follows (a : Bool) (l : List (Mark β υ ε)) (a' : Bool) : Prop :=
  ∀ o : OpenGroup β υ, o.isSome = a → ∃ o', l.foldlM extend o = some o' ∧ o'.isSome = a'

section Follows

variable {a a' a'' : Bool} {l' : List (Mark β υ ε)}

theorem Follows.nil (a : Bool) : Follows a ([] : List (Mark β υ ε)) a := fun o ho => ⟨o, rfl, ho⟩

theorem Follows.begin (b : β) : Follows false [(.begin b : Mark β υ ε)] true := by
  intro o ho
  obtain rfl := Option.isNone_iff_eq_none.1 (Option.isSome_eq_false_iff.1 ho)
  exact ⟨_, rfl, rfl⟩

theorem Follows.update (u : υ) : Follows true [(.update u : Mark β υ ε)] true := by
  intro o ho
  obtain ⟨g, rfl⟩ := Option.isSome_iff_exists.1 ho
  exact ⟨_, rfl, rfl⟩

theorem Follows.finish (e : ε) : Follows true [(.finish e : Mark β υ ε)] false := by
  intro o ho
  obtain ⟨g, rfl⟩ := Option.isSome_iff_exists.1 ho
  exact ⟨_, rfl, rfl⟩

theorem Follows.trans (h : Follows a l a') (h' : Follows a' l' a'') : Follows a (l ++ l') a'' := by
  intro o ho
  obtain ⟨o₁, h₁, ho₁⟩ := h o ho
  obtain ⟨o₂, h₂, ho₂⟩ := h' o₁ ho₁
  exact ⟨o₂, by rw [List.foldlM_append, h₁]; exact h₂, ho₂⟩

theorem Grouped.follows (h : Grouped l o) (hf : Follows o.isSome l' a') :
    ∃ o', Grouped (l ++ l') o' ∧ o'.isSome = a' := by
  obtain ⟨o', ho', ha'⟩ := hf o rfl
  exact ⟨o', h.foldlM ho', ha'⟩

end Follows

end CocoaWay.Lib
