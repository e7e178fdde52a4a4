import Mathlib.Data.List.Perm.Subperm
import Mathlib.Logic.Function.Basic
import Mathlib.Logic.Relation

/-!
# Ancestors

A forest is a map that gives each node its parent, if it has one.

* `Leads parent x y` : `y` is `x` or above it; `Acyclic` : nothing is above itself;
* `chainFrom` : the chain of the parents, unless it is too long or comes back; `mem_chainFrom`, `last_chainFrom`;
* `climb` : the chain of the parents to a number of steps; `mem_climb_iff` : in a finite forest it is all that is above;
* `Acyclic.link`, `Acyclic.mono` : a new parent that is not below keeps a forest acyclic, and so does none;
* `Leads.of_agree` : what is below a node does not depend on what is above it.
-/

namespace CocoaWay.Lib.Ancestry

variable {α : Type}

/-- Following the parents of `x`, there is `y`. -/
def Leads (parent : α → Option α) : α → α → Prop := Relation.ReflTransGen fun x y => parent x = some y

/-- Following the parents of `x`, there is `y`, in one step at least. -/
def Above (parent : α → Option α) : α → α → Prop := Relation.TransGen fun x y => parent x = some y

def Acyclic (parent : α → Option α) : Prop := ∀ x, ¬ Above parent x x

section Leads

variable {parent parent' : α → Option α} {x y z : α}

theorem Leads.refl (x : α) : Leads parent x x := Relation.ReflTransGen.refl

theorem Leads.step (h : parent x = some y) : Leads parent x y := Relation.ReflTransGen.single h

theorem Leads.trans (h : Leads parent x y) (h' : Leads parent y z) :
    Leads parent x z := Relation.ReflTransGen.trans h h'

theorem Leads.of_parent (h : parent x = some y) (h' : Leads parent y z) : Leads parent x z := (Leads.step h).trans h'

theorem leads_iff : Leads parent x z ↔ z = x ∨ ∃ y, parent x = some y ∧ Leads parent y z :=
  Relation.ReflTransGen.cases_head_iff.trans (or_congr_left eq_comm)

theorem leads_of_none (h : parent x = none) : Leads parent x z ↔ z = x := by
  rw [leads_iff]
  constructor
  · rintro (rfl | ⟨y, hy, -⟩)
    · rfl
    · rw [h] at hy
      cases hy
  · exact Or.inl

theorem leads_of_some (h : parent x = some y) : Leads parent x z ↔ z = x ∨ Leads parent y z := by
  rw [leads_iff]
  simp only [h, Option.some.injEq, exists_eq_left']

theorem Leads.mono (hp : ∀ x y, parent x = some y → parent' x = some y) (h : Leads parent x y) : Leads parent' x y :=
  Relation.ReflTransGen.mono hp _ _ h

end Leads

/-! ## Bounded chains -/

section Chains

variable [DecidableEq α] {parent : α → Option α} {limit : Nat} {x y : α} {visited chain : List α}

/-- The chain of the parents from `x` on, behind the nodes visited. -/
def chainFrom (parent : α → Option α) : Nat → List α → α → Option (List α)
  | 0, _, _ => none
  | limit + 1, visited, x =>
    if x ∈ visited then none
    else match parent x with
      | none => some (visited ++ [x])
      | some y => chainFrom parent limit (visited ++ [x]) y

theorem mem_chainFrom (h : chainFrom parent limit visited x = some chain) :
    y ∈ chain ↔ y ∈ visited ∨ Leads parent x y := by
  induction limit generalizing visited x with
  | zero => cases h
  | succ limit ih =>
    unfold chainFrom at h
    split at h
    · cases h
    · split at h
      · next hp =>
        obtain rfl := Option.some.inj h
        rw [leads_of_none hp]
        simp
      · next z hp =>
        rw [ih h, leads_of_some hp]
        simp [or_assoc]

theorem last_chainFrom (h : chainFrom parent limit visited x = some chain) :
    ∃ top, chain.getLast? = some top ∧ Leads parent x top ∧ parent top = none := by
  induction limit generalizing visited x with
  | zero => cases h
  | succ limit ih =>
    unfold chainFrom at h
    split at h
    · cases h
    · split at h
      · next hp =>
        obtain rfl := Option.some.inj h
        exact ⟨x, by simp, Leads.refl x, hp⟩
      · next z hp =>
        obtain ⟨top, hlast, hleads, htop⟩ := ih h
        exact ⟨top, hlast, hleads.of_parent hp, htop⟩

end Chains

/-! ## Climbing -/

section Climbing

variable {parent : α → Option α} {x y : α}

/-- `x` and what is above it, to so many steps. -/
def climb (parent : α → Option α) : Nat → α → List α
  | 0, x => [x]
  | steps + 1, x =>
    match parent x with
    | none => [x]
    | some y => x :: climb parent steps y

theorem leads_of_mem_climb {steps : Nat} (h : y ∈ climb parent steps x) : Leads parent x y := by
  induction steps generalizing x with
  | zero =>
    obtain rfl := List.mem_singleton.1 h
    exact Leads.refl _
  | succ steps ih =>
    unfold climb at h
    split at h
    · obtain rfl := List.mem_singleton.1 h
      exact Leads.refl _
    · next z hp =>
      rcases List.mem_cons.1 h with rfl | h
      · exact Leads.refl _
      · exact (ih h).of_parent hp

/-- The nodes below `x` so far are different nodes with a parent, and there are steps enough for the rest. -/
theorem mem_climb (hacyclic : Acyclic parent) {nodes : List α} (hnodes : ∀ x y, parent x = some y → x ∈ nodes)
    {steps : Nat} {below : List α} (hnodup : below.Nodup) (hbelow : ∀ z ∈ below, z ∈ nodes ∧ Above parent z x)
    (hsteps : nodes.length ≤ steps + below.length) (h : Leads parent x y) : y ∈ climb parent steps x := by
  induction steps generalizing x below with
  | zero =>
    cases hp : parent x with
    | none => exact List.mem_singleton.2 ((leads_of_none hp).1 h)
    | some z =>
      -- one node more than there are
      have hx : x ∉ below := fun hx => hacyclic x (hbelow x hx).2
      have hsub : x :: below ⊆ nodes := by
        intro z hz
        rcases List.mem_cons.1 hz with rfl | hz
        · exact hnodes _ _ hp
        · exact (hbelow z hz).1
      have hlength := ((List.nodup_cons.2 ⟨hx, hnodup⟩).subperm hsub).length_le
      rw [List.length_cons] at hlength
      omega
  | succ steps ih =>
    unfold climb
    cases hp : parent x with
    | none => exact List.mem_singleton.2 ((leads_of_none hp).1 h)
    | some z =>
      rcases (leads_of_some hp).1 h with rfl | h
      · exact List.mem_cons_self
      · refine List.mem_cons_of_mem _ ?_
        have hx : x ∉ below := fun hx => hacyclic x (hbelow x hx).2
        have hbelow' : ∀ z' ∈ x :: below, z' ∈ nodes ∧ Above parent z' z := by
          intro z' hz'
          rcases List.mem_cons.1 hz' with rfl | hz'
          · exact ⟨hnodes _ _ hp, Relation.TransGen.single hp⟩
          · exact ⟨(hbelow z' hz').1, (hbelow z' hz').2.tail hp⟩
        refine ih (List.nodup_cons.2 ⟨hx, hnodup⟩) hbelow' ?_ h
        rw [List.length_cons]
        omega

/-- In a finite forest a climb of as many steps as there are nodes meets all that is above. -/
theorem mem_climb_iff (hacyclic : Acyclic parent) {nodes : List α} (hnodes : ∀ x y, parent x = some y → x ∈ nodes) :
    y ∈ climb parent nodes.length x ↔ Leads parent x y := by
  refine ⟨leads_of_mem_climb, fun h => ?_⟩
  exact mem_climb hacyclic hnodes List.nodup_nil nofun (by simp) h

end Climbing

/-! ## Changing a forest -/

section Changes

variable [DecidableEq α] {parent : α → Option α} {child node : α}

/-- A way above in the forest with the new parent is an old one, or goes through the new one. -/
theorem above_link {x y : α} (h : Above (Function.update parent child (some node)) x y) :
    Above parent x y ∨ Leads parent x child ∧ Leads parent node y := by
  have hstep : ∀ {a b : α}, Function.update parent child (some node) a = some b →
      a = child ∧ b = node ∨ parent a = some b := by
    intro a b hab
    by_cases ha : a = child
    · subst ha
      rw [Function.update_self] at hab
      exact .inl ⟨rfl, (Option.some.inj hab).symm⟩
    · rw [Function.update_of_ne ha] at hab
      exact .inr hab
  induction h with
  | single h =>
    rcases hstep h with ⟨rfl, rfl⟩ | h
    · exact .inr ⟨Leads.refl _, Leads.refl _⟩
    · exact .inl (.single h)
  | tail _ h ih =>
    rcases hstep h with ⟨rfl, rfl⟩ | h
    · rcases ih with ih | ⟨ih, -⟩
      · exact .inr ⟨ih.to_reflTransGen, Leads.refl _⟩
      · exact .inr ⟨ih, Leads.refl _⟩
    · rcases ih with ih | ⟨ih, ih'⟩
      · exact .inl (ih.tail h)
      · exact .inr ⟨ih, ih'.trans (Leads.step h)⟩

theorem Acyclic.link (h : Acyclic parent) (hbelow : ¬ Leads parent node child) :
    Acyclic (Function.update parent child (some node)) := by
  intro x hx
  rcases above_link hx with hx | ⟨hchild, hnode⟩
  · exact h x hx
  · exact hbelow (hnode.trans hchild)

omit [DecidableEq α] in
theorem Acyclic.mono {parent' : α → Option α} (h : Acyclic parent)
    (hp : ∀ x y, parent' x = some y → parent x = some y) : Acyclic parent' :=
  fun x hx => h x (Relation.TransGen.mono hp _ _ hx)

/-- The parent of a node is no matter for what is below it. -/
theorem Leads.of_agree {parent' : α → Option α} {x : α} (h : Leads parent x node)
    (hp : ∀ a, a ≠ node → parent' a = parent a) : Leads parent' x node := by
  induction h using Relation.ReflTransGen.head_induction_on with
  | refl => exact Leads.refl _
  | @head x y hstep _ ih =>
    by_cases hx : x = node
    · exact hx ▸ Leads.refl x
    · exact ih.of_parent ((hp x hx).trans hstep)

end Changes

end CocoaWay.Lib.Ancestry
