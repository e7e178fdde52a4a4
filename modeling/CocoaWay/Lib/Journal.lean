import Mathlib.Data.List.Basic

/-!
# Journals: the last entry of a kind counts

* `latest p l`, `modifyLatest p f l` : the last entry of a kind, and the journal with that entry changed;
* `modifyLatest_cases` : where the change is made;
* `mem_modifyLatest`, `forall_modifyLatest`, `pairwise_modifyLatest` : what it keeps.
-/

namespace CocoaWay.Lib

variable {α : Type*} {p : α → Bool} {f : α → α} {l : List α} {x y : α}

/-- The last entry of a kind. -/
def latest (p : α → Bool) (l : List α) : Option α := l.reverse.find? p

/-- The journal with the last entry of a kind changed. -/
def modifyLatest (p : α → Bool) (f : α → α) : List α → List α
  | [] => []
  | x :: l => if l.any p then x :: modifyLatest p f l else if p x then f x :: l else x :: l

theorem latest_cons (p : α → Bool) (x : α) (l : List α) :
    latest p (x :: l) = (latest p l).or (if p x then some x else none) := by
  unfold latest
  rw [List.reverse_cons, List.find?_append, List.find?_singleton]

theorem latest_eq_none : latest p l = none ↔ ∀ y ∈ l, p y = false := by
  unfold latest
  rw [List.find?_eq_none]
  simp

theorem latest_mem (h : latest p l = some x) : x ∈ l := List.mem_reverse.1 (List.mem_of_find?_eq_some h)

theorem latest_kind (h : latest p l = some x) : p x = true := List.find?_some (l := l.reverse) h

theorem modifyLatest_cases (p : α → Bool) (f : α → α) (l : List α) :
    (latest p l = none ∧ modifyLatest p f l = l) ∨
    ∃ front x back, latest p l = some x ∧ l = front ++ x :: back ∧ (∀ y ∈ back, p y = false) ∧
      modifyLatest p f l = front ++ f x :: back := by
  induction l with
  | nil => exact .inl ⟨rfl, rfl⟩
  | cons x l ih =>
    rw [latest_cons]
    rcases ih with ⟨hnone, -⟩ | ⟨front, y, back, hlatest, hl, hback, hmodify⟩
    · have hl : ∀ y ∈ l, p y = false := latest_eq_none.1 hnone
      have hany : ¬ l.any p = true := by
        rw [List.any_eq_true]
        rintro ⟨y, hy, hpy⟩
        rw [hl y hy] at hpy
        cases hpy
      unfold modifyLatest
      rw [hnone, Option.none_or, if_neg hany]
      by_cases hx : p x = true
      · rw [if_pos hx, if_pos hx]
        exact .inr ⟨[], x, l, rfl, rfl, hl, rfl⟩
      · rw [if_neg hx, if_neg hx]
        exact .inl ⟨rfl, rfl⟩
    · have hany : l.any p = true := List.any_eq_true.2 ⟨y, latest_mem hlatest, latest_kind hlatest⟩
      refine .inr ⟨x :: front, y, back, ?_, ?_, hback, ?_⟩
      · rw [hlatest, Option.some_or]
      · rw [hl, List.cons_append]
      · unfold modifyLatest
        rw [if_pos hany, hmodify, List.cons_append]

theorem length_modifyLatest (p : α → Bool) (f : α → α) (l : List α) : (modifyLatest p f l).length = l.length := by
  obtain ⟨-, h⟩ | ⟨front, x, back, -, hl, -, h⟩ := modifyLatest_cases p f l
  · rw [h]
  · rw [h, hl, List.length_append, List.length_append, List.length_cons, List.length_cons]

theorem mem_modifyLatest (h : y ∈ modifyLatest p f l) : y ∈ l ∨ ∃ x, latest p l = some x ∧ y = f x := by
  obtain ⟨-, hm⟩ | ⟨front, x, back, hlatest, rfl, -, hm⟩ := modifyLatest_cases p f l
  · exact .inl (hm ▸ h)
  · rw [hm] at h
    rcases List.mem_append.1 h with hfront | hrest
    · exact .inl (List.mem_append_left _ hfront)
    · rcases List.mem_cons.1 hrest with heq | hback
      · exact .inr ⟨x, hlatest, heq⟩
      · exact .inl (List.mem_append_right _ (List.mem_cons_of_mem _ hback))

/-- An entry is still there, changed if it was the last of its kind. -/
theorem modifyLatest_mem (h : x ∈ l) : x ∈ modifyLatest p f l ∨ latest p l = some x ∧ f x ∈ modifyLatest p f l := by
  obtain ⟨-, hm⟩ | ⟨front, y, back, hlatest, rfl, -, hm⟩ := modifyLatest_cases p f l
  · exact .inl (hm.symm ▸ h)
  · rw [hm]
    rcases List.mem_append.1 h with hfront | hrest
    · exact .inl (List.mem_append_left _ hfront)
    · rcases List.mem_cons.1 hrest with rfl | hback
      · exact .inr ⟨hlatest, List.mem_append_right _ List.mem_cons_self⟩
      · exact .inl (List.mem_append_right _ (List.mem_cons_of_mem _ hback))

theorem latest_modifyLatest_mem (h : latest p l = some x) : f x ∈ modifyLatest p f l := by
  obtain ⟨hnone, -⟩ | ⟨front, y, back, hlatest, -, -, hm⟩ := modifyLatest_cases p f l
  · rw [hnone] at h
    cases h
  · rw [hlatest] at h
    cases h
    rw [hm]
    exact List.mem_append_right _ List.mem_cons_self

/-- What holds of every entry, and of a changed one, holds of every entry behind the change. -/
theorem forall_modifyLatest {P : α → Prop} (h : ∀ y ∈ l, P y) (hf : ∀ x, p x = true → P x → P (f x)) :
    ∀ y ∈ modifyLatest p f l, P y := by
  intro y hy
  rcases mem_modifyLatest hy with hy | ⟨x, hx, rfl⟩
  · exact h y hy
  · exact hf x (latest_kind hx) (h x (latest_mem hx))

/-- A relation between an entry and those behind it outlives a change, which has no entry of its kind behind it. -/
theorem pairwise_modifyLatest {R : α → α → Prop} (h : l.Pairwise R) (hfront : ∀ a x, p x = true → R a x → R a (f x))
    (hback : ∀ x b, p x = true → p b = false → R x b → R (f x) b) : (modifyLatest p f l).Pairwise R := by
  obtain ⟨-, hm⟩ | ⟨front, x, back, hlatest, rfl, hkind, hm⟩ := modifyLatest_cases p f l
  · rwa [hm]
  · have hx := latest_kind hlatest
    rw [hm]
    rw [List.pairwise_append, List.pairwise_cons] at h ⊢
    obtain ⟨hf, ⟨hxb, hb⟩, hcross⟩ := h
    refine ⟨hf, ⟨fun b hmem => hback x b hx (hkind b hmem) (hxb b hmem), hb⟩, fun a ha y hy => ?_⟩
    rcases List.mem_cons.1 hy with rfl | hy
    · exact hfront a x hx (hcross a ha x List.mem_cons_self)
    · exact hcross a ha y (List.mem_cons_of_mem _ hy)

end CocoaWay.Lib
