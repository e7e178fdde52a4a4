import Mathlib.Algebra.Ring.Nat
import Mathlib.Data.List.Basic

/-!
# Splitting a list after its separators

* `splitAfter p l` : the maximal pieces of `l` that end with a separator, and what is left at the end;
* `flatten_splitAfter`, `splitAfter_append_of_ends` : the pieces make up the list; a list that ends with a separator can
  be split on its own;
* `splitAfter_flatMap_shown` : a map under which separators stay and nothing else becomes one keeps the pieces;
* `splitAfter_flatMap_source` : the pieces of a concatenation, when only separators are known to stay.
-/

namespace CocoaWay.Lib

variable {α β : Type*} {p : α → Bool} {q : β → Bool} {f : β → List α}

/-- The pieces of a list, each ending with its separator. -/
@[grind] def splitAfter (p : α → Bool) : List α → List (List α)
  | [] => []
  | a :: l =>
    if p a then [a] :: splitAfter p l
    else
      match splitAfter p l with
      | [] => [[a]]
      | piece :: pieces => (a :: piece) :: pieces

/-- Put a list in front of the first piece. -/
@[grind] def glue (l : List α) : List (List α) → List (List α)
  | [] => [l]
  | piece :: pieces => (l ++ piece) :: pieces

@[simp] theorem splitAfter_nil : splitAfter p [] = [] := rfl

variable {l : List α} {a : α}

theorem splitAfter_cons_of_sep (h : p a = true) (l : List α) :
    splitAfter p (a :: l) = [a] :: splitAfter p l := by
  rw [splitAfter, if_pos h]

theorem splitAfter_cons_of_not (h : p a = false) (l : List α) :
    splitAfter p (a :: l) = glue [a] (splitAfter p l) := by
  rw [splitAfter, if_neg (by simp [h])]
  cases splitAfter p l <;> rfl

theorem glue_glue (a : α) (l : List α) (pieces : List (List α)) : glue [a] (glue l pieces) = glue (a :: l) pieces := by
  cases pieces <;> rfl

theorem glue_append {pieces : List (List α)} (h : pieces ≠ []) (pieces' : List (List α)) :
    glue l (pieces ++ pieces') = glue l pieces ++ pieces' := by
  cases pieces with
  | nil => exact absurd rfl h
  | cons piece pieces => rfl

theorem splitAfter_eq_nil : splitAfter p l = [] ↔ l = [] := by
  cases l with
  | nil => simp
  | cons a l =>
    by_cases h : p a = true
    · simp [splitAfter_cons_of_sep h]
    · rw [Bool.not_eq_true] at h
      rw [splitAfter_cons_of_not h]
      cases splitAfter p l <;> simp [glue]

theorem flatten_glue (l : List α) (pieces : List (List α)) : (glue l pieces).flatten = l ++ pieces.flatten := by
  cases pieces <;> simp [glue]

theorem flatten_splitAfter (l : List α) : (splitAfter p l).flatten = l := by
  induction l with
  | nil => rfl
  | cons a l ih =>
    by_cases h : p a = true
    · rw [splitAfter_cons_of_sep h, List.flatten_cons, ih]
      rfl
    · rw [Bool.not_eq_true] at h
      rw [splitAfter_cons_of_not h, flatten_glue, ih]
      rfl

/-- A separator stands only at the end of a piece. -/
theorem none_of_mem_splitAfter {l piece : List α} (h : piece ∈ splitAfter p l) : ∀ a ∈ piece.dropLast, p a = false := by
  induction l generalizing piece with
  | nil => cases h
  | cons a l ih =>
    by_cases ha : p a = true
    · rw [splitAfter_cons_of_sep ha] at h
      rcases List.mem_cons.1 h with rfl | h
      · exact fun b hb => absurd hb (List.not_mem_nil)
      · exact ih h
    · rw [Bool.not_eq_true] at ha
      rw [splitAfter_cons_of_not ha] at h
      cases hl : splitAfter p l with
      | nil =>
        rw [hl] at h
        obtain rfl := List.mem_singleton.1 h
        exact fun b hb => absurd hb (List.not_mem_nil)
      | cons first pieces =>
        rw [hl] at h ih
        rcases List.mem_cons.1 h with rfl | h
        · intro b hb
          cases first with
          | nil => exact absurd hb List.not_mem_nil
          | cons c first =>
            rcases List.mem_cons.1 hb with rfl | hb
            · exact ha
            · exact ih List.mem_cons_self b hb
        · exact ih (List.mem_cons_of_mem first h)

/-- A list of non-separators stays in one piece with what follows it. -/
theorem splitAfter_append_of_none (hl : l ≠ []) (h : ∀ a ∈ l, p a = false) (r : List α) :
    splitAfter p (l ++ r) = glue l (splitAfter p r) := by
  induction l with
  | nil => exact absurd rfl hl
  | cons a l ih =>
    have ha := h a List.mem_cons_self
    rw [List.cons_append, splitAfter_cons_of_not ha]
    by_cases hnil : l = []
    · subst hnil
      rfl
    · rw [ih hnil fun b hb => h b (List.mem_cons_of_mem a hb), glue_glue]

/-- A list that ends with a separator is split on its own. -/
theorem splitAfter_append_of_ends (l : List α) (h : p a = true) (r : List α) :
    splitAfter p (l ++ a :: r) = splitAfter p (l ++ [a]) ++ splitAfter p r := by
  induction l with
  | nil =>
    rw [List.nil_append, List.nil_append, splitAfter_cons_of_sep h, splitAfter_cons_of_sep h]
    rfl
  | cons b l ih =>
    rw [List.cons_append, List.cons_append]
    by_cases hb : p b = true
    · rw [splitAfter_cons_of_sep hb, splitAfter_cons_of_sep hb, ih]
      rfl
    · rw [Bool.not_eq_true] at hb
      have hne : splitAfter p (l ++ [a]) ≠ [] := by simp [splitAfter_eq_nil]
      rw [splitAfter_cons_of_not hb, splitAfter_cons_of_not hb, ih, glue_append hne]

theorem splitAfter_line (h : ∀ a ∈ l, p a = false) {b : α} (hb : p b = true) (r : List α) :
    splitAfter p (l ++ b :: r) = (l ++ [b]) :: splitAfter p r := by
  induction l with
  | nil => exact splitAfter_cons_of_sep hb r
  | cons a l ih =>
    rw [List.cons_append, splitAfter_cons_of_not (h a List.mem_cons_self),
      ih fun a ha => h a (List.mem_cons_of_mem _ ha)]
    rfl

/-- Under a map that keeps separators and makes no new ones, the pieces are the mapped pieces. -/
theorem splitAfter_flatMap_shown (hs : ∀ b, q b = true → ∃ a, f b = [a] ∧ p a = true) {l : List β}
    (hn : ∀ b ∈ l, q b = false → f b ≠ [] ∧ ∀ a ∈ f b, p a = false) :
    splitAfter p (l.flatMap f) = (splitAfter q l).map (List.flatMap f) := by
  induction l with
  | nil => rfl
  | cons b l ih =>
    have ih := ih fun b hb => hn b (List.mem_cons_of_mem _ hb)
    rw [List.flatMap_cons]
    by_cases hb : q b = true
    · obtain ⟨a, ha, hp⟩ := hs b hb
      rw [splitAfter_cons_of_sep hb, ha, List.singleton_append, splitAfter_cons_of_sep hp, ih, List.map_cons,
        List.flatMap_singleton, ha]
    · rw [Bool.not_eq_true] at hb
      obtain ⟨hne, hno⟩ := hn b List.mem_cons_self hb
      rw [splitAfter_cons_of_not hb, splitAfter_append_of_none hne hno, ih]
      cases splitAfter q l with
      | nil => simp [glue]
      | cons piece pieces => simp [glue]

/-- The first piece ends with a separator, unless it is the last. -/
theorem splitAfter_cons_ends {l piece : List β} {pieces : List (List β)} (h : splitAfter q l = piece :: pieces) :
    pieces = [] ∨ ∃ front b, piece = front ++ [b] ∧ q b = true := by
  induction l generalizing piece with
  | nil => cases h
  | cons a l ih =>
    by_cases ha : q a = true
    · rw [splitAfter_cons_of_sep ha, List.cons.injEq] at h
      exact Or.inr ⟨[], a, h.1.symm, ha⟩
    · rw [Bool.not_eq_true] at ha
      rw [splitAfter_cons_of_not ha] at h
      cases hl : splitAfter q l with
      | nil =>
        rw [hl] at h
        exact Or.inl (List.cons.inj h).2.symm
      | cons piece' pieces' =>
        rw [hl] at h
        obtain ⟨rfl, rfl⟩ := List.cons.inj h
        rcases ih hl with hnil | ⟨front, b, rfl, hb⟩
        · exact Or.inl hnil
        · exact Or.inr ⟨a :: front, b, rfl, hb⟩

/-- Every piece but the last ends with a separator. -/
theorem ends_of_mem_dropLast {l piece : List β} (h : piece ∈ (splitAfter q l).dropLast) :
    ∃ front b, piece = front ++ [b] ∧ q b = true := by
  induction l generalizing piece with
  | nil => cases h
  | cons a l ih =>
    by_cases ha : q a = true
    · rw [splitAfter_cons_of_sep ha] at h
      cases hl : splitAfter q l with
      | nil =>
        rw [hl] at h
        cases h
      | cons first pieces =>
        rw [hl, List.dropLast_cons_cons] at h
        rcases List.mem_cons.1 h with rfl | h
        · exact ⟨[], a, rfl, ha⟩
        · exact ih (by rwa [hl])
    · rw [Bool.not_eq_true] at ha
      rw [splitAfter_cons_of_not ha] at h
      cases hl : splitAfter q l with
      | nil =>
        rw [hl] at h
        cases h
      | cons first pieces =>
        rw [hl] at h ih
        cases pieces with
        | nil => cases h
        | cons second pieces =>
          rcases List.mem_cons.1 h with rfl | h
          · obtain ⟨front, b, rfl, hb⟩ := ih List.mem_cons_self
            exact ⟨a :: front, b, rfl, hb⟩
          · exact ih (List.mem_cons_of_mem first h)

/-- The pieces of a concatenation, piece by piece, when separators stay separators. -/
theorem splitAfter_flatMap_source (hs : ∀ b, q b = true → ∃ a, f b = [a] ∧ p a = true) (l : List β) :
    splitAfter p (l.flatMap f) = (splitAfter q l).flatMap fun piece => splitAfter p (piece.flatMap f) := by
  induction l with
  | nil => rfl
  | cons b l ih =>
    rw [List.flatMap_cons]
    by_cases hb : q b = true
    · obtain ⟨a, ha, hp⟩ := hs b hb
      rw [splitAfter_cons_of_sep hb, ha, List.singleton_append, splitAfter_cons_of_sep hp, ih, List.flatMap_cons,
        List.flatMap_singleton, ha, splitAfter_cons_of_sep hp]
      rfl
    · rw [Bool.not_eq_true] at hb
      rw [splitAfter_cons_of_not hb]
      cases hl : splitAfter q l with
      | nil =>
        rw [splitAfter_eq_nil.1 hl]
        simp [glue]
      | cons piece pieces =>
        have hflat : l = piece ++ pieces.flatten := by
          rw [← flatten_splitAfter (p := q) l, hl, List.flatten_cons]
        rw [hl, List.flatMap_cons] at ih
        simp only [glue, List.flatMap_cons, List.singleton_append]
        rcases splitAfter_cons_ends hl with hnil | ⟨front, b', rfl, hb'⟩
        · subst hnil
          rw [hflat]
          simp
        · obtain ⟨a, ha, hp⟩ := hs b' hb'
          have hpiece : (front ++ [b']).flatMap f = front.flatMap f ++ [a] := by
            rw [List.flatMap_append, List.flatMap_singleton, ha]
          have hrest : l.flatMap f = front.flatMap f ++ a :: pieces.flatten.flatMap f := by
            rw [hflat, List.flatMap_append, hpiece, List.append_assoc, List.singleton_append]
          rw [hpiece] at ih ⊢
          rw [hrest] at ih ⊢
          rw [splitAfter_append_of_ends _ hp] at ih
          rw [← List.append_assoc, splitAfter_append_of_ends _ hp, List.append_assoc, List.append_cancel_left ih]

end CocoaWay.Lib
