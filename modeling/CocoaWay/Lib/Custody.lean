import Mathlib.Data.List.Perm.Basic
import Mathlib.Data.List.Dedup

/-!
# Custody: every issued item is held in exactly one place

* `Custody held issued` : the items held, place by place, are the issued items, each of them once;
* `Custody.issue`, `Custody.move`, `Custody.settle` : issuing an item, moving items between places, and their end;
* `Custody.count_eq_one`, `Custody.mem_iff` : what custody says about a single item;
* `swapRemove` : removal from a vector by swapping in its last element;
* `find?_cons_eraseP_perm` : taking the first element that meets a condition.
-/

namespace CocoaWay.Lib

variable {α : Type*} {held held' issued : List α}

/-- The items held are the issued items, each once. -/
structure Custody (held issued : List α) : Prop where
  perm : held.Perm issued
  nodup : issued.Nodup

theorem Custody.nil : Custody ([] : List α) [] :=
  ⟨List.Perm.refl _, List.nodup_nil⟩

variable {l : List α} {i : Nat} {x : α} {a : α}

theorem Custody.issue (h : Custody held issued) (ha : a ∉ issued) (hm : held'.Perm (a :: held)) :
    Custody held' (a :: issued) :=
  ⟨hm.trans (h.perm.cons a), List.nodup_cons.2 ⟨ha, h.nodup⟩⟩

/-- Items change places; none is lost or doubled. -/
theorem Custody.move (h : Custody held issued) (hm : held'.Perm held) : Custody held' issued :=
  ⟨hm.trans h.perm, h.nodup⟩

theorem Custody.mem_iff (h : Custody held issued) : a ∈ held ↔ a ∈ issued :=
  h.perm.mem_iff

theorem Custody.held_nodup (h : Custody held issued) : held.Nodup :=
  h.perm.nodup_iff.2 h.nodup

theorem Custody.count_eq_one [BEq α] [LawfulBEq α] (h : Custody held issued) (ha : a ∈ issued) :
    held.count a = 1 :=
  List.count_eq_one_of_mem h.held_nodup (h.mem_iff.2 ha)

/-- What waited and neither waits nor is done is dropped. -/
theorem Custody.settle [DecidableEq α] {waiting waiting' done rest : List α} (h : Custody (waiting ++ rest) issued)
    (hnodup : (waiting' ++ done).Nodup) (hsub : ∀ a ∈ waiting' ++ done, a ∈ waiting) :
    Custody (waiting' ++ done ++ waiting.filter (fun a => a ∉ waiting' ∧ a ∉ done) ++ rest) issued := by
  refine h.move (List.Perm.append_right rest ?_)
  have hwaiting := (List.nodup_append.1 h.held_nodup).1
  have hall : (waiting' ++ done ++ waiting.filter fun a => a ∉ waiting' ∧ a ∉ done).Nodup := by
    refine List.nodup_append.2 ⟨hnodup, hwaiting.filter _, ?_⟩
    rintro a ha b hb rfl
    have hnot := (List.mem_filter.1 hb).2
    rcases List.mem_append.1 ha with ha | ha
    · simp [ha] at hnot
    · simp [ha] at hnot
  refine (List.perm_ext_iff_of_nodup hall hwaiting).2 ?_
  intro a
  constructor
  · intro ha
    rcases List.mem_append.1 ha with ha | ha
    · exact hsub a ha
    · exact (List.mem_filter.1 ha).1
  · intro ha
    by_cases hkept : a ∈ waiting' ++ done
    · exact List.mem_append_left _ hkept
    · refine List.mem_append_right _ (List.mem_filter.2 ⟨ha, ?_⟩)
      simpa using hkept

/-! ## Taking items out of a place -/

/-- Remove the element at an index by moving the last element into its place. -/
def swapRemove (l : List α) (i : Nat) : List α :=
  match l.getLast? with
  | none => []
  | some last => (l.set i last).dropLast

theorem swapRemove_perm (h : l[i]? = some x) : (x :: swapRemove l i).Perm l := by
  rcases List.eq_nil_or_concat l with rfl | ⟨init, last, rfl⟩
  · simp at h
  · simp only [swapRemove, List.concat_eq_append, List.getLast?_append, List.getLast?_singleton, Option.some_or]
    rw [List.concat_eq_append] at h
    by_cases hi : i < init.length
    · rw [List.getElem?_append_left hi, List.getElem?_eq_getElem hi, Option.some.injEq] at h
      rw [List.set_append_left _ _ hi, List.dropLast_concat, ← h]
      refine ((List.set_perm_cons_eraseIdx hi last).cons _).trans ?_
      refine (List.Perm.swap _ _ _).trans ?_
      refine ((List.getElem_cons_eraseIdx_perm hi).cons _).trans ?_
      exact (List.perm_append_singleton last init).symm
    · have hlen : i < (init ++ [last]).length := (List.getElem?_eq_some_iff.1 h).1
      have hie : i = init.length := by
        simp only [List.length_append, List.length_singleton] at hlen
        omega
      subst hie
      rw [List.getElem?_append_right (Nat.le_refl _)] at h
      simp only [Nat.sub_self, List.getElem?_cons_zero, Option.some.injEq] at h
      subst h
      rw [List.set_append_right _ _ (Nat.le_refl _)]
      simp only [Nat.sub_self, List.set_cons_zero, List.dropLast_concat]
      exact (List.perm_append_singleton last init).symm

theorem swapRemove_length (h : l[i]? = some x) :
    (swapRemove l i).length + 1 = l.length := by
  have := (swapRemove_perm h).length_eq
  simpa using this

theorem mem_of_mem_swapRemove {x y : α} (h : l[i]? = some x) (hy : y ∈ swapRemove l i) :
    y ∈ l :=
  (swapRemove_perm h).subset (List.mem_cons_of_mem x hy)

theorem find?_cons_eraseP_perm {p : α → Bool} (h : l.find? p = some x) :
    (x :: l.eraseP p).Perm l := by
  induction l with
  | nil => simp at h
  | cons y l ih =>
    by_cases hp : p y = true
    · rw [List.find?_cons_of_pos hp, Option.some.injEq] at h
      subst h
      rw [List.eraseP_cons_of_pos hp]
    · rw [List.find?_cons_of_neg hp] at h
      rw [List.eraseP_cons_of_neg hp]
      exact (List.Perm.swap _ _ _).trans ((ih h).cons y)

end CocoaWay.Lib
