import Mathlib.Data.List.Nodup
import Mathlib.Tactic.TypeStar

/-!
# Items on loan

An owner uses its items and lends them; who has an item on loan finishes with it at any time, and the owner hears of
it later.

* `Move`, `place` : what happens to the items, and where an item is after it;
* `Orderly` : only an item at home is used or lent;
* `Lending lent returned log` : the items on loan and those whose return is not yet heard of, with a lemma for each
  move.
-/

namespace CocoaWay.Lib

inductive Move (α : Type*)
  | use (a : α)
  | lend (a : α)
  | finish (a : α)
  | accept (a : α)

inductive Place
  | home
  | lent
  | returned

variable {α : Type*} [DecidableEq α] {a b : α} {lent returned : List α} {log : List (Move α)}

/-- Where an item is, after moves from the last to the first. Items are at home at first. -/
@[grind] def place (a : α) : List (Move α) → Place
  | [] => .home
  | .use _ :: log => place a log
  | .lend b :: log => if b = a then .lent else place a log
  | .finish b :: log => if b = a then .returned else place a log
  | .accept b :: log => if b = a then .home else place a log

/-- The place an item moves from. -/
def Move.Allowed (log : List (Move α)) : Move α → Prop
  | .use a => place a log = .home
  | .lend a => place a log = .home
  | .finish a => place a log = .lent
  | .accept a => place a log = .returned

def Orderly : List (Move α) → Prop
  | [] => True
  | m :: log => m.Allowed log ∧ Orderly log

structure Lending (lent returned : List α) (log : List (Move α)) : Prop where
  orderly : Orderly log
  lent_nodup : lent.Nodup
  returned_nodup : returned.Nodup
  mem_lent : ∀ a, a ∈ lent ↔ place a log = .lent
  mem_returned : ∀ a, a ∈ returned ↔ place a log = .returned

namespace Lending

theorem start : Lending ([] : List α) [] [] := ⟨trivial, .nil, .nil, by simp [place], by simp [place]⟩

theorem use (h : Lending lent returned log) (ha : place a log = .home) : Lending lent returned (.use a :: log) :=
  ⟨⟨ha, h.orderly⟩, h.lent_nodup, h.returned_nodup, h.mem_lent, h.mem_returned⟩

theorem lend (h : Lending lent returned log) (ha : place a log = .home) :
    Lending (lent ++ [a]) returned (.lend a :: log) where
  orderly := ⟨ha, h.orderly⟩
  lent_nodup := by
    have hnot : a ∉ lent := fun hmem => by simp [(h.mem_lent a).1 hmem] at ha
    rw [← List.concat_eq_append]
    exact h.lent_nodup.concat hnot
  returned_nodup := h.returned_nodup
  mem_lent b := by
    rw [List.mem_append, List.mem_singleton, place]
    by_cases hb : a = b
    · rw [if_pos hb]
      simp [hb]
    · rw [if_neg hb, ← h.mem_lent]
      simp [Ne.symm hb]
  mem_returned b := by
    rw [place]
    by_cases hb : a = b
    · obtain rfl := hb
      rw [if_pos rfl, h.mem_returned, ha]
      simp
    · rw [if_neg hb, h.mem_returned]

theorem finish (h : Lending lent returned log) (ha : a ∈ lent) :
    Lending (lent.erase a) (returned ++ [a]) (.finish a :: log) where
  orderly := ⟨(h.mem_lent a).1 ha, h.orderly⟩
  lent_nodup := h.lent_nodup.erase a
  returned_nodup := by
    have hlent := (h.mem_lent a).1 ha
    have hnot : a ∉ returned := fun hmem => by simp [(h.mem_returned a).1 hmem] at hlent
    rw [← List.concat_eq_append]
    exact h.returned_nodup.concat hnot
  mem_lent b := by
    rw [h.lent_nodup.mem_erase_iff, place]
    by_cases hb : a = b
    · rw [if_pos hb]
      simp [hb]
    · rw [if_neg hb, ← h.mem_lent]
      simp [Ne.symm hb]
  mem_returned b := by
    rw [List.mem_append, List.mem_singleton, place]
    by_cases hb : a = b
    · rw [if_pos hb]
      simp [hb]
    · rw [if_neg hb, ← h.mem_returned]
      simp [Ne.symm hb]

theorem accept (h : Lending lent (a :: returned) log) : Lending lent returned (.accept a :: log) where
  orderly := ⟨(h.mem_returned a).1 List.mem_cons_self, h.orderly⟩
  lent_nodup := h.lent_nodup
  returned_nodup := h.returned_nodup.of_cons
  mem_lent b := by
    rw [place]
    by_cases hb : a = b
    · obtain rfl := hb
      rw [if_pos rfl, h.mem_lent, (h.mem_returned a).1 List.mem_cons_self]
      simp
    · rw [if_neg hb, h.mem_lent]
  mem_returned b := by
    rw [place]
    by_cases hb : a = b
    · obtain rfl := hb
      rw [if_pos rfl]
      simpa using (List.nodup_cons.1 h.returned_nodup).1
    · rw [if_neg hb, ← h.mem_returned, List.mem_cons]
      simp [Ne.symm hb]

end Lending

theorem place_lend_of_ne (h : b ≠ a) (log : List (Move α)) : place a (.lend b :: log) = place a log := if_neg h

theorem place_finish_of_ne (h : b ≠ a) (log : List (Move α)) : place a (.finish b :: log) = place a log := if_neg h

theorem place_accept_self (a : α) (log : List (Move α)) : place a (.accept a :: log) = .home := if_pos rfl

end CocoaWay.Lib
