import Mathlib.Data.List.Forall2
import Mathlib.Data.Rat.Floor
import Mathlib.Order.Lattice
import Mathlib.Tactic.Linarith

/-!
# Ranks in a list

* `ordered l` : the entries from the least to the greatest;
* `getElem_ordered` : what holds of smaller entries too holds of the entry at a rank, if it holds of more than that
  many;
* `ordered_rel` : a monotone relation between the entries of two lists is one between their entries of each rank;
* `nearestRank n p`, `ranked l p` : the nearest rank of a quantile, from 0, and the entry there; `ranked_rel`.
-/

namespace CocoaWay.Lib

variable {α β : Type*} [LinearOrder α] [LinearOrder β] {l s : List α} {l' : List β} {k : Nat}

def ordered (l : List α) : List α := l.mergeSort fun a b => decide (a ≤ b)

theorem ordered_perm (l : List α) : (ordered l).Perm l := List.mergeSort_perm l _

@[simp] theorem length_ordered (l : List α) : (ordered l).length = l.length := (ordered_perm l).length_eq

@[simp] theorem mem_ordered {a : α} : a ∈ ordered l ↔ a ∈ l := (ordered_perm l).mem_iff

theorem ordered_pairwise (l : List α) : (ordered l).Pairwise (· ≤ ·) := by
  have hsorted : (ordered l).Pairwise fun a b => decide (a ≤ b) = true :=
    List.pairwise_mergeSort (fun a b c hab hbc =>
      decide_eq_true ((of_decide_eq_true hab).trans (of_decide_eq_true hbc)))
      (fun a b => by simpa using le_total a b) l
  exact hsorted.imp of_decide_eq_true

variable {R : α → β → Prop} {p : α → Bool}

/-- In a list in order, what holds of smaller entries too holds of a front of it. -/
theorem getElem_pairwise (hp : ∀ a b, a ≤ b → p b = true → p a = true) (hs : s.Pairwise (· ≤ ·))
    (hk : k < s.length) : p s[k] = true ↔ k < s.countP p := by
  induction s generalizing k with
  | nil => exact absurd hk (Nat.not_lt_zero k)
  | cons a s ih =>
    obtain ⟨hfirst, hs⟩ := List.pairwise_cons.1 hs
    by_cases ha : p a = true
    · rw [List.countP_cons_of_pos ha]
      cases k with
      | zero => simpa using ha
      | succ k =>
        rw [List.getElem_cons_succ, ih hs (by simpa using hk)]
        omega
    · have hnone : s.countP p = 0 := List.countP_eq_zero.2 fun b hb hpb => ha (hp a b (hfirst b hb) hpb)
      rw [List.countP_cons_of_neg ha, hnone]
      refine ⟨fun hpk => absurd ?_ ha, fun hlt => absurd hlt (Nat.not_lt_zero k)⟩
      have hmem : (a :: s)[k] ∈ a :: s := List.getElem_mem hk
      rcases List.mem_cons.1 hmem with heq | hmem
      · rwa [heq] at hpk
      · exact hp a _ (hfirst _ hmem) hpk

theorem getElem_ordered (hp : ∀ a b, a ≤ b → p b = true → p a = true) (hk : k < (ordered l).length) :
    p (ordered l)[k] = true ↔ k < l.countP p := by
  rw [getElem_pairwise hp (ordered_pairwise l) hk, (ordered_perm l).countP_eq]

omit [LinearOrder α] [LinearOrder β] in
theorem countP_le_of_forall₂ {q : β → Bool}
    (hpq : ∀ a b, R a b → q b = true → p a = true)
    (h : List.Forall₂ R l l') : l'.countP q ≤ l.countP p := by
  induction h with
  | nil => exact le_rfl
  | @cons a b l l' hab _ ih =>
    by_cases hb : q b = true
    · rw [List.countP_cons_of_pos hb, List.countP_cons_of_pos (hpq a b hab hb)]
      omega
    · rw [List.countP_cons_of_neg hb]
      rw [List.countP_cons]
      omega

theorem ordered_rel (hR : ∀ a' a b b', a' ≤ a → R a b → b ≤ b' → R a' b') (h : List.Forall₂ R l l') :
    List.Forall₂ R (ordered l) (ordered l') := by
  classical
  rw [List.forall₂_iff_get]
  refine ⟨by simpa using h.length_eq, fun k hk hk' => ?_⟩
  rw [List.get_eq_getElem, List.get_eq_getElem]
  have hcount : k < l'.countP fun b => decide (b ≤ (ordered l')[k]) :=
    (getElem_ordered (fun a b hab hb =>
      decide_eq_true (hab.trans (of_decide_eq_true hb))) hk').1 (decide_eq_true le_rfl)
  have hle := countP_le_of_forall₂ (R := R) (p := fun a => decide (R a (ordered l')[k]))
    (fun a b hab hb => decide_eq_true (hR a a b _ le_rfl hab (of_decide_eq_true hb))) h
  have hrank := (getElem_ordered (p := fun a => decide (R a (ordered l')[k]))
    (fun a b hab hb => decide_eq_true (hR a b _ _ hab (of_decide_eq_true hb) le_rfl)) hk).2 (hcount.trans_le hle)
  exact of_decide_eq_true hrank

def nearestRank (n : Nat) (p : ℚ) : Nat := ⌈(n : ℚ) * p⌉₊ - 1

theorem nearestRank_lt {n : Nat} {p : ℚ} (hn : 0 < n) (h : p ≤ 1) : nearestRank n p < n := by
  have hle : ⌈(n : ℚ) * p⌉₊ ≤ n := Nat.ceil_le.2 (mul_le_of_le_one_right (Nat.cast_nonneg n) h)
  unfold nearestRank
  omega

def ranked (l : List α) (p : ℚ) : Option α := (ordered l)[nearestRank l.length p]?

theorem exists_ranked {p : ℚ} (hl : l ≠ []) (h : p ≤ 1) : ∃ a ∈ l, ranked l p = some a := by
  have hlt : nearestRank l.length p < (ordered l).length := by
    rw [length_ordered]
    exact nearestRank_lt (List.length_pos_iff.2 hl) h
  exact ⟨(ordered l)[nearestRank l.length p], mem_ordered.1 (List.getElem_mem hlt), List.getElem?_eq_getElem hlt⟩

theorem ranked_rel (hR : ∀ a' a b b', a' ≤ a → R a b → b ≤ b' → R a' b') (h : List.Forall₂ R l l')
    {p : ℚ} {a : α} {b : β} (ha : ranked l p = some a) (hb : ranked l' p = some b) : R a b := by
  have hordered := ordered_rel hR h
  unfold ranked at ha hb
  rw [← h.length_eq] at hb
  obtain ⟨hk, rfl⟩ := List.getElem?_eq_some_iff.1 ha
  obtain ⟨hk', rfl⟩ := List.getElem?_eq_some_iff.1 hb
  exact (List.forall₂_iff_get.1 hordered).2 _ hk hk'

end CocoaWay.Lib
