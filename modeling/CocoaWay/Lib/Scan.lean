import Mathlib.Data.List.Basic

/-!
# Scanning a list item by item

* `scan item width` : what is put out for the first item of the list, then for the list behind it;
* `Reached width l p` : an item begins at position `p`; `Reached.covered` : every position is in an item;
* `scan_getElem?` : what is put out for a position depends only on the item it is in;
* `Reached.congr` : two readings that agree on the items the first one finds find the same.
-/

namespace CocoaWay.Lib

variable {α β γ : Type*} {item : List α → List β} {width width' : List α → Nat} {l : List α} {p : Nat}

/-! ## Scanning -/

/-- Every item takes at least one place, so the length of the list is fuel enough. -/
@[grind] def scanFrom (item : List α → List β) (width : List α → Nat) : Nat → List α → List β
  | 0, _ => []
  | _ + 1, [] => []
  | n + 1, a :: l => item (a :: l) ++ scanFrom item width n ((a :: l).drop (width (a :: l)))

def scan (item : List α → List β) (width : List α → Nat) (l : List α) : List β := scanFrom item width l.length l

theorem scanFrom_eq_scan (hw : ∀ l : List α, l ≠ [] → 0 < width l) (n : Nat) (l : List α) (h : l.length ≤ n) :
    scanFrom item width n l = scan item width l := by
  induction n using Nat.strongRecOn generalizing l with
  | ind n ih =>
    match n, l with
    | 0, [] => rfl
    | n + 1, [] => rfl
    | n + 1, a :: l =>
      have hpos := hw (a :: l) (List.cons_ne_nil a l)
      have hdrop : ((a :: l).drop (width (a :: l))).length ≤ l.length := by
        rw [List.length_drop, List.length_cons]
        omega
      rw [List.length_cons] at h
      rw [scan, List.length_cons, scanFrom, scanFrom, ih n (by omega) _ (by omega), ih l.length (by omega) _ hdrop]

theorem scan_eq (hw : ∀ l : List α, l ≠ [] → 0 < width l) (hne : l ≠ []) :
    scan item width l = item l ++ scan item width (l.drop (width l)) := by
  obtain ⟨a, l, rfl⟩ := List.exists_cons_of_ne_nil hne
  have hpos := hw (a :: l) hne
  rw [scan, List.length_cons, scanFrom, scanFrom_eq_scan hw]
  rw [List.length_drop, List.length_cons]
  omega

theorem flatMap_scan (f : β → List γ) (l : List α) :
    (scan item width l).flatMap f = scan (fun l => (item l).flatMap f) width l := by
  unfold scan
  generalize l.length = n
  induction n generalizing l with
  | zero => rfl
  | succ n ih =>
    cases l with
    | nil => rfl
    | cons a l => rw [scanFrom, scanFrom, List.flatMap_append, ih]

/-! ## Positions -/

/-- An item of the list begins here. -/
inductive Reached (width : List α → Nat) (l : List α) : Nat → Prop
  | start : Reached width l 0
  | next {p : Nat} : Reached width l p → p < l.length → Reached width l (p + width (l.drop p))

/-- Every position of the list is in an item. -/
theorem Reached.covered (hw : ∀ l : List α, l ≠ [] → 0 < width l) {i : Nat} (hi : i < l.length) :
    ∃ p, Reached width l p ∧ p ≤ i ∧ i < p + width (l.drop p) := by
  -- the last item that begins at or before the position
  have hstep : ∀ n p, Reached width l p → p ≤ i → i - p ≤ n →
      ∃ p, Reached width l p ∧ p ≤ i ∧ i < p + width (l.drop p) := by
    intro n
    induction n with
    | zero =>
      intro p hp hle hn
      have hpos := hw (l.drop p) (by rw [ne_eq, List.drop_eq_nil_iff]; omega)
      exact ⟨p, hp, hle, by omega⟩
    | succ n ih =>
      intro p hp hle hn
      have hpos := hw (l.drop p) (by rw [ne_eq, List.drop_eq_nil_iff]; omega)
      by_cases hlt : i < p + width (l.drop p)
      · exact ⟨p, hp, hle, hlt⟩
      · exact ih _ (hp.next (by omega)) (by omega) (by omega)
  exact hstep i 0 .start (Nat.zero_le i) (Nat.sub_le i 0)

/-- Behind the items read so far, what is put out is that of the rest. -/
theorem Reached.scan_drop (hw : ∀ l : List α, l ≠ [] → 0 < width l)
    (hlen : ∀ l : List α, l ≠ [] → (item l).length = width l) (h : Reached width l p) :
    (scan item width l).drop p = scan item width (l.drop p) := by
  induction h with
  | start => rfl
  | @next p _ hp ih =>
    have hne : l.drop p ≠ [] := by
      rw [ne_eq, List.drop_eq_nil_iff]
      omega
    rw [← List.drop_drop, ih, scan_eq hw hne, ← hlen _ hne, List.drop_left, hlen _ hne, List.drop_drop]

/-- What is put out for a position depends only on the item it is in. -/
theorem Reached.scan_getElem? (hw : ∀ l : List α, l ≠ [] → 0 < width l)
    (hlen : ∀ l : List α, l ≠ [] → (item l).length = width l) (h : Reached width l p) (hp : p < l.length) {i : Nat}
    (hi : i < width (l.drop p)) : (scan item width l)[p + i]? = (item (l.drop p))[i]? := by
  have hne : l.drop p ≠ [] := by
    rw [ne_eq, List.drop_eq_nil_iff]
    omega
  rw [← List.getElem?_drop, h.scan_drop hw hlen, scan_eq hw hne,
    List.getElem?_append_left (by rw [hlen _ hne]; exact hi)]

/-- Two readings that agree on the items the first one finds find the same items. -/
theorem Reached.congr (h : ∀ p, Reached width l p → p < l.length → width' (l.drop p) = width (l.drop p)) :
    Reached width' l p ↔ Reached width l p := by
  constructor
  · intro hp
    induction hp with
    | start => exact .start
    | next _ hlt ih =>
      rw [h _ ih hlt]
      exact ih.next hlt
  · intro hp
    induction hp with
    | start => exact .start
    | next hp hlt ih =>
      rw [← h _ hp hlt]
      exact ih.next hlt

end CocoaWay.Lib
