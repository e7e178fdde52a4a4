import Mathlib.Data.List.Basic
import Mathlib.Order.Lattice
import Mathlib.Tactic.TypeStar

/-!
# The best of a list, from both ends

* `Picks R op` : `op` is the better one of two; `Best R e l` : `e` is in `l`, and as good as every entry;
* `best l op` : the best entry, by a fold; `Best.append`, `Best.unique`, `Best.perm`;
* `running op l`, `runningBack op l` : the best so far at every index, from the front and from the back;
* `getElem?_running`, `getElem?_runningBack` : what stands at an index.
-/

namespace CocoaWay.Lib

variable {α β : Type*} {R : α → α → Prop} {op : α → α → α} {a e e' : α} {l l' : List α} {k : Nat}

structure Picks (R : α → α → Prop) (op : α → α → α) : Prop where
  pick : ∀ a b, op a b = a ∨ op a b = b
  left : ∀ a b, R (op a b) a
  right : ∀ a b, R (op a b) b
  refl : ∀ a, R a a
  trans : ∀ {a b c}, R a b → R b c → R a c

theorem picks_min [LinearOrder α] : Picks (α := α) (· ≤ ·) min where
  pick a b := (le_total a b).imp min_eq_left min_eq_right
  left := min_le_left
  right := min_le_right
  refl := le_refl
  trans := le_trans

theorem picks_max [LinearOrder α] : Picks (α := α) (· ≥ ·) max where
  pick a b := (le_total b a).imp max_eq_left max_eq_right
  left := le_max_left
  right := le_max_right
  refl := le_refl
  trans := ge_trans

def Best (R : α → α → Prop) (e : α) (l : List α) : Prop := e ∈ l ∧ ∀ a ∈ l, R e a

namespace Best

theorem perm (h : Best R e l) (hl : l.Perm l') : Best R e l' :=
  ⟨hl.mem_iff.1 h.1, fun a ha => h.2 a (hl.mem_iff.2 ha)⟩

theorem unique (hanti : ∀ a b, R a b → R b a → a = b) (h : Best R e l) (h' : Best R e' l) : e = e' :=
  hanti e e' (h.2 e' h'.1) (h'.2 e h.1)

theorem singleton (h : Picks R op) (a : α) : Best R a [a] :=
  ⟨List.mem_singleton_self a, fun _ hb => List.mem_singleton.1 hb ▸ h.refl a⟩

theorem append (hop : Picks R op) (h : Best R e l) (h' : Best R e' l') : Best R (op e e') (l ++ l') := by
  constructor
  · obtain heq | heq := hop.pick e e'
    · rw [heq]
      exact List.mem_append_left _ h.1
    · rw [heq]
      exact List.mem_append_right _ h'.1
  · intro a ha
    rcases List.mem_append.1 ha with ha | ha
    · exact hop.trans (hop.left e e') (h.2 a ha)
    · exact hop.trans (hop.right e e') (h'.2 a ha)

/-- A function that keeps the order takes the best entry to the best one. -/
theorem map {S : β → β → Prop} {f : α → β} (hf : ∀ a b, R a b → S (f a) (f b)) (h : Best R e l) :
    Best S (f e) (l.map f) := by
  refine ⟨List.mem_map_of_mem h.1, fun b hb => ?_⟩
  obtain ⟨a, ha, rfl⟩ := List.mem_map.1 hb
  exact hf e a (h.2 a ha)

end Best

theorem best_foldl (hop : Picks R op) (a : α) (l : List α) : Best R (l.foldl op a) (a :: l) := by
  induction l generalizing a with
  | nil => exact .singleton hop a
  | cons b l ih =>
    obtain ⟨hmem, hbest⟩ := ih (op a b)
    have hchosen := hbest (op a b) List.mem_cons_self
    refine ⟨?_, fun c hc => ?_⟩
    · rcases List.mem_cons.1 hmem with heq | hmem
      · rw [List.foldl_cons, heq]
        obtain hpick | hpick := hop.pick a b
        · rw [hpick]
          exact List.mem_cons_self
        · rw [hpick]
          exact List.mem_cons_of_mem _ List.mem_cons_self
      · exact List.mem_cons_of_mem _ (List.mem_cons_of_mem _ hmem)
    · rw [List.foldl_cons]
      rcases List.mem_cons.1 hc with rfl | hc
      · exact hop.trans hchosen (hop.left c b)
      · rcases List.mem_cons.1 hc with rfl | hc
        · exact hop.trans hchosen (hop.right a c)
        · exact hbest c (List.mem_cons_of_mem _ hc)

def best (op : α → α → α) : List α → Option α
  | [] => none
  | a :: l => some (l.foldl op a)

theorem best_eq_some (hop : Picks R op) (h : best op l = some e) : Best R e l := by
  cases l with
  | nil => cases h
  | cons a l =>
    obtain rfl := Option.some.inj h
    exact best_foldl hop a l

theorem exists_best (op : α → α → α) (hl : l ≠ []) : ∃ e, best op l = some e := by
  cases l with
  | nil => exact absurd rfl hl
  | cons a l => exact ⟨_, rfl⟩

/-! ## Running bests -/

def running (op : α → α → α) : List α → List α
  | [] => []
  | a :: l => l.scanl op a

def runningBack (op : α → α → α) (l : List α) : List α := (running op l.reverse).reverse

theorem length_running (op : α → α → α) (l : List α) : (running op l).length = l.length := by
  cases l with
  | nil => rfl
  | cons a l => exact List.length_scanl

theorem getElem?_running (hop : Picks R op) (hk : k < l.length) :
    ∃ e, (running op l)[k]? = some e ∧ Best R e (l.take (k + 1)) := by
  cases l with
  | nil => exact absurd hk (Nat.not_lt_zero k)
  | cons a l =>
    refine ⟨(l.take k).foldl op a, ?_, best_foldl hop a _⟩
    have hle : k ≤ l.length := Nat.le_of_lt_succ hk
    exact List.getElem?_scanl.trans (if_pos hle)

theorem getElem?_runningBack (hop : Picks R op) (hk : k < l.length) :
    ∃ e, (runningBack op l)[k]? = some e ∧ Best R e (l.drop k) := by
  have hk' : l.length - 1 - k < l.reverse.length := by
    rw [List.length_reverse]
    omega
  obtain ⟨e, he, hbest⟩ := getElem?_running hop hk'
  refine ⟨e, ?_, ?_⟩
  · unfold runningBack
    rw [List.getElem?_reverse (by rw [length_running, List.length_reverse]; exact hk), length_running,
      List.length_reverse]
    exact he
  · have htake : l.reverse.take (l.length - 1 - k + 1) = (l.drop k).reverse := by
      rw [List.take_reverse]
      congr 2
      omega
    rw [htake] at hbest
    exact hbest.perm (List.reverse_perm _)

end CocoaWay.Lib
