import Mathlib.Algebra.BigOperators.Group.List.Basic
import Mathlib.Algebra.Order.BigOperators.Group.List
import Mathlib.Algebra.Order.Group.Nat
import Mathlib.Algebra.Ring.Nat
import Mathlib.Data.List.Nodup
import Mathlib.Data.List.Perm.Basic

/-!
# Ledgers, pools and tallies

* `total f l` : the sum of the charge `f` over the live entries `l`, and over a part of them;
* `WithinAllowance f M P l` : the total is within the limit `M`, but for the charge of one live entry that meets `P`;
  releasing an entry keeps it, and so does admitting one against the total less a credited live entry;
* `advance x ys pool` : one task `x` of the pool takes a step and leaves the tasks `ys`; `total_advance`, `mem_advance`;
* `total_pos`, `total_eq_zero` : totals as existence of a task;
* `tally l` : the number of the entries and the first of them;
* `Alike` : tallies of as many entries, of the same one if there is one; `tally_perm`;
* `total_indicator` : one of the keys that are kept gets one more.
-/

namespace CocoaWay.Lib

/-! ## Totals -/

section Totals

variable {α : Type*} {f : α → Nat} {M : Nat} {P Q : α → Prop} {l : List α}

/-- The total of a charge over the live entries. -/
def total (f : α → Nat) (l : List α) : Nat := (l.map f).sum

@[simp] theorem total_nil (f : α → Nat) : total f [] = 0 := rfl

@[simp] theorem total_cons (f : α → Nat) (x : α) (l : List α) : total f (x :: l) = f x + total f l := by
  simp [total]

variable {x : α}

theorem total_erase [DecidableEq α] (f : α → Nat) (h : x ∈ l) : total f l = f x + total f (l.erase x) := by
  rw [← total_cons]
  exact ((List.perm_cons_erase h).map f).sum_eq

theorem charge_le_total (f : α → Nat) (h : x ∈ l) : f x ≤ total f l :=
  List.le_sum_of_mem (List.mem_map_of_mem h)

theorem total_mono {g : α → Nat} (h : ∀ x ∈ l, f x ≤ g x) : total f l ≤ total g l :=
  List.sum_le_sum h

theorem total_add (f g : α → Nat) (l : List α) : total (fun x => f x + g x) l = total f l + total g l := by
  simp [total, List.sum_map_add]

section Filter

variable {p q : α → Bool}

theorem total_filter (f : α → Nat) (p : α → Bool) (l : List α) :
    total f (l.filter p) = total (fun x => if p x then f x else 0) l := by
  induction l with
  | nil => rfl
  | cons x l ih =>
    rw [List.filter_cons, total_cons, ← ih]
    split
    · rw [total_cons]
    · rw [Nat.zero_add]

theorem total_filter_mono (f : α → Nat) (h : ∀ x ∈ l, q x = true → p x = true) :
    total f (l.filter q) ≤ total f (l.filter p) := by
  rw [total_filter, total_filter]
  apply total_mono
  intro x hx
  have hqp := h x hx
  split <;> simp_all

/-- Without one of its entries, a part charges that much less. -/
theorem total_filter_add_le (f : α → Nat) (h : ∀ x ∈ l, q x = true → p x = true) {x : α} (hx : x ∈ l) (hp : p x = true)
    (hq : q x = false) : total f (l.filter q) + f x ≤ total f (l.filter p) := by
  induction l with
  | nil => cases hx
  | cons y l ih =>
    have hmono := total_filter_mono f fun z hz => h z (List.mem_cons_of_mem y hz)
    have hy := h y List.mem_cons_self
    rw [List.filter_cons, List.filter_cons]
    rcases List.mem_cons.1 hx with rfl | hx
    · rw [if_pos hp, if_neg (by simp [hq]), total_cons]
      omega
    · have hle := ih (fun z hz => h z (List.mem_cons_of_mem y hz)) hx
      split
      · rw [if_pos (hy ‹_›), total_cons, total_cons]
        omega
      · split
        · rw [total_cons]
          omega
        · exact hle

/-- With one more entry, a part charges at most that much more. -/
theorem total_filter_le_add (f : α → Nat) {x : α} (hn : l.Nodup) (h : ∀ y ∈ l, q y = true → p y = true ∨ y = x) :
    total f (l.filter q) ≤ total f (l.filter p) + f x := by
  induction l with
  | nil => exact Nat.zero_le _
  | cons y l ih =>
    obtain ⟨hy, hn⟩ := List.nodup_cons.1 hn
    have htail : ∀ z ∈ l, q z = true → p z = true ∨ z = x := fun z hz => h z (List.mem_cons_of_mem y hz)
    simp only [total_filter, total_cons] at ih ⊢
    by_cases hyx : y = x
    · subst hyx
      have hmono := total_filter_mono f fun z hz hq => (htail z hz hq).resolve_right fun he => hy (he ▸ hz)
      rw [total_filter, total_filter] at hmono
      have hle : (if q y = true then f y else 0) ≤ f y := by split <;> omega
      omega
    · have hpy : q y = true → p y = true := fun hq => (h y List.mem_cons_self hq).resolve_right hyx
      have hle : (if q y = true then f y else 0) ≤ if p y = true then f y else 0 := by
        split
        · rw [if_pos (hpy ‹_›)]
        · exact Nat.zero_le _
      have hrest := ih hn htail
      omega

theorem total_perm {l' : List α} (f : α → Nat) (h : l.Perm l') : total f l = total f l' := (h.map f).sum_eq

theorem total_filter_split (f : α → Nat) (p q : α → Bool) (l : List α) :
    total f (l.filter p) = total f (l.filter fun x => p x && q x) + total f (l.filter fun x => p x && !q x) := by
  simp only [total_filter, ← total_add]
  congr 1
  funext x
  cases p x <;> cases q x <;> simp

end Filter

/-- The total is within the limit, but for the charge of one live entry that meets `P`. -/
def WithinAllowance (f : α → Nat) (M : Nat) (P : α → Prop) (l : List α) : Prop :=
  total f l ≤ M ∨ ∃ x ∈ l, P x ∧ total f l ≤ M + f x

theorem withinAllowance_nil : WithinAllowance f M P [] := Or.inl (Nat.zero_le M)

theorem WithinAllowance.mono (hP : ∀ x ∈ l, P x → Q x) (h : WithinAllowance f M P l) : WithinAllowance f M Q l := by
  rcases h with h | ⟨x, hx, hpx, h⟩
  · exact Or.inl h
  · exact Or.inr ⟨x, hx, hP x hx hpx, h⟩

/-- The bound with the allowance counted in, when every entry that may be credited charges at most `c`. -/
theorem WithinAllowance.le {c : Nat} (h : WithinAllowance f M P l) (hc : ∀ x ∈ l, f x ≤ c) : total f l ≤ M + c := by
  rcases h with h | ⟨x, hx, -, h⟩
  · omega
  · have := hc x hx
    omega

/-- Releasing an entry keeps the bound: the credited entry is either released or still live. -/
theorem WithinAllowance.erase [DecidableEq α] (h : WithinAllowance f M P l) (hx : x ∈ l) :
    WithinAllowance f M P (l.erase x) := by
  have ht := total_erase f hx
  rcases h with h | ⟨y, hy, hpy, h⟩
  · exact Or.inl (by omega)
  · by_cases hyx : y = x
    · subst hyx
      exact Or.inl (by omega)
    · exact Or.inr ⟨y, (List.mem_erase_of_ne hyx).2 hy, hpy, by omega⟩

theorem WithinAllowance.cons_of_zero (h : WithinAllowance f M P l) (hx : f x = 0) :
    WithinAllowance f M P (x :: l) := by
  unfold WithinAllowance at h ⊢
  rw [total_cons, hx, Nat.zero_add]
  rcases h with h | ⟨y, hy, hpy, h⟩
  · exact Or.inl h
  · exact Or.inr ⟨y, List.mem_cons_of_mem x hy, hpy, h⟩

/-- Admitting an entry against the total less the charge of a credited live entry. -/
theorem WithinAllowance.cons_of_admitted {credit : Option α} (hc : ∀ y ∈ credit, y ∈ l ∧ P y)
    (h : f x + (total f l - credit.elim 0 f) ≤ M) : WithinAllowance f M P (x :: l) := by
  unfold WithinAllowance
  rw [total_cons]
  cases credit with
  | none => exact Or.inl (by simpa using h)
  | some y =>
    obtain ⟨hy, hpy⟩ := hc y rfl
    have := charge_le_total f hy
    simp only [Option.elim_some] at h
    exact Or.inr ⟨y, List.mem_cons_of_mem x hy, hpy, by omega⟩

end Totals

/-! ## Pools of tasks in progress -/

section Pools

variable {α β : Type*} [DecidableEq α] {x y : α} {ys pool pool' : List α}

/-- One task `x` of the pool takes a step and leaves the tasks `ys`; `none` when there is no such task. -/
def advance (x : α) (ys pool : List α) : Option (List α) :=
  if x ∈ pool then some (ys ++ pool.erase x) else none

theorem advance_eq_some : advance x ys pool = some pool' ↔ x ∈ pool ∧ pool' = ys ++ pool.erase x := by
  unfold advance
  split <;> simp [*, eq_comm]

omit [DecidableEq α] in
theorem total_append (f : α → Nat) (l l' : List α) : total f (l ++ l') = total f l + total f l' := by
  simp [total]

theorem total_advance (h : advance x ys pool = some pool') (f : α → Nat) :
    total f pool' + f x = total f ys + total f pool := by
  obtain ⟨hx, rfl⟩ := advance_eq_some.1 h
  rw [total_append, total_erase f hx]
  omega

theorem mem_advance (h : advance x ys pool = some pool') (hy : y ∈ pool') : y ∈ ys ∨ y ∈ pool := by
  obtain ⟨-, rfl⟩ := advance_eq_some.1 h
  rcases List.mem_append.1 hy with hy | hy
  · exact Or.inl hy
  · exact Or.inr (List.mem_of_mem_erase hy)

omit [DecidableEq α] in
theorem total_pos {f : α → Nat} : 0 < total f pool ↔ ∃ x ∈ pool, 0 < f x := by
  induction pool with
  | nil => simp
  | cons a l ih =>
    rw [total_cons, Nat.add_pos_iff_pos_or_pos, ih]
    simp

omit [DecidableEq α] in
theorem total_eq_zero {f : α → Nat} : total f pool = 0 ↔ ∀ x ∈ pool, f x = 0 := by
  induction pool with
  | nil => simp
  | cons a l ih =>
    rw [total_cons, Nat.add_eq_zero_iff, ih]
    simp

end Pools

/-! ## What is kept of a stream of entries -/

section Tallies

variable {α κ : Type*} {l l' : List α} {a : α}

def tally : List α → Option (Nat × α)
  | [] => none
  | a :: l => some (l.length + 1, a)

/-- One more entry. -/
def tallied (a : α) : Option (Nat × α) → Option (Nat × α)
  | none => some (1, a)
  | some (count, first) => some (count + 1, first)

theorem tally_append (l : List α) (a : α) : tally (l ++ [a]) = tallied a (tally l) := by
  cases l with
  | nil => rfl
  | cons b l =>
    unfold tally tallied
    simp

theorem tally_eq_none : tally l = none ↔ l = [] := by
  cases l <;> simp [tally]

theorem count_tally (l : List α) : ((tally l).map (·.1)).getD 0 = l.length := by
  cases l <;> rfl

theorem tally_eq_one {first : α} : tally l = some (1, first) ↔ l = [first] := by
  cases l with
  | nil => simp [tally]
  | cons b l => simp [tally, and_comm]

/-- As many entries, and the same one if there is one. -/
def Alike : Option (Nat × α) → Option (Nat × α) → Prop
  | none, none => True
  | some (n, a), some (n', a') => n = n' ∧ (n = 1 → a = a')
  | _, _ => False

theorem tally_perm (h : l.Perm l') : Alike (tally l) (tally l') := by
  cases l with
  | nil =>
    rw [h.symm.eq_nil]
    trivial
  | cons a l =>
    cases l' with
    | nil => exact absurd h.eq_nil (List.cons_ne_nil a l)
    | cons a' l' =>
      have hlength : l.length = l'.length := by simpa using h.length_eq
      refine ⟨by rw [hlength], fun hone => ?_⟩
      obtain rfl : l = [] := List.length_eq_zero_iff.1 (by omega)
      have heq := h.symm.eq_singleton
      exact (List.cons.inj heq).1.symm

theorem Alike.isNone {t t' : Option (Nat × α)} (h : Alike t t') : t.isNone = t'.isNone := by
  cases t <;> cases t' <;> first | rfl | exact h.elim

theorem Alike.count {t t' : Option (Nat × α)} (h : Alike t t') : (t.map (·.1)).getD 0 = (t'.map (·.1)).getD 0 := by
  cases t <;> cases t' <;> first | rfl | exact h.elim | exact h.1

variable [DecidableEq κ] {kept : List κ} {k : κ}

theorem total_eq_count (kept : List κ) (k : κ) : total (fun k' => if k' = k then 1 else 0) kept = kept.count k := by
  induction kept with
  | nil => rfl
  | cons k' kept ih =>
    rw [total_cons, List.count_cons, ih, Nat.add_comm]
    simp [beq_iff_eq]

theorem total_indicator (hkept : kept.Nodup) (hk : k ∈ kept) : total (fun k' => if k' = k then 1 else 0) kept = 1 := by
  rw [total_eq_count]
  exact List.count_eq_one_of_mem hkept hk

end Tallies

end CocoaWay.Lib
