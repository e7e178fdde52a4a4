import Mathlib.Data.List.Infix

/-!
# Masking parts of a list

* `Apart m s` : no occurrence of `s` overlaps one of `m`; `Apart.infix_or` : an occurrence lies to one side of `m`;
* `Shut s l` : no occurrence of `s` begins in `l` and goes on behind it;
* `Masks m l l'` : `l'` is `l` with parts of it masked by `m`; `Masks.found`, `Masks.shut` : what is apart from
  the mask is not found anew, and does not begin anew at the end.
-/

namespace CocoaWay.Lib

variable {α : Type*} {m s l l' : List α}

/-! ## Occurrences that do not overlap -/

/-- No occurrence of `s` overlaps one of `m`. -/
structure Apart (m s : List α) : Prop where
  nonempty : s ≠ []
  notWithin : ¬ s <:+: m
  notAround : ¬ m <:+: s
  notBefore : ∀ p ∈ s.tails, p ≠ [] → ¬ p <+: m
  notBehind : ∀ p ∈ s.inits, p ≠ [] → ¬ p <:+ m

instance [DecidableEq α] (m s : List α) : Decidable (Apart m s) :=
  decidable_of_iff (s ≠ [] ∧ ¬ s <:+: m ∧ ¬ m <:+: s ∧ (∀ p ∈ s.tails, p ≠ [] → ¬ p <+: m) ∧
    ∀ p ∈ s.inits, p ≠ [] → ¬ p <:+ m)
    ⟨fun ⟨h₁, h₂, h₃, h₄, h₅⟩ => ⟨h₁, h₂, h₃, h₄, h₅⟩, fun h => ⟨h.1, h.2, h.3, h.4, h.5⟩⟩

/-- What is a prefix of a list with the mask in it ends before the mask. -/
theorem Apart.prefix_front (h : Apart m s) {x y : List α} (hs : s <+: x ++ (m ++ y)) : s <+: x := by
  obtain ⟨b, hb⟩ := hs
  rcases List.append_eq_append_iff.1 hb with ⟨c, rfl, -⟩ | ⟨c, rfl, hc⟩
  · exact List.prefix_append s c
  · by_cases hnil : c = []
    · rw [hnil, List.append_nil]
    · exfalso
      rcases List.append_eq_append_iff.1 hc with ⟨d, hd, -⟩ | ⟨d, hd, -⟩
      · exact h.notAround ⟨x, d, by rw [hd, List.append_assoc]⟩
      · exact h.notBefore c ((List.mem_tails _ _).2 (List.suffix_append x c)) hnil ⟨d, hd.symm⟩

/-- No suffix of a list that ends with the mask is a part of `s` to go on with. -/
theorem Apart.not_suffix (h : Apart m s) {x u : List α} (hu : u ≠ []) (hx : u <:+ x ++ m) : ¬ u <+: s := by
  intro hp
  obtain ⟨a, ha⟩ := hx
  rcases List.append_eq_append_iff.1 ha with ⟨c, rfl, rfl⟩ | ⟨c, rfl, rfl⟩
  · exact h.notAround ((List.suffix_append c m).isInfix.trans hp.isInfix)
  · exact h.notBehind u ((List.mem_inits _ _).2 hp) hu (List.suffix_append c u)

/-- An occurrence in a list with the mask in it lies to one side of the mask. -/
theorem Apart.infix_or (h : Apart m s) {x y : List α} (hs : s <:+: x ++ (m ++ y)) : s <:+: x ∨ s <:+: y := by
  obtain ⟨a, b, hab⟩ := hs
  rw [List.append_assoc] at hab
  rcases List.append_eq_append_iff.1 hab with ⟨c, rfl, hc⟩ | ⟨c, rfl, hc⟩
  · have hp : s <+: c ++ (m ++ y) := ⟨b, hc⟩
    exact Or.inl ((h.prefix_front hp).isInfix.trans (List.suffix_append a c).isInfix)
  · rcases List.append_eq_append_iff.1 hc with ⟨d, rfl, rfl⟩ | ⟨d, rfl, hd⟩
    · right
      exact (List.prefix_append s b).isInfix.trans (List.suffix_append d _).isInfix
    · by_cases hnil : d = []
      · rw [hnil, List.nil_append] at hd
        rw [← hd]
        exact Or.inr (List.prefix_append s b).isInfix
      · exfalso
        rcases List.append_eq_append_iff.1 hd with ⟨e, rfl, -⟩ | ⟨e, he, -⟩
        · exact h.notWithin ((List.prefix_append s e).isInfix.trans (List.suffix_append c _).isInfix)
        · exact h.not_suffix (x := []) hnil (List.suffix_append c d) ⟨e, he.symm⟩

/-! ## Ends that nothing goes on from -/

/-- No occurrence of `s` begins in `l` and goes on behind it. -/
def Shut (s l : List α) : Prop := ∀ u, u ≠ [] → u <:+ l → u <+: s → u = s

theorem Shut.infix_or (h : Shut s l) {y : List α} (hs : s <:+: l ++ y) : s <:+: l ∨ s <:+: y := by
  obtain ⟨a, b, hab⟩ := hs
  rw [List.append_assoc] at hab
  rcases List.append_eq_append_iff.1 hab with ⟨c, rfl, hc⟩ | ⟨c, rfl, rfl⟩
  · rcases List.append_eq_append_iff.1 hc with ⟨d, rfl, -⟩ | ⟨d, rfl, rfl⟩
    · exact Or.inl ((List.prefix_append s d).isInfix.trans (List.suffix_append a _).isInfix)
    · by_cases hnil : c = []
      · rw [hnil]
        exact Or.inr (List.prefix_append d b).isInfix
      · have hc := h c hnil (List.suffix_append a c) (List.prefix_append c d)
        left
        rw [← hc]
        exact (List.suffix_append a c).isInfix
  · exact Or.inr ((List.prefix_append s b).isInfix.trans (List.suffix_append c _).isInfix)

theorem shut_of_getLast {c : α} (hl : l.getLast? = some c) (hc : c ∉ s) : Shut s l := by
  intro u hne hu hp
  obtain ⟨a, rfl⟩ := hu
  have hlast : u.getLast? = some c := by
    rw [List.getLast?_append_of_ne_nil a hne] at hl
    exact hl
  exact absurd (hp.subset (List.mem_of_getLast? hlast)) hc

theorem Apart.shut (h : Apart m s) (x : List α) : Shut s (x ++ m) :=
  fun _ hne hu hp => absurd hp (h.not_suffix hne hu)

theorem Apart.shut_concat (h : Apart m s) (x : List α) {c : α} (hc : s.head? ≠ some c) : Shut s (x ++ m ++ [c]) := by
  intro u hne hu hp
  exfalso
  rcases List.suffix_concat_iff.1 hu with rfl | ⟨v, rfl, hv⟩
  · exact hne rfl
  · by_cases hnil : v = []
    · subst hnil
      obtain ⟨y, rfl⟩ := hp
      exact hc rfl
    · exact h.not_suffix hnil hv ((List.prefix_append v [c]).trans hp)

/-! ## Masking -/

/-- `l'` is `l` with parts of it masked. -/
inductive Masks (m : List α) : List α → List α → Prop
  | nil : Masks m [] []
  | keep (a : α) {l l' : List α} : Masks m l l' → Masks m (a :: l) (a :: l')
  | mask (part : List α) {l l' : List α} : Masks m l l' → Masks m (part ++ l) (m ++ l')

theorem Masks.refl (m : List α) : ∀ l : List α, Masks m l l
  | [] => .nil
  | a :: l => .keep a (Masks.refl m l)

theorem Masks.append {k k' : List α} (h : Masks m k k') (h' : Masks m l l') : Masks m (k ++ l) (k' ++ l') := by
  induction h with
  | nil => exact h'
  | keep a _ ih => exact .keep a ih
  | mask part _ ih =>
    rw [List.append_assoc, List.append_assoc]
    exact .mask part ih

/-- A masked list goes along with the list up to its first mask. -/
theorem Masks.front (h : Masks m l l') : ∃ p r, l' = p ++ r ∧ p <+: l ∧ (r = [] ∨ ∃ y, r = m ++ y) := by
  induction h with
  | nil => exact ⟨[], [], rfl, List.prefix_refl [], Or.inl rfl⟩
  | keep a _ ih =>
    obtain ⟨p, r, rfl, hp, hr⟩ := ih
    exact ⟨a :: p, r, rfl, (List.prefix_cons_inj a).2 hp, hr⟩
  | mask part _ _ => exact ⟨[], _, rfl, List.nil_prefix, Or.inr ⟨_, rfl⟩⟩

/-- A masked list goes along with the list from its last mask on. -/
theorem Masks.back (h : Masks m l l') : ∃ r p, l' = r ++ p ∧ p <:+ l ∧ (r = [] ∧ p = l ∨ ∃ x, r = x ++ m) := by
  induction h with
  | nil => exact ⟨[], [], rfl, List.suffix_refl [], Or.inl ⟨rfl, rfl⟩⟩
  | keep a _ ih =>
    obtain ⟨r, p, rfl, hp, hr⟩ := ih
    rcases hr with ⟨rfl, rfl⟩ | ⟨x, rfl⟩
    · exact ⟨[], _, rfl, List.suffix_refl _, Or.inl ⟨rfl, rfl⟩⟩
    · exact ⟨a :: (x ++ m), p, rfl, hp.trans (List.suffix_cons a _), Or.inr ⟨a :: x, rfl⟩⟩
  | mask part _ ih =>
    obtain ⟨r, p, rfl, hp, hr⟩ := ih
    refine ⟨m ++ r, p, (List.append_assoc m r p).symm, hp.trans (List.suffix_append part _), Or.inr ?_⟩
    rcases hr with ⟨rfl, -⟩ | ⟨x, rfl⟩
    · exact ⟨[], by rw [List.append_nil, List.nil_append]⟩
    · exact ⟨m ++ x, (List.append_assoc m x m).symm⟩

/-- What is apart from the mask and found in the masked list was found in the list. -/
theorem Masks.found (h : Masks m l l') (ha : Apart m s) (hs : s <:+: l') : s <:+: l := by
  induction h with
  | nil => exact hs
  | @keep a l l' h ih =>
    rcases List.infix_cons_iff.1 hs with hp | hs
    · obtain ⟨p, r, rfl, hpl, hr⟩ := h.front
      have hp : s <+: a :: p := by
        rcases hr with rfl | ⟨y, rfl⟩
        · rwa [List.append_nil] at hp
        · exact ha.prefix_front (x := a :: p) hp
      exact (hp.trans ((List.prefix_cons_inj a).2 hpl)).isInfix
    · exact (ih hs).trans (List.suffix_cons a l).isInfix
  | mask part _ ih =>
    rcases ha.infix_or (x := []) hs with hs | hs
    · exact absurd (List.infix_nil.1 hs) ha.nonempty
    · exact (ih hs).trans (List.suffix_append part _).isInfix

theorem Masks.shut (h : Masks m l l') (ha : Apart m s) (hl : Shut s l) : Shut s l' := by
  intro u hne hu hp
  obtain ⟨r, p, rfl, hpl, hr⟩ := h.back
  rcases hr with ⟨rfl, rfl⟩ | ⟨x, rfl⟩
  · exact hl u hne hu hp
  · obtain ⟨a, hau⟩ := hu
    rcases List.append_eq_append_iff.1 hau with ⟨c, hc, rfl⟩ | ⟨c, -, rfl⟩
    · by_cases hnil : c = []
      · subst hnil
        exact hl p hne hpl hp
      · exact absurd ((List.prefix_append c p).trans hp) (ha.not_suffix hnil ⟨a, hc.symm⟩)
    · exact hl u hne ((List.suffix_append c u).trans hpl) hp

end CocoaWay.Lib
