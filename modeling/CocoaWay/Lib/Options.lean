import Mathlib.Data.List.Basic

/-!
# Argument lists with options

* `Grammar` : which arguments are options, and which options take the next argument, unless it begins with a dash;
* `Grammar.strip`, `Grammar.options` : a list without its options and their values, and its options;
* `strip_append`, `options_append` : a list behind one that takes no value; `strip_sublist` : with fewer options less
  is taken; `filter_strip` : arguments that are no options and no values stay.
-/

namespace CocoaWay.Lib

variable {α : Type*}

structure Grammar (α : Type*) where
  dash : α → Bool
  option : α → Bool
  /-- The option takes the next argument. -/
  bare : α → Bool

namespace Grammar

/-- The arguments that are no options and no values of options. -/
@[grind] def strip (g : Grammar α) : List α → List α
  | [] => []
  | [a] => if g.option a then [] else [a]
  | a :: v :: rest =>
    if g.option a then if g.bare a && !g.dash v then g.strip rest else g.strip (v :: rest)
    else a :: g.strip (v :: rest)

/-- The options, without their values. -/
@[grind] def options (g : Grammar α) : List α → List α
  | [] => []
  | [a] => if g.option a then [a] else []
  | a :: v :: rest =>
    if g.option a then a :: if g.bare a && !g.dash v then g.options rest else g.options (v :: rest)
    else g.options (v :: rest)

variable {g g' : Grammar α} {l l' : List α} {a : α}

/-- A list is walked from the front; an option takes its value along. -/
theorem walk {P : List α → Prop} (nil : P [])
    (keep : ∀ a rest, g.option a = false → P rest → P (a :: rest))
    (drop : ∀ a rest, g.option a = true → (g.bare a = false ∨ ∀ v ∈ rest.head?, g.dash v = true) → P rest →
      P (a :: rest))
    (skip : ∀ a v rest, g.option a = true → g.bare a = true → g.dash v = false → P rest → P (a :: v :: rest)) :
    ∀ l, P l
  | [] => nil
  | [a] =>
    match ha : g.option a with
    | true => drop a [] ha (.inr nofun) nil
    | false => keep a [] ha nil
  | a :: v :: rest =>
    match ha : g.option a with
    | false => keep a (v :: rest) ha (walk nil keep drop skip (v :: rest))
    | true =>
      match hb : g.bare a, hv : g.dash v with
      | true, false => skip a v rest ha hb hv (walk nil keep drop skip rest)
      | false, _ => drop a (v :: rest) ha (.inl hb) (walk nil keep drop skip (v :: rest))
      | true, true => drop a (v :: rest) ha (.inr (by simpa using hv)) (walk nil keep drop skip (v :: rest))

theorem strip_keep (h : g.option a = false) (rest : List α) : g.strip (a :: rest) = a :: g.strip rest := by
  cases rest with
  | nil => simp [strip, h]
  | cons v rest => simp [strip, h]

theorem strip_drop (h : g.option a = true) {rest : List α} (hv : g.bare a = false ∨ ∀ v ∈ rest.head?, g.dash v = true) :
    g.strip (a :: rest) = g.strip rest := by
  cases rest with
  | nil => simp [strip, h]
  | cons v rest =>
    have htake : (g.bare a && !g.dash v) = false := by
      rcases hv with hv | hv
      · rw [hv, Bool.false_and]
      · rw [hv v rfl, Bool.not_true, Bool.and_false]
    simp [strip, h, htake]

theorem strip_skip (h : g.option a = true) (hb : g.bare a = true) {v : α} (hv : g.dash v = false) (rest : List α) :
    g.strip (a :: v :: rest) = g.strip rest := by simp [strip, h, hb, hv]

theorem options_keep (h : g.option a = false) (rest : List α) : g.options (a :: rest) = g.options rest := by
  cases rest with
  | nil => simp [options, h]
  | cons v rest => simp [options, h]

theorem options_drop (h : g.option a = true) {rest : List α}
    (hv : g.bare a = false ∨ ∀ v ∈ rest.head?, g.dash v = true) :
    g.options (a :: rest) = a :: g.options rest := by
  cases rest with
  | nil => simp [options, h]
  | cons v rest =>
    have htake : (g.bare a && !g.dash v) = false := by
      rcases hv with hv | hv
      · rw [hv, Bool.false_and]
      · rw [hv v rfl, Bool.not_true, Bool.and_false]
    simp [options, h, htake]

theorem options_skip (h : g.option a = true) (hb : g.bare a = true) {v : α} (hv : g.dash v = false) (rest : List α) :
    g.options (a :: v :: rest) = a :: g.options rest := by simp [options, h, hb, hv]

theorem mem_strip (h : a ∈ g.strip l) : a ∈ l ∧ g.option a = false := by
  revert h
  refine walk (g := g) (P := fun l => a ∈ g.strip l → a ∈ l ∧ g.option a = false) nofun ?_ ?_ ?_ l
  · intro b rest hb ih h
    rw [strip_keep hb] at h
    rcases List.mem_cons.1 h with rfl | h
    · exact ⟨List.mem_cons_self, hb⟩
    · exact ⟨List.mem_cons_of_mem b (ih h).1, (ih h).2⟩
  · intro b rest hb hv ih h
    rw [strip_drop hb hv] at h
    exact ⟨List.mem_cons_of_mem b (ih h).1, (ih h).2⟩
  · intro b v rest hb hbare hv ih h
    rw [strip_skip hb hbare hv] at h
    exact ⟨List.mem_cons_of_mem b (List.mem_cons_of_mem v (ih h).1), (ih h).2⟩

/-- Arguments that are no options stay, and what is behind them is read alone. -/
theorem strip_append (h : ∀ a ∈ l, g.option a = false) (l' : List α) : g.strip (l ++ l') = l ++ g.strip l' := by
  induction l with
  | nil => rfl
  | cons a l ih =>
    rw [List.cons_append, strip_keep (h a List.mem_cons_self), ih fun b hb => h b (List.mem_cons_of_mem a hb),
      List.cons_append]

/-- The options of a list that takes no value, and of what is behind it. -/
theorem options_append (h : ∀ a ∈ l, g.bare a = false) (l' : List α) :
    g.options (l ++ l') = l.filter g.option ++ g.options l' := by
  induction l with
  | nil => rfl
  | cons a l ih =>
    have hrest := ih fun b hb => h b (List.mem_cons_of_mem a hb)
    cases ha : g.option a with
    | true =>
      rw [List.filter_cons_of_pos ha, List.cons_append, List.cons_append,
        options_drop ha (.inl (h a List.mem_cons_self)), hrest]
    | false => rw [List.filter_cons_of_neg (by simp [ha]), List.cons_append, options_keep ha, hrest]

/-- Of two grammars, the one with more options, none of them with a value, leaves no more. -/
theorem strip_sublist (hdash : g.dash = g'.dash) (hoption : ∀ a, g.option a = true → g'.option a = true)
    (hbare : ∀ a, g.option a = true → g.bare a = g'.bare a)
    (hmore : ∀ a, g'.option a = true → g.option a = false → g'.bare a = false) (l : List α) :
    (g'.strip l).Sublist (g.strip l) := by
  refine walk (g := g) (P := fun l => (g'.strip l).Sublist (g.strip l)) ?_ ?_ ?_ ?_ l
  · exact List.Sublist.refl _
  · intro a rest ha ih
    rw [strip_keep ha]
    cases ha' : g'.option a with
    | true =>
      rw [strip_drop ha' (.inl (hmore a ha' ha))]
      exact ih.cons a
    | false =>
      rw [strip_keep ha']
      exact ih.cons_cons a
  · intro a rest ha hv ih
    rw [hbare a ha, hdash] at hv
    rw [strip_drop ha (by rwa [hbare a ha, hdash]), strip_drop (hoption a ha) hv]
    exact ih
  · intro a v rest ha hb hv ih
    rw [strip_skip ha hb hv, strip_skip (hoption a ha) (by rw [← hbare a ha, hb]) (by rw [← hdash, hv])]
    exact ih

/-- Only what the arguments of the list are counts. -/
theorem strip_congr (hdash : g.dash = g'.dash) (h : ∀ a ∈ l, g.option a = g'.option a ∧ g.bare a = g'.bare a) :
    g.strip l = g'.strip l := by
  revert h
  refine walk (g := g) (P := fun l => (∀ a ∈ l, g.option a = g'.option a ∧ g.bare a = g'.bare a) →
    g.strip l = g'.strip l)
    (fun _ => rfl) ?_ ?_ ?_ l
  · intro a rest ha ih h
    have hrest := ih fun b hb => h b (List.mem_cons_of_mem a hb)
    rw [strip_keep ha, strip_keep (by rw [← (h a List.mem_cons_self).1, ha]), hrest]
  · intro a rest ha hv ih h
    have hrest := ih fun b hb => h b (List.mem_cons_of_mem a hb)
    obtain ⟨hoption, hbare⟩ := h a List.mem_cons_self
    rw [strip_drop ha hv, strip_drop (by rw [← hoption, ha]) (by rwa [← hbare, ← hdash]), hrest]
  · intro a v rest ha hb hv ih h
    have hrest := ih fun b hb => h b (List.mem_cons_of_mem a (List.mem_cons_of_mem v hb))
    obtain ⟨hoption, hbare⟩ := h a List.mem_cons_self
    rw [strip_skip ha hb hv, strip_skip (by rw [← hoption, ha]) (by rw [← hbare, hb]) (by rw [← hdash, hv]), hrest]

/-- Arguments with a dash that are no options all stay. -/
theorem filter_strip {p : α → Bool} (h : ∀ a, p a = true → g.dash a = true ∧ g.option a = false) (l : List α) :
    (g.strip l).filter p = l.filter p := by
  have hno {a : α} (ha : g.option a = true) : ¬ p a = true := fun hp => by
    rw [(h a hp).2] at ha
    cases ha
  refine walk (g := g) (P := fun l => (g.strip l).filter p = l.filter p) rfl ?_ ?_ ?_ l
  · intro a rest ha ih
    rw [strip_keep ha, List.filter_cons, List.filter_cons, ih]
  · intro a rest ha hv ih
    rw [strip_drop ha hv, List.filter_cons_of_neg (hno ha), ih]
  · intro a v rest ha hb hv ih
    have hpv : ¬ p v = true := fun hp => by
      rw [(h v hp).1] at hv
      cases hv
    rw [strip_skip ha hb hv, List.filter_cons_of_neg (hno ha), List.filter_cons_of_neg hpv, ih]

/-- An argument with a dash that is no option is among those left. -/
theorem mem_strip_of_dash (hmem : a ∈ l) (hdash : g.dash a = true) (hoption : g.option a = false) [DecidableEq α] :
    a ∈ g.strip l := by
  have hfilter := filter_strip (g := g) (p := (· == a)) (fun b hb => by
    obtain rfl := beq_iff_eq.1 hb
    exact ⟨hdash, hoption⟩) l
  have hin : a ∈ l.filter (· == a) := List.mem_filter.2 ⟨hmem, beq_self_eq_true a⟩
  rw [← hfilter] at hin
  exact (List.mem_filter.1 hin).1

end Grammar

end CocoaWay.Lib
