import Mathlib.Data.List.Basic

/-!
# Splitting a list at one of its elements

* `splitOnce c l` : what is before and after the first `c`; `rfind c l` : where the last `c` is;
* `findIdx?_eq_none`, `findIdx?_eq_some` : where the first `c` is;
* `readUntil c limit l` : `l` to its first `c`, or its first `limit` elements, and what is behind;
* `mem_intercalate`, `mem_splitOn`, `forall_splitOn` : the elements of a joined list and of a split one, and its parts;
* `cut d l` : the frames of a stream that end with the delimiter `d`, and what is behind the last of them;
* `frames d ended l` : the frames of a stream; once it has ended, what is behind the last delimiter is one too;
* `joined d fs` : the stream of some frames;
* `Taken` : some frames are taken off the front of a stream.
-/

namespace CocoaWay.Lib

section Elements

variable {α : Type*} [DecidableEq α] {a c : α} {l before after : List α} {i : Nat}

/-! ## At the first one -/

@[grind] def splitOnce (c : α) : List α → Option (List α × List α)
  | [] => none
  | a :: l => if a = c then some ([], l) else (splitOnce c l).map fun parts => (a :: parts.1, parts.2)

theorem splitOnce_append (h : c ∉ before) (after : List α) :
    splitOnce c (before ++ c :: after) = some (before, after) := by
  induction before with
  | nil => exact if_pos rfl
  | cons a before ih =>
    rw [List.mem_cons, not_or] at h
    rw [List.cons_append, splitOnce, if_neg (Ne.symm h.1), ih h.2]
    rfl

theorem splitOnce_eq_none : splitOnce c l = none ↔ c ∉ l := by
  induction l with
  | nil => exact ⟨fun _ => List.not_mem_nil, fun _ => rfl⟩
  | cons a l ih =>
    rw [splitOnce, List.mem_cons, not_or]
    by_cases ha : a = c
    · rw [if_pos ha]
      exact ⟨nofun, fun h => absurd ha.symm h.1⟩
    · rw [if_neg ha, Option.map_eq_none_iff, ih]
      exact ⟨fun h => ⟨Ne.symm ha, h⟩, fun h => h.2⟩

theorem splitOnce_eq_some : splitOnce c l = some (before, after) ↔ l = before ++ c :: after ∧ c ∉ before := by
  constructor
  · intro h
    induction l generalizing before with
    | nil => cases h
    | cons a l ih =>
      rw [splitOnce] at h
      split at h
      next ha =>
        cases h
        exact ⟨congrArg (· :: _) ha, List.not_mem_nil⟩
      next ha =>
        obtain ⟨⟨before', after'⟩, hparts, heq⟩ := Option.map_eq_some_iff.1 h
        cases heq
        obtain ⟨rfl, hnot⟩ := ih hparts
        refine ⟨rfl, fun hmem => ?_⟩
        rcases List.mem_cons.1 hmem with heq | hmem
        · exact ha heq.symm
        · exact hnot hmem
  · rintro ⟨rfl, h⟩
    exact splitOnce_append h after

theorem findIdx?_eq_none : l.findIdx? (· == c) = none ↔ c ∉ l := by
  rw [List.findIdx?_eq_none_iff]
  constructor
  · intro h hmem
    exact absurd (h c hmem) (by simp)
  · intro h a ha
    rw [beq_eq_false_iff_ne]
    rintro rfl
    exact h ha

theorem findIdx?_append_cons (h : c ∉ before) (after : List α) :
    (before ++ c :: after).findIdx? (· == c) = some before.length := by
  rw [List.findIdx?_append, findIdx?_eq_none.2 h, Option.none_or, List.findIdx?_cons, if_pos (beq_self_eq_true c)]
  simp

theorem findIdx?_eq_some : l.findIdx? (· == c) = some i ↔ ∃ before after, l = before ++ c :: after ∧ c ∉ before ∧
    before.length = i := by
  constructor
  · intro h
    have hmem : c ∈ l := by
      by_contra hnot
      rw [findIdx?_eq_none.2 hnot] at h
      cases h
    obtain ⟨before, after, rfl, hbefore⟩ := List.eq_append_cons_of_mem hmem
    rw [findIdx?_append_cons hbefore] at h
    exact ⟨before, after, rfl, hbefore, Option.some.inj h⟩
  · rintro ⟨before, after, rfl, hbefore, rfl⟩
    exact findIdx?_append_cons hbefore after

/-! ## To the first one, within a limit -/

@[grind] def readUntil (c : α) : Nat → List α → List α × List α
  | 0, l => ([], l)
  | _ + 1, [] => ([], [])
  | limit + 1, a :: l => if a = c then ([a], l) else (a :: (readUntil c limit l).1, (readUntil c limit l).2)

theorem readUntil_rest (c : α) (limit : Nat) (l : List α) : (readUntil c limit l).2.length ≤ l.length := by
  induction limit, l using readUntil.induct c with
  | case1 l => exact Nat.le_refl _
  | case2 limit => exact Nat.le_refl _
  | case3 limit l =>
    rw [readUntil, if_pos rfl]
    exact Nat.le_succ _
  | case4 limit a l ha ih =>
    rw [readUntil, if_neg ha]
    exact Nat.le_succ_of_le ih

theorem readUntil_rest_lt (c : α) (limit : Nat) (h : l ≠ []) : (readUntil c (limit + 1) l).2.length < l.length := by
  cases l with
  | nil => exact absurd rfl h
  | cons a l =>
    rw [readUntil]
    split
    · exact Nat.lt_succ_self _
    · exact Nat.lt_succ_of_le (readUntil_rest c limit l)

theorem readUntil_line (h : c ∉ before) (limit : Nat) (after : List α) : readUntil c limit (before ++ c :: after) =
    if before.length < limit then (before ++ [c], after) else (before.take limit, before.drop limit ++ c :: after) := by
  induction before generalizing limit with
  | nil =>
    cases limit with
    | zero => rfl
    | succ limit => exact if_pos rfl
  | cons a before ih =>
    rw [List.mem_cons, not_or] at h
    cases limit with
    | zero => rfl
    | succ limit =>
      rw [List.cons_append, readUntil, if_neg (Ne.symm h.1), ih h.2]
      by_cases hlt : before.length < limit
      · have hlt' : (a :: before).length < limit + 1 := Nat.succ_lt_succ hlt
        rw [if_pos hlt, if_pos hlt']
        rfl
      · have hlt' : ¬(a :: before).length < limit + 1 := fun h => hlt (Nat.lt_of_succ_lt_succ h)
        rw [if_neg hlt, if_neg hlt']
        rfl

theorem readUntil_open (h : c ∉ l) (limit : Nat) : readUntil c limit l = (l.take limit, l.drop limit) := by
  induction l generalizing limit with
  | nil => cases limit <;> rfl
  | cons a l ih =>
    rw [List.mem_cons, not_or] at h
    cases limit with
    | zero => rfl
    | succ limit =>
      rw [readUntil, if_neg (Ne.symm h.1), ih h.2]
      rfl

/-! ## At the last one -/

@[grind] def rfind (c : α) : List α → Option Nat
  | [] => none
  | a :: l =>
    match rfind c l with
    | some i => some (i + 1)
    | none => if a = c then some 0 else none

theorem rfind_eq_none : rfind c l = none ↔ c ∉ l := by
  induction l with
  | nil => exact ⟨fun _ => List.not_mem_nil, fun _ => rfl⟩
  | cons a l ih =>
    rw [rfind, List.mem_cons, not_or]
    cases hrest : rfind c l with
    | some i =>
      refine ⟨nofun, fun h => ?_⟩
      rw [ih.2 h.2] at hrest
      cases hrest
    | none =>
      dsimp only
      by_cases ha : a = c
      · rw [if_pos ha]
        exact ⟨nofun, fun h => absurd ha.symm h.1⟩
      · rw [if_neg ha]
        exact ⟨fun _ => ⟨Ne.symm ha, ih.1 hrest⟩, fun _ => rfl⟩

theorem rfind_append_of_not_mem (h : c ∉ after) (l : List α) : rfind c (l ++ after) = rfind c l := by
  induction l with
  | nil => exact rfind_eq_none.2 h
  | cons a l ih => rw [List.cons_append, rfind, ih, rfind]

theorem rfind_append_cons (h : c ∉ after) (before : List α) : rfind c (before ++ c :: after) = some before.length := by
  induction before with
  | nil => rw [List.nil_append, rfind, rfind_eq_none.2 h, if_pos rfl, List.length_nil]
  | cons a before ih => rw [List.cons_append, rfind, ih, List.length_cons]

theorem rfind_eq_some : rfind c l = some i ↔ ∃ before after, l = before ++ c :: after ∧ c ∉ after ∧
    before.length = i := by
  constructor
  · intro h
    induction l generalizing i with
    | nil => cases h
    | cons a l ih =>
      rw [rfind] at h
      cases hrest : rfind c l with
      | some j =>
        rw [hrest] at h
        cases h
        obtain ⟨before, after, rfl, hafter, rfl⟩ := ih hrest
        exact ⟨a :: before, after, rfl, hafter, rfl⟩
      | none =>
        rw [hrest] at h
        dsimp only at h
        split at h
        next ha =>
          cases h
          exact ⟨[], l, congrArg (· :: l) ha, rfind_eq_none.1 hrest, rfl⟩
        · cases h
  · rintro ⟨before, after, rfl, hafter, rfl⟩
    exact rfind_append_cons hafter before

theorem rfind_lt (h : rfind c l = some i) : i < l.length := by
  obtain ⟨before, after, rfl, -, rfl⟩ := rfind_eq_some.1 h
  simp

theorem rfind_append_of_mem (h : c ∈ after) (before : List α) :
    ∃ i, rfind c (before ++ after) = some (before.length + i) := by
  obtain ⟨i, hi⟩ := Option.ne_none_iff_exists'.1 fun hnone => rfind_eq_none.1 hnone h
  obtain ⟨front, back, rfl, hback, -⟩ := rfind_eq_some.1 hi
  refine ⟨front.length, ?_⟩
  rw [← List.append_assoc, rfind_append_cons hback, List.length_append]

/-! ## At all of them -/

omit [DecidableEq α] in
theorem mem_intercalate {ls : List (List α)} (h : a ∈ [c].intercalate ls) : a = c ∨ ∃ l ∈ ls, a ∈ l := by
  induction ls with
  | nil => exact absurd h List.not_mem_nil
  | cons l ls ih =>
    cases ls with
    | nil => exact .inr ⟨l, List.mem_singleton.2 rfl, by simpa [List.intercalate] using h⟩
    | cons l' ls =>
      have hcons : [c].intercalate (l :: l' :: ls) = l ++ c :: [c].intercalate (l' :: ls) := by simp [List.intercalate]
      rw [hcons, List.mem_append, List.mem_cons] at h
      rcases h with h | rfl | h
      · exact .inr ⟨l, List.mem_cons_self, h⟩
      · exact .inl rfl
      · exact (ih h).imp_right fun ⟨l, hl, ha⟩ => ⟨l, List.mem_cons_of_mem _ hl, ha⟩

theorem mem_splitOn (h : a ∈ l) : a = c ∨ ∃ part ∈ l.splitOn c, a ∈ part := by
  have hl : [c].intercalate (l.splitOn c) = l := List.intercalate_splitOn c
  rw [← hl] at h
  exact mem_intercalate h

/-- What each part satisfies, if nothing with `c` in it does, is what the parts of a joined list satisfy. -/
theorem forall_splitOn {P : List α → Prop} (hP : ∀ part, P part → c ∉ part) :
    (∀ part ∈ l.splitOn c, P part) ↔ ∃ parts, parts ≠ [] ∧ l = [c].intercalate parts ∧ ∀ part ∈ parts, P part := by
  constructor
  · intro h
    exact ⟨l.splitOn c, List.splitOn_ne_nil _ _, (List.intercalate_splitOn c).symm, h⟩
  · rintro ⟨parts, hne, rfl, hparts⟩
    rw [List.splitOn_intercalate c (fun part hpart => hP part (hparts part hpart)) hne]
    exact hparts

omit [DecidableEq α] in
theorem not_mem_intercalate {parts : List (List α)} (hc : a ≠ c) (h : ∀ part ∈ parts, a ∉ part) :
    a ∉ [c].intercalate parts := by
  intro hmem
  rcases mem_intercalate hmem with heq | ⟨part, hpart, hmem⟩
  · exact hc heq
  · exact h part hpart hmem

end Elements

/-! ## Streams of delimited frames -/

variable {α : Type*} {d : α} {l rest f : List α} {fs : List (List α)} {ended : Bool}

section Frames

variable [DecidableEq α]

@[grind] def cut (d : α) : List α → List (List α) × List α
  | [] => ([], [])
  | a :: l =>
    if a = d then ([] :: (cut d l).1, (cut d l).2)
    else
      match cut d l with
      | ([], rest) => ([], a :: rest)
      | (f :: fs, rest) => ((a :: f) :: fs, rest)

def frames (d : α) (ended : Bool) (l : List α) : List (List α) :=
  (cut d l).1 ++ if ended && !(cut d l).2.isEmpty then [(cut d l).2] else []

def joined (d : α) (fs : List (List α)) : List α := fs.flatMap (· ++ [d])

omit [DecidableEq α] in
theorem joined_append (d : α) (fs gs : List (List α)) : joined d (fs ++ gs) = joined d fs ++ joined d gs :=
  List.flatMap_append

omit [DecidableEq α] in
theorem joined_singleton (d : α) (f : List α) : joined d [f] = f ++ [d] := List.flatMap_singleton _ _

theorem cut_open (h : d ∉ l) : cut d l = ([], l) := by
  induction l with
  | nil => rfl
  | cons a l ih =>
    rw [List.mem_cons, not_or] at h
    rw [cut, if_neg (Ne.symm h.1), ih h.2]

theorem cut_frame_append (h : d ∉ f) (l : List α) : cut d (f ++ d :: l) = (f :: (cut d l).1, (cut d l).2) := by
  induction f with
  | nil => rw [List.nil_append, cut, if_pos rfl]
  | cons a f ih =>
    rw [List.mem_cons, not_or] at h
    rw [List.cons_append, cut, if_neg (Ne.symm h.1), ih h.2]

theorem cut_joined_append (h : ∀ f ∈ fs, d ∉ f) (l : List α) :
    cut d (joined d fs ++ l) = (fs ++ (cut d l).1, (cut d l).2) := by
  induction fs with
  | nil => rfl
  | cons f fs ih =>
    have hrest := ih fun g hg => h g (List.mem_cons_of_mem f hg)
    have hjoined : joined d (f :: fs) ++ l = f ++ d :: (joined d fs ++ l) := by
      unfold joined
      rw [List.flatMap_cons, List.append_assoc, List.append_assoc]
      rfl
    rw [hjoined, cut_frame_append (h f List.mem_cons_self), hrest, List.cons_append]

theorem frames_joined_append (h : ∀ f ∈ fs, d ∉ f) (l : List α) :
    frames d ended (joined d fs ++ l) = fs ++ frames d ended l := by
  unfold frames
  rw [cut_joined_append h, List.append_assoc]

theorem frames_nil (d : α) (ended : Bool) : frames d ended [] = [] := by cases ended <;> rfl

theorem frames_last (h : d ∉ l) (hne : l ≠ []) : frames d true l = [l] := by
  unfold frames
  rw [cut_open h, List.nil_append, Bool.true_and, if_pos (by simpa using hne)]

end Frames

/-! ## Frames that have been taken -/

/-- The frames `fs` have been taken off a stream, and `rest` is left; the last may have been one without a delimiter. -/
inductive Taken (d : α) (ended : Bool) (l : List α) (fs : List (List α)) (rest : List α) : Prop
  | complete : (∀ f ∈ fs, d ∉ f) → l = joined d fs ++ rest → Taken d ended l fs rest
  | last (front : List (List α)) (f : List α) : ended = true → (∀ g ∈ front, d ∉ g) → d ∉ f → f ≠ [] →
    fs = front ++ [f] → rest = [] → l = joined d front ++ f → Taken d ended l fs rest

namespace Taken

/-- The frames taken are the first ones, and all of them if nothing is left. -/
theorem frames [DecidableEq α] (h : Taken d ended l fs rest) :
    ∃ more, Lib.frames d ended l = fs ++ more ∧ (rest = [] → more = []) := by
  cases h with
  | complete hfs hl =>
    refine ⟨Lib.frames d ended rest, by rw [hl, frames_joined_append hfs], ?_⟩
    rintro rfl
    exact frames_nil d ended
  | last front f hended hfront hf hne hfs hrest hl =>
    refine ⟨[], ?_, fun _ => rfl⟩
    rw [hl, hended, frames_joined_append hfront, frames_last hf hne, hfs, List.append_nil]

/-- A part of the stream that is left is part of the stream. -/
theorem exists_front (h : Taken d ended l fs rest) : ∃ front, l = front ++ rest := by
  cases h with
  | complete hfs hl => exact ⟨_, hl⟩
  | last front f hended hfront hf hne hfs hrest hl => exact ⟨l, by rw [hrest, List.append_nil]⟩

/-- More of a stream that has not ended arrives. -/
theorem append (h : Taken d false l fs rest) (more : List α) : Taken d false (l ++ more) fs (rest ++ more) := by
  cases h with
  | complete hfs hl => exact .complete hfs (by rw [hl, List.append_assoc])
  | last front f hended => cases hended

theorem ends (h : Taken d false l fs rest) : Taken d true l fs rest := by
  cases h with
  | complete hfs hl => exact .complete hfs hl
  | last front f hended => cases hended

theorem next (h : Taken d ended l fs (f ++ d :: rest)) (hf : d ∉ f) : Taken d ended l (fs ++ [f]) rest := by
  cases h with
  | complete hfs hl =>
    refine .complete (fun g hg => ?_) ?_
    · rcases List.mem_append.1 hg with hg | hg
      · exact hfs g hg
      · exact List.mem_singleton.1 hg ▸ hf
    · rw [hl, joined_append, joined_singleton, List.append_assoc, List.append_assoc]
      rfl
  | last front g hended hfront hg hne hfs hrest =>
    have hmem : d ∈ f ++ d :: rest := List.mem_append_right _ List.mem_cons_self
    rw [hrest] at hmem
    cases hmem

/-- The last frame of a stream that has ended is taken. -/
theorem takeLast (h : Taken d true l fs rest) (hrest : d ∉ rest) (hne : rest ≠ []) :
    Taken d true l (fs ++ [rest]) [] := by
  cases h with
  | complete hfs hl => exact .last fs rest rfl hfs hrest hne rfl rfl hl
  | last front g hended hfront hg hne' hfs hrest' => exact absurd hrest' hne

end Taken

end CocoaWay.Lib
