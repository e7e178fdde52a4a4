import CocoaWay.Sessions.Editor
import CocoaWay.Sessions.RelayLists

/-!
# Texts in the fields of the dialog

* `trim_invariant` : what does not tell white space at the ends of a text; `displaySlotSlug_trim`, `slugify_trim`;
* `Item` : an entry that stays itself between semicolons;
* `semicolonList_join_iff` : a list is read back exactly when all its entries are items.
-/

namespace CocoaWay.Sessions

open Launch (trim isWhitespace isAsciiAlphanumeric toAsciiLowercase slugify slugifyLoop splitDash displaySlotSlug)

/-! ## White space at the ends -/

section Trim

variable {β : Type}

theorem invariant_dropWhile {p : Char → Bool} (F : List Char → β) (hfront : ∀ c l, p c = true → F (c :: l) = F l)
    (l : List Char) : F (l.dropWhile p) = F l := by
  induction l with
  | nil => rfl
  | cons c l ih =>
    by_cases hc : p c = true
    · rw [List.dropWhile_cons_of_pos hc, ih, hfront c l hc]
    · rw [List.dropWhile_cons_of_neg hc]

theorem trim_invariant (F : List Char → β) (hfront : ∀ c l, isWhitespace c = true → F (c :: l) = F l)
    (hback : ∀ l c, isWhitespace c = true → F (l ++ [c]) = F l) (s : String) : F (trim s).toList = F s.toList := by
  have hreverse : ∀ c l, isWhitespace c = true → F (c :: l).reverse = F l.reverse := by
    intro c l hc
    rw [List.reverse_cons, hback _ c hc]
  have hstrip := invariant_dropWhile (fun l => F l.reverse) hreverse (s.toList.dropWhile isWhitespace).reverse
  rw [trim_toList, hstrip, List.reverse_reverse, invariant_dropWhile F hfront]

theorem not_alphanumeric {c : Char} (h : isWhitespace c = true) : isAsciiAlphanumeric c = false := by
  unfold isWhitespace at h
  unfold isAsciiAlphanumeric
  simp only [Bool.or_eq_true, Bool.and_eq_true, decide_eq_true_eq, List.mem_cons, List.not_mem_nil, or_false] at h
  simp only [Bool.or_eq_false_iff, Bool.and_eq_false_iff, decide_eq_false_iff_not]
  omega

/-! ## Slugs -/

/-- The parts between dashes, without the empty ones. -/
def dashParts (l : List Char) : List (List Char) := (splitDash l).filter fun part => !part.isEmpty

theorem splitDash_ne_nil (l : List Char) : splitDash l ≠ [] := by
  cases l with
  | nil => exact List.cons_ne_nil _ _
  | cons c l =>
    unfold splitDash
    split
    · exact List.cons_ne_nil _ _
    · split <;> exact List.cons_ne_nil _ _

theorem dashParts_cons (l : List Char) : dashParts ('-' :: l) = dashParts l := by
  unfold dashParts
  rw [splitDash]
  split
  next hnil => exact absurd hnil (splitDash_ne_nil l)
  next part parts hsplit => rw [if_pos rfl, hsplit, List.filter_cons_of_neg (by simp)]

theorem dashParts_concat (l : List Char) : dashParts (l ++ ['-']) = dashParts l := by
  have hsplit : splitDash (l ++ ['-']) = splitDash l ++ [[]] := by
    induction l with
    | nil => rfl
    | cons c l ih =>
      rw [List.cons_append, splitDash, ih, splitDash]
      cases hl : splitDash l with
      | nil => exact absurd hl (splitDash_ne_nil l)
      | cons part parts =>
        dsimp only [List.cons_append]
        split <;> rfl
  unfold dashParts
  rw [hsplit, List.filter_append]
  simp

theorem displaySlotSlug_trim (s : String) : displaySlotSlug (trim s) = displaySlotSlug s := by
  let shown := fun c : Char => if isAsciiAlphanumeric c then toAsciiLowercase c else '-'
  have hdash : ∀ c, isWhitespace c = true → shown c = '-' := fun c hc => if_neg (by simp [not_alphanumeric hc])
  have hparts : dashParts ((trim s).toList.map shown) = dashParts (s.toList.map shown) := by
    refine trim_invariant (fun l => dashParts (l.map shown)) (fun c l hc => ?_) (fun l c hc => ?_) s
    · rw [List.map_cons, hdash c hc, dashParts_cons]
    · rw [List.map_append, List.map_singleton, hdash c hc, dashParts_concat]
  unfold displaySlotSlug
  unfold dashParts at hparts
  dsimp only
  rw [hparts]

/-- The characters that `slugify` keeps, with the dashes at both ends dropped. -/
def slugCore (slug : List Char) : List Char := ((slug.reverse.dropWhile (· = '-')).reverse.dropWhile (· = '-'))

theorem slugCore_cons (slug : List Char) : slugCore ('-' :: slug) = slugCore slug := by
  unfold slugCore
  rw [List.reverse_cons, List.dropWhile_append]
  split
  next hnil =>
    rw [List.isEmpty_iff] at hnil
    rw [hnil]
    rfl
  · rw [List.reverse_append]
    exact List.dropWhile_cons_of_pos (by simp)

theorem slugCore_concat (slug : List Char) : slugCore (slug ++ ['-']) = slugCore slug := by
  unfold slugCore
  rw [List.reverse_append]
  exact congrArg (fun l : List Char => l.reverse.dropWhile (· = '-')) (List.dropWhile_cons_of_pos (by simp))

theorem slugifyLoop_dash (slug l : List Char) :
    slugCore (slugifyLoop (slug ++ ['-']) l) = slugCore (slugifyLoop slug l) := by
  induction l generalizing slug with
  | nil => exact slugCore_concat slug
  | cons c l ih =>
    unfold slugifyLoop
    split
    · exact ih (toAsciiLowercase c :: slug)
    · cases slug with
      | nil => rfl
      | cons d slug =>
        have hhead : (d :: slug ++ ['-']).head? = (d :: slug).head? := rfl
        rw [hhead]
        by_cases hd : (d :: slug).head? ≠ some '-'
        · rw [if_pos hd, if_pos hd]
          exact ih ('-' :: d :: slug)
        · rw [if_neg hd, if_neg hd]
          exact ih (d :: slug)

theorem slugifyLoop_concat (slug l : List Char) {c : Char} (hc : isAsciiAlphanumeric c = false) :
    slugCore (slugifyLoop slug (l ++ [c])) = slugCore (slugifyLoop slug l) := by
  induction l generalizing slug with
  | nil =>
    simp only [List.nil_append, slugifyLoop, hc, Bool.false_eq_true, if_false]
    split
    · exact slugCore_cons slug
    · rfl
  | cons d l ih =>
    rw [List.cons_append, slugifyLoop, slugifyLoop]
    split
    · exact ih _
    · split
      · exact ih _
      · exact ih _

theorem slugify_trim (s : String) : slugify (trim s) = slugify s := by
  have hcore : slugCore (slugifyLoop [] (trim s).toList) = slugCore (slugifyLoop [] s.toList) := by
    refine trim_invariant (fun l => slugCore (slugifyLoop [] l)) (fun c l hc => ?_) (fun l c hc => ?_) s
    · have hloop : slugifyLoop [] (c :: l) = slugifyLoop ([] ++ ['-']) l := by
        rw [slugifyLoop, if_neg (by simp [not_alphanumeric hc]), if_pos (by simp), List.nil_append]
      rw [hloop, slugifyLoop_dash]
    · exact slugifyLoop_concat [] l (not_alphanumeric hc)
  unfold slugCore at hcore
  unfold slugify
  dsimp only
  rw [hcore]

end Trim

/-! ## Small letters -/

theorem toNat_lowercase (c : Char) :
    (toAsciiLowercase c).toNat = if 65 ≤ c.toNat ∧ c.toNat ≤ 90 then c.toNat + 32 else c.toNat := by
  unfold toAsciiLowercase
  split
  next hupper =>
    have hvalid : (c.toNat + 32).isValidChar := .inl (by omega)
    rw [Char.ofNat, dif_pos hvalid]
    rfl
  · rfl

theorem isWhitespace_lowercase (c : Char) : isWhitespace (toAsciiLowercase c) = isWhitespace c := by
  by_cases hupper : 65 ≤ c.toNat ∧ c.toNat ≤ 90
  · have hno : ∀ d : Char, 65 ≤ d.toNat → d.toNat ≤ 122 → isWhitespace d = false := by
      intro d hlow hhigh
      unfold isWhitespace
      simp only [Bool.or_eq_false_iff, Bool.and_eq_false_iff, decide_eq_false_iff_not, List.mem_cons,
        List.not_mem_nil, or_false]
      omega
    have hlower := toNat_lowercase c
    rw [if_pos hupper] at hlower
    rw [hno _ (by omega) (by omega), hno c (by omega) (by omega)]
  · rw [toAsciiLowercase, if_neg hupper]

theorem toAsciiLowercase_idem (c : Char) : toAsciiLowercase (toAsciiLowercase c) = toAsciiLowercase c := by
  have hlower := toNat_lowercase c
  split at hlower
  · rw [toAsciiLowercase, if_neg (by omega)]
  next hother => rw [toAsciiLowercase, if_neg (by omega)]

theorem asciiLowercase_idem (text : String) : asciiLowercase (asciiLowercase text) = asciiLowercase text := by
  unfold asciiLowercase
  rw [String.toList_ofList, List.map_map]
  congr 1
  exact List.map_congr_left fun c _ => toAsciiLowercase_idem c

/-- A text whose small letters have no white space has none at its ends. -/
theorem trim_of_lowercase {text word : String} (h : asciiLowercase text = word)
    (hword : word.toList.any isWhitespace = false) : trim text = text := by
  have hnone : ∀ c ∈ text.toList, isWhitespace c = false := by
    intro c hc
    have hmem : toAsciiLowercase c ∈ word.toList := by
      rw [← h, asciiLowercase, String.toList_ofList]
      exact List.mem_map_of_mem hc
    rw [← isWhitespace_lowercase]
    exact Bool.eq_false_iff.2 fun hblank => by simpa [hword] using List.any_eq_true.2 ⟨_, hmem, hblank⟩
  exact trim_of_ends (fun c hc => hnone c (List.mem_of_mem_head? hc)) (fun c hc => hnone c (List.mem_of_getLast? hc))

theorem trim_asciiLowercase (text : String) : trim (asciiLowercase text) = asciiLowercase (trim text) := by
  have hcomp : isWhitespace ∘ toAsciiLowercase = isWhitespace := funext isWhitespace_lowercase
  unfold trim asciiLowercase
  rw [String.toList_ofList, String.toList_ofList, List.dropWhile_map, ← List.map_reverse, List.dropWhile_map, hcomp,
    ← List.map_reverse]

/-! ## Lists in one field -/

/-- An entry that stays itself between semicolons: it has none, no white space around it, and is not empty. -/
structure Item (entry : String) : Prop where
  nonempty : entry ≠ ""
  trimmed : trim entry = entry
  single : ';' ∉ entry.toList

/-- The items of a field. -/
def items (l : List Char) : List String := ((l.splitOn ';').map fun item => trim (String.ofList item)).filter (· ≠ "")

theorem items_append (l rest : List Char) : items (l ++ ';' :: rest) = items l ++ items rest := by
  unfold items
  rw [List.splitOn_append_cons_self, List.map_append, List.filter_append]

variable {c : Char}

theorem trim_blank (hc : isWhitespace c = true) (l : List Char) :
    trim (String.ofList (c :: l)) = trim (String.ofList l) := by
  unfold trim
  rw [String.toList_ofList, String.toList_ofList, List.dropWhile_cons_of_pos hc]

theorem items_blank (hc : isWhitespace c = true) (l : List Char) : items (c :: l) = items l := by
  have hne : (c == ';') = false := by
    rw [beq_eq_false_iff_ne]
    rintro rfl
    exact absurd hc (by decide)
  unfold items
  rw [List.splitOn_cons_eq_if_modifyHead, if_neg (by simp [hne])]
  cases hsplit : l.splitOn ';' with
  | nil => exact absurd hsplit (List.splitOn_ne_nil _ _)
  | cons first rest => rw [List.modifyHead_cons, List.map_cons, List.map_cons, trim_blank hc]

theorem items_open {l : List Char} (h : ';' ∉ l) :
    items l = if trim (String.ofList l) = "" then [] else [trim (String.ofList l)] := by
  unfold items
  rw [List.splitOn_eq_singleton h, List.map_singleton]
  by_cases hempty : trim (String.ofList l) = "" <;> simp [hempty]

theorem trim_concat (hc : isWhitespace c = true) (l : List Char) :
    trim (String.ofList (l ++ [c])) = trim (String.ofList l) := by
  unfold trim
  rw [String.toList_ofList, String.toList_ofList, List.dropWhile_append]
  split
  next hnil =>
    rw [List.isEmpty_iff] at hnil
    rw [hnil, List.dropWhile_cons_of_pos hc]
    rfl
  · rw [List.reverse_append, List.reverse_singleton, List.singleton_append, List.dropWhile_cons_of_pos hc]

theorem items_concat (hc : isWhitespace c = true) (l : List Char) : items (l ++ [c]) = items l := by
  by_cases hmem : ';' ∈ l
  · obtain ⟨front, rest, hl, -⟩ := List.eq_append_cons_of_mem hmem
    have hshorter : rest.length < l.length := by
      rw [hl, List.length_append, List.length_cons]
      omega
    rw [hl, List.append_assoc, List.cons_append, items_append, items_append, items_concat hc rest]
  · have hne : ';' ∉ l ++ [c] := by
      rw [List.mem_append, List.mem_singleton, not_or]
      refine ⟨hmem, ?_⟩
      rintro rfl
      exact absurd hc (by decide)
    rw [items_open hmem, items_open hne, trim_concat hc]
termination_by l.length

theorem semicolonList_fieldString (value : String) : semicolonList (fieldString value) = items value.toList :=
  trim_invariant items (fun _ l hc => items_blank hc l) (fun l _ hc => items_concat hc l) value

theorem item_of_open {l : List Char} {entry : String} (hl : ';' ∉ l) (h : entry ∈ items l) : Item entry := by
  rw [items_open hl] at h
  split at h
  · cases h
  next hne =>
    obtain rfl := List.mem_singleton.1 h
    refine ⟨hne, trim_trim _, fun hsemicolon => hl ?_⟩
    have hin := mem_trim hsemicolon
    rwa [String.toList_ofList] at hin

theorem item_of_mem {l : List Char} {entry : String} (h : entry ∈ items l) : Item entry := by
  by_cases hmem : ';' ∈ l
  · obtain ⟨front, rest, hl, hfront⟩ := List.eq_append_cons_of_mem hmem
    have hshorter : rest.length < l.length := by
      rw [hl, List.length_append, List.length_cons]
      omega
    rw [hl, items_append] at h
    rcases List.mem_append.1 h with h | h
    · exact item_of_open hfront h
    · exact item_of_mem h
  · exact item_of_open hmem h
termination_by l.length

theorem items_join (entries : List String) (h : ∀ entry ∈ entries, Item entry) :
    items ("; ".intercalate entries).toList = entries := by
  induction entries with
  | nil => rfl
  | cons entry entries ih =>
    have hentry := h entry List.mem_cons_self
    have hitems : items entry.toList = [entry] := by
      rw [items_open hentry.single, String.ofList_toList, hentry.trimmed, if_neg hentry.nonempty]
    cases entries with
    | nil => simpa [String.toList_intercalate, List.intercalate] using hitems
    | cons next entries =>
      have hjoin : ("; ".intercalate (entry :: next :: entries)).toList =
          entry.toList ++ ';' :: ' ' :: ("; ".intercalate (next :: entries)).toList := by
        simp [String.toList_intercalate, List.intercalate]
      rw [hjoin, items_append, items_blank (by decide), hitems, ih fun e he => h e (List.mem_cons_of_mem _ he)]
      rfl

/-- A list comes back as it was exactly when its entries are items. -/
theorem semicolonList_join_iff (entries : List String) :
    semicolonList (fieldString ("; ".intercalate entries)) = entries ↔ ∀ entry ∈ entries, Item entry := by
  rw [semicolonList_fieldString]
  constructor
  · intro h entry hmem
    exact item_of_mem (h.symm ▸ hmem)
  · exact items_join entries

end CocoaWay.Sessions
