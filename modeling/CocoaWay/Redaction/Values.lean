import CocoaWay.Redaction.Labels

/-!
# Values of sensitive labels

* `wholeLength`, `Occurrence` : a sensitive label or option of a text, with its value to the delimiter or the closing
  quote;
* `Reads`, `boundary_of_reads` : reading the text from left to right, each value passed over as a whole;
* `Separate` : no value read begins with the mask and goes on, and no label in a value or a host has a value that
  leaves it;
* `labels_hidden_iff` : then, and only then, no character of a value is shown at its place.
-/

namespace CocoaWay.Redaction
open Lib

/-! ## Occurrences -/

/-- A value without quotes goes to the next delimiter; that of an authorization or a cookie to the end of the line. -/
def unquotedLength (key value : Text) : Nat :=
  let key := key.map Char.toLower
  if contains key "authorization".toList || contains key "cookie".toList then
    (value.takeWhile (!isLineEnd ·)).length
  else
    (value.takeWhile fun c =>
      !(isAsciiWhitespace c || isQuote c || [0x26, 0x2C, 0x3B, 0x7D, 0x5D].contains c.toNat)).length

/-- A value up to its delimiter or with its closing quote; mask text at its front belongs to it. -/
def wholeLength (key value : Text) : Nat :=
  if mask.isPrefixOf value then mask.length + unquotedLength key (value.drop mask.length)
  else
    match value with
    | [] => 0
    | c :: rest => if isQuote c then 1 + quotedLength c rest else unquotedLength key value

/-- A sensitive label followed by a separator, or a sensitive option, and what follows. -/
structure Occurrence (text : Text) where
  before : Text
  key : Text
  between : Text
  value : Text
  text_eq : text = before ++ (key ++ (between ++ value))
  apart : ∀ c ∈ before.getLast?, identifier c = false
  run : Run key (between ++ value)
  sensitive : sensitiveKey key = true
  has_value : keyValue key (between ++ value) = some (between, value)

section Lengths

variable {text key between value after : Text} {p i : Nat}

theorem unquotedLength_le (key value : Text) : unquotedLength key value ≤ value.length := by
  unfold unquotedLength
  dsimp only
  split
  · exact length_takeWhile_le _ _
  · exact length_takeWhile_le _ _

/-- The patterns take the whole value, unless it begins with the mask and goes on. -/
theorem valueLength_eq (h : mask.isPrefixOf value = true → unquotedLength key (value.drop mask.length) = 0) :
    valueLength key value = wholeLength key value := by
  unfold valueLength wholeLength
  dsimp only
  split
  · next hmask => rw [h hmask, Nat.add_zero]
  · cases value with
    | nil => rfl
    | cons c rest => rfl

theorem valueLength_of_mask (h : mask.isPrefixOf value = true) : valueLength key value = mask.length := by
  unfold valueLength
  exact if_pos h

theorem wholeLength_le (key value : Text) : wholeLength key value ≤ value.length := by
  unfold wholeLength
  split
  · next hmask =>
    have hlength := (List.isPrefixOf_iff_prefix.1 hmask).length_le
    have hrest := unquotedLength_le key (value.drop mask.length)
    rw [List.length_drop] at hrest
    omega
  · cases value with
    | nil => exact Nat.le_refl 0
    | cons c rest =>
      dsimp only
      split
      · have h := quotedLength_le c rest
        rw [List.length_cons]
        omega
      · exact unquotedLength_le _ _

variable {c : Char}

theorem getElem?_takeWhile_length {q : Char → Bool} (h : text[(text.takeWhile q).length]? = some c) :
    q c = false := by
  have hhead : (text.dropWhile q).head? = some c := by
    rw [← drop_takeWhile_length, List.head?_drop]
    exact h
  exact head?_dropWhile q text c hhead

theorem identifier_of_delimiter
    (h : (!(isAsciiWhitespace c || isQuote c || [0x26, 0x2C, 0x3B, 0x7D, 0x5D].contains c.toNat)) = false) :
    identifier c = false := by
  rw [Bool.eq_false_iff]
  intro hc
  have hnat := toNat_of_identifier hc
  simp [isAsciiWhitespace, isQuote] at h
  omega

theorem identifier_of_lineEnd (h : (!isLineEnd c) = false) : identifier c = false := by
  rw [Bool.eq_false_iff]
  intro hc
  have hnat := toNat_of_identifier hc
  simp [isLineEnd] at h
  omega

theorem identifier_of_quote (h : isQuote c = true) : identifier c = false := by
  rw [Bool.eq_false_iff]
  intro hc
  have hnat := toNat_of_identifier hc
  simp [isQuote] at h
  omega

theorem unquotedLength_ends (h : value[unquotedLength key value]? = some c) : identifier c = false := by
  unfold unquotedLength at h
  dsimp only at h
  split at h
  · exact identifier_of_lineEnd (getElem?_takeWhile_length h)
  · exact identifier_of_delimiter (getElem?_takeWhile_length h)

/-- No word goes on over the end of a value. -/
theorem wholeLength_ends (h : value[wholeLength key value]? = some c) (hc : identifier c = true) :
    ∃ d, value[wholeLength key value - 1]? = some d ∧ identifier d = false ∧ 0 < wholeLength key value := by
  unfold wholeLength at h ⊢
  split at h
  · next hmask =>
    rw [← List.getElem?_drop] at h
    exact absurd hc (by rw [unquotedLength_ends h]; exact Bool.false_ne_true)
  · next hmask =>
    cases value with
    | nil => cases h
    | cons quote rest =>
      dsimp only at h ⊢
      by_cases hq : isQuote quote = true
      · rw [if_pos hq] at h ⊢
        rw [if_neg hmask]
        by_cases hcloses : closesQuote quote rest = true
        · obtain ⟨inner, after, rfl, hlength⟩ := quotedLength_of_closes hcloses
          refine ⟨quote, ?_, identifier_of_quote hq, by omega⟩
          rw [hlength]
          simp
        · rw [Bool.not_eq_true] at hcloses
          rw [quotedLength_of_not_closes hcloses, Nat.add_comm, List.getElem?_cons_succ, List.getElem?_length] at h
          cases h
      · rw [if_neg hq] at h
        exact absurd hc (by rw [unquotedLength_ends h]; exact Bool.false_ne_true)

end Lengths

/-! ## Reading the text -/

def Item.wholeWidth : Item → Nat
  | .label key between value => key.length + between.length + wholeLength key value
  | item => item.width

/-- The places of the text where an item begins, each value passed over as a whole. -/
def Reads (text : Text) (p : Nat) : Prop := Reached (fun text => (itemAt text).wholeWidth) text p

/-- No word goes on over this place. -/
def Boundary (text : Text) (p : Nat) : Prop :=
  ∀ c, text[p]? = some c → identifier c = true → ∀ d, 0 < p → text[p - 1]? = some d → identifier d = false

section Reading

variable {text key between value host : Text} {p i : Nat}

theorem optional_quote (after : Text) : ∃ quote : Text, (∀ c ∈ quote, isQuote c = true) ∧ after = quote ++
    (match after with
      | c :: rest => if isQuote c then rest else after
      | [] => []) := by
  cases after with
  | nil => exact ⟨[], fun c hc => absurd hc List.not_mem_nil, rfl⟩
  | cons c rest =>
    by_cases hc : isQuote c = true
    · exact ⟨[c], fun d hd => by rwa [List.mem_singleton.mp hd], by simp [hc]⟩
    · exact ⟨[], fun d hd => absurd hd List.not_mem_nil, by simp [hc]⟩

theorem optional_separator {blank rest : Text} (h : (match blank with
      | c :: rest => if c = '=' ∨ c =
        ':' then some rest else if "--".toList.isPrefixOf key then some (c :: rest) else none
      | [] => if "--".toList.isPrefixOf key then some [] else none) = some rest) :
    ∃ separator : Text, (∀ c ∈ separator, c = '=' ∨ c = ':') ∧ blank = separator ++ rest := by
  cases blank with
  | nil =>
    dsimp only at h
    split at h
    · exact ⟨[], fun d hd => absurd hd List.not_mem_nil, Option.some.inj h⟩
    · cases h
  | cons c rest' =>
    dsimp only at h
    split at h
    · next hc => exact ⟨[c], fun d hd => by rwa [List.mem_singleton.mp hd], by rw [← Option.some.inj h]; rfl⟩
    · split at h
      · exact ⟨[], fun d hd => absurd hd List.not_mem_nil, Option.some.inj h⟩
      · cases h

/-- What stands between a key and its value: a quote, blanks, a separator and blanks, each of them if there is any. -/
theorem keyValue_between {after : Text} (h : keyValue key after = some (between, value)) :
    ∀ c ∈ between, isQuote c = true ∨ isBlank c = true ∨ c = '=' ∨ c = ':' := by
  obtain ⟨hafter, -⟩ := keyValue_some h
  obtain ⟨quote, hq, hquote⟩ := optional_quote after
  unfold keyValue at h
  obtain ⟨rest, hrest, h⟩ := Option.bind_eq_some_iff.1 h
  obtain ⟨separator, hs, hseparator⟩ := optional_separator hrest
  have hvalue : rest.dropWhile isBlank = value := by
    cases hblank : rest.dropWhile isBlank with
    | nil =>
      rw [hblank] at h
      cases h
    | cons c rest' =>
      rw [hblank] at h
      dsimp only at h
      split at h
      · cases h
      · exact (Prod.mk.inj (Option.some.inj h)).2
  have hsplit : ∀ unquoted : Text, after = quote ++ unquoted → unquoted.dropWhile isBlank = separator ++ rest →
      after = quote ++ (unquoted.takeWhile isBlank ++ (separator ++ rest.takeWhile isBlank)) ++ value := by
    intro unquoted hunquoted hdrop
    rw [← hvalue, List.append_assoc, List.append_assoc, List.append_assoc, List.takeWhile_append_dropWhile, ← hdrop,
      List.takeWhile_append_dropWhile]
    exact hunquoted
  have hsplit := hsplit _ hquote hseparator
  have hcancel := List.append_cancel_right (hafter.symm.trans hsplit)
  rw [hcancel]
  intro c hc
  rcases List.mem_append.mp hc with hc | hc
  · exact Or.inl (hq c hc)
  · rcases List.mem_append.mp hc with hc | hc
    · exact Or.inr (Or.inl (List.mem_takeWhile_imp hc))
    · rcases List.mem_append.mp hc with hc | hc
      · exact Or.inr (Or.inr (hs c hc))
      · exact Or.inr (Or.inl (List.mem_takeWhile_imp hc))

theorem wholeWidth_pos (text : Text) (h : text ≠ []) : 0 < (itemAt text).wholeWidth := by
  have hpos := width_pos text h
  have hfinds := finds_itemAt h
  generalize itemAt text = item at *
  cases hfinds with
  | label key between value hrun hkey hvalue =>
    have hkey := List.length_pos_iff.mpr hrun.nonempty
    change 0 < key.length + between.length + wholeLength key value
    omega
  | url host rest hrest => exact hpos
  | plain c rest hc hurl => exact hpos
  | word key rest hrun hkey => exact hpos

theorem getElem?_run (before : Text) {rest : Text} (hrun : Run key rest) {j : Nat} (h : before.length ≤ j)
    (hj : j < before.length + key.length) : ∃ c, (before ++ (key ++ rest))[j]? = some c ∧ identifier c = true := by
  rw [List.getElem?_append_right h, List.getElem?_append_left (by omega)]
  exact ⟨_, List.getElem?_eq_getElem (by omega), hrun.inside _ (List.getElem_mem _)⟩

/-- A text is read item by item, and no word goes on from one item to the next. -/
theorem boundary_of_reads (h : Reads text p) : Boundary text p := by
  cases h with
  | start =>
    intro c _ _ d hpos
    exact absurd hpos (Nat.lt_irrefl 0)
  | @next p _ hp =>
    have hne : text.drop p ≠ [] := by
      rw [ne_eq, List.drop_eq_nil_iff]
      omega
    have hpos := wholeWidth_pos _ hne
    intro c hget hc d _ hbefore
    rw [show p + (itemAt (text.drop p)).wholeWidth - 1 =
      p + ((itemAt (text.drop p)).wholeWidth - 1) by omega] at hbefore
    rw [← List.getElem?_drop] at hget hbefore
    have hfinds := finds_itemAt hne
    generalize itemAt (text.drop p) = item at *
    generalize text.drop p = rest at *
    cases hfinds with
    | url host rest hrest =>
      have hlength : (3 + host.length) = ("://".toList ++ host).length := by
        rw [List.length_append]
        rfl
      change ("://".toList ++ (host ++ rest))[3 + host.length]? = some c at hget
      rw [← List.append_assoc, hlength, List.getElem?_append_right (Nat.le_refl _), Nat.sub_self] at hget
      rw [← List.head?_eq_getElem?] at hget
      exact absurd hc (by rw [hrest c hget]; exact Bool.false_ne_true)
    | plain c' rest hc' hurl =>
      change some c' = some d at hbefore
      rwa [← Option.some.inj hbefore]
    | word key rest hrun hkey =>
      change (key ++ rest)[key.length]? = some c at hget
      rw [List.getElem?_append_right (Nat.le_refl _), Nat.sub_self, ← List.head?_eq_getElem?] at hget
      exact absurd hc (by rw [hrun.ends c hget]; exact Bool.false_ne_true)
    | label key between value hrun hkey hvalue =>
      have hat : ∀ j, (key ++ (between ++ value))[key.length + between.length + j]? = value[j]? := by
        intro j
        rw [← List.append_assoc, ← List.length_append, List.getElem?_append_right (Nat.le_add_right _ _),
          Nat.add_sub_cancel_left]
      change (key ++ (between ++ value))[key.length + between.length + wholeLength key value]? = some c at hget
      change (key ++ (between ++ value))[key.length + between.length + wholeLength key value - 1]? = some d at hbefore
      rw [hat] at hget
      obtain ⟨d', hd', hd, hwhole⟩ := wholeLength_ends hget hc
      rw [show key.length + between.length + wholeLength key value - 1 =
        key.length + between.length + (wholeLength key value - 1) by omega, hat, hd'] at hbefore
      rwa [← Option.some.inj hbefore]

end Reading

/-! ## Labels that are read -/

/-- The place of a label. -/
def Occurrence.start {text : Text} (o : Occurrence text) : Nat := o.before.length

def Occurrence.valueStart {text : Text} (o : Occurrence text) :
    Nat := o.before.length + (o.key.length + o.between.length)

def Occurrence.valueEnd {text : Text} (o : Occurrence text) : Nat := o.valueStart + wholeLength o.key o.value

section Found

variable {text key between value host : Text} {p i : Nat}

theorem takeWhile_run {rest : Text} (h : Run key rest) : (key ++ rest).takeWhile identifier = key := by
  rw [List.takeWhile_append_of_pos h.inside]
  cases rest with
  | nil => simp
  | cons c rest =>
    have hc := h.ends c rfl
    rw [List.takeWhile_cons_of_neg (by simp [hc]), List.append_nil]

theorem itemAt_label (hrun : Run key (between ++ value)) (hkey : sensitiveKey key = true)
    (hvalue : keyValue key (between ++ value) = some (between, value)) :
    itemAt (key ++ (between ++ value)) = .label key between value := by
  have hword : wordAt (key ++ (between ++ value)) = .label key between value := by
    unfold wordAt
    dsimp only
    rw [takeWhile_run hrun, List.drop_left, hvalue]
    simp [hkey]
  obtain ⟨c, rest, rfl⟩ := List.exists_cons_of_ne_nil hrun.nonempty
  have hc := hrun.inside c List.mem_cons_self
  have hurl : ¬ "://".toList.isPrefixOf (c :: rest ++ (between ++ value)) = true := by
    intro hp
    obtain ⟨after, hafter⟩ := List.isPrefixOf_iff_prefix.1 hp
    have hcolon : ':' = c := (List.cons.inj hafter).1
    rw [← hcolon] at hc
    exact absurd hc (by decide)
  unfold itemAt
  rw [if_neg hurl]
  rw [List.cons_append] at hword ⊢
  dsimp only
  rw [if_neg (by simp [hc]), hword]

theorem finds_label (h : itemAt text = .label key between value) : text = key ++ (between ++ value) ∧
    Run key (between ++ value) ∧ sensitiveKey key = true ∧ keyValue key (between ++ value) = some (between, value) := by
  have hne : text ≠ [] := by
    rintro rfl
    cases h
  have hfinds := finds_itemAt hne
  rw [h] at hfinds
  cases hfinds with
  | label key between value hrun hkey hvalue => exact ⟨rfl, hrun, hkey, hvalue⟩

theorem Occurrence.drop_start (o : Occurrence text) : text.drop o.start = o.key ++ (o.between ++ o.value) := by
  have hdrop : (o.before ++ (o.key ++ (o.between ++ o.value))).drop o.before.length = o.key ++ (o.between ++ o.value) :=
    List.drop_left
  rwa [← o.text_eq] at hdrop

theorem Occurrence.itemAt_start (o : Occurrence text) :
    itemAt (text.drop o.start) = .label o.key o.between o.value := by
  rw [o.drop_start]
  exact itemAt_label o.run o.sensitive o.has_value

theorem Occurrence.valueEnd_le (o : Occurrence text) : o.valueEnd ≤ text.length := by
  have hlength := congrArg List.length o.text_eq
  have hwhole := wholeLength_le o.key o.value
  unfold valueEnd valueStart
  simp only [List.length_append] at hlength
  omega

theorem Occurrence.valueStart_lt (o : Occurrence text) : o.valueStart < text.length := by
  have hlength := congrArg List.length o.text_eq
  have hvalue := List.length_pos_iff.mpr (keyValue_some o.has_value).2
  unfold valueStart
  simp only [List.length_append] at hlength
  omega

/-- No word goes on over the front of the label. -/
theorem Occurrence.identifier_before (o : Occurrence text) (hpos : 0 < o.start) {c : Char}
    (h : text[o.start - 1]? = some c) : identifier c = false := by
  unfold Occurrence.start at hpos h
  have hget := congrArg (·[o.before.length - 1]?) o.text_eq
  rw [h, List.getElem?_append_left (by omega), ← List.getLast?_eq_getElem?] at hget
  exact o.apart c hget.symm

theorem Occurrence.identifier_key (o : Occurrence text) (h : o.start ≤ i) (hi : i < o.start + o.key.length) :
    ∃ c, text[i]? = some c ∧ identifier c = true := by
  obtain ⟨c, hget, hc⟩ := getElem?_run o.before o.run h hi
  rw [← o.text_eq] at hget
  exact ⟨c, hget, hc⟩

/-- The characters between the label and its value. -/
theorem Occurrence.getElem?_between (o : Occurrence text) (h : o.start + o.key.length ≤ i) (hi : i < o.valueStart) :
    ∃ c, text[i]? = some c ∧ identifier c = false ∧ c ≠ '/' := by
  have hmem : ∃ c, text[i]? = some c ∧ c ∈ o.between := by
    unfold Occurrence.start at h
    unfold Occurrence.valueStart at hi
    have hget : (o.before ++ (o.key ++ (o.between ++ o.value)))[i]? =
      o.between[i - o.before.length - o.key.length]? := by
      rw [List.getElem?_append_right (by omega), List.getElem?_append_right (by omega),
        List.getElem?_append_left (by omega)]
    have hlt : i - o.before.length - o.key.length < o.between.length := by omega
    rw [← o.text_eq, List.getElem?_eq_getElem hlt] at hget
    exact ⟨_, hget, List.getElem_mem hlt⟩
  obtain ⟨c, hget, hmem⟩ := hmem
  refine ⟨c, hget, ?_⟩
  rcases keyValue_between o.has_value c hmem with h | h | rfl | rfl
  · refine ⟨identifier_of_quote h, ?_⟩
    rintro rfl
    exact absurd h (by decide)
  · refine ⟨?_, ?_⟩
    · rw [Bool.eq_false_iff]
      intro hc
      have hnat := toNat_of_identifier hc
      simp [isBlank] at h
      omega
    · rintro rfl
      exact absurd h (by decide)
  · decide
  · decide

theorem exists_occurrence (h : Reads text p) (hitem : itemAt (text.drop p) = .label key between value) :
    ∃ o : Occurrence text, o.start = p ∧ o.key = key ∧ o.between = between ∧ o.value = value := by
  obtain ⟨hdrop, hrun, hkey, hvalue⟩ := finds_label hitem
  have hlt : p < text.length := by
    by_contra hge
    have hnil : text.drop p = [] := List.drop_eq_nil_of_le (by omega)
    rw [hnil] at hitem
    cases hitem
  have hapart : ∀ c ∈ (text.take p).getLast?, identifier c = false := by
    intro d hd
    rw [Option.mem_def, List.getLast?_take] at hd
    split at hd
    · cases hd
    · next hp =>
      obtain ⟨c, rest, rfl⟩ := List.exists_cons_of_ne_nil hrun.nonempty
      have hget : text[p]? = some c := by
        rw [← List.head?_drop, hdrop]
        rfl
      rw [List.getElem?_eq_getElem (by omega)] at hd
      refine boundary_of_reads h c hget (hrun.inside c List.mem_cons_self) d (by omega) ?_
      rw [List.getElem?_eq_getElem (by omega)]
      exact hd
  refine ⟨⟨text.take p, key, between, value, ?_, hapart, hrun, hkey, hvalue⟩, ?_, rfl, rfl, rfl⟩
  · rw [← hdrop, List.take_append_drop]
  · exact List.length_take_of_le (by omega)

end Found

/-! ## What is shown, place by place -/

section Places

variable {text key between value host : Text} {p i e v : Nat}

theorem not_shown_of_hidden (h : Hidden text i) : ¬ Shown text i := by
  intro hs
  rw [Hidden, hs] at h
  cases h

/-- The first character of an item is shown. -/
theorem shown_of_scanned (h : Scanned text p) (hp : p < text.length) : Shown text p := by
  have hne : text.drop p ≠ [] := by
    rw [ne_eq, List.drop_eq_nil_iff]
    omega
  have hkeeps := keeps_getElem? h hp (width_pos _ hne)
  rw [Nat.add_zero] at hkeeps
  rw [Shown, hkeeps]
  have hfinds := finds_itemAt hne
  generalize itemAt (text.drop p) = item at hfinds ⊢
  generalize text.drop p = rest at hfinds
  cases hfinds with
  | url host rest hrest =>
    rw [keeps_url]
    rfl
  | plain c rest hc hurl => rfl
  | word key rest hrun hkey =>
    obtain ⟨c, key, rfl⟩ := List.exists_cons_of_ne_nil hrun.nonempty
    rw [keeps_word]
    rfl
  | label key between value hrun hkey hvalue =>
    obtain ⟨c, key, rfl⟩ := List.exists_cons_of_ne_nil hrun.nonempty
    rw [keeps_label, List.length_cons, Nat.add_right_comm, List.replicate_succ]
    rfl

theorem hidden_value (o : Occurrence text) (h : Scanned text o.start)
    (hlength : valueLength o.key o.value = wholeLength o.key o.value) (hi : o.valueStart ≤ i) (hi' : i < o.valueEnd) :
    Hidden text i := by
  have hlt := o.valueStart_lt
  unfold Occurrence.valueEnd at hi'
  unfold Occurrence.valueStart at hi hi' hlt
  have hitem := o.itemAt_start
  have hwidth : (itemAt (text.drop o.start)).width = o.key.length + o.between.length + wholeLength o.key o.value := by
    rw [hitem, Item.width, hlength]
  have hstart : o.start = o.before.length := rfl
  have hkeeps := keeps_getElem? (i := i - o.start) h (by omega) (by omega)
  rw [hitem, keeps_label, List.getElem?_append_right (by rw [List.length_replicate]; omega), List.length_replicate,
    List.getElem?_replicate_of_lt (by omega), show o.start + (i - o.start) = i by omega] at hkeeps
  exact hkeeps

theorem hidden_user (h : Scanned text p) (hitem : itemAt (text.drop p) = .url host) (hi : p + 3 ≤ i)
    (hi' : i < p + (3 + userLength host)) (hp : p < text.length) : Hidden text i := by
  have hle := userLength_le host
  have hwidth : (itemAt (text.drop p)).width = 3 + host.length := by rw [hitem, Item.width]
  have hkeeps := keeps_getElem? (i := i - p) h hp (by omega)
  rw [hitem, keeps_url, List.getElem?_append_right (by rw [List.length_replicate]; omega), List.length_replicate,
    List.getElem?_append_left (by rw [List.length_replicate]; omega),
    List.getElem?_replicate_of_lt (by omega), show p + (i - p) = i by omega] at hkeeps
  exact hkeeps

theorem shown_host (h : Scanned text p) (hitem : itemAt (text.drop p) = .url host) (hi : p + (3 + userLength host) ≤ i)
    (hi' : i < p + (3 + host.length)) (hp : p < text.length) : Shown text i := by
  have hwidth : (itemAt (text.drop p)).width = 3 + host.length := by rw [hitem, Item.width]
  have hkeeps := keeps_getElem? (i := i - p) h hp (by omega)
  rw [hitem, keeps_url, List.getElem?_append_right (by rw [List.length_replicate]; omega), List.length_replicate,
    List.getElem?_append_right (by rw [List.length_replicate]; omega), List.length_replicate,
    List.getElem?_replicate_of_lt (by omega), show p + (i - p) = i by omega] at hkeeps
  exact hkeeps

/-- Characters between a label and its value are passed over one by one, up to the first of the value. -/
theorem shown_behind (h : Scanned text e) (he : e ≤ v) (hv : v < text.length)
    (hchars : ∀ i, e ≤ i → i < v → ∃ c, text[i]? = some c ∧ identifier c = false ∧ c ≠ '/') : Shown text v := by
  induction hn : v - e generalizing e with
  | zero =>
    have heq : e = v := by omega
    subst heq
    exact shown_of_scanned h hv
  | succ n ih =>
    obtain ⟨c, hget, hc, -⟩ := hchars e (Nat.le_refl e) (by omega)
    have hne : text.drop e ≠ [] := by
      rw [ne_eq, List.drop_eq_nil_iff]
      omega
    have hnext : Scanned text (e + (itemAt (text.drop e)).width) := h.next (by omega)
    have hkeeps := keeps_getElem? (i := 1) h (by omega)
    have hsecond : text[e + 1]? = (text.drop e)[1]? := by rw [List.getElem?_drop]
    rw [← List.head?_drop] at hget
    have hfinds := finds_itemAt hne
    generalize itemAt (text.drop e) = item at *
    generalize text.drop e = rest at *
    cases hfinds with
    | url host rest hrest =>
      -- `://` begins here: its colon is the last character in front of the value
      have hlast : ¬ e + 1 < v := by
        intro hlt
        obtain ⟨d, hd, -, hslash⟩ := hchars (e + 1) (by omega) hlt
        rw [hsecond] at hd
        exact hslash (Option.some.inj hd).symm
      have heq : v = e + 1 := by omega
      have hshown := hkeeps (by rw [Item.width]; omega)
      rw [keeps_url] at hshown
      rw [heq]
      exact hshown
    | plain c' rest hc' hurl =>
      have hwidth : (Item.plain c').width = 1 := rfl
      rw [hwidth] at hnext
      exact ih hnext (by omega) (fun i hi => hchars i (by omega)) (by omega)
    | word key rest hrun hkey =>
      obtain ⟨c', key, rfl⟩ := List.exists_cons_of_ne_nil hrun.nonempty
      have hc' := hrun.inside c' List.mem_cons_self
      rw [Option.some.inj hget, hc] at hc'
      cases hc'
    | label key between value hrun hkey hvalue =>
      obtain ⟨c', key, rfl⟩ := List.exists_cons_of_ne_nil hrun.nonempty
      have hc' := hrun.inside c' List.mem_cons_self
      rw [Option.some.inj hget, hc] at hc'
      cases hc'

/-- A label behind whose start an item begins, before or with its value: its value is shown. -/
theorem shown_valueStart (o : Occurrence text) (hreads : Reads text e) (h : Scanned text e) (hstart : o.start < e)
    (hend : e ≤ o.valueStart) : Shown text o.valueStart := by
  have hkey : o.start + o.key.length ≤ e := by
    by_contra hlt
    obtain ⟨c, hget, hc⟩ := o.identifier_key (i := e) (by omega) (by omega)
    obtain ⟨d, hget', hd⟩ := o.identifier_key (i := e - 1) (by omega) (by omega)
    have hfalse := boundary_of_reads hreads c hget hc d (by omega) hget'
    rw [hd] at hfalse
    cases hfalse
  exact shown_behind h hend o.valueStart_lt fun i hi hlt => o.getElem?_between (by omega) hlt

end Places

/-! ## Lines without JSON -/

/-- Nothing in the line looks like JSON. -/
def NoJson (serde : Serde) (line : Text) : Prop :=
  ∀ before c rest, line = before ++ c :: rest → looksLikeJson serde c rest = false

theorem spans_of_noJson {serde : Serde} {rewrite : Value → Value} {line : Text} (attempts : Nat)
    (h : NoJson serde line) :
    spans serde rewrite attempts 0 line = verbatims line := by
  induction line with
  | nil => rfl
  | cons c rest ih =>
    have hhead := h [] c rest rfl
    have hrest : NoJson serde rest := fun before d rest' heq => h (c :: before) d rest' (by rw [heq]; rfl)
    rw [spans, if_neg (by rw [hhead]; exact Bool.false_ne_true), ih hrest]
    rfl

/-! ## When no value is shown -/

/-- In reading the text, no label has a value that begins with the mask and goes on, and no label that stands in the
value of another or in the host of a URL has a value that leaves that value or the user part of that host. -/
structure Separate (text : Text) : Prop where
  masked : ∀ o : Occurrence text, Reads text o.start → mask.isPrefixOf o.value = true →
    unquotedLength o.key (o.value.drop mask.length) = 0
  nested : ∀ o o' : Occurrence text, Reads text o.start → o.valueStart ≤ o'.start → o'.start < o.valueEnd →
    o'.valueStart < o'.valueEnd → o'.valueEnd ≤ o.valueEnd
  hosts : ∀ p host, Reads text p → itemAt (text.drop p) = .url host → ∀ o : Occurrence text, p + 3 ≤ o.start →
    o.start < p + (3 + host.length) → o.valueStart < o.valueEnd → o.valueEnd ≤ p + (3 + userLength host)

section Separate

variable {text key between value host : Text} {p i : Nat}

/-- If no value begins with the mask and goes on, the patterns take each value as a whole. -/
theorem width_of_masked (h : ∀ o : Occurrence text, Reads text o.start → mask.isPrefixOf o.value = true →
    unquotedLength o.key (o.value.drop mask.length) = 0) (hreads : Reads text p) :
    (itemAt (text.drop p)).width = (itemAt (text.drop p)).wholeWidth := by
  cases hitem : itemAt (text.drop p) with
  | label key between value =>
    obtain ⟨o, rfl, rfl, rfl, rfl⟩ := exists_occurrence hreads hitem
    rw [Item.width, Item.wholeWidth, valueLength_eq (h o hreads)]
  | url host => rfl
  | plain c => rfl
  | word key => rfl

theorem scanned_iff_reads (h : ∀ o : Occurrence text, Reads text o.start → mask.isPrefixOf o.value = true →
    unquotedLength o.key (o.value.drop mask.length) = 0) (p : Nat) : Scanned text p ↔ Reads text p :=
  Reached.congr fun _ hreads _ => width_of_masked h hreads

theorem hidden_of_separate (h : Separate text) (o : Occurrence text) (hi : o.valueStart ≤ i) (hi' : i < o.valueEnd) :
    Hidden text i := by
  have hlt := o.valueStart_lt
  have hstart : o.start ≤ o.valueStart := Nat.le_add_right _ _
  obtain ⟨p, hreads, hle, hin⟩ := Reached.covered wholeWidth_pos (l := text) (i := o.start) (by omega)
  have hscanned := (scanned_iff_reads h.masked p).mpr hreads
  have hne : text.drop p ≠ [] := by
    rw [ne_eq, List.drop_eq_nil_iff]
    omega
  have hkey := List.length_pos_iff.mpr o.run.nonempty
  obtain ⟨c, hget, hc⟩ := o.identifier_key (i := o.start) (Nat.le_refl _) (by omega)
  by_cases hp : o.start = p
  · subst hp
    exact hidden_value o hscanned (valueLength_eq (h.masked o hreads)) hi hi'
  have hdrop : (text.drop p)[o.start - p]? = some c := by
    rw [List.getElem?_drop, show p + (o.start - p) = o.start by omega, hget]
  have hfinds := finds_itemAt hne
  cases hitem : itemAt (text.drop p) with
  | url host =>
    rw [hitem] at hin hfinds
    change o.start < p + (3 + host.length) at hin
    by_cases hhost : p + 3 ≤ o.start
    · have hend := h.hosts p host hreads hitem o hhost hin (by omega)
      exact hidden_user hscanned hitem (by omega) (by omega) (by omega)
    · -- no label begins in `://`
      generalize text.drop p = rest at hfinds hdrop
      cases hfinds with
      | url host rest hrest =>
        have hj : o.start - p = 1 ∨ o.start - p = 2 := by omega
        rcases hj with hj | hj
        · rw [hj] at hdrop
          rw [← Option.some.inj hdrop] at hc
          exact absurd hc (by decide)
        · rw [hj] at hdrop
          rw [← Option.some.inj hdrop] at hc
          exact absurd hc (by decide)
  | plain c' =>
    rw [hitem] at hin
    change o.start < p + 1 at hin
    omega
  | word key =>
    rw [hitem] at hin hfinds
    change o.start < p + key.length at hin
    have hbefore : ∃ d, (text.drop p)[o.start - 1 - p]? = some d ∧ identifier d = true := by
      generalize text.drop p = rest at hfinds
      cases hfinds with
      | word key rest hrun hkey => exact getElem?_run [] hrun (Nat.zero_le _) (by rw [List.length_nil]; omega)
    obtain ⟨d, hd, hword⟩ := hbefore
    rw [List.getElem?_drop, show p + (o.start - 1 - p) = o.start - 1 by omega] at hd
    rw [o.identifier_before (by omega) hd] at hword
    cases hword
  | label key between value =>
    obtain ⟨outer, rfl, rfl, rfl, rfl⟩ := exists_occurrence hreads hitem
    rw [hitem] at hin
    change o.start < outer.before.length +
      (outer.key.length + outer.between.length + wholeLength outer.key outer.value) at hin
    have hends : outer.valueEnd = outer.before.length + (outer.key.length + outer.between.length) +
      wholeLength outer.key outer.value := rfl
    by_cases hinKey : o.start < outer.start + outer.key.length
    · obtain ⟨d, hd, hword⟩ := outer.identifier_key (i := o.start - 1) (by omega) (by omega)
      rw [o.identifier_before (by omega) hd] at hword
      cases hword
    · by_cases hinBetween : o.start < outer.valueStart
      · obtain ⟨d, hd, hplain, -⟩ := outer.getElem?_between (i := o.start) (by omega) hinBetween
        rw [hget] at hd
        rw [Option.some.inj hd, hplain] at hc
        cases hc
      · have hend := h.nested outer o hreads (by omega) (by omega) (by omega)
        exact hidden_value outer hscanned (valueLength_eq (h.masked outer hreads)) (by omega) (by omega)

section Hidden

variable (h : ∀ o : Occurrence text, ∀ i, o.valueStart ≤ i → i < o.valueEnd → Hidden text i)
include h

/-- What goes on behind mask text would be shown. -/
theorem masked_of_hidden (o : Occurrence text) (hscanned : Scanned text o.start)
    (hmask : mask.isPrefixOf o.value = true) :
    unquotedLength o.key (o.value.drop mask.length) = 0 := by
  by_contra hne
  have hwhole : wholeLength o.key o.value = mask.length + unquotedLength o.key (o.value.drop mask.length) := by
    unfold wholeLength
    exact if_pos hmask
  have hends : o.valueEnd = o.valueStart + wholeLength o.key o.value := rfl
  have hle := o.valueEnd_le
  have hnext : Scanned text (o.valueStart + mask.length) := by
    have hnext := hscanned.next (by have := o.valueStart_lt; have : o.start ≤
      o.valueStart := Nat.le_add_right _ _; omega)
    rw [o.itemAt_start, Item.width, valueLength_of_mask hmask] at hnext
    rwa [show o.start + (o.key.length + o.between.length + mask.length) = o.valueStart + mask.length from
      (Nat.add_assoc _ _ _).symm] at hnext
  have hhidden := h o (o.valueStart + mask.length) (Nat.le_add_right _ _) (by omega)
  exact not_shown_of_hidden hhidden (shown_of_scanned hnext (by omega))

theorem scanned_of_reads (hreads : Reads text p) : Scanned text p := by
  induction hreads with
  | start => exact .start
  | @next p hreads hp hscanned =>
    have hwidth : (itemAt (text.drop p)).width = (itemAt (text.drop p)).wholeWidth := by
      cases hitem : itemAt (text.drop p) with
      | label key between value =>
        obtain ⟨o, rfl, rfl, rfl, rfl⟩ := exists_occurrence hreads hitem
        rw [Item.width, Item.wholeWidth, valueLength_eq (masked_of_hidden h o hscanned)]
      | url host => rfl
      | plain c => rfl
      | word key => rfl
    rw [← hwidth]
    exact hscanned.next hp

/-- A label whose value goes on where an item begins would show a character of it. -/
theorem valueEnd_le_of_reads (o : Occurrence text) {e : Nat} (hreads : Reads text e) (hstart : o.start < e)
    (hvalue : o.valueStart < o.valueEnd) : o.valueEnd ≤ e := by
  by_contra hlt
  have hscanned := scanned_of_reads h hreads
  have hle := o.valueEnd_le
  by_cases hend : o.valueStart ≤ e
  · exact not_shown_of_hidden (h o e hend (by omega)) (shown_of_scanned hscanned (by omega))
  · exact not_shown_of_hidden (h o o.valueStart (Nat.le_refl _) hvalue)
      (shown_valueStart o hreads hscanned hstart (by omega))

end Hidden

theorem separate_of_hidden (h : ∀ o : Occurrence text, ∀ i, o.valueStart ≤ i → i < o.valueEnd → Hidden text i) :
    Separate text where
  masked := fun o hreads => masked_of_hidden h o (scanned_of_reads h hreads)
  nested := by
    intro o o' hreads hin hin' hvalue
    have hlt := o.valueStart_lt
    have hstart : o.start ≤ o.valueStart := Nat.le_add_right _ _
    have hnext : Reads text o.valueEnd := by
      have hnext := hreads.next (by omega)
      rw [o.itemAt_start, Item.wholeWidth] at hnext
      rwa [show o.start + (o.key.length + o.between.length + wholeLength o.key o.value) = o.valueEnd from
        (Nat.add_assoc _ _ _).symm] at hnext
    exact valueEnd_le_of_reads h o' hnext hin' hvalue
  hosts := by
    intro p host hreads hitem o hin hin' hvalue
    have hscanned := scanned_of_reads h hreads
    have hlt := o.valueStart_lt
    have hstart : o.start ≤ o.valueStart := Nat.le_add_right _ _
    have hnext : Reads text (p + (3 + host.length)) := by
      have hnext := hreads.next (by omega)
      rwa [hitem] at hnext
    have hend := valueEnd_le_of_reads h o hnext hin' hvalue
    by_contra hleaves
    -- the first character behind the user part that belongs to the value
    have hshown : ∀ i, p + (3 + userLength host) ≤ i → o.valueStart ≤ i → ¬ i < o.valueEnd := by
      intro i hi hi' hlast
      exact not_shown_of_hidden (h o i hi' hlast) (shown_host hscanned hitem hi (by omega) (by omega))
    by_cases hafter : p + (3 + userLength host) ≤ o.valueStart
    · exact hshown _ hafter (Nat.le_refl _) hvalue
    · exact hshown _ (Nat.le_refl _) (by omega) (by omega)

/-- No character of a value of a sensitive label or option is shown at its place, exactly if labels and values are
apart: in reading the text, no value begins with the mask and goes on, and the value of a label within another value,
or within a host, does not leave that value, or the user part of the host. -/
theorem labels_hidden_iff (text : Text) :
    (∀ o : Occurrence text, ∀ i, o.valueStart ≤ i → i < o.valueEnd → Hidden text i) ↔ Separate text :=
  ⟨separate_of_hidden, fun h o _ hi hi' => hidden_of_separate h o hi hi'⟩

/-- A header that begins with the mask: what stands behind it is shown. -/
theorem mask_in_front_shows :
    ¬ ∀ o : Occurrence "Authorization: [REDACTED] Bearer hunter2".toList, ∀ i, o.valueStart ≤ i → i < o.valueEnd →
      Hidden "Authorization: [REDACTED] Bearer hunter2".toList i := by
  intro h
  have hhidden := h {
    before := []
    key := "Authorization".toList
    between := ": ".toList
    value := "[REDACTED] Bearer hunter2".toList
    text_eq := rfl
    apart := fun c hc => nomatch hc
    run := ⟨List.cons_ne_nil _ _, List.all_eq_true.mp (by decide +kernel), fun c hc => by rw [← Option.some.inj hc]; rfl⟩
    sensitive := by decide +kernel
    has_value := by decide +kernel } 33 (by decide +kernel) (by decide +kernel)
  have hshown : Shown "Authorization: [REDACTED] Bearer hunter2".toList 33 := by decide +kernel
  exact not_shown_of_hidden hhidden hshown

end Separate

end CocoaWay.Redaction
