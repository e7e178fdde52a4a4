import CocoaWay.Lib.Scan
import CocoaWay.Redaction.Known
import Mathlib.Data.List.TakeWhile

/-!
# Labelled values

* `Item`, `itemAt`, `Item.spans` : what the patterns find at a place, and what becomes of it;
* `shown_patternSpans`, `source_patternSpans` : the spans make up the output of the patterns and the text;
* `keeps`, `Hidden`, `Shown` : whether a character of the text is shown at its place in the output;
* `Scanned`, `keeps_getElem?` : the places where the patterns find an item, and what they keep of it.
-/

namespace CocoaWay.Redaction
open Lib

/-! ## Items -/

/-- The host part of a URL, behind `://`. -/
def urlHost (after : Text) : Text :=
  after.takeWhile fun c => !(isAsciiWhitespace c || isQuote c || [0x2F, 0x3F, 0x23].contains c.toNat)

/-- What the patterns find at a place: a URL up to its host, a character outside words, a word, or a sensitive key
with what stands before its value, and the rest of the text. -/
inductive Item where
  | url (host : Text)
  | plain (c : Char)
  | word (key : Text)
  | label (key between value : Text)

def wordAt (text : Text) : Item :=
  let key := text.takeWhile identifier
  if !sensitiveKey key then .word key
  else
    match keyValue key (text.drop key.length) with
    | none => .word key
    | some (between, value) => .label key between value

def itemAt (text : Text) : Item :=
  if "://".toList.isPrefixOf text then .url (urlHost (text.drop 3))
  else
    match text with
    | [] => .word []
    | c :: rest => if !identifier c then .plain c else wordAt (c :: rest)

def verbatims (text : Text) : List Span := text.map .verbatim

/-- The user part of a host. -/
def userLength (host : Text) : Nat :=
  match userInfo host with
  | some kept => host.length - kept.length
  | none => 0

/-- What becomes of an item; a quoted value keeps its quotes. -/
def Item.spans : Item → List Span
  | .url host =>
    match userInfo host with
    | some kept => verbatims "://".toList ++ .rewritten (host.take (userLength host)) mask :: verbatims kept
    | none => verbatims "://".toList ++ verbatims host
  | .plain c => [.verbatim c]
  | .word key => verbatims key
  | .label key between value =>
    let quote := value.take 1 |>.filter isQuote
    verbatims (key ++ between) ++ [.rewritten (value.take (valueLength key value)) (quote ++ mask ++ quote)]

/-- How much of the text the item takes. -/
def Item.width : Item → Nat
  | .url host => 3 + host.length
  | .plain _ => 1
  | .word key => key.length
  | .label key between value => key.length + between.length + valueLength key value

def patternSpans (text : Text) :
    List Span := scan (fun text => (itemAt text).spans) (fun text => (itemAt text).width) text

/-- A word from its first character to its last, in front of the rest of the text. -/
structure Run (key rest : Text) : Prop where
  nonempty : key ≠ []
  inside : ∀ c ∈ key, identifier c = true
  ends : ∀ c ∈ rest.head?, identifier c = false

/-- What `itemAt` finds. -/
inductive Finds : Text → Item → Prop
  | url (host rest : Text) (hrest : ∀ c ∈ rest.head?, identifier c = false) :
    Finds ("://".toList ++ (host ++ rest)) (.url host)
  | plain (c : Char) (rest : Text) (hc : identifier c = false) (hurl : ¬ "://".toList <+: c :: rest) :
    Finds (c :: rest) (.plain c)
  | word (key rest : Text) (hrun : Run key rest) (hkey : sensitiveKey key = true → keyValue key rest = none) :
    Finds (key ++ rest) (.word key)
  | label (key between value : Text) (hrun : Run key (between ++ value)) (hkey : sensitiveKey key = true)
    (hvalue : keyValue key (between ++ value) = some (between, value)) :
    Finds (key ++ (between ++ value)) (.label key between value)

section Items

variable {text key between value rest host : Text}

theorem head?_dropWhile (q : Char → Bool) (text : Text) : ∀ c ∈ (text.dropWhile q).head?, q c = false := by
  intro c hc
  have h := List.head?_dropWhile_not q text
  rw [Option.mem_def.mp hc] at h
  simpa using h

theorem drop_takeWhile_length (q : Char → Bool) (text : Text) :
    text.drop (text.takeWhile q).length = text.dropWhile q := by
  calc text.drop (text.takeWhile q).length
      = (text.takeWhile q ++ text.dropWhile q).drop (text.takeWhile q).length := by rw [List.takeWhile_append_dropWhile]
    _ = text.dropWhile q := List.drop_left

theorem run_takeWhile {c : Char} (hc : identifier c = true) :
    Run ((c :: rest).takeWhile identifier) ((c :: rest).dropWhile identifier) where
  nonempty := by
    rw [List.takeWhile_cons_of_pos hc]
    exact List.cons_ne_nil _ _
  inside := fun _ hd => List.mem_takeWhile_imp hd
  ends := head?_dropWhile identifier _

/-- Letters, digits, `_`, `-` and `.`, by their code points. -/
theorem toNat_of_identifier {c : Char} (h : identifier c = true) :
    c.toNat = 0x2D ∨ c.toNat = 0x2E ∨ 0x30 ≤ c.toNat ∧ c.toNat ≤ 0x39 ∨ 0x41 ≤ c.toNat ∧ c.toNat ≤ 0x5A ∨
      c.toNat = 0x5F ∨
      0x61 ≤ c.toNat ∧ c.toNat ≤ 0x7A := by
  have hval : c.val.toNat = c.toNat := rfl
  unfold identifier Char.isAlphanum Char.isAlpha Char.isUpper Char.isLower Char.isDigit at h
  simp only [Bool.or_eq_true, Bool.and_eq_true, decide_eq_true_eq, UInt32.le_iff_toNat_le, ge_iff_le,
    List.contains_cons, List.contains_nil, beq_iff_eq, Bool.or_false] at h
  rcases h with ((h | h) | h) | rfl | rfl | rfl
  · right; right; right; left
    exact h
  · right; right; right; right; right
    exact h
  · right; right; left
    exact h
  · decide
  · decide
  · decide

theorem identifier_of_host {c : Char}
    (h : (!(isAsciiWhitespace c || isQuote c || [0x2F, 0x3F, 0x23].contains c.toNat)) = false) :
      identifier c = false := by
  rw [Bool.eq_false_iff]
  intro hc
  have hnat := toNat_of_identifier hc
  simp [isAsciiWhitespace, isQuote] at h
  omega

theorem finds_wordAt {c : Char} (hc : identifier c = true) : Finds (c :: rest) (wordAt (c :: rest)) := by
  have hrun : Run ((c :: rest).takeWhile identifier) _ := run_takeWhile hc
  have hsplit := List.takeWhile_append_dropWhile (p := identifier) (l := c :: rest)
  unfold wordAt
  dsimp only
  rw [drop_takeWhile_length]
  generalize (c :: rest).takeWhile identifier = key at *
  generalize (c :: rest).dropWhile identifier = after at *
  rw [← hsplit]
  split
  · next hs =>
    refine .word key after hrun fun hkey => ?_
    rw [hkey] at hs
    cases hs
  · next hs =>
    split
    · next hnone => exact .word key after hrun fun _ => hnone
    · next between value hsome =>
      obtain ⟨rfl, -⟩ := keyValue_some hsome
      exact .label key between value hrun (by simpa using hs) hsome

theorem finds_itemAt (h : text ≠ []) : Finds text (itemAt text) := by
  by_cases hurl : "://".toList.isPrefixOf text = true
  · unfold itemAt
    rw [if_pos hurl]
    obtain ⟨after, rfl⟩ := List.isPrefixOf_iff_prefix.1 hurl
    have hdrop : ("://".toList ++ after).drop 3 = after := rfl
    have hfinds := Finds.url (urlHost after) (after.dropWhile _) fun c hc =>
      identifier_of_host (head?_dropWhile _ _ c hc)
    rw [hdrop]
    rwa [urlHost, List.takeWhile_append_dropWhile] at hfinds
  · obtain ⟨c, rest, rfl⟩ := List.exists_cons_of_ne_nil h
    unfold itemAt
    rw [if_neg hurl]
    by_cases hc : identifier c = true
    · simpa [hc] using finds_wordAt hc
    · rw [Bool.not_eq_true] at hc
      simpa [hc] using Finds.plain c rest hc fun hp => hurl (List.isPrefixOf_iff_prefix.2 hp)

end Items

/-! ## The output, item by item -/

section Output

variable {text key between value rest host : Text}

theorem quotedLength_le (quote : Char) (text : Text) : quotedLength quote text ≤ text.length := by
  fun_induction quotedLength quote text with
  | case1 => exact Nat.le_refl 0
  | case2 => exact Nat.le_refl 1
  | case3 c hc d rest ih =>
    rw [List.length_cons, List.length_cons]
    omega
  | case4 rest hc =>
    rw [List.length_cons]
    omega
  | case5 c rest hc hq ih =>
    rw [List.length_cons]
    omega

theorem length_takeWhile_le (q : Char → Bool) (text : Text) : (text.takeWhile q).length ≤ text.length :=
  (List.takeWhile_prefix q).length_le

theorem valueLength_le (key value : Text) : valueLength key value ≤ value.length := by
  unfold valueLength
  dsimp only
  split
  · next hmask => exact (List.isPrefixOf_iff_prefix.1 hmask).length_le
  · cases value with
    | nil => exact Nat.le_refl 0
    | cons c rest =>
      dsimp only
      split
      · have h := quotedLength_le c rest
        rw [List.length_cons]
        omega
      · split
        · exact length_takeWhile_le _ _
        · exact length_takeWhile_le _ _

theorem source_verbatims (text : Text) : (verbatims text).flatMap Span.source = text := by
  unfold verbatims
  rw [List.flatMap_map]
  exact List.flatMap_singleton' text

theorem shown_verbatims (text : Text) : (verbatims text).flatMap Span.shown = text := by
  unfold verbatims
  rw [List.flatMap_map]
  exact List.flatMap_singleton' text

theorem userLength_le (host : Text) : userLength host ≤ host.length := by
  unfold userLength
  split
  · exact Nat.sub_le _ _
  · exact Nat.zero_le _

theorem userInfo_some {kept : Text} (h : userInfo host = some kept) :
    host = host.take (userLength host) ++ kept ∧ ∃ rest, kept = '@' :: rest := by
  have hlength : userLength host = host.length - kept.length := by rw [userLength, h]
  unfold userInfo at h
  dsimp only at h
  split at h
  · cases h
  · next hback =>
    obtain ⟨c, back, hcons⟩ := List.exists_cons_of_ne_nil hback
    have hat : c = '@' := by
      have hhead := head?_dropWhile (fun c => decide (c ≠ '@')) host.reverse c (by rw [hcons]; rfl)
      simpa using hhead
    have hhost : host = back.reverse ++ (c :: (host.reverse.takeWhile fun c => decide (c ≠ '@')).reverse) := by
      have hsplit := List.takeWhile_append_dropWhile (p := fun c => decide (c ≠ '@')) (l := host.reverse)
      rw [hcons] at hsplit
      simpa using (congrArg List.reverse hsplit).symm
    generalize (host.reverse.takeWhile fun c => decide (c ≠ '@')).reverse = tail at hhost
    have hkept : kept = c :: tail := by
      rw [← Option.some.inj h, hcons, hhost]
      simp
    subst hat hkept
    refine ⟨?_, tail, rfl⟩
    rw [hlength, hhost]
    simp

theorem width_le_length (text : Text) : (itemAt text).width ≤ text.length := by
  by_cases hne : text = []
  · subst hne
    decide
  · have hfinds := finds_itemAt hne
    generalize itemAt text = item at hfinds
    cases hfinds with
    | url host rest hrest =>
      rw [List.length_append, List.length_append, Item.width]
      have hlength : "://".toList.length = 3 := rfl
      omega
    | plain c rest hc hurl => exact Nat.succ_le_succ (Nat.zero_le rest.length)
    | word key rest hrun hkey =>
      rw [List.length_append, Item.width]
      omega
    | label key between value hrun hkey hvalue =>
      have hlength := valueLength_le key value
      rw [List.length_append, List.length_append, Item.width]
      omega

theorem width_pos (text : Text) (h : text ≠ []) : 0 < (itemAt text).width := by
  have hfinds := finds_itemAt h
  generalize itemAt text = item at hfinds
  cases hfinds with
  | url host rest hrest => exact Nat.lt_of_lt_of_le (by decide) (Nat.le_add_right 3 host.length)
  | plain c rest hc hurl => exact Nat.one_pos
  | word key rest hrun hkey => exact List.length_pos_iff.mpr hrun.nonempty
  | label key between value hrun hkey hvalue =>
    have hkey := List.length_pos_iff.mpr hrun.nonempty
    change 0 < key.length + between.length + valueLength key value
    omega

/-- The spans of an item stand for the front of the text. -/
theorem source_itemAt (h : text ≠ []) : (itemAt text).spans.flatMap Span.source = text.take (itemAt text).width := by
  have hfinds := finds_itemAt h
  generalize itemAt text = item at hfinds
  cases hfinds with
  | url host rest hrest =>
    have htake : ("://".toList ++ (host ++ rest)).take (3 + host.length) = "://".toList ++ host := by
      rw [← List.append_assoc]
      exact List.take_left' (List.length_append)
    rw [Item.width, htake, Item.spans]
    cases hinfo : userInfo host with
    | none => simp [source_verbatims]
    | some kept =>
      simp only [List.flatMap_append, List.flatMap_cons, source_verbatims, Span.source]
      rw [← (userInfo_some hinfo).1]
  | plain c rest hc hurl => rfl
  | word key rest hrun hkey => rw [Item.width, List.take_left, Item.spans, source_verbatims]
  | label key between value hrun hkey hvalue =>
    have htake : (key ++ (between ++ value)).take (key.length + between.length + valueLength key value) =
        key ++ between ++ value.take (valueLength key value) := by
      rw [← List.append_assoc, List.take_append, List.take_of_length_le (by simp)]
      simp
    rw [Item.width, htake, Item.spans, List.flatMap_append, source_verbatims]
    simp [Span.source]

theorem shown_url (host : Text) : (Item.url host).spans.flatMap Span.shown =
    "://".toList ++ (match userInfo host with | some kept => mask ++ kept | none => host) := by
  rw [Item.spans]
  cases userInfo host with
  | none => rw [List.flatMap_append, shown_verbatims, shown_verbatims]
  | some kept => rw [List.flatMap_append, List.flatMap_cons, shown_verbatims, shown_verbatims, Span.shown]

theorem shown_label (key between value : Text) : (Item.label key between value).spans.flatMap Span.shown =
    key ++ between ++ ((value.take 1).filter isQuote ++ mask ++ (value.take 1).filter isQuote) := by
  rw [Item.spans, List.flatMap_append, shown_verbatims, List.flatMap_singleton, Span.shown]

theorem shown_word (key : Text) : (Item.word key).spans.flatMap Span.shown = key := shown_verbatims key

theorem redactPatternsFrom_succ (fuel : Nat) (h : text ≠ []) : redactPatternsFrom (fuel + 1) text =
    (itemAt text).spans.flatMap Span.shown ++ redactPatternsFrom fuel (text.drop (itemAt text).width) := by
  obtain ⟨c, rest, rfl⟩ := List.exists_cons_of_ne_nil h
  rw [redactPatternsFrom]
  by_cases hurl : "://".toList.isPrefixOf (c :: rest) = true
  · have hitem : itemAt (c :: rest) = .url (urlHost ((c :: rest).drop 3)) := by
      unfold itemAt
      rw [if_pos hurl]
    rw [if_pos hurl, hitem, shown_url, Item.width, ← List.drop_drop]
    rfl
  · by_cases hc : identifier c = true
    · have hitem : itemAt (c :: rest) = wordAt (c :: rest) := by
        unfold itemAt
        rw [if_neg hurl]
        simp [hc]
      have hplain : ¬ (!identifier c) = true := by simp [hc]
      rw [if_neg hurl, if_neg hplain, hitem]
      unfold wordAt
      dsimp only
      have hsplit := List.takeWhile_append_dropWhile (p := identifier) (l := c :: rest)
      rw [drop_takeWhile_length]
      generalize (c :: rest).takeWhile identifier = key at *
      generalize (c :: rest).dropWhile identifier = after at *
      rw [← hsplit]
      split
      · rw [shown_word, Item.width, List.drop_left]
      · cases hvalue : keyValue key after with
        | none =>
          dsimp only
          rw [shown_word, Item.width, List.drop_left]
        | some found =>
          obtain ⟨between, value⟩ := found
          obtain ⟨rfl, -⟩ := keyValue_some hvalue
          dsimp only
          rw [shown_label, Item.width, ← List.drop_drop, ← List.append_assoc key, ← List.length_append, List.drop_left]
          simp
    · have hitem : itemAt (c :: rest) = .plain c := by
        unfold itemAt
        rw [if_neg hurl]
        simp [hc]
      have hplain : (!identifier c) = true := by simp [hc]
      rw [if_neg hurl, if_pos hplain, hitem]
      rfl

theorem shown_patternSpans (text : Text) : (patternSpans text).flatMap Span.shown = redactPatterns text := by
  have hfrom : ∀ fuel (text : Text), text.length ≤ fuel →
      scanFrom (fun text => (itemAt text).spans.flatMap Span.shown) (fun text => (itemAt text).width) fuel text =
        redactPatternsFrom fuel text := by
    intro fuel
    induction fuel with
    | zero =>
      intro text hlen
      rw [List.eq_nil_of_length_eq_zero (Nat.le_zero.mp hlen)]
      rfl
    | succ fuel ih =>
      intro text hlen
      cases text with
      | nil => rfl
      | cons c rest =>
        have hne := List.cons_ne_nil c rest
        have hpos := width_pos _ hne
        rw [scanFrom, redactPatternsFrom_succ fuel hne, ih]
        rw [List.length_drop]
        omega
  unfold patternSpans redactPatterns
  rw [flatMap_scan]
  exact hfrom text.length text (Nat.le_refl _)

theorem source_patternSpans (text : Text) : (patternSpans text).flatMap Span.source = text := by
  induction hn : text.length using Nat.strongRecOn generalizing text with
  | ind n ih =>
    by_cases hne : text = []
    · subst hne
      rfl
    · have hpos := width_pos text hne
      have hle := width_le_length text
      have hrest := ih (text.drop (itemAt text).width).length (by rw [List.length_drop]; omega) _ rfl
      unfold patternSpans at hrest ⊢
      rw [scan_eq width_pos hne, List.flatMap_append, source_itemAt hne, hrest, List.take_append_drop]

end Output

/-! ## Places that are shown -/

/-- Whether the characters a span stands for are shown. -/
def Span.keeps : Span → List Bool
  | .verbatim _ => [true]
  | .rewritten source _ => source.map fun _ => false

/-- Whether each character of the text is shown at its place in the output. -/
def keeps (text : Text) : List Bool := (patternSpans text).flatMap Span.keeps

def Hidden (text : Text) (i : Nat) : Prop := (keeps text)[i]? = some false

def Shown (text : Text) (i : Nat) : Prop := (keeps text)[i]? = some true

instance (text : Text) (i : Nat) : Decidable (Shown text i) := inferInstanceAs (Decidable (_ = _))

/-- What an item keeps. -/
def Item.keeps (item : Item) : List Bool := item.spans.flatMap Span.keeps

section Keeps

variable {text key between value rest host : Text} {p i : Nat}

theorem keeps_verbatims (text : Text) : (verbatims text).flatMap Span.keeps = List.replicate text.length true := by
  unfold verbatims
  rw [List.flatMap_map]
  induction text with
  | nil => rfl
  | cons c text ih => rw [List.flatMap_cons, ih]; rfl

theorem keeps_url (host : Text) : (Item.url host).keeps =
    List.replicate 3 true ++ (List.replicate (userLength host) false ++
      List.replicate (host.length - userLength host) true) := by
  rw [Item.keeps, Item.spans]
  cases hinfo : userInfo host with
  | none =>
    dsimp only
    rw [List.flatMap_append, keeps_verbatims, keeps_verbatims, userLength, hinfo]
    rfl
  | some kept =>
    obtain ⟨hsplit, -⟩ := userInfo_some hinfo
    have hlength := congrArg List.length hsplit
    have hle := userLength_le host
    rw [List.length_append, List.length_take_of_le hle] at hlength
    have hkept : kept.length = host.length - userLength host := by omega
    rw [List.flatMap_append, List.flatMap_cons, keeps_verbatims, keeps_verbatims, Span.keeps, List.map_const', hkept,
      List.length_take_of_le hle]
    rfl

theorem keeps_word (key : Text) : (Item.word key).keeps = List.replicate key.length true := keeps_verbatims key

theorem keeps_label (key between value : Text) : (Item.label key between value).keeps =
    List.replicate (key.length + between.length) true ++ List.replicate (valueLength key value) false := by
  rw [Item.keeps, Item.spans]
  rw [List.flatMap_append, keeps_verbatims, List.flatMap_singleton, Span.keeps, List.map_const', List.length_append,
    List.length_take_of_le (valueLength_le key value)]

theorem length_keeps (text : Text) : (itemAt text).keeps.length = (itemAt text).width := by
  cases itemAt text with
  | url host =>
    have hle := userLength_le host
    rw [keeps_url, Item.width]
    simp only [List.length_append, List.length_replicate]
    omega
  | plain c => rfl
  | word key => rw [keeps_word, List.length_replicate, Item.width]
  | label key between value =>
    rw [keeps_label, Item.width]
    simp only [List.length_append, List.length_replicate]

/-- The places of the text where the patterns find an item. -/
def Scanned (text : Text) (p : Nat) : Prop := Reached (fun text => (itemAt text).width) text p

theorem keeps_getElem? (h : Scanned text p) (hp : p < text.length) (hi : i < (itemAt (text.drop p)).width) :
    (keeps text)[p + i]? = (itemAt (text.drop p)).keeps[i]? := by
  unfold keeps patternSpans
  rw [flatMap_scan]
  exact h.scan_getElem? width_pos (fun text _ => length_keeps text) hp hi

end Keeps

end CocoaWay.Redaction
