import CocoaWay.Lib.Masking
import CocoaWay.Lib.Utf8
import CocoaWay.Redaction.Main

/-!
# Known secrets

* `Documents`, `outputWithSecrets` : what the code uses of its JSON library for a whole document, and the output of a
  command without its secrets;
* `replaceFrom_masks`, `not_infix_replaceAll`, `redactPatterns_patched` : every pass over a line masks parts of it,
  but that a quoted value that is not closed takes the end of its line along;
* `Known`, `Spills` : the secrets that are masked, but behind such a value;
* `knownSecrets_masked` : what this means; `knownSecrets_shown` : where secrets are shown.
-/

namespace CocoaWay.Redaction
open Lib

/-! ## Documents -/

mutual

/-- The string values of a value, but for the keys. -/
def Value.strings : Value → List Text
  | .object fields => fieldStrings fields
  | .array values => valueStrings values
  | .string text => [text]
  | .null | .bool _ | .number _ => []

def fieldStrings : List (Text × Value) → List Text
  | [] => []
  | (_, value) :: fields => value.strings ++ fieldStrings fields

def valueStrings : List Value → List Text
  | [] => []
  | value :: values => value.strings ++ valueStrings values

end

/-- What the code uses of its JSON library for a whole document: the value of some bytes, and a value as text over
several lines. A character of the text is marked if it stands for itself in a string value, and not in a key, a
number, a literal, an escape or the punctuation. -/
structure Documents extends Serde where
  fromSlice : List UInt8 → Option Value
  pretty : Value → List (Char × Bool)
  pretty_marked : ∀ value before run after, pretty value = before ++ run ++ after → run ≠ [] →
    (∀ c ∈ run, c.2 = true) → ∃ text ∈ value.strings, run.map Prod.fst <:+: text

/-- Text, or a string of a document, through a redactor of its own. -/
def redactAlone (serde : Serde) (secrets : List Text) (text : Text) : Text :=
  ((Redactor.withSecrets secrets).redact serde text).1.flatMap Piece.text

/-- `json_with_secrets`. -/
def redactDocument (serde : Serde) (secrets : List Text) (value : Value) : Value :=
  jsonWithSecrets (redactAlone serde secrets) value

/-- `output_with_secrets`. -/
def outputWithSecrets (json : Documents) (secrets : List Text) (bytes : List UInt8) : Text :=
  match json.fromSlice bytes with
  | some value => (json.pretty (redactDocument json.toSerde secrets value)).map Prod.fst
  | none => redactAlone json.toSerde secrets (fromUtf8Lossy bytes)

mutual

variable {s : Text} {secrets : List Text} {redact : Text → Text} {quote : Char}

/-- Every string value of a redacted document is the mask, or redacted. -/
theorem strings_jsonWithSecrets : ∀ (value : Value),
    ∀ text ∈ (jsonWithSecrets redact value).strings, text = mask ∨ ∃ source ∈ value.strings, text = redact source
  | .object fields, text, hm => strings_jsonFields fields text hm
  | .array values, text, hm => strings_jsonValues values text hm
  | .string source, _, hm => Or.inr ⟨source, List.mem_singleton_self source, List.mem_singleton.1 hm⟩
  | .null, _, hm => nomatch hm
  | .bool _, _, hm => nomatch hm
  | .number _, _, hm => nomatch hm

theorem strings_jsonFields : ∀ (fields : List (Text × Value)),
    ∀ text ∈ fieldStrings (jsonFields redact fields), text = mask ∨ ∃ source ∈ fieldStrings fields, text = redact source
  | (key, value) :: fields, text, hm => by
    rcases List.mem_append.1 hm with hm | hm
    · by_cases hmasked : maskedField key = true
      · rw [if_pos hmasked] at hm
        exact Or.inl (List.mem_singleton.1 hm)
      · rw [if_neg hmasked] at hm
        rcases strings_jsonWithSecrets value text hm with h | ⟨source, hs, h⟩
        · exact Or.inl h
        · exact Or.inr ⟨source, List.mem_append_left _ hs, h⟩
    · rcases strings_jsonFields fields text hm with h | ⟨source, hs, h⟩
      · exact Or.inl h
      · exact Or.inr ⟨source, List.mem_append_right _ hs, h⟩

theorem strings_jsonValues : ∀ (values : List Value),
    ∀ text ∈ valueStrings (jsonValues redact values), text = mask ∨ ∃ source ∈ valueStrings values, text = redact source
  | value :: values, text, hm => by
    rcases List.mem_append.1 hm with hm | hm
    · rcases strings_jsonWithSecrets value text hm with h | ⟨source, hs, h⟩
      · exact Or.inl h
      · exact Or.inr ⟨source, List.mem_append_left _ hs, h⟩
    · rcases strings_jsonValues values text hm with h | ⟨source, hs, h⟩
      · exact Or.inl h
      · exact Or.inr ⟨source, List.mem_append_right _ hs, h⟩

end

/-! ## Replacing the secrets -/

theorem replaceFrom_masks (pattern : Text) (skip : Nat) (text : Text) :
    Masks mask (text.drop skip) (replaceFrom pattern skip text) := by
  fun_induction replaceFrom pattern skip text with
  | case1 => simpa using Masks.nil
  | case2 skip c rest ih => exact ih
  | case3 c rest hp ih =>
    have h := Masks.mask (c :: rest.take (pattern.length - 1)) ih
    rwa [List.cons_append, List.take_append_drop] at h
  | case4 c rest hp ih => exact .keep c ih

theorem not_infix_replaceFrom {pattern : Text} (h : Apart mask pattern) (skip : Nat) (text : Text) :
    ¬ pattern <:+: replaceFrom pattern skip text := by
  fun_induction replaceFrom pattern skip text with
  | case1 => exact fun hin => h.nonempty (List.infix_nil.1 hin)
  | case2 skip c rest ih => exact ih
  | case3 c rest hp ih =>
    intro hin
    rcases h.infix_or (x := []) hin with hin | hin
    · exact h.nonempty (List.infix_nil.1 hin)
    · exact ih hin
  | case4 c rest hp ih =>
    intro hin
    rcases List.infix_cons_iff.1 hin with hpre | hin
    · -- an occurrence at the front would have been one in the text
      obtain ⟨p, r, he, hpl, hr⟩ := (replaceFrom_masks pattern 0 rest).front
      rw [he] at hpre
      have hfront : pattern <+: c :: p := by
        rcases hr with rfl | ⟨y, rfl⟩
        · rwa [List.append_nil] at hpre
        · exact h.prefix_front (x := c :: p) hpre
      exact hp (List.isPrefixOf_iff_prefix.2 (hfront.trans ((List.prefix_cons_inj c).2 hpl)))
    · exact ih hin

theorem infix_of_infix_replaceAll (h : Apart mask s) : ∀ (secrets : List Text) (line : Text),
    s <:+: replaceAll secrets line → s <:+: line
  | [], _, hin => hin
  | pattern :: secrets, line, hin =>
    (replaceFrom_masks pattern 0 line).found h (infix_of_infix_replaceAll h secrets _ hin)

/-- No secret of the list is left in a line. -/
theorem not_infix_replaceAll (h : Apart mask s) : ∀ {secrets : List Text} (line : Text), s ∈ secrets →
    ¬ s <:+: replaceAll secrets line
  | pattern :: secrets, line, hs, hin => by
    rcases List.mem_cons.1 hs with rfl | hs
    · exact not_infix_replaceFrom h 0 line (infix_of_infix_replaceAll h secrets _ hin)
    · exact not_infix_replaceAll h _ hs hin

theorem shut_replaceAll (h : Apart mask s) : ∀ (secrets : List Text) {line : Text}, Shut s line →
    Shut s (replaceAll secrets line)
  | [], _, hshut => hshut
  | pattern :: secrets, _, hshut => shut_replaceAll h secrets ((replaceFrom_masks pattern 0 _).shut h hshut)

/-! ## Patterns -/

/-- Whether a quoted value is closed, after its opening quote. -/
def closesQuote (quote : Char) : Text → Bool
  | [] => false
  | c :: rest =>
    if c.toNat = 0x5C then
      match rest with
      | [] => false
      | _ :: rest => closesQuote quote rest
    else c == quote || closesQuote quote rest

/-- The value of a sensitive key of the line is quoted, and the quote is not closed. -/
def Unclosed (line : Text) : Prop :=
  ∃ before key between quote value, line = before ++ (key ++ (between ++ quote :: value)) ∧ sensitiveKey key = true ∧
    keyValue key (between ++ quote :: value) = some (between, quote :: value) ∧ isQuote quote = true ∧
      closesQuote quote value = false

theorem quotedLength_of_closes {value : Text} (h : closesQuote quote value = true) :
    ∃ inner rest, value = inner ++ quote :: rest ∧ quotedLength quote value = inner.length + 1 := by
  fun_induction closesQuote quote value with
  | case1 => cases h
  | case2 c hc => cases h
  | case3 c hc d rest ih =>
    obtain ⟨inner, rest', rfl, hl⟩ := ih h
    refine ⟨c :: d :: inner, rest', rfl, ?_⟩
    rw [quotedLength, if_pos hc]
    simp only [hl, List.length_cons]
    omega
  | case4 c rest hc ih =>
    unfold quotedLength
    rw [if_neg hc]
    by_cases hq : c = quote
    · subst hq
      exact ⟨[], rest, rfl, by simp⟩
    · rw [if_neg hq]
      obtain ⟨inner, rest', rfl, hl⟩ := ih (by simpa [hq] using h)
      refine ⟨c :: inner, rest', rfl, ?_⟩
      rw [hl, List.length_cons]
      omega

theorem quotedLength_of_not_closes {value : Text} (h : closesQuote quote value = false) :
    quotedLength quote value = value.length := by
  fun_induction closesQuote quote value with
  | case1 => rfl
  | case2 c hc => rw [quotedLength, if_pos hc]; rfl
  | case3 c hc d rest ih =>
    rw [quotedLength, if_pos hc]
    simp only [ih h, List.length_cons]
    omega
  | case4 c rest hc ih =>
    rw [Bool.or_eq_false_iff, beq_eq_false_iff_ne] at h
    unfold quotedLength
    rw [if_neg hc, if_neg h.1, ih h.2, List.length_cons]
    omega

/-- The value behind a sensitive key is the end of the text behind the key. -/
theorem keyValue_some {key after between value : Text} (h : keyValue key after = some (between, value)) :
    after = between ++ value ∧ value ≠ [] := by
  unfold keyValue at h
  obtain ⟨rest, hrest, h⟩ := Option.bind_eq_some_iff.1 h
  generalize heq : List.dropWhile isBlank _ = blank at hrest
  have hunquoted : blank <:+ after := by
    rw [← heq]
    refine (List.dropWhile_suffix isBlank).trans ?_
    cases after with
    | nil => exact List.suffix_refl _
    | cons c rest =>
      dsimp only
      split
      · exact List.suffix_cons c rest
      · exact List.suffix_refl _
  have hafter : rest <:+ after := by
    refine List.IsSuffix.trans ?_ hunquoted
    cases blank with
    | nil =>
      dsimp only at hrest
      split at hrest
      · rw [← Option.some.inj hrest]
      · cases hrest
    | cons c rest' =>
      dsimp only at hrest
      split at hrest
      · rw [← Option.some.inj hrest]
        exact List.suffix_cons c rest'
      · split at hrest
        · rw [← Option.some.inj hrest]
        · cases hrest
  have hblank := (List.dropWhile_suffix isBlank).trans hafter
  cases hd : rest.dropWhile isBlank with
  | nil =>
    rw [hd] at h
    cases h
  | cons c rest' =>
    rw [hd] at h hblank
    dsimp only at h
    split at h
    · cases h
    · obtain ⟨rfl, rfl⟩ := Prod.mk.inj (Option.some.inj h)
      refine ⟨?_, List.cons_ne_nil c rest'⟩
      exact (List.suffix_iff_eq_append.1 hblank).symm

/-- Parts of the line are masked; a quoted value that is not closed is masked to the end, and a closing quote put
there. -/
def Patched (line out : Text) : Prop :=
  Masks mask line out ∨
    Unclosed line ∧ ∃ x, ∃ quote ∈ line, isQuote quote = true ∧ out = x ++ mask ++ [quote] ∧
      Masks mask line (x ++ mask)

theorem Patched.prepend {front front' line out : Text} (hf : Masks mask front front') (h : Patched line out) :
    Patched (front ++ line) (front' ++ out) := by
  rcases h with h | ⟨⟨before, key, between, quote, value, rfl, hrest⟩, x, q, hmem, hq, rfl, h⟩
  · exact Or.inl (hf.append h)
  · refine Or.inr ⟨⟨front ++ before, key, between, quote, value, by rw [List.append_assoc], hrest⟩, front' ++ x, q,
      List.mem_append_right front hmem, hq, by simp, ?_⟩
    rw [List.append_assoc]
    exact hf.append h

theorem userInfo_masks (host : Text) :
    Masks mask host (match userInfo host with | some kept => mask ++ kept | none => host) := by
  unfold userInfo
  dsimp only
  by_cases hback : host.reverse.dropWhile (· ≠ '@') = []
  · rw [if_pos hback]
    exact Masks.refl mask host
  · rw [if_neg hback]
    have h := Masks.mask (host.take ((host.reverse.dropWhile (· ≠ '@')).length - 1))
      (Masks.refl mask (host.drop ((host.reverse.dropWhile (· ≠ '@')).length - 1)))
    rwa [List.take_append_drop] at h

theorem valueLength_of_isQuote {key value : Text} (hq : isQuote quote = true) :
    valueLength key (quote :: value) = 1 + quotedLength quote value := by
  have hmask : mask.isPrefixOf (quote :: value) = false := by
    rw [Bool.eq_false_iff]
    intro hp
    obtain ⟨rest, hrest⟩ := List.isPrefixOf_iff_prefix.1 hp
    have hquote : '[' = quote := (List.cons.inj hrest).1
    rw [← hquote] at hq
    exact absurd hq (by decide)
  unfold valueLength
  simp only [hmask, hq, if_true]
  rfl

/-- A quoted value: from quote to quote, or to the end of the line. -/
theorem quoted_patched {key between value rest : Text} (hkey : sensitiveKey key = true)
    (hkv : keyValue key (between ++ quote :: value) = some (between, quote :: value)) (hq : isQuote quote = true)
    (h : Patched (value.drop (quotedLength quote value)) rest)
    (hrest : value.drop (quotedLength quote value) = [] → rest = []) :
    Patched (key ++ (between ++ quote :: value)) (key ++ (between ++ quote :: (mask ++ quote :: rest))) := by
  by_cases hc : closesQuote quote value = true
  · obtain ⟨inner, after, rfl, hl⟩ := quotedLength_of_closes hc
    have hdrop : (inner ++ quote :: after).drop (inner.length + 1) = after := by
      rw [List.drop_append]
      simp
    rw [hl, hdrop] at h
    have hm : Masks mask (key ++ (between ++ (quote :: (inner ++ [quote]))))
        (key ++ (between ++ quote :: (mask ++ [quote]))) :=
      (Masks.refl mask key).append ((Masks.refl mask between).append (.keep quote (.mask inner (.keep quote .nil))))
    simpa using h.prepend hm
  · rw [Bool.not_eq_true] at hc
    rw [quotedLength_of_not_closes hc, List.drop_length] at hrest
    rw [hrest rfl]
    have hm : Masks mask value (mask ++ []) := by
      have := Masks.mask (m := mask) value .nil
      rwa [List.append_nil] at this
    refine Or.inr ⟨⟨[], key, between, quote, value, rfl, hkey, hkv, hq, hc⟩, key ++ (between ++ [quote]), quote,
      by simp, hq, by simp, ?_⟩
    have hall := (Masks.refl mask key).append ((Masks.refl mask between).append (Masks.keep quote hm))
    simpa using hall

theorem redactPatternsFrom_patched : ∀ (fuel : Nat) (text : Text), Patched text (redactPatternsFrom fuel text)
  | 0, text => Or.inl (Masks.refl mask text)
  | _ + 1, [] => Or.inl .nil
  | fuel + 1, c :: rest => by
    rw [redactPatternsFrom]
    split
    · next hurl =>
      obtain ⟨after, hafter⟩ := List.isPrefixOf_iff_prefix.1 hurl
      have hdrop : (c :: rest).drop 3 = after := by
        rw [← hafter]
        rfl
      dsimp only
      rw [hdrop]
      generalize hhost : after.takeWhile _ = host
      have hsplit : after = host ++ after.drop host.length := by
        have hp : host <+: after := by
          rw [← hhost]
          exact List.takeWhile_prefix _
        exact (List.prefix_iff_eq_append.1 hp).symm
      have hm := (Masks.refl mask "://".toList).append (userInfo_masks host)
      have h := (redactPatternsFrom_patched fuel (after.drop host.length)).prepend hm
      rwa [List.append_assoc, ← hsplit, hafter] at h
    · split
      · exact (redactPatternsFrom_patched fuel rest).prepend (.keep c .nil)
      · dsimp only
        generalize hkey : (c :: rest).takeWhile identifier = key
        have hsplit : c :: rest = key ++ (c :: rest).drop key.length := by
          have hp : key <+: c :: rest := by
            rw [← hkey]
            exact List.takeWhile_prefix _
          exact (List.prefix_iff_eq_append.1 hp).symm
        generalize (c :: rest).drop key.length = after at hsplit ⊢
        rw [hsplit]
        split
        · exact (redactPatternsFrom_patched fuel after).prepend (Masks.refl mask key)
        · next hs =>
          split
          · exact (redactPatternsFrom_patched fuel after).prepend (Masks.refl mask key)
          · next between value hkv =>
            obtain ⟨rfl, hne⟩ := keyValue_some hkv
            obtain ⟨quote, value, rfl⟩ := List.exists_cons_of_ne_nil hne
            rw [Bool.not_eq_true, Bool.not_eq_false'] at hs
            by_cases hq : isQuote quote = true
            · have hlen : valueLength key (quote :: value) = 1 + quotedLength quote value := valueLength_of_isQuote hq
              have hdrop : (quote :: value).drop (valueLength key (quote :: value)) =
                  value.drop (quotedLength quote value) := by
                rw [hlen, Nat.add_comm]
                rfl
              rw [hdrop]
              have h := redactPatternsFrom_patched fuel (value.drop (quotedLength quote value))
              have hp := quoted_patched hs hkv hq h fun hnil => by rw [hnil]; cases fuel <;> rfl
              simpa [hq] using hp
            · have hm := (Masks.refl mask key).append ((Masks.refl mask between).append
                (Masks.mask (m := mask) ((quote :: value).take (valueLength key (quote :: value))) .nil))
              have h := redactPatternsFrom_patched fuel ((quote :: value).drop (valueLength key (quote :: value)))
              have hp := h.prepend hm
              simpa [hq, List.take_append_drop] using hp

theorem redactPatterns_patched (line : Text) : Patched line (redactPatterns line) :=
  redactPatternsFrom_patched line.length line

/-! ## What is left of a secret -/

/-- A secret on one line that does not overlap the mask. -/
structure Known (s : Text) : Prop where
  apart : Apart mask s
  oneLine : '\n' ∉ s

/-- The secret begins with a quotation mark. -/
def beginsQuoted (s : Text) : Bool := s.head?.any isQuote

/-- The lines of a text, as the patterns find them. -/
def maskedLines (serde : Serde) (secrets : List Text) (text : Text) : List Text :=
  (splitLines (structuredSpans serde (Redactor.rewrite serde (Redactor.withSecrets secrets).secrets text) text)).map
    (replaceAll (Redactor.withSecrets secrets).secrets)

/-- The secret begins with a quotation mark, and a quoted value that is not closed on its line hides the end of that
line. -/
def Spills (serde : Serde) (secrets : List Text) (s text : Text) : Prop :=
  beginsQuoted s = true ∧ ∃ line ∈ (maskedLines serde secrets text).dropLast, Unclosed line

/-- The patterns bring no secret into a line, and open its end only where they put a closing quote there. -/
theorem Patched.lacks {line out s : Text} (h : Patched line out) (hs : Known s) (hline : ¬ s <:+: line) :
    ¬ s <:+: out ∧ (Shut s line → Shut s out ∨ beginsQuoted s = true ∧ Unclosed line) := by
  rcases h with h | ⟨hunclosed, x, quote, hmem, hq, rfl, h⟩
  · exact ⟨fun hin => hline (h.found hs.apart hin), fun hshut => Or.inl (h.shut hs.apart hshut)⟩
  · refine ⟨fun hin => ?_, fun _ => ?_⟩
    · rw [List.append_assoc] at hin
      rcases hs.apart.infix_or hin with hin | hin
      · exact hline (h.found hs.apart (hin.trans (List.prefix_append x mask).isInfix))
      · obtain ⟨before, after, rfl⟩ := List.append_of_mem hmem
        refine hline (hin.trans ⟨before, after, ?_⟩)
        rw [List.append_assoc, List.singleton_append]
    · by_cases hb : beginsQuoted s = true
      · exact Or.inr ⟨hb, hunclosed⟩
      · left
        apply hs.apart.shut_concat x
        intro hhead
        unfold beginsQuoted at hb
        rw [hhead] at hb
        exact hb hq

theorem mem_withSecrets (hs : s ∈ secrets) (hne : s ≠ []) : s ∈ (Redactor.withSecrets secrets).secrets := by
  unfold Redactor.withSecrets
  rw [List.mem_mergeSort, List.mem_filter]
  refine ⟨hs, ?_⟩
  cases s with
  | nil => exact absurd rfl hne
  | cons c s => rfl

theorem not_infix_line (hs : s ∈ secrets) (h : Known s) (line : Text) :
    ¬ s <:+: redactPatterns (replaceAll secrets line) :=
  ((redactPatterns_patched _).lacks h (not_infix_replaceAll h.apart line hs)).1

theorem not_infix_masked (h : Known s) (newline : Bool) : ¬ s <:+: (Piece.masked newline).text := by
  intro hin
  rcases h.apart.infix_or (x := []) hin with hin | hin
  · exact h.apart.nonempty (List.infix_nil.1 hin)
  · cases newline with
    | false => exact h.apart.nonempty (List.infix_nil.1 hin)
    | true =>
      obtain ⟨c, hc⟩ := List.exists_mem_of_ne_nil s h.apart.nonempty
      obtain rfl := List.mem_singleton.1 (hin.subset hc)
      exact h.oneLine hc

theorem shut_masked (h : Known s) (newline : Bool) : Shut s (Piece.masked newline).text := by
  cases newline with
  | false => exact h.apart.shut []
  | true => exact shut_of_getLast (c := '\n') (by decide) h.oneLine

/-- The loop over the lines: a secret is left only where a line goes over into the next one. -/
theorem spills_of_infix_redactLines (hs : s ∈ secrets) (h : Known s) :
    ∀ (privateKey : Bool) (lines : List Text), (∀ line ∈ lines.dropLast, line.getLast? = some '\n') →
      s <:+: (redactLines secrets privateKey lines).1.flatMap Piece.text →
      beginsQuoted s = true ∧ ∃ line ∈ (lines.map (replaceAll secrets)).dropLast, Unclosed line
  | _, [], _, hin => absurd (List.infix_nil.1 hin) h.apart.nonempty
  | privateKey, [line], _, hin => by
    exfalso
    rw [redactLines] at hin
    split at hin
    · rw [redactLines, List.flatMap_cons, List.flatMap_nil, List.append_nil] at hin
      exact not_infix_masked h _ hin
    · rw [redactLines, List.flatMap_cons, List.flatMap_nil, List.append_nil] at hin
      exact not_infix_line hs h line hin
  | privateKey, line :: next :: lines, hends, hin => by
    have hlast : line.getLast? = some '\n' := hends line List.mem_cons_self
    have hrest : ∀ line ∈ (next :: lines).dropLast, line.getLast? = some '\n' :=
      fun l hl => hends l (List.mem_cons_of_mem line hl)
    have hspill : ∀ privateKey, s <:+: (redactLines secrets privateKey (next :: lines)).1.flatMap Piece.text →
        beginsQuoted s = true ∧ ∃ l ∈ ((line :: next :: lines).map (replaceAll secrets)).dropLast, Unclosed l := by
      intro privateKey hin
      obtain ⟨hb, l, hl, hu⟩ := spills_of_infix_redactLines hs h privateKey (next :: lines) hrest hin
      exact ⟨hb, l, List.mem_cons_of_mem _ hl, hu⟩
    rw [redactLines] at hin
    split at hin
    · rw [List.flatMap_cons] at hin
      rcases (shut_masked h _).infix_or hin with hin | hin
      · exact absurd hin (not_infix_masked h _)
      · exact hspill _ hin
    · rw [List.flatMap_cons] at hin
      have hshut := shut_replaceAll h.apart secrets (shut_of_getLast hlast h.oneLine)
      have hp := (redactPatterns_patched (replaceAll secrets line)).lacks h (not_infix_replaceAll h.apart line hs)
      rcases hp.2 hshut with hshut | ⟨hb, hu⟩
      · rcases hshut.infix_or hin with hin | hin
        · exact absurd hin hp.1
        · exact hspill _ hin
      · exact ⟨hb, _, List.mem_cons_self, hu⟩

/-- A text, or a string of a document, has no secret left but where one spills. -/
theorem spills_of_infix_redactAlone {serde : Serde} {s text : Text} (hs : s ∈ secrets)
    (h : Known s) (hin : s <:+: redactAlone serde secrets text) : Spills serde secrets s text := by
  refine spills_of_infix_redactLines (mem_withSecrets hs h.apart.nonempty) h _ _ ?_ hin
  intro line hl
  obtain ⟨front, b, rfl, hb⟩ := ends_of_mem_dropLast hl
  rw [List.getLast?_concat, beq_iff_eq.1 hb]

/-! ## What this means -/

/-- For every output: no known secret is in what is no JSON document, and none lies within the characters of a string
value of one, but where a secret that begins with a quotation mark spills. -/
theorem knownSecrets_masked (json : Documents) (secrets : List Text) (bytes : List UInt8) {s : Text}
    (hs : s ∈ secrets) (h : Known s) :
    (json.fromSlice bytes = none → s <:+: outputWithSecrets json secrets bytes →
      Spills json.toSerde secrets s (fromUtf8Lossy bytes)) ∧
    ∀ value, json.fromSlice bytes = some value →
      outputWithSecrets json secrets bytes = (json.pretty (redactDocument json.toSerde secrets value)).map Prod.fst ∧
      ∀ before run after, json.pretty (redactDocument json.toSerde secrets value) = before ++ run ++ after →
        run.map Prod.fst = s → (∀ c ∈ run, c.2 = true) →
        ∃ source ∈ value.strings, Spills json.toSerde secrets s source := by
  constructor
  · intro hnone hin
    unfold outputWithSecrets at hin
    rw [hnone] at hin
    exact spills_of_infix_redactAlone hs h hin
  · intro value hvalue
    refine ⟨by unfold outputWithSecrets; rw [hvalue], fun before run after hpretty hrun hmarked => ?_⟩
    have hne : run ≠ [] := by
      rintro rfl
      exact h.apart.nonempty hrun.symm
    obtain ⟨text, htext, hin⟩ := json.pretty_marked _ before run after hpretty hne hmarked
    rw [hrun] at hin
    rcases strings_jsonWithSecrets value text htext with rfl | ⟨source, hsource, rfl⟩
    · exact absurd hin h.apart.notWithin
    · exact ⟨source, hsource, spills_of_infix_redactAlone hs h hin⟩

/-! ## Where secrets are shown -/

def asciiBytes (text : Text) : List UInt8 := text.map fun c => UInt8.ofNat c.toNat

/-- An object with a number. -/
def portDocument : Text := "\x7b\"hunter2\":31337\x7d".toList

/-- A library that knows objects with one number. -/
def oneNumber : Documents where
  toSerde := noJson
  fromSlice bytes :=
    if bytes = asciiBytes portDocument then some (.object [("hunter2".toList, .number "31337".toList)]) else none
  pretty value :=
    (match value with
      | .object [(key, .number literal)] =>
        "\x7b\n  \"".toList ++ key ++ "\": ".toList ++ literal ++ "\n\x7d".toList
      | _ => "null".toList).map fun c => (c, false)
  pretty_marked value before run after h hne hmarked := by
    obtain ⟨c, hc⟩ := List.exists_mem_of_ne_nil run hne
    have hm : c ∈ before ++ run ++ after := List.mem_append_left _ (List.mem_append_right _ hc)
    rw [← h] at hm
    obtain ⟨d, -, rfl⟩ := List.mem_map.1 hm
    exact absurd (hmarked _ hc) Bool.false_ne_true

theorem knownSecrets_masked_login :
    ¬ "hunter2".toList <:+:
      outputWithSecrets oneNumber ["hunter2".toList] (asciiBytes "login hunter2 failed".toList) := by
  intro hin
  have h := (knownSecrets_masked oneNumber ["hunter2".toList] (asciiBytes "login hunter2 failed".toList)
    (List.mem_singleton_self _) ⟨by decide, by decide⟩).1 (by decide) hin
  exact absurd h.1 (by decide)

/-- Secrets that do not overlap the mask are in the output: a key and a number of a document, a secret that goes over
two lines, and one that a closing quote begins. -/
theorem knownSecrets_shown :
    (∀ s ∈ ["hunter2".toList, "31337".toList], Apart mask s ∧
      contains (outputWithSecrets oneNumber ["hunter2".toList, "31337".toList] (asciiBytes portDocument)) s = true) ∧
    (Apart mask "red\nfox".toList ∧ outputWithSecrets oneNumber ["red\nfox".toList] (asciiBytes "a red\nfox".toList) =
      "a red\nfox".toList) ∧
    (Apart mask "\"fox".toList ∧ outputWithSecrets oneNumber ["\"fox".toList] (asciiBytes "token=\"red\nfox".toList) =
      "token=\"[REDACTED]\"fox".toList) := by
  decide +kernel

end CocoaWay.Redaction
