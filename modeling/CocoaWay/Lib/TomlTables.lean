import CocoaWay.Lib.Toml

/-!
# Tables written as TOML

* `shownTable` : a table of an array of tables as a text, one line an entry, with any escaping of the strings;
* `lexFrom_value`, `readValue_solid` and so on : its tokens, and what they are read as;
* `parse_shownTable` : it is read back as it is; `parse_shownTable_none` : it is no document if a character is refused
  or a number is out of range.
-/

namespace CocoaWay.Lib.Toml

/-! ## Shown values -/

section Shown

variable {allowed : Char → Bool} {esc : Char → Text}

def shownScalar (esc : Char → Text) : Scalar → Text
  | .string t => quoted esc t
  | .integer n => Nat.toDigits 10 n
  | .boolean b => if b then "true".toList else "false".toList

def Scalar.token : Scalar → Token
  | .string t => .string t
  | .integer n => .word (Nat.toDigits 10 n)
  | .boolean b => .word (if b then "true".toList else "false".toList)

def Value.scalars : Value → List Scalar
  | .scalar v => [v]
  | .array elements => elements

/-- The elements of an array, with commas and blanks between them. -/
def shownElements (esc : Char → Text) (elements : List Scalar) : Text :=
  [',', ' '].intercalate (elements.map (shownScalar esc))

def elementTokens : List Scalar → List Token
  | [] => []
  | [v] => [v.token]
  | v :: elements => v.token :: .comma :: .blank :: elementTokens elements

def shownValue (esc : Char → Text) : Value → Text
  | .scalar v => shownScalar esc v
  | .array elements => '[' :: shownElements esc elements ++ [']']

def Value.tokens : Value → List Token
  | .scalar v => [v.token]
  | .array elements => .opening :: elementTokens elements ++ [.closing]

def shownEntry (esc : Char → Text) (e : Entry) : Text := e.1 ++ ' ' :: '=' :: ' ' :: (shownValue esc e.2 ++ ['\n'])

def entryTokens (e : Entry) : List Token := .word e.1 :: .blank :: .equals :: .blank :: (e.2.tokens ++ [.newline])

/-- A table of an array of tables. -/
def shownTable (esc : Char → Text) (name : Text) (entries : List Entry) : Text :=
  '[' :: '[' :: (name ++ ']' :: ']' :: '\n' :: entries.flatMap (shownEntry esc))

/-- All characters of the scalar are read. -/
def Scalar.Reads (allowed : Char → Bool) (esc : Char → Text) : Scalar → Prop
  | .string t => ∀ c ∈ t, Toml.Reads allowed esc c
  | .integer _ | .boolean _ => True

/-- A character of the scalar is refused, and none is in doubt. -/
def Scalar.Refused (allowed : Char → Bool) (esc : Char → Text) : Scalar → Prop
  | .string t => (∀ c ∈ t, Toml.Reads allowed esc c ∨ Refuses allowed esc c) ∧ ∃ c ∈ t, Refuses allowed esc c
  | .integer _ | .boolean _ => False

variable {c : Char}

theorem isWordChar_of_isDigit (h : c.isDigit = true) : isWordChar c = true := by
  simp only [Char.isDigit, Bool.and_eq_true, decide_eq_true_eq, UInt32.le_iff_toNat_le] at h
  have hlow : 48 ≤ c.toNat := h.1
  have hhigh : c.toNat ≤ 57 := h.2
  simp [isWordChar, hlow, hhigh]

theorem lexFrom_digits (n : Nat) (hc : isWordChar c = false) (rest : Text) :
    lexFrom allowed .plain (Nat.toDigits 10 n ++ c :: rest) =
      emit [.word (Nat.toDigits 10 n)] (lexFrom allowed .plain (c :: rest)) := by
  refine lexFrom_word Nat.toDigits_ne_nil ?_ hc rest
  intro d hd
  exact isWordChar_of_isDigit (Nat.isDigit_of_mem_toDigits (by decide) (by decide) hd)

theorem lexFrom_scalar {v : Scalar} (h : v.Reads allowed esc) (hc : isWordChar c = false) (hq : c ≠ '"') (rest : Text) :
    lexFrom allowed .plain (shownScalar esc v ++ c :: rest) = emit [v.token] (lexFrom allowed .plain (c :: rest)) := by
  cases v with
  | string t => exact lexFrom_quoted h hq rest
  | integer n => exact lexFrom_digits n hc rest
  | boolean b =>
    have hword : ∀ w : Text, w = ['t', 'r', 'u', 'e'] ∨ w = ['f', 'a', 'l', 's', 'e'] →
        lexFrom allowed .plain (w ++ c :: rest) = emit [.word w] (lexFrom allowed .plain (c :: rest)) := by
      rintro w (rfl | rfl)
      · exact lexFrom_word (by simp) (by simp [isWordChar]) hc rest
      · exact lexFrom_word (by simp) (by simp [isWordChar]) hc rest
    cases b with
    | false => exact hword _ (.inr rfl)
    | true => exact hword _ (.inl rfl)

theorem lexFrom_scalar_none {v : Scalar} (h : v.Refused allowed esc) (rest : Text) :
    lexFrom allowed .plain (shownScalar esc v ++ rest) = none := by
  cases v with
  | string t => exact lexFrom_quoted_none h.1 h.2 rest
  | integer n => cases h
  | boolean b => cases h

theorem shownElements_cons (v w : Scalar) (elements : List Scalar) : shownElements esc (v :: w :: elements) =
    shownScalar esc v ++ ',' :: ' ' :: shownElements esc (w :: elements) := by
  simp [shownElements, List.intercalate]

theorem lexFrom_comma (rest : Text) :
    lexFrom allowed .plain (',' :: ' ' :: rest) = emit [.comma, .blank] (lexFrom allowed .plain rest) := by
  have hcomma : plainStep ',' = some (.plain, [.comma]) := rfl
  have hblank : plainStep ' ' = some (.plain, [.blank]) := rfl
  rw [lexFrom_plain hcomma, lexFrom_plain hblank, emit_emit]
  rfl

theorem lexFrom_elements {elements : List Scalar} (h : ∀ v ∈ elements, v.Reads allowed esc) (rest : Text) :
    lexFrom allowed .plain (shownElements esc elements ++ ']' :: rest) =
      emit (elementTokens elements) (lexFrom allowed .plain (']' :: rest)) := by
  induction elements with
  | nil => exact (emit_nil _).symm
  | cons v elements ih =>
    have hv := h v List.mem_cons_self
    have ih := ih fun w hw => h w (List.mem_cons_of_mem _ hw)
    cases elements with
    | nil =>
      have hone : shownElements esc [v] = shownScalar esc v := by simp [shownElements, List.intercalate]
      rw [hone, lexFrom_scalar hv (by decide) (by decide)]
      rfl
    | cons w elements =>
      rw [shownElements_cons, List.append_assoc, List.cons_append, List.cons_append,
        lexFrom_scalar hv (by decide) (by decide), lexFrom_comma, ih, emit_emit, emit_emit]
      rfl

theorem lexFrom_elements_none {elements : List Scalar}
    (h : ∀ v ∈ elements, v.Reads allowed esc ∨ v.Refused allowed esc) (hrefused : ∃ v ∈ elements, v.Refused allowed esc)
    (rest : Text) : lexFrom allowed .plain (shownElements esc elements ++ rest) = none := by
  induction elements with
  | nil =>
    obtain ⟨v, hv, -⟩ := hrefused
    cases hv
  | cons v elements ih =>
    cases elements with
    | nil =>
      have hone : shownElements esc [v] = shownScalar esc v := by simp [shownElements, List.intercalate]
      obtain ⟨w, hw, hr⟩ := hrefused
      obtain rfl := List.mem_singleton.1 hw
      rw [hone, lexFrom_scalar_none hr]
    | cons w elements =>
      rw [shownElements_cons, List.append_assoc, List.cons_append, List.cons_append]
      by_cases hv : v.Refused allowed esc
      · exact lexFrom_scalar_none hv _
      · have hread := (h v List.mem_cons_self).resolve_right hv
        have hrest : ∃ x ∈ w :: elements, x.Refused allowed esc := by
          obtain ⟨x, hx, hr⟩ := hrefused
          rcases List.mem_cons.1 hx with rfl | hx
          · exact absurd hr hv
          · exact ⟨x, hx, hr⟩
        rw [lexFrom_scalar hread (by decide) (by decide), lexFrom_comma,
          ih (fun x hx => h x (List.mem_cons_of_mem _ hx)) hrest, emit_none, emit_none]

theorem lexFrom_value {v : Value} (h : ∀ x ∈ v.scalars, x.Reads allowed esc) (rest : Text) :
    lexFrom allowed .plain (shownValue esc v ++ '\n' :: rest) =
      emit v.tokens (lexFrom allowed .plain ('\n' :: rest)) := by
  cases v with
  | scalar v => exact lexFrom_scalar (h v List.mem_cons_self) (by decide) (by decide) rest
  | array elements =>
    have hopen : plainStep '[' = some (.plain, [.opening]) := rfl
    have hclose : plainStep ']' = some (.plain, [.closing]) := rfl
    show lexFrom allowed .plain (('[' :: shownElements esc elements ++ [']']) ++ '\n' :: rest) = _
    have h : ∀ x ∈ elements, x.Reads allowed esc := h
    rw [List.append_assoc, List.cons_append, lexFrom_plain hopen, List.singleton_append, lexFrom_elements h,
      lexFrom_plain hclose, emit_emit, emit_emit]
    rfl

theorem lexFrom_value_none {v : Value} (h : ∀ x ∈ v.scalars, x.Reads allowed esc ∨ x.Refused allowed esc)
    (hrefused : ∃ x ∈ v.scalars, x.Refused allowed esc) (rest : Text) :
    lexFrom allowed .plain (shownValue esc v ++ rest) = none := by
  cases v with
  | scalar v =>
    obtain ⟨x, hx, hr⟩ := hrefused
    obtain rfl := List.mem_singleton.1 hx
    exact lexFrom_scalar_none hr rest
  | array elements =>
    have hopen : plainStep '[' = some (.plain, [.opening]) := rfl
    show lexFrom allowed .plain (('[' :: shownElements esc elements ++ [']']) ++ rest) = _
    have h : ∀ x ∈ elements, x.Reads allowed esc ∨ x.Refused allowed esc := h
    rw [List.append_assoc, List.cons_append, lexFrom_plain hopen, lexFrom_elements_none h hrefused, emit_none]

theorem isBare_chars {key : Text} (h : isBare key = true) : key ≠ [] ∧ ∀ c ∈ key, isWordChar c = true := by
  simp only [isBare, Bool.and_eq_true, List.all_eq_true] at h
  exact ⟨by simpa using h.1, fun c hc => (h.2 c hc).1⟩

theorem lexFrom_key {key : Text} (h : isBare key = true) (rest : Text) :
    lexFrom allowed .plain (key ++ ' ' :: '=' :: ' ' :: rest) =
      emit [.word key, .blank, .equals, .blank] (lexFrom allowed .plain rest) := by
  obtain ⟨hne, hchars⟩ := isBare_chars h
  have hblank : plainStep ' ' = some (.plain, [.blank]) := rfl
  have hequals : plainStep '=' = some (.plain, [.equals]) := rfl
  rw [lexFrom_word hne hchars (by decide), lexFrom_plain hblank, lexFrom_plain hequals, lexFrom_plain hblank, emit_emit,
    emit_emit, emit_emit]
  rfl

theorem lexFrom_entry {e : Entry} (hkey : isBare e.1 = true) (h : ∀ x ∈ e.2.scalars, x.Reads allowed esc)
    (rest : Text) :
    lexFrom allowed .plain (shownEntry esc e ++ rest) = emit (entryTokens e) (lexFrom allowed .plain rest) := by
  have hfeed : plainStep '\n' = some (.plain, [.newline]) := rfl
  have happend : shownEntry esc e ++ rest = e.1 ++ ' ' :: '=' :: ' ' :: (shownValue esc e.2 ++ '\n' :: rest) := by
    simp [shownEntry]
  rw [happend, lexFrom_key hkey, lexFrom_value h, lexFrom_plain hfeed, emit_emit, emit_emit]
  rfl

theorem lexFrom_entry_none {e : Entry} (hkey : isBare e.1 = true)
    (h : ∀ x ∈ e.2.scalars, x.Reads allowed esc ∨ x.Refused allowed esc)
    (hrefused : ∃ x ∈ e.2.scalars, x.Refused allowed esc) (rest : Text) :
    lexFrom allowed .plain (shownEntry esc e ++ rest) = none := by
  have happend : shownEntry esc e ++ rest = e.1 ++ ' ' :: '=' :: ' ' :: (shownValue esc e.2 ++ '\n' :: rest) := by
    simp [shownEntry]
  rw [happend, lexFrom_key hkey, lexFrom_value_none h hrefused, emit_none]

theorem lexFrom_entries {entries : List Entry} (hkeys : ∀ e ∈ entries, isBare e.1 = true)
    (h : ∀ e ∈ entries, ∀ x ∈ e.2.scalars, x.Reads allowed esc) :
    lexFrom allowed .plain (entries.flatMap (shownEntry esc)) = some (.plain, entries.flatMap entryTokens) := by
  induction entries with
  | nil => rfl
  | cons e entries ih =>
    rw [List.flatMap_cons, lexFrom_entry (hkeys e List.mem_cons_self) (h e List.mem_cons_self),
      ih (fun e he => hkeys e (List.mem_cons_of_mem _ he)) fun e he => h e (List.mem_cons_of_mem _ he)]
    rfl

theorem lexFrom_entries_none {entries : List Entry} (hkeys : ∀ e ∈ entries, isBare e.1 = true)
    (h : ∀ e ∈ entries, ∀ x ∈ e.2.scalars, x.Reads allowed esc ∨ x.Refused allowed esc)
    (hrefused : ∃ e ∈ entries, ∃ x ∈ e.2.scalars, x.Refused allowed esc) :
    lexFrom allowed .plain (entries.flatMap (shownEntry esc)) = none := by
  induction entries with
  | nil =>
    obtain ⟨e, he, -⟩ := hrefused
    cases he
  | cons e entries ih =>
    rw [List.flatMap_cons]
    by_cases he : ∃ x ∈ e.2.scalars, x.Refused allowed esc
    · exact lexFrom_entry_none (hkeys e List.mem_cons_self) (h e List.mem_cons_self) he _
    · have hread : ∀ x ∈ e.2.scalars, x.Reads allowed esc := by
        intro x hx
        refine (h e List.mem_cons_self x hx).resolve_right ?_
        intro hr
        exact he ⟨x, hx, hr⟩
      have hrest : ∃ e ∈ entries, ∃ x ∈ e.2.scalars, x.Refused allowed esc := by
        obtain ⟨e', he', hr⟩ := hrefused
        rcases List.mem_cons.1 he' with rfl | he'
        · exact absurd hr he
        · exact ⟨e', he', hr⟩
      rw [lexFrom_entry (hkeys e List.mem_cons_self) hread,
        ih (fun e he => hkeys e (List.mem_cons_of_mem _ he)) (fun e he => h e (List.mem_cons_of_mem _ he)) hrest,
          emit_none]

/-- The tokens of a header. -/
def headerTokens (name : Text) : List Token := [.opening, .opening, .word name, .closing, .closing, .newline]

theorem lexFrom_header {name : Text} (hname : isBare name = true) (rest : Text) :
    lexFrom allowed .plain ('[' :: '[' :: (name ++ ']' :: ']' :: '\n' :: rest)) =
      emit (headerTokens name) (lexFrom allowed .plain rest) := by
  obtain ⟨hne, hchars⟩ := isBare_chars hname
  have hopen : plainStep '[' = some (.plain, [.opening]) := rfl
  have hclose : plainStep ']' = some (.plain, [.closing]) := rfl
  have hfeed : plainStep '\n' = some (.plain, [.newline]) := rfl
  rw [lexFrom_plain hopen, lexFrom_plain hopen, lexFrom_word hne hchars (by decide), lexFrom_plain hclose,
    lexFrom_plain hclose, lexFrom_plain hfeed, emit_emit, emit_emit, emit_emit, emit_emit, emit_emit]
  rfl

end Shown

/-! ## Reading shown tables -/

section ReadShown

variable {allowed : Char → Bool} {esc : Char → Text} {limit : Nat}

/-- The scalar is not out of range. -/
def Scalar.Fits (limit : Nat) : Scalar → Prop
  | .integer n => n < limit
  | .string _ | .boolean _ => True

theorem head_toDigits {n : Nat} (h : n ≠ 0) : (Nat.toDigits 10 n).head? ≠ some '0' := by
  induction n using Nat.strongRecOn with
  | ind n ih =>
    by_cases hlt : n < 10
    · rw [Nat.toDigits_of_lt_base hlt]
      simpa using h
    · rw [Nat.toDigits_of_base_le (by decide) (by omega), List.head?_append_of_ne_nil _ Nat.toDigits_ne_nil]
      exact ih (n / 10) (by omega) (by omega)

/-- The digits of a number are read as the number, below the limit. -/
theorem readWord_digits (n : Nat) :
    readWord limit (Nat.toDigits 10 n) = if n < limit then some (.integer n) else none := by
  have hdigits : ∀ c ∈ Nat.toDigits 10 n, c.isDigit = true := fun c hc =>
    Nat.isDigit_of_mem_toDigits (by decide) (by decide) hc
  have hword : ∀ (c : Char) (w : Text), c.isDigit = false → Nat.toDigits 10 n ≠ c :: w := by
    intro c w hno h
    have hc := hdigits c (h ▸ List.mem_cons_self)
    rw [hno] at hc
    cases hc
  have hall : (Nat.toDigits 10 n).all Char.isDigit = true := List.all_eq_true.2 hdigits
  have hlead : ((Nat.toDigits 10 n).length = 1 || (Nat.toDigits 10 n).head? ≠ some '0') = true := by
    by_cases h0 : n = 0
    · subst h0
      rfl
    · simp [head_toDigits h0]
  unfold readWord
  have htrue : Nat.toDigits 10 n ≠ "true".toList := hword 't' ['r', 'u', 'e'] rfl
  have hfalse : Nat.toDigits 10 n ≠ "false".toList := hword 'f' ['a', 'l', 's', 'e'] rfl
  rw [if_neg htrue, if_neg hfalse, hall, hlead, Nat.ofDigitChars_ten_toDigits]
  simp

theorem readScalar_token (v : Scalar) [Decidable (v.Fits limit)] :
    readScalar limit v.token = if v.Fits limit then some v else none := by
  cases v with
  | string t => exact (if_pos trivial).symm
  | integer n =>
    show readWord limit (Nat.toDigits 10 n) = _
    rw [readWord_digits]
    exact if_congr Iff.rfl rfl rfl
  | boolean b => cases b <;> exact (if_pos trivial).symm

theorem readScalar_of_fits {v : Scalar} (h : v.Fits limit) : readScalar limit v.token = some v := by
  classical
  rw [readScalar_token, if_pos h]

theorem readScalar_of_not_fits {v : Scalar} (h : ¬ v.Fits limit) : readScalar limit v.token = none := by
  classical
  rw [readScalar_token, if_neg h]

/-- The tokens of an array without the blanks. -/
def solidTokens : List Scalar → List Token
  | [] => []
  | [v] => [v.token]
  | v :: elements => v.token :: .comma :: solidTokens elements

theorem token_solid (v : Scalar) : v.token.solid = true := by
  cases v <;> rfl

theorem filter_elementTokens : ∀ elements : List Scalar,
    (elementTokens elements).filter Token.solid = solidTokens elements
  | [] => rfl
  | [v] => List.filter_cons_of_pos (token_solid v)
  | v :: w :: elements => by
    have ih := filter_elementTokens (w :: elements)
    show List.filter _ (v.token :: .comma :: .blank :: elementTokens (w :: elements)) = _
    rw [List.filter_cons_of_pos (token_solid v), List.filter_cons_of_pos rfl, List.filter_cons_of_neg (by decide), ih]
    rfl

theorem readElements_one (v : Scalar) :
    readElements limit [v.token, .closing] = (readScalar limit v.token).map fun v => [v] := by
  cases v <;> rfl

theorem readElements_more (v : Scalar) (rest : List Token) : readElements limit (v.token :: .comma :: rest) =
    (readScalar limit v.token).bind fun v => (readElements limit rest).map (v :: ·) := by
  cases v <;> rw [Scalar.token, readElements]

theorem readElements_solid : ∀ elements : List Scalar, (∀ v ∈ elements, v.Fits limit) →
    readElements limit (solidTokens elements ++ [.closing]) = some elements
  | [], _ => rfl
  | [v], h => by
    have hv := readScalar_of_fits (h v List.mem_cons_self)
    show readElements limit [v.token, .closing] = _
    rw [readElements_one, hv]
    rfl
  | v :: w :: elements, h => by
    have hv := readScalar_of_fits (h v List.mem_cons_self)
    have ih := readElements_solid (w :: elements) fun x hx => h x (List.mem_cons_of_mem _ hx)
    show readElements limit (v.token :: .comma :: (solidTokens (w :: elements) ++ [.closing])) = _
    rw [readElements_more, hv, ih]
    rfl

theorem readElements_solid_none : ∀ elements : List Scalar, (∃ v ∈ elements, ¬ v.Fits limit) →
    readElements limit (solidTokens elements ++ [.closing]) = none
  | [], h => by
    obtain ⟨v, hv, -⟩ := h
    cases hv
  | [v], h => by
    obtain ⟨w, hw, hno⟩ := h
    obtain rfl := List.mem_singleton.1 hw
    show readElements limit [w.token, .closing] = _
    rw [readElements_one, readScalar_of_not_fits hno]
    rfl
  | v :: w :: elements, h => by
    show readElements limit (v.token :: .comma :: (solidTokens (w :: elements) ++ [.closing])) = _
    rw [readElements_more]
    by_cases hv : v.Fits limit
    · have hrest : ∃ x ∈ w :: elements, ¬ x.Fits limit := by
        obtain ⟨x, hx, hno⟩ := h
        rcases List.mem_cons.1 hx with rfl | hx
        · exact absurd hv hno
        · exact ⟨x, hx, hno⟩
      rw [readScalar_of_fits hv, readElements_solid_none (w :: elements) hrest]
      rfl
    · rw [readScalar_of_not_fits hv]
      rfl

/-- The tokens of a value, without the blanks. -/
def Value.solidTokens : Value → List Token
  | .scalar v => [v.token]
  | .array elements => .opening :: (Toml.solidTokens elements ++ [.closing])

theorem readValue_array (elements : List Scalar) : readValue limit (Value.array elements).solidTokens =
    (readElements limit (Toml.solidTokens elements ++ [.closing])).map .array := by
  show readValue limit (.opening :: (Toml.solidTokens elements ++ [.closing])) = _
  cases hrest : Toml.solidTokens elements ++ [Token.closing] with
  | nil => simp at hrest
  | cons t rest => rfl

theorem readValue_solid {v : Value} (h : ∀ x ∈ v.scalars, x.Fits limit) : readValue limit v.solidTokens = some v := by
  cases v with
  | scalar v =>
    show (readScalar limit v.token).map Value.scalar = _
    rw [readScalar_of_fits (h v List.mem_cons_self)]
    rfl
  | array elements =>
    rw [readValue_array, readElements_solid elements h]
    rfl

theorem readValue_solid_none {v : Value} (h : ∃ x ∈ v.scalars, ¬ x.Fits limit) :
    readValue limit v.solidTokens = none := by
  cases v with
  | scalar v =>
    obtain ⟨x, hx, hno⟩ := h
    obtain rfl := List.mem_singleton.1 hx
    show (readScalar limit x.token).map Value.scalar = _
    rw [readScalar_of_not_fits hno]
    rfl
  | array elements =>
    rw [readValue_array, readElements_solid_none elements h]
    rfl

theorem filter_entryTokens (e : Entry) :
    (entryTokens e).filter Token.solid = .word e.1 :: .equals :: e.2.solidTokens := by
  have hvalue : e.2.tokens.filter Token.solid = e.2.solidTokens := by
    cases e.2 with
    | scalar v => exact List.filter_cons_of_pos (token_solid v)
    | array elements =>
      show List.filter _ (.opening :: (elementTokens elements ++ [.closing])) = _
      rw [List.filter_cons_of_pos rfl, List.filter_append, filter_elementTokens]
      rfl
  show List.filter _ (.word e.1 :: .blank :: .equals :: .blank :: (e.2.tokens ++ [.newline])) = _
  rw [List.filter_cons_of_pos rfl, List.filter_cons_of_neg (by decide), List.filter_cons_of_pos rfl,
    List.filter_cons_of_neg (by decide), List.filter_append, hvalue, List.filter_cons_of_neg (by decide),
    List.filter_nil, List.append_nil]

/-- The line of an entry is read by its value. -/
theorem readLine_entry {e : Entry} (hkey : isBare e.1 = true) :
    readLine limit (entryTokens e) = (readValue limit e.2.solidTokens).map (.entry e.1) := by
  unfold readLine
  rw [filter_entryTokens]
  show (if isBare e.1 = true then (readValue limit e.2.solidTokens).map (Line.entry e.1) else none) = _
  rw [if_pos hkey]

variable {name : Text} {entries : List Entry}

theorem readLine_header (hname : isBare name = true) : readLine limit (headerTokens name) = some (.header name) := by
  show (if isBare name = true then some (Line.header name) else none) = _
  rw [if_pos hname]

/-- No token of an entry is a line feed, but the last. -/
theorem entryTokens_front (e : Entry) : ∃ front, entryTokens e = front ++ [.newline] ∧
    ∀ t ∈ front, decide (t = Token.newline) = false := by
  have hscalar : ∀ v : Scalar, decide (v.token = Token.newline) = false := by
    intro v
    cases v <;> rfl
  have helements : ∀ elements : List Scalar, ∀ t ∈ elementTokens elements, decide (t = Token.newline) = false := by
    intro elements
    induction elements with
    | nil =>
      intro t ht
      cases ht
    | cons v elements ih =>
      intro t ht
      cases elements with
      | nil =>
        obtain rfl := List.mem_singleton.1 ht
        exact hscalar v
      | cons w elements =>
        rcases List.mem_cons.1 ht with rfl | ht
        · exact hscalar v
        · rcases List.mem_cons.1 ht with rfl | ht
          · rfl
          · rcases List.mem_cons.1 ht with rfl | ht
            · rfl
            · exact ih t ht
  have hvalue : ∀ t ∈ e.2.tokens, decide (t = Token.newline) = false := by
    intro t ht
    cases hv : e.2 with
    | scalar v =>
      rw [hv] at ht
      obtain rfl := List.mem_singleton.1 ht
      exact hscalar v
    | array elements =>
      rw [hv] at ht
      rcases List.mem_append.1 ht with ht | ht
      · rcases List.mem_cons.1 ht with rfl | ht
        · rfl
        · exact helements elements t ht
      · obtain rfl := List.mem_singleton.1 ht
        rfl
  refine ⟨.word e.1 :: .blank :: .equals :: .blank :: e.2.tokens, rfl, ?_⟩
  intro t ht
  simp only [List.mem_cons] at ht
  rcases ht with rfl | rfl | rfl | rfl | ht
  · rfl
  · rfl
  · rfl
  · rfl
  · exact hvalue t ht

theorem splitAfter_entries : ∀ entries : List Entry,
    splitAfter (· = Token.newline) (entries.flatMap entryTokens) = entries.map entryTokens
  | [] => rfl
  | e :: entries => by
    obtain ⟨front, hfront, hnone⟩ := entryTokens_front e
    rw [List.flatMap_cons, hfront, List.append_assoc, List.singleton_append, splitAfter_line hnone (by rfl),
      splitAfter_entries entries, List.map_cons, hfront]

/-- Entries with new keys are added to the last table. -/
theorem foldlM_entries {root : List Entry} {tables : List (Text × List Entry)} {before entries : List Entry}
    (hkeys : ∀ e ∈ entries, isBare e.1 = true) (hfits : ∀ e ∈ entries, ∀ x ∈ e.2.scalars, x.Fits limit)
    (hnodup : ((before ++ entries).map Prod.fst).Nodup) :
    (entries.map entryTokens).foldlM (fun d line => (readLine limit line).bind (addLine d))
      (⟨root, tables ++ [(name, before)]⟩ : Document) = some ⟨root, tables ++ [(name, before ++ entries)]⟩ := by
  induction entries generalizing before with
  | nil => simp
  | cons e entries ih =>
    have hsplit : before ++ e :: entries = (before ++ [e]) ++ entries := by simp
    have hfresh : e.1 ∉ before.map Prod.fst := by
      rw [List.map_append, List.nodup_append] at hnodup
      intro hmem
      exact hnodup.2.2 _ hmem _ (List.mem_map_of_mem List.mem_cons_self) rfl
    have hread : readLine limit (entryTokens e) = some (.entry e.1 e.2) := by
      rw [readLine_entry (hkeys e List.mem_cons_self), readValue_solid (hfits e List.mem_cons_self)]
      rfl
    have hadd : addEntry ⟨root, tables ++ [(name, before)]⟩ e = some ⟨root, tables ++ [(name, before ++ [e])]⟩ := by
      unfold addEntry
      simp only [List.reverse_append, List.reverse_cons, List.reverse_nil, List.nil_append, List.singleton_append]
      rw [if_neg hfresh, List.reverse_reverse]
    rw [List.map_cons, List.foldlM_cons, hread]
    show (addEntry _ e).bind _ = _
    rw [hadd]
    show (entries.map entryTokens).foldlM _ _ = _
    rw [ih (fun e he => hkeys e (List.mem_cons_of_mem _ he)) (fun e he => hfits e (List.mem_cons_of_mem _ he))
      (hsplit ▸ hnodup), hsplit]

/-- A line that is not read makes the document none. -/
theorem foldlM_entries_none {d : Document} (hkeys : ∀ e ∈ entries, isBare e.1 = true)
    (hunfit : ∃ e ∈ entries, ∃ x ∈ e.2.scalars, ¬ x.Fits limit) :
    (entries.map entryTokens).foldlM (fun d line => (readLine limit line).bind (addLine d)) d = none := by
  induction entries generalizing d with
  | nil =>
    obtain ⟨e, he, -⟩ := hunfit
    cases he
  | cons e entries ih =>
    rw [List.map_cons, List.foldlM_cons, readLine_entry (hkeys e List.mem_cons_self)]
    by_cases he : ∃ x ∈ e.2.scalars, ¬ x.Fits limit
    · rw [readValue_solid_none he]
      rfl
    · have hrest : ∃ e ∈ entries, ∃ x ∈ e.2.scalars, ¬ x.Fits limit := by
        obtain ⟨e', he', hx⟩ := hunfit
        rcases List.mem_cons.1 he' with rfl | he'
        · exact absurd hx he
        · exact ⟨e', he', hx⟩
      cases ((readValue limit e.2.solidTokens).map (Line.entry e.1)).bind (addLine d) with
      | none => rfl
      | some d' => exact ih (fun e he => hkeys e (List.mem_cons_of_mem _ he)) hrest

theorem lex_shownTable (hname : isBare name = true)
    (hkeys : ∀ e ∈ entries, isBare e.1 = true) (h : ∀ e ∈ entries, ∀ x ∈ e.2.scalars, x.Reads allowed esc) :
    lex allowed (shownTable esc name entries) = some (headerTokens name ++ entries.flatMap entryTokens) := by
  unfold lex shownTable
  rw [lexFrom_header hname, lexFrom_entries hkeys h]
  show some (headerTokens name ++ entries.flatMap entryTokens ++ []) = _
  rw [List.append_nil]

theorem splitAfter_table (name : Text) (entries : List Entry) :
    splitAfter (· = Token.newline) (headerTokens name ++ entries.flatMap entryTokens) =
      headerTokens name :: entries.map entryTokens := by
  have hfront : ∀ t ∈ [Token.opening, .opening, .word name, .closing, .closing], decide (t = Token.newline) =
    false := by
    simp
  show splitAfter _ ([Token.opening, .opening, .word name, .closing, .closing] ++
    .newline :: entries.flatMap entryTokens) = _
  rw [splitAfter_line hfront (by rfl), splitAfter_entries]
  rfl

theorem parse_shownTable (hname : isBare name = true)
    (hkeys : ∀ e ∈ entries, isBare e.1 = true) (hnodup : (entries.map Prod.fst).Nodup)
    (h : ∀ e ∈ entries, ∀ x ∈ e.2.scalars, x.Reads allowed esc ∧ x.Fits limit) :
    parse allowed limit (shownTable esc name entries) = some ⟨[], [(name, entries)]⟩ := by
  unfold parse
  rw [lex_shownTable hname hkeys fun e he x hx => (h e he x hx).1, Option.bind_some, splitAfter_table, List.foldlM_cons,
    readLine_header hname]
  show (entries.map entryTokens).foldlM _ (⟨[], [] ++ [(name, [])]⟩ : Document) = _
  rw [foldlM_entries hkeys (fun e he x hx => (h e he x hx).2) (by simpa using hnodup)]
  rfl

/-- A shown table with a character that is refused, or a number out of range, is no document. -/
theorem parse_shownTable_none (hname : isBare name = true) (hkeys : ∀ e ∈ entries, isBare e.1 = true)
    (hdoubt : ∀ e ∈ entries, ∀ x ∈ e.2.scalars, x.Reads allowed esc ∨ x.Refused allowed esc)
    (h : ∃ e ∈ entries, ∃ x ∈ e.2.scalars, ¬ (x.Reads allowed esc ∧ x.Fits limit)) :
    parse allowed limit (shownTable esc name entries) = none := by
  unfold parse
  by_cases hrefused : ∃ e ∈ entries, ∃ x ∈ e.2.scalars, x.Refused allowed esc
  · unfold lex shownTable
    rw [lexFrom_header hname, lexFrom_entries_none hkeys hdoubt hrefused]
    rfl
  · have hread : ∀ e ∈ entries, ∀ x ∈ e.2.scalars, x.Reads allowed esc := by
      intro e he x hx
      refine (hdoubt e he x hx).resolve_right ?_
      intro hr
      exact hrefused ⟨e, he, x, hx, hr⟩
    have hunfit : ∃ e ∈ entries, ∃ x ∈ e.2.scalars, ¬ x.Fits limit := by
      obtain ⟨e, he, x, hx, hno⟩ := h
      exact ⟨e, he, x, hx, fun hf => hno ⟨hread e he x hx, hf⟩⟩
    rw [lex_shownTable hname hkeys hread, Option.bind_some, splitAfter_table, List.foldlM_cons, readLine_header hname]
    exact foldlM_entries_none hkeys hunfit

theorem exists_fits (scalars : List Scalar) : ∃ limit, ∀ x ∈ scalars, x.Fits limit := by
  induction scalars with
  | nil => exact ⟨0, nofun⟩
  | cons x scalars ih =>
    obtain ⟨limit, h⟩ := ih
    have hmono : ∀ {y : Scalar} {n m : Nat}, y.Fits n → n ≤ m → y.Fits m := by
      intro y n m hy hle
      cases y with
      | integer k => exact Nat.lt_of_lt_of_le hy hle
      | string t => trivial
      | boolean b => trivial
    have hx : ∃ n, x.Fits n := by
      cases x with
      | integer k => exact ⟨k + 1, Nat.lt_succ_self k⟩
      | string t => exact ⟨0, trivial⟩
      | boolean b => exact ⟨0, trivial⟩
    obtain ⟨n, hn⟩ := hx
    refine ⟨max n limit, ?_⟩
    intro y hy
    rcases List.mem_cons.1 hy with rfl | hy
    · exact hmono hn (Nat.le_max_left _ _)
    · exact hmono (h y hy) (Nat.le_max_right _ _)

/-- Tables shown with an escape that can be read back are told apart, also where the text is no document. -/
theorem shownTable_inj (hread : ∀ c, Toml.Reads (fun _ => true) esc c) {entries entries' : List Entry}
    (hname : isBare name = true) (hkeys : ∀ e ∈ entries ++ entries', isBare e.1 = true)
    (hnodup : (entries.map Prod.fst).Nodup) (hnodup' : (entries'.map Prod.fst).Nodup)
    (h : shownTable esc name entries = shownTable esc name entries') : entries = entries' := by
  obtain ⟨limit, hfits⟩ := exists_fits ((entries ++ entries').flatMap fun e => e.2.scalars)
  have hreads : ∀ x : Scalar, x.Reads (fun _ => true) esc := by
    intro x
    cases x with
    | string t => exact fun c _ => hread c
    | integer n => trivial
    | boolean b => trivial
  have hparse : ∀ l, (∀ e ∈ l, e ∈ entries ++ entries') → (l.map Prod.fst).Nodup →
      parse (fun _ => true) limit (shownTable esc name l) = some ⟨[], [(name, l)]⟩ := by
    intro l hl hl'
    refine parse_shownTable hname (fun e he => hkeys e (hl e he)) hl' ?_
    intro e he x hx
    exact ⟨hreads x, hfits x (List.mem_flatMap.2 ⟨e, hl e he, hx⟩)⟩
  have hleft := hparse entries (fun e he => List.mem_append_left _ he) hnodup
  rw [h, hparse entries' (fun e he => List.mem_append_right _ he) hnodup'] at hleft
  simpa using hleft.symm

end ReadShown

end CocoaWay.Lib.Toml
