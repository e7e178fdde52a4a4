import CocoaWay.Lib.Lines

/-!
# Reading TOML

* `step`, `lex` : the tokens of a text, character by character; what may stand in a basic string unescaped is a
  parameter;
* `parse` : documents of key and value lines and arrays of tables, with bare keys, basic strings, nonnegative decimal
  integers, booleans and arrays of these;
* `lexFrom_word`, `lexFrom_quoted` : words and quoted strings are tokens, with any escaping that is read back;
* `lexFrom_quoted_none` : a string with a character that is refused is none.

What begins with a quotation mark is read by the grammar of TOML in full; multi-line strings are refused. Dotted and
quoted keys, literal strings, other numbers, dates, inline tables, plain tables and nested arrays are left out.
-/

namespace CocoaWay.Lib.Toml

abbrev Text := List Char

local instance : LawfulBEq Text := inferInstance

/-! ## Values -/

inductive Scalar
  | string (text : Text)
  | integer (n : Nat)
  | boolean (b : Bool)
  deriving DecidableEq

inductive Value
  | scalar (v : Scalar)
  | array (elements : List Scalar)
  deriving DecidableEq

abbrev Entry := Text × Value

/-- The entries before the first header, and the tables of the arrays of tables. -/
structure Document where
  root : List Entry
  tables : List (Text × List Entry)

/-! ## Tokens -/

inductive Token
  | string (text : Text)
  | word (text : Text)
  | equals
  | opening
  | closing
  | comma
  | blank
  | newline
  deriving DecidableEq

/-- Where the lexer is; texts so far are reversed. -/
inductive Mode
  | plain
  /-- Behind `""`, where a third quotation mark would begin a multi-line string. -/
  | emptied
  | carriage
  | comment
  | word (text : Text)
  | string (text : Text)
  | escape (text : Text)
  /-- In a Unicode escape, with the digits that are left and the value so far. -/
  | unicode (text : Text) (left value : Nat)

def isWordChar (c : Char) : Bool :=
  (48 ≤ c.toNat && c.toNat ≤ 57) || (65 ≤ c.toNat && c.toNat ≤ 90) || (97 ≤ c.toNat && c.toNat ≤ 122) ||
    c ∈ ['-', '_', '+', '.', ':']

/-- `basic-unescaped`. -/
def isUnescaped (c : Char) : Bool :=
  c = '\t' || (0x20 ≤ c.toNat && c ≠ '"' && c ≠ '\\' && c.toNat ≠ 0x7F)

/-- What may stand in a comment. -/
def isCommentChar (c : Char) : Bool := c = '\t' || (0x20 ≤ c.toNat && c.toNat ≠ 0x7F)

def unescape : Char → Option Char
  | 'b' => some (Char.ofNat 8)
  | 't' => some '\t'
  | 'n' => some '\n'
  | 'f' => some (Char.ofNat 12)
  | 'r' => some '\r'
  | '"' => some '"'
  | '\\' => some '\\'
  | _ => none

def hexDigitValue (c : Char) : Option Nat :=
  if 48 ≤ c.toNat ∧ c.toNat ≤ 57 then some (c.toNat - 48)
  else if 65 ≤ c.toNat ∧ c.toNat ≤ 70 then some (c.toNat - 55)
  else if 97 ≤ c.toNat ∧ c.toNat ≤ 102 then some (c.toNat - 87)
  else none

/-- A character between tokens. -/
def plainStep (c : Char) : Option (Mode × List Token) :=
  if c = '"' then some (.string [], [])
  else if c = ' ' ∨ c = '\t' then some (.plain, [.blank])
  else if c = '\n' then some (.plain, [.newline])
  else if c = '\r' then some (.carriage, [])
  else if c = '=' then some (.plain, [.equals])
  else if c = '[' then some (.plain, [.opening])
  else if c = ']' then some (.plain, [.closing])
  else if c = ',' then some (.plain, [.comma])
  else if c = '#' then some (.comment, [])
  else if isWordChar c then some (.word [c], [])
  else none

section Lexer

-- the characters that may stand in a string as they are
variable (allowed : Char → Bool)

def step : Mode → Char → Option (Mode × List Token)
  | .plain, c => plainStep c
  | .emptied, c => if c = '"' then none else plainStep c
  | .carriage, c => if c = '\n' then some (.plain, [.newline]) else none
  | .comment, c =>
    if c = '\n' then some (.plain, [.newline])
    else if c = '\r' then some (.carriage, [])
    else if isCommentChar c then some (.comment, []) else none
  | .word w, c =>
    if isWordChar c then some (.word (c :: w), [])
    else (plainStep c).map fun r => (r.1, .word w.reverse :: r.2)
  | .string t, c =>
    if c = '"' then some (if t = [] then .emptied else .plain, [.string t.reverse])
    else if c = '\\' then some (.escape t, [])
    else if allowed c then some (.string (c :: t), []) else none
  | .escape t, c =>
    match unescape c with
    | some d => some (.string (d :: t), [])
    | none => if c = 'u' then some (.unicode t 4 0, []) else if c = 'U' then some (.unicode t 8 0, []) else none
  | .unicode t left value, c =>
    (hexDigitValue c).bind fun d =>
      let value := 16 * value + d
      if left ≤ 1 then if value.isValidChar then some (.string (Char.ofNat value :: t), []) else none
      else some (.unicode t (left - 1) value, [])

/-- Tokens in front of a result. -/
def emit (tokens : List Token) (r : Option (Mode × List Token)) : Option (Mode × List Token) :=
  r.map fun r => (r.1, tokens ++ r.2)

def lexFrom : Mode → Text → Option (Mode × List Token)
  | m, [] => some (m, [])
  | m, c :: text => (step allowed m c).bind fun r => emit r.2 (lexFrom r.1 text)

/-- The end of the text. -/
def finish : Mode → Option (List Token)
  | .plain | .emptied | .comment => some []
  | .word w => some [.word w.reverse]
  | .carriage | .string _ | .escape _ | .unicode _ _ _ => none

def lex (text : Text) : Option (List Token) :=
  (lexFrom allowed .plain text).bind fun r => (finish r.1).map fun tokens => r.2 ++ tokens

end Lexer

/-! ## Lines -/

inductive Line
  | empty
  | header (name : Text)
  | entry (key : Text) (value : Value)

/-- A bare key. -/
def isBare (key : Text) : Bool := !key.isEmpty && key.all fun c => isWordChar c && c ∉ ['+', '.', ':']

/-- A boolean, or a decimal integer below the limit. -/
def readWord (limit : Nat) (word : Text) : Option Scalar :=
  if word = "true".toList then some (.boolean true)
  else if word = "false".toList then some (.boolean false)
  else if (word.all Char.isDigit && (word.length =
    1 || word.head? ≠ some '0')) && decide (Nat.ofDigitChars 10 word 0 < limit) then
    some (.integer (Nat.ofDigitChars 10 word 0))
  else none

def readScalar (limit : Nat) : Token → Option Scalar
  | .string t => some (.string t)
  | .word w => readWord limit w
  | _ => none

/-- The elements of an array, to its closing bracket; a last comma is allowed. -/
def readElements (limit : Nat) : List Token → Option (List Scalar)
  | [] => none
  | [.closing] => some []
  | [_] => none
  | [t, .closing] => (readScalar limit t).map fun v => [v]
  | t :: .comma :: rest => (readScalar limit t).bind fun v => (readElements limit rest).map (v :: ·)
  | _ => none

def readValue (limit : Nat) : List Token → Option Value
  | [t] => (readScalar limit t).map .scalar
  | .opening :: rest => (readElements limit rest).map .array
  | _ => none

def readEntry (limit : Nat) : List Token → Option Line
  | .word key :: .equals :: value => if isBare key then (readValue limit value).map (.entry key) else none
  | _ => none

/-- A token that is no space between others. -/
def Token.solid (t : Token) : Bool := t ≠ .blank ∧ t ≠ .newline

/-- A line, with its line feed. -/
def readLine (limit : Nat) (line : List Token) : Option Line :=
  let tokens := line.filter Token.solid
  if tokens = [] then some .empty
  else
    match line with
    | [.opening, .opening, .word name, .closing, .closing, .newline] =>
      if isBare name then some (.header name) else none
    | _ => readEntry limit tokens

/-- An entry goes to the table under way; no key is given twice. -/
def addEntry (d : Document) (e : Entry) : Option Document :=
  match d.tables.reverse with
  | [] => if e.1 ∈ d.root.map Prod.fst then none else some { d with root := d.root ++ [e] }
  | (name, entries) :: before =>
    if e.1 ∈ entries.map Prod.fst then none
    else some { d with tables := before.reverse ++ [(name, entries ++ [e])] }

def addLine (d : Document) : Line → Option Document
  | .empty => some d
  | .header name => if name ∈ d.root.map Prod.fst then none else some { d with tables := d.tables ++ [(name, [])] }
  | .entry key value => addEntry d (key, value)

def parse (allowed : Char → Bool) (limit : Nat) (text : Text) : Option Document :=
  (lex allowed text).bind fun tokens =>
    (splitAfter (· = .newline) tokens).foldlM (fun d line => (readLine limit line).bind (addLine d)) ⟨[], []⟩

/-! ## Lexing piece by piece -/

section Lexing

variable {allowed : Char → Bool}

@[simp] theorem emit_nil (r : Option (Mode × List Token)) : emit [] r = r := by
  cases r <;> rfl

@[simp] theorem emit_none (tokens : List Token) : emit tokens none = none := rfl

theorem emit_emit (tokens tokens' : List Token) (r : Option (Mode × List Token)) :
    emit tokens (emit tokens' r) = emit (tokens ++ tokens') r := by
  cases r with
  | none => rfl
  | some r => simp [emit]

theorem lexFrom_cons (m : Mode) (c : Char) (text : Text) :
    lexFrom allowed m (c :: text) = (step allowed m c).bind fun r => emit r.2 (lexFrom allowed r.1 text) := rfl

theorem lexFrom_append (m : Mode) (front back : Text) : lexFrom allowed m (front ++ back) =
    (lexFrom allowed m front).bind fun r => emit r.2 (lexFrom allowed r.1 back) := by
  induction front generalizing m with
  | nil =>
    show lexFrom allowed m back = emit [] (lexFrom allowed m back)
    rw [emit_nil]
  | cons c front ih =>
    rw [List.cons_append, lexFrom_cons, lexFrom_cons]
    cases step allowed m c with
    | none => rfl
    | some r =>
      show emit r.2 (lexFrom allowed r.1 (front ++ back)) = _
      rw [ih]
      show _ = (emit r.2 (lexFrom allowed r.1 front)).bind _
      cases lexFrom allowed r.1 front with
      | none => rfl
      | some r' => exact emit_emit _ _ _

variable {c : Char}

theorem lexFrom_plain {m : Mode} {tokens : List Token} (h : plainStep c = some (m, tokens)) (text : Text) :
    lexFrom allowed .plain (c :: text) = emit tokens (lexFrom allowed m text) := by
  rw [lexFrom_cons]
  show (plainStep c).bind _ = _
  rw [h]
  rfl

/-- Behind an empty string all is as between tokens, but for a third quotation mark. -/
theorem lexFrom_emptied (h : c ≠ '"') (text : Text) :
    lexFrom allowed .emptied (c :: text) = lexFrom allowed .plain (c :: text) := by
  rw [lexFrom_cons, lexFrom_cons]
  show (if c = '"' then none else plainStep c).bind _ = (plainStep c).bind _
  rw [if_neg h]

theorem plainStep_word (h : isWordChar c = true) : plainStep c = some (.word [c], []) := by
  have hne : ∀ d : Char, isWordChar d = false → c ≠ d := by
    rintro d hd rfl
    rw [h] at hd
    cases hd
  unfold plainStep
  rw [if_neg (hne _ (by decide)), if_neg (not_or.2 ⟨hne _ (by decide), hne _ (by decide)⟩), if_neg (hne _ (by decide)),
    if_neg (hne _ (by decide)), if_neg (hne _ (by decide)), if_neg (hne _ (by decide)), if_neg (hne _ (by decide)),
    if_neg (hne _ (by decide)), if_neg (hne _ (by decide)), if_pos h]

theorem lexFrom_wordEnd (w : Text) (h : isWordChar c = false) (text : Text) :
    lexFrom allowed (.word w) (c :: text) = emit [.word w.reverse] (lexFrom allowed .plain (c :: text)) := by
  rw [lexFrom_cons, lexFrom_cons]
  show (if isWordChar c = true then _ else (plainStep c).map fun r => (r.1, Token.word w.reverse :: r.2)).bind _ =
    emit _ ((plainStep c).bind _)
  rw [if_neg (by simp [h])]
  cases plainStep c with
  | none => rfl
  | some r => exact (emit_emit [.word w.reverse] r.2 _).symm

theorem lexFrom_inWord {w : Text} (hw : ∀ c ∈ w, isWordChar c = true) (before : Text)
    (hc : isWordChar c = false) (text : Text) : lexFrom allowed (.word before) (w ++ c :: text) =
      emit [.word (before.reverse ++ w)] (lexFrom allowed .plain (c :: text)) := by
  induction w generalizing before with
  | nil =>
    rw [List.append_nil]
    exact lexFrom_wordEnd before hc text
  | cons d w ih =>
    have hd : step allowed (.word before) d = some (.word (d :: before), []) := if_pos (hw d List.mem_cons_self)
    rw [List.cons_append, lexFrom_cons, hd]
    show emit [] (lexFrom allowed (.word (d :: before)) (w ++ c :: text)) = _
    rw [emit_nil, ih fun e he => hw e (List.mem_cons_of_mem _ he)]
    simp

theorem lexFrom_word {w : Text} (hne : w ≠ []) (hw : ∀ c ∈ w, isWordChar c = true)
    (hc : isWordChar c = false)
    (text : Text) :
    lexFrom allowed .plain (w ++ c :: text) = emit [.word w] (lexFrom allowed .plain (c :: text)) := by
  cases w with
  | nil => exact absurd rfl hne
  | cons d w =>
    rw [List.cons_append, lexFrom_plain (plainStep_word (hw d List.mem_cons_self)), emit_nil,
      lexFrom_inWord (fun e he => hw e (List.mem_cons_of_mem _ he)) _ hc]
    rfl

end Lexing

/-! ## Strings -/

section Strings

variable {allowed : Char → Bool} {esc : Char → Text}

/-- The escape of the character is read as the character. -/
def Reads (allowed : Char → Bool) (esc : Char → Text) (c : Char) : Prop :=
  ∀ text, lexFrom allowed (.string text) (esc c) = some (.string (c :: text), [])

/-- The escape of the character is refused. -/
def Refuses (allowed : Char → Bool) (esc : Char → Text) (c : Char) : Prop :=
  ∀ text, lexFrom allowed (.string text) (esc c) = none

/-- A string in quotation marks. -/
def quoted (esc : Char → Text) (text : Text) : Text := '"' :: text.flatMap esc ++ ['"']

variable {text : Text}

theorem lexFrom_inString (h : ∀ c ∈ text, Reads allowed esc c) (before rest : Text) :
    lexFrom allowed (.string before) (text.flatMap esc ++ rest) =
      lexFrom allowed (.string (text.reverse ++ before)) rest := by
  induction text generalizing before with
  | nil => rfl
  | cons c text ih =>
    rw [List.flatMap_cons, List.append_assoc, lexFrom_append, h c List.mem_cons_self before]
    show emit [] (lexFrom allowed (.string (c :: before)) (text.flatMap esc ++ rest)) = _
    rw [emit_nil, ih fun d hd => h d (List.mem_cons_of_mem _ hd)]
    simp

/-- A quoted string is a token, when what follows is no quotation mark. -/
theorem lexFrom_quoted (h : ∀ c ∈ text, Reads allowed esc c) {c : Char} (hc : c ≠ '"') (rest : Text) :
    lexFrom allowed .plain (quoted esc text ++ c :: rest) =
      emit [.string text] (lexFrom allowed .plain (c :: rest)) := by
  have hopen : plainStep '"' = some (.string [], []) := rfl
  unfold quoted
  rw [List.append_assoc, List.cons_append, lexFrom_plain hopen, emit_nil, lexFrom_inString h, List.append_nil,
    List.singleton_append, lexFrom_cons]
  show (some (if text.reverse = [] then Mode.emptied else .plain, [Token.string text.reverse.reverse])).bind _ = _
  rw [List.reverse_reverse, Option.bind_some]
  dsimp only
  split
  · rw [lexFrom_emptied hc]
  · rfl

theorem lexFrom_inString_none (h : ∀ c ∈ text, Reads allowed esc c ∨ Refuses allowed esc c)
    (hrefused : ∃ c ∈ text, Refuses allowed esc c) (before rest : Text) :
    lexFrom allowed (.string before) (text.flatMap esc ++ rest) = none := by
  induction text generalizing before with
  | nil =>
    obtain ⟨c, hc, -⟩ := hrefused
    cases hc
  | cons c text ih =>
    rw [List.flatMap_cons, List.append_assoc, lexFrom_append]
    rcases h c List.mem_cons_self with hc | hc
    · rw [hc before]
      show emit [] (lexFrom allowed (.string (c :: before)) (text.flatMap esc ++ rest)) = none
      have hrest : ∃ c ∈ text, Refuses allowed esc c := by
        obtain ⟨d, hd, hr⟩ := hrefused
        rcases List.mem_cons.1 hd with rfl | hd
        · have := (hr before).symm.trans (hc before)
          cases this
        · exact ⟨d, hd, hr⟩
      rw [emit_nil, ih (fun d hd => h d (List.mem_cons_of_mem _ hd)) hrest]
    · rw [hc before]
      rfl

theorem lexFrom_quoted_none (h : ∀ c ∈ text, Reads allowed esc c ∨ Refuses allowed esc c)
    (hrefused : ∃ c ∈ text, Refuses allowed esc c) (rest : Text) :
    lexFrom allowed .plain (quoted esc text ++ rest) = none := by
  have hopen : plainStep '"' = some (.string [], []) := rfl
  unfold quoted
  rw [List.append_assoc, List.cons_append, lexFrom_plain hopen, emit_nil, lexFrom_inString_none h hrefused]

end Strings

end CocoaWay.Lib.Toml
