import Mathlib.Data.List.Basic

/-!
# The shell's reading of a text

* `Part`, `Word`, `Command`, `Script` : simple commands joined by `&&`, with quotes, parameters and command
  substitution;
* `State`, `step`, `parse` : the reader, one character at a time; a text with any other construct is not read;
* `run_append`, `Reads.trans` : a text is read piece by piece;
* `quote`, `reads_quote` : a text in single quotes, and the quoted characters it is read as.
-/

namespace CocoaWay.Lib.Shell

abbrev Text := List Char

/-! ## Scripts -/

/-- What a word is made of; `quotes` stands where a quote opens, so that a quoted empty text is a word. -/
inductive Part where
  | char (quoted : Bool) (c : Char)
  | quotes
  | param (quoted : Bool) (name : Text) (default : List Part)
  | subst (quoted : Bool) (script : List (List (List Part)))

abbrev Word := List Part
abbrev Command := List Word
abbrev Script := List Command

/-! ## The reader -/

/-- A script that is being read: the commands behind, the words behind, the word at hand. -/
structure Level where
  commands : Script
  words : Command
  word : Option Word

def Level.start : Level := ⟨[], [], none⟩

def Level.push (l : Level) (parts : List Part) : Level := { l with word := some (l.word.getD [] ++ parts) }

def Level.endWord (l : Level) : Level :=
  match l.word with
  | none => l
  | some word => { l with words := l.words ++ [word], word := none }

/-- Reserved words, where a command is expected. -/
def reserved : List String :=
  ["if", "then", "else", "elif", "fi", "do", "done", "case", "esac", "while", "until", "for", "in"]

/-- The name of a command: unquoted letters only, and no reserved word. -/
def Command.name (command : Command) : Option Text :=
  match command.head? with
  | none => none
  | some word =>
    (word.mapM fun part =>
      match part with
      | Part.char false c => if c.isAlpha then some c else none
      | _ => none).filter fun name => !reserved.any fun r => r.toList = name

def Level.endCommand (l : Level) : Option Level :=
  let l := l.endWord
  if l.words.name.isSome then some { l with commands := l.commands ++ [l.words], words := [] } else none

/-- What an unfinished text is inside of. -/
inductive Frame where
  | subst (quoted : Bool) (outer : Level)
  | default (name : Text) (outer : Level)

inductive Mode where
  | plain
  | single
  | double
  | escape (quoted : Bool)
  | dollar (quoted : Bool)
  | name (quoted : Bool) (name : Text)
  | brace (name : Text)
  | colon (name : Text)
  | ampersand

structure State where
  mode : Mode
  level : Level
  frames : List Frame

def State.start : State := ⟨.plain, .start, []⟩

def State.push (s : State) (parts : List Part) : State := { s with level := s.level.push parts }

def outside (quoted : Bool) : Mode := if quoted then .double else .plain

def isNameStart (c : Char) : Bool := c.isAlpha || c = '_'

def isName (c : Char) : Bool := c.isAlphanum || c = '_'

/-- Characters that end a word or start a construct the reader leaves out. -/
def refused (c : Char) : Bool := c ∈ ['\n', ';', '|', '<', '>', '(', '`', '{', '#', '~', '!']

def closeSubst (s : State) : Option State :=
  match s.frames with
  | .subst quoted outer :: frames =>
    s.level.endCommand.map fun l => ⟨outside quoted, outer.push [.subst quoted l.commands], frames⟩
  | _ => none

def closeDefault (s : State) : Option State :=
  match s.frames with
  | .default name outer :: frames =>
    some ⟨.plain, outer.push [.param false name (s.level.word.getD [])], frames⟩
  | _ => none

/-- A blank ends a word; inside a default the reader leaves it out. -/
def blank (s : State) : Option State :=
  match s.frames with
  | .default _ _ :: _ => none
  | _ => some { s with level := s.level.endWord }

def plainStep (s : State) (c : Char) : Option State :=
  if c = '\'' then some { s.push [.quotes] with mode := .single }
  else if c = '"' then some { s.push [.quotes] with mode := .double }
  else if c = '\\' then some { s with mode := .escape false }
  else if c = '$' then some { s with mode := .dollar false }
  else if c = ' ' || c = '\t' then blank s
  else if c = '&' then (blank s).map fun s => { s with mode := .ampersand }
  else if c = ')' then closeSubst s
  else if c = '}' then closeDefault s
  else if refused c then none
  else some (s.push [.char false c])

def doubleStep (s : State) (c : Char) : Option State :=
  if c = '"' then some { s with mode := .plain }
  else if c = '\\' then some { s with mode := .escape true }
  else if c = '$' then some { s with mode := .dollar true }
  else if c = '`' then none
  else some { s.push [.char true c] with mode := .double }

def outsideStep (quoted : Bool) (s : State) (c : Char) : Option State :=
  if quoted then doubleStep { s with mode := .double } c else plainStep { s with mode := .plain } c

def step (s : State) (c : Char) : Option State :=
  match s.mode with
  | .plain => plainStep s c
  | .single => some (if c = '\'' then { s with mode := .plain } else s.push [.char true c])
  | .double => doubleStep s c
  | .escape quoted =>
    -- a backslash before a newline joins two lines: left out
    if c = '\n' then none
    else if quoted && !(c ∈ ['$', '`', '"', '\\']) then
      some { s.push [.char true '\\', .char true c] with mode := .double }
    else some { s.push [.char true c] with mode := outside quoted }
  | .dollar quoted =>
    if c = '(' then some ⟨.plain, .start, .subst quoted s.level :: s.frames⟩
    else if c = '{' && !quoted then some { s with mode := .brace [] }
    else if isNameStart c then some { s with mode := .name quoted [c] }
    else none
  | .name quoted name =>
    if isName c then some { s with mode := .name quoted (name ++ [c]) }
    else outsideStep quoted (s.push [.param quoted name []]) c
  | .brace name =>
    if name = [] then if isNameStart c then some { s with mode := .brace [c] } else none
    else if isName c then some { s with mode := .brace (name ++ [c]) }
    else if c = '}' then some { s.push [.param false name []] with mode := .plain }
    else if c = ':' then some { s with mode := .colon name }
    else none
  | .colon name => if c = '-' then some ⟨.plain, .start, .default name s.level :: s.frames⟩ else none
  | .ampersand =>
    if c = '&' then s.level.endCommand.map fun l => { s with mode := .plain, level := l } else none

def run (s : State) (text : Text) : Option State := text.foldlM step s

/-- The end of a script ends its last command. -/
def State.finish (s : State) : Option Script :=
  match s.mode, s.frames with
  | .plain, [] => s.level.endCommand.map Level.commands
  | _, _ => none

def parse (text : Text) : Option Script := (run .start text).bind State.finish

/-! ## Reading piece by piece -/

/-- From `s`, the text is read without an error and leaves `t`. -/
def Reads (s : State) (text : Text) (t : State) : Prop := run s text = some t

section Reads

variable {s t u : State} {a b text : Text}

theorem run_append : run s (a ++ b) = (run s a).bind fun t => run t b := List.foldlM_append

theorem Reads.refl (s : State) : Reads s [] s := rfl

theorem Reads.trans (h : Reads s a t) (h' : Reads t b u) : Reads s (a ++ b) u := by
  rw [Reads, run_append, h, Option.bind_some]
  exact h'

theorem Reads.cons {c : Char} (h : step s c = some t) (h' : Reads t b u) : Reads s (c :: b) u := by
  rw [Reads, run, List.foldlM_cons, h]
  exact h'

theorem parse_of_reads {script : Script} (h : Reads .start text s) (h' : s.finish = some script) :
    parse text = some script := by
  rw [parse, h, Option.bind_some, h']

end Reads

/-! ## Single quotes -/

/-- How a character stands between single quotes: a single quote closes them, is escaped, and opens them again. -/
def quoteChar (c : Char) : Text := if c = '\'' then ['\'', '\\', '\'', '\''] else [c]

/-- A text in single quotes. -/
def quote (text : Text) : Text := '\'' :: (text.flatMap quoteChar ++ ['\''])

def quotedChar (c : Char) : List Part := if c = '\'' then [.char true c, .quotes] else [.char true c]

/-- What the quoted text is read as: nothing but quoted characters. -/
def quotedParts (text : Text) : List Part := .quotes :: text.flatMap quotedChar

section Quote

variable {level : Level} {frames : List Frame}

@[simp] theorem Level.push_push (l : Level) (parts parts' : List Part) :
    (l.push parts).push parts' = l.push (parts ++ parts') := by
  simp [Level.push]

/-- Inside single quotes only the quote itself is special. -/
theorem reads_quoteChar (c : Char) :
    Reads ⟨.single, level, frames⟩ (quoteChar c) ⟨.single, level.push (quotedChar c), frames⟩ := by
  by_cases h : c = '\''
  · subst h
    have hopen : Reads ⟨.single, level, frames⟩ (quoteChar '\'')
        ⟨.single, (level.push [.char true '\'']).push [.quotes], frames⟩ := rfl
    rwa [Level.push_push] at hopen
  · rw [quoteChar, if_neg h, quotedChar, if_neg h]
    refine Reads.cons (t := ⟨.single, level.push [.char true c], frames⟩) ?_ (Reads.refl _)
    simp only [step, if_neg h]
    rfl

theorem reads_quoteChars (text : Text) (parts : List Part) :
    Reads ⟨.single, level.push parts, frames⟩ (text.flatMap quoteChar)
      ⟨.single, level.push (parts ++ text.flatMap quotedChar), frames⟩ := by
  induction text generalizing parts with
  | nil =>
    rw [List.flatMap_nil, List.flatMap_nil, List.append_nil]
    exact Reads.refl _
  | cons c text ih =>
    have hc : Reads ⟨.single, level.push parts, frames⟩ (quoteChar c) _ := reads_quoteChar c
    rw [Level.push_push] at hc
    rw [List.flatMap_cons, List.flatMap_cons, ← List.append_assoc]
    exact hc.trans (ih _)

/-- A text in single quotes is read as its own characters, all quoted. -/
theorem reads_quote (text : Text) :
    Reads ⟨.plain, level, frames⟩ (quote text) ⟨.plain, level.push (quotedParts text), frames⟩ := by
  have hopen : step ⟨.plain, level, frames⟩ '\'' = some ⟨.single, level.push [.quotes], frames⟩ := rfl
  have hclose : Reads ⟨.single, level.push (quotedParts text), frames⟩ ['\'']
      ⟨.plain, level.push (quotedParts text), frames⟩ := rfl
  exact Reads.cons hopen ((reads_quoteChars text [.quotes]).trans hclose)

theorem Level.endWord_push_quoted (commands : Script) (words : Command) (text : Text) :
    ((⟨commands, words, none⟩ : Level).push (quotedParts text)).endWord =
      ⟨commands, words ++ [quotedParts text], none⟩ := by
  simp [Level.push, Level.endWord]

theorem finish_push_quoted {commands : Script} {words : Command} (text : Text)
    (h : (words ++ [quotedParts text]).name.isSome) :
    State.finish ⟨.plain, (⟨commands, words, none⟩ : Level).push (quotedParts text), []⟩ =
      some (commands ++ [words ++ [quotedParts text]]) := by
  simp only [State.finish, Level.endCommand, Level.endWord_push_quoted, if_pos h, Option.map_some]

theorem Level.endWord_endWord (l : Level) : l.endWord = ⟨l.commands, l.endWord.words, none⟩ := by
  rcases l with ⟨commands, words, _ | word⟩ <;> rfl

/-- Quoted texts behind blanks are words of their own. -/
theorem reads_quotes (texts : List Text) (level : Level) : ∃ level' : Level,
    Reads ⟨.plain, level, []⟩ (texts.flatMap fun text => ' ' :: quote text) ⟨.plain, level', []⟩ ∧
      level'.endWord = ⟨level.commands, level.endWord.words ++ texts.map quotedParts, none⟩ := by
  induction texts generalizing level with
  | nil =>
    refine ⟨level, Reads.refl _, ?_⟩
    rw [List.map_nil, List.append_nil]
    exact level.endWord_endWord
  | cons text texts ih =>
    have hblank : step ⟨.plain, level, []⟩ ' ' = some ⟨.plain, level.endWord, []⟩ := rfl
    obtain ⟨level', hreads, hend⟩ := ih (level.endWord.push (quotedParts text))
    refine ⟨level', ?_, ?_⟩
    · exact Reads.cons hblank ((reads_quote text).trans hreads)
    · rw [hend, level.endWord_endWord, Level.endWord_push_quoted, List.map_cons, List.append_assoc]
      rfl

end Quote

end CocoaWay.Lib.Shell
