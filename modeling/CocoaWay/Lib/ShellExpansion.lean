import CocoaWay.Lib.Shell
import Mathlib.Data.List.DropRight
import Mathlib.Data.List.Forall2

/-!
# The shell's expansions

* `Atom`, `Part.atoms` : a word after parameter expansion and command substitution, each character with its origin;
* `fields`, `Atom.active` : field splitting and pathname expansion, and the characters they act on;
* `Invocation`, `trace` : the commands a script runs, those of its substitutions included, with their arguments;
* `fields_of_inactive`, `touched_eq_nil` : a word without active characters is one argument, as it stands.

Every command is taken to succeed, so that `&&` goes on to the next.
-/

namespace CocoaWay.Lib.Shell

/-! ## Words -/

inductive Origin where
  | literal
  | quoted
  | expanded
  deriving DecidableEq

/-- A character with its origin; `quotes` stands where a quote opened. -/
inductive Atom where
  | char (origin : Origin) (c : Char)
  | quotes
  deriving DecidableEq

abbrev Env := Text → Option Text

/-- What a shell finds around it: what a command prints, the path names, and which of them a pattern matches. -/
structure World where
  output : List Text → Text
  files : List Text
  isMatch : List Atom → Text → Bool

/-- Quote removal. -/
def Atom.text : Atom → Text
  | .char _ c => [c]
  | .quotes => []

def text (atoms : List Atom) : Text := atoms.flatMap Atom.text

/-- Blanks of an expansion split a word; `IFS` is as a shell sets it. -/
def Atom.splits : Atom → Bool
  | .char .expanded c => c = ' ' || c = '\t' || c = '\n'
  | _ => false

/-- Unquoted, these make a field a pattern. -/
def Atom.globs : Atom → Bool
  | .char .quoted _ => false
  | .char _ c => c = '*' || c = '?' || c = '['
  | .quotes => false

def Atom.active (a : Atom) : Bool := a.splits || a.globs

/-- The path names that a field matches, or the field itself. -/
def paths (w : World) (field : List Atom) : List Text :=
  let found := if field.any Atom.globs then w.files.filter (w.isMatch field) else []
  if found = [] then [text field] else found

/-- Field splitting, pathname expansion and quote removal. -/
def fields (w : World) (atoms : List Atom) : List Text :=
  ((atoms.splitOnP Atom.splits).filter fun field => !field.isEmpty).flatMap (paths w)

/-! ## Commands -/

/-- A command that is run: its arguments, and the characters of its words that splitting and pathname expansion act
on. -/
structure Invocation where
  argv : List Text
  touched : List Atom
  deriving DecidableEq

/-- The operands of `export` are neither split nor taken as patterns. -/
def invoke (w : World) (command : Command) (words : List (List Atom)) : Invocation :=
  if command.name = some "export".toList then ⟨words.map text, []⟩
  else ⟨words.flatMap (fields w), words.flatMap fun atoms => atoms.filter Atom.active⟩

def assign (env : Env) (operand : Text) : Env :=
  let name := operand.takeWhile (· != '=')
  if name = operand then env else fun n => if n = name then some (operand.drop (name.length + 1)) else env n

/-- `export` sets variables. -/
def Env.after (env : Env) (i : Invocation) : Env :=
  match i.argv with
  | [] => env
  | name :: operands => if name = "export".toList then operands.foldl assign env else env

def origin (quoted : Bool) : Origin := if quoted then .quoted else .expanded

/-- Unquoted characters of a default are characters of an expansion. -/
def Atom.expand : Atom → Atom
  | .char .literal c => .char .expanded c
  | a => a

mutual

/-- Parameter expansion and command substitution. -/
def Part.atoms (w : World) (env : Env) : Part → List Atom
  | .char quoted c => [.char (if quoted then .quoted else .literal) c]
  | .quotes => [.quotes]
  | .param quoted name default =>
    match (env name).filter (· ≠ []) with
    | some value => value.map (.char (origin quoted))
    | none => (wordAtoms w env default).map Atom.expand
  | .subst quoted script => ((printed w env script).rdropWhile (· = '\n')).map (.char (origin quoted))

def wordAtoms (w : World) (env : Env) : List Part → List Atom
  | [] => []
  | part :: parts => part.atoms w env ++ wordAtoms w env parts

def commandAtoms (w : World) (env : Env) : List (List Part) → List (List Atom)
  | [] => []
  | word :: words => wordAtoms w env word :: commandAtoms w env words

/-- What the commands of a script print. -/
def printed (w : World) (env : Env) : List (List (List Part)) → Text
  | [] => []
  | command :: commands =>
    let i := invoke w command (commandAtoms w env command)
    w.output i.argv ++ printed w (env.after i) commands

end

mutual

/-- The commands run by the substitutions of a part. -/
def Part.trace (w : World) (env : Env) : Part → List Invocation
  | .param _ name default => if ((env name).filter (· ≠ [])).isSome then [] else wordTrace w env default
  | .subst _ script => trace w env script
  | _ => []

def wordTrace (w : World) (env : Env) : List Part → List Invocation
  | [] => []
  | part :: parts => part.trace w env ++ wordTrace w env parts

def commandTrace (w : World) (env : Env) : List (List Part) → List Invocation
  | [] => []
  | word :: words => wordTrace w env word ++ commandTrace w env words

/-- The commands a script runs, one after another, a substitution before the command it is part of. -/
def trace (w : World) (env : Env) : List (List (List Part)) → List Invocation
  | [] => []
  | command :: commands =>
    let i := invoke w command (commandAtoms w env command)
    commandTrace w env command ++ i :: trace w (env.after i) commands

end

/-! ## Inactive words -/

section Inactive

variable {w : World} {env : Env} {atoms : List Atom}

@[simp] theorem text_nil : text [] = [] := rfl

@[simp] theorem text_cons (a : Atom) (atoms : List Atom) : text (a :: atoms) = a.text ++ text atoms := List.flatMap_cons

@[simp] theorem text_append (atoms atoms' : List Atom) : text (atoms ++ atoms') = text atoms ++ text atoms' :=
  List.flatMap_append

@[simp] theorem text_map_char (o : Origin) (t : Text) : text (t.map (.char o)) = t := by
  induction t with
  | nil => rfl
  | cons c t ih => rw [List.map_cons, text_cons, ih, Atom.text, List.singleton_append]

@[simp] theorem wordAtoms_append (word word' : Word) :
    wordAtoms w env (word ++ word') = wordAtoms w env word ++ wordAtoms w env word' := by
  induction word with
  | nil => rfl
  | cons part word ih => rw [List.cons_append, wordAtoms, wordAtoms, ih, List.append_assoc]

@[simp] theorem wordTrace_append (word word' : Word) :
    wordTrace w env (word ++ word') = wordTrace w env word ++ wordTrace w env word' := by
  induction word with
  | nil => rfl
  | cons part word ih => rw [List.cons_append, wordTrace, wordTrace, ih, List.append_assoc]

/-- Without active characters a word stays as it is. -/
theorem fields_of_inactive (hne : atoms ≠ []) (h : ∀ a ∈ atoms, a.active = false) : fields w atoms = [text atoms] := by
  have hsplits : ∀ a ∈ atoms, a.splits = false := fun a ha => (Bool.or_eq_false_iff.mp (h a ha)).1
  have hglobs : atoms.any Atom.globs = false := by
    rw [List.any_eq_false]
    intro a ha
    rw [(Bool.or_eq_false_iff.mp (h a ha)).2]
    exact Bool.false_ne_true
  rw [fields, List.splitOnP_eq_singleton hsplits]
  simp [hne, paths, hglobs]

theorem filter_active_eq_nil : atoms.filter Atom.active = [] ↔ ∀ a ∈ atoms, a.active = false := by
  simp [List.filter_eq_nil_iff]

theorem active_expanded {c : Char} :
    (Atom.char .expanded c).active = false ↔ c ∉ [' ', '\t', '\n', '*', '?', '['] := by
  simp [Atom.active, Atom.splits, Atom.globs, and_assoc]

/-- The word is one argument in every surrounding, and no command runs to find it. -/
structure Stands (word : Word) (value : Text) : Prop where
  nonempty : ∀ w env, wordAtoms w env word ≠ []
  inactive : ∀ w env, ∀ a ∈ wordAtoms w env word, a.active = false
  value_eq : ∀ w env, text (wordAtoms w env word) = value
  silent : ∀ w env, wordTrace w env word = []

theorem Stands.fields_eq {word : Word} {value : Text} (h : Stands word value) :
    fields w (wordAtoms w env word) = [value] := by
  rw [fields_of_inactive (h.nonempty w env) (h.inactive w env), h.value_eq w env]

theorem stands_quoted (t : Text) : Stands (quotedParts t) t := by
  have hchar : ∀ w env c, text (wordAtoms w env (quotedChar c)) = [c] ∧
      (∀ a ∈ wordAtoms w env (quotedChar c), a.active = false) ∧ wordTrace w env (quotedChar c) = [] := by
    intro w env c
    unfold quotedChar
    split <;> simp [wordAtoms, wordTrace, Part.atoms, Part.trace, Atom.text, Atom.active, Atom.splits, Atom.globs]
  have hchars : ∀ w env, text (wordAtoms w env (t.flatMap quotedChar)) = t ∧
      (∀ a ∈ wordAtoms w env (t.flatMap quotedChar), a.active = false) ∧
      wordTrace w env (t.flatMap quotedChar) = [] := by
    intro w env
    induction t with
    | nil => exact ⟨rfl, fun a ha => absurd ha List.not_mem_nil, rfl⟩
    | cons c t ih =>
      obtain ⟨hvalue, hinactive, hsilent⟩ := hchar w env c
      rw [List.flatMap_cons, wordAtoms_append, wordTrace_append, text_append, hvalue, ih.1, hsilent, ih.2.2]
      refine ⟨rfl, fun a ha => ?_, rfl⟩
      exact (List.mem_append.mp ha).elim (hinactive a) (ih.2.1 a)
  exact {
    nonempty := fun w env => List.cons_ne_nil _ _
    inactive := by
      intro w env a ha
      rcases List.mem_cons.mp ha with rfl | ha
      · rfl
      · exact (hchars w env).2.1 a ha
    value_eq := fun w env => (hchars w env).1
    silent := fun w env => (hchars w env).2.2 }

/-- A text that stands for itself without quotes. -/
def inert (t : Text) : Bool := !t.isEmpty && t.all fun c => !(c = '*' || c = '?' || c = '[')

theorem wordAtoms_literal (t : Text) : wordAtoms w env (t.map (.char false)) = t.map (.char .literal) := by
  induction t with
  | nil => rfl
  | cons c t ih =>
    rw [List.map_cons, wordAtoms, ih]
    rfl

theorem wordTrace_literal (t : Text) : wordTrace w env (t.map (.char false)) = [] := by
  induction t with
  | nil => rfl
  | cons c t ih =>
    rw [List.map_cons, wordTrace, ih]
    rfl

theorem stands_literal {t : Text} (h : inert t = true) : Stands (t.map (.char false)) t := by
  obtain ⟨hne, hchars⟩ := Bool.and_eq_true_iff.mp h
  refine ⟨fun w env => ?_, fun w env a ha => ?_, fun w env => ?_, fun w env => wordTrace_literal t⟩
  · simpa [wordAtoms_literal] using hne
  · rw [wordAtoms_literal] at ha
    obtain ⟨c, hc, rfl⟩ := List.mem_map.mp ha
    simpa [Atom.active, Atom.splits, Atom.globs] using List.all_eq_true.mp hchars c hc
  · rw [wordAtoms_literal, text_map_char]

/-- A parameter in double quotes is its value. -/
theorem stands_param {name value : Text} (h : (env name).getD [] = value) :
    fields w (wordAtoms w env [.quotes, .param true name []]) = [value] ∧
      (wordAtoms w env [.quotes, .param true name []]).filter Atom.active = [] := by
  have hatoms : wordAtoms w env [.quotes, .param true name []] = .quotes :: value.map (.char .quoted) := by
    subst h
    simp only [wordAtoms, Part.atoms, origin, if_true, List.append_nil, List.singleton_append]
    rcases env name with _ | _ | ⟨c, value⟩ <;> rfl
  have hinactive : ∀ a ∈ Atom.quotes :: value.map (Atom.char .quoted), a.active = false := by
    intro a ha
    rcases List.mem_cons.mp ha with rfl | ha
    · rfl
    · obtain ⟨c, -, rfl⟩ := List.mem_map.mp ha
      rfl
  rw [hatoms]
  refine ⟨?_, filter_active_eq_nil.mpr hinactive⟩
  rw [fields_of_inactive (List.cons_ne_nil _ _) hinactive, text_cons, text_map_char]
  rfl

/-- The result of an expansion outside quotes is one argument, and stays as it is, when it has no active character. -/
theorem fields_expanded_iff {t value : Text} :
    fields w (t.map (.char .expanded)) = [value] ∧ (t.map (Atom.char .expanded)).filter Atom.active = [] ↔
      t = value ∧ value ≠ [] ∧ ∀ c ∈ value, c ∉ [' ', '\t', '\n', '*', '?', '['] := by
  have hinactive : (∀ a ∈ t.map (Atom.char .expanded), a.active = false) ↔
      ∀ c ∈ t, c ∉ [' ', '\t', '\n', '*', '?', '['] := by
    rw [List.forall_mem_map]
    exact forall₂_congr fun c _ => active_expanded
  rw [filter_active_eq_nil]
  by_cases hne : t = []
  · subst hne
    constructor
    · rintro ⟨hfields, -⟩
      cases hfields
    · rintro ⟨rfl, hne, -⟩
      exact absurd rfl hne
  · have hmap : t.map (Atom.char .expanded) ≠ [] := by simpa using hne
    constructor
    · rintro ⟨hfields, hactive⟩
      rw [fields_of_inactive hmap hactive, text_map_char, List.singleton_inj] at hfields
      subst hfields
      exact ⟨rfl, hne, hinactive.mp hactive⟩
    · rintro ⟨rfl, -, hchars⟩
      have hactive := hinactive.mpr hchars
      rw [fields_of_inactive hmap hactive, text_map_char]
      exact ⟨rfl, hactive⟩

/-- A parameter outside quotes, with a quoted default. -/
theorem text_param (name t : Text) : text (Part.atoms w env (.param false name (quotedParts t))) =
    ((env name).filter (· ≠ [])).getD t := by
  have hexpand : ∀ atoms : List Atom, text (atoms.map Atom.expand) = text atoms := by
    intro atoms
    induction atoms with
    | nil => rfl
    | cons a atoms ih =>
      rw [List.map_cons, text_cons, text_cons, ih]
      rcases a with ⟨_ | _ | _, c⟩ | _ <;> rfl
  rw [Part.atoms]
  cases (env name).filter (· ≠ []) with
  | none => exact (hexpand _).trans ((stands_quoted t).value_eq w env)
  | some value => exact text_map_char _ _

theorem trace_param (name t : Text) : Part.trace w env (.param false name (quotedParts t)) = [] := by
  rw [Part.trace, (stands_quoted t).silent w env, ite_self]

end Inactive

/-! ## Commands of standing words -/

section Commands

variable {w : World} {env : Env} {command : Command} {values : List Text}

theorem commandAtoms_eq : commandAtoms w env command = command.map (wordAtoms w env) := by
  induction command with
  | nil => rfl
  | cons word command ih => rw [commandAtoms, ih, List.map_cons]

theorem commandTrace_eq : commandTrace w env command = command.flatMap (wordTrace w env) := by
  induction command with
  | nil => rfl
  | cons word command ih => rw [commandTrace, ih, List.flatMap_cons]

theorem invoke_eq (name : Text) (hname : command.name = some name) (h : name ≠ "export".toList) :
    invoke w command (commandAtoms w env command) =
      ⟨command.flatMap fun word => fields w (wordAtoms w env word),
        command.flatMap fun word => (wordAtoms w env word).filter Atom.active⟩ := by
  rw [invoke, if_neg (by simpa [hname] using h), commandAtoms_eq, List.flatMap_map, List.flatMap_map]

/-- Words that stand for themselves are the arguments. -/
theorem flatMap_fields_of_stands (h : List.Forall₂ Stands command values) :
    (command.flatMap fun word => fields w (wordAtoms w env word)) = values ∧
      (command.flatMap fun word => (wordAtoms w env word).filter Atom.active) = [] ∧
      commandTrace w env command = [] := by
  rw [commandTrace_eq]
  induction h with
  | nil => exact ⟨rfl, rfl, rfl⟩
  | cons hword _ ih =>
    simp only [List.flatMap_cons, ih, hword.fields_eq, filter_active_eq_nil.mpr (hword.inactive w env),
      hword.silent w env]
    exact ⟨rfl, rfl, rfl⟩

/-- The command runs with the values as its arguments, and runs nothing else. -/
theorem invoke_of_stands (name : Text) (hstands : List.Forall₂ Stands command values) (hname : command.name = some name)
    (h : name ≠ "export".toList) :
    invoke w command (commandAtoms w env command) = ⟨values, []⟩ ∧ commandTrace w env command = [] := by
  obtain ⟨hfields, htouched, hsilent⟩ : _ ∧ _ ∧ commandTrace w env command = [] := flatMap_fields_of_stands hstands
  rw [invoke_eq name hname h, hfields, htouched]
  exact ⟨rfl, hsilent⟩

theorem assign_apply (env : Env) (name value : Text) (h : '=' ∉ name) :
    assign env (name ++ '=' :: value) name = some value := by
  have hne : ∀ c ∈ name, (c != '=') = true := by
    intro c hc
    rw [bne_iff_ne]
    rintro rfl
    exact h hc
  have hname : (name ++ '=' :: value).takeWhile (· != '=') = name := by
    rw [List.takeWhile_append_of_pos hne]
    simp
  simp [assign, hname]

end Commands

end CocoaWay.Lib.Shell
