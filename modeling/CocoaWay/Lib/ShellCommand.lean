import CocoaWay.Lib.ShellExpansion

/-!
# Simple commands with assignments

* `assignment?`, `splitAssignments` : the assignments in front of the words of a command;
* `simple`, `SimpleCommand` : a text that is one command, as the shell reads it;
* `Obtains` : in every surrounding the shell assigns these values and runs the command with these arguments, no character
  splits a word or is a pattern, and no other command runs;
* `obtains_of_reads` : from what the text is read as, word by word;
* `Piece`, `obtains_assigned`, `obtains_pieces` : words that stand for themselves, bare or in single quotes, with or without an
  assignment in front.
-/

namespace CocoaWay.Lib.Shell

/-! ## Assignments -/

/-- An unquoted name and what is behind its equals sign. -/
def readName : Word → Option (Text × Word)
  | .char false c :: word =>
    if c = '=' then some ([], word) else if isName c then (readName word).map fun r => (c :: r.1, r.2) else none
  | _ => none

def assignment? (word : Word) : Option (Text × Word) := (readName word).filter fun r => r.1.head?.any isNameStart

/-- The assignments of a command, and its other words. -/
def splitAssignments : List Word → List (Text × Word) × List Word
  | [] => ([], [])
  | word :: words =>
    match assignment? word with
    | some a => (a :: (splitAssignments words).1, (splitAssignments words).2)
    | none => ([], word :: words)

structure SimpleCommand where
  assignments : List (Text × Word)
  words : List Word

/-- The characters of a word without quotes and expansions. -/
def literalText (word : Word) : Option Text :=
  word.mapM fun part =>
    match part with
    | Part.char false c => some c
    | _ => none

/-- The first word is a reserved one. -/
def isReserved (words : List Word) : Bool :=
  (words.head?.bind literalText).any fun word => reserved.any fun r => r.toList = word

/-- A text that is one command with at least one word. There is no null character in what a shell reads. -/
def simple (text : Text) : Option SimpleCommand :=
  if Char.ofNat 0 ∈ text then none
  else
    (run .start text).bind fun s =>
      match s.mode, s.frames, s.level.endWord with
      | .plain, [], ⟨[], words, _⟩ =>
        let (assignments, words') := splitAssignments words
        if words' = [] ∨ isReserved words = true then none else some ⟨assignments, words'⟩
      | _, _, _ => none

/-! ## What the shell obtains -/

def SimpleCommand.assigned (c : SimpleCommand) (w : World) (env : Env) : List (Text × Text) :=
  c.assignments.map fun a => (a.1, text (wordAtoms w env a.2))

def SimpleCommand.invoke (c : SimpleCommand) (w : World) (env : Env) : Invocation :=
  ⟨c.words.flatMap fun word => fields w (wordAtoms w env word),
    c.words.flatMap fun word => (wordAtoms w env word).filter Atom.active⟩

/-- The commands that substitutions run. -/
def SimpleCommand.trace (c : SimpleCommand) (w : World) (env : Env) : List Invocation :=
  (c.assignments.map Prod.snd ++ c.words).flatMap (wordTrace w env)

def Obtains (script : Text) (assignments : List (Text × Text)) (argv : List Text) : Prop :=
  ∃ c, simple script = some c ∧ ∀ w env, c.assigned w env = assignments ∧ c.invoke w env = ⟨argv, []⟩ ∧ c.trace w env = []

section Obtains

variable {script name : Text} {assignments : List (Text × Word)} {words : List Word} {values : List (Text × Text)}
  {argv : List Text} {word : Word}

theorem readName_append (h : ∀ c ∈ name, c ≠ '=' ∧ isName c = true) (word : Word) :
    readName (name.map (.char false) ++ .char false '=' :: word) = some (name, word) := by
  induction name with
  | nil => rfl
  | cons c name ih =>
    obtain ⟨hne, hc⟩ := h c List.mem_cons_self
    rw [List.map_cons, List.cons_append, readName, if_neg hne, if_pos hc, ih fun d hd => h d (List.mem_cons_of_mem _ hd)]
    rfl

theorem assignment?_append (h : ∀ c ∈ name, c ≠ '=' ∧ isName c = true) (hstart : name.head?.any isNameStart = true)
    (word : Word) : assignment? (name.map (.char false) ++ .char false '=' :: word) = some (name, word) := by
  unfold assignment?
  rw [readName_append h]
  exact if_pos hstart

/-- An assignment whose value stands for itself. -/
def Assigns (a : Text × Word) (v : Text × Text) : Prop := a.1 = v.1 ∧ Stands a.2 v.2

theorem assigned_of_stands (h : List.Forall₂ Assigns assignments values) (w : World) (env : Env) :
    (assignments.map fun a => (a.1, text (wordAtoms w env a.2))) = values ∧
      (assignments.map Prod.snd).flatMap (wordTrace w env) = [] := by
  induction h with
  | nil => exact ⟨rfl, rfl⟩
  | @cons a v _ _ hhead _ ih =>
    obtain ⟨hname, hstands⟩ := hhead
    rw [List.map_cons, List.map_cons, List.flatMap_cons, ih.1, ih.2, hstands.value_eq w env, hstands.silent w env, hname]
    exact ⟨rfl, rfl⟩

/-- One command that is read as words, each of which stands for its value. -/
theorem obtains_of_reads {level : Level} (hnull : Char.ofNat 0 ∉ script) (hreads : Reads .start script ⟨.plain, level, []⟩)
    (hwords : level.endWord = ⟨[], words, none⟩) (hreserved : isReserved words = false)
    {command : List Word} (hsplit : splitAssignments words = (assignments, command)) (hne : command ≠ [])
    (hvalues : List.Forall₂ Assigns assignments values) (hargv : List.Forall₂ Stands command argv) : Obtains script values argv := by
  have hsimple : simple script = some ⟨assignments, command⟩ := by
    unfold simple
    rw [if_neg hnull, hreads, Option.bind_some]
    dsimp only
    rw [hwords]
    dsimp only
    rw [hsplit, hreserved]
    exact if_neg (by simp [hne])
  refine ⟨_, hsimple, fun w env => ?_⟩
  obtain ⟨hfields, htouched, hsilent⟩ : _ ∧ _ ∧ commandTrace w env command = [] := flatMap_fields_of_stands hargv
  obtain ⟨hassigned, hquiet⟩ := assigned_of_stands hvalues w env
  refine ⟨hassigned, ?_, ?_⟩
  · unfold SimpleCommand.invoke
    rw [hfields, htouched]
  · rw [commandTrace_eq] at hsilent
    unfold SimpleCommand.trace
    rw [List.flatMap_append, hquiet, hsilent]
    rfl

end Obtains

/-! ## Words between blanks -/

inductive Piece
  | bare (text : Text)
  | quoted (text : Text)

namespace Piece

def shown : Piece → Text
  | .bare text => text
  | .quoted text => quote text

def value : Piece → Text
  | .bare text => text
  | .quoted text => text

def word : Piece → Word
  | .bare text => text.map (.char false)
  | .quoted text => quotedParts text

end Piece

/-- A character that is neither special nor part of a pattern. -/
def isOrdinary (c : Char) : Bool :=
  !(c ∈ ['\'', '"', '\\', '$', ' ', '\t', '&', ')', '}', '*', '?', '[']) && !refused c

/-- A bare word is not empty, and has ordinary characters only. -/
def Piece.isFit : Piece → Bool
  | .bare text => !text.isEmpty && text.all isOrdinary
  | .quoted _ => true

/-- Pieces behind blanks. -/
def tailText (pieces : List Piece) : Text := pieces.flatMap fun p => ' ' :: p.shown

section Pieces

variable {p : Piece} {pieces : List Piece} {level : Level} {c : Char}

theorem step_ordinary (h : isOrdinary c = true) (level : Level) :
    step ⟨.plain, level, []⟩ c = some ⟨.plain, level.push [.char false c], []⟩ := by
  simp only [isOrdinary, List.mem_cons, List.not_mem_nil, or_false, Bool.and_eq_true, Bool.not_eq_true',
    decide_eq_false_iff_not, not_or] at h
  obtain ⟨⟨h1, h2, h3, h4, h5, h6, h7, h8, h9, -⟩, hrefused⟩ := h
  simp [step, plainStep, h1, h2, h3, h4, h5, h6, h7, h8, h9, hrefused, State.push]

theorem reads_bare {t : Text} (h : ∀ c ∈ t, isOrdinary c = true) (parts : List Part) (level : Level) :
    Reads ⟨.plain, level.push parts, []⟩ t ⟨.plain, level.push (parts ++ t.map (.char false)), []⟩ := by
  induction t generalizing parts with
  | nil =>
    rw [List.map_nil, List.append_nil]
    exact Reads.refl _
  | cons c t ih =>
    have htail := ih (fun d hd => h d (List.mem_cons_of_mem _ hd)) (parts ++ [.char false c])
    rw [List.append_assoc] at htail
    refine Reads.cons (step_ordinary (h c List.mem_cons_self) _) ?_
    rw [Level.push_push]
    exact htail

theorem reads_piece (h : p.isFit = true) (level : Level) :
    Reads ⟨.plain, level, []⟩ p.shown ⟨.plain, level.push p.word, []⟩ := by
  cases p with
  | quoted t => exact reads_quote t
  | bare t =>
    obtain ⟨hne, hall⟩ := Bool.and_eq_true_iff.1 h
    cases t with
    | nil => cases hne
    | cons c t =>
      have hall := List.all_eq_true.1 hall
      refine Reads.cons (step_ordinary (hall c List.mem_cons_self) level) ?_
      exact reads_bare (fun d hd => hall d (List.mem_cons_of_mem _ hd)) [.char false c] level

theorem stands_piece (h : p.isFit = true) : Stands p.word p.value := by
  cases p with
  | quoted t => exact stands_quoted t
  | bare t =>
    obtain ⟨hne, hall⟩ := Bool.and_eq_true_iff.1 h
    refine stands_literal (Bool.and_eq_true_iff.2 ⟨hne, List.all_eq_true.2 fun c hc => ?_⟩)
    have hordinary := List.all_eq_true.1 hall c hc
    simp only [isOrdinary, List.mem_cons, List.not_mem_nil, or_false, Bool.and_eq_true, Bool.not_eq_true',
      decide_eq_false_iff_not, not_or] at hordinary
    simp [hordinary.1.2]

theorem literalText_of_quotes {word : Word} (h : Part.quotes ∈ word) : literalText word = none := by
  unfold literalText
  induction word with
  | nil => cases h
  | cons part word ih =>
    rw [List.mapM_cons]
    rcases List.mem_cons.1 h with rfl | h
    · rfl
    · rw [ih h]
      cases part with
      | char quoted c => cases quoted <;> rfl
      | _ => rfl

theorem endWord_push (commands : Script) (words : Command) (word : Word) :
    ((⟨commands, words, none⟩ : Level).push word).endWord = ⟨commands, words ++ [word], none⟩ := by
  simp [Level.push, Level.endWord]

theorem reads_pieces (h : ∀ p ∈ pieces, p.isFit = true) (level : Level) : ∃ level' : Level,
    Reads ⟨.plain, level, []⟩ (tailText pieces) ⟨.plain, level', []⟩ ∧
      level'.endWord = ⟨level.commands, level.endWord.words ++ pieces.map Piece.word, none⟩ := by
  induction pieces generalizing level with
  | nil =>
    refine ⟨level, Reads.refl _, ?_⟩
    rw [List.map_nil, List.append_nil]
    exact level.endWord_endWord
  | cons p pieces ih =>
    have hblank : step ⟨.plain, level, []⟩ ' ' = some ⟨.plain, level.endWord, []⟩ := rfl
    obtain ⟨level', hreads, hend⟩ := ih (fun q hq => h q (List.mem_cons_of_mem _ hq)) (level.endWord.push p.word)
    refine ⟨level', ?_, ?_⟩
    · exact Reads.cons hblank ((reads_piece (h p List.mem_cons_self) _).trans hreads)
    · rw [hend, level.endWord_endWord, endWord_push, List.map_cons, List.append_assoc]
      rfl

theorem stands_pieces (h : ∀ p ∈ pieces, p.isFit = true) : List.Forall₂ Stands (pieces.map Piece.word) (pieces.map Piece.value) := by
  induction pieces with
  | nil => exact .nil
  | cons p pieces ih => exact .cons (stands_piece (h p List.mem_cons_self)) (ih fun q hq => h q (List.mem_cons_of_mem _ hq))

theorem null_not_mem_quote {t : Text} (h : Char.ofNat 0 ∉ t) : Char.ofNat 0 ∉ quote t := by
  intro hmem
  unfold quote at hmem
  rcases List.mem_cons.1 hmem with heq | hmem
  · cases heq
  · rcases List.mem_append.1 hmem with hmem | hmem
    · obtain ⟨c, hc, hmem⟩ := List.mem_flatMap.1 hmem
      unfold quoteChar at hmem
      split at hmem
      · exact absurd hmem (by decide)
      · exact h (List.mem_singleton.1 hmem ▸ hc)
    · exact absurd hmem (by decide)

theorem null_not_mem_shown (h : Char.ofNat 0 ∉ p.value) : Char.ofNat 0 ∉ p.shown := by
  cases p with
  | bare t => exact h
  | quoted t => exact null_not_mem_quote h

theorem null_not_mem_tailText (h : ∀ p ∈ pieces, Char.ofNat 0 ∉ p.value) : Char.ofNat 0 ∉ tailText pieces := by
  intro hmem
  obtain ⟨p, hp, hmem⟩ := List.mem_flatMap.1 hmem
  rcases List.mem_cons.1 hmem with heq | hmem
  · cases heq
  · exact null_not_mem_shown (h p hp) hmem

/-- A command of pieces, the first of which is a command and no assignment. -/
theorem obtains_pieces (hnull : ∀ q ∈ p :: pieces, Char.ofNat 0 ∉ q.value) (h : ∀ q ∈ p :: pieces, q.isFit = true)
    (hname : assignment? p.word = none) (hreserved : isReserved [p.word] = false) :
    Obtains (p.shown ++ tailText pieces) [] ((p :: pieces).map Piece.value) := by
  have hscript : Char.ofNat 0 ∉ p.shown ++ tailText pieces := by
    rw [List.mem_append, not_or]
    exact ⟨null_not_mem_shown (hnull p List.mem_cons_self), null_not_mem_tailText fun q hq => hnull q (List.mem_cons_of_mem _ hq)⟩
  obtain ⟨level, hreads, hend⟩ := reads_pieces (fun q hq => h q (List.mem_cons_of_mem _ hq)) (Level.start.push p.word)
  have hstart : (Level.start.push p.word).endWord = ⟨[], [p.word], none⟩ := endWord_push [] [] p.word
  rw [hstart] at hend
  have hsplit : splitAssignments (p.word :: pieces.map Piece.word) = ([], p.word :: pieces.map Piece.word) := by
    rw [splitAssignments, hname]
  exact obtains_of_reads hscript ((reads_piece (h p List.mem_cons_self) _).trans hreads) hend hreserved hsplit
    (List.cons_ne_nil _ _) .nil (stands_pieces h)

/-- A command of pieces behind an assignment. -/
theorem obtains_assigned {name value : Text} (hname : ∀ c ∈ name, c ≠ '=' ∧ isName c = true ∧ isOrdinary c = true)
    (hstart : name.head?.any isNameStart = true)
    (hvalue : Char.ofNat 0 ∉ value) (hnull : ∀ q ∈ p :: pieces, Char.ofNat 0 ∉ q.value) (h : ∀ q ∈ p :: pieces, q.isFit = true)
    (hcommand : assignment? p.word = none) :
    Obtains (name ++ '=' :: quote value ++ tailText (p :: pieces)) [(name, value)] ((p :: pieces).map Piece.value) := by
  have hne : name ≠ [] := by
    rintro rfl
    cases hstart
  have hall : (name ++ ['=']).all isOrdinary = true := by
    rw [List.all_eq_true]
    intro c hc
    rcases List.mem_append.1 hc with hc | hc
    · exact (hname c hc).2.2
    · obtain rfl := List.mem_singleton.1 hc
      decide
  have hfit : (Piece.bare (name ++ ['='])).isFit = true := Bool.and_eq_true_iff.2 ⟨by simp, hall⟩
  have hfront := (reads_piece hfit Level.start).trans (reads_quote value)
  rw [Level.push_push] at hfront
  obtain ⟨level, hreads, hend⟩ := reads_pieces h (Level.start.push ((Piece.bare (name ++ ['='])).word ++ quotedParts value))
  have hword : (Piece.bare (name ++ ['='])).word ++ quotedParts value =
      name.map (.char false) ++ .char false '=' :: quotedParts value := by simp [Piece.word]
  have hlevel : (Level.start.push ((Piece.bare (name ++ ['='])).word ++ quotedParts value)).endWord = ⟨[], [_], none⟩ :=
    endWord_push [] [] _
  rw [hlevel, hword] at hend
  have hassignment := assignment?_append (fun c hc => ⟨(hname c hc).1, (hname c hc).2.1⟩) hstart (quotedParts value)
  have hsplit : splitAssignments ((name.map (.char false) ++ .char false '=' :: quotedParts value) ::
      (p :: pieces).map Piece.word) = ([(name, quotedParts value)], (p :: pieces).map Piece.word) := by
    rw [splitAssignments, hassignment, List.map_cons, splitAssignments, hcommand]
  have hshown : Piece.shown (.bare (name ++ ['='])) ++ quote value = name ++ '=' :: quote value := by simp [Piece.shown]
  have hread := hfront.trans hreads
  rw [hshown] at hread
  have hscript : Char.ofNat 0 ∉ name ++ '=' :: quote value ++ tailText (p :: pieces) := by
    rw [List.mem_append, List.mem_append, List.mem_cons, not_or, not_or, not_or]
    exact ⟨⟨fun hmem => absurd (hname _ hmem).2.1 (by decide), by decide, null_not_mem_quote hvalue⟩, null_not_mem_tailText hnull⟩
  have hreserved : isReserved ((name.map (.char false) ++ .char false '=' :: quotedParts value) ::
      (p :: pieces).map Piece.word) = false := by
    have hquotes : Part.quotes ∈ name.map (.char false) ++ .char false '=' :: quotedParts value := by simp [quotedParts]
    unfold isReserved
    rw [List.head?_cons, Option.bind_some, literalText_of_quotes hquotes]
    rfl
  exact obtains_of_reads hscript hread hend hreserved hsplit (List.cons_ne_nil _ _) (.cons ⟨rfl, stands_quoted value⟩ .nil)
    (stands_pieces h)

end Pieces

end CocoaWay.Lib.Shell
