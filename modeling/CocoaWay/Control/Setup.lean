import CocoaWay.Control.Templates
import Mathlib.Tactic.IntervalCases

/-!
# What is read of the guided templates

* `parse_iff` : a table that is written with the escapes of JSON is read back by TOML, unless a string has a delete
  character;
* `profile_toList`, `connection_toList` : the TOML texts are the tables of their entries;
* `runWaypipe_toList`, `obtains_runWaypipe` : the command is its words, and the shell obtains them;
* `getopt_iff` : `ssh` reads its options as they are meant, unless its target begins like one;
* `templates_read` : all of this of every accepted call.
-/

namespace CocoaWay.Control
open Lib Launch JsonText
open Shell (Piece tailText)

/-! ## TOML -/

def deleteChar : Char := Char.ofNat 0x7F

def scalarText : Toml.Scalar → List Char
  | .string text => text
  | _ => []

/-- No string of the entries has a delete character. -/
def Undeleted (entries : List Toml.Entry) : Prop := ∀ e ∈ entries, ∀ x ∈ e.2.scalars, deleteChar ∉ scalarText x

/-- The text is TOML, of one table with the entries; integers have 64 bits and a sign. -/
def TomlReads (text : String) (name : String) (entries : List Toml.Entry) : Prop :=
  Toml.parse Toml.isUnescaped (2 ^ 63) text.toList = some ⟨[], [(name.toList, entries)]⟩

theorem reads_escapeText {c : Char} (h : c ≠ deleteChar) : Toml.Reads Toml.isUnescaped escapeText c := by
  intro text
  by_cases hlow : 0x20 ≤ c.toNat
  · by_cases hquote : c = '"'
    · subst hquote
      rfl
    · by_cases hslash : c = '\\'
      · subst hslash
        rfl
      · have hescape : escapeText c = [c] := by
          unfold escapeText
          rw [if_neg hquote, if_neg hslash, if_pos hlow]
        have hallowed : Toml.isUnescaped c = true := by
          have hne : c.toNat ≠ 0x7F := fun heq => h (by rw [deleteChar, ← heq, Char.ofNat_toNat])
          simp [Toml.isUnescaped, hlow, hquote, hslash, hne]
        rw [hescape, Toml.lexFrom_cons]
        show (if c = '"' then _ else if c = '\\' then _ else
          if Toml.isUnescaped c = true then some (Toml.Mode.string (c :: text), []) else none).bind _ = _
        rw [if_neg hquote, if_neg hslash, if_pos hallowed]
        rfl
  · have hn := Nat.lt_of_not_le hlow
    rw [← Char.ofNat_toNat c]
    generalize c.toNat = n at hn
    interval_cases n <;> rfl

theorem refuses_deleteChar : Toml.Refuses Toml.isUnescaped escapeText deleteChar := fun _ => rfl

theorem scalar_cases (x : Toml.Scalar) :
    (x.Reads Toml.isUnescaped escapeText ∧ deleteChar ∉ scalarText x) ∨
      (x.Refused Toml.isUnescaped escapeText ∧ deleteChar ∈ scalarText x) := by
  cases x with
  | string t =>
    by_cases h : deleteChar ∈ t
    · refine .inr ⟨⟨fun c hc => ?_, deleteChar, h, refuses_deleteChar⟩, h⟩
      by_cases hdelete : c = deleteChar
      · exact .inr (hdelete ▸ refuses_deleteChar)
      · exact .inl (reads_escapeText hdelete)
    · exact .inl ⟨fun c hc => reads_escapeText fun heq => h (heq ▸ hc), h⟩
  | integer n => exact .inl ⟨trivial, List.not_mem_nil⟩
  | boolean b => exact .inl ⟨trivial, List.not_mem_nil⟩

/-- The table is read back as it is, unless a string has a delete character. -/
theorem parse_iff (name : List Char) {entries : List Toml.Entry} (hname : Toml.isBare name = true)
    (hkeys : ∀ e ∈ entries, Toml.isBare e.1 = true) (hnodup : (entries.map Prod.fst).Nodup)
    (hfits : ∀ e ∈ entries, ∀ x ∈ e.2.scalars, x.Fits (2 ^ 63)) :
    Toml.parse Toml.isUnescaped (2 ^ 63) (Toml.shownTable escapeText name entries) = some ⟨[], [(name, entries)]⟩ ↔
      Undeleted entries := by
  constructor
  · intro hparse e he x hx hdelete
    have hrefused := ((scalar_cases x).resolve_left fun hreads => hreads.2 hdelete).1
    have hnone : Toml.parse Toml.isUnescaped (2 ^ 63) (Toml.shownTable escapeText name entries) = none := by
      refine Toml.parse_shownTable_none hname hkeys (fun e he x hx => (scalar_cases x).imp And.left And.left)
        ⟨e, he, x, hx, fun hread => ?_⟩
      have hshown := Toml.lexFrom_scalar_none hrefused [',']
      rw [Toml.lexFrom_scalar hread.1 (c := ',') (by decide) (by decide)] at hshown
      cases hshown
    rw [hnone] at hparse
    cases hparse
  · intro hplain
    refine Toml.parse_shownTable hname hkeys hnodup fun e he x hx => ⟨?_, hfits e he x hx⟩
    exact ((scalar_cases x).resolve_right fun hrefused => hplain e he x hx hrefused.2).1

/-! ## The TOML texts -/

theorem tomlString_toList (value : String) : (tomlString value).toList = Toml.quoted escapeText value.toList := by
  simp [tomlString, Toml.quoted, String.toList_append]

theorem shownEntry_text (key value : String) :
    Toml.shownEntry escapeText (textEntry key value) = (key ++ " = " ++ tomlString value ++ "\n").toList := by
  simp [Toml.shownEntry, Toml.shownValue, Toml.shownScalar, textEntry, String.toList_append, tomlString_toList]

theorem shownEntry_audio (audio : Bool) : Toml.shownEntry escapeText ("audio".toList, .scalar (.boolean audio)) =
    ("audio = " ++ (if audio then "true" else "false") ++ "\n").toList := by
  cases audio <;> rfl

theorem shownEntry_port (port : Nat) : Toml.shownEntry escapeText ("port".toList, .scalar (.integer port)) =
    ("port = " ++ toString port ++ "\n").toList := by
  simp [Toml.shownEntry, Toml.shownValue, Toml.shownScalar, String.toList_append]

theorem joinLines_toList {lines : List String} (hne : lines ≠ []) :
    (joinLines lines).toList = lines.flatMap fun line => (line ++ "\n").toList := by
  have hcons : ∀ (line : String) (lines : List String),
      ("\n".intercalate (line :: lines) ++ "\n").toList = (line :: lines).flatMap fun line =>
        (line ++ "\n").toList := by
    intro line lines
    induction lines generalizing line with
    | nil => simp [String.toList_append]
    | cons next lines ih =>
      rw [List.flatMap_cons, ← ih]
      simp [String.toList_append]
  cases lines with
  | nil => exact absurd rfl hne
  | cons line lines => exact hcons line lines

/-- Entries that follow one another are the lines of each. -/
theorem shownTable_lines (name : String) {entries : List Toml.Entry} {lines : List String}
    (h : List.Forall₂ (fun e line => Toml.shownEntry escapeText e = (line ++ "\n").toList) entries lines) :
    Toml.shownTable escapeText name.toList entries = (joinLines (("[[" ++ name ++ "]]") :: lines)).toList := by
  have hentries : entries.flatMap (Toml.shownEntry escapeText) = lines.flatMap fun line => (line ++ "\n").toList := by
    induction h with
    | nil => rfl
    | cons hhead _ ih => rw [List.flatMap_cons, List.flatMap_cons, hhead, ih]
  rw [joinLines_toList (List.cons_ne_nil _ _), List.flatMap_cons, ← hentries]
  simp [Toml.shownTable, String.toList_append]

section Templates

variable {arguments : Json} {r : ToolResult}

theorem requiredText_ok {key value : String} (h : requiredText arguments key = .ok value) (default : String) :
    value = textOr arguments key default ∧ givenText arguments key = some value := by
  unfold requiredText at h
  rw [optionalText_eq] at h
  rw [textOr_eq]
  split at h
  next value' hgiven =>
    obtain rfl := Except.ok.inj h
    exact ⟨by rw [hgiven]; rfl, hgiven⟩
  next => cases h

theorem applicationTemplate_ok (h : applicationTemplate arguments = .ok r) : r = .applicationTemplate
    (textOr arguments "name" "Linux Application") (textOr arguments "image" "") (textOr arguments "command" "")
    (textOr arguments "presentation" "rootless") (textOr arguments "display" "auto") (audioOf arguments) := by
  unfold applicationTemplate at h
  obtain ⟨image, himage, h⟩ := ok_of_bind h
  obtain ⟨command, hcommand, h⟩ := ok_of_bind h
  dsimp only at h
  split at h
  · cases h
  · obtain rfl := Except.ok.inj h
    obtain ⟨rfl, -⟩ := requiredText_ok himage ""
    obtain ⟨rfl, -⟩ := requiredText_ok hcommand ""
    simp only [textOr_eq, optionalText_eq, audioOf]

theorem profile_toList (h : applicationTemplate arguments = .ok r) : ∃ text, r.profile = some text ∧
    text.toList = Toml.shownTable escapeText "session".toList (profileFields arguments) := by
  rw [applicationTemplate_ok h]
  refine ⟨_, rfl, ?_⟩
  have hruntime : Toml.shownEntry escapeText (textEntry "runtime" "container") =
    "runtime = \"container\"\n".toList := by
    decide +kernel
  unfold Toml.shownTable profileFields
  simp only [List.flatMap_cons, List.flatMap_nil, shownEntry_text, shownEntry_audio, hruntime, String.toList_append]
  simp

theorem connectionTemplate_ok (h : connectionTemplate arguments = .ok r) :
    (isSsh arguments = true ∧ textOr arguments "type" "ssh" = "ssh" ∧ portOf arguments ≤ 65535 ∧
      r = .sshTemplate (textOr arguments "name" "Linux Machine") (textOr arguments "host" "")
        (givenText arguments "user")
        (portOf arguments) (givenText arguments "identity") (textOr arguments "command" "foot")
        (textOr arguments "display" "default") (textOr arguments "compression" "zstd")) ∨
    (isSsh arguments = false ∧ textOr arguments "type" "ssh" = "local" ∧
      r = .localTemplate (textOr arguments "name" "Linux Machine") (textOr arguments "socket" "")
        (textOr arguments "command" "foot") (textOr arguments "display" "default")
        (textOr arguments "compression" "zstd")) := by
  unfold connectionTemplate at h
  dsimp only at h
  simp only [optionalText_eq, ← textOr_eq] at h
  split at h
  · cases h
  next htype =>
    simp only [List.mem_cons, List.not_mem_nil, or_false, not_not] at htype
    by_cases hssh : textOr arguments "type" "ssh" = "ssh"
    · left
      rw [if_pos hssh] at h
      obtain ⟨host, hhost, h⟩ := ok_of_bind h
      obtain ⟨rfl, -⟩ := requiredText_ok hhost ""
      split at h
      · cases h
      next hport =>
        obtain rfl := Except.ok.inj h
        exact ⟨decide_eq_true hssh, hssh, (not_not.1 hport).2, rfl⟩
    · right
      rw [if_neg hssh] at h
      obtain ⟨socket, hsocket, h⟩ := ok_of_bind h
      obtain ⟨rfl, -⟩ := requiredText_ok hsocket ""
      obtain rfl := Except.ok.inj h
      exact ⟨decide_eq_false hssh, htype.resolve_left hssh, rfl⟩

theorem connection_toList (h : connectionTemplate arguments = .ok r) : ∃ text, r.connection = some text ∧
    text.toList = Toml.shownTable escapeText "connection".toList (connectionFields arguments) := by
  obtain ⟨hssh, htype, -, rfl⟩ | ⟨hssh, htype, rfl⟩ := connectionTemplate_ok h
  · refine ⟨_, rfl, (shownTable_lines "connection" ?_).symm⟩
    unfold connectionFields
    rw [hssh, if_pos rfl, htype]
    have hport := shownEntry_port (portOf arguments)
    cases givenText arguments "user" with
    | none =>
      cases givenText arguments "identity" with
      | none => simpa [shownEntry_text] using hport
      | some identity => simpa [shownEntry_text] using hport
    | some user =>
      cases givenText arguments "identity" with
      | none => simpa [shownEntry_text] using hport
      | some identity => simpa [shownEntry_text] using hport
  · refine ⟨_, rfl, (shownTable_lines "connection" ?_).symm⟩
    unfold connectionFields
    rw [hssh, htype]
    simp [shownEntry_text]

/-! ## The command -/

theorem shellQuote_toList (value : String) : (shellQuote value).toList = Shell.quote value.toList := by
  simp only [shellQuote, Shell.quote, String.toList_append, String.toList_ofList]
  rfl

/-- The words of the command, as they stand in it. -/
def commandPieces (arguments : Json) : List Piece :=
  [.bare "--display".toList, .quoted (textOr arguments "display" "default").toList] ++
    if isSsh arguments then
      [.bare "ssh".toList, .bare "-p".toList, .bare (toString (portOf arguments)).toList] ++
        ((givenText arguments "identity").map fun identity =>
          [Piece.bare "-i".toList, .quoted identity.toList]).getD [] ++
        [.quoted (targetOf arguments).toList, .quoted (textOr arguments "command" "foot").toList]
    else [.bare "--socket".toList, .quoted (textOr arguments "socket" "").toList, .bare "client".toList]

def scriptPiece : Piece := .bare "./run_waypipe.sh".toList

theorem commandPieces_value (arguments : Json) :
    (scriptPiece :: commandPieces arguments).map Piece.value = meantWords arguments := by
  unfold commandPieces meantWords sshArguments
  by_cases hssh : isSsh arguments = true
  · rw [if_pos hssh, if_pos hssh]
    cases givenText arguments "identity" <;> rfl
  · rw [if_neg hssh, if_neg hssh]
    rfl

theorem digits_ordinary (n : Nat) : (Piece.bare (toString n).toList).isFit = true := by
  have hdigit : ∀ c ∈ (toString n).toList, Shell.isOrdinary c = true := by
    intro c hc
    rw [Nat.toString_eq_repr, Nat.toList_repr] at hc
    have hdigit := Nat.isDigit_of_mem_toDigits (by decide) (by decide) hc
    have hlow : 48 ≤ c.toNat ∧ c.toNat ≤ 57 := by
      simpa [Char.isDigit, UInt32.le_iff_toNat_le] using hdigit
    rw [← Char.ofNat_toNat c]
    have hall : ∀ m, m ≤ 57 → 48 ≤ m → Shell.isOrdinary (Char.ofNat m) = true := by decide
    exact hall c.toNat hlow.2 hlow.1
  exact Bool.and_eq_true_iff.2 ⟨by simp, List.all_eq_true.2 hdigit⟩

theorem commandPieces_fit (arguments : Json) : ∀ p ∈ scriptPiece :: commandPieces arguments, p.isFit = true := by
  have hport := digits_ordinary (portOf arguments)
  have hquoted : ∀ t, (Piece.quoted t).isFit = true := fun _ => rfl
  unfold commandPieces scriptPiece
  by_cases hssh : isSsh arguments = true
  · rw [if_pos hssh]
    cases givenText arguments "identity" with
    | none =>
      simp only [Option.map_none, Option.getD_none, List.cons_append, List.nil_append, List.append_nil,
        List.forall_mem_cons]
      exact ⟨by decide, by decide, hquoted _, by decide, by decide, hport, hquoted _, hquoted _, nofun⟩
    | some identity =>
      simp only [Option.map_some, Option.getD_some, List.cons_append, List.nil_append, List.forall_mem_cons]
      exact ⟨by decide, by decide, hquoted _, by decide, by decide, hport, by decide, hquoted _, hquoted _, hquoted _, nofun⟩
  · rw [if_neg hssh]
    simp only [List.cons_append, List.nil_append, List.forall_mem_cons]
    exact ⟨by decide, by decide, hquoted _, by decide, hquoted _, by decide, nofun⟩

theorem runWaypipe_toList (h : connectionTemplate arguments = .ok r) : ∃ text, r.runWaypipe = some text ∧ text.toList =
    if isSsh arguments then
      "COCOA_WAY_COMPRESS".toList ++ '=' :: Shell.quote (textOr arguments "compression" "zstd").toList ++
        tailText (scriptPiece :: commandPieces arguments)
    else scriptPiece.shown ++ tailText (commandPieces arguments) := by
  obtain ⟨hssh, -, -, rfl⟩ | ⟨hssh, -, rfl⟩ := connectionTemplate_ok h
  · refine ⟨_, rfl, ?_⟩
    unfold commandPieces
    rw [hssh, if_pos rfl, if_pos rfl]
    cases givenText arguments "identity" <;>
      simp [String.toList_append, shellQuote_toList, tailText, Piece.shown, scriptPiece, targetOf]
  · refine ⟨_, rfl, ?_⟩
    unfold commandPieces
    rw [hssh]
    simp [String.toList_append, shellQuote_toList, tailText, Piece.shown, scriptPiece]

/-- No text among the arguments has a null character. -/
def NullFree (arguments : Json) : Prop := ∀ key s, arguments.get key = some (.string s) → Char.ofNat 0 ∉ s.toList

theorem mem_of_mem_trim {s : String} {c : Char} (h : c ∈ (trim s).toList) : c ∈ s.toList := by
  unfold trim at h
  rw [String.toList_ofList] at h
  have hback := List.mem_reverse.1 ((List.dropWhile_sublist isWhitespace).subset (List.mem_reverse.1 h))
  exact (List.dropWhile_sublist isWhitespace).subset hback

theorem null_not_mem_givenText (h : NullFree arguments) {key value : String}
    (hvalue : givenText arguments key = some value) :
    Char.ofNat 0 ∉ value.toList := by
  unfold givenText at hvalue
  split at hvalue
  next s hget =>
    split at hvalue
    · cases hvalue
    · obtain rfl := Option.some.inj hvalue
      exact fun hmem => h key s hget (mem_of_mem_trim hmem)
  next => cases hvalue

theorem null_not_mem_textOr (h : NullFree arguments) (key : String) {default : String}
    (hdefault : Char.ofNat 0 ∉ default.toList) :
    Char.ofNat 0 ∉ (textOr arguments key default).toList := by
  rw [textOr_eq]
  cases hgiven : givenText arguments key with
  | none => exact hdefault
  | some value => exact null_not_mem_givenText h hgiven

theorem null_not_mem_target (h : NullFree arguments) : Char.ofNat 0 ∉ (targetOf arguments).toList := by
  have hhost : Char.ofNat 0 ∉ (textOr arguments "host" "").toList := null_not_mem_textOr h "host" (by decide)
  unfold targetOf sshTarget
  split
  next user hgiven =>
    have huser := null_not_mem_givenText h hgiven
    rw [String.toList_append, String.toList_append, List.mem_append, List.mem_append, not_or, not_or]
    exact ⟨⟨huser, by decide⟩, hhost⟩
  next => exact hhost

theorem commandPieces_null (h : NullFree arguments) :
    ∀ p ∈ scriptPiece :: commandPieces arguments, Char.ofNat 0 ∉ p.value := by
  have hport : Char.ofNat 0 ∉ (toString (portOf arguments)).toList := by
    intro hmem
    rw [Nat.toString_eq_repr, Nat.toList_repr] at hmem
    exact absurd (Nat.isDigit_of_mem_toDigits (by decide) (by decide) hmem) (by decide)
  have hdisplay : Char.ofNat 0 ∉ (textOr arguments "display" "default").toList :=
    null_not_mem_textOr h "display" (by decide)
  have hcommand : Char.ofNat 0 ∉ (textOr arguments "command" "foot").toList :=
    null_not_mem_textOr h "command" (by decide)
  have hsocket : Char.ofNat 0 ∉ (textOr arguments "socket" "").toList := null_not_mem_textOr h "socket" (by decide)
  unfold commandPieces scriptPiece
  by_cases hssh : isSsh arguments = true
  · rw [if_pos hssh]
    cases hidentity : givenText arguments "identity" with
    | none =>
      simp only [Option.map_none, Option.getD_none, List.cons_append, List.nil_append, List.append_nil,
        List.forall_mem_cons]
      exact ⟨by decide, by decide, hdisplay, by decide, by decide, hport, null_not_mem_target h, hcommand, nofun⟩
    | some identity =>
      simp only [Option.map_some, Option.getD_some, List.cons_append, List.nil_append, List.forall_mem_cons]
      exact ⟨by decide, by decide, hdisplay, by decide, by decide, hport, by decide, null_not_mem_givenText h hidentity,
        null_not_mem_target h, hcommand, nofun⟩
  · rw [if_neg hssh]
    simp only [List.cons_append, List.nil_append, List.forall_mem_cons]
    exact ⟨by decide, by decide, hdisplay, by decide, hsocket, by decide, nofun⟩

theorem compress_name : ∀ c ∈ "COCOA_WAY_COMPRESS".toList,
    c ≠ '=' ∧ Shell.isName c = true ∧ Shell.isOrdinary c = true := by
  have hall : ("COCOA_WAY_COMPRESS".toList.all fun c => c != '=' && (Shell.isName c && Shell.isOrdinary c)) = true := by
    decide
  intro c hc
  have h := List.all_eq_true.1 hall c hc
  rwa [Bool.and_eq_true, Bool.and_eq_true, bne_iff_ne] at h

/-- The shell obtains the assignment and the words, whatever the arguments are. -/
theorem obtains_runWaypipe (hnull : NullFree arguments) (h : connectionTemplate arguments = .ok r) :
    ∃ text, r.runWaypipe = some text ∧
      Shell.Obtains text.toList (meantAssignments arguments) (meantWords arguments) := by
  obtain ⟨text, htext, hlist⟩ := runWaypipe_toList h
  refine ⟨text, htext, ?_⟩
  have hnone : Shell.assignment? scriptPiece.word = none := by decide
  rw [hlist, ← commandPieces_value, meantAssignments]
  by_cases hssh : isSsh arguments = true
  · rw [if_pos hssh, if_pos hssh]
    exact Shell.obtains_assigned compress_name (by decide) (null_not_mem_textOr hnull _ (by decide))
      (commandPieces_null hnull) (commandPieces_fit arguments) hnone
  · rw [if_neg hssh, if_neg hssh]
    exact Shell.obtains_pieces (commandPieces_null hnull) (commandPieces_fit arguments) hnone (by decide)

/-! ## Options of `ssh` -/

/-- The letters of `ssh` that take an argument, among them those of the port and the identity. -/
structure SshLetters where
  takes : Char → Bool
  port : takes 'p' = true
  identity : takes 'i' = true

/-- `ssh` reads its options and its target as they are meant. -/
def SshReads (ssh : SshLetters) (arguments : Json) : Prop :=
  Getopt.getopt ssh.takes (sshArguments arguments) =
    some (sshOptions arguments, [(targetOf arguments).toList, (textOr arguments "command" "foot").toList])

theorem sshReads_iff (ssh : SshLetters) (arguments : Json) :
    SshReads ssh arguments ↔ Getopt.isOption (targetOf arguments).toList = false := by
  have hoperands : Getopt.getopt ssh.takes [(targetOf arguments).toList, (textOr arguments "command" "foot").toList] =
      some ([], [(targetOf arguments).toList, (textOr arguments "command" "foot").toList]) ↔
      Getopt.isOption (targetOf arguments).toList = false := by
    constructor
    · intro hread
      by_contra hoption
      exact Getopt.getopt_option (Bool.not_eq_false _ ▸ hoption) _ hread
    · exact fun hoperand => Getopt.getopt_operand hoperand
  rw [← hoperands]
  unfold SshReads sshArguments sshOptions
  cases givenText arguments "identity" with
  | none => exact Getopt.getopt_separate_iff ssh.port (by decide)
  | some identity =>
    exact (Getopt.getopt_separate_iff ssh.port (by decide)).trans (Getopt.getopt_separate_iff ssh.identity (by decide))

/-! ## Accepted calls -/

/-- The validator accepts the arguments of a call of the tool. -/
def Accepted (allowControl : Bool) (name : String) (arguments : Json) : Prop :=
  ∃ tool, findTool allowControl name = some tool ∧ validateArguments arguments tool.inputSchema "arguments" = .ok ()

theorem null_not_mem_validated {s field : String} {schema : Json}
    (h : validateArguments (.string s) schema field = .ok ()) :
    Char.ofNat 0 ∉ s.toList := by
  unfold validateArguments at h
  split at h
  · obtain ⟨_, hstring, _⟩ := ok_of_bind h
    unfold checkString at hstring
    dsimp only at hstring
    split at hstring
    · cases hstring
    next hok =>
      simp only [Bool.or_eq_true, not_or] at hok
      simpa using hok.1.1
  · cases h

theorem nullFree_of_accepted {allowControl : Bool} {name : String} (h : Accepted allowControl name arguments) :
    NullFree arguments := by
  obtain ⟨tool, htool, hvalid⟩ := h
  have hobject : ∀ allowControl, ((tools allowControl).all fun tool => schemaType tool.inputSchema = some "object") =
    true := by
    decide
  have htype := of_decide_eq_true (List.all_eq_true.1 (hobject allowControl) tool (List.mem_of_find?_eq_some htool))
  intro key s hget
  obtain ⟨property, -, hproperty⟩ := validated_entry hvalid htype hget
  exact null_not_mem_validated hproperty

/-- The profile is TOML, and its values are those that are meant. -/
def ProfileSound (arguments : Json) (r : ToolResult) : Prop :=
  ∃ text, r.profile = some text ∧ TomlReads text "session" (profileFields arguments)

/-- The connection is TOML, and its values are those that are meant; the shell obtains the assignment and the words
that are meant of the command, and `ssh` its options and its target. -/
structure ConnectionSound (ssh : SshLetters) (arguments : Json) (r : ToolResult) : Prop where
  toml : ∃ text, r.connection = some text ∧ TomlReads text "connection" (connectionFields arguments)
  shell : ∃ text, r.runWaypipe = some text ∧
    Shell.Obtains text.toList (meantAssignments arguments) (meantWords arguments)
  ssh : isSsh arguments = true → SshReads ssh arguments

theorem profileSound_iff (h : applicationTemplate arguments = .ok r) :
    ProfileSound arguments r ↔ Undeleted (profileFields arguments) := by
  obtain ⟨text, htext, hlist⟩ := profile_toList h
  have hkeys : ∀ e ∈ profileFields arguments, Toml.isBare e.1 = true := by
    unfold profileFields
    simp only [textEntry, List.forall_mem_cons]
    exact ⟨by decide, by decide, by decide, by decide, by decide, by decide, by decide, by decide, nofun⟩
  have hnodup : ((profileFields arguments).map Prod.fst).Nodup := by
    unfold profileFields
    simp only [textEntry, List.map_cons, List.map_nil]
    decide
  have hfits : ∀ e ∈ profileFields arguments, ∀ x ∈ e.2.scalars, x.Fits (2 ^ 63) := by
    unfold profileFields
    simp [textEntry, Toml.Value.scalars, Toml.Scalar.Fits]
  rw [← parse_iff "session".toList (by decide) hkeys hnodup hfits, ← hlist]
  constructor
  · rintro ⟨text', htext', hread⟩
    rw [htext] at htext'
    obtain rfl := Option.some.inj htext'
    exact hread
  · exact fun hread => ⟨text, htext, hread⟩

theorem connectionFields_bare (arguments : Json) : ∀ e ∈ connectionFields arguments, Toml.isBare e.1 = true := by
  unfold connectionFields
  by_cases hssh : isSsh arguments = true
  · rw [if_pos hssh]
    cases givenText arguments "user" <;> cases givenText arguments "identity" <;> simp [textEntry] <;> decide
  · rw [if_neg hssh]
    simp [textEntry]
    decide

theorem connectionFields_nodup (arguments : Json) : ((connectionFields arguments).map Prod.fst).Nodup := by
  unfold connectionFields
  by_cases hssh : isSsh arguments = true
  · rw [if_pos hssh]
    cases givenText arguments "user" <;> cases givenText arguments "identity" <;> simp [textEntry]
  · rw [if_neg hssh]
    simp [textEntry]

theorem connectionFields_fits (h : portOf arguments ≤ 65535 ∨ isSsh arguments = false) :
    ∀ e ∈ connectionFields arguments, ∀ x ∈ e.2.scalars, x.Fits (2 ^ 63) := by
  unfold connectionFields
  obtain hport | hssh := h
  · have hlt : portOf arguments < 2 ^ 63 := lt_of_le_of_lt hport (by decide)
    split
    · cases givenText arguments "user" <;> cases givenText arguments "identity" <;>
        simpa [textEntry, Toml.Value.scalars, Toml.Scalar.Fits] using hlt
    · simp [textEntry, Toml.Value.scalars, Toml.Scalar.Fits]
  · rw [hssh]
    simp [textEntry, Toml.Value.scalars, Toml.Scalar.Fits]

theorem connectionSound_iff (ssh : SshLetters) (hnull : NullFree arguments) (h : connectionTemplate arguments = .ok r) :
    ConnectionSound ssh arguments r ↔ Undeleted (connectionFields arguments) ∧
      (isSsh arguments = true → Getopt.isOption (targetOf arguments).toList = false) := by
  obtain ⟨text, htext, hlist⟩ := connection_toList h
  have hport : portOf arguments ≤ 65535 ∨ isSsh arguments = false :=
    (connectionTemplate_ok h).imp (fun hssh => hssh.2.2.1) fun hlocal => hlocal.1
  rw [← parse_iff "connection".toList (by decide) (connectionFields_bare arguments) (connectionFields_nodup arguments)
    (connectionFields_fits hport), ← hlist]
  constructor
  · rintro ⟨⟨text', htext', hread⟩, -, hssh⟩
    rw [htext] at htext'
    obtain rfl := Option.some.inj htext'
    exact ⟨hread, fun hkind => (sshReads_iff ssh arguments).1 (hssh hkind)⟩
  · rintro ⟨hread, hssh⟩
    exact ⟨⟨text, htext, hread⟩, obtains_runWaypipe hnull h, fun hkind => (sshReads_iff ssh arguments).2 (hssh hkind)⟩

/-- The profile of an accepted call is what is meant if and only if no text of it has a delete character; the
connection and its command are, if besides the target of `ssh` does not begin like an option. -/
theorem templates_read (allowControl : Bool) (ssh : SshLetters) (arguments : Json) (r : ToolResult) :
    (Accepted allowControl "cocoa_way_application_template" arguments → applicationTemplate arguments = .ok r →
      (ProfileSound arguments r ↔ Undeleted (profileFields arguments))) ∧
    (Accepted allowControl "cocoa_way_connection_template" arguments → connectionTemplate arguments = .ok r →
      (ConnectionSound ssh arguments r ↔ Undeleted (connectionFields arguments) ∧
        (isSsh arguments = true → Getopt.isOption (targetOf arguments).toList = false))) :=
  ⟨fun _ h => profileSound_iff h, fun haccepted h => connectionSound_iff ssh (nullFree_of_accepted haccepted) h⟩

end Templates

/-! ## Calls that are accepted -/

/-- A command with a delete character. -/
def deletedCall : Json := .object [("image", .string "foot:1"), ("command", .string "foot\x7F")]

/-- A host that is an option. -/
def optionCall : Json := .object [("host", .string "-oProxyCommand=true")]

def sshCall : Json := .object [("host", .string "linux-host"), ("user", .string "way"),
    ("identity", .string "it's mine")]

def opensshLetters : SshLetters := ⟨fun c => c ∈ "BbcDEeFIiJLlmOopPQRSWw".toList, by decide, by decide⟩

theorem accepted_calls : Accepted false "cocoa_way_application_template" deletedCall ∧
    Accepted false "cocoa_way_connection_template" optionCall ∧
      Accepted false "cocoa_way_connection_template" sshCall :=
  ⟨⟨_, rfl, by decide +kernel⟩, ⟨_, rfl, by decide +kernel⟩, ⟨_, rfl, by decide +kernel⟩⟩

/-- A profile that is no TOML, and a command that hands `ssh` an option in place of a host. -/
theorem templates_misread :
    (∃ r, Accepted false "cocoa_way_application_template" deletedCall ∧ applicationTemplate deletedCall = .ok r ∧
      ¬ProfileSound deletedCall r) ∧
    ∃ r, Accepted false "cocoa_way_connection_template" optionCall ∧ connectionTemplate optionCall = .ok r ∧
      ¬ConnectionSound opensshLetters optionCall r := by
  obtain ⟨hdeleted, hoption, -⟩ := accepted_calls
  refine ⟨⟨_, hdeleted, rfl, ?_⟩, ⟨_, hoption, rfl, ?_⟩⟩
  · rw [profileSound_iff rfl]
    intro hplain
    have hcommand : textEntry "command" "foot\x7F" ∈ profileFields deletedCall := by decide
    exact hplain _ hcommand _ List.mem_cons_self (by decide)
  · rw [connectionSound_iff _ (nullFree_of_accepted hoption) rfl]
    exact fun hand => absurd (hand.2 (by decide)) (by decide)

/-- A connection whose texts are what is meant. -/
theorem templates_read_ssh : ∃ r, connectionTemplate sshCall = .ok r ∧ ConnectionSound opensshLetters sshCall r :=
  ⟨_, rfl, ((templates_read false opensshLetters sshCall _).2 accepted_calls.2.2 rfl).2
    ⟨by unfold Undeleted; decide, fun _ => by decide⟩⟩

end CocoaWay.Control
