import CocoaWay.Lib.ShellExpansion
import CocoaWay.Sessions.Plan

/-!
# The server command of a container

* `shellSingleQuote`, `shellArgs`, `buildServerCommand` : the text that the shell of a container is given;
* `serverScript`, `parse_buildServerCommand` : the script that the text is read as;
* `invoke_export`, `invoke_dirname`, `invoke_mkdir`, `invoke_exec` : its commands, with their arguments;
* `SeesValues`, `server_command_values` : when every value reaches its command unchanged.
-/

namespace CocoaWay.Sessions

open Lib

/-! ## The text -/

/-- `shell_single_quote`. -/
def shellSingleQuote (value : String) : String :=
  "'" ++ String.ofList (value.toList.flatMap fun c => if c = '\'' then "'\\''".toList else [c]) ++ "'"

def shellArgs (args : List String) : String :=
  if args.isEmpty then "" else " " ++ " ".intercalate (args.map shellSingleQuote)

def buildServerCommand (containerSocket command : String) (waypipeArgs : List String) : String :=
  let containerSocket := shellSingleQuote containerSocket
  let command := shellSingleQuote ("sleep 0.35; exec " ++ command)
  let runtimeDir := shellSingleQuote defaultGuestRuntimeDir
  let waypipeArgs := shellArgs waypipeArgs
  "export XDG_RUNTIME_DIR=$\x7bXDG_RUNTIME_DIR:-" ++ runtimeDir ++ "\x7d && mkdir -p \"$XDG_RUNTIME_DIR\" $(dirname " ++
    containerSocket ++ ") && exec waypipe" ++ waypipeArgs ++ " --socket " ++ containerSocket ++ " server sh -lc " ++ command

/-! ## The script -/

open Shell (Part Word Script Level Frame Reads)

/-- A word of unquoted characters. -/
def literal (word : String) : Word := word.toList.map (.char false)

def runtimeDirName : Shell.Text := "XDG_RUNTIME_DIR".toList

def exportCommand : Shell.Command :=
  [literal "export",
    literal "XDG_RUNTIME_DIR=" ++ [.param false runtimeDirName (Shell.quotedParts defaultGuestRuntimeDir.toList)]]

def mkdirCommand (directory : Word) : Shell.Command :=
  [literal "mkdir", literal "-p", [.quotes, .param true runtimeDirName []], directory]

def dirnameCommand (containerSocket : String) : Shell.Command :=
  [literal "dirname", Shell.quotedParts containerSocket.toList]

def execCommand (containerSocket command : String) (waypipeArgs : List String) : Shell.Command :=
  [literal "exec", literal "waypipe"] ++ waypipeArgs.map (fun arg => Shell.quotedParts arg.toList) ++
    [literal "--socket", Shell.quotedParts containerSocket.toList, literal "server", literal "sh", literal "-lc",
      Shell.quotedParts ("sleep 0.35; exec " ++ command).toList]

def serverScript (containerSocket command : String) (waypipeArgs : List String) : Script :=
  [exportCommand, mkdirCommand [.subst false [dirnameCommand containerSocket]],
    execCommand containerSocket command waypipeArgs]

section Parse

variable {containerSocket command : String} {waypipeArgs : List String} {level : Level} {frames : List Frame}

theorem shellSingleQuote_toList (value : String) : (shellSingleQuote value).toList = Shell.quote value.toList := by
  simp only [shellSingleQuote, Shell.quote, String.toList_append, String.toList_ofList]
  rfl

theorem shellArgs_toList (args : List String) :
    (shellArgs args).toList = (args.map String.toList).flatMap fun arg => ' ' :: Shell.quote arg := by
  induction args with
  | nil => rfl
  | cons arg args ih =>
    rw [List.map_cons, List.flatMap_cons, ← ih]
    simp only [shellArgs, List.isEmpty_cons, List.map_cons]
    cases args with
    | nil => simp [shellSingleQuote_toList]
    | cons arg' args =>
      simp [shellSingleQuote_toList]

set_option maxRecDepth 20000 in
theorem reads_export : Reads .start "export XDG_RUNTIME_DIR=$\x7bXDG_RUNTIME_DIR:-".toList
    ⟨.plain, .start, [.default runtimeDirName ⟨[], [literal "export"], some (literal "XDG_RUNTIME_DIR=")⟩]⟩ := rfl

set_option maxRecDepth 20000 in
theorem reads_mkdir : Reads
    ⟨.plain, Level.start.push (Shell.quotedParts defaultGuestRuntimeDir.toList),
      [.default runtimeDirName ⟨[], [literal "export"], some (literal "XDG_RUNTIME_DIR=")⟩]⟩
    "\x7d && mkdir -p \"$XDG_RUNTIME_DIR\" $(dirname ".toList
    ⟨.plain, ⟨[], [literal "dirname"], none⟩, [.subst false ⟨[exportCommand], (mkdirCommand []).dropLast, none⟩]⟩ := rfl

set_option maxRecDepth 20000 in
theorem reads_exec : Reads
    ⟨.plain, (⟨[], [literal "dirname"], none⟩ : Level).push (Shell.quotedParts containerSocket.toList),
      [.subst false ⟨[exportCommand], (mkdirCommand []).dropLast, none⟩]⟩
    ") && exec waypipe".toList
    ⟨.plain, ⟨[exportCommand, mkdirCommand [.subst false [dirnameCommand containerSocket]]], [literal "exec"],
      some (literal "waypipe")⟩, []⟩ := rfl

theorem reads_socket {commands : Script} {words : Shell.Command} (h : level.endWord = ⟨commands, words, none⟩) :
    Reads ⟨.plain, level, []⟩ " --socket ".toList ⟨.plain, ⟨commands, words ++ [literal "--socket"], none⟩, []⟩ := by
  have hblank : Shell.step ⟨.plain, level, []⟩ ' ' = some ⟨.plain, ⟨commands, words, none⟩, []⟩ := by
    rw [← h]
    rfl
  exact Reads.cons hblank rfl

theorem reads_server {commands : Script} {words : Shell.Command} : Reads
    ⟨.plain, (⟨commands, words, none⟩ : Level).push (Shell.quotedParts containerSocket.toList),
      []⟩ " server sh -lc ".toList
    ⟨.plain, ⟨commands, words ++ [Shell.quotedParts containerSocket.toList] ++ [literal "server"] ++ [literal "sh"] ++
      [literal "-lc"], none⟩, []⟩ := rfl

/-- The text is read as the script it is meant to be, whatever the values are. -/
theorem parse_buildServerCommand : Shell.parse (buildServerCommand containerSocket command waypipeArgs).toList =
    some (serverScript containerSocket command waypipeArgs) := by
  obtain ⟨level, hargs, hlevel⟩ := Shell.reads_quotes (waypipeArgs.map String.toList)
    ⟨[exportCommand, mkdirCommand [.subst false [dirnameCommand containerSocket]]], [literal "exec"],
      some (literal "waypipe")⟩
  have hsocket := reads_socket hlevel
  have hmkdir := (reads_export.trans (Shell.reads_quote defaultGuestRuntimeDir.toList)).trans reads_mkdir
  have hexec := (hmkdir.trans (Shell.reads_quote containerSocket.toList)).trans reads_exec
  have hserver := (((hexec.trans hargs).trans hsocket).trans (Shell.reads_quote containerSocket.toList)).trans reads_server
  have hread := hserver.trans (Shell.reads_quote ("sleep 0.35; exec ".toList ++ command.toList))
  unfold buildServerCommand
  simp only [String.toList_append, shellSingleQuote_toList, shellArgs_toList]
  refine Shell.parse_of_reads hread ((Shell.finish_push_quoted _ rfl).trans ?_)
  simp [serverScript, execCommand, Shell.Level.endWord]

end Parse

/-! ## What the shell runs -/

/-- What a shell finds in the container: `dirname` prints the directory of a path and a newline. -/
def container (dirname : Shell.Text → Shell.Text) (files : List Shell.Text)
    (isMatch : List Shell.Atom → Shell.Text → Bool) : Shell.World where
  output := fun argv =>
    match argv with
    | [name, path] => if name = "dirname".toList then dirname path ++ ['\n'] else []
    | _ => []
  files := files
  isMatch := isMatch

/-- The runtime directory of the container, or the default. -/
def runtimeDir (env : Shell.Env) : Shell.Text :=
  ((env runtimeDirName).filter (· ≠ [])).getD defaultGuestRuntimeDir.toList

/-- The shell runs four commands, each value is one argument of those it is meant for, and no character of a value is
split at or taken for a pattern. -/
def SeesValues (dirname : Shell.Text → Shell.Text) (files : List Shell.Text)
    (isMatch : List Shell.Atom → Shell.Text → Bool) (env : Shell.Env) (containerSocket command : String)
    (waypipeArgs : List String) : Prop :=
  (Shell.parse (buildServerCommand containerSocket command waypipeArgs).toList).map
      (Shell.trace (container dirname files isMatch) env) =
    some [
      ⟨["export".toList, "XDG_RUNTIME_DIR=".toList ++ runtimeDir env], []⟩,
      ⟨["dirname".toList, containerSocket.toList], []⟩,
      ⟨["mkdir".toList, "-p".toList, runtimeDir env, dirname containerSocket.toList], []⟩,
      ⟨["exec".toList, "waypipe".toList] ++ waypipeArgs.map String.toList ++ ["--socket".toList, containerSocket.toList,
        "server".toList, "sh".toList, "-lc".toList, ("sleep 0.35; exec " ++ command).toList], []⟩]

section Trace

variable {dirname : Shell.Text → Shell.Text} {files : List Shell.Text} {isMatch : List Shell.Atom → Shell.Text → Bool}
  {w : Shell.World} {env : Shell.Env} {containerSocket command : String} {waypipeArgs : List String}

theorem stands_literal (word : String) (h : Shell.inert word.toList = true) : Shell.Stands (literal word) word.toList :=
  Shell.stands_literal h

theorem invoke_export : Shell.invoke w exportCommand (Shell.commandAtoms w env exportCommand) =
    ⟨["export".toList, "XDG_RUNTIME_DIR=".toList ++ runtimeDir env], []⟩ := by
  have hexport : exportCommand.name = some "export".toList := rfl
  have hname := (stands_literal "export" rfl).value_eq w env
  have hassign := (stands_literal "XDG_RUNTIME_DIR=" rfl).value_eq w env
  rw [Shell.invoke, if_pos hexport, Shell.commandAtoms_eq]
  simp only [exportCommand, List.map_cons, List.map_nil, Shell.wordAtoms_append, Shell.text_append, hname, hassign,
    Shell.wordAtoms, List.append_nil, Shell.text_param]
  rfl

theorem commandTrace_export : Shell.commandTrace w env exportCommand = [] := by
  have hname := (stands_literal "export" rfl).silent w env
  have hassign := (stands_literal "XDG_RUNTIME_DIR=" rfl).silent w env
  simp only [exportCommand, Shell.commandTrace, Shell.wordTrace_append, hname, hassign, Shell.wordTrace,
    Shell.trace_param, List.append_nil]

theorem env_after_export (env : Shell.Env) :
    (env.after ⟨["export".toList, "XDG_RUNTIME_DIR=".toList ++ runtimeDir env], []⟩) runtimeDirName =
      some (runtimeDir env) :=
  Shell.assign_apply env runtimeDirName (runtimeDir env) (by decide)

theorem invoke_dirname (w : Shell.World) (env : Shell.Env) (containerSocket : String) :
    Shell.invoke w (dirnameCommand containerSocket) (Shell.commandAtoms w env (dirnameCommand containerSocket)) =
      ⟨["dirname".toList, containerSocket.toList], []⟩ ∧
    Shell.commandTrace w env (dirnameCommand containerSocket) = [] := by
  have h : List.Forall₂ Shell.Stands (dirnameCommand containerSocket) ["dirname".toList, containerSocket.toList] :=
    .cons (stands_literal _ rfl) (.cons (Shell.stands_quoted _) .nil)
  exact Shell.invoke_of_stands "dirname".toList h rfl (by decide)

theorem invoke_exec : Shell.invoke w (execCommand containerSocket command waypipeArgs)
    (Shell.commandAtoms w env (execCommand containerSocket command waypipeArgs)) =
      ⟨["exec".toList, "waypipe".toList] ++ waypipeArgs.map String.toList ++ ["--socket".toList, containerSocket.toList,
        "server".toList, "sh".toList, "-lc".toList, ("sleep 0.35; exec " ++ command).toList], []⟩ ∧
    Shell.commandTrace w env (execCommand containerSocket command waypipeArgs) = [] := by
  have hargs : List.Forall₂ Shell.Stands (waypipeArgs.map fun arg => Shell.quotedParts arg.toList)
      (waypipeArgs.map String.toList) := by
    rw [List.forall₂_map_left_iff, List.forall₂_map_right_iff]
    exact List.forall₂_same.mpr fun arg _ => Shell.stands_quoted arg.toList
  have hstart : List.Forall₂ Shell.Stands [literal "exec", literal "waypipe"] ["exec".toList, "waypipe".toList] :=
    .cons (stands_literal _ rfl) (.cons (stands_literal _ rfl) .nil)
  have hend : List.Forall₂ Shell.Stands
      [literal "--socket", Shell.quotedParts containerSocket.toList, literal "server", literal "sh", literal "-lc",
        Shell.quotedParts ("sleep 0.35; exec " ++ command).toList]
      ["--socket".toList, containerSocket.toList, "server".toList, "sh".toList, "-lc".toList,
        ("sleep 0.35; exec " ++ command).toList] :=
    .cons (stands_literal _ rfl) <| .cons (Shell.stands_quoted _) <| .cons (stands_literal _ rfl) <|
      .cons (stands_literal _ rfl) <| .cons (stands_literal _ rfl) <| .cons (Shell.stands_quoted _) .nil
  exact Shell.invoke_of_stands "exec".toList (List.rel_append (List.rel_append hstart hargs) hend) rfl (by decide)

theorem invoke_mkdir {directory : Word} {value : Shell.Text} (h : (env runtimeDirName).getD [] = value) :
    Shell.invoke w (mkdirCommand directory) (Shell.commandAtoms w env (mkdirCommand directory)) =
      ⟨["mkdir".toList, "-p".toList, value] ++ Shell.fields w (Shell.wordAtoms w env directory),
        (Shell.wordAtoms w env directory).filter Shell.Atom.active⟩ := by
  have hname := stands_literal "mkdir" rfl
  have hoption := stands_literal "-p" rfl
  obtain ⟨hvalue, htouched⟩ := Shell.stands_param (w := w) h
  rw [Shell.invoke_eq "mkdir".toList rfl (by decide)]
  simp only [mkdirCommand, List.flatMap_cons, List.flatMap_nil, hname.fields_eq, hoption.fields_eq, hvalue, htouched,
    Shell.filter_active_eq_nil.mpr (hname.inactive w env), Shell.filter_active_eq_nil.mpr (hoption.inactive w env)]
  simp

theorem commandTrace_mkdir : Shell.commandTrace w env (mkdirCommand [.subst false [dirnameCommand containerSocket]]) =
    [⟨["dirname".toList, containerSocket.toList], []⟩] := by
  have hname := (stands_literal "mkdir" rfl).silent w env
  have hoption := (stands_literal "-p" rfl).silent w env
  obtain ⟨hinvoke, hsilent⟩ := invoke_dirname w env containerSocket
  simp only [mkdirCommand, Shell.commandTrace, hname, hoption, Shell.wordTrace, Shell.Part.trace, Shell.trace, hinvoke,
    hsilent, List.append_nil, List.nil_append, ite_self]

/-- The directory of the socket reaches the shell through an unquoted substitution. -/
theorem directory_atoms : Shell.wordAtoms (container dirname files isMatch) env
      [.subst false [dirnameCommand containerSocket]] =
    ((dirname containerSocket.toList).rdropWhile (· = '\n')).map (.char .expanded) := by
  obtain ⟨hinvoke, -⟩ := invoke_dirname (container dirname files isMatch) env containerSocket
  have houtput : (container dirname files isMatch).output ["dirname".toList, containerSocket.toList] =
      dirname containerSocket.toList ++ ['\n'] := rfl
  have hdrop := List.rdropWhile_concat_pos (fun c => decide (c = '\n'))
    (dirname containerSocket.toList) '\n' (by decide)
  simp only [Shell.wordAtoms, Shell.Part.atoms, Shell.printed, hinvoke, houtput, hdrop, List.append_nil]
  rfl

/-- The server command hands every value over unchanged exactly when the directory of the socket is not empty and has no
blank and no pattern character: the substitution that prints it is the one value without quotes around it. -/
theorem server_command_values : SeesValues dirname files isMatch env containerSocket command waypipeArgs ↔
    dirname containerSocket.toList ≠ [] ∧
      ∀ c ∈ dirname containerSocket.toList, c ∉ [' ', '\t', '\n', '*', '?', '['] := by
  have htrace : Shell.trace (container dirname files isMatch) env (serverScript containerSocket command waypipeArgs) = [
      ⟨["export".toList, "XDG_RUNTIME_DIR=".toList ++ runtimeDir env], []⟩,
      ⟨["dirname".toList, containerSocket.toList], []⟩,
      ⟨["mkdir".toList, "-p".toList, runtimeDir env] ++ Shell.fields (container dirname files isMatch)
          (((dirname containerSocket.toList).rdropWhile (· = '\n')).map (.char .expanded)),
        (((dirname containerSocket.toList).rdropWhile (· = '\n')).map (.char .expanded)).filter Shell.Atom.active⟩,
      ⟨["exec".toList, "waypipe".toList] ++ waypipeArgs.map String.toList ++ ["--socket".toList, containerSocket.toList,
        "server".toList, "sh".toList, "-lc".toList, ("sleep 0.35; exec " ++ command).toList], []⟩] := by
    have henv := congrArg (Option.getD · []) (env_after_export env)
    simp only [serverScript, Shell.trace, invoke_export, commandTrace_export, invoke_mkdir henv, commandTrace_mkdir,
      invoke_exec, directory_atoms]
    rfl
  rw [SeesValues, parse_buildServerCommand, Option.map_some, htrace]
  simp only [Option.some.injEq, List.cons.injEq, Shell.Invocation.mk.injEq, true_and, and_true,
    List.cons_append, List.nil_append]
  rw [Shell.fields_expanded_iff]
  constructor
  · rintro ⟨-, h⟩
    exact h
  · intro h
    refine ⟨?_, h⟩
    rw [List.rdropWhile_eq_self_iff]
    intro hne hlast
    have hmem := h.2 _ (List.getLast_mem hne)
    rw [of_decide_eq_true hlast] at hmem
    exact hmem (by decide)

/-- A blank in the directory of the socket: `mkdir` is asked for two directories. -/
theorem server_command_splits_directory :
    ¬ SeesValues (fun path => (path.rdropWhile (· ≠ '/')).dropLast) [] (fun _ _ => false) (fun _ => none)
      "/tmp/cocoa way/gui.sock" "foot" ["--compress", "none"] := by
  rw [SeesValues, parse_buildServerCommand]
  decide +kernel

end Trace

end CocoaWay.Sessions
